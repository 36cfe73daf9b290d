import ClusterCatalog.Proofs.Sync.Handover
/-!
Sightings at a full resync. Those that are pending come into the new store, those that were written
before stay behind in the old one; so it shows whether they were flushed before.
-/
namespace ClusterCatalog

namespace TypedTable

variable {κ α : Type} {t : TypedTable κ α} {db db' : Database}

theorem copyFrom_congr (same : db'.tables t.name = db.tables t.name) : t.copyFrom db' = t.copyFrom db := by
  simp only [copyFrom, Database.rows?, same]

end TypedTable

namespace Catalog

variable {c : Catalog}

def withHistory (c : Catalog) (h : History) (db : Database) : Catalog :=
  { c with directory := { c.directory with history := h }, live := { c.live with db } }

def flushed (c : Catalog) : Catalog := (onDirectory Directory.flushHistory).state c

theorem flushed_of_pending_eq_empty (none : c.directory.history.pending = ∅) : c.flushed = c := by
  have idle : History.flush.run ⟨c.directory.history, c.live.db⟩ = (.ok 0, ⟨c.directory.history, c.live.db⟩) := by
    rw [History.flush, Action.run_bind_ok (Stored.run_getView _), if_pos (Std.ExtTreeSet.isEmpty_iff.2 none)]
    rfl
  unfold Action.run at idle
  simp only [flushed, Action.state, onDirectory, Directory.flushHistory, Action.within, idle]

theorem flushed_eq (accepts : c.live.db.Accepts .replicaHistory) :
    ∃ db, c.flushed = c.withHistory { c.directory.history with pending := ∅ } db ∧
      Database.Confined [.replicaHistory] c.live.db db ∧
      ∀ key, TypedTable.replicaHistory.get db key = match c.directory.history.unflushed? key with
        | some s => .ok (some s)
        | none => TypedTable.replicaHistory.get c.live.db key := by
  obtain ⟨n, db, run, confined, rows⟩ := c.directory.history.run_flush accepts
  unfold Action.run at run
  refine ⟨db, ?_, confined, rows⟩
  simp only [flushed, Action.state, onDirectory, Directory.flushHistory, Action.within, run, withHistory]

end Catalog

namespace Sync

variable {c c' : Catalog} {home name : String} {file : StoreFile} {h : History} {db : Database}

/-- Only the nodes of the old store are looked at. -/
theorem Unfit.congr {old : Database} {e : StoreError} (unfit : Unfit old file e)
    (same : db.tables .nodes = old.tables .nodes) : Unfit db file e := by
  have copies := TypedTable.copyFrom_congr (t := TypedTable.nodes) same
  cases unfit with
  | opening failed => exact .opening failed
  | reading opened unread => exact .reading opened unread
  | copying opened read failed => exact .copying opened read (copies ▸ failed)
  | rereading opened read copied failed => exact .rereading opened read (copies ▸ copied) failed

theorem Breaks.withHistory {snapshot : Snapshot} {cause : InstallError} (breaks : Breaks c snapshot cause) (h : History)
    (same : db.tables .nodes = c.live.db.tables .nodes) : Breaks (c.withHistory h db) snapshot cause := by
  cases breaks with
  | staging failed => exact .staging failed
  | staged staged unfit => exact .staged staged (unfit.congr same)

structure TookOver (c : Catalog) (snapshot : Snapshot) (next : Database) (rows : List Sighting) (c' : Catalog) :
    Prop where
  opened : (snapshot.file?.getD .missing).load = .ok next
  read : TypedTable.replicaHistory.values next = .ok rows
  history : c'.directory.history = c.directory.history.reload rows
  confined : Database.Confined [.counters, .nodes] next c'.live.db

/-- Whether an install succeeds, and what of it, does not depend on the sightings. -/
theorem install_withHistory (home : String) (snapshot : Snapshot) (c : Catalog) (h : History)
    (same : db.tables .nodes = c.live.db.tables .nodes) :
    (∃ e, (install home snapshot).run c = (.error e, c) ∧
      (install home snapshot).run (c.withHistory h db) = (.error e, c.withHistory h db)) ∨
    ∃ report c' next rows, (install home snapshot).run c = (.ok report, c') ∧
      (install home snapshot).run (c.withHistory h db) = (.ok report, c'.withHistory (h.reload rows) c'.live.db) ∧
      TookOver c snapshot next rows c' := by
  obtain ⟨cause, breaks⟩ | ⟨report, c', name, disk, staged, -, next, incoming, n, db', nodes, opened, comes, copied, read, -⟩ :=
    breaks_or_wentLive c home snapshot
  · exact .inl ⟨cause, breaks.run_install home, (breaks.withHistory h same).run_install home⟩
  · have copied' : (TypedTable.nodes.copyFrom db).run incoming.db = (.ok n, db') := by
      rw [TypedTable.copyFrom_congr (t := TypedTable.nodes) same, copied]
    have carried : Database.Confined [.nodes] incoming.db db' := TypedTable.confined_of_copyFrom copied
    have ran' : (install home snapshot).run (c.withHistory h db) = _ :=
      run_install_of_goLive staged
        (run_goLive_of_comes (c := Catalog.withHistory { c with disk } h db) opened comes copied' read)
    exact .inr ⟨_, _, next, incoming.history,
      run_install_of_goLive staged (run_goLive_of_comes opened comes copied read), ran',
      opened, comes.history, rfl, (comes.confined.mono (by simp)).trans (carried.mono (by simp))⟩

section Resync

variable {t : Setting}

/-- So it is with a full resync during which nothing else happens. -/
theorem yields_resync_withHistory (alone : ∀ c, t.meanwhile .snapshot c = c) (c : Catalog) (h : History)
    (same : db.tables .nodes = c.live.db.tables .nodes) :
    (∃ outcome, (∀ report, outcome ≠ .fullResync report) ∧ Yields t resync c outcome c ∧
      Yields t resync (c.withHistory h db) outcome (c.withHistory h db)) ∨
    ∃ snapshot report c' next rows, t.reply .snapshot = .ok (some snapshot) ∧
      Yields t resync c (.fullResync report) c' ∧
      Yields t resync (c.withHistory h db) (.fullResync report) (c'.withHistory (h.reload rows) c'.live.db) ∧
      TookOver c snapshot next rows c' := by
  have asked (c : Catalog) : Yields t (Activity.ask .snapshot) c (t.reply .snapshot) c := by
    have yields := yields_ask (t := t) .snapshot c
    rwa [alone] at yields
  match reply : t.reply .snapshot with
  | .error e =>
    have ends (c : Catalog) : Yields t resync c (.failed e.message) c := (reply ▸ asked c).bind (yields_pure _ c)
    exact .inl ⟨_, by simp, ends c, ends _⟩
  | .ok none =>
    have ends (c : Catalog) : Yields t resync c .nothingFromAuthority c := (reply ▸ asked c).bind (yields_pure _ c)
    exact .inl ⟨_, by simp, ends c, ends _⟩
  | .ok (some snapshot) =>
    obtain ⟨e, failed, failed'⟩ | ⟨report, c', next, rows, ran, ran', took⟩ :=
      install_withHistory t.home snapshot c h same
    · rw [← alone c] at failed
      rw [← alone (c.withHistory h db)] at failed'
      have ends : Yields t resync c (.failed e.message) (t.meanwhile .snapshot c) := yields_resync reply failed rfl
      have ends' : Yields t resync (c.withHistory h db) (.failed e.message) (t.meanwhile .snapshot (c.withHistory h db)) :=
        yields_resync reply failed' rfl
      rw [alone] at ends ends'
      exact .inl ⟨.failed e.message, by simp, ends, ends'⟩
    · rw [← alone c] at ran
      rw [← alone (c.withHistory h db)] at ran'
      exact .inr ⟨snapshot, report, c', next, rows, rfl, yields_of_installed reply ran, yields_of_installed reply ran', took⟩

structure SameSightings (c c' : Catalog) : Prop where
  memory : c.directory.history = c'.directory.history
  rows (key : ReplicaKey) :
    TypedTable.replicaHistory.get c.live.db key = TypedTable.replicaHistory.get c'.live.db key

structure Has (next : Database) (rows : List Sighting) (key : ReplicaKey) (sighting? : Option Sighting) : Prop where
  read : sighting? = (History.ofRows rows).entries[key]?
  row {s : Sighting} (pending : sighting? = some s) : TypedTable.replicaHistory.get next key = .ok (some s)

/-- A flush before a snapshot is taken over shows, unless the snapshot has all that was pending. -/
theorem TookOver.sameSightings_iff {snapshot : Snapshot} {next : Database} {rows : List Sighting}
    (took : TookOver c snapshot next rows c') (accepts : next.Accepts .replicaHistory) :
    SameSightings
        (c'.withHistory (History.reload { c.directory.history with pending := ∅ } rows) c'.live.db).flushed c'.flushed ↔
      ∀ key ∈ c.directory.history.pending, Has next rows key c.directory.history.entries[key]? := by
  have stored (key : ReplicaKey) : TypedTable.replicaHistory.get c'.live.db key = TypedTable.replicaHistory.get next key :=
    TypedTable.get_of_tables_eq (took.confined.tables (by simp [TypedTable.replicaHistory]))
  -- after the first flush nothing is pending any more
  have idle := (History.pending_reload { c.directory.history with pending := ∅ } rows).1
  rw [Catalog.flushed_of_pending_eq_empty idle]
  obtain ⟨db, flushed, -, written⟩ := c'.flushed_eq (accepts.confined took.confined (by simp))
  have kept (key : ReplicaKey) : c'.directory.history.unflushed? key = c.directory.history.unflushed? key := by
    rw [took.history, History.unflushed?, History.unflushed?, (History.pending_reload _ rows).1]
    split
    · next pending => exact (History.pending_reload _ rows).2 key pending
    · rfl
  rw [flushed]
  have early (key : ReplicaKey) :
      (History.reload { c.directory.history with pending := ∅ } rows).entries[key]? =
        (History.ofRows rows).entries[key]? := by
    rw [History.getElem?_reload, if_neg Std.ExtTreeSet.not_mem_empty]
  have late (key : ReplicaKey) : c'.directory.history.entries[key]? =
      if key ∈ c.directory.history.pending then c.directory.history.entries[key]?
      else (History.ofRows rows).entries[key]? := by
    rw [took.history, History.getElem?_reload]
  constructor
  · rintro ⟨memory, same⟩ key pending
    have entry : (History.reload { c.directory.history with pending := ∅ } rows).entries[key]? =
        (c'.withHistory { c'.directory.history with pending := ∅ } db).directory.history.entries[key]? :=
      congrArg (fun h : History => h.entries[key]?) memory
    rw [early] at entry
    replace entry := entry.trans (late key)
    rw [if_pos pending] at entry
    refine ⟨entry.symm, fun {s} sighted => ?_⟩
    have row : TypedTable.replicaHistory.get c'.live.db key = TypedTable.replicaHistory.get db key := same key
    rwa [stored, written, kept, History.unflushed?, if_pos pending, sighted] at row
  · intro has
    refine ⟨?_, fun key => ?_⟩
    · have entries : (History.reload { c.directory.history with pending := ∅ } rows).entries =
          c'.directory.history.entries := Std.ExtTreeMap.ext_getElem? fun key => by
        rw [early, late]
        split
        · next pending => exact (has key pending).read.symm
        · rfl
      exact congrArg₂ History.mk entries idle
    · change TypedTable.replicaHistory.get c'.live.db key = TypedTable.replicaHistory.get db key
      rw [written, kept]
      by_cases pending : key ∈ c.directory.history.pending
      · rw [History.unflushed?, if_pos pending]
        split
        · next s sighted => rw [stored, (has key pending).row sighted]
        · rfl
      · rw [History.unflushed?, if_neg pending]

def State.flushed (s : State) : State := { s with catalog := s.catalog.flushed }

/-- A full resync after a flush and one without it end alike, and so do the catalogs after another flush,
unless a snapshot was installed. Then the sightings are the same in memory and in the table just if the
snapshot has all that was pending before. -/
theorem flush_shows_iff {s : State} (alone : ∀ c, t.meanwhile .snapshot c = c)
    (accepts : s.catalog.live.db.Accepts .replicaHistory)
    (fit : ∀ snapshot next, t.reply .snapshot = .ok (some snapshot) →
      (snapshot.file?.getD .missing).load = .ok next → next.Accepts .replicaHistory) :
    ∃ outcome early late, fullResync.finish t.respond s.flushed = (outcome, early) ∧
      fullResync.finish t.respond s = (outcome, late) ∧
      ((∀ report, outcome ≠ .fullResync report) → early.catalog.flushed = late.catalog.flushed) ∧
      ∀ report, outcome = .fullResync report → ∃ snapshot next rows, t.reply .snapshot = .ok (some snapshot) ∧
        (snapshot.file?.getD .missing).load = .ok next ∧ TypedTable.replicaHistory.values next = .ok rows ∧
        (SameSightings early.catalog.flushed late.catalog.flushed ↔
          ∀ key ∈ s.catalog.directory.history.pending, Has next rows key s.catalog.directory.history.entries[key]?) := by
  obtain ⟨db, flushed, confined, -⟩ := s.catalog.flushed_eq accepts
  have twice : s.catalog.flushed.flushed = s.catalog.flushed :=
    Catalog.flushed_of_pending_eq_empty (by rw [flushed]; rfl)
  cases taken : s.guard.taken with
  | true =>
    exact ⟨.skipped, s.flushed, s, finish_guarded_of_taken (s := s.flushed) taken, finish_guarded_of_taken taken,
      fun _ => twice, by simp⟩
  | false =>
    obtain ⟨outcome, none, ends, ends'⟩ | ⟨snapshot, report, c', next, rows, reply, ends, ends', took⟩ :=
      yields_resync_withHistory alone s.catalog { s.catalog.directory.history with pending := ∅ }
        (confined.tables (by simp))
    · rw [← flushed] at ends'
      exact ⟨outcome, _, _, ends'.finish_guarded (s := s.flushed) taken, ends.finish_guarded taken, fun _ => twice,
        fun report same => absurd same (none report)⟩
    · rw [← flushed] at ends'
      refine ⟨.fullResync report, _, _, ends'.finish_guarded (s := s.flushed) taken, ends.finish_guarded taken,
        fun none => absurd rfl (none report), fun _ _ => ⟨snapshot, next, rows, reply, took.opened, took.read, ?_⟩⟩
      exact took.sameSightings_iff (fit snapshot next reply took.opened)

theorem flush_shows_iff_mixed : (∀ c, mixedSetting.meanwhile .snapshot c = c) ∧
    mixedState.catalog.live.db.Accepts .replicaHistory ∧ mixedStore.Accepts .replicaHistory ∧
    ∃ report early late, fullResync.finish mixedSetting.respond mixedState.flushed = (.fullResync report, early) ∧
      fullResync.finish mixedSetting.respond mixedState = (.fullResync report, late) ∧
      ¬ SameSightings early.catalog.flushed late.catalog.flushed := by
  have accepts : mixedState.catalog.live.db.Accepts .replicaHistory := ⟨⟨∅, rfl⟩, List.not_mem_nil⟩
  have accepts' : mixedStore.Accepts .replicaHistory := ⟨⟨∅, rfl⟩, List.not_mem_nil⟩
  have opened : (StoreFile.database mixedStore).load = .ok mixedStore := StoreFile.load_database (by decide +kernel)
  obtain ⟨outcome, early, late, ran, ran', -, shows⟩ := flush_shows_iff (t := mixedSetting) (s := mixedState)
    (fun _ => rfl) accepts fun snapshot next reply load => by
      cases reply
      cases opened.symm.trans load
      exact accepts'
  have installed : (fullResync.finish mixedSetting.respond mixedState).1 =
      .fullResync ⟨"stores/scm-5", 2, 1, 1⟩ := by decide +kernel
  rw [ran'] at installed
  subst installed
  obtain ⟨snapshot, next, rows, reply, load, read, iff⟩ := shows _ rfl
  cases reply
  cases opened.symm.trans load
  have none : TypedTable.replicaHistory.values mixedStore = .ok [] := eq_ok_of_toOption (by decide +kernel)
  cases none.symm.trans read
  refine ⟨fun _ => rfl, accepts, accepts', _, early, late, ran, ran', fun same => ?_⟩
  have pending : sharedReplica.key ∈ mixedState.catalog.directory.history.pending := by decide +kernel
  have missing := (iff.1 same sharedReplica.key pending).read
  have known : mixedState.catalog.directory.history.entries[sharedReplica.key]?.isSome = true := by decide +kernel
  rw [missing] at known
  exact absurd known (by decide +kernel)

/-- Container 1 is in the snapshot, and yet its sighting is lost if it was flushed before. -/
theorem lost_if_flushed :
    let early := (fullResync.finish mixedSetting.respond mixedState.flushed).2.catalog.flushed
    let late := (fullResync.finish mixedSetting.respond mixedState).2.catalog.flushed
    early.directory.containers.contains sharedReplica.container = true ∧
      early.directory.history.entries[sharedReplica.key]? = none ∧
      (TypedTable.replicaHistory.get early.live.db sharedReplica.key).toOption = some none ∧
      late.directory.history.entries[sharedReplica.key]? = some ⟨⟨1⟩, ⟨⟨3⟩⟩, 4, 4, 0, .quasiClosed⟩ ∧
      (TypedTable.replicaHistory.get late.live.db sharedReplica.key).toOption =
        some (some ⟨⟨1⟩, ⟨⟨3⟩⟩, 4, 4, 0, .quasiClosed⟩) := by
  decide +kernel

end Resync

end Sync

end ClusterCatalog

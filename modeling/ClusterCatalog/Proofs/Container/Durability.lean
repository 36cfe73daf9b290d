import Mathlib.Data.List.Induction
import ClusterCatalog.Proofs.Container.Provenance
/-!
Sightings over one store. What is not pending stands in the table just as it is in memory, so a reload
changes no sighting, a flush that fails loses none, and one that is taken leaves the table with them all.
-/
namespace ClusterCatalog

namespace History

variable {s s' : Stored History}

theorem foldl_accept_of_idle (rows : List Sighting) (entries : Std.ExtTreeMap ReplicaKey Sighting) :
    rows.foldl accept ⟨entries, ∅⟩ = ⟨rows.foldl (fun m row => m.insert row.key row) entries, ∅⟩ := by
  induction rows generalizing entries with
  | nil => rfl
  | cons row rows ih =>
    have taken : accept ⟨entries, ∅⟩ row = ⟨entries.insert row.key row, ∅⟩ := by simp [accept]
    rw [List.foldl_cons, taken, ih, List.foldl_cons]

theorem getElem?_ofRows {rows : List Sighting} (distinct : (rows.map Sighting.key).Nodup) (key : ReplicaKey) :
    (ofRows rows).entries[key]? = rows.find? (·.key = key) := by
  have none : (∅ : Std.ExtTreeMap ReplicaKey Sighting).filter
      (fun key _ => (∅ : Std.ExtTreeSet ReplicaKey).contains key) = ∅ := Std.ExtTreeMap.ext_getElem? fun _ => by simp
  rw [ofRows, reload, none, foldl_accept_of_idle]
  refine (getElem?_foldl_upsert Sighting.key (fun _ row => row) distinct ∅ key).trans ?_
  cases rows.find? (·.key = key) <;> simp

theorem get_of_values {db : Database} {rows : List Sighting} (own : TypedTable.replicaHistory.OwnKeys Sighting.key db)
    (read : TypedTable.replicaHistory.values db = .ok rows) (key : ReplicaKey) :
    TypedTable.replicaHistory.get db key = .ok (ofRows rows).entries[key]? := by
  obtain ⟨view, mirrors⟩ := TypedTable.mirrors_of_values read own
  obtain ⟨rows', read', distinct, shows⟩ := mirrors.values KeyCodec.exact_replica
  rw [read] at read'
  cases read'
  rw [mirrors.get, getElem?_ofRows distinct, shows]

/-- What is done to the sightings and to their table. -/
inductive Deed where
  | record (now : Millis) (replica : Replica)
  | flush
  | load
  | refuse (coming : TableName → List Bool)

namespace Deed

def perform (s : Stored History) : Deed → Stored History
  | record now x => { s with view := s.view.record now x }
  | flush => History.flush.state s
  | load =>
    match TypedTable.replicaHistory.values s.db with
    | .ok rows => { s with view := s.view.reload rows }
    | .error _ => s
  | refuse coming => { s with db := { s.db with refusals := coming } }

def recording? : Deed → Option (Millis × Replica)
  | record now x => some (now, x)
  | _ => none

end Deed

def run (s : Stored History) (deeds : List Deed) : Stored History := deeds.foldl Deed.perform s

def last? (key : ReplicaKey) (deeds : List Deed) : Option (Millis × Replica) :=
  deeds.reverse.findSome? fun d => d.recording?.filter (·.2.key = key)

theorem run_concat (s : Stored History) (deeds : List Deed) (d : Deed) :
    run s (deeds ++ [d]) = d.perform (run s deeds) := by
  rw [run, List.foldl_append]
  rfl

theorem last?_concat (key : ReplicaKey) (deeds : List Deed) (d : Deed) :
    last? key (deeds ++ [d]) = (d.recording?.filter (·.2.key = key)).or (last? key deeds) := by
  rw [last?, List.reverse_concat, List.findSome?_cons, last?]
  cases d.recording?.filter (·.2.key = key) <;> rfl

structure Kept (s : Stored History) : Prop where
  own : TypedTable.replicaHistory.OwnKeys Sighting.key s.db
  keyed : s.view.Keyed
  present {key : ReplicaKey} (pending : key ∈ s.view.pending) : key ∈ s.view.entries
  stored {key : ReplicaKey} {e : Sighting} (here : s.view.entries[key]? = some e) (idle : key ∉ s.view.pending) :
    TypedTable.replicaHistory.get s.db key = .ok (some e)

theorem kept_of_ownKeys {db : Database} (own : TypedTable.replicaHistory.OwnKeys Sighting.key db) : Kept ⟨{}, db⟩ where
  own := own
  keyed key e here := by simp at here
  present pending := absurd pending Std.ExtTreeSet.not_mem_empty
  stored here := by simp at here

structure Flushed (s s' : Stored History) : Prop where
  entries : s'.view.entries = s.view.entries
  pending : s'.view.pending = ∅
  confined : Database.Confined [.replicaHistory] s.db s'.db
  row (key : ReplicaKey) : TypedTable.replicaHistory.get s'.db key =
    if key ∈ s.view.pending then .ok s.view.entries[key]? else TypedTable.replicaHistory.get s.db key

structure Reread (s s' : Stored History) : Prop where
  tables : s'.db.tables = s.db.tables
  pending : s'.view.pending = s.view.pending
  entry (key : ReplicaKey) : s'.view.entries[key]? = s.view.entries[key]? ∨
    s.view.entries[key]? = none ∧ TypedTable.replicaHistory.get s.db key = .ok s'.view.entries[key]?

theorem Reread.get (reread : Reread s s') (key : ReplicaKey) :
    TypedTable.replicaHistory.get s'.db key = TypedTable.replicaHistory.get s.db key :=
  TypedTable.get_of_tables_eq (congrFun reread.tables _)

inductive Effect (s : Stored History) : Option (Millis × Replica) → Stored History → Prop where
  | recorded (now : Millis) (x : Replica) : Effect s (some (now, x)) { s with view := s.view.record now x }
  | flushed {s' : Stored History} (h : Flushed s s') : Effect s none s'
  | reread {s' : Stored History} (h : Reread s s') : Effect s none s'

namespace Kept

theorem length_pendingRows (kept : Kept s) : s.view.pendingRows.length = s.view.pending.size := by
  have all : ∀ key ∈ s.view.pending.toList, (s.view.entries[key]?.map (key, ·)).isSome := by
    intro key pending
    rw [Option.isSome_map]
    exact Std.ExtTreeMap.mem_iff_isSome_getElem?.1 (kept.present (Std.ExtTreeSet.mem_toList.1 pending))
  rw [pendingRows, List.filterMap_length_eq_length.2 all, Std.ExtTreeSet.length_toList]

/-- A flush writes just the pending sightings and says how many, or it fails and changes nothing. -/
theorem flush_cases (kept : Kept s) :
    (∃ s', flush.run s = (.ok s.view.pending.size, s') ∧ Flushed s s') ∨
    (¬ s.db.Accepts .replicaHistory ∧ ∃ e s', flush.run s = (.error e, s') ∧ s'.view = s.view ∧
      s'.db.tables = s.db.tables) := by
  obtain ⟨db', run, confined, rows⟩ | ⟨refuses, e, db', run, confined⟩ := s.view.flush_cases s.db
  · rw [kept.length_pendingRows] at run
    refine .inl ⟨_, run, rfl, rfl, confined, fun key => ?_⟩
    rw [rows, unflushed?]
    by_cases pending : key ∈ s.view.pending
    · obtain ⟨e, here⟩ := Option.isSome_iff_exists.1 (Std.ExtTreeMap.mem_iff_isSome_getElem?.1 (kept.present pending))
      rw [if_pos pending, if_pos pending, here]
    · rw [if_neg pending, if_neg pending]
  · exact .inr ⟨refuses, e, _, run, rfl, funext fun name => confined.tables (by simp)⟩

theorem reread_load (kept : Kept s) : Reread s (Deed.load.perform s) := by
  cases read : TypedTable.replicaHistory.values s.db with
  | error e =>
    rw [Deed.perform, read]
    exact ⟨rfl, rfl, fun _ => .inl rfl⟩
  | ok rows =>
    rw [Deed.perform, read]
    refine ⟨rfl, (s.view.pending_reload rows).1, fun key => ?_⟩
    have row := get_of_values kept.own read key
    dsimp only
    rw [getElem?_reload]
    split
    · exact .inl rfl
    · next idle =>
      cases here : s.view.entries[key]? with
      | none => exact .inr ⟨rfl, row⟩
      | some e =>
        -- what was there was not pending, so the table has had it all along
        rw [kept.stored here idle] at row
        exact .inl (Except.ok.inj row).symm

theorem effect (kept : Kept s) (d : Deed) : Effect s d.recording? (d.perform s) := by
  cases d with
  | record now x => exact .recorded now x
  | flush =>
    obtain ⟨s', run, flushed⟩ | ⟨-, e, s', run, view, tables⟩ := kept.flush_cases
    · have same : Deed.flush.perform s = s' := congrArg Prod.snd run
      rw [same]
      exact .flushed flushed
    · have same : Deed.flush.perform s = s' := congrArg Prod.snd run
      rw [same]
      exact .reread ⟨tables, by rw [view], fun _ => .inl (by rw [view])⟩
  | load => exact .reread kept.reread_load
  | refuse coming => exact .reread ⟨rfl, rfl, fun _ => .inl rfl⟩

theorem record (kept : Kept s) (now : Millis) (x : Replica) : Kept { s with view := s.view.record now x } where
  own := kept.own
  keyed := by
    have traced : Traced (· = x) (fun _ => False) s.view (s.view.record now x) := traced_record s.view now rfl
    exact traced.keyed kept.keyed
  present {key} pending := by
    obtain same | pending := Std.ExtTreeSet.mem_insert.1 pending
    · exact Std.ExtTreeMap.mem_insert.2 (.inl same)
    · exact Std.ExtTreeMap.mem_insert.2 (.inr (kept.present pending))
  stored {key e} here idle := by
    have other : x.key ≠ key := fun same => idle (same ▸ Std.ExtTreeSet.mem_insert_self)
    rw [getElem?_record, if_neg other] at here
    exact kept.stored here fun pending => idle (Std.ExtTreeSet.mem_insert.2 (.inr pending))

theorem flushed (kept : Kept s) (h : Flushed s s') : Kept s' where
  own := by
    refine TypedTable.ownKeys_iff.2 fun key e row => ?_
    rw [h.row] at row
    split at row
    · exact kept.keyed key e (Except.ok.inj row)
    · exact TypedTable.ownKeys_iff.1 kept.own key e row
  keyed key e here := kept.keyed key e (h.entries ▸ here)
  present pending := by
    rw [h.pending] at pending
    exact absurd pending Std.ExtTreeSet.not_mem_empty
  stored {key e} here _ := by
    rw [h.entries] at here
    rw [h.row]
    split
    · rw [here]
    · next idle => exact kept.stored here idle

theorem reread (kept : Kept s) (h : Reread s s') : Kept s' where
  own := by
    refine TypedTable.ownKeys_iff.2 fun key e row => ?_
    rw [h.get] at row
    exact TypedTable.ownKeys_iff.1 kept.own key e row
  keyed key e here := by
    obtain same | ⟨-, row⟩ := h.entry key
    · exact kept.keyed key e (same ▸ here)
    · rw [here] at row
      exact TypedTable.ownKeys_iff.1 kept.own key e row
  present {key} pending := by
    have here := Std.ExtTreeMap.mem_iff_isSome_getElem?.1 (kept.present (h.pending ▸ pending))
    obtain same | ⟨absent, -⟩ := h.entry key
    · rwa [Std.ExtTreeMap.mem_iff_isSome_getElem?, same]
    · rw [absent] at here
      cases here
  stored {key e} here idle := by
    rw [h.get]
    obtain same | ⟨-, row⟩ := h.entry key
    · exact kept.stored (same ▸ here) (h.pending ▸ idle)
    · rw [row, here]

theorem of_effect {recorded? : Option (Millis × Replica)} (kept : Kept s) (h : Effect s recorded? s') : Kept s' := by
  cases h with
  | recorded now x => exact kept.record now x
  | flushed h => exact kept.flushed h
  | reread h => exact kept.reread h

theorem run (kept : Kept s) (deeds : List Deed) : Kept (History.run s deeds) := by
  induction deeds generalizing s with
  | nil => exact kept
  | cons d deeds ih => exact ih (kept.of_effect (kept.effect d))

end Kept

structure Dated (first : Millis) (key : ReplicaKey) (s : Stored History) : Prop where
  entry : ∃ e, s.view.entries[key]? = some e ∧ e.firstSeen = first
  row : ∃ e, TypedTable.replicaHistory.get s.db key = .ok (some e) ∧ e.firstSeen = first

namespace Effect

variable {recorded? : Option (Millis × Replica)} {key : ReplicaKey}

theorem entry {e : Sighting} (h : Effect s recorded? s') (here : s.view.entries[key]? = some e) :
    s'.view.entries[key]? = some e ∨ ∃ now x, recorded? = some (now, x) ∧ x.key = key ∧
      s'.view.entries[key]? = some (sighted now x (some e)) := by
  cases h with
  | recorded now x =>
    dsimp only
    rw [getElem?_record]
    split
    · next same => exact .inr ⟨now, x, rfl, same, by rw [same, here]⟩
    · exact .inl here
  | flushed h => exact .inl (by rw [h.entries, here])
  | reread h =>
    obtain same | ⟨absent, -⟩ := h.entry key
    · exact .inl (same.trans here)
    · rw [absent] at here
      cases here

theorem latest {now : Millis} {x : Replica} (h : Effect s recorded? s')
    (own : recorded?.filter (·.2.key = key) = some (now, x)) :
    ∃ e, s'.view.entries[key]? = some e ∧ e.lastSeen = now ∧ e.sequence = x.sequence ∧ e.state = x.state := by
  obtain ⟨rfl, same⟩ := Option.filter_eq_some_iff.1 own
  cases h
  refine ⟨sighted now x s.view.entries[x.key]?, ?_, ?_⟩
  · rw [getElem?_record, if_pos (by simpa using same)]
  · cases s.view.entries[x.key]? <;> exact ⟨rfl, rfl, rfl⟩

theorem first {e : Sighting} (h : Effect s recorded? s') (here : s.view.entries[key]? = some e) :
    ∃ e', s'.view.entries[key]? = some e' ∧ e'.firstSeen = e.firstSeen := by
  obtain same | ⟨now, x, -, -, again⟩ := h.entry here
  · exact ⟨e, same, rfl⟩
  · exact ⟨_, again, rfl⟩

theorem dated {first : Millis} (h : Effect s recorded? s') (dated : Dated first key s) : Dated first key s' where
  entry := by
    obtain ⟨e, here, rfl⟩ := dated.entry
    exact h.first here
  row := by
    cases h with
    | recorded now x => exact dated.row
    | flushed h =>
      rw [h.row]
      split
      · obtain ⟨e, here, same⟩ := dated.entry
        exact ⟨e, by rw [here], same⟩
      · exact dated.row
    | reread h =>
      rw [h.get]
      exact dated.row

end Effect

namespace Kept

variable {key : ReplicaKey} {e : Sighting}

theorem first_run (kept : Kept s) (here : s.view.entries[key]? = some e) (deeds : List Deed) :
    ∃ e', (History.run s deeds).view.entries[key]? = some e' ∧ e'.firstSeen = e.firstSeen := by
  induction deeds generalizing s e with
  | nil => exact ⟨e, here, rfl⟩
  | cons d deeds ih =>
    obtain ⟨e', here', same⟩ := (kept.effect d).first here
    rw [← same]
    exact ih (kept.of_effect (kept.effect d)) here'

theorem dated_run {first : Millis} (kept : Kept s) (dated : Dated first key s) (deeds : List Deed) :
    Dated first key (History.run s deeds) := by
  induction deeds generalizing s with
  | nil => exact dated
  | cons d deeds ih => exact ih (kept.of_effect (kept.effect d)) ((kept.effect d).dated dated)

theorem latest_run (kept : Kept s) (deeds : List Deed) {now : Millis} {x : Replica}
    (recorded : last? key deeds = some (now, x)) : ∃ e, (History.run s deeds).view.entries[key]? = some e ∧
      e.lastSeen = now ∧ e.sequence = x.sequence ∧ e.state = x.state := by
  induction deeds using List.reverseRecOn with
  | nil => cases recorded
  | append_singleton deeds d ih =>
    have effect := (kept.run deeds).effect d
    rw [last?_concat] at recorded
    rw [run_concat]
    cases own : d.recording?.filter (·.2.key = key) with
    | some last =>
      rw [own, Option.some_or] at recorded
      cases recorded
      exact effect.latest own
    | none =>
      rw [own, Option.none_or] at recorded
      obtain ⟨e, here, last⟩ := ih recorded
      obtain same | ⟨now', x', again, rfl, -⟩ := effect.entry here
      · exact ⟨e, same, last⟩
      · -- it would have been recorded once more
        simp [again] at own

end Kept

structure Durable (s : Stored History) (deeds : List Deed) : Prop where
  present {key : ReplicaKey} (pending : key ∈ s.view.pending) : key ∈ s.view.entries
  stored {key : ReplicaKey} {e : Sighting} (here : s.view.entries[key]? = some e) (idle : key ∉ s.view.pending) :
    TypedTable.replicaHistory.get s.db key = .ok (some e)
  accepts (h : s.db.Accepts .replicaHistory) : ∃ n s', flush.run s = (.ok n, s')
  taken {n : Nat} {s' : Stored History} (ran : flush.run s = (.ok n, s')) : n = s.view.pending.size ∧ Flushed s s'
  refused {e : StoreError} {s' : Stored History} (ran : flush.run s = (.error e, s')) :
    s'.view = s.view ∧ s'.db.tables = s.db.tables
  /-- When a pair was first seen never changes in memory, nor in the table once it says the same. -/
  first {key : ReplicaKey} {e : Sighting} (here : s.view.entries[key]? = some e) (later : List Deed) :
    ∃ e', (run s later).view.entries[key]? = some e' ∧ e'.firstSeen = e.firstSeen
  dated {first : Millis} {key : ReplicaKey} (dated : Dated first key s) (later : List Deed) :
    Dated first key (run s later)
  /-- A flush that is taken leaves the table with what was recorded last, for every pair ever recorded. -/
  latest {n : Nat} {s' : Stored History} {key : ReplicaKey} {now : Millis} {x : Replica}
    (ran : flush.run s = (.ok n, s')) (recorded : last? key deeds = some (now, x)) :
    ∃ e, TypedTable.replicaHistory.get s'.db key = .ok (some e) ∧ s'.view.entries[key]? = some e ∧
      e.lastSeen = now ∧ e.sequence = x.sequence ∧ e.state = x.state

theorem Kept.taken {n : Nat} (kept : Kept s) (ran : flush.run s = (.ok n, s')) :
    n = s.view.pending.size ∧ Flushed s s' := by
  obtain ⟨s'', ran', flushed⟩ | ⟨-, e, s'', ran', -⟩ := kept.flush_cases
  · rw [ran] at ran'
    cases ran'
    exact ⟨rfl, flushed⟩
  · rw [ran] at ran'
    cases ran'

theorem Kept.refused {e : StoreError} (kept : Kept s) (ran : flush.run s = (.error e, s')) :
    s'.view = s.view ∧ s'.db.tables = s.db.tables := by
  obtain ⟨s'', ran', -⟩ | ⟨-, e', s'', ran', same⟩ := kept.flush_cases
  · rw [ran] at ran'
    cases ran'
  · rw [ran] at ran'
    cases ran'
    exact same

/-- A pair that a flush has left in memory is in the table as well. -/
theorem Kept.row_of_flushed (kept : Kept s) (flushed : Flushed s s') {key : ReplicaKey} {e : Sighting}
    (here : s.view.entries[key]? = some e) : TypedTable.replicaHistory.get s'.db key = .ok (some e) :=
  (kept.flushed flushed).stored (flushed.entries ▸ here) (by rw [flushed.pending]; exact Std.ExtTreeSet.not_mem_empty)

theorem durable_of_kept (kept : Kept s) {deeds : List Deed}
    (latest : ∀ {key now x}, last? key deeds = some (now, x) → ∃ e, s.view.entries[key]? = some e ∧
      e.lastSeen = now ∧ e.sequence = x.sequence ∧ e.state = x.state) : Durable s deeds where
  present := kept.present
  stored := kept.stored
  accepts accepts := by
    obtain ⟨s', ran, -⟩ | ⟨refuses, -⟩ := kept.flush_cases
    · exact ⟨_, s', ran⟩
    · exact absurd accepts refuses
  taken := kept.taken
  refused := kept.refused
  first := kept.first_run
  dated := kept.dated_run
  latest ran recorded := by
    obtain ⟨e, here, last⟩ := latest recorded
    have flushed := (kept.taken ran).2
    exact ⟨e, kept.row_of_flushed flushed here, flushed.entries ▸ here, last⟩

/-- What a store has is dated as it says there once the store was read. -/
theorem dated_load {db : Database} (own : TypedTable.replicaHistory.OwnKeys Sighting.key db) {rows : List Sighting}
    (read : TypedTable.replicaHistory.values db = .ok rows) {key : ReplicaKey} {e : Sighting}
    (row : TypedTable.replicaHistory.get db key = .ok (some e)) :
    Dated e.firstSeen key (Deed.load.perform ⟨{}, db⟩) := by
  have loaded : Deed.load.perform ⟨{}, db⟩ = ⟨ofRows rows, db⟩ := by
    rw [Deed.perform, read]
    rfl
  rw [loaded]
  refine ⟨⟨e, ?_, rfl⟩, e, row, rfl⟩
  rw [get_of_values own read] at row
  exact Except.ok.inj row

/-- Over a store whose rows stand under their own keys, and through any records, flushes and loads, whichever
writes are refused, no sighting is lost. What the store had keeps its date if the store is read first. -/
theorem durable_of_run {db : Database} (own : TypedTable.replicaHistory.OwnKeys Sighting.key db) (deeds : List Deed) :
    Durable (run ⟨{}, db⟩ deeds) deeds ∧
    ∀ rows key e, TypedTable.replicaHistory.values db = .ok rows →
      TypedTable.replicaHistory.get db key = .ok (some e) →
      Dated e.firstSeen key (run ⟨{}, db⟩ (.load :: deeds)) := by
  have kept := kept_of_ownKeys own
  refine ⟨durable_of_kept (kept.run deeds) (kept.latest_run deeds), fun rows key e read row => ?_⟩
  exact (kept.of_effect (kept.effect .load)).dated_run (dated_load own read row) deeds

section Outlived

def outlivedStore : Database :=
  (TypedTable.replicaHistory.putAll [(⟨⟨1⟩, ⟨⟨3⟩⟩⟩, ⟨⟨1⟩, ⟨⟨3⟩⟩, 2, 4, 7, .opened⟩)]).state .empty

def outlivedDeeds : List Deed :=
  [.load, .record 8 ⟨⟨1⟩, ⟨⟨3⟩⟩, .closing, 9, 0, 0, ⟨⟨3⟩⟩⟩, .record 8 ⟨⟨1⟩, ⟨⟨4⟩⟩, .closing, 9, 0, 0, ⟨⟨4⟩⟩⟩,
    .refuse fun name => if name = .replicaHistory then [true] else [], .flush, .load,
    .record 11 ⟨⟨1⟩, ⟨⟨4⟩⟩, .closed, 9, 0, 0, ⟨⟨4⟩⟩⟩]

theorem durable_of_run_outlived :
    (Durable (run ⟨{}, outlivedStore⟩ outlivedDeeds) outlivedDeeds ∧
      ∀ rows key e, TypedTable.replicaHistory.values outlivedStore = .ok rows →
        TypedTable.replicaHistory.get outlivedStore key = .ok (some e) →
        Dated e.firstSeen key (run ⟨{}, outlivedStore⟩ (.load :: outlivedDeeds))) ∧
    (flush.run (run ⟨{}, outlivedStore⟩ outlivedDeeds)).map Except.toOption
        (fun s => ((TypedTable.replicaHistory.values s.db).toOption, s.view.pending.toList)) =
      (some 2, some [⟨⟨1⟩, ⟨⟨3⟩⟩, 2, 8, 9, .closing⟩, ⟨⟨1⟩, ⟨⟨4⟩⟩, 8, 11, 9, .closed⟩], []) := by
  refine ⟨?_, by decide +kernel⟩
  have listed : TypedTable.replicaHistory.list outlivedStore =
      .ok [(⟨⟨1⟩, ⟨⟨3⟩⟩⟩, ⟨⟨1⟩, ⟨⟨3⟩⟩, 2, 4, 7, .opened⟩)] := eq_ok_of_toOption (by decide +kernel)
  exact durable_of_run (TypedTable.ownKeys_of_list KeyCodec.exact_replica listed (by decide)) outlivedDeeds

end Outlived

end History

end ClusterCatalog

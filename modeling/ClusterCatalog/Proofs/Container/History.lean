import ClusterCatalog.Container.History
import ClusterCatalog.Proofs.Storage.WriteThrough
/-!
When replicas were seen, in memory and in the table. A flush brings what is pending into the table; a
reload takes the rows of a table over, but what is pending stays as it is.
-/
namespace ClusterCatalog

namespace History

variable {h : History} {key : ReplicaKey}

theorem pending_foldl_accept (rows : List Sighting) (h : History) : (rows.foldl accept h).pending = h.pending := by
  induction rows generalizing h with
  | nil => rfl
  | cons row rows ih =>
    rw [List.foldl_cons, ih, accept]
    split <;> rfl

theorem entries_foldl_accept (rows : List Sighting) {h : History} {key : ReplicaKey} (pending : key ∈ h.pending) :
    (rows.foldl accept h).entries[key]? = h.entries[key]? := by
  induction rows generalizing h with
  | nil => rfl
  | cons row rows ih =>
    have same : (accept h row).pending = h.pending := pending_foldl_accept [row] h
    rw [List.foldl_cons, ih (by rwa [same]), accept]
    split
    · rfl
    · next other =>
      have differ : row.key ≠ key := fun equal => other (by rwa [equal, Std.ExtTreeSet.contains_iff_mem])
      simp [Std.ExtTreeMap.getElem?_insert, differ]

/-- What is pending survives a reload and stays pending. -/
theorem pending_reload (h : History) (rows : List Sighting) :
    (h.reload rows).pending = h.pending ∧
      ∀ key ∈ h.pending, (h.reload rows).entries[key]? = h.entries[key]? := by
  refine ⟨pending_foldl_accept .., fun key pending => ?_⟩
  let kept : History := { h with entries := h.entries.filter fun key _ => h.pending.contains key }
  have same : (h.reload rows).entries[key]? = kept.entries[key]? :=
    entries_foldl_accept rows (h := kept) pending
  rw [same]
  cases known : h.entries[key]? <;> simp [kept, known, Std.ExtTreeSet.contains_iff_mem.2 pending]

def ofRows (rows : List Sighting) : History := reload {} rows

theorem entries_foldl_accept_congr (rows : List Sighting) {g : History} (free : key ∉ h.pending)
    (free' : key ∉ g.pending) (same : h.entries[key]? = g.entries[key]?) :
    (rows.foldl accept h).entries[key]? = (rows.foldl accept g).entries[key]? := by
  have step (h : History) (row : Sighting) (free : key ∉ h.pending) :
      (accept h row).entries[key]? = if row.key = key then some row else h.entries[key]? := by
    rw [accept]
    split
    · next pending =>
      have differ : row.key ≠ key := fun equal => free (equal ▸ Std.ExtTreeSet.contains_iff_mem.1 pending)
      rw [if_neg differ]
    · simp [Std.ExtTreeMap.getElem?_insert]
  induction rows generalizing h g with
  | nil => exact same
  | cons row rows ih =>
    refine ih ?_ ?_ ?_
    · rwa [show (accept h row).pending = h.pending from pending_foldl_accept [row] h]
    · rwa [show (accept g row).pending = g.pending from pending_foldl_accept [row] g]
    · rw [step h row free, step g row free', same]

/-- After a reload all that is not pending is as the rows have it. -/
theorem getElem?_reload (h : History) (rows : List Sighting) (key : ReplicaKey) :
    (h.reload rows).entries[key]? = if key ∈ h.pending then h.entries[key]? else (ofRows rows).entries[key]? := by
  split
  · next pending => exact (h.pending_reload rows).2 key pending
  · next free =>
    refine entries_foldl_accept_congr rows free Std.ExtTreeSet.not_mem_empty ?_
    have dropped : ¬ h.pending.contains key = true := by rwa [Std.ExtTreeSet.contains_iff_mem]
    simp [dropped]

theorem writesTo_flush : flush.Respects (Stored.WritesTo [.replicaHistory]) := by
  have composes := Stored.composes_writesTo (σ := History) [.replicaHistory]
  refine (Action.respects_still composes Stored.state_getView).bind composes fun h => ?_
  split
  · exact Action.respects_pure composes _
  · refine Action.Respects.bind composes (fun s => Database.confined_write _ _ s.db) fun written => ?_
    refine Action.Respects.bind composes (Stored.writesTo_modifyView _ _) fun _ => ?_
    exact Action.respects_pure composes _

def unflushed? (h : History) (key : ReplicaKey) : Option Sighting := if key ∈ h.pending then h.entries[key]? else none

theorem mem_pendingRows {x : ReplicaKey × Sighting} : x ∈ h.pendingRows ↔ h.unflushed? x.1 = some x.2 := by
  obtain ⟨key, s⟩ := x
  simp [pendingRows, unflushed?]

theorem distinct_pendingRows (h : History) : h.pendingRows.Pairwise fun x y => x.1 ≠ y.1 := by
  refine List.Pairwise.filterMap _ (fun key key' differ x mem y mem' => ?_) (Std.ExtTreeSet.distinct_toList (t := h.pending))
  obtain ⟨s, -, rfl⟩ := Option.map_eq_some_iff.1 mem
  obtain ⟨s', -, rfl⟩ := Option.map_eq_some_iff.1 mem'
  rintro ⟨rfl⟩
  exact differ Std.ReflOrd.compare_self

/-- A flush writes the pending sightings into the table and leaves the other rows, or it changes no row
and no sighting. -/
theorem flush_cases (h : History) (db : Database) :
    (∃ db', flush.run ⟨h, db⟩ = (.ok h.pendingRows.length, ⟨{ h with pending := ∅ }, db'⟩) ∧
      Database.Confined [.replicaHistory] db db' ∧
      ∀ key, TypedTable.replicaHistory.get db' key = match h.unflushed? key with
        | some s => .ok (some s)
        | none => TypedTable.replicaHistory.get db key) ∨
    (¬ db.Accepts .replicaHistory ∧ ∃ e db', flush.run ⟨h, db⟩ = (.error e, ⟨h, db'⟩) ∧
      Database.Confined [] db db') := by
  by_cases empty : h.pending.isEmpty = true
  · have none : h.pending = ∅ := Std.ExtTreeSet.isEmpty_iff.1 empty
    refine .inl ⟨db, ?_, .refl .., fun key => ?_⟩
    · have rows : h.pendingRows = [] := by
        rw [pendingRows, none]
        rfl
      rw [flush, Action.run_bind_ok (Stored.run_getView _), if_pos empty, rows, ← none]
      rfl
    · rw [unflushed?, none, if_neg Std.ExtTreeSet.not_mem_empty]
  · obtain ⟨db', run, confined, given, others⟩ | ⟨refuses, e, db', run, confined⟩ :=
      TypedTable.putAll_cases TypedTable.sound_replicaHistory db h.distinct_pendingRows fun _ _ => trivial
    · refine .inl ⟨db', ?_, confined, fun key => ?_⟩
      · rw [flush, Action.run_bind_ok (Stored.run_getView _), if_neg empty, Stored.run_onStore_bind_ok run]
        rfl
      · split
        · next s pending => exact given (key, s) (mem_pendingRows.2 pending)
        · next none =>
          refine others key fun x mem same => ?_
          rw [mem_pendingRows, same, none] at mem
          cases mem
    · refine .inr ⟨refuses, e, db', ?_, confined⟩
      rw [flush, Action.run_bind_ok (Stored.run_getView _), if_neg empty, Stored.run_onStore_bind_error run]

theorem run_flush (h : History) {db : Database} (accepts : db.Accepts .replicaHistory) :
    ∃ n db', flush.run ⟨h, db⟩ = (.ok n, ⟨{ h with pending := ∅ }, db'⟩) ∧
      Database.Confined [.replicaHistory] db db' ∧
      ∀ key, TypedTable.replicaHistory.get db' key = match h.unflushed? key with
        | some s => .ok (some s)
        | none => TypedTable.replicaHistory.get db key := by
  obtain ⟨db', run, confined, rows⟩ | ⟨refuses, -⟩ := h.flush_cases db
  · exact ⟨_, db', run, confined, rows⟩
  · exact absurd accepts refuses

end History

end ClusterCatalog

import ClusterCatalog.Proofs.Storage.WriteThrough
/-!
A counter that can be read and whose writes are taken: raising it does not fail, and counting up fails
only at the greatest number.
-/
namespace ClusterCatalog

open Database (Confined)

namespace Counter

structure Works (db : Database) (name : String) : Prop where
  accepts : db.Accepts .counters
  readable : ∃ value, current db name = .ok value

variable {db db' : Database} {name : String}

theorem current_congr (h : db'.tables .counters = db.tables .counters) (name : String) :
    current db' name = current db name := by
  rw [current, current, TypedTable.get_of_tables_eq h]

theorem Works.confined {names : List TableName} (h : Works db name) (confined : Confined names db db')
    (other : TableName.counters ∉ names) : Works db' name := by
  refine ⟨h.accepts.confined confined other, ?_⟩
  rw [current_congr (confined.tables other)]
  exact h.readable

/-- A counter stands where the last write has put it. -/
theorem current_of_put {value : UInt64} (run : (TypedTable.counters.put name value).run db = (.ok (), db')) :
    current db' name = .ok value := by
  obtain ⟨rows, -, ran⟩ | ⟨-, e, db₁, ran, -⟩ := Database.write_cases TypedTable.counters.name
    (fun rows => ((), TypedTable.counters.insertRow rows (name, value))) db
  · rw [TypedTable.put, ran] at run
    cases run
    rw [current, TypedTable.get_of_insertRow (t := TypedTable.counters) Codec.exact_word trivial
      (Database.tables_written ..)]
    rfl
  · rw [TypedTable.put, ran] at run
    cases run

theorem Works.put (h : Works db name) (value : UInt64) :
    ∃ db', (TypedTable.counters.put name value).run db = (.ok (), db') ∧ Works db' name ∧
      Confined [.counters] db db' ∧ current db' name = .ok value := by
  let change (rows : Rows) := ((), TypedTable.counters.insertRow rows (name, value))
  obtain ⟨rows, -, run⟩ := h.accepts.run_write change
  have after := h.accepts.after_write .counters change
  rw [run] at after
  have now := current_of_put run
  exact ⟨_, run, ⟨after, value, now⟩, Database.confined_written .., now⟩

/-- A counter that was raised is not behind. -/
theorem le_current_of_observe {value : UInt64} (run : (observe name value).run db = (.ok (), db')) :
    ∃ now, current db' name = .ok now ∧ value ≤ now := by
  rw [observe, Action.run_bind_ok (Action.run_get db)] at run
  obtain ⟨now, db₁, ran, run⟩ := Action.run_bind_eq_ok run
  obtain ⟨read, rfl⟩ := Prod.mk.inj ran
  split at run
  · exact ⟨value, current_of_put run, UInt64.le_refl value⟩
  · next behind =>
    cases run
    exact ⟨now, read, UInt64.not_lt.1 behind⟩

theorem respects_observe {R : Database → Database → Prop} (composes : Action.Composes R)
    (put : ∀ name value, (TypedTable.counters.put name value).Respects R) (name : String) (value : UInt64) :
    (observe name value).Respects R := by
  refine (Action.respects_get composes).bind composes fun db => ?_
  refine Action.Respects.bind composes (Action.respects_still composes fun _ => rfl) fun now => ?_
  split
  · exact put name value
  · exact Action.respects_pure composes _

theorem confined_observe (name : String) (value : UInt64) : (observe name value).Respects (Confined [.counters]) :=
  respects_observe (Database.composes_confined _) (fun _ _ => Database.confined_write _ _) name value

/-- Raising the counter does not fail. -/
theorem Works.observe (h : Works db name) (value : UInt64) :
    ∃ db', (observe name value).run db = (.ok (), db') ∧ Works db' name ∧ Confined [.counters] db db' := by
  obtain ⟨now, read⟩ := h.readable
  have given : (Action.ofExcept (current db name) : Action Database StoreError UInt64).run db = (.ok now, db) := by
    rw [Action.run_ofExcept, read]
  rw [Counter.observe, Action.run_bind_ok (Action.run_get db), Action.run_bind_ok given]
  split
  · obtain ⟨db', run, works, confined, -⟩ := h.put value
    exact ⟨db', run, works, confined⟩
  · exact ⟨db, rfl, h, .refl ..⟩

/-- The counter cannot be read, or it is behind and its next write is not taken. -/
def Stuck (db : Database) (name : String) (value : UInt64) : Prop :=
  (∃ e, current db name = .error e) ∨ ∃ last, current db name = .ok last ∧ last < value ∧ ¬ db.Takes .counters

theorem stuck_congr (tables : db'.tables .counters = db.tables .counters)
    (refusals : db'.refusals .counters = db.refusals .counters) (name : String) (value : UInt64) :
    Stuck db' name value ↔ Stuck db name value := by
  rw [Stuck, Stuck, current_congr tables, Database.takes_congr tables refusals]

theorem Works.not_stuck (h : Works db name) (value : UInt64) : ¬ Stuck db name value := by
  obtain ⟨now, read⟩ := h.readable
  rintro (⟨e, unread⟩ | ⟨-, -, -, untaken⟩)
  · rw [read] at unread
    cases unread
  · exact untaken h.accepts.takes

/-- Raising a counter fails just if it is stuck, and then no row has changed. -/
theorem observe_cases (name : String) (value : UInt64) (db : Database) :
    (Stuck db name value ∧ ∃ e db', (observe name value).run db = (.error e, db') ∧ db'.tables = db.tables) ∨
      (¬ Stuck db name value ∧ ∃ db', (observe name value).run db = (.ok (), db')) := by
  rw [observe, Action.run_bind_ok (Action.run_get db), Action.run_bind, Action.run_ofExcept]
  cases read : current db name with
  | error e => exact .inl ⟨.inl ⟨e, read⟩, e, db, rfl, rfl⟩
  | ok last =>
    have stuck_iff : Stuck db name value ↔ last < value ∧ ¬ db.Takes .counters := by simp [Stuck, read]
    rw [stuck_iff]
    dsimp only
    split
    · next behind =>
      obtain ⟨takes, rows, -, run⟩ | ⟨untaken, e, db', run, same, -⟩ := Database.run_write TypedTable.counters.name
        (fun rows => ((), TypedTable.counters.insertRow rows (name, value))) db
      · exact .inr ⟨fun stuck => stuck.2 takes, _, run⟩
      · exact .inl ⟨⟨behind, untaken⟩, e, db', run, same⟩
    · next notBehind => exact .inr ⟨fun stuck => notBehind stuck.1, db, rfl⟩

theorem lt_succ {last : UInt64} (more : last.toNat + 1 < UInt64.size) : last < last + 1 := by
  rw [UInt64.lt_iff_toNat_lt, UInt64.toNat_add]
  change last.toNat < (last.toNat + 1) % UInt64.size
  rw [Nat.mod_eq_of_lt more]
  exact Nat.lt_succ_self _

theorem run_next {last : UInt64} (read : current db name = .ok last) : (next name).run db =
    (if last.toNat + 1 < UInt64.size then do
      TypedTable.counters.put name (last + 1)
      return last + 1
    else throw .exhausted : Action Database StoreError UInt64).run db := by
  have given : (Action.ofExcept (current db name) : Action Database StoreError UInt64).run db = (.ok last, db) := by
    rw [Action.run_ofExcept, read]
  rw [next, Action.run_bind_ok (Action.run_get db), Action.run_bind_ok given]

/-- There is no number after the greatest one, and looking for it changes nothing. -/
theorem run_next_of_greatest {last : UInt64} (read : current db name = .ok last)
    (greatest : ¬ last.toNat + 1 < UInt64.size) : (next name).run db = (.error .exhausted, db) := by
  rw [run_next read, if_neg greatest]
  rfl

theorem Works.run_next {last : UInt64} (h : Works db name) (read : current db name = .ok last)
    (more : last.toNat + 1 < UInt64.size) : ∃ db', (next name).run db = (.ok (last + 1), db') ∧ Works db' name ∧
      Confined [.counters] db db' ∧ current db' name = .ok (last + 1) := by
  obtain ⟨db', run, works, confined, now⟩ := h.put (last + 1)
  refine ⟨db', ?_, works, confined, now⟩
  rw [Counter.run_next read, if_pos more]
  exact Action.run_bind_ok run _

/-- Counting up leaves a counter that works, whether there was a next number or not. -/
theorem Works.next (h : Works db name) :
    ∃ result db', (next name).run db = (result, db') ∧ Works db' name ∧ Confined [.counters] db db' := by
  obtain ⟨last, read⟩ := h.readable
  by_cases more : last.toNat + 1 < UInt64.size
  · obtain ⟨db', run, works, confined, -⟩ := h.run_next read more
    exact ⟨_, db', run, works, confined⟩
  · exact ⟨_, db, run_next_of_greatest read more, h, .refl ..⟩

def Rises (name : String) (db db' : Database) : Prop :=
  ∀ last, current db name = .ok last → ∃ last', current db' name = .ok last' ∧ last ≤ last'

theorem rises_of_current_eq (same : current db' name = current db name) : Rises name db db' :=
  fun last read => ⟨last, same.trans read, UInt64.le_refl last⟩

theorem rises_of_confined {names : List TableName} (confined : Confined names db db')
    (other : TableName.counters ∉ names) : Rises name db db' :=
  rises_of_current_eq (current_congr (confined.tables other) name)

theorem Rises.trans {db'' : Database} (h : Rises name db db') (g : Rises name db' db'') : Rises name db db'' := by
  intro last read
  obtain ⟨last', read', le⟩ := h last read
  obtain ⟨last'', read'', le'⟩ := g last' read'
  exact ⟨last'', read'', UInt64.le_trans le le'⟩

theorem composes_rises (name : String) : Action.Composes (Rises name) where
  refl _ := rises_of_current_eq rfl
  trans := Rises.trans

/-- A counter is put forward, or it stands where it stood. -/
theorem rises_put {value : UInt64} (forward : ∀ last, current db name = .ok last → last ≤ value) :
    Rises name db ((TypedTable.counters.put name value).run db).2 := by
  obtain ⟨rows, -, ran⟩ | ⟨-, e, db', ran, same, -⟩ := Database.write_cases TypedTable.counters.name
    (fun rows => ((), TypedTable.counters.insertRow rows (name, value))) db
  · intro last read
    rw [TypedTable.put, ran]
    exact ⟨value, current_of_put ran, forward last read⟩
  · rw [TypedTable.put, ran]
    exact rises_of_current_eq (current_congr (congrFun same .counters) name)

theorem rises_observe (name : String) (value : UInt64) : (observe name value).Respects (Rises name) := by
  intro db
  rw [observe, Action.run_bind_ok (Action.run_get db), Action.run_bind]
  cases read : current db name with
  | error e => exact rises_of_current_eq rfl
  | ok now =>
    rw [Action.run_ofExcept]
    dsimp only
    split
    · next behind =>
      refine rises_put fun last read' => ?_
      rw [read] at read'
      cases read'
      exact UInt64.le_of_lt behind
    · exact rises_of_current_eq rfl

theorem confined_next (name : String) : (next name).Respects (Confined [.counters]) := by
  have composes := Database.composes_confined [.counters]
  refine (Action.respects_get composes).bind composes fun db => ?_
  refine Action.Respects.bind composes (Action.respects_still composes fun _ => rfl) fun last => ?_
  split
  · refine Action.Respects.bind composes (Database.confined_write _ _) fun _ => ?_
    exact Action.respects_pure composes _
  · exact Action.respects_throw composes _

theorem rises_next (name : String) : (next name).Respects (Rises name) := by
  intro db
  cases read : current db name with
  | error e =>
    intro last read'
    rw [read] at read'
    cases read'
  | ok now =>
    rw [run_next read]
    split
    · next more =>
      have put : Rises name db ((TypedTable.counters.put name (now + 1)).run db).2 := rises_put fun last read' => by
        rw [read] at read'
        cases read'
        exact UInt64.le_of_lt (lt_succ more)
      rw [Action.run_bind]
      rcases ran : (TypedTable.counters.put name (now + 1)).run db with ⟨_ | _, db'⟩ <;>
      · rw [ran] at put
        exact put
    · exact rises_of_current_eq rfl

/-- What was counted is greater than what was counted before, and the counter stands there. -/
theorem next_eq_ok {value : UInt64} (run : (next name).run db = (.ok value, db')) :
    ∃ last, current db name = .ok last ∧ last < value ∧ current db' name = .ok value := by
  cases read : current db name with
  | error e =>
    rw [next, Action.run_bind_ok (Action.run_get db)] at run
    obtain ⟨last, u, ran, -⟩ := Action.run_bind_eq_ok run
    rw [Action.run_ofExcept, read] at ran
    cases ran
  | ok last =>
    rw [run_next read] at run
    split at run
    · next more =>
      obtain ⟨_, u, ran, ended⟩ := Action.run_bind_eq_ok run
      cases ended
      exact ⟨last, rfl, lt_succ more, current_of_put ran⟩
    · cases run

end Counter

end ClusterCatalog

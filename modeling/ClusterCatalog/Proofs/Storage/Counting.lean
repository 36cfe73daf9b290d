import Mathlib.Data.List.Induction
import ClusterCatalog.Proofs.Codec.Text
import ClusterCatalog.Proofs.Storage.Counter
import ClusterCatalog.Proofs.Word
/-!
The counters of a store over any calls, with the store closed and opened again in between. A counter stands at
the greatest number that was counted on it or shown to it, so what is counted next is past all of these, and
calls of one counter are nothing to the others.
-/
namespace ClusterCatalog

open Database (Confined)

namespace Counter

def reopen : Action Database StoreError Unit := fun db =>
  match (StoreFile.database db).load with
  | .ok db => (.ok (), db)
  | .error e => (.error e, db)

inductive Call where
  | next (name : String)
  | observe (name : String) (value : UInt64)
  | reopen
  deriving DecidableEq, Repr

def Call.name? : Call → Option String
  | .next name | .observe name _ => some name
  | .reopen => none

def Call.perform : Call → Action Database StoreError (Option UInt64)
  | .next name => some <$> Counter.next name
  | .observe name value => (fun _ => none) <$> Counter.observe name value
  | .reopen => (fun _ => none) <$> Counter.reopen

structure Record where
  call : Call
  outcome : Except StoreError (Option UInt64)

def Record.number? (name : String) : Record → Option UInt64
  | ⟨.next other, .ok counted⟩ => if other = name then counted else none
  | ⟨.observe other value, .ok _⟩ => if other = name then some value else none
  | _ => none

def numbers (name : String) (log : List Record) : List UInt64 := log.filterMap (Record.number? name)

def greatest (name : String) (log : List Record) : Nat := ((numbers name log).map UInt64.toNat).foldl max 0

structure Session where
  db : Database
  log : List Record := []

namespace Session

def call (s : Session) (c : Call) : Session := ⟨(c.perform.run s.db).2, s.log ++ [⟨c, (c.perform.run s.db).1⟩]⟩

def run (s : Session) (calls : List Call) : Session := calls.foldl call s

end Session

variable {db db' : Database} {name other : String} {last value : UInt64} {log : List Record} {r : Record} {c : Call}

theorem numbers_append (name : String) (log more : List Record) :
    numbers name (log ++ more) = numbers name log ++ numbers name more :=
  List.filterMap_append

theorem greatest_append_singleton (name : String) (log : List Record) (r : Record) :
    greatest name (log ++ [r]) = max (greatest name log) ((r.number? name).map UInt64.toNat |>.getD 0) := by
  rw [greatest, numbers_append, List.map_append, List.foldl_append, ← greatest]
  cases told : r.number? name <;> simp [numbers, told]

theorem toNat_le_greatest (mem : value ∈ numbers name log) : value.toNat ≤ greatest name log := by
  rw [greatest, List.foldl_max]
  exact Nat.le_trans (List.le_max?_getD_of_mem (List.mem_map_of_mem mem)) (Nat.le_max_right 0 _)

structure Puts (name : String) (value : UInt64) (db db' : Database) : Prop where
  here : current db' name = .ok value
  apart {other : String} (ne : other ≠ name) : current db' other = current db other
  confined : Confined [.counters] db db'
  sound : Database.StaysSound db db'

structure Refused (db db' : Database) : Prop where
  ahead : true ∈ db.refusals .counters
  same : db'.tables = db.tables
  confined : Confined [.counters] db db'

theorem put_cases (readable : ∃ rows, db.tables .counters = .rows rows) (name : String) (value : UInt64) :
    (∃ db', (TypedTable.counters.put name value).run db = (.ok (), db') ∧ Puts name value db db') ∨
      ∃ db', (TypedTable.counters.put name value).run db = (.error .refused, db') ∧ Refused db db' := by
  obtain ⟨rows, table⟩ := readable
  let change (rows : Rows) := ((), TypedTable.counters.insertRow rows (name, value))
  by_cases refused : (db.refusals .counters).head? = some true
  · have untaken := Database.run_write_of_refused table refused change
    have confined := Database.confined_write .counters change db
    rw [untaken] at confined
    exact .inr ⟨_, untaken, List.mem_of_head? refused, rfl, confined⟩
  · have taken := Database.run_write_of_taken table refused change
    have sound := Database.staysSound_write .counters change db
    rw [taken] at sound
    refine .inl ⟨_, taken, current_of_put taken, fun {other} ne => ?_, Database.confined_written .., sound⟩
    have same := TypedTable.get_of_insertRow_of_ne (t := TypedTable.counters) KeyCodec.exact_text (a := value) ne table
      (Database.tables_written db TypedTable.counters.name _)
    exact congrArg (Except.map (·.getD 0)) same

def Call.due (last : UInt64) : Call → Except StoreError (Option UInt64)
  | .next _ => if last.toNat + 1 < UInt64.size then .ok (some (last + 1)) else .error .exhausted
  | .observe .. | .reopen => .ok none

inductive Comes (db : Database) : Call → Except StoreError (Option UInt64) → Database → Prop where
  | counted {name : String} {last : UInt64} {db' : Database} (read : current db name = .ok last)
      (more : last.toNat + 1 < UInt64.size) (puts : Puts name (last + 1) db db') :
      Comes db (.next name) (.ok (some (last + 1))) db'
  | exhausted {name : String} {last : UInt64} (read : current db name = .ok last)
      (none : last.toNat + 1 = UInt64.size) : Comes db (.next name) (.error .exhausted) db
  | raised {name : String} {last value : UInt64} {db' : Database} (read : current db name = .ok last)
      (behind : last < value) (puts : Puts name value db db') : Comes db (.observe name value) (.ok none) db'
  | known {name : String} {last value : UInt64} (read : current db name = .ok last) (notBehind : value ≤ last) :
      Comes db (.observe name value) (.ok none) db
  | reopened : Comes db .reopen (.ok none) db
  | uncounted {name : String} {last : UInt64} {db' : Database} (read : current db name = .ok last)
      (more : last.toNat + 1 < UInt64.size) (refused : Refused db db') : Comes db (.next name) (.error .refused) db'
  | unraised {name : String} {value : UInt64} {db' : Database} (refused : Refused db db') :
      Comes db (.observe name value) (.error .refused) db'

theorem size_of_greatest (greatest : ¬ last.toNat + 1 < UInt64.size) : last.toNat + 1 = UInt64.size :=
  Nat.le_antisymm last.toNat_lt (Nat.not_lt.1 greatest)

theorem comes_of_perform (sound : db.sound = true) (read : ∀ name, ∃ last, current db name = .ok last) (c : Call) :
    Comes db c (c.perform.run db).1 (c.perform.run db).2 := by
  have readable := Database.sound_iff.1 sound .counters
  cases c with
  | next name =>
    obtain ⟨last, read⟩ := read name
    rw [Call.perform, Action.run_map, run_next read]
    split
    case isTrue more =>
      obtain ⟨db', run, puts⟩ | ⟨db', run, refused⟩ := put_cases readable name (last + 1)
      · rw [Action.run_bind_ok run]
        exact .counted read more puts
      · rw [Action.run_bind_error run]
        exact .uncounted read more refused
    case isFalse greatest => exact .exhausted read (size_of_greatest greatest)
  | observe name value =>
    obtain ⟨last, read⟩ := read name
    have given : (Action.ofExcept (current db name) : Action Database StoreError UInt64).run db = (.ok last, db) := by
      rw [Action.run_ofExcept, read]
    rw [Call.perform, Action.run_map, observe, Action.run_bind_ok (Action.run_get db), Action.run_bind_ok given]
    split
    case isTrue behind =>
      obtain ⟨db', run, puts⟩ | ⟨db', run, refused⟩ := put_cases readable name value
      · rw [run]
        exact .raised read behind puts
      · rw [run]
        exact .unraised refused
    case isFalse notBehind => exact .known read (UInt64.not_lt.1 notBehind)
  | reopen =>
    have opened : reopen.run db = (.ok (), db) := by
      rw [Action.run, reopen, StoreFile.load, if_pos sound]
    rw [Call.perform, Action.run_map, opened]
    exact .reopened

namespace Comes

variable {outcome : Except StoreError (Option UInt64)}

theorem confined (h : Comes db c outcome db') : Confined [.counters] db db' := by
  cases h with
  | counted _ _ puts | raised _ _ puts => exact puts.confined
  | uncounted _ _ refused | unraised refused => exact refused.confined
  | exhausted | known | reopened => exact .refl ..

theorem sound (h : Comes db c outcome db') (sound : db.sound = true) : db'.sound = true := by
  cases h with
  | counted _ _ puts | raised _ _ puts => exact puts.sound sound
  | uncounted _ _ refused | unraised refused =>
    rw [Database.sound] at sound ⊢
    rw [refused.same]
    exact sound
  | exhausted | known | reopened => exact sound

/-- A call moves no counter but its own. -/
theorem apart (h : Comes db c outcome db') (other : c.name? ≠ some name) : current db' name = current db name := by
  have ne {called : String} (other : some called ≠ some name) : name ≠ called := fun same => other (same ▸ rfl)
  cases h with
  | counted _ _ puts | raised _ _ puts => exact puts.apart (ne other)
  | uncounted _ _ refused | unraised refused => exact current_congr (congrFun refused.same .counters) name
  | exhausted | known | reopened => rfl

theorem number?_eq_none {r : Record} (other : r.call.name? ≠ some name) : r.number? name = none := by
  obtain ⟨call, outcome⟩ := r
  have ne {called : String} (other : some called ≠ some name) : called ≠ name := fun same => other (same ▸ rfl)
  cases call with
  | next called => cases outcome <;> simp [Record.number?, ne other]
  | observe called value => cases outcome <;> simp [Record.number?, ne other]
  | reopen => rfl

/-- A counter is raised to the number that a call brings, and it never falls. -/
theorem lifts (h : Comes db c outcome db') (read : current db name = .ok last) :
    ∃ last', current db' name = .ok last' ∧
      last'.toNat = max last.toNat ((Record.number? name ⟨c, outcome⟩).map UInt64.toNat |>.getD 0) := by
  by_cases own : c.name? = some name
  · cases h with
    | counted read' more puts =>
      cases own
      cases read.symm.trans read'
      refine ⟨last + 1, puts.here, ?_⟩
      simp [Record.number?, toNat_succ more]
    | exhausted =>
      cases own
      exact ⟨last, read, by simp [Record.number?]⟩
    | raised read' behind puts =>
      cases own
      cases read.symm.trans read'
      have below := UInt64.lt_iff_toNat_lt.1 behind
      refine ⟨_, puts.here, ?_⟩
      simp [Record.number?, Nat.le_of_lt below]
    | known read' notBehind =>
      cases own
      cases read.symm.trans read'
      have below := UInt64.le_iff_toNat_le.1 notBehind
      refine ⟨_, read, ?_⟩
      simp [Record.number?, below]
    | reopened => cases own
    | uncounted _ _ refused | unraised refused =>
      exact ⟨last, (current_congr (congrFun refused.same .counters) name).trans read, by simp [Record.number?]⟩
  · refine ⟨last, (h.apart own).trans read, ?_⟩
    simp [number?_eq_none (r := ⟨c, outcome⟩) own]

/-- Where no write is refused, what is told is settled by where the counter stands. -/
theorem outcome_eq (h : Comes db c outcome db') (sure : true ∉ db.refusals .counters)
    (read : ∀ name, c.name? = some name → current db name = .ok last) : outcome = c.due last := by
  cases h with
  | counted read' more =>
    cases read'.symm.trans (read _ rfl)
    rw [Call.due, if_pos more]
  | exhausted read' none =>
    cases read'.symm.trans (read _ rfl)
    rw [Call.due, if_neg (Nat.not_lt.2 (Nat.le_of_eq none.symm))]
  | raised | known | reopened => rfl
  | uncounted _ _ refused | unraised refused => exact absurd refused.ahead sure

end Comes

namespace Session

variable {s t : Session} {refusals : List Bool}

/-- A store on which no counter was called yet. Some of the writes to come on its counters may be refused. -/
def fresh (refusals : List Bool) : Session := ⟨{ Database.empty with refusals := fun _ => refusals }, []⟩

theorem call_eq (s : Session) (c : Call) :
    s.call c = ⟨(c.perform.run s.db).2, s.log ++ [⟨c, (c.perform.run s.db).1⟩]⟩ := rfl

theorem run_append (s : Session) (calls more : List Call) : s.run (calls ++ more) = (s.run calls).run more :=
  List.foldl_append

structure Standing (s : Session) (refusals : List Bool) : Prop where
  sound : s.db.sound = true
  stands (name : String) : ∃ last, current s.db name = .ok last ∧ last.toNat = greatest name s.log
  ahead : s.db.refusals .counters ⊆ refusals

theorem standing_fresh (refusals : List Bool) : (fresh refusals).Standing refusals where
  sound := Database.sound_iff.2 fun _ => ⟨∅, rfl⟩
  stands _ := ⟨0, rfl, rfl⟩
  ahead := List.Subset.refl _

theorem Standing.comes (h : s.Standing refusals) (c : Call) :
    Comes s.db c (c.perform.run s.db).1 (c.perform.run s.db).2 :=
  comes_of_perform h.sound (fun name => (h.stands name).imp fun _ => And.left) c

theorem Standing.call (h : s.Standing refusals) (c : Call) : (s.call c).Standing refusals where
  sound := (h.comes c).sound h.sound
  stands name := by
    obtain ⟨last, read, same⟩ := h.stands name
    obtain ⟨last', read', raised⟩ := (h.comes c).lifts read
    refine ⟨last', read', ?_⟩
    rw [raised, same, call_eq, greatest_append_singleton]
  ahead := List.Subset.trans ((h.comes c).confined.refusals .counters).subset h.ahead

theorem Standing.run (h : s.Standing refusals) (calls : List Call) : (s.run calls).Standing refusals := by
  induction calls generalizing s with
  | nil => exact h
  | cons c rest ih => exact ih (h.call c)

theorem map_call_log (s : Session) (calls : List Call) :
    (s.run calls).log.map Record.call = s.log.map Record.call ++ calls := by
  induction calls generalizing s with
  | nil => exact (List.append_nil _).symm
  | cons c rest ih =>
    have rested := ih (s.call c)
    rw [call_eq] at rested
    simpa [run, call_eq] using rested

/-- Each record was made at a time when the log held the records before it. -/
theorem exists_before (h : s.Standing refusals) (new : s.log = []) {calls : List Call} {before after : List Record}
    {r : Record} (split : (s.run calls).log = before ++ r :: after) :
    ∃ t : Session, t.Standing refusals ∧ t.log = before ∧ ∃ db', Comes t.db r.call r.outcome db' := by
  induction calls using List.reverseRecOn generalizing after with
  | nil =>
    rw [run, List.foldl_nil, new] at split
    cases before <;> cases split
  | append_singleton calls c ih =>
    have last : ((s.run calls).call c).log = before ++ r :: after := by rw [← split, run_append]; rfl
    rw [call_eq] at last
    rcases List.eq_nil_or_concat after with rfl | ⟨rest, r', rfl⟩
    · obtain ⟨same, record⟩ := List.append_inj' last rfl
      cases record
      exact ⟨s.run calls, h.run calls, same, _, (h.run calls).comes c⟩
    · rw [List.concat_eq_append, ← List.cons_append, ← List.append_assoc] at last
      exact ih (List.append_inj' last rfl).1

def about (name : String) (r : Record) : Bool := r.call.name? == some name

theorem greatest_filter (name : String) (log : List Record) :
    greatest name (log.filter (about name)) = greatest name log := by
  have same : numbers name (log.filter (about name)) = numbers name log := by
    rw [numbers, List.filterMap_filter]
    refine congrArg (List.filterMap · log) (funext fun r => ?_)
    by_cases own : r.call.name? = some name
    · simp [about, own]
    · simp [about, own, Comes.number?_eq_none own]
  rw [greatest, greatest, same]

/-- Two stores whose logs are alike in one counter go on alike in it, whatever is done with the other counters
of the first. -/
theorem filter_log_run (hs : s.Standing refusals) (ht : t.Standing refusals) (sure : true ∉ refusals)
    (alike : s.log.filter (about name) = t.log) (calls : List Call) :
    (s.run calls).log.filter (about name) = (t.run (calls.filter fun c => c.name? == some name)).log := by
  induction calls generalizing s t with
  | nil => exact alike
  | cons c rest ih =>
    by_cases own : c.name? = some name
    · have told : (c.perform.run s.db).1 = (c.perform.run t.db).1 := by
        obtain ⟨last, read, stands⟩ := hs.stands name
        obtain ⟨last', read', stands'⟩ := ht.stands name
        obtain rfl : last = last' := by
          rw [← greatest_filter, alike] at stands
          exact UInt64.toNat_inj.1 (stands.trans stands'.symm)
        have named {db : Database} (read : current db name = .ok last) (called : String)
            (same : c.name? = some called) : current db called = .ok last := by
          cases own.symm.trans same
          exact read
        have due := (hs.comes c).outcome_eq (fun ahead => sure (hs.ahead ahead)) (named read)
        have due' := (ht.comes c).outcome_eq (fun ahead => sure (ht.ahead ahead)) (named read')
        exact due.trans due'.symm
      rw [List.filter_cons_of_pos (by simpa using own)]
      refine ih (hs.call c) (ht.call c) ?_
      rw [call_eq, call_eq, List.filter_append, alike, told]
      simp [about, own]
    · rw [List.filter_cons_of_neg (by simpa using own)]
      refine ih (hs.call c) ht ?_
      rw [call_eq, List.filter_append, alike]
      simp [about, own]

end Session

open Session (about fresh)

structure Counted (refusals : List Bool) (calls : List Call) (s : Session) : Prop where
  called : s.log.map Record.call = calls
  /-- What is counted comes right after all that was counted or shown before. -/
  next {before after : List Record} {name : String} {counted : Option UInt64}
    (split : s.log = before ++ ⟨.next name, .ok counted⟩ :: after) : ∃ value, counted = some value ∧
      value.toNat = greatest name before + 1 ∧ ∀ number ∈ numbers name before, number < value
  exhausted_iff {before after : List Record} {name : String} {outcome : Except StoreError (Option UInt64)}
    (split : s.log = before ++ ⟨.next name, outcome⟩ :: after) :
    outcome = .error .exhausted ↔ greatest name before + 1 = UInt64.size
  failed {r : Record} (mem : r ∈ s.log) {e : StoreError} (h : r.outcome = .error e) :
    (e = .exhausted ∧ ∃ name, r.call = .next name) ∨ (e = .refused ∧ true ∈ refusals)
  stands (name : String) : (current s.db name).map UInt64.toNat = .ok (greatest name s.log)
  unchanged {name : String} (full : greatest name s.log + 1 = UInt64.size) :
    (Counter.next name).run s.db = (.error .exhausted, s.db)
  apart {c : Call} {name : String} (other : c.name? ≠ some name) : current (s.call c).db name = current s.db name
  /-- What is told of a counter is what is told on a store where no other one is called, and which is never closed. -/
  alone (sure : true ∉ refusals) (name : String) : s.log.filter (about name) =
    ((fresh refusals).run (calls.filter fun c => c.name? == some name)).log

/-- Whatever calls are made, and however often the store is closed and opened again in between. -/
theorem counted_of_run (refusals : List Bool) (calls : List Call) :
    Counted refusals calls ((fresh refusals).run calls) := by
  have start := Session.standing_fresh refusals
  have standing := start.run calls
  have earlier {before after : List Record} {r : Record}
      (split : ((fresh refusals).run calls).log = before ++ r :: after) := Session.exists_before start rfl split
  refine
    { called := Session.map_call_log _ calls
      next := fun split => ?next
      exhausted_iff := fun split => ?exhausted
      failed := fun mem _ h => ?failed
      stands := fun name => ?stands
      unchanged := fun {name} full => ?unchanged
      apart := fun {c name} other => (standing.comes c).apart other
      alone := fun sure name => Session.filter_log_run start start sure rfl calls }
  case next name counted =>
    obtain ⟨t, still, rfl, db', comes⟩ := earlier split
    obtain ⟨last, read, stands⟩ := still.stands name
    cases comes with
    | counted read' more =>
      cases read.symm.trans read'
      have above := toNat_succ more
      refine ⟨last + 1, rfl, by rw [above, stands], fun number mem => ?_⟩
      have below := toNat_le_greatest mem
      exact UInt64.lt_iff_toNat_lt.2 (by omega)
  case exhausted name outcome =>
    obtain ⟨t, still, rfl, db', comes⟩ := earlier split
    obtain ⟨last, read, stands⟩ := still.stands name
    rw [← stands]
    cases comes with
    | counted read' more | uncounted read' more =>
      cases read.symm.trans read'
      exact iff_of_false nofun (Nat.ne_of_lt more)
    | exhausted read' none =>
      cases read.symm.trans read'
      exact iff_of_true rfl none
  case failed r e =>
    obtain ⟨before, after, split⟩ := List.append_of_mem mem
    obtain ⟨t, still, -, db', comes⟩ := earlier split
    obtain ⟨call, outcome⟩ := r
    obtain rfl : outcome = .error e := h
    cases comes with
    | exhausted => exact .inl ⟨rfl, _, rfl⟩
    | uncounted _ _ refused | unraised refused => exact .inr ⟨rfl, still.ahead refused.ahead⟩
  case stands =>
    obtain ⟨last, read, same⟩ := standing.stands name
    rw [read, ← same]
    rfl
  case unchanged =>
    obtain ⟨last, read, same⟩ := standing.stands name
    exact run_next_of_greatest read (by omega)

example : (((fresh []).run [.next "a", .observe "a" 5, .observe "b" 18446744073709551615, .reopen, .next "a",
    .observe "a" 2, .next "b", .next "a", .next "c"]).log.map fun r => r.outcome.toOption) =
    [some (some 1), some none, some none, some none, some (some 6), some none, none, some (some 7), some (some 1)] := by
  decide +kernel

end Counter

end ClusterCatalog

import ClusterCatalog.Proofs.Pipeline.Closing
/-!
Between two lists from the authority pipelines are added, reported by their nodes, and closed when a node is
lost. None of this takes a pipeline away or back to an earlier state, whichever writes the store takes.
-/
namespace ClusterCatalog

def PipelineState.rank : PipelineState → Nat
  | .allocated => 0
  | .opened => 1
  | .closed => 2

structure Pipeline.Later (p q : Pipeline) : Prop where
  id : q.id = p.id
  nodes : q.nodes = p.nodes
  state : p.state.rank ≤ q.state.rank

namespace Pipeline

theorem Later.refl (p : Pipeline) : p.Later p := ⟨rfl, rfl, Nat.le_refl _⟩

theorem Later.trans {p q r : Pipeline} (h : p.Later q) (g : q.Later r) : p.Later r :=
  ⟨g.id.trans h.id, g.nodes.trans h.nodes, Nat.le_trans h.state g.state⟩

end Pipeline

namespace PipelineRegistry

def Onward (before after : PipelineRegistry) : Prop :=
  ∀ (id : PipelineId) (p : Pipeline), before[id]? = some p → ∃ q, after[id]? = some q ∧ p.Later q

structure Changed (ids : List PipelineId) (before after : PipelineRegistry) : Prop where
  distinct : ids.Nodup
  mem_iff (id : PipelineId) : id ∈ ids ↔ before[id]? ≠ after[id]?

inductive Call where
  | add (p : Pipeline)
  | report (node : NodeId) (entries : List PipelineReport)
  | close (node : NodeId)
  deriving DecidableEq, Repr

abbrev Call.Answer : Call → Type
  | .add _ => Bool
  | .report .. => Nat
  | .close _ => List PipelineId

def Call.action : (call : Call) → Action (Stored PipelineRegistry) StoreError call.Answer
  | .add p => PipelineRegistry.add p
  | .report node entries => PipelineRegistry.report node entries
  | .close node => closeOn node

inductive Turn : Call → PipelineId → Option Pipeline → Option Pipeline → Prop where
  | kept (call : Call) (id : PipelineId) (known : Option Pipeline) : Turn call id known known
  | added (p : Pipeline) : Turn (.add p) p.id none (some p)
  | opened {node : NodeId} {entries : List PipelineReport} {id : PipelineId} {p : Pipeline}
      (told : ∃ r ∈ entries, r.pipeline = id) (allocated : p.state = .allocated) :
      Turn (.report node entries) id (some p) (some { p with state := .opened })
  | learned {node : NodeId} {entries : List PipelineReport} {id : PipelineId} {r : PipelineReport}
      (first : entries.find? (·.pipeline = id) = some r) :
      Turn (.report node entries) id none (some ⟨id, withMember r.members node, .opened⟩)
  | closed {node : NodeId} {id : PipelineId} {p : Pipeline} (unclosed : p.state ≠ .closed)
      (member : p.hasMember node = true) : Turn (.close node) id (some p) (some { p with state := .closed })

def Call.Tells : (call : Call) → call.Answer → PipelineRegistry → PipelineRegistry → Prop
  | .add p, isNew, before, after => Changed (if isNew then [p.id] else []) before after
  | .report .., n, before, after => ∃ ids, Changed ids before after ∧ ids.length = n
  | .close node, ids, before, after => Changed ids before after ∧
      ∀ (id : PipelineId) (p : Pipeline), after[id]? = some p → p.hasMember node = true → p.state = .closed

structure Call.Does (call : Call) (before : PipelineRegistry) (result : Except StoreError call.Answer)
    (after : PipelineRegistry) : Prop where
  turn (id : PipelineId) : Turn call id before[id]? after[id]?
  learned {node : NodeId} {entries : List PipelineReport} (reported : call = .report node entries) {id : PipelineId}
    {p : Pipeline} (unknown : before[id]? = none) (known : after[id]? = some p) : p.state = .opened ∧ node ∈ p.nodes
  tells (answer : call.Answer) (ok : result = .ok answer) : call.Tells answer before after

variable {s s' : Stored PipelineRegistry} {id : PipelineId} {p q : Pipeline} {node : NodeId} {r : PipelineReport}
  {entries rest : List PipelineReport} {before after between : PipelineRegistry} {ids : List PipelineId}
  {call : Call} {known known' : Option Pipeline}

theorem Onward.refl (pipelines : PipelineRegistry) : Onward pipelines pipelines :=
  fun _ p known => ⟨p, known, .refl p⟩

theorem Onward.trans (h : Onward before between) (g : Onward between after) : Onward before after := by
  intro id p known
  obtain ⟨q, there, later⟩ := h id p known
  obtain ⟨r, still, later'⟩ := g id q there
  exact ⟨r, still, later.trans later'⟩

theorem changed_nil (pipelines : PipelineRegistry) : Changed [] pipelines pipelines :=
  ⟨List.nodup_nil, fun id => by simp⟩

/-- A pipeline that changes first and then no more is one more that has changed. -/
theorem Changed.cons (later : Changed ids (before.insert id p) after) (new : before[id]? ≠ some p)
    (fixed : after[id]? = some p) : Changed (id :: ids) before after := by
  have known : (before.insert id p)[id]? = some p := Std.ExtTreeMap.getElem?_insert_self
  have fresh : id ∉ ids := fun mem => (later.mem_iff id).1 mem (known.trans fixed.symm)
  refine ⟨List.nodup_cons.2 ⟨fresh, later.distinct⟩, fun other => ?_⟩
  rw [List.mem_cons, later.mem_iff, Std.ExtTreeMap.getElem?_insert]
  by_cases same : id = other
  · subst same
    rw [fixed]
    exact iff_of_true (.inl rfl) new
  · simp [same, Ne.symm same]

section Turn

theorem Turn.later (turn : Turn call id (some p) known) : ∃ q, known = some q ∧ p.Later q := by
  cases turn with
  | kept => exact ⟨p, rfl, .refl p⟩
  | opened _ allocated => exact ⟨_, rfl, rfl, rfl, by simp [allocated, PipelineState.rank]⟩
  | closed => exact ⟨_, rfl, rfl, rfl, by cases p.state <;> simp [PipelineState.rank]⟩

theorem Call.Does.onward {result : Except StoreError call.Answer} (does : call.Does before result after) :
    Onward before after := by
  intro id p known
  have turn := does.turn id
  rw [known] at turn
  exact turn.later

/-- A pipeline that a report makes known is open, with the reporter as a member. -/
theorem Turn.of_learned (turn : Turn (.report node entries) id none (some p)) : p.state = .opened ∧ node ∈ p.nodes := by
  cases turn with
  | learned first =>
    refine ⟨rfl, ?_⟩
    dsimp only [withMember]
    split
    · next member => exact List.contains_iff_mem.1 member
    · exact List.mem_append_right _ (List.mem_singleton_self node)

theorem Call.Does.of_turn {result : Except StoreError call.Answer}
    (turn : ∀ id : PipelineId, Turn call id before[id]? after[id]?)
    (tells : ∀ answer, result = .ok answer → call.Tells answer before after) : call.Does before result after where
  turn := turn
  learned {_ _} reported id p unknown known := by
    subst reported
    have first := turn id
    rw [unknown, known] at first
    exact first.of_learned
  tells := tells

/-- What a report makes of a pipeline that its first entry is not about is what the other entries make of it. -/
theorem Turn.cons (turn : Turn (.report node rest) id known known') (other : r.pipeline ≠ id) :
    Turn (.report node (r :: rest)) id known known' := by
  cases turn with
  | kept => exact .kept ..
  | opened told allocated =>
    obtain ⟨r', mem, same⟩ := told
    exact .opened ⟨r', List.mem_cons_of_mem r mem, same⟩ allocated
  | learned first => exact .learned (by rwa [List.find?_cons_of_neg (by simpa using other)])

/-- No entry changes a pipeline that is no longer allocated. -/
theorem Turn.eq_of_report (turn : Turn (.report node entries) id (some p) known) (past : p.state ≠ .allocated) :
    known = some p := by
  cases turn with
  | kept => rfl
  | opened _ allocated => exact absurd allocated past

end Turn

section Report

def opening (node : NodeId) (r : PipelineReport) : Option Pipeline → Option Pipeline
  | none => some ⟨r.pipeline, withMember r.members node, .opened⟩
  | some p => if p.state = .allocated then some { p with state := .opened } else none

theorem opening_eq_some_iff : opening node r known = some q ↔
    (known = none ∧ q = ⟨r.pipeline, withMember r.members node, .opened⟩) ∨
    ∃ p, known = some p ∧ p.state = .allocated ∧ q = { p with state := .opened } := by
  cases known with
  | none => simp [opening, eq_comm]
  | some p => simp [opening, eq_comm]

theorem opening_eq_none_iff : opening node r known = none ↔ ∃ p, known = some p ∧ p.state ≠ .allocated := by
  cases known with
  | none => simp [opening]
  | some p => simp [opening]

theorem state_of_opening (turned : opening node r known = some q) : q.state = .opened := by
  obtain ⟨-, rfl⟩ | ⟨p, -, -, rfl⟩ := opening_eq_some_iff.1 turned <;> rfl

theorem opening_ne (turned : opening node r known = some q) : known ≠ some q := by
  obtain ⟨rfl, -⟩ | ⟨p, rfl, allocated, rfl⟩ := opening_eq_some_iff.1 turned
  · simp
  · intro same
    have opened : p.state = .opened := congrArg Pipeline.state (Option.some.inj same)
    rw [allocated] at opened
    cases opened

theorem Turn.of_opening (turned : opening node r known = some q) :
    Turn (.report node (r :: rest)) r.pipeline known (some q) := by
  obtain ⟨rfl, rfl⟩ | ⟨p, rfl, allocated, rfl⟩ := opening_eq_some_iff.1 turned
  · exact .learned (by simp)
  · exact .opened ⟨r, List.mem_cons_self, rfl⟩ allocated

/-- An entry that changes nothing takes no write. -/
theorem run_takeReport_of_none (quiet : opening node r s.view[r.pipeline]? = none) (changed : Nat) :
    (takeReport node changed r).run s = (.ok changed, s) := by
  obtain ⟨p, known, past⟩ := opening_eq_none_iff.1 quiet
  rw [takeReport, Action.run_bind_ok (Stored.run_getView s), known]
  dsimp only
  rw [if_neg past]
  rfl

/-- An entry that changes its pipeline does so with one write. -/
theorem run_takeReport_of_some (own : s.view.Own) (turned : opening node r s.view[r.pipeline]? = some q)
    (changed : Nat) :
    (∃ db, (takeReport node changed r).run s = (.ok (changed + 1), ⟨s.view.insert r.pipeline q, db⟩)) ∨
    (∃ e db, (takeReport node changed r).run s = (.error e, ⟨s.view, db⟩)) := by
  rw [takeReport, Action.run_bind_ok (Stored.run_getView s)]
  obtain ⟨unknown, rfl⟩ | ⟨p, known, allocated, rfl⟩ := opening_eq_some_iff.1 turned
  · rw [unknown]
    obtain ⟨-, rows, run⟩ | ⟨-, e, db, run⟩ := run_keep ⟨r.pipeline, withMember r.members node, .opened⟩ s
    · exact .inl ⟨_, Action.run_bind_ok run _⟩
    · exact .inr ⟨e, db, Action.run_bind_error run _⟩
  · rw [known]
    dsimp only
    rw [if_pos allocated]
    obtain ⟨-, rows, run⟩ | ⟨-, e, db, run⟩ :=
      run_setState known (own r.pipeline p known) .opened (by simp [allocated])
    · exact .inl ⟨_, Action.run_bind_ok run _⟩
    · exact .inr ⟨e, db, Action.run_bind_error run _⟩

theorem Own.opening (own : s.view.Own) (turned : opening node r s.view[r.pipeline]? = some q) :
    Own (s.view.insert r.pipeline q) := by
  have under : q.id = r.pipeline := by
    obtain ⟨-, rfl⟩ | ⟨p, known, -, rfl⟩ := opening_eq_some_iff.1 turned
    · rfl
    · exact own r.pipeline p known
  exact under ▸ own.insert q

/-- The entries one after another, up to the first one whose write is refused. -/
theorem foldlM_takeReport (own : s.view.Own) (node : NodeId) (entries : List PipelineReport) (changed : Nat) :
    ∃ result s', (entries.foldlM (takeReport node) changed).run s = (result, s') ∧
      (∀ id : PipelineId, Turn (.report node entries) id s.view[id]? s'.view[id]?) ∧
      ∃ ids, Changed ids s.view s'.view ∧ ∀ n, result = .ok n → n = changed + ids.length := by
  induction entries generalizing s changed with
  | nil => exact ⟨_, s, rfl, fun id => .kept .., [], changed_nil _, fun n ok => (Except.ok.inj ok).symm⟩
  | cons r rest ih =>
    rw [List.foldlM_cons]
    cases turned : opening node r s.view[r.pipeline]? with
    | none =>
      obtain ⟨p, known, past⟩ := opening_eq_none_iff.1 turned
      obtain ⟨result, s', run, turn, ids, changed', count⟩ := ih own changed
      refine ⟨result, s', ?_, fun id => ?_, ids, changed', count⟩
      · rw [Action.run_bind_ok (run_takeReport_of_none turned changed), run]
      · by_cases other : r.pipeline = id
        · subst other
          have same := turn r.pipeline
          rw [known] at same ⊢
          rw [same.eq_of_report past]
          exact .kept ..
        · exact (turn id).cons other
    | some q =>
      obtain ⟨db, first⟩ | ⟨e, db, first⟩ := run_takeReport_of_some own turned changed
      · obtain ⟨result, s', run, turn, ids, changed', count⟩ :=
          ih (s := ⟨s.view.insert r.pipeline q, db⟩) (own.opening turned) (changed + 1)
        have fixed : s'.view[r.pipeline]? = some q := by
          have same := turn r.pipeline
          rw [Std.ExtTreeMap.getElem?_insert_self] at same
          exact same.eq_of_report (by simp [state_of_opening turned])
        refine ⟨result, s', ?_, fun id => ?_, r.pipeline :: ids, changed'.cons (opening_ne turned) fixed,
          fun n ok => ?_⟩
        · rw [Action.run_bind_ok first, run]
        · by_cases other : r.pipeline = id
          · subst other
            rw [fixed]
            exact .of_opening turned
          · have later := turn id
            rw [Std.ExtTreeMap.getElem?_insert, if_neg (by simpa using other)] at later
            exact later.cons other
        · rw [count n ok, List.length_cons]
          omega
      · exact ⟨_, ⟨s.view, db⟩, Action.run_bind_error first _, fun id => .kept .., [], changed_nil _, nofun⟩

theorem does_report (own : s.view.Own) (node : NodeId) (entries : List PipelineReport) :
    (Call.report node entries).Does s.view ((report node entries).run s).1 ((report node entries).run s).2.view := by
  obtain ⟨result, s', run, turn, ids, changed, count⟩ := foldlM_takeReport own node entries 0
  rw [report, run]
  exact .of_turn turn fun n ok => ⟨ids, changed, by rw [count n ok, Nat.zero_add]⟩

end Report

theorem does_add (p : Pipeline) (s : Stored PipelineRegistry) :
    (Call.add p).Does s.view ((add p).run s).1 ((add p).run s).2.view := by
  have run : (add p).run s = if s.view.contains p.id then (.ok false, s) else
      (keep p >>= fun _ => (pure true : Action _ StoreError Bool)).run s := by
    rw [add, Action.run_bind_ok (Stored.run_getView s)]
    split <;> rfl
  by_cases old : s.view.contains p.id = true
  · rw [run, if_pos old]
    refine .of_turn (fun id => .kept ..) fun isNew ok => ?_
    cases ok
    exact changed_nil _
  · rw [run, if_neg old]
    have unknown : s.view[p.id]? = none := by
      rw [Std.ExtTreeMap.contains_eq_isSome_getElem?, Option.not_isSome_iff_eq_none] at old
      exact old
    obtain ⟨-, rows, kept⟩ | ⟨-, e, db, kept⟩ := run_keep p s
    · rw [Action.run_bind_ok kept]
      refine .of_turn (fun id => ?_) fun isNew ok => ?_
      · show Turn _ id _ (s.view.insert p.id p)[id]?
        rw [Std.ExtTreeMap.getElem?_insert]
        by_cases same : p.id = id
        · subst same
          simpa [unknown] using Turn.added p
        · simpa [same] using Turn.kept (.add p) id s.view[id]?
      · cases ok
        exact (changed_nil _).cons (by simp [unknown]) Std.ExtTreeMap.getElem?_insert_self
    · rw [Action.run_bind_error kept]
      refine .of_turn (fun id => .kept ..) fun isNew ok => ?_
      cases ok

theorem does_closeOn (own : s.view.Own) (node : NodeId) :
    (Call.close node).Does s.view ((closeOn node).run s).1 ((closeOn node).run s).2.view := by
  have turn (done : List PipelineId) (among : ∀ id ∈ done, id ∈ s.view.openOn node) (id : PipelineId) :
      Turn (.close node) id s.view[id]? (closing done s.view)[id]? := by
    rw [getElem?_closing]
    by_cases mem : id ∈ done
    · obtain ⟨p, known, unclosed, member⟩ := mem_openOn_iff.1 (among id mem)
      simpa [known, mem] using (Turn.closed unclosed member : Turn (.close node) id _ _)
    · simpa [mem] using Turn.kept (.close node) id s.view[id]?
  obtain ⟨-, db, run⟩ | ⟨-, e, db, done, id, left, split, run⟩ := run_closeOn own node
  · rw [run]
    refine .of_turn (turn _ fun id mem => mem) fun ids ok => ?_
    cases ok
    refine ⟨⟨Std.ExtTreeMap.nodup_keys, fun id => ?_⟩, fun id p known member => ?_⟩
    · show _ ↔ _ ≠ (closing (s.view.openOn node) s.view)[id]?
      rw [getElem?_closing]
      by_cases mem : id ∈ s.view.openOn node
      · obtain ⟨p, known, unclosed, -⟩ := mem_openOn_iff.1 mem
        have moved : p ≠ { p with state := .closed } := fun same => unclosed (congrArg Pipeline.state same)
        simp [known, mem, moved]
      · simp [mem]
    · have shut : (closing (s.view.openOn node) s.view)[id]? = some p := known
      rw [getElem?_closing_openOn] at shut
      obtain ⟨q, -, rfl⟩ := Option.map_eq_some_iff.1 shut
      unfold Pipeline.shut at member ⊢
      split
      · rfl
      · next apart => simp [apart] at member
  · rw [run]
    exact .of_turn (turn done fun id mem => by simp [split, mem]) nofun

theorem does_call (own : s.view.Own) (call : Call) :
    call.Does s.view (call.action.run s).1 (call.action.run s).2.view := by
  cases call with
  | add p => exact does_add p s
  | report node entries => exact does_report own node entries
  | close node => exact does_closeOn own node

theorem keepsOwn_call (call : Call) : call.action.Respects KeepsOwn := by
  cases call with
  | add p => exact keepsOwn_add p
  | report node entries => exact keepsOwn_report node entries
  | close node => exact keepsOwn_closeOn node

def calling (calls : List Call) (s : Stored PipelineRegistry) : Stored PipelineRegistry :=
  calls.foldl (fun s call => (call.action.run s).2) s

theorem own_calling (own : s.view.Own) (calls : List Call) : (calling calls s).view.Own :=
  List.foldlRecOn (motive := fun s : Stored PipelineRegistry => s.view.Own) calls _ own
    fun s own call _ => keepsOwn_call call s own

theorem onward_calling (own : s.view.Own) (calls : List Call) : Onward s.view (calling calls s).view := by
  induction calls generalizing s with
  | nil => exact .refl _
  | cons call rest ih => exact (does_call own call).onward.trans (ih (keepsOwn_call call s own))

/-- Wherever a sequence of calls is looked at, what comes later has gone on from there, and the next call turns
each pipeline as it may and tells of those that it has changed. -/
theorem onward_of_calls (own : s.view.Own) (calls later : List Call) (call : Call) :
    Onward (calling calls s).view (calling (calls ++ later) s).view ∧
    call.Does (calling calls s).view (call.action.run (calling calls s)).1 (calling (calls ++ [call]) s).view := by
  have own' : (calling calls s).view.Own := own_calling own calls
  have next : calling (calls ++ [call]) s = (call.action.run (calling calls s)).2 := List.foldl_append
  have rest : calling (calls ++ later) s = calling later (calling calls s) := List.foldl_append
  rw [next, rest]
  exact ⟨onward_calling own' later, does_call own' call⟩

section Halfway

def twoKnown : Stored PipelineRegistry where
  view := reload [⟨⟨⟨7⟩⟩, [⟨⟨3⟩⟩], .allocated⟩, ⟨⟨⟨8⟩⟩, [⟨⟨3⟩⟩, ⟨⟨4⟩⟩], .opened⟩]
  db := { Database.empty with refusals := fun n => if n = .pipelines then [false, false, false, true] else [] }

def told : List PipelineReport := [⟨⟨⟨7⟩⟩, [⟨⟨3⟩⟩]⟩, ⟨⟨⟨5⟩⟩, [⟨⟨3⟩⟩]⟩, ⟨⟨⟨7⟩⟩, []⟩]

/-- The first attempt to close the pipelines of node 3 ends halfway, the second one closes the others. -/
theorem onward_of_calls_halfway :
    (Call.report ⟨⟨4⟩⟩ told).Does twoKnown.view (.ok 2) (calling [.report ⟨⟨4⟩⟩ told] twoKnown).view ∧
    Onward twoKnown.view (calling [.report ⟨⟨4⟩⟩ told, .close ⟨⟨3⟩⟩, .close ⟨⟨3⟩⟩] twoKnown).view ∧
    ((calling [.report ⟨⟨4⟩⟩ told, .close ⟨⟨3⟩⟩] twoKnown).view.values.map (·.state) = [.closed, .opened, .opened]) ∧
    ((calling [.report ⟨⟨4⟩⟩ told, .close ⟨⟨3⟩⟩, .close ⟨⟨3⟩⟩] twoKnown).view.values.map (·.state) =
      [.closed, .closed, .closed]) := by
  have own : twoKnown.view.Own := own_reload _
  have first := (onward_of_calls own [] [] (.report ⟨⟨4⟩⟩ told)).2
  have changed : ((report ⟨⟨4⟩⟩ told).run twoKnown).1 = .ok 2 := eq_ok_of_toOption (by decide +kernel)
  refine ⟨changed ▸ first, ?_, by decide +kernel, by decide +kernel⟩
  exact (onward_of_calls own [] [.report ⟨⟨4⟩⟩ told, .close ⟨⟨3⟩⟩, .close ⟨⟨3⟩⟩] (.close ⟨⟨3⟩⟩)).1

end Halfway

end PipelineRegistry

end ClusterCatalog

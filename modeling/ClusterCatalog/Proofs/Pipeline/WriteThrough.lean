import ClusterCatalog.Pipeline.Registry
import ClusterCatalog.Proofs.Storage.WriteThrough
/-! The registry of pipelines and its table stay in step. -/
namespace ClusterCatalog.PipelineRegistry

open TypedTable (lengthBound)

def InStep (s : Stored PipelineRegistry) : Prop :=
  TypedTable.pipelines.Mirrors Pipeline.id s.db fun id => s.view[id]?

abbrev Keeps := Stored.Keeps InStep [.pipelines]

theorem composes : Action.Composes Keeps := Stored.composes_keeps ..

theorem keeps_keep {p : Pipeline} (fit : p.nodes.length < lengthBound) : (keep p).Respects Keeps := by
  intro s inStep
  obtain ⟨db, run, confined, mirrors⟩ | ⟨e, db, run, confined⟩ := inStep.put TypedTable.sound_pipelines fit
  · rw [keep, Stored.run_onStore_bind_ok run]
    refine ⟨?_, confined⟩
    have added := update_getElem?_insert id s.view p.id p
    simp only [Option.map_id, id] at added mirrors
    rw [added] at mirrors
    exact mirrors
  · rw [keep, Stored.run_onStore_bind_error run]
    exact ⟨inStep.confined confined (by simp), confined.mono (by simp)⟩

theorem keeps_drop (tally : PipelineTally) (id : PipelineId) : (drop tally id).Respects Keeps := by
  intro s inStep
  obtain ⟨was, db, run, confined, mirrors⟩ | ⟨e, db, run, confined⟩ := inStep.delete KeyCodec.exact_pipeline id
  · rw [drop, Stored.run_onStore_bind_ok run]
    refine ⟨?_, confined⟩
    rw [update_getElem?_erase] at mirrors
    exact mirrors
  · rw [drop, Stored.run_onStore_bind_error run]
    exact ⟨inStep.confined confined (by simp), confined.mono (by simp)⟩

section Steps

variable {R : Stored PipelineRegistry → Stored PipelineRegistry → Prop}

theorem respects_take (composes : Action.Composes R) {p : Pipeline} (kept : (keep p).Respects R)
    (tally : PipelineTally) : (take tally p).Respects R := by
  intro s
  rw [take, Action.run_bind_ok (Stored.run_getView s)]
  split
  · split
    · exact Action.respects_pure composes _ s
    · exact kept.bind composes (fun _ => Action.respects_pure composes _) s
  · exact kept.bind composes (fun _ => Action.respects_pure composes _) s

theorem respects_replaceWith (composes : Action.Composes R) {given : List Pipeline}
    (kept : ∀ p ∈ given, (keep p).Respects R) (dropped : ∀ tally id, (drop tally id).Respects R) :
    (replaceWith given).Respects R := by
  refine (Action.respects_foldlM composes (fun tally p mem => respects_take composes (kept p mem) tally) _).bind
    composes fun tally => ?_
  refine (Action.respects_still composes Stored.state_getView).bind composes fun pipelines => ?_
  exact Action.respects_foldlM composes (fun tally id _ => dropped tally id) tally

theorem respects_add (composes : Action.Composes R) {p : Pipeline} (kept : (keep p).Respects R) :
    (add p).Respects R := by
  intro s
  rw [add, Action.run_bind_ok (Stored.run_getView s)]
  split
  · exact Action.respects_pure composes _ s
  · exact kept.bind composes (fun _ => Action.respects_pure composes _) s

theorem respects_report (composes : Action.Composes R) {entries : List PipelineReport} {node : NodeId}
    (opened : ∀ id, (setState id .opened).Respects R)
    (kept : ∀ r ∈ entries, (keep ⟨r.pipeline, withMember r.members node, .opened⟩).Respects R) :
    (report node entries).Respects R := by
  refine Action.respects_foldlM composes (fun changed r mem s => ?_) 0
  rw [takeReport, Action.run_bind_ok (Stored.run_getView s)]
  split
  · split
    · exact (opened r.pipeline).bind composes (fun opened => Action.respects_pure composes _) s
    · exact Action.respects_pure composes _ s
  · exact (kept r mem).bind composes (fun _ => Action.respects_pure composes _) s

theorem respects_closeOn (composes : Action.Composes R) {node : NodeId}
    (closed : ∀ id, (setState id .closed).Respects R) : (closeOn node).Respects R := by
  refine (Action.respects_still composes Stored.state_getView).bind composes fun pipelines => ?_
  refine Action.respects_foldlM composes (fun _ id _ => ?_) []
  exact (closed id).bind composes fun _ => Action.respects_pure composes _

end Steps

theorem keeps_replaceWith {given : List Pipeline} (fit : ∀ p ∈ given, p.nodes.length < lengthBound) :
    (replaceWith given).Respects Keeps :=
  respects_replaceWith composes (fun p mem => keeps_keep (fit p mem)) keeps_drop

theorem keeps_add {p : Pipeline} (fit : p.nodes.length < lengthBound) : (add p).Respects Keeps :=
  respects_add composes (keeps_keep fit)

/-- The members of a known pipeline were read or checked, so they fit. -/
theorem keeps_setState (id : PipelineId) (state : PipelineState) : (setState id state).Respects Keeps := by
  intro s inStep
  rw [setState, Action.run_bind_ok (Stored.run_getView s)]
  split
  · exact Action.respects_pure composes _ s inStep
  · next p known =>
    have fit : p.nodes.length < lengthBound := (inStep.of_shown TypedTable.sound_pipelines known).1
    split
    · exact Action.respects_pure composes _ s inStep
    · exact (keeps_keep (p := { p with state }) fit).bind composes
        (fun _ => Action.respects_pure composes _) s inStep

theorem length_withMember (members : List NodeId) (node : NodeId) :
    (withMember members node).length ≤ members.length + 1 := by
  unfold withMember
  split <;> simp

theorem keeps_report {entries : List PipelineReport} (node : NodeId)
    (fit : ∀ r ∈ entries, r.members.length + 1 < lengthBound) : (report node entries).Respects Keeps := by
  refine respects_report composes (fun id => keeps_setState id .opened) fun r mem => keeps_keep ?_
  exact Nat.lt_of_le_of_lt (length_withMember r.members node) (fit r mem)

theorem keeps_closeOn (node : NodeId) : (closeOn node).Respects Keeps :=
  respects_closeOn composes fun id => keeps_setState id .closed

section WritesTo

open Stored (WritesTo composes_writesTo)

/-- Pipelines of any size are written to the table of pipelines and to no other. -/
theorem writesTo_keep (p : Pipeline) : (keep p).Respects (WritesTo [.pipelines]) :=
  Action.Respects.bind (composes_writesTo _) (fun s => Database.confined_write _ _ s.db) fun _ =>
    Stored.writesTo_modifyView _ _

theorem writesTo_drop (tally : PipelineTally) (id : PipelineId) : (drop tally id).Respects (WritesTo [.pipelines]) := by
  refine Action.Respects.bind (composes_writesTo _) (fun s => Database.confined_write _ _ s.db) fun was => ?_
  refine Action.Respects.bind (composes_writesTo _) (Stored.writesTo_modifyView _ _) fun _ => ?_
  exact Action.respects_pure (composes_writesTo _) _

theorem writesTo_replaceWith (given : List Pipeline) : (replaceWith given).Respects (WritesTo [.pipelines]) :=
  respects_replaceWith (composes_writesTo _) (fun p _ => writesTo_keep p) writesTo_drop

theorem writesTo_add (p : Pipeline) : (add p).Respects (WritesTo [.pipelines]) :=
  respects_add (composes_writesTo _) (writesTo_keep p)

theorem writesTo_setState (id : PipelineId) (state : PipelineState) :
    (setState id state).Respects (WritesTo [.pipelines]) := by
  intro s
  rw [setState, Action.run_bind_ok (Stored.run_getView s)]
  split
  · exact .refl ..
  · next p known =>
    split
    · exact .refl ..
    · exact (writesTo_keep { p with state }).bind (composes_writesTo _)
        (fun _ => Action.respects_pure (composes_writesTo _) _) s

theorem writesTo_report (node : NodeId) (entries : List PipelineReport) :
    (report node entries).Respects (WritesTo [.pipelines]) :=
  respects_report (composes_writesTo _) (fun id => writesTo_setState id .opened) fun _ _ => writesTo_keep _

theorem writesTo_closeOn (node : NodeId) : (closeOn node).Respects (WritesTo [.pipelines]) :=
  respects_closeOn (composes_writesTo _) fun id => writesTo_setState id .closed

end WritesTo

theorem InStep.list_eq {s : Stored PipelineRegistry} (inStep : InStep s) :
    TypedTable.pipelines.list s.db = .ok s.view.toList := by
  have mirrors : TypedTable.pipelines.Mirrors Pipeline.id s.db fun p => (s.view[p]?).map id := by
    simp only [Option.map_id, id]
    exact inStep
  simpa using mirrors.list_eq KeyCodec.exact_pipeline

/-- The pipelines of a store are those that are known after its rows are taken over. -/
theorem getElem?_reload {db : Database} {rows : List Pipeline} {view : PipelineId → Option Pipeline}
    (mirrors : TypedTable.pipelines.Mirrors Pipeline.id db view)
    (read : TypedTable.pipelines.values db = .ok rows) (id : PipelineId) : (reload rows)[id]? = view id := by
  obtain ⟨rows', read', distinct, find⟩ := mirrors.values KeyCodec.exact_pipeline
  rw [read] at read'
  cases read'
  rw [reload, getElem?_foldl_upsert Pipeline.id (fun _ p => p) distinct ∅ id, find]
  cases view id <;> simp

/-- Taking over the rows of a store brings both in step. -/
theorem inStep_reload {db : Database} {rows : List Pipeline} {view : PipelineId → Option Pipeline}
    (mirrors : TypedTable.pipelines.Mirrors Pipeline.id db view)
    (read : TypedTable.pipelines.values db = .ok rows) : InStep ⟨reload rows, db⟩ := by
  have views : (fun id : PipelineId => (reload rows)[id]?) = view := funext (getElem?_reload mirrors read)
  unfold InStep
  rwa [views]

end ClusterCatalog.PipelineRegistry

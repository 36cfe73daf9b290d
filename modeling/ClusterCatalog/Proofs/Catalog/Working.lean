import ClusterCatalog.Catalog.Basic
import ClusterCatalog.Proofs.Container.Working
/-!
A catalog over a store that works: nodes are registered and pipelines are added without fail, and what
is done on one view leaves the other two.
-/
namespace ClusterCatalog

open Stored (Leads leads_getView leads_modifyView leads_pure)

namespace NodeRegistry

theorem leads_store (node : Node) (nodes : NodeRegistry) : Leads (store node) nodes () nodes :=
  Stored.leads_put (t := TypedTable.nodes) (fun _ works => works.nodes) (by decide) _ _ _ nodes

def enrol (nodes : NodeRegistry) (id : NodeId) : NodeRegistry :=
  if nodes.contains id then nodes else nodes.insert id ⟨.unresolved id, .inService, .healthy, none⟩

theorem leads_register (id : NodeId) (nodes : NodeRegistry) :
    ∃ isNew, Leads (register id) nodes isNew (nodes.enrol id) := by
  unfold enrol
  by_cases known : nodes.contains id = true
  · refine ⟨false, (leads_getView nodes).bind ?_⟩
    rw [if_pos known, if_pos known]
    exact leads_pure false nodes
  · refine ⟨true, (leads_getView nodes).bind ?_⟩
    rw [if_neg known, if_neg known]
    exact (leads_store _ nodes).bind ((leads_modifyView _ nodes).bind (leads_pure true _))

theorem enrol_of_mem {nodes : NodeRegistry} {id : NodeId} (known : id ∈ nodes) : nodes.enrol id = nodes :=
  if_pos known

theorem mem_enrol {nodes : NodeRegistry} {id node : NodeId} : node ∈ nodes.enrol id ↔ node = id ∨ node ∈ nodes := by
  unfold enrol
  split
  · next known => exact ⟨.inr, fun h => h.elim (fun same => same ▸ known) fun mem => mem⟩
  · rw [Std.ExtTreeMap.mem_insert, Std.LawfulEqCmp.compare_eq_iff_eq, eq_comm]

def enrolAll (nodes : NodeRegistry) (ids : List NodeId) : NodeRegistry := ids.foldl enrol nodes

theorem mem_enrolAll {nodes : NodeRegistry} {ids : List NodeId} {node : NodeId} :
    node ∈ nodes.enrolAll ids ↔ node ∈ ids ∨ node ∈ nodes := by
  induction ids generalizing nodes with
  | nil => simp [enrolAll]
  | cons id rest ih =>
    have later : node ∈ (nodes.enrol id).enrolAll rest ↔ node ∈ rest ∨ node ∈ nodes.enrol id := ih
    refine later.trans ?_
    rw [mem_enrol, List.mem_cons, or_assoc, or_left_comm]

/-- Nothing comes of registering nodes that are known. -/
theorem enrolAll_of_mem {nodes : NodeRegistry} {ids : List NodeId} (known : ∀ id ∈ ids, id ∈ nodes) :
    nodes.enrolAll ids = nodes := by
  induction ids with
  | nil => rfl
  | cons id rest ih =>
    obtain ⟨here, there⟩ := List.forall_mem_cons.1 known
    rw [enrolAll, List.foldl_cons, enrol_of_mem here]
    exact ih there

end NodeRegistry

namespace PipelineRegistry

theorem leads_keep (p : Pipeline) (pipelines : PipelineRegistry) :
    Leads (keep p) pipelines () (pipelines.insert p.id p) := by
  have stored : Leads (Stored.onStore (TypedTable.pipelines.put p.id p)) pipelines () pipelines :=
    Stored.leads_onStore (fun db works => works.put works.pipelines (by decide) p.id p) pipelines
  exact stored.bind (leads_modifyView _ pipelines)

theorem leads_add (p : Pipeline) (pipelines : PipelineRegistry) :
    ∃ isNew pipelines', Leads (add p) pipelines isNew pipelines' := by
  by_cases known : pipelines.contains p.id = true
  · refine ⟨false, pipelines, (leads_getView pipelines).bind ?_⟩
    rw [if_pos known]
    exact leads_pure false pipelines
  · refine ⟨true, pipelines.insert p.id p, (leads_getView pipelines).bind ?_⟩
    rw [if_neg known]
    exact (leads_keep p pipelines).bind (leads_pure true _)

end PipelineRegistry

namespace Catalog

variable {ε α : Type} {x : α} {c : Catalog}

theorem run_onNodes {a : Action (Stored NodeRegistry) ε α} {nodes : NodeRegistry}
    (leads : Leads a c.nodes x nodes) (works : c.live.db.Works) :
    ∃ db, (onNodes a).run c = (.ok x, { c with nodes, live := { c.live with db } }) ∧ db.Works := by
  obtain ⟨db, run, works'⟩ := leads c.live.db works
  exact ⟨db, by rw [onNodes, Action.run_within, run], works'⟩

theorem run_onPipelines {a : Action (Stored PipelineRegistry) ε α} {pipelines : PipelineRegistry}
    (leads : Leads a c.pipelines x pipelines) (works : c.live.db.Works) :
    ∃ db, (onPipelines a).run c = (.ok x, { c with pipelines, live := { c.live with db } }) ∧ db.Works := by
  obtain ⟨db, run, works'⟩ := leads c.live.db works
  exact ⟨db, by rw [onPipelines, Action.run_within, run], works'⟩

theorem run_onDirectory_of_run {a : Action (Stored Directory) ε α} {result : Except ε α} {directory : Directory} {db : Database}
    (run : a.run ⟨c.directory, c.live.db⟩ = (result, ⟨directory, db⟩)) :
    (onDirectory a).run c = (result, { c with directory, live := { c.live with db } }) := by
  rw [onDirectory, Action.run_within, run]

theorem run_onDirectory {a : Action (Stored Directory) ε α} {directory : Directory}
    (leads : Leads a c.directory x directory) (works : c.live.db.Works) :
    ∃ db, (onDirectory a).run c = (.ok x, { c with directory, live := { c.live with db } }) ∧ db.Works := by
  obtain ⟨db, run, works'⟩ := leads c.live.db works
  exact ⟨db, run_onDirectory_of_run run, works'⟩

theorem run_register (node : NodeId) (works : c.live.db.Works) :
    ∃ db, (register node).run c = (.ok (), { c with nodes := c.nodes.enrol node, live := { c.live with db } }) ∧
      db.Works := by
  obtain ⟨isNew, leads⟩ := NodeRegistry.leads_register node c.nodes
  obtain ⟨db, run, works'⟩ := run_onNodes leads works
  refine ⟨db, Action.run_discard_ok (x := isNew) ?_, works'⟩
  exact Action.run_relabel_ok run _

end Catalog

end ClusterCatalog

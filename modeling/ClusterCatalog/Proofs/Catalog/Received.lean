import ClusterCatalog.Proofs.Catalog.Working
import ClusterCatalog.Proofs.Container.Received
/-!
Reports over a store that works: every report is taken in, container by container, and pipelines change
in a way that depends on the pipelines alone.
-/
namespace ClusterCatalog

open Stored (Leads Succeeds succeeds_getView succeeds_pure succeeds_foldlM)

namespace NodeRegistry

theorem succeeds_store (node : Node) : Succeeds (store node) := fun nodes => ⟨(), nodes, leads_store node nodes⟩

theorem succeeds_keep {ε : Type} (node : Node) : Succeeds (keep node : Action (Stored NodeRegistry) ε Unit) :=
  fun nodes => ⟨(), _, Stored.leads_modifyView _ nodes⟩

theorem succeeds_heartbeat (now : Instant) (h : Heartbeat) : Succeeds (heartbeat now h) := by
  refine succeeds_getView.bind fun nodes => ?_
  dsimp only
  cases nodes[h.details.id]? with
  | none => exact (succeeds_store _).bind fun _ => (succeeds_keep _).bind fun _ => succeeds_pure none
  | some known =>
    dsimp only
    have kept (node : Node) : Succeeds (keep node >>= fun _ => pure (some known.health) :
        Action (Stored NodeRegistry) NodeError (Option NodeHealth)) :=
      (succeeds_keep node).bind fun _ => succeeds_pure _
    split
    · exact (succeeds_store _).bind fun _ => kept _
    · exact kept _

end NodeRegistry

namespace PipelineRegistry

theorem succeeds_keep (p : Pipeline) : Succeeds (keep p) := fun pipelines => ⟨(), _, leads_keep p pipelines⟩

theorem succeeds_setState (id : PipelineId) (state : PipelineState) : Succeeds (setState id state) := by
  refine succeeds_getView.bind fun pipelines => ?_
  cases pipelines[id]? with
  | none => exact succeeds_pure false
  | some p =>
    dsimp only
    split
    · exact succeeds_pure false
    · exact (succeeds_keep _).bind fun _ => succeeds_pure true

theorem succeeds_takeReport (node : NodeId) (changed : Nat) (r : PipelineReport) :
    Succeeds (takeReport node changed r) := by
  refine succeeds_getView.bind fun pipelines => ?_
  cases pipelines[r.pipeline]? with
  | none => exact (succeeds_keep _).bind fun _ => succeeds_pure _
  | some p =>
    dsimp only
    split
    · exact (succeeds_setState r.pipeline .opened).bind fun _ => succeeds_pure _
    · exact succeeds_pure changed

theorem succeeds_report (node : NodeId) (entries : List PipelineReport) : Succeeds (report node entries) :=
  succeeds_foldlM (succeeds_takeReport node) entries 0

theorem succeeds_closeOn (node : NodeId) : Succeeds (closeOn node) :=
  succeeds_getView.bind fun pipelines =>
    succeeds_foldlM (fun _ id => (succeeds_setState id .closed).bind fun _ => succeeds_pure _)
      (pipelines.openOn node) []

def receive (pipelines : PipelineRegistry) : Report → PipelineRegistry
  | .pipelineReport node entries => Stored.after (report node entries) pipelines
  | .nodeStateChange node .stale => Stored.after (closeOn node) pipelines
  | .nodeStateChange node .dead => Stored.after (closeOn node) pipelines
  | _ => pipelines

end PipelineRegistry

namespace Catalog

variable {c c' : Catalog}

structure Received (c : Catalog) (r : Report) (c' : Catalog) : Prop where
  works : c'.live.db.Works
  clock : c'.clock = c.clock
  containers (id : ContainerId) :
    c'.directory.containers[id]? = c.directory.containers[id]?.map fun k => k.receive c.clock id r
  pipelines : c'.pipelines = c.pipelines.receive r

/-- A report of containers: the node is registered, and then the directory is worked on. -/
theorem run_directoryReport {α : Type} (node : NodeId) (r : Report) (works : c.live.db.Works)
    (work : Millis → Action (Stored Directory) CatalogError α) (same : c.pipelines.receive r = c.pipelines)
    (acts : ∀ s : Stored Directory, s.db.Works → ∃ x s', (work c.clock).run s = (.ok x, s') ∧ s'.db.Works ∧
      ∀ id : ContainerId, s'.view.containers[id]? = s.view.containers[id]?.map fun k => k.receive c.clock id r) :
    ∃ c', (register node >>= fun _ => get >>= fun c => discard (onDirectory (work c.clock))).run c = (.ok (), c') ∧
      Received c r c' := by
  obtain ⟨db, registered, works₁⟩ := run_register node works
  obtain ⟨x, s', run, works₂, received⟩ := acts ⟨c.directory, db⟩ works₁
  refine ⟨{ c with directory := s'.view, nodes := c.nodes.enrol node, live := { c.live with db := s'.db } }, ?_, works₂, rfl, received,
    same.symm⟩
  rw [Action.run_bind_ok registered, Action.run_bind_ok (Action.run_get _)]
  exact Action.run_discard_ok (run_onDirectory_of_run run)

theorem run_closePipelines (node : NodeId) (works : c.live.db.Works) :
    ∃ db, (closePipelines node).run c = (.ok (), { c with
      pipelines := Stored.after (PipelineRegistry.closeOn node) c.pipelines, live := { c.live with db } }) ∧
      db.Works := by
  obtain ⟨closed, leads⟩ := (PipelineRegistry.succeeds_closeOn node).leads c.pipelines
  obtain ⟨db, run, works'⟩ := run_onPipelines leads works
  refine ⟨db, Action.run_discard_ok (x := closed) ?_, works'⟩
  exact Action.run_relabel_ok run _

/-- What leaves the directory alone does nothing to any container. -/
theorem received_elsewhere {r : Report} (works : c'.live.db.Works) (clock : c'.clock = c.clock)
    (directory : c'.directory = c.directory) (untouched : ∀ id (k : Container), k.receive c.clock id r = k)
    (pipelines : c'.pipelines = c.pipelines.receive r) : Received c r c' where
  works := works
  clock := clock
  containers id := by
    rw [directory]
    cases c.directory.containers[id]? with
    | none => rfl
    | some k => exact congrArg some (untouched id k).symm
  pipelines := pipelines

theorem run_receive (r : Report) (works : c.live.db.Works) :
    ∃ c', (receive r).run c = (.ok (), c') ∧ Received c r c' := by
  cases r with
  | nodeHeartbeat h =>
    obtain ⟨health, leads⟩ := (NodeRegistry.succeeds_heartbeat c.instant h).leads c.nodes
    obtain ⟨db, run, works'⟩ := run_onNodes leads works
    refine ⟨{ c with nodes := Stored.after (NodeRegistry.heartbeat c.instant h) c.nodes, live := { c.live with db } }, ?_,
      received_elsewhere works' rfl rfl (fun _ _ => rfl) rfl⟩
    refine (Action.run_bind_ok (Action.run_get c) _).trans (Action.run_discard_ok (x := health) ?_)
    exact Action.run_relabel_ok run _
  | containerReport node replicas =>
    exact run_directoryReport node _ works (fun now => Directory.fullReport now node replicas) rfl
      fun s works => Directory.received_fullReport c.clock node works replicas
  | incrementalContainerReport node replicas =>
    exact run_directoryReport node _ works (fun now => Directory.incrementalReport now node replicas) rfl
      fun s works => Directory.received_incrementalReport c.clock node works replicas
  | pipelineReport node entries =>
    obtain ⟨db, registered, works₁⟩ := run_register node works
    obtain ⟨changed, leads⟩ := (PipelineRegistry.succeeds_report node entries).leads c.pipelines
    obtain ⟨db', run, works₂⟩ := run_onPipelines
      (c := { c with nodes := c.nodes.enrol node, live := { c.live with db } }) leads works₁
    refine ⟨{ c with
        nodes := c.nodes.enrol node
        pipelines := c.pipelines.receive (.pipelineReport node entries)
        live := { c.live with db := db' } }, ?_, received_elsewhere works₂ rfl rfl (fun _ _ => rfl) rfl⟩
    refine (Action.run_bind_ok registered _).trans (Action.run_discard_ok (x := changed) ?_)
    exact Action.run_relabel_ok run _
  | nodeStateChange node health =>
    cases health with
    | healthy => exact ⟨c, rfl, received_elsewhere works rfl rfl (fun _ _ => rfl) rfl⟩
    | healthyReadonly => exact ⟨c, rfl, received_elsewhere works rfl rfl (fun _ _ => rfl) rfl⟩
    | stale =>
      obtain ⟨db, run, works'⟩ := run_closePipelines node works
      exact ⟨_, run, received_elsewhere works' rfl rfl (fun _ _ => rfl) rfl⟩
    | dead =>
      obtain ⟨db, run, works₁⟩ := run_closePipelines node works
      obtain ⟨n, s', run', works₂, dropped⟩ :=
        Directory.received_removeReplicasOf (ε := CatalogError) node (s := ⟨c.directory, db⟩) works₁
      refine ⟨_, (Action.run_bind_ok run _).trans (Action.run_discard_ok (run_onDirectory_of_run run')),
        works₂, rfl, dropped, rfl⟩

structure ReceivedAll (c : Catalog) (reports : List Report) (c' : Catalog) : Prop where
  containers (id : ContainerId) :
    c'.directory.containers[id]? = c.directory.containers[id]?.map (reports.foldl (·.receive c.clock id))
  pipelines : c'.pipelines = reports.foldl PipelineRegistry.receive c.pipelines

theorem run_receiveAll (reports : List Report) (works : c.live.db.Works) :
    ∃ c', (reports.forM receive).run c = (.ok (), c') ∧ ReceivedAll c reports c' := by
  induction reports generalizing c with
  | nil => exact ⟨c, rfl, fun id => by simp, rfl⟩
  | cons r rest ih =>
    obtain ⟨c₁, first, received⟩ := run_receive r works
    obtain ⟨c', later, receivedAll⟩ := ih received.works
    refine ⟨c', (Action.run_bind_ok first _).trans later, fun id => ?_, ?_⟩
    · rw [receivedAll.containers, received.containers, received.clock, Option.map_map]
      rfl
    · rw [receivedAll.pipelines, received.pipelines]
      rfl

end Catalog

end ClusterCatalog

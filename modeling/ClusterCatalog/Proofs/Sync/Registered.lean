import ClusterCatalog.Proofs.Container.Provenance
import ClusterCatalog.Proofs.Sync.WriteThrough
/-!
Every node that hosts a replica is known, and no node is ever forgotten. A replica gets into a container
by a report or by a pass, and both register its node first and stop where that fails; an install takes over
rows of nodes beside those that are known, and leaves the rows of replicas to the containers that stay.
-/
namespace ClusterCatalog

namespace Catalog

def Linked (c : Catalog) : Prop :=
  ∀ (id : ContainerId) (node : NodeId) (r : Replica),
    Directory.row? c.directory.containers id node = some r → r.node = node ∧ node ∈ c.nodes

structure Enrols (c c' : Catalog) : Prop where
  nodes : ∀ node ∈ c.nodes, node ∈ c'.nodes
  linked : c.Linked → c'.Linked

theorem composes_enrols : Action.Composes Enrols where
  refl _ := ⟨fun _ => id, id⟩
  trans h g := ⟨fun node known => g.nodes node (h.nodes node known), g.linked ∘ h.linked⟩

variable {ε α : Type} {fed : ContainerId → Replica → Prop} {read : Sighting → Prop} {c c' : Catalog}

theorem enrols_of_traced (nodes : ∀ node ∈ c.nodes, node ∈ c'.nodes)
    (traced : Directory.Traced fed read c.directory c'.directory) (known : ∀ id x, fed id x → x.node ∈ c'.nodes) :
    Enrols c c' := by
  refine ⟨nodes, fun linked id node r here => ?_⟩
  obtain before | ⟨x, given, rfl, same⟩ := traced.row here
  · have hosted := linked id node r before
    exact ⟨hosted.1, nodes node hosted.2⟩
  · rw [same]
    exact ⟨rfl, known id x given⟩

theorem enrols_of_grown (directory : c'.directory = c.directory) (nodes : ∀ node ∈ c.nodes, node ∈ c'.nodes) :
    Enrols c c' := by
  refine ⟨nodes, fun linked id node r here => ?_⟩
  rw [directory] at here
  have hosted := linked id node r here
  exact ⟨hosted.1, nodes node hosted.2⟩

theorem enrols_of_unfed (nodes : ∀ node ∈ c.nodes, node ∈ c'.nodes)
    (traced : Directory.Traced (fun _ _ => False) read c.directory c'.directory) : Enrols c c' :=
  enrols_of_traced nodes traced fun _ _ => False.elim

theorem enrols_onDirectory {a : Action (Stored Directory) ε α}
    (h : a.Respects (Directory.TracedBy fed fun _ => False)) (known : ∀ id x, fed id x → x.node ∈ c.nodes) :
    Enrols c ((onDirectory a).run c).2 :=
  enrols_of_traced (fun _ => id) (h ⟨c.directory, c.live.db⟩) known

theorem enrols_unfed {a : Action (Stored Directory) ε α}
    (h : a.Respects (Directory.TracedBy (fun _ _ => False) (fun _ => False))) : (onDirectory a).Respects Enrols :=
  fun _ => enrols_onDirectory h fun _ _ => False.elim

theorem enrols_onNodes {a : Action (Stored NodeRegistry) ε α} (h : a.Respects NodeRegistry.Grows) :
    (onNodes a).Respects Enrols := fun c => enrols_of_grown rfl (h ⟨c.nodes, c.live.db⟩)

theorem enrols_onPipelines (a : Action (Stored PipelineRegistry) ε α) : (onPipelines a).Respects Enrols :=
  fun _ => ⟨fun _ => id, id⟩

theorem enrols_register (node : NodeId) : (register node).Respects Enrols :=
  ((enrols_onNodes (NodeRegistry.grows_register node)).relabel _).discard

theorem enrols_closePipelines (node : NodeId) : (closePipelines node).Respects Enrols :=
  ((enrols_onPipelines _).relabel _).discard

theorem enrols_receive (report : Report) : (receive report).Respects Enrols := by
  -- a report speaks of replicas on its own node only
  have own {c : Catalog} {node : NodeId} (known : node ∈ c.nodes) (id : ContainerId) (x : Replica)
      (given : x.node = node) : x.node ∈ c.nodes := by rwa [given]
  refine respects_receive composes_enrols ?_ enrols_register ?_ ?_ ?_ enrols_closePipelines ?_
  · exact fun c h _ => enrols_onNodes (NodeRegistry.grows_heartbeat c.instant h) c
  · intro c node replicas _ known
    exact enrols_onDirectory (Directory.traced_fullReport c.clock fun _ _ => rfl) (own known)
  · intro c node replicas _ known
    exact enrols_onDirectory (Directory.traced_incrementalReport c.clock fun _ _ => rfl) (own known)
  · exact fun node entries _ => enrols_onPipelines _
  · exact fun node _ => enrols_unfed (Directory.traced_removeReplicasOf node)

theorem enrols_loadDirectory : loadDirectory.Respects Enrols :=
  respects_loadDirectory composes_enrols fun loaded => enrols_of_unfed (fun _ => id) (Directory.traced_load loaded)

theorem enrols_loadNodes : loadNodes.Respects Enrols := by
  refine respects_loadNodes composes_enrols fun loaded => ?_
  obtain ⟨rows, -, loaded⟩ := exists_of_bind_eq_ok loaded
  cases loaded
  exact enrols_of_grown rfl fun node known => NodeRegistry.mem_reload known rows

theorem enrols_loadPipelines : loadPipelines.Respects Enrols :=
  respects_loadPipelines composes_enrols fun _ => ⟨fun _ => id, id⟩

section Start

variable {clock : Millis} {disk disk' : Layout StoreFile} {n : Loaded}

theorem traced_of_start (started : (start clock).run disk = (.ok (n, c), disk')) :
    Directory.Traced (fun _ _ => False)
      (fun s => ∃ rows, TypedTable.replicaHistory.values c.live.db = .ok rows ∧ s ∈ rows) {} c.directory := by
  obtain ⟨live, u, -, loaded⟩ := start_eq_ok started
  obtain ⟨nodes, directory, pipelines, -, read, -, rfl⟩ := load_eq_ok loaded
  exact Directory.traced_load read

/-- No replica is stored, so none is there at first. -/
theorem row?_of_start (started : (start clock).run disk = (.ok (n, c), disk')) (id : ContainerId) (node : NodeId) :
    Directory.row? c.directory.containers id node = none := by
  cases here : Directory.row? c.directory.containers id node with
  | none => rfl
  | some r =>
    obtain before | ⟨x, given, -⟩ := (traced_of_start started).row here
    · simp [Directory.row?] at before
    · exact given.elim

theorem linked_of_start (started : (start clock).run disk = (.ok (n, c), disk')) : c.Linked := by
  intro id node r here
  rw [row?_of_start started] at here
  cases here

end Start

end Catalog

namespace Sync

open Catalog (Enrols composes_enrols)

/-- Once the nodes of some replicas are registered they are known. -/
theorem mem_of_registerNodes {replicas : List ReplicaSummary} {c c' : Catalog}
    (ran : (registerNodes replicas).run c = (.ok (), c')) : ∀ x ∈ replicas, x.node ∈ c'.nodes := by
  induction replicas generalizing c with
  | nil => exact fun _ mem => nomatch mem
  | cons x rest ih =>
    obtain ⟨_, u, registered, ran⟩ := Action.run_bind_eq_ok ran
    have later : ∀ node ∈ u.nodes, node ∈ c'.nodes := by
      have enrols : (registerNodes rest).Respects Enrols :=
        Action.respects_forM composes_enrols fun y _ => Catalog.enrols_register y.node
      have grown := (enrols u).nodes
      rw [show (registerNodes rest).run u = (.ok (), c') from ran] at grown
      exact grown
    intro y mem
    obtain rfl | mem := List.mem_cons.1 mem
    · exact later _ (Catalog.mem_of_register registered)
    · exact ih ran y mem

theorem enrols_takeReplicas (id : ContainerId) (replicas : List ReplicaSummary) (r : DiffReport) :
    (takeReplicas id replicas r).Respects Enrols := by
  intro c
  have enrols : (registerNodes replicas).Respects Enrols :=
    Action.respects_forM composes_enrols fun x _ => Catalog.enrols_register x.node
  have first := enrols c
  rcases ran : (registerNodes replicas).run c with ⟨e | _, c'⟩ <;> rw [ran] at first
  · rw [takeReplicas, Action.run_bind_error ran]
    exact first
  · have known := mem_of_registerNodes ran
    have traced : (Directory.withContainer id (applyReplicas c'.clock replicas r)).Respects
        (Directory.TracedBy (fun _ y => y.node ∈ c'.nodes) fun _ => False) :=
      Directory.traced_withContainer (respects_applyReplicas (Held.composes_traced _ _) c'.clock
        (fun x mem => Held.traced_apply c'.clock (known x mem)) r)
    rw [takeReplicas, Action.run_bind_ok ran, Action.run_bind_ok (Action.run_get c'), Action.run_relabel]
    exact composes_enrols.trans first (Catalog.enrols_onDirectory traced fun _ _ given => given)

theorem enrols_addContainer (given : ContainerWithPipeline) : (addContainer given).Respects Enrols :=
  respects_addContainer composes_enrols (fun _ _ => Catalog.enrols_onPipelines _)
    fun info => Catalog.enrols_unfed (Directory.traced_add info)

theorem enrols_install (home : String) (snapshot : Snapshot) : (install home snapshot).Respects Enrols := by
  intro c
  obtain ⟨cause, breaks⟩ | ⟨report, c', name, disk, -, ran, live⟩ := breaks_or_wentLive c home snapshot
  · rw [breaks.run_install home]
    exact composes_enrols.refl c
  · rw [ran]
    obtain ⟨db, incoming, n, db', rows, -, -, -, -, rfl⟩ := live
    have kept : Directory.Traced (fun _ _ => False) (fun s => s ∈ incoming.history) c.directory
        (c.directory.reload incoming.infos incoming.history) := Directory.traced_reload ..
    exact Catalog.enrols_of_unfed (fun node known => NodeRegistry.mem_reload known rows) kept

def Operation.BypassesReports : Operation → Prop
  | updateReplica _ | applyReplica _ | fullReport .. | incrementalReport .. => True
  | _ => False

theorem Operation.enrols {op : Operation} (through : ¬ op.BypassesReports) (c : Catalog) :
    Enrols c (op.perform c) := by
  cases op with
  | updateReplica | applyReplica | fullReport | incrementalReport => exact absurd trivial through
  | tick clock instant => exact ⟨fun _ => id, id⟩
  | receive report => exact Catalog.enrols_receive report c
  | create id state pipeline? => exact Catalog.enrols_unfed (Directory.traced_create _ _ _ _) c
  | add info => exact Catalog.enrols_unfed (Directory.traced_add info) c
  | allocate pipeline? => exact Catalog.enrols_unfed (Directory.traced_allocate _ _) c
  | transition id event => exact Catalog.enrols_unfed (Directory.traced_transition _ _ _) c
  | removeReplica id node => exact Catalog.enrols_unfed (Directory.traced_removeReplica _ _) c
  | removeReplicasOf node => exact Catalog.enrols_unfed (Directory.traced_removeReplicasOf node) c
  | flushHistory => exact Catalog.enrols_unfed Directory.traced_flushHistory c
  | heartbeat h => exact Catalog.enrols_onNodes (NodeRegistry.grows_heartbeat c.instant h) c
  | register node => exact Catalog.enrols_onNodes (NodeRegistry.grows_register node) c
  | setOpState id state => exact Catalog.enrols_onNodes (NodeRegistry.grows_setOpState state) c
  | markStale id => exact Catalog.enrols_onNodes NodeRegistry.grows_markStale c
  | markDead id => exact Catalog.enrols_onNodes NodeRegistry.grows_markDead c
  | checkHealth limits =>
    exact Catalog.enrols_of_grown rfl fun node known => NodeRegistry.mem_checkHealth known limits c.instant
  | setPipelines | addPipeline | setPipelineState | reportPipelines | closePipelines =>
    exact Catalog.enrols_onPipelines _ c
  | loadDirectory => exact Catalog.enrols_loadDirectory c
  | loadNodes => exact Catalog.enrols_loadNodes c
  | loadPipelines => exact Catalog.enrols_loadPipelines c
  | refuse coming => exact ⟨fun _ => id, id⟩

def Enrolled (_ : List Told) (c c' : Catalog) : Prop := Enrols c c'

theorem Enrolled.respected : Respected Enrolled where
  refl _ c := composes_enrols.refl c
  trans h g := composes_enrols.trans h g
  mono _ := id
  replicas r _ := enrols_takeReplicas _ _ r
  container _ := enrols_addContainer _
  pipelines _ := Catalog.enrols_onPipelines _

namespace Traffic

theorem run_append (t : Traffic) (events later : List Event) : t.run (events ++ later) = (t.run events).run later :=
  List.foldl_append

theorem enrols_of_run {t : Traffic} (orderly : t.Orderly Enrolled) {events : List Event}
    (through : ∀ e ∈ events, e.Within (fun op => ¬ op.BypassesReports) True) :
    StepRespects Enrolled t (t.run events) :=
  run_respects Enrolled.respected (fun _ c through => Operation.enrols through c)
    (fun _ _ home snapshot c _ => enrols_install home snapshot c) through orderly

/-- From a start on, through whatever comes by reports, passes, installs and checks of health, whichever
writes are refused: every node under which a container has a row is known, and it stays known. -/
theorem linked_of_run {clock : Millis} {disk disk' : Layout StoreFile} {n : Catalog.Loaded} {c : Catalog}
    (started : (Catalog.start clock).run disk = (.ok (n, c), disk')) (guard : Guard) (status : Status)
    {events later : List Event}
    (through : ∀ e ∈ events ++ later, e.Within (fun op => ¬ op.BypassesReports) True) :
    (run { state := ⟨c, guard, status⟩ } events).state.catalog.Linked ∧
      ∀ node ∈ (run { state := ⟨c, guard, status⟩ } events).state.catalog.nodes,
        node ∈ (run { state := ⟨c, guard, status⟩ } (events ++ later)).state.catalog.nodes := by
  have none : Orderly Enrolled { state := ⟨c, guard, status⟩ } := by simp [Orderly]
  have first := enrols_of_run none fun e mem => through e (List.mem_append_left later mem)
  have second := enrols_of_run first.orderly fun e mem => through e (List.mem_append_right events mem)
  refine ⟨first.respects.linked (Catalog.linked_of_start started), ?_⟩
  rw [run_append]
  exact second.respects.nodes

section Hosted

def hostedDisk : Layout StoreFile := Layout.put {} "scm-1" .missing

def hostedSnapshot : Snapshot :=
  ⟨"snapshot", some (.database ((Directory.add (.fresh 4 ⟨1⟩ .closing none)).run ⟨{}, .empty⟩).2.db)⟩

def hostedEvents : List Event :=
  [.operate (.create ⟨1⟩ .closing none),
    .operate (.refuse fun name => if name = .nodes then [true] else []),
    .operate (.receive (.containerReport ⟨⟨2⟩⟩ [⟨⟨1⟩, .quasiClosed, 3, 5, 50, none⟩])),
    .operate (.receive (.containerReport ⟨⟨3⟩⟩ [⟨⟨1⟩, .quasiClosed, 3, 5, 50, none⟩])),
    .call .incrementalDiff,
    .answer 0 .containers (.ok [⟨⟨1⟩, .closing, 7, none, 0, 0⟩]),
    .answer 0 (.replicas ⟨1⟩) (.ok [⟨⟨1⟩, ⟨⟨4⟩⟩, .closed, 7, 4, 40, none⟩]),
    .call .fullResync,
    .answer 0 .snapshot (.ok (some hostedSnapshot)),
    .install 0 "stores",
    .resume 0]

def buriedEvents : List Event := [.operate (.receive (.nodeStateChange ⟨⟨3⟩⟩ .dead))]

theorem linked_of_run_hosted :
    (∃ n c disk, (Catalog.start 5).run hostedDisk = (.ok (n, c), disk) ∧
      (run { state := ⟨c, {}, {}⟩ } hostedEvents).state.catalog.Linked ∧
      ∀ node ∈ (run { state := ⟨c, {}, {}⟩ } hostedEvents).state.catalog.nodes,
        node ∈ (run { state := ⟨c, {}, {}⟩ } (hostedEvents ++ buriedEvents)).state.catalog.nodes) ∧
    (((Catalog.start 5).run hostedDisk).1.toOption.map fun r =>
      let hosted := (run { state := ⟨r.2, {}, {}⟩ } hostedEvents).state.catalog
      let buried := (run { state := ⟨r.2, {}, {}⟩ } (hostedEvents ++ buriedEvents)).state.catalog
      (hosted.live.location, hosted.directory.list.map (·.replicas.keys),
        buried.directory.list.map (·.replicas.keys), buried.nodes.keys)) =
        some ("scm-5", [[⟨⟨3⟩⟩, ⟨⟨4⟩⟩]], [[⟨⟨4⟩⟩]], [⟨⟨3⟩⟩, ⟨⟨4⟩⟩]) := by
  refine ⟨?_, by decide +kernel⟩
  obtain ⟨⟨n, c⟩, disk, started⟩ := Action.exists_of_isOk
    (show ((Catalog.start 5).run hostedDisk).1.isOk = true by decide +kernel)
  refine ⟨n, c, disk, started, linked_of_run started {} {} ?_⟩
  simp [hostedEvents, buriedEvents, Event.Within, Operation.BypassesReports]

end Hosted

end Traffic

end Sync

end ClusterCatalog

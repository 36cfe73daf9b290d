import ClusterCatalog.Proofs.Catalog.Numbering
import ClusterCatalog.Proofs.Sync.Chronicle
/-!
The identifiers that are handed out over the stores of one directory. An install exchanges the counter
together with the containers: the new one is raised to the containers of the snapshot, so it is ahead of
all that are known then, but not of what was handed out before.
-/
namespace ClusterCatalog

open Counter (containerId)

namespace Sync

theorem grows_takeReplicas (id : ContainerId) (replicas : List ReplicaSummary) (r : DiffReport) :
    (takeReplicas id replicas r).Respects Catalog.Grows := by
  refine respects_takeReplicas Catalog.composes_grows Catalog.grows_register fun now => Catalog.grows_onDirectory ?_ ?_
  · exact Directory.keeps_withContainer fun others =>
      respects_applyReplicas_of_respected (Held.respected_keeps others id) now replicas r
  · exact Directory.grows_withContainer
      (respects_applyReplicas_of_respected Held.respected_confined now replicas r)

theorem grows_addContainer (given : ContainerWithPipeline) : (addContainer given).Respects Catalog.Grows :=
  respects_addContainer Catalog.composes_grows
    (fun p _ => Catalog.grows_onPipelines (PipelineRegistry.writesTo_add p))
    fun info => Catalog.grows_onDirectory (Directory.keeps_add info) (Directory.grows_add info)

theorem grows_syncPipelines (given : List Pipeline) :
    (Catalog.onPipelines (PipelineRegistry.replaceWith given)).Respects Catalog.Grows :=
  Catalog.grows_onPipelines (PipelineRegistry.writesTo_replaceWith given)

def Operation.Hospitable : Operation → Prop
  | refuse coming => true ∉ coming .containers ∧ true ∉ coming .counters
  | _ => True

theorem Operation.Hospitable.grows {op : Operation} (hospitable : op.Hospitable) (c : Catalog) :
    Catalog.Grows c (op.perform c) := by
  cases op with
  | tick clock instant => exact ⟨Counter.rises_of_current_eq rfl, id⟩
  | receive report => exact Catalog.grows_receive report c
  | create id state pipeline? =>
    exact Catalog.grows_onDirectory (Directory.keeps_create _ _ _ _) (Directory.grows_create _ _ _ _) c
  | add info => exact Catalog.grows_onDirectory (Directory.keeps_add info) (Directory.grows_add info) c
  | allocate pipeline? =>
    exact Catalog.grows_onDirectory (Directory.keeps_allocate _ _) (Directory.grows_allocate _ _) c
  | transition id event =>
    exact Catalog.grows_onDirectory (Directory.keeps_transition _ _ _) (Directory.grows_transition _ _ _) c
  | updateReplica replica =>
    exact Catalog.grows_onDirectory (Directory.keeps_updateReplica _ _) (Directory.grows_updateReplica _ _) c
  | applyReplica replica =>
    exact Catalog.grows_onDirectory (Directory.keeps_applyReplica _ _) (Directory.grows_applyReplica _ _) c
  | removeReplica id node =>
    exact Catalog.grows_onDirectory (Directory.keeps_removeReplica _ _) (Directory.grows_removeReplica _ _) c
  | removeReplicasOf node =>
    exact Catalog.grows_onDirectory (Directory.keeps_removeReplicasOf node) (Directory.grows_removeReplicasOf node) c
  | fullReport node replicas =>
    exact Catalog.grows_onDirectory (Directory.keeps_fullReport _ _ _) (Directory.grows_fullReport _ _ _) c
  | incrementalReport node replicas =>
    exact Catalog.grows_onDirectory (Directory.keeps_incrementalReport _ _ _)
      (Directory.grows_incrementalReport _ _ _) c
  | flushHistory => exact Catalog.grows_onDirectory Directory.keeps_flushHistory Directory.grows_flushHistory c
  | heartbeat h => exact Catalog.grows_onNodes (NodeRegistry.writesTo_heartbeat c.instant h) c
  | register node => exact Catalog.grows_onNodes (NodeRegistry.writesTo_register node) c
  | setOpState id state => exact Catalog.grows_onNodes (NodeRegistry.writesTo_setOpState id state) c
  | markStale id => exact Catalog.grows_onNodes (NodeRegistry.writesTo_markStale id) c
  | markDead id => exact Catalog.grows_onNodes (NodeRegistry.writesTo_markDead id) c
  | checkHealth limits => exact ⟨Counter.rises_of_current_eq rfl, id⟩
  | setPipelines given => exact grows_syncPipelines given c
  | addPipeline p => exact Catalog.grows_onPipelines (PipelineRegistry.writesTo_add p) c
  | setPipelineState id state => exact Catalog.grows_onPipelines (PipelineRegistry.writesTo_setState id state) c
  | reportPipelines node entries => exact Catalog.grows_onPipelines (PipelineRegistry.writesTo_report node entries) c
  | closePipelines node => exact Catalog.grows_onPipelines (PipelineRegistry.writesTo_closeOn node) c
  | loadDirectory => exact Catalog.grows_loadDirectory c
  | loadNodes => exact Catalog.grows_loadNodes c
  | loadPipelines => exact Catalog.grows_loadPipelines c
  | refuse coming =>
    have same : Counter.current (Operation.perform c (.refuse coming)).live.db containerId =
      Counter.current c.live.db containerId := Counter.current_congr rfl _
    refine ⟨Counter.rises_of_current_eq same, fun numbered => ?_⟩
    obtain ⟨last, read, bound⟩ := numbered.counted
    refine ⟨⟨numbered.inStep.containers.congr rfl, ⟨numbered.inStep.counter.accepts.readable, hospitable.2⟩, last, ?_⟩,
      hospitable.1, last, ?_, bound⟩
    all_goals exact same.trans read

/-- The counter of the live store never falls. -/
theorem Operation.rises (op : Operation) (c : Catalog) :
    Counter.Rises containerId c.live.db (op.perform c).live.db := by
  cases op with
  | refuse coming => exact Counter.rises_of_current_eq (Counter.current_congr rfl _)
  | _ => exact (Operation.Hospitable.grows (by trivial) c).rises

section Install

variable {c c' : Catalog} {name : String} {file : StoreFile}

theorem rises_raiseCounter (infos : List ContainerInfo) :
    (raiseCounter infos).Respects (Counter.Rises containerId) := by
  unfold raiseCounter
  cases greatestId? infos with
  | none => exact Action.respects_pure (Counter.composes_rises containerId) _
  | some id => exact Counter.rises_observe containerId id

def KeepsCount (old : Database) (file : StoreFile) : Prop :=
  ∀ last db infos, Counter.current old containerId = .ok last → file.load = .ok db →
    TypedTable.containers.values db = .ok infos →
      (∃ own, Counter.current db containerId = .ok own ∧ last ≤ own) ∨ ∃ info ∈ infos, last ≤ info.id.value

theorem WentLive.rises (live : WentLive c name file c') (keeps : KeepsCount c.live.db file) :
    Counter.Rises containerId c.live.db c'.live.db := by
  intro last read
  obtain ⟨db, opened⟩ := live.opened
  obtain ⟨incoming, comes, carried, -⟩ := live.directory opened
  have raised : ∃ last', Counter.current incoming.db containerId = .ok last' ∧ last ≤ last' := by
    obtain ⟨own, read', le⟩ | ⟨info, mem, le⟩ := keeps last db incoming.infos read opened comes.infos
    · have rises := rises_raiseCounter incoming.infos db
      rw [comes.counter] at rises
      obtain ⟨last', read'', le'⟩ := rises own read'
      exact ⟨last', read'', UInt64.le_trans le le'⟩
    · obtain ⟨last', read', le'⟩ := le_current_of_raiseCounter comes.counter mem
      exact ⟨last', read', UInt64.le_trans le le'⟩
  obtain ⟨last', read', le⟩ := raised
  exact ⟨last', (Counter.current_congr (carried.tables (by simp)) _).trans read', le⟩

theorem rises_install {snapshot : Snapshot} (keeps : KeepsCount c.live.db (snapshot.file?.getD .missing))
    (home : String) : Counter.Rises containerId c.live.db ((install home snapshot).run c).2.live.db := by
  obtain ⟨cause, breaks⟩ | ⟨report, c', name, disk, -, ran, live⟩ := breaks_or_wentLive c home snapshot
  · rw [breaks.run_install home]
    exact Counter.rises_of_current_eq rfl
  · rw [ran]
    exact live.rises keeps

/-- The counter of a store that takes containers is ahead of all that come from it. -/
theorem WentLive.numbered (live : WentLive c name file c') (hospitable : file.Hospitable) : c'.Numbered := by
  obtain ⟨db, opened⟩ := live.opened
  have fresh := hospitable.load opened
  have inStep := live.directory_inStep opened fresh.containers fresh.counter
  obtain ⟨incoming, comes, carried, reloaded⟩ := live.directory opened
  refine ⟨inStep, fun refused => fresh.taken ?_, ?_⟩
  · exact (comes.confined.refusals .containers).mem ((carried.refusals .containers).mem refused)
  · obtain ⟨last, read⟩ := inStep.counter.readable
    refine ⟨last, read, fun id known => ?_⟩
    rw [reloaded] at known
    obtain ⟨info, mem, rfl⟩ := Directory.mem_of_mem_reload known
    obtain ⟨last', read', le⟩ := le_current_of_raiseCounter comes.counter mem
    rw [← Counter.current_congr (carried.tables (by simp))] at read'
    cases read.symm.trans read'
    exact le

theorem numbered_install {snapshot : Snapshot} (hospitable : ∀ file ∈ snapshot.file?, file.Hospitable)
    (numbered : c.Numbered) (home : String) : ((install home snapshot).run c).2.Numbered := by
  obtain ⟨cause, breaks⟩ | ⟨report, c', name, disk, -, ran, live⟩ := breaks_or_wentLive c home snapshot
  · rw [breaks.run_install home]
    exact numbered
  · rw [ran]
    refine live.numbered ?_
    cases given : snapshot.file? with
    | none => trivial
    | some file => exact hospitable file given

end Install

def Told.Hospitable : Told → Prop
  | .reply .snapshot (.ok (some snapshot)) => ∀ file ∈ Snapshot.file? snapshot, file.Hospitable
  | _ => True

def Event.Hospitable : Event → Prop
  | operate op => op.Hospitable
  | answer _ q reply => (Told.reply q reply).Hospitable
  | _ => True

theorem Event.Hospitable.told {e : Event} (hospitable : e.Hospitable) : ∀ x ∈ e.told, x.Hospitable := by
  cases e with
  | operate op => cases op <;> simp [Event.told, Operation.told, Told.Hospitable]
  | answer i q reply => exact fun x mem => List.mem_singleton.1 mem ▸ hospitable
  | _ => exact fun x mem => nomatch mem

def KeepsNumbered (known : List Told) (c c' : Catalog) : Prop :=
  (∀ x ∈ known, x.Hospitable) → c.Numbered → c'.Numbered

theorem KeepsNumbered.respected : Respected KeepsNumbered where
  refl _ _ _ := id
  trans h g told := g told ∘ h told
  mono le h told := h fun x mem => told x (le mem)
  replicas r _ c _ := (grows_takeReplicas _ _ r c).numbered
  container _ c _ := (grows_addContainer _ c).numbered
  pipelines _ c _ := (grows_syncPipelines _ c).numbered

def KeepsCounting (_ : List Told) (c c' : Catalog) : Prop := Counter.Rises containerId c.live.db c'.live.db

theorem KeepsCounting.respected : Respected KeepsCounting where
  refl _ _ := Counter.rises_of_current_eq rfl
  trans h g := Counter.Rises.trans h g
  mono _ := id
  replicas r _ c := (grows_takeReplicas _ _ r c).rises
  container _ c := (grows_addContainer _ c).rises
  pipelines _ c := (grows_syncPipelines _ c).rises

end Sync

end ClusterCatalog

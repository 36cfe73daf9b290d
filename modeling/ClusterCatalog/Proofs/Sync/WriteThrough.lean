import ClusterCatalog.Proofs.Catalog.WriteThrough
import ClusterCatalog.Proofs.Sync.Install
import ClusterCatalog.Proofs.Sync.Traffic
/-!
Memory and the live store stay in step along every run: through all operations, passes and installs,
whichever writes are refused, as long as those of the counter are not.
-/
namespace ClusterCatalog

open Database (Confined)
open TypedTable (lengthBound)

namespace Sync

theorem raiseCounter_works {db : Database} (works : Counter.Works db Counter.containerId)
    (infos : List ContainerInfo) : ∃ db', (raiseCounter infos).run db = (.ok (), db') ∧
      Counter.Works db' Counter.containerId ∧ Confined [.counters] db db' := by
  unfold raiseCounter
  cases greatestId? infos with
  | none => exact ⟨db, rfl, works, .refl ..⟩
  | some id => exact works.observe id

theorem respects_raiseCounter {R : Database → Database → Prop} (composes : Action.Composes R)
    (put : ∀ name value, (TypedTable.counters.put name value).Respects R) (infos : List ContainerInfo) :
    (raiseCounter infos).Respects R := by
  unfold raiseCounter
  cases greatestId? infos with
  | none => exact Action.respects_pure composes _
  | some id => exact Counter.respects_observe composes put Counter.containerId id

theorem confined_raiseCounter (infos : List ContainerInfo) :
    (raiseCounter infos).Respects (Database.Confined [.counters]) :=
  respects_raiseCounter (Database.composes_confined _) (fun _ _ => Database.confined_write _ _) infos

theorem Incoming.Comes.confined {db : Database} {incoming : Incoming} (comes : Comes db incoming) :
    Database.Confined [.counters] db incoming.db := by
  have confined := confined_raiseCounter incoming.infos db
  rwa [comes.counter] at confined

theorem WentLive.opened {c c' : Catalog} {name : String} {file : StoreFile} (live : WentLive c name file c') :
    ∃ db, file.load = .ok db := by
  obtain ⟨db, incoming, n, db', nodes, opened, -⟩ := live
  exact ⟨db, opened⟩

/-- A store that went live has the containers of its file, and of its other rows only counters and nodes differ. -/
theorem WentLive.directory {c c' : Catalog} {name : String} {file : StoreFile} (live : WentLive c name file c')
    {db : Database} (opened : file.load = .ok db) :
    ∃ incoming, Incoming.Comes db incoming ∧ Database.Confined [.nodes] incoming.db c'.live.db ∧
      c'.directory = c.directory.reload incoming.infos incoming.history := by
  obtain ⟨db₀, incoming, n, db', nodes, opened', comes, copied, -, rfl⟩ := live
  rw [opened] at opened'
  cases opened'
  exact ⟨incoming, comes, TypedTable.confined_of_copyFrom copied, rfl⟩

theorem WentLive.directory_inStep {c c' : Catalog} {name : String} {file : StoreFile} (live : WentLive c name file c')
    {db : Database} (opened : file.load = .ok db) (own : TypedTable.containers.OwnKeys ContainerInfo.id db)
    (works : Counter.Works db Counter.containerId) : Directory.InStep ⟨c'.directory, c'.live.db⟩ := by
  obtain ⟨incoming, comes, carried, reloaded⟩ := live.directory opened
  obtain ⟨raised, ran, works', counted⟩ := raiseCounter_works works incoming.infos
  rw [comes.counter] at ran
  cases ran
  obtain ⟨view, containers⟩ := TypedTable.mirrors_of_values comes.infos own
  have mirrors := Directory.mirrors_reload containers comes.infos c.directory incoming.history
  rw [reloaded]
  -- what was read of the containers still stands in their table when the store goes live
  exact ⟨(mirrors.confined counted (by simp [TypedTable.containers])).confined carried (by simp [TypedTable.containers]),
    works'.confined carried (by simp)⟩

/-- A store that goes live is in step with the views that are taken over from it. -/
theorem WentLive.inStep {c c' : Catalog} {name : String} {file : StoreFile} (live : WentLive c name file c')
    (proper : file.Proper) (inStep : c.InStep) : c'.InStep := by
  obtain ⟨db, incoming, n, db', nodes, opened, comes, copied, rows, rfl⟩ := live
  have fresh : db.Proper := proper.load opened
  have counted := comes.confined
  have own := fresh.nodes.confined counted (by simp [TypedTable.nodes])
  have carried := NodeRegistry.carried_of_copyFrom inStep.nodes own copied rows
  have both : Confined [.counters, .nodes] db db' := (counted.mono (by simp)).trans (carried.confined.mono (by simp))
  obtain ⟨known, pipelines⟩ := TypedTable.mirrors_of_values comes.pipelines fresh.pipelines
  have reloaded := PipelineRegistry.inStep_reload pipelines comes.pipelines
  refine ⟨?_, carried.inStep, TypedTable.Mirrors.confined reloaded both (by simp [TypedTable.pipelines])⟩
  exact WentLive.directory_inStep ⟨db, incoming, n, db', nodes, opened, comes, copied, rows, rfl⟩ opened
    fresh.containers fresh.counter

theorem keeps_install {snapshot : Snapshot} (proper : ∀ file ∈ snapshot.file?, file.Proper) (home : String) :
    (install home snapshot).Respects Catalog.Keeps := by
  intro c inStep
  obtain ⟨cause, breaks⟩ | ⟨report, c', name, disk, -, ran, live⟩ := breaks_or_wentLive c home snapshot
  · rw [breaks.run_install home]
    exact inStep
  · rw [ran]
    refine live.inStep ?_ (c := { c with disk }) ⟨inStep.directory, inStep.nodes, inStep.pipelines⟩
    cases given : snapshot.file? with
    | none => trivial
    | some file => exact proper file given

theorem respects_applyReplicas {R : Held → Held → Prop} (composes : Action.Composes R) (now : Millis)
    {replicas : List ReplicaSummary} (apply : ∀ x ∈ replicas, (Held.apply now x.toReplica).Respects R)
    (r : DiffReport) : (applyReplicas now replicas r).Respects R :=
  Action.respects_foldlM composes (fun _ x mem => (apply x mem).attempt.map _) r

theorem respects_applyReplicas_of_respected {R : Held → Held → Prop} (respected : Held.Respected R) (now : Millis)
    (replicas : List ReplicaSummary) (r : DiffReport) : (applyReplicas now replicas r).Respects R :=
  respects_applyReplicas respected.toComposes now (fun x _ => respected.apply now x.toReplica) r

theorem keeps_takeReplicas (id : ContainerId) (replicas : List ReplicaSummary) (r : DiffReport) :
    (takeReplicas id replicas r).Respects Catalog.Keeps := by
  refine respects_takeReplicas Catalog.composes Catalog.keeps_register fun now => Catalog.keeps_onDirectory ?_
  exact Directory.keeps_withContainer fun others =>
    respects_applyReplicas_of_respected (Held.respected_keeps others id) now replicas r

def Writable (given : List Pipeline) : Prop := ∀ p ∈ given, p.nodes.length < lengthBound

theorem keeps_addContainer {given : ContainerWithPipeline} (fit : Writable given.pipeline?.toList) :
    (addContainer given).Respects Catalog.Keeps := by
  refine respects_addContainer Catalog.composes (fun p known => Catalog.keeps_onPipelines ?_) fun info =>
    Catalog.keeps_onDirectory (Directory.keeps_add info)
  exact PipelineRegistry.keeps_add (fit p (by simp [known]))

def Told.Proper : Told → Prop
  | .report r => r.Fits
  | .reply .pipelines (.ok given) => Writable given
  | .reply (.containerWithPipeline _) (.ok given) => Writable (ContainerWithPipeline.pipeline? given).toList
  | .reply .snapshot (.ok (some snapshot)) => ∀ file ∈ Snapshot.file? snapshot, file.Proper
  | _ => True

def KeepsTold (known : List Told) (c c' : Catalog) : Prop :=
  (∀ x ∈ known, x.Proper) → Catalog.Keeps c c'

theorem KeepsTold.respected : Respected KeepsTold where
  refl _ _ _ := id
  trans h g proper := g proper ∘ h proper
  mono le h proper := h fun x mem => proper x (le mem)
  replicas r _ c _ := keeps_takeReplicas _ _ r c
  container h c proper := keeps_addContainer (proper _ h) c
  pipelines h c proper := Catalog.keeps_onPipelines (PipelineRegistry.keeps_replaceWith (proper _ h)) c

def Operation.Proper : Operation → Prop
  | receive report => report.Fits
  | heartbeat h => (Utf8.encode h.details.hostname).length < lengthBound
  | setPipelines given => Writable given
  | addPipeline p => p.nodes.length < lengthBound
  | reportPipelines _ entries => ∀ r ∈ entries, r.members.length + 1 < lengthBound
  | refuse coming => true ∉ coming .counters
  | _ => True

theorem Operation.Proper.keeps {op : Operation} (proper : op.Proper) (c : Catalog) :
    Catalog.Keeps c (op.perform c) := by
  cases op with
  | tick clock instant => exact fun inStep => ⟨inStep.directory, inStep.nodes, inStep.pipelines⟩
  | receive report => exact Catalog.keeps_receive proper c
  | create id state pipeline? => exact Catalog.keeps_onDirectory (Directory.keeps_create _ _ _ _) c
  | add info => exact Catalog.keeps_onDirectory (Directory.keeps_add info) c
  | allocate pipeline? => exact Catalog.keeps_onDirectory (Directory.keeps_allocate _ _) c
  | transition id event => exact Catalog.keeps_onDirectory (Directory.keeps_transition _ _ _) c
  | updateReplica replica => exact Catalog.keeps_onDirectory (Directory.keeps_updateReplica _ _) c
  | applyReplica replica => exact Catalog.keeps_onDirectory (Directory.keeps_applyReplica _ _) c
  | removeReplica id node => exact Catalog.keeps_onDirectory (Directory.keeps_removeReplica _ _) c
  | removeReplicasOf node => exact Catalog.keeps_onDirectory (Directory.keeps_removeReplicasOf node) c
  | fullReport node replicas => exact Catalog.keeps_onDirectory (Directory.keeps_fullReport _ _ _) c
  | incrementalReport node replicas => exact Catalog.keeps_onDirectory (Directory.keeps_incrementalReport _ _ _) c
  | flushHistory => exact Catalog.keeps_onDirectory Directory.keeps_flushHistory c
  | heartbeat h => exact Catalog.keeps_onNodes (NodeRegistry.keeps_heartbeat proper c.instant) c
  | register node => exact Catalog.keeps_onNodes (NodeRegistry.keeps_register node) c
  | setOpState id state => exact Catalog.keeps_onNodes (NodeRegistry.keeps_setOpState id state) c
  | markStale id => exact Catalog.keeps_onNodes (NodeRegistry.keeps_markStale id) c
  | markDead id => exact Catalog.keeps_onNodes (NodeRegistry.keeps_markDead id) c
  | checkHealth limits =>
    exact fun inStep => ⟨inStep.directory, inStep.nodes.checkHealth limits c.instant, inStep.pipelines⟩
  | setPipelines given => exact Catalog.keeps_onPipelines (PipelineRegistry.keeps_replaceWith proper) c
  | addPipeline p => exact Catalog.keeps_onPipelines (PipelineRegistry.keeps_add proper) c
  | setPipelineState id state => exact Catalog.keeps_onPipelines (PipelineRegistry.keeps_setState id state) c
  | reportPipelines node entries => exact Catalog.keeps_onPipelines (PipelineRegistry.keeps_report node proper) c
  | closePipelines node => exact Catalog.keeps_onPipelines (PipelineRegistry.keeps_closeOn node) c
  | loadDirectory => exact Catalog.keeps_loadDirectory c
  | loadNodes => exact Catalog.keeps_loadNodes c
  | loadPipelines => exact Catalog.keeps_loadPipelines c
  | refuse coming =>
    intro inStep
    have readable : ∃ value,
        Counter.current { c.live.db with refusals := coming } Counter.containerId = .ok value := by
      rw [Counter.current_congr rfl]
      exact inStep.directory.counter.readable
    refine ⟨⟨?_, ⟨inStep.directory.counter.accepts.readable, proper⟩, readable⟩, ?_, ?_⟩
    · exact inStep.directory.containers.congr rfl
    · exact TypedTable.Mirrors.congr inStep.nodes rfl
    · exact TypedTable.Mirrors.congr inStep.pipelines rfl

theorem Operation.Proper.told {op : Operation} (proper : op.Proper) : ∀ x ∈ op.told, x.Proper := by
  cases op with
  | receive report => exact fun x mem => List.mem_singleton.1 mem ▸ proper
  | fullReport | incrementalReport => exact fun x mem => List.mem_singleton.1 mem ▸ trivial
  | _ => exact fun x mem => nomatch mem

def Event.Proper : Event → Prop
  | operate op => op.Proper
  | answer _ q reply => (Told.reply q reply).Proper
  | _ => True

theorem Event.Proper.told {e : Event} (proper : e.Proper) : ∀ x ∈ e.told, x.Proper := by
  cases e with
  | operate op => exact Operation.Proper.told proper
  | answer i q reply => exact fun x mem => List.mem_singleton.1 mem ▸ proper
  | _ => exact fun x mem => nomatch mem

namespace Traffic

/-- From a start on, and whatever happens then: decoding the live store gives what is in memory. Rows
stand under their own keys at the start and in every snapshot, no list and no text is longer than its
length can say, and the writes of the counter are taken; all other writes may be refused. -/
theorem agrees_of_run {clock : Millis} {disk disk' : Layout StoreFile} {n : Catalog.Loaded} {c : Catalog}
    (stored : ∀ name file, disk.content? name = some file → file.Proper)
    (started : (Catalog.start clock).run disk = (.ok (n, c), disk')) (guard : Guard) (status : Status)
    {events : List Event} (proper : ∀ e ∈ events, e.Proper) :
    (run { state := ⟨c, guard, status⟩ } events).state.catalog.Agrees := by
  have within : ∀ e ∈ events, e.Within Operation.Proper True := fun e mem => by
    cases e with
    | operate op => exact proper _ mem
    | _ => trivial
  have none : Orderly KeepsTold { state := ⟨c, guard, status⟩ } := by simp [Orderly]
  have respects := (run_respects KeepsTold.respected (fun op c proper _ => proper.keeps c)
    (fun _ known home snapshot c told proper => keeps_install (proper _ told) home c) within none).respects
  have told := told_run (t := { state := ⟨c, guard, status⟩ }) (fun e mem => (proper e mem).told) fun _ mem => nomatch mem
  exact (respects told (Catalog.inStep_of_start stored started)).agrees

section Refused

def refusedDisk : Layout StoreFile := Layout.put {} "scm-1" .missing

def refusedEvents : List Event :=
  [.operate (.create ⟨1⟩ .closing none),
    .operate (.receive (.nodeHeartbeat ⟨⟨⟨⟨3⟩⟩, "three", .unspecified⟩, false⟩)),
    .call .fullResync,
    .answer 0 .snapshot (.ok (some ⟨"snapshot", some .missing⟩)),
    .install 0 "stores",
    .resume 0,
    .operate (.refuse fun name => if name = .containers then [false, true] else []),
    .operate (.create ⟨2⟩ .closing none),
    .operate (.transition ⟨2⟩ .quasiClose)]

theorem agrees_of_run_refused :
    (∃ n c disk, (Catalog.start 5).run refusedDisk = (.ok (n, c), disk) ∧
      (run { state := ⟨c, {}, {}⟩ } refusedEvents).state.catalog.Agrees) ∧
    (((Catalog.start 5).run refusedDisk).1.toOption.map fun r =>
      (run { state := ⟨r.2, {}, {}⟩ } refusedEvents).state.catalog.directory.list.map Container.info) =
        some [ContainerInfo.fresh 5 ⟨2⟩ .closing none] := by
  refine ⟨?_, by decide +kernel⟩
  rcases started : (Catalog.start 5).run refusedDisk with ⟨e | ⟨n, c⟩, disk⟩
  · have starts : ((Catalog.start 5).run refusedDisk).1.isOk = true := by decide +kernel
    rw [started] at starts
    cases starts
  · refine ⟨n, c, disk, rfl, agrees_of_run ?_ started {} {} ?_⟩
    · intro name file content
      rw [refusedDisk, Layout.content?_put] at content
      split at content
      · cases content
        trivial
      · cases content
    · have short : (Utf8.encode "three").length < lengthBound := by decide +kernel
      simp [refusedEvents, Event.Proper, Operation.Proper, Told.Proper, Report.Fits, StoreFile.Proper, short]

end Refused

end Traffic

end Sync

end ClusterCatalog

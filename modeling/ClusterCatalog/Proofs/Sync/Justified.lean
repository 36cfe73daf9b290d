import ClusterCatalog.Proofs.Catalog.WriteThrough
import ClusterCatalog.Proofs.Container.Course
import ClusterCatalog.Proofs.Sync.Traffic
/-!
Reports, passes and clean-ups move a container along its lifecycle only by replicas that were told,
whatever else is going on and whichever writes are refused.
-/
namespace ClusterCatalog.Sync

def Told.Tells (id : ContainerId) (replica : Replica) : Told → Prop
  | .report (.containerReport node replicas) | .report (.incrementalContainerReport node replicas) =>
    ∃ r ∈ replicas, r.container = id ∧ r.toReplica node = replica
  | .reply (.replicas asked) (.ok replicas) => asked = id ∧ replica ∈ List.map ReplicaSummary.toReplica replicas
  | _ => False

def Heard (known : List Told) (id : ContainerId) (replica : Replica) : Prop :=
  ∃ told ∈ known, told.Tells id replica

theorem Heard.mono {known more : List Told} (le : known ⊆ more) {id : ContainerId} {replica : Replica}
    (h : Heard known id replica) : Heard more id replica := by
  obtain ⟨told, mem, tells⟩ := h
  exact ⟨told, le mem, tells⟩

def FedWith (known : List Told) (c d : Catalog) : Prop :=
  Directory.Fed (Heard known) c.directory.containers d.directory.containers

namespace FedWith

variable {ε α : Type} {known : List Told}

theorem chained : Chained FedWith where
  refl _ c := .refl c.directory.containers
  trans h g := Directory.Fed.trans h g
  mono le h := Directory.Fed.mono (fun _ _ heard => heard.mono le) h

theorem composes (known : List Told) : Action.Composes (FedWith known) :=
  ⟨chained.refl known, chained.trans⟩

theorem onDirectory {a : Action (Stored Directory) ε α}
    (h : ∀ s, Directory.Fed (Heard known) s.view.containers (a.run s).2.view.containers) :
    (Catalog.onDirectory a).Respects (FedWith known) := fun c => h ⟨c.directory, c.live.db⟩

theorem onNodes (a : Action (Stored NodeRegistry) ε α) : (Catalog.onNodes a).Respects (FedWith known) :=
  fun c => .refl c.directory.containers

theorem onPipelines (a : Action (Stored PipelineRegistry) ε α) :
    (Catalog.onPipelines a).Respects (FedWith known) := fun c => .refl c.directory.containers

theorem register (node : NodeId) : (Catalog.register node).Respects (FedWith known) :=
  ((onNodes _).relabel _).discard

theorem closePipelines (node : NodeId) : (Catalog.closePipelines node).Respects (FedWith known) :=
  ((onPipelines _).relabel _).discard

end FedWith

/-- The replicas of a pass are fed one by one while the container is held. -/
theorem state_applyReplicas (now : Millis) (id : ContainerId) (replicas : List ReplicaSummary)
    (r : DiffReport) (s : Stored Directory) :
    ((Directory.withContainer id (applyReplicas now replicas r)).run s).2 =
      (replicas.map ReplicaSummary.toReplica).foldl
        (fun s x => (Directory.Single.feed now id x).run s) s := by
  cases found : s.view.containers[id]? with
  | none =>
    rw [Directory.run_withContainer_of_none _ found]
    induction replicas.map ReplicaSummary.toReplica with
    | nil => rfl
    | cons x rest ih => rwa [List.foldl_cons, Directory.Single.run_feed_of_none found]
  | some c =>
    obtain ⟨r', applied⟩ := Action.run_foldlM (ε := ContainerError)
      (f := fun (r : DiffReport) (x : ReplicaSummary) =>
        r.addApplied <$> (Held.apply now x.toReplica).attempt)
      (g := fun h x => (Held.apply now x.toReplica).state h)
      (fun r x h => ⟨_, Action.run_map ..⟩) replicas r ⟨c, s.view.history, s.db⟩
    rw [Directory.run_withContainer_of_some _ found, applyReplicas, applied,
      Directory.Single.foldl_feed now id _ found, List.foldl_map]

theorem FedWith.takeReplicas {known : List Told} {id : ContainerId} {replicas : List ReplicaSummary}
    (h : Told.reply (.replicas id) (.ok replicas) ∈ known) (r : DiffReport) :
    (takeReplicas id replicas r).Respects (FedWith known) := by
  refine respects_takeReplicas (FedWith.composes known) FedWith.register fun now => FedWith.onDirectory fun s => ?_
  rw [state_applyReplicas]
  exact Directory.Fed.foldl (fun x mem s => .feed ⟨_, h, rfl, mem⟩ ..) s

theorem FedWith.addContainer (known : List Told) (given : ContainerWithPipeline) :
    (addContainer given).Respects (FedWith known) :=
  respects_addContainer (FedWith.composes known) (fun _ _ => FedWith.onPipelines _)
    fun _ => FedWith.onDirectory fun _ => .add ..

theorem FedWith.respected : Respected FedWith where
  toChained := chained
  replicas r h := takeReplicas h r
  container _ := addContainer _ _
  pipelines _ := onPipelines _

def Operation.Observing : Operation → Prop
  | create .. | add _ | allocate _ | transition .. | updateReplica _ | applyReplica _ => False
  | loadDirectory | loadNodes | loadPipelines => False
  | _ => True

theorem FedWith.receive (report : Report) : (Catalog.receive report).Respects (FedWith [.report report]) := by
  refine Catalog.respects_receive (composes _) ?_ register ?_ ?_ ?_ closePipelines ?_
  · exact fun c h _ => onNodes _ c
  · rintro c node replicas rfl -
    refine onDirectory (fun s => Directory.fed_fullReport (fun r mem => ?_) c.clock s) c
    exact ⟨_, List.mem_cons_self, r, mem, rfl, rfl⟩
  · rintro c node replicas rfl -
    refine onDirectory (fun s => Directory.fed_incrementalReport (fun r mem => ?_) c.clock s) c
    exact ⟨_, List.mem_cons_self, r, mem, rfl, rfl⟩
  · exact fun node entries _ => onPipelines _
  · exact fun node _ => onDirectory fun s => Directory.fed_removeReplicasOf node s

theorem FedWith.perform {op : Operation} (h : op.Observing) (c : Catalog) :
    FedWith op.told c (op.perform c) := by
  have still : FedWith op.told c c := .refl c.directory.containers
  cases op with
  | create | add | allocate | transition | updateReplica | applyReplica => exact h.elim
  | loadDirectory | loadNodes | loadPipelines => exact h.elim
  | receive report => exact FedWith.receive report c
  | removeReplica id node => exact Directory.Fed.drop id node ⟨c.directory, c.live.db⟩
  | removeReplicasOf node => exact Directory.fed_removeReplicasOf node ⟨c.directory, c.live.db⟩
  | fullReport node replicas =>
    refine Directory.fed_fullReport (fun r mem => ?_) c.clock ⟨c.directory, c.live.db⟩
    exact ⟨_, List.mem_cons_self, r, mem, rfl, rfl⟩
  | incrementalReport node replicas =>
    refine Directory.fed_incrementalReport (fun r mem => ?_) c.clock ⟨c.directory, c.live.db⟩
    exact ⟨_, List.mem_cons_self, r, mem, rfl, rfl⟩
  | tick | flushHistory | heartbeat | register | setOpState | markStale | markDead | checkHealth | setPipelines
  | addPipeline | setPipelineState | reportPipelines | closePipelines | refuse => exact still

/-- A replica that speaks for a move: to quasi-closed by its own state, to closed only at the sequence
number of the container. -/
def Justifies (replica : Replica) (info : ContainerInfo) (state : Lifecycle) : Prop :=
  (info.state = .closing ∧ state = .quasiClosed ∧ replica.state = .quasiClosed) ∨
  ((info.state = .closing ∨ info.state = .quasiClosed) ∧ state = .closed ∧ replica.state = .closed ∧
    replica.sequence = info.sequence)

theorem justifies_of_moved? {replica : Replica} {info : ContainerInfo} {state : Lifecycle}
    (h : Lifecycle.moved? info.state replica.state replica.sequence info.sequence = some state) :
    Justifies replica info state := by
  obtain ⟨before, quasi, after⟩ | ⟨before, closed, sequence, after⟩ := Lifecycle.moved?_eq_some_iff.1 h
  · exact .inl ⟨before, after, quasi⟩
  · exact .inr ⟨before, after, closed, sequence⟩

open Directory in
/-- Whatever reports, passes and clean-ups do, and whichever writes are refused: a course of single
operations leads from the containers before to those after. Each operation leaves the containers what
they are and moves one only by a replica that the run has told of; no container takes an edge twice. -/
theorem Traffic.course_of_run (s : State) {events : List Event}
    (within : ∀ e ∈ events, e.Within Operation.Observing False) :
    ∃ course, Course s.catalog.directory.containers course
        (run { state := s } events).state.catalog.directory.containers ∧
      (∀ st ∈ course, ∀ id c, st.before[id]? = some c → ∃ c', st.after[id]? = some c' ∧
        ContainerInfo.SameIdentity c'.info c.info ∧
        (c'.info.state = c.info.state ∨ ∃ now replica, st.single = .feed now id replica ∧
          Heard (run { state := s } events).told id replica ∧ Justifies replica c.info c'.info.state)) ∧
      (∀ id, (moves id course).Nodup ∧ ∃ state, moves id course ∈ ways state) ∧
      ∀ id c, s.catalog.directory.containers[id]? = some c →
        ∃ c', (run { state := s } events).state.catalog.directory.containers[id]? = some c' ∧
          ContainerInfo.SameIdentity c'.info c.info ∧ moves id course ∈ ways c.info.state ∧
          c'.info.state = ((moves id course).map Prod.snd).getLastD c.info.state := by
  have none : Orderly FedWith { state := s } := by simp [Orderly]
  obtain ⟨course, leads, fed⟩ :=
    (run_respects FedWith.respected (fun _ c allowed => .perform allowed c) False.elim within none).respects
  refine ⟨course, leads, fun st mem id c found => ?_, fun id => ?_, fun id c found => leads.kept found⟩
  · obtain ⟨c', found', same, still | ⟨now, replica, single, moved⟩⟩ := (leads.real st mem).kept found
    · exact ⟨c', found', same, .inl still⟩
    · exact ⟨c', found', same, .inr ⟨now, replica, single, fed st mem now id replica single,
        justifies_of_moved? moved⟩⟩
  · obtain ⟨state, way⟩ := leads.moves_mem_ways id
    exact ⟨nodup_of_mem_ways way, state, way⟩

section Observed

def observedInfo : ContainerInfo := ⟨⟨1⟩, .closing, 7, none, 0, 0, 0⟩

def observedState : State where
  catalog :=
    { clock := 5
      directory := { containers := (∅ : Directory.Containers).insert ⟨1⟩ ⟨observedInfo, ∅⟩ }
      live := ⟨"scm-1", .empty⟩
      disk := {} }

def observedEvents : List Event :=
  [.call .incrementalDiff,
    .answer 0 .containers (.ok [⟨⟨1⟩, .closed, 7, none, 0, 0⟩]),
    .operate (.receive (.containerReport ⟨⟨1⟩⟩ [⟨⟨1⟩, .quasiClosed, 3, 5, 50, none⟩])),
    .answer 0 (.replicas ⟨1⟩) (.ok [⟨⟨1⟩, ⟨⟨2⟩⟩, .closed, 7, 4, 40, none⟩])]

theorem course_of_run_observed :
    (∃ course, (Directory.moves ⟨1⟩ course).Nodup ∧
      Directory.Course observedState.catalog.directory.containers course
        (Traffic.run { state := observedState } observedEvents).state.catalog.directory.containers) ∧
    (((Traffic.run { state := observedState } observedEvents).state.catalog.directory.containers[
      (⟨1⟩ : ContainerId)]?).map (·.info.state)) = some .closed := by
  have within : ∀ e ∈ observedEvents, e.Within Operation.Observing False := by
    simp [observedEvents, Event.Within, Operation.Observing]
  obtain ⟨course, leads, -, moves, -⟩ := Traffic.course_of_run observedState within
  exact ⟨⟨course, (moves ⟨1⟩).1, leads⟩, by decide +kernel⟩

end Observed

end ClusterCatalog.Sync

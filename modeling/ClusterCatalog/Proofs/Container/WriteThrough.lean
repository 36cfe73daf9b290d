import ClusterCatalog.Container.Reports
import ClusterCatalog.Proofs.Container.Held
import ClusterCatalog.Proofs.Container.History
import ClusterCatalog.Proofs.Storage.Counter
/-!
The metadata of containers and their table stay in step; replicas are not stored. A container that is
added raises the counter, so this needs a counter whose writes are taken.
-/
namespace ClusterCatalog

namespace Held

def InStep (others : ContainerId → Option ContainerInfo) (id : ContainerId) (h : Held) : Prop :=
  TypedTable.containers.Mirrors ContainerInfo.id h.db
    (Function.update others id (some h.container.info))

def Keeps (others : ContainerId → Option ContainerInfo) (id : ContainerId) (h h' : Held) : Prop :=
  InStep others id h → InStep others id h' ∧ Database.Confined [.containers] h.db h'.db

variable {others : ContainerId → Option ContainerInfo} {id : ContainerId}

theorem composes (others : ContainerId → Option ContainerInfo) (id : ContainerId) :
    Action.Composes (Keeps others id) where
  refl h i := ⟨i, .refl _ h.db⟩
  trans h g i := ⟨(g (h i).1).1, (h i).2.trans (g (h i).1).2⟩

theorem InStep.own {h : Held} (inStep : InStep others id h) : h.container.info.id = id :=
  TypedTable.Mirrors.own inStep (Function.update_self ..)

theorem keeps_persist {info : ContainerInfo} {h : Held} (same : info.id = h.container.info.id) :
    Keeps others id h ((persist info).run h).2 := by
  intro inStep
  have here : info.id = id := same.trans inStep.own
  rw [run_persist]
  obtain ⟨db, run, confined, mirrors⟩ | ⟨e, db, run, confined⟩ :=
    TypedTable.Mirrors.put TypedTable.sound_containers inStep (a := info) trivial
  · rw [run]
    rw [here, Function.update_idem] at mirrors
    exact ⟨mirrors, confined⟩
  · rw [run]
    exact ⟨TypedTable.Mirrors.confined inStep confined (by simp), confined.mono (by simp)⟩

/-- Replicas and history are no part of the table. -/
theorem keeps_modify {f : Held → Held} (info : ∀ h, (f h).container.info = h.container.info)
    (db : ∀ h, (f h).db = h.db) : (modify f : Action Held ContainerError PUnit).Respects (Keeps others id) := by
  intro h inStep
  rw [Action.run_modify]
  refine ⟨?_, by rw [db]; exact .refl ..⟩
  unfold InStep
  rwa [info, db]

theorem respected_keeps (others : ContainerId → Option ContainerInfo) (id : ContainerId) :
    Respected (Keeps others id) where
  toComposes := composes others id
  persist := keeps_persist
  modify := keeps_modify

end Held

namespace Directory

structure InStep (s : Stored Directory) : Prop where
  containers : TypedTable.containers.Mirrors ContainerInfo.id s.db fun id =>
    (s.view.containers[id]?).map Container.info
  counter : Counter.Works s.db Counter.containerId

abbrev tables : List TableName := [.containers, .replicaHistory, .counters]

abbrev Keeps := Stored.Keeps InStep tables

theorem composes : Action.Composes Keeps := Stored.composes_keeps ..

/-- Work on one container that keeps it in step keeps the directory in step. -/
theorem keeps_withContainer {α : Type} {id : ContainerId} {work : Action Held ContainerError α}
    (h : ∀ others, work.Respects (Held.Keeps others id)) : (withContainer id work).Respects Keeps := by
  intro s inStep
  cases found : s.view.containers[id]? with
  | none =>
    have unknown : (withContainer id work).run s = (.error (.notFound id), s) := by
      simp [withContainer, Action.run, found]
    rw [unknown]
    exact ⟨inStep, .refl ..⟩
  | some c =>
    let held : Held := (work.run ⟨c, s.view.history, s.db⟩).2
    have known : ((withContainer id work).run s).2 =
        ⟨⟨s.view.containers.insert id held.container, held.history⟩, held.db⟩ := by
      simp only [withContainer, Action.run, found]
      rfl
    -- to put the container back where it is changes nothing, so the others are all containers
    have before : Held.InStep (fun id => (s.view.containers[id]?).map Container.info) id
        ⟨c, s.view.history, s.db⟩ := by
      have same : Function.update (fun id => (s.view.containers[id]?).map Container.info) id (some c.info) =
          fun id => (s.view.containers[id]?).map Container.info :=
        Function.update_eq_self_iff.2 (by simp [found])
      unfold Held.InStep
      rw [same]
      exact inStep.containers
    obtain ⟨after, confined⟩ := h _ _ before
    rw [known]
    refine ⟨⟨?_, inStep.counter.confined confined (by simp)⟩, confined.mono (by simp)⟩
    rw [← update_getElem?_insert Container.info]
    exact after

theorem keeps_add (info : ContainerInfo) : (add info).Respects Keeps := by
  intro s inStep
  rw [add, Action.run_bind_ok (Stored.run_getView s)]
  split
  · exact ⟨inStep, .refl ..⟩
  · dsimp only
    obtain ⟨db, confined, mirrors, run⟩ | ⟨e, db, confined, run⟩ :=
      inStep.containers.run_put TypedTable.sound_containers (a := info) trivial ContainerError.store
    · have works := inStep.counter.confined confined (by simp [TypedTable.containers])
      obtain ⟨db', run', works', confined'⟩ := works.observe info.id.value
      have counted : ((Counter.observe Counter.containerId info.id.value).relabel ContainerError.store).run db =
          (.ok (), db') :=
        Action.run_relabel_ok run' _
      rw [run, Stored.run_onStore_bind_ok counted]
      refine ⟨⟨?_, works'⟩, (confined.mono (by simp [TypedTable.containers])).trans (confined'.mono (by simp))⟩
      have shown := mirrors.confined confined' (by simp [TypedTable.containers])
      have added := update_getElem?_insert Container.info s.view.containers info.id ⟨info, ∅⟩
      rw [id, added] at shown
      exact shown
    · rw [run]
      exact ⟨⟨inStep.containers.confined confined (by simp), inStep.counter.confined confined (by simp)⟩,
        confined.mono (by simp)⟩

theorem keeps_create (now : Millis) (id : ContainerId) (state : Lifecycle) (pipeline? : Option PipelineId) :
    (create now id state pipeline?).Respects Keeps :=
  (keeps_add _).bind composes fun _ => Action.respects_pure composes _

theorem keeps_allocate (now : Millis) (pipeline? : Option PipelineId) :
    (allocate now pipeline?).Respects Keeps := by
  refine Action.Respects.bind composes (fun s inStep => ?_) fun id => keeps_create now ⟨id⟩ .opened pipeline?
  obtain ⟨result, db, run, works, confined⟩ := inStep.counter.next
  rw [Stored.run_onStore, Action.run_relabel, run]
  exact ⟨⟨inStep.containers.confined confined (by simp [TypedTable.containers]), works⟩, confined.mono (by simp)⟩

section Reports

variable {ε : Type} {R : Stored Directory → Stored Directory → Prop} {now : Millis} {node : NodeId}

theorem respects_applyReport {tally : Tally} {r : ReplicaReport}
    (applied : (applyReplica now (r.toReplica node)).Respects R) :
    (applyReport now node tally r : Action _ ε Tally).Respects R := applied.attempt.map _

theorem respects_incrementalReport (composes : Action.Composes R) {replicas : List ReplicaReport}
    (applied : ∀ r ∈ replicas, (applyReplica now (r.toReplica node)).Respects R)
    (removed : ∀ id, (removeReplica id node).Respects R) :
    (incrementalReport now node replicas : Action _ ε Tally).Respects R := by
  refine Action.respects_foldlM (f := applyChange now node) composes (fun tally r mem => ?_) _
  unfold applyChange
  split
  · exact (removed r.container).attempt.map _
  · exact respects_applyReport (applied r mem)

theorem respects_fullReport (composes : Action.Composes R) {replicas : List ReplicaReport}
    (applied : ∀ r ∈ replicas, (applyReplica now (r.toReplica node)).Respects R)
    (removed : ∀ id, (removeReplica id node).Respects R) :
    (fullReport now node replicas : Action _ ε Tally).Respects R := by
  have taken := Action.respects_foldlM composes (l := replicas) (fun tally r mem =>
    (respects_applyReport (applied r mem) : (applyReport now node tally r : Action _ ε Tally).Respects R)) {}
  refine taken.bind composes fun tally => ?_
  refine (Action.respects_still composes Stored.state_getView).bind composes fun d => ?_
  refine Action.respects_foldlM composes (fun tally id _ => ?_) tally
  refine (removed id).attempt.bind composes fun result => ?_
  split
  · exact Action.respects_pure composes _
  · exact Action.respects_pure composes _

theorem respects_removeReplicasOf (composes : Action.Composes R) (removed : ∀ id, (removeReplica id node).Respects R) :
    (removeReplicasOf node : Action _ ε Nat).Respects R := by
  refine (Action.respects_still composes Stored.state_getView).bind composes fun d => ?_
  refine Action.respects_foldlM composes (fun count id _ => ?_) 0
  refine (removed id).attempt.bind composes fun result => ?_
  split
  · exact Action.respects_pure composes _
  · exact Action.respects_pure composes _

theorem keeps_applyReplica (now : Millis) (replica : Replica) : (applyReplica now replica).Respects Keeps :=
  keeps_withContainer fun others => (Held.respected_keeps others _).apply now replica

theorem keeps_transition (now : Millis) (id : ContainerId) (event : Lifecycle.Event) :
    (transition now id event).Respects Keeps :=
  keeps_withContainer fun others => (Held.respected_keeps others _).transition now event

theorem keeps_updateReplica (now : Millis) (replica : Replica) : (updateReplica now replica).Respects Keeps :=
  keeps_withContainer fun others => (Held.respected_keeps others _).update now replica

theorem keeps_removeReplica (id : ContainerId) (node : NodeId) : (removeReplica id node).Respects Keeps :=
  keeps_withContainer fun others => (Held.respected_keeps others _).removeReplica node

theorem keeps_incrementalReport (now : Millis) (node : NodeId) (replicas : List ReplicaReport) :
    (incrementalReport now node replicas : Action _ ε Tally).Respects Keeps :=
  respects_incrementalReport composes (fun _ _ => keeps_applyReplica now _) fun id => keeps_removeReplica id node

theorem keeps_fullReport (now : Millis) (node : NodeId) (replicas : List ReplicaReport) :
    (fullReport now node replicas : Action _ ε Tally).Respects Keeps :=
  respects_fullReport composes (fun _ _ => keeps_applyReplica now _) fun id => keeps_removeReplica id node

theorem keeps_removeReplicasOf (node : NodeId) :
    (removeReplicasOf node : Action _ ε Nat).Respects Keeps :=
  respects_removeReplicasOf composes fun id => keeps_removeReplica id node

end Reports

theorem keeps_flushHistory : flushHistory.Respects Keeps := by
  intro s inStep
  have confined : Database.Confined [.replicaHistory] s.db _ := History.writesTo_flush ⟨s.view.history, s.db⟩
  refine ⟨⟨?_, inStep.counter.confined confined (by simp)⟩, confined.mono (by simp)⟩
  exact inStep.containers.confined confined (by simp [TypedTable.containers])

def taken (known? : Option Container) (info : ContainerInfo) : Container :=
  ⟨info, (known?.map Container.replicas).getD ∅⟩

theorem accept_eq : accept = fun containers info =>
    containers.insert info.id (taken containers[info.id]? info) := rfl

/-- The containers of a store are those that are known after its rows are taken over. -/
theorem getElem?_reload {db : Database} {infos : List ContainerInfo} {view : ContainerId → Option ContainerInfo}
    (mirrors : TypedTable.containers.Mirrors ContainerInfo.id db view)
    (read : TypedTable.containers.values db = .ok infos) (d : Directory) (history : List Sighting)
    (id : ContainerId) :
    (d.reload infos history).containers[id]? = (view id).map (taken d.containers[id]?) := by
  obtain ⟨infos', read', distinct, find⟩ := mirrors.values KeyCodec.exact_container
  rw [read] at read'
  cases read'
  rw [reload]
  dsimp only
  rw [accept_eq, getElem?_foldl_upsert ContainerInfo.id taken distinct _ id, find]
  cases row : view id with
  | some info =>
    have present : infos.any (·.id == id) = true := by
      have found := find id
      rw [row] at found
      exact List.any_eq_true.2 ⟨info, List.mem_of_find?_eq_some found, by simpa using List.find?_some found⟩
    have same : (d.containers.filter fun id _ => infos.any (·.id == id))[id]? = d.containers[id]? := by
      cases known : d.containers[id]? <;> simp [known, present]
    simp [same]
  | none =>
    -- without a row the container has been filtered out
    have absent : infos.any (·.id == id) = false := by
      have none := find id
      rw [row, List.find?_eq_none] at none
      rw [List.any_eq_false]
      intro info mem
      simpa using none info mem
    simp [absent]

theorem replicas_reload {db : Database} {infos : List ContainerInfo} {view : ContainerId → Option ContainerInfo}
    (mirrors : TypedTable.containers.Mirrors ContainerInfo.id db view)
    (read : TypedTable.containers.values db = .ok infos) {d : Directory} {history : List Sighting}
    {id : ContainerId} {c : Container} (found : (d.reload infos history).containers[id]? = some c) :
    c.replicas = ((d.containers[id]?).map Container.replicas).getD ∅ := by
  rw [getElem?_reload mirrors read] at found
  obtain ⟨info, -, rfl⟩ := Option.map_eq_some_iff.1 found
  rfl

/-- A container that was not read is gone. -/
theorem mem_of_mem_reload {d : Directory} {infos : List ContainerInfo} {history : List Sighting} {id : ContainerId}
    (known : id ∈ (d.reload infos history).containers) : ∃ info ∈ infos, info.id = id := by
  let kept := d.containers.filter fun id _ => infos.any (·.id == id)
  refine List.foldlRecOn (motive := fun containers : Std.ExtTreeMap ContainerId Container =>
    ∀ id ∈ containers, ∃ info ∈ infos, info.id = id) infos accept (b := kept) ?_ ?_ id known
  · intro id mem
    obtain ⟨here, listed⟩ := Std.ExtTreeMap.mem_filter.1 mem
    simpa using listed
  · intro containers listed info mem id known
    rw [accept, Std.ExtTreeMap.mem_insert] at known
    obtain same | known := known
    · exact ⟨info, mem, Std.LawfulEqCmp.eq_of_compare same⟩
    · exact listed id known

/-- Taking over the rows of a store brings both in step. -/
theorem mirrors_reload {db : Database} {infos : List ContainerInfo} {view : ContainerId → Option ContainerInfo}
    (mirrors : TypedTable.containers.Mirrors ContainerInfo.id db view)
    (read : TypedTable.containers.values db = .ok infos) (d : Directory) (history : List Sighting) :
    TypedTable.containers.Mirrors ContainerInfo.id db fun id =>
      ((d.reload infos history).containers[id]?).map Container.info := by
  have views : (fun id : ContainerId => ((d.reload infos history).containers[id]?).map Container.info) = view := by
    funext id
    rw [getElem?_reload mirrors read]
    cases view id <;> rfl
  rwa [views]

end Directory

end ClusterCatalog

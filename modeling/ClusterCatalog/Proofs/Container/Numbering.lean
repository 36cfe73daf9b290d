import ClusterCatalog.Proofs.Container.Single
import ClusterCatalog.Proofs.Container.WriteThrough
/-!
The identifiers of containers. The counter never falls, and no container is added that it is behind, so a
counter that is ahead of all containers stays ahead, and the next number is free.
-/
namespace ClusterCatalog

open Counter (containerId)
open Database (Confined)

/-- What is done to one container is written to the table of containers and to no other. -/
theorem Held.respected_confined : Held.Respected fun h h' => Confined [.containers] h.db h'.db where
  refl h := .refl _ h.db
  trans h g := h.trans g
  persist := fun {info h} _ => by
    have confined : Confined [.containers] h.db ((TypedTable.containers.put info.id info).run h.db).2 :=
      Database.confined_write ..
    rw [run_persist]
    rcases ran : (TypedTable.containers.put info.id info).run h.db with ⟨_ | _, db⟩ <;>
    · rw [ran] at confined
      exact confined
  modify _ db h := by
    rw [Action.run_modify]
    dsimp only
    rw [db]
    exact .refl ..

namespace Directory

variable {s s' : Stored Directory}

structure Grows (s s' : Stored Directory) : Prop where
  confined : Confined tables s.db s'.db
  rises : Counter.Rises containerId s.db s'.db
  counted {id : ContainerId} (after : id ∈ s'.view.containers) :
    id ∈ s.view.containers ∨ ∃ last, Counter.current s'.db containerId = .ok last ∧ id.value ≤ last

theorem Grows.trans {s'' : Stored Directory} (h : Grows s s') (g : Grows s' s'') : Grows s s'' where
  confined := h.confined.trans g.confined
  rises := h.rises.trans g.rises
  counted after := by
    obtain before | counted := g.counted after
    · refine (h.counted before).imp_right fun ⟨last, read, le⟩ => ?_
      obtain ⟨last', read', le'⟩ := g.rises last read
      exact ⟨last', read', UInt64.le_trans le le'⟩
    · exact .inr counted

/-- Nothing is new, and the counter is left alone. -/
theorem grows_of_confined {names : List TableName} (confined : Confined names s.db s'.db) (within : names ⊆ tables)
    (other : TableName.counters ∉ names) (known : ∀ id ∈ s'.view.containers, id ∈ s.view.containers) : Grows s s' where
  confined := confined.mono within
  rises := Counter.rises_of_confined confined other
  counted after := .inl (known _ after)

theorem composes_grows : Action.Composes Grows where
  refl s := grows_of_confined (.refl [] s.db) (by simp) (by simp) fun _ => id
  trans := Grows.trans

theorem grows_withContainer {α : Type} {id : ContainerId} {work : Action Held ContainerError α}
    (h : work.Respects fun h h' => Confined [.containers] h.db h'.db) : (withContainer id work).Respects Grows := by
  intro s
  cases found : s.view.containers[id]? with
  | none =>
    rw [run_withContainer_of_none work found]
    exact composes_grows.refl s
  | some c =>
    rw [run_withContainer_of_some work found]
    refine grows_of_confined (h ⟨c, s.view.history, s.db⟩) (by simp) (by simp) fun other after => ?_
    -- the container is put back where it was
    obtain here | before := Std.ExtTreeMap.mem_insert.1 after
    · rw [← Std.compare_eq_iff_eq.1 here, Std.ExtTreeMap.mem_iff_isSome_getElem?, found]
      rfl
    · exact before

/-- A container is known only after it was counted. -/
theorem grows_count (info : ContainerInfo) :
    (Stored.onStore ((Counter.observe containerId info.id.value).relabel ContainerError.store) >>= fun _ =>
      Stored.modifyView fun d : Directory =>
        { d with containers := d.containers.insert info.id ⟨info, ∅⟩ }).Respects Grows := by
  intro s
  have confined := Counter.confined_observe containerId info.id.value s.db
  have rises := Counter.rises_observe containerId info.id.value s.db
  rw [Action.run_bind, Stored.run_onStore, Action.run_relabel]
  rcases ran : (Counter.observe containerId info.id.value).run s.db with ⟨e | _, db⟩ <;> rw [ran] at confined rises
  · exact ⟨confined.mono (by simp), rises, .inl⟩
  · obtain ⟨last, read, le⟩ := Counter.le_current_of_observe ran
    refine ⟨confined.mono (by simp), rises, fun after => ?_⟩
    obtain here | before := Std.ExtTreeMap.mem_insert.1 after
    · rw [← Std.compare_eq_iff_eq.1 here]
      exact .inr ⟨last, read, le⟩
    · exact .inl before

theorem grows_add (info : ContainerInfo) : (add info).Respects Grows := by
  intro s
  rw [add, Action.run_bind_ok (Stored.run_getView s)]
  split
  · exact composes_grows.refl s
  · refine Action.Respects.bind composes_grows (fun s => ?_) (fun _ => grows_count info) s
    have stored := Stored.writesTo_put TypedTable.containers info.id info ContainerError.store s
    exact grows_of_confined stored (by simp [TypedTable.containers]) (by simp [TypedTable.containers]) fun _ => id

theorem grows_create (now : Millis) (id : ContainerId) (state : Lifecycle) (pipeline? : Option PipelineId) :
    (create now id state pipeline?).Respects Grows :=
  (grows_add _).bind composes_grows fun _ => Action.respects_pure composes_grows _

theorem grows_allocate (now : Millis) (pipeline? : Option PipelineId) : (allocate now pipeline?).Respects Grows := by
  refine Action.Respects.bind composes_grows (fun s => ?_) fun id => grows_create now ⟨id⟩ .opened pipeline?
  exact ⟨(Counter.confined_next containerId s.db).mono (by simp), Counter.rises_next containerId s.db, .inl⟩

section Reports

variable {ε : Type}

theorem grows_transition (now : Millis) (id : ContainerId) (event : Lifecycle.Event) :
    (transition now id event).Respects Grows :=
  grows_withContainer (Held.respected_confined.transition now event)

theorem grows_updateReplica (now : Millis) (replica : Replica) : (updateReplica now replica).Respects Grows :=
  grows_withContainer (Held.respected_confined.update now replica)

theorem grows_applyReplica (now : Millis) (replica : Replica) : (applyReplica now replica).Respects Grows :=
  grows_withContainer (Held.respected_confined.apply now replica)

theorem grows_removeReplica (id : ContainerId) (node : NodeId) : (removeReplica id node).Respects Grows :=
  grows_withContainer (Held.respected_confined.removeReplica node)

theorem grows_incrementalReport (now : Millis) (node : NodeId) (replicas : List ReplicaReport) :
    (incrementalReport now node replicas : Action _ ε Tally).Respects Grows :=
  respects_incrementalReport composes_grows (fun _ _ => grows_applyReplica now _) fun id => grows_removeReplica id node

theorem grows_fullReport (now : Millis) (node : NodeId) (replicas : List ReplicaReport) :
    (fullReport now node replicas : Action _ ε Tally).Respects Grows :=
  respects_fullReport composes_grows (fun _ _ => grows_applyReplica now _) fun id => grows_removeReplica id node

theorem grows_removeReplicasOf (node : NodeId) : (removeReplicasOf node : Action _ ε Nat).Respects Grows :=
  respects_removeReplicasOf composes_grows fun id => grows_removeReplica id node

end Reports

theorem grows_flushHistory : flushHistory.Respects Grows := fun s =>
  grows_of_confined (History.writesTo_flush ⟨s.view.history, s.db⟩) (by simp) (by simp) fun _ => id

structure Numbered (s : Stored Directory) : Prop where
  inStep : InStep s
  taken : true ∉ s.db.refusals .containers
  counted : ∃ last, Counter.current s.db containerId = .ok last ∧ ∀ id ∈ s.view.containers, id.value ≤ last

theorem Numbered.accepts (numbered : Numbered s) : s.db.Accepts .containers := by
  obtain ⟨rows, table, -⟩ := numbered.inStep.containers.represents
  exact ⟨⟨rows, table⟩, numbered.taken⟩

theorem Numbered.grow (numbered : Numbered s) (inStep : InStep s')
    (taken : true ∉ s'.db.refusals .containers) (grows : Grows s s') : Numbered s' := by
  refine ⟨inStep, taken, ?_⟩
  obtain ⟨last, read, bound⟩ := numbered.counted
  obtain ⟨last', read', le⟩ := grows.rises last read
  refine ⟨last', read', fun id after => ?_⟩
  obtain before | ⟨now, known, counted⟩ := grows.counted after
  · exact UInt64.le_trans (bound id before) le
  · rw [read'] at known
    cases known
    exact counted

theorem Numbered.respects {ε α : Type} {a : Action (Stored Directory) ε α} (keeps : a.Respects Keeps)
    (grows : a.Respects Grows) (numbered : Numbered s) : Numbered (a.run s).2 := by
  have grown := grows s
  refine numbered.grow (keeps s numbered.inStep).1 (fun refused => numbered.taken ?_) grown
  exact (grown.confined.refusals .containers).mem refused

/-- Over a store that takes containers, one that is not known is added. -/
theorem run_add (info : ContainerInfo) (accepts : s.db.Accepts .containers) (works : Counter.Works s.db containerId)
    (unknown : info.id ∉ s.view.containers) : ∃ db, (add info).run s =
      (.ok (), ⟨{ s.view with containers := s.view.containers.insert info.id ⟨info, ∅⟩ }, db⟩) := by
  cases adding s info with
  | added unknown moves run => exact ⟨_, run⟩
  | refused cause run tables => exact absurd accepts.takes (cause.resolve_left unknown)
  | halfway half table run tables => exact absurd half.stuck (works.not_stuck info.id.value)

/-- Where the counter is ahead of all containers, the next number is free, and the container that is opened
under it is the only change. -/
theorem run_allocate (numbered : Numbered s) {last : UInt64} (read : Counter.current s.db containerId = .ok last)
    (more : last.toNat + 1 < UInt64.size) (now : Millis) (pipeline? : Option PipelineId) :
    (⟨last + 1⟩ : ContainerId) ∉ s.view.containers ∧
    ∃ db, (allocate now pipeline?).run s = (.ok (.fresh now ⟨last + 1⟩ .opened pipeline?),
      ⟨{ s.view with containers := s.view.containers.insert ⟨last + 1⟩ ⟨.fresh now ⟨last + 1⟩ .opened pipeline?, ∅⟩ },
        db⟩) := by
  obtain ⟨last', read', bound⟩ := numbered.counted
  rw [read] at read'
  cases read'
  have free : (⟨last + 1⟩ : ContainerId) ∉ s.view.containers := fun known =>
    UInt64.not_le.2 (Counter.lt_succ more) (bound _ known)
  refine ⟨free, ?_⟩
  obtain ⟨db, ran, works, confined, -⟩ := numbered.inStep.counter.run_next read more
  have counted : ((Counter.next containerId).relabel ContainerError.store).run s.db = (.ok (last + 1), db) :=
    Action.run_relabel_ok ran _
  obtain ⟨db', added⟩ := run_add (s := { s with db }) (.fresh now ⟨last + 1⟩ .opened pipeline?)
    (numbered.accepts.confined confined (by simp)) works free
  refine ⟨db', ?_⟩
  rw [allocate, Stored.run_onStore_bind_ok counted, create, Action.run_bind_ok added]
  rfl

/-- At the greatest number nothing is opened, and nothing changes. -/
theorem run_allocate_of_greatest {last : UInt64} (read : Counter.current s.db containerId = .ok last)
    (greatest : ¬ last.toNat + 1 < UInt64.size) (now : Millis) (pipeline? : Option PipelineId) :
    (allocate now pipeline?).run s = (.error (.store .exhausted), s) := by
  have none : ((Counter.next containerId).relabel ContainerError.store).run s.db = (.error (.store .exhausted), s.db) :=
    Action.run_relabel_error (Counter.run_next_of_greatest read greatest) _
  rw [allocate, Stored.run_onStore_bind_error none]

/-- A number that is handed out is greater than the last one, and the counter does not stay behind it. -/
theorem allocate_eq_ok {now : Millis} {pipeline? : Option PipelineId} {info : ContainerInfo}
    (run : (allocate now pipeline?).run s = (.ok info, s')) :
    ∃ last last', Counter.current s.db containerId = .ok last ∧ last < info.id.value ∧
      Counter.current s'.db containerId = .ok last' ∧ info.id.value ≤ last' := by
  obtain ⟨id, t, counted, created⟩ := Action.run_bind_eq_ok run
  obtain ⟨_, u, added, done⟩ := Action.run_bind_eq_ok created
  cases done
  rw [Stored.run_onStore, Action.run_relabel] at counted
  rcases ran : (Counter.next containerId).run s.db with ⟨e | value, db⟩ <;> rw [ran] at counted <;> cases counted
  obtain ⟨last, read, lt, now⟩ := Counter.next_eq_ok ran
  obtain ⟨last', read', le⟩ := (grows_add (.fresh _ ⟨id⟩ .opened pipeline?) ⟨s.view, db⟩).rises id now
  rw [added] at read'
  exact ⟨last, last', read, lt, read', le⟩

end Directory

end ClusterCatalog

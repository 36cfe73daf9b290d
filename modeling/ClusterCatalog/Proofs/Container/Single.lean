import ClusterCatalog.Container.Reports
import ClusterCatalog.Proofs.Container.Creation
import ClusterCatalog.Proofs.Container.Held
/-!
Single operations: what others see of a directory is its state between two of these. Reports and
the removal of a node's replicas are sequences of them.
-/
namespace ClusterCatalog.Directory

variable {ε : Type}

inductive Single where
  | feed (now : Millis) (id : ContainerId) (replica : Replica)
  | drop (id : ContainerId) (node : NodeId)
  | add (info : ContainerInfo)
  deriving DecidableEq

namespace Single

def run : Single → Stored Directory → Stored Directory
  | .feed now id replica, s => (withContainer id (Held.apply now replica)).state s
  | .drop id node, s => (removeReplica id node).state s
  | .add info, s => (Directory.add info).state s

end Single

theorem run_withContainer_of_none {α : Type} {id : ContainerId} {s : Stored Directory}
    (work : Action Held ContainerError α) (h : s.view.containers[id]? = none) :
    (withContainer id work).run s = (.error (.notFound id), s) := by
  simp [withContainer, Action.run, h]

theorem run_withContainer_of_some {α : Type} {id : ContainerId} {s : Stored Directory} {c : Container}
    (work : Action Held ContainerError α) (h : s.view.containers[id]? = some c) :
    (withContainer id work).run s = ((work.run ⟨c, s.view.history, s.db⟩).1,
      ⟨⟨s.view.containers.insert id (work.run ⟨c, s.view.history, s.db⟩).2.container,
        (work.run ⟨c, s.view.history, s.db⟩).2.history⟩, (work.run ⟨c, s.view.history, s.db⟩).2.db⟩) := by
  simp only [withContainer, Action.run, h]

/-- Over a store that takes its writes every replica is taken. -/
theorem run_withContainer_apply (now : Millis) {id : ContainerId} (replica : Replica) {s : Stored Directory}
    {c : Container} (h : s.view.containers[id]? = some c) (accepts : s.db.Accepts .containers) :
    ∃ db, (withContainer id (Held.apply now replica)).run s = (.ok (Held.outcome replica c.info),
        ⟨⟨s.view.containers.insert id (c.take now replica), Held.recorded now replica ⟨c, s.view.history, s.db⟩⟩, db⟩) ∧
      db.Accepts .containers := by
  have run := run_withContainer_of_some (Held.apply now replica) h
  have applied := Held.applied now replica ⟨c, s.view.history, s.db⟩
  generalize (Held.apply now replica).run ⟨c, s.view.history, s.db⟩ = result at run applied
  cases applied with
  | taken db kept => exact ⟨db, run, kept accepts⟩
  | refused refuses => exact absurd accepts refuses
  | halfway refuses => exact absurd accepts refuses

namespace Single

theorem run_feed_of_none {now : Millis} {id : ContainerId} {replica : Replica} {s : Stored Directory}
    (h : s.view.containers[id]? = none) : (feed now id replica).run s = s := by
  rw [run, Action.state]
  exact congrArg Prod.snd (run_withContainer_of_none _ h)

theorem run_feed_of_some (now : Millis) {id : ContainerId} (replica : Replica) {s : Stored Directory}
    {c : Container} (h : s.view.containers[id]? = some c) :
    ∃ result held, Held.Applied now replica ⟨c, s.view.history, s.db⟩ (result, held) ∧
      (feed now id replica).run s = ⟨⟨s.view.containers.insert id held.container, held.history⟩, held.db⟩ :=
  ⟨_, _, Held.applied now replica ⟨c, s.view.history, s.db⟩,
    congrArg Prod.snd (run_withContainer_of_some (Held.apply now replica) h)⟩

theorem run_drop_of_none {id : ContainerId} {node : NodeId} {s : Stored Directory}
    (h : s.view.containers[id]? = none) : (drop id node).run s = s := by
  rw [run, Action.state]
  exact congrArg Prod.snd (run_withContainer_of_none _ h)

theorem run_drop_of_some {id : ContainerId} {node : NodeId} {s : Stored Directory} {c : Container}
    (h : s.view.containers[id]? = some c) :
    (drop id node).run s =
      ⟨⟨s.view.containers.insert id { c with replicas := c.replicas.erase node }, s.view.history⟩, s.db⟩ :=
  congrArg Prod.snd (run_withContainer_of_some (Held.removeReplica node) h)

theorem run_feed_of_accepts (now : Millis) {id : ContainerId} (replica : Replica) {s : Stored Directory}
    {c : Container} (h : s.view.containers[id]? = some c) (accepts : s.db.Accepts .containers) :
    ∃ history db, (feed now id replica).run s =
        ⟨⟨s.view.containers.insert id (c.take now replica), history⟩, db⟩ ∧
      db.Accepts .containers := by
  obtain ⟨db, run, kept⟩ := run_withContainer_apply now replica h accepts
  exact ⟨_, db, congrArg Prod.snd run, kept⟩

theorem accepts_feed {s : Stored Directory} (accepts : s.db.Accepts .containers) (now : Millis)
    (id : ContainerId) (replica : Replica) : ((feed now id replica).run s).db.Accepts .containers := by
  cases found : s.view.containers[id]? with
  | none => rwa [run_feed_of_none found]
  | some c =>
    obtain ⟨history, db, run, kept⟩ := run_feed_of_accepts now replica found accepts
    rwa [run]

@[simp] theorem db_drop (id : ContainerId) (node : NodeId) (s : Stored Directory) :
    ((drop id node).run s).db = s.db := by
  cases found : s.view.containers[id]? with
  | none => rw [run_drop_of_none found]
  | some c => rw [run_drop_of_some found]

/-- Only the container that is fed or dropped from changes. -/
theorem getElem?_feed_of_ne {now : Millis} {id other : ContainerId} {replica : Replica}
    (h : id ≠ other) (s : Stored Directory) :
    ((feed now id replica).run s).view.containers[other]? = s.view.containers[other]? := by
  cases found : s.view.containers[id]? with
  | none => rw [run_feed_of_none found]
  | some c =>
    obtain ⟨result, held, -, run⟩ := run_feed_of_some now replica found
    simp [run, Std.ExtTreeMap.getElem?_insert, h]

theorem getElem?_drop_of_ne {id other : ContainerId} {node : NodeId} (h : id ≠ other)
    (s : Stored Directory) :
    ((drop id node).run s).view.containers[other]? = s.view.containers[other]? := by
  cases found : s.view.containers[id]? with
  | none => rw [run_drop_of_none found]
  | some c => simp [run_drop_of_some found, Std.ExtTreeMap.getElem?_insert, h]

/-- Feeding one container again and again is one piece of work on it. -/
theorem foldl_feed (now : Millis) (id : ContainerId) (replicas : List Replica) {s : Stored Directory}
    {c : Container} (found : s.view.containers[id]? = some c) :
    replicas.foldl (fun s r => (feed now id r).run s) s =
      let held := replicas.foldl (fun h r => (Held.apply now r).state h) ⟨c, s.view.history, s.db⟩
      ⟨⟨s.view.containers.insert id held.container, held.history⟩, held.db⟩ := by
  induction replicas generalizing s c with
  | nil => simp [insert_of_getElem? found]
  | cons r rest ih =>
    let held := (Held.apply now r).state ⟨c, s.view.history, s.db⟩
    have first : (feed now id r).run s =
        ⟨⟨s.view.containers.insert id held.container, held.history⟩, held.db⟩ :=
      congrArg Prod.snd (run_withContainer_of_some (Held.apply now r) found)
    have twice (a b : Container) :
        (s.view.containers.insert id a).insert id b = s.view.containers.insert id b := by
      refine Std.ExtTreeMap.ext_getElem? fun other => ?_
      by_cases h : id = other
      · simp [← h]
      · simp [Std.ExtTreeMap.getElem?_insert, h]
    rw [List.foldl_cons, List.foldl_cons, first, ih (c := held.container) (by simp)]
    simp only [twice]
    rfl

/-- A container is added unless it is known or a write is refused. -/
theorem run_add_cases (info : ContainerInfo) (s : Stored Directory) :
    ((add info).run s).view = s.view ∨ s.view.containers[info.id]? = none ∧
      ((add info).run s).view = { s.view with containers := s.view.containers.insert info.id ⟨info, ∅⟩ } := by
  change ((Directory.add info).run s).2.view = _ ∨ _ ∧ ((Directory.add info).run s).2.view = _
  cases adding s info with
  | added unknown moves ran =>
    rw [ran]
    exact .inr ⟨Std.ExtTreeMap.getElem?_eq_none unknown, rfl⟩
  | refused cause ran tables => exact .inl (by rw [ran])
  | halfway half table ran tables => exact .inl (by rw [ran])

end Single

/-! Reports as sequences of single operations. -/

def change (now : Millis) (node : NodeId) (report : ReplicaReport) : Single :=
  if report.state = .deleted then .drop report.container node
  else .feed now report.container (report.toReplica node)

def missing (d : Directory) (node : NodeId) (replicas : List ReplicaReport) : List ContainerId :=
  (d.onNode node).filter fun id => replicas.all (·.container != id)

theorem mem_onNode {d : Directory} {node : NodeId} {id : ContainerId} {c : Container}
    (found : d.containers[id]? = some c) : id ∈ d.onNode node ↔ c.replicas[node]?.isSome := by
  rw [onNode, Std.ExtTreeMap.mem_keys, Std.ExtTreeMap.mem_iff_isSome_getElem?,
    Std.ExtTreeMap.getElem?_filter', found]
  simp [Option.filter]

theorem mem_missing {d : Directory} {node : NodeId} {replicas : List ReplicaReport} {id : ContainerId}
    {c : Container} (found : d.containers[id]? = some c) :
    id ∈ d.missing node replicas ↔
      c.replicas[node]?.isSome ∧ replicas.all (·.container != id) = true := by
  rw [missing, List.mem_filter, mem_onNode found]

theorem run_applyReport (now : Millis) (node : NodeId) (tally : Tally) (report : ReplicaReport)
    (s : Stored Directory) : (applyReport now node tally report : Action _ ε _).run s =
      (.ok (tally.addApplied ((applyReplica now (report.toReplica node)).run s).1),
        (Single.feed now report.container (report.toReplica node)).run s) := by
  rw [applyReport, Action.run_map, Action.run_attempt]
  rfl

theorem run_dropReplica (node : NodeId) (tally : Tally) (id : ContainerId) (s : Stored Directory) :
    (dropReplica node tally id : Action _ ε _).run s =
      (.ok (tally.addRemoved ((removeReplica id node).run s).1), (Single.drop id node).run s) := by
  rw [dropReplica, Action.run_map, Action.run_attempt]
  rfl

theorem run_applyChange (now : Millis) (node : NodeId) (tally : Tally) (report : ReplicaReport)
    (s : Stored Directory) : ∃ t, (applyChange now node tally report : Action _ ε _).run s =
      (.ok t, (change now node report).run s) := by
  unfold applyChange change
  split
  · exact ⟨_, run_dropReplica ..⟩
  · exact ⟨_, run_applyReport ..⟩

theorem run_dropMissing (node : NodeId) (tally : Tally) (id : ContainerId) (s : Stored Directory) :
    ∃ t, (dropMissing node tally id : Action _ ε _).run s = (.ok t, (Single.drop id node).run s) := by
  rw [dropMissing, Action.run_bind_ok (Action.run_attempt _ s)]
  split
  · exact ⟨_, rfl⟩
  · exact ⟨_, rfl⟩

theorem run_incrementalReport (now : Millis) (node : NodeId) (replicas : List ReplicaReport)
    (s : Stored Directory) : ∃ t, (incrementalReport now node replicas : Action _ ε _).run s =
      (.ok t, replicas.foldl (fun s r => (change now node r).run s) s) :=
  Action.run_foldlM (fun tally r s => run_applyChange now node tally r s) replicas {} s

theorem run_fullReport (now : Millis) (node : NodeId) (replicas : List ReplicaReport)
    (s : Stored Directory) : ∃ t, (fullReport now node replicas : Action _ ε _).run s =
      let fed := replicas.foldl (fun s r => (Single.feed now r.container (r.toReplica node)).run s) s
      (.ok t, (fed.view.missing node replicas).foldl (fun s id => (Single.drop id node).run s) fed) := by
  obtain ⟨tally, applied⟩ := Action.run_foldlM (ε := ε)
    (fun tally r s => ⟨_, run_applyReport now node tally r s⟩) replicas {} s
  rw [fullReport, Action.run_bind_ok applied, Action.run_bind_ok (Stored.run_getView _)]
  exact Action.run_foldlM (fun tally id s => run_dropMissing node tally id s) _ tally _

theorem run_removeReplicasOf (node : NodeId) (s : Stored Directory) :
    ∃ n, (removeReplicasOf node : Action _ ε _).run s =
      (.ok n, (s.view.onNode node).foldl (fun s id => (Single.drop id node).run s) s) := by
  rw [removeReplicasOf, Action.run_bind_ok (Stored.run_getView s)]
  refine Action.run_foldlM (fun removed id s => ?_) _ 0 s
  rw [Action.run_bind_ok (Action.run_attempt _ s)]
  split
  · exact ⟨_, rfl⟩
  · exact ⟨_, rfl⟩

end ClusterCatalog.Directory

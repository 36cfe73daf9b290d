import ClusterCatalog.Proofs.Container.Rows
/-!
What becomes of one row. A replica that is accepted takes its place but for the origin, and nothing else that
is done to a directory touches it, unless it is dropped.
-/
namespace ClusterCatalog

namespace Held

def isTaken : Except ContainerError ReplicaOutcome → Bool
  | .ok outcome => outcome.decision != .ignored
  | .error _ => false

theorem isTaken_outcome_iff (x : Replica) (info : ContainerInfo) :
    isTaken (.ok (outcome x info)) = true ↔ info.state ≠ .deleted := by
  dsimp only [isTaken, outcome]
  rw [bne_iff_ne]
  refine not_congr ⟨Lifecycle.deleted_of_ignored, fun deleted => ?_⟩
  rw [deleted, Lifecycle.decide_deleted]

theorem replicas_apply (now : Millis) (x : Replica) (h : Held) (node : NodeId) :
    ((apply now x).run h).2.container.replicas[node]? =
      if isTaken ((apply now x).run h).1 = true ∧ x.node = node
      then some (inheriting h.container.replicas[node]? x) else h.container.replicas[node]? := by
  have applied := applied now x h
  generalize (apply now x).run h = result at applied
  cases applied with
  | taken db accepts => simp only [h.container.getElem?_replicas_take, isTaken_outcome_iff]
  | refused refuses e db => simp [isTaken]
  | halfway refuses e db => simp [isTaken]

theorem replicas_update (now : Millis) (x : Replica) (h : Held) (node : NodeId) :
    ((update now x).run h).2.container.replicas[node]? =
      if ((update now x).run h).1.isOk = true ∧ x.node = node
      then some (inheriting h.container.replicas[node]? x) else h.container.replicas[node]? := by
  obtain ⟨db, run, -⟩ | ⟨-, -, e, db, run, -⟩ := update_cases now x h
  · rw [run]
    dsimp only
    rw [node_keepOrigin, Std.ExtTreeMap.getElem?_insert]
    by_cases mine : x.node = node
    · subst mine
      simp [keepOrigin_eq, Except.isOk, Except.toBool]
    · simp [mine]
  · rw [run]
    simp [Except.isOk, Except.toBool]

theorem replicas_transition (now : Millis) (event : Lifecycle.Event) (h : Held) :
    ((transition now event).run h).2.container.replicas = h.container.replicas := by
  cases edge : h.container.info.state.next? event with
  | none =>
    rw [transition, Action.run_bind_ok (run_getInfo h), edge]
    rfl
  | some state =>
    obtain ⟨-, rows, -, run⟩ | ⟨-, e, db, run, -⟩ := transition_cases now edge
    · rw [run]
    · rw [run]

end Held

namespace Directory

variable {id other : ContainerId} {node : NodeId} {x : Replica}

def renewed (row? : Option Replica) : Option Replica → Option Replica
  | some x => some (Held.inheriting row? x)
  | none => row?

section Work

variable {α : Type} {work : Action Held ContainerError α}

/-- Work on a container leaves the rows of all others. -/
theorem row?_withContainer {s : Stored Directory} {c : Container} (found : s.view.containers[other]? = some c)
    (id : ContainerId) (node : NodeId) : row? ((withContainer other work).run s).2.view.containers id node =
      if other = id then (work.run ⟨c, s.view.history, s.db⟩).2.container.replicas[node]?
      else row? s.view.containers id node := by
  rw [run_withContainer_of_some work found, row?, row?, Std.ExtTreeMap.getElem?_insert]
  by_cases here : other = id
  · simp [here]
  · simp [here]

/-- Work that brings a replica takes it into its row, or fails to and leaves all rows as they are. -/
theorem row?_of_brought {taken : Except ContainerError α → Bool} (refuses : ∀ e, taken (.error e) = false)
    (held : ∀ h node, (work.run h).2.container.replicas[node]? =
      if taken (work.run h).1 = true ∧ x.node = node then some (Held.inheriting h.container.replicas[node]? x)
      else h.container.replicas[node]?) (other id : ContainerId) (node : NodeId) (s : Stored Directory) :
    row? ((withContainer other work).run s).2.view.containers id node = renewed (row? s.view.containers id node)
      (if other = id ∧ x.node = node ∧ taken ((withContainer other work).run s).1 = true then some x else none) := by
  cases found : s.view.containers[other]? with
  | none =>
    rw [run_withContainer_of_none work found]
    simp [refuses, renewed]
  | some c =>
    have told : ((withContainer other work).run s).1 = (work.run ⟨c, s.view.history, s.db⟩).1 :=
      congrArg Prod.fst (run_withContainer_of_some work found)
    rw [row?_withContainer found, held, told]
    by_cases here : other = id
    · subst here
      rw [row?, found]
      by_cases mine : x.node = node <;> by_cases ok : taken (work.run ⟨c, s.view.history, s.db⟩).1 = true <;>
        simp [mine, ok, renewed]
    · simp [here, renewed]

end Work

def SameRows (s t : Stored Directory) : Prop :=
  ∀ id node, row? t.view.containers id node = row? s.view.containers id node

theorem composes_sameRows : Action.Composes SameRows :=
  ⟨fun _ _ _ => rfl, fun first second id node => (second id node).trans (first id node)⟩

/-- A container that is added has no rows, and it was not there before. -/
theorem sameRows_add (info : ContainerInfo) : (add info).Respects SameRows := by
  intro s id node
  obtain same | ⟨unknown, added⟩ := Single.run_add_cases info s
  · exact congrArg (fun d : Directory => row? d.containers id node) same
  · refine (congrArg (fun d : Directory => row? d.containers id node) added).trans ?_
    rw [row?, row?, Std.ExtTreeMap.getElem?_insert]
    by_cases here : info.id = id
    · rw [← here, unknown]
      simp
    · simp [here]

def Single.accepted? (id : ContainerId) (node : NodeId) (s : Stored Directory) : Single → Option Replica
  | .feed now other x =>
    if other = id ∧ x.node = node ∧ Held.isTaken ((withContainer other (Held.apply now x)).run s).1 = true
    then some x else none
  | .drop .. | .add _ => none

/-- A single operation touches a row by a drop or by a replica that is accepted. -/
theorem row?_single {operation : Single} (kept : operation ≠ .drop id node) (s : Stored Directory) :
    row? (operation.run s).view.containers id node =
      renewed (row? s.view.containers id node) (operation.accepted? id node s) := by
  cases operation with
  | feed now other x => exact row?_of_brought (fun _ => rfl) (Held.replicas_apply now x) other id node s
  | drop other other' =>
    have apart : ¬ (id = other ∧ node = other') := by
      rintro ⟨rfl, rfl⟩
      exact kept rfl
    exact (row?_drop other other' s id node).trans (if_neg apart)
  | add info => exact sameRows_add info s id node

theorem row?_updateReplica (now : Millis) (x : Replica) (s : Stored Directory) (id : ContainerId) (node : NodeId) :
    row? ((updateReplica now x).run s).2.view.containers id node = renewed (row? s.view.containers id node)
      (if x.container = id ∧ x.node = node ∧ ((updateReplica now x).run s).1.isOk = true then some x else none) :=
  row?_of_brought (fun _ => rfl) (Held.replicas_update now x) x.container id node s

theorem sameRows_create (now : Millis) (id : ContainerId) (state : Lifecycle) (pipeline? : Option PipelineId) :
    (create now id state pipeline?).Respects SameRows :=
  (sameRows_add _).bind composes_sameRows fun _ => Action.respects_pure composes_sameRows _

theorem sameRows_allocate (now : Millis) (pipeline? : Option PipelineId) :
    (allocate now pipeline?).Respects SameRows :=
  Action.Respects.bind composes_sameRows (fun _ _ _ => rfl) fun _ => sameRows_create _ _ _ _

theorem sameRows_transition (now : Millis) (id : ContainerId) (event : Lifecycle.Event) :
    (transition now id event).Respects SameRows := by
  intro s other node
  rw [transition]
  cases found : s.view.containers[id]? with
  | none => rw [run_withContainer_of_none _ found]
  | some c =>
    rw [row?_withContainer found, Held.replicas_transition]
    split
    · next here => rw [row?, ← here, found]; rfl
    · rfl

theorem sameRows_flushHistory : flushHistory.Respects SameRows := fun _ _ _ => rfl

end Directory

end ClusterCatalog

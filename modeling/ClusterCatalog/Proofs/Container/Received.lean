import ClusterCatalog.Proofs.Container.Working
import ClusterCatalog.Report
/-!
Reports over a store that works: a report acts on each container by itself, and what it makes of one
does not depend on the time, but for when a state was entered.
-/
namespace ClusterCatalog

namespace Container

def drop (node : NodeId) (c : Container) : Container := { c with replicas := c.replicas.erase node }

def change (now : Millis) (node : NodeId) (c : Container) (r : ReplicaReport) : Container :=
  if r.state = .deleted then c.drop node else c.take now (r.toReplica node)

def receive (now : Millis) (id : ContainerId) (c : Container) : Report → Container
  | .containerReport node replicas =>
    match replicas.filter (·.container = id) with
    | [] => c.drop node
    | own => c.takeAll now (own.map (·.toReplica node))
  | .incrementalContainerReport node replicas =>
    (replicas.filter (·.container = id)).foldl (change now node) c
  | .nodeStateChange node .dead => c.drop node
  | _ => c

theorem receive_of_unlisted {id : ContainerId} {replicas : List ReplicaReport} (now : Millis) (node : NodeId)
    (c : Container) (h : replicas.filter (·.container = id) = []) :
    c.receive now id (.containerReport node replicas) = c.drop node := by
  rw [receive, h]

theorem receive_of_listed {id : ContainerId} {replicas : List ReplicaReport} (now : Millis) (node : NodeId)
    (c : Container) (h : replicas.filter (·.container = id) ≠ []) :
    c.receive now id (.containerReport node replicas) =
      (replicas.filter (·.container = id)).foldl (fun c r => c.take now (r.toReplica node)) c := by
  rw [receive]
  split
  · next none => exact absurd none h
  · rw [takeAll, List.foldl_map]

def undated (c : Container) : Container := { c with info := { c.info with stateEntered := 0 } }

variable {c k : Container} (now now' : Millis)

theorem undated_eq_iff : c.undated = k.undated ↔
    ContainerInfo.SameIdentity c.info k.info ∧ c.info.state = k.info.state ∧
      c.info.usedBytes = k.info.usedBytes ∧ c.info.keyCount = k.info.keyCount ∧ c.replicas = k.replicas := by
  constructor
  · intro h
    simp only [undated, Container.mk.injEq, ContainerInfo.mk.injEq] at h
    obtain ⟨⟨id, state, sequence, pipeline, usedBytes, keyCount, -⟩, replicas⟩ := h
    exact ⟨⟨id, sequence, pipeline⟩, state, usedBytes, keyCount, replicas⟩
  · rintro ⟨identity, state, usedBytes, keyCount, replicas⟩
    simp only [undated, identity.id, identity.sequence, identity.pipeline, state, usedBytes, keyCount, replicas]

theorem undated_drop (node : NodeId) (h : c.undated = k.undated) : (c.drop node).undated = (k.drop node).undated := by
  obtain ⟨identity, state, usedBytes, keyCount, replicas⟩ := undated_eq_iff.1 h
  exact undated_eq_iff.2 ⟨identity, state, usedBytes, keyCount, congrArg (·.erase node) replicas⟩

/-- What a replica makes of the metadata depends on the metadata alone, without the time. -/
theorem info_take_congr (r : Replica) (identity : ContainerInfo.SameIdentity c.info k.info)
    (state : c.info.state = k.info.state) (usedBytes : c.info.usedBytes = k.info.usedBytes)
    (keyCount : c.info.keyCount = k.info.keyCount) :
    ContainerInfo.SameIdentity (c.take now r).info (k.take now' r).info ∧
      (c.take now r).info.state = (k.take now' r).info.state ∧
      (c.take now r).info.usedBytes = (k.take now' r).info.usedBytes ∧
      (c.take now r).info.keyCount = (k.take now' r).info.keyCount := by
  have state' : (c.take now r).info.state = (k.take now' r).info.state := by
    rw [state_take, state_take, state, identity.sequence]
  have left := c.sameIdentity_take now r
  have right := k.sameIdentity_take now' r
  refine ⟨⟨?_, ?_, ?_⟩, state', ?_, ?_⟩
  · rw [left.id, right.id, identity.id]
  · rw [left.sequence, right.sequence, identity.sequence]
  · rw [left.pipeline, right.pipeline, identity.pipeline]
  · rw [usedBytes_take, usedBytes_take, state', usedBytes]
  · rw [keyCount_take, keyCount_take, state', keyCount]

theorem undated_take (r : Replica) (h : c.undated = k.undated) :
    (c.take now r).undated = (k.take now' r).undated := by
  obtain ⟨identity, state, usedBytes, keyCount, replicas⟩ := undated_eq_iff.1 h
  obtain ⟨identity', state', usedBytes', keyCount'⟩ := info_take_congr now now' r identity state usedBytes keyCount
  refine undated_eq_iff.2 ⟨identity', state', usedBytes', keyCount', Std.ExtTreeMap.ext_getElem? fun node => ?_⟩
  rw [getElem?_replicas_take, getElem?_replicas_take, state, replicas]

/-- A replica of a node does nothing to the rows of others, whichever row the node has. -/
theorem undated_drop_take {node : NodeId} {r : Replica} (own : r.node = node)
    (h : (c.drop node).undated = (k.drop node).undated) :
    ((c.take now r).drop node).undated = ((k.take now' r).drop node).undated := by
  obtain ⟨identity, state, usedBytes, keyCount, replicas⟩ := undated_eq_iff.1 h
  obtain ⟨identity', state', usedBytes', keyCount'⟩ := info_take_congr (c := c) (k := k) now now' r identity state usedBytes keyCount
  refine undated_eq_iff.2 ⟨identity', state', usedBytes', keyCount', Std.ExtTreeMap.ext_getElem? fun other => ?_⟩
  have row := congrArg (·[other]?) replicas
  simp only [drop, Std.ExtTreeMap.getElem?_erase] at row ⊢
  split
  · rfl
  · next apart =>
    have elsewhere : ¬ (r.node = other) := fun same => apart (by rw [← own, same]; exact Std.ReflCmp.compare_self)
    rw [if_neg apart, if_neg apart] at row
    rw [getElem?_replicas_take, getElem?_replicas_take, if_neg fun h => elsewhere h.2, if_neg fun h => elsewhere h.2, row]

theorem undated_foldl {α : Type} {f g : Container → α → Container}
    (step : ∀ c k a, c.undated = k.undated → (f c a).undated = (g k a).undated) (l : List α)
    (h : c.undated = k.undated) : (l.foldl f c).undated = (l.foldl g k).undated := by
  induction l generalizing c k with
  | nil => exact h
  | cons a rest ih => exact ih (step c k a h)

/-- A node that has no replica loses none. -/
theorem drop_of_absent {node : NodeId} (h : node ∉ c.replicas) : c.drop node = c := by
  have same : c.replicas.erase node = c.replicas := Std.ExtTreeMap.ext_getElem? fun other => by
    rw [Std.ExtTreeMap.getElem?_erase]
    split
    · next eq =>
      rw [← Std.LawfulEqCmp.eq_of_compare eq]
      exact (Std.ExtTreeMap.getElem?_eq_none h).symm
    · rfl
  rw [drop, same]

/-- It is enough to drop the replicas that are there. -/
theorem drop_where_held {node : NodeId} {p : Prop} [Decidable p] (h : c.replicas[node]?.isSome → p) :
    (if p then c.drop node else c) = c.drop node := by
  split
  · rfl
  · next other => exact (drop_of_absent fun held => other (h (Std.ExtTreeMap.mem_iff_isSome_getElem?.1 held))).symm

theorem drop_drop (node : NodeId) (c : Container) : (c.drop node).drop node = c.drop node :=
  drop_of_absent (by simp [drop])

end Container

namespace Directory

variable {ε : Type} {f g : ContainerId → Container → Container} {P : Database → Prop}
  {step step' : Stored Directory → Stored Directory}

def TouchesWhile (P : Database → Prop) (step : Stored Directory → Stored Directory)
    (f : ContainerId → Container → Container) : Prop :=
  ∀ s, P s.db → P (step s).db ∧
    ∀ id : ContainerId, (step s).view.containers[id]? = s.view.containers[id]?.map (f id)

def Touches (step : Stored Directory → Stored Directory) (f : ContainerId → Container → Container) : Prop :=
  ∀ s, s.db.Works → (step s).db.Works ∧
    ∀ id : ContainerId, (step s).view.containers[id]? = s.view.containers[id]?.map (f id)

theorem TouchesWhile.comp (h : TouchesWhile P step f) (h' : TouchesWhile P step' g) :
    TouchesWhile P (fun s => step' (step s)) fun id c => g id (f id c) := by
  intro s before
  obtain ⟨between, touched⟩ := h s before
  obtain ⟨after, touched'⟩ := h' (step s) between
  exact ⟨after, fun id => by rw [touched', touched, Option.map_map]; rfl⟩

theorem touchesWhile_foldl {α : Type} {step : α → Stored Directory → Stored Directory}
    {f : α → ContainerId → Container → Container} (h : ∀ x, TouchesWhile P (step x) (f x)) (l : List α) :
    TouchesWhile P (fun s => l.foldl (fun s x => step x s) s) fun id c => l.foldl (fun c x => f x id c) c := by
  induction l with
  | nil => exact fun s before => ⟨before, fun id => by simp⟩
  | cons x rest ih => exact (h x).comp ih

section Singles

variable (now : Millis) (node : NodeId) (id : ContainerId)

theorem Single.getElem?_feed (replica : Replica) {s : Stored Directory} (accepts : s.db.Accepts .containers)
    (other : ContainerId) : ((feed now id replica).run s).view.containers[other]? =
      s.view.containers[other]?.map fun c => if other = id then c.take now replica else c := by
  by_cases same : other = id
  · subst same
    cases found : s.view.containers[other]? with
    | none => rw [run_feed_of_none found, found]; rfl
    | some c =>
      obtain ⟨history, db, run, -⟩ := run_feed_of_accepts now replica found accepts
      simp [run]
  · simp [getElem?_feed_of_ne (Ne.symm same), same]

theorem Single.getElem?_drop (s : Stored Directory) (other : ContainerId) :
    ((drop id node).run s).view.containers[other]? =
      s.view.containers[other]?.map fun c => if other = id then c.drop node else c := by
  by_cases same : other = id
  · subst same
    cases found : s.view.containers[other]? with
    | none => rw [run_drop_of_none found, found]; rfl
    | some c => simp [run_drop_of_some found, Container.drop]
  · simp [getElem?_drop_of_ne (Ne.symm same), same]

theorem touchesWhile_feed (replica : Replica) : TouchesWhile (·.Accepts .containers)
    (Single.feed now id replica).run fun other c => if other = id then c.take now replica else c :=
  fun _ accepts => ⟨Single.accepts_feed accepts now id replica, Single.getElem?_feed now id replica accepts⟩

theorem touchesWhile_drop :
    TouchesWhile P (Single.drop id node).run fun other c => if other = id then c.drop node else c :=
  fun s before => ⟨by rwa [Single.db_drop], Single.getElem?_drop node id s⟩

theorem touches_feed (replica : Replica) :
    Touches (Single.feed now id replica).run fun other c => if other = id then c.take now replica else c := by
  refine fun s works => ⟨?_, Single.getElem?_feed now id replica works.containers⟩
  cases found : s.view.containers[id]? with
  | none => rwa [Single.run_feed_of_none found]
  | some c =>
    obtain ⟨db, run, works'⟩ := Held.run_apply_of_works now replica (h := ⟨c, s.view.history, s.db⟩) works
    have fed := congrArg (fun x => x.2.db) (run_withContainer_of_some (Held.apply now replica) found)
    rw [run] at fed
    exact fed ▸ works'

end Singles

/-- What happens to one container in a sequence of steps on several. -/
theorem foldl_own {α : Type} (key : α → ContainerId) (act : Container → α → Container) (l : List α)
    (id : ContainerId) (c : Container) :
    l.foldl (fun c x => if id = key x then act c x else c) c = (l.filter (key · = id)).foldl act c := by
  rw [List.foldl_filter]
  congr
  funext c x
  simp [eq_comm]

theorem foldl_drop (node : NodeId) (ids : List ContainerId) (id : ContainerId) (c : Container) :
    ids.foldl (fun c x => if id = x then c.drop node else c) c = if id ∈ ids then c.drop node else c := by
  induction ids generalizing c with
  | nil => rfl
  | cons x rest ih =>
    rw [List.foldl_cons, ih]
    by_cases same : id = x
    · subst same
      simp [Container.drop_drop]
    · simp [same]

section Fed

variable {now : Millis} (node : NodeId)
  (feeds : ∀ (id : ContainerId) (x : Replica), TouchesWhile P (Single.feed now id x).run
    fun other c => if other = id then c.take now x else c)
include feeds

theorem touchesWhile_change (r : ReplicaReport) : TouchesWhile P (change now node r).run
    fun other c => if other = r.container then c.change now node r else c := by
  unfold change Container.change
  split
  · exact touchesWhile_drop node r.container
  · exact feeds r.container (r.toReplica node)

theorem touchesWhile_incremental (replicas : List ReplicaReport) :
    TouchesWhile P (fun s => replicas.foldl (fun s r => (change now node r).run s) s)
      fun id c => c.receive now id (.incrementalContainerReport node replicas) := by
  intro s before
  obtain ⟨after, touched⟩ := touchesWhile_foldl (touchesWhile_change node feeds) replicas s before
  refine ⟨after, fun id => (touched id).trans ?_⟩
  congr
  funext c
  exact foldl_own ReplicaReport.container (Container.change now node) replicas id c

theorem touchesWhile_fed (replicas : List ReplicaReport) :
    TouchesWhile P (fun s => replicas.foldl (fun s r => (Single.feed now r.container (r.toReplica node)).run s) s)
      fun id c => (replicas.filter (·.container = id)).foldl (fun c r => c.take now (r.toReplica node)) c := by
  intro s before
  obtain ⟨after, touched⟩ := touchesWhile_foldl
    (fun r : ReplicaReport => feeds r.container (r.toReplica node)) replicas s before
  refine ⟨after, fun id => (touched id).trans ?_⟩
  congr
  funext c
  exact foldl_own ReplicaReport.container (fun c r => c.take now (r.toReplica node)) replicas id c

/-- The containers that a full report leaves out lose their replica, and the others take theirs. -/
theorem touchesWhile_full (replicas : List ReplicaReport) :
    TouchesWhile P (fun s =>
        let fed := replicas.foldl (fun s r => (Single.feed now r.container (r.toReplica node)).run s) s
        (fed.view.missing node replicas).foldl (fun s id => (Single.drop id node).run s) fed)
      fun id c => c.receive now id (.containerReport node replicas) := by
  intro s before
  obtain ⟨between, fed⟩ := touchesWhile_fed node feeds replicas s before
  obtain ⟨after, dropped⟩ := touchesWhile_foldl (touchesWhile_drop node) _ _ between
  refine ⟨after, fun id => (dropped id).trans ?_⟩
  cases found : s.view.containers[id]? with
  | none => rw [fed, found]; rfl
  | some c =>
    let own := replicas.filter (·.container = id)
    let k := own.foldl (fun c r => c.take now (r.toReplica node)) c
    have taken : (replicas.foldl (fun s r => (Single.feed now r.container (r.toReplica node)).run s) s).view.containers[
        id]? = some k := (fed id).trans (by rw [found]; rfl)
    rw [taken]
    refine congrArg some ((foldl_drop node _ id k).trans ?_)
    by_cases none : own = []
    · have unlisted : replicas.all (·.container != id) = true := by
        simpa [own, List.filter_eq_nil_iff] using none
      have same : k = c := by simp [k, none]
      rw [same] at taken ⊢
      exact (Container.drop_where_held fun held => (mem_missing taken).2 ⟨held, unlisted⟩).trans
        (Container.receive_of_unlisted now node c none).symm
    · have listed : ¬ replicas.all (·.container != id) = true := by
        simpa [own, List.filter_eq_nil_iff] using none
      rw [if_neg fun missing => listed ((mem_missing taken).1 missing).2]
      exact (Container.receive_of_listed now node c none).symm

end Fed

section Reports

variable (now : Millis) (node : NodeId) {s : Stored Directory} (works : s.db.Works)
include works

theorem received_incrementalReport (replicas : List ReplicaReport) :
    ∃ t s', (incrementalReport now node replicas : Action _ ε _).run s = (.ok t, s') ∧ s'.db.Works ∧
      ∀ id : ContainerId, s'.view.containers[id]? =
        s.view.containers[id]?.map fun c => c.receive now id (.incrementalContainerReport node replicas) := by
  obtain ⟨t, run⟩ := run_incrementalReport (ε := ε) now node replicas s
  exact ⟨t, _, run, touchesWhile_incremental node (touches_feed now) replicas s works⟩

theorem received_removeReplicasOf : ∃ n s', (removeReplicasOf node : Action _ ε _).run s = (.ok n, s') ∧
    s'.db.Works ∧ ∀ id : ContainerId, s'.view.containers[id]? = s.view.containers[id]?.map (·.drop node) := by
  obtain ⟨n, run⟩ := run_removeReplicasOf (ε := ε) node s
  obtain ⟨works', touched⟩ := touchesWhile_foldl (P := Database.Works) (touchesWhile_drop node) (s.view.onNode node) s works
  refine ⟨n, _, run, works', fun id => (touched id).trans ?_⟩
  cases found : s.view.containers[id]? with
  | none => rfl
  | some c =>
    refine congrArg some ((foldl_drop node _ id c).trans ?_)
    exact Container.drop_where_held (mem_onNode found).2

theorem received_fullReport (replicas : List ReplicaReport) :
    ∃ t s', (fullReport now node replicas : Action _ ε _).run s = (.ok t, s') ∧ s'.db.Works ∧
      ∀ id : ContainerId, s'.view.containers[id]? =
        s.view.containers[id]?.map fun c => c.receive now id (.containerReport node replicas) := by
  obtain ⟨t, run⟩ := run_fullReport (ε := ε) now node replicas s
  exact ⟨t, _, run, touchesWhile_full node (touches_feed now) replicas s works⟩

end Reports

end Directory

end ClusterCatalog

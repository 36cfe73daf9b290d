import ClusterCatalog.Proofs.Container.Provenance
import ClusterCatalog.Proofs.Container.Received
/-!
The rows of a node, and how single operations and the two halves of a full report change them: the
entries are fed one after another, and then the node's other rows are swept away.
-/
namespace ClusterCatalog.Directory

variable {ε : Type} {d : Directory} {s : Stored Directory} {id other : ContainerId} {node node' : NodeId}
  {replicas : List ReplicaReport}

theorem mem_onNode_iff : id ∈ d.onNode node ↔ (row? d.containers id node).isSome := by
  cases found : d.containers[id]? with
  | some c => simp [mem_onNode found, row?, found]
  | none =>
    rw [onNode, Std.ExtTreeMap.mem_keys, Std.ExtTreeMap.mem_iff_isSome_getElem?, Std.ExtTreeMap.getElem?_filter',
      row?, found]
    rfl

theorem mem_missing_iff : id ∈ d.missing node replicas ↔
    (row? d.containers id node).isSome ∧ ∀ r ∈ replicas, r.container ≠ id := by
  simp [missing, mem_onNode_iff]

theorem row?_feed_of_ne {now : Millis} {x : Replica} (h : id ≠ other) (s : Stored Directory) (node : NodeId) :
    row? ((Single.feed now id x).run s).view.containers other node = row? s.view.containers other node := by
  rw [row?, Single.getElem?_feed_of_ne h, row?]

/-- A replica touches the row of its own node only, whatever the store does. -/
theorem row?_feed_of_node_ne {now : Millis} {x : Replica} (h : x.node ≠ node') (id : ContainerId)
    (s : Stored Directory) (other : ContainerId) :
    row? ((Single.feed now id x).run s).view.containers other node' = row? s.view.containers other node' := by
  by_cases same : id = other
  · subst same
    cases found : s.view.containers[id]? with
    | none => rw [Single.run_feed_of_none found]
    | some c =>
      obtain ⟨result, held, applied, run⟩ := Single.run_feed_of_some now x found
      have kept : held.container.replicas[node']? = c.replicas[node']? := by
        cases applied with
        | taken db => rw [c.getElem?_replicas_take, if_neg fun both => h both.2]
        | refused refuses e db => rfl
        | halfway refuses e db => rfl
      rw [run, row?, row?, found, Std.ExtTreeMap.getElem?_insert_self]
      exact kept
  · exact row?_feed_of_ne same s node'

theorem row?_drop (id : ContainerId) (node : NodeId) (s : Stored Directory) (other : ContainerId) (node' : NodeId) :
    row? ((Single.drop id node).run s).view.containers other node' =
      if other = id ∧ node' = node then none else row? s.view.containers other node' := by
  rw [row?, Single.getElem?_drop, row?]
  cases s.view.containers[other]? with
  | none => simp
  | some c =>
    by_cases same : other = id
    · by_cases mine : node' = node <;> simp [same, mine, Container.drop, Std.ExtTreeMap.getElem?_erase, Ne.symm]
    · simp [same]

theorem row?_foldl_drop (ids : List ContainerId) (node : NodeId) (s : Stored Directory) (other : ContainerId)
    (node' : NodeId) :
    row? (ids.foldl (fun s id => (Single.drop id node).run s) s).view.containers other node' =
      if other ∈ ids ∧ node' = node then none else row? s.view.containers other node' := by
  induction ids generalizing s with
  | nil => simp
  | cons id rest ih =>
    rw [List.foldl_cons, ih, row?_drop]
    by_cases mine : node' = node <;> by_cases here : other = id <;> simp [mine, here]

theorem run_drop_of_absent (absent : row? s.view.containers id node = none) : (Single.drop id node).run s = s := by
  cases found : s.view.containers[id]? with
  | none => rw [Single.run_drop_of_none found]
  | some c =>
    have lacking : node ∉ c.replicas := by
      rw [row?, found] at absent
      rw [Std.ExtTreeMap.mem_iff_isSome_getElem?, show c.replicas[node]? = none from absent]
      exact Bool.false_ne_true
    have same : { c with replicas := c.replicas.erase node } = c := Container.drop_of_absent lacking
    rw [Single.run_drop_of_some found, same, insert_of_getElem? found]

theorem fst_removeReplica (id : ContainerId) (node : NodeId) (s : Stored Directory) :
    ((removeReplica id node).run s).1 = match s.view.containers[id]? with
      | some c => .ok c.replicas[node]?
      | none => .error (.notFound id) := by
  cases found : s.view.containers[id]? with
  | none => rw [removeReplica, run_withContainer_of_none _ found]
  | some c => rw [removeReplica, run_withContainer_of_some _ found]; rfl

def fed (now : Millis) (node : NodeId) (replicas : List ReplicaReport) (s : Stored Directory) : Stored Directory :=
  replicas.foldl (fun s r => (Single.feed now r.container (r.toReplica node)).run s) s

theorem row?_fed_of_unlisted {now : Millis} (unlisted : ∀ r ∈ replicas, r.container ≠ id) (s : Stored Directory)
    (node' : NodeId) : row? (fed now node replicas s).view.containers id node' = row? s.view.containers id node' :=
  List.foldlRecOn (motive := fun k : Stored Directory => row? k.view.containers id node' = row? s.view.containers id node')
    replicas _ rfl fun k same r mem => (row?_feed_of_ne (unlisted r mem) k node').trans same

theorem row?_fed_of_node_ne {now : Millis} (different : node ≠ node') (s : Stored Directory) (id : ContainerId) :
    row? (fed now node replicas s).view.containers id node' = row? s.view.containers id node' :=
  List.foldlRecOn (motive := fun k : Stored Directory => row? k.view.containers id node' = row? s.view.containers id node')
    replicas _ rfl fun k same r _ => (row?_feed_of_node_ne (x := r.toReplica node) different r.container k id).trans same

def swept (node : NodeId) (replicas : List ReplicaReport) (s : Stored Directory) : Stored Directory :=
  (s.view.missing node replicas).foldl (fun s id => (Single.drop id node).run s) s

/-- Once the entries were applied, the sweep goes over what is missing by then. -/
theorem run_fullReport_of_applied {now : Millis} {s' : Stored Directory} {t : Tally}
    (applied : (replicas.foldlM (applyReport now node) {} : Action _ ε _).run s = (.ok t, s')) :
    (fullReport now node replicas : Action _ ε _).run s =
      ((s'.view.missing node replicas).foldlM (dropMissing node) t : Action _ ε _).run s' := by
  rw [fullReport, Action.run_bind_ok applied, Action.run_bind_ok (Stored.run_getView s')]
  rfl

theorem row?_swept (node : NodeId) (replicas : List ReplicaReport) (s : Stored Directory) (other : ContainerId)
    (node' : NodeId) : row? (swept node replicas s).view.containers other node' =
      if (∀ r ∈ replicas, r.container ≠ other) ∧ node' = node then none else row? s.view.containers other node' := by
  rw [swept, row?_foldl_drop]
  simp only [mem_missing_iff]
  by_cases mine : node' = node
  · cases row : row? s.view.containers other node <;> simp [mine, row]
  · simp [mine]

theorem missing_swept (node : NodeId) (replicas : List ReplicaReport) (s : Stored Directory) :
    (swept node replicas s).view.missing node replicas = [] := by
  refine List.eq_nil_iff_forall_not_mem.2 fun id mem => ?_
  obtain ⟨held, unlisted⟩ := mem_missing_iff.1 mem
  rw [row?_swept, if_pos ⟨unlisted, rfl⟩] at held
  cases held

end ClusterCatalog.Directory

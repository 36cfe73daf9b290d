import ClusterCatalog.Proofs.Service.Chores
import ClusterCatalog.Service.Basic
/-!
What the pieces of a report do to one container, as marks on it: those that are still to be made and those that
a piece makes are together what the report makes of the container. Only control works on pipelines.
-/
namespace ClusterCatalog

def Report.executor : Report → Executor
  | .containerReport _ _ => .reports
  | .incrementalContainerReport _ _ => .reports
  | _ => .control

inductive Mark where
  | fed (report : ReplicaReport)
  | dropped
  deriving DecidableEq

def Mark.act (now : Millis) (node : NodeId) (k : Container) : Mark → Container
  | .fed report => k.take now (report.toReplica node)
  | .dropped => k.drop node

theorem Mark.undated_act (now now' : Millis) (node : NodeId) (m : Mark) {k k' : Container}
    (h : k.undated = k'.undated) :
    (m.act now node k).undated = (m.act now' node k').undated := by
  cases m with
  | fed report => exact Container.undated_take now now' _ h
  | dropped => exact Container.undated_drop node h

namespace Chore

def marks (id : ContainerId) : Chore → List Mark
  | .feed report => if report.container = id then [.fed report] else []
  | .drop other => if other = id then [.dropped] else []
  | .sweep spared => if id ∈ spared then [] else [.dropped]
  | .look spared listed found => if id ∈ spared then [] else List.replicate ((listed ++ found).count id) .dropped
  | _ => []

def steer (node : NodeId) (pipelines : PipelineRegistry) : Chore → PipelineRegistry
  | .pipelines entries => Stored.after (PipelineRegistry.report node entries) pipelines
  | .close => Stored.after (PipelineRegistry.closeOn node) pipelines
  | _ => pipelines

theorem foldl_still {node : NodeId} {chores : List Chore}
    (still : ∀ x ∈ chores, ∀ pipelines, steer node pipelines x = pipelines) (pipelines : PipelineRegistry) :
    chores.foldl (steer node) pipelines = pipelines := by
  induction chores with
  | nil => rfl
  | cons x rest ih =>
    rw [List.foldl_cons, still x List.mem_cons_self]
    exact ih fun x mem => still x (List.mem_cons_of_mem _ mem)

theorem flatMap_marks {α : Type} {chore : α → Chore} (key : α → ContainerId) {mark : α → Mark} {id : ContainerId}
    (own : ∀ a, (chore a).marks id = if key a = id then [mark a] else []) (l : List α) :
    (l.map chore).flatMap (marks id) = (l.filter (key · = id)).map mark := by
  induction l with
  | nil => rfl
  | cons a rest ih =>
    rw [List.map_cons, List.flatMap_cons, ih, own, List.filter_cons]
    by_cases same : key a = id <;> simp [same]

theorem flatMap_marks_drop (ids : List ContainerId) (id : ContainerId) :
    (ids.map drop).flatMap (marks id) = List.replicate (ids.count id) .dropped := by
  rw [flatMap_marks (fun other => other) fun _ => rfl, List.filter_eq, List.map_replicate]

end Chore

def ReplicaReport.mark (r : ReplicaReport) : Mark := if r.state = .deleted then .dropped else .fed r

theorem ReplicaReport.marks_chore (r : ReplicaReport) (id : ContainerId) :
    r.chore.marks id = if r.container = id then [r.mark] else [] := by
  unfold chore mark
  split <;> rfl

theorem ReplicaReport.act_mark (now : Millis) (node : NodeId) (k : Container) (r : ReplicaReport) :
    r.mark.act now node k = k.change now node r := by
  unfold mark Container.change
  split <;> rfl

namespace Report

def marks (id : ContainerId) (r : Report) : List Mark := r.chores.flatMap (Chore.marks id)

/-- The marks of a report on a container are what the report makes of it. -/
theorem foldl_marks (r : Report) (now : Millis) (id : ContainerId) (k : Container) :
    (r.marks id).foldl (Mark.act now r.origin) k = k.receive now id r := by
  cases r with
  | nodeHeartbeat heartbeat => rfl
  | containerReport node replicas =>
    have marked : (containerReport node replicas).marks id = (replicas.filter (·.container = id)).map .fed ++
        if id ∈ replicas.map (·.container) then [] else [.dropped] := by
      rw [marks, chores, List.flatMap_cons, List.flatMap_append, Chore.flatMap_marks (·.container) fun _ => rfl]
      simp [Chore.marks]
    rw [marked]
    by_cases none : replicas.filter (·.container = id) = []
    · have unlisted : id ∉ replicas.map (·.container) := by simpa [List.filter_eq_nil_iff] using none
      rw [none, if_neg unlisted, Container.receive_of_unlisted now node k none]
      rfl
    · have listed : id ∈ replicas.map (·.container) := by simpa [List.filter_eq_nil_iff] using none
      rw [if_pos listed, List.append_nil, List.foldl_map, Container.receive_of_listed now node k none]
      rfl
  | incrementalContainerReport node replicas =>
    have marked : (incrementalContainerReport node replicas).marks id =
        (replicas.filter (·.container = id)).map (·.mark) := by
      rw [marks, chores, List.flatMap_cons, Chore.flatMap_marks (·.container) fun r => r.marks_chore id]
      rfl
    rw [marked, List.foldl_map, Container.receive]
    simp only [ReplicaReport.act_mark]
    rfl
  | pipelineReport node entries => rfl
  | nodeStateChange node health => cases health <;> rfl

theorem steer_of_reports {r : Report} (reports : r.executor = .reports) (node : NodeId) {x : Chore}
    (mem : x ∈ r.chores) (pipelines : PipelineRegistry) : Chore.steer node pipelines x = pipelines := by
  cases r with
  | nodeHeartbeat heartbeat => cases reports
  | containerReport origin replicas =>
    simp only [chores, List.mem_cons, List.mem_append, List.mem_map, List.not_mem_nil, or_false] at mem
    obtain rfl | ⟨r, -, rfl⟩ | rfl := mem <;> rfl
  | incrementalContainerReport origin replicas =>
    simp only [chores, List.mem_cons, List.mem_map] at mem
    obtain rfl | ⟨r, -, rfl⟩ := mem
    · rfl
    · unfold ReplicaReport.chore
      split <;> rfl
  | pipelineReport origin entries => cases reports
  | nodeStateChange origin health => cases reports

theorem foldl_steer (r : Report) (pipelines : PipelineRegistry) :
    r.chores.foldl (Chore.steer r.origin) pipelines = pipelines.receive r := by
  cases r with
  | nodeHeartbeat heartbeat => rfl
  | containerReport node replicas => exact Chore.foldl_still (fun x mem => steer_of_reports rfl node mem) pipelines
  | incrementalContainerReport node replicas =>
    exact Chore.foldl_still (fun x mem => steer_of_reports rfl node mem) pipelines
  | pipelineReport node entries => rfl
  | nodeStateChange node health => cases health <;> rfl

end Report

namespace Chore

variable {node : NodeId} {order : List ContainerId} {x : Chore} {c c' : Catalog}

/-- What is left of a chore is about containers. -/
theorem steer_of_leaves {y : Chore} (mem : y ∈ x.leaves node order c) (pipelines : PipelineRegistry) :
    steer node pipelines y = pipelines := by
  cases x with
  | register => cases mem
  | beat heartbeat => cases mem
  | feed report => cases mem
  | drop id => cases mem
  | pipelines entries => cases mem
  | close => cases mem
  | sweep spared =>
    obtain rfl := List.mem_singleton.1 mem
    rfl
  | look spared listed found =>
    cases listed with
    | nil =>
      obtain ⟨id, -, rfl⟩ := List.mem_map.1 mem
      rfl
    | cons id rest =>
      obtain rfl := List.mem_singleton.1 mem
      rfl

structure Worked (node : NodeId) (order : List ContainerId) (x : Chore) (c c' : Catalog) : Prop where
  works : c'.live.db.Works
  containers (id : ContainerId) : ∃ marked : List Mark,
    c'.directory.containers[id]? = c.directory.containers[id]?.map (fun k => marked.foldl (Mark.act c.clock node) k) ∧
      x.marks id = marked ++ (x.leaves node order c).flatMap (marks id)
  pipelines : c'.pipelines = steer node c.pipelines x

/-- What leaves the directory alone. -/
theorem worked_elsewhere (works : c'.live.db.Works) (directory : c'.directory = c.directory)
    (pipelines : c'.pipelines = steer node c.pipelines x)
    (marks : ∀ id, x.marks id = (x.leaves node order c).flatMap (Chore.marks id)) : Worked node order x c c' where
  works := works
  containers id := ⟨[], by rw [directory]; simp, marks id⟩
  pipelines := pipelines

theorem worked_single {op : Directory.Single} (works : c.live.db.Works) {id : ContainerId} (mark : Mark)
    (touches : Directory.Touches op.run fun other k => if other = id then mark.act c.clock node k else k)
    (alone : x.leaves node order c = []) (marks : ∀ other, x.marks other = if id = other then [mark] else [])
    (pipelines : ∀ p, steer node p x = p) : Worked node order x c (c.single op) := by
  obtain ⟨works', touched⟩ := touches ⟨c.directory, c.live.db⟩ works
  refine ⟨works', fun other => ⟨x.marks other, ?_, by rw [alone]; simp⟩, (pipelines _).symm⟩
  refine (touched other).trans ?_
  rw [marks]
  by_cases same : other = id
  · subst same
    simp
  · simp [same, Ne.symm same]

theorem count_eq (all : order.Perm c.directory.containers.keys) (id : ContainerId) :
    order.count id = if c.directory.containers[id]?.isSome then 1 else 0 := by
  rw [all.count_eq, Std.ExtTreeMap.nodup_keys.count]
  simp only [Std.ExtTreeMap.mem_keys, Std.ExtTreeMap.mem_iff_isSome_getElem?]

theorem worked_sweep (works : c.live.db.Works) (all : order.Perm c.directory.containers.keys)
    (spared : List ContainerId) : Worked node order (sweep spared) c c where
  works := works
  containers id := by
    have left : ((sweep spared).leaves node order c).flatMap (marks id) =
        if id ∈ spared then [] else List.replicate (order.count id) .dropped := by
      simp [leaves, marks]
    rw [left, count_eq all, marks]
    cases c.directory.containers[id]? with
    | none =>
      -- it is not among those that are listed, and nothing is there to be marked
      refine ⟨if id ∈ spared then [] else [.dropped], rfl, ?_⟩
      split <;> rfl
    | some k => exact ⟨[], rfl, rfl⟩
  pipelines := rfl

theorem worked_look (works : c.live.db.Works) (spared listed found : List ContainerId) :
    Worked node order (look spared listed found) c c where
  works := works
  containers id := by
    have still : c.directory.containers[id]? = c.directory.containers[id]?.map fun k => k := by simp
    cases listed with
    | nil =>
      refine ⟨[], still, ?_⟩
      rw [leaves, flatMap_marks_drop, marks, List.nil_append, List.nil_append]
      split
      · next spare =>
        have none : ((ascending found).filter (· ∉ spared)).count id = 0 := by
          simp [List.count_eq_zero, spare]
        rw [none]
        rfl
      · next wanted =>
        rw [List.count_filter (by simpa using wanted), (perm_ascending found).count_eq]
    | cons other rest =>
      by_cases spare : id ∈ spared
      · exact ⟨[], still, by simp [leaves, marks, spare]⟩
      by_cases hosted : (c.directory.containers[other]?.any (·.replicas.contains node)) = true
      · refine ⟨[], still, ?_⟩
        simp only [leaves, marks, spare, if_false, hosted, if_true, List.flatMap_singleton, List.nil_append]
        rw [List.cons_append, List.count_cons, List.count_append, List.count_append, List.count_cons, Nat.add_assoc]
      by_cases same : other = id
      · -- it has none, so nothing comes of dropping it
        subst same
        refine ⟨[.dropped], ?_, ?_⟩
        · cases found : c.directory.containers[other]? with
          | none => rfl
          | some k =>
            have absent : node ∉ k.replicas := by simpa [found] using hosted
            exact congrArg some (Container.drop_of_absent absent).symm
        · simp [leaves, marks, spare, hosted, List.replicate_succ]
      · exact ⟨[], still, by simp [leaves, marks, spare, hosted, same]⟩
  pipelines := rfl

/-- Over a store that works every chore is done. -/
theorem worked (works : c.live.db.Works) (all : order.Perm c.directory.containers.keys) (x : Chore) :
    ∃ c', (x.does node).run c = (.ok (), c') ∧ Worked node order x c c' := by
  cases x with
  | register =>
    obtain ⟨db, run, works'⟩ := Catalog.run_register node works
    exact ⟨_, run, worked_elsewhere works' rfl rfl fun _ => rfl⟩
  | beat heartbeat =>
    obtain ⟨c', run, received⟩ := Catalog.run_receive (.nodeHeartbeat heartbeat) works
    exact ⟨c', run, received.works, fun id => ⟨[], received.containers id, rfl⟩, received.pipelines⟩
  | feed report =>
    exact ⟨_, run_feed report c, worked_single works (.fed report)
      (Directory.touches_feed c.clock report.container _) rfl (fun _ => rfl) fun _ => rfl⟩
  | drop id =>
    exact ⟨_, run_drop id c, worked_single works .dropped (Directory.touchesWhile_drop node id) rfl
      (fun _ => rfl) fun _ => rfl⟩
  | pipelines entries =>
    obtain ⟨changed, leads⟩ := (PipelineRegistry.succeeds_report node entries).leads c.pipelines
    obtain ⟨db, run, works'⟩ := Catalog.run_onPipelines leads works
    exact ⟨_, Action.run_discard_ok (x := changed) (Action.run_relabel_ok run _),
      worked_elsewhere works' rfl rfl fun _ => rfl⟩
  | close =>
    obtain ⟨db, run, works'⟩ := Catalog.run_closePipelines node works
    exact ⟨_, run, worked_elsewhere works' rfl rfl fun _ => rfl⟩
  | sweep spared => exact ⟨c, rfl, worked_sweep works all spared⟩
  | look spared listed found => exact ⟨c, rfl, worked_look works spared listed found⟩

end Chore

end ClusterCatalog

import Mathlib.Data.List.Sort
import ClusterCatalog.Proofs.Catalog.Received
/-!
The handling of a report in the pieces between which others may do theirs. Whoever handles one holds a single
container at a time, and whoever drops the replicas of a node first looks through the containers one by one, so that
nobody sees the directory as it stood at one moment. Done without a break, the pieces are the report.
-/
namespace ClusterCatalog

open Directory (Single)

/-- What is done without a break. Only the one lane for control works on pipelines, so nothing comes between
the entries of a report of them. -/
inductive Chore where
  | register
  | beat (heartbeat : Heartbeat)
  | feed (report : ReplicaReport)
  | drop (id : ContainerId)
  | sweep (spared : List ContainerId)
  | look (spared listed found : List ContainerId)
  | pipelines (entries : List PipelineReport)
  | close

def ReplicaReport.chore (r : ReplicaReport) : Chore := if r.state = .deleted then .drop r.container else .feed r

def Report.chores : Report → List Chore
  | .nodeHeartbeat heartbeat => [.beat heartbeat]
  | .containerReport _ replicas => .register :: (replicas.map .feed ++ [.sweep (replicas.map (·.container))])
  | .incrementalContainerReport _ replicas => .register :: replicas.map (·.chore)
  | .pipelineReport _ entries => [.register, .pipelines entries]
  | .nodeStateChange _ .stale => [.close]
  | .nodeStateChange _ .dead => [.close, .sweep []]
  | .nodeStateChange _ _ => []

namespace Chore

variable {node : NodeId} {order spared listed found : List ContainerId} {x : Chore} {chores rest : List Chore}
  {c c' : Catalog} {result : Except CatalogError Unit × Catalog}

def does (node : NodeId) : Chore → Action Catalog CatalogError Unit
  | .register => Catalog.register node
  | .beat heartbeat => Catalog.receive (.nodeHeartbeat heartbeat)
  | .feed report => do
    let c ← get
    discard (Catalog.onDirectory (Directory.applyReplica c.clock (report.toReplica node))).attempt
  | .drop id => discard (Catalog.onDirectory (Directory.removeReplica id node)).attempt
  | .pipelines entries => discard ((Catalog.onPipelines (PipelineRegistry.report node entries)).relabel .store)
  | .close => Catalog.closePipelines node
  | .sweep _ | .look _ _ _ => return ()

def ascending (ids : List ContainerId) : List ContainerId := ids.insertionSort fun a b => (compare a b).isLE = true

/-- What takes the place of a chore that is done. Containers are listed in no particular order; what is found among
them is dropped in the order of the identifiers. -/
def leaves (node : NodeId) (order : List ContainerId) (c : Catalog) : Chore → List Chore
  | .sweep spared => [.look spared order []]
  | .look spared [] found => ((ascending found).filter (· ∉ spared)).map .drop
  | .look spared (id :: listed) found =>
    [.look spared listed (if c.directory.containers[id]?.any (·.replicas.contains node) then id :: found else found)]
  | _ => []

inductive Done (node : NodeId) : List Chore → Catalog → Except CatalogError Unit × Catalog → Prop where
  | nothing (c : Catalog) : Done node [] c (.ok (), c)
  | chore {x : Chore} {rest : List Chore} {order : List ContainerId} {c c' : Catalog}
      {result : Except CatalogError Unit × Catalog} (all : order.Perm c.directory.containers.keys)
      (ran : (x.does node).run c = (.ok (), c')) (later : Done node (x.leaves node order c ++ rest) c' result) :
      Done node (x :: rest) c result
  | failed {x : Chore} {rest : List Chore} {c c' : Catalog} {e : CatalogError}
      (ran : (x.does node).run c = (.error e, c')) : Done node (x :: rest) c (.error e, c')

theorem done_nil_iff : Done node [] c result ↔ result = (.ok (), c) := by
  constructor
  · rintro ⟨⟩
    rfl
  · rintro rfl
    exact .nothing c

/-- A chore that succeeds. -/
theorem done_cons_iff_of_ok (ran : (x.does node).run c = (.ok (), c')) : Done node (x :: rest) c result ↔
    ∃ order : List ContainerId, order.Perm c.directory.containers.keys ∧
      Done node (x.leaves node order c ++ rest) c' result := by
  constructor
  · intro done
    cases done with
    | chore all ran' later =>
      cases ran.symm.trans ran'
      exact ⟨_, all, later⟩
    | failed ran' => cases ran.symm.trans ran'
  · rintro ⟨order, all, later⟩
    exact .chore all ran later

/-- A chore that leaves the same in whichever order the containers are listed. -/
theorem done_cons_iff_of_same {more : List Chore} (ran : (x.does node).run c = (.ok (), c'))
    (same : ∀ order, x.leaves node order c = more) :
    Done node (x :: rest) c result ↔ Done node (more ++ rest) c' result := by
  rw [done_cons_iff_of_ok ran]
  simp only [same]
  exact ⟨fun ⟨_, _, later⟩ => later, fun later => ⟨_, .refl _, later⟩⟩

theorem done_cons_iff (alone : ∀ order, x.leaves node order c = []) : Done node (x :: rest) c result ↔
    match (x.does node).run c with
    | (.ok (), c') => Done node rest c' result
    | (.error e, c') => result = (.error e, c') := by
  rcases ran : (x.does node).run c with ⟨e | ⟨⟩, c'⟩
  · constructor
    · intro done
      cases done with
      | chore all ran' later => cases ran.symm.trans ran'
      | failed ran' =>
        cases ran.symm.trans ran'
        rfl
    · intro failed
      obtain rfl : result = (.error e, c') := failed
      exact .failed ran
  · exact done_cons_iff_of_same ran alone

end Chore

namespace Catalog

def single (c : Catalog) (op : Single) : Catalog :=
  let s := op.run ⟨c.directory, c.live.db⟩
  { c with directory := s.view, live := { c.live with db := s.db } }

theorem foldl_single (c : Catalog) (ops : List Single) : ops.foldl single c =
    let s := ops.foldl (fun s op => op.run s) ⟨c.directory, c.live.db⟩
    { c with directory := s.view, live := { c.live with db := s.db } } := by
  induction ops generalizing c with
  | nil => rfl
  | cons op rest ih => exact ih (c.single op)

end Catalog

namespace Chore

variable {α : Type} {node : NodeId} {order spared listed found : List ContainerId} {x : Chore}
  {chores rest : List Chore}
  {c c' : Catalog} {result : Except CatalogError Unit × Catalog}

theorem run_feed (report : ReplicaReport) (c : Catalog) : ((feed report).does node).run c =
    (.ok (), c.single (.feed c.clock report.container (report.toReplica node))) :=
  Action.run_discard_ok rfl

theorem run_drop (id : ContainerId) (c : Catalog) : ((drop id).does node).run c = (.ok (), c.single (.drop id node)) :=
  Action.run_discard_ok rfl

/-- Chores each of which is one operation on the directory. -/
theorem done_singles_iff {chore : α → Chore} (op : Millis → α → Single)
    (alone : ∀ a order (c : Catalog), (chore a).leaves node order c = [])
    (ran : ∀ a (c : Catalog), ((chore a).does node).run c = (.ok (), c.single (op c.clock a))) (l : List α) :
    Done node (l.map chore ++ rest) c result ↔ Done node rest ((l.map (op c.clock)).foldl Catalog.single c) result := by
  induction l generalizing c with
  | nil => exact Iff.rfl
  | cons a more ih =>
    rw [List.map_cons, List.cons_append, done_cons_iff fun order => alone a order c, ran]
    exact ih

theorem leaves_chore (r : ReplicaReport) (order : List ContainerId) (c : Catalog) :
    r.chore.leaves node order c = [] := by
  unfold ReplicaReport.chore
  split <;> rfl

theorem run_chore (r : ReplicaReport) (c : Catalog) :
    (r.chore.does node).run c = (.ok (), c.single (Directory.change c.clock node r)) := by
  unfold ReplicaReport.chore Directory.change
  split
  · exact run_drop r.container c
  · exact run_feed r c

theorem hosts_iff {id : ContainerId} {d : Directory} :
    (d.containers[id]?.any (·.replicas.contains node)) = true ↔ id ∈ d.onNode node := by
  rw [Directory.onNode, Std.ExtTreeMap.mem_keys, Std.ExtTreeMap.mem_iff_isSome_getElem?,
    Std.ExtTreeMap.getElem?_filter']
  cases d.containers[id]? <;> simp [Option.filter]

theorem perm_ascending (ids : List ContainerId) : (ascending ids).Perm ids := List.perm_insertionSort ..

theorem ascending_eq {ids ordered : List ContainerId} (same : ids.Perm ordered)
    (sorted : ordered.Pairwise (compare · · = .lt)) : ascending ids = ordered := by
  let le (a b : ContainerId) : Prop := (compare a b).isLE = true
  have total : Std.Total le := ⟨fun a b => by
    dsimp only [le]
    cases h : compare a b with
    | lt => exact .inl rfl
    | eq => exact .inl rfl
    | gt =>
      rw [Std.OrientedCmp.lt_of_gt h]
      exact .inr rfl⟩
  have trans : IsTrans ContainerId le := ⟨fun a b c => Std.TransCmp.isLE_trans⟩
  have ascends : (ascending ids).Pairwise le := List.pairwise_insertionSort le ids
  refine List.Perm.eq_of_pairwise (fun a b _ _ le ge => ?_) ascends (sorted.imp fun lt => congrArg Ordering.isLE lt)
    ((perm_ascending ids).trans same)
  exact Std.LawfulEqCmp.eq_of_compare (Std.OrientedCmp.isLE_antisymm le ge)

theorem done_look_iff : Done node (look spared listed found :: rest) c result ↔
    Done node (((ascending ((listed.filter (· ∈ c.directory.onNode node)).reverse ++ found)).filter (· ∉ spared)).map
      drop ++ rest) c result := by
  induction listed generalizing found with
  | nil => exact done_cons_iff_of_same rfl fun _ => rfl
  | cons id more ih =>
    refine (done_cons_iff_of_same rfl fun _ => rfl).trans (ih.trans ?_)
    by_cases hosted : id ∈ c.directory.onNode node
    · rw [if_pos (hosts_iff.2 hosted), List.filter_cons_of_pos (by simpa using hosted), List.reverse_cons,
        List.append_assoc]
      rfl
    · rw [if_neg (hosts_iff.not.2 hosted), List.filter_cons_of_neg (by simpa using hosted)]

theorem done_sweep_iff : Done node (sweep spared :: rest) c result ↔
    Done node rest ((((c.directory.onNode node).filter (· ∉ spared)).map (Single.drop · node)).foldl Catalog.single c)
      result := by
  have found {order : List ContainerId} (all : order.Perm c.directory.containers.keys) :
      ascending ((order.filter (· ∈ c.directory.onNode node)).reverse ++ []) = c.directory.onNode node := by
    refine ascending_eq ?_ Std.ExtTreeMap.ordered_keys
    rw [List.append_nil]
    refine (List.reverse_perm _).trans ?_
    have nodup : order.Nodup := all.nodup_iff.2 Std.ExtTreeMap.nodup_keys
    refine (List.perm_ext_iff_of_nodup (nodup.filter _) Std.ExtTreeMap.nodup_keys).2 fun id => ?_
    have known (hosted : id ∈ c.directory.onNode node) : id ∈ order := by
      rw [all.mem_iff, Std.ExtTreeMap.mem_keys]
      rw [Directory.onNode, Std.ExtTreeMap.mem_keys] at hosted
      exact Std.ExtTreeMap.mem_of_mem_filter hosted
    rw [List.mem_filter, decide_eq_true_eq]
    exact ⟨fun h => h.2, fun h => ⟨known h, h⟩⟩
  have dropped : Done node (((c.directory.onNode node).filter (· ∉ spared)).map drop ++ rest) c result ↔ _ :=
    done_singles_iff (fun _ id => Single.drop id node) (fun _ _ _ => rfl) run_drop _
  rw [done_cons_iff_of_ok rfl, ← dropped]
  constructor
  · rintro ⟨order, all, later⟩
    rwa [leaves, List.singleton_append, done_look_iff, found all] at later
  · intro later
    refine ⟨_, .refl _, ?_⟩
    rwa [leaves, List.singleton_append, done_look_iff, found (.refl _)]

def MakeUp (node : NodeId) (chores : List Chore) (a : Action Catalog CatalogError Unit) : Prop :=
  ∀ (c : Catalog) (result : Except CatalogError Unit × Catalog), Done node chores c result ↔ result = a.run c

theorem makeUp_nil : MakeUp node [] (return ()) := fun _ _ => done_nil_iff

theorem MakeUp.cons {a : Action Catalog CatalogError Unit} (later : MakeUp node chores a)
    (alone : ∀ (c : Catalog) order, x.leaves node order c = []) :
    MakeUp node (x :: chores) (x.does node >>= fun _ => a) := by
  intro c result
  rw [done_cons_iff (alone c)]
  rcases ran : (x.does node).run c with ⟨e | ⟨⟩, c'⟩
  · rw [Action.run_bind_error ran]
  · rw [Action.run_bind_ok ran]
    exact later c' result

theorem makeUp_one (alone : ∀ (c : Catalog) order, x.leaves node order c = []) : MakeUp node [x] (x.does node) := by
  rw [← bind_pure_unit (x := x.does node)]
  exact makeUp_nil.cons alone

theorem run_onDirectory_singles {work : Action (Stored Directory) CatalogError α} (ops : List Single) {v : α}
    (run : work.run ⟨c.directory, c.live.db⟩ = (.ok v, ops.foldl (fun s op => op.run s) ⟨c.directory, c.live.db⟩)) :
    (discard (Catalog.onDirectory work) : Action Catalog CatalogError Unit).run c =
      (.ok (), ops.foldl Catalog.single c) := by
  rw [Catalog.foldl_single]
  exact Action.run_discard_ok (Catalog.run_onDirectory_of_run run)

theorem makeUp_full (replicas : List ReplicaReport) :
    MakeUp node (replicas.map feed ++ [sweep (replicas.map (·.container))])
      (get >>= fun c => discard (Catalog.onDirectory (Directory.fullReport c.clock node replicas))) := by
  intro c result
  let feeds := replicas.map fun r => Single.feed c.clock r.container (r.toReplica node)
  let fed := feeds.foldl Catalog.single c
  have unlisted : (fed.directory.onNode node).filter (· ∉ replicas.map (·.container)) =
      fed.directory.missing node replicas := by
    refine List.filter_congr fun id _ => ?_
    simp [Bool.eq_iff_iff (b := List.all ..)]
  have shown : fed.directory = (replicas.foldl
      (fun s r => (Single.feed c.clock r.container (r.toReplica node)).run s) ⟨c.directory, c.live.db⟩).view := by
    simp only [fed, Catalog.foldl_single]
    rw [List.foldl_map]
  obtain ⟨t, run⟩ := Directory.run_fullReport (ε := CatalogError) c.clock node replicas ⟨c.directory, c.live.db⟩
  have whole := run_onDirectory_singles (feeds ++ (fed.directory.missing node replicas).map (Single.drop · node))
    (run.trans (by rw [List.foldl_append, List.foldl_map, shown, List.foldl_map]))
  have singly : Done node (replicas.map feed ++ [sweep (replicas.map (·.container))]) c result ↔ _ :=
    done_singles_iff (fun now r => Single.feed now r.container (r.toReplica node)) (fun _ _ _ => rfl) run_feed replicas
  rw [singly, done_sweep_iff, unlisted, done_nil_iff, Action.run_bind_ok (Action.run_get c), whole, List.foldl_append]

theorem makeUp_incremental (replicas : List ReplicaReport) :
    MakeUp node (replicas.map (·.chore))
      (get >>= fun c => discard (Catalog.onDirectory (Directory.incrementalReport c.clock node replicas))) := by
  intro c result
  obtain ⟨t, run⟩ := Directory.run_incrementalReport (ε := CatalogError) c.clock node replicas ⟨c.directory, c.live.db⟩
  have whole := run_onDirectory_singles (replicas.map (Directory.change c.clock node))
    (run.trans (by rw [List.foldl_map]))
  have singly : Done node (replicas.map (·.chore) ++ []) c result ↔ _ :=
    done_singles_iff (fun now => Directory.change now node) leaves_chore run_chore replicas
  rw [List.append_nil] at singly
  rw [singly, done_nil_iff, Action.run_bind_ok (Action.run_get c), whole]

theorem makeUp_removal :
    MakeUp node [sweep []] (discard (Catalog.onDirectory (Directory.removeReplicasOf node))) := by
  intro c result
  obtain ⟨n, run⟩ := Directory.run_removeReplicasOf (ε := CatalogError) node ⟨c.directory, c.live.db⟩
  have whole := run_onDirectory_singles ((c.directory.onNode node).map (Single.drop · node))
    (run.trans (by rw [List.foldl_map]))
  have all : (c.directory.onNode node).filter (· ∉ ([] : List ContainerId)) = c.directory.onNode node := by simp
  rw [done_sweep_iff, all, done_nil_iff, whole]

end Chore

open Chore in
/-- Handled without a break, a report does what it does as a whole, whichever order the containers are listed in. -/
theorem Report.makeUp_chores (r : Report) : MakeUp r.origin r.chores (Catalog.receive r) := by
  cases r with
  | nodeHeartbeat heartbeat => exact makeUp_one fun _ _ => rfl
  | containerReport node replicas => exact (makeUp_full replicas).cons fun _ _ => rfl
  | incrementalContainerReport node replicas => exact (makeUp_incremental replicas).cons fun _ _ => rfl
  | pipelineReport node entries =>
    exact MakeUp.cons (makeUp_one (x := .pipelines entries) fun _ _ => rfl) fun _ _ => rfl
  | nodeStateChange node health =>
    cases health with
    | healthy => exact makeUp_nil
    | healthyReadonly => exact makeUp_nil
    | stale => exact makeUp_one (x := .close) fun _ _ => rfl
    | dead => exact makeUp_removal.cons fun _ _ => rfl

end ClusterCatalog

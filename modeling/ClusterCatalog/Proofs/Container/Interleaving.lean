import Mathlib.Logic.Function.Basic
import ClusterCatalog.Proofs.Container.Single
/-!
Reports of many nodes, worked on side by side in single operations. While some work is left, the
outlook of a container says what the rest of it will make of the container; no operation changes the
outlook, so the order in which the nodes take their turns does not matter.
-/
namespace ClusterCatalog.Directory

inductive NodeReport where
  | full (replicas : List ReplicaReport)
  | incremental (replicas : List ReplicaReport)

inductive Task where
  | feed (report : ReplicaReport)
  | drop (id : ContainerId)
  | sweep (replicas : List ReplicaReport)

def NodeReport.tasks : NodeReport → List Task
  | .full replicas => replicas.map .feed ++ [.sweep replicas]
  | .incremental replicas =>
    replicas.map fun r => if r.state = .deleted then .drop r.container else .feed r

/-- A directory with the work that is left on the reports of each node. -/
structure Workload where
  stored : Stored Directory
  pending : NodeId → List Task

structure Turn where
  node : NodeId
  now : Millis
  deriving DecidableEq

namespace Workload

def start (s : Stored Directory) (reports : NodeId → List NodeReport) : Workload :=
  ⟨s, fun node => (reports node).flatMap NodeReport.tasks⟩

def step (w : Workload) (turn : Turn) : Workload :=
  match w.pending turn.node with
  | [] => w
  | .feed r :: rest => ⟨(Single.feed turn.now r.container (r.toReplica turn.node)).run w.stored,
      Function.update w.pending turn.node rest⟩
  | .drop id :: rest => ⟨(Single.drop id turn.node).run w.stored,
      Function.update w.pending turn.node rest⟩
  | .sweep replicas :: rest => ⟨w.stored, Function.update w.pending turn.node
      ((w.stored.view.missing turn.node replicas).map .drop ++ rest)⟩

def run (w : Workload) (turns : List Turn) : Workload := turns.foldl step w

def Finished (w : Workload) : Prop := ∀ node, w.pending node = []

/-- What reports decide of a container: its state and its replicas. -/
def observed (w : Workload) (id : ContainerId) : Option (Lifecycle × Std.ExtTreeMap NodeId Replica) :=
  (w.stored.view.containers[id]?).map fun c => (c.info.state, c.replicas)

end Workload

theorem Workload.pending_step_of_ne (w : Workload) {turn : Turn} {node : NodeId} (h : node ≠ turn.node) :
    (w.step turn).pending node = w.pending node := by
  unfold step
  split
  · rfl
  all_goals exact Function.update_of_ne h ..

/-! What the work that is left makes of the state of a container: only whether some replica speaks
for closing it counts, not when. -/

def Heard (pending : NodeId → List Task) (id : ContainerId) (r : ReplicaReport) : Prop :=
  r.container = id ∧ ∃ node, Task.feed r ∈ pending node

def reached : Lifecycle → Bool → Bool → Lifecycle
  | .closing, _, true | .quasiClosed, _, true => .closed
  | .closing, true, false => .quasiClosed
  | state, _, _ => state

theorem reached_moved (state : Lifecycle) (replica : ReplicaState) (a b : UInt64) (quasi closes : Bool) :
    reached ((Lifecycle.moved? state replica a b).getD state) quasi closes =
      reached state (decide (replica = .quasiClosed) || quasi)
        (decide (replica = .closed ∧ a = b) || closes) := by
  by_cases same : a = b <;> cases state <;> cases replica <;> cases quasi <;> cases closes <;>
    simp [Lifecycle.moved?, Lifecycle.decide, Lifecycle.fireAtSequence, Lifecycle.Decision.event?,
      Lifecycle.next?, reached, same]

open Classical in
noncomputable def settled (info : ContainerInfo) (heard : ReplicaReport → Prop) : Lifecycle :=
  reached info.state (decide (∃ r, heard r ∧ r.state = .quasiClosed))
    (decide (∃ r, heard r ∧ r.state = .closed ∧ r.sequence = info.sequence))

theorem settled_of_none {info : ContainerInfo} {heard : ReplicaReport → Prop} (h : ∀ r, ¬ heard r) :
    settled info heard = info.state := by
  have quiet : reached info.state false false = info.state := by cases info.state <;> rfl
  simpa [settled, h] using quiet

theorem settled_congr {info : ContainerInfo} {heard heard' : ReplicaReport → Prop}
    (h : ∀ r, heard r ↔ heard' r) : settled info heard = settled info heard' := by
  rw [show heard = heard' from funext fun r => propext (h r)]

/-- A replica that is worked on leaves what will become of the state. -/
theorem settled_step {info after : ContainerInfo} {heard rest : ReplicaReport → Prop} {r : ReplicaReport}
    (h : ∀ x, heard x ↔ x = r ∨ rest x) (sequence : after.sequence = info.sequence)
    (state : after.state =
      (Lifecycle.moved? info.state r.state r.sequence info.sequence).getD info.state) :
    settled after rest = settled info heard := by
  classical
  have closes : (∃ x, heard x ∧ x.state = .closed ∧ x.sequence = info.sequence) ↔
      (r.state = .closed ∧ r.sequence = info.sequence) ∨
        ∃ x, rest x ∧ x.state = .closed ∧ x.sequence = info.sequence := by
    simp [h, or_and_right, exists_or]
  have quasiCloses : (∃ x, heard x ∧ x.state = .quasiClosed) ↔
      r.state = .quasiClosed ∨ ∃ x, rest x ∧ x.state = .quasiClosed := by
    simp [h, or_and_right, exists_or]
  rw [settled, settled, sequence, state, reached_moved, ← Bool.decide_or, ← Bool.decide_or,
    decide_eq_decide.2 closes, decide_eq_decide.2 quasiCloses]

/-! What the work that is left makes of a row: only the node's own work touches it. -/

def finalRow (id : ContainerId) (node : NodeId) (deleted : Bool) (row : Option Replica) :
    List Task → Option Replica
  | [] => row
  | .feed r :: rest =>
    finalRow id node deleted
      (if r.container = id ∧ deleted = false then some (Held.inheriting row (r.toReplica node)) else row) rest
  | .drop dropped :: rest => finalRow id node deleted (if dropped = id then none else row) rest
  | .sweep replicas :: rest =>
    finalRow id node deleted (if replicas.all (·.container != id) then none else row) rest

theorem finalRow_append (id : ContainerId) (node : NodeId) (deleted : Bool) (row : Option Replica)
    (tasks rest : List Task) :
    finalRow id node deleted row (tasks ++ rest) =
      finalRow id node deleted (finalRow id node deleted row tasks) rest := by
  induction tasks generalizing row with
  | nil => rfl
  | cons t tasks ih => cases t <;> exact ih _

theorem finalRow_drops (id : ContainerId) (node : NodeId) (deleted : Bool) (row : Option Replica)
    (ids : List ContainerId) :
    finalRow id node deleted row (ids.map .drop) = if id ∈ ids then none else row := by
  induction ids generalizing row with
  | nil => rfl
  | cons a ids ih =>
    rw [List.map_cons, finalRow, ih]
    by_cases here : a = id
    · simp [here]
    · simp [here, Ne.symm here]

theorem heard_update {pending : NodeId → List Task} {node : NodeId} {t : Task} {rest : List Task}
    (tasks : List Task) (next : pending node = t :: rest)
    (left : ∀ r, Task.feed r ∈ tasks ↔ Task.feed r ∈ rest) (id : ContainerId) (r : ReplicaReport) :
    Heard pending id r ↔
      (r.container = id ∧ t = .feed r) ∨ Heard (Function.update pending node tasks) id r := by
  have here : Function.update pending node tasks node = tasks := Function.update_self ..
  constructor
  · rintro ⟨id_eq, other, hr⟩
    by_cases same : other = node
    · subst same
      rw [next, List.mem_cons] at hr
      obtain now | later := hr
      · exact .inl ⟨id_eq, now.symm⟩
      · exact .inr ⟨id_eq, other, by rw [here]; exact (left r).2 later⟩
    · exact .inr ⟨id_eq, other, by rwa [Function.update_of_ne same]⟩
  · rintro (⟨id_eq, now⟩ | ⟨id_eq, other, hr⟩)
    · exact ⟨id_eq, node, by rw [next, now]; exact List.mem_cons_self⟩
    · by_cases same : other = node
      · subst same
        rw [here, left] at hr
        exact ⟨id_eq, other, by rw [next]; exact List.mem_cons_of_mem t hr⟩
      · exact ⟨id_eq, other, by rwa [Function.update_of_ne same] at hr⟩

namespace Workload

noncomputable def outlook (w : Workload) (id : ContainerId) :
    Option (Lifecycle × (NodeId → Option Replica)) :=
  (w.stored.view.containers[id]?).map fun c =>
    (settled c.info (Heard w.pending id),
      fun node => finalRow id node (c.info.state = .deleted) c.replicas[node]? (w.pending node))

theorem outlook_of_finished {w : Workload} (h : w.Finished) (id : ContainerId) :
    w.outlook id = (w.observed id).map fun (state, replicas) => (state, fun node => replicas[node]?) := by
  have quiet (r : ReplicaReport) : ¬ Heard w.pending id r := by
    rintro ⟨-, node, hr⟩
    simp [h node] at hr
  rw [outlook, observed, Option.map_map]
  congr 1
  funext c
  simp [settled_of_none quiet, h _, finalRow]

theorem accepts_step {w : Workload} (h : w.stored.db.Accepts .containers) (turn : Turn) :
    (w.step turn).stored.db.Accepts .containers := by
  unfold step
  split
  · exact h
  · exact Single.accepts_feed h ..
  · simpa using h
  · exact h

/-- A turn of one node leaves the outlook if it leaves that of the state and that of the node's row. -/
theorem outlook_turn {w : Workload} {stored : Stored Directory} {node : NodeId} {tasks : List Task}
    {id : ContainerId} {c c' : Container} (found : w.stored.view.containers[id]? = some c)
    (found' : stored.view.containers[id]? = some c')
    (state : settled c'.info (Heard (Function.update w.pending node tasks) id) =
      settled c.info (Heard w.pending id))
    (deleted : c'.info.state = .deleted ↔ c.info.state = .deleted)
    (others : ∀ other, other ≠ node → c'.replicas[other]? = c.replicas[other]?)
    (row : finalRow id node (c.info.state = .deleted) c'.replicas[node]? tasks =
      finalRow id node (c.info.state = .deleted) c.replicas[node]? (w.pending node)) :
    (Workload.mk stored (Function.update w.pending node tasks)).outlook id = w.outlook id := by
  rw [outlook, outlook, found, found', Option.map_some, Option.map_some, state]
  congr 2
  funext other
  simp only [decide_eq_decide.2 deleted]
  by_cases same : other = node
  · subst same
    rw [Function.update_self, row]
  · rw [Function.update_of_ne same, others other same]

theorem outlook_feed {w : Workload} (accepts : w.stored.db.Accepts .containers) {turn : Turn}
    {r : ReplicaReport} {rest : List Task} (next : w.pending turn.node = .feed r :: rest)
    (id : ContainerId) :
    (Workload.mk ((Single.feed turn.now r.container (r.toReplica turn.node)).run w.stored)
      (Function.update w.pending turn.node rest)).outlook id = w.outlook id := by
  have heard := heard_update rest next (fun _ => .rfl) id
  by_cases same : r.container = id
  · subst same
    cases found : w.stored.view.containers[r.container]? with
    | none => simp [outlook, Single.run_feed_of_none found, found]
    | some c =>
      obtain ⟨history, db, run, -⟩ := Single.run_feed_of_accepts turn.now
        (r.toReplica turn.node) found accepts
      have fed : ((Single.feed turn.now r.container (r.toReplica turn.node)).run w.stored).view.containers[
          r.container]? = some (c.take turn.now (r.toReplica turn.node)) := by
        simp [run]
      refine outlook_turn found fed
        (settled_step (r := r) (fun x => ?_) (c.sameIdentity_take ..).sequence (c.state_take ..))
        (c.deleted_take ..) (fun other different => ?_) ?_
      · rw [heard]
        constructor
        · rintro (⟨-, now⟩ | later)
          · exact .inl (Task.feed.inj now).symm
          · exact .inr later
        · rintro (rfl | later)
          · exact .inl ⟨rfl, rfl⟩
          · exact .inr later
      · rw [c.getElem?_replicas_take, if_neg]
        exact fun h => different h.2.symm
      · rw [next, finalRow, c.getElem?_replicas_take]
        simp [ReplicaReport.toReplica]
  · cases found : w.stored.view.containers[id]? with
    | none => simp [outlook, Single.getElem?_feed_of_ne same, found]
    | some c =>
      refine outlook_turn found (by rw [Single.getElem?_feed_of_ne same, found])
        (settled_congr fun x => ?_) .rfl (fun _ _ => rfl) ?_
      · rw [heard, or_iff_right]
        rintro ⟨id_eq, now⟩
        exact same (Task.feed.inj now ▸ id_eq)
      · rw [next, finalRow, if_neg fun h => same h.1]

theorem outlook_drop {w : Workload} {turn : Turn} {dropped : ContainerId} {rest : List Task}
    (next : w.pending turn.node = .drop dropped :: rest) (id : ContainerId) :
    (Workload.mk ((Single.drop dropped turn.node).run w.stored)
      (Function.update w.pending turn.node rest)).outlook id = w.outlook id := by
  have heard (r : ReplicaReport) : Heard (Function.update w.pending turn.node rest) id r ↔
      Heard w.pending id r := by
    rw [heard_update rest next (fun _ => .rfl) id, or_iff_right]
    rintro ⟨-, now⟩
    cases now
  by_cases same : dropped = id
  · subst same
    cases found : w.stored.view.containers[dropped]? with
    | none => simp [outlook, Single.run_drop_of_none found, found]
    | some c =>
      have rid : ((Single.drop dropped turn.node).run w.stored).view.containers[dropped]? =
          some { c with replicas := c.replicas.erase turn.node } := by
        simp [Single.run_drop_of_some found]
      refine outlook_turn found rid (settled_congr heard) .rfl (fun other different => ?_) ?_
      · simp [Std.ExtTreeMap.getElem?_erase, Ne.symm different]
      · rw [next, finalRow]
        simp
  · cases found : w.stored.view.containers[id]? with
    | none => simp [outlook, Single.getElem?_drop_of_ne same, found]
    | some c =>
      refine outlook_turn found (by rw [Single.getElem?_drop_of_ne same, found])
        (settled_congr heard) .rfl (fun _ _ => rfl) ?_
      rw [next, finalRow, if_neg same]

theorem outlook_sweep {w : Workload} {turn : Turn} {replicas : List ReplicaReport} {rest : List Task}
    (next : w.pending turn.node = .sweep replicas :: rest) (id : ContainerId) :
    (Workload.mk w.stored (Function.update w.pending turn.node
      ((w.stored.view.missing turn.node replicas).map .drop ++ rest))).outlook id = w.outlook id := by
  cases found : w.stored.view.containers[id]? with
  | none => simp [outlook, found]
  | some c =>
    refine outlook_turn found found (settled_congr fun r => ?_) .rfl (fun _ _ => rfl) ?_
    · rw [heard_update ((w.stored.view.missing turn.node replicas).map .drop ++ rest) next
        (fun r => by simp) id, or_iff_right]
      rintro ⟨-, now⟩
      cases now
    · rw [next, finalRow_append, finalRow_drops, finalRow]
      congr 1
      cases row : c.replicas[turn.node]? with
      | none => simp
      | some replica => simp only [mem_missing found, row, Option.isSome_some, true_and]

theorem outlook_step {w : Workload} (accepts : w.stored.db.Accepts .containers) (turn : Turn)
    (id : ContainerId) : (w.step turn).outlook id = w.outlook id := by
  unfold step
  split
  · rfl
  · next r rest next => exact outlook_feed accepts next id
  · next dropped rest next => exact outlook_drop next id
  · next replicas rest next => exact outlook_sweep next id

theorem outlook_run {w : Workload} (accepts : w.stored.db.Accepts .containers) (turns : List Turn)
    (id : ContainerId) : (w.run turns).outlook id = w.outlook id := by
  induction turns generalizing w with
  | nil => rfl
  | cons turn turns ih =>
    -- a step moves work from the pending part of the outlook into the container, so the outlook stays
    exact (ih (accepts_step accepts turn)).trans (outlook_step accepts turn id)

end Workload

/-! Handling whole reports one after another is one way to take turns. -/

def Task.perform (now : Millis) (node : NodeId) (s : Stored Directory) : Task → Stored Directory
  | .feed r => (Single.feed now r.container (r.toReplica node)).run s
  | .drop id => (Single.drop id node).run s
  | .sweep _ => s

def NodeReport.handle (now : Millis) (node : NodeId) (s : Stored Directory) :
    NodeReport → Stored Directory
  | .full replicas => (fullReport now node replicas : Action _ ContainerError Tally).state s
  | .incremental replicas =>
    (incrementalReport now node replicas : Action _ ContainerError Tally).state s

def handleAll (now : Millis) (s : Stored Directory) (reports : List (NodeId × NodeReport)) :
    Stored Directory :=
  reports.foldl (fun s r => r.2.handle now r.1 s) s

def reportsOf (reports : List (NodeId × NodeReport)) (node : NodeId) : List NodeReport :=
  (reports.filter (·.1 = node)).map Prod.snd

namespace Workload

def LeadsTo (w v : Workload) : Prop := ∃ turns, w.run turns = v

theorem LeadsTo.trans {u v w : Workload} (h : u.LeadsTo v) (g : v.LeadsTo w) : u.LeadsTo w := by
  obtain ⟨p, rfl⟩ := h
  obtain ⟨q, rfl⟩ := g
  exact ⟨p ++ q, List.foldl_append⟩

theorem leadsTo_step (w : Workload) (turn : Turn) : w.LeadsTo (w.step turn) := ⟨[turn], rfl⟩

theorem leadsTo_perform {w : Workload} {node : NodeId} {tasks rest : List Task} (now : Millis)
    (next : w.pending node = tasks ++ rest) (plain : ∀ replicas, Task.sweep replicas ∉ tasks) :
    w.LeadsTo ⟨tasks.foldl (Task.perform now node) w.stored, Function.update w.pending node rest⟩ := by
  induction tasks generalizing w with
  | nil =>
    have same : Function.update w.pending node rest = w.pending := by
      rw [← show w.pending node = rest from next, Function.update_eq_self]
    exact ⟨[], by rw [same]; rfl⟩
  | cons t tasks ih =>
    have first : w.step ⟨node, now⟩ =
        ⟨t.perform now node w.stored, Function.update w.pending node (tasks ++ rest)⟩ := by
      cases t with
      | feed r => simp [step, next, Task.perform]
      | drop id => simp [step, next, Task.perform]
      | sweep replicas => exact absurd List.mem_cons_self (plain replicas)
    have others := ih (w := w.step ⟨node, now⟩) (by rw [first]; exact Function.update_self ..)
      fun replicas h => plain replicas (List.mem_cons_of_mem t h)
    rw [first, Function.update_idem] at others
    exact (first ▸ w.leadsTo_step ⟨node, now⟩).trans others

theorem leadsTo_sweep {w : Workload} {node : NodeId} {replicas : List ReplicaReport} {rest : List Task}
    (now : Millis) (next : w.pending node = .sweep replicas :: rest) :
    w.LeadsTo ⟨(w.stored.view.missing node replicas).foldl (fun s id => (Single.drop id node).run s) w.stored,
      Function.update w.pending node rest⟩ := by
  have found : w.step ⟨node, now⟩ = ⟨w.stored, Function.update w.pending node
      ((w.stored.view.missing node replicas).map .drop ++ rest)⟩ := by
    simp [step, next]
  have left : (w.step ⟨node, now⟩).pending node = (w.stored.view.missing node replicas).map .drop ++ rest := by
    rw [found]
    exact Function.update_self ..
  have dropped := leadsTo_perform now left fun _ h => by simp at h
  rw [found, Function.update_idem, List.foldl_map] at dropped
  exact (found ▸ w.leadsTo_step ⟨node, now⟩).trans dropped

/-- The work on a whole report can be done without a break. -/
theorem leadsTo_handle {w : Workload} {node : NodeId} {report : NodeReport} {rest : List Task}
    (now : Millis) (next : w.pending node = report.tasks ++ rest) :
    w.LeadsTo ⟨report.handle now node w.stored, Function.update w.pending node rest⟩ := by
  cases report with
  | incremental replicas =>
    obtain ⟨tally, handled⟩ := run_incrementalReport (ε := ContainerError) now node replicas w.stored
    have whole : (NodeReport.incremental replicas).handle now node w.stored = _ := congrArg Prod.snd handled
    have performed := leadsTo_perform now next fun _ h => by
      obtain ⟨r, -, hr⟩ := List.mem_map.1 h
      split at hr <;> cases hr
    have each : (fun s r => Task.perform now node s
        (if r.state = .deleted then .drop r.container else .feed r)) =
        fun s r => (change now node r).run s := by
      funext s r
      unfold change
      split <;> rfl
    rw [NodeReport.tasks, List.foldl_map, each] at performed
    rwa [whole]
  | full replicas =>
    obtain ⟨tally, handled⟩ := run_fullReport (ε := ContainerError) now node replicas w.stored
    have whole : (NodeReport.full replicas).handle now node w.stored = _ := congrArg Prod.snd handled
    rw [NodeReport.tasks, List.append_assoc] at next
    have fed := leadsTo_perform now next fun _ h => by simp at h
    refine whole ▸ fed.trans ?_
    have left : (Workload.mk ((replicas.map Task.feed).foldl (Task.perform now node) w.stored)
        (Function.update w.pending node (.sweep replicas :: rest))).pending node = .sweep replicas :: rest :=
      Function.update_self ..
    have swept := leadsTo_sweep now left
    rw [Function.update_idem, List.foldl_map] at swept
    rw [List.foldl_map]
    exact swept

theorem start_cons (s : Stored Directory) (node : NodeId) (report : NodeReport)
    (reports : List (NodeId × NodeReport)) :
    (start s (reportsOf ((node, report) :: reports))).pending =
      Function.update (start s (reportsOf reports)).pending node
        (report.tasks ++ (start s (reportsOf reports)).pending node) := by
  funext other
  by_cases same : other = node
  · subst same
    simp [start, reportsOf]
  · simp [start, reportsOf, same, Ne.symm same]

theorem leadsTo_handleAll (now : Millis) (s : Stored Directory) (reports : List (NodeId × NodeReport)) :
    (start s (reportsOf reports)).LeadsTo ⟨handleAll now s reports, fun _ => []⟩ := by
  induction reports generalizing s with
  | nil => exact ⟨[], rfl⟩
  | cons r reports ih =>
    have next : (start s (reportsOf (r :: reports))).pending r.1 =
        r.2.tasks ++ (start s (reportsOf reports)).pending r.1 := by
      rw [start_cons]
      exact Function.update_self ..
    have first := leadsTo_handle now next
    rw [start_cons, Function.update_idem, Function.update_eq_self] at first
    exact first.trans (ih _)

theorem observed_eq_of_outlook {w v : Workload} (hw : w.Finished) (hv : v.Finished) {id : ContainerId}
    (h : w.outlook id = v.outlook id) : w.observed id = v.observed id := by
  rw [outlook_of_finished hw, outlook_of_finished hv] at h
  refine Option.map_injective (fun a b same => ?_) h
  obtain ⟨state, rows⟩ := Prod.mk.inj same
  exact Prod.ext state (Std.ExtTreeMap.ext_getElem? fun node => congrFun rows node)

/-- Whatever turns the nodes take, every container ends in the same state with the same replicas, and
these are what the reports make of it when they are handled one after another. -/
theorem observed_eq_of_finished {s : Stored Directory} (accepts : s.db.Accepts .containers)
    (reports : NodeId → List NodeReport) (p q : List Turn)
    (hp : ((start s reports).run p).Finished) (hq : ((start s reports).run q).Finished)
    (id : ContainerId) :
    ((start s reports).run p).observed id = ((start s reports).run q).observed id ∧
      ∀ now order, reportsOf order = reports →
        ((start s reports).run p).observed id =
          ((handleAll now s order).view.containers[id]?).map fun c => (c.info.state, c.replicas) := by
  have ends (turns : List Turn) : ((start s reports).run turns).outlook id = (start s reports).outlook id :=
    outlook_run accepts turns id
  refine ⟨observed_eq_of_outlook hp hq ((ends p).trans (ends q).symm), ?_⟩
  rintro now order rfl
  obtain ⟨turns, whole⟩ := leadsTo_handleAll now s order
  have handled := ends turns
  rw [whole] at handled
  exact observed_eq_of_outlook hp (fun _ => rfl) ((ends p).trans handled.symm)

section Contested

def contestedBy (n : BitVec 128) : NodeId := ⟨⟨n⟩⟩

def contested : Stored Directory :=
  ⟨{ containers := (∅ : Std.ExtTreeMap ContainerId Container).insert ⟨1⟩
      ⟨⟨⟨1⟩, .closing, 7, none, 0, 0, 0⟩, ∅⟩ }, .empty⟩

def contestants : List (NodeId × NodeReport) :=
  [(contestedBy 1, .full [⟨⟨1⟩, .quasiClosed, 3, 5, 50, none⟩]),
    (contestedBy 2, .incremental [⟨⟨1⟩, .closed, 7, 4, 40, none⟩])]

theorem finished_contested {turns : List Turn}
    (first : ((start contested (reportsOf contestants)).run turns).pending (contestedBy 1) = [])
    (second : ((start contested (reportsOf contestants)).run turns).pending (contestedBy 2) = [])
    (known : ∀ turn ∈ turns, turn.node = contestedBy 1 ∨ turn.node = contestedBy 2) :
    ((start contested (reportsOf contestants)).run turns).Finished := by
  intro node
  by_cases one : node = contestedBy 1
  · rw [one, first]
  by_cases two : node = contestedBy 2
  · rw [two, second]
  refine (List.foldlRecOn (motive := fun w : Workload => w.pending node = []) turns step ?_ ?_)
  · have none : reportsOf contestants node = [] := by
      rw [reportsOf, List.filter_eq_nil_iff.2]
      · rfl
      · simpa [contestants] using And.intro (Ne.symm one) (Ne.symm two)
    simp [start, none]
  · intro w idle turn mem
    rw [w.pending_step_of_ne, idle]
    rintro rfl
    exact (known turn mem).elim one two

/-- Quasi-closed first and then closed, or closed at once: the container ends the same. -/
theorem observed_eq_of_finished_contested :
    ∃ p q : List Turn, p ≠ q ∧ contested.db.Accepts .containers ∧
      ((start contested (reportsOf contestants)).run p).Finished ∧
      ((start contested (reportsOf contestants)).run q).Finished ∧
      ((start contested (reportsOf contestants)).run p).observed ⟨1⟩ =
        ((start contested (reportsOf contestants)).run q).observed ⟨1⟩ ∧
      (((start contested (reportsOf contestants)).run p).observed ⟨1⟩).map Prod.fst = some .closed := by
  let p : List Turn := [⟨contestedBy 1, 1⟩, ⟨contestedBy 1, 2⟩, ⟨contestedBy 2, 3⟩]
  let q : List Turn := [⟨contestedBy 2, 1⟩, ⟨contestedBy 1, 2⟩, ⟨contestedBy 1, 3⟩]
  have accepts : contested.db.Accepts .containers := ⟨⟨∅, rfl⟩, List.not_mem_nil⟩
  have hp : ((start contested (reportsOf contestants)).run p).Finished :=
    finished_contested (by decide +kernel) (by decide +kernel) (by decide)
  have hq : ((start contested (reportsOf contestants)).run q).Finished :=
    finished_contested (by decide +kernel) (by decide +kernel) (by decide)
  exact ⟨p, q, by decide, accepts, hp, hq,
    (observed_eq_of_finished accepts (reportsOf contestants) p q hp hq ⟨1⟩).1, by decide +kernel⟩

end Contested

end Workload

end ClusterCatalog.Directory

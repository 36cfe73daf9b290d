import Mathlib.Data.List.Induction
import ClusterCatalog.Lanes.Timed
import ClusterCatalog.Proofs.Lanes.Ledger
/-!
Lanes that are shut down and drain within the time of grace. Once their workers were started, every job that
was accepted has ended by then; what waits in lanes that were never started is dropped, and they are told to
have drained all the same.
-/
namespace ClusterCatalog

open Ledger (on)

variable {J : Type} {softTimeout now limit since i lane depth : Nat} {overdue : Bool} {task : Task} {queue : List Task}
  {p : Lanes Task}

namespace Lane

def step (l : Lane Task) : LaneStep → Lane Task
  | .take now => l.take now
  | .overrun => { l with running? := l.running?.map fun r => ⟨r.job, r.since, true⟩ }
  | .finish _ => { l with running? := none }

def ended (steps : List LaneStep) : List Task :=
  steps.filterMap fun
    | .finish task => some task
    | _ => none

theorem ended_append (steps more : List LaneStep) : ended (steps ++ more) = ended steps ++ ended more :=
  List.filterMap_append

def work (queue : List Task) : Nat := queue.foldr (fun task n => task.duration + n) 0

/-- A task that ends in time may be slow, and then the worker is idle. -/
theorem course_of_ends (inTime : since + task.duration ≤ limit) (softTimeout : Nat) (overdue : Bool)
    (queue : List Task) : ∃ slow, (slow = [] ∨ slow = [.overrun]) ∧
    task.course softTimeout limit since overdue queue = slow ++ .finish task :: match queue with
      | [] => []
      | next :: rest => .take (since + task.duration) ::
          next.course softTimeout limit (since + task.duration) false rest := by
  refine ⟨if !overdue ∧ since + softTimeout ≤ min limit (since + task.duration) then [.overrun] else [], ?_, ?_⟩
  · split
    · exact .inr rfl
    · exact .inl rfl
  · exact (Task.course.eq_def ..).trans (if_pos inTime)

theorem foldl_finish {slow : List LaneStep} (few : slow = [] ∨ slow = [.overrun]) (r : Running Task)
    (more : List LaneStep) :
    (slow ++ .finish task :: more).foldl step ⟨queue, some r⟩ = more.foldl step ⟨queue, none⟩ := by
  obtain rfl | rfl := few <;> rfl

theorem ended_finish {slow : List LaneStep} (few : slow = [] ∨ slow = [.overrun]) (more : List LaneStep) :
    ended (slow ++ .finish task :: more) = task :: ended more := by
  obtain rfl | rfl := few <;> rfl

/-- A worker that has the time ends the task that it is on, and then all that wait. -/
theorem drained_of_running (inTime : since + task.duration + work queue ≤ limit) (softTimeout : Nat) (overdue : Bool) :
    (task.course softTimeout limit since overdue queue).foldl step ⟨queue, some ⟨task, since, overdue⟩⟩ = {} ∧
      ended (task.course softTimeout limit since overdue queue) = task :: queue := by
  induction queue generalizing task since overdue with
  | nil =>
    obtain ⟨slow, few, course⟩ := course_of_ends inTime softTimeout overdue []
    rw [course, foldl_finish few, ended_finish few]
    exact ⟨rfl, rfl⟩
  | cons next rest ih =>
    have later : since + task.duration + next.duration + work rest ≤ limit := by
      rw [work, List.foldr_cons, ← work] at inTime
      omega
    have inTime' : since + task.duration ≤ limit := by omega
    obtain ⟨slow, few, course⟩ := course_of_ends inTime' softTimeout overdue (next :: rest)
    obtain ⟨idle, all⟩ := ih later false
    rw [course, foldl_finish few, ended_finish few]
    exact ⟨idle, congrArg (task :: ·) all⟩

theorem drained_course {l : Lane Task} (inTime : l.endsAt now ≤ limit) (softTimeout : Nat) :
    (l.course softTimeout now limit).foldl step l = {} ∧ ended (l.course softTimeout now limit) = l.pending := by
  obtain ⟨queue, running?⟩ := l
  cases running? with
  | some r => exact drained_of_running inTime softTimeout r.overdue
  | none =>
    cases queue with
    | nil => exact ⟨rfl, rfl⟩
    | cons task rest =>
      have later : now + task.duration + work rest ≤ limit := by
        rw [endsAt, List.foldr_cons, ← work] at inTime
        dsimp only at inTime
        omega
      exact drained_of_running later softTimeout false

end Lane

namespace Lanes

theorem laneAt_take (works : p.works = true) (now i : Nat) :
    (p.take now lane).laneAt i = if lane = i then (p.laneAt i).take now else p.laneAt i := by
  rw [take, if_pos works, laneAt, laneAt, List.getElem?_modify]
  cases p.lanes[i]? <;> by_cases same : lane = i <;> simp [same, Lane.take]

theorem laneAt_overrun (p : Lanes Task) (lane i : Nat) :
    (p.overrun lane).laneAt i = if lane = i then (p.laneAt i).step .overrun else p.laneAt i := by
  unfold overrun
  split
  case h_1 job since running =>
    obtain ⟨l, found, runs⟩ := lane_of_runningIn? running
    rw [laneAt_set found (modify_eq_set _ found)]
    refine ite_congr rfl (fun same => ?_) fun _ => rfl
    subst same
    rw [laneAt_of_getElem? found, Lane.step, runs]
    rfl
  case h_2 other =>
    split
    case isTrue same =>
      subst same
      rw [runningIn?_eq] at other
      generalize p.laneAt lane = l at other ⊢
      obtain ⟨queue, - | ⟨job, since, - | -⟩⟩ := l
      · rfl
      · exact absurd rfl (other job since)
      · rfl
    case isFalse => rfl

theorem laneAt_finish (p : Lanes Task) (lane : Nat) (task : Task) (i : Nat) :
    (p.finish lane task.succeeds).laneAt i = if lane = i then (p.laneAt i).step (.finish task) else p.laneAt i := by
  obtain ⟨l, r, found, -, ended⟩ | ⟨idle, same⟩ := p.finish_cases lane task.succeeds
  · rw [ended, laneAt_set found rfl]
    refine ite_congr rfl (fun same => ?_) fun _ => rfl
    subst same
    rw [laneAt_of_getElem? found]
    rfl
  · rw [same]
    split
    case isTrue same =>
      subst same
      rw [runningIn?_eq] at idle
      rw [Lane.step, ← idle]
    case isFalse => rfl

/-- A step of one lane leaves the others alone. -/
theorem laneAt_step (works : p.works = true) (s : LaneStep) (i : Nat) :
    (p.step lane s).laneAt i = if lane = i then (p.laneAt i).step s else p.laneAt i := by
  cases s with
  | take now => exact laneAt_take works now i
  | overrun => exact laneAt_overrun p lane i
  | finish task => exact laneAt_finish p lane task i

def workerAct (lane : Nat) : LaneStep → Act Task
  | .take now => .take now lane
  | .overrun => .overrun lane
  | .finish task => .finish lane (if task.succeeds then .succeeded else .failed)

theorem act_workerAct (p : Lanes Task) (lane : Nat) (s : LaneStep) : p.act (workerAct lane s) = p.step lane s := by
  cases s with
  | take now => rfl
  | overrun => rfl
  | finish task =>
    obtain ⟨label, - | -, duration⟩ := task
    · rfl
    · rfl

section Phase

theorem phase_take (p : Lanes J) (now lane : Nat) : (p.take now lane).phase = p.phase := by
  unfold take
  split <;> rfl

theorem phase_overrun (p : Lanes J) (lane : Nat) : (p.overrun lane).phase = p.phase := by
  unfold overrun
  split <;> rfl

theorem phase_finish (p : Lanes J) (lane : Nat) (succeeds : Bool) : (p.finish lane succeeds).phase = p.phase := by
  unfold finish
  split <;> rfl

theorem phase_submit (p : Lanes J) (node : NodeId) (job : J) : (p.submit node job).2.phase = p.phase := by
  obtain ⟨lane, pins, routed, -⟩ := p.exists_route node
  unfold submit
  rw [routed]
  dsimp only
  split
  · rfl
  · split <;> rfl

end Phase

theorem phase_step (p : Lanes Task) (lane : Nat) (s : LaneStep) : (p.step lane s).phase = p.phase := by
  cases s with
  | take now => exact phase_take p now lane
  | overrun => exact phase_overrun p lane
  | finish task => exact phase_finish p lane task.succeeds

theorem works_of_started (started : p.phase = .started) : p.works = true := by
  rw [works, started]
  rfl

/-- A worker does not see whether the intake is closed. -/
theorem step_draining (started : p.phase = .started) (lane : Nat) (s : LaneStep) :
    ({ p with phase := .draining } : Lanes Task).step lane s = { p.step lane s with phase := .draining } := by
  have same : ({ p with phase := .draining } : Lanes Task).runningIn? lane = p.runningIn? lane := rfl
  cases s with
  | take now =>
    dsimp only [step, take]
    rw [if_pos (works_of_started started)]
    rfl
  | overrun =>
    dsimp only [step, overrun]
    rw [same]
    split <;> rfl
  | finish task =>
    dsimp only [step, finish]
    rw [same]
    split <;> rfl

def steps (cs : List (Nat × List LaneStep)) (p : Lanes Task) : Lanes Task :=
  cs.foldl (fun p (lane, steps) => steps.foldl (step lane) p) p

theorem steps_cons (c : Nat × List LaneStep) (cs : List (Nat × List LaneStep)) (p : Lanes Task) :
    steps (c :: cs) p = steps cs (c.2.foldl (step c.1) p) := rfl

variable {cs : List (Nat × List LaneStep)}

theorem steps_invariant (Kept : Lanes Task → Prop) (kept : ∀ {p} lane s, Kept p → Kept (p.step lane s)) (h : Kept p)
    (cs : List (Nat × List LaneStep)) : Kept (p.steps cs) := by
  refine List.foldlRecOn (motive := Kept) cs _ h fun p h c _ => ?_
  exact List.foldlRecOn (motive := Kept) c.2 _ h fun p h s _ => kept c.1 s h

theorem phase_steps (cs : List (Nat × List LaneStep)) (p : Lanes Task) : (p.steps cs).phase = p.phase :=
  steps_invariant (fun q => q.phase = p.phase) (fun lane s same => (phase_step _ lane s).trans same) rfl cs

theorem Open.steps (h : p.Open depth) (cs : List (Nat × List LaneStep)) : (p.steps cs).Open depth :=
  steps_invariant (fun p => p.Open depth) (fun lane s h => act_workerAct _ lane s ▸ h.act _) h cs

theorem foldl_step_draining (started : p.phase = .started) (lane : Nat) (ss : List LaneStep) :
    ss.foldl (step lane) { p with phase := .draining } = { ss.foldl (step lane) p with phase := .draining } := by
  induction ss generalizing p with
  | nil => rfl
  | cons s rest ih =>
    rw [List.foldl_cons, step_draining started, ih ((phase_step p lane s).trans started)]
    rfl

theorem steps_draining (started : p.phase = .started) (cs : List (Nat × List LaneStep)) :
    ({ p with phase := .draining } : Lanes Task).steps cs = { p.steps cs with phase := .draining } := by
  induction cs generalizing p with
  | nil => rfl
  | cons c rest ih =>
    have still : (c.2.foldl (step c.1) p).phase = .started := (phase_steps [c] p).trans started
    rw [steps_cons, foldl_step_draining started, ih still]
    rfl

theorem laneAt_foldl_step (works : p.works = true) (ss : List LaneStep) (i : Nat) :
    (ss.foldl (step lane) p).laneAt i = if lane = i then ss.foldl Lane.step (p.laneAt i) else p.laneAt i := by
  induction ss generalizing p with
  | nil => exact (ite_self _).symm
  | cons s rest ih =>
    have still : (p.step lane s).works = true := by
      rw [Lanes.works, phase_step]
      exact works
    rw [List.foldl_cons, ih still, laneAt_step works]
    split <;> rfl

theorem on_cons {α : Type} (entry : Nat × α) (log : List (Nat × α)) (i : Nat) :
    on i (entry :: log) = if entry.1 = i then entry.2 :: on i log else on i log := by
  by_cases same : entry.1 = i <;> simp [on, same]

/-- What becomes of a lane is what its own steps make of it. -/
theorem laneAt_steps (works : p.works = true) (cs : List (Nat × List LaneStep)) (i : Nat) :
    (p.steps cs).laneAt i = (on i cs).flatten.foldl Lane.step (p.laneAt i) := by
  induction cs generalizing p with
  | nil => rfl
  | cons c rest ih =>
    have still : (c.2.foldl (step c.1) p).works = true := by
      rw [Lanes.works, show (c.2.foldl (step c.1) p).phase = p.phase from phase_steps [c] p]
      exact works
    rw [steps_cons, ih still, laneAt_foldl_step works, on_cons]
    split
    · rw [List.flatten_cons, List.foldl_append]
    · rfl

theorem on_map (lane i : Nat) (tasks : List Task) :
    on i (tasks.map fun task => (lane, task)) = if lane = i then tasks else [] := by
  induction tasks with
  | nil => exact (ite_self _).symm
  | cons task rest ih =>
    rw [List.map_cons, on_cons, ih]
    split <;> rfl

theorem on_finished (cs : List (Nat × List LaneStep)) (i : Nat) :
    on i (cs.flatMap fun (lane, steps) => finished lane steps) = Lane.ended (on i cs).flatten := by
  have own (lane : Nat) (ss : List LaneStep) : finished lane ss = (Lane.ended ss).map fun task => (lane, task) := by
    rw [Lane.ended, List.map_filterMap]
    refine congrArg (List.filterMap · ss) (funext fun s => ?_)
    cases s <;> rfl
  induction cs with
  | nil => rfl
  | cons c rest ih =>
    rw [List.flatMap_cons, Ledger.on_append, ih, on_cons]
    dsimp only
    rw [own, on_map]
    split
    · rw [List.flatten_cons, Lane.ended_append]
    · rfl

theorem on_zip_range {α : Type} (xs : List α) (i : Nat) : on i ((List.range xs.length).zip xs) = xs[i]?.toList := by
  induction xs using List.reverseRecOn with
  | nil => rfl
  | append_singleton xs x ih =>
    rw [List.length_append, List.length_singleton, List.range_succ, List.zip_append List.length_range, Ledger.on_append,
      ih, List.zip_cons_cons, on_cons]
    obtain below | rfl | above := Nat.lt_trichotomy i xs.length
    · rw [List.getElem?_append_left below, if_neg (by dsimp only; omega)]
      exact List.append_nil _
    · simp [on]
    · have old : xs[i]? = none := List.getElem?_eq_none (Nat.le_of_lt above)
      have new : (xs ++ [x])[i]? = none := List.getElem?_eq_none (by rwa [List.length_append, List.length_singleton])
      rw [if_neg (Nat.ne_of_lt above), old, new]
      rfl

theorem on_courses (works : p.works = true) (softTimeout now limit i : Nat) :
    (on i (p.courses softTimeout now limit)).flatten = (p.laneAt i).course softTimeout now limit := by
  have all : p.courses softTimeout now limit =
      (List.range (p.lanes.map (Lane.course softTimeout now limit)).length).zip
        (p.lanes.map (Lane.course softTimeout now limit)) := by
    rw [courses, if_pos works, List.length_map]
  rw [all, on_zip_range, List.getElem?_map, laneAt]
  cases p.lanes[i]? with
  | none => rfl
  | some l => exact List.append_nil _

theorem endsAt_le (p : Lanes Task) (now i : Nat) :
    (p.laneAt i).endsAt now ≤ (p.lanes.map (Lane.endsAt now)).foldl max now := by
  rw [laneAt, List.foldl_max]
  cases found : p.lanes[i]? with
  | none => exact Nat.le_max_left now _
  | some l =>
    have among := List.mem_map_of_mem (f := Lane.endsAt now) (List.mem_of_getElem? found)
    exact Nat.le_trans (List.le_max?_getD_of_mem among) (Nat.le_max_right now _)

/-- Workers that have the time end all that their lanes hold. -/
theorem drained_runUntil (works : p.works = true) (inTime : ∀ i, (p.laneAt i).endsAt now ≤ limit)
    (softTimeout i : Nat) :
    (p.runUntil softTimeout now limit).2.laneAt i = {} ∧
      on i (p.runUntil softTimeout now limit).1 = (p.laneAt i).pending := by
  obtain ⟨idle, all⟩ := Lane.drained_course (inTime i) softTimeout
  have own := on_courses works softTimeout now limit i
  refine ⟨?_, ?_⟩
  · exact (laneAt_steps works _ i).trans (by rw [own, idle])
  · exact (on_finished _ i).trans (by rw [own, all])

theorem runUntil_draining (started : p.phase = .started) (softTimeout now limit : Nat) :
    ({ p with phase := .draining } : Lanes Task).runUntil softTimeout now limit =
      ((p.runUntil softTimeout now limit).1, { (p.runUntil softTimeout now limit).2 with phase := .draining }) := by
  have same : ({ p with phase := .draining } : Lanes Task).courses softTimeout now limit =
      p.courses softTimeout now limit := by
    rw [courses, courses, if_pos (works_of_started started)]
    rfl
  unfold runUntil
  rw [same]
  exact Prod.ext rfl (steps_draining started _)

theorem Open.pending_of_drained (h : p.Open depth) (idle : ∀ i, p.laneAt i = {}) :
    p.counts.submitted = p.counts.completed + p.counts.failed := by
  have none : total (·.pending.length) p.lanes = 0 := by
    have empty : ∀ l ∈ p.lanes, l = {} := by
      intro l mem
      obtain ⟨i, found⟩ := List.getElem?_of_mem mem
      rw [← laneAt_of_getElem? found, idle]
    generalize p.lanes = lanes at empty
    induction lanes with
    | nil => rfl
    | cons l rest ih =>
      obtain ⟨rfl, others⟩ := List.forall_mem_cons.1 empty
      rw [total, List.foldr_cons, ← total, ih others]
      rfl
  have counted := h.counted
  omega

theorem submitted_step (p : Lanes Task) (lane : Nat) (s : LaneStep) :
    (p.step lane s).counts.submitted = p.counts.submitted := by
  cases s with
  | take now =>
    dsimp only [step, take]
    split <;> rfl
  | overrun =>
    dsimp only [step, overrun]
    split <;> rfl
  | finish task =>
    dsimp only [step, finish]
    split <;> rfl

/-- Lanes whose workers end everything in time are left with nothing to do. -/
theorem shutdown_of_drained (started : p.phase = .started) {grace : Nat}
    (drained : (p.shutdown softTimeout now grace).drained = true) : ∃ ends, (∀ i, (p.laneAt i).endsAt now ≤ ends) ∧
      p.shutdown softTimeout now grace =
        ⟨true, ends, (p.runUntil softTimeout now ends).1, (p.runUntil softTimeout now ends).2.abandon⟩ := by
  have closed : p.close = { p with phase := .draining } := by rw [close, started]
  have working : ({ p with phase := .draining } : Lanes Task).works = true := rfl
  refine ⟨(p.lanes.map (Lane.endsAt now)).foldl max now, endsAt_le p now, ?_⟩
  unfold shutdown at drained ⊢
  rw [closed] at drained ⊢
  simp only [working, Bool.not_true, Bool.false_eq_true, if_false] at drained ⊢
  split
  case isTrue =>
    rw [runUntil_draining started]
    rfl
  case isFalse late =>
    rw [if_neg late] at drained
    split at drained <;> cases drained

theorem shutdown_of_waiting (waiting : p.phase = .waiting) (softTimeout now grace : Nat) :
    p.shutdown softTimeout now grace = ⟨true, now, [], p.abandon⟩ := by
  have closed : p.close = p.abandon := by rw [close, waiting]
  unfold shutdown
  rw [closed]
  rfl

structure Over (p : Lanes J) : Prop where
  stopped : p.phase = .stopped
  empty (i : Nat) : p.laneAt i = {}

theorem over_abandon (p : Lanes J) : p.abandon.Over where
  stopped := rfl
  empty i := by
    rw [laneAt, abandon, List.getElem?_map]
    cases p.lanes[i]? <;> rfl

/-- Whatever is done to lanes that are over. -/
theorem Over.act {p : Lanes J} (h : p.Over) (a : Act J) : (p.act a).Over ∧ (p.act a).counts = p.counts := by
  have idle (lane : Nat) : p.runningIn? lane = none := by rw [runningIn?_eq, h.empty]
  have works : p.works = false := by
    rw [Lanes.works, h.stopped]
    rfl
  cases a with
  | route node =>
    obtain ⟨lane, pins, routed, -⟩ := p.exists_route node
    rw [Lanes.act, routed]
    exact ⟨⟨h.stopped, h.empty⟩, rfl⟩
  | submit node job =>
    obtain ⟨lane, pins, routed, -⟩ := p.exists_route node
    have closed : ({ p with pins } : Lanes J).isClosed = true := by
      rw [isClosed, h.stopped]
      rfl
    dsimp only [Lanes.act, Lanes.submit]
    rw [routed]
    dsimp only
    rw [if_pos closed]
    exact ⟨⟨h.stopped, h.empty⟩, rfl⟩
  | start =>
    rw [Lanes.act, Lanes.start, if_neg (by rw [h.stopped]; decide)]
    exact ⟨h, rfl⟩
  | take now lane =>
    rw [Lanes.act, Lanes.take, works]
    exact ⟨h, rfl⟩
  | overrun lane =>
    rw [Lanes.act, Lanes.overrun, idle]
    exact ⟨h, rfl⟩
  | finish lane ending =>
    rw [Lanes.act, Lanes.finish, idle]
    exact ⟨h, rfl⟩

theorem Over.run {p : Lanes J} (h : p.Over) (acts : List (Act J)) :
    (p.run acts).Over ∧ (p.run acts).counts = p.counts := by
  induction acts generalizing p with
  | nil => exact ⟨h, rfl⟩
  | cons a rest ih =>
    obtain ⟨ended, same⟩ := h.act a
    obtain ⟨still, counts⟩ := ih ended
    exact ⟨still, counts.trans same⟩

end Lanes

namespace Ledger

variable {l : Ledger J}

/-- No worker begins a job before the workers are started. -/
theorem begun_record (a : Lanes.Act J) (waiting : (l.record a).lanes.phase = .waiting) :
    l.lanes.phase = .waiting ∧ (l.record a).begun = l.begun := by
  cases a with
  | route node =>
    obtain ⟨lane, pins, routed, -⟩ := l.lanes.exists_route node
    have phase : (l.lanes.route node).2.phase = l.lanes.phase := by rw [routed]
    exact ⟨phase.symm.trans waiting, rfl⟩
  | submit node job =>
    have phase := l.lanes.phase_submit node ⟨node, l.accepted.length, job⟩
    have same : (l.record (.submit node job)).lanes.phase = l.lanes.phase ∧
        (l.record (.submit node job)).begun = l.begun := by
      unfold record
      dsimp only
      split
      case h_1 accepted =>
        rw [accepted] at phase
        exact ⟨phase, rfl⟩
      case h_2 refused =>
        rw [refused] at phase
        exact ⟨phase, rfl⟩
    exact ⟨same.1.symm.trans waiting, same.2⟩
  | start =>
    unfold record Lanes.start at waiting
    dsimp only at waiting
    split at waiting
    · cases waiting
    · exact ⟨waiting, rfl⟩
  | take now lane =>
    have phase := l.lanes.phase_take now lane
    have before : l.lanes.phase = .waiting := by
      unfold record at waiting
      dsimp only at waiting
      split at waiting <;> exact phase.symm.trans waiting
    have idle : l.lanes.take now lane = l.lanes := by
      rw [Lanes.take, Lanes.works, before]
      rfl
    refine ⟨before, ?_⟩
    unfold record
    dsimp only
    rw [idle]
    cases l.lanes.runningIn? lane <;> rfl
  | overrun lane => exact ⟨(l.lanes.phase_overrun lane).symm.trans waiting, rfl⟩
  | finish lane ending =>
    have phase := l.lanes.phase_finish lane ending.isSuccess
    unfold record at waiting ⊢
    dsimp only at waiting ⊢
    split at waiting <;> exact ⟨phase.symm.trans waiting, rfl⟩

theorem begun_run (acts : List (Lanes.Act J)) (waiting : (l.run acts).lanes.phase = .waiting) :
    l.lanes.phase = .waiting ∧ (l.run acts).begun = l.begun := by
  induction acts generalizing l with
  | nil => exact ⟨waiting, rfl⟩
  | cons a rest ih =>
    obtain ⟨still, same⟩ := ih (l := l.record a) waiting
    obtain ⟨before, first⟩ := begun_record a still
    exact ⟨before, same.trans first⟩

/-- What has not begun has not ended. -/
theorem Balanced.ended_eq_nil {p : Lanes J} {depth : Nat} (h : l.Balanced p depth) (begun : l.begun = []) :
    l.ended = [] := by
  refine List.eq_nil_iff_forall_not_mem.2 ?_
  rintro ⟨lane, t⟩ mem
  have early : t ∈ on lane l.begun := by
    rw [h.alone]
    exact List.mem_append_left _ (mem_on.2 mem)
  rw [begun] at early
  cases early

end Ledger

theorem Lane.pending_map {K : Type} (f : J → K) (l : Lane J) : (l.map f).pending = l.pending.map f := by
  obtain ⟨queue, running?⟩ := l
  cases running? with
  | none => rfl
  | some r => rfl

namespace Lanes

theorem laneAt_map {K : Type} (f : J → K) (p : Lanes J) (i : Nat) : (p.map f).laneAt i = (p.laneAt i).map f := by
  rw [laneAt, laneAt, map, List.getElem?_map]
  cases p.lanes[i]? <;> rfl

structure Drained (l : Ledger Task) (p : Lanes Task) (r : Shutdown) : Prop where
  /-- The jobs that had not ended were still ended, in their order. -/
  ended (started : p.phase = .started) (lane : Nat) :
    (on lane l.accepted).map Ticket.job = (on lane l.ended).map Ticket.job ++ on lane r.finished
  /-- Before the workers are started no job has begun, and none begins any more. -/
  lost (waiting : p.phase = .waiting) : l.begun = [] ∧ r.finished = []
  submitted : r.lanes.counts.submitted = l.accepted.length
  balanced_iff : r.lanes.counts.submitted = r.lanes.counts.completed + r.lanes.counts.failed ↔
    p.phase = .started ∨ l.accepted = []
  settled (acts : List (Act Task)) : (r.lanes.run acts).Over ∧ (r.lanes.run acts).counts = r.lanes.counts

/-- A shutdown that tells of drained lanes has ended all accepted jobs if and only if the workers were started, or
there were no jobs. -/
theorem drained_of_shutdown (name : String) (lanes depth : Nat) (acts : List (Act Task)) (softTimeout now grace : Nat)
    (drained : (((create name lanes depth).run acts).shutdown softTimeout now grace).drained = true) :
    Drained (Ledger.run ⟨create name lanes depth, [], [], []⟩ acts) ((create name lanes depth).run acts)
      (((create name lanes depth).run acts).shutdown softTimeout now grace) := by
  have takesIn := (open_create name lanes depth).run acts
  have accounts := Ledger.balanced_run name lanes depth acts
  have unbegun := Ledger.begun_run (l := (⟨create name lanes depth, [], [], []⟩ : Ledger Task)) acts
  generalize Ledger.run (⟨create name lanes depth, [], [], []⟩ : Ledger Task) acts = l at accounts unbegun ⊢
  generalize (create name lanes depth : Lanes Task).run acts = p at drained takesIn accounts ⊢
  have phases : l.lanes.phase = p.phase := congrArg phase accounts.same
  have pending (lane : Nat) : (p.laneAt lane).pending = (l.lanes.laneAt lane).pending.map Ticket.job := by
    rw [← accounts.same, laneAt_map, Lane.pending_map]
  obtain ⟨submitted, finished⟩ := accounts.listed
  have intake := takesIn.intake
  cases phase : p.phase with
  | draining => simp [isClosed, phase] at intake
  | stopped => simp [isClosed, phase] at intake
  | started =>
    obtain ⟨ends, inTime, shut⟩ := shutdown_of_drained phase drained
    have emptied := drained_runUntil (works_of_started phase) inTime softTimeout
    have drainedLanes : ((p.runUntil softTimeout now ends).2).Open (max 1 depth) := takesIn.steps _
    have sameSubmitted : (p.runUntil softTimeout now ends).2.counts.submitted = p.counts.submitted :=
      steps_invariant (fun q => q.counts.submitted = p.counts.submitted)
        (fun lane s same => (submitted_step _ lane s).trans same) rfl _
    rw [shut]
    refine
      { ended := fun _ lane => ?ended
        lost := fun waiting => by rw [phase] at waiting; cases waiting
        submitted := sameSubmitted.trans submitted
        balanced_iff := iff_of_true (drainedLanes.pending_of_drained fun i => (emptied i).1) (.inl phase)
        settled := fun acts => (over_abandon _).run acts }
    case ended =>
      show _ = _ ++ on lane (p.runUntil softTimeout now ends).1
      rw [(emptied lane).2, pending, ← List.map_append, accounts.kept, accounts.alone, List.append_assoc,
        Ledger.running, runningIn?_eq]
      rfl
  | waiting =>
    have begun : l.begun = [] := (unbegun (phases.trans phase)).2
    rw [accounts.ended_eq_nil begun, List.length_nil] at finished
    rw [shutdown_of_waiting phase]
    refine
      { ended := fun started => by rw [phase] at started; cases started
        lost := fun _ => ⟨begun, rfl⟩
        submitted := submitted
        balanced_iff := ?_
        settled := fun acts => (over_abandon _).run acts }
    show p.counts.submitted = p.counts.completed + p.counts.failed ↔ _
    rw [submitted, finished, List.length_eq_zero_iff]
    simp [phase]

section Waiting

def flush : Task := ⟨"flush", true, 5⟩

def retry : Task := ⟨"retry", false, 7⟩

def threeJobs : List (Act Task) :=
  [.submit ⟨⟨3⟩⟩ flush, .submit ⟨⟨3⟩⟩ retry, .start, .take 0 0, .submit ⟨⟨4⟩⟩ flush]

theorem drained_of_shutdown_started :
    (((create "reports" 2 4).run threeJobs).shutdown 1000 3 20).drained = true ∧
    Drained (Ledger.run ⟨create "reports" 2 4, [], [], []⟩ threeJobs) ((create "reports" 2 4).run threeJobs)
      (((create "reports" 2 4).run threeJobs).shutdown 1000 3 20) ∧
    ((create "reports" 2 4).run threeJobs).phase = .started ∧
    (((create "reports" 2 4).run threeJobs).shutdown 1000 3 20).finished = [(0, flush), (0, retry), (1, flush)] :=
  have drained : (((create "reports" 2 4).run threeJobs).shutdown 1000 3 20).drained = true := by decide +kernel
  ⟨drained, drained_of_shutdown "reports" 2 4 threeJobs 1000 3 20 drained, by decide +kernel, by decide +kernel⟩

/-- A job that waits in lanes which were never started does not run, and yet they are told to have drained. -/
theorem lost_by_shutdown :
    (((create "reports" 1 4).run [.submit ⟨⟨3⟩⟩ flush]).shutdown 1000 0 1000).drained = true ∧
    (((create "reports" 1 4).run [.submit ⟨⟨3⟩⟩ flush]).shutdown 1000 0 1000).finished = [] ∧
    (((create "reports" 1 4).run [.submit ⟨⟨3⟩⟩ flush]).shutdown 1000 0 1000).lanes.counts = { submitted := 1 } := by
  decide +kernel

end Waiting

end Lanes

end ClusterCatalog

import ClusterCatalog.Lanes.Basic
/-!
Lanes on a clock. Every task takes a known time, so what happens on a lane up to some moment is a
list of steps: a worker takes its next task at the moment the one before ends.
-/
namespace ClusterCatalog

structure Task where
  label : String
  succeeds : Bool
  duration : Nat
  deriving DecidableEq, Repr

inductive LaneStep where
  | take (now : Nat)
  | overrun
  | finish (task : Task)
  deriving DecidableEq, Repr

namespace Task

/-- What happens up to `limit` on a lane that works on a task since some moment. A task is slow
when it does not end before the soft timeout is over. -/
def course (softTimeout limit since : Nat) (overdue : Bool) (task : Task) (queue : List Task) : List LaneStep :=
  let ends := since + task.duration
  let slow := if !overdue ∧ since + softTimeout ≤ min limit ends then [LaneStep.overrun] else []
  if ends ≤ limit then
    slow ++ .finish task :: match queue with
      | [] => []
      | next :: rest => .take ends :: next.course softTimeout limit ends false rest
  else slow
termination_by structural queue

end Task

namespace Lane

/-- What happens on a lane between two moments. -/
def course (softTimeout now limit : Nat) (lane : Lane Task) : List LaneStep :=
  match lane.running?, lane.queue with
  | some r, queue => r.job.course softTimeout limit r.since r.overdue queue
  | none, task :: rest => .take now :: task.course softTimeout limit now false rest
  | none, [] => []

def endsAt (now : Nat) (lane : Lane Task) : Nat :=
  let queued := lane.queue.foldr (fun task n => task.duration + n) 0
  match lane.running? with
  | some r => r.since + r.job.duration + queued
  | none => now + queued

end Lane

namespace Lanes

def step (lane : Nat) (p : Lanes Task) : LaneStep → Lanes Task
  | .take now => p.take now lane
  | .overrun => p.overrun lane
  | .finish task => p.finish lane task.succeeds

def finished (lane : Nat) (steps : List LaneStep) : List (Nat × Task) :=
  steps.filterMap fun
    | .finish task => some (lane, task)
    | _ => none

def courses (softTimeout now limit : Nat) (p : Lanes Task) : List (Nat × List LaneStep) :=
  if p.works then (List.range p.lanes.length).zip (p.lanes.map (Lane.course softTimeout now limit))
  else []

def runUntil (softTimeout now limit : Nat) (p : Lanes Task) : List (Nat × Task) × Lanes Task :=
  let courses := p.courses softTimeout now limit
  (courses.flatMap fun (lane, steps) => finished lane steps,
    courses.foldl (fun p (lane, steps) => steps.foldl (step lane) p) p)

structure Shutdown where
  drained : Bool
  endedAt : Nat
  finished : List (Nat × Task)
  lanes : Lanes Task

/-- Closes the intake and waits for the queued tasks, but only for the time of grace: what ends
before that is over counts, and all else is abandoned. -/
def shutdown (softTimeout now grace : Nat) (p : Lanes Task) : Shutdown :=
  let p := p.close
  if !p.works then ⟨true, now, [], p⟩
  else
    let ends := (p.lanes.map (Lane.endsAt now)).foldl max now
    if ends < now + grace then
      let (finished, p) := p.runUntil softTimeout now ends
      ⟨true, ends, finished, p.abandon⟩
    else if grace = 0 then ⟨false, now, [], p.abandon⟩
    else
      let (finished, p) := p.runUntil softTimeout now (now + grace - 1)
      ⟨false, now + grace, finished, p.abandon⟩

end Lanes

structure TimedLanes where
  now : Nat := 0
  softTimeout : Nat
  lanes : Lanes Task
  ended : List (Nat × Task) := []

namespace TimedLanes

def advanceTo (limit : Nat) (s : TimedLanes) : TimedLanes :=
  let (ended, lanes) := s.lanes.runUntil s.softTimeout s.now limit
  { s with now := limit, lanes, ended := s.ended ++ ended }

/-- Shuts the lanes down; whether they were drained within the time of grace. -/
def shutdown (grace : Nat) (s : TimedLanes) : Bool × TimedLanes :=
  let r := s.lanes.shutdown s.softTimeout s.now grace
  (r.drained, { s with now := r.endedAt, lanes := r.lanes, ended := s.ended ++ r.finished })

end TimedLanes

end ClusterCatalog

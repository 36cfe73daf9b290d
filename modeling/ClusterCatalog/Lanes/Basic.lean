import ClusterCatalog.Identity
import Std.Data.ExtTreeMap
/-!
Lanes: bounded queues, each drained by one worker. The first job of a node pins the node to a lane,
round robin, and all later jobs of it go there, so that the jobs of one node run in the order in
which they came while those of different nodes run side by side.
-/
namespace ClusterCatalog

structure Running (J : Type) where
  job : J
  since : Nat
  overdue : Bool := false
  deriving DecidableEq, Repr

structure Lane (J : Type) where
  queue : List J := []
  running? : Option (Running J) := none
  deriving DecidableEq, Repr

namespace Lane

variable {J : Type}

instance : Inhabited (Lane J) := ⟨{}⟩

def push (lane : Lane J) (job : J) : Lane J := { lane with queue := lane.queue ++ [job] }

def take (now : Nat) (lane : Lane J) : Lane J :=
  match lane.running?, lane.queue with
  | none, job :: rest => ⟨rest, some ⟨job, now, false⟩⟩
  | _, _ => lane

end Lane

inductive Phase where
  | waiting
  | started
  /-- No more jobs are taken in, but workers go on. -/
  | draining
  | stopped
  deriving DecidableEq, Repr, Inhabited

structure LaneCounts where
  submitted : Nat := 0
  completed : Nat := 0
  failed : Nat := 0
  dropped : Nat := 0
  slow : Nat := 0
  deriving DecidableEq, Repr, Inhabited

inductive SubmitError where
  | closed (executor : String)
  | laneFull (executor : String) (lane : Nat)
  deriving DecidableEq, Repr

def SubmitError.message : SubmitError → String
  | .closed executor => "executor " ++ executor ++ " is closed"
  | .laneFull executor lane => "lane " ++ Nat.repr lane ++ " of executor " ++ executor ++ " is full"

structure Pins where
  table : Std.ExtTreeMap NodeId Nat := ∅
  next : Nat := 0

namespace Pins

instance : EmptyCollection Pins := ⟨{}⟩

instance : GetElem? Pins NodeId Nat fun pins node => node ∈ pins.table where
  getElem pins node h := pins.table.get node h
  getElem? pins node := pins.table[node]?

def deal (node : NodeId) (lanes : Nat) (pins : Pins) : Pins :=
  { table := pins.table.insert node (pins.next % lanes), next := pins.next + 1 }

end Pins

structure Lanes (J : Type) where
  name : String
  depth : Nat
  lanes : List (Lane J)
  pins : Pins := ∅
  phase : Phase := .waiting
  counts : LaneCounts := {}

structure LaneStats where
  lanes : Nat
  pinnedNodes : Nat
  queued : Nat
  counts : LaneCounts
  deriving DecidableEq, Repr

namespace Lanes

variable {J : Type}

def maxDepth : Nat := 2305843009213693951

def create (name : String) (lanes depth : Nat) : Lanes J :=
  { name, depth := max 1 depth, lanes := List.replicate (max 1 lanes) {} }

instance : Inhabited (Lanes J) := ⟨create "" 1 1⟩

def route (node : NodeId) (p : Lanes J) : Nat × Lanes J :=
  match p.pins[node]? with
  | some lane => (lane, p)
  | none => (p.pins.next % p.lanes.length, { p with pins := p.pins.deal node p.lanes.length })

def isClosed (p : Lanes J) : Bool := p.phase == .draining || p.phase == .stopped

def waitingIn (p : Lanes J) (lane : Nat) : Nat := ((p.lanes[lane]?).map (·.queue.length)).getD 0

/-- Queues a job on the lane of its node without waiting. A refused job leaves the pin. -/
def submit (node : NodeId) (job : J) (p : Lanes J) : Except SubmitError Nat × Lanes J :=
  let (lane, p) := p.route node
  if p.isClosed then (.error (.closed p.name), p)
  else if p.depth ≤ p.waitingIn lane then
    (.error (.laneFull p.name lane), { p with counts.dropped := p.counts.dropped + 1 })
  else
    (.ok lane, { p with
      lanes := p.lanes.modify lane (·.push job)
      counts.submitted := p.counts.submitted + 1 })

def start (p : Lanes J) : Lanes J := if p.phase = .waiting then { p with phase := .started } else p

def works (p : Lanes J) : Bool := p.phase == .started || p.phase == .draining

def take (now lane : Nat) (p : Lanes J) : Lanes J :=
  if p.works then { p with lanes := p.lanes.modify lane (Lane.take now) } else p

def runningIn? (p : Lanes J) (lane : Nat) : Option (Running J) := p.lanes[lane]? >>= Lane.running?

def finish (lane : Nat) (succeeds : Bool) (p : Lanes J) : Lanes J :=
  match p.runningIn? lane with
  | none => p
  | some _ => { p with
      lanes := p.lanes.modify lane fun l => { l with running? := none }
      counts.completed := p.counts.completed + if succeeds then 1 else 0
      counts.failed := p.counts.failed + if succeeds then 0 else 1 }

def overrun (lane : Nat) (p : Lanes J) : Lanes J :=
  match p.runningIn? lane with
  | some ⟨job, since, false⟩ => { p with
      lanes := p.lanes.modify lane fun l => { l with running? := some ⟨job, since, true⟩ }
      counts.slow := p.counts.slow + 1 }
  | _ => p

def abandon (p : Lanes J) : Lanes J := { p with lanes := p.lanes.map fun _ => {}, phase := .stopped }

/-- Closes the intake. What was queued before the workers started is lost. -/
def close (p : Lanes J) : Lanes J :=
  match p.phase with
  | .waiting => p.abandon
  | .started => { p with phase := .draining }
  | _ => p

def isIdle (p : Lanes J) : Bool := p.lanes.all fun l => l.queue.isEmpty && l.running?.isNone

def queued (p : Lanes J) : Nat := p.lanes.foldr (fun l n => l.queue.length + n) 0

/-- Queued jobs are not shown once the intake is closed. -/
def stats (p : Lanes J) : LaneStats where
  lanes := p.lanes.length
  pinnedNodes := p.pins.table.size
  queued := if p.isClosed then 0 else p.queued
  counts := p.counts

end Lanes

end ClusterCatalog

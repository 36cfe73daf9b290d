import ClusterCatalog.Bus
import ClusterCatalog.Lanes.Timed
import ClusterCatalog.Wire.Domain
/-! A bus whose handlers take a known time, with the lanes that they run on by name. -/
namespace ClusterCatalog

structure HandlerJob where
  name : String
  succeeds : Bool
  duration : Nat
  deriving DecidableEq, Repr

def HandlerJob.task (job : HandlerJob) (report : Report) : Task :=
  ⟨job.name ++ " " ++ Spelled.spelling report.kind ++ " " ++ report.origin.render, job.succeeds, job.duration⟩

structure TimedBus where
  now : Nat := 0
  softTimeout : Nat
  names : List String
  bus : Bus String HandlerJob := {}
  pools : String → Lanes Task
  ended : List (String × Nat × Task) := []

namespace TimedBus

def setPool (name : String) (pool : Lanes Task) (s : TimedBus) : TimedBus :=
  { s with pools := fun n => if n = name then pool else s.pools n }

def addEnded (name : String) (ended : List (Nat × Task)) (s : TimedBus) : TimedBus :=
  { s with ended := s.ended ++ ended.map fun (lane, task) => (name, lane, task) }

def runPool (limit : Nat) (s : TimedBus) (name : String) : TimedBus :=
  let (ended, pool) := (s.pools name).runUntil s.softTimeout s.now limit
  (s.setPool name pool).addEnded name ended

def advanceTo (limit : Nat) (s : TimedBus) : TimedBus :=
  { s.names.foldl (runPool limit) s with now := limit }

def publish (report : Report) (s : TimedBus) : Except SubmitError Nat × TimedBus :=
  let (result, bus, pools) := s.bus.publish HandlerJob.task report s.pools
  (result, { s with bus, pools })

/-- Shuts some lanes down; whether they were drained. The others go on while that is waited for:
with no time of grace, or without workers that still go on, it is not. -/
def shutdown (name : String) (grace : Nat) (s : TimedBus) : Bool × TimedBus :=
  let pool := s.pools name
  let r := pool.shutdown s.softTimeout s.now grace
  let s := s.setPool name r.lanes
  let s := if pool.works ∧ 0 < grace then s.advanceTo r.endedAt else s
  (r.drained, s.addEnded name r.finished)

end TimedBus

end ClusterCatalog

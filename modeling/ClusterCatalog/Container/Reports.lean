import ClusterCatalog.Container.Directory
/-!
Container reports. A full report lists all replicas of its node, so what it leaves out is gone; an
incremental one lists changes.
-/
namespace ClusterCatalog

structure Tally where
  applied : Nat := 0
  transitions : Nat := 0
  removed : Nat := 0
  unknown : Nat := 0
  failed : Nat := 0
  deriving DecidableEq, Repr, Inhabited

namespace Tally

def fault (t : Tally) : ContainerError → Tally
  | .notFound _ => { t with unknown := t.unknown + 1 }
  | _ => { t with failed := t.failed + 1 }

def addApplied (t : Tally) : Except ContainerError ReplicaOutcome → Tally
  | .ok outcome => { t with
      applied := t.applied + 1
      transitions := t.transitions + if outcome.newState?.isSome then 1 else 0 }
  | .error e => t.fault e

def addRemoved (t : Tally) : Except ContainerError (Option Replica) → Tally
  | .ok (some _) => { t with removed := t.removed + 1 }
  | .ok none => t
  | .error e => t.fault e

end Tally

namespace Directory

variable {ε : Type}

def applyReport (now : Millis) (node : NodeId) (tally : Tally) (report : ReplicaReport) :
    Action (Stored Directory) ε Tally :=
  tally.addApplied <$> (applyReplica now (report.toReplica node)).attempt

def dropReplica (node : NodeId) (tally : Tally) (id : ContainerId) : Action (Stored Directory) ε Tally :=
  tally.addRemoved <$> (removeReplica id node).attempt

def applyChange (now : Millis) (node : NodeId) (tally : Tally) (report : ReplicaReport) :
    Action (Stored Directory) ε Tally :=
  if report.state = .deleted then dropReplica node tally report.container
  else applyReport now node tally report

def dropMissing (node : NodeId) (tally : Tally) (id : ContainerId) : Action (Stored Directory) ε Tally := do
  match ← (removeReplica id node).attempt with
  | .ok (some _) => return { tally with removed := tally.removed + 1 }
  | _ => return tally

def incrementalReport (now : Millis) (node : NodeId) (replicas : List ReplicaReport) :
    Action (Stored Directory) ε Tally :=
  replicas.foldlM (applyChange now node) {}

def fullReport (now : Millis) (node : NodeId) (replicas : List ReplicaReport) :
    Action (Stored Directory) ε Tally := do
  let tally ← replicas.foldlM (applyReport now node) {}
  let held := (← Stored.getView).onNode node
  (held.filter fun id => replicas.all (·.container != id)).foldlM (dropMissing node) tally

end Directory

end ClusterCatalog

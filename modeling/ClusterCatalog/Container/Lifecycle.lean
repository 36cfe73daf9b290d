/-!
The lifecycle of a container. `next?` is the table of edges; `decide` turns the evidence of one
replica into the edge that it justifies, and never closes a container on a replica whose sequence
number is not the container's own.
-/
namespace ClusterCatalog

inductive Lifecycle where
  | opened
  | closing
  | quasiClosed
  | closed
  | deleting
  | deleted
  deriving DecidableEq, Repr, Inhabited

inductive ReplicaState where
  | opened
  | closing
  | quasiClosed
  | closed
  | deleted
  | unhealthy
  deriving DecidableEq, Repr, Inhabited

namespace Lifecycle

/-- What moves a container along. `finalize`, `delete` and `cleanup` are asked for from outside;
the three closing events are justified by replicas. -/
inductive Event where
  | finalize
  | quasiClose
  | close
  | forceClose
  | delete
  | cleanup
  deriving DecidableEq, Repr, Inhabited

def next? : Lifecycle → Event → Option Lifecycle
  | .opened, .finalize => some .closing
  | .closing, .quasiClose => some .quasiClosed
  | .closing, .close => some .closed
  | .quasiClosed, .forceClose => some .closed
  | .closed, .delete => some .deleting
  | .deleting, .cleanup => some .deleted
  | _, _ => none

def isTerminal : Lifecycle → Bool
  | .closed | .deleted => true
  | _ => false

inductive Decision where
  | fire (event : Event)
  | noOp
  | ignored
  | sequenceMismatch (replica container : UInt64)
  deriving DecidableEq, Repr

def Decision.event? : Decision → Option Event
  | .fire event => some event
  | _ => none

/-- A closed replica closes the container only at the container's own sequence number. -/
def fireAtSequence (event : Event) (replica container : UInt64) : Decision :=
  if replica = container then .fire event else .sequenceMismatch replica container

def decide (state : Lifecycle) (replica : ReplicaState) (replicaSequence sequence : UInt64) : Decision :=
  match state, replica with
  | .closing, .quasiClosed => .fire .quasiClose
  | .closing, .closed => fireAtSequence .close replicaSequence sequence
  | .quasiClosed, .closed => fireAtSequence .forceClose replicaSequence sequence
  | .deleted, _ => .ignored
  | _, _ => .noOp

end Lifecycle

end ClusterCatalog

import ClusterCatalog.Identity
import ClusterCatalog.Container.Lifecycle
import Std.Data.ExtTreeMap
/-! Containers and their replicas, as they are known, reported and remembered. -/
namespace ClusterCatalog

abbrev Millis := UInt64

structure ContainerInfo where
  id : ContainerId
  state : Lifecycle
  /-- The write generation that the container believes it is on. -/
  sequence : UInt64
  pipeline? : Option PipelineId
  usedBytes : UInt64
  keyCount : UInt64
  stateEntered : Millis
  deriving DecidableEq, Repr

def ContainerInfo.fresh (now : Millis) (id : ContainerId) (state : Lifecycle)
    (pipeline? : Option PipelineId) : ContainerInfo :=
  ⟨id, state, 0, pipeline?, 0, 0, now⟩

structure Replica where
  container : ContainerId
  node : NodeId
  state : ReplicaState
  sequence : UInt64
  keyCount : UInt64
  bytesUsed : UInt64
  origin : NodeId
  deriving DecidableEq, Repr

def Replica.key (r : Replica) : ReplicaKey := ⟨r.container, r.node⟩

structure ReplicaReport where
  container : ContainerId
  state : ReplicaState
  sequence : UInt64
  keyCount : UInt64
  bytesUsed : UInt64
  origin? : Option NodeId
  deriving DecidableEq, Repr

def ReplicaReport.toReplica (r : ReplicaReport) (node : NodeId) : Replica :=
  ⟨r.container, node, r.state, r.sequence, r.keyCount, r.bytesUsed, r.origin?.getD node⟩

structure Sighting where
  container : ContainerId
  node : NodeId
  firstSeen : Millis
  lastSeen : Millis
  sequence : UInt64
  state : ReplicaState
  deriving DecidableEq, Repr

def Sighting.key (s : Sighting) : ReplicaKey := ⟨s.container, s.node⟩

structure Container where
  info : ContainerInfo
  replicas : Std.ExtTreeMap NodeId Replica := ∅
  deriving DecidableEq

end ClusterCatalog

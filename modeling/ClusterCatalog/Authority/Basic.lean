import ClusterCatalog.Container.Basic
import ClusterCatalog.Pipeline.Basic
/-! What the authority tells of containers and their replicas. -/
namespace ClusterCatalog

structure ContainerSummary where
  id : ContainerId
  state : Lifecycle
  sequence : UInt64
  pipeline? : Option PipelineId
  usedBytes : UInt64
  keyCount : UInt64
  deriving DecidableEq, Repr

def ContainerSummary.toInfo (s : ContainerSummary) (now : Millis) : ContainerInfo :=
  ⟨s.id, s.state, s.sequence, s.pipeline?, s.usedBytes, s.keyCount, now⟩

structure ReplicaSummary where
  container : ContainerId
  node : NodeId
  state : ReplicaState
  sequence : UInt64
  keyCount : UInt64
  bytesUsed : UInt64
  origin? : Option NodeId
  deriving DecidableEq, Repr

def ReplicaSummary.toReplica (s : ReplicaSummary) : Replica :=
  ⟨s.container, s.node, s.state, s.sequence, s.keyCount, s.bytesUsed, s.origin?.getD s.node⟩

structure ContainerWithPipeline where
  container : ContainerSummary
  pipeline? : Option Pipeline
  deriving DecidableEq, Repr

end ClusterCatalog

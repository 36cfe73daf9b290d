import ClusterCatalog.Container.Basic
import ClusterCatalog.Node.Basic
import ClusterCatalog.Pipeline.Basic
/-! The reports that nodes send, by kind. -/
namespace ClusterCatalog

inductive ReportKind where
  | nodeHeartbeat
  | containerReport
  | incrementalContainerReport
  | pipelineReport
  | nodeStateChange
  deriving DecidableEq, Repr, Inhabited

def ReportKind.all : List ReportKind :=
  [.nodeHeartbeat, .containerReport, .incrementalContainerReport, .pipelineReport, .nodeStateChange]

inductive Report where
  | nodeHeartbeat (heartbeat : Heartbeat)
  | containerReport (node : NodeId) (replicas : List ReplicaReport)
  | incrementalContainerReport (node : NodeId) (replicas : List ReplicaReport)
  | pipelineReport (node : NodeId) (pipelines : List PipelineReport)
  | nodeStateChange (node : NodeId) (health : NodeHealth)
  deriving DecidableEq, Repr

namespace Report

def kind : Report → ReportKind
  | .nodeHeartbeat _ => .nodeHeartbeat
  | .containerReport _ _ => .containerReport
  | .incrementalContainerReport _ _ => .incrementalContainerReport
  | .pipelineReport _ _ => .pipelineReport
  | .nodeStateChange _ _ => .nodeStateChange

def origin : Report → NodeId
  | .nodeHeartbeat heartbeat => heartbeat.details.id
  | .containerReport node _ => node
  | .incrementalContainerReport node _ => node
  | .pipelineReport node _ => node
  | .nodeStateChange node _ => node

end Report

end ClusterCatalog

import ClusterCatalog.Identity
/-! Pipelines: groups of nodes that jointly host the replicas written through them. -/
namespace ClusterCatalog

inductive PipelineState where
  | allocated
  | opened
  | closed
  deriving DecidableEq, Repr, Inhabited

structure Pipeline where
  id : PipelineId
  nodes : List NodeId
  state : PipelineState
  deriving DecidableEq, Repr

def Pipeline.hasMember (p : Pipeline) (node : NodeId) : Bool := p.nodes.contains node

structure PipelineReport where
  pipeline : PipelineId
  members : List NodeId
  deriving DecidableEq, Repr

end ClusterCatalog

import ClusterCatalog.Identity
import ClusterCatalog.Net.Address
/-! Storage nodes: what they announce about themselves and what is known of their health. -/
namespace ClusterCatalog

inductive NodeHealth where
  | healthy
  | healthyReadonly
  | stale
  | dead
  deriving DecidableEq, Repr, Inhabited

def NodeHealth.isHealthy : NodeHealth → Bool
  | .healthy | .healthyReadonly => true
  | .stale | .dead => false

inductive OperationalState where
  | inService
  | decommissioning
  | decommissioned
  | enteringMaintenance
  | inMaintenance
  deriving DecidableEq, Repr, Inhabited

structure NodeDetails where
  id : NodeId
  hostname : String
  address : SocketAddress
  deriving DecidableEq, Repr

def NodeDetails.unresolved (id : NodeId) : NodeDetails := ⟨id, id.render, .unspecified⟩

structure Heartbeat where
  details : NodeDetails
  readonly : Bool
  deriving DecidableEq, Repr

structure NodeRow where
  details : NodeDetails
  opState : OperationalState
  deriving DecidableEq, Repr

abbrev Instant := Nat

structure Node where
  details : NodeDetails
  opState : OperationalState
  health : NodeHealth
  /-- `none` until a heartbeat or a health check starts the node's clock. -/
  lastHeartbeat? : Option Instant
  deriving DecidableEq, Repr

namespace Node

def row (n : Node) : NodeRow := ⟨n.details, n.opState⟩

def ofRow (r : NodeRow) : Node := ⟨r.details, r.opState, .healthy, none⟩

end Node

end ClusterCatalog

import ClusterCatalog.Report
import ClusterCatalog.Authority.Basic
import ClusterCatalog.Wire.Form
/-! JSON forms of containers, nodes, pipelines and of what the authority tells of them. -/
namespace ClusterCatalog

open Json Wire

instance : Spelled Lifecycle where
  all := [.opened, .closing, .quasiClosed, .closed, .deleting, .deleted]
  spelling
    | .opened => "OPEN"
    | .closing => "CLOSING"
    | .quasiClosed => "QUASI_CLOSED"
    | .closed => "CLOSED"
    | .deleting => "DELETING"
    | .deleted => "DELETED"

instance : Spelled Lifecycle.Event where
  all := [.finalize, .quasiClose, .close, .forceClose, .delete, .cleanup]
  spelling
    | .finalize => "FINALIZE"
    | .quasiClose => "QUASI_CLOSE"
    | .close => "CLOSE"
    | .forceClose => "FORCE_CLOSE"
    | .delete => "DELETE"
    | .cleanup => "CLEANUP"

instance : Spelled ReplicaState where
  all := [.opened, .closing, .quasiClosed, .closed, .deleted, .unhealthy]
  spelling
    | .opened => "OPEN"
    | .closing => "CLOSING"
    | .quasiClosed => "QUASI_CLOSED"
    | .closed => "CLOSED"
    | .deleted => "DELETED"
    | .unhealthy => "UNHEALTHY"

instance : Spelled NodeHealth where
  all := [.healthy, .healthyReadonly, .stale, .dead]
  spelling
    | .healthy => "HEALTHY"
    | .healthyReadonly => "HEALTHY_READONLY"
    | .stale => "STALE"
    | .dead => "DEAD"

instance : Spelled OperationalState where
  all := [.inService, .decommissioning, .decommissioned, .enteringMaintenance, .inMaintenance]
  spelling
    | .inService => "IN_SERVICE"
    | .decommissioning => "DECOMMISSIONING"
    | .decommissioned => "DECOMMISSIONED"
    | .enteringMaintenance => "ENTERING_MAINTENANCE"
    | .inMaintenance => "IN_MAINTENANCE"

instance : Spelled PipelineState where
  all := [.allocated, .opened, .closed]
  spelling
    | .allocated => "ALLOCATED"
    | .opened => "OPEN"
    | .closed => "CLOSED"

instance : Spelled ReportKind where
  all := ReportKind.all
  spelling
    | .nodeHeartbeat => "node_heartbeat"
    | .containerReport => "container_report"
    | .incrementalContainerReport => "incremental_container_report"
    | .pipelineReport => "pipeline_report"
    | .nodeStateChange => "node_state_change"

instance : Wire ReplicaKey where
  write k := .array [write k.container, write k.node]
  read?
    | .array [container, node] => do return ⟨← read? container, ← read? node⟩
    | _ => none

instance : Wire ContainerInfo where
  write i := .object [("id", write i.id), ("state", write i.state), ("sequence_id", write i.sequence),
    ("pipeline_id", write i.pipeline?), ("used_bytes", write i.usedBytes),
    ("key_count", write i.keyCount), ("state_entered_ms", write i.stateEntered)]
  read? v := do
    let [id, state, sequence, pipeline, used, keys, entered] ← slots ["id", "state", "sequence_id",
      "pipeline_id", "used_bytes", "key_count", "state_entered_ms"] v | none
    return ⟨← id.required, ← state.required, ← sequence.required, ← pipeline.optional,
      ← used.required, ← keys.required, ← entered.required⟩

instance : Wire Replica where
  write r := .object [("container_id", write r.container), ("node_id", write r.node),
    ("state", write r.state), ("sequence_id", write r.sequence), ("key_count", write r.keyCount),
    ("bytes_used", write r.bytesUsed), ("origin_node_id", write r.origin)]
  read? v := do
    let [container, node, state, sequence, keys, used, origin] ← slots ["container_id", "node_id",
      "state", "sequence_id", "key_count", "bytes_used", "origin_node_id"] v | none
    return ⟨← container.required, ← node.required, ← state.required, ← sequence.required,
      ← keys.required, ← used.required, ← origin.required⟩

instance : Wire ReplicaReport where
  write r := .object [("container_id", write r.container), ("state", write r.state),
    ("sequence_id", write r.sequence), ("key_count", write r.keyCount),
    ("bytes_used", write r.bytesUsed), ("origin_node_id", write r.origin?)]
  read? v := do
    let [container, state, sequence, keys, used, origin] ← slots ["container_id", "state",
      "sequence_id", "key_count", "bytes_used", "origin_node_id"] v | none
    return ⟨← container.required, ← state.required, ← sequence.required, ← keys.orElse 0,
      ← used.orElse 0, ← origin.orElse none⟩

instance : Wire Sighting where
  write s := .object [("container_id", write s.container), ("node_id", write s.node),
    ("first_seen_ms", write s.firstSeen), ("last_seen_ms", write s.lastSeen),
    ("sequence_id", write s.sequence), ("state", write s.state)]
  read? v := do
    let [container, node, first, last, sequence, state] ← slots ["container_id", "node_id",
      "first_seen_ms", "last_seen_ms", "sequence_id", "state"] v | none
    return ⟨← container.required, ← node.required, ← first.required, ← last.required,
      ← sequence.required, ← state.required⟩

def Container.write (c : Container) : Value :=
  .object [("info", Wire.write c.info), ("replicas", Wire.write c.replicas.values)]

instance : Wire NodeDetails where
  write d := .object [("id", write d.id), ("hostname", write d.hostname), ("addr", write d.address)]
  read? v := do
    let [id, hostname, address] ← slots ["id", "hostname", "addr"] v | none
    return ⟨← id.required, ← hostname.required, ← address.required⟩

instance : Wire Heartbeat where
  write h := .object [("details", write h.details), ("readonly", write h.readonly)]
  read? v := do
    let [details, readonly] ← slots ["details", "readonly"] v | none
    return ⟨← details.required, ← readonly.orElse false⟩

instance : Wire NodeRow where
  write r := .object [("details", write r.details), ("op_state", write r.opState)]
  read? v := do
    let [details, opState] ← slots ["details", "op_state"] v | none
    return ⟨← details.required, ← opState.required⟩

instance : Wire Node where
  write n := .object [("details", write n.details), ("op_state", write n.opState),
    ("health", write n.health)]
  read? v := do
    let [details, opState, health] ← slots ["details", "op_state", "health"] v | none
    return ⟨← details.required, ← opState.required, ← health.required, none⟩

instance : Wire Pipeline where
  write p := .object [("id", write p.id), ("nodes", write p.nodes), ("state", write p.state)]
  read? v := do
    let [id, nodes, state] ← slots ["id", "nodes", "state"] v | none
    return ⟨← id.required, ← nodes.required, ← state.required⟩

instance : Wire PipelineReport where
  write r := .object [("pipeline_id", write r.pipeline), ("members", write r.members)]
  read? v := do
    let [pipeline, members] ← slots ["pipeline_id", "members"] v | none
    return ⟨← pipeline.required, ← members.required⟩

instance : Wire ContainerSummary where
  write s := .object [("id", write s.id), ("state", write s.state), ("sequence_id", write s.sequence),
    ("pipeline_id", write s.pipeline?), ("used_bytes", write s.usedBytes),
    ("key_count", write s.keyCount)]
  read? v := do
    let [id, state, sequence, pipeline, used, keys] ← slots ["id", "state", "sequence_id",
      "pipeline_id", "used_bytes", "key_count"] v | none
    return ⟨← id.required, ← state.required, ← sequence.required, ← pipeline.orElse none,
      ← used.orElse 0, ← keys.orElse 0⟩

instance : Wire ReplicaSummary where
  write s := .object [("container_id", write s.container), ("node_id", write s.node),
    ("state", write s.state), ("sequence_id", write s.sequence), ("key_count", write s.keyCount),
    ("bytes_used", write s.bytesUsed), ("origin_node_id", write s.origin?)]
  read? v := do
    let [container, node, state, sequence, keys, used, origin] ← slots ["container_id", "node_id",
      "state", "sequence_id", "key_count", "bytes_used", "origin_node_id"] v | none
    return ⟨← container.required, ← node.required, ← state.required, ← sequence.required,
      ← keys.orElse 0, ← used.orElse 0, ← origin.orElse none⟩

instance : Wire ContainerWithPipeline where
  write c := .object [("container", write c.container), ("pipeline", write c.pipeline?)]
  read? v := do
    let [container, pipeline] ← slots ["container", "pipeline"] v | none
    return ⟨← container.required, ← pipeline.orElse none⟩

end ClusterCatalog

import ClusterCatalog.Node.Basic
import ClusterCatalog.Storage.Live
/-!
The known nodes. Silence moves a node from healthy to stale to dead, and only a heartbeat brings it
back. Health is not stored; details and operational state are, before they change here.
-/
namespace ClusterCatalog

abbrev NodeRegistry := Std.ExtTreeMap NodeId Node

inductive NodeError where
  | notFound (id : NodeId)
  | store (cause : StoreError)
  deriving DecidableEq, Repr

def NodeError.message : NodeError → String
  | .notFound id => "node " ++ id.render ++ " not found"
  | .store cause => "node store error: " ++ cause.message

structure Silence where
  stale : Nat
  dead : Nat
  deriving DecidableEq, Repr

namespace NodeRegistry

def store (node : Node) : Action (Stored NodeRegistry) NodeError Unit :=
  Stored.onStore ((TypedTable.nodes.put node.details.id node.row).relabel .store)

def keep {ε : Type} (node : Node) : Action (Stored NodeRegistry) ε Unit :=
  Stored.modifyView fun nodes => nodes.insert node.details.id node

def healthOf (h : Heartbeat) : NodeHealth := if h.readonly then .healthyReadonly else .healthy

def heartbeat (now : Instant) (h : Heartbeat) : Action (Stored NodeRegistry) NodeError (Option NodeHealth) := do
  let health := healthOf h
  match (← Stored.getView)[h.details.id]? with
  | none =>
    let node : Node := ⟨h.details, .inService, health, some now⟩
    store node
    keep node
    return none
  | some known =>
    let node : Node := { known with details := h.details, health, lastHeartbeat? := some now }
    if known.details ≠ h.details then store node
    keep node
    return some known.health

def register (id : NodeId) : Action (Stored NodeRegistry) NodeError Bool := do
  if (← Stored.getView).contains id then return false
  let node : Node := ⟨.unresolved id, .inService, .healthy, none⟩
  store node
  keep node
  return true

def getNode (id : NodeId) : Action (Stored NodeRegistry) NodeError Node := do
  match (← Stored.getView)[id]? with
  | none => throw (.notFound id)
  | some node => return node

def setOpState (id : NodeId) (state : OperationalState) : Action (Stored NodeRegistry) NodeError Unit := do
  let node ← getNode id
  if node.opState ≠ state then
    let node := { node with opState := state }
    store node
    keep node

def matching (nodes : NodeRegistry) (opState? : Option OperationalState) (health? : Option NodeHealth) :
    List Node :=
  nodes.values.filter fun node =>
    opState?.all (· == node.opState) && health?.all (· == node.health)

def markStale (id : NodeId) : Action (Stored NodeRegistry) NodeError Bool := do
  let node ← getNode id
  if node.health.isHealthy then keep { node with health := .stale }
  return node.health.isHealthy

def markDead (id : NodeId) : Action (Stored NodeRegistry) NodeError Bool := do
  let node ← getNode id
  if node.health ≠ .dead then keep { node with health := .dead }
  return node.health != .dead

def afterSilence (limits : Silence) (health : NodeHealth) (silent : Nat) : NodeHealth :=
  if limits.dead < silent then .dead
  else if limits.stale < silent ∧ health.isHealthy then .stale
  else health

/-- One node at a check. A node that never sent a heartbeat starts its clock. -/
def checked (limits : Silence) (now : Instant) (node : Node) : Node :=
  match node.lastHeartbeat? with
  | none => { node with lastHeartbeat? := some now }
  | some last => { node with health := afterSilence limits node.health (now - last) }

def change? (limits : Silence) (now : Instant) (node : Node) : Option (NodeId × NodeHealth) :=
  let health := (checked limits now node).health
  if health = node.health then none else some (node.details.id, health)

def changes (limits : Silence) (now : Instant) (nodes : NodeRegistry) : List (NodeId × NodeHealth) :=
  nodes.values.filterMap (change? limits now)

def checkHealth (limits : Silence) (now : Instant) (nodes : NodeRegistry) : NodeRegistry :=
  nodes.map fun _ node => checked limits now node

/-- Takes over a stored row; the health of a known node stays. -/
def accept (nodes : NodeRegistry) (row : NodeRow) : NodeRegistry :=
  nodes.insert row.details.id <| match nodes[row.details.id]? with
    | some node => { node with details := row.details, opState := row.opState }
    | none => .ofRow row

def reload (nodes : NodeRegistry) (rows : List NodeRow) : NodeRegistry := rows.foldl accept nodes

def load (nodes : NodeRegistry) (db : Database) : Except StoreError (Nat × NodeRegistry) := do
  let rows ← TypedTable.nodes.values db
  return (rows.length, nodes.reload rows)

end NodeRegistry

end ClusterCatalog

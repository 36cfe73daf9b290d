import ClusterCatalog.Container.Error
import ClusterCatalog.Container.History
/-!
One container, held by one caller at a time. A change of its metadata is stored before it is made,
so a refused write leaves the container as it was.
-/
namespace ClusterCatalog

structure Held where
  container : Container
  history : History
  db : Database

structure ReplicaOutcome where
  decision : Lifecycle.Decision
  newState? : Option Lifecycle
  deriving DecidableEq, Repr

namespace Held

def getInfo : Action Held ContainerError ContainerInfo := (·.container.info) <$> get

def persist (info : ContainerInfo) : Action Held ContainerError Unit := do
  ((TypedTable.containers.put info.id info).relabel .store).within Held.db fun h db => { h with db }
  modify fun h => { h with container := { h.container with info } }

def transition (now : Millis) (event : Lifecycle.Event) : Action Held ContainerError Lifecycle := do
  let info ← getInfo
  match info.state.next? event with
  | none => throw (.invalidTransition info.id info.state event)
  | some state =>
    persist { info with state, stateEntered := now }
    return state

/-- Whether a replica in this state tells the final size of a container in that state. -/
def tellsSize : Lifecycle → ReplicaState → Bool
  | .quasiClosed, .quasiClosed | .closed, .closed => true
  | _, _ => false

def raised (info : ContainerInfo) (replica : Replica) : ContainerInfo :=
  { info with
    usedBytes := max info.usedBytes replica.bytesUsed
    keyCount := max info.keyCount replica.keyCount }

def raiseSize (replica : Replica) : Action Held ContainerError Unit := do
  let info ← getInfo
  if tellsSize info.state replica.state ∧
      (info.usedBytes < replica.bytesUsed ∨ info.keyCount < replica.keyCount) then
    persist (raised info replica)

def keepOrigin (c : Container) (replica : Replica) : Replica :=
  match c.replicas[replica.node]? with
  | some known => { replica with origin := known.origin }
  | none => replica

def update (now : Millis) (replica : Replica) : Action Held ContainerError Unit := do
  let replica := keepOrigin (← get).container replica
  raiseSize replica
  modify fun h =>
    { h with
      history := h.history.record now replica
      container := { h.container with replicas := h.container.replicas.insert replica.node replica } }

def tryTransition (now : Millis) (event : Lifecycle.Event) :
    Action Held ContainerError (Option Lifecycle) :=
  tryCatch (some <$> transition now event) fun
    | .invalidTransition .. => return none
    | e => throw e

def apply (now : Millis) (replica : Replica) : Action Held ContainerError ReplicaOutcome := do
  let info ← getInfo
  let decision := Lifecycle.decide info.state replica.state replica.sequence info.sequence
  match decision with
  | .ignored => return ⟨decision, none⟩
  | .fire event =>
    let newState? ← tryTransition now event
    update now replica
    return ⟨decision, newState?⟩
  | .noOp | .sequenceMismatch .. =>
    update now replica
    return ⟨decision, none⟩

def removeReplica (node : NodeId) : Action Held ContainerError (Option Replica) := do
  let removed? := (← get).container.replicas[node]?
  modify fun h => { h with container := { h.container with replicas := h.container.replicas.erase node } }
  return removed?

end Held

end ClusterCatalog

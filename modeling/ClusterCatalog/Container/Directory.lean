import ClusterCatalog.Container.Held
/-! The directory of containers: an identifier leads to metadata, replicas and history. -/
namespace ClusterCatalog

structure Directory where
  containers : Std.ExtTreeMap ContainerId Container := ∅
  history : History := {}
  deriving DecidableEq

namespace Directory

instance : Inhabited Directory := ⟨{}⟩

def list (d : Directory) : List Container := d.containers.values

def listByState (d : Directory) (state : Lifecycle) : List ContainerInfo :=
  (d.list.map Container.info).filter (·.state == state)

def get? (d : Directory) (id : ContainerId) : Except ContainerError Container :=
  match d.containers[id]? with
  | some c => .ok c
  | none => .error (.notFound id)

def size (d : Directory) : Nat := d.containers.size

def onNode (d : Directory) (node : NodeId) : List ContainerId :=
  (d.containers.filter fun _ c => c.replicas.contains node).keys

def withContainer {α : Type} (id : ContainerId) (work : Action Held ContainerError α) :
    Action (Stored Directory) ContainerError α := fun s =>
  match s.view.containers[id]? with
  | none => (.error (.notFound id), s)
  | some container =>
    let (result, held) := work.run ⟨container, s.view.history, s.db⟩
    (result, ⟨⟨s.view.containers.insert id held.container, held.history⟩, held.db⟩)

def add (info : ContainerInfo) : Action (Stored Directory) ContainerError Unit := do
  if (← Stored.getView).containers.contains info.id then throw (.alreadyExists info.id)
  Stored.onStore ((TypedTable.containers.put info.id info).relabel .store)
  Stored.onStore ((Counter.observe Counter.containerId info.id.value).relabel .store)
  Stored.modifyView fun d => { d with containers := d.containers.insert info.id ⟨info, ∅⟩ }

def create (now : Millis) (id : ContainerId) (state : Lifecycle) (pipeline? : Option PipelineId) :
    Action (Stored Directory) ContainerError ContainerInfo := do
  let info := ContainerInfo.fresh now id state pipeline?
  add info
  return info

def allocate (now : Millis) (pipeline? : Option PipelineId) :
    Action (Stored Directory) ContainerError ContainerInfo := do
  let id ← Stored.onStore ((Counter.next Counter.containerId).relabel .store)
  create now ⟨id⟩ .opened pipeline?

def transition (now : Millis) (id : ContainerId) (event : Lifecycle.Event) :
    Action (Stored Directory) ContainerError Lifecycle :=
  withContainer id (Held.transition now event)

def updateReplica (now : Millis) (replica : Replica) : Action (Stored Directory) ContainerError Unit :=
  withContainer replica.container (Held.update now replica)

def applyReplica (now : Millis) (replica : Replica) :
    Action (Stored Directory) ContainerError ReplicaOutcome :=
  withContainer replica.container (Held.apply now replica)

def removeReplica (id : ContainerId) (node : NodeId) :
    Action (Stored Directory) ContainerError (Option Replica) :=
  withContainer id (Held.removeReplica node)

def removeReplicasOf {ε : Type} (node : NodeId) : Action (Stored Directory) ε Nat := do
  (← Stored.getView).onNode node |>.foldlM (fun removed id => do
    match ← (removeReplica id node).attempt with
    | .ok (some _) => return removed + 1
    | _ => return removed) 0

def flushHistory : Action (Stored Directory) StoreError Nat :=
  History.flush.within (fun s => ⟨s.view.history, s.db⟩) fun s h =>
    ⟨{ s.view with history := h.view }, h.db⟩

def accept (containers : Std.ExtTreeMap ContainerId Container) (info : ContainerInfo) :
    Std.ExtTreeMap ContainerId Container :=
  containers.insert info.id ⟨info, ((containers[info.id]?).map Container.replicas).getD ∅⟩

/-- Takes over the rows of a store. Containers that are not among them are dropped; those that are
keep their replicas. -/
def reload (d : Directory) (infos : List ContainerInfo) (history : List Sighting) : Directory where
  containers := infos.foldl accept (d.containers.filter fun id _ => infos.any (·.id == id))
  history := d.history.reload history

def load (d : Directory) (db : Database) : Except StoreError (Nat × Directory) := do
  let infos ← TypedTable.containers.values db
  let history ← TypedTable.replicaHistory.values db
  return (infos.length, d.reload infos history)

end Directory

end ClusterCatalog

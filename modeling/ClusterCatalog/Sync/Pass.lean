import ClusterCatalog.Settings
import ClusterCatalog.Sync.Activity
/-!
Reconciliation passes, at most one at a time. A pass compares counts; when they are far apart it
takes a snapshot of the authority, otherwise it goes through the authority's containers one by one.
No error escapes from a pass: it is recorded, and the next pass tries again.
-/
namespace ClusterCatalog.Sync

structure Guard where
  taken : Bool := false
  deriving DecidableEq, Repr, Inhabited

namespace Guard

def acquire? (g : Guard) : Option Guard := if g.taken then none else some ⟨true⟩

def release (_ : Guard) : Guard := ⟨false⟩

end Guard

def distance (a b : UInt64) : UInt64 := if a ≤ b then b - a else a - b

def diverged (here authoritative threshold : UInt64) : Bool := threshold < distance here authoritative

structure State where
  catalog : Catalog
  guard : Guard := {}
  status : Status := {}

namespace State

variable {ε α : Type}

def onCatalog (a : Action Catalog ε α) : Activity State (Except ε α) :=
  .act (a.within State.catalog fun s catalog => { s with catalog })

def inProgress (s : State) : Bool := s.guard.taken

def release (s : State) : State := { s with guard := s.guard.release }

end State

def registerNodes (replicas : List ReplicaSummary) : Action Catalog CatalogError Unit :=
  replicas.forM fun r => Catalog.register r.node

namespace DiffReport

def fail (r : DiffReport) : DiffReport := { r with failed := r.failed + 1 }

def addApplied (r : DiffReport) : Except ContainerError ReplicaOutcome → DiffReport
  | .ok outcome => { r with
      applied := r.applied + 1
      transitions := r.transitions + if outcome.newState?.isSome then 1 else 0 }
  | .error _ => r.fail

end DiffReport

def applyReplicas (now : Millis) (replicas : List ReplicaSummary) (r : DiffReport) :
    Action Held ContainerError DiffReport :=
  replicas.foldlM (fun r s => r.addApplied <$> (Held.apply now s.toReplica).attempt) r

def takeReplicas (id : ContainerId) (replicas : List ReplicaSummary) (r : DiffReport) :
    Action Catalog CatalogError DiffReport := do
  registerNodes replicas
  let now := (← get).clock
  (Catalog.onDirectory (Directory.withContainer id (applyReplicas now replicas r))).relabel .container

def addContainer (given : ContainerWithPipeline) : Action Catalog CatalogError Bool := do
  if let some p := given.pipeline? then
    discard ((Catalog.onPipelines (PipelineRegistry.add p)).relabel .store)
  let info := given.container.toInfo (← get).clock
  match ← (Catalog.onDirectory (Directory.add info)).attempt with
  | .ok () => return true
  | .error (.alreadyExists _) => return false
  | .error e => throw (.container e)

def fetchContainer (id : ContainerId) : Activity State (Option Bool) := do
  if (← get).catalog.directory.containers.contains id then return some false
  match ← Activity.ask (.containerWithPipeline id) with
  | .error _ => return none
  | .ok given => return (← State.onCatalog (addContainer given)).toOption

def syncContainer (r : DiffReport) (s : ContainerSummary) : Activity State DiffReport := do
  match ← Activity.ask (.replicas s.id) with
  | .error _ => return r.fail
  | .ok replicas =>
    match ← fetchContainer s.id with
    | none => return r.fail
    | some added =>
      let r := if added then { r with added := r.added + 1 } else r
      match ← State.onCatalog (takeReplicas s.id replicas r) with
      | .error _ => return r.fail
      | .ok r => return r

def syncContainers (r : DiffReport) : List ContainerSummary → Activity State DiffReport
  | [] => return r
  | s :: rest => do syncContainers (← syncContainer r s) rest

def diff : Activity State Outcome := do
  match ← Activity.ask .containers with
  | .error e => return .failed e.message
  | .ok [] => return .nothingFromAuthority
  | .ok listing => return .incremental (← syncContainers { seen := listing.length } listing)

def resync : Activity State Outcome := do
  match ← Activity.ask .snapshot with
  | .error e => return .failed e.message
  | .ok none => return .nothingFromAuthority
  | .ok (some snapshot) =>
    match ← Activity.install snapshot with
    | .error e => return .failed e.message
    | .ok report => return .fullResync report

/-- Whether a snapshot is called for; the own containers are counted before the authority is asked. -/
def needsResync (settings : Settings) : Activity State (Except AuthorityError Bool) := do
  let own := UInt64.ofNat (← get).catalog.directory.size
  match ← Activity.ask .count with
  | .error e => return .error e
  | .ok count => return .ok (diverged own count settings.containerThreshold && settings.snapshotSync)

def guarded {α : Type} (otherwise : α) (work : Activity State α) : Activity State α := do
  match (← get).guard.acquire? with
  | none => return otherwise
  | some guard =>
    modify fun s => { s with guard }
    let result ← work
    modify State.release
    return result

def recorded (work : Activity State Outcome) : Activity State Outcome := do
  modify fun s => { s with status := s.status.started s.catalog.clock }
  let outcome ← work
  modify fun s => { s with status := s.status.finished s.catalog.clock outcome }
  return outcome

def pass (settings : Settings) : Activity State Outcome :=
  guarded .skipped <| recorded do
    match ← needsResync settings with
    | .error e => return .failed e.message
    | .ok true => resync
    | .ok false => diff

def fullResync : Activity State Outcome := guarded .skipped (recorded resync)

def incrementalDiff : Activity State Outcome := guarded .skipped (recorded diff)

def syncPipelines : Activity State (Except String PipelineTally) := do
  match ← Activity.ask .pipelines with
  | .error e => return .error e.message
  | .ok pipelines =>
    return (← State.onCatalog (Catalog.onPipelines (PipelineRegistry.replaceWith pipelines))).mapError
      StoreError.message

def startup (settings : Settings) : Activity State (Except String Unit) :=
  guarded (.ok ()) do
    match ← needsResync settings with
    | .error e => return .error e.message
    | .ok true => match ← recorded resync with
      | .failed reason => return .error ("startup resync failed: " ++ reason)
      | _ => return .ok ()
    | .ok false => return (← syncPipelines).map fun _ => ()

end ClusterCatalog.Sync

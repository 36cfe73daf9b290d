import ClusterCatalog.Authority.Question
import ClusterCatalog.Catalog.Basic
import ClusterCatalog.Sync.Outcome
/-!
Putting a snapshot in the place of the live store. It is moved under a fresh name, opened and read;
then the rows of the nodes, which only the live store has, are copied over and the views are taken
over from it. Whatever fails before leaves the catalog as it was.
-/
namespace ClusterCatalog.Sync

inductive InstallError where
  | staging (path : String) (cause : StoreError)
  | store (cause : StoreError)
  deriving DecidableEq, Repr

/-- Staging is a task of its own, whose number is not told when it breaks off. -/
def InstallError.message : InstallError → String
  | .staging path (.io fault) => "staging snapshot " ++ path ++ ": " ++ fault.message
  | .staging _ .exhausted => "task <n> panicked with message \"" ++ StoreError.exhausted.message ++ "\""
  | .staging _ cause => cause.message
  | .store cause => cause.message

structure Incoming where
  db : Database
  infos : List ContainerInfo
  history : List Sighting
  pipelines : List Pipeline

def greatestId? (infos : List ContainerInfo) : Option UInt64 := (infos.map fun i => i.id.value).max?

def raiseCounter (infos : List ContainerInfo) : Action Database StoreError Unit :=
  match greatestId? infos with
  | none => return ()
  | some id => Counter.observe Counter.containerId id

def Incoming.read (db : Database) : Except StoreError Incoming := do
  let infos ← TypedTable.containers.values db
  let history ← TypedTable.replicaHistory.values db
  let pipelines ← TypedTable.pipelines.values db
  match (raiseCounter infos).run db with
  | (.ok (), db) => return ⟨db, infos, history, pipelines⟩
  | (.error e, _) => throw e

def carryNodes (old : Database) : Action Database StoreError (Nat × List NodeRow) := do
  let copied ← TypedTable.nodes.copyFrom old
  let rows ← Action.ofExcept (TypedTable.nodes.values (← get))
  return (copied, rows)

def takeOver (c : Catalog) (live : Live) (incoming : Incoming) (nodes : List NodeRow) : Catalog :=
  { c with
    directory := c.directory.reload incoming.infos incoming.history
    pipelines := PipelineRegistry.reload incoming.pipelines
    nodes := c.nodes.reload nodes
    live }

def discardStore (c : Catalog) (name : String) : Catalog :=
  { c with disk := (c.disk.remove name).toOption.getD c.disk }

def goLive (home name : String) (file : StoreFile) : Action Catalog StoreError ResyncReport := fun c =>
  match file.load >>= Incoming.read with
  | .error e => (.error e, c)
  | .ok incoming =>
    match c.live.swap ⟨name, incoming.db⟩ carryNodes with
    | (.error e, _) => (.error e, c)
    | (.ok (copied, nodes), live, old) =>
      (.ok ⟨home ++ "/" ++ name, incoming.infos.length, incoming.pipelines.length, copied⟩,
        discardStore (takeOver c live incoming nodes) old.location)

def install (home : String) (snapshot : Snapshot) : Action Catalog InstallError ResyncReport := fun c =>
  match c.disk.stage c.clock snapshot.file? with
  | .error e => (.error (.staging snapshot.path e), c)
  | .ok (name, disk) =>
    match (goLive home name (snapshot.file?.getD .missing)).run { c with disk } with
    | (.ok report, c) => (.ok report, c)
    | (.error e, c) => (.error (.store e), discardStore c name)

end ClusterCatalog.Sync

import ClusterCatalog.Container.Reports
import ClusterCatalog.Node.Registry
import ClusterCatalog.Pipeline.Registry
import ClusterCatalog.Report
import ClusterCatalog.Storage.Layout
/-!
The catalog: all that is known of containers, nodes and pipelines, the live store behind it, and
the directory that holds the stores. Opening one starts from the last known store.
-/
namespace ClusterCatalog

structure Catalog where
  clock : Millis
  instant : Instant := 0
  directory : Directory := {}
  nodes : NodeRegistry := ∅
  pipelines : PipelineRegistry := ∅
  live : Live
  /-- The store directories. What it holds for the live store is as old as its opening. -/
  disk : Layout StoreFile

inductive CatalogError where
  | container (cause : ContainerError)
  | node (cause : NodeError)
  | store (cause : StoreError)
  deriving DecidableEq, Repr

def CatalogError.message : CatalogError → String
  | .container cause => cause.message
  | .node cause => cause.message
  | .store cause => cause.message

namespace Catalog

variable {ε α : Type}

def onDirectory (a : Action (Stored Directory) ε α) : Action Catalog ε α :=
  a.within (fun c => ⟨c.directory, c.live.db⟩) fun c s =>
    { c with directory := s.view, live := { c.live with db := s.db } }

def onNodes (a : Action (Stored NodeRegistry) ε α) : Action Catalog ε α :=
  a.within (fun c => ⟨c.nodes, c.live.db⟩) fun c s =>
    { c with nodes := s.view, live := { c.live with db := s.db } }

def onPipelines (a : Action (Stored PipelineRegistry) ε α) : Action Catalog ε α :=
  a.within (fun c => ⟨c.pipelines, c.live.db⟩) fun c s =>
    { c with pipelines := s.view, live := { c.live with db := s.db } }

def register (node : NodeId) : Action Catalog CatalogError Unit :=
  discard ((onNodes (NodeRegistry.register node)).relabel .node)

def closePipelines (node : NodeId) : Action Catalog CatalogError Unit :=
  discard ((onPipelines (PipelineRegistry.closeOn node)).relabel .store)

def receive : Report → Action Catalog CatalogError Unit
  | .nodeHeartbeat h => do
    let c ← get
    discard ((onNodes (NodeRegistry.heartbeat c.instant h)).relabel .node)
  | .containerReport node replicas => do
    register node
    let c ← get
    discard (onDirectory (Directory.fullReport c.clock node replicas))
  | .incrementalContainerReport node replicas => do
    register node
    let c ← get
    discard (onDirectory (Directory.incrementalReport c.clock node replicas))
  | .pipelineReport node entries => do
    register node
    discard ((onPipelines (PipelineRegistry.report node entries)).relabel .store)
  | .nodeStateChange node .stale => closePipelines node
  | .nodeStateChange node .dead => do
    closePipelines node
    discard (onDirectory (Directory.removeReplicasOf node))
  | .nodeStateChange _ _ => return ()

structure Loaded where
  containers : Nat
  nodes : Nat
  pipelines : Nat
  deriving DecidableEq, Repr

def loadDirectory : Action Catalog StoreError Nat := do
  let c ← get
  let (count, directory) ← Action.ofExcept (c.directory.load c.live.db)
  set { c with directory }
  return count

def loadNodes : Action Catalog StoreError Nat := do
  let c ← get
  let (count, nodes) ← Action.ofExcept (c.nodes.load c.live.db)
  set { c with nodes }
  return count

def loadPipelines : Action Catalog StoreError Nat := do
  let c ← get
  let (count, pipelines) ← Action.ofExcept (PipelineRegistry.load c.live.db)
  set { c with pipelines }
  return count

def load : Action Catalog StoreError Loaded := do
  let nodes ← loadNodes
  let containers ← loadDirectory
  return ⟨containers, nodes, ← loadPipelines⟩

def openLast (clock : Millis) : Action (Layout StoreFile) StoreError Live := do
  let disk ← get
  let name ← Action.ofExcept (disk.lastKnown clock)
  let file := (disk.content? name).getD .missing
  set (disk.put name file)
  let db ← Action.ofExcept file.load
  set (disk.put name (.database db))
  return ⟨name, db⟩

def start (clock : Millis) : Action (Layout StoreFile) StoreError (Loaded × Catalog) := do
  let live ← openLast clock
  match load.run { clock, live, disk := ← get } with
  | (.ok loaded, c) => return (loaded, c)
  | (.error e, _) => throw e

def park (c : Catalog) : Layout StoreFile := c.disk.put c.live.location (.database c.live.db)

end Catalog

end ClusterCatalog

import ClusterCatalog.Storage.TypedTable
/-! Stores that are made from rows, each under its own key. -/
namespace ClusterCatalog

structure StoredRows where
  containers : List ContainerInfo := []
  history : List Sighting := []
  nodes : List NodeRow := []
  pipelines : List Pipeline := []
  counters : List (String × UInt64) := []
  deriving DecidableEq

def StoredRows.write (rows : StoredRows) : Action Database StoreError Unit := do
  discard (TypedTable.containers.putAll (rows.containers.map fun i => (i.id, i)))
  discard (TypedTable.replicaHistory.putAll (rows.history.map fun s => (s.key, s)))
  discard (TypedTable.nodes.putAll (rows.nodes.map fun r => (r.details.id, r)))
  discard (TypedTable.pipelines.putAll (rows.pipelines.map fun p => (p.id, p)))
  discard (TypedTable.counters.putAll rows.counters)

def Database.ofRows (rows : StoredRows) : Database := rows.write.state .empty

end ClusterCatalog

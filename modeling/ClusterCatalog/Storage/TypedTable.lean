import ClusterCatalog.Codec.Key
import ClusterCatalog.Codec.Value
import ClusterCatalog.Storage.Database
/-!
The tables of a store as maps of keys to values. Reading a row decodes it, so it can fail where
writing cannot; counting and deleting look at keys only. One of the tables holds counters; a counter that
was never written stands at zero.
-/
namespace ClusterCatalog

open Codec (Bytes)

structure TypedTable (κ α : Type) where
  name : TableName
  key : KeyCodec κ
  value : Codec α

namespace TypedTable

def containers : TypedTable ContainerId ContainerInfo := ⟨.containers, .container, .containerInfo⟩

def replicaHistory : TypedTable ReplicaKey Sighting := ⟨.replicaHistory, .replica, .sighting⟩

def nodes : TypedTable NodeId NodeRow := ⟨.nodes, .node, .nodeRow⟩

def pipelines : TypedTable PipelineId Pipeline := ⟨.pipelines, .pipeline, .pipeline⟩

def counters : TypedTable String UInt64 := ⟨.counters, .text, .word⟩

variable {κ α : Type} (t : TypedTable κ α)

def insertRow (rows : Rows) (row : κ × α) : Rows :=
  rows.insert (t.key.encode row.1) (t.value.encode row.2)

def put (key : κ) (value : α) : Action Database StoreError Unit :=
  Database.write t.name fun rows => ((), t.insertRow rows (key, value))

def putAll (given : List (κ × α)) : Action Database StoreError Nat :=
  Database.write t.name fun rows => (given.length, given.foldl t.insertRow rows)

def delete (key : κ) : Action Database StoreError Bool :=
  Database.write t.name fun rows => (rows.contains (t.key.encode key), rows.erase (t.key.encode key))

def decodeValue (bytes : Bytes) : Except StoreError α :=
  match t.value.decodeFront bytes with
  | some value => .ok value
  | none => .error (.badValue t.name)

def decodeRow (row : Bytes × Bytes) : Except StoreError (κ × α) :=
  match t.key.decode row.1 with
  | none => .error (.badKey t.name)
  | some key => (t.decodeValue row.2).map (key, ·)

def get (db : Database) (key : κ) : Except StoreError (Option α) := do
  match (← db.rows? t.name)[t.key.encode key]? with
  | none => return none
  | some bytes => return some (← t.decodeValue bytes)

def count (db : Database) : Except StoreError Nat := (db.rows? t.name).map (·.size)

def list (db : Database) : Except StoreError (List (κ × α)) := do
  (← db.rows? t.name).toList.mapM t.decodeRow

def values (db : Database) : Except StoreError (List α) := (t.list db).map (·.map Prod.snd)

def copyFrom (source : Database) : Action Database StoreError Nat := do
  let rows ← Action.ofExcept (source.rows? t.name)
  Database.write t.name fun own =>
    (rows.size, rows.toList.foldl (fun own row => own.insert row.1 row.2) own)

end TypedTable

namespace Counter

def current (db : Database) (name : String) : Except StoreError UInt64 :=
  (TypedTable.counters.get db name).map (·.getD 0)

def next (name : String) : Action Database StoreError UInt64 := do
  let value ← Action.ofExcept (current (← get) name)
  if value.toNat + 1 < UInt64.size then
    TypedTable.counters.put name (value + 1)
    return value + 1
  else throw .exhausted

def observe (name : String) (value : UInt64) : Action Database StoreError Unit := do
  if (← Action.ofExcept (current (← get) name)) < value then
    TypedTable.counters.put name value

def containerId : String := "container_id"

end Counter

end ClusterCatalog

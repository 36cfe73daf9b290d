import ClusterCatalog.Storage.TypedTable
import ClusterCatalog.Wire.Domain
/-! The rows of a table as JSON, each a pair of key and value. -/
namespace ClusterCatalog

open Json Wire

structure TableForm where
  {κ α : Type}
  [keyForm : Wire κ]
  [valueForm : Wire α]
  table : TypedTable κ α

namespace TableForm

def ofName : TableName → TableForm
  | .containers => ⟨.containers⟩
  | .replicaHistory => ⟨.replicaHistory⟩
  | .nodes => ⟨.nodes⟩
  | .pipelines => ⟨.pipelines⟩
  | .counters => ⟨.counters⟩

instance (t : TableForm) : Wire t.κ := t.keyForm

instance (t : TableForm) : Wire t.α := t.valueForm

def readRow? (t : TableForm) : Value → Option (t.κ × t.α)
  | .array [key, value] => do return (← read? key, ← read? value)
  | _ => none

def rows (t : TableForm) (db : Database) : Except StoreError Value :=
  (t.table.list db).map fun rows => .array (rows.map fun (key, value) => .array [write key, write value])

end TableForm

end ClusterCatalog

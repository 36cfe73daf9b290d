import ClusterCatalog.Action
import ClusterCatalog.Codec.Word
import ClusterCatalog.Storage.Error
import Std.Data.ExtTreeMap
/-!
A store: named tables of rows, each row a key and a value in bytes. Every write is one transaction
on one table; a write that is refused leaves all rows as they were.
-/
namespace ClusterCatalog

open Codec (Bytes)

abbrev Rows := Std.ExtTreeMap Bytes Bytes

inductive Table where
  | rows (rows : Rows)
  /-- A table with another kind of rows; every access fails. -/
  | foreign
  deriving DecidableEq

structure Database where
  tables : TableName → Table
  /-- Which of the coming writes on a table are refused; after these all are taken. -/
  refusals : TableName → List Bool

namespace Database

def empty : Database := ⟨fun _ => .rows ∅, fun _ => []⟩

instance : Inhabited Database := ⟨empty⟩

def setTable (db : Database) (name : TableName) (table : Table) : Database :=
  { db with tables := fun n => if n = name then table else db.tables n }

def rows? (db : Database) (name : TableName) : Except StoreError Rows :=
  match db.tables name with
  | .rows rows => .ok rows
  | .foreign => .error .foreignTable

def dropRefusal (db : Database) (name : TableName) : Database :=
  { db with refusals := fun n => if n = name then (db.refusals n).tail else db.refusals n }

def write {α : Type} (name : TableName) (change : Rows → α × Rows) : Action Database StoreError α :=
  fun db => match db.tables name with
    | .foreign => (.error .foreignTable, db)
    | .rows rows => match (db.refusals name).head? with
      | some true => (.error .refused, db.dropRefusal name)
      | _ => (.ok (change rows).1, (db.dropRefusal name).setTable name (.rows (change rows).2))

def sound (db : Database) : Bool := TableName.all.all fun name => db.tables name != .foreign

@[simp] theorem tables_setTable (db : Database) (name : TableName) (table : Table) :
    (db.setTable name table).tables name = table := if_pos rfl

theorem tables_setTable_of_ne (db : Database) {name other : TableName} (h : other ≠ name)
    (table : Table) : (db.setTable name table).tables other = db.tables other := if_neg h

end Database

inductive StoreFile where
  | missing
  | garbage
  | database (db : Database)

/-- Opening makes an empty store where there is none, and visits every table. -/
def StoreFile.load : StoreFile → Except StoreError Database
  | .missing => .ok .empty
  | .garbage => .error .notADatabase
  | .database db => if db.sound then .ok db else .error .foreignTable

end ClusterCatalog

/-!
TOML documents as a tree that remembers how each table came to be, since that decides what may
still be added to it.
-/
namespace ClusterCatalog.Toml

inductive Value where
  | string (text : String)
  | integer (n : Int)
  | float
  | boolean (b : Bool)
  | moment
  | array (items : List Value)
  | table (entries : List (String × Value))
  deriving Repr, Inhabited

inductive Origin where
  | implied
  | header
  | dotted
  deriving DecidableEq, Repr

inductive Node where
  | value (v : Value)
  | table (origin : Origin) (entries : List (String × Node))
  | tables (closed : List (List (String × Node))) (last : List (String × Node))
  deriving Inhabited

abbrev Entries := List (String × Node)

namespace Entries

def set (name : String) (node : Node) : Entries → Entries
  | [] => [(name, node)]
  | (n, x) :: rest => if n = name then (name, node) :: rest else (n, x) :: set name node rest

inductive Header where
  | table
  | element
  deriving DecidableEq

/-- Opens the table that a header names. A table may have one header, and none if a dotted key has
made it. -/
def openHeader (kind : Header) : List String → Entries → Option Entries
  | [], _ => none
  | [name], entries =>
    match kind, entries.lookup name with
    | .table, none => some (entries.set name (.table .header []))
    | .table, some (.table .implied inner) => some (entries.set name (.table .header inner))
    | .table, _ => none
    | .element, none => some (entries.set name (.tables [] []))
    | .element, some (.tables closed last) => some (entries.set name (.tables (closed ++ [last]) []))
    | .element, _ => none
  | name :: path, entries =>
    match entries.lookup name with
    | none => (openHeader kind path []).map fun inner => entries.set name (.table .implied inner)
    | some (.table origin inner) =>
      (openHeader kind path inner).map fun inner => entries.set name (.table origin inner)
    | some (.tables closed last) =>
      (openHeader kind path last).map fun last => entries.set name (.tables closed last)
    | some (.value _) => none

/-- Gives a dotted key its value. Its tables may have no header, and the last one is made by dotted
keys alone. -/
def assign (v : Value) : List String → Entries → Option Entries
  | [], _ => none
  | [name], entries =>
    match entries.lookup name with
    | none => some (entries.set name (.value v))
    | some _ => none
  | name :: path, entries =>
    match entries.lookup name with
    | none => (assign v path []).map fun inner => entries.set name (.table .dotted inner)
    | some (.table origin inner) =>
      if origin = .header ∨ origin = .implied ∧ path.length = 1 then none
      else (assign v path inner).map fun inner => entries.set name (.table origin inner)
    | some (.tables closed last) =>
      if path.length = 1 then none
      else (assign v path last).map fun last => entries.set name (.tables closed last)
    | some (.value _) => none

def within (f : Entries → Option Entries) : List String → Entries → Option Entries
  | [], entries => f entries
  | name :: path, entries =>
    match entries.lookup name with
    | some (.table origin inner) =>
      (within f path inner).map fun inner => entries.set name (.table origin inner)
    | some (.tables closed last) =>
      (within f path last).map fun last => entries.set name (.tables closed last)
    | _ => none

end Entries

mutual

def Node.toValue : Node → Value
  | .value v => v
  | .table _ entries => .table (entryValues entries)
  | .tables closed last => .array (tableValues closed ++ [.table (entryValues last)])

def entryValues : List (String × Node) → List (String × Value)
  | [] => []
  | (name, node) :: rest => (name, node.toValue) :: entryValues rest

def tableValues : List (List (String × Node)) → List Value
  | [] => []
  | entries :: rest => .table (entryValues entries) :: tableValues rest

end

end ClusterCatalog.Toml

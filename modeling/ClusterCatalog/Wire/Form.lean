import ClusterCatalog.Identity
import ClusterCatalog.Net.Address
import ClusterCatalog.Json.Value
/-!
The JSON form of a type: `write` and `read?`. A structure is read from an object, whose unknown
members are skipped and whose known ones may not be repeated, or from an array of its fields.
-/
namespace ClusterCatalog

open Json

class Wire (α : Type) where
  write : α → Value
  read? : Value → Option α

class Spelled (α : Type) where
  all : List α
  spelling : α → String

namespace Wire

/-- A spelled value is its word; reading also takes an object whose one member is that word with
null. -/
instance {α : Type} [Spelled α] : Wire α where
  write a := .string (Spelled.spelling a)
  read?
    | .string word => Spelled.all.find? (Spelled.spelling · == word)
    | .object [(word, .null)] => Spelled.all.find? (Spelled.spelling · == word)
    | _ => none

instance : Wire UInt64 where
  write := Value.word
  read?
    | .number (.natural n) => if n < UInt64.size then some (UInt64.ofNat n) else none
    | _ => none

instance : Wire Bool where
  write := Value.bool
  read?
    | .bool b => some b
    | _ => none

instance : Wire String where
  write := Value.string
  read?
    | .string text => some text
    | _ => none

instance : Wire ContainerId where
  write id := write id.value
  read? v := (read? v).map ContainerId.mk

instance : Wire Uuid where
  write u := .string u.render
  read?
    | .string text => Uuid.parse? text.toList
    | _ => none

instance : Wire NodeId where
  write id := .string id.render
  read?
    | .string text => NodeId.parse? text
    | _ => none

instance : Wire PipelineId where
  write id := .string id.render
  read?
    | .string text => PipelineId.parse? text
    | _ => none

instance : Wire SocketAddress where
  write a := .string a.render
  read?
    | .string text => SocketAddress.parse? text
    | _ => none

instance {α : Type} [Wire α] : Wire (Option α) where
  write
    | none => .null
    | some a => write a
  read?
    | .null => some none
    | v => (read? v).map some

instance {α : Type} [Wire α] : Wire (List α) where
  write items := .array (items.map write)
  read?
    | .array items => items.mapM read?
    | _ => none

inductive Slot where
  | found (v : Value)
  | missing
  | short

def slots (names : List String) : Value → Option (List Slot)
  | .object members =>
    if names.any fun name => 1 < (members.filter (·.1 == name)).length then none
    else some (names.map fun name => ((members.lookup name).map Slot.found).getD .missing)
  | .array items =>
    if items.length ≤ names.length then
      some (items.map Slot.found ++ List.replicate (names.length - items.length) .short)
    else none
  | _ => none

namespace Slot

variable {α : Type} [Wire α]

def required : Slot → Option α
  | found v => read? v
  | _ => none

def optional : Slot → Option (Option α)
  | found v => read? v
  | missing => some none
  | short => none

def orElse (default : α) : Slot → Option α
  | found v => read? v
  | _ => some default

end Slot

end Wire

end ClusterCatalog

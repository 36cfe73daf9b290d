import ClusterCatalog.Storage.Database
import ClusterCatalog.Text.Decimal
/-!
The directory that holds the stores. Each store has a directory of its own, named by a stamp; the
one with the greatest stamp is the last known store. Names that carry no stamp are left alone.
-/
namespace ClusterCatalog

inductive Entry (α : Type) where
  | file
  | directory (content : α)
  deriving DecidableEq, Repr

structure Layout (α : Type) where
  entries : Std.ExtTreeMap String (Entry α) := ∅

namespace Layout

variable {α : Type}

instance : Inhabited (Layout α) := ⟨{}⟩

def stampPrefix : String := "scm-"

def directoryName (stamp : UInt64) : String := stampPrefix ++ Decimal.render stamp

def stamp? (name : String) : Option UInt64 :=
  if stampPrefix.toList.isPrefixOf name.toList then Decimal.parse? (name.toList.drop stampPrefix.length)
  else none

def exists? (layout : Layout α) (name : String) : Bool := layout.entries.contains name

def content? (layout : Layout α) (name : String) : Option α :=
  match layout.entries[name]? with
  | some (.directory content) => some content
  | _ => none

def put (layout : Layout α) (name : String) (content : α) : Layout α :=
  ⟨layout.entries.insert name (.directory content)⟩

def names (layout : Layout α) : List String := layout.entries.keys

def stamped? : String × Entry α → Option (UInt64 × String)
  | (name, .directory _) => (stamp? name).map (·, name)
  | (_, .file) => none

def stamped (layout : Layout α) : List (UInt64 × String) := layout.entries.toList.filterMap stamped?

def newer (a b : UInt64 × String) : UInt64 × String := if a.1 < b.1 then b else a

def latest? (layout : Layout α) : Option (UInt64 × String) :=
  match layout.stamped with
  | [] => none
  | first :: rest => some (rest.foldl newer first)

def freeFrom (layout : Layout α) (stamp : UInt64) : Except StoreError UInt64 :=
  if layout.exists? (directoryName stamp) then
    if stamp.toNat + 1 < UInt64.size then layout.freeFrom (stamp + 1) else .error .exhausted
  else .ok stamp
termination_by UInt64.size - stamp.toNat
decreasing_by
  have step : (stamp + 1).toNat = stamp.toNat + 1 := by
    rw [UInt64.toNat_add]
    exact Nat.mod_eq_of_lt (by simpa using ‹_›)
  omega

/-- A stamp for a new directory: not before the clock, and past every directory there is. -/
def freshStamp (layout : Layout α) (now : UInt64) : Except StoreError UInt64 :=
  match layout.latest? with
  | none => layout.freeFrom now
  | some (latest, _) =>
    if latest.toNat + 1 < UInt64.size then layout.freeFrom (max now (latest + 1)) else .error .exhausted

def fresh (layout : Layout α) (now : UInt64) : Except StoreError String :=
  (layout.freshStamp now).map directoryName

def lastKnown (layout : Layout α) (now : UInt64) : Except StoreError String :=
  match layout.latest? with
  | some (_, name) => .ok name
  | none => layout.fresh now

def stage (layout : Layout α) (now : UInt64) (content? : Option α) :
    Except StoreError (String × Layout α) := do
  let name ← layout.fresh now
  match content? with
  | none => throw (.io .notFound)
  | some content => return (name, layout.put name content)

def remove (layout : Layout α) (name : String) : Except StoreError (Layout α) :=
  match layout.entries[name]? with
  | none => .ok layout
  | some .file => .error (.io .notADirectory)
  | some (.directory _) => .ok ⟨layout.entries.erase name⟩

end Layout

end ClusterCatalog

import ClusterCatalog.Container.Basic
import ClusterCatalog.Storage.Live
import Std.Data.ExtTreeSet
/-!
When replicas were seen. Every report changes this, so changes only mark an entry as pending; a
flush writes all pending entries in one transaction.
-/
namespace ClusterCatalog

structure History where
  entries : Std.ExtTreeMap ReplicaKey Sighting := ∅
  pending : Std.ExtTreeSet ReplicaKey := ∅
  deriving DecidableEq

namespace History

instance : Inhabited History := ⟨{}⟩

def sighted (now : Millis) (replica : Replica) : Option Sighting → Sighting
  | none => ⟨replica.container, replica.node, now, now, replica.sequence, replica.state⟩
  | some s => { s with lastSeen := now, sequence := replica.sequence, state := replica.state }

def record (h : History) (now : Millis) (replica : Replica) : History :=
  ⟨h.entries.insert replica.key (sighted now replica h.entries[replica.key]?), h.pending.insert replica.key⟩

def ofContainer (h : History) (id : ContainerId) : List Sighting :=
  ((h.entries.toList.filter (·.1.container == id)).map Prod.snd).mergeSort
    fun a b => a.firstSeen ≤ b.firstSeen

def pendingRows (h : History) : List (ReplicaKey × Sighting) :=
  h.pending.toList.filterMap fun key => h.entries[key]?.map (key, ·)

def flush : Action (Stored History) StoreError Nat := do
  let h ← Stored.getView
  if h.pending.isEmpty then return 0
  let written ← Stored.onStore (TypedTable.replicaHistory.putAll h.pendingRows)
  Stored.modifyView fun h => { h with pending := ∅ }
  return written

/-- A row that is read from a store; a pending entry wins over it. -/
def accept (h : History) (row : Sighting) : History :=
  if h.pending.contains row.key then h else { h with entries := h.entries.insert row.key row }

def reload (h : History) (rows : List Sighting) : History :=
  rows.foldl accept { h with entries := h.entries.filter fun key _ => h.pending.contains key }

end History

end ClusterCatalog

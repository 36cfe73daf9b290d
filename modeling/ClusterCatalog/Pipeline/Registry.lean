import ClusterCatalog.Pipeline.Basic
import ClusterCatalog.Storage.Live
/-! The known pipelines, each change stored before it is made. -/
namespace ClusterCatalog

abbrev PipelineRegistry := Std.ExtTreeMap PipelineId Pipeline

structure PipelineTally where
  added : Nat := 0
  updated : Nat := 0
  removed : Nat := 0
  deriving DecidableEq, Repr, Inhabited

namespace PipelineRegistry

def keep (p : Pipeline) : Action (Stored PipelineRegistry) StoreError Unit := do
  Stored.onStore (TypedTable.pipelines.put p.id p)
  Stored.modifyView fun pipelines => pipelines.insert p.id p

def drop (tally : PipelineTally) (id : PipelineId) : Action (Stored PipelineRegistry) StoreError PipelineTally := do
  let _ ← Stored.onStore (TypedTable.pipelines.delete id)
  Stored.modifyView fun pipelines => pipelines.erase id
  return { tally with removed := tally.removed + 1 }

def take (tally : PipelineTally) (p : Pipeline) : Action (Stored PipelineRegistry) StoreError PipelineTally := do
  match (← Stored.getView)[p.id]? with
  | some known =>
    if known = p then return tally
    keep p
    return { tally with updated := tally.updated + 1 }
  | none =>
    keep p
    return { tally with added := tally.added + 1 }

def replaceWith (given : List Pipeline) : Action (Stored PipelineRegistry) StoreError PipelineTally := do
  let tally ← given.foldlM take {}
  let known := (← Stored.getView).keys
  (known.filter fun id => given.all (·.id != id)).foldlM drop tally

def add (p : Pipeline) : Action (Stored PipelineRegistry) StoreError Bool := do
  if (← Stored.getView).contains p.id then return false
  keep p
  return true

def setState (id : PipelineId) (state : PipelineState) : Action (Stored PipelineRegistry) StoreError Bool := do
  match (← Stored.getView)[id]? with
  | none => return false
  | some p =>
    if p.state = state then return false
    keep { p with state }
    return true

def withMember (members : List NodeId) (node : NodeId) : List NodeId :=
  if members.contains node then members else members ++ [node]

/-- One entry of a node's report opens an allocated pipeline, or makes an unknown one known. -/
def takeReport (node : NodeId) (changed : Nat) (r : PipelineReport) :
    Action (Stored PipelineRegistry) StoreError Nat := do
  match (← Stored.getView)[r.pipeline]? with
  | some p =>
    if p.state = .allocated then
      return if ← setState r.pipeline .opened then changed + 1 else changed
    return changed
  | none =>
    keep ⟨r.pipeline, withMember r.members node, .opened⟩
    return changed + 1

def report (node : NodeId) (entries : List PipelineReport) : Action (Stored PipelineRegistry) StoreError Nat :=
  entries.foldlM (takeReport node) 0

def openOn (pipelines : PipelineRegistry) (node : NodeId) : List PipelineId :=
  (pipelines.filter fun _ p => p.state != .closed && p.hasMember node).keys

def closeOn (node : NodeId) : Action (Stored PipelineRegistry) StoreError (List PipelineId) := do
  ((← Stored.getView).openOn node).foldlM (fun closed id => do
    return if ← setState id .closed then closed ++ [id] else closed) []

def reload (rows : List Pipeline) : PipelineRegistry :=
  rows.foldl (fun pipelines p => pipelines.insert p.id p) ∅

def load (db : Database) : Except StoreError (Nat × PipelineRegistry) := do
  let rows ← TypedTable.pipelines.values db
  return (rows.length, reload rows)

end PipelineRegistry

end ClusterCatalog

import ClusterCatalog.Authority.Question
import Std.Data.ExtTreeSet
/-!
An authority in memory. Besides plain data it can misstate its count, take time for a listing,
fail lookups and hand out a prepared snapshot.
-/
namespace ClusterCatalog

structure MemoryAuthority where
  containers : Std.ExtTreeMap ContainerId ContainerSummary := ∅
  replicas : Std.ExtTreeMap ContainerId (List ReplicaSummary) := ∅
  pipelines : Std.ExtTreeMap PipelineId Pipeline := ∅
  reportedCount? : Option UInt64 := none
  listDelay : Nat := 0
  failing : Std.ExtTreeSet ContainerId := ∅
  snapshot? : Option Snapshot := none
  listCalls : Nat := 0

namespace MemoryAuthority

instance : Inhabited MemoryAuthority := ⟨{}⟩

def putContainer (a : MemoryAuthority) (s : ContainerSummary) (replicas : List ReplicaSummary) :
    MemoryAuthority :=
  { a with containers := a.containers.insert s.id s, replicas := a.replicas.insert s.id replicas }

def putPipeline (a : MemoryAuthority) (p : Pipeline) : MemoryAuthority :=
  { a with pipelines := a.pipelines.insert p.id p }

def removePipeline (a : MemoryAuthority) (id : PipelineId) : MemoryAuthority :=
  { a with pipelines := a.pipelines.erase id }

def setFailing (a : MemoryAuthority) (id : ContainerId) (fails : Bool) : MemoryAuthority :=
  { a with failing := if fails then a.failing.insert id else a.failing.erase id }

def withPipeline (a : MemoryAuthority) (id : ContainerId) : Reply (.containerWithPipeline id) :=
  match a.containers[id]? with
  | none => .error (.unknownContainer id)
  | some container => .ok ⟨container, container.pipeline? >>= fun p => a.pipelines[p]?⟩

def answer (a : MemoryAuthority) : (q : Question) → Reply q
  | .count => .ok (a.reportedCount?.getD (UInt64.ofNat a.containers.size))
  | .containers => .ok a.containers.values
  | .replicas id =>
    if a.failing.contains id then .error (.lookupTimedOut id) else .ok ((a.replicas[id]?).getD [])
  | .containerWithPipeline id => a.withPipeline id
  | .pipelines => .ok a.pipelines.values
  | .snapshot => .ok a.snapshot?

def answered (a : MemoryAuthority) : Question → MemoryAuthority
  | .snapshot => { a with snapshot? := none }
  | _ => a

def asked (a : MemoryAuthority) : Question → MemoryAuthority
  | .containers => { a with listCalls := a.listCalls + 1 }
  | _ => a

instance : Authority MemoryAuthority := ⟨asked, listDelay, answer, answered⟩

end MemoryAuthority

end ClusterCatalog

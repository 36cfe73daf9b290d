import ClusterCatalog.Text.Decimal
import ClusterCatalog.Text.Uuid
/-! Identities of containers, nodes and pipelines, each with a total order for use as a key. -/
namespace ClusterCatalog

structure ContainerId where
  value : UInt64
  deriving DecidableEq, Repr, Inhabited

structure NodeId where
  uuid : Uuid
  deriving DecidableEq, Repr, Inhabited

structure PipelineId where
  uuid : Uuid
  deriving DecidableEq, Repr, Inhabited

/-- One node's copy of one container. Ordered by container first, so that the copies of a
container are adjacent. -/
structure ReplicaKey where
  container : ContainerId
  node : NodeId
  deriving DecidableEq, Repr, Inhabited

namespace ContainerId

instance : Ord ContainerId := ⟨compareOn ContainerId.value⟩

instance : Std.TransOrd ContainerId := inferInstanceAs (Std.TransCmp (compareOn ContainerId.value))

instance : Std.LawfulEqOrd ContainerId where
  eq_of_compare {a b} h := by
    have same : a.value = b.value := Std.LawfulEqOrd.eq_of_compare (α := UInt64) h
    cases a; cases b; simp_all

/-- Number signs in front of the number are skipped. -/
def parse (text : String) : Except Decimal.Fault ContainerId :=
  (Decimal.parse (text.toList.dropWhile (· == '#'))).map ContainerId.mk

def render (id : ContainerId) : String := "#" ++ Decimal.render id.value

end ContainerId

namespace NodeId

instance : Ord NodeId := ⟨compareOn NodeId.uuid⟩

instance : Std.TransOrd NodeId := inferInstanceAs (Std.TransCmp (compareOn NodeId.uuid))

instance : Std.LawfulEqOrd NodeId where
  eq_of_compare {a b} h := by
    have same : a.uuid = b.uuid := Std.LawfulEqOrd.eq_of_compare (α := Uuid) h
    cases a; cases b; simp_all

def parse? (text : String) : Option NodeId := (Uuid.parse? text.toList).map NodeId.mk

def render (id : NodeId) : String := id.uuid.render

end NodeId

namespace PipelineId

instance : Ord PipelineId := ⟨compareOn PipelineId.uuid⟩

instance : Std.TransOrd PipelineId := inferInstanceAs (Std.TransCmp (compareOn PipelineId.uuid))

instance : Std.LawfulEqOrd PipelineId where
  eq_of_compare {a b} h := by
    have same : a.uuid = b.uuid := Std.LawfulEqOrd.eq_of_compare (α := Uuid) h
    cases a; cases b; simp_all

def parse? (text : String) : Option PipelineId := (Uuid.parse? text.toList).map PipelineId.mk

def render (id : PipelineId) : String := id.uuid.render

end PipelineId

namespace ReplicaKey

instance : Ord ReplicaKey := ⟨compareLex (compareOn ReplicaKey.container) (compareOn ReplicaKey.node)⟩

instance : Std.TransOrd ReplicaKey :=
  inferInstanceAs (Std.TransCmp (compareLex (compareOn ReplicaKey.container) (compareOn ReplicaKey.node)))

instance : Std.LawfulEqOrd ReplicaKey where
  eq_of_compare {a b} h := by
    have parts : compareLex (compareOn ReplicaKey.container) (compareOn ReplicaKey.node) a b = .eq := h
    rw [compareLex_eq_eq] at parts
    have container : a.container = b.container :=
      Std.LawfulEqOrd.eq_of_compare (α := ContainerId) parts.1
    have node : a.node = b.node := Std.LawfulEqOrd.eq_of_compare (α := NodeId) parts.2
    cases a; cases b; simp_all

end ReplicaKey

end ClusterCatalog

import ClusterCatalog.Container.Basic
/-! What came of a reconciliation pass. -/
namespace ClusterCatalog.Sync

structure ResyncReport where
  location : String
  containers : Nat
  pipelines : Nat
  nodesCopied : Nat
  deriving DecidableEq, Repr

structure DiffReport where
  seen : Nat := 0
  added : Nat := 0
  applied : Nat := 0
  transitions : Nat := 0
  failed : Nat := 0
  deriving DecidableEq, Repr, Inhabited

inductive Outcome where
  | skipped
  | nothingFromAuthority
  | fullResync (report : ResyncReport)
  | incremental (report : DiffReport)
  | failed (reason : String)
  deriving DecidableEq, Repr

structure Status where
  passes : Nat := 0
  lastStarted? : Option Millis := none
  lastFinished? : Option Millis := none
  lastOutcome? : Option Outcome := none
  deriving DecidableEq, Repr, Inhabited

namespace Status

def started (now : Millis) (s : Status) : Status := { s with lastStarted? := some now }

def finished (now : Millis) (outcome : Outcome) (s : Status) : Status :=
  { s with passes := s.passes + 1, lastFinished? := some now, lastOutcome? := some outcome }

end Status

end ClusterCatalog.Sync

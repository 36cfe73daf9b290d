import ClusterCatalog.Lanes.Basic
import ClusterCatalog.Sync.Outcome
import ClusterCatalog.Container.Reports
import ClusterCatalog.Pipeline.Registry
import ClusterCatalog.Wire.Domain
/-! JSON forms of what the catalog tells about its own work. -/
namespace ClusterCatalog

open Json Wire

def Json.Value.count (n : Nat) : Value := .number (.natural n)

def Json.Value.counts (entries : List (String × Nat)) : Value := .object (entries.map fun (name, n) => (name, .count n))

def Lifecycle.Decision.write : Lifecycle.Decision → Value
  | .fire event => .object [("kind", .string "fire"), ("event", Wire.write event)]
  | .noOp => .object [("kind", .string "no_op")]
  | .ignored => .object [("kind", .string "ignored")]
  | .sequenceMismatch replica container => .object [("kind", .string "sequence_mismatch"),
      ("replica_sequence_id", Wire.write replica), ("container_sequence_id", Wire.write container)]

def ReplicaOutcome.write (o : ReplicaOutcome) : Value :=
  .object [("decision", o.decision.write), ("new_state", Wire.write o.newState?)]

def LaneStats.write (s : LaneStats) : Value :=
  .counts [("lanes", s.lanes), ("pinned_nodes", s.pinnedNodes), ("queued", s.queued),
    ("submitted", s.counts.submitted), ("completed", s.counts.completed), ("failed", s.counts.failed),
    ("dropped", s.counts.dropped), ("slow", s.counts.slow)]

def Tally.write (t : Tally) : Value :=
  .counts [("applied", t.applied), ("transitions", t.transitions), ("removed", t.removed),
    ("unknown", t.unknown), ("failed", t.failed)]

def PipelineTally.write (t : PipelineTally) : Value :=
  .counts [("added", t.added), ("updated", t.updated), ("removed", t.removed)]

namespace Sync

def Outcome.write : Outcome → Value
  | .skipped => .object [("outcome", .string "skipped")]
  | .nothingFromAuthority => .object [("outcome", .string "nothing_from_source")]
  | .fullResync r => .object [("outcome", .string "full_resync"), ("location", .string r.location),
      ("containers", .count r.containers), ("pipelines", .count r.pipelines),
      ("nodes_copied", .count r.nodesCopied)]
  | .incremental r => .object [("outcome", .string "incremental"), ("containers_seen", .count r.seen),
      ("added", .count r.added), ("replicas_applied", .count r.applied),
      ("transitions", .count r.transitions), ("failed", .count r.failed)]
  | .failed reason => .object [("outcome", .string "failed"), ("reason", .string reason)]

def Status.write (inProgress : Bool) (s : Status) : Value :=
  .object [("in_progress", .bool inProgress), ("passes", .count s.passes),
    ("last_started_ms", Wire.write s.lastStarted?), ("last_finished_ms", Wire.write s.lastFinished?),
    ("last_outcome", (s.lastOutcome?.map Outcome.write).getD .null)]

end Sync

end ClusterCatalog

import ClusterCatalog.Toml.Reader
import ClusterCatalog.Net.Address
/-!
Settings of the catalog. Each has a default, so that an empty document is a valid configuration.
-/
namespace ClusterCatalog

structure Settings where
  snapshotSync : Bool := true
  syncInterval : UInt64 := 86400000
  syncInitialDelay : UInt64 := 60000
  pipelineSyncInterval : UInt64 := 300000
  containerThreshold : UInt64 := 100
  reportLanes : UInt64 := 10
  reportQueueDepth : UInt64 := 10000
  taskSoftTimeout : UInt64 := 10000
  staleNodeInterval : UInt64 := 300000
  deadNodeInterval : UInt64 := 600000
  healthCheckInterval : UInt64 := 5000
  historyFlushInterval : UInt64 := 60000
  shutdownGrace : UInt64 := 30000
  storeDirectory : String := "recon-db"
  authorityAddress : String := "127.0.0.1:9860"
  httpBind : SocketAddress := .v4 ⟨0, 0, 0, 0⟩ 9888
  deriving DecidableEq, Repr, Inhabited

namespace Settings

inductive Invalid where
  | noLanes
  | noQueue
  | zero (name : String)
  | deadBeforeStale (dead stale : UInt64)
  deriving DecidableEq, Repr

def Invalid.message : Invalid → String
  | .noLanes => "report_lanes must be at least 1"
  | .noQueue => "report_queue_depth must be at least 1"
  | .zero name => name ++ " must be positive"
  | .deadBeforeStale dead stale => "dead_node_interval_ms (" ++ Decimal.render dead ++
      ") must exceed stale_node_interval_ms (" ++ Decimal.render stale ++ ")"

def positive (s : Settings) : List (String × UInt64) :=
  [("sync_interval_ms", s.syncInterval),
   ("pipeline_sync_interval_ms", s.pipelineSyncInterval),
   ("task_soft_timeout_ms", s.taskSoftTimeout),
   ("health_check_interval_ms", s.healthCheckInterval),
   ("history_flush_interval_ms", s.historyFlushInterval)]

def fault? (s : Settings) : Option Invalid :=
  if s.reportLanes = 0 then some .noLanes
  else if s.reportQueueDepth = 0 then some .noQueue
  else match s.positive.find? (·.2 == 0) with
    | some (name, _) => some (.zero name)
    | none =>
      if s.deadNodeInterval ≤ s.staleNodeInterval then
        some (.deadBeforeStale s.deadNodeInterval s.staleNodeInterval)
      else none

inductive Error where
  | unreadable
  | badSyntax
  | invalid (cause : Invalid)
  deriving DecidableEq, Repr

def Error.message : Error → String
  | .unreadable => "cannot read config"
  | .badSyntax => "invalid config syntax"
  | .invalid cause => "invalid config: " ++ cause.message

def entry {α : Type} (entries : List (String × Toml.Value)) (name : String) (default : α)
    (read? : Toml.Value → Option α) : Option α :=
  match entries.lookup name with
  | none => some default
  | some v => read? v

def word? : Toml.Value → Option UInt64
  | .integer n => if 0 ≤ n then some (UInt64.ofNat n.toNat) else none
  | _ => none

def text? : Toml.Value → Option String
  | .string text => some text
  | _ => none

def flag? : Toml.Value → Option Bool
  | .boolean b => some b
  | _ => none

def ofEntries (entries : List (String × Toml.Value)) : Option Settings := do
  let word := fun name (default : UInt64) => entry entries name default word?
  let base : Settings := {}
  return {
    snapshotSync := ← entry entries "snapshot_sync_enabled" base.snapshotSync flag?
    syncInterval := ← word "sync_interval_ms" base.syncInterval
    syncInitialDelay := ← word "sync_initial_delay_ms" base.syncInitialDelay
    pipelineSyncInterval := ← word "pipeline_sync_interval_ms" base.pipelineSyncInterval
    containerThreshold := ← word "container_threshold" base.containerThreshold
    reportLanes := ← word "report_lanes" base.reportLanes
    reportQueueDepth := ← word "report_queue_depth" base.reportQueueDepth
    taskSoftTimeout := ← word "task_soft_timeout_ms" base.taskSoftTimeout
    staleNodeInterval := ← word "stale_node_interval_ms" base.staleNodeInterval
    deadNodeInterval := ← word "dead_node_interval_ms" base.deadNodeInterval
    healthCheckInterval := ← word "health_check_interval_ms" base.healthCheckInterval
    historyFlushInterval := ← word "history_flush_interval_ms" base.historyFlushInterval
    shutdownGrace := ← word "shutdown_grace_ms" base.shutdownGrace
    storeDirectory := ← entry entries "db_dir" base.storeDirectory text?
    authorityAddress := ← entry entries "scm_address" base.authorityAddress text?
    httpBind := ← entry entries "http_bind" base.httpBind fun v => text? v >>= SocketAddress.parse?
  }

def validate (s : Settings) : Except Error Settings :=
  match s.fault? with
  | some cause => .error (.invalid cause)
  | none => .ok s

def ofToml (text : String) : Except Error Settings :=
  match Toml.parse? text >>= ofEntries with
  | none => .error .badSyntax
  | some s => s.validate

end Settings

end ClusterCatalog

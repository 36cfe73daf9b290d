import ClusterCatalog.Settings
import ClusterCatalog.Wire.Form
/-! The JSON form of settings; what is left out has its default. -/
namespace ClusterCatalog

open Json Wire

instance : Wire Settings where
  write s := .object [("snapshot_sync_enabled", write s.snapshotSync),
    ("sync_interval_ms", write s.syncInterval),
    ("sync_initial_delay_ms", write s.syncInitialDelay),
    ("pipeline_sync_interval_ms", write s.pipelineSyncInterval),
    ("container_threshold", write s.containerThreshold),
    ("report_lanes", write s.reportLanes),
    ("report_queue_depth", write s.reportQueueDepth),
    ("task_soft_timeout_ms", write s.taskSoftTimeout),
    ("stale_node_interval_ms", write s.staleNodeInterval),
    ("dead_node_interval_ms", write s.deadNodeInterval),
    ("health_check_interval_ms", write s.healthCheckInterval),
    ("history_flush_interval_ms", write s.historyFlushInterval),
    ("shutdown_grace_ms", write s.shutdownGrace),
    ("db_dir", write s.storeDirectory),
    ("scm_address", write s.authorityAddress),
    ("http_bind", write s.httpBind)]
  read? v := do
    let base : Settings := {}
    let [snapshotSync, syncInterval, syncInitialDelay, pipelineSyncInterval, threshold, lanes, depth,
      softTimeout, stale, dead, healthCheck, historyFlush, grace, directory, address, bind] ←
      slots ["snapshot_sync_enabled", "sync_interval_ms", "sync_initial_delay_ms",
        "pipeline_sync_interval_ms", "container_threshold", "report_lanes", "report_queue_depth",
        "task_soft_timeout_ms", "stale_node_interval_ms", "dead_node_interval_ms",
        "health_check_interval_ms", "history_flush_interval_ms", "shutdown_grace_ms", "db_dir",
        "scm_address", "http_bind"] v | none
    return {
      snapshotSync := ← snapshotSync.orElse base.snapshotSync
      syncInterval := ← syncInterval.orElse base.syncInterval
      syncInitialDelay := ← syncInitialDelay.orElse base.syncInitialDelay
      pipelineSyncInterval := ← pipelineSyncInterval.orElse base.pipelineSyncInterval
      containerThreshold := ← threshold.orElse base.containerThreshold
      reportLanes := ← lanes.orElse base.reportLanes
      reportQueueDepth := ← depth.orElse base.reportQueueDepth
      taskSoftTimeout := ← softTimeout.orElse base.taskSoftTimeout
      staleNodeInterval := ← stale.orElse base.staleNodeInterval
      deadNodeInterval := ← dead.orElse base.deadNodeInterval
      healthCheckInterval := ← healthCheck.orElse base.healthCheckInterval
      historyFlushInterval := ← historyFlush.orElse base.historyFlushInterval
      shutdownGrace := ← grace.orElse base.shutdownGrace
      storeDirectory := ← directory.orElse base.storeDirectory
      authorityAddress := ← address.orElse base.authorityAddress
      httpBind := ← bind.orElse base.httpBind
    }

end ClusterCatalog

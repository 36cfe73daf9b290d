import ClusterCatalog.Main
import ClusterCatalog.Authority.Memory
import ClusterCatalog.Bus.Timed
import ClusterCatalog.Storage.Rows
import ClusterCatalog.Storage.Shelf
import ClusterCatalog.Wire.Settings
import ClusterCatalog.Wire.Stored
import ClusterCatalog.Wire.Table
import ClusterCatalog.Proofs.Action
import ClusterCatalog.Proofs.Container.Held
import ClusterCatalog.Proofs.Container.Single
import ClusterCatalog.Proofs.Container.Interleaving
import ClusterCatalog.Proofs.Sync.Follows
import ClusterCatalog.Proofs.Sync.Traffic
import ClusterCatalog.Proofs.Container.Course
import ClusterCatalog.Proofs.Sync.Justified
import ClusterCatalog.Proofs.Codec.Value
import ClusterCatalog.Proofs.Codec.Key
import ClusterCatalog.Proofs.Storage.Mirror
import ClusterCatalog.Proofs.Storage.WriteThrough
import ClusterCatalog.Proofs.Storage.Counter
import ClusterCatalog.Proofs.Pipeline.WriteThrough
import ClusterCatalog.Proofs.Node.WriteThrough
import ClusterCatalog.Proofs.Container.History
import ClusterCatalog.Proofs.Container.WriteThrough
import ClusterCatalog.Proofs.Catalog.WriteThrough
import ClusterCatalog.Proofs.Sync.Install
import ClusterCatalog.Proofs.Sync.WriteThrough
import ClusterCatalog.Proofs.Sync.Failure
import ClusterCatalog.Proofs.Sync.Handover
import ClusterCatalog.Proofs.Sync.Unflushed
import ClusterCatalog.Proofs.Container.Batch
import ClusterCatalog.Proofs.Storage.Working
import ClusterCatalog.Proofs.Container.Working
import ClusterCatalog.Proofs.Catalog.Working
import ClusterCatalog.Proofs.Sync.Incremental
import ClusterCatalog.Proofs.Container.Steady
import ClusterCatalog.Proofs.Sync.Repeated
import ClusterCatalog.Proofs.Container.Received
import ClusterCatalog.Proofs.Container.Size
import ClusterCatalog.Proofs.Lanes.Serving
import ClusterCatalog.Proofs.Catalog.Received
import ClusterCatalog.Proofs.Sync.Crash
import ClusterCatalog.Proofs.Catalog.Numbering
import ClusterCatalog.Proofs.Sync.Allocation
import ClusterCatalog.Proofs.Sync.Succession
import ClusterCatalog.Proofs.Sync.Exclusion
import ClusterCatalog.Proofs.Lanes.Open
import ClusterCatalog.Proofs.Lanes.Ledger
import ClusterCatalog.Proofs.Container.Provenance
import ClusterCatalog.Proofs.Sync.Registered
import ClusterCatalog.Proofs.Sync.Provenance
import ClusterCatalog.Proofs.Container.Durability
import ClusterCatalog.Proofs.Codec.Canonical
import ClusterCatalog.Proofs.Codec.Text
import ClusterCatalog.Proofs.Storage.Schema
import ClusterCatalog.Proofs.Storage.Refinement
import ClusterCatalog.Proofs.Container.Creation
import ClusterCatalog.Proofs.Container.Replay
import ClusterCatalog.Proofs.Container.FullReport
import ClusterCatalog.Proofs.Container.Departure
import ClusterCatalog.Proofs.Container.Refusal
import ClusterCatalog.Proofs.Node.Watch
import ClusterCatalog.Proofs.Node.Detector
import ClusterCatalog.Proofs.Lanes.Intake
import ClusterCatalog.Proofs.Bus.Delivery
import ClusterCatalog.Proofs.Pipeline.Closing
import ClusterCatalog.Proofs.Catalog.Death
import ClusterCatalog.Proofs.Service.Order
import ClusterCatalog.Proofs.Service.Announced
import ClusterCatalog.Proofs.Container.Origin
import ClusterCatalog.Proofs.Sync.Stroke
import ClusterCatalog.Proofs.Sync.Origin
import ClusterCatalog.Proofs.Pipeline.Replacement
import ClusterCatalog.Proofs.Pipeline.Onward
import ClusterCatalog.Proofs.Lanes.Shutdown
import ClusterCatalog.Proofs.Storage.Counting
import ClusterCatalog.Proofs.Storage.Fresh
import ClusterCatalog.Proofs.Lanes.Routing

import ImposbroSearch.Foundation.Runs
import ImposbroSearch.Foundation.VersionedCell
import ImposbroSearch.Indexing.Worker
import ImposbroSearch.Indexing.Convergence
import ImposbroSearch.Indexing.Consumer
import ImposbroSearch.Indexing.OffsetSafety
import ImposbroSearch.Publishing.Outbox
import ImposbroSearch.Publishing.Acknowledgement
import ImposbroSearch.Foundation.FilterGrammar
import ImposbroSearch.Auth.TenantFilter
import ImposbroSearch.Foundation.KeyedDelivery
import ImposbroSearch.Indexing.Delivery
import ImposbroSearch.Indexing.FifoDelivery
import ImposbroSearch.Auth.WriteAuthorization
import ImposbroSearch.Publishing.EventStore
import ImposbroSearch.Publishing.Ingest
import ImposbroSearch.Publishing.TenantIsolation
import ImposbroSearch.Publishing.IdentityOrder
import ImposbroSearch.ControlPlane.Replica
import ImposbroSearch.ControlPlane.CommittedUpdates
import ImposbroSearch.ControlPlane.RejectedUpdates
import ImposbroSearch.Foundation.Paging
import ImposbroSearch.Routing.Federation
import ImposbroSearch.Routing.Rollout
import ImposbroSearch.Publishing.Repair
import ImposbroSearch.Publishing.OutboxTables
import ImposbroSearch.Publishing.StoreTransactions
import ImposbroSearch.Publishing.StoreSequencing
import ImposbroSearch.Publishing.StoreIdempotency
import ImposbroSearch.Migration.Backfill
import ImposbroSearch.Routing.Runtime
import ImposbroSearch.Routing.Evidence
import ImposbroSearch.Routing.ReadCoverage
import ImposbroSearch.Routing.AdminOperations
import ImposbroSearch.Routing.Governance
import ImposbroSearch.Routing.CollectionTombstone
import ImposbroSearch.Routing.CommittedPolicy
import ImposbroSearch.Routing.DraftReads
import ImposbroSearch.Routing.ClusterReferences
import ImposbroSearch.Publishing.HighWaterMark
import ImposbroSearch.Foundation.LatestByKey
import ImposbroSearch.Foundation.Lockstep
import ImposbroSearch.Foundation.Linearization
import ImposbroSearch.Publishing.PostgresStore
import ImposbroSearch.Publishing.InMemoryStore
import ImposbroSearch.Publishing.StoreAgreement
import ImposbroSearch.Foundation.PartitionedLog
import ImposbroSearch.Operations.EventPipeline
import ImposbroSearch.Operations.LagEvidence
import ImposbroSearch.Publishing.VisibleCopies
import ImposbroSearch.Deletion.Ledger
import ImposbroSearch.Deletion.Tombstones
import ImposbroSearch.Deletion.LedgerInvariant
import ImposbroSearch.Deletion.Reconciler
import ImposbroSearch.Migration.RepairCompleteness
import ImposbroSearch.Operations.DlqResolution
import ImposbroSearch.Operations.DlqEnvelope
import ImposbroSearch.Foundation.Pattern
import ImposbroSearch.Indexing.TopicMapping
import ImposbroSearch.Foundation.Retention
import ImposbroSearch.Operations.OutboxRetention
import ImposbroSearch.Operations.ControlPlaneRetention
import ImposbroSearch.Foundation.Json
import ImposbroSearch.Foundation.JsonRoundTrip
import ImposbroSearch.Foundation.JsonObjects
import ImposbroSearch.Foundation.JsonReading
import ImposbroSearch.Foundation.Base64
import ImposbroSearch.Foundation.Jsonb
import ImposbroSearch.ControlPlane.Integrity
import ImposbroSearch.ControlPlane.StoreTransactions
import ImposbroSearch.ControlPlane.StoreEffects
import ImposbroSearch.ControlPlane.StateRecords
import ImposbroSearch.ControlPlane.AuditChain
import ImposbroSearch.ControlPlane.AuditVerification
import ImposbroSearch.ControlPlane.AuditEvidence
import ImposbroSearch.ControlPlane.InMemoryStore
import ImposbroSearch.ControlPlane.RowLocks
import ImposbroSearch.ControlPlane.StoreLinearization
import ImposbroSearch.ControlPlane.AuditDelivery
import ImposbroSearch.ControlPlane.DeliveryContiguity
import ImposbroSearch.Foundation.BestMerge
import ImposbroSearch.Migration.Parity
import ImposbroSearch.Search.Hits
import ImposbroSearch.Search.Projection
import ImposbroSearch.Search.ProjectionTransparency
import ImposbroSearch.Foundation.MergedPages
import ImposbroSearch.Search.FederatedSearch
import ImposbroSearch.Search.ScatterGather
import ImposbroSearch.Search.PageSequence
import ImposbroSearch.Indexing.Fences
import ImposbroSearch.ControlPlane.AuditBacklog
import ImposbroSearch.ControlPlane.MaskedSecrets
import ImposbroSearch.Foundation.JsonCharacters
import ImposbroSearch.Foundation.JsonTransport
import ImposbroSearch.Foundation.Lines
import ImposbroSearch.Migration.ExportParsing
import ImposbroSearch.ControlPlane.LegacyState
import ImposbroSearch.Operations.DlqDraining
import ImposbroSearch.Publishing.RepairPreemption
import ImposbroSearch.Indexing.Datetimes
import ImposbroSearch.Indexing.EventParsing
import ImposbroSearch.Indexing.EventDigest
import ImposbroSearch.Indexing.EventFields
import ImposbroSearch.Indexing.EventTimes
import ImposbroSearch.Indexing.EventWire
import ImposbroSearch.Indexing.KafkaValues
import ImposbroSearch.Indexing.CheckpointCodec
import ImposbroSearch.Indexing.FenceRegistry
import ImposbroSearch.Indexing.FenceSafety
import ImposbroSearch.Indexing.CheckpointSessions
import ImposbroSearch.Search.ShardWindow
import ImposbroSearch.Publishing.OutboxReplay
import ImposbroSearch.Search.HitOrder
import ImposbroSearch.Migration.BackfillCoverage
import ImposbroSearch.Publishing.StoreContents
import ImposbroSearch.Deletion.TombstoneMigration
import ImposbroSearch.Indexing.CheckpointAgreement
import ImposbroSearch.Indexing.CheckpointRuns

import OpenBlade.Effects.Pool
import OpenBlade.Jobs.LeaseSafety
import OpenBlade.Effects.Automaton
import OpenBlade.Jobs.LeaseEquivalence
import OpenBlade.Catalog.Repository
import OpenBlade.Hardware.Ltfs
import OpenBlade.World
import OpenBlade.Nas.TapeOrchestrator
import OpenBlade.Effects.Lanes
import OpenBlade.Jobs.Scheduler
import OpenBlade.Jobs.Shard
import OpenBlade.Jobs.ShardedArchive
import OpenBlade.Jobs.CommitGate
import OpenBlade.Jobs.Archive
import OpenBlade.Effects.Keeps
import OpenBlade.Effects.Footprint
import OpenBlade.Frames
import OpenBlade.Storage.Placement
import OpenBlade.Domain.States
import OpenBlade.Simulator.MockLibrary
import OpenBlade.Simulator.Invariant
import OpenBlade.Jobs.Recovery
import OpenBlade.Jobs.RecoverySafety
import OpenBlade.Jobs.ReconcileReplay
import OpenBlade.Catalog.ExportPolicy
import OpenBlade.Effects.Protocol
import OpenBlade.Effects.Raises
import OpenBlade.Jobs.Format
import OpenBlade.Jobs.FormatSafety
import OpenBlade.Jobs.FormatCatalog
import OpenBlade.Hardware.Elements
import OpenBlade.Nas.NamedCartridge
import OpenBlade.Effects.Carries
import OpenBlade.Nas.ConcurrentMoves
import OpenBlade.Nas.OperationOutcomes
import OpenBlade.Nas.IngestBooking
import OpenBlade.Jobs.Compensation
import OpenBlade.Jobs.ArchiveCompensation
import OpenBlade.Simulator.MountGuard
import OpenBlade.Simulator.Setup
import OpenBlade.Simulator.MockLtfs
import OpenBlade.Codec.Digits
import OpenBlade.Effects.Stateful
import OpenBlade.Domain.DateTime
import OpenBlade.Simulator.MountDiscipline
import OpenBlade.Simulator.TapeAccounting
import OpenBlade.Codec.Hex
import OpenBlade.Codec.Json
import OpenBlade.Simulator.Snapshot
import OpenBlade.Simulator.Barcodes
import OpenBlade.Storage.Packing
import OpenBlade.Nas.Planner
import OpenBlade.Nas.PlanSoundness
import OpenBlade.Nas.FileIdentity
import OpenBlade.Nas.ExportGuard
import OpenBlade.Nas.Hydration
import OpenBlade.Nas.RestoreFinality
import OpenBlade.Nas.RestorePlan
import OpenBlade.Nas.RestoreCompleteness
import OpenBlade.Effects.Holdings
import OpenBlade.Nas.Capacity
import OpenBlade.Nas.LedgerEquivalence
import OpenBlade.Nas.PoolCeiling
import OpenBlade.Nas.Staging
import OpenBlade.Nas.StagingBudget
import OpenBlade.Nas.TapeNames
import OpenBlade.Effects.Overwrites
import OpenBlade.Nas.CatalogShard
import OpenBlade.Nas.CatalogRebuild
import OpenBlade.Nas.RebuildOrder
import OpenBlade.Nas.ArchiveLifecycle
import OpenBlade.Nas.ArchivedCopies
import OpenBlade.Nas.PathIndexSoundness
import OpenBlade.Nas.IngestRun
import OpenBlade.Nas.LifecycleFrame
import OpenBlade.Hardware.Mtx
import OpenBlade.Hardware.RealLibrary
import OpenBlade.Fuse.HydrationCache
import OpenBlade.Fuse.CacheBudget
import OpenBlade.Fuse.Mount
import OpenBlade.Fuse.PinnedEntries
import OpenBlade.Effects.Threads
import OpenBlade.Jobs.Restore
import OpenBlade.Fuse.Hydrator
import OpenBlade.Fuse.Tickets
import OpenBlade.Fuse.StagedFiles
import OpenBlade.Jobs.LaneFootprint
import OpenBlade.Jobs.Segregation
import OpenBlade.Jobs.LaneIsolation
import OpenBlade.Jobs.GroupIsolation
import OpenBlade.Nas.ProtocolGateway
import OpenBlade.Aml.MoveMedium
import OpenBlade.Aml.NamedMoves
import OpenBlade.Aml.Mounts
import OpenBlade.Aml.Placement
import OpenBlade.Fuse.Namespace
import OpenBlade.Codec.JsonText
import OpenBlade.Assistant.Tools
import OpenBlade.Assistant.Session
import OpenBlade.Assistant.ConfirmationGate
import OpenBlade.Assistant.Transcript
import OpenBlade.Nas.SharePush
import OpenBlade.Nas.PushSafety
import OpenBlade.Storage.Striping
import OpenBlade.Jobs.BlockStripe
import OpenBlade.Jobs.StripePaths
import OpenBlade.Nas.SequentialRefusals
import OpenBlade.Nas.PlanRefusals
import OpenBlade.Jobs.TreeRestore
import OpenBlade.Jobs.TreeDestinations
import OpenBlade.Nas.FileDeletion
import OpenBlade.Jobs.ArchiveService
import OpenBlade.Jobs.ArchivedRecords
import OpenBlade.Assistant.MediaArchive
import OpenBlade.Effects.Possible
import OpenBlade.Jobs.RestoreVisibility
import OpenBlade.Jobs.RestoreCollisions
import OpenBlade.Jobs.TreeRestoreRun
import OpenBlade.Jobs.TreeRestoreEnd
import OpenBlade.Jobs.IndexReserve
import OpenBlade.Nas.WriteUnits
import OpenBlade.Nas.PlannerErrors
import OpenBlade.Hardware.LtfsPaths
import OpenBlade.Nas.PathIndexQueries
import OpenBlade.Nas.ManifestVersions
import OpenBlade.Hardware.Correlation
import OpenBlade.Hardware.MtxRoundTrip
import OpenBlade.Nas.IngestSizes
import OpenBlade.Jobs.Queue

import PtyRuntime.Domain.ReplayLedger
import PtyRuntime.Domain.Projection.PolicyRuns
import PtyRuntime.Domain.Session
import PtyRuntime.Domain.ProgramStatus.Splitting
import PtyRuntime.Application.JournalObservers
import PtyRuntime.Application.AttachmentIsolation
import PtyRuntime.Application.Projection.Parking
import PtyRuntime.Application.Projection.Failure
import PtyRuntime.Application.Lockstep
import PtyRuntime.Application.QuotaConservation
import PtyRuntime.Application.ReplayCharges
import PtyRuntime.Application.ObserverWakeups
import PtyRuntime.Application.Projection.CapacityLaws
import PtyRuntime.Client.Mirror
import PtyRuntime.Application.Projection.Along
import PtyRuntime.Application.Projection.Custody
import PtyRuntime.Application.Projection.CustodyLaws
import PtyRuntime.Application.Projection.CustodyRuns
import PtyRuntime.Application.Projection.StorageConservation
import PtyRuntime.Domain.ProgramStatus.ReportLaws
import PtyRuntime.Domain.ProgramStatus.StoreRuns
import PtyRuntime.ExactCodec
import PtyRuntime.Infrastructure.EventStream.Codec
import PtyRuntime.Infrastructure.EventStream.CodecLaws
import PtyRuntime.Infrastructure.Process.Protocol
import PtyRuntime.Infrastructure.Process.ProtocolLaws
import PtyRuntime.Infrastructure.Process.Link
import PtyRuntime.Infrastructure.Process.Guardian
import PtyRuntime.Infrastructure.Process.GuardianLaws
import PtyRuntime.Infrastructure.Process.GuardianRuns
import PtyRuntime.Infrastructure.Checkpoint.File
import PtyRuntime.Infrastructure.Checkpoint.BoundedMap
import PtyRuntime.Infrastructure.Checkpoint.FileLaws
import PtyRuntime.Infrastructure.Scheduling.Pool
import PtyRuntime.Infrastructure.Scheduling.PoolLaws
import PtyRuntime.Infrastructure.Scheduling.PoolRuns
import PtyRuntime.Infrastructure.Process.Session
import PtyRuntime.Infrastructure.Process.SessionLaws
import PtyRuntime.Application.Runtime.Owner
import PtyRuntime.Application.Runtime.SlotLaws
import PtyRuntime.Application.Runtime.OwnerLaws
import PtyRuntime.Application.Runtime.OwnerRuns
import PtyRuntime.Infrastructure.EventStream.Publisher
import PtyRuntime.Infrastructure.EventStream.PublisherLaws
import PtyRuntime.Infrastructure.EventStream.PublisherRuns
import PtyRuntime.Base64
import PtyRuntime.Domain.ProgramStatus.DecodeLaws
import PtyRuntime.Domain.ProgramStatus.Ancestry
import PtyRuntime.Domain.ProgramStatus.Plans
import PtyRuntime.Client.Budget
import PtyRuntime.Client.HistoryRows
import PtyRuntime.Domain.ProgramStatus.Grammar
import PtyRuntime.Domain.ProgramStatus.ParseLaws
import PtyRuntime.Infrastructure.Process.Reader
import PtyRuntime.Infrastructure.Process.ReaderLaws
import PtyRuntime.Buffer
import PtyRuntime.Domain.ProgramStatus.Owned
import PtyRuntime.Domain.ProgramStatus.OwnedLaws
import PtyRuntime.Domain.ProgramStatus.Footprint
import PtyRuntime.Application.Projection.Rounds
import PtyRuntime.Application.Projection.RoundLaws
import PtyRuntime.Application.Projection.RoundRuns
import PtyRuntime.Application.Projection.FreshRound
import PtyRuntime.Application.Projection.JobEffects
import PtyRuntime.Application.Projection.Exits
import PtyRuntime.Application.Projection.ExitLaws
import PtyRuntime.Application.Projection.ExitRuns
import PtyRuntime.Application.Projection.ExitOrder
import PtyRuntime.Application.Projection.StatusMemory
import PtyRuntime.Application.Projection.StatusMemoryLaws
import PtyRuntime.Application.Projection.StatusMemoryRuns
import PtyRuntime.Application.Projection.Slices
import PtyRuntime.Application.Projection.SliceLaws
import PtyRuntime.Application.Projection.SliceRuns
import PtyRuntime.Application.Grants
import PtyRuntime.Application.Projection.Creation
import PtyRuntime.Application.Projection.Acceptance
import PtyRuntime.Application.Projection.Reaper
import PtyRuntime.Application.Projection.ReaperRuns
import PtyRuntime.Cyclic
import PtyRuntime.Aead
import PtyRuntime.Infrastructure.Checkpoint.Protector
import PtyRuntime.Infrastructure.Checkpoint.ProtectorLaws
import PtyRuntime.Infrastructure.Checkpoint.Protection
import PtyRuntime.Hex
import PtyRuntime.Infrastructure.Checkpoint.Cleanup
import PtyRuntime.Infrastructure.Checkpoint.CleanupLaws
import PtyRuntime.Helpers.Anchor
import PtyRuntime.Helpers.Sweep
import PtyRuntime.Helpers.AnchorLaws
import PtyRuntime.Helpers.SweepLaws
import PtyRuntime.Helpers.Cancellation
import PtyRuntime.Helpers.CancellationLaws
import PtyRuntime.Helpers.CancellationRuns
import PtyRuntime.Helpers.Endpoint
import PtyRuntime.Helpers.EndpointLaws
import PtyRuntime.Helpers.EndpointRuns
import PtyRuntime.Infrastructure.Scheduling.Fairness
import PtyRuntime.Quantile
import PtyRuntime.Application.Diagnostics.Histogram
import PtyRuntime.Application.Diagnostics.HistogramLaws
import PtyRuntime.Application.Projection.Account
import PtyRuntime.Application.Projection.AccountLaws
import PtyRuntime.Application.Projection.AccountRuns
import PtyRuntime.Application.Projection.AccountPhases
import PtyRuntime.Application.Projection.AccountOwners
import PtyRuntime.Application.Projection.AccountOrder
import PtyRuntime.Infrastructure.Scheduling.Blocking
import PtyRuntime.Interleaving.Liveness
import PtyRuntime.Infrastructure.Scheduling.BlockingLaws
import PtyRuntime.Infrastructure.Scheduling.BlockingRuns
import PtyRuntime.Infrastructure.Scheduling.BlockingProgress
import PtyRuntime.Infrastructure.Process.Backend
import PtyRuntime.Infrastructure.Process.BackendLaws
import PtyRuntime.Infrastructure.Process.BackendRuns
import PtyRuntime.Infrastructure.Process.BackendProgress
import PtyRuntime.Infrastructure.Process.BackendStops
import PtyRuntime.Chronicle
import PtyRuntime.Infrastructure.Process.Lifecycle
import PtyRuntime.Infrastructure.Process.LifecycleLaws
import PtyRuntime.Infrastructure.Process.LifecycleReports
import PtyRuntime.Infrastructure.Process.LifecycleAnswers
import PtyRuntime.Infrastructure.Process.LifecycleRuns

import Verathos.Anchor.Streaming
import Verathos.BatchOpening.Completeness
import Verathos.Batched.Binding
import Verathos.Batched.Namespaces
import Verathos.CanaryPolicy.Document
import Verathos.CanarySchedule.Runs
import Verathos.CanarySchedule.Seeds
import Verathos.CanarySchedule.TokenTarget
import Verathos.CapacityAudit.Identifiers
import Verathos.Chain.Checkpoint
import Verathos.ChallengeV2.AxisSegments
import Verathos.ColumnGroups.Packing
import Verathos.Contracts.EndpointOwnership
import Verathos.Contracts.Identity
import Verathos.Contracts.LiveEntries
import Verathos.Contracts.MultisigSafety
import Verathos.Contracts.OfflineReports
import Verathos.Contracts.Paging
import Verathos.Contracts.PaymentGateway
import Verathos.Fri.Completeness
import Verathos.PrefixCache.Completeness
import Verathos.Probation.Earned
import Verathos.ProjectionFold.Exactness
import Verathos.ProofV3.HardBundleBinding
import Verathos.ProofV3.LaneCells
import Verathos.ProofV3.SidecarBinding
import Verathos.RateLimit.Isolation
import Verathos.Receipts.Binding
import Verathos.Receipts.SetHash
import Verathos.Sampling.Agreement
import Verathos.SchedulerGeometry.Atomicity
import Verathos.SchedulerGeometry.FullRecompute
import Verathos.Scoring.Conservation
import Verathos.Scoring.Inventory
import Verathos.Scoring.Medians
import Verathos.Scoring.SplitDemand
import Verathos.Strikes.Ledger
import Verathos.SuccinctFold.Exactness
import Verathos.TerminalArgmax.Exactness
import Verathos.ValidatorDb.ProbationRuns
import Verathos.ValidatorDb.UidOwnershipRuns
import Verathos.Verdict.Follower
import Verathos.Wire.Transform
import Verathos.WorkspaceProof.BandBinding
import Verathos.WorkspaceProof.Binding
import Verathos.WorkspaceProof.Fill

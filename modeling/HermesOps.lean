import HermesOps.Properties.Decisions
import HermesOps.Properties.PlanningAttempts
import HermesOps.Properties.DependencyOrder
import HermesOps.Properties.TerminalAgreement
import HermesOps.Properties.SingleWriter
import HermesOps.Properties.ReviewedMerges
import HermesOps.Properties.BranchAgreement
import HermesOps.Properties.JournalHistory
import HermesOps.Properties.RecoverySweep
import HermesOps.Properties.ParallelLimits
import HermesOps.Properties.ObjectiveLifecycle
import HermesOps.Properties.GlobalLimits
import HermesOps.Properties.PlanProgress
import HermesOps.Properties.CancelledPlans
import HermesOps.Properties.CancelledIntegrations
import HermesOps.Properties.HumanGates
import HermesOps.Properties.IntegratedTasks
import HermesOps.Properties.LeaseFencing
import HermesOps.Properties.EventDelivery
import HermesOps.Properties.PasswordRevocation
import HermesOps.Properties.HermesfileAcceptance
import HermesOps.Properties.CanonicalAcceptance
import HermesOps.Properties.Collection
import HermesOps.Properties.GateResolution
import HermesOps.Properties.RequestFraming
import HermesOps.Properties.ReviewDecisions
import HermesOps.Properties.ParsedReports
import HermesOps.Properties.ExactQuantities
import HermesOps.Properties.Selection
import HermesOps.Properties.ProjectClaims
import HermesOps.Properties.LateWorkers
import HermesOps.Properties.TaskAttempts
import HermesOps.Properties.ProfileSources
import HermesOps.Properties.LoginLimit
import HermesOps.Properties.RecoveryDecisions
import HermesOps.Properties.PlanValidation
import HermesOps.Properties.FailurePropagation
import HermesOps.Properties.ProjectMutations
import HermesOps.Properties.JournalRoundTrip
import HermesOps.Properties.AssignmentProtocol
import HermesOps.Properties.LaunchSettlement
import HermesOps.Properties.FrameCodec
import HermesOps.Hermesfile.Comparison
import HermesOps.Properties.HermesfileComparison
import HermesOps.Registry.Projects
import HermesOps.Registry.Sync
import HermesOps.Properties.RegistrySync
import HermesOps.Properties.SandboxAudit
import HermesOps.Properties.ProviderOutcomes
import HermesOps.Properties.ConnectionSlots
import HermesOps.Properties.ForwardedRequests
import HermesOps.Properties.RuntimeOutcomes
import HermesOps.Properties.ConfigurationRoundTrip
import HermesOps.Properties.ProfileImports
import HermesOps.Properties.ProfileListing
import HermesOps.Properties.SupervisorSweeps
import HermesOps.Properties.Migrations
import HermesOps.Properties.ObjectiveListing

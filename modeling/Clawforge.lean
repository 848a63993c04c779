import Clawforge.Theorems.EffectsFirst
import Clawforge.Theorems.OnePseudonym
import Clawforge.Theorems.AuditOutbox
import Clawforge.Theorems.NoSilentIncident
import Clawforge.Theorems.Notifications
import Clawforge.Theorems.RuleLedger
import Clawforge.Theorems.NeverBlock
import Clawforge.Theorems.TargetIdentity
import Clawforge.Theorems.WriteAhead
import Clawforge.Theorems.LinuxSensor
import Clawforge.Theorems.DockerSensor
import Clawforge.Theorems.EveDelivery
import Clawforge.Theorems.EveAdapter
import Clawforge.Theorems.CandidateGrouping
import Clawforge.Theorems.OneCandidate
import Clawforge.Theorems.Listing
import Clawforge.Theorems.DeliveryOrder
import Clawforge.Theorems.DispatchCompletion
import Clawforge.Theorems.MassBlock
import Clawforge.Theorems.QualifyingListing
import Clawforge.Theorems.RateLimitMiddleware
import Clawforge.Theorems.AdminBootstrap
import Clawforge.Theorems.BridgeBudget
import Clawforge.Theorems.Retention
import Clawforge.Theorems.InflightBudget
import Clawforge.Theorems.IncidentHistory
import Clawforge.Theorems.RecordedOnce
import Clawforge.Theorems.WorkflowRuns
import Clawforge.Theorems.Routing
import Clawforge.Theorems.FirewallStatus
import Clawforge.Theorems.Redaction
import Clawforge.Theorems.Quarantine
import Clawforge.Theorems.TrustImport
import Clawforge.Theorems.ConfiguredAdapters
import Clawforge.Theorems.HaproxyLine
import Clawforge.Theorems.ParsedNetwork
import Clawforge.Theorems.SshdMessages
import Clawforge.Theorems.ScanCompleteness
import Clawforge.Theorems.StoredMembers
import Clawforge.Theorems.DecisionBacklog
import Clawforge.Theorems.EpisodeHistory
import Clawforge.Theorems.VettedConnections
import Clawforge.Theorems.ApprovalGate
import Clawforge.Theorems.NicIsolation
import Clawforge.Theorems.BridgeAck
import Clawforge.Theorems.RecoveryTargets
import Clawforge.Theorems.GoAwayPolicy
import Clawforge.Theorems.AlertAggregate
import Clawforge.Theorems.ConfigUpdate
import Clawforge.Theorems.DriftAudits
import Clawforge.Theorems.DockerIsolation
import Clawforge.Theorems.LearningQueries
import Clawforge.Theorems.RecordPages
import Clawforge.Theorems.CsvExport
import Clawforge.Theorems.BlastRadius
import Clawforge.Theorems.RiskOrder
import Clawforge.Theorems.RiskScores
import Clawforge.Theorems.AlertGroups
import Clawforge.Theorems.CorrelationOrder
import Clawforge.Theorems.PublicAddresses
import Clawforge.Theorems.IncidentReads
import Clawforge.Theorems.ListingPages
import Clawforge.Theorems.AttentionPoints
import Clawforge.Theorems.OperationsTrend
import Clawforge.Theorems.TokenRotation
import Clawforge.Theorems.DockerFraming
import Clawforge.Theorems.Sweeps

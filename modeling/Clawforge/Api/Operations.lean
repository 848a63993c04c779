import Clawforge.Api.Listings
import Clawforge.Storage.Alerts

/-!
# The operations summary

The bounded reads behind `load_operations_summary`, the points it selects for attention, the
snapshot that `capture_operations_snapshot` stores, and the trend from the latest snapshot to
the summary. A read gives the stored rows in the order of its query; the state holds that
order.
-/

namespace Clawforge.Operations

open IncidentReads Listings Correlation

local instance intOrder : Preorder Int := Int.instLinearOrder.toPreorder

/-! ## Store -/

/-- An indicator with its latest risk, as `list_indicator_views` joins them. -/
structure Finding where
  indicator : Intelligence.IndicatorRow
  risk : Option Intelligence.RiskHistoryRow
deriving DecidableEq

/-- `risk_score`, which is absent while the indicator is not assessed. -/
def Finding.riskScore (f : Finding) : Option Int := f.risk.map (fun r => (r.riskScore : Int))

/-- The fields of `list_provider_views` that the summary counts; `status` is the unchecked text
of `provider_status.state`. -/
structure ProviderView where
  id : String
  enabled : Bool
  status : Option String
  qualityScore : Int
deriving DecidableEq

structure RuntimeStatus where
  component : String
  state : String
deriving DecidableEq

/-- The counts of a stored snapshot. -/
structure SnapshotHealth where
  total : Nat
  enabled : Nat
  healthy : Nat
  failed : Nat
deriving DecidableEq

/-- A row of `operations_snapshots`. -/
structure Snapshot where
  overallStatus : String
  riskLevel : String
  activeIncidentCount : Int
  alertCount : Int
  providerHealth : SnapshotHealth
  systemHealth : List RuntimeStatus
deriving DecidableEq

/-- The tables, each in the order in which the queries read it: incidents, findings, events and
snapshots newest first. -/
structure OperationsDb where
  incidents : List IncidentRow
  findings : List Finding
  events : List EventRow
  providers : List ProviderView
  alerts : List Alerts.Alert
  runtime : List RuntimeStatus
  migrationsCurrent : Bool
  snapshots : List Snapshot
  eventsNewestFirst : events.Pairwise (fun a b => b.occurredAt ≤ a.occurredAt)
  eventsDistinct : (events.map EventRow.eventId).Nodup

/-- `context_is_active_incident`. -/
def isActive (i : IncidentRow) : Bool :=
  match i.status with
  | .opened | .acknowledged | .detected | .investigating | .confirmed | .mitigated => true
  | .resolved | .closed => false

section Reads

variable (db : OperationsDb)

/-- `list_operations_incident_views(500)`. -/
def readIncidents : List IncidentRow := db.incidents.take 500

/-- `list_indicator_views(1000)`. -/
def readFindings : List Finding := db.findings.take 1000

/-- `list_events(None, 100)`. -/
def readEvents : List EventRow := db.events.take 100

end Reads

/-! ## Attention points -/

/-- `decision_severity_rank`. -/
def decisionSeverityRank (value : Option String) : Int :=
  match value.getD "info" with
  | "critical" => 90
  | "high" => 70
  | "medium" => 40
  | "low" => 10
  | _ => 0

/-- `decision_priority`. -/
def decisionPriority (score : Int) (severity : Option String) : String :=
  riskSeverity (max score (decisionSeverityRank severity))

/-- What a point of `decision_attention_points` is about. -/
inductive Subject
  | incident (i : IncidentRow)
  | riskFinding (f : Finding) (score : Int)
  | event (e : EventRow)
deriving DecidableEq

/-- The field `priority`. -/
def Subject.priority : Subject → String
  | .incident i => decisionPriority i.riskScore (some (severityName i.severity))
  | .riskFinding _ score => decisionPriority score none
  | .event e => decisionPriority 0 (some e.severity)

/-- `decision_priority_rank` of a point. -/
def Subject.rank (s : Subject) : Int := decisionSeverityRank (some s.priority)

def incidentPoints (incidents : List IncidentRow) : List Subject :=
  (incidents.filter isActive).map .incident

def findingPoints (findings : List Finding) : List Subject :=
  findings.filterMap (fun f => (f.riskScore.filter (0 < ·)).map (.riskFinding f))

def isImportant (e : EventRow) : Bool := e.severity = "high" || e.severity = "critical"

/-- `context_important_events`. -/
def contextImportantEvents (events : List EventRow) : List EventRow :=
  (events.filter isImportant).take 20

/-- The points before they are sorted. -/
def collectedPoints (incidents : List IncidentRow) (findings : List Finding)
    (events : List EventRow) : List Subject :=
  incidentPoints incidents ++ findingPoints findings ++
    (contextImportantEvents events).map .event

/-- `decision_attention_points`: a stable sort by `Reverse(rank)`, cut after 50. -/
def decisionAttentionPoints (incidents : List IncidentRow) (findings : List Finding)
    (events : List EventRow) : List Subject :=
  ((collectedPoints incidents findings events).mergeSort
    (fun a b => decide (b.rank ≤ a.rank))).take 50

/-- `recent_events` of `agent_operations_briefing`. -/
def recentEvents (db : OperationsDb) : List EventRow := (readEvents db).reverse.take 20

/-! ## Summary -/

/-- The parts of `decision_risk_assessment` that the summary passes on. -/
structure RiskAssessment where
  highestRiskScore : Int
  riskLevel : String
  overallStatus : String
  highestIncidentSeverity : Option IncidentSeverity

/-- The risk scores that an assessment reads. -/
def riskScores (incidents : List IncidentRow) (findings : List Finding) : List Int :=
  findings.filterMap Finding.riskScore ++ (incidents.filter isActive).map IncidentRow.riskScore

/-- `max_by_key`, which gives the last of the greatest. -/
def highestSeverity (severities : List IncidentSeverity) : Option IncidentSeverity :=
  severities.reverse.argmax (fun s => decisionSeverityRank (some (severityName s)))

/-- `decision_risk_assessment`. -/
def decisionRiskAssessment (incidents : List IncidentRow) (findings : List Finding) :
    RiskAssessment :=
  let highestRiskScore := (riskScores incidents findings).max?.getD 0
  let severity := highestSeverity ((incidents.filter isActive).map IncidentRow.severity)
  let incidentScore := decisionSeverityRank
    ((severity.map severityName).or (some (riskSeverity highestRiskScore)))
  { highestRiskScore
    riskLevel := riskSeverity highestRiskScore
    overallStatus := decisionPriority (max highestRiskScore incidentScore)
      (severity.map severityName)
    highestIncidentSeverity := severity }

structure ProviderHealth where
  total : Nat
  enabled : Nat
  healthy : Nat
  failed : Nat
  averageQualityScore : Int

/-- `operations_provider_health` without the items. -/
def operationsProviderHealth (providers : List ProviderView) : ProviderHealth where
  total := providers.length
  enabled := providers.countP ProviderView.enabled
  healthy := providers.countP (fun p => p.status = some "ok")
  failed := providers.countP (fun p => p.status = some "error")
  averageQualityScore :=
    if providers.length = 0 then 0
    else (providers.map ProviderView.qualityScore).sum.tdiv providers.length

/-- A change of a snapshot's value. -/
inductive Direction
  | increasing | decreasing | stable
deriving DecidableEq

structure TrendEntry (α : Type) where
  value : α
  previous : Option α
  changeDirection : Direction
  changeReason : String
  confidence : Nat

structure OverallTrend where
  changeDirection : Direction
  changeReason : String
  confidence : Nat

structure Trend where
  riskLevel : TrendEntry String
  activeIncidents : TrendEntry Int
  alerts : TrendEntry Int
  providerFailures : TrendEntry Int
  overall : OverallTrend

/-- The summary; `alerts` is the field `open` of the alert counts and absent until they are
inserted, as is the trend. -/
structure OperationsSummary where
  overallStatus : String
  riskLevel : String
  activeIncidents : Int
  criticalEvents : Nat
  providerHealth : ProviderHealth
  attentionPoints : List Subject
  systemStatus : Option String
  alerts : Option Int
  trend : Option Trend

/-- `operations_summary_data`. -/
def operationsSummaryData (incidents : List IncidentRow) (findings : List Finding)
    (events : List EventRow) (providers : List ProviderView) : OperationsSummary where
  overallStatus := (decisionRiskAssessment incidents findings).overallStatus
  riskLevel := (decisionRiskAssessment incidents findings).riskLevel
  activeIncidents := incidents.countP isActive
  criticalEvents := events.countP (fun e => e.severity = "critical")
  providerHealth := operationsProviderHealth providers
  attentionPoints := decisionAttentionPoints incidents findings events
  systemStatus := none
  alerts := none
  trend := none

/-! ## Trend -/

/-- `trend_rank`. -/
def trendRank : String → Int
  | "critical" => 5
  | "high" => 4
  | "medium" => 3
  | "low" => 2
  | "info" | "ok" => 1
  | "degraded" => 2
  | "unavailable" => 5
  | _ => 0

/-- `trend_direction`. -/
def trendDirection (current previous : Int) : Direction :=
  if previous < current then .increasing
  else if current < previous then .decreasing
  else .stable

def noSnapshot : String := "no historical snapshot available"

/-- `operations_trend`. -/
def operationsTrend (summary : OperationsSummary) (snapshots : List Snapshot) : Trend :=
  match snapshots with
  | [] =>
    { riskLevel := ⟨summary.riskLevel, none, .stable, noSnapshot, 0⟩
      activeIncidents := ⟨summary.activeIncidents, none, .stable, noSnapshot, 0⟩
      alerts := ⟨summary.alerts.getD 0, none, .stable, noSnapshot, 0⟩
      providerFailures := ⟨summary.providerHealth.failed, none, .stable, noSnapshot, 0⟩
      overall := ⟨.stable, noSnapshot, 0⟩ }
  | previous :: _ =>
    let currentRisk := summary.riskLevel
    let previousRisk := previous.riskLevel
    let currentIncidents := summary.activeIncidents
    let previousIncidents := previous.activeIncidentCount
    let currentAlerts := summary.alerts.getD 0
    let previousAlerts := previous.alertCount
    let currentFailures : Int := summary.providerHealth.failed
    let previousFailures : Int := previous.providerHealth.failed
    let riskDelta := trendRank currentRisk - trendRank previousRisk
    let overallDirection : Direction :=
      if 0 < riskDelta ∨ previousIncidents < currentIncidents ∨ previousAlerts < currentAlerts ∨
          previousFailures < currentFailures then .increasing
      else if riskDelta < 0 ∨ currentIncidents < previousIncidents ∨
          currentAlerts < previousAlerts ∨ currentFailures < previousFailures then .decreasing
      else .stable
    let overallReason :=
      if currentRisk ≠ previousRisk then
        "risk level changed from " ++ previousRisk ++ " to " ++ currentRisk
      else if currentIncidents ≠ previousIncidents then
        "active incidents changed from " ++ toString previousIncidents ++ " to " ++
          toString currentIncidents
      else if currentFailures ≠ previousFailures then
        "provider failures changed from " ++ toString previousFailures ++ " to " ++
          toString currentFailures
      else if currentAlerts ≠ previousAlerts then
        "open alerts changed from " ++ toString previousAlerts ++ " to " ++ toString currentAlerts
      else "no material change since the previous snapshot"
    { riskLevel := ⟨currentRisk, some previousRisk,
        if 0 < riskDelta then .increasing else if riskDelta < 0 then .decreasing else .stable,
        if currentRisk = previousRisk then "risk level is unchanged" else "risk level changed", 80⟩
      activeIncidents := ⟨currentIncidents, some previousIncidents,
        trendDirection currentIncidents previousIncidents, "active incident count comparison", 80⟩
      alerts := ⟨currentAlerts, some previousAlerts, trendDirection currentAlerts previousAlerts,
        "open alert count comparison", 80⟩
      providerFailures := ⟨currentFailures, some previousFailures,
        trendDirection currentFailures previousFailures, "provider failure count comparison", 80⟩
      overall := ⟨overallDirection, overallReason, 80⟩ }

/-! ## Snapshot and summary of a store -/

section Store

variable (db : OperationsDb)

def runtimeDegraded : Bool := db.runtime.any (fun r => r.state = "error")

/-- The severity of the most severe active incident, or `info`. -/
def snapshotRisk : String :=
  ((((db.incidents.filter isActive).map IncidentRow.severity).argmax
    (fun s => trendRank (severityName s))).map severityName).getD "info"

/-- `COUNT(*)` of the alerts that are open. -/
def openAlerts : Nat := db.alerts.countP (fun a => a.status = .opened)

def snapshotHealth : SnapshotHealth where
  total := db.providers.length
  enabled := db.providers.countP ProviderView.enabled
  healthy := db.providers.countP (fun p => p.status = some "ok" ∨ p.status = some "healthy")
  failed := db.providers.countP (fun p => p.status = some "error" ∨ p.status = some "failed")

/-- What `capture_operations_snapshot` stores. -/
def operationsSnapshot : Snapshot where
  overallStatus :=
    if runtimeDegraded db then "unavailable"
    else if snapshotRisk db = "critical" then "critical"
    else if 0 < (snapshotHealth db).failed then "degraded"
    else "ok"
  riskLevel := snapshotRisk db
  activeIncidentCount := db.incidents.countP isActive
  alertCount := openAlerts db
  providerHealth := snapshotHealth db
  systemHealth := db.runtime

/-- `capture_operations_snapshot`. -/
def captureOperationsSnapshot : OperationsDb :=
  { db with snapshots := operationsSnapshot db :: db.snapshots }

/-- `alert_counts`: a state without alerts has no entry. -/
def alertCounts : Option Int := if openAlerts db = 0 then none else some (openAlerts db)

/-- `load_operations_summary`. -/
def loadOperationsSummary : OperationsSummary :=
  let summary := operationsSummaryData (readIncidents db) (readFindings db) (readEvents db)
    db.providers
  let systemStatus :=
    if db.migrationsCurrent && !runtimeDegraded db then
      if 0 < summary.providerHealth.failed then "degraded" else "ok"
    else "unavailable"
  -- the trend is computed before the alert counts are part of the summary
  let trend := operationsTrend summary (db.snapshots.take 100)
  { summary with systemStatus := some systemStatus, alerts := alertCounts db, trend := some trend }

end Store

end Clawforge.Operations

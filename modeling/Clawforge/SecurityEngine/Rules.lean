import Clawforge.Kit.Turns
import Clawforge.Storage.Assessments

/-!
# The rules of the security engine

`clawforge-security-engine`: the count-threshold and distinct-value rules, and what the
delivery of one canonical event makes of the stored ones. Every rule recomputes the two
windows that contain the event, one on each of two grids, and upserts one assessment for
each window that reaches the threshold.
-/

namespace Clawforge.SecurityEngine

open EventDelivery Assessments Reputation Kit

/-- The build's version, and the hit that `record_security_event` left in an event's
metadata, as the query reads it. -/
structure Env where
  engineVersion : String
  threatIntelHit : Event → Option IpReputationHit

/-! ## Rules -/

structure CountThresholdRule where
  ruleId : String
  ruleVersion : String
  eventType : String
  status : EventStatusFilter
  windowSeconds : Nat
  threshold : Nat
  maxMembers : Nat
  yieldsTo : Option String
deriving DecidableEq

def sshBruteforce : CountThresholdRule where
  ruleId := "ssh_bruteforce"
  ruleVersion := "2"
  eventType := "ssh_login_failure"
  status := .any
  windowSeconds := 300
  threshold := 5
  maxMembers := 1000
  yieldsTo := none

def sshBruteforceSlow : CountThresholdRule where
  ruleId := "ssh_bruteforce_slow"
  ruleVersion := "1"
  eventType := "ssh_login_failure"
  status := .any
  windowSeconds := 3600
  threshold := 15
  maxMembers := 61
  yieldsTo := some "ssh_bruteforce"

def httpAnomalyBurst : CountThresholdRule where
  ruleId := "http_anomaly_burst"
  ruleVersion := "2"
  eventType := "http_anomaly"
  status := .clientAttributable
  windowSeconds := 300
  threshold := 10
  maxMembers := 1000
  yieldsTo := none

def httpServerFaultBurst : CountThresholdRule where
  ruleId := "http_server_fault_burst"
  ruleVersion := "1"
  eventType := "http_anomaly"
  status := .serverError
  windowSeconds := 300
  threshold := 10
  maxMembers := 1000
  yieldsTo := none

/-- `RULES`. -/
def rules : List CountThresholdRule :=
  [sshBruteforce, sshBruteforceSlow, httpAnomalyBurst, httpServerFaultBurst]

structure DistinctValueThresholdRule where
  ruleId : String
  ruleVersion : String
  eventType : String
  status : EventStatusFilter
  field : String
  windowSeconds : Nat
  threshold : Nat
deriving DecidableEq

def httpScan : DistinctValueThresholdRule where
  ruleId := "http_scan"
  ruleVersion := "2"
  eventType := "http_anomaly"
  status := .clientAttributable
  field := "path"
  windowSeconds := 300
  threshold := 8

/-- `DISTINCT_VALUE_RULES`. -/
def distinctValueRules : List DistinctValueThresholdRule := [httpScan]

/-! ## Windows -/

/-- A point in seconds. -/
def atSecond (n : Int) : Int := n * 1000000

/-- `DateTime::timestamp`. -/
def timestamp (t : Int) : Int := t / 1000000

/-- `bucket_start`. -/
def bucketStart (occurredAt : Instant) (windowSeconds : Nat) (offsetSeconds : Int) : Int :=
  atSecond ((timestamp occurredAt - offsetSeconds) / windowSeconds * windowSeconds + offsetSeconds)

/-- `grid_offsets`. -/
def gridOffsets (windowSeconds : Nat) : List Int := [0, (windowSeconds / 2 : Nat)]

def severityForCount (count threshold : Nat) : String :=
  if threshold * 4 ≤ count then "critical"
  else if threshold * 2 ≤ count then "high"
  else "medium"

def confidenceForCount (count threshold : Nat) : Int :=
  max 60 (min 99 (60 + (count - threshold : Nat) * 4))

/-- The text of an `i64`. -/
def decimalInt : Int → String
  | .ofNat n => decimal n
  | .negSucc n => "-" ++ decimal (n + 1)

/-- The key of `persist_assessment_and_incident`. -/
def dedupeKeyOf (ruleId ruleVersion correlationId : String) (bucket : Int) : String :=
  ruleId ++ ":v" ++ ruleVersion ++ ":" ++ correlationId ++ ":" ++ decimalInt (timestamp bucket)

/-- `ORDER BY confidence DESC, last_seen DESC`. -/
def Better (a b : IpReputationHit) : Prop :=
  b.confidence < a.confidence ∨ (a.confidence = b.confidence ∧ b.lastSeen ≤ a.lastSeen)

instance : DecidableRel Better := fun _ _ => inferInstanceAs (Decidable (_ ∨ _))

/-- `bucket_threat_intel_hit_details`: of all events of the type, whatever their status. -/
def bucketThreatIntelHitDetails (env : Env) (events : List Event) (b : Bucket) :
    Option IpReputationHit :=
  (((events.filter { b with status := .any }.holds).filterMap env.threatIntelHit).insertionSort
    Better).head?

/-! ## Evaluation -/

/-- What an event delivery tells the engine. -/
structure EventRecord where
  eventType : String
  occurredAt : Instant
  correlationId : Option String
deriving DecidableEq

def recordOf (e : Event) : EventRecord where
  eventType := e.eventType
  occurredAt := e.occurredAt
  correlationId := e.correlationId

/-- The correlation id, unless it is blank. -/
def EventRecord.resource (event : EventRecord) : Option String :=
  event.correlationId.filter (fun v => Text.trim v.toList ≠ [])

/-- The assessment half of `persist_assessment_and_incident`. -/
def persistAssessment (env : Env) (s : AssessmentStore) (ruleId ruleVersion : String)
    (windowSeconds : Nat) (b : Bucket) (members : List Event) (event : EventRecord)
    (severity : String) (confidence : Int) (summary : String) : AssessmentStore :=
  (persistSecurityAssessment s {
    ruleId := ruleId
    ruleVersion := ruleVersion
    engineVersion := env.engineVersion
    dedupeKey := dedupeKeyOf ruleId ruleVersion b.correlationId b.start
    resource := b.correlationId
    severity := severity
    confidence := confidence
    summary := summary
    eventCount := members.length
    windowSeconds := windowSeconds
    bucketStart := b.start
    firstSeen := (members.head?.map Event.occurredAt).getD event.occurredAt
    lastSeen := (members.getLast?.map Event.occurredAt).getD event.occurredAt
    eventIds := members.map Event.eventId
    threatIntel := bucketThreatIntelHitDetails env s.events b }).1

/-- The window of a rule that starts at `start`. -/
def CountThresholdRule.bucket (rule : CountThresholdRule) (correlationId : String)
    (start : Int) : Bucket where
  eventType := rule.eventType
  correlationId := correlationId
  status := rule.status
  start := start
  stop := start + seconds rule.windowSeconds

def DistinctValueThresholdRule.bucket (rule : DistinctValueThresholdRule)
    (correlationId : String) (start : Int) : Bucket where
  eventType := rule.eventType
  correlationId := correlationId
  status := rule.status
  start := start
  stop := start + seconds rule.windowSeconds

/-- Whether an assessment of the rule that `rule` yields to overlaps the window. -/
def yields (s : AssessmentStore) (rule : CountThresholdRule) (b : Bucket) : Bool :=
  match rule.yieldsTo with
  | some other => resourceHasAssessmentOverlapping s b.correlationId other b.start b.stop
  | none => false

/-- `evaluate_rule` on one grid. -/
def evaluateWindow (env : Env) (rule : CountThresholdRule) (event : EventRecord)
    (correlationId : String) (s : AssessmentStore) (offset : Int) : AssessmentStore :=
  let b := rule.bucket correlationId (bucketStart event.occurredAt rule.windowSeconds offset)
  let members := listEventsForBucketLimited s.events b rule.maxMembers
  let count := members.length
  if count < rule.threshold then s
  else if yields s rule b then s
  else
    persistAssessment env s rule.ruleId rule.ruleVersion rule.windowSeconds b members event
      (severityForCount count rule.threshold) (confidenceForCount count rule.threshold)
      (decimal count ++ " events of type " ++ rule.eventType ++ " from the same source within " ++
        decimal rule.windowSeconds ++ "s (rule " ++ rule.ruleId ++ " v" ++ rule.ruleVersion ++
        "), grid offset +" ++ decimalInt offset ++ "s")

def evaluateRule (env : Env) (event : EventRecord) (s : AssessmentStore)
    (rule : CountThresholdRule) : AssessmentStore :=
  match event.resource with
  | none => s
  | some correlationId =>
    (gridOffsets rule.windowSeconds).foldl (evaluateWindow env rule event correlationId) s

/-- The values of the rule's field, each once. -/
def distinctValues (members : List (Event × Option String)) : List String :=
  (members.filterMap Prod.snd).dedup

/-- `evaluate_scan_rule` on one grid. -/
def evaluateScanWindow (env : Env) (rule : DistinctValueThresholdRule) (event : EventRecord)
    (correlationId : String) (s : AssessmentStore) (offset : Int) : AssessmentStore :=
  let b := rule.bucket correlationId (bucketStart event.occurredAt rule.windowSeconds offset)
  let members := listEventsForBucketWithField s.events b rule.field
  let count := (distinctValues members).length
  if count < rule.threshold then s
  else
    persistAssessment env s rule.ruleId rule.ruleVersion rule.windowSeconds b
      (members.map Prod.fst) event
      (severityForCount count rule.threshold) (confidenceForCount count rule.threshold)
      (decimal count ++ " distinct " ++ rule.field ++ " values across " ++
        decimal members.length ++ " events of type " ++ rule.eventType ++
        " from the same source within " ++ decimal rule.windowSeconds ++ "s (rule " ++
        rule.ruleId ++ " v" ++ rule.ruleVersion ++ "), grid offset +" ++ decimalInt offset ++ "s")

def evaluateScanRule (env : Env) (event : EventRecord) (s : AssessmentStore)
    (rule : DistinctValueThresholdRule) : AssessmentStore :=
  match event.resource with
  | none => s
  | some correlationId =>
    (gridOffsets rule.windowSeconds).foldl (evaluateScanWindow env rule event correlationId) s

def processDelivery (env : Env) (s : AssessmentStore) (event : EventRecord) : AssessmentStore :=
  let counted := (rules.filter (fun rule => rule.eventType = event.eventType)).foldl
    (evaluateRule env event) s
  (distinctValueRules.filter (fun rule => rule.eventType = event.eventType)).foldl
    (evaluateScanRule env event) counted

/-! ## Runs -/

/-- More events are stored, and then the delivery of one of them is processed. -/
def turn (env : Env) (s : AssessmentStore) (t : Turn Event) : AssessmentStore :=
  processDelivery env { s with events := s.events ++ t.stored } (recordOf t.item)

def emptyStore : AssessmentStore := ⟨[], Table.empty _, []⟩

def run (env : Env) (turns : List (Turn Event)) : AssessmentStore :=
  turns.foldl (turn env) emptyStore

end Clawforge.SecurityEngine

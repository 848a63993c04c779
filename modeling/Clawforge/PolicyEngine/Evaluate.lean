import Clawforge.SecurityEngine.Rules
import Clawforge.Storage.BridgePlan
import Clawforge.Storage.Corroboration

/-!
# The evaluation of an assessment

`clawforge-policy-engine`: the sources of evidence behind an assessment, the decision that
`clawforge_policy::decide` makes of its confidence and their number, and the decision that
`evaluate_assessment` persists for each policy in force.
-/

namespace Clawforge.PolicyEngine

open Assessments Bridge EventDelivery Kit Policies Reputation

/-! ## Decisions -/

/-- `clawforge_policy::PolicyDecision`. -/
structure PolicyDecision where
  decision : Decision
  riskScore : Nat
  corroborated : Bool
deriving DecidableEq, Repr

/-- `clawforge_policy::decide`. -/
def policyDecide (riskScore evidenceSources : Nat) : PolicyDecision where
  decision :=
    if riskScore ≤ 39 then .observe
    else if riskScore ≤ 69 then .challenge
    else if riskScore ≤ 89 then .rateLimit
    else if 2 ≤ evidenceSources then .block
    else .rateLimit
  riskScore := riskScore
  corroborated := 2 ≤ evidenceSources

/-- `risk_assessment_from_confidence`: the risk score. -/
def riskScoreOf (confidence : Int) : Nat := (max 0 (min confidence 100)).toNat

def minSeverityMet (assessmentSeverity policyMinSeverity : String) : Bool :=
  severityRank policyMinSeverity ≤ severityRank assessmentSeverity

/-! ## Attack shapes -/

/-- `ShapeConfig::from_env` takes no minimum below two. -/
structure ShapeConfig where
  enabled : Bool
  minUsernames : Int
  minInvalidUsernames : Int
  minSignaturePaths : Int
  pathPatterns : List String
  two_le : 2 ≤ minUsernames ∧ 2 ≤ minInvalidUsernames ∧ 2 ≤ minSignaturePaths
deriving DecidableEq

inductive ShapeKind
  | accountEnumeration
  | invalidAccountProbe
  | secretPathProbe
deriving DecidableEq, Repr

def ShapeKind.asStr : ShapeKind → String
  | .accountEnumeration => "account_enumeration"
  | .invalidAccountProbe => "invalid_account_probe"
  | .secretPathProbe => "secret_path_probe"

/-- `ShapeConfig::classify`. -/
def ShapeConfig.classify (c : ShapeConfig) (shape : AssessmentShape) : Option ShapeKind :=
  if !c.enabled then none
  else if c.minUsernames ≤ (shape.distinctUsernames : Int) then some .accountEnumeration
  else if c.minInvalidUsernames ≤ (shape.distinctInvalidUsernames : Int) then
    some .invalidAccountProbe
  else if c.minSignaturePaths ≤ (shape.signaturePaths : Int) then some .secretPathProbe
  else none

/-! ## Evidence -/

def observationOnlyRules : List String := ["http_server_fault_burst"]

def episodeGapSeconds : Int := 3600

/-- `CROSS_RULE_CORROBORATION_WINDOW`, in microseconds. -/
def crossRuleCorroborationWindow : Int := 3600 * 1000000

/-- The settings read from the environment, where a half-life or a minimal score counts only
if it is positive. -/
structure Config {α : Type} [Preorder α] (sc : Scoring α) where
  threatIntelMinConfidence : Int
  threatIntelMaxStalenessSeconds : Int
  historyHalfLifeSeconds : Int
  historyMinScore : α
  shape : ShapeConfig
  halfLife_pos : 0 < historyHalfLifeSeconds
  minScore_pos : sc.zero < historyMinScore

/-- What the evaluation takes from libraries: PostgreSQL, the hash of a decision's
evidence, and the text of an instant in JSON. -/
structure Env where
  pg : Postgres
  text : TextFunctions
  evidenceHash : Uuid → Nat → String → String
  instantText : Int → String

/-- The rows the evaluation reads. -/
structure Db where
  store : AssessmentStore
  intel : IntelDb
  policies : Table SecurityPolicy.id

inductive EvidenceBasis
  | observationOnly
  | threatIntelIp
  | threatIntelAsn
  | threatIntelSnapshot
  | independentEventFamily
  | priorEpisodeHistory
  | attackShape
  | behaviorOnly
deriving DecidableEq, Repr

def EvidenceBasis.text : EvidenceBasis → String
  | .observationOnly => "observation_only"
  | .threatIntelIp => "threat_intel_ip"
  | .threatIntelAsn => "threat_intel_asn"
  | .threatIntelSnapshot => "threat_intel_snapshot"
  | .independentEventFamily => "independent_event_family"
  | .priorEpisodeHistory => "prior_episode_history"
  | .attackShape => "attack_shape"
  | .behaviorOnly => "behavior_only"

/-- `IndependentEvidence`. -/
structure IndependentEvidence where
  sources : Nat
  basis : EvidenceBasis
  routing : Json
  shape : Json

inductive EvalError
  | sql (e : SqlError)
  | shape (e : ShapeError)
  | history (e : HistoryError)
deriving DecidableEq

/-- `threat_intel_hit_is_corroborating`. -/
def threatIntelHitIsCorroborating {α : Type} [Preorder α] {sc : Scoring α} (cfg : Config sc)
    (now : Instant) (hit : IpReputationHit) : Bool :=
  if networkContextSources.contains hit.source then false
  else if (hit.confidence : Int) < cfg.threatIntelMinConfidence then false
  else
    let ageSeconds := numSeconds (age now hit.lastSeen)
    0 ≤ ageSeconds && ageSeconds ≤ cfg.threatIntelMaxStalenessSeconds

/-- `SourceIntel::routing_json`. -/
def sourceRoutingJson (intel : SourceIntel) : Json :=
  match intel.context with
  | some c => Json.ofFields [
      ("prefix", jsonOption (fun n => .string
        (String.ofList (Net.displayIpAddr n.addr) ++ "/" ++ decimal n.prefixLen)) c.network),
      ("origin_asns", .array (c.originAsns.map (fun asn => jsonInt asn))),
      ("rpki", .string c.rpki),
      ("bgp_anomaly", .bool intel.bgpAnomaly)]
  | none => Json.ofFields [("context", .string "none"), ("bgp_anomaly", .bool intel.bgpAnomaly)]

def shapeJson (c : ShapeConfig) (counts : AssessmentShape) (kind : Option ShapeKind) : Json :=
  Json.ofFields [
    ("kind", jsonOption (fun k => .string (ShapeKind.asStr k)) kind),
    ("events", jsonInt counts.events),
    ("distinct_usernames", jsonInt counts.distinctUsernames),
    ("distinct_invalid_usernames", jsonInt counts.distinctInvalidUsernames),
    ("signature_paths", jsonInt counts.signaturePaths),
    ("min_usernames", jsonInt c.minUsernames),
    ("min_invalid_usernames", jsonInt c.minInvalidUsernames),
    ("min_signature_paths", jsonInt c.minSignaturePaths)]

section Evaluate

variable {α : Type} [Preorder α] [DecidableLE α] (env : Env) {sc : Scoring α} (cfg : Config sc)

/-- The counts of the member events and their shape, unless switched off. -/
def shapeOf (s : AssessmentStore) (id : Uuid) : Except EvalError (Json × Option ShapeKind) :=
  if cfg.shape.enabled then
    (assessmentShape env.text s id cfg.shape.pathPatterns).mapError EvalError.shape |>.map
      (fun counts =>
        let kind := cfg.shape.classify counts
        (shapeJson cfg.shape counts kind, kind))
  else .ok (.null, none)

/-- The reputation that counts: of the current view where there is one, and else of the
snapshot taken at ingest. -/
def reputationBasis (intel : SourceIntel) (now : Instant) (a : AssessmentRow) :
    Option EvidenceBasis :=
  if intel.resolved then
    (qualifyingListing intel cfg.threatIntelMinConfidence cfg.threatIntelMaxStalenessSeconds
      now).map (fun x => if x.1 = .ip then .threatIntelIp else .threatIntelAsn)
  else
    (a.threatIntel.filter (threatIntelHitIsCorroborating cfg now)).map
      (fun _ => .threatIntelSnapshot)

/-- The other sources, in the order in which they are asked. -/
def localBasis (s : AssessmentStore) (now : Instant) (a : AssessmentRow)
    (kind : Option ShapeKind) : Except EvalError (Nat × EvidenceBasis) :=
  if resourceHasIndependentFamilyAssessment s a.resource a.id
      ((now : Int) - crossRuleCorroborationWindow) observationOnlyRules then
    .ok (2, .independentEventFamily)
  else
    (resourcePriorEpisodeHistoryScore sc s now a.resource a.id cfg.historyHalfLifeSeconds
      episodeGapSeconds observationOnlyRules).mapError EvalError.history |>.map (fun score =>
        if cfg.historyMinScore ≤ score then (2, .priorEpisodeHistory)
        else if kind.isSome then (2, .attackShape)
        else (1, .behaviorOnly))

/-- `independent_evidence_for`. -/
def independentEvidenceFor (db : Db) (now : Instant) (a : AssessmentRow) :
    Except EvalError IndependentEvidence :=
  if observationOnlyRules.contains a.ruleId then .ok ⟨1, .observationOnly, .null, .null⟩
  else do
    let intel ← (currentSourceIntel env.pg db.intel now a.resource).mapError EvalError.sql
    let routing := if intel.resolved then sourceRoutingJson intel else .null
    let (shape, kind) ← shapeOf env cfg db.store a.id
    match reputationBasis cfg intel now a with
    | some basis => return ⟨2, basis, routing, shape⟩
    | none =>
      let (sources, basis) ← localBasis cfg db.store now a kind
      return ⟨sources, basis, routing, shape⟩

def boolText (b : Bool) : String := if b then "true" else "false"

def PolicyClass.text : PolicyClass → String
  | .observe => "observe"
  | .approval => "approval"
  | .automatic => "automatic"

def rationaleText (a : AssessmentRow) (policy : SecurityPolicy) (outcome : PolicyDecision)
    (evidence : IndependentEvidence) (observationOnly : Bool) : String :=
  "assessment " ++ uuidText a.id ++ " (rule " ++ a.ruleId ++ ", severity " ++ a.severity ++
    ", confidence " ++ SecurityEngine.decimalInt a.confidence ++ ", " ++ decimal a.eventCount ++
    " events, threat_intel_corroborated=" ++ boolText a.threatIntelCorroborated ++
    ") against policy '" ++ policy.name ++ "' v" ++ decimal policy.version ++ " (class " ++
    PolicyClass.text policy.policyClass ++ ", min severity " ++ policy.minSeverity ++ ") -> " ++
    decisionStr outcome.decision ++ " (evidence_sources=" ++ decimal evidence.sources ++
    ", corroborated=" ++ boolText outcome.corroborated ++ ", evidence_basis=" ++
    evidence.basis.text ++ ", observation_only=" ++ boolText observationOnly ++ ")"

def evidenceSnapshotJson (a : AssessmentRow) (evidence : IndependentEvidence)
    (observationOnly : Bool) : Json :=
  Json.ofFields [
    ("assessment_id", jsonUuid a.id),
    ("rule_id", .string a.ruleId),
    ("rule_version", .string a.ruleVersion),
    ("resource", .string a.resource),
    ("severity", .string a.severity),
    ("confidence", jsonInt a.confidence),
    ("event_count", jsonInt a.eventCount),
    ("bucket_start", .string (env.instantText a.bucketStart)),
    ("evidence_basis", .string evidence.basis.text),
    ("routing_context", evidence.routing),
    ("attack_shape", evidence.shape),
    ("observation_only", .bool observationOnly)]

/-- What one policy makes of an assessment and its evidence. -/
def outcomeOf (a : AssessmentRow) (evidence : IndependentEvidence) : PolicyDecision :=
  if observationOnlyRules.contains a.ruleId then ⟨.observe, riskScoreOf a.confidence, false⟩
  else policyDecide (riskScoreOf a.confidence) evidence.sources

/-- The decision for one policy, and its dedupe key. -/
def decisionFor (a : AssessmentRow) (evidence : IndependentEvidence) (policy : SecurityPolicy) :
    String × SecurityPolicyDecisionUpsert :=
  let observationOnly := observationOnlyRules.contains a.ruleId
  let outcome := outcomeOf a evidence
  let snapshot := evidenceSnapshotJson env a evidence observationOnly
  (uuidText policy.id ++ ":" ++ decimal policy.version ++ ":" ++ uuidText a.id,
    { policyId := policy.id
      policyVersion := policy.version
      assessmentId := a.id
      incidentId := a.incidentId
      decision := outcome.decision
      riskScore := outcome.riskScore
      evidenceSources := evidence.sources
      corroborated := outcome.corroborated
      rationale := rationaleText a policy outcome evidence observationOnly
      evidenceSnapshot := snapshot
      evidenceHash := env.evidenceHash policy.id policy.version snapshot.render })

/-- `evaluate_assessment`: what it persists, in order. -/
def evaluateAssessment (db : Db) (now : Instant) (a : AssessmentRow) :
    Except EvalError (List (String × SecurityPolicyDecisionUpsert)) :=
  (independentEvidenceFor env cfg db now a).map (fun evidence =>
    ((listActiveSecurityPoliciesForRule db.policies a.ruleId now).filter (fun policy =>
      minSeverityMet a.severity policy.minSeverity)).map (decisionFor env a evidence))

end Evaluate

end Clawforge.PolicyEngine

/-! ## Polling cycles

`run_cycle` of `clawforge-policy-engine`: the newest assessments, and up to a limit those of
the last day that have no decision although a policy of their rule is active. Each is
evaluated, and its decisions are persisted.
-/

namespace Clawforge.PolicyEngine

open Assessments EventDelivery Kit Policies Reputation

/-! ## Listings -/

/-- The rows a cycle reads and writes; `created_at` of the assessments is a table of its own
here. -/
structure CycleDb where
  db : Db
  createdAt : Uuid → Instant
  decisions : Table DecisionRow.id

/-- `ORDER BY bucket_start DESC`. -/
def Newer (a b : AssessmentRow) : Prop := b.bucketStart ≤ a.bucketStart

instance : DecidableRel Newer := fun a b => Int.decLe b.bucketStart a.bucketStart

/-- `limit.clamp(1, 500)`. -/
def clampLimit (limit : Int) : Nat := (max 1 (min limit 500)).toNat

/-- `list_security_assessments`. -/
def listSecurityAssessments (s : AssessmentStore) (incidentId : Option Uuid) (limit : Int) :
    List AssessmentRow :=
  ((s.assessments.rows.filter (fun a => incidentId = none || a.incidentId = incidentId)).insertionSort
    Newer).take (clampLimit limit)

/-- The assessment is of the window, has no decision, and a policy of its rule is active. -/
def undecided (w : CycleDb) (since : Int) (a : AssessmentRow) : Bool :=
  since ≤ (w.createdAt a.id : Int) &&
    !w.decisions.rows.any (fun d => d.assessmentId = a.id) &&
    w.db.policies.rows.any (fun p => p.ruleId = a.ruleId && p.status = .active)

/-- `list_undecided_security_assessments`. -/
def listUndecidedSecurityAssessments (w : CycleDb) (since : Int) (limit : Int) :
    List AssessmentRow :=
  ((w.db.store.assessments.rows.filter (undecided w since)).insertionSort Newer).take
    (clampLimit limit)

/-! ## The assessments of a cycle -/

def backlogWindowHours : Nat := 24

def backlogSince (now : Instant) : Int := (now : Int) - seconds (backlogWindowHours * 3600)

/-- The assessments of a cycle: the newest, and those of the backlog that are not among them. -/
def cycleAssessments (w : CycleDb) (now : Instant) (limit backlogLimit : Int) :
    List AssessmentRow :=
  let assessments := listSecurityAssessments w.db.store none limit
  let backlog := listUndecidedSecurityAssessments w (backlogSince now) backlogLimit
  let known := assessments.map AssessmentRow.id
  assessments ++ backlog.filter (fun a => !known.contains a.id)

end Clawforge.PolicyEngine

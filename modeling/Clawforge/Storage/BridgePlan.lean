import Clawforge.Storage.Executions

/-!
# The plan of the policy bridge

What makes a decision into an execution request: `clawforge_policy_bridge_plan` derives
the approval context from the decision, its policy and assessment, the current view of the
source and the action, or refuses with a reason. The same view is judged by
`SourceIntel::qualifying_listing` in the policy engine and once more when the executor
asks for the address (`clawforge_resolve_incident_source_for_apply`).
-/

/-! ## Security policies and their decisions

The tables `security_policies` and `security_policy_decisions`: the policies that are in
force for a rule, and the upsert of one shadow decision by its dedupe key.
-/

namespace Clawforge.Policies

open Kit

/-- `clawforge_policy::Decision`. -/
inductive Decision
  | observe
  | challenge
  | rateLimit
  | block
deriving DecidableEq, Repr

/-- `decision_str`. -/
def decisionStr : Decision → String
  | .observe => "observe"
  | .challenge => "challenge"
  | .rateLimit => "rate_limit"
  | .block => "block"

inductive PolicyStatus
  | draft
  | active
  | retired
deriving DecidableEq, Repr

inductive PolicyClass
  | observe
  | approval
  | automatic
deriving DecidableEq, Repr

structure SecurityPolicy where
  id : Uuid
  name : String
  version : Nat
  status : PolicyStatus
  policyClass : PolicyClass
  ruleId : String
  minSeverity : String
  validFrom : Instant
  validUntil : Option Instant
deriving DecidableEq

/-- The policy is active and within its validity. -/
def SecurityPolicy.inForce (p : SecurityPolicy) (at_ : Instant) : Bool :=
  p.status = .active && p.validFrom ≤ at_ && p.validUntil.all (fun u => decide (at_ < u))

/-- `list_active_security_policies_for_rule`, newest version first. -/
def listActiveSecurityPoliciesForRule (T : Table SecurityPolicy.id) (ruleId : String)
    (at_ : Instant) : List SecurityPolicy :=
  (T.rows.filter (fun p => p.ruleId = ruleId && p.inForce at_)).insertionSort
    (fun a b => b.version ≤ a.version)

structure DecisionRow where
  id : Uuid
  policyId : Uuid
  policyVersion : Nat
  assessmentId : Uuid
  incidentId : Option Uuid
  decision : Decision
  riskScore : Nat
  evidenceSources : Nat
  corroborated : Bool
  rationale : String
  evidenceSnapshot : Json
  evidenceHash : String
  isShadow : Bool
  dedupeKey : String
  updatedAt : Instant
deriving DecidableEq

structure SecurityPolicyDecisionUpsert where
  policyId : Uuid
  policyVersion : Nat
  assessmentId : Uuid
  incidentId : Option Uuid
  decision : Decision
  riskScore : Nat
  evidenceSources : Nat
  corroborated : Bool
  rationale : String
  evidenceSnapshot : Json
  evidenceHash : String

def SecurityPolicyDecisionUpsert.row (request : SecurityPolicyDecisionUpsert) (dedupeKey : String)
    (id : Uuid) (now : Instant) : DecisionRow where
  id := id
  policyId := request.policyId
  policyVersion := request.policyVersion
  assessmentId := request.assessmentId
  incidentId := request.incidentId
  decision := request.decision
  riskScore := request.riskScore
  evidenceSources := request.evidenceSources
  corroborated := request.corroborated
  rationale := request.rationale
  evidenceSnapshot := request.evidenceSnapshot
  evidenceHash := request.evidenceHash
  isShadow := true
  dedupeKey := dedupeKey
  updatedAt := now

/-- `ON CONFLICT (dedupe_key) DO UPDATE`. -/
def redecided (request : SecurityPolicyDecisionUpsert) (now : Instant) (row : DecisionRow) :
    DecisionRow :=
  { row with
    incidentId := request.incidentId
    decision := request.decision
    riskScore := request.riskScore
    evidenceSources := request.evidenceSources
    corroborated := request.corroborated
    rationale := request.rationale
    evidenceSnapshot := request.evidenceSnapshot
    evidenceHash := request.evidenceHash
    updatedAt := now }

theorem id_redecided (request : SecurityPolicyDecisionUpsert) (now : Instant) (row : DecisionRow) :
    (redecided request now row).id = row.id := rfl

/-- `persist_security_policy_decision`; an insertion is refused where the drawn id is taken. -/
def persistSecurityPolicyDecision (T : Table DecisionRow.id) (dedupeKey : String)
    (request : SecurityPolicyDecisionUpsert) (new : Uuid) (now : Instant) :
    Option (Table DecisionRow.id) :=
  if T.rows.any (fun row => row.dedupeKey = dedupeKey) then
    some (T.updateWhere (fun row => row.dedupeKey = dedupeKey) (redecided request now)
      (id_redecided request now))
  else T.insert? (request.row dedupeKey new now)

end Clawforge.Policies

namespace Clawforge.Bridge

open Assessments EventDelivery Executions Policies Reputation Kit

/-! ## Qualifying listings -/

/-- `Duration::num_seconds` of microseconds: whole seconds, rounded towards zero. -/
def numSeconds (micros : Int) : Int := micros.tdiv 1000000

/-- The age of a listing, in microseconds. -/
def age (now lastSeen : Instant) : Int := (now : Int) - lastSeen

/-- `ListingHit::is_usable`. -/
def isUsable (minConfidence maxAgeSeconds : Int) (now : Instant) (hit : ListingHit) : Bool :=
  let age := numSeconds (age now hit.lastSeen)
  minConfidence ≤ (hit.confidence : Int) && 0 ≤ age && age ≤ maxAgeSeconds

/-- Which listing counts. -/
inductive Basis
  | ip
  | asn
  | snapshot
deriving DecidableEq, Repr

def Basis.text : Basis → String
  | .ip => "ip"
  | .asn => "asn"
  | .snapshot => "snapshot"

/-- `SourceIntel::qualifying_listing`. -/
def qualifyingListing (intel : SourceIntel) (minConfidence maxAgeSeconds : Int) (now : Instant) :
    Option (Basis × ListingHit) :=
  match intel.ip.filter (isUsable minConfidence maxAgeSeconds now) with
  | some hit => some (.ip, hit)
  | none =>
    ((intel.asn.map AsnListingHit.hit).filter (isUsable minConfidence maxAgeSeconds now)).map
      (fun hit => (.asn, hit))

/-- `confidence >= min AND last_seen >= NOW() - make_interval(secs => max)`. -/
def recentEnough (minConfidence maxAgeSeconds : Int) (now lastSeen : Instant) (confidence : Nat) :
    Bool :=
  minConfidence ≤ (confidence : Int) && (now : Int) - maxAgeSeconds * 1000000 ≤ (lastSeen : Int)

def accepted (minConfidence maxAgeSeconds : Int) (now : Instant) (hit : ListingHit) : Bool :=
  recentEnough minConfidence maxAgeSeconds now hit.lastSeen hit.confidence

/-! ## Parameters -/

inductive BridgeMode
  | simulate
  | propose
  | automatic
deriving DecidableEq, Repr

def BridgeMode.asStr : BridgeMode → String
  | .simulate => "simulate"
  | .propose => "propose"
  | .automatic => "automatic"

/-- `PolicyBridgeParams`. -/
structure PolicyBridgeParams where
  mode : BridgeMode
  actionName : String
  ttlSeconds : Int
  requesterId : Option Uuid
  ruleId : Option String
  maxEvidenceAgeSeconds : Int
  requireThreatIntel : Bool
  minIntelConfidence : Int
  maxPerWindow : Int
  windowSeconds : Int
deriving DecidableEq

structure RuntimeStatusRow where
  component : String
  state : String
  lastHeartbeatAt : Instant
deriving DecidableEq

/-- The tables the bridge reads and writes. -/
structure BridgeDb where
  executions : Executions.Db
  policies : Table SecurityPolicy.id
  decisions : Table DecisionRow.id
  assessments : Table AssessmentRow.id
  intel : IntelDb
  /-- an intent in `prepared` or `recovery_required` -/
  unresolvedIntent : Bool
  runtimeStatus : List RuntimeStatusRow

inductive Rejection
  | actionNotAllowed
  | parametersInvalid
  | decisionNotFound
  | decisionDoesNotMatchAction
  | notCorroborated
  | decisionNotReconfirmed
  | policyInactive
  | policyClassInsufficient
  | ruleRequired
  | ruleMismatch
  | resourceNotPseudonym
  | assessmentRuleMismatch
  | severityBelowPolicy
  | assessmentStale
  | resolutionMissing
  | threatIntelRequired
  | actionStateMismatch
  | requesterInvalid
  | approvalPolicyMissing
  | requesterNotAllowed
  | contextChanged
  | targetAlreadyActive
  | budgetExhausted
  | unresolvedFirewallState
  | executorNotHealthy
deriving DecidableEq, Repr

/-- Why a call creates nothing: a named condition, or an error of the database. -/
inductive PlanError
  | rejected (reason : Rejection)
  | sql (error : SqlError)
deriving DecidableEq

/-! ## The plan -/

def incidentSourceActions : List String :=
  ["nftables.block_incident_source", "haproxy.block_incident_source",
    "firewall.block_incident_source", "haproxy_ratelimit.block_incident_source"]

def networkContextSources : List String :=
  ["routeviews", "ripe_ris", "ripestat_asn", "hackertarget_asn", "peeringdb", "caida_as_rank",
    "team_cymru", "bgpstream", "bgpview_asn", "rpki_validator"]

/-- `CASE severity WHEN 'critical' THEN 3 …`. -/
def severityRank (severity : String) : Nat :=
  if severity = "critical" then 3
  else if severity = "high" then 2
  else if severity = "medium" then 1
  else 0

structure PlanIntel where
  basis : Basis
  source : String
  confidence : Nat
deriving DecidableEq

/-- The listing that sets `intel_ok`: of the current view of a resolved source, and without
one, for a simulation only, of the snapshot taken at ingest. -/
def planIntel (p : PolicyBridgeParams) (now : Instant) (intel : SourceIntel)
    (s : AssessmentRow) : Option PlanIntel :=
  if intel.resolved then
    match intel.ip.filter (accepted p.minIntelConfidence p.maxEvidenceAgeSeconds now) with
    | some hit => some ⟨.ip, hit.source, hit.confidence⟩
    | none =>
      ((intel.asn.map AsnListingHit.hit).filter
        (accepted p.minIntelConfidence p.maxEvidenceAgeSeconds now)).map
        (fun hit => ⟨.asn, hit.source, hit.confidence⟩)
  else if p.mode = .simulate ∧ s.threatIntelCorroborated = true then
    (s.threatIntel.filter (fun hit => !networkContextSources.contains hit.source &&
      recentEnough p.minIntelConfidence p.maxEvidenceAgeSeconds now hit.lastSeen
        hit.confidence)).map (fun hit => ⟨.snapshot, hit.source, hit.confidence⟩)
  else none

/-- `resource LIKE 'ip-pseudonym:%'`, with something behind the colon. -/
def isPseudonym (resource : String) : Bool :=
  (Text.stripPrefix "ip-pseudonym:".toList resource.toList).any (fun rest => decide (rest ≠ []))

/-- `'policy-bridge:' || p_mode || ':' || d.id::TEXT`. -/
def requestKey (mode : BridgeMode) (decisionId : Uuid) : String :=
  "policy-bridge:" ++ mode.asStr ++ ":" ++ uuidText decisionId

def jsonInt (n : Int) : Json := .number (.int n)

def jsonUuid (id : Uuid) : Json := .string (uuidText id)

def jsonOption {α : Type} (f : α → Json) : Option α → Json
  | some a => f a
  | none => .null

/-- The approvals a proposal needs, their timeout, and the profile that lowered them. -/
structure ApprovalTerms where
  approvals : Nat
  timeout : Option Nat
  profile : Option (Uuid × Nat)
deriving DecidableEq

/-- The terms of a mode: a proposal asks for a requester and the approvals of the action's
risk level, of which the single-operator profile leaves one. -/
def approvalTerms (db : Executions.Db) (p : PolicyBridgeParams) (action : ActionRow) :
    Except Rejection ApprovalTerms :=
  if p.mode = .propose then
    match p.requesterId.bind db.users.get? with
    | none => .error .requesterInvalid
    | some requester =>
      if ¬ (requester.enabled = true ∧ requester.role = "Operator") then
        .error .requesterInvalid
      else
        match db.policies.get? action.riskLevel with
        | none => .error .approvalPolicyMissing
        | some policy =>
          let approvals := max 1 policy.requiredApprovals
          match approvalProfile db with
          | some (operator, allowed) =>
            if 1 < approvals ∧ p.actionName ∈ allowed then
              .ok ⟨1, some policy.approvalTimeout, some (operator, approvals)⟩
            else .ok ⟨approvals, some policy.approvalTimeout, none⟩
          | none => .ok ⟨approvals, some policy.approvalTimeout, none⟩
  else if p.requesterId ≠ none then .error .requesterNotAllowed
  else .ok ⟨0, none, none⟩

/-- The request's `target`. -/
def planTarget (p : PolicyBridgeParams) (pseudonym : String) : Json :=
  Json.ofFields ([("kind", .string "incident_source"), ("pseudonym", .string pseudonym),
      ("ttl_seconds", jsonInt p.ttlSeconds)] ++
    if p.mode = .simulate then [("simulation_only", .bool true)] else [])

/-- `context_status` and the routing facts of a resolved source. -/
def routingJson (intel : SourceIntel) : Json :=
  Json.ofFields [
    ("context_status", jsonOption (fun _ => .string "ok") intel.context),
    ("prefix", jsonOption (fun n => .string
      (String.ofList (Net.displayIpAddr n.addr) ++ "/" ++ decimal n.prefixLen))
      (intel.context.bind RoutingContext.network)),
    ("origin_asns", jsonOption (fun c => .array (c.originAsns.map (fun asn => jsonInt asn)))
      intel.context),
    ("rpki", jsonOption (fun c => .string c.rpki) intel.context),
    ("bgp_anomaly", .bool intel.bgpAnomaly)]

/-- What a plan is made from. -/
structure PlanFacts where
  decision : DecisionRow
  policy : SecurityPolicy
  assessment : AssessmentRow
  intel : SourceIntel
  action : ActionRow
  terms : ApprovalTerms

def needsIntel (p : PolicyBridgeParams) : Bool := p.requireThreatIntel || p.mode = .automatic

/-- The approval context. -/
def planContext (p : PolicyBridgeParams) (now : Instant) (f : PlanFacts) : Json :=
  Json.ofFields ([
    ("version", jsonInt 1),
    ("action_id", jsonUuid f.action.id),
    ("action_name", .string f.action.name),
    ("risk_level", .string f.action.riskLevel),
    ("requires_approval", .bool (p.mode = .propose)),
    ("required_approvals", jsonInt f.terms.approvals),
    ("approval_timeout_seconds", jsonOption (fun (n : Nat) => jsonInt n) f.terms.timeout),
    ("max_retries", jsonInt 0),
    ("execution_timeout_seconds", jsonInt 60),
    ("workflow_run_id", .null),
    ("decision_id", .null),
    ("requested_by", .string "policy-bridge"),
    ("requested_by_id", jsonOption jsonUuid p.requesterId),
    ("idempotency_key", .string (requestKey p.mode f.decision.id)),
    ("target", planTarget p f.assessment.resource),
    ("policy_bridge", Json.ofFields [
      ("version", jsonInt 1),
      ("mode", .string p.mode.asStr),
      ("security_policy_decision_id", jsonUuid f.decision.id),
      ("policy_id", jsonUuid f.policy.id),
      ("policy_version", jsonInt f.policy.version),
      ("assessment_id", jsonUuid f.assessment.id),
      ("rule_id", .string f.policy.ruleId),
      ("evidence_hash", .string f.decision.evidenceHash),
      ("intel_required", .bool (needsIntel p)),
      ("min_intel_confidence", jsonInt p.minIntelConfidence),
      ("max_evidence_age_seconds", jsonInt p.maxEvidenceAgeSeconds),
      ("intel", jsonOption (fun i => Json.ofFields [("basis", .string i.basis.text),
          ("source", .string i.source), ("confidence", jsonInt i.confidence)])
        (planIntel p now f.intel f.assessment)),
      ("routing", if f.intel.resolved then routingJson f.intel else .null)])] ++
    match f.terms.profile with
    | none => []
    | some (operator, policyApprovals) =>
      [("approval_profile", Json.ofFields [("mode", .string "single_operator"),
        ("operator_user_id", jsonUuid operator),
        ("policy_required_approvals", jsonInt policyApprovals)])])

/-- A condition that refuses the plan. -/
def require (condition : Bool) (reason : Rejection) : Except PlanError Unit :=
  if condition then .ok () else .error (.rejected reason)

/-- A row that has to exist. -/
def found {α : Type} (row : Option α) (reason : Rejection) : Except PlanError α :=
  match row with
  | some a => .ok a
  | none => .error (.rejected reason)

/-- `last_seen >= NOW() - make_interval(secs => n)`. -/
def within (now : Instant) (secs : Int) (t : Instant) : Bool :=
  (now : Int) - secs * 1000000 ≤ (t : Int)

section Plan

variable (pg : Postgres)

/-- The decision, its policy and its assessment, each in the state a plan asks for. -/
def planEvidence (db : BridgeDb) (now : Instant) (decisionId : Uuid) (p : PolicyBridgeParams) :
    Except PlanError (DecisionRow × SecurityPolicy × AssessmentRow) := do
  require (incidentSourceActions.contains p.actionName) .actionNotAllowed
  require (1 ≤ p.ttlSeconds && p.ttlSeconds ≤ 86400 && 1 ≤ p.maxEvidenceAgeSeconds &&
    p.maxEvidenceAgeSeconds ≤ 604800 && 1 ≤ p.minIntelConfidence && p.minIntelConfidence ≤ 100)
    .parametersInvalid
  let d ← found ((db.decisions.get? decisionId).filter DecisionRow.isShadow) .decisionNotFound
  require (d.decision = if p.actionName = "haproxy_ratelimit.block_incident_source" then
    .rateLimit else .block) .decisionDoesNotMatchAction
  require (d.corroborated && 2 ≤ d.evidenceSources) .notCorroborated
  require (within now p.maxEvidenceAgeSeconds d.updatedAt) .decisionNotReconfirmed
  let policy ← found ((db.policies.get? d.policyId).filter (fun policy =>
    policy.version = d.policyVersion && policy.inForce now)) .policyInactive
  require (!((p.mode = .propose && policy.policyClass = .observe) ||
    (p.mode = .automatic && policy.policyClass ≠ .automatic))) .policyClassInsufficient
  require (!(p.ruleId = none && p.mode = .automatic)) .ruleRequired
  require (p.ruleId.all (fun rule => policy.ruleId = rule)) .ruleMismatch
  let s ← found ((db.assessments.get? d.assessmentId).filter (fun s => isPseudonym s.resource))
    .resourceNotPseudonym
  require (s.ruleId = policy.ruleId) .assessmentRuleMismatch
  require (severityRank policy.minSeverity ≤ severityRank s.severity) .severityBelowPolicy
  require (within now p.maxEvidenceAgeSeconds s.lastSeen) .assessmentStale
  return (d, policy, s)

/-- The action is in the state the mode asks for. -/
def actionMatches (mode : BridgeMode) (a : ActionRow) : Bool :=
  match mode with
  | .simulate => !a.enabled
  | .propose => a.enabled && a.requiresApproval
  | .automatic => a.enabled && !a.requiresApproval

/-- The facts of a plan, each check in the function's order. -/
def planFacts (db : BridgeDb) (now : Instant) (decisionId : Uuid) (p : PolicyBridgeParams) :
    Except PlanError PlanFacts := do
  let (d, policy, s) ← planEvidence db now decisionId p
  require (p.mode = .simulate || (resolve db.intel now s.resource).isSome) .resolutionMissing
  let intel ← (currentSourceIntel pg db.intel now s.resource).mapError PlanError.sql
  require (!needsIntel p || (planIntel p now intel s).isSome) .threatIntelRequired
  let a ← found ((db.executions.actions.rows.find? (fun a => a.name = p.actionName)).filter
    (actionMatches p.mode)) .actionStateMismatch
  let terms ← (approvalTerms db.executions p a).mapError PlanError.rejected
  return ⟨d, policy, s, intel, a, terms⟩

/-- `clawforge_policy_bridge_plan`: the context. -/
def policyBridgePlan (db : BridgeDb) (now : Instant) (decisionId : Uuid)
    (p : PolicyBridgeParams) : Except PlanError (PlanFacts × Json) :=
  (planFacts pg db now decisionId p).map (fun f => (f, planContext p now f))

/-! ## Release at dispatch -/

/-- The view of a resolved source still has a listing on the recorded terms. -/
def releaseAccepts (intel : SourceIntel) (minConfidence maxAgeSeconds : Int) (now : Instant) :
    Bool :=
  intel.resolved && (intel.ip.any (accepted minConfidence maxAgeSeconds now) ||
    intel.asn.any (fun a => accepted minConfidence maxAgeSeconds now a.hit))

end Plan

/-! ## What a plan says -/

section

variable (p : PolicyBridgeParams) (now : Instant) (f : PlanFacts)
include p now f

theorem get_target_planContext :
    (planContext p now f).get "target" = some (planTarget p f.assessment.resource) := by
  unfold planContext
  cases f.terms.profile <;> rw [Json.get_ofFields (by simp)] <;> simp [List.lookup_cons]

theorem targetPseudonym_planContext :
    targetPseudonym (planContext p now f) = some f.assessment.resource := by
  unfold targetPseudonym
  rw [get_target_planContext, Option.bind_some]
  unfold fieldText planTarget
  rw [Json.get_ofFields (by split <;> simp)]
  simp [List.lookup_cons]

theorem simulationOnly_planContext :
    simulationOnly (planContext p now f) = decide (p.mode = .simulate) := by
  unfold simulationOnly
  rw [get_target_planContext, Option.bind_some]
  unfold planTarget
  rw [Json.get_ofFields (by split <;> simp)]
  by_cases h : p.mode = .simulate
  · simp [h, List.lookup_cons]
  · simp [h, List.lookup_cons]

end

theorem found_ok {α : Type} {row : Option α} {reason : Rejection} {a : α}
    (h : found row reason = .ok a) : row = some a := by
  unfold found at h
  split at h
  · cases h
    rfl
  · cases h

theorem found_filter_ok {α : Type} {row : Option α} {q : α → Bool} {reason : Rejection} {a : α}
    (h : found (row.filter q) reason = .ok a) : row = some a :=
  (Option.filter_eq_some_iff.1 (found_ok h)).1

/-- The rows a plan rests on. -/
theorem planEvidence_ok {db : BridgeDb} {now : Instant} {decisionId : Uuid}
    {p : PolicyBridgeParams} {d : DecisionRow} {policy : SecurityPolicy} {s : AssessmentRow}
    (h : planEvidence db now decisionId p = .ok (d, policy, s)) :
    db.decisions.get? decisionId = some d ∧ db.policies.get? d.policyId = some policy ∧
      db.assessments.get? d.assessmentId = some s := by
  unfold planEvidence at h
  obtain ⟨-, -, h⟩ := bind_ok h
  obtain ⟨-, -, h⟩ := bind_ok h
  obtain ⟨d', hd, h⟩ := bind_ok h
  obtain ⟨-, -, h⟩ := bind_ok h
  obtain ⟨-, -, h⟩ := bind_ok h
  obtain ⟨-, -, h⟩ := bind_ok h
  obtain ⟨policy', hpolicy, h⟩ := bind_ok h
  obtain ⟨-, -, h⟩ := bind_ok h
  obtain ⟨-, -, h⟩ := bind_ok h
  obtain ⟨-, -, h⟩ := bind_ok h
  obtain ⟨s', hs, h⟩ := bind_ok h
  obtain ⟨-, -, h⟩ := bind_ok h
  obtain ⟨-, -, h⟩ := bind_ok h
  obtain ⟨-, -, h⟩ := bind_ok h
  cases h
  exact ⟨found_filter_ok hd, found_filter_ok hpolicy, found_filter_ok hs⟩

theorem planFacts_ok {pg : Postgres} {db : BridgeDb} {now : Instant} {decisionId : Uuid}
    {p : PolicyBridgeParams} {f : PlanFacts} (h : planFacts pg db now decisionId p = .ok f) :
    db.decisions.get? decisionId = some f.decision ∧
      db.policies.get? f.decision.policyId = some f.policy ∧
      db.assessments.get? f.decision.assessmentId = some f.assessment := by
  unfold planFacts at h
  obtain ⟨⟨d, policy, s⟩, he, h⟩ := bind_ok h
  obtain ⟨-, -, h⟩ := bind_ok h
  obtain ⟨intel, -, h⟩ := bind_ok h
  obtain ⟨-, -, h⟩ := bind_ok h
  obtain ⟨a, -, h⟩ := bind_ok h
  obtain ⟨terms, -, h⟩ := bind_ok h
  cases h
  exact planEvidence_ok he

end Clawforge.Bridge

import Clawforge.Firewall.Adapter
import Clawforge.Storage.Publication
import Clawforge.Storage.RuleIntents
import Mathlib.Data.List.Destutter

/-!
# Dispatching a firewall action

The executor's generic dispatch: `apply_single_adapter`, the `firewall.*`
fan-out, `try_dispatch_generic_with_mode`, and the action preview the API shows
an approver. A dispatch is a program that calls the adapters' methods and the
store; the adapters and their `render` are those of `firewall-agent`. The
executor's main loop always passes its store, so only the journal is optional.
-/

namespace Clawforge.Executor

open Clawforge.Firewall Clawforge.RuleIntents Clawforge.Text Kit
open EventDelivery (uuidText)

/-! ## Calls -/

/-- `ResolvedIncidentSourceAddress`. -/
structure ResolvedIncidentSourceAddress where
  pseudonym : String
  rawIp : String
deriving DecidableEq

/-- What a dispatch calls: the methods of its adapters and the store. -/
inductive ExecCall
  | preflight (adapter : AdapterKind) (target : FirewallTarget)
  | apply (adapter : AdapterKind) (action : FirewallAction) (dryRun : Bool)
  | verify (adapter : AdapterKind) (target : FirewallTarget)
  | prepare (args : PrepareArgs)
  | finish (id : Uuid) (input : FirewallActionReceiptInput)
  | recoveryRequired (id : Uuid)
  | resolveIncidentSource (executionId : Uuid)

abbrev ExecCall.Answer : ExecCall → Type
  | .preflight _ _ => Except AdapterError Preflight
  | .apply _ _ _ => Except AdapterError ApplyResult
  | .verify _ _ => Except AdapterError VerificationResult
  | .prepare _ => Except String Uuid
  | .finish _ _ => Except String Unit
  | .recoveryRequired _ => Except String Unit
  | .resolveIncidentSource _ => Except String (Option ResolvedIncidentSourceAddress)

/-! ## Outcomes -/

inductive DispatchCompletion
  | success | failed | recoveryRequired
deriving DecidableEq, Repr

inductive FirewallEffect
  | noMutation
  | verifiedOwned (id : Uuid)
  | uncertainOwned (id : Uuid)
  | nonJournaled
deriving DecidableEq, Repr

/-- `FirewallEffect::is_owned`. -/
def FirewallEffect.isOwned : FirewallEffect → Bool
  | .verifiedOwned _ | .uncertainOwned _ => true
  | .noMutation | .nonJournaled => false

structure FirewallDispatchReceipt where
  adapter : String
  preflightState : Json
  renderedCommands : Json
  observedState : Option Json
  verificationResult : Option String
  ttlSeconds : Nat
  rollbackPlan : Json
  isDryRun : Bool
  targetFingerprint : String
deriving DecidableEq

structure GenericDispatchOutcome where
  completion : DispatchCompletion
  effect : FirewallEffect
  resultSummary : Option String
  errorSummary : Option String
  receipts : List FirewallDispatchReceipt
deriving DecidableEq

/-- `GenericDispatchOutcome::failed`. -/
def GenericDispatchOutcome.failed (reason : String) : GenericDispatchOutcome where
  completion := .failed
  effect := .noMutation
  resultSummary := none
  errorSummary := some reason
  receipts := []

/-- A dispatch in progress. -/
abbrev Dispatch := Prog ExecCall.Answer GenericDispatchOutcome

def failed (reason : String) : Dispatch := .pure (.failed reason)

/-! ## One adapter -/

structure RuleJournal where
  executionId : Uuid
  actionName : String
deriving DecidableEq

/-- A committed write-ahead generation, with what its receipt must repeat. -/
structure Prepared where
  id : Uuid
  fingerprint : String
  targetJson : Json
  rollbackPlan : Json
  ttlSeconds : Nat
  journal : RuleJournal

/-- `receipt_safe_action`. -/
def receiptSafeAction (action : FirewallAction) : FirewallAction :=
  match action.target with
  | .resolvedIncidentSource _ pseudonym => { action with target := .incidentSource pseudonym }
  | _ => action

/-- `serde_json::json!` of argv arrays. -/
def commandsJson (commands : List (List String)) : Json :=
  .array (commands.map fun argv => .array (argv.map Json.string))

/-- `serde_json::json!({"commands": ...})`. -/
def commandsPlan (commands : List (List String)) : Json :=
  Json.ofFields [("commands", commandsJson commands)]

/-- The `verification_result` text of a live apply. -/
def verificationText : Except AdapterError VerificationResult → String
  | .ok .verified => "verified"
  | .ok .notPresent => "mismatch"
  | .error _ => "failed"

/-- The `observed_presence` text after a failed apply. -/
def presenceText : Except AdapterError VerificationResult → String
  | .ok .verified => "present"
  | .ok .notPresent => "absent"
  | .error _ => "unknown"

section SingleAdapter

variable (cfg : AdapterConfig) (kind : AdapterKind) (action : FirewallAction) (dryRun : Bool)

/-- `adapter_state_json`. -/
def adapterStateJson (raw : String) : Json :=
  if raw = "" then Json.ofFields []
  else (cfg.fromStr raw).getD (Json.ofFields [("raw", .string raw)])

/-- What the write-ahead generation of an action records. -/
def prepareArgs (journal : RuleJournal) (rendered : Firewall.FirewallActionReceipt)
    (preflightState : Json) : PrepareArgs where
  executionId := journal.executionId
  adapter := kind.name
  actionName := journal.actionName
  ruleScope := (kind.adapter cfg).ruleScope action.target
  ruleFingerprint := rendered.targetFingerprint
  targetJson := (RecoveryTarget.mk kind.name action.target).toJson
  preflightState := preflightState
  rollbackPlan := commandsPlan rendered.rollbackCommands
  ttlSeconds := rendered.ttlSeconds

/-- The receipt `finish_firewall_rule_intent` is given. -/
def finishInput (p : Prepared) (preflightState : Json) (result : ApplyResult) :
    FirewallActionReceiptInput where
  executionId := some p.journal.executionId
  adapter := result.receipt.adapter
  actionName := p.journal.actionName
  preflightState := preflightState
  renderedCommands := commandsJson result.receipt.renderedCommands
  observedState := result.observedState.map (adapterStateJson cfg)
  verificationResult := some .verified
  ttlSeconds := p.ttlSeconds
  rollbackPlan := p.rollbackPlan
  isDryRun := false
  receiptKind := .apply
  targetFingerprint := some p.fingerprint
  targetJson := some p.targetJson

/-- The outcome of a live apply that failed: its effect is uncertain. -/
def uncertainOutcome (effect : FirewallEffect) : Dispatch :=
  .call (.verify kind action.target) fun presence =>
    .pure
      { completion := .recoveryRequired
        effect := effect
        resultSummary := some ("adapter=" ++ kind.name ++
          " apply outcome uncertain; observed_presence=" ++ presenceText presence)
        errorSummary := some ("real apply failed; manual reconciliation required; presence " ++
          "does not prove ownership")
        receipts := [] }

/-- The journaled end of a verified live apply: the atomic finish. -/
def finishVerified (p : Prepared) (preflightState : Json) (result : ApplyResult) : Dispatch :=
  .call (.finish p.id (finishInput cfg p preflightState result)) fun finished =>
    match finished with
    | .ok () =>
      .pure
        { completion := .success
          effect := .verifiedOwned p.id
          resultSummary := some ("adapter=" ++ kind.name ++
            " dry_run=false verification=verified journaled")
          errorSummary := none
          receipts := [] }
    | .error _ =>
      .call (.recoveryRequired p.id) fun _ =>
        .pure
          { completion := .recoveryRequired
            effect := .uncertainOwned p.id
            resultSummary := some ("adapter=" ++ kind.name ++
              " applied but receipt persistence failed")
            errorSummary := some
              "firewall receipt persistence failed; reconciliation required"
            receipts := [] }

/-- The journaled end of a live apply that could not be verified. -/
def recoverUnverified (p : Prepared) (verification : String) : Dispatch :=
  .call (.recoveryRequired p.id) fun _ =>
    .pure
      { completion := .recoveryRequired
        effect := .uncertainOwned p.id
        resultSummary := some ("adapter=" ++ kind.name ++ " verification=" ++ verification)
        errorSummary := some "real apply could not be verified; manual reconciliation required"
        receipts := [] }

/-- The end without a journal: a dry run, or a live apply with its receipt in memory. -/
def nonJournaledOutcome (preflightState : Json) (result : ApplyResult)
    (verification : Option String) : GenericDispatchOutcome :=
  let completion := if dryRun || verification == some "verified" then
      DispatchCompletion.success
    else .recoveryRequired
  { completion := completion
    effect := .nonJournaled
    resultSummary := some ("adapter=" ++ kind.name ++ " dry_run=" ++ toString dryRun ++
      " verification=" ++ verification.getD "not_attempted")
    errorSummary := if completion = .recoveryRequired then
        some "real apply could not be verified; manual reconciliation required"
      else none
    receipts :=
      [{ adapter := result.receipt.adapter
         preflightState := preflightState
         renderedCommands := commandsJson result.receipt.renderedCommands
         observedState := result.observedState.map (adapterStateJson cfg)
         verificationResult := verification
         ttlSeconds := result.receipt.ttlSeconds
         rollbackPlan := commandsPlan result.receipt.rollbackCommands
         isDryRun := result.receipt.isDryRun
         targetFingerprint := result.receipt.targetFingerprint }] }

/-- From the apply's result on. -/
def settleApply (prepared : Option Prepared) (preflightState : Json) :
    Except AdapterError ApplyResult → Dispatch
  | .error _ =>
    if dryRun then failed "adapter dry-run planning failed"
    else
      match prepared with
      | some p =>
        .call (.recoveryRequired p.id) fun _ =>
          uncertainOutcome kind action (.uncertainOwned p.id)
      | none => uncertainOutcome kind action .nonJournaled
  | .ok result =>
    if dryRun then .pure (nonJournaledOutcome cfg kind dryRun preflightState result none)
    else
      .call (.verify kind action.target) fun verified =>
        match prepared with
        | some p =>
          if verificationText verified = "verified" then
            finishVerified cfg kind p preflightState result
          else recoverUnverified kind p (verificationText verified)
        | none =>
          .pure (nonJournaledOutcome cfg kind dryRun preflightState result
            (some (verificationText verified)))

/-- The apply itself; a dry run of an unresolved pseudonym is previewed by `render`. -/
def runApply (prepared : Option Prepared) (preflightState : Json) : Dispatch :=
  if dryRun && action.target.isIncidentSource then
    settleApply cfg kind action dryRun prepared preflightState
      (((kind.adapter cfg).render action).map fun receipt => ⟨receipt, none⟩)
  else
    .call (.apply kind action dryRun)
      (settleApply cfg kind action dryRun prepared preflightState)

/-- From the preflight's result on: the write-ahead of a journaled live apply. -/
def prepareApply (journal : Option RuleJournal) (preflightState : Json)
    (alreadyBlocked : Bool) : Dispatch :=
  match dryRun, journal with
  | false, some journal =>
    if alreadyBlocked then
      failed ("rule already present at preflight; refusing to adopt pre-existing (possibly " ++
        "operator-owned) state - no apply, no ownership")
    else
      match (kind.adapter cfg).render (receiptSafeAction action) with
      | .error _ => failed "adapter render failed; apply refused"
      | .ok rendered =>
        let args := prepareArgs cfg kind action journal rendered preflightState
        .call (.prepare args) fun answer =>
          match answer with
          | .ok id =>
            runApply cfg kind action dryRun
              (some ⟨id, args.ruleFingerprint, args.targetJson, args.rollbackPlan,
                args.ttlSeconds, journal⟩) preflightState
          | .error _ =>
            failed ("firewall rule already owned by an active generation; reconcile " ++
              "before reapply")
  | _, _ => runApply cfg kind action dryRun none preflightState

/-- `apply_single_adapter`. -/
def applySingleAdapter (journal : Option RuleJournal) : Dispatch :=
  .call (.preflight kind action.target) fun answer =>
    match answer with
    | .ok preflight =>
      prepareApply cfg kind action dryRun journal
        (adapterStateJson cfg preflight.rawSetJson) preflight.alreadyBlocked
    | .error _ =>
      if dryRun then
        prepareApply cfg kind action dryRun journal
          (Json.ofFields [("status", .string "preflight_unavailable"),
            ("mode", .string "dry_run")]) false
      else failed "adapter preflight failed; apply refused"

end SingleAdapter

/-! ## The fan-out -/

/-- `MANDATORY_MULTI_ADAPTER`. -/
def mandatoryMultiAdapter : AdapterKind := .nftables

/-- What the loop of `dispatch_multi_with_adapters` carries. -/
structure MultiState where
  mandatorySeen : Bool
  mandatorySuccess : Bool
  uncertain : Bool
  aggregateEffect : FirewallEffect
  summaries : List String
  errors : List String
  receipts : List FirewallDispatchReceipt
deriving DecidableEq

def MultiState.start : MultiState := ⟨false, false, false, .noMutation, [], [], []⟩

/-- An uncertain generation is preferred; otherwise the first owned one is kept. -/
def aggregate (effect new : FirewallEffect) : FirewallEffect :=
  match effect, new with
  | _, .uncertainOwned id => .uncertainOwned id
  | .noMutation, .verifiedOwned id | .nonJournaled, .verifiedOwned id => .verifiedOwned id
  | _, _ => effect

/-- One iteration of the loop. -/
def MultiState.add (s : MultiState) (kind : AdapterKind) (result : GenericDispatchOutcome) :
    MultiState where
  mandatorySeen := s.mandatorySeen || kind == mandatoryMultiAdapter
  mandatorySuccess := if kind = mandatoryMultiAdapter then result.completion == .success
    else s.mandatorySuccess
  uncertain := s.uncertain || result.completion == .recoveryRequired
  aggregateEffect := aggregate s.aggregateEffect result.effect
  summaries := s.summaries ++ result.resultSummary.toList
  errors := s.errors ++ (result.errorSummary.map fun e => kind.name ++ ": " ++ e).toList
  receipts := s.receipts ++ result.receipts

/-- What the fan-out reports after the loop. -/
def MultiState.outcome (dryRun : Bool) (s : MultiState) : GenericDispatchOutcome :=
  let errors := if s.mandatorySeen then s.errors
    else s.errors ++ ["mandatory nftables adapter missing"]
  { completion :=
      if s.uncertain then .recoveryRequired
      else if s.mandatorySeen && s.mandatorySuccess then .success
      else if !dryRun &&
          ((s.receipts.any fun receipt => !receipt.isDryRun) || s.aggregateEffect.isOwned) then
        .recoveryRequired
      else .failed
    effect := s.aggregateEffect
    resultSummary := some ("; ".intercalate s.summaries)
    errorSummary := if errors = [] then none else some ("; ".intercalate errors)
    receipts := s.receipts }

/-- The loop of the fan-out. -/
def multiLoop (cfg : AdapterConfig) (action : FirewallAction) (dryRun : Bool)
    (journal : Option RuleJournal) : List AdapterKind → MultiState → Dispatch
  | [], s => .pure (s.outcome dryRun)
  | kind :: rest, s =>
    (applySingleAdapter cfg kind action dryRun journal).bind fun result =>
      multiLoop cfg action dryRun journal rest (s.add kind result)

/-- `dispatch_multi_with_adapters`. -/
def dispatchMultiWithAdapters (cfg : AdapterConfig) (action : FirewallAction) (dryRun : Bool)
    (adapters : List AdapterKind) (journal : Option RuleJournal) : Dispatch :=
  multiLoop cfg action dryRun journal adapters .start

/-! ## Routing a claimed request -/

/-- `DEFAULT_FIREWALL_ACTION_TTL_SECONDS`. -/
def defaultActionTtlSeconds : Nat := 3600

structure ExecutorConfig where
  adapters : AdapterConfig
  /-- `CLAWFORGE_FIREWALL_ADAPTERS`, or its default -/
  multiAdapters : String
  /-- `firewall_max_ttl_seconds()` -/
  maxTtlSeconds : Nat

structure ClaimedExecutionRequest where
  id : Uuid
  actionName : String
  target : Option Json

/-- `u32::try_from(..).filter(|v| *v > 0)` of the target's TTL, or the default. -/
def ttlSecondsOf (target : Json) : Nat :=
  (((target.get "ttl_seconds").bind Json.asU64).filter fun v =>
    decide (v < 2 ^ 32) && decide (0 < v)).getD defaultActionTtlSeconds

/-- `parse_firewall_action`. -/
def parseFirewallAction (requestId : Uuid) (target : Json) :
    Except AdapterError FirewallAction := do
  let firewallTarget ← FirewallTarget.tryFrom target
  .ok ⟨firewallTarget, ttlSecondsOf target, "execution_request " ++ uuidText requestId⟩

/-- The known adapters of `configured_multi_adapters`. -/
def multiAdapterNamed (name : String) : Option AdapterKind :=
  if name = "nftables" then some .nftables
  else if name = "haproxy" then some .haproxy
  else if name = "haproxy_ratelimit" then some .haproxyRatelimit
  else none

/-- `configured_multi_adapters`: known names, nftables first if missing, runs of one name once. -/
def configuredMultiAdapters (raw : String) : List AdapterKind :=
  let known := ((trimmedPieces ',' raw.toList).map String.ofList).filterMap multiAdapterNamed
  let kinds := if mandatoryMultiAdapter ∈ known then known else mandatoryMultiAdapter :: known
  kinds.destutter (· ≠ ·)

/-- `FIREWALL_MULTI_ADAPTER_PREFIX`. -/
def isMulti (actionName : String) : Bool := startsWith actionName "firewall."

/-- `ttl_over_live_ceiling`. -/
def ttlOverLiveCeiling (ttlSeconds maxTtlSeconds : Nat) (dryRun : Bool) : Option String :=
  if dryRun || decide (ttlSeconds ≤ maxTtlSeconds) then none
  else some ("firewall action TTL " ++ toString ttlSeconds ++ "s exceeds the live ceiling " ++
    toString maxTtlSeconds ++ "s (CLAWFORGE_FIREWALL_MAX_TTL_SECONDS); refused so a real block " ++
    "always self-expires within a bounded window")

/-- The target of a live apply: an incident source is resolved now, or the dispatch refuses. -/
def resolveTarget (executionId : Uuid) (action : FirewallAction) (dryRun : Bool)
    (next : FirewallAction → Dispatch) : Dispatch :=
  match dryRun, action.target with
  | false, .incidentSource pseudonym =>
    .call (.resolveIncidentSource executionId) fun answer =>
      match answer with
      | .ok (some resolved) =>
        if resolved.pseudonym = pseudonym then
          next { action with
            target := .resolvedIncidentSource resolved.rawIp resolved.pseudonym }
        else failed "incident source resolution missing or expired; apply refused"
      | .ok none => failed "incident source resolution missing or expired; apply refused"
      | .error _ => failed "incident source resolution failed; apply refused"
  | _, _ => next action

/-- `try_dispatch_generic_with_mode`; `none` leaves the request to the other dispatchers. -/
def tryDispatchGenericWithMode (cfg : ExecutorConfig) (claimed : ClaimedExecutionRequest)
    (dryRun : Bool) : Option Dispatch :=
  let multi := isMulti claimed.actionName
  let single := if multi then none else adapterForAction claimed.actionName
  if !multi && single.isNone then none
  else some <|
    match claimed.target with
    | none => failed "firewall action has no target"
    | some target =>
      match parseFirewallAction claimed.id target with
      | .error _ => failed "invalid firewall action target"
      | .ok action =>
        match ttlOverLiveCeiling action.ttlSeconds cfg.maxTtlSeconds dryRun with
        | some reason => failed reason
        | none =>
          resolveTarget claimed.id action dryRun fun action =>
            let journal := some ⟨claimed.id, claimed.actionName⟩
            match single with
            | none =>
              dispatchMultiWithAdapters cfg.adapters action dryRun
                (configuredMultiAdapters cfg.multiAdapters) journal
            | some kind => applySingleAdapter cfg.adapters kind action dryRun journal

/-! ## The preview -/

/-- `action_preview` of the approval detail. -/
structure ActionPreview where
  adapter : String
  renderedCommands : List (List String)
  rollbackCommands : List (List String)
  ttlSeconds : Nat
deriving DecidableEq

/-- The preview of `admin_execution_detail`. -/
def actionPreview (cfg : AdapterConfig) (requestId : Uuid) (actionName : String)
    (target : Option Json) : Option ActionPreview := do
  let kind ← adapterForAction actionName
  let target := target.getD .null
  let firewallTarget ← (FirewallTarget.tryFrom target).toOption
  let action : FirewallAction := ⟨firewallTarget, ttlSecondsOf target,
    "preview for execution_request " ++ uuidText requestId⟩
  let receipt ← ((kind.adapter cfg).render action).toOption
  some ⟨receipt.adapter, receipt.renderedCommands, receipt.rollbackCommands, receipt.ttlSeconds⟩

end Clawforge.Executor

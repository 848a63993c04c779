import Clawforge.Kit.Table
import Clawforge.Values

/-!
# The firewall rule generation ledger

`firewall_action_intents` (its rule rows) and the receipts bound to them, with
the constraints and the trigger the migrations put on them, and the operations
of `firewall_rule_intents.rs` as functions of the committed ledger. A failed
operation is `Except.error` with the source's message; the executor reports no
other part of it. Audit rows are written in the same transactions and read by
nothing here, so they are left out.
-/

namespace Clawforge.RuleIntents

open Kit

/-! ## Rows -/

inductive IntentStatus
  | prepared | completed | notApplied | recoveryRequired | rolledBack
deriving DecidableEq, Repr

namespace IntentStatus

/-- The statuses of the partial unique index `firewall_rule_active_generation`. -/
def active : IntentStatus → Bool
  | prepared | completed | recoveryRequired => true
  | notApplied | rolledBack => false

/-- The transitions `protect_firewall_rule_intent_snapshot` lets through. -/
def moves : IntentStatus → IntentStatus → Bool
  | prepared, completed | prepared, notApplied | prepared, recoveryRequired
  | prepared, rolledBack | completed, recoveryRequired | completed, rolledBack
  | recoveryRequired, rolledBack => true
  | _, _ => false

end IntentStatus

structure FirewallRuleIntent where
  id : Uuid
  executionId : Uuid
  adapter : String
  actionName : String
  ruleScope : String
  ruleFingerprint : String
  targetJson : Json
  preflightState : Json
  rollbackPlan : Json
  ttlSeconds : Nat
  expiresAt : Instant
  createdAt : Instant
  status : IntentStatus
  completedAt : Option Instant
  errorSummary : Option String
deriving DecidableEq

namespace FirewallRuleIntent

/-- The columns of the unique index: the concrete rule a generation owns. -/
def ruleKey (r : FirewallRuleIntent) : String × String × String :=
  (r.adapter, r.ruleScope, r.ruleFingerprint)

end FirewallRuleIntent

/-- The columns `protect_firewall_rule_intent_snapshot` compares. -/
structure IntentSnapshot where
  id : Uuid
  executionId : Uuid
  adapter : String
  actionName : String
  createdAt : Instant
  ruleFingerprint : String
  ruleScope : String
  targetJson : Json
  preflightState : Json
  rollbackPlan : Json
  ttlSeconds : Nat
  expiresAt : Instant
deriving DecidableEq

def FirewallRuleIntent.snapshot (r : FirewallRuleIntent) : IntentSnapshot where
  id := r.id
  executionId := r.executionId
  adapter := r.adapter
  actionName := r.actionName
  createdAt := r.createdAt
  ruleFingerprint := r.ruleFingerprint
  ruleScope := r.ruleScope
  targetJson := r.targetJson
  preflightState := r.preflightState
  rollbackPlan := r.rollbackPlan
  ttlSeconds := r.ttlSeconds
  expiresAt := r.expiresAt

inductive ReceiptKind
  | apply | rollback
deriving DecidableEq, Repr

inductive ReceiptVerification
  | pending | verified | mismatch | failed
deriving DecidableEq, Repr

/-- A row of `firewall_action_receipts` that is bound to a generation. -/
structure FirewallActionReceipt where
  id : Uuid
  intentId : Uuid
  executionId : Uuid
  adapter : String
  actionName : String
  preflightState : Json
  renderedCommands : Json
  observedState : Option Json
  verificationResult : Option ReceiptVerification
  ttlSeconds : Nat
  rollbackPlan : Json
  isDryRun : Bool
  expiresAt : Instant
  receiptKind : ReceiptKind
  targetFingerprint : String
  targetJson : Json
deriving DecidableEq

structure FirewallActionReceiptInput where
  executionId : Option Uuid
  adapter : String
  actionName : String
  preflightState : Json
  renderedCommands : Json
  observedState : Option Json
  verificationResult : Option ReceiptVerification
  ttlSeconds : Nat
  rollbackPlan : Json
  isDryRun : Bool
  receiptKind : ReceiptKind
  targetFingerprint : Option String
  targetJson : Option Json

structure Ledger where
  intents : Table FirewallRuleIntent.id
  receipts : Table FirewallActionReceipt.id

def Ledger.empty : Ledger := ⟨.empty _, .empty _⟩

/-! ## Statements -/

/-- `CHECK firewall_rule_intent_snapshot_complete` and the TTL check. -/
def snapshotComplete (r : FirewallRuleIntent) : Bool :=
  r.adapter ∈ ["nftables", "haproxy", "haproxy_ratelimit"] &&
    1 ≤ r.ruleFingerprint.length && r.ruleFingerprint.length ≤ 256 &&
    1 ≤ r.ruleScope.length && r.ruleScope.length ≤ 256 &&
    r.targetJson.isObject && r.preflightState.isObject && r.rollbackPlan.isObject &&
    60 ≤ r.ttlSeconds && r.ttlSeconds ≤ 86400

/-- Some active row already has this rule key. -/
def Ledger.owns (L : Ledger) (key : String × String × String) : Prop :=
  ∃ r ∈ L.intents.rows, r.status.active = true ∧ r.ruleKey = key

instance (L : Ledger) (key) : Decidable (L.owns key) := by
  unfold Ledger.owns
  infer_instance

/-- `INSERT INTO firewall_action_intents`: the check, the unique index and the
primary key. -/
def insertIntent (L : Ledger) (r : FirewallRuleIntent) : Option Ledger :=
  if snapshotComplete r ∧ ¬ L.owns r.ruleKey then
    (L.intents.insert? r).map (fun intents => { L with intents })
  else none

/-- `INSERT INTO firewall_action_receipts`: the unique index on generation and
kind, and the primary key. -/
def insertReceipt (L : Ledger) (r : FirewallActionReceipt) : Option Ledger :=
  if ∃ x ∈ L.receipts.rows, x.intentId = r.intentId ∧ x.receiptKind = r.receiptKind then none
  else (L.receipts.insert? r).map (fun receipts => { L with receipts })

/-- `SET status=…, fw_error_summary=…, completed_at=NOW()`. -/
def setStatus (status : IntentStatus) (error : Option String) (now : Instant)
    (r : FirewallRuleIntent) : FirewallRuleIntent :=
  { r with status, errorSummary := error, completedAt := some now }

theorem setStatus_id (status error now) (r : FirewallRuleIntent) :
    (setStatus status error now r).id = r.id := rfl

/-- The rows after a status update. -/
def Ledger.setRow (L : Ledger) (id : Uuid) (status : IntentStatus) (error : Option String)
    (now : Instant) : Ledger :=
  { L with
    intents := L.intents.updateWhere (fun r => r.id = id) (setStatus status error now)
      (setStatus_id status error now) }

theorem Ledger.mem_setRow {L : Ledger} {id status error now} {r : FirewallRuleIntent} :
    r ∈ (L.setRow id status error now).intents ↔
      ∃ x ∈ L.intents, r = if x.id = id then setStatus status error now x else x := by
  show r ∈ L.intents.updateWhere _ _ (setStatus_id status error now) ↔ _
  rw [Table.mem_updateWhere]

/-- The trigger `protect_firewall_rule_intent_snapshot`. -/
def protectFirewallRuleIntentSnapshot (old new : FirewallRuleIntent) :
    Except String FirewallRuleIntent :=
  if old.snapshot ≠ new.snapshot then .error "firewall rule intent snapshot is immutable"
  else if old.status ≠ new.status ∧ ¬ old.status.moves new.status then
    .error "firewall rule generation transition refused"
  else .ok new

/-- `UPDATE firewall_action_intents SET status … WHERE id = $1`, with the
trigger. -/
def updateStatus (L : Ledger) (id : Uuid) (status : IntentStatus) (error : Option String)
    (now : Instant) : Except String Ledger :=
  match L.intents.get? id with
  | none => .ok L
  | some old =>
    (protectFirewallRuleIntentSnapshot old (setStatus status error now old)).map
      (fun _ => L.setRow id status error now)

/-! ## Preparing -/

structure PrepareArgs where
  executionId : Uuid
  adapter : String
  actionName : String
  ruleScope : String
  ruleFingerprint : String
  targetJson : Json
  preflightState : Json
  rollbackPlan : Json
  ttlSeconds : Nat

/-- `char::is_control`. -/
def isControl (c : Char) : Bool :=
  c.toNat < 32 || (127 ≤ c.toNat && c.toNat < 160)

def bounded (s : String) : Bool :=
  s ≠ "" && s.utf8ByteSize ≤ 256 && !s.toList.any isControl

/-- What `prepare_firewall_rule_intent` requires of its arguments. -/
def validIntentMetadata (a : PrepareArgs) : Bool :=
  a.adapter ∈ ["nftables", "haproxy", "haproxy_ratelimit"] &&
    bounded a.ruleFingerprint && bounded a.ruleScope &&
    a.targetJson.isObject && a.preflightState.isObject && a.rollbackPlan.isObject &&
    60 ≤ a.ttlSeconds && a.ttlSeconds ≤ 86400 &&
    [a.targetJson, a.preflightState, a.rollbackPlan].all
      (fun v => v.render.utf8ByteSize ≤ 65536)

def preparedRow (a : PrepareArgs) (id : Uuid) (now : Instant) : FirewallRuleIntent where
  id := id
  executionId := a.executionId
  adapter := a.adapter
  actionName := a.actionName
  ruleScope := a.ruleScope
  ruleFingerprint := a.ruleFingerprint
  targetJson := a.targetJson
  preflightState := a.preflightState
  rollbackPlan := a.rollbackPlan
  ttlSeconds := a.ttlSeconds
  expiresAt := now + seconds a.ttlSeconds
  createdAt := now
  status := .prepared
  completedAt := none
  errorSummary := none

def prepareFirewallRuleIntent (L : Ledger) (a : PrepareArgs) (id : Uuid) (now : Instant) :
    Except String Ledger :=
  if validIntentMetadata a then
    match insertIntent L (preparedRow a id now) with
    | some L' => .ok L'
    | none =>
      .error "firewall rule already owned by an active generation or invalid snapshot"
  else .error "invalid bounded firewall rule intent metadata"

/-! ## Resolving -/

/-- `acquire_firewall_rule_guard`, where no other transaction holds the row. -/
def acquireFirewallRuleGuard (L : Ledger) (id : Uuid) : Option FirewallRuleIntent :=
  (L.intents.get? id).filter (fun r => r.status.active)

/-- The comparison `FirewallRuleGuard::finish` makes before it writes. -/
def receiptMismatched (i : FirewallRuleIntent) (input : FirewallActionReceiptInput) : Bool :=
  i.status ≠ .prepared || input.executionId ≠ some i.executionId ||
    input.adapter ≠ i.adapter || input.actionName ≠ i.actionName ||
    input.targetFingerprint ≠ some i.ruleFingerprint ||
    input.targetJson ≠ some i.targetJson || input.preflightState ≠ i.preflightState ||
    input.rollbackPlan ≠ i.rollbackPlan || input.ttlSeconds ≠ i.ttlSeconds ||
    input.isDryRun || input.receiptKind ≠ .apply ||
    input.verificationResult ≠ some .verified

/-- The apply receipt `finish` writes: the generation's columns, and from the
input what was rendered, observed and verified. -/
def applyReceipt (i : FirewallRuleIntent) (input : FirewallActionReceiptInput)
    (id : Uuid) : FirewallActionReceipt where
  id := id
  intentId := i.id
  executionId := i.executionId
  adapter := i.adapter
  actionName := i.actionName
  preflightState := i.preflightState
  renderedCommands := input.renderedCommands
  observedState := input.observedState
  verificationResult := input.verificationResult
  ttlSeconds := i.ttlSeconds
  rollbackPlan := i.rollbackPlan
  isDryRun := false
  expiresAt := i.expiresAt
  receiptKind := .apply
  targetFingerprint := i.ruleFingerprint
  targetJson := i.targetJson

/-- The rollback receipt `resolve_rollback` writes. -/
def rollbackReceipt (i : FirewallRuleIntent) (id : Uuid) : FirewallActionReceipt where
  id := id
  intentId := i.id
  executionId := i.executionId
  adapter := i.adapter
  actionName := i.actionName
  preflightState := i.preflightState
  renderedCommands := i.rollbackPlan
  observedState := some (Json.ofFields [("restored_or_removed", .bool true)])
  verificationResult := some .verified
  ttlSeconds := i.ttlSeconds
  rollbackPlan := i.rollbackPlan
  isDryRun := false
  expiresAt := i.expiresAt
  receiptKind := .rollback
  targetFingerprint := i.ruleFingerprint
  targetJson := i.targetJson

/-- The error summary each transition records. -/
def transitionError : IntentStatus → Option String
  | .notApplied => some "verified no external mutation"
  | .recoveryRequired => some "external firewall rule state requires verified recovery"
  | _ => none

/-- `FirewallRuleGuard::transition`. -/
def transition (L : Ledger) (i : FirewallRuleIntent) (status : IntentStatus)
    (now : Instant) : Except String Ledger :=
  updateStatus L i.id status (transitionError status) now

/-- `FirewallRuleGuard::finish`. -/
def finish (L : Ledger) (i : FirewallRuleIntent) (input : FirewallActionReceiptInput)
    (receipt : Uuid) (now : Instant) : Except String Ledger :=
  if receiptMismatched i input then
    .error "receipt does not match prepared verified firewall rule generation"
  else
    match insertReceipt L (applyReceipt i input receipt) with
    | none => .error "duplicate key value violates unique constraint"
    | some L' => transition L' i .completed now

/-- `FirewallRuleGuard::resolve_rollback`. -/
def resolveRollback (L : Ledger) (i : FirewallRuleIntent) (receipt : Uuid)
    (now : Instant) : Except String Ledger :=
  match insertReceipt L (rollbackReceipt i receipt) with
  | none => .error "duplicate key value violates unique constraint"
  | some L' => transition L' i .rolledBack now

/-- `FirewallRuleGuard::recovery_required`. -/
def recoveryRequired (L : Ledger) (i : FirewallRuleIntent) (now : Instant) :
    Except String Ledger :=
  transition L i .recoveryRequired now

/-! ## The store's entry points -/

/-- Runs a guard operation, or reports the generation resolved or busy. -/
def withGuard (L : Ledger) (id : Uuid) (op : FirewallRuleIntent → Except String Ledger) :
    Except String Ledger :=
  match acquireFirewallRuleGuard L id with
  | none => .error "firewall rule generation is resolved or busy"
  | some i => op i

def finishFirewallRuleIntent (L : Ledger) (id : Uuid) (input : FirewallActionReceiptInput)
    (receipt : Uuid) (now : Instant) : Except String Ledger :=
  withGuard L id (fun i => finish L i input receipt now)

/-- `transition_firewall_rule_intent`. -/
def transitionFirewallRuleIntent (L : Ledger) (id : Uuid) (status : IntentStatus)
    (allowed : List IntentStatus) (now : Instant) : Except String Ledger :=
  withGuard L id (fun i =>
    if i.status ∈ allowed then transition L i status now
    else .error "firewall rule intent transition refused")

def markFirewallRuleNotApplied (L : Ledger) (id : Uuid) (now : Instant) :
    Except String Ledger :=
  transitionFirewallRuleIntent L id .notApplied [.prepared] now

def markFirewallRuleRecoveryRequired (L : Ledger) (id : Uuid) (now : Instant) :
    Except String Ledger :=
  transitionFirewallRuleIntent L id .recoveryRequired
    [.prepared, .completed, .recoveryRequired] now

def resolveFirewallRuleRollback (L : Ledger) (id : Uuid) (receipt : Uuid) (now : Instant) :
    Except String Ledger :=
  withGuard L id (fun i => resolveRollback L i receipt now)

/-- `active_firewall_rule_generation_for`. -/
def activeFirewallRuleGenerationFor (L : Ledger) (adapter fingerprint : String) :
    Option Uuid :=
  (L.intents.rows.find? (fun r =>
    r.adapter = adapter && r.ruleFingerprint = fingerprint && r.status.active)).map (·.id)

end Clawforge.RuleIntents

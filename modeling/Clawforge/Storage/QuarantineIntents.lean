import Clawforge.Firewall.Quarantine
import Clawforge.Storage.Executions
import Mathlib.Data.List.Dedup

/-!
# The quarantine generation ledger

The quarantine rows of `firewall_action_intents` with their receipts, next to
the execution requests their approvals belong to: the constraints and the
trigger of the migrations, and the operations of `quarantine_intents.rs` as
functions of the committed rows. What is written under a guard is committed
with the guard's last statement, so each operation that ends a guard is one
function. Audit rows are written in the same transactions and read by nothing
here.
-/

namespace Clawforge.Quarantine

open List

open Assessments (fieldText)
open RuleIntents (IntentStatus ReceiptKind ReceiptVerification FirewallActionReceipt
  FirewallActionReceiptInput isControl)
open Executions EventDelivery Kit

/-! ## Rows -/

structure QuarantineIntent where
  id : Uuid
  executionId : Uuid
  adapter : String
  actionName : String
  targetFingerprint : String
  targetJson : Json
  preflightState : Json
  rollbackPlan : Json
  ttlSeconds : Nat
  expiresAt : Instant
  createdAt : Instant
  status : IntentStatus
  proxmoxUpid : Option String
  completedAt : Option Instant
  errorSummary : Option String
deriving DecidableEq

/-- The columns `protect_quarantine_intent_snapshot` compares. -/
structure QuarantineSnapshot where
  id : Uuid
  executionId : Uuid
  adapter : String
  actionName : String
  createdAt : Instant
  targetFingerprint : String
  targetJson : Json
  preflightState : Json
  rollbackPlan : Json
  ttlSeconds : Nat
  expiresAt : Instant
deriving DecidableEq

def QuarantineIntent.snapshot (i : QuarantineIntent) : QuarantineSnapshot where
  id := i.id
  executionId := i.executionId
  adapter := i.adapter
  actionName := i.actionName
  createdAt := i.createdAt
  targetFingerprint := i.targetFingerprint
  targetJson := i.targetJson
  preflightState := i.preflightState
  rollbackPlan := i.rollbackPlan
  ttlSeconds := i.ttlSeconds
  expiresAt := i.expiresAt

namespace QuarantineIntent

/-- The columns of the unique index `firewall_quarantine_active_generation`. -/
def targetKey (i : QuarantineIntent) : String × String := (i.adapter, i.targetFingerprint)

end QuarantineIntent

structure QuarantineDb where
  db : Db
  intents : Table QuarantineIntent.id
  receipts : Table FirewallActionReceipt.id

/-! ## Statements -/

/-- The action whose generations an adapter's rows are. -/
def quarantineAction : String → Option String
  | "docker" => some "docker.quarantine_container"
  | "proxmox" => some "proxmox.quarantine_vm"
  | "tailscale" => some "tailscale.quarantine_device"
  | _ => none

/-- `CHECK quarantine_intent_snapshot_complete` and the TTL check. -/
def snapshotComplete (i : QuarantineIntent) : Bool :=
  quarantineAction i.adapter = some i.actionName &&
    1 ≤ i.targetFingerprint.length && i.targetFingerprint.length ≤ 256 &&
    i.targetJson.isObject && fieldText i.targetJson "kind" = some i.adapter &&
    i.preflightState.isObject && i.rollbackPlan.isObject &&
    60 ≤ i.ttlSeconds && i.ttlSeconds ≤ 86400

/-- Some active row already has this target. -/
def owned (T : Table QuarantineIntent.id) (key : String × String) : Prop :=
  ∃ i ∈ T.rows, i.status.active = true ∧ i.targetKey = key

instance (T : Table QuarantineIntent.id) (key) : Decidable (owned T key) := by
  unfold owned
  infer_instance

/-- `INSERT INTO firewall_action_intents`: the check, the unique index and the primary key. -/
def insertIntent (S : QuarantineDb) (i : QuarantineIntent) : Option QuarantineDb :=
  if snapshotComplete i ∧ ¬ owned S.intents i.targetKey then
    (S.intents.insert? i).map fun intents => { S with intents }
  else none

/-- `INSERT INTO firewall_action_receipts`: the unique index on generation and kind, and the
primary key. -/
def insertReceipt (S : QuarantineDb) (x : FirewallActionReceipt) : Option QuarantineDb :=
  if ∃ y ∈ S.receipts.rows, y.intentId = x.intentId ∧ y.receiptKind = x.receiptKind then none
  else (S.receipts.insert? x).map fun receipts => { S with receipts }

/-- The columns the guard's transaction leaves, with the task it recorded before. -/
def setStatus (status : IntentStatus) (error upid : Option String) (now : Instant)
    (i : QuarantineIntent) : QuarantineIntent :=
  { i with
    status, errorSummary := error, completedAt := some now, proxmoxUpid := upid.or i.proxmoxUpid }

theorem setStatus_id (status error upid now) (i : QuarantineIntent) :
    (setStatus status error upid now i).id = i.id := rfl

/-- `protect_quarantine_intent_snapshot`. -/
def protectQuarantineIntentSnapshot (old new : QuarantineIntent) : Except String Unit :=
  if old.snapshot ≠ new.snapshot then
    .error "quarantine intent snapshot is immutable"
  else if old.status ≠ new.status ∧ ¬ old.status.moves new.status then
    .error "quarantine generation transition refused"
  else .ok ()

/-- `UPDATE firewall_action_intents SET status … WHERE id = $1`, with the trigger. -/
def updateStatus (S : QuarantineDb) (id : Uuid) (status : IntentStatus)
    (error upid : Option String) (now : Instant) : Except String QuarantineDb :=
  match S.intents.get? id with
  | none => .ok S
  | some old =>
    (protectQuarantineIntentSnapshot old (setStatus status error upid now old)).map fun _ =>
      { S with
        intents := S.intents.updateWhere (fun i => i.id = id)
          (setStatus status error upid now) (setStatus_id status error upid now) }

/-! ## Approvals -/

/-- The actions `clawforge_lock_quarantine_approval` locks the context of. -/
def lockedActions : List String :=
  ["docker.quarantine_container", "proxmox.quarantine_vm", "tailscale.quarantine_device",
    "docker.reconcile_quarantine", "proxmox.reconcile_quarantine"]

/-- A request joined with its action and the policy of the action's risk level. -/
structure ApprovalContext where
  request : RequestRow
  action : ActionRow
  policy : ApprovalPolicyRow
deriving DecidableEq

def approvalContext (db : Db) (execution : Uuid) : Option ApprovalContext := do
  let request ← db.requests.get? execution
  let action ← db.actions.get? request.actionId
  let policy ← db.policies.get? action.riskLevel
  return { request := request, action := action, policy := policy }

/-- `clawforge_lock_quarantine_approval`. -/
def lockQuarantineApproval (db : Db) (execution : Uuid) : Except String ApprovalContext :=
  match (approvalContext db execution).filter (fun c => lockedActions.contains c.action.name) with
  | some c => .ok c
  | none => .error "quarantine approval context not found"

/-- `COUNT(DISTINCT ea.approver_id)` of the approvals under the context hash, without the
requester's. -/
def distinctApprovers (db : Db) (request : RequestRow) : Nat :=
  ((db.approvals.filter fun a => a.executionId = request.id &&
      some a.contextHash = request.approvalContextHash &&
      some a.approverId ≠ request.requestedById).map ApprovalRow.approverId).dedup.length

/-- The part every check of a quarantine approval has. -/
def dualApproved (db : Db) (now : Instant) (c : ApprovalContext) : Bool :=
  (c.request.status = .starting || c.request.status = .running) && c.action.enabled &&
    c.action.requiresApproval && c.action.riskLevel = "critical" &&
    2 ≤ c.policy.requiredApprovals && 2 ≤ c.request.requiredApprovals &&
    c.request.requestedById.isSome &&
    c.request.approvalExpiresAt.any (fun t => now < t) &&
    max c.request.requiredApprovals c.policy.requiredApprovals ≤ distinctApprovers db c.request

/-- The check of `validate_approval` and of `validate_reconcile_approval`. -/
def approvalCurrent (db : Db) (now : Instant) (execution : Uuid) (actionName : String)
    (target : Json) : Bool :=
  (approvalContext db execution).any fun c =>
    dualApproved db now c && c.action.name = actionName &&
      c.request.approvalContext.get "target" = some target

/-! ## Preparing -/

structure PrepareArgs where
  executionId : Uuid
  adapter : String
  targetFingerprint : String
  targetJson : Json
  preflightState : Json
  rollbackPlan : Json
  ttlSeconds : Nat
deriving DecidableEq

/-- The arguments `prepare_quarantine_intent` takes. -/
def validMetadata (a : PrepareArgs) : Bool :=
  ["docker", "proxmox", "tailscale"].contains a.adapter && a.targetFingerprint ≠ "" &&
    a.targetFingerprint.utf8ByteSize ≤ 256 && !a.targetFingerprint.toList.any isControl &&
    a.targetJson.isObject && a.preflightState.isObject && a.rollbackPlan.isObject &&
    60 ≤ a.ttlSeconds && a.ttlSeconds ≤ 86400 &&
    [a.targetJson, a.preflightState, a.rollbackPlan].all
      (fun v => v.render.utf8ByteSize ≤ 65536)

/-- The TTL the approved target asks for. -/
def approvedTtl (target : Json) : Except String Nat :=
  match target.get "ttl_seconds" with
  | none => .ok 3600
  | some v => v.asU64.elim (.error "quarantine ttl_seconds must be an integer") .ok

/-- `target[field].as_str().unwrap_or_default()`. -/
def targetStr (target : Json) (field : String) : String :=
  ((target.get field).bind Json.asStr).getD ""

/-- `target[field].as_u64().unwrap_or_default()`. -/
def targetU64 (target : Json) (field : String) : Nat :=
  ((target.get field).bind Json.asU64).getD 0

/-- The fingerprint of the target an approval names. -/
def canonicalFingerprint (adapter : String) (target : Json) : Except String String :=
  if adapter = "docker" then
    let id := targetStr target "container_id"
    match validateContainerId id with
    | .error _ => .error "invalid canonical Docker identity"
    | .ok () => .ok id
  else if adapter = "proxmox" then
    let node := targetStr target "node"
    let vmid := targetU64 target "vmid"
    match validateNode node with
    | .error _ => .error "invalid canonical Proxmox identity"
    | .ok () =>
      if vmid = 0 || vmid > 4294967295 then .error "invalid canonical Proxmox identity"
      else .ok (node ++ "/" ++ toString vmid)
  else
    let id := targetStr target "device_id"
    if id = "" || id.utf8ByteSize > 128 ||
        !id.toList.all (fun c => c.isAlphanum || c = '-' || c = '_') then
      .error "invalid canonical Tailscale identity"
    else .ok id

/-- `context[field]`, which is null where the field is missing. -/
def contextField (context : Json) (field : String) : Json := (context.get field).getD .null

/-- Whether the request's context is the one of this action, target and TTL. -/
def contextMatches (contextHash : Json → String) (a : PrepareArgs) (c : ApprovalContext)
    (ttl : Nat) : Bool :=
  let context := c.request.approvalContext
  quarantineAction a.adapter = some c.action.name &&
    contextField context "version" = .number (.int 1) &&
    contextField context "action_id" = .string (uuidText c.action.id) &&
    contextField context "action_name" = .string c.action.name &&
    contextField context "required_approvals" =
      .number (.int c.request.requiredApprovals) &&
    contextField a.targetJson "kind" = .string a.adapter &&
    contextField context "target" = a.targetJson &&
    c.request.approvalContextHash = some (contextHash context) &&
    contextField context "risk_level" = .string "critical" &&
    contextField context "requires_approval" = .bool true && ttl = a.ttlSeconds

def preparedRow (a : PrepareArgs) (actionName : String) (id : Uuid) (now : Instant) :
    QuarantineIntent where
  id := id
  executionId := a.executionId
  adapter := a.adapter
  actionName := actionName
  createdAt := now
  targetFingerprint := a.targetFingerprint
  targetJson := a.targetJson
  preflightState := a.preflightState
  rollbackPlan := a.rollbackPlan
  ttlSeconds := a.ttlSeconds
  expiresAt := now + seconds a.ttlSeconds
  status := .prepared
  proxmoxUpid := none
  completedAt := none
  errorSummary := none

/-- `prepare_quarantine_intent`. -/
def prepareQuarantineIntent (contextHash : Json → String) (S : QuarantineDb) (a : PrepareArgs)
    (id : Uuid) (now : Instant) : Except String QuarantineDb := do
  if !validMetadata a then .error "invalid bounded quarantine intent metadata"
  else
    let c ← lockQuarantineApproval S.db a.executionId
    if !dualApproved S.db now c then
      .error "quarantine intent requires current critical dual approval and claimed execution"
    else
      let ttl ← approvedTtl a.targetJson
      if !contextMatches contextHash a c ttl then
        .error "quarantine target or action differs from approved context"
      else
        let canonical ← canonicalFingerprint a.adapter a.targetJson
        if a.targetFingerprint ≠ canonical then
          .error "quarantine fingerprint differs from canonical approved target"
        else
          match insertIntent S (preparedRow a c.action.name id now) with
          | some S' => .ok S'
          | none => .error "duplicate key value violates unique constraint"

/-! ## The guard -/

/-- `acquire_quarantine_guard`, of a row no other transaction holds. -/
def acquireQuarantineGuard (S : QuarantineDb) (id : Uuid) : Option QuarantineIntent :=
  (S.intents.get? id).filter fun i => i.status.active

/-- `active_quarantine_intent_for`. -/
def activeQuarantineIntentFor (S : QuarantineDb) (adapter fingerprint : String) :
    Option QuarantineIntent :=
  S.intents.rows.find? fun i =>
    i.adapter = adapter && i.targetFingerprint = fingerprint && i.status.active

/-- The comparison `finish` makes before it writes. -/
def receiptMismatched (i : QuarantineIntent) (input : FirewallActionReceiptInput) : Bool :=
  i.status ≠ .prepared || input.executionId ≠ some i.executionId ||
    input.adapter ≠ i.adapter || input.actionName ≠ i.actionName ||
    input.targetFingerprint ≠ some i.targetFingerprint ||
    input.targetJson ≠ some i.targetJson || input.preflightState ≠ i.preflightState ||
    input.rollbackPlan ≠ i.rollbackPlan || input.ttlSeconds ≠ i.ttlSeconds ||
    input.isDryRun || input.receiptKind ≠ .apply ||
    input.verificationResult ≠ some .verified

/-- The columns a receipt takes from its generation. -/
def receiptOf (i : QuarantineIntent) (id : Uuid) (kind : ReceiptKind) (commands : Json)
    (observed : Option Json) : FirewallActionReceipt where
  id := id
  intentId := i.id
  executionId := i.executionId
  adapter := i.adapter
  actionName := i.actionName
  preflightState := i.preflightState
  renderedCommands := commands
  observedState := observed
  verificationResult := some .verified
  ttlSeconds := i.ttlSeconds
  rollbackPlan := i.rollbackPlan
  isDryRun := false
  expiresAt := i.expiresAt
  receiptKind := kind
  targetFingerprint := i.targetFingerprint
  targetJson := i.targetJson

/-- What a guard operation writes: its receipt, if it has one, and the new status. -/
def resolve (S : QuarantineDb) (i : QuarantineIntent) (upid : Option String)
    (receipt : Option FirewallActionReceipt) (status : IntentStatus) (error : Option String)
    (now : Instant) : Except String QuarantineDb :=
  match receipt.elim (some S) (insertReceipt S) with
  | none => .error "duplicate key value violates unique constraint"
  | some S' => updateStatus S' i.id status error upid now

/-- `QuarantineGuard::finish`. -/
def finish (S : QuarantineDb) (i : QuarantineIntent) (upid : Option String)
    (input : FirewallActionReceiptInput) (receipt : Uuid) (now : Instant) :
    Except String QuarantineDb :=
  if receiptMismatched i input then
    .error "receipt does not match prepared verified quarantine generation"
  else
    resolve S i upid
      (some (receiptOf i receipt .apply input.renderedCommands input.observedState))
      .completed none now

/-- `QuarantineGuard::resolve_rollback`. -/
def resolveRollback (S : QuarantineDb) (i : QuarantineIntent) (upid : Option String)
    (receipt : Uuid) (now : Instant) : Except String QuarantineDb :=
  resolve S i upid
    (some (receiptOf i receipt .rollback (.array [])
      (some (Json.ofFields [("restored_snapshot", .bool true)]))))
    .rolledBack none now

/-- `QuarantineGuard::recovery_required`. -/
def recoveryRequired (S : QuarantineDb) (i : QuarantineIntent) (upid : Option String)
    (now : Instant) : Except String QuarantineDb :=
  resolve S i upid none .recoveryRequired
    (some "external quarantine state requires verified recovery") now

/-! ## What they leave -/

/-- A guard operation changes the one row it names, along the transition graph. -/
theorem resolve_spec {S S' : QuarantineDb} {i : QuarantineIntent} {upid : Option String}
    {receipt : Option FirewallActionReceipt} {status : IntentStatus} {error : Option String}
    {now : Instant} (hi : i ∈ S.intents) (h : resolve S i upid receipt status error now = .ok S') :
    (i.status = status ∨ i.status.moves status = true) ∧ S'.db = S.db ∧
      S'.intents = S.intents.updateWhere (fun r => r.id = i.id)
        (setStatus status error upid now) (setStatus_id status error upid now) := by
  unfold resolve at h
  split at h
  · cases h
  · next S₁ hinsert =>
    have hsame : S₁.intents = S.intents ∧ S₁.db = S.db := by
      cases receipt with
      | none =>
        obtain rfl := Option.some.inj hinsert
        exact ⟨rfl, rfl⟩
      | some x =>
        have hinsert : insertReceipt S x = some S₁ := hinsert
        unfold insertReceipt at hinsert
        split at hinsert
        · cases hinsert
        · obtain ⟨_, _, rfl⟩ := Option.map_eq_some_iff.mp hinsert
          exact ⟨rfl, rfl⟩
    unfold updateStatus at h
    rw [hsame.1, Table.get?_key hi] at h
    obtain ⟨_, hallowed, rfl⟩ := except_map_ok h
    refine ⟨?_, hsame.2, rfl⟩
    unfold protectQuarantineIntentSnapshot at hallowed
    split at hallowed
    · cases hallowed
    · split at hallowed
      · cases hallowed
      · next hmoves =>
        by_cases heq : i.status = status
        · exact .inl heq
        · exact .inr (not_not.mp fun hnot => hmoves ⟨heq, hnot⟩)

/-- A preparation adds its row, whose target no active generation has. -/
theorem prepare_spec {contextHash : Json → String} {S S' : QuarantineDb} {a : PrepareArgs}
    {id : Uuid} {now : Instant}
    (h : prepareQuarantineIntent contextHash S a id now = .ok S') :
    ∃ actionName, ¬ owned S.intents (preparedRow a actionName id now).targetKey ∧
      S'.db = S.db ∧ S.intents.insert? (preparedRow a actionName id now) = some S'.intents := by
  unfold prepareQuarantineIntent at h
  split at h
  · cases h
  · obtain ⟨c, -, h⟩ := bind_ok h
    split at h
    · cases h
    · obtain ⟨ttl, -, h⟩ := bind_ok h
      split at h
      · cases h
      · obtain ⟨canonical, -, h⟩ := bind_ok h
        split at h
        · cases h
        · split at h
          · next S₁ hinsert =>
            obtain rfl := Except.ok.inj h
            unfold insertIntent at hinsert
            split at hinsert
            · next hcond =>
              obtain ⟨intents, hrow, rfl⟩ := Option.map_eq_some_iff.mp hinsert
              exact ⟨c.action.name, hcond.2, rfl, hrow⟩
            · cases hinsert
          · cases h

/-- More approvals leave no fewer approvers. -/
theorem distinctApprovers_mono {db db' : Db} (h : ∀ a ∈ db.approvals, a ∈ db'.approvals)
    (request : RequestRow) : distinctApprovers db request ≤ distinctApprovers db' request := by
  unfold distinctApprovers
  refine Subperm.length_le (subperm_of_subset (nodup_dedup _) fun a ha => ?_)
  rw [mem_dedup, List.mem_map] at ha ⊢
  obtain ⟨x, hx, rfl⟩ := ha
  obtain ⟨hmem, hcounts⟩ := mem_filter.mp hx
  exact ⟨x, mem_filter.mpr ⟨h x hmem, hcounts⟩, rfl⟩

/-- A check that has passed still passes while its context is locked. -/
theorem approvalCurrent_mono {db db' : Db} {now : Instant} {execution : Uuid}
    {actionName : String} {target : Json} (h : ∀ a ∈ db.approvals, a ∈ db'.approvals)
    (hcontext : approvalContext db' execution = approvalContext db execution)
    (hcurrent : approvalCurrent db now execution actionName target = true) :
    approvalCurrent db' now execution actionName target = true := by
  unfold approvalCurrent at hcurrent ⊢
  rw [hcontext]
  rw [Option.any_eq_true] at hcurrent ⊢
  obtain ⟨c, hc, hchecked⟩ := hcurrent
  refine ⟨c, hc, ?_⟩
  simp only [Bool.and_eq_true, dualApproved, decide_eq_true_eq] at hchecked ⊢
  obtain ⟨⟨⟨hrest, hcount⟩, hname⟩, htarget⟩ := hchecked
  exact ⟨⟨⟨hrest, hcount.trans (distinctApprovers_mono h c.request)⟩, hname⟩, htarget⟩

end Clawforge.Quarantine

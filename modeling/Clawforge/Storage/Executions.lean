import Clawforge.Storage.Assessments

/-!
# Execution requests and approvals

The tables behind `execution_requests` and the triggers that guard them: an approval row
is checked against its request (`clawforge_validate_execution_approval`), a request may
start pending or waiting for approval, and every later update keeps its approval context
and moves its status along an allowed edge (`clawforge_validate_execution_transition`).
-/

namespace Clawforge.Executions

open Assessments Kit Table

inductive Status
  | pending
  | queued
  | waitingApproval
  | approved
  | starting
  | running
  | success
  | completed
  | failed
  | timeout
  | rollbackRequired
  | cancelled
deriving DecidableEq, Repr

structure RequestRow where
  id : Uuid
  actionId : Uuid
  workflowRunId : Option Uuid
  decisionId : Option Uuid
  requestedBy : String
  requestedById : Option Uuid
  status : Status
  createdAt : Instant
  startedAt : Option Instant
  finishedAt : Option Instant
  resultSummary : Option String
  errorSummary : Option String
  idempotencyKey : Option String
  requiredApprovals : Nat
  approvalExpiresAt : Option Instant
  approvalContext : Json
  approvalContextHash : Option String
  retryCount : Nat
  maxRetries : Nat
  timeoutSeconds : Nat
  nextRetryAt : Option Instant
deriving DecidableEq

structure ActionRow where
  id : Uuid
  name : String
  riskLevel : String
  requiresApproval : Bool
  enabled : Bool
deriving DecidableEq

structure ApprovalPolicyRow where
  riskLevel : String
  requiredApprovals : Nat
  approvalTimeout : Nat
deriving DecidableEq

structure AdminUser where
  id : Uuid
  username : String
  role : String
  enabled : Bool
deriving DecidableEq

inductive ApprovalMode
  | distinctPerson
  | singleOperatorConfirmation
deriving DecidableEq, Repr

structure ApprovalRow where
  id : Uuid
  executionId : Uuid
  approverId : Uuid
  approverName : String
  contextHash : String
  approvedAt : Instant
  approvalMode : ApprovalMode
deriving DecidableEq

/-- The one row of `approval_profile`. -/
structure ApprovalProfile where
  singleOperator : Bool
  operatorUserId : Option Uuid
  allowedActions : List String
deriving DecidableEq

structure Db where
  actions : Table ActionRow.id
  policies : Table ApprovalPolicyRow.riskLevel
  users : Table AdminUser.id
  profile : Option ApprovalProfile
  requests : Table RequestRow.id
  approvals : List ApprovalRow

/-- `clawforge_approval_profile`: the designated operator of the single-operator profile
and the actions it lists, where the row is set and its operator an enabled administrator. -/
def approvalProfile (db : Db) : Option (Uuid × List String) :=
  match db.profile with
  | some ⟨true, some operator, allowed⟩ =>
    if (db.users.get? operator).any (fun u => u.enabled && u.role = "Administrator") then
      some (operator, allowed)
    else none
  | _ => none

/-! ## Approval contexts -/

/-- `approval_context -> 'approval_profile' ->> key`. -/
def profileField (context : Json) (key : String) : Option String :=
  (context.get "approval_profile").bind (fun p => fieldText p key)

/-- `approval_context -> 'target' ->> 'pseudonym'`. -/
def targetPseudonym (context : Json) : Option String :=
  (context.get "target").bind (fun t => fieldText t "pseudonym")

/-- `(approval_context -> 'target' -> 'simulation_only') IS NOT DISTINCT FROM 'true'`. -/
def simulationOnly (context : Json) : Bool :=
  (context.get "target").bind (fun t => t.get "simulation_only") = some (.bool true)

def profileMarked (context : Json) : Bool := profileField context "mode" = some "single_operator"

/-! ## Approvals -/

inductive ApprovalError
  | notWaiting
  | requester
  | windowExpired
  | contextMismatch
  | notAnApprover
  | nameMismatch
  | confirmationNotAllowed
  | profileRequest
deriving DecidableEq, Repr

/-- Whether the profile lets the approver confirm the request alone. -/
def confirmationAllowed (db : Db) (request : RequestRow) (approver : AdminUser) : Bool :=
  match approvalProfile db, db.actions.get? request.actionId with
  | some (operator, allowed), some action =>
    profileMarked request.approvalContext && approver.id = operator &&
      profileField request.approvalContext "operator_user_id" =
        some (EventDelivery.uuidText operator) &&
      allowed.contains action.name && request.requiredApprovals = 1 &&
      approver.role = "Administrator"
  | _, _ => false

/-- `clawforge_validate_execution_approval`. -/
def validateExecutionApproval (db : Db) (now : Instant) (new : ApprovalRow) :
    Except ApprovalError Unit :=
  match db.requests.get? new.executionId with
  | none => .error .notWaiting
  | some request =>
    if request.status ≠ .waitingApproval then .error .notWaiting
    else if request.requestedById = none then .error .requester
    else if ¬ request.approvalExpiresAt.any (fun t => decide (now < t)) then
      .error .windowExpired
    else if request.approvalContextHash ≠ some new.contextHash then .error .contextMismatch
    else
      match db.users.get? new.approverId with
      | none => .error .notAnApprover
      | some approver =>
        if ¬ approver.enabled ∨ ¬ (approver.role = "Administrator" ∨
            approver.role = "Approver") then .error .notAnApprover
        else if approver.username ≠ new.approverName then .error .nameMismatch
        else if new.approvalMode = .singleOperatorConfirmation then
          if confirmationAllowed db request approver then .ok ()
          else .error .confirmationNotAllowed
        else if profileMarked request.approvalContext then .error .profileRequest
        else if request.requestedById = some new.approverId then .error .requester
        else .ok ()

/-! ## Transitions -/

inductive TransitionError
  | mustStartPendingOrWaiting
  | missingContext
  | pendingWithRequirements
  | fewerThanPolicy
  | immutable
  | invalidTransition (old new : Status)
  | requirementsNotValid
  | missingApprovals (required found : Nat)
deriving DecidableEq, Repr

/-- The approvals the risk level of an action asks for. -/
def policyApprovals (db : Db) (actionId : Uuid) : Nat :=
  (((db.actions.get? actionId).bind (fun a => db.policies.get? a.riskLevel)).map
    ApprovalPolicyRow.requiredApprovals).getD 1

/-- Whether the profile admits a request with a single approval. -/
def loweredAllowed (db : Db) (new : RequestRow) : Bool :=
  match approvalProfile db, db.actions.get? new.actionId with
  | some (operator, allowed), some action =>
    allowed.contains action.name && new.requiredApprovals = 1 &&
      profileMarked new.approvalContext &&
      profileField new.approvalContext "operator_user_id" =
        some (EventDelivery.uuidText operator)
  | _, _ => false

/-- `clawforge_validate_execution_transition` on `INSERT`. -/
def validateInsert (db : Db) (now : Instant) (new : RequestRow) : Except TransitionError Unit :=
  if ¬ (new.status = .pending ∨ new.status = .waitingApproval) then
    .error .mustStartPendingOrWaiting
  else if new.status = .waitingApproval ∧ (new.requestedById = none ∨ new.requiredApprovals < 1 ∨
      ¬ new.approvalExpiresAt.any (fun t => decide (now < t)) = true ∨
      new.approvalContextHash = none) then
    .error .missingContext
  else if new.status = .pending ∧ new.requiredApprovals ≠ 0 then .error .pendingWithRequirements
  else if new.status = .waitingApproval ∧
      new.requiredApprovals < policyApprovals db new.actionId ∧ ¬ loweredAllowed db new then
    .error .fewerThanPolicy
  else .ok ()

/-- What no update changes. -/
def SameContext (old new : RequestRow) : Prop :=
  old.actionId = new.actionId ∧ old.workflowRunId = new.workflowRunId ∧
    old.decisionId = new.decisionId ∧ old.requestedBy = new.requestedBy ∧
    old.requestedById = new.requestedById ∧ old.idempotencyKey = new.idempotencyKey ∧
    old.maxRetries = new.maxRetries ∧ old.timeoutSeconds = new.timeoutSeconds ∧
    old.requiredApprovals = new.requiredApprovals ∧
    old.approvalExpiresAt = new.approvalExpiresAt ∧
    old.approvalContext = new.approvalContext ∧
    old.approvalContextHash = new.approvalContextHash

instance (old new : RequestRow) : Decidable (SameContext old new) := by
  unfold SameContext
  infer_instance

/-- The edges of the trigger. -/
def transitionAllowed (old new : RequestRow) : Bool :=
  match old.status, new.status with
  | .waitingApproval, .approved | .waitingApproval, .cancelled => true
  | .pending, .queued | .pending, .starting | .pending, .cancelled => true
  | .approved, .queued | .approved, .starting | .approved, .cancelled => true
  | .queued, .starting | .queued, .cancelled => true
  | .starting, .running | .starting, .queued | .starting, .failed | .starting, .timeout
  | .starting, .rollbackRequired | .starting, .cancelled => true
  | .running, .success | .running, .completed | .running, .queued | .running, .failed
  | .running, .timeout | .running, .rollbackRequired | .running, .cancelled => true
  | .failed, .queued =>
    new.retryCount = old.retryCount + 1 && new.retryCount ≤ new.maxRetries
  | .rollbackRequired, .cancelled => true
  | _, _ => false

/-- The approvals of a request under its context hash. -/
def matchingApprovals (db : Db) (request : RequestRow) : List ApprovalRow :=
  db.approvals.filter (fun a =>
    a.executionId = request.id && some a.contextHash = request.approvalContextHash)

/-- `clawforge_validate_execution_transition` on `UPDATE`. -/
def validateUpdate (db : Db) (now : Instant) (old new : RequestRow) :
    Except TransitionError Unit :=
  if ¬ SameContext old new then .error .immutable
  else if old.status = new.status then .ok ()
  else if ¬ transitionAllowed old new then .error (.invalidTransition old.status new.status)
  else if new.status = .approved then
    if old.requiredApprovals < 1 ∨ old.approvalContextHash = none ∨
        ¬ old.approvalExpiresAt.any (fun t => decide (now < t)) = true then
      .error .requirementsNotValid
    else if (matchingApprovals db old).length < old.requiredApprovals then
      .error (.missingApprovals old.requiredApprovals (matchingApprovals db old).length)
    else .ok ()
  else .ok ()

/-- `INSERT INTO execution_requests`: refused by the trigger, a taken id, or a taken
idempotency key. -/
def insertRequest (db : Db) (now : Instant) (new : RequestRow) : Option Db :=
  match validateInsert db now new with
  | .error _ => none
  | .ok () =>
    if new.idempotencyKey ≠ none ∧
        db.requests.rows.any (fun r => r.idempotencyKey = new.idempotencyKey) = true then none
    else (db.requests.insert? new).map (fun T => { db with requests := T })

/-- Overwrites the row with the id of `new`. -/
def replaceRow (new r : RequestRow) : RequestRow := if r.id = new.id then new else r

theorem id_replaceRow (new r : RequestRow) : (replaceRow new r).id = r.id := by
  unfold replaceRow
  split
  · rename_i h
    exact h.symm
  · rfl

/-- One row of an `UPDATE execution_requests`, which cannot change ids or creation times. -/
def updateRequest (db : Db) (now : Instant) (new : RequestRow) : Option Db :=
  match db.requests.get? new.id with
  | none => none
  | some old =>
    if new.createdAt = old.createdAt ∧ validateUpdate db now old new = .ok () then
      some { db with requests :=
        db.requests.updateWhere (fun r => r.id = new.id) (replaceRow new) (id_replaceRow new) }
    else none

/-! ## What the two leave -/

variable {new old : RequestRow}

theorem insertRequest_eq_some {db db' : Db} {now : Instant}
    (h : insertRequest db now new = some db') :
    validateInsert db now new = .ok () ∧
      (new.idempotencyKey ≠ none →
        ∀ r ∈ db.requests, r.idempotencyKey ≠ new.idempotencyKey) ∧
      ∃ T, db.requests.insert? new = some T ∧ db' = { db with requests := T } := by
  unfold insertRequest at h
  split at h
  case h_1 => cases h
  case h_2 hvalid =>
    split at h
    case isTrue => cases h
    case isFalse htaken =>
      refine ⟨hvalid, fun hkey r hr hsame => htaken ⟨hkey, ?_⟩, ?_⟩
      · exact List.any_eq_true.2 ⟨r, hr, decide_eq_true hsame⟩
      · obtain ⟨T, hT, rfl⟩ := Option.map_eq_some_iff.1 h
        exact ⟨T, hT, rfl⟩

/-- A row as it was, or as an update the trigger accepts has left it. -/
def Moved (old new : RequestRow) : Prop :=
  new = old ∨ (new.id = old.id ∧ new.createdAt = old.createdAt ∧ SameContext old new ∧
    (old.status = new.status ∨ transitionAllowed old new = true))

theorem Moved.id (h : Moved old new) : new.id = old.id := by
  rcases h with rfl | ⟨hid, -⟩
  · rfl
  · exact hid

theorem Moved.createdAt (h : Moved old new) : new.createdAt = old.createdAt := by
  rcases h with rfl | ⟨-, hcreated, -⟩
  · rfl
  · exact hcreated

theorem Moved.context (h : Moved old new) : SameContext old new := by
  rcases h with rfl | ⟨-, -, hsame, -⟩
  · unfold SameContext
    simp
  · exact hsame

theorem Moved.approvalContext (h : Moved old new) : new.approvalContext = old.approvalContext :=
  h.context.2.2.2.2.2.2.2.2.2.2.1.symm

theorem validateUpdate_ok {db : Db} {now : Instant} (h : validateUpdate db now old new = .ok ()) :
    SameContext old new ∧ (old.status = new.status ∨ transitionAllowed old new = true) := by
  unfold validateUpdate at h
  split at h
  case isTrue => cases h
  case isFalse hsame =>
    refine ⟨not_not.1 hsame, ?_⟩
    split at h
    case isTrue heq => exact .inl heq
    case isFalse =>
      split at h
      case isTrue => cases h
      case isFalse hedge => exact .inr (not_not.1 hedge)

/-- An update replaces one row by one it may move to. -/
theorem updateRequest_eq_some {db db' : Db} {now : Instant}
    (h : updateRequest db now new = some db') :
    ∃ T, db' = { db with requests := T } ∧
      T.rows = db.requests.rows.map (fun r => if r.id = new.id then new else r) ∧
      ∀ r ∈ db.requests, Moved r (if r.id = new.id then new else r) := by
  unfold updateRequest at h
  split at h
  case h_1 => cases h
  case h_2 old hold =>
    split at h
    case isFalse => cases h
    case isTrue hok =>
      refine ⟨_, (Option.some.inj h).symm, ?_, fun r hr => ?_⟩
      · apply List.map_congr_left
        intro r _
        unfold replaceRow
        split <;> rfl
      · split
        case isFalse => exact .inl rfl
        case isTrue hid =>
          have hrow : r = old :=
            eq_of_key_eq hr (mem_of_get? hold) (hid.trans (key_of_get? hold).symm)
          obtain ⟨hsame, hedge⟩ := validateUpdate_ok hok.2
          rw [hrow]
          exact .inr ⟨(key_of_get? hold).symm, hok.1, hsame, hedge⟩

end Clawforge.Executions

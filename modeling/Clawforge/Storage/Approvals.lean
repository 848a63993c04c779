import Clawforge.Storage.BridgeSessions
import Clawforge.Storage.ExecutionDispatch

/-!
# Approving execution requests

`create_execution_request`, and `approve_execution_request`,
`confirm_single_operator_execution` and `update_execution_status` statement by statement: each
locks its request's row, and what it writes is seen by others when it commits. Around them the
bridge inserts requests, the maintenance sweep and the claims move those that are not locked,
and users, actions, policies and the profile change.
-/

namespace Clawforge.Approvals

open Executions Kit
open Assessments (fieldText)
open EventDelivery (uuidText)

/-! ## Creation -/

/-- `ExecutionRequestInput`. -/
structure ExecutionRequestInput where
  actionId : Uuid
  workflowRunId : Option Uuid
  decisionId : Option Uuid
  requestedBy : String
  requestedById : Option Uuid
  idempotencyKey : Option String
  target : Option Json

def defaultExecutionMaxRetries : Nat := 3

def defaultExecutionTimeoutSeconds : Nat := 60

/-- What `create_execution_request` reads before it inserts, by statements of their own: the
action and the policy of its risk level, the profile, and the request under its key. -/
structure Reads where
  action : Option ActionRow
  policy : Option ApprovalPolicyRow
  profile : Option (Uuid × List String)
  existing : Option RequestRow

/-- The approvals a request needs, and the profile that lowered them. -/
def requirement (reads : Reads) (action : ActionRow) (policyApprovals : Nat) : Nat × Option Json :=
  match reads.profile with
  | some (operator, allowed) =>
    if 1 < policyApprovals ∧ action.name ∈ allowed then
      (1, some (.ofFields [("mode", .string "single_operator"),
        ("operator_user_id", .string (uuidText operator)),
        ("policy_required_approvals", .number (.int policyApprovals))]))
    else (policyApprovals, none)
  | none => (policyApprovals, none)

/-- The key a request is stored under: trimmed, not empty, of at most 160 characters. -/
def storedKey (key : Option String) : Option String :=
  (key.map (fun k => Text.trim k.toList)).bind fun cs =>
    if cs = [] then none else some (String.ofList (cs.take 160))

def optionJson {α : Type} (f : α → Json) (x : Option α) : Json := x.elim .null f

/-- The approval context. -/
def approvalContext (input : ExecutionRequestInput) (action : ActionRow) (approvals : Nat)
    (timeout : Option Nat) (profile : Option Json) : Json :=
  .ofFields ([("version", .number (.int 1)), ("action_id", .string (uuidText input.actionId)),
    ("action_name", .string action.name), ("risk_level", .string action.riskLevel),
    ("requires_approval", .bool action.requiresApproval),
    ("required_approvals", .number (.int approvals)),
    ("approval_timeout_seconds", optionJson (fun (n : Nat) => .number (.int n)) timeout),
    ("max_retries", .number (.int defaultExecutionMaxRetries)),
    ("execution_timeout_seconds", .number (.int defaultExecutionTimeoutSeconds)),
    ("workflow_run_id", optionJson (fun id => .string (uuidText id)) input.workflowRunId),
    ("decision_id", optionJson (fun id => .string (uuidText id)) input.decisionId),
    ("requested_by", .string (String.ofList (Text.trim input.requestedBy.toList))),
    ("requested_by_id", optionJson (fun id => .string (uuidText id)) input.requestedById),
    ("idempotency_key", optionJson .string (storedKey input.idempotencyKey)),
    ("target", optionJson id input.target)] ++
    profile.toList.map (fun p => ("approval_profile", p)))

/-- What a call comes to: a new row, the request under its key, or an error. -/
inductive Creation
  | insert (new : RequestRow)
  | existing (id : Uuid)
deriving DecidableEq

/-- A quarantine action has to be critical, under a policy of two persons. -/
def quarantineSafe (action : ActionRow) (policy : Option ApprovalPolicyRow) : Bool :=
  !quarantineActions.contains action.name ||
    (action.requiresApproval && action.riskLevel = "critical" &&
      2 ≤ (policy.map ApprovalPolicyRow.requiredApprovals).getD 0)

/-- The terms of a request: its approvals, their timeout and the profile. -/
def creationTerms (reads : Reads) (action : ActionRow) :
    Except String (Nat × Option Nat × Option Json) :=
  if action.requiresApproval then
    match reads.policy with
    | none => .error "approval policy not found"
    | some policy =>
      let (approvals, profile) := requirement reads action (max 1 policy.requiredApprovals)
      .ok (approvals, some policy.approvalTimeout, profile)
  else .ok (0, none, none)

/-- `create_execution_request`, up to its insertion. The process draws the id and reads its
clock at `utcNow`; the transaction begins at `now`. -/
def createExecutionRequest (contextHash : Json → String) (reads : Reads)
    (input : ExecutionRequestInput) (id : Uuid) (utcNow now : Instant) : Except String Creation :=
  match reads.action with
  | none => .error "action not found"
  | some action =>
    if ¬ action.enabled then .error "action is disabled"
    else if ¬ quarantineSafe action reads.policy then
      .error "quarantine requires a critical action and a two-person approval policy"
    else
      match creationTerms reads action with
      | .error e => .error e
      | .ok (approvals, timeout, profile) =>
        if action.requiresApproval ∧ input.requestedById = none then
          .error "approval-gated execution requires a requester identity"
        else
          let context := approvalContext input action approvals timeout profile
          let key := storedKey input.idempotencyKey
          match key.bind (fun _ => reads.existing) with
          | some existing =>
            if existing.approvalContextHash = some (contextHash context) then
              .ok (.existing existing.id)
            else .error "idempotency key is already bound to another execution request"
          | none =>
            .ok (.insert
              { id := id
                actionId := input.actionId
                workflowRunId := input.workflowRunId
                decisionId := input.decisionId
                requestedBy := String.ofList (Text.trim input.requestedBy.toList)
                requestedById := input.requestedById
                status := if action.requiresApproval then .waitingApproval else .pending
                createdAt := now
                startedAt := none
                finishedAt := none
                resultSummary := none
                errorSummary := none
                idempotencyKey := key
                requiredApprovals := approvals
                approvalExpiresAt := timeout.map (fun secs => utcNow + seconds secs)
                approvalContext := context
                approvalContextHash := some (contextHash context)
                retryCount := 0
                maxRetries := defaultExecutionMaxRetries
                timeoutSeconds := defaultExecutionTimeoutSeconds
                nextRetryAt := none })

/-! ## Transactions -/

inductive Call
  | approve (approver : Uuid) (actor : String)
  | confirm (approver : Uuid) (actor expectedHash : String)
  | update (next : Status) (result error : Option String)

/-- Where a transaction stands; from `locked` on it holds its request's row, as it read it. -/
inductive Stage
  | waiting
  | locked (row : RequestRow)
  | recorded (row : RequestRow) (approval : ApprovalRow)
  /-- everything is written but not committed -/
  | written (row : RequestRow) (approval : Option ApprovalRow) (new : RequestRow)

structure Tx where
  /-- its `NOW()` -/
  start : Instant
  request : Uuid
  call : Call
  stage : Stage

/-- The row a transaction has locked. -/
def Stage.row : Stage → Option RequestRow
  | .waiting => none
  | .locked row | .recorded row _ | .written row _ _ => some row

abbrev Session := Option Tx

def Session.row (x : Session) : Option RequestRow := x.bind (fun tx => tx.stage.row)

/-- The checks of a call on the row it has locked, its process's clock at `utcNow`. -/
def admitted (contextHash : Json → String) (utcNow : Instant) (row : RequestRow) : Call → Bool
  | .approve approver _ =>
    row.status = .waitingApproval && row.requestedById ≠ some approver &&
      row.approvalExpiresAt.any (fun t => utcNow < t) &&
      row.approvalContextHash = some (contextHash row.approvalContext)
  | .confirm _ _ expectedHash =>
    row.status = .waitingApproval &&
      row.approvalContextHash = some (contextHash row.approvalContext) &&
      row.approvalContextHash = some expectedHash
  | .update next _ _ =>
    !(next = .waitingApproval || next = .pending) &&
      executionStatusTransitionAllowed row.status next

/-- The approval row of a call. -/
def approvalOf (start : Instant) (row : RequestRow) (id : Uuid) : Call → Option ApprovalRow
  | .approve approver actor =>
    row.approvalContextHash.map fun hash =>
      ⟨id, row.id, approver, actor, hash, start, .distinctPerson⟩
  | .confirm approver actor _ =>
    row.approvalContextHash.map fun hash =>
      ⟨id, row.id, approver, actor, hash, start, .singleOperatorConfirmation⟩
  | .update _ _ _ => none

/-- `INSERT INTO execution_approvals`: accepted by the trigger, and the approver's first. -/
def recordable (db : Db) (start : Instant) (a : ApprovalRow) : Bool :=
  validateExecutionApproval db start a = .ok () &&
    !db.approvals.any (fun b => b.executionId = a.executionId && b.approverId = a.approverId)

/-- The row a call updates its request to, where it updates it. -/
def updateOf (db : Db) (start : Instant) (row : RequestRow) : Call → Option RequestRow
  | .approve _ _ =>
    if row.requiredApprovals ≤ (matchingApprovals db row).length then
      some { row with status := .approved }
    else none
  | .confirm _ _ _ => some { row with status := .approved }
  | .update next result error => some (statusRow start next result error row)

/-- The rows a transaction sees: the committed ones, and an approval of its own. -/
def withApproval (db : Db) (approval : Option ApprovalRow) : Db :=
  { db with approvals := db.approvals ++ approval.toList }

/-- The update of a call, and where it leaves the transaction; an error ends it. -/
def afterUpdate (db : Db) (start : Instant) (row : RequestRow) (approval : Option ApprovalRow)
    (call : Call) : Option Stage :=
  match updateOf (withApproval db approval) start row call with
  | none => some (.written row approval row)
  | some new =>
    if validateUpdate (withApproval db approval) start row new = .ok () then
      some (.written row approval new)
    else none

/-- The next statement of a transaction; `none` ends it. -/
def nextStage (contextHash : Json → String) (db : Db) (tx : Tx) (utcNow : Instant) (id : Uuid) :
    Option Stage :=
  match tx.stage with
  | .waiting =>
    (db.requests.get? tx.request).bind fun row =>
      if admitted contextHash utcNow row tx.call then some (.locked row) else none
  | .locked row =>
    match approvalOf tx.start row id tx.call with
    | some a => if recordable db tx.start a then some (.recorded row a) else none
    | none => afterUpdate db tx.start row none tx.call
  | .recorded row a => afterUpdate db tx.start row (some a) tx.call
  | .written row approval new => some (.written row approval new)

/-- What a commit leaves. -/
def committed (db : Db) (approval : Option ApprovalRow) (new : RequestRow) : Db :=
  { withApproval db approval with
    requests := db.requests.updateWhere (fun r => r.id = new.id) (replaceRow new)
      (id_replaceRow new) }

/-! ## The world -/

structure World where
  store : Store
  sessions : List Session

/-- The requests whose rows are locked. -/
def World.locked (w : World) : List Uuid :=
  w.sessions.filterMap (fun x => x.row.map RequestRow.id)

inductive Action
  | create (reads : Reads) (input : ExecutionRequestInput) (id : Uuid) (utcNow now : Instant)
  /-- the insertion of the bridge -/
  | enqueue (c : Bridge.Call) (f : Bridge.PlanFacts) (id : Uuid)
  | begin (k : Nat) (start : Instant) (request : Uuid) (call : Call)
  | statement (k : Nat) (utcNow : Instant) (id : Uuid)
  | commit (k : Nat)
  /-- an error, a deadlock or a crash -/
  | abort (k : Nat)
  | maintain (now : Instant)
  | claim (worker : Option Uuid) (now : Instant)
  /-- any other update of one request -/
  | move (now : Instant) (new : RequestRow)
  /-- users, actions, policies, the profile, leases and generations -/
  | outside (db : Db) (leases : Table LeaseRow.executionId) (owners : List OwnerRow)

def World.setDb (w : World) (db : Db) : World := { w with store := { w.store with db := db } }

/-- An update waits for the rows it changes. -/
def spares (locked : List Uuid) (db db' : Db) : Bool :=
  locked.all (fun id => db'.requests.get? id = db.requests.get? id)

section Exec

variable (contextHash : Json → String)

def exec (w : World) : Action → Option World
  | .create reads input id utcNow now =>
    match createExecutionRequest contextHash reads input id utcNow now with
    | .ok (.insert new) => (insertRequest w.store.db now new).map w.setDb
    | .ok (.existing _) | .error _ => some w
  | .enqueue c f id =>
    (insertRequest w.store.db c.start (Bridge.bridgeRequest c f id)).map w.setDb
  | .begin k start request call =>
    match w.sessions[k]? with
    | some none => some { w with
        sessions := w.sessions.set k (some ⟨start, request, call, .waiting⟩) }
    | _ => none
  | .statement k utcNow id =>
    match w.sessions[k]? with
    | some (some tx) =>
      if tx.stage.row = none ∧ tx.request ∈ w.locked then none
      else some { w with
        sessions := w.sessions.set k ((nextStage contextHash w.store.db tx utcNow id).map
          (fun stage => { tx with stage })) }
    | _ => none
  | .commit k =>
    match w.sessions[k]? with
    | some (some ⟨_, _, _, .written _ approval new⟩) =>
      some { w.setDb (committed w.store.db approval new) with
        sessions := w.sessions.set k none }
    | _ => none
  | .abort k => some { w with sessions := w.sessions.set k none }
  | .maintain now =>
    (runExecutionMaintenance w.store now).bind fun s =>
      if spares w.locked w.store.db s.db then some { w with store := s } else none
  | .claim worker now =>
    (claimExecutionRequestForDispatch w.store now worker w.locked).bind fun (s, _) =>
      if spares w.locked w.store.db s.db then some { w with store := s } else none
  | .move now new =>
    if new.id ∈ w.locked then none else (updateRequest w.store.db now new).map w.setDb
  | .outside db leases owners =>
    some { w with store :=
      { db := { db with requests := w.store.db.requests, approvals := w.store.db.approvals }
        leases, owners } }

/-- No approval yet, no request with requirements, and any number of idle connections. -/
def Initial (w : World) : Prop :=
  w.store.db.approvals = [] ∧ (∀ r ∈ w.store.db.requests, r.requiredApprovals = 0) ∧
    ∃ n, w.sessions = List.replicate n none

def system : TSys World Action := TSys.ofExec Initial (exec contextHash)

end Exec

end Clawforge.Approvals

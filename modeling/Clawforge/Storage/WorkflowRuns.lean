import Clawforge.Kit.Slots
import Clawforge.Storage.Publication

/-!
# Workflow runs and their approvals

`prepare_workflow_run`, `approve_workflow_run` and `expire_approval_requests` as transactions of
any number of connections. A statement reads what is committed when it starts; what a transaction
writes appears at its commit; a row that one transaction has locked makes the others wait.
-/

namespace Clawforge.Workflows

open Kit

inductive RunStatus
  | pending | running | waitingApproval | completed | failed | cancelled
deriving DecidableEq, Repr

inductive ApprovalStatus
  | pending | approved | rejected | expired
deriving DecidableEq, Repr

/-- A row of `workflow_runs`. -/
structure RunRow where
  id : Uuid
  workflowId : Uuid
  decisionId : Option Uuid
  status : RunStatus
  startedAt : Instant
  result : Json
deriving DecidableEq

/-- A row of `approvals`. The table does not say which run it was prepared for: `run` is ours. -/
structure ApprovalRow where
  id : Uuid
  decisionId : Uuid
  requestedBy : String
  status : ApprovalStatus
  createdAt : Instant
  expiresAt : Option Instant
  approvedBy : Option Uuid
  approvedAt : Option Instant
  comment : Option String
  decisionReason : Option String
  run : Uuid
deriving DecidableEq

/-- A row of `workflow_audit_log`. -/
structure AuditRow where
  workflowId : Uuid
  actor : String
  action : String
  metadata : Json
deriving DecidableEq

/-- `WorkflowRunInput`. -/
structure WorkflowRunInput where
  workflowId : Uuid
  decisionId : Option Uuid
  status : RunStatus
  result : Json
  actor : String
  auditAction : String
deriving DecidableEq

/-- The arguments of `approve_workflow_run` next to the run. -/
structure Approver where
  approvedBy : Uuid
  actor : String
  comment : Option String
  decisionReason : Option String
deriving DecidableEq

/-- `status IN ('pending','running','waiting_approval')`. -/
def RunStatus.live : RunStatus → Bool
  | .pending | .running | .waitingApproval => true
  | .completed | .failed | .cancelled => false

/-! ## Transactions -/

inductive Session
  | idle
  /-- `prepare_workflow_run` has found no live run -/
  | preparing (start : Instant) (input : WorkflowRunInput)
  /-- its rows are written -/
  | prepared (run : RunRow) (approval : Option ApprovalRow) (audit : AuditRow)
  /-- `approve_workflow_run` has locked its run -/
  | locked (start : Instant) (run : RunRow) (decision : Uuid) (by_ : Approver)
  /-- the sub-select of its update has answered -/
  | chosen (start : Instant) (run : RunRow) (by_ : Approver) (approval : Uuid)
  /-- it has the approval's row -/
  | consuming (start : Instant) (run : RunRow) (by_ : Approver) (approval : Uuid)
deriving DecidableEq

/-- The run whose row a transaction holds. -/
def Session.run : Session → Option RunRow
  | locked _ run _ _ | chosen _ run _ _ | consuming _ run _ _ => some run
  | _ => none

/-- The approval a transaction is going to consume for its run. -/
def Session.choice : Session → Option (RunRow × Uuid)
  | chosen _ run _ approval | consuming _ run _ approval => some (run, approval)
  | _ => none

/-- The approval whose row a transaction holds. -/
def Session.held : Session → Option Uuid
  | consuming _ _ _ approval => some approval
  | _ => none

structure World where
  now : Instant
  runs : Table RunRow.id
  approvals : Table ApprovalRow.id
  audit : List AuditRow
  sessions : List Session

inductive Action
  | tick (micros : Nat)
  /-- `prepare_workflow_run` and its look for a live run -/
  | prepare (k : Nat) (input : WorkflowRunInput)
  /-- its insertions, under drawn ids -/
  | insert (k : Nat) (run approval : Uuid)
  /-- `approve_workflow_run` and its `SELECT … FOR UPDATE` -/
  | lock (k : Nat) (workflow run : Uuid) (by_ : Approver)
  /-- the approval its update has chosen, if any -/
  | choose (k : Nat) (approval : Option Uuid)
  | take (k : Nat)
  | commit (k : Nat)
  /-- an error or a crash -/
  | abort (k : Nat)
  /-- `expire_approval_requests` -/
  | expire
deriving DecidableEq

/-- The live runs of a workflow for a decision. -/
def liveRuns (w : World) (workflow : Uuid) (decision : Option Uuid) : List RunRow :=
  w.runs.rows.filter (fun r => r.workflowId = workflow && r.decisionId = decision && r.status.live)

/-- The pending approvals of a decision. -/
def pendingApprovals (w : World) (decision : Uuid) : List ApprovalRow :=
  w.approvals.rows.filter (fun a => a.decisionId = decision && a.status = .pending)

/-- `ORDER BY created_at DESC LIMIT 1`. -/
def Latest (w : World) (decision : Uuid) (a : ApprovalRow) : Prop :=
  a ∈ pendingApprovals w decision ∧ ∀ b ∈ pendingApprovals w decision, b.createdAt ≤ a.createdAt

instance (w : World) (decision : Uuid) (a : ApprovalRow) : Decidable (Latest w decision a) :=
  inferInstanceAs (Decidable (_ ∧ _))

/-- The inserted run. -/
def runOf (start : Instant) (input : WorkflowRunInput) (id : Uuid) : RunRow :=
  ⟨id, input.workflowId, input.decisionId, input.status, start, input.result⟩

/-- The inserted approval: for a run that waits, and only if its decision has none. -/
def approvalOf (w : World) (start : Instant) (input : WorkflowRunInput) (run id : Uuid) :
    Option ApprovalRow :=
  if input.status = .waitingApproval then
    input.decisionId.bind fun decision =>
      if pendingApprovals w decision = [] then
        some ⟨id, decision, input.actor, .pending, start, none, none, none, none,
          (input.result.get "reason").bind Json.asStr, run⟩
      else none
  else none

/-- `jsonb_set(result,'{approval}','{"approved":true}')`. -/
def withApproval : Json → Json
  | .object fields =>
    .object (Json.insertField "approval" (Json.ofFields [("approved", .bool true)]) fields)
  | result => result

def approveRun (r : RunRow) : RunRow :=
  { r with status := .pending, result := withApproval r.result }

def approve (start : Instant) (by_ : Approver) (a : ApprovalRow) : ApprovalRow :=
  { a with
    status := .approved
    approvedBy := some by_.approvedBy
    approvedAt := some start
    comment := by_.comment
    decisionReason := by_.decisionReason }

/-- `metadata` of `approval_recorded`. -/
def approvalMetadata (run : Uuid) (by_ : Approver) : Json :=
  Json.ofFields [ ("run_id", .string (EventDelivery.uuidText run))
    , ("comment", (by_.comment.map .string).getD .null)
    , ("decision_reason", (by_.decisionReason.map .string).getD .null) ]

def World.set (w : World) (k : Nat) (s : Session) : World :=
  { w with sessions := w.sessions.set k s }

/-- A prepared run appears, with its approval and its audit row. -/
def commitPrepared (w : World) (k : Nat) (run : RunRow) (approval : Option ApprovalRow)
    (audit : AuditRow) : Option World :=
  (w.runs.insert? run).bind fun runs =>
    (match approval with
      | none => some w.approvals
      | some a => w.approvals.insert? a).map fun approvals =>
        { w.set k .idle with runs, approvals, audit := w.audit ++ [audit] }

/-- An approval is recorded: the approval's row is written whatever it says by now. -/
def commitApproval (w : World) (k : Nat) (start : Instant) (run : RunRow) (by_ : Approver)
    (approval : Uuid) : World :=
  { w.set k .idle with
    runs := w.runs.updateWhere (fun r => r.id = run.id) approveRun (fun _ => rfl)
    approvals := w.approvals.updateWhere (fun a => a.id = approval) (approve start by_)
      (fun _ => rfl)
    audit := w.audit ++
      [⟨run.workflowId, by_.actor, "approval_recorded", approvalMetadata run.id by_⟩] }

def exec (w : World) : Action → Option World
  | .tick micros => some { w with now := w.now + micros }
  | .prepare k input =>
    match w.sessions[k]? with
    | some .idle =>
      if input.status = .waitingApproval ∧ input.decisionId = none then some w
      else if liveRuns w input.workflowId input.decisionId ≠ [] then some w
      else some (w.set k (.preparing w.now input))
    | _ => none
  | .insert k run approval =>
    match w.sessions[k]? with
    | some (.preparing start input) =>
      some (w.set k (.prepared (runOf start input run) (approvalOf w start input run approval)
        ⟨input.workflowId, input.actor, input.auditAction, input.result⟩))
    | _ => none
  | .lock k workflow run by_ =>
    match w.sessions[k]? with
    | some .idle =>
      if ∃ s ∈ w.sessions, ∃ r ∈ s.run, r.id = run then none
      else
        match w.runs.get? run with
        | none => some w
        | some r =>
          if r.workflowId = workflow ∧ r.status = .waitingApproval then
            match r.decisionId with
            | none => some w
            | some decision => some (w.set k (.locked w.now r decision by_))
          else some w
    | _ => none
  | .choose k approval =>
    match w.sessions[k]? with
    | some (.locked start run decision by_) =>
      match approval with
      | none => if pendingApprovals w decision = [] then some (w.set k .idle) else none
      | some id =>
        if ∃ a ∈ w.approvals.get? id, Latest w decision a then
          some (w.set k (.chosen start run by_ id))
        else none
    | _ => none
  | .take k =>
    match w.sessions[k]? with
    | some (.chosen start run by_ approval) =>
      if w.sessions.any (fun s => s.held = some approval) then none
      else some (w.set k (.consuming start run by_ approval))
    | _ => none
  | .commit k =>
    match w.sessions[k]? with
    | some (.prepared run approval audit) => commitPrepared w k run approval audit
    | some (.consuming start run by_ approval) =>
      some (commitApproval w k start run by_ approval)
    | _ => none
  | .abort k => some (w.set k .idle)
  | .expire =>
    some { w with
      approvals := w.approvals.updateWhere
        (fun a => a.status = .pending ∧ ∃ t ∈ a.expiresAt, t ≤ w.now)
        (fun a => { a with status := .expired }) (fun _ => rfl) }

/-- No run and no approval, and any number of connections without a transaction. -/
def Initial (w : World) : Prop :=
  w.runs = Table.empty _ ∧ w.approvals = Table.empty _ ∧ ∃ n, w.sessions = List.replicate n .idle

def workflowSystem : TSys World Action := TSys.ofExec Initial exec

end Clawforge.Workflows

import Clawforge.Storage.Executions
import Clawforge.Storage.RuleIntents

/-!
# Dispatching execution requests

What the workers do to `execution_requests` and `execution_leases`: the maintenance sweep, the
claim, and the completion, which is two status updates and the release of the lease, each
committed by itself.
-/

namespace Clawforge.Executions

open Kit RuleIntents

/-! ## The store -/

inductive LeaseStatus
  | active
  | released
  | expired
deriving DecidableEq, Repr

/-- A row of `execution_leases`, at most one for each request. -/
structure LeaseRow where
  executionId : Uuid
  workerId : Uuid
  status : LeaseStatus
  expiresAt : Instant
deriving DecidableEq

/-- What the sweep and the claim read of a row of `firewall_action_intents`. -/
structure OwnerRow where
  executionId : Uuid
  targetFingerprint : Option String
  fwRuleFingerprint : Option String
  status : IntentStatus
deriving DecidableEq

structure Store where
  db : Db
  leases : Table LeaseRow.executionId
  owners : List OwnerRow

/-- Some generation of the request may still own an external effect. -/
def Fenced (s : Store) (id : Uuid) : Prop :=
  ∃ o ∈ s.owners, o.executionId = id ∧
    (o.targetFingerprint ≠ none ∨ o.fwRuleFingerprint ≠ none) ∧ o.status.active = true

instance (s : Store) (id : Uuid) : Decidable (Fenced s id) := by
  unfold Fenced
  infer_instance

/-! ## Status updates -/

/-- `execution_status_transition_allowed`. -/
def executionStatusTransitionAllowed : Status → Status → Bool
  | .waitingApproval, .approved | .waitingApproval, .cancelled => true
  | .pending, .queued | .pending, .starting | .pending, .cancelled => true
  | .approved, .queued | .approved, .starting | .approved, .cancelled => true
  | .queued, .starting | .queued, .cancelled => true
  | .starting, .running | .starting, .queued | .starting, .failed | .starting, .timeout
  | .starting, .rollbackRequired | .starting, .cancelled => true
  | .running, .success | .running, .completed | .running, .queued | .running, .failed
  | .running, .timeout | .running, .rollbackRequired | .running, .cancelled => true
  | .failed, .queued => true
  | .rollbackRequired, .cancelled => true
  | _, _ => false

/-- The statuses that set `finished_at`. -/
def Status.finishes : Status → Bool
  | .success | .completed | .failed | .timeout | .rollbackRequired | .cancelled => true
  | _ => false

inductive UpdateError
  /-- `invalid execution status` -/
  | invalidStatus
  /-- `execution request is not available` -/
  | notAvailable
  /-- `execution status transition is not allowed` -/
  | notAllowed
  /-- the trigger refuses the row -/
  | refused
deriving DecidableEq, Repr

/-- The row `update_execution_status` writes. -/
def statusRow (now : Instant) (next : Status) (result error : Option String)
    (r : RequestRow) : RequestRow :=
  { r with
    status := next
    startedAt := if next = .starting ∨ next = .running then some now else r.startedAt
    finishedAt := if next.finishes then some now else r.finishedAt
    resultSummary := result.or r.resultSummary
    errorSummary := error.or r.errorSummary }

/-- `update_execution_status`. -/
def updateExecutionStatus (db : Db) (now : Instant) (id : Uuid) (next : Status)
    (result error : Option String) : Except UpdateError Db :=
  if next = .waitingApproval ∨ next = .pending then .error .invalidStatus
  else
    match db.requests.get? id with
    | none => .error .notAvailable
    | some r =>
      if executionStatusTransitionAllowed r.status next then
        match updateRequest db now (statusRow now next result error r) with
        | some db => .ok db
        | none => .error .refused
      else .error .notAllowed

/-- An `UPDATE execution_requests`, with the trigger on every row it changes. -/
def updateRequests (db : Db) (now : Instant) (p : RequestRow → Prop) [DecidablePred p]
    (f : RequestRow → RequestRow) (hf : ∀ r, (f r).id = r.id) : Option Db :=
  if ∀ r ∈ db.requests.rows, p r → validateUpdate db now r (f r) = .ok () then
    some { db with requests := db.requests.updateWhere p f hf }
  else none

/-! ## Maintenance -/

/-- `SET status='expired'` where the lease is active and over. -/
def expireLeases (leases : Table LeaseRow.executionId) (now : Instant) :
    Table LeaseRow.executionId :=
  leases.updateWhere (fun l => l.status = .active ∧ l.expiresAt ≤ now)
    (fun l => { l with status := .expired }) (fun _ => rfl)

/-- The request is under way, its lease has expired, and no generation owns it. -/
def Reclaims (s : Store) (r : RequestRow) : Prop :=
  (∃ l ∈ s.leases.rows, l.executionId = r.id ∧ l.status = .expired) ∧
    (r.status = .starting ∨ r.status = .running) ∧ ¬ Fenced s r.id

instance (s : Store) : DecidablePred (Reclaims s) := fun r => by
  unfold Reclaims
  infer_instance

def reclaimed (r : RequestRow) : RequestRow :=
  { r with
    status := .queued
    startedAt := none
    nextRetryAt := none
    errorSummary := some "worker lease expired; request reclaimed" }

def TimesOut (s : Store) (now : Instant) (r : RequestRow) : Prop :=
  (r.status = .starting ∨ r.status = .running) ∧
    r.startedAt.any (fun t => t + seconds r.timeoutSeconds < now) = true ∧ ¬ Fenced s r.id

instance (s : Store) (now : Instant) : DecidablePred (TimesOut s now) := fun r => by
  unfold TimesOut
  infer_instance

def timedOut (now : Instant) (r : RequestRow) : RequestRow :=
  { r with
    status := .timeout
    finishedAt := some now
    errorSummary := some "execution timeout" }

def Retries (s : Store) (now : Instant) (r : RequestRow) : Prop :=
  r.status = .failed ∧ r.retryCount < r.maxRetries ∧
    r.nextRetryAt.all (fun t => t ≤ now) = true ∧ ¬ Fenced s r.id

instance (s : Store) (now : Instant) : DecidablePred (Retries s now) := fun r => by
  unfold Retries
  infer_instance

def retried (r : RequestRow) : RequestRow :=
  { r with
    status := .queued
    retryCount := r.retryCount + 1
    nextRetryAt := none }

/-- `run_execution_maintenance`, one transaction. -/
def runExecutionMaintenance (s : Store) (now : Instant) : Option Store := do
  let s : Store := { s with leases := expireLeases s.leases now }
  let db ← updateRequests s.db now (Reclaims s) reclaimed (fun _ => rfl)
  let db ← updateRequests db now (TimesOut s now) (timedOut now) (fun _ => rfl)
  let db ← updateRequests db now (Retries s now) retried (fun _ => rfl)
  some { s with db := db }

/-! ## Claims -/

/-- The distinct approvers of a request under its context hash, the requester left out. -/
def distinctApprovers (db : Db) (e : RequestRow) : List Uuid :=
  (((matchingApprovals db e).filter (fun a => some a.approverId ≠ e.requestedById)).map
    ApprovalRow.approverId).dedup

/-- What the claim asks of an action that quarantines. -/
def QuarantineApproved (db : Db) (now : Instant) (e : RequestRow) (a : ActionRow) : Prop :=
  a.enabled = true ∧ a.requiresApproval = true ∧ a.riskLevel = "critical" ∧
    ∃ p ∈ db.policies.get? a.riskLevel, 2 ≤ p.requiredApprovals ∧ 2 ≤ e.requiredApprovals ∧
      e.requestedById ≠ none ∧ e.approvalExpiresAt.any (fun t => now < t) = true ∧
      max e.requiredApprovals p.requiredApprovals ≤ (distinctApprovers db e).length

instance (db : Db) (now : Instant) (e : RequestRow) (a : ActionRow) :
    Decidable (QuarantineApproved db now e a) := by
  unfold QuarantineApproved
  infer_instance

def quarantineActions : List String :=
  ["docker.quarantine_container", "proxmox.quarantine_vm", "tailscale.quarantine_device"]

def Claimable (s : Store) (now : Instant) (e : RequestRow) : Prop :=
  (e.status = .approved ∨ e.status = .pending ∨ e.status = .queued) ∧ ¬ Fenced s e.id ∧
    ∃ a ∈ s.db.actions.get? e.actionId,
      a.name ∉ quarantineActions ∨ QuarantineApproved s.db now e a

instance (s : Store) (now : Instant) : DecidablePred (Claimable s now) := fun e => by
  unfold Claimable
  infer_instance

structure ClaimedExecutionRequest where
  id : Uuid
  actionName : String
  target : Option Json
deriving DecidableEq

def startingRow (now : Instant) (r : RequestRow) : RequestRow :=
  { r with status := .starting, startedAt := some now }

/-- `INSERT … ON CONFLICT (execution_id) DO UPDATE`. -/
def lease (leases : Table LeaseRow.executionId) (now : Instant) (id worker : Uuid) :
    Table LeaseRow.executionId :=
  match leases.insert? ⟨id, worker, .active, now + minutes 2⟩ with
  | some leases => leases
  | none =>
    leases.updateWhere (fun l => l.executionId = id)
      (fun l => { l with workerId := worker, status := .active, expiresAt := now + minutes 2 })
      (fun _ => rfl)

/-- The request a claim takes: the oldest that no other transaction has locked. -/
def nextClaim (s : Store) (now : Instant) (locked : List Uuid) : Option Uuid :=
  (s.db.requests.select (fun e => Claimable s now e ∧ e.id ∉ locked)
    (fun e e' => e.createdAt ≤ e'.createdAt) 1).head?

/-- `claim_execution_request_for_dispatch`, after its maintenance. -/
def claimExecutionRequestForDispatch (s : Store) (now : Instant) (worker : Option Uuid)
    (locked : List Uuid) : Option (Store × Option ClaimedExecutionRequest) :=
  match nextClaim s now locked with
  | none => some (s, none)
  | some id => do
      let db ← updateRequests s.db now (fun r => r.id = id) (startingRow now) (fun _ => rfl)
      let leases := worker.elim s.leases (lease s.leases now id)
      let e ← db.requests.get? id
      let a ← db.actions.get? e.actionId
      some ({ s with db := db, leases := leases },
        some ⟨id, a.name, e.approvalContext.get "target"⟩)

/-! ## Completions -/

/-- The terminal statuses of a completion. -/
inductive Completion
  | success
  | failed
  | recoveryRequired
deriving DecidableEq, Repr

def Completion.status : Completion → Status
  | .success => .success
  | .failed => .failed
  | .recoveryRequired => .rollbackRequired

/-- The first update of `complete_execution_dispatch_with_status`. -/
def markRunning (s : Store) (now : Instant) (id : Uuid) : Except UpdateError Store :=
  (updateExecutionStatus s.db now id .running none none).map (fun db => { s with db := db })

/-- Its second update. -/
def markTerminal (s : Store) (now : Instant) (id : Uuid) (terminal : Completion)
    (result error : Option String) : Except UpdateError Store :=
  (updateExecutionStatus s.db now id terminal.status result error).map
    (fun db => { s with db := db })

/-- The lease update that ends a completion. -/
def releaseLease (s : Store) (id : Uuid) : Store :=
  { s with
    leases := s.leases.updateWhere (fun l => l.executionId = id)
      (fun l => { l with status := .released }) (fun _ => rfl) }

/-! ## What the operations leave -/

/-- A status update the Rust code admits meets the trigger unless it approves or retries. -/
theorem transitionAllowed_of_allowed {r new : RequestRow}
    (h : executionStatusTransitionAllowed r.status new.status = true)
    (hfailed : r.status ≠ .failed) : transitionAllowed r new = true := by
  unfold transitionAllowed
  revert h
  cases hs : r.status <;> cases hn : new.status <;>
    simp_all [executionStatusTransitionAllowed]

theorem sameContext_statusRow (now : Instant) (next : Status) (result error : Option String)
    (r : RequestRow) : SameContext r (statusRow now next result error r) := by
  unfold SameContext statusRow
  simp

/-- What a status update leaves where it is admitted: the one row moved. -/
theorem updateExecutionStatus_ok {db : Db} {now : Instant} {id : Uuid} {next : Status}
    {result error : Option String} {r : RequestRow} (hr : db.requests.get? id = some r)
    (hnext : next ≠ .waitingApproval ∧ next ≠ .pending ∧ next ≠ .approved)
    (hfailed : r.status ≠ .failed)
    (hallowed : executionStatusTransitionAllowed r.status next = true) :
    ∃ db', updateExecutionStatus db now id next result error = .ok db' ∧
      db'.requests.get? id = some (statusRow now next result error r) := by
  have hid := Table.key_of_get? hr
  have hne : (statusRow now next result error r).status ≠ .approved := hnext.2.2
  have hedge : transitionAllowed r (statusRow now next result error r) = true :=
    transitionAllowed_of_allowed hallowed hfailed
  have hkey : r.id = (statusRow now next result error r).id := rfl
  have hvalid : validateUpdate db now r (statusRow now next result error r) = .ok () := by
    unfold validateUpdate
    rw [if_neg (not_not.2 (sameContext_statusRow now next result error r))]
    by_cases hs : r.status = (statusRow now next result error r).status
    · rw [if_pos hs]
    · rw [if_neg hs, if_neg (not_not.2 hedge), if_neg hne]
  have hget : db.requests.get? (statusRow now next result error r).id = some r := by
    show db.requests.get? r.id = some r
    rw [hid]
    exact hr
  unfold updateExecutionStatus updateRequest
  rw [if_neg (not_or.2 ⟨hnext.1, hnext.2.1⟩), hr]
  simp only [hallowed, if_true, hget]
  rw [if_pos ⟨rfl, hvalid⟩]
  refine ⟨_, rfl, ?_⟩
  rw [Table.get?_updateWhere, hr, Option.map_some]
  rw [if_pos hkey, replaceRow, if_pos hkey]

theorem updateExecutionStatus_error {db : Db} {now : Instant} {id : Uuid} {next : Status}
    {result error : Option String} {r : RequestRow} (hr : db.requests.get? id = some r)
    (hallowed : ¬ executionStatusTransitionAllowed r.status next = true) :
    ∃ e, updateExecutionStatus db now id next result error = .error e := by
  unfold updateExecutionStatus
  split
  · exact ⟨_, rfl⟩
  · rw [hr]
    simp only [if_neg hallowed]
    exact ⟨_, rfl⟩

end Clawforge.Executions

/-! ## Dispatches under way

Workers that claim requests and complete them, call by call, interleaved with each other, with
the maintenance sweep and with everything else that touches the store. A completion makes three
calls; the one that is refused ends it, and a worker may stop between any two.
-/

namespace Clawforge.Executions

open Kit

/-! ## The world -/

/-- The call of its completion a dispatch makes next. -/
inductive Stage
  /-- the action is dispatched; `running` comes first -/
  | working
  | marking (terminal : Completion)
  | releasing
  /-- returned, with success or an error, or crashed -/
  | ended
deriving DecidableEq, Repr

structure Dispatch where
  request : Uuid
  worker : Option Uuid
  stage : Stage
  /-- its lease expired and the sweep took the request back -/
  reclaimed : Bool
deriving DecidableEq

/-- A completion call on a request that was taken back and claimed again: where the later claim
stands, and the request and its lease before and after. -/
structure LateCall where
  holder : Stage
  status : Option Status
  status' : Option Status
  lease : Option LeaseStatus
  lease' : Option LeaseStatus
deriving DecidableEq

structure World where
  store : Store
  /-- in the order of their claims -/
  dispatches : List Dispatch
  late : List LateCall

/-- The last claim of the request after the `i`-th. -/
def successor (ds : List Dispatch) (i : Nat) (request : Uuid) : Option Dispatch :=
  ((ds.drop (i + 1)).filter (fun d => d.request = request)).getLast?

def Store.statusOf (s : Store) (id : Uuid) : Option Status :=
  (s.db.requests.get? id).map RequestRow.status

def Store.leaseOf (s : Store) (id : Uuid) : Option LeaseStatus :=
  (s.leases.get? id).map LeaseRow.status

/-- What the next call of a completion leaves, and where the completion stands then. -/
def completionCall (s : Store) (now : Instant) (d : Dispatch) (terminal : Completion)
    (result error : Option String) : Option (Store × Stage) :=
  match d.stage with
  | .working =>
    match markRunning s now d.request with
    | .ok s => some (s, .marking terminal)
    | .error _ => some (s, .ended)
  | .marking terminal =>
    match markTerminal s now d.request terminal result error with
    | .ok s => some (s, .releasing)
    | .error _ => some (s, .ended)
  | .releasing =>
    if d.worker ≠ none then some (releaseLease s d.request, .ended) else some (s, .ended)
  | .ended => none

/-- The sweep takes requests back from the last claim of each. -/
def markReclaimed (s : Store) (now : Instant) (ds : List Dispatch) : List Dispatch :=
  ds.mapIdx (fun i d =>
    if d.worker ≠ none ∧ successor ds i d.request = none ∧
        (s.db.requests.get? d.request).any (fun r =>
          Reclaims { s with leases := expireLeases s.leases now } r) = true then
      { d with reclaimed := true }
    else d)

inductive Action
  | insert (new : RequestRow) (now : Instant)
  /-- an operator's status update -/
  | update (id : Uuid) (next : Status) (result error : Option String) (now : Instant)
  /-- anything else that leaves requests and leases -/
  | outside (db : Db) (owners : List OwnerRow)
  | maintain (now : Instant)
  | claim (worker : Option Uuid) (now : Instant) (locked : List Uuid)
  /-- the next call of a completion; `terminal` counts for the first -/
  | complete (i : Nat) (terminal : Completion) (result error : Option String) (now : Instant)
  | crash (i : Nat)

/-- The late call that a completion call is, if it is one. -/
def lateCall (w : World) (i : Nat) (d : Dispatch) (s : Store) : Option LateCall :=
  if d.reclaimed then
    (successor w.dispatches i d.request).map (fun b =>
      { holder := b.stage
        status := w.store.statusOf d.request
        status' := s.statusOf d.request
        lease := w.store.leaseOf d.request
        lease' := s.leaseOf d.request })
  else none

def World.setStore (w : World) (s : Store) : World := { w with store := s }

def World.setDispatch (w : World) (i : Nat) (d : Dispatch) : World :=
  { w with dispatches := w.dispatches.set i d }

def exec (w : World) : Action → Option World
  | .insert new now =>
    (insertRequest w.store.db now new).map (fun db => w.setStore { w.store with db := db })
  | .update id next result error now =>
    match updateExecutionStatus w.store.db now id next result error with
    | .ok db => some (w.setStore { w.store with db := db })
    | .error _ => some w
  | .outside db owners =>
    if db.requests.rows = w.store.db.requests.rows then
      some (w.setStore { w.store with db := db, owners := owners })
    else none
  | .maintain now =>
    (runExecutionMaintenance w.store now).map (fun s =>
      { w with store := s, dispatches := markReclaimed w.store now w.dispatches })
  | .claim worker now locked =>
    (claimExecutionRequestForDispatch w.store now worker locked).map (fun (s, claimed) =>
      { w with
        store := s
        dispatches := w.dispatches ++
          (claimed.map (fun c => (⟨c.id, worker, .working, false⟩ : Dispatch))).toList })
  | .complete i terminal result error now =>
    match w.dispatches[i]? with
    | none => none
    | some d =>
      (completionCall w.store now d terminal result error).map (fun (s, stage) =>
        { store := s
          dispatches := w.dispatches.set i { d with stage := stage }
          late := (lateCall w i d s).toList ++ w.late })
  | .crash i =>
    (w.dispatches[i]?).map (fun d => w.setDispatch i { d with stage := .ended })

/-- No worker has claimed anything yet; requests and leases are as earlier runs left them. -/
def Initial (w : World) : Prop := w.dispatches = [] ∧ w.late = []

def dispatchSystem : TSys World Action := TSys.ofExec Initial exec

end Clawforge.Executions

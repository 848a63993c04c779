import Clawforge.Kit.Slots
import Clawforge.Storage.BridgePlan

/-!
# Concurrent `clawforge_enqueue_policy_bridge_request` transactions

Any number of connections, each with at most one call. `NOW()` is the start of the
transaction; the call then waits for the advisory lock, and holds it to its commit. Each
statement in between reads what is committed by then: the plan is derived again and has
to be the caller's, and the checks run one after another. Meanwhile other writers insert
and update execution requests as the triggers allow, and everything else may change.
-/

namespace Clawforge.Bridge

open Assessments Executions Kit Reputation Option

/-- One call. The context and its hash are what the caller planned earlier. -/
structure Call where
  start : Instant
  decisionId : Uuid
  params : PolicyBridgeParams
  context : Json
  contextHash : String

/-- `^[0-9a-f]{64}$`. -/
def isContextHash (hash : String) : Bool :=
  decide (hash.toList.length = 64) &&
    hash.toList.all (fun ch => ch.isDigit || ('a' ≤ ch && ch ≤ 'f'))

/-- The bounds the function puts on its inputs. -/
def withinBounds (c : Call) : Bool :=
  1 ≤ c.params.maxPerWindow && c.params.maxPerWindow ≤ 100 && 60 ≤ c.params.windowSeconds &&
    c.params.windowSeconds ≤ 86400 && isContextHash c.contextHash

/-- The checks between the plan and the insertion. -/
inductive Check
  | duplicate
  | target
  | budget
  | firewallState
  | executorHealth
deriving DecidableEq, Repr

/-- The last two are for the automatic mode. -/
def checksOf (mode : BridgeMode) : List Check :=
  [.duplicate, .target, .budget] ++
    if mode = .automatic then [.firewallState, .executorHealth] else []

/-- The statuses in which a request occupies its target. -/
def activeStatus : Status → Bool
  | .waitingApproval | .approved | .pending | .queued | .starting | .running
  | .rollbackRequired => true
  | _ => false

/-- An active request for the same action and source, both live or both simulated. -/
def occupies (c : Call) (f : PlanFacts) (r : RequestRow) : Bool :=
  r.actionId = f.action.id &&
    targetPseudonym r.approvalContext = some f.assessment.resource &&
    activeStatus r.status && simulationOnly r.approvalContext = decide (c.params.mode = .simulate)

/-- The start of the budget's window. -/
def windowStart (c : Call) : Int := (c.start : Int) - c.params.windowSeconds * 1000000

/-- A bridge request that counts against the call's budget. -/
def spends (c : Call) (r : RequestRow) : Bool :=
  r.requestedBy = "policy-bridge" && decide (windowStart c < (r.createdAt : Int)) &&
    simulationOnly r.approvalContext = decide (c.params.mode = .simulate)

/-- A heartbeat of the last five minutes. -/
def healthyExecutor (now : Instant) (row : RuntimeStatusRow) : Bool :=
  row.component = "executor" && row.state = "running" && now < row.lastHeartbeatAt + minutes 5

/-- How a call ends that inserts nothing. -/
inductive Ending
  | duplicate (existing : Uuid)
  | failed (error : PlanError)
deriving DecidableEq

def rejected (reason : Rejection) : Option Ending := some (.failed (.rejected reason))

/-- What a check ends the call with, if anything. -/
def Check.stops (db : BridgeDb) (c : Call) (f : PlanFacts) : Check → Option Ending
  | .duplicate =>
    (db.executions.requests.rows.find? (fun r =>
      r.idempotencyKey = some (requestKey c.params.mode f.decision.id))).map
      (fun r => .duplicate r.id)
  | .target =>
    if db.executions.requests.rows.any (occupies c f) then rejected .targetAlreadyActive
    else none
  | .budget =>
    if c.params.maxPerWindow ≤ ((db.executions.requests.rows.filter (spends c)).length : Int) then
      rejected .budgetExhausted
    else none
  | .firewallState =>
    if db.unresolvedIntent ||
        db.executions.requests.rows.any (fun r => r.status = .rollbackRequired) then
      rejected .unresolvedFirewallState
    else none
  | .executorHealth =>
    if db.runtimeStatus.any (healthyExecutor c.start) then none
    else rejected .executorNotHealthy

/-- The request of a call. -/
def bridgeRequest (c : Call) (f : PlanFacts) (new : Uuid) : RequestRow where
  id := new
  actionId := f.action.id
  workflowRunId := none
  decisionId := none
  requestedBy := "policy-bridge"
  requestedById := c.params.requesterId
  status := if c.params.mode = .propose then .waitingApproval else .pending
  createdAt := c.start
  startedAt := none
  finishedAt := none
  resultSummary := none
  errorSummary := none
  idempotencyKey := some (requestKey c.params.mode f.decision.id)
  requiredApprovals := f.terms.approvals
  approvalExpiresAt :=
    if c.params.mode = .propose then f.terms.timeout.map (fun secs => c.start + seconds secs)
    else none
  approvalContext := c.context
  approvalContextHash := some c.contextHash
  retryCount := 0
  maxRetries := 0
  timeoutSeconds := 60
  nextRetryAt := none

/-- The insertion, refused where the action is gone. -/
def insertBridgeRequest (db : BridgeDb) (c : Call) (f : PlanFacts) (new : Uuid) :
    Option BridgeDb :=
  match db.executions.actions.get? f.action.id with
  | none => none
  | some _ =>
    (insertRequest db.executions c.start (bridgeRequest c f new)).map
      (fun executions => { db with executions := executions })

/-! ## Sessions -/

/-- One connection's call. -/
inductive Session
  | idle
  /-- for the advisory lock -/
  | waiting (c : Call)
  /-- with the lock, before the plan -/
  | planning (c : Call)
  /-- with the lock and the plan, the checks left -/
  | checking (c : Call) (f : PlanFacts) (left : List Check)

namespace Session

def holdsLock : Session → Bool
  | idle | waiting _ => false
  | planning _ | checking _ _ _ => true

end Session

/-- The committed tables, the open calls, and what each committed call inserted. -/
structure Enqueued where
  request : Uuid
  mode : BridgeMode
  decision : Uuid
deriving DecidableEq

structure World where
  db : BridgeDb
  sessions : List Session
  enqueued : List Enqueued

inductive Action
  | call (k : Nat) (c : Call)
  | lock (k : Nat)
  /-- the plan or the next check -/
  | statement (k : Nat)
  /-- the insertion and the commit; `new` is the id drawn -/
  | commit (k : Nat) (new : Uuid)
  /-- an error, a deadlock or a crash -/
  | abort (k : Nat)
  /-- another writer's request -/
  | insert (now : Instant) (r : RequestRow)
  /-- a request moves on -/
  | update (now : Instant) (r : RequestRow)
  /-- decisions, policies, listings, actions, profiles, users, approvals, heartbeats -/
  | outside (db : BridgeDb)

section Exec

variable (pg : Postgres) (N : Nat) (W : Int)

/-- The plan of a call that holds the lock: its facts, where the context is unchanged. -/
def replan (db : BridgeDb) (c : Call) : Option PlanFacts :=
  match policyBridgePlan pg db c.start c.decisionId c.params with
  | .error _ => none
  | .ok (f, context) => if context = c.context then some f else none

/-- What the next statement of a call leaves it with; a call that ends is idle. -/
def nextSession (db : BridgeDb) : Session → Option Session
  | .planning c =>
    some (match replan pg db c with
      | some f => .checking c f (checksOf c.params.mode)
      | none => .idle)
  | .checking c f (check :: left) =>
    some (match check.stops db c f with
      | some _ => .idle
      | none => .checking c f left)
  | _ => none

def exec (w : World) : Action → Option World
  | .call k c =>
    match w.sessions[k]? with
    | some .idle =>
      if c.params.maxPerWindow = (N : Int) ∧ c.params.windowSeconds = W then
        if withinBounds c then some { w with sessions := w.sessions.set k (.waiting c) }
        else some w
      else none
    | _ => none
  | .lock k =>
    match w.sessions[k]? with
    | some (.waiting c) =>
      if ∀ s ∈ w.sessions, s.holdsLock = false then
        some { w with sessions := w.sessions.set k (.planning c) }
      else none
    | _ => none
  | .statement k =>
    (w.sessions[k]?.bind (nextSession pg w.db)).map (fun s =>
      { w with sessions := w.sessions.set k s })
  | .commit k new =>
    match w.sessions[k]? with
    | some (.checking c f []) =>
      (insertBridgeRequest w.db c f new).map (fun db =>
        { db := db
          sessions := w.sessions.set k .idle
          enqueued := ⟨new, c.params.mode, c.decisionId⟩ :: w.enqueued })
    | _ => none
  | .abort k => some { w with sessions := w.sessions.set k .idle }
  | .insert now r =>
    (insertRequest w.db.executions now r).map (fun executions =>
      { w with db := { w.db with executions := executions } })
  | .update now r =>
    (updateRequest w.db.executions now r).map (fun executions =>
      { w with db := { w.db with executions := executions } })
  | .outside db =>
    some { w with db := { db with executions :=
      { db.executions with requests := w.db.executions.requests } } }

/-- Any committed tables and any number of connections without a call. -/
def Initial (w : World) : Prop :=
  w.enqueued = [] ∧ ∃ n, w.sessions = List.replicate n .idle

/-- The calls of one budget: `N` requests in `W` seconds. -/
def bridgeSystem : TSys World Action := TSys.ofExec Initial (exec pg N W)

end Exec

/-! ## What a step can do -/

section Steps

variable {pg : Postgres} {N : Nat} {W : Int} {w w' : World} {k : Nat}

theorem call_eq_some {c : Call} (h : exec pg N W w (.call k c) = some w') :
    c.params.maxPerWindow = (N : Int) ∧ c.params.windowSeconds = W ∧
      (w' = w ∨ w' = { w with sessions := w.sessions.set k (.waiting c) }) := by
  simp only [exec] at h
  split at h
  case h_2 => cases h
  case h_1 =>
    split at h
    case isFalse => cases h
    case isTrue hp =>
      refine ⟨hp.1, hp.2, ?_⟩
      split at h
      · exact .inr (some.inj h).symm
      · exact .inl (some.inj h).symm

theorem lock_eq_some (h : exec pg N W w (.lock k) = some w') :
    ∃ c, w.sessions[k]? = some (.waiting c) ∧ (∀ s ∈ w.sessions, s.holdsLock = false) ∧
      w' = { w with sessions := w.sessions.set k (.planning c) } := by
  simp only [exec] at h
  split at h
  case h_2 => cases h
  case h_1 c hk =>
    split at h
    · exact ⟨c, hk, ‹_›, (some.inj h).symm⟩
    · cases h

theorem replan_eq_some {db : BridgeDb} {c : Call} {f : PlanFacts}
    (h : replan pg db c = some f) :
    planFacts pg db c.start c.decisionId c.params = .ok f ∧
      c.context = planContext c.params c.start f := by
  unfold replan policyBridgePlan at h
  cases hf : planFacts pg db c.start c.decisionId c.params with
  | error e =>
    rw [hf] at h
    cases h
  | ok g =>
    rw [hf] at h
    simp only [Except.map] at h
    split at h
    · cases h
      exact ⟨rfl, Eq.symm ‹_›⟩
    · cases h

/-- A statement ends the call, plans, or passes a check. -/
theorem statement_eq_some (h : exec pg N W w (.statement k) = some w') :
    ∃ s s', w.sessions[k]? = some s ∧ w' = { w with sessions := w.sessions.set k s' } ∧
      (s' = .idle ∨
        (∃ c f, s = .planning c ∧ s' = .checking c f (checksOf c.params.mode) ∧
          replan pg w.db c = some f) ∨
        ∃ c f check left, s = .checking c f (check :: left) ∧ s' = .checking c f left ∧
          check.stops w.db c f = none) := by
  simp only [exec] at h
  obtain ⟨s', hs', rfl⟩ := map_eq_some_iff.1 h
  obtain ⟨s, hk, hnext⟩ := bind_eq_some_iff.1 hs'
  refine ⟨s, s', hk, rfl, ?_⟩
  unfold nextSession at hnext
  split at hnext
  case h_3 => cases hnext
  case h_1 c =>
    split at hnext
    case h_1 f hf => exact .inr (.inl ⟨c, f, rfl, (some.inj hnext).symm, hf⟩)
    case h_2 => exact .inl (some.inj hnext).symm
  case h_2 c f check left =>
    split at hnext
    case h_1 => exact .inl (some.inj hnext).symm
    case h_2 hpass =>
      exact .inr (.inr ⟨c, f, check, left, rfl, (some.inj hnext).symm, hpass⟩)

theorem commit_eq_some {new : Uuid} (h : exec pg N W w (.commit k new) = some w') :
    ∃ c f executions, w.sessions[k]? = some (.checking c f []) ∧
      insertRequest w.db.executions c.start (bridgeRequest c f new) = some executions ∧
      w' = { db := { w.db with executions := executions }
             sessions := w.sessions.set k .idle
             enqueued := ⟨new, c.params.mode, c.decisionId⟩ :: w.enqueued } := by
  simp only [exec] at h
  split at h
  case h_2 => cases h
  case h_1 c f hk =>
    obtain ⟨db, hdb, rfl⟩ := map_eq_some_iff.1 h
    unfold insertBridgeRequest at hdb
    split at hdb
    · cases hdb
    · obtain ⟨executions, he, rfl⟩ := map_eq_some_iff.1 hdb
      exact ⟨c, f, executions, hk, he, rfl⟩

end Steps

end Clawforge.Bridge

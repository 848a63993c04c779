import Clawforge.Executor.Quarantine

/-!
# Concurrent quarantine jobs

Any number of jobs over one set of rows, interleaved call by call. The host
answers anything; a store operation may fail, or commit and lose its answer; a
job may crash between any two calls, and a session with its guard may be lost
at any time. A guard is the row lock of one generation: a job that asks for a
locked row is told there is none. Requests, approvals and policies change
around the jobs, except where a guard has locked them, and approvals are only
ever added. A wait for a lock is left out, so more orders are possible than
PostgreSQL admits.
-/

namespace Clawforge.Quarantine

open Clawforge.Firewall Kit
open Executor (StoreFate)
open RuleIntents (IntentStatus FirewallActionReceiptInput)

/-! ## What a job has learned -/

structure Facts where
  /-- the row of the guard it acquired -/
  own : Option QuarantineIntent
  /-- the request its reconciliation was validated for -/
  authorized : Option (Uuid × String × Json)
  /-- what the host has answered since the guard was acquired -/
  observed : List (Prog.Event HostCall.Answer)

def Facts.start : Facts := ⟨none, none, []⟩

def Facts.observe (f : Facts) : (c : QCall) → c.Answer → Facts
  | .host c, answer => { f with observed := f.observed ++ [⟨c, answer⟩] }
  | .acquire _, .ok (some i) => { f with own := some i, observed := [] }
  | .validateReconcile execution actionName target, .ok () =>
    { f with authorized := some (execution, actionName, target) }
  | _, _ => f

/-! ## The world -/

/-- A transaction that holds a generation: the task it has written, and the requests whose
approval contexts it has locked, each with the time of the check. -/
structure Guard where
  upid : Option String
  approvals : List (Uuid × Instant)

structure Worker where
  job : Job
  facts : Facts
  rest : Prog QCall.Answer Unit
  guard : Option Guard

def Worker.start (cfg : QuarantineConfig) (job : Job) : Worker :=
  ⟨job, .start, job.program cfg, none⟩

/-- The call a worker makes next. -/
def Worker.next (x : Worker) : Option QCall :=
  match x.rest with
  | .call c _ => some c
  | .pure _ => none

/-- The worker's transaction holds the row lock of this generation. -/
def Worker.holds (x : Worker) (id : Uuid) : Bool :=
  x.guard.isSome && x.facts.own.any (fun i => i.id = id)

structure World where
  now : Instant
  rows : QuarantineDb
  workers : List Worker

/-- What the environment decides about a call: the answers that are not the store's, what
becomes of a store operation, the text of a lost session, and the ids the database draws. -/
structure Env where
  oracle : (c : QCall) → c.Answer
  fate : StoreFate
  lost : String
  id : Uuid
  receipt : Uuid

/-- The rows and the answer after a statement that is its own transaction or its guard's last. -/
def outcomeOf {α : Type} (S : QuarantineDb) (run : Except String QuarantineDb) (a : α) :
    StoreFate → QuarantineDb × Except String α
  | .failed error => (S, .error error)
  | .committed =>
    match run with
    | .ok S' => (S', .ok a)
    | .error error => (S, .error error)
  | .unacknowledged error =>
    match run with
    | .ok S' => (S', .error error)
    | .error refused => (S, .error refused)

/-- The answer of a statement that only reads. -/
def readAs {α : Type} (a : α) : StoreFate → Except String α
  | .committed => .ok a
  | .failed error | .unacknowledged error => .error error

/-- A guard's last statement: whatever becomes of it, the guard is gone. -/
def lastStatement (S : QuarantineDb) (x : Worker) (env : Env)
    (run : QuarantineIntent → Option String → Except String QuarantineDb) :
    QuarantineDb × Option Guard × Except String Unit :=
  match x.guard, x.facts.own with
  | some g, some i =>
    let (S', answer) := outcomeOf S (run i g.upid) () env.fate
    (S', none, answer)
  | _, _ => (S, none, .error env.lost)

/-- `validate_approval` and `validate_reconcile_approval`: locks an approval context and checks
it, and the guard's generation. -/
def checkApproval (w : World) (x : Worker) (env : Env) (execution : QuarantineIntent → Uuid)
    (actionName : QuarantineIntent → String) (target : QuarantineIntent → Json)
    (status : IntentStatus) (refused : String) : Option Guard × Except String Unit :=
  match x.guard, x.facts.own with
  | some g, some i =>
    match lockQuarantineApproval w.rows.db (execution i) with
    | .error error => (some g, .error error)
    | .ok _ =>
      if i.status = status ∧
          approvalCurrent w.rows.db w.now (execution i) (actionName i) (target i) = true then
        (some { g with approvals := (execution i, w.now) :: g.approvals }, readAs () env.fate)
      else (some g, .error refused)
  | _, _ => (x.guard, .error env.lost)

variable (contextHash : Json → String)

/-- The rows, the worker's guard and the answer after a call. -/
def answerCall (w : World) (x : Worker) (env : Env) :
    (c : QCall) → QuarantineDb × Option Guard × c.Answer
  | .prepare a =>
    let (S, answer) := outcomeOf w.rows
      (prepareQuarantineIntent contextHash w.rows a env.id w.now) env.id env.fate
    (S, x.guard, answer)
  | .acquire id =>
    let row :=
      if w.workers.any (fun y => y.holds id) then none else acquireQuarantineGuard w.rows id
    match env.fate, row with
    | .committed, some i => (w.rows, some ⟨none, []⟩, .ok (some i))
    | fate, _ => (w.rows, x.guard, readAs none fate)
  | .find id => (w.rows, x.guard, readAs (w.rows.intents.get? id) env.fate)
  | .activeFor adapter fingerprint =>
    (w.rows, x.guard, readAs (activeQuarantineIntentFor w.rows adapter fingerprint) env.fate)
  | .validateApproval =>
    let (guard, answer) := checkApproval w x env (·.executionId) (·.actionName) (·.targetJson)
      .prepared "quarantine approval no longer valid before mutation"
    (w.rows, guard, answer)
  | .validateReconcile execution actionName target =>
    let (guard, answer) := checkApproval w x env (fun _ => execution) (fun _ => actionName)
      (fun _ => target) .recoveryRequired
      "reconcile approval invalid or generation not awaiting reconciliation"
    (w.rows, guard, answer)
  | .setUpid upid =>
    match x.guard with
    | some g => (w.rows, some { g with upid := some upid }, readAs () env.fate)
    | none => (w.rows, none, .error env.lost)
  | .finish input =>
    lastStatement w.rows x env fun i upid => finish w.rows i upid input env.receipt w.now
  | .recoveryRequired =>
    lastStatement w.rows x env fun i upid => recoveryRequired w.rows i upid w.now
  | .resolveRollback =>
    lastStatement w.rows x env fun i upid => resolveRollback w.rows i upid env.receipt w.now
  | .host c => (w.rows, x.guard, env.oracle (.host c))
  | .clock => (w.rows, x.guard, env.oracle .clock)
  | .beginInflight adapter => (w.rows, x.guard, env.oracle (.beginInflight adapter))
  | .endInflight lease => (w.rows, x.guard, env.oracle (.endInflight lease))

/-- Whether requests, approvals and policies may have become `db`. -/
def mayBecome (w : World) (db : Executions.Db) : Bool :=
  w.rows.db.approvals.all db.approvals.contains &&
    w.workers.all fun x => x.guard.all fun g => g.approvals.all fun p =>
      approvalContext db p.1 = approvalContext w.rows.db p.1

inductive Label
  | tick (elapsed : Nat)
  | start (job : Job)
  | call (k : Nat) (env : Env)
  /-- the worker's process ends; its transaction is rolled back some time later -/
  | crash (k : Nat)
  /-- the worker's session is lost, and with it its guard -/
  | drop (k : Nat)
  | external (db : Executions.Db)

variable (cfg : QuarantineConfig)

def World.exec (w : World) : Label → Option World
  | .tick elapsed => some { w with now := w.now + elapsed }
  | .start job => some { w with workers := w.workers ++ [.start cfg job] }
  | .call k env =>
    match w.workers[k]? with
    | none => none
    | some x =>
      match x.rest with
      | .pure _ => none
      | .call c rest =>
        let (rows, guard, answer) := answerCall contextHash w x env c
        some { w with
          rows
          workers := w.workers.set k
            ⟨x.job, x.facts.observe c answer, rest answer, guard⟩ }
  | .crash k => (w.workers[k]?).map fun x =>
    { w with workers := w.workers.set k { x with rest := .pure () } }
  | .drop k => (w.workers[k]?).map fun x =>
    { w with workers := w.workers.set k { x with guard := none } }
  | .external db =>
    if mayBecome w db then some { w with rows := { w.rows with db } } else none

/-- At most one active generation of a target, as the unique index has it. -/
def OneActive (S : QuarantineDb) : Prop :=
  ∀ i ∈ S.intents, ∀ j ∈ S.intents, i.status.active = true → j.status.active = true →
    i.targetKey = j.targetKey → i = j

/-- Rows under the index, and no job yet. -/
def World.Initial (w : World) : Prop := OneActive w.rows ∧ w.workers = []

def system : TSys World Label :=
  .ofExec World.Initial (World.exec contextHash cfg)

end Clawforge.Quarantine

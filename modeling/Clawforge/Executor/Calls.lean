import Clawforge.Executor.SingleAdapter
import Clawforge.Kit.Slots
import Clawforge.Storage.RuleLedger

/-!
# Concurrent live calls of one ledger

Any number of live journaled `apply_single_adapter` calls over one host and one
committed ledger, interleaved call by call. Every answer of the host and every
failure of the store is a choice of the environment: a mutation handed to the
host may take effect at any later moment or never, whatever the adapter is told;
an operation of the store may fail, or commit and lose its answer; a call may
crash between any two steps. Beside the calls, the sweep may retain a generation
for recovery.
-/

namespace Clawforge.Executor

open Clawforge.Firewall Clawforge.RuleIntents Kit

/-! ## One call -/

/-- Where a call stands. -/
inductive Phase
  | running (rest : Dispatch)
  /-- inside an adapter's method, with the host's answers to it so far -/
  | inMethod (c : ExecCall) (answers : List (Prog.Event HostCall.Answer))
      (rest : Prog HostCall.Answer c.Answer) (k : c.Answer → Dispatch)
  | done (outcome : GenericDispatchOutcome)
  | crashed

/-- One call, with what it knows and, for the statements about it, what the host listed at
its preflight, which methods it entered and what it handed to the host. -/
structure LiveCall where
  kind : AdapterKind
  action : FirewallAction
  journal : RuleJournal
  phase : Phase
  facts : Facts
  inspected : List (Prog.Event HostCall.Answer)
  entered : List ExecCall
  issued : List HostCall

def LiveCall.start (cfg : AdapterConfig) (kind : AdapterKind) (action : FirewallAction)
    (journal : RuleJournal) : LiveCall where
  kind := kind
  action := action
  journal := journal
  phase := .running (applySingleAdapter cfg kind action false (some journal))
  facts := .start
  inspected := []
  entered := []
  issued := []

/-- The program of a call to an adapter. -/
def ExecCall.method (cfg : AdapterConfig) : (c : ExecCall) → Option (Prog HostCall.Answer c.Answer)
  | .preflight kind target => some ((kind.adapter cfg).preflight target)
  | .apply kind action dryRun => some ((kind.adapter cfg).apply action dryRun)
  | .verify kind target => some ((kind.adapter cfg).verify target)
  | .prepare _ | .finish _ _ | .recoveryRequired _ | .resolveIncidentSource _ => none

def ExecCall.isPreflight : ExecCall → Bool
  | .preflight _ _ => true
  | _ => false

namespace LiveCall

/-- The call enters an adapter's method. -/
def enter (cfg : AdapterConfig) (s : LiveCall) : Option LiveCall :=
  match s.phase with
  | .running (.call c k) =>
    (c.method cfg).map fun m =>
      { s with phase := .inMethod c [] m k, entered := s.entered ++ [c] }
  | _ => none

/-- The method hands its next host call to the host. -/
def issue (s : LiveCall) : Option LiveCall :=
  match s.phase with
  | .inMethod _ _ (.call hc _) _ => some { s with issued := s.issued ++ [hc] }
  | _ => none

/-- The host call is answered. -/
def host (oracle : (hc : HostCall) → hc.Answer) (s : LiveCall) : Option LiveCall :=
  match s.phase with
  | .inMethod c answers (.call hc next) k =>
    some { s with
      phase := .inMethod c (answers ++ [⟨hc, oracle hc⟩]) (next (oracle hc)) k
      issued := s.issued ++ [hc] }
  | _ => none

/-- The method returns to the dispatch. -/
def back (s : LiveCall) : Option LiveCall :=
  match s.phase with
  | .inMethod c answers (.pure a) k =>
    some { s with
      phase := .running (k a)
      facts := s.facts.observe c a
      inspected := if c.isPreflight then answers else s.inspected }
  | _ => none

/-- The dispatch returns its outcome. -/
def conclude (s : LiveCall) : Option LiveCall :=
  match s.phase with
  | .running (.pure o) => some { s with phase := .done o }
  | _ => none

/-- The dispatch is answered by the store. -/
def answered (s : LiveCall) (c : ExecCall) (k : c.Answer → Dispatch) (a : c.Answer) : LiveCall :=
  { s with phase := .running (k a), facts := s.facts.observe c a }

end LiveCall

/-! ## The world -/

structure CallWorld where
  ledger : Ledger
  calls : List LiveCall
  /-- the mutations that took effect, each with the call it came from -/
  inserted : List (Nat × HostCall)

/-- What happens to a store operation: it fails, or commits, acknowledged or not. -/
inductive StoreFate
  | failed (error : String)
  | committed
  | unacknowledged (error : String)

/-- The store operation a call asks for, with the values the database draws for it. -/
def ExecCall.ledgerOp (id receipt : Uuid) (now : Instant) : ExecCall → Option LedgerOp
  | .prepare args => some (.prepare args id now)
  | .finish intent input => some (.finish intent input receipt now)
  | .recoveryRequired intent => some (.recoveryRequired intent now)
  | _ => none

/-- The store's answers: an error, or what the committed operation returns. -/
def ExecCall.storeAnswer (id : Uuid) : (c : ExecCall) → Option String → Option c.Answer
  | .prepare _, error => some (error.elim (.ok id) .error)
  | .finish _ _, error | .recoveryRequired _, error => some (error.elim (.ok ()) .error)
  | _, _ => none

/-- The ledger and the reported error after an operation. -/
def StoreFate.commit (L : Ledger) (op : LedgerOp) : StoreFate → Option (Ledger × Option String)
  | .failed error => some (L, some error)
  | .committed => (op.run L).toOption.map fun L' => (L', none)
  | .unacknowledged error => (op.run L).toOption.map fun L' => (L', some error)

inductive CallStep
  | enter (j : Nat)
  | issue (j : Nat)
  | host (j : Nat) (oracle : (hc : HostCall) → hc.Answer)
  | back (j : Nat)
  | conclude (j : Nat)
  | store (j : Nat) (fate : StoreFate) (id receipt : Uuid) (now : Instant)
  | crash (j : Nat)
  /-- a mutation handed to the host takes effect -/
  | land (j : Nat) (hc : HostCall)
  /-- the sweep retains a generation -/
  | retain (id : Uuid) (now : Instant)

/-- A step of the call in slot `j`. -/
def CallWorld.update (w : CallWorld) (j : Nat) (f : LiveCall → Option LiveCall) :
    Option CallWorld := do
  let s ← w.calls[j]?
  let s' ← f s
  some { w with calls := w.calls.set j s' }

/-- The store's operation for a call. -/
def CallWorld.store (w : CallWorld) (s : LiveCall) (fate : StoreFate) (id receipt : Uuid)
    (now : Instant) : Option (Ledger × LiveCall) :=
  match s.phase with
  | .running (.call c k) => do
      let op ← c.ledgerOp id receipt now
      let (ledger, error) ← fate.commit w.ledger op
      let a ← c.storeAnswer id error
      some (ledger, s.answered c k a)
  | _ => none

def CallWorld.exec (cfg : AdapterConfig) (w : CallWorld) : CallStep → Option CallWorld
  | .enter j => w.update j (·.enter cfg)
  | .issue j => w.update j LiveCall.issue
  | .host j oracle => w.update j (·.host oracle)
  | .back j => w.update j LiveCall.back
  | .conclude j => w.update j LiveCall.conclude
  | .crash j => w.update j fun s => some { s with phase := .crashed }
  | .store j fate id receipt now => do
      let s ← w.calls[j]?
      let (ledger, s') ← w.store s fate id receipt now
      some { w with ledger := ledger, calls := w.calls.set j s' }
  | .land j hc => do
      let s ← w.calls[j]?
      if hc ∈ s.issued ∧ hc.reads = false then
        some { w with inserted := w.inserted ++ [(j, hc)] }
      else none
  | .retain id now =>
    (markFirewallRuleRecoveryRequired w.ledger id now).toOption.map fun ledger =>
      { w with ledger := ledger }

/-- Calls that have not begun, over a ledger left by earlier runs. -/
def CallWorld.Initial (cfg : AdapterConfig) (base : Ledger) (w : CallWorld) : Prop :=
  w.ledger = base ∧ w.inserted = [] ∧
    ∀ s ∈ w.calls, s = .start cfg s.kind s.action s.journal

def callSystem (cfg : AdapterConfig) (base : Ledger) : TSys CallWorld CallStep :=
  TSys.ofExec (CallWorld.Initial cfg base) (CallWorld.exec cfg)

/-! ## What a call stands for -/

/-- The rule a call would own: the columns of the unique index. -/
def LiveCall.ruleKey (cfg : AdapterConfig) (s : LiveCall) :
    Except AdapterError (String × String × String) :=
  ((s.kind.adapter cfg).render (receiptSafeAction s.action)).map fun rendered =>
    (s.kind.name, (s.kind.adapter cfg).ruleScope s.action.target, rendered.targetFingerprint)

/-- The generation was prepared for this call, and its snapshot names the call's target. -/
structure LiveCall.Owns (cfg : AdapterConfig) (s : LiveCall) (r : IntentSnapshot) : Prop where
  execution : r.executionId = s.journal.executionId
  action : r.actionName = s.journal.actionName
  key : s.ruleKey cfg = .ok (r.adapter, r.ruleScope, r.ruleFingerprint)
  target : r.targetJson = (RecoveryTarget.mk s.kind.name s.action.target).toJson

/-- The live applies the call has entered. -/
def LiveCall.applies (s : LiveCall) : List (AdapterKind × FirewallAction) :=
  s.entered.filterMap ExecCall.liveApply

end Clawforge.Executor

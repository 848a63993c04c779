import Clawforge.Firewall.Adapter
import Clawforge.Kit.Page
import Clawforge.Kit.TSys
import Clawforge.Storage.RuleIntents

/-!
# The drift check of active rule generations

`sweep_active_generation_drift`: each poll reads the listed generations back
and reports a state that differs from the one remembered in memory. A report
whose audit event cannot be recorded is forgotten, so that the next poll makes
it again. The ledger, the answers of the adapters and the fate of each audit
write are the environment's; the executor is one process.
-/

namespace Clawforge.Executor.Drift

open Clawforge.Firewall Clawforge.RuleIntents Kit

/-- What the read-only check saw for one active generation. -/
inductive DriftState
  | inForce | absent | unreadable
deriving DecidableEq, Repr

/-- `drift_transition`: the message to emit, `none` when there is nothing new to say. -/
def driftTransition (previous : Option DriftState) (now : DriftState) : Option String :=
  if previous = some now then none
  else
    match previous, now with
    | none, .inForce => none
    | _, .absent =>
      some "active firewall rule generation is no longer in the kernel/adapter state (drift)"
    | _, .unreadable =>
      some "active firewall rule generation could not be read back (adapter unreadable)"
    | some _, .inForce => some "active firewall rule generation is in force again"

/-- The state behind an answer of `verify_firewall_rule_generation_target`. -/
def driftState : Except String VerificationResult → DriftState
  | .ok .verified => .inForce
  | .ok .notPresent => .absent
  | .error _ => .unreadable

/-- What is recorded of a state. -/
def observedText : DriftState → Option String
  | .absent => some "absent"
  | .unreadable => some "unreadable"
  | .inForce => none

/-! ## The listing -/

/-- Completed and not yet expired. -/
def ActiveCompleted (now : Instant) (r : FirewallRuleIntent) : Prop :=
  r.status = .completed ∧ now < r.expiresAt

instance (now : Instant) : DecidablePred (ActiveCompleted now) :=
  fun _ => inferInstanceAs (Decidable (_ ∧ _))

/-- `ORDER BY created_at, id`. -/
def listedBefore (a b : FirewallRuleIntent) : Prop :=
  a.createdAt < b.createdAt ∨ (a.createdAt = b.createdAt ∧ a.id ≤ b.id)

instance : DecidableRel listedBefore := fun _ _ => inferInstanceAs (Decidable (_ ∨ _))

def activeCompleted (L : Ledger) (now : Instant) : List FirewallRuleIntent :=
  L.intents.rows.filter fun r => ActiveCompleted now r

/-- `active_completed_firewall_rule_intents`. -/
def activeCompletedFirewallRuleIntents (L : Ledger) (now : Instant) : List FirewallRuleIntent :=
  page listedBefore 100 (activeCompleted L now)

/-! ## The check -/

/-- The event of `record_firewall_rule_drift`. -/
structure DriftAudit where
  intentId : Uuid
  executionId : Uuid
  adapter : String
  scope : String
  expected : String
  observed : String
deriving DecidableEq

def driftAudit (r : FirewallRuleIntent) (observed : String) : DriftAudit where
  intentId := r.id
  executionId := r.executionId
  adapter := r.adapter
  scope := r.ruleScope
  expected := "present"
  observed := observed

/-- What becomes of an audit write. -/
inductive AuditFate
  | written
  | failed
  /-- committed, but the answer was lost -/
  | unacknowledged
deriving DecidableEq, Repr

/-- A poll: the ledger at its listing, whether the listing fails, what each adapter answers and
what becomes of each audit write. -/
structure Poll where
  ledger : Ledger
  now : Instant
  listed : Bool
  inspect : Uuid → Except String VerificationResult
  fate : Uuid → AuditFate

/-- An audit write that a poll attempts. -/
structure Attempt where
  audit : DriftAudit
  fate : AuditFate
deriving DecidableEq

/-- The remembered states. -/
abbrev Seen := Uuid → Option DriftState

def remember (seen : Seen) (id : Uuid) (state : Option DriftState) : Seen :=
  fun k => if k = id then state else seen k

/-- One iteration of the loop: the remembered states, and the audit write it attempts. -/
def checkIntent (p : Poll) (seen : Seen) (r : FirewallRuleIntent) : Seen × Option Attempt :=
  let now := driftState (p.inspect r.id)
  let kept := remember seen r.id (some now)
  match driftTransition (seen r.id) now, observedText now with
  | some _, some observed =>
    (if p.fate r.id = .written then kept else remember kept r.id none,
      some ⟨driftAudit r observed, p.fate r.id⟩)
  | _, _ => (kept, none)

/-- The loop over the listing. -/
def checkAll (p : Poll) : List FirewallRuleIntent → Seen → Seen × List Attempt
  | [], seen => (seen, [])
  | r :: rest, seen =>
    let first := checkIntent p seen r
    let others := checkAll p rest first.1
    (others.1, first.2.toList ++ others.2)

/-! ## The executor over its polls -/

/-- What a poll has met, which no code reads: the active generations, their states, and the
audit writes attempted. -/
structure Observation where
  active : List FirewallRuleIntent
  state : Uuid → DriftState
  fate : Uuid → AuditFate
  attempts : List Attempt

/-- The remembered states, the audit events recorded, and the polls so far, the last one first. -/
structure World where
  seen : Seen
  outbox : List DriftAudit
  past : List Observation

/-- `sweep_active_generation_drift`. A listing that fails ends the poll. -/
def sweep (w : World) (p : Poll) : World :=
  if p.listed then
    let intents := activeCompletedFirewallRuleIntents p.ledger p.now
    let retained : Seen := fun id => if id ∈ intents.map FirewallRuleIntent.id then w.seen id else none
    let checked := checkAll p intents retained
    { seen := checked.1
      outbox := w.outbox ++ (checked.2.filter (fun a => a.fate ≠ .failed)).map Attempt.audit
      past := ⟨activeCompleted p.ledger p.now, fun id => driftState (p.inspect id), p.fate,
        checked.2⟩ :: w.past }
  else w

def Initial (w : World) : Prop := (∀ id, w.seen id = none) ∧ w.outbox = [] ∧ w.past = []

def driftSystem : TSys World Poll := TSys.ofExec Initial fun w p => some (sweep w p)

end Clawforge.Executor.Drift

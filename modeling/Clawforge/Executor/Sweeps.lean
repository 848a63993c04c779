import Clawforge.Executor.Quarantine

/-!
# The executor's rollback sweeps

`sweep_firewall_rule_generations`, `sweep_kill_switch_requests` and
`sweep_expired_firewall_targets`, with `recover_firewall_rule_generation` that the first two
share. A sweep is a program that calls the store, the quarantine runtime and the adapters'
`rollback`; any call may fail, and everything that runs beside it shows in its answers.
-/

namespace Clawforge.Executor

open Clawforge.Firewall Clawforge.RuleIntents Kit
open Clawforge.Quarantine (RecoveryOutcome)
open EventDelivery (uuidText)

/-! ## Calls -/

/-- A row of `pending_firewall_kill_switch_requests`. -/
structure KillSwitchRequest where
  requestId : Uuid
  adapter : String
  targetFingerprint : String
  targetJson : Json
  reason : Option String
  quarantineIntentId : Option Uuid

/-- A row of `expired_unrolled_back_firewall_targets`. -/
structure ExpiredTarget where
  receiptId : Uuid
  adapter : String
  targetFingerprint : String
  targetJson : Json

inductive SweepCall
  | pendingKillSwitch
  | recoverableIntents
  | expiredTargets
  /-- `none`: the generation is over, or locked by another worker -/
  | acquireGuard (id : Uuid)
  | intent (id : Uuid)
  | hasActiveLease (executionId : Uuid)
  | recoveryRequired (id : Uuid)
  | resolveRollback (id : Uuid)
  /-- `try_begin_inflight`; `none`: the budget is spent -/
  | beginInflight (adapter : String)
  | endInflight (id : Uuid)
  | rollback (adapter : AdapterKind) (action : FirewallAction)
  | recoverQuarantine (id : Uuid)
  | activeGenerationFor (adapter fingerprint : String)
  /-- the `rollback` receipt -/
  | recordReceipt (adapter actionName fingerprint : String)
  | markProcessed (request : Uuid)

abbrev SweepCall.Answer : SweepCall → Type
  | .pendingKillSwitch => Except String (List KillSwitchRequest)
  | .recoverableIntents => Except String (List FirewallRuleIntent)
  | .expiredTargets => Except String (List ExpiredTarget)
  | .acquireGuard _ | .intent _ => Except String (Option FirewallRuleIntent)
  | .hasActiveLease _ => Except String Bool
  | .beginInflight _ | .activeGenerationFor _ _ => Except String (Option Uuid)
  | .recoverQuarantine _ => Except String RecoveryOutcome
  | .rollback _ _ => Except AdapterError Unit
  | .recoveryRequired _ | .resolveRollback _ | .endInflight _ | .recordReceipt _ _ _
  | .markProcessed _ => Except String Unit

abbrev Sweep := Prog SweepCall.Answer

/-! ## Rollbacks -/

abbrev Rollback := AdapterKind × FirewallAction

/-- What `rollback_target` asks of a firewall adapter; `none` where it refuses the target. -/
def targetRollback (adapter : String) (target : Json) (context : String) : Option Rollback := do
  let kind ← adapterForAction adapter
  let target ← (FirewallTarget.tryFrom target).toOption
  some (kind, ⟨target, defaultActionTtlSeconds, context⟩)

/-- The same of `rollback_firewall_rule_generation_target`. -/
def generationRollback (id : Uuid) (i : FirewallRuleIntent) : Option Rollback := do
  let recovery ← RecoveryTarget.fromJson i.targetJson
  if recovery.scope = i.adapter then
    let kind ← adapterForAction i.adapter
    some (kind, ⟨recovery.target, defaultActionTtlSeconds,
      "firewall rule generation " ++ uuidText id ++ " ttl rollback"⟩)
  else none

/-- A rollback under a reservation of the adapter, and whether it succeeds; `none` where there is
no reservation. -/
def reservedRollback (adapter : String) (rollback : Option Rollback) : Sweep (Option Bool) :=
  .call (.beginInflight adapter) fun
    | .ok (some lease) =>
      match rollback with
      | none => .call (.endInflight lease) fun _ => .pure (some false)
      | some (kind, action) =>
        .call (.rollback kind action) fun result =>
          .call (.endInflight lease) fun _ => .pure (some result.toBool)
    | .ok none | .error _ => .pure none

/-! ## Generations -/

/-- From the answer of a reserved rollback on. -/
def settleRecovery (id : Uuid) : Option Bool → Sweep RecoveryOutcome
  | none => .pure .busy
  | some false => .call (.recoveryRequired id) fun _ => .pure .manualReview
  | some true =>
    .call (.resolveRollback id) fun
      | .ok () => .pure .restored
      | .error _ => .pure .manualReview

/-- `recover_firewall_rule_generation`. -/
def recoverFirewallRuleGeneration (id : Uuid) : Sweep RecoveryOutcome :=
  .call (.acquireGuard id) fun
    | .ok (some i) =>
      if i.status = .prepared then
        .call (.hasActiveLease i.executionId) fun
          | .ok false => .call (.recoveryRequired id) fun _ => .pure .manualReview
          | .ok true | .error _ => .pure .busy
      else (reservedRollback i.adapter (generationRollback id i)).bind (settleRecovery id)
    | .ok none =>
      .call (.intent id) fun
        | .ok (some i) =>
          .pure (if i.status = .rolledBack ∨ i.status = .notApplied then .resolved else .busy)
        | .ok none | .error _ => .pure .busy
    | .error _ => .pure .busy

/-! ## The sweeps -/

def forEach {α : Type} (f : α → Sweep Unit) : List α → Sweep Unit
  | [] => .pure ()
  | a :: rest => (f a).bind fun _ => forEach f rest

def isQuarantine (adapter : String) : Bool :=
  adapter = "docker" || adapter = "proxmox" || adapter = "tailscale"

/-- `sweep_firewall_rule_generations`. -/
def sweepFirewallRuleGenerations : Sweep Unit :=
  .call .recoverableIntents fun
    | .ok intents =>
      forEach (fun i =>
        if i.status = .recoveryRequired then .pure ()
        else (recoverFirewallRuleGeneration i.id).bind fun _ => .pure ()) intents
    | .error _ => .pure ()

def KillSwitchRequest.rollback (r : KillSwitchRequest) : Option Rollback :=
  targetRollback r.adapter r.targetJson
    ("kill-switch request " ++ uuidText r.requestId ++ " (" ++
      r.reason.getD "no reason given" ++ ")")

def markIf (ended : Bool) (r : KillSwitchRequest) : Sweep Unit :=
  if ended then .call (.markProcessed r.requestId) fun _ => .pure () else .pure ()

def isOver (outcome : RecoveryOutcome) : Bool := outcome = .restored || outcome = .resolved

/-- The end of the target-only path. -/
def settleTarget (r : KillSwitchRequest) : Option Bool → Sweep Unit
  | some true =>
    .call (.recordReceipt r.adapter "kill-switch-rollback" r.targetFingerprint) fun recorded =>
      markIf recorded.toBool r
  | some false | none => .pure ()

def processKillSwitch (r : KillSwitchRequest) : Sweep Unit :=
  match r.quarantineIntentId with
  | some id =>
    .call (.recoverQuarantine id) fun
      | .ok outcome => markIf (isOver outcome) r
      | .error _ => .pure ()
  | none =>
    if isQuarantine r.adapter then .pure ()
    else
      .call (.activeGenerationFor r.adapter r.targetFingerprint) fun
        | .ok (some id) =>
          (recoverFirewallRuleGeneration id).bind fun outcome => markIf (isOver outcome) r
        | .ok none => (reservedRollback r.adapter r.rollback).bind (settleTarget r)
        | .error _ => .pure ()

/-- `sweep_kill_switch_requests`. -/
def sweepKillSwitchRequests : Sweep Unit :=
  .call .pendingKillSwitch fun
    | .ok pending => forEach processKillSwitch pending
    | .error _ => .pure ()

def ExpiredTarget.rollback (x : ExpiredTarget) : Option Rollback :=
  targetRollback x.adapter x.targetJson
    ("ttl expired auto-rollback (receipt " ++ uuidText x.receiptId ++ ")")

def expireTarget (x : ExpiredTarget) : Sweep Unit :=
  if isQuarantine x.adapter then .pure ()
  else
    (reservedRollback x.adapter x.rollback).bind fun
      | some true =>
        .call (.recordReceipt x.adapter "ttl-expired-auto-rollback" x.targetFingerprint) fun _ =>
          .pure ()
      | some false | none => .pure ()

/-- `sweep_expired_firewall_targets`. -/
def sweepExpiredFirewallTargets : Sweep Unit :=
  .call .expiredTargets fun
    | .ok expired => forEach expireTarget expired
    | .error _ => .pure ()

inductive SweepKind
  | generations | killSwitch | expired
deriving DecidableEq, Repr

def SweepKind.program : SweepKind → Sweep Unit
  | .generations => sweepFirewallRuleGenerations
  | .killSwitch => sweepKillSwitchRequests
  | .expired => sweepExpiredFirewallTargets

end Clawforge.Executor

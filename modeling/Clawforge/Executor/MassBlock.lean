import Clawforge.Executor.Dispatch

/-!
# The mass-block budget

Executors that claim requests, read the budget and dispatch, any number of them and in any
order. The budget counts receipts; what it is to bound are the mutations of the adapters, which
come before their receipts, and some of which get none.
-/

namespace Clawforge.MassBlock

open Executor Firewall Kit RuleIntents

/-! ## Dry runs -/

/-- What an executor reads from its environment; numbers as `parse::<i64>` has left them. -/
structure Settings where
  dryRun : Bool
  /-- the classes of a valid live authorization -/
  authorized : Option (List String)
  /-- `CLAWFORGE_FIREWALL_ADAPTERS`, or its default -/
  multiAdapters : String
  rateWindowSeconds : Option Int
  maxAppliesPerWindow : Option Int

def quarantineActions : List String :=
  ["tailscale.quarantine_device", "proxmox.quarantine_vm", "docker.quarantine_container"]

/-- `action_class`. -/
def actionClass (actionName : String) : Option String :=
  if actionName ∈ quarantineActions then none
  else if Text.startsWith actionName "nftables." then some "nftables"
  else if Text.startsWith actionName "haproxy_ratelimit." then some "haproxy_ratelimit"
  else if Text.startsWith actionName "haproxy." then some "haproxy"
  else if Text.startsWith actionName "goaway." then some "goaway"
  else if isMulti actionName then some "firewall"
  else none

/-- `allows_action`. -/
def allowsAction (actions : List String) (actionName : String) : Bool :=
  (actionClass actionName).any actions.contains

/-- `request_requires_dry_run`. -/
def requestRequiresDryRun (target : Option Json) : Bool :=
  ((target.bind (fun t => t.get "simulation_only")).bind Json.asBool).getD false

/-- `resolve_dry_run`, of the classes of the authorization. -/
def resolveDryRun (envDryRun simulationOnly : Bool) (auth : Option (List String))
    (actionName : String) : Bool :=
  if envDryRun || simulationOnly then true
  else !(auth.any (fun actions => allowsAction actions actionName))

/-- `dispatch_dry_run`. -/
def dispatchDryRun (cfg : Settings) (actionName : String) (target : Option Json) : Bool :=
  cfg.dryRun || requestRequiresDryRun target ||
    !(cfg.authorized.any (fun actions => allowsAction actions actionName))

/-- `is_firewall_action`. -/
def isFirewallAction (actionName : String) : Bool :=
  Text.startsWith actionName "nftables." || Text.startsWith actionName "haproxy_ratelimit." ||
    Text.startsWith actionName "haproxy." || Text.startsWith actionName "goaway." ||
    isMulti actionName || quarantineActions.contains actionName

/-- `firewall_budget_applies`. -/
def firewallBudgetApplies (actionName : String) (dryRun : Bool) : Bool :=
  !dryRun && isFirewallAction actionName

/-- `adapters_touched_by`. -/
def adaptersTouchedBy (multiAdapters actionName : String) : List String :=
  if isMulti actionName then (configuredMultiAdapters multiAdapters).map AdapterKind.name
  else if actionName = "tailscale.quarantine_device" then ["tailscale"]
  else if actionName = "proxmox.quarantine_vm" then ["proxmox"]
  else if actionName = "docker.quarantine_container" then ["docker"]
  else if Text.startsWith actionName "haproxy_ratelimit." then ["haproxy_ratelimit"]
  else if Text.startsWith actionName "haproxy." then ["haproxy"]
  else if Text.startsWith actionName "goaway." then ["goaway"]
  else if Text.startsWith actionName "nftables." then ["nftables"]
  else []

/-! ## The budget -/

/-- `firewall_rate_window_seconds`. -/
def rateWindowSeconds (cfg : Settings) : Int :=
  (cfg.rateWindowSeconds.filter (fun v => 0 < v)).getD 300

/-- `firewall_max_applies_per_window`. -/
def maxAppliesPerWindow (cfg : Settings) : Int :=
  (cfg.maxAppliesPerWindow.filter (fun v => 0 < v)).getD 20

/-- What the budget reads of a row of `firewall_action_receipts`. -/
structure Receipt where
  isDryRun : Bool
  receiptKind : ReceiptKind
  createdAt : Instant
deriving DecidableEq

def Receipt.isRealApply (r : Receipt) : Bool := r.isDryRun = false && r.receiptKind = .apply

/-- The real applies stamped after `NOW() - window`. -/
def recentRealApplies (receipts : List Receipt) (now : Instant) (windowSeconds : Int) : Nat :=
  receipts.countP (fun r =>
    r.isRealApply && decide ((now : Int) - windowSeconds * 1000000 < (r.createdAt : Int)))

/-- `recent_real_firewall_apply_count`. -/
def recentRealFirewallApplyCount (receipts : List Receipt) (now : Instant)
    (windowSeconds : Int) : Except String Nat :=
  if windowSeconds ≤ 0 then .error "window_seconds must be positive"
  else .ok (recentRealApplies receipts now windowSeconds)

/-- `firewall_mass_block_budget_exceeded`. -/
def firewallMassBlockBudgetExceeded (cfg : Settings) (receipts : List Receipt) (now : Instant)
    (actionName : String) (dryRun : Bool) : Except String (Option String) :=
  if firewallBudgetApplies actionName dryRun then
    match recentRealFirewallApplyCount receipts now (rateWindowSeconds cfg) with
    | .error e => .error e
    | .ok count =>
      if maxAppliesPerWindow cfg ≤ count then
        .ok (some ("mass-block budget exceeded: " ++ toString count ++
          " real applies already recorded in the last " ++ toString (rateWindowSeconds cfg) ++
          "s (max " ++ toString (maxAppliesPerWindow cfg) ++
          ", see CLAWFORGE_FIREWALL_MAX_APPLIES_PER_WINDOW/" ++
          "CLAWFORGE_FIREWALL_RATE_WINDOW_SECONDS)"))
      else .ok none
  else .ok none

/-! ## Dispatches -/

/-- The apply of one adapter. -/
inductive Apply
  | waiting
  /-- handed to the host -/
  | issued
  /-- took effect, as the `index`-th mutation -/
  | landed (index : Nat)
  | recorded
deriving DecidableEq, Repr

inductive Stage
  | claimed
  | applying
  | ended
deriving DecidableEq, Repr

structure Dispatch where
  actionName : String
  target : Option Json
  stage : Stage
  applies : List Apply
  /-- what the budget counted -/
  count : Nat
  /-- the mutations the count has not seen: not recorded then, or made since -/
  missed : List Instant
deriving DecidableEq

/-- A mutation by an adapter. -/
structure Applied where
  time : Instant
  recorded : Bool
deriving DecidableEq

structure World where
  now : Instant
  receipts : List Receipt
  dispatches : List Dispatch
  applied : List Applied

def Dispatch.end_ (d : Dispatch) : Dispatch := { d with stage := .ended }

def Dispatch.setApply (d : Dispatch) (k : Nat) (a : Apply) : Dispatch :=
  { d with applies := d.applies.set k a }

def Dispatch.miss (t : Instant) (d : Dispatch) : Dispatch := { d with missed := d.missed ++ [t] }

/-- The dispatch goes on to its adapters; only a real run mutates anything. -/
def Dispatch.admitted (cfg : Settings) (w : World) (d : Dispatch) : Dispatch :=
  { d with
    stage := .applying
    applies :=
      if firewallBudgetApplies d.actionName (dispatchDryRun cfg d.actionName d.target) then
        (adaptersTouchedBy cfg.multiAdapters d.actionName).map (fun _ => .waiting)
      else []
    count := recentRealApplies w.receipts w.now (rateWindowSeconds cfg)
    missed := (w.applied.filter (fun a => !a.recorded)).map Applied.time }

inductive Action
  | tick (now : Instant)
  | claim (actionName : String) (target : Option Json)
  | budget (i : Nat)
  /-- another check refuses, the dispatch returns, or its executor crashes -/
  | stop (i : Nat)
  | issue (i k : Nat)
  /-- what the host was handed takes effect, however late -/
  | land (i k : Nat)
  /-- the receipt of an apply, stamped by a transaction that began after it -/
  | record (i k : Nat) (createdAt : Instant)
  /-- any other receipt -/
  | receipt (r : Receipt)

def World.setDispatch (w : World) (i : Nat) (d : Dispatch) : World :=
  { w with dispatches := w.dispatches.set i d }

/-- The mutation in the apply `k` of `d`, and everyone who has read the budget misses it. -/
def World.land (w : World) (i k : Nat) (d : Dispatch) : World :=
  { w with
    dispatches := (w.dispatches.set i (d.setApply k (.landed w.applied.length))).map
      (Dispatch.miss w.now)
    applied := w.applied ++ [⟨w.now, false⟩] }

def World.record (w : World) (i k : Nat) (d : Dispatch) (index : Nat) (createdAt : Instant) :
    World :=
  { w with
    receipts := w.receipts ++ [⟨false, .apply, createdAt⟩]
    dispatches := w.dispatches.set i (d.setApply k .recorded)
    applied := w.applied.modify index (fun a => { a with recorded := true }) }

def exec (cfg : Settings) (w : World) : Action → Option World
  | .tick now => if w.now ≤ now then some { w with now := now } else none
  | .claim actionName target =>
    some { w with
      dispatches := w.dispatches ++ [⟨actionName, target, .claimed, [], 0, []⟩] }
  | .budget i =>
    match w.dispatches[i]? with
    | none => none
    | some d =>
      if d.stage = .claimed then
        match firewallMassBlockBudgetExceeded cfg w.receipts w.now d.actionName
            (dispatchDryRun cfg d.actionName d.target) with
        | .ok none => some (w.setDispatch i (d.admitted cfg w))
        | .ok (some _) | .error _ => some (w.setDispatch i d.end_)
      else none
  | .stop i => (w.dispatches[i]?).map (fun d => w.setDispatch i d.end_)
  | .issue i k =>
    match w.dispatches[i]? with
    | none => none
    | some d =>
      if d.stage = .applying ∧ d.applies[k]? = some .waiting then
        some (w.setDispatch i (d.setApply k .issued))
      else none
  | .land i k =>
    match w.dispatches[i]? with
    | none => none
    | some d => if d.applies[k]? = some .issued then some (w.land i k d) else none
  | .record i k createdAt =>
    match w.dispatches[i]? with
    | none => none
    | some d =>
      match d.applies[k]? with
      | some (.landed index) =>
        if d.stage = .applying ∧ createdAt ≤ w.now ∧
            (w.applied[index]?).any (fun a => a.time ≤ createdAt) = true then
          some (w.record i k d index createdAt)
        else none
      | _ => none
  | .receipt r => some { w with receipts := w.receipts ++ [r] }

/-- Nothing is under way; receipts are as earlier runs left them. -/
def Initial (w : World) : Prop := w.dispatches = [] ∧ w.applied = []

def budgetSystem (cfg : Settings) : TSys World Action := TSys.ofExec Initial (exec cfg)

end Clawforge.MassBlock

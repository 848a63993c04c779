import Clawforge.Executor.Calls
import Clawforge.Storage.QuarantineIntents

/-!
# The quarantine runtime

The three entry points of `quarantine_runtime.rs`: the prepared apply, the
recovery of one generation, which the sweep and the kill switch call, and the
operator's reconciliation. Each is a program that calls its host and its store.
Production dispatch keeps them behind `ensure_live_dispatch_disabled`; they are
modelled as they stand behind it.
-/

namespace Clawforge.Quarantine

open Clawforge.Text Clawforge.Firewall Kit
open RuleIntents (IntentStatus FirewallActionReceiptInput isControl)
open Executor (StoreFate)

/-! ## Contexts -/

inductive QuarantineKind
  | docker | proxmox | tailscale
deriving DecidableEq, Repr

namespace QuarantineKind

def fromActionName : String → Option QuarantineKind
  | "docker.quarantine_container" => some .docker
  | "proxmox.quarantine_vm" => some .proxmox
  | "tailscale.quarantine_device" => some .tailscale
  | _ => none

def fromReconcileActionName : String → Option QuarantineKind
  | "docker.reconcile_quarantine" => some .docker
  | "proxmox.reconcile_quarantine" => some .proxmox
  | _ => none

def quarantineActionName : QuarantineKind → String
  | .docker => "docker.quarantine_container"
  | .proxmox => "proxmox.quarantine_vm"
  | .tailscale => "tailscale.quarantine_device"

end QuarantineKind

inductive QuarantineIdentity
  | docker (containerId : String)
  | proxmox (node : String) (vmid : Nat)
  | tailscale (deviceId : String)
deriving DecidableEq, Repr

/-- The adapter and the fingerprint of an identity that can be restored. -/
def QuarantineIdentity.key : QuarantineIdentity → Option (String × String)
  | .docker containerId => some ("docker", containerId)
  | .proxmox node vmid => some ("proxmox", node ++ "/" ++ toString vmid)
  | .tailscale _ => none

structure QuarantineContext where
  target : QuarantineIdentity
  preflight : Option QuarantinePreflight
  ttlSeconds : Nat
  readyForLive : Bool

/-- `anyhow`'s `Option::context`. -/
def orError {α : Type} (x : Option α) (message : String) : Except String α :=
  x.elim (.error message) .ok

/-- `bounded_string`. -/
def boundedString (target : Json) (field : String) (limit : Nat) : Except String String := do
  let value ← orError ((target.get field).bind Json.asStr) ("quarantine target requires " ++ field)
  if trim value.toList = [] || value.utf8ByteSize > limit || value.toList.any isControl then
    .error ("invalid quarantine " ++ field)
  else .ok value

/-- `ttl_seconds`. -/
def ttlSeconds (target : Json) : Except String Nat :=
  match target.get "ttl_seconds" with
  | none => .ok 3600
  | some v =>
    match v.asU64 with
    | none => .error "quarantine ttl_seconds must be an integer"
    | some n =>
      if 60 ≤ n ∧ n ≤ 86400 then .ok n
      else .error "quarantine ttl_seconds must be between 60 and 86400"

/-- The operator's metadata, which a dry run does not ask for. -/
def operatorMetadata (target : Json) (dryRun : Bool) :
    Except String (String × String × String) :=
  if dryRun then .ok ("dry-run only", "dry-run only", "dry-run only")
  else do
    let owner ← boundedString target "data_owner" 256
    let restore ← boundedString target "snapshot_restore_reference" 2048
    let management ← boundedString target "management_network_plan" 2048
    return (owner, restore, management)

/-- The identity a target names, and its metadata checked. -/
def identify (kind : QuarantineKind) (target : Json) (owner restore management : String) :
    Except String (QuarantineIdentity × Option QuarantinePreflight) :=
  match kind with
  | .docker => do
      let id ← boundedString target "container_id" 64
      let metadata ← (QuarantinePreflight.newDocker id owner restore management).mapError
        PreflightError.text
      return (.docker id, some metadata)
  | .proxmox => do
      let node ← boundedString target "node" 63
      let vmid ← orError (((target.get "vmid").bind Json.asU64).filter (· < 2 ^ 32))
        "quarantine vmid must be a positive u32 integer"
      let metadata ← (QuarantinePreflight.newProxmox node vmid owner restore management).mapError
        PreflightError.text
      return (.proxmox node vmid, some metadata)
  | .tailscale => do
      let id ← boundedString target "device_id" 256
      if !id.toList.all (fun c => c.isAlphanum || c = '-' || c = '_') then
        .error "invalid canonical Tailscale device_id"
      else return (.tailscale id, none)

/-- `validate_context`. -/
def validateContext (actionName : String) (target : Json) (dryRun : Bool) :
    Except String QuarantineContext := do
  let kind ← orError (QuarantineKind.fromActionName actionName) "unrecognized quarantine action"
  if !target.isObject then .error "quarantine target must be an object"
  else
    let ttl ← ttlSeconds target
    let (owner, restore, management) ← operatorMetadata target dryRun
    let (identity, metadata) ← identify kind target owner restore management
    return { target := identity, preflight := if dryRun then none else metadata,
             ttlSeconds := ttl, readyForLive := false }

/-! ## Calls -/

/-- What a job calls: its host, the rows, and the guard it holds. -/
inductive QCall
  | host (c : HostCall)
  | prepare (args : PrepareArgs)
  | acquire (id : Uuid)
  | find (id : Uuid)
  | activeFor (adapter fingerprint : String)
  | clock
  | validateApproval
  | validateReconcile (execution : Uuid) (actionName : String) (target : Json)
  | setUpid (upid : String)
  | finish (input : FirewallActionReceiptInput)
  | recoveryRequired
  | resolveRollback
  | beginInflight (adapter : String)
  | endInflight (lease : Uuid)

abbrev QCall.Answer : QCall → Type
  | .host c => c.Answer
  | .prepare _ => Except String Uuid
  | .acquire _ | .find _ | .activeFor _ _ => Except String (Option QuarantineIntent)
  | .clock => Nat
  | .beginInflight _ => Except String (Option Uuid)
  | .validateApproval | .validateReconcile _ _ _ | .setUpid _ | .finish _ | .recoveryRequired
  | .resolveRollback | .endInflight _ => Except String Unit

/-- A part of a job that may fail. -/
abbrev Step (ε α : Type) := ExceptT ε (Prog QCall.Answer) α

/-- An adapter's method within a job. -/
def onHost {α : Type} : Prog HostCall.Answer α → Prog QCall.Answer α
  | .pure a => .pure a
  | .call c k => .call (.host c) fun answer => onHost (k answer)

def method {ε α : Type} (wrap : AdapterError → ε) (m : Method α) : Step ε α :=
  ExceptT.mk (Prog.bind (onHost m) fun r => .pure (r.mapError wrap))

/-- A part whose failure is a result. -/
def caught {ε α : Type} (x : Step ε α) : Step String (Except ε α) :=
  ExceptT.mk (Prog.bind x fun r => .pure (.ok r))

/-- The lease of the concurrency budget, under the caller's message for its failure. -/
def beginInflight (adapter message : String) : Step String (Option Uuid) :=
  ExceptT.mk (.call (.beginInflight adapter) fun r => .pure (r.mapError fun _ => message))

/-- The executor's clock, in seconds. -/
def clock : Step String Nat := ExceptT.mk (.call .clock fun t => .pure (.ok t))

namespace Store

def prepare (args : PrepareArgs) : Step String Uuid := ExceptT.mk (Prog.request (QCall.prepare args))

def acquire (id : Uuid) : Step String (Option QuarantineIntent) :=
  ExceptT.mk (Prog.request (QCall.acquire id))

def find (id : Uuid) : Step String (Option QuarantineIntent) :=
  ExceptT.mk (Prog.request (QCall.find id))

def activeFor (adapter fingerprint : String) : Step String (Option QuarantineIntent) :=
  ExceptT.mk (Prog.request (QCall.activeFor adapter fingerprint))

def validateApproval : Step String Unit := ExceptT.mk (Prog.request QCall.validateApproval)

def validateReconcile (execution : Uuid) (actionName : String) (target : Json) : Step String Unit :=
  ExceptT.mk (Prog.request (QCall.validateReconcile execution actionName target))

def finish (input : FirewallActionReceiptInput) : Step String Unit :=
  ExceptT.mk (Prog.request (QCall.finish input))

def recoveryRequired : Step String Unit := ExceptT.mk (Prog.request QCall.recoveryRequired)

def resolveRollback : Step String Unit := ExceptT.mk (Prog.request QCall.resolveRollback)

def endInflight (lease : Uuid) : Step String Unit :=
  ExceptT.mk (Prog.request (QCall.endInflight lease))

end Store

/-! ## Restoring -/

/-- The adapter and fingerprint of an identity, and the field its recorded state goes to. -/
def restoreField : QuarantineIdentity → Except String (String × String × String)
  | .docker containerId => .ok ("docker", containerId, "networks")
  | .proxmox node vmid => .ok ("proxmox", node ++ "/" ++ toString vmid, "original_net0")
  | .tailscale _ =>
    .error "Tailscale exact reversible snapshot and policy evidence require manual review"

/-- `restore_target`: the approved target with the recorded state. -/
def restoreTarget (i : QuarantineIntent) : Except String Json := do
  let context ← validateContext i.actionName i.targetJson true
  let (adapter, fingerprint, field) ← restoreField context.target
  if adapter ≠ i.adapter ∨ fingerprint ≠ i.targetFingerprint then
    .error "quarantine generation identity mismatch"
  else
    let snapshot ← orError (i.rollbackPlan.get field) "quarantine restore snapshot missing"
    match i.targetJson with
    | .object fields => return .object (Json.insertField field snapshot fields)
    | _ => .error "invalid quarantine target"

/-- `rollback_target`, of the two adapters a generation is restored through. -/
def rollbackTarget (adapter : String) (target : Json) : Step String Unit :=
  if adapter = "proxmox" then do
    let node ← orError ((target.get "node").bind Json.asStr)
      "proxmox target_json is missing node"
    let vmid ← orError ((target.get "vmid").bind Json.asU64)
      "proxmox target_json is missing vmid"
    if 2 ^ 32 ≤ vmid then throw "proxmox vmid out of range"
    else
      let original ← orError ((target.get "original_net0").bind Json.asStr)
        "original Proxmox NIC snapshot missing"
      method AdapterError.text (Proxmox.rollback (.proxmox node vmid) original)
  else if adapter = "docker" then do
    let containerId ← orError ((target.get "container_id").bind Json.asStr)
      "docker target_json is missing container_id"
    let snapshot ← orError (target.get "networks") "Docker rollback snapshot is missing"
    let networks ← orError (networksOf snapshot)
      "Docker rollback snapshot is invalid or legacy names-only; operator recovery required"
    method AdapterError.text (Docker.rollback (.docker containerId) networks)
  else throw ("unrecognized adapter " ++ debug adapter)

/-- Restores under a lease; a lease that cannot be returned is only logged. -/
def restoreLeased (adapter : String) (target : Json) (lease : Uuid) :
    Step String (Except String Unit) := do
  let result ← caught (rollbackTarget adapter target)
  let _ ← caught (Store.endInflight lease)
  return result

inductive RecoveryOutcome
  | restored | resolved | busy | manualReview
deriving DecidableEq, Repr

/-- `recover`, with the guard of a completed generation. -/
def recoverCompleted (i : QuarantineIntent) : Step String RecoveryOutcome :=
  match restoreTarget i with
  | .error _ => do
      Store.recoveryRequired
      return .manualReview
  | .ok target => do
      match ← beginInflight i.adapter "quarantine recovery concurrency lease unavailable" with
      | none => return .busy
      | some lease =>
        match ← restoreLeased i.adapter target lease with
        | .error _ =>
          Store.recoveryRequired
          return .manualReview
        | .ok _ =>
          Store.resolveRollback
          return .restored

/-- `recover`, with the guard. -/
def recoverGuarded (i : QuarantineIntent) : Step String RecoveryOutcome :=
  if i.status = .completed then recoverCompleted i
  else if i.status = .prepared then do
    Store.recoveryRequired
    return .manualReview
  else return .manualReview

def recover (id : Uuid) : Step String RecoveryOutcome := do
  match ← Store.acquire id with
  | some i => recoverGuarded i
  | none =>
    match ← Store.find id with
    | some i =>
      return if i.status = .rolledBack ∨ i.status = .notApplied then .resolved else .busy
    | none => throw "quarantine generation not found"

/-! ## Reconciling -/

structure ClaimedExecutionRequest where
  id : Uuid
  actionName : String
  target : Option Json
deriving DecidableEq

/-- `prove_remote_completion`. -/
def proveRemoteCompletion (cfg : QuarantineConfig) (i : QuarantineIntent) : Step String Unit := do
  let context ← validateContext i.actionName i.targetJson true
  match context.target with
  | .proxmox node vmid =>
    let upid ← orError i.proxmoxUpid
      "no recorded Proxmox task UPID; remote completion cannot be proven"
    match ← method AdapterError.text (Proxmox.taskStatus node vmid upid) with
    | .succeededOk | .failed => return ()
    | .running => throw "Proxmox config task still running; completion not yet decided"
  | .docker containerId =>
    let _ ← method AdapterError.text (Docker.preflight cfg (.docker containerId))
    return ()
  | .tailscale _ => throw "Tailscale reconciliation requires manual review"

/-- `reconcile`, once the guard is held and the request validated. -/
def reconcileGuarded (cfg : QuarantineConfig) (adapter : String) (i : QuarantineIntent) :
    Step String Unit := do
  proveRemoteCompletion cfg i
  let restore ← restoreTarget i
  match ← beginInflight adapter "reconcile concurrency lease unavailable" with
  | none => throw "reconcile concurrency lease busy"
  | some lease =>
    match ← restoreLeased adapter restore lease with
    | .error e => throw e
    | .ok _ => Store.resolveRollback

/-- The identity a reconciliation request names. -/
def reconcileIdentity (claimed : ClaimedExecutionRequest) :
    Except String (Json × String × String) := do
  let target ← orError claimed.target "reconcile target missing"
  let kind ← orError (QuarantineKind.fromReconcileActionName claimed.actionName)
    "unrecognized reconcile action"
  let context ← validateContext kind.quarantineActionName target false
  let (adapter, fingerprint) ← orError context.target.key
    "Tailscale reconciliation requires manual review"
  return (target, adapter, fingerprint)

def reconcile (cfg : QuarantineConfig) (claimed : ClaimedExecutionRequest) :
    Step String Unit := do
  let (target, adapter, fingerprint) ← reconcileIdentity claimed
  match ← Store.activeFor adapter fingerprint with
  | none => throw "no active quarantine generation for reconcile target"
  | some intent =>
    match ← Store.acquire intent.id with
    | none => throw "quarantine generation busy"
    | some i =>
      Store.validateReconcile claimed.id claimed.actionName target
      reconcileGuarded cfg adapter i

/-! ## Applying -/

/-- What an apply records before it changes anything. -/
structure Isolation where
  adapter : String
  fingerprint : String
  preflight : Json
  plan : Json
  target : QuarantineTarget

/-- The authoritative preflight of the target. -/
def inspectTarget (cfg : QuarantineConfig) : QuarantineIdentity → Step String Isolation
  | .docker containerId => do
      let pf ← method AdapterError.text (Docker.preflight cfg (.docker containerId))
      if pf.isProtected || pf.currentlyQuarantined || pf.networks.isEmpty then
        throw "Docker preflight refused"
      else
        return {
          adapter := "docker"
          fingerprint := containerId
          preflight := Json.ofFields
            [("container_id", .string pf.containerId), ("networks", networksJson pf.networks),
              ("protected", .bool false), ("currently_quarantined", .bool false)]
          plan := Json.ofFields [("networks", networksJson pf.networks)]
          target := .docker containerId }
  | .proxmox node vmid => do
      let pf ← method AdapterError.text (Proxmox.preflight cfg (.proxmox node vmid))
      if pf.isProtected || pf.currentlyQuarantined then throw "Proxmox preflight refused"
      else
        return {
          adapter := "proxmox"
          fingerprint := node ++ "/" ++ toString vmid
          preflight := Json.ofFields
            [("node", .string pf.node), ("vmid", .number (.int pf.vmid)),
              ("net0", .string pf.net0), ("protected", .bool false),
              ("currently_quarantined", .bool false)]
          plan := Json.ofFields [("original_net0", .string pf.net0)]
          target := .proxmox node vmid }
  | .tailscale _ => throw "Tailscale reversible snapshot and policy proof unavailable"

/-- A part of the mutation, whose error nothing reads. -/
def unread {α : Type} (m : Method α) : Step Unit α := method (fun _ => ()) m

/-- The task of the mutation, recorded before it is verified. -/
def recordUpid (upid : String) : Step Unit Unit :=
  if upid ≠ "" then ExceptT.mk (.call (.setUpid upid) fun r => .pure (r.mapError fun _ => ()))
  else return ()

/-- Mutates, records the task, and verifies. -/
def isolate (cfg : QuarantineConfig) (iso : Isolation) : Step Unit Json :=
  if iso.adapter = "docker" then
    match (iso.plan.get "networks").bind networksOf with
    | none => throw ()
    | some networks => do
        let applied ← unread (Docker.applyPrepared cfg iso.target networks)
        let verification ← unread (Docker.verify iso.target)
        if verification ≠ .verified then throw ()
        else return Json.ofFields [("disconnected_networks", networksJson applied)]
  else
    match (iso.plan.get "original_net0").bind Json.asStr with
    | none => throw ()
    | some original => do
        let (_, upid) ← unread (Proxmox.applyPrepared cfg iso.target original)
        recordUpid upid
        let verification ← unread (Proxmox.verify iso.target)
        if verification ≠ .verified then throw ()
        else return Json.ofFields [("isolated", .bool true)]

/-- The receipt `apply_prepared` commits. -/
def applyReceipt (claimed : ClaimedExecutionRequest) (target : Json) (ttl : Nat)
    (iso : Isolation) (observed : Json) : FirewallActionReceiptInput where
  executionId := some claimed.id
  adapter := iso.adapter
  actionName := claimed.actionName
  preflightState := iso.preflight
  renderedCommands := .array []
  observedState := some observed
  verificationResult := some .verified
  ttlSeconds := ttl
  rollbackPlan := iso.plan
  isDryRun := false
  receiptKind := .apply
  targetFingerprint := some iso.fingerprint
  targetJson := some target

/-- The mutation under the guard, and its commit. -/
def mutate (cfg : QuarantineConfig) (claimed : ClaimedExecutionRequest) (target : Json) (ttl : Nat)
    (iso : Isolation) : Step String Unit := do
  match ← caught (isolate cfg iso) with
  | .ok observed => Store.finish (applyReceipt claimed target ttl iso observed)
  | .error _ =>
    Store.recoveryRequired
    throw "quarantine mutation or verification uncertain; recovery required"

/-- `apply_prepared`. -/
def applyPrepared (cfg : QuarantineConfig) (claimed : ClaimedExecutionRequest) :
    Step String Unit := do
  let target ← orError claimed.target "quarantine target missing"
  let context ← validateContext claimed.actionName target false
  let iso ← inspectTarget cfg context.target
  let id ← Store.prepare
    { executionId := claimed.id, adapter := iso.adapter, targetFingerprint := iso.fingerprint,
      targetJson := target, preflightState := iso.preflight, rollbackPlan := iso.plan,
      ttlSeconds := context.ttlSeconds }
  match ← Store.acquire id with
  | none => throw "prepared generation busy"
  | some i =>
    if i.status ≠ .prepared then
      throw "prepared generation was already assigned to recovery; mutation refused"
    else
      let now ← clock
      if i.expiresAt / 1000000 ≤ now then
        throw "prepared generation expired before mutation; recovery required"
      else
        Store.validateApproval
        mutate cfg claimed target context.ttlSeconds iso

/-! ## Jobs -/

inductive Job
  | apply (claimed : ClaimedExecutionRequest)
  | recover (id : Uuid)
  | reconcile (claimed : ClaimedExecutionRequest)
deriving DecidableEq

/-- A job's program; its result is only logged. -/
def Job.program (cfg : QuarantineConfig) : Job → Prog QCall.Answer Unit
  | .apply claimed => Prog.bind (applyPrepared cfg claimed) fun _ => .pure ()
  | .recover id => Prog.bind (Quarantine.recover id) fun _ => .pure ()
  | .reconcile claimed => Prog.bind (Quarantine.reconcile cfg claimed) fun _ => .pure ()

end Clawforge.Quarantine

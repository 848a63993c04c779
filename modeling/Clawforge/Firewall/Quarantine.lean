import Clawforge.Firewall.Adapter
import Clawforge.Kit.Fallible
import Clawforge.Storage.RuleIntents

/-!
# Quarantine adapters

The Docker and Proxmox quarantine adapters as programs that call their host. A
container is isolated by disconnecting it from its networks and restored by
connecting it to the recorded ones; a virtual machine by `link_down=1` on its
only NIC and restored by writing the recorded NIC back. The host's answers are
read as the adapters parse them: an inspection is its list of attachments, a
configuration its NIC and digest, and the login that precedes each Proxmox
request is part of the request.
-/

namespace Clawforge.Quarantine

open Clawforge.Text Clawforge.Firewall Kit List
open Prog (uses_except_bind guided_lift_bind guided_except_bind guided_trivial)
open Clawforge.RuleIntents (isControl)

/-! ## Targets -/

inductive PreflightError
  | blank (field : String)
  | tooLong (field : String) (limit : Nat)
  | controlCharacter (field : String)
  | invalidContainerId
  | invalidNode
  | invalidVmid
deriving DecidableEq, Repr

def PreflightError.text : PreflightError → String
  | .blank field => field ++ " must not be blank"
  | .tooLong field limit => field ++ " exceeds the " ++ toString limit ++ "-byte limit"
  | .controlCharacter field => field ++ " contains a control character"
  | .invalidContainerId => "Docker target must be a full canonical container ID"
  | .invalidNode => "Proxmox node must be an ASCII hostname label"
  | .invalidVmid => "Proxmox VM ID must be positive"

/-- A digit or `a`–`f`. -/
def isLowerHex (c : Char) : Bool := c.isDigit || ('a' ≤ c && c ≤ 'f')

/-- `validate_container_id`. -/
def validateContainerId (containerId : String) : Except PreflightError Unit :=
  if containerId.utf8ByteSize ≠ 64 || !containerId.toList.all isLowerHex then
    .error .invalidContainerId
  else .ok ()

/-- `validate_node`. -/
def validateNode (node : String) : Except PreflightError Unit :=
  if node = "" || node.utf8ByteSize > 63 ||
      !node.toList.all (fun c => c.isAlphanum || c = '-') ||
      !node.toList.head?.any Char.isAlphanum || !node.toList.getLast?.any Char.isAlphanum then
    .error .invalidNode
  else .ok ()

/-- `validate_metadata`. -/
def validateMetadata (value field : String) (limit : Nat) : Except PreflightError Unit :=
  if trim value.toList = [] then .error (.blank field)
  else if value.utf8ByteSize > limit then .error (.tooLong field limit)
  else if value.toList.any isControl then .error (.controlCharacter field)
  else .ok ()

inductive QuarantineTarget
  | docker (containerId : String)
  | proxmox (node : String) (vmid : Nat)
deriving DecidableEq, Repr

/-- `QuarantineTarget::validate`. -/
def QuarantineTarget.validate : QuarantineTarget → Except PreflightError Unit
  | .docker containerId => validateContainerId containerId
  | .proxmox node vmid => do
      validateNode node
      if vmid = 0 then .error .invalidVmid else .ok ()

def isProtected (target : QuarantineTarget) (entries : List QuarantineTarget) : Bool :=
  entries.contains target

structure QuarantinePreflight where
  target : QuarantineTarget
  dataOwner : String
  snapshotRestoreReference : String
  managementNetworkPlan : String
deriving DecidableEq

/-- `QuarantinePreflight::from_target`, of a target that was validated. -/
def QuarantinePreflight.fromTarget (target : QuarantineTarget)
    (dataOwner snapshotRestoreReference managementNetworkPlan : String) :
    Except PreflightError QuarantinePreflight := do
  validateMetadata dataOwner "data_owner" 256
  validateMetadata snapshotRestoreReference "snapshot_restore_reference" 2048
  validateMetadata managementNetworkPlan "management_network_plan" 2048
  return { target, dataOwner, snapshotRestoreReference, managementNetworkPlan }

def QuarantinePreflight.newDocker (containerId dataOwner snapshotRestoreReference
    managementNetworkPlan : String) : Except PreflightError QuarantinePreflight := do
  validateContainerId containerId
  fromTarget (.docker containerId) dataOwner snapshotRestoreReference managementNetworkPlan

def QuarantinePreflight.newProxmox (node : String) (vmid : Nat) (dataOwner
    snapshotRestoreReference managementNetworkPlan : String) :
    Except PreflightError QuarantinePreflight := do
  validateNode node
  if vmid = 0 then .error .invalidVmid
  else fromTarget (.proxmox node vmid) dataOwner snapshotRestoreReference managementNetworkPlan

/-! ## Network attachments -/

structure NetworkAttachment where
  name : String
  networkId : String
  aliases : List String
  ipv4 : Option String
  ipv6 : Option String
  links : List String
  linkLocalIps : List String
  /-- a sorted map -/
  driverOpts : List (String × String)
  gatewayPriority : Int
deriving DecidableEq

namespace NetworkAttachment

/-- What `validate` asks of the names it passes on. -/
def tokenOk (v : String) : Bool :=
  v ≠ "" && v.utf8ByteSize ≤ 256 && !v.toList.any isControl

def validate (n : NetworkAttachment) : Except AdapterError Unit :=
  if n.networkId.utf8ByteSize ≠ 64 || !n.networkId.toList.all (isDigitOf 16) ||
      n.aliases.length > 32 || n.links.length > 32 || n.linkLocalIps.length > 16 ||
      !(n.name :: n.aliases ++ n.links).all tokenOk then
    .error (.invalidTarget "invalid network restoration metadata")
  else if (n.ipv4.toList ++ n.ipv6.toList ++ n.linkLocalIps).any
      (fun ip => (Net.parseIpAddr ip.toList).isNone) then
    .error (.invalidTarget "invalid restoration IP address")
  else if n.driverOpts.any (fun opt => opt.1 ≠ "com.docker.network.endpoint.sysctls" ||
      opt.2.utf8ByteSize > 2048 || opt.2.toList.any isControl) then
    .error (.invalidTarget "unsupported network driver options; refusing lossy restoration")
  else .ok ()

/-- `["--flag", value]` for every value. -/
def flagged (flag : String) (values : List String) : List String :=
  values.flatMap fun value => [flag, value]

/-- `connect_args`. -/
def connectArgs (n : NetworkAttachment) (id : String) : Except AdapterError (List String) := do
  n.validate
  return ["network", "connect"] ++ flagged "--alias" n.aliases ++ flagged "--link" n.links ++
    flagged "--link-local-ip" n.linkLocalIps ++ flagged "--ip" n.ipv4.toList ++
    flagged "--ip6" n.ipv6.toList ++
    flagged "--driver-opt" (n.driverOpts.map fun opt => opt.1 ++ "=" ++ opt.2) ++
    (if n.gatewayPriority ≠ 0 then ["--gw-priority", toString n.gatewayPriority] else []) ++
    [n.networkId, id]

/-- `restored_by`. -/
def restoredBy (n current : NetworkAttachment) : Bool :=
  n.networkId = current.networkId && n.ipv4 = current.ipv4 && n.ipv6 = current.ipv6 &&
    n.aliases.all current.aliases.contains && n.links = current.links &&
    n.linkLocalIps = current.linkLocalIps && n.driverOpts = current.driverOpts &&
    n.gatewayPriority = current.gatewayPriority

/-! ## As JSON -/

def optionJson : Option String → Json
  | none => .null
  | some s => .string s

/-- `Serialize`. -/
def toJson (n : NetworkAttachment) : Json :=
  Json.ofFields
    [("name", .string n.name), ("network_id", .string n.networkId),
      ("aliases", .array (n.aliases.map .string)), ("ipv4", optionJson n.ipv4),
      ("ipv6", optionJson n.ipv6), ("links", .array (n.links.map .string)),
      ("link_local_ips", .array (n.linkLocalIps.map .string)),
      ("driver_opts", .object (n.driverOpts.map fun opt => (opt.1, .string opt.2))),
      ("gateway_priority", .number (.int n.gatewayPriority))]

/-- The fields in declaration order, which a sequence lists them in. -/
def fieldNames : List String :=
  ["name", "network_id", "aliases", "ipv4", "ipv6", "links", "link_local_ips", "driver_opts",
    "gateway_priority"]

/-- The fields of a `Deserialize` input: a map, or a sequence of exactly the fields. -/
def fieldsOf : Json → Option (String → Option Json)
  | .object fields => some fun key => fields.lookup key
  | .array xs =>
    if xs.length = fieldNames.length then some fun key => (fieldNames.zip xs).lookup key
    else none
  | _ => none

def stringsOf (v : Json) : Option (List String) :=
  v.asArray.bind fun xs => xs.mapM Json.asStr

/-- An `Option<String>` field, which may be missing. -/
def optionOf : Option Json → Option (Option String)
  | none | some .null => some none
  | some v => v.asStr.map some

def optionsOf : Json → Option (List (String × String))
  | .object fields => fields.mapM fun f => f.2.asStr.map fun v => (f.1, v)
  | _ => none

def i64Of : Json → Option Int
  | .number (.int n) => if -2 ^ 63 ≤ n ∧ n < 2 ^ 63 then some n else none
  | _ => none

/-- `Deserialize`. -/
def fromJson (v : Json) : Option NetworkAttachment := do
  let field ← fieldsOf v
  let name ← (← field "name").asStr
  let networkId ← (← field "network_id").asStr
  let aliases ← stringsOf (← field "aliases")
  let ipv4 ← optionOf (field "ipv4")
  let ipv6 ← optionOf (field "ipv6")
  let links ← stringsOf (← field "links")
  let linkLocalIps ← stringsOf (← field "link_local_ips")
  let driverOpts ← optionsOf (← field "driver_opts")
  let gatewayPriority ← i64Of (← field "gateway_priority")
  some { name := name, networkId := networkId, aliases := aliases, ipv4 := ipv4, ipv6 := ipv6,
         links := links, linkLocalIps := linkLocalIps, driverOpts := driverOpts,
         gatewayPriority := gatewayPriority }

end NetworkAttachment

def networksJson (networks : List NetworkAttachment) : Json :=
  .array (networks.map NetworkAttachment.toJson)

/-- `serde_json::from_value::<Vec<NetworkAttachment>>`. -/
def networksOf (v : Json) : Option (List NetworkAttachment) :=
  v.asArray.bind fun xs => xs.mapM NetworkAttachment.fromJson

/-! ## The NIC -/

def linkDownFlag : List Char := "link_down=".toList

/-- `strip_link_down`. -/
def stripLinkDown (net0 : String) : List Char :=
  List.intercalate [',']
    ((trimmedPieces ',' net0.toList).filter fun token => !linkDownFlag.isPrefixOf token)

/-- `net0_is_quarantined`. -/
def net0IsQuarantined (net0 : String) : Bool :=
  ((net0.toList.splitOn ',').map trim).contains "link_down=1".toList

/-- `quarantine_net0`. -/
def quarantineNet0 (net0 : String) : String :=
  String.ofList (stripLinkDown net0 ++ ",link_down=1".toList)

/-- The isolated form is isolated. -/
theorem net0IsQuarantined_quarantineNet0 (net0 : String) :
    net0IsQuarantined (quarantineNet0 net0) = true := by
  have hsplit : ((quarantineNet0 net0).toList.splitOn ',') =
      (stripLinkDown net0).splitOn ',' ++ "link_down=1".toList.splitOn ',' := by
    rw [quarantineNet0, String.toList_ofList]
    exact splitOnP_append_cons _ _ (by decide)
  have hlast : (("link_down=1".toList.splitOn ',').map trim) = ["link_down=1".toList] := by
    decide_cbv
  rw [net0IsQuarantined, hsplit, map_append, hlast, contains_iff_mem]
  exact mem_concat_self

structure NicState where
  net0 : String
  digest : String
deriving DecidableEq

inductive ProxmoxTaskCompletion
  | succeededOk | failed | running
deriving DecidableEq, Repr

/-- `validate_qmconfig_upid`. -/
def validateQmconfigUpid (node : String) (vmid : Nat) (upid : String) :
    Except AdapterError Unit :=
  let parts := (upid.toList.splitOn ':').map String.ofList
  let part := fun i => parts.getD i ""
  if upid.utf8ByteSize > 1024 || parts.length ≠ 9 || part 0 ≠ "UPID" || part 1 ≠ node ||
      part 5 ≠ "qmconfig" || part 6 ≠ toString vmid || part 7 = "" || part 8 ≠ "" ||
      [part 2, part 3, part 4].any (fun p => p = "" || !p.toList.all (isDigitOf 16)) ||
      upid.toList.any (fun c => !(c.isAlphanum || "_:@.!+-".toList.contains c)) then
    .error (.apply "invalid Proxmox config task ID")
  else .ok ()

/-- Only the isolated configuration may be restored; the recorded one is restored already. -/
def rollbackNeeded (current original : String) : Except AdapterError Bool :=
  if current = original then .ok false
  else if current ≠ quarantineNet0 original then
    .error (.rollback
      "VM NIC changed after quarantine; refusing to overwrite operator configuration")
  else .ok true

/-! ## The host -/

inductive HostCall
  /-- `docker inspect`, parsed -/
  | inspect (containerId : String)
  | disconnect (networkId containerId : String)
  /-- `docker` with the arguments of `connect_args` -/
  | connect (args : List String)
  | readNet0 (node : String) (vmid : Nat)
  /-- the POST of `write_net0`, answered with the task it started -/
  | postConfig (node : String) (vmid : Nat) (net0 digest : String)
  /-- polls the task until it has stopped or the time is up -/
  | waitForConfigTask (node : String) (vmid : Nat) (upid : String)
  | taskStatus (node : String) (vmid : Nat) (upid : String)
deriving DecidableEq

abbrev HostCall.Result : HostCall → Type
  | .inspect _ => List NetworkAttachment
  | .readNet0 _ _ => NicState
  | .postConfig _ _ _ _ => String
  | .taskStatus _ _ _ => ProxmoxTaskCompletion
  | .disconnect _ _ | .connect _ | .waitForConfigTask _ _ _ => Unit

abbrev HostCall.Answer (c : HostCall) : Type := Except AdapterError c.Result

/-- The calls that change the host. -/
def HostCall.mutates : HostCall → Bool
  | .disconnect _ _ | .connect _ | .postConfig _ _ _ _ => true
  | .inspect _ | .readNet0 _ _ | .waitForConfigTask _ _ _ | .taskStatus _ _ _ => false

/-- The calls that undo an isolation: connecting a network, and writing a NIC that is not
isolated. -/
def HostCall.restores : HostCall → Bool
  | .connect _ => true
  | .postConfig _ _ net0 _ => !net0IsQuarantined net0
  | _ => false

/-- An adapter's method. -/
abbrev Method (α : Type) := ExceptT AdapterError (Prog HostCall.Answer) α

def ask (c : HostCall) : Method c.Result := ExceptT.mk (Prog.request c)

/-- A call whose failure is only noted. -/
def attempt (c : HostCall) : Method c.Answer := ExceptT.mk (.call c fun answer => .pure (.ok answer))

/-- The protection lists, as the environment has them. -/
structure QuarantineConfig where
  dockerNeverQuarantine : Except String (List QuarantineTarget)
  proxmoxNeverQuarantine : Except String (List QuarantineTarget)

/-- `protection_list`. -/
def protectionList (entries : Except String (List QuarantineTarget)) :
    Except AdapterError (List QuarantineTarget) :=
  entries.mapError .invalidTarget

/-- `target.validate()` under either adapter's error. -/
def canonical (target : QuarantineTarget) : Except AdapterError Unit :=
  target.validate.mapError fun _ => .invalidTarget "invalid canonical quarantine target"

/-! ## Docker -/

namespace Docker

structure DockerPreflight where
  containerId : String
  networks : List NetworkAttachment
  currentlyQuarantined : Bool
  isProtected : Bool

/-- `DockerAdapter::container_id`. -/
def containerId (target : QuarantineTarget) : Except AdapterError String := do
  canonical target
  match target with
  | .docker id => .ok id
  | .proxmox _ _ =>
    .error (.invalidTarget "the docker adapter requires a Docker target, not a Proxmox one")

def preflight (cfg : QuarantineConfig) (target : QuarantineTarget) : Method DockerPreflight := do
  let id ← containerId target
  let entries ← protectionList cfg.dockerNeverQuarantine
  let networks ← ask (.inspect id)
  return { containerId := id, networks, currentlyQuarantined := networks.isEmpty,
           isProtected := Quarantine.isProtected target entries }

/-- Connects what `current` does not show; whether something could not be restored. -/
def reconnect (id : String) (current : List NetworkAttachment) :
    List NetworkAttachment → (failed : Bool) → Method Bool
  | [], failed => return failed
  | network :: rest, failed => do
      network.validate
      match current.find? (fun v => v.networkId = network.networkId) with
      | some existing => reconnect id current rest (failed || !network.restoredBy existing)
      | none =>
        let args ← network.connectArgs id
        let answer ← attempt (.connect args)
        reconnect id current rest (failed || !answer.isOk)

def rollback (target : QuarantineTarget) (networks : List NetworkAttachment) : Method Unit := do
  let id ← containerId target
  if networks = [] then throw (.rollback "missing original network snapshot")
  else
    let current ← ask (.inspect id)
    let failed ← reconnect id current networks false
    let restored ← ask (.inspect id)
    if failed || !networks.all (fun old => restored.any old.restoredBy) then
      throw (.rollback "original network configuration not fully restored")
    else return ()

/-- After a failed disconnect: connects the networks again and fails with its error. -/
def compensate (target : QuarantineTarget) (networks : List NetworkAttachment)
    (error : AdapterError) : Method Unit :=
  ExceptT.mk (Prog.bind (rollback target networks) fun
    | .ok _ => .pure (.error error)
    | .error _ => .pure (.error
        (.rollback "partial isolation needs recovery; compensating reconnect failed")))

/-- Disconnects the networks in turn. -/
def disconnectAll (target : QuarantineTarget) (id : String) (networks : List NetworkAttachment) :
    List NetworkAttachment → Method Unit
  | [] => return ()
  | network :: rest => do
      let answer ← attempt (.disconnect network.networkId id)
      match answer with
      | .ok _ => disconnectAll target id networks rest
      | .error error => compensate target networks error

/-- `apply_checked` with the snapshot it must find, as `apply_prepared` calls it. -/
def applyPrepared (cfg : QuarantineConfig) (target : QuarantineTarget)
    (expected : List NetworkAttachment) : Method (List NetworkAttachment) := do
  let id ← containerId target
  let entries ← protectionList cfg.dockerNeverQuarantine
  if entries = [] then
    throw (.invalidTarget "CLAWFORGE_DOCKER_NEVER_QUARANTINE must protect the management path before real quarantine")
  else if Quarantine.isProtected target entries then
    throw (.invalidTarget ("docker container " ++ id ++ " is on the never-quarantine protection list (CLAWFORGE_DOCKER_NEVER_QUARANTINE); refusing to quarantine"))
  else
    let networks ← ask (.inspect id)
    if expected ≠ networks then
      throw (.apply "Docker network snapshot changed before isolation")
    else if networks = [] then
      throw (.apply "container was already isolated; refusing an unowned rollback")
    else
      disconnectAll target id networks networks
      return networks

/-- `apply_checked`: the snapshot it must find is optional, and a dry run lists the networks. -/
def applyChecked (cfg : QuarantineConfig) (target : QuarantineTarget) (dryRun : Bool)
    (expected : Option (List NetworkAttachment)) : Method (List NetworkAttachment) := do
  let id ← containerId target
  let entries ← protectionList cfg.dockerNeverQuarantine
  if dryRun = false ∧ entries = [] then
    throw (.invalidTarget "CLAWFORGE_DOCKER_NEVER_QUARANTINE must protect the management path before real quarantine")
  else if Quarantine.isProtected target entries then
    throw (.invalidTarget ("docker container " ++ id ++ " is on the never-quarantine protection list (CLAWFORGE_DOCKER_NEVER_QUARANTINE); refusing to quarantine"))
  else
    let networks ← ask (.inspect id)
    if ∃ snapshot ∈ expected, snapshot ≠ networks then
      throw (.apply "Docker network snapshot changed before isolation")
    else if dryRun then return networks
    else if networks = [] then
      throw (.apply "container was already isolated; refusing an unowned rollback")
    else
      disconnectAll target id networks networks
      return networks

def verify (target : QuarantineTarget) : Method VerificationResult := do
  let id ← containerId target
  let networks ← ask (.inspect id)
  return if networks = [] then .verified else .notPresent

end Docker

/-! ## Proxmox -/

namespace Proxmox

structure ProxmoxPreflight where
  node : String
  vmid : Nat
  net0 : String
  currentlyQuarantined : Bool
  isProtected : Bool

structure ProxmoxApplied where
  summary : String
  originalNet0 : String

/-- `ProxmoxAdapter::node_vmid`. -/
def nodeVmid (target : QuarantineTarget) : Except AdapterError (String × Nat) := do
  canonical target
  match target with
  | .proxmox node vmid => .ok (node, vmid)
  | .docker _ =>
    .error (.invalidTarget "the proxmox adapter requires a Proxmox target, not a Docker one")

/-- `write_net0`: the change is accepted with a task, which is waited for. -/
def writeNet0 (node : String) (vmid : Nat) (value digest : String) : Method String := do
  let upid ← ask (.postConfig node vmid value digest)
  validateQmconfigUpid node vmid upid
  ask (.waitForConfigTask node vmid upid)
  return upid

/-- `task_status`. -/
def taskStatus (node : String) (vmid : Nat) (upid : String) : Method ProxmoxTaskCompletion := do
  validateQmconfigUpid node vmid upid
  ask (.taskStatus node vmid upid)

def preflight (cfg : QuarantineConfig) (target : QuarantineTarget) : Method ProxmoxPreflight := do
  let (node, vmid) ← nodeVmid target
  let entries ← protectionList cfg.proxmoxNeverQuarantine
  let nic ← ask (.readNet0 node vmid)
  return { node, vmid, net0 := nic.net0, currentlyQuarantined := net0IsQuarantined nic.net0,
           isProtected := Quarantine.isProtected target entries }

/-- `apply_checked` with the NIC it must find, as `apply_prepared` calls it. -/
def applyPrepared (cfg : QuarantineConfig) (target : QuarantineTarget) (originalNet0 : String) :
    Method (ProxmoxApplied × String) := do
  let (node, vmid) ← nodeVmid target
  let entries ← protectionList cfg.proxmoxNeverQuarantine
  if entries = [] then
    throw (.invalidTarget "CLAWFORGE_PROXMOX_NEVER_QUARANTINE must protect the management path before real quarantine")
  else if Quarantine.isProtected target entries then
    throw (.invalidTarget ("proxmox target " ++ node ++ "/" ++ toString vmid ++ " is on the never-quarantine protection list (CLAWFORGE_PROXMOX_NEVER_QUARANTINE); refusing to quarantine"))
  else
    let current ← ask (.readNet0 node vmid)
    if originalNet0 ≠ current.net0 then
      throw (.apply "Proxmox NIC snapshot changed before isolation")
    else if net0IsQuarantined current.net0 then
      throw (.apply "VM NIC was already isolated; refusing an unowned rollback")
    else
      let upid ← writeNet0 node vmid (quarantineNet0 current.net0) current.digest
      return ({ summary := "proxmox quarantine " ++ node ++ "/" ++ toString vmid ++ " dry_run=false"
                originalNet0 := current.net0 }, upid)

def verify (target : QuarantineTarget) : Method VerificationResult := do
  let (node, vmid) ← nodeVmid target
  let nic ← ask (.readNet0 node vmid)
  return if net0IsQuarantined nic.net0 then .verified else .notPresent

/-- A NIC that may be written back. -/
def originalOk (originalNet0 : String) : Bool :=
  originalNet0 ≠ "" && originalNet0.utf8ByteSize ≤ 4096 &&
    !originalNet0.toList.any isControl && !net0IsQuarantined originalNet0

def rollback (target : QuarantineTarget) (originalNet0 : String) : Method Unit := do
  let (node, vmid) ← nodeVmid target
  if !originalOk originalNet0 then throw (.rollback "invalid original NIC snapshot")
  else
    let current ← ask (.readNet0 node vmid)
    if !(← rollbackNeeded current.net0 originalNet0) then return ()
    else
      let _ ← writeNet0 node vmid originalNet0 current.digest
      let restored ← ask (.readNet0 node vmid)
      if restored.net0 ≠ originalNet0 then
        throw (.rollback "VM NIC readback did not confirm exact original configuration")
      else return ()

end Proxmox

/-! ## What the methods call -/

/-- The calls that connect one of the networks again, and those that change nothing. -/
def Connects (id : String) (networks : List NetworkAttachment) : HostCall → Prop
  | .connect args => ∃ network ∈ networks, network.connectArgs id = .ok args
  | c => c.mutates = false

/-- The calls that write this NIC, and those that change nothing. -/
def Writes (node : String) (vmid : Nat) (net0 : String) : HostCall → Prop
  | .postConfig node' vmid' net0' _ => node' = node ∧ vmid' = vmid ∧ net0' = net0
  | c => c.mutates = false

/-- The calls that change nothing. -/
def Reads (c : HostCall) : Prop := c.mutates = false

theorem uses_lift_bind {α β : Type} {P : HostCall → Prop} {x : Except AdapterError α}
    {f : α → Method β} (hf : ∀ a, x = .ok a → Prog.Uses P (f a)) :
    Prog.Uses P ((liftM x : Method α) >>= f : Method β) := by
  rw [Prog.except_bind_eq]
  cases x with
  | ok a => exact hf a rfl
  | error e => exact trivial

theorem Docker.containerId_ok {id id' : String} (h : Docker.containerId (.docker id) = .ok id') :
    id' = id := by
  obtain ⟨_, -, h⟩ := bind_ok h
  exact (Except.ok.inj h).symm

theorem Proxmox.nodeVmid_ok {node : String} {vmid : Nat} {p : String × Nat}
    (h : Proxmox.nodeVmid (.proxmox node vmid) = .ok p) : p = (node, vmid) := by
  obtain ⟨_, -, h⟩ := bind_ok h
  exact (Except.ok.inj h).symm

theorem Docker.reconnect_uses {id : String} {current all : List NetworkAttachment} :
    ∀ {networks : List NetworkAttachment} {failed : Bool}, networks ⊆ all →
      Prog.Uses (Connects id all) (Docker.reconnect id current networks failed) := by
  intro networks
  induction networks with
  | nil => exact fun _ => trivial
  | cons network rest ih =>
    intro failed hsub
    have hrest : rest ⊆ all := fun n hn => hsub (mem_cons_of_mem _ hn)
    refine uses_lift_bind fun _ _ => ?_
    split
    · exact ih hrest
    · refine uses_lift_bind fun args hargs => ?_
      exact ⟨⟨network, hsub mem_cons_self, hargs⟩, fun answer => ih hrest⟩

theorem Docker.rollback_uses (id : String) (networks : List NetworkAttachment) :
    Prog.Uses (Connects id networks) (Docker.rollback (.docker id) networks) := by
  refine uses_lift_bind fun id' hid => ?_
  obtain rfl := Docker.containerId_ok hid
  split
  · exact trivial
  · refine uses_except_bind ⟨rfl, fun _ => trivial⟩ fun current => ?_
    refine uses_except_bind (Docker.reconnect_uses fun n hn => hn) fun failed => ?_
    refine uses_except_bind ⟨rfl, fun _ => trivial⟩ fun restored => ?_
    split <;> exact trivial

theorem Docker.preflight_uses (cfg : QuarantineConfig) (target : QuarantineTarget) :
    Prog.Uses Reads (Docker.preflight cfg target) := by
  refine uses_lift_bind fun id _ => uses_lift_bind fun entries _ => ?_
  exact uses_except_bind ⟨rfl, fun _ => trivial⟩ fun _ => trivial

theorem Docker.verify_uses (target : QuarantineTarget) :
    Prog.Uses Reads (Docker.verify target) := by
  refine uses_lift_bind fun id _ => ?_
  exact uses_except_bind ⟨rfl, fun _ => trivial⟩ fun _ => trivial

theorem Proxmox.writeNet0_uses (node : String) (vmid : Nat) (value digest : String) :
    Prog.Uses (Writes node vmid value) (Proxmox.writeNet0 node vmid value digest) := by
  refine uses_except_bind ⟨⟨rfl, rfl, rfl⟩, fun _ => trivial⟩ fun upid => ?_
  refine uses_lift_bind fun _ _ => ?_
  exact uses_except_bind ⟨rfl, fun _ => trivial⟩ fun _ => trivial

theorem Proxmox.rollback_uses (node : String) (vmid : Nat) (original : String) :
    Prog.Uses (Writes node vmid original) (Proxmox.rollback (.proxmox node vmid) original) := by
  refine uses_lift_bind fun p hp => ?_
  obtain rfl := Proxmox.nodeVmid_ok hp
  dsimp only
  split
  · exact trivial
  · refine uses_except_bind ⟨rfl, fun _ => trivial⟩ fun current => ?_
    refine uses_lift_bind fun needed _ => ?_
    split
    · exact trivial
    · refine uses_except_bind (Proxmox.writeNet0_uses _ _ _ _) fun _ => ?_
      refine uses_except_bind ⟨rfl, fun _ => trivial⟩ fun restored => ?_
      split <;> exact trivial

theorem Proxmox.preflight_uses (cfg : QuarantineConfig) (target : QuarantineTarget) :
    Prog.Uses Reads (Proxmox.preflight cfg target) := by
  refine uses_lift_bind fun p _ => uses_lift_bind fun entries _ => ?_
  exact uses_except_bind ⟨rfl, fun _ => trivial⟩ fun _ => trivial

theorem Proxmox.verify_uses (target : QuarantineTarget) :
    Prog.Uses Reads (Proxmox.verify target) := by
  refine uses_lift_bind fun p _ => ?_
  exact uses_except_bind ⟨rfl, fun _ => trivial⟩ fun _ => trivial

theorem Proxmox.taskStatus_uses (node : String) (vmid : Nat) (upid : String) :
    Prog.Uses Reads (Proxmox.taskStatus node vmid upid) :=
  uses_lift_bind fun _ _ => ⟨rfl, fun _ => trivial⟩

/-- An isolation writes a NIC that is isolated. -/
theorem Proxmox.applyPrepared_uses (cfg : QuarantineConfig) (target : QuarantineTarget)
    (original : String) :
    Prog.Uses (fun c => c.restores = false) (Proxmox.applyPrepared cfg target original) := by
  refine uses_lift_bind fun p _ => uses_lift_bind fun entries _ => ?_
  split
  · exact trivial
  split
  · exact trivial
  refine uses_except_bind ⟨rfl, fun _ => trivial⟩ fun current => ?_
  split
  · exact trivial
  split
  · exact trivial
  refine uses_except_bind ((Proxmox.writeNet0_uses _ _ _ _).mono fun c hc => ?_)
    fun _ => trivial
  cases c with
  | postConfig node vmid net0 digest =>
    obtain ⟨-, -, rfl⟩ := hc
    simp [HostCall.restores, net0IsQuarantined_quarantineNet0]
  | connect => cases hc
  | inspect | disconnect | readNet0 | waitForConfigTask | taskStatus => rfl

/-! ## What the methods have seen -/

abbrev HostHistory := List (Prog.Event HostCall.Answer)

/-- A method's typestate over what the host has answered. -/
abbrev HostGuided {α : Type} (may : HostHistory → HostCall → Prop) (post : HostHistory → α → Prop)
    (h : HostHistory) (m : Prog HostCall.Answer α) : Prop :=
  Prog.Guided (fun h c answer => h ++ [⟨c, answer⟩]) may (fun _ _ => True) post h m

/-- The last answer shows every network as it was. -/
def Docker.Restored (id : String) (networks : List NetworkAttachment) (h : HostHistory) : Prop :=
  ∃ earlier restored, h = earlier ++ [⟨.inspect id, .ok restored⟩] ∧
    ∀ old ∈ networks, ∃ now ∈ restored, old.restoredBy now = true

/-- The last answer shows the NIC as it was. -/
def Proxmox.Restored (node : String) (vmid : Nat) (original : String) (h : HostHistory) : Prop :=
  ∃ earlier nic, h = earlier ++ [⟨.readNet0 node vmid, .ok nic⟩] ∧ nic.net0 = original

/-- Some disconnect has failed. -/
def FailedDisconnect (h : HostHistory) : Prop :=
  ∃ network id e, (⟨.disconnect network id, .error e⟩ : Prog.Event HostCall.Answer) ∈ h

/-- A rollback succeeds on a readback of every network. -/
theorem Docker.rollback_restored (id : String) (networks : List NetworkAttachment)
    (h : HostHistory) :
    HostGuided (fun _ _ => True) (fun t r => r = .ok () → Docker.Restored id networks t) h
      (Docker.rollback (.docker id) networks) := by
  refine guided_lift_bind (fun id' hid => ?_) (fun e _ hr => nomatch hr)
  obtain rfl := Docker.containerId_ok hid
  split
  · exact fun hr => nomatch hr
  refine guided_except_bind (fun _ _ => True) (guided_trivial _)
    (fun t current _ => ?_) (fun t e _ hr => nomatch hr)
  refine guided_except_bind (fun _ _ => True) (guided_trivial _)
    (fun t failed _ => ?_) (fun t e _ hr => nomatch hr)
  refine ⟨trivial, fun answer _ => ?_⟩
  cases answer with
  | error e => exact fun hr => nomatch hr
  | ok restored =>
    show HostGuided _ _ _ (if _ then _ else _)
    split
    · exact fun hr => nomatch hr
    · next hshown =>
      rintro -
      refine ⟨t, restored, rfl, fun old hold => ?_⟩
      rw [Bool.or_eq_true, not_or, Bool.not_eq_true', Bool.not_eq_false] at hshown
      exact List.any_eq_true.mp (List.all_eq_true.mp hshown.2 old hold)

/-- A rollback succeeds on a readback of the NIC. -/
theorem Proxmox.rollback_restored (node : String) (vmid : Nat) (original : String)
    (h : HostHistory) :
    HostGuided (fun _ _ => True) (fun t r => r = .ok () → Proxmox.Restored node vmid original t) h
      (Proxmox.rollback (.proxmox node vmid) original) := by
  refine guided_lift_bind (fun p hp => ?_) (fun e _ hr => nomatch hr)
  obtain rfl := Proxmox.nodeVmid_ok hp
  dsimp only
  split
  · exact fun hr => nomatch hr
  refine ⟨trivial, fun answer _ => ?_⟩
  cases answer with
  | error e => exact fun hr => nomatch hr
  | ok current =>
    refine guided_lift_bind (fun needed hneeded => ?_) (fun e _ hr => nomatch hr)
    split
    · next hnot =>
      -- the NIC was restored already
      rintro -
      refine ⟨h, current, rfl, ?_⟩
      unfold rollbackNeeded at hneeded
      split at hneeded
      · next hsame => exact hsame
      · split at hneeded
        · cases hneeded
        · obtain rfl := Except.ok.inj hneeded
          cases hnot
    · refine guided_except_bind (fun _ _ => True) (guided_trivial _)
        (fun t upid _ => ?_) (fun t e _ hr => nomatch hr)
      refine ⟨trivial, fun answer _ => ?_⟩
      cases answer with
      | error e => exact fun hr => nomatch hr
      | ok restored =>
        show HostGuided _ _ _ (if _ then _ else _)
        split
        · exact fun hr => nomatch hr
        · next hsame => exact fun _ => ⟨t, restored, rfl, not_not.mp hsame⟩

/-- What an isolation may undo: its own disconnects, once one has failed. -/
def MayUndo (id : String) (networks : List NetworkAttachment) (h : HostHistory) (c : HostCall) :
    Prop :=
  c.restores = true → FailedDisconnect h ∧ Connects id networks c

theorem Docker.compensate_guided {id : String} {networks : List NetworkAttachment}
    {h : HostHistory} (hfailed : FailedDisconnect h) (error : AdapterError) :
    HostGuided (MayUndo id networks) (fun _ _ => True) h
      (Docker.compensate (.docker id) networks error) := by
  have hrollback : HostGuided (MayUndo id networks) (fun t _ => True ∧ h <+: t) h
      (Docker.rollback (.docker id) networks) := by
    refine ((guided_trivial _).and_uses (Docker.rollback_uses id networks)).history
      (fun t c ht hc _ => ?_) (prefix_refl h)
    obtain ⟨network, id', e, hmem⟩ := hfailed
    exact ⟨⟨network, id', e, ht.subset hmem⟩, hc.2⟩
  refine Prog.guided_bind (hrollback.mono fun t r _ => ?_)
  cases r <;> exact trivial

theorem Docker.disconnectAll_guided {id : String} {networks : List NetworkAttachment} :
    ∀ (rest : List NetworkAttachment) (h : HostHistory),
      HostGuided (MayUndo id networks) (fun _ _ => True) h
        (Docker.disconnectAll (.docker id) id networks rest) := by
  intro rest
  induction rest with
  | nil => exact fun _ => trivial
  | cons network rest ih =>
    intro h
    refine ⟨(nomatch ·), fun answer _ => ?_⟩
    cases answer with
    | ok _ => exact ih _
    | error e =>
      refine Docker.compensate_guided ⟨network.networkId, id, e, ?_⟩ e
      exact mem_concat_self

/-- An isolation connects only recorded networks, and only after one of its disconnects has
failed. -/
theorem Docker.applyPrepared_guided (cfg : QuarantineConfig) (id : String)
    (expected : List NetworkAttachment) (h : HostHistory) :
    HostGuided (MayUndo id expected) (fun _ _ => True) h
      (Docker.applyPrepared cfg (.docker id) expected) := by
  refine guided_lift_bind (fun id' hid => ?_) (fun e _ => trivial)
  obtain rfl := Docker.containerId_ok hid
  refine guided_lift_bind (fun entries _ => ?_) (fun e _ => trivial)
  split
  · exact trivial
  split
  · exact trivial
  refine ⟨(nomatch ·), fun answer _ => ?_⟩
  cases answer with
  | error e => exact trivial
  | ok networks =>
    show HostGuided _ _ _ (if _ then _ else _)
    split
    · exact trivial
    next hsame =>
    obtain rfl := not_not.mp hsame
    split
    · exact trivial
    · exact guided_except_bind (fun _ _ => True) (Docker.disconnectAll_guided _ _)
        (fun t _ _ => trivial) (fun t e _ => trivial)

end Clawforge.Quarantine

import Clawforge.Kit.Prog
import Clawforge.Firewall.Target

/-!
# Firewall adapters

The `FirewallAdapter` trait and its implementations as programs that call the
host: a subprocess, the HAProxy admin socket, the go-away policy file. The two
HAProxy adapters are one adapter with two sets of commands. Of the `rollback`
methods only go-away's is modelled, which undoes its own edit of a file.
-/

namespace Clawforge.Firewall

open Clawforge.Text Clawforge.Net Kit

/-! ## The host -/

/-- `std::process::Output`, its streams read lossily. -/
structure Output where
  success : Bool
  status : String
  stdout : String
  stderr : String

/-- `GoAwayManagedPolicy`: each network's sources, a source being its prefixes. -/
structure GoAwayManagedPolicy where
  networks : List (String × List (List String))
deriving DecidableEq

inductive HostCall
  | command (argv : List String)
  | adminSocket (socket command : String)
  | readPolicy (file : String)
  | writePolicy (file : String) (policy : GoAwayManagedPolicy)
deriving DecidableEq

/-- What a call returns. A policy file that does not exist reads as `none`. -/
abbrev HostCall.Result : HostCall → Type
  | .command _ => Output
  | .adminSocket _ _ => String
  | .readPolicy _ => Option GoAwayManagedPolicy
  | .writePolicy _ _ => Unit

/-- The host answers with an I/O error text or the result. -/
abbrev HostCall.Answer (call : HostCall) : Type := Except String call.Result

/-- A trait method that talks to the host. -/
abbrev Method (α : Type) := ExceptT AdapterError (Prog HostCall.Answer) α

/-- A host call whose I/O error is an adapter error, as `.map_err(AdapterError::Apply)?`. -/
def askHost (call : HostCall) (wrap : String → AdapterError) : Method call.Result :=
  ExceptT.mk (.call call fun answer => .pure (answer.mapError wrap))

def runCommand (argv : List String) (wrap : String → AdapterError) : Method Output :=
  askHost (.command argv) wrap

/-- A failed subprocess is an adapter error. -/
def requireSuccess (output : Output) (wrap : String → AdapterError) :
    Except AdapterError Unit :=
  if output.success then .ok ()
  else .error (wrap ("nft exited with " ++ output.status ++ ": " ++ output.stderr))

/-! ## The trait -/

structure FirewallAction where
  target : FirewallTarget
  ttlSeconds : Nat
  reason : String
deriving DecidableEq

structure Preflight where
  alreadyBlocked : Bool
  rawSetJson : String
deriving DecidableEq

structure FirewallActionReceipt where
  adapter : String
  renderedCommands : List (List String)
  rollbackCommands : List (List String)
  isDryRun : Bool
  ttlSeconds : Nat
  targetFingerprint : String
deriving DecidableEq

structure ApplyResult where
  receipt : FirewallActionReceipt
  observedState : Option String
deriving DecidableEq

inductive VerificationResult
  | verified | notPresent
deriving DecidableEq, Repr

/-- `trait FirewallAdapter`. -/
structure FirewallAdapter where
  name : String
  ruleScope : FirewallTarget → String
  preflight : FirewallTarget → Method Preflight
  render : FirewallAction → Except AdapterError FirewallActionReceipt
  apply : FirewallAction → (dryRun : Bool) → Method ApplyResult
  verify : FirewallTarget → Method VerificationResult

/-- What the adapters read from the environment, and `serde_json::from_str`. -/
structure AdapterConfig where
  neverBlock : Except String (List (IpAddr × Nat))
  adminSocket : String
  aclFile : String
  rateLimitTable : String
  policyFile : String
  reloadCommand : List String
  fromStr : String → Option Json

/-- `matches!(target, FirewallTarget::IncidentSource { .. })`. -/
def FirewallTarget.isIncidentSource : FirewallTarget → Bool
  | .incidentSource _ => true
  | _ => false

/-- `render` refuses a resolved incident source. -/
def refuseResolved : FirewallTarget → Except AdapterError Unit
  | .resolvedIncidentSource _ _ =>
    .error (.invalidTarget "a resolved incident source must never be rendered into a receipt")
  | _ => .ok ()

/-- The preflight of an unresolved incident source, which must not guess. -/
def unknownPreflight : Preflight := ⟨false, ""⟩

/-- The checks every `apply` makes give the receipt it plans and the mutation it would run;
a dry run stops at the receipt. -/
def applyPlanned (plan : Except AdapterError (FirewallActionReceipt × Method String))
    (dryRun : Bool) : Method ApplyResult := do
  let (receipt, mutate) ← plan
  if dryRun then return ⟨receipt, none⟩
  else
    let observed ← mutate
    return ⟨{ receipt with isDryRun := false }, some observed⟩

/-! ## nftables -/

namespace Nftables

def preflightCommand (setName : String) : List String :=
  ["nft", "-j", "list", "set", "inet", "clawforge", setName]

def addCommand (setName element : String) (ttlSeconds : Nat) : List String :=
  ["nft", "add", "element", "inet", "clawforge", setName, "\x7b", element, "timeout",
    toString ttlSeconds ++ "s", "\x7d"]

def deleteCommand (setName element : String) : List String :=
  ["nft", "delete", "element", "inet", "clawforge", setName, "\x7b", element, "\x7d"]

/-- The receipt about one element of one set. -/
def receipt (setName element : String) (ttlSeconds : Nat) : FirewallActionReceipt where
  adapter := "nftables"
  renderedCommands := [addCommand setName element ttlSeconds]
  rollbackCommands := [deleteCommand setName element]
  isDryRun := true
  ttlSeconds := ttlSeconds
  targetFingerprint := element

def ruleScope (target : FirewallTarget) : String :=
  match target.setName with
  | .ok (some setName) => setName
  | _ => blocklistSetV4

variable (cfg : AdapterConfig)

def preflight (target : FirewallTarget) : Method Preflight := do
  target.validate
  match ← target.setName with
  | none => return unknownPreflight
  | some setName =>
    let output ← runCommand (preflightCommand setName) .preflight
    requireSuccess output .preflight
    let (addr, prefixLen) ← targetAddress target
    return ⟨setContainsTarget cfg.fromStr output.stdout addr prefixLen, output.stdout⟩

def render (action : FirewallAction) : Except AdapterError FirewallActionReceipt := do
  refuseResolved action.target
  action.target.validate
  checkNeverBlock cfg.neverBlock action.target
  let element ← elementReference action.target
  let setName := (← action.target.setName).getD blocklistSetV4
  return receipt setName element action.ttlSeconds

/-- The set an apply mutates. -/
def applySet (target : FirewallTarget) : Except AdapterError String := do
  match ← target.setName with
  | some setName => return setName
  | none =>
    throw (.apply ("an unresolved IncidentSource cannot be applied - resolve it to a " ++
      "ResolvedIncidentSource first"))

/-- The mutation of a live apply and the listing after it. -/
def addElement (setName element : String) (ttlSeconds : Nat) : Method String := do
  let output ← runCommand (addCommand setName element ttlSeconds) .apply
  requireSuccess output .apply
  let listing ← runCommand (preflightCommand setName) .apply
  return listing.stdout

def plan (action : FirewallAction) :
    Except AdapterError (FirewallActionReceipt × Method String) := do
  action.target.validate
  checkNeverBlock cfg.neverBlock action.target
  let element ← elementReference action.target
  let receiptElement ← redactedElementReference action.target
  let setName ← applySet action.target
  return (receipt setName receiptElement action.ttlSeconds,
    addElement setName element action.ttlSeconds)

def apply (action : FirewallAction) (dryRun : Bool) : Method ApplyResult :=
  applyPlanned (plan cfg action) dryRun

def verify (target : FirewallTarget) : Method VerificationResult := do
  target.validate
  match ← target.setName with
  | none => throw (.verify "target has no resolvable address")
  | some setName =>
    let output ← runCommand (preflightCommand setName) .verify
    requireSuccess output .verify
    let (addr, prefixLen) ← targetAddress target
    return if setContainsTarget cfg.fromStr output.stdout addr prefixLen then .verified
      else .notPresent

def adapter : FirewallAdapter where
  name := "nftables"
  ruleScope := ruleScope
  preflight := preflight cfg
  render := render cfg
  apply := apply cfg
  verify := verify cfg

end Nftables

/-! ## HAProxy -/

/-- The commands of one HAProxy runtime object, and how its listing names a key. -/
structure RuntimeObject where
  name : String
  scope : String
  showCommand : String
  addCommand : String → String
  undoCommand : String → String
  contains : String → String → Bool

/-- `haproxy_acl_contains_key`: the second field of some line is the key. -/
def haproxyAclContainsKey (rawResponse key : String) : Bool :=
  (lines rawResponse.toList).any fun line => (splitWhitespace line)[1]? == some key.toList

/-- One `key=` or `gpc0=` field of a stick-table line. -/
def tableField (key : String) (seen : Bool × Bool) (field : List Char) : Bool × Bool :=
  match stripPrefix "key=".toList field with
  | some value => (value == key.toList, seen.2)
  | none =>
    match stripPrefix "gpc0=".toList field with
    | some value => (seen.1, (parseU64 value).any (0 < ·))
    | none => seen

/-- `haproxy_table_key_is_flagged`. -/
def haproxyTableKeyIsFlagged (rawResponse key : String) : Bool :=
  (lines rawResponse.toList).any fun line =>
    let seen := (splitWhitespace line).foldl (tableField key) (false, false)
    seen.1 && seen.2

/-- `HaproxyAdapter`'s ACL pattern file. -/
def blocklistAcl (cfg : AdapterConfig) : RuntimeObject where
  name := "haproxy"
  scope := cfg.aclFile
  showCommand := "show acl " ++ cfg.aclFile
  addCommand := fun key => "add acl " ++ cfg.aclFile ++ " " ++ key
  undoCommand := fun key => "del acl " ++ cfg.aclFile ++ " " ++ key
  contains := haproxyAclContainsKey

/-- `HaproxyRateLimitAdapter`'s stick table. -/
def rateLimitTable (cfg : AdapterConfig) : RuntimeObject where
  name := "haproxy_ratelimit"
  scope := cfg.rateLimitTable
  showCommand := "show table " ++ cfg.rateLimitTable
  addCommand := fun key => "set table " ++ cfg.rateLimitTable ++ " key " ++ key ++ " data.gpc0 1"
  undoCommand := fun key => "set table " ++ cfg.rateLimitTable ++ " key " ++ key ++ " data.gpc0 0"
  contains := haproxyTableKeyIsFlagged

namespace RuntimeObject

variable (object : RuntimeObject) (cfg : AdapterConfig)

/-- `run_command` on the admin socket. -/
def run (command : String) (wrap : String → AdapterError) : Method String :=
  askHost (.adminSocket cfg.adminSocket command) wrap

def receipt (element : String) (ttlSeconds : Nat) : FirewallActionReceipt where
  adapter := object.name
  renderedCommands := [[object.addCommand element]]
  rollbackCommands := [[object.undoCommand element]]
  isDryRun := true
  ttlSeconds := ttlSeconds
  targetFingerprint := element

def preflight (target : FirewallTarget) : Method Preflight := do
  target.validate
  if target.isIncidentSource then return unknownPreflight
  else
    let element ← elementReference target
    let response ← run cfg object.showCommand .preflight
    return ⟨object.contains response element, response⟩

def render (action : FirewallAction) : Except AdapterError FirewallActionReceipt := do
  refuseResolved action.target
  action.target.validate
  checkNeverBlock cfg.neverBlock action.target
  let element ← elementReference action.target
  return object.receipt element action.ttlSeconds

/-- The mutation of a live apply, which answers with an empty text, and the listing after it. -/
def addKey (element : String) : Method String := do
  let command := object.addCommand element
  let response ← run cfg command .apply
  if trim response.toList = [] then
    run cfg object.showCommand .apply
  else
    throw (.apply ("haproxy runtime API rejected " ++ debug command ++ ": " ++
      String.ofList (trim response.toList)))

def plan (action : FirewallAction) :
    Except AdapterError (FirewallActionReceipt × Method String) := do
  action.target.validate
  requireResolvedTarget action.target
  checkNeverBlock cfg.neverBlock action.target
  let element ← elementReference action.target
  let receiptElement ← redactedElementReference action.target
  return (object.receipt receiptElement action.ttlSeconds, object.addKey cfg element)

def apply (action : FirewallAction) (dryRun : Bool) : Method ApplyResult :=
  applyPlanned (object.plan cfg action) dryRun

def verify (target : FirewallTarget) : Method VerificationResult := do
  target.validate
  requireResolvedTarget target
  let element ← elementReference target
  let response ← run cfg object.showCommand .verify
  return if object.contains response element then .verified else .notPresent

def adapter : FirewallAdapter where
  name := object.name
  ruleScope := fun _ => object.scope
  preflight := object.preflight cfg
  render := object.render cfg
  apply := object.apply cfg
  verify := object.verify cfg

end RuntimeObject

/-! ## go-away -/

namespace GoAway

/-- `GOAWAY_MANAGED_NETWORK_NAME`. -/
def networkName : String := "clawforge_challenge"

def fresh : GoAwayManagedPolicy := ⟨[(networkName, [])]⟩

/-- The managed network's sources. -/
def sources (policy : GoAwayManagedPolicy) : Option (List (List String)) :=
  policy.networks.lookup networkName

def prefixes (policy : GoAwayManagedPolicy) : List String :=
  (((sources policy).bind List.head?).getD [])

/-- `prefixes_mut` with one prefix pushed. -/
def pushPrefix (policy : GoAwayManagedPolicy) (element : String) : GoAwayManagedPolicy :=
  let pushed := match (sources policy).getD [] with
    | [] => [[element]]
    | first :: rest => (first ++ [element]) :: rest
  ⟨if (sources policy).isSome then
      policy.networks.map fun net => if net.1 = networkName then (net.1, pushed) else net
    else policy.networks ++ [(networkName, pushed)]⟩

/-- `prefixes_mut` with the other prefixes retained. -/
def retainPrefixes (policy : GoAwayManagedPolicy) (element : String) : GoAwayManagedPolicy :=
  let retained := match (sources policy).getD [] with
    | [] => [[]]
    | first :: rest => first.filter (· ≠ element) :: rest
  ⟨if (sources policy).isSome then
      policy.networks.map fun net => if net.1 = networkName then (net.1, retained) else net
    else policy.networks ++ [(networkName, retained)]⟩

/-- `clear_empty_source`. -/
def clearEmptySource (policy : GoAwayManagedPolicy) : GoAwayManagedPolicy :=
  if prefixes policy = [] then
    ⟨if (sources policy).isSome then
        policy.networks.map fun net => if net.1 = networkName then (net.1, []) else net
      else policy.networks ++ [(networkName, [])]⟩
  else policy

def validate (policy : GoAwayManagedPolicy) : Except String Unit :=
  if policy.networks.length ≠ 1 then
    .error "go-away managed snippet must contain only the Clawforge network"
  else
    match sources policy with
    | none => .error "go-away managed snippet is missing the Clawforge network"
    | some sources =>
      if 1 < sources.length ∨ sources.head? = some [] then
        .error "go-away managed network has an unsupported source layout"
      else .ok ()

variable (cfg : AdapterConfig)

def readPolicy (wrap : String → AdapterError) : Method GoAwayManagedPolicy := do
  match ← askHost (.readPolicy cfg.policyFile) wrap with
  | none => return fresh
  | some policy =>
    (validate policy).mapError wrap
    return policy

def writePolicy (policy : GoAwayManagedPolicy) (wrap : String → AdapterError) :
    Method Unit := do
  (validate policy).mapError wrap
  askHost (.writePolicy cfg.policyFile policy) wrap

/-- `reload`, which reports its own failure text. -/
def reload : Prog HostCall.Answer (Except String Unit) :=
  let line := " ".intercalate cfg.reloadCommand
  if cfg.reloadCommand = [] then
    .pure (.error "CLAWFORGE_GOAWAY_RELOAD_COMMAND must not be empty")
  else
    .call (.command cfg.reloadCommand) fun answer =>
      match answer with
      | .error e => .pure (.error ("running " ++ line ++ ": " ++ e))
      | .ok output =>
        .pure (if output.success then .ok ()
          else .error (line ++ " failed: " ++ output.stderr))

def renderedCommands (element : String) : List (List String) :=
  [["yaml-prefix-add", cfg.policyFile, networkName, element], cfg.reloadCommand]

def rollbackCommands (element : String) : List (List String) :=
  [["yaml-prefix-remove", cfg.policyFile, networkName, element], cfg.reloadCommand]

def receipt (element : String) (ttlSeconds : Nat) : FirewallActionReceipt where
  adapter := "goaway"
  renderedCommands := renderedCommands cfg element
  rollbackCommands := rollbackCommands cfg element
  isDryRun := true
  ttlSeconds := ttlSeconds
  targetFingerprint := element

/-- `serde_json::to_string(policy.prefixes())`. -/
def prefixesJson (policy : GoAwayManagedPolicy) : String :=
  (Json.array ((prefixes policy).map Json.string)).render

def preflight (target : FirewallTarget) : Method Preflight := do
  target.validate
  if target.isIncidentSource then return unknownPreflight
  else
    let element ← elementReference target
    let policy ← readPolicy cfg .preflight
    return ⟨(prefixes policy).contains element, prefixesJson policy⟩

def render (action : FirewallAction) : Except AdapterError FirewallActionReceipt := do
  refuseResolved action.target
  action.target.validate
  checkNeverBlock cfg.neverBlock action.target
  let element ← elementReference action.target
  return receipt cfg element action.ttlSeconds

/-- The mutation of a live apply: the snippet with the prefix, and the reload, whose failure
restores the snippet. -/
def addPrefix (element : String) : Method String := do
  let original ← readPolicy cfg .apply
  let policy := if (prefixes original).contains element then original
    else pushPrefix original element
  writePolicy cfg policy .apply
  match ← ExceptT.lift (reload cfg) with
  | .ok () => return prefixesJson policy
  | .error e =>
    writePolicy cfg original fun restore =>
      .apply ("reload failed: " ++ e ++ "; restoring snippet failed: " ++ restore)
    throw (.apply ("reload failed; previous snippet restored: " ++ e))

/-- The mutation of a rollback: the snippet without the prefix, and the reload, whose failure
restores the snippet. A prefix that is absent only reloads. -/
def removePrefix (element : String) : Method Unit := do
  let original ← readPolicy cfg .rollback
  let policy := retainPrefixes original element
  if (prefixes policy).length = (prefixes original).length then
    match ← ExceptT.lift (reload cfg) with
    | .ok () => return ()
    | .error e => throw (.rollback e)
  else
    writePolicy cfg (clearEmptySource policy) .rollback
    match ← ExceptT.lift (reload cfg) with
    | .ok () => return ()
    | .error e =>
      writePolicy cfg original fun restore =>
        .rollback ("reload failed: " ++ e ++ "; restoring snippet failed: " ++ restore)
      throw (.rollback ("reload failed; previous snippet restored: " ++ e))

def plan (action : FirewallAction) :
    Except AdapterError (FirewallActionReceipt × Method String) := do
  requireResolvedTarget action.target
  checkNeverBlock cfg.neverBlock action.target
  let element ← elementReference action.target
  let receiptElement ← redactedElementReference action.target
  return (receipt cfg receiptElement action.ttlSeconds, addPrefix cfg element)

def apply (action : FirewallAction) (dryRun : Bool) : Method ApplyResult := do
  action.target.validate
  if dryRun && action.target.isIncidentSource then
    return ⟨← render cfg action, none⟩
  else applyPlanned (plan cfg action) dryRun

def verify (target : FirewallTarget) : Method VerificationResult := do
  target.validate
  requireResolvedTarget target
  let element ← elementReference target
  let policy ← readPolicy cfg .verify
  return if (prefixes policy).contains element then .verified else .notPresent

def rollback (action : FirewallAction) : Method Unit := do
  action.target.validate
  requireResolvedTarget action.target
  let element ← elementReference action.target
  removePrefix cfg element

def adapter : FirewallAdapter where
  name := "goaway"
  ruleScope := fun _ => "goaway"
  preflight := preflight cfg
  render := render cfg
  apply := apply cfg
  verify := verify cfg

end GoAway

/-! ## Routing -/

inductive AdapterKind
  | nftables | haproxy | haproxyRatelimit | goaway
deriving DecidableEq, Repr

def AdapterKind.adapter (cfg : AdapterConfig) : AdapterKind → FirewallAdapter
  | .nftables => Nftables.adapter cfg
  | .haproxy => (blocklistAcl cfg).adapter cfg
  | .haproxyRatelimit => (rateLimitTable cfg).adapter cfg
  | .goaway => GoAway.adapter cfg

/-- The adapter's name, whatever its configuration. -/
def AdapterKind.name : AdapterKind → String
  | .nftables => "nftables"
  | .haproxy => "haproxy"
  | .haproxyRatelimit => "haproxy_ratelimit"
  | .goaway => "goaway"

/-- `adapter_for_action`. -/
def adapterForAction (name : String) : Option AdapterKind :=
  if startsWith name "nftables" then some .nftables
  else if startsWith name "haproxy_ratelimit" then some .haproxyRatelimit
  else if startsWith name "haproxy" then some .haproxy
  else if startsWith name "goaway" then some .goaway
  else none

end Clawforge.Firewall

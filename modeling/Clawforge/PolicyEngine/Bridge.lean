import Clawforge.Storage.BridgePlan

/-!
# Configuration of the policy bridge

`BridgeConfig::from_lookup`: the environment is read once, and any missing,
malformed or contradictory value rejects all of it. The automatic mode needs an
acknowledgement that spells out the operating parameters.
-/

namespace Clawforge.Bridge

open Clawforge.Text EventDelivery Executions Kit

/-! ## Variables and bounds -/

namespace Var

def mode : String := "CLAWFORGE_POLICY_BRIDGE_MODE"
def blockAction : String := "CLAWFORGE_POLICY_BRIDGE_BLOCK_ACTION"
def ratelimitAction : String := "CLAWFORGE_POLICY_BRIDGE_RATELIMIT_ACTION"
def ttlSeconds : String := "CLAWFORGE_POLICY_BRIDGE_TTL_SECONDS"
def maxPerWindow : String := "CLAWFORGE_POLICY_BRIDGE_MAX_PER_WINDOW"
def windowSeconds : String := "CLAWFORGE_POLICY_BRIDGE_WINDOW_SECONDS"
def maxEvidenceAgeSeconds : String := "CLAWFORGE_POLICY_BRIDGE_MAX_EVIDENCE_AGE_SECONDS"
def requireThreatIntel : String := "CLAWFORGE_POLICY_BRIDGE_REQUIRE_THREAT_INTEL"
def minIntelConfidence : String := "CLAWFORGE_POLICY_BRIDGE_MIN_INTEL_CONFIDENCE"
def requesterId : String := "CLAWFORGE_POLICY_BRIDGE_REQUESTER_ID"
def ruleId : String := "CLAWFORGE_POLICY_BRIDGE_RULE_ID"
def automaticAck : String := "CLAWFORGE_POLICY_BRIDGE_AUTOMATIC_ACK"

end Var

def blockActions : List String :=
  ["nftables.block_incident_source", "haproxy.block_incident_source",
    "firewall.block_incident_source"]

def ratelimitActions : List String := ["haproxy_ratelimit.block_incident_source"]

def maxSeconds : Int := 86400
def maxEvidenceAge : Int := 604800
def maxRequestsPerWindow : Int := 100
def minWindowSeconds : Int := 60

structure BridgeConfig where
  mode : BridgeMode
  blockAction : Option String
  ratelimitAction : Option String
  ttlSeconds : Int
  requesterId : Option Uuid
  ruleId : Option String
  maxEvidenceAgeSeconds : Int
  minIntelConfidence : Int
  requireThreatIntel : Bool
  maxPerWindow : Int
  windowSeconds : Int
deriving DecidableEq

/-! ## Reading the environment -/

/-- `std::env::var(name).ok()`. -/
abbrev Lookup := String → Option String

/-- A value without the blanks around it; a blank one is unset. -/
def text (get : Lookup) (name : String) : Option String :=
  ((get name).map fun v => String.ofList (trim v.toList)).filter (· ≠ "")

/-- `none` is off. -/
def modeOf : Option String → Except String (Option BridgeMode)
  | none => .ok none
  | some value =>
    if value = "off" then .ok none
    else if value = "simulate" then .ok (some .simulate)
    else if value = "propose" then .ok (some .propose)
    else if value = "automatic" then .ok (some .automatic)
    else .error (Var.mode ++ ": unknown mode " ++ debug value)

/-- `i32::from_str`: an optional sign, then decimal digits, in range. -/
def parseI32 : List Char → Option Int
  | '-' :: digits =>
    if digits ≠ [] ∧ digits.all (isDigitOf 10) ∧ numeralValue 10 digits ≤ 2 ^ 31 then
      some (-(numeralValue 10 digits : Int))
    else none
  | cs => (parseUnsigned (2 ^ 31) cs).map Int.ofNat

def number (get : Lookup) (name : String) (min max : Int) : Except String Int :=
  match text get name with
  | none => .error (name ++ " is required")
  | some raw =>
    match parseI32 raw.toList with
    | none => .error (name ++ " is not an integer")
    | some value =>
      if min ≤ value ∧ value ≤ max then .ok value
      else .error (name ++ " must be between " ++ toString min ++ " and " ++ toString max)

def action (get : Lookup) (name : String) (allowed : List String) :
    Except String (Option String) :=
  match text get name with
  | none => .ok none
  | some value =>
    if value ∈ allowed then .ok (some value)
    else .error (name ++ " is not an allowed incident-source action")

def requireThreatIntelOf : Option String → Except String Bool
  | none => .ok true
  | some value =>
    if value = "true" then .ok true
    else if value = "false" then .ok false
    else .error (Var.requireThreatIntel ++ " must be true or false")

/-- What a rule's name is written with. -/
def isRuleChar (c : Char) : Bool := c.isLower || c.isDigit || c = '_'

def ruleIdOf : Option String → Except String (Option String)
  | none => .ok none
  | some rule =>
    if rule.utf8ByteSize ≤ 80 ∧ rule.toList.all isRuleChar then .ok (some rule)
    else .error (Var.ruleId ++ " must be lowercase letters, digits and underscores")

/-- `parseUuid` is `Uuid::parse_str`. -/
def requesterIdOf (parseUuid : String → Option Uuid) :
    Option String → Except String (Option Uuid)
  | none => .ok none
  | some raw =>
    match parseUuid raw with
    | none => .error (Var.requesterId ++ " is not a UUID")
    | some requester => .ok (some requester)

def checkRequester (mode : BridgeMode) (requesterId : Option Uuid) : Except String Unit :=
  match mode with
  | .propose =>
    if requesterId.isNone then .error (Var.requesterId ++ " is required for propose") else .ok ()
  | .simulate | .automatic =>
    if requesterId.isSome then .error (Var.requesterId ++ " is only valid for propose")
    else .ok ()

/-- The acknowledgement of the automatic mode. -/
def BridgeConfig.expectedAck (c : BridgeConfig) : String :=
  "unattended:" ++ c.ruleId.getD "-" ++ ":" ++ c.blockAction.getD "-" ++ ":" ++
    c.ratelimitAction.getD "-" ++ ":" ++ toString c.ttlSeconds ++ ":" ++
    toString c.maxPerWindow ++ "/" ++ toString c.windowSeconds ++ ":" ++
    toString c.maxEvidenceAgeSeconds ++ ":" ++ toString c.minIntelConfidence

def checkAutomatic (c : BridgeConfig) (ack : Option String) : Except String Unit :=
  if c.ruleId.isNone then .error (Var.ruleId ++ " is required for automatic")
  else if c.requireThreatIntel = false then
    .error (Var.requireThreatIntel ++ "=false is not allowed for automatic")
  else if ack ≠ some c.expectedAck then
    .error (Var.automaticAck ++ " is missing or does not match the configured parameters")
  else .ok ()

/-- `BridgeConfig::from_lookup`: `none` when the bridge is off. -/
def fromLookup (parseUuid : String → Option Uuid) (get : Lookup) :
    Except String (Option BridgeConfig) := do
  match ← modeOf (text get Var.mode) with
  | none => .ok none
  | some mode =>
    let blockAction ← action get Var.blockAction blockActions
    let ratelimitAction ← action get Var.ratelimitAction ratelimitActions
    if blockAction.isNone ∧ ratelimitAction.isNone then
      .error (Var.blockAction ++ " or " ++ Var.ratelimitAction ++ " is required")
    else
      let ttlSeconds ← number get Var.ttlSeconds 1 maxSeconds
      let maxPerWindow ← number get Var.maxPerWindow 1 maxRequestsPerWindow
      let windowSeconds ← number get Var.windowSeconds minWindowSeconds maxSeconds
      let maxEvidenceAgeSeconds ← number get Var.maxEvidenceAgeSeconds 1 maxEvidenceAge
      let minIntelConfidence ← number get Var.minIntelConfidence 1 100
      let requireThreatIntel ← requireThreatIntelOf (text get Var.requireThreatIntel)
      let ruleId ← ruleIdOf (text get Var.ruleId)
      let requesterId ← requesterIdOf parseUuid (text get Var.requesterId)
      checkRequester mode requesterId
      let config : BridgeConfig :=
        { mode, blockAction, ratelimitAction, ttlSeconds, requesterId, ruleId,
          maxEvidenceAgeSeconds, minIntelConfidence, requireThreatIntel, maxPerWindow,
          windowSeconds }
      if mode = .automatic then
        checkAutomatic config (text get Var.automaticAck)
        .ok (some config)
      else .ok (some config)

end Clawforge.Bridge

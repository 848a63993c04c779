import Clawforge.SecurityEvents.Envelope

/-!
# Pseudonyms and the sanitizer

How the storage crate keeps raw addresses out of what it persists: the keyed
pseudonym of an address text, its use on a correlation id and on typed evidence,
and the sanitizer of free-form JSON.

The environment is read on every call; here it is a value. The keyed hash of the
`hmac` and `sha2` crates is a parameter.
-/

namespace Clawforge.Pseudonym

open Clawforge.Net Clawforge.SecurityEvents

/-- What a call reads from its environment: whether addresses are anonymised, the
key as `ip_pseudonym_key` loads it, and HMAC-SHA256 of a key and a text. -/
structure Env where
  anonymizeIps : Bool
  pseudonymKey : Except String (Option String)
  hmacSha256 : String → String → List UInt8

/-! ## One address -/

/-- One byte under `{:02x}`. -/
def hexByte (b : UInt8) : List Char := [Json.hexDigit (b.toNat / 16), Json.hexDigit b.toNat]

def pseudonymHead : String := "ip-pseudonym:"

/-- `ip_pseudonym`: the first half of the keyed hash of the text as given. -/
def ipPseudonym (env : Env) (key ip : String) : String :=
  String.ofList
    (pseudonymHead.toList ++ ((env.hmacSha256 key ip).take 16).flatMap hexByte)

def keyRequired : String :=
  "CLAWFORGE_ANALYZER_IP_HMAC_KEY (or _FILE) must be configured while IP anonymization is enabled (CLAWFORGE_ANALYZER_ANONYMIZE_IPS, default on): refusing to store an IP value without a way to pseudonymize it safely"

/-- `pseudonymize_ip`. -/
def pseudonymizeIp (env : Env) (ip : String) : Except String String :=
  match env.pseudonymKey with
  | .error e => .error e
  | .ok (some key) => .ok (ipPseudonym env key ip)
  | .ok none => .error keyRequired

/-- `value.parse::<IpAddr>().is_ok()`. -/
def isIp (value : String) : Bool := (parseIpAddr value.toList).isSome

/-- `pseudonymize_correlation_id`. -/
def pseudonymizeCorrelationId (env : Env) (value : String) : Except String String :=
  if env.anonymizeIps && isIp value then pseudonymizeIp env value else .ok value

/-- `pseudonymize_field`. -/
def pseudonymizeField (env : Env) (value : String) : Except String String :=
  pseudonymizeCorrelationId env value

/-! ## Evidence -/

/-- An effect on every field of the evidence documented as an address. -/
def mapAddressesM {m : Type → Type} [Monad m] (f : String → m String) :
    SecurityEventEvidence → m SecurityEventEvidence
  | .networkIdsAlert e => do
      let sourceIp ← f e.sourceIp
      let destinationIp ← f e.destinationIp
      pure (.networkIdsAlert { e with sourceIp, destinationIp })
  | .firewallBlock e => do
      let sourceIp ← f e.sourceIp
      let destinationIp ← e.destinationIp.mapM f
      pure (.firewallBlock { e with sourceIp, destinationIp })
  | .firewallRuleChanged e => pure (.firewallRuleChanged e)
  | .authFailure e => do
      let sourceIp ← f e.sourceIp
      pure (.authFailure { e with sourceIp })
  | .authAnomaly e => do
      let sourceIp ← f e.sourceIp
      let previousSourceIp ← e.previousSourceIp.mapM f
      pure (.authAnomaly { e with sourceIp, previousSourceIp })
  | .sshLoginFailure e => do
      let sourceIp ← f e.sourceIp
      pure (.sshLoginFailure { e with sourceIp })
  | .sshLoginAnomaly e => do
      let sourceIp ← f e.sourceIp
      pure (.sshLoginAnomaly { e with sourceIp })
  | .httpAnomaly e => do
      let sourceIp ← f e.sourceIp
      pure (.httpAnomaly { e with sourceIp })
  | .dnsAnomaly e => do
      let sourceIp ← f e.sourceIp
      pure (.dnsAnomaly { e with sourceIp })
  | .portScanDetected e => do
      let sourceIp ← f e.sourceIp
      let targetIp ← f e.targetIp
      pure (.portScanDetected { e with sourceIp, targetIp })
  | .containerAnomaly e => pure (.containerAnomaly e)
  | .containerEscapeAttempt e => pure (.containerEscapeAttempt e)
  | .containerLifecycleChanged e => pure (.containerLifecycleChanged e)

/-- `pseudonymize_evidence`. -/
def pseudonymizeEvidence (env : Env) (e : SecurityEventEvidence) :
    Except String SecurityEventEvidence :=
  mapAddressesM (pseudonymizeField env) e

/-! ## Free-form JSON -/

/-- `sensitive_analysis_key`. -/
def sensitiveAnalysisKey (key : String) : Bool :=
  ["raw", "payload", "feed", "secret", "token", "password", "api_key", "apikey"].any
    (fun part => Text.contains part.toList (Text.toAsciiLowercase key.toList))

/-- `ip_analysis_key`. -/
def ipAnalysisKey (key : String) : Bool :=
  ["ip", "ip_address", "source_ip", "destination_ip", "client_ip"].any
    (fun name => name.toList = Text.toAsciiLowercase key.toList)

/-- The keys a bare string is looked at under. -/
def resourceKey (key : Option String) : Bool :=
  key.any (fun name => name = "resource" ∨ name = "correlation_key" ∨ ipAnalysisKey name)

def redacted : Json := .string "<redacted>"

/-- What replaces the value of an address key. -/
def redactAddress (env : Env) : Json → Except String Json
  | .string ip => (pseudonymizeIp env ip).map .string
  | _ => .ok redacted

mutual

/-- `sanitize_analysis_value`. -/
def sanitizeAnalysisValue (env : Env) : Json → Option String → Except String Json
  | .object values, _ => (sanitizeFields env values).map .object
  | .array values, key => (sanitizeItems env values key).map .array
  | .string value, key =>
    if env.anonymizeIps && resourceKey key && isIp value then
      (pseudonymizeIp env value).map .string
    else .ok (.string value)
  | .null, _ => .ok .null
  | .bool b, _ => .ok (.bool b)
  | .number n, _ => .ok (.number n)

/-- The loop over the fields of an object. -/
def sanitizeFields (env : Env) :
    List (String × Json) → Except String (List (String × Json))
  | [] => .ok []
  | (name, value) :: rest =>
    if sensitiveAnalysisKey name then sanitizeFields env rest
    else
      (if env.anonymizeIps && ipAnalysisKey name then redactAddress env value
        else sanitizeAnalysisValue env value (some name)) >>= fun value =>
      (sanitizeFields env rest).map (fun rest => (name, value) :: rest)

def sanitizeItems (env : Env) : List Json → Option String → Except String (List Json)
  | [], _ => .ok []
  | value :: rest, key => do
      let value ← sanitizeAnalysisValue env value key
      let rest ← sanitizeItems env rest key
      .ok (value :: rest)

end

/-! ## The boundaries that apply it -/

/-- The metadata `record_incident_timeline` stores. -/
def recordedMetadata (env : Env) (metadata : Json) : Except String Json :=
  sanitizeAnalysisValue env metadata none

/-- The metadata `list_incident_timeline_entries` returns for a stored row. -/
def listedMetadata (env : Env) (stored : Json) : Except String Json :=
  sanitizeAnalysisValue env stored none

end Clawforge.Pseudonym

import Clawforge.Net.IpAddr
import Clawforge.Values

/-!
# Sensor envelopes

The `security-events` crate: the evidence of one event, the envelope a sensor
submits, their validation and the JSON `serde` writes for the evidence.
-/

namespace Clawforge.SecurityEvents

open Clawforge.Net Clawforge.Text

/-! ## Bounds and field checks -/

def shortFieldMax : Nat := 160

def resourceMax : Nat := 512

def dedupeKeyMax : Nat := 256

def longFieldMax : Nat := 2048

inductive ValidationError
  | invalidField (field : String) (max : Nat)
  | invalidIp (field : String)
  | unknownEventType (value : String)
deriving DecidableEq, Repr

/-- The `thiserror` text. -/
def ValidationError.text : ValidationError → String
  | .invalidField field max =>
    field ++ " must be 1..=" ++ toString max ++ " non-blank characters"
  | .invalidIp field => field ++ " is not a valid IP address"
  | .unknownEventType value => "unknown security event type: " ++ value

/-- `validate_text`. -/
def validateText (field value : String) (max : Nat) : Except ValidationError Unit :=
  if trim value.toList = [] ∨ max < value.toList.length then .error (.invalidField field max)
  else .ok ()

/-- `validate_ip`. -/
def validateIp (field value : String) : Except ValidationError Unit :=
  match parseIpAddr value.toList with
  | some _ => .ok ()
  | none => .error (.invalidIp field)

/-- `validate_optional_text` and `validate_optional_ip`: an absent value passes. -/
def validateOptional (check : String → Except ValidationError Unit) :
    Option String → Except ValidationError Unit
  | some value => check value
  | none => .ok ()

/-! ## Evidence -/

inductive RuleChangeKind
  | added | modified | removed
deriving DecidableEq, Repr

def RuleChangeKind.asStr : RuleChangeKind → String
  | .added => "added"
  | .modified => "modified"
  | .removed => "removed"

inductive ContainerLifecycleAction
  | created | started | stopped | destroyed | restarted | networkConnected
  | networkDisconnected | imagePulled | imageRemoved
deriving DecidableEq, Repr

def ContainerLifecycleAction.asStr : ContainerLifecycleAction → String
  | .created => "created"
  | .started => "started"
  | .stopped => "stopped"
  | .destroyed => "destroyed"
  | .restarted => "restarted"
  | .networkConnected => "network_connected"
  | .networkDisconnected => "network_disconnected"
  | .imagePulled => "image_pulled"
  | .imageRemoved => "image_removed"

structure NetworkIdsAlertEvidence where
  sourceIp : String
  destinationIp : String
  sourcePort : Option UInt16
  destinationPort : Option UInt16
  protocol : String
  engine : String
  signatureId : UInt32
  generatorId : UInt32
  signatureRevision : UInt32
  nativeSeverity : UInt8
  observedAction : String
  flowId : Option UInt64
deriving DecidableEq, Repr

structure FirewallBlockEvidence where
  ruleId : String
  sourceIp : String
  destinationIp : Option String
  destinationPort : Option UInt16
  protocol : String
  interface : Option String
deriving DecidableEq, Repr

structure FirewallRuleChangedEvidence where
  ruleId : String
  actor : String
  change : RuleChangeKind
  summary : String
deriving DecidableEq, Repr

structure AuthFailureEvidence where
  username : String
  sourceIp : String
  method : String
  attemptCount : UInt32
deriving DecidableEq, Repr

structure AuthAnomalyEvidence where
  username : String
  sourceIp : String
  anomaly : String
  previousSourceIp : Option String
deriving DecidableEq, Repr

structure SshLoginFailureEvidence where
  username : String
  sourceIp : String
  attemptCount : UInt32
  invalidUser : Option Bool
deriving DecidableEq, Repr

structure SshLoginAnomalyEvidence where
  username : String
  sourceIp : String
  anomaly : String
deriving DecidableEq, Repr

structure HttpAnomalyEvidence where
  sourceIp : String
  method : String
  path : String
  statusCode : UInt16
  ruleId : Option String
deriving DecidableEq, Repr

structure DnsAnomalyEvidence where
  sourceIp : String
  queryName : String
  queryType : String
  anomaly : String
deriving DecidableEq, Repr

structure PortScanDetectedEvidence where
  sourceIp : String
  targetIp : String
  portCount : UInt32
  windowSeconds : UInt32
deriving DecidableEq, Repr

structure ContainerAnomalyEvidence where
  containerId : String
  image : String
  anomaly : String
deriving DecidableEq, Repr

structure ContainerEscapeAttemptEvidence where
  containerId : String
  image : String
  technique : String
deriving DecidableEq, Repr

structure ContainerLifecycleChangedEvidence where
  containerId : Option String
  containerName : Option String
  image : Option String
  action : ContainerLifecycleAction
  detail : String
deriving DecidableEq, Repr

inductive SecurityEventEvidence
  | networkIdsAlert (e : NetworkIdsAlertEvidence)
  | firewallBlock (e : FirewallBlockEvidence)
  | firewallRuleChanged (e : FirewallRuleChangedEvidence)
  | authFailure (e : AuthFailureEvidence)
  | authAnomaly (e : AuthAnomalyEvidence)
  | sshLoginFailure (e : SshLoginFailureEvidence)
  | sshLoginAnomaly (e : SshLoginAnomalyEvidence)
  | httpAnomaly (e : HttpAnomalyEvidence)
  | dnsAnomaly (e : DnsAnomalyEvidence)
  | portScanDetected (e : PortScanDetectedEvidence)
  | containerAnomaly (e : ContainerAnomalyEvidence)
  | containerEscapeAttempt (e : ContainerEscapeAttemptEvidence)
  | containerLifecycleChanged (e : ContainerLifecycleChangedEvidence)
deriving DecidableEq, Repr

/-- `SecurityEventType::as_str` of the evidence's type. -/
def SecurityEventEvidence.eventType : SecurityEventEvidence → String
  | .networkIdsAlert _ => "network_ids_alert"
  | .firewallBlock _ => "firewall_block"
  | .firewallRuleChanged _ => "firewall_rule_changed"
  | .authFailure _ => "auth_failure"
  | .authAnomaly _ => "auth_anomaly"
  | .sshLoginFailure _ => "ssh_login_failure"
  | .sshLoginAnomaly _ => "ssh_login_anomaly"
  | .httpAnomaly _ => "http_anomaly"
  | .dnsAnomaly _ => "dns_anomaly"
  | .portScanDetected _ => "port_scan_detected"
  | .containerAnomaly _ => "container_anomaly"
  | .containerEscapeAttempt _ => "container_escape_attempt"
  | .containerLifecycleChanged _ => "container_lifecycle_changed"

/-! ## Validation -/

/-- `NetworkIdsAlertEvidence::validate`. -/
def NetworkIdsAlertEvidence.validate (e : NetworkIdsAlertEvidence) :
    Except ValidationError Unit := do
  validateIp "source_ip" e.sourceIp
  validateIp "destination_ip" e.destinationIp
  validateText "engine" e.engine shortFieldMax
  if e.protocol ∉ ["tcp", "udp", "icmp", "icmpv6", "sctp", "other"] then
    .error (.invalidField "protocol" 6)
  else if e.observedAction ∉ ["allowed", "blocked", "unknown"] then
    .error (.invalidField "observed_action" 7)
  else if e.nativeSeverity = 0 ∨ 4 < e.nativeSeverity then
    .error (.invalidField "native_severity" 4)
  else .ok ()

/-- `SecurityEventEvidence::validate`. -/
def SecurityEventEvidence.validate : SecurityEventEvidence → Except ValidationError Unit
  | .networkIdsAlert e => e.validate
  | .firewallBlock e => do
      validateText "rule_id" e.ruleId shortFieldMax
      validateIp "source_ip" e.sourceIp
      validateOptional (validateIp "destination_ip") e.destinationIp
      validateText "protocol" e.protocol shortFieldMax
      validateOptional (fun v => validateText "interface" v shortFieldMax) e.interface
  | .firewallRuleChanged e => do
      validateText "rule_id" e.ruleId shortFieldMax
      validateText "actor" e.actor shortFieldMax
      validateText "summary" e.summary longFieldMax
  | .authFailure e => do
      validateText "username" e.username shortFieldMax
      validateIp "source_ip" e.sourceIp
      validateText "method" e.method shortFieldMax
  | .authAnomaly e => do
      validateText "username" e.username shortFieldMax
      validateIp "source_ip" e.sourceIp
      validateText "anomaly" e.anomaly shortFieldMax
      validateOptional (validateIp "previous_source_ip") e.previousSourceIp
  | .sshLoginFailure e => do
      validateText "username" e.username shortFieldMax
      validateIp "source_ip" e.sourceIp
  | .sshLoginAnomaly e => do
      validateText "username" e.username shortFieldMax
      validateIp "source_ip" e.sourceIp
      validateText "anomaly" e.anomaly shortFieldMax
  | .httpAnomaly e => do
      validateIp "source_ip" e.sourceIp
      validateText "method" e.method shortFieldMax
      validateText "path" e.path longFieldMax
      validateOptional (fun v => validateText "rule_id" v shortFieldMax) e.ruleId
  | .dnsAnomaly e => do
      validateIp "source_ip" e.sourceIp
      validateText "query_name" e.queryName longFieldMax
      validateText "query_type" e.queryType shortFieldMax
      validateText "anomaly" e.anomaly shortFieldMax
  | .portScanDetected e => do
      validateIp "source_ip" e.sourceIp
      validateIp "target_ip" e.targetIp
  | .containerAnomaly e => do
      validateText "container_id" e.containerId shortFieldMax
      validateText "image" e.image longFieldMax
      validateText "anomaly" e.anomaly shortFieldMax
  | .containerEscapeAttempt e => do
      validateText "container_id" e.containerId shortFieldMax
      validateText "image" e.image longFieldMax
      validateText "technique" e.technique shortFieldMax
  | .containerLifecycleChanged e => do
      validateOptional (fun v => validateText "container_id" v shortFieldMax) e.containerId
      validateOptional (fun v => validateText "container_name" v shortFieldMax)
        e.containerName
      validateOptional (fun v => validateText "image" v longFieldMax) e.image
      validateText "detail" e.detail longFieldMax

/-! ## Evidence as JSON -/

def jsonStr? (s : Option String) : Json := (s.map Json.string).getD .null

def jsonNat (n : Nat) : Json := .number (.int n)

def jsonNat? (n : Option Nat) : Json := (n.map jsonNat).getD .null

/-- The fields `serde` writes for the variant, without the tag. -/
def SecurityEventEvidence.fields : SecurityEventEvidence → List (String × Json)
  | .networkIdsAlert e =>
    [ ("source_ip", .string e.sourceIp)
    , ("destination_ip", .string e.destinationIp)
    , ("source_port", jsonNat? (e.sourcePort.map UInt16.toNat))
    , ("destination_port", jsonNat? (e.destinationPort.map UInt16.toNat))
    , ("protocol", .string e.protocol)
    , ("engine", .string e.engine)
    , ("signature_id", jsonNat e.signatureId.toNat)
    , ("generator_id", jsonNat e.generatorId.toNat)
    , ("signature_revision", jsonNat e.signatureRevision.toNat)
    , ("native_severity", jsonNat e.nativeSeverity.toNat)
    , ("observed_action", .string e.observedAction)
    , ("flow_id", jsonNat? (e.flowId.map UInt64.toNat)) ]
  | .firewallBlock e =>
    [ ("rule_id", .string e.ruleId)
    , ("source_ip", .string e.sourceIp)
    , ("destination_ip", jsonStr? e.destinationIp)
    , ("destination_port", jsonNat? (e.destinationPort.map UInt16.toNat))
    , ("protocol", .string e.protocol)
    , ("interface", jsonStr? e.interface) ]
  | .firewallRuleChanged e =>
    [ ("rule_id", .string e.ruleId)
    , ("actor", .string e.actor)
    , ("change", .string e.change.asStr)
    , ("summary", .string e.summary) ]
  | .authFailure e =>
    [ ("username", .string e.username)
    , ("source_ip", .string e.sourceIp)
    , ("method", .string e.method)
    , ("attempt_count", jsonNat e.attemptCount.toNat) ]
  | .authAnomaly e =>
    [ ("username", .string e.username)
    , ("source_ip", .string e.sourceIp)
    , ("anomaly", .string e.anomaly)
    , ("previous_source_ip", jsonStr? e.previousSourceIp) ]
  | .sshLoginFailure e =>
    [ ("username", .string e.username)
    , ("source_ip", .string e.sourceIp)
    , ("attempt_count", jsonNat e.attemptCount.toNat) ] ++
      -- `skip_serializing_if = "Option::is_none"`
      (e.invalidUser.map (fun b => ("invalid_user", Json.bool b))).toList
  | .sshLoginAnomaly e =>
    [ ("username", .string e.username)
    , ("source_ip", .string e.sourceIp)
    , ("anomaly", .string e.anomaly) ]
  | .httpAnomaly e =>
    [ ("source_ip", .string e.sourceIp)
    , ("method", .string e.method)
    , ("path", .string e.path)
    , ("status_code", jsonNat e.statusCode.toNat)
    , ("rule_id", jsonStr? e.ruleId) ]
  | .dnsAnomaly e =>
    [ ("source_ip", .string e.sourceIp)
    , ("query_name", .string e.queryName)
    , ("query_type", .string e.queryType)
    , ("anomaly", .string e.anomaly) ]
  | .portScanDetected e =>
    [ ("source_ip", .string e.sourceIp)
    , ("target_ip", .string e.targetIp)
    , ("port_count", jsonNat e.portCount.toNat)
    , ("window_seconds", jsonNat e.windowSeconds.toNat) ]
  | .containerAnomaly e =>
    [ ("container_id", .string e.containerId)
    , ("image", .string e.image)
    , ("anomaly", .string e.anomaly) ]
  | .containerEscapeAttempt e =>
    [ ("container_id", .string e.containerId)
    , ("image", .string e.image)
    , ("technique", .string e.technique) ]
  | .containerLifecycleChanged e =>
    [ ("container_id", jsonStr? e.containerId)
    , ("container_name", jsonStr? e.containerName)
    , ("image", jsonStr? e.image)
    , ("action", .string e.action.asStr)
    , ("detail", .string e.detail) ]

/-- `serde_json::to_value` of the evidence, internally tagged. -/
def SecurityEventEvidence.toJson (e : SecurityEventEvidence) : Json :=
  .ofFields (("event_type", .string e.eventType) :: e.fields)

/-! ## Envelopes -/

inductive Severity
  | info | low | medium | high | critical
deriving DecidableEq, Repr

def Severity.asStr : Severity → String
  | .info => "info"
  | .low => "low"
  | .medium => "medium"
  | .high => "high"
  | .critical => "critical"

structure SensorEnvelope where
  /-- nanoseconds since the Unix epoch -/
  occurredAt : Int
  source : String
  severity : Severity
  resource : String
  dedupeKey : String
  evidence : SecurityEventEvidence
deriving DecidableEq, Repr

/-- `SensorEnvelope::event_type`. -/
def SensorEnvelope.eventType (e : SensorEnvelope) : String := e.evidence.eventType

/-- `SensorEnvelope::validate`. -/
def SensorEnvelope.validate (e : SensorEnvelope) : Except ValidationError Unit := do
  validateText "source" e.source shortFieldMax
  validateText "resource" e.resource resourceMax
  validateText "dedupe_key" e.dedupeKey dedupeKeyMax
  e.evidence.validate

end Clawforge.SecurityEvents

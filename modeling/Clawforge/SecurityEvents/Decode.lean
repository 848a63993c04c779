import Clawforge.SecurityEvents.Envelope

/-!
# Reading an envelope

The `Deserialize` that `serde` derives for a sensor envelope, from the JSON of one
item: the envelope's own fields, and those of the evidence beside them under the tag
`event_type`. Other fields are ignored. How the `chrono` crate reads a time is a
parameter.
-/

namespace Clawforge.SecurityEvents

/-! ## Fields -/

/-- A field that has to be there. -/
def field {α : Type} (row : Json) (key : String) (read : Json → Option α) : Option α :=
  (row.get key).bind read

/-- A field of an `Option` type: nothing and `null` are `None`. -/
def optionField {α : Type} (row : Json) (key : String) (read : Json → Option α) :
    Option (Option α) :=
  match row.get key with
  | none | some .null => some none
  | some value => (read value).map some

def readUnsigned (limit : Nat) : Json → Option Nat
  | .number (.int n) => if 0 ≤ n ∧ n < limit then some n.toNat else none
  | _ => none

def readU8 (value : Json) : Option UInt8 := (readUnsigned (2 ^ 8) value).map UInt8.ofNat

def readU16 (value : Json) : Option UInt16 := (readUnsigned (2 ^ 16) value).map UInt16.ofNat

def readU32 (value : Json) : Option UInt32 := (readUnsigned (2 ^ 32) value).map UInt32.ofNat

def readU64 (value : Json) : Option UInt64 := (readUnsigned (2 ^ 64) value).map UInt64.ofNat

/-- A unit variant, by its name; `serde_json` also takes an object from the name to `null`. -/
def readName {α : Type} (name : α → String) (variants : List α) (value : Json) : Option α :=
  value.asStr.bind (fun s => variants.find? (fun v => name v = s))

def readSeverity : Json → Option Severity :=
  readName Severity.asStr [.info, .low, .medium, .high, .critical]

def readRuleChangeKind : Json → Option RuleChangeKind :=
  readName RuleChangeKind.asStr [.added, .modified, .removed]

def readContainerLifecycleAction : Json → Option ContainerLifecycleAction :=
  readName ContainerLifecycleAction.asStr
    [ .created, .started, .stopped, .destroyed, .restarted, .networkConnected
    , .networkDisconnected, .imagePulled, .imageRemoved ]

/-! ## Evidence -/

def NetworkIdsAlertEvidence.ofJson (row : Json) : Option NetworkIdsAlertEvidence := do
  let sourceIp ← field row "source_ip" Json.asStr
  let destinationIp ← field row "destination_ip" Json.asStr
  let sourcePort ← optionField row "source_port" readU16
  let destinationPort ← optionField row "destination_port" readU16
  let protocol ← field row "protocol" Json.asStr
  let engine ← field row "engine" Json.asStr
  let signatureId ← field row "signature_id" readU32
  let generatorId ← field row "generator_id" readU32
  let signatureRevision ← field row "signature_revision" readU32
  let nativeSeverity ← field row "native_severity" readU8
  let observedAction ← field row "observed_action" Json.asStr
  let flowId ← optionField row "flow_id" readU64
  some
    { sourceIp, destinationIp, sourcePort, destinationPort, protocol, engine, signatureId,
      generatorId, signatureRevision, nativeSeverity, observedAction, flowId }

def FirewallBlockEvidence.ofJson (row : Json) : Option FirewallBlockEvidence := do
  let ruleId ← field row "rule_id" Json.asStr
  let sourceIp ← field row "source_ip" Json.asStr
  let destinationIp ← optionField row "destination_ip" Json.asStr
  let destinationPort ← optionField row "destination_port" readU16
  let protocol ← field row "protocol" Json.asStr
  let interface ← optionField row "interface" Json.asStr
  some { ruleId, sourceIp, destinationIp, destinationPort, protocol, interface }

def FirewallRuleChangedEvidence.ofJson (row : Json) :
    Option FirewallRuleChangedEvidence := do
  let ruleId ← field row "rule_id" Json.asStr
  let actor ← field row "actor" Json.asStr
  let change ← field row "change" readRuleChangeKind
  let summary ← field row "summary" Json.asStr
  some { ruleId, actor, change, summary }

def AuthFailureEvidence.ofJson (row : Json) : Option AuthFailureEvidence := do
  let username ← field row "username" Json.asStr
  let sourceIp ← field row "source_ip" Json.asStr
  let method ← field row "method" Json.asStr
  let attemptCount ← field row "attempt_count" readU32
  some { username, sourceIp, method, attemptCount }

def AuthAnomalyEvidence.ofJson (row : Json) : Option AuthAnomalyEvidence := do
  let username ← field row "username" Json.asStr
  let sourceIp ← field row "source_ip" Json.asStr
  let anomaly ← field row "anomaly" Json.asStr
  let previousSourceIp ← optionField row "previous_source_ip" Json.asStr
  some { username, sourceIp, anomaly, previousSourceIp }

def SshLoginFailureEvidence.ofJson (row : Json) : Option SshLoginFailureEvidence := do
  let username ← field row "username" Json.asStr
  let sourceIp ← field row "source_ip" Json.asStr
  let attemptCount ← field row "attempt_count" readU32
  let invalidUser ← optionField row "invalid_user" Json.asBool
  some { username, sourceIp, attemptCount, invalidUser }

def SshLoginAnomalyEvidence.ofJson (row : Json) : Option SshLoginAnomalyEvidence := do
  let username ← field row "username" Json.asStr
  let sourceIp ← field row "source_ip" Json.asStr
  let anomaly ← field row "anomaly" Json.asStr
  some { username, sourceIp, anomaly }

def HttpAnomalyEvidence.ofJson (row : Json) : Option HttpAnomalyEvidence := do
  let sourceIp ← field row "source_ip" Json.asStr
  let method ← field row "method" Json.asStr
  let path ← field row "path" Json.asStr
  let statusCode ← field row "status_code" readU16
  let ruleId ← optionField row "rule_id" Json.asStr
  some { sourceIp, method, path, statusCode, ruleId }

def DnsAnomalyEvidence.ofJson (row : Json) : Option DnsAnomalyEvidence := do
  let sourceIp ← field row "source_ip" Json.asStr
  let queryName ← field row "query_name" Json.asStr
  let queryType ← field row "query_type" Json.asStr
  let anomaly ← field row "anomaly" Json.asStr
  some { sourceIp, queryName, queryType, anomaly }

def PortScanDetectedEvidence.ofJson (row : Json) : Option PortScanDetectedEvidence := do
  let sourceIp ← field row "source_ip" Json.asStr
  let targetIp ← field row "target_ip" Json.asStr
  let portCount ← field row "port_count" readU32
  let windowSeconds ← field row "window_seconds" readU32
  some { sourceIp, targetIp, portCount, windowSeconds }

def ContainerAnomalyEvidence.ofJson (row : Json) : Option ContainerAnomalyEvidence := do
  let containerId ← field row "container_id" Json.asStr
  let image ← field row "image" Json.asStr
  let anomaly ← field row "anomaly" Json.asStr
  some { containerId, image, anomaly }

def ContainerEscapeAttemptEvidence.ofJson (row : Json) :
    Option ContainerEscapeAttemptEvidence := do
  let containerId ← field row "container_id" Json.asStr
  let image ← field row "image" Json.asStr
  let technique ← field row "technique" Json.asStr
  some { containerId, image, technique }

def ContainerLifecycleChangedEvidence.ofJson (row : Json) :
    Option ContainerLifecycleChangedEvidence := do
  let containerId ← optionField row "container_id" Json.asStr
  let containerName ← optionField row "container_name" Json.asStr
  let image ← optionField row "image" Json.asStr
  let action ← field row "action" readContainerLifecycleAction
  let detail ← field row "detail" Json.asStr
  some { containerId, containerName, image, action, detail }

/-- The variant the tag names. -/
def SecurityEventEvidence.ofJson (row : Json) : Option SecurityEventEvidence :=
  match (row.get "event_type").bind Json.asStr with
  | some "network_ids_alert" => (NetworkIdsAlertEvidence.ofJson row).map .networkIdsAlert
  | some "firewall_block" => (FirewallBlockEvidence.ofJson row).map .firewallBlock
  | some "firewall_rule_changed" =>
    (FirewallRuleChangedEvidence.ofJson row).map .firewallRuleChanged
  | some "auth_failure" => (AuthFailureEvidence.ofJson row).map .authFailure
  | some "auth_anomaly" => (AuthAnomalyEvidence.ofJson row).map .authAnomaly
  | some "ssh_login_failure" => (SshLoginFailureEvidence.ofJson row).map .sshLoginFailure
  | some "ssh_login_anomaly" => (SshLoginAnomalyEvidence.ofJson row).map .sshLoginAnomaly
  | some "http_anomaly" => (HttpAnomalyEvidence.ofJson row).map .httpAnomaly
  | some "dns_anomaly" => (DnsAnomalyEvidence.ofJson row).map .dnsAnomaly
  | some "port_scan_detected" => (PortScanDetectedEvidence.ofJson row).map .portScanDetected
  | some "container_anomaly" => (ContainerAnomalyEvidence.ofJson row).map .containerAnomaly
  | some "container_escape_attempt" =>
    (ContainerEscapeAttemptEvidence.ofJson row).map .containerEscapeAttempt
  | some "container_lifecycle_changed" =>
    (ContainerLifecycleChangedEvidence.ofJson row).map .containerLifecycleChanged
  | _ => none

/-! ## Envelopes -/

/-- `SensorEnvelope::deserialize`. -/
def SensorEnvelope.ofJson (parseTime : String → Option Int) (row : Json) :
    Option SensorEnvelope := do
  let occurredAt ← field row "occurred_at" (fun v => v.asStr.bind parseTime)
  let source ← field row "source" Json.asStr
  let severity ← field row "severity" readSeverity
  let resource ← field row "resource" Json.asStr
  let dedupeKey ← field row "dedupe_key" Json.asStr
  let evidence ← SecurityEventEvidence.ofJson row
  some { occurredAt, source, severity, resource, dedupeKey, evidence }

end Clawforge.SecurityEvents

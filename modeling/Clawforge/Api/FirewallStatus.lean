import Clawforge.Storage.Publication

/-!
# The firewall status, from the agent API to the MCP tool

The view `agent_firewall_status_view` builds of receipts, expired targets, kill-switch requests
and rollback latencies, and the tool `get_firewall_status` that fetches it, redacts it and returns
it only when `safe_firewall_status_projection` accepts it.
-/

namespace Clawforge.FirewallStatus

open EventDelivery

/-! ## The view -/

/-- An `f64` by the text `serde_json` prints for it; it prints `null` for what is not finite. -/
abbrev Float64 := Option String

/-- `json!` of an `f64`. -/
def Float64.toJson : Float64 → Json
  | some text => .number (.float text)
  | none => .null

/-- `FirewallRollbackLatency`. -/
structure FirewallRollbackLatency where
  windowSeconds : Int
  sampleCount : Int
  p50Seconds : Float64
  p95Seconds : Float64
  maxSeconds : Float64
deriving DecidableEq, Repr

/-- The fields of an `ExpiredFirewallTarget` the view reads. -/
structure ExpiredFirewallTarget where
  receiptId : Uuid
  adapter : String
deriving DecidableEq, Repr

/-- `json!` of an `Option<&Value>`. -/
def field (value : Json) (key : String) : Json := (value.get key).getD .null

/-- `json!` of an integer. -/
def jsonInt (n : Int) : Json := .number (.int n)

def adapterName : Option String → String
  | some "nftables" => "nftables"
  | some "haproxy" => "haproxy"
  | some "haproxy_ratelimit" => "haproxy_ratelimit"
  | some "tailscale" => "tailscale"
  | some "goaway" => "goaway"
  | _ => "unknown"

def adapter (value : Json) : String := adapterName ((value.get "adapter").bind Json.asStr)

def receiptKind (value : Json) : String :=
  match (value.get "receipt_kind").bind Json.asStr with
  | some "apply" => "apply"
  | some "rollback" => "rollback"
  | _ => "unknown"

def verification (value : Json) : Option String :=
  match (value.get "verification_result").bind Json.asStr with
  | some "pending" => some "pending"
  | some "verified" => some "verified"
  | some "mismatch" => some "mismatch"
  | some "failed" => some "failed"
  | _ => none

/-- `json!` of an `Option<&str>`. -/
def jsonOption : Option String → Json
  | some s => .string s
  | none => .null

def receiptRow (value : Json) : Json := .ofFields
  [("id", field value "id"), ("execution_id", field value "execution_id"),
   ("adapter", .string (adapter value)), ("receipt_kind", .string (receiptKind value)),
   ("is_dry_run", field value "is_dry_run"),
   ("verification_result", jsonOption (verification value)),
   ("ttl_seconds", field value "ttl_seconds"), ("expires_at", field value "expires_at"),
   ("created_at", field value "created_at")]

def expiredRow (target : ExpiredFirewallTarget) : Json := .ofFields
  [("receipt_id", .string (uuidText target.receiptId)),
   ("adapter", .string (adapterName (some target.adapter)))]

def killSwitchRow (value : Json) : Json := .ofFields
  [("id", field value "id"), ("adapter", .string (adapter value)),
   ("created_at", field value "created_at"), ("processed_at", field value "processed_at")]

def rollbackLatencyView (latency : FirewallRollbackLatency) : Json := .ofFields
  [("window_seconds", jsonInt latency.windowSeconds),
   ("sample_count", jsonInt latency.sampleCount), ("p50_seconds", latency.p50Seconds.toJson),
   ("p95_seconds", latency.p95Seconds.toJson), ("max_seconds", latency.maxSeconds.toJson)]

/-- The fields of the view, in the order of the source. -/
def viewFields (receipts : List Json) (expired : List ExpiredFirewallTarget)
    (killSwitch : List Json) (rollbackLatency : FirewallRollbackLatency) : List (String × Json) :=
  [("projection_version", jsonInt 1), ("expired_total", jsonInt expired.length),
   ("expired_truncated", .bool (decide (expired.length > 100))),
   ("receipts", .array (receipts.map receiptRow)),
   ("expired", .array ((expired.take 100).map expiredRow)),
   ("kill_switch", .array (killSwitch.map killSwitchRow)),
   ("rollback_latency", rollbackLatencyView rollbackLatency)]

def agentFirewallStatusView (receipts : List Json) (expired : List ExpiredFirewallTarget)
    (killSwitch : List Json) (rollbackLatency : FirewallRollbackLatency) : Json :=
  .ofFields (viewFields receipts expired killSwitch rollbackLatency)

/-! ## The tool -/

def redactedKeys : List String :=
  ["payload", "metadata", "networks", "node_identities", "device_tags", "groups", "raw_feed",
   "raw_payload", "candidate_id", "correlation_key", "body", "author", "token", "secret",
   "password", "api_key", "authorization"]

mutual

def redact : Json → Json
  | .array values => .array (redactItems values)
  | .object object => .object (redactFields object)
  | .null => .null
  | .bool b => .bool b
  | .number n => .number n
  | .string s => .string s

def redactItems : List Json → List Json
  | [] => []
  | value :: values => redact value :: redactItems values

def redactFields : List (String × Json) → List (String × Json)
  | [] => []
  | (key, value) :: object =>
    if key ∈ redactedKeys then redactFields object
    else (key, redact value) :: redactFields object

end

/-- `Value::as_object`. -/
def asObject : Json → Option (List (String × Json))
  | .object object => some object
  | _ => none

def onlyFields (value : Json) (allowed : List String) : Bool :=
  match asObject value with
  | some object => object.all fun f => decide (f.1 ∈ allowed)
  | none => false

def documentFields : List String :=
  ["projection_version", "expired_total", "expired_truncated", "receipts", "expired",
   "kill_switch"]

/-- The lists of the document, each with the fields its rows may have. -/
def rowFields : List (String × List String) :=
  [("receipts", ["id", "execution_id", "adapter", "receipt_kind", "is_dry_run",
      "verification_result", "ttl_seconds", "expires_at", "created_at"]),
   ("expired", ["receipt_id", "adapter"]),
   ("kill_switch", ["id", "adapter", "created_at", "processed_at"])]

def safeFirewallStatusProjection (data : Json) : Bool :=
  match asObject data with
  | none => false
  | some object =>
    if (data.get "projection_version").bind Json.asU64 ≠ some 1 ∨
        ¬ (object.all fun f => decide (f.1 ∈ documentFields)) then false
    else rowFields.all fun f =>
      match (data.get f.1).bind Json.asArray with
      | some rows => rows.all fun row => onlyFields row f.2
      | none => false

/-- The API's envelope, and the tool's response. -/
structure Envelope where
  status : String
  data : Json
  timestamp : String
  pagination : Option Json
  errors : List String
deriving DecidableEq

/-- `ErrorData`: what went wrong on the caller's side, and what inside. -/
inductive ErrorData
  | invalidRequest (message : String) (data : Option Json)
  | internal (message : String) (data : Option Json)
deriving DecidableEq

def maxResponseBytes : Nat := 1024 * 1024

def tooLarge (message : String) : ErrorData :=
  .internal message (some (.ofFields [("max_bytes", jsonInt maxResponseBytes)]))

/-- What became of the request to the API. -/
inductive Upstream
  | failed
  | broken
  /-- more bytes than the limit -/
  | oversized
  /-- an HTTP status, and the body where it parses -/
  | answered (status : Nat) (body : Option Envelope)
deriving DecidableEq

/-- `ToolResponse::from`. -/
def toolResponse (body : Envelope) : Envelope :=
  { body with data := redact body.data, pagination := body.pagination.map redact }

/-- `serde_json::to_vec(&response)`. -/
def responseText (response : Envelope) : String :=
  "\x7b\"status\":" ++ Json.quote response.status ++ ",\"data\":" ++ response.data.render ++
    ",\"timestamp\":" ++ Json.quote response.timestamp ++ ",\"pagination\":" ++
    (response.pagination.getD .null).render ++ ",\"errors\":" ++
    (Json.array (response.errors.map .string)).render ++ "\x7d"

def ensureResponseSize (response : Envelope) : Except ErrorData Envelope :=
  if (responseText response).utf8ByteSize > maxResponseBytes then
    .error (tooLarge "MCP response exceeds the configured size limit")
  else .ok response

def upstreamError (status : Nat) : ErrorData :=
  let data := some (Json.ofFields [("upstream_status", jsonInt status)])
  if status = 401 then .invalidRequest "Agent API authentication failed" data
  else if status = 403 then .invalidRequest "Agent API scope is not granted" data
  else if status = 404 then .invalidRequest "Agent API resource was not found" data
  else if status = 429 ∨ (500 ≤ status ∧ status < 600) then
    .internal "Agent API temporarily unavailable" data
  else .internal "Agent API request was not successful" data

def requestInner : Upstream → Except ErrorData Envelope
  | .failed => .error (.internal "Agent API request failed" none)
  | .broken => .error (.internal "Agent API response invalid" none)
  | .oversized => .error (tooLarge "Agent API response exceeds the MCP size limit")
  | .answered _ none => .error (.internal "Agent API response invalid" none)
  | .answered status (some body) =>
    if ¬ (200 ≤ status ∧ status < 300) ∨ body.status ≠ "ok" then .error (upstreamError status)
    else ensureResponseSize (toolResponse body)

def scopeFirewall : String := "agent:firewall:read"

def scopeAll : String := "agent:read"

def requireScope (mcpScopes : List String) (scope : String) : Except ErrorData Unit :=
  if scope ∈ mcpScopes ∨ scopeAll ∈ mcpScopes then .ok ()
  else .error (.invalidRequest "MCP tool scope is not granted"
    (some (.ofFields [("required_scope", .string scope)])))

def getFirewallStatus (mcpScopes : List String) (upstream : Upstream) :
    Except ErrorData Envelope := do
  requireScope mcpScopes scopeFirewall
  let response ← requestInner upstream
  if safeFirewallStatusProjection response.data then pure response
  else .error (.internal "Firewall status projection incompatible" none)

end Clawforge.FirewallStatus

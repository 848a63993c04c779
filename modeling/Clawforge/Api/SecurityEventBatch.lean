import Clawforge.Storage.SecurityEvents

/-!
# The security event ingress

`internal_security_events_batch` over the recording of sensor events: each item is
parsed, validated, compared with the server's clock and recorded, and whatever goes
wrong becomes the text of its own result.

A turn is the schedule of one item: what others do before it, and the statements of
its call with whatever others execute in between.
-/

namespace Clawforge.SecurityEventIngress

open Kit SecurityEvents SecurityEventStore

/-- `SECURITY_EVENT_BATCH_MAX_ITEMS`. -/
def batchMaxItems : Nat := 100

/-- What the ingress rests on: the store's backend, `serde_json::from_value` of an
envelope, and how far from the server's clock an event may lie, in nanoseconds. -/
structure Ingress extends Backend where
  decode : Json → Except String SensorEnvelope
  maxFutureSkew : Int
  maxPastAge : Int

/-! ## One item -/

/-- `Duration::num_seconds`. -/
def numSeconds (nanos : Int) : Int := nanos.tdiv 1000000000

/-- `check_security_event_clock_skew`. -/
def checkClockSkew (i : Ingress) (occurredAt now : Int) : Except String Unit :=
  let skew := occurredAt - now
  if i.maxFutureSkew < skew then
    .error ("occurred_at is " ++ toString (numSeconds skew) ++
      " second(s) ahead of the server clock, beyond the " ++
      toString (numSeconds i.maxFutureSkew) ++ "-second limit")
  else if i.maxPastAge < -skew then
    .error ("occurred_at is " ++ toString (numSeconds (-skew)) ++
      " second(s) old, beyond the " ++ toString (numSeconds i.maxPastAge) ++
      "-second limit")
  else .ok ()

/-- The process of the call `k` crashes. -/
def crashes (k : Nat) : Action → Bool
  | .crash k' => k' = k
  | _ => false

/-- The statements of the call `k`, among those of others, up to its answer; a call
whose process crashes has none. -/
def awaitAnswer (b : Backend) (k : Nat) :
    World → List Action → Option (Except String Uuid × World)
  | w, [] =>
    if (w.calls k).isNone then w.answers.head?.map (fun a => (a.result, w)) else none
  | w, a :: rest =>
    if (w.calls k).isNone ∨ crashes k a then none
    else (exec b w a).bind (fun v => awaitAnswer b k v rest)

/-- `record_security_event`, from the call to its answer. -/
def recordSecurityEvent (b : Backend) (w : World) (k : Nat) (sensorId : Uuid)
    (e : SensorEnvelope) (statements : List Action) : Option (Except String Uuid × World) :=
  (exec b w (.call k sensorId e)).bind (fun v => awaitAnswer b k v statements)

structure Turn where
  before : List Action
  slot : Nat
  statements : List Action

/-- `process_security_event_item`. -/
def processSecurityEventItem (i : Ingress) (w : World) (sensorId : Uuid) (now : Int)
    (raw : Json) (turn : Turn) : Option (Except String Uuid × World) :=
  match i.decode raw with
  | .error error => some (.error ("invalid envelope: " ++ error), w)
  | .ok e =>
    match e.validate with
    | .error error => some (.error error.text, w)
    | .ok () =>
      match checkClockSkew i e.occurredAt now with
      | .error error => some (.error error, w)
      | .ok () =>
        recordSecurityEvent i.toBackend w turn.slot sensorId e turn.statements

/-! ## Batches -/

/-- `SecurityEventBatchItemResult`. -/
structure ItemResult where
  index : Nat
  status : String
  eventId : Option Uuid
  error : Option String
deriving DecidableEq

def itemResult (index : Nat) : Except String Uuid → ItemResult
  | .ok id => { index, status := "accepted", eventId := some id, error := none }
  | .error error => { index, status := "rejected", eventId := none, error := some error }

/-- The loop over the items, each with its turn. -/
def processItems (i : Ingress) (sensorId : Uuid) (now : Int) :
    World → Nat → List (Json × Turn) → Option (List ItemResult × World)
  | w, _, [] => some ([], w)
  | w, index, (raw, turn) :: rest => do
      let w ← TSys.execAll (exec i.toBackend) w turn.before
      let (result, w) ← processSecurityEventItem i w sensorId now raw turn
      let (results, w) ← processItems i sensorId now w (index + 1) rest
      some (itemResult index result :: results, w)

structure BatchAnswer where
  results : List ItemResult
  accepted : Nat
  rejected : Nat
deriving DecidableEq

def batchAnswer (results : List ItemResult) : BatchAnswer :=
  let accepted := results.countP (fun r => r.status = "accepted")
  { results, accepted, rejected := results.length - accepted }

/-- What `authenticate_security_sensor` leads to. -/
inductive Authentication
  | noToken
  | unavailable
  | refused
  | sensor (id : Uuid)

structure ApiError where
  status : Nat
  message : String
deriving DecidableEq, Repr

/-- `internal_security_events_batch`, without the audit event it ends with. -/
def internalSecurityEventsBatch (i : Ingress) (w : World) (authentication : Authentication)
    (now : Int) (items : List (Json × Turn)) :
    Option (Except ApiError BatchAnswer × World) :=
  match authentication with
  | .noToken => some (.error ⟨401, "sensor bearer token required"⟩, w)
  | .unavailable => some (.error ⟨503, "sensor authentication unavailable"⟩, w)
  | .refused =>
    some (.error ⟨401, "invalid, disabled or revoked sensor credential"⟩, w)
  | .sensor sensorId =>
    if items = [] then some (.error ⟨400, "batch must not be empty"⟩, w)
    else if batchMaxItems < items.length then
      some (.error ⟨400, "batch exceeds the " ++ toString batchMaxItems ++
        "-item limit"⟩, w)
    else
      (processItems i sensorId now w 0 items).map (fun r => (.ok (batchAnswer r.1), r.2))

/-! ## The answer as JSON -/

def ItemResult.toJson (r : ItemResult) : Json :=
  .ofFields ([("index", jsonNat r.index), ("status", .string r.status)] ++
    -- `skip_serializing_if = "Option::is_none"`
    (r.eventId.map (fun id => ("event_id", Json.string (EventDelivery.uuidText id)))).toList ++
    (r.error.map (fun error => ("error", Json.string error))).toList)

/-- `envelope` of the answer. -/
def BatchAnswer.body (timestamp : String) (a : BatchAnswer) : Json :=
  .ofFields
    [ ("status", .string "ok")
    , ("data", .ofFields
        [ ("results", .array (a.results.map ItemResult.toJson))
        , ("accepted", jsonNat a.accepted)
        , ("rejected", jsonNat a.rejected) ])
    , ("timestamp", .string timestamp)
    , ("pagination", .null)
    , ("errors", .array []) ]

end Clawforge.SecurityEventIngress

import Clawforge.Storage.Publication

/-!
# Recording sensor events

`record_security_event` over the table `security_events` beside the event bus,
and the system of any number of senders calling it.

A call is one transaction that writes the row or finds it, for a row that was
there a query whether its canonical event exists, and the publication. Each is
one step, placed where it takes effect; it may fail, or take effect without the
call learning of it, and the call may end between any two. The reputation lookup
and the resolution table decide nothing here: what the lookup answers is any
value, and the resolution is left out.
-/

namespace Clawforge.SecurityEventStore

open Kit EventDelivery Pseudonym SecurityEvents

/-! ## Rows -/

/-- A row of `security_events`. -/
structure EventRow where
  id : Uuid
  eventType : String
  sensorId : Uuid
  /-- microseconds since the Unix epoch -/
  occurredAt : Int
  severity : String
  resource : String
  dedupeKey : String
  evidence : Json
deriving DecidableEq

/-- What the crate rests on: its environment, and the microseconds a
`TIMESTAMPTZ` column keeps of an instant in nanoseconds. -/
structure Backend extends Env where
  timestamptz : Int → Int

/-- `DateTime::timestamp_micros`. -/
def timestampMicros (nanos : Int) : Int := nanos / 1000

/-- What a call stores of its envelope. -/
structure Observation where
  resource : String
  evidence : Json
deriving DecidableEq

/-- The pseudonymization at the head of a call. -/
def observe (env : Env) (e : SensorEnvelope) : Except String Observation := do
  let resource ← pseudonymizeField env e.resource
  let evidence ← pseudonymizeEvidence env e.evidence
  .ok { resource, evidence := evidence.toJson }

def newRow (b : Backend) (id sensorId : Uuid) (e : SensorEnvelope) (o : Observation) :
    EventRow where
  id
  eventType := e.eventType
  sensorId
  occurredAt := b.timestamptz e.occurredAt
  severity := e.severity.asStr
  resource := o.resource
  dedupeKey := e.dedupeKey
  evidence := o.evidence

/-- PostgreSQL stores no U+0000 in a text. -/
def noNul (s : String) : Bool := ¬ s.toList.contains (Char.ofNat 0)

mutual

/-- Nor in a `JSONB` value. -/
def jsonNoNul : Json → Bool
  | .object fields => fieldsNoNul fields
  | .array xs => itemsNoNul xs
  | .string s => noNul s
  | .null | .bool _ | .number _ => true

def fieldsNoNul : List (String × Json) → Bool
  | [] => true
  | (k, v) :: rest => noNul k && jsonNoNul v && fieldsNoNul rest

def itemsNoNul : List Json → Bool
  | [] => true
  | x :: rest => jsonNoNul x && itemsNoNul rest

end

/-- The row meets the `CHECK`s of the table and has no text PostgreSQL refuses. -/
def Storable (r : EventRow) : Prop :=
  (1 ≤ r.resource.toList.length ∧ r.resource.toList.length ≤ 512) ∧
    (1 ≤ r.dedupeKey.toList.length ∧ r.dedupeKey.toList.length ≤ 256) ∧
    noNul r.resource = true ∧ noNul r.dedupeKey = true ∧ jsonNoNul r.evidence = true

instance (r : EventRow) : Decidable (Storable r) := by
  unfold Storable
  infer_instance

/-- `SELECT … WHERE sensor_id=$1 AND dedupe_key=$2`. -/
def findRow (T : Table EventRow.id) (sensorId : Uuid) (dedupeKey : String) :
    Option EventRow :=
  T.rows.find? (fun r => r.sensorId = sensorId ∧ r.dedupeKey = dedupeKey)

/-- `unchanged`. -/
def Unchanged (r : EventRow) (e : SensorEnvelope) (o : Observation) : Prop :=
  r.eventType = e.eventType ∧ r.severity = e.severity.asStr ∧
    r.occurredAt = timestampMicros e.occurredAt ∧ r.resource = o.resource ∧
    r.evidence = o.evidence

instance (r e o) : Decidable (Unchanged r e o) := by
  unfold Unchanged
  infer_instance

def changedText (dedupeKey : String) : String :=
  "dedupe_key " ++ Text.debug dedupeKey ++
    " was already used by this sensor with different content"

/-! ## The statements of a call -/

structure Store where
  bus : EventDelivery.World
  rows : Table EventRow.id
  /-- `security_sensors.last_seen_at` -/
  lastSeen : Uuid → Option Instant

/-- Where a call stands between two statements. -/
inductive Stage
  | started
  /-- the row was there, with the same content -/
  | checking (id : Uuid)
  | publishing (id : Uuid)
deriving DecidableEq

/-- What a statement leads to: the next one, or the call's result. -/
inductive Progress
  | next (stage : Stage)
  | done (result : Except String Uuid)

/-- What the call goes on with where its transaction left it at `stage`. -/
def afterCommit (stage : Stage) : Outcome → Progress
  | .committed => .next stage
  | .unacknowledged error | .failed error => .done (.error error)

/-- The transaction that finds the row, with the comparison after it. -/
def foundRow (r : EventRow) (e : SensorEnvelope) (o : Observation) : Outcome → Progress
  | .committed =>
    if Unchanged r e o then .next (.checking r.id)
    else .done (.error (changedText e.dedupeKey))
  | .unacknowledged error | .failed error => .done (.error error)

/-- The first transaction: `INSERT … ON CONFLICT (sensor_id,dedupe_key) DO NOTHING`
and what follows in it. -/
def openRow (b : Backend) (s : Store) (now : Instant) (id sensorId : Uuid)
    (e : SensorEnvelope) (o : Observation) (outcome : Outcome) : Option (Progress × Store) :=
  match findRow s.rows sensorId e.dedupeKey with
  | some r => some (foundRow r e o outcome, s)
  | none =>
    if outcome.takesEffect then
      if Storable (newRow b id sensorId e o) then
        (s.rows.insert? (newRow b id sensorId e o)).map (fun rows =>
          (afterCommit (.publishing id) outcome,
            { s with rows, lastSeen := Function.update s.lastSeen sensorId (some now) }))
      else none
    else some (afterCommit (.publishing id) outcome, s)

/-- The canonical event of a row exists. -/
def EventExists (s : Store) (id : Uuid) : Prop :=
  ∃ x ∈ s.bus.db.events.rows, x.dedupeKey = (EventSource.securityEvent id).dedupeKey

instance (s : Store) (id : Uuid) : Decidable (EventExists s id) := by
  unfold EventExists
  infer_instance

/-- `SELECT EXISTS(SELECT 1 FROM events WHERE dedupe_key=$1)`, which may fail. -/
def checkEvent (s : Store) (id : Uuid) : Except String Unit → Progress
  | .error error => .done (.error error)
  | .ok () => if EventExists s id then .done (.ok id) else .next (.publishing id)

structure IpReputationHit where
  source : String
  confidence : Int
  /-- as RFC 3339 text -/
  lastSeen : String

/-- `lookup_ip_reputation(…).unwrap_or_default()`, where `row` is what its query
answers. -/
def reputation (resource : String) (row : Except String (Option IpReputationHit)) :
    Option IpReputationHit :=
  match row with
  | .ok hit => if isIp resource then hit else none
  | .error _ => none

def metadataFields (id sensorId : Uuid) (hit : Option IpReputationHit) :
    List (String × Json) :=
  [ ("security_event_id", .string (uuidText id))
  , ("sensor_id", .string (uuidText sensorId)) ] ++
    match hit with
    | none => []
    | some hit =>
      [ ("threat_intel_hit", .bool true)
      , ("threat_intel_source", .string hit.source)
      , ("threat_intel_confidence", .number (.int hit.confidence))
      , ("threat_intel_last_seen", .string hit.lastSeen) ]

/-- What a call publishes. -/
def securityEvent (b : Backend) (id sensorId : Uuid) (e : SensorEnvelope) (o : Observation)
    (hit : Option IpReputationHit) : NewEvent where
  eventType := e.eventType
  source := "sensor:" ++ uuidText sensorId
  severity := e.severity.asStr
  occurredAt := (b.timestamptz e.occurredAt).toNat
  correlationId := some o.resource
  payload := o.evidence
  metadata := .ofFields (metadataFields id sensorId hit)
  dedupeKey := (EventSource.securityEvent id).dedupeKey

/-- The publication of an event for the row `id`, and the end of the call. -/
def publishRow (env : Env) (s : Store) (now : Instant) (eventId : Uuid)
    (newId : Uuid → Uuid) (id : Uuid) (event : NewEvent) (outcome : Outcome) :
    Option (Except String Uuid × Store) :=
  match sanitizedEvent env event with
  | .error error => some (.error error, s)
  | .ok event =>
    if outcome.takesEffect then
      (publishOn s.bus now eventId newId event).map (fun r =>
        (outcome.result.map (fun _ => id), { s with bus := r.2 }))
    else some (outcome.result.map (fun _ => id), s)

/-! ## Calls -/

structure Call where
  sensorId : Uuid
  envelope : SensorEnvelope
  observation : Observation
  stage : Stage

/-- A call that is over, and what it returned. -/
structure Answer where
  sensorId : Uuid
  envelope : SensorEnvelope
  result : Except String Uuid

/-- The store, the calls in flight, and what calls have returned. The last is
bookkeeping: no statement reads it. -/
structure World extends Store where
  calls : Nat → Option Call
  answers : List Answer

def setCall (w : World) (k : Nat) (c : Option Call) : World :=
  { w with calls := Function.update w.calls k c }

/-- The call goes on, or returns. -/
def settle (w : World) (k : Nat) (c : Call) : Progress → World
  | .next stage => setCall w k (some { c with stage })
  | .done result =>
    { setCall w k none with answers := ⟨c.sensorId, c.envelope, result⟩ :: w.answers }

inductive Action
  /-- the bus, apart from publications -/
  | bus (a : EventDelivery.Action)
  /-- another publisher -/
  | publishOther (src : EventSource) (now : Instant) (eventId : Uuid)
      (newId : Uuid → Uuid) (e : NewEvent)
  | call (k : Nat) (sensorId : Uuid) (e : SensorEnvelope)
  | openRow (k : Nat) (now : Instant) (id : Uuid) (outcome : Outcome)
  | check (k : Nat) (answer : Except String Unit)
  | publish (k : Nat) (now : Instant) (eventId : Uuid) (newId : Uuid → Uuid)
      (row : Except String (Option IpReputationHit)) (outcome : Outcome)
  /-- the process of a call crashes -/
  | crash (k : Nat)

def exec (b : Backend) (w : World) : Action → Option World
  | .bus a =>
    if isPublish a then none
    else (EventDelivery.exec w.bus a).map (fun bus => { w with bus })
  | .publishOther src now eventId newId e =>
    if e.dedupeKey = src.dedupeKey ∧ src.isSecurityEvent = false then
      (publishOn w.bus now eventId newId e).map (fun r => { w with bus := r.2 })
    else none
  | .call k sensorId e =>
    match w.calls k with
    | some _ => none
    | none =>
      match observe b.toEnv e with
      | .error error =>
        some { w with answers := ⟨sensorId, e, .error error⟩ :: w.answers }
      | .ok o => some (setCall w k (some ⟨sensorId, e, o, .started⟩))
  | .openRow k now id outcome =>
    match w.calls k with
    | some ⟨sensorId, e, o, .started⟩ =>
      (openRow b w.toStore now id sensorId e o outcome).map (fun r =>
        settle { w with toStore := r.2 } k ⟨sensorId, e, o, .started⟩ r.1)
    | _ => none
  | .check k answer =>
    match w.calls k with
    | some ⟨sensorId, e, o, .checking id⟩ =>
      some (settle w k ⟨sensorId, e, o, .checking id⟩ (checkEvent w.toStore id answer))
    | _ => none
  | .publish k now eventId newId row outcome =>
    match w.calls k with
    | some ⟨sensorId, e, o, .publishing id⟩ =>
      (publishRow b.toEnv w.toStore now eventId newId id
        (securityEvent b id sensorId e o (reputation e.resource row)) outcome).map
        (fun r => settle { w with toStore := r.2 } k ⟨sensorId, e, o, .publishing id⟩
          (.done r.1))
    | _ => none
  | .crash k => some (setCall w k none)

/-- Nothing has been recorded or published; any consumers may be registered. -/
def Initial (w : World) : Prop :=
  w.bus.db.events.rows = [] ∧ w.bus.db.deliveries.rows = [] ∧ w.rows.rows = [] ∧
    (∀ k, w.calls k = none) ∧ w.answers = []

def system (b : Backend) : TSys World Action := TSys.ofExec Initial (exec b)

end Clawforge.SecurityEventStore

import Clawforge.Storage.EventDelivery
import Clawforge.Storage.Pseudonym

/-!
# Who publishes canonical events

The callers of `publish_event`, by the dedupe key each of them uses, and what
`publish_event` does to an event before it opens its transaction.
-/

namespace Clawforge.EventDelivery

open Kit Pseudonym

/-- A uuid's text: 32 hexadecimal digits in groups of 8, 4, 4, 4 and 12. -/
def uuidText (id : Uuid) : String :=
  let digits := (Nat.toDigits 16 id).leftpad 32 '0'
  String.ofList ([20, 16, 12, 8].foldl (fun text i => text.insertIdx i '-') digits)

example : uuidText 0x2f = "00000000-0000-0000-0000-00000000002f" := by decide

/-- An `i64` row id's text. -/
def decimal (n : Nat) : String := String.ofList (Nat.toDigits 10 n)

/-- The calls of `publish_event`. -/
inductive EventSource
  /-- `record_intelligence_event` and `record_operational_event` -/
  | intelligence (eventType resource : String) (nanos : Int)
  | incidentCreated (incident : Uuid)
  | incidentEscalated (incident : Uuid) (occurrence : Int)
  /-- `record_security_event` -/
  | securityEvent (id : Uuid)
  /-- `flush_audit_outbox` -/
  | audit (auditEventId : Nat)
deriving DecidableEq, Repr

def EventSource.dedupeKey : EventSource → String
  | .intelligence eventType resource nanos =>
    eventType ++ ":" ++ resource ++ ":" ++ toString nanos
  | .incidentCreated incident => "incident.created:" ++ uuidText incident
  | .incidentEscalated incident occurrence =>
    "incident.escalated:" ++ uuidText incident ++ ":" ++ toString occurrence
  | .securityEvent id => "security-event:" ++ uuidText id
  | .audit auditEventId => "audit:" ++ decimal auditEventId

def EventSource.isAudit : EventSource → Bool
  | .audit _ => true
  | _ => false

def EventSource.isSecurityEvent : EventSource → Bool
  | .securityEvent _ => true
  | _ => false

/-- What `publish_event` stores of an event: the payload and the metadata
sanitized, the correlation id pseudonymized. -/
def sanitizedEvent (env : Env) (e : NewEvent) : Except String NewEvent := do
  let payload ← sanitizeAnalysisValue env e.payload none
  let metadata ← sanitizeAnalysisValue env e.metadata none
  let correlationId ← e.correlationId.mapM (pseudonymizeCorrelationId env)
  .ok { e with payload, metadata, correlationId }

/-- The ids `Uuid::new_v4` gives the deliveries of one publication: new, and one
for each consumer. -/
def FreshIds (db : EventStore) (newId : Uuid → Uuid) : Prop :=
  ∀ c ∈ enabledConsumers db, (∀ d ∈ db.deliveries.rows, d.id ≠ newId c) ∧
    ∀ c' ∈ enabledConsumers db, newId c = newId c' → c = c'

instance (db newId) : Decidable (FreshIds db newId) := by
  unfold FreshIds
  infer_instance

/-- `publish_event` as a whole, where the ids it draws are new. -/
def publishSanitized (env : Env) (db : EventStore) (now : Instant) (eventId : Uuid)
    (newId : Uuid → Uuid) (e : NewEvent) : Option EventStore :=
  if FreshIds db newId then
    match sanitizedEvent env e with
    | .error _ => none
    | .ok e => (publishEvent db now eventId newId e).map Prod.snd
  else none

/-- What a database call tells its caller. -/
inductive Outcome
  /-- committed, and the caller knows -/
  | committed
  /-- committed, but the caller gets an error -/
  | unacknowledged (error : String)
  /-- rolled back, and the caller gets an error -/
  | failed (error : String)

/-- What the caller of a committed or lost call sees. -/
def Outcome.result : Outcome → Except String Unit
  | .committed => .ok ()
  | .unacknowledged error | .failed error => .error error

/-- The call took effect. -/
def Outcome.takesEffect : Outcome → Bool
  | .committed | .unacknowledged _ => true
  | .failed _ => false

def isPublish : Action → Bool
  | .publish _ _ _ _ => true
  | _ => false

/-- A publication, where the ids it draws are new. -/
def publishOn (w : World) (now : Instant) (eventId : Uuid) (newId : Uuid → Uuid)
    (e : NewEvent) : Option (Uuid × World) :=
  if now ≤ w.db.now ∧ FreshIds w.db newId then
    (publishEvent w.db now eventId newId e).map (fun r => (r.1, { w with db := r.2 }))
  else none

/-! ## Sound stores -/

/-- The event and the consumer of a delivery. -/
def Delivery.pair (d : Delivery) : Uuid × Uuid := (d.eventId, d.consumerId)

/-- Dedupe keys are unique, each consumer has at most one delivery of an event,
and every delivery is of a stored event. -/
structure Sound (db : EventStore) : Prop where
  keys : (db.events.rows.map (·.dedupeKey)).Nodup
  pairs : (db.deliveries.rows.map Delivery.pair).Nodup
  known : ∀ d ∈ db.deliveries, ∃ e ∈ db.events, e.eventId = d.eventId

end Clawforge.EventDelivery

import Clawforge.Storage.Alerts
import Clawforge.Storage.Incidents
import Clawforge.Storage.NotificationRules

/-!
# Recording an event

`record_intelligence_event` and `record_operational_event`: an audit row, the canonical event,
its notifications and its alert, each statement committed on its own. A call may fail or crash
between any two of them, and its caller may call again with the same event.
-/

namespace Clawforge.Recording

open Kit EventDelivery Notifications

/-! ## Tables -/

structure AuditRow where
  id : Nat
  resource : String
  details : Json
  eventType : String
  source : String
  severity : String
  reason : String
  recordedAt : Instant
deriving DecidableEq

structure Db where
  /-- the sequence behind `audit_events.id` -/
  nextAuditId : Nat
  audit : Table AuditRow.id
  incidents : Table Incidents.IncidentRow.id
  bus : EventStore
  notices : RuleStore
  alerts : Table Alerts.Alert.id

/-! ## Calls -/

inductive Kind
  /-- `record_intelligence_event`: the event's own time, in nanoseconds -/
  | intelligence (timestamp : Int)
  /-- `record_operational_event`, which takes the time itself -/
  | operational
deriving DecidableEq

structure Call where
  kind : Kind
  eventType : String
  source : String
  severity : String
  reason : String
  resource : String
  details : Json

/-- `record_intelligence_event`. -/
def recordIntelligenceEvent (timestamp : Int)
    (eventType source severity reason resource : String) (details : Json) : Call :=
  ⟨.intelligence timestamp, eventType, source, severity, reason, resource, details⟩

/-- The time of an attempt that reads `clock`. -/
def Call.timestamp (call : Call) (clock : Int) : Int :=
  match call.kind with
  | .intelligence timestamp => timestamp
  | .operational => clock

/-- `timestamp_nanos_opt().unwrap_or_default()`. -/
def timestampNanos (timestamp : Int) : Int :=
  if -9223372036854775808 ≤ timestamp ∧ timestamp ≤ 9223372036854775807 then timestamp else 0

/-- A time as a `TIMESTAMPTZ` column keeps it. -/
def storedAt (timestamp : Int) : Instant := (timestamp / 1000).toNat

def auditRow (call : Call) (id : Nat) (timestamp : Int) : AuditRow where
  id := id
  resource := call.resource
  details := call.details
  eventType := call.eventType
  source := call.source
  severity := call.severity
  reason := call.reason
  recordedAt := storedAt timestamp

def canonicalEvent (call : Call) (auditId : Nat) (timestamp : Int) : NewEvent where
  eventType := call.eventType
  source := call.source
  severity := call.severity
  occurredAt := storedAt timestamp
  correlationId := some call.resource
  payload := call.details
  metadata := Json.ofFields [("audit_event_id", .number (.int auditId))]
  dedupeKey :=
    (EventSource.intelligence call.eventType call.resource (timestampNanos timestamp)).dedupeKey

/-- The text of a time in a payload is a parameter. -/
def notice (rfc3339 : Int → String) (call : Call) (auditId : Nat) (timestamp : Int) : Notice where
  sourceEventId := some auditId
  eventType := call.eventType
  severity := call.severity
  resource := call.resource
  payload := Json.ofFields [("event_type", .string call.eventType), ("source", .string call.source),
    ("severity", .string call.severity), ("reason", .string call.reason),
    ("resource", .string call.resource), ("timestamp", .string (rfc3339 timestamp))]
  dedupeSuffix := call.eventType

def alertEvent (call : Call) (auditId : Nat) (incident : Option Uuid) : Alerts.AlertEvent where
  sourceEventId := auditId
  eventType := call.eventType
  source := call.source
  severity := call.severity
  resource := call.resource
  reason := call.reason
  incidentId := incident

/-- `SELECT id FROM incidents WHERE correlation_key=$1 ORDER BY updated_at DESC LIMIT 1`. -/
def IsIncidentOf (incidents : Table Incidents.IncidentRow.id) (key : String) :
    Option Uuid → Prop
  | none => ∀ i ∈ incidents.rows, i.correlationKey ≠ key
  | some id => ∃ i ∈ incidents.rows, i.id = id ∧ i.correlationKey = key ∧
      ∀ j ∈ incidents.rows, j.correlationKey = key → j.updatedAt ≤ i.updatedAt

instance (incidents : Table Incidents.IncidentRow.id) (key : String) :
    DecidablePred (IsIncidentOf incidents key)
  | none => inferInstanceAs (Decidable (∀ _ ∈ _, _))
  | some _ => inferInstanceAs (Decidable (∃ _ ∈ _, _))

/-! ## Attempts -/

/-- The statement a call executes next, with what it has learnt. -/
inductive Stage
  | auditing
  | finding (auditId : Nat) (timestamp : Int)
  | publishing (auditId : Nat) (timestamp : Int) (incident : Option Uuid)
  | selecting (auditId : Nat) (timestamp : Int) (incident : Option Uuid)
  | notifying (auditId : Nat) (timestamp : Int) (incident : Option Uuid)
      (rules : List NotificationRule)
  | alerting (auditId : Nat) (timestamp : Int) (incident : Option Uuid) (creator : Alerts.Creator)
  | done (auditId : Nat) (timestamp : Int) (incident : Option Uuid)

structure World where
  db : Db
  stage : Stage

inductive Action
  /-- `clock` is `Utc::now()` -/
  | audit (clock : Int)
  | find (incident : Option Uuid)
  | publish (now : Instant) (eventId : Uuid) (newId : Uuid → Uuid)
  | select (rules : List NotificationRule)
  | notify (now : Instant) (newId : Uuid)
  | alert (a : Alerts.Action)
  /-- the call fails or crashes, and is made again -/
  | fail

/-- `EXISTS(SELECT 1 FROM notification_events WHERE source_event_id=$1)`, read off the keys. -/
def hasDelivery (queue : NotificationStore) (auditId : Nat) : Bool :=
  queue.events.rows.any (fun x => Text.startsWith x.dedupeKey (decimal auditId ++ ":"))

/-- The answers a statement of `create_alert_for_event` can get. -/
def answers (db : Db) (auditId : Nat) : Alerts.Action → Bool
  | .deliver _ delivery => delivery = hasDelivery db.notices.queue auditId
  | _ => true

/-- After the audit row: `record_operational_event` parses the resource as an incident's id. -/
def afterAudit (parseUuid : String → Option Uuid) (call : Call) (auditId : Nat)
    (timestamp : Int) : Stage :=
  match call.kind with
  | .intelligence _ => .finding auditId timestamp
  | .operational => .publishing auditId timestamp (parseUuid call.resource)

/-- `create_alert_for_event` returns at once where the severity raises no alert. -/
def beginAlert (call : Call) (auditId : Nat) (timestamp : Int) (incident : Option Uuid) : Stage :=
  if (alertEvent call auditId incident).alerting then
    .alerting auditId timestamp incident (.counting (alertEvent call auditId incident))
  else .done auditId timestamp incident

def insertAudit (db : Db) (row : AuditRow) : Option Db :=
  (db.audit.insert? row).map (fun audit =>
    { db with nextAuditId := db.nextAuditId + 1, audit := audit })

variable (env : Pseudonym.Env) (parseUuid : String → Option Uuid) (rfc3339 : Int → String)
  (call : Call)

def exec (w : World) : Action → Option World
  | .audit clock =>
    match w.stage with
    | .auditing =>
      let timestamp := call.timestamp clock
      (insertAudit w.db (auditRow call w.db.nextAuditId timestamp)).map (fun db =>
        ⟨db, afterAudit parseUuid call w.db.nextAuditId timestamp⟩)
    | _ => none
  | .find incident =>
    match w.stage with
    | .finding auditId timestamp =>
      if IsIncidentOf w.db.incidents ("correlation-id:" ++ call.resource) incident then
        some ⟨w.db, .publishing auditId timestamp incident⟩
      else none
    | _ => none
  | .publish now eventId newId =>
    match w.stage with
    | .publishing auditId timestamp incident =>
      (publishSanitized env w.db.bus now eventId newId
          (canonicalEvent call auditId timestamp)).map
        (fun bus => ⟨{ w.db with bus := bus }, .selecting auditId timestamp incident⟩)
    | _ => none
  | .select rules =>
    match w.stage with
    | .selecting auditId timestamp incident =>
      if rules.Perm (selectedRules w.db.notices call.eventType) then
        some ⟨w.db, .notifying auditId timestamp incident rules⟩
      else none
    | _ => none
  | .notify now newId =>
    match w.stage with
    | .notifying auditId timestamp incident (r :: rules) =>
      (enqueueRule w.db.notices now newId (notice rfc3339 call auditId timestamp) r).map
        (fun notices => ⟨{ w.db with notices := notices },
          .notifying auditId timestamp incident rules⟩)
    | .notifying auditId timestamp incident [] =>
      some ⟨w.db, beginAlert call auditId timestamp incident⟩
    | _ => none
  | .alert a =>
    match w.stage with
    | .alerting auditId timestamp incident creator =>
      if answers w.db auditId a then
        (Alerts.creatorStep w.db.alerts creator a).map (fun (alerts, creator, _) =>
          ⟨{ w.db with alerts := alerts },
            match creator with
            | .idle => .done auditId timestamp incident
            | creator => .alerting auditId timestamp incident creator⟩)
      else none
    | _ => none
  | .fail =>
    match w.stage with
    | .done _ _ _ => none
    | _ => some ⟨w.db, .auditing⟩

/-! ## Stores -/

/-- The dedupe keys of notifications and alerts name audit rows of the past; a notification
that has none names 0, and the sequence starts at 1. -/
structure Wellformed (db : Db) : Prop where
  bus : Sound db.bus
  notices : ∀ x ∈ db.notices.queue.events, ∃ source rest,
    source < db.nextAuditId ∧ x.dedupeKey = decimal source ++ ":" ++ rest
  alerts : ∀ a ∈ db.alerts, ∃ rest source,
    source < db.nextAuditId ∧ a.dedupeKey = rest ++ ":" ++ decimal source
  positive : 0 < db.nextAuditId

/-- A store of any past, and the first attempt about to begin. -/
def Initial (w : World) : Prop := Wellformed w.db ∧ w.stage = .auditing

def recordSystem : TSys World Action := TSys.ofExec Initial (exec env parseUuid rfc3339 call)

end Clawforge.Recording

import Clawforge.Storage.Publication

/-!
# Alerts

`create_alert_for_event` and `update_alert_status` over the tables `alerts` and
`alert_status_history`. A creation is four statements, each committed on its own: the live
alerts of the event's group count it, or else an alert of its own is inserted and its delivery
status set. A status change is one transaction.
-/

namespace Clawforge.Alerts

open Kit EventDelivery

/-! ## Tables -/

inductive AlertStatus
  | opened | acknowledged | resolved | suppressed
deriving DecidableEq, Repr

structure Alert where
  id : Uuid
  source : String
  severity : String
  status : AlertStatus
  incidentId : Option Uuid
  sourceEventId : Nat
  summary : String
  details : Json
  dedupeKey : String
  groupKey : String
  confidence : Nat
  /-- whether the delivery status is `not_configured` instead of `pending` -/
  notConfigured : Bool
  acknowledgedAt : Option Instant
  lastSeenAt : Instant
  updatedAt : Instant
  eventCount : Nat
deriving DecidableEq

structure AlertStatusRow where
  alertId : Uuid
  previousStatus : AlertStatus
  newStatus : AlertStatus
  actor : String
  reason : String
deriving DecidableEq

structure Db where
  alerts : Table Alert.id
  history : List AlertStatusRow

/-- `status IN ('open','acknowledged')`. -/
def Alert.live (a : Alert) : Bool := a.status = .opened || a.status = .acknowledged

/-! ## Creation -/

/-- The arguments of `create_alert_for_event`. -/
structure AlertEvent where
  sourceEventId : Nat
  eventType : String
  source : String
  severity : String
  resource : String
  reason : String
  incidentId : Option Uuid
deriving DecidableEq

namespace AlertEvent

/-- `matches!(severity, "high" | "critical")`. -/
def alerting (e : AlertEvent) : Bool := e.severity = "high" || e.severity = "critical"

def dedupeKey (e : AlertEvent) : String :=
  e.eventType ++ ":" ++ e.resource ++ ":" ++ decimal e.sourceEventId

def groupKey (e : AlertEvent) : String :=
  match e.incidentId with
  | some incident => "incident:" ++ uuidText incident
  | none => e.eventType ++ ":" ++ e.resource

def confidence (e : AlertEvent) : Nat := if e.severity = "critical" then 100 else 85

end AlertEvent

/-- The greatest `INTEGER`. -/
def maxInteger : Nat := 2147483647

/-- The live alerts of a group. -/
def InGroup (group : String) (a : Alert) : Prop := a.groupKey = group ∧ a.live = true

instance (group : String) : DecidablePred (InGroup group) :=
  fun _ => inferInstanceAs (Decidable (_ ∧ _))

def countedRow (e : AlertEvent) (now : Instant) (a : Alert) : Alert :=
  { a with
    lastSeenAt := now
    eventCount := a.eventCount + 1
    confidence := max a.confidence e.confidence
    updatedAt := now }

/-- `UPDATE alerts SET … event_count=event_count+1`: the rows affected, and the table; an
error where a count would exceed its column. -/
def countInGroup (T : Table Alert.id) (e : AlertEvent) (now : Instant) :
    Option (Nat × Table Alert.id) :=
  if ∀ a ∈ T.rows, InGroup e.groupKey a → a.eventCount < maxInteger then
    some ((T.rows.filter (fun a => InGroup e.groupKey a)).length,
      T.updateWhere (InGroup e.groupKey) (countedRow e now) (fun _ => rfl))
  else none

def newAlert (e : AlertEvent) (id : Uuid) (now : Instant) : Alert where
  id := id
  source := e.source
  severity := e.severity
  status := .opened
  incidentId := e.incidentId
  sourceEventId := e.sourceEventId
  summary := String.ofList (e.reason.toList.take 500)
  details := Json.ofFields [("event_type", .string e.eventType), ("resource", .string e.resource),
    ("source_event_id", .number (.int e.sourceEventId))]
  dedupeKey := e.dedupeKey
  groupKey := e.groupKey
  confidence := e.confidence
  notConfigured := false
  acknowledgedAt := none
  lastSeenAt := now
  updatedAt := now
  eventCount := 1

/-- `INSERT INTO alerts … ON CONFLICT (dedupe_key) DO NOTHING`: whether a row is inserted, and
the table. -/
def insertAlert (T : Table Alert.id) (e : AlertEvent) (id : Uuid) (now : Instant) :
    Option (Bool × Table Alert.id) :=
  if ∃ a ∈ T.rows, a.dedupeKey = e.dedupeKey then some (false, T)
  else (T.insert? (newAlert e id now)).map (fun T => (true, T))

/-- `SELECT EXISTS(…)`, and where the event has no notification
`UPDATE alerts SET delivery_status`. -/
def setDelivery (T : Table Alert.id) (id : Uuid) (hasDelivery : Bool) : Table Alert.id :=
  if hasDelivery then T
  else T.updateWhere (fun a => a.id = id) (fun a => { a with notConfigured := true }) (fun _ => rfl)

/-- Neither the groups nor the counts depend on the delivery status. -/
theorem rows_setDelivery (T : Table Alert.id) (id : Uuid) (hasDelivery : Bool) :
    ∃ f : Alert → Alert, (setDelivery T id hasDelivery).rows = T.rows.map f ∧
      ∀ a, (f a).id = a.id ∧ (f a).groupKey = a.groupKey ∧ (f a).live = a.live ∧
        (f a).eventCount = a.eventCount := by
  cases hasDelivery with
  | true => exact ⟨fun a => a, (List.map_id' _).symm, fun _ => ⟨rfl, rfl, rfl, rfl⟩⟩
  | false =>
    refine ⟨fun a => if a.id = id then { a with notConfigured := true } else a, rfl, fun a => ?_⟩
    dsimp only
    split
    · exact ⟨rfl, rfl, rfl, rfl⟩
    · exact ⟨rfl, rfl, rfl, rfl⟩

/-! ## One call after the other -/

/-- A `create_alert_for_event` call, with the time of its statements, the drawn id and what the
notification lookup finds. -/
structure CreateCall where
  event : AlertEvent
  now : Instant
  id : Uuid
  hasDelivery : Bool
deriving DecidableEq

/-- `create_alert_for_event` with no other caller between its statements. A statement that fails
ends the call and leaves the table. -/
def createAlertForEvent (T : Table Alert.id) (c : CreateCall) : Table Alert.id :=
  if !c.event.alerting then T
  else
    match countInGroup T c.event c.now with
    | none => T
    | some (affected, counted) =>
      if 0 < affected then counted
      else
        match insertAlert counted c.event c.id c.now with
        | none => counted
        | some (false, kept) => kept
        | some (true, inserted) => setDelivery inserted c.id c.hasDelivery

def createAll (T : Table Alert.id) (cs : List CreateCall) : Table Alert.id :=
  cs.foldl createAlertForEvent T

/-! ## Status changes -/

/-- The statuses `update_alert_status` accepts. -/
def alertStatus : String → Option AlertStatus
  | "open" => some .opened
  | "acknowledged" => some .acknowledged
  | "resolved" => some .resolved
  | "suppressed" => some .suppressed
  | _ => none

def statusRow (status : AlertStatus) (now : Instant) (a : Alert) : Alert :=
  { a with
    status := status
    acknowledgedAt :=
      if status = .acknowledged then a.acknowledgedAt.or (some now) else a.acknowledgedAt
    updatedAt := now }

/-- `update_alert_status` up to its commit. -/
def updateAlertStatus (db : Db) (id : Uuid) (status actor reason : String) (now : Instant) :
    Except String Db :=
  match alertStatus status with
  | none => .error "invalid alert status"
  | some next =>
    match db.alerts.get? id with
    | none => .error "alert not found"
    | some previous => .ok
        { alerts := db.alerts.updateWhere (fun a => a.id = id) (statusRow next now)
            (fun _ => rfl)
          history := db.history ++ [⟨id, previous.status, next, actor, reason⟩] }

/-! ## Any number of callers -/

/-- A `create_alert_for_event` call, by the statement it executes next. -/
inductive Creator
  | idle
  | counting (e : AlertEvent)
  | inserting (e : AlertEvent)
  | delivering (id : Uuid)

/-- The tables, the calls under way, and two lists no query reads: the source events handed to
a call, and those of them that a committed statement has recorded in an alert. -/
structure World where
  db : Db
  creators : List Creator
  handed : List Nat
  recorded : List AlertEvent

inductive Action
  /-- a call for a source event that has just been inserted -/
  | create (k : Nat) (e : AlertEvent)
  | count (k : Nat) (now : Instant)
  /-- `id` is drawn for the row -/
  | insert (k : Nat) (now : Instant) (id : Uuid)
  | deliver (k : Nat) (hasDelivery : Bool)
  /-- an error or a crash -/
  | abort (k : Nat)
  | setStatus (id : Uuid) (status actor reason : String) (now : Instant)

/-- What a statement of a creation leaves of the alerts and of the call, and whether it has
recorded its event. -/
def creatorStep (T : Table Alert.id) : Creator → Action → Option (Table Alert.id × Creator × Bool)
  | .counting e, .count _ now =>
    (countInGroup T e now).map (fun (affected, T) =>
      if 0 < affected then (T, .idle, true) else (T, .inserting e, false))
  | .inserting e, .insert _ now id =>
    (insertAlert T e id now).map (fun (inserted, T) =>
      if inserted then (T, .delivering id, true) else (T, .idle, false))
  | .delivering id, .deliver _ hasDelivery => some (setDelivery T id hasDelivery, .idle, false)
  | _, _ => none

/-- The event a call is recording. -/
def Creator.event : Creator → Option AlertEvent
  | .counting e | .inserting e => some e
  | _ => none

def advance (w : World) (k : Nat) (a : Action) : Option World :=
  (w.creators[k]?).bind (fun c => (creatorStep w.db.alerts c a).map (fun (T, next, records) =>
    { w with
      db := { w.db with alerts := T }
      creators := w.creators.set k next
      recorded := if records then c.event.toList ++ w.recorded else w.recorded }))

def exec (w : World) : Action → Option World
  | .create k e =>
    match w.creators[k]? with
    | some .idle =>
      if e.sourceEventId ∈ w.handed then none
      else some { w with
        creators := w.creators.set k (if e.alerting then .counting e else .idle)
        handed := e.sourceEventId :: w.handed }
    | _ => none
  | .count k now => advance w k (.count k now)
  | .insert k now id => advance w k (.insert k now id)
  | .deliver k hasDelivery => advance w k (.deliver k hasDelivery)
  | .abort k => some { w with creators := w.creators.set k .idle }
  | .setStatus id status actor reason now =>
    match updateAlertStatus w.db id status actor reason now with
    | .error _ => some w
    | .ok db => some { w with db := db }

/-- No alerts yet, and any number of callers. -/
def Initial (w : World) : Prop :=
  w.db.alerts = Table.empty _ ∧ w.handed = [] ∧ w.recorded = [] ∧
    ∃ n, w.creators = List.replicate n .idle

def alertSystem : TSys World Action := TSys.ofExec Initial exec

end Clawforge.Alerts

import Clawforge.Kit.TSys
import Clawforge.Kit.Table
import Clawforge.Values

/-!
# Event bus deliveries

`publish_event`, `claim_event_deliveries` and `complete_event_delivery` of the
storage crate over the tables `events`, `event_consumers` and `event_delivery`,
and the system of any number of workers calling them.

Each database transaction is one step. `NOW()` is the start of the transaction,
so a step carries an instant that is not after the server's clock. Rows another
transaction has locked are skipped by a claim: a step carries that set, and it
is arbitrary. What a worker was handed lives in its memory (`held`) and is lost
when it crashes.
-/

namespace Clawforge.EventDelivery

open Kit

/-! ## Tables -/

inductive DeliveryStatus
  | pending | processing | processed | failed | dead
deriving DecidableEq, Repr

structure Event where
  eventId : Uuid
  eventType : String
  source : String
  severity : String
  occurredAt : Instant
  correlationId : Option String
  payload : Json
  metadata : Json
  dedupeKey : String
  createdAt : Instant
deriving DecidableEq

structure EventConsumer where
  id : Uuid
  name : String
  enabled : Bool
  lastHeartbeatAt : Option Instant
  createdAt : Instant
deriving DecidableEq

structure Delivery where
  id : Uuid
  eventId : Uuid
  consumerId : Uuid
  status : DeliveryStatus
  attempts : Nat
  availableAt : Instant
  processingStartedAt : Option Instant
  processedAt : Option Instant
  error : Option String
  createdAt : Instant
deriving DecidableEq

structure EventStore where
  /-- the server's clock -/
  now : Instant
  events : Table Event.eventId
  consumers : Table EventConsumer.id
  deliveries : Table Delivery.id

/-! ## Consumers and publication -/

def enabledRow (c : EventConsumer) : EventConsumer := { c with enabled := true }

def heartbeatRow (now : Instant) (c : EventConsumer) : EventConsumer :=
  { c with lastHeartbeatAt := some now }

/-- `ensure_event_consumer`: registers the consumer, or enables it again. -/
def ensureEventConsumer (db : EventStore) (now : Instant) (newId : Uuid)
    (name : String) : Option EventStore :=
  if ∃ c ∈ db.consumers.rows, c.name = name then
    some { db with
      consumers := db.consumers.updateWhere (fun c => c.name = name) enabledRow
        (fun _ => rfl) }
  else
    (db.consumers.insert?
      { id := newId, name, enabled := true, lastHeartbeatAt := none, createdAt := now }).map
      (fun consumers => { db with consumers })

/-- `heartbeat_event_consumer`. -/
def heartbeatEventConsumer (db : EventStore) (now : Instant) (name : String) :
    EventStore :=
  { db with
    consumers := db.consumers.updateWhere (fun c => c.name = name) (heartbeatRow now)
      (fun _ => rfl) }

/-- What a caller publishes, after `sanitize_analysis_value`. -/
structure NewEvent where
  eventType : String
  source : String
  severity : String
  occurredAt : Instant
  correlationId : Option String
  payload : Json
  metadata : Json
  dedupeKey : String

/-- The delivery of one event to one consumer, `ON CONFLICT DO NOTHING`. -/
def deliverTo (eventId : Uuid) (now : Instant) (newId : Uuid → Uuid)
    (T : Table Delivery.id) (consumerId : Uuid) : Table Delivery.id :=
  if ∃ d ∈ T.rows, d.eventId = eventId ∧ d.consumerId = consumerId then T
  else T.insertOrIgnore
    { id := newId consumerId, eventId, consumerId, status := .pending, attempts := 0,
      availableAt := now, processingStartedAt := none, processedAt := none,
      error := none, createdAt := now }

/-- `SELECT id FROM event_consumers WHERE enabled`. -/
def enabledConsumers (db : EventStore) : List Uuid :=
  (db.consumers.rows.filter (·.enabled)).map (·.id)

/-- `publish_event`: the event's id, and the store with one pending delivery
for each enabled consumer. A known dedupe key publishes nothing. -/
def publishEvent (db : EventStore) (now : Instant) (eventId : Uuid)
    (newId : Uuid → Uuid) (e : NewEvent) : Option (Uuid × EventStore) :=
  match db.events.rows.find? (fun x => x.dedupeKey = e.dedupeKey) with
  | some existing => some (existing.eventId, db)
  | none =>
    (db.events.insert?
      { eventId, eventType := e.eventType, source := e.source, severity := e.severity,
        occurredAt := e.occurredAt, correlationId := e.correlationId,
        payload := e.payload, metadata := e.metadata, dedupeKey := e.dedupeKey,
        createdAt := now }).map
      (fun events => (eventId,
        { db with
          events
          deliveries :=
            (enabledConsumers db).foldl (deliverTo eventId now newId) db.deliveries }))

/-! ## Claiming -/

/-- The `WHERE` clause of `CLAIM_STALE_DELIVERIES_SQL`. -/
def StaleDelivery (consumerId : Uuid) (now : Instant) (d : Delivery) : Prop :=
  d.consumerId = consumerId ∧ d.status = .processing ∧ d.availableAt ≤ now ∧
    d.attempts < 5 ∧ ∃ t ∈ d.processingStartedAt, t + minutes 10 < now

/-- The `WHERE` clause of `CLAIM_READY_DELIVERIES_SQL`. -/
def ReadyDelivery (consumerId : Uuid) (now : Instant) (d : Delivery) : Prop :=
  d.consumerId = consumerId ∧ (d.status = .pending ∨ d.status = .failed) ∧
    d.availableAt ≤ now ∧ d.attempts < 5

instance (consumerId now d) : Decidable (StaleDelivery consumerId now d) := by
  unfold StaleDelivery
  infer_instance

instance (consumerId now d) : Decidable (ReadyDelivery consumerId now d) := by
  unfold ReadyDelivery
  infer_instance

/-- `ORDER BY created_at FOR UPDATE SKIP LOCKED LIMIT limit`. -/
def selectForUpdate (P : Delivery → Prop) [DecidablePred P] (locked : List Uuid)
    (limit : Nat) (T : Table Delivery.id) : List Uuid :=
  (((T.rows.filter (fun d => P d ∧ d.id ∉ locked)).insertionSort
    (fun a b => a.createdAt ≤ b.createdAt)).take limit).map (·.id)

/-- The rows one claim takes: stale ones first, then ready ones. -/
def claimedIds (T : Table Delivery.id) (consumerId : Uuid) (now : Instant)
    (limit : Nat) (locked : List Uuid) : List Uuid :=
  let stale := selectForUpdate (StaleDelivery consumerId now) locked limit T
  if stale.length < limit then
    stale ++ selectForUpdate (ReadyDelivery consumerId now) locked (limit - stale.length) T
  else stale

/-- `limit.clamp(1, 100)`. -/
def clampLimit (limit : Int) : Nat := (max 1 (min limit 100)).toNat

/-- What a claim hands to its worker for one delivery. -/
structure ClaimedDelivery where
  deliveryId : Uuid
  event : Event
  attempts : Nat

def claimRow (now : Instant) (d : Delivery) : Delivery :=
  { d with
    status := .processing
    attempts := d.attempts + 1
    processingStartedAt := some now }

/-- `claim_event_deliveries` after `ensure_event_consumer` returned the row `c`:
the deliveries handed out and the store. -/
def claimEventDeliveries (db : EventStore) (c : EventConsumer) (limit : Int)
    (now : Instant) (locked : List Uuid) : List ClaimedDelivery × EventStore :=
  let ids := claimedIds db.deliveries c.id now (clampLimit limit) locked
  let deliveries := db.deliveries.updateWhere (fun d => d.id ∈ ids) (claimRow now)
    (fun _ => rfl)
  let claimed := (deliveries.rows.filter (fun d => d.id ∈ ids)).insertionSort
    (fun a b => a.createdAt < b.createdAt ∨ a.createdAt = b.createdAt ∧ a.id ≤ b.id)
  (claimed.filterMap (fun d => (db.events.get? d.eventId).map
      (fun event => { deliveryId := d.id, event, attempts := d.attempts })),
    { db with deliveries })

/-! ## Completion -/

/-- The delivery a completion may settle: it belongs to a consumer of that name
and is `processing`. -/
def Completable (db : EventStore) (deliveryId : Uuid) (consumer : String)
    (d : Delivery) : Prop :=
  d.id = deliveryId ∧ (∃ c ∈ db.consumers.rows, d.consumerId = c.id ∧ c.name = consumer) ∧
    d.status = .processing

instance (db deliveryId consumer d) :
    Decidable (Completable db deliveryId consumer d) := by
  unfold Completable
  infer_instance

def processedRow (now : Instant) (d : Delivery) : Delivery :=
  { d with status := .processed, processedAt := some now, error := none }

def failedRow (now : Instant) (error : Option String) (d : Delivery) : Delivery :=
  { d with
    status := if 5 ≤ d.attempts then .dead else .failed
    availableAt := now + seconds (min 3600 (2 ^ d.attempts))
    error := error.map (fun s => String.ofList (s.toList.take 1000)) }

/-- The row a completion writes. -/
def completedRow (now : Instant) (success : Bool) (error : Option String) :
    Delivery → Delivery :=
  if success then processedRow now else failedRow now error

theorem completedRow_id (now success error d) :
    (completedRow now success error d).id = d.id := by
  cases success <;> rfl

/-- `complete_event_delivery`. No matching row is an error that writes nothing. -/
def completeEventDelivery (db : EventStore) (now : Instant) (deliveryId : Uuid)
    (consumer : String) (success : Bool) (error : Option String) :
    Except String EventStore :=
  if ∃ d ∈ db.deliveries.rows, Completable db deliveryId consumer d then
    .ok { db with
      deliveries := db.deliveries.updateWhere (Completable db deliveryId consumer)
        (completedRow now success error) (completedRow_id now success error) }
  else .error "event delivery is not owned by the active consumer"

/-! ## Workers -/

/-- A delivery some worker was handed, with the attempt number it was handed. -/
structure Claim where
  worker : Nat
  consumer : String
  delivery : Uuid
  attempt : Nat
deriving DecidableEq

/-- A completion that changed its row: the claim it was made for, and the
attempt number the row carried. -/
structure Settlement where
  claim : Claim
  attempts : Nat
deriving DecidableEq

/-- The store, what the workers hold, and the settlements so far. The last two
are bookkeeping: no query reads them. -/
structure World where
  db : EventStore
  held : List Claim
  settled : List Settlement

/-- The columns a consumer is scheduled by. -/
def Delivery.standing (d : Delivery) : DeliveryStatus × Nat × Instant :=
  (d.status, d.attempts, d.availableAt)

inductive Action
  | tick (elapsed : Nat)
  | ensure (now : Instant) (newId : Uuid) (name : String)
  | heartbeat (now : Instant) (name : String)
  | publish (now : Instant) (eventId : Uuid) (newId : Uuid → Uuid) (e : NewEvent)
  | claim (worker : Nat) (consumer : String) (limit : Int) (now : Instant)
      (locked : List Uuid)
  /-- a worker reports on a delivery it was handed -/
  | complete (c : Claim) (success : Bool) (error : Option String) (now : Instant)
  /-- a caller reports on a delivery it was not handed -/
  | completeUnclaimed (deliveryId : Uuid) (consumer : String) (success : Bool)
      (error : Option String) (now : Instant)
  | crash (worker : Nat)

/-- The settlements a completion adds. -/
def settlementsOf (c : Claim) (before after : EventStore) : List Settlement :=
  match before.deliveries.get? c.delivery with
  | none => []
  | some d =>
    if (after.deliveries.get? c.delivery).map Delivery.standing = some d.standing then []
    else [{ claim := c, attempts := d.attempts }]

def handOut (worker : Nat) (consumer : String) (claimed : List ClaimedDelivery) :
    List Claim :=
  claimed.map (fun x =>
    { worker, consumer, delivery := x.deliveryId, attempt := x.attempts })

def exec (w : World) : Action → Option World
  | .tick elapsed => some { w with db := { w.db with now := w.db.now + elapsed } }
  | .ensure now newId name =>
    if now ≤ w.db.now then
      (ensureEventConsumer w.db now newId name).map (fun db => { w with db })
    else none
  | .heartbeat now name =>
    if now ≤ w.db.now then some { w with db := heartbeatEventConsumer w.db now name }
    else none
  | .publish now eventId newId e =>
    if now ≤ w.db.now then
      (publishEvent w.db now eventId newId e).map (fun r => { w with db := r.2 })
    else none
  | .claim worker consumer limit now locked =>
    match w.db.consumers.rows.find? (fun c => c.name = consumer) with
    | none => none
    | some c =>
      if now ≤ w.db.now then
        let r := claimEventDeliveries w.db c limit now locked
        some { w with db := r.2, held := handOut worker consumer r.1 ++ w.held }
      else none
  | .complete c success error now =>
    if c ∈ w.held ∧ now ≤ w.db.now then
      match completeEventDelivery w.db now c.delivery c.consumer success error with
      | .error _ => some w
      | .ok db => some { w with db, settled := settlementsOf c w.db db ++ w.settled }
    else none
  | .completeUnclaimed deliveryId consumer success error now =>
    if now ≤ w.db.now then
      match completeEventDelivery w.db now deliveryId consumer success error with
      | .error _ => some w
      | .ok db => some { w with db }
    else none
  | .crash worker => some { w with held := w.held.filter (fun c => c.worker ≠ worker) }

/-- No event has been published yet; any consumers may be registered. -/
def Initial (w : World) : Prop :=
  w.db.events.rows = [] ∧ w.db.deliveries.rows = [] ∧ w.held = [] ∧ w.settled = []

def system : TSys World Action := TSys.ofExec Initial exec

end Clawforge.EventDelivery

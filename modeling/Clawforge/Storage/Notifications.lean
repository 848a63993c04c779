import Clawforge.Storage.EventDelivery

/-!
# The notification queue

`claim_notification_events` and `complete_notification_event` of the storage
crate over the tables `notification_channels` and `notification_events`, and the
system of any number of notifier replicas calling them.

A claim is one transaction and so one step; the rows another transaction has
locked, on either side of the join, are an arbitrary set the step skips. What a
replica was handed lives in its memory and is lost when it crashes. The endpoint
takes any event's id, so a completion may also come without a claim.
-/

namespace Clawforge.Notifications

open Kit EventDelivery

/-! ## Tables -/

inductive NotificationStatus
  | pending | processing | sent | failed | suppressed
deriving DecidableEq, Repr

structure NotificationChannel where
  id : Uuid
  secretRef : Option String
  config : Json
  enabled : Bool
deriving DecidableEq

structure NotificationEvent where
  id : Uuid
  channelId : Uuid
  eventType : String
  severity : String
  resource : String
  target : String
  channelType : String
  payload : Json
  status : NotificationStatus
  retryCount : Nat
  availableAt : Instant
  lastAttemptAt : Option Instant
  sentAt : Option Instant
  error : Option String
  dedupeKey : String
  createdAt : Instant
deriving DecidableEq

structure NotificationStore where
  /-- the server's clock -/
  now : Instant
  channels : Table NotificationChannel.id
  events : Table NotificationEvent.id

/-! ## Channels and the queue's producers -/

def statusRow (enabled : Bool) (c : NotificationChannel) : NotificationChannel :=
  { c with enabled }

/-- `set_notification_channel_status`. -/
def setChannelStatus (db : NotificationStore) (id : Uuid) (enabled : Bool) :
    NotificationStore :=
  { db with
    channels := db.channels.updateWhere (fun c => c.id = id) (statusRow enabled)
      (fun _ => rfl) }

/-- What `enqueue_notification_event` binds for one matching rule. -/
structure NewNotification where
  channelId : Uuid
  eventType : String
  severity : String
  resource : String
  target : String
  channelType : String
  payload : Json
  dedupeKey : String

/-- The insertion `enqueue_notification_event` makes for one matching rule,
`ON CONFLICT (dedupe_key) DO NOTHING`. -/
def enqueueNotification (db : NotificationStore) (now : Instant) (newId : Uuid)
    (n : NewNotification) : Option NotificationStore :=
  if ∃ e ∈ db.events.rows, e.dedupeKey = n.dedupeKey then some db
  else
    (db.events.insert?
      { id := newId, channelId := n.channelId, eventType := n.eventType,
        severity := n.severity, resource := n.resource, target := n.target,
        channelType := n.channelType, payload := n.payload, status := .pending,
        retryCount := 0, availableAt := now, lastAttemptAt := none, sentAt := none,
        error := none, dedupeKey := n.dedupeKey, createdAt := now }).map
      (fun events => { db with events })

/-! ## Claiming -/

/-- The `WHERE` clause of the claim. -/
def Claimable (channels : Table NotificationChannel.id) (now : Instant)
    (e : NotificationEvent) : Prop :=
  (∃ c ∈ channels.rows, c.id = e.channelId ∧ c.enabled = true) ∧ e.availableAt ≤ now ∧
    (e.status = .pending ∨
      e.status = .processing ∧ ∃ t ∈ e.lastAttemptAt, t + minutes 10 < now)

instance (channels now e) : Decidable (Claimable channels now e) := by
  unfold Claimable
  infer_instance

/-- The rows one claim takes, `ORDER BY created_at FOR UPDATE SKIP LOCKED`. -/
def claimedIds (db : NotificationStore) (limit : Int) (now : Instant)
    (locked : List Uuid) : List Uuid :=
  db.events.select (fun e => Claimable db.channels now e ∧ e.id ∉ locked)
    (fun a b => a.createdAt ≤ b.createdAt) (clampLimit limit)

def claimRow (now : Instant) (e : NotificationEvent) : NotificationEvent :=
  { e with
    status := .processing
    retryCount := e.retryCount + 1
    lastAttemptAt := some now }

theorem claimRow_id (now : Instant) (e : NotificationEvent) :
    (claimRow now e).id = e.id := rfl

/-- What a claim hands to the notifier for one event. -/
structure ClaimedNotification where
  id : Uuid
  eventType : String
  severity : String
  resource : String
  target : String
  channelType : String
  payload : Json
  retryCount : Nat
  secretRef : Option String
  config : Json

def claimedNotification (c : NotificationChannel) (e : NotificationEvent) :
    ClaimedNotification where
  id := e.id
  eventType := e.eventType
  severity := e.severity
  resource := e.resource
  target := e.target
  channelType := e.channelType
  payload := e.payload
  retryCount := e.retryCount + 1
  secretRef := c.secretRef
  config := c.config

/-- `claim_notification_events`: the events handed out, and the store. -/
def claimNotificationEvents (db : NotificationStore) (limit : Int) (now : Instant)
    (locked : List Uuid) : List ClaimedNotification × NotificationStore :=
  let ids := claimedIds db limit now locked
  (ids.filterMap (fun id => (db.events.get? id).bind (fun e =>
      (db.channels.get? e.channelId).map (fun c => claimedNotification c e))),
    { db with
      events := db.events.updateWhere (fun e => e.id ∈ ids) (claimRow now)
        (claimRow_id now) })

/-! ## Completion -/

def sentRow (now : Instant) (e : NotificationEvent) : NotificationEvent :=
  { e with status := .sent, sentAt := some now, error := none }

def failedRow (now : Instant) (error : Option String) (e : NotificationEvent) :
    NotificationEvent :=
  { e with
    status := if 5 ≤ e.retryCount then .failed else .pending
    availableAt := now + seconds (min 3600 (2 ^ e.retryCount))
    error := error.map (fun s => String.ofList (s.toList.take 1000)) }

/-- The row a completion writes. -/
def completedRow (now : Instant) (success : Bool) (error : Option String) :
    NotificationEvent → NotificationEvent :=
  if success then sentRow now else failedRow now error

theorem completedRow_id (now success error e) :
    (completedRow now success error e).id = e.id := by
  cases success <;> rfl

/-- `complete_notification_event`: whatever the row's status is. -/
def completeNotificationEvent (db : NotificationStore) (now : Instant) (id : Uuid)
    (success : Bool) (error : Option String) : NotificationStore :=
  { db with
    events := db.events.updateWhere (fun e => e.id = id) (completedRow now success error)
      (completedRow_id now success error) }

/-! ## Notifier replicas -/

/-- An event some replica was handed. -/
structure Claim where
  replica : Nat
  event : Uuid
deriving DecidableEq

/-- The store and what the replicas hold, with three lists no query reads: the
events once completed as sent, those once given up, and those claimed after
either. -/
structure World where
  db : NotificationStore
  held : List Claim
  sent : List Uuid
  givenUp : List Uuid
  reclaimed : List Uuid

inductive Action
  | tick (elapsed : Nat)
  | createChannel (c : NotificationChannel)
  | setStatus (id : Uuid) (enabled : Bool)
  | enqueue (now : Instant) (newId : Uuid) (n : NewNotification)
  | claim (replica : Nat) (limit : Int) (now : Instant) (locked : List Uuid)
  /-- a replica reports on an event it was handed -/
  | complete (c : Claim) (success : Bool) (error : Option String) (now : Instant)
  /-- a caller reports on an event it was not handed -/
  | completeUnclaimed (id : Uuid) (success : Bool) (error : Option String) (now : Instant)
  | crash (replica : Nat)

/-- The status a completion leaves its event in. -/
def statusAfter (db : NotificationStore) (id : Uuid) : Option NotificationStatus :=
  (db.events.get? id).map (·.status)

/-- One completion, with its entry in the lists. -/
def report (w : World) (now : Instant) (id : Uuid) (success : Bool)
    (error : Option String) : World :=
  let db := completeNotificationEvent w.db now id success error
  { w with
    db
    sent := if statusAfter db id = some .sent then id :: w.sent else w.sent
    givenUp := if statusAfter db id = some .failed then id :: w.givenUp else w.givenUp }

def exec (w : World) : Action → Option World
  | .tick elapsed => some { w with db := { w.db with now := w.db.now + elapsed } }
  | .createChannel c =>
    (w.db.channels.insert? c).map (fun channels => { w with db := { w.db with channels } })
  | .setStatus id enabled => some { w with db := setChannelStatus w.db id enabled }
  | .enqueue now newId n =>
    if now ≤ w.db.now then
      (enqueueNotification w.db now newId n).map (fun db => { w with db })
    else none
  | .claim replica limit now locked =>
    if now ≤ w.db.now then
      let r := claimNotificationEvents w.db limit now locked
      some { w with
        db := r.2
        held := r.1.map (fun n => { replica, event := n.id }) ++ w.held
        reclaimed := (claimedIds w.db limit now locked).filter
          (fun id => id ∈ w.sent ∨ id ∈ w.givenUp) ++ w.reclaimed }
    else none
  | .complete c success error now =>
    if c ∈ w.held ∧ now ≤ w.db.now then some (report w now c.event success error)
    else none
  | .completeUnclaimed id success error now =>
    if now ≤ w.db.now then some (report w now id success error) else none
  | .crash replica => some { w with held := w.held.filter (fun c => c.replica ≠ replica) }

/-- Nothing has been queued yet; any channels may exist. -/
def Initial (w : World) : Prop :=
  w.db.events.rows = [] ∧ w.held = [] ∧ w.sent = [] ∧ w.givenUp = [] ∧ w.reclaimed = []

def system : TSys World Action := TSys.ofExec Initial exec

end Clawforge.Notifications

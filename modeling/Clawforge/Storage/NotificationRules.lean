import Clawforge.Storage.Notifications
import Clawforge.Storage.Publication

/-!
# Notification rules

`enqueue_notification_event`: one query for the rules that match an event, and then one
insertion for each of them that its severity reaches, under a dedupe key that does not name
the rule. Two rules with one channel therefore notify it once.
-/

namespace Clawforge.Notifications

open Kit EventDelivery

structure NotificationRule where
  id : Uuid
  eventType : String
  minimumSeverity : String
  channelId : Uuid
  enabled : Bool
deriving DecidableEq

/-- The other columns of a channel that the query joins. -/
structure ChannelRoute where
  channelType : String
  target : String
deriving DecidableEq

/-- The tables `notification_rules`, `notification_channels` and `notification_events`. -/
structure RuleStore where
  rules : List NotificationRule
  routes : Uuid → ChannelRoute
  queue : NotificationStore

/-- `notification_severity_rank`. -/
def notificationSeverityRank (value : String) : Nat :=
  match String.ofList (Text.toAsciiLowercase value.toList) with
  | "critical" => 4
  | "high" => 3
  | "medium" | "warning" => 2
  | "low" => 1
  | _ => 0

/-- The arguments of `enqueue_notification_event`. -/
structure Notice where
  sourceEventId : Option Nat
  eventType : String
  severity : String
  resource : String
  payload : Json
  dedupeSuffix : String

/-- `WHERE r.enabled AND c.enabled AND (r.event_type = $1 OR r.event_type = '*')`. -/
def Selected (db : RuleStore) (eventType : String) (r : NotificationRule) : Prop :=
  r.enabled = true ∧ (∃ c ∈ db.queue.channels.rows, c.id = r.channelId ∧ c.enabled = true) ∧
    (r.eventType = eventType ∨ r.eventType = "*")

instance (db : RuleStore) (eventType : String) : DecidablePred (Selected db eventType) :=
  fun _ => inferInstanceAs (Decidable (_ ∧ _ ∧ _))

/-- The rows of the query, in any order. -/
def selectedRules (db : RuleStore) (eventType : String) : List NotificationRule :=
  db.rules.filter (fun r => Selected db eventType r)

/-- The severity reaches the rule's minimum. -/
def Reaches (n : Notice) (r : NotificationRule) : Prop :=
  notificationSeverityRank r.minimumSeverity ≤ notificationSeverityRank n.severity

instance (n : Notice) : DecidablePred (Reaches n) := fun _ => inferInstanceAs (Decidable (_ ≤ _))

/-- The channels the event has to reach. -/
def matchingChannels (db : RuleStore) (n : Notice) : List Uuid :=
  ((selectedRules db n.eventType).filter (fun r => Reaches n r)).map NotificationRule.channelId

/-- The key of an event's notification to a channel. -/
def noticeKey (n : Notice) (channel : Uuid) : String :=
  decimal (n.sourceEventId.getD 0) ++ ":" ++ n.eventType ++ ":" ++ n.resource ++ ":" ++
    uuidText channel ++ ":" ++ n.dedupeSuffix

def newNotification (db : RuleStore) (n : Notice) (channel : Uuid) : NewNotification where
  channelId := channel
  eventType := n.eventType
  severity := n.severity
  resource := n.resource
  target := (db.routes channel).target
  channelType := (db.routes channel).channelType
  payload := n.payload
  dedupeKey := noticeKey n channel

/-- The loop's turn for one rule. -/
def enqueueRule (db : RuleStore) (now : Instant) (newId : Uuid) (n : Notice)
    (r : NotificationRule) : Option RuleStore :=
  if Reaches n r then
    (enqueueNotification db.queue now newId (newNotification db n r.channelId)).map (fun queue =>
      { db with queue := queue })
  else some db

/-- The row an insertion stores. -/
def notificationRow (now : Instant) (newId : Uuid) (n : NewNotification) : NotificationEvent where
  id := newId
  channelId := n.channelId
  eventType := n.eventType
  severity := n.severity
  resource := n.resource
  target := n.target
  channelType := n.channelType
  payload := n.payload
  status := .pending
  retryCount := 0
  availableAt := now
  lastAttemptAt := none
  sentAt := none
  error := none
  dedupeKey := n.dedupeKey
  createdAt := now

/-- A turn of the loop inserts the notification of the rule's channel, unless the severity
does not reach the rule or the key is taken. -/
inductive Enqueued (db : RuleStore) (n : Notice) (r : NotificationRule) : RuleStore → Prop
  | below (h : ¬ Reaches n r) : Enqueued db n r db
  | known (h : Reaches n r)
      (hknown : ∃ x ∈ db.queue.events, x.dedupeKey = noticeKey n r.channelId) : Enqueued db n r db
  | inserted {x : NotificationEvent} {queue : NotificationStore} (h : Reaches n r)
      (hfree : ∀ y ∈ db.queue.events, y.dedupeKey ≠ noticeKey n r.channelId)
      (hchannel : x.channelId = r.channelId) (hkey : x.dedupeKey = noticeKey n r.channelId)
      (hrows : queue.events.rows = db.queue.events.rows ++ [x])
      (hchannels : queue.channels = db.queue.channels) :
      Enqueued db n r { db with queue := queue }

theorem enqueueRule_spec {db db' : RuleStore} {now : Instant} {newId : Uuid} {n : Notice}
    {r : NotificationRule} (h : enqueueRule db now newId n r = some db') : Enqueued db n r db' := by
  unfold enqueueRule at h
  split at h
  case isFalse hno =>
    cases h
    exact .below hno
  case isTrue hreaches =>
    obtain ⟨queue, hqueue, rfl⟩ := Option.map_eq_some_iff.1 h
    unfold enqueueNotification at hqueue
    split at hqueue
    case isTrue hknown =>
      cases hqueue
      exact .known hreaches hknown
    case isFalse hfree =>
      obtain ⟨events, hins, rfl⟩ := Option.map_eq_some_iff.1 hqueue
      refine .inserted (x := notificationRow now newId (newNotification db n r.channelId))
        hreaches (fun y hy hkey => hfree ⟨y, hy, hkey⟩) rfl rfl (Table.rows_insert? hins) rfl

theorem Enqueued.same {db db' : RuleStore} {n : Notice} {r : NotificationRule}
    (h : Enqueued db n r db') : db'.rules = db.rules ∧ db'.queue.channels = db.queue.channels := by
  cases h with
  | below | known => exact ⟨rfl, rfl⟩
  | inserted _ _ _ _ _ hchannels => exact ⟨rfl, hchannels⟩

theorem selectedRules_same {db db' : RuleStore} (hrules : db'.rules = db.rules)
    (hchannels : db'.queue.channels = db.queue.channels) (eventType : String) :
    selectedRules db' eventType = selectedRules db eventType := by
  unfold selectedRules
  rw [hrules]
  refine List.filter_congr (fun r _ => decide_eq_decide.2 ?_)
  unfold Selected
  rw [hchannels]

theorem matchingChannels_same {db db' : RuleStore} (hrules : db'.rules = db.rules)
    (hchannels : db'.queue.channels = db.queue.channels) (n : Notice) :
    matchingChannels db' n = matchingChannels db n := by
  rw [matchingChannels, selectedRules_same hrules hchannels]
  rfl

end Clawforge.Notifications

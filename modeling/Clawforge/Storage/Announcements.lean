import Clawforge.Storage.IncidentSessions
import Clawforge.Storage.Recording

/-!
# Telling operators about incidents

The second half of `promote_incident_candidates`. Once the incidents are committed the call goes
through those it has created and those it has escalated; each gets an event and then one
notification for each channel of a matching rule, every statement committed on its own. What is
left to announce is known to the call only: one that fails here is over.
-/

namespace Clawforge.Announcements

open Kit EventDelivery Notifications Incidents Option

/-! ## What an announcement consists of -/

/-- The text of a severity column. -/
def severityText : Correlation.IncidentSeverity → String
  | .info => "info"
  | .low => "low"
  | .medium => "medium"
  | .high => "high"
  | .critical => "critical"

/-- An announcement that a commit owes, and the time its call takes after the commit. -/
structure Owed where
  announcement : Announcement
  clock : Int
deriving DecidableEq

/-- Whose occurrence it is: an escalated incident is announced once for each time. -/
def Owed.source (o : Owed) : EventSource :=
  if o.announcement.escalated then
    .incidentEscalated o.announcement.incident (Recording.timestampNanos o.clock)
  else .incidentCreated o.announcement.incident

def details (a : Announcement) : Json :=
  Json.ofFields [("incident_id", .string (uuidText a.incident)),
    ("severity", .string (severityText a.severity)), ("reason", .string a.summary),
    ("confidence", .number (.int a.confidence))]

/-- The arguments of `publish_event`. -/
def Owed.event (o : Owed) : NewEvent where
  eventType := if o.announcement.escalated then "incident.escalated" else "incident.created"
  source := "incident-correlator"
  severity := severityText o.announcement.severity
  occurredAt := Recording.storedAt o.clock
  correlationId := some (uuidText o.announcement.incident)
  payload := details o.announcement
  metadata := Json.ofFields []
  dedupeKey := o.source.dedupeKey

/-- The arguments of `enqueue_notification_event`. -/
def Owed.notice (o : Owed) : Notice where
  sourceEventId := none
  eventType := if o.announcement.escalated then "incident_escalated" else "incident_created"
  severity := severityText o.announcement.severity
  resource := uuidText o.announcement.incident
  payload := details o.announcement
  dedupeSuffix :=
    if o.announcement.escalated then
      "incident_escalated:" ++ uuidText o.announcement.incident ++ ":" ++
        toString (Recording.timestampNanos o.clock)
    else "incident_created:" ++ uuidText o.announcement.incident

/-! ## Calls -/

/-- The statement that comes next for the head of a call's queue. -/
inductive Statement
  | publish
  | select
  | notify (rules : List NotificationRule)

/-- What a call in its second half knows besides its queue. -/
structure Telling where
  clock : Int
  next : Statement

structure World where
  core : Incidents.World
  bus : EventStore
  notices : RuleStore
  tellings : Nat → Telling
  /-- what the commits so far owe -/
  owed : List Owed

inductive Action
  /-- anything but the end of a promotion's transaction and what follows it -/
  | run (a : Incidents.Action)
  /-- `clock` is `Utc::now()` -/
  | commit (k : Nat) (clock : Int)
  | publish (k : Nat) (now : Instant) (eventId : Uuid) (newId : Uuid → Uuid)
  | select (k : Nat) (rules : List NotificationRule)
  | notify (k : Nat) (now : Instant) (newId : Uuid)
  /-- the head is announced, or the queue empty and the call returns -/
  | next (k : Nat)

def World.setCore (w : World) (core : Incidents.World) : World := { w with core := core }

def World.setTelling (w : World) (k : Nat) (t : Telling) : World :=
  { w with tellings := fun j => if j = k then t else w.tellings j }

def World.setBus (w : World) (bus : EventStore) : World := { w with bus := bus }

def World.setNotices (w : World) (notices : RuleStore) : World := { w with notices := notices }

def World.owe (w : World) (new : List Owed) : World := { w with owed := w.owed ++ new }

/-- The head of a call's queue, which it announces next. -/
def headOf (w : World) (k : Nat) : Option Owed :=
  match w.core.promoters[k]? with
  | some (.announcing (a :: _)) => some ⟨a, (w.tellings k).clock⟩
  | _ => none

/-- What the commit of a call will owe. -/
def owedBy (w : World) (k : Nat) (clock : Int) : List Owed :=
  match w.core.promoters[k]? with
  | some (.working _ done _ _) => (announcements done).map (fun a => ⟨a, clock⟩)
  | _ => []

/-- A promotion's commit and its announcements have actions of their own. -/
def secondHalf : Incidents.Action → Bool
  | .promote _ .commit | .promote _ .announced => true
  | _ => false

variable (env : Pseudonym.Env)

def exec (w : World) : Action → Option World
  | .run a => if secondHalf a then none else (Incidents.exec w.core a).map w.setCore
  | .commit k clock =>
    (Incidents.exec w.core (.promote k .commit)).map (fun core =>
      ((w.setCore core).setTelling k ⟨clock, .publish⟩).owe (owedBy w k clock))
  | .publish k now eventId newId =>
    match headOf w k, (w.tellings k).next with
    | some o, .publish =>
      (publishSanitized env w.bus now eventId newId o.event).map (fun bus =>
        (w.setTelling k ⟨o.clock, .select⟩).setBus bus)
    | _, _ => none
  | .select k rules =>
    match headOf w k, (w.tellings k).next with
    | some o, .select =>
      if rules.Perm (selectedRules w.notices o.notice.eventType) then
        some (w.setTelling k ⟨o.clock, .notify rules⟩)
      else none
    | _, _ => none
  | .notify k now newId =>
    match headOf w k, (w.tellings k).next with
    | some o, .notify (r :: rules) =>
      (enqueueRule w.notices now newId o.notice r).map (fun notices =>
        (w.setTelling k ⟨o.clock, .notify rules⟩).setNotices notices)
    | _, _ => none
  | .next k =>
    match headOf w k, (w.tellings k).next with
    | some o, .notify [] =>
      (Incidents.exec w.core (.promote k .announced)).map (fun core =>
        (w.setCore core).setTelling k ⟨o.clock, .publish⟩)
    | none, _ => (Incidents.exec w.core (.promote k .announced)).map w.setCore
    | _, _ => none

/-- The incidents' system at its beginning, nothing published, and any consumers, rules and
channels. -/
def Initial (w : World) : Prop :=
  Incidents.Initial w.core ∧ w.bus.events = Table.empty _ ∧ w.bus.deliveries = Table.empty _ ∧
    w.notices.queue.events = Table.empty _ ∧ w.owed = []

def announcementSystem : TSys World Action := TSys.ofExec Initial (exec env)

/-! ## What a step can do -/

inductive Announces (w : World) : Action → World → Prop
  | run {a : Incidents.Action} {core : Incidents.World} (ha : secondHalf a = false)
      (hcore : Incidents.exec w.core a = some core) : Announces w (.run a) (w.setCore core)
  | commit {k : Nat} {clock : Int} {start : Instant} {done : List Promotion} {db : Incidents.Db}
      (hk : w.core.promoters[k]? = some (.working start done .next []))
      (hwrites : done.foldlM (writePromotion start) w.core.db = some db) :
      Announces w (.commit k clock)
        (((w.setCore (w.core.setPromoter k db (.announcing (announcements done)))).setTelling k
          ⟨clock, .publish⟩).owe (owedBy w k clock))
  | publish {k : Nat} {o : Owed} {now : Instant} {eventId : Uuid} {newId : Uuid → Uuid}
      {bus : EventStore} (ho : headOf w k = some o)
      (hpub : publishSanitized env w.bus now eventId newId o.event = some bus) :
      Announces w (.publish k now eventId newId) ((w.setTelling k ⟨o.clock, .select⟩).setBus bus)
  | select {k : Nat} {o : Owed} {rules : List NotificationRule} (ho : headOf w k = some o)
      (hnext : (w.tellings k).next = .select)
      (hrules : rules.Perm (selectedRules w.notices o.notice.eventType)) :
      Announces w (.select k rules) (w.setTelling k ⟨o.clock, .notify rules⟩)
  | notify {k : Nat} {o : Owed} {r : NotificationRule} {rules : List NotificationRule}
      {now : Instant} {newId : Uuid} {notices : RuleStore} (ho : headOf w k = some o)
      (hnext : (w.tellings k).next = .notify (r :: rules))
      (hturn : Enqueued w.notices o.notice r notices) :
      Announces w (.notify k now newId)
        ((w.setTelling k ⟨o.clock, .notify rules⟩).setNotices notices)
  | next {k : Nat} {a : Announcement} {queue : List Announcement}
      (hk : w.core.promoters[k]? = some (.announcing (a :: queue)))
      (hnext : (w.tellings k).next = .notify []) :
      Announces w (.next k)
        ((w.setCore (w.core.setPromoter k w.core.db (.announcing queue))).setTelling k
          ⟨(w.tellings k).clock, .publish⟩)
  | return {k : Nat} (hk : w.core.promoters[k]? = some (.announcing [])) :
      Announces w (.next k) (w.setCore (w.core.setPromoter k w.core.db .idle))

variable {env}

theorem World.owe_nil (w : World) : w.owe [] = w := by
  unfold World.owe
  rw [List.append_nil]

theorem mem_owedBy {w : World} {k : Nat} {clock : Int} {o : Owed} {start : Instant}
    {done : List Promotion} {stage : Stage} {todo : List Correlation.IncidentCandidate}
    (hk : w.core.promoters[k]? = some (.working start done stage todo)) :
    o ∈ owedBy w k clock ↔ o.announcement ∈ announcements done ∧ o.clock = clock := by
  simp only [owedBy, hk, List.mem_map]
  constructor
  · rintro ⟨a, ha, rfl⟩
    exact ⟨ha, rfl⟩
  · rintro ⟨ha, rfl⟩
    exact ⟨o.announcement, ha, rfl⟩

theorem headOf_eq_some {w : World} {k : Nat} {o : Owed} :
    headOf w k = some o ↔ o.clock = (w.tellings k).clock ∧
      ∃ queue, w.core.promoters[k]? = some (.announcing (o.announcement :: queue)) := by
  unfold headOf
  split
  case h_1 a queue hk =>
    simp only [hk, Option.some.injEq, Promoter.announcing.injEq, List.cons.injEq]
    constructor
    · rintro rfl
      exact ⟨rfl, queue, rfl, rfl⟩
    · rintro ⟨hclock, -, rfl, -⟩
      rw [← hclock]
  case h_2 hno =>
    simp only [reduceCtorEq, false_iff, not_and, not_exists]
    exact fun _ queue hk => hno _ queue hk

theorem commit_eq_some {w core : Incidents.World} {k : Nat}
    (h : Incidents.exec w (.promote k .commit) = some core) :
    ∃ start done db, w.promoters[k]? = some (.working start done .next []) ∧
      done.foldlM (writePromotion start) w.db = some db ∧
      core = w.setPromoter k db (.announcing (announcements done)) := by
  obtain ⟨p, hk, h⟩ := bind_eq_some_iff.1 h
  obtain ⟨⟨db, p'⟩, hs, rfl⟩ := map_eq_some_iff.1 h
  unfold promoterStep at hs
  split at hs <;> try contradiction
  case h_9 start done _ =>
    obtain ⟨db', hwrites, he⟩ := map_eq_some_iff.1 hs
    cases he
    exact ⟨start, done, db, hk, hwrites, rfl⟩

theorem announced_eq_some {w core : Incidents.World} {k : Nat}
    (h : Incidents.exec w (.promote k .announced) = some core) :
    (∃ a queue, w.promoters[k]? = some (.announcing (a :: queue)) ∧
      core = w.setPromoter k w.db (.announcing queue)) ∨
    w.promoters[k]? = some (.announcing []) ∧ core = w.setPromoter k w.db .idle := by
  obtain ⟨p, hk, h⟩ := bind_eq_some_iff.1 h
  obtain ⟨⟨db, p'⟩, hs, rfl⟩ := map_eq_some_iff.1 h
  unfold promoterStep at hs
  split at hs <;> try contradiction
  case h_10 =>
    cases hs
    exact Or.inl ⟨_, _, hk, rfl⟩
  case h_11 =>
    cases hs
    exact Or.inr ⟨hk, rfl⟩

theorem announces_of_exec {w w' : World} {a : Action} (h : exec env w a = some w') :
    Announces env w a w' := by
  cases a with
  | run a =>
    simp only [exec] at h
    split at h
    case isTrue => cases h
    case isFalse ha =>
      obtain ⟨core, hcore, rfl⟩ := map_eq_some_iff.1 h
      exact .run (Bool.eq_false_of_not_eq_true ha) hcore
  | commit k clock =>
    obtain ⟨core, hcore, rfl⟩ := map_eq_some_iff.1 h
    obtain ⟨start, done, db, hk, hwrites, rfl⟩ := commit_eq_some hcore
    exact .commit hk hwrites
  | publish k now eventId newId =>
    simp only [exec] at h
    split at h
    case h_1 ho _ =>
      obtain ⟨bus, hbus, rfl⟩ := map_eq_some_iff.1 h
      exact .publish ho hbus
    case h_2 => cases h
  | select k rules =>
    simp only [exec] at h
    split at h
    case h_1 ho hnext =>
      split at h <;> cases h
      exact .select ho hnext (by assumption)
    case h_2 => cases h
  | notify k now newId =>
    simp only [exec] at h
    split at h
    case h_1 ho hnext =>
      obtain ⟨notices, hturn, rfl⟩ := map_eq_some_iff.1 h
      exact .notify ho hnext (enqueueRule_spec hturn)
    case h_2 => cases h
  | next k =>
    simp only [exec] at h
    split at h
    case h_1 ho hnext =>
      obtain ⟨core, hcore, rfl⟩ := map_eq_some_iff.1 h
      obtain ⟨hclock, queue, hk⟩ := headOf_eq_some.1 ho
      rcases announced_eq_some hcore with ⟨a, queue', hk', rfl⟩ | ⟨hk', -⟩
      · rw [hclock]
        exact .next hk' hnext
      · rw [hk] at hk'
        cases hk'
    case h_2 hnone =>
      obtain ⟨core, hcore, rfl⟩ := map_eq_some_iff.1 h
      rcases announced_eq_some hcore with ⟨a, queue, hk, -⟩ | ⟨hk, rfl⟩
      · have hhead : headOf w k = some ⟨a, (w.tellings k).clock⟩ :=
          headOf_eq_some.2 ⟨rfl, queue, hk⟩
        rw [hnone] at hhead
        cases hhead
      · exact .return hk
    case h_3 => cases h

end Clawforge.Announcements

import Clawforge.Theorems.Announcements

/-!
# No silent incident

Whatever a call still has to announce is in its queue, and what left the queue is stored: so an
announcement is lost exactly with the call that holds it. Where no call is cut short in its
second half, every incident and every escalation is announced once its call is over.
-/

namespace Clawforge.Announcements

open Kit EventDelivery Notifications Incidents TSys Table List Option

/-! ## The property -/

/-- A call that is still running has it in its queue. -/
def Pending (w : World) (o : Owed) : Prop :=
  ∃ k queue, w.core.promoters[k]? = some (.announcing queue) ∧ o.announcement ∈ queue ∧
    (w.tellings k).clock = o.clock

/-- Exactly one event, and exactly one notification for each matching channel. -/
def AnnouncedOnce (w : World) (o : Owed) : Prop :=
  w.bus.events.rows.countP (fun e => e.dedupeKey = o.source.dedupeKey) = 1 ∧
    ∀ c ∈ matchingChannels w.notices o.notice,
      w.notices.queue.events.rows.countP (fun x => x.dedupeKey = noticeKey o.notice c) = 1

/-- Every incident is owed an announcement of its own, and what is owed is announced once its
call is over. -/
structure NoneSilent (w : World) : Prop where
  created : ∀ i ∈ w.core.db.incidents, ∃ o ∈ w.owed, o.source = .incidentCreated i.id
  distinct : (w.owed.map (fun o => o.source.dedupeKey)).Nodup
  announced : ∀ o ∈ w.owed, Pending w o ∨ AnnouncedOnce w o

/-- A step that changes what an incident shows owes its escalation. -/
def EscalationsOwed (w w' : World) : Prop :=
  ∀ i ∈ w.core.db.incidents, ∀ i' ∈ w'.core.db.incidents, i'.id = i.id → i'.core ≠ i.core →
    ∃ new, w'.owed = w.owed ++ new ∧
      ∃ o ∈ new, o.announcement.escalated = true ∧ o.announcement.incident = i.id

/-- No call fails or dies while it has something to announce, and no commit escalates an
incident at a nanosecond at which it was escalated before. -/
def NotCutShort (w : World) : Action → Prop
  | .run (.promote k .abort) => headOf w k = none
  | .commit k clock => ∀ o ∈ owedBy w k clock, o.announcement.escalated = true →
      o.source ∉ w.owed.map Owed.source
  | _ => True

instance (w : World) (a : Action) : Decidable (NotCutShort w a) := by
  unfold NotCutShort
  split <;> infer_instance

/-! ## The first half -/

variable {db : Incidents.Db} {w' : World} {o : Owed}

theorem promoterStep_first {w : Incidents.World} {p p' : Promoter} {a : PromoterAction}
    (hcommit : a ≠ .commit) (hannounced : a ≠ .announced) (h : promoterStep w p a = some (db, p')) :
    db = w.db ∧ (∀ queue, p' ≠ .announcing queue) ∧
      ∀ queue, p = .announcing queue → a = .abort := by
  unfold promoterStep at h
  split at h
  case h_1 =>
    split at h <;> cases h
    exact ⟨rfl, nofun, nofun⟩
  case h_2 =>
    split at h
    case isFalse => cases h
    case isTrue =>
      split at h
      · cases h
        exact ⟨rfl, nofun, nofun⟩
      · split at h
        · split at h <;> cases h
          · exact ⟨rfl, nofun, nofun⟩
          · exact ⟨rfl, nofun, nofun⟩
        · cases h
          exact ⟨rfl, nofun, nofun⟩
  case h_3 =>
    split at h <;> cases h
    exact ⟨rfl, nofun, nofun⟩
  case h_4 =>
    cases h
    exact ⟨rfl, nofun, nofun⟩
  case h_5 =>
    cases h
    exact ⟨rfl, nofun, nofun⟩
  case h_6 =>
    split at h <;> cases h
    exact ⟨rfl, nofun, nofun⟩
  case h_7 =>
    cases h
    exact ⟨rfl, nofun, nofun⟩
  case h_8 =>
    split at h <;> cases h
    exact ⟨rfl, nofun, nofun⟩
  case h_9 => exact absurd rfl hcommit
  case h_10 => exact absurd rfl hannounced
  case h_11 => exact absurd rfl hannounced
  case h_12 =>
    cases h
    exact ⟨rfl, nofun, fun _ _ => rfl⟩
  case h_13 => cases h

/-- Incidents stay, and keep what they show. -/
def SameIncidents (db db' : Incidents.Db) : Prop :=
  (∀ i ∈ db.incidents, ∃ i' ∈ db'.incidents, i'.id = i.id) ∧
    ∀ i' ∈ db'.incidents, ∃ i ∈ db.incidents, i.core = i'.core

theorem SameIncidents.of_eq {db' : Incidents.Db} (h : db'.incidents = db.incidents) :
    SameIncidents db db' := by
  unfold SameIncidents
  rw [h]
  exact ⟨fun i hi => ⟨i, hi, rfl⟩, fun i hi => ⟨i, hi, rfl⟩⟩

/-- A step of the first half announces nothing and leaves what incidents show. -/
structure FirstHalf (a : Incidents.Action) (w w' : Incidents.World) : Prop where
  incidents : SameIncidents w.db w'.db
  announcing : ∀ (k : Nat) (queue : List Announcement), w'.promoters[k]? = some (.announcing queue) →
    w.promoters[k]? = some (.announcing queue)
  kept : ∀ (k : Nat) (queue : List Announcement), w.promoters[k]? = some (.announcing queue) →
    a ≠ .promote k .abort → w'.promoters[k]? = some (.announcing queue)

theorem firstHalf_of_exec {w w' : Incidents.World} {a : Incidents.Action}
    (ha : secondHalf a = false) (h : Incidents.exec w a = some w') : FirstHalf a w w' := by
  cases a with
  | correlate a =>
    obtain ⟨k, s, corr, rfl, -⟩ := correlate_eq_some h
    exact ⟨.of_eq rfl, fun _ _ hq => hq, fun _ _ hq _ => hq⟩
  | operate k a =>
    obtain ⟨o, -, h⟩ := bind_eq_some_iff.1 h
    obtain ⟨⟨db, o'⟩, hs, rfl⟩ := map_eq_some_iff.1 h
    refine ⟨?_, fun _ _ hq => hq, fun _ _ hq _ => hq⟩
    cases operates_of_operatorStep hs with
    | hold => exact .of_eq rfl
    | ends => exact .of_eq rfl
    | @commit start incident current next changedBy reason =>
      refine ⟨fun i hi => ⟨_, mem_writeTransition.2 ⟨i, hi, rfl⟩, ?_⟩, fun i' hi' => ?_⟩
      · split
        · rfl
        · rfl
      · obtain ⟨i, hi, rfl⟩ := mem_writeTransition.1 hi'
        refine ⟨i, hi, ?_⟩
        split
        · rfl
        · rfl
  | promote k a =>
    obtain ⟨p, hk, h⟩ := bind_eq_some_iff.1 h
    obtain ⟨⟨db, p'⟩, hs, rfl⟩ := map_eq_some_iff.1 h
    have hcommit : a ≠ .commit := by
      rintro rfl
      cases ha
    have hannounced : a ≠ .announced := by
      rintro rfl
      cases ha
    obtain ⟨rfl, hno, habort⟩ := promoterStep_first hcommit hannounced hs
    refine ⟨.of_eq rfl, fun j queue hj => ?_, fun j queue hj hother => ?_⟩
    · rcases getElem?_set_cases hj with ⟨-, heq⟩ | ⟨-, hj⟩
      · exact absurd heq.symm (hno queue)
      · exact hj
    · by_cases hjk : j = k
      · subst hjk
        rw [hk] at hj
        exact absurd (congrArg _ (habort queue (some.inj hj))) hother
      · show (w.promoters.set k p')[j]? = _
        rw [getElem?_set_of_ne hjk]
        exact hj

/-! ## What has been told -/

def HasEvent (bus : EventStore) (o : Owed) : Prop :=
  ∃ e ∈ bus.events, e.dedupeKey = o.source.dedupeKey

def HasNotice (notices : RuleStore) (o : Owed) (channel : Uuid) : Prop :=
  ∃ x ∈ notices.queue.events, x.dedupeKey = noticeKey o.notice channel

/-- The loop has had its turn for these rules. -/
def Through (notices : RuleStore) (o : Owed) (rules : List NotificationRule) : Prop :=
  ∀ r ∈ rules, Reaches o.notice r → HasNotice notices o r.channelId

/-- What is stored of an announcement by its next statement. -/
def Sent (bus : EventStore) (notices : RuleStore) (o : Owed) : Statement → Prop
  | .publish => True
  | .select => HasEvent bus o
  | .notify rest => HasEvent bus o ∧ ∃ rules,
      (rules ++ rest).Perm (selectedRules notices o.notice.eventType) ∧ Through notices o rules

def Settled (bus : EventStore) (notices : RuleStore) (o : Owed) : Prop :=
  HasEvent bus o ∧ ∀ c ∈ matchingChannels notices o.notice, HasNotice notices o c

theorem settled_of_sent {bus : EventStore} {notices : RuleStore}
    (h : Sent bus notices o (.notify [])) : Settled bus notices o := by
  obtain ⟨hevent, rules, hperm, hthrough⟩ := h
  refine ⟨hevent, fun c hc => ?_⟩
  obtain ⟨r, hr, rfl⟩ := List.mem_map.1 hc
  obtain ⟨hr, hreaches⟩ := mem_filter.1 hr
  rw [append_nil] at hperm
  exact hthrough r (hperm.mem_iff.2 hr) (of_decide_eq_true hreaches)

/-- Nothing stored is lost, and rules and channels stay. -/
structure Later (bus bus' : EventStore) (notices notices' : RuleStore) : Prop where
  events : ∀ e ∈ bus.events, e ∈ bus'.events
  queue : ∀ x ∈ notices.queue.events, x ∈ notices'.queue.events
  rules : notices'.rules = notices.rules
  channels : notices'.queue.channels = notices.queue.channels

section Later

variable {bus bus' : EventStore} {notices notices' : RuleStore} {o : Owed}

theorem HasEvent.later (h : HasEvent bus o) (hl : Later bus bus' notices notices') :
    HasEvent bus' o := by
  obtain ⟨e, he, hkey⟩ := h
  exact ⟨e, hl.events e he, hkey⟩

theorem HasNotice.later {c : Uuid} (h : HasNotice notices o c)
    (hl : Later bus bus' notices notices') : HasNotice notices' o c := by
  obtain ⟨x, hx, hkey⟩ := h
  exact ⟨x, hl.queue x hx, hkey⟩

theorem selectedRules_later (hl : Later bus bus' notices notices') (eventType : String) :
    selectedRules notices' eventType = selectedRules notices eventType :=
  selectedRules_same hl.rules hl.channels eventType

theorem Sent.later {next : Statement} (h : Sent bus notices o next)
    (hl : Later bus bus' notices notices') : Sent bus' notices' o next := by
  cases next with
  | publish => trivial
  | select => exact HasEvent.later h hl
  | notify rest =>
    obtain ⟨hevent, rules, hperm, hthrough⟩ := h
    refine ⟨hevent.later hl, rules, ?_, fun r hr hreaches => (hthrough r hr hreaches).later hl⟩
    rw [selectedRules_later hl]
    exact hperm

theorem Settled.later (h : Settled bus notices o) (hl : Later bus bus' notices notices') :
    Settled bus' notices' o := by
  refine ⟨h.1.later hl, fun c hc => ?_⟩
  rw [matchingChannels_same hl.rules hl.channels] at hc
  exact (h.2 c hc).later hl

end Later

/-! ## Calls under way -/

/-- What is owed is in a queue or stored, and what is stored for a head is what its call has
written so far. -/
structure Told (w : World) : Prop where
  bus : Sound w.bus
  keys : (w.notices.queue.events.rows.map NotificationEvent.dedupeKey).Nodup
  heads : ∀ k o, headOf w k = some o → Sent w.bus w.notices o (w.tellings k).next
  told : ∀ o ∈ w.owed, Pending w o ∨ Settled w.bus w.notices o

variable {w : World}

theorem headOf_congr {k : Nat} (hp : w'.core.promoters[k]? = w.core.promoters[k]?)
    (hclock : (w'.tellings k).clock = (w.tellings k).clock) : headOf w' k = headOf w k := by
  unfold headOf
  rw [hp, hclock]

section Step

variable {w : World} {notices : RuleStore} {notices' : RuleStore} {r : NotificationRule}

/-- A call's statement for its head: what it stores is what the next one relies on. -/
theorem Told.send (h : Told w) {k : Nat} {o : Owed} {next : Statement} {bus : EventStore}
    (ho : headOf w k = some o) (hl : Later w.bus bus w.notices notices) (hbus : Sound bus)
    (hkeys : (notices.queue.events.rows.map NotificationEvent.dedupeKey).Nodup)
    (hsent : Sent bus notices o next) :
    Told (((w.setTelling k ⟨o.clock, next⟩).setBus bus).setNotices notices) := by
  have hclock : ∀ j, ((w.setTelling k ⟨o.clock, next⟩).tellings j).clock =
      (w.tellings j).clock := by
    intro j
    simp only [World.setTelling]
    split
    case isTrue hj =>
      rw [hj]
      exact (headOf_eq_some.1 ho).1
    case isFalse => rfl
  refine ⟨hbus, hkeys, fun j o' hj => ?_, fun o' ho' => ?_⟩
  · have hsame : headOf (((w.setTelling k ⟨o.clock, next⟩).setBus bus).setNotices notices) j =
        headOf w j := headOf_congr rfl (hclock j)
    rw [hsame] at hj
    show Sent bus notices o' (if j = k then (⟨o.clock, next⟩ : Telling) else w.tellings j).next
    split
    case isTrue hjk =>
      subst hjk
      rw [ho] at hj
      cases hj
      exact hsent
    case isFalse => exact (h.heads j o' hj).later hl
  · rcases h.told o' ho' with ⟨j, queue, hj, hmem, hsame⟩ | hsettled
    · exact .inl ⟨j, queue, hj, hmem, (hclock j).trans hsame⟩
    · exact .inr (hsettled.later hl)

theorem Told.run (h : Told w) {a : Incidents.Action} {core : Incidents.World}
    (hfirst : FirstHalf a w.core core) (hc : NotCutShort w (.run a)) : Told (w.setCore core) := by
  refine ⟨h.bus, h.keys, fun k o ho => ?_, fun o ho => ?_⟩
  · obtain ⟨hclock, queue, hk⟩ := headOf_eq_some.1 ho
    exact h.heads k o (headOf_eq_some.2 ⟨hclock, queue, hfirst.announcing k _ hk⟩)
  · rcases h.told o ho with ⟨k, queue, hk, hmem, hclock⟩ | hsettled
    · refine .inl ⟨k, queue, hfirst.kept k queue hk ?_, hmem, hclock⟩
      rintro rfl
      cases queue with
      | nil => exact absurd hmem not_mem_nil
      | cons b queue =>
        have hhead : headOf w k = some ⟨b, (w.tellings k).clock⟩ :=
          headOf_eq_some.2 ⟨rfl, queue, hk⟩
        rw [show headOf w k = none from hc] at hhead
        cases hhead
    · exact .inr hsettled

/-- A call turns to a queue: that of its commit, or the rest of its queue once the head is
announced. -/
theorem Told.turn (h : Told w) {k : Nat} {p : Promoter} {db : Incidents.Db}
    {queue : List Announcement} {clock : Int} {new : List Owed}
    (hk : w.core.promoters[k]? = some p)
    (hleft : ∀ q, p = .announcing q → clock = (w.tellings k).clock ∧
      ∀ a ∈ q, a ∈ queue ∨ Settled w.bus w.notices ⟨a, clock⟩)
    (hnew : ∀ o ∈ new, o.announcement ∈ queue ∧ clock = o.clock) :
    Told (((w.setCore (w.core.setPromoter k db (.announcing queue))).setTelling k
      ⟨clock, .publish⟩).owe new) := by
  have hlength : k < w.core.promoters.length := (List.getElem?_eq_some_iff.1 hk).1
  have hown : (w.core.setPromoter k db (.announcing queue)).promoters[k]? =
      some (.announcing queue) := getElem?_set_self hlength
  have hown' : ∀ o : Owed, o.announcement ∈ queue → clock = o.clock →
      Pending (((w.setCore (w.core.setPromoter k db (.announcing queue))).setTelling k
        ⟨clock, .publish⟩).owe new) o := by
    intro o hmem hclock
    refine ⟨k, queue, hown, hmem, ?_⟩
    simp only [World.setTelling, World.owe, if_true]
    exact hclock
  refine ⟨h.bus, h.keys, fun j o hj => ?_, fun o ho => ?_⟩
  · show Sent w.bus w.notices o (if j = k then (⟨clock, .publish⟩ : Telling) else w.tellings j).next
    obtain ⟨hclock, q, hq⟩ := headOf_eq_some.1 hj
    split
    case isTrue => trivial
    case isFalse hjk =>
      have hother : w.core.promoters[j]? = some (.announcing (o.announcement :: q)) :=
        (getElem?_set_of_ne hjk).symm.trans hq
      simp only [World.setTelling, World.owe, if_neg hjk] at hclock
      exact h.heads j o (headOf_eq_some.2 ⟨hclock, q, hother⟩)
  · rcases mem_append.1 ho with ho | ho
    · rcases h.told o ho with ⟨j, q, hj, hmem, hclock⟩ | hsettled
      · by_cases hjk : j = k
        · subst hjk
          rw [hk] at hj
          obtain ⟨hsame, hq⟩ := hleft q (some.inj hj)
          have hclock' : clock = o.clock := hsame.trans hclock
          rcases hq o.announcement hmem with hmem | hsettled
          · exact .inl (hown' o hmem hclock')
          · rw [hclock'] at hsettled
            exact .inr hsettled
        · refine .inl ⟨j, q, (getElem?_set_of_ne hjk).trans hj, hmem, ?_⟩
          simp only [World.setTelling, World.owe, if_neg hjk]
          exact hclock
      · exact .inr hsettled
    · obtain ⟨hmem, hclock⟩ := hnew o ho
      exact .inl (hown' o hmem hclock)

theorem Told.return (h : Told w) {k : Nat} {db : Incidents.Db}
    (hk : w.core.promoters[k]? = some (.announcing [])) :
    Told (w.setCore (w.core.setPromoter k db .idle)) := by
  have hother : ∀ (j : Nat) (a : Announcement) (q : List Announcement), a ∈ q →
      w.core.promoters[j]? = some (.announcing q) → j ≠ k := by
    rintro j a q ha hj rfl
    rw [hk] at hj
    cases hj
    exact absurd ha not_mem_nil
  refine ⟨h.bus, h.keys, fun j o hj => ?_, fun o ho => ?_⟩
  · obtain ⟨hclock, q, hq⟩ := headOf_eq_some.1 hj
    refine h.heads j o (headOf_eq_some.2 ⟨hclock, q, ?_⟩)
    rcases getElem?_set_cases hq with ⟨-, heq⟩ | ⟨-, hq⟩
    · cases heq
    · exact hq
  · rcases h.told o ho with ⟨j, q, hj, hmem, hclock⟩ | hsettled
    · exact .inl ⟨j, q, (getElem?_set_of_ne (hother j _ q hmem hj)).trans hj, hmem, hclock⟩
    · exact .inr hsettled

theorem later_of_enqueued {bus : EventStore} {n : Notice} (h : Enqueued notices n r notices') :
    Later bus bus notices notices' := by
  refine ⟨fun _ he => he, fun x hx => ?_, h.same.1, h.same.2⟩
  cases h with
  | below => exact hx
  | known => exact hx
  | inserted _ _ _ _ hrows =>
    rw [Table.mem_def, hrows]
    exact mem_append_left _ hx

theorem keys_of_enqueued {n : Notice} (h : Enqueued notices n r notices')
    (hkeys : (notices.queue.events.rows.map NotificationEvent.dedupeKey).Nodup) :
    (notices'.queue.events.rows.map NotificationEvent.dedupeKey).Nodup := by
  cases h with
  | below => exact hkeys
  | known => exact hkeys
  | @inserted x queue hreaches hfree hchannel hkey hrows =>
    show (queue.events.rows.map NotificationEvent.dedupeKey).Nodup
    rw [hrows, map_append, nodup_append]
    refine ⟨hkeys, nodup_singleton _, fun a ha b hb hab => ?_⟩
    obtain ⟨y, hy, rfl⟩ := List.mem_map.1 ha
    rw [map_cons, map_nil, mem_singleton, hkey] at hb
    exact hfree y hy (hab.trans hb)

theorem hasNotice_of_enqueued {o : Owed} (h : Enqueued notices o.notice r notices')
    (hreaches : Reaches o.notice r) : HasNotice notices' o r.channelId := by
  cases h with
  | below hno => exact absurd hreaches hno
  | known _ hknown => exact hknown
  | @inserted x queue _ hfree hchannel hkey hrows =>
    refine ⟨x, ?_, hkey⟩
    show x ∈ queue.events.rows
    rw [hrows]
    exact mem_concat_self

theorem Told.step {w' : World} {a : Action} (h : Told w) (hc : NotCutShort w a)
    (hs : Announces env w a w') : Told w' := by
  have hstay : Later w.bus w.bus w.notices w.notices :=
    ⟨fun _ he => he, fun _ hx => hx, rfl, rfl⟩
  cases hs with
  | run ha hcore => exact h.run (firstHalf_of_exec ha hcore) hc
  | commit hk hwrites =>
    refine h.turn hk (fun q hq => (nomatch hq)) (fun o ho => ?_)
    obtain ⟨ha, hclock⟩ := (mem_owedBy hk).1 ho
    exact ⟨ha, hclock.symm⟩
  | @publish k o now eventId newId bus ho hpub =>
    obtain ⟨e, id, hkey, hpublished⟩ := publishSanitized_spec h.bus hpub
    refine h.send ho ⟨hpublished.kept.events, fun _ hx => hx, rfl, rfl⟩
      (hpublished.sound h.bus) h.keys ?_
    obtain ⟨x, hx, hxkey, -⟩ := hpublished.exists_event
    exact ⟨x, hx, hxkey.trans hkey⟩
  | @select k o rules ho hnext hrules =>
    have hsent := h.heads k o ho
    rw [hnext] at hsent
    refine h.send ho hstay h.bus h.keys ⟨hsent, [], hrules, fun r hr => ?_⟩
    exact absurd hr not_mem_nil
  | @notify k o r rules now newId notices ho hnext hturn =>
    have hsent := h.heads k o ho
    rw [hnext] at hsent
    obtain ⟨hevent, done, hperm, hthrough⟩ := hsent
    have hl : Later w.bus w.bus w.notices notices := later_of_enqueued hturn
    refine h.send ho hl h.bus (keys_of_enqueued hturn h.keys)
      ⟨hevent, done ++ [r], ?_, fun r' hr' hreaches => ?_⟩
    · rw [append_assoc, selectedRules_later hl]
      exact hperm
    · rcases mem_append.1 hr' with hr' | hr'
      · exact (hthrough r' hr' hreaches).later hl
      · rw [mem_singleton.1 hr'] at hreaches ⊢
        exact hasNotice_of_enqueued hturn hreaches
  | @next k a queue hk hnext =>
    rw [← World.owe_nil (World.setTelling _ _ _)]
    refine h.turn hk (fun q hq => ⟨rfl, fun b hb => ?_⟩) (fun o ho => absurd ho not_mem_nil)
    cases hq
    rcases mem_cons.1 hb with rfl | hb
    · have hsent := h.heads k ⟨b, (w.tellings k).clock⟩ (headOf_eq_some.2 ⟨rfl, queue, hk⟩)
      rw [hnext] at hsent
      exact .inr (settled_of_sent hsent)
    · exact .inl hb
  | «return» hk => exact h.return hk

end Step

/-! ## What is owed -/

structure Owing (w : World) : Prop where
  created : ∀ i ∈ w.core.db.incidents, ∃ o ∈ w.owed, o.source = .incidentCreated i.id
  stored : ∀ o ∈ w.owed, ∃ i ∈ w.core.db.incidents, i.id = o.announcement.incident
  distinct : (w.owed.map Owed.source).Nodup

theorem incident_of_source {o' : Owed} (h : o.source = o'.source) :
    o.announcement.incident = o'.announcement.incident := by
  unfold Owed.source at h
  split at h
  · split at h
    · injection h
    · cases h
  · split at h
    · cases h
    · injection h

theorem source_of_created (h : o.announcement.escalated = false) :
    o.source = .incidentCreated o.announcement.incident := by
  unfold Owed.source
  rw [h]
  rfl

theorem Owing.same (h : Owing w) (hsame : SameIncidents w.core.db w'.core.db)
    (howed : w'.owed = w.owed) : Owing w' ∧ EscalationsOwed w w' := by
  refine ⟨⟨fun i' hi' => ?_, fun o ho => ?_, howed ▸ h.distinct⟩, fun i hi i' hi' hid hcore => ?_⟩
  · obtain ⟨i, hi, hcore⟩ := hsame.2 i' hi'
    obtain ⟨o, ho, hsource⟩ := h.created i hi
    refine ⟨o, howed ▸ ho, hsource.trans (congrArg _ ?_)⟩
    exact congrArg Prod.fst hcore
  · obtain ⟨i, hi, hid⟩ := h.stored o (howed ▸ ho)
    obtain ⟨i', hi', hid'⟩ := hsame.1 i hi
    exact ⟨i', hi', hid'.trans hid⟩
  · obtain ⟨j, hj, hsame⟩ := hsame.2 i' hi'
    have hji : j = i := eq_of_key_eq hj hi ((congrArg Prod.fst hsame).trans hid)
    rw [hji] at hsame
    exact absurd hsame.symm hcore

theorem Owing.commit (h : Owing w) (hsynced : Synced w.core) {k : Nat} {clock : Int}
    {start : Instant} {done : List Promotion} {t : Telling} {p : Promoter}
    (hk : w.core.promoters[k]? = some (.working start done .next []))
    (hwrites : done.foldlM (writePromotion start) w.core.db = some db)
    (hc : NotCutShort w (.commit k clock)) :
    let w' := ((w.setCore (w.core.setPromoter k db p)).setTelling k t).owe (owedBy w k clock)
    Owing w' ∧ EscalationsOwed w w' := by
  have hmem : ∀ o, o ∈ owedBy w k clock ↔ o.announcement ∈ announcements done ∧ o.clock = clock :=
    fun o => mem_owedBy hk
  have hprepared := hsynced.promoters k _ hk
  have honce : (done.map (fun q => q.candidate.id)).Nodup := by
    have hlocks := hsynced.exclusive.once (.promoter k)
    simp only [locksOf, hk, map_some, getD_some, Promoter.locks, Promoter.held,
      Stage.candidate, append_nil, List.map_map] at hlocks
    exact hlocks
  have hids := owners_nodup hwrites
    (fun q hq => (hprepared.ready.1 q hq).owner.found) honce
  obtain ⟨hkept, hcreated⟩ := promotions_created hwrites
  -- what is announced as created has been created by this commit
  have hfresh : ∀ o ∈ owedBy w k clock, o.announcement.escalated = false →
      ∀ i ∈ w.core.db.incidents, i.id ≠ o.announcement.incident := by
    intro o ho hfirst i hi
    obtain ⟨q, hq, hid, howner⟩ := mem_announcements ((hmem o).1 ho).1
    rw [hfirst] at howner
    obtain ⟨row, hrow⟩ := howner
    rw [hid, hrow]
    exact (hcreated q hq row hrow).1 i hi
  refine ⟨⟨fun i' hi' => ?_, fun o ho => ?_, ?_⟩, fun i hi i' hi' hid hcore => ?_⟩
  · rcases promotions_incidents hwrites hi' with ⟨i, hi, hid, -⟩ | ⟨q, hq, row, hrow, hid⟩
    · obtain ⟨o, ho, hsource⟩ := h.created i hi
      exact ⟨o, mem_append_left _ ho, hsource.trans (congrArg _ hid)⟩
    · obtain ⟨a, ha, hincident, hfirst⟩ := announcement_of_created hq hrow
      refine ⟨⟨a, clock⟩, mem_append_right _ ((hmem _).2 ⟨ha, rfl⟩), ?_⟩
      rw [source_of_created hfirst]
      exact congrArg _ (hincident.trans hid)
  · rcases mem_append.1 ho with ho | ho
    · obtain ⟨i, hi, hid⟩ := h.stored o ho
      obtain ⟨i', hi', hid'⟩ := hkept i hi
      exact ⟨i', hi', hid'.trans hid⟩
    · obtain ⟨q, hq, hid, howner⟩ := mem_announcements ((hmem o).1 ho).1
      cases ho' : q.owner with
      | created row =>
        obtain ⟨i, hi, hrow⟩ := (hcreated q hq row ho').2
        rw [ho'] at hid
        exact ⟨i, hi, hrow.trans hid.symm⟩
      | existing row =>
        obtain ⟨i, hi, hrow, -⟩ := (hprepared.ready.1 q hq).owner.found row ho'
        obtain ⟨i', hi', hid'⟩ := hkept i hi
        rw [ho'] at hid
        exact ⟨i', hi', hid'.trans (hrow.trans hid.symm)⟩
  · show ((w.owed ++ owedBy w k clock).map Owed.source).Nodup
    rw [map_append, nodup_append]
    refine ⟨h.distinct, ?_, fun s hs s' hs' heq => ?_⟩
    · have hincidents : ((owedBy w k clock).map (fun o => o.announcement.incident)).Nodup := by
        have hnodup := announcements_nodup hids
        simp only [owedBy, hk, List.map_map]
        exact hnodup
      refine pairwise_map.2 ((pairwise_map.1 hincidents).imp (fun hne heq => ?_))
      exact hne (incident_of_source heq)
    · obtain ⟨o, ho, rfl⟩ := List.mem_map.1 hs
      obtain ⟨o', ho', rfl⟩ := List.mem_map.1 hs'
      cases hkind : o'.announcement.escalated with
      | true => exact hc o' ho' hkind (heq ▸ hs)
      | false =>
        obtain ⟨i, hi, hid⟩ := h.stored o ho
        exact hfresh o' ho' hkind i hi (hid.trans (incident_of_source heq))
  · rcases promotions_incidents hwrites hi' with ⟨j, hj, hji', hsame⟩ | ⟨q, hq, row, hrow, hq'⟩
    · have hji : j = i := eq_of_key_eq hj hi (hji'.trans hid)
      subst hji
      rcases hsame with hsame | ⟨q, hq, row, hrow, hesc, hrid⟩
      · exact absurd hsame.symm hcore
      · obtain ⟨a, ha, hincident, hescalated⟩ := announcement_of_escalated hq hrow hesc
        exact ⟨owedBy w k clock, rfl, ⟨a, clock⟩, (hmem _).2 ⟨ha, rfl⟩, hescalated,
          hincident.trans (hrid.trans hid)⟩
    · exact absurd (hid.symm.trans hq'.symm) ((hcreated q hq row hrow).1 i hi)

theorem Owing.step {a : Action} (h : Owing w) (hsynced : Synced w.core) (hc : NotCutShort w a)
    (hs : Announces env w a w') : Owing w' ∧ EscalationsOwed w w' := by
  cases hs with
  | run ha hcore => exact h.same (firstHalf_of_exec ha hcore).incidents rfl
  | commit hk hwrites => exact h.commit hsynced hk hwrites hc
  | publish | select | notify | next => exact h.same (.of_eq rfl) rfl
  | «return» => exact h.same (.of_eq rfl) rfl

/-! ## Every run -/

/-- A step is one of the incidents' system, or none of it. -/
theorem core_step {a : Action} (h : exec env w a = some w') :
    w'.core = w.core ∨ ∃ b, Incidents.exec w.core b = some w'.core := by
  cases a with
  | run a =>
    simp only [exec] at h
    split at h
    · cases h
    · obtain ⟨core, hcore, rfl⟩ := map_eq_some_iff.1 h
      exact .inr ⟨_, hcore⟩
  | commit k clock =>
    obtain ⟨core, hcore, rfl⟩ := map_eq_some_iff.1 h
    exact .inr ⟨_, hcore⟩
  | publish k now eventId newId =>
    simp only [exec] at h
    split at h
    · obtain ⟨bus, -, rfl⟩ := map_eq_some_iff.1 h
      exact .inl rfl
    · cases h
  | select k rules =>
    simp only [exec] at h
    split at h
    · split at h <;> cases h
      exact .inl rfl
    · cases h
  | notify k now newId =>
    simp only [exec] at h
    split at h
    · obtain ⟨notices, -, rfl⟩ := map_eq_some_iff.1 h
      exact .inl rfl
    · cases h
  | next k =>
    simp only [exec] at h
    split at h
    · obtain ⟨core, hcore, rfl⟩ := map_eq_some_iff.1 h
      exact .inr ⟨_, hcore⟩
    · obtain ⟨core, hcore, rfl⟩ := map_eq_some_iff.1 h
      exact .inr ⟨_, hcore⟩
    · cases h

structure Kept (w : World) : Prop where
  synced : Synced w.core
  told : Told w
  owing : Owing w

theorem kept_init (h : Initial w) : Kept w := by
  obtain ⟨hcore, hevents, hdeliveries, hqueue, howed⟩ := h
  have hsound : Sound w.bus := by
    constructor
    case keys =>
      rw [hevents]
      exact nodup_nil
    case pairs =>
      rw [hdeliveries]
      exact nodup_nil
    case known =>
      intro d hd
      rw [hdeliveries] at hd
      exact absurd hd not_mem_empty
  refine ⟨synced_init hcore, ⟨hsound, ?_, fun k o ho => ?_, fun o ho => ?_⟩,
    ⟨fun i hi => ?_, fun o ho => ?_, ?_⟩⟩
  · rw [hqueue]
    exact nodup_nil
  · obtain ⟨-, -, -, -, -, ⟨n, hpromoters⟩, -⟩ := hcore
    obtain ⟨-, queue, hk⟩ := headOf_eq_some.1 ho
    rw [hpromoters] at hk
    cases eq_of_mem_replicate (mem_of_getElem? hk)
  · rw [howed] at ho
    exact absurd ho not_mem_nil
  · rw [hcore.2.1] at hi
    exact absurd hi not_mem_empty
  · rw [howed] at ho
    exact absurd ho not_mem_nil
  · rw [howed]
    exact nodup_nil

theorem Kept.step {a : Action} (h : Kept w) (hc : NotCutShort w a) (hstep : exec env w a = some w') :
    Kept w' ∧ EscalationsOwed w w' := by
  have hs := announces_of_exec hstep
  obtain ⟨howing, hescalations⟩ := h.owing.step h.synced hc hs
  refine ⟨⟨?_, h.told.step hc hs, howing⟩, hescalations⟩
  rcases core_step hstep with hcore | ⟨b, hcore⟩
  · rw [hcore]
    exact h.synced
  · exact (h.synced.step hcore).1

theorem announcedOnce_of_settled (h : Told w) (hs : Settled w.bus w.notices o) :
    AnnouncedOnce w o := by
  obtain ⟨⟨e, he, hkey⟩, hnotices⟩ := hs
  refine ⟨hkey ▸ h.bus.countP_key he, fun c hc => ?_⟩
  obtain ⟨x, hx, hxkey⟩ := hnotices c hc
  have hcount := count_eq_one_of_mem h.keys (List.mem_map_of_mem hx)
  rw [hxkey, count_eq_countP, countP_map] at hcount
  rw [← hcount]
  refine countP_congr (fun y _ => ?_)
  simp only [Function.comp_apply, beq_iff_eq, decide_eq_true_eq]

theorem Kept.noneSilent (h : Kept w) : NoneSilent w where
  created := h.owing.created
  distinct := by
    refine pairwise_map.2 ((pairwise_map.1 h.owing.distinct).imp (fun hne heq => ?_))
    exact hne (source_of_key_eq heq)
  announced o ho := (h.told.told o ho).imp_right (announcedOnce_of_settled h.told)

/-- Where no call is cut short in its second half, no incident and no escalation is silent. -/
theorem none_silent (env : Pseudonym.Env) :
    ((announcementSystem env).restrict NotCutShort).Invariant (fun w =>
      NoneSilent w ∧ ∀ a w', NotCutShort w a → exec env w a = some w' → EscalationsOwed w w') := by
  have hinductive : ((announcementSystem env).restrict NotCutShort).Inductive Kept :=
    { init := fun _ h => kept_init h
      step := fun _ _ _ h hstep => (h.step hstep.1 hstep.2).1 }
  intro w hw
  have hkept := hinductive.invariant w hw
  exact ⟨hkept.noneSilent, fun _ _ hc hstep => (hkept.step hc hstep).2⟩

/-! ### A call that dies after its commit -/

def openEnv : Pseudonym.Env := ⟨false, .ok none, fun _ _ => []⟩

/-- One connection of each kind, and one rule for new incidents. -/
def quiet : World where
  core := ⟨⟨Correlation.emptyDb, Table.empty _, [], [], fun _ h => absurd h not_mem_empty,
    fun _ h => absurd h not_mem_nil⟩, [.idle], [.idle], []⟩
  bus := ⟨0, .empty _, .empty _, .empty _⟩
  notices := ⟨[⟨7, "incident_created", "low", 3, true⟩], fun _ => ⟨"webhook", "http://sink"⟩,
    ⟨0, ⟨[⟨3, none, .null, true⟩], nodup_singleton _⟩, .empty _⟩⟩
  tellings := fun _ => ⟨0, .publish⟩
  owed := []

theorem initial_quiet : Initial quiet :=
  ⟨⟨rfl, rfl, rfl, rfl, ⟨1, rfl⟩, ⟨1, rfl⟩, 0, rfl⟩, rfl, rfl, rfl, rfl⟩

/-- A promotion of the one candidate there is, up to its commit. -/
def promotionCall : List Action :=
  [.run (.correlate (.lookup 0 (requestOf 0 5) [])), .run (.correlate (.commit 0 1)),
    .run (.promote 0 (.select 0 10 [firstCandidate .opened])), .run (.promote 0 .pick),
    .run (.promote 0 .proceed), .run (.promote 0 .find), .run (.promote 0 (.write 100)),
    .run (.promote 0 (.readEvents [5])), .run (.promote 0 .link), .run (.promote 0 (.relate [])),
    .commit 0 1000]

/-- What follows when nothing fails. -/
def secondHalfCall : List Action :=
  [.publish 0 0 200 (fun c => c), .select 0 [⟨7, "incident_created", "low", 3, true⟩],
    .notify 0 0 300, .next 0, .next 0]

/-- A later call, which finds no open candidate. -/
def laterCall : List Action :=
  [.run (.promote 0 (.select 20 10 [])), .run (.promote 0 .proceed), .commit 0 2000, .next 0]

/-- Where nothing fails, the incident has its event and its notification. -/
theorem none_silent_announced : ∃ w, ((announcementSystem openEnv).restrict NotCutShort).Run quiet
      (promotionCall ++ secondHalfCall) w ∧
    w.core.db.incidents.rows.map IncidentRow.id = [100] ∧
    w.bus.events.rows.map Event.dedupeKey = ["incident.created:" ++ uuidText 100] ∧
    w.notices.queue.events.rows.map NotificationEvent.channelId = [3] ∧ NoneSilent w := by
  have hrun : (execAll (fun w a => if NotCutShort w a then exec openEnv w a else none) quiet
      (promotionCall ++ secondHalfCall)).map (fun w =>
        (w.core.db.incidents.rows.map IncidentRow.id, w.bus.events.rows.map Event.dedupeKey,
          w.notices.queue.events.rows.map NotificationEvent.channelId)) =
      some ([100], ["incident.created:" ++ uuidText 100], [3]) := by decide +kernel
  obtain ⟨w, hw, hstate⟩ := map_eq_some_iff.1 hrun
  simp only [Prod.mk.injEq] at hstate
  obtain ⟨hincidents, hevents, hchannels⟩ := hstate
  have hsteps := run_restrict_of_execAll Initial (exec openEnv) hw
  exact ⟨w, hsteps, hincidents, hevents, hchannels,
    (none_silent openEnv w ⟨quiet, _, initial_quiet, hsteps⟩).1⟩

/-- The call dies after its commit; the later one succeeds, and nobody hears of the incident. -/
theorem silent_incident : ∃ w, (announcementSystem openEnv).Run quiet
      (promotionCall ++ [.run (.promote 0 .abort)] ++ laterCall) w ∧
    w.core.db.incidents.rows.map IncidentRow.id = [100] ∧
    w.bus.events.rows = [] ∧ w.notices.queue.events.rows = [] ∧ ¬ NoneSilent w := by
  have hrun : (execAll (exec openEnv) quiet
      (promotionCall ++ [.run (.promote 0 .abort)] ++ laterCall)).map (fun w =>
        (w.core.db.incidents.rows.map IncidentRow.id, w.bus.events.rows,
          w.notices.queue.events.rows, w.core.promoters.all (fun p => match p with
            | .idle => true
            | _ => false))) = some ([100], [], [], true) := by
    decide_cbv
  obtain ⟨w, hw, hstate⟩ := map_eq_some_iff.1 hrun
  simp only [Prod.mk.injEq] at hstate
  obtain ⟨hincidents, hevents, hqueue, hidle⟩ := hstate
  refine ⟨w, run_of_execAll Initial (exec openEnv) hw, hincidents, hevents, hqueue,
    fun hsilent => ?_⟩
  obtain ⟨i, hi, -⟩ : ∃ i ∈ w.core.db.incidents.rows, i.id = 100 := by
    have hmem : (100 : Uuid) ∈ w.core.db.incidents.rows.map IncidentRow.id := by
      rw [hincidents]
      exact mem_cons_self
    exact List.mem_map.1 hmem
  obtain ⟨o, ho, -⟩ := hsilent.created i hi
  rcases hsilent.announced o ho with ⟨k, queue, hk, -⟩ | ⟨hone, -⟩
  · have hall := List.all_eq_true.1 hidle _ (mem_of_getElem? hk)
    cases hall
  · rw [hevents] at hone
    cases hone

end Clawforge.Announcements

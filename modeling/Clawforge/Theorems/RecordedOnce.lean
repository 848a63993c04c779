import Clawforge.Storage.Recording
import Clawforge.Theorems.NotificationRules
import Clawforge.Theorems.OneLiveAlert

/-!
# An event recorded once

The audit row is committed first and nothing later finds it again: the keys of the
notifications and of the alert are made of its id. A call that fails past it leaves its row
behind, and the next attempt begins with a row of its own. Attempts of one event record it
exactly once if and only if each of the failed ones failed before its audit row.
-/

namespace Clawforge.Recording

open Kit EventDelivery Notifications Alerts List Option

/-! ## The property -/

/-- The store has one event under the key, published now or before. -/
def OneEvent (before after : EventStore) (key : String) : Prop :=
  after.events.rows.countP (fun x => x.dedupeKey = key) = 1 ∧
    (after.events.rows = before.events.rows ∨ ∃ x, after.events.rows = before.events.rows ++ [x])

/-- The live alerts of the group count one event more, or a new alert does. -/
structure CountedOnce (before after : Table Alert.id) (group : String) : Prop where
  grouped : ∀ a ∈ before, InGroup group a →
    ∃ a' ∈ after, a'.id = a.id ∧ a'.eventCount = a.eventCount + 1
  alone : (∀ a ∈ before, ¬ InGroup group a) →
    groupCount after.rows group = groupCount before.rows group + 1

variable (rfc3339 : Int → String) (call : Call)

/-- One audit row, one canonical event, one notification for each matching channel, and one
count in the group's alerts. -/
structure RecordedOnce (before after : Db) (auditId : Nat) (timestamp : Int)
    (incident : Option Uuid) : Prop where
  audit : after.audit.rows = before.audit.rows ++ [auditRow call auditId timestamp]
  event : OneEvent before.bus after.bus (canonicalEvent call auditId timestamp).dedupeKey
  notices : ∃ rows, after.notices.queue.events.rows = before.notices.queue.events.rows ++ rows ∧
    (rows.map NotificationEvent.channelId).Nodup ∧
    ∀ c, c ∈ rows.map NotificationEvent.channelId ↔
      c ∈ matchingChannels before.notices (notice rfc3339 call auditId timestamp)
  alert : (alertEvent call auditId incident).alerting = true →
    CountedOnce before.alerts after.alerts (alertEvent call auditId incident).groupKey
  quiet : (alertEvent call auditId incident).alerting = false →
    after.alerts.rows = before.alerts.rows

/-- A call fails only before its audit row. -/
def FailsUnrecorded (w : World) : Action → Prop
  | .fail => w.stage = .auditing
  | _ => True

/-! ## Fresh keys -/

theorem colon_not_mem_decimal (n : Nat) : ':' ∉ (decimal n).toList := by
  unfold decimal
  rw [String.toList_ofList]
  exact colon_not_mem_toDigits (by decide) (by decide)

theorem eq_of_decimal_head {m n : Nat} (rest rest' : String)
    (h : decimal m ++ ":" ++ rest = decimal n ++ ":" ++ rest') : m = n := by
  have hchars := congrArg (fun s => Text.splitOnce ':' s.toList) h
  simp only [String.toList_append, append_assoc] at hchars
  have hsplit : ∀ k (s : String), Text.splitOnce ':' ((decimal k).toList ++ (":".toList ++ s.toList))
      = some ((decimal k).toList, s.toList) := fun k s =>
    Text.splitOnce_append (colon_not_mem_decimal k) s.toList
  rw [hsplit, hsplit] at hchars
  exact decimal_injective (String.toList_inj.1 (Prod.mk.inj (some.inj hchars)).1)

theorem eq_of_decimal_last {m n : Nat} (rest rest' : String)
    (h : rest ++ ":" ++ decimal m = rest' ++ ":" ++ decimal n) : m = n := by
  have hchars := congrArg (fun s => Text.splitOnce ':' s.toList.reverse) h
  have hcolon : ∀ k, ':' ∉ (decimal k).toList.reverse := fun k hk =>
    colon_not_mem_decimal k (mem_reverse.1 hk)
  have hsplit : ∀ k (s : String), Text.splitOnce ':' (s ++ ":" ++ decimal k).toList.reverse
      = some ((decimal k).toList.reverse, s.toList.reverse) := by
    intro k s
    rw [String.toList_append, String.toList_append, reverse_append, reverse_append]
    exact Text.splitOnce_append (hcolon k) s.toList.reverse
  simp only [hsplit] at hchars
  have hlist := reverse_injective (Prod.mk.inj (some.inj hchars)).1
  exact decimal_injective (String.toList_inj.1 hlist)

variable {rfc3339 call}

theorem Wellformed.notice_fresh {db : Db} (h : Wellformed db) (timestamp : Int)
    {x : NotificationEvent} (hx : x ∈ db.notices.queue.events) (c : Uuid) :
    x.dedupeKey ≠ noticeKey (notice rfc3339 call db.nextAuditId timestamp) c := by
  intro hkey
  obtain ⟨source, rest, hlt, hsource⟩ := h.notices x hx
  have hsame : source = db.nextAuditId := by
    refine eq_of_decimal_head rest (call.eventType ++ ":" ++ call.resource ++ ":" ++
      uuidText c ++ ":" ++ call.eventType) ?_
    rw [← hsource, hkey]
    simp only [noticeKey, notice, getD_some, String.append_assoc]
  omega

theorem Wellformed.alert_fresh {db : Db} (h : Wellformed db) (incident : Option Uuid) {a : Alert}
    (ha : a ∈ db.alerts) : a.dedupeKey ≠ (alertEvent call db.nextAuditId incident).dedupeKey := by
  intro hkey
  obtain ⟨rest, source, hlt, hsource⟩ := h.alerts a ha
  have hsame : source = db.nextAuditId := by
    refine eq_of_decimal_last rest (call.eventType ++ ":" ++ call.resource) ?_
    rw [← hsource, hkey]
    rfl
  omega

/-! ## The audit rows -/

/-- The call's audit row is in. -/
def past : Stage → Nat
  | .auditing => 0
  | _ => 1

theorem past_afterAudit (parseUuid : String → Option Uuid) (auditId : Nat) (timestamp : Int) :
    past (afterAudit parseUuid call auditId timestamp) = 1 := by
  unfold afterAudit
  split <;> rfl

theorem past_beginAlert (auditId : Nat) (timestamp : Int) (incident : Option Uuid) :
    past (beginAlert call auditId timestamp incident) = 1 := by
  unfold beginAlert
  split <;> rfl

section Steps

variable {env : Pseudonym.Env} {parseUuid : String → Option Uuid} {w w' : World}

/-- What a step can do. -/
inductive Stepped (env : Pseudonym.Env) (parseUuid : String → Option Uuid)
    (rfc3339 : Int → String) (call : Call) (w : World) : Action → World → Prop
  | audit {clock timestamp : Int} {db : Db} (hstage : w.stage = .auditing)
      (hins : insertAudit w.db (auditRow call w.db.nextAuditId timestamp) = some db) :
      Stepped env parseUuid rfc3339 call w (.audit clock)
        ⟨db, afterAudit parseUuid call w.db.nextAuditId timestamp⟩
  | find {auditId : Nat} {timestamp : Int} {incident : Option Uuid}
      (hstage : w.stage = .finding auditId timestamp) :
      Stepped env parseUuid rfc3339 call w (.find incident)
        ⟨w.db, .publishing auditId timestamp incident⟩
  | publish {auditId : Nat} {timestamp : Int} {incident : Option Uuid} {now : Instant}
      {eventId : Uuid} {newId : Uuid → Uuid} {bus : EventStore}
      (hstage : w.stage = .publishing auditId timestamp incident)
      (hpub : publishSanitized env w.db.bus now eventId newId
        (canonicalEvent call auditId timestamp) = some bus) :
      Stepped env parseUuid rfc3339 call w (.publish now eventId newId)
        ⟨{ w.db with bus := bus }, .selecting auditId timestamp incident⟩
  | select {auditId : Nat} {timestamp : Int} {incident : Option Uuid}
      {rules : List NotificationRule} (hstage : w.stage = .selecting auditId timestamp incident)
      (hrules : rules.Perm (selectedRules w.db.notices call.eventType)) :
      Stepped env parseUuid rfc3339 call w (.select rules)
        ⟨w.db, .notifying auditId timestamp incident rules⟩
  | notify {auditId : Nat} {timestamp : Int} {incident : Option Uuid} {now : Instant}
      {newId : Uuid} {r : NotificationRule} {rules : List NotificationRule} {notices : RuleStore}
      (hstage : w.stage = .notifying auditId timestamp incident (r :: rules))
      (hturn : Enqueued w.db.notices (notice rfc3339 call auditId timestamp) r notices) :
      Stepped env parseUuid rfc3339 call w (.notify now newId)
        ⟨{ w.db with notices := notices }, .notifying auditId timestamp incident rules⟩
  | notified {auditId : Nat} {timestamp : Int} {incident : Option Uuid} {now : Instant}
      {newId : Uuid} (hstage : w.stage = .notifying auditId timestamp incident []) :
      Stepped env parseUuid rfc3339 call w (.notify now newId)
        ⟨w.db, beginAlert call auditId timestamp incident⟩
  | alert {auditId : Nat} {timestamp : Int} {incident : Option Uuid} {a : Alerts.Action}
      {creator creator' : Creator} {alerts : Table Alert.id} {records : Bool}
      (hstage : w.stage = .alerting auditId timestamp incident creator)
      (hstep : creatorStep w.db.alerts creator a = some (alerts, creator', records))
      (hmore : creator' ≠ .idle) :
      Stepped env parseUuid rfc3339 call w (.alert a)
        ⟨{ w.db with alerts := alerts }, .alerting auditId timestamp incident creator'⟩
  | returns {auditId : Nat} {timestamp : Int} {incident : Option Uuid} {a : Alerts.Action}
      {creator : Creator} {alerts : Table Alert.id} {records : Bool}
      (hstage : w.stage = .alerting auditId timestamp incident creator)
      (hstep : creatorStep w.db.alerts creator a = some (alerts, .idle, records)) :
      Stepped env parseUuid rfc3339 call w (.alert a)
        ⟨{ w.db with alerts := alerts }, .done auditId timestamp incident⟩
  | fail : Stepped env parseUuid rfc3339 call w .fail ⟨w.db, .auditing⟩

theorem stepped_of_exec {a : Action} (h : exec env parseUuid rfc3339 call w a = some w') :
    Stepped env parseUuid rfc3339 call w a w' := by
  cases a with
  | audit clock =>
    simp only [exec] at h
    split at h
    case h_1 hstage =>
      obtain ⟨db, hins, rfl⟩ := map_eq_some_iff.1 h
      exact .audit hstage hins
    case h_2 => cases h
  | find incident =>
    simp only [exec] at h
    split at h
    case h_1 hstage =>
      split at h
      · cases h
        exact .find hstage
      · cases h
    case h_2 => cases h
  | publish now eventId newId =>
    simp only [exec] at h
    split at h
    case h_1 hstage =>
      obtain ⟨bus, hpub, rfl⟩ := map_eq_some_iff.1 h
      exact .publish hstage hpub
    case h_2 => cases h
  | select rules =>
    simp only [exec] at h
    split at h
    case h_1 hstage =>
      split at h
      · cases h
        exact .select hstage (by assumption)
      · cases h
    case h_2 => cases h
  | notify now newId =>
    simp only [exec] at h
    split at h
    case h_1 hstage =>
      obtain ⟨notices, hturn, rfl⟩ := map_eq_some_iff.1 h
      exact .notify hstage (enqueueRule_spec hturn)
    case h_2 hstage =>
      cases h
      exact .notified hstage
    case h_3 => cases h
  | alert a =>
    simp only [exec] at h
    split at h
    case h_1 hstage =>
      split at h
      case isFalse => cases h
      case isTrue =>
        obtain ⟨⟨alerts, creator', records⟩, hstep, rfl⟩ := map_eq_some_iff.1 h
        cases creator' with
        | idle => exact .returns hstage hstep
        | counting | inserting | delivering => exact .alert hstage hstep nofun
    case h_2 => cases h
  | fail =>
    simp only [exec] at h
    split at h
    · cases h
    · cases h
      exact .fail

theorem insertAudit_eq_some {db db' : Db} {row : AuditRow} (h : insertAudit db row = some db') :
    db'.audit.rows = db.audit.rows ++ [row] ∧ db'.bus = db.bus ∧ db'.notices = db.notices ∧
      db'.alerts = db.alerts := by
  obtain ⟨audit, hins, rfl⟩ := map_eq_some_iff.1 h
  exact ⟨Table.rows_insert? hins, rfl, rfl, rfl⟩

theorem oneEvent_of_publish {bus bus' : EventStore} {now : Instant} {eventId : Uuid}
    {newId : Uuid → Uuid} {e : NewEvent} (hsound : Sound bus)
    (h : publishSanitized env bus now eventId newId e = some bus') :
    OneEvent bus bus' e.dedupeKey := by
  obtain ⟨e', id, hsame, hpublished⟩ := publishSanitized_spec hsound h
  rw [← hsame]
  cases hpublished with
  | known x hx hkey _ hbus => exact ⟨by rw [hbus, ← hkey, hsound.countP_key hx], .inl (by rw [hbus])⟩
  | inserted x hfree _ _ _ _ _ _ hkey _ hrows _ =>
    refine ⟨?_, .inr ⟨x, hrows⟩⟩
    have hnone : bus.events.rows.countP (fun y => y.dedupeKey = e'.dedupeKey) = 0 :=
      countP_eq_zero.2 (fun y hy hsame => hfree y hy (of_decide_eq_true hsame))
    rw [hrows, countP_append, hnone, countP_singleton]
    simp [hkey]

/-- Each step accounts for the audit rows: one for the call, and one for each failure that
comes after it. -/
theorem audit_step {a : Action} (h : exec env parseUuid rfc3339 call w a = some w') :
    w.db.audit.rows.length + past w'.stage ≤ w'.db.audit.rows.length + past w.stage ∧
      (¬ FailsUnrecorded w a →
        w.db.audit.rows.length + past w'.stage < w'.db.audit.rows.length + past w.stage) := by
  cases stepped_of_exec h with
  | audit hstage hins =>
    have hlength := congrArg List.length (insertAudit_eq_some hins).1
    rw [length_append, length_singleton] at hlength
    rw [past_afterAudit, hstage]
    exact ⟨by simp only [past]; omega, fun hno => absurd trivial hno⟩
  | find hstage | publish hstage | select hstage | notify hstage | alert hstage | returns hstage =>
    exact ⟨by simp only [hstage, past]; omega, fun hno => absurd trivial hno⟩
  | notified hstage =>
    rw [past_beginAlert, hstage]
    exact ⟨by simp only [past]; omega, fun hno => absurd trivial hno⟩
  | fail =>
    refine ⟨by simp only [past]; omega, fun hno => ?_⟩
    cases hs : w.stage with
    | auditing => exact absurd hs hno
    | _ => simp only [past]; omega

theorem audit_run {as : List Action}
    (hrun : (recordSystem env parseUuid rfc3339 call).Run w as w') :
    w.db.audit.rows.length + past w'.stage ≤ w'.db.audit.rows.length + past w.stage ∧
      (((recordSystem env parseUuid rfc3339 call).restrict FailsUnrecorded).Run w as w' ∨
        w.db.audit.rows.length + past w'.stage < w'.db.audit.rows.length + past w.stage) := by
  induction hrun with
  | nil s => exact ⟨le_refl _, .inl (.nil s)⟩
  | @cons s a t as r hstep hrest ih =>
    obtain ⟨hle, hstrict⟩ := audit_step hstep
    obtain ⟨hle', hrun'⟩ := ih
    refine ⟨by omega, ?_⟩
    by_cases hcond : FailsUnrecorded s a
    · rcases hrun' with hrun' | hlt
      · exact .inl (.cons ⟨hcond, hstep⟩ hrun')
      · exact .inr (by omega)
    · have hlt := hstrict hcond
      exact .inr (by omega)

end Steps

/-! ## An attempt that nothing has preceded -/

/-- What a call has left of the alerts, by its next statement there. -/
def Counting (before after : Table Alert.id) (e : AlertEvent) : Creator → Prop
  | .counting e' => e' = e ∧ after.rows = before.rows
  | .inserting e' => e' = e ∧ after.rows = before.rows ∧ ∀ a ∈ before, ¬ InGroup e.groupKey a
  | .delivering _ | .idle => CountedOnce before after e.groupKey

/-- The alerts are as before, or count the event once. -/
theorem Counting.step {before alerts after : Table Alert.id} {e : AlertEvent}
    {creator creator' : Creator} {a : Alerts.Action} {records : Bool}
    (h : Counting before alerts e creator)
    (hfresh : ∀ x ∈ before, x.dedupeKey ≠ e.dedupeKey)
    (hstep : creatorStep alerts creator a = some (after, creator', records)) :
    Counting before after e creator' := by
  cases creator with
  | idle => cases hstep
  | counting e' =>
    cases a with
    | count k now =>
      obtain ⟨rfl, hrows⟩ := h
      obtain ⟨⟨affected, T⟩, hcount, hpair⟩ := map_eq_some_iff.1 hstep
      unfold countInGroup at hcount
      split at hcount
      case isFalse => cases hcount
      case isTrue =>
        cases hcount
        dsimp only at hpair
        split at hpair
        case isTrue hpos =>
          cases hpair
          constructor
          case grouped =>
            intro x hx hgroup
            refine ⟨countedRow e' now x, ?_, rfl, rfl⟩
            rw [Table.mem_def, ← hrows] at hx
            exact Table.mem_updateWhere.2 ⟨x, hx, (if_pos hgroup).symm⟩
          case alone =>
            intro hnone
            obtain ⟨x, hx⟩ := length_pos_iff_exists_mem.1 hpos
            rw [hrows] at hx
            obtain ⟨hx, hgroup⟩ := mem_filter.1 hx
            exact absurd (of_decide_eq_true hgroup) (hnone x hx)
        case isFalse hpos =>
          cases hpair
          have hnone : ∀ x ∈ before, ¬ InGroup e'.groupKey x := by
            intro x hx hgroup
            refine hpos (length_pos_of_mem (a := x) ?_)
            rw [hrows]
            exact mem_filter.2 ⟨hx, decide_eq_true hgroup⟩
          refine ⟨rfl, ?_, hnone⟩
          show alerts.rows.map _ = before.rows
          rw [hrows]
          refine (map_congr_left (fun x hx => ?_)).trans (List.map_id _)
          exact if_neg (hnone x hx)
    | create | insert | deliver | abort | setStatus => cases hstep
  | inserting e' =>
    cases a with
    | insert k now id =>
      obtain ⟨rfl, hrows, hnone⟩ := h
      obtain ⟨⟨inserted, T⟩, hins, hpair⟩ := map_eq_some_iff.1 hstep
      unfold insertAlert at hins
      split at hins
      case isTrue hstored =>
        obtain ⟨x, hx, hkey⟩ := hstored
        rw [hrows] at hx
        exact absurd hkey (hfresh x hx)
      case isFalse =>
        obtain ⟨T', hT, hpair'⟩ := map_eq_some_iff.1 hins
        cases hpair'
        cases hpair
        constructor
        case grouped => exact fun x hx hgroup => absurd hgroup (hnone x hx)
        case alone =>
          intro _
          rw [Table.rows_insert? hT, groupCount_append, hrows, groupCount_cons]
          show _ + ((if e'.groupKey = e'.groupKey then 1 else 0) + 0) = _
          rw [if_pos rfl, Nat.add_zero]
    | create | count | deliver | abort | setStatus => cases hstep
  | delivering id =>
    cases a with
    | deliver k delivery =>
      cases hstep
      obtain ⟨f, hrows, hf⟩ := rows_setDelivery alerts id delivery
      constructor
      case grouped =>
        intro x hx hgroup
        obtain ⟨y, hy, hid, hcount⟩ := h.grouped x hx hgroup
        refine ⟨f y, ?_, (hf y).1.trans hid, (hf y).2.2.2.trans hcount⟩
        rw [Table.mem_def, hrows]
        exact List.mem_map_of_mem hy
      case alone =>
        intro hnone
        rw [hrows, groupCount_map (fun x => (hf x).2.1) (fun x => (hf x).2.2.2)]
        exact h.alone hnone
    | create | count | insert | abort | setStatus => cases hstep

/-- The call's audit row is the only one that is new. -/
structure Underway (call : Call) (before db : Db) (auditId : Nat) (timestamp : Int) : Prop where
  id : auditId = before.nextAuditId
  audit : db.audit.rows = before.audit.rows ++ [auditRow call auditId timestamp]

/-- The loop has had its turn for every rule. -/
def AllNotified (before after : RuleStore) (n : Notice) : Prop :=
  ∃ rules, rules.Perm (selectedRules before n.eventType) ∧ Notified before after n rules

/-- What an attempt has written of its event, by its next statement. -/
def Progress (rfc3339 : Int → String) (call : Call) (before db : Db) : Stage → Prop
  | .auditing => db = before
  | .finding auditId timestamp | .publishing auditId timestamp _ =>
    Underway call before db auditId timestamp ∧ db.bus = before.bus ∧
      db.notices = before.notices ∧ db.alerts = before.alerts
  | .selecting auditId timestamp _ =>
    Underway call before db auditId timestamp ∧
      OneEvent before.bus db.bus (canonicalEvent call auditId timestamp).dedupeKey ∧
      db.notices = before.notices ∧ db.alerts = before.alerts
  | .notifying auditId timestamp _ rest =>
    Underway call before db auditId timestamp ∧
      OneEvent before.bus db.bus (canonicalEvent call auditId timestamp).dedupeKey ∧
      (∃ rules, (rules ++ rest).Perm (selectedRules before.notices call.eventType) ∧
        Notified before.notices db.notices (notice rfc3339 call auditId timestamp) rules) ∧
      db.alerts = before.alerts
  | .alerting auditId timestamp incident creator =>
    Underway call before db auditId timestamp ∧
      OneEvent before.bus db.bus (canonicalEvent call auditId timestamp).dedupeKey ∧
      AllNotified before.notices db.notices (notice rfc3339 call auditId timestamp) ∧
      (alertEvent call auditId incident).alerting = true ∧
      Counting before.alerts db.alerts (alertEvent call auditId incident) creator
  | .done auditId timestamp incident =>
    RecordedOnce rfc3339 call before db auditId timestamp incident

theorem AllNotified.notices {before after : RuleStore} {n : Notice}
    (h : AllNotified before after n) :
    ∃ rows, after.queue.events.rows = before.queue.events.rows ++ rows ∧
      (rows.map NotificationEvent.channelId).Nodup ∧
      ∀ c, c ∈ rows.map NotificationEvent.channelId ↔ c ∈ matchingChannels before n := by
  obtain ⟨rules, hrules, hnotified⟩ := h
  obtain ⟨rows, hrows, hnodup, -, hmem⟩ := hnotified.added
  refine ⟨rows, hrows, hnodup, fun c => (hmem c).trans ?_⟩
  exact ((hrules.filter _).map _).mem_iff

theorem progress_step {env : Pseudonym.Env} {parseUuid : String → Option Uuid} {before : Db}
    {w w' : World} {a : Action} (hwf : Wellformed before)
    (h : Progress rfc3339 call before w.db w.stage) (hfails : FailsUnrecorded w a)
    (hstep : exec env parseUuid rfc3339 call w a = some w') :
    Progress rfc3339 call before w'.db w'.stage := by
  cases stepped_of_exec hstep with
  | audit hstage hins =>
    rw [hstage] at h
    have hdb : w.db = before := h
    obtain ⟨haudit, hbus, hnotices, halerts⟩ := insertAudit_eq_some hins
    rw [hdb] at haudit hbus hnotices halerts
    have hunderway : Underway call before _ w.db.nextAuditId _ := ⟨by rw [hdb], by rw [hdb] at *; exact haudit⟩
    unfold afterAudit
    split
    · exact ⟨hunderway, hbus, hnotices, halerts⟩
    · exact ⟨hunderway, hbus, hnotices, halerts⟩
  | find hstage =>
    rw [hstage] at h
    exact h
  | publish hstage hpub =>
    rw [hstage] at h
    obtain ⟨hunderway, hbus, hnotices, halerts⟩ := h
    rw [hbus] at hpub
    exact ⟨⟨hunderway.id, hunderway.audit⟩, oneEvent_of_publish hwf.bus hpub, hnotices, halerts⟩
  | select hstage hrules =>
    rw [hstage] at h
    obtain ⟨hunderway, hone, hnotices, halerts⟩ := h
    rw [hnotices] at hrules
    exact ⟨hunderway, hone, ⟨[], hrules, hnotices ▸ notified_nil _ _⟩, halerts⟩
  | @notify auditId timestamp incident now newId r rules notices hstage hturn =>
    rw [hstage] at h
    obtain ⟨hunderway, hone, ⟨done, hperm, hnotified⟩, halerts⟩ := h
    refine ⟨⟨hunderway.id, hunderway.audit⟩, hone, ⟨done ++ [r], ?_, ?_⟩, halerts⟩
    · rw [append_assoc]
      exact hperm
    · refine hnotified.step hturn (fun x hx c => ?_)
      rw [hunderway.id]
      exact hwf.notice_fresh timestamp hx c
  | @notified auditId timestamp incident now newId hstage =>
    rw [hstage] at h
    obtain ⟨hunderway, hone, ⟨done, hperm, hnotified⟩, halerts⟩ := h
    rw [append_nil] at hperm
    have hall : AllNotified before.notices w.db.notices
        (notice rfc3339 call auditId timestamp) := ⟨done, hperm, hnotified⟩
    unfold beginAlert
    split
    case isTrue halerting =>
      exact ⟨hunderway, hone, hall, halerting, rfl, congrArg Table.rows halerts⟩
    case isFalse hquiet =>
      exact ⟨hunderway.audit, hone, hall.notices, fun halerting => absurd halerting hquiet,
        fun _ => congrArg Table.rows halerts⟩
  | alert hstage hcreator hmore =>
    rw [hstage] at h
    obtain ⟨hunderway, hone, hall, halerting, hcounting⟩ := h
    refine ⟨⟨hunderway.id, hunderway.audit⟩, hone, hall, halerting,
      hcounting.step (fun x hx => ?_) hcreator⟩
    rw [hunderway.id]
    exact hwf.alert_fresh _ hx
  | returns hstage hcreator =>
    rw [hstage] at h
    obtain ⟨hunderway, hone, hall, halerting, hcounting⟩ := h
    have hcounted := hcounting.step (fun x hx => by
      rw [hunderway.id]
      exact hwf.alert_fresh _ hx) hcreator
    exact ⟨hunderway.audit, hone, hall.notices, fun _ => hcounted,
      fun hquiet => absurd halerting (by rw [hquiet]; decide)⟩
  | fail =>
    have hstage : w.stage = .auditing := hfails
    rw [hstage] at h
    exact h

/-- Attempts of one event of which the last succeeds record it exactly once if and only if
each of the others failed before its audit row. -/
theorem recorded_once_iff {env : Pseudonym.Env} {parseUuid : String → Option Uuid}
    {rfc3339 : Int → String} {call : Call} {w₀ w : World} {as : List Action} {auditId : Nat}
    {timestamp : Int} {incident : Option Uuid} (h₀ : Initial w₀)
    (hrun : (recordSystem env parseUuid rfc3339 call).Run w₀ as w)
    (hdone : w.stage = .done auditId timestamp incident) :
    RecordedOnce rfc3339 call w₀.db w.db auditId timestamp incident ↔
      ((recordSystem env parseUuid rfc3339 call).restrict FailsUnrecorded).Run w₀ as w := by
  constructor
  · intro honce
    refine (audit_run hrun).2.resolve_right (fun hlt => ?_)
    have hlength := congrArg List.length honce.audit
    rw [length_append, length_singleton] at hlength
    simp only [h₀.2, hdone, past] at hlt
    omega
  · intro hrestricted
    have hprogress : Progress rfc3339 call w₀.db w₀.db w₀.stage := by
      rw [h₀.2]
      exact rfl
    have hlast : Progress rfc3339 call w₀.db w.db w.stage := by
      refine hrestricted.preserves (I := fun s => Progress rfc3339 call w₀.db s.db s.stage) ?_
        hprogress
      intro s a t hs hstep
      exact progress_step h₀.1 hs hstep.1 hstep.2
    rw [hdone] at hlast
    exact hlast

/-! ### A call that crashes before it returns -/

def plainEnv : Pseudonym.Env := ⟨false, .ok none, fun _ _ => []⟩

def outage : Call :=
  recordIntelligenceEvent 1000 "provider_error" "worker" "high" "no answer" "feed" .null

def webhookRule : NotificationRule := ⟨7, "provider_error", "high", 3, true⟩

/-- One rule with one channel, and nothing recorded yet. -/
def oneRule : World where
  db :=
    { nextAuditId := 1
      audit := .empty _
      incidents := .empty _
      bus := ⟨0, .empty _, .empty _, .empty _⟩
      notices := ⟨[webhookRule], fun _ => ⟨"webhook", "http://sink"⟩,
        ⟨0, Table.singleton _ ⟨3, none, .null, true⟩, .empty _⟩⟩
      alerts := .empty _ }
  stage := .auditing

theorem initial_oneRule : Initial oneRule := by
  refine ⟨⟨⟨nodup_nil, nodup_nil, fun d hd => ?_⟩, fun x hx => ?_, fun a ha => ?_,
    Nat.one_pos⟩, rfl⟩
  · exact absurd hd not_mem_nil
  · exact absurd hx not_mem_nil
  · exact absurd ha not_mem_nil

/-- One attempt, up to the last statement. -/
def attempt (event notification alert : Uuid) : List Action :=
  [.audit 0, .find none, .publish 0 event (fun c => c), .select [webhookRule],
    .notify 0 notification, .notify 0 0, .alert (.count 0 0), .alert (.insert 0 0 alert)]

/-- The first attempt crashes before its last statement; the second finds the alert. -/
def crashedOnce : List Action :=
  attempt 11 21 31 ++ [.fail] ++ (attempt 12 22 32).take 7

def afterCrash : World :=
  (TSys.execAll (exec plainEnv (fun _ => none) (fun _ => "") outage) oneRule crashedOnce).get
    (by decide +kernel)

theorem run_crashedOnce : (recordSystem plainEnv (fun _ => none) (fun _ => "") outage).Run
    oneRule crashedOnce afterCrash :=
  TSys.run_of_execAll _ _ (some_get _).symm

/-- What a call that is done has recorded. -/
def Stage.recorded : Stage → Option (Nat × Int × Option Uuid)
  | .done auditId timestamp incident => some (auditId, timestamp, incident)
  | _ => none

theorem stage_afterCrash : afterCrash.stage = .done 2 1000 none := by
  have h : afterCrash.stage.recorded = some (2, 1000, none) := by decide +kernel
  unfold Stage.recorded at h
  split at h
  · rename_i hstage
    cases h
    exact hstage
  · cases h

theorem recorded_once_iff_crash :
    RecordedOnce (fun _ => "") outage oneRule.db afterCrash.db 2 1000 none ↔
      ((recordSystem plainEnv (fun _ => none) (fun _ => "") outage).restrict FailsUnrecorded).Run
        oneRule crashedOnce afterCrash :=
  recorded_once_iff initial_oneRule run_crashedOnce stage_afterCrash

/-- The audit row and the notification are there twice, and the alert counts two events. -/
theorem recorded_twice :
    (recordSystem plainEnv (fun _ => none) (fun _ => "") outage).Run
        oneRule crashedOnce afterCrash ∧
      afterCrash.stage = .done 2 1000 none ∧
      afterCrash.db.audit.rows.length = 2 ∧ afterCrash.db.bus.events.rows.length = 1 ∧
      afterCrash.db.notices.queue.events.rows.map NotificationEvent.channelId = [3, 3] ∧
      afterCrash.db.alerts.rows.map Alert.eventCount = [2] ∧
      ¬ RecordedOnce (fun _ => "") outage oneRule.db afterCrash.db 2 1000 none := by
  have hstate : (afterCrash.db.audit.rows.length, afterCrash.db.bus.events.rows.length,
      afterCrash.db.notices.queue.events.rows.map NotificationEvent.channelId,
      afterCrash.db.alerts.rows.map Alert.eventCount) = (2, 1, [3, 3], [2]) := by decide +kernel
  simp only [Prod.mk.injEq] at hstate
  obtain ⟨haudit, hevents, hchannels, hcounts⟩ := hstate
  refine ⟨run_crashedOnce, stage_afterCrash, haudit, hevents, hchannels, hcounts,
    fun honce => ?_⟩
  have hone := congrArg List.length honce.audit
  rw [haudit] at hone
  exact absurd hone (by decide)

end Clawforge.Recording

import Mathlib.Data.Finset.Dedup
import Mathlib.Data.Finset.Order
import Clawforge.Kit.Fallible
import Clawforge.Storage.Publication
import Clawforge.Theorems.EventDelivery

/-!
# Publishing once

Every publisher's dedupe key is its own (`audit_of_key_eq`,
`securityEvent_of_key_eq`), and the store keeps one event for a key with one
delivery for each consumer that was enabled (`publishEvent_spec`,
`exec_sameRows`).
-/

namespace Clawforge.EventDelivery

open Kit Table List Option

/-! ## Dedupe keys -/

theorem decimal_injective : Function.Injective decimal := by
  intro m n h
  have hchars : Nat.toDigits 10 m = Nat.toDigits 10 n := String.ofList_injective h
  rw [← numeralValue_toDigits (by decide : 1 < 10) (by decide) m, hchars,
    numeralValue_toDigits (by decide) (by decide)]

theorem digit_of_mem_decimal {n : Nat} {c : Char} (h : c ∈ (decimal n).toList) :
    isDigitOf 10 c = true := by
  rw [decimal, String.toList_ofList] at h
  exact isDigitOf_of_mem_toDigits (by decide) (by decide) h

theorem toString_int_injective : Function.Injective (toString : Int → String) := by
  have hsign : ∀ m n, decimal m ≠ "-" ++ decimal n := by
    intro m n h
    have hmem : '-' ∈ (decimal m).toList := by
      rw [h, String.toList_append]
      exact mem_append_left _ (by decide)
    exact absurd (digit_of_mem_decimal hmem) (by decide)
  intro a b h
  cases a with
  | ofNat m =>
    cases b with
    | ofNat n => exact congrArg Int.ofNat (decimal_injective h)
    | negSucc n => exact absurd h (hsign m (n + 1))
  | negSucc m =>
    cases b with
    | ofNat n => exact absurd h.symm (hsign n (m + 1))
    | negSucc n =>
      have htail : decimal (m + 1) = decimal (n + 1) := (String.append_right_inj "-").1 h
      exact congrArg Int.negSucc (Nat.succ.inj (decimal_injective htail))

theorem uuidText_injective : Function.Injective uuidText := by
  intro a b h
  have hchars : (Nat.toDigits 16 a).leftpad 32 '0' = (Nat.toDigits 16 b).leftpad 32 '0' :=
    insertIdx_injective _ _ (insertIdx_injective _ _ (insertIdx_injective _ _
      (insertIdx_injective _ _ (String.ofList_injective h))))
  rw [← numeralValue_toDigits (by decide : 1 < 16) (by decide) a, ← numeralValue_leftpad 16 32,
    hchars, numeralValue_leftpad, numeralValue_toDigits (by decide) (by decide)]

theorem colon_not_mem_toDigits {radix n : Nat} (h1 : 1 < radix) (hr : radix ≤ 16) :
    ':' ∉ Nat.toDigits radix n := by
  intro h
  have hdigit := isDigitOf_of_mem_toDigits h1 hr h
  have hnone : digitValue radix ':' = none := by
    simp [digitValue]
  simp [isDigitOf, hnone] at hdigit

theorem colon_not_mem_uuidText (id : Uuid) : ':' ∉ (uuidText id).toList := by
  have hdigits : ':' ∉ (Nat.toDigits 16 id).leftpad 32 '0' := by
    intro h
    rcases mem_append.1 h with hzero | hdigit
    · exact absurd (eq_of_mem_replicate hzero) (by decide)
    · exact colon_not_mem_toDigits (by decide) (by decide) hdigit
  have hinsert : ∀ (i : Nat) (text : List Char), ':' ∉ text → ':' ∉ text.insertIdx i '-' :=
    fun i text h hmem => (eq_or_mem_of_mem_insertIdx hmem).elim (by decide) h
  unfold uuidText
  rw [String.toList_ofList]
  exact hinsert _ _ (hinsert _ _ (hinsert _ _ (hinsert _ _ hdigits)))

/-- The colons of a dedupe key. -/
def colons (key : String) : Nat := key.toList.count ':'

theorem colons_append (a b : String) : colons (a ++ b) = colons a + colons b := by
  simp [colons, String.toList_append]

theorem colons_decimal (n : Nat) : colons (decimal n) = 0 := by
  unfold colons decimal
  rw [String.toList_ofList]
  exact count_eq_zero.2 (colon_not_mem_toDigits (by decide) (by decide))

theorem colons_uuidText (id : Uuid) : colons (uuidText id) = 0 :=
  count_eq_zero.2 (colon_not_mem_uuidText id)

theorem colons_audit (n : Nat) : colons (EventSource.audit n).dedupeKey = 1 := by
  show colons ("audit:" ++ decimal n) = 1
  rw [colons_append, colons_decimal]
  decide

theorem colons_securityEvent (id : Uuid) :
    colons (EventSource.securityEvent id).dedupeKey = 1 := by
  show colons ("security-event:" ++ uuidText id) = 1
  rw [colons_append, colons_uuidText]
  decide

theorem colons_intelligence (eventType resource : String) (nanos : Int) :
    2 ≤ colons (EventSource.intelligence eventType resource nanos).dedupeKey := by
  show 2 ≤ colons (eventType ++ ":" ++ resource ++ ":" ++ toString nanos)
  have hcolon : colons ":" = 1 := by decide
  simp only [colons_append, hcolon]
  omega

/-- The first character of a text. -/
def head? (key : String) : Option Char := key.toList.head?

theorem head?_append {a : String} {c : Char} (h : head? a = some c) (b : String) :
    head? (a ++ b) = some c := by
  unfold head? at h ⊢
  rw [String.toList_append, List.head?_append, h]
  rfl

/-- The first character of the keys that have one colon. -/
def EventSource.initial : EventSource → Char
  | .audit _ => 'a'
  | .securityEvent _ => 's'
  | _ => 'i'

theorem head?_dedupeKey {src : EventSource} (h : colons src.dedupeKey = 1) :
    head? src.dedupeKey = some src.initial := by
  cases src with
  | intelligence eventType resource nanos =>
    have hmany := colons_intelligence eventType resource nanos
    omega
  | incidentEscalated id occurrence =>
    exact head?_append (head?_append (head?_append rfl _) _) _
  | incidentCreated | securityEvent | audit => exact head?_append rfl _

theorem initial_eq {src src' : EventSource} (h : src.dedupeKey = src'.dedupeKey)
    (hone : colons src'.dedupeKey = 1) : src.initial = src'.initial := by
  have hhead := head?_dedupeKey (h ▸ hone)
  rw [h, head?_dedupeKey hone] at hhead
  exact (some.inj hhead).symm

/-- No other publisher uses the key of an audit event. -/
theorem audit_of_key_eq {src : EventSource} {n : Nat}
    (h : src.dedupeKey = (EventSource.audit n).dedupeKey) : src = .audit n := by
  have hinitial := initial_eq h (colons_audit n)
  cases src with
  | audit m =>
    have htail : decimal m = decimal n := String.append_right_inj "audit:" |>.1 h
    rw [decimal_injective htail]
  | _ => simp [EventSource.initial] at hinitial

variable {eventId id : Uuid} {db db' : EventStore} {now : Instant} {newId : Uuid → Uuid}
  {e : NewEvent}

/-- No other publisher uses the key of a security event. -/
theorem securityEvent_of_key_eq {src : EventSource}
    (h : src.dedupeKey = (EventSource.securityEvent id).dedupeKey) : src = .securityEvent id := by
  have hinitial := initial_eq h (colons_securityEvent id)
  cases src with
  | securityEvent other =>
    have htail : uuidText other = uuidText id :=
      String.append_right_inj "security-event:" |>.1 h
    rw [uuidText_injective htail]
  | _ => simp [EventSource.initial] at hinitial

/-! ## The bus without publications -/

/-- The same events, and the same deliveries up to their progress. -/
structure SameRows (before after : EventStore) : Prop where
  events : after.events = before.events
  pairs : after.deliveries.rows.map Delivery.pair = before.deliveries.rows.map Delivery.pair

theorem SameRows.refl (db : EventStore) : SameRows db db := ⟨rfl, rfl⟩

theorem pairs_updateWhere {T : Table Delivery.id} {p : Delivery → Prop} [DecidablePred p]
    {f : Delivery → Delivery} (hf : ∀ d, (f d).id = d.id) (hpair : ∀ d, (f d).pair = d.pair) :
    (T.updateWhere p f hf).rows.map Delivery.pair = T.rows.map Delivery.pair := by
  unfold Table.updateWhere
  rw [List.map_map]
  apply map_congr_left
  intro d _
  simp only [Function.comp_apply]
  split
  · exact hpair d
  · rfl

theorem completedRow_pair (now : Instant) (success : Bool) (error : Option String)
    (d : Delivery) : (completedRow now success error d).pair = d.pair := by
  cases success <;> rfl

theorem completeEventDelivery_sameRows {deliveryId : Uuid} {consumer : String} {success : Bool}
    {error : Option String}
    (h : completeEventDelivery db now deliveryId consumer success error = .ok db') :
    SameRows db db' := by
  rw [completeEventDelivery_ok h]
  exact ⟨rfl, pairs_updateWhere (completedRow_id now success error)
    (completedRow_pair now success error)⟩

/-- Every action of the bus but a publication leaves the events, and which
deliveries there are. -/
theorem exec_sameRows {w w' : World} {a : Action} (h : exec w a = some w')
    (ha : ∀ now eventId newId e, a ≠ .publish now eventId newId e) : SameRows w.db w'.db := by
  cases a with
  | publish now eventId newId e => exact absurd rfl (ha now eventId newId e)
  | tick | crash =>
    cases h
    exact ⟨rfl, rfl⟩
  | ensure now newId name =>
    simp only [exec] at h
    split at h
    · obtain ⟨db, hdb, rfl⟩ := map_eq_some_iff.1 h
      unfold ensureEventConsumer at hdb
      split at hdb
      · cases hdb
        exact ⟨rfl, rfl⟩
      · obtain ⟨consumers, _, rfl⟩ := map_eq_some_iff.1 hdb
        exact ⟨rfl, rfl⟩
    · cases h
  | heartbeat now name =>
    simp only [exec] at h
    split at h
    · cases h
      exact ⟨rfl, rfl⟩
    · cases h
  | claim worker consumer limit now locked =>
    simp only [exec] at h
    split at h
    · cases h
    · split at h
      · cases h
        exact ⟨rfl, pairs_updateWhere (f := claimRow now) (fun _ => rfl) (fun _ => rfl)⟩
      · cases h
  | complete | completeUnclaimed =>
    simp only [exec] at h
    split at h
    · split at h
      · cases h
        exact ⟨rfl, rfl⟩
      · cases h
        exact completeEventDelivery_sameRows ‹_›
    · cases h

theorem pair_of_mem {d : Delivery} (h : d ∈ db.deliveries) :
    d.pair ∈ db.deliveries.rows.map Delivery.pair :=
  List.mem_map.2 ⟨d, h, rfl⟩

theorem Sound.sameRows (h : Sound db) (hrows : SameRows db db') :
    Sound db' where
  keys := hrows.events ▸ h.keys
  pairs := hrows.pairs ▸ h.pairs
  known d hd := by
    have hmem := pair_of_mem hd
    rw [hrows.pairs] at hmem
    obtain ⟨d', hd', heq⟩ := List.mem_map.1 hmem
    obtain ⟨e, he, hid⟩ := h.known d' hd'
    exact ⟨e, hrows.events ▸ he, hid.trans (congrArg Prod.fst heq)⟩

/-! ## One publication -/

/-- The delivery a publication writes for one consumer. -/
def newDelivery (eventId : Uuid) (now : Instant) (newId : Uuid → Uuid)
    (consumerId : Uuid) : Delivery where
  id := newId consumerId
  eventId
  consumerId
  status := .pending
  attempts := 0
  availableAt := now
  processingStartedAt := none
  processedAt := none
  error := none
  createdAt := now

theorem deliverTo_fresh {T : Table Delivery.id} {c : Uuid}
    (hpair : (eventId, c) ∉ T.rows.map Delivery.pair) (hid : ∀ d ∈ T, d.id ≠ newId c) :
    (deliverTo eventId now newId T c).rows = T.rows ++ [newDelivery eventId now newId c] := by
  have hnone : ¬ ∃ d ∈ T.rows, d.eventId = eventId ∧ d.consumerId = c := by
    rintro ⟨d, hd, rfl, rfl⟩
    exact hpair (List.mem_map.2 ⟨d, hd, rfl⟩)
  unfold deliverTo Table.insertOrIgnore
  rw [if_neg hnone]
  cases hins : T.insert? (newDelivery eventId now newId c) with
  | none =>
    have hsome : (T.insert? (newDelivery eventId now newId c)).isSome = true :=
      insert?_isSome.2 hid
    rw [hins] at hsome
    cases hsome
  | some T' =>
    show ((T.insert? (newDelivery eventId now newId c)).getD T).rows = _
    rw [hins]
    exact rows_insert? hins

/-- The fan-out of a new event adds one delivery for each consumer, in order. -/
theorem rows_fanOut :
    ∀ {cs : List Uuid} {T : Table Delivery.id}, cs.Nodup →
      (∀ c ∈ cs, (eventId, c) ∉ T.rows.map Delivery.pair) →
      (∀ c ∈ cs, (∀ d ∈ T, d.id ≠ newId c) ∧ ∀ c' ∈ cs, newId c = newId c' → c = c') →
      (cs.foldl (deliverTo eventId now newId) T).rows =
        T.rows ++ cs.map (newDelivery eventId now newId) := by
  intro cs
  induction cs with
  | nil => intro T _ _ _; simp
  | cons c rest ih =>
    intro T hnodup hpair hid
    obtain ⟨hc, hrest⟩ := nodup_cons.1 hnodup
    have hrows : (deliverTo eventId now newId T c).rows = _ :=
      deliverTo_fresh (hpair c mem_cons_self) (hid c mem_cons_self).1
    rw [foldl_cons, ih hrest, hrows]
    · simp
    · intro c' hc'
      rw [hrows, map_append, mem_append]
      rintro (h | h)
      · exact hpair c' (mem_cons_of_mem _ hc') h
      · have hcc : c' = c := congrArg Prod.snd (mem_singleton.1 h)
        exact hc (hcc ▸ hc')
    · intro c' hc'
      obtain ⟨hold, hinj⟩ := hid c' (mem_cons_of_mem _ hc')
      refine ⟨fun d hd => ?_, fun c'' hc'' => hinj c'' (mem_cons_of_mem _ hc'')⟩
      rw [Table.mem_def, hrows, mem_append] at hd
      rcases hd with hd | hd
      · exact hold d hd
      · rw [mem_singleton.1 hd]
        intro heq
        exact hc (hinj c mem_cons_self heq.symm ▸ hc')

theorem enabledConsumers_nodup (db : EventStore) : (enabledConsumers db).Nodup :=
  (filter_sublist.map _).nodup db.consumers.unique

/-- What a publication leaves behind. -/
inductive Published (db : EventStore) (eventId : Uuid) (e : NewEvent) (id : Uuid)
    (db' : EventStore) : Prop
  /-- the key was taken: nothing changes -/
  | known (x : Event) : x ∈ db.events → x.dedupeKey = e.dedupeKey → x.eventId = id →
      db' = db → Published db eventId e id db'
  /-- the key was free: the event, with one delivery for each enabled consumer -/
  | inserted (x : Event) : (∀ y ∈ db.events, y.dedupeKey ≠ e.dedupeKey) →
      x.eventId = eventId → x.eventType = e.eventType → x.source = e.source →
      x.payload = e.payload → x.metadata = e.metadata →
      x.correlationId = e.correlationId → x.dedupeKey = e.dedupeKey → id = eventId →
      db'.events.rows = db.events.rows ++ [x] →
      db'.deliveries.rows.map Delivery.pair = db.deliveries.rows.map Delivery.pair ++
        (enabledConsumers db).map (fun c => (eventId, c)) →
      Published db eventId e id db'

theorem Sound.pair_fresh (h : Sound db) (hnew : ∀ x ∈ db.events, x.eventId ≠ eventId) (c : Uuid) :
    (eventId, c) ∉ db.deliveries.rows.map Delivery.pair := by
  intro hmem
  obtain ⟨d, hd, heq⟩ := List.mem_map.1 hmem
  obtain ⟨x, hx, hid⟩ := h.known d hd
  exact hnew x hx (hid.trans (congrArg Prod.fst heq))

theorem publishEvent_spec (hsound : Sound db) (hfresh : FreshIds db newId)
    (h : publishEvent db now eventId newId e = some (id, db')) : Published db eventId e id db' := by
  unfold publishEvent at h
  split at h
  · rename_i x hx
    cases h
    exact .known x (mem_of_find?_eq_some hx) (by simpa using find?_some hx) rfl rfl
  · rename_i hnone
    obtain ⟨events, hins, heq⟩ := map_eq_some_iff.1 h
    cases heq
    have hfree : ∀ y ∈ db.events.rows, y.dedupeKey ≠ e.dedupeKey := by
      simpa using find?_eq_none.1 hnone
    refine .inserted _ hfree rfl rfl rfl rfl rfl rfl rfl rfl (rows_insert? hins) ?_
    have hpair := hsound.pair_fresh (fun x hx => key_ne_of_insert? hins hx)
    show ((enabledConsumers db).foldl (deliverTo eventId now newId) db.deliveries).rows.map
      Delivery.pair = _
    rw [rows_fanOut (enabledConsumers_nodup db) (fun c _ => hpair c) hfresh, map_append,
      List.map_map]
    rfl

theorem publishOn_spec {bus bus' : EventDelivery.World} (hsound : Sound bus.db)
    (h : publishOn bus now eventId newId e = some (id, bus')) :
    Published bus.db eventId e id bus'.db := by
  unfold publishOn at h
  split at h
  · rename_i hguard
    obtain ⟨⟨id', db⟩, hpub, heq⟩ := map_eq_some_iff.1 h
    cases heq
    exact publishEvent_spec hsound hguard.2 hpub
  · cases h

/-- There are ids that are not in use. -/
theorem exists_fresh (used : List Uuid) : ∃ n, ∀ x ∈ used, x < n := by
  obtain ⟨m, hm⟩ := Finset.exists_le used.toFinset
  exact ⟨m + 1, fun x hx => Nat.lt_succ_of_le (hm x (List.mem_toFinset.2 hx))⟩

/-- A database that works can publish any event. -/
theorem publishOn_isSome (w : World) (e : NewEvent) :
    ∃ eventId newId r, publishOn w w.db.now eventId newId e = some r := by
  obtain ⟨n, hn⟩ := exists_fresh (w.db.events.rows.map (·.eventId))
  obtain ⟨m, hm⟩ := exists_fresh (w.db.deliveries.rows.map (·.id))
  have hfresh : FreshIds w.db (m + ·) := by
    refine fun c _ => ⟨fun d hd heq => ?_, fun c' _ heq => Nat.add_left_cancel heq⟩
    have hlt : d.id < m := hm d.id (List.mem_map.2 ⟨d, hd, rfl⟩)
    have hge : m ≤ d.id := heq ▸ Nat.le_add_right m c
    exact absurd hlt (Nat.not_lt.2 hge)
  refine ⟨n, (m + ·), ?_⟩
  unfold publishOn
  rw [if_pos ⟨le_rfl, hfresh⟩]
  unfold publishEvent
  cases hfind : w.db.events.rows.find? (fun x => x.dedupeKey = e.dedupeKey) with
  | some x => exact ⟨_, rfl⟩
  | none =>
    refine isSome_iff_exists.1 ?_
    simp only [isSome_map]
    refine insert?_isSome.2 (fun x hx heq => ?_)
    exact Nat.lt_irrefl _ (heq ▸ hn x.eventId (List.mem_map.2 ⟨x, hx, rfl⟩))

theorem mem_events_of_rows {x : Event} (h : db'.events.rows = db.events.rows ++ [x]) {y : Event} :
    y ∈ db'.events ↔ y ∈ db.events ∨ y = x := by
  rw [Table.mem_def, h, mem_append, mem_singleton]
  exact Iff.rfl

theorem Published.sound (hsound : Sound db) (h : Published db eventId e id db') : Sound db' := by
  cases h with
  | known _ _ _ _ hdb => exact hdb ▸ hsound
  | inserted x hfree hid _ _ _ _ _ hkey _ hevents hpairs =>
    have hnew : ∀ y ∈ db.events, y.eventId ≠ eventId := by
      intro y hy heq
      have hunique := db'.events.unique
      rw [hevents, map_append, nodup_append] at hunique
      exact hunique.2.2 y.eventId (List.mem_map.2 ⟨y, hy, rfl⟩) x.eventId
        (mem_singleton_self _) (heq.trans hid.symm)
    refine ⟨?_, ?_, ?_⟩
    · rw [hevents, map_append, nodup_append]
      refine ⟨hsound.keys, nodup_singleton _, ?_⟩
      intro k hk k' hk' heq
      obtain ⟨y, hy, rfl⟩ := List.mem_map.1 hk
      rw [mem_singleton.1 hk'] at heq
      exact hfree y hy (heq.trans hkey)
    · rw [hpairs, nodup_append]
      refine ⟨hsound.pairs, ?_, ?_⟩
      · exact (enabledConsumers_nodup db).map (fun _ _ heq => congrArg Prod.snd heq)
      · intro p hp p' hp' heq
        obtain ⟨c, _, rfl⟩ := List.mem_map.1 hp'
        exact hsound.pair_fresh hnew c (heq ▸ hp)
    · intro d hd
      have hmem := pair_of_mem hd
      rw [hpairs, mem_append] at hmem
      rcases hmem with hmem | hmem
      · obtain ⟨d', hd', heq⟩ := List.mem_map.1 hmem
        obtain ⟨y, hy, hyid⟩ := hsound.known d' hd'
        exact ⟨y, (mem_events_of_rows hevents).2 (.inl hy),
          hyid.trans (congrArg Prod.fst heq)⟩
      · obtain ⟨c, _, heq⟩ := List.mem_map.1 hmem
        exact ⟨x, (mem_events_of_rows hevents).2 (.inr rfl),
          hid.trans (congrArg Prod.fst heq)⟩

/-- After a publication some stored event has the key and the id it returned. -/
theorem Published.exists_event (h : Published db eventId e id db') :
    ∃ x ∈ db'.events, x.dedupeKey = e.dedupeKey ∧ x.eventId = id := by
  cases h with
  | known x hx hkey hid hdb => exact ⟨x, hdb ▸ hx, hkey, hid⟩
  | inserted x _ hid _ _ _ _ _ hkey hnew hevents _ =>
    exact ⟨x, (mem_events_of_rows hevents).2 (.inr rfl), hkey, hid.trans hnew.symm⟩

/-- Sanitizing leaves everything but the payload, the metadata and the
correlation id. -/
theorem sanitizedEvent_ok {env : Pseudonym.Env} {e' : NewEvent} (h : sanitizedEvent env e = .ok e') :
    e'.dedupeKey = e.dedupeKey ∧ e'.eventType = e.eventType ∧ e'.source = e.source ∧
      e'.severity = e.severity ∧ e'.occurredAt = e.occurredAt := by
  obtain ⟨payload, _, h⟩ := bind_ok h
  obtain ⟨metadata, _, h⟩ := bind_ok h
  obtain ⟨correlationId, _, h⟩ := bind_ok h
  cases h
  exact ⟨rfl, rfl, rfl, rfl, rfl⟩

/-- A publication leaves the event under its caller's key. -/
theorem publishSanitized_spec {env : Pseudonym.Env} (hsound : Sound db)
    (h : publishSanitized env db now eventId newId e = some db') :
    ∃ e' id, e'.dedupeKey = e.dedupeKey ∧ Published db eventId e' id db' := by
  unfold publishSanitized at h
  split at h
  case isFalse => cases h
  case isTrue hfresh =>
    split at h
    case h_1 => cases h
    case h_2 e' hsanitized =>
      obtain ⟨⟨id, bus⟩, hpub, rfl⟩ := map_eq_some_iff.1 h
      exact ⟨e', id, (sanitizedEvent_ok hsanitized).1, publishEvent_spec hsound hfresh hpub⟩

/-- Keys are unique: a stored event is the only one under its key. -/
theorem Sound.countP_key (h : Sound db) {x : Event} (hx : x ∈ db.events) :
    db.events.rows.countP (fun y => y.dedupeKey = x.dedupeKey) = 1 := by
  have hcount : (db.events.rows.map (·.dedupeKey)).count x.dedupeKey = 1 :=
    count_eq_one_of_mem h.keys (List.mem_map_of_mem hx)
  rw [count_eq_countP, countP_map] at hcount
  rw [← hcount]
  refine countP_congr (fun y _ => ?_)
  simp only [Function.comp_apply, beq_iff_eq, decide_eq_true_eq]

/-! ## What stays -/

/-- Every event and every delivery's pair is kept. -/
structure Kept (before after : EventStore) : Prop where
  events : ∀ x ∈ before.events, x ∈ after.events
  pairs : ∀ p ∈ before.deliveries.rows.map Delivery.pair,
    p ∈ after.deliveries.rows.map Delivery.pair

theorem Kept.refl (db : EventStore) : Kept db db := ⟨fun _ h => h, fun _ h => h⟩

theorem Kept.trans {a b c : EventStore} (h : Kept a b) (h' : Kept b c) : Kept a c :=
  ⟨fun x hx => h'.events x (h.events x hx), fun p hp => h'.pairs p (h.pairs p hp)⟩

theorem SameRows.kept {before after : EventStore} (h : SameRows before after) :
    Kept before after :=
  ⟨fun _ hx => h.events ▸ hx, fun _ hp => h.pairs ▸ hp⟩

theorem Published.kept (h : Published db eventId e id db') : Kept db db' := by
  cases h with
  | known _ _ _ _ hdb => exact hdb ▸ .refl _
  | inserted x _ _ _ _ _ _ _ _ _ hevents hpairs =>
    refine ⟨fun y hy => (mem_events_of_rows hevents).2 (.inl hy), fun p hp => ?_⟩
    rw [hpairs]
    exact mem_append_left _ hp

/-- In a sound store an event's key names it. -/
theorem Sound.event_unique (h : Sound db) {x y : Event} (hx : x ∈ db.events) (hy : y ∈ db.events)
    (hkey : x.dedupeKey = y.dedupeKey) : x = y :=
  inj_on_of_nodup_map h.keys hx hy hkey

/-- In a sound store a pair with a delivery has exactly one. -/
theorem Sound.delivery_unique (h : Sound db) {p : Uuid × Uuid}
    (hp : p ∈ db.deliveries.rows.map Delivery.pair) :
    ∃! d, d ∈ db.deliveries ∧ d.eventId = p.1 ∧ d.consumerId = p.2 := by
  obtain ⟨d, hd, rfl⟩ := List.mem_map.1 hp
  refine ⟨d, ⟨hd, rfl, rfl⟩, ?_⟩
  rintro d' ⟨hd', hevent, hconsumer⟩
  exact inj_on_of_nodup_map h.pairs hd' hd (Prod.ext hevent hconsumer)

/-- A new event has a delivery for each consumer that was enabled. -/
theorem Published.delivered (h : Published db eventId e id db') {x : Event} (hx : x ∈ db'.events)
    (hnew : x ∉ db.events) {c : EventConsumer} (hc : c ∈ db.consumers) (hen : c.enabled = true) :
    (x.eventId, c.id) ∈ db'.deliveries.rows.map Delivery.pair := by
  cases h with
  | known _ _ _ _ hdb => exact absurd (hdb ▸ hx) hnew
  | inserted y _ hid _ _ _ _ _ _ _ hevents hpairs =>
    rcases (mem_events_of_rows hevents).1 hx with hx | rfl
    · exact absurd hx hnew
    · rw [hpairs, mem_append, hid]
      refine .inr (List.mem_map.2 ⟨c.id, ?_, rfl⟩)
      exact List.mem_map.2 ⟨c, mem_filter.2 ⟨hc, hen⟩, rfl⟩

end Clawforge.EventDelivery

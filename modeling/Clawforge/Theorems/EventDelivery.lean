import Clawforge.Storage.EventDelivery

/-!
# What happens to a delivery

Row by row: a step leaves a delivery as it is, claims it, or completes it
(`Advance`), and the store stays consistent (`consistent_invariant`). On that
rest two results about whole runs:

* a delivery is stranded exactly by the claim that takes it for the fifth time —
  `processing` with five attempts is outside both claim queries
  (`never_stranded_along_iff`);
* a completion is settled for the wrong claim exactly where a superseded worker
  finds the row `processing` again (`settled_by_holder_along_iff`).
-/

namespace Clawforge.EventDelivery

open Kit TSys Table List Option

/-! ## The rows a claim takes -/

variable {locked : List Uuid} {d' : Delivery} {consumer : String} {a : Action}

theorem mem_selectForUpdate {P : Delivery → Prop} [DecidablePred P] {limit : Nat}
    {T : Table Delivery.id} {id : Uuid} (h : id ∈ selectForUpdate P locked limit T) :
    ∃ d ∈ T, P d ∧ d.id = id := by
  unfold selectForUpdate at h
  obtain ⟨d, hd, rfl⟩ := List.mem_map.1 h
  have hsorted := mem_of_mem_take hd
  rw [mem_insertionSort, mem_filter] at hsorted
  obtain ⟨hmem, hP⟩ := hsorted
  exact ⟨d, hmem, (of_decide_eq_true hP).1, rfl⟩

variable {T : Table Delivery.id} {consumerId eventId : Uuid} {taken : Delivery → Prop}
  {after before db db' : EventStore} {newId : Uuid → Uuid} {w w' : World}

/-- A claimed row matched one of the two claim queries. -/
theorem matches_of_claimed {now : Instant} {limit : Nat} {d : Delivery} (hd : d ∈ T)
    (h : d.id ∈ claimedIds T consumerId now limit locked) :
    StaleDelivery consumerId now d ∨ ReadyDelivery consumerId now d := by
  unfold claimedIds at h
  have pick : ∀ {P : Delivery → Prop} [DecidablePred P] {n : Nat},
      d.id ∈ selectForUpdate P locked n T → P d := by
    intro P _ n hsel
    obtain ⟨d', hd', hP, hid⟩ := mem_selectForUpdate hsel
    rwa [eq_of_key_eq hd' hd hid] at hP
  dsimp only at h
  split at h
  · rcases mem_append.1 h with h | h
    · exact .inl (pick h)
    · exact .inr (pick h)
  · exact .inl (pick h)

theorem attempts_lt_of_matches {now : Instant} {d : Delivery}
    (h : StaleDelivery consumerId now d ∨ ReadyDelivery consumerId now d) : d.attempts < 5 := by
  rcases h with ⟨_, _, _, h, _⟩ | ⟨_, _, _, h⟩ <;> exact h

theorem consumerId_of_matches {now : Instant} {d : Delivery}
    (h : StaleDelivery consumerId now d ∨ ReadyDelivery consumerId now d) :
    d.consumerId = consumerId := by
  rcases h with ⟨h, _⟩ | ⟨h, _⟩ <;> exact h

/-! ## What a step does to a row -/

/-- The action is a claim that takes the row. -/
def TakenBy (db : EventStore) (a : Action) (d : Delivery) : Prop :=
  match a with
  | .claim _ consumer limit now locked =>
    ∃ c, db.consumers.rows.find? (fun c => c.name = consumer) = some c ∧
      d.id ∈ claimedIds db.deliveries c.id now (clampLimit limit) locked
  | _ => False

/-- The change of one row in one step, of which `taken` are the rows claimed. -/
inductive Advance (taken : Delivery → Prop) : Delivery → Delivery → Prop
  | same (d) : Advance taken d d
  | claimed (d now) : taken d → d.attempts < 5 → Advance taken d (claimRow now d)
  | completed (d now success error) : d.status = .processing →
      Advance taken d (completedRow now success error d)

/-- A row as publication writes it. -/
def Fresh (db : EventStore) (d : Delivery) : Prop :=
  d.status = .pending ∧ d.attempts = 0 ∧
    ∃ c ∈ db.consumers, c.id = d.consumerId ∧ c.enabled = true

theorem Advance.id_eq {d : Delivery} (h : Advance taken d d') : d'.id = d.id := by
  cases h with
  | same => rfl
  | claimed => rfl
  | completed now success error _ => exact completedRow_id now success error d

theorem completedRow_consumerId (now success error d) :
    (completedRow now success error d).consumerId = d.consumerId := by
  cases success <;> rfl

theorem completedRow_attempts (now success error d) :
    (completedRow now success error d).attempts = d.attempts := by
  cases success <;> rfl

theorem completedRow_status_ne (now success error d) :
    (completedRow now success error d).status ≠ .processing := by
  cases success with
  | true => exact DeliveryStatus.noConfusion
  | false =>
    show (if 5 ≤ d.attempts then DeliveryStatus.dead else .failed) ≠ .processing
    split <;> exact DeliveryStatus.noConfusion

theorem Advance.consumerId_eq {d : Delivery} (h : Advance taken d d') :
    d'.consumerId = d.consumerId := by
  cases h with
  | same => rfl
  | claimed => rfl
  | completed now success error _ => exact completedRow_consumerId now success error d

theorem Advance.attempts_le {d : Delivery} (h : Advance taken d d') : d.attempts ≤ d'.attempts := by
  cases h with
  | same => exact le_rfl
  | claimed now _ _ => exact Nat.le_succ _
  | completed now success error _ =>
    exact (completedRow_attempts now success error d).ge

/-- One step changes rows by `Advance`, adds only fresh rows, loses none, and
claims the rows it takes. -/
structure RowStep (taken : Delivery → Prop) (before after : EventStore) : Prop where
  from_old : ∀ d' ∈ after.deliveries,
    Fresh before d' ∨ ∃ d ∈ before.deliveries, Advance taken d d'
  to_new : ∀ d ∈ before.deliveries, ∃ d' ∈ after.deliveries, Advance taken d d'
  claims : ∀ d ∈ before.deliveries, taken d → ∃ now, claimRow now d ∈ after.deliveries

theorem RowStep.unchanged (h : after.deliveries = before.deliveries) :
    RowStep (fun _ => False) before after where
  from_old d' hd' := .inr ⟨d', h ▸ hd', .same d'⟩
  to_new d hd := ⟨d, h ▸ hd, .same d⟩
  claims _ _ htaken := htaken.elim

/-- An update that advances the rows it touches. -/
theorem RowStep.updateWhere {p : Delivery → Prop} [DecidablePred p] (f : Delivery → Delivery)
    (hf : ∀ r, (f r).id = r.id) (h : after.deliveries = before.deliveries.updateWhere p f hf)
    (hadv : ∀ d ∈ before.deliveries, p d → Advance taken d (f d))
    (hclaims : ∀ d ∈ before.deliveries, taken d → p d ∧ ∃ now, f d = claimRow now d) :
    RowStep taken before after := by
  have change : ∀ d ∈ before.deliveries, Advance taken d (if p d then f d else d) := by
    intro d hd
    by_cases hp : p d
    · rw [if_pos hp]; exact hadv d hd hp
    · rw [if_neg hp]; exact .same d
  have kept : ∀ d ∈ before.deliveries, (if p d then f d else d) ∈ after.deliveries := by
    intro d hd
    rw [h]
    exact mem_updateWhere.2 ⟨d, hd, rfl⟩
  constructor
  · intro d' hd'
    rw [h] at hd'
    obtain ⟨d, hd, rfl⟩ := mem_updateWhere.1 hd'
    exact .inr ⟨d, hd, change d hd⟩
  · exact fun d hd => ⟨_, kept d hd, change d hd⟩
  · intro d hd htaken
    obtain ⟨hp, now, hnow⟩ := hclaims d hd htaken
    have := kept d hd
    rw [if_pos hp, hnow] at this
    exact ⟨now, this⟩

/-! ## Publication -/

theorem mem_deliverTo {now : Instant} {d : Delivery}
    (h : d ∈ deliverTo eventId now newId T consumerId) :
    d ∈ T ∨ d.status = .pending ∧ d.attempts = 0 ∧ d.consumerId = consumerId := by
  unfold deliverTo at h
  split at h
  · exact .inl h
  · rcases mem_insertOrIgnore h with h | rfl
    · exact .inl h
    · exact .inr ⟨rfl, rfl, rfl⟩

theorem mem_deliverTo_of_mem {now : Instant} {d : Delivery} (h : d ∈ T) :
    d ∈ deliverTo eventId now newId T consumerId := by
  unfold deliverTo
  split
  · exact h
  · exact mem_insertOrIgnore_of_mem h

theorem mem_fanOut {now : Instant} {consumerIds : List Uuid} {d : Delivery}
    (h : d ∈ consumerIds.foldl (deliverTo eventId now newId) T) :
    d ∈ T ∨ d.status = .pending ∧ d.attempts = 0 ∧ d.consumerId ∈ consumerIds := by
  induction consumerIds generalizing T with
  | nil => exact .inl h
  | cons c rest ih =>
    rcases ih h with h | ⟨hs, ha, hc⟩
    · rcases mem_deliverTo h with h | ⟨hs, ha, rfl⟩
      · exact .inl h
      · exact .inr ⟨hs, ha, mem_cons_self⟩
    · exact .inr ⟨hs, ha, mem_cons_of_mem _ hc⟩

theorem mem_fanOut_of_mem {now : Instant} {consumerIds : List Uuid} {d : Delivery} (h : d ∈ T) :
    d ∈ consumerIds.foldl (deliverTo eventId now newId) T := by
  induction consumerIds generalizing T with
  | nil => exact h
  | cons c rest ih => exact ih (mem_deliverTo_of_mem h)

theorem enabled_of_mem {id : Uuid} (h : id ∈ enabledConsumers db) :
    ∃ c ∈ db.consumers, c.id = id ∧ c.enabled = true := by
  unfold enabledConsumers at h
  obtain ⟨c, hc, rfl⟩ := List.mem_map.1 h
  obtain ⟨hmem, hen⟩ := mem_filter.1 hc
  exact ⟨c, hmem, rfl, hen⟩

theorem publishEvent_rows {now : Instant} {id : Uuid} {e : NewEvent}
    (h : publishEvent db now eventId newId e = some (id, db')) :
    RowStep (fun _ => False) db db' ∧ db'.consumers = db.consumers := by
  unfold publishEvent at h
  split at h
  · cases h
    exact ⟨.unchanged rfl, rfl⟩
  · obtain ⟨events, _, heq⟩ := map_eq_some_iff.1 h
    cases heq
    refine ⟨⟨?_, ?_, fun _ _ htaken => htaken.elim⟩, rfl⟩
    · intro d hd
      rcases mem_fanOut hd with hd | ⟨hs, ha, hc⟩
      · exact .inr ⟨d, hd, .same d⟩
      · exact .inl ⟨hs, ha, enabled_of_mem hc⟩
    · intro d hd
      exact ⟨d, mem_fanOut_of_mem hd, .same d⟩

/-! ## Consumers are never lost or disabled -/

/-- Every consumer row keeps its id and name and stays enabled once enabled. -/
def ConsumersKept (before after : EventStore) : Prop :=
  ∀ c ∈ before.consumers, ∃ c' ∈ after.consumers, c'.id = c.id ∧ c'.name = c.name ∧
    (c.enabled = true → c'.enabled = true)

theorem ConsumersKept.of_eq (h : after.consumers = before.consumers) : ConsumersKept before after :=
  fun c hc => ⟨c, h ▸ hc, rfl, rfl, id⟩

theorem ConsumersKept.updateWhere {p : EventConsumer → Prop} [DecidablePred p]
    (f : EventConsumer → EventConsumer) (hf : ∀ r, (f r).id = r.id)
    (h : after.consumers = before.consumers.updateWhere p f hf) (hname : ∀ c, (f c).name = c.name)
    (hen : ∀ c, c.enabled = true → (f c).enabled = true) : ConsumersKept before after := by
  intro c hc
  refine ⟨if p c then f c else c, h ▸ mem_updateWhere.2 ⟨c, hc, rfl⟩, ?_⟩
  split
  · exact ⟨hf c, hname c, hen c⟩
  · exact ⟨rfl, rfl, id⟩

theorem ensureEventConsumer_kept {now : Instant} {newId : Uuid} {name : String}
    (h : ensureEventConsumer db now newId name = some db') :
    ConsumersKept db db' ∧ db'.deliveries = db.deliveries := by
  unfold ensureEventConsumer at h
  split at h
  · cases h
    exact ⟨.updateWhere enabledRow (fun _ => rfl) rfl (fun _ => rfl) (fun _ _ => rfl), rfl⟩
  · obtain ⟨consumers, hins, heq⟩ := map_eq_some_iff.1 h
    cases heq
    refine ⟨fun c hc => ⟨c, ?_, rfl, rfl, id⟩, rfl⟩
    exact (mem_insert? hins).2 (.inl hc)

/-! ## One step of the system -/

/-- What a completion that found its row leaves behind. -/
theorem completeEventDelivery_ok {now : Instant} {deliveryId : Uuid} {success : Bool}
    {error : Option String}
    (h : completeEventDelivery db now deliveryId consumer success error = .ok db') :
    db' = { db with
      deliveries := db.deliveries.updateWhere (Completable db deliveryId consumer)
        (completedRow now success error) (completedRow_id now success error) } := by
  unfold completeEventDelivery at h
  split at h
  · exact (Except.ok.inj h).symm
  · cases h

theorem completeEventDelivery_rows {now : Instant} {deliveryId : Uuid} {success : Bool}
    {error : Option String}
    (h : completeEventDelivery db now deliveryId consumer success error = .ok db') :
    RowStep (fun _ => False) db db' ∧ db'.consumers = db.consumers := by
  rw [completeEventDelivery_ok h]
  refine ⟨.updateWhere (completedRow now success error)
    (completedRow_id now success error) rfl ?_ (fun _ _ htaken => htaken.elim), rfl⟩
  exact fun d _ hd => .completed d now success error hd.2.2

theorem claimEventDeliveries_rows (db : EventStore) (c : EventConsumer) (limit : Int)
    (now : Instant) (locked : List Uuid) :
    RowStep (fun d => d.id ∈ claimedIds db.deliveries c.id now (clampLimit limit) locked)
      db (claimEventDeliveries db c limit now locked).2 :=
  .updateWhere (claimRow now) (fun _ => rfl) rfl
    (fun d hd hid =>
      .claimed d now hid (attempts_lt_of_matches (matches_of_claimed hd hid)))
    (fun _ _ hid => ⟨hid, now, rfl⟩)

/-- Every action advances rows, claims those it takes, and keeps the consumers. -/
theorem exec_rows (h : exec w a = some w') :
    RowStep (TakenBy w.db a) w.db w'.db ∧ ConsumersKept w.db w'.db := by
  cases a with
  | tick | crash =>
    cases h
    exact ⟨.unchanged rfl, .of_eq rfl⟩
  | ensure now newId name =>
    simp only [exec] at h
    split at h
    · obtain ⟨db, hdb, rfl⟩ := map_eq_some_iff.1 h
      obtain ⟨hkept, hrows⟩ := ensureEventConsumer_kept hdb
      exact ⟨.unchanged hrows, hkept⟩
    · cases h
  | heartbeat now name =>
    simp only [exec] at h
    split at h
    · cases h
      exact ⟨.unchanged rfl,
        .updateWhere (heartbeatRow now) (fun _ => rfl) rfl (fun _ => rfl) (fun _ h => h)⟩
    · cases h
  | publish now eventId newId e =>
    simp only [exec] at h
    split at h
    · obtain ⟨⟨id, db⟩, hpub, rfl⟩ := map_eq_some_iff.1 h
      obtain ⟨hrows, hcons⟩ := publishEvent_rows hpub
      exact ⟨hrows, .of_eq hcons⟩
    · cases h
  | claim worker consumer limit now locked =>
    simp only [exec] at h
    split at h
    · cases h
    · rename_i c hc
      split at h
      · cases h
        have htaken : TakenBy w.db (.claim worker consumer limit now locked) =
            fun d => d.id ∈
              claimedIds w.db.deliveries c.id now (clampLimit limit) locked := by
          funext d
          simp [TakenBy, hc]
        rw [htaken]
        exact ⟨claimEventDeliveries_rows _ _ _ _ _, .of_eq rfl⟩
      · cases h
  | complete | completeUnclaimed =>
    simp only [exec] at h
    split at h
    · split at h
      · cases h
        exact ⟨.unchanged rfl, .of_eq rfl⟩
      · rename_i db hok
        cases h
        obtain ⟨hrows, hcons⟩ := completeEventDelivery_rows hok
        exact ⟨hrows, .of_eq hcons⟩
    · cases h

/-! ## Consistent stores -/

/-- What every stored delivery satisfies. -/
structure RowOk (db : EventStore) (d : Delivery) : Prop where
  scheduled : d.status = .pending ∨ d.status = .failed → d.attempts < 5
  started : d.status = .processing → ∃ t, d.processingStartedAt = some t
  consumer : ∃ c ∈ db.consumers, c.id = d.consumerId ∧ c.enabled = true

/-- A held claim is on a stored row of its consumer, handed out no later than
the row's current attempt. -/
structure HeldOk (db : EventStore) (c : Claim) : Prop where
  row : ∃ d ∈ db.deliveries, d.id = c.delivery ∧ c.attempt ≤ d.attempts ∧
    ∃ k ∈ db.consumers, k.id = d.consumerId ∧ k.name = c.consumer

structure Consistent (w : World) : Prop where
  rows : ∀ d ∈ w.db.deliveries, RowOk w.db d
  held : ∀ c ∈ w.held, HeldOk w.db c

theorem Fresh.rowOk {d : Delivery} (hkept : ConsumersKept before after) (h : Fresh before d) :
    RowOk after d where
  scheduled _ := by rw [h.2.1]; decide
  started hp := by rw [h.1] at hp; cases hp
  consumer := by
    obtain ⟨c, hc, hid, hen⟩ := h.2.2
    obtain ⟨c', hc', hid', _, hen'⟩ := hkept c hc
    exact ⟨c', hc', hid'.trans hid, hen' hen⟩

theorem Advance.rowOk {d : Delivery} (hkept : ConsumersKept before after)
    (hadv : Advance taken d d') (h : RowOk before d) : RowOk after d' := by
  obtain ⟨c, hc, hid, hen⟩ := h.consumer
  obtain ⟨c', hc', hid', _, hen'⟩ := hkept c hc
  have hcons : ∃ c ∈ after.consumers, c.id = d'.consumerId ∧ c.enabled = true :=
    ⟨c', hc', by rw [hid', hid, hadv.consumerId_eq], hen' hen⟩
  cases hadv with
  | same => exact ⟨h.scheduled, h.started, hcons⟩
  | claimed now _ _ =>
    refine ⟨fun hs => ?_, fun _ => ⟨now, rfl⟩, hcons⟩
    rcases hs with hs | hs <;> cases hs
  | completed now success error _ =>
    refine ⟨fun hs => ?_, fun hp => ?_, hcons⟩
    · cases success with
      | true => rcases hs with hs | hs <;> cases hs
      | false =>
        -- a failure at five attempts writes 'dead', never 'failed'
        rw [completedRow_attempts]
        by_contra hlt
        have hdead : (completedRow now false error d).status = .dead :=
          if_pos (Nat.le_of_not_lt hlt)
        rw [hdead] at hs
        rcases hs with hs | hs <;> cases hs
    · exact absurd hp (completedRow_status_ne now success error d)

theorem HeldOk.step {c : Claim} (hrows : RowStep taken before after)
    (hkept : ConsumersKept before after) (h : HeldOk before c) : HeldOk after c := by
  obtain ⟨d, hd, hid, hle, k, hk, hkid, hkname⟩ := h.row
  obtain ⟨d', hd', hadv⟩ := hrows.to_new d hd
  obtain ⟨k', hk', hkid', hkname', _⟩ := hkept k hk
  refine ⟨d', hd', hadv.id_eq.trans hid, le_trans hle hadv.attempts_le, k', hk', ?_,
    hkname'.trans hkname⟩
  rw [hkid', hkid, hadv.consumerId_eq]

/-- The claims a worker is handed are on the rows the claim wrote. -/
theorem heldOk_of_handOut {k : EventConsumer} {limit : Int} {now : Instant} {worker : Nat}
    {c : Claim} (hk : k ∈ db.consumers) (hname : k.name = consumer)
    (h : c ∈ handOut worker consumer (claimEventDeliveries db k limit now locked).1) :
    HeldOk (claimEventDeliveries db k limit now locked).2 c := by
  obtain ⟨x, hx, rfl⟩ := List.mem_map.1 h
  obtain ⟨d', hd', hmap⟩ := mem_filterMap.1 hx
  obtain ⟨event, _, rfl⟩ := map_eq_some_iff.1 hmap
  rw [mem_insertionSort, mem_filter] at hd'
  obtain ⟨hmem, hid⟩ := hd'
  obtain ⟨d, hd, rfl⟩ := mem_updateWhere.1 hmem
  have hclaimed : d.id ∈ claimedIds db.deliveries k.id now (clampLimit limit) locked := by
    have := of_decide_eq_true hid
    split at this
    · assumption
    · exact this
  refine ⟨_, hmem, rfl, le_rfl, k, hk, ?_, hname⟩
  rw [if_pos hclaimed]
  exact (consumerId_of_matches (matches_of_claimed hd hclaimed)).symm

theorem exec_held (h : exec w a = some w') (hw : ∀ c ∈ w.held, HeldOk w'.db c) :
    ∀ c ∈ w'.held, HeldOk w'.db c := by
  cases a with
  | tick elapsed => cases h; exact hw
  | ensure now newId name =>
    simp only [exec] at h
    split at h
    · obtain ⟨db, _, rfl⟩ := map_eq_some_iff.1 h
      exact hw
    · cases h
  | heartbeat now name =>
    simp only [exec] at h
    split at h
    · cases h; exact hw
    · cases h
  | publish now eventId newId e =>
    simp only [exec] at h
    split at h
    · obtain ⟨r, _, rfl⟩ := map_eq_some_iff.1 h
      exact hw
    · cases h
  | claim worker consumer limit now locked =>
    simp only [exec] at h
    split at h
    · cases h
    · rename_i k hk
      split at h
      · cases h
        intro c hc
        rcases mem_append.1 hc with hc | hc
        · exact heldOk_of_handOut (mem_of_find?_eq_some hk)
            (by simpa using find?_some hk) hc
        · exact hw c hc
      · cases h
  | complete | completeUnclaimed =>
    simp only [exec] at h
    split at h
    · split at h <;> (cases h; exact hw)
    · cases h
  | crash worker =>
    cases h
    exact fun c hc => hw c (mem_of_mem_filter hc)

theorem consistent_invariant : system.Invariant Consistent := by
  have hind : system.Inductive Consistent :=
    { init := by
        rintro w ⟨_, hd, hh, _⟩
        constructor
        · intro d hmem
          rw [Table.mem_def, hd] at hmem
          cases hmem
        · intro c hmem
          rw [hh] at hmem
          cases hmem
      step := by
        intro w a w' hw hstep
        obtain ⟨hrows, hkept⟩ := exec_rows hstep
        constructor
        · intro d' hd'
          rcases hrows.from_old d' hd' with hfresh | ⟨d, hd, hadv⟩
          · exact hfresh.rowOk hkept
          · exact hadv.rowOk hkept (hw.rows d hd)
        · exact exec_held hstep (fun c hc => (hw.held c hc).step hrows hkept) }
  exact hind.invariant

/-! ## Stranded deliveries -/

/-- A settled row, which no query needs to find again. -/
def Terminal (d : Delivery) : Prop := d.status = .processed ∨ d.status = .dead

/-- From some instant on, one of the claim queries of its consumer matches the
row as it stands. -/
def EventuallySelected (consumerId : Uuid) (d : Delivery) : Prop :=
  ∃ t₀, ∀ t, t₀ ≤ t → StaleDelivery consumerId t d ∨ ReadyDelivery consumerId t d

/-- No delivery of an enabled consumer is outside every claim query for good. -/
def NeverStranded (w : World) : Prop :=
  ∀ c ∈ w.db.consumers, c.enabled = true → ∀ d ∈ w.db.deliveries,
    d.consumerId = c.id → Terminal d ∨ EventuallySelected c.id d

/-- A row that is not settled is selected in the end exactly if it has attempts
left. -/
theorem eventuallySelected_iff {d : Delivery} (hd : RowOk db d) (hopen : ¬ Terminal d) :
    EventuallySelected d.consumerId d ↔ d.attempts < 5 := by
  constructor
  · rintro ⟨t₀, h⟩
    exact attempts_lt_of_matches (h t₀ le_rfl)
  · intro hlt
    cases hs : d.status with
    | processing =>
      obtain ⟨t, ht⟩ := hd.started hs
      refine ⟨max d.availableAt (t + minutes 10 + 1), fun u hu => .inl ?_⟩
      have hready : d.availableAt ≤ u := le_trans (le_max_left _ _) hu
      have hstale : t + minutes 10 + 1 ≤ u := le_trans (le_max_right _ _) hu
      exact ⟨rfl, hs, hready, hlt, t, ht, hstale⟩
    | pending => exact ⟨d.availableAt, fun u hu => .inr ⟨rfl, .inl hs, hu, hlt⟩⟩
    | failed => exact ⟨d.availableAt, fun u hu => .inr ⟨rfl, .inr hs, hu, hlt⟩⟩
    | processed => exact absurd (.inl hs) hopen
    | dead => exact absurd (.inr hs) hopen

/-- The only stranded rows are those in process with no attempt left. -/
theorem neverStranded_iff (hw : Consistent w) :
    NeverStranded w ↔
      ∀ d ∈ w.db.deliveries, d.status = .processing → d.attempts < 5 := by
  constructor
  · intro h d hd hs
    obtain ⟨c, hc, hid, hen⟩ := (hw.rows d hd).consumer
    have hopen : ¬ Terminal d := by
      rintro (ht | ht) <;> (rw [hs] at ht; cases ht)
    rcases h c hc hen d hd hid.symm with ht | hsel
    · exact absurd ht hopen
    · rw [hid] at hsel
      exact (eventuallySelected_iff (hw.rows d hd) hopen).1 hsel
  · intro h c _ _ d hd hid
    by_cases hopen : Terminal d
    · exact .inl hopen
    · right
      rw [← hid, eventuallySelected_iff (hw.rows d hd) hopen]
      cases hs : d.status with
      | processing => exact h d hd hs
      | pending => exact (hw.rows d hd).scheduled (.inl hs)
      | failed => exact (hw.rows d hd).scheduled (.inr hs)
      | processed => exact absurd (.inl hs) hopen
      | dead => exact absurd (.inr hs) hopen

/-- The action is a claim that takes a delivery with four attempts behind it. -/
def TakesFifthAttempt (w : World) (a : Action) : Prop :=
  ∃ d ∈ w.db.deliveries, d.attempts = 4 ∧ TakenBy w.db a d

/-- One step strands a delivery exactly if it is its fifth claim. -/
theorem neverStranded_step (hw : Consistent w) (hw' : Consistent w') (h : NeverStranded w)
    (hstep : exec w a = some w') : NeverStranded w' ↔ ¬ TakesFifthAttempt w a := by
  have hrows := (exec_rows hstep).1
  rw [neverStranded_iff hw] at h
  rw [neverStranded_iff hw']
  constructor
  · rintro h' ⟨d, hd, h4, htaken⟩
    obtain ⟨now, hmem⟩ := hrows.claims d hd htaken
    have hlt : d.attempts + 1 < 5 := h' _ hmem rfl
    omega
  · intro hfifth d' hd' hs
    rcases hrows.from_old d' hd' with hfresh | ⟨d, hd, hadv⟩
    · rw [hfresh.1] at hs
      cases hs
    · cases hadv with
      | same => exact h d' hd hs
      | claimed now htaken hlt =>
        show d.attempts + 1 < 5
        have hne : d.attempts ≠ 4 := fun h4 => hfifth ⟨d, hd, h4, htaken⟩
        omega
      | completed now success error _ =>
        exact absurd hs (completedRow_status_ne now success error d)

/-- Along a run no delivery is ever stranded exactly if no claim of the run
takes a delivery for the fifth time. -/
theorem never_stranded_along_iff {w₀ w : World} {as : List Action}
    (h₀ : Initial w₀) (hrun : system.Run w₀ as w) :
    system.Along NeverStranded w₀ as ↔
      (system.restrict (fun w a => ¬ TakesFifthAttempt w a)).Run w₀ as w := by
  have hreach : system.Reachable w₀ := .init h₀
  refine hrun.along_iff_restrict (deterministic_ofExec _ _) ?_ hreach ?_
  · intro s a t hs hns hstep
    exact neverStranded_step (consistent_invariant s hs)
      (consistent_invariant t (hs.step hstep)) hns hstep
  · rw [neverStranded_iff (consistent_invariant w₀ hreach)]
    intro d hd
    rw [Table.mem_def, h₀.2.1] at hd
    cases hd

/-! ### A run that strands a delivery -/

def correlationConsumer : EventConsumer where
  id := 1
  name := "correlation"
  enabled := true
  lastHeartbeatAt := none
  createdAt := 0

/-- One registered consumer and nothing published. -/
def oneConsumer : World where
  db :=
    { now := 0
      events := .empty _
      consumers := ⟨[correlationConsumer], nodup_singleton _⟩
      deliveries := .empty _ }
  held := []
  settled := []

def someEvent : NewEvent where
  eventType := "firewall.blocked"
  source := "nftables"
  severity := "high"
  occurredAt := 0
  correlationId := none
  payload := .null
  metadata := .null
  dedupeKey := "k"

/-- A claim at `now` whose worker crashes before it reports. -/
def claimAndCrash (now : Instant) : List Action :=
  [.claim 1 "correlation" 50 now [], .crash 1, .tick (minutes 11)]

/-- Publication, then five claims of the delivery, each lost to a crash. -/
def fiveLostClaims : List Action :=
  .publish 0 10 (fun _ => 20) someEvent ::
    (List.range 5).flatMap (fun n => claimAndCrash (n * minutes 11))

theorem oneConsumer_initial : Initial oneConsumer := ⟨rfl, rfl, rfl, rfl⟩

/-- After the fifth lost claim the delivery is `processing` with five attempts,
which neither claim query ever selects. -/
theorem stranded_after_five_lost_claims : ¬ system.Invariant NeverStranded := by
  intro h
  have hrun : (execAll exec oneConsumer fiveLostClaims).map
      (fun w => w.db.deliveries.rows.map (fun d => (d.status, d.attempts))) =
      some [(.processing, 5)] := by decide
  obtain ⟨w, hw, hrows⟩ := map_eq_some_iff.1 hrun
  have hreach : system.Reachable w :=
    ⟨oneConsumer, fiveLostClaims, oneConsumer_initial, run_of_execAll _ _ hw⟩
  have hlt := (neverStranded_iff (consistent_invariant w hreach)).1 (h w hreach)
  obtain ⟨d, hd, hd5⟩ := List.mem_map.1
    (show (DeliveryStatus.processing, 5) ∈
      w.db.deliveries.rows.map (fun d => (d.status, d.attempts)) by
        rw [hrows]; exact mem_singleton_self _)
  obtain ⟨hs, h5⟩ := Prod.mk.inj hd5
  have := hlt d hd hs
  omega

/-- The store the lost claims leave. -/
def afterLostClaims : World := (execAll exec oneConsumer fiveLostClaims).get (by decide)

theorem never_stranded_along_iff_lost_claims :
    system.Along NeverStranded oneConsumer fiveLostClaims ↔
      (system.restrict (fun w a => ¬ TakesFifthAttempt w a)).Run
        oneConsumer fiveLostClaims afterLostClaims :=
  never_stranded_along_iff oneConsumer_initial
    (run_of_execAll _ _ (some_get _).symm)

/-! ## Settling the claim of another worker -/

/-- Every settlement so far was made for the claim its row then carried. -/
def SettledByHolder (w : World) : Prop :=
  ∀ x ∈ w.settled, x.claim.attempt = x.attempts

/-- The action completes a claim that was superseded, on a row some later claim
holds in process. -/
def SettlesLaterClaim (w : World) : Action → Prop
  | .complete c _ _ _ => ∃ d ∈ w.db.deliveries, d.id = c.delivery ∧
      d.attempts ≠ c.attempt ∧ d.status = .processing
  | _ => False

/-- The row a held claim names is completable exactly if it is in process. -/
theorem completable_iff {c : Claim} (hc : HeldOk db c) {d : Delivery}
    (hd : db.deliveries.get? c.delivery = some d) :
    Completable db c.delivery c.consumer d ↔ d.status = .processing := by
  obtain ⟨hmem, hid⟩ := get?_eq_some.1 hd
  obtain ⟨d', hd', hid', _, k, hk, hkid, hkname⟩ := hc.row
  have : d' = d := eq_of_key_eq hd' hmem (hid'.trans hid.symm)
  subst this
  exact ⟨fun h => h.2.2, fun h => ⟨hid, ⟨k, hk, hkid.symm, hkname⟩, h⟩⟩

theorem completedRow_standing_ne (now success error) {d : Delivery}
    (hs : d.status = .processing) :
    (completedRow now success error d).standing ≠ d.standing := by
  intro h
  have : (completedRow now success error d).status = d.status := congrArg Prod.fst h
  exact completedRow_status_ne now success error d (this.trans hs)

/-- A completion by the holder of a claim leaves status, attempts and ready time
of the row alone exactly if the row is not in process. -/
theorem standing_kept_iff {c : Claim} {success : Bool} {error : Option String} {now : Instant}
    (hc : HeldOk w.db c) (h : exec w (.complete c success error now) = some w') {d : Delivery}
    (hd : w.db.deliveries.get? c.delivery = some d) :
    (w'.db.deliveries.get? c.delivery).map Delivery.standing = some d.standing ↔
      d.status ≠ .processing := by
  simp only [exec] at h
  split at h
  · cases hok : completeEventDelivery w.db now c.delivery c.consumer success error with
    | error e =>
      rw [hok] at h
      cases h
      rw [hd]
      refine ⟨fun _ hs => ?_, fun _ => rfl⟩
      unfold completeEventDelivery at hok
      rw [if_pos ⟨d, mem_of_get? hd, (completable_iff hc hd).2 hs⟩] at hok
      cases hok
    | ok db =>
      rw [hok] at h
      cases h
      rw [completeEventDelivery_ok hok]
      simp only [get?_updateWhere, hd]
      simp only [map_some, Option.some.injEq, completable_iff hc hd]
      by_cases hs : d.status = .processing
      · simp only [hs, if_true, ne_eq, not_true_eq_false, iff_false]
        exact completedRow_standing_ne now success error hs
      · simp [hs]
  · cases h

theorem settled_of_ne_complete (h : exec w a = some w')
    (ha : ∀ c success error now, a ≠ .complete c success error now) : w'.settled = w.settled := by
  cases a with
  | complete c success error now => exact absurd rfl (ha c success error now)
  | tick | crash => cases h; rfl
  | ensure | publish =>
    simp only [exec] at h
    split at h
    · obtain ⟨_, _, rfl⟩ := map_eq_some_iff.1 h
      rfl
    · cases h
  | heartbeat =>
    simp only [exec] at h
    split at h <;> cases h
    rfl
  | claim =>
    simp only [exec] at h
    split at h
    · cases h
    · split at h <;> cases h
      rfl
  | completeUnclaimed =>
    simp only [exec] at h
    split at h
    · split at h <;> (cases h; rfl)
    · cases h

/-- The settlements one completion adds: one, exactly if its row was in process. -/
theorem settled_of_complete {c : Claim} {success : Bool} {error : Option String} {now : Instant}
    (hc : HeldOk w.db c) (h : exec w (.complete c success error now) = some w') {d : Delivery}
    (hd : w.db.deliveries.get? c.delivery = some d) :
    w'.settled =
      (if d.status = .processing then [{ claim := c, attempts := d.attempts }] else []) ++
        w.settled := by
  have hkept := standing_kept_iff hc h hd
  simp only [exec] at h
  split at h
  · split at h
    · cases h
      rw [if_neg (hkept.1 (by rw [hd]; rfl))]
      rfl
    · cases h
      simp only [settlementsOf, hd]
      by_cases hs : d.status = .processing
      · rw [if_neg (fun heq => hkept.1 heq hs), if_pos hs]
      · rw [if_pos (hkept.2 hs), if_neg hs]
  · cases h

theorem settledByHolder_step (hw : Consistent w) (h : SettledByHolder w)
    (hstep : exec w a = some w') : SettledByHolder w' ↔ ¬ SettlesLaterClaim w a := by
  cases a with
  | complete c success error now =>
    have hheld : c ∈ w.held := by
      simp only [exec] at hstep
      split at hstep
      · exact (‹_ ∧ _› : c ∈ w.held ∧ _).1
      · cases hstep
    obtain ⟨d, hd, hid, _⟩ := (hw.held c hheld).row
    have hget : w.db.deliveries.get? c.delivery = some d := get?_eq_some.2 ⟨hd, hid⟩
    have hsettled := settled_of_complete (hw.held c hheld) hstep hget
    have hlater : SettlesLaterClaim w (.complete c success error now) ↔
        d.attempts ≠ c.attempt ∧ d.status = .processing := by
      constructor
      · rintro ⟨d', hd', hid', hne⟩
        rwa [eq_of_key_eq hd' hd (hid'.trans hid.symm)] at hne
      · exact fun hne => ⟨d, hd, hid, hne⟩
    rw [hlater]
    unfold SettledByHolder
    rw [hsettled]
    by_cases hs : d.status = .processing
    · simp only [hs, if_true, and_true, ne_eq, not_not, cons_append, nil_append,
        forall_mem_cons]
      exact ⟨fun h' => h'.1.symm, fun heq => ⟨heq.symm, h⟩⟩
    · simp only [hs, if_false, and_false, not_false_eq_true, iff_true, nil_append]
      exact h
  | _ =>
    refine ⟨fun _ hl => hl, fun _ => ?_⟩
    unfold SettledByHolder
    rw [settled_of_ne_complete hstep (by intro _ _ _ _ hne; cases hne)]
    exact h

/-- Along a run every settlement is made for the claim its row carries exactly
if no superseded claim is completed while a later one has the row in process. -/
theorem settled_by_holder_along_iff {w₀ w : World} {as : List Action}
    (h₀ : Initial w₀) (hrun : system.Run w₀ as w) :
    system.Along SettledByHolder w₀ as ↔
      (system.restrict (fun w a => ¬ SettlesLaterClaim w a)).Run w₀ as w := by
  refine hrun.along_iff_restrict (deterministic_ofExec _ _) ?_ (.init h₀) ?_
  · intro s a t hs hns hstep
    exact settledByHolder_step (consistent_invariant s hs) hns hstep
  · intro x hx
    rw [h₀.2.2.2] at hx
    cases hx

/-- Worker 1 stalls, worker 2 reclaims the delivery, and worker 1 reports. -/
def supersededCompletion : List Action :=
  [ .publish 0 10 (fun _ => 20) someEvent
  , .claim 1 "correlation" 50 0 []
  , .tick (minutes 11)
  , .claim 2 "correlation" 50 (minutes 11) []
  , .complete ⟨1, "correlation", 20, 1⟩ true none (minutes 11) ]

/-- The first claim's completion settles the delivery the second claim holds. -/
theorem superseded_completion_settles : ¬ system.Invariant SettledByHolder := by
  intro h
  have hrun : (execAll exec oneConsumer supersededCompletion).map World.settled =
      some [⟨⟨1, "correlation", 20, 1⟩, 2⟩] := by decide
  obtain ⟨w, hw, hsettled⟩ := map_eq_some_iff.1 hrun
  have hreach : system.Reachable w :=
    ⟨oneConsumer, supersededCompletion, oneConsumer_initial, run_of_execAll _ _ hw⟩
  have := h w hreach ⟨⟨1, "correlation", 20, 1⟩, 2⟩ (by rw [hsettled]; decide)
  exact absurd this (by decide)

/-- The store the superseded completion leaves. -/
def afterSupersededCompletion : World :=
  (execAll exec oneConsumer supersededCompletion).get (by decide)

theorem settled_by_holder_along_iff_superseded :
    system.Along SettledByHolder oneConsumer supersededCompletion ↔
      (system.restrict (fun w a => ¬ SettlesLaterClaim w a)).Run
        oneConsumer supersededCompletion afterSupersededCompletion :=
  settled_by_holder_along_iff oneConsumer_initial
    (run_of_execAll _ _ (some_get _).symm)

end Clawforge.EventDelivery

import Clawforge.Theorems.Observation
import Clawforge.Theorems.Publication

/-!
# Recording a sensor event once

A statement of a call leaves the store alone, adds a row for a free key, or
publishes the event of a row that is there (`StoreStep`); and a call that goes on
or returns an id does so for the row its envelope describes (`Progressed`,
`Answered`). So in every reachable state an id was only ever returned for the one
row of its sensor and key, with its one canonical event (`ingested_invariant`).
-/

namespace Clawforge.SecurityEventStore

open Kit EventDelivery Pseudonym SecurityEvents List Option

/-! ## Rows of a key -/

/-- What the unique constraint of the table is about. -/
def EventRow.slot (r : EventRow) : Uuid × String := (r.sensorId, r.dedupeKey)

variable {r : EventRow} {sensorId : Uuid} {b : Backend} {s s' : Store} {env : Env} {c : Call}
  {w w' : World} {a : Action} {k : Nat} {e : SensorEnvelope}

theorem findRow_some {T : Table EventRow.id} {dedupeKey : String}
    (h : findRow T sensorId dedupeKey = some r) : r ∈ T ∧ r.slot = (sensorId, dedupeKey) := by
  have hkey := find?_some h
  simp only [decide_eq_true_eq] at hkey
  exact ⟨mem_of_find?_eq_some h, Prod.ext hkey.1 hkey.2⟩

theorem findRow_none {T : Table EventRow.id} {dedupeKey : String}
    (h : findRow T sensorId dedupeKey = none) : ∀ r ∈ T, r.slot ≠ (sensorId, dedupeKey) := by
  intro r hr heq
  have hno := find?_eq_none.1 h r hr
  simp only [decide_eq_true_eq] at hno
  exact hno ⟨congrArg Prod.fst heq, congrArg Prod.snd heq⟩

/-- The row an envelope describes. -/
structure RowOf (r : EventRow) (sensorId : Uuid) (e : SensorEnvelope) (o : Observation) :
    Prop where
  slot : r.slot = (sensorId, e.dedupeKey)
  unchanged : Unchanged r e o

theorem rowOf_newRow (hts : ∀ t, b.timestamptz t = timestampMicros t) (id sensorId : Uuid)
    (e : SensorEnvelope) (o : Observation) : RowOf (newRow b id sensorId e o) sensorId e o :=
  ⟨rfl, rfl, rfl, hts _, rfl, rfl⟩

/-! ## One step -/

/-- The call in flight an action is about. -/
def Action.ofCall : Action → Option Nat
  | .openRow k _ _ _ | .check k _ | .publish k _ _ _ _ _ | .crash k => some k
  | .bus _ | .publishOther _ _ _ _ _ | .call _ _ _ => none

/-- A statement of the call `c`, with what it answers and the store it leaves. -/
inductive Statement (b : Backend) (s : Store) (c : Call) : Action → Progress → Store → Prop
  | openRow {k : Nat} {s' : Store} {now id outcome p} : c.stage = .started →
      openRow b s now id c.sensorId c.envelope c.observation outcome = some (p, s') →
      Statement b s c (.openRow k now id outcome) p s'
  | check {k : Nat} {answer id} : c.stage = .checking id →
      Statement b s c (.check k answer) (checkEvent s id answer) s
  | publish {k : Nat} {s' : Store} {now eventId newId row outcome id result} : c.stage = .publishing id →
      publishRow b.toEnv s now eventId newId id
        (securityEvent b id c.sensorId c.envelope c.observation
          (reputation c.envelope.resource row)) outcome = some (result, s') →
      Statement b s c (.publish k now eventId newId row outcome) (.done result) s'

/-- All one step does. -/
inductive Step (b : Backend) (w : World) : Action → World → Prop
  | bus {a : EventDelivery.Action} {bus} : ¬ isPublish a = true → EventDelivery.exec w.bus a = some bus →
      Step b w (.bus a) { w with bus }
  | other {e : NewEvent} {r : Uuid × EventDelivery.World} {src now eventId newId} :
      e.dedupeKey = src.dedupeKey ∧ src.isSecurityEvent = false →
      publishOn w.bus now eventId newId e = some r →
      Step b w (.publishOther src now eventId newId e) { w with bus := r.2 }
  | refused {k : Nat} {sensorId : Uuid} {e : SensorEnvelope} {error} : w.calls k = none → observe b.toEnv e = .error error →
      Step b w (.call k sensorId e)
        { w with answers := ⟨sensorId, e, .error error⟩ :: w.answers }
  | started {k : Nat} {sensorId : Uuid} {e : SensorEnvelope} {o} : w.calls k = none → observe b.toEnv e = .ok o →
      Step b w (.call k sensorId e) (setCall w k (some ⟨sensorId, e, o, .started⟩))
  | statement {a : Action} {k : Nat} {c : Call} {s : Store} {p} : a.ofCall = some k → w.calls k = some c →
      Statement b w.toStore c a p s → Step b w a (settle { w with toStore := s } k c p)
  | crash {k : Nat} : Step b w (.crash k) (setCall w k none)

theorem exec_step (h : exec b w a = some w') : Step b w a w' := by
  cases a with
  | bus a =>
    simp only [exec] at h
    split at h
    · cases h
    · obtain ⟨bus, hbus, rfl⟩ := map_eq_some_iff.1 h
      exact .bus ‹_› hbus
  | publishOther src now eventId newId e =>
    simp only [exec] at h
    split at h
    · obtain ⟨r, hpub, rfl⟩ := map_eq_some_iff.1 h
      exact .other ‹_› hpub
    · cases h
  | call k sensorId e =>
    simp only [exec] at h
    split at h
    · cases h
    · split at h <;> cases h
      · exact .refused ‹_› ‹_›
      · exact .started ‹_› ‹_›
  | openRow | publish =>
    simp only [exec] at h
    split at h
    · obtain ⟨r, hrow, rfl⟩ := map_eq_some_iff.1 h
      exact .statement rfl ‹_› (by constructor <;> first | rfl | exact hrow)
    · cases h
  | check k answer =>
    simp only [exec] at h
    split at h
    · cases h
      exact .statement rfl ‹_› (.check rfl)
    · cases h
  | crash k =>
    cases h
    exact .crash

/-! ## What a step does to the store -/

/-- The canonical event of a row. -/
structure CanonicalOf (env : Env) (r : EventRow) (x : Event) : Prop where
  eventType : x.eventType = r.eventType
  source : x.source = "sensor:" ++ uuidText r.sensorId
  payload : sanitizeAnalysisValue env r.evidence none = .ok x.payload
  correlationId : ∃ v, pseudonymizeCorrelationId env r.resource = .ok v ∧
    x.correlationId = some v

inductive RowStep (s s' : Store) : Prop
  | same : s'.rows = s.rows → RowStep s s'
  | inserted (r : EventRow) : (∀ r' ∈ s.rows, r'.slot ≠ r.slot) →
      s'.rows.rows = s.rows.rows ++ [r] → RowStep s s'

inductive BusStep (env : Env) (s s' : Store) : Prop
  | same : SameRows s.bus.db s'.bus.db → BusStep env s s'
  | other (src : EventSource) (e : NewEvent) (eventId id : Uuid) :
      e.dedupeKey = src.dedupeKey → src.isSecurityEvent = false →
      Published s.bus.db eventId e id s'.bus.db → BusStep env s s'
  | published (r : EventRow) (e : NewEvent) (eventId id : Uuid) : r ∈ s.rows →
      e.dedupeKey = (EventSource.securityEvent r.id).dedupeKey →
      (∀ x : Event, x.eventType = e.eventType → x.source = e.source →
        x.payload = e.payload → x.correlationId = e.correlationId → CanonicalOf env r x) →
      Published s.bus.db eventId e id s'.bus.db → BusStep env s s'

structure StoreStep (env : Env) (s s' : Store) : Prop where
  rows : RowStep s s'
  bus : BusStep env s s'

theorem StoreStep.refl (env : Env) (s : Store) : StoreStep env s s :=
  ⟨.same rfl, .same (.refl _)⟩

theorem RowStep.mem (h : RowStep s s') (hr : r ∈ s.rows) : r ∈ s'.rows := by
  cases h with
  | same heq => exact heq ▸ hr
  | inserted new _ hrows =>
    rw [Table.mem_def, hrows]
    exact mem_append_left _ hr

theorem BusStep.kept (h : BusStep env s s') : Kept s.bus.db s'.bus.db := by
  cases h with
  | same hrows => exact hrows.kept
  | other _ _ _ _ _ _ hpub => exact hpub.kept
  | published _ _ _ _ _ _ _ hpub => exact hpub.kept

theorem BusStep.sound (hs : Sound s.bus.db) (h : BusStep env s s') : Sound s'.bus.db := by
  cases h with
  | same hrows => exact hs.sameRows hrows
  | other _ _ _ _ _ _ hpub => exact hpub.sound hs
  | published _ _ _ _ _ _ _ hpub => exact hpub.sound hs

theorem EventExists.kept (h : StoreStep env s s') {id : Uuid} (hx : EventExists s id) :
    EventExists s' id := by
  obtain ⟨x, hx, hkey⟩ := hx
  exact ⟨x, h.bus.kept.events x hx, hkey⟩

/-! ## Calls that go on and calls that return -/

/-- The row of a call is stored, with the id it goes on with. -/
def Holds (s : Store) (c : Call) (id : Uuid) : Prop :=
  ∃ r ∈ s.rows, r.id = id ∧ RowOf r c.sensorId c.envelope c.observation

/-- A call may stand at `stage`. -/
def AtStage (s : Store) (c : Call) : Stage → Prop
  | .started => True
  | .checking id | .publishing id => Holds s c id

/-- A call in flight is where it may stand. -/
structure InFlight (env : Env) (s : Store) (c : Call) : Prop where
  observed : observe env c.envelope = .ok c.observation
  atStage : AtStage s c c.stage

/-- A returned id is that of the row of the envelope, and its event exists. -/
def Answered (env : Env) (s : Store) (a : Answer) : Prop :=
  ∀ id, a.result = .ok id →
    EventExists s id ∧ ∃ o, observe env a.envelope = .ok o ∧
      ∃ r ∈ s.rows, r.id = id ∧ RowOf r a.sensorId a.envelope o

/-- A statement of the call `c` may lead to `p`. -/
def Progressed (s : Store) (c : Call) : Progress → Prop
  | .next stage => AtStage s c stage
  | .done (.ok id) => EventExists s id ∧ Holds s c id
  | .done (.error _) => True

theorem Holds.kept {id : Uuid} (h : RowStep s s') (hold : Holds s c id) : Holds s' c id := by
  obtain ⟨r, hr, hid, hof⟩ := hold
  exact ⟨r, h.mem hr, hid, hof⟩

theorem InFlight.kept (h : StoreStep env s s') (hc : InFlight env s c) : InFlight env s' c := by
  refine ⟨hc.observed, ?_⟩
  have hstage := hc.atStage
  cases hs : c.stage with
  | started => trivial
  | checking | publishing =>
    rw [hs] at hstage
    exact Holds.kept h.rows hstage

theorem Answered.kept {a : Answer} (h : StoreStep env s s') (ha : Answered env s a) :
    Answered env s' a := by
  intro id hid
  obtain ⟨hx, o, ho, r, hr, hrow⟩ := ha id hid
  exact ⟨hx.kept h, o, ho, r, h.rows.mem hr, hrow⟩

/-- What a step may do to the calls and the answers, `s` being the store after it. -/
structure CallsStep (env : Env) (w w' : World) : Prop where
  calls : ∀ k c, w'.calls k = some c → w.calls k = some c ∨ InFlight env w'.toStore c
  answers : ∀ a ∈ w'.answers, a ∈ w.answers ∨ Answered env w'.toStore a

theorem CallsStep.same (hcalls : w'.calls = w.calls) (hanswers : w'.answers = w.answers) :
    CallsStep env w w' :=
  ⟨fun _ _ h => .inl (hcalls ▸ h), fun _ h => .inl (hanswers ▸ h)⟩

theorem callsStep_setCall {c : Option Call} (hc : ∀ c', c = some c' → InFlight env w.toStore c') :
    CallsStep env w (setCall w k c) := by
  refine ⟨fun k' c' h => ?_, fun _ h => .inl h⟩
  by_cases hk : k' = k
  · subst hk
    simp only [setCall, Function.update_self] at h
    exact .inr (hc c' h)
  · simp only [setCall, Function.update_of_ne hk] at h
    exact .inl h

/-- A call settles in the world with the store `s`. -/
theorem callsStep_settle {p : Progress} (hobs : observe env c.envelope = .ok c.observation)
    (hp : Progressed s c p) : CallsStep env w (settle { w with toStore := s } k c p) := by
  cases p with
  | next stage =>
    have hset : CallsStep env { w with toStore := s }
        (setCall { w with toStore := s } k (some { c with stage })) := by
      refine callsStep_setCall ?_
      rintro c' ⟨⟩
      exact ⟨hobs, by cases stage <;> exact hp⟩
    exact ⟨hset.calls, hset.answers⟩
  | done result =>
    have hset : CallsStep env { w with toStore := s }
        (setCall { w with toStore := s } k none) :=
      callsStep_setCall (by rintro c' ⟨⟩)
    refine ⟨hset.calls, fun a ha => ?_⟩
    rcases mem_cons.1 ha with rfl | ha
    · refine .inr (fun id hid => ?_)
      cases hid
      exact ⟨hp.1, c.observation, hobs, hp.2⟩
    · exact .inl ha

@[simp] theorem settle_toStore (w : World) (k : Nat) (c : Call) (p : Progress) :
    (settle w k c p).toStore = w.toStore := by
  cases p <;> rfl

/-! ## The statements -/

/-- The first transaction leaves the store, or adds the row of its envelope. -/
theorem openRow_spec (hts : ∀ t, b.timestamptz t = timestampMicros t) {now : Instant} {id : Uuid}
    {o : Observation} {outcome : Outcome} {p : Progress}
    (h : openRow b s now id sensorId e o outcome = some (p, s')) :
    StoreStep b.toEnv s s' ∧ Progressed s' ⟨sensorId, e, o, .started⟩ p := by
  unfold openRow at h
  cases hfind : findRow s.rows sensorId e.dedupeKey with
  | some r =>
    rw [hfind] at h
    cases h
    refine ⟨.refl _ _, ?_⟩
    cases outcome with
    | committed =>
      simp only [foundRow]
      split
      · obtain ⟨hr, hslot⟩ := findRow_some hfind
        exact ⟨r, hr, rfl, hslot, ‹_›⟩
      · trivial
    | unacknowledged | failed => trivial
  | none =>
    rw [hfind] at h
    simp only at h
    split at h
    · split at h
      · obtain ⟨rows, hins, heq⟩ := map_eq_some_iff.1 h
        cases heq
        have hrows := Table.rows_insert? hins
        refine ⟨⟨.inserted _ (findRow_none hfind) hrows, .same (.refl _)⟩, ?_⟩
        cases outcome with
        | committed =>
          refine ⟨_, ?_, rfl, rowOf_newRow hts id sensorId e o⟩
          rw [Table.mem_def, hrows]
          exact mem_concat_self
        | unacknowledged | failed => trivial
      · cases h
    · rename_i heff
      cases h
      refine ⟨.refl _ _, ?_⟩
      cases outcome with
      | failed => trivial
      | committed | unacknowledged => exact absurd rfl heff

theorem checkEvent_spec {id : Uuid} {answer : Except String Unit} (hold : Holds s c id) :
    Progressed s c (checkEvent s id answer) := by
  cases answer with
  | error => trivial
  | ok =>
    simp only [checkEvent]
    split
    · exact ⟨‹_›, hold⟩
    · exact hold

/-- What the sanitizer makes of the fields an event shares with its row. -/
theorem canonicalOf_sanitized {o : Observation} {hit : Option IpReputationHit} {event : NewEvent}
    (hof : RowOf r sensorId e o)
    (h : sanitizedEvent b.toEnv (securityEvent b r.id sensorId e o hit) = .ok event) {x : Event}
    (htype : x.eventType = event.eventType) (hsource : x.source = event.source)
    (hpayload : x.payload = event.payload) (hcorrelation : x.correlationId = event.correlationId) :
    CanonicalOf b.toEnv r x := by
  obtain ⟨hslot, htype', _, _, hresource, hevidence⟩ := hof
  obtain ⟨payload, hp, h⟩ := bind_ok h
  obtain ⟨metadata, _, h⟩ := bind_ok h
  obtain ⟨correlationId, hc, h⟩ := bind_ok h
  obtain ⟨v, hv, hvc⟩ := bind_ok hc
  cases h
  cases hvc
  exact
    { eventType := htype.trans htype'.symm
      source := by
        rw [hsource, show r.sensorId = sensorId from congrArg Prod.fst hslot]
        rfl
      payload := by
        rw [hpayload, hevidence]
        exact hp
      correlationId := ⟨v, by rw [hresource]; exact hv, hcorrelation⟩ }

/-- The last statement publishes the event of the row, or leaves the store. -/
theorem publishRow_spec {now : Instant} {eventId id : Uuid} {newId : Uuid → Uuid}
    {hit : Option IpReputationHit} {outcome : Outcome} {result : Except String Uuid}
    (hsound : Sound s.bus.db) (hold : Holds s c id)
    (h : publishRow b.toEnv s now eventId newId id
      (securityEvent b id c.sensorId c.envelope c.observation hit) outcome =
      some (result, s')) : StoreStep b.toEnv s s' ∧ Progressed s' c (.done result) := by
  unfold publishRow at h
  split at h
  · cases h
    exact ⟨.refl _ _, trivial⟩
  · rename_i event hsan
    split at h
    · obtain ⟨⟨eid, bus⟩, hpub, heq⟩ := map_eq_some_iff.1 h
      cases heq
      have hspec := publishOn_spec hsound hpub
      have hkey := (sanitizedEvent_ok hsan).1
      obtain ⟨r, hr, rfl, hof⟩ := hold
      refine ⟨⟨.same rfl, .published r event eventId eid hr hkey ?_ hspec⟩, ?_⟩
      · intro x htype hsource hpayload hcorrelation
        exact canonicalOf_sanitized hof hsan htype hsource hpayload hcorrelation
      · cases outcome with
        | committed =>
          obtain ⟨x, hx, hxkey, _⟩ := hspec.exists_event
          exact ⟨⟨x, hx, hxkey.trans hkey⟩, r, hr, rfl, hof⟩
        | unacknowledged | failed => trivial
    · rename_i heff
      cases h
      refine ⟨.refl _ _, ?_⟩
      cases outcome with
      | failed => trivial
      | committed | unacknowledged => exact absurd rfl heff

/-! ## Reachable states -/

structure Consistent (env : Env) (w : World) : Prop where
  sound : Sound w.bus.db
  slots : (w.rows.rows.map EventRow.slot).Nodup
  calls : ∀ k c, w.calls k = some c → InFlight env w.toStore c
  answers : ∀ a ∈ w.answers, Answered env w.toStore a
  canonical : ∀ x ∈ w.bus.db.events, ∀ id,
    x.dedupeKey = (EventSource.securityEvent id).dedupeKey →
    ∃ r ∈ w.rows, r.id = id ∧ CanonicalOf env r x

theorem exec_spec (hts : ∀ t, b.timestamptz t = timestampMicros t) (hw : Consistent b.toEnv w)
    (h : exec b w a = some w') :
    StoreStep b.toEnv w.toStore w'.toStore ∧ CallsStep b.toEnv w w' := by
  cases exec_step h with
  | bus hnot hbus =>
    refine ⟨⟨.same rfl, .same (exec_sameRows hbus ?_)⟩, .same rfl rfl⟩
    rintro now eventId newId e rfl
    exact hnot rfl
  | @other e r src now eventId newId hkey hpub =>
    exact ⟨⟨.same rfl, .other src e eventId r.1 hkey.1 hkey.2
      (publishOn_spec hw.sound hpub)⟩, .same rfl rfl⟩
  | refused =>
    refine ⟨.refl _ _, fun _ _ h => .inl h, fun a ha => ?_⟩
    rcases mem_cons.1 ha with rfl | ha
    · exact .inr (by rintro id ⟨⟩)
    · exact .inl ha
  | started _ ho =>
    refine ⟨.refl _ _, callsStep_setCall ?_⟩
    rintro c' ⟨⟩
    exact ⟨ho, trivial⟩
  | statement _ hcall hstatement =>
    have hflight := hw.calls _ _ hcall
    have hstage := hflight.atStage
    rw [settle_toStore]
    cases hstatement with
    | openRow _ hopen =>
      obtain ⟨hstore, hprogress⟩ := openRow_spec hts hopen
      exact ⟨hstore, callsStep_settle hflight.observed hprogress⟩
    | check hs =>
      rw [hs] at hstage
      exact ⟨.refl _ _, callsStep_settle hflight.observed (checkEvent_spec hstage)⟩
    | publish hs hpub =>
      rw [hs] at hstage
      obtain ⟨hstore, hprogress⟩ := publishRow_spec hw.sound hstage hpub
      exact ⟨hstore, callsStep_settle hflight.observed hprogress⟩
  | crash =>
    refine ⟨.refl _ _, callsStep_setCall ?_⟩
    rintro c' ⟨⟩

theorem slots_step (hs : (s.rows.rows.map EventRow.slot).Nodup) (h : RowStep s s') :
    (s'.rows.rows.map EventRow.slot).Nodup := by
  cases h with
  | same heq => exact heq ▸ hs
  | inserted r hfree hrows =>
    rw [hrows, map_append, nodup_append]
    refine ⟨hs, nodup_singleton _, ?_⟩
    intro slot hslot slot' hslot' heq
    obtain ⟨r', hr', rfl⟩ := List.mem_map.1 hslot
    exact hfree r' hr' (heq.trans (mem_singleton.1 hslot'))

theorem canonical_step (hw : Consistent env w) (h : StoreStep env w.toStore w'.toStore) :
    ∀ x ∈ w'.bus.db.events, ∀ id,
      x.dedupeKey = (EventSource.securityEvent id).dedupeKey →
      ∃ r ∈ w'.rows, r.id = id ∧ CanonicalOf env r x := by
  have old : ∀ x ∈ w.bus.db.events, ∀ id,
      x.dedupeKey = (EventSource.securityEvent id).dedupeKey →
      ∃ r ∈ w'.rows, r.id = id ∧ CanonicalOf env r x := by
    intro x hx id hkey
    obtain ⟨r, hr, hrow⟩ := hw.canonical x hx id hkey
    exact ⟨r, h.rows.mem hr, hrow⟩
  intro x hx id hkey
  cases h.bus with
  | same hrows => exact old x (hrows.events ▸ hx) id hkey
  | other src e eventId eid hsrc hother hpub =>
    cases hpub with
    | known _ _ _ _ hdb => exact old x (hdb ▸ hx) id hkey
    | inserted y _ _ _ _ _ _ _ hykey _ hevents _ =>
      rcases (mem_events_of_rows hevents).1 hx with hx | rfl
      · exact old x hx id hkey
      · have hsame := securityEvent_of_key_eq (hsrc.symm.trans (hykey.symm.trans hkey))
        rw [hsame] at hother
        cases hother
  | published r e eventId eid hr hekey hcanonical hpub =>
    cases hpub with
    | known _ _ _ _ hdb => exact old x (hdb ▸ hx) id hkey
    | inserted y _ _ htype hsource hpayload _ hcorrelation hykey _ hevents _ =>
      rcases (mem_events_of_rows hevents).1 hx with hx | rfl
      · exact old x hx id hkey
      · have hid := securityEvent_of_key_eq (hekey.symm.trans (hykey.symm.trans hkey))
        exact ⟨r, h.rows.mem hr, EventSource.securityEvent.inj hid,
          hcanonical x htype hsource hpayload hcorrelation⟩

theorem consistent_invariant (hts : ∀ t, b.timestamptz t = timestampMicros t) :
    (system b).Invariant (Consistent b.toEnv) := by
  have hind : (system b).Inductive (Consistent b.toEnv) :=
    { init := by
        rintro w ⟨hevents, hdeliveries, hrows, hcalls, hanswers⟩
        refine ⟨⟨?_, ?_, ?_⟩, ?_, ?_, ?_, ?_⟩
        · rw [hevents]
          exact nodup_nil
        · rw [hdeliveries]
          exact nodup_nil
        · intro d hd
          rw [Table.mem_def, hdeliveries] at hd
          cases hd
        · rw [hrows]
          exact nodup_nil
        · intro k c hc
          rw [hcalls k] at hc
          cases hc
        · intro a ha
          rw [hanswers] at ha
          cases ha
        · intro x hx
          rw [Table.mem_def, hevents] at hx
          cases hx
      step := by
        intro w a w' hw hstep
        obtain ⟨hstore, hcalls⟩ := exec_spec hts hw hstep
        refine ⟨hstore.bus.sound hw.sound, slots_step hw.slots hstore.rows, ?_, ?_,
          canonical_step hw hstore⟩
        · intro k c hc
          rcases hcalls.calls k c hc with hold | hnew
          · exact (hw.calls k c hold).kept hstore
          · exact hnew
        · intro a ha
          rcases hcalls.answers a ha with hold | hnew
          · exact (hw.answers a hold).kept hstore
          · exact hnew }
  exact hind.invariant

/-! ## What an answer stands for -/

/-- Every returned id is that of the one row of its sensor and key, whose content
is that of the envelope, and has its one canonical event, made from the row. -/
structure Ingested (env : Env) (w : World) : Prop where
  row : ∀ a ∈ w.answers, ∀ id, a.result = .ok id →
    ∃! r, r ∈ w.rows ∧ r.sensorId = a.sensorId ∧ r.dedupeKey = a.envelope.dedupeKey
  content : ∀ a ∈ w.answers, ∀ id, a.result = .ok id →
    ∀ r ∈ w.rows, r.sensorId = a.sensorId → r.dedupeKey = a.envelope.dedupeKey →
      r.id = id ∧ ∃ o, observe env a.envelope = .ok o ∧ Unchanged r a.envelope o
  event : ∀ a ∈ w.answers, ∀ id, a.result = .ok id →
    ∃! x, x ∈ w.bus.db.events ∧ x.dedupeKey = (EventSource.securityEvent id).dedupeKey
  canonical : ∀ x ∈ w.bus.db.events, ∀ id,
    x.dedupeKey = (EventSource.securityEvent id).dedupeKey →
    ∃ r ∈ w.rows, r.id = id ∧ CanonicalOf env r x
  sameId : ∀ a ∈ w.answers, ∀ a' ∈ w.answers, ∀ id id', a.result = .ok id →
    a'.result = .ok id' → a.sensorId = a'.sensorId →
    a.envelope.dedupeKey = a'.envelope.dedupeKey → id = id'

theorem Consistent.row_unique (hw : Consistent env w) {r' : EventRow} (hr : r ∈ w.rows)
    (hr' : r' ∈ w.rows) (h : r.slot = r'.slot) : r = r' :=
  inj_on_of_nodup_map hw.slots hr hr' h

theorem Consistent.ingested (hw : Consistent env w) :
    Ingested env w where
  row a ha id hid := by
    obtain ⟨_, o, _, r, hr, _, hof⟩ := hw.answers a ha id hid
    refine ⟨r, ⟨hr, congrArg Prod.fst hof.slot, congrArg Prod.snd hof.slot⟩, ?_⟩
    rintro r' ⟨hr', hsensor, hkey⟩
    exact hw.row_unique hr' hr ((Prod.ext hsensor hkey).trans hof.slot.symm)
  content a ha id hid r hr hsensor hkey := by
    obtain ⟨_, o, ho, r', hr', hid', hof⟩ := hw.answers a ha id hid
    have hsame := hw.row_unique hr hr' ((Prod.ext hsensor hkey).trans hof.slot.symm)
    subst hsame
    exact ⟨hid', o, ho, hof.unchanged⟩
  event a ha id hid := by
    obtain ⟨⟨x, hx, hkey⟩, _⟩ := hw.answers a ha id hid
    refine ⟨x, ⟨hx, hkey⟩, ?_⟩
    rintro y ⟨hy, hykey⟩
    exact hw.sound.event_unique hy hx (hykey.trans hkey.symm)
  canonical := hw.canonical
  sameId a ha a' ha' id id' hid hid' hsensor hkey := by
    obtain ⟨_, o, _, r, hr, hrid, hof⟩ := hw.answers a ha id hid
    obtain ⟨_, o', _, r', hr', hrid', hof'⟩ := hw.answers a' ha' id' hid'
    have hslot : r.slot = r'.slot :=
      hof.slot.trans ((Prod.ext hsensor hkey).trans hof'.slot.symm)
    rw [← hrid, ← hrid', hw.row_unique hr hr' hslot]

/-- A new event has a delivery for each consumer enabled before the step. -/
theorem BusStep.delivered (h : BusStep env s s') {x : Event} (hx : x ∈ s'.bus.db.events)
    (hnew : x ∉ s.bus.db.events) {c : EventConsumer} (hc : c ∈ s.bus.db.consumers)
    (hen : c.enabled = true) : (x.eventId, c.id) ∈ s'.bus.db.deliveries.rows.map Delivery.pair := by
  cases h with
  | same hrows => exact absurd (hrows.events ▸ hx) hnew
  | other _ _ _ _ _ _ hpub | published _ _ _ _ _ _ _ hpub => exact hpub.delivered hx hnew hc hen

theorem run_kept (hts : ∀ t, b.timestamptz t = timestampMicros t) {as : List Action}
    (hw : (system b).Reachable w) (hrun : (system b).Run w as w') : Kept w.bus.db w'.bus.db := by
  refine hrun.relates (I := (system b).Reachable) (R := fun s t => Kept s.bus.db t.bus.db)
    (fun s => .refl _) (fun _ _ _ => .trans) (fun s a t hs h => hs.step h) ?_ hw
  intro s a t hs h
  exact (exec_spec hts (consistent_invariant hts s hs) h).1.bus.kept

/-! ## Changed resubmissions -/

/-- A call whose content differs from the row of its key fails at its next
statement, which changes nothing in the store. -/
theorem changed_refused (hw : Consistent b.toEnv w) (h : exec b w a = some w')
    (ha : a.ofCall = some k) (hlive : a ≠ .crash k) (hc : w.calls k = some c) (hr : r ∈ w.rows)
    (hslot : r.slot = (c.sensorId, c.envelope.dedupeKey))
    (hchanged : ¬ Unchanged r c.envelope c.observation) :
    w'.toStore = w.toStore ∧ w'.calls k = none ∧
      ∃ error, w'.answers = ⟨c.sensorId, c.envelope, .error error⟩ :: w.answers := by
  have nowhere : ∀ id, ¬ Holds w.toStore c id := by
    rintro id ⟨r', hr', _, hof⟩
    have hsame := hw.row_unique hr hr' (hslot.trans hof.slot.symm)
    exact hchanged (hsame ▸ hof.unchanged)
  have hstage := (hw.calls k c hc).atStage
  cases exec_step h with
  | bus | other | refused | started => cases ha
  | crash =>
    cases ha
    exact absurd rfl hlive
  | statement ha' hcall hstatement =>
    cases ha.symm.trans ha'
    cases hc.symm.trans hcall
    cases hstatement with
    | check hs | publish hs =>
      rw [hs] at hstage
      exact absurd hstage (nowhere _)
    | openRow hs hopen =>
      unfold openRow at hopen
      cases hfind : findRow w.rows c.sensorId c.envelope.dedupeKey with
      | none => exact absurd hslot (findRow_none hfind r hr)
      | some r' =>
        obtain ⟨hr', hslot'⟩ := findRow_some hfind
        have hsame := hw.row_unique hr hr' (hslot.trans hslot'.symm)
        subst hsame
        rw [hfind] at hopen
        cases hopen
        rename_i outcome
        cases outcome with
        | committed =>
          refine ⟨?_, ?_, changedText c.envelope.dedupeKey, ?_⟩ <;>
            simp [foundRow, if_neg hchanged, settle, setCall]
        | unacknowledged error | failed error =>
          refine ⟨rfl, ?_, error, rfl⟩
          simp [foundRow, settle, setCall]

/-! ## Identical retries -/

/-- An action that is a statement of a call succeeds. -/
def Action.succeeds : Action → Bool
  | .openRow _ _ _ .committed | .publish _ _ _ _ _ .committed | .check _ (.ok ()) => true
  | _ => false

/-- How many statements a call that found its row has behind it. -/
def Stage.rank : Stage → Nat
  | .started => 0
  | .checking _ => 1
  | .publishing _ => 2

/-- A call in flight keeps its place while others act. -/
theorem calls_of_ne (h : exec b w a = some w') (ha : a.ofCall ≠ some k) (hc : w.calls k = some c) :
    w'.calls k = some c := by
  cases exec_step h with
  | bus | other | refused => exact hc
  | @started k' sensorId e o hfree =>
    have hk : k ≠ k' := by
      rintro rfl
      rw [hc] at hfree
      cases hfree
    simp only [setCall, Function.update_of_ne hk, hc]
  | @statement a k' c' s p ha' =>
    have hk : k ≠ k' := fun heq => ha (heq ▸ ha')
    cases p <;> simp only [settle, setCall, Function.update_of_ne hk, hc]
  | @crash k' =>
    have hk : k ≠ k' := fun heq => ha (heq ▸ rfl)
    simp only [setCall, Function.update_of_ne hk, hc]

theorem answers_kept {x : Answer} (h : exec b w a = some w') (hx : x ∈ w.answers) :
    x ∈ w'.answers := by
  cases exec_step h with
  | bus | other | started | crash => exact hx
  | refused => exact mem_cons_of_mem _ hx
  | @statement a k c s p =>
    cases p with
    | next => exact hx
    | done => exact mem_cons_of_mem _ hx

/-- A statement that succeeds takes an identical retry one stage further, or it
returns the id of the row. -/
theorem retry_step (hw : Consistent b.toEnv w) (h : exec b w a = some w') (ha : a.ofCall = some k)
    (hok : a.succeeds = true) (hc : w.calls k = some c) (hr : r ∈ w.rows)
    (hof : RowOf r c.sensorId c.envelope c.observation)
    (hvalid : c.envelope.evidence.validate = .ok ()) :
    ⟨c.sensorId, c.envelope, .ok r.id⟩ ∈ w'.answers ∨
      ∃ stage, w'.calls k = some { c with stage } ∧ stage.rank = c.stage.rank + 1 := by
  have hflight := hw.calls k c hc
  have hstage := hflight.atStage
  have only : ∀ {id}, Holds w.toStore c id → id = r.id := by
    rintro id ⟨r', hr', rfl, hof'⟩
    rw [hw.row_unique hr' hr (hof'.slot.trans hof.slot.symm)]
  cases exec_step h with
  | bus | other | refused | started => cases ha
  | crash => cases hok
  | statement ha' hcall hstatement =>
    cases ha.symm.trans ha'
    cases hc.symm.trans hcall
    cases hstatement with
    | @openRow _ s now id outcome p hs hopen =>
      cases outcome with
      | unacknowledged | failed => cases hok
      | committed =>
        unfold openRow at hopen
        cases hfind : findRow w.rows c.sensorId c.envelope.dedupeKey with
        | none => exact absurd hof.slot (findRow_none hfind r hr)
        | some r' =>
          obtain ⟨hr', hslot'⟩ := findRow_some hfind
          have hsame := hw.row_unique hr' hr (hslot'.trans hof.slot.symm)
          subst hsame
          rw [hfind] at hopen
          cases hopen
          refine .inr ⟨.checking r'.id, ?_, by rw [hs]; rfl⟩
          simp only [foundRow, if_pos hof.unchanged, settle, setCall,
            Function.update_self]
    | @check _ answer id hs =>
      rw [hs] at hstage
      have hid := only hstage
      subst hid
      cases answer with
      | error => cases hok
      | ok =>
        simp only [checkEvent]
        split
        · exact .inl mem_cons_self
        · refine .inr ⟨.publishing r.id, ?_, by rw [hs]; rfl⟩
          simp only [settle, setCall, Function.update_self]
    | @publish _ s now eventId newId row outcome id result hs hpub =>
      rw [hs] at hstage
      have hid := only hstage
      subst hid
      cases outcome with
      | unacknowledged | failed => cases hok
      | committed =>
        obtain ⟨event, hsan⟩ := sanitizedEvent_isOk hvalid hflight.observed r.id c.sensorId
          (reputation c.envelope.resource row)
        rw [publishRow, hsan] at hpub
        obtain ⟨⟨eid, bus⟩, _, heq⟩ := map_eq_some_iff.1 hpub
        cases heq
        exact .inl mem_cons_self

/-- Along a run in which the statements of an identical retry succeed, it has made
that many, or it has returned the id of the row. -/
theorem retry_run (hts : ∀ t, b.timestamptz t = timestampMicros t) {as : List Action}
    (hrun : (system b).Run w as w') (hw : (system b).Reachable w)
    (hok : ∀ a ∈ as, a.ofCall = some k → a.succeeds = true) (hc : w.calls k = some c)
    (hr : r ∈ w.rows) (hof : RowOf r c.sensorId c.envelope c.observation)
    (hvalid : c.envelope.evidence.validate = .ok ()) :
    ⟨c.sensorId, c.envelope, .ok r.id⟩ ∈ w'.answers ∨
      ∃ stage, w'.calls k = some { c with stage } ∧
        stage.rank = c.stage.rank + as.countP (fun a => a.ofCall = some k) := by
  induction hrun generalizing c with
  | nil w => exact .inr ⟨c.stage, hc, rfl⟩
  | @cons w a v as w' hstep hrest ih =>
    have hconsistent := consistent_invariant hts w hw
    have hrv := (exec_spec hts hconsistent hstep).1.rows.mem hr
    have hokv := fun a' ha' => hok a' (mem_cons_of_mem _ ha')
    have kept : ∀ {x : Answer}, x ∈ v.answers → x ∈ w'.answers := by
      intro x hx
      refine hrest.preserves (I := fun u => x ∈ u.answers) ?_ hx
      intro u a' u' hu hstep'
      exact answers_kept hstep' hu
    by_cases ha : a.ofCall = some k
    · rcases retry_step hconsistent hstep ha (hok a mem_cons_self ha) hc hr hof
        hvalid with hdone | ⟨stage, hcv, hrank⟩
      · exact .inl (kept hdone)
      · rcases ih (hw.step hstep) hokv hcv hrv hof hvalid with hdone | ⟨stage', hc', hrank'⟩
        · exact .inl hdone
        · refine .inr ⟨stage', hc', ?_⟩
          rw [hrank', countP_cons_of_pos (by simpa using ha)]
          show stage.rank + _ = _
          omega
    · have hcv := calls_of_ne hstep ha hc
      rcases ih (hw.step hstep) hokv hcv hrv hof hvalid with hdone | ⟨stage', hc', hrank'⟩
      · exact .inl hdone
      · refine .inr ⟨stage', hc', ?_⟩
        rw [hrank', countP_cons_of_neg (by simpa using ha)]

/-! ## The result -/

/-- Ingestion is idempotent and repairable. -/
structure IdempotentIngestion (b : Backend) : Prop where
  /-- every id ever returned is that of one row with one canonical event -/
  ingested : (system b).Invariant (Ingested b.toEnv)
  /-- a consumer enabled when an event was inserted has one delivery of it from
  then on -/
  delivered : ∀ w a w' as w'', (system b).Reachable w → (system b).step w a w' →
    (system b).Run w' as w'' → ∀ x ∈ w'.bus.db.events, x ∉ w.bus.db.events →
    ∀ c ∈ w.bus.db.consumers, c.enabled = true →
      ∃! d, d ∈ w''.bus.db.deliveries ∧ d.eventId = x.eventId ∧ d.consumerId = c.id
  /-- a valid retry of what the row of its key holds returns that row's id, after
  three statements that succeed and whatever others do meanwhile -/
  retried : ∀ w as w' k c r, (system b).Reachable w → (system b).Run w as w' →
    w.calls k = some c → r ∈ w.rows → r.sensorId = c.sensorId →
    r.dedupeKey = c.envelope.dedupeKey → Unchanged r c.envelope c.observation →
    c.envelope.validate = .ok () →
    (∀ a ∈ as, a.ofCall = some k → a.succeeds = true) →
    3 ≤ as.countP (fun a => a.ofCall = some k) →
    ⟨c.sensorId, c.envelope, .ok r.id⟩ ∈ w'.answers
  /-- a call whose content differs from the row of its key fails at its first
  statement and changes nothing -/
  refused : ∀ w a w' k c r, (system b).Reachable w → (system b).step w a w' →
    a.ofCall = some k → a ≠ .crash k → w.calls k = some c → r ∈ w.rows →
    r.sensorId = c.sensorId → r.dedupeKey = c.envelope.dedupeKey →
    ¬ Unchanged r c.envelope c.observation →
    w'.toStore = w.toStore ∧ w'.calls k = none ∧
      ∃ error, w'.answers = ⟨c.sensorId, c.envelope, .error error⟩ :: w.answers

theorem evidence_valid (h : e.validate = .ok ()) : e.evidence.validate = .ok () := by
  obtain ⟨_, _, h⟩ := bind_ok h
  obtain ⟨_, _, h⟩ := bind_ok h
  obtain ⟨_, _, h⟩ := bind_ok h
  exact h

/-- **Ingestion.** Where a `TIMESTAMPTZ` keeps the microseconds of an instant,
`record_security_event` is idempotent and repairable. -/
theorem security_event_ingestion {b : Backend}
    (hts : ∀ t, b.timestamptz t = timestampMicros t) : IdempotentIngestion b where
  ingested := fun w hw => (consistent_invariant hts w hw).ingested
  delivered := by
    intro w a w' as w'' hw hstep hrun x hx hnew c hc hen
    have hreach : (system b).Reachable w'' := (hw.step hstep).run hrun
    have hpair := (exec_spec hts (consistent_invariant hts w hw) hstep).1.bus.delivered
      hx hnew hc hen
    have hlater := (run_kept hts (hw.step hstep) hrun).pairs _ hpair
    exact (consistent_invariant hts w'' hreach).sound.delivery_unique hlater
  retried := by
    intro w as w' k c r hw hrun hc hr hsensor hkey hsame hvalid hok hcount
    have hof : RowOf r c.sensorId c.envelope c.observation :=
      ⟨Prod.ext hsensor hkey, hsame⟩
    rcases retry_run hts hrun hw hok hc hr hof (evidence_valid hvalid) with
      hdone | ⟨stage, _, hrank⟩
    · exact hdone
    · have hlt : stage.rank ≤ 2 := by cases stage <;> simp [Stage.rank]
      omega
  refused := by
    intro w a w' k c r hw hstep ha hlive hc hr hsensor hkey hchanged
    exact changed_refused (consistent_invariant hts w hw) hstep ha hlive hc hr
      (Prod.ext hsensor hkey) hchanged

/-! ## A repaired publication -/

def sampleBackend : Backend := { sampleEnv with timestamptz := timestampMicros }

theorem security_event_ingestion_sample : IdempotentIngestion sampleBackend :=
  security_event_ingestion (fun _ => rfl)

/-- Nothing recorded yet; one consumer is registered. -/
def oneConsumer : World where
  bus :=
    { db :=
        { now := 100
          events := .empty _
          consumers := ⟨[⟨1, "engine", true, none, 0⟩], nodup_singleton _⟩
          deliveries := .empty _ }
      held := []
      settled := [] }
  rows := .empty _
  lastSeen := fun _ => none
  calls := fun _ => none
  answers := []

def escapeAttempt : SensorEnvelope where
  occurredAt := 1785000000123456789
  source := "docker"
  severity := .high
  resource := "web"
  dedupeKey := "docker:1"
  evidence := .containerEscapeAttempt ⟨"c0ffee", "nginx", "mount"⟩

/-- The call that wrote the row crashes before it publishes; the retry publishes,
and returns the row's id. -/
example :
    (TSys.execAll (exec sampleBackend) oneConsumer
      [ .call 0 5 escapeAttempt, .openRow 0 10 7 .committed, .crash 0
      , .call 1 5 escapeAttempt, .openRow 1 20 8 .committed, .check 1 (.ok ())
      , .publish 1 30 9 (fun c => c) (.ok none) .committed ]).map
      (fun w => (w.answers.map (fun a => a.result.toOption), w.rows.rows.map (·.id),
        w.bus.db.events.rows.map (·.eventId), w.bus.db.deliveries.rows.map Delivery.pair)) =
      some ([some 7], [7], [9], [(9, 1)]) := by
  decide +kernel

end Clawforge.SecurityEventStore

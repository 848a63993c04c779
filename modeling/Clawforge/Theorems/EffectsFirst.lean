import Clawforge.EventConsumers.Loops
import Clawforge.Theorems.EventDelivery
import Mathlib

/-!
# Effects before acknowledgements

A delivery becomes `processed` through a report of success and in no other way, and a loop
reports on what it was handed. The correlation service reports what came of its handler; the
analyzer reports success whatever came of the analysis, so the effect comes first exactly as far
as no analysis fails.
-/

namespace Clawforge.EventConsumers

open Kit EventDelivery Correlation TSys Table List Option

variable {window : Nat} {parseUuid : String → Option Uuid} {s s' : Stores} {now : Instant}
  {ack : Option Ack} {bus : EventStore} {d' : Delivery} {limit : Int} {locked : List Uuid}
  {consumer : String} {strict : Prop} {w : World}

/-! ## The property -/

/-- A candidate of the request's key has its events. -/
def Persists (db : Correlation.Db) (r : CorrelationPersistence) : Prop :=
  ∃ c ∈ db.candidates, c.correlationKey = r.correlationKey ∧
    ∀ e ∈ r.eventIds, (c.id, e) ∈ db.candidateEvents

/-- What the correlation service's handler has to store for what it has read. -/
def Correlated (window : Nat) (s : Stores) (e : Event) (recent : List EventRecord) : Prop :=
  ∀ r ∈ correlationRequest (eventRecord e) window recent, Persists s.correlation r

/-- What the analyzer's handler has to store. -/
def Analyzed (parseUuid : String → Option Uuid) (s : Stores) (e : Event) : Prop :=
  ∀ incident ∈ analysisOf parseUuid e, ∃ x ∈ s.analyses, x.incidentId = incident

/-- The handler has succeeded and its effect is stored. -/
def Honest (window : Nat) (parseUuid : String → Option Uuid) (s : Stores) (a : Ack) : Prop :=
  a.result = .ok () ∧
    (a.consumer = "correlation" → Correlated window s a.delivery.event a.recent) ∧
    (a.consumer = "analyzer" → Analyzed parseUuid s a.delivery.event)

/-- The acknowledgement is of the row: of its id and its event, by its consumer. -/
def Ack.IsOf (s : Stores) (a : Ack) (d : Delivery) : Prop :=
  a.delivery.deliveryId = d.id ∧ a.delivery.event.eventId = d.eventId ∧
    ∃ c ∈ s.bus.consumers, c.id = d.consumerId ∧ c.name = a.consumer

/-- Every processed delivery of such a consumer was acknowledged honestly. -/
def EffectsFirst (window : Nat) (parseUuid : String → Option Uuid) (consumer : String → Prop)
    (w : World) : Prop :=
  ∀ d ∈ w.stores.bus.deliveries, d.status = .processed →
    (∃ c ∈ w.stores.bus.consumers, c.id = d.consumerId ∧ consumer c.name) →
    ∃ a ∈ w.acks, a.IsOf w.stores d ∧ Honest window parseUuid w.stores a

/-- Every analysis that is asked for is given and stored, and the analyzer learns so. -/
def AnalysesSucceed (_w : World) : Action → Prop
  | .analyzer _ (.analyze (.error _)) => False
  | .analyzer _ (.store _ outcome) => outcome.result = .ok ()
  | _ => True

instance (w : World) (a : Action) : Decidable (AnalysesSucceed w a) := by
  unfold AnalysesSucceed
  split
  · infer_instance
  · rename_i outcome
    cases outcome with
    | committed => exact isTrue rfl
    | unacknowledged | failed => exact isFalse nofun
  · infer_instance

/-! ## What stays stored -/

/-- The same delivery, up to its progress. -/
def SameDelivery (d d' : Delivery) : Prop :=
  d'.id = d.id ∧ d'.eventId = d.eventId ∧ d'.consumerId = d.consumerId

/-- Nothing stored is lost, and a delivery that is processed was so before, or is the one that
`ack` is of. -/
structure Later (s s' : Stores) (ack : Option Ack) : Prop where
  rows : ∀ d ∈ s.bus.deliveries, ∃ d' ∈ s'.bus.deliveries, SameDelivery d d'
  consumers : ConsumersKept s.bus s'.bus
  candidates : ∀ c ∈ s.correlation.candidates, ∃ c' ∈ s'.correlation.candidates,
    c'.id = c.id ∧ c'.correlationKey = c.correlationKey
  candidateEvents : ∀ e ∈ s.correlation.candidateEvents, e ∈ s'.correlation.candidateEvents
  analyses : ∀ x ∈ s.analyses, x ∈ s'.analyses
  processed : ∀ d' ∈ s'.bus.deliveries, d'.status = .processed →
    ∃ d ∈ s.bus.deliveries, SameDelivery d d' ∧
      (d.status = .processed ∨ ∃ a ∈ ack, a.delivery.deliveryId = d.id ∧
        ∃ c ∈ s.bus.consumers, c.id = d.consumerId ∧ c.name = a.consumer)

theorem Later.of_bus (hrows : ∀ d ∈ s.bus.deliveries, ∃ d' ∈ bus.deliveries, SameDelivery d d')
    (hconsumers : ConsumersKept s.bus bus)
    (hprocessed : ∀ d' ∈ bus.deliveries, d'.status = .processed →
      ∃ d ∈ s.bus.deliveries, SameDelivery d d' ∧
        (d.status = .processed ∨ ∃ a ∈ ack, a.delivery.deliveryId = d.id ∧
          ∃ c ∈ s.bus.consumers, c.id = d.consumerId ∧ c.name = a.consumer)) :
    Later s { s with bus := bus } ack :=
  ⟨hrows, hconsumers, fun c hc => ⟨c, hc, rfl, rfl⟩, fun _ he => he, fun _ hx => hx, hprocessed⟩

theorem SameDelivery.refl (d : Delivery) : SameDelivery d d := ⟨rfl, rfl, rfl⟩

/-- A step that leaves the deliveries. -/
theorem Later.of_deliveries (hdeliveries : bus.deliveries = s.bus.deliveries)
    (hconsumers : ConsumersKept s.bus bus) : Later s { s with bus := bus } none := by
  refine .of_bus (fun d hd => ⟨d, hdeliveries ▸ hd, .refl d⟩) hconsumers (fun d hd hs => ?_)
  exact ⟨d, hdeliveries ▸ hd, .refl d, .inl hs⟩

theorem Later.refl (s : Stores) : Later s s none := by
  show Later s { s with bus := s.bus } none
  exact .of_deliveries rfl (.of_eq rfl)

theorem sameDelivery_of_advance {taken : Delivery → Prop} {d : Delivery} (h : Advance taken d d') :
    SameDelivery d d' := by
  refine ⟨h.id_eq, ?_, h.consumerId_eq⟩
  cases h with
  | same => rfl
  | claimed => rfl
  | completed now success error _ => cases success <;> rfl

theorem Later.publish {eventId id : Uuid} {newId : Uuid → Uuid} {e : NewEvent}
    (h : publishEvent s.bus now eventId newId e = some (id, bus)) :
    Later s { s with bus := bus } none := by
  obtain ⟨hrows, hconsumers⟩ := publishEvent_rows h
  refine .of_bus (fun d hd => ?_) (.of_eq hconsumers) (fun d' hd' hs => ?_)
  · obtain ⟨d', hd', hadvance⟩ := hrows.to_new d hd
    exact ⟨d', hd', sameDelivery_of_advance hadvance⟩
  · unfold publishEvent at h
    split at h
    · cases h
      exact ⟨d', hd', .refl d', .inl hs⟩
    · obtain ⟨events, -, heq⟩ := map_eq_some_iff.1 h
      cases heq
      rcases mem_fanOut hd' with hd' | ⟨hpending, -⟩
      · exact ⟨d', hd', .refl d', .inl hs⟩
      · rw [hs] at hpending
        cases hpending

theorem mem_claimed {db : EventStore} {c : EventConsumer} :
    d' ∈ (claimEventDeliveries db c limit now locked).2.deliveries ↔
      ∃ d ∈ db.deliveries,
        d' = if d.id ∈ claimedIds db.deliveries c.id now (clampLimit limit) locked
          then claimRow now d else d := by
  show d' ∈ db.deliveries.updateWhere
    (fun d => d.id ∈ claimedIds db.deliveries c.id now (clampLimit limit) locked) (claimRow now)
    (fun _ => rfl) ↔ _
  exact mem_updateWhere

theorem mem_completed {db db' : EventStore} {deliveryId : Uuid} {success : Bool}
    {error : Option String}
    (h : completeEventDelivery db now deliveryId consumer success error = .ok db') :
    d' ∈ db'.deliveries ↔ ∃ d ∈ db.deliveries,
      d' = if Completable db deliveryId consumer d then completedRow now success error d
        else d := by
  rw [completeEventDelivery_ok h]
  show d' ∈ db.deliveries.updateWhere (Completable db deliveryId consumer)
    (completedRow now success error) (completedRow_id now success error) ↔ _
  exact mem_updateWhere

theorem Later.claim {c : EventConsumer} :
    Later s { s with bus := (claimEventDeliveries s.bus c limit now locked).2 } none := by
  have hrows := claimEventDeliveries_rows s.bus c limit now locked
  refine .of_bus (fun d hd => ?_) (.of_eq rfl) (fun d' hd' hs => ?_)
  · obtain ⟨d', hd', hadvance⟩ := hrows.to_new d hd
    exact ⟨d', hd', sameDelivery_of_advance hadvance⟩
  · obtain ⟨d, hd, rfl⟩ := mem_claimed.1 hd'
    split at hs
    · cases hs
    · refine ⟨d, hd, ?_, .inl hs⟩
      rw [if_neg (by assumption)]
      exact .refl d

theorem Later.report {d : ClaimedDelivery} {recent : List EventRecord}
    {told result : Except String Unit} {outcome : Outcome}
    (h : report s now d.deliveryId consumer told outcome = some s') :
    Later s s' (if told.toBool then some ⟨consumer, d, recent, result⟩ else none) := by
  unfold EventConsumers.report at h
  split at h
  case h_2 => cases h
  case h_1 bus hcomplete =>
    split at h <;> cases h
    obtain ⟨hrows, hconsumers⟩ := completeEventDelivery_rows hcomplete
    refine .of_bus (fun x hx => ?_) (.of_eq hconsumers) (fun x' hx' hs => ?_)
    · obtain ⟨x', hx', hadvance⟩ := hrows.to_new x hx
      exact ⟨x', hx', sameDelivery_of_advance hadvance⟩
    · obtain ⟨x, hx, rfl⟩ := (mem_completed hcomplete).1 hx'
      refine ⟨x, hx, ?_⟩
      split at hs
      case isFalse hno =>
        rw [if_neg hno]
        exact ⟨.refl x, .inl hs⟩
      case isTrue hyes =>
        rw [if_pos hyes]
        obtain ⟨hid, ⟨c, hc, hcid, hname⟩, -⟩ := hyes
        cases htold : told.toBool with
        | true =>
          refine ⟨⟨completedRow_id _ _ _ x, ?_, completedRow_consumerId _ _ _ x⟩, .inr ?_⟩
          · rfl
          · exact ⟨_, rfl, hid.symm, c, hc, hcid.symm, hname⟩
        | false =>
          rw [htold] at hs
          have hfailed : (if 5 ≤ x.attempts then DeliveryStatus.dead else .failed) =
              .processed := hs
          split at hfailed <;> cases hfailed

theorem Later.persist {r : CorrelationPersistence} {existing : Option IncidentCandidate}
    {new candidate : Uuid} {correlation : Correlation.Db}
    (h : persistCorrelation s.correlation r existing new = some (correlation, candidate)) :
    Later s { s with correlation := correlation } none := by
  have hp := persistCorrelation_spec h
  obtain ⟨n, hget⟩ := hp.rows
  refine ⟨fun d hd => ⟨d, hd, .refl d⟩, .of_eq rfl, fun c hc => ?_,
    fun e he => (hp.events e).2 (.inl he), fun _ hx => hx,
    fun d hd hs => ⟨d, hd, .refl d, .inl hs⟩⟩
  have hrow := hget c.id
  rw [get?_key hc] at hrow
  cases existing with
  | none =>
    have hne : c.id ≠ new := by
      intro heq
      have hfree := hp.fresh rfl
      rw [← heq, get?_key hc] at hfree
      cases hfree
    simp only [if_neg hne] at hrow
    exact ⟨c, mem_of_get? hrow, rfl, rfl⟩
  | some x =>
    simp only [map_some] at hrow
    refine ⟨_, mem_of_get? hrow, ?_⟩
    split
    · exact ⟨rfl, rfl⟩
    · exact ⟨rfl, rfl⟩

theorem Later.store {id incident : Uuid} {output : AnalysisOutput}
    (h : storeIncidentAnalysis s id incident output = some s') :
    Later s s' none ∧ ∃ x ∈ s'.analyses, x.incidentId = incident := by
  unfold storeIncidentAnalysis at h
  split at h
  case isFalse => cases h
  case isTrue =>
    obtain ⟨analyses, hins, rfl⟩ := map_eq_some_iff.1 h
    refine ⟨⟨fun d hd => ⟨d, hd, .refl d⟩, .of_eq rfl, fun c hc => ⟨c, hc, rfl, rfl⟩,
      fun _ he => he, fun x hx => (mem_insert? hins).2 (.inl hx),
      fun d hd hs => ⟨d, hd, .refl d, .inl hs⟩⟩, ?_⟩
    exact ⟨_, (mem_insert? hins).2 (.inr rfl), rfl⟩

/-- After its transaction the request is persisted. -/
theorem persists_of_persist {r : CorrelationPersistence} {existing : Option IncidentCandidate}
    {new candidate : Uuid} {correlation : Correlation.Db} (hfound : FoundBy s r existing)
    (h : persistCorrelation s.correlation r existing new = some (correlation, candidate)) :
    Persists correlation r := by
  have hp := persistCorrelation_spec h
  obtain ⟨n, hget⟩ := hp.rows
  have hevents : ∀ e ∈ r.eventIds, (candidate, e) ∈ correlation.candidateEvents := fun e he =>
    (hp.events (candidate, e)).2 (.inr ⟨rfl, he⟩)
  have hrow := hget candidate
  rw [hp.candidate_eq] at hrow hevents
  cases existing with
  | none =>
    simp only [map_none, getD_none, if_true] at hrow hevents
    exact ⟨_, mem_of_get? hrow, rfl, hevents⟩
  | some x =>
    obtain ⟨hx, hmatches⟩ := hfound x rfl
    simp only [map_some, getD_some, get?_key hx, if_true] at hrow hevents
    exact ⟨_, mem_of_get? hrow, hmatches.1, hevents⟩

section Transport

variable {s s' : Stores} {ack : Option Ack}

theorem Persists.later {r : CorrelationPersistence} (h : Persists s.correlation r)
    (hl : Later s s' ack) : Persists s'.correlation r := by
  obtain ⟨c, hc, hkey, hevents⟩ := h
  obtain ⟨c', hc', hid, hkey'⟩ := hl.candidates c hc
  refine ⟨c', hc', hkey'.trans hkey, fun e he => ?_⟩
  rw [hid]
  exact hl.candidateEvents _ (hevents e he)

theorem Correlated.later {e : Event} {recent : List EventRecord}
    (h : Correlated window s e recent) (hl : Later s s' ack) : Correlated window s' e recent :=
  fun r hr => (h r hr).later hl

theorem Analyzed.later {e : Event} (h : Analyzed parseUuid s e) (hl : Later s s' ack) :
    Analyzed parseUuid s' e := by
  intro incident hincident
  obtain ⟨x, hx, hid⟩ := h incident hincident
  exact ⟨x, hl.analyses x hx, hid⟩

theorem Honest.later {a : Ack} (h : Honest window parseUuid s a) (hl : Later s s' ack) :
    Honest window parseUuid s' a :=
  ⟨h.1, fun ha => (h.2.1 ha).later hl, fun ha => (h.2.2 ha).later hl⟩

end Transport

/-! ## Loops under way -/

/-- What a loop was handed is the delivery of that event. -/
def Handed (s : Stores) (d : ClaimedDelivery) : Prop :=
  ∃ row ∈ s.bus.deliveries, row.id = d.deliveryId ∧ row.eventId = d.event.eventId

def CorrelatorReady (window : Nat) (s : Stores) : Correlator → Prop
  | .persisting d recent r _ => correlationRequest (eventRecord d.event) window recent = some r
  | .completing d recent result _ => result = .ok () → Correlated window s d.event recent
  | _ => True

def AnalyzerReady (parseUuid : String → Option Uuid) (s : Stores) : Analyzer → Prop
  | .analyzing d incident _ | .storing d incident _ _ => analysisOf parseUuid d.event = some incident
  | .acknowledging d result _ => result = .ok () ∧ Analyzed parseUuid s d.event
  | _ => True

/-- Every processed delivery was acknowledged, by the correlation service honestly; where
`strict` holds, so it was by the analyzer. -/
structure Kept (window : Nat) (parseUuid : String → Option Uuid) (strict : Prop) (w : World) :
    Prop where
  accounted : ∀ d ∈ w.stores.bus.deliveries, d.status = .processed →
    ∃ a ∈ w.acks, a.IsOf w.stores d
  acks : ∀ a ∈ w.acks, a.consumer = "correlation" ∨ strict → Honest window parseUuid w.stores a
  correlatorsHeld : ∀ (k : Nat) (c : Correlator), w.correlators[k]? = some c →
    ∀ d ∈ c.held, Handed w.stores d
  analyzersHeld : ∀ (k : Nat) (c : Analyzer), w.analyzers[k]? = some c →
    ∀ d ∈ c.held, Handed w.stores d
  correlators : ∀ (k : Nat) (c : Correlator), w.correlators[k]? = some c →
    CorrelatorReady window w.stores c
  analyzers : strict → ∀ (k : Nat) (c : Analyzer), w.analyzers[k]? = some c →
    AnalyzerReady parseUuid w.stores c

section Step

variable {w : World} {strict : Prop} {s' : Stores} {ack : Option Ack}

theorem Handed.later {d : ClaimedDelivery} (h : Handed s d) (hl : Later s s' ack) :
    Handed s' d := by
  obtain ⟨row, hrow, hid, hevent⟩ := h
  obtain ⟨row', hrow', hid', hevent', -⟩ := hl.rows row hrow
  exact ⟨row', hrow', hid'.trans hid, hevent'.trans hevent⟩

theorem CorrelatorReady.later {c : Correlator} (h : CorrelatorReady window s c)
    (hl : Later s s' ack) : CorrelatorReady window s' c := by
  cases c with
  | completing d recent result todo => exact fun hok => (h hok).later hl
  | persisting => exact h
  | idle | batch | listing => trivial

theorem AnalyzerReady.later {c : Analyzer} (h : AnalyzerReady parseUuid s c) (hl : Later s s' ack) :
    AnalyzerReady parseUuid s' c := by
  cases c with
  | acknowledging d result todo => exact ⟨h.1, h.2.later hl⟩
  | analyzing => exact h
  | storing => exact h
  | idle | batch => trivial

theorem Ack.IsOf.later {a : Ack} {d d' : Delivery} (h : a.IsOf s d) (hsame : SameDelivery d d')
    (hl : Later s s' ack) : a.IsOf s' d' := by
  obtain ⟨hid, hevent, c, hc, hcid, hname⟩ := h
  obtain ⟨c', hc', hcid', hname', -⟩ := hl.consumers c hc
  exact ⟨hid.trans hsame.1.symm, hevent.trans hsame.2.1.symm, c', hc',
    hcid'.trans (hcid.trans hsame.2.2.symm), hname'.trans hname⟩

section

variable (h : Kept window parseUuid strict w) (hl : Later w.stores s' ack)
include h hl

/-- A processed delivery is still accounted for, be it by the new acknowledgement. -/
theorem Kept.accounted_later (hheld : ∀ a ∈ ack, Handed w.stores a.delivery) :
    ∀ d ∈ s'.bus.deliveries, d.status = .processed →
      ∃ a ∈ w.acks ++ ack.toList, a.IsOf s' d := by
  intro d' hd' hs
  obtain ⟨d, hd, hsame, hbefore | ⟨a, ha, hid, hconsumer⟩⟩ := hl.processed d' hd' hs
  · obtain ⟨a, ha, hof⟩ := h.accounted d hd hbefore
    exact ⟨a, mem_append_left _ ha, hof.later hsame hl⟩
  · obtain ⟨row, hrow, hrowid, hevent⟩ := hheld a ha
    have hrowd : row = d := eq_of_key_eq hrow hd (hrowid.trans hid)
    rw [hrowd] at hevent
    have hof : a.IsOf w.stores d := ⟨hid, hevent.symm, hconsumer⟩
    exact ⟨a, mem_append_right _ (mem_toList.2 ha), hof.later hsame hl⟩

theorem Kept.acks_later
    (hhonest : ∀ a ∈ ack, a.consumer = "correlation" ∨ strict → Honest window parseUuid s' a) :
    ∀ a ∈ w.acks ++ ack.toList, a.consumer = "correlation" ∨ strict →
      Honest window parseUuid s' a := by
  intro a ha hconsumer
  rcases mem_append.1 ha with ha | ha
  · exact (h.acks a ha hconsumer).later hl
  · exact hhonest a (mem_toList.1 ha) hconsumer

theorem Kept.setCorrelator {k : Nat} {c : Correlator} (hack : ∀ a ∈ ack, Handed w.stores a.delivery)
    (hhonest : ∀ a ∈ ack, a.consumer = "correlation" ∨ strict → Honest window parseUuid s' a)
    (hheld : ∀ d ∈ c.held, Handed s' d) (hready : CorrelatorReady window s' c) :
    Kept window parseUuid strict (w.setCorrelator k s' c ack) := by
  refine ⟨h.accounted_later hl hack, h.acks_later hl hhonest, fun j x hj => ?_, fun j x hj => ?_,
    fun j x hj => ?_, fun hs j x hj => ?_⟩
  · rcases getElem?_set_cases hj with ⟨-, rfl⟩ | ⟨-, hj⟩
    · exact hheld
    · exact fun d hd => (h.correlatorsHeld j x hj d hd).later hl
  · exact fun d hd => (h.analyzersHeld j x hj d hd).later hl
  · rcases getElem?_set_cases hj with ⟨-, rfl⟩ | ⟨-, hj⟩
    · exact hready
    · exact (h.correlators j x hj).later hl
  · exact (h.analyzers hs j x hj).later hl

theorem Kept.setAnalyzer {k : Nat} {c : Analyzer} (hack : ∀ a ∈ ack, Handed w.stores a.delivery)
    (hhonest : ∀ a ∈ ack, a.consumer = "correlation" ∨ strict → Honest window parseUuid s' a)
    (hheld : ∀ d ∈ c.held, Handed s' d) (hready : strict → AnalyzerReady parseUuid s' c) :
    Kept window parseUuid strict (w.setAnalyzer k s' c ack) := by
  refine ⟨h.accounted_later hl hack, h.acks_later hl hhonest, fun j x hj => ?_, fun j x hj => ?_,
    fun j x hj => ?_, fun hs j x hj => ?_⟩
  · exact fun d hd => (h.correlatorsHeld j x hj d hd).later hl
  · rcases getElem?_set_cases hj with ⟨-, rfl⟩ | ⟨-, hj⟩
    · exact hheld
    · exact fun d hd => (h.analyzersHeld j x hj d hd).later hl
  · exact (h.correlators j x hj).later hl
  · rcases getElem?_set_cases hj with ⟨-, rfl⟩ | ⟨-, hj⟩
    · exact hready hs
    · exact (h.analyzers hs j x hj).later hl

end

theorem Kept.setStores (h : Kept window parseUuid strict w) (hl : Later w.stores s' none) :
    Kept window parseUuid strict { w with stores := s' } := by
  have hacks := h.acks_later hl (fun a ha => (nomatch ha))
  have haccounted := h.accounted_later hl (fun a ha => (nomatch ha))
  rw [toList_none, append_nil] at hacks haccounted
  exact ⟨haccounted, hacks, fun j x hj d hd => (h.correlatorsHeld j x hj d hd).later hl,
    fun j x hj d hd => (h.analyzersHeld j x hj d hd).later hl,
    fun j x hj => (h.correlators j x hj).later hl,
    fun hs j x hj => (h.analyzers hs j x hj).later hl⟩

end Step

/-! ## The statements of a loop -/

theorem names_ne : "correlation" ≠ "analyzer" := by decide

/-- A claim hands out deliveries of their events. -/
theorem later_of_afterClaim {outcome : Outcome} {claimed : Option (List ClaimedDelivery)}
    (h : afterClaim s consumer limit now locked outcome = some (s', claimed)) :
    Later s s' none ∧ ∀ todo ∈ claimed, ∀ d ∈ todo, Handed s' d := by
  have hclaim : ∀ todo t, claim s consumer limit now locked = some (todo, t) →
      Later s t none ∧ ∀ d ∈ todo, Handed t d := by
    intro todo t ht
    unfold EventConsumers.claim at ht
    split at ht
    case h_1 => cases ht
    case h_2 c hc =>
      cases ht
      refine ⟨.claim, fun d hd => ?_⟩
      obtain ⟨row, hrow, he⟩ := mem_filterMap.1 hd
      obtain ⟨event, hevent, rfl⟩ := map_eq_some_iff.1 he
      have hrow := (mem_insertionSort _).1 hrow
      exact ⟨row, mem_of_mem_filter hrow, rfl, (key_of_get? hevent).symm⟩
  unfold afterClaim at h
  split at h
  · cases h
    exact ⟨.refl s, nofun⟩
  · obtain ⟨⟨todo, t⟩, ht, he⟩ := map_eq_some_iff.1 h
    cases he
    exact ⟨(hclaim todo _ ht).1, nofun⟩
  · obtain ⟨⟨todo, t⟩, ht, he⟩ := map_eq_some_iff.1 h
    cases he
    refine ⟨(hclaim _ _ ht).1, fun x hx => ?_⟩
    cases hx
    exact (hclaim _ _ ht).2

theorem Kept.correlate (h : Kept window parseUuid strict w) {k : Nat} {c c' : Correlator}
    (hk : w.correlators[k]? = some c) (hd : CorrelatorDoes window w.stores c s' c' ack) :
    Kept window parseUuid strict (w.setCorrelator k s' c' ack) := by
  have hheld := h.correlatorsHeld k c hk
  have hready := h.correlators k c hk
  have hstay := Later.refl w.stores
  cases hd with
  | @claims now locked outcome _ claimed hclaim =>
    obtain ⟨hl, hclaimed⟩ := later_of_afterClaim hclaim
    refine h.setCorrelator hl nofun nofun (fun d hd => ?_) ?_
    · cases claimed with
      | none => exact absurd hd not_mem_nil
      | some todo => exact hclaimed todo rfl d hd
    · cases claimed with
      | none => trivial
      | some todo => trivial
  | lists => exact h.setCorrelator hstay nofun nofun hheld trivial
  | passes hsame hnone =>
    refine h.setCorrelator hstay nofun nofun (fun d hd => hheld d (hsame ▸ hd)) (fun _ r hr => ?_)
    rw [hnone] at hr
    cases hr
  | requests hsome => exact h.setCorrelator hstay nofun nofun hheld hsome
  | fails hsame =>
    exact h.setCorrelator hstay nofun nofun (fun d hd => hheld d (hsame ▸ hd)) nofun
  | persists hfound hpersist =>
    have hl := Later.persist hpersist
    refine h.setCorrelator hl nofun nofun (fun d hd => (hheld d hd).later hl) (fun _ r hr => ?_)
    rw [show correlationRequest _ window _ = some _ from hready] at hr
    cases hr
    exact persists_of_persist hfound hpersist
  | unreported =>
    exact h.setCorrelator hstay nofun nofun
      (fun d hd => hheld d (mem_cons_of_mem _ hd)) trivial
  | @reports d recent result todo now outcome _ hreport =>
    have hl : Later w.stores s'
        (if result.toBool then some ⟨"correlation", d, recent, result⟩ else none) :=
      Later.report hreport
    refine h.setCorrelator hl (fun a ha => ?_) (fun a ha _ => ?_)
      (fun x hx => (hheld x (mem_cons_of_mem _ hx)).later hl) trivial
    · split at ha
      · cases ha
        exact hheld d mem_cons_self
      · cases ha
    · split at ha
      case isFalse => cases ha
      case isTrue hok =>
        cases ha
        have hresult : result = .ok () := by
          cases result with
          | ok => rfl
          | error => cases hok
        exact ⟨hresult, fun _ => (hready hresult).later hl, fun hname => absurd hname names_ne⟩
  | ends =>
    exact h.setCorrelator hstay nofun nofun (fun d hd => absurd hd not_mem_nil) trivial

theorem Kept.analyze (h : Kept window parseUuid strict w) {k : Nat} {c c' : Analyzer}
    {a : AnalyzerAction} (hk : w.analyzers[k]? = some c)
    (hd : AnalyzerDoes parseUuid w.stores c a s' c' ack)
    (hc : strict → AnalysesSucceed w (.analyzer k a)) :
    Kept window parseUuid strict (w.setAnalyzer k s' c' ack) := by
  have hheld := h.analyzersHeld k c hk
  have hready := fun hs => h.analyzers hs k c hk
  have hstay := Later.refl w.stores
  cases hd with
  | @polls now locked outcome _ claimed hclaim =>
    obtain ⟨hl, hclaimed⟩ := later_of_afterClaim hclaim
    refine h.setAnalyzer hl nofun nofun (fun d hd => ?_) (fun _ => ?_)
    · cases claimed with
      | none => exact absurd hd not_mem_nil
      | some todo => exact hclaimed todo rfl d hd
    · cases claimed with
      | none => trivial
      | some todo => trivial
  | asks hsome => exact h.setAnalyzer hstay nofun nofun hheld (fun _ => hsome)
  | passes hnone =>
    refine h.setAnalyzer hstay nofun nofun hheld (fun _ => ⟨rfl, fun incident hi => ?_⟩)
    rw [hnone] at hi
    cases hi
  | answered => exact h.setAnalyzer hstay nofun nofun hheld hready
  | refused => exact h.setAnalyzer hstay nofun nofun hheld (fun hs => (hc hs).elim)
  | @stores d incident id todo output outcome _ hstore =>
    obtain ⟨hl, x, hx, hid⟩ := Later.store hstore
    refine h.setAnalyzer hl nofun nofun (fun d hd => (hheld d hd).later hl)
      (fun hs => ⟨hc hs, fun i hi => ?_⟩)
    rw [show analysisOf parseUuid d.event = some incident from hready hs] at hi
    cases hi
    exact ⟨x, hx, hid⟩
  | loses => exact h.setAnalyzer hstay nofun nofun hheld (fun hs => nomatch hc hs)
  | unreported =>
    exact h.setAnalyzer hstay nofun nofun (fun d hd => hheld d (mem_cons_of_mem _ hd))
      (fun _ => trivial)
  | @reports d result todo now outcome _ hreport =>
    have hl : Later w.stores s' (some ⟨"analyzer", d, [], result⟩) := Later.report hreport
    refine h.setAnalyzer hl (fun a ha => ?_) (fun a ha hconsumer => ?_)
      (fun x hx => (hheld x (mem_cons_of_mem _ hx)).later hl) (fun _ => trivial)
    · cases ha
      exact hheld d mem_cons_self
    · cases ha
      rcases hconsumer with hname | hs
      · exact absurd hname.symm names_ne
      · obtain ⟨hresult, hanalyzed⟩ := hready hs
        exact ⟨hresult, fun hname => absurd hname.symm names_ne, fun _ => hanalyzed.later hl⟩
  | ends =>
    exact h.setAnalyzer hstay nofun nofun (fun d hd => absurd hd not_mem_nil)
      (fun _ => trivial)

theorem correlationKey_promoteRow (c : IncidentCandidate) :
    (promoteRow c).correlationKey = c.correlationKey := by
  unfold promoteRow
  split <;> rfl

theorem Kept.step {w' : World} {a : Action} (h : Kept window parseUuid strict w)
    (hc : strict → AnalysesSucceed w a) (hstep : exec window parseUuid w a = some w') :
    Kept window parseUuid strict w' := by
  cases a with
  | tick elapsed =>
    cases hstep
    exact h.setStores (.of_deliveries rfl (.of_eq rfl))
  | ensure newId name =>
    obtain ⟨bus, hbus, rfl⟩ := map_eq_some_iff.1 hstep
    obtain ⟨hconsumers, hdeliveries⟩ := ensureEventConsumer_kept hbus
    exact h.setStores (.of_deliveries hdeliveries hconsumers)
  | publish eventId newId e =>
    obtain ⟨⟨id, bus⟩, hbus, rfl⟩ := map_eq_some_iff.1 hstep
    exact h.setStores (.publish hbus)
  | incident id =>
    cases hstep
    refine h.setStores ⟨fun d hd => ⟨d, hd, .refl d⟩, .of_eq rfl, fun c hc => ⟨c, hc, rfl, rfl⟩,
      fun _ he => he, fun _ hx => hx, fun d hd hs => ⟨d, hd, .refl d, .inl hs⟩⟩
  | promote candidate =>
    cases hstep
    refine h.setStores ⟨fun d hd => ⟨d, hd, .refl d⟩, .of_eq rfl, fun c hc => ?_,
      fun _ he => he, fun _ hx => hx, fun d hd hs => ⟨d, hd, .refl d, .inl hs⟩⟩
    have hrow := get?_updateCandidate w.stores.correlation candidate promoteRow id_promoteRow c.id
    rw [get?_key hc] at hrow
    refine ⟨_, mem_of_get? hrow, ?_⟩
    dsimp only
    split
    · exact ⟨id_promoteRow c, correlationKey_promoteRow c⟩
    · exact ⟨rfl, rfl⟩
  | correlator k a =>
    obtain ⟨c, hk, hstep⟩ := bind_eq_some_iff.1 hstep
    obtain ⟨⟨s', c', ack⟩, hs, rfl⟩ := map_eq_some_iff.1 hstep
    exact h.correlate hk (correlatorDoes_of_step hs)
  | analyzer k a =>
    obtain ⟨c, hk, hstep⟩ := bind_eq_some_iff.1 hstep
    obtain ⟨⟨s', c', ack⟩, hs, rfl⟩ := map_eq_some_iff.1 hstep
    exact h.analyze hk (analyzerDoes_of_step hs) hc

/-! ## Every run -/

theorem kept_init (h : Initial w) : Kept window parseUuid strict w := by
  obtain ⟨hdeliveries, hacks, ⟨m, hcorrelators⟩, ⟨n, hanalyzers⟩⟩ := h
  have hidle : ∀ (k : Nat) (c : Correlator), w.correlators[k]? = some c → c = .idle := by
    intro k c hk
    rw [hcorrelators] at hk
    exact eq_of_mem_replicate (mem_of_getElem? hk)
  have hidle' : ∀ (k : Nat) (c : Analyzer), w.analyzers[k]? = some c → c = .idle := by
    intro k c hk
    rw [hanalyzers] at hk
    exact eq_of_mem_replicate (mem_of_getElem? hk)
  refine ⟨fun d hd => ?_, fun a ha => ?_, fun k c hk d hd => ?_, fun k c hk d hd => ?_,
    fun k c hk => ?_, fun _ k c hk => ?_⟩
  · rw [hdeliveries] at hd
    exact absurd hd not_mem_empty
  · rw [hacks] at ha
    exact absurd ha not_mem_nil
  · rw [hidle k c hk] at hd
    exact absurd hd not_mem_nil
  · rw [hidle' k c hk] at hd
    exact absurd hd not_mem_nil
  · rw [hidle k c hk]
    trivial
  · rw [hidle' k c hk]
    trivial

/-- In every run the effect of a processed delivery of the correlation service is stored; where
every analysis succeeds, so is that of any processed delivery. -/
theorem effects_first (window : Nat) (parseUuid : String → Option Uuid) :
    (loopSystem window parseUuid).Invariant
        (EffectsFirst window parseUuid (fun name => name = "correlation")) ∧
      ((loopSystem window parseUuid).restrict AnalysesSucceed).Invariant
        (EffectsFirst window parseUuid (fun _ => True)) := by
  constructor
  · have hinductive : (loopSystem window parseUuid).Inductive (Kept window parseUuid False) :=
      { init := fun _ h => kept_init h
        step := fun _ _ _ h hstep => h.step False.elim hstep }
    intro w hw d hd hs ⟨c, hc, hcid, hname⟩
    have hkept := hinductive.invariant w hw
    obtain ⟨a, ha, hof⟩ := hkept.accounted d hd hs
    obtain ⟨c', hc', hcid', hname'⟩ := hof.2.2
    have hsame : c' = c := eq_of_key_eq hc' hc (hcid'.trans hcid.symm)
    rw [hsame] at hname'
    exact ⟨a, ha, hof, hkept.acks a ha (.inl (hname'.symm.trans hname))⟩
  · have hinductive : ((loopSystem window parseUuid).restrict AnalysesSucceed).Inductive
        (Kept window parseUuid True) :=
      { init := fun _ h => kept_init h
        step := fun _ _ _ h hstep => h.step (fun _ => hstep.1) hstep.2 }
    intro w hw d hd hs _
    have hkept := hinductive.invariant w hw
    obtain ⟨a, ha, hof⟩ := hkept.accounted d hd hs
    exact ⟨a, ha, hof, hkept.acks a ha (.inr trivial)⟩

/-! ### A provider that does not answer -/

/-- One loop of each kind, and the analyzer's consumer. -/
def oneLoop : World where
  stores := ⟨⟨0, .empty _, ⟨[⟨2, "analyzer", true, none, 0⟩], nodup_singleton _⟩, .empty _⟩,
    Correlation.emptyDb, [], .empty _⟩
  correlators := [.idle]
  analyzers := [.idle]
  acks := []

theorem initial_oneLoop : Initial oneLoop := ⟨rfl, rfl, ⟨1, rfl⟩, 1, rfl⟩

def incidentText : String := "00000000-0000-0000-0000-000000000064"

def incidentCreated : NewEvent where
  eventType := "incident.created"
  source := "incident-correlator"
  severity := "high"
  occurredAt := 0
  correlationId := none
  payload := Json.ofFields [("incident_id", .string incidentText)]
  metadata := Json.ofFields []
  dedupeKey := "incident.created:" ++ incidentText

def readUuid (text : String) : Option Uuid := if text = incidentText then some 100 else none

/-- An incident's event, claimed, handled and acknowledged. -/
def analysisRun (handler : List AnalyzerAction) : List Action :=
  [.incident 100, .publish 7 (fun c => c) incidentCreated, .analyzer 0 (.poll 0 [] .committed),
    .analyzer 0 .take] ++ handler.map (.analyzer 0) ++ [.analyzer 0 (.acknowledge 0 .committed)]

/-- What the run leaves of the deliveries, the analyses and the acknowledgements. -/
def outcomeOf (w : World) : List (DeliveryStatus × Uuid) × List Uuid × List Bool :=
  (w.stores.bus.deliveries.rows.map (fun d => (d.status, d.consumerId)),
    w.stores.analyses.rows.map Analysis.incidentId, w.acks.map (fun a => a.result.toBool))

def answer : AnalysisOutput := ⟨"mock", "offline", 1 / 2, "one event", [], []⟩

/-- The analysis is stored, and then the delivery processed. -/
theorem effects_first_stored : ∃ w,
    ((loopSystem 900000000 readUuid).restrict AnalysesSucceed).Run oneLoop
      (analysisRun [.analyze (.ok answer), .store 1 .committed]) w ∧
    outcomeOf w = ([(.processed, 2)], [100], [true]) ∧
    EffectsFirst 900000000 readUuid (fun _ => True) w := by
  have hrun : (execAll
      (fun w a => if AnalysesSucceed w a then exec 900000000 readUuid w a else none) oneLoop
      (analysisRun [.analyze (.ok answer), .store 1 .committed])).map outcomeOf =
      some ([(.processed, 2)], [100], [true]) := by decide_cbv
  obtain ⟨w, hw, hstate⟩ := map_eq_some_iff.1 hrun
  have hsteps := run_restrict_of_execAll Initial (exec 900000000 readUuid) hw
  exact ⟨w, hsteps, hstate,
    (effects_first 900000000 readUuid).2 w ⟨oneLoop, _, initial_oneLoop, hsteps⟩⟩

/-- The provider fails, and the delivery is processed with no analysis stored. -/
theorem acknowledged_without_effect : ∃ w, (loopSystem 900000000 readUuid).Run oneLoop
      (analysisRun [.analyze (.error "timeout")]) w ∧
    outcomeOf w = ([(.processed, 2)], [], [false]) ∧
    ¬ EffectsFirst 900000000 readUuid (fun _ => True) w := by
  have hrun : (execAll (exec 900000000 readUuid) oneLoop
      (analysisRun [.analyze (.error "timeout")])).map (fun w =>
        (outcomeOf w, w.stores.bus.consumers.rows.map EventConsumer.id)) =
      some (([(.processed, 2)], [], [false]), [2]) := by decide_cbv
  obtain ⟨w, hw, hstate⟩ := map_eq_some_iff.1 hrun
  obtain ⟨hstate, hconsumers⟩ := Prod.mk.inj hstate
  refine ⟨w, run_of_execAll Initial _ hw, hstate, fun hfirst => ?_⟩
  obtain ⟨hrows, hrest⟩ := Prod.mk.inj hstate
  obtain ⟨-, hacks⟩ := Prod.mk.inj hrest
  have hrow : (DeliveryStatus.processed, 2) ∈
      w.stores.bus.deliveries.rows.map (fun d => (d.status, d.consumerId)) := by
    rw [hrows]
    exact mem_cons_self
  obtain ⟨d, hd, hpair⟩ := List.mem_map.1 hrow
  obtain ⟨hstatus, hconsumer⟩ := Prod.mk.inj hpair
  have hknown : (2 : Uuid) ∈ w.stores.bus.consumers.rows.map EventConsumer.id := by
    rw [hconsumers]
    exact mem_cons_self
  obtain ⟨c, hc, hcid⟩ := List.mem_map.1 hknown
  obtain ⟨a, ha, -, hresult, -⟩ := hfirst d hd hstatus ⟨c, hc, hcid.trans hconsumer.symm, trivial⟩
  have hfailed : a.result.toBool ∈ w.acks.map (fun a => a.result.toBool) :=
    List.mem_map_of_mem ha
  rw [hacks, hresult] at hfailed
  exact absurd hfailed (by decide)

end Clawforge.EventConsumers

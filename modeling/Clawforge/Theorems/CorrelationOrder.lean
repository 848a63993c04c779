import Clawforge.Correlation.AlertGroups
import Mathlib.Data.Fintype.EquivFin

/-!
# What depends on an order in correlation

A match of two events is the same from either side. A request is the same for every order of
the recent events exactly if the strongest matches share one key, and for the orders that
the listing of the recent events admits exactly if the latest of the strongest do
(`order_counts_iff`). An outcome never falls when an event or a match is added, but for the
types' bonus, which wraps around at 65, 129, ... types.
-/

namespace Clawforge.Correlation

open Kit List

section Statement

/-- `correlate` for a window of either sign: no distance is within a negative one. -/
def correlateWithin (left right : EventRecord) (window : Int) : Option CorrelationMatch :=
  if window < 0 then none else correlate left right window.toNat

/-- The same key, confidence, severity, summary, span and events. -/
def SameRequest : Option CorrelationPersistence → Option CorrelationPersistence → Prop
  | none, none => True
  | some a, some b =>
    a.correlationKey = b.correlationKey ∧ a.confidence = b.confidence ∧
      a.severity = b.severity ∧ a.summary = b.summary ∧ a.firstSeen = b.firstSeen ∧
      a.lastSeen = b.lastSeen ∧ a.eventIds.Perm b.eventIds
  | _, _ => False

variable (event : EventRecord) (window : Nat) (recent : List EventRecord)

/-- The request is the same for every order of the recent events. -/
def AnyOrder : Prop :=
  ∀ recent', recent'.Perm recent →
    SameRequest (correlationRequest event window recent') (correlationRequest event window recent)

/-- `ORDER BY occurred_at DESC`. -/
def Listed (rows : List EventRecord) : Prop :=
  rows.Pairwise (fun a b => b.occurredAt ≤ a.occurredAt)

/-- The request is the same for every order in which the recent events can be listed. -/
def AnyListing : Prop :=
  ∀ rows rows', rows.Perm recent → rows'.Perm recent → Listed rows → Listed rows' →
    SameRequest (correlationRequest event window rows) (correlationRequest event window rows')

/-- A match that no other exceeds. -/
def Strongest (x : MatchedEvent event window) : Prop :=
  x ∈ relatedEvents event window recent ∧
    ∀ y ∈ relatedEvents event window recent, y.found.confidence ≤ x.found.confidence

/-- Of the strongest matches, one whose event none is later than. -/
def LatestStrongest (x : MatchedEvent event window) : Prop :=
  Strongest event window recent x ∧
    ∀ y, Strongest event window recent y → y.record.occurredAt ≤ x.record.occurredAt

def OneKey (P : MatchedEvent event window → Prop) : Prop :=
  ∀ x y, P x → P y → x.found.correlationKey = y.found.correlationKey

variable (events : List EventRecord) (found : List CorrelationMatch)

def Lowers (before after : CorrelationOutcome) : Prop :=
  after.confidence < before.confidence ∨ rank after.severity < rank before.severity

/-- No further event and no further match lowers the outcome. -/
def OutcomeKept : Prop :=
  (∀ e events', events'.Perm (e :: events) →
    ¬ Lowers (deriveOutcome events found) (deriveOutcome events' found)) ∧
  ∀ m found', found'.Perm (m :: found) →
    ¬ Lowers (deriveOutcome events found) (deriveOutcome events found')

def strongestOf (found : List CorrelationMatch) : Nat :=
  (found.map CorrelationMatch.confidence).foldl max 0

/-- The next type does not wrap the bonus around, or the matches alone reach the cap. -/
def BonusKept : Prop :=
  (eventTypes events).length ≠ 0 → (eventTypes events).length % 64 = 0 → 100 ≤ strongestOf found

end Statement

/-! ## Pairs -/

theorem sharedId_comm (left right : EventRecord) : sharedId left right = sharedId right left := by
  unfold sharedId
  cases left.correlationId with
  | none => cases right.correlationId <;> rfl
  | some a =>
    cases right.correlationId with
    | none => rfl
    | some b =>
      by_cases hab : a = b
      · rw [hab]
      · dsimp only
        rw [if_neg (fun h => hab h.2), if_neg (fun h => hab h.2.symm)]

theorem min?_congr {xs ys : List String} (h : ∀ x, x ∈ xs ↔ x ∈ ys) : xs.min? = ys.min? := by
  cases hx : xs.min? with
  | none =>
    have hnil := min?_eq_none_iff.1 hx
    subst hnil
    have hys : ys = [] := eq_nil_iff_forall_not_mem.2 (fun y hy => by cases (h y).2 hy)
    rw [hys]
    rfl
  | some m =>
    rw [min?_eq_some_iff] at hx
    exact (min?_eq_some_iff.2 ⟨(h m).1 hx.1, fun b hb => hx.2 b ((h b).2 hb)⟩).symm

theorem sharedIndicator_comm (left right : Json) :
    sharedIndicator left right = sharedIndicator right left := by
  apply min?_congr
  intro x
  rw [mem_filter, mem_filter, decide_eq_true_iff, decide_eq_true_iff]
  exact and_comm

theorem idMatch_comm (left right : EventRecord) (id : String) :
    idMatch left right id = idMatch right left id := by
  unfold idMatch
  by_cases h : left.eventType = right.eventType
  · rw [if_pos h, if_pos h, if_pos h.symm, if_pos h.symm]
  · rw [if_neg h, if_neg h, if_neg (Ne.symm h), if_neg (Ne.symm h)]

theorem indicatorMatch_comm (left right : EventRecord) (shared : String) :
    indicatorMatch left right shared = indicatorMatch right left shared := by
  have htype := @ne_comm _ left.eventType right.eventType
  have hsource := @eq_comm _ left.source right.source
  rw [indicatorMatch, indicatorMatch, if_congr htype rfl rfl, decide_eq_decide.2 htype,
    decide_eq_decide.2 hsource]

theorem sharesFailingSource_comm (left right : EventRecord) :
    sharesFailingSource left right = sharesFailingSource right left := by
  unfold sharesFailingSource
  by_cases hsource : left.source = right.source
  · rw [hsource, Bool.or_comm]
  · rw [decide_eq_false hsource, decide_eq_false (Ne.symm hsource), Bool.false_and,
      Bool.false_and, Bool.false_and, Bool.false_and]

theorem correlate_comm (left right : EventRecord) (window : Nat) :
    correlate left right window = correlate right left window := by
  have hguard : (left.eventId = right.eventId ∨ isCorrelatable left.eventType = false ∨
      isCorrelatable right.eventType = false ∨
      window < apart left.occurredAt right.occurredAt) ↔
      (right.eventId = left.eventId ∨ isCorrelatable right.eventType = false ∨
        isCorrelatable left.eventType = false ∨
        window < apart right.occurredAt left.occurredAt) := by
    rw [apart_comm left.occurredAt, @eq_comm _ left.eventId]
    exact or_congr_right or_left_comm
  unfold correlate
  rw [if_congr hguard rfl rfl, sharedId_comm]
  split
  · rfl
  · split
    · rw [idMatch_comm]
    · rw [sharedIndicator_comm]
      split
      · rw [sharesFailingSource_comm]
        split
        · rename_i hfails
          rw [sharesFailingSource, Bool.and_assoc, Bool.and_eq_true] at hfails
          rw [of_decide_eq_true hfails.1]
        · rfl
      · rw [indicatorMatch_comm]

/-! ## Outcomes -/

theorem rank_raiseSeverity (s : IncidentSeverity) (e : EventRecord) :
    rank (raiseSeverity s e) = max (rank s) (rank (normalizeSeverity e.severity)) := by
  unfold raiseSeverity
  split <;> omega

theorem raiseSeverity_comm (s : IncidentSeverity) (d e : EventRecord) :
    raiseSeverity (raiseSeverity s d) e = raiseSeverity (raiseSeverity s e) d := by
  apply rank_injective
  simp only [rank_raiseSeverity]
  exact max_right_comm _ _ _

variable {events : List EventRecord}

theorem eventTypes_perm {events' : List EventRecord} (h : events.Perm events') :
    eventTypes events = eventTypes events' := by
  unfold eventTypes
  have hdedup := (h.map EventRecord.eventType).dedup
  have hsorted : ∀ xs : List String, (xs.insertionSort (fun a b => a ≤ b)).Pairwise (· ≤ ·) :=
    fun xs => pairwise_insertionSort (fun a b : String => a ≤ b) xs
  exact (((perm_insertionSort _ _).trans hdedup).trans
    (perm_insertionSort _ _).symm).eq_of_pairwise' (hsorted _) (hsorted _)

theorem deriveOutcome_perm {events' : List EventRecord} {found found' : List CorrelationMatch}
    (hevents : events.Perm events') (hfound : found.Perm found') :
    deriveOutcome events found = deriveOutcome events' found' := by
  have hseverity : events.foldl raiseSeverity .info = events'.foldl raiseSeverity .info :=
    hevents.foldl_eq' (fun d _ e _ s => raiseSeverity_comm s d e) _
  have hconfidence : (found.map CorrelationMatch.confidence).foldl max 0 =
      (found'.map CorrelationMatch.confidence).foldl max 0 :=
    (hfound.map _).foldl_eq' (fun m _ n _ a => max_right_comm a m n) _
  simp only [deriveOutcome, eventTypes_perm hevents, hseverity, hconfidence]

theorem deriveOutcome_confidence (events : List EventRecord) (found : List CorrelationMatch) :
    (deriveOutcome events found).confidence =
      min (min (strongestOf found + chainBonus (eventTypes events).length) 255) 100 := rfl

/-- The severity of a chain of `types` types that the loop leaves at `s`. -/
def chainSeverity (types : Nat) (s : IncidentSeverity) : IncidentSeverity :=
  if 2 ≤ types ∧ s = .medium then .high else s

theorem deriveOutcome_severity (events : List EventRecord) (found : List CorrelationMatch) :
    (deriveOutcome events found).severity =
      chainSeverity (eventTypes events).length (events.foldl raiseSeverity .info) := rfl

theorem chainSeverity_mono {m n : Nat} {s t : IncidentSeverity} (hmn : m ≤ n)
    (hst : rank s ≤ rank t) : rank (chainSeverity m s) ≤ rank (chainSeverity n t) := by
  unfold chainSeverity
  by_cases hs : 2 ≤ m ∧ s = .medium
  · rw [if_pos hs]
    rw [hs.2] at hst
    have hn : 2 ≤ n := Nat.le_trans hs.1 hmn
    cases t with
    | medium => rw [if_pos ⟨hn, rfl⟩]
    | critical | high => simp [rank]
    | low | info => exact absurd hst (by decide)
  · rw [if_neg hs]
    refine Nat.le_trans hst ?_
    split
    · rename_i ht
      rw [ht.2]
      decide
    · exact Nat.le_refl _

theorem length_eventTypes (events : List EventRecord) :
    (eventTypes events).length = ((events.map EventRecord.eventType).dedup).length :=
  length_insertionSort _ _

/-- One more event brings at most one more type, and a new type brings one. -/
theorem length_eventTypes_cons (e : EventRecord) (events : List EventRecord) :
    (eventTypes (e :: events)).length =
      if e.eventType ∈ events.map EventRecord.eventType then (eventTypes events).length
      else (eventTypes events).length + 1 := by
  rw [length_eventTypes, length_eventTypes, map_cons]
  split
  · rename_i h
    rw [dedup_cons_of_mem h]
  · rename_i h
    rw [dedup_cons_of_notMem h, length_cons]

theorem foldl_max_init (ns : List Nat) (a : Nat) : ns.foldl max a = max a (ns.foldl max 0) := by
  induction ns generalizing a with
  | nil => exact (Nat.max_zero a).symm
  | cons n ns ih => rw [foldl_cons, foldl_cons, ih, ih (max 0 n), Nat.zero_max,
      Nat.max_assoc]

theorem strongestOf_cons (m : CorrelationMatch) (found : List CorrelationMatch) :
    strongestOf (m :: found) = max m.confidence (strongestOf found) := by
  rw [strongestOf, map_cons, foldl_cons, foldl_max_init, Nat.zero_max, strongestOf]

/-- A type that none of the events has. -/
theorem exists_new_type (events : List EventRecord) :
    ∃ e : EventRecord, e.eventType ∉ events.map EventRecord.eventType := by
  obtain ⟨name, hname⟩ :=
    Infinite.exists_notMem_finset (events.map EventRecord.eventType).toFinset
  exact ⟨⟨0, name, "", "", 0, none, .null⟩, fun h => hname (List.mem_toFinset.2 h)⟩

theorem not_lowers_match (events : List EventRecord) (m : CorrelationMatch)
    (found : List CorrelationMatch) :
    ¬ Lowers (deriveOutcome events found) (deriveOutcome events (m :: found)) := by
  rintro (hless | hless)
  · rw [deriveOutcome_confidence, deriveOutcome_confidence, strongestOf_cons] at hless
    omega
  · rw [deriveOutcome_severity, deriveOutcome_severity] at hless
    exact Nat.lt_irrefl _ hless

theorem not_lowers_event {found : List CorrelationMatch} (h : BonusKept events found)
    (e : EventRecord) :
    ¬ Lowers (deriveOutcome events found) (deriveOutcome (e :: events) found) := by
  have htypes := length_eventTypes_cons e events
  rintro (hless | hless)
  · rw [deriveOutcome_confidence, deriveOutcome_confidence, htypes] at hless
    split at hless
    · exact Nat.lt_irrefl _ hless
    · unfold chainBonus at hless
      unfold BonusKept at h
      generalize (eventTypes events).length = n at h hless
      generalize strongestOf found = s at h hless
      -- only a full turn of the bonus could lower the sum, and there the cap is reached
      by_cases hturn : n ≠ 0 ∧ n % 64 = 0
      · have hcap := h hturn.1 hturn.2
        omega
      · omega
  · rw [deriveOutcome_severity, deriveOutcome_severity] at hless
    refine absurd hless (Nat.not_lt.2 (chainSeverity_mono ?_ ?_))
    · rw [htypes]
      split <;> omega
    · have hswap : (e :: events).foldl raiseSeverity .info =
          raiseSeverity (events.foldl raiseSeverity .info) e := by
        have hperm : (e :: events).Perm (events ++ [e]) := (perm_append_singleton e events).symm
        rw [hperm.foldl_eq' (fun d _ e' _ s => raiseSeverity_comm s d e') _, foldl_append]
        rfl
      rw [hswap, rank_raiseSeverity]
      exact Nat.le_max_left _ _

theorem outcomeKept_iff (events : List EventRecord) (found : List CorrelationMatch) :
    OutcomeKept events found ↔ BonusKept events found := by
  constructor
  · rintro ⟨hevent, -⟩ hsome hturn
    obtain ⟨e, he⟩ := exists_new_type events
    have hkept := hevent e (e :: events) (Perm.refl _)
    by_contra hbelow
    apply hkept
    left
    rw [deriveOutcome_confidence, deriveOutcome_confidence, length_eventTypes_cons, if_neg he]
    unfold chainBonus
    generalize (eventTypes events).length = n at hsome hturn ⊢
    omega
  · intro hkept
    refine ⟨fun e events' hperm => ?_, fun m found' hperm => ?_⟩
    · rw [deriveOutcome_perm hperm (Perm.refl found)]
      exact not_lowers_event hkept e
    · rw [deriveOutcome_perm (Perm.refl events) hperm]
      exact not_lowers_match events m found

/-! ## The first of the strongest -/

section Stable

variable {α : Type} (f : α → Nat)

/-- A stable sort puts the first of the largest in front. -/
theorem head_insertionSort (before : List α) (x : α) (after : List α)
    (hbefore : ∀ a ∈ before, f a < f x) (hafter : ∀ b ∈ after, f b ≤ f x) :
    ∃ rest, (before ++ x :: after).insertionSort (fun a b => f b ≤ f a) = x :: rest := by
  induction before with
  | nil => exact ⟨_, insertionSort_cons_of_forall_rel _ hafter⟩
  | cons a before ih =>
    obtain ⟨rest, hrest⟩ := ih (fun b hb => hbefore b (mem_cons_of_mem _ hb))
    refine ⟨rest.orderedInsert (fun a b => f b ≤ f a) a, ?_⟩
    rw [cons_append, insertionSort_cons, hrest, List.orderedInsert,
      if_neg (Nat.not_le.2 (hbefore a mem_cons_self))]

theorem exists_first_largest {xs : List α} (h : xs ≠ []) :
    ∃ before x after, xs = before ++ x :: after ∧ (∀ a ∈ before, f a < f x) ∧
      ∀ b ∈ after, f b ≤ f x := by
  induction xs with
  | nil => exact absurd rfl h
  | cons a xs ih =>
    cases xs with
    | nil => exact ⟨[], a, [], rfl, by simp, by simp⟩
    | cons b xs =>
      obtain ⟨before, x, after, heq, hbefore, hafter⟩ := ih (cons_ne_nil _ _)
      by_cases hax : f x ≤ f a
      · refine ⟨[], a, b :: xs, rfl, by simp, fun c hc => ?_⟩
        rw [heq] at hc
        rcases mem_append.1 hc with hc | hc
        · exact Nat.le_of_lt (Nat.lt_of_lt_of_le (hbefore c hc) hax)
        · rcases mem_cons.1 hc with rfl | hc
          · exact hax
          · exact Nat.le_trans (hafter c hc) hax
      · refine ⟨a :: before, x, after, by rw [heq, cons_append], ?_, hafter⟩
        intro c hc
        rcases mem_cons.1 hc with rfl | hc
        · exact Nat.not_le.1 hax
        · exact hbefore c hc

end Stable

section Requests

variable {event : EventRecord} {window : Nat} {recent : List EventRecord}
  {x : MatchedEvent event window} {rest : List (MatchedEvent event window)}
  {rows : List EventRecord}

theorem mem_relatedEvents : x ∈ relatedEvents event window recent ↔ x.record ∈ recent := by
  unfold relatedEvents
  rw [mem_filterMap]
  constructor
  · rintro ⟨record, hrecord, hmatch⟩
    split at hmatch
    · obtain rfl := Option.some.inj hmatch
      exact hrecord
    · cases hmatch
  · intro hrecord
    refine ⟨x.record, hrecord, ?_⟩
    obtain ⟨record, found, hcorrelated⟩ := x
    split
    · rename_i found' hfound
      obtain rfl : found' = found := Option.some.inj (hfound.symm.trans hcorrelated)
      rfl
    · rename_i hnone
      rw [hcorrelated] at hnone
      cases hnone

theorem relatedEvents_perm {recent' : List EventRecord} (h : recent'.Perm recent) :
    (relatedEvents event window recent').Perm (relatedEvents event window recent) :=
  h.filterMap _

theorem relatedEvents_of_not_correlatable (h : isCorrelatable event.eventType = false) :
    relatedEvents event window recent = [] := by
  apply eq_nil_iff_forall_not_mem.2
  intro x _
  have hcorrelated := x.correlated
  rw [correlate, if_pos (Or.inr (Or.inl h))] at hcorrelated
  cases hcorrelated

/-- The request of an event that something matches, by the first of the strongest. -/
theorem correlationRequest_of_head (h : isCorrelatable event.eventType = true)
    (hsorted : strongestFirst (relatedEvents event window recent) = x :: rest) :
    correlationRequest event window recent =
      some (groupRequest event window (x :: rest) x.found.correlationKey) := by
  rw [correlationRequest, if_pos h, hsorted]

/-- One key and the same matches make the same request. -/
theorem sameRequest_of_perm {related related' : List (MatchedEvent event window)} (key : String)
    (h : related.Perm related') :
    SameRequest (some (groupRequest event window related key))
      (some (groupRequest event window related' key)) := by
  have hstrongest := h.filter (fun x => x.found.correlationKey = key)
  have hevents := (hstrongest.map MatchedEvent.record).cons event
  have houtcome := deriveOutcome_perm hevents (hstrongest.map MatchedEvent.found)
  have htimes := hstrongest.map (fun x => x.record.occurredAt)
  refine ⟨rfl, ?_, ?_, ?_, ?_, ?_, hevents.map _⟩
  · exact congrArg (fun o : CorrelationOutcome => (o.confidence : Int)) houtcome
  · exact congrArg CorrelationOutcome.severity houtcome
  · exact congrArg CorrelationOutcome.summary houtcome
  · exact htimes.foldl_eq' (fun s _ t _ a => min_right_comm a s t) _
  · exact htimes.foldl_eq' (fun s _ t _ a => max_right_comm a s t) _

/-- The strongest match whose record comes first heads the sorted matches. -/
theorem exists_head (hsome : relatedEvents event window recent ≠ []) :
    ∃ x rest before after, strongestFirst (relatedEvents event window recent) = x :: rest ∧
      relatedEvents event window recent = before ++ x :: after ∧
      Strongest event window recent x ∧
      ∀ a ∈ before, a.found.confidence < x.found.confidence := by
  obtain ⟨before, x, after, heq, hbefore, hafter⟩ :=
    exists_first_largest (fun x : MatchedEvent event window => x.found.confidence) hsome
  obtain ⟨rest, hrest⟩ := head_insertionSort _ before x after hbefore hafter
  refine ⟨x, rest, before, after, ?_, heq, ⟨?_, ?_⟩, hbefore⟩
  · rw [strongestFirst, heq]
    exact hrest
  · rw [heq]
    exact mem_append_right _ mem_cons_self
  · intro y hy
    rw [heq] at hy
    rcases mem_append.1 hy with hy | hy
    · exact Nat.le_of_lt (hbefore y hy)
    · rcases mem_cons.1 hy with rfl | hy
      · exact Nat.le_refl _
      · exact hafter y hy

theorem Strongest.perm {recent' : List EventRecord} (h : recent'.Perm recent)
    (hx : Strongest event window recent' x) : Strongest event window recent x := by
  have hmem : ∀ y, y ∈ relatedEvents event window recent' ↔
      y ∈ relatedEvents event window recent := fun _ => (relatedEvents_perm h).mem_iff
  exact ⟨(hmem x).1 hx.1, fun y hy => hx.2 y ((hmem y).2 hy)⟩

/-- Two lists of the same events whose heads have one key make the same request. -/
theorem sameRequest_of_heads {rows' : List EventRecord} (hperm : rows.Perm rows')
    (hkey : ∀ x rest x' rest', strongestFirst (relatedEvents event window rows) = x :: rest →
      strongestFirst (relatedEvents event window rows') = x' :: rest' →
      x.found.correlationKey = x'.found.correlationKey) :
    SameRequest (correlationRequest event window rows) (correlationRequest event window rows') := by
  cases hcorrelatable : isCorrelatable event.eventType with
  | false =>
    rw [correlationRequest, correlationRequest, if_neg (by rw [hcorrelatable]; decide),
      if_neg (by rw [hcorrelatable]; decide)]
    trivial
  | true =>
    have hsorted : (strongestFirst (relatedEvents event window rows)).Perm
        (strongestFirst (relatedEvents event window rows')) :=
      ((perm_insertionSort _ _).trans (relatedEvents_perm hperm)).trans
        (perm_insertionSort _ _).symm
    cases hfirst : strongestFirst (relatedEvents event window rows) with
    | nil =>
      have hnil : strongestFirst (relatedEvents event window rows') = [] := by
        rw [hfirst] at hsorted
        exact nil_perm.1 hsorted
      rw [correlationRequest, correlationRequest, hfirst, hnil, if_pos hcorrelatable]
      cases soloKey event with
      | none => trivial
      | some key => exact ⟨rfl, rfl, rfl, rfl, rfl, rfl, Perm.refl _⟩
    | cons x rest =>
      cases hsecond : strongestFirst (relatedEvents event window rows') with
      | nil =>
        rw [hfirst, hsecond] at hsorted
        cases perm_nil.1 hsorted
      | cons x' rest' =>
        rw [correlationRequest_of_head hcorrelatable hfirst,
          correlationRequest_of_head hcorrelatable hsecond, hkey x rest x' rest' hfirst hsecond]
        rw [hfirst, hsecond] at hsorted
        exact sameRequest_of_perm _ hsorted

/-- The keys of two requests that are the same. -/
theorem key_of_sameRequest {rows' : List EventRecord}
    (hsame : SameRequest (correlationRequest event window rows)
      (correlationRequest event window rows')) {x' : MatchedEvent event window}
    {rest' : List (MatchedEvent event window)}
    (hfirst : strongestFirst (relatedEvents event window rows) = x :: rest)
    (hsecond : strongestFirst (relatedEvents event window rows') = x' :: rest') :
    x.found.correlationKey = x'.found.correlationKey := by
  have hcorrelatable : isCorrelatable event.eventType = true := by
    by_contra hnot
    have hnil := @relatedEvents_of_not_correlatable event window rows
      (Bool.not_eq_true _ ▸ hnot)
    rw [hnil] at hfirst
    cases hfirst
  rw [correlationRequest_of_head hcorrelatable hfirst,
    correlationRequest_of_head hcorrelatable hsecond] at hsame
  exact hsame.1

/-- The head of the sorted matches is the first of the strongest. -/
theorem head_spec (h : strongestFirst (relatedEvents event window rows) = x :: rest) :
    Strongest event window rows x ∧ ∃ before after,
      relatedEvents event window rows = before ++ x :: after ∧
      ∀ a ∈ before, a.found.confidence < x.found.confidence := by
  have hsome : relatedEvents event window rows ≠ [] := by
    intro hnil
    rw [hnil] at h
    cases h
  obtain ⟨x', rest', before, after, hsorted, heq, hstrongest, hbefore⟩ := exists_head hsome
  obtain ⟨rfl, -⟩ := cons.inj (h.symm.trans hsorted)
  exact ⟨hstrongest, before, after, heq, hbefore⟩

theorem relatedEvents_append (rows rows' : List EventRecord) :
    relatedEvents event window (rows ++ rows') =
      relatedEvents event window rows ++ relatedEvents event window rows' :=
  filterMap_append

theorem relatedEvents_cons (x : MatchedEvent event window) (rows : List EventRecord) :
    relatedEvents event window (x.record :: rows) = x :: relatedEvents event window rows := by
  obtain ⟨record, found, hcorrelated⟩ := x
  apply filterMap_cons_some
  split
  · rename_i found' hfound
    obtain rfl : found' = found := Option.some.inj (hfound.symm.trans hcorrelated)
    rfl
  · rename_i hnone
    rw [hcorrelated] at hnone
    cases hnone

/-! ## Any order -/

theorem any_order_iff :
    AnyOrder event window recent ↔ OneKey event window (Strongest event window recent) := by
  constructor
  · intro hany x y hx hy
    -- a strongest match whose record comes first heads the sorted matches
    have hfront : ∀ z, Strongest event window recent z → ∃ rest,
        strongestFirst (relatedEvents event window (z.record :: recent.erase z.record)) =
          z :: rest := by
      intro z hz
      obtain ⟨rest, hrest⟩ := head_insertionSort
        (fun x : MatchedEvent event window => x.found.confidence) [] z
        (relatedEvents event window (recent.erase z.record)) (by simp) (fun b hb => hz.2 b (mem_relatedEvents.2
          (mem_of_mem_erase (mem_relatedEvents.1 hb))))
      refine ⟨rest, ?_⟩
      rw [relatedEvents_cons]
      exact hrest
    have hperm : ∀ z, Strongest event window recent z →
        (z.record :: recent.erase z.record).Perm recent :=
      fun z hz => (perm_cons_erase (mem_relatedEvents.1 hz.1)).symm
    obtain ⟨restX, hX⟩ := hfront x hx
    obtain ⟨restY, hY⟩ := hfront y hy
    obtain ⟨m, restM, -, -, hM, -, -, -⟩ := exists_head (ne_nil_of_mem hx.1)
    exact (key_of_sameRequest (hany _ (hperm x hx)) hX hM).trans
      (key_of_sameRequest (hany _ (hperm y hy)) hY hM).symm
  · intro hone recent' hperm
    apply sameRequest_of_heads hperm
    intro x rest x' rest' hfirst hsecond
    exact hone x x' ((head_spec hfirst).1.perm hperm) (head_spec hsecond).1

/-! ## Any listing -/

theorem listed_related (h : Listed rows) :
    (relatedEvents event window rows).Pairwise
      (fun a b => b.record.occurredAt ≤ a.record.occurredAt) := by
  apply List.Pairwise.filterMap _ _ h
  intro a b hab x hx y hy
  split at hx
  · obtain rfl := Option.some.inj hx
    split at hy
    · obtain rfl := Option.some.inj hy
      exact hab
    · cases hy
  · cases hx

/-- In a listing, the head of the sorted matches is among the latest of the strongest. -/
theorem latestStrongest_of_head (hperm : rows.Perm recent) (hlisted : Listed rows)
    (h : strongestFirst (relatedEvents event window rows) = x :: rest) :
    LatestStrongest event window recent x := by
  obtain ⟨hstrongest, before, after, heq, hbefore⟩ := head_spec h
  refine ⟨hstrongest.perm hperm, fun y hy => ?_⟩
  have hy' : Strongest event window rows y := hy.perm hperm.symm
  have horder := @listed_related event window rows hlisted
  have hmem := hy'.1
  rw [heq] at horder hmem
  rcases mem_append.1 hmem with hmem | hmem
  · exact absurd (hbefore y hmem) (Nat.not_lt.2 (hy'.2 x hstrongest.1))
  · rcases mem_cons.1 hmem with rfl | hmem
    · exact Nat.le_refl _
    · exact (pairwise_cons.1 (pairwise_append.1 horder).2.1).1 y hmem

/-- Any of the latest strongest matches heads the sorted matches of some listing. -/
theorem exists_listing (h : LatestStrongest event window recent x) :
    ∃ rows rest, rows.Perm recent ∧ Listed rows ∧
      strongestFirst (relatedEvents event window rows) = x :: rest := by
  let listing := recent.insertionSort (fun a b => b.occurredAt ≤ a.occurredAt)
  have hperm : listing.Perm recent := perm_insertionSort _ _
  have hlisted : Listed listing := pairwise_insertionSort _ _
  let later : EventRecord → Bool := fun e => x.record.occurredAt < e.occurredAt
  have hx : x.record ∈ listing := hperm.mem_iff.2 (mem_relatedEvents.1 h.1.1)
  have hlater : later x.record = false := decide_eq_false (Nat.lt_irrefl _)
  let rest := (listing.erase x.record).filter (fun e => !later e)
  have hrest : ∀ b ∈ rest, b.occurredAt ≤ x.record.occurredAt := by
    intro b hb
    have hnot := (mem_filter.1 hb).2
    exact Nat.not_lt.1 (of_decide_eq_false (Bool.not_eq_true' _ ▸ hnot))
  have hmem : ∀ e, e ∈ listing.filter later ∨ e ∈ rest → e ∈ recent := by
    rintro e (he | he)
    · exact hperm.mem_iff.1 (mem_of_mem_filter he)
    · exact hperm.mem_iff.1 (mem_of_mem_erase (mem_of_mem_filter he))
  obtain ⟨sorted, hsorted⟩ := head_insertionSort
    (fun x : MatchedEvent event window => x.found.confidence)
    (relatedEvents event window (listing.filter later)) x (relatedEvents event window rest)
    (by
      intro a ha
      have ha' := mem_relatedEvents.2 (hmem _ (.inl (mem_relatedEvents.1 ha)))
      have hle := h.1.2 a ha'
      have hlate : x.record.occurredAt < a.record.occurredAt :=
        of_decide_eq_true (mem_filter.1 (mem_relatedEvents.1 ha)).2
      by_contra hnot
      have hequal : a.found.confidence = x.found.confidence := by omega
      have hstrongest : Strongest event window recent a :=
        ⟨ha', fun y hy => hequal ▸ h.1.2 y hy⟩
      exact absurd (h.2 a hstrongest) (Nat.not_le.2 hlate))
    (fun b hb => h.1.2 b (mem_relatedEvents.2 (hmem _ (.inr (mem_relatedEvents.1 hb)))))
  refine ⟨listing.filter later ++ x.record :: rest, sorted, ?_, ?_, ?_⟩
  · have hsplit : (listing.filter (fun e => !later e)).Perm (x.record :: rest) := by
      have hfilter := (perm_cons_erase hx).filter (fun e => !later e)
      rwa [filter_cons_of_pos (by rw [hlater]; rfl)] at hfilter
    exact ((hsplit.symm.append_left _).trans (filter_append_perm later listing)).trans hperm
  · refine pairwise_append.2 ⟨hlisted.filter _, pairwise_cons.2 ⟨hrest, ?_⟩, ?_⟩
    · exact (hlisted.sublist erase_sublist).filter _
    · intro a ha b hb
      have hlate : x.record.occurredAt < a.occurredAt :=
        of_decide_eq_true (mem_filter.1 ha).2
      rcases mem_cons.1 hb with rfl | hb
      · exact Nat.le_of_lt hlate
      · exact Nat.le_trans (hrest b hb) (Nat.le_of_lt hlate)
  · rw [relatedEvents_append, relatedEvents_cons]
    exact hsorted

theorem any_listing_iff :
    AnyListing event window recent ↔
      OneKey event window (LatestStrongest event window recent) := by
  constructor
  · intro hany x y hx hy
    obtain ⟨rows, rest, hperm, hlisted, hfirst⟩ := exists_listing hx
    obtain ⟨rows', rest', hperm', hlisted', hsecond⟩ := exists_listing hy
    exact key_of_sameRequest (hany rows rows' hperm hperm' hlisted hlisted') hfirst hsecond
  · intro hone rows rows' hperm hperm' hlisted hlisted'
    apply sameRequest_of_heads (hperm.trans hperm'.symm)
    intro x rest x' rest' hfirst hsecond
    exact hone x x' (latestStrongest_of_head hperm hlisted hfirst)
      (latestStrongest_of_head hperm' hlisted' hsecond)

end Requests

/-- What is independent of every order, and what is exactly when. -/
theorem order_counts_iff (left right event : EventRecord) (pairWindow : Int) (window : Nat)
    (recent events : List EventRecord) (found : List CorrelationMatch) :
    correlateWithin left right pairWindow = correlateWithin right left pairWindow ∧
      (AnyOrder event window recent ↔ OneKey event window (Strongest event window recent)) ∧
      (AnyListing event window recent ↔
        OneKey event window (LatestStrongest event window recent)) ∧
      (deriveOutcome events found).confidence ≤ 100 ∧
      (OutcomeKept events found ↔ BonusKept events found) := by
  refine ⟨?_, any_order_iff, any_listing_iff, Nat.min_le_right _ _, outcomeKept_iff events found⟩
  rw [correlateWithin, correlateWithin, correlate_comm]

/-! ## Two matches of one strength -/

/-- An event of a type and source that names the networks. -/
def signal (id : Uuid) (eventType source : String) (asns : List Nat) : EventRecord :=
  ⟨id, eventType, source, "medium", 0, none,
    .object [("asn", .array (asns.map (fun n => .number (.int n))))]⟩

def twoNetworks : EventRecord := signal 1 "rpki_invalid" "ris" [1, 2]

def firstNetwork : EventRecord := signal 2 "bgp_change" "bgp" [1]

def secondNetwork : EventRecord := signal 3 "bgp_change" "bgp" [2]

/-- Two matches of confidence 92 at one time: the order of the rows picks the key. -/
theorem row_order_picks_key :
    (correlationRequest twoNetworks 60 [firstNetwork, secondNetwork]).map
        CorrelationPersistence.correlationKey = some "indicator:1" ∧
      (correlationRequest twoNetworks 60 [secondNetwork, firstNetwork]).map
        CorrelationPersistence.correlationKey = some "indicator:2" ∧
      ¬ AnyListing twoNetworks 60 [firstNetwork, secondNetwork] := by
  have hfirst : (correlationRequest twoNetworks 60 [firstNetwork, secondNetwork]).map
      CorrelationPersistence.correlationKey = some "indicator:1" := by decide
  have hsecond : (correlationRequest twoNetworks 60 [secondNetwork, firstNetwork]).map
      CorrelationPersistence.correlationKey = some "indicator:2" := by decide
  refine ⟨hfirst, hsecond, fun hany => ?_⟩
  have hsame := hany [firstNetwork, secondNetwork] [secondNetwork, firstNetwork]
    (Perm.refl _) (Perm.swap _ _ _) (by unfold Listed; decide)
    (by unfold Listed; decide)
  cases hone : correlationRequest twoNetworks 60 [firstNetwork, secondNetwork] with
  | none => rw [hone] at hfirst; cases hfirst
  | some a =>
    cases htwo : correlationRequest twoNetworks 60 [secondNetwork, firstNetwork] with
    | none => rw [htwo] at hsecond; cases hsecond
    | some b =>
      rw [hone] at hsame hfirst
      rw [htwo] at hsame hsecond
      have hkeys := (Option.some.inj hfirst).symm.trans (hsame.1.trans (Option.some.inj hsecond))
      exact absurd hkeys (by decide)

end Clawforge.Correlation

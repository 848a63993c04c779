import Clawforge.Kit.Table
import Clawforge.Intelligence.Feeds

/-!
# Stored indicators and the synchronisation of a provider

The table `indicators` with `upsert_indicator` and `indicator_differs`, the consumer
that assesses the indicators of a feed, and `sync_provider`, which stores the feed
through the sink before it hands it to the consumer.
-/

namespace Clawforge.Intelligence

open Kit Table List Option

/-! ## The table -/

structure IndicatorRow where
  id : Nat
  value : String
  indicatorType : IndicatorType
  categories : List String
  confidence : Nat
  source : String
  firstSeen : Instant
  lastSeen : Instant
  expiresAt : Instant
  metadata : Json
deriving DecidableEq

/-- `UNIQUE (value, indicator_type, source)`. -/
abbrev IndicatorKey := String × IndicatorType × String

def IndicatorRow.key (row : IndicatorRow) : IndicatorKey :=
  (row.value, row.indicatorType, row.source)

def Indicator.key (i : Indicator) : IndicatorKey := (i.value, i.indicatorType, i.source)

structure RiskHistoryRow where
  indicatorId : Nat
  indicator : String
  source : String
  scoreChange : Int
  reason : String
  riskScore : Nat
  trustScore : Nat
deriving DecidableEq

/-- `IntelligenceEvent` without its time. -/
structure IntelligenceEvent where
  eventType : String
  source : String
  severity : String
  reason : String
  resource : String
  details : Json
deriving DecidableEq

structure Store where
  /-- the sequence behind `indicators.id` -/
  nextId : Nat
  indicators : Table IndicatorRow.key
  riskHistory : List RiskHistoryRow
  events : List IntelligenceEvent

def insertedRow (id : Nat) (i : Indicator) : IndicatorRow where
  id := id
  value := i.value
  indicatorType := i.indicatorType
  categories := i.categories
  confidence := i.confidence
  source := i.source
  firstSeen := i.firstSeen
  lastSeen := i.lastSeen
  expiresAt := i.expiresAt
  metadata := i.metadata

/-- `ON CONFLICT … DO UPDATE`: the id and the first sighting stay. -/
def refreshedRow (i : Indicator) (row : IndicatorRow) : IndicatorRow :=
  { row with
    categories := i.categories
    confidence := i.confidence
    lastSeen := i.lastSeen
    expiresAt := i.expiresAt
    metadata := i.metadata }

theorem key_refreshedRow (i : Indicator) (row : IndicatorRow) :
    (refreshedRow i row).key = row.key := rfl

/-- The table after the `INSERT … ON CONFLICT` of an indicator. -/
def upsertRow (T : Table IndicatorRow.key) (id : Nat) (i : Indicator) :
    Table IndicatorRow.key :=
  match T.insert? (insertedRow id i) with
  | some T' => T'
  | none => T.updateWhere (fun row => row.key = i.key) (refreshedRow i) (key_refreshedRow i)

/-- `upsert_indicator`, with the id it returns. -/
def upsertIndicator (s : Store) (i : Indicator) : Store × Nat :=
  let indicators := upsertRow s.indicators s.nextId i
  ({ s with nextId := s.nextId + 1, indicators },
    ((indicators.get? i.key).map IndicatorRow.id).getD s.nextId)

/-- `IndicatorSink::upsert_indicators`. -/
def upsertIndicators (s : Store) (indicators : List Indicator) : Store :=
  indicators.foldl (fun s i => (upsertIndicator s i).1) s

/-- `indicator_differs`. -/
def indicatorDiffers (s : Store) (i : Indicator) : Bool :=
  !(s.indicators.rows.any (fun row =>
    row.key = i.key && row.categories = i.categories && row.confidence = i.confidence))

/-! ## The consumer -/

structure RiskAssessment where
  riskScore : Nat
  trustScore : Nat
  negativeScore : Nat
  reasons : List String
deriving DecidableEq

/-- `RiskEngine::evaluate` of one indicator, without any observation or signal: no
trusted network matches, and no status adds to the score. -/
def evaluate (i : Indicator) : RiskAssessment :=
  let threat := min i.confidence 50
  let negative := min threat 100
  { riskScore := negative, trustScore := 0, negativeScore := negative, reasons := [] }

def reasonText (assessment : RiskAssessment) : String :=
  if assessment.reasons = [] then "provider indicator"
  else "; ".intercalate assessment.reasons

/-- The `new_threat_indicator` event of an indicator. -/
def newThreatIndicator (i : Indicator) : IntelligenceEvent :=
  let assessment := evaluate i
  { eventType := "new_threat_indicator"
    source := i.source
    severity := if assessment.riskScore ≥ 70 then "high" else "info"
    reason := reasonText assessment
    resource := i.value
    details := Json.ofFields [("risk_score", .number (.int assessment.riskScore)),
      ("trust_score", .number (.int assessment.trustScore))] }

/-- What `RiskConsumer::consume` does with one indicator. -/
def consumeIndicator (s : Store) (i : Indicator) : Store :=
  let assessment := evaluate i
  -- what is new is decided before the upsert overwrites the stored view
  let changed := indicatorDiffers s i
  let (stored, id) := upsertIndicator s i
  let recorded := { stored with
    riskHistory := stored.riskHistory ++
      [{ indicatorId := id, indicator := i.value, source := i.source
         scoreChange := assessment.negativeScore, reason := reasonText assessment
         riskScore := assessment.riskScore, trustScore := assessment.trustScore }] }
  if changed then { recorded with events := recorded.events ++ [newThreatIndicator i] }
  else recorded

/-- `RiskConsumer::consume`. -/
def consume (s : Store) (indicators : List Indicator) : Store :=
  indicators.foldl consumeIndicator s

/-! ## Synchronising a provider -/

/-- `sync_provider`, given what the fetch returned. -/
def syncProvider (env : Env) (p : HttpFeedProvider) (fetched : Except ProviderError RawFeed)
    (s : Store) : Except ProviderError (Store × Nat) := do
  let feed ← fetched
  validate env p feed
  let indicators ← normalize env p feed
  let stored := upsertIndicators s indicators
  return (consume stored indicators, indicators.length)

/-! ## Rows after an upsert -/

theorem key_insertedRow (id : Nat) (i : Indicator) : (insertedRow id i).key = i.key := rfl

/-- The row an upsert leaves under a key. -/
theorem get?_upsertRow (T : Table IndicatorRow.key) (id : Nat) (i : Indicator)
    (k : IndicatorKey) :
    (upsertRow T id i).get? k =
      if k = i.key then
        some (((T.get? i.key).map (refreshedRow i)).getD (insertedRow id i))
      else T.get? k := by
  unfold upsertRow
  cases hins : T.insert? (insertedRow id i) with
  | some T' =>
    have hfree : T.get? i.key = none :=
      get?_eq_none.2 (fun x hx => key_ne_of_insert? hins hx)
    rw [get?_insert? hins, key_insertedRow, hfree]
    rfl
  | none =>
    have htaken : T.get? i.key ≠ none := by
      intro hnone
      have hsome : (T.insert? (insertedRow id i)).isSome = true :=
        insert?_isSome.2 (get?_eq_none.1 hnone)
      rw [hins] at hsome
      cases hsome
    obtain ⟨row, hrow⟩ := ne_none_iff_exists'.1 htaken
    show (T.updateWhere _ _ _).get? k = _
    rw [get?_updateWhere]
    by_cases hk : k = i.key
    · rw [if_pos hk, hk, hrow, map_some, map_some,
        if_pos (key_of_get? hrow)]
      rfl
    · rw [if_neg hk]
      cases hg : T.get? k with
      | none => rfl
      | some x => rw [map_some, if_neg (fun he => hk ((key_of_get? hg).symm.trans he))]

theorem get?_upsertIndicator (s : Store) (i : Indicator) (k : IndicatorKey) :
    (upsertIndicator s i).1.indicators.get? k =
      if k = i.key then
        some (((s.indicators.get? i.key).map (refreshedRow i)).getD (insertedRow s.nextId i))
      else s.indicators.get? k :=
  get?_upsertRow ..

/-- An indicator is unchanged exactly if the row under its key has its categories and its
confidence. -/
theorem indicatorDiffers_eq_false {s : Store} {i : Indicator} :
    indicatorDiffers s i = false ↔ ∃ row, s.indicators.get? i.key = some row ∧
      row.categories = i.categories ∧ row.confidence = i.confidence := by
  rw [indicatorDiffers, Bool.not_eq_false', List.any_eq_true]
  constructor
  · rintro ⟨row, hrow, h⟩
    simp only [Bool.and_eq_true, decide_eq_true_eq] at h
    exact ⟨row, get?_eq_some.2 ⟨hrow, h.1.1⟩, h.1.2, h.2⟩
  · rintro ⟨row, hrow, hcat, hconf⟩
    obtain ⟨hmem, hkey⟩ := get?_eq_some.1 hrow
    refine ⟨row, hmem, ?_⟩
    simp only [Bool.and_eq_true, decide_eq_true_eq]
    exact ⟨⟨hkey, hcat⟩, hconf⟩

theorem mem_dedupFrom {same : Indicator → Indicator → Bool} {xs : List Indicator}
    {kept i : Indicator} (h : i ∈ dedupFrom same kept xs) : i = kept ∨ i ∈ xs := by
  induction xs generalizing kept with
  | nil => exact .inl (mem_singleton.1 h)
  | cons x rest ih =>
    rw [dedupFrom] at h
    split at h
    · rcases ih h with rfl | hrest
      · exact .inl rfl
      · exact .inr (mem_cons_of_mem _ hrest)
    · rcases mem_cons.1 h with rfl | htail
      · exact .inl rfl
      · exact .inr (mem_cons.2 (ih htail))

theorem mem_deduplicate {xs : List Indicator} {i : Indicator} (h : i ∈ deduplicate xs) :
    i ∈ xs := by
  unfold deduplicate dedupBy at h
  split at h
  · exact absurd h not_mem_nil
  · rename_i x rest hsorted
    have hmem : i ∈ x :: rest := mem_cons.2 (mem_dedupFrom h)
    rw [← hsorted, mem_insertionSort] at hmem
    exact hmem

end Clawforge.Intelligence

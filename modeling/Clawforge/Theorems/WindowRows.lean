import Clawforge.Theorems.Findings

/-!
# The rows of one window

Every evaluation of a window upserts under the window's key: it writes the row of that key
and leaves the rows of all others alone.
-/

namespace Clawforge.SecurityEngine

open Assessments EventDelivery Kit

instance : Std.Total Earlier := ⟨fun a b => Nat.le_total a.occurredAt b.occurredAt⟩

instance : IsTrans Event Earlier := ⟨fun _ _ _ => Nat.le_trans⟩

/-- The assessments under a dedupe key. -/
def rowsAt (s : AssessmentStore) (key : String) : Set AssessmentRow :=
  {row | row ∈ s.assessments ∧ row.dedupeKey = key}

/-! ## One upsert -/

section Upsert

variable {s : AssessmentStore} {request : SecurityAssessmentUpsert} {key : String}

theorem rowsAt_persist_of_ne (h : request.dedupeKey ≠ key) :
    rowsAt (persistSecurityAssessment s request).1 key = rowsAt s key := by
  ext row
  constructor
  · rintro ⟨hrow, hkey⟩
    rcases mem_upsertAssessment.1 hrow with ⟨old, hold, rfl⟩ | ⟨-, rfl⟩
    · by_cases hsame : old.dedupeKey = request.dedupeKey
      · rw [if_pos hsame] at hkey
        exact absurd (hsame.symm.trans hkey) h
      · rw [if_neg hsame] at hkey ⊢
        exact ⟨hold, hkey⟩
    · exact absurd hkey h
  · rintro ⟨hrow, hkey⟩
    refine ⟨mem_upsertAssessment.2 (Or.inl ⟨row, hrow, ?_⟩), hkey⟩
    rw [if_neg (fun hsame => h (hsame.symm.trans hkey))]

/-- The first upsert of a key inserts its row. -/
theorem rowsAt_persist_new (request : SecurityAssessmentUpsert)
    (h : rowsAt s request.dedupeKey = ∅) :
    rowsAt (persistSecurityAssessment s request).1 request.dedupeKey =
      {request.row (freshId s.assessments)} := by
  have hfree : ∀ old ∈ s.assessments, old.dedupeKey ≠ request.dedupeKey := by
    intro old hold hkey
    have hmem : old ∈ rowsAt s request.dedupeKey := ⟨hold, hkey⟩
    rw [h] at hmem
    exact hmem
  ext row
  constructor
  · rintro ⟨hrow, hkey⟩
    rcases mem_upsertAssessment.1 hrow with ⟨old, hold, rfl⟩ | ⟨-, rfl⟩
    · rw [if_neg (hfree old hold)] at hkey
      exact absurd hkey (hfree old hold)
    · rfl
  · rintro rfl
    exact ⟨mem_upsertAssessment.2 (Or.inr ⟨hfree, rfl⟩), rfl⟩

/-- Every later one refreshes it. -/
theorem rowsAt_persist_old (h : (rowsAt s request.dedupeKey).Nonempty) :
    rowsAt (persistSecurityAssessment s request).1 request.dedupeKey =
      refreshed request '' rowsAt s request.dedupeKey := by
  ext row
  constructor
  · rintro ⟨hrow, hkey⟩
    rcases mem_upsertAssessment.1 hrow with ⟨old, hold, rfl⟩ | ⟨hfree, -⟩
    · by_cases hsame : old.dedupeKey = request.dedupeKey
      · rw [if_pos hsame]
        exact ⟨old, ⟨hold, hsame⟩, rfl⟩
      · rw [if_neg hsame] at hkey
        exact absurd hkey hsame
    · obtain ⟨old, hold, hsame⟩ := h
      exact absurd hsame (hfree old hold)
  · rintro ⟨old, ⟨hold, hsame⟩, rfl⟩
    refine ⟨mem_upsertAssessment.2 (Or.inl ⟨old, hold, ?_⟩), hsame⟩
    rw [if_pos hsame]

/-- The row has what an upsert overwrites. -/
structure Overwritten (request : SecurityAssessmentUpsert) (row : AssessmentRow) : Prop where
  severity : row.severity = request.severity
  confidence : row.confidence = request.confidence
  eventCount : row.eventCount = request.eventCount
  lastSeen : row.lastSeen = request.lastSeen

/-- After an upsert there is a row, the overwritten columns are the request's, and no row is
lost. -/
theorem rowsAt_persist (s : AssessmentStore) (request : SecurityAssessmentUpsert) :
    (rowsAt (persistSecurityAssessment s request).1 request.dedupeKey).Nonempty ∧
      (∀ row ∈ rowsAt (persistSecurityAssessment s request).1 request.dedupeKey,
        Overwritten request row) ∧
      ∀ old ∈ rowsAt s request.dedupeKey,
        ∃ row ∈ rowsAt (persistSecurityAssessment s request).1 request.dedupeKey,
          row.id = old.id := by
  rcases Set.eq_empty_or_nonempty (rowsAt s request.dedupeKey) with hnone | hsome
  · rw [rowsAt_persist_new request hnone, hnone]
    refine ⟨Set.singleton_nonempty _, ?_, fun old hold => hold.elim⟩
    rintro row rfl
    exact ⟨rfl, rfl, rfl, rfl⟩
  · rw [rowsAt_persist_old hsome]
    refine ⟨hsome.image _, ?_, fun old hold => ⟨_, ⟨old, hold, rfl⟩, rfl⟩⟩
    rintro row ⟨old, -, rfl⟩
    exact ⟨rfl, rfl, rfl, rfl⟩

end Upsert

/-! ## One evaluation -/

/-- The request of `persist_assessment_and_incident`. -/
def requestOf (env : Env) (s : AssessmentStore) (ruleId ruleVersion : String)
    (windowSeconds : Nat) (b : Bucket) (members : List Event) (event : EventRecord)
    (severity : String) (confidence : Int) (summary : String) : SecurityAssessmentUpsert where
  ruleId := ruleId
  ruleVersion := ruleVersion
  engineVersion := env.engineVersion
  dedupeKey := dedupeKeyOf ruleId ruleVersion b.correlationId b.start
  resource := b.correlationId
  severity := severity
  confidence := confidence
  summary := summary
  eventCount := members.length
  windowSeconds := windowSeconds
  bucketStart := b.start
  firstSeen := (members.head?.map Event.occurredAt).getD event.occurredAt
  lastSeen := (members.getLast?.map Event.occurredAt).getD event.occurredAt
  eventIds := members.map Event.eventId
  threatIntel := bucketThreatIntelHitDetails env s.events b

theorem persistAssessment_eq (env : Env) (s : AssessmentStore) (ruleId ruleVersion : String)
    (windowSeconds : Nat) (b : Bucket) (members : List Event) (event : EventRecord)
    (severity : String) (confidence : Int) (summary : String) :
    persistAssessment env s ruleId ruleVersion windowSeconds b members event severity confidence
      summary = (persistSecurityAssessment s (requestOf env s ruleId ruleVersion windowSeconds b
        members event severity confidence summary)).1 := rfl

/-- The key of a rule's window. -/
def Rule.key (rule : Rule) (b : Bucket) : String :=
  dedupeKeyOf rule.ruleId rule.ruleVersion b.correlationId b.start

/-- All an evaluation can do: nothing, or one upsert under the window's key. -/
theorem evaluateAt_cases (env : Env) (event : EventRecord) (correlationId : String)
    (s : AssessmentStore) (spot : Rule × Int) :
    Rule.evaluateAt env event correlationId s spot = s ∨
      ∃ request : SecurityAssessmentUpsert,
        request.dedupeKey = spot.1.key (windowOf event correlationId spot) ∧
        Rule.evaluateAt env event correlationId s spot =
          (persistSecurityAssessment s request).1 := by
  obtain ⟨rule, offset⟩ := spot
  cases rule with
  | count rule =>
    rw [Rule.evaluateAt, evaluateWindow]
    split_ifs
    · exact .inl rfl
    · exact .inl rfl
    · exact .inr ⟨_, rfl, persistAssessment_eq ..⟩
  | distinct rule =>
    rw [Rule.evaluateAt, evaluateScanWindow]
    split_ifs
    · exact .inl rfl
    · exact .inr ⟨_, rfl, persistAssessment_eq ..⟩

/-- An evaluation leaves the rows of other windows alone. -/
theorem rowsAt_evaluateAt_of_ne (env : Env) {event : EventRecord} {correlationId : String}
    (s : AssessmentStore) (spot : Rule × Int) {key : String}
    (h : spot.1.key (windowOf event correlationId spot) ≠ key) :
    rowsAt (Rule.evaluateAt env event correlationId s spot) key = rowsAt s key := by
  rcases evaluateAt_cases env event correlationId s spot with hsame | ⟨request, hkey, hpersist⟩
  · rw [hsame]
  · rw [hpersist]
    exact rowsAt_persist_of_ne (hkey ▸ h)

@[simp] theorem events_evaluateAt (env : Env) (event : EventRecord) (correlationId : String)
    (s : AssessmentStore) (spot : Rule × Int) :
    (Rule.evaluateAt env event correlationId s spot).events = s.events := by
  rcases evaluateAt_cases env event correlationId s spot with hsame | ⟨request, -, hpersist⟩
  · rw [hsame]
  · rw [hpersist]
    rfl

/-- The key of a rule's window tells the rule and the window. -/
theorem window_of_key (spot spot' : Rule × Int) (hrule : spot.1 ∈ allRules)
    (hrule' : spot'.1 ∈ allRules) {event event' : EventRecord} {c c' : String}
    (h : spot.1.key (windowOf event c spot) = spot'.1.key (windowOf event' c' spot')) :
    spot.1 = spot'.1 ∧ windowOf event c spot = windowOf event' c' spot' := by
  obtain ⟨n, hn⟩ := start_windowOf event c spot
  obtain ⟨m, hm⟩ := start_windowOf event' c' spot'
  obtain ⟨hsame, hresource, hsecond⟩ := dedupeKeyOf_injective hrule hrule' h
  rw [hn, hm, timestamp_atSecond, timestamp_atSecond] at hsecond
  refine ⟨hsame, ?_⟩
  have hcorrelation : ∀ (event : EventRecord) (c : String) (spot : Rule × Int),
      (windowOf event c spot).correlationId = c ∧
        windowOf event c spot = spot.1.bucket c (windowOf event c spot).start := by
    rintro event c ⟨rule, offset⟩
    cases rule <;> exact ⟨rfl, rfl⟩
  rw [(hcorrelation event c spot).1, (hcorrelation event' c' spot').1] at hresource
  rw [(hcorrelation event c spot).2, (hcorrelation event' c' spot').2, hn, hm, hsame, hresource,
    hsecond]

end Clawforge.SecurityEngine

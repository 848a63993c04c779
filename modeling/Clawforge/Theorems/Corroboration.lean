import Clawforge.PolicyEngine.Evaluate
import Clawforge.Theorems.Findings
import Clawforge.Theorems.ReputationCasts

/-!
# One observation does not corroborate itself

A block needs a second source. Further assessments built from the same events are none:
they have no family of their own, and the current episode, which they may only lengthen
backwards, takes earlier activity out of the history instead of adding to it
(`history_le`).
-/

namespace Clawforge.SecurityEngine

open Assessments EventDelivery Kit Table List Option

/-! ## The instants of an assessment -/

/-- The first and the last event lie in the window of the assessment. -/
def InWindow (row : AssessmentRow) : Prop :=
  (row.bucketStart ≤ row.firstSeen ∧
    (row.firstSeen : Int) < row.bucketStart + seconds row.windowSeconds) ∧
  (row.bucketStart ≤ row.lastSeen ∧
    (row.lastSeen : Int) < row.bucketStart + seconds row.windowSeconds)

theorem inWindow_of_holds {b : Bucket} {e : Event} (h : b.holds e = true) :
    b.start ≤ e.occurredAt ∧ (e.occurredAt : Int) < b.stop := by
  unfold Bucket.holds at h
  simp only [Bool.and_eq_true, decide_eq_true_eq] at h
  exact ⟨h.1.1.2, h.1.2⟩

section Persist

variable {env : Env} {s : AssessmentStore} (rule : Rule) {b : Bucket} {members : List Event}
  {event : EventRecord} {severity : String} {confidence : Int} {summary : String}

/-- An assessment persisted from events of its window has its instants in the window. -/
theorem inWindow_persistAssessment (hs : Sound s) (hrows : ∀ row ∈ s.assessments, InWindow row)
    (hrule : rule ∈ allRules) {n : Int} (hb : b.start = atSecond n)
    (hstop : b.stop = b.start + seconds rule.windowSeconds) (hne : members ≠ [])
    (hmembers : ∀ e ∈ members, b.holds e = true) :
    ∀ row ∈ (persistAssessment env s rule.ruleId rule.ruleVersion rule.windowSeconds b members
      event severity confidence summary).assessments, InWindow row := by
  have hunique : ∀ x ∈ allRules, ∀ y ∈ allRules, x.ruleId = y.ruleId → x = y := by decide
  obtain ⟨first, hfirst⟩ := isSome_iff_exists.1 (isSome_head?.2 hne)
  have hlast := getLast?_eq_some_getLast hne
  have hfirstin := inWindow_of_holds (hmembers first (mem_of_mem_head? hfirst))
  have hlastin := inWindow_of_holds (hmembers _ (getLast_mem hne))
  rw [hstop] at hfirstin hlastin
  intro row hrow
  rcases mem_upsertAssessment.1 hrow with ⟨old, hold, rfl⟩ | ⟨-, rfl⟩
  · split
    case isTrue hkey =>
      -- the window of the row is the window of the rule
      have hfinding := findingOf_of_dedupeKey hrule hb (hs old hold) hkey
      obtain ⟨r, hr, -, hid, -, hwindow, -⟩ := hs old hold
      have hsame : r = rule :=
        hunique r hr rule hrule (hid.symm.trans (congrArg Finding.ruleId hfinding))
      have hstart : old.bucketStart = b.start := congrArg Finding.bucketStart hfinding
      refine ⟨(hrows old hold).1, ?_⟩
      show old.bucketStart ≤ _ ∧ _ < old.bucketStart + seconds old.windowSeconds
      rw [hwindow, hsame, hstart]
      simp only [refreshed, hlast, map_some, getD_some]
      exact hlastin
    case isFalse => exact hrows old hold
  · unfold InWindow SecurityAssessmentUpsert.row
    simp only [hfirst, hlast, map_some, getD_some]
    exact ⟨hfirstin, hlastin⟩

end Persist

theorem threshold_pos_of_count {r : CountThresholdRule} (h : Rule.count r ∈ allRules) :
    0 < r.threshold := by
  have hthreshold : ∀ x ∈ rules, 0 < x.threshold := by decide
  rcases mem_append.1 h with h | h
  · obtain ⟨x, hx, heq⟩ := List.mem_map.1 h
    cases heq
    exact hthreshold _ hx
  · obtain ⟨x, -, heq⟩ := List.mem_map.1 h
    cases heq

theorem threshold_pos_of_distinct {r : DistinctValueThresholdRule}
    (h : Rule.distinct r ∈ allRules) : 0 < r.threshold := by
  have hthreshold : ∀ x ∈ distinctValueRules, 0 < x.threshold := by decide
  rcases mem_append.1 h with h | h
  · obtain ⟨x, -, heq⟩ := List.mem_map.1 h
    cases heq
  · obtain ⟨x, hx, heq⟩ := List.mem_map.1 h
    cases heq
    exact hthreshold _ hx

theorem inWindow_evaluateAt (env : Env) (event : EventRecord) (correlationId : String)
    {s : AssessmentStore} (hs : Sound s) (hrows : ∀ row ∈ s.assessments, InWindow row)
    {spot : Rule × Int} (hspot : spot.1 ∈ allRules) :
    ∀ row ∈ (Rule.evaluateAt env event correlationId s spot).assessments, InWindow row := by
  obtain ⟨n, hn⟩ := start_windowOf event correlationId spot
  have hstop := stop_windowOf event correlationId spot
  generalize hwindow : windowOf event correlationId spot = b at hn hstop
  obtain ⟨rule, offset⟩ := spot
  cases rule with
  | count r =>
    have hbucket : r.bucket correlationId
        (bucketStart event.occurredAt r.windowSeconds offset) = b := hwindow
    show ∀ row ∈ (evaluateWindow env r event correlationId s offset).assessments, InWindow row
    unfold evaluateWindow
    dsimp only
    rw [hbucket]
    split
    case isTrue => exact hrows
    case isFalse hmany =>
      split
      case isTrue => exact hrows
      case isFalse =>
        have hpositive := threshold_pos_of_count hspot
        refine inWindow_persistAssessment (.count r) hs hrows hspot hn hstop ?_ ?_
        · exact ne_nil_of_length_pos (by omega)
        · intro e he
          unfold listEventsForBucketLimited at he
          have hmem := mem_of_mem_take he
          rw [mem_insertionSort] at hmem
          exact of_mem_filter hmem
  | distinct r =>
    have hbucket : r.bucket correlationId
        (bucketStart event.occurredAt r.windowSeconds offset) = b := hwindow
    show ∀ row ∈ (evaluateScanWindow env r event correlationId s offset).assessments, InWindow row
    unfold evaluateScanWindow
    dsimp only
    rw [hbucket]
    split
    case isTrue => exact hrows
    case isFalse hmany =>
      refine inWindow_persistAssessment (.distinct r) hs hrows hspot hn hstop ?_ ?_
      · intro hnone
        have hpositive := threshold_pos_of_distinct hspot
        rw [map_eq_nil_iff] at hnone
        rw [hnone] at hmany
        exact hmany hpositive
      · intro e he
        unfold listEventsForBucketWithField at he
        rw [List.map_map] at he
        obtain ⟨x, hx, rfl⟩ := List.mem_map.1 he
        have hmem := mem_of_mem_take hx
        rw [mem_insertionSort] at hmem
        exact of_mem_filter hmem

theorem inWindow_run (env : Env) (turns : List (Turn Event)) :
    ∀ row ∈ (run env turns).assessments, InWindow row := by
  induction turns using reverseRecOn with
  | nil => exact fun row hrow => absurd hrow not_mem_empty
  | append_singleton turns t ih =>
    have hsound := (run_sound env turns).1
    rw [run_snoc, turn]
    cases hresource : (recordOf t.item).resource with
    | none =>
      rw [processDelivery_blank env _ _ hresource]
      exact ih
    | some c =>
      rw [processDelivery_eq env _ _ hresource]
      have hspots : ∀ p ∈ spots (recordOf t.item).eventType, p.1 ∈ allRules :=
        fun p hp => (mem_allRules_of_mem_spots hp).1
      generalize spots (recordOf t.item).eventType = ps at hspots ⊢
      have hstored : Sound { run env turns with
          events := (run env turns).events ++ t.stored } := hsound
      have hin : ∀ row ∈ ({ run env turns with
          events := (run env turns).events ++ t.stored } : AssessmentStore).assessments,
          InWindow row := ih
      generalize ({ run env turns with
          events := (run env turns).events ++ t.stored } : AssessmentStore) = s at hstored hin ⊢
      clear ih hsound
      -- one spot after the other
      induction ps generalizing s with
      | nil => exact hin
      | cons p ps ih =>
        have hp := hspots p mem_cons_self
        exact ih (fun q hq => hspots q (mem_cons_of_mem _ hq)) _
          (findings_evaluateAt env _ c hstored hp).1
          (inWindow_evaluateAt env _ c hstored hin hp)

end Clawforge.SecurityEngine

namespace Clawforge.PolicyEngine

open Assessments Bridge EventDelivery Kit Policies Reputation Table List Option

/-! ## The history of two stores -/

/-- No assessment begins more than the episode gap after its end, as none does whose instants
lie in one window (`timely_run`). -/
def Timely (s : AssessmentStore) : Prop :=
  ∀ row ∈ s.assessments, (row.firstSeen : Int) ≤ row.lastSeen + episodeGapSeconds * 1000000

/-- The larger store has further assessments of the resource, of no family but the
assessment's and in its current episode, and nothing else. -/
structure Further (s s' : AssessmentStore) (a : AssessmentRow) (extra : List AssessmentRow) :
    Prop where
  events : s'.events = s.events
  rows : s'.assessments.rows.Perm (s.assessments.rows ++ extra)
  evidence : ∀ id, (∀ x ∈ extra, x.id ≠ id) → ∀ e, (id, e) ∈ s'.evidence ↔ (id, e) ∈ s.evidence
  other : ∀ x ∈ extra, x.id ≠ a.id
  resource : ∀ x ∈ extra, x.resource = a.resource
  family : ∀ x ∈ extra, ∀ t ∈ assessmentEventTypes s' x.id, t ∈ assessmentEventTypes s' a.id
  episode : ∀ x ∈ extra, ∀ start, episodeStart s' a.resource a.id (episodeGapSeconds * 1000000)
    observationOnlyRules = some start → start - episodeGapSeconds * 1000000 ≤ x.lastSeen

section Further

variable {s s' : AssessmentStore} {a : AssessmentRow} {extra : List AssessmentRow}
  {ignoreRules : List String} {start : Int} {id : Uuid} {resource : String} {start' : Int}

section

variable (h : Further s s' a extra)
include h

theorem Further.mem_iff {row : AssessmentRow} :
    row ∈ s'.assessments ↔ row ∈ s.assessments ∨ row ∈ extra := by
  rw [Table.mem_def, h.rows.mem_iff, mem_append]
  rfl

/-- The ids of further assessments are new. -/
theorem Further.new : ∀ x ∈ extra, ∀ y ∈ s.assessments, x.id ≠ y.id := by
  have hunique := s'.assessments.unique
  rw [(h.rows.map AssessmentRow.id).nodup_iff, map_append, nodup_append] at hunique
  intro x hx y hy hid
  exact hunique.2.2 y.id (List.mem_map_of_mem hy) x.id (List.mem_map_of_mem hx) hid.symm

theorem Further.get?_eq : s'.assessments.get? a.id = s.assessments.get? a.id := by
  cases hg : s.assessments.get? a.id with
  | some row =>
    obtain ⟨hrow, hid⟩ := get?_eq_some.1 hg
    exact get?_eq_some.2 ⟨h.mem_iff.2 (.inl hrow), hid⟩
  | none =>
    rw [get?_eq_none] at hg ⊢
    intro row hrow
    rcases h.mem_iff.1 hrow with hrow | hrow
    · exact hg row hrow
    · exact h.other row hrow

theorem Further.memberEvents_eq (hid : ∀ x ∈ extra, x.id ≠ id) :
    memberEvents s' id = memberEvents s id := by
  unfold memberEvents
  rw [h.events]
  apply filter_congr
  intro e _
  rw [Bool.eq_iff_iff, contains_iff_mem, contains_iff_mem]
  exact h.evidence id hid e.eventId

theorem Further.eventTypes_eq (hid : ∀ x ∈ extra, x.id ≠ id) :
    assessmentEventTypes s' id = assessmentEventTypes s id := by
  unfold assessmentEventTypes
  rw [h.memberEvents_eq hid]

end

/-- Families that share all of one are not disjoint. -/
theorem disjointFamilies_of_subset {t u : List String} (h : ∀ x ∈ u, x ∈ t) :
    disjointFamilies t u = false := by
  unfold disjointFamilies
  cases u with
  | nil => simp
  | cons x rest => simp [h x mem_cons_self]

/-- Further assessments of the same family are not independent of it. -/
theorem Further.independent_eq (h : Further s s' a extra) (since : Int)
    (ignoreRules : List String) :
    resourceHasIndependentFamilyAssessment s' a.resource a.id since ignoreRules =
      resourceHasIndependentFamilyAssessment s a.resource a.id since ignoreRules := by
  have htypes := h.eventTypes_eq h.other
  have hnew := h.new
  rw [Bool.eq_iff_iff]
  unfold resourceHasIndependentFamilyAssessment
  rw [List.any_eq_true, List.any_eq_true]
  constructor
  · rintro ⟨o, ho, hcond⟩
    rcases h.mem_iff.1 ho with ho | ho
    · refine ⟨o, ho, ?_⟩
      rwa [htypes, h.eventTypes_eq (fun x hx => hnew x hx o ho)] at hcond
    · rw [disjointFamilies_of_subset (h.family o ho), Bool.and_false] at hcond
      cases hcond
  · rintro ⟨o, ho, hcond⟩
    refine ⟨o, h.mem_iff.2 (.inl ho), ?_⟩
    rwa [htypes, h.eventTypes_eq (fun x hx => hnew x hx o ho)]

/-! ### Episodes -/

theorem mem_spansFor {x : Int × Int} : x ∈ spansFor s resource ignoreRules ↔
      ∃ row ∈ s.assessments, countsFor resource ignoreRules row = true ∧ spanOf row = x := by
  unfold spansFor
  simp [Table.mem_def, and_assoc]

/-- The start of an episode is the least instant of a chain that leads no further back. -/
theorem episodeStart_eq_some {gap : Int}
    (h : episodeStart s resource id gap ignoreRules = some start) :
    ∃ row, s.assessments.get? id = some row ∧
      ∃ chain : List Int, (row.firstSeen : Int) ∈ chain ∧ start ∈ chain ∧
        (∀ c ∈ chain, start ≤ c) ∧
        Closed gap (spansFor s resource ignoreRules) (fun c => c ∈ chain) ∧
        ∀ X : Int → Prop, Closed gap (spansFor s resource ignoreRules) X → X row.firstSeen →
          ∀ c ∈ chain, X c := by
  obtain ⟨row, hrow, hmin⟩ := bind_eq_some_iff.1 h
  rw [min?_eq_some_iff] at hmin
  refine ⟨row, hrow, _, mem_reach_of_mem (mem_singleton_self _), hmin.1, hmin.2,
    closed_reach le_rfl, fun X hX hfirst => reach_subset hX (fun c hc => ?_)⟩
  rw [mem_singleton.1 hc]
  exact hfirst

/-- No assessment that counts begins before the episode and ends within the gap of it. -/
theorem start_le_of_near {gap : Int} (h : episodeStart s resource id gap ignoreRules = some start)
    {row : AssessmentRow} (hrow : row ∈ s.assessments)
    (hcounts : countsFor resource ignoreRules row = true) (hnear : start - gap ≤ row.lastSeen) :
    start ≤ row.firstSeen := by
  obtain ⟨-, -, chain, -, hmem, hleast, hclosed, -⟩ := episodeStart_eq_some h
  by_contra hlt
  have hjoined := hclosed (spanOf row) (mem_spansFor.2 ⟨row, hrow, hcounts, rfl⟩) start hmem
    (not_le.1 hlt) hnear
  exact hlt (hleast _ hjoined)

/-- In the larger store the episode begins no later. -/
theorem Further.start_le (h : Further s s' a extra) {gap : Int}
    (hs : episodeStart s a.resource a.id gap ignoreRules = some start)
    (hs' : episodeStart s' a.resource a.id gap ignoreRules = some start') : start' ≤ start := by
  obtain ⟨row, hrow, chain, -, hmem, -, -, hleast⟩ := episodeStart_eq_some hs
  obtain ⟨row', hrow', chain', hfirst', -, hleast', hclosed', -⟩ := episodeStart_eq_some hs'
  have hsame : row' = row := by
    rw [h.get?_eq, hrow] at hrow'
    exact (some.inj hrow').symm
  subst hsame
  -- what is reached in the smaller store is reached in the larger one
  have hclosed : Closed gap (spansFor s a.resource ignoreRules) (fun c => c ∈ chain') := by
    intro x hx
    obtain ⟨r, hr, hcounts, rfl⟩ := mem_spansFor.1 hx
    exact hclosed' (spanOf r) (mem_spansFor.2 ⟨r, h.mem_iff.2 (.inl hr), hcounts, rfl⟩)
  exact hleast' _ (hleast _ hclosed hfirst' start hmem)

theorem Further.episodeStart_isSome (h : Further s s' a extra) (gap : Int)
    (ignoreRules : List String) : (episodeStart s' a.resource a.id gap ignoreRules).isSome =
      (episodeStart s a.resource a.id gap ignoreRules).isSome := by
  unfold episodeStart
  rw [h.get?_eq]
  cases s.assessments.get? a.id with
  | none => rfl
  | some row =>
    rw [bind_some, bind_some, Bool.eq_iff_iff]
    simp only [isSome_min?_iff]
    constructor <;> exact fun _ => ne_nil_of_mem
      (mem_reach_of_mem (mem_singleton_self _))

/-! ### Prior spans -/

/-- What is over more than the gap before the later start, and not before the earlier one. -/
def between (s : AssessmentStore) (a : AssessmentRow) (gap start start' : Int) :
    List (Int × Int) :=
  (s.assessments.rows.filter (fun o => countsFor a.resource observationOnlyRules o &&
    o.id ≠ a.id && (o.lastSeen : Int) < start - gap && !((o.lastSeen : Int) < start' - gap))).map
      spanOf

theorem Further.prior_perm (h : Further s s' a extra)
    (hs : episodeStart s a.resource a.id (episodeGapSeconds * 1000000) observationOnlyRules =
      some start)
    (hs' : episodeStart s' a.resource a.id (episodeGapSeconds * 1000000) observationOnlyRules =
      some start') :
    (priorSpans s a.resource a.id (episodeGapSeconds * 1000000) observationOnlyRules).Perm
      (priorSpans s' a.resource a.id (episodeGapSeconds * 1000000) observationOnlyRules ++
        between s a (episodeGapSeconds * 1000000) start start') := by
  have hle := h.start_le hs hs'
  have hlater := fun x hx => h.episode x hx start' hs'
  generalize episodeGapSeconds * 1000000 = gap at *
  unfold priorSpans between
  rw [hs, hs', ← map_append]
  apply Perm.map
  -- the further assessments lie in the episode
  have hextra : extra.filter (fun o => countsFor a.resource observationOnlyRules o &&
      o.id ≠ a.id && (o.lastSeen : Int) < start' - gap) = [] := by
    rw [filter_eq_nil_iff]
    intro x hx
    have := hlater x hx
    simp
    omega
  have hlarger : (s'.assessments.rows.filter (fun o => countsFor a.resource
      observationOnlyRules o && o.id ≠ a.id && (o.lastSeen : Int) < start' - gap)).Perm
      (s.assessments.rows.filter (fun o => countsFor a.resource observationOnlyRules o &&
        o.id ≠ a.id && (o.lastSeen : Int) < start' - gap)) := by
    have hperm := h.rows.filter (fun o => countsFor a.resource observationOnlyRules o &&
      o.id ≠ a.id && (o.lastSeen : Int) < start' - gap)
    rwa [filter_append, hextra, append_nil] at hperm
  refine Perm.trans ?_ (hlarger.symm.append_right _)
  refine Perm.trans (filter_append_perm (fun o => decide ((o.lastSeen : Int) <
    start' - gap)) _).symm ?_
  rw [List.filter_filter, List.filter_filter]
  apply Perm.append
  · apply Perm.of_eq
    apply filter_congr
    intro o _
    rw [Bool.eq_iff_iff]
    simp only [Bool.and_eq_true, decide_eq_true_eq]
    constructor
    · rintro ⟨hlt, hcounts, -⟩
      exact ⟨hcounts, hlt⟩
    · rintro ⟨hcounts, hlt⟩
      exact ⟨hlt, hcounts, by omega⟩
  · apply Perm.of_eq
    apply filter_congr
    intro o _
    rw [Bool.and_comm]

/-- What the smaller store counts besides lies apart from what both count. -/
theorem Further.separated (h : Further s s' a extra) (hs' : Timely s')
    (hstart' : episodeStart s' a.resource a.id (episodeGapSeconds * 1000000)
      observationOnlyRules = some start') :
    Separated (episodeGapSeconds * 1000000)
      (priorSpans s' a.resource a.id (episodeGapSeconds * 1000000) observationOnlyRules)
      (between s a (episodeGapSeconds * 1000000) start start') := by
  intro p hp r hr
  unfold priorSpans at hp
  rw [hstart'] at hp
  obtain ⟨o, ho, rfl⟩ := List.mem_map.1 hp
  obtain ⟨q, hq, rfl⟩ := List.mem_map.1 hr
  obtain ⟨ho, hocond⟩ := mem_filter.1 ho
  obtain ⟨hq, hqcond⟩ := mem_filter.1 hq
  simp only [Bool.and_eq_true, Bool.not_eq_true', decide_eq_true_eq,
    decide_eq_false_iff_not] at hocond hqcond
  have htimely := hs' o ho
  have hover := hocond.2
  have hnear : start' - episodeGapSeconds * 1000000 ≤ q.lastSeen := by
    have := hqcond.2
    omega
  have hjoined := start_le_of_near hstart' (h.mem_iff.2 (.inl hq)) hqcond.1.1.1 hnear
  unfold spanOf
  dsimp only
  omega

end Further

/-! ### The score -/

section Score

variable {α : Type} [Preorder α] {sc : Scoring α} {now : Instant} {halfLife : Int}

theorem addEpisode_ok {sum sum' : α} {ended : Int}
    (h : addEpisode sc now halfLife sum ended = .ok sum') : sum ≤ sum' := by
  unfold addEpisode at h
  cases hterm : (sc.decayed halfLife ((now : Int) - ended)).bind (sc.add sum) with
  | none =>
    rw [hterm] at h
    cases h
  | some sum'' =>
    rw [hterm] at h
    obtain ⟨t, ht, hadd⟩ := bind_eq_some_iff.1 hterm
    rw [← Except.ok.inj h]
    exact sc.le_add ht hadd

/-- More episodes lower no score. -/
theorem foldlM_addEpisode_le {ends : List Int} {sum sum' : α}
    (h : ends.foldlM (addEpisode sc now halfLife) sum = .ok sum') : sum ≤ sum' := by
  induction ends generalizing sum with
  | nil => exact le_of_eq (Except.ok.inj h)
  | cons ended rest ih =>
    rw [foldlM_cons] at h
    obtain ⟨mid, hmid, hrest⟩ := bind_ok h
    exact (addEpisode_ok hmid).trans (ih hrest)

/-- Further assessments of the current episode raise no history score. -/
theorem Further.history_le {s s' : AssessmentStore} {a : AssessmentRow}
    {extra : List AssessmentRow} (h : Further s s' a extra) (hs' : Timely s') {x : α}
    (hscore : resourcePriorEpisodeHistoryScore sc s now a.resource a.id halfLife
      episodeGapSeconds observationOnlyRules = .ok x) :
    ∃ x', resourcePriorEpisodeHistoryScore sc s' now a.resource a.id halfLife episodeGapSeconds
      observationOnlyRules = .ok x' ∧ x' ≤ x := by
  unfold resourcePriorEpisodeHistoryScore at hscore ⊢
  split at hscore
  case isTrue => cases hscore
  case isFalse hhalf =>
    rw [if_neg hhalf]
    dsimp only at hscore ⊢
    cases hstart : episodeStart s a.resource a.id (episodeGapSeconds * 1000000)
        observationOnlyRules with
    | none =>
      have hstart' := h.episodeStart_isSome (episodeGapSeconds * 1000000)
        observationOnlyRules
      rw [hstart] at hstart'
      have hnone := isSome_eq_false_iff.1 hstart'
      refine ⟨x, ?_, le_rfl⟩
      unfold priorSpans at hscore ⊢
      rw [hstart] at hscore
      rw [isNone_iff_eq_none.1 hnone]
      exact hscore
    | some start =>
      have hsome := h.episodeStart_isSome (episodeGapSeconds * 1000000)
        observationOnlyRules
      rw [hstart] at hsome
      obtain ⟨start', hstart'⟩ := isSome_iff_exists.1 hsome
      rw [islands_append (h.prior_perm hstart hstart') (h.separated hs' hstart'),
        foldlM_append] at hscore
      obtain ⟨x', hx', hrest⟩ := bind_ok hscore
      exact ⟨x', hx', foldlM_addEpisode_le hrest⟩

end Score

/-! ## Evidence -/

section Evaluate

variable {α : Type} [Preorder α] [DecidableLE α] {env : Env} {sc : Scoring α} {cfg : Config sc}
  {now : Instant} {a : AssessmentRow} {e : IndependentEvidence}

/-- What speaks against the source besides the observation that is assessed. -/
inductive SecondSource (env : Env) (cfg : Config sc) (db : Db) (now : Instant)
    (a : AssessmentRow) : Prop
  | listing (intel : SourceIntel)
      (current : currentSourceIntel env.pg db.intel now a.resource = .ok intel)
      (resolved : intel.resolved = true)
      (qualifies : (qualifyingListing intel cfg.threatIntelMinConfidence
        cfg.threatIntelMaxStalenessSeconds now).isSome = true)
  | snapshot (intel : SourceIntel) (hit : IpReputationHit)
      (current : currentSourceIntel env.pg db.intel now a.resource = .ok intel)
      (unresolved : intel.resolved = false) (taken : a.threatIntel = some hit)
      (corroborates : threatIntelHitIsCorroborating cfg now hit = true)
  | family (o : AssessmentRow) (mem : o ∈ db.store.assessments) (resource : o.resource = a.resource)
      (other : o.id ≠ a.id) (recent : (now : Int) - crossRuleCorroborationWindow ≤ o.bucketStart)
      (rule : o.ruleId ∉ observationOnlyRules)
      (known : assessmentEventTypes db.store a.id ≠ [] ∧ assessmentEventTypes db.store o.id ≠ [])
      (disjoint : (assessmentEventTypes db.store o.id).Disjoint (assessmentEventTypes db.store a.id))
  | history (score : α)
      (earlier : priorSpans db.store a.resource a.id (episodeGapSeconds * 1000000)
        observationOnlyRules ≠ [])
      (scored : resourcePriorEpisodeHistoryScore sc db.store now a.resource a.id
        cfg.historyHalfLifeSeconds episodeGapSeconds observationOnlyRules = .ok score)
      (reaches : cfg.historyMinScore ≤ score)
  | shape (counts : AssessmentShape) (kind : ShapeKind) (enabled : cfg.shape.enabled = true)
      (counted : assessmentShape env.text db.store a.id cfg.shape.pathPatterns = .ok counts)
      (shown : cfg.shape.classify counts = some kind)

theorem independent_iff {s : AssessmentStore} {resource : String} {id : Uuid} {since : Int}
    {ignoreRules : List String} :
    resourceHasIndependentFamilyAssessment s resource id since ignoreRules = true ↔
      ∃ o ∈ s.assessments, o.resource = resource ∧ o.id ≠ id ∧ since ≤ o.bucketStart ∧
        o.ruleId ∉ ignoreRules ∧
        (assessmentEventTypes s id ≠ [] ∧ assessmentEventTypes s o.id ≠ []) ∧
        (assessmentEventTypes s o.id).Disjoint (assessmentEventTypes s id) := by
  have hdisjoint : ∀ t u : List String, disjointFamilies t u = true ↔
      (t ≠ [] ∧ u ≠ []) ∧ u.Disjoint t := by
    intro t u
    unfold disjointFamilies List.Disjoint
    simp
  unfold resourceHasIndependentFamilyAssessment
  rw [List.any_eq_true]
  simp only [Bool.and_eq_true, Bool.not_eq_true', decide_eq_true_eq, hdisjoint, Table.mem_def,
    ← Bool.not_eq_true, contains_iff_mem, and_assoc]

/-- Two sources are counted only where there is a second one. -/
theorem secondSource_of_two {db : Db} (h : independentEvidenceFor env cfg db now a = .ok e)
    (htwo : 2 ≤ e.sources) : SecondSource env cfg db now a := by
  unfold independentEvidenceFor at h
  split at h
  case isTrue =>
    rw [← Except.ok.inj h] at htwo
    exact absurd htwo (by decide)
  case isFalse =>
    obtain ⟨intel, hintel, h⟩ := bind_ok h
    have hcurrent := except_mapError_ok hintel
    dsimp only at h
    obtain ⟨⟨shown, kind⟩, hshape, h⟩ := bind_ok h
    dsimp only at h
    cases hrep : reputationBasis cfg intel now a with
    | some basis =>
      unfold reputationBasis at hrep
      split at hrep
      case isTrue hresolved =>
        obtain ⟨x, hx, -⟩ := map_eq_some_iff.1 hrep
        exact .listing intel hcurrent hresolved (by rw [hx]; rfl)
      case isFalse hunresolved =>
        obtain ⟨hit, hhit, -⟩ := map_eq_some_iff.1 hrep
        obtain ⟨htaken, hcorroborates⟩ := filter_eq_some_iff.1 hhit
        exact .snapshot intel hit hcurrent (Bool.eq_false_iff.2 hunresolved) htaken hcorroborates
    | none =>
      rw [hrep] at h
      obtain ⟨⟨sources, basis⟩, hlocal, h⟩ := bind_ok h
      rw [← Except.ok.inj h] at htwo
      unfold localBasis at hlocal
      split at hlocal
      case isTrue hfamily =>
        obtain ⟨o, ho, hres, hid, hrecent, hrule, hknown, hdisj⟩ := independent_iff.1 hfamily
        exact .family o ho hres hid hrecent hrule hknown hdisj
      case isFalse =>
        obtain ⟨score, hscore, hsplit⟩ := except_map_ok hlocal
        have hscored := except_mapError_ok hscore
        split at hsplit
        case isTrue hreaches =>
          refine .history score (fun hnone => ?_) hscored hreaches
          -- without an earlier episode the score is zero
          unfold resourcePriorEpisodeHistoryScore at hscored
          split at hscored
          case isTrue => cases hscored
          case isFalse =>
            dsimp only at hscored
            rw [hnone] at hscored
            have hzero : sc.zero = score := Except.ok.inj hscored
            rw [← hzero] at hreaches
            exact lt_irrefl _ (cfg.minScore_pos.trans_le hreaches)
        case isFalse =>
          split at hsplit
          case isTrue hkind =>
            obtain ⟨k, rfl⟩ := isSome_iff_exists.1 hkind
            unfold shapeOf at hshape
            split at hshape
            case isTrue henabled =>
              obtain ⟨counts, hcounts, hpair⟩ := except_map_ok hshape
              exact .shape counts k henabled (except_mapError_ok hcounts)
                (Prod.mk.inj hpair).2
            case isFalse => cases hshape
          case isFalse =>
            have hone : 2 ≤ 1 := (Prod.mk.inj hsplit).1.symm ▸ htwo
            omega

/-- Further assessments of the same family and episode add no source. -/
theorem Further.evidence_le {db : Db} {s' : AssessmentStore} {extra : List AssessmentRow}
    (h : Further db.store s' a extra) (hs' : Timely s')
    (hevidence : independentEvidenceFor env cfg db now a = .ok e) :
    ∃ e', independentEvidenceFor env cfg { db with store := s' } now a = .ok e' ∧
      (2 ≤ e'.sources → 2 ≤ e.sources) := by
  have hshapes : shapeOf env cfg s' a.id = shapeOf env cfg db.store a.id := by
    unfold shapeOf assessmentShape
    rw [h.memberEvents_eq h.other]
  unfold independentEvidenceFor at hevidence ⊢
  split at hevidence
  case isTrue hobservation =>
    rw [if_pos hobservation]
    exact ⟨e, hevidence, id⟩
  case isFalse hrule =>
    rw [if_neg hrule]
    obtain ⟨intel, hintel, hevidence⟩ := bind_ok hevidence
    dsimp only at hevidence ⊢
    rw [hintel, hshapes]
    obtain ⟨⟨shown, kind⟩, hshape, hevidence⟩ := bind_ok hevidence
    rw [hshape]
    dsimp only [bind, Except.bind] at hevidence ⊢
    cases hrep : reputationBasis cfg intel now a with
    | some basis =>
      rw [hrep] at hevidence
      exact ⟨e, hevidence, id⟩
    | none =>
      rw [hrep] at hevidence
      obtain ⟨⟨sources, basis⟩, hlocal, hevidence⟩ := bind_ok hevidence
      unfold localBasis at hlocal ⊢
      rw [h.independent_eq]
      split at hlocal
      case isTrue hfamily =>
        rw [if_pos hfamily]
        refine ⟨_, rfl, fun _ => ?_⟩
        rw [← Except.ok.inj hevidence, ← (Prod.mk.inj (Except.ok.inj hlocal)).1]
      case isFalse hfamily =>
        rw [if_neg hfamily]
        obtain ⟨score, hscore, hsplit⟩ := except_map_ok hlocal
        obtain ⟨score', hscore', hle⟩ := h.history_le hs' (except_mapError_ok hscore)
        rw [hscore']
        refine ⟨_, rfl, fun htwo => ?_⟩
        rw [← Except.ok.inj hevidence]
        show 2 ≤ sources
        by_cases hreaches : cfg.historyMinScore ≤ score
        · rw [if_pos hreaches] at hsplit
          exact le_of_eq (Prod.mk.inj hsplit).1
        · have hreaches' : ¬ cfg.historyMinScore ≤ score' := fun hx => hreaches (hx.trans hle)
          rw [if_neg hreaches] at hsplit
          simp only [if_neg hreaches', hsplit] at htwo
          exact htwo

/-! ## Decisions -/

theorem two_of_policyDecide {riskScore sources : Nat}
    (h : (policyDecide riskScore sources).decision = .block) : 2 ≤ sources := by
  unfold policyDecide at h
  dsimp only at h
  by_contra hone
  rw [if_neg hone] at h
  split_ifs at h

/-- More sources never take a block back. -/
theorem policyDecide_mono {riskScore sources sources' : Nat} (h : 2 ≤ sources' → 2 ≤ sources)
    (hblock : (policyDecide riskScore sources').decision = .block) :
    (policyDecide riskScore sources).decision = .block := by
  have htwo := two_of_policyDecide hblock
  have hsame : policyDecide riskScore sources = policyDecide riskScore sources' := by
    unfold policyDecide
    simp [htwo, h htwo]
  rw [hsame]
  exact hblock

theorem outcomeOf_observationOnly (h : a.ruleId ∈ observationOnlyRules) :
    (outcomeOf a e).decision = .observe := by
  unfold outcomeOf
  rw [if_pos (contains_iff_mem.2 h)]

theorem outcomeOf_block (h : (outcomeOf a e).decision = .block) :
    a.ruleId ∉ observationOnlyRules ∧
      (policyDecide (riskScoreOf a.confidence) e.sources).decision = .block := by
  unfold outcomeOf at h
  split at h
  case isTrue => cases h
  case isFalse hrule => exact ⟨fun hmem => hrule (contains_iff_mem.2 hmem), h⟩

/-- Two lists made of the same items by functions that are related item by item. -/
theorem forall₂_map {β γ δ : Type} {R : γ → δ → Prop} {f : β → γ} {g : β → δ}
    (h : ∀ x, R (f x) (g x)) (xs : List β) : Forall₂ R (xs.map f) (xs.map g) := by
  rw [forall₂_map_left_iff, forall₂_map_right_iff]
  exact forall₂_same.2 (fun x _ => h x)

/-- The stores the security engine makes are timely. -/
theorem timely_run (senv : SecurityEngine.Env) (turns : List (Turn Event)) :
    Timely (SecurityEngine.run senv turns) := by
  have hshort : ∀ rule ∈ SecurityEngine.allRules, rule.windowSeconds ≤ 3600 := by decide
  intro row hrow
  obtain ⟨hfirst, hlast⟩ := SecurityEngine.inWindow_run senv turns row hrow
  obtain ⟨rule, hrule, -, -, -, hwindow, -⟩ := (SecurityEngine.run_sound senv turns).1 row hrow
  have hle := hshort rule hrule
  rw [hwindow] at hfirst hlast
  unfold seconds at hfirst hlast
  unfold episodeGapSeconds
  omega

/-- The two decisions are for one policy, and the second is no block that the first is not. -/
def NoNewBlock (u u' : String × SecurityPolicyDecisionUpsert) : Prop :=
  u'.1 = u.1 ∧ (u'.2.decision = .block → u.2.decision = .block)

/-- A block has a second source of evidence, an observation-only rule never leads beyond
observing, and no number of further assessments of the same family and episode makes a block
of a decision that is none. -/
theorem one_observation_one_source (env : Env) (cfg : Config sc) :
    (∀ db now a us, evaluateAssessment env cfg db now a = .ok us → ∀ u ∈ us,
      (u.2.decision = .block → SecondSource env cfg db now a) ∧
      (a.ruleId ∈ observationOnlyRules → u.2.decision = .observe)) ∧
    (∀ (db : Db) s' now a extra us, Further db.store s' a extra → Timely s' →
      evaluateAssessment env cfg db now a = .ok us →
      ∃ us', evaluateAssessment env cfg { db with store := s' } now a = .ok us' ∧
        Forall₂ NoNewBlock us us') ∧
    (∀ senv turns, Timely (SecurityEngine.run senv turns)) := by
  refine ⟨?_, ?_, timely_run⟩
  · intro db now a us hus u hu
    obtain ⟨e, he, rfl⟩ := except_map_ok hus
    obtain ⟨policy, -, rfl⟩ := List.mem_map.1 hu
    constructor
    · intro hblock
      exact secondSource_of_two he (two_of_policyDecide (outcomeOf_block hblock).2)
    · exact outcomeOf_observationOnly
  · intro db s' now a extra us hfurther htimely hus
    obtain ⟨e, he, rfl⟩ := except_map_ok hus
    obtain ⟨e', he', htwo⟩ := hfurther.evidence_le htimely he
    refine ⟨_, congrArg (Except.map _) he', forall₂_map (fun policy => ⟨rfl, ?_⟩) _⟩
    intro hblock
    obtain ⟨hrule, hdecided⟩ := outcomeOf_block (e := e') hblock
    show (outcomeOf a e).decision = .block
    unfold outcomeOf
    rw [if_neg (fun h => hrule (contains_iff_mem.1 h))]
    exact policyDecide_mono htwo hdecided

end Evaluate

/-! ## The same failures on the other grid -/

/-- The score in units of `2 ^ -20`, where the age is a multiple of the half-life. -/
def wholeHalvings : Scoring Nat where
  zero := 0
  add x y := some (x + y)
  decayed halfLife age :=
    if 0 ≤ age ∧ age % (halfLife * 1000000) = 0 ∧ age / (halfLife * 1000000) ≤ 20 then
      some (2 ^ (20 - (age / (halfLife * 1000000)).toNat))
    else none
  le_add := by
    intro x t y halfLife age _ hadd
    rw [← some.inj hadd]
    exact Nat.le_add_right x t

def quarterDay : Config wholeHalvings where
  threatIntelMinConfidence := 80
  threatIntelMaxStalenessSeconds := 86400
  historyHalfLifeSeconds := 21600
  historyMinScore := 2 ^ 20
  shape := ⟨true, 8, 4, 3, [], by decide⟩
  halfLife_pos := by decide
  minScore_pos := by decide

def plainEnv : Env where
  pg := standardPostgres
  text := ⟨id, fun _ _ => false⟩
  evidenceHash := fun _ _ snapshot => snapshot
  instantText := SecurityEngine.decimalInt

def failuresAt (id : Uuid) (ruleId : String) (first last : Nat) : AssessmentRow :=
  { id := id, ruleId := ruleId, ruleVersion := "1", engineVersion := "1", dedupeKey := ruleId,
    resource := "ip-pseudonym:1", severity := "high", confidence := 95, summary := "",
    eventCount := 1, windowSeconds := 300, bucketStart := seconds first,
    firstSeen := seconds first, lastSeen := seconds last, incidentId := none,
    threatIntelCorroborated := false, threatIntel := none }

def oneFailure : Event :=
  ⟨9, "ssh_login_failure", "sensor", "high", seconds 86000, some "ip-pseudonym:1", .null, .null,
    "9", seconds 86000⟩

/-- An assessment, one of the day before, and those of the other rules and grids. -/
def assessed (extra : List AssessmentRow)
    (h : (([failuresAt 1 "ssh_bruteforce" 86000 86100, failuresAt 2 "ssh_bruteforce" 0 0] ++
      extra).map AssessmentRow.id).Nodup) : AssessmentStore :=
  ⟨[oneFailure], ⟨_, h⟩, (1, 9) :: extra.map (fun x => (x.id, 9))⟩

def inForce : SecurityPolicy :=
  ⟨7, "bruteforce", 1, .active, .automatic, "ssh_bruteforce", "low", 0, none⟩

def assessedDb : Db :=
  ⟨assessed [] (by decide), ⟨Table.empty _, Table.empty _, Table.empty _, []⟩,
    ⟨[inForce], by decide⟩⟩

def slowFailures : AssessmentRow := failuresAt 3 "ssh_bruteforce_slow" 85900 86050

theorem further_slowFailures : Further assessedDb.store (assessed [slowFailures] (by decide))
    (failuresAt 1 "ssh_bruteforce" 86000 86100) [slowFailures] where
  events := rfl
  rows := Perm.refl _
  evidence := by
    intro id hid e
    have hne : slowFailures.id ≠ id := hid slowFailures (mem_singleton_self _)
    simp [assessed, assessedDb, hne.symm]
  other := by decide
  resource := by decide
  family := by decide +kernel
  episode := by
    intro x hx start hstart
    rw [mem_singleton.1 hx]
    have heval : episodeStart (assessed [slowFailures] (by decide))
        (failuresAt 1 "ssh_bruteforce" 86000 86100).resource 1 (episodeGapSeconds * 1000000)
        observationOnlyRules = some (seconds 85900 : Nat) := by decide +kernel
    rw [← some.inj (heval.symm.trans hstart)]
    decide

/-- A rate limit stays one when the slow rule has counted the same failure. -/
theorem one_observation_rate_limited :
    ∃ us us',
      evaluateAssessment plainEnv quarterDay assessedDb (seconds 86400)
        (failuresAt 1 "ssh_bruteforce" 86000 86100) = .ok us ∧
      evaluateAssessment plainEnv quarterDay
        { assessedDb with store := assessed [slowFailures] (by decide) } (seconds 86400)
        (failuresAt 1 "ssh_bruteforce" 86000 86100) = .ok us' ∧
      us.map (fun u => u.2.decision) = [.rateLimit] ∧ Forall₂ NoNewBlock us us' := by
  have hevaluated : (evaluateAssessment plainEnv quarterDay assessedDb (seconds 86400)
      (failuresAt 1 "ssh_bruteforce" 86000 86100)).map (List.map (fun u => u.2.decision)) =
        .ok [.rateLimit] := by decide +kernel
  have htimely : Timely (assessed [slowFailures] (by decide)) := by
    unfold Timely
    decide
  obtain ⟨us, hus, hlimited⟩ := except_map_ok hevaluated
  obtain ⟨us', hus', hsame⟩ := (one_observation_one_source plainEnv quarterDay).2.1 assessedDb _ _ _ _
    us further_slowFailures htimely hus
  exact ⟨us, us', hus, hus', hlimited, hsame⟩

end Clawforge.PolicyEngine

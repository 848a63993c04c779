import Mathlib.Data.List.Induction
import Clawforge.SecurityEngine.Rules
import Clawforge.Theorems.Publication

/-!
# The findings of the security engine

A finding is what identifies an assessment: the rule, its version, the resource and the
start of the window. One delivery works through the spots of the event, one for each
rule of its type on each of the two grids, and each spot adds at most its own finding:
if the stored events qualify the window and no finding of the rule it yields to overlaps
it (`findings_evaluateAt`). The findings of a run are those discovered at one of its
turns (`mem_findings_run`).
-/

namespace Clawforge.SecurityEngine

open EventDelivery Assessments Kit List

/-! ## Rules of both kinds -/

inductive Rule
  | count (rule : CountThresholdRule)
  | distinct (rule : DistinctValueThresholdRule)
deriving DecidableEq

namespace Rule

def ruleId : Rule → String
  | .count r => r.ruleId
  | .distinct r => r.ruleId

def ruleVersion : Rule → String
  | .count r => r.ruleVersion
  | .distinct r => r.ruleVersion

def eventType : Rule → String
  | .count r => r.eventType
  | .distinct r => r.eventType

def windowSeconds : Rule → Nat
  | .count r => r.windowSeconds
  | .distinct r => r.windowSeconds

def yieldsTo : Rule → Option String
  | .count r => r.yieldsTo
  | .distinct _ => none

def bucket : Rule → String → Int → Bucket
  | .count r => r.bucket
  | .distinct r => r.bucket

/-- The stored events reach the threshold in the window. -/
def Qualifies : Rule → List Event → Bucket → Prop
  | .count r, events, b => r.threshold ≤ (listEventsForBucketLimited events b r.maxMembers).length
  | .distinct r, events, b =>
    r.threshold ≤ (distinctValues (listEventsForBucketWithField events b r.field)).length

/-- One rule on one grid. -/
def evaluateAt (env : Env) (event : EventRecord) (correlationId : String) (s : AssessmentStore) :
    Rule × Int → AssessmentStore
  | (.count r, offset) => evaluateWindow env r event correlationId s offset
  | (.distinct r, offset) => evaluateScanWindow env r event correlationId s offset

end Rule

def allRules : List Rule := rules.map .count ++ distinctValueRules.map .distinct

/-- The window of a rule on a grid that contains the event. -/
def windowOf (event : EventRecord) (correlationId : String) (spot : Rule × Int) : Bucket :=
  spot.1.bucket correlationId (bucketStart event.occurredAt spot.1.windowSeconds spot.2)

/-- The rules of an event type, each on its two grids, in the order they are evaluated. -/
def spots (eventType : String) : List (Rule × Int) :=
  (allRules.filter (fun rule => rule.eventType = eventType)).flatMap (fun rule =>
    (gridOffsets rule.windowSeconds).map (fun offset => (rule, offset)))

section Delivery

variable (env : Env) (event : EventRecord)

/-- Rules of one kind, each evaluated on its grids, are their spots. -/
theorem foldl_spots {ρ : Type} {correlationId : String} (toRule : ρ → Rule)
    (evaluate : AssessmentStore → ρ → AssessmentStore)
    (heval : ∀ s r, evaluate s r = (gridOffsets (toRule r).windowSeconds).foldl
      (fun s offset => Rule.evaluateAt env event correlationId s (toRule r, offset)) s)
    (rs : List ρ) (s : AssessmentStore) :
    (rs.filter (fun r => (toRule r).eventType = event.eventType)).foldl evaluate s =
      (((rs.map toRule).filter (fun rule => rule.eventType = event.eventType)).flatMap
        (fun rule => (gridOffsets rule.windowSeconds).map (fun offset => (rule, offset)))).foldl
        (Rule.evaluateAt env event correlationId) s := by
  induction rs generalizing s with
  | nil => rfl
  | cons r rs ih =>
    by_cases htype : (toRule r).eventType = event.eventType
    · simp only [map_cons, filter_cons, htype, decide_true, if_true,
        foldl_cons, flatMap_cons, foldl_append, foldl_map]
      rw [heval, ih]
    · simp only [map_cons, filter_cons, htype, decide_false, Bool.false_eq_true,
        if_false]
      exact ih s

theorem processDelivery_eq (s : AssessmentStore) {correlationId : String}
    (h : event.resource = some correlationId) :
    processDelivery env s event =
      (spots event.eventType).foldl (Rule.evaluateAt env event correlationId) s := by
  have hcount : ∀ s r, evaluateRule env event s r =
      (gridOffsets (Rule.count r).windowSeconds).foldl
        (fun s offset => Rule.evaluateAt env event correlationId s (Rule.count r, offset)) s := by
    intro s r
    rw [evaluateRule, h]
    rfl
  have hscan : ∀ s r, evaluateScanRule env event s r =
      (gridOffsets (Rule.distinct r).windowSeconds).foldl
        (fun s offset => Rule.evaluateAt env event correlationId s (Rule.distinct r, offset)) s := by
    intro s r
    rw [evaluateScanRule, h]
    rfl
  have hall := foldl_spots env event Rule.distinct (evaluateScanRule env event) hscan
    distinctValueRules ((rules.filter (fun r => r.eventType = event.eventType)).foldl
      (evaluateRule env event) s)
  have hfirst := foldl_spots env event Rule.count (evaluateRule env event) hcount rules s
  unfold processDelivery spots allRules
  rw [filter_append, flatMap_append, foldl_append, ← hfirst]
  exact hall

theorem processDelivery_blank (s : AssessmentStore) (h : event.resource = none) :
    processDelivery env s event = s := by
  have hcount : ∀ (rs : List CountThresholdRule) (s : AssessmentStore),
      rs.foldl (evaluateRule env event) s = s := by
    intro rs
    induction rs with
    | nil => exact fun s => rfl
    | cons r rs ih =>
      intro s
      rw [foldl_cons, ih, evaluateRule, h]
  have hscan : ∀ (rs : List DistinctValueThresholdRule) (s : AssessmentStore),
      rs.foldl (evaluateScanRule env event) s = s := by
    intro rs
    induction rs with
    | nil => exact fun s => rfl
    | cons r rs ih =>
      intro s
      rw [foldl_cons, ih, evaluateScanRule, h]
  unfold processDelivery
  dsimp only
  rw [hcount, hscan]

end Delivery

/-! ## Dedupe keys -/

theorem decimalInt_injective : Function.Injective decimalInt := by
  have hsame : decimalInt = toString := funext fun n => by cases n <;> rfl
  rw [hsame]
  exact toString_int_injective

theorem colon_not_mem_decimalInt (n : Int) : ':' ∉ (decimalInt n).toList := by
  have hnat : ∀ m, ':' ∉ (decimal m).toList := fun m h =>
    absurd (digit_of_mem_decimal h) (by decide)
  intro h
  cases n with
  | ofNat m => exact hnat m h
  | negSucc m =>
    rw [show decimalInt (.negSucc m) = "-" ++ decimal (m + 1) from rfl,
      String.toList_append] at h
    rcases mem_append.1 h with h | h
    · exact absurd h (by decide)
    · exact hnat (m + 1) h

theorem dedupeKeyOf_chars (ruleId ruleVersion correlationId : String) (bucket : Int) :
    (dedupeKeyOf ruleId ruleVersion correlationId bucket).toList =
      ruleId.toList ++ ':' :: 'v' :: (ruleVersion.toList ++ ':' ::
        (correlationId.toList ++ ':' :: (decimalInt (timestamp bucket)).toList)) := by
  simp [dedupeKeyOf, String.toList_append]

/-- The key of a rule's window tells the rule, the resource and the window's second. -/
theorem dedupeKeyOf_injective {r r' : Rule} (hr : r ∈ allRules) (hr' : r' ∈ allRules)
    {c c' : String} {start start' : Int}
    (h : dedupeKeyOf r.ruleId r.ruleVersion c start =
      dedupeKeyOf r'.ruleId r'.ruleVersion c' start') :
    r = r' ∧ c = c' ∧ timestamp start = timestamp start' := by
  have hchars := congrArg String.toList h
  rw [dedupeKeyOf_chars, dedupeKeyOf_chars] at hchars
  have hnocolon : ∀ x ∈ allRules, ':' ∉ x.ruleId.toList := by decide
  have hsplit := congrArg (Text.splitOnce ':') hchars
  rw [Text.splitOnce_append (hnocolon r hr), Text.splitOnce_append (hnocolon r' hr')] at hsplit
  obtain ⟨hid, hrest⟩ := Prod.mk.inj (Option.some.inj hsplit)
  have hunique : ∀ x ∈ allRules, ∀ y ∈ allRules, x.ruleId.toList = y.ruleId.toList → x = y := by
    decide
  have hrule : r = r' := hunique r hr r' hr' hid
  subst hrule
  have htail := append_cancel_left (cons.inj hrest).2
  -- the second is what follows the last colon
  have hrev := congrArg (fun cs => Text.splitOnce ':' cs.reverse) (cons.inj htail).2
  have hback : ∀ (c : String) (n : Int),
      Text.splitOnce ':' (c.toList ++ ':' :: (decimalInt n).toList).reverse =
        some ((decimalInt n).toList.reverse, c.toList.reverse) := by
    intro c n
    rw [reverse_append, reverse_cons, append_assoc, singleton_append]
    exact Text.splitOnce_append (fun hmem =>
      colon_not_mem_decimalInt n (mem_reverse.1 hmem)) _
  simp only [hback] at hrev
  obtain ⟨hsecond, hresource⟩ := Prod.mk.inj (Option.some.inj hrev)
  exact ⟨rfl, String.toList_injective (reverse_injective hresource),
    decimalInt_injective (String.toList_injective (reverse_injective hsecond))⟩

/-! ## Findings -/

structure Finding where
  ruleId : String
  ruleVersion : String
  resource : String
  bucketStart : Int
deriving DecidableEq

def findingOf (row : AssessmentRow) : Finding where
  ruleId := row.ruleId
  ruleVersion := row.ruleVersion
  resource := row.resource
  bucketStart := row.bucketStart

def findings (s : AssessmentStore) : Set Finding := {k | ∃ row ∈ s.assessments, findingOf row = k}

/-- The finding of a rule's window. -/
def Rule.finding (rule : Rule) (b : Bucket) : Finding where
  ruleId := rule.ruleId
  ruleVersion := rule.ruleVersion
  resource := b.correlationId
  bucketStart := b.start

/-- The row is an assessment of a window of one of the rules. -/
def OfRule (row : AssessmentRow) : Prop :=
  ∃ rule ∈ allRules, ∃ n, row.ruleId = rule.ruleId ∧ row.ruleVersion = rule.ruleVersion ∧
    row.windowSeconds = rule.windowSeconds ∧ row.bucketStart = atSecond n ∧
    row.dedupeKey = dedupeKeyOf rule.ruleId rule.ruleVersion row.resource row.bucketStart

def Sound (s : AssessmentStore) : Prop := ∀ row ∈ s.assessments, OfRule row

/-- A finding of the rule that `rule` yields to overlaps the window. -/
def Blocked (F : Set Finding) (rule : Rule) (b : Bucket) : Prop :=
  ∃ other ∈ allRules, rule.yieldsTo = some other.ruleId ∧ ∃ k ∈ F, k.ruleId = other.ruleId ∧
    k.resource = b.correlationId ∧ k.bucketStart < b.stop ∧
      b.start < k.bucketStart + seconds other.windowSeconds

theorem yields_iff {s : AssessmentStore} (hs : Sound s) {r : CountThresholdRule}
    (hr : Rule.count r ∈ allRules) {b : Bucket} :
    yields s r b = true ↔ Blocked (findings s) (.count r) b := by
  have hknown : ∀ x ∈ allRules, ∀ id, x.yieldsTo = some id → ∃ y ∈ allRules, y.ruleId = id := by
    decide
  have hunique : ∀ x ∈ allRules, ∀ y ∈ allRules, x.ruleId = y.ruleId → x = y := by decide
  unfold yields Blocked
  cases hyields : r.yieldsTo with
  | none =>
    refine iff_of_false Bool.false_ne_true ?_
    rintro ⟨other, -, hother, -⟩
    rw [show (Rule.count r).yieldsTo = none from hyields] at hother
    cases hother
  | some id =>
    obtain ⟨other, hother, rfl⟩ := hknown _ hr id hyields
    unfold resourceHasAssessmentOverlapping
    simp only [List.any_eq_true, Bool.and_eq_true, decide_eq_true_eq]
    constructor
    · rintro ⟨row, hrow, ⟨⟨hresource, hrule⟩, hbefore⟩, hafter⟩
      refine ⟨other, hother, hyields, findingOf row, ⟨row, hrow, rfl⟩, hrule, hresource, hbefore,
        ?_⟩
      obtain ⟨rule, hmem, n, hid, -, hwindow, -⟩ := hs row hrow
      have hsame : rule = other := hunique _ hmem _ hother (hid.symm.trans hrule)
      rw [hwindow, hsame] at hafter
      exact hafter
    · rintro ⟨other', hother', hyields', k, ⟨row, hrow, rfl⟩, hrule, hresource, hbefore, hafter⟩
      have hid : other'.ruleId = other.ruleId :=
        Option.some.inj (hyields'.symm.trans hyields)
      rw [hunique _ hother' _ hother hid] at hrule hafter
      obtain ⟨rule, hmem, n, hrid, -, hwindow, -⟩ := hs row hrow
      have hsame : rule = other := hunique _ hmem _ hother (hrid.symm.trans hrule)
      refine ⟨row, hrow, ⟨⟨hresource, hrule⟩, hbefore⟩, ?_⟩
      rw [hwindow, hsame]
      exact hafter

/-! ## What an evaluation adds -/

@[simp] theorem timestamp_atSecond (n : Int) : timestamp (atSecond n) = n := by
  unfold timestamp atSecond
  omega

theorem findingOf_refreshed (request : SecurityAssessmentUpsert) (row : AssessmentRow) :
    findingOf (refreshed request row) = findingOf row := rfl

theorem ofRule_refreshed {request : SecurityAssessmentUpsert} {row : AssessmentRow}
    (h : OfRule row) : OfRule (refreshed request row) := h

/-- A row under the key of a rule's window has the finding of that window. -/
theorem findingOf_of_dedupeKey {rule : Rule} (hrule : rule ∈ allRules) {b : Bucket} {n : Int}
    (hb : b.start = atSecond n) {row : AssessmentRow} (hrow : OfRule row)
    (hkey : row.dedupeKey = dedupeKeyOf rule.ruleId rule.ruleVersion b.correlationId b.start) :
    findingOf row = rule.finding b := by
  obtain ⟨r, hr, m, hid, hversion, -, hstart, hrowkey⟩ := hrow
  rw [hrowkey] at hkey
  obtain ⟨rfl, hresource, hsecond⟩ := dedupeKeyOf_injective hr hrule hkey
  rw [hstart, hb, timestamp_atSecond, timestamp_atSecond] at hsecond
  unfold findingOf Rule.finding
  rw [hid, hversion, hresource, hstart, hb, hsecond]

section Persist

variable {env : Env} {s : AssessmentStore} {rule : Rule} {b : Bucket} {members : List Event}
  {event : EventRecord} {severity : String} {confidence : Int} {summary : String}

/-- A persisted assessment adds the finding of its window. -/
theorem findings_persistAssessment (hs : Sound s) (hrule : rule ∈ allRules) {n : Int}
    (hb : b.start = atSecond n) :
    Sound (persistAssessment env s rule.ruleId rule.ruleVersion rule.windowSeconds b members event
        severity confidence summary) ∧
      findings (persistAssessment env s rule.ruleId rule.ruleVersion rule.windowSeconds b members
        event severity confidence summary) = insert (rule.finding b) (findings s) := by
  constructor
  · intro row hrow
    rcases mem_upsertAssessment.1 hrow with ⟨old, hold, rfl⟩ | ⟨-, rfl⟩
    · split
      · exact ofRule_refreshed (hs old hold)
      · exact hs old hold
    · exact ⟨rule, hrule, n, rfl, rfl, rfl, hb, rfl⟩
  · ext k
    rw [Set.mem_insert_iff]
    constructor
    · rintro ⟨row, hrow, rfl⟩
      rcases mem_upsertAssessment.1 hrow with ⟨old, hold, rfl⟩ | ⟨-, rfl⟩
      · refine .inr ⟨old, hold, ?_⟩
        split
        · exact (findingOf_refreshed _ old).symm
        · rfl
      · exact .inl rfl
    · rintro (rfl | ⟨old, hold, rfl⟩)
      · by_cases htaken : ∃ old ∈ s.assessments, old.dedupeKey =
            dedupeKeyOf rule.ruleId rule.ruleVersion b.correlationId b.start
        · obtain ⟨old, hold, hkey⟩ := htaken
          refine ⟨_, mem_upsertAssessment.2 (.inl ⟨old, hold, rfl⟩), ?_⟩
          rw [if_pos hkey, findingOf_refreshed]
          exact findingOf_of_dedupeKey hrule hb (hs old hold) hkey
        · refine ⟨_, mem_upsertAssessment.2 (.inr ⟨?_, rfl⟩), rfl⟩
          exact fun old hold hkey => htaken ⟨old, hold, hkey⟩
      · refine ⟨_, mem_upsertAssessment.2 (.inl ⟨old, hold, rfl⟩), ?_⟩
        split
        · exact findingOf_refreshed _ old
        · rfl

end Persist

/-- The findings after one more spot of an event. -/
def discover (events : List Event) (event : EventRecord) (correlationId : String)
    (F : Set Finding) (spot : Rule × Int) : Set Finding :=
  {k | k ∈ F ∨ (k = spot.1.finding (windowOf event correlationId spot) ∧
    spot.1.Qualifies events (windowOf event correlationId spot) ∧
    ¬ Blocked F spot.1 (windowOf event correlationId spot))}

theorem start_windowOf (event : EventRecord) (correlationId : String) (spot : Rule × Int) :
    ∃ n, (windowOf event correlationId spot).start = atSecond n := by
  obtain ⟨rule, offset⟩ := spot
  cases rule with
  | count | distinct => exact ⟨_, rfl⟩

theorem stop_windowOf (event : EventRecord) (correlationId : String) (spot : Rule × Int) :
    (windowOf event correlationId spot).stop =
      (windowOf event correlationId spot).start + seconds spot.1.windowSeconds := by
  obtain ⟨rule, offset⟩ := spot
  cases rule with
  | count r => rfl
  | distinct r => rfl

/-- Each spot adds its own finding, if it qualifies and is not blocked. -/
theorem findings_evaluateAt (env : Env) (event : EventRecord) (correlationId : String)
    {s : AssessmentStore} (hs : Sound s) {spot : Rule × Int} (hspot : spot.1 ∈ allRules) :
    Sound (Rule.evaluateAt env event correlationId s spot) ∧
      (Rule.evaluateAt env event correlationId s spot).events = s.events ∧
      findings (Rule.evaluateAt env event correlationId s spot) =
        discover s.events event correlationId (findings s) spot := by
  obtain ⟨n, hn⟩ := start_windowOf event correlationId spot
  obtain ⟨rule, offset⟩ := spot
  have hnone : ¬ (rule.Qualifies s.events (windowOf event correlationId (rule, offset)) ∧
      ¬ Blocked (findings s) rule (windowOf event correlationId (rule, offset))) →
      findings s = discover s.events event correlationId (findings s) (rule, offset) := by
    intro h
    ext k
    constructor
    · exact .inl
    · rintro (hk | ⟨-, hq⟩)
      · exact hk
      · exact absurd hq h
  have hsome : (rule.Qualifies s.events (windowOf event correlationId (rule, offset)) ∧
      ¬ Blocked (findings s) rule (windowOf event correlationId (rule, offset))) →
      insert (rule.finding (windowOf event correlationId (rule, offset))) (findings s) =
        discover s.events event correlationId (findings s) (rule, offset) := by
    intro h
    ext k
    rw [Set.mem_insert_iff]
    constructor
    · rintro (hk | hk)
      · exact .inr ⟨hk, h⟩
      · exact .inl hk
    · rintro (hk | ⟨hk, -⟩)
      · exact .inr hk
      · exact .inl hk
  cases rule with
  | count r =>
    show Sound (evaluateWindow env r event correlationId s offset) ∧ _
    rw [Rule.evaluateAt]
    unfold evaluateWindow
    dsimp only
    split
    case isTrue hfew =>
      exact ⟨hs, rfl, hnone (fun h => absurd h.1 (Nat.not_le.2 hfew))⟩
    case isFalse hmany =>
      have hqualifies : (Rule.count r).Qualifies s.events
          (windowOf event correlationId (Rule.count r, offset)) := Nat.not_lt.1 hmany
      split
      case isTrue hyields =>
        exact ⟨hs, rfl, hnone (fun h => h.2 ((yields_iff hs hspot).1 hyields))⟩
      case isFalse hfree =>
        obtain ⟨hsound, hfound⟩ := findings_persistAssessment hs hspot hn
        refine ⟨hsound, rfl, hfound.trans (hsome ⟨hqualifies, ?_⟩)⟩
        exact fun hblocked => hfree ((yields_iff hs hspot).2 hblocked)
  | distinct r =>
    show Sound (evaluateScanWindow env r event correlationId s offset) ∧ _
    rw [Rule.evaluateAt]
    unfold evaluateScanWindow
    dsimp only
    split
    case isTrue hfew =>
      exact ⟨hs, rfl, hnone (fun h => absurd h.1 (Nat.not_le.2 hfew))⟩
    case isFalse hmany =>
      have hqualifies : (Rule.distinct r).Qualifies s.events
          (windowOf event correlationId (Rule.distinct r, offset)) := Nat.not_lt.1 hmany
      obtain ⟨hsound, hfound⟩ := findings_persistAssessment hs hspot hn
      refine ⟨hsound, rfl, hfound.trans (hsome ⟨hqualifies, ?_⟩)⟩
      rintro ⟨other, -, hyields, -⟩
      cases hyields

/-! ## Deliveries -/

section Spots

variable {events : List Event} {event : EventRecord} {correlationId : String}

/-- What the spots have added: each finding at a spot that qualified and was not blocked by
what was found before it. -/
theorem mem_foldl_discover {ps : List (Rule × Int)} {F : Set Finding} {k : Finding} :
    k ∈ ps.foldl (discover events event correlationId) F ↔
      k ∈ F ∨ ∃ pre spot post, ps = pre ++ spot :: post ∧
        k = spot.1.finding (windowOf event correlationId spot) ∧
        spot.1.Qualifies events (windowOf event correlationId spot) ∧
        ¬ Blocked (pre.foldl (discover events event correlationId) F) spot.1
          (windowOf event correlationId spot) := by
  induction ps generalizing F with
  | nil =>
    constructor
    · exact .inl
    · rintro (h | ⟨pre, spot, post, hnil, -⟩)
      · exact h
      · exact absurd hnil (by simp)
  | cons p ps ih =>
    rw [foldl_cons, ih]
    constructor
    · rintro ((h | ⟨rfl, hq, hb⟩) | ⟨pre, spot, post, rfl, hk⟩)
      · exact .inl h
      · exact .inr ⟨[], p, ps, rfl, rfl, hq, hb⟩
      · exact .inr ⟨p :: pre, spot, post, rfl, hk⟩
    · rintro (h | ⟨pre, spot, post, hsplit, hk⟩)
      · exact .inl (.inl h)
      · cases pre with
        | nil =>
          obtain ⟨rfl, rfl⟩ := cons.inj hsplit
          exact .inl (.inr hk)
        | cons q pre =>
          obtain ⟨rfl, rfl⟩ := cons.inj hsplit
          exact .inr ⟨pre, spot, post, rfl, hk⟩

theorem findings_foldl (env : Env) (event : EventRecord) (correlationId : String)
    {ps : List (Rule × Int)} (hps : ∀ p ∈ ps, p.1 ∈ allRules)
    {s : AssessmentStore} (hs : Sound s) :
    Sound (ps.foldl (Rule.evaluateAt env event correlationId) s) ∧
      (ps.foldl (Rule.evaluateAt env event correlationId) s).events = s.events ∧
      findings (ps.foldl (Rule.evaluateAt env event correlationId) s) =
        ps.foldl (discover s.events event correlationId) (findings s) := by
  induction ps generalizing s with
  | nil => exact ⟨hs, rfl, rfl⟩
  | cons p ps ih =>
    obtain ⟨hsound, hevents, hfound⟩ :=
      findings_evaluateAt env event correlationId hs (hps p mem_cons_self)
    obtain ⟨hsound', hevents', hfound'⟩ :=
      ih (fun q hq => hps q (mem_cons_of_mem _ hq)) hsound
    rw [foldl_cons, foldl_cons]
    refine ⟨hsound', hevents'.trans hevents, ?_⟩
    rw [hfound', hevents, hfound]

end Spots

theorem mem_allRules_of_mem_spots {eventType : String} {spot : Rule × Int}
    (h : spot ∈ spots eventType) : spot.1 ∈ allRules ∧ spot.1.eventType = eventType ∧
      spot.2 ∈ gridOffsets spot.1.windowSeconds := by
  obtain ⟨rule, hrule, hspot⟩ := mem_flatMap.1 h
  obtain ⟨offset, hoffset, rfl⟩ := List.mem_map.1 hspot
  obtain ⟨hmem, htype⟩ := mem_filter.1 hrule
  exact ⟨hmem, of_decide_eq_true htype, hoffset⟩

theorem mem_spots {rule : Rule} (hrule : rule ∈ allRules) {offset : Int}
    (hoffset : offset ∈ gridOffsets rule.windowSeconds) :
    (rule, offset) ∈ spots rule.eventType :=
  mem_flatMap.2 ⟨rule, mem_filter.2 ⟨hrule, by simp⟩,
    List.mem_map.2 ⟨offset, hoffset, rfl⟩⟩

/-! ## Runs -/

/-- The finding is added at turn `t`, after the turns `before`. -/
def DiscoveredAt (env : Env) (before : List (Turn Event)) (t : Turn Event) (k : Finding) : Prop :=
  ∃ c, (recordOf t.item).resource = some c ∧
    ∃ pre spot post, spots t.item.eventType = pre ++ spot :: post ∧
      k = spot.1.finding (windowOf (recordOf t.item) c spot) ∧
      spot.1.Qualifies (storedBy (before ++ [t])) (windowOf (recordOf t.item) c spot) ∧
      ¬ Blocked (pre.foldl (discover (storedBy (before ++ [t])) (recordOf t.item) c)
        (findings (run env before))) spot.1 (windowOf (recordOf t.item) c spot)

theorem run_snoc (env : Env) (turns : List (Turn Event)) (t : Turn Event) :
    run env (turns ++ [t]) = turn env (run env turns) t := by
  rw [run, foldl_append]
  rfl

theorem run_sound (env : Env) (turns : List (Turn Event)) :
    Sound (run env turns) ∧ (run env turns).events = storedBy turns := by
  induction turns using reverseRecOn with
  | nil => exact ⟨fun row hrow => absurd hrow Table.not_mem_empty, rfl⟩
  | append_singleton turns t ih =>
    obtain ⟨hsound, hevents⟩ := ih
    rw [run_snoc, storedBy_append, turn]
    cases hresource : (recordOf t.item).resource with
    | none =>
      rw [processDelivery_blank env _ _ hresource, hevents]
      exact ⟨hsound, by simp⟩
    | some c =>
      rw [processDelivery_eq env _ _ hresource]
      have hstored : Sound { run env turns with
          events := (run env turns).events ++ t.stored } := hsound
      obtain ⟨hsound', hevents', -⟩ := findings_foldl env (recordOf t.item) c
        (fun p hp => (mem_allRules_of_mem_spots hp).1) hstored
      refine ⟨hsound', ?_⟩
      rw [hevents', hevents]
      simp

/-- One turn adds what it discovers. -/
theorem findings_run_snoc (env : Env) (turns : List (Turn Event)) (t : Turn Event)
    (k : Finding) :
    k ∈ findings (run env (turns ++ [t])) ↔
      k ∈ findings (run env turns) ∨ DiscoveredAt env turns t k := by
  obtain ⟨hsound, hevents⟩ := run_sound env turns
  have hstored : (run env turns).events ++ t.stored = storedBy (turns ++ [t]) := by
    rw [hevents]
    simp
  rw [run_snoc, turn, hstored]
  unfold DiscoveredAt
  cases hresource : (recordOf t.item).resource with
  | none =>
    rw [processDelivery_blank env _ _ hresource]
    constructor
    · exact .inl
    · rintro (h | ⟨c, hc, -⟩)
      · exact h
      · cases hc
  | some c =>
    rw [processDelivery_eq env _ _ hresource]
    have hsound' : Sound { run env turns with events := storedBy (turns ++ [t]) } := hsound
    obtain ⟨-, -, hfound⟩ := findings_foldl env (recordOf t.item) c
      (fun p hp => (mem_allRules_of_mem_spots hp).1) hsound'
    rw [hfound, mem_foldl_discover]
    constructor
    · rintro (h | h)
      · exact .inl h
      · exact .inr ⟨c, rfl, h⟩
    · rintro (h | ⟨c', hc', h⟩)
      · exact .inl h
      · cases hc'
        exact .inr h

/-- The findings of a run are those discovered at one of its turns. -/
theorem mem_findings_run {env : Env} {turns : List (Turn Event)} {k : Finding} :
    k ∈ findings (run env turns) ↔
      ∃ before t after, turns = before ++ t :: after ∧ DiscoveredAt env before t k := by
  induction turns using reverseRecOn with
  | nil =>
    constructor
    · rintro ⟨row, hrow, -⟩
      exact absurd hrow Table.not_mem_empty
    · rintro ⟨before, t, after, hnil, -⟩
      exact absurd hnil (by simp)
  | append_singleton turns t ih =>
    rw [findings_run_snoc, ih]
    constructor
    · rintro (⟨before, u, after, rfl, h⟩ | h)
      · exact ⟨before, u, after ++ [t], by simp, h⟩
      · exact ⟨turns, t, [], rfl, h⟩
    · rintro ⟨before, u, after, hsplit, h⟩
      rcases eq_nil_or_concat after with rfl | ⟨after, last, rfl⟩
      · obtain ⟨rfl, hlast⟩ := append_inj' hsplit rfl
        cases hlast
        exact .inr h
      · have hsplit' : turns ++ [t] = (before ++ u :: after) ++ [last] := by
          rw [hsplit]
          simp
        obtain ⟨hturns, -⟩ := append_inj' hsplit' rfl
        exact .inl ⟨before, u, after, hturns, h⟩

end Clawforge.SecurityEngine

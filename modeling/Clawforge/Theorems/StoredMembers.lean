import Clawforge.Theorems.StaggeredWindows
import Clawforge.Theorems.WindowRows

/-!
# A stored assessment and its members

The upsert of an assessment overwrites what is computed from the members of its window, all
but `first_seen`: that stays what the evaluation that inserted the row has read. It is the
first instant of the members as long as none arrives late.
-/

namespace Clawforge.SecurityEngine

open Assessments EventDelivery Kit List

/-! ## Runs -/

/-- More events are stored, and then one of the rules is evaluated on one grid. -/
structure Evaluation where
  stored : List Event
  event : EventRecord
  correlationId : String
  rule : Rule
  offset : Int
  known : rule ∈ allRules

namespace Evaluation

def window (v : Evaluation) : Bucket := windowOf v.event v.correlationId (v.rule, v.offset)

/-- The store the evaluation reads. -/
def receive (v : Evaluation) (s : AssessmentStore) : AssessmentStore :=
  { s with events := s.events ++ v.stored }

def apply (env : Env) (s : AssessmentStore) (v : Evaluation) : AssessmentStore :=
  Rule.evaluateAt env v.event v.correlationId (v.receive s) (v.rule, v.offset)

end Evaluation

def play (env : Env) (s : AssessmentStore) (vs : List Evaluation) : AssessmentStore :=
  vs.foldl (Evaluation.apply env) s

theorem events_play (env : Env) (s : AssessmentStore) (vs : List Evaluation) :
    (play env s vs).events = s.events ++ vs.flatMap Evaluation.stored := by
  induction vs generalizing s with
  | nil => exact (append_nil _).symm
  | cons v vs ih =>
    show (play env (v.apply env s) vs).events = _
    rw [ih, flatMap_cons, ← append_assoc, Evaluation.apply, events_evaluateAt]
    rfl

theorem play_append (env : Env) (s : AssessmentStore) (us vs : List Evaluation) :
    play env s (us ++ vs) = play env (play env s us) vs := foldl_append

/-! ## The first instant of a row -/

variable {key : String} {s : AssessmentStore} {events : List Event} {limit : Nat}

/-- An evaluation keeps the first instant of a row that is there. -/
theorem firstSeen_apply (env : Env) (hrow : (rowsAt s key).Nonempty) (v : Evaluation) :
    AssessmentRow.firstSeen '' rowsAt (v.apply env s) key =
      AssessmentRow.firstSeen '' rowsAt s key := by
  have hreceive : rowsAt (v.receive s) key = rowsAt s key := rfl
  rcases evaluateAt_cases env v.event v.correlationId (v.receive s) (v.rule, v.offset) with
    hsame | ⟨request, hkey, hpersist⟩
  · rw [Evaluation.apply, hsame, hreceive]
  · rw [Evaluation.apply, hpersist]
    by_cases hthis : request.dedupeKey = key
    · subst hthis
      rw [rowsAt_persist_old (hreceive ▸ hrow), Set.image_image, hreceive]
      rfl
    · rw [rowsAt_persist_of_ne hthis, hreceive]

theorem firstSeen_play (env : Env) (hrow : (rowsAt s key).Nonempty) (vs : List Evaluation) :
    AssessmentRow.firstSeen '' rowsAt (play env s vs) key =
      AssessmentRow.firstSeen '' rowsAt s key := by
  induction vs generalizing s with
  | nil => rfl
  | cons v vs ih =>
    have hstep := firstSeen_apply env hrow v
    have hrow' : (rowsAt (v.apply env s) key).Nonempty := by
      rw [← Set.image_nonempty (f := AssessmentRow.firstSeen), hstep, Set.image_nonempty]
      exact hrow
    exact (ih hrow').trans hstep

/-- A row that is there at the end was inserted by one of the evaluations. -/
theorem exists_inserting (env : Env) (hfresh : rowsAt s key = ∅) {run : List Evaluation}
    (hrow : (rowsAt (play env s run) key).Nonempty) :
    ∃ us v vs, run = us ++ v :: vs ∧ rowsAt (play env s us) key = ∅ ∧
      (rowsAt (play env s (us ++ [v])) key).Nonempty := by
  induction run generalizing s with
  | nil =>
    rw [play, foldl_nil, hfresh] at hrow
    exact absurd hrow Set.not_nonempty_empty
  | cons v vs ih =>
    rcases Set.eq_empty_or_nonempty (rowsAt (v.apply env s) key) with hnone | hsome
    · obtain ⟨us, w, ws, rfl, hbefore, hafter⟩ := ih hnone hrow
      exact ⟨v :: us, w, ws, rfl, hbefore, hafter⟩
    · exact ⟨[], v, vs, rfl, hfresh, hsome⟩

/-! ## What a count rule reads -/

/-- The earliest of the events occurred then. -/
def IsFirst (events : List Event) (t : Instant) : Prop :=
  (∃ e ∈ events, e.occurredAt = t) ∧ ∀ e ∈ events, t ≤ e.occurredAt

/-- The latest of the events occurred then. -/
def IsLast (events : List Event) (t : Instant) : Prop :=
  (∃ e ∈ events, e.occurredAt = t) ∧ ∀ e ∈ events, e.occurredAt ≤ t

theorem listEvents_eq (events : List Event) (b : Bucket) (limit : Nat) :
    listEventsForBucketLimited events b limit =
      ((events.filter b.holds).insertionSort Earlier).take (readLimit limit) := rfl

theorem readLimit_pos (limit : Nat) : 0 < readLimit limit := by
  unfold readLimit
  omega

/-- The query starts with the earliest member. -/
theorem isFirst_listEvents {b : Bucket} (hsome : listEventsForBucketLimited events b limit ≠ [])
    (t : Instant) :
    IsFirst (events.filter b.holds)
      (((listEventsForBucketLimited events b limit).head?.map Event.occurredAt).getD t) := by
  have hperm := perm_insertionSort Earlier (events.filter b.holds)
  have hsorted := pairwise_insertionSort Earlier (events.filter b.holds)
  have hpos := readLimit_pos limit
  rw [listEvents_eq] at hsome ⊢
  generalize (events.filter b.holds).insertionSort Earlier = l at *
  cases l with
  | nil => simp at hsome
  | cons e l =>
    obtain ⟨n, hn⟩ := Nat.exists_eq_succ_of_ne_zero hpos.ne'
    rw [hn, take_succ_cons, head?_cons]
    refine ⟨⟨e, hperm.mem_iff.1 mem_cons_self, rfl⟩, fun x hx => ?_⟩
    rcases mem_cons.1 (hperm.mem_iff.2 hx) with rfl | hx
    · exact Nat.le_refl _
    · exact (pairwise_cons.1 hsorted).1 x hx

/-- Where the limit lets all members through, the query ends with the latest. -/
theorem isLast_listEvents {b : Bucket} (hsome : events.filter b.holds ≠ [])
    (hall : (events.filter b.holds).length ≤ readLimit limit) (t : Instant) :
    IsLast (events.filter b.holds)
      (((listEventsForBucketLimited events b limit).getLast?.map Event.occurredAt).getD t) := by
  have hperm := perm_insertionSort Earlier (events.filter b.holds)
  have hsorted := pairwise_insertionSort Earlier (events.filter b.holds)
  rw [listEvents_eq, take_of_length_le (by rwa [hperm.length_eq])]
  generalize (events.filter b.holds).insertionSort Earlier = l at *
  rcases eq_nil_or_concat l with rfl | ⟨pre, e, rfl⟩
  · exact absurd hperm.nil_eq.symm hsome
  · rw [concat_eq_append, getLast?_concat] at *
    refine ⟨⟨e, hperm.mem_iff.1 mem_concat_self, rfl⟩,
      fun x hx => ?_⟩
    rcases mem_append.1 (hperm.mem_iff.2 hx) with hx | hx
    · exact (pairwise_append.1 hsorted).2.2 x hx e (mem_singleton_self _)
    · rw [mem_singleton.1 hx]
      exact Nat.le_refl _

theorem length_listEvents {b : Bucket} (hall : (events.filter b.holds).length ≤ readLimit limit) :
    (listEventsForBucketLimited events b limit).length = (events.filter b.holds).length := by
  rw [listEvents_eq, length_take, length_insertionSort]
  omega

/-! ## One evaluation of a count rule -/

section Count

variable (env : Env) {rule : CountThresholdRule} {event : EventRecord} {correlationId : String}
  {offset : Int} {s : AssessmentStore}

/-- What `evaluate_rule` persists of a window. -/
def countRequest (env : Env) (rule : CountThresholdRule) (event : EventRecord)
    (s : AssessmentStore) (b : Bucket) (summary : String) : SecurityAssessmentUpsert :=
  let members := listEventsForBucketLimited s.events b rule.maxMembers
  requestOf env s rule.ruleId rule.ruleVersion rule.windowSeconds b members event
    (severityForCount members.length rule.threshold)
    (confidenceForCount members.length rule.threshold) summary

/-- With too few members, or an assessment of the rule it yields to, nothing is written. -/
theorem evaluateWindow_of_skip {b : Bucket}
    (hb : b = windowOf event correlationId (.count rule, offset))
    (hskip : ¬ (rule.threshold ≤ (listEventsForBucketLimited s.events b rule.maxMembers).length ∧
      yields s rule b = false)) :
    evaluateWindow env rule event correlationId s offset = s := by
  subst hb
  by_cases hmany : rule.threshold ≤ (listEventsForBucketLimited s.events
      (windowOf event correlationId (.count rule, offset)) rule.maxMembers).length
  · have hyields : yields s rule (windowOf event correlationId (.count rule, offset)) = true :=
      Bool.eq_true_of_not_eq_false (fun hfree => hskip ⟨hmany, hfree⟩)
    exact (if_neg (Nat.not_lt.2 hmany)).trans (if_pos hyields)
  · exact if_pos (Nat.lt_of_not_le hmany)

/-- Otherwise the window's assessment is. -/
theorem evaluateWindow_of_write {b : Bucket}
    (hb : b = windowOf event correlationId (.count rule, offset))
    (hmany : rule.threshold ≤ (listEventsForBucketLimited s.events b rule.maxMembers).length)
    (hfree : yields s rule b = false) :
    ∃ summary, evaluateWindow env rule event correlationId s offset =
      (persistSecurityAssessment s (countRequest env rule event s b summary)).1 := by
  subst hb
  exact ⟨_, (if_neg (Nat.not_lt.2 hmany)).trans (if_neg (ne_true_of_eq_false hfree))⟩

end Count

/-! ## The stored row -/

/-- The row is computed from these members. -/
structure Matches (rule : CountThresholdRule) (members : List Event) (row : AssessmentRow) :
    Prop where
  firstSeen : IsFirst members row.firstSeen
  lastSeen : IsLast members row.lastSeen
  eventCount : row.eventCount = members.length
  severity : row.severity = severityForCount members.length rule.threshold
  confidence : row.confidence = confidenceForCount members.length rule.threshold

/-- The evaluation is of the rule at the window, sees all members of it, and persists. -/
structure SeesAll (rule : CountThresholdRule) (s : AssessmentStore) (v : Evaluation) : Prop where
  ofRule : v.rule = .count rule
  enough : rule.threshold ≤ (s.events.filter v.window.holds).length
  all : (s.events.filter v.window.holds).length ≤ readLimit rule.maxMembers
  free : yields s rule v.window = false

/-- No member stored after the row was inserted occurred before all that were there. -/
def OnTime (env : Env) (s : AssessmentStore) (key : String) (b : Bucket)
    (run : List Evaluation) : Prop :=
  ∀ us v vs, run = us ++ v :: vs → rowsAt (play env s us) key = ∅ →
    (rowsAt (play env s (us ++ [v])) key).Nonempty →
    ∀ e ∈ vs.flatMap Evaluation.stored, b.holds e = true →
      ∃ e' ∈ (play env s (us ++ [v])).events, b.holds e' = true ∧ e'.occurredAt ≤ e.occurredAt

section Stored

variable (env : Env) {rule : CountThresholdRule} {s : AssessmentStore} {v : Evaluation} {b : Bucket}

section

variable (hrule : Rule.count rule ∈ allRules)
include hrule

theorem threshold_pos : 0 < rule.threshold := by
  have hall : ∀ r ∈ rules, 0 < r.threshold := by decide
  have hmem : rule ∈ rules := by simpa [allRules] using hrule
  exact hall rule hmem

/-- The row that an evaluation inserts has the first instant of the members it has read. -/
theorem firstSeen_of_insert {w : Evaluation} (hw : w.rule = .count rule) (hb : w.window = b)
    (hnone : rowsAt s ((Rule.count rule).key b) = ∅)
    (hrow : (rowsAt (v.apply env s) ((Rule.count rule).key b)).Nonempty) :
    ∃ row, rowsAt (v.apply env s) ((Rule.count rule).key b) = {row} ∧
      IsFirst ((v.apply env s).events.filter b.holds) row.firstSeen := by
  have hevents : (v.apply env s).events = (v.receive s).events := events_evaluateAt ..
  have hreceive : rowsAt (v.receive s) ((Rule.count rule).key b) = ∅ := hnone
  have hkey : v.rule.key v.window = (Rule.count rule).key b := by
    by_contra hne
    rw [Evaluation.apply, rowsAt_evaluateAt_of_ne env (v.receive s) (v.rule, v.offset) hne,
      hreceive] at hrow
    exact Set.not_nonempty_empty hrow
  obtain ⟨hsame, hwindow⟩ : v.rule = .count rule ∧ v.window = b := by
    rw [← hb, ← hw] at hkey
    obtain ⟨hrule', hwindow⟩ := window_of_key (v.rule, v.offset) (w.rule, w.offset) v.known
      w.known hkey
    exact ⟨hrule'.trans hw, hwindow.trans hb⟩
  have happly : v.apply env s =
      evaluateWindow env rule v.event v.correlationId (v.receive s) v.offset := by
    unfold Evaluation.apply
    rw [hsame]
    rfl
  have hspot : b = windowOf v.event v.correlationId (.count rule, v.offset) := by
    rw [← hwindow, Evaluation.window, hsame]
  rw [hevents]
  rw [happly] at hrow ⊢
  by_cases hwrite : rule.threshold ≤ (listEventsForBucketLimited (v.receive s).events b
      rule.maxMembers).length ∧ yields (v.receive s) rule b = false
  · obtain ⟨summary, hpersist⟩ := evaluateWindow_of_write env hspot hwrite.1 hwrite.2
    refine ⟨(countRequest env rule v.event (v.receive s) b summary).row
      (freshId (v.receive s).assessments), ?_, ?_⟩
    · rw [hpersist]
      exact rowsAt_persist_new (countRequest env rule v.event (v.receive s) b summary) hreceive
    · refine isFirst_listEvents (fun hnil => ?_) v.event.occurredAt
      rw [hnil] at hwrite
      exact absurd hwrite.1 (Nat.not_le.2 (threshold_pos hrule))
  · rw [evaluateWindow_of_skip env hspot hwrite, hreceive] at hrow
    exact absurd hrow Set.not_nonempty_empty

/-- The row after an evaluation that sees all members: what is overwritten matches them, and a
row that was inserted then matches altogether. -/
theorem matches_of_seesAll (hsees : SeesAll rule (v.receive s) v) :
    (rowsAt (v.apply env s) ((Rule.count rule).key v.window)).Nonempty ∧
      ∀ row ∈ rowsAt (v.apply env s) ((Rule.count rule).key v.window),
        IsFirst ((v.apply env s).events.filter v.window.holds) row.firstSeen →
          Matches rule ((v.apply env s).events.filter v.window.holds) row := by
  have hevents : (v.apply env s).events = (v.receive s).events := events_evaluateAt ..
  have happly : v.apply env s =
      evaluateWindow env rule v.event v.correlationId (v.receive s) v.offset := by
    unfold Evaluation.apply
    rw [hsees.ofRule]
    rfl
  have hspot : v.window = windowOf v.event v.correlationId (.count rule, v.offset) := by
    rw [Evaluation.window, hsees.ofRule]
  have hlength := length_listEvents hsees.all
  obtain ⟨summary, hpersist⟩ := evaluateWindow_of_write env hspot
    (hlength.symm ▸ hsees.enough) hsees.free
  have hlast := isLast_listEvents (ne_nil_of_length_pos
    (Nat.lt_of_lt_of_le (threshold_pos hrule) hsees.enough)) hsees.all v.event.occurredAt
  obtain ⟨hfound, hwritten, -⟩ := rowsAt_persist (v.receive s)
    (countRequest env rule v.event (v.receive s) v.window summary)
  rw [hevents, happly, hpersist]
  refine ⟨hfound, fun row hrow hfirst => ⟨hfirst, ?_, ?_, ?_, ?_⟩⟩
  · rw [(hwritten row hrow).lastSeen]
    exact hlast
  · rw [(hwritten row hrow).eventCount]
    exact hlength
  · rw [(hwritten row hrow).severity, ← hlength]
    rfl
  · rw [(hwritten row hrow).confidence, ← hlength]
    rfl

/-- Of the row that a given evaluation has inserted, everything but the first instant always
matches; that does if no member came late. -/
theorem matches_iff_of_insert {last : Evaluation} {run us vs : List Evaluation}
    (hlast : last.rule = .count rule) (hb : last.window = b) (hrun : run = us ++ v :: vs)
    (hnone : rowsAt (play env s us) ((Rule.count rule).key b) = ∅)
    (hrow : (rowsAt (play env s (us ++ [v])) ((Rule.count rule).key b)).Nonempty)
    (hrest : ∀ row ∈ rowsAt (play env s run) ((Rule.count rule).key b),
      IsFirst ((play env s run).events.filter b.holds) row.firstSeen →
        Matches rule ((play env s run).events.filter b.holds) row) :
    (∀ row ∈ rowsAt (play env s run) ((Rule.count rule).key b),
        Matches rule ((play env s run).events.filter b.holds) row) ↔
      ∀ e ∈ vs.flatMap Evaluation.stored, b.holds e = true →
        ∃ e' ∈ (play env s (us ++ [v])).events, b.holds e' = true ∧
          e'.occurredAt ≤ e.occurredAt := by
  have hstep : play env s (us ++ [v]) = v.apply env (play env s us) := by
    rw [play_append]
    rfl
  have hsplit : play env s run = play env (play env s (us ++ [v])) vs := by
    rw [hrun, ← play_append, append_assoc, singleton_append]
  have hevents := events_play env (play env s (us ++ [v])) vs
  have hfirst := firstSeen_play env hrow vs
  rw [hstep] at hrow
  obtain ⟨inserted, honly, ⟨e₀, he₀, heq⟩, hleast⟩ := firstSeen_of_insert env hrule hlast hb hnone hrow
  rw [← hstep] at honly he₀ hleast
  rw [← hsplit] at hevents hfirst
  rw [honly, Set.image_singleton] at hfirst
  -- the first instant at the end is the one that was inserted
  have hkept : ∀ row ∈ rowsAt (play env s run) ((Rule.count rule).key b),
      row.firstSeen = inserted.firstSeen := fun row hrow => by
    have hmem : row.firstSeen ∈ AssessmentRow.firstSeen ''
        rowsAt (play env s run) ((Rule.count rule).key b) := ⟨row, hrow, rfl⟩
    rw [hfirst] at hmem
    exact hmem
  generalize play env s (us ++ [v]) = before at *
  obtain ⟨hmem₀, hholds₀⟩ := mem_filter.1 he₀
  constructor
  · intro hmatch e he hholds
    have hthere : (rowsAt (play env s run) ((Rule.count rule).key b)).Nonempty := by
      rw [← Set.image_nonempty (f := AssessmentRow.firstSeen), hfirst]
      exact Set.singleton_nonempty _
    obtain ⟨row, hrow⟩ := hthere
    refine ⟨e₀, hmem₀, hholds₀, ?_⟩
    rw [heq, ← hkept row hrow]
    refine (hmatch row hrow).firstSeen.2 e (mem_filter.2 ⟨?_, hholds⟩)
    rw [hevents]
    exact mem_append_right _ he
  · intro htime row hrow
    refine hrest row hrow ?_
    rw [hkept row hrow]
    refine ⟨⟨e₀, mem_filter.2 ⟨?_, hholds₀⟩, heq⟩, fun e he => ?_⟩
    · rw [hevents]
      exact mem_append_left _ hmem₀
    · obtain ⟨hmem, hholds⟩ := mem_filter.1 he
      rw [hevents] at hmem
      rcases mem_append.1 hmem with hold | hnew
      · exact hleast e (mem_filter.2 ⟨hold, hholds⟩)
      · obtain ⟨e', he', hholds', hle⟩ := htime e hnew hholds
        exact (hleast e' (mem_filter.2 ⟨he', hholds'⟩)).trans hle

end

/-- The stored assessment equals its members exactly if none of them came late. -/
theorem stored_equals_members_iff (hrule : Rule.count rule ∈ allRules) {last : Evaluation}
    {run : List Evaluation} (hfresh : rowsAt s ((Rule.count rule).key last.window) = ∅)
    (hsees : SeesAll rule (last.receive (play env s run)) last) :
    (rowsAt (play env s (run ++ [last])) ((Rule.count rule).key last.window)).Nonempty ∧
      ((∀ row ∈ rowsAt (play env s (run ++ [last])) ((Rule.count rule).key last.window),
          Matches rule ((play env s (run ++ [last])).events.filter last.window.holds) row) ↔
        OnTime env s ((Rule.count rule).key last.window) last.window (run ++ [last])) := by
  have hstep : play env s (run ++ [last]) = last.apply env (play env s run) := by
    rw [play_append]
    rfl
  obtain ⟨hfound, hrest⟩ := matches_of_seesAll env hrule hsees
  rw [← hstep] at hfound hrest
  refine ⟨hfound, ?_⟩
  constructor
  · intro hmatch us v vs hrun hnone hrow
    exact (matches_iff_of_insert env hrule hsees.ofRule rfl hrun hnone hrow hrest).1 hmatch
  · intro htime
    obtain ⟨us, v, vs, hrun, hnone, hrow⟩ := exists_inserting env hfresh hfound
    exact (matches_iff_of_insert env hrule hsees.ofRule rfl hrun hnone hrow hrest).2
      (htime us v vs hrun hnone hrow)

end Stored

/-! ## A late failure -/

/-- A failed login `second` seconds into the year 2026. -/
def failedLogin (second : Nat) : Event where
  eventId := second
  eventType := "ssh_login_failure"
  source := "linux_sensor"
  severity := "low"
  occurredAt := seconds (1767225600 + second)
  correlationId := some "ip-pseudonym:5c1f"
  payload := Json.ofFields [("username", .string "root")]
  metadata := Json.ofFields []
  dedupeKey := "security-event:" ++ uuidText second
  createdAt := seconds (1767225600 + second)

/-- Failures are stored, and `ssh_bruteforce` is evaluated on one of them. -/
def bruteforceOn (stored : List Nat) (second : Nat) : Evaluation where
  stored := stored.map failedLogin
  event := recordOf (failedLogin second)
  correlationId := "ip-pseudonym:5c1f"
  rule := .count sshBruteforce
  offset := 0
  known := by decide

def anyHit : Env where
  engineVersion := "1.0.0"
  threatIntelHit := fun _ => none

theorem rowsAt_emptyStore (key : String) : rowsAt emptyStore key = ∅ := by
  ext row
  exact ⟨fun h => (Table.not_mem_empty h.1).elim, fun h => h.elim⟩

def burst : Evaluation := bruteforceOn [10, 11, 12, 13, 14] 14

def burstGoesOn : Evaluation := bruteforceOn [15, 16] 16

/-- Five failures are assessed, and once more with the two that follow: the row is updated. -/
theorem stored_equals_members_burst :
    ((play anyHit emptyStore [burst, burstGoesOn]).assessments.rows.map
        (fun row => (row.firstSeen, row.eventCount))) =
      [((failedLogin 10).occurredAt, 7)] ∧
    ∀ row ∈ rowsAt (play anyHit emptyStore ([burst] ++ [burstGoesOn]))
        ((Rule.count sshBruteforce).key burstGoesOn.window),
      Matches sshBruteforce ((play anyHit emptyStore ([burst] ++ [burstGoesOn])).events.filter
        burstGoesOn.window.holds) row := by
  have hsees : SeesAll sshBruteforce (burstGoesOn.receive (play anyHit emptyStore [burst]))
      burstGoesOn :=
    ⟨rfl, by decide +kernel, by decide +kernel, by decide +kernel⟩
  refine ⟨by decide +kernel,
    (stored_equals_members_iff anyHit (by decide) (rowsAt_emptyStore _) hsees).2.2 ?_⟩
  intro us v vs hrun _ _ e he hholds
  match us, hrun with
  | [], hrun =>
    obtain ⟨rfl, rfl⟩ := cons.inj hrun
    have hfirst : ∀ e ∈ [burstGoesOn].flatMap Evaluation.stored,
        (failedLogin 10).occurredAt ≤ e.occurredAt := by decide
    have hthere : failedLogin 10 ∈ (play anyHit emptyStore ([] ++ [burst])).events ∧
        burstGoesOn.window.holds (failedLogin 10) = true := by decide +kernel
    exact ⟨failedLogin 10, hthere.1, hthere.2, hfirst e he⟩
  | [_], hrun =>
    obtain ⟨-, hrest⟩ := cons.inj hrun
    rw [← (cons.inj hrest).2] at he
    cases he
  | _ :: _ :: us, hrun =>
    have hlength := congrArg List.length hrun
    simp at hlength

/-- Five failures are assessed, and then an earlier one is delivered: `first_seen` stays. -/
theorem late_failure_keeps_first_seen :
    SeesAll sshBruteforce ((bruteforceOn [0] 0).receive
        (play anyHit emptyStore [bruteforceOn [10, 11, 12, 13, 14] 14])) (bruteforceOn [0] 0) ∧
      ¬ ∀ row ∈ rowsAt (play anyHit emptyStore
            ([bruteforceOn [10, 11, 12, 13, 14] 14] ++ [bruteforceOn [0] 0]))
          ((Rule.count sshBruteforce).key (bruteforceOn [0] 0).window),
        Matches sshBruteforce ((play anyHit emptyStore
          ([bruteforceOn [10, 11, 12, 13, 14] 14] ++ [bruteforceOn [0] 0])).events.filter
            (bruteforceOn [0] 0).window.holds) row := by
  refine ⟨⟨rfl, by decide +kernel, by decide +kernel, by decide +kernel⟩, fun hmatch => ?_⟩
  have hrow : ∃ row ∈ (play anyHit emptyStore
        ([bruteforceOn [10, 11, 12, 13, 14] 14] ++ [bruteforceOn [0] 0])).assessments.rows,
      row.dedupeKey = (Rule.count sshBruteforce).key (bruteforceOn [0] 0).window ∧
        ∃ e ∈ (play anyHit emptyStore ([bruteforceOn [10, 11, 12, 13, 14] 14] ++
            [bruteforceOn [0] 0])).events.filter (bruteforceOn [0] 0).window.holds,
          e.occurredAt < row.firstSeen := by
    decide +kernel
  obtain ⟨row, hrow, hkey, e, he, hlt⟩ := hrow
  exact absurd ((hmatch row ⟨hrow, hkey⟩).firstSeen.2 e he) (Nat.not_le.2 hlt)

end Clawforge.SecurityEngine

import Clawforge.SecurityEngine.Rules

/-!
# Staggered windows hold every dense burst

The two grids of a rule are half a window apart, so that a span of at most half a window that
crosses a boundary of the one lies inside a window of the other. Times are integers here, before
the epoch too; the stored events of the engine's runs are those with a time from the epoch on.
-/

namespace Clawforge.SecurityEngine

open Assessments EventDelivery Kit List

/-! ## Windows and rows at any time -/

/-- `bucket_start`, at any time; seconds that `timestamp_opt` has no date for are not reached. -/
def bucketStartAt (occurredAt : Int) (windowSeconds : Nat) (offsetSeconds : Int) : Int :=
  atSecond ((timestamp occurredAt - offsetSeconds) / windowSeconds * windowSeconds + offsetSeconds)

theorem bucketStart_eq_bucketStartAt (occurredAt : Instant) (windowSeconds : Nat) (offsetSeconds : Int) :
    bucketStart occurredAt windowSeconds offsetSeconds =
      bucketStartAt occurredAt windowSeconds offsetSeconds := rfl

/-- A row of `events`, as the bucket queries read it. -/
structure EventRow where
  eventId : Uuid
  eventType : String
  occurredAt : Int
  correlationId : Option String
  payload : Json

def EventRow.of (e : Event) : EventRow where
  eventId := e.eventId
  eventType := e.eventType
  occurredAt := e.occurredAt
  correlationId := e.correlationId
  payload := e.payload

/-- The row counts for the resource and status class of a window, whenever it occurred. -/
def matchesBucket (b : Bucket) (e : EventRow) : Bool :=
  e.eventType = b.eventType && e.correlationId = some b.correlationId &&
    b.status.predicate e.payload

/-- The condition of the bucket queries on one row. -/
def inBucket (b : Bucket) (e : EventRow) : Bool :=
  matchesBucket b e && b.start ≤ e.occurredAt && e.occurredAt < b.stop

/-- `ORDER BY occurred_at`. -/
def EarlierRow (a b : EventRow) : Prop := a.occurredAt ≤ b.occurredAt

instance : DecidableRel EarlierRow := fun a b => Int.decLe a.occurredAt b.occurredAt

/-- The `LIMIT` of the bucket query. -/
def readLimit (maxMembers : Nat) : Nat := min (max maxMembers 1) 1000

/-- `list_events_for_bucket_limited`. -/
def listRowsForBucketLimited (rows : List EventRow) (b : Bucket) (limit : Nat) : List EventRow :=
  ((rows.filter (inBucket b)).insertionSort EarlierRow).take (readLimit limit)

theorem inBucket_of (b : Bucket) (e : Event) : inBucket b (EventRow.of e) = b.holds e := by
  unfold inBucket matchesBucket Bucket.holds EventRow.of
  rw [Bool.eq_iff_iff]
  simp only [Bool.and_eq_true]
  tauto

theorem orderedInsert_of (e : Event) (events : List Event) :
    (events.orderedInsert Earlier e).map EventRow.of =
      (events.map EventRow.of).orderedInsert EarlierRow (EventRow.of e) := by
  induction events with
  | nil => rfl
  | cons x events ih =>
    rw [map_cons, orderedInsert_cons, orderedInsert_cons]
    by_cases h : Earlier e x
    · have h' : EarlierRow (EventRow.of e) (EventRow.of x) := Int.ofNat_le.mpr h
      rw [if_pos h, if_pos h']
      rfl
    · have h' : ¬ EarlierRow (EventRow.of e) (EventRow.of x) := fun hle => h (Int.ofNat_le.mp hle)
      rw [if_neg h, if_neg h', map_cons, ih]

/-- On the engine's events the query is the one its rules read. -/
theorem listEventsForBucketLimited_eq (events : List Event) (b : Bucket) (limit : Nat) :
    (listEventsForBucketLimited events b limit).map EventRow.of =
      listRowsForBucketLimited (events.map EventRow.of) b limit := by
  have hsort : ∀ xs : List Event, (xs.insertionSort Earlier).map EventRow.of =
      (xs.map EventRow.of).insertionSort EarlierRow := by
    intro xs
    induction xs with
    | nil => rfl
    | cons x xs ih =>
      rw [map_cons, insertionSort_cons, insertionSort_cons, orderedInsert_of, ih]
  have hfilter : (events.map EventRow.of).filter (inBucket b) =
      (events.filter b.holds).map EventRow.of := by
    rw [List.filter_map]
    congr 1
    exact filter_congr fun e _ => inBucket_of b e
  unfold listEventsForBucketLimited listRowsForBucketLimited readLimit
  rw [map_take, hsort, hfilter]

/-! ## The grids -/

section Grid

variable {w : Nat} (offset : Int)

/-- The start of a window, in seconds. -/
theorem bucketStartAt_second (hw : 0 < w) (t : Int) :
    ∃ n, bucketStartAt t w offset = atSecond (n * w + offset) ∧
      n * w + offset ≤ timestamp t ∧ timestamp t < n * w + w + offset := by
  refine ⟨(timestamp t - offset) / w, rfl, ?_, ?_⟩
  · have := Int.ediv_mul_le (timestamp t - offset) (b := w) (by omega)
    omega
  · have := Int.lt_ediv_add_one_mul_self (timestamp t - offset) (b := w) (by omega)
    rw [Int.add_mul, Int.one_mul] at this
    omega

/-- A window starts at or before the time and ends after it. -/
theorem bucketStartAt_spec (hw : 0 < w) (t : Int) :
    bucketStartAt t w offset ≤ t ∧ t < bucketStartAt t w offset + seconds w := by
  obtain ⟨n, hn, hle, hlt⟩ := bucketStartAt_second offset hw t
  rw [hn]
  generalize n * (w : Int) = k at hle hlt
  unfold timestamp at hle hlt
  unfold atSecond seconds
  push_cast
  omega

/-- A time in the window of another time has the same window. -/
theorem bucketStartAt_unique (hw : 0 < w) {n t : Int}
    (hle : atSecond (n * w + offset) ≤ t) (hlt : t < atSecond (n * w + offset) + seconds w) :
    bucketStartAt t w offset = atSecond (n * w + offset) := by
  have hdiv : (timestamp t - offset) / w = n := by
    refine ((Int.ediv_emod_unique (r := timestamp t - offset - w * n) (by omega)).mpr
      ⟨by omega, ?_, ?_⟩).1
    all_goals
      rw [Int.mul_comm (w : Int) n]
      generalize n * (w : Int) = k at hle hlt
      unfold atSecond at hle hlt
      unfold seconds at hlt
      push_cast at hle hlt
      unfold timestamp
      omega
  unfold bucketStartAt
  rw [hdiv]

/-- A span of at most half a window lies inside one window of one of the grids. -/
theorem span_in_window (hw : 2 ≤ w) {first last : Int}
    (hspan : last - first ≤ seconds (w / 2)) :
    ∃ offset ∈ gridOffsets w, ∀ t, first ≤ t → t ≤ last →
      bucketStartAt t w offset = bucketStartAt last w offset := by
  have hpos : 0 < w := by omega
  have hspan' : last - first ≤ ((w / 2 : Nat) : Int) * 1000000 := by
    unfold seconds at hspan
    push_cast at hspan ⊢
    exact hspan
  -- it is enough that the window of `last` starts before the span
  have hinside : ∀ offset, bucketStartAt last w offset ≤ first →
      ∀ t, first ≤ t → t ≤ last → bucketStartAt t w offset = bucketStartAt last w offset := by
    intro offset hstart t hfirst hlast
    obtain ⟨n, hn, -, -⟩ := bucketStartAt_second offset hpos last
    have hend := (bucketStartAt_spec offset hpos last).2
    rw [hn] at hstart hend ⊢
    exact bucketStartAt_unique offset hpos (hstart.trans hfirst) (lt_of_le_of_lt hlast hend)
  by_cases haligned : bucketStartAt last w 0 ≤ first
  · exact ⟨0, by simp [gridOffsets], hinside 0 haligned⟩
  · -- the boundary inside the span is the middle of a window of the other grid
    refine ⟨(w / 2 : Nat), by simp [gridOffsets], hinside _ ?_⟩
    obtain ⟨n, hn, -, -⟩ := bucketStartAt_second 0 hpos last
    have hboundary := (bucketStartAt_spec 0 hpos last).1
    rw [hn] at haligned hboundary
    have hmiddle : bucketStartAt last w (w / 2 : Nat) =
        atSecond ((n - 1) * w + (w / 2 : Nat)) := by
      apply bucketStartAt_unique (w / 2 : Nat) hpos
      all_goals
        rw [Int.sub_mul, Int.one_mul]
        generalize n * (w : Int) = k at haligned hboundary
        unfold atSecond seconds at *
        push_cast at *
        omega
    rw [hmiddle, Int.sub_mul, Int.one_mul]
    generalize n * (w : Int) = k at haligned hboundary
    unfold atSecond at *
    push_cast at *
    omega

end Grid

/-! ## The burst -/

/-- The rows of a span. -/
def spanRows (b : Bucket) (first last : Int) (rows : List EventRow) : List EventRow :=
  rows.filter fun e => matchesBucket b e && first ≤ e.occurredAt && e.occurredAt ≤ last

/-- The query finds as many rows as a span inside the window holds, up to its limit. -/
theorem length_listRows {b : Bucket} {first last : Int} (hfirst : b.start ≤ first)
    (hlast : last < b.stop) (rows : List EventRow) (limit : Nat) :
    min (readLimit limit) (spanRows b first last rows).length ≤
      (listRowsForBucketLimited rows b limit).length := by
  have hsub : (spanRows b first last rows).length ≤ (rows.filter (inBucket b)).length := by
    refine (monotone_filter_right rows fun e he => ?_).length_le
    simp only [inBucket, Bool.and_eq_true, decide_eq_true_eq] at he ⊢
    exact ⟨⟨he.1.1, hfirst.trans he.1.2⟩, lt_of_le_of_lt he.2 hlast⟩
  unfold listRowsForBucketLimited
  rw [length_take, length_insertionSort]
  omega

end Clawforge.SecurityEngine

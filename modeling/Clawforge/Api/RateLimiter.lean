import Clawforge.Kit.FixedWindow
import Clawforge.Kit.Table
import Clawforge.Kit.TSys

/-!
# The rate limiter

`RateLimiter::check`: one table of buckets for all callers, whatever the length of their
windows. A call that finds more than ten thousand of them first throws away those its own
window calls old.
-/

namespace Clawforge.RateLimiter

open Kit Table

structure Bucket where
  key : String
  started : Nat
  count : Nat
deriving DecidableEq, Repr

abbrev Buckets := Table Bucket.key

structure RateDecision where
  allowed : Bool
  remaining : Nat
  retryAfter : Nat
deriving DecidableEq, Repr

def Bucket.window (b : Bucket) : Window := ⟨b.started, b.count⟩

/-- `buckets.retain` above ten thousand buckets, by the window of the caller. -/
def retained (buckets : Buckets) (now window : Nat) : Buckets :=
  if 10000 < buckets.rows.length then
    buckets.deleteWhere (fun b => ¬ now - b.started < window)
  else buckets

/-- The bucket of the key is written. -/
def store (buckets : Buckets) (key : String) (v : Window) : Buckets :=
  buckets.updateWhere (fun b => b.key = key)
    (fun b => { b with started := v.started, count := v.count }) (fun _ => rfl)

/-- `RateLimiter::check` at `now`. -/
def check (buckets : Buckets) (key : String) (limit window now : Nat) : RateDecision × Buckets :=
  let entered := (retained buckets now window).insertOrIgnore ⟨key, now, 0⟩
  let current := Window.current window now ((entered.get? key).map Bucket.window)
  let retryAfter := window - (now - current.started)
  if limit ≤ current.count then
    (⟨false, 0, retryAfter⟩, store entered key current)
  else
    (⟨true, limit - (current.count + 1), retryAfter⟩, store entered key (current.answered true))

/-! ## Calls -/

/-- How often a key may be used, and in which time. -/
structure RateLimit where
  limit : Nat
  window : Nat
deriving DecidableEq, Repr

/-- The buckets, and for each key what its calls were answered. -/
structure World where
  now : Nat
  buckets : Buckets
  calls : String → List Call

def World.start : World := ⟨0, Table.empty _, fun _ => []⟩

inductive Action
  | tick (now : Nat)
  | check (key : String)
deriving DecidableEq, Repr

/-- A call at the time it is, and its answer. -/
def World.check (w : World) (key : String) (rate : RateLimit) : World :=
  let (decision, buckets) := RateLimiter.check w.buckets key rate.limit rate.window w.now
  { w with
    buckets
    calls := fun k =>
      if k = key then ⟨w.now, decision.allowed⟩ :: w.calls k else w.calls k }

def exec (policy : String → RateLimit) (w : World) : Action → Option World
  | .tick now => if w.now ≤ now then some { w with now } else none
  | .check key => some (w.check key (policy key))

/-- Calls at non-decreasing times, with any keys. -/
def limiterSystem (policy : String → RateLimit) : TSys World Action :=
  TSys.ofExec (· = World.start) (exec policy)

/-! ## What a call leaves -/

variable {buckets : Buckets} {key k : String} {limit window now : Nat}

theorem get?_retained (k : String) : (retained buckets now window).get? k =
    if 10000 < buckets.rows.length then
      (buckets.get? k).filter (fun b => now - b.started < window)
    else buckets.get? k := by
  unfold retained
  by_cases hfull : 10000 < buckets.rows.length
  · rw [if_pos hfull, if_pos hfull, get?_deleteWhere]
    simp only [not_not]
  · rw [if_neg hfull, if_neg hfull]

theorem get?_store (k : String) (v : Window) : (store buckets key v).get? k =
    if k = key then (buckets.get? k).map (fun _ => ⟨key, v.started, v.count⟩)
    else buckets.get? k := by
  unfold store
  rw [get?_updateWhere]
  cases hg : buckets.get? k with
  | none => simp
  | some b =>
    have hk := key_of_get? hg
    by_cases h : k = key
    · subst h
      simp [hk]
    · rw [if_neg h, Option.map_some, if_neg (by rw [hk]; exact h)]

/-- The window the call falls into: that of the bucket, if it is there and has not elapsed. -/
def windowAt (buckets : Buckets) (key : String) (window now : Nat) : Window :=
  Window.current window now (((retained buckets now window).get? key).map Bucket.window)

theorem entered_window : Window.current window now
    ((((retained buckets now window).insertOrIgnore ⟨key, now, 0⟩).get? key).map Bucket.window) =
      windowAt buckets key window now := by
  have hentered := get?_insertOrIgnore (T := retained buckets now window)
    (r := ⟨key, now, 0⟩)
  dsimp only at hentered
  rw [hentered]
  unfold windowAt
  cases (retained buckets now window).get? key with
  | some b => rfl
  | none =>
    show (if _ then _ else _ : Window) = ⟨now, 0⟩
    split
    · rfl
    · rfl

/-- A call is answered by the room its window has. -/
theorem check_allowed : (check buckets key limit window now).1.allowed =
    decide ((windowAt buckets key window now).count < limit) := by
  unfold check
  dsimp only
  rw [entered_window]
  split
  case isTrue h => exact (decide_eq_false (not_lt.2 h)).symm
  case isFalse h => exact (decide_eq_true (not_le.1 h)).symm

theorem get?_check (k : String) : (check buckets key limit window now).2.get? k =
    if k = key then
      let v := (windowAt buckets key window now).answered
        (check buckets key limit window now).1.allowed
      some ⟨key, v.started, v.count⟩
    else (retained buckets now window).get? k := by
  rw [check_allowed]
  unfold check
  dsimp only
  rw [entered_window]
  have hentered := get?_insertOrIgnore (T := retained buckets now window)
    (r := ⟨key, now, 0⟩)
  dsimp only at hentered
  split
  case isTrue h =>
    rw [get?_store, decide_eq_false (not_lt.2 h)]
    by_cases hk : k = key
    · subst hk
      rw [if_pos rfl, if_pos rfl, hentered]
      rfl
    · rw [if_neg hk, if_neg hk]
      exact get?_insertOrIgnore_of_ne hk
  case isFalse h =>
    rw [get?_store, decide_eq_true (not_le.1 h)]
    by_cases hk : k = key
    · subst hk
      rw [if_pos rfl, if_pos rfl, hentered]
      rfl
    · rw [if_neg hk, if_neg hk]
      exact get?_insertOrIgnore_of_ne hk

/-- A bucket whose window the caller's does not call old stays. -/
theorem get?_retained_of_live {b : Bucket} (h : buckets.get? k = some b)
    (hlive : now - b.started < window) : (retained buckets now window).get? k = some b := by
  rw [get?_retained, h, Option.filter_some, if_pos (decide_eq_true hlive)]
  split
  · rfl
  · rfl

theorem get?_of_retained {b : Bucket} (h : (retained buckets now window).get? k = some b) :
    buckets.get? k = some b := by
  rw [get?_retained] at h
  split at h
  case isTrue => exact (Option.filter_eq_some_iff.1 h).1
  case isFalse => exact h

end Clawforge.RateLimiter

import Mathlib.Algebra.Order.Group.Defs
import Mathlib.Data.List.Basic

/-!
# Sliding windows

Admission by count: an entry stamped `t` is admitted if fewer than `limit` entries are
stamped after `t - width`. The stamps may come in any order; no set of stamps less than
`width` apart has more than `limit` of the entries.
-/

namespace Kit

open List

universe u

variable {α : Type u} [AddCommGroup α] [LinearOrder α]

/-- The entries stamped after `t - width`, however late. -/
def since (width t : α) (l : List α) : List α := l.filter (fun s => t - width < s)

/-- Stamps in order of admission. -/
inductive Admitted (limit : Nat) (width : α) : List α → Prop
  | nil : Admitted limit width []
  | entry {l : List α} {t : α} : Admitted limit width l →
      (since width t l).length < limit → Admitted limit width (l ++ [t])

/-- All within less than `width` of each other. -/
def Narrow (width : α) (I : α → Bool) : Prop :=
  ∀ a b, I a = true → I b = true → b - a < width

theorem narrow_Ico [IsOrderedAddMonoid α] (width x : α) :
    Narrow width (fun s => x ≤ s && s < x + width) := by
  intro a b ha hb
  simp only [Bool.and_eq_true, decide_eq_true_eq] at ha hb
  exact sub_lt_iff_lt_add.2 (hb.2.trans_le (by rw [add_comm]; gcongr; exact ha.1))

theorem narrow_Ioc [IsOrderedAddMonoid α] (width x : α) :
    Narrow width (fun s => x < s && s ≤ x + width) := by
  intro a b ha hb
  simp only [Bool.and_eq_true, decide_eq_true_eq] at ha hb
  exact sub_lt_iff_lt_add.2 (hb.2.trans_lt (by rw [add_comm]; gcongr; exact ha.1))

/-- What is near `t` counted against it. -/
theorem length_filter_le_since [IsOrderedAddMonoid α] {width t : α} {I : α → Bool}
    (hI : Narrow width I) (ht : I t = true) (l : List α) :
    (l.filter I).length ≤ (since width t l).length := by
  unfold since
  rw [← countP_eq_length_filter, ← countP_eq_length_filter]
  apply countP_mono_left
  intro s _ hs
  rw [decide_eq_true_eq]
  exact sub_lt_comm.1 (hI s t hs ht)

/-- No narrow set of stamps has more than `limit` of the entries: of those in it, the last
one admitted counted all the others. -/
theorem Admitted.length_filter_le [IsOrderedAddMonoid α] {limit : Nat} {width : α} {l : List α}
    (h : Admitted limit width l) {I : α → Bool} (hI : Narrow width I) :
    (l.filter I).length ≤ limit := by
  induction h with
  | nil => exact Nat.zero_le _
  | @entry l t _ hcount ih =>
    rw [filter_append, length_append]
    cases ht : I t with
    | false => simpa [ht] using ih
    | true =>
      have hle := length_filter_le_since hI ht l
      simp only [ht, filter_cons_of_pos, filter_nil, length_singleton]
      omega

end Kit

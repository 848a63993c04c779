import Mathlib.Tactic.Ring

/-!
# Arithmetic at a fixed width

What a release build computes, together with whether anything was lost on the way: a
result that does not fit wraps around, and a narrowing cast keeps the low bits. A debug
build stops at the first operation that loses something, and casts like a release build.
-/

namespace Kit

universe u

/-- A value, and whether every operation on the way to it was exact. -/
structure Tracked (α : Type u) where
  value : α
  lossless : Bool

namespace Tracked

variable {α β : Type u}

instance : Monad Tracked where
  pure a := ⟨a, true⟩
  bind x f := ⟨(f x.value).value, x.lossless && (f x.value).lossless⟩

theorem pure_eq (a : α) : (pure a : Tracked α) = ⟨a, true⟩ := rfl

theorem bind_eq (x : Tracked α) (f : α → Tracked β) :
    x >>= f = ⟨(f x.value).value, x.lossless && (f x.value).lossless⟩ := rfl

theorem pure_bind (a : α) (f : α → Tracked β) : (pure a : Tracked α) >>= f = f a := by
  rw [pure_eq, bind_eq, Bool.true_and]

/-- An exact tail leaves the loss of its head. -/
theorem bind_of_pure {x : Tracked α} {f : α → Tracked β} {b : β} (h : f x.value = pure b) :
    x >>= f = ⟨b, x.lossless⟩ := by
  rw [bind_eq, h, pure_eq, Bool.and_true]

/-- A result of `w` bits without sign. -/
def unsigned (w : Nat) (n : Int) : Tracked Nat where
  value := (n % 2 ^ w).toNat
  lossless := decide (0 ≤ n ∧ n < 2 ^ w)

/-- A result of `w` bits in two's complement. -/
def signed (w : Nat) (n : Int) : Tracked Int where
  value := n.bmod (2 ^ w)
  lossless := decide (-(2 ^ (w - 1)) ≤ n ∧ n < 2 ^ (w - 1))

theorem lossless_unsigned {w : Nat} {n : Int} :
    (unsigned w n).lossless = true ↔ 0 ≤ n ∧ n < 2 ^ w := decide_eq_true_iff

theorem unsigned_of_fits {w : Nat} {n : Int} (h0 : 0 ≤ n) (hn : n < 2 ^ w) :
    unsigned w n = pure n.toNat := by
  rw [unsigned, decide_eq_true ⟨h0, hn⟩, Int.emod_eq_of_lt h0 hn, pure_eq]

theorem signed_of_fits {w : Nat} {n : Int} (h0 : -(2 ^ w) ≤ n) (hn : n < 2 ^ w) :
    signed (w + 1) n = pure n := by
  have hmod : n.bmod (2 ^ (w + 1)) = n := by
    apply Int.bmod_eq_of_le_mul_two
    · push_cast [pow_succ]
      omega
    · push_cast [pow_succ]
      omega
  rw [signed, hmod, Nat.add_sub_cancel, decide_eq_true ⟨h0, hn⟩, pure_eq]

/-- A sum that fits is exact term by term. -/
theorem foldlM_unsigned {w : Nat} {terms : List Nat} {a : Nat} (h : a + terms.sum < 2 ^ w) :
    terms.foldlM (fun acc (t : Nat) => unsigned w ((acc : Int) + t)) a = pure (a + terms.sum) := by
  induction terms generalizing a with
  | nil => rfl
  | cons t terms ih =>
    rw [List.sum_cons] at h ⊢
    have hfirst : unsigned w ((a : Int) + t) = pure (a + t) := by
      have hlt : a + t < 2 ^ w := by omega
      exact unsigned_of_fits (by omega) (by exact_mod_cast hlt)
    rw [List.foldlM_cons, hfirst, pure_bind, ih (by omega), Nat.add_assoc]

/-- So is a difference. -/
theorem foldlM_signed {w : Nat} {terms : List Nat} {a : Int} (ha : a < 2 ^ w)
    (h : -(2 ^ w) ≤ a - terms.sum) :
    terms.foldlM (fun acc (t : Nat) => signed (w + 1) (acc - t)) a = pure (a - terms.sum) := by
  induction terms generalizing a with
  | nil => simp
  | cons t terms ih =>
    rw [List.sum_cons, Nat.cast_add] at h ⊢
    have hfirst : signed (w + 1) (a - (t : Nat)) = pure (a - t) :=
      signed_of_fits (by omega) (by omega)
    rw [List.foldlM_cons, hfirst, pure_bind, ih (by omega) (by omega), Int.sub_sub]

end Tracked

end Kit

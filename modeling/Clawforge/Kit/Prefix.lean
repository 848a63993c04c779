import Mathlib.Data.Set.Image

/-!
# Prefix networks

The words of one width that agree with a given word on its leading `p` bits.
Two networks meet exactly when their bases agree on the shorter prefix, one
of them then contains the other, and a network determines its prefix length.
-/

namespace Kit

variable {w : Nat} {a b : BitVec w} {p : Nat}

/-- The word whose leading `p` bits are set. -/
def prefixMask (w p : Nat) : BitVec w :=
  if p = 0 then 0 else BitVec.allOnes w <<< (w - p)

/-- The words that agree with `a` on the leading `p` bits. -/
def network (a : BitVec w) (p : Nat) : Set (BitVec w) :=
  {x | ∀ i, w - p ≤ i → x.getLsbD i = a.getLsbD i}

/-! ## Masks -/

theorem getLsbD_prefixMask (p i : Nat) :
    (prefixMask w p).getLsbD i = (decide (i < w) && decide (w - p ≤ i)) := by
  unfold prefixMask
  by_cases h0 : p = 0
  · rw [if_pos h0]
    by_cases hi : i < w
    · simp [h0, hi]
    · simp [h0, hi]
  · rw [if_neg h0, BitVec.getLsbD_shiftLeft]
    by_cases hi : i < w
    · by_cases hle : w - p ≤ i
      · have : i - (w - p) < w := by omega
        simp [hi, hle, this, Nat.not_lt.mpr hle]
      · simp [hi, hle, Nat.lt_of_not_le hle]
    · simp [hi]

/-- Comparing masked words is comparing leading bits. -/
theorem and_prefixMask_eq_iff (p : Nat) (x a : BitVec w) :
    x &&& prefixMask w p = a &&& prefixMask w p ↔ x ∈ network a p := by
  constructor
  · intro h i hi
    by_cases hiw : i < w
    · have hbit : (x &&& prefixMask w p).getLsbD i = (a &&& prefixMask w p).getLsbD i := by
        rw [h]
      rw [BitVec.getLsbD_and, BitVec.getLsbD_and, getLsbD_prefixMask] at hbit
      simpa [hiw, hi] using hbit
    · rw [BitVec.getLsbD_of_ge _ _ (by omega), BitVec.getLsbD_of_ge _ _ (by omega)]
  · intro h
    apply BitVec.eq_of_getLsbD_eq
    intro i hiw
    rw [BitVec.getLsbD_and, BitVec.getLsbD_and, getLsbD_prefixMask]
    by_cases hi : w - p ≤ i
    · rw [h i hi]
    · simp [hi]

/-! ## Networks -/

theorem self_mem_network (a : BitVec w) (p : Nat) : a ∈ network a p := by
  intro i _
  rfl

theorem mem_network_comm : b ∈ network a p ↔ a ∈ network b p := by
  constructor
  · intro h i hi
    exact (h i hi).symm
  · intro h i hi
    exact (h i hi).symm

/-- A longer prefix names a smaller network. -/
theorem network_anti {q : Nat} (h : p ≤ q) : network a q ⊆ network a p := by
  intro x hx i hi
  exact hx i (by omega)

/-- Any member of a network may stand for its base. -/
theorem network_eq_of_mem (h : b ∈ network a p) : network b p = network a p := by
  ext x
  constructor
  · intro hx i hi
    rw [hx i hi, h i hi]
  · intro hx i hi
    rw [hx i hi, h i hi]

theorem network_full (a : BitVec w) : network a w = {a} := by
  ext x
  constructor
  · intro hx
    apply BitVec.eq_of_getLsbD_eq
    intro i _
    exact hx i (by omega)
  · intro hx
    rw [Set.mem_singleton_iff.mp hx]
    exact self_mem_network a w

/-- Two networks meet exactly when their bases agree on the shorter prefix. -/
theorem network_inter_nonempty_iff (a b : BitVec w) (p q : Nat) :
    (network a p ∩ network b q).Nonempty ↔ a ∈ network b (min p q) := by
  constructor
  · rintro ⟨z, hza, hzb⟩ i hi
    rw [← hza i (by omega), hzb i (by omega)]
  · intro h
    rcases Nat.le_total p q with hpq | hqp
    · rw [Nat.min_eq_left hpq] at h
      exact ⟨b, mem_network_comm.mp h, self_mem_network b q⟩
    · rw [Nat.min_eq_right hqp] at h
      exact ⟨a, self_mem_network a p, h⟩

/-- A network fixes no bit below its prefix. -/
theorem exists_mem_network_flip (a : BitVec w) {i : Nat} (hi : i < w - p) :
    ∃ x ∈ network a p, x.getLsbD i = !a.getLsbD i := by
  refine ⟨a ^^^ BitVec.twoPow w i, ?_, ?_⟩
  · intro j hj
    have hne : i ≠ j := by omega
    rw [BitVec.getLsbD_xor, BitVec.getLsbD_twoPow]
    simp [hne]
  · have hiw : i < w := by omega
    rw [BitVec.getLsbD_xor, BitVec.getLsbD_twoPow]
    simp [hiw]

theorem prefix_le_of_network_subset {q : Nat} (hq : q ≤ w) (h : network a p ⊆ network b q) :
    q ≤ p := by
  by_contra hlt
  obtain ⟨x, hx, hflip⟩ := exists_mem_network_flip a (p := p) (i := w - q) (by omega)
  have hxb : x.getLsbD (w - q) = b.getLsbD (w - q) := h hx _ (Nat.le_refl _)
  have hab : a.getLsbD (w - q) = b.getLsbD (w - q) :=
    h (self_mem_network a p) _ (Nat.le_refl _)
  rw [hxb, hab] at hflip
  cases hbit : b.getLsbD (w - q) <;> simp [hbit] at hflip

/-- A network determines its prefix length, and its base up to that prefix. -/
theorem network_eq_network_iff {q : Nat} (hp : p ≤ w) (hq : q ≤ w) :
    network a p = network b q ↔ p = q ∧ a ∈ network b q := by
  constructor
  · intro h
    have hqp : q ≤ p := prefix_le_of_network_subset hq h.subset
    have hpq : p ≤ q := prefix_le_of_network_subset hp h.symm.subset
    exact ⟨Nat.le_antisymm hpq hqp, h ▸ self_mem_network a p⟩
  · rintro ⟨rfl, h⟩
    exact network_eq_of_mem h

end Kit

import Mathlib.Data.List.TakeWhile
import Mathlib.Tactic.IntervalCases

/-!
# Numerals

Numbers as text in a base up to sixteen, and as digit lists of a fixed
length, most significant digit first. `Nat.toDigits` writes; `numeralValue`
reads either letter case back.
-/

namespace Kit

open List

/-! ## Digits -/

/-- The value of one character as a digit of `radix`, letters in either case. -/
def digitValue (radix : Nat) (c : Char) : Option Nat :=
  let v :=
    if '0' ≤ c ∧ c ≤ '9' then some (c.toNat - '0'.toNat)
    else if 'a' ≤ c ∧ c ≤ 'f' then some (c.toNat - 'a'.toNat + 10)
    else if 'A' ≤ c ∧ c ≤ 'F' then some (c.toNat - 'A'.toNat + 10)
    else none
  v.filter (· < radix)

/-- Whether a character is a digit of `radix`. -/
def isDigitOf (radix : Nat) (c : Char) : Bool :=
  (digitValue radix c).isSome

variable {radix : Nat}

theorem isDigitOf_mono {radix' : Nat} (h : radix ≤ radix') {c : Char}
    (hc : isDigitOf radix c = true) : isDigitOf radix' c = true := by
  unfold isDigitOf digitValue at hc ⊢
  simp only [Option.isSome_filter, Option.any_eq_true, decide_eq_true_eq] at hc ⊢
  obtain ⟨v, hv, hlt⟩ := hc
  exact ⟨v, hv, Nat.lt_of_lt_of_le hlt h⟩

theorem digitValue_digitChar {d : Nat} (hr : radix ≤ 16) (hd : d < radix) :
    digitValue radix d.digitChar = some d := by
  have hd16 : d < 16 := by omega
  have key : ∀ e < 16, ∀ r ≤ 16, e < r → digitValue r e.digitChar = some e := by decide
  exact key d hd16 radix hr hd

theorem isDigitOf_digitChar {d : Nat} (hr : radix ≤ 16) (hd : d < radix) :
    isDigitOf radix d.digitChar = true := by
  simp [isDigitOf, digitValue_digitChar hr hd]

/-! ## Text of a number -/

/-- The number a text of digits stands for. -/
def numeralValue (radix : Nat) (cs : List Char) : Nat :=
  cs.foldl (fun acc c => acc * radix + (digitValue radix c).getD 0) 0

theorem numeralValue_snoc (radix : Nat) (cs : List Char) (c : Char) :
    numeralValue radix (cs ++ [c]) =
      numeralValue radix cs * radix + (digitValue radix c).getD 0 := by
  simp [numeralValue]

/-- Reading back what `Nat.toDigits` wrote. -/
theorem numeralValue_toDigits (h1 : 1 < radix) (hr : radix ≤ 16) (n : Nat) :
    numeralValue radix (Nat.toDigits radix n) = n := by
  induction n using Nat.strongRecOn with
  | ind n ih =>
    rw [Nat.toDigits_eq_if h1]
    by_cases hn : n < radix
    · rw [if_pos hn]
      simp [numeralValue, digitValue_digitChar hr hn]
    · rw [if_neg hn, numeralValue_snoc]
      have hlt : n / radix < n := Nat.div_lt_self (by omega) h1
      have hmod : n % radix < radix := Nat.mod_lt n (by omega)
      rw [ih _ hlt, digitValue_digitChar hr hmod]
      show n / radix * radix + n % radix = n
      rw [Nat.mul_comm]
      exact Nat.div_add_mod n radix

/-- Zeros in front do not count. -/
theorem numeralValue_leftpad (radix n : Nat) (cs : List Char) :
    numeralValue radix (cs.leftpad n '0') = numeralValue radix cs := by
  have hzero : (digitValue radix '0').getD 0 = 0 := by
    unfold digitValue
    cases radix <;> rfl
  have hzeros : ∀ k, (List.replicate k '0').foldl
      (fun acc c => acc * radix + (digitValue radix c).getD 0) 0 = 0 := by
    intro k
    induction k with
    | zero => rfl
    | succ k ih => rwa [replicate_succ, foldl_cons, hzero, Nat.zero_mul]
  unfold numeralValue List.leftpad
  rw [foldl_append, hzeros]

/-- Every character `Nat.toDigits` writes is a digit. -/
theorem isDigitOf_of_mem_toDigits (h1 : 1 < radix) (hr : radix ≤ 16) {n : Nat} {c : Char}
    (hc : c ∈ Nat.toDigits radix n) : isDigitOf radix c = true := by
  induction n using Nat.strongRecOn with
  | ind n ih =>
    rw [Nat.toDigits_eq_if h1] at hc
    by_cases hn : n < radix
    · rw [if_pos hn, mem_singleton] at hc
      rw [hc]
      exact isDigitOf_digitChar hr hn
    · rw [if_neg hn, mem_append, mem_singleton] at hc
      rcases hc with hc | hc
      · exact ih _ (Nat.div_lt_self (by omega) h1) hc
      · rw [hc]
        exact isDigitOf_digitChar hr (Nat.mod_lt n (by omega))

theorem toDigits_ne_nil (radix n : Nat) : Nat.toDigits radix n ≠ [] := by
  intro h
  have := Nat.length_toDigits_pos (b := radix) (n := n)
  simp [h] at this

/-- A number of more than one digit does not start with a zero. -/
theorem head_toDigits_ne_zero (h1 : 1 < radix) (hr : radix ≤ 16) {n : Nat} (hn : 0 < n) :
    (Nat.toDigits radix n).head? ≠ some '0' := by
  have key : ∀ d < 16, 0 < d → d.digitChar ≠ '0' := by decide
  induction n using Nat.strongRecOn with
  | ind n ih =>
    rw [Nat.toDigits_eq_if h1]
    by_cases hlt : n < radix
    · rw [if_pos hlt]
      simpa using key n (by omega) hn
    · rw [if_neg hlt, List.head?_append,
        Option.or_of_isSome (isSome_head?.mpr (toDigits_ne_nil _ _))]
      exact ih _ (Nat.div_lt_self hn h1) (Nat.div_pos (by omega) (by omega))

/-! ## Scanning a numeral -/

/-- The rest of a text does not continue a numeral of `radix`. -/
def NumeralEnds (radix : Nat) (rest : List Char) : Prop :=
  ∀ c, rest.head? = some c → isDigitOf radix c = false

theorem numeralEnds_nil (radix : Nat) : NumeralEnds radix [] := by
  intro c hc
  simp at hc

theorem numeralEnds_cons {c : Char} {cs : List Char} (h : isDigitOf radix c = false) :
    NumeralEnds radix (c :: cs) := by
  intro d hd
  simp only [head?_cons, Option.some.injEq] at hd
  exact hd ▸ h

theorem takeWhile_digits {ds rest : List Char} (hds : ∀ c ∈ ds, isDigitOf radix c = true)
    (hrest : NumeralEnds radix rest) : (ds ++ rest).takeWhile (isDigitOf radix) = ds := by
  rw [takeWhile_append_of_pos hds]
  cases rest with
  | nil => simp
  | cons c cs =>
    have : isDigitOf radix c = false := hrest c rfl
    simp [this]

theorem dropWhile_digits {ds rest : List Char} (hds : ∀ c ∈ ds, isDigitOf radix c = true)
    (hrest : NumeralEnds radix rest) : (ds ++ rest).dropWhile (isDigitOf radix) = rest := by
  rw [dropWhile_append_of_pos hds]
  cases rest with
  | nil => simp
  | cons c cs =>
    have : isDigitOf radix c = false := hrest c rfl
    simp [this]

/-! ## Digit lists of a fixed length -/

/-- The last `k` digits of `n`, most significant first. -/
def toBigEndian (base : Nat) : Nat → Nat → List Nat
  | 0, _ => []
  | k + 1, n => toBigEndian base k (n / base) ++ [n % base]

/-- The number a digit list stands for, most significant digit first. -/
def ofBigEndian (base : Nat) (ds : List Nat) : Nat :=
  ds.foldl (fun acc d => acc * base + d) 0

@[simp] theorem length_toBigEndian (base k n : Nat) : (toBigEndian base k n).length = k := by
  induction k generalizing n with
  | zero => rfl
  | succ k ih => simp [toBigEndian, ih]

theorem lt_of_mem_toBigEndian {base : Nat} (hb : 0 < base) {k n d : Nat}
    (hd : d ∈ toBigEndian base k n) : d < base := by
  induction k generalizing n with
  | zero => simp [toBigEndian] at hd
  | succ k ih =>
    simp only [toBigEndian, mem_append, mem_singleton] at hd
    rcases hd with hd | rfl
    · exact ih hd
    · exact Nat.mod_lt n hb

theorem ofBigEndian_toBigEndian {base : Nat} (hb : 0 < base) {k n : Nat} (hn : n < base ^ k) :
    ofBigEndian base (toBigEndian base k n) = n := by
  induction k generalizing n with
  | zero =>
    have : n = 0 := by simpa using hn
    simp [this, toBigEndian, ofBigEndian]
  | succ k ih =>
    have hdiv : n / base < base ^ k := by
      rw [Nat.div_lt_iff_lt_mul hb, ← Nat.pow_succ]
      exact hn
    show (toBigEndian base k (n / base) ++ [n % base]).foldl (fun acc d => acc * base + d) 0 = n
    rw [foldl_append]
    show ofBigEndian base (toBigEndian base k (n / base)) * base + n % base = n
    rw [ih hdiv, Nat.mul_comm]
    exact Nat.div_add_mod n base

end Kit

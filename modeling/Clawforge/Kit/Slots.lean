import Mathlib.Data.List.Nodup

/-!
# Numbered slots

A list read as numbered slots, one for each concurrent party, of which a step
overwrites one. `Apart R` says that the contents of any two different slots are
related; the lemmas say what an overwrite has to establish.
-/

namespace Kit

open List

universe u

variable {α : Type u} {l : List α} {R : α → α → Prop}

/-- The contents of two different slots are always related by `R`. -/
def Apart (R : α → α → Prop) (l : List α) : Prop :=
  ∀ (j k : Nat) (x y : α), j ≠ k → l[j]? = some x → l[k]? = some y → R x y

theorem getElem?_set_of_ne {j k : Nat} {x : α} (h : j ≠ k) : (l.set k x)[j]? = l[j]? :=
  getElem?_set_ne h.symm

theorem eq_of_getElem?_set {k : Nat} {x y : α} (h : (l.set k x)[k]? = some y) : y = x := by
  rw [getElem?_set_self'] at h
  cases hk : l[k]? with
  | none => rw [hk] at h; cases h
  | some z => rw [hk] at h; exact (Option.some.inj h).symm

/-- After an overwrite a slot holds the new content, or is another slot. -/
theorem getElem?_set_cases {j k : Nat} {x y : α} (h : (l.set k x)[j]? = some y) :
    (j = k ∧ y = x) ∨ (j ≠ k ∧ l[j]? = some y) := by
  by_cases hjk : j = k
  · subst hjk
    exact Or.inl ⟨rfl, eq_of_getElem?_set h⟩
  · rw [getElem?_set_of_ne hjk] at h
    exact Or.inr ⟨hjk, h⟩

theorem Apart.set (hsymm : ∀ a b, R a b → R b a) {k : Nat} {x : α} (h : Apart R l)
    (hx : ∀ j y, j ≠ k → l[j]? = some y → R x y) : Apart R (l.set k x) := by
  intro i j a b hij ha hb
  rcases getElem?_set_cases ha with ⟨hik, hax⟩ | ⟨hi, ha'⟩ <;>
    rcases getElem?_set_cases hb with ⟨hjk, hbx⟩ | ⟨hj, hb'⟩
  · exact absurd (hik.trans hjk.symm) hij
  · rw [hax]
    exact hx j b hj hb'
  · rw [hbx]
    exact hsymm _ _ (hx i a hi ha')
  · exact h i j a b hij ha' hb'

/-- A new slot is related to every other. -/
theorem Apart.concat (hsymm : ∀ a b, R a b → R b a) {x : α} (h : Apart R l) (hx : ∀ y ∈ l, R x y) :
    Apart R (l ++ [x]) := by
  intro j k a b hjk ha hb
  rw [getElem?_append] at ha hb
  split at ha <;> split at hb
  · exact h j k a b hjk ha hb
  · rw [mem_singleton.mp (mem_of_getElem? hb)]
    exact hsymm _ _ (hx a (mem_of_getElem? ha))
  · rw [mem_singleton.mp (mem_of_getElem? ha)]
    exact hx b (mem_of_getElem? hb)
  · next hj hk =>
    obtain ⟨hj', -⟩ := List.getElem?_eq_some_iff.mp ha
    obtain ⟨hk', -⟩ := List.getElem?_eq_some_iff.mp hb
    rw [length_singleton] at hj' hk'
    omega

theorem apart_replicate {x : α} (h : R x x) (n : Nat) : Apart R (List.replicate n x) := by
  intro j k a b _ ha hb
  rw [getElem?_replicate] at ha hb
  split at ha
  · split at hb
    · cases ha
      cases hb
      exact h
    · cases hb
  · cases ha

/-! ## Two lists of slots -/

/-- Slots related one by one stay so when one of each is overwritten. -/
theorem forall₂_set : ∀ {xs ys : List α} {x y : α} (i : Nat),
    Forall₂ R xs ys → R x y → Forall₂ R (xs.set i x) (ys.set i y)
  | _, _, _, _, _, .nil, _ => .nil
  | _, _, _, _, 0, .cons _ hrest, hxy => .cons hxy hrest
  | _, _, _, _, i + 1, .cons h hrest, hxy => .cons h (forall₂_set i hrest hxy)

theorem forall₂_getElem? : ∀ {xs ys : List α} {x y : α} (i : Nat),
    Forall₂ R xs ys → xs[i]? = some x → ys[i]? = some y → R x y
  | _, _, _, _, 0, .cons h _, hx, hy => by
      cases hx
      cases hy
      exact h
  | _, _, _, _, i + 1, .cons _ hrest, hx, hy => forall₂_getElem? i hrest hx hy

end Kit

/-! ## Exclusive locks

What each party of a concurrent system holds, as a list of keys. `Exclusive` says that no
key is held twice, by one party or by two; it survives a release by any party and an
acquisition of a key that is free.
-/

namespace Kit

open List

universe u v

variable {ι : Type u} {κ : Type v} {held held' : ι → List κ}

/-- No key is held twice. -/
structure Exclusive (held : ι → List κ) : Prop where
  once : ∀ i, (held i).Nodup
  apart : ∀ i j k, k ∈ held i → k ∈ held j → i = j

theorem exclusive_nil : Exclusive (fun _ : ι => ([] : List κ)) where
  once _ := nodup_nil
  apart _ _ _ h := absurd h not_mem_nil

theorem Exclusive.release (h : Exclusive held) (hsub : ∀ i, (held' i).Sublist (held i)) :
    Exclusive held' where
  once i := (h.once i).sublist (hsub i)
  apart i j k hi hj := h.apart i j k ((hsub i).subset hi) ((hsub j).subset hj)

/-- One party acquires a key that is free; the others keep what they hold. -/
theorem Exclusive.acquire (h : Exclusive held) {i : ι} {k : κ} (hfree : ∀ j, k ∉ held j)
    (hgain : held' i = held i ++ [k]) (hothers : ∀ j, j ≠ i → held' j = held j) :
    Exclusive held' := by
  have hmem : ∀ j x, x ∈ held' j → x ∈ held j ∨ (j = i ∧ x = k) := by
    intro j x hx
    by_cases hj : j = i
    · subst hj
      rw [hgain, mem_append, mem_singleton] at hx
      exact hx.imp_right (fun hx => ⟨rfl, hx⟩)
    · rw [hothers j hj] at hx
      exact Or.inl hx
  constructor
  case once =>
    intro j
    by_cases hj : j = i
    · subst hj
      rw [hgain, nodup_append]
      refine ⟨h.once j, nodup_singleton k, ?_⟩
      rintro a ha b hb rfl
      rw [mem_singleton] at hb
      exact hfree j (hb ▸ ha)
    · rw [hothers j hj]
      exact h.once j
  case apart =>
    intro a b x ha hb
    rcases hmem a x ha with ha | ⟨rfl, rfl⟩ <;> rcases hmem b x hb with hb | ⟨rfl, hx⟩
    · exact h.apart a b x ha hb
    · exact absurd (hx ▸ ha) (hfree a)
    · exact absurd hb (hfree b)
    · rfl

end Kit

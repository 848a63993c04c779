import Mathlib.Data.List.Basic

/-!
# Fallible computations

What a successful `Except` computation says about its parts.
-/

namespace Kit

open List

variable {ε α β : Type} {f : α → Except ε Bool} {x : Except ε α}

theorem bind_ok {f : α → Except ε β} {b : β} (h : x >>= f = .ok b) :
    ∃ a, x = .ok a ∧ f a = .ok b := by
  cases x with
  | error e => cases h
  | ok a => exact ⟨a, rfl, h⟩

theorem except_map_ok {f : α → β} {b : β} (h : x.map f = .ok b) : ∃ a, x = .ok a ∧ f a = b := by
  cases x with
  | error e => cases h
  | ok a => exact ⟨a, rfl, Except.ok.inj h⟩

theorem except_mapError_ok {δ : Type} {f : ε → δ} {a : α} (h : x.mapError f = .ok a) :
    x = .ok a := by
  cases x with
  | error e => cases h
  | ok b => exact congrArg Except.ok (Except.ok.inj h)

/-- A map into a type by an injective function succeeds with the image of `a`
exactly if the computation succeeds with `a`. -/
theorem except_map_eq_ok_iff {f : α → β} (hf : Function.Injective f) {a : α} :
    x.map f = .ok (f a) ↔ x = .ok a := by
  constructor
  · intro h
    obtain ⟨b, hb, heq⟩ := except_map_ok h
    rw [hb, hf heq]
  · rintro rfl
    rfl

/-! ## Filtering by a fallible condition -/

/-- The items that meet a condition; an error of the condition on any item is the result. -/
def filterE (f : α → Except ε Bool) : List α → Except ε (List α)
  | [] => .ok []
  | x :: xs =>
    match f x with
    | .error e => .error e
    | .ok b => (filterE f xs).map (fun ys => if b then x :: ys else ys)

/-- The condition holds and raises nothing. -/
def holds (f : α → Except ε Bool) (x : α) : Bool :=
  match f x with
  | .ok b => b
  | .error _ => false

theorem filterE_of_ok {xs : List α} (h : ∀ x ∈ xs, ∃ b, f x = .ok b) :
    filterE f xs = .ok (xs.filter (holds f)) := by
  induction xs with
  | nil => rfl
  | cons x xs ih =>
    obtain ⟨b, hb⟩ := h x mem_cons_self
    have hholds : holds f x = b := by rw [holds, hb]
    rw [filterE, hb, ih (fun y hy => h y (mem_cons_of_mem _ hy)), filter_cons, hholds]
    rfl

theorem ok_of_filterE {xs ys : List α} (h : filterE f xs = .ok ys) :
    ∀ x ∈ xs, ∃ b, f x = .ok b := by
  induction xs generalizing ys with
  | nil => exact fun x hx => absurd hx not_mem_nil
  | cons x xs ih =>
    rw [filterE] at h
    cases hx : f x with
    | error e =>
      rw [hx] at h
      cases h
    | ok b =>
      rw [hx] at h
      obtain ⟨zs, hzs, -⟩ := except_map_ok h
      intro y hy
      rcases mem_cons.1 hy with rfl | hy
      · exact ⟨b, hx⟩
      · exact ih hzs y hy

/-- The items of a successful selection are those for which the condition holds. -/
theorem mem_of_filterE {xs ys : List α} (h : filterE f xs = .ok ys) {x : α} :
    x ∈ ys ↔ x ∈ xs ∧ f x = .ok true := by
  rw [filterE_of_ok (ok_of_filterE h)] at h
  cases h
  rw [mem_filter]
  refine and_congr_right (fun hx => ?_)
  unfold holds
  cases f x with
  | error e => simp
  | ok b => simp

end Kit

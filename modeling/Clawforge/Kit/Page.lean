import Mathlib.Data.List.Sort

/-!
# Pages of a sorted list

A query that sorts its rows and keeps the first `n` of them. The sort is stable, so what
stands before an element is what is no greater before it and what is less after it
(`ahead`); an element is on the page if fewer than `n` are ahead of it.
-/

namespace Kit

open List

universe u

variable {α : Type u} (r : α → α → Prop) [DecidableRel r]

/-- The first `n` in order. -/
def page (n : Nat) (l : List α) : List α := (l.insertionSort r).take n

/-- How many elements come before `x`, which stands between `pre` and `post`. -/
def ahead (pre : List α) (x : α) (post : List α) : Nat :=
  pre.countP (fun y => r y x) + post.countP (fun y => ¬ r x y)

/-- The element stands in the list with fewer than `n` ahead of it. -/
def Within (n : Nat) (l : List α) (x : α) : Prop :=
  ∃ pre post, l = pre ++ x :: post ∧ ahead r pre x post < n

variable {r} [IsTrans α r] {n : Nat} {l : List α}

/-- An element put into a sorted list moves those that come after it one place back. -/
theorem mem_take_orderedInsert {a x : α} {s : List α} (hs : s.Pairwise r) :
    x ∈ (s.orderedInsert r a).take n ↔
      (x = a ∧ s.countP (fun y => ¬ r a y) < n) ∨ (¬ r a x ∧ x ∈ s.take n) ∨
        (r a x ∧ x ∈ s.take (n - 1)) := by
  induction s generalizing n with
  | nil =>
    cases n with
    | zero => simp
    | succ n => simp
  | cons b s ih =>
    obtain ⟨hhead, htail⟩ := pairwise_cons.1 hs
    by_cases hab : r a b
    · -- everything comes after `a`
      have hall : ∀ y ∈ b :: s, r a y := by
        intro y hy
        rcases mem_cons.1 hy with rfl | hy
        · exact hab
        · exact IsTrans.trans _ _ _ hab (hhead y hy)
      have hnone : (b :: s).countP (fun y => ¬ r a y) = 0 := by
        rw [countP_eq_zero]
        intro y hy
        simpa using hall y hy
      rw [orderedInsert_cons_of_le _ _ hab, hnone]
      cases n with
      | zero => simp
      | succ n =>
        rw [take_succ_cons, mem_cons, Nat.add_sub_cancel]
        constructor
        · rintro (rfl | hx)
          · exact .inl ⟨rfl, Nat.succ_pos _⟩
          · exact .inr (.inr ⟨hall x (mem_of_mem_take hx), hx⟩)
        · rintro (⟨rfl, -⟩ | ⟨hnot, hx⟩ | ⟨-, hx⟩)
          · exact .inl rfl
          · exact absurd (hall x (mem_of_mem_take hx)) hnot
          · exact .inr hx
    · rw [orderedInsert_of_not_le _ _ hab, countP_cons_of_pos (by simpa using hab)]
      cases n with
      | zero => simp
      | succ n =>
        rw [take_succ_cons, mem_cons, ih htail, take_succ_cons, mem_cons,
          Nat.add_sub_cancel]
        constructor
        · rintro (rfl | ⟨rfl, hcount⟩ | ⟨hnot, hx⟩ | ⟨hle, hx⟩)
          · exact .inr (.inl ⟨hab, .inl rfl⟩)
          · exact .inl ⟨rfl, Nat.succ_lt_succ hcount⟩
          · exact .inr (.inl ⟨hnot, .inr hx⟩)
          · cases n with
            | zero => cases hx
            | succ n => exact .inr (.inr ⟨hle, mem_cons_of_mem _ hx⟩)
        · rintro (⟨rfl, hcount⟩ | ⟨hnot, hx⟩ | ⟨hle, hx⟩)
          · exact .inr (.inl ⟨rfl, Nat.lt_of_succ_lt_succ hcount⟩)
          · rcases hx with rfl | hx
            · exact .inl rfl
            · exact .inr (.inr (.inl ⟨hnot, hx⟩))
          · cases n with
            | zero => cases hx
            | succ n =>
              rcases mem_cons.1 hx with rfl | hx
              · exact absurd hle hab
              · exact .inr (.inr (.inr ⟨hle, hx⟩))

variable [Std.Total r]

/-- The page holds the elements with fewer than `n` ahead of them. -/
theorem mem_page {x : α} : x ∈ page r n l ↔ Within r n l x := by
  unfold page Within
  induction l generalizing n with
  | nil => simp
  | cons a l ih =>
    have hcount : (l.insertionSort r).countP (fun y => ¬ r a y) = l.countP (fun y => ¬ r a y) :=
      (perm_insertionSort r l).countP_eq _
    rw [insertionSort_cons, mem_take_orderedInsert (pairwise_insertionSort r l), ih, ih,
      hcount]
    constructor
    · rintro (⟨rfl, hlt⟩ | ⟨hnot, pre, post, rfl, hlt⟩ | ⟨hle, pre, post, rfl, hlt⟩)
      · exact ⟨[], l, rfl, by simpa [ahead] using hlt⟩
      · refine ⟨a :: pre, post, rfl, ?_⟩
        rwa [ahead, countP_cons_of_neg (by simpa using hnot)]
      · refine ⟨a :: pre, post, rfl, ?_⟩
        rw [ahead, countP_cons_of_pos (by simpa using hle)]
        unfold ahead at hlt
        omega
    · rintro ⟨pre, post, hsplit, hlt⟩
      cases pre with
      | nil =>
        obtain ⟨rfl, rfl⟩ := cons.inj hsplit
        exact .inl ⟨rfl, by simpa [ahead] using hlt⟩
      | cons b pre =>
        obtain ⟨rfl, rfl⟩ := cons.inj hsplit
        by_cases hle : r a x
        · rw [ahead, countP_cons_of_pos (by simpa using hle)] at hlt
          refine .inr (.inr ⟨hle, pre, post, rfl, ?_⟩)
          unfold ahead
          omega
        · rw [ahead, countP_cons_of_neg (by simpa using hle)] at hlt
          exact .inr (.inl ⟨hle, pre, post, rfl, hlt⟩)

/-- A list no longer than the page is all on it. -/
theorem within_of_length_le {x : α} (hlen : l.length ≤ n) (hx : x ∈ l) : Within r n l x := by
  rw [← mem_page, page, take_of_length_le (by rwa [length_insertionSort])]
  exact (mem_insertionSort r).2 hx

/-! ## The rest of the list -/

omit [IsTrans α r] [Std.Total r] in
theorem mem_of_mem_page {x : α} (hx : x ∈ page r n l) : x ∈ l :=
  (mem_insertionSort r).1 (mem_of_mem_take hx)

omit [IsTrans α r] [Std.Total r] in
theorem length_page (n : Nat) (l : List α) : (page r n l).length = min n l.length := by
  rw [page, length_take, length_insertionSort]

omit [IsTrans α r] [Std.Total r] in
/-- The start of a longer page is a shorter one. -/
theorem take_page {m : Nat} (h : m ≤ n) (l : List α) : (page r n l).take m = page r m l := by
  rw [page, take_take, Nat.min_eq_left h, page]

theorem page_sorted (n : Nat) (l : List α) : (page r n l).Pairwise r :=
  (pairwise_insertionSort r l).sublist (take_sublist _ _)

/-- What is not on the page comes after all that is. -/
theorem mem_page_or_after {x : α} (hx : x ∈ l) : x ∈ page r n l ∨ ∀ y ∈ page r n l, r y x := by
  have hsorted := pairwise_insertionSort r l
  have hmem : x ∈ l.insertionSort r := (mem_insertionSort r).2 hx
  rw [← take_append_drop n (l.insertionSort r)] at hsorted hmem
  rcases mem_append.1 hmem with hpage | hrest
  · exact .inl hpage
  · exact .inr fun y hy => (pairwise_append.1 hsorted).2.2 y hy x hrest

/-! ## Pages of some of the elements -/

theorem mem_take_iff {x : α} :
    x ∈ l.take n ↔ ∃ pre post, l = pre ++ x :: post ∧ pre.length < n := by
  constructor
  · intro hx
    obtain ⟨pre, post, hsplit⟩ := append_of_mem hx
    refine ⟨pre, post ++ l.drop n, ?_, ?_⟩
    · rw [← cons_append, ← append_assoc, ← hsplit, take_append_drop]
    · have hlen := congrArg List.length hsplit
      rw [length_take, length_append, length_cons] at hlen
      omega
  · rintro ⟨pre, post, rfl, hlt⟩
    obtain ⟨k, hk⟩ := Nat.exists_eq_add_of_lt hlt
    rw [take_append]
    refine mem_append_right _ ?_
    rw [show n - pre.length = k + 1 by omega, take_succ_cons]
    exact mem_cons_self

omit [Std.Total r] in
theorem filter_orderedInsert (p : α → Bool) {a : α} {s : List α} (hs : s.Pairwise r) :
    (s.orderedInsert r a).filter p =
      if p a then (s.filter p).orderedInsert r a else s.filter p := by
  induction s with
  | nil => cases hp : p a <;> simp [hp]
  | cons b s ih =>
    obtain ⟨hhead, htail⟩ := pairwise_cons.1 hs
    by_cases hab : r a b
    · rw [orderedInsert_cons_of_le _ _ hab, filter_cons]
      cases hp : p a with
      | false => rfl
      | true =>
        rw [if_pos rfl, if_pos rfl]
        -- everything that is left comes after `a`
        cases hrest : (b :: s).filter p with
        | nil => rfl
        | cons c rest =>
          have hc : c ∈ b :: s := mem_of_mem_filter (hrest ▸ mem_cons_self)
          have hac : r a c := by
            rcases mem_cons.1 hc with rfl | hc
            · exact hab
            · exact IsTrans.trans _ _ _ hab (hhead c hc)
          rw [orderedInsert_cons_of_le _ _ hac]
    · rw [orderedInsert_of_not_le _ _ hab, filter_cons, filter_cons, ih htail]
      cases hpb : p b with
      | false => rfl
      | true =>
        rw [if_pos rfl, if_pos rfl]
        cases hp : p a with
        | false => rfl
        | true =>
          rw [if_pos rfl, if_pos rfl, orderedInsert_of_not_le _ _ hab]

/-- The sort is stable, so it keeps the order of any selection. -/
theorem filter_insertionSort (p : α → Bool) (l : List α) :
    (l.insertionSort r).filter p = (l.filter p).insertionSort r := by
  induction l with
  | nil => rfl
  | cons a l ih =>
    rw [insertionSort_cons, filter_orderedInsert p (pairwise_insertionSort r l), ih,
      filter_cons]
    cases p a <;> rfl

/-- Some wanted element is on the page exactly if one of them has fewer than `n` unwanted ones
ahead of it. -/
theorem exists_within_iff [DecidableEq α] (n : Nat) (l : List α) (wanted : α → Bool) :
    (∃ a, wanted a = true ∧ Within r n l a) ↔
      ∃ a, wanted a = true ∧ Within r n (l.filter (fun x => !wanted x || x = a)) a := by
  simp only [← mem_page, page, ← filter_insertionSort]
  generalize l.insertionSort r = s
  constructor
  · rintro ⟨a, ha, hpage⟩
    obtain ⟨pre, post, rfl, hlt⟩ := mem_take_iff.1 hpage
    refine ⟨a, ha, mem_take_iff.2 ⟨pre.filter (fun x => !wanted x || x = a),
      post.filter (fun x => !wanted x || x = a), ?_, ?_⟩⟩
    · rw [filter_append, filter_cons_of_pos (by simp)]
    · exact Nat.lt_of_le_of_lt (List.length_filter_le _ _) hlt
  · rintro ⟨a, ha, hpage⟩
    -- the first wanted element has only unwanted ones before it
    have hsome : ∃ x ∈ s, wanted x = true := ⟨a, mem_of_mem_filter (mem_of_mem_take hpage), ha⟩
    obtain ⟨first, hfirst⟩ := Option.isSome_iff_exists.1 (find?_isSome.2 hsome)
    obtain ⟨hwanted, pre, post, rfl, hpre⟩ := find?_eq_some_iff_append.1 hfirst
    have hunwanted : ∀ x ∈ pre, (!wanted x || decide (x = a)) = true := by
      intro x hx
      rw [hpre x hx]
      rfl
    rw [filter_append, filter_eq_self.2 hunwanted] at hpage
    have hlt : pre.length < n := by
      by_contra hle
      rw [take_append_of_le_length (Nat.le_of_not_lt hle)] at hpage
      have hnot := hpre a (mem_of_mem_take hpage)
      rw [ha] at hnot
      cases hnot
    exact ⟨first, hwanted, mem_take_iff.2 ⟨pre, post, rfl, hlt⟩⟩

end Kit

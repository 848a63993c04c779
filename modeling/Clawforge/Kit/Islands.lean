import Mathlib.Algebra.Order.Group.Defs
import Mathlib.Data.List.Dedup
import Mathlib.Data.List.Sort
import Mathlib.Data.Prod.Lex

/-!
# Gaps and islands

Spans of activity, each with a first and a last instant. `reach` follows activity backwards
from some starts as long as no more than a gap lies between; `islands` numbers the spans in
order, a new number where more than the gap lies behind all earlier ones, and keeps the end
of each number. Spans that all lie more than the gap before others make islands of their own
(`islands_append`).
-/

namespace Kit

open List

universe u

/-! ## Reaching back -/

section Reach

variable {α : Type u} [AddCommGroup α] [LinearOrder α]

/-- The span begins before one of the starts and ends no more than the gap before it. -/
def joins (gap : α) (starts : List α) (s : α × α) : Bool :=
  starts.any (fun c => decide (s.1 < c) && decide (c - gap ≤ s.2))

/-- The starts of all spans that are joined, in rounds. -/
def reach (gap : α) : Nat → List (α × α) → List α → List α
  | 0, _, starts => starts
  | fuel + 1, spans, starts =>
    let joined := spans.filter (joins gap starts)
    if joined = [] then starts
    else reach gap fuel (spans.filter (fun s => !joins gap starts s))
      (starts ++ joined.map Prod.fst)

variable {gap : α} {starts : List α}

theorem joins_iff {s : α × α} :
    joins gap starts s = true ↔ ∃ c ∈ starts, s.1 < c ∧ c - gap ≤ s.2 := by
  unfold joins
  simp

/-- Nothing outside `X` is joined from inside. -/
def Closed (gap : α) (spans : List (α × α)) (X : α → Prop) : Prop :=
  ∀ s ∈ spans, ∀ c, X c → s.1 < c → c - gap ≤ s.2 → X s.1

/-- What is reached lies in every closed set that has the starts. -/
theorem reach_subset {X : α → Prop} {fuel : Nat} {spans : List (α × α)}
    (hclosed : Closed gap spans X) (hstarts : ∀ c ∈ starts, X c) :
    ∀ c ∈ reach gap fuel spans starts, X c := by
  induction fuel generalizing spans starts with
  | zero => exact hstarts
  | succ fuel ih =>
    unfold reach
    simp only
    split
    · exact hstarts
    · refine ih (fun s hs => hclosed s (mem_of_mem_filter hs)) (fun c hc => ?_)
      rcases mem_append.1 hc with hc | hc
      · exact hstarts c hc
      · obtain ⟨s, hs, rfl⟩ := List.mem_map.1 hc
        obtain ⟨hmem, hjoins⟩ := mem_filter.1 hs
        obtain ⟨c, hc, hlt, hle⟩ := joins_iff.1 hjoins
        exact hclosed s hmem c (hstarts c hc) hlt hle

theorem mem_reach_of_mem {fuel : Nat} {spans : List (α × α)} {c : α} (hc : c ∈ starts) :
    c ∈ reach gap fuel spans starts := by
  induction fuel generalizing spans starts with
  | zero => exact hc
  | succ fuel ih =>
    unfold reach
    simp only
    split
    · exact hc
    · exact ih (mem_append_left _ hc)

/-- As many rounds as spans reach everything. -/
theorem closed_reach {fuel : Nat} {spans : List (α × α)} (hfuel : spans.length ≤ fuel) :
    Closed gap spans (fun c => c ∈ reach gap fuel spans starts) := by
  induction fuel generalizing spans starts with
  | zero =>
    rw [length_eq_zero_iff.1 (Nat.le_zero.1 hfuel)]
    exact fun s hs => absurd hs not_mem_nil
  | succ fuel ih =>
    intro s hs c hc hlt hle
    unfold reach at hc ⊢
    simp only at hc ⊢
    split at hc
    case isTrue hnone =>
      rw [if_pos hnone]
      have hjoins : joins gap starts s = true := joins_iff.2 ⟨c, hc, hlt, hle⟩
      have hmem : s ∈ spans.filter (joins gap starts) := mem_filter.2 ⟨hs, hjoins⟩
      rw [hnone] at hmem
      cases hmem
    case isFalse hsome =>
      rw [if_neg hsome]
      cases hjoins : joins gap starts s with
      | true =>
        exact mem_reach_of_mem (mem_append_right _
          (List.mem_map.2 ⟨s, mem_filter.2 ⟨hs, hjoins⟩, rfl⟩))
      | false =>
        -- a joined span has left, so a round less is enough for the rest
        have hless : (spans.filter (fun s => !joins gap starts s)).length ≤ fuel := by
          obtain ⟨x, hx⟩ := exists_mem_of_ne_nil _ hsome
          obtain ⟨hxmem, hxjoins⟩ := mem_filter.1 hx
          have hleft : ¬ (!joins gap starts x) = true := by simp [hxjoins]
          have hshorter := length_filter_lt_length_iff_exists
            (p := fun s => !joins gap starts s) |>.2 ⟨x, hxmem, hleft⟩
          omega
        exact ih hless s (mem_filter.2 ⟨hs, by simp [hjoins]⟩) c hc hlt hle

end Reach

/-! ## Numbered spans -/

section Numbers

variable {α : Type u} [LinearOrder α] {first second : List ((α × α) × Bool)}

/-- By the first instant and then the last. -/
def Before (a b : α × α) : Prop := toLex a ≤ toLex b

instance : DecidableRel (Before (α := α)) := fun a b =>
  inferInstanceAs (Decidable (toLex a ≤ toLex b))

/-- How many islands are opened up to a span, its ties included. -/
def numberOf (marked : List ((α × α) × Bool)) (s : α × α) : Nat :=
  (marked.filter (fun q => q.2 && decide (Before q.1 s))).length

/-- The latest activity of an island. -/
def endOf (marked : List ((α × α) × Bool)) (n : Nat) : Option α :=
  ((marked.filter (fun q => numberOf marked q.1 = n)).map (fun q => q.1.2)).max?

def islandsOf (marked : List ((α × α) × Bool)) : List α :=
  (marked.map (fun q => numberOf marked q.1)).dedup.filterMap (endOf marked)

theorem before_iff {a b : α × α} : Before a b ↔ a.1 < b.1 ∨ (a.1 = b.1 ∧ a.2 ≤ b.2) :=
  Prod.Lex.toLex_le_toLex

theorem not_before {a b : α × α} (h : a.1 < b.1) : ¬ Before b a := by
  rw [before_iff]
  rintro (hlt | ⟨heq, -⟩)
  · exact lt_asymm h hlt
  · exact h.ne' heq

instance : Std.Total (Before (α := α)) := ⟨fun a b => le_total (toLex a) (toLex b)⟩

instance : IsTrans (α × α) Before := ⟨fun _ _ _ hab hbc => le_trans hab hbc⟩

instance : Std.Antisymm (Before (α := α)) := ⟨fun _ _ hab hba => toLex.injective (le_antisymm hab hba)⟩

/-- The latest activity behind a list of spans. -/
def latestOf (latest : Option α) (spans : List (α × α)) : Option α :=
  spans.foldl (fun m s => some (m.elim s.2 (fun m => max m s.2))) latest

theorem latestOf_eq_some {latest : Option α} {spans : List (α × α)} {m : α}
    (h : latestOf latest spans = some m) : latest = some m ∨ ∃ s ∈ spans, s.2 = m := by
  induction spans generalizing latest with
  | nil => exact .inl h
  | cons s rest ih =>
    rcases ih h with hs | ⟨x, hx, rfl⟩
    · cases latest with
      | none => exact .inr ⟨s, mem_cons_self, Option.some.inj hs⟩
      | some m' =>
        rcases max_choice m' s.2 with hmax | hmax
        · exact .inl (congrArg some (hmax.symm.trans (Option.some.inj hs)))
        · exact .inr ⟨s, mem_cons_self, hmax.symm.trans (Option.some.inj hs)⟩
    · exact .inr ⟨x, mem_cons_of_mem _ hx, rfl⟩

theorem numberOf_append_left {s : α × α} (h : ∀ q ∈ second, s.1 < q.1.1) :
    numberOf (first ++ second) s = numberOf first s := by
  have hnone : second.filter (fun q => q.2 && decide (Before q.1 s)) = [] := by
    rw [filter_eq_nil_iff]
    intro q hq
    simp [not_before (h q hq)]
  unfold numberOf
  rw [filter_append, hnone, append_nil]

theorem numberOf_append_right {s : α × α} (h : ∀ q ∈ first, q.1.1 < s.1) :
    numberOf (first ++ second) s = (first.filter Prod.snd).length + numberOf second s := by
  have hall : first.filter (fun q => q.2 && decide (Before q.1 s)) = first.filter Prod.snd := by
    apply filter_congr
    intro q hq
    simp [before_iff.2 (.inl (h q hq))]
  unfold numberOf
  rw [filter_append, length_append, hall]

theorem numberOf_le (marked : List ((α × α) × Bool)) (s : α × α) :
    numberOf marked s ≤ (marked.filter Prod.snd).length := by
  unfold numberOf
  rw [← countP_eq_length_filter, ← countP_eq_length_filter]
  apply countP_mono_left
  intro q _ hq
  exact (Bool.and_eq_true_iff.1 hq).1

theorem islandsOf_append (hsep : ∀ p ∈ first, ∀ q ∈ second, p.1.1 < q.1.1)
    (hpos : ∀ q ∈ second, 0 < numberOf second q.1) :
    islandsOf (first ++ second) = islandsOf first ++ islandsOf second := by
  have hleft : ∀ p ∈ first, numberOf (first ++ second) p.1 = numberOf first p.1 :=
    fun p hp => numberOf_append_left (hsep p hp)
  have hright : ∀ q ∈ second, numberOf (first ++ second) q.1 =
      (first.filter Prod.snd).length + numberOf second q.1 :=
    fun q hq => numberOf_append_right (fun p hp => hsep p hp q hq)
  have hnumbers : (first ++ second).map (fun q => numberOf (first ++ second) q.1) =
      first.map (fun q => numberOf first q.1) ++
        (second.map (fun q => numberOf second q.1)).map
          ((first.filter Prod.snd).length + ·) := by
    rw [map_append, map_congr_left hleft, map_congr_left hright, List.map_map]
    rfl
  have hdisjoint : List.Disjoint (first.map (fun q => numberOf first q.1))
      ((second.map (fun q => numberOf second q.1)).map
        ((first.filter Prod.snd).length + ·)) := by
    intro n hn hn'
    obtain ⟨p, -, rfl⟩ := List.mem_map.1 hn
    obtain ⟨m, hm, heq⟩ := List.mem_map.1 hn'
    obtain ⟨q, hq, rfl⟩ := List.mem_map.1 hm
    have hle := numberOf_le first p.1
    have hlt := hpos q hq
    omega
  -- an earlier number has no later span, and a later number no earlier one
  have hends : ∀ n ∈ (first.map (fun q => numberOf first q.1)).dedup,
      endOf (first ++ second) n = endOf first n := by
    intro n hn
    obtain ⟨p, -, rfl⟩ := List.mem_map.1 (mem_dedup.1 hn)
    have hle := numberOf_le first p.1
    have hnone : second.filter (fun q => decide (numberOf (first ++ second) q.1 =
        numberOf first p.1)) = [] := by
      rw [filter_eq_nil_iff]
      intro q hq
      have hlt := hpos q hq
      rw [hright q hq, decide_eq_true_eq]
      omega
    have hsame : first.filter (fun q => decide (numberOf (first ++ second) q.1 =
        numberOf first p.1)) = first.filter (fun q => decide (numberOf first q.1 =
          numberOf first p.1)) := by
      apply filter_congr
      intro q hq
      rw [hleft q hq]
    unfold endOf
    rw [filter_append, hnone, append_nil, hsame]
  have hends' : ∀ n ∈ (second.map (fun q => numberOf second q.1)).dedup,
      endOf (first ++ second) ((first.filter Prod.snd).length + n) = endOf second n := by
    intro n hn
    obtain ⟨q, hq, rfl⟩ := List.mem_map.1 (mem_dedup.1 hn)
    have hlt := hpos q hq
    have hnone : first.filter (fun p => decide (numberOf (first ++ second) p.1 =
        (first.filter Prod.snd).length + numberOf second q.1)) = [] := by
      rw [filter_eq_nil_iff]
      intro p hp
      have hle := numberOf_le first p.1
      rw [hleft p hp, decide_eq_true_eq]
      omega
    have hsame : second.filter (fun r => decide (numberOf (first ++ second) r.1 =
        (first.filter Prod.snd).length + numberOf second q.1)) =
          second.filter (fun r => decide (numberOf second r.1 = numberOf second q.1)) := by
      apply filter_congr
      intro r hr
      rw [hright r hr]
      simp
    unfold endOf
    rw [filter_append, hnone, nil_append, hsame]
  unfold islandsOf
  rw [hnumbers, hdisjoint.dedup_append, dedup_map_of_injective (fun _ _ h => Nat.add_left_cancel h),
    filterMap_append, filterMap_map, filterMap_congr hends]
  congr 1
  exact filterMap_congr hends'

end Numbers

/-! ## Islands -/

section Islands

variable {α : Type u} [AddCommGroup α] [LinearOrder α] {gap : α}

/-- Nothing before the span, or more than the gap behind the latest activity. -/
def opens (gap : α) (latest : Option α) (s : α × α) : Bool :=
  latest.all (fun m => decide (gap < s.1 - m))

/-- Each span in order, with whether it opens an island. -/
def mark (gap : α) : Option α → List (α × α) → List ((α × α) × Bool)
  | _, [] => []
  | latest, s :: rest =>
    (s, opens gap latest s) :: mark gap (some (latest.elim s.2 (fun m => max m s.2))) rest

/-- The ends of the islands. -/
def islands (gap : α) (spans : List (α × α)) : List α :=
  islandsOf (mark gap none (spans.insertionSort Before))

/-- All of the first spans lie more than the gap before all of the second, and end no later. -/
def Separated (gap : α) (first second : List (α × α)) : Prop :=
  ∀ p ∈ first, ∀ r ∈ second, p.1 < r.1 ∧ gap < r.1 - p.2 ∧ p.2 ≤ r.2

theorem insertionSort_append {l first second : List (α × α)} (hperm : l.Perm (first ++ second))
    (hsep : Separated gap first second) :
    l.insertionSort Before = first.insertionSort Before ++ second.insertionSort Before := by
  apply Perm.eq_of_pairwise' (r := Before)
  · exact pairwise_insertionSort Before l
  · rw [pairwise_append]
    refine ⟨pairwise_insertionSort Before first, pairwise_insertionSort Before second,
      fun p hp r hr => ?_⟩
    rw [mem_insertionSort] at hp hr
    exact before_iff.2 (.inl (hsep p hp r hr).1)
  · refine (perm_insertionSort Before l).trans (hperm.trans ?_)
    exact ((perm_insertionSort Before first).append
      (perm_insertionSort Before second)).symm

theorem mark_append (latest : Option α) (first second : List (α × α)) :
    mark gap latest (first ++ second) =
      mark gap latest first ++ mark gap (latestOf latest first) second := by
  induction first generalizing latest with
  | nil => rfl
  | cons s rest ih =>
    rw [cons_append, mark, mark, ih]
    rfl

theorem map_fst_mark (latest : Option α) (spans : List (α × α)) :
    (mark gap latest spans).map Prod.fst = spans := by
  induction spans generalizing latest with
  | nil => rfl
  | cons s rest ih => rw [mark, map_cons, ih]

/-- Activity more than the gap behind the first span and over by its end does not count. -/
theorem mark_some {m : α} {spans : List (α × α)}
    (h : ∀ s ∈ spans, gap < s.1 - m ∧ m ≤ s.2) :
    mark gap (some m) spans = mark gap none spans := by
  cases spans with
  | nil => rfl
  | cons s rest =>
    obtain ⟨hgap, hle⟩ := h s mem_cons_self
    simp [mark, opens, hgap, max_eq_right hle]

/-- In order, the first span opens an island and every span counts it. -/
theorem numberOf_mark_pos {spans : List (α × α)} (hsorted : spans.Pairwise Before) :
    ∀ q ∈ mark gap none spans, 0 < numberOf (mark gap none spans) q.1 := by
  intro q hq
  cases spans with
  | nil => cases hq
  | cons s rest =>
    have hq' : q.1 ∈ s :: rest := by
      have hmem := List.mem_map_of_mem (f := Prod.fst) hq
      rwa [map_fst_mark] at hmem
    have hbefore : Before s q.1 := by
      rcases mem_cons.1 hq' with heq | hrest
      · rw [heq]
        exact le_refl (toLex s)
      · exact (pairwise_cons.1 hsorted).1 _ hrest
    apply length_pos_of_mem (a := (s, true))
    refine mem_filter.2 ⟨?_, by simp [hbefore]⟩
    rw [mark]
    exact mem_cons_self

/-- Separated spans keep their islands. -/
theorem islands_append {l first second : List (α × α)} (hperm : l.Perm (first ++ second))
    (hsep : Separated gap first second) :
    islands gap l = islands gap first ++ islands gap second := by
  have hmem : ∀ {spans : List (α × α)} {latest : Option α} {q : (α × α) × Bool},
      q ∈ mark gap latest (spans.insertionSort Before) → q.1 ∈ spans := by
    intro spans latest q hq
    have hfst := List.mem_map_of_mem (f := Prod.fst) hq
    rwa [map_fst_mark, mem_insertionSort] at hfst
  have hmark : mark gap (latestOf none (first.insertionSort Before))
      (second.insertionSort Before) = mark gap none (second.insertionSort Before) := by
    cases hlatest : latestOf none (first.insertionSort Before) with
    | none => rfl
    | some m =>
      apply mark_some
      intro r hr
      rcases latestOf_eq_some hlatest with hnone | ⟨p, hp, rfl⟩
      · cases hnone
      · rw [mem_insertionSort] at hp hr
        exact (hsep p hp r hr).2
  unfold islands
  rw [insertionSort_append hperm hsep, mark_append, hmark]
  apply islandsOf_append
  · exact fun p hp q hq => (hsep _ (hmem hp) _ (hmem hq)).1
  · exact numberOf_mark_pos (pairwise_insertionSort Before second)

end Islands

end Kit

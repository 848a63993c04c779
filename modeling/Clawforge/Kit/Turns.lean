import Mathlib.Data.List.Perm.Subperm

/-!
# Storing and processing in any order

A consumer that processes items one after another while more of them are still being
stored. A turn is what was stored since the last one and the item processed; an order of
some items stores each of them once and processes each once, after it was stored. For a
property of items, the last item processed that has it sees every item that has it
(`IsOrder.settled`), and any part of the items may be stored first (`exists_someFirst`).
-/

namespace Kit

open List

universe u

variable {α : Type u}

/-- What is stored since the last turn, and the item processed. -/
structure Turn (α : Type u) where
  stored : List α
  item : α

/-- What the turns have stored. -/
def storedBy (turns : List (Turn α)) : List α := turns.flatMap Turn.stored

@[simp] theorem storedBy_nil : storedBy ([] : List (Turn α)) = [] := rfl

@[simp] theorem storedBy_cons (t : Turn α) (turns : List (Turn α)) :
    storedBy (t :: turns) = t.stored ++ storedBy turns := rfl

@[simp] theorem storedBy_append (a b : List (Turn α)) :
    storedBy (a ++ b) = storedBy a ++ storedBy b := flatMap_append

/-- Each item is stored once and processed once, after it was stored. -/
structure IsOrder (items : List α) (turns : List (Turn α)) : Prop where
  stored : (storedBy turns).Perm items
  processed : (turns.map Turn.item).Perm items
  known : ∀ before t after, turns = before ++ t :: after → t.item ∈ storedBy (before ++ [t])

/-- The last of some elements that have a property. -/
theorem exists_last {p : α → Prop} {l : List α} (h : ∃ x ∈ l, p x) :
    ∃ before x after, l = before ++ x :: after ∧ p x ∧ ∀ y ∈ after, ¬ p y := by
  induction l with
  | nil =>
    obtain ⟨x, hx, -⟩ := h
    cases hx
  | cons a l ih =>
    by_cases hl : ∃ x ∈ l, p x
    · obtain ⟨before, x, after, rfl, hx, hafter⟩ := ih hl
      exact ⟨a :: before, x, after, rfl, hx, hafter⟩
    · obtain ⟨x, hx, hp⟩ := h
      have ha : x = a := by
        rcases mem_cons.1 hx with rfl | hx
        · rfl
        · exact absurd ⟨x, hx, hp⟩ hl
      subst ha
      exact ⟨[], x, l, rfl, hp, fun y hy hpy => hl ⟨y, hy, hpy⟩⟩

namespace IsOrder

variable {items : List α} {turns before after : List (Turn α)} {t : Turn α}

theorem subperm (h : IsOrder items turns) (hsplit : turns = before ++ t :: after) :
    (storedBy (before ++ [t])).Subperm items := by
  have hall : storedBy turns = storedBy (before ++ [t]) ++ storedBy after := by
    rw [hsplit]
    simp
  rw [← (h.stored).subperm_left, hall]
  exact (sublist_append_left _ _).subperm

theorem mem_items (h : IsOrder items turns) (hsplit : turns = before ++ t :: after) :
    t.item ∈ items := by
  refine h.processed.subset (List.mem_map.2 ⟨t, ?_, rfl⟩)
  rw [hsplit]
  exact mem_append_right _ mem_cons_self

/-- At the last turn whose item has the property, every item that has it is stored. -/
theorem settled (h : IsOrder items turns) (hnodup : items.Nodup) {p : α → Bool}
    (hp : ∃ x ∈ items, p x = true) :
    ∃ before t after, turns = before ++ t :: after ∧ p t.item = true ∧
      (storedBy after).filter p = [] := by
  have hturn : ∃ t ∈ turns, p t.item = true := by
    obtain ⟨x, hx, hpx⟩ := hp
    obtain ⟨t, ht, rfl⟩ := List.mem_map.1 (h.processed.symm.subset hx)
    exact ⟨t, ht, hpx⟩
  obtain ⟨before, t, after, hsplit, hpt, hafter⟩ := exists_last hturn
  refine ⟨before, t, after, hsplit, hpt, ?_⟩
  have hall : storedBy turns = storedBy (before ++ [t]) ++ storedBy after := by
    rw [hsplit]
    simp
  have hdistinct : (storedBy (before ++ [t]) ++ storedBy after).Nodup := by
    rw [← hall]
    exact h.stored.nodup_iff.2 hnodup
  rw [filter_eq_nil_iff]
  intro x hx hpx
  -- the item itself was processed, so it was stored before
  have hitem : x ∈ items := by
    refine h.stored.subset ?_
    rw [hall]
    exact mem_append_right _ hx
  obtain ⟨u, hu, hux⟩ := List.mem_map.1 (h.processed.symm.subset hitem)
  have hseen : u ∈ before ++ [t] := by
    rw [hsplit] at hu
    rcases mem_append.1 hu with hu | hu
    · exact mem_append_left _ hu
    · rcases mem_cons.1 hu with rfl | hu
      · exact mem_concat_self
      · exact absurd (hux ▸ hpx) (hafter u hu)
  obtain ⟨pre, post, hpre⟩ := append_of_mem hseen
  have hstored : x ∈ storedBy (before ++ [t]) := by
    have hknown := h.known pre u (post ++ after) (by
      have : before ++ t :: after = (before ++ [t]) ++ after := by simp
      rw [hsplit, this, hpre]
      simp)
    rw [hux] at hknown
    have hsub : storedBy (before ++ [t]) = storedBy (pre ++ [u]) ++ storedBy post := by
      rw [hpre]
      simp
    rw [hsub]
    exact mem_append_left _ hknown
  exact (nodup_append.1 hdistinct).2.2 x hstored x hx rfl

end IsOrder

/-! ## Orders that store a part first -/

theorem storedBy_idle (items : List α) : storedBy (items.map (fun x => ⟨[], x⟩)) = [] := by
  induction items with
  | nil => rfl
  | cons x items ih => simpa using ih

theorem item_idle (items : List α) :
    (items.map (fun x => (⟨[], x⟩ : Turn α))).map Turn.item = items := by
  rw [List.map_map]
  exact List.map_id items

/-- Everything is stored first. -/
theorem isOrder_allFirst [DecidableEq α] {items L : List α} {e : α} (hperm : L.Perm items)
    (he : e ∈ L) :
    IsOrder items (⟨L, e⟩ :: (L.erase e).map (fun x => ⟨[], x⟩)) where
  stored := by
    rw [storedBy_cons, storedBy_idle, append_nil]
    exact hperm
  processed := by
    rw [map_cons, item_idle]
    exact (perm_cons_erase he).symm.trans hperm
  known := by
    intro before t after hsplit
    cases before with
    | nil =>
      cases hsplit
      simpa using he
    | cons first before =>
      obtain ⟨rfl, hrest⟩ := cons.inj hsplit
      have ht : t ∈ (L.erase e).map (fun x => (⟨[], x⟩ : Turn α)) := by
        rw [hrest]
        exact mem_append_right _ mem_cons_self
      obtain ⟨x, hx, rfl⟩ := List.mem_map.1 ht
      simp [mem_of_mem_erase hx]

/-- Once everything is stored first, every turn sees everything. -/
theorem storedBy_allFirst {L xs : List α} {e : α} {before after : List (Turn α)} {t : Turn α}
    (h : ⟨L, e⟩ :: xs.map (fun x => (⟨[], x⟩ : Turn α)) = before ++ t :: after) :
    storedBy (before ++ [t]) = L := by
  cases before with
  | nil =>
    cases h
    simp
  | cons first before =>
    obtain ⟨rfl, hrest⟩ := cons.inj h
    have hidle : storedBy (before ++ t :: after) = [] := by
      rw [← show xs.map (fun x => (⟨[], x⟩ : Turn α)) = before ++ t :: after from hrest]
      exact storedBy_idle xs
    rw [storedBy_append, storedBy_cons] at hidle
    obtain ⟨hbefore, hlater⟩ := append_eq_nil_iff.1 hidle
    obtain ⟨ht, -⟩ := append_eq_nil_iff.1 hlater
    rw [cons_append, storedBy_cons, storedBy_append, storedBy_cons, hbefore, ht]
    simp

/-- A part is stored, and one item of it processed, before the rest is stored. -/
theorem exists_someFirst [DecidableEq α] {items S : List α} {e : α} (hS : S.Subperm items)
    (he : e ∈ S) : ∃ rest, IsOrder items (⟨S, e⟩ :: rest) := by
  obtain ⟨l, hl, hsub⟩ := hS
  obtain ⟨R, hlR⟩ := hsub.exists_perm_append
  have hR : items.Perm (S ++ R) := hlR.trans (hl.append_right R)
  have hmem : e ∈ S ++ R := mem_append_left _ he
  have hperm : (e :: (S ++ R).erase e).Perm (S ++ R) := (perm_cons_erase hmem).symm
  cases hlater : (S ++ R).erase e with
  | nil =>
    rw [hlater] at hperm
    have hlen := hperm.length_eq
    have hone : 1 ≤ S.length := length_pos_of_mem he
    have hRnil : R = [] := by
      rw [length_append, length_cons, length_nil] at hlen
      exact eq_nil_of_length_eq_zero (by omega)
    subst hRnil
    rw [append_nil] at hR
    exact ⟨_, isOrder_allFirst hR.symm he⟩
  | cons x xs =>
    rw [hlater] at hperm
    refine ⟨⟨R, x⟩ :: xs.map (fun y => ⟨[], y⟩), ?_, ?_, ?_⟩
    · rw [storedBy_cons, storedBy_cons, storedBy_idle, append_nil]
      exact hR.symm
    · rw [map_cons, map_cons, item_idle]
      exact hperm.trans hR.symm
    · intro before t after hsplit
      match before, hsplit with
      | [], hsplit =>
        cases hsplit
        simpa using he
      | [first], hsplit =>
        obtain ⟨rfl, hrest⟩ := cons.inj hsplit
        obtain ⟨rfl, -⟩ := cons.inj hrest
        have hx : x ∈ S ++ R := hperm.subset (by simp)
        simpa using mem_append.1 hx
      | first :: second :: before, hsplit =>
        obtain ⟨rfl, hsecond⟩ := cons.inj hsplit
        obtain ⟨rfl, hrest⟩ := cons.inj hsecond
        have ht : t ∈ xs.map (fun y => (⟨[], y⟩ : Turn α)) := by
          rw [hrest]
          exact mem_append_right _ mem_cons_self
        obtain ⟨y, hy, rfl⟩ := List.mem_map.1 ht
        have hmem' : y ∈ S ++ R := hperm.subset (by simp [hy])
        rcases mem_append.1 hmem' with h | h
        · simp [h]
        · simp [h]

end Kit

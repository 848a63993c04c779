import Mathlib.Data.List.Destutter
import Mathlib.Data.List.Perm.Basic
import Mathlib.Order.Bounds.Basic

/-!
# Grouping by chains

Items that are to share a group when a chain of related items links them, as
single-linkage clustering has it, and a labelling of the items by groups. The
kit relates the labelling a one-pass process makes, which puts an item either
beside the item before it or in a group of its own, to the classes of the chain
relation, and shows that the classes do not depend on the order of the items.
-/

namespace Kit

open List

universe u v w

variable {α : Type u} {κ : Type v} {R L : α → α → Prop} {xs : List α} {ps : List (α × κ)}
  {Fresh : List α → α → Prop}

/-! ## Chains -/

/-- A chain of related items, all of them in `xs`. -/
def Linked (R : α → α → Prop) (xs : List α) : α → α → Prop :=
  Relation.ReflTransGen (fun a b => a ∈ xs ∧ b ∈ xs ∧ R a b)

theorem Linked.refl (a : α) : Linked R xs a a :=
  Relation.ReflTransGen.refl

theorem Linked.of_related {a b : α} (ha : a ∈ xs) (hb : b ∈ xs) (h : R a b) : Linked R xs a b :=
  Relation.ReflTransGen.single ⟨ha, hb, h⟩

theorem linked_equivalence (hR : ∀ a b, R a b → R b a) (xs : List α) :
    Equivalence (Linked R xs) where
  refl := Linked.refl
  symm h := by
    induction h with
    | refl => exact Linked.refl _
    | tail _ hbc ih =>
      exact Relation.ReflTransGen.head ⟨hbc.2.1, hbc.1, hR _ _ hbc.2.2⟩ ih
  trans := Relation.ReflTransGen.trans

theorem linked_perm {ys : List α} (h : xs.Perm ys) : Linked R xs = Linked R ys := by
  unfold Linked
  congr 1
  funext a b
  rw [h.mem_iff, h.mem_iff]

/-- Chains from an item that is related to no other end where they start. -/
theorem Linked.eq_of_isolated {a b : α} (h : Linked R xs a b) (ha : ∀ c ∈ xs, R a c → c = a) :
    b = a := by
  induction h with
  | refl => rfl
  | tail _ hbc ih =>
    subst ih
    exact ha _ hbc.2.1 hbc.2.2

/-! ## Labelled items -/

/-- Two items share a label exactly if `L` relates them. -/
def Groups (L : α → α → Prop) (ps : List (α × κ)) : Prop :=
  ∀ p ∈ ps, ∀ q ∈ ps, p.2 = q.2 ↔ L p.1 q.1

/-- The items under a label. -/
def members (ps : List (α × κ)) (k : κ) : Set α := {a | (a, k) ∈ ps}

theorem members_cons (a : α) (k : κ) (ps : List (α × κ)) :
    members ((a, k) :: ps) k = insert a (members ps k) := by
  ext b
  constructor
  · intro hb
    rcases mem_cons.1 hb with he | hb
    · exact .inl (congrArg Prod.fst he)
    · exact .inr hb
  · rintro (rfl | hb)
    · exact mem_cons_self
    · exact mem_cons_of_mem _ hb

theorem members_cons_of_ne {a : α} {k k' : κ} (h : k' ≠ k) (ps : List (α × κ)) :
    members ((a, k) :: ps) k' = members ps k' := by
  ext b
  refine ⟨fun hb => ?_, fun hb => mem_cons_of_mem _ hb⟩
  rcases mem_cons.1 hb with he | hb
  · exact absurd (congrArg Prod.snd he) h
  · exact hb

theorem Groups.tail {p : α × κ} (h : Groups L (p :: ps)) : Groups L ps :=
  fun q hq r hr => h q (mem_cons_of_mem _ hq) r (mem_cons_of_mem _ hr)

/-- The items under a label are those linked to any one of them. -/
theorem Groups.members_eq (h : Groups L ps) {a : α} {k : κ} (ha : (a, k) ∈ ps) :
    members ps k = {b | b ∈ ps.map Prod.fst ∧ L a b} := by
  ext b
  constructor
  · intro hb
    exact ⟨List.mem_map_of_mem hb, (h _ ha _ hb).1 rfl⟩
  · rintro ⟨hmem, hL⟩
    obtain ⟨⟨b', k'⟩, hb, rfl⟩ := List.mem_map.1 hmem
    have hk : k = k' := (h _ ha _ hb).2 hL
    exact hk ▸ hb

/-- Two labellings of the same items by the same relation have the same groups. -/
theorem Groups.same_members {qs : List (α × κ)} (hp : Groups L ps) (hq : Groups L qs)
    (hitems : ∀ a, a ∈ ps.map Prod.fst ↔ a ∈ qs.map Prod.fst) {a : α} {k : κ} (ha : (a, k) ∈ ps) :
    ∃ k', (a, k') ∈ qs ∧ members qs k' = members ps k := by
  have hmem : a ∈ qs.map Prod.fst := (hitems a).1 (List.mem_map_of_mem ha)
  obtain ⟨⟨a', k'⟩, hk', rfl⟩ := List.mem_map.1 hmem
  refine ⟨k', hk', ?_⟩
  rw [hp.members_eq ha, hq.members_eq hk']
  ext b
  simp only [Set.mem_ofPred_eq, hitems b]

/-! ## One pass over the items -/

/-- Labels given in one pass, newest item first: an item that `Fresh` finds apart
from all before it gets a label of its own, any other the label of the item
before it. -/
inductive OnePass (Fresh : List α → α → Prop) : List (α × κ) → Prop
  | nil : OnePass Fresh []
  | apart {ps : List (α × κ)} {a : α} {k : κ} : OnePass Fresh ps → Fresh (ps.map Prod.fst) a →
      (∀ p ∈ ps, p.2 ≠ k) → OnePass Fresh ((a, k) :: ps)
  | beside {ps : List (α × κ)} {a b : α} {k : κ} : OnePass Fresh ((b, k) :: ps) →
      ¬ Fresh (b :: ps.map Prod.fst) a → OnePass Fresh ((a, k) :: (b, k) :: ps)

/-- The order in which one pass finds the classes of `L`, newest item first: an
item is either apart from all before it and `L` relates it to none of them, or
`L` relates it to the item before it. -/
def Arrives (Fresh : List α → α → Prop) (L : α → α → Prop) : List α → Prop
  | [] => True
  | a :: before =>
    Arrives Fresh L before ∧
      ((Fresh before a ∧ ∀ b ∈ before, ¬ L a b) ∨
        (¬ Fresh before a ∧ ∀ b ∈ before.head?, L a b))

theorem Arrives.of_append {ys : List α} (h : Arrives Fresh L (xs ++ ys)) : Arrives Fresh L ys := by
  induction xs with
  | nil => exact h
  | cons x xs ih => exact ih h.1

/-- Where no item but the first is apart and `L` relates all, any order will do. -/
theorem arrives_of_related (xs : List α) (hfirst : ∀ a, Fresh [] a)
    (hnext : ∀ before a, a ∈ xs → before ≠ [] → (∀ b ∈ before, b ∈ xs) → ¬ Fresh before a)
    (hL : ∀ a ∈ xs, ∀ b ∈ xs, L a b) {ys : List α} (hys : ∀ a ∈ ys, a ∈ xs) :
    Arrives Fresh L ys := by
  induction ys with
  | nil => trivial
  | cons a before ih =>
    have ha : a ∈ xs := hys a mem_cons_self
    have hbefore : ∀ b ∈ before, b ∈ xs := fun b hb => hys b (mem_cons_of_mem _ hb)
    refine ⟨ih hbefore, ?_⟩
    cases before with
    | nil => exact .inl ⟨hfirst a, fun b hb => absurd hb not_mem_nil⟩
    | cons b before =>
      refine .inr ⟨hnext _ a ha (cons_ne_nil _ _) hbefore, fun c hc => ?_⟩
      cases hc
      exact hL a ha b (hbefore b mem_cons_self)

/-- One pass finds the classes of an equivalence exactly in such an order. -/
theorem OnePass.groups_iff (hL : Equivalence L) (h : OnePass Fresh ps) :
    Groups L ps ↔ Arrives Fresh L (ps.map Prod.fst) := by
  induction h with
  | nil => exact iff_of_true (fun p hp => absurd hp not_mem_nil) trivial
  | @apart ps a k hps hfresh hk ih =>
    rw [map_cons, Arrives]
    constructor
    · intro hg
      refine ⟨ih.1 hg.tail, .inl ⟨hfresh, ?_⟩⟩
      intro b hb hab
      obtain ⟨q, hq, rfl⟩ := List.mem_map.1 hb
      exact hk q hq ((hg (a, k) mem_cons_self q (mem_cons_of_mem _ hq)).2 hab).symm
    · rintro ⟨hrest, hstep⟩
      have hnone : ∀ b ∈ ps.map Prod.fst, ¬ L a b := by
        rcases hstep with ⟨-, hnone⟩ | ⟨hold, -⟩
        · exact hnone
        · exact absurd hfresh hold
      have hps' : Groups L ps := ih.2 hrest
      intro p hp q hq
      rcases mem_cons.1 hp with rfl | hp <;> rcases mem_cons.1 hq with rfl | hq
      · exact iff_of_true rfl (hL.refl a)
      · exact iff_of_false (fun e => hk q hq e.symm) (hnone _ (List.mem_map_of_mem hq))
      · exact iff_of_false (hk p hp)
          (fun e => hnone _ (List.mem_map_of_mem hp) (hL.symm e))
      · exact hps' p hp q hq
  | @beside ps a b k hps hold ih =>
    rw [map_cons, map_cons, Arrives]
    rw [map_cons] at ih
    constructor
    · intro hg
      refine ⟨ih.1 hg.tail, .inr ⟨hold, ?_⟩⟩
      intro c hc
      cases hc
      exact (hg (a, k) mem_cons_self (b, k) (mem_cons_of_mem _ mem_cons_self)).1
        rfl
    · rintro ⟨hrest, hstep⟩
      have hab : L a b := by
        rcases hstep with ⟨hfresh, -⟩ | ⟨-, hhead⟩
        · exact absurd hfresh hold
        · exact hhead b rfl
      have hps' : Groups L ((b, k) :: ps) := ih.2 hrest
      -- the new item stands for the one before it
      have through : ∀ q ∈ (b, k) :: ps, k = q.2 ↔ L a q.1 := fun q hq =>
        (hps' (b, k) mem_cons_self q hq).trans
          ⟨fun hbq => hL.trans hab hbq, fun haq => hL.trans (hL.symm hab) haq⟩
      intro p hp q hq
      rcases mem_cons.1 hp with rfl | hp <;> rcases mem_cons.1 hq with rfl | hq
      · exact iff_of_true rfl (hL.refl a)
      · exact through q hq
      · exact ⟨fun e => hL.symm ((through p hp).1 e.symm),
          fun e => ((through p hp).2 (hL.symm e)).symm⟩
      · exact hps' p hp q hq

/-! ## Aggregates -/

section Aggregates

variable {β : Type w} [LinearOrder β]

/-- The least image once one item joins. -/
theorem isLeast_image_insert {S : Set α} {f : α → β} {x : β} {a : α}
    (h : IsLeast (Set.image f S) x) : IsLeast (Set.image f (insert a S)) (min x (f a)) := by
  rw [Set.image_insert_eq, min_comm]
  exact h.insert (f a)

theorem isGreatest_image_insert {S : Set α} {f : α → β} {x : β} {a : α}
    (h : IsGreatest (Set.image f S) x) :
    IsGreatest (Set.image f (insert a S)) (max x (f a)) := by
  rw [Set.image_insert_eq, max_comm]
  exact h.insert (f a)

end Aggregates

end Kit

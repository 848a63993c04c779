import Clawforge.Kit.Grouping

/-!
# First fit

Clusters made in one pass: an item joins the first cluster whose newest item accepts it, or
starts one of its own. The clusters hold each item once and are linked within. Where the
newest item of a cluster accepts whatever an older one does and two that accept one item
accept each other, no link leads from one cluster to another, and then the clusters are the
classes of the links (`mem_cluster_iff`), whatever the order (`exists_same_cluster`).
-/

namespace Kit

open List

universe u

variable {α : Type u} (R : α → α → Prop) [DecidableRel R]

/-- `x` into the first cluster whose newest item accepts it. -/
def place (x : α) : List (List α) → List (List α)
  | [] => [[x]]
  | c :: cs => if ∃ y ∈ c.head?, R y x then (x :: c) :: cs else c :: place x cs

/-- The clusters of a list, newest item first. -/
def clusters (xs : List α) : List (List α) := xs.foldl (fun cs x => place R x cs) []

/-- No link leads from one list to the other. -/
def Unlinked (R : α → α → Prop) (c d : List α) : Prop := ∀ a ∈ c, ∀ b ∈ d, ¬ R a b

variable {R} {cs : List (List α)} {a : α} {xs c : List α}

theorem clusters_snoc (xs : List α) (x : α) :
    clusters R (xs ++ [x]) = place R x (clusters R xs) := by
  rw [clusters, foldl_append]
  rfl

/-- A cluster after the step is a cluster before it, or took the item. -/
theorem mem_place {x : α} {d : List α} (h : d ∈ place R x cs) :
    d ∈ cs ∨ d = [x] ∨ ∃ c ∈ cs, (∃ y ∈ c.head?, R y x) ∧ d = x :: c := by
  induction cs with
  | nil => exact .inr (.inl (mem_singleton.1 h))
  | cons c cs ih =>
    rw [place] at h
    split at h
    · rename_i haccepts
      rcases mem_cons.1 h with rfl | h
      · exact .inr (.inr ⟨c, mem_cons_self, haccepts, rfl⟩)
      · exact .inl (mem_cons_of_mem _ h)
    · rcases mem_cons.1 h with rfl | h
      · exact .inl mem_cons_self
      · rcases ih h with hold | hnew | ⟨c', hc', hjoin⟩
        · exact .inl (mem_cons_of_mem _ hold)
        · exact .inr (.inl hnew)
        · exact .inr (.inr ⟨c', mem_cons_of_mem _ hc', hjoin⟩)

theorem mem_of_mem_place {x : α} {d : List α} (h : d ∈ place R x cs) (ha : a ∈ d) :
    a = x ∨ ∃ c ∈ cs, a ∈ c := by
  rcases mem_place h with hold | rfl | ⟨c, hc, -, rfl⟩
  · exact .inr ⟨d, hold, ha⟩
  · exact .inl (mem_singleton.1 ha)
  · rcases mem_cons.1 ha with rfl | ha
    · exact .inl rfl
    · exact .inr ⟨c, hc, ha⟩

/-! ## Every item once -/

theorem flatten_place_perm (x : α) (cs : List (List α)) :
    (place R x cs).flatten.Perm (x :: cs.flatten) := by
  induction cs with
  | nil => exact Perm.refl _
  | cons c cs ih =>
    rw [place]
    split
    · exact Perm.refl _
    · rw [flatten_cons, flatten_cons]
      exact (ih.append_left c).trans perm_middle

theorem flatten_clusters_perm (xs : List α) : (clusters R xs).flatten.Perm xs := by
  induction xs using reverseRecOn with
  | nil => exact Perm.refl _
  | append_singleton xs x ih =>
    rw [clusters_snoc]
    exact ((flatten_place_perm x _).trans (ih.cons x)).trans
      (perm_append_singleton x xs).symm

theorem exists_cluster (h : a ∈ xs) : ∃ c ∈ clusters R xs, a ∈ c :=
  mem_flatten.1 ((flatten_clusters_perm xs).mem_iff.2 h)

theorem mem_of_mem_cluster (hc : c ∈ clusters R xs) (ha : a ∈ c) : a ∈ xs :=
  (flatten_clusters_perm xs).mem_iff.1 (mem_flatten.2 ⟨c, hc, ha⟩)

/-- A cluster holds its items in the order of their arrival, the newest first. -/
theorem cluster_sublist (hc : c ∈ clusters R xs) : c.Sublist xs.reverse := by
  induction xs using reverseRecOn generalizing c with
  | nil => cases hc
  | append_singleton xs x ih =>
    rw [clusters_snoc] at hc
    rw [reverse_append, reverse_singleton, singleton_append]
    rcases mem_place hc with hold | rfl | ⟨c', hc', -, rfl⟩
    · exact (ih hold).cons x
    · exact (nil_sublist _).cons_cons x
    · exact (ih hc').cons_cons x

theorem cluster_ne_nil (hc : c ∈ clusters R xs) : c ≠ [] := by
  induction xs using reverseRecOn generalizing c with
  | nil => cases hc
  | append_singleton xs x ih =>
    rw [clusters_snoc] at hc
    rcases mem_place hc with hold | rfl | ⟨c', -, -, rfl⟩
    · exact ih hold
    · exact cons_ne_nil _ _
    · exact cons_ne_nil _ _

/-- Clusters only grow. -/
theorem exists_grown {x : α} (h : c ∈ cs) : ∃ d ∈ place R x cs, c ⊆ d := by
  induction cs with
  | nil => cases h
  | cons c' cs ih =>
    rw [place]
    split
    · rcases mem_cons.1 h with rfl | h
      · exact ⟨x :: c, mem_cons_self, subset_cons_self _ _⟩
      · exact ⟨c, mem_cons_of_mem _ h, List.Subset.refl c⟩
    · rcases mem_cons.1 h with rfl | h
      · exact ⟨c, mem_cons_self, List.Subset.refl c⟩
      · obtain ⟨d, hd, hsub⟩ := ih h
        exact ⟨d, mem_cons_of_mem _ hd, hsub⟩

/-- Two linked items that come first share a cluster. -/
theorem first_two_share {b : α} (hab : R a b) (rest : List α) :
    ∃ c ∈ clusters R (a :: b :: rest), a ∈ c ∧ b ∈ c := by
  induction rest using reverseRecOn with
  | nil =>
    refine ⟨[b, a], ?_, by simp, by simp⟩
    have hstart : clusters R [a, b] = place R b [[a]] := rfl
    rw [hstart, place, if_pos ⟨a, rfl, hab⟩]
    exact mem_singleton_self _
  | append_singleton rest x ih =>
    obtain ⟨c, hc, ha, hb⟩ := ih
    obtain ⟨d, hd, hsub⟩ := exists_grown (R := R) (x := x) hc
    refine ⟨d, ?_, hsub ha, hsub hb⟩
    rw [← cons_append, ← cons_append, clusters_snoc]
    exact hd

/-! ## Links -/

theorem Linked.mono {R : α → α → Prop} {ys : List α} (h : xs ⊆ ys) {b : α} (hab : Linked R xs a b) :
    Linked R ys a b :=
  Relation.ReflTransGen.mono (fun _ _ hstep => ⟨h hstep.1, h hstep.2.1, hstep.2.2⟩) _ _ hab

section Linked

variable (hR : ∀ a b, R a b → R b a) {c xs : List α}

include hR

/-- The items of a cluster are linked. -/
theorem linked_of_cluster (hc : c ∈ clusters R xs) {a b : α} (ha : a ∈ c) (hb : b ∈ c) :
    Linked R xs a b := by
  induction xs using reverseRecOn generalizing c a b with
  | nil => cases hc
  | append_singleton xs x ih =>
    have hsub : xs ⊆ xs ++ [x] := subset_append_left xs [x]
    have hequiv := linked_equivalence hR (xs ++ [x])
    rw [clusters_snoc] at hc
    rcases mem_place hc with hold | rfl | ⟨c', hc', ⟨y, hy, hyx⟩, rfl⟩
    · exact (ih hold ha hb).mono hsub
    · rw [mem_singleton.1 ha, mem_singleton.1 hb]
      exact Linked.refl x
    · have hymem : y ∈ c' := mem_of_mem_head? hy
      -- every item of the grown cluster is linked to its newest item before
      have hnewest : ∀ d ∈ x :: c', Linked R (xs ++ [x]) y d := by
        intro d hd
        rcases mem_cons.1 hd with rfl | hd
        · exact Linked.of_related (hsub (mem_of_mem_cluster hc' hymem)) (by simp) hyx
        · exact (ih hc' hymem hd).mono hsub
      exact hequiv.trans (hequiv.symm (hnewest a ha)) (hnewest b hb)

theorem place_unlinked {x : α} {cs : List (List α)} (h : cs.Pairwise (Unlinked R))
    (hnewest : ∀ c ∈ cs, ∀ z ∈ c, R z x → ∃ y ∈ c.head?, R y x)
    (hone : ∀ c ∈ cs, ∀ d ∈ cs, ∀ y ∈ c, ∀ z ∈ d, R y x → R z x → R y z) :
    (place R x cs).Pairwise (Unlinked R) := by
  induction cs with
  | nil => exact pairwise_singleton _ _
  | cons c cs ih =>
    obtain ⟨hfirst, hrest⟩ := pairwise_cons.1 h
    rw [place]
    split
    · rename_i haccepts
      obtain ⟨y, hy, hyx⟩ := haccepts
      refine pairwise_cons.2 ⟨fun d hd a ha b hb hab => ?_, hrest⟩
      rcases mem_cons.1 ha with rfl | ha
      · -- a second cluster that took the item would be linked to the first
        have hyc : y ∈ c := mem_of_mem_head? hy
        exact hfirst d hd y hyc b hb (hone c mem_cons_self d
          (mem_cons_of_mem _ hd) y hyc b hb hyx (hR _ _ hab))
      · exact hfirst d hd a ha b hb hab
    · rename_i hrefuses
      refine pairwise_cons.2 ⟨fun d hd a ha b hb hab => ?_, ?_⟩
      · rcases mem_of_mem_place hd hb with rfl | ⟨d', hd', hb'⟩
        · exact hrefuses (hnewest c mem_cons_self a ha hab)
        · exact hfirst d' hd' a ha b hb' hab
      · exact ih hrest (fun d hd => hnewest d (mem_cons_of_mem _ hd))
          (fun d hd d' hd' => hone d (mem_cons_of_mem _ hd) d' (mem_cons_of_mem _ hd'))

/-- No link leads from one cluster to another; `Before` is what the order of the list
promises. -/
theorem clusters_unlinked (Before : α → α → Prop) (horder : xs.Pairwise Before)
    (hnewest : ∀ z ∈ xs, ∀ y ∈ xs, ∀ x ∈ xs, z = y ∨ Before z y → Before y x →
      Linked R xs z y → R z x → R y x)
    (hone : ∀ y ∈ xs, ∀ z ∈ xs, ∀ x ∈ xs, Before y x → Before z x → R y x → R z x → R y z) :
    (clusters R xs).Pairwise (Unlinked R) := by
  induction xs using reverseRecOn with
  | nil => exact List.Pairwise.nil
  | append_singleton xs x ih =>
    obtain ⟨hxs, -, hlast⟩ := pairwise_append.1 horder
    have hx : x ∈ xs ++ [x] := by simp
    have hsub : xs ⊆ xs ++ [x] := subset_append_left xs [x]
    have hbefore : ∀ y ∈ xs, Before y x := fun y hy => hlast y hy x (mem_singleton_self x)
    rw [clusters_snoc]
    apply place_unlinked hR
    · exact ih hxs
        (fun z hz y hy w hw hzy hyw hlinked =>
          hnewest z (hsub hz) y (hsub hy) w (hsub hw) hzy hyw (hlinked.mono hsub))
        (fun y hy z hz w hw => hone y (hsub hy) z (hsub hz) w (hsub hw))
    · intro c hc z hz hzx
      obtain ⟨y, older, rfl⟩ := exists_cons_of_ne_nil (cluster_ne_nil hc)
      refine ⟨y, rfl, ?_⟩
      have hy : y ∈ xs := mem_of_mem_cluster hc mem_cons_self
      have hzmem : z ∈ xs := mem_of_mem_cluster hc hz
      have hzy : z = y ∨ Before z y := by
        rcases mem_cons.1 hz with hzy | hz
        · exact .inl hzy
        · have hdown : (y :: older).Pairwise (fun a b => Before b a) :=
            (pairwise_reverse.2 hxs).sublist (cluster_sublist hc)
          exact .inr ((pairwise_cons.1 hdown).1 z hz)
      exact hnewest z (hsub hzmem) y (hsub hy) x hx hzy (hbefore y hy)
        ((linked_of_cluster hR hc hz mem_cons_self).mono hsub) hzx
    · intro c hc d hd y hy z hz
      have hy' := mem_of_mem_cluster hc hy
      have hz' := mem_of_mem_cluster hd hz
      exact hone y (hsub hy') z (hsub hz') x hx (hbefore y hy') (hbefore z hz')

/-! ## Classes -/

theorem same_cluster_iff (hunlinked : (clusters R xs).Pairwise (Unlinked R)) {a b : α} (ha : a ∈ xs) :
    (∃ c ∈ clusters R xs, a ∈ c ∧ b ∈ c) ↔ Linked R xs a b := by
  constructor
  · rintro ⟨c, hc, hac, hbc⟩
    exact linked_of_cluster hR hc hac hbc
  · intro hlinked
    induction hlinked with
    | refl =>
      obtain ⟨c, hc, hac⟩ := exists_cluster (R := R) ha
      exact ⟨c, hc, hac, hac⟩
    | @tail b d _ hstep ih =>
      obtain ⟨c, hc, hac, hbc⟩ := ih
      obtain ⟨e, he, hde⟩ := exists_cluster (R := R) hstep.2.1
      by_cases hce : c = e
      · exact ⟨c, hc, hac, hce ▸ hde⟩
      · have hsymm : Std.Symm (Unlinked R) :=
          ⟨fun p q hpq x hx y hy hxy => hpq y hy x hx (hR _ _ hxy)⟩
        exact absurd hstep.2.2 (hunlinked.forall hc he hce b hbc d hde)

/-- The cluster of an item is its class. -/
theorem mem_cluster_iff (hunlinked : (clusters R xs).Pairwise (Unlinked R)) (hnodup : xs.Nodup)
    (hc : c ∈ clusters R xs) {a b : α} (ha : a ∈ c) : b ∈ c ↔ Linked R xs a b := by
  constructor
  · exact fun hb => linked_of_cluster hR hc ha hb
  · intro hlinked
    obtain ⟨d, hd, had, hbd⟩ :=
      (same_cluster_iff hR hunlinked (mem_of_mem_cluster hc ha)).2 hlinked
    have hdisjoint : (clusters R xs).Pairwise List.Disjoint :=
      (nodup_flatten.1 ((flatten_clusters_perm xs).nodup_iff.2 hnodup)).2
    by_cases hcd : c = d
    · exact hcd ▸ hbd
    · have hsymm : Std.Symm (α := List α) List.Disjoint := ⟨fun p q hpq x hx hy => hpq hy hx⟩
      exact absurd had (hdisjoint.forall hc hd hcd ha)

/-- In another order each cluster comes back, its items in another order. -/
theorem exists_same_cluster {ys : List α} (hperm : xs.Perm ys) (hnodup : xs.Nodup)
    (hxs : (clusters R xs).Pairwise (Unlinked R)) (hys : (clusters R ys).Pairwise (Unlinked R))
    (hc : c ∈ clusters R xs) : ∃ d ∈ clusters R ys, d.Perm c := by
  obtain ⟨a, older, rfl⟩ := exists_cons_of_ne_nil (cluster_ne_nil hc)
  have ha : a ∈ xs := mem_of_mem_cluster hc mem_cons_self
  obtain ⟨d, hd, had⟩ := exists_cluster (R := R) (hperm.mem_iff.1 ha)
  have hnodup' : ys.Nodup := hperm.nodup_iff.1 hnodup
  refine ⟨d, hd, ?_⟩
  have hcn : (a :: older).Nodup :=
    (cluster_sublist hc).nodup (nodup_reverse.2 hnodup)
  have hdn : d.Nodup := (cluster_sublist hd).nodup (nodup_reverse.2 hnodup')
  rw [perm_ext_iff_of_nodup hdn hcn]
  intro b
  rw [mem_cluster_iff hR hys hnodup' hd had, mem_cluster_iff hR hxs hnodup hc mem_cons_self,
    linked_perm hperm]

end Linked

end Kit

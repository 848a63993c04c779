import Clawforge.Kit.Islands
import Mathlib.Order.Bounds.Basic

/-!
# Chains of activity

Spans are linked if at most the gap lies between them, and a chain is everything that links
lead to. Sets without links between them have no chain in common (`chains_union`). The
islands of a list of spans are its chains: each has one number, and its end is the latest
activity of the chain (`exists_chains_islands`).
-/

namespace Kit

open List Option

universe u v

section Chains

variable {ι : Type v} {α : Type u} [AddCommGroup α] [LinearOrder α] (span : ι → α × α) (gap : α)

/-- At most the gap lies between the spans. -/
def Near (a b : ι) : Prop :=
  (span a).1 - (span b).2 ≤ gap ∧ (span b).1 - (span a).2 ≤ gap

/-- A link inside `S`. -/
def NearIn (S : Set ι) (a b : ι) : Prop := a ∈ S ∧ b ∈ S ∧ Near span gap a b

/-- What links inside `S` lead to from `a`. -/
def chain (S : Set ι) (a : ι) : Set ι := {b | Relation.ReflTransGen (NearIn span gap S) a b}

/-- The chains of the elements of `S`. -/
def chains (S : Set ι) : Set (Set ι) := chain span gap S '' S

variable {span gap} {S P Q : Set ι} {a b : ι}

theorem Near.symm (h : Near span gap a b) : Near span gap b a := ⟨h.2, h.1⟩

instance : Std.Symm (NearIn span gap S) := ⟨fun _ _ h => ⟨h.2.1, h.1, h.2.2.symm⟩⟩

theorem mem_chain_self : a ∈ chain span gap S a := Relation.ReflTransGen.refl

theorem mem_chain_of_near {c : ι} (h : b ∈ chain span gap S a) (hb : b ∈ S) (hc : c ∈ S)
    (hnear : Near span gap b c) : c ∈ chain span gap S a :=
  Relation.ReflTransGen.tail h ⟨hb, hc, hnear⟩

theorem chain_subset (ha : a ∈ S) : chain span gap S a ⊆ S := by
  intro b hb
  rcases Relation.ReflTransGen.cases_tail hb with rfl | ⟨c, -, hstep⟩
  · exact ha
  · exact hstep.2.1

theorem chain_eq_of_mem (h : b ∈ chain span gap S a) :
    chain span gap S b = chain span gap S a := by
  have hback : a ∈ chain span gap S b := symm_of (Relation.ReflTransGen (NearIn span gap S)) h
  ext c
  exact ⟨fun hc => h.trans hc, fun hc => hback.trans hc⟩

/-- No link leads from the one set to the other. -/
def Remote (span : ι → α × α) (gap : α) (P Q : Set ι) : Prop :=
  ∀ p ∈ P, ∀ q ∈ Q, ¬ Near span gap p q

theorem Remote.symm (h : Remote span gap P Q) : Remote span gap Q P :=
  fun q hq p hp hnear => h p hp q hq hnear.symm

/-- A chain stays on its side. -/
theorem chain_union_left (h : Remote span gap P Q) (ha : a ∈ P) :
    chain span gap (P ∪ Q) a = chain span gap P a := by
  ext b
  constructor
  · intro hb
    induction hb with
    | refl => exact mem_chain_self
    | tail _ hstep ih =>
      have hc := chain_subset ha ih
      rcases hstep.2.1 with hp | hq
      · exact mem_chain_of_near ih hc hp hstep.2.2
      · exact absurd hstep.2.2 (h _ hc _ hq)
  · intro hb
    have hmono : NearIn span gap P ≤ NearIn span gap (P ∪ Q) :=
      fun u v huv => ⟨.inl huv.1, .inl huv.2.1, huv.2.2⟩
    exact Relation.ReflTransGen.mono hmono _ _ hb

theorem chain_union_right (h : Remote span gap P Q) (ha : a ∈ Q) :
    chain span gap (P ∪ Q) a = chain span gap Q a := by
  rw [Set.union_comm]
  exact chain_union_left h.symm ha

theorem chains_union (h : Remote span gap P Q) :
    chains span gap (P ∪ Q) = chains span gap P ∪ chains span gap Q := by
  unfold chains
  rw [Set.image_union]
  congr 1
  · exact Set.image_congr fun a ha => chain_union_left h ha
  · exact Set.image_congr fun a ha => chain_union_right h ha

theorem subset_of_mem_chains {K : Set ι} (h : K ∈ chains span gap S) : K ⊆ S := by
  obtain ⟨a, ha, rfl⟩ := h
  exact chain_subset ha

theorem nonempty_of_mem_chains {K : Set ι} (h : K ∈ chains span gap S) : K.Nonempty := by
  obtain ⟨a, -, rfl⟩ := h
  exact ⟨a, mem_chain_self⟩

end Chains

/-! ## The latest activity -/

section Latest

variable {α : Type u} [LinearOrder α]

theorem le_latestOf {spans : List (α × α)} {latest : Option α} {m : α}
    (h : latestOf latest spans = some m) :
    (∀ k ∈ latest, k ≤ m) ∧ ∀ s ∈ spans, s.2 ≤ m := by
  induction spans generalizing latest with
  | nil =>
    refine ⟨fun k hk => ?_, fun s hs => absurd hs not_mem_nil⟩
    rw [Option.mem_def.1 hk] at h
    exact (some.inj h).le
  | cons x rest ih =>
    obtain ⟨hhead, htail⟩ := ih h
    cases latest with
    | none =>
      refine ⟨fun k hk => (not_mem_none k hk).elim, fun s hs => ?_⟩
      rcases mem_cons.1 hs with rfl | hs
      · exact hhead _ rfl
      · exact htail s hs
    | some k =>
      have hmax : max k x.2 ≤ m := hhead _ rfl
      refine ⟨fun k' hk' => ?_, fun s hs => ?_⟩
      · rw [← mem_some.1 hk']
        exact (le_max_left _ _).trans hmax
      · rcases mem_cons.1 hs with rfl | hs
        · exact (le_max_right _ _).trans hmax
        · exact htail s hs

theorem latestOf_some (k : α) (spans : List (α × α)) : ∃ m, latestOf (some k) spans = some m := by
  induction spans generalizing k with
  | nil => exact ⟨k, rfl⟩
  | cons x rest ih => exact ih (max k x.2)

end Latest

/-! ## Islands are chains -/

section Marks

variable {α : Type u} [AddCommGroup α] [LinearOrder α] {gap : α}

/-- An island is opened somewhere, or nowhere. -/
theorem exists_opening {latest : Option α} {spans : List (α × α)}
    (h : ∃ q ∈ mark gap latest spans, q.2 = true) :
    ∃ pre s post, spans = pre ++ s :: post ∧ opens gap (latestOf latest pre) s = true := by
  induction spans generalizing latest with
  | nil =>
    obtain ⟨q, hq, -⟩ := h
    cases hq
  | cons s rest ih =>
    obtain ⟨q, hq, hopen⟩ := h
    rcases mem_cons.1 hq with rfl | hq
    · exact ⟨[], s, rest, rfl, hopen⟩
    · obtain ⟨pre, x, post, rfl, hx⟩ := ih ⟨q, hq, hopen⟩
      exact ⟨s :: pre, x, post, rfl, hx⟩

/-- Where nothing but the first span opens an island there is one, and it ends with the latest
activity. -/
theorem islandsOf_single {s : α × α} {rest : List (α × α)}
    (hsorted : (s :: rest).Pairwise Before)
    (hnone : ∀ q ∈ mark gap (some s.2) rest, q.2 = false) :
    ∃ e, islandsOf (mark gap none (s :: rest)) = [e] ∧
      IsGreatest {t | ∃ x ∈ s :: rest, x.2 = t} e := by
  have hmark : mark gap none (s :: rest) = (s, true) :: mark gap (some s.2) rest := rfl
  have hspans : (mark gap none (s :: rest)).map Prod.fst = s :: rest := map_fst_mark _ _
  have hnumber : ∀ q ∈ mark gap none (s :: rest), numberOf (mark gap none (s :: rest)) q.1 = 1 := by
    intro q hq
    have hmem : q.1 ∈ s :: rest := hspans ▸ List.mem_map_of_mem hq
    have hbefore : Before s q.1 := by
      rcases mem_cons.1 hmem with heq | hrest
      · rw [heq]
        exact le_refl (toLex s)
      · exact (pairwise_cons.1 hsorted).1 _ hrest
    have htail : (mark gap (some s.2) rest).filter
        (fun x => x.2 && decide (Before x.1 q.1)) = [] := by
      rw [filter_eq_nil_iff]
      intro x hx
      rw [hnone x hx]
      exact Bool.false_ne_true
    unfold numberOf
    rw [hmark, filter_cons_of_pos (by simpa using hbefore), htail, length_singleton]
  have hnumbers : ((mark gap none (s :: rest)).map
      (fun q => numberOf (mark gap none (s :: rest)) q.1)).dedup = [1] := by
    rw [map_congr_left hnumber, map_const']
    exact replicate_dedup (by rw [hmark]; exact Nat.succ_ne_zero _)
  have hall : (mark gap none (s :: rest)).filter
      (fun q => numberOf (mark gap none (s :: rest)) q.1 = 1) = mark gap none (s :: rest) := by
    rw [filter_eq_self]
    exact fun q hq => decide_eq_true (hnumber q hq)
  have hends : (mark gap none (s :: rest)).map (fun q => q.1.2) = (s :: rest).map Prod.snd := by
    have hsnd := congrArg (List.map Prod.snd) hspans
    rwa [List.map_map] at hsnd
  have hend : endOf (mark gap none (s :: rest)) 1 = ((s :: rest).map Prod.snd).max? := by
    unfold endOf
    rw [hall, hends]
  obtain ⟨e, he⟩ : ∃ e, ((s :: rest).map Prod.snd).max? = some e := ⟨_, rfl⟩
  obtain ⟨hmem, hmax⟩ := max?_eq_some_iff.1 he
  refine ⟨e, ?_, ?_, ?_⟩
  · unfold islandsOf
    rw [hnumbers, filterMap_cons, hend, he]
    rfl
  · obtain ⟨x, hx, heq⟩ := List.mem_map.1 hmem
    exact ⟨x, hx, heq⟩
  · rintro t ⟨x, hx, rfl⟩
    exact hmax x.2 (List.mem_map_of_mem hx)

end Marks

section Islands

variable {ι : Type v} {α : Type u} [AddCommGroup α] [LinearOrder α] [IsOrderedAddMonoid α]
  {span : ι → α × α} {gap : α}

/-- Before the next opening every span is linked to the one of the latest activity. -/
theorem mem_chain_of_no_opening (hgap : 0 ≤ gap) {S : Set ι} {a y : ι} {m : α} {rest : List ι}
    (hy : y ∈ chain span gap S a) (hyS : y ∈ S) (hm : (span y).2 = m)
    (hsub : ∀ x ∈ rest, x ∈ S) (hspan : ∀ x ∈ rest, (span x).1 ≤ (span x).2)
    (hfirst : ∀ x ∈ rest, (span y).1 ≤ (span x).1)
    (hsorted : rest.Pairwise (fun x z => (span x).1 ≤ (span z).1))
    (hnone : ∀ q ∈ mark gap (some m) (rest.map span), q.2 = false) :
    ∀ x ∈ rest, x ∈ chain span gap S a := by
  induction rest generalizing y m with
  | nil => exact fun x hx => absurd hx not_mem_nil
  | cons r rest ih =>
    obtain ⟨hnext, htail⟩ := pairwise_cons.1 hsorted
    rw [forall_mem_cons] at hsub hspan hfirst
    rw [map_cons, mark, forall_mem_cons] at hnone
    have hclose : (span r).1 - m ≤ gap := by
      have hopens := hnone.1
      unfold opens at hopens
      simpa using hopens
    have hnear : Near span gap y r := by
      constructor
      · exact (sub_nonpos.2 (hfirst.1.trans hspan.1)).trans hgap
      · rw [hm]
        exact hclose
    have hr : r ∈ chain span gap S a := mem_chain_of_near hy hyS hsub.1 hnear
    rw [forall_mem_cons]
    refine ⟨hr, ?_⟩
    -- the latest activity is now of `y` or of `r`
    rcases le_total (span r).2 m with hle | hle
    · refine ih hy hyS hm hsub.2 hspan.2 hfirst.2 htail ?_
      have hmax : max m (span r).2 = m := max_eq_left hle
      have hrest := hnone.2
      rwa [elim_some, hmax] at hrest
    · refine ih hr hsub.1 rfl hsub.2 hspan.2 hnext htail ?_
      have hmax : max m (span r).2 = (span r).2 := max_eq_right hle
      have hrest := hnone.2
      rwa [elim_some, hmax] at hrest

/-- The spans before an opening are more than the gap before those from it on. -/
theorem separated_of_opening (hgap : 0 ≤ gap) {pre post : List (α × α)} {s : α × α}
    (hspan : ∀ x ∈ pre ++ s :: post, x.1 ≤ x.2) (hsorted : (pre ++ s :: post).Pairwise Before)
    {latest : Option α} (hlatest : ∀ x ∈ pre, ∃ m, latest = some m ∧ x.2 ≤ m)
    (hopens : opens gap latest s = true) : Separated gap pre (s :: post) := by
  intro p hp r hr
  obtain ⟨m, rfl, hpm⟩ := hlatest p hp
  have hgap' : gap < s.1 - m := by
    unfold opens at hopens
    simpa using hopens
  have hsr : s.1 ≤ r.1 := by
    rcases mem_cons.1 hr with rfl | hr
    · exact le_rfl
    · have hbefore := (pairwise_cons.1 (pairwise_append.1 hsorted).2.1).1 r hr
      rcases before_iff.1 hbefore with hlt | ⟨heq, -⟩
      · exact hlt.le
      · exact heq.le
  have hlt : gap < r.1 - p.2 := lt_of_lt_of_le hgap' (sub_le_sub hsr hpm)
  have hpr : p.2 < r.1 := sub_pos.1 (lt_of_le_of_lt hgap hlt)
  have hp12 := hspan p (mem_append_left _ hp)
  have hr12 := hspan r (mem_append_right _ hr)
  exact ⟨lt_of_le_of_lt hp12 hpr, hlt, (hpr.trans_le hr12).le⟩

omit [IsOrderedAddMonoid α] in
/-- Separated spans are not linked. -/
theorem remote_of_separated {first second : List ι}
    (h : Separated gap (first.map span) (second.map span)) :
    Remote span gap {x | x ∈ first} {x | x ∈ second} := by
  intro p hp q hq hnear
  have hlt := (h _ (List.mem_map_of_mem hp) _ (List.mem_map_of_mem hq)).2.1
  exact absurd hnear.2 (not_le.2 hlt)

/-- The chains of a list, each once, and the ends of the islands. -/
def ChainsEnd (span : ι → α × α) (gap : α) (l : List ι) (ends : List α) : Prop :=
  ∃ Ks : List (Set ι), Ks.Nodup ∧ (∀ K, K ∈ Ks ↔ K ∈ chains span gap {x | x ∈ l}) ∧
    Forall₂ (fun K e => IsGreatest ((fun x => (span x).2) '' K) e) Ks ends

theorem ChainsEnd.append (hgap : 0 ≤ gap) {first second : List ι} {ends ends' : List α}
    (hspan : ∀ x ∈ first, (span x).1 ≤ (span x).2)
    (hsep : Separated gap (first.map span) (second.map span))
    (hfirst : ChainsEnd span gap first ends) (hsecond : ChainsEnd span gap second ends') :
    ChainsEnd span gap (first ++ second) (ends ++ ends') := by
  obtain ⟨Ks, hnodup, hmem, hends⟩ := hfirst
  obtain ⟨Ks', hnodup', hmem', hends'⟩ := hsecond
  have hremote := remote_of_separated hsep
  refine ⟨Ks ++ Ks', ?_, fun K => ?_, rel_append hends hends'⟩
  · refine nodup_append.2 ⟨hnodup, hnodup', ?_⟩
    rintro K hK K' hK' rfl
    -- a common chain would have a common element, which is linked to itself
    have hchain := (hmem K).1 hK
    obtain ⟨x, hx⟩ := nonempty_of_mem_chains hchain
    have hx₁ := subset_of_mem_chains hchain hx
    have hx₂ := subset_of_mem_chains ((hmem' K).1 hK') hx
    have hself : (span x).1 - (span x).2 ≤ gap := (sub_nonpos.2 (hspan x hx₁)).trans hgap
    exact hremote x hx₁ x hx₂ ⟨hself, hself⟩
  · have hunion : {x | x ∈ first ++ second} = {x | x ∈ first} ∪ {x | x ∈ second} := by
      ext x
      exact mem_append
    rw [hunion, chains_union hremote, mem_append, Set.mem_union, hmem, hmem']

/-- A list of spans in order without a second opening is one chain. -/
theorem chainsEnd_single (hgap : 0 ≤ gap) {a : ι} {rest : List ι}
    (hspan : ∀ x ∈ a :: rest, (span x).1 ≤ (span x).2)
    (hsorted : ((a :: rest).map span).Pairwise Before)
    (hnone : ∀ q ∈ mark gap (some (span a).2) (rest.map span), q.2 = false) :
    ChainsEnd span gap (a :: rest) (islandsOf (mark gap none ((a :: rest).map span))) := by
  obtain ⟨e, hislands, hgreatest⟩ := islandsOf_single hsorted hnone
  have hstarts : (a :: rest).Pairwise (fun x z => (span x).1 ≤ (span z).1) := by
    refine (pairwise_map.1 hsorted).imp fun {x z} hbefore => ?_
    rcases before_iff.1 hbefore with hlt | ⟨heq, -⟩
    · exact hlt.le
    · exact heq.le
  have hself : a ∈ {x | x ∈ a :: rest} := mem_cons_self
  have hrest : ∀ x ∈ rest, x ∈ {x | x ∈ a :: rest} := fun x hx => mem_cons_of_mem a hx
  have hall : chain span gap {x | x ∈ a :: rest} a = {x | x ∈ a :: rest} := by
    refine Set.Subset.antisymm (chain_subset hself) fun x hx => ?_
    rcases mem_cons.1 hx with rfl | hx
    · exact mem_chain_self
    · exact mem_chain_of_no_opening hgap mem_chain_self hself rfl hrest
        (fun x hx => hspan x (mem_cons_of_mem a hx)) (pairwise_cons.1 hstarts).1
        (pairwise_cons.1 hstarts).2 hnone x hx
  refine ⟨[{x | x ∈ a :: rest}], nodup_singleton _, fun K => ?_, ?_⟩
  · rw [mem_singleton]
    constructor
    · rintro rfl
      exact ⟨a, mem_cons_self, hall⟩
    · rintro ⟨x, hx, rfl⟩
      rw [chain_eq_of_mem (a := a) (hall.symm ▸ hx), hall]
  · rw [map_cons, hislands]
    refine Forall₂.cons ⟨?_, ?_⟩ Forall₂.nil
    · obtain ⟨t, ht, heq⟩ := hgreatest.1
      obtain ⟨x, hx, rfl⟩ := List.mem_map.1 (show t ∈ (a :: rest).map span from ht)
      exact ⟨x, hx, heq⟩
    · rintro t ⟨x, hx, rfl⟩
      exact hgreatest.2 ⟨span x, List.mem_map_of_mem hx, rfl⟩

theorem chainsEnd_sorted (hgap : 0 ≤ gap) {l : List ι} (hspan : ∀ x ∈ l, (span x).1 ≤ (span x).2)
    (hsorted : (l.map span).Pairwise Before) :
    ChainsEnd span gap l (islands gap (l.map span)) := by
  induction hn : l.length using Nat.strong_induction_on generalizing l with
  | _ n ih =>
    cases l with
    | nil =>
      refine ⟨[], nodup_nil, fun K => ?_, Forall₂.nil⟩
      refine iff_of_false not_mem_nil ?_
      rintro ⟨x, hx, -⟩
      exact absurd hx not_mem_nil
    | cons a rest =>
      by_cases hnone : ∀ q ∈ mark gap (some (span a).2) (rest.map span), q.2 = false
      · have hsort := hsorted.insertionSort_eq
        unfold islands
        rw [hsort]
        exact chainsEnd_single hgap hspan hsorted hnone
      · -- an opening splits the list into two that are separated
        obtain ⟨pre', s, post', hsplit, hopens⟩ := exists_opening (by simpa using hnone)
        obtain ⟨pre, tail, rfl, rfl, htail⟩ := map_eq_append_iff.1 hsplit
        obtain ⟨x, post, rfl, rfl, rfl⟩ := map_eq_cons_iff.1 htail
        rw [← cons_append] at hspan hsorted ⊢
        obtain ⟨m, hm⟩ := latestOf_some (span a).2 (pre.map span)
        have hlatest : ∀ y ∈ (a :: pre).map span,
            ∃ m, latestOf (some (span a).2) (pre.map span) = some m ∧ y.2 ≤ m := by
          intro y hy
          refine ⟨m, hm, ?_⟩
          rcases mem_cons.1 hy with rfl | hy
          · exact (le_latestOf hm).1 _ rfl
          · exact (le_latestOf hm).2 y hy
        have hsep : Separated gap ((a :: pre).map span) ((x :: post).map span) := by
          refine separated_of_opening hgap ?_ ?_ hlatest hopens
          · intro y hy
            rw [← map_cons, ← map_append] at hy
            obtain ⟨z, hz, rfl⟩ := List.mem_map.1 hy
            exact hspan z hz
          · rw [← map_cons, ← map_append]
            exact hsorted
        have hspan₁ : ∀ y ∈ a :: pre, (span y).1 ≤ (span y).2 :=
          fun y hy => hspan y (mem_append_left _ hy)
        have hspan₂ : ∀ y ∈ x :: post, (span y).1 ≤ (span y).2 :=
          fun y hy => hspan y (mem_append_right _ hy)
        rw [map_append] at hsorted ⊢
        obtain ⟨hsorted₁, hsorted₂, -⟩ := pairwise_append.1 hsorted
        simp only [length_cons, length_append] at hn
        rw [islands_append (Perm.refl _) hsep]
        exact (ih _ (by simp only [length_cons]; omega) hspan₁ hsorted₁ rfl).append hgap hspan₁
          hsep (ih _ (by simp only [length_cons]; omega) hspan₂ hsorted₂ rfl)

/-- The islands of a list of spans are its chains: each has one end, its latest activity. -/
theorem exists_chains_islands (hgap : 0 ≤ gap) {l : List ι}
    (hspan : ∀ x ∈ l, (span x).1 ≤ (span x).2) : ChainsEnd span gap l (islands gap (l.map span)) := by
  let le := fun a b => Before (span a) (span b)
  have hmap : (l.insertionSort le).map span = (l.map span).insertionSort Before :=
    map_insertionSort le Before span l (fun _ _ _ _ => Iff.rfl)
  have hsorted := pairwise_insertionSort Before (l.map span)
  have hsame : islands gap ((l.insertionSort le).map span) = islands gap (l.map span) := by
    unfold islands
    rw [hmap, hsorted.insertionSort_eq]
  have hmem : ∀ x, x ∈ l.insertionSort le ↔ x ∈ l := fun x => mem_insertionSort le
  have hends := chainsEnd_sorted (l := l.insertionSort le) hgap
    (fun x hx => hspan x ((hmem x).1 hx)) (hmap ▸ hsorted)
  have hset : {x | x ∈ l.insertionSort le} = {x | x ∈ l} := Set.ext hmem
  rw [hsame] at hends
  unfold ChainsEnd at hends ⊢
  rwa [hset] at hends

end Islands

end Kit

import Clawforge.Kit.Chains
import Clawforge.Theorems.Corroboration
import Mathlib

/-!
# The history of a resource

The score of the earlier episodes is computed from a recursive query and a numbering of
spans. It is the sum over the chains of activity that were over before the chain of the
assessment: each of them once, with the decay of its last activity.
-/

namespace Clawforge.PolicyEngine

open Assessments Kit Table List Option

/-! ## Episodes -/

section Episodes

variable (s : AssessmentStore) (resource : String) (ignoreRules : List String) (gap : Int)
  (x : AssessmentRow)

/-- The assessments that count for the resource, and the one in question. -/
def activity : Set AssessmentRow :=
  {row | row ∈ s.assessments ∧ (countsFor resource ignoreRules row = true ∨ row = x)}

/-- The chain that contains the assessment. -/
def currentEpisode : Set AssessmentRow := chain spanOf gap (activity s resource ignoreRules x) x

/-- A chain without the assessment that was over before its chain began. -/
structure EarlierEpisode (K : Set AssessmentRow) : Prop where
  isChain : K ∈ chains spanOf gap (activity s resource ignoreRules x)
  other : x ∉ K
  ended : ∀ u ∈ K, ∀ v ∈ currentEpisode s resource ignoreRules gap x, u.lastSeen < v.firstSeen

/-- The last activity of an episode. -/
noncomputable def lastActivity (K : Set AssessmentRow) : Int :=
  sSup ((fun row => (row.lastSeen : Int)) '' K)

end Episodes

section History

variable {s : AssessmentStore} {resource : String} {ignoreRules : List String} {gap : Int}
  {x : AssessmentRow} {start halfLife : Int}

theorem exists_episodeStart (resource : String) (ignoreRules : List String) (gap : Int)
    (hx : x ∈ s.assessments) :
    ∃ start, episodeStart s resource x.id gap ignoreRules = some start := by
  unfold episodeStart
  rw [get?_key hx]
  rw [bind_some]
  cases hmin : (reach gap (spansFor s resource ignoreRules).length (spansFor s resource ignoreRules)
      [(x.firstSeen : Int)]).min? with
  | some start => exact ⟨start, rfl⟩
  | none =>
    have hnil := min?_eq_none_iff.1 hmin
    have hmem : (x.firstSeen : Int) ∈ reach gap (spansFor s resource ignoreRules).length
        (spansFor s resource ignoreRules) [(x.firstSeen : Int)] :=
      mem_reach_of_mem (mem_singleton_self _)
    rw [hnil] at hmem
    cases hmem

/-- The start of the query's episode is the first instant of the chain. -/
theorem start_of_currentEpisode (hgap : 0 ≤ gap)
    (hspan : ∀ row ∈ activity s resource ignoreRules x, row.firstSeen ≤ row.lastSeen)
    (hx : x ∈ s.assessments) (hstart : episodeStart s resource x.id gap ignoreRules = some start) :
    ∃ v ∈ currentEpisode s resource ignoreRules gap x, (v.firstSeen : Int) = start := by
  obtain ⟨row, hrow, starts, -, hmem, -, -, hleast⟩ := episodeStart_eq_some hstart
  have hsame : row = x := some.inj (hrow.symm.trans (get?_key hx))
  subst hsame
  refine hleast (fun c => ∃ v ∈ currentEpisode s resource ignoreRules gap row,
    (v.firstSeen : Int) = c) ?_ ⟨row, mem_chain_self, rfl⟩ start hmem
  -- what joins the chain at an instant is linked to the element of that instant
  rintro span hspans c ⟨v, hv, rfl⟩ hlt hnear
  obtain ⟨r, hr, hcounts, rfl⟩ := mem_spansFor.1 hspans
  have hself : row ∈ activity s resource ignoreRules row := ⟨hx, .inr rfl⟩
  have hvmem : v ∈ activity s resource ignoreRules row := chain_subset hself hv
  refine ⟨r, mem_chain_of_near hv hvmem ⟨hr, .inl hcounts⟩ ?_, rfl⟩
  have hvspan : (v.firstSeen : Int) ≤ v.lastSeen := Int.ofNat_le.2 (hspan v hvmem)
  unfold Near spanOf
  unfold spanOf at hlt hnear
  dsimp only at hlt hnear ⊢
  omega

/-- The rows of `prior`. -/
def priorRows (s : AssessmentStore) (resource : String) (ignoreRules : List String) (gap : Int)
    (id : Uuid) (start : Int) : List AssessmentRow :=
  s.assessments.rows.filter (fun o => countsFor resource ignoreRules o && o.id ≠ id &&
    (o.lastSeen : Int) < start - gap)

theorem mem_priorRows {id : Uuid} {o : AssessmentRow} :
    o ∈ priorRows s resource ignoreRules gap id start ↔
      o ∈ s.assessments ∧ countsFor resource ignoreRules o = true ∧ o.id ≠ id ∧
        (o.lastSeen : Int) < start - gap := by
  unfold priorRows
  rw [mem_filter, Table.mem_def]
  simp [and_assoc]

/-- What is not prior begins no earlier than the episode. -/
theorem start_le_of_not_prior (hx : x ∈ s.assessments)
    (hstart : episodeStart s resource x.id gap ignoreRules = some start) {v : AssessmentRow}
    (hv : v ∈ activity s resource ignoreRules x)
    (hnot : v ∉ priorRows s resource ignoreRules gap x.id start) : start ≤ v.firstSeen := by
  rcases eq_or_ne v x with rfl | hne
  · obtain ⟨row, hrow, starts, hfirst, -, hleast, -⟩ := episodeStart_eq_some hstart
    have hsame : row = v := some.inj (hrow.symm.trans (get?_key hx))
    exact hleast _ (hsame ▸ hfirst)
  · have hcounts : countsFor resource ignoreRules v = true := hv.2.resolve_right hne
    have hid : v.id ≠ x.id := fun hid => hne (eq_of_key_eq hv.1 hx hid)
    refine start_le_of_near hstart hv.1 hcounts (not_lt.1 fun hlt => hnot ?_)
    exact mem_priorRows.2 ⟨hv.1, hcounts, hid, hlt⟩

/-- The chains of the prior rows are the earlier episodes. -/
theorem chains_prior_iff (hgap : 0 ≤ gap)
    (hspan : ∀ row ∈ activity s resource ignoreRules x, row.firstSeen ≤ row.lastSeen)
    (hx : x ∈ s.assessments) (hstart : episodeStart s resource x.id gap ignoreRules = some start)
    {K : Set AssessmentRow} :
    K ∈ chains spanOf gap {o | o ∈ priorRows s resource ignoreRules gap x.id start} ↔
      EarlierEpisode s resource ignoreRules gap x K := by
  let P : Set AssessmentRow := {o | o ∈ priorRows s resource ignoreRules gap x.id start}
  let Q : Set AssessmentRow := activity s resource ignoreRules x \ P
  have hsub : P ⊆ activity s resource ignoreRules x := fun o ho =>
    ⟨(mem_priorRows.1 ho).1, .inl (mem_priorRows.1 ho).2.1⟩
  have hunion : activity s resource ignoreRules x = P ∪ Q := (Set.union_sdiff_cancel hsub).symm
  have hremote : Remote spanOf gap P Q := by
    intro p hp q hq hnear
    have hover := (mem_priorRows.1 hp).2.2.2
    have hlate := start_le_of_not_prior hx hstart hq.1 hq.2
    have hclose : (q.firstSeen : Int) - p.lastSeen ≤ gap := hnear.2
    omega
  have hxQ : x ∈ Q := ⟨⟨hx, .inr rfl⟩, fun hprior => (mem_priorRows.1 hprior).2.2.1 rfl⟩
  have hcurrent : currentEpisode s resource ignoreRules gap x = chain spanOf gap Q x := by
    unfold currentEpisode
    rw [hunion]
    exact chain_union_right hremote hxQ
  constructor
  · intro hK
    have hKP : K ⊆ P := subset_of_mem_chains hK
    refine ⟨?_, fun hxK => hxQ.2 (hKP hxK), fun u hu v hv => ?_⟩
    · rw [hunion, chains_union hremote]
      exact .inl hK
    · rw [hcurrent] at hv
      have hvQ : v ∈ Q := chain_subset hxQ hv
      have hover := (mem_priorRows.1 (hKP hu)).2.2.2
      have hlate := start_le_of_not_prior hx hstart hvQ.1 hvQ.2
      exact Int.ofNat_lt.1 (by omega)
  · rintro ⟨hchain, hother, hended⟩
    have hsplit := hchain
    rw [hunion, chains_union hremote] at hsplit
    refine hsplit.resolve_right ?_
    -- a chain of the rest that is over before would be linked to the current one
    rintro ⟨a, haQ, rfl⟩
    obtain ⟨v, hv, hvstart⟩ := start_of_currentEpisode hgap hspan hx hstart
    have hax : a ≠ x := by
      rintro rfl
      exact hother mem_chain_self
    have hbefore : (a.lastSeen : Int) < v.firstSeen :=
      Int.ofNat_lt.2 (hended a mem_chain_self v hv)
    have hnear : start - gap ≤ a.lastSeen := by
      by_contra hfar
      refine haQ.2 (mem_priorRows.2 ⟨haQ.1.1, haQ.1.2.resolve_right hax,
        fun hid => hax (eq_of_key_eq haQ.1.1 hx hid), not_le.1 hfar⟩)
    have haspan : (a.firstSeen : Int) ≤ a.lastSeen := Int.ofNat_le.2 (hspan a haQ.1)
    have hself : x ∈ activity s resource ignoreRules x := ⟨hx, .inr rfl⟩
    have hvmem : v ∈ activity s resource ignoreRules x := chain_subset hself hv
    have hvspan : (v.firstSeen : Int) ≤ v.lastSeen := Int.ofNat_le.2 (hspan v hvmem)
    have hlinked : Near spanOf gap v a := by
      unfold Near spanOf
      dsimp only
      omega
    have hmem : a ∈ currentEpisode s resource ignoreRules gap x :=
      mem_chain_of_near hv hvmem haQ.1 hlinked
    rw [hcurrent] at hmem
    rw [chain_eq_of_mem hmem] at hother
    exact hother mem_chain_self

/-! ## The score -/

/-- The term of an episode. -/
noncomputable def decay (now : Instant) (halfLife ended : Int) : ℝ :=
  (1 / 2 : ℝ) ^ ((((now : Int) - ended : Int) : ℝ) / (halfLife * 1000000 : ℝ))

/-- What rounds to infinity: the greatest `float8` and half of its last place. -/
noncomputable def float8Limit : ℝ := 2 ^ 1024 - 2 ^ 970

theorem one_lt_float8Limit : 1 < float8Limit := by
  unfold float8Limit
  have hsplit : (2 : ℝ) ^ 1024 = 2 ^ 970 * 2 ^ 54 := by rw [← pow_add]
  have hpow : (1 : ℝ) ≤ 2 ^ 970 := one_le_pow₀ one_le_two
  rw [hsplit]
  generalize (2 : ℝ) ^ 970 = p at hpow
  linarith

/-- `float8` with its two errors and without its rounding: `POWER` raises where the result would
be infinite, and where it would be zero, and `SUM` where the result would be infinite. -/
noncomputable def float8 : Scoring ℝ where
  zero := 0
  add x y := if x + y < float8Limit then some (x + y) else none
  decayed halfLifeSeconds age :=
    let power := (1 / 2 : ℝ) ^ ((age : ℝ) / (halfLifeSeconds * 1000000 : ℝ))
    if (1 / 2) ^ 1075 < power ∧ power < float8Limit then some power else none
  le_add := by
    intro x t y halfLife age ht hadd
    obtain ⟨-, hadd⟩ := ite_none_right_eq_some.1 hadd
    obtain ⟨-, ht⟩ := ite_none_right_eq_some.1 ht
    rw [← some.inj hadd, ← some.inj ht]
    have hpos : (0 : ℝ) ≤ (1 / 2 : ℝ) ^ ((age : ℝ) / (halfLife * 1000000 : ℝ)) := by positivity
    linarith

theorem decay_pos (now : Instant) (halfLife ended : Int) : 0 < decay now halfLife ended := by
  unfold decay
  positivity

/-- The power is not zero within `1075` half-lives. -/
theorem lt_decay_iff {now : Instant} {ended : Int} (hhalf : 0 < halfLife) :
    (1 / 2) ^ 1075 < decay now halfLife ended ↔
      (now : Int) - ended < 1075 * (halfLife * 1000000) := by
  have hpos : (0 : ℝ) < halfLife * 1000000 := by
    have hcast : (0 : ℝ) < halfLife := by exact_mod_cast hhalf
    linarith
  unfold decay
  rw [← Real.rpow_natCast, Real.rpow_lt_rpow_left_iff_of_base_lt_one (by norm_num) (by norm_num),
    div_lt_iff₀ hpos]
  exact_mod_cast Iff.rfl

/-- One more episode: its term within the range of the powers, the sum below the limit. -/
theorem addEpisode_float8 {now : Instant} {ended : Int} {sum : ℝ} (hsum : 0 ≤ sum)
    (hhalf : 0 < halfLife) :
    addEpisode float8 now halfLife sum ended =
      if (now : Int) - ended < 1075 * (halfLife * 1000000) ∧
          sum + decay now halfLife ended < float8Limit
      then .ok (sum + decay now halfLife ended) else .error .outOfRange := by
  have hdecayed : float8.decayed halfLife ((now : Int) - ended) =
      if (1 / 2) ^ 1075 < decay now halfLife ended ∧ decay now halfLife ended < float8Limit
      then some (decay now halfLife ended) else none := rfl
  unfold addEpisode
  rw [hdecayed]
  by_cases hage : (now : Int) - ended < 1075 * (halfLife * 1000000)
  · by_cases hlimit : sum + decay now halfLife ended < float8Limit
    · have hadd : float8.add sum (decay now halfLife ended) =
          some (sum + decay now halfLife ended) := if_pos hlimit
      rw [if_pos ⟨(lt_decay_iff hhalf).2 hage, by linarith⟩, if_pos ⟨hage, hlimit⟩,
        bind_some, hadd]
    · have hadd : float8.add sum (decay now halfLife ended) = none := if_neg hlimit
      rw [if_neg (c := _ ∧ sum + _ < float8Limit) (fun h => hlimit h.2)]
      split_ifs
      · rw [bind_some, hadd]
      · rfl
  · rw [if_neg (fun h => hage ((lt_decay_iff hhalf).1 h.1)), if_neg (fun h => hage h.1)]
    rfl

/-- The query returns the sum if no episode is too old and the sum is in range, and raises
otherwise. -/
theorem foldlM_float8 (now : Instant) (hhalf : 0 < halfLife) (ends : List Int) {sum : ℝ}
    (hsum : 0 ≤ sum) (hlimit : sum < float8Limit) :
    ends.foldlM (addEpisode float8 now halfLife) sum =
      if (∀ e ∈ ends, (now : Int) - e < 1075 * (halfLife * 1000000)) ∧
          sum + (ends.map (decay now halfLife)).sum < float8Limit
      then .ok (sum + (ends.map (decay now halfLife)).sum) else .error .outOfRange := by
  induction ends generalizing sum with
  | nil =>
    rw [map_nil, sum_nil, add_zero, if_pos ⟨by simp, hlimit⟩]
    rfl
  | cons e ends ih =>
    have hpos := decay_pos now halfLife e
    have hrest : 0 ≤ (ends.map (decay now halfLife)).sum := by
      refine sum_nonneg fun t ht => ?_
      obtain ⟨e', -, rfl⟩ := List.mem_map.1 ht
      exact (decay_pos now halfLife e').le
    simp only [foldlM_cons, map_cons, sum_cons, forall_mem_cons, ← add_assoc]
    rw [addEpisode_float8 hsum hhalf]
    by_cases hstep : (now : Int) - e < 1075 * (halfLife * 1000000) ∧
        sum + decay now halfLife e < float8Limit
    · rw [if_pos hstep]
      simp only [hstep.1, true_and]
      exact ih (add_nonneg hsum hpos.le) hstep.2
    · rw [if_neg hstep, if_neg (fun h => hstep ⟨h.1.1, by linarith [h.2]⟩)]
      rfl

/-- The score of the earlier episodes is one decayed term for each of them, in some order. It is
their sum exactly if no earlier episode is `1075` half-lives old and the sum is in range, and an
error otherwise. -/
theorem prior_history_is_the_sum_iff (gapSeconds halfLife : Int) (hgap : 0 ≤ gapSeconds)
    (hhalf : 0 < halfLife) (hspan : ∀ row ∈ activity s resource ignoreRules x, row.firstSeen ≤ row.lastSeen)
    (hx : x ∈ s.assessments) (now : Instant) :
    (∃ Ks : List (Set AssessmentRow), Ks.Nodup ∧
      (∀ K, K ∈ Ks ↔ EarlierEpisode s resource ignoreRules (gapSeconds * 1000000) x K) ∧
      ∀ {α : Type} [Preorder α] (sc : Scoring α),
        resourcePriorEpisodeHistoryScore sc s now resource x.id halfLife gapSeconds ignoreRules =
          (Ks.map lastActivity).foldlM (addEpisode sc now halfLife) sc.zero) ∧
    (resourcePriorEpisodeHistoryScore float8 s now resource x.id halfLife gapSeconds ignoreRules =
        .ok (∑ᶠ K ∈ {K | EarlierEpisode s resource ignoreRules (gapSeconds * 1000000) x K},
          decay now halfLife (lastActivity K)) ↔
      (∀ K, EarlierEpisode s resource ignoreRules (gapSeconds * 1000000) x K →
        (now : Int) - lastActivity K < 1075 * (halfLife * 1000000)) ∧
      ∑ᶠ K ∈ {K | EarlierEpisode s resource ignoreRules (gapSeconds * 1000000) x K},
        decay now halfLife (lastActivity K) < float8Limit) ∧
    (resourcePriorEpisodeHistoryScore float8 s now resource x.id halfLife gapSeconds ignoreRules =
        .ok (∑ᶠ K ∈ {K | EarlierEpisode s resource ignoreRules (gapSeconds * 1000000) x K},
          decay now halfLife (lastActivity K)) ∨
      resourcePriorEpisodeHistoryScore float8 s now resource x.id halfLife gapSeconds ignoreRules =
        .error .outOfRange) := by
  have hgap' : 0 ≤ gapSeconds * 1000000 := by omega
  obtain ⟨start, hstart⟩ := exists_episodeStart resource ignoreRules (gapSeconds * 1000000) hx
  have hrows : ∀ o ∈ priorRows s resource ignoreRules (gapSeconds * 1000000) x.id start,
      (spanOf o).1 ≤ (spanOf o).2 :=
    fun o ho => Int.ofNat_le.2 (hspan o ⟨(mem_priorRows.1 ho).1, .inl (mem_priorRows.1 ho).2.1⟩)
  obtain ⟨Ks, hnodup, hmem, hends⟩ := exists_chains_islands hgap' hrows
  have hchains : ∀ K, K ∈ Ks ↔
      EarlierEpisode s resource ignoreRules (gapSeconds * 1000000) x K :=
    fun K => (hmem K).trans (chains_prior_iff hgap' hspan hx hstart)
  have hprior : priorSpans s resource x.id (gapSeconds * 1000000) ignoreRules =
      (priorRows s resource ignoreRules (gapSeconds * 1000000) x.id start).map spanOf := by
    unfold priorSpans
    rw [hstart]
    rfl
  have hislands : islands (gapSeconds * 1000000)
      (priorSpans s resource x.id (gapSeconds * 1000000) ignoreRules) = Ks.map lastActivity := by
    rw [hprior]
    have heach := hends.imp fun K e hgreatest => (hgreatest.csSup_eq : lastActivity K = e)
    rw [← forall₂_map_left_iff (f := lastActivity), forall₂_eq_eq_eq] at heach
    exact heach.symm
  have hscore : ∀ {α : Type} [Preorder α] (sc : Scoring α),
      resourcePriorEpisodeHistoryScore sc s now resource x.id halfLife gapSeconds ignoreRules =
        (Ks.map lastActivity).foldlM (addEpisode sc now halfLife) sc.zero := by
    intro α _ sc
    unfold resourcePriorEpisodeHistoryScore
    rw [if_neg (by omega)]
    dsimp only
    rw [hislands]
  have hsum : ∑ᶠ K ∈ {K | EarlierEpisode s resource ignoreRules (gapSeconds * 1000000) x K},
      decay now halfLife (lastActivity K) = ((Ks.map lastActivity).map (decay now halfLife)).sum := by
    classical
    have hset : {K | EarlierEpisode s resource ignoreRules (gapSeconds * 1000000) x K} =
        ↑Ks.toFinset := by
      ext K
      rw [Finset.mem_coe, List.mem_toFinset]
      exact (hchains K).symm
    rw [hset, finsum_mem_coe_finset, sum_toFinset _ hnodup, List.map_map]
    rfl
  have hages : (∀ e ∈ Ks.map lastActivity, (now : Int) - e < 1075 * (halfLife * 1000000)) ↔
      ∀ K, EarlierEpisode s resource ignoreRules (gapSeconds * 1000000) x K →
        (now : Int) - lastActivity K < 1075 * (halfLife * 1000000) := by
    simp only [List.forall_mem_map, hchains]
  have hfold := foldlM_float8 now hhalf (Ks.map lastActivity) le_rfl (one_pos.trans one_lt_float8Limit)
  rw [zero_add] at hfold
  refine ⟨⟨Ks, hnodup, hchains, hscore⟩, ?_⟩
  rw [hscore float8, hsum, ← hages, show float8.zero = 0 from rfl, hfold]
  split
  case isTrue hrange => exact ⟨iff_of_true rfl hrange, .inl rfl⟩
  case isFalse hrange => exact ⟨iff_of_false nofun hrange, .inr rfl⟩

end History

/-- An attack in progress, one of half a day before, and one of the day before that two rules
have counted. -/
def attacked : AssessmentStore :=
  assessed [failuresAt 3 "ssh_bruteforce_slow" 0 0, failuresAt 4 "ssh_bruteforce" 43200 43200]
    (by decide)

def inProgress : AssessmentRow := failuresAt 1 "ssh_bruteforce" 86000 86100

theorem score_attacked {halfLife : Int} (hhalf : 0 < halfLife) :
    resourcePriorEpisodeHistoryScore float8 attacked (seconds 86400) "ip-pseudonym:1" 1 halfLife
        3600 [] =
      [0, 43200000000].foldlM (addEpisode float8 (seconds 86400) halfLife) 0 := by
  have hislands : islands (3600 * 1000000)
      (priorSpans attacked "ip-pseudonym:1" 1 (3600 * 1000000) []) = [0, 43200000000] := by
    decide_cbv
  unfold resourcePriorEpisodeHistoryScore
  rw [if_neg (by omega)]
  dsimp only
  rw [hislands]
  rfl

/-- Of the attacks of one and of two half-lives before, each counts once. -/
theorem history_of_two_attacks :
    resourcePriorEpisodeHistoryScore float8 attacked (seconds 86400) "ip-pseudonym:1" 1 43200 3600
        [] = .ok (3 / 4) ∧
      ∑ᶠ K ∈ {K | EarlierEpisode attacked "ip-pseudonym:1" [] (3600 * 1000000) inProgress K},
        decay (seconds 86400) 43200 (lastActivity K) = 3 / 4 := by
  have hstored : inProgress ∈ attacked.assessments := mem_cons_self
  have hspan : ∀ row ∈ activity attacked "ip-pseudonym:1" [] inProgress,
      row.firstSeen ≤ row.lastSeen := by
    have hall : ∀ row ∈ attacked.assessments.rows, row.firstSeen ≤ row.lastSeen := by decide
    exact fun row hrow => hall row hrow.1
  have hsum : (([0, 43200000000] : List Int).map (decay (seconds 86400) 43200)).sum = 3 / 4 := by
    norm_num [decay, seconds]
  have hscore : resourcePriorEpisodeHistoryScore float8 attacked (seconds 86400) "ip-pseudonym:1" 1
      43200 3600 [] = .ok (3 / 4) := by
    rw [score_attacked (by decide), foldlM_float8 _ (by decide) _ le_rfl (one_pos.trans one_lt_float8Limit), zero_add,
      hsum, if_pos ⟨by decide, lt_trans (by norm_num) one_lt_float8Limit⟩]
  obtain ⟨-, -, hvalue | herror⟩ := prior_history_is_the_sum_iff 3600 43200 (by decide) (by decide)
    hspan hstored (seconds 86400)
  · exact ⟨hscore, Except.ok.inj (hvalue.symm.trans hscore)⟩
  · cases hscore.symm.trans herror

/-- With a half-life of one minute the older attack is `1440` half-lives old, and the query
raises. -/
theorem old_attack_raises :
    ¬ ∀ halfLife : Int, 0 < halfLife →
      resourcePriorEpisodeHistoryScore float8 attacked (seconds 86400) "ip-pseudonym:1" 1 halfLife
          3600 [] =
        .ok (∑ᶠ K ∈ {K | EarlierEpisode attacked "ip-pseudonym:1" [] (3600 * 1000000) inProgress K},
          decay (seconds 86400) halfLife (lastActivity K)) := by
  intro h
  have hraises : resourcePriorEpisodeHistoryScore float8 attacked (seconds 86400) "ip-pseudonym:1"
      1 60 3600 [] = .error .outOfRange := by
    rw [score_attacked (by decide), foldlM_cons, addEpisode_float8 le_rfl (by decide),
      if_neg (fun hage => absurd hage.1 (by decide))]
    rfl
  cases hraises.symm.trans (h 60 (by decide))

end Clawforge.PolicyEngine

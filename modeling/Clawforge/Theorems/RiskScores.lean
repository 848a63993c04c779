import Clawforge.Risk.Engine
import Mathlib.Data.Finset.Card

/-!
# Risk scores in range, and what a further source does to them

The scores are in range for every input. The bonus of a further source is computed at
sixteen bits before it is capped, so that from 6555 distinct sources on it wraps around:
an assessment is exact and not below any assessment on less exactly if it has at most
6554 sources (`bounded_and_monotone_iff`).
-/

namespace Clawforge.Risk

open Clawforge.Intelligence Clawforge.Net Kit Tracked List

/-- No signal of the first is above the second's. -/
def Weaker (a b : RiskSignals) : Prop :=
  a.ipReputation ≤ b.ipReputation ∧ a.asnReputation ≤ b.asnReputation ∧
    a.behavior ≤ b.behavior ∧ a.history ≤ b.history ∧
    (a.hostingContext = true → b.hostingContext = true) ∧
    (a.bgpHijack = true → b.bgpHijack = true)

/-- Nothing is lost, the scores are in range, and with fewer indicators or weaker signals
the risk score is not higher. -/
def BoundedAndMonotone (parseIpNet : String → Option IpNet)
    (registrations : List TrustedNetwork) (observation : NetworkObservation)
    (indicators : List Indicator) (signals : RiskSignals) : Prop :=
  let assessment := evaluate parseIpNet registrations observation indicators signals
  assessment.lossless = true ∧ assessment.value.riskScore ≤ 100 ∧
    assessment.value.trustScore ≤ 100 ∧
    ∀ fewer weaker, fewer ⊆ indicators → Weaker weaker signals →
      (evaluate parseIpNet registrations observation fewer weaker).value.riskScore ≤
        assessment.value.riskScore

/-! ## The threat -/

theorem le_foldl_max (ns : List Nat) (a : Nat) : a ≤ ns.foldl max a := by
  induction ns generalizing a with
  | nil => exact Nat.le_refl a
  | cons n ns ih => exact Nat.le_trans (Nat.le_max_left a n) (ih (max a n))

theorem le_foldl_max_of_mem {ns : List Nat} {n : Nat} (h : n ∈ ns) (a : Nat) :
    n ≤ ns.foldl max a := by
  induction ns generalizing a with
  | nil => cases h
  | cons m ns ih =>
    rcases mem_cons.1 h with rfl | h
    · exact Nat.le_trans (Nat.le_max_right a n) (le_foldl_max ns _)
    · exact ih h _

variable {fewer indicators : List Indicator}

theorem strongest_mono (h : fewer ⊆ indicators) : strongest fewer ≤ strongest indicators := by
  apply foldl_max_le (Nat.zero_le _)
  intro n hn
  obtain ⟨i, hi, rfl⟩ := List.mem_map.1 hn
  have hmem : min i.confidence 50 ∈ indicators.map (fun i => min i.confidence 50) :=
    List.mem_map.2 ⟨i, h hi, rfl⟩
  exact le_foldl_max_of_mem hmem 0

theorem sources_mono (h : fewer ⊆ indicators) :
    (sourcesOf fewer).length ≤ (sourcesOf indicators).length := by
  rw [sourcesOf, sourcesOf, ← List.card_toFinset, ← List.card_toFinset]
  apply Finset.card_le_card
  intro s hs
  rw [List.mem_toFinset] at hs ⊢
  exact map_subset _ h hs

/-- The threat without machine arithmetic. -/
def raisedThreat (indicators : List Indicator) : Nat :=
  min (strongest indicators + min (((sourcesOf indicators).length - 1) * 10) 20) 50

theorem raisedThreat_mono (h : fewer ⊆ indicators) :
    raisedThreat fewer ≤ raisedThreat indicators := by
  have hstrong := strongest_mono h
  have hsources := sources_mono h
  unfold raisedThreat
  omega

/-- Up to 6554 sources the bonus fits. -/
theorem threatOf_exact (h : (sourcesOf indicators).length ≤ 6554) :
    threatOf indicators = pure (raisedThreat indicators) := by
  have hstrong := strongest_le indicators
  unfold threatOf raisedThreat
  generalize (sourcesOf indicators).length = n at h ⊢
  generalize strongest indicators = s at hstrong ⊢
  dsimp only
  split
  · have hcount : unsigned 16 (n : Int) = pure n := unsigned_of_fits (by omega) (by omega)
    have hfurther : unsigned 16 ((n : Int) - 1) = pure (n - 1) := by
      rw [unsigned_of_fits (by omega) (by omega)]
      congr 1
      omega
    have hbonus : unsigned 16 (((n - 1 : Nat) : Int) * 10) = pure ((n - 1) * 10) := by
      rw [unsigned_of_fits (by omega) (by omega)]
      congr 1
    have hraised : unsigned 16 ((s : Int) + (min ((n - 1) * 10) 20 : Nat)) =
        pure (s + min ((n - 1) * 10) 20) := by
      rw [unsigned_of_fits (by omega) (by omega)]
      congr 1
    rw [hcount, Tracked.pure_bind, hfurther, Tracked.pure_bind, hbonus, Tracked.pure_bind,
      hraised, Tracked.pure_bind]
  · congr 1
    omega

/-- From 6555 sources on, the cast, the subtraction or the product loses something. -/
theorem threatOf_lossless (h : (threatOf indicators).lossless = true) :
    (sourcesOf indicators).length ≤ 6554 := by
  by_contra hmany
  unfold threatOf at h
  generalize (sourcesOf indicators).length = n at h hmany
  dsimp only at h
  rw [if_pos (by omega)] at h
  simp only [bind_eq, Bool.and_eq_true] at h
  obtain ⟨hcount, hfurther, hbonus, -⟩ := h
  have hsmall : (n : Int) < 2 ^ 16 := (lossless_unsigned.1 hcount).2
  have hvalue : (unsigned 16 (n : Int)).value = n := by
    rw [unsigned_of_fits (by omega) hsmall]
    rfl
  rw [hvalue] at hbonus
  have hless : (unsigned 16 ((n : Int) - 1)).value = n - 1 := by
    rw [unsigned_of_fits (by omega) (by omega)]
    show ((n : Int) - 1).toNat = n - 1
    omega
  rw [hless] at hbonus
  have := (lossless_unsigned.1 hbonus).2
  omega

/-! ## The scores -/

theorem negativeTerms_mono {observation : NetworkObservation} {a b : RiskSignals}
    (h : Weaker a b) :
    (negativeTerms observation a).sum ≤ (negativeTerms observation b).sum := by
  obtain ⟨hip, hasn, hbehavior, hhistory, hhosting, hhijack⟩ := h
  have hhost : (if a.hostingContext then 5 else 0) ≤ (if b.hostingContext then 5 else 0) := by
    split
    · rename_i ha
      rw [if_pos (hhosting ha)]
    · exact Nat.zero_le _
  have hroute : (if a.bgpHijack then 30 else 0) ≤ (if b.bgpHijack then 30 else 0) := by
    split
    · rename_i ha
      rw [if_pos (hhijack ha)]
    · exact Nat.zero_le _
  simp only [negativeTerms, sum_cons]
  exact Nat.add_le_add (min_le_min_right 30 hip) (Nat.add_le_add (min_le_min_right 30 hasn)
    (Nat.add_le_add (min_le_min_right 50 hbehavior) (Nat.add_le_add (min_le_min_right 20 hhistory)
      (Nat.add_le_add hhost (Nat.add_le_add hroute (Nat.le_refl _))))))

theorem scores_mono {observation : NetworkObservation} {a b : RiskSignals} {s t : Nat}
    {node : Option Bool} {r q : List String} (hthreat : s ≤ t) (h : Weaker a b) :
    (scores observation a s node r).riskScore ≤ (scores observation b t node q).riskScore := by
  have hterms := @negativeTerms_mono observation a b h
  have hnegative : negativeOf observation a s ≤ negativeOf observation b t := by
    unfold negativeOf
    omega
  apply Int.toNat_le_toNat
  apply clamp_mono
  omega

/-- The scores are in range whatever was lost. -/
theorem scores_in_range (parseIpNet : String → Option IpNet)
    (registrations : List TrustedNetwork) (observation : NetworkObservation)
    (indicators : List Indicator) (signals : RiskSignals) :
    (evaluate parseIpNet registrations observation indicators signals).value.riskScore ≤ 100 ∧
      (evaluate parseIpNet registrations observation indicators signals).value.trustScore ≤ 100 ∧
      (evaluate parseIpNet registrations observation indicators signals).value.negativeScore ≤
        100 := by
  rw [evaluate_eq]
  refine ⟨?_, ?_, Nat.min_le_right _ _⟩
  · exact Int.toNat_le.2 (clamp_bounds _).2
  · exact Int.toNat_le.2 (clamp_bounds _).2

/-- An assessment is exact, in range and monotone exactly if it has at most 6554 sources. -/
theorem bounded_and_monotone_iff (parseIpNet : String → Option IpNet)
    (registrations : List TrustedNetwork) (observation : NetworkObservation)
    (indicators : List Indicator) (signals : RiskSignals) :
    BoundedAndMonotone parseIpNet registrations observation indicators signals ↔
      (sourcesOf indicators).length ≤ 6554 := by
  constructor
  · rintro ⟨hlossless, -⟩
    rw [lossless_evaluate] at hlossless
    exact threatOf_lossless hlossless
  · intro hsources
    obtain ⟨hrisk, htrust, -⟩ :=
      scores_in_range parseIpNet registrations observation indicators signals
    refine ⟨?_, hrisk, htrust, ?_⟩
    · rw [evaluate_eq, threatOf_exact hsources]
      rfl
    · intro fewer weaker hfewer hweaker
      have hfew : (sourcesOf fewer).length ≤ 6554 := Nat.le_trans (sources_mono hfewer) hsources
      rw [evaluate_eq, evaluate_eq, threatOf_exact hsources, threatOf_exact hfew]
      exact scores_mono (raisedThreat_mono hfewer) hweaker

/-! ## The first source too many -/

/-- One indicator of confidence 30 from each of `n` sources. -/
def reports (n : Nat) : List Indicator :=
  (List.range n).map (fun i =>
    { value := "192.0.2.1", indicatorType := .ip, categories := [], confidence := 30
      source := String.ofList (List.replicate i 'x'), firstSeen := 0, lastSeen := 0
      expiresAt := 0, metadata := .null })

def quiet : RiskSignals := ⟨0, 0, 0, 0, false, false, []⟩

def plainObservation : NetworkObservation := ⟨none, none, none, .unknown, .unknown, 0⟩

theorem length_sourcesOf_reports (n : Nat) : (sourcesOf (reports n)).length = n := by
  have hnodup : ((reports n).map Indicator.source).Nodup := by
    rw [reports, List.map_map]
    apply nodup_range.map
    intro i j h
    have hlists : List.replicate i 'x' = List.replicate j 'x' := String.ofList_injective h
    simpa using congrArg List.length hlists
  rw [sourcesOf, hnodup.dedup, length_map, reports, length_map, length_range]

theorem strongest_reports {n : Nat} (h : 0 < n) : strongest (reports n) = 30 := by
  apply Nat.le_antisymm
  · apply foldl_max_le (Nat.zero_le _)
    intro c hc
    simp only [reports, List.map_map, List.mem_map] at hc
    obtain ⟨i, -, rfl⟩ := hc
    exact Nat.le_refl 30
  · apply le_foldl_max_of_mem
    simp only [reports, List.map_map, List.mem_map]
    exact ⟨0, mem_range.2 h, rfl⟩

/-- One more source, and the assessment falls by sixteen points. -/
theorem further_source_lowers_risk :
    (evaluate readIpNet [] plainObservation (reports 6554) quiet).value.riskScore = 50 ∧
      (evaluate readIpNet [] plainObservation (reports 6555) quiet).value.riskScore = 34 ∧
      ¬ BoundedAndMonotone readIpNet [] plainObservation (reports 6555) quiet := by
  have hbefore : (threatOf (reports 6554)).value = 50 := by
    rw [threatOf, length_sourcesOf_reports, strongest_reports (by omega)]
    rfl
  have hafter : (threatOf (reports 6555)).value = 34 := by
    rw [threatOf, length_sourcesOf_reports, strongest_reports (by omega)]
    rfl
  refine ⟨?_, ?_, ?_⟩
  · rw [evaluate_eq, hbefore]
    rfl
  · rw [evaluate_eq, hafter]
    rfl
  · rintro ⟨hlossless, -⟩
    rw [lossless_evaluate] at hlossless
    have hmany := threatOf_lossless hlossless
    rw [length_sourcesOf_reports] at hmany
    omega

end Clawforge.Risk

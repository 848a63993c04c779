import Clawforge.Api.Operations

/-!
# The trend after a snapshot

A snapshot and a summary count the same things differently: open alerts are not yet part of the
summary when its trend is computed, only the latest incidents are read, a provider can also have
`failed`, and the risk is a class of scores on one side and a severity on the other. The trend
of an unchanged store is stable, and its directions compare the quantities of the snapshots,
exactly when these differences do not show (`trend_stable_iff`).
-/

namespace Clawforge.Operations

open IncidentReads Correlation Listings List Option

/-! ## Quantities -/

/-- What a trend compares. -/
@[ext] structure Quantities where
  risk : Int
  activeIncidents : Int
  alerts : Int
  failures : Int

/-- The quantities as a snapshot defines them. -/
def snapshotQuantities (db : OperationsDb) : Quantities :=
  ⟨trendRank (snapshotRisk db), db.incidents.countP isActive, openAlerts db,
    (snapshotHealth db).failed⟩

/-- The quantities as a summary defines them; no alert is counted. -/
def summaryQuantities (db : OperationsDb) : Quantities :=
  ⟨trendRank (decisionRiskAssessment (readIncidents db) (readFindings db)).riskLevel,
    (readIncidents db).countP isActive, 0, (operationsProviderHealth db.providers).failed⟩

structure Directions where
  risk : Direction
  activeIncidents : Direction
  alerts : Direction
  failures : Direction
  overall : Direction
deriving DecidableEq

/-- One quantity that rises makes a rise, otherwise one that falls makes a fall. -/
def overallOf (directions : List Direction) : Direction :=
  if .increasing ∈ directions then .increasing
  else if .decreasing ∈ directions then .decreasing
  else .stable

def directionsOf (current previous : Quantities) : Directions :=
  let risk := trendDirection current.risk previous.risk
  let activeIncidents := trendDirection current.activeIncidents previous.activeIncidents
  let alerts := trendDirection current.alerts previous.alerts
  let failures := trendDirection current.failures previous.failures
  ⟨risk, activeIncidents, alerts, failures, overallOf [risk, activeIncidents, alerts, failures]⟩

def allStable : Directions := ⟨.stable, .stable, .stable, .stable, .stable⟩

/-- The directions that a trend reports. -/
def Trend.directions (t : Trend) : Directions :=
  ⟨t.riskLevel.changeDirection, t.activeIncidents.changeDirection, t.alerts.changeDirection,
    t.providerFailures.changeDirection, t.overall.changeDirection⟩

/-- `db` with the snapshot of `old` as the latest. -/
def withSnapshot (old db : OperationsDb) : OperationsDb :=
  { db with snapshots := operationsSnapshot old :: db.snapshots }

/-- The directions of the summary of `db`, if the latest snapshot is that of `old`. -/
def reported (old db : OperationsDb) : Option Directions :=
  (loadOperationsSummary (withSnapshot old db)).trend.map Trend.directions

theorem trendDirection_eq_increasing {a b : Int} : trendDirection a b = .increasing ↔ b < a := by
  unfold trendDirection
  split
  · simp only [*]
  · split <;> simp [*]

theorem trendDirection_eq_decreasing {a b : Int} : trendDirection a b = .decreasing ↔ a < b := by
  unfold trendDirection
  split
  · simp only [reduceCtorEq, false_iff]
    omega
  · split <;> simp [*]

theorem trendDirection_eq_stable {a b : Int} : trendDirection a b = .stable ↔ a = b := by
  unfold trendDirection
  split
  · simp only [reduceCtorEq, false_iff]
    omega
  · split
    · simp only [reduceCtorEq, false_iff]
      omega
    · simp only [true_iff]
      omega

/-- A summary reports how its own quantities compare with those of the snapshot. -/
theorem reported_eq (old db : OperationsDb) :
    reported old db = some (directionsOf (summaryQuantities db) (snapshotQuantities old)) := by
  have hoverall : ∀ r i a f : Direction,
      overallOf [r, i, a, f] =
        if r = .increasing ∨ i = .increasing ∨ a = .increasing ∨ f = .increasing then .increasing
        else if r = .decreasing ∨ i = .decreasing ∨ a = .decreasing ∨ f = .decreasing then
          .decreasing
        else .stable := by
    intro r i a f
    unfold overallOf
    simp only [mem_cons, not_mem_nil, or_false, eq_comm]
  unfold reported directionsOf
  dsimp only
  rw [hoverall]
  simp only [trendDirection_eq_increasing, trendDirection_eq_decreasing]
  have hpos : ∀ a b : Int, (0 < a - b) = (b < a) := fun a b => propext Int.sub_pos
  have hneg : ∀ a b : Int, (a - b < 0) = (a < b) := fun a b => propext (by omega)
  simp only [loadOperationsSummary, withSnapshot, take_succ_cons, operationsTrend,
    map_some, Trend.directions, hpos, hneg]
  rfl

/-- All directions are stable if and only if nothing differs. -/
theorem directionsOf_eq_allStable {current previous : Quantities} :
    directionsOf current previous = allStable ↔
      current.risk = previous.risk ∧ current.activeIncidents = previous.activeIncidents ∧
        current.alerts = previous.alerts ∧ current.failures = previous.failures := by
  unfold directionsOf allStable
  dsimp only
  rw [Directions.mk.injEq, trendDirection_eq_stable, trendDirection_eq_stable,
    trendDirection_eq_stable, trendDirection_eq_stable]
  constructor
  · rintro ⟨hrisk, hincidents, halerts, hfailures, -⟩
    exact ⟨hrisk, hincidents, halerts, hfailures⟩
  · rintro ⟨hrisk, hincidents, halerts, hfailures⟩
    refine ⟨hrisk, hincidents, halerts, hfailures, ?_⟩
    rw [trendDirection_eq_stable.2 hrisk, trendDirection_eq_stable.2 hincidents,
      trendDirection_eq_stable.2 halerts, trendDirection_eq_stable.2 hfailures]
    decide

/-! ## When the quantities agree -/

/-- The least score of a class. -/
def threshold : IncidentSeverity → Int
  | .info => 0
  | .low => 1
  | .medium => 40
  | .high => 70
  | .critical => 90

def severityOrder (s : IncidentSeverity) : Int := trendRank (severityName s)

/-- The class of a score. -/
theorem severityOrder_le_riskSeverity {s : IncidentSeverity} (hs : s ≠ .info) {score : Int} :
    severityOrder s ≤ trendRank (riskSeverity score) ↔ threshold s ≤ score := by
  have hranks : trendRank (riskSeverity score) =
      if 90 ≤ score then 5 else if 70 ≤ score then 4 else if 40 ≤ score then 3
      else if 0 < score then 2 else 1 := by
    unfold riskSeverity
    split
    · rfl
    · split
      · rfl
      · split
        · rfl
        · split <;> rfl
  rw [hranks]
  cases s with
  | info => exact absurd rfl hs
  | low => exact show (2 : Int) ≤ _ ↔ (1 : Int) ≤ score by split_ifs <;> omega
  | medium => exact show (3 : Int) ≤ _ ↔ (40 : Int) ≤ score by split_ifs <;> omega
  | high => exact show (4 : Int) ≤ _ ↔ (70 : Int) ≤ score by split_ifs <;> omega
  | critical => exact show (5 : Int) ≤ _ ↔ (90 : Int) ≤ score by split_ifs <;> omega

theorem exists_riskSeverity (score : Int) :
    ∃ s : IncidentSeverity, riskSeverity score = severityName s := by
  unfold riskSeverity
  split
  · exact ⟨.critical, rfl⟩
  · split
    · exact ⟨.high, rfl⟩
    · split
      · exact ⟨.medium, rfl⟩
      · split
        · exact ⟨.low, rfl⟩
        · exact ⟨.info, rfl⟩

/-- A severity is fixed by the classes that it reaches. -/
theorem severityOrder_eq_iff (a b : IncidentSeverity) :
    severityOrder a = severityOrder b ↔
      ∀ s : IncidentSeverity, s ≠ .info → (severityOrder s ≤ severityOrder a ↔
        severityOrder s ≤ severityOrder b) := by
  constructor
  · intro heq s _
    rw [heq]
  · intro hclasses
    have hlow := hclasses .low (by decide)
    have hmedium := hclasses .medium (by decide)
    have hhigh := hclasses .high (by decide)
    have hcritical := hclasses .critical (by decide)
    revert hlow hmedium hhigh hcritical
    cases a <;> cases b <;> decide

/-- The highest score reaches a class exactly if some score does. -/
theorem threshold_le_max {s : IncidentSeverity} (hs : s ≠ .info) (scores : List Int) :
    threshold s ≤ scores.max?.getD 0 ↔ ∃ score ∈ scores, threshold s ≤ score := by
  have hpos : 0 < threshold s := by
    cases s with
    | info => exact absurd rfl hs
    | _ => decide
  cases hmax : scores.max? with
  | none =>
    rw [max?_eq_none_iff.1 hmax]
    constructor
    · intro hle
      exact absurd hle (by rw [getD_none]; omega)
    · rintro ⟨score, hscore, -⟩
      cases hscore
  | some highest =>
    obtain ⟨hmem, hle⟩ := max?_eq_some_iff.1 hmax
    constructor
    · intro hreached
      exact ⟨highest, hmem, hreached⟩
    · rintro ⟨score, hscore, hreached⟩
      exact hreached.trans (hle score hscore)

local instance trendOrder : Preorder Int := Int.instLinearOrder.toPreorder

/-- The most severe active incident, or `info`. -/
def activeSeverity (db : OperationsDb) : IncidentSeverity :=
  (((db.incidents.filter isActive).map IncidentRow.severity).argmax severityOrder).getD .info

theorem snapshotRisk_eq (db : OperationsDb) :
    snapshotRisk db = severityName (activeSeverity db) := by
  unfold snapshotRisk activeSeverity
  exact (Option.getD_map severityName .info _).symm ▸ rfl

theorem severityOrder_le_active {s : IncidentSeverity} (hs : s ≠ .info) (db : OperationsDb) :
    severityOrder s ≤ severityOrder (activeSeverity db) ↔
      ∃ i ∈ db.incidents, isActive i = true ∧ severityOrder s ≤ severityOrder i.severity := by
  have hmem : ∀ {x : IncidentSeverity}, x ∈ (db.incidents.filter isActive).map
      IncidentRow.severity ↔ ∃ i ∈ db.incidents, isActive i = true ∧ i.severity = x := by
    intro x
    simp only [List.mem_map, mem_filter, and_assoc]
  unfold activeSeverity
  cases hmax : ((db.incidents.filter isActive).map IncidentRow.severity).argmax severityOrder with
  | none =>
    rw [argmax_eq_none] at hmax
    constructor
    · intro hle
      have hnot : ¬ severityOrder s ≤ severityOrder .info := by
        revert hs
        cases s <;> decide
      exact absurd hle hnot
    · rintro ⟨i, hi, hactive, -⟩
      have hin := hmem.2 ⟨i, hi, hactive, rfl⟩
      rw [hmax] at hin
      cases hin
  | some highest =>
    constructor
    · intro hle
      obtain ⟨i, hi, hactive, rfl⟩ := hmem.1 (argmax_mem hmax)
      exact ⟨i, hi, hactive, hle⟩
    · rintro ⟨i, hi, hactive, hle⟩
      exact hle.trans (le_of_mem_argmax (hmem.2 ⟨i, hi, hactive, rfl⟩) hmax)

/-- The differences between a snapshot and a summary do not show: no alert is open, no active
incident is beyond those that are read, no provider has `failed`, and the scores that are read
reach a class exactly if an active incident is as severe. -/
structure Consistent (db : OperationsDb) : Prop where
  alerts : ∀ a ∈ db.alerts, a.status ≠ .opened
  incidents : ∀ i ∈ db.incidents.drop 500, isActive i = false
  providers : ∀ p ∈ db.providers, p.status ≠ some "failed"
  risk : ∀ s : IncidentSeverity, s ≠ .info →
    ((∃ score ∈ riskScores (readIncidents db) (readFindings db), threshold s ≤ score) ↔
      ∃ i ∈ db.incidents, isActive i = true ∧ severityOrder s ≤ severityOrder i.severity)

variable (db : OperationsDb)

theorem risk_eq_iff :
    (summaryQuantities db).risk = (snapshotQuantities db).risk ↔
      ∀ s : IncidentSeverity, s ≠ .info →
        ((∃ score ∈ riskScores (readIncidents db) (readFindings db), threshold s ≤ score) ↔
          ∃ i ∈ db.incidents, isActive i = true ∧
            severityOrder s ≤ severityOrder i.severity) := by
  unfold summaryQuantities snapshotQuantities decisionRiskAssessment
  dsimp only
  rw [snapshotRisk_eq]
  obtain ⟨read, hread⟩ := exists_riskSeverity
    ((riskScores (readIncidents db) (readFindings db)).max?.getD 0)
  rw [hread]
  refine (severityOrder_eq_iff read (activeSeverity db)).trans ?_
  refine forall₂_congr (fun s hs => ?_)
  rw [severityOrder_le_active hs, ← threshold_le_max hs, ← severityOrder_le_riskSeverity hs, hread]
  rfl

theorem activeIncidents_eq_iff :
    (summaryQuantities db).activeIncidents = (snapshotQuantities db).activeIncidents ↔
      ∀ i ∈ db.incidents.drop 500, isActive i = false := by
  unfold summaryQuantities snapshotQuantities readIncidents
  dsimp only
  have hsplit : db.incidents.countP isActive =
      (db.incidents.take 500).countP isActive + (db.incidents.drop 500).countP isActive := by
    rw [← countP_append, take_append_drop]
  have hnone : (db.incidents.drop 500).countP isActive = 0 ↔
      ∀ i ∈ db.incidents.drop 500, isActive i = false := by
    simp only [countP_eq_zero, Bool.not_eq_true]
  rw [← hnone]
  omega

theorem alerts_eq_iff :
    (summaryQuantities db).alerts = (snapshotQuantities db).alerts ↔
      ∀ a ∈ db.alerts, a.status ≠ .opened := by
  unfold summaryQuantities snapshotQuantities openAlerts
  dsimp only
  have hnone : db.alerts.countP (fun a => a.status = .opened) = 0 ↔
      ∀ a ∈ db.alerts, a.status ≠ .opened := by
    simp only [countP_eq_zero, decide_eq_true_eq, ne_eq]
  rw [← hnone]
  omega

/-- A snapshot also counts the providers that have `failed`. -/
theorem failed_eq (providers : List ProviderView) :
    providers.countP (fun p => p.status = some "error" ∨ p.status = some "failed") =
      providers.countP (fun p => p.status = some "error") +
        providers.countP (fun p => p.status = some "failed") := by
  induction providers with
  | nil => rfl
  | cons p providers ih =>
    rw [countP_cons, countP_cons, countP_cons, ih]
    by_cases herror : p.status = some "error"
    · have hother : ¬ p.status = some "failed" := by
        rw [herror]
        decide
      simp only [herror, true_or, decide_true, if_true]
      rw [if_neg (by decide)]
      omega
    · simp only [herror, false_or, decide_false, Bool.false_eq_true, if_false]
      omega

theorem failures_eq_iff :
    (summaryQuantities db).failures = (snapshotQuantities db).failures ↔
      ∀ p ∈ db.providers, p.status ≠ some "failed" := by
  unfold summaryQuantities snapshotQuantities operationsProviderHealth snapshotHealth
  dsimp only
  rw [failed_eq]
  have hnone : db.providers.countP (fun p => p.status = some "failed") = 0 ↔
      ∀ p ∈ db.providers, p.status ≠ some "failed" := by
    simp only [countP_eq_zero, decide_eq_true_eq, ne_eq]
  rw [← hnone]
  omega

theorem consistent_iff :
    Consistent db ↔ (summaryQuantities db).risk = (snapshotQuantities db).risk ∧
      (summaryQuantities db).activeIncidents = (snapshotQuantities db).activeIncidents ∧
      (summaryQuantities db).alerts = (snapshotQuantities db).alerts ∧
      (summaryQuantities db).failures = (snapshotQuantities db).failures := by
  rw [risk_eq_iff, activeIncidents_eq_iff, alerts_eq_iff, failures_eq_iff]
  constructor
  · rintro ⟨halerts, hincidents, hproviders, hrisk⟩
    exact ⟨hrisk, hincidents, halerts, hproviders⟩
  · rintro ⟨hrisk, hincidents, halerts, hproviders⟩
    exact ⟨halerts, hincidents, hproviders, hrisk⟩

theorem summaryQuantities_eq (h : Consistent db) :
    summaryQuantities db = snapshotQuantities db := by
  obtain ⟨hrisk, hincidents, halerts, hfailures⟩ := (consistent_iff db).1 h
  exact Quantities.ext hrisk hincidents halerts hfailures

/-! ## Stability -/

/-- The summary right after the snapshot of the same store reports no change. -/
def Stable : Prop :=
  (loadOperationsSummary (captureOperationsSnapshot db)).trend.map Trend.directions =
    some allStable

/-- The reported directions compare the quantities of the snapshots at the two moments. -/
def ComparesSame (old : OperationsDb) : Prop :=
  reported old db = some (directionsOf (snapshotQuantities db) (snapshotQuantities old))

theorem stable_iff : Stable db ↔ Consistent db := by
  have hreported : (loadOperationsSummary (captureOperationsSnapshot db)).trend.map
      Trend.directions = some (directionsOf (summaryQuantities db) (snapshotQuantities db)) :=
    reported_eq db db
  unfold Stable
  rw [hreported, some_inj, directionsOf_eq_allStable, consistent_iff]

/-- The trend of an unchanged store is stable, and against every earlier snapshot its directions
compare the quantities of the snapshots, if and only if the store is consistent. -/
theorem trend_stable_iff :
    (Stable db ↔ Consistent db) ∧ ((∀ old, ComparesSame db old) ↔ Consistent db) := by
  refine ⟨stable_iff db, ?_, ?_⟩
  · intro hsame
    have hself := hsame db
    unfold ComparesSame at hself
    rw [directionsOf_eq_allStable.2 ⟨rfl, rfl, rfl, rfl⟩] at hself
    exact (stable_iff db).1 hself
  · intro hconsistent old
    unfold ComparesSame
    rw [reported_eq, summaryQuantities_eq db hconsistent]

/-! ### An open alert -/

/-- A store with one open alert and nothing else. -/
def oneAlert : OperationsDb where
  incidents := []
  findings := []
  events := []
  providers := []
  alerts := [⟨1, "suricata", "high", .opened, none, 1, "Port scan", .null, "scan", "scan", 80,
    false, none, 1, 1, 1⟩]
  runtime := []
  migrationsCurrent := true
  snapshots := []
  eventsNewestFirst := .nil
  eventsDistinct := .nil

/-- Its alert is in the snapshot and not in the trend, which reports a fall. -/
theorem alert_falls :
    ¬ Stable oneAlert ∧
      reported oneAlert oneAlert =
        some ⟨.stable, .stable, .decreasing, .stable, .decreasing⟩ := by
  refine ⟨fun hstable => ?_, ?_⟩
  · exact ((stable_iff oneAlert).1 hstable).alerts _ mem_cons_self rfl
  · rw [reported_eq]
    decide

end Clawforge.Operations

import Clawforge.Kit.Page
import Clawforge.Theorems.Corroboration

/-!
# The decision backlog

What enters the backlog is any undecided assessment whose rule has an active policy; what
leaves it is one that some policy decides. Assessments that no policy decides stay in, and as
the page is the newest ones, enough of them keep all others out.
-/

namespace Clawforge.PolicyEngine

open Assessments EventDelivery Kit Policies Reputation List

instance : Std.Total Newer := ⟨fun a b => Int.le_total b.bucketStart a.bucketStart⟩

instance : IsTrans AssessmentRow Newer := ⟨fun _ _ _ hab hbc => Int.le_trans hbc hab⟩

section Cycle

variable {α : Type} [Preorder α] [DecidableLE α] (env : Env) {sc : Scoring α} (cfg : Config sc)

/-- An evaluation of the assessment persists a decision. -/
def wouldDecide (db : Db) (now : Instant) (a : AssessmentRow) : Bool :=
  match evaluateAssessment env cfg db now a with
  | .ok decisions => !decisions.isEmpty
  | .error _ => false

/-- The assessment is recent, would receive a decision, and has none. -/
structure Waiting (w : CycleDb) (now : Instant) (a : AssessmentRow) : Prop where
  stored : a ∈ w.db.store.assessments
  recent : backlogSince now ≤ (w.createdAt a.id : Int)
  undecided : ∀ d ∈ w.decisions, d.assessmentId ≠ a.id
  would : wouldDecide env cfg w.db now a = true

variable {env cfg} {w : CycleDb} {now : Instant} {a : AssessmentRow}

theorem wouldDecide_iff {db : Db} : wouldDecide env cfg db now a = true ↔
    ∃ decisions, evaluateAssessment env cfg db now a = .ok decisions ∧ decisions ≠ [] := by
  unfold wouldDecide
  cases evaluateAssessment env cfg db now a with
  | error e => simp
  | ok decisions => simp

/-- A cycle evaluates the assessments on either of its two pages. -/
theorem mem_cycleAssessments {limit backlogLimit : Int} :
    a ∈ cycleAssessments w now limit backlogLimit ↔
      Within Newer (clampLimit limit) w.db.store.assessments.rows a ∨
        Within Newer (clampLimit backlogLimit)
          (w.db.store.assessments.rows.filter (undecided w (backlogSince now))) a := by
  have hrecent : ∀ x, x ∈ listSecurityAssessments w.db.store none limit ↔
      Within Newer (clampLimit limit) w.db.store.assessments.rows x := by
    intro x
    have hall : w.db.store.assessments.rows.filter
        (fun a => (none : Option Uuid) = none || a.incidentId = none) =
          w.db.store.assessments.rows := filter_eq_self.2 (fun _ _ => rfl)
    rw [← mem_page, page, listSecurityAssessments, hall]
  have hbacklog : a ∈ listUndecidedSecurityAssessments w (backlogSince now) backlogLimit ↔
      Within Newer (clampLimit backlogLimit)
        (w.db.store.assessments.rows.filter (undecided w (backlogSince now))) a := mem_page
  unfold cycleAssessments
  rw [mem_append, mem_filter, hrecent, hbacklog]
  constructor
  · rintro (h | ⟨h, -⟩)
    · exact .inl h
    · exact .inr h
  · rintro (h | h)
    · exact .inl h
    · by_cases hknown : a.id ∈
          (listSecurityAssessments w.db.store none limit).map AssessmentRow.id
      · -- it is among the newest already
        obtain ⟨x, hx, hid⟩ := List.mem_map.1 hknown
        obtain ⟨pre, post, hsplit, -⟩ := (hrecent x).1 hx
        obtain ⟨pre', post', hsplit', -⟩ := h
        have hmem : x ∈ w.db.store.assessments := by
          show x ∈ w.db.store.assessments.rows
          rw [hsplit]
          exact mem_append_right _ mem_cons_self
        have hmem' : a ∈ w.db.store.assessments := by
          have hfilter : a ∈ w.db.store.assessments.rows.filter
              (undecided w (backlogSince now)) := by
            rw [hsplit']
            exact mem_append_right _ mem_cons_self
          exact mem_of_mem_filter hfilter
        rw [← Table.eq_of_key_eq hmem hmem' hid]
        exact .inl ((hrecent x).1 hx)
      · refine .inr ⟨h, ?_⟩
        simpa using hknown

variable (env cfg) in
/-- What is listed and stands in the way of `a`: whatever no policy decides. -/
def inTheWay (w : CycleDb) (now : Instant) (a : AssessmentRow) : List AssessmentRow :=
  (w.db.store.assessments.rows.filter (undecided w (backlogSince now))).filter
    (fun x => !wouldDecide env cfg w.db now x || x = a)

/-- A cycle reaches one of the assessments that wait for a decision, exactly if one of them is
among the newest of all, or has too few in its way to fill the page of the backlog. -/
theorem cycle_progress_iff (w : CycleDb) (now : Instant) (limit backlogLimit : Int) :
    ((∃ a, Waiting env cfg w now a) →
        ∃ a ∈ cycleAssessments w now limit backlogLimit, Waiting env cfg w now a) ↔
      ((∃ a, Waiting env cfg w now a) → ∃ a, Waiting env cfg w now a ∧
        (Within Newer (clampLimit limit) w.db.store.assessments.rows a ∨
          Within Newer (clampLimit backlogLimit) (inTheWay env cfg w now a) a)) := by
  -- on the page of the backlog, only what no policy decides counts
  have hpage := exists_within_iff (r := Newer) (clampLimit backlogLimit)
    (w.db.store.assessments.rows.filter (undecided w (backlogSince now)))
    (wouldDecide env cfg w.db now)
  have hwaiting : ∀ {l : List AssessmentRow} {n : Nat} {a : AssessmentRow},
      (∀ x ∈ l, x ∈ w.db.store.assessments.rows.filter (undecided w (backlogSince now))) →
      wouldDecide env cfg w.db now a = true → Within Newer n l a → Waiting env cfg w now a := by
    intro l n a hsub hwould hwithin
    obtain ⟨pre, post, rfl, -⟩ := hwithin
    obtain ⟨hmem, hlisted⟩ :=
      mem_filter.1 (hsub a (mem_append_right _ mem_cons_self))
    unfold PolicyEngine.undecided at hlisted
    simp only [Bool.and_eq_true, Bool.not_eq_true', decide_eq_true_eq, List.any_eq_false] at hlisted
    exact ⟨hmem, hlisted.1.1, hlisted.1.2, hwould⟩
  have hsame : (∃ a ∈ cycleAssessments w now limit backlogLimit, Waiting env cfg w now a) ↔
      ∃ a, Waiting env cfg w now a ∧
        (Within Newer (clampLimit limit) w.db.store.assessments.rows a ∨
          Within Newer (clampLimit backlogLimit) (inTheWay env cfg w now a) a) := by
    constructor
    · rintro ⟨a, ha, hwait⟩
      rcases mem_cycleAssessments.1 ha with hnew | hlisted
      · exact ⟨a, hwait, .inl hnew⟩
      · obtain ⟨x, hwould, hwithin⟩ := hpage.1 ⟨a, hwait.would, hlisted⟩
        exact ⟨x, hwaiting (fun _ => mem_of_mem_filter) hwould hwithin, .inr hwithin⟩
    · rintro ⟨a, hwait, hnew | hfew⟩
      · exact ⟨a, mem_cycleAssessments.2 (.inl hnew), hwait⟩
      · obtain ⟨x, hwould, hwithin⟩ := hpage.2 ⟨a, hwait.would, hfew⟩
        exact ⟨x, mem_cycleAssessments.2 (.inr hwithin),
          hwaiting (fun _ => id) hwould hwithin⟩
  rw [hsame]

/-- Without a policy in force that the severity meets, nothing is decided. -/
theorem wouldDecide_eq_false {db : Db}
    (hnone : (listActiveSecurityPoliciesForRule db.policies a.ruleId now).filter
      (fun policy => minSeverityMet a.severity policy.minSeverity) = []) :
    wouldDecide env cfg db now a = false := by
  rw [Bool.eq_false_iff]
  intro hwould
  obtain ⟨decisions, hok, hsome⟩ := wouldDecide_iff.1 hwould
  obtain ⟨evidence, -, rfl⟩ := except_map_ok hok
  rw [hnone] at hsome
  exact hsome rfl

end Cycle

/-! ## A page of assessments that no policy decides -/

/-- Below the severity of the one policy for its rule. -/
def belowSeverity (id : Uuid) : AssessmentRow :=
  { failuresAt id "ssh_bruteforce" 600 600 with severity := "medium" }

/-- An older one, that a policy decides. -/
def serverFaults : AssessmentRow := failuresAt 200 "http_server_fault_burst" 300 300

theorem nodup_crowded :
    (((List.range 200).map belowSeverity ++ [serverFaults]).map AssessmentRow.id).Nodup := by
  have hids : ((List.range 200).map belowSeverity ++ [serverFaults]).map AssessmentRow.id =
      List.range 201 := by
    have hid : AssessmentRow.id ∘ belowSeverity = id := rfl
    have hlast : serverFaults.id = 200 := rfl
    rw [map_append, List.map_map, hid, List.map_id, map_singleton, hlast]
    exact (range_succ (n := 200)).symm
  rw [hids]
  exact nodup_range

/-- Two hundred of the first kind, all newer than one of the second. -/
def crowded : CycleDb where
  db :=
    { store := ⟨[], ⟨_, nodup_crowded⟩, []⟩
      intel := ⟨Table.empty _, Table.empty _, Table.empty _, []⟩
      policies := ⟨[
        ⟨1, "bruteforce", 1, .active, .automatic, "ssh_bruteforce", "critical", 0, none⟩,
        ⟨2, "server faults", 1, .active, .observe, "http_server_fault_burst", "low", 0, none⟩],
        by decide⟩ }
  createdAt := fun _ => seconds 1000
  decisions := Table.empty _

theorem waiting_serverFaults : Waiting plainEnv quarterDay crowded (seconds 2000) serverFaults where
  stored := mem_concat_self
  recent := by decide
  undecided := fun _ hd => absurd hd Table.not_mem_empty
  would := by decide +kernel

theorem wouldDecide_belowSeverity (id : Uuid) :
    wouldDecide plainEnv quarterDay crowded.db (seconds 2000) (belowSeverity id) = false := by
  apply wouldDecide_eq_false
  show (listActiveSecurityPoliciesForRule crowded.db.policies "ssh_bruteforce" (seconds 2000)).filter
    (fun policy => minSeverityMet "medium" policy.minSeverity) = []
  decide +kernel

/-- With the default limits, no cycle ever comes to the one that would be decided. -/
theorem crowded_out :
    ¬ ((∃ a, Waiting plainEnv quarterDay crowded (seconds 2000) a) →
      ∃ a ∈ cycleAssessments crowded (seconds 2000) 200 100,
        Waiting plainEnv quarterDay crowded (seconds 2000) a) := by
  intro hclaim
  obtain ⟨a, ha, hwaiting⟩ := hclaim ⟨serverFaults, waiting_serverFaults⟩
  have hstuck : a ∈ (List.range 200).map belowSeverity := by
    have hsorted : ((List.range 200).map belowSeverity ++ [serverFaults]).Pairwise Newer := by
      rw [pairwise_append, pairwise_map]
      refine ⟨pairwise_of_forall (fun _ _ => Int.le_refl _), pairwise_singleton _ _, ?_⟩
      intro x hx y hy
      obtain ⟨i, -, rfl⟩ := List.mem_map.1 hx
      rw [mem_singleton.1 hy]
      show (seconds 300 : Int) ≤ (seconds 600 : Int)
      decide
    have hpage : ∀ n ≤ 200, page Newer n ((List.range 200).map belowSeverity ++ [serverFaults]) =
        ((List.range 200).map belowSeverity).take n := by
      intro n hn
      rw [page, hsorted.insertionSort_eq, take_append_of_le_length]
      rwa [length_map, length_range]
    have hrows : crowded.db.store.assessments.rows =
        (List.range 200).map belowSeverity ++ [serverFaults] := rfl
    have hlisted : crowded.db.store.assessments.rows.filter
        (undecided crowded (backlogSince (seconds 2000))) =
          (List.range 200).map belowSeverity ++ [serverFaults] := by
      rw [hrows, filter_eq_self]
      intro x hx
      rcases mem_append.1 hx with hx | hx
      · obtain ⟨i, -, rfl⟩ := List.mem_map.1 hx
        have hfirst : undecided crowded (backlogSince (seconds 2000)) (belowSeverity 0) = true := by
          decide +kernel
        exact hfirst
      · rw [mem_singleton.1 hx]
        decide +kernel
    have hmem := mem_cycleAssessments.1 ha
    rw [hlisted, hrows, ← mem_page, ← mem_page, hpage _ (by decide), hpage _ (by decide)] at hmem
    rcases hmem with hmem | hmem <;> exact mem_of_mem_take hmem
  obtain ⟨i, -, rfl⟩ := List.mem_map.1 hstuck
  have hwould := hwaiting.would
  rw [wouldDecide_belowSeverity] at hwould
  cases hwould

end Clawforge.PolicyEngine

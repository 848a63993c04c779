import Clawforge.Executor.SingleAdapter

/-!
# What the fan-out reports

A `firewall.*` dispatch is one run of each adapter in turn, folded into one
outcome. It fails only if no adapter called a live apply or owns a generation,
it demands recovery whenever an effect is uncertain or partial, and it succeeds
exactly when nftables did and nothing is uncertain.
-/

namespace Clawforge.Executor

open Clawforge.Firewall Clawforge.RuleIntents Clawforge.Text Kit List

/-! ## The runs of a fan-out -/

/-- One adapter's part of a fan-out. -/
structure AdapterRun where
  kind : AdapterKind
  history : List (Prog.Event ExecCall.Answer)
  outcome : GenericDispatchOutcome

namespace AdapterRun

/-- The adapter was called for a live apply, the only method that mutates. -/
def Mutated (r : AdapterRun) : Prop :=
  ∃ e ∈ r.history, ∃ action, e.call = .apply r.kind action false

/-- A write-ahead generation was prepared for the adapter, and the journal has answered so. -/
def Owns (r : AdapterRun) : Prop :=
  ∃ e ∈ r.history, ∃ args id, e = ⟨.prepare args, .ok id⟩

/-- The adapter's effect is uncertain. -/
def Uncertain (r : AdapterRun) : Prop :=
  r.outcome.completion = .recoveryRequired ∨ ∃ id, r.outcome.effect = .uncertainOwned id

end AdapterRun

/-- The fold over the adapters' runs. -/
def foldRuns (s : MultiState) (runs : List AdapterRun) : MultiState :=
  runs.foldl (fun s r => s.add r.kind r.outcome) s

theorem exec_multiLoop {cfg : AdapterConfig} {action : FirewallAction} {dryRun : Bool}
    {journal : Option RuleJournal} {adapters : List AdapterKind} {s : MultiState}
    {h : List (Prog.Event ExecCall.Answer)} {o : GenericDispatchOutcome}
    (hexec : Prog.Exec (multiLoop cfg action dryRun journal adapters s) h o) :
    ∃ runs : List AdapterRun, runs.map (·.kind) = adapters ∧ h = runs.flatMap (·.history) ∧
      (∀ r ∈ runs,
        Prog.Exec (applySingleAdapter cfg r.kind action dryRun journal) r.history r.outcome) ∧
      o = (foldRuns s runs).outcome dryRun := by
  induction adapters generalizing s h with
  | nil =>
    obtain ⟨rfl, rfl⟩ := hexec.of_pure
    exact ⟨[], rfl, rfl, forall_mem_nil _, rfl⟩
  | cons kind rest ih =>
    obtain ⟨h₁, h₂, result, rfl, hfirst, hrest⟩ := Prog.exec_bind.mp hexec
    obtain ⟨runs, hkinds, hhistory, hruns, ho⟩ := ih hrest
    refine ⟨⟨kind, h₁, result⟩ :: runs, by rw [map_cons, hkinds],
      by rw [flatMap_cons, hhistory], ?_, ho⟩
    intro r hr
    rcases mem_cons.mp hr with rfl | hr
    · exact hfirst
    · exact hruns r hr

/-! ## What one run's facts say about its calls -/

theorem observe_prepared (f : Facts) (e : Prog.Event ExecCall.Answer)
    (h : f.prepared.isSome = true) : (f.observe e.call e.answer).prepared.isSome = true := by
  obtain ⟨call, answer⟩ := e
  cases call with
  | preflight kind target => cases answer <;> exact h
  | apply kind action dryRun => cases dryRun <;> exact h
  | prepare args =>
    show (answer.toOption.or f.prepared).isSome = true
    rw [Option.isSome_or, h, Bool.or_true]
  | verify | finish | recoveryRequired | resolveIncidentSource => exact h

/-- A generation once prepared stays known. -/
theorem advance_prepared {f : Facts} {h : List (Prog.Event ExecCall.Answer)}
    (hf : f.prepared.isSome = true ∨ ∃ e ∈ h, ∃ args id, e = ⟨.prepare args, .ok id⟩) :
    (Prog.advance Facts.observe f h).prepared.isSome = true := by
  induction h generalizing f with
  | nil =>
    rcases hf with hf | ⟨e, he, -⟩
    · exact hf
    · cases he
  | cons e h ih =>
    refine ih ?_
    rcases hf with hf | ⟨e', he', args, id, rfl⟩
    · exact .inl (observe_prepared f e hf)
    · rcases mem_cons.mp he' with rfl | he'
      · exact .inl (by simp [Facts.observe, Except.toOption])
      · exact .inr ⟨_, he', args, id, rfl⟩

/-- The facts of one adapter's run, and what they say. -/
structure RunFacts (action : FirewallAction) (dryRun : Bool) (journal : Option RuleJournal)
    (r : AdapterRun) (f : Facts) : Prop where
  sound : OutcomeSound r.kind action dryRun journal f r.outcome
  applies : r.Mutated → f.applies ≠ []
  prepared : r.Owns → f.prepared ≠ none

theorem run_facts {cfg : AdapterConfig} {action : FirewallAction} {dryRun : Bool}
    {journal : Option RuleJournal} {r : AdapterRun}
    (hexec : Prog.Exec (applySingleAdapter cfg r.kind action dryRun journal) r.history r.outcome)
    (hanswered : ∀ e ∈ r.history, Answered cfg e.call e.answer) :
    ∃ f, RunFacts action dryRun journal r f := by
  refine ⟨_, Prog.Guided.exec applySingleAdapter_sound hexec hanswered, ?_, ?_⟩
  · rintro ⟨e, he, a, hcall⟩ hnil
    rw [advance_applies, Facts.start, nil_append] at hnil
    have := filterMap_eq_nil_iff.mp hnil e he
    rw [hcall] at this
    cases this
  · intro howns hnone
    have hsome := advance_prepared (f := .start) (.inr howns)
    rw [hnone] at hsome
    cases hsome

namespace RunFacts

variable {action : FirewallAction} {dryRun : Bool} {journal : Option RuleJournal}
  {r : AdapterRun} {f : Facts}

/-- A run that failed touched nothing. -/
theorem untouched (h : RunFacts action dryRun journal r f)
    (hfailed : r.outcome.completion = .failed) : ¬ r.Mutated ∧ ¬ r.Owns := by
  obtain ⟨happlies, hprepared, -, -⟩ := h.sound.failed hfailed
  exact ⟨fun hm => h.applies hm happlies, fun ho => h.prepared ho hprepared⟩

theorem untouched_dry (h : RunFacts action true journal r f) : ¬ r.Mutated ∧ ¬ r.Owns := by
  obtain ⟨happlies, hprepared, -⟩ := h.sound.dry rfl
  exact ⟨fun hm => h.applies hm happlies, fun ho => h.prepared ho hprepared⟩

theorem uncertain_iff (h : RunFacts action dryRun journal r f) :
    r.Uncertain ↔ r.outcome.completion = .recoveryRequired := by
  refine ⟨?_, .inl⟩
  rintro (hcompletion | ⟨id, heffect⟩)
  · exact hcompletion
  · exact h.sound.uncertain id heffect

/-- A live run that succeeded shows in its effect or in its receipts. -/
theorem shown_of_success (h : RunFacts action false journal r f)
    (hsuccess : r.outcome.completion = .success) :
    r.outcome.effect.isOwned = true ∨ ∃ receipt ∈ r.outcome.receipts, receipt.isDryRun = false := by
  obtain ⟨-, -, ⟨id, -, -, heffect, -⟩ | ⟨-, -, hreceipt⟩⟩ := h.sound.success hsuccess rfl
  · left
    rw [heffect]
    rfl
  · exact .inr hreceipt

end RunFacts

/-! ## The fold -/

theorem aggregate_isOwned (effect new : FirewallEffect) :
    (aggregate effect new).isOwned = (effect.isOwned || new.isOwned) := by
  cases effect <;> cases new <;> rfl

section

variable (s : MultiState) (runs : List AdapterRun)
include s runs

theorem foldRuns_uncertain :
    (foldRuns s runs).uncertain =
      (s.uncertain || runs.any fun r => r.outcome.completion == .recoveryRequired) := by
  induction runs generalizing s with
  | nil => simp [foldRuns]
  | cons r runs ih =>
    show (foldRuns (s.add r.kind r.outcome) runs).uncertain = _
    rw [ih]
    simp [MultiState.add, Bool.or_assoc]

theorem foldRuns_isOwned :
    (foldRuns s runs).aggregateEffect.isOwned =
      (s.aggregateEffect.isOwned || runs.any fun r => r.outcome.effect.isOwned) := by
  induction runs generalizing s with
  | nil => simp [foldRuns]
  | cons r runs ih =>
    show (foldRuns (s.add r.kind r.outcome) runs).aggregateEffect.isOwned = _
    rw [ih]
    simp [MultiState.add, aggregate_isOwned, Bool.or_assoc]

theorem foldRuns_receipts :
    (foldRuns s runs).receipts = s.receipts ++ runs.flatMap (·.outcome.receipts) := by
  induction runs generalizing s with
  | nil => simp [foldRuns]
  | cons r runs ih =>
    show (foldRuns (s.add r.kind r.outcome) runs).receipts = _
    rw [ih]
    simp [MultiState.add]

theorem foldRuns_seen :
    (foldRuns s runs).mandatorySeen =
      (s.mandatorySeen || runs.any fun r => r.kind == mandatoryMultiAdapter) := by
  induction runs generalizing s with
  | nil => simp [foldRuns]
  | cons r runs ih =>
    show (foldRuns (s.add r.kind r.outcome) runs).mandatorySeen = _
    rw [ih]
    simp [MultiState.add, Bool.or_assoc]

end

/-- Adapters other than the mandatory one leave its success as it is. -/
theorem foldRuns_success_of_not_mem (s : MultiState) {runs : List AdapterRun}
    (h : mandatoryMultiAdapter ∉ runs.map (·.kind)) :
    (foldRuns s runs).mandatorySuccess = s.mandatorySuccess := by
  induction runs generalizing s with
  | nil => rfl
  | cons r runs ih =>
    simp only [map_cons, mem_cons, not_or] at h
    show (foldRuns (s.add r.kind r.outcome) runs).mandatorySuccess = _
    rw [ih _ h.2]
    simp [MultiState.add, Ne.symm h.1]

/-- With each adapter once, the mandatory success is that of the mandatory adapter's run. -/
theorem foldRuns_success (s : MultiState) {runs : List AdapterRun}
    (hnodup : (runs.map (·.kind)).Nodup) {r : AdapterRun} (hr : r ∈ runs)
    (hkind : r.kind = mandatoryMultiAdapter) :
    (foldRuns s runs).mandatorySuccess = (r.outcome.completion == .success) := by
  induction runs generalizing s with
  | nil => cases hr
  | cons first runs ih =>
    rw [map_cons, nodup_cons] at hnodup
    show (foldRuns (s.add first.kind first.outcome) runs).mandatorySuccess = _
    rcases mem_cons.mp hr with rfl | hr
    · rw [foldRuns_success_of_not_mem _ (hkind ▸ hnodup.1)]
      simp [MultiState.add, hkind]
    · exact ih _ hnodup.2 hr

/-! ## The outcome -/

/-- The outcome of a fan-out over distinct adapters with nftables among them. -/
theorem multi_adapter_outcome {cfg : AdapterConfig} {action : FirewallAction} {dryRun : Bool}
    {journal : Option RuleJournal} {adapters : List AdapterKind}
    {h : List (Prog.Event ExecCall.Answer)} {o : GenericDispatchOutcome}
    (hnodup : adapters.Nodup) (hmandatory : mandatoryMultiAdapter ∈ adapters)
    (hexec : Prog.Exec (dispatchMultiWithAdapters cfg action dryRun adapters journal) h o)
    (hanswered : ∀ e ∈ h, Answered cfg e.call e.answer) :
    ∃ runs : List AdapterRun, runs.map (·.kind) = adapters ∧ h = runs.flatMap (·.history) ∧
      (∀ r ∈ runs,
        Prog.Exec (applySingleAdapter cfg r.kind action dryRun journal) r.history r.outcome) ∧
      (o.completion = .failed → ∀ r ∈ runs, ¬ r.Mutated ∧ ¬ r.Owns) ∧
      ((∃ r ∈ runs, r.Uncertain) ∨
          ((∃ r ∈ runs, r.Mutated ∨ r.Owns) ∧
            ¬ ∃ r ∈ runs, r.kind = mandatoryMultiAdapter ∧ r.outcome.completion = .success) →
        o.completion = .recoveryRequired) ∧
      (o.completion = .success ↔
        (∃ r ∈ runs, r.kind = mandatoryMultiAdapter ∧ r.outcome.completion = .success) ∧
          ∀ r ∈ runs, ¬ r.Uncertain) := by
  obtain ⟨runs, hkinds, rfl, hruns, rfl⟩ := exec_multiLoop hexec
  have hfacts : ∀ r ∈ runs, ∃ f, RunFacts action dryRun journal r f := fun r hr =>
    run_facts (hruns r hr) fun e he => hanswered e (mem_flatMap.mpr ⟨r, hr, he⟩)
  refine ⟨runs, hkinds, rfl, hruns, ?_⟩
  -- the three inputs of the final decision
  set s := foldRuns .start runs with hs
  have huncertain : s.uncertain = true ↔ ∃ r ∈ runs, r.Uncertain := by
    rw [hs, foldRuns_uncertain]
    simp only [MultiState.start, Bool.false_or, List.any_eq_true, beq_iff_eq]
    constructor
    · rintro ⟨r, hr, hc⟩
      exact ⟨r, hr, .inl hc⟩
    · rintro ⟨r, hr, hu⟩
      obtain ⟨f, hf⟩ := hfacts r hr
      exact ⟨r, hr, hf.uncertain_iff.mp hu⟩
  obtain ⟨nft, hnft, hnftKind⟩ := List.mem_map.mp (hkinds ▸ hmandatory)
  have hseen : s.mandatorySeen = true := by
    rw [hs, foldRuns_seen]
    simp only [MultiState.start, Bool.false_or, List.any_eq_true, beq_iff_eq]
    exact ⟨nft, hnft, hnftKind⟩
  have hsuccess : s.mandatorySuccess = true ↔
      ∃ r ∈ runs, r.kind = mandatoryMultiAdapter ∧ r.outcome.completion = .success := by
    constructor
    · intro hms
      rw [hs, foldRuns_success _ (hkinds ▸ hnodup) hnft hnftKind] at hms
      exact ⟨nft, hnft, hnftKind, by simpa using hms⟩
    · rintro ⟨r, hr, hkind, hc⟩
      rw [hs, foldRuns_success _ (hkinds ▸ hnodup) hr hkind, hc]
      rfl
  -- a live effect of a certain run shows in the receipts or in the aggregate
  have hpartial : s.uncertain = false → (∃ r ∈ runs, r.Mutated ∨ r.Owns) →
      (!dryRun && ((s.receipts.any fun receipt => !receipt.isDryRun) ||
        s.aggregateEffect.isOwned)) = true := by
    rintro hcertain ⟨r, hr, htouched⟩
    obtain ⟨f, hf⟩ := hfacts r hr
    cases dryRun with
    | true => exact absurd htouched (not_or.mpr hf.untouched_dry)
    | false =>
      have hsucceeded : r.outcome.completion = .success := by
        cases hc : r.outcome.completion with
        | success => rfl
        | failed => exact absurd htouched (not_or.mpr (hf.untouched hc))
        | recoveryRequired =>
          have := huncertain.mpr ⟨r, hr, .inl hc⟩
          rw [hcertain] at this
          cases this
      rcases hf.shown_of_success hsucceeded with howned | ⟨receipt, hmem, hlive⟩
      · have : s.aggregateEffect.isOwned = true := by
          rw [hs, foldRuns_isOwned, Bool.or_eq_true, List.any_eq_true]
          exact .inr ⟨r, hr, howned⟩
        simp [this]
      · have : (s.receipts.any fun receipt => !receipt.isDryRun) = true := by
          rw [hs, foldRuns_receipts, List.any_eq_true]
          exact ⟨receipt, mem_append_right _ (mem_flatMap.mpr ⟨r, hr, hmem⟩),
            by simp [hlive]⟩
        simp [this]
  have hcompletion : (s.outcome dryRun).completion =
      if s.uncertain then .recoveryRequired
      else if s.mandatorySuccess then .success
      else if !dryRun && ((s.receipts.any fun receipt => !receipt.isDryRun) ||
          s.aggregateEffect.isOwned) then .recoveryRequired
      else .failed := by
    simp [MultiState.outcome, hseen]
  refine ⟨?_, ?_, ?_⟩
  · intro hfailed r hr
    rw [hcompletion] at hfailed
    cases hu : s.uncertain with
    | true => simp [hu] at hfailed
    | false =>
      by_contra htouched
      have hp := hpartial hu ⟨r, hr, by tauto⟩
      rw [hu, hp] at hfailed
      cases hm : s.mandatorySuccess <;> simp [hm] at hfailed
  · rintro (hu | ⟨htouched, hmissed⟩)
    · rw [hcompletion, huncertain.mpr hu]
      rfl
    · rw [hcompletion]
      cases hu : s.uncertain with
      | true => rfl
      | false =>
        have hms : s.mandatorySuccess = false := by
          cases hms : s.mandatorySuccess with
          | false => rfl
          | true => exact absurd (hsuccess.mp hms) hmissed
        rw [hms, hpartial hu htouched]
        rfl
  · rw [hcompletion, ← hsuccess]
    constructor
    · intro hsucc
      cases hu : s.uncertain with
      | true => simp [hu] at hsucc
      | false =>
        cases hms : s.mandatorySuccess with
        | false =>
          rw [hu, hms] at hsucc
          revert hsucc
          simp only [Bool.false_eq_true, if_false]
          split <;> intro h <;> cases h
        | true =>
          refine ⟨rfl, fun r hr hur => ?_⟩
          have := huncertain.mpr ⟨r, hr, hur⟩
          rw [hu] at this
          cases this
    · rintro ⟨hms, hcertain⟩
      have hu : s.uncertain = false := by
        cases hu : s.uncertain with
        | false => rfl
        | true =>
          obtain ⟨r, hr, hur⟩ := huncertain.mp hu
          exact absurd hur (hcertain r hr)
      rw [hu, hms]
      rfl

/-- A fan-out whose nftables is refused and whose HAProxy blocks. -/
def sampleFanOut : Dispatch :=
  dispatchMultiWithAdapters sampleConfig sampleAction false [.nftables, .haproxy]
    (some ⟨7, "firewall.block"⟩)

def sampleRun : List (Prog.Event ExecCall.Answer) × GenericDispatchOutcome :=
  sampleFanOut.play (hosted sampleConfig (sampleHost false) (sampleHost true))

/-- HAProxy alone blocks: the outcome is neither a failure nor a success. -/
theorem multi_adapter_outcome_partial :
    sampleRun.2.completion = .recoveryRequired ∧ sampleRun.2.effect = .verifiedOwned 1 ∧
      ∃ runs : List AdapterRun, runs.map (·.kind) = [.nftables, .haproxy] ∧
        ¬ ((∃ r ∈ runs, r.kind = mandatoryMultiAdapter ∧ r.outcome.completion = .success) ∧
          ∀ r ∈ runs, ¬ r.Uncertain) := by
  have hrun : sampleRun.2.completion = .recoveryRequired := by decide
  have hexec : Prog.Exec sampleFanOut sampleRun.1 sampleRun.2 := Prog.exec_play _ _
  obtain ⟨runs, hkinds, -, -, -, -, hsuccess⟩ := multi_adapter_outcome (by decide) (by decide)
    hexec (answered_hosted _ _ _ _)
  refine ⟨hrun, by decide, runs, hkinds, fun hall => ?_⟩
  have hcompletion := hsuccess.mpr hall
  rw [hrun] at hcompletion
  cases hcompletion

end Clawforge.Executor

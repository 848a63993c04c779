import Clawforge.Theorems.MultiAdapter

/-!
# The configured adapters of the fan-out

`configured_multi_adapters` keeps the known names, puts nftables first if it is missing and
removes repeated neighbours. Each adapter is then listed once, and applied at most once by one
fan-out, exactly when no name comes back after another one.
-/

namespace Clawforge.Executor

open Clawforge.Firewall Clawforge.RuleIntents Clawforge.Text Kit List

/-! ## Removing repeated neighbours -/

section Destutter

variable {α : Type}

/-- Nothing comes back after something else. -/
def NoReturn (l : List α) : Prop := ∀ x y, [x, y, x].Sublist l → x = y

theorem noReturn_cons_self (a : α) (l : List α) : NoReturn (a :: a :: l) ↔ NoReturn (a :: l) := by
  refine ⟨fun h x y hs => h x y (hs.cons a), fun h x y hs => ?_⟩
  rcases sublist_cons_iff.mp hs with hs | ⟨r, hr, hs⟩
  · exact h x y hs
  · obtain ⟨rfl, rfl⟩ := cons.inj hr
    rcases sublist_cons_iff.mp hs with hs | ⟨r', hr', -⟩
    · exact h x y (hs.cons_cons x)
    · exact (cons.inj hr').1.symm

theorem noReturn_cons_of_ne {a b : α} (hab : a ≠ b) (l : List α) :
    NoReturn (a :: b :: l) ↔ a ∉ b :: l ∧ NoReturn (b :: l) := by
  constructor
  · refine fun h => ⟨fun hmem => ?_, fun x y hs => h x y (hs.cons a)⟩
    rcases mem_cons.mp hmem with rfl | hmem
    · exact hab rfl
    · exact hab (h a b (((singleton_sublist.mpr hmem).cons_cons b).cons_cons a))
  · rintro ⟨hnot, h⟩ x y hs
    rcases sublist_cons_iff.mp hs with hs | ⟨r, hr, hs⟩
    · exact h x y hs
    · obtain ⟨rfl, rfl⟩ := cons.inj hr
      exact (hnot (hs.subset (by simp))).elim

variable [DecidableEq α]

theorem mem_destutter' (x a : α) (l : List α) :
    x ∈ l.destutter' (· ≠ ·) a ↔ x ∈ a :: l := by
  induction l generalizing a with
  | nil => rw [destutter'_nil]
  | cons b l ih =>
    by_cases hab : a = b
    · subst hab
      rw [destutter'_cons_neg _ (not_not.mpr rfl), ih]
      simp
    · rw [destutter'_cons_pos _ hab, mem_cons, ih]
      exact mem_cons.symm

theorem mem_destutter (x : α) (l : List α) : x ∈ l.destutter (· ≠ ·) ↔ x ∈ l := by
  cases l with
  | nil => rfl
  | cons a l => rw [destutter_cons', mem_destutter']

/-- Removing repeated neighbours leaves each element once exactly when none comes back. -/
theorem nodup_destutter_iff (l : List α) : (l.destutter (· ≠ ·)).Nodup ↔ NoReturn l := by
  have hfrom : ∀ (l : List α) (a : α),
      (l.destutter' (· ≠ ·) a).Nodup ↔ NoReturn (a :: l) := by
    intro l
    induction l with
    | nil =>
      intro a
      rw [destutter'_nil]
      refine ⟨fun _ x y hs => ?_, fun _ => nodup_singleton a⟩
      have := hs.length_le
      simp at this
    | cons b l ih =>
      intro a
      by_cases hab : a = b
      · subst hab
        rw [destutter'_cons_neg _ (not_not.mpr rfl), ih, noReturn_cons_self]
      · rw [destutter'_cons_pos _ hab, nodup_cons, mem_destutter', ih,
          noReturn_cons_of_ne hab]
  cases l with
  | nil => exact ⟨fun _ x y hs => (nomatch hs), fun _ => nodup_nil⟩
  | cons a l => exact hfrom l a

end Destutter

/-! ## The configured list -/

/-- The known names of the configuration, in order. -/
def recognisedAdapters (raw : String) : List AdapterKind :=
  ((trimmedPieces ',' raw.toList).map String.ofList).filterMap multiAdapterNamed

/-- Each adapter is listed once, nftables is listed, only known adapters are, and a fan-out over
the list calls each adapter for at most one live apply. -/
structure EachAdapterOnce (raw : String) : Prop where
  nodup : (configuredMultiAdapters raw).Nodup
  mandatory : mandatoryMultiAdapter ∈ configuredMultiAdapters raw
  known : ∀ kind ∈ configuredMultiAdapters raw, multiAdapterNamed kind.name = some kind
  appliedOnce : ∀ cfg action dryRun journal (h : List (Prog.Event ExecCall.Answer)) o,
    Prog.Exec (dispatchMultiWithAdapters cfg action dryRun (configuredMultiAdapters raw) journal)
      h o →
    (∀ e ∈ h, Answered cfg e.call e.answer) → ((liveApplies h).map Prod.fst).Nodup

theorem multiAdapterNamed_name {name : String} {kind : AdapterKind}
    (h : multiAdapterNamed name = some kind) : kind.name = name := by
  unfold multiAdapterNamed at h
  split at h
  · next hname =>
    cases h
    exact hname.symm
  split at h
  · next hname =>
    cases h
    exact hname.symm
  split at h
  · next hname =>
    cases h
    exact hname.symm
  · cases h

theorem mem_configuredMultiAdapters {raw : String} {kind : AdapterKind} :
    kind ∈ configuredMultiAdapters raw ↔
      kind = mandatoryMultiAdapter ∨ kind ∈ recognisedAdapters raw := by
  show kind ∈ List.destutter _ (if mandatoryMultiAdapter ∈ recognisedAdapters raw then
    recognisedAdapters raw else mandatoryMultiAdapter :: recognisedAdapters raw) ↔ _
  rw [mem_destutter]
  by_cases hmem : mandatoryMultiAdapter ∈ recognisedAdapters raw
  · rw [if_pos hmem]
    refine ⟨.inr, ?_⟩
    rintro (rfl | h)
    · exact hmem
    · exact h
  · rw [if_neg hmem, mem_cons]

theorem known_configuredMultiAdapters {raw : String} {kind : AdapterKind}
    (h : kind ∈ configuredMultiAdapters raw) : multiAdapterNamed kind.name = some kind := by
  rcases mem_configuredMultiAdapters.mp h with rfl | h
  · rfl
  · obtain ⟨name, -, hname⟩ := mem_filterMap.mp h
    rw [multiAdapterNamed_name hname, hname]

theorem nodup_configuredMultiAdapters_iff (raw : String) :
    (configuredMultiAdapters raw).Nodup ↔ NoReturn (recognisedAdapters raw) := by
  show (List.destutter _ (if mandatoryMultiAdapter ∈ recognisedAdapters raw then
    recognisedAdapters raw else mandatoryMultiAdapter :: recognisedAdapters raw)).Nodup ↔ _
  rw [nodup_destutter_iff]
  by_cases hmem : mandatoryMultiAdapter ∈ recognisedAdapters raw
  · rw [if_pos hmem]
  · rw [if_neg hmem]
    refine ⟨fun h x y hs => h x y (hs.cons _), fun h x y hs => ?_⟩
    rcases sublist_cons_iff.mp hs with hs | ⟨r, hr, hs⟩
    · exact h x y hs
    · -- the inserted nftables does not come back
      obtain ⟨rfl, rfl⟩ := cons.inj hr
      exact (hmem (hs.subset (by simp))).elim

/-! ## The applies of a fan-out -/

/-- One adapter's run has at most the one live apply of that adapter. -/
theorem liveApplies_run {cfg : AdapterConfig} {action : FirewallAction} {dryRun : Bool}
    {journal : Option RuleJournal} {r : AdapterRun}
    (hexec : Prog.Exec (applySingleAdapter cfg r.kind action dryRun journal) r.history r.outcome)
    (hanswered : ∀ e ∈ r.history, Answered cfg e.call e.answer) :
    liveApplies r.history = [] ∨ liveApplies r.history = [(r.kind, action)] := by
  have hsound := Prog.Guided.exec applySingleAdapter_sound hexec hanswered
  have happlies : (Prog.advance Facts.observe .start r.history).applies = liveApplies r.history :=
    advance_applies _ _
  cases hc : r.outcome.completion with
  | failed => exact .inl (happlies ▸ (hsound.failed hc).1)
  | recoveryRequired => exact .inr (happlies ▸ (hsound.recovery hc).2)
  | success =>
    cases dryRun with
    | true => exact .inl (happlies ▸ (hsound.dry rfl).1)
    | false => exact .inr (happlies ▸ (hsound.success hc rfl).1)

theorem liveApplies_sublist (action : FirewallAction) {runs : List AdapterRun}
    (h : ∀ r ∈ runs, liveApplies r.history = [] ∨ liveApplies r.history = [(r.kind, action)]) :
    ((liveApplies (runs.flatMap (·.history))).map Prod.fst).Sublist (runs.map (·.kind)) := by
  induction runs with
  | nil => exact Sublist.refl _
  | cons r runs ih =>
    have hrest := ih fun x hx => h x (mem_cons_of_mem _ hx)
    rw [flatMap_cons, liveApplies, filterMap_append, map_append, map_cons]
    show ((liveApplies r.history).map Prod.fst ++
      (liveApplies (runs.flatMap (·.history))).map Prod.fst).Sublist _
    rcases h r mem_cons_self with hr | hr
    · rw [hr]
      exact hrest.cons _
    · rw [hr]
      exact hrest.cons_cons _

/-- The configured list holds each adapter once exactly when no recognised name comes back after
another one. -/
theorem each_adapter_once_iff (raw : String) :
    EachAdapterOnce raw ↔ NoReturn (recognisedAdapters raw) := by
  rw [← nodup_configuredMultiAdapters_iff]
  refine ⟨fun h => h.nodup, fun hnodup => ⟨hnodup, mem_configuredMultiAdapters.mpr (.inl rfl),
    fun _ => known_configuredMultiAdapters, ?_⟩⟩
  intro cfg action dryRun journal h o hexec hanswered
  obtain ⟨runs, hkinds, rfl, hruns, -⟩ := exec_multiLoop hexec
  refine Nodup.sublist (liveApplies_sublist action fun r hr => ?_) (hkinds ▸ hnodup)
  exact liveApplies_run (hruns r hr) fun e he =>
    hanswered e (mem_flatMap.mpr ⟨r, hr, he⟩)

/-- A name repeated after another one stays in the list. -/
theorem repeated_adapter_kept : ¬ EachAdapterOnce "nftables,haproxy,nftables" := by
  intro h
  have hnodup := h.nodup
  revert hnodup
  decide

end Clawforge.Executor

import Mathlib.Logic.Relation
import Mathlib.Data.List.Basic

/-!
# Labelled transition systems

The runs every state-machine result of the development is stated over. A
system is an initial condition and a labelled step relation; a run is a list
of labels with the states it passes. The kit proves once what each proof about
a concrete system needs:

* an inductive predicate holds of every reachable state (`Inductive.invariant`);
* a reflexive, transitive two-state relation that every step respects relates
  the ends of every run (`Run.relates`) — the rule behind "this column never
  changes" and "this status only moves forward";
* a system cut down to the steps that meet a condition (`restrict`) has runs of
  the full system, so invariants transport to it.
-/

namespace Kit

open List

universe u v

/-- A labelled transition system. -/
structure TSys (σ : Type u) (l : Type v) where
  init : σ → Prop
  step : σ → l → σ → Prop

namespace TSys

variable {σ : Type u} {l : Type v} {M : TSys σ l} {I P : σ → Prop} {C : σ → l → Prop}

/-- `Run M s ls t`: performing the labels `ls` in order leads from `s` to `t`. -/
inductive Run (M : TSys σ l) : σ → List l → σ → Prop
  | nil (s) : Run M s [] s
  | cons {s a t ls r} : M.step s a t → Run M t ls r → Run M s (a :: ls) r

/-- `s` is the end of a run from some initial state. -/
def Reachable (M : TSys σ l) (s : σ) : Prop :=
  ∃ s₀ ls, M.init s₀ ∧ Run M s₀ ls s

/-- `I` holds of every reachable state. -/
def Invariant (M : TSys σ l) (I : σ → Prop) : Prop :=
  ∀ s, M.Reachable s → I s

/-- `I` holds initially and every step from a state with `I` keeps it. -/
structure Inductive (M : TSys σ l) (I : σ → Prop) : Prop where
  init : ∀ s, M.init s → I s
  step : ∀ s a t, I s → M.step s a t → I t

/-! ## Runs -/

theorem Run.single {s a t} (h : M.step s a t) : M.Run s [a] t :=
  .cons h (.nil t)

theorem Run.append {s ls t ls' r} (h : M.Run s ls t) (h' : M.Run t ls' r) :
    M.Run s (ls ++ ls') r := by
  induction h with
  | nil _ => exact h'
  | cons hstep _ ih => exact .cons hstep (ih h')

theorem Run.of_append {s ls ls' r} (h : M.Run s (ls ++ ls') r) :
    ∃ t, M.Run s ls t ∧ M.Run t ls' r := by
  induction ls generalizing s with
  | nil => exact ⟨s, .nil s, h⟩
  | cons a ls ih =>
    cases h with
    | cons hstep hrest =>
      obtain ⟨t, hfirst, hlast⟩ := ih hrest
      exact ⟨t, .cons hstep hfirst, hlast⟩

/-- A predicate every step keeps is kept by every run. -/
theorem Run.preserves (hI : ∀ s a t, I s → M.step s a t → I t) {s ls t} (h : M.Run s ls t)
    (hs : I s) : I t := by
  induction h with
  | nil _ => exact hs
  | cons hstep _ ih => exact ih (hI _ _ _ hs hstep)

/-- A preorder on states that every step from an `I`-state respects relates the
two ends of every run from an `I`-state. -/
theorem Run.relates {R : σ → σ → Prop} (refl : ∀ s, R s s) (trans : ∀ s t r, R s t → R t r → R s r)
    (hI : ∀ s a t, I s → M.step s a t → I t) (hR : ∀ s a t, I s → M.step s a t → R s t) {s ls t}
    (h : M.Run s ls t) (hs : I s) : R s t := by
  induction h with
  | nil s => exact refl s
  | cons hstep _ ih =>
    exact trans _ _ _ (hR _ _ _ hs hstep) (ih (hI _ _ _ hs hstep))

/-- The labels of a run that `f` does not see are left out: what is left is a run between the
images of its ends. -/
theorem Run.erase (f : σ → σ) {keep : l → Bool} {s ls t} (h : M.Run s ls t)
    (hkeep : ∀ s a t, M.step s a t → a ∈ ls → keep a = true → M.step (f s) a (f t))
    (hdrop : ∀ s a t, M.step s a t → a ∈ ls → keep a = false → f t = f s) :
    M.Run (f s) (ls.filter keep) (f t) := by
  induction h with
  | nil s => exact .nil (f s)
  | @cons s a u ls t hstep _ ih =>
    have hrest := ih (fun s b t hst hb => hkeep s b t hst (mem_cons_of_mem a hb))
      fun s b t hst hb => hdrop s b t hst (mem_cons_of_mem a hb)
    cases ha : keep a with
    | true =>
      rw [filter_cons_of_pos ha]
      exact .cons (hkeep s a u hstep mem_cons_self ha) hrest
    | false =>
      rw [filter_cons_of_neg (by rw [ha]; exact Bool.false_ne_true)]
      exact hdrop s a u hstep mem_cons_self ha ▸ hrest

/-- Where `P` holds at the end of a run and not at its start, some step made it so. -/
theorem Run.crossing {s ls t} (h : M.Run s ls t) (hs : ¬ P s) (ht : P t) :
    ∃ ls₁ u a u' ls₂, M.Run s ls₁ u ∧ M.step u a u' ∧ M.Run u' ls₂ t ∧ ¬ P u ∧ P u' := by
  induction h with
  | nil _ => exact absurd ht hs
  | @cons s a u ls r hstep hrest ih =>
    by_cases hu : P u
    · exact ⟨[], s, a, u, ls, .nil s, hstep, hrest, hs, hu⟩
    · obtain ⟨ls₁, v, b, v', ls₂, hfirst, hmid, hlast, hv, hv'⟩ := ih hu ht
      exact ⟨a :: ls₁, v, b, v', ls₂, .cons hstep hfirst, hmid, hlast, hv, hv'⟩

/-! ## Reachable states and invariants -/

theorem Reachable.init {s} (h : M.init s) : M.Reachable s :=
  ⟨s, [], h, .nil s⟩

theorem Reachable.run {s ls t} (hs : M.Reachable s) (h : M.Run s ls t) :
    M.Reachable t := by
  obtain ⟨s₀, ls₀, h0, hrun⟩ := hs
  exact ⟨s₀, ls₀ ++ ls, h0, hrun.append h⟩

theorem Reachable.step {s a t} (hs : M.Reachable s) (h : M.step s a t) :
    M.Reachable t :=
  hs.run (.single h)

theorem Inductive.invariant (h : M.Inductive I) : M.Invariant I := by
  rintro s ⟨s₀, ls, h0, hrun⟩
  exact hrun.preserves h.step (h.init s₀ h0)

/-- An inductive predicate may use an invariant already proved. -/
theorem Invariant.strengthen {J : σ → Prop} (hI : M.Invariant I) (init : ∀ s, M.init s → J s)
    (step : ∀ s a t, M.Reachable s → I s → J s → M.step s a t → J t) : M.Invariant J := by
  have both : M.Inductive (fun s => M.Reachable s ∧ J s) :=
    { init := fun s h => ⟨.init h, init s h⟩
      step := fun s a t hs hstep =>
        ⟨hs.1.step hstep, step s a t hs.1 (hI s hs.1) hs.2 hstep⟩ }
  exact fun s hs => (both.invariant s hs).2

/-! ## Restricting the steps -/

/-- The system that performs a step only where `C` admits it. -/
def restrict (M : TSys σ l) (C : σ → l → Prop) : TSys σ l where
  init := M.init
  step s a t := C s a ∧ M.step s a t

theorem Run.of_restrict {s ls t} (h : (M.restrict C).Run s ls t) : M.Run s ls t := by
  induction h with
  | nil s => exact .nil s
  | cons hstep _ ih => exact .cons hstep.2 ih

theorem Reachable.of_restrict {s} (h : (M.restrict C).Reachable s) : M.Reachable s := by
  obtain ⟨s₀, ls, h0, hrun⟩ := h
  exact ⟨s₀, ls, h0, hrun.of_restrict⟩

theorem Invariant.of_restrict (h : M.Invariant I) : (M.restrict C).Invariant I :=
  fun s hs => h s hs.of_restrict

/-! ## What holds all along a run -/

/-- Every state that the labels `ls` lead through from `s`, both ends included,
satisfies `P`. -/
def Along (M : TSys σ l) (P : σ → Prop) (s : σ) (ls : List l) : Prop :=
  ∀ ls₁ t, ls₁ <+: ls → M.Run s ls₁ t → P t

/-- A label leads from a state to at most one state. -/
def Deterministic (M : TSys σ l) : Prop :=
  ∀ s a t t', M.step s a t → M.step s a t' → t = t'

theorem Along.head {s ls} (h : M.Along P s ls) : P s :=
  h [] s nil_prefix (.nil s)

theorem Along.tail {s a t ls} (h : M.Along P s (a :: ls)) (hstep : M.step s a t) : M.Along P t ls :=
  fun ls₁ r hpre hrun =>
    h (a :: ls₁) r ((prefix_cons_inj a).2 hpre) (.cons hstep hrun)

theorem Along.cons {s a t ls} (hdet : M.Deterministic) (hs : P s) (hstep : M.step s a t)
    (h : M.Along P t ls) : M.Along P s (a :: ls) := by
  intro ls₁ r hpre hrun
  cases hrun with
  | nil _ => exact hs
  | cons hstep' hrest =>
    rcases cons_prefix_cons.1 hpre with ⟨rfl, hpre'⟩
    rw [hdet _ _ _ _ hstep' hstep] at hrest
    exact h _ _ hpre' hrest

/-- Where a step keeps `P` exactly when it meets `C`, a run satisfies `P` all
along exactly when all its steps meet `C`. -/
theorem Run.along_iff_restrict (hdet : M.Deterministic)
    (hstep : ∀ s a t, M.Reachable s → P s → M.step s a t → (P t ↔ C s a)) {s ls r}
    (hrun : M.Run s ls r) (hs : M.Reachable s) (hP : P s) :
    M.Along P s ls ↔ (M.restrict C).Run s ls r := by
  induction hrun with
  | nil s =>
    refine ⟨fun _ => .nil s, fun _ => ?_⟩
    intro ls₁ t hpre hrun
    rw [prefix_nil.1 hpre] at hrun
    cases hrun
    exact hP
  | @cons s a t ls r hst hrest ih =>
    refine ⟨fun h => ?_, fun h => ?_⟩
    · have ht : P t := (h.tail hst).head
      have hC : C s a := (hstep s a t hs hP hst).1 ht
      exact .cons ⟨hC, hst⟩ ((ih (hs.step hst) ht).1 (h.tail hst))
    · cases h with
      | cons hst' hrest' =>
        have ht : P t := (hstep s a t hs hP hst).2 hst'.1
        rw [hdet _ _ _ _ hst'.2 hst] at hrest'
        exact .cons hdet hP hst ((ih (hs.step hst) ht).2 hrest')

/-! ## Systems given by a partial function -/

section Exec

variable (init : σ → Prop) (exec : σ → l → Option σ)

/-- The system whose step performs an executable function. -/
def ofExec : TSys σ l where
  init := init
  step s a t := exec s a = some t

/-- Performs labels in order; `none` once one is refused. -/
def execAll : σ → List l → Option σ
  | s, [] => some s
  | s, a :: ls => (exec s a).bind (fun t => execAll t ls)

theorem deterministic_ofExec : (ofExec init exec).Deterministic := by
  intro s a t t' h h'
  exact Option.some.inj (h.symm.trans h')

theorem run_of_execAll {s ls t} (h : execAll exec s ls = some t) :
    (ofExec init exec).Run s ls t := by
  induction ls generalizing s with
  | nil =>
    cases h
    exact .nil _
  | cons a ls ih =>
    obtain ⟨u, hu, hrest⟩ := Option.bind_eq_some_iff.1 h
    exact .cons hu (ih hrest)

/-- A run of the restricted system: each label is performed where `C` admits it. -/
theorem run_restrict_of_execAll {C : σ → l → Prop} [∀ s a, Decidable (C s a)] {s ls t}
    (h : execAll (fun s a => if C s a then exec s a else none) s ls = some t) :
    ((ofExec init exec).restrict C).Run s ls t := by
  induction ls generalizing s with
  | nil =>
    cases h
    exact .nil _
  | cons a ls ih =>
    obtain ⟨u, hu, hrest⟩ := Option.bind_eq_some_iff.1 h
    dsimp only at hu
    by_cases hC : C s a
    · rw [if_pos hC] at hu
      exact .cons ⟨hC, hu⟩ (ih hrest)
    · rw [if_neg hC] at hu
      cases hu

end Exec

end TSys

end Kit

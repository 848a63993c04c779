import Mathlib.Data.List.Basic

/-!
# Fixed windows

Admission by fixed windows: the first call opens a window, a call finds room while the window
has admitted fewer than the limit, and the first call after the window's width opens the next.
What the window of a history of calls is says what its calls and their answers were, nothing
else.
-/

namespace Kit

/-- A window: when it opened and what it has admitted. -/
structure Window where
  started : Nat
  count : Nat
deriving DecidableEq, Repr

/-- A call and its answer. -/
structure Call where
  time : Nat
  allowed : Bool
deriving DecidableEq, Repr

/-- The window a call at `now` falls into. -/
def Window.current (width now : Nat) : Option Window → Window
  | some v => if width ≤ now - v.started then ⟨now, 0⟩ else v
  | none => ⟨now, 0⟩

def Window.answered (v : Window) (allowed : Bool) : Window :=
  if allowed then { v with count := v.count + 1 } else v

/-- The window the calls of a history, newest first, have left open. -/
def windowOf (width : Nat) : List Call → Option Window
  | [] => none
  | c :: rest => some ((Window.current width c.time (windowOf width rest)).answered c.allowed)

/-- Every call was answered by whether its window had room. -/
def Answered (limit width : Nat) : List Call → Prop
  | [] => True
  | c :: rest =>
    (c.allowed = true ↔ (Window.current width c.time (windowOf width rest)).count < limit) ∧
      Answered limit width rest

theorem Window.current_count_le {width now limit : Nat} {v : Option Window}
    (h : ∀ x ∈ v, x.count ≤ limit) : (Window.current width now v).count ≤ limit := by
  cases v with
  | none => exact Nat.zero_le _
  | some x =>
    by_cases helapsed : width ≤ now - x.started
    · show (if _ then _ else _ : Window).count ≤ limit
      rw [if_pos helapsed]
      exact Nat.zero_le _
    · show (if _ then _ else _ : Window).count ≤ limit
      rw [if_neg helapsed]
      exact h x rfl

@[simp] theorem Window.answered_started (v : Window) (allowed : Bool) :
    (v.answered allowed).started = v.started := by
  cases allowed with
  | true => rfl
  | false => rfl

/-- A window that has not elapsed is the one a call falls into. -/
theorem Window.current_of_live {width now : Nat} {v : Window} (h : now - v.started < width) :
    Window.current width now (some v) = v := by
  show (if _ then _ else _ : Window) = v
  rw [if_neg (Nat.not_le.2 h)]

theorem Window.current_of_elapsed {width now : Nat} {v : Window} (h : width ≤ now - v.started) :
    Window.current width now (some v) = ⟨now, 0⟩ := by
  show (if _ then _ else _ : Window) = _
  rw [if_pos h]

/-- A history answered by room never admits more than the limit into one window. -/
theorem Answered.count_le {limit width : Nat} {calls : List Call}
    (h : Answered limit width calls) : ∀ v ∈ windowOf width calls, v.count ≤ limit := by
  induction calls with
  | nil => exact fun v hv => nomatch hv
  | cons c rest ih =>
    intro v hv
    cases hv
    have hcurrent : (Window.current width c.time (windowOf width rest)).count ≤ limit :=
      Window.current_count_le (ih h.2)
    cases hallowed : c.allowed with
    | true => exact h.1.1 hallowed
    | false => exact hcurrent

/-- The call lets no more through than the other one at its time. -/
def Call.Within (c d : Call) : Prop := c.time = d.time ∧ (c.allowed = true → d.allowed = true)

/-- Calls at the same times fall into the same windows. -/
theorem windowOf_within {width : Nat} {calls others : List Call}
    (h : List.Forall₂ Call.Within calls others) : ∀ v ∈ windowOf width calls,
      ∃ u ∈ windowOf width others, v.started = u.started ∧ v.count ≤ u.count := by
  induction h with
  | nil => exact fun _ hv => nomatch hv
  | @cons c d rest others' hcall hrest ih =>
    intro v hv
    cases hv
    refine ⟨_, rfl, ?_⟩
    have hcurrent : (Window.current width c.time (windowOf width rest)).started =
          (Window.current width d.time (windowOf width others')).started ∧
        (Window.current width c.time (windowOf width rest)).count ≤
          (Window.current width d.time (windowOf width others')).count := by
      rw [hcall.1]
      cases hv : windowOf width rest with
      | none =>
        cases hrest with
        | nil => exact ⟨rfl, Nat.le_refl _⟩
        | cons _ _ => cases hv
      | some v =>
        obtain ⟨u, hu, hstarted, hcount⟩ := ih v hv
        rw [hu]
        by_cases helapsed : width ≤ d.time - v.started
        · rw [Window.current_of_elapsed helapsed,
            Window.current_of_elapsed (by rw [← hstarted]; exact helapsed)]
          exact ⟨rfl, Nat.le_refl _⟩
        · rw [Window.current_of_live (Nat.lt_of_not_le helapsed),
            Window.current_of_live (by rw [← hstarted]; exact Nat.lt_of_not_le helapsed)]
          exact ⟨hstarted, hcount⟩
    rw [Window.answered_started, Window.answered_started]
    refine ⟨hcurrent.1, ?_⟩
    cases hc : c.allowed with
    | true =>
      rw [hcall.2 hc]
      exact Nat.succ_le_succ hcurrent.2
    | false =>
      cases d.allowed with
      | true => exact Nat.le_succ_of_le hcurrent.2
      | false => exact hcurrent.2

end Kit

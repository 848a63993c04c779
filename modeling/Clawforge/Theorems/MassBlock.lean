import Clawforge.Executor.MassBlock
import Clawforge.Kit.SlidingWindow

/-!
# What the mass-block budget bounds

The check refuses a dispatch once the count has reached the maximum, so a mutation is within the
budget if its dispatch has counted all the others of the window. The count sees neither a mutation
without a receipt, nor one made after it was read, the other adapters of a fan-out included.
-/

namespace Clawforge.MassBlock

open Kit TSys List Option

variable {cfg : Settings} {w w' : World} {d : Dispatch}

/-! ## The property -/

/-- The window, in the unit of the stamps. -/
def windowOf (cfg : Settings) : Int := rateWindowSeconds cfg * 1000000

/-- When the mutations took effect, in that order. -/
def times (w : World) : List Int := w.applied.map (fun a => (a.time : Int))

/-- No window contains more real applies than the maximum. -/
def WithinBudget (cfg : Settings) (w : World) : Prop :=
  ∀ x : Int,
    (((times w).filter (fun t => x ≤ t && t < x + windowOf cfg)).length : Int) ≤
        maxAppliesPerWindow cfg ∧
    (((times w).filter (fun t => x < t && t ≤ x + windowOf cfg)).length : Int) ≤
        maxAppliesPerWindow cfg

/-- What takes effect was counted with everything else of the window: what the count of its
dispatch has missed is over. -/
def NoneMissed (cfg : Settings) (w : World) : Action → Prop
  | .land i _ => ∀ d ∈ w.dispatches[i]?, ∀ t ∈ d.missed, (t : Int) ≤ w.now - windowOf cfg
  | _ => True

instance (cfg : Settings) (w : World) : ∀ a, Decidable (NoneMissed cfg w a)
  | .land i k => decidable_of_iff (∀ d ∈ (w.dispatches[i]?).toList, ∀ t ∈ d.missed,
      (t : Int) ≤ w.now - windowOf cfg) (by simp [NoneMissed])
  | .tick _ | .claim .. | .budget _ | .stop _ | .issue .. | .record .. | .receipt _ =>
    isTrue trivial

/-! ## The invariant -/

theorem maxAppliesPerWindow_pos (cfg : Settings) : 0 < maxAppliesPerWindow cfg := by
  unfold maxAppliesPerWindow
  cases h : cfg.maxAppliesPerWindow with
  | none => decide
  | some v =>
    by_cases hv : 0 < v
    · rw [filter_some, if_pos (decide_eq_true hv)]
      exact hv
    · rw [filter_some, if_neg (by simpa using hv)]
      decide

/-- Real applies stamped after `x`. -/
def receiptsSince (x : Int) (receipts : List Receipt) : Nat :=
  receipts.countP (fun r => r.isRealApply && decide (x < (r.createdAt : Int)))

/-- Mutations after `x`. -/
def appliedSince (x : Int) (applied : List Applied) : Nat :=
  applied.countP (fun a => decide (x < (a.time : Int)))

/-- Mutations after `x` that have a receipt. -/
def recordedSince (x : Int) (applied : List Applied) : Nat :=
  applied.countP (fun a => a.recorded && decide (x < (a.time : Int)))

def missedSince (x : Int) (missed : List Instant) : Nat :=
  missed.countP (fun (t : Instant) => decide (x < (t : Int)))

/-- The count of the dispatch was below the maximum, and no window that is not over has more
mutations than it counted and missed. -/
structure Counted (cfg : Settings) (w : World) (d : Dispatch) : Prop where
  room : (d.count : Int) < maxAppliesPerWindow cfg
  seen : ∀ x : Int, (w.now : Int) - windowOf cfg ≤ x →
    appliedSince x w.applied ≤ d.count + missedSince x d.missed

structure Sound (cfg : Settings) (w : World) : Prop where
  recorded : ∀ x, recordedSince x w.applied ≤ receiptsSince x w.receipts
  counted : ∀ d ∈ w.dispatches, d.applies ≠ [] → Counted cfg w d

theorem appliedSince_split (x : Int) (applied : List Applied) :
    appliedSince x applied = recordedSince x applied +
      missedSince x ((applied.filter (fun a => !a.recorded)).map Applied.time) := by
  induction applied with
  | nil => rfl
  | cons a rest ih =>
    unfold appliedSince recordedSince missedSince at ih ⊢
    rw [countP_cons, countP_cons, ih]
    cases h : a.recorded with
    | true => simp [h]; omega
    | false => simp [h, countP_cons]; omega

theorem missedSince_eq_zero {x : Int} {missed : List Instant}
    (h : ∀ t ∈ missed, (t : Int) ≤ x) : missedSince x missed = 0 :=
  countP_eq_zero.2 fun t ht hlt => absurd (of_decide_eq_true hlt) (not_lt.2 (h t ht))

theorem missedSince_append (x : Int) (missed : List Instant) (t : Instant) :
    missedSince x (missed ++ [t]) = missedSince x missed + (if x < (t : Int) then 1 else 0) := by
  unfold missedSince
  rw [countP_append, countP_singleton]
  simp

theorem appliedSince_append (x : Int) (applied : List Applied) (a : Applied) :
    appliedSince x (applied ++ [a]) =
      appliedSince x applied + (if x < (a.time : Int) then 1 else 0) := by
  unfold appliedSince
  rw [countP_append, countP_singleton]
  simp

theorem appliedSince_modify (x : Int) (applied : List Applied) (k : Nat) :
    appliedSince x (applied.modify k (fun a => { a with recorded := true })) =
      appliedSince x applied := by
  induction applied generalizing k with
  | nil => rw [modify_nil]
  | cons a rest ih =>
    unfold appliedSince at ih ⊢
    cases k with
    | zero => rw [modify_zero_cons, countP_cons, countP_cons]
    | succ k => rw [modify_succ_cons, countP_cons, countP_cons, ih]

/-- A receipt covers the mutation it is for. -/
theorem recordedSince_modify (x : Int) {applied : List Applied} {k : Nat} {t : Instant}
    (h : (applied[k]?).any (fun a => a.time ≤ t) = true) :
    recordedSince x (applied.modify k (fun a => { a with recorded := true })) ≤
      recordedSince x applied + (if x < (t : Int) then 1 else 0) := by
  induction applied generalizing k with
  | nil => rw [modify_nil]; omega
  | cons a rest ih =>
    unfold recordedSince at ih ⊢
    cases k with
    | zero =>
      have ht : (a.time : Int) ≤ (t : Int) := Int.ofNat_le.2 (of_decide_eq_true h)
      rw [modify_zero_cons, countP_cons, countP_cons]
      by_cases hx : x < (a.time : Int)
      · have hxt : x < (t : Int) := by omega
        cases a.recorded <;> simp [hx, hxt]
      · simp [hx]
    | succ k =>
      rw [modify_succ_cons, countP_cons, countP_cons]
      have := ih (k := k) (by simpa using h)
      omega

theorem recordedSince_append (x : Int) (applied : List Applied) (t : Instant) :
    recordedSince x (applied ++ [⟨t, false⟩]) = recordedSince x applied := by
  unfold recordedSince
  rw [countP_append, countP_singleton]
  simp

theorem receiptsSince_append (x : Int) (receipts : List Receipt) (r : Receipt) :
    receiptsSince x (receipts ++ [r]) =
      receiptsSince x receipts + (if r.isRealApply && decide (x < (r.createdAt : Int)) then 1 else 0) := by
  unfold receiptsSince
  rw [countP_append, countP_singleton]

/-! ## Steps -/

/-- Time passes, and dispatches miss no less. -/
theorem Counted.mono {d' : Dispatch} (h : Counted cfg w d) (hnow : w.now ≤ w'.now)
    (happlied : ∀ x, appliedSince x w'.applied = appliedSince x w.applied)
    (hcount : d'.count = d.count) (hmissed : d'.missed = d.missed) : Counted cfg w' d' where
  room := by
    rw [hcount]
    exact h.room
  seen x hx := by
    rw [happlied, hcount, hmissed]
    have hnow' : (w.now : Int) ≤ (w'.now : Int) := Int.ofNat_le.2 hnow
    exact h.seen x (by omega)

/-- One dispatch goes on, and keeps what it has counted and missed. -/
theorem Sound.setDispatch {i : Nat} {d' : Dispatch} (h : Sound cfg w)
    (hi : w.dispatches[i]? = some d) (hcount : d'.count = d.count) (hmissed : d'.missed = d.missed)
    (happlies : d'.applies ≠ [] → d.applies ≠ []) : Sound cfg (w.setDispatch i d') where
  recorded := h.recorded
  counted x hx happ := by
    rcases mem_or_eq_of_mem_set hx with hx | rfl
    · exact (h.counted x hx happ).mono le_rfl (fun _ => rfl) rfl rfl
    · exact (h.counted d (mem_of_getElem? hi) (happlies happ)).mono le_rfl (fun _ => rfl)
        hcount hmissed

theorem setApply_applies {k : Nat} {a : Apply} (h : (d.setApply k a).applies ≠ []) :
    d.applies ≠ [] := by
  intro hnil
  apply h
  show d.applies.set k a = []
  rw [hnil, set_nil]

/-- What the budget has admitted has counted every recorded mutation of the window. -/
theorem counted_admitted (h : Sound cfg w)
    (hbudget : firewallMassBlockBudgetExceeded cfg w.receipts w.now d.actionName
      (dispatchDryRun cfg d.actionName d.target) = .ok none)
    (happlies : (d.admitted cfg w).applies ≠ []) : Counted cfg w (d.admitted cfg w) := by
  have happ : firewallBudgetApplies d.actionName (dispatchDryRun cfg d.actionName d.target) =
      true := by
    by_contra hno
    apply happlies
    show (if _ then _ else _) = []
    rw [if_neg hno]
  unfold firewallMassBlockBudgetExceeded recentRealFirewallApplyCount at hbudget
  rw [if_pos happ] at hbudget
  constructor
  case room =>
    split at hbudget
    case h_1 => cases hbudget
    case h_2 count hcount =>
      split at hcount <;> cases hcount
      split at hbudget
      case isTrue => cases hbudget
      case isFalse hlt => exact not_le.1 hlt
  case seen =>
    intro x hx
    rw [appliedSince_split]
    apply Nat.add_le_add_right
    refine (h.recorded x).trans ?_
    apply countP_mono_left
    intro r _ hr
    rw [Bool.and_eq_true, decide_eq_true_eq] at hr ⊢
    exact ⟨hr.1, lt_of_le_of_lt hx hr.2⟩

theorem Sound.land {i k : Nat} (h : Sound cfg w) (hi : w.dispatches[i]? = some d) :
    Sound cfg (w.land i k d) where
  recorded x := by
    show recordedSince x (w.applied ++ [⟨w.now, false⟩]) ≤ receiptsSince x w.receipts
    rw [recordedSince_append]
    exact h.recorded x
  counted y hy happ := by
    obtain ⟨z, hz, rfl⟩ := List.mem_map.1 hy
    have hz' : Counted cfg w z := by
      rcases mem_or_eq_of_mem_set hz with hz | rfl
      · exact h.counted z hz happ
      · have hd := h.counted d (mem_of_getElem? hi) (setApply_applies happ)
        exact hd.mono le_rfl (fun _ => rfl) rfl rfl
    refine ⟨hz'.room, fun x hx => ?_⟩
    show appliedSince x (w.applied ++ [⟨w.now, false⟩]) ≤
      z.count + missedSince x (z.missed ++ [w.now])
    rw [appliedSince_append, missedSince_append]
    have hseen : appliedSince x w.applied ≤ z.count + missedSince x z.missed := hz'.seen x hx
    by_cases hlt : x < (w.now : Int)
    · rw [if_pos hlt]
      omega
    · rw [if_neg hlt]
      omega

theorem Sound.record {i k index : Nat} {createdAt : Instant} (h : Sound cfg w)
    (hi : w.dispatches[i]? = some d)
    (htime : (w.applied[index]?).any (fun a => a.time ≤ createdAt) = true) :
    Sound cfg (w.record i k d index createdAt) where
  recorded x := by
    show recordedSince x (w.applied.modify index _) ≤
      receiptsSince x (w.receipts ++ [⟨false, .apply, createdAt⟩])
    rw [receiptsSince_append]
    refine (recordedSince_modify x htime).trans ?_
    have hrec := h.recorded x
    by_cases hx : x < (createdAt : Int)
    · simp [Receipt.isRealApply, hx]
      omega
    · simp [Receipt.isRealApply, hx]
      omega
  counted y hy happ := by
    have happlied : ∀ x, appliedSince x (w.record i k d index createdAt).applied =
        appliedSince x w.applied := fun x => appliedSince_modify x w.applied index
    rcases mem_or_eq_of_mem_set hy with hy | rfl
    · exact (h.counted y hy happ).mono le_rfl happlied rfl rfl
    · have hd := h.counted d (mem_of_getElem? hi) (setApply_applies happ)
      exact hd.mono le_rfl happlied rfl rfl

theorem Sound.step {a : Action} (h : Sound cfg w) (hstep : exec cfg w a = some w') :
    Sound cfg w' := by
  cases a with
  | tick now =>
    simp only [exec] at hstep
    split at hstep
    case isFalse => cases hstep
    case isTrue hle =>
      cases hstep
      exact ⟨h.recorded, fun d hd happ => (h.counted d hd happ).mono hle (fun _ => rfl) rfl rfl⟩
  | claim actionName target =>
    cases hstep
    refine ⟨h.recorded, fun d hd happ => ?_⟩
    rcases mem_append.1 hd with hd | hd
    · exact (h.counted d hd happ).mono le_rfl (fun _ => rfl) rfl rfl
    · rw [mem_singleton.1 hd] at happ
      exact absurd rfl happ
  | budget i =>
    simp only [exec] at hstep
    split at hstep
    case h_1 => cases hstep
    case h_2 d hi =>
      split at hstep
      case isFalse => cases hstep
      case isTrue =>
        split at hstep
        case h_1 hbudget =>
          cases hstep
          refine ⟨h.recorded, fun y hy happ => ?_⟩
          rcases mem_or_eq_of_mem_set hy with hy | rfl
          · exact (h.counted y hy happ).mono le_rfl (fun _ => rfl) rfl rfl
          · exact (counted_admitted h hbudget happ).mono le_rfl (fun _ => rfl) rfl rfl
        case h_2 | h_3 =>
          cases hstep
          exact h.setDispatch hi rfl rfl (fun happ => happ)
  | stop i =>
    obtain ⟨d, hi, rfl⟩ := map_eq_some_iff.1 hstep
    exact h.setDispatch hi rfl rfl (fun happ => happ)
  | issue i k =>
    simp only [exec] at hstep
    split at hstep
    case h_1 => cases hstep
    case h_2 d hi =>
      split at hstep
      case isFalse => cases hstep
      case isTrue =>
        cases hstep
        exact h.setDispatch hi rfl rfl setApply_applies
  | land i k =>
    simp only [exec] at hstep
    split at hstep
    case h_1 => cases hstep
    case h_2 d hi =>
      split at hstep
      case isFalse => cases hstep
      case isTrue =>
        cases hstep
        exact h.land hi
  | record i k createdAt =>
    simp only [exec] at hstep
    split at hstep
    case h_1 => cases hstep
    case h_2 d hi =>
      split at hstep
      case h_2 => cases hstep
      case h_1 index _ =>
        split at hstep
        case isFalse => cases hstep
        case isTrue hok =>
          cases hstep
          exact h.record hi hok.2.2
  | receipt r =>
    cases hstep
    refine ⟨fun x => ?_, fun d hd happ => (h.counted d hd happ).mono le_rfl (fun _ => rfl) rfl rfl⟩
    show recordedSince x w.applied ≤ receiptsSince x (w.receipts ++ [r])
    rw [receiptsSince_append]
    exact (h.recorded x).trans (Nat.le_add_right _ _)

theorem sound_init (h : Initial w) : Sound cfg w where
  recorded x := by
    rw [h.2]
    exact Nat.zero_le _
  counted d hd := by
    rw [h.1] at hd
    cases hd

theorem sound_invariant (cfg : Settings) : (budgetSystem cfg).Invariant (Sound cfg) :=
  Inductive.invariant
    { init := fun _ h => sound_init h
      step := fun _ _ _ h hstep => h.step hstep }

/-! ## Runs that miss nothing -/

theorem since_times (w : World) :
    (since (windowOf cfg) (w.now : Int) (times w)).length =
      appliedSince ((w.now : Int) - windowOf cfg) w.applied := by
  unfold since times appliedSince
  rw [← countP_eq_length_filter, countP_map]
  rfl

theorem times_record {i k index : Nat} {createdAt : Instant} :
    times (w.record i k d index createdAt) = times w := by
  apply ext_getElem?
  intro n
  unfold times World.record
  simp only [getElem?_map, getElem?_modify]
  cases w.applied[n]? with
  | none => rfl
  | some a =>
    by_cases h : index = n
    · simp [h]
    · simp [h]

theorem admitted_step {a : Action} (hs : Sound cfg w) (hmissed : NoneMissed cfg w a)
    (h : Admitted (maxAppliesPerWindow cfg).toNat (windowOf cfg) (times w))
    (hstep : exec cfg w a = some w') :
    Admitted (maxAppliesPerWindow cfg).toNat (windowOf cfg) (times w') := by
  cases a with
  | land i k =>
    simp only [exec] at hstep
    split at hstep
    case h_1 => cases hstep
    case h_2 d hi =>
      split at hstep
      case isFalse => cases hstep
      case isTrue hk =>
        cases hstep
        have happ : d.applies ≠ [] := by
          intro hnil
          rw [hnil] at hk
          cases hk
        obtain ⟨hroom, hseen⟩ := hs.counted d (mem_of_getElem? hi) happ
        have hseen := hseen _ le_rfl
        rw [missedSince_eq_zero (hmissed d hi)] at hseen
        unfold times World.land
        rw [map_append]
        refine .entry h ?_
        show (since (windowOf cfg) (w.now : Int) (times w)).length < _
        rw [since_times]
        -- the check has left room, and the count has all the window
        omega
  | record i k createdAt =>
    have htimes : times w' = times w := by
      simp only [exec] at hstep
      split at hstep
      case h_1 => cases hstep
      case h_2 =>
        split at hstep
        case h_2 => cases hstep
        case h_1 index _ =>
          split at hstep <;> cases hstep
          exact times_record
    rw [htimes]
    exact h
  | tick | issue | budget | stop | claim | receipt =>
    have happlied : w'.applied = w.applied := by
      simp only [exec] at hstep
      grind [World.setDispatch]
    unfold times
    rw [happlied]
    exact h

/-- In every run whose mutations were counted with everything else of the window, no window
contains more real applies than the maximum. -/
theorem budget_kept (cfg : Settings) :
    ((budgetSystem cfg).restrict (NoneMissed cfg)).Invariant (WithinBudget cfg) := by
  have hadmitted : ((budgetSystem cfg).restrict (NoneMissed cfg)).Invariant
      (fun w => Admitted (maxAppliesPerWindow cfg).toNat (windowOf cfg) (times w)) := by
    refine ((sound_invariant cfg).of_restrict).strengthen (fun w h => ?_) ?_
    · unfold times
      rw [h.2]
      exact .nil
    · intro s a t _ hs h hstep
      exact admitted_step hs hstep.1 h hstep.2
  intro w hw x
  have hpos := maxAppliesPerWindow_pos cfg
  have hIco := (hadmitted w hw).length_filter_le (narrow_Ico (windowOf cfg) x)
  have hIoc := (hadmitted w hw).length_filter_le (narrow_Ioc (windowOf cfg) x)
  omega

/-- At most two real applies in five minutes. -/
def twoApplies : Settings where
  dryRun := false
  authorized := some ["nftables"]
  multiAdapters := "nftables"
  rateWindowSeconds := none
  maxAppliesPerWindow := some 2

/-- One request through one adapter; its receipt is written or lost. -/
def oneApply (i : Nat) (createdAt : Option Instant) : List Action :=
  [.budget i, .issue i 0, .land i 0] ++
    createdAt.elim [.stop i] (fun t => [.record i 0 t, .stop i])

/-- Two applies are recorded and the third request is refused. An apply of the next window gets
no receipt, and the window after it has another. -/
def oneAfterAnother : List Action :=
  List.replicate 5 (.claim "nftables.block_ip" none) ++ oneApply 0 (some 0) ++ oneApply 1 (some 0) ++
    [.budget 2, .tick 300000000] ++ oneApply 3 none ++ [.tick 600000000] ++ oneApply 4 (some 600000000)

theorem budget_kept_oneAfterAnother : ∃ w,
    ((budgetSystem twoApplies).restrict (NoneMissed twoApplies)).Run ⟨0, [], [], []⟩
      oneAfterAnother w ∧
    times w = [0, 0, 300000000, 600000000] ∧
    w.dispatches.map (fun d => (d.count, d.applies)) =
      [(0, [.recorded]), (1, [.recorded]), (0, []), (0, [.landed 2]), (0, [.recorded])] ∧ WithinBudget twoApplies w := by
  have hrun : (execAll (fun w a => if NoneMissed twoApplies w a then exec twoApplies w a
      else none) ⟨0, [], [], []⟩ oneAfterAnother).map (fun w => (times w,
        w.dispatches.map (fun d => (d.count, d.applies)))) =
      some ([0, 0, 300000000, 600000000],
        [(0, [.recorded]), (1, [.recorded]), (0, []), (0, [.landed 2]), (0, [.recorded])]) := by decide +kernel
  obtain ⟨w, hw, hstate⟩ := map_eq_some_iff.1 hrun
  obtain ⟨htimes, hdispatches⟩ := Prod.mk.inj hstate
  have hsteps := run_restrict_of_execAll Initial (exec twoApplies) hw
  exact ⟨w, hsteps, htimes, hdispatches,
    budget_kept twoApplies w ⟨_, _, ⟨rfl, rfl⟩, hsteps⟩⟩

/-- At most one real apply in five minutes, and two adapters for each request. -/
def twoAdapters : Settings where
  dryRun := false
  authorized := some ["firewall"]
  multiAdapters := "nftables,haproxy"
  rateWindowSeconds := none
  maxAppliesPerWindow := some 1

/-- One request, dispatched alone. -/
def oneFanOut : List Action :=
  [ .claim "firewall.block_indicator" none
  , .budget 0
  , .issue 0 0
  , .land 0 0
  , .issue 0 1
  , .land 0 1 ]

/-- The budget is read once for both adapters. -/
theorem fan_out_exceeds : ¬ ∀ cfg, (budgetSystem cfg).Invariant (WithinBudget cfg) := by
  intro h
  have hrun : (execAll (exec twoAdapters) ⟨0, [], [], []⟩ oneFanOut).map times =
      some [0, 0] := by decide +kernel
  obtain ⟨w, hw, htimes⟩ := map_eq_some_iff.1 hrun
  have hreach : (budgetSystem twoAdapters).Reachable w :=
    ⟨⟨0, [], [], []⟩, oneFanOut, ⟨rfl, rfl⟩, run_of_execAll _ _ hw⟩
  have hwithin := (h twoAdapters w hreach 0).1
  rw [htimes] at hwithin
  exact absurd hwithin (by decide)

end Clawforge.MassBlock

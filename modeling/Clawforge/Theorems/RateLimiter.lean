import Clawforge.Api.RateLimiter

/-!
# What the rate limiter bounds

A key keeps its window as long as no call throws its bucket away too early. A call does so where
it finds more than ten thousand buckets and its own window is the shorter one.
-/

namespace Clawforge.RateLimiter

open Kit Table List Option

variable {policy : String → RateLimit} {w w' : World} {key k : String} {rate other : RateLimit}

/-! ## The property -/

/-- The table has for the key the window its calls opened, and it has it for as long as that
window has not elapsed; the calls were answered by its room, so it admits no more than the limit. -/
structure Kept (w : World) (key : String) (rate : RateLimit) : Prop where
  live : ∀ v ∈ windowOf rate.window (w.calls key), w.now - v.started < rate.window →
    w.buckets.get? key = some ⟨key, v.started, v.count⟩
  stored : ∀ b ∈ w.buckets.get? key, windowOf rate.window (w.calls key) = some b.window
  answered : Answered rate.limit rate.window (w.calls key)
  bounded : ∀ v ∈ windowOf rate.window (w.calls key), v.count ≤ rate.limit

/-- Every key keeps its window. -/
def AllKept (policy : String → RateLimit) (w : World) : Prop :=
  ∀ key, Kept w key (policy key)

/-- The call throws away no bucket whose own window has not elapsed. -/
def Spares (policy : String → RateLimit) (w : World) : Action → Prop
  | .check key => 10000 < w.buckets.rows.length → ∀ b ∈ w.buckets,
      w.now - b.started < (policy b.key).window → w.now - b.started < (policy key).window
  | .tick _ => True

/-! ## Calls -/

theorem check_buckets : (w.check key rate).buckets =
    (check w.buckets key rate.limit rate.window w.now).2 := rfl

theorem check_calls : (w.check key rate).calls k = if k = key then
    ⟨w.now, (check w.buckets key rate.limit rate.window w.now).1.allowed⟩ :: w.calls k
    else w.calls k := rfl

theorem Kept.start (key : String) (rate : RateLimit) : Kept World.start key rate where
  live := fun _ hv => nomatch hv
  stored := fun _ hb => nomatch hb
  answered := trivial
  bounded := fun _ hv => nomatch hv

/-- A key that keeps its window has its calls fall into it. -/
theorem Kept.windowAt (h : Kept w key rate) : windowAt w.buckets key rate.window w.now =
    Window.current rate.window w.now (windowOf rate.window (w.calls key)) := by
  unfold RateLimiter.windowAt
  cases hwindow : windowOf rate.window (w.calls key) with
  | none =>
    cases hretained : (retained w.buckets w.now rate.window).get? key with
    | none => rfl
    | some b =>
      have hstored := h.stored b (get?_of_retained hretained)
      rw [hwindow] at hstored
      cases hstored
  | some v =>
    by_cases hlive : w.now - v.started < rate.window
    · have hget := h.live v hwindow hlive
      rw [get?_retained_of_live hget hlive]
      rfl
    · rw [Window.current_of_elapsed (not_lt.1 hlive)]
      cases hretained : (retained w.buckets w.now rate.window).get? key with
      | none => rfl
      | some b =>
        have hstored := h.stored b (get?_of_retained hretained)
        rw [hwindow] at hstored
        cases hstored
        exact Window.current_of_elapsed (not_lt.1 hlive)

/-- A call keeps the window of its own key. -/
theorem Kept.check_self (h : Kept w key rate) : Kept (w.check key rate) key rate := by
  have hcalls : windowOf rate.window ((w.check key rate).calls key) =
      some ((RateLimiter.windowAt w.buckets key rate.window w.now).answered
        (check w.buckets key rate.limit rate.window w.now).1.allowed) := by
    rw [check_calls, if_pos rfl, h.windowAt]
    rfl
  have hget : (check w.buckets key rate.limit rate.window w.now).2.get? key =
      let v := (RateLimiter.windowAt w.buckets key rate.window w.now).answered
        (check w.buckets key rate.limit rate.window w.now).1.allowed
      some ⟨key, v.started, v.count⟩ := by
    rw [get?_check, if_pos rfl]
  have hanswered : Answered rate.limit rate.window ((w.check key rate).calls key) := by
    rw [check_calls, if_pos rfl]
    refine ⟨?_, h.answered⟩
    dsimp only
    rw [check_allowed, h.windowAt, decide_eq_true_eq]
  constructor
  case live =>
    intro v hv _
    rw [hcalls] at hv
    cases hv
    exact hget
  case stored =>
    intro b hb
    rw [check_buckets, hget] at hb
    cases hb
    exact hcalls
  case answered => exact hanswered
  case bounded => exact hanswered.count_le

/-- A call keeps the window of another key exactly if it does not throw it away. -/
theorem Kept.check_other (h : Kept w k rate) (hk : k ≠ key) :
    Kept (w.check key other) k rate ↔
      (10000 < w.buckets.rows.length → ∀ b ∈ w.buckets.get? k,
        w.now - b.started < rate.window → w.now - b.started < other.window) := by
  have hcalls : (w.check key other).calls k = w.calls k := by rw [check_calls, if_neg hk]
  have hget : (w.check key other).buckets.get? k =
      (retained w.buckets w.now other.window).get? k := by
    rw [check_buckets, get?_check, if_neg hk]
  constructor
  · intro h' hfull b hb hlive
    have hwindow := h.stored b hb
    have hafter := h'.live b.window (by rw [hcalls]; exact hwindow) hlive
    rw [hget, get?_retained, if_pos hfull, hb] at hafter
    exact of_decide_eq_true (filter_eq_some_iff.1 hafter).2
  · intro hspared
    constructor
    case live =>
      intro v hv hlive
      rw [hcalls] at hv
      have hbefore := h.live v hv hlive
      rw [hget]
      by_cases hfull : 10000 < w.buckets.rows.length
      · exact get?_retained_of_live hbefore (hspared hfull _ hbefore hlive)
      · rw [get?_retained, if_neg hfull]
        exact hbefore
    case stored =>
      intro b hb
      rw [hget] at hb
      rw [hcalls]
      exact h.stored b (get?_of_retained hb)
    case answered =>
      rw [hcalls]
      exact h.answered
    case bounded =>
      rw [hcalls]
      exact h.bounded

theorem Kept.tick {now : Nat} (h : Kept w key rate) (hle : w.now ≤ now) :
    Kept { w with now } key rate where
  live v hv hlive := h.live v hv (lt_of_le_of_lt (Nat.sub_le_sub_right hle _) hlive)
  stored := h.stored
  answered := h.answered
  bounded := h.bounded

/-! ## Runs -/

theorem allKept_step {a : Action} (h : AllKept policy w) (hstep : exec policy w a = some w') :
    AllKept policy w' ↔ Spares policy w a := by
  cases a with
  | tick now =>
    simp only [exec] at hstep
    split at hstep
    case isFalse => cases hstep
    case isTrue hle =>
      cases hstep
      exact ⟨fun _ => trivial, fun _ key => (h key).tick hle⟩
  | check key =>
    cases hstep
    constructor
    · intro h' hfull b hb hlive
      by_cases hk : b.key = key
      · rw [← hk]
        exact hlive
      · exact ((h b.key).check_other hk).1 (h' b.key) hfull b (get?_key hb) hlive
    · intro hspares k
      by_cases hk : k = key
      · subst hk
        exact (h k).check_self
      · refine ((h k).check_other hk).2 (fun hfull b hb hlive => ?_)
        have hkey := key_of_get? hb
        rw [← hkey] at hlive
        exact hspares hfull b (mem_of_get? hb) hlive

/-- Every key keeps its window all along a run exactly if no call of it throws away a bucket whose
own window has not elapsed. -/
theorem allKept_along_iff {ls : List Action} (h : (limiterSystem policy).Run World.start ls w) :
    (limiterSystem policy).Along (AllKept policy) World.start ls ↔
      ((limiterSystem policy).restrict (Spares policy)).Run World.start ls w :=
  h.along_iff_restrict (TSys.deterministic_ofExec _ _)
    (fun _ _ _ _ hkept hstep => allKept_step hkept hstep) (.init rfl)
    (fun key => .start key (policy key))

/-- Two keys in their first windows, neither thrown away. -/
theorem allKept_along_iff_two :
    (limiterSystem (fun _ => ⟨3, 60⟩)).Along (AllKept (fun _ => ⟨3, 60⟩)) World.start
        [.check "a", .tick 1, .check "b"] ↔
      ((limiterSystem (fun _ => ⟨3, 60⟩)).restrict (Spares (fun _ => ⟨3, 60⟩))).Run World.start
        [.check "a", .tick 1, .check "b"]
        (World.check { World.check World.start "a" ⟨3, 60⟩ with now := 1 } "b" ⟨3, 60⟩) :=
  allKept_along_iff (.cons rfl (.cons rfl (.cons rfl (.nil _))))

/-! ## A crowd -/

/-- Below the limit of the table, a new key takes a new bucket. -/
theorem length_check_of_fresh (hfresh : w.buckets.get? key = none)
    (hroom : w.buckets.rows.length ≤ 10000) :
    (w.check key rate).buckets.rows.length = w.buckets.rows.length + 1 := by
  have hretained : retained w.buckets w.now rate.window = w.buckets := if_neg (not_lt.2 hroom)
  have hlength : ((retained w.buckets w.now rate.window).insertOrIgnore
      ⟨key, w.now, 0⟩).rows.length = w.buckets.rows.length + 1 := by
    have hsome : (w.buckets.insert? ⟨key, w.now, 0⟩).isSome = true :=
      insert?_isSome.2 (get?_eq_none.1 hfresh)
    obtain ⟨T, hT⟩ := isSome_iff_exists.1 hsome
    rw [hretained]
    unfold Table.insertOrIgnore
    rw [hT, getD_some, rows_insert? hT, length_append]
    rfl
  rw [check_buckets]
  unfold check store Table.updateWhere
  dsimp only
  split
  · rw [length_map, hlength]
  · rw [length_map, hlength]

/-- New keys fill the table. -/
theorem crowd_run (policy : String → RateLimit) : ∀ {keys : List String} {w : World},
    keys.Nodup → (∀ k ∈ keys, w.buckets.get? k = none) →
    w.buckets.rows.length + keys.length ≤ 10001 →
    ∃ w', (limiterSystem policy).Run w (keys.map .check) w' ∧ w'.now = w.now ∧
      w'.buckets.rows.length = w.buckets.rows.length + keys.length ∧
      ∀ k ∉ keys, w'.calls k = w.calls k := by
  intro keys
  induction keys with
  | nil =>
    intro w _ _ _
    exact ⟨w, .nil w, rfl, rfl, fun _ _ => rfl⟩
  | cons key rest ih =>
    intro w hnodup hfresh hroom
    obtain ⟨hkey, hrest⟩ := nodup_cons.1 hnodup
    rw [length_cons] at hroom
    have hlength : (w.check key (policy key)).buckets.rows.length =
        w.buckets.rows.length + 1 :=
      length_check_of_fresh (hfresh key mem_cons_self) (by omega)
    obtain ⟨w', hrun, hnow, hlen, hcalls⟩ := ih (w := w.check key (policy key)) hrest
      (fun k hk => by
        have hne : k ≠ key := fun h => hkey (h ▸ hk)
        rw [check_buckets, get?_check, if_neg hne, get?_retained,
          hfresh k (mem_cons_of_mem _ hk)]
        split
        · rfl
        · rfl)
      (by omega)
    refine ⟨w', .cons rfl hrun, hnow, by rw [hlen, hlength, length_cons]; omega, ?_⟩
    intro k hk
    rw [mem_cons, not_or] at hk
    rw [hcalls k hk.2, check_calls, if_neg hk.1]

/-- Three uses an hour for one key, five a minute for all others. -/
def bootstrapPolicy (key : String) : RateLimit :=
  if key = "bootstrap" then ⟨3, 3600⟩ else ⟨5, 60⟩

/-- As many other keys as one likes. -/
theorem crowd_exists (n : Nat) :
    ∃ keys : List String, keys.length = n ∧ keys.Nodup ∧ "bootstrap" ∉ keys := by
  refine ⟨(List.range n).map (fun i => String.ofList (List.replicate i 'k')), ?_, ?_, ?_⟩
  · rw [length_map, length_range]
  · apply Nodup.map _ nodup_range
    intro i j h
    have hlist := congrArg List.length (String.ofList_injective h)
    rwa [length_replicate, length_replicate] at hlist
  · intro h
    obtain ⟨i, _, hi⟩ := List.mem_map.1 h
    have hmem : 'b' ∈ List.replicate i 'k' := by
      rw [← String.toList_ofList (l := List.replicate i 'k'), hi]
      decide
    exact absurd (eq_of_mem_replicate hmem) (by decide)

/-- A minute after a crowd, any call throws the window of an hour away. -/
theorem crowd_discards : ¬ ∀ policy, (limiterSystem policy).Invariant (AllKept policy) := by
  intro h
  obtain ⟨keys, hkeys, hnodup, habsent⟩ := crowd_exists 10000
  obtain ⟨first, hfirst⟩ : ∃ w, w = World.start.check "bootstrap" (bootstrapPolicy "bootstrap") :=
    ⟨_, rfl⟩
  have hlength : first.buckets.rows.length = 1 := by rw [hfirst]; decide
  obtain ⟨w, hrun, hnow, hlen, hcalls⟩ := crowd_run bootstrapPolicy hnodup
    (fun k hk => by
      have hne : k ≠ "bootstrap" := fun hk' => habsent (hk' ▸ hk)
      rw [hfirst, check_buckets, get?_check, if_neg hne]
      rfl)
    (show first.buckets.rows.length + keys.length ≤ 10001 by rw [hlength, hkeys])
  have hstart : w.now = 0 := by rw [hnow, hfirst]; rfl
  have htick : (limiterSystem bootstrapPolicy).step w (.tick 60) { w with now := 60 } := by
    show (if w.now ≤ 60 then some { w with now := 60 } else none) = _
    rw [hstart, if_pos (Nat.zero_le _)]
  have hlate : (limiterSystem bootstrapPolicy).step { w with now := 60 } (.check "late")
      ({ w with now := 60 }.check "late" (bootstrapPolicy "late")) := rfl
  have hreach : (limiterSystem bootstrapPolicy).Reachable
      ({ w with now := 60 }.check "late" (bootstrapPolicy "late")) := by
    refine ⟨World.start, .check "bootstrap" :: (keys.map .check ++ [.tick 60, .check "late"]),
      rfl, .cons (by rw [hfirst]; rfl) (hrun.append (.cons htick (.single hlate)))⟩
  have hwindow : windowOf 3600 (w.calls "bootstrap") = some ⟨0, 1⟩ := by
    rw [hcalls _ habsent, hfirst]
    decide
  have hlive := (h bootstrapPolicy _ hreach "bootstrap").live ⟨0, 1⟩
    (by rw [check_calls, if_neg (by decide)]; exact hwindow)
    (show 60 - 0 < 3600 by decide)
  rw [check_buckets, get?_check, if_neg (by decide), get?_retained, if_pos (by
    show 10000 < w.buckets.rows.length
    rw [hlen, hlength, hkeys]
    decide)] at hlive
  have hyoung : 60 - 0 < 60 := of_decide_eq_true (filter_eq_some_iff.1 hlive).2
  exact absurd hyoung (by decide)

end Clawforge.RateLimiter

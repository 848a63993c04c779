import Clawforge.Api.TokenRotation
import Clawforge.Kit.Slots

/-!
# When a rotation is atomic

A rotation changes at most two rows, and its entries in the log say which (`rows_eq_log`). It is
atomic if it changed nothing, or revoked a live token and created one of the same owner. Every
rotation of a complete run is atomic if and only if each revocation that is applied met a live
token of the caller, or no token, and is followed by a creation exactly in the first case
(`rotation_atomic_iff`).
-/

namespace Clawforge.TokenRotation

open Kit AdminConfig TSys Table List

variable {digest : String → String} {w w' : World} {a : Action} {k : Nat} {c : Call}
  {new : List Change} {phase : Phase}

/-! ## Changes -/

/-- The changes of one rotation. -/
def entries (w : World) (k : Nat) : List Change := w.log.filter (fun x => x.call = k)

/-- Nothing was changed, or a live token was revoked and one of the same owner created. -/
def Atomic (w : World) (k : Nat) : Prop :=
  entries w k = [] ∨ ∃ t at_ new, entries w k = [.revoked k t at_, .created k new] ∧
    t.live at_ = true ∧ new.userId = t.userId

def Change.apply (rows : List ApiToken) : Change → List ApiToken
  | .revoked _ before at_ =>
    rows.map (fun t => if t.id = before.id then { t with revokedAt := some at_ } else t)
  | .created _ token => rows ++ [token]

/-- What a revocation by the rotation `k` changes. -/
def hits (w : World) (k : Nat) (id : Uuid) : List Change :=
  (w.tokens.get? id).toList.map (fun t => .revoked k t w.now)

/-- The step of a rotation: the action, the phase it leads to and what it changes. -/
inductive Moves (digest : String → String) (w : World) (k : Nat) (c : Call) :
    Action → Phase → List Change → Prop
  | unrevoked {p} : c.phase = .arrived p →
      Moves digest w k c (.revoke k .failed) (.answered (.error rotationFailed)) []
  | lost {p} : c.phase = .arrived p →
      Moves digest w k c (.revoke k .unacknowledged) (.answered (.error rotationFailed))
        (hits w k c.target)
  | revoked {p} : c.phase = .arrived p →
      Moves digest w k c (.revoke k .stored) (.revoked p (w.tokens.get? c.target))
        (hits w k c.target)
  | uncreated {p hit newId secret fate} : c.phase = .revoked p hit →
      created? w (replacement digest w p newId secret) fate = none →
      Moves digest w k c (.create k newId secret fate) (.answered (.error rotationFailed)) []
  | created {p hit newId secret fate tokens phase} : c.phase = .revoked p hit →
      created? w (replacement digest w p newId secret) fate = some tokens → phase.done = true →
      Moves digest w k c (.create k newId secret fate) phase
        [.created k (replacement digest w p newId secret)]
  | audited {newId} : c.phase = .created newId →
      Moves digest w k c (.audit k) (.answered (.ok newId)) []
  | died : Moves digest w k c (.die k) .died []

theorem rows_createApiToken {tokens tokens' : ApiTokens} {token : ApiToken}
    (h : createApiToken tokens token = some tokens') : tokens'.rows = tokens.rows ++ [token] := by
  unfold createApiToken at h
  split at h
  · cases h
  · exact rows_insert? h

theorem rows_created? {token : ApiToken} {fate : Fate} {tokens : ApiTokens}
    (h : created? w token fate = some tokens) : tokens.rows = w.tokens.rows ++ [token] := by
  unfold created? at h
  cases fate with
  | failed => cases h
  | stored | unacknowledged => exact rows_createApiToken h

theorem rows_revoke (w : World) (k : Nat) (id : Uuid) :
    (w.revoke k id).tokens.rows = (hits w k id).foldl Change.apply w.tokens.rows := by
  unfold World.revoke revokeApiToken hits
  cases hget : w.tokens.get? id with
  | none =>
    rw [updateWhere_eq_self (get?_eq_none.1 hget)]
    rfl
  | some t =>
    have hid : t.id = id := key_of_get? hget
    subst hid
    rfl

/-- A step of the rotation `k` changes its phase, and the tokens as its log entries say. -/
theorem stepCall_spec (h : stepCall digest w k c a = some w') (ha : a.call = some k) :
    ∃ phase new, Moves digest w k c a phase new ∧ w'.calls = w.calls.set k { c with phase } ∧
      w'.log = w.log ++ new ∧ w'.tokens.rows = new.foldl Change.apply w.tokens.rows := by
  cases a with
  | tick => cases ha
  | arrive => cases ha
  | revoke j fate =>
    obtain rfl := Option.some.inj ha
    unfold stepCall at h
    dsimp only at h
    split at h
    · next p hphase =>
      cases fate with
      | failed =>
        obtain rfl := Option.some.inj h
        exact ⟨_, _, .unrevoked hphase, rfl, (append_nil _).symm, rfl⟩
      | unacknowledged =>
        obtain rfl := Option.some.inj h
        exact ⟨_, _, .lost hphase, rfl, rfl, rows_revoke w j c.target⟩
      | stored =>
        obtain rfl := Option.some.inj h
        exact ⟨_, _, .revoked hphase, rfl, rfl, rows_revoke w j c.target⟩
    · cases h
  | create j newId secret fate =>
    obtain rfl := Option.some.inj ha
    unfold stepCall at h
    dsimp only at h
    split at h
    · next p hit hphase =>
      split at h
      · next hnone =>
        obtain rfl := Option.some.inj h
        exact ⟨_, _, .uncreated hphase hnone, rfl, (append_nil _).symm, rfl⟩
      · next tokens hsome =>
        obtain rfl := Option.some.inj h
        refine ⟨_, _, .created hphase hsome ?_, rfl, rfl, rows_created? hsome⟩
        split <;> rfl
    · cases h
  | audit j =>
    obtain rfl := Option.some.inj ha
    unfold stepCall at h
    dsimp only at h
    split at h
    · next newId hphase =>
      obtain rfl := Option.some.inj h
      exact ⟨_, _, .audited hphase, rfl, (append_nil _).symm, rfl⟩
    · cases h
  | die j =>
    obtain rfl := Option.some.inj ha
    unfold stepCall at h
    dsimp only at h
    split at h
    · cases h
    · cases h
    · obtain rfl := Option.some.inj h
      exact ⟨_, _, .died, rfl, (append_nil _).symm, rfl⟩

/-- A step is one of time, an arrival, or the step of a rotation. -/
theorem exec_cases (h : exec digest w a = some w') :
    (a.call = none ∧ w'.log = w.log ∧ w'.tokens = w.tokens ∧
        (w'.calls = w.calls ∨
          ∃ principal target, w'.calls = w.calls ++ [⟨target, arrival principal⟩])) ∨
      ∃ k c phase new, w.calls[k]? = some c ∧ Moves digest w k c a phase new ∧
        w'.calls = w.calls.set k { c with phase } ∧ w'.log = w.log ++ new ∧
        w'.tokens.rows = new.foldl Change.apply w.tokens.rows := by
  unfold exec at h
  split at h
  · next k hcall =>
    obtain ⟨c, hk, hstep⟩ := Option.bind_eq_some_iff.1 h
    obtain ⟨phase, new, hmoves, hrest⟩ := stepCall_spec hstep hcall
    exact .inr ⟨k, c, phase, new, hk, hmoves, hrest⟩
  · next hcall =>
    refine .inl ?_
    split at h
    · obtain rfl := Option.some.inj h
      exact ⟨hcall, rfl, rfl, .inl rfl⟩
    · next principal target =>
      obtain rfl := Option.some.inj h
      exact ⟨hcall, rfl, rfl, .inr ⟨principal, target, rfl⟩⟩
    · cases h

/-- The log accounts for every change of the table. -/
theorem rows_eq_log {w₀ : World} {ls : List Action} (h₀ : Initial w₀)
    (hrun : (rotationSystem digest).Run w₀ ls w) :
    w.tokens.rows = w.log.foldl Change.apply w₀.tokens.rows := by
  refine hrun.preserves (I := fun w => w.tokens.rows = w.log.foldl Change.apply w₀.tokens.rows)
    ?_ ?_
  · intro s a t hs hstep
    rcases exec_cases hstep with ⟨-, hlog, htokens, -⟩ | ⟨k, c, phase, new, -, -, -, hlog, hrows⟩
    · rw [hlog, htokens, hs]
    · rw [hrows, hlog, foldl_append, hs]
  · rw [h₀.2]
    rfl

/-! ## Shape -/

/-- What a rotation that can still make a change has changed. -/
def Shape (w : World) (k : Nat) (c : Call) : Prop :=
  match c.phase with
  | .arrived _ => entries w k = []
  | .revoked _ hit => ∃ at_, entries w k = hit.toList.map (fun t => .revoked k t at_)
  | _ => True

/-- The rotation is atomic, or can still become it: what it revoked was live and the caller's. -/
def Fine (w : World) (k : Nat) (c : Call) : Prop :=
  match c.phase with
  | .arrived _ => entries w k = []
  | .revoked principal hit =>
    ∃ at_, entries w k = hit.toList.map (fun t => .revoked k t at_) ∧
      ∀ t, hit = some t → t.live at_ = true ∧ t.userId = principal.id
  | _ => Atomic w k

def AllShaped (w : World) : Prop :=
  (∀ k c, w.calls[k]? = some c → Shape w k c) ∧ ∀ x ∈ w.log, x.call < w.calls.length

def AllFine (w : World) : Prop := ∀ k c, w.calls[k]? = some c → Fine w k c

theorem call_of_moves (h : Moves digest w k c a phase new) : ∀ x ∈ new, x.call = k := by
  have hhits : ∀ x ∈ hits w k c.target, x.call = k := by
    intro x hx
    obtain ⟨t, -, rfl⟩ := List.mem_map.1 hx
    rfl
  cases h with
  | unrevoked | uncreated | audited | died => intro x hx; cases hx
  | lost => exact hhits
  | revoked => exact hhits
  | created =>
    intro x hx
    rw [mem_singleton.1 hx]
    rfl

theorem entries_self (hlog : w'.log = w.log ++ new) (hnew : ∀ x ∈ new, x.call = k) :
    entries w' k = entries w k ++ new := by
  unfold entries
  rw [hlog, filter_append,
    filter_eq_self.2 (fun x hx => decide_eq_true (hnew x hx))]

theorem entries_other {j : Nat} (hlog : w'.log = w.log ++ new) (hnew : ∀ x ∈ new, x.call = k)
    (hj : j ≠ k) : entries w' j = entries w j := by
  have hnone : new.filter (fun x => x.call = j) = [] := by
    refine filter_eq_nil_iff.2 (fun x hx => ?_)
    rw [hnew x hx, decide_eq_true_eq]
    exact fun h => hj h.symm
  unfold entries
  rw [hlog, filter_append, hnone, append_nil]

theorem entries_fresh (h : ∀ x ∈ w.log, x.call < w.calls.length) :
    entries w w.calls.length = [] := by
  refine filter_eq_nil_iff.2 (fun x hx => ?_)
  rw [decide_eq_true_eq]
  exact (h x hx).ne

theorem getElem?_snoc {calls : List Call} {d : Call} {j : Nat} (hge : calls.length ≤ j)
    (h : (calls ++ [d])[j]? = some c) : j = calls.length ∧ c = d := by
  rw [getElem?_append_right hge, getElem?_singleton] at h
  split at h
  · next hj =>
    obtain rfl := Option.some.inj h
    exact ⟨by omega, rfl⟩
  · cases h

theorem action_of_moves (h : Moves digest w k c a phase new) : a.call = some k := by
  cases h <;> rfl

/-- An arrival has changed nothing. -/
theorem fine_arrival {target : Uuid} {principal : Except ApiError AdminPrincipal}
    (h : entries w k = []) : Fine w k ⟨target, arrival principal⟩ := by
  unfold Fine arrival
  cases principal with
  | error error => exact .inl h
  | ok principal =>
    dsimp only
    split
    · next heq =>
      split at heq
      · cases heq
      · exact h
    · next heq => split at heq <;> cases heq
    · exact .inl h

/-! ## Steps -/

theorem not_atomic_revoked {t : ApiToken} {at_ : Instant}
    (h : entries w k = [.revoked k t at_]) : ¬ Atomic w k := by
  unfold Atomic
  rw [h]
  rintro (h | ⟨t', at', new, h, -⟩)
  · cases h
  · cases h

theorem not_atomic_created {t : ApiToken} (h : entries w k = [.created k t]) : ¬ Atomic w k := by
  unfold Atomic
  rw [h]
  rintro (h | ⟨t', at', new, h, -⟩)
  · cases h
  · cases h

theorem atomic_pair {t new : ApiToken} {at_ : Instant}
    (h : entries w k = [.revoked k t at_, .created k new]) :
    Atomic w k ↔ t.live at_ = true ∧ new.userId = t.userId := by
  unfold Atomic
  rw [h]
  constructor
  · rintro (h | ⟨t', at', new', h, hlive, huser⟩)
    · cases h
    · cases h
      exact ⟨hlive, huser⟩
  · rintro ⟨hlive, huser⟩
    exact .inr ⟨t, at_, new, rfl, hlive, huser⟩

/-- What the step of a rotation has to meet: a revocation that is applied is acknowledged and
meets a live token of the caller, or no token; a token is created exactly if one was revoked; and
a rotation does not die with a token revoked. -/
def MeetsCall (digest : String → String) (w : World) (c : Call) : Action → Prop
  | .revoke _ fate => ∀ p t, c.phase = .arrived p → fate ≠ .failed →
      w.tokens.get? c.target = some t →
      fate = .stored ∧ t.live w.now = true ∧ t.userId = p.id
  | .create _ newId secret fate => ∀ p hit, c.phase = .revoked p hit →
      ((created? w (replacement digest w p newId secret) fate).isSome = true ↔ hit.isSome = true)
  | .die _ => ∀ p hit, c.phase = .revoked p hit → hit = none
  | _ => True

def Meets (digest : String → String) (w : World) (a : Action) : Prop :=
  ∀ k c, a.call = some k → w.calls[k]? = some c → MeetsCall digest w c a

theorem fine_done (h : phase.done = true) : Fine w k { c with phase } ↔ Atomic w k := by
  unfold Fine
  cases phase with
  | arrived p => cases h
  | revoked p hit => cases h
  | _ => exact Iff.rfl

/-- After its step a rotation is fine exactly if it was before and the step meets its condition. -/
theorem fine_move (hshape : Shape w k c) (hmoves : Moves digest w k c a phase new)
    (hentries : entries w' k = entries w k ++ new) :
    Fine w' k { c with phase } ↔ Fine w k c ∧ MeetsCall digest w c a := by
  obtain ⟨target, current⟩ := c
  cases hmoves with
  | unrevoked hphase =>
    cases hphase
    rw [show entries w k = [] from hshape] at hentries
    rw [fine_done rfl]
    exact iff_of_true (.inl hentries) ⟨hshape, fun p t _ hfate => absurd rfl hfate⟩
  | lost hphase =>
    cases hphase
    rw [show entries w k = [] from hshape] at hentries
    rw [fine_done rfl]
    unfold hits at hentries
    cases hget : w.tokens.get? target with
    | none =>
      rw [hget] at hentries
      refine iff_of_true (.inl hentries) ⟨hshape, fun p t _ _ ht => ?_⟩
      rw [hget] at ht
      cases ht
    | some t =>
      rw [hget] at hentries
      refine iff_of_false (not_atomic_revoked hentries) ?_
      rintro ⟨-, hmeets⟩
      cases (hmeets _ t rfl (by decide) hget).1
  | @revoked p hphase =>
    cases hphase
    rw [show entries w k = [] from hshape, nil_append] at hentries
    unfold hits at hentries
    cases hget : w.tokens.get? target with
    | none =>
      rw [hget] at hentries
      refine iff_of_true ⟨w.now, hentries, fun t ht => by cases ht⟩
        ⟨hshape, fun p t _ _ ht => ?_⟩
      rw [hget] at ht
      cases ht
    | some t =>
      rw [hget] at hentries
      constructor
      · rintro ⟨at_, heq, hlive⟩
        rw [hentries] at heq
        cases heq
        refine ⟨hshape, fun q x hq _ hx => ?_⟩
        cases hq
        cases hget.symm.trans hx
        exact ⟨rfl, hlive t rfl⟩
      · rintro ⟨-, hmeets⟩
        refine ⟨w.now, hentries, fun x hx => ?_⟩
        cases hx
        exact (hmeets p t rfl (by decide) hget).2
  | @uncreated p hit newId secret fate hphase hnone =>
    cases hphase
    obtain ⟨at_, hrevoked⟩ := hshape
    rw [append_nil, hrevoked] at hentries
    rw [fine_done rfl]
    cases hit with
    | none =>
      refine iff_of_true (.inl hentries)
        ⟨⟨at_, hrevoked, fun t ht => by cases ht⟩, fun q hit heq => ?_⟩
      cases heq
      rw [hnone]
      exact Iff.rfl
    | some t =>
      refine iff_of_false (not_atomic_revoked hentries) ?_
      rintro ⟨-, hmeets⟩
      have hsome := (hmeets p (some t) rfl).2 rfl
      rw [hnone] at hsome
      cases hsome
  | @created p hit newId secret fate tokens phase hphase hsome hdone =>
    cases hphase
    obtain ⟨at_, hrevoked⟩ := hshape
    rw [hrevoked] at hentries
    rw [fine_done hdone]
    cases hit with
    | none =>
      refine iff_of_false (not_atomic_created hentries) ?_
      rintro ⟨-, hmeets⟩
      have hhit := (hmeets p none rfl).1 (by rw [hsome]; rfl)
      cases hhit
    | some t =>
      rw [atomic_pair hentries]
      constructor
      · rintro ⟨hlive, huser⟩
        refine ⟨⟨at_, hrevoked, fun x hx => ?_⟩, fun q hit heq => ?_⟩
        · cases hx
          exact ⟨hlive, huser.symm⟩
        · cases heq
          rw [hsome]
          exact iff_of_true rfl rfl
      · rintro ⟨⟨at', heq, hfine⟩, -⟩
        rw [hrevoked] at heq
        cases heq
        obtain ⟨hlive, huser⟩ := hfine t rfl
        exact ⟨hlive, huser.symm⟩
  | audited hphase =>
    cases hphase
    rw [append_nil] at hentries
    rw [fine_done rfl]
    unfold Fine MeetsCall Atomic
    rw [hentries]
    exact (and_true _).symm.to_iff
  | died =>
    rw [append_nil] at hentries
    rw [fine_done rfl]
    cases current with
    | arrived p =>
      refine iff_of_true (.inl (hentries.trans hshape)) ⟨hshape, fun q hit heq => ?_⟩
      cases heq
    | revoked p hit =>
      obtain ⟨at_, hrevoked⟩ := hshape
      rw [hrevoked] at hentries
      cases hit with
      | none =>
        refine iff_of_true (.inl hentries)
          ⟨⟨at_, hrevoked, fun t ht => by cases ht⟩, fun q hit heq => ?_⟩
        cases heq
        rfl
      | some t =>
        refine iff_of_false (not_atomic_revoked hentries) ?_
        rintro ⟨-, hmeets⟩
        cases hmeets p (some t) rfl
    | created | answered | died =>
      unfold Fine Atomic
      rw [hentries]
      exact ⟨fun h => ⟨h, fun q hit heq => by cases heq⟩, And.left⟩

theorem shape_done (h : phase.done = true) : Shape w k { c with phase } := by
  unfold Shape
  cases phase with
  | arrived p => cases h
  | revoked p hit => cases h
  | _ => trivial

theorem shape_move (hshape : Shape w k c) (hmoves : Moves digest w k c a phase new)
    (hentries : entries w' k = entries w k ++ new) : Shape w' k { c with phase } := by
  cases hmoves with
  | revoked hphase =>
    unfold Shape at hshape ⊢
    rw [hphase] at hshape
    dsimp only at hshape ⊢
    rw [hentries, hshape]
    exact ⟨w.now, rfl⟩
  | created _ _ hdone => exact shape_done hdone
  | unrevoked | lost | uncreated | audited | died => exact shape_done rfl

/-- Only the entries of a rotation matter to it. -/
theorem shape_congr (h : entries w' k = entries w k) : Shape w' k c ↔ Shape w k c := by
  unfold Shape
  rw [h]

theorem fine_congr (h : entries w' k = entries w k) : Fine w' k c ↔ Fine w k c := by
  unfold Fine Atomic
  rw [h]

theorem shape_of_fine (h : Fine w k c) : Shape w k c := by
  unfold Fine at h
  unfold Shape
  cases hphase : c.phase with
  | arrived p =>
    rw [hphase] at h
    exact h
  | revoked p hit =>
    rw [hphase] at h
    obtain ⟨at_, hentries, -⟩ := h
    exact ⟨at_, hentries⟩
  | _ => trivial

theorem allShaped_step (h : AllShaped w) (hstep : exec digest w a = some w') : AllShaped w' := by
  rcases exec_cases hstep with ⟨-, hlog, -, hcalls⟩ |
    ⟨k, c, phase, new, hk, hmoves, hcalls, hlog, -⟩
  · have hentries : ∀ j, entries w' j = entries w j := fun j => by
      unfold entries
      rw [hlog]
    rcases hcalls with hcalls | ⟨principal, target, hcalls⟩
    · refine ⟨fun j c hj => ?_, ?_⟩
      · rw [hcalls] at hj
        exact (shape_congr (hentries j)).2 (h.1 j c hj)
      · rw [hlog, hcalls]
        exact h.2
    · refine ⟨fun j c hj => ?_, ?_⟩
      · rw [hcalls] at hj
        rcases Nat.lt_or_ge j w.calls.length with hlt | hge
        · rw [getElem?_append_left hlt] at hj
          exact (shape_congr (hentries j)).2 (h.1 j c hj)
        · obtain ⟨rfl, rfl⟩ := getElem?_snoc hge hj
          exact shape_of_fine (fine_arrival ((hentries _).trans (entries_fresh h.2)))
      · intro x hx
        rw [hlog] at hx
        rw [hcalls, length_append]
        exact Nat.lt_add_right _ (h.2 x hx)
  · have hnew := call_of_moves hmoves
    refine ⟨fun j d hj => ?_, ?_⟩
    · rw [hcalls] at hj
      rcases getElem?_set_cases hj with ⟨rfl, rfl⟩ | ⟨hne, hj⟩
      · exact shape_move (h.1 j c hk) hmoves (entries_self hlog hnew)
      · exact (shape_congr (entries_other hlog hnew hne)).2 (h.1 j d hj)
    · intro x hx
      rw [hlog, mem_append] at hx
      rw [hcalls, length_set]
      rcases hx with hx | hx
      · exact h.2 x hx
      · rw [hnew x hx]
        exact (List.getElem?_eq_some_iff.1 hk).1

/-- After a step all rotations are fine exactly if they were before and the step meets its
condition. -/
theorem allFine_step (h : AllShaped w) (hstep : exec digest w a = some w') :
    AllFine w' ↔ AllFine w ∧ Meets digest w a := by
  rcases exec_cases hstep with ⟨hcall, hlog, -, hcalls⟩ |
    ⟨k, c, phase, new, hk, hmoves, hcalls, hlog, -⟩
  · have hentries : ∀ j, entries w' j = entries w j := fun j => by
      unfold entries
      rw [hlog]
    have hmeets : Meets digest w a := by
      intro k c hk
      rw [hcall] at hk
      cases hk
    rw [and_iff_left hmeets]
    rcases hcalls with hcalls | ⟨principal, target, hcalls⟩
    · unfold AllFine
      rw [hcalls]
      exact forall₂_congr fun j c => imp_congr_right fun _ => fine_congr (hentries j)
    · constructor
      · intro hfine j c hj
        refine (fine_congr (hentries j)).1 (hfine j c ?_)
        rw [hcalls, getElem?_append_left (List.getElem?_eq_some_iff.1 hj).1, hj]
      · intro hfine j c hj
        rw [hcalls] at hj
        rcases Nat.lt_or_ge j w.calls.length with hlt | hge
        · rw [getElem?_append_left hlt] at hj
          exact (fine_congr (hentries j)).2 (hfine j c hj)
        · obtain ⟨rfl, rfl⟩ := getElem?_snoc hge hj
          exact fine_arrival ((hentries _).trans (entries_fresh h.2))
  · have hnew := call_of_moves hmoves
    have hself := fine_move (h.1 k c hk) hmoves (entries_self hlog hnew)
    have hat : w'.calls[k]? = some { c with phase } := by
      rw [hcalls, getElem?_set_self (List.getElem?_eq_some_iff.1 hk).1]
    constructor
    · intro hfine
      obtain ⟨hfinek, hmeetsk⟩ := hself.1 (hfine k _ hat)
      refine ⟨fun j d hj => ?_, fun j d hcall hj => ?_⟩
      · by_cases hjk : j = k
        · subst hjk
          rw [hk] at hj
          cases hj
          exact hfinek
        · refine (fine_congr (entries_other hlog hnew hjk)).1 (hfine j d ?_)
          rw [hcalls, getElem?_set_of_ne hjk, hj]
      · obtain rfl : j = k := Option.some.inj (hcall.symm.trans (action_of_moves hmoves))
        rw [hk] at hj
        cases hj
        exact hmeetsk
    · rintro ⟨hfine, hmeets⟩ j d hj
      rw [hcalls] at hj
      rcases getElem?_set_cases hj with ⟨rfl, rfl⟩ | ⟨hne, hj⟩
      · exact hself.2 ⟨hfine j c hk, hmeets j c (action_of_moves hmoves) hk⟩
      · exact (fine_congr (entries_other hlog hnew hne)).2 (hfine j d hj)

/-! ## Runs -/

theorem allFine_initial {w₀ : World} (h₀ : Initial w₀) : AllShaped w₀ ∧ AllFine w₀ := by
  refine ⟨⟨fun k c hk => ?_, fun x hx => ?_⟩, fun k c hk => ?_⟩
  · rw [h₀.1] at hk
    cases hk
  · rw [h₀.2] at hx
    cases hx
  · rw [h₀.1] at hk
    cases hk

/-- The rotations are fine at the end of a run exactly if all its steps met their condition. -/
theorem allFine_run {ls : List Action} {s t : World} (hrun : (rotationSystem digest).Run s ls t)
    (hshaped : AllShaped s) (hfine : AllFine s) :
    AllFine t ↔ ((rotationSystem digest).restrict (Meets digest)).Run s ls t := by
  induction hrun with
  | nil s => exact iff_of_true hfine (.nil s)
  | @cons s a u ls t hstep hrest ih =>
    have hshaped' := allShaped_step hshaped hstep
    -- a rotation that is not fine stays so
    have hback : AllFine t → AllFine u := by
      refine hrest.relates (I := AllShaped) (R := fun s t => AllFine t → AllFine s)
        (fun _ => id) (fun _ _ _ h h' => h ∘ h') ?_ ?_ hshaped'
      · exact fun s a t hs h => allShaped_step hs h
      · exact fun s a t hs h ht => ((allFine_step hs h).1 ht).1
    constructor
    · intro ht
      have hu := hback ht
      exact .cons ⟨((allFine_step hshaped hstep).1 hu).2, hstep⟩ ((ih hshaped' hu).1 ht)
    · intro hrestricted
      cases hrestricted with
      | cons hstep' hrest' =>
        obtain rfl := deterministic_ofExec Initial (exec digest) _ _ _ _ hstep'.2 hstep
        have hu := (allFine_step hshaped hstep).2 ⟨hfine, hstep'.1⟩
        exact (ih hshaped' hu).2 hrest'

theorem fine_of_done (hdone : c.phase.done = true) : Fine w k c ↔ Atomic w k :=
  fine_done (c := c) hdone

/-- In every run whose steps meet the condition, each rotation that has ended is atomic; in a run
in which all have ended, they are atomic if and only if every step met it. The log tells how the
table was changed. -/
theorem rotation_atomic_iff (digest : String → String) {w₀ w : World} {ls : List Action}
    (h₀ : Initial w₀) (hrun : (rotationSystem digest).Run w₀ ls w) :
    w.tokens.rows = w.log.foldl Change.apply w₀.tokens.rows ∧
      (((rotationSystem digest).restrict (Meets digest)).Run w₀ ls w →
        ∀ k c, w.calls[k]? = some c → c.phase.done = true → Atomic w k) ∧
      ((∀ c ∈ w.calls, c.phase.done = true) →
        ((∀ k c, w.calls[k]? = some c → Atomic w k) ↔
          ((rotationSystem digest).restrict (Meets digest)).Run w₀ ls w)) := by
  obtain ⟨hshaped, hfine⟩ := allFine_initial h₀
  have hiff := allFine_run hrun hshaped hfine
  refine ⟨rows_eq_log h₀ hrun, fun hmeets k c hk hdone => ?_, fun hended => ?_⟩
  · exact (fine_of_done hdone).1 (hiff.2 hmeets k c hk)
  · rw [← hiff]
    refine forall₂_congr fun k c => imp_congr_right fun hk => ?_
    exact (fine_of_done (hended c (mem_of_getElem? hk))).symm

/-! ### Rotations of one token -/

def sampleDigest (secret : String) : String := "digest:" ++ secret

def administrator (id : Uuid) : AdminPrincipal := ⟨id, "Administrator"⟩

/-- A token of the administrator 1. -/
def ownToken : ApiToken := ⟨5, 1, "digest:first", "first", "initial", none, none⟩

def oneToken : World := ⟨100, .singleton _ ownToken, [], []⟩

/-- One rotation of it by its owner. -/
def ownRotation : List Action :=
  [.arrive (.ok (administrator 1)) 5, .revoke 0 .stored, .create 0 6 "second" .stored, .audit 0]

def afterRotation : World :=
  { now := 100
    tokens := ⟨[{ ownToken with revokedAt := some 100 },
      replacement sampleDigest oneToken (administrator 1) 6 "second"], by decide⟩
    calls := [⟨5, .answered (.ok 6)⟩]
    log := [.revoked 0 ownToken 100,
      .created 0 (replacement sampleDigest oneToken (administrator 1) 6 "second")] }

theorem run_ownRotation :
    (rotationSystem sampleDigest).Run oneToken ownRotation afterRotation :=
  run_of_execAll Initial (exec sampleDigest) (by rfl)

theorem rotation_atomic_iff_own :
    (∀ k c, afterRotation.calls[k]? = some c → Atomic afterRotation k) ↔
      ((rotationSystem sampleDigest).restrict (Meets sampleDigest)).Run oneToken ownRotation
        afterRotation :=
  (rotation_atomic_iff sampleDigest ⟨rfl, rfl⟩ run_ownRotation).2.2 (by decide)

/-- The rotation of a token that does not exist, by the administrator 2. -/
def missingRotation : List Action :=
  [.arrive (.ok (administrator 2)) 9, .revoke 0 .stored, .create 0 6 "second" .stored]

/-- The rotation of the token of another, by the administrator 2. -/
def foreignRotation : List Action :=
  [.arrive (.ok (administrator 2)) 5, .revoke 0 .stored, .create 0 6 "second" .stored]

/-- A rotation whose second statement fails. -/
def failedRotation : List Action :=
  [.arrive (.ok (administrator 1)) 5, .revoke 0 .stored, .create 0 6 "second" .failed]

/-- Two rotations of one token at once. -/
def twoRotations : List Action :=
  [.arrive (.ok (administrator 1)) 5, .arrive (.ok (administrator 1)) 5, .revoke 0 .stored,
    .revoke 1 .stored, .create 0 6 "second" .stored, .create 1 7 "third" .stored]

/-- The changes of a rotation after a run. -/
def changesAfter (ls : List Action) (k : Nat) : Option (List Change) :=
  (execAll (exec sampleDigest) oneToken ls).map (fun w => entries w k)

theorem not_atomic_of_changes {ls : List Action} (changes : List Change)
    (h : changesAfter ls k = some changes) (hne : changes ≠ [])
    (hpair : ∀ t at_ new, changes = [.revoked k t at_, .created k new] →
      t.live at_ = true → new.userId ≠ t.userId) :
    ∃ w, (rotationSystem sampleDigest).Run oneToken ls w ∧ ¬ Atomic w k := by
  obtain ⟨w, hw, hchanges⟩ := Option.map_eq_some_iff.1 h
  refine ⟨w, run_of_execAll Initial _ hw, ?_⟩
  unfold Atomic
  rw [hchanges]
  rintro (hnil | ⟨t, at_, new, heq, hlive, huser⟩)
  · exact hne hnil
  · exact hpair t at_ new heq hlive huser

/-- A token is created for an id that has none; the replacement of another's token belongs to the
caller; a token is revoked without a replacement; and two rotations replace one token twice. -/
theorem rotations_not_atomic :
    (∃ w, (rotationSystem sampleDigest).Run oneToken missingRotation w ∧ ¬ Atomic w 0) ∧
      (∃ w, (rotationSystem sampleDigest).Run oneToken foreignRotation w ∧ ¬ Atomic w 0) ∧
      (∃ w, (rotationSystem sampleDigest).Run oneToken failedRotation w ∧ ¬ Atomic w 0) ∧
      ∃ w, (rotationSystem sampleDigest).Run oneToken twoRotations w ∧ ¬ Atomic w 1 := by
  refine ⟨?_, ?_, ?_, ?_⟩
  · refine not_atomic_of_changes [.created 0
      (replacement sampleDigest oneToken (administrator 2) 6 "second")] rfl (by simp) ?_
    intro t at_ new heq
    cases heq
  · refine not_atomic_of_changes [.revoked 0 ownToken 100, .created 0
      (replacement sampleDigest oneToken (administrator 2) 6 "second")] rfl (by simp) ?_
    intro t at_ new heq _
    cases heq
    decide
  · refine not_atomic_of_changes [.revoked 0 ownToken 100] rfl (by simp) ?_
    intro t at_ new heq
    cases heq
  · refine not_atomic_of_changes [.revoked 1 { ownToken with revokedAt := some 100 } 100,
      .created 1 (replacement sampleDigest oneToken (administrator 1) 7 "third")] rfl (by simp) ?_
    intro t at_ new heq hlive
    cases heq
    cases hlive

end Clawforge.TokenRotation

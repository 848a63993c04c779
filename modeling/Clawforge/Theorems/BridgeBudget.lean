import Clawforge.Kit.SlidingWindow
import Clawforge.Storage.BridgeSessions

/-!
# The budget of the policy bridge

`created_at` is the start of a transaction, the budget is checked once it has the lock, so
live requests may be inserted out of order. The check has no upper end: it counts every
live request stamped after the window's start, those of later starts included. Of the
requests in any window the last one inserted has therefore counted all the others.
-/

namespace Clawforge.Bridge

open Assessments Executions Kit Reputation Table List

variable {pg : Postgres} {N : Nat} {W : Int} {w w' : World} {r new old : RequestRow} {c : Call}
  {f : PlanFacts}

def isBridge (enqueued : List Enqueued) (r : RequestRow) : Bool :=
  enqueued.any (fun e => e.request = r.id)

/-- The requests the bridge inserted, in that order. -/
def bridgeRequests (w : World) : List RequestRow :=
  w.db.executions.requests.rows.filter (isBridge w.enqueued)

def live (r : RequestRow) : Bool := !simulationOnly r.approvalContext

def liveRequests (w : World) : List RequestRow := (bridgeRequests w).filter live

/-- Both active on one source with one action, both live or both simulated. -/
def Rivals (a b : RequestRow) : Prop :=
  activeStatus a.status = true ∧ activeStatus b.status = true ∧ a.actionId = b.actionId ∧
    simulationOnly a.approvalContext = simulationOnly b.approvalContext ∧
    ∃ pseudonym, targetPseudonym a.approvalContext = some pseudonym ∧
      targetPseudonym b.approvalContext = some pseudonym

theorem Rivals.symm {a b : RequestRow} (h : Rivals a b) : Rivals b a := by
  obtain ⟨ha, hb, haction, hsimulated, pseudonym, hpa, hpb⟩ := h
  exact ⟨hb, ha, haction.symm, hsimulated.symm, pseudonym, hpb, hpa⟩

/-- What the lock, the key and the checks are for. -/
structure Bounded (N : Nat) (W : Int) (w : World) : Prop where
  budget : ∀ x : Int,
    ((liveRequests w).filter (fun r => x ≤ (r.createdAt : Int) &&
      (r.createdAt : Int) < x + W * 1000000)).length ≤ N ∧
    ((liveRequests w).filter (fun r => x < (r.createdAt : Int) &&
      (r.createdAt : Int) ≤ x + W * 1000000)).length ≤ N
  single : ∀ e₁ ∈ w.enqueued, ∀ e₂ ∈ w.enqueued,
    e₁.mode = e₂.mode → e₁.decision = e₂.decision → e₁ = e₂
  target : ∀ a ∈ bridgeRequests w, ∀ b ∈ bridgeRequests w, Rivals a b → a = b

/-! ## The invariant -/

/-- The live stamps, in the order of insertion. -/
def stamps (w : World) : List Int := (liveRequests w).map (fun r => (r.createdAt : Int))

/-- What the checks that are done have established for the call that holds the lock. -/
def Checked (N : Nat) (W : Int) (w : World) : Session → Prop
  | .idle => True
  | .waiting c | .planning c => c.params.maxPerWindow = N ∧ c.params.windowSeconds = W
  | .checking c f left =>
    (c.params.maxPerWindow = N ∧ c.params.windowSeconds = W) ∧
    (c.context = planContext c.params c.start f ∧ f.decision.id = c.decisionId) ∧
    (Check.target ∈ left ∨ ∀ r ∈ bridgeRequests w, occupies c f r = false) ∧
    (Check.budget ∈ left ∨ c.params.mode = .simulate ∨
      (since (W * 1000000) (c.start : Int) (stamps w)).length < N)

/-- At most one of two connections has the lock. -/
def Exclusive (s t : Session) : Prop := ¬ (s.holdsLock = true ∧ t.holdsLock = true)

theorem Exclusive.symm (s t : Session) (h : Exclusive s t) : Exclusive t s :=
  fun hst => h ⟨hst.2, hst.1⟩

/-- What the insertions of the bridge have in common. -/
def Bridged (r : RequestRow) : Prop := r.requestedBy = "policy-bridge" ∧ r.maxRetries = 0

structure Counted (N : Nat) (W : Int) (w : World) : Prop where
  stored : ∀ e ∈ w.enqueued, ∃ r ∈ w.db.executions.requests, r.id = e.request ∧
    r.idempotencyKey = some (requestKey e.mode e.decision)
  bridged : ∀ r ∈ bridgeRequests w, Bridged r
  admitted : Admitted N (W * 1000000) (stamps w)
  single : ∀ e₁ ∈ w.enqueued, ∀ e₂ ∈ w.enqueued,
    e₁.mode = e₂.mode → e₁.decision = e₂.decision → e₁ = e₂
  target : ∀ a ∈ bridgeRequests w, ∀ b ∈ bridgeRequests w, Rivals a b → a.id = b.id
  holder : Apart Exclusive w.sessions
  checked : ∀ (k : Nat) (s : Session), w.sessions[k]? = some s → Checked N W w s

theorem mem_of_bridge (h : r ∈ bridgeRequests w) : r ∈ w.db.executions.requests :=
  (mem_filter.1 h).1

theorem Counted.bounded (h : Counted N W w) : Bounded N W w where
  budget := by
    intro x
    have count : ∀ I : Int → Bool, Narrow (W * 1000000) I →
        ((liveRequests w).filter (fun r => I (r.createdAt : Int))).length ≤ N := by
      intro I hI
      have hle := h.admitted.length_filter_le hI
      unfold stamps at hle
      rwa [List.filter_map, length_map] at hle
    exact ⟨count _ (narrow_Ico _ x), count _ (narrow_Ioc _ x)⟩
  single := h.single
  target := by
    intro a ha b hb hrivals
    exact eq_of_key_eq (mem_of_bridge ha) (mem_of_bridge hb) (h.target a ha b hb hrivals)

theorem counted_init (h : Initial w) : Counted N W w := by
  obtain ⟨henq, n, hsessions⟩ := h
  have hnone : bridgeRequests w = [] := by
    unfold bridgeRequests isBridge
    rw [henq]
    simp
  constructor
  case stored =>
    intro e he
    rw [henq] at he
    exact absurd he not_mem_nil
  case bridged =>
    intro r hr
    rw [hnone] at hr
    exact absurd hr not_mem_nil
  case admitted =>
    unfold stamps liveRequests
    rw [hnone]
    exact .nil
  case single =>
    intro e he
    rw [henq] at he
    exact absurd he not_mem_nil
  case target =>
    intro a ha
    rw [hnone] at ha
    exact absurd ha not_mem_nil
  case holder =>
    rw [hsessions]
    exact apart_replicate (fun hlock => absurd hlock.1 (by decide)) n
  case checked =>
    intro k s hk
    rw [hsessions] at hk
    rw [eq_of_mem_replicate (mem_of_getElem? hk)]
    trivial

/-! ## Requests that move on -/

/-- The only edge out of an inactive status is a retry. -/
theorem active_or_retried (h : transitionAllowed old new = true) :
    activeStatus old.status = true ∨
      (new.retryCount = old.retryCount + 1 ∧ new.retryCount ≤ new.maxRetries) := by
  unfold transitionAllowed at h
  cases hold : old.status with
  | failed =>
    right
    rw [hold] at h
    cases hnew : new.status <;> rw [hnew] at h
    case queued => simpa using h
    all_goals cases h
  | success | completed | timeout | cancelled =>
    rw [hold] at h
    cases h
  | _ => exact .inl rfl

/-- A bridge request has no retries, so one that is no longer active stays so. -/
theorem active_of_moved (h : Moved old new) (hold : Bridged old)
    (hactive : activeStatus new.status = true) : activeStatus old.status = true := by
  rcases h with rfl | ⟨-, -, hsame, hstatus | hedge⟩
  · exact hactive
  · rw [hstatus]
    exact hactive
  · have hretries : new.maxRetries = 0 := hsame.2.2.2.2.2.2.1.symm.trans hold.2
    rcases active_or_retried hedge with hactive | ⟨hcount, hle⟩
    · exact hactive
    · omega

theorem Bridged.moved (hold : Bridged old) (h : Moved old new) : Bridged new :=
  ⟨h.context.2.2.2.1.symm.trans hold.1, h.context.2.2.2.2.2.2.1.symm.trans hold.2⟩

theorem occupies_of_moved (h : Moved old new) (hold : Bridged old) (hnew : occupies c f new = true) :
    occupies c f old = true := by
  unfold occupies at hnew ⊢
  rw [h.approvalContext] at hnew
  simp only [Bool.and_eq_true, decide_eq_true_eq] at hnew ⊢
  obtain ⟨⟨⟨haction, hpseudonym⟩, hactive⟩, hsimulated⟩ := hnew
  exact ⟨⟨⟨h.context.1.trans haction, hpseudonym⟩, active_of_moved h hold hactive⟩, hsimulated⟩

theorem rivals_of_moved {a a' b b' : RequestRow} (ha : Moved a a') (hb : Moved b b')
    (hba : Bridged a) (hbb : Bridged b) (h : Rivals a' b') : Rivals a b := by
  obtain ⟨hactive, hactive', haction, hsimulated, pseudonym, hp, hp'⟩ := h
  rw [ha.approvalContext] at hsimulated hp
  rw [hb.approvalContext] at hsimulated hp'
  refine ⟨active_of_moved ha hba hactive, active_of_moved hb hbb hactive', ?_, hsimulated,
    pseudonym, hp, hp'⟩
  exact ha.context.1.trans (haction.trans hb.context.1.symm)

/-! ## Steps that insert no bridge request -/

/-- The bridge's requests stay, each as it was or moved on. -/
structure Kept (w w' : World) : Prop where
  enqueued : w'.enqueued = w.enqueued
  stamps : stamps w' = stamps w
  rows : ∀ r ∈ w.db.executions.requests, ∃ r' ∈ w'.db.executions.requests, Moved r r'
  moved : ∀ r' ∈ bridgeRequests w', ∃ r ∈ bridgeRequests w, Moved r r'

theorem Kept.checked (hkept : Kept w w') (hbridged : ∀ r ∈ bridgeRequests w, Bridged r)
    {s : Session} (h : Checked N W w s) : Checked N W w' s := by
  cases s with
  | idle => trivial
  | waiting c => exact h
  | planning c => exact h
  | checking c f left =>
    obtain ⟨hparams, hplan, htarget, hbudget⟩ := h
    refine ⟨hparams, hplan, htarget.imp_right (fun hfree r' hr' => ?_), ?_⟩
    · obtain ⟨r, hr, hmoved⟩ := hkept.moved r' hr'
      rw [← Bool.not_eq_true]
      intro hoccupies
      have hbefore := occupies_of_moved hmoved (hbridged r hr) hoccupies
      rw [hfree r hr] at hbefore
      cases hbefore
    · rwa [hkept.stamps]

theorem Counted.kept (h : Counted N W w) (hkept : Kept w w') (hs : w'.sessions = w.sessions) :
    Counted N W w' := by
  constructor
  case stored =>
    intro e he
    rw [hkept.enqueued] at he
    obtain ⟨r, hr, hid, hkey⟩ := h.stored e he
    obtain ⟨r', hr', hmoved⟩ := hkept.rows r hr
    exact ⟨r', hr', hmoved.id.trans hid, hmoved.context.2.2.2.2.2.1.symm.trans hkey⟩
  case bridged =>
    intro r' hr'
    obtain ⟨r, hr, hmoved⟩ := hkept.moved r' hr'
    exact (h.bridged r hr).moved hmoved
  case admitted => exact hkept.stamps ▸ h.admitted
  case single => exact hkept.enqueued ▸ h.single
  case target =>
    intro a' ha' b' hb' hrivals
    obtain ⟨a, ha, hma⟩ := hkept.moved a' ha'
    obtain ⟨b, hb, hmb⟩ := hkept.moved b' hb'
    rw [hma.id, hmb.id]
    exact h.target a ha b hb
      (rivals_of_moved hma hmb (h.bridged a ha) (h.bridged b hb) hrivals)
  case holder => exact hs ▸ h.holder
  case checked =>
    intro k s hk
    rw [hs] at hk
    exact hkept.checked h.bridged (h.checked k s hk)

theorem kept_outside (w : World) (db : BridgeDb) :
    Kept w { w with db := { db with executions :=
      { db.executions with requests := w.db.executions.requests } } } where
  enqueued := rfl
  stamps := rfl
  rows := fun r hr => ⟨r, hr, .inl rfl⟩
  moved := fun r hr => ⟨r, hr, .inl rfl⟩

/-- An id that was free is no bridge request's. -/
theorem not_isBridge
    (hstored : ∀ e ∈ w.enqueued, ∃ r ∈ w.db.executions.requests, r.id = e.request ∧
      r.idempotencyKey = some (requestKey e.mode e.decision))
    (hfree : ∀ x ∈ w.db.executions.requests, x.id ≠ r.id) : isBridge w.enqueued r = false := by
  rw [← Bool.not_eq_true]
  intro hbridge
  obtain ⟨e, he, hid⟩ := List.any_eq_true.1 hbridge
  obtain ⟨x, hx, hxid, -⟩ := hstored e he
  exact hfree x hx (hxid.trans (of_decide_eq_true hid))

theorem kept_insert (h : Counted N W w) {now : Instant} {executions : Db}
    (hi : insertRequest w.db.executions now r = some executions) :
    Kept w { w with db := { w.db with executions := executions } } := by
  obtain ⟨-, -, T, hT, rfl⟩ := insertRequest_eq_some hi
  have hother := not_isBridge h.stored (fun x hx => key_ne_of_insert? hT hx)
  have hsame : bridgeRequests { w with db :=
      { w.db with executions := { w.db.executions with requests := T } } } = bridgeRequests w := by
    unfold bridgeRequests
    simp [rows_insert? hT, filter_append, hother]
  constructor
  case enqueued => rfl
  case stamps =>
    unfold stamps liveRequests
    rw [hsame]
  case rows => exact fun x hx => ⟨x, (mem_insert? hT).2 (.inl hx), .inl rfl⟩
  case moved =>
    intro x hx
    rw [hsame] at hx
    exact ⟨x, hx, .inl rfl⟩

/-- Rows may be updated before or after a selection that the update does not affect. -/
theorem filter_map_of_kept {α : Type} {g : α → α} {q : α → Bool} {l : List α}
    (h : ∀ a ∈ l, q (g a) = q a) : (l.map g).filter q = (l.filter q).map g := by
  rw [List.filter_map]
  congr 1
  exact filter_congr h

theorem kept_update {now : Instant} {executions : Db}
    (hu : updateRequest w.db.executions now r = some executions) :
    Kept w { w with db := { w.db with executions := executions } } := by
  obtain ⟨T, rfl, hrows, hmoved⟩ := updateRequest_eq_some hu
  have hbridge : bridgeRequests { w with db :=
      { w.db with executions := { w.db.executions with requests := T } } } =
        (bridgeRequests w).map (fun x => if x.id = r.id then r else x) := by
    show T.rows.filter _ = _
    rw [hrows]
    apply filter_map_of_kept
    intro x hx
    unfold isBridge
    rw [(hmoved x hx).id]
  constructor
  case enqueued => rfl
  case stamps =>
    unfold stamps liveRequests
    rw [hbridge, filter_map_of_kept, List.map_map]
    · apply map_congr_left
      intro x hx
      have hstored := mem_of_bridge (mem_filter.1 hx).1
      exact congrArg Nat.cast (hmoved x hstored).createdAt
    · intro x hx
      unfold live
      rw [(hmoved x (mem_of_bridge hx)).approvalContext]
  case rows =>
    intro x hx
    refine ⟨_, ?_, hmoved x hx⟩
    rw [Table.mem_def, hrows]
    exact List.mem_map.2 ⟨x, hx, rfl⟩
  case moved =>
    intro x' hx'
    rw [hbridge] at hx'
    obtain ⟨x, hx, rfl⟩ := List.mem_map.1 hx'
    exact ⟨x, hx, hmoved x (mem_of_bridge hx)⟩

/-! ## Steps of a call -/

/-- A slot may be overwritten by a call that knows what its checks have established, and
that has the lock only where the slot had it or no other has. -/
theorem Counted.set (h : Counted N W w) {k : Nat} {s : Session} (hs : Checked N W w s)
    (hlock : s.holdsLock = true →
      (∃ s₀, w.sessions[k]? = some s₀ ∧ s₀.holdsLock = true) ∨
        ∀ t ∈ w.sessions, t.holdsLock = false) :
    Counted N W { w with sessions := w.sessions.set k s } := by
  constructor
  case stored => exact h.stored
  case bridged => exact h.bridged
  case admitted => exact h.admitted
  case single => exact h.single
  case target => exact h.target
  case holder =>
    refine h.holder.set Exclusive.symm (fun j t hj ht hboth => ?_)
    rcases hlock hboth.1 with ⟨s₀, hs₀, hheld⟩ | hnone
    · exact h.holder k j s₀ t hj.symm hs₀ ht ⟨hheld, hboth.2⟩
    · have hfree := hnone t (mem_of_getElem? ht)
      rw [hboth.2] at hfree
      cases hfree
  case checked =>
    intro j t ht
    rcases getElem?_set_cases ht with ⟨-, rfl⟩ | ⟨-, ht⟩
    · exact hs
    · exact h.checked j t ht

theorem free_of_passed (hpass : Check.stops w.db c f .target = none) :
    ∀ r ∈ bridgeRequests w, occupies c f r = false := by
  intro r hr
  rw [← Bool.not_eq_true]
  intro hoccupies
  have hany : w.db.executions.requests.rows.any (occupies c f) = true :=
    List.any_eq_true.2 ⟨r, mem_of_bridge hr, hoccupies⟩
  simp only [Check.stops, hany, if_true, rejected] at hpass
  cases hpass

section

variable (hbridged : ∀ r ∈ bridgeRequests w, Bridged r)
include hbridged

/-- What the live requests of the bridge after the start of the window have spent is part of
what the check counts. -/
theorem length_since_le (hlive : c.params.mode ≠ .simulate) :
    (since (c.params.windowSeconds * 1000000) (c.start : Int) (stamps w)).length ≤
      (w.db.executions.requests.rows.filter (spends c)).length := by
  unfold since stamps liveRequests bridgeRequests
  rw [List.filter_map, length_map, List.filter_filter, List.filter_filter,
    ← countP_eq_length_filter, ← countP_eq_length_filter]
  apply countP_mono_left
  intro r hr hcounted
  simp only [Function.comp_apply, Bool.and_eq_true, decide_eq_true_eq, live,
    Bool.not_eq_true'] at hcounted
  obtain ⟨⟨hafter, hsimulated⟩, hbridge⟩ := hcounted
  have hby := (hbridged r (mem_filter.2 ⟨hr, hbridge⟩)).1
  unfold spends windowStart
  simp [hby, hafter, hlive, hsimulated]

theorem room_of_passed (hparams : c.params.maxPerWindow = N ∧ c.params.windowSeconds = W)
    (hpass : Check.stops w.db c f .budget = none) :
    c.params.mode = .simulate ∨
      (since (W * 1000000) (c.start : Int) (stamps w)).length < N := by
  by_cases hmode : c.params.mode = .simulate
  · exact .inl hmode
  · right
    have hle := length_since_le hbridged hmode
    rw [hparams.2] at hle
    simp only [Check.stops, rejected] at hpass
    split at hpass
    · cases hpass
    · omega

/-- A passed check is established; the others stay as they are. -/
theorem checked_of_passed {check : Check} {left : List Check}
    (h : Checked N W w (.checking c f (check :: left))) (hpass : check.stops w.db c f = none) :
    Checked N W w (.checking c f left) := by
  obtain ⟨hparams, hplan, htarget, hbudget⟩ := h
  refine ⟨hparams, hplan, ?_, ?_⟩
  · rcases htarget with hleft | hfree
    · rcases mem_cons.1 hleft with rfl | hleft
      · exact .inr (free_of_passed hpass)
      · exact .inl hleft
    · exact .inr hfree
  · rcases hbudget with hleft | hroom
    · rcases mem_cons.1 hleft with rfl | hleft
      · exact .inr (room_of_passed hbridged hparams hpass)
      · exact .inl hleft
    · exact .inr hroom

end

theorem counted_statement (h : Counted N W w) {k : Nat}
    (hstep : exec pg N W w (.statement k) = some w') : Counted N W w' := by
  obtain ⟨s, s', hk, rfl, hcase⟩ := statement_eq_some hstep
  have hs := h.checked k s hk
  rcases hcase with rfl | ⟨c, f, rfl, rfl, hplan⟩ | ⟨c, f, check, left, rfl, rfl, hpass⟩
  · exact h.set trivial (fun hlock => absurd hlock (by decide))
  · obtain ⟨hfacts, hcontext⟩ := replan_eq_some hplan
    refine h.set ⟨hs, ⟨hcontext, key_of_get? (planFacts_ok hfacts).1⟩, ?_, ?_⟩
      (fun _ => .inl ⟨_, hk, rfl⟩)
    · exact .inl (by simp [checksOf])
    · exact .inl (by simp [checksOf])
  · exact h.set (checked_of_passed h.bridged hs hpass) (fun _ => .inl ⟨_, hk, rfl⟩)

/-! ## Commits -/

/-- An insertion of the bridge comes behind its earlier ones. -/
theorem bridgeRequests_commit {new : Uuid} {T : Table RequestRow.id}
    (hT : w.db.executions.requests.insert? (bridgeRequest c f new) = some T) :
    T.rows.filter (isBridge (⟨new, c.params.mode, c.decisionId⟩ :: w.enqueued)) =
      bridgeRequests w ++ [bridgeRequest c f new] := by
  have hold : ∀ r ∈ w.db.executions.requests.rows,
      isBridge (⟨new, c.params.mode, c.decisionId⟩ :: w.enqueued) r = isBridge w.enqueued r := by
    intro r hr
    have hid : ¬ new = r.id := fun h => key_ne_of_insert? hT hr h.symm
    unfold isBridge
    rw [any_cons, decide_eq_false hid, Bool.false_or]
  have hnew : isBridge (⟨new, c.params.mode, c.decisionId⟩ :: w.enqueued)
      (bridgeRequest c f new) = true := by
    simp [isBridge, bridgeRequest]
  rw [rows_insert? hT, filter_append, filter_congr hold]
  simp [hnew, bridgeRequests]

/-- A request that would rival the new one was found by the check. -/
theorem occupies_of_rivals {new : Uuid} (hcontext : c.context = planContext c.params c.start f)
    (h : Rivals r (bridgeRequest c f new)) : occupies c f r = true := by
  obtain ⟨hactive, -, haction, hsimulated, pseudonym, hp, hp'⟩ := h
  change targetPseudonym c.context = some pseudonym at hp'
  change simulationOnly r.approvalContext = simulationOnly c.context at hsimulated
  rw [hcontext, targetPseudonym_planContext] at hp'
  rw [hcontext, simulationOnly_planContext] at hsimulated
  change r.actionId = f.action.id at haction
  unfold occupies
  simp [hactive, haction, hsimulated, hp, hp']

theorem counted_commit (h : Counted N W w) {k : Nat} {new : Uuid}
    (hstep : exec pg N W w (.commit k new) = some w') : Counted N W w' := by
  obtain ⟨c, f, executions, hk, hinsert, rfl⟩ := commit_eq_some hstep
  obtain ⟨-, hkeys, T, hT, rfl⟩ := insertRequest_eq_some hinsert
  obtain ⟨hparams, ⟨hcontext, hdecision⟩, htarget, hbudget⟩ := h.checked k _ hk
  have hfree := htarget.resolve_left not_mem_nil
  have hroom := hbudget.resolve_left not_mem_nil
  have hrows := bridgeRequests_commit (c := c) (f := f) hT
  have hkey := hkeys (by simp [bridgeRequest])
  constructor
  case stored =>
    intro e he
    rcases mem_cons.1 he with rfl | he
    · refine ⟨_, (mem_insert? hT).2 (.inr rfl), rfl, ?_⟩
      simp [bridgeRequest, hdecision]
    · obtain ⟨r, hr, hid, hrkey⟩ := h.stored e he
      exact ⟨r, (mem_insert? hT).2 (.inl hr), hid, hrkey⟩
  case bridged =>
    intro r hr
    rw [bridgeRequests, hrows] at hr
    rcases mem_append.1 hr with hr | hr
    · exact h.bridged r hr
    · rw [mem_singleton.1 hr]
      exact ⟨rfl, rfl⟩
  case admitted =>
    have hlive : live (bridgeRequest c f new) = !decide (c.params.mode = .simulate) := by
      show (!simulationOnly c.context) = _
      rw [hcontext, simulationOnly_planContext]
    have hold := h.admitted
    unfold stamps liveRequests bridgeRequests
    rw [hrows, filter_append, map_append]
    by_cases hmode : c.params.mode = .simulate
    · -- a simulation is no live request
      rw [hmode] at hlive
      rw [filter_cons_of_neg (by simp [hlive]), filter_nil, map_nil,
        append_nil]
      exact hold
    · rw [decide_eq_false hmode] at hlive
      rw [filter_cons_of_pos (by simp [hlive]), filter_nil]
      exact hold.entry (hroom.resolve_left hmode)
  case single =>
    have old : ∀ e ∈ w.enqueued, ¬ (e.mode = c.params.mode ∧ e.decision = c.decisionId) := by
      rintro e he ⟨hmode, hdec⟩
      obtain ⟨r, hr, -, hrkey⟩ := h.stored e he
      refine hkey r hr (hrkey.trans ?_)
      rw [hmode, hdec, ← hdecision]
      rfl
    intro e₁ he₁ e₂ he₂ hmode hdec
    rcases mem_cons.1 he₁ with rfl | he₁' <;> rcases mem_cons.1 he₂ with rfl | he₂'
    · rfl
    · exact absurd ⟨hmode.symm, hdec.symm⟩ (old e₂ he₂')
    · exact absurd ⟨hmode, hdec⟩ (old e₁ he₁')
    · exact h.single e₁ he₁' e₂ he₂' hmode hdec
  case target =>
    have old : ∀ r ∈ bridgeRequests w, ¬ Rivals r (bridgeRequest c f new) := by
      intro r hr hrivals
      have hoccupies := occupies_of_rivals hcontext hrivals
      rw [hfree r hr] at hoccupies
      cases hoccupies
    intro a ha b hb hrivals
    rw [bridgeRequests, hrows] at ha hb
    rcases mem_append.1 ha with ha | ha <;> rcases mem_append.1 hb with hb | hb
    · exact h.target a ha b hb hrivals
    · rw [mem_singleton.1 hb] at hrivals
      exact absurd hrivals (old a ha)
    · rw [mem_singleton.1 ha] at hrivals
      exact absurd (Rivals.symm hrivals) (old b hb)
    · rw [mem_singleton.1 ha, mem_singleton.1 hb]
  case holder =>
    exact h.holder.set Exclusive.symm (fun _ _ _ _ hboth => absurd hboth.1 (by decide))
  case checked =>
    intro j t ht
    rcases getElem?_set_cases ht with ⟨-, rfl⟩ | ⟨hj, ht⟩
    · trivial
    · -- the others have no lock, so they have checked nothing
      have hnone : ¬ t.holdsLock = true := fun hheld =>
        h.holder j k t _ hj ht hk ⟨hheld, rfl⟩
      cases t with
      | idle => trivial
      | waiting c => exact h.checked j _ ht
      | planning | checking => exact absurd rfl hnone

/-! ## Every run -/

theorem counted_step (h : Counted N W w) (a : Action) (hstep : exec pg N W w a = some w') :
    Counted N W w' := by
  cases a with
  | call k c =>
    obtain ⟨hmax, hwindow, rfl | rfl⟩ := call_eq_some hstep
    · exact h
    · exact h.set ⟨hmax, hwindow⟩ (fun hlock => nomatch hlock)
  | lock k =>
    obtain ⟨c, hk, hnone, rfl⟩ := lock_eq_some hstep
    have hparams : Checked N W w (.planning c) := h.checked k (.waiting c) hk
    exact h.set hparams (fun _ => .inr hnone)
  | statement k => exact counted_statement h hstep
  | commit k new => exact counted_commit h hstep
  | abort k =>
    cases hstep
    exact h.set trivial (fun hlock => absurd hlock (by decide))
  | insert now r =>
    obtain ⟨executions, hi, rfl⟩ := Option.map_eq_some_iff.1 hstep
    exact h.kept (kept_insert h hi) rfl
  | update now r =>
    obtain ⟨executions, hu, rfl⟩ := Option.map_eq_some_iff.1 hstep
    exact h.kept (kept_update hu) rfl
  | outside db =>
    cases hstep
    exact h.kept (kept_outside w db) rfl

theorem counted_inductive (pg : Postgres) (N : Nat) (W : Int) :
    (bridgeSystem pg N W).Inductive (Counted N W) where
  init := fun _ => counted_init
  step := fun _ a _ h hstep => counted_step h a hstep

/-- In every reachable state no window of `W` seconds has more than `N` live requests of the
bridge, a mode and a decision have one request, and a target has one active one. -/
theorem bridge_bounded (pg : Postgres) (N : Nat) (W : Int) :
    (bridgeSystem pg N W).Invariant (Bounded N W) :=
  fun w hw => ((counted_inductive pg N W).invariant w hw).bounded

end Clawforge.Bridge

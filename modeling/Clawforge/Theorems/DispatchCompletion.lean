import Clawforge.Storage.ExecutionDispatch
import Mathlib

/-!
# Completions after the claim is gone

No call of a completion names the claim it is made for, so a worker whose lease has expired
completes the request for whoever has claimed it since. What keeps such a late call from doing
harm is the status it finds alone: the store refuses an update the status graph does not have.
-/

namespace Clawforge.Executions

open Kit TSys List Option

/-! ## The property -/

/-- The next call of a completion is accepted at this status. -/
def Accepts (status : Option Status) : Stage → Prop
  | .working => ∃ x ∈ status, executionStatusTransitionAllowed x .running = true
  | .marking terminal => ∃ x ∈ status, executionStatusTransitionAllowed x terminal.status = true
  | .releasing | .ended => True

/-- The call sets no terminal status, leaves an active lease, and lets the later claim be
completed if it could be before. -/
structure LateCall.Harmless (c : LateCall) : Prop where
  status : c.status' ≠ c.status → ∀ x ∈ c.status', x.finishes = false
  lease : c.lease = some .active → c.lease' = some .active
  holder : Accepts c.status c.holder → Accepts c.status' c.holder

/-- Late completions have done no harm. -/
def LateHarmless (w : World) : Prop := ∀ c ∈ w.late, c.Harmless

/-- What a late call finds when it does harm: at its first call the later claim is not yet
completed, at its second the status still admits it, at its third the lease is active. -/
def Interferes (s : Store) (d b : Dispatch) : Prop :=
  match d.stage with
  | .working => s.statusOf d.request = some .starting ∧ b.stage = .working
  | .marking terminal =>
    ∃ x ∈ s.statusOf d.request, executionStatusTransitionAllowed x terminal.status = true
  | .releasing => d.worker ≠ none ∧ s.leaseOf d.request = some .active
  | .ended => False

/-- The action is no late call that interferes. -/
def KeepsOff (w : World) : Action → Prop
  | .complete i _ _ _ _ => ∀ d ∈ w.dispatches[i]?, d.reclaimed = true →
      ∀ b ∈ successor w.dispatches i d.request, ¬ Interferes w.store d b
  | _ => True

/-! ## One call -/

theorem allowed_running {x : Status} :
    executionStatusTransitionAllowed x .running = true ↔ x = .starting := by
  cases x <;> simp [executionStatusTransitionAllowed]

theorem finishes_completion (terminal : Completion) : terminal.status.finishes = true := by
  cases terminal <;> rfl

theorem completion_ne {x : Status} {terminal : Completion}
    (h : executionStatusTransitionAllowed x terminal.status = true) : terminal.status ≠ x := by
  rintro rfl
  cases terminal <;> cases h

/-- A status update as the completions make it: accepted where the graph has it, and without
effect otherwise. -/
theorem statusUpdate_cases (s : Store) (now : Instant) (id : Uuid) (next : Status)
    (result error : Option String)
    (hnext : next ≠ .waitingApproval ∧ next ≠ .pending ∧ next ≠ .approved)
    (hfailed : executionStatusTransitionAllowed .failed next = false) :
    ((∃ x ∈ s.statusOf id, executionStatusTransitionAllowed x next = true) ∧
      ∃ db, updateExecutionStatus s.db now id next result error = .ok db ∧
        Store.statusOf { s with db := db } id = some next) ∨
    (¬ (∃ x ∈ s.statusOf id, executionStatusTransitionAllowed x next = true) ∧
      ∃ e, updateExecutionStatus s.db now id next result error = .error e) := by
  unfold Store.statusOf
  cases hr : s.db.requests.get? id with
  | none =>
    refine Or.inr ⟨?_, .notAvailable, ?_⟩
    · rintro ⟨x, hx, -⟩
      cases hx
    · unfold updateExecutionStatus
      rw [if_neg (not_or.2 ⟨hnext.1, hnext.2.1⟩), hr]
  | some r =>
    by_cases hallowed : executionStatusTransitionAllowed r.status next = true
    · have hne : r.status ≠ .failed := by
        intro heq
        rw [heq, hfailed] at hallowed
        cases hallowed
      obtain ⟨db, hdb, hget⟩ : ∃ db, updateExecutionStatus s.db now id next result error = .ok db ∧
          db.requests.get? id = some (statusRow now next result error r) :=
        updateExecutionStatus_ok hr hnext hne hallowed
      refine Or.inl ⟨⟨r.status, rfl, hallowed⟩, db, hdb, ?_⟩
      show (db.requests.get? id).map RequestRow.status = some next
      rw [hget]
      rfl
    · refine Or.inr ⟨?_, updateExecutionStatus_error hr hallowed⟩
      rintro ⟨x, hx, hx'⟩
      cases hx
      exact hallowed hx'

/-- What there is to see of a request and its lease, on either side of a call. -/
def lateCallOf (b : Dispatch) (s s' : Store) (id : Uuid) : LateCall where
  holder := b.stage
  status := s.statusOf id
  status' := s'.statusOf id
  lease := s.leaseOf id
  lease' := s'.leaseOf id

theorem harmless_same (b : Dispatch) (s : Store) (id : Uuid) :
    (lateCallOf b s s id).Harmless where
  status h := absurd rfl h
  lease h := h
  holder h := h

/-- The first call does harm where the later claim is still to make it. -/
theorem harmless_running {s s' : Store} {id : Uuid} (b : Dispatch)
    (hstatus : s.statusOf id = some .starting) (hstatus' : s'.statusOf id = some .running)
    (hlease : s'.leases = s.leases) : (lateCallOf b s s' id).Harmless ↔ b.stage ≠ .working := by
  constructor
  · intro h hworking
    have hbefore : Accepts (s.statusOf id) b.stage := by
      rw [hworking, hstatus]
      exact ⟨.starting, rfl, rfl⟩
    have hafter : Accepts (s'.statusOf id) b.stage := h.holder hbefore
    rw [hworking, hstatus'] at hafter
    obtain ⟨x, hx, hallowed⟩ := hafter
    cases hx
    cases hallowed
  · intro hne
    refine ⟨fun _ x hx => ?_, fun h => ?_, fun _ => ?_⟩
    · have hrunning : some x = some Status.running := (Option.mem_def.1 hx).symm.trans hstatus'
      cases hrunning
      rfl
    · show (s'.leases.get? id).map LeaseRow.status = some .active
      rw [hlease]
      exact h
    · show Accepts (s'.statusOf id) b.stage
      rw [hstatus']
      cases hstage : b.stage with
      | working => exact absurd hstage hne
      | marking terminal => exact ⟨.running, rfl, by cases terminal <;> rfl⟩
      | releasing | ended => trivial

/-- The second call does harm wherever the store takes it. -/
theorem not_harmless_terminal {s s' : Store} {id : Uuid} {terminal : Completion} {x : Status}
    (b : Dispatch) (hx : x ∈ s.statusOf id)
    (hallowed : executionStatusTransitionAllowed x terminal.status = true)
    (hstatus' : s'.statusOf id = some terminal.status) :
    ¬ (lateCallOf b s s' id).Harmless := by
  intro h
  have hne : s'.statusOf id ≠ s.statusOf id := by
    rw [hstatus', Option.mem_def.1 hx]
    exact fun heq => completion_ne hallowed (some.inj heq)
  have hfinishes := h.status hne terminal.status hstatus'
  rw [finishes_completion] at hfinishes
  cases hfinishes

/-- The third call does harm where it ends an active lease. -/
theorem harmless_release {s : Store} {id : Uuid} (b : Dispatch) :
    (lateCallOf b s (releaseLease s id) id).Harmless ↔ s.leaseOf id ≠ some .active := by
  have hlease : (releaseLease s id).leaseOf id = (s.leaseOf id).map (fun _ => .released) := by
    unfold Store.leaseOf releaseLease
    rw [Table.get?_updateWhere]
    cases hl : s.leases.get? id with
    | none => rfl
    | some l =>
      simp only [map_some]
      rw [if_pos (Table.key_of_get? hl)]
  constructor
  · intro h hactive
    have hafter : (releaseLease s id).leaseOf id = some .active := h.lease hactive
    rw [hlease, hactive] at hafter
    cases hafter
  · intro hne
    exact ⟨fun h => absurd rfl h, fun h => absurd h hne, fun h => h⟩

/-- A call does harm exactly if it interferes. -/
theorem harmless_iff {s s' : Store} {now : Instant} {d b : Dispatch} {terminal : Completion}
    {result error : Option String} {stage : Stage}
    (h : completionCall s now d terminal result error = some (s', stage)) :
    (lateCallOf b s s' d.request).Harmless ↔ ¬ Interferes s d b := by
  unfold completionCall at h
  cases hstage : d.stage with
  | working =>
    simp only [hstage] at h
    simp only [Interferes, hstage]
    rcases statusUpdate_cases s now d.request .running none none (by decide) rfl with
      ⟨⟨x, hx, hallowed⟩, db, hdb, hstatus'⟩ | ⟨hrefused, e, herror⟩
    · rw [markRunning, hdb] at h
      cases h
      have hstarting := allowed_running.1 hallowed
      rw [hstarting] at hx
      rw [harmless_running b hx hstatus' rfl]
      simp [Option.mem_def.1 hx]
    · rw [markRunning, herror] at h
      cases h
      refine ⟨fun _ hno => hrefused ⟨_, hno.1, rfl⟩, fun _ => harmless_same b s d.request⟩
  | marking terminal =>
    simp only [hstage] at h
    simp only [Interferes, hstage]
    rcases statusUpdate_cases s now d.request terminal.status result error
        (by cases terminal <;> decide) (by cases terminal <;> rfl) with
      ⟨⟨x, hx, hallowed⟩, db, hdb, hstatus'⟩ | ⟨hrefused, e, herror⟩
    · rw [markTerminal, hdb] at h
      cases h
      exact ⟨fun hh => absurd hh (not_harmless_terminal b hx hallowed hstatus'),
        fun hno => absurd ⟨x, hx, hallowed⟩ hno⟩
    · rw [markTerminal, herror] at h
      cases h
      exact ⟨fun _ => hrefused, fun _ => harmless_same b s d.request⟩
  | releasing =>
    simp only [hstage] at h
    simp only [Interferes, hstage]
    split at h
    case isTrue hworker =>
      cases h
      rw [harmless_release]
      exact ⟨fun hne hi => hne hi.2, fun hno hactive => hno ⟨hworker, hactive⟩⟩
    case isFalse hworker =>
      cases h
      exact ⟨fun _ hi => hworker hi.1, fun _ => harmless_same b s d.request⟩
  | ended =>
    simp only [hstage] at h
    cases h

/-! ## Every run -/

theorem late_of_ne_complete {w w' : World} {a : Action} (h : exec w a = some w')
    (ha : ∀ i terminal result error now, a ≠ .complete i terminal result error now) :
    w'.late = w.late := by
  cases a with
  | complete i terminal result error now => exact absurd rfl (ha i terminal result error now)
  | insert | claim | maintain | crash =>
    simp only [exec] at h
    obtain ⟨_, _, rfl⟩ := map_eq_some_iff.1 h
    rfl
  | update =>
    simp only [exec] at h
    split at h <;> cases h <;> rfl
  | outside =>
    simp only [exec] at h
    split at h <;> cases h
    rfl

theorem lateHarmless_step {w w' : World} {a : Action} (h : LateHarmless w)
    (hstep : exec w a = some w') : LateHarmless w' ↔ KeepsOff w a := by
  cases a with
  | complete i terminal result error now =>
    simp only [exec] at hstep
    split at hstep
    case h_1 => cases hstep
    case h_2 d hd =>
      obtain ⟨⟨s, stage⟩, hcall, rfl⟩ := map_eq_some_iff.1 hstep
      simp only [KeepsOff, LateHarmless, hd, Option.mem_def, Option.some.injEq,
        forall_eq']
      cases hlate : lateCall w i d s with
      | none =>
        refine ⟨fun _ hre b hb => ?_, fun _ => h⟩
        rw [lateCall, if_pos hre, hb] at hlate
        cases hlate
      | some c =>
        obtain ⟨hre, b, hb, hc⟩ : d.reclaimed = true ∧
            ∃ b, successor w.dispatches i d.request = some b ∧
              c = lateCallOf b w.store s d.request := by
          unfold lateCall at hlate
          split at hlate
          case isFalse => cases hlate
          case isTrue hre =>
            obtain ⟨b, hb, rfl⟩ := map_eq_some_iff.1 hlate
            exact ⟨hre, b, hb, rfl⟩
        simp only [toList_some, cons_append, nil_append,
          forall_mem_cons, hre, hb, Option.some.injEq, forall_eq', true_implies]
        rw [hc, harmless_iff hcall]
        exact ⟨fun hh => hh.1, fun hno => ⟨hno, h⟩⟩
  | _ =>
    refine ⟨fun _ => trivial, fun _ => ?_⟩
    unfold LateHarmless
    rw [late_of_ne_complete hstep (by intro _ _ _ _ _ hne; cases hne)]
    exact h

/-- Along a run late completions do no harm exactly if each finds a status and a lease that
refuse it, or at its first call a claim that is past it. -/
theorem late_harmless_along_iff {w₀ w : World} {as : List Action} (h₀ : Initial w₀)
    (hrun : dispatchSystem.Run w₀ as w) :
    dispatchSystem.Along LateHarmless w₀ as ↔
      (dispatchSystem.restrict KeepsOff).Run w₀ as w := by
  refine hrun.along_iff_restrict (deterministic_ofExec _ _) ?_ (.init h₀) ?_
  · intro s a t _ hs hstep
    exact lateHarmless_step hs hstep
  · intro c hc
    rw [h₀.2] at hc
    cases hc

/-- One pending request, of an action that needs no approval. -/
def onePending : World where
  store :=
    { db :=
        { actions := ⟨[⟨5, "firewall.temporary_block", "low", false, true⟩], by decide⟩
          policies := .empty _
          users := .empty _
          profile := none
          requests := ⟨[
            { id := 7, actionId := 5, workflowRunId := none, decisionId := none
              requestedBy := "operator", requestedById := some 3, status := .pending
              createdAt := 0, startedAt := none, finishedAt := none, resultSummary := none
              errorSummary := none, idempotencyKey := none, requiredApprovals := 0
              approvalExpiresAt := none, approvalContext := .object []
              approvalContextHash := none, retryCount := 0, maxRetries := 3
              timeoutSeconds := 60, nextRetryAt := none }], by decide⟩
          approvals := [] }
      leases := .empty _
      owners := [] }
  dispatches := []
  late := []

/-- Worker 1's lease runs out, worker 2 claims the request, and worker 1 completes it before
worker 2 does. -/
def lateCompletion : List Action :=
  [ .claim (some 1) 0 []
  , .maintain (minutes 3)
  , .claim (some 2) (minutes 3) []
  , .complete 0 .success none none (minutes 3)
  , .complete 0 .success none none (minutes 3)
  , .complete 0 .success none none (minutes 3)
  , .complete 1 .failed none none (minutes 3) ]

/-- Worker 1 makes the request a success and ends worker 2's lease, and the completion of
worker 2 ends at its first call. -/
theorem late_completion_interferes : ¬ dispatchSystem.Invariant LateHarmless := by
  intro h
  have hrun : (execAll exec onePending lateCompletion).map
      (fun w => (w.late, w.dispatches.map Dispatch.stage)) =
      some ([⟨.working, some .success, some .success, some .active, some .released⟩,
          ⟨.working, some .running, some .success, some .active, some .active⟩,
          ⟨.working, some .starting, some .running, some .active, some .active⟩],
        [.ended, .ended]) := by decide_cbv
  obtain ⟨w, hw, hend⟩ := map_eq_some_iff.1 hrun
  have hlate := (Prod.mk.inj hend).1
  have hreach : dispatchSystem.Reachable w :=
    ⟨onePending, lateCompletion, ⟨rfl, rfl⟩, run_of_execAll _ _ hw⟩
  have hharmless := h w hreach _ (by rw [hlate]; exact mem_cons_self)
  have hactive := hharmless.lease rfl
  cases hactive

/-- The store the late completion leaves. -/
def afterLateCompletion : World :=
  (execAll exec onePending lateCompletion).get (by decide_cbv)

theorem late_harmless_along_iff_interferes :
    dispatchSystem.Along LateHarmless onePending lateCompletion ↔
      (dispatchSystem.restrict KeepsOff).Run onePending lateCompletion afterLateCompletion :=
  late_harmless_along_iff ⟨rfl, rfl⟩ (run_of_execAll _ _ (some_get _).symm)

end Clawforge.Executions

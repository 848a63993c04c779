import Clawforge.Storage.WorkflowRuns
import Mathlib

/-!
# Which workflow runs can be approved

A waiting run has an approval of its own where no run is prepared next to another one: not for the
same workflow and decision, and not, if it waits, for a decision that another run waits with. An
approval is prepared and consumed by decision only.
-/

namespace Clawforge.Workflows

open Kit TSys Table List Option

variable {w w' : World} {k : Nat} {s : Session} {start : Instant}

/-! ## The property -/

/-- Every workflow has at most one live run for a decision, every waiting run has a pending approval
of its own, the one that approving it chooses, and no transaction consumes another run's. -/
structure Approvable (w : World) : Prop where
  single : ∀ r ∈ w.runs, ∀ r' ∈ w.runs, r.status.live = true → r'.status.live = true →
    r.workflowId = r'.workflowId → r.decisionId = r'.decisionId → r = r'
  own : ∀ r ∈ w.runs, r.status = .waitingApproval → ∃ decision, r.decisionId = some decision ∧
    ∃ a, Latest w decision a ∧ a.run = r.id ∧ ∀ b, Latest w decision b → b = a
  consumes : ∀ s ∈ w.sessions, ∀ c ∈ s.choice, ∀ a ∈ w.approvals, a.id = c.2 → a.run = c.1.id

/-- No run is prepared next to another one: its approval is inserted when its decision has no
pending one, and it is committed when there is no live run of its workflow for its decision and,
if it waits, no other run waits with its decision. -/
def Alone (w : World) : Action → Prop
  | .insert k _ _ => ∀ start input, w.sessions[k]? = some (.preparing start input) →
      input.status = .waitingApproval → ∀ d ∈ input.decisionId, pendingApprovals w d = []
  | .commit k => ∀ run approval audit, w.sessions[k]? = some (.prepared run approval audit) →
      (run.status.live = true → liveRuns w run.workflowId run.decisionId = []) ∧
      (run.status = .waitingApproval →
        ∀ r ∈ w.runs, r.status = .waitingApproval → r.decisionId ≠ run.decisionId)
  | _ => True

/-! ## The invariant -/

/-- A run comes with a pending approval of its own exactly if it waits. -/
def PreparedSound (run : RunRow) : Option ApprovalRow → Prop
  | none => run.status ≠ .waitingApproval
  | some a => run.status = .waitingApproval ∧ run.decisionId = some a.decisionId ∧
      a.run = run.id ∧ a.status = .pending ∧ a.expiresAt = none

/-- What a transaction relies on. -/
structure SessionSound (w : World) (s : Session) : Prop where
  input : ∀ start input, s = .preparing start input → input.status = .waitingApproval →
    input.decisionId ≠ none
  prepared : ∀ run approval audit, s = .prepared run approval audit → PreparedSound run approval
  run : ∀ r ∈ s.run, r ∈ w.runs ∧ r.status = .waitingApproval
  decision : ∀ start run decision by_, s = .locked start run decision by_ →
    run.decisionId = some decision
  choice : ∀ c ∈ s.choice, ∃ a ∈ w.approvals,
    a.id = c.2 ∧ a.status = .pending ∧ a.run = c.1.id

/-- Waiting runs and pending approvals belong together one by one. -/
structure Matched (w : World) : Prop where
  single : ∀ r ∈ w.runs, ∀ r' ∈ w.runs, r.status.live = true → r'.status.live = true →
    r.workflowId = r'.workflowId → r.decisionId = r'.decisionId → r = r'
  waiting : ∀ r ∈ w.runs, ∀ r' ∈ w.runs, r.status = .waitingApproval →
    r'.status = .waitingApproval → r.decisionId = r'.decisionId → r = r'
  own : ∀ r ∈ w.runs, r.status = .waitingApproval → ∃ a ∈ w.approvals,
    a.status = .pending ∧ r.decisionId = some a.decisionId ∧ a.run = r.id
  pending : ∀ a ∈ w.approvals, a.status = .pending → ∃ r ∈ w.runs,
    r.status = .waitingApproval ∧ r.decisionId = some a.decisionId ∧ a.run = r.id
  once : ∀ a ∈ w.approvals, ∀ b ∈ w.approvals, a.status = .pending → b.status = .pending →
    a.decisionId = b.decisionId → a = b
  expires : ∀ a ∈ w.approvals, a.expiresAt = none

/-- Two transactions do not hold the same run. -/
def RunsApart (s s' : Session) : Prop := ∀ r ∈ s.run, ∀ r' ∈ s'.run, r.id ≠ r'.id

structure Sound (w : World) : Prop where
  matched : Matched w
  sessions : ∀ s ∈ w.sessions, SessionSound w s
  apart : Apart RunsApart w.sessions

theorem runsApart_symm (s s' : Session) (h : RunsApart s s') : RunsApart s' s :=
  fun r hr r' hr' => (h r' hr' r hr).symm

theorem mem_pendingApprovals {a : ApprovalRow} {d : Uuid} : a ∈ pendingApprovals w d ↔
    a ∈ w.approvals ∧ a.decisionId = d ∧ a.status = .pending := by
  unfold pendingApprovals
  rw [mem_filter]
  simp [Table.mem_def]

theorem mem_liveRuns {r : RunRow} {workflow : Uuid} {decision : Option Uuid} :
    r ∈ liveRuns w workflow decision ↔
      r ∈ w.runs ∧ r.workflowId = workflow ∧ r.decisionId = decision ∧ r.status.live = true := by
  unfold liveRuns
  rw [mem_filter]
  simp [Table.mem_def, and_assoc]

theorem SessionSound.idle : SessionSound w .idle where
  input _ _ h := by cases h
  prepared _ _ _ h := by cases h
  run r hr := absurd hr (not_mem_none r)
  decision _ _ _ _ h := by cases h
  choice c hc := absurd hc (not_mem_none c)

theorem SessionSound.ofPreparing {input : WorkflowRunInput}
    (h : input.status = .waitingApproval → input.decisionId ≠ none) :
    SessionSound w (.preparing start input) where
  input _ _ hs := by cases hs; exact h
  prepared _ _ _ hs := by cases hs
  run r hr := absurd hr (not_mem_none r)
  decision _ _ _ _ hs := by cases hs
  choice c hc := absurd hc (not_mem_none c)

theorem SessionSound.ofPrepared {run : RunRow} {approval : Option ApprovalRow} {audit : AuditRow}
    (h : PreparedSound run approval) : SessionSound w (.prepared run approval audit) where
  input _ _ hs := by cases hs
  prepared _ _ _ hs := by cases hs; exact h
  run r hr := absurd hr (not_mem_none r)
  decision _ _ _ _ hs := by cases hs
  choice c hc := absurd hc (not_mem_none c)

theorem SessionSound.ofLocked {run : RunRow} {decision : Uuid} {by_ : Approver}
    (hrun : run ∈ w.runs) (hw : run.status = .waitingApproval) (hd : run.decisionId = some decision) :
    SessionSound w (.locked start run decision by_) where
  input _ _ hs := by cases hs
  prepared _ _ _ hs := by cases hs
  run r hr := by cases hr; exact ⟨hrun, hw⟩
  decision _ _ _ _ hs := by cases hs; exact hd
  choice c hc := absurd hc (not_mem_none c)

theorem SessionSound.ofChosen {run : RunRow} {by_ : Approver} {approval : Uuid}
    (hrun : run ∈ w.runs ∧ run.status = .waitingApproval)
    (h : ∃ a ∈ w.approvals, a.id = approval ∧ a.status = .pending ∧ a.run = run.id) :
    SessionSound w (.chosen start run by_ approval) where
  input _ _ hs := by cases hs
  prepared _ _ _ hs := by cases hs
  run r hr := by cases hr; exact hrun
  decision _ _ _ _ hs := by cases hs
  choice c hc := by cases hc; exact h

theorem SessionSound.ofConsuming {run : RunRow} {by_ : Approver} {approval : Uuid}
    (hrun : run ∈ w.runs ∧ run.status = .waitingApproval)
    (h : ∃ a ∈ w.approvals, a.id = approval ∧ a.status = .pending ∧ a.run = run.id) :
    SessionSound w (.consuming start run by_ approval) where
  input _ _ hs := by cases hs
  prepared _ _ _ hs := by cases hs
  run r hr := by cases hr; exact hrun
  decision _ _ _ _ hs := by cases hs
  choice c hc := by cases hc; exact h

/-- The approval that approving a run chooses is its own. -/
theorem Matched.latest (h : Matched w) {r : RunRow} {d : Uuid} {a : ApprovalRow} (hr : r ∈ w.runs)
    (hwaiting : r.status = .waitingApproval) (hd : r.decisionId = some d) (ha : Latest w d a) :
    a.run = r.id := by
  obtain ⟨hmem, hdecision, hpending⟩ := mem_pendingApprovals.1 ha.1
  obtain ⟨x, hx, hxwaiting, hxd, hrun⟩ := h.pending a hmem hpending
  rw [hrun, h.waiting x hx r hr hxwaiting hwaiting (by rw [hxd, hd, hdecision])]

theorem Sound.approvable (h : Sound w) : Approvable w where
  single := h.matched.single
  own r hr hwaiting := by
    obtain ⟨a, ha, hpending, hd, hrun⟩ := h.matched.own r hr hwaiting
    refine ⟨a.decisionId, hd, a, ⟨mem_pendingApprovals.2 ⟨ha, rfl, hpending⟩, ?_⟩, hrun, ?_⟩
    · intro b hb
      obtain ⟨hbmem, hbd, hbpending⟩ := mem_pendingApprovals.1 hb
      rw [h.matched.once b hbmem a ha hbpending hpending hbd]
    · intro b hb
      obtain ⟨hbmem, hbd, hbpending⟩ := mem_pendingApprovals.1 hb.1
      exact h.matched.once b hbmem a ha hbpending hpending hbd
  consumes s hs c hc a ha hid := by
    obtain ⟨b, hb, hbid, -, hbrun⟩ := (h.sessions s hs).choice c hc
    rw [eq_of_key_eq ha hb (hid.trans hbid.symm)]
    exact hbrun

/-! ## Steps -/

/-- A session keeps what it relies on when the tables keep its runs and approvals. -/
theorem SessionSound.mono (h : SessionSound w s)
    (hrun : ∀ r ∈ s.run, r ∈ w.runs → r ∈ w'.runs)
    (happroval : ∀ c ∈ s.choice, ∀ a ∈ w.approvals, a.run = c.1.id → a.status = .pending →
      a ∈ w'.approvals) : SessionSound w' s where
  input := h.input
  prepared := h.prepared
  run r hr := ⟨hrun r hr (h.run r hr).1, (h.run r hr).2⟩
  decision := h.decision
  choice c hc := by
    obtain ⟨a, ha, hid, hpending, harun⟩ := h.choice c hc
    exact ⟨a, happroval c hc a ha harun hpending, hid, hpending, harun⟩

/-- One transaction goes on, and the tables stay. -/
theorem Sound.set (h : Sound w) (hs : SessionSound w s)
    (hapart : ∀ j y, j ≠ k → w.sessions[j]? = some y → RunsApart s y) : Sound (w.set k s) where
  matched := ⟨h.matched.single, h.matched.waiting, h.matched.own, h.matched.pending,
    h.matched.once, h.matched.expires⟩
  sessions x hx := by
    have hx' : SessionSound w x := by
      rcases mem_or_eq_of_mem_set hx with hx | rfl
      · exact h.sessions x hx
      · exact hs
    exact hx'.mono (fun _ _ hr => hr) (fun _ _ _ ha _ _ => ha)
  apart := h.apart.set runsApart_symm hapart

/-- A transaction without a run of its own is apart from all others. -/
theorem runsApart_of_none (hs : s.run = none) (y : Session) : RunsApart s y := by
  intro r hr
  rw [hs] at hr
  cases hr

/-- A transaction that keeps its run is apart from all it was apart from. -/
theorem runsApart_of_eq {s' : Session} (h : Sound w) (hk : w.sessions[k]? = some s)
    (hrun : s'.run = s.run) (j : Nat) (y : Session) (hj : j ≠ k)
    (hy : w.sessions[j]? = some y) : RunsApart s' y := by
  intro r hr
  rw [hrun] at hr
  exact h.apart k j s y (Ne.symm hj) hk hy r hr

theorem approvalOf_sound {input : WorkflowRunInput} {run id : Uuid}
    (hinput : input.status = .waitingApproval → input.decisionId ≠ none)
    (hpending : input.status = .waitingApproval → ∀ d ∈ input.decisionId, pendingApprovals w d = []) :
    PreparedSound (runOf start input run) (approvalOf w start input run id) := by
  unfold approvalOf
  by_cases hstatus : input.status = .waitingApproval
  · obtain ⟨d, hd⟩ := ne_none_iff_exists'.1 (hinput hstatus)
    rw [if_pos hstatus, hd, bind_some, if_pos (hpending hstatus d hd)]
    exact ⟨hstatus, hd, rfl, rfl, rfl⟩
  · rw [if_neg hstatus]
    exact hstatus

/-! ### The commit of a prepared run -/

section Prepared

variable {run : RunRow} {approval : Option ApprovalRow} {audit : AuditRow}

theorem commitPrepared_spec (h : commitPrepared w k run approval audit = some w') :
    (∀ r, r ∈ w'.runs ↔ r ∈ w.runs ∨ r = run) ∧
    (∀ a, a ∈ w'.approvals ↔ a ∈ w.approvals ∨ approval = some a) ∧
    w'.sessions = w.sessions.set k .idle := by
  obtain ⟨runs, hruns, hrest⟩ := bind_eq_some_iff.1 h
  obtain ⟨approvals, happrovals, rfl⟩ := map_eq_some_iff.1 hrest
  refine ⟨fun r => mem_insert? hruns, fun a => ?_, rfl⟩
  cases approval with
  | none =>
    cases happrovals
    simp
  | some b =>
    show a ∈ approvals ↔ _
    rw [mem_insert? happrovals, Option.some.injEq, eq_comm]

theorem Matched.commitPrepared (h : Matched w) (hprepared : PreparedSound run approval)
    (hlive : run.status.live = true → liveRuns w run.workflowId run.decisionId = [])
    (hwaiting : run.status = .waitingApproval →
      ∀ r ∈ w.runs, r.status = .waitingApproval → r.decisionId ≠ run.decisionId)
    (hruns : ∀ r, r ∈ w'.runs ↔ r ∈ w.runs ∨ r = run)
    (happrovals : ∀ a, a ∈ w'.approvals ↔ a ∈ w.approvals ∨ approval = some a) : Matched w' := by
  have hfree : run.status.live = true → ∀ r ∈ w.runs, r.status.live = true →
      r.workflowId = run.workflowId → r.decisionId ≠ run.decisionId := by
    intro hl r hr hrl hwf hd
    have hmem := mem_liveRuns.2 ⟨hr, hwf, hd, hrl⟩
    rw [hlive hl] at hmem
    cases hmem
  -- an approval that is new belongs to the run that is new
  have hnew : ∀ a, approval = some a → run.status = .waitingApproval ∧
      run.decisionId = some a.decisionId ∧ a.run = run.id ∧ a.status = .pending ∧
      a.expiresAt = none := by
    rintro a rfl
    exact hprepared
  have hclash : ∀ a b, a ∈ w.approvals → a.status = .pending → approval = some b →
      a.decisionId ≠ b.decisionId := by
    intro a b ha hpending hb hd
    obtain ⟨r, hr, hrw, hrd, -⟩ := h.pending a ha hpending
    obtain ⟨hrunw, hrund, -⟩ := hnew b hb
    exact hwaiting hrunw r hr hrw (by rw [hrd, hrund, hd])
  constructor
  case single =>
    intro r hr r' hr' hl hl' hwf hd
    rcases (hruns r).1 hr with hr | rfl <;> rcases (hruns r').1 hr' with hr' | rfl
    · exact h.single r hr r' hr' hl hl' hwf hd
    · exact absurd hd (hfree hl' r hr hl hwf)
    · exact absurd hd.symm (hfree hl r' hr' hl' hwf.symm)
    · rfl
  case waiting =>
    intro r hr r' hr' hw hw' hd
    rcases (hruns r).1 hr with hr | rfl <;> rcases (hruns r').1 hr' with hr' | rfl
    · exact h.waiting r hr r' hr' hw hw' hd
    · exact absurd hd (hwaiting hw' r hr hw)
    · exact absurd hd.symm (hwaiting hw r' hr' hw')
    · rfl
  case own =>
    intro r hr hw
    rcases (hruns r).1 hr with hr | rfl
    · obtain ⟨a, ha, hrest⟩ := h.own r hr hw
      exact ⟨a, (happrovals a).2 (.inl ha), hrest⟩
    · cases happ : approval with
      | none =>
        rw [happ] at hprepared
        exact absurd hw hprepared
      | some a =>
        obtain ⟨-, hd, hrun, hpending, -⟩ := hnew a happ
        exact ⟨a, (happrovals a).2 (.inr happ), hpending, hd, hrun⟩
  case pending =>
    intro a ha hpending
    rcases (happrovals a).1 ha with ha | ha
    · obtain ⟨r, hr, hrest⟩ := h.pending a ha hpending
      exact ⟨r, (hruns r).2 (.inl hr), hrest⟩
    · obtain ⟨hw, hd, hrun, -, -⟩ := hnew a ha
      exact ⟨run, (hruns run).2 (.inr rfl), hw, hd, hrun⟩
  case once =>
    intro a ha b hb hpa hpb hd
    rcases (happrovals a).1 ha with ha | ha <;> rcases (happrovals b).1 hb with hb | hb
    · exact h.once a ha b hb hpa hpb hd
    · exact absurd hd (hclash a b ha hpa hb)
    · exact absurd hd.symm (hclash b a hb hpb ha)
    · exact some.inj (ha.symm.trans hb)
  case expires =>
    intro a ha
    rcases (happrovals a).1 ha with ha | ha
    · exact h.expires a ha
    · exact (hnew a ha).2.2.2.2

theorem Sound.commitPrepared (h : Sound w)
    (hk : w.sessions[k]? = some (.prepared run approval audit))
    (halone : Alone w (.commit k)) (hstep : commitPrepared w k run approval audit = some w') :
    Sound w' := by
  obtain ⟨hruns, happrovals, hsessions⟩ := commitPrepared_spec hstep
  have hprepared := (h.sessions _ (mem_of_getElem? hk)).prepared run approval audit rfl
  obtain ⟨hlive, hwaiting⟩ := halone run approval audit hk
  refine ⟨h.matched.commitPrepared hprepared hlive hwaiting hruns happrovals, ?_, ?_⟩
  · intro x hx
    rw [hsessions] at hx
    rcases mem_or_eq_of_mem_set hx with hx | rfl
    · exact (h.sessions x hx).mono (fun r _ hr => (hruns r).2 (.inl hr))
        (fun _ _ a ha _ _ => (happrovals a).2 (.inl ha))
    · exact .idle
  · rw [hsessions]
    exact h.apart.set runsApart_symm (fun _ y _ _ => runsApart_of_none rfl y)

end Prepared

/-! ### The commit of an approval -/

section Approval

variable {start : Instant} {run : RunRow} {by_ : Approver} {approval : Uuid}

theorem mem_runs_commitApproval {r : RunRow} :
    r ∈ (commitApproval w k start run by_ approval).runs ↔
      ∃ x ∈ w.runs, r = if x.id = run.id then approveRun x else x := by
  show r ∈ w.runs.updateWhere (fun x => x.id = run.id) approveRun (fun _ => rfl) ↔ _
  exact mem_updateWhere

theorem mem_approvals_commitApproval {a : ApprovalRow} :
    a ∈ (commitApproval w k start run by_ approval).approvals ↔
      ∃ x ∈ w.approvals, a = if x.id = approval then approve start by_ x else x := by
  show a ∈ w.approvals.updateWhere (fun x => x.id = approval) (approve start by_) (fun _ => rfl) ↔ _
  exact mem_updateWhere

/-- The runs that still wait are the others. -/
theorem waiting_commitApproval {r : RunRow} (hw : r.status = .waitingApproval) :
    r ∈ (commitApproval w k start run by_ approval).runs ↔ r ∈ w.runs ∧ r.id ≠ run.id := by
  rw [mem_runs_commitApproval]
  constructor
  · rintro ⟨x, hx, rfl⟩
    by_cases hid : x.id = run.id
    · rw [if_pos hid] at hw
      cases hw
    · rw [if_neg hid]
      exact ⟨hx, hid⟩
  · rintro ⟨hr, hid⟩
    exact ⟨r, hr, (if_neg hid).symm⟩

theorem pending_commitApproval {a : ApprovalRow} (hpending : a.status = .pending) :
    a ∈ (commitApproval w k start run by_ approval).approvals ↔
      a ∈ w.approvals ∧ a.id ≠ approval := by
  rw [mem_approvals_commitApproval]
  constructor
  · rintro ⟨x, hx, rfl⟩
    by_cases hid : x.id = approval
    · rw [if_pos hid] at hpending
      cases hpending
    · rw [if_neg hid]
      exact ⟨hx, hid⟩
  · rintro ⟨ha, hid⟩
    exact ⟨a, ha, (if_neg hid).symm⟩

theorem Matched.commitApproval (h : Matched w) (hrun : run ∈ w.runs)
    (hw : run.status = .waitingApproval) {own : ApprovalRow} (hown : own ∈ w.approvals)
    (hid : own.id = approval) (hpending : own.status = .pending) (hownrun : own.run = run.id) :
    Matched (commitApproval w k start run by_ approval) := by
  have hlive : ∀ x ∈ w.runs, (if x.id = run.id then approveRun x else x).status.live =
      x.status.live := by
    intro x hx
    split
    case isTrue hxid =>
      rw [eq_of_key_eq hx hrun hxid, hw]
      rfl
    case isFalse => rfl
  have hworkflow : ∀ x : RunRow, (if x.id = run.id then approveRun x else x).workflowId =
      x.workflowId := fun x => by split <;> rfl
  have hdecision : ∀ x : RunRow, (if x.id = run.id then approveRun x else x).decisionId =
      x.decisionId := fun x => by split <;> rfl
  -- the run's approval is the only pending one of its decision
  have hother : ∀ a ∈ w.approvals, a.status = .pending → a.run = run.id → a.id = approval := by
    intro a ha hpa harun
    obtain ⟨x, hx, -, hxd, hxrun⟩ := h.pending a ha hpa
    obtain ⟨y, hy, -, hyd, hyrun⟩ := h.pending own hown hpending
    have hxy : x = y := eq_of_key_eq hx hy (by rw [← hxrun, ← hyrun, harun, hownrun])
    rw [← hxy, hxd] at hyd
    rw [h.once a ha own hown hpa hpending (some.inj hyd)]
    exact hid
  constructor
  case single =>
    intro r hr r' hr' hl hl' hwf hd
    obtain ⟨x, hx, rfl⟩ := mem_runs_commitApproval.1 hr
    obtain ⟨x', hx', rfl⟩ := mem_runs_commitApproval.1 hr'
    rw [hlive x hx] at hl
    rw [hlive x' hx'] at hl'
    rw [hworkflow, hworkflow] at hwf
    rw [hdecision, hdecision] at hd
    rw [h.single x hx x' hx' hl hl' hwf hd]
  case waiting =>
    intro r hr r' hr' hrw hrw' hd
    exact h.waiting r ((waiting_commitApproval hrw).1 hr).1 r'
      ((waiting_commitApproval hrw').1 hr').1 hrw hrw' hd
  case own =>
    intro r hr hrw
    obtain ⟨hr, hne⟩ := (waiting_commitApproval hrw).1 hr
    obtain ⟨a, ha, hpa, hd, harun⟩ := h.own r hr hrw
    refine ⟨a, (pending_commitApproval hpa).2 ⟨ha, fun haid => hne ?_⟩, hpa, hd, harun⟩
    rw [← harun, eq_of_key_eq ha hown (haid.trans hid.symm), hownrun]
  case pending =>
    intro a ha hpa
    obtain ⟨ha, hne⟩ := (pending_commitApproval hpa).1 ha
    obtain ⟨r, hr, hrw, hd, harun⟩ := h.pending a ha hpa
    refine ⟨r, (waiting_commitApproval hrw).2 ⟨hr, fun hrid => hne ?_⟩, hrw, hd, harun⟩
    exact hother a ha hpa (harun.trans hrid)
  case once =>
    intro a ha b hb hpa hpb hd
    exact h.once a ((pending_commitApproval hpa).1 ha).1 b ((pending_commitApproval hpb).1 hb).1
      hpa hpb hd
  case expires =>
    intro a ha
    obtain ⟨x, hx, rfl⟩ := mem_approvals_commitApproval.1 ha
    split
    · exact h.expires x hx
    · exact h.expires x hx

theorem run_of_choice {c : RunRow × Uuid} (hc : c ∈ s.choice) : s.run = some c.1 := by
  cases s with
  | chosen | consuming =>
    cases hc
    rfl
  | idle | preparing | prepared | locked => cases hc

theorem Sound.commitApproval (h : Sound w)
    (hk : w.sessions[k]? = some (.consuming start run by_ approval)) :
    Sound (commitApproval w k start run by_ approval) := by
  have hs := h.sessions _ (mem_of_getElem? hk)
  obtain ⟨hrun, hw⟩ := hs.run run rfl
  obtain ⟨own, hown, hid, hpending, hownrun⟩ := hs.choice (run, approval) rfl
  refine ⟨h.matched.commitApproval hrun hw hown hid hpending hownrun, ?_, ?_⟩
  · intro x hx
    obtain ⟨j, hj⟩ := mem_iff_getElem?.1 hx
    rcases getElem?_set_cases hj with ⟨-, rfl⟩ | ⟨hne, hj⟩
    · exact .idle
    · -- another transaction holds another run, and its approval is another one
      have hapart := h.apart k j _ x (Ne.symm hne) hk hj run rfl
      have hx := h.sessions x (mem_of_getElem? hj)
      refine hx.mono (fun r hr _ => ?_) (fun c hc a ha harun hpa => ?_)
      · exact (waiting_commitApproval (hx.run r hr).2).2
          ⟨(hx.run r hr).1, Ne.symm (hapart r hr)⟩
      · refine (pending_commitApproval hpa).2 ⟨ha, fun haid => ?_⟩
        have heq : a = own := eq_of_key_eq ha hown (haid.trans hid.symm)
        apply hapart c.1 (run_of_choice hc)
        rw [← harun, heq, hownrun]
  · exact h.apart.set runsApart_symm (fun _ y _ _ => runsApart_of_none rfl y)

end Approval

/-! ### Every step -/

/-- Nothing that is prepared ever expires. -/
theorem Matched.expire (h : Matched w) : w.approvals.updateWhere
    (fun a => a.status = .pending ∧ ∃ t ∈ a.expiresAt, t ≤ w.now)
    (fun a => { a with status := .expired }) (fun _ => rfl) = w.approvals := by
  apply updateWhere_eq_self
  rintro a ha ⟨-, t, ht, -⟩
  rw [h.expires a ha] at ht
  cases ht

theorem Sound.step {a : Action} (h : Sound w) (halone : Alone w a) (hstep : exec w a = some w') :
    Sound w' := by
  cases a with
  | tick micros =>
    cases hstep
    exact ⟨⟨h.matched.single, h.matched.waiting, h.matched.own, h.matched.pending,
      h.matched.once, h.matched.expires⟩, fun s hs => (h.sessions s hs).mono
        (fun _ _ hr => hr) (fun _ _ _ ha _ _ => ha), h.apart⟩
  | prepare k input =>
    simp only [exec] at hstep
    split at hstep
    case h_2 => cases hstep
    case h_1 hk =>
      by_cases hgate : input.status = .waitingApproval ∧ input.decisionId = none
      · rw [if_pos hgate] at hstep
        cases hstep
        exact h
      · rw [if_neg hgate] at hstep
        split at hstep
        case isTrue =>
          cases hstep
          exact h
        case isFalse =>
          cases hstep
          exact h.set (.ofPreparing (fun hw hnone => hgate ⟨hw, hnone⟩))
            (fun _ y _ _ => runsApart_of_none rfl y)
  | insert k run approval =>
    simp only [exec] at hstep
    split at hstep
    case h_2 => cases hstep
    case h_1 start input hk =>
      cases hstep
      have hinput := (h.sessions _ (mem_of_getElem? hk)).input start input rfl
      exact h.set (.ofPrepared (approvalOf_sound hinput (halone start input hk)))
        (fun _ y _ _ => runsApart_of_none rfl y)
  | lock k workflow run by_ =>
    simp only [exec] at hstep
    split at hstep
    case h_2 => cases hstep
    case h_1 hk =>
      split at hstep
      case isTrue => cases hstep
      case isFalse hfree =>
        split at hstep
        case h_1 =>
          cases hstep
          exact h
        case h_2 r hr =>
          split at hstep
          case isFalse =>
            cases hstep
            exact h
          case isTrue hok =>
            split at hstep
            case h_1 =>
              cases hstep
              exact h
            case h_2 decision hd =>
              cases hstep
              refine h.set (.ofLocked (mem_of_get? hr) hok.2 hd) ?_
              intro j y _ hy x hx z hz heq
              cases hx
              exact hfree ⟨y, mem_of_getElem? hy, z, hz,
                heq.symm.trans (key_of_get? hr)⟩
  | choose k approval =>
    simp only [exec] at hstep
    split at hstep
    case h_2 => cases hstep
    case h_1 start run decision by_ hk =>
      have hs := h.sessions _ (mem_of_getElem? hk)
      split at hstep
      case h_1 =>
        split at hstep
        case isFalse => cases hstep
        case isTrue =>
          cases hstep
          exact h.set .idle (fun _ y _ _ => runsApart_of_none rfl y)
      case h_2 id =>
        split at hstep
        case isFalse => cases hstep
        case isTrue hlatest =>
          cases hstep
          obtain ⟨a, ha, hlatest⟩ := hlatest
          obtain ⟨hamem, -, hpending⟩ := mem_pendingApprovals.1 hlatest.1
          obtain ⟨hrun, hw⟩ := hs.run run rfl
          have hown : a.run = run.id :=
            h.matched.latest hrun hw (hs.decision _ _ _ _ rfl) hlatest
          exact h.set (.ofChosen ⟨hrun, hw⟩ ⟨a, hamem, key_of_get? ha, hpending, hown⟩)
            (runsApart_of_eq h hk rfl)
  | take k =>
    simp only [exec] at hstep
    split at hstep
    case h_2 => cases hstep
    case h_1 start run by_ approval hk =>
      split at hstep
      case isTrue => cases hstep
      case isFalse =>
        cases hstep
        have hs := h.sessions _ (mem_of_getElem? hk)
        exact h.set (.ofConsuming (hs.run run rfl) (hs.choice (run, approval) rfl))
          (runsApart_of_eq h hk rfl)
  | commit k =>
    simp only [exec] at hstep
    split at hstep
    case h_1 run approval audit hk => exact h.commitPrepared hk halone hstep
    case h_2 start run by_ approval hk =>
      cases hstep
      exact h.commitApproval hk
    case h_3 => cases hstep
  | abort k =>
    cases hstep
    exact h.set .idle (fun _ y _ _ => runsApart_of_none rfl y)
  | expire =>
    cases hstep
    rw [h.matched.expire]
    exact h

theorem sound_init (h : Initial w) : Sound w := by
  obtain ⟨hruns, happrovals, n, hsessions⟩ := h
  have hr : ∀ r, r ∉ w.runs := fun r => by rw [hruns]; exact not_mem_empty
  have ha : ∀ a, a ∉ w.approvals := fun a => by rw [happrovals]; exact not_mem_empty
  refine ⟨⟨fun r h => absurd h (hr r), fun r h => absurd h (hr r), fun r h => absurd h (hr r),
    fun a h => absurd h (ha a), fun a h => absurd h (ha a), fun a h => absurd h (ha a)⟩, ?_, ?_⟩
  · intro s hs
    rw [hsessions] at hs
    rw [eq_of_mem_replicate hs]
    exact .idle
  · rw [hsessions]
    exact apart_replicate (runsApart_of_none rfl _) n

/-- In every run that prepares no workflow run next to another one, every waiting run can be
approved. -/
theorem waiting_runs_approvable {w : World}
    (hw : (workflowSystem.restrict Alone).Reachable w) : Approvable w := by
  have hsound : (workflowSystem.restrict Alone).Invariant Sound :=
    Inductive.invariant
      { init := fun _ h => sound_init h
        step := fun _ _ _ h hstep => h.step hstep.1 hstep.2 }
  exact (hsound w hw).approvable

/-! ## A shared decision -/

def inputFor (workflow decision : Uuid) : WorkflowRunInput where
  workflowId := workflow
  decisionId := some decision
  status := .waitingApproval
  result := Json.ofFields [("reason", .string "critical source burst")]
  actor := "workflow_engine"
  auditAction := "run_prepared"

/-- Two workflows prepare their runs for one decision, one after the other. -/
def sharedDecision : List Action :=
  [ .prepare 0 (inputFor 30 7), .insert 0 1 2, .commit 0
  , .prepare 0 (inputFor 31 7), .insert 0 3 4, .commit 0 ]

def idleWorld : World := ⟨0, Table.empty _, Table.empty _, [], [.idle, .idle]⟩

theorem initial_idleWorld : Initial idleWorld := ⟨rfl, rfl, 2, rfl⟩

def operator : Approver := ⟨9, "operator", none, some "reviewed"⟩

/-- What a transaction is about to insert, and what it has inserted. -/
def Session.input : Session → Option WorkflowRunInput
  | preparing _ input => some input
  | _ => none

def Session.inserted : Session → Option RunRow
  | prepared run _ _ => some run
  | _ => none

instance (w : World) : DecidablePred (Alone w)
  | .insert k _ _ =>
    decidable_of_iff (∀ s ∈ w.sessions[k]?, ∀ input ∈ s.input,
      input.status = .waitingApproval → ∀ d ∈ input.decisionId, pendingApprovals w d = [])
      ⟨fun h _ input hk => h _ hk input rfl,
        fun h s hs input hi => by cases s <;> cases hi; exact h _ _ hs⟩
  | .commit k =>
    decidable_of_iff (∀ s ∈ w.sessions[k]?, ∀ run ∈ s.inserted,
      (run.status.live = true → liveRuns w run.workflowId run.decisionId = []) ∧
      (run.status = .waitingApproval →
        ∀ r ∈ w.runs.rows, r.status = .waitingApproval → r.decisionId ≠ run.decisionId))
      ⟨fun h run _ _ hk => h _ hk run rfl,
        fun h s hs run hr => by cases s <;> cases hr; exact h _ _ _ hs⟩
  | .tick _ | .prepare .. | .lock .. | .choose .. | .take _ | .abort _ | .expire => .isTrue trivial

/-- Two workflows prepare their runs for decisions of their own; the first run is approved while
the second one is prepared. -/
def ownDecisions : List Action :=
  [ .prepare 0 (inputFor 30 7), .insert 0 1 2, .commit 0
  , .prepare 1 (inputFor 31 8), .lock 0 30 1 operator, .choose 0 (some 2), .insert 1 3 4, .take 0
  , .commit 1, .commit 0, .expire ]

/-- The second run still waits, with the approval that was prepared for it. -/
theorem waiting_runs_approvable_ownDecisions : ∃ w,
    (workflowSystem.restrict Alone).Run idleWorld ownDecisions w ∧
    w.runs.rows.map (fun r => (r.id, r.status)) = [(1, .pending), (3, .waitingApproval)] ∧
    w.approvals.rows.map (fun a => (a.run, a.status)) = [(1, .approved), (3, .pending)] ∧
    Approvable w := by
  have hrun : (execAll (fun w a => if Alone w a then exec w a else none) idleWorld
      ownDecisions).map (fun w => (w.runs.rows.map (fun r => (r.id, r.status)),
        w.approvals.rows.map (fun a => (a.run, a.status)))) =
      some ([(1, .pending), (3, .waitingApproval)], [(1, .approved), (3, .pending)]) := by
    decide +kernel
  obtain ⟨w, hw, hrows⟩ := map_eq_some_iff.1 hrun
  obtain ⟨hruns, happrovals⟩ := Prod.mk.inj hrows
  have hsteps := run_restrict_of_execAll Initial exec hw
  exact ⟨w, hsteps, hruns, happrovals,
    waiting_runs_approvable ⟨idleWorld, _, initial_idleWorld, hsteps⟩⟩

/-- The second run waits without an approval. -/
theorem shared_decision_waits : ¬ workflowSystem.Invariant Approvable := by
  intro h
  have hrun : (execAll exec idleWorld sharedDecision).map
      (fun w => (w.runs.rows.map (fun r => (r.id, r.status)), w.approvals.rows.map (·.run))) =
        some ([(1, .waitingApproval), (3, .waitingApproval)], [1]) := by decide_cbv
  obtain ⟨w, hw, hrows⟩ := map_eq_some_iff.1 hrun
  have hreach : workflowSystem.Reachable w :=
    ⟨idleWorld, sharedDecision, initial_idleWorld, run_of_execAll _ _ hw⟩
  obtain ⟨hruns, happrovals⟩ := Prod.mk.inj hrows
  have hmem : (3, RunStatus.waitingApproval) ∈ w.runs.rows.map (fun r => (r.id, r.status)) := by
    rw [hruns]
    decide
  obtain ⟨r, hr, hid⟩ := List.mem_map.1 hmem
  obtain ⟨hid, hstatus⟩ := Prod.mk.inj hid
  obtain ⟨d, -, a, ha, harun, -⟩ := (h w hreach).own r hr hstatus
  have harun' : a.run ∈ w.approvals.rows.map (·.run) :=
    List.mem_map_of_mem (mem_pendingApprovals.1 ha.1).1
  rw [happrovals, harun, hid] at harun'
  exact absurd harun' (by decide)

end Clawforge.Workflows

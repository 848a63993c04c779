import Clawforge.Storage.Approvals

/-!
# The approval gate

No request with approval requirements leaves `waiting_approval`, other than to be cancelled,
before enough approvals count for it. The invariant is one of the tables (`GateOk`), kept by
every update that the trigger accepts; a transaction that holds its request's row carries what
it has read and written to its commit.
-/

namespace Clawforge.Approvals

open Executions Kit Table List Option
open EventDelivery (uuidText)

/-! ## Approvals that count -/

/-- The approval is of the request's context hash, was given in its window, and is not the
requester's unless it is the confirmation of the operator whom the context designates. -/
structure Counts (r : RequestRow) (a : ApprovalRow) : Prop where
  request : a.executionId = r.id
  hash : r.approvalContextHash = some a.contextHash
  window : ∃ t, r.approvalExpiresAt = some t ∧ a.approvedAt < t
  requester : r.requestedById ≠ none
  independent : r.requestedById = some a.approverId →
    a.approvalMode = .singleOperatorConfirmation
  operator : a.approvalMode = .singleOperatorConfirmation →
    profileMarked r.approvalContext = true ∧
      profileField r.approvalContext "operator_user_id" = some (uuidText a.approverId)

/-- As many approvals as the request requires count for it, of different approvers. -/
def Approved (db : Db) (r : RequestRow) : Prop :=
  ∃ as : List ApprovalRow, (∀ a ∈ as, a ∈ db.approvals ∧ Counts r a) ∧
    (as.map ApprovalRow.approverId).Nodup ∧ r.requiredApprovals ≤ as.length

/-- The request has passed its gate. -/
def Opened (r : RequestRow) : Prop :=
  1 ≤ r.requiredApprovals ∧ r.status ≠ .waitingApproval ∧ r.status ≠ .cancelled

structure GateOk (db : Db) : Prop where
  once : (db.approvals.map (fun a => (a.executionId, a.approverId))).Nodup
  counts : ∀ a ∈ db.approvals, ∃ r ∈ db.requests, Counts r a
  gate : ∀ r ∈ db.requests, Opened r → r.requiredApprovals ≤ (matchingApprovals db r).length

theorem sameContext_refl (r : RequestRow) : SameContext r r := by
  unfold SameContext
  simp

variable {r r' new row : RequestRow} {a : ApprovalRow} {db db' : Db} {now start : Instant}
  {approval : Option ApprovalRow} {contextHash : Json → String} {T : Table RequestRow.id}
  {call : Call} {stage : Stage} {x : Session} {w : World}

theorem sameContext_required (h : SameContext r r') :
    r.requiredApprovals = r'.requiredApprovals := h.2.2.2.2.2.2.2.2.1

theorem sameContext_hash (h : SameContext r r') :
    r.approvalContextHash = r'.approvalContextHash := h.2.2.2.2.2.2.2.2.2.2.2

theorem sameContext_trans {r'' : RequestRow} (h : SameContext r r') (h' : SameContext r' r'') :
    SameContext r r'' := by
  unfold SameContext at *
  simp_all

theorem Counts.moved (h : Counts r a) (hid : r'.id = r.id) (hsame : SameContext r r') :
    Counts r' a := by
  obtain ⟨-, -, -, -, hrequester, -, -, -, -, hexpires, hcontext, hhash⟩ := hsame
  exact {
    request := h.request.trans hid.symm
    hash := hhash ▸ h.hash
    window := hexpires ▸ h.window
    requester := hrequester ▸ h.requester
    independent := hrequester ▸ h.independent
    operator := hcontext ▸ h.operator }

/-- The approvals under the request's hash are of different approvers, and count. -/
theorem GateOk.approved (h : GateOk db) (hr : r ∈ db.requests)
    (henough : r.requiredApprovals ≤ (matchingApprovals db r).length) : Approved db r := by
  have hmatch : ∀ a ∈ matchingApprovals db r, a ∈ db.approvals ∧ a.executionId = r.id := by
    intro a ha
    obtain ⟨hmem, hof⟩ := mem_filter.mp ha
    rw [Bool.and_eq_true, decide_eq_true_eq] at hof
    exact ⟨hmem, hof.1⟩
  refine ⟨matchingApprovals db r, fun a ha => ?_, ?_, henough⟩
  · obtain ⟨hmem, hid⟩ := hmatch a ha
    obtain ⟨r', hr', hcounts⟩ := h.counts a hmem
    rw [eq_of_key_eq hr hr' (hid.symm.trans hcounts.request)]
    exact ⟨hmem, hcounts⟩
  · have hpairs : ((matchingApprovals db r).map (fun a => (a.executionId, a.approverId))).Nodup :=
      h.once.sublist (filter_sublist.map _)
    have hsame : (matchingApprovals db r).map (fun a => (a.executionId, a.approverId)) =
        ((matchingApprovals db r).map ApprovalRow.approverId).map (Prod.mk r.id) := by
      rw [List.map_map]
      exact map_congr_left fun a ha => by rw [(hmatch a ha).2]; rfl
    rw [hsame] at hpairs
    exact hpairs.of_map

/-! ## What an update does to a row -/

/-- A row as an update that the trigger accepts leaves it. -/
structure Steps (db : Db) (r r' : RequestRow) : Prop where
  id : r'.id = r.id
  same : SameContext r r'
  edge : r'.status = r.status ∨ transitionAllowed r r' = true
  approved : r'.status = .approved → r.status ≠ .approved →
    1 ≤ r.requiredApprovals ∧ r.requiredApprovals ≤ (matchingApprovals db r).length

theorem steps_refl (db : Db) (r : RequestRow) : Steps db r r :=
  ⟨rfl, sameContext_refl r, .inl rfl, fun h hne => absurd h hne⟩

theorem steps_of_validateUpdate (hid : r'.id = r.id) (h : validateUpdate db now r r' = .ok ()) :
    Steps db r r' := by
  obtain ⟨hsame, hedge⟩ := validateUpdate_ok h
  refine ⟨hid, hsame, hedge.imp_left Eq.symm, fun happroved hne => ?_⟩
  have hmoved : r.status ≠ r'.status := fun heq => hne (heq.trans happroved)
  have htransition := hedge.resolve_left hmoved
  unfold validateUpdate at h
  rw [if_neg (not_not.2 hsame), if_neg hmoved, if_neg (not_not.2 htransition),
    if_pos happroved] at h
  split at h
  · cases h
  next hvalid =>
  split at h
  · cases h
  next hcount =>
  refine ⟨?_, Nat.le_of_not_lt hcount⟩
  by_contra hzero
  exact hvalid (.inl (Nat.lt_of_not_le hzero))

theorem matchingApprovals_mono (hid : r'.id = r.id)
    (hhash : r.approvalContextHash = r'.approvalContextHash)
    (happrovals : db.approvals.Sublist db'.approvals) :
    (matchingApprovals db r).length ≤ (matchingApprovals db' r').length := by
  unfold matchingApprovals
  rw [hid, ← hhash]
  exact (happrovals.filter _).length_le

theorem Steps.mono (h : Steps db r r') (happrovals : db.approvals.Sublist db'.approvals) :
    Steps db' r r' :=
  ⟨h.id, h.same, h.edge, fun ha hne => ⟨(h.approved ha hne).1,
    (h.approved ha hne).2.trans (matchingApprovals_mono rfl rfl happrovals)⟩⟩

/-- A request that waits is approved or cancelled. -/
theorem approved_of_waiting (h : transitionAllowed r r' = true)
    (hfrom : r.status = .waitingApproval) (hto : r'.status ≠ .cancelled) :
    r'.status = .approved := by
  unfold transitionAllowed at h
  rw [hfrom] at h
  cases hs : r'.status with
  | approved => rfl
  | cancelled => exact absurd hs hto
  | _ =>
    rw [hs] at h
    cases h

/-- A cancelled request stays so. -/
theorem not_cancelled_of_allowed (h : transitionAllowed r r' = true) : r.status ≠ .cancelled := by
  intro hfrom
  unfold transitionAllowed at h
  rw [hfrom] at h
  cases hs : r'.status with
  | _ =>
    rw [hs] at h
    cases h

/-- A row that is past its gate was so before, or was approved in the step. -/
theorem Steps.enough (h : Steps db r r') (hopened : Opened r')
    (hgate : Opened r → r.requiredApprovals ≤ (matchingApprovals db r).length) :
    r'.requiredApprovals ≤ (matchingApprovals db r').length := by
  have hle : r.requiredApprovals ≤ (matchingApprovals db r).length →
      r'.requiredApprovals ≤ (matchingApprovals db r').length := fun henough => by
    rw [← sameContext_required h.same]
    exact henough.trans
      (matchingApprovals_mono h.id (sameContext_hash h.same) (Sublist.refl _))
  obtain ⟨hrequired, hwaiting, hcancelled⟩ := hopened
  rw [← sameContext_required h.same] at hrequired
  rcases h.edge with hstatus | hedge
  · exact hle (hgate ⟨hrequired, hstatus ▸ hwaiting, hstatus ▸ hcancelled⟩)
  · by_cases hfrom : r.status = .waitingApproval
    · have happroved := approved_of_waiting hedge hfrom hcancelled
      exact hle (h.approved happroved (by rw [hfrom]; decide)).2
    · exact hle (hgate ⟨hrequired, hfrom, not_cancelled_of_allowed hedge⟩)

/-! ## What a step does to the tables -/

/-- Requests are inserted behind their gate, and move as the trigger admits. -/
structure Grows (db db' : Db) : Prop where
  approvals : db'.approvals = db.approvals
  rows : ∀ r' ∈ db'.requests, (∃ r ∈ db.requests, Steps db r r') ∨
    ((1 ≤ r'.requiredApprovals → r'.status = .waitingApproval) ∧ r'.status ≠ .approved)
  kept : ∀ r ∈ db.requests, ∃ r' ∈ db'.requests, Steps db r r'

theorem GateOk.grows (h : GateOk db) (hgrows : Grows db db') : GateOk db' where
  once := hgrows.approvals ▸ h.once
  counts a ha := by
    rw [hgrows.approvals] at ha
    obtain ⟨r, hr, hcounts⟩ := h.counts a ha
    obtain ⟨r', hr', hstep⟩ := hgrows.kept r hr
    exact ⟨r', hr', hcounts.moved hstep.id hstep.same⟩
  gate r' hr' hopened := by
    have hsame : matchingApprovals db' r' = matchingApprovals db r' := by
      unfold matchingApprovals
      rw [hgrows.approvals]
    rw [hsame]
    rcases hgrows.rows r' hr' with ⟨r, hr, hstep⟩ | ⟨hfresh, -⟩
    · exact hstep.enough hopened (h.gate r hr)
    · exact absurd (hfresh hopened.1) hopened.2.1

/-- Over any number of steps: rows keep their context, and a request that is approved has
requirements, or was approved before. -/
structure Advances (db db' : Db) : Prop where
  kept : ∀ r ∈ db.requests, ∃ r' ∈ db'.requests, r'.id = r.id ∧ SameContext r r'
  gated : ∀ r' ∈ db'.requests, r'.status = .approved → 1 ≤ r'.requiredApprovals ∨
    ∃ r ∈ db.requests, r.id = r'.id ∧ r.status = .approved ∧
      r.requiredApprovals = r'.requiredApprovals

theorem advances_of_rows (h : db'.requests = db.requests) : Advances db db' where
  kept r hr := ⟨r, h ▸ hr, rfl, sameContext_refl r⟩
  gated r hr happroved := .inr ⟨r, h ▸ hr, rfl, happroved, rfl⟩

theorem Advances.trans {db'' : Db} (h : Advances db db') (h' : Advances db' db'') :
    Advances db db'' where
  kept r hr := by
    obtain ⟨r', hr', hid, hsame⟩ := h.kept r hr
    obtain ⟨r'', hr'', hid', hsame'⟩ := h'.kept r' hr'
    exact ⟨r'', hr'', hid'.trans hid, sameContext_trans hsame hsame'⟩
  gated r'' hr'' happroved := by
    rcases h'.gated r'' hr'' happroved with hone | ⟨r', hr', hid, happroved', hrequired⟩
    · exact .inl hone
    · rcases h.gated r' hr' happroved' with hone | ⟨r, hr, hid', happrovedR, hrequired'⟩
      · exact .inl (hrequired ▸ hone)
      · exact .inr ⟨r, hr, hid'.trans hid, happrovedR, hrequired'.trans hrequired⟩

theorem Grows.advances (h : Grows db db') : Advances db db' where
  kept r hr := by
    obtain ⟨r', hr', hstep⟩ := h.kept r hr
    exact ⟨r', hr', hstep.id, hstep.same⟩
  gated r' hr' happroved := by
    rcases h.rows r' hr' with ⟨r, hr, hstep⟩ | ⟨-, hnot⟩
    · by_cases hbefore : r.status = .approved
      · exact .inr ⟨r, hr, hstep.id.symm, hbefore, sameContext_required hstep.same⟩
      · exact .inl (sameContext_required hstep.same ▸ (hstep.approved happroved hbefore).1)
    · exact absurd happroved hnot

/-! ## The statements that change requests -/

theorem grows_of_insertRequest (h : insertRequest db now new = some db') : Grows db db' := by
  obtain ⟨hvalid, -, T, hT, rfl⟩ := insertRequest_eq_some h
  refine ⟨rfl, fun r' hr' => ?_, fun r hr => ⟨r, (mem_insert? hT).2 (.inl hr), steps_refl db r⟩⟩
  rcases (mem_insert? hT).1 hr' with hold | rfl
  · exact .inl ⟨r', hold, steps_refl db r'⟩
  · right
    unfold validateInsert at hvalid
    split at hvalid
    · cases hvalid
    next hstart =>
    split at hvalid
    · cases hvalid
    split at hvalid
    · cases hvalid
    next hpending =>
    rcases not_not.1 hstart with hstatus | hstatus
    · refine ⟨fun hone => absurd ⟨hstatus, fun hzero => ?_⟩ hpending, by rw [hstatus]; decide⟩
      rw [hzero] at hone
      exact absurd hone (by decide)
    · exact ⟨fun _ => hstatus, by rw [hstatus]; decide⟩

/-- An update of rows, each accepted by the trigger. -/
theorem grows_of_rows {f : RequestRow → RequestRow}
    (hrows : ∀ r', r' ∈ T ↔ ∃ r ∈ db.requests, r' = f r)
    (hsteps : ∀ r ∈ db.requests, Steps db r (f r)) : Grows db { db with requests := T } := by
  refine ⟨rfl, fun r' hr' => ?_, fun r hr => ⟨f r, (hrows _).2 ⟨r, hr, rfl⟩, hsteps r hr⟩⟩
  obtain ⟨r, hr, rfl⟩ := (hrows r').1 hr'
  exact .inl ⟨r, hr, hsteps r hr⟩

theorem grows_of_updateRequests {p : RequestRow → Prop} [DecidablePred p]
    {f : RequestRow → RequestRow} {hf : ∀ r, (f r).id = r.id}
    (h : updateRequests db now p f hf = some db') : Grows db db' := by
  unfold updateRequests at h
  split at h
  · next hvalid =>
    obtain rfl := some.inj h
    refine grows_of_rows (fun r' => mem_updateWhere) fun r hr => ?_
    by_cases hp : p r
    · rw [if_pos hp]
      exact steps_of_validateUpdate (hf r) (hvalid r hr hp)
    · rw [if_neg hp]
      exact steps_refl db r
  · cases h

/-- One row is replaced. -/
theorem grows_of_replace {old : RequestRow} (hold : old ∈ db.requests) (hid : new.id = old.id)
    (hstep : Steps db old new)
    (hT : T = db.requests.updateWhere (fun r => r.id = new.id) (replaceRow new) (id_replaceRow new)) :
    Grows db { db with requests := T } := by
  subst hT
  refine grows_of_rows (fun r' => mem_updateWhere) fun r hr => ?_
  by_cases hr' : r.id = new.id
  · rw [if_pos hr', replaceRow, if_pos hr', eq_of_key_eq hr hold (hr'.trans hid)]
    exact hstep
  · rw [if_neg hr']
    exact steps_refl db r

theorem grows_of_updateRequest (h : updateRequest db now new = some db') : Grows db db' := by
  unfold updateRequest at h
  split at h
  · cases h
  next old hold =>
  split at h
  · next hok =>
    obtain rfl := some.inj h
    have hid := (key_of_get? hold).symm
    exact grows_of_replace (mem_of_get? hold) hid (steps_of_validateUpdate hid hok.2) rfl
  · cases h

/-- The sweep is three updates. -/
theorem grows_of_maintenance {s s' : Store} (h : runExecutionMaintenance s now = some s') :
    ∃ db₁ db₂, Grows s.db db₁ ∧ Grows db₁ db₂ ∧ Grows db₂ s'.db := by
  unfold runExecutionMaintenance at h
  obtain ⟨db₁, h₁, h⟩ := bind_eq_some_iff.1 h
  obtain ⟨db₂, h₂, h⟩ := bind_eq_some_iff.1 h
  obtain ⟨db₃, h₃, h⟩ := bind_eq_some_iff.1 h
  obtain rfl := some.inj h
  exact ⟨db₁, db₂, grows_of_updateRequests h₁, grows_of_updateRequests h₂,
    grows_of_updateRequests h₃⟩

theorem grows_of_claim {s s' : Store} {worker : Option Uuid} {locked : List Uuid}
    {claimed : Option ClaimedExecutionRequest}
    (h : claimExecutionRequestForDispatch s now worker locked = some (s', claimed)) :
    s'.db = s.db ∨ Grows s.db s'.db := by
  unfold claimExecutionRequestForDispatch at h
  split at h
  · cases h
    exact .inl rfl
  · obtain ⟨db, hdb, h⟩ := bind_eq_some_iff.1 h
    obtain ⟨e, -, h⟩ := bind_eq_some_iff.1 h
    obtain ⟨a, -, h⟩ := bind_eq_some_iff.1 h
    cases h
    exact .inr (grows_of_updateRequests hdb)

/-! ## Transactions -/

/-- An approval that may be added: it counts, and is its approver's first. -/
def Recordable (db : Db) (row : RequestRow) (a : ApprovalRow) : Prop :=
  Counts row a ∧ ∀ b ∈ db.approvals, b.executionId = a.executionId → b.approverId ≠ a.approverId

/-- What a transaction knows of its row, and may commit. -/
def StageOk (db : Db) : Stage → Prop
  | .waiting => True
  | .locked row => row ∈ db.requests
  | .recorded row a => row ∈ db.requests ∧ Recordable db row a
  | .written row approval new => row ∈ db.requests ∧ (∀ a ∈ approval, Recordable db row a) ∧
      Steps (withApproval db approval) row new

def SessionOk (db : Db) (x : Session) : Prop := ∀ tx ∈ x, StageOk db tx.stage

/-- What an accepted approval says of its request. -/
theorem counts_of_validate (hrow : row ∈ db.requests) (hrequest : a.executionId = row.id)
    (hat : a.approvedAt = now) (h : validateExecutionApproval db now a = .ok ()) :
    Counts row a := by
  have hget : db.requests.get? a.executionId = some row := by
    rw [hrequest]
    exact get?_key hrow
  unfold validateExecutionApproval at h
  rw [hget] at h
  simp only at h
  split at h
  · cases h
  split at h
  · cases h
  next hrequester =>
  split at h
  · cases h
  next hwindow =>
  split at h
  · cases h
  next hhash =>
  split at h
  · cases h
  next approver happrover =>
  split at h
  · cases h
  split at h
  · cases h
  have hwindow' : ∃ t, row.approvalExpiresAt = some t ∧ a.approvedAt < t := by
    obtain ⟨t, ht, hlt⟩ := (Option.any_eq_true _ _).1 (not_not.1 hwindow)
    exact ⟨t, ht, hat ▸ of_decide_eq_true hlt⟩
  split at h
  · next hmode =>
    split at h
    · next hallowed =>
      have hid : approver.id = a.approverId := key_of_get? happrover
      unfold confirmationAllowed at hallowed
      split at hallowed
      · next operator allowed action hprofile haction =>
        simp only [Bool.and_eq_true, decide_eq_true_eq] at hallowed
        obtain ⟨⟨⟨⟨⟨hmarked, hoperator⟩, hfield⟩, -⟩, -⟩, -⟩ := hallowed
        refine ⟨hrequest, not_not.1 hhash, hwindow', hrequester, fun _ => hmode, fun _ => ?_⟩
        exact ⟨hmarked, by rw [hfield, ← hoperator, hid]⟩
      · cases hallowed
    · cases h
  · next hmode =>
    split at h
    · cases h
    split at h
    · cases h
    next hother =>
    exact ⟨hrequest, not_not.1 hhash, hwindow', hrequester, fun hself => absurd hself hother,
      fun hsingle => absurd hsingle hmode⟩

theorem approvalOf_eq_some {id : Uuid} (h : approvalOf start row id call = some a) :
    a.executionId = row.id ∧ a.approvedAt = start := by
  cases call with
  | approve | confirm =>
    obtain ⟨hash, -, rfl⟩ := map_eq_some_iff.1 h
    exact ⟨rfl, rfl⟩
  | update next result error => cases h

theorem recordable_of_accepted (hrow : row ∈ db.requests) (hrequest : a.executionId = row.id)
    (hat : a.approvedAt = start) (h : recordable db start a = true) : Recordable db row a := by
  unfold recordable at h
  rw [Bool.and_eq_true, decide_eq_true_eq, Bool.not_eq_true', List.any_eq_false] at h
  refine ⟨counts_of_validate hrow hrequest hat h.1, fun b hb hid happrover => h.2 b hb ?_⟩
  rw [hid, happrover, decide_eq_true rfl, decide_eq_true rfl]
  rfl

theorem updateOf_id (h : updateOf db start row call = some new) : new.id = row.id := by
  cases call with
  | approve approver actor =>
    simp only [updateOf] at h
    split at h
    · exact (some.inj h) ▸ rfl
    · cases h
  | confirm | update => exact (some.inj h) ▸ rfl

theorem stageOk_afterUpdate (hrow : row ∈ db.requests)
    (happroval : ∀ a ∈ approval, Recordable db row a)
    (h : afterUpdate db start row approval call = some stage) :
    StageOk db stage ∧ stage.row = some row := by
  unfold afterUpdate at h
  split at h
  · obtain rfl := some.inj h
    exact ⟨⟨hrow, happroval, steps_refl _ row⟩, rfl⟩
  next new hnew =>
  split at h
  · next hvalid =>
    obtain rfl := some.inj h
    exact ⟨⟨hrow, happroval, steps_of_validateUpdate (updateOf_id hnew) hvalid⟩, rfl⟩
  · cases h

/-- A statement keeps what its transaction knows; the first locks the row. -/
theorem stageOk_next {tx : Tx} {utcNow : Instant} {id : Uuid} (h : StageOk db tx.stage)
    (hnext : nextStage contextHash db tx utcNow id = some stage) :
    StageOk db stage ∧ ∀ row, stage.row = some row → tx.stage.row = some row ∨
      (tx.stage.row = none ∧ row.id = tx.request) := by
  unfold nextStage at hnext
  split at hnext
  · next hstage =>
    obtain ⟨row, hrow, hnext⟩ := bind_eq_some_iff.1 hnext
    split at hnext
    · obtain rfl := some.inj hnext
      refine ⟨mem_of_get? hrow, fun row' hsame => ?_⟩
      obtain rfl := some.inj hsame
      exact .inr ⟨by rw [hstage]; rfl, key_of_get? hrow⟩
    · cases hnext
  · next row hstage =>
    rw [hstage] at h ⊢
    split at hnext
    · next a ha =>
      obtain ⟨hrequest, hat⟩ := approvalOf_eq_some ha
      split at hnext
      · next haccepted =>
        obtain rfl := some.inj hnext
        exact ⟨⟨h, recordable_of_accepted h hrequest hat haccepted⟩, fun _ hsame => .inl hsame⟩
      · cases hnext
    · obtain ⟨hok, hsame⟩ := stageOk_afterUpdate h (fun _ hnone => absurd hnone (not_mem_none _)) hnext
      exact ⟨hok, fun _ hrow => .inl (hsame.symm.trans hrow)⟩
  · next row a hstage =>
    rw [hstage] at h ⊢
    have happroval : ∀ b ∈ some a, Recordable db row b := fun b hb => some.inj hb ▸ h.2
    obtain ⟨hok, hsame⟩ := stageOk_afterUpdate h.1 happroval hnext
    exact ⟨hok, fun _ hrow => .inl (hsame.symm.trans hrow)⟩
  · next row approval new hstage =>
    obtain rfl := some.inj hnext
    rw [hstage] at h ⊢
    exact ⟨h, fun _ hrow => .inl hrow⟩

/-- What others commit leaves a transaction what it knows, as long as its row and the approvals
of its request are as they were. -/
theorem StageOk.frame (h : StageOk db stage)
    (hrow : ∀ row, stage.row = some row → row ∈ db'.requests)
    (hsub : db.approvals.Sublist db'.approvals)
    (hnew : ∀ row, stage.row = some row →
      ∀ b ∈ db'.approvals, b ∈ db.approvals ∨ b.executionId ≠ row.id) : StageOk db' stage := by
  have hrecordable : ∀ {row a}, stage.row = some row → Recordable db row a →
      Recordable db' row a := by
    rintro row a hstage ⟨hcounts, hfirst⟩
    refine ⟨hcounts, fun b hb hid => ?_⟩
    rcases hnew row hstage b hb with hold | hother
    · exact hfirst b hold hid
    · exact absurd (hid.trans hcounts.request) hother
  cases stage with
  | waiting => exact trivial
  | locked row => exact hrow row rfl
  | recorded row a => exact ⟨hrow row rfl, hrecordable rfl h.2⟩
  | written row approval new =>
    exact ⟨hrow row rfl, fun a ha => hrecordable rfl (h.2.1 a ha),
      h.2.2.mono (hsub.append (Sublist.refl _))⟩

/-- Adding an approval that may be added. -/
theorem GateOk.withApproval (h : GateOk db) (hrow : row ∈ db.requests)
    (happroval : ∀ a ∈ approval, Recordable db row a) : GateOk (withApproval db approval) := by
  have hsub : db.approvals.Sublist (Approvals.withApproval db approval).approvals :=
    sublist_append_left _ _
  cases approval with
  | none =>
    have hsame : Approvals.withApproval db none = db := by
      unfold Approvals.withApproval
      rw [toList_none, append_nil]
    rw [hsame]
    exact h
  | some a =>
    obtain ⟨hcounts, hfirst⟩ := happroval a rfl
    refine ⟨?_, fun b hb => ?_, fun r hr hopened => ?_⟩
    · show ((db.approvals ++ [a]).map _).Nodup
      rw [map_append, nodup_append]
      refine ⟨h.once, nodup_singleton _, ?_⟩
      intro pair hpair pair' hpair' hsame
      obtain ⟨b, hb, rfl⟩ := List.mem_map.1 hpair
      rw [map_singleton, mem_singleton] at hpair'
      obtain ⟨hid, happrover⟩ := Prod.mk.inj (hsame.trans hpair')
      exact hfirst b hb hid happrover
    · rcases mem_append.1 hb with hold | hnew
      · exact h.counts b hold
      · rw [mem_singleton.1 hnew]
        exact ⟨row, hrow, hcounts⟩
    · exact (h.gate r hr hopened).trans (matchingApprovals_mono rfl rfl hsub)

/-! ## The invariant of the transactions -/

/-- Two transactions do not hold one row. -/
def RowsApart (x y : Session) : Prop :=
  ∀ r r', x.row = some r → y.row = some r' → r.id ≠ r'.id

theorem RowsApart.symm {y : Session} (h : RowsApart x y) : RowsApart y x :=
  fun r r' hr hr' hid => h r' r hr' hr hid.symm

structure WorldOk (w : World) : Prop where
  gate : GateOk w.store.db
  sessions : ∀ x ∈ w.sessions, SessionOk w.store.db x
  apart : Apart RowsApart w.sessions

theorem mem_locked (hx : x ∈ w.sessions) (hrow : x.row = some row) : row.id ∈ w.locked :=
  mem_filterMap.2 ⟨x, hx, by rw [hrow]; rfl⟩

theorem SessionOk.row_mem (h : SessionOk db x) (hrow : x.row = some row) : row ∈ db.requests := by
  obtain ⟨tx, rfl, hstage⟩ := bind_eq_some_iff.1 hrow
  have hok := h tx rfl
  cases hs : tx.stage with
  | waiting =>
    rw [hs] at hstage
    cases hstage
  | locked r =>
    rw [hs] at hstage hok
    exact some.inj hstage ▸ hok
  | recorded | written =>
    rw [hs] at hstage hok
    exact some.inj hstage ▸ hok.1

/-- The tables change, and no approval and no locked row does. -/
theorem WorldOk.setStore (h : WorldOk w) {s : Store} (hgate : GateOk s.db)
    (happrovals : s.db.approvals = w.store.db.approvals)
    (hrows : ∀ row ∈ w.store.db.requests, row.id ∈ w.locked → row ∈ s.db.requests) :
    WorldOk { w with store := s } := by
  refine ⟨hgate, fun x hx tx htx => ?_, h.apart⟩
  have hok := h.sessions x hx
  refine (hok tx htx).frame (fun row hrow => ?_) ?_ fun _ _ b hb => ?_
  · have hrow' : x.row = some row := bind_eq_some_iff.2 ⟨tx, htx, hrow⟩
    exact hrows row (hok.row_mem hrow') (mem_locked hx hrow')
  · rw [happrovals]
  · exact .inl (happrovals ▸ hb)

theorem mem_of_spares {locked : List Uuid} (h : spares locked db db' = true)
    (hrow : row ∈ db.requests) (hlocked : row.id ∈ locked) : row ∈ db'.requests := by
  have hsame := of_decide_eq_true (List.all_eq_true.1 h row.id hlocked)
  rw [get?_key hrow] at hsame
  exact mem_of_get? hsame

/-- Replacing one row leaves the others. -/
theorem mem_replaced (hrow : row ∈ T) (hne : row.id ≠ new.id) :
    row ∈ T.updateWhere (fun r => r.id = new.id) (replaceRow new) (id_replaceRow new) :=
  mem_updateWhere.2 ⟨row, hrow, (if_neg hne).symm⟩

/-- A commit keeps the invariant of the tables. -/
theorem committed_gate (h : GateOk db) (hok : StageOk db (.written row approval new)) :
    GateOk (committed db approval new) ∧ Advances db (committed db approval new) := by
  obtain ⟨hrow, happroval, hstep⟩ := hok
  have hgrows : Grows (withApproval db approval) (committed db approval new) :=
    grows_of_replace hrow hstep.id hstep rfl
  exact ⟨(h.withApproval hrow happroval).grows hgrows,
    (advances_of_rows rfl : Advances db (withApproval db approval)).trans hgrows.advances⟩

/-- A session that holds no row is put in the place of another. -/
theorem WorldOk.setWithoutRow {k : Nat} {x : Session} (h : WorldOk w)
    (hx : SessionOk w.store.db x) (hrow : x.row = none) :
    WorldOk { w with sessions := w.sessions.set k x } := by
  refine ⟨h.gate, fun y hy => ?_, h.apart.set (fun _ _ => RowsApart.symm) fun _ _ _ _ r _ hr => ?_⟩
  · obtain ⟨j, hj⟩ := mem_iff_getElem?.1 hy
    rcases getElem?_set_cases hj with ⟨-, rfl⟩ | ⟨-, hold⟩
    · exact hx
    · exact h.sessions y (mem_of_getElem? hold)
  · rw [hrow] at hr
    cases hr

theorem WorldOk.commit {k : Nat} {request : Uuid} (h : WorldOk w)
    (hk : w.sessions[k]? = some (some ⟨start, request, call, .written row approval new⟩)) :
    WorldOk { w.setDb (committed w.store.db approval new) with
      sessions := w.sessions.set k none } := by
  have hok : StageOk w.store.db (.written row approval new) :=
    h.sessions _ (mem_of_getElem? hk) _ rfl
  refine ⟨(committed_gate h.gate hok).1, fun x hx tx htx => ?_, ?_⟩
  · obtain ⟨j, hj⟩ := mem_iff_getElem?.1 hx
    rcases getElem?_set_cases hj with ⟨-, rfl⟩ | ⟨hjk, hold⟩
    · cases htx
    · have hx' := h.sessions x (mem_of_getElem? hold)
      have hother : ∀ r, tx.stage.row = some r → r.id ≠ row.id := fun r hr =>
        h.apart j k x _ hjk hold hk r row (bind_eq_some_iff.2 ⟨tx, htx, hr⟩) rfl
      refine (hx' tx htx).frame (fun r hr => ?_) (sublist_append_left _ _) fun r hr b hb => ?_
      · have hr' : x.row = some r := bind_eq_some_iff.2 ⟨tx, htx, hr⟩
        exact mem_replaced (hx'.row_mem hr') (hok.2.2.id ▸ hother r hr)
      · rcases mem_append.1 hb with hb | hb
        · exact .inl hb
        · have hb' := (hok.2.1 b (mem_toList.1 hb)).1.request
          exact .inr (hb' ▸ (hother r hr).symm)
  · exact h.apart.set (fun _ _ => RowsApart.symm) fun _ _ _ _ r _ hr => nomatch hr

theorem WorldOk.statement {k : Nat} {tx : Tx} {utcNow : Instant} {id : Uuid} (h : WorldOk w)
    (hk : w.sessions[k]? = some (some tx)) (hfree : ¬ (tx.stage.row = none ∧ tx.request ∈ w.locked)) :
    WorldOk { w with
      sessions := w.sessions.set k ((nextStage contextHash w.store.db tx utcNow id).map
        (fun stage => { tx with stage })) } := by
  have hok := h.sessions _ (mem_of_getElem? hk) tx rfl
  refine ⟨h.gate, fun x hx tx' htx' => ?_, h.apart.set (fun _ _ => RowsApart.symm) ?_⟩
  · obtain ⟨j, hj⟩ := mem_iff_getElem?.1 hx
    rcases getElem?_set_cases hj with ⟨-, rfl⟩ | ⟨-, hold⟩
    · obtain ⟨stage, hnext, rfl⟩ := map_eq_some_iff.1 htx'
      exact (stageOk_next hok hnext).1
    · exact h.sessions x (mem_of_getElem? hold) tx' htx'
  · intro j y hjk hy r r' hr hr'
    obtain ⟨tx', htx', hstage⟩ := bind_eq_some_iff.1 hr
    obtain ⟨stage, hnext, rfl⟩ := map_eq_some_iff.1 htx'
    rcases (stageOk_next hok hnext).2 r hstage with hheld | ⟨hnone, hrequest⟩
    · exact h.apart k j _ y hjk.symm hk hy r r' hheld hr'
    · intro hid
      refine hfree ⟨hnone, ?_⟩
      rw [← hrequest, hid]
      exact mem_locked (mem_of_getElem? hy) hr'

/-- Every step keeps the invariant, and advances the requests. -/
theorem WorldOk.step {w' : World} {l : Action} (h : WorldOk w)
    (hexec : exec contextHash w l = some w') : WorldOk w' ∧ Advances w.store.db w'.store.db := by
  have hsame : WorldOk w ∧ Advances w.store.db w.store.db := ⟨h, advances_of_rows rfl⟩
  have hgrow : ∀ {db : Db}, Grows w.store.db db →
      (∀ row ∈ w.store.db.requests, row.id ∈ w.locked → row ∈ db.requests) →
      WorldOk (w.setDb db) ∧ Advances w.store.db db := fun hgrows hrows =>
    ⟨h.setStore (h.gate.grows hgrows) hgrows.approvals hrows, hgrows.advances⟩
  have hinsert : ∀ {now : Instant} {new : RequestRow} {db : Db},
      insertRequest w.store.db now new = some db →
      WorldOk (w.setDb db) ∧ Advances w.store.db db := by
    intro now new db hdb
    refine hgrow (grows_of_insertRequest hdb) fun row hrow _ => ?_
    obtain ⟨-, -, T, hT, rfl⟩ := insertRequest_eq_some hdb
    exact (mem_insert? hT).2 (.inl hrow)
  cases l with
  | create reads input id utcNow now =>
    simp only [exec] at hexec
    split at hexec
    · obtain ⟨db, hdb, rfl⟩ := map_eq_some_iff.1 hexec
      exact hinsert hdb
    · obtain rfl := some.inj hexec
      exact hsame
    · obtain rfl := some.inj hexec
      exact hsame
  | enqueue c f id =>
    obtain ⟨db, hdb, rfl⟩ := map_eq_some_iff.1 hexec
    exact hinsert hdb
  | begin k start request call =>
    simp only [exec] at hexec
    split at hexec
    · next hk =>
      obtain rfl := some.inj hexec
      refine ⟨h.setWithoutRow (fun tx htx => ?_) rfl, advances_of_rows rfl⟩
      obtain rfl := some.inj htx
      exact trivial
    · cases hexec
  | statement k utcNow id =>
    simp only [exec] at hexec
    split at hexec
    · next tx hk =>
      split at hexec
      · cases hexec
      next hfree =>
      obtain rfl := some.inj hexec
      exact ⟨h.statement hk hfree, advances_of_rows rfl⟩
    · cases hexec
  | commit k =>
    simp only [exec] at hexec
    split at hexec
    · next start request call row approval new hk =>
      obtain rfl := some.inj hexec
      exact ⟨h.commit hk, (committed_gate h.gate
        (h.sessions _ (mem_of_getElem? hk) _ rfl)).2⟩
    · cases hexec
  | abort k =>
    obtain rfl := some.inj hexec
    exact ⟨h.setWithoutRow (fun _ => nofun) rfl, advances_of_rows rfl⟩
  | maintain now =>
    obtain ⟨s, hs, hexec⟩ := bind_eq_some_iff.1 hexec
    split at hexec
    · next hspares =>
      obtain rfl := some.inj hexec
      obtain ⟨db₁, db₂, h₁, h₂, h₃⟩ := grows_of_maintenance hs
      refine ⟨h.setStore (((h.gate.grows h₁).grows h₂).grows h₃) ?_ fun row =>
        mem_of_spares hspares, (h₁.advances.trans h₂.advances).trans h₃.advances⟩
      rw [h₃.approvals, h₂.approvals, h₁.approvals]
    · cases hexec
  | claim worker now =>
    obtain ⟨⟨s, claimed⟩, hs, hexec⟩ := bind_eq_some_iff.1 hexec
    simp only at hexec
    split at hexec
    · next hspares =>
      obtain rfl := some.inj hexec
      rcases grows_of_claim hs with hdb | hgrows
      · refine ⟨h.setStore (hdb ▸ h.gate) (by rw [hdb]) fun row => mem_of_spares hspares, ?_⟩
        exact advances_of_rows (by rw [hdb])
      · exact ⟨h.setStore (h.gate.grows hgrows) hgrows.approvals fun row => mem_of_spares hspares,
          hgrows.advances⟩
    · cases hexec
  | move now new =>
    simp only [exec] at hexec
    split at hexec
    · cases hexec
    next hfree =>
    obtain ⟨db, hdb, rfl⟩ := map_eq_some_iff.1 hexec
    refine hgrow (grows_of_updateRequest hdb) fun row hrow hlocked => ?_
    unfold updateRequest at hdb
    split at hdb
    · cases hdb
    split at hdb
    · obtain rfl := some.inj hdb
      have hne : row.id ≠ new.id := fun hid => hfree (hid ▸ hlocked)
      exact mem_replaced hrow hne
    · cases hdb
  | outside db leases owners =>
    obtain rfl := some.inj hexec
    exact ⟨h.setStore ⟨h.gate.once, h.gate.counts, h.gate.gate⟩ rfl fun row hrow _ => hrow,
      advances_of_rows rfl⟩

theorem worldOk_invariant (contextHash : Json → String) :
    (system contextHash).Invariant WorldOk := by
  refine TSys.Inductive.invariant ⟨fun w hinit => ?_, fun w l w' h hstep => (h.step hstep).1⟩
  obtain ⟨hnone, hzero, n, hsessions⟩ := hinit
  refine ⟨⟨?_, fun a ha => ?_, fun r hr hopened => ?_⟩, fun x hx tx htx => ?_, ?_⟩
  · rw [hnone]
    exact nodup_nil
  · rw [hnone] at ha
    cases ha
  · have hone := hopened.1
    rw [hzero r hr] at hone
    exact absurd hone (by decide)
  · rw [hsessions] at hx
    rw [eq_of_mem_replicate hx] at htx
    cases htx
  · rw [hsessions]
    exact apart_replicate (fun r _ hr => nomatch hr) n

/-- In every reachable state, a request with approval requirements that neither waits nor is
cancelled has as many approvals as it requires, of different approvers, under its hash, each
given in its window and, but for the designated operator's confirmation, by another than its
requester. No step changes what a request requires or its hash, and one that approves a request
leaves it with requirements, and with such approvals. -/
theorem approvals_gate_execution (contextHash : Json → String) :
    (system contextHash).Invariant fun w =>
      (∀ r ∈ w.store.db.requests, 1 ≤ r.requiredApprovals → r.status ≠ .waitingApproval →
        r.status ≠ .cancelled → Approved w.store.db r) ∧
      ∀ l w', (system contextHash).step w l w' →
        (∀ r ∈ w.store.db.requests, ∃ r' ∈ w'.store.db.requests,
          r'.id = r.id ∧ SameContext r r') ∧
        ∀ r' ∈ w'.store.db.requests, r'.status = .approved →
          (∀ r ∈ w.store.db.requests, r.id = r'.id → r.status ≠ .approved) →
          1 ≤ r'.requiredApprovals ∧ Approved w'.store.db r' := by
  intro w hreachable
  have h := worldOk_invariant contextHash w hreachable
  refine ⟨fun r hr hone hwaiting hcancelled =>
    h.gate.approved hr (h.gate.gate r hr ⟨hone, hwaiting, hcancelled⟩), fun l w' hstep => ?_⟩
  obtain ⟨h', hadvances⟩ := h.step hstep
  refine ⟨hadvances.kept, fun r' hr' happroved hnot => ?_⟩
  have hone : 1 ≤ r'.requiredApprovals := by
    rcases hadvances.gated r' hr' happroved with hone | ⟨r, hr, hid, hbefore, -⟩
    · exact hone
    · exact absurd hbefore (hnot r hr hid)
  refine ⟨hone, h'.gate.approved hr' (h'.gate.gate r' hr' ⟨hone, ?_, ?_⟩)⟩
  · rw [happroved]
    decide
  · rw [happroved]
    decide

end Clawforge.Approvals

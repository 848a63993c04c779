import Clawforge.Storage.Retention
import Clawforge.Theorems.ReputationCasts

/-!
# What retention keeps

The deletion chooses its assessments once and never asks again, so an assessment that is
linked to an incident in between is deleted all the same (`linked_meanwhile`), and so is
one whose decision a new request rests on. In every run without such a step the deletion
keeps what is protected and deletes the rest (`retention_keeps`).
-/

namespace Clawforge.Retention

open Assessments Bridge EventDelivery Executions Kit Policies TSys Table List Option

variable {pg : Reputation.Postgres} {w w' : World} {db : BridgeDb} {x : AssessmentRow}
  {ids : List Uuid} {a : Bridge.Action} {t : Instant} {N : Nat} {W : Int}

/-- One of its decisions is named by a request that is not simulation-only. -/
def Backed (db : BridgeDb) (x : AssessmentRow) : Prop :=
  ∃ d ∈ db.decisions, d.assessmentId = x.id ∧
    ∃ r ∈ db.executions.requests, references r d.id = true ∧ isReal r.approvalContext ≠ .ok false

def Protected (db : BridgeDb) (x : AssessmentRow) : Prop :=
  x.incidentId ≠ none ∨ Backed db x

/-- The statements of the deletion, its errors included. -/
def Action.ofDeletion : Action → Bool
  | .select _ | .deleteDecisions | .deleteAssessments | .commit | .abort => true
  | _ => false

structure Retains (w : World) (a : Action) (w' : World) : Prop where
  /-- what is protected stays, with its decisions -/
  kept : ∀ x ∈ w.db.assessments, Protected w.db x →
    (∃ x' ∈ w'.db.assessments, x'.id = x.id) ∧
      ∀ d ∈ w.db.decisions, d.assessmentId = x.id →
        ∃ d' ∈ w'.db.decisions, d'.id = d.id ∧ d'.assessmentId = x.id
  /-- a commit leaves nothing else that is older than the cut-off -/
  deleted : a = .commit → ∀ t, w.deletion.cutoff = some t → ∀ x ∈ w.db.assessments,
    x.lastSeen < t → ¬ Protected w.db x →
      (∀ x' ∈ w'.db.assessments, x'.id ≠ x.id) ∧ ∀ d ∈ w'.db.decisions, d.assessmentId ≠ x.id
  /-- nothing is deleted before the commit, nor if a statement raises -/
  raised : a.ofDeletion = true → a ≠ .commit → w'.bridge = w.bridge

/-! ## The condition -/

/-- The request a step of the bridge inserts. -/
def inserted (b : Bridge.World) : Bridge.Action → Option RequestRow
  | .insert _ r => some r
  | .commit k new =>
    match b.sessions[k]? with
    | some (.checking c f []) => some (bridgeRequest c f new)
    | _ => none
  | _ => none

/-- No link of a selected assessment, and no request for one unless simulation-only. -/
def Undisturbed (w : World) : Action → Prop
  | .link x _ => x ∉ w.deletion.doomed
  | .bridge _ _ a => ∀ r, inserted w.bridge a = some r → ∀ d ∈ w.db.decisions,
      references r d.id = true → d.assessmentId ∈ w.deletion.doomed →
        isReal r.approvalContext = .ok false
  | _ => True

/-! ## The selection -/

theorem filterE_referring {rs : List RequestRow}
    (h : filterE (fun r => isReal r.approvalContext) (referring db x) = .ok rs) :
    rs = [] ↔ ¬ Backed db x := by
  have mem_referring : ∀ r, r ∈ referring db x ↔ r ∈ db.executions.requests ∧
      ∃ d ∈ db.decisions, d.assessmentId = x.id ∧ references r d.id = true := by
    intro r
    simp [referring, Table.mem_def]
  constructor
  · rintro rfl ⟨d, hd, hx, r, hr, hrefers, hreal⟩
    have hmem := (mem_referring r).2 ⟨hr, d, hd, hx, hrefers⟩
    obtain ⟨b, hb⟩ := ok_of_filterE h r hmem
    cases b with
    | false => exact hreal hb
    | true => exact absurd ((mem_of_filterE h).2 ⟨hmem, hb⟩) not_mem_nil
  · intro hnone
    rw [eq_nil_iff_forall_not_mem]
    intro r hr
    obtain ⟨hmem, hreal⟩ := (mem_of_filterE h).1 hr
    obtain ⟨hr, d, hd, hx, hrefers⟩ := (mem_referring r).1 hmem
    refine hnone ⟨d, hd, hx, r, hr, hrefers, ?_⟩
    rw [hreal]
    simp

theorem isExpired_iff {b : Bool} (h : isExpired db t x = .ok b) :
    b = true ↔ x.lastSeen < t ∧ ¬ Protected db x := by
  unfold isExpired at h
  unfold Protected
  split at h
  case isTrue hold =>
    obtain ⟨rs, hrs, rfl⟩ := except_map_ok h
    rw [decide_eq_true_eq, filterE_referring hrs]
    simp [hold]
  case isFalse hyoung =>
    cases h
    simp only [Bool.false_eq_true, false_iff, not_and, not_not]
    intro hlt
    by_cases hlinked : x.incidentId = none
    · exact absurd ⟨hlinked, hlt⟩ hyoung
    · exact .inl hlinked

/-- The selection names exactly the expired assessments that nothing protects. -/
theorem mem_doomed (h : doomedAssessments db t = .ok ids) (hx : x ∈ db.assessments) :
    x.id ∈ ids ↔ x.lastSeen < t ∧ ¬ Protected db x := by
  obtain ⟨rows, hrows, rfl⟩ := except_map_ok h
  obtain ⟨b, hb⟩ := ok_of_filterE hrows x hx
  rw [← isExpired_iff hb]
  constructor
  · intro hid
    obtain ⟨y, hy, hyx⟩ := List.mem_map.1 hid
    obtain ⟨hstored, htrue⟩ := (mem_of_filterE hrows).1 hy
    rw [eq_of_key_eq hstored hx hyx, hb] at htrue
    exact Except.ok.inj htrue
  · rintro rfl
    exact List.mem_map.2 ⟨x, (mem_of_filterE hrows).2 ⟨hx, hb⟩, rfl⟩

/-! ## The invariant -/

structure Sound (w : World) : Prop where
  unprotected : ∀ x ∈ w.db.assessments, x.id ∈ w.deletion.doomed → ¬ Protected w.db x
  complete : ∀ t, w.deletion.cutoff = some t → ∀ x ∈ w.db.assessments, x.lastSeen < t →
    ¬ Protected w.db x → x.id ∈ w.deletion.doomed
  decisions : ∀ d ∈ w.db.decisions, d.id ∈ w.deletion.decisions →
    d.assessmentId ∈ w.deletion.doomed
  stored : ∀ id ∈ w.deletion.decisions, ∃ d ∈ w.db.decisions, d.id = id
  assessments : ∀ id ∈ w.deletion.assessments, id ∈ w.deletion.doomed
  /-- the last statement has left no selected assessment and none of its decisions -/
  done : ∀ t ids ds xs, w.deletion = .assessmentsDeleted t ids ds xs →
    (∀ x ∈ w.db.assessments, x.id ∈ ids → x.id ∈ xs) ∧
      ∀ d ∈ w.db.decisions, d.assessmentId ∈ ids → d.id ∈ ds

theorem sound_idle (h : w.deletion = .idle) : Sound w := by
  constructor
  case unprotected =>
    intro x _ hx
    rw [h] at hx
    exact absurd hx not_mem_nil
  case complete =>
    intro t ht
    rw [h] at ht
    cases ht
  case decisions =>
    intro d _ hd
    rw [h] at hd
    exact absurd hd not_mem_nil
  case stored =>
    intro id hid
    rw [h] at hid
    exact absurd hid not_mem_nil
  case assessments =>
    intro id hid
    rw [h] at hid
    exact absurd hid not_mem_nil
  case done =>
    intro t ids ds xs hdone
    rw [h] at hdone
    cases hdone

/-! ## Statements of the deletion -/

theorem sound_select (h : Sound w) (hstep : exec pg w (.select t) = some w') :
    Sound w' ∧ w'.bridge = w.bridge := by
  simp only [exec] at hstep
  split at hstep
  case h_2 => cases hstep
  case h_1 =>
    split at hstep
    case h_2 =>
      cases hstep
      exact ⟨h, rfl⟩
    case h_1 ids hids =>
      cases hstep
      refine ⟨?_, rfl⟩
      constructor
      case unprotected => exact fun x hx hid => ((mem_doomed hids hx).1 hid).2
      case complete =>
        intro t' ht x hx hlt hfree
        cases ht
        exact (mem_doomed hids hx).2 ⟨hlt, hfree⟩
      case decisions => exact fun d _ hd => absurd hd not_mem_nil
      case stored => exact fun id hid => absurd hid not_mem_nil
      case assessments => exact fun id hid => absurd hid not_mem_nil
      case done => exact fun _ _ _ _ hdone => nomatch hdone

theorem mem_decisionsOf {d : DecisionRow} (hd : d ∈ db.decisions) :
    d.id ∈ decisionsOf db ids ↔ d.assessmentId ∈ ids := by
  unfold decisionsOf
  constructor
  · intro hid
    obtain ⟨e, he, hed⟩ := List.mem_map.1 hid
    obtain ⟨hstored, hdoomed⟩ := mem_filter.1 he
    rw [eq_of_key_eq hstored hd hed] at hdoomed
    simpa using hdoomed
  · intro hid
    exact List.mem_map.2 ⟨d, mem_filter.2 ⟨hd, by simpa using hid⟩, rfl⟩

theorem stored_of_decisionsOf {id : Uuid} (h : id ∈ decisionsOf db ids) :
    ∃ d ∈ db.decisions, d.id = id := by
  obtain ⟨d, hd, hid⟩ := List.mem_map.1 h
  exact ⟨d, (mem_filter.1 hd).1, hid⟩

theorem mem_presentOf {id : Uuid} :
    id ∈ presentOf db ids ↔ id ∈ ids ∧ ∃ x ∈ db.assessments, x.id = id := by
  unfold presentOf
  rw [List.mem_map]
  constructor
  · rintro ⟨x, hx, rfl⟩
    obtain ⟨hstored, hdoomed⟩ := mem_filter.1 hx
    exact ⟨by simpa using hdoomed, x, hstored, rfl⟩
  · rintro ⟨hid, x, hx, rfl⟩
    exact ⟨x, mem_filter.2 ⟨hx, by simpa using hid⟩, rfl⟩

theorem sound_deleteDecisions (h : Sound w) (hstep : exec pg w .deleteDecisions = some w') :
    Sound w' ∧ w'.bridge = w.bridge := by
  simp only [exec] at hstep
  split at hstep
  case h_2 => cases hstep
  case h_1 t ids hdel =>
    cases hstep
    have hunprotected := h.unprotected
    have hcomplete := h.complete
    rw [hdel] at hunprotected hcomplete
    exact ⟨⟨hunprotected, hcomplete, fun d hd hid => (mem_decisionsOf hd).1 hid,
      fun id hid => stored_of_decisionsOf hid, fun id hid => absurd hid not_mem_nil,
      fun _ _ _ _ hdone => nomatch hdone⟩, rfl⟩

theorem sound_deleteAssessments (h : Sound w)
    (hstep : exec pg w .deleteAssessments = some w') : Sound w' ∧ w'.bridge = w.bridge := by
  simp only [exec] at hstep
  split at hstep
  case h_2 => cases hstep
  case h_1 t ids ds hdel =>
    split at hstep
    case isTrue =>
      cases hstep
      exact ⟨sound_idle rfl, rfl⟩
    case isFalse horphans =>
      cases hstep
      have hunprotected := h.unprotected
      have hcomplete := h.complete
      have hdecisions := h.decisions
      have hstored := h.stored
      rw [hdel] at hunprotected hcomplete hdecisions hstored
      refine ⟨⟨hunprotected, hcomplete, hdecisions, hstored,
        fun id hid => (mem_presentOf.1 hid).1, ?_⟩, rfl⟩
      intro t' ids' ds' xs hdone
      cases hdone
      refine ⟨fun x hx hid => mem_presentOf.2 ⟨hid, x, hx, rfl⟩, fun d hd hid => ?_⟩
      by_contra hleft
      refine horphans (List.any_eq_true.2 ⟨d, hd, ?_⟩)
      simp [hid, hleft]

/-- A commit keeps what is protected and deletes all that it selected. -/
theorem commit_retains (h : Sound w) (hstep : exec pg w .commit = some w') :
    w'.deletion = .idle ∧ Retains w .commit w' := by
  simp only [exec] at hstep
  split at hstep
  case h_2 => cases hstep
  case h_1 t ids ds xs hdel =>
    cases hstep
    refine ⟨rfl, ?_, ?_, fun _ hne => absurd rfl hne⟩
    · intro x hx hprotected
      have hspared : x.id ∉ w.deletion.doomed := fun hid => h.unprotected x hx hid hprotected
      refine ⟨⟨x, ?_, rfl⟩, fun d hd hdx => ⟨d, ?_, rfl, hdx⟩⟩
      · exact mem_deleteWhere.2 ⟨hx, fun hid => hspared (h.assessments x.id hid)⟩
      · refine mem_deleteWhere.2 ⟨hd, fun hid => hspared ?_⟩
        rw [← hdx]
        exact h.decisions d hd hid
    · intro _ t' ht x hx hlt hfree
      have hid := h.complete t' ht x hx hlt hfree
      obtain ⟨hrows, hdecisions⟩ := h.done t ids ds xs hdel
      rw [hdel] at hid
      refine ⟨fun x' hx' hsame => ?_, fun d hd hdx => ?_⟩
      · refine (mem_deleteWhere.1 hx').2 ?_
        rw [hsame, hdel]
        exact hrows x hx hid
      · obtain ⟨hstored, hkept⟩ := mem_deleteWhere.1 hd
        refine hkept ?_
        rw [hdel]
        exact hdecisions d hstored (by rw [hdx]; exact hid)

/-! ## Steps of the others -/

/-- What the other connections leave of a store: they delete nothing, link once, and change
neither the assessment of a decision nor the context of a request. -/
structure Carried (db db' : BridgeDb) : Prop where
  assessments : ∀ x ∈ db.assessments, ∃ x' ∈ db'.assessments, x'.id = x.id
  rows : ∀ x' ∈ db'.assessments, ∃ x ∈ db.assessments, x'.id = x.id ∧
    x'.lastSeen = x.lastSeen ∧ (x'.incidentId = none → x.incidentId = none)
  decisions : ∀ d ∈ db.decisions, ∃ d' ∈ db'.decisions, d'.id = d.id ∧
    d'.assessmentId = d.assessmentId
  requests : ∀ r ∈ db.executions.requests, ∃ r' ∈ db'.executions.requests,
    r'.approvalContext = r.approvalContext

theorem references_congr {r r' : RequestRow} (h : r'.approvalContext = r.approvalContext)
    (id : Uuid) : references r' id = references r id := by
  unfold references
  rw [h]

theorem Carried.backed {db' : BridgeDb} (h : Carried db db') {x' : AssessmentRow}
    (hid : x'.id = x.id) (hx : Backed db x) : Backed db' x' := by
  obtain ⟨d, hd, hdx, r, hr, hrefers, hreal⟩ := hx
  obtain ⟨d', hd', hdid, hda⟩ := h.decisions d hd
  obtain ⟨r', hr', hcontext⟩ := h.requests r hr
  refine ⟨d', hd', hda.trans (hdx.trans hid.symm), r', hr', ?_, ?_⟩
  · rw [references_congr hcontext, hdid]
    exact hrefers
  · rwa [hcontext]

theorem Carried.retains (h : Carried w.db w'.db) {a : Action} (ha : a.ofDeletion = false) :
    Retains w a w' := by
  refine ⟨fun x hx _ => ⟨?_, fun d hd hdx => ?_⟩, ?_, ?_⟩
  · exact h.assessments x hx
  · obtain ⟨d', hd', hid, hda⟩ := h.decisions d hd
    exact ⟨d', hd', hid, hda.trans hdx⟩
  · rintro rfl
    cases ha
  · intro htrue
    rw [ha] at htrue
    cases htrue

/-- Other steps keep the invariant if they protect no selected assessment, and decide none
of its decisions anew once the last statement has run. -/
theorem Sound.carried (h : Sound w) (hcarried : Carried w.db w'.db)
    (hdel : w'.deletion = w.deletion)
    (hunprotected : ∀ x ∈ w.db.assessments, x.id ∈ w.deletion.doomed → ¬ Protected w.db x →
      ∀ x' ∈ w'.db.assessments, x'.id = x.id → ¬ Protected w'.db x')
    (hdecisions : ∀ d' ∈ w'.db.decisions,
      (∃ d ∈ w.db.decisions, d'.id = d.id ∧ d'.assessmentId = d.assessmentId) ∨
        (d'.id ∉ w.deletion.decisions ∧ d'.assessmentId ∉ w.deletion.assessments ∧
          ∃ x ∈ w.db.assessments, x.id = d'.assessmentId)) : Sound w' := by
  constructor
  case unprotected =>
    intro x' hx' hid
    obtain ⟨x, hx, hsame, -⟩ := hcarried.rows x' hx'
    rw [hdel, hsame] at hid
    exact hunprotected x hx hid (h.unprotected x hx hid) x' hx' hsame
  case complete =>
    intro t ht x' hx' hlt hfree
    obtain ⟨x, hx, hsame, hseen, hlinked⟩ := hcarried.rows x' hx'
    rw [hdel] at ht ⊢
    rw [hsame]
    refine h.complete t ht x hx (hseen ▸ hlt) ?_
    rintro (hx' | hbacked)
    · exact hx' (hlinked (not_not.1 fun hne => hfree (.inl hne)))
    · exact hfree (.inr (hcarried.backed hsame hbacked))
  case decisions =>
    intro d' hd' hid
    rw [hdel] at hid ⊢
    rcases hdecisions d' hd' with ⟨d, hd, hsame, ha⟩ | ⟨hnew, -⟩
    · rw [ha]
      exact h.decisions d hd (hsame ▸ hid)
    · exact absurd hid hnew
  case stored =>
    intro id hid
    rw [hdel] at hid
    obtain ⟨d, hd, hdid⟩ := h.stored id hid
    obtain ⟨d', hd', hsame, -⟩ := hcarried.decisions d hd
    exact ⟨d', hd', hsame.trans hdid⟩
  case assessments =>
    rw [hdel]
    exact h.assessments
  case done =>
    intro t ids ds xs hdone
    rw [hdel] at hdone
    obtain ⟨hrows, hold⟩ := h.done t ids ds xs hdone
    refine ⟨fun x' hx' hid => ?_, fun d' hd' hid => ?_⟩
    · obtain ⟨x, hx, hsame, -⟩ := hcarried.rows x' hx'
      rw [hsame] at hid ⊢
      exact hrows x hx hid
    · rcases hdecisions d' hd' with ⟨d, hd, hsame, ha⟩ | ⟨-, hfree, x, hx, hxd⟩
      · rw [hsame]
        exact hold d hd (ha ▸ hid)
      · -- its assessment is deleted, so it is waited for
        rw [hdone] at hfree
        exact absurd (hrows x hx (hxd ▸ hid)) (hxd ▸ hfree)

theorem mem_link {T : Table AssessmentRow.id} {a i : Uuid} {x' : AssessmentRow} :
    x' ∈ linkSecurityAssessmentIncident T a i ↔
      ∃ x ∈ T, x' = if x.id = a ∧ x.incidentId = none then linked i x else x := by
  unfold linkSecurityAssessmentIncident
  rw [mem_updateWhere]

theorem carried_link (w : World) (a i : Uuid) :
    Carried w.db (withAssessments w (linkSecurityAssessmentIncident w.db.assessments a i)).db where
  assessments := by
    intro x hx
    refine ⟨_, mem_link.2 ⟨x, hx, rfl⟩, ?_⟩
    split <;> rfl
  rows := by
    intro x' hx'
    obtain ⟨x, hx, rfl⟩ := mem_link.1 hx'
    refine ⟨x, hx, ?_⟩
    split
    · exact ⟨rfl, rfl, fun hnone => nomatch hnone⟩
    · exact ⟨rfl, rfl, id⟩
  decisions := fun d hd => ⟨d, hd, rfl, rfl⟩
  requests := fun r hr => ⟨r, hr, rfl⟩

theorem link_eq_some {a i : Uuid} (h : exec pg w (.link a i) = some w') :
    w' = withAssessments w (linkSecurityAssessmentIncident w.db.assessments a i) := by
  simp only [exec] at h
  split at h
  · cases h
  · exact (some.inj h).symm

theorem sound_link (h : Sound w) {a i : Uuid} (hspared : a ∉ w.deletion.doomed)
    (hstep : exec pg w (.link a i) = some w') : Sound w' := by
  obtain rfl := link_eq_some hstep
  refine h.carried (carried_link w a i) rfl ?_ (fun d hd => .inl ⟨d, hd, rfl, rfl⟩)
  intro x hx hid hfree x' hx' hsame
  obtain ⟨y, hy, rfl⟩ := mem_link.1 hx'
  have hyx : y = x := by
    refine eq_of_key_eq hy hx (Eq.trans ?_ hsame)
    split <;> rfl
  subst hyx
  have hother : ¬ (y.id = a ∧ y.incidentId = none) := fun hy => hspared (hy.1 ▸ hid)
  rw [if_neg hother]
  exact hfree

/-- What an upsert leaves of the decisions. -/
theorem persist_cases {T T' : Table DecisionRow.id} {key : String}
    {request : SecurityPolicyDecisionUpsert} {new : Uuid} {now : Instant}
    (h : persistSecurityPolicyDecision T key request new now = some T') :
    (∀ d ∈ T, ∃ d' ∈ T', d'.id = d.id ∧ d'.assessmentId = d.assessmentId) ∧
      ∀ d' ∈ T', (∃ d ∈ T, d'.id = d.id ∧ d'.assessmentId = d.assessmentId) ∨
        (d'.id = new ∧ d'.assessmentId = request.assessmentId ∧ (∀ d ∈ T, d.id ≠ new) ∧
          ∀ d ∈ T, d.dedupeKey ≠ key) := by
  unfold persistSecurityPolicyDecision at h
  split at h
  case isTrue =>
    cases h
    constructor
    · intro d hd
      refine ⟨_, mem_updateWhere.2 ⟨d, hd, rfl⟩, ?_⟩
      split <;> exact ⟨rfl, rfl⟩
    · intro d' hd'
      obtain ⟨d, hd, rfl⟩ := mem_updateWhere.1 hd'
      refine .inl ⟨d, hd, ?_⟩
      split <;> exact ⟨rfl, rfl⟩
  case isFalse hnone =>
    constructor
    · exact fun d hd => ⟨d, (mem_insert? h).2 (.inl hd), rfl, rfl⟩
    · intro d' hd'
      rcases (mem_insert? h).1 hd' with hd | rfl
      · exact .inl ⟨d', hd, rfl, rfl⟩
      · refine .inr ⟨rfl, rfl, fun d hd => key_ne_of_insert? h hd, fun d hd hkey => ?_⟩
        exact hnone (List.any_eq_true.2 ⟨d, hd, decide_eq_true hkey⟩)

theorem sound_persist (h : Sound w) {key : String} {request : SecurityPolicyDecisionUpsert}
    {new : Uuid} {now : Instant} (hstep : exec pg w (.persist key request new now) = some w') :
    Sound w' ∧ Carried w.db w'.db := by
  simp only [exec] at hstep
  split at hstep
  case isFalse => cases hstep
  case isTrue hallowed =>
    obtain ⟨T, hT, rfl⟩ := map_eq_some_iff.1 hstep
    obtain ⟨hkept, hcases⟩ := persist_cases hT
    have hcarried : Carried w.db (withDecisions w T).db :=
      ⟨fun x hx => ⟨x, hx, rfl⟩, fun x hx => ⟨x, hx, rfl, rfl, id⟩, hkept,
        fun r hr => ⟨r, hr, rfl⟩⟩
    -- an insertion has its assessment, not deleted, and an id that no request names
    have hinsert : (∀ d ∈ w.db.decisions, d.dedupeKey ≠ key) →
        (∃ x ∈ w.db.assessments, x.id = request.assessmentId) ∧
          request.assessmentId ∉ w.deletion.assessments ∧
          ∀ r ∈ w.db.executions.requests, references r new = false := by
      intro hkeys
      have hfind : w.db.decisions.rows.find? (fun d => d.dedupeKey = key) = none := by
        rw [find?_eq_none]
        exact fun d hd => by simpa using hkeys d hd
      rw [persistAllowed, hfind] at hallowed
      simpa [and_assoc, Table.mem_def] using hallowed
    refine ⟨h.carried hcarried rfl ?_ ?_, hcarried⟩
    · intro x hx hid hfree x' hx' hsame hprotected
      have hxx : x' = x := eq_of_key_eq hx' hx hsame
      subst hxx
      refine hfree (hprotected.imp_right ?_)
      rintro ⟨d', hd', hdx, r, hr, hrefers, hreal⟩
      rcases hcases d' hd' with ⟨d, hd, hdid, hda⟩ | ⟨hnew, -, -, hkeys⟩
      · exact ⟨d, hd, hda.symm.trans hdx, r, hr, hdid ▸ hrefers, hreal⟩
      · rw [hnew, (hinsert hkeys).2.2 r hr] at hrefers
        cases hrefers
    · intro d' hd'
      rcases hcases d' hd' with hold | ⟨hnew, ha, hfree, hkeys⟩
      · exact .inl hold
      · obtain ⟨hx, hpending, -⟩ := hinsert hkeys
        refine .inr ⟨fun hid => ?_, ha ▸ hpending, ?_⟩
        · obtain ⟨d, hd, hdid⟩ := h.stored d'.id hid
          exact hfree d hd (hdid.trans hnew)
        · rw [ha]
          exact hx

/-- The assessments and decisions are left as they are, and the requests are those of before,
moved on, and the one inserted. -/
structure MovesOn (db db' : BridgeDb) (new : Option RequestRow) : Prop where
  assessments : db'.assessments = db.assessments
  decisions : db'.decisions = db.decisions
  kept : ∀ r ∈ db.executions.requests, ∃ r' ∈ db'.executions.requests, Moved r r'
  cases : ∀ r' ∈ db'.executions.requests,
    (∃ r ∈ db.executions.requests, Moved r r') ∨ new = some r'

theorem MovesOn.refl (db : BridgeDb) (new : Option RequestRow) : MovesOn db db new :=
  ⟨rfl, rfl, fun r hr => ⟨r, hr, .inl rfl⟩, fun r hr => .inl ⟨r, hr, .inl rfl⟩⟩

theorem MovesOn.of_insert {executions : Db} {now : Instant}
    {r : RequestRow} (h : insertRequest db.executions now r = some executions) :
    MovesOn db { db with executions } (some r) := by
  obtain ⟨-, -, T, hT, rfl⟩ := insertRequest_eq_some h
  refine ⟨rfl, rfl, fun x hx => ⟨x, (mem_insert? hT).2 (.inl hx), .inl rfl⟩,
    fun x hx => ?_⟩
  rcases (mem_insert? hT).1 hx with hx | rfl
  · exact .inl ⟨x, hx, .inl rfl⟩
  · exact .inr rfl

/-- A step of the bridge or of another writer of requests moves requests on or inserts one. -/
theorem bridge_movesOn {b b' : Bridge.World} (ha : ∀ db, a ≠ .outside db)
    (h : Bridge.exec pg N W b a = some b') : MovesOn b.db b'.db (inserted b a) := by
  cases a with
  | call k c =>
    obtain ⟨-, -, rfl | rfl⟩ := call_eq_some h
    · exact .refl ..
    · exact .refl ..
  | lock k =>
    obtain ⟨c, -, -, rfl⟩ := lock_eq_some h
    exact .refl ..
  | statement k =>
    obtain ⟨s, s', -, rfl, -⟩ := statement_eq_some h
    exact .refl ..
  | abort k =>
    cases h
    exact .refl ..
  | outside db => exact absurd rfl (ha db)
  | commit k new =>
    obtain ⟨c, f, executions, hk, hinsert, rfl⟩ := commit_eq_some h
    simp only [inserted, hk]
    exact .of_insert hinsert
  | insert now r =>
    obtain ⟨executions, hi, rfl⟩ := map_eq_some_iff.1 h
    exact .of_insert hi
  | update now r =>
    obtain ⟨executions, hu, rfl⟩ := map_eq_some_iff.1 h
    obtain ⟨T, rfl, hrows, hmoved⟩ := updateRequest_eq_some hu
    refine ⟨rfl, rfl, fun x hx => ⟨_, ?_, hmoved x hx⟩, fun x' hx' => ?_⟩
    · rw [Table.mem_def]
      show _ ∈ T.rows
      rw [hrows]
      exact List.mem_map.2 ⟨x, hx, rfl⟩
    · change x' ∈ T.rows at hx'
      rw [hrows] at hx'
      obtain ⟨x, hx, rfl⟩ := List.mem_map.1 hx'
      exact .inl ⟨x, hx, hmoved x hx⟩

theorem bridge_eq_some (h : exec pg w (.bridge N W a) = some w') :
    ∃ b, w' = { w with bridge := b } ∧ MovesOn w.db b.db (inserted w.bridge a) := by
  have hinside : ∀ db, a ≠ .outside db := by
    rintro db rfl
    cases h
  have hexec : (Bridge.exec pg N W w.bridge a).map (fun b => { w with bridge := b }) = some w' := by
    cases a with
    | outside db => exact absurd rfl (hinside db)
    | _ => exact h
  obtain ⟨b, hb, rfl⟩ := map_eq_some_iff.1 hexec
  exact ⟨b, rfl, bridge_movesOn hinside hb⟩

theorem carried_bridge (h : exec pg w (.bridge N W a) = some w') : Carried w.db w'.db := by
  obtain ⟨b, rfl, hassessments, hdecisions, hrequests, -⟩ := bridge_eq_some h
  constructor
  case assessments =>
    rw [World.db, hassessments]
    exact fun x hx => ⟨x, hx, rfl⟩
  case rows =>
    rw [World.db, hassessments]
    exact fun x hx => ⟨x, hx, rfl, rfl, id⟩
  case decisions =>
    show ∀ d ∈ _, ∃ d' ∈ b.db.decisions, _
    rw [hdecisions]
    exact fun d hd => ⟨d, hd, rfl, rfl⟩
  case requests =>
    intro r hr
    obtain ⟨r', hr', hmoved⟩ := hrequests r hr
    exact ⟨r', hr', hmoved.approvalContext⟩

theorem sound_bridge (h : Sound w) (hfree : Undisturbed w (.bridge N W a))
    (hstep : exec pg w (.bridge N W a) = some w') : Sound w' := by
  have hcarried := carried_bridge hstep
  obtain ⟨b, rfl, hassessments, hdecisions, -, hcases⟩ := bridge_eq_some hstep
  refine h.carried hcarried rfl ?_ ?_
  · intro x hx hid hunprotected x' hx' hsame hprotected
    change x' ∈ b.db.assessments at hx'
    rw [hassessments] at hx'
    have hxx : x' = x := eq_of_key_eq hx' hx hsame
    subst hxx
    refine hunprotected (hprotected.imp_right ?_)
    rintro ⟨d, hd, hdx, r', hr', hrefers, hreal⟩
    change d ∈ b.db.decisions at hd
    rw [hdecisions] at hd
    rcases hcases r' hr' with ⟨r, hr, hmoved⟩ | hnew
    · refine ⟨d, hd, hdx, r, hr, ?_, ?_⟩
      · rw [← references_congr hmoved.approvalContext]
        exact hrefers
      · rw [← hmoved.approvalContext]
        exact hreal
    · exact absurd (hfree r' hnew d hd hrefers (hdx ▸ hid)) hreal
  · intro d hd
    change d ∈ b.db.decisions at hd
    rw [hdecisions] at hd
    exact .inl ⟨d, hd, rfl, rfl⟩

/-! ## Every run -/

theorem sound_step (h : Sound w) (a : Action) (hfree : Undisturbed w a)
    (hstep : exec pg w a = some w') : Sound w' := by
  cases a with
  | select t => exact (sound_select h hstep).1
  | deleteDecisions => exact (sound_deleteDecisions h hstep).1
  | deleteAssessments => exact (sound_deleteAssessments h hstep).1
  | commit => exact sound_idle (commit_retains h hstep).1
  | abort =>
    cases hstep
    exact sound_idle rfl
  | link x i => exact sound_link h hfree hstep
  | persist key request new now => exact (sound_persist h hstep).1
  | bridge N W a => exact sound_bridge h hfree hstep

theorem sound_inductive (pg : Reputation.Postgres) :
    ((retentionSystem pg).restrict Undisturbed).Inductive Sound where
  init := fun _ => sound_idle
  step := fun _ a _ h hstep => sound_step h a hstep.1 hstep.2

/-- A statement before the commit, or one that raises, deletes nothing. -/
theorem retains_of_same {a : Action} (hne : a ≠ .commit) (hsame : w'.bridge = w.bridge) :
    Retains w a w' := by
  refine ⟨fun x hx _ => ?_, fun hcommit => absurd hcommit hne, fun _ _ => hsame⟩
  rw [World.db, hsame]
  exact ⟨⟨x, hx, rfl⟩, fun d hd hdx => ⟨d, hd, rfl, hdx⟩⟩

/-- In every run in which nothing protects a selected assessment before the commit, each
commit keeps what is protected and deletes every other assessment before the cut-off, and
nothing else deletes. -/
theorem retention_keeps (pg : Reputation.Postgres) :
    ((retentionSystem pg).restrict Undisturbed).Invariant (fun w =>
      ∀ a w', exec pg w a = some w' → Retains w a w') := by
  intro w hw a w' hstep
  have h := (sound_inductive pg).invariant w hw
  cases a with
  | select t => exact retains_of_same nofun (sound_select h hstep).2
  | deleteDecisions => exact retains_of_same nofun (sound_deleteDecisions h hstep).2
  | deleteAssessments => exact retains_of_same nofun (sound_deleteAssessments h hstep).2
  | commit => exact (commit_retains h hstep).2
  | abort =>
    cases hstep
    exact retains_of_same nofun rfl
  | link x i =>
    obtain rfl := link_eq_some hstep
    exact (carried_link w x i).retains rfl
  | persist key request new now => exact (sound_persist h hstep).2.retains rfl
  | bridge N W a => exact (carried_bridge hstep).retains rfl

instance (w : World) : DecidablePred (Undisturbed w)
  | .link x _ => inferInstanceAs (Decidable (x ∉ w.deletion.doomed))
  | .bridge _ _ a =>
    inferInstanceAs (Decidable (∀ r ∈ inserted w.bridge a, ∀ d ∈ w.db.decisions.rows,
      references r d.id = true → d.assessmentId ∈ w.deletion.doomed →
        isReal r.approvalContext = .ok false))
  | .select _ | .deleteDecisions | .deleteAssessments | .commit | .abort | .persist .. =>
    .isTrue trivial

/-! ## A link between the statements -/

def oldAssessment : AssessmentRow :=
  { id := 1, ruleId := "ssh_bruteforce", ruleVersion := "1", engineVersion := "1",
    dedupeKey := "1", resource := "ip-pseudonym:1", severity := "high", confidence := 90,
    summary := "", eventCount := 5, windowSeconds := 300, bucketStart := 0, firstSeen := 10,
    lastSeen := 20, incidentId := none, threatIntelCorroborated := false, threatIntel := none }

/-- A store with these rows, and no deletion. -/
def storeOf (assessments : Table AssessmentRow.id) (decisions : Table DecisionRow.id)
    (requests : Table RequestRow.id) : World where
  bridge := {
    db := {
      executions := ⟨.empty _, .empty _, .empty _, none, requests, []⟩
      policies := .empty _
      decisions := decisions
      assessments := assessments
      intel := ⟨.empty _, .empty _, .empty _, []⟩
      unresolvedIntent := false
      runtimeStatus := [] }
    sessions := []
    enqueued := [] }
  deletion := .idle

def oneAssessment : World := storeOf ⟨[oldAssessment], by decide⟩ (.empty _) (.empty _)

def decisionOn (id assessment : Uuid) : DecisionRow :=
  { id := id, policyId := 1, policyVersion := 1, assessmentId := assessment, incidentId := none,
    decision := .block, riskScore := 70, evidenceSources := 1, corroborated := false,
    rationale := "", evidenceSnapshot := .object [], evidenceHash := "", isShadow := true,
    dedupeKey := decimal id, updatedAt := 30 }

/-- A request for that decision. -/
def requestFor (decision : Uuid) (simulation : Bool) : RequestRow :=
  { id := decision, actionId := 1, workflowRunId := none, decisionId := none,
    requestedBy := "policy-bridge", requestedById := none, status := .pending, createdAt := 40,
    startedAt := none, finishedAt := none, resultSummary := none, errorSummary := none,
    idempotencyKey := none, requiredApprovals := 1, approvalExpiresAt := none,
    approvalContext := Json.ofFields [("simulation_only", .bool simulation),
      ("security_policy_decision_id", .string (uuidText decision))],
    approvalContextHash := none, retryCount := 0, maxRetries := 0, timeoutSeconds := 60,
    nextRetryAt := none }

/-- Four old assessments and a recent one: the second has a decision with a simulation-only
request, the third one with a request that is none. -/
def fiveAssessments : World :=
  storeOf ⟨[oldAssessment, { oldAssessment with id := 2 }, { oldAssessment with id := 3 },
      { oldAssessment with id := 4 }, { oldAssessment with id := 5, lastSeen := 200 }], by decide⟩
    ⟨[decisionOn 12 2, decisionOn 13 3], by decide⟩
    ⟨[requestFor 12 true, requestFor 13 false], by decide⟩

/-- The fourth is linked to an incident before the deletion, the recent one meanwhile. -/
def undisturbedDeletion : List Action :=
  [.link 4 7, .select 100, .deleteDecisions, .link 5 8, .deleteAssessments]

/-- The first two are deleted, with the decision. -/
theorem retention_keeps_undisturbed : ∃ w w',
    ((retentionSystem Reputation.standardPostgres).restrict Undisturbed).Run fiveAssessments
      undisturbedDeletion w ∧
    exec Reputation.standardPostgres w .commit = some w' ∧
    w'.db.assessments.rows.map AssessmentRow.id = [3, 4, 5] ∧
    w'.db.decisions.rows.map DecisionRow.id = [13] ∧ Retains w .commit w' := by
  have hrun : ((execAll
      (fun w a => if Undisturbed w a then exec Reputation.standardPostgres w a else none)
      fiveAssessments undisturbedDeletion).bind
      (fun w => (exec Reputation.standardPostgres w .commit).map
        (fun w' => (w'.db.assessments.rows.map AssessmentRow.id,
          w'.db.decisions.rows.map DecisionRow.id)))) = some ([3, 4, 5], [13]) := by
    decide +kernel
  obtain ⟨w, hw, hcommit⟩ := bind_eq_some_iff.1 hrun
  obtain ⟨w', hw', hrows⟩ := map_eq_some_iff.1 hcommit
  obtain ⟨hassessments, hdecisions⟩ := Prod.mk.inj hrows
  have hsteps := run_restrict_of_execAll Initial (exec Reputation.standardPostgres) hw
  exact ⟨w, w', hsteps, hw', hassessments, hdecisions,
    retention_keeps _ w ⟨fiveAssessments, _, rfl, hsteps⟩ .commit w' hw'⟩

/-- The assessment is selected, linked to an incident, and deleted. -/
theorem linked_meanwhile :
    ∃ w w', (retentionSystem Reputation.standardPostgres).Reachable w ∧
      exec Reputation.standardPostgres w .commit = some w' ∧ ¬ Retains w .commit w' := by
  let statements : List Action := [.select 100, .link 1 7, .deleteDecisions, .deleteAssessments]
  have hrun : ((execAll (exec Reputation.standardPostgres) oneAssessment statements).bind
      (fun w => (exec Reputation.standardPostgres w .commit).map
        (fun w' => (w.db.assessments.rows, w'.db.assessments.rows)))) =
        some ([linked 7 oldAssessment], []) := by
    decide_cbv
  obtain ⟨w, hw, hcommit⟩ := bind_eq_some_iff.1 hrun
  obtain ⟨w', hw', hrows⟩ := map_eq_some_iff.1 hcommit
  refine ⟨w, w', ⟨oneAssessment, statements, rfl, run_of_execAll Initial _ hw⟩, hw', ?_⟩
  intro hretains
  have hbefore : w.db.assessments.rows = [linked 7 oldAssessment] := congrArg Prod.fst hrows
  have hafter : w'.db.assessments.rows = [] := congrArg Prod.snd hrows
  have hmem : linked 7 oldAssessment ∈ w.db.assessments := by
    rw [Table.mem_def, hbefore]
    exact mem_singleton_self _
  have hprotected : Protected w.db (linked 7 oldAssessment) := .inl (some_ne_none _)
  obtain ⟨⟨x', hx', -⟩, -⟩ := hretains.kept _ hmem hprotected
  rw [Table.mem_def, hafter] at hx'
  cases hx'

end Clawforge.Retention

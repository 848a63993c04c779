import Clawforge.Storage.LearningStore

/-!
# What a learning transaction has done when it commits

The typestate of the store functions, proved from their programs alone: the statements a
transaction has made before each of its own, and the four shapes of a transaction that
commits. Nothing is said yet of the rows other transactions leave around it.
-/

namespace Clawforge.Learning

open Kit List
open Prog (ends_lift ends_pure ends_lift_last)

/-- The statement was answered with `a`. -/
def Did (h : List Event) (c : Statement) (a : c.Result) : Prop := (⟨c, .ok a⟩ : Event) ∈ h

/-- The statement writes to the tables of lessons. -/
def Statement.learns : Statement → Bool
  | .insertLesson _ | .insertRevision _ | .supersedeOthers _ _ | .setStatus _ _ _
  | .insertRecord _ => true
  | _ => false

/-- The statement writes. -/
def Statement.writes : Statement → Bool
  | .insertActor _ | .insertGrant _ | .insertEvidence _ _ | .audit _ | .commit => true
  | c => c.learns

/-- Nothing was written to the tables of lessons. -/
def TrustOnly (h : List Event) : Prop := ∀ e ∈ h, e.call.learns = false

/-- Nothing was written. -/
def NoWrites (h : List Event) : Prop := ∀ e ∈ h, e.call.writes = false

/-- What a review has read before it writes: `c` is the record it inserts. -/
structure ReviewReads (g : List Event) (lid : Uuid) (l : Lesson) (r : Revision)
    (v : VerifiedEvidence) (c : LearningRecord) (status : RevisionStatus) : Prop where
  noWrites : NoWrites g
  lock : Did g (.lock (.lesson lid)) ()
  lessonOf : Did g (.lessonOf c.revisionId) lid
  lesson : Did g (.lesson lid) l
  other : l.ownerId ≠ c.actorId
  granted : Did g (.granted l.ownerId c.actorId) true
  revision : Did g (.revisionForUpdate c.revisionId) r
  live : r.status = .pending ∨ r.status = .active
  attested : Did g (.attestation (r.payload.evidence.key l.ownerId r.payload.repository)) (some v)
  kind : c.kind = .review
  payload : ∃ reason, c.payload = requestedReview status.text reason r.payload.evidence

/-- A transaction that may commit. -/
inductive Complete (h : List Event) : Prop
  | trust : TrustOnly h → Complete h
  | proposed (g l r a) :
      h = g ++ [⟨.insertLesson l, .ok ()⟩] ++ [⟨.insertRevision r, .ok ()⟩] ++
        [⟨.audit a, .ok ()⟩] →
      NoWrites g → r.lessonId = l.id → r.revision = 1 → r.status = .pending → Complete h
  | revised (g l r a) :
      h = g ++ [⟨.insertRevision r, .ok ()⟩] ++ [⟨.audit a, .ok ()⟩] →
      NoWrites g → Did g (.lesson r.lessonId) l → Did g (.nextRevision r.lessonId) r.revision →
      r.status = .pending → Complete h
  | activated (g lid l r v c ids id a) :
      h = g ++ [⟨.supersedeOthers lid c.revisionId, .ok ids⟩] ++
        [⟨.setStatus c.revisionId .active v.verifiedAt, .ok ()⟩] ++ [⟨.newUuid, .ok id⟩] ++
        [⟨.insertRecord c, .ok ()⟩] ++ [⟨.audit a, .ok ()⟩] →
      ReviewReads g lid l r v c .active → Did g (.newerActive lid r.revision) false → Complete h
  | deprecated (g lid l r v c id a) :
      h = g ++ [⟨.setStatus c.revisionId .deprecated v.verifiedAt, .ok ()⟩] ++
        [⟨.newUuid, .ok id⟩] ++ [⟨.insertRecord c, .ok ()⟩] ++ [⟨.audit a, .ok ()⟩] →
      ReviewReads g lid l r v c .deprecated → Complete h
  | attached (g c a) :
      h = g ++ [⟨.insertRecord c, .ok ()⟩] ++ [⟨.audit a, .ok ()⟩] → NoWrites g → Complete h

/-- What a transaction has done before a statement. -/
def May (h : List Event) : Statement → Prop
  | .insertActor row => Did h (.lock (.rotation row.tokenId)) ()
  | .lesson _ | .nextRevision _ | .lessonOf _ | .granted _ _ | .revisionForUpdate _
  | .attestation _ => NoWrites h
  | .newerActive lesson _ | .supersedeOthers lesson _ =>
    NoWrites h ∧ Did h (.lock (.lesson lesson)) ()
  | .commit => Complete h
  | _ => True

/-- The history after a statement. -/
def note (h : List Event) (c : Statement) (reply : Answer c) : List Event := h ++ [⟨c, reply⟩]

/-- From the history `h` the transaction makes only admitted statements, and where it succeeds
`Q` holds. -/
abbrev Sound {α : Type} (Q : List Event → α → Prop) (h : List Event) (x : Transaction α) : Prop :=
  Prog.Ends note May Q h x

section Rules

variable {α β : Type} {may : List Event → Statement → Prop} {h : List Event}

theorem ends_sql {c : Statement} {Q : List Event → β → Prop} {f : c.Result → Transaction β}
    (hmay : may h c) (hf : ∀ a, Prog.Ends note may Q (h ++ [⟨c, .ok a⟩]) (f a)) :
    Prog.Ends note may Q h (sql c >>= f) := by
  refine Prog.Ends.bind (Q := fun h' a => h' = h ++ [⟨c, .ok a⟩])
    (Prog.ends_request hmay fun a => rfl) ?_
  rintro h' a rfl
  exact hf a

theorem ends_sql_last {c : Statement} {Q : List Event → c.Result → Prop} (hmay : may h c)
    (hQ : ∀ a, Q (h ++ [⟨c, .ok a⟩]) a) : Prog.Ends note may Q h (sql c) :=
  Prog.ends_request hmay hQ

theorem ends_ensure {condition : Bool} {message : String} {Q : List Event → β → Prop}
    {f : Unit → Transaction β} (hf : condition = true → Prog.Ends note may Q h (f ())) :
    Prog.Ends note may Q h ((liftM (ensure condition message) : Transaction Unit) >>= f) :=
  ends_lift fun _ hok => hf (ensure_ok hok)

/-- A loop keeps what each of its rounds keeps. -/
theorem ends_forEach {I : List Event → Prop} {f : α → Transaction Unit} {xs : List α}
    (hf : ∀ h x, x ∈ xs → I h → Prog.Ends note may (fun h' _ => I h') h (f x)) (hI : I h) :
    Prog.Ends note may (fun h' _ => I h') h (forEach f xs) := by
  induction xs generalizing h with
  | nil => exact ends_pure hI
  | cons x rest ih =>
    refine Prog.Ends.bind (hf h x mem_cons_self hI) fun h' _ hI' => ?_
    exact ih (fun h y hy => hf h y (mem_cons_of_mem x hy)) hI'

end Rules

/-! ## Histories -/

theorem TrustOnly.concat {h : List Event} {e : Event} (hh : TrustOnly h)
    (he : e.call.learns = false) : TrustOnly (h ++ [e]) :=
  forall_mem_append.mpr ⟨hh, forall_mem_singleton.mpr he⟩

theorem NoWrites.concat {h : List Event} {e : Event} (hh : NoWrites h)
    (he : e.call.writes = false) : NoWrites (h ++ [e]) :=
  forall_mem_append.mpr ⟨hh, forall_mem_singleton.mpr he⟩

theorem noWrites_nil : NoWrites [] := forall_mem_nil _

theorem did_last {h : List Event} {c : Statement} {a : c.Result} :
    Did (h ++ [⟨c, .ok a⟩]) c a :=
  mem_concat_self

theorem Did.concat {h : List Event} {c : Statement} {a : c.Result} {e : Event}
    (hd : Did h c a) : Did (h ++ [e]) c a := mem_append_left _ hd

/-! ## Trust -/

section Trust

variable {h : List Event}

theorem sound_auditIf (inserted : Bool) (row : AuditRow) (hh : TrustOnly h) :
    Sound (fun h' _ => TrustOnly h') h (auditIf inserted row) := by
  unfold auditIf
  split
  · exact ends_sql_last trivial fun _ => hh.concat rfl
  · exact ends_pure hh

theorem sound_onboard (token : Uuid) (hh : TrustOnly h) :
    Sound (fun h' _ => TrustOnly h') h (onboardLearningActorTx token) := by
  refine ends_sql trivial fun _ => ends_sql trivial fun found => ends_ensure fun _ => ?_
  refine ends_sql ?_ fun inserted => sound_auditIf inserted _ ?_
  · exact did_last.concat
  · exact ((hh.concat rfl).concat rfl).concat rfl

theorem sound_link (old new : Uuid) (hh : TrustOnly h) :
    Sound (fun h' _ => TrustOnly h') h (linkLearningRotationTx old new) := by
  refine ends_sql trivial fun _ => ends_sql trivial fun found => ends_ensure fun _ => ?_
  refine ends_sql trivial fun known => ends_lift fun actor _ => ?_
  refine ends_sql trivial fun prior => ends_ensure fun _ => ?_
  refine ends_sql trivial fun owns => ends_ensure fun _ => ?_
  refine ends_sql ?_ fun inserted => sound_auditIf inserted _ ?_
  · exact did_last.concat.concat.concat.concat
  · exact (((((hh.concat rfl).concat rfl).concat rfl).concat rfl).concat rfl).concat rfl

theorem sound_grant (owner reviewer : Uuid) (hh : TrustOnly h) :
    Sound (fun h' _ => TrustOnly h') h (grantLearningCuratorTx owner reviewer) :=
  ends_ensure fun _ => ends_sql trivial fun inserted => sound_auditIf inserted _ (hh.concat rfl)

theorem sound_attest (owner : Uuid) (repository : String) (verifier : Uuid)
    (evidence : LearningEvidence) (hh : TrustOnly h) :
    Sound (fun h' _ => TrustOnly h') h
      (attestLearningEvidenceTx owner repository verifier evidence) :=
  ends_lift fun _ _ => ends_ensure fun _ => ends_ensure fun _ =>
    ends_sql trivial fun inserted => sound_auditIf inserted _ (hh.concat rfl)

theorem sound_bindActor (b : LearningTrustBinding) (prior : Option Uuid) (hh : TrustOnly h) :
    Sound (fun h' _ => TrustOnly h') h (bindActor b prior) := by
  unfold bindActor
  split
  · exact ends_lift_last fun _ _ => hh
  · split
    · refine ends_sql trivial fun known => ends_lift fun actual _ => ends_ensure fun _ => ?_
      exact sound_link _ _ (hh.concat rfl)
    · exact ends_ensure fun _ => sound_onboard _ hh

theorem sound_bindCredential (a : ImportArgs) (b : LearningTrustBinding) (hh : TrustOnly h) :
    Sound (fun h' _ => TrustOnly h') h (bindCredential a b) :=
  ends_sql trivial fun _ => ends_sql trivial fun _ => ends_lift fun _ _ =>
    ends_sql trivial fun prior =>
      sound_bindActor b prior (((hh.concat rfl).concat rfl).concat rfl)

theorem sound_checkDeployment (authorization : Option LearningImportAuthorization)
    (hh : TrustOnly h) :
    Sound (fun h' _ => TrustOnly h') h (checkDeployment authorization) := by
  cases authorization with
  | none => exact ends_pure hh
  | some expected =>
    exact ends_sql trivial fun _ => ends_lift_last fun _ _ => hh.concat rfl

theorem sound_checkExpiry (authorization : Option LearningImportAuthorization)
    (hh : TrustOnly h) :
    Sound (fun h' _ => TrustOnly h') h (checkExpiry authorization) := by
  cases authorization with
  | none => exact ends_pure hh
  | some expected =>
    exact ends_sql trivial fun _ => ends_lift_last fun _ _ => hh.concat rfl

theorem sound_import (a : ImportArgs) :
    Sound (fun _ _ => True) [] (importLearningEvidence a) := by
  refine ends_lift fun _ _ => ?_
  refine Prog.Ends.bind (sound_checkDeployment _ (forall_mem_nil _)) fun h _ hh => ?_
  refine Prog.Ends.bind (ends_forEach (fun h b _ hh => ?_) hh) fun h _ hh => ?_
  · exact ends_sql_last trivial fun _ => TrustOnly.concat hh rfl
  refine Prog.Ends.bind (ends_forEach (fun h b _ => sound_bindCredential a b) hh) fun h _ hh => ?_
  refine Prog.Ends.bind (sound_grant _ _ hh) fun h _ hh => ?_
  refine Prog.Ends.bind (ends_forEach (fun h e _ => sound_attest _ _ _ e) hh) fun h _ hh => ?_
  refine Prog.Ends.bind (ends_forEach (fun h b _ hh => ?_) hh) fun h _ hh => ?_
  · exact ends_sql trivial fun _ => ends_lift_last fun _ _ => TrustOnly.concat hh rfl
  refine Prog.Ends.bind (sound_checkExpiry _ hh) fun h _ hh => ?_
  exact ends_sql_last (.trust hh) fun _ => trivial

/-- A transaction of one trust operation. -/
theorem sound_committed {x : Transaction Unit}
    (hx : Sound (fun h' _ => TrustOnly h') [] x) :
    Sound (fun _ _ => True) [] (x >>= fun _ => sql .commit) :=
  Prog.Ends.bind hx fun _ _ hh => ends_sql_last (.trust hh) fun _ => trivial

end Trust

/-! ## Lessons -/

section Lessons

variable {g : List Event} {status : RevisionStatus}

theorem sound_proposeNew (owner : Uuid) (input : LearningLessonInput) (hg : NoWrites g) :
    Sound (fun _ _ => True) g (proposeNew owner input) := by
  refine ends_sql trivial fun id => ends_sql trivial fun revisionId => ?_
  refine ends_sql trivial fun _ => ends_sql trivial fun _ => ends_sql trivial fun _ => ?_
  refine ends_sql ?_ fun _ => ends_pure trivial
  exact .proposed _ _ _ _ rfl ((hg.concat rfl).concat rfl) rfl rfl rfl

theorem sound_propose (owner : Uuid) (input : LearningLessonInput) :
    Sound (fun _ _ => True) [] (proposeLearning owner input) := by
  refine ends_lift fun _ _ => ends_sql trivial fun _ => ends_sql trivial fun existing => ?_
  cases existing with
  | some found => exact ends_lift fun _ _ => ends_pure trivial
  | none => exact sound_proposeNew owner input ((noWrites_nil.concat rfl).concat rfl)

theorem sound_reviseNew (owner id : Uuid) (input : LearningLessonInput) {l : Lesson}
    (hg : NoWrites g) (hl : Did g (.lesson id) l) :
    Sound (fun _ _ => True) g (reviseNew owner id input) := by
  refine ends_sql hg fun revision => ends_sql trivial fun revisionId => ?_
  refine ends_sql trivial fun _ => ends_sql trivial fun _ => ?_
  refine ends_sql ?_ fun _ => ends_pure trivial
  exact .revised _ l _ _ rfl ((hg.concat rfl).concat rfl) hl.concat.concat did_last.concat rfl

theorem sound_revise (owner id : Uuid) (input : LearningLessonInput) :
    Sound (fun _ _ => True) [] (reviseLearning owner id input) := by
  have hlock : NoWrites [⟨.lock (.lesson id), .ok ()⟩] := noWrites_nil.concat rfl
  refine ends_lift fun _ _ => ends_sql trivial fun _ => ends_sql hlock fun l => ?_
  refine ends_ensure fun _ => ends_ensure fun _ => ends_sql trivial fun existing => ?_
  cases existing with
  | some found => exact ends_lift fun _ _ => ends_pure trivial
  | none =>
    exact sound_reviseNew owner id input ((hlock.concat rfl).concat rfl) did_last.concat

/-! ## Reviews -/

theorem RevisionStatus.ofReview_text {s : String} (h : RevisionStatus.ofReview s = some status) :
    s = status.text ∧ (status = .active ∨ status = .deprecated) := by
  unfold RevisionStatus.ofReview at h
  split at h
  · cases h
    exact ⟨rfl, .inl rfl⟩
  · cases h
    exact ⟨rfl, .inr rfl⟩
  · cases h

theorem LearningReview.validate_ok {review : LearningReview} (h : review.validate = .ok status) :
    review.status = status.text ∧ (status = .active ∨ status = .deprecated) := by
  obtain ⟨s, hs, h⟩ := bind_ok h
  obtain ⟨_, -, h⟩ := bind_ok h
  obtain ⟨_, -, h⟩ := bind_ok h
  obtain ⟨_, -, h⟩ := bind_ok h
  obtain rfl := Except.ok.inj h
  cases hof : RevisionStatus.ofReview review.status with
  | none =>
    rw [hof] at hs
    cases hs
  | some t =>
    rw [hof] at hs
    obtain rfl := Except.ok.inj hs
    exact RevisionStatus.ofReview_text hof

theorem independent_ok {attested : Option VerifiedEvidence} {v : VerifiedEvidence}
    (h : independent attested = .ok v) : attested = some v := by
  cases attested with
  | none => cases h
  | some w => exact congrArg some (Except.ok.inj h)

theorem sound_reviewNew {lid reviewer rid : Uuid} {review : LearningReview} {l : Lesson}
    (hg : NoWrites g) (hlock : Did g (.lock (.lesson lid)) ()) (hof : Did g (.lessonOf rid) lid)
    (hl : Did g (.lesson lid) l) (hother : l.ownerId ≠ reviewer)
    (hgranted : Did g (.granted l.ownerId reviewer) true) (htext : review.status = status.text)
    (hstatus : status = .active ∨ status = .deprecated) :
    Sound (fun _ _ => True) g (reviewNew lid l.ownerId reviewer rid review status) := by
  refine ends_sql hg fun r => ends_ensure fun hlive => ?_
  refine ends_sql (hg.concat rfl) fun attested => ends_lift fun v hv => ?_
  obtain rfl := independent_ok hv
  refine ends_ensure fun hsame => ?_
  rw [Bool.and_eq_true, decide_eq_true_eq] at hsame
  rw [Bool.or_eq_true, decide_eq_true_eq, decide_eq_true_eq] at hlive
  have hreads : ∀ t (id : Uuid), NoWrites t → ReviewReads
      (g ++ [⟨.revisionForUpdate rid, .ok r⟩] ++
        [⟨.attestation (review.evidence.key l.ownerId r.payload.repository), .ok (some v)⟩] ++ t)
      lid l r v ⟨id, rid, reviewer, .review,
        requestedReview review.status review.reason review.evidence, review.idempotencyKey⟩
      status := by
    intro t id ht
    have hmem : ∀ {c : Statement} {a : c.Result}, Did g c a → Did
        (g ++ [⟨.revisionForUpdate rid, .ok r⟩] ++
          [⟨.attestation (review.evidence.key l.ownerId r.payload.repository), .ok (some v)⟩] ++ t)
        c a :=
      fun h => mem_append_left _ h.concat.concat
    exact {
      noWrites := forall_mem_append.mpr ⟨(hg.concat rfl).concat rfl, ht⟩
      lock := hmem hlock
      lessonOf := hmem hof
      lesson := hmem hl
      other := hother
      granted := hmem hgranted
      revision := mem_append_left _ did_last.concat
      live := hlive
      attested := hsame.1 ▸ mem_append_left _ did_last
      kind := rfl
      payload := ⟨review.reason, by rw [htext, hsame.1]⟩ }
  rcases hstatus with rfl | rfl
  · refine Prog.Ends.bind (Q := fun h' _ => ∃ ids, h' =
      g ++ [⟨.revisionForUpdate rid, .ok r⟩] ++
        [⟨.attestation (review.evidence.key l.ownerId r.payload.repository), .ok (some v)⟩] ++
        [⟨.newerActive lid r.revision, .ok false⟩] ++ [⟨.supersedeOthers lid rid, .ok ids⟩])
      ?_ ?_
    · have hnow := (hg.concat (e := ⟨.revisionForUpdate rid, .ok r⟩) rfl).concat
        (e := ⟨.attestation (review.evidence.key l.ownerId r.payload.repository), .ok (some v)⟩) rfl
      refine ends_sql ⟨hnow, hlock.concat.concat⟩ fun newer => ends_ensure fun hnewer => ?_
      rw [Bool.not_eq_true'] at hnewer
      subst hnewer
      exact ends_sql ⟨hnow.concat rfl, hlock.concat.concat.concat⟩ fun ids =>
        ends_pure ⟨ids, rfl⟩
    rintro _ _ ⟨ids, rfl⟩
    refine ends_sql trivial fun _ => ends_sql trivial fun id => ends_sql trivial fun _ => ?_
    refine ends_sql trivial fun _ => ends_sql ?_ fun _ => ends_pure trivial
    exact .activated _ lid l r v _ ids id _ rfl
      (hreads [⟨.newerActive lid r.revision, .ok false⟩] id (noWrites_nil.concat rfl)) did_last
  · refine Prog.Ends.bind (ends_pure (Q := fun h' _ => h' =
      g ++ [⟨.revisionForUpdate rid, .ok r⟩] ++
        [⟨.attestation (review.evidence.key l.ownerId r.payload.repository), .ok (some v)⟩])
      rfl) ?_
    rintro _ _ rfl
    refine ends_sql trivial fun _ => ends_sql trivial fun id => ends_sql trivial fun _ => ?_
    refine ends_sql trivial fun _ => ends_sql ?_ fun _ => ends_pure trivial
    exact .deprecated _ lid l r v _ id _ rfl (append_nil _ ▸ hreads [] id noWrites_nil)

theorem sound_review (reviewer rid : Uuid) (review : LearningReview) :
    Sound (fun _ _ => True) [] (reviewLearning reviewer rid review) := by
  refine ends_lift fun status hstatus => ?_
  obtain ⟨htext, hstatus⟩ := LearningReview.validate_ok hstatus
  refine ends_sql noWrites_nil fun lid => ends_sql trivial fun _ => ?_
  have hg : NoWrites [⟨.lessonOf rid, .ok lid⟩, ⟨.lock (.lesson lid), .ok ()⟩] :=
    (noWrites_nil.concat rfl).concat rfl
  refine ends_sql hg fun l => ends_ensure fun hother => ?_
  refine ends_sql (hg.concat rfl) fun authorized => ends_ensure fun hauthorized => ?_
  subst hauthorized
  refine ends_sql trivial fun existing => ?_
  cases existing with
  | some record => exact ends_lift fun _ _ => ends_pure trivial
  | none =>
    refine sound_reviewNew (((hg.concat rfl).concat rfl).concat rfl) ?_ ?_ ?_
      (of_decide_eq_true hother) ?_ htext hstatus
    · exact (did_last (h := [_])).concat.concat.concat
    · exact (did_last (h := [])).concat.concat.concat.concat
    · exact did_last.concat.concat
    · exact did_last.concat

/-! ## Records -/

theorem sound_attachNew (owner rid : Uuid) (kind : RecordKind) (key : String) (payload : Json)
    (hg : NoWrites g) : Sound (fun _ _ => True) g (attachNew owner rid kind key payload) := by
  refine ends_sql trivial fun id => ends_sql trivial fun _ => ends_sql trivial fun _ => ?_
  refine ends_sql ?_ fun _ => ends_pure trivial
  exact .attached _ _ _ rfl (hg.concat rfl)

theorem sound_attach (owner rid : Uuid) (kind key : String) (payload : Json) :
    Sound (fun _ _ => True) [] (attachLearningRecord owner rid kind key payload) := by
  refine ends_lift fun kind _ => ends_sql noWrites_nil fun lid => ?_
  refine ends_sql trivial fun _ => ends_sql ((noWrites_nil.concat rfl).concat rfl) fun l => ?_
  refine ends_ensure fun _ => ends_sql trivial fun existing => ?_
  cases existing with
  | some record => exact ends_lift fun _ _ => ends_pure trivial
  | none =>
    exact sound_attachNew owner rid kind key payload
      ((((noWrites_nil.concat rfl).concat rfl).concat rfl).concat rfl)

end Lessons

/-! ## Every call -/

theorem sound_done {x : Transaction Unit} (hx : Sound (fun _ _ => True) [] x) :
    Sound (fun _ _ => True) [] (done x) :=
  Prog.Ends.bind hx fun _ _ _ => ends_pure trivial

theorem Job.sound (job : Job) : Sound (fun _ _ => True) [] job.program := by
  have hnil : TrustOnly [] := forall_mem_nil _
  cases job with
  | onboard token => exact sound_done (sound_committed (sound_onboard token hnil))
  | linkRotation old new => exact sound_done (sound_committed (sound_link old new hnil))
  | grant owner reviewer => exact sound_done (sound_committed (sound_grant owner reviewer hnil))
  | attest owner repository verifier evidence =>
    exact sound_done (sound_committed (sound_attest owner repository verifier evidence hnil))
  | importEvidence args => exact sound_done (sound_import args)
  | propose owner input => exact sound_propose owner input
  | revise owner id input => exact sound_revise owner id input
  | review reviewer rid input => exact sound_review reviewer rid input
  | attach owner rid kind key payload => exact sound_attach owner rid kind key payload

end Clawforge.Learning

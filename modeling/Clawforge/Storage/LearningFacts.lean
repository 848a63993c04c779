import Clawforge.Storage.LearningTypestate

/-!
# What a learning transaction knows

What a transaction has read stays true of the committed rows for as long as it holds its
locks: `Fact` says what an answer means, `fact_of_answer` that it is so when it is given,
and `Facts.frame` that the commit of any other transaction leaves it so. At its own commit a
transaction is therefore judged against the rows as they are.
-/

namespace Clawforge.Learning

open Kit List Option

/-! ## What a history writes -/

variable {e : Event} {began : Instant} {h t : List Event} {rows : List Revision} {c : Statement}
  {r : Revision} {S : Db} {a : c.Result}

theorem mem_newActors {row : ActorToken} :
    row ∈ e.newActors ↔ e = ⟨.insertActor row, .ok true⟩ := by
  unfold Event.newActors
  split
  · exact mem_singleton.trans ⟨fun h => h ▸ rfl, fun h => by cases h; rfl⟩
  next hno => exact ⟨(nomatch ·), fun h => (hno row h).elim⟩

theorem mem_newGrants {row : CuratorGrant} :
    row ∈ e.newGrants ↔ e = ⟨.insertGrant row, .ok true⟩ := by
  unfold Event.newGrants
  split
  · exact mem_singleton.trans ⟨fun h => h ▸ rfl, fun h => by cases h; rfl⟩
  next hno => exact ⟨(nomatch ·), fun h => (hno row h).elim⟩

theorem mem_newLessons {row : Lesson} : row ∈ e.newLessons ↔ e = ⟨.insertLesson row, .ok ()⟩ := by
  unfold Event.newLessons
  split
  · exact mem_singleton.trans ⟨fun h => h ▸ rfl, fun h => by cases h; rfl⟩
  next hno => exact ⟨(nomatch ·), fun h => (hno row h).elim⟩

theorem mem_newEvidence {v : VerifiedEvidence} :
    v ∈ e.newEvidence began ↔
      e = ⟨.insertEvidence v.key v.verifierId, .ok true⟩ ∧ v.verifiedAt = began := by
  unfold Event.newEvidence
  split
  · next key verifier =>
    refine mem_singleton.trans ⟨fun h => h ▸ ⟨rfl, rfl⟩, ?_⟩
    rintro ⟨h, rfl⟩
    cases h
    rfl
  next hno => exact ⟨(nomatch ·), fun h => (hno v.key v.verifierId h.1).elim⟩

/-- A row of a history was written by a statement of its own. -/
theorem mem_flatMap_did {ρ : Type} {f : Event → List ρ} {row : ρ}
    (hf : ∀ e, row ∈ f e ↔ e = ⟨c, .ok a⟩) : row ∈ h.flatMap f ↔ Did h c a := by
  rw [mem_flatMap]
  constructor
  · rintro ⟨e, he, hrow⟩
    rw [(hf e).mp hrow] at he
    exact he
  · exact fun h => ⟨_, h, (hf _).mpr rfl⟩

/-- The columns of a revision that no statement changes. -/
def Revision.snapshot (r : Revision) : Uuid × Uuid × Nat × LearningLessonInput :=
  (r.id, r.lessonId, r.revision, r.payload)

theorem revisions_of_not_learns (h : e.call.learns = false) (rows : List Revision) :
    Event.revisions rows e = rows := by
  unfold Event.revisions
  split
  · cases h
  · cases h
  · cases h
  · rfl

theorem foldl_revisions_of_trustOnly (hh : TrustOnly h) (rows : List Revision) :
    h.foldl Event.revisions rows = rows := by
  induction h generalizing rows with
  | nil => rfl
  | cons e h ih =>
    obtain ⟨he, hh⟩ := forall_mem_cons.mp hh
    rw [foldl_cons, revisions_of_not_learns he, ih hh]

/-- Every revision a transaction started from is still there, under its snapshot. -/
theorem foldl_revisions_keeps (h : List Event) (hr : r ∈ rows) :
    ∃ r' ∈ h.foldl Event.revisions rows, r'.snapshot = r.snapshot := by
  induction h generalizing rows r with
  | nil => exact ⟨r, hr, rfl⟩
  | cons e h ih =>
    rw [foldl_cons]
    have hstep : ∃ r' ∈ Event.revisions rows e, r'.snapshot = r.snapshot := by
      unfold Event.revisions
      split
      · exact ⟨r, mem_append_left _ hr, rfl⟩
      · refine ⟨_, List.mem_map_of_mem hr, ?_⟩
        split <;> rfl
      · refine ⟨_, List.mem_map_of_mem hr, ?_⟩
        split <;> rfl
      · exact ⟨r, hr, rfl⟩
    obtain ⟨r', hr', hsame⟩ := hstep
    obtain ⟨r'', hr'', hsame'⟩ := ih hr'
    exact ⟨r'', hr'', hsame'.trans hsame⟩

theorem TrustOnly.of_noWrites (hh : NoWrites h) : TrustOnly h := by
  intro e he
  have := hh e he
  obtain ⟨c, reply⟩ := e
  cases c <;> first | rfl | cases this

/-- What has written nothing sees the committed rows. -/
theorem after_of_noWrites (hh : NoWrites h) (S : Db) (began : Instant) : S.after began h = S := by
  have hnil : ∀ {ρ : Type} (f : Event → List ρ),
      (∀ e : Event, e.call.writes = false → f e = []) → h.flatMap f = [] :=
    fun f hf => flatMap_eq_nil_iff.mpr fun e he => hf e (hh e he)
  unfold Db.after
  rw [foldl_revisions_of_trustOnly (.of_noWrites hh), hnil Event.newActors, hnil Event.newGrants,
    hnil (Event.newEvidence began), hnil Event.newLessons, hnil Event.newRecords,
    hnil Event.newAudit]
  · simp only [append_nil]
  all_goals
    rintro ⟨c, reply⟩ he
    cases c <;> first | rfl | cases he

theorem after_append (S : Db) (began : Instant) (g u : List Event) :
    S.after began (g ++ u) = (S.after began g).after began u := by
  simp only [Db.after, flatMap_append, foldl_append, append_assoc]

theorem learningActor_after {token actor : Uuid} (h : S.learningActor token = some actor) :
    (S.after began t).learningActor token = some actor := by
  unfold Db.learningActor at h ⊢
  obtain ⟨row, hrow, hactor⟩ := map_eq_some_iff.mp h
  show ((S.actors ++ t.flatMap Event.newActors).find? _).map _ = _
  rw [find?_append, hrow, some_or, map_some, hactor]

/-! ## What stays true of an answer -/

/-- The row of a credential. -/
def Db.credential (S : Db) (token : Uuid) : Option AgentToken :=
  S.tokens.find? (·.id = token)

/-- What an answer says of the committed rows `S`, where `h` are the statements before it. -/
def Fact (S : Db) (began : Instant) (h : List Event) : Event → Prop
  | ⟨.actorOf token, .ok (some actor)⟩ => (S.after began h).learningActor token = some actor
  | ⟨.actorOf token, .ok none⟩ =>
    Did h (.lock (.rotation token)) () → (S.after began h).learningActor token = none
  | ⟨.insertActor row, .ok inserted⟩ =>
    inserted = true ↔ (S.after began h).learningActor row.tokenId = none
  | ⟨.insertGrant row, .ok inserted⟩ => inserted = true ↔ row ∉ (S.after began h).grants
  | ⟨.insertEvidence key verifier, .ok inserted⟩ => key.ownerId ≠ verifier ∧
      (inserted = true ↔ ∀ v ∈ (S.after began h).evidence, v.key ≠ key)
  | ⟨.credential token, .ok row⟩ => S.credential token = some row
  | ⟨.lessonOf id, .ok lesson⟩ => ∃ r ∈ S.revisions, r.id = id ∧ r.lessonId = lesson
  | ⟨.lesson id, .ok l⟩ => l ∈ S.lessons ∧ l.id = id
  | ⟨.granted owner reviewer, .ok true⟩ => ⟨owner, reviewer⟩ ∈ S.grants
  | ⟨.attestation key, .ok (some v)⟩ => v ∈ S.evidence ∧ v.key = key ∧ v.verifierId ≠ key.ownerId
  | ⟨.revisionForUpdate id, .ok r⟩ => r ∈ S.revisions ∧ r.id = id
  | ⟨.newerActive lesson revision, .ok false⟩ =>
    ∀ r ∈ S.revisions, r.lessonId = lesson → r.status = .active → r.revision ≤ revision
  | ⟨.supersedeOthers lesson id, .ok ids⟩ =>
    ∀ r ∈ S.revisions, r.id ∈ ids ↔ supersedes lesson id r = true
  | ⟨.nextRevision lesson, .ok n⟩ =>
    n = 1 ∨ ∃ r ∈ S.revisions, r.lessonId = lesson ∧ r.revision + 1 = n
  | ⟨.insertLesson row, .ok ()⟩ => ∀ l ∈ S.lessons, l.id ≠ row.id
  | ⟨.insertRevision row, .ok ()⟩ => ∀ r ∈ S.revisions, r.id ≠ row.id ∧
      (r.lessonId = row.lessonId → r.revision ≠ row.revision)
  | _ => True

theorem fact_error (S : Db) (began : Instant) (h : List Event) (c : Statement) (error : String) :
    Fact S began h ⟨c, .error error⟩ := by
  cases c <;> exact trivial

theorem mem_of_fetchOne {α : Type} {rows : List α} {p : α → Bool} {a : α}
    (h : fetchOne (rows.find? p) = .ok a) : rows.find? p = some a := by
  cases hfind : rows.find? p with
  | none =>
    rw [hfind] at h
    cases h
  | some b =>
    rw [hfind] at h
    exact congrArg some (Except.ok.inj h)

theorem learningActor_eq_none {token : Uuid} :
    S.learningActor token = none ↔ ∀ row ∈ S.actors, row.tokenId ≠ token := by
  unfold Db.learningActor
  rw [map_eq_none_iff, find?_eq_none]
  simp only [decide_eq_true_eq, ne_eq]

theorem le_foldl_max (ns : List Nat) (m : Nat) :
    ns.foldl max m = m ∨ ns.foldl max m ∈ ns := by
  induction ns generalizing m with
  | nil => exact .inl rfl
  | cons n ns ih =>
    rw [foldl_cons]
    rcases ih (max m n) with h | h
    · rcases max_choice m n with hm | hm
      · exact .inl (h.trans hm)
      · exact .inr (mem_cons.mpr (.inl (h.trans hm)))
    · exact .inr (mem_cons_of_mem n h)

/-- A new number is 1, or follows one that is there. -/
theorem nextRevisionOf_ok {lesson : Uuid} {n : Nat} (h : nextRevisionOf rows lesson = .ok n) :
    n = 1 ∨ ∃ r ∈ rows, r.lessonId = lesson ∧ r.revision + 1 = n := by
  unfold nextRevisionOf at h
  dsimp only at h
  split at h
  · obtain rfl := Except.ok.inj h
    rcases le_foldl_max ((rows.filter (·.lessonId = lesson)).map (·.revision)) 0 with hmax | hmax
    · exact .inl (by rw [hmax])
    · obtain ⟨r, hr, hrev⟩ := List.mem_map.mp hmax
      rw [mem_filter, decide_eq_true_eq] at hr
      exact .inr ⟨r, hr.1, hr.2, by rw [hrev]⟩
  · cases h

/-- The columns of the revisions that are compared for a new one. -/
theorem fresh_of_after {row : Revision}
    (hfresh : ∀ r ∈ h.foldl Event.revisions rows, r.id ≠ row.id ∧
      (r.lessonId = row.lessonId → r.revision ≠ row.revision)) :
    ∀ r ∈ rows, r.id ≠ row.id ∧ (r.lessonId = row.lessonId → r.revision ≠ row.revision) := by
  intro r hr
  obtain ⟨r', hr', hsame⟩ := foldl_revisions_keeps h hr
  simp only [Revision.snapshot, Prod.mk.injEq] at hsame
  have := hfresh r' hr'
  rwa [hsame.1, hsame.2.1, hsame.2.2.1] at this

section Answers

variable {site : Deployment} {S : Db} {began now utcNow : Instant} {h : List Event} {uuid : Uuid}

/-- A statement that was admitted is answered with what is so. -/
theorem fact_of_answer (hids : (S.revisions.map (·.id)).Nodup) {c : Statement} (hmay : May h c)
    {reply : Answer c} (hreply : reply = answer site (S.after began h) now uuid utcNow c) :
    Fact S began h ⟨c, reply⟩ := by
  subst hreply
  cases c with
  | actorOf token =>
    show Fact S began h ⟨.actorOf token, .ok ((S.after began h).learningActor token)⟩
    cases hactor : (S.after began h).learningActor token with
    | none => exact fun _ => hactor
    | some actor => exact hactor
  | insertActor row =>
    dsimp only [answer]
    have hnone : (S.after began h).learningActor row.tokenId = none ↔
        (S.after began h).actors.any (fun r => r.tokenId = row.tokenId) = false := by
      rw [learningActor_eq_none, List.any_eq_false]
      simp only [decide_eq_true_eq, ne_eq]
    split
    · next htaken => exact ⟨(nomatch ·), fun h => by rw [hnone.mp h] at htaken; cases htaken⟩
    next hfree =>
    split
    · exact ⟨fun _ => hnone.mpr (Bool.eq_false_iff.mpr hfree), fun _ => rfl⟩
    · exact fact_error ..
  | insertGrant row =>
    dsimp only [answer]
    split
    · exact fact_error ..
    · show (!(S.after began h).grants.contains row) = true ↔ _
      rw [Bool.not_eq_true', ← Bool.not_eq_true, contains_iff_mem]
  | insertEvidence key verifier =>
    dsimp only [answer]
    split
    · exact fact_error ..
    next hne =>
    refine ⟨hne, ?_⟩
    rw [Bool.not_eq_true', List.any_eq_false]
    simp only [decide_eq_true_eq, ne_eq]
  | credential token =>
    cases hreply : answer site (S.after began h) now uuid utcNow (.credential token) with
    | error e => exact fact_error ..
    | ok row => exact mem_of_fetchOne hreply
  | lessonOf id =>
    cases hreply : answer site (S.after began h) now uuid utcNow (.lessonOf id) with
    | error e => exact fact_error ..
    | ok lesson =>
      obtain ⟨r, hr, hlesson⟩ := except_map_ok hreply
      have hfind := mem_of_fetchOne hr
      rw [after_of_noWrites hmay] at hfind
      exact ⟨r, mem_of_find?_eq_some hfind, by simpa using find?_some hfind, hlesson⟩
  | lesson id =>
    cases hreply : answer site (S.after began h) now uuid utcNow (.lesson id) with
    | error e => exact fact_error ..
    | ok l =>
      have hfind := mem_of_fetchOne hreply
      rw [after_of_noWrites hmay] at hfind
      exact ⟨mem_of_find?_eq_some hfind, by simpa using find?_some hfind⟩
  | granted owner reviewer =>
    show Fact S began h ⟨.granted owner reviewer,
      .ok ((S.after began h).grants.contains ⟨owner, reviewer⟩)⟩
    cases hgranted : (S.after began h).grants.contains ⟨owner, reviewer⟩ with
    | false => exact trivial
    | true =>
      rw [after_of_noWrites hmay, contains_iff_mem] at hgranted
      exact hgranted
  | attestation key =>
    dsimp only [answer]
    rw [after_of_noWrites hmay]
    cases hfind : S.evidence.find? (fun v => v.key = key && v.verifierId ≠ key.ownerId) with
    | none => exact trivial
    | some v =>
      have hv := find?_some hfind
      rw [Bool.and_eq_true, decide_eq_true_eq, decide_eq_true_eq] at hv
      exact ⟨mem_of_find?_eq_some hfind, hv⟩
  | revisionForUpdate id =>
    cases hreply : answer site (S.after began h) now uuid utcNow (.revisionForUpdate id) with
    | error e => exact fact_error ..
    | ok r =>
      have hfind := mem_of_fetchOne hreply
      rw [after_of_noWrites hmay] at hfind
      exact ⟨mem_of_find?_eq_some hfind, by simpa using find?_some hfind⟩
  | newerActive lesson revision =>
    dsimp only [answer]
    rw [after_of_noWrites hmay.1]
    cases hany : S.revisions.any
        (fun r => r.lessonId = lesson && revision < r.revision && r.status = .active) with
    | true => exact trivial
    | false =>
      intro r hr hlesson hactive
      by_contra hlt
      have hall := List.any_eq_false.mp hany r hr
      rw [hlesson, hactive, decide_eq_true (Nat.lt_of_not_le hlt)] at hall
      simp at hall
  | supersedeOthers lesson id =>
    dsimp only [answer]
    rw [after_of_noWrites hmay.1]
    intro r hr
    rw [List.mem_map]
    constructor
    · rintro ⟨r', hr', hid⟩
      rw [mem_filter] at hr'
      rw [← inj_on_of_nodup_map hids hr'.1 hr hid]
      exact hr'.2
    · exact fun hsupersedes => ⟨r, mem_filter.mpr ⟨hr, hsupersedes⟩, rfl⟩
  | nextRevision lesson =>
    cases hreply : answer site (S.after began h) now uuid utcNow (.nextRevision lesson) with
    | error e => exact fact_error ..
    | ok n =>
      have hnext := nextRevisionOf_ok hreply
      rwa [after_of_noWrites hmay] at hnext
  | insertLesson row =>
    dsimp only [answer]
    split
    · exact fact_error ..
    next hfree =>
    intro l hl hid
    rw [Bool.not_eq_true, List.any_eq_false] at hfree
    have := hfree l (mem_append_left _ hl)
    rw [hid, decide_eq_true rfl, Bool.true_or] at this
    exact this rfl
  | insertRevision row =>
    dsimp only [answer]
    split
    · exact fact_error ..
    split
    · exact fact_error ..
    next hfree =>
    split
    · refine fresh_of_after (h := h) fun r hr => ?_
      rw [Bool.not_eq_true, List.any_eq_false] at hfree
      have := hfree r hr
      simp only [Bool.or_eq_true, Bool.and_eq_true, decide_eq_true_eq, not_or, not_and] at this
      exact this
    · exact fact_error ..
  | lock | deployment | authorizationValid | utcNow | newUuid | credentialExists
  | credentialActive | ownsLessons | findProposal | findRevision | findRecord | setStatus
  | insertRecord | audit | commit => exact trivial

end Answers

/-! ## What a transaction knows -/

/-- Every answer of the history still holds. -/
def Facts (S : Db) (began : Instant) (t : List Event) : Prop :=
  ∀ h e u, t = h ++ e :: u → Fact S began h e

/-- Every statement of the history was admitted. -/
def Admitted (t : List Event) : Prop := ∀ h e u, t = h ++ e :: u → May h e.call

theorem Facts.of_did (h : Facts S began t) (hd : Did t c a) :
    ∃ g, (∀ e ∈ g, e ∈ t) ∧ Fact S began g ⟨c, .ok a⟩ := by
  obtain ⟨g, u, hsplit⟩ := append_of_mem hd
  exact ⟨g, fun e he => hsplit ▸ mem_append_left _ he, h g _ u hsplit⟩

theorem Admitted.of_did (h : Admitted t) (hd : Did t c a) : ∃ g, (∀ e ∈ g, e ∈ t) ∧ May g c := by
  obtain ⟨g, u, hsplit⟩ := append_of_mem hd
  exact ⟨g, fun e he => hsplit ▸ mem_append_left _ he, h g _ u hsplit⟩

/-- An actor is set under the lock of its credential. -/
theorem Admitted.rotation (h : Admitted t) {row : ActorToken} (hd : Did t (.insertActor row) true) :
    Did t (.lock (.rotation row.tokenId)) () := by
  obtain ⟨g, hg, hmay⟩ := h.of_did hd
  exact hg _ hmay

/-- What a review has read, of the rows as they are. -/
structure Reviewable (S : Db) (lid : Uuid) (l : Lesson) (r : Revision) (v : VerifiedEvidence)
    (c : LearningRecord) : Prop where
  revision : r ∈ S.revisions
  id : r.id = c.revisionId
  lessonId : r.lessonId = lid
  lesson : l ∈ S.lessons
  lessonSame : l.id = lid
  granted : ⟨l.ownerId, c.actorId⟩ ∈ S.grants
  evidence : v ∈ S.evidence
  key : v.key = r.payload.evidence.key l.ownerId r.payload.repository
  verifier : v.verifierId ≠ l.ownerId

theorem ReviewReads.reviewable {g : List Event} {lid : Uuid} {l : Lesson} {v : VerifiedEvidence}
    {c : LearningRecord} {status : RevisionStatus} (hreads : ReviewReads g lid l r v c status)
    (hids : (S.revisions.map (·.id)).Nodup) (hfacts : Facts S began t) (hsub : ∀ e ∈ g, e ∈ t) :
    Reviewable S lid l r v c := by
  obtain ⟨_, -, r', hr', hid', hlid⟩ := hfacts.of_did (hsub _ hreads.lessonOf)
  obtain ⟨_, -, hr, hid⟩ := hfacts.of_did (hsub _ hreads.revision)
  obtain ⟨_, -, hl, hlsame⟩ := hfacts.of_did (hsub _ hreads.lesson)
  obtain ⟨_, -, hgranted⟩ := hfacts.of_did (hsub _ hreads.granted)
  obtain ⟨_, -, hv, hkey, hverifier⟩ := hfacts.of_did (hsub _ hreads.attested)
  have hsame : r' = r := inj_on_of_nodup_map hids hr' hr (hid'.trans hid.symm)
  exact {
    revision := hr
    id := hid
    lessonId := hsame ▸ hlid
    lesson := hl
    lessonSame := hlsame
    granted := hgranted
    evidence := hv
    key := hkey
    verifier := hverifier }

/-! ## What a commit does to the revisions -/

def superseded (ids : List Uuid) (r : Revision) : Revision :=
  if r.id ∈ ids then { r with status := .superseded } else r

def reviewed (id : Uuid) (status : RevisionStatus) (verifiedAt : Instant) (r : Revision) :
    Revision :=
  if r.id = id then { r with status, lastVerified := some verifiedAt } else r

theorem superseded_snapshot (ids : List Uuid) (r : Revision) :
    (superseded ids r).snapshot = r.snapshot := by
  unfold superseded
  split <;> rfl

theorem reviewed_snapshot (id : Uuid) (status : RevisionStatus) (verifiedAt : Instant)
    (r : Revision) : (reviewed id status verifiedAt r).snapshot = r.snapshot := by
  unfold reviewed
  split <;> rfl

variable {hashtextextended : String → Int}

/-- A transaction adds pending revisions and changes some of those it has locked, under the
lock of their lesson. -/
structure Rewrites (hashtextextended : String → Int) (rows rows' : List Revision)
    (t : List Event) (g : Revision → Revision) (new : List Revision) : Prop where
  rows_eq : rows' = rows.map g ++ new
  snapshot : ∀ r, (g r).snapshot = r.snapshot
  locked : ∀ r ∈ rows, g r = r ∨ (.revision r.id ∈ t.flatMap (locksOf hashtextextended) ∧
    Did t (.lock (.lesson r.lessonId)) ())
  pending : ∀ r ∈ new, r.status = .pending ∧ Did t (.insertRevision r) ()

theorem rewrites_of_learnsNothing :
    Rewrites hashtextextended rows rows t id [] where
  rows_eq := by rw [List.map_id, append_nil]
  snapshot _ := rfl
  locked _ _ := .inl rfl
  pending := forall_mem_nil _

theorem rewrites_of_insert (hpending : r.status = .pending) (hd : Did t (.insertRevision r) ()) :
    Rewrites hashtextextended rows (rows ++ [r]) t id [r] where
  rows_eq := by rw [List.map_id]
  snapshot _ := rfl
  locked _ _ := .inl rfl
  pending := forall_mem_singleton.mpr ⟨hpending, hd⟩

theorem mem_locks {l : Lock} (he : e ∈ t) (hl : l ∈ locksOf hashtextextended e) :
    l ∈ t.flatMap (locksOf hashtextextended) :=
  mem_flatMap.mpr ⟨e, he, hl⟩

theorem Complete.rewrites (h : Complete t) (hids : (S.revisions.map (·.id)).Nodup)
    (hfacts : Facts S began t) :
    ∃ g new, Rewrites hashtextextended S.revisions (t.foldl Event.revisions S.revisions) t g new := by
  cases h with
  | trust hh =>
    rw [foldl_revisions_of_trustOnly hh]
    exact ⟨_, _, rewrites_of_learnsNothing⟩
  | proposed g l r a ht hg _ _ hpending | revised g l r a ht hg _ _ hpending =>
    have hrows : t.foldl Event.revisions S.revisions = S.revisions ++ [r] := by
      rw [ht]
      simp only [foldl_append, foldl_cons, foldl_nil,
        foldl_revisions_of_trustOnly (.of_noWrites hg)]
      rfl
    rw [hrows]
    exact ⟨_, _, rewrites_of_insert hpending (ht ▸ did_last.concat)⟩
  | activated g lid l r v c ids id a ht hreads _ =>
    have hsub : ∀ e ∈ g, e ∈ t := fun e he => by
      rw [ht]
      simp only [append_assoc]
      exact mem_append_left _ he
    have hreviewable := hreads.reviewable hids hfacts hsub
    have hids' : Did t (.supersedeOthers lid c.revisionId) ids :=
      ht ▸ did_last.concat.concat.concat.concat
    have hset : Did t (.setStatus c.revisionId .active v.verifiedAt) () :=
      ht ▸ did_last.concat.concat.concat
    obtain ⟨_, -, hsuperseded⟩ := hfacts.of_did hids'
    refine ⟨fun x => reviewed c.revisionId .active v.verifiedAt (superseded ids x), [], ?_⟩
    constructor
    case rows_eq =>
      rw [ht, append_nil]
      refine Eq.trans ?_
        (List.map_map (f := superseded ids) (g := reviewed c.revisionId .active v.verifiedAt))
      simp only [foldl_append, foldl_cons, foldl_nil,
        foldl_revisions_of_trustOnly (.of_noWrites hreads.noWrites)]
      rfl
    case snapshot =>
      exact fun x => (reviewed_snapshot ..).trans (superseded_snapshot ..)
    case locked =>
      intro x hx
      by_cases hid : x.id = c.revisionId
      · have hsame : x = r :=
          inj_on_of_nodup_map hids hx hreviewable.revision (hid.trans hreviewable.id.symm)
        refine .inr ⟨hid ▸ mem_locks hset (mem_singleton_self _), ?_⟩
        rw [hsame, hreviewable.lessonId]
        exact hsub _ hreads.lock
      by_cases hmem : x.id ∈ ids
      · have hsup := (hsuperseded x hx).mp hmem
        simp only [supersedes, Bool.and_eq_true, decide_eq_true_eq] at hsup
        refine .inr ⟨mem_locks hids' (List.mem_map_of_mem hmem), ?_⟩
        rw [hsup.1.1]
        exact hsub _ hreads.lock
      · left
        unfold superseded reviewed
        rw [if_neg hmem, if_neg hid]
    case pending => exact forall_mem_nil _
  | deprecated g lid l r v c id a ht hreads =>
    have hsub : ∀ e ∈ g, e ∈ t := fun e he => by
      rw [ht]
      simp only [append_assoc]
      exact mem_append_left _ he
    have hreviewable := hreads.reviewable hids hfacts hsub
    have hset : Did t (.setStatus c.revisionId .deprecated v.verifiedAt) () :=
      ht ▸ did_last.concat.concat.concat
    refine ⟨reviewed c.revisionId .deprecated v.verifiedAt, [], ?_⟩
    constructor
    case rows_eq =>
      rw [ht, append_nil]
      simp only [foldl_append, foldl_cons, foldl_nil,
        foldl_revisions_of_trustOnly (.of_noWrites hreads.noWrites)]
      rfl
    case snapshot => exact fun x => reviewed_snapshot ..
    case locked =>
      intro x hx
      by_cases hid : x.id = c.revisionId
      · have hsame : x = r :=
          inj_on_of_nodup_map hids hx hreviewable.revision (hid.trans hreviewable.id.symm)
        refine .inr ⟨hid ▸ mem_locks hset (mem_singleton_self _), ?_⟩
        rw [hsame, hreviewable.lessonId]
        exact hsub _ hreads.lock
      · left
        unfold reviewed
        rw [if_neg hid]
    case pending => exact forall_mem_nil _
  | attached g c a ht hg =>
    have hrows : t.foldl Event.revisions S.revisions = S.revisions := by
      rw [ht]
      simp only [foldl_append, foldl_cons, foldl_nil,
        foldl_revisions_of_trustOnly (.of_noWrites hg)]
      rfl
    rw [hrows]
    exact ⟨_, _, rewrites_of_learnsNothing⟩

/-! ## What other transactions leave as it is -/

theorem find?_append_of_none {α : Type} {p : α → Bool} {xs ys : List α}
    (h : ys.find? p = none) (zs : List α) :
    (xs ++ ys ++ zs).find? p = (xs ++ zs).find? p := by
  rw [find?_append, find?_append, find?_append, h, or_none]

section Frame

variable {S : Db} {began began' : Instant} {h t u : List Event} {g : Revision → Revision}
  {new : List Revision} {rows' : List Revision}

/-- Another transaction leaves an actor a transaction sees as it is, unless it is the one that
sets it. -/
theorem learningActor_frame (S : Db) (began began' : Instant) (h u : List Event) (token : Uuid) :
    ((S.after began' u).after began h).learningActor token =
        (S.after began h).learningActor token ∨
      (∃ row, Did u (.insertActor row) true ∧ row.tokenId = token) ∧
        ((S.after began h).learningActor token = none ∨
          ∃ row, Did h (.insertActor row) true ∧ row.tokenId = token) := by
  cases hnew : (u.flatMap Event.newActors).find? (·.tokenId = token) with
  | none =>
    left
    unfold Db.learningActor
    exact congrArg _ (find?_append_of_none hnew _)
  | some row =>
    have hrow : Did u (.insertActor row) true :=
      (mem_flatMap_did fun e => mem_newActors).mp (mem_of_find?_eq_some hnew)
    have htoken : row.tokenId = token := by simpa using find?_some hnew
    cases hold : S.actors.find? (·.tokenId = token) with
    | some row' =>
      left
      unfold Db.learningActor Db.after
      simp only [find?_append, hold, some_or]
    | none =>
      refine .inr ⟨⟨row, hrow, htoken⟩, ?_⟩
      cases hown : (h.flatMap Event.newActors).find? (·.tokenId = token) with
      | none =>
        left
        unfold Db.learningActor Db.after
        simp only [find?_append, hold, hown, or_none, map_none]
      | some row' =>
        exact .inr ⟨row', (mem_flatMap_did fun e => mem_newActors).mp
          (mem_of_find?_eq_some hown), by simpa using find?_some hown⟩

/-- The locks of two transactions. -/
def LocksApart (hashtextextended : String → Int) (t u : List Event) : Prop :=
  ∀ l ∈ t.flatMap (locksOf hashtextextended), l ∉ u.flatMap (locksOf hashtextextended)

theorem LocksApart.absurd (hapart : LocksApart hashtextextended t u) {e' : Event} {l : Lock}
    (he : e ∈ t) (hl : l ∈ locksOf hashtextextended e) (he' : e' ∈ u)
    (hl' : l ∈ locksOf hashtextextended e') : False :=
  hapart l (mem_locks he hl) (mem_locks he' hl')

/-- Two transactions do not hold one advisory lock. -/
theorem LocksApart.key (hapart : LocksApart hashtextextended t u) {key : LockKey}
    (ht : Did t (.lock key) ()) (hu : Did u (.lock key) ()) : False :=
  hapart.absurd ht (mem_singleton_self _) hu (mem_singleton_self _)

section

variable (hrw : Rewrites hashtextextended rows rows' u g new)
include hrw

/-- A row of a lesson whose lock a transaction holds is as it was. -/
theorem Rewrites.mem_locked (hapart : LocksApart hashtextextended t u) {r' : Revision}
    (hr' : r' ∈ rows') (hlock : Did t (.lock (.lesson r'.lessonId)) ()) :
    r' ∈ rows ∨ (r'.status = .pending ∧ Did u (.insertRevision r') ()) := by
  rw [hrw.rows_eq, mem_append, List.mem_map] at hr'
  rcases hr' with ⟨r, hr, rfl⟩ | hnew
  · have hsnapshot := hrw.snapshot r
    simp only [Revision.snapshot, Prod.mk.injEq] at hsnapshot
    rw [hsnapshot.2.1] at hlock
    rcases hrw.locked r hr with hsame | ⟨-, hlock'⟩
    · rw [hsame]
      exact .inl hr
    · exact (hapart.key hlock hlock').elim
  · exact .inr (hrw.pending r' hnew)

theorem Rewrites.mem_of_mem {r : Revision} (hr : r ∈ rows) :
    ∃ r' ∈ rows', r'.snapshot = r.snapshot :=
  ⟨g r, hrw.rows_eq ▸ mem_append_left _ (List.mem_map_of_mem hr), hrw.snapshot r⟩

theorem Rewrites.mem_cases {r' : Revision} (hr' : r' ∈ rows') :
    (∃ r ∈ rows, r' = g r ∧ r'.snapshot = r.snapshot) ∨
      (r'.status = .pending ∧ Did u (.insertRevision r') ()) := by
  rw [hrw.rows_eq, mem_append, List.mem_map] at hr'
  rcases hr' with ⟨r, hr, rfl⟩ | hnew
  · exact .inl ⟨r, hr, rfl, hrw.snapshot r⟩
  · exact .inr (hrw.pending r' hnew)

end

/-- What a transaction knows survives the commit of another. -/
theorem Facts.frame (hfacts : Facts S began t) (hadmitted : Admitted t) (hother : Admitted u)
    (hrw : Rewrites hashtextextended S.revisions (S.after began' u).revisions u g new)
    (hapart : LocksApart hashtextextended t u) : Facts (S.after began' u) began t := by
  intro h e v ht
  have hfact := hfacts h e v ht
  have hmay := hadmitted h e v ht
  have he : e ∈ t := ht ▸ mem_append_right _ mem_cons_self
  have hbefore : ∀ e' ∈ h, e' ∈ t := fun e' he' => ht ▸ mem_append_left _ he'
  obtain ⟨c, reply⟩ := e
  cases reply with
  | error error => exact fact_error ..
  | ok a =>
    cases c with
    | actorOf token =>
      cases a with
      | some actor =>
        rcases learningActor_frame S began began' h u token with hsame | ⟨⟨row, hrow, hid⟩, hown⟩
        · exact hsame.trans hfact
        · rcases hown with hnone | ⟨row', hrow', hid'⟩
          · rw [show (S.after began h).learningActor token = some actor from hfact] at hnone
            cases hnone
          · refine (hapart.absurd (hbefore _ hrow') (mem_singleton_self _) hrow ?_).elim
            rw [hid', ← hid]
            exact mem_singleton_self _
      | none =>
        intro hlock
        rcases learningActor_frame S began began' h u token with hsame | ⟨⟨row, hrow, hid⟩, -⟩
        · exact hsame.trans (hfact hlock)
        · exact (hapart.key (hbefore _ hlock) (hid ▸ hother.rotation hrow)).elim
    | insertActor row =>
      rcases learningActor_frame S began began' h u row.tokenId with hsame | ⟨⟨row', hrow', hid⟩, -⟩
      · show a = true ↔ _
        rw [hsame]
        exact hfact
      · exact (hapart.key (hbefore _ hmay) (hid ▸ hother.rotation hrow')).elim
    | insertGrant row =>
      have hmem : row ∈ ((S.after began' u).after began h).grants ↔
          row ∈ (S.after began h).grants ∨ Did u (.insertGrant row) true := by
        show row ∈ S.grants ++ u.flatMap Event.newGrants ++ h.flatMap Event.newGrants ↔ _
        rw [mem_append, mem_append, mem_flatMap_did fun e => mem_newGrants, or_right_comm,
          ← mem_append]
        rfl
      show a = true ↔ _
      rw [hmem, not_or]
      cases a with
      | true =>
        refine ⟨fun _ => ⟨hfact.mp rfl, fun hrow => ?_⟩, fun _ => rfl⟩
        exact hapart.absurd he (mem_singleton_self _) hrow (mem_singleton_self _)
      | false => exact ⟨(nomatch ·), fun hno => hfact.mpr hno.1⟩
    | insertEvidence key verifier =>
      have hmem : ∀ v, v ∈ ((S.after began' u).after began h).evidence ↔
          v ∈ (S.after began h).evidence ∨ v ∈ u.flatMap (Event.newEvidence began') := by
        intro v
        show v ∈ S.evidence ++ u.flatMap (Event.newEvidence began') ++
          h.flatMap (Event.newEvidence began) ↔ _
        rw [mem_append, mem_append, or_right_comm, ← mem_append]
        rfl
      refine ⟨hfact.1, ?_⟩
      cases a with
      | true =>
        refine ⟨fun _ v hv hkey => ?_, fun _ => rfl⟩
        rcases (hmem v).mp hv with hv | hv
        · exact hfact.2.mp rfl v hv hkey
        · obtain ⟨e', he', hv⟩ := mem_flatMap.mp hv
          rw [(mem_newEvidence.mp hv).1] at he'
          refine hapart.absurd he (mem_singleton_self _) he' ?_
          rw [hkey]
          exact mem_singleton_self _
      | false =>
        exact ⟨(nomatch ·), fun hno => hfact.2.mpr fun v hv => hno v ((hmem v).mpr (.inl hv))⟩
    | credential token => exact hfact
    | lessonOf id =>
      obtain ⟨r, hr, hid, hlesson⟩ := hfact
      obtain ⟨r', hr', hsame⟩ := hrw.mem_of_mem hr
      simp only [Revision.snapshot, Prod.mk.injEq] at hsame
      exact ⟨r', hr', hsame.1.trans hid, hsame.2.1.trans hlesson⟩
    | lesson id => exact ⟨mem_append_left _ hfact.1, hfact.2⟩
    | granted owner reviewer =>
      cases a with
      | false => exact trivial
      | true => exact mem_append_left _ hfact
    | attestation key =>
      cases a with
      | none => exact trivial
      | some v => exact ⟨mem_append_left _ hfact.1, hfact.2⟩
    | revisionForUpdate id =>
      obtain ⟨hr, hid⟩ := hfact
      refine ⟨?_, hid⟩
      rcases hrw.locked a hr with hsame | ⟨hlock, -⟩
      · rw [hrw.rows_eq, mem_append, List.mem_map]
        exact .inl ⟨a, hr, hsame⟩
      · rw [hid] at hlock
        exact (hapart _ (mem_locks he (mem_singleton_self _)) hlock).elim
    | newerActive lesson revision =>
      cases a with
      | true => exact trivial
      | false =>
        intro r hr hlesson hactive
        rcases hrw.mem_locked hapart hr (hlesson ▸ hbefore _ hmay.2) with hold | ⟨hpending, -⟩
        · exact hfact r hold hlesson hactive
        · rw [hactive] at hpending
          cases hpending
    | supersedeOthers lesson id =>
      intro r' hr'
      by_cases hlesson : r'.lessonId = lesson
      · rcases hrw.mem_locked hapart hr' (hlesson ▸ hbefore _ hmay.2) with hold | ⟨hpending, hins⟩
        · exact hfact r' hold
        · -- a row of another transaction is neither superseded here nor active
          refine ⟨fun hmem => ?_, fun hsup => ?_⟩
          · exact (hapart.absurd he (List.mem_map_of_mem hmem) hins mem_cons_self).elim
          · simp [supersedes, hpending] at hsup
      · refine ⟨fun hmem => ?_, fun hsup => ?_⟩
        · rcases hrw.mem_cases hr' with ⟨r, hr, -, hsame⟩ | ⟨-, hins⟩
          · simp only [Revision.snapshot, Prod.mk.injEq] at hsame
            have hsup := (hfact r hr).mp (hsame.1 ▸ hmem)
            simp only [supersedes, Bool.and_eq_true, decide_eq_true_eq] at hsup
            exact (hlesson (hsame.2.1.trans hsup.1.1)).elim
          · exact (hapart.absurd he (List.mem_map_of_mem hmem) hins mem_cons_self).elim
        · simp [supersedes, hlesson] at hsup
    | nextRevision lesson =>
      refine hfact.imp_right ?_
      rintro ⟨r, hr, hlesson, hnext⟩
      obtain ⟨r', hr', hsame⟩ := hrw.mem_of_mem hr
      simp only [Revision.snapshot, Prod.mk.injEq] at hsame
      exact ⟨r', hr', hsame.2.1.trans hlesson, by rw [hsame.2.2.1, hnext]⟩
    | insertLesson row =>
      intro l hl hid
      rcases mem_append.mp hl with hl | hl
      · exact hfact l hl hid
      · rw [mem_flatMap_did fun e => mem_newLessons] at hl
        refine hapart.absurd he mem_cons_self hl ?_
        rw [← hid]
        exact mem_cons_self
    | insertRevision row =>
      intro r' hr'
      rcases hrw.mem_cases hr' with ⟨r, hr, -, hsame⟩ | ⟨-, hins⟩
      · simp only [Revision.snapshot, Prod.mk.injEq] at hsame
        rw [hsame.1, hsame.2.1, hsame.2.2.1]
        exact hfact r hr
      · refine ⟨fun hid => ?_, fun hlesson hrevision => ?_⟩
        · refine hapart.absurd he mem_cons_self hins ?_
          rw [← hid]
          exact mem_cons_self
        · refine hapart.absurd he (mem_cons_of_mem _ (mem_singleton_self _)) hins ?_
          rw [← hlesson, ← hrevision]
          exact mem_cons_of_mem _ (mem_singleton_self _)
    | lock | deployment | authorizationValid | utcNow | newUuid | credentialExists
    | credentialActive | ownsLessons | findProposal | findRevision | findRecord | setStatus
    | insertRecord | audit | commit => exact trivial

/-- Credentials change only where no transaction has locked them. -/
theorem Facts.tokens {tokens : List AgentToken} (hfacts : Facts S began t)
    (hsame : ∀ token row, Did t (.credential token) row → S.credential token = some row →
      ({ S with tokens } : Db).credential token = some row) :
    Facts { S with tokens } began t := by
  intro h e v ht
  have hfact := hfacts h e v ht
  have he : e ∈ t := ht ▸ mem_append_right _ mem_cons_self
  obtain ⟨c, reply⟩ := e
  cases reply with
  | error error => exact fact_error ..
  | ok a =>
    cases c with
    | credential token => exact hsame token a he hfact
    | actorOf | granted | attestation | newerActive => cases a <;> exact hfact
    | _ => exact hfact

end Frame

end Clawforge.Learning

import Clawforge.Storage.LearningFacts

/-!
# Learning trust

The invariant of the learning tables (`Trusted`), kept by every commit of a transaction whose
facts still hold, the invariant of the concurrent transactions (`WorldOk`), and from them what
holds of lessons, revisions and credentials in every run.
-/

namespace Clawforge.Learning

open Kit List Option

/-! ## The invariant of the tables -/

/-- The numbers of a lesson's revisions, as they were inserted. -/
def numbersOf (S : Db) (lesson : Uuid) : List Nat :=
  (S.revisions.filter (·.lessonId = lesson)).map (·.revision)

/-- A curator other than the lesson's owner activated the revision, under a grant of the owner,
with the revision's own evidence, which a verifier other than the owner attested. -/
def Reviewed (S : Db) (r : Revision) : Prop :=
  ∃ l ∈ S.lessons, ∃ c ∈ S.records, ∃ v ∈ S.evidence, ∃ reason : String,
    l.id = r.lessonId ∧ c.revisionId = r.id ∧ c.kind = .review ∧
    c.payload = requestedReview "active" reason r.payload.evidence ∧
    c.actorId ≠ l.ownerId ∧ ⟨l.ownerId, c.actorId⟩ ∈ S.grants ∧
    v.key = r.payload.evidence.key l.ownerId r.payload.repository ∧ v.verifierId ≠ l.ownerId

structure Trusted (S : Db) : Prop where
  actorsOnce : (S.actors.map (·.tokenId)).Nodup
  grantsOnce : S.grants.Nodup
  evidenceOnce : (S.evidence.map (·.key)).Nodup
  lessonsOnce : (S.lessons.map (·.id)).Nodup
  revisionsOnce : (S.revisions.map (·.id)).Nodup
  ofLesson : ∀ r ∈ S.revisions, ∃ l ∈ S.lessons, l.id = r.lessonId
  numbered : ∀ lesson, ∃ n, numbersOf S lesson = range' 1 n
  oneActive : ∀ r ∈ S.revisions, ∀ r' ∈ S.revisions, r.status = .active → r'.status = .active →
    r.lessonId = r'.lessonId → r = r'
  reviewed : ∀ r ∈ S.revisions, r.status = .active → Reviewed S r

variable {S S' : Db} {r : Revision} {g : Revision → Revision} {x : Session} {c : Statement}
  {t : List Event} {y : Session} {env : Env}

theorem Reviewed.mono {r' : Revision} (h : Reviewed S r) (hsame : r'.snapshot = r.snapshot)
    (hlessons : ∀ l ∈ S.lessons, l ∈ S'.lessons) (hrecords : ∀ c ∈ S.records, c ∈ S'.records)
    (hevidence : ∀ v ∈ S.evidence, v ∈ S'.evidence) (hgrants : ∀ row ∈ S.grants, row ∈ S'.grants) :
    Reviewed S' r' := by
  obtain ⟨l, hl, c, hc, v, hv, reason, hlesson, hrevision, hkind, hpayload, hactor, hgrant, hkey,
    hverifier⟩ := h
  simp only [Revision.snapshot, Prod.mk.injEq] at hsame
  refine ⟨l, hlessons l hl, c, hrecords c hc, v, hevidence v hv, reason, ?_, ?_, hkind, ?_, hactor,
    hgrants _ hgrant, ?_, hverifier⟩
  · rw [hlesson, hsame.2.1]
  · rw [hrevision, hsame.1]
  · rw [hpayload, hsame.2.2.2]
  · rw [hkey, hsame.2.2.2]

/-- Two revisions of a lesson have different numbers. -/
theorem Trusted.eq_of_revision (h : Trusted S) {r' : Revision} (hr : r ∈ S.revisions)
    (hr' : r' ∈ S.revisions) (hlesson : r'.lessonId = r.lessonId)
    (hrevision : r'.revision = r.revision) : r' = r := by
  obtain ⟨n, hn⟩ := h.numbered r.lessonId
  have hnodup : (numbersOf S r.lessonId).Nodup := hn ▸ nodup_range'
  refine inj_on_of_nodup_map hnodup ?_ ?_ hrevision
  · exact mem_filter.mpr ⟨hr', decide_eq_true hlesson⟩
  · exact mem_filter.mpr ⟨hr, decide_eq_true rfl⟩

/-! ## What a commit does -/

/-- What a commit does to lessons and revisions. -/
inductive Learned (S S' : Db) : Prop
  | same : S'.lessons = S.lessons → S'.revisions = S.revisions → Learned S S'
  | proposed (l r) : S'.lessons = S.lessons ++ [l] → S'.revisions = S.revisions ++ [r] →
      (∀ x ∈ S.lessons, x.id ≠ l.id) → (∀ x ∈ S.revisions, x.id ≠ r.id) →
      r.lessonId = l.id → r.revision = 1 → r.status = .pending → Learned S S'
  | revised (l r) : S'.lessons = S.lessons → S'.revisions = S.revisions ++ [r] →
      l ∈ S.lessons → l.id = r.lessonId →
      (∀ x ∈ S.revisions, x.id ≠ r.id ∧ (x.lessonId = r.lessonId → x.revision ≠ r.revision)) →
      (r.revision = 1 ∨ ∃ x ∈ S.revisions, x.lessonId = r.lessonId ∧ x.revision + 1 = r.revision) →
      r.status = .pending → Learned S S'
  | activated (l r v c ids reason) : S'.lessons = S.lessons →
      S'.revisions = S.revisions.map
        (fun x => reviewed c.revisionId .active v.verifiedAt (superseded ids x)) →
      Reviewable S r.lessonId l r v c → (r.status = .pending ∨ r.status = .active) →
      c ∈ S'.records → c.kind = .review →
      c.payload = requestedReview "active" reason r.payload.evidence → c.actorId ≠ l.ownerId →
      (∀ x ∈ S.revisions, x.id ∈ ids ↔ supersedes r.lessonId r.id x = true) →
      (∀ x ∈ S.revisions, x.lessonId = r.lessonId → x.status = .active →
        x.revision ≤ r.revision) → Learned S S'
  | deprecated (r verifiedAt) : S'.lessons = S.lessons →
      S'.revisions = S.revisions.map (reviewed r.id .deprecated verifiedAt) →
      r ∈ S.revisions → (r.status = .pending ∨ r.status = .active) → Learned S S'

/-- Every commit of a transaction whose facts hold is one of these. -/
theorem Complete.learned {began : Instant} (h : Complete t) (hids : (S.revisions.map (·.id)).Nodup)
    (hfacts : Facts S began t) : Learned S (S.after began t) := by
  cases h with
  | trust hh =>
    refine .same ?_ (foldl_revisions_of_trustOnly hh _)
    have hnil : t.flatMap Event.newLessons = [] := by
      rw [eq_nil_iff_forall_not_mem]
      intro l hl
      rw [mem_flatMap_did fun e => mem_newLessons] at hl
      cases hh _ hl
    show S.lessons ++ t.flatMap Event.newLessons = S.lessons
    rw [hnil, append_nil]
  | proposed g l r a ht hg hlesson hrevision hpending =>
    obtain ⟨_, -, hl⟩ := hfacts.of_did (c := .insertLesson l) (a := ()) (ht ▸ did_last.concat.concat)
    obtain ⟨_, -, hr⟩ := hfacts.of_did (c := .insertRevision r) (a := ()) (ht ▸ did_last.concat)
    have hafter : S.after began t = S.after began
        [⟨.insertLesson l, .ok ()⟩, ⟨.insertRevision r, .ok ()⟩, ⟨.audit a, .ok ()⟩] := by
      rw [ht, append_assoc, append_assoc, after_append, after_of_noWrites hg]
      rfl
    rw [hafter]
    exact .proposed l r rfl rfl hl (fun x hx => (hr x hx).1) hlesson hrevision hpending
  | revised g l r a ht hg hl hnext hpending =>
    have hsub : ∀ e ∈ g, e ∈ t := fun e he => by
      rw [ht, append_assoc]
      exact mem_append_left _ he
    obtain ⟨_, -, hlmem, hlid⟩ := hfacts.of_did (hsub _ hl)
    obtain ⟨_, -, hnumber⟩ := hfacts.of_did (hsub _ hnext)
    obtain ⟨_, -, hr⟩ := hfacts.of_did (c := .insertRevision r) (a := ()) (ht ▸ did_last.concat)
    have hafter : S.after began t = S.after began
        [⟨.insertRevision r, .ok ()⟩, ⟨.audit a, .ok ()⟩] := by
      rw [ht, append_assoc, after_append, after_of_noWrites hg]
      rfl
    rw [hafter]
    exact .revised l r (append_nil _) rfl hlmem hlid hr hnumber hpending
  | activated g lid l r v c ids id a ht hreads hnewer =>
    have hsub : ∀ e ∈ g, e ∈ t := fun e he => by
      rw [ht]
      simp only [append_assoc]
      exact mem_append_left _ he
    have hreviewable := hreads.reviewable hids hfacts hsub
    obtain ⟨_, -, hsuperseded⟩ := hfacts.of_did (c := .supersedeOthers lid c.revisionId) (a := ids)
      (ht ▸ did_last.concat.concat.concat.concat)
    obtain ⟨_, -, hnewer⟩ := hfacts.of_did (hsub _ hnewer)
    obtain ⟨reason, hpayload⟩ := hreads.payload
    have hafter : S.after began t = S.after began
        [⟨.supersedeOthers lid c.revisionId, .ok ids⟩,
          ⟨.setStatus c.revisionId .active v.verifiedAt, .ok ()⟩, ⟨.newUuid, .ok id⟩,
          ⟨.insertRecord c, .ok ()⟩, ⟨.audit a, .ok ()⟩] := by
      rw [ht, append_assoc, append_assoc, append_assoc, append_assoc,
        after_append, after_of_noWrites hreads.noWrites]
      rfl
    have hlid := hreviewable.lessonId
    subst hlid
    rw [hafter]
    refine .activated l r v c ids reason (append_nil _) ?_ hreviewable hreads.live ?_
      hreads.kind hpayload hreads.other.symm (hreviewable.id ▸ hsuperseded) hnewer
    · exact List.map_map
    · exact mem_concat_self
  | deprecated g lid l r v c id a ht hreads =>
    have hsub : ∀ e ∈ g, e ∈ t := fun e he => by
      rw [ht]
      simp only [append_assoc]
      exact mem_append_left _ he
    have hreviewable := hreads.reviewable hids hfacts hsub
    have hafter : S.after began t = S.after began
        [⟨.setStatus c.revisionId .deprecated v.verifiedAt, .ok ()⟩, ⟨.newUuid, .ok id⟩,
          ⟨.insertRecord c, .ok ()⟩, ⟨.audit a, .ok ()⟩] := by
      rw [ht, append_assoc, append_assoc, append_assoc, after_append,
        after_of_noWrites hreads.noWrites]
      rfl
    rw [hafter]
    refine .deprecated r v.verifiedAt (append_nil _) ?_ hreviewable.revision hreads.live
    rw [hreviewable.id]
    rfl
  | attached g c a ht hg =>
    have hafter : S.after began t = S.after began
        [⟨.insertRecord c, .ok ()⟩, ⟨.audit a, .ok ()⟩] := by
      rw [ht, append_assoc, after_append, after_of_noWrites hg]
      rfl
    rw [hafter]
    exact .same (append_nil _) rfl

/-! ## Statuses -/

theorem superseded_of_not_mem {ids : List Uuid} (h : r.id ∉ ids) :
    superseded ids r = r := if_neg h

theorem reviewed_of_ne {id : Uuid} {status : RevisionStatus} {verifiedAt : Instant} (h : r.id ≠ id) :
    reviewed id status verifiedAt r = r := if_neg h

theorem reviewed_status {id : Uuid} {status : RevisionStatus} {verifiedAt : Instant} (h : r.id = id) :
    (reviewed id status verifiedAt r).status = status := by
  unfold reviewed
  rw [if_pos h]

theorem superseded_status {ids : List Uuid} (h : r.id ∈ ids) :
    (superseded ids r).status = .superseded := by
  unfold superseded
  rw [if_pos h]

/-- A revision after an activation. -/
theorem activation_cases (r : Revision) (ids : List Uuid) (verifiedAt : Instant)
    (x : Revision) :
    (x.id = r.id ∧
        (reviewed r.id .active verifiedAt (superseded ids x)).status = .active) ∨
      (x.id ≠ r.id ∧ x.id ∈ ids ∧
        (reviewed r.id .active verifiedAt (superseded ids x)).status = .superseded) ∨
      (x.id ≠ r.id ∧ x.id ∉ ids ∧ reviewed r.id .active verifiedAt (superseded ids x) = x) := by
  have hid : (superseded ids x).id = x.id := congrArg Prod.fst (superseded_snapshot ids x)
  by_cases hx : x.id = r.id
  · exact .inl ⟨hx, reviewed_status (hid.trans hx)⟩
  · rw [reviewed_of_ne (fun h => hx (hid.symm.trans h))]
    by_cases hmem : x.id ∈ ids
    · exact .inr (.inl ⟨hx, hmem, superseded_status hmem⟩)
    · exact .inr (.inr ⟨hx, hmem, superseded_of_not_mem hmem⟩)

theorem supersedes_iff {lesson id : Uuid} : supersedes lesson id r = true ↔
    r.lessonId = lesson ∧ r.id ≠ id ∧ r.status = .active := by
  simp only [supersedes, Bool.and_eq_true, decide_eq_true_eq, and_assoc]

/-! ## The invariant is kept -/

theorem numbersOf_map (hg : ∀ r, (g r).snapshot = r.snapshot)
    (hrows : S'.revisions = S.revisions.map g) (lesson : Uuid) :
    numbersOf S' lesson = numbersOf S lesson := by
  have hlesson : ∀ r, (g r).lessonId = r.lessonId := fun r =>
    congrArg (fun s => s.2.1) (hg r)
  have hrevision : ∀ r, (g r).revision = r.revision := fun r =>
    congrArg (fun s => s.2.2.1) (hg r)
  unfold numbersOf
  rw [hrows, List.filter_map, List.map_map]
  have hfilter : ((fun r : Revision => decide (r.lessonId = lesson)) ∘ g) =
      fun r => decide (r.lessonId = lesson) := by
    funext r
    simp only [Function.comp_apply, hlesson]
  have hmap : ((fun r : Revision => r.revision) ∘ g) = fun r => r.revision := by
    funext r
    simp only [Function.comp_apply, hrevision]
  rw [hfilter, hmap]

theorem numbersOf_concat (hrows : S'.revisions = S.revisions ++ [r]) (lesson : Uuid) :
    numbersOf S' lesson =
      numbersOf S lesson ++ if r.lessonId = lesson then [r.revision] else [] := by
  unfold numbersOf
  rw [hrows, filter_append, map_append]
  congr 1
  by_cases h : r.lessonId = lesson
  · simp [h]
  · simp [h]

theorem mem_numbersOf {lesson : Uuid} {n : Nat} :
    n ∈ numbersOf S lesson ↔ ∃ r ∈ S.revisions, r.lessonId = lesson ∧ r.revision = n := by
  simp only [numbersOf, List.mem_map, mem_filter, decide_eq_true_eq, and_assoc]

/-- The numbers go on without a gap. -/
theorem Trusted.numbered_concat (h : Trusted S) (hrows : S'.revisions = S.revisions ++ [r])
    (hfresh : ∀ x ∈ S.revisions, x.lessonId = r.lessonId → x.revision ≠ r.revision)
    (hnext : r.revision = 1 ∨
      ∃ x ∈ S.revisions, x.lessonId = r.lessonId ∧ x.revision + 1 = r.revision) (lesson : Uuid) :
    ∃ n, numbersOf S' lesson = range' 1 n := by
  obtain ⟨n, hn⟩ := h.numbered lesson
  rw [numbersOf_concat hrows]
  by_cases hlesson : r.lessonId = lesson
  · rw [if_pos hlesson, hn]
    have hnot : r.revision ∉ range' 1 n := by
      rw [← hn, mem_numbersOf]
      rintro ⟨x, hx, hxl, hxr⟩
      exact hfresh x hx (hxl.trans hlesson.symm) hxr
    have hprev : r.revision = 1 ∨ ∃ m ∈ range' 1 n, m + 1 = r.revision := by
      refine hnext.imp_right ?_
      rintro ⟨x, hx, hxl, hxr⟩
      exact ⟨x.revision, hn ▸ mem_numbersOf.mpr ⟨x, hx, hxl.trans hlesson, rfl⟩, hxr⟩
    have heq : r.revision = 1 + n := by
      simp only [mem_range'_1] at hnot hprev
      rcases hprev with hone | ⟨m, hm, hmr⟩ <;> omega
    refine ⟨n + 1, ?_⟩
    rw [heq, range'_concat, Nat.one_mul]
  · rw [if_neg hlesson, append_nil]
    exact ⟨n, hn⟩

theorem nodup_map_concat {α β : Type} {f : α → β} {xs : List α} {x : α} (h : (xs.map f).Nodup)
    (hx : ∀ y ∈ xs, f y ≠ f x) : ((xs ++ [x]).map f).Nodup := by
  rw [map_append, nodup_append]
  refine ⟨h, nodup_singleton _, ?_⟩
  intro a ha b hb
  obtain ⟨y, hy, rfl⟩ := List.mem_map.mp ha
  rw [map_singleton, mem_singleton] at hb
  exact hb ▸ hx y hy

theorem ofLesson_map (hg : ∀ r, (g r).snapshot = r.snapshot)
    (hrows : S'.revisions = S.revisions.map g) (hlessons : S'.lessons = S.lessons)
    (h : ∀ r ∈ S.revisions, ∃ l ∈ S.lessons, l.id = r.lessonId) :
    ∀ r ∈ S'.revisions, ∃ l ∈ S'.lessons, l.id = r.lessonId := by
  intro r' hr'
  rw [hrows] at hr'
  obtain ⟨r, hr, rfl⟩ := List.mem_map.mp hr'
  have hlesson : (g r).lessonId = r.lessonId := congrArg (fun s => s.2.1) (hg r)
  rw [hlesson, hlessons]
  exact h r hr

theorem ids_map (hg : ∀ r, (g r).snapshot = r.snapshot) (hrows : S'.revisions = S.revisions.map g) :
    S'.revisions.map (·.id) = S.revisions.map (·.id) := by
  rw [hrows, List.map_map]
  exact map_congr_left fun r _ => congrArg Prod.fst (hg r)

/-- The rows of a table a transaction only adds to stay under one key each. -/
theorem nodup_flatMap {ρ κ : Type} {key : ρ → κ} {f : Event → List ρ} {rows : List ρ}
    (hrows : (rows.map key).Nodup)
    (hstep : ∀ g e u, t = g ++ e :: u →
      f e = [] ∨ ∃ row, f e = [row] ∧ ∀ x ∈ rows ++ g.flatMap f, key x ≠ key row) :
    ((rows ++ t.flatMap f).map key).Nodup := by
  induction t using reverseRecOn with
  | nil => rwa [flatMap_nil, append_nil]
  | append_singleton t e ih =>
    have hpre := ih fun g e' u ht => hstep g e' (u ++ [e]) (by rw [ht]; simp)
    rw [flatMap_append, ← append_assoc, flatMap_singleton]
    rcases hstep t e [] rfl with hnil | ⟨row, hrow, hfresh⟩
    · rwa [hnil, append_nil]
    · rw [hrow]
      exact nodup_map_concat hpre hfresh

section Keys

variable {S : Db} {began : Instant} {t : List Event}

theorem Facts.actorsOnce (hfacts : Facts S began t) (h : (S.actors.map (·.tokenId)).Nodup) :
    ((S.after began t).actors.map (·.tokenId)).Nodup := by
  refine nodup_flatMap h fun g e u ht => ?_
  have hfact := hfacts g e u ht
  unfold Event.newActors
  split
  · next row => exact .inr ⟨row, rfl, learningActor_eq_none.mp (hfact.mp rfl)⟩
  · exact .inl rfl

theorem Facts.grantsOnce (hfacts : Facts S began t) (h : S.grants.Nodup) :
    (S.after began t).grants.Nodup := by
  have hmap : ((S.after began t).grants.map id).Nodup := by
    refine nodup_flatMap (by rwa [List.map_id]) fun g e u ht => ?_
    have hfact := hfacts g e u ht
    unfold Event.newGrants
    split
    · next row =>
      refine .inr ⟨row, rfl, fun x hx hsame => ?_⟩
      rw [show x = row from hsame] at hx
      exact hfact.mp rfl hx
    · exact .inl rfl
  rwa [List.map_id] at hmap

theorem Facts.evidenceOnce (hfacts : Facts S began t) (h : (S.evidence.map (·.key)).Nodup) :
    ((S.after began t).evidence.map (·.key)).Nodup := by
  refine nodup_flatMap h fun g e u ht => ?_
  have hfact := hfacts g e u ht
  unfold Event.newEvidence
  split
  · exact .inr ⟨_, rfl, hfact.2.mp rfl⟩
  · exact .inl rfl

end Keys

/-- A commit keeps the invariant. -/
theorem Trusted.commit {began : Instant} (h : Trusted S) (hcomplete : Complete t)
    (hfacts : Facts S began t) : Trusted (S.after began t) := by
  have hlessons : ∀ l ∈ S.lessons, l ∈ (S.after began t).lessons :=
    fun l hl => mem_append_left _ hl
  have hevidenceMono : ∀ v ∈ S.evidence, v ∈ (S.after began t).evidence :=
    fun v hv => mem_append_left _ hv
  have hgrantsMono : ∀ row ∈ S.grants, row ∈ (S.after began t).grants :=
    fun row hrow => mem_append_left _ hrow
  have hmono : ∀ {r r' : Revision}, Reviewed S r → r'.snapshot = r.snapshot →
      Reviewed (S.after began t) r' := fun hr hsame =>
    hr.mono hsame hlessons (fun c hc => mem_append_left _ hc) hevidenceMono hgrantsMono
  have hactors := hfacts.actorsOnce h.actorsOnce
  have hgrants := hfacts.grantsOnce h.grantsOnce
  have hevidence := hfacts.evidenceOnce h.evidenceOnce
  have hlearned := hcomplete.learned h.revisionsOnce hfacts
  generalize S.after began t = S' at *
  have settled : (S'.lessons.map (·.id)).Nodup → (S'.revisions.map (·.id)).Nodup →
      (∀ r ∈ S'.revisions, ∃ l ∈ S'.lessons, l.id = r.lessonId) →
      (∀ lesson, ∃ n, numbersOf S' lesson = range' 1 n) →
      (∀ x ∈ S'.revisions, x.status = .active → x ∈ S.revisions) → Trusted S' :=
    fun hlessonsOnce hrevisionsOnce hof hnumbered hmem =>
      { actorsOnce := hactors
        grantsOnce := hgrants
        evidenceOnce := hevidence
        lessonsOnce := hlessonsOnce
        revisionsOnce := hrevisionsOnce
        ofLesson := hof
        numbered := hnumbered
        oneActive := fun x hx y hy hxa hya =>
          h.oneActive x (hmem x hx hxa) y (hmem y hy hya) hxa hya
        reviewed := fun x hx hactive => hmono (h.reviewed x (hmem x hx hactive) hactive) rfl }
  -- a new revision is pending, so the active ones are those of before
  have appended : ∀ {l : Lesson} {r : Revision}, S'.revisions = S.revisions ++ [r] →
      (∀ x ∈ S.revisions, x.id ≠ r.id) → l ∈ S'.lessons → l.id = r.lessonId →
      r.status = .pending → (S'.lessons.map (·.id)).Nodup →
      (∀ lesson, ∃ n, numbersOf S' lesson = range' 1 n) → Trusted S' := by
    intro l r hr hfresh hl hlid hpending hlessonsOnce hnumbered
    refine settled hlessonsOnce (hr ▸ nodup_map_concat h.revisionsOnce hfresh) (fun x hx => ?_)
      hnumbered fun x hx hactive => ?_
    · rw [hr, mem_append, mem_singleton] at hx
      rcases hx with hx | rfl
      · obtain ⟨l', hl', hid⟩ := h.ofLesson x hx
        exact ⟨l', hlessons l' hl', hid⟩
      · exact ⟨l, hl, hlid⟩
    · rw [hr, mem_append, mem_singleton] at hx
      rcases hx with hx | rfl
      · exact hx
      · rw [hpending] at hactive
        cases hactive
  cases hlearned with
  | same hl hr =>
    refine settled (hl ▸ h.lessonsOnce) (hr ▸ h.revisionsOnce) (hl ▸ hr ▸ h.ofLesson)
      (fun lesson => ?_) fun x hx _ => hr ▸ hx
    unfold numbersOf
    rw [hr]
    exact h.numbered lesson
  | proposed l r hl hr hfreshL hfreshR hlesson hrevision hpending =>
    have hnone : ∀ x ∈ S.revisions, x.lessonId ≠ r.lessonId := by
      intro x hx hsame
      obtain ⟨l', hl', hid⟩ := h.ofLesson x hx
      exact hfreshL l' hl' (hid.trans (hsame.trans hlesson))
    exact appended hr hfreshR (hl ▸ mem_concat_self) hlesson.symm
      hpending (hl ▸ nodup_map_concat h.lessonsOnce hfreshL)
      (h.numbered_concat hr (fun x hx hsame => absurd hsame (hnone x hx)) (.inl hrevision))
  | revised l r hl hr hlmem hlid hfresh hnext hpending =>
    exact appended hr (fun x hx => (hfresh x hx).1) (hlessons l hlmem) hlid hpending
      (hl ▸ h.lessonsOnce) (h.numbered_concat hr (fun x hx => (hfresh x hx).2) hnext)
  | activated l r v c ids reason hl hr hreviewable hlive hc hkind hpayload hactor hids hnewer =>
    have hsnapshot : ∀ x, (Learning.reviewed c.revisionId .active v.verifiedAt
        (superseded ids x)).snapshot = x.snapshot :=
      fun x => (reviewed_snapshot ..).trans (superseded_snapshot ..)
    -- the one active revision of this lesson is the one just activated
    have hcases : ∀ x' ∈ S'.revisions, x'.status = .active →
        (x'.snapshot = r.snapshot) ∨ (x' ∈ S.revisions ∧ x'.lessonId ≠ r.lessonId) := by
      intro x' hx' hactive
      rw [hr, ← hreviewable.id] at hx'
      obtain ⟨x, hx, rfl⟩ := List.mem_map.mp hx'
      rcases activation_cases r ids v.verifiedAt x with
        ⟨hid, -⟩ | ⟨-, -, hstatus⟩ | ⟨hne, hnot, hsame⟩
      · left
        rw [← hreviewable.id] at hsnapshot
        rw [hsnapshot, inj_on_of_nodup_map h.revisionsOnce hx hreviewable.revision hid]
      · rw [hstatus] at hactive
        cases hactive
      · rw [hsame] at hactive ⊢
        refine .inr ⟨hx, fun hlesson => hnot ((hids x hx).mpr ?_)⟩
        exact supersedes_iff.mpr ⟨hlesson, hne, hactive⟩
    have hrevisions : (S'.revisions.map (·.id)).Nodup := (ids_map hsnapshot hr).symm ▸ h.revisionsOnce
    exact {
      actorsOnce := hactors
      grantsOnce := hgrants
      evidenceOnce := hevidence
      lessonsOnce := hl ▸ h.lessonsOnce
      revisionsOnce := hrevisions
      ofLesson := ofLesson_map hsnapshot hr hl h.ofLesson
      numbered := fun lesson => by
        rw [numbersOf_map hsnapshot hr]
        exact h.numbered lesson
      oneActive := fun x hx y hy hxa hya hlesson => by
        rcases hcases x hx hxa with hxr | ⟨hxold, hxl⟩ <;>
          rcases hcases y hy hya with hyr | ⟨hyold, hyl⟩
        · have hid : x.id = y.id := congrArg Prod.fst (hxr.trans hyr.symm)
          exact inj_on_of_nodup_map hrevisions hx hy hid
        · have hxl : x.lessonId = r.lessonId := congrArg (fun s => s.2.1) hxr
          exact absurd (hlesson.symm.trans hxl) hyl
        · have hyl : y.lessonId = r.lessonId := congrArg (fun s => s.2.1) hyr
          exact absurd (hlesson.trans hyl) hxl
        · exact h.oneActive x hxold y hyold hxa hya hlesson
      reviewed := fun x hx hactive => by
        rcases hcases x hx hactive with hxr | ⟨hxold, -⟩
        · simp only [Revision.snapshot, Prod.mk.injEq] at hxr
          refine ⟨l, hlessons l hreviewable.lesson, c, hc, v, ?_, reason, ?_, ?_, hkind, ?_, hactor,
            ?_, ?_, hreviewable.verifier⟩
          · exact hevidenceMono v hreviewable.evidence
          · rw [hxr.2.1, hreviewable.lessonSame]
          · rw [hxr.1, hreviewable.id]
          · rw [hxr.2.2.2, hpayload]
          · exact hgrantsMono _ hreviewable.granted
          · rw [hxr.2.2.2, hreviewable.key]
        · exact hmono (h.reviewed x hxold hactive) rfl }
  | deprecated r verifiedAt hl hr hrmem hlive =>
    have hsnapshot : ∀ x, (Learning.reviewed r.id .deprecated verifiedAt x).snapshot = x.snapshot :=
      fun x => reviewed_snapshot ..
    have hcases : ∀ x' ∈ S'.revisions, x'.status = .active → x' ∈ S.revisions := by
      intro x' hx' hactive
      rw [hr] at hx'
      obtain ⟨x, hx, rfl⟩ := List.mem_map.mp hx'
      by_cases hid : x.id = r.id
      · rw [reviewed_status hid] at hactive
        cases hactive
      · rwa [reviewed_of_ne hid]
    refine settled (hl ▸ h.lessonsOnce) ((ids_map hsnapshot hr).symm ▸ h.revisionsOnce)
      (ofLesson_map hsnapshot hr hl h.ofLesson) (fun lesson => ?_) hcases
    rw [numbersOf_map hsnapshot hr]
    exact h.numbered lesson

/-! ## What never changes back -/

/-- Snapshots stay, terminal statuses stay, and so does the actor of a credential. -/
structure Evolves (S S' : Db) : Prop where
  revisions : ∀ r ∈ S.revisions, ∃ r' ∈ S'.revisions, r'.snapshot = r.snapshot ∧
    (r.status.terminal = true → r'.status = r.status)
  actors : ∀ token actor, S.learningActor token = some actor →
    S'.learningActor token = some actor

/-- Where an active revision is superseded, a newer one is active. -/
def SupersedesOlder (S S' : Db) : Prop :=
  ∀ r ∈ S.revisions, r.status = .active → ∀ r' ∈ S'.revisions, r'.id = r.id →
    r'.status = .superseded →
    ∃ n ∈ S'.revisions, n.lessonId = r.lessonId ∧ n.status = .active ∧ r.revision < n.revision

theorem evolves_of_same (hrevisions : S'.revisions = S.revisions) (hactors : S'.actors = S.actors) :
    Evolves S S' where
  revisions r hr := ⟨r, hrevisions ▸ hr, rfl, fun _ => rfl⟩
  actors token actor h := by
    unfold Db.learningActor at h ⊢
    rw [hactors, h]

theorem Evolves.trans {S'' : Db} (h : Evolves S S') (h' : Evolves S' S'') : Evolves S S'' where
  revisions r hr := by
    obtain ⟨r', hr', hsame, hterminal⟩ := h.revisions r hr
    obtain ⟨r'', hr'', hsame', hterminal'⟩ := h'.revisions r' hr'
    refine ⟨r'', hr'', hsame'.trans hsame, fun ht => ?_⟩
    have hstatus := hterminal ht
    exact (hterminal' (hstatus ▸ ht)).trans hstatus
  actors token actor ha := h'.actors token actor (h.actors token actor ha)

theorem live_not_terminal (h : r.status = .pending ∨ r.status = .active) :
    r.status.terminal = false := by
  rcases h with h | h <;> rw [h] <;> rfl

theorem Learned.keeps (h : Learned S S') (hS : Trusted S) :
    ∀ r ∈ S.revisions, ∃ r' ∈ S'.revisions, r'.snapshot = r.snapshot ∧
      (r.status.terminal = true → r'.status = r.status) := by
  intro r hr
  cases h with
  | same _ hrows => exact ⟨r, hrows ▸ hr, rfl, fun _ => rfl⟩
  | proposed _ _ _ hrows | revised _ _ _ hrows =>
    exact ⟨r, hrows ▸ mem_append_left _ hr, rfl, fun _ => rfl⟩
  | activated l a v c ids reason _ hrows hreviewable hlive _ _ _ _ hids _ =>
    rw [← hreviewable.id] at hrows
    refine ⟨_, hrows ▸ List.mem_map_of_mem hr,
      (reviewed_snapshot ..).trans (superseded_snapshot ..), fun hterminal => ?_⟩
    rcases activation_cases a ids v.verifiedAt r with
      ⟨hid, -⟩ | ⟨-, hmem, -⟩ | ⟨-, -, hsame⟩
    · rw [inj_on_of_nodup_map hS.revisionsOnce hr hreviewable.revision hid,
        live_not_terminal hlive] at hterminal
      cases hterminal
    · rw [(supersedes_iff.mp ((hids r hr).mp hmem)).2.2] at hterminal
      cases hterminal
    · rw [hsame]
  | deprecated a verifiedAt _ hrows ha hlive =>
    refine ⟨_, hrows ▸ List.mem_map_of_mem hr, reviewed_snapshot .., fun hterminal => ?_⟩
    by_cases hid : r.id = a.id
    · rw [inj_on_of_nodup_map hS.revisionsOnce hr ha hid, live_not_terminal hlive] at hterminal
      cases hterminal
    · rw [reviewed_of_ne hid]

theorem supersedesOlder_of_same (hS : Trusted S) (hrevisions : S'.revisions = S.revisions) :
    SupersedesOlder S S' := by
  intro r hr hactive r' hr' hid hsuperseded
  rw [hrevisions] at hr'
  rw [inj_on_of_nodup_map hS.revisionsOnce hr' hr hid, hactive] at hsuperseded
  cases hsuperseded

theorem Learned.supersedesOlder (h : Learned S S') (hS : Trusted S) : SupersedesOlder S S' := by
  intro r hr hactive r' hr' hid hsuperseded
  -- a row that only moved over has kept its status
  have hmoved : r' ∈ S.revisions → False := fun hold => by
    rw [inj_on_of_nodup_map hS.revisionsOnce hold hr hid, hactive] at hsuperseded
    cases hsuperseded
  cases h with
  | same _ hrows => exact (hmoved (hrows ▸ hr')).elim
  | proposed l new _ hrows _ hfresh _ _ _ =>
    rw [hrows, mem_append, mem_singleton] at hr'
    rcases hr' with hold | rfl
    · exact (hmoved hold).elim
    · exact absurd hid.symm (hfresh r hr)
  | revised l new _ hrows _ _ hfresh _ _ =>
    rw [hrows, mem_append, mem_singleton] at hr'
    rcases hr' with hold | rfl
    · exact (hmoved hold).elim
    · exact absurd hid.symm (hfresh r hr).1
  | activated l a v c ids reason _ hrows hreviewable _ _ _ _ _ hids hnewer =>
    rw [← hreviewable.id] at hrows
    rw [hrows] at hr' ⊢
    obtain ⟨x, hx, rfl⟩ := List.mem_map.mp hr'
    have hsnapshot : (reviewed a.id .active v.verifiedAt (superseded ids x)).id = x.id :=
      congrArg Prod.fst ((reviewed_snapshot ..).trans (superseded_snapshot ids x))
    obtain rfl : x = r :=
      inj_on_of_nodup_map hS.revisionsOnce hx hr (hsnapshot.symm.trans hid)
    rcases activation_cases a ids v.verifiedAt x with
      ⟨-, hstatus⟩ | ⟨hne, hmem, -⟩ | ⟨-, -, hsame⟩
    · rw [hstatus] at hsuperseded
      cases hsuperseded
    · obtain ⟨hlesson, -, -⟩ := supersedes_iff.mp ((hids x hx).mp hmem)
      refine ⟨_, List.mem_map_of_mem hreviewable.revision, ?_, ?_, ?_⟩
      · have ha : (reviewed a.id .active v.verifiedAt (superseded ids a)).lessonId = a.lessonId :=
          congrArg (fun s => s.2.1) ((reviewed_snapshot ..).trans (superseded_snapshot ids a))
        exact ha.trans hlesson.symm
      · exact reviewed_status (congrArg Prod.fst (superseded_snapshot ids a))
      · have ha : (reviewed a.id .active v.verifiedAt (superseded ids a)).revision = a.revision :=
          congrArg (fun s => s.2.2.1) ((reviewed_snapshot ..).trans (superseded_snapshot ids a))
        rw [ha]
        refine lt_of_le_of_ne (hnewer x hx hlesson hactive) fun hsame => hne ?_
        rw [hS.eq_of_revision hreviewable.revision hx hlesson hsame]
    · rw [hsame] at hsuperseded
      rw [hactive] at hsuperseded
      cases hsuperseded
  | deprecated a verifiedAt _ hrows ha hlive =>
    rw [hrows] at hr'
    obtain ⟨x, hx, rfl⟩ := List.mem_map.mp hr'
    by_cases hxa : x.id = a.id
    · rw [reviewed_status hxa] at hsuperseded
      cases hsuperseded
    · rw [reviewed_of_ne hxa] at hmoved
      exact (hmoved hx).elim

/-! ## The invariant of the transactions -/

variable {hashtextextended : String → Int} {site : Deployment} {w w' : World}

/-- A transaction knows what it has read, was admitted all along, and goes on as its program. -/
structure SessionOk (S : Db) (x : Session) : Prop where
  facts : Facts S x.began x.history
  admitted : Admitted x.history
  sound : Sound (fun _ _ => True) x.history x.rest

/-- Two sessions hold no common lock. -/
def SessionsApart (hashtextextended : String → Int) (x y : Session) : Prop :=
  ∀ l ∈ x.locks hashtextextended, l ∉ y.locks hashtextextended

theorem SessionsApart.symm (h : SessionsApart hashtextextended x y) :
    SessionsApart hashtextextended y x := fun l hy hx => h l hx hy

structure WorldOk (hashtextextended : String → Int) (w : World) : Prop where
  trusted : Trusted w.db
  sessions : ∀ x ∈ w.sessions, x.isOpen = true → SessionOk w.db x
  apart : Apart (SessionsApart hashtextextended) w.sessions

theorem locks_of_open (h : x.isOpen = true) :
    x.locks hashtextextended = x.history.flatMap (locksOf hashtextextended) := by
  unfold Session.locks
  rw [if_pos h]

theorem locks_of_closed (h : x.isOpen = false) : x.locks hashtextextended = [] := by
  unfold Session.locks
  rw [h]
  rfl

theorem facts_nil (S : Db) (began : Instant) : Facts S began [] := by
  intro h e u ht
  cases h <;> cases ht

theorem admitted_nil : Admitted [] := by
  intro h e u ht
  cases h <;> cases ht

theorem concat_split {g u : List Event} {e f : Event} (h : t ++ [e] = g ++ f :: u) :
    (t = g ∧ e = f) ∨ ∃ u', t = g ++ f :: u' := by
  rcases eq_nil_or_concat u with rfl | ⟨u', b, rfl⟩
  · obtain ⟨hl, hr⟩ := append_inj' h rfl
    cases hr
    exact .inl ⟨hl, rfl⟩
  · have h' : t ++ [e] = (g ++ f :: u') ++ [b] := by
      rw [h]
      simp only [concat_eq_append, append_assoc, cons_append]
    exact .inr ⟨u', (append_inj' h' rfl).1⟩

theorem SessionOk.start (S : Db) (job : Job) (now : Instant) : SessionOk S (.start job now) where
  facts := facts_nil S now
  admitted := admitted_nil
  sound := job.sound

/-- What a call does. -/
theorem exec_call {k : Nat} (h : w.exec hashtextextended site (.call k env) = some w') :
    ∃ x c rest, w.sessions[k]? = some x ∧ x.isOpen = true ∧ x.rest = .call c rest ∧
      waits hashtextextended w k ⟨c, reply site w x env c⟩ = false ∧
      w' = { w with
        db := if c.isCommit && env.commits then x.view w.db else w.db
        sessions := w.sessions.set k
          (x.answered c (reply site w x env c) (rest (reply site w x env c))) } := by
  simp only [World.exec] at h
  split at h
  · cases h
  next x hk =>
  split at h
  · next hopen =>
    split at h
    · cases h
    next c rest hrest =>
    split at h
    · cases h
    next hwaits =>
    exact ⟨x, c, rest, hk, hopen, hrest, Bool.eq_false_iff.mpr hwaits, (some.inj h).symm⟩
  · cases h

/-- A call that did not wait needs nothing another session holds. -/
theorem not_waits {k j : Nat} {e : Event} (h : waits hashtextextended w k e = false) (hj : j ≠ k)
    (hy : w.sessions[j]? = some y) :
    ∀ l ∈ locksOf hashtextextended e, l ∉ y.locks hashtextextended := by
  intro l hl hmem
  unfold waits at h
  rw [List.any_eq_false] at h
  have hmemErase : y ∈ w.sessions.eraseIdx k :=
    mem_eraseIdx_iff_getElem?.mpr ⟨j, hj, hy⟩
  refine h y hmemErase (List.any_eq_true.mpr ⟨l, hl, ?_⟩)
  exact contains_iff_mem.mpr hmem

theorem fact_of_reply (htrusted : Trusted w.db) (hmay : May x.history c) :
    Fact w.db x.began x.history ⟨c, reply site w x env c⟩ := by
  unfold reply
  split
  · exact fact_of_answer htrusted.revisionsOnce hmay rfl
  · exact fact_error ..
  · exact fact_error ..

/-- The session that was answered. -/
theorem SessionOk.answered {rest : Answer c → Prog Answer (Except String Json)}
    (hx : SessionOk w.db x) (htrusted : Trusted w.db) (hrest : x.rest = .call c rest) :
    SessionOk w.db (x.answered c (reply site w x env c) (rest (reply site w x env c))) := by
  have hsound : Sound (fun _ _ => True) x.history
      (ExceptT.mk (.call c rest) : Transaction Json) := hrest ▸ hx.sound
  constructor
  case facts =>
    intro h e u ht
    rcases concat_split ht with ⟨rfl, rfl⟩ | ⟨u', hold⟩
    · exact fact_of_reply htrusted hsound.1
    · exact hx.facts h e u' hold
  case admitted =>
    intro h e u ht
    rcases concat_split ht with ⟨rfl, rfl⟩ | ⟨u', hold⟩
    · exact hsound.1
    · exact hx.admitted h e u' hold
  case sound => exact hsound.2 _ trivial

theorem answered_locks {a : Answer c} {rest : Prog Answer (Except String Json)}
    (hopen : x.isOpen = true) :
    ∀ l ∈ (x.answered c a rest).locks hashtextextended,
      l ∈ x.locks hashtextextended ∨ l ∈ locksOf hashtextextended ⟨c, a⟩ := by
  intro l hl
  cases hopen' : (x.answered c a rest).isOpen with
  | false =>
    rw [locks_of_closed hopen'] at hl
    cases hl
  | true =>
    rw [locks_of_open hopen'] at hl
    rw [locks_of_open hopen]
    have hhistory : (x.answered c a rest).history = x.history ++ [⟨c, a⟩] := rfl
    rw [hhistory, flatMap_append, flatMap_singleton, mem_append] at hl
    exact hl

theorem isCommit_eq (h : c.isCommit = true) : c = .commit := by
  cases c <;> first | rfl | cases h

/-- The commit of one session, for the invariant of another. -/
theorem SessionOk.frame (hx : SessionOk w.db x) (hy : SessionOk w.db y) (htrusted : Trusted w.db)
    (hcomplete : Complete y.history) (hopenX : x.isOpen = true) (hopenY : y.isOpen = true)
    (hapart : SessionsApart hashtextextended x y) : SessionOk (y.view w.db) x := by
  obtain ⟨g, new, hrw⟩ := hcomplete.rewrites
    htrusted.revisionsOnce hy.facts
  have hlocks : LocksApart hashtextextended x.history y.history := by
    unfold SessionsApart at hapart
    rwa [locks_of_open hopenX, locks_of_open hopenY] at hapart
  exact ⟨hx.facts.frame hx.admitted hy.admitted hrw hlocks, hx.admitted, hx.sound⟩

theorem isOpen_answered {a : Answer c} {rest : Prog Answer (Except String Json)}
    (h : (x.answered c a rest).isOpen = true) : c.isCommit = false := by
  have hopen : (!c.isCommit && !ended rest) = true := h
  rw [Bool.and_eq_true, Bool.not_eq_true'] at hopen
  exact hopen.1

theorem WorldOk.call {k : Nat} (h : WorldOk hashtextextended w)
    (hexec : w.exec hashtextextended site (.call k env) = some w') :
    WorldOk hashtextextended w' := by
  obtain ⟨x, c, rest, hk, hopen, hrest, hwaits, rfl⟩ := exec_call hexec
  have hx := h.sessions x (mem_of_getElem? hk) hopen
  have hmay : May x.history c := by
    have hsound : Sound (fun _ _ => True) x.history
        (ExceptT.mk (.call c rest) : Transaction Json) := hrest ▸ hx.sound
    exact hsound.1
  constructor
  case trusted =>
    dsimp only
    split
    · next hcommit =>
      rw [Bool.and_eq_true] at hcommit
      obtain rfl := isCommit_eq hcommit.1
      exact h.trusted.commit hmay hx.facts
    · exact h.trusted
  case sessions =>
    intro y hy hopenY
    obtain ⟨j, hj⟩ := mem_iff_getElem?.mp hy
    rcases getElem?_set_cases hj with ⟨-, rfl⟩ | ⟨hjk, hold⟩
    · dsimp only
      rw [isOpen_answered hopenY, Bool.false_and, if_neg Bool.false_ne_true]
      exact hx.answered h.trusted hrest
    · have hyOk := h.sessions y (mem_of_getElem? hold) hopenY
      dsimp only
      split
      · next hcommit =>
        rw [Bool.and_eq_true] at hcommit
        obtain rfl := isCommit_eq hcommit.1
        exact hyOk.frame hx h.trusted hmay hopenY hopen (h.apart j k y x hjk hold hk)
      · exact hyOk
  case apart =>
    refine h.apart.set (fun _ _ => SessionsApart.symm) fun j y hjk hj l hl => ?_
    rcases answered_locks hopen l hl with hold | hnew
    · exact h.apart k j x y hjk.symm hk hj l hold
    · exact not_waits hwaits hjk hj l hnew

theorem Trusted.tokens (h : Trusted S) (tokens : List AgentToken) : Trusted { S with tokens } :=
  ⟨h.actorsOnce, h.grantsOnce, h.evidenceOnce, h.lessonsOnce, h.revisionsOnce, h.ofLesson,
    h.numbered, h.oneActive, h.reviewed⟩

theorem credential_append {token : Uuid} {row : AgentToken} (rows : List AgentToken)
    (h : S.credential token = some row) :
    ({ S with tokens := S.tokens ++ rows } : Db).credential token = some row := by
  show (S.tokens ++ rows).find? _ = some row
  rw [find?_append, show S.tokens.find? (·.id = token) = some row from h, some_or]

theorem find?_map_of_id {rows : List AgentToken} {t : AgentToken} {token : Uuid}
    (hne : token ≠ t.id) : (rows.map fun r => if r.id = t.id then t else r).find? (·.id = token) =
      rows.find? (·.id = token) := by
  induction rows with
  | nil => rfl
  | cons r rows ih =>
    rw [map_cons, find?_cons, find?_cons]
    by_cases hr : r.id = t.id
    · rw [if_pos hr, decide_eq_false hne.symm, decide_eq_false (fun h => hne (h.symm.trans hr))]
      exact ih
    · rw [if_neg hr, ih]

theorem WorldOk.step {l : Label} (h : WorldOk hashtextextended w)
    (hexec : w.exec hashtextextended site l = some w') : WorldOk hashtextextended w' := by
  cases l with
  | tick elapsed =>
    obtain rfl := some.inj hexec
    exact ⟨h.trusted, h.sessions, h.apart⟩
  | issue token =>
    simp only [World.exec] at hexec
    split at hexec
    · cases hexec
    obtain rfl := some.inj hexec
    refine ⟨h.trusted.tokens _, fun x hx hopen => ?_, h.apart⟩
    have hxOk := h.sessions x hx hopen
    exact ⟨hxOk.facts.tokens fun t row _ hrow => credential_append _ hrow, hxOk.admitted, hxOk.sound⟩
  | change token =>
    simp only [World.exec] at hexec
    split at hexec
    · cases hexec
    next hfree =>
    obtain rfl := some.inj hexec
    refine ⟨h.trusted.tokens _, fun x hx hopen => ?_, h.apart⟩
    have hxOk := h.sessions x hx hopen
    refine ⟨hxOk.facts.tokens fun t row hread hrow => ?_, hxOk.admitted, hxOk.sound⟩
    -- the row of a credential that was read for update is locked
    have hne : t ≠ token.id := by
      rintro rfl
      refine hfree (List.any_eq_true.mpr ⟨x, hx, contains_iff_mem.mpr ?_⟩)
      rw [locks_of_open hopen]
      exact mem_locks hread (mem_singleton_self _)
    exact (find?_map_of_id hne).trans hrow
  | start job =>
    obtain rfl := some.inj hexec
    refine ⟨h.trusted, fun x hx hopen => ?_, h.apart.concat (fun _ _ => SessionsApart.symm) ?_⟩
    · rcases mem_append.mp hx with hx | hx
      · exact h.sessions x hx hopen
      · rw [mem_singleton.mp hx]
        exact .start w.db job w.now
    · intro y _ l hl
      have hnone : (Session.start job w.now).locks hashtextextended = [] := by
        unfold Session.locks
        split <;> rfl
      rw [hnone] at hl
      cases hl
  | call k env => exact h.call hexec
  | crash k =>
    obtain ⟨x, hk, rfl⟩ := map_eq_some_iff.mp hexec
    refine ⟨h.trusted, fun y hy hopen => ?_, h.apart.set (fun _ _ => SessionsApart.symm) ?_⟩
    · obtain ⟨j, hj⟩ := mem_iff_getElem?.mp hy
      rcases getElem?_set_cases hj with ⟨-, rfl⟩ | ⟨-, hj⟩
      · cases hopen
      · exact h.sessions y (mem_of_getElem? hj) hopen
    · intro j y _ _ l hl
      rw [locks_of_closed rfl] at hl
      cases hl

theorem trusted_fresh (h : S.Fresh) : Trusted S := by
  obtain ⟨htokens, hactors, hgrants, hevidence, hlessons, hrevisions, hrecords⟩ := h
  constructor
  case actorsOnce =>
    rw [hactors, List.map_map]
    exact htokens
  case grantsOnce => rw [hgrants]; exact nodup_nil
  case evidenceOnce => rw [hevidence]; exact nodup_nil
  case lessonsOnce => rw [hlessons]; exact nodup_nil
  case revisionsOnce => rw [hrevisions]; exact nodup_nil
  case numbered =>
    intro lesson
    refine ⟨0, ?_⟩
    unfold numbersOf
    rw [hrevisions]
    rfl
  all_goals
    intro r hr
    rw [hrevisions] at hr
    cases hr

theorem worldOk_invariant :
    (system hashtextextended site).Invariant (WorldOk hashtextextended) := by
  refine TSys.Inductive.invariant ⟨fun w hinit => ?_, fun w l w' h hstep => h.step hstep⟩
  obtain ⟨hfresh, hsessions⟩ := hinit
  refine ⟨trusted_fresh hfresh, fun x hx => ?_, fun j k x y _ hj => ?_⟩
  · rw [hsessions] at hx
    cases hx
  · rw [hsessions] at hj
    cases hj

/-! ## Append only -/

/-- A step leaves the learning tables, or is the commit of a transaction whose facts hold. -/
theorem WorldOk.step_db {l : Label} (h : WorldOk hashtextextended w)
    (hexec : w.exec hashtextextended site l = some w') :
    Evolves w.db w'.db ∧ SupersedesOlder w.db w'.db := by
  have hsame : w'.db.revisions = w.db.revisions → w'.db.actors = w.db.actors →
      Evolves w.db w'.db ∧ SupersedesOlder w.db w'.db := fun hrevisions hactors =>
    ⟨evolves_of_same hrevisions hactors, supersedesOlder_of_same h.trusted hrevisions⟩
  cases l with
  | tick | start =>
    obtain rfl := some.inj hexec
    exact hsame rfl rfl
  | issue | change =>
    simp only [World.exec] at hexec
    split at hexec
    · cases hexec
    obtain rfl := some.inj hexec
    exact hsame rfl rfl
  | crash k =>
    obtain ⟨x, hk, rfl⟩ := map_eq_some_iff.mp hexec
    exact hsame rfl rfl
  | call k env =>
    obtain ⟨x, c, rest, hk, hopen, hrest, hwaits, rfl⟩ := exec_call hexec
    have hx := h.sessions x (mem_of_getElem? hk) hopen
    have hsound : Sound (fun _ _ => True) x.history
        (ExceptT.mk (.call c rest) : Transaction Json) := hrest ▸ hx.sound
    by_cases hcommit : (c.isCommit && env.commits) = true
    · have hc := hcommit
      rw [Bool.and_eq_true] at hc
      obtain rfl := isCommit_eq hc.1
      dsimp only
      rw [if_pos hcommit]
      have hlearned := Complete.learned hsound.1 h.trusted.revisionsOnce hx.facts
      exact ⟨⟨hlearned.keeps h.trusted, fun token actor => learningActor_after⟩,
        hlearned.supersedesOlder h.trusted⟩
    · exact hsame (by rw [if_neg hcommit]) (by rw [if_neg hcommit])

theorem length_le_one {α : Type} {xs : List α} (hnodup : xs.Nodup)
    (hsame : ∀ x ∈ xs, ∀ y ∈ xs, x = y) : xs.length ≤ 1 := by
  match xs with
  | [] => exact Nat.zero_le 1
  | [x] => exact Nat.le_refl 1
  | x :: y :: rest =>
    have hxy := hsame x mem_cons_self y (mem_cons_of_mem x mem_cons_self)
    exact absurd (hxy ▸ mem_cons_self) (nodup_cons.mp hnodup).1

/-- In every reachable state a lesson has at most one active revision, its revisions are numbered
from 1 without a gap, and an active one was activated by an independent curator of the owner on
attested evidence of its own; from there on in every run snapshots, terminal statuses and the
actors of credentials stay, and a revision is superseded only by a newer one. -/
theorem learning_revisions_trusted (hashtextextended : String → Int) (site : Deployment) :
    (system hashtextextended site).Invariant fun w =>
      (∀ lesson, (w.db.revisions.filter
        (fun r => r.lessonId = lesson ∧ r.status = .active)).length ≤ 1) ∧
      (∀ lesson, ∃ n, numbersOf w.db lesson = range' 1 n) ∧
      (∀ r ∈ w.db.revisions, r.status = .active → Reviewed w.db r) ∧
      (∀ ls w', (system hashtextextended site).Run w ls w' → Evolves w.db w'.db) ∧
      ∀ l w', (system hashtextextended site).step w l w' → SupersedesOlder w.db w'.db := by
  intro w hreachable
  have hw := worldOk_invariant w hreachable
  refine ⟨fun lesson => ?_, hw.trusted.numbered, hw.trusted.reviewed, fun ls w' hrun => ?_,
    fun l w' hstep => (hw.step_db hstep).2⟩
  · have hnodup : (w.db.revisions.filter
        (fun r => r.lessonId = lesson ∧ r.status = .active)).Nodup :=
      (Nodup.of_map _ hw.trusted.revisionsOnce).filter _
    have hsame : ∀ r ∈ w.db.revisions.filter (fun r => r.lessonId = lesson ∧ r.status = .active),
        ∀ r' ∈ w.db.revisions.filter (fun r => r.lessonId = lesson ∧ r.status = .active),
          r = r' := by
      intro r hr r' hr'
      rw [mem_filter, decide_eq_true_eq] at hr hr'
      exact hw.trusted.oneActive r hr.1 r' hr'.1 hr.2.2 hr'.2.2 (hr.2.1.trans hr'.2.1.symm)
    exact length_le_one hnodup hsame
  · exact hrun.relates (I := WorldOk hashtextextended) (R := fun v v' => Evolves v.db v'.db)
      (fun v => evolves_of_same rfl rfl) (fun _ _ _ => Evolves.trans)
      (fun _ _ _ hv hstep => hv.step hstep) (fun _ _ _ hv hstep => (hv.step_db hstep).1) hw

end Clawforge.Learning

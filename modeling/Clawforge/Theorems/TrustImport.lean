import Clawforge.Storage.ImportTypestate
import Clawforge.Theorems.LearningTrust

/-!
# Trust imports

An import commits all of its effects with an audit row for each that is new, or nothing; from
its locked check of a credential to its last one the credential was usable, and the
authorization named this database and was unexpired; and an import whose effects are there
adds nothing.
-/

namespace Clawforge.Learning

open Kit TSys List Option
open Executor (StoreFate)

/-! ## What an import leaves -/

def Effect.actorRow : Effect → Option ActorToken
  | .actor row => some row
  | .grant _ | .evidence _ _ => none

def Effect.grantRow : Effect → Option CuratorGrant
  | .grant row => some row
  | .actor _ | .evidence _ _ => none

/-- The row of attested evidence, in a transaction that began at `began`. -/
def Effect.evidenceRow (began : Instant) : Effect → Option VerifiedEvidence
  | .evidence key verifier =>
    some ⟨key.ownerId, key.repository, key.commit, key.test, key.artifactSha256, verifier, began⟩
  | .actor _ | .grant _ => none

/-- Every effect of the import is there, once. -/
structure Present (a : ImportArgs) (S : Db) : Prop where
  actors : ∀ b ∈ a.bindings,
    S.actors.filter (fun row => row.tokenId = b.tokenId) = [⟨b.tokenId, b.actorId⟩]
  grants : S.grants.filter (fun row => row = ⟨a.owner, a.curator⟩) = [⟨a.owner, a.curator⟩]
  evidence : ∀ e ∈ a.evidence, ∃ v,
    S.evidence.filter (fun v => v.key = e.key a.owner a.repository) = [v]

/-- `S'` is `S` with rows of the import's own effects added, one audit row for each. -/
def Adds (a : ImportArgs) (S S' : Db) : Prop :=
  ∃ effects audits began,
    S' = { S with
      actors := S.actors ++ effects.filterMap Effect.actorRow
      grants := S.grants ++ effects.filterMap Effect.grantRow
      evidence := S.evidence ++ effects.filterMap (Effect.evidenceRow began)
      audit := S.audit ++ audits } ∧
    Forall₂ (AuditOf a) effects audits

theorem filter_eq_singleton {α κ : Type} [DecidableEq κ] {key : α → κ} {xs : List α} {x : α}
    (hnodup : (xs.map key).Nodup) (hx : x ∈ xs) : xs.filter (fun y => key y = key x) = [x] := by
  induction xs with
  | nil => cases hx
  | cons y rest ih =>
    rw [map_cons, nodup_cons] at hnodup
    rcases mem_cons.mp hx with rfl | hx
    · have hnone : rest.filter (fun z => key z = key x) = [] := by
        rw [filter_eq_nil_iff]
        intro z hz hsame
        exact hnodup.1 (of_decide_eq_true hsame ▸ List.mem_map_of_mem hz)
      simp only [filter_cons, decide_true, if_true, hnone]
    · have hne : key y ≠ key x := fun hsame => hnodup.1 (hsame ▸ List.mem_map_of_mem hx)
      rw [filter_cons_of_neg (by simpa using hne)]
      exact ih hnodup.2 hx

variable {x : Session} {a : ImportArgs} {k : Nat} {l : Label} {ls : List Label}

theorem importMay_learns {h : List Event} {c : Statement} (hmay : ImportMay a h c) :
    c.learns = false := by
  cases c <;> first | rfl | exact hmay

theorem filterMap_flatMap {α β γ : Type} {f : α → List β} {g : β → Option γ} {k : α → List γ}
    (h : ∀ x, (f x).filterMap g = k x) (xs : List α) : (xs.flatMap f).filterMap g = xs.flatMap k := by
  induction xs with
  | nil => rfl
  | cons x xs ih => rw [flatMap_cons, filterMap_append, h, ih, flatMap_cons]

theorem actorRow_effects (e : Event) : e.effects.filterMap Effect.actorRow = e.newActors := by
  obtain ⟨c, reply⟩ := e
  cases c with
  | insertActor | insertGrant | insertEvidence =>
    rcases reply with error | inserted
    · rfl
    · cases inserted <;> rfl
  | _ => rfl

theorem grantRow_effects (e : Event) : e.effects.filterMap Effect.grantRow = e.newGrants := by
  obtain ⟨c, reply⟩ := e
  cases c with
  | insertActor | insertGrant | insertEvidence =>
    rcases reply with error | inserted
    · rfl
    · cases inserted <;> rfl
  | _ => rfl

theorem evidenceRow_effects (began : Instant) (e : Event) :
    e.effects.filterMap (Effect.evidenceRow began) = e.newEvidence began := by
  obtain ⟨c, reply⟩ := e
  cases c with
  | insertActor | insertGrant | insertEvidence =>
    rcases reply with error | inserted
    · rfl
    · cases inserted <;> rfl
  | _ => rfl

theorem after_of_trustOnly {t : List Event} (ht : TrustOnly t) (S : Db) (began : Instant) :
    S.after began t = { S with
      actors := S.actors ++ (effectsOf t).filterMap Effect.actorRow
      grants := S.grants ++ (effectsOf t).filterMap Effect.grantRow
      evidence := S.evidence ++ (effectsOf t).filterMap (Effect.evidenceRow began)
      audit := S.audit ++ auditsOf t } := by
  have hnil : ∀ {ρ : Type} (f : Event → List ρ),
      (∀ e : Event, e.call.learns = false → f e = []) → t.flatMap f = [] :=
    fun f hf => flatMap_eq_nil_iff.mpr fun e he => hf e (ht e he)
  unfold Db.after effectsOf auditsOf
  rw [foldl_revisions_of_trustOnly ht, hnil Event.newLessons, hnil Event.newRecords,
    filterMap_flatMap actorRow_effects, filterMap_flatMap grantRow_effects,
    filterMap_flatMap (evidenceRow_effects began), append_nil, append_nil]
  all_goals
    rintro ⟨c, reply⟩ he
    cases c <;> first | rfl | cases he

/-! ## The invariant of an import -/

variable {hashtextextended : String → Int} {site : Deployment} {w w' v : World}

/-- An import was admitted all along, and goes on as its program. -/
structure ImportOk (a : ImportArgs) (x : Session) : Prop where
  admitted : ∀ h e u, x.history = h ++ e :: u → ImportMay a h e.call
  does : Imports a (fun _ _ => True) x.history x.rest

def ImportsOk (w : World) : Prop :=
  ∀ x ∈ w.sessions, x.isOpen = true → ∀ a, x.job = .importEvidence a → ImportOk a x

theorem ImportOk.start (a : ImportArgs) (now : Instant) :
    ImportOk a (.start (.importEvidence a) now) where
  admitted h e u ht := by cases h <;> cases ht
  does := Prog.Ends.bind (imports_importLearningEvidence a) fun _ _ _ => Prog.ends_pure trivial

theorem ImportOk.trustOnly (h : ImportOk a x) : TrustOnly x.history := by
  intro e he
  obtain ⟨g, u, ht⟩ := append_of_mem he
  exact importMay_learns (h.admitted g e u ht)

theorem ImportsOk.step (h : ImportsOk w) (hexec : w.exec hashtextextended site l = some w') :
    ImportsOk w' := by
  cases l with
  | tick elapsed =>
    obtain rfl := some.inj hexec
    exact h
  | issue | change =>
    simp only [World.exec] at hexec
    split at hexec
    · cases hexec
    obtain rfl := some.inj hexec
    exact h
  | start job =>
    obtain rfl := some.inj hexec
    intro x hx hopen a hjob
    rcases mem_append.mp hx with hx | hx
    · exact h x hx hopen a hjob
    · rw [mem_singleton.mp hx] at hjob ⊢
      obtain rfl : job = .importEvidence a := hjob
      exact .start a w.now
  | crash k =>
    obtain ⟨y, hk, rfl⟩ := map_eq_some_iff.mp hexec
    intro x hx hopen a hjob
    obtain ⟨j, hj⟩ := mem_iff_getElem?.mp hx
    rcases getElem?_set_cases hj with ⟨-, rfl⟩ | ⟨-, hj⟩
    · cases hopen
    · exact h x (mem_of_getElem? hj) hopen a hjob
  | call k env =>
    obtain ⟨y, c, rest, hk, hopenY, hrest, -, rfl⟩ := exec_call hexec
    intro x hx hopen a hjob
    obtain ⟨j, hj⟩ := mem_iff_getElem?.mp hx
    rcases getElem?_set_cases hj with ⟨-, rfl⟩ | ⟨-, hj⟩
    · have hy := h y (mem_of_getElem? hk) hopenY a hjob
      have hdoes : Imports a (fun _ _ => True) y.history
          (ExceptT.mk (.call c rest) : Transaction Json) := hrest ▸ hy.does
      refine ⟨fun g e u ht => ?_, hdoes.2 _ trivial⟩
      rcases concat_split ht with ⟨rfl, rfl⟩ | ⟨u', hold⟩
      · exact hdoes.1
      · exact hy.admitted g e u' hold
    · exact h x (mem_of_getElem? hj) hopen a hjob

theorem importsOk_invariant : (system hashtextextended site).Invariant ImportsOk := by
  refine Inductive.invariant ⟨fun w hinit => ?_, fun w l w' h hstep => h.step hstep⟩
  intro x hx
  rw [hinit.2] at hx
  cases hx

/-! ## Sessions over time -/

/-- Time and every session went on. -/
structure Later (w w' : World) : Prop where
  now : w.now ≤ w'.now
  sessions : ∀ (k : Nat) (y : Session), w.sessions[k]? = some y → ∃ x : Session,
    w'.sessions[k]? = some x ∧ x.job = y.job ∧ y.history <+: x.history ∧
    (x.isOpen = true → y.isOpen = true)

theorem later_refl (w : World) : Later w w :=
  ⟨Nat.le_refl _, fun _ y hy => ⟨y, hy, rfl, prefix_refl _, fun h => h⟩⟩

theorem Later.trans {w₁ w₂ w₃ : World} (h : Later w₁ w₂) (h' : Later w₂ w₃) : Later w₁ w₃ where
  now := h.now.trans h'.now
  sessions k y hy := by
    obtain ⟨x, hx, hjob, hpre, hopen⟩ := h.sessions k y hy
    obtain ⟨z, hz, hjob', hpre', hopen'⟩ := h'.sessions k x hx
    exact ⟨z, hz, hjob'.trans hjob, hpre.trans hpre', fun ho => hopen (hopen' ho)⟩

/-- One session is replaced by a later state of it. -/
theorem later_set {y : Session} {now : Instant} {db : Db} (hnow : w.now ≤ now)
    (hk : w.sessions[k]? = some y) (hjob : x.job = y.job) (hpre : y.history <+: x.history)
    (hopen : x.isOpen = true → y.isOpen = true) :
    Later w ⟨now, db, w.sessions.set k x⟩ where
  now := hnow
  sessions j z hz := by
    by_cases hjk : j = k
    · subst hjk
      rw [hk] at hz
      obtain rfl := some.inj hz
      refine ⟨x, ?_, hjob, hpre, hopen⟩
      dsimp only
      rw [getElem?_set_self (List.getElem?_eq_some_iff.mp hk).1]
    · refine ⟨z, ?_, rfl, prefix_refl _, fun h => h⟩
      dsimp only
      rw [getElem?_set_of_ne hjk, hz]

theorem later_step (hexec : w.exec hashtextextended site l = some w') : Later w w' := by
  cases l with
  | tick elapsed =>
    obtain rfl := some.inj hexec
    exact ⟨Nat.le_add_right _ _, (later_refl w).sessions⟩
  | issue | change =>
    simp only [World.exec] at hexec
    split at hexec
    · cases hexec
    obtain rfl := some.inj hexec
    exact ⟨Nat.le_refl _, (later_refl w).sessions⟩
  | start job =>
    obtain rfl := some.inj hexec
    refine ⟨Nat.le_refl _, fun k y hy => ⟨y, ?_, rfl, prefix_refl _, fun h => h⟩⟩
    rw [getElem?_append_left (List.getElem?_eq_some_iff.mp hy).1, hy]
  | crash k =>
    obtain ⟨y, hk, rfl⟩ := map_eq_some_iff.mp hexec
    exact later_set (Nat.le_refl _) hk rfl (prefix_refl _) fun h => Bool.noConfusion h
  | call k env =>
    obtain ⟨y, c, rest, hk, hopen, -, -, rfl⟩ := exec_call hexec
    exact later_set (Nat.le_refl _) hk rfl (prefix_append _ _) fun _ => hopen

theorem later_run (hrun : (system hashtextextended site).Run v ls w) : Later v w :=
  hrun.relates (I := fun _ => True) later_refl (fun _ _ _ => Later.trans)
    (fun _ _ _ _ _ => trivial) (fun _ _ _ _ hstep => later_step hstep) trivial

/-- The session has made the statement, with this answer. -/
def HasDone (w : World) (k : Nat) (c : Statement) (r : c.Result) : Prop :=
  ∃ z, w.sessions[k]? = some z ∧ Did z.history c r

/-- Where a step adds a statement to a session, the session made it in this step. -/
theorem hasDone_step {c : Statement} {r : c.Result}
    (hexec : w.exec hashtextextended site l = some w') (hbefore : ¬ HasDone w k c r)
    (hafter : HasDone w' k c r) :
    ∃ z env, w.sessions[k]? = some z ∧ z.isOpen = true ∧ reply site w z env c = .ok r ∧
      ∃ x, w'.sessions[k]? = some x ∧ z.history <+: x.history := by
  obtain ⟨x, hx, hd⟩ := hafter
  have hsame : w.sessions[k]? = some x → False := fun hold => hbefore ⟨x, hold, hd⟩
  cases l with
  | tick elapsed =>
    obtain rfl := some.inj hexec
    exact (hsame hx).elim
  | issue | change =>
    simp only [World.exec] at hexec
    split at hexec
    · cases hexec
    obtain rfl := some.inj hexec
    exact (hsame hx).elim
  | start job =>
    obtain rfl := some.inj hexec
    dsimp only at hx
    rw [getElem?_append] at hx
    split at hx
    · exact (hsame hx).elim
    · rw [mem_singleton.mp (mem_of_getElem? hx)] at hd
      cases hd
  | crash j =>
    obtain ⟨y, hj, rfl⟩ := map_eq_some_iff.mp hexec
    rcases getElem?_set_cases hx with ⟨rfl, rfl⟩ | ⟨-, hold⟩
    · exact (hbefore ⟨y, hj, hd⟩).elim
    · exact (hsame hold).elim
  | call j env =>
    obtain ⟨y, c', rest, hj, hopen, -, -, rfl⟩ := exec_call hexec
    rcases getElem?_set_cases hx with ⟨rfl, rfl⟩ | ⟨-, hold⟩
    · have hd' : (⟨c, .ok r⟩ : Event) ∈ y.history ++ [⟨c', reply site w y env c'⟩] := hd
      rcases mem_append.mp hd' with hd' | hd'
      · exact (hbefore ⟨y, hj, hd'⟩).elim
      · rw [mem_singleton] at hd'
        obtain ⟨rfl, hreply⟩ := Prog.Event.mk.inj hd'
        exact ⟨y, env, hj, hopen, (eq_of_heq hreply).symm, _, hx, prefix_append _ _⟩
    · exact (hsame hold).elim

/-! ## What a commit of an import leaves -/

section Commit

variable {a : ImportArgs} {S : Db} {began : Instant} {t : List Event}

theorem ImportComplete.adds (h : ImportComplete a t) (ht : TrustOnly t) :
    Adds a S (S.after began t) :=
  ⟨effectsOf t, auditsOf t, began, after_of_trustOnly ht S began, h.paired⟩

theorem mem_actors_of_learningActor {token actor : Uuid}
    (h : S.learningActor token = some actor) : ⟨token, actor⟩ ∈ S.actors := by
  obtain ⟨row, hfind, rfl⟩ := map_eq_some_iff.mp h
  have htoken : row.tokenId = token := by simpa using find?_some hfind
  rw [← htoken]
  exact mem_of_find?_eq_some hfind

/-- A grant that the transaction inserted, or found, is there at its end. -/
theorem Facts.grant_mem (hfacts : Facts S began t) {row : CuratorGrant} {inserted : Bool}
    (hd : Did t (.insertGrant row) inserted) : row ∈ (S.after began t).grants := by
  cases inserted with
  | true => exact mem_append_right _ ((mem_flatMap_did fun e => mem_newGrants).mpr hd)
  | false =>
    obtain ⟨g, u, rfl⟩ := append_of_mem hd
    have hfact : false = true ↔ row ∉ (S.after began g).grants := hfacts g _ u rfl
    have hmem : row ∈ (S.after began g).grants := by
      by_contra hnot
      exact absurd (hfact.mpr hnot) Bool.false_ne_true
    rw [after_append]
    exact mem_append_left _ hmem

/-- The same of an attestation. -/
theorem Facts.evidence_mem (hfacts : Facts S began t) {key : EvidenceKey} {verifier : Uuid}
    {inserted : Bool} (hd : Did t (.insertEvidence key verifier) inserted) :
    ∃ v ∈ (S.after began t).evidence, v.key = key := by
  cases inserted with
  | true =>
    refine ⟨⟨key.ownerId, key.repository, key.commit, key.test, key.artifactSha256, verifier,
      began⟩, mem_append_right _ ?_, rfl⟩
    exact mem_flatMap.mpr ⟨_, hd, mem_singleton_self _⟩
  | false =>
    obtain ⟨g, u, rfl⟩ := append_of_mem hd
    obtain ⟨-, hfact⟩ : key.ownerId ≠ verifier ∧
        (false = true ↔ ∀ v ∈ (S.after began g).evidence, v.key ≠ key) := hfacts g _ u rfl
    have hmem : ∃ v ∈ (S.after began g).evidence, v.key = key := by
      by_contra hnot
      push Not at hnot
      exact absurd (hfact.mpr hnot) Bool.false_ne_true
    obtain ⟨v, hv, hkey⟩ := hmem
    rw [after_append]
    exact ⟨v, mem_append_left _ hv, hkey⟩

/-- Where rows are under one key each, the effects are there once if they are there. -/
theorem present_of_mem (hS : Trusted S)
    (hactors : ∀ b ∈ a.bindings, ⟨b.tokenId, b.actorId⟩ ∈ S.actors)
    (hgrant : ⟨a.owner, a.curator⟩ ∈ S.grants)
    (hevidence : ∀ e ∈ a.evidence, ∃ v ∈ S.evidence, v.key = e.key a.owner a.repository) :
    Present a S where
  actors b hb := filter_eq_singleton hS.actorsOnce (hactors b hb)
  grants := by
    have hnodup : (S.grants.map id).Nodup := by
      rw [List.map_id]
      exact hS.grantsOnce
    exact filter_eq_singleton hnodup hgrant
  evidence e he := by
    obtain ⟨v, hv, hkey⟩ := hevidence e he
    refine ⟨v, ?_⟩
    rw [← hkey]
    exact filter_eq_singleton hS.evidenceOnce hv

theorem ImportComplete.present (h : ImportComplete a t) (hfacts : Facts S began t)
    (hS : Trusted (S.after began t)) : Present a (S.after began t) := by
  refine present_of_mem hS (fun b hb => ?_) ?_ (fun e he => ?_)
  · exact mem_actors_of_learningActor (h.bound b hb S began hfacts)
  · obtain ⟨inserted, hd⟩ := h.granted
    exact hfacts.grant_mem hd
  · obtain ⟨inserted, hd⟩ := h.attested e he
    exact hfacts.evidence_mem hd

/-- What is there is not inserted again. -/
theorem Present.no_effects (h : Present a S) (hfacts : Facts S began t)
    (hmay : ∀ g e u, t = g ++ e :: u → ImportMay a g e.call) : effectsOf t = [] := by
  rw [effectsOf, flatMap_eq_nil_iff]
  rintro ⟨c, reply⟩ he
  obtain ⟨g, u, ht⟩ := append_of_mem he
  have hmay := hmay g _ u ht
  have hfact := hfacts g _ u ht
  have hfalse : ∀ {inserted : Bool}, ¬ inserted = true → inserted = false := fun h => by simpa using h
  cases c with
  | insertActor row =>
    rcases reply with error | inserted
    · rfl
    · obtain ⟨b, hb, htoken⟩ := hmay
      have hrow : ⟨b.tokenId, b.actorId⟩ ∈ S.actors :=
        (mem_filter.mp (h.actors b hb ▸ mem_singleton_self _)).1
      have hnot : ¬ inserted = true := fun hins =>
        learningActor_eq_none.mp (hfact.mp hins) _ (mem_append_left _ hrow) htoken.symm
      rw [hfalse hnot]
      rfl
  | insertGrant row =>
    rcases reply with error | inserted
    · rfl
    · have hrow : ⟨a.owner, a.curator⟩ ∈ S.grants :=
        (mem_filter.mp (h.grants ▸ mem_singleton_self _)).1
      have hsame : row = ⟨a.owner, a.curator⟩ := hmay
      have hnot : ¬ inserted = true := fun hins =>
        hfact.mp hins (mem_append_left _ (hsame ▸ hrow))
      rw [hfalse hnot]
      rfl
  | insertEvidence key verifier =>
    rcases reply with error | inserted
    · rfl
    · obtain ⟨-, e, he, hkey⟩ := hmay
      obtain ⟨v, hv⟩ := h.evidence e he
      have hmem : v ∈ S.evidence ∧ v.key = e.key a.owner a.repository := by
        have hmem := mem_filter.mp (hv ▸ mem_singleton_self v)
        exact ⟨hmem.1, of_decide_eq_true hmem.2⟩
      have hnot : ¬ inserted = true := fun hins =>
        hfact.2.mp hins v (mem_append_left _ hmem.1) (hmem.2.trans hkey.symm)
      rw [hfalse hnot]
      rfl
  | _ => rfl

/-- A commit that adds no effect changes nothing. -/
theorem Paired.same_of_no_effects (hpaired : Paired a t) (ht : TrustOnly t)
    (hnone : effectsOf t = []) : S.after began t = S := by
  have haudits : auditsOf t = [] := by
    have hlength := hpaired.length_eq
    rw [hnone] at hlength
    exact eq_nil_of_length_eq_zero hlength.symm
  rw [after_of_trustOnly ht, hnone, haudits]
  simp only [filterMap_nil, append_nil]

end Commit

/-! ## Rows over a run -/

/-- A step leaves all rows but the credentials', or is a session's commit. -/
theorem exec_db (hexec : w.exec hashtextextended site l = some w') :
    (∃ tokens, w'.db = { w.db with tokens }) ∨
      ∃ k env x rest, l = .call k env ∧ w.sessions[k]? = some x ∧ x.isOpen = true ∧
        x.rest = .call .commit rest ∧ env.commits = true ∧ w'.db = x.view w.db := by
  have hsame : w'.db = w.db → ∃ tokens, w'.db = { w.db with tokens } := fun h => ⟨w.db.tokens, h⟩
  cases l with
  | tick | start =>
    obtain rfl := some.inj hexec
    exact .inl (hsame rfl)
  | issue | change =>
    simp only [World.exec] at hexec
    split at hexec
    · cases hexec
    obtain rfl := some.inj hexec
    exact .inl ⟨_, rfl⟩
  | crash k =>
    obtain ⟨x, hk, rfl⟩ := map_eq_some_iff.mp hexec
    exact .inl (hsame rfl)
  | call k env =>
    obtain ⟨x, c, rest, hk, hopen, hrest, -, rfl⟩ := exec_call hexec
    by_cases hcommit : (c.isCommit && env.commits) = true
    · have hc := hcommit
      rw [Bool.and_eq_true] at hc
      obtain rfl := isCommit_eq hc.1
      exact .inr ⟨k, env, x, rest, rfl, hk, hopen, hrest, hc.2, if_pos hcommit⟩
    · exact .inl (hsame (if_neg hcommit))

/-- No row of the trust tables is lost. -/
structure Grows (S S' : Db) : Prop where
  actors : ∀ row ∈ S.actors, row ∈ S'.actors
  grants : ∀ row ∈ S.grants, row ∈ S'.grants
  evidence : ∀ v ∈ S.evidence, v ∈ S'.evidence

theorem grows_refl (S : Db) : Grows S S := ⟨fun _ h => h, fun _ h => h, fun _ h => h⟩

theorem Grows.trans {S S' S'' : Db} (h : Grows S S') (h' : Grows S' S'') : Grows S S'' where
  actors row hrow := h'.actors row (h.actors row hrow)
  grants row hrow := h'.grants row (h.grants row hrow)
  evidence v hv := h'.evidence v (h.evidence v hv)

theorem grows_step (hexec : w.exec hashtextextended site l = some w') : Grows w.db w'.db := by
  rcases exec_db hexec with ⟨tokens, hdb⟩ | ⟨k, env, x, rest, -, -, -, -, -, hdb⟩
  · rw [hdb]
    exact ⟨fun _ h => h, fun _ h => h, fun _ h => h⟩
  · rw [hdb]
    exact ⟨fun _ h => mem_append_left _ h, fun _ h => mem_append_left _ h,
      fun _ h => mem_append_left _ h⟩

theorem grows_run (hrun : (system hashtextextended site).Run v ls w) : Grows v.db w.db :=
  hrun.relates (I := fun _ => True) (R := fun v v' => Grows v.db v'.db) (fun v => grows_refl v.db)
    (fun _ _ _ => Grows.trans) (fun _ _ _ _ _ => trivial) (fun _ _ _ _ hstep => grows_step hstep)
    trivial

theorem Present.grow {S S' : Db} (h : Present a S) (hgrows : Grows S S') (hS : Trusted S') :
    Present a S' := by
  refine present_of_mem hS (fun b hb => ?_) ?_ (fun e he => ?_)
  · exact hgrows.actors _ (mem_filter.mp (h.actors b hb ▸ mem_singleton_self _)).1
  · exact hgrows.grants _ (mem_filter.mp (h.grants ▸ mem_singleton_self _)).1
  · obtain ⟨v, hv⟩ := h.evidence e he
    have hmem := mem_filter.mp (hv ▸ mem_singleton_self v)
    exact ⟨v, hgrows.evidence v hmem.1, of_decide_eq_true hmem.2⟩

theorem evolves_run (hv : WorldOk hashtextextended v)
    (hrun : (system hashtextextended site).Run v ls w) : Evolves v.db w.db :=
  hrun.relates (I := WorldOk hashtextextended) (R := fun v v' => Evolves v.db v'.db)
    (fun _ => evolves_of_same rfl rfl) (fun _ _ _ => Evolves.trans)
    (fun _ _ _ hv hstep => hv.step hstep) (fun _ _ _ hv hstep => (hv.step_db hstep).1) hv

/-! ## Credentials and authorization -/

/-- The credential has not been revoked and has its role's scopes, it is no other actor's, and
it has not expired unless session `k` has confirmed it. -/
def Usable (a : ImportArgs) (b : LearningTrustBinding) (k : Nat) (v : World) : Prop :=
  (∃ row, v.db.credential b.tokenId = some row ∧ row.revokedAt = none ∧
    ScopesExact a b.actorId row.scopes ∧
    (¬ HasDone v k (.credentialActive b.tokenId) true → v.now < row.expiresAt)) ∧
  ∀ actor, v.db.learningActor b.tokenId = some actor → actor = b.actorId

theorem reply_ok {env : Env} {c : Statement} {r : c.Result} (h : reply site w x env c = .ok r) :
    answer site (x.view w.db) w.now env.uuid env.utcNow c = .ok r := by
  unfold reply at h
  split at h
  · exact h
  · cases h
  · cases h

/-- A session knows the row of each credential it has locked. -/
theorem credential_of_done {y : Session} {token : Uuid} {row : AgentToken}
    (hv : WorldOk hashtextextended v) (hy : v.sessions[k]? = some y) (hopen : y.isOpen = true)
    (hd : Did y.history (.credential token) row) : v.db.credential token = some row := by
  obtain ⟨_, -, hfact⟩ := (hv.sessions y (mem_of_getElem? hy) hopen).facts.of_did hd
  exact hfact

theorem usable_of_commit {b : LearningTrustBinding} {row : AgentToken}
    (hv : WorldOk hashtextextended v) (hrun : (system hashtextextended site).Run v ls w)
    (hk : w.sessions[k]? = some x) (hopen : x.isOpen = true)
    (hcomplete : ImportComplete a x.history) (hb : b ∈ a.bindings)
    (hlocked : HasDone v k (.credential b.tokenId) row) : Usable a b k v := by
  have hlater := later_run hrun
  have hw : WorldOk hashtextextended w := hrun.preserves (fun _ _ _ h hstep => h.step hstep) hv
  obtain ⟨y, hy, hread⟩ := hlocked
  obtain ⟨x', hx', -, hpre, hstill⟩ := hlater.sessions k y hy
  obtain rfl : x = x' := some.inj (hk.symm.trans hx')
  have hrow := credential_of_done hv hy (hstill hopen) hread
  refine ⟨⟨row, hrow, ?_⟩, fun actor hactor => ?_⟩
  · obtain ⟨row', hread', hrevoked, hscopes⟩ := hcomplete.checked b hb
    obtain rfl : row = row' := by
      have hsame := credential_of_done hw hk hopen (hpre.subset hread)
      exact some.inj (hsame.symm.trans (credential_of_done hw hk hopen hread'))
    refine ⟨hrevoked, hscopes, fun hbefore => ?_⟩
    have hafter : HasDone w k (.credentialActive b.tokenId) true :=
      ⟨x, hk, hcomplete.confirmed b hb⟩
    obtain ⟨ls₁, u, l, u', ls₂, hfirst, hstep, -, hnot, hnow⟩ :=
      hrun.crossing (P := fun u => HasDone u k (.credentialActive b.tokenId) true) hbefore hafter
    -- the row is the same when the import confirms the credential at `u`
    obtain ⟨z, env, hz, hopenZ, hreply, -⟩ := hasDone_step hstep hnot hnow
    have hu : WorldOk hashtextextended u := hfirst.preserves (fun _ _ _ h hst => h.step hst) hv
    obtain ⟨z', hz', -, hpre', -⟩ := (later_run hfirst).sessions k y hy
    obtain rfl : z = z' := some.inj (hz.symm.trans hz')
    have hrowU : u.db.tokens.find? (·.id = b.tokenId) = some row :=
      credential_of_done hu hz hopenZ (hpre'.subset hread)
    obtain ⟨found, hfound, hactive⟩ := except_map_ok (reply_ok hreply)
    obtain rfl : row = found := some.inj (hrowU.symm.trans (mem_of_fetchOne hfound))
    unfold AgentToken.activeAt at hactive
    rw [Bool.and_eq_true, decide_eq_true_eq, decide_eq_true_eq] at hactive
    exact lt_of_le_of_lt (later_run hfirst).now hactive.2
  · have hxOk := hw.sessions x (mem_of_getElem? hk) hopen
    have hbound := hcomplete.bound b hb w.db x.began hxOk.facts
    have hkept : (w.db.after x.began x.history).learningActor b.tokenId = some actor :=
      learningActor_after ((evolves_run hv hrun).actors b.tokenId actor hactor)
    exact some.inj (hkept.symm.trans hbound)

/-- The authorization is of this database, and holds until the import's last check of it. -/
def AuthorizedUntil (site : Deployment) (k : Nat) (v : World)
    (expected : LearningImportAuthorization) : Prop :=
  site = ⟨expected.clusterSystemIdentifier, expected.databaseOid⟩ ∧
    (¬ HasDone v k (.authorizationValid expected.expiresAt) true →
      beforeEpoch v.now expected.expiresAt = true)

theorem beforeEpoch_of_le {now later : Instant} {expiresAt : Int} (hle : now ≤ later)
    (h : beforeEpoch later expiresAt = true) : beforeEpoch now expiresAt = true := by
  unfold beforeEpoch at h ⊢
  rw [decide_eq_true_eq] at h ⊢
  exact lt_of_le_of_lt (Int.ofNat_le.mpr hle) h

theorem authorized_of_commit {expected : LearningImportAuthorization}
    (hreachable : (system hashtextextended site).Reachable v)
    (hrun : (system hashtextextended site).Run v ls w) (hk : w.sessions[k]? = some x)
    (hcomplete : ImportComplete a x.history) (hexpected : a.authorization = some expected) :
    AuthorizedUntil site k v expected := by
  constructor
  · obtain ⟨w₀, ls₀, ⟨-, hnone⟩, hrun₀⟩ := hreachable.run hrun
    have hbefore : ¬ HasDone w₀ k (.deployment expected.expiresAt)
        (⟨expected.clusterSystemIdentifier, expected.databaseOid⟩, true) := by
      rintro ⟨y, hy, -⟩
      rw [hnone] at hy
      cases hy
    have hafter : HasDone w k (.deployment expected.expiresAt)
        (⟨expected.clusterSystemIdentifier, expected.databaseOid⟩, true) :=
      ⟨x, hk, hcomplete.deployment expected hexpected⟩
    obtain ⟨ls₁, u, l, u', ls₂, -, hstep, -, hnot, hnow⟩ :=
      hrun₀.crossing (P := fun u => HasDone u k (.deployment expected.expiresAt)
        (⟨expected.clusterSystemIdentifier, expected.databaseOid⟩, true)) hbefore hafter
    obtain ⟨z, env, -, -, hreply, -⟩ := hasDone_step hstep hnot hnow
    exact congrArg Prod.fst (Except.ok.inj (reply_ok hreply))
  · intro hbefore
    have hafter : HasDone w k (.authorizationValid expected.expiresAt) true :=
      ⟨x, hk, hcomplete.unexpired expected hexpected⟩
    obtain ⟨ls₁, u, l, u', ls₂, hfirst, hstep, -, hnot, hnow⟩ :=
      hrun.crossing (P := fun u => HasDone u k (.authorizationValid expected.expiresAt) true)
        hbefore hafter
    obtain ⟨z, env, -, -, hreply, -⟩ := hasDone_step hstep hnot hnow
    exact beforeEpoch_of_le (later_run hfirst).now (Except.ok.inj (reply_ok hreply))

/-! ## Nothing or the whole import -/

/-- The step is session `k`'s commit, and takes effect. -/
def Commits (w : World) (k : Nat) (l : Label) : Prop :=
  ∃ x rest env, w.sessions[k]? = some x ∧ x.rest = .call .commit rest ∧ l = .call k env ∧
    env.commits = true

/-- The step is taken by session `k`, or ends its process. -/
def OfSession (k : Nat) : Label → Prop
  | .call j _ | .crash j => j = k
  | _ => False

/-- A step of a session that is not its commit leaves every row. -/
theorem same_of_not_commits (hof : OfSession k l) (hexec : w.exec hashtextextended site l = some w')
    (hnot : ¬ Commits w k l) : w'.db = w.db := by
  cases l with
  | call j env =>
    obtain rfl : j = k := hof
    obtain ⟨x, c, rest, hk, -, hrest, -, rfl⟩ := exec_call hexec
    refine if_neg fun hcommit => hnot ?_
    rw [Bool.and_eq_true] at hcommit
    obtain rfl := isCommit_eq hcommit.1
    exact ⟨x, rest, env, hk, hrest, rfl, hcommit.2⟩
  | crash j =>
    obtain ⟨x, -, rfl⟩ := map_eq_some_iff.mp hexec
    rfl
  | tick | issue | change | start => cases hof

/-- A step of an import adds all of its effects that are new, with an audit row for each, or
nothing. Where it adds them, each credential was usable from the import's locked check of it,
and the authorization was of this database and unexpired until its last check. Where they are
there already, the import adds nothing. -/
theorem trust_import_atomic (hashtextextended : String → Int) (site : Deployment) :
    (system hashtextextended site).Invariant fun v =>
      ∀ ls w, (system hashtextextended site).Run v ls w → ∀ k l w' x a,
        w.sessions[k]? = some x → x.job = .importEvidence a → OfSession k l →
        (system hashtextextended site).step w l w' →
        (Commits w k l → Present a w'.db ∧ Adds a w.db w'.db ∧
          (∀ b ∈ a.bindings, ∀ row, HasDone v k (.credential b.tokenId) row → Usable a b k v) ∧
          ∀ expected, a.authorization = some expected → AuthorizedUntil site k v expected) ∧
        (¬ Commits w k l → w'.db = w.db) ∧
        (Present a v.db → w'.db = w.db) := by
  intro v hreachable ls w hrun k l w' x a hk hjob hof hstep
  have hv := worldOk_invariant v hreachable
  have hreachableW := hreachable.run hrun
  have hw := worldOk_invariant w hreachableW
  have hcommit : Commits w k l → x.isOpen = true ∧ ImportOk a x ∧
      ImportComplete a x.history ∧ w'.db = w.db.after x.began x.history := by
    rintro ⟨x', rest, env, hk', hrest, rfl, hcommits⟩
    obtain rfl : x = x' := some.inj (hk.symm.trans hk')
    obtain ⟨x', c, rest', hk'', hopen, hrest', -, rfl⟩ := exec_call hstep
    obtain rfl : x = x' := some.inj (hk.symm.trans hk'')
    obtain ⟨rfl, -⟩ := Prog.call.inj (hrest.symm.trans hrest')
    have hok := importsOk_invariant w hreachableW x (mem_of_getElem? hk) hopen a hjob
    have hdoes : Imports a (fun _ _ => True) x.history
        (ExceptT.mk (.call .commit rest) : Transaction Json) := hrest ▸ hok.does
    exact ⟨hopen, hok, hdoes.1, if_pos (by rw [hcommits]; rfl)⟩
  refine ⟨fun hc => ?_, same_of_not_commits hof hstep, fun hpresent => ?_⟩
  · obtain ⟨hopen, hok, hcomplete, hdb⟩ := hcommit hc
    have hfacts := (hw.sessions x (mem_of_getElem? hk) hopen).facts
    have htrusted := (hw.step hstep).trusted
    refine ⟨?_, ?_, fun b hb row hread => ?_, fun expected hexpected => ?_⟩
    · rw [hdb] at htrusted ⊢
      exact hcomplete.present hfacts htrusted
    · rw [hdb]
      exact hcomplete.adds hok.trustOnly
    · exact usable_of_commit hv hrun hk hopen hcomplete hb hread
    · exact authorized_of_commit hreachable hrun hk hcomplete hexpected
  · by_cases hc : Commits w k l
    · obtain ⟨hopen, hok, hcomplete, hdb⟩ := hcommit hc
      have hfacts := (hw.sessions x (mem_of_getElem? hk) hopen).facts
      have hnone := (hpresent.grow (grows_run hrun) hw.trusted).no_effects hfacts hok.admitted
      rw [hdb]
      exact hcomplete.paired.same_of_no_effects hok.trustOnly hnone
    · exact same_of_not_commits hof hstep hc

/-! ### An import that is crashed, unanswered and repeated -/

def sampleToken (id : Uuid) (scopes : List String) : AgentToken :=
  ⟨id, .array (scopes.map .string), 1000, none⟩

def proposerScopes : List String := ["agent:learning:read", "agent:learning:propose"]

/-- An owner and a curator. -/
def twoActors : World where
  now := 0
  db := ⟨[sampleToken 1 proposerScopes, sampleToken 2 ["agent:learning:curate"]],
    [⟨1, 1⟩, ⟨2, 2⟩], [], [], [], [], [], []⟩
  sessions := []

theorem initial_twoActors : twoActors.Initial :=
  ⟨⟨by decide, rfl, rfl, rfl, rfl, rfl, rfl⟩, rfl⟩

/-- The owner's credential is rotated, and one piece of evidence attested. -/
def rotationImport : ImportArgs where
  bindings := [⟨3, 1, some 1⟩, ⟨2, 2, none⟩]
  owner := 1
  curator := 2
  repository := "clawforge"
  evidence := [⟨String.ofList (List.replicate 40 'a'), "storage",
    String.ofList (List.replicate 64 'b'), true⟩]
  authorization := some ⟨"7", 5, 1⟩

def sampleSite : Deployment := ⟨"7", 5⟩

def sampleHash (text : String) : Int := text.length

def callOf (k : Nat) (fate : StoreFate) : Label := .call k ⟨fate, 0, 10⟩

/-- A first import crashes after its attestation; a second one gets to its commit. -/
def importRun : List Label :=
  [.issue (sampleToken 3 proposerScopes), .start (.importEvidence rotationImport)] ++
    List.replicate 22 (callOf 0 .committed) ++
    [.tick 1, .crash 0, .start (.importEvidence rotationImport)] ++
    List.replicate 24 (callOf 1 .committed)

/-- The import is repeated, up to its commit. -/
def importAgain : List Label :=
  .start (.importEvidence rotationImport) :: List.replicate 14 (callOf 2 .committed)

/-- Whether session `k` is an open import at its commit. -/
def atCommit (w : World) (k : Nat) : Bool :=
  match w.sessions[k]? with
  | some ⟨.importEvidence a, _, _, .call c _, _⟩ => a = rotationImport && c.isCommit
  | _ => false

theorem exists_of_atCommit (h : atCommit w k = true) :
    ∃ x rest, w.sessions[k]? = some x ∧ x.job = .importEvidence rotationImport ∧
      x.rest = .call .commit rest := by
  unfold atCommit at h
  split at h
  case h_1 a began history c rest isOpen hk =>
    rw [Bool.and_eq_true, decide_eq_true_eq] at h
    obtain ⟨rfl, hcommit⟩ := h
    obtain rfl := isCommit_eq hcommit
    exact ⟨_, rest, hk, rfl, rfl⟩
  case h_2 => cases h

/-- The commit takes effect without an answer: all effects are there, each once, with three audit
rows. The commit of the repeated import adds nothing. -/
theorem trust_import_atomic_repeated : ∃ v w u u',
    (system sampleHash sampleSite).Run twoActors importRun v ∧ v.db.audit = [] ∧
    (system sampleHash sampleSite).step v (callOf 1 (.unacknowledged "closed")) w ∧
    Present rotationImport w.db ∧ Adds rotationImport v.db w.db ∧ w.db.audit.length = 3 ∧
    (system sampleHash sampleSite).Run w importAgain u ∧
    (system sampleHash sampleSite).step u (callOf 2 .committed) u' ∧ u'.db = u.db := by
  have hrun : ((execAll (World.exec sampleHash sampleSite) twoActors importRun).bind fun v =>
      (v.exec sampleHash sampleSite (callOf 1 (.unacknowledged "closed"))).bind fun w =>
        (execAll (World.exec sampleHash sampleSite) w importAgain).bind fun u =>
          (u.exec sampleHash sampleSite (callOf 2 .committed)).map fun _ =>
            (v.db.audit, atCommit v 1, w.db.audit.length, atCommit u 2)) =
      some ([], true, 3, true) := by
    decide +kernel
  obtain ⟨v, hv, hrest⟩ := bind_eq_some_iff.mp hrun
  obtain ⟨w, hw, hrest⟩ := bind_eq_some_iff.mp hrest
  obtain ⟨u, hu, hrest⟩ := bind_eq_some_iff.mp hrest
  obtain ⟨u', hu', hstate⟩ := map_eq_some_iff.mp hrest
  simp only [Prod.mk.injEq] at hstate
  obtain ⟨hnone, hfirst, haudit, hagain⟩ := hstate
  obtain ⟨x, rest, hk, hjob, hcommit⟩ := exists_of_atCommit hfirst
  obtain ⟨y, -, hk', hjob', -⟩ := exists_of_atCommit hagain
  have hrunv := run_of_execAll World.Initial _ hv
  have hrunu := run_of_execAll World.Initial _ hu
  have hreachv : (system sampleHash sampleSite).Reachable v :=
    ⟨twoActors, importRun, initial_twoActors, hrunv⟩
  obtain ⟨heffects, -, -⟩ := trust_import_atomic sampleHash sampleSite v hreachv [] v (.nil v)
    1 (callOf 1 _) w x rotationImport hk hjob rfl hw
  obtain ⟨hpresent, hadds, -⟩ := heffects ⟨x, rest, _, hk, hcommit, rfl, rfl⟩
  obtain ⟨-, -, hsame⟩ := trust_import_atomic sampleHash sampleSite w (hreachv.step hw) _ u hrunu
    2 (callOf 2 _) u' y rotationImport hk' hjob' rfl hu'
  exact ⟨v, w, u, u', hrunv, hnone, hw, hpresent, hadds, haudit, hrunu, hu', hsame hpresent⟩

end Clawforge.Learning

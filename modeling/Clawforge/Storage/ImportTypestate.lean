import Clawforge.Storage.LearningFacts
import Mathlib.Data.List.Perm.Subperm

/-!
# What a trust import has done when it commits

The typestate of `import_learning_evidence_authorized` and of the functions it calls: it
writes effects of its own arguments only, each followed by its audit row, and when it comes to
its commit every credential is bound to its approved actor in the rows it sees, was checked
under its lock and confirmed once more, and the authorization was checked twice.
-/

namespace Clawforge.Learning

open Kit List
open Prog (ends_pure ends_lift ends_lift_last)

/-! ## Effects and their audit rows -/

/-- A row an import adds. -/
inductive Effect
  | actor (row : ActorToken)
  | grant (row : CuratorGrant)
  | evidence (key : EvidenceKey) (verifier : Uuid)

def Event.effects : Event → List Effect
  | ⟨.insertActor row, .ok true⟩ => [.actor row]
  | ⟨.insertGrant row, .ok true⟩ => [.grant row]
  | ⟨.insertEvidence key verifier, .ok true⟩ => [.evidence key verifier]
  | _ => []

def effectsOf (h : List Event) : List Effect := h.flatMap Event.effects

def auditsOf (h : List Event) : List AuditRow := h.flatMap Event.newAudit

/-- The audit row of an effect. -/
inductive AuditOf (a : ImportArgs) : Effect → AuditRow → Prop
  | onboarded (token) : AuditOf a (.actor ⟨token, token⟩) (onboarded token)
  | linked (b old actor) : b ∈ a.bindings → b.rotationFrom = some old →
      AuditOf a (.actor ⟨b.tokenId, actor⟩) (linked old b.tokenId actor)
  | granted : AuditOf a (.grant ⟨a.owner, a.curator⟩) (curatorGranted a.owner a.curator)
  | attested (e) : e ∈ a.evidence → AuditOf a (.evidence (e.key a.owner a.repository) a.curator)
      (evidenceAttested a.owner a.repository a.curator e)

/-- Every effect so far has its audit row. -/
def Paired (a : ImportArgs) (h : List Event) : Prop :=
  Forall₂ (AuditOf a) (effectsOf h) (auditsOf h)

theorem effectsOf_concat (h : List Event) (e : Event) :
    effectsOf (h ++ [e]) = effectsOf h ++ e.effects := by
  unfold effectsOf
  rw [flatMap_append, flatMap_singleton]

theorem auditsOf_concat (h : List Event) (e : Event) :
    auditsOf (h ++ [e]) = auditsOf h ++ e.newAudit := by
  unfold auditsOf
  rw [flatMap_append, flatMap_singleton]

variable {h : List Event}

theorem Paired.read {a : ImportArgs} {e : Event} (hh : Paired a h) (he : e.call.writes = false) :
    Paired a (h ++ [e]) := by
  have hnil : e.effects = [] ∧ e.newAudit = [] := by
    obtain ⟨c, reply⟩ := e
    cases c <;> first | exact ⟨rfl, rfl⟩ | cases he
  unfold Paired
  rw [effectsOf_concat, auditsOf_concat, hnil.1, hnil.2, append_nil, append_nil]
  exact hh

/-! ## Bindings -/

/-- Whatever the committed rows are, the transaction sees the credential bound to the actor. -/
def Binds (h : List Event) (token actor : Uuid) : Prop :=
  ∀ S began, Facts S began h → (S.after began h).learningActor token = some actor

theorem Facts.of_prefix {S : Db} {began : Instant} {t : List Event} (hfacts : Facts S began t)
    (hpre : h <+: t) : Facts S began h := by
  obtain ⟨u, rfl⟩ := hpre
  intro g e v hsplit
  exact hfacts g e (v ++ u) (by rw [hsplit, append_assoc, cons_append])

theorem Binds.mono {t : List Event} {token actor : Uuid} (hb : Binds h token actor) (hpre : h <+: t) :
    Binds t token actor := by
  intro S began hfacts
  have hold := hb S began (hfacts.of_prefix hpre)
  obtain ⟨u, rfl⟩ := hpre
  rw [after_append]
  exact learningActor_after hold

theorem Facts.last {S : Db} {began : Instant} {e : Event} (hfacts : Facts S began (h ++ [e])) :
    Fact S began h e := hfacts h e [] rfl

/-- A read leaves what the transaction sees. -/
theorem after_read (S : Db) (began : Instant) (h : List Event) {e : Event}
    (he : e.call.writes = false) : S.after began (h ++ [e]) = S.after began h := by
  rw [after_append, after_of_noWrites (forall_mem_singleton.mpr he)]

/-- The actor was read as set. -/
theorem binds_of_read (h : List Event) (token actor : Uuid) :
    Binds (h ++ [⟨.actorOf token, .ok (some actor)⟩]) token actor := by
  intro S began hfacts
  rw [after_read S began h rfl]
  exact hfacts.last

/-- An insertion binds the credential, where it was free or bound to the same actor. -/
theorem binds_of_insert {token actor : Uuid} {inserted : Bool}
    (hprior : ∀ S began, Facts S began h → (S.after began h).learningActor token = none ∨
      (S.after began h).learningActor token = some actor) :
    Binds (h ++ [⟨.insertActor ⟨token, actor⟩, .ok inserted⟩]) token actor := by
  intro S began hfacts
  have hfact : inserted = true ↔ (S.after began h).learningActor token = none := hfacts.last
  rw [after_append]
  rcases hprior S began (hfacts.of_prefix (prefix_append h _)) with hnone | hsome
  · have hrows : ((S.after began h).after began
        [⟨.insertActor ⟨token, actor⟩, .ok inserted⟩]).actors =
        (S.after began h).actors ++ [⟨token, actor⟩] := by
      rw [hfact.mpr hnone]
      rfl
    unfold Db.learningActor at hnone ⊢
    rw [hrows, find?_append, Option.map_eq_none_iff.mp hnone, Option.none_or]
    simp
  · exact learningActor_after hsome

/-! ## The typestate -/

/-- The exact scopes of the actor's role. -/
def ScopesExact (a : ImportArgs) (actor : Uuid) (scopes : Json) : Prop :=
  ∃ required granted, requiredScopes a actor = .ok required ∧ scopesOf scopes = .ok granted ∧
    granted.Perm required

/-- The credential was read for update, unrevoked and with the scopes of its role. -/
def Checked (a : ImportArgs) (b : LearningTrustBinding) (h : List Event) : Prop :=
  ∃ row, Did h (.credential b.tokenId) row ∧ row.revokedAt = none ∧
    ScopesExact a b.actorId row.scopes

structure ImportComplete (a : ImportArgs) (h : List Event) : Prop where
  paired : Paired a h
  checked : ∀ b ∈ a.bindings, Checked a b h
  bound : ∀ b ∈ a.bindings, Binds h b.tokenId b.actorId
  confirmed : ∀ b ∈ a.bindings, Did h (.credentialActive b.tokenId) true
  granted : ∃ inserted, Did h (.insertGrant ⟨a.owner, a.curator⟩) inserted
  attested : ∀ e ∈ a.evidence, ∃ inserted,
    Did h (.insertEvidence (e.key a.owner a.repository) a.curator) inserted
  deployment : ∀ expected, a.authorization = some expected →
    Did h (.deployment expected.expiresAt)
      (⟨expected.clusterSystemIdentifier, expected.databaseOid⟩, true)
  unexpired : ∀ expected, a.authorization = some expected →
    Did h (.authorizationValid expected.expiresAt) true

/-- What an import has done before a statement. -/
def ImportMay (a : ImportArgs) (h : List Event) : Statement → Prop
  | .insertActor row => ∃ b ∈ a.bindings, row.tokenId = b.tokenId
  | .insertGrant row => row = ⟨a.owner, a.curator⟩
  | .insertEvidence key verifier => verifier = a.curator ∧
      ∃ e ∈ a.evidence, key = e.key a.owner a.repository
  | .audit _ => (auditsOf h).length < (effectsOf h).length
  | .commit => ImportComplete a h
  | c => c.learns = false

abbrev Imports (a : ImportArgs) {α : Type} (Q : List Event → α → Prop) (h : List Event)
    (x : Transaction α) : Prop :=
  Prog.Ends note (ImportMay a) Q h x

/-- A part that keeps effects and audit rows paired, and establishes `P`. -/
abbrev Does (a : ImportArgs) {α : Type} (P : List Event → Prop) (h : List Event)
    (x : Transaction α) : Prop :=
  Imports a (fun h' _ => Paired a h' ∧ h <+: h' ∧ P h') h x

section Rules

variable {a : ImportArgs} {α : Type} {h : List Event}

theorem prefix_concat (h : List Event) (e : Event) : h <+: h ++ [e] := prefix_append h [e]

/-- A loop establishes for every item what a round establishes for one. -/
theorem does_forEach {P : α → List Event → Prop} {f : α → Transaction Unit} {xs : List α}
    (hmono : ∀ x h h', h <+: h' → P x h → P x h')
    (hf : ∀ h' x, x ∈ xs → Paired a h' → h <+: h' → Does a (P x) h' (f x)) (hh : Paired a h) :
    Does a (fun h' => ∀ x ∈ xs, P x h') h (forEach f xs) := by
  induction xs generalizing h with
  | nil => exact ends_pure ⟨hh, prefix_refl h, forall_mem_nil _⟩
  | cons x rest ih =>
    refine Prog.Ends.bind (hf h x mem_cons_self hh (prefix_refl h)) ?_
    rintro h' _ ⟨hpaired, hpre, hx⟩
    refine (ih (fun h'' y hy hp hpre' =>
      hf h'' y (mem_cons_of_mem x hy) hp (hpre.trans hpre')) hpaired).mono ?_
    rintro h'' _ ⟨hpaired', hpre', hrest⟩
    refine ⟨hpaired', hpre.trans hpre', fun y hy => ?_⟩
    rcases mem_cons.mp hy with rfl | hy
    · exact hmono y h' h'' hpre' hx
    · exact hrest y hy

/-- The audit row of an insertion, where it inserted. -/
theorem does_auditIf (e : Event) (inserted : Bool) {effect : Effect} {row : AuditRow}
    (hh : Paired a h) (heffects : Event.effects e = if inserted then [effect] else [])
    (haudit : Event.newAudit e = []) (hrow : AuditOf a effect row) :
    Does a (fun h' => h ++ [e] <+: h') (h ++ [e]) (auditIf inserted row) := by
  unfold auditIf
  cases inserted with
  | true =>
    have heffectsOf : effectsOf (h ++ [e]) = effectsOf h ++ [effect] := by
      rw [effectsOf_concat, heffects, if_pos rfl]
    have hauditsOf : auditsOf (h ++ [e]) = auditsOf h := by
      rw [auditsOf_concat, haudit, append_nil]
    refine ends_sql_last ?_ fun _ => ⟨?_, prefix_concat _ _, prefix_concat _ _⟩
    · show (auditsOf _).length < (effectsOf _).length
      rw [heffectsOf, hauditsOf, length_append, length_singleton, hh.length_eq]
      exact Nat.lt_succ_self _
    · unfold Paired
      rw [effectsOf_concat, auditsOf_concat, heffectsOf, hauditsOf]
      show Forall₂ _ (effectsOf h ++ [effect] ++ []) (auditsOf h ++ [row])
      rw [append_nil]
      exact rel_append hh (.cons hrow .nil)
  | false =>
    refine ends_pure ⟨?_, prefix_refl _, prefix_refl _⟩
    unfold Paired
    rw [effectsOf_concat, auditsOf_concat, heffects, if_neg Bool.false_ne_true, haudit,
      append_nil, append_nil]
    exact hh

end Rules

/-! ## The parts of an import -/

section Parts

variable {a : ImportArgs} {h : List Event} {b : LearningTrustBinding}

theorem does_onboard (hb : b ∈ a.bindings) (hh : Paired a h) (hsame : b.tokenId = b.actorId)
    (hfree : ∀ S began, Facts S began h → (S.after began h).learningActor b.tokenId = none) :
    Does a (fun h' => Binds h' b.tokenId b.actorId) h (onboardLearningActorTx b.tokenId) := by
  refine ends_sql rfl fun _ => ends_sql rfl fun found => ends_ensure fun _ => ?_
  refine ends_sql ⟨b, hb, rfl⟩ fun inserted => ?_
  have hpaired := (hh.read (e := ⟨.lock (.rotation b.tokenId), .ok ()⟩) rfl).read
    (e := ⟨.credentialExists b.tokenId, .ok found⟩) rfl
  have hbinds : Binds (h ++ [⟨.lock (.rotation b.tokenId), .ok ()⟩] ++
      [⟨.credentialExists b.tokenId, .ok found⟩] ++
      [⟨.insertActor ⟨b.tokenId, b.tokenId⟩, .ok inserted⟩]) b.tokenId b.tokenId := by
    refine binds_of_insert fun S began hfacts => ?_
    rw [after_read S began _ rfl, after_read S began _ rfl]
    refine .inl (hfree S began (hfacts.of_prefix ?_))
    exact (prefix_concat _ _).trans (prefix_concat _ _)
  refine (does_auditIf _ inserted hpaired ?_ rfl (.onboarded b.tokenId)).mono ?_
  · cases inserted <;> rfl
  · rintro h' _ ⟨hp, -, hpre⟩
    refine ⟨hp, ?_, hsame ▸ hbinds.mono hpre⟩
    exact ((prefix_concat _ _).trans ((prefix_concat _ _).trans (prefix_concat _ _))).trans hpre

theorem does_link {old : Uuid} (hb : b ∈ a.bindings) (hold : b.rotationFrom = some old)
    (hh : Paired a h) (hsource : Binds h old b.actorId) :
    Does a (fun h' => Binds h' b.tokenId b.actorId) h
      (linkLearningRotationTx old b.tokenId) := by
  refine ends_sql rfl fun _ => ends_sql rfl fun found => ends_ensure fun _ => ?_
  refine ends_sql rfl fun known => ends_lift fun actor hactor => ?_
  obtain rfl : known = some actor := by
    cases known with
    | none => cases hactor
    | some x => exact congrArg some (Except.ok.inj hactor)
  refine ends_sql rfl fun prior => ends_ensure fun hprior => ?_
  refine ends_sql rfl fun owns => ends_ensure fun _ => ends_sql ⟨b, hb, rfl⟩ fun inserted => ?_
  rw [Bool.or_eq_true, decide_eq_true_eq, decide_eq_true_eq] at hprior
  -- the history when the old credential has been read
  generalize hg : h ++ [⟨.lock (.rotation b.tokenId), .ok ()⟩] ++
    [⟨.credentialExists old, .ok found⟩] = g
  have hpreG : h <+: g := hg ▸ (prefix_concat _ _).trans (prefix_concat _ _)
  have hlock : Did g (.lock (.rotation b.tokenId)) () := hg ▸ did_last.concat
  have hpairedG : Paired a g := hg ▸ (hh.read rfl).read rfl
  have hpaired := ((hpairedG.read (e := ⟨.actorOf old, .ok (some actor)⟩) rfl).read
    (e := ⟨.actorOf b.tokenId, .ok prior⟩) rfl).read (e := ⟨.ownsLessons b.tokenId, .ok owns⟩) rfl
  have hactorSame : ∀ S began, Facts S began (g ++ [⟨.actorOf old, .ok (some actor)⟩]) →
      actor = b.actorId := by
    intro S began hfacts
    have hread : (S.after began g).learningActor old = some actor := hfacts.last
    have hknown := (hsource.mono hpreG) S began (hfacts.of_prefix (prefix_concat _ _))
    exact Option.some.inj (hread.symm.trans hknown)
  have hbinds : Binds (g ++ [⟨.actorOf old, .ok (some actor)⟩] ++
      [⟨.actorOf b.tokenId, .ok prior⟩] ++ [⟨.ownsLessons b.tokenId, .ok owns⟩] ++
      [⟨.insertActor ⟨b.tokenId, actor⟩, .ok inserted⟩]) b.tokenId actor := by
    refine binds_of_insert fun S began hfacts => ?_
    rw [after_read S began _ rfl, after_read S began _ rfl]
    have hread : Fact S began (g ++ [⟨.actorOf old, .ok (some actor)⟩])
        ⟨.actorOf b.tokenId, .ok prior⟩ := (hfacts.of_prefix (prefix_concat _ _)).last
    rcases hprior with rfl | rfl
    · exact .inl (hread hlock.concat)
    · exact .inr hread
  refine (does_auditIf _ inserted hpaired ?_ rfl (.linked b old actor hb hold)).mono ?_
  · cases inserted <;> rfl
  · rintro h' _ ⟨hp, -, hpre⟩
    have hall : g ++ [⟨.actorOf old, .ok (some actor)⟩] <+: h' :=
      ((prefix_concat _ _).trans ((prefix_concat _ _).trans (prefix_concat _ _))).trans hpre
    refine ⟨hp, hpreG.trans ((prefix_concat _ _).trans hall), fun S began hfacts => ?_⟩
    rw [(hbinds.mono hpre) S began hfacts, hactorSame S began (hfacts.of_prefix hall)]

theorem requiredScopes_nodup {actor : Uuid} {required : List String}
    (h : requiredScopes a actor = .ok required) : required.Nodup := by
  unfold requiredScopes at h
  split at h
  · obtain rfl := Except.ok.inj h
    decide
  · split at h
    · obtain rfl := Except.ok.inj h
      decide
    · cases h

theorem checkCredential_ok {row : AgentToken} {utcNow : Instant}
    (h : checkCredential a b row utcNow = .ok ()) :
    row.revokedAt = none ∧ ScopesExact a b.actorId row.scopes := by
  obtain ⟨_, hactive, h⟩ := bind_ok h
  obtain ⟨granted, hgranted, h⟩ := bind_ok h
  obtain ⟨required, hrequired, h⟩ := bind_ok h
  have hactive := ensure_ok hactive
  have hsame := ensure_ok h
  unfold AgentToken.activeAt at hactive
  rw [Bool.and_eq_true, decide_eq_true_eq] at hactive hsame
  refine ⟨hactive.1, required, granted, hrequired, hgranted, ?_⟩
  have hsubset : required ⊆ granted := fun s hs =>
    contains_iff_mem.mp (List.all_eq_true.mp hsame.2 s hs)
  exact ((subperm_of_subset (requiredScopes_nodup hrequired) hsubset).perm_of_length_le
    hsame.1.ge).symm

theorem Checked.mono {h' : List Event} (hpre : h <+: h') (hc : Checked a b h) : Checked a b h' := by
  obtain ⟨row, hd, hrow⟩ := hc
  exact ⟨row, hpre.subset hd, hrow⟩

theorem does_bindActor (hb : b ∈ a.bindings) (hh : Paired a h)
    (hlock : Did h (.lock (.rotation b.tokenId)) ()) (prior : Option Uuid) :
    Does a (fun h' => h <+: h' ∧ Binds h' b.tokenId b.actorId)
      (h ++ [⟨.actorOf b.tokenId, .ok prior⟩]) (bindActor b prior) := by
  have hpaired : Paired a (h ++ [⟨.actorOf b.tokenId, .ok prior⟩]) := hh.read rfl
  have hstart := prefix_concat h ⟨.actorOf b.tokenId, .ok prior⟩
  have hfinish : ∀ h' : List Event, (h ++ [⟨.actorOf b.tokenId, .ok prior⟩]) <+: h' →
      Binds h' b.tokenId b.actorId → h <+: h' ∧ Binds h' b.tokenId b.actorId :=
    fun h' hpre hbinds => ⟨hstart.trans hpre, hbinds⟩
  unfold bindActor
  cases prior with
  | some actual =>
    refine ends_lift_last fun _ hok => ?_
    have hsame := of_decide_eq_true (ensure_ok hok)
    subst hsame
    exact ⟨hpaired, prefix_refl _, hstart, binds_of_read h b.tokenId b.actorId⟩
  | none =>
    dsimp only
    cases hfrom : b.rotationFrom with
    | some old =>
      refine ends_sql rfl fun known => ends_lift fun actual hactual => ?_
      obtain rfl : known = some actual := by
        cases known with
        | none => cases hactual
        | some x => exact congrArg some (Except.ok.inj hactual)
      refine ends_ensure fun hsame => ?_
      have hsame := of_decide_eq_true hsame
      subst hsame
      refine (does_link hb hfrom (hpaired.read rfl) (binds_of_read _ old b.actorId)).mono ?_
      rintro h' _ ⟨hp, hpre, hbinds⟩
      have hpre' := (prefix_concat _ _).trans hpre
      exact ⟨hp, hpre', hfinish h' hpre' hbinds⟩
    | none =>
      refine ends_ensure fun hsame => ?_
      refine (does_onboard hb hpaired (of_decide_eq_true hsame) fun S began hfacts => ?_).mono ?_
      · rw [after_read S began h rfl]
        exact hfacts.last hlock
      · rintro h' _ ⟨hp, hpre, hbinds⟩
        exact ⟨hp, hpre, hfinish h' hpre hbinds⟩

theorem does_bindCredential (hb : b ∈ a.bindings) (hh : Paired a h)
    (hlock : Did h (.lock (.rotation b.tokenId)) ()) :
    Does a (fun h' => Checked a b h' ∧ Binds h' b.tokenId b.actorId) h (bindCredential a b) := by
  refine ends_sql rfl fun row => ends_sql rfl fun utcNow => ends_lift fun _ hok => ?_
  obtain ⟨hrevoked, hscopes⟩ := checkCredential_ok hok
  refine ends_sql rfl fun prior => ?_
  have hpaired := (hh.read (e := ⟨.credential b.tokenId, .ok row⟩) rfl).read
    (e := ⟨.utcNow, .ok utcNow⟩) rfl
  refine (does_bindActor hb hpaired hlock.concat.concat prior).mono ?_
  rintro h' _ ⟨hp, -, hpre, hbinds⟩
  have hread : Did h' (.credential b.tokenId) row := hpre.subset did_last.concat
  exact ⟨hp, ((prefix_concat _ _).trans (prefix_concat _ _)).trans hpre,
    ⟨row, hread, hrevoked, hscopes⟩, hbinds⟩

theorem does_grant (hh : Paired a h) :
    Does a (fun h' => ∃ inserted, Did h' (.insertGrant ⟨a.owner, a.curator⟩) inserted) h
      (grantLearningCuratorTx a.owner a.curator) := by
  refine ends_ensure fun _ => ends_sql rfl fun inserted => ?_
  refine (does_auditIf _ inserted hh ?_ rfl .granted).mono ?_
  · cases inserted <;> rfl
  · rintro h' _ ⟨hp, -, hpre⟩
    exact ⟨hp, (prefix_concat _ _).trans hpre, inserted, hpre.subset did_last⟩

theorem does_attest {e : LearningEvidence} (he : e ∈ a.evidence) (hh : Paired a h) :
    Does a (fun h' => ∃ inserted,
        Did h' (.insertEvidence (e.key a.owner a.repository) a.curator) inserted) h
      (attestLearningEvidenceTx a.owner a.repository a.curator e) := by
  refine ends_lift fun _ _ => ends_ensure fun _ => ends_ensure fun _ => ?_
  refine ends_sql ⟨rfl, e, he, rfl⟩ fun inserted => ?_
  refine (does_auditIf _ inserted hh ?_ rfl (.attested e he)).mono ?_
  · cases inserted <;> rfl
  · rintro h' _ ⟨hp, -, hpre⟩
    exact ⟨hp, (prefix_concat _ _).trans hpre, inserted, hpre.subset did_last⟩

theorem does_confirm (b : LearningTrustBinding) (hh : Paired a h) :
    Does a (fun h' => Did h' (.credentialActive b.tokenId) true) h (confirmCredential b) := by
  refine ends_sql rfl fun active => ends_lift_last fun _ hok => ?_
  have hactive := ensure_ok hok
  subst hactive
  exact ⟨hh.read rfl, prefix_concat _ _, did_last⟩

theorem does_checkDeployment (hh : Paired a h) :
    Does a (fun h' => ∀ expected, a.authorization = some expected →
        Did h' (.deployment expected.expiresAt)
          (⟨expected.clusterSystemIdentifier, expected.databaseOid⟩, true)) h
      (checkDeployment a.authorization) := by
  cases hauth : a.authorization with
  | none => exact ends_pure ⟨hh, prefix_refl h, fun _ hno => nomatch hno⟩
  | some expected =>
    refine ends_sql rfl fun reply => ends_lift_last fun _ hok => ?_
    obtain ⟨site, authorized⟩ := reply
    have hsame := ensure_ok hok
    rw [Bool.and_eq_true, Bool.and_eq_true, decide_eq_true_eq, decide_eq_true_eq] at hsame
    obtain ⟨⟨hcluster, hoid⟩, rfl⟩ := hsame
    refine ⟨hh.read rfl, prefix_concat _ _, fun expected' hsame' => ?_⟩
    obtain rfl := Option.some.inj hsame'
    rw [← hcluster, ← hoid]
    exact did_last

theorem does_checkExpiry (hh : Paired a h) :
    Does a (fun h' => ∀ expected, a.authorization = some expected →
        Did h' (.authorizationValid expected.expiresAt) true) h
      (checkExpiry a.authorization) := by
  cases hauth : a.authorization with
  | none => exact ends_pure ⟨hh, prefix_refl h, fun _ hno => nomatch hno⟩
  | some expected =>
    refine ends_sql rfl fun valid => ends_lift_last fun _ hok => ?_
    have hvalid := ensure_ok hok
    subst hvalid
    refine ⟨hh.read rfl, prefix_concat _ _, fun expected' hsame => ?_⟩
    obtain rfl := Option.some.inj hsame
    exact did_last

theorem mem_ordered : b ∈ a.ordered ↔ b ∈ a.bindings :=
  (perm_insertionSort _ _).mem_iff

theorem imports_importLearningEvidence (a : ImportArgs) :
    Imports a (fun _ _ => True) [] (importLearningEvidence a) := by
  have hdid : ∀ {c : Statement} {r : c.Result} {h h' : List Event}, h <+: h' → Did h c r →
      Did h' c r := fun hpre hd => hpre.subset hd
  refine ends_lift fun _ _ => ?_
  refine Prog.Ends.bind (does_checkDeployment .nil) ?_
  rintro h₁ _ ⟨hp₁, -, hdeployment⟩
  refine Prog.Ends.bind (does_forEach
    (P := fun b h => Did h (.lock (.rotation b.tokenId)) ()) (fun _ _ _ => hdid) ?_ hp₁) ?_
  · exact fun h b _ hp _ => ends_sql_last rfl fun _ => ⟨hp.read rfl, prefix_concat _ _, did_last⟩
  rintro h₂ _ ⟨hp₂, hpre₂, hlocks⟩
  refine Prog.Ends.bind (does_forEach
    (P := fun b h => Checked a b h ∧ Binds h b.tokenId b.actorId) ?_ ?_ hp₂) ?_
  · exact fun b h h' hpre hP => ⟨hP.1.mono hpre, hP.2.mono hpre⟩
  · exact fun h b hb hp hpre => does_bindCredential (mem_ordered.mp hb) hp (hdid hpre (hlocks b hb))
  rintro h₃ _ ⟨hp₃, hpre₃, hbound⟩
  refine Prog.Ends.bind (does_grant hp₃) ?_
  rintro h₄ _ ⟨hp₄, hpre₄, inserted, hgranted⟩
  refine Prog.Ends.bind (does_forEach (P := fun e h => ∃ inserted,
    Did h (.insertEvidence (e.key a.owner a.repository) a.curator) inserted) ?_ ?_ hp₄) ?_
  · rintro e h h' hpre ⟨i, hi⟩
    exact ⟨i, hdid hpre hi⟩
  · exact fun h e he hp _ => does_attest he hp
  rintro h₅ _ ⟨hp₅, hpre₅, hattested⟩
  refine Prog.Ends.bind (does_forEach
    (P := fun b h => Did h (.credentialActive b.tokenId) true) (fun _ _ _ => hdid)
    (fun h b _ hp _ => does_confirm b hp) hp₅) ?_
  rintro h₆ _ ⟨hp₆, hpre₆, hconfirmed⟩
  refine Prog.Ends.bind (does_checkExpiry hp₆) ?_
  rintro h₇ _ ⟨hp₇, hpre₇, hunexpired⟩
  have hfrom₃ : h₃ <+: h₇ := ((hpre₄.trans hpre₅).trans hpre₆).trans hpre₇
  refine ends_sql_last ?_ fun _ => trivial
  exact {
    paired := hp₇
    checked := fun b hb => (hbound b (mem_ordered.mpr hb)).1.mono hfrom₃
    bound := fun b hb => (hbound b (mem_ordered.mpr hb)).2.mono hfrom₃
    confirmed := fun b hb => hdid hpre₇ (hconfirmed b (mem_ordered.mpr hb))
    granted := ⟨inserted, hdid ((hpre₅.trans hpre₆).trans hpre₇) hgranted⟩
    attested := fun e he => by
      obtain ⟨i, hi⟩ := hattested e he
      exact ⟨i, hdid (hpre₆.trans hpre₇) hi⟩
    deployment := fun expected hauth =>
      hdid ((hpre₂.trans hpre₃).trans hfrom₃) (hdeployment expected hauth)
    unexpired := hunexpired }

end Parts

end Clawforge.Learning

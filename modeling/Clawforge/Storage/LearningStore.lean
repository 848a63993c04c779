import Clawforge.Storage.Learning
import Clawforge.Executor.Calls

/-!
# The learning store

The functions of `learning.rs` that write, each as the program of statements its
transaction makes. A function that returns without its commit has written nothing.
-/

namespace Clawforge.Learning

open Clawforge.Text Kit
open EventDelivery (uuidText)

/-- A part of a store function. -/
abbrev Transaction (α : Type) : Type := ExceptT String (Prog Answer) α

def sql (c : Statement) : Transaction c.Result := ExceptT.mk (Prog.request c)

def forEach {α : Type} (f : α → Transaction Unit) : List α → Transaction Unit
  | [] => return ()
  | x :: rest => do
      f x
      forEach f rest

/-- The audit row of an effect, where there is one. -/
def auditIf (inserted : Bool) (row : AuditRow) : Transaction Unit :=
  if inserted then sql (.audit row) else return ()

/-! ## Trust -/

def onboarded (token : Uuid) : AuditRow :=
  ⟨"learning-trust-admin", "learning_actor_onboarded", uuidText token,
    .ofFields [("actor_id", .string (uuidText token))]⟩

def linked (old new actor : Uuid) : AuditRow :=
  ⟨"learning-trust-admin", "learning_actor_linked", uuidText new,
    .ofFields [("actor_id", .string (uuidText actor)),
      ("original_token_id", .string (uuidText old))]⟩

def curatorGranted (owner reviewer : Uuid) : AuditRow :=
  ⟨"learning-trust-admin", "learning_curator_granted", uuidText owner,
    .ofFields [("reviewer_id", .string (uuidText reviewer))]⟩

def evidenceAttested (owner : Uuid) (repository : String) (verifier : Uuid)
    (evidence : LearningEvidence) : AuditRow :=
  ⟨"learning-trust-import", "learning_evidence_attested", uuidText owner,
    .ofFields [("repository", .string repository), ("verifier_id", .string (uuidText verifier)),
      ("evidence", evidence.toJson)]⟩

/-- `onboard_learning_actor_tx`. -/
def onboardLearningActorTx (token : Uuid) : Transaction Unit := do
  sql (.lock (.rotation token))
  let found ← sql (.credentialExists token)
  ensure found "credential missing"
  let inserted ← sql (.insertActor ⟨token, token⟩)
  auditIf inserted (onboarded token)

/-- `link_learning_rotation_tx`. -/
def linkLearningRotationTx (old new : Uuid) : Transaction Unit := do
  sql (.lock (.rotation new))
  let found ← sql (.credentialExists old)
  ensure found "original credential missing"
  let known ← sql (.actorOf old)
  let actor ← fetchOne known
  let prior ← sql (.actorOf new)
  ensure (prior = none || prior = some actor) "replacement already belongs to another actor"
  let owns ← sql (.ownsLessons new)
  ensure (new = actor || !owns) "replacement already owns unlinked learning data"
  let inserted ← sql (.insertActor ⟨new, actor⟩)
  auditIf inserted (linked old new actor)

/-- `grant_learning_curator_tx`. -/
def grantLearningCuratorTx (owner reviewer : Uuid) : Transaction Unit := do
  ensure (owner ≠ reviewer) "self curation grant prohibited"
  let inserted ← sql (.insertGrant ⟨owner, reviewer⟩)
  auditIf inserted (curatorGranted owner reviewer)

/-- `attest_learning_evidence_tx`. -/
def attestLearningEvidenceTx (owner : Uuid) (repository : String) (verifier : Uuid)
    (evidence : LearningEvidence) : Transaction Unit := do
  evidence.validate
  ensure (bounded repository 512 &&
    safeJson (.ofFields [("repository", .string repository), ("evidence", evidence.toJson)]) 0)
    "unsafe evidence attestation"
  ensure (evidence.passed && owner ≠ verifier) "independent passing evidence required"
  let inserted ← sql (.insertEvidence (evidence.key owner repository) verifier)
  auditIf inserted (evidenceAttested owner repository verifier evidence)

def onboardLearningActor (token : Uuid) : Transaction Unit := do
  onboardLearningActorTx token
  sql .commit

def linkLearningRotation (old new : Uuid) : Transaction Unit := do
  linkLearningRotationTx old new
  sql .commit

def grantLearningCurator (owner reviewer : Uuid) : Transaction Unit := do
  grantLearningCuratorTx owner reviewer
  sql .commit

def attestLearningEvidence (owner : Uuid) (repository : String) (verifier : Uuid)
    (evidence : LearningEvidence) : Transaction Unit := do
  attestLearningEvidenceTx owner repository verifier evidence
  sql .commit

/-! ## Import -/

structure LearningTrustBinding where
  tokenId : Uuid
  actorId : Uuid
  rotationFrom : Option Uuid
deriving DecidableEq

structure LearningImportAuthorization where
  clusterSystemIdentifier : String
  databaseOid : Int
  expiresAt : Int
deriving DecidableEq

/-- The arguments of `import_learning_evidence_authorized`. -/
structure ImportArgs where
  bindings : List LearningTrustBinding
  owner : Uuid
  curator : Uuid
  repository : String
  evidence : List LearningEvidence
  authorization : Option LearningImportAuthorization
deriving DecidableEq

/-- `sort_by_key(|b| b.token_id)`. -/
def ImportArgs.ordered (a : ImportArgs) : List LearningTrustBinding :=
  a.bindings.insertionSort (fun b c => b.tokenId ≤ c.tokenId)

/-- The checks before the transaction begins. -/
def ImportArgs.validate (a : ImportArgs) : Except String Unit := do
  ensure (a.owner ≠ a.curator && a.bindings.length = 2) "independent identities required"
  ensure (a.bindings.any (·.actorId = a.owner) && a.bindings.any (·.actorId = a.curator))
    "independent role pair missing"
  ensure (a.ordered[0]?.map (·.tokenId) ≠ a.ordered[1]?.map (·.tokenId))
    "distinct credentials required"

def checkDeployment : Option LearningImportAuthorization → Transaction Unit
  | none => return ()
  | some expected => do
      let (site, authorized) ← sql (.deployment expected.expiresAt)
      ensure (site.clusterSystemIdentifier = expected.clusterSystemIdentifier &&
        site.databaseOid = expected.databaseOid && authorized)
        "deployment transaction identity or authorization mismatch"

def checkExpiry : Option LearningImportAuthorization → Transaction Unit
  | none => return ()
  | some expected => do
      let valid ← sql (.authorizationValid expected.expiresAt)
      ensure valid "deployment authorization expired before import commit"

/-- The scopes a credential of this actor has to carry. -/
def requiredScopes (a : ImportArgs) (actor : Uuid) : Except String (List String) :=
  if actor = a.owner then .ok ["agent:learning:read", "agent:learning:propose"]
  else if actor = a.curator then .ok ["agent:learning:curate"]
  else .error "binding outside approved actors"

/-- `Vec<String>` from the `scopes` column. -/
def scopesOf (scopes : Json) : Except String (List String) :=
  match scopes.asArray.bind fun xs => xs.mapM Json.asStr with
  | some scopes => .ok scopes
  | none => .error "scopes are not a list of strings"

/-- The locked row of a credential against the process's clock and the scopes of its actor. -/
def checkCredential (a : ImportArgs) (b : LearningTrustBinding) (row : AgentToken)
    (utcNow : Instant) : Except String Unit := do
  ensure (row.activeAt utcNow) "credential inactive"
  let scopes ← scopesOf row.scopes
  let required ← requiredScopes a b.actorId
  ensure (required.length = scopes.length && required.all fun s => scopes.contains s)
    "credential scope mismatch"

/-- The actor of a checked credential: as it stands, by rotation, or onboarded. -/
def bindActor (b : LearningTrustBinding) (prior : Option Uuid) : Transaction Unit :=
  match prior with
  | some actual => do ensure (actual = b.actorId) "existing actor mismatch"
  | none =>
    match b.rotationFrom with
    | some old => do
        let known ← sql (.actorOf old)
        let actual ← fetchOne known
        ensure (actual = b.actorId) "rotation source mismatch"
        linkLearningRotationTx old b.tokenId
    | none => do
        ensure (b.tokenId = b.actorId) "explicit onboarding actor mismatch"
        onboardLearningActorTx b.tokenId

def bindCredential (a : ImportArgs) (b : LearningTrustBinding) : Transaction Unit := do
  let row ← sql (.credential b.tokenId)
  let utcNow ← sql .utcNow
  checkCredential a b row utcNow
  let prior ← sql (.actorOf b.tokenId)
  bindActor b prior

def confirmCredential (b : LearningTrustBinding) : Transaction Unit := do
  let active ← sql (.credentialActive b.tokenId)
  ensure active "credential inactive before import commit"

/-- `import_learning_evidence_authorized`. -/
def importLearningEvidence (a : ImportArgs) : Transaction Unit := do
  a.validate
  checkDeployment a.authorization
  forEach (fun b => sql (.lock (.rotation b.tokenId))) a.ordered
  forEach (bindCredential a) a.ordered
  grantLearningCuratorTx a.owner a.curator
  forEach (attestLearningEvidenceTx a.owner a.repository a.curator) a.evidence
  forEach confirmCredential a.ordered
  checkExpiry a.authorization
  sql .commit

/-! ## Lessons -/

def proposedReply (lesson revision : Uuid) : Json :=
  .ofFields [("schema_version", .number (.int 1)), ("id", .string (uuidText lesson)),
    ("revision_id", .string (uuidText revision))]

def revisedReply (revision : Uuid) : Json :=
  .ofFields [("schema_version", .number (.int 1)), ("revision_id", .string (uuidText revision))]

/-- The rows of a first proposal. -/
def proposeNew (owner : Uuid) (input : LearningLessonInput) : Transaction Json := do
  let id ← sql .newUuid
  let revisionId ← sql .newUuid
  sql (.insertLesson ⟨id, owner, input.repository, input.component, input.idempotencyKey⟩)
  sql (.insertRevision ⟨revisionId, id, 1, .pending, input, none⟩)
  sql (.audit ⟨uuidText owner, "lesson_proposed", uuidText revisionId,
    .ofFields [("schema_version", .number (.int 1)), ("lesson_id", .string (uuidText id))]⟩)
  sql .commit
  return proposedReply id revisionId

def proposeLearning (owner : Uuid) (input : LearningLessonInput) : Transaction Json := do
  input.validate
  sql (.lock (.proposal owner input.idempotencyKey))
  let existing ← sql (.findProposal owner input.idempotencyKey)
  match existing with
  | some (lesson, revision) => do
      ensure (revision.payload = input) "idempotency payload mismatch"
      return proposedReply lesson.id revision.id
  | none => proposeNew owner input

def reviseNew (owner id : Uuid) (input : LearningLessonInput) : Transaction Json := do
  let revision ← sql (.nextRevision id)
  let revisionId ← sql .newUuid
  sql (.insertRevision ⟨revisionId, id, revision, .pending, input, none⟩)
  sql (.audit ⟨uuidText owner, "lesson_revision_proposed", uuidText revisionId,
    .ofFields [("lesson_id", .string (uuidText id)), ("revision", .number (.int revision))]⟩)
  sql .commit
  return revisedReply revisionId

def reviseLearning (owner id : Uuid) (input : LearningLessonInput) : Transaction Json := do
  input.validate
  sql (.lock (.lesson id))
  let lesson ← sql (.lesson id)
  ensure (lesson.ownerId = owner) "learning owner mismatch"
  ensure (lesson.repository = input.repository && lesson.component = input.component)
    "revision context mismatch"
  let existing ← sql (.findRevision id input.idempotencyKey)
  match existing with
  | some revision => do
      ensure (revision.payload = input) "idempotency payload mismatch"
      return revisedReply revision.id
  | none => reviseNew owner id input

/-! ## Reviews -/

/-- The payload of a review's record. -/
def requestedReview (status reason : String) (evidence : LearningEvidence) : Json :=
  .ofFields [("status", .string status), ("reason", .string reason),
    ("evidence", evidence.toJson)]

def LearningReview.validate (review : LearningReview) : Except String RevisionStatus := do
  let status ← (RevisionStatus.ofReview review.status).elim (.error "invalid review") .ok
  ensure (bounded review.reason 2000 && bounded review.idempotencyKey 128) "invalid review"
  review.evidence.validate
  ensure (safeJson (.ofFields [("idempotency_key", .string review.idempotencyKey),
    ("reason", .string review.reason), ("evidence", review.evidence.toJson)]) 0) "unsafe review"
  return status

def reviewedReply (revision : Uuid) (status : String) (record : Uuid) : Json :=
  .ofFields [("schema_version", .number (.int 1)), ("revision_id", .string (uuidText revision)),
    ("status", .string status), ("review_id", .string (uuidText record))]

/-- An activation supersedes the revision that was active, unless that one is newer. -/
def supersedeActive (status : RevisionStatus) (lid rid : Uuid) (revision : Nat) :
    Transaction Unit :=
  if status = .active then do
    let newer ← sql (.newerActive lid revision)
    ensure (!newer) "cannot supersede a newer active revision"
    let _ ← sql (.supersedeOthers lid rid)
  else return ()

def independent (attested : Option VerifiedEvidence) : Except String VerifiedEvidence :=
  attested.elim (.error "evidence has no independent trusted attestation") .ok

/-- A review that is not a replay. -/
def reviewNew (lid owner reviewer rid : Uuid) (review : LearningReview)
    (status : RevisionStatus) : Transaction Json := do
  let r ← sql (.revisionForUpdate rid)
  ensure (r.status = .pending || r.status = .active) "terminal revision cannot be reactivated"
  let attested ← sql (.attestation (review.evidence.key owner r.payload.repository))
  let verified ← independent attested
  ensure (review.evidence = r.payload.evidence && review.evidence.passed)
    "review must match passing objective evidence"
  supersedeActive status lid rid r.revision
  sql (.setStatus rid status verified.verifiedAt)
  let record ← sql .newUuid
  sql (.insertRecord ⟨record, rid, reviewer, .review,
    requestedReview review.status review.reason review.evidence, review.idempotencyKey⟩)
  sql (.audit ⟨uuidText reviewer, "lesson_reviewed", uuidText rid,
    .ofFields [("status", .string review.status), ("review_id", .string (uuidText record)),
      ("evidence", review.evidence.toJson)]⟩)
  sql .commit
  return reviewedReply rid review.status record

def reviewLearning (reviewer rid : Uuid) (review : LearningReview) : Transaction Json := do
  let status ← review.validate
  let lid ← sql (.lessonOf rid)
  sql (.lock (.lesson lid))
  let lesson ← sql (.lesson lid)
  ensure (lesson.ownerId ≠ reviewer) "self validation is prohibited"
  let authorized ← sql (.granted lesson.ownerId reviewer)
  ensure authorized "curator is not assigned to this owner"
  let existing ← sql (.findRecord rid reviewer review.idempotencyKey)
  match existing with
  | some record => do
      ensure (record.kind = .review &&
        record.payload = requestedReview review.status review.reason review.evidence)
        "review idempotency mismatch"
      return reviewedReply rid review.status record.id
  | none => reviewNew lid lesson.ownerId reviewer rid review status

/-! ## Records -/

def attachedReply (record : Uuid) : Json :=
  .ofFields [("schema_version", .number (.int 1)), ("id", .string (uuidText record))]

def attachNew (owner rid : Uuid) (kind : RecordKind) (key : String) (payload : Json) :
    Transaction Json := do
  let id ← sql .newUuid
  sql (.insertRecord ⟨id, rid, owner, kind, payload, key⟩)
  sql (.audit ⟨uuidText owner, "learning_record_created", uuidText id,
    .ofFields [("kind", .string kind.text), ("revision_id", .string (uuidText rid))]⟩)
  sql .commit
  return attachedReply id

def validateAttached (kind key : String) (payload : Json) : Except String RecordKind := do
  let kind ← (RecordKind.ofAttached kind).elim (.error "invalid learning record") .ok
  ensure (bounded key 128 && safeJson (.string key) 0 && payload.isObject && safeJson payload 0 &&
    payload.render.utf8ByteSize ≤ 20000) "invalid learning record"
  return kind

def attachLearningRecord (owner rid : Uuid) (kind key : String) (payload : Json) :
    Transaction Json := do
  let kind ← validateAttached kind key payload
  let lid ← sql (.lessonOf rid)
  sql (.lock (.lesson lid))
  let lesson ← sql (.lesson lid)
  ensure (lesson.ownerId = owner) "learning owner mismatch"
  let existing ← sql (.findRecord rid owner key)
  match existing with
  | some record => do
      ensure (record.kind = kind && record.payload = payload) "record idempotency mismatch"
      return attachedReply record.id
  | none => attachNew owner rid kind key payload

end Clawforge.Learning

/-! ## Concurrent learning transactions

Any number of calls of the learning store, interleaved statement by statement under
`READ COMMITTED`: a statement sees the committed rows and what its own transaction has
written. A statement waits while another transaction holds what it needs: an advisory lock,
the lock of a row, or a unique key that is not yet committed. Locks are held to the end of
the transaction. Any statement may fail, a commit may take effect without its answer, and a
process may crash between two statements. Credentials are issued and changed around the
transactions, except where a transaction has locked their row. The wait of a foreign key for a
locked row, and of an index of active revisions, are left out, so more orders are possible
than PostgreSQL admits.
-/

namespace Clawforge.Learning

open Kit
open Executor (StoreFate)

/-! ## Calls -/

inductive Job
  | onboard (token : Uuid)
  | linkRotation (old new : Uuid)
  | grant (owner reviewer : Uuid)
  | attest (owner : Uuid) (repository : String) (verifier : Uuid) (evidence : LearningEvidence)
  | importEvidence (args : ImportArgs)
  | propose (owner : Uuid) (input : LearningLessonInput)
  | revise (owner id : Uuid) (input : LearningLessonInput)
  | review (reviewer rid : Uuid) (input : LearningReview)
  | attach (owner rid : Uuid) (kind key : String) (payload : Json)

/-- A function that returns `()`. -/
def done (x : Transaction Unit) : Transaction Json := do
  x
  return .null

def Job.program : Job → Transaction Json
  | .onboard token => done (onboardLearningActor token)
  | .linkRotation old new => done (linkLearningRotation old new)
  | .grant owner reviewer => done (grantLearningCurator owner reviewer)
  | .attest owner repository verifier evidence =>
    done (attestLearningEvidence owner repository verifier evidence)
  | .importEvidence args => done (importLearningEvidence args)
  | .propose owner input => proposeLearning owner input
  | .revise owner id input => reviseLearning owner id input
  | .review reviewer rid input => reviewLearning reviewer rid input
  | .attach owner rid kind key payload => attachLearningRecord owner rid kind key payload

/-! ## Locks -/

inductive Lock
  | advisory (hash : Int)
  | credential (token : Uuid)
  | revision (id : Uuid)
  | actor (token : Uuid)
  | grant (row : CuratorGrant)
  | evidence (key : EvidenceKey)
  | lesson (id : Uuid)
  | proposal (owner : Uuid) (idempotencyKey : String)
  | revisionNumber (lesson : Uuid) (revision : Nat)
  | record (id : Uuid)
  | recordKey (revision actor : Uuid) (idempotencyKey : String)
deriving DecidableEq

variable (hashtextextended : String → Int) (site : Deployment)

/-- What a statement that was answered holds to the end of its transaction. -/
def locksOf : Event → List Lock
  | ⟨.lock key, .ok ()⟩ => [.advisory (hashtextextended key.text)]
  | ⟨.credential token, .ok _⟩ => [.credential token]
  | ⟨.insertActor row, .ok true⟩ => [.actor row.tokenId]
  | ⟨.insertGrant row, .ok true⟩ => [.grant row]
  | ⟨.insertEvidence key _, .ok true⟩ => [.evidence key]
  | ⟨.insertLesson row, .ok ()⟩ => [.lesson row.id, .proposal row.ownerId row.idempotencyKey]
  | ⟨.insertRevision row, .ok ()⟩ =>
    [.revision row.id, .revisionNumber row.lessonId row.revision]
  | ⟨.revisionForUpdate id, .ok _⟩ => [.revision id]
  | ⟨.supersedeOthers _ _, .ok ids⟩ => ids.map .revision
  | ⟨.setStatus id _ _, .ok ()⟩ => [.revision id]
  | ⟨.insertRecord row, .ok ()⟩ =>
    [.record row.id, .recordKey row.revisionId row.actorId row.idempotencyKey]
  | _ => []

/-! ## Sessions -/

structure Session where
  job : Job
  /-- the start of the transaction, its `NOW()` -/
  began : Instant
  history : List Event
  rest : Prog Answer (Except String Json)
  /-- the transaction has neither ended nor been rolled back -/
  isOpen : Bool

def ended : Prog Answer (Except String Json) → Bool
  | .pure _ => true
  | .call _ _ => false

def Session.start (job : Job) (now : Instant) : Session :=
  ⟨job, now, [], job.program, !ended job.program⟩

def Session.locks (x : Session) : List Lock :=
  if x.isOpen then x.history.flatMap (locksOf hashtextextended) else []

/-- The rows the session's transaction sees. -/
def Session.view (x : Session) (S : Db) : Db := S.after x.began x.history

def Statement.isCommit : Statement → Bool
  | .commit => true
  | _ => false

/-- The session after an answer; its transaction ends with its commit, or with its program. -/
def Session.answered (x : Session) (c : Statement) (reply : Answer c)
    (rest : Prog Answer (Except String Json)) : Session :=
  { x with
    history := x.history ++ [⟨c, reply⟩]
    rest
    isOpen := !c.isCommit && !ended rest }

/-! ## The world -/

structure World where
  now : Instant
  db : Db
  sessions : List Session

/-- What the environment decides about a statement: what becomes of it, and the id and the time
its process draws. -/
structure Env where
  fate : StoreFate
  uuid : Uuid
  utcNow : Instant

/-- The commit took effect. -/
def Env.commits (env : Env) : Bool :=
  match env.fate with
  | .failed _ => false
  | .committed | .unacknowledged _ => true

def reply (w : World) (x : Session) (env : Env) (c : Statement) : Answer c :=
  match env.fate with
  | .committed => answer site (x.view w.db) w.now env.uuid env.utcNow c
  | .failed error | .unacknowledged error => .error error

/-- Another transaction holds what the statement needs. -/
def waits (w : World) (k : Nat) (e : Event) : Bool :=
  (w.sessions.eraseIdx k).any fun y =>
    (locksOf hashtextextended e).any fun l => (y.locks hashtextextended).contains l

inductive Label
  | tick (elapsed : Nat)
  /-- `create_agent_token` -/
  | issue (token : AgentToken)
  /-- an update of a credential's row: a revocation, other scopes, another expiry -/
  | change (token : AgentToken)
  | start (job : Job)
  | call (k : Nat) (env : Env)
  /-- the process ends, and its transaction is rolled back -/
  | crash (k : Nat)

def World.exec (w : World) : Label → Option World
  | .tick elapsed => some { w with now := w.now + elapsed }
  | .issue token =>
    if w.db.tokens.any (·.id = token.id) then none
    else some { w with db := { w.db with tokens := w.db.tokens ++ [token] } }
  | .change token =>
    if w.sessions.any fun y => (y.locks hashtextextended).contains (.credential token.id) then none
    else some { w with db := { w.db with
      tokens := w.db.tokens.map fun t => if t.id = token.id then token else t } }
  | .start job => some { w with sessions := w.sessions ++ [.start job w.now] }
  | .call k env =>
    match w.sessions[k]? with
    | none => none
    | some x =>
      if x.isOpen then
        match x.rest with
        | .pure _ => none
        | .call c rest =>
          let answer := reply site w x env c
          if waits hashtextextended w k ⟨c, answer⟩ then none
          else some { w with
            db := if c.isCommit && env.commits then x.view w.db else w.db
            sessions := w.sessions.set k (x.answered c answer (rest answer)) }
      else none
  | .crash k => (w.sessions[k]?).map fun x =>
    { w with sessions := w.sessions.set k { x with isOpen := false } }

/-- The rows the migration leaves: every credential is its own actor, and nothing is learned. -/
def Db.Fresh (S : Db) : Prop :=
  (S.tokens.map (·.id)).Nodup ∧ S.actors = S.tokens.map (fun t => ⟨t.id, t.id⟩) ∧
    S.grants = [] ∧ S.evidence = [] ∧ S.lessons = [] ∧ S.revisions = [] ∧ S.records = []

def World.Initial (w : World) : Prop := w.db.Fresh ∧ w.sessions = []

def system : TSys World Label :=
  .ofExec World.Initial (World.exec hashtextextended site)

end Clawforge.Learning

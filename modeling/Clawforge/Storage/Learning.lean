import Clawforge.Kit.Prog
import Clawforge.Storage.Publication

/-!
# Structured learning

The rows of migration 0058 beside `agent_tokens`, the validation of what the learning API
takes, and the statements of `learning.rs`: what each is answered over the rows its
transaction sees, and which rows it writes. The checks, unique indexes, foreign keys and the
trigger of the migration refuse a statement with an error.
-/

namespace Clawforge.Learning

open Clawforge.Text Kit
open EventDelivery (uuidText)

/-! ## Inputs -/

structure LearningEvidence where
  commit : String
  test : String
  artifactSha256 : String
  passed : Bool
deriving DecidableEq, Repr

/-- `LearningContext`; its confidence is a finite number, as JSON has no other. -/
structure LearningContext where
  generic : Bool
  project : Option String
  task : Option String
  agent : Option String
  model : Option String
  provider : Option String
  language : Option String
  framework : Option String
  platform : Option String
  errorClass : Option String
  origin : Option String
  pullRequest : Option String
  files : List String
  versions : List (String × String)
  confidence : Option Rat
deriving DecidableEq

structure LearningLessonInput where
  idempotencyKey : String
  repository : String
  component : String
  title : String
  symptoms : String
  cause : String
  fix : String
  rule : String
  validity : Json
  tags : List String
  evidence : LearningEvidence
  context : LearningContext
deriving DecidableEq

structure LearningReview where
  idempotencyKey : String
  status : String
  reason : String
  evidence : LearningEvidence
deriving DecidableEq

/-- `ensure!`. -/
def ensure (condition : Bool) (message : String) : Except String Unit :=
  if condition then .ok () else .error message

theorem ensure_ok {condition : Bool} {message : String}
    (h : ensure condition message = .ok ()) : condition = true := by
  unfold ensure at h
  split at h
  · assumption
  · cases h

theorem ensure_of {condition : Bool} (h : condition = true) (message : String) :
    ensure condition message = .ok () := if_pos h

def bounded (s : String) (max : Nat) : Bool :=
  trim s.toList ≠ [] && s.utf8ByteSize ≤ max

def hex (s : String) (min max : Nat) : Bool :=
  min ≤ s.utf8ByteSize && s.utf8ByteSize ≤ max && s.toList.all (isDigitOf 16)

def secretMarks : List String :=
  ["nvapi-", "ghp_", "sk-or-v1-", "bearer ", "-----begin private key"]

def secretKeys : List String :=
  ["password", "secret", "token", "authorization", "api_key", "apikey", "request_body"]

mutual

def safeJson : Json → Nat → Bool
  | .string s, depth =>
    depth ≤ 8 && s.utf8ByteSize ≤ 10000 &&
      !secretMarks.any fun mark => contains mark.toList (toAsciiLowercase s.toList)
  | .object fields, depth => depth ≤ 8 && fields.length ≤ 64 && safeFields fields (depth + 1)
  | .array xs, depth => depth ≤ 8 && xs.length ≤ 64 && safeItems xs (depth + 1)
  | _, depth => depth ≤ 8

def safeItems : List Json → Nat → Bool
  | [], _ => true
  | v :: rest, depth => safeJson v depth && safeItems rest depth

def safeFields : List (String × Json) → Nat → Bool
  | [], _ => true
  | (key, v) :: rest, depth =>
    !secretKeys.any (fun name => name.toList = toAsciiLowercase key.toList) &&
      safeJson v depth && safeFields rest depth

end

def optionJson : Option String → Json
  | none => .null
  | some s => .string s

def LearningEvidence.toJson (e : LearningEvidence) : Json :=
  .ofFields [("commit", .string e.commit), ("test", .string e.test),
    ("artifact_sha256", .string e.artifactSha256), ("passed", .bool e.passed)]

def LearningContext.toJson (c : LearningContext) : Json :=
  .ofFields [("generic", .bool c.generic), ("project", optionJson c.project),
    ("task", optionJson c.task), ("agent", optionJson c.agent), ("model", optionJson c.model),
    ("provider", optionJson c.provider), ("language", optionJson c.language),
    ("framework", optionJson c.framework), ("platform", optionJson c.platform),
    ("error_class", optionJson c.errorClass), ("origin", optionJson c.origin),
    ("pull_request", optionJson c.pullRequest), ("files", .array (c.files.map .string)),
    ("versions", .ofFields (c.versions.map fun (key, v) => (key, .string v))),
    -- `safeJson` reads no number, so its digits do not matter
    ("confidence", c.confidence.elim .null fun x => .number (.float (toString x)))]

def LearningLessonInput.toJson (i : LearningLessonInput) : Json :=
  .ofFields [("idempotency_key", .string i.idempotencyKey), ("repository", .string i.repository),
    ("component", .string i.component), ("title", .string i.title),
    ("symptoms", .string i.symptoms), ("cause", .string i.cause), ("fix", .string i.fix),
    ("rule", .string i.rule), ("validity", i.validity), ("tags", .array (i.tags.map .string)),
    ("evidence", i.evidence.toJson), ("context", i.context.toJson)]

def LearningEvidence.validate (e : LearningEvidence) : Except String Unit :=
  ensure ((hex e.commit 40 40 || hex e.commit 64 64) && hex e.artifactSha256 64 64 &&
    bounded e.test 512) "invalid objective evidence"

def LearningLessonInput.validate (i : LearningLessonInput) : Except String Unit := do
  ensure (bounded i.idempotencyKey 128 && bounded i.repository 512 && bounded i.component 240 &&
    bounded i.title 240) "invalid learning identity"
  ensure ([i.symptoms, i.cause, i.fix, i.rule].all fun v => bounded v 10000) "invalid lesson text"
  i.evidence.validate
  ensure ((i.repository ≠ "*" && i.component ≠ "*") || i.context.generic)
    "wildcard scope requires explicit generic applicability"
  ensure ([i.context.project, i.context.task, i.context.agent, i.context.model,
      i.context.provider, i.context.language, i.context.framework, i.context.platform,
      i.context.errorClass, i.context.origin, i.context.pullRequest].all fun v =>
    v.all fun s => bounded s 512) "invalid learning context"
  ensure (i.context.files.length ≤ 64 && i.context.files.all (fun s => bounded s 1024) &&
    i.context.versions.length ≤ 32 &&
    i.context.versions.all (fun (key, v) => bounded key 80 && bounded v 128) &&
    i.context.confidence.all fun x => 0 ≤ x && x ≤ 1) "invalid learning applicability"
  ensure (i.tags.length ≤ 32 && i.tags.all fun v => bounded v 80) "invalid lesson tags"
  ensure (i.validity.isObject && safeJson i.toJson 0) "unsafe learning payload"

/-! ## Rows -/

/-- `agent_tokens`. -/
structure AgentToken where
  id : Uuid
  scopes : Json
  expiresAt : Instant
  revokedAt : Option Instant
deriving DecidableEq

/-- `learning_actor_tokens`. -/
structure ActorToken where
  tokenId : Uuid
  actorId : Uuid
deriving DecidableEq

/-- `learning_curator_grants`. -/
structure CuratorGrant where
  ownerId : Uuid
  reviewerId : Uuid
deriving DecidableEq

/-- `learning_verified_evidence`. -/
structure VerifiedEvidence where
  ownerId : Uuid
  repository : String
  commit : String
  test : String
  artifactSha256 : String
  verifierId : Uuid
  verifiedAt : Instant
deriving DecidableEq

/-- The primary key of `learning_verified_evidence`. -/
structure EvidenceKey where
  ownerId : Uuid
  repository : String
  commit : String
  test : String
  artifactSha256 : String
deriving DecidableEq

def VerifiedEvidence.key (v : VerifiedEvidence) : EvidenceKey :=
  ⟨v.ownerId, v.repository, v.commit, v.test, v.artifactSha256⟩

def LearningEvidence.key (e : LearningEvidence) (owner : Uuid) (repository : String) :
    EvidenceKey :=
  ⟨owner, repository, e.commit, e.test, e.artifactSha256⟩

/-- `learning_lessons`. -/
structure Lesson where
  id : Uuid
  ownerId : Uuid
  repository : String
  component : String
  idempotencyKey : String
deriving DecidableEq

inductive RevisionStatus
  | pending | active | superseded | deprecated
deriving DecidableEq, Repr

namespace RevisionStatus

def text : RevisionStatus → String
  | .pending => "pending"
  | .active => "active"
  | .superseded => "superseded"
  | .deprecated => "deprecated"

/-- `OLD.status IN ('superseded','deprecated')`. -/
def terminal : RevisionStatus → Bool
  | .superseded | .deprecated => true
  | .pending | .active => false

/-- The statuses a review may ask for. -/
def ofReview : String → Option RevisionStatus
  | "active" => some .active
  | "deprecated" => some .deprecated
  | _ => none

end RevisionStatus

/-- `learning_revisions`; the payload is the input it was serialized from. -/
structure Revision where
  id : Uuid
  lessonId : Uuid
  revision : Nat
  status : RevisionStatus
  payload : LearningLessonInput
  lastVerified : Option Instant
deriving DecidableEq

inductive RecordKind
  | review | decision | routing | escalation
deriving DecidableEq, Repr

namespace RecordKind

def text : RecordKind → String
  | .review => "review"
  | .decision => "decision"
  | .routing => "routing"
  | .escalation => "escalation"

/-- The kinds `attach_learning_record` takes. -/
def ofAttached : String → Option RecordKind
  | "decision" => some .decision
  | "routing" => some .routing
  | "escalation" => some .escalation
  | _ => none

end RecordKind

/-- `learning_records`. -/
structure LearningRecord where
  id : Uuid
  revisionId : Uuid
  actorId : Uuid
  kind : RecordKind
  payload : Json
  idempotencyKey : String
deriving DecidableEq

/-- What `insert_audit_outbox` writes to `audit_events` and to the outbox. -/
structure AuditRow where
  actor : String
  action : String
  resource : String
  details : Json
deriving DecidableEq

structure Db where
  tokens : List AgentToken
  actors : List ActorToken
  grants : List CuratorGrant
  evidence : List VerifiedEvidence
  lessons : List Lesson
  revisions : List Revision
  records : List LearningRecord
  audit : List AuditRow

/-- `SELECT actor_id FROM learning_actor_tokens WHERE token_id=$1`. -/
def Db.learningActor (S : Db) (token : Uuid) : Option Uuid :=
  (S.actors.find? (·.tokenId = token)).map (·.actorId)

/-! ## Statements -/

/-- What the advisory locks of `learning.rs` are named after. -/
inductive LockKey
  | rotation (token : Uuid)
  | proposal (owner : Uuid) (idempotencyKey : String)
  | lesson (id : Uuid)
deriving DecidableEq, Repr

def LockKey.text : LockKey → String
  | .rotation token => "learning-rotation:" ++ uuidText token
  | .proposal owner key => "learning:" ++ uuidText owner ++ ":" ++ key
  | .lesson id => "learning-lesson:" ++ uuidText id

/-- The database a connection writes to: `pg_control_system` and `pg_database`. -/
structure Deployment where
  clusterSystemIdentifier : String
  databaseOid : Int
deriving DecidableEq

/-- What a store function asks for: a statement of its transaction, a fresh id or the time. -/
inductive Statement
  | lock (key : LockKey)
  | deployment (expiresAt : Int)
  | authorizationValid (expiresAt : Int)
  | utcNow
  | newUuid
  /-- `SELECT scopes,revoked_at,expires_at … FOR UPDATE` -/
  | credential (token : Uuid)
  | credentialExists (token : Uuid)
  | credentialActive (token : Uuid)
  | actorOf (token : Uuid)
  | ownsLessons (owner : Uuid)
  | insertActor (row : ActorToken)
  | insertGrant (row : CuratorGrant)
  | insertEvidence (key : EvidenceKey) (verifier : Uuid)
  | findProposal (owner : Uuid) (idempotencyKey : String)
  | lesson (id : Uuid)
  | findRevision (lesson : Uuid) (idempotencyKey : String)
  | nextRevision (lesson : Uuid)
  | lessonOf (revision : Uuid)
  | granted (owner reviewer : Uuid)
  | findRecord (revision actor : Uuid) (idempotencyKey : String)
  /-- `SELECT status,payload,revision … FOR UPDATE` -/
  | revisionForUpdate (id : Uuid)
  | attestation (key : EvidenceKey)
  | newerActive (lesson : Uuid) (revision : Nat)
  | insertLesson (row : Lesson)
  | insertRevision (row : Revision)
  | supersedeOthers (lesson revision : Uuid)
  | setStatus (revision : Uuid) (status : RevisionStatus) (verifiedAt : Instant)
  | insertRecord (row : LearningRecord)
  | audit (row : AuditRow)
  | commit

/-- What a statement returns: of a row, all its columns, and of `ON CONFLICT DO NOTHING`,
whether a row was inserted. -/
abbrev Statement.Result : Statement → Type
  | .lock _ | .insertLesson _ | .insertRevision _ | .setStatus _ _ _ | .insertRecord _
  | .audit _ | .commit => Unit
  | .deployment _ => Deployment × Bool
  | .utcNow => Instant
  | .newUuid | .lessonOf _ => Uuid
  | .credential _ => AgentToken
  | .credentialExists _ | .credentialActive _ | .authorizationValid _ | .ownsLessons _
  | .granted _ _ | .newerActive _ _ | .insertActor _ | .insertGrant _
  | .insertEvidence _ _ => Bool
  | .actorOf _ => Option Uuid
  | .findProposal _ _ => Option (Lesson × Revision)
  | .lesson _ => Lesson
  | .findRevision _ _ => Option Revision
  | .nextRevision _ => Nat
  | .findRecord _ _ _ => Option LearningRecord
  | .revisionForUpdate _ => Revision
  | .attestation _ => Option VerifiedEvidence
  -- the rows the update matches, of which `learning.rs` reads nothing
  | .supersedeOthers _ _ => List Uuid

abbrev Answer (c : Statement) : Type := Except String c.Result

abbrev Event : Type := Prog.Event Answer

/-- `fetch_one`. -/
def fetchOne {α : Type} (row : Option α) : Except String α :=
  row.elim (.error "no rows returned by a query that expected to return at least one row") .ok

/-- `EXTRACT(EPOCH FROM clock_timestamp()) < expires_at`. -/
def beforeEpoch (now : Instant) (expiresAt : Int) : Bool := (now : Int) < expiresAt * 1000000

/-- `revoked_at IS NULL AND expires_at > clock_timestamp()`. -/
def AgentToken.activeAt (t : AgentToken) (now : Instant) : Bool :=
  t.revokedAt = none && now < t.expiresAt

def duplicateKey : Except String Unit :=
  .error "duplicate key value violates unique constraint"

def checkViolated : String := "new row violates check constraint"

def foreignKeyViolated : String := "insert or update violates foreign key constraint"

/-- `COALESCE(MAX(revision),0)+1` in 32 bits. -/
def nextRevisionOf (rows : List Revision) (lesson : Uuid) : Except String Nat :=
  let next := ((rows.filter (·.lessonId = lesson)).map (·.revision)).foldl max 0 + 1
  if next < 2 ^ 31 then .ok next else .error "integer out of range"

/-- The rows `UPDATE … SET status='superseded'` matches. -/
def supersedes (lesson revision : Uuid) (r : Revision) : Bool :=
  r.lessonId = lesson && r.id ≠ revision && r.status = .active

/-- An update of a status against the trigger and the index of the active revisions. -/
def setStatusOf (rows : List Revision) (id : Uuid) (status : RevisionStatus) :
    Except String Unit :=
  match rows.find? (·.id = id) with
  | none => .ok ()
  | some r =>
    if r.status.terminal && r.status ≠ status then
      .error "terminal learning revision is immutable"
    else if status = .active &&
        rows.any (fun other => other.lessonId = r.lessonId && other.id ≠ id &&
          other.status = .active) then duplicateKey
    else .ok ()

/-- What a statement is answered over the rows `V` its transaction sees; `uuid` and `utcNow`
come from the process that asks. -/
def answer (site : Deployment) (V : Db) (now : Instant) (uuid : Uuid) (utcNow : Instant) :
    (c : Statement) → Answer c
  | .lock _ | .audit _ | .commit => .ok ()
  | .deployment expiresAt => .ok (site, beforeEpoch now expiresAt)
  | .authorizationValid expiresAt => .ok (beforeEpoch now expiresAt)
  | .utcNow => .ok utcNow
  | .newUuid => .ok uuid
  | .credential token => fetchOne (V.tokens.find? (·.id = token))
  | .credentialExists token => .ok (V.tokens.any (·.id = token))
  | .credentialActive token =>
    (fetchOne (V.tokens.find? (·.id = token))).map (·.activeAt now)
  | .actorOf token => .ok (V.learningActor token)
  | .ownsLessons owner => .ok (V.lessons.any (·.ownerId = owner))
  | .insertActor row =>
    if V.actors.any (·.tokenId = row.tokenId) then .ok false
    else if V.tokens.any (·.id = row.tokenId) then .ok true
    else .error foreignKeyViolated
  | .insertGrant row =>
    if row.ownerId = row.reviewerId then .error checkViolated
    else .ok (!V.grants.contains row)
  | .insertEvidence key verifier =>
    if key.ownerId = verifier then .error checkViolated
    else .ok (!V.evidence.any (·.key = key))
  | .findProposal owner key =>
    .ok ((V.lessons.find? (fun l => l.ownerId = owner && l.idempotencyKey = key)).bind fun l =>
      (V.revisions.find? (fun r => r.lessonId = l.id && r.revision = 1)).map fun r => (l, r))
  | .lesson id => fetchOne (V.lessons.find? (·.id = id))
  | .findRevision lesson key =>
    .ok (V.revisions.find? (fun r => r.lessonId = lesson && r.payload.idempotencyKey = key))
  | .nextRevision lesson => nextRevisionOf V.revisions lesson
  | .lessonOf revision => (fetchOne (V.revisions.find? (·.id = revision))).map (·.lessonId)
  | .granted owner reviewer => .ok (V.grants.contains ⟨owner, reviewer⟩)
  | .findRecord revision actor key =>
    .ok (V.records.find? (fun c => c.revisionId = revision && c.actorId = actor &&
      c.idempotencyKey = key))
  | .revisionForUpdate id => fetchOne (V.revisions.find? (·.id = id))
  | .attestation key =>
    .ok (V.evidence.find? (fun v => v.key = key && v.verifierId ≠ key.ownerId))
  | .newerActive lesson revision =>
    .ok (V.revisions.any (fun r => r.lessonId = lesson && revision < r.revision &&
      r.status = .active))
  | .insertLesson row =>
    if V.lessons.any (fun l => l.id = row.id ||
        (l.ownerId = row.ownerId && l.idempotencyKey = row.idempotencyKey)) then duplicateKey
    else .ok ()
  | .insertRevision row =>
    if row.revision = 0 then .error checkViolated
    else if V.revisions.any (fun r => r.id = row.id ||
        (r.lessonId = row.lessonId && r.revision = row.revision)) then duplicateKey
    else if V.lessons.any (·.id = row.lessonId) then .ok ()
    else .error foreignKeyViolated
  | .supersedeOthers lesson revision =>
    .ok ((V.revisions.filter (supersedes lesson revision)).map (·.id))
  | .setStatus revision status _ => setStatusOf V.revisions revision status
  | .insertRecord row =>
    if V.records.any (fun c => c.id = row.id ||
        (c.revisionId = row.revisionId && c.actorId = row.actorId &&
          c.idempotencyKey = row.idempotencyKey)) then duplicateKey
    else if V.revisions.any (·.id = row.revisionId) then .ok ()
    else .error foreignKeyViolated

/-! ## What the statements of a transaction write -/

namespace Event

def newActors : Event → List ActorToken
  | ⟨.insertActor row, .ok true⟩ => [row]
  | _ => []

def newGrants : Event → List CuratorGrant
  | ⟨.insertGrant row, .ok true⟩ => [row]
  | _ => []

/-- `verified_at` is the start of the transaction. -/
def newEvidence (began : Instant) : Event → List VerifiedEvidence
  | ⟨.insertEvidence key verifier, .ok true⟩ =>
    [⟨key.ownerId, key.repository, key.commit, key.test, key.artifactSha256, verifier, began⟩]
  | _ => []

def newLessons : Event → List Lesson
  | ⟨.insertLesson row, .ok ()⟩ => [row]
  | _ => []

def newRecords : Event → List LearningRecord
  | ⟨.insertRecord row, .ok ()⟩ => [row]
  | _ => []

def newAudit : Event → List AuditRow
  | ⟨.audit row, .ok ()⟩ => [row]
  | _ => []

def revisions (rows : List Revision) : Event → List Revision
  | ⟨.insertRevision row, .ok ()⟩ => rows ++ [row]
  | ⟨.supersedeOthers _ _, .ok ids⟩ =>
    rows.map fun r => if r.id ∈ ids then { r with status := .superseded } else r
  | ⟨.setStatus id status verifiedAt, .ok ()⟩ =>
    rows.map fun r => if r.id = id then { r with status, lastVerified := some verifiedAt } else r
  | _ => rows

end Event

/-- The rows after the statements `h`, over the committed rows `S`: what a transaction that has
made them sees, and what its commit leaves. -/
def Db.after (S : Db) (began : Instant) (h : List Event) : Db where
  tokens := S.tokens
  actors := S.actors ++ h.flatMap Event.newActors
  grants := S.grants ++ h.flatMap Event.newGrants
  evidence := S.evidence ++ h.flatMap (Event.newEvidence began)
  lessons := S.lessons ++ h.flatMap Event.newLessons
  revisions := h.foldl Event.revisions S.revisions
  records := S.records ++ h.flatMap Event.newRecords
  audit := S.audit ++ h.flatMap Event.newAudit

end Clawforge.Learning

import Clawforge.Kit.Page
import Clawforge.Storage.Learning
import Clawforge.Storage.Retention
import Mathlib.Data.Prod.Lex

/-!
# Reading the learning store

`query_learning` with the function of migration 0058 that matches contexts, and
`learning_records` with its cursor, over the stored rows. A context is matched
as the `jsonb` it is stored as.
-/

namespace Clawforge.Learning

open Assessments (fieldText)
open Retention (castBoolean)
open Kit

/-! ## Stored rows -/

structure StoredLesson extends Lesson where
  createdAt : Instant

/-- A row of `learning_revisions`: a validated payload, whose versions are a map. -/
structure StoredRevision extends Revision where
  createdAt : Instant
  updatedAt : Instant
  valid : payload.validate = .ok ()
  keys : (payload.context.versions.map Prod.fst).Nodup

structure StoredRecord extends LearningRecord where
  createdAt : Instant
deriving DecidableEq

structure LearningStore where
  lessons : Table fun l : StoredLesson => l.id
  revisions : Table fun r : StoredRevision => r.id
  records : Table fun r : StoredRecord => r.id

/-! ## `jsonb` -/

mutual

/-- `@>` below the top level. -/
def jsonbHolds : Json → Json → Bool
  | .object own, .object fields => jsonbHoldsFields own fields
  | .array own, .array xs => jsonbHoldsItems own xs
  | .null, .null => true
  | .bool a, .bool b => a = b
  | .number a, .number b => a = b
  | .string a, .string b => a = b
  | _, _ => false

def jsonbHoldsFields (own : List (String × Json)) : List (String × Json) → Bool
  | [] => true
  | (key, v) :: rest =>
    (own.lookup key).any (fun x => jsonbHolds x v) && jsonbHoldsFields own rest

def jsonbHoldsItems (own : List Json) : List Json → Bool
  | [] => true
  | v :: rest => own.any (fun x => jsonbHolds x v) && jsonbHoldsItems own rest

end

/-- `@>`. An array also contains a scalar that is one of its elements. -/
def jsonbContains : Json → Json → Bool
  | .array own, .object fields => jsonbHolds (.array own) (.object fields)
  | .array own, .array xs => jsonbHolds (.array own) (.array xs)
  | .array own, scalar => own.any fun x => jsonbHolds x scalar
  | a, b => jsonbHolds a b

/-- `COALESCE(jsonb_array_length(v),0)`. -/
def arrayLength : Option Json → Except String Nat
  | none => .ok 0
  | some (.array xs) => .ok xs.length
  | some _ => .error "cannot get array length of a scalar"

/-- `jsonb_each`. -/
def jsonbEach : Json → Except String (List (String × Json))
  | .object fields => .ok fields
  | _ => .error "cannot call jsonb_each on a non-object"

/-! ## `clawforge_learning_context_matches` -/

/-- An iteration of the loop over the requested versions. -/
def versionMatches (generic : Bool) (versions : Option Json) (vk : String) (vv : Json) : Bool :=
  versions.bind (·.get vk) = some vv ||
    (generic && versions.bind (fieldText · "*") = some "*" && versions.bind (·.get vk) = none)

/-- An iteration of the loop over the requested fields. -/
def fieldMatches (generic : Bool) (context : Json) (k : String) (v : Json) :
    Except String Bool :=
  if k = "versions" then
    (jsonbEach v).map fun each =>
      each.all fun f => versionMatches generic (context.get "versions") f.1 f.2
  else if k = "files" then
    if (context.get "files").any (jsonbContains · v) then .ok true
    else if generic then (arrayLength (context.get "files")).map fun n => n = 0
    else .ok false
  else
    .ok (context.get k = some v ||
      (generic && (context.get k = none || context.get k = some .null)))

/-- The loop, which returns at the first field that does not match. -/
def fieldsMatch (generic : Bool) (context : Json) : List (String × Json) → Except String Bool
  | [] => .ok true
  | (k, v) :: rest =>
    match fieldMatches generic context k v with
    | .ok true => fieldsMatch generic context rest
    | .ok false => .ok false
    | .error e => .error e

/-- `clawforge_learning_context_matches`. -/
def contextMatches (context requested : Json) : Except String Bool := do
  let generic ← match fieldText context "generic" with
    | none => .ok false
    | some text => (castBoolean text).mapError fun _ => "invalid input syntax for type boolean"
  let fields ← jsonbEach requested
  fieldsMatch generic context fields

/-! ## The query -/

structure LearningQuery where
  repository : Option String
  component : Option String
  status : Option String
  limit : Option Int
  project : Option String
  agent : Option String
  model : Option String
  provider : Option String
  language : Option String
  framework : Option String
  platform : Option String
  errorClass : Option String
  filePath : Option String
  tag : Option String
  versionKey : Option String
  version : Option String
deriving DecidableEq

namespace LearningQuery

/-- The filters on a field of the context of the same name. -/
def contextFilters (q : LearningQuery) : List (String × Option String) :=
  [("project", q.project), ("agent", q.agent), ("model", q.model), ("provider", q.provider),
    ("language", q.language), ("framework", q.framework), ("platform", q.platform),
    ("error_class", q.errorClass)]

/-- The loop over these filters. -/
def insertFilters : List (String × Option String) → List (String × Json) →
    Except String (List (String × Json))
  | [], context => .ok context
  | (_, none) :: rest, context => insertFilters rest context
  | (key, some value) :: rest, context => do
      ensure (bounded value 512) "invalid context filter"
      insertFilters rest (Json.insertField key (.string value) context)

def insertFile : Option String → List (String × Json) → Except String (List (String × Json))
  | none, context => .ok context
  | some path, context => do
      ensure (bounded path 1024) "invalid file filter"
      return Json.insertField "files" (.array [.string path]) context

def insertVersion : Option String → Option String → List (String × Json) →
    Except String (List (String × Json))
  | some key, some version, context => do
      ensure (bounded key 80 && bounded version 128) "invalid version filter"
      return Json.insertField "versions" (.ofFields [(key, .string version)]) context
  | none, none, context => .ok context
  | _, _, _ => .error "version key and value must be paired"

/-- The requested context. -/
def context (q : LearningQuery) : Except String Json := do
  let fields ← insertFilters q.contextFilters []
  let fields ← insertFile q.filePath fields
  let fields ← insertVersion q.versionKey q.version fields
  return .object fields

def tags (q : LearningQuery) : Except String Json :=
  match q.tag with
  | some tag => do
      ensure (bounded tag 80) "invalid tag filter"
      return .array [.string tag]
  | none => .ok (.array [])

/-- The texts that are bound to the statement. -/
def texts (q : LearningQuery) : List String :=
  q.repository.toList ++ q.component.toList ++ q.contextFilters.flatMap (·.2.toList) ++
    q.filePath.toList ++ q.tag.toList ++ q.versionKey.toList ++ q.version.toList

end LearningQuery

/-- The database takes no text with a NUL character. -/
def bindable (s : String) : Bool := !s.toList.any fun c => c.toNat = 0

/-- A row of the join. -/
structure LearningRow where
  lesson : StoredLesson
  revision : StoredRevision

/-- `learning_lessons l JOIN learning_revisions r ON r.lesson_id=l.id`. -/
def LearningStore.joined (S : LearningStore) : List LearningRow :=
  S.lessons.rows.flatMap fun l =>
    (S.revisions.rows.filter fun r => r.lessonId = l.id).map fun r => ⟨l, r⟩

namespace LearningRow

def payload (row : LearningRow) : Json := row.revision.payload.toJson

/-- `$2 IS NULL OR own=$2 OR own='*'`. -/
def scopeMatches (filter : Option String) (own : String) : Bool :=
  filter.all fun f => own = f || own = "*"

/-- The disjunction over the tags. -/
def tagsMatch (payload tags : Json) : Bool :=
  jsonbContains ((payload.get "tags").getD (.array [])) tags ||
    ((payload.get "context").bind (fieldText · "generic") = some "true" &&
      (payload.get "tags").any (jsonbContains · (.array [.string "*"])))

/-- The `WHERE` clause. -/
def selected (owner : Uuid) (q : LearningQuery) (status : String) (context tags : Json)
    (row : LearningRow) : Except String Bool :=
  if row.lesson.ownerId = owner && scopeMatches q.repository row.lesson.repository &&
      scopeMatches q.component row.lesson.component && row.revision.status.text = status then
    (contextMatches ((row.payload.get "context").getD (.object [])) context).map fun applies =>
      applies && tagsMatch row.payload tags
  else .ok false

/-- `SELECT COUNT(*) … WHERE (r.payload->'context'->q.key) @> q.value`. -/
def stated (context : Json) (row : LearningRow) : Nat :=
  ((jsonbEach context).toOption.getD []).countP fun f =>
    ((row.payload.get "context").bind (·.get f.1)).any (jsonbContains · f.2)

/-- `CASE WHEN $2 IS NOT NULL AND own=$2 THEN 1 ELSE 0 END`. -/
def named (filter : Option String) (own : String) : Nat := if filter = some own then 1 else 0

/-- The sort key: repository, component, fields stated, confidence, last verification (none is
last) and update. -/
def rank (q : LearningQuery) (context : Json) (row : LearningRow) :
    Nat ×ₗ Nat ×ₗ Nat ×ₗ Rat ×ₗ WithBot Nat ×ₗ Nat :=
  toLex (named q.repository row.lesson.repository,
    toLex (named q.component row.lesson.component,
      toLex (row.stated context,
        toLex (row.revision.payload.context.confidence.getD 0,
          toLex ((row.revision.lastVerified : WithBot Nat), row.revision.updatedAt)))))

/-- The `ORDER BY` clause. -/
def before (q : LearningQuery) (context : Json) (a b : LearningRow) : Prop :=
  b.rank q context ≤ a.rank q context

instance (q : LearningQuery) (context : Json) : DecidableRel (before q context) :=
  fun a b => inferInstanceAs (Decidable (b.rank q context ≤ a.rank q context))

end LearningRow

/-- An element of the answer. -/
structure LearningItem where
  id : Uuid
  revisionId : Uuid
  revision : Nat
  status : String
  payload : Json
  createdAt : Instant
  revisionCreatedAt : Instant
  updatedAt : Instant
  lastVerified : Option Instant
deriving DecidableEq

def LearningRow.item (row : LearningRow) : LearningItem where
  id := row.lesson.id
  revisionId := row.revision.id
  revision := row.revision.revision
  status := row.revision.status.text
  payload := row.payload
  createdAt := row.lesson.createdAt
  revisionCreatedAt := row.revision.createdAt
  updatedAt := row.revision.updatedAt
  lastVerified := row.revision.lastVerified

/-- `limit.unwrap_or(20).clamp(1,100)`. -/
def clampedLimit (limit : Option Int) : Nat := (min (max (limit.getD 20) 1) 100).toNat

/-- The rows of the answer. -/
def learningRows (S : LearningStore) (owner : Uuid) (q : LearningQuery) :
    Except String (List LearningRow) := do
  let status := q.status.getD "active"
  ensure (["pending", "active", "superseded", "deprecated"].contains status)
    "invalid learning status"
  let context ← q.context
  let tags ← q.tags
  ensure (q.texts.all bindable) "error returned from database"
  let rows ← filterE (LearningRow.selected owner q status context tags) S.joined
  return page (LearningRow.before q context) (clampedLimit q.limit) rows

/-- `query_learning`. -/
def queryLearning (S : LearningStore) (owner : Uuid) (q : LearningQuery) :
    Except String (List LearningItem) :=
  (learningRows S owner q).map fun rows => rows.map LearningRow.item

/-! ## Records -/

/-- The revision is one of the owner's. -/
def LearningStore.owns (S : LearningStore) (owner rid : Uuid) : Prop :=
  ∃ l ∈ S.lessons.rows, l.ownerId = owner ∧
    ∃ r ∈ S.revisions.rows, r.lessonId = l.id ∧ r.id = rid

instance (S : LearningStore) (owner rid : Uuid) : Decidable (S.owns owner rid) :=
  inferInstanceAs (Decidable (∃ l ∈ S.lessons.rows, _ ∧ _))

/-- `(created_at,id)`, in its order. -/
def StoredRecord.place (r : StoredRecord) : Nat ×ₗ Nat := toLex (r.createdAt, r.id)

/-- `ORDER BY created_at DESC,id DESC`. -/
def StoredRecord.listedBefore (a b : StoredRecord) : Prop := b.place ≤ a.place

instance : DecidableRel StoredRecord.listedBefore :=
  fun a b => inferInstanceAs (Decidable (b.place ≤ a.place))

/-- The records of a revision. -/
def LearningStore.recordsOf (S : LearningStore) (rid : Uuid) : List StoredRecord :=
  S.records.rows.filter fun r => r.revisionId = rid

/-- The records of a revision below its record with this id, and all of them without one. -/
def LearningStore.recordsBelow (S : LearningStore) (rid : Uuid) : Option Uuid → List StoredRecord
  | none => S.recordsOf rid
  | some cursor =>
    match (S.recordsOf rid).find? (fun c => c.id = cursor) with
    | some c => (S.recordsOf rid).filter fun r => r.place < c.place
    | none => []

structure RecordPage where
  data : List StoredRecord
  nextCursor : Option Uuid
deriving DecidableEq

/-- `learning_records`. -/
def learningRecords (S : LearningStore) (owner rid : Uuid) (limit : Option Int)
    (before : Option Uuid) : Except String RecordPage := do
  ensure (S.owns owner rid) "learning owner mismatch"
  ensure (before.all fun cursor => (S.recordsOf rid).any fun r => r.id = cursor)
    "invalid records cursor"
  let rows := page StoredRecord.listedBefore (clampedLimit limit + 1) (S.recordsBelow rid before)
  let data := rows.take (clampedLimit limit)
  let nextCursor :=
    if rows.length > clampedLimit limit then data.getLast?.map fun r => r.id else none
  return { data, nextCursor }

end Clawforge.Learning

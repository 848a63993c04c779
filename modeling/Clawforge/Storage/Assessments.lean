import Clawforge.Storage.Publication
import Clawforge.Storage.Reputation

/-!
# Security assessments

The table `security_assessments` with its evidence references, and the queries the
security engine decides on: the stored events of a window, whether another rule's
assessment overlaps it, and the upsert of one assessment by its dedupe key.
-/

namespace Clawforge.Assessments

open EventDelivery Reputation Kit List

/-! ## Events of a window -/

/-- `jsonb ->> key`. -/
def fieldText (payload : Json) (key : String) : Option String :=
  match payload.get key with
  | none | some .null => none
  | some (.string s) => some s
  | some v => some v.render

/-- Which events of a type count, by the status class in the payload. -/
inductive EventStatusFilter
  | any
  | clientAttributable
  | serverError
deriving DecidableEq, Repr

/-- The status code of the payload, where it is three digits. -/
def statusCode (payload : Json) : Option Nat :=
  (fieldText payload "status_code").bind (fun text =>
    if text.toList.length = 3 ∧ text.toList.all (isDigitOf 10) = true then
      some (numeralValue 10 text.toList)
    else none)

def EventStatusFilter.predicate : EventStatusFilter → Json → Bool
  | .any, _ => true
  | .clientAttributable, payload =>
    ((statusCode payload).map (fun code => decide (code < 500))).getD true
  | .serverError, payload =>
    ((statusCode payload).map (fun code => decide (500 ≤ code))).getD false

/-- One window of one resource: the events `[start, stop)` of a type and a status class. -/
structure Bucket where
  eventType : String
  correlationId : String
  status : EventStatusFilter
  start : Int
  stop : Int
deriving DecidableEq

/-- The condition of the bucket queries on one event. -/
def Bucket.holds (b : Bucket) (e : Event) : Bool :=
  e.eventType = b.eventType && e.correlationId = some b.correlationId &&
    b.start ≤ (e.occurredAt : Int) && (e.occurredAt : Int) < b.stop && b.status.predicate e.payload

/-- `ORDER BY occurred_at`. -/
def Earlier (a b : Event) : Prop := a.occurredAt ≤ b.occurredAt

instance : DecidableRel Earlier := fun a b => Nat.decLe a.occurredAt b.occurredAt

/-- `list_events_for_bucket_limited`. -/
def listEventsForBucketLimited (events : List Event) (b : Bucket) (limit : Nat) : List Event :=
  ((events.filter b.holds).insertionSort Earlier).take (min (max limit 1) 1000)

/-- `list_events_for_bucket_with_field_filtered`: the members with the text of a field. -/
def listEventsForBucketWithField (events : List Event) (b : Bucket) (field : String) :
    List (Event × Option String) :=
  (((events.filter b.holds).insertionSort Earlier).take 1000).map (fun e =>
    (e, fieldText e.payload field))

/-! ## The table -/

structure AssessmentRow where
  id : Uuid
  ruleId : String
  ruleVersion : String
  engineVersion : String
  dedupeKey : String
  resource : String
  severity : String
  confidence : Int
  summary : String
  eventCount : Nat
  windowSeconds : Nat
  bucketStart : Int
  firstSeen : Instant
  lastSeen : Instant
  incidentId : Option Uuid
  threatIntelCorroborated : Bool
  threatIntel : Option IpReputationHit
deriving DecidableEq

/-- The stored events, the assessments, and `security_assessment_events`. -/
structure AssessmentStore where
  events : List Event
  assessments : Table AssessmentRow.id
  evidence : List (Uuid × Uuid)

/-- `resource_has_assessment_overlapping`. -/
def resourceHasAssessmentOverlapping (s : AssessmentStore) (resource ruleId : String)
    (start stop : Int) : Bool :=
  s.assessments.rows.any (fun row =>
    row.resource = resource && row.ruleId = ruleId && row.bucketStart < stop &&
      start < row.bucketStart + seconds row.windowSeconds)

structure SecurityAssessmentUpsert where
  ruleId : String
  ruleVersion : String
  engineVersion : String
  dedupeKey : String
  resource : String
  severity : String
  confidence : Int
  summary : String
  eventCount : Nat
  windowSeconds : Nat
  bucketStart : Int
  firstSeen : Instant
  lastSeen : Instant
  eventIds : List Uuid
  threatIntel : Option IpReputationHit

def SecurityAssessmentUpsert.row (request : SecurityAssessmentUpsert) (id : Uuid) :
    AssessmentRow where
  id := id
  ruleId := request.ruleId
  ruleVersion := request.ruleVersion
  engineVersion := request.engineVersion
  dedupeKey := request.dedupeKey
  resource := request.resource
  severity := request.severity
  confidence := request.confidence
  summary := request.summary
  eventCount := request.eventCount
  windowSeconds := request.windowSeconds
  bucketStart := request.bucketStart
  firstSeen := request.firstSeen
  lastSeen := request.lastSeen
  incidentId := none
  threatIntelCorroborated := request.threatIntel.isSome
  threatIntel := request.threatIntel

/-- `ON CONFLICT (dedupe_key) DO UPDATE`. -/
def refreshed (request : SecurityAssessmentUpsert) (row : AssessmentRow) : AssessmentRow :=
  { row with
    severity := request.severity
    confidence := request.confidence
    summary := request.summary
    eventCount := request.eventCount
    lastSeen := request.lastSeen
    threatIntelCorroborated := request.threatIntel.isSome
    threatIntel := request.threatIntel }

theorem id_refreshed (request : SecurityAssessmentUpsert) (row : AssessmentRow) :
    (refreshed request row).id = row.id := rfl

/-- An id no row has, as `Uuid::new_v4` gives one. -/
def freshId (T : Table AssessmentRow.id) : Uuid :=
  T.rows.foldr (fun row n => max (row.id + 1) n) 0

theorem id_lt_freshId {T : Table AssessmentRow.id} {row : AssessmentRow} (h : row ∈ T) :
    row.id < freshId T := by
  obtain ⟨rows, hunique⟩ := T
  have hmem : row ∈ rows := h
  show row.id < rows.foldr (fun row n => max (row.id + 1) n) 0
  clear h hunique
  induction rows with
  | nil => cases hmem
  | cons x rest ih =>
    rw [foldr_cons]
    rcases mem_cons.1 hmem with rfl | hrest
    · exact Nat.lt_of_lt_of_le (Nat.lt_succ_self _) (Nat.le_max_left _ _)
    · exact Nat.lt_of_lt_of_le (ih hrest) (Nat.le_max_right _ _)

/-- The row with a dedupe key. -/
def byDedupeKey (T : Table AssessmentRow.id) (key : String) : Option AssessmentRow :=
  T.rows.find? (fun row => row.dedupeKey = key)

/-- The assessments after an upsert. -/
def upsertAssessment (T : Table AssessmentRow.id) (request : SecurityAssessmentUpsert) :
    Table AssessmentRow.id :=
  match byDedupeKey T request.dedupeKey with
  | some _ =>
    T.updateWhere (fun row => row.dedupeKey = request.dedupeKey) (refreshed request)
      (id_refreshed request)
  | none => T.insertOrIgnore (request.row (freshId T))

/-- `persist_security_assessment`: the upsert and the evidence references, and the row's
id. -/
def persistSecurityAssessment (s : AssessmentStore) (request : SecurityAssessmentUpsert) :
    AssessmentStore × Uuid :=
  let id := match byDedupeKey s.assessments request.dedupeKey with
    | some row => row.id
    | none => freshId s.assessments
  ({ s with
      assessments := upsertAssessment s.assessments request
      evidence := s.evidence ++
        ((request.eventIds.map (fun e => (id, e))).dedup.filter (· ∉ s.evidence)) }, id)

/-- `link_security_assessment_incident`, once. -/
def linked (incidentId : Uuid) (row : AssessmentRow) : AssessmentRow :=
  { row with incidentId := some incidentId }

theorem id_linked (incidentId : Uuid) (row : AssessmentRow) :
    (linked incidentId row).id = row.id := rfl

def linkSecurityAssessmentIncident (T : Table AssessmentRow.id)
    (assessmentId incidentId : Uuid) : Table AssessmentRow.id :=
  T.updateWhere (fun row => row.id = assessmentId ∧ row.incidentId = none) (linked incidentId)
    (id_linked incidentId)

/-! ## What an upsert leaves -/

theorem mem_upsertAssessment {T : Table AssessmentRow.id} {request : SecurityAssessmentUpsert}
    {row : AssessmentRow} :
    row ∈ upsertAssessment T request ↔
      (∃ old ∈ T, row = if old.dedupeKey = request.dedupeKey then refreshed request old else old) ∨
        ((∀ old ∈ T, old.dedupeKey ≠ request.dedupeKey) ∧ row = request.row (freshId T)) := by
  unfold upsertAssessment
  cases hfind : byDedupeKey T request.dedupeKey with
  | some found =>
    have hfound : found ∈ T := mem_of_find?_eq_some hfind
    have hkey : found.dedupeKey = request.dedupeKey := by simpa using find?_some hfind
    rw [Table.mem_updateWhere]
    constructor
    · exact .inl
    · rintro (h | ⟨hfree, -⟩)
      · exact h
      · exact absurd hkey (hfree found hfound)
  | none =>
    have hfree : ∀ old ∈ T, old.dedupeKey ≠ request.dedupeKey := by
      intro old hold
      simpa using find?_eq_none.1 hfind old hold
    have hid : ∀ old ∈ T, old.id ≠ (request.row (freshId T)).id := fun old hold =>
      Nat.ne_of_lt (id_lt_freshId hold)
    obtain ⟨T', hT'⟩ := Option.isSome_iff_exists.1 (Table.insert?_isSome.2 hid)
    show row ∈ (T.insert? (request.row (freshId T))).getD T ↔ _
    rw [hT', Option.getD_some, Table.mem_insert? hT']
    constructor
    · rintro (hrow | rfl)
      · exact .inl ⟨row, hrow, by rw [if_neg (hfree row hrow)]⟩
      · exact .inr ⟨hfree, rfl⟩
    · rintro (⟨old, hold, rfl⟩ | ⟨-, rfl⟩)
      · rw [if_neg (hfree old hold)]
        exact .inl hold
      · exact .inr rfl

end Clawforge.Assessments

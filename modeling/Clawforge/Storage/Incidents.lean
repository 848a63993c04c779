import Clawforge.Storage.Correlation
import Clawforge.Text

/-!
# Incidents

The tables `incidents`, `incident_status_history` and `incident_relations`, what one promotion
writes to them for its candidate, and the lifecycle of an incident's status.
-/

namespace Clawforge.Incidents

open Correlation Kit Table List Option

/-! ## The lifecycle -/

inductive IncidentStatus
  | detected
  | acknowledged
  | investigating
  | confirmed
  | mitigated
  | resolved
  | closed
deriving DecidableEq, Repr

/-- `canonical_incident_status`. -/
def canonicalIncidentStatus (value : String) : Option IncidentStatus :=
  match String.ofList (Text.toAsciiLowercase value.toList) with
  | "open" | "detected" => some .detected
  | "acknowledged" => some .acknowledged
  | "investigating" => some .investigating
  | "confirmed" => some .confirmed
  | "mitigated" => some .mitigated
  | "resolved" => some .resolved
  | "ignored" | "closed" => some .closed
  | _ => none

/-- `incident_status_transition_allowed`. -/
def incidentStatusTransitionAllowed : IncidentStatus → IncidentStatus → Bool
  | .detected, .acknowledged | .detected, .investigating | .detected, .confirmed
  | .detected, .closed => true
  | .acknowledged, .investigating | .acknowledged, .confirmed | .acknowledged, .resolved
  | .acknowledged, .closed => true
  | .investigating, .confirmed | .investigating, .mitigated | .investigating, .resolved
  | .investigating, .closed => true
  | .confirmed, .mitigated | .confirmed, .resolved | .confirmed, .closed => true
  | .mitigated, .resolved | .mitigated, .closed => true
  | .resolved, .closed => true
  | _, _ => false

/-! ## Tables -/

structure IncidentRow where
  id : Uuid
  status : IncidentStatus
  severity : IncidentSeverity
  confidence : Int
  summary : String
  correlationKey : String
  candidateId : Option Uuid
  detectedAt : Instant
  updatedAt : Instant
  confirmedAt : Option Instant
  mitigatedAt : Option Instant
  resolvedAt : Option Instant
  closedAt : Option Instant
deriving DecidableEq

structure StatusHistoryRow where
  incidentId : Uuid
  previousStatus : Option IncidentStatus
  newStatus : IncidentStatus
  changedBy : String
  reason : String
  changedAt : Instant
deriving DecidableEq

inductive RelationType
  | event
  | indicator
  | eventRelationship
deriving DecidableEq, Repr

structure RelationRow where
  incidentId : Uuid
  relationType : RelationType
  eventId : Option Uuid
  relatedEventId : Option Uuid
  indicatorId : Option Nat
  confidence : Int
  reason : String
deriving DecidableEq

/-- History and relations in the order of their insertion. -/
structure Db where
  correlation : Correlation.Db
  incidents : Table IncidentRow.id
  history : List StatusHistoryRow
  relations : List RelationRow
  /-- `incidents_candidate_unique_idx` -/
  onePerCandidate : ∀ i ∈ incidents, ∀ j ∈ incidents, i.candidateId ≠ none →
    i.candidateId = j.candidateId → i = j
  /-- `incident_id REFERENCES incidents(id)` -/
  relationsKnown : ∀ r ∈ relations, ∃ i ∈ incidents, i.id = r.incidentId

/-- `SELECT … FROM incidents WHERE candidate_id = candidate`. -/
def incidentOf (db : Db) (candidate : Uuid) : Option IncidentRow :=
  db.incidents.rows.find? (fun i => i.candidateId = some candidate)

theorem incidentOf_eq_some {db : Db} {candidate : Uuid} {i : IncidentRow} :
    incidentOf db candidate = some i ↔ i ∈ db.incidents ∧ i.candidateId = some candidate := by
  have found : ∀ x, incidentOf db candidate = some x →
      x ∈ db.incidents ∧ x.candidateId = some candidate := by
    intro x hx
    exact ⟨mem_of_find?_eq_some hx, by simpa using find?_some hx⟩
  refine ⟨found i, fun ⟨hi, hcandidate⟩ => ?_⟩
  cases hfind : incidentOf db candidate with
  | none => exact absurd hcandidate (by simpa using find?_eq_none.1 hfind i hi)
  | some x =>
    obtain ⟨hx, hxc⟩ := found x hfind
    congr 1
    exact db.onePerCandidate x hx i hi (by simp [hxc]) (hxc.trans hcandidate.symm)

theorem incidentOf_eq_none {db : Db} {candidate : Uuid} :
    incidentOf db candidate = none ↔ ∀ i ∈ db.incidents, i.candidateId ≠ some candidate := by
  unfold incidentOf
  rw [find?_eq_none]
  simp [Table.mem_def]

/-! ## Writes -/

/-- `INSERT INTO incidents`, refused where the id or the candidate is taken. -/
def insertIncident (db : Db) (row : IncidentRow) : Option Db :=
  if hfree : row.candidateId ≠ none → ∀ i ∈ db.incidents.rows, i.candidateId ≠ row.candidateId then
    match h : db.incidents.insert? row with
    | none => none
    | some incidents => some
        { db with
          incidents := incidents
          onePerCandidate := fun i hi j hj hsome hsame => by
            rcases (mem_insert? h).1 hi with hi | rfl <;>
              rcases (mem_insert? h).1 hj with hj | rfl
            · exact db.onePerCandidate i hi j hj hsome hsame
            · exact absurd hsame (hfree (hsame ▸ hsome) i hi)
            · exact absurd hsame.symm (hfree hsome j hj)
            · rfl
          relationsKnown := fun r hr => by
            obtain ⟨i, hi, hid⟩ := db.relationsKnown r hr
            exact ⟨i, (mem_insert? h).2 (Or.inl hi), hid⟩ }
  else none

/-- `UPDATE incidents SET … WHERE id = incident`, which changes neither ids nor candidates. -/
def updateIncident (db : Db) (incident : Uuid) (f : IncidentRow → IncidentRow)
    (hid : ∀ i, (f i).id = i.id) (hcandidate : ∀ i, (f i).candidateId = i.candidateId) : Db :=
  { db with
    incidents := db.incidents.updateWhere (fun i => i.id = incident) f hid
    onePerCandidate := fun i hi j hj hsome hsame => by
      obtain ⟨x, hx, rfl⟩ := mem_updateWhere.1 hi
      obtain ⟨y, hy, rfl⟩ := mem_updateWhere.1 hj
      have hkeep : ∀ z : IncidentRow, (if z.id = incident then f z else z).candidateId =
          z.candidateId := by
        intro z
        split
        · exact hcandidate z
        · rfl
      rw [hkeep, hkeep] at hsame
      rw [hkeep] at hsome
      rw [db.onePerCandidate x hx y hy hsome hsame]
    relationsKnown := fun r hr => by
      obtain ⟨i, hi, hir⟩ := db.relationsKnown r hr
      refine ⟨_, mem_updateWhere.2 ⟨i, hi, rfl⟩, ?_⟩
      split
      · exact (hid i).trans hir
      · exact hir }

/-- `INSERT INTO incident_relations`, refused where the incident is not stored. -/
def addRelations (db : Db) (rows : List RelationRow) : Option Db :=
  if h : ∀ r ∈ rows, ∃ i ∈ db.incidents.rows, i.id = r.incidentId then some
    { db with
      relations := db.relations ++ rows
      relationsKnown := fun r hr => by
        rcases mem_append.1 hr with hr | hr
        · exact db.relationsKnown r hr
        · exact h r hr }
  else none

theorem insertIncident_eq_some {db db' : Db} {row : IncidentRow}
    (h : insertIncident db row = some db') :
    (∀ i ∈ db.incidents, i.id ≠ row.id) ∧ (∀ i, i ∈ db'.incidents ↔ i ∈ db.incidents ∨ i = row) ∧
      db'.correlation = db.correlation ∧ db'.relations = db.relations ∧
      db'.history = db.history := by
  unfold insertIncident at h
  split at h
  case isFalse => cases h
  case isTrue =>
    split at h
    case h_1 => cases h
    case h_2 hins =>
      cases h
      exact ⟨fun _ hi => key_ne_of_insert? hins hi, fun _ => mem_insert? hins,
        rfl, rfl, rfl⟩

theorem mem_updateIncident {db : Db} {incident : Uuid} {f : IncidentRow → IncidentRow}
    {hid : ∀ i, (f i).id = i.id} {hcandidate : ∀ i, (f i).candidateId = i.candidateId}
    {i : IncidentRow} :
    i ∈ (updateIncident db incident f hid hcandidate).incidents ↔
      ∃ j ∈ db.incidents, i = if j.id = incident then f j else j := by
  show i ∈ db.incidents.updateWhere (fun i => i.id = incident) f hid ↔ _
  exact mem_updateWhere

theorem addRelations_eq_some {db db' : Db} {rows : List RelationRow}
    (h : addRelations db rows = some db') :
    db'.relations = db.relations ++ rows ∧ db'.incidents = db.incidents ∧
      db'.correlation = db.correlation ∧ db'.history = db.history := by
  unfold addRelations at h
  split at h
  · cases h
    exact ⟨rfl, rfl, rfl, rfl⟩
  · cases h

/-! ## Promotions -/

/-- The incident a candidate is promoted into. -/
inductive Owner
  | created (row : IncidentRow)
  /-- as read -/
  | existing (row : IncidentRow)

def Owner.row : Owner → IncidentRow
  | created row | existing row => row

/-- What a promotion has gathered for one candidate. -/
structure Promotion where
  candidate : IncidentCandidate
  owner : Owner
  relations : List RelationRow

/-- `clamp(0, 100)`. -/
def clamp100 (n : Int) : Int := min (max n 0) 100

/-- `INSERT INTO incidents … VALUES (id, 'detected', …)`. -/
def incidentRow (c : IncidentCandidate) (id : Uuid) : IncidentRow where
  id := id
  status := .detected
  severity := c.severity
  confidence := clamp100 c.confidence
  summary := c.summary
  correlationKey := c.correlationKey
  candidateId := some c.id
  detectedAt := c.firstSeen
  updatedAt := c.lastSeen
  confirmedAt := none
  mitigatedAt := none
  resolvedAt := none
  closedAt := none

/-- The first row of an incident's history. -/
def detectedRow (row : IncidentRow) : StatusHistoryRow where
  incidentId := row.id
  previousStatus := none
  newStatus := .detected
  changedBy := "correlation"
  reason := "promoted from incident candidate"
  changedAt := row.detectedAt

/-- The candidate's severity, confidence or summary is not the incident's. -/
def escalates (c : IncidentCandidate) (row : IncidentRow) : Bool :=
  c.severity ≠ row.severity || clamp100 c.confidence ≠ row.confidence || c.summary ≠ row.summary

/-- `UPDATE incidents SET severity, confidence, summary`. -/
def escalatedRow (c : IncidentCandidate) (now : Instant) (row : IncidentRow) : IncidentRow :=
  { row with
    severity := c.severity
    confidence := clamp100 c.confidence
    summary := c.summary
    updatedAt := now }

/-- The writes to the incident. -/
def writeIncident (db : Db) (now : Instant) (c : IncidentCandidate) : Owner → Option Db
  | .created row => (insertIncident db row).map (fun db =>
    { db with history := db.history ++ [detectedRow row] })
  | .existing row =>
    if escalates c row then
      some (updateIncident db row.id (escalatedRow c now) (fun _ => rfl) (fun _ => rfl))
    else some db

/-- `UPDATE incident_candidates SET status='promoted'`. -/
def promotedRow (c : IncidentCandidate) : IncidentCandidate := { c with status := .promoted }

theorem id_promotedRow (c : IncidentCandidate) : (promotedRow c).id = c.id := rfl

def markPromoted (db : Db) (candidate : Uuid) : Db :=
  { db with correlation := updateCandidate db.correlation candidate promotedRow id_promotedRow }

/-- All writes of one candidate's promotion, as they are committed. -/
def writePromotion (now : Instant) (db : Db) (p : Promotion) : Option Db :=
  (writeIncident db now p.candidate p.owner).bind (fun written =>
    (addRelations written p.relations).map (fun related => markPromoted related p.candidate.id))

/-- The incidents once a promotion's are written. -/
def IncidentsAfter (now : Instant) (db : Db) (c : IncidentCandidate) (i : IncidentRow) :
    Owner → Prop
  | .created row => i ∈ db.incidents ∨ i = row
  | .existing row => ∃ j ∈ db.incidents,
      i = if escalates c row ∧ j.id = row.id then escalatedRow c now j else j

def newHistory : Owner → List StatusHistoryRow
  | .created row => [detectedRow row]
  | .existing _ => []

/-- What a promotion leaves behind. -/
structure Promoted (now : Instant) (db : Db) (p : Promotion) (db' : Db) : Prop where
  fresh : ∀ row, p.owner = .created row → ∀ i ∈ db.incidents, i.id ≠ row.id
  incidents : ∀ i, i ∈ db'.incidents ↔ IncidentsAfter now db p.candidate i p.owner
  relations : db'.relations = db.relations ++ p.relations
  history : db'.history = db.history ++ newHistory p.owner
  candidates : ∀ k, db'.correlation.candidates.get? k = (db.correlation.candidates.get? k).map
    (fun c => if c.id = p.candidate.id then promotedRow c else c)
  candidateEvents : db'.correlation.candidateEvents = db.correlation.candidateEvents

theorem writeIncident_eq_some {now : Instant} {db db' : Db} {c : IncidentCandidate} {o : Owner}
    (h : writeIncident db now c o = some db') :
    (∀ row, o = .created row → ∀ i ∈ db.incidents, i.id ≠ row.id) ∧
      (∀ i, i ∈ db'.incidents ↔ IncidentsAfter now db c i o) ∧
      db'.correlation = db.correlation ∧ db'.relations = db.relations ∧
      db'.history = db.history ++ newHistory o := by
  cases o with
  | created row =>
    obtain ⟨inserted, hins, rfl⟩ := map_eq_some_iff.1 h
    obtain ⟨hfresh, hmem, hcorrelation, hrelations, hhistory⟩ := insertIncident_eq_some hins
    refine ⟨fun _ hrow => ?_, hmem, hcorrelation, hrelations, ?_⟩
    · cases hrow
      exact hfresh
    · exact congrArg (· ++ [detectedRow row]) hhistory
  | existing row =>
    refine ⟨fun _ hrow => (nomatch hrow), ?_⟩
    simp only [writeIncident] at h
    split at h
    case isTrue hesc =>
      cases h
      refine ⟨fun i => ?_, rfl, rfl, (append_nil _).symm⟩
      simp only [IncidentsAfter, hesc, true_and]
      exact mem_updateIncident
    case isFalse hesc =>
      cases h
      refine ⟨fun i => ?_, rfl, rfl, (append_nil _).symm⟩
      simp only [IncidentsAfter, hesc]
      exact ⟨fun hi => ⟨i, hi, rfl⟩, fun ⟨j, hj, hij⟩ => hij ▸ hj⟩

theorem writePromotion_spec {now : Instant} {db db' : Db} {p : Promotion}
    (h : writePromotion now db p = some db') : Promoted now db p db' := by
  obtain ⟨written, hw, h⟩ := bind_eq_some_iff.1 h
  obtain ⟨related, hr, rfl⟩ := map_eq_some_iff.1 h
  obtain ⟨hfresh, hmem, hcorrelation, hrelations, hhistory⟩ := writeIncident_eq_some hw
  obtain ⟨hrelated, hincidents, hsame, hkept⟩ := addRelations_eq_some hr
  constructor
  case fresh => exact hfresh
  case incidents =>
    intro i
    show i ∈ related.incidents ↔ _
    rw [hincidents, hmem]
  case relations => exact hrelated.trans (congrArg (· ++ p.relations) hrelations)
  case history => exact hkept.trans hhistory
  case candidates =>
    intro k
    rw [← hcorrelation, ← hsame]
    exact get?_updateCandidate related.correlation p.candidate.id promotedRow id_promotedRow k
  case candidateEvents =>
    rw [← hcorrelation, ← hsame]
    rfl

/-- `INSERT … SELECT … WHERE NOT EXISTS`: the link of one event. -/
def linkRow (c : IncidentCandidate) (incident event : Uuid) : RelationRow where
  incidentId := incident
  relationType := .event
  eventId := some event
  relatedEventId := none
  indicatorId := none
  confidence := clamp100 c.confidence
  reason := "correlated event"

/-- The relation links the event to the incident. -/
def links (incident event : Uuid) (r : RelationRow) : Bool :=
  r.incidentId = incident && r.relationType = .event && r.eventId = some event

/-- `ON CONFLICT DO NOTHING` on the two unique indexes, in which NULLs are distinct. -/
def conflicting (a b : RelationRow) : Bool :=
  a.incidentId = b.incidentId && a.relationType = b.relationType &&
    ((a.eventId.isSome && a.eventId = b.eventId && a.relatedEventId.isSome &&
        a.relatedEventId = b.relatedEventId) ||
      (a.indicatorId.isSome && a.indicatorId = b.indicatorId))

def addUnlessConflicting (stored : List RelationRow) (rows : List RelationRow)
    (r : RelationRow) : List RelationRow :=
  if (stored ++ rows).any (conflicting r) then rows else rows ++ [r]

/-- The relation of a relationship of the candidate's events. -/
def relationshipRelation (incident : Uuid) (r : RelationshipRow) : RelationRow where
  incidentId := incident
  relationType := .eventRelationship
  eventId := some r.eventId
  relatedEventId := some r.relatedEventId
  indicatorId := none
  confidence := clamp100 r.confidence
  reason := r.reason

def indicatorRelation (c : IncidentCandidate) (incident : Uuid) (indicator : Nat) :
    RelationRow where
  incidentId := incident
  relationType := .indicator
  eventId := none
  relatedEventId := none
  indicatorId := some indicator
  confidence := clamp100 c.confidence
  reason := "correlation indicator"

/-! ## Transitions -/

/-- `UPDATE incidents SET status`, with the time at which each status was first entered. -/
def statusRow (next : IncidentStatus) (now : Instant) (row : IncidentRow) : IncidentRow :=
  { row with
    status := next
    updatedAt := now
    confirmedAt := if next = .confirmed then row.confirmedAt.or (some now) else row.confirmedAt
    mitigatedAt := if next = .mitigated then row.mitigatedAt.or (some now) else row.mitigatedAt
    resolvedAt := if next = .resolved then row.resolvedAt.or (some now) else row.resolvedAt
    closedAt := if next = .closed then row.closedAt.or (some now) else row.closedAt }

/-- The writes of one transition. -/
def writeTransition (db : Db) (now : Instant) (incident : Uuid) (current next : IncidentStatus)
    (changedBy reason : String) : Db :=
  let moved := updateIncident db incident (statusRow next now) (fun _ => rfl) (fun _ => rfl)
  { moved with history := moved.history ++ [⟨incident, some current, next, changedBy, reason, now⟩] }

theorem mem_writeTransition {db : Db} {now : Instant} {incident : Uuid}
    {current next : IncidentStatus} {changedBy reason : String} {i : IncidentRow} :
    i ∈ (writeTransition db now incident current next changedBy reason).incidents ↔
      ∃ j ∈ db.incidents, i = if j.id = incident then statusRow next now j else j := by
  show i ∈ (updateIncident db incident (statusRow next now) (fun _ => rfl)
    (fun _ => rfl)).incidents ↔ _
  exact mem_updateIncident

end Clawforge.Incidents

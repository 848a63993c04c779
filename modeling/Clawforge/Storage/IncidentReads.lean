import Clawforge.Storage.Correlation
import Mathlib.Data.Finset.Card

/-!
# Reads of incidents

The tables behind the incident reads, with their keys and references, and the three queries
over them: the list with its event counts, the decision views, and the events of one
incident. What a query leaves open, the order of rows with equal times, is left open here.
-/

namespace Kit

/-! ## Counting and ordering -/

section Query

variable {α β : Type} [DecidableEq β]

/-- `COUNT(DISTINCT f)`. -/
def countDistinct (f : α → β) (rows : List α) : Nat := (rows.map f).dedup.length

/-- `GROUP BY f`: the keys with their rows. -/
def groupRows (f : α → β) (rows : List α) : List (β × List α) :=
  (rows.map f).dedup.map (fun k => (k, rows.filter (fun r => f r = k)))

omit [DecidableEq β] in
/-- Two lists without repetition and with the same members have one length. -/
theorem length_eq_of_nodup {xs ys : List β} (hxs : xs.Nodup) (hys : ys.Nodup)
    (h : ∀ b, b ∈ xs ↔ b ∈ ys) : xs.length = ys.length :=
  ((List.perm_ext_iff_of_nodup hxs hys).2 h).length_eq

/-- Counting the groups with a row in `p` is counting the keys of the rows in `p`. -/
theorem countP_groupRows (f : α → β) (p : α → Bool) (rows : List α) :
    (groupRows f rows).countP (fun g => g.2.any p) = countDistinct f (rows.filter p) := by
  unfold groupRows countDistinct
  rw [List.countP_map, List.countP_eq_length_filter]
  refine length_eq_of_nodup ((List.nodup_dedup _).filter _) (List.nodup_dedup _) (fun k => ?_)
  simp only [List.mem_filter, List.mem_dedup, List.mem_map, Function.comp_apply, List.any_eq_true,
    decide_eq_true_eq]
  constructor
  · rintro ⟨-, r, ⟨hr, hk⟩, hp⟩
    exact ⟨r, ⟨hr, hp⟩, hk⟩
  · rintro ⟨r, ⟨hr, hp⟩, hk⟩
    exact ⟨⟨r, hr, hk⟩, r, ⟨hr, hk⟩, hp⟩

/-- `ORDER BY`: the rows in an order that the relation allows. -/
def OrderedBy (le : α → α → Prop) (rows sorted : List α) : Prop :=
  sorted.Perm rows ∧ sorted.Pairwise le

omit [DecidableEq β] in
/-- Where no two rows are tied, there is one order. -/
theorem OrderedBy.unique {le : α → α → Prop} {rows xs ys : List α}
    (hanti : ∀ a ∈ rows, ∀ b ∈ rows, le a b → le b a → a = b) (hx : OrderedBy le rows xs)
    (hy : OrderedBy le rows ys) : xs = ys := by
  refine (hx.1.trans hy.1.symm).eq_of_pairwise ?_ hx.2 hy.2
  intro a b ha hb hab hba
  exact hanti a (hx.1.subset ha) b (hy.1.subset hb) hab hba

end Query

end Kit

namespace Clawforge.IncidentReads

open Kit Correlation

/-! ## Tables -/

/-- The states that `incidents_status_check` allows. -/
inductive StoredStatus
  | opened | acknowledged | detected | investigating | confirmed | mitigated | resolved | closed
deriving DecidableEq

structure IncidentRow where
  id : Uuid
  title : String
  status : StoredStatus
  source : String
  severity : IncidentSeverity
  confidence : Int
  candidateId : Option Uuid
  createdAt : Instant
  updatedAt : Instant
  riskScore : Int
  summary : String
  correlationKey : String
deriving DecidableEq

/-- A row of `incident_events`, the link to an audit event. -/
structure LegacyLink where
  incidentId : Uuid
  eventId : Nat
  timestamp : Instant
deriving DecidableEq

def LegacyLink.key (l : LegacyLink) : Uuid × Nat := (l.incidentId, l.eventId)

structure AuditEventRow where
  id : Nat
  actor : String
  action : String
  resource : String
  details : Json
  eventType : String
  source : String
  severity : String
  reason : String
  recordedAt : Instant
deriving DecidableEq

inductive RelationType
  | event | indicator | eventRelationship | incident
deriving DecidableEq

structure RelationRow where
  id : Uuid
  incidentId : Uuid
  relationType : RelationType
  eventId : Option Uuid
  relatedEventId : Option Uuid
  confidence : Int
  reason : String
deriving DecidableEq

structure EventRow where
  eventId : Uuid
  eventType : String
  source : String
  severity : String
  occurredAt : Instant
  correlationId : Option String
  payload : Json
  metadata : Json
  createdAt : Instant
deriving DecidableEq

/-- The tables with their keys; a link refers to stored events. -/
structure IncidentDb where
  incidents : Table IncidentRow.id
  links : Table LegacyLink.key
  audit : Table AuditEventRow.id
  relations : Table RelationRow.id
  events : Table EventRow.eventId
  linksKnown : ∀ l ∈ links, (audit.get? l.eventId).isSome = true
  relationsKnown : ∀ r ∈ relations, ∀ e, r.eventId = some e → (events.get? e).isSome = true

/-! ## Queries -/

section Queries

variable (db : IncidentDb)

/-- `ORDER BY updated_at DESC`. -/
def updatedFirst (a b : IncidentRow) : Prop := b.updatedAt ≤ a.updatedAt

/-- `limit.clamp(1, 500)`. -/
def rowLimit (limit : Int) : Nat := (min (max limit 1) 500).toNat

/-- The incidents a list query selects. -/
def Selected (status : Option StoredStatus) (limit : Int) (selected : List IncidentRow) : Prop :=
  ∃ sorted, OrderedBy updatedFirst
      (db.incidents.rows.filter (fun i => status.all (i.status = ·))) sorted ∧
    selected = sorted.take (rowLimit limit)

/-- `COUNT(DISTINCT event_id)` of the links of an incident. -/
def legacyCount (id : Uuid) : Nat :=
  countDistinct LegacyLink.eventId (db.links.rows.filter (fun l => l.incidentId = id))

/-- The relations of an incident that name an event, with it. -/
def eventRelations (id : Uuid) : List (Uuid × RelationRow) :=
  (db.relations.rows.filter (fun r => r.incidentId = id)).filterMap (fun r =>
    r.eventId.map (fun e => (e, r)))

/-- The groups of `list_incidents`: an event and whether a relation of the type `event` names
it, each joined with its source. -/
def relationGroups (id : Uuid) : List (Bool × Option String) :=
  (groupRows Prod.fst (eventRelations db id)).map (fun g =>
    (g.2.any (fun r => r.2.relationType = .event), (db.events.get? g.1).map EventRow.source))

/-- `string_agg(DISTINCT source, ', ' ORDER BY source)`. -/
def sourceText (sources : List String) : Option String :=
  let distinct := (sources.insertionSort (fun a b => a ≤ b)).dedup
  if distinct = [] then none else some (", ".intercalate distinct)

structure IncidentView where
  incident : IncidentRow
  eventSources : Option String
  eventCount : Nat

def incidentView (i : IncidentRow) : IncidentView where
  incident := i
  eventSources := sourceText ((relationGroups db i.id).filterMap Prod.snd)
  eventCount := legacyCount db i.id + (relationGroups db i.id).countP Prod.fst

/-- `list_incidents`. -/
def ListIncidents (status : Option StoredStatus) (limit : Int) (views : List IncidentView) :
    Prop :=
  ∃ selected, Selected db status limit selected ∧
    OrderedBy (fun a b => updatedFirst a.incident b.incident) (selected.map (incidentView db)) views

structure DecisionView where
  id : Uuid
  status : StoredStatus
  severity : IncidentSeverity
  confidence : Int
  riskScore : Int
  summary : String
  eventCount : Nat

/-- `COUNT(DISTINCT event_id)` of the relations of the type `event`. -/
def directCount (id : Uuid) : Nat :=
  countDistinct Prod.fst ((eventRelations db id).filter (fun r => r.2.relationType = .event))

def decisionView (i : IncidentRow) : DecisionView :=
  ⟨i.id, i.status, i.severity, i.confidence, i.riskScore, i.summary,
    legacyCount db i.id + directCount db i.id⟩

/-- `list_decision_incident_views`. -/
def ListDecisionIncidentViews (limit : Int) (views : List DecisionView) : Prop :=
  ∃ selected sorted, Selected db none limit selected ∧ OrderedBy updatedFirst selected sorted ∧
    views = sorted.map (decisionView db)

/-- An event of an incident: a linked audit event, or an event with the relation that names
it. -/
inductive IncidentEvent
  | legacy (link : LegacyLink) (audit : AuditEventRow)
  | canonical (relation : RelationRow) (event : EventRow)

/-- The field `event_id`, which is a number or an id. -/
def IncidentEvent.eventId : IncidentEvent → Nat ⊕ Uuid
  | .legacy link _ => .inl link.eventId
  | .canonical _ event => .inr event.eventId

/-- The field `timestamp`. -/
def IncidentEvent.timestamp : IncidentEvent → Instant
  | .legacy link _ => link.timestamp
  | .canonical _ event => event.occurredAt

def legacyRows (id : Uuid) : List IncidentEvent :=
  (db.links.rows.filter (fun l => l.incidentId = id)).filterMap (fun l =>
    (db.audit.get? l.eventId).map (IncidentEvent.legacy l))

def canonicalRows (id : Uuid) : List IncidentEvent :=
  ((eventRelations db id).filter (fun r => r.2.relationType = .event)).filterMap (fun r =>
    (db.events.get? r.1).map (IncidentEvent.canonical r.2))

/-- `sort_by` the texts of the timestamps. -/
def sortEvents (render : Instant → String) (events : List IncidentEvent) : List IncidentEvent :=
  events.mergeSort (fun a b => decide (render a.timestamp ≤ render b.timestamp))

/-- `list_incident_events`; `render` is the serialisation of a time. -/
def ListIncidentEvents (render : Instant → String) (id : Uuid) (events : List IncidentEvent) :
    Prop :=
  ∃ legacy canonical,
    OrderedBy (fun a b => a.timestamp ≤ b.timestamp) (legacyRows db id) legacy ∧
    OrderedBy (fun a b => a.timestamp ≤ b.timestamp) (canonicalRows db id) canonical ∧
    events = sortEvents render (legacy ++ canonical)

end Queries

end Clawforge.IncidentReads

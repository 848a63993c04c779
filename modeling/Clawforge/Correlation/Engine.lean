import Clawforge.Storage.Correlation
import Clawforge.Storage.EventDelivery
import Clawforge.Text

/-!
# The correlation engine

Which two events belong together and under which key, what a group of them amounts to, and the
request `process_event` makes of the storage layer for one event and its recent ones.
-/

namespace Clawforge.Correlation

open Kit

/-! ## Events -/

structure EventRecord where
  eventId : Uuid
  eventType : String
  source : String
  severity : String
  occurredAt : Instant
  correlationId : Option String
  payload : Json
deriving DecidableEq

structure CorrelationMatch where
  correlationKey : String
  relationType : String
  confidence : Nat
  reason : String
deriving DecidableEq

structure CorrelationOutcome where
  confidence : Nat
  severity : IncidentSeverity
  summary : String
deriving DecidableEq

/-- An event as the bus stores it. -/
def eventRecord (e : EventDelivery.Event) : EventRecord where
  eventId := e.eventId
  eventType := e.eventType
  source := e.source
  severity := e.severity
  occurredAt := e.occurredAt
  correlationId := e.correlationId
  payload := e.payload

/-- `is_correlatable`. -/
def isCorrelatable (eventType : String) : Bool :=
  eventType ∈ ["new_threat_indicator", "bgp_change", "rpki_invalid", "asn_change",
    "trusted_network_change", "provider_error"]

/-! ## Indicators -/

/-- `to_ascii_lowercase`. -/
def asciiLowercase (value : String) : String :=
  String.ofList (Text.toAsciiLowercase value.toList)

/-- `str::trim`. -/
def trimmed (value : String) : String := String.ofList (Text.trim value.toList)

def meaningfulKey (key : String) : Bool :=
  key ∈ ["resource", "target", "indicator", "ip", "ip_address", "source_ip", "destination_ip",
    "prefix", "asn", "domain", "url", "hash", "correlation_id"]

/-- What a text under the key contributes. -/
def textIndicator (key : Option String) (text : String) : List String :=
  let normalized := asciiLowercase (trimmed text)
  if meaningfulKey (asciiLowercase (key.getD "")) ∧ 3 ≤ normalized.utf8ByteSize ∧
      normalized.utf8ByteSize ≤ 512 then [normalized]
  else []

mutual

/-- `collect_indicators`, an array's items under the array's key. -/
def collectIndicators (key : Option String) : Json → List String
  | .object fields => collectFields fields
  | .array values => collectItems key values
  | .string text => textIndicator key text
  | .number n =>
    if key.map asciiLowercase = some "asn" then [(Json.number n).render] else []
  | .null | .bool _ => []

def collectFields : List (String × Json) → List String
  | [] => []
  | (name, child) :: rest => collectIndicators (some name) child ++ collectFields rest

def collectItems (key : Option String) : List Json → List String
  | [] => []
  | child :: rest => collectIndicators key child ++ collectItems key rest

end

/-- `extract_indicators`, as a list of the set's members. -/
def extractIndicators (value : Json) : List String := collectIndicators none value

/-- The first of two sets' common members. -/
def sharedIndicator (left right : Json) : Option String :=
  ((extractIndicators left).filter (fun x => x ∈ extractIndicators right)).min?

/-! ## Pairs -/

/-- `(left - right).abs()`. -/
def apart (a b : Instant) : Nat := max a b - min a b

/-- The match of two events that share a correlation id. -/
def idMatch (left right : EventRecord) (id : String) : CorrelationMatch where
  correlationKey := "correlation-id:" ++ id
  relationType :=
    if left.eventType = right.eventType then "shared-correlation-id" else "event-chain"
  confidence := if left.eventType = right.eventType then 82 else 96
  reason := "events share the same source or target correlation id"

def sourceMatch (source : String) : CorrelationMatch where
  correlationKey := "source:" ++ source
  relationType := "shared-source"
  confidence := 68
  reason := "events share source " ++ source ++ " within the correlation window"

def indicatorMatch (left right : EventRecord) (shared : String) : CorrelationMatch where
  correlationKey := "indicator:" ++ shared
  relationType := if left.eventType ≠ right.eventType then "event-chain" else "shared-indicator"
  confidence :=
    match decide (left.eventType ≠ right.eventType), decide (left.source = right.source) with
    | true, false => 92
    | true, true => 86
    | false, false => 78
    | false, true => 72
  reason := "events share indicator " ++ shared

/-- The correlation id two events share. -/
def sharedId (left right : EventRecord) : Option String :=
  match left.correlationId, right.correlationId with
  | some a, some b => if trimmed a ≠ "" ∧ a = b then some a else none
  | _, _ => none

/-- One of two events from one source is a provider error. -/
def sharesFailingSource (left right : EventRecord) : Bool :=
  left.source = right.source && trimmed left.source ≠ "" &&
    (left.eventType = "provider_error" || right.eventType = "provider_error")

/-- `correlate`. -/
def correlate (left right : EventRecord) (window : Nat) : Option CorrelationMatch :=
  if left.eventId = right.eventId ∨ isCorrelatable left.eventType = false ∨
      isCorrelatable right.eventType = false ∨
      window < apart left.occurredAt right.occurredAt then none
  else
    match sharedId left right with
    | some id => some (idMatch left right id)
    | none =>
      match sharedIndicator left.payload right.payload with
      | none => if sharesFailingSource left right then some (sourceMatch left.source) else none
      | some shared => some (indicatorMatch left right shared)

theorem ne_of_correlate {left right : EventRecord} {window : Nat} {found : CorrelationMatch}
    (h : correlate left right window = some found) : left.eventId ≠ right.eventId := by
  intro hid
  rw [correlate, if_pos (Or.inl hid)] at h
  cases h

/-! ## Groups -/

/-- `normalize_severity`. -/
def normalizeSeverity (value : String) : IncidentSeverity :=
  match asciiLowercase value with
  | "critical" => .critical
  | "high" => .high
  | "medium" => .medium
  | "low" => .low
  | _ => .info

/-- One turn of the loop over the events; `severity_rank` orders texts as `rank` does their
canonical values. -/
def raiseSeverity (severity : IncidentSeverity) (e : EventRecord) : IncidentSeverity :=
  if rank (normalizeSeverity e.severity) > rank severity then normalizeSeverity e.severity
  else severity

/-- The event types of a group, each once and sorted. -/
def eventTypes (events : List EventRecord) : List String :=
  ((events.map EventRecord.eventType).dedup).insertionSort (fun a b => a ≤ b)

/-- `((event_types.len().saturating_sub(1)) * 4) as u8`. -/
def chainBonus (types : Nat) : Nat := (types - 1) * 4 % 256

/-- `derive_outcome`. -/
def deriveOutcome (events : List EventRecord) (found : List CorrelationMatch) :
    CorrelationOutcome :=
  let types := eventTypes events
  let severity := events.foldl raiseSeverity .info
  { confidence := min (min ((found.map CorrelationMatch.confidence).foldl max 0 +
      chainBonus types.length) 255) 100
    severity := if 2 ≤ types.length ∧ severity = .medium then .high else severity
    summary :=
      if 1 < types.length then
        "Correlated security event chain (" ++ ", ".intercalate types ++ ")"
      else "Correlated security events sharing an indicator" }

/-! ## Requests -/

/-- A recent event and what it shares with the one at hand. -/
structure MatchedEvent (event : EventRecord) (window : Nat) where
  record : EventRecord
  found : CorrelationMatch
  correlated : correlate event record window = some found

/-- The loop over the recent events. -/
def relatedEvents (event : EventRecord) (window : Nat) (recent : List EventRecord) :
    List (MatchedEvent event window) :=
  recent.filterMap (fun record =>
    match h : correlate event record window with
    | some found => some ⟨record, found, h⟩
    | none => none)

/-- `matches.sort_by_key(|value| Reverse(value.1.confidence))`. -/
def strongestFirst {event : EventRecord} {window : Nat}
    (related : List (MatchedEvent event window)) :
    List (MatchedEvent event window) :=
  related.insertionSort (fun a b => b.found.confidence ≤ a.found.confidence)

def relationship {event : EventRecord} {window : Nat} (x : MatchedEvent event window) :
    EventRelationship where
  eventId := event.eventId
  relatedEventId := x.record.eventId
  relationType := x.found.relationType
  confidence := x.found.confidence
  reason := x.found.reason
  distinct := ne_of_correlate x.correlated

/-- The request of an event that stands alone. -/
def soloRequest (event : EventRecord) (window : Nat) (key : String) : CorrelationPersistence :=
  let outcome := deriveOutcome [event] []
  { correlationKey := key
    confidence := outcome.confidence
    severity := outcome.severity
    summary := outcome.summary
    firstSeen := event.occurredAt
    lastSeen := event.occurredAt
    window := window
    eventIds := [event.eventId]
    relationships := []
    ordered := le_refl _ }

theorem foldl_min_le_foldl_max {a b : Instant} (h : a ≤ b) (xs : List Instant) :
    xs.foldl min a ≤ xs.foldl max b := by
  induction xs generalizing a b with
  | nil => exact h
  | cons x xs ih => exact ih (le_trans (min_le_left a x) (le_trans h (le_max_left b x)))

/-- The request of an event and what it matches, under the strongest match's key. -/
def groupRequest (event : EventRecord) (window : Nat) (related : List (MatchedEvent event window))
    (key : String) : CorrelationPersistence :=
  let strongest := related.filter (fun x => x.found.correlationKey = key)
  let events := event :: strongest.map MatchedEvent.record
  let outcome := deriveOutcome events (strongest.map MatchedEvent.found)
  { correlationKey := key
    confidence := outcome.confidence
    severity := outcome.severity
    summary := outcome.summary
    firstSeen := (strongest.map (fun x => x.record.occurredAt)).foldl min event.occurredAt
    lastSeen := (strongest.map (fun x => x.record.occurredAt)).foldl max event.occurredAt
    window := window
    eventIds := events.map EventRecord.eventId
    relationships := related.map relationship
    ordered := foldl_min_le_foldl_max (le_refl _) _ }

/-- The key of an event that nothing matches: its correlation id, where it has one. -/
def soloKey (event : EventRecord) : Option String :=
  (event.correlationId.map trimmed).bind (fun id =>
    if id = "" then none else some ("correlation-id:" ++ id))

/-- What `process_event` persists for an event, given its recent ones. -/
def correlationRequest (event : EventRecord) (window : Nat) (recent : List EventRecord) :
    Option CorrelationPersistence :=
  if isCorrelatable event.eventType then
    match strongestFirst (relatedEvents event window recent) with
    | [] => (soloKey event).map (soloRequest event window)
    | first :: rest => some (groupRequest event window (first :: rest) first.found.correlationKey)
  else none

/-! ## The recent events -/

/-- `WHERE event_id <> $1 AND occurred_at BETWEEN $2 AND $3`. -/
def Recent (event : EventRecord) (window : Nat) (e : EventDelivery.Event) : Prop :=
  e.eventId ≠ event.eventId ∧ event.occurredAt - window ≤ e.occurredAt ∧
    e.occurredAt ≤ event.occurredAt + window

instance (event : EventRecord) (window : Nat) : DecidablePred (Recent event window) :=
  fun _ => inferInstanceAs (Decidable (_ ∧ _ ∧ _))

/-- `list_correlation_events`: an order that `ORDER BY occurred_at DESC` admits, cut at 500;
`more` is what the limit leaves out. -/
def IsListing (events : Table EventDelivery.Event.eventId) (event : EventRecord) (window : Nat)
    (rows more : List EventDelivery.Event) : Prop :=
  (rows ++ more).Perm (events.rows.filter (fun e => Recent event window e)) ∧
    (rows ++ more).Pairwise (fun a b => b.occurredAt ≤ a.occurredAt) ∧
    rows.length = min 500 (rows ++ more).length

instance (events : Table EventDelivery.Event.eventId) (event : EventRecord) (window : Nat)
    (rows more : List EventDelivery.Event) : Decidable (IsListing events event window rows more) :=
  inferInstanceAs (Decidable (_ ∧ _ ∧ _))

end Clawforge.Correlation

import Clawforge.Api.AdminConfig
import Clawforge.Kit.Tracked
import Clawforge.Storage.IncidentReads
import Clawforge.Storage.Indicators
import Clawforge.Kit.Csv
import Mathlib.Data.List.MinMax

/-!
# Listings with a filter

The listings of incidents, audit events, events and findings. Each reads the newest rows
of a query up to a limit, retains those that the rest of its filter accepts, and cuts the
result into pages with `paged_values`.
-/

namespace Clawforge.Listings

open Kit AdminConfig Correlation IncidentReads

/-! ## Pages -/

structure Pagination where
  page : Int
  pageSize : Int
  total : Int
  hasNext : Bool
deriving DecidableEq

section Paging

variable {α : Type}

/-- `as usize` of an `i64`. -/
def asUsize (n : Int) : Nat := (n % 2 ^ 64).toNat

/-- `paged_values`; both products are of `i64`. -/
def pagedValues (values : List α) (page pageSize : Int) : Tracked (List α × Pagination) := do
  let page := max page 1
  let pageSize := min (max pageSize 1) 500
  let offset ← Tracked.signed 64 ((page - 1) * pageSize)
  let start := asUsize offset
  let stop := min (min (start + asUsize pageSize) (2 ^ 64 - 1)) values.length
  let data := if values.length ≤ start then [] else (values.drop start).take (stop - start)
  let reached ← Tracked.signed 64 (page * pageSize)
  pure (data, ⟨page, pageSize, values.length, decide (reached < values.length)⟩)

/-- The pages from `page` on while `has_next` is true, and the data on them. -/
inductive Walk (answer : Int → Tracked (List α × Pagination)) : Int → List α → Prop
  | last {page} : (answer page).value.2.hasNext = false → Walk answer page (answer page).value.1
  | next {page rest} : (answer page).value.2.hasNext = true → Walk answer (page + 1) rest →
      Walk answer page ((answer page).value.1 ++ rest)

end Paging

/-! ## Listings -/

/-- A listing: the rows that its query selects, newest first up to a limit, those of them
that are retained, and the size of a page. -/
structure Listing where
  Row : Type
  table : List Row
  selected : Row → Bool
  time : Row → Instant
  limit : Nat
  kept : Row → Bool
  pageSize : Int

namespace Listing

variable (l : Listing)

/-- An order of the selected rows in which the query can read them. -/
def Order (sorted : List l.Row) : Prop :=
  OrderedBy (fun a b => l.time b ≤ l.time a) (l.table.filter l.selected) sorted

/-- What the handler pages through. -/
def values (sorted : List l.Row) : List l.Row := (sorted.take l.limit).filter l.kept

def answer (sorted : List l.Row) (page : Int) : Tracked (List l.Row × Pagination) :=
  pagedValues (l.values sorted) page l.pageSize

/-- The rows that match the filter. -/
def matching : List l.Row := l.table.filter (fun r => l.selected r && l.kept r)

end Listing

structure ListingDb where
  core : IncidentDb
  indicators : Table Intelligence.IndicatorRow.key
  riskHistory : List (Instant × Intelligence.RiskHistoryRow)

/-- The parts of PostgreSQL and chrono that the filters use: `details::text ILIKE '%…%'`, and
the serialisation of a time. -/
structure Env where
  ilike : Json → String → Bool
  render : Instant → String

/-- `is_none_or`. -/
def noneOr {β : Type} (wanted : Option β) (accepts : β → Bool) : Bool := wanted.all accepts

/-- Both bounds of a time compare texts. -/
def within (lower upper : Option String) (timestamp : String) : Bool :=
  noneOr lower (fun bound => decide (bound ≤ timestamp)) &&
    noneOr upper (fun bound => decide (timestamp ≤ bound))

def severityName : IncidentSeverity → String
  | .info => "info"
  | .low => "low"
  | .medium => "medium"
  | .high => "high"
  | .critical => "critical"

/-- `to_ascii_lowercase` and the canonical state of a filter. -/
def canonicalIncidentStatus (value : String) : Option StoredStatus :=
  match value.toLower with
  | "open" | "detected" => some .detected
  | "acknowledged" => some .acknowledged
  | "investigating" => some .investigating
  | "confirmed" => some .confirmed
  | "mitigated" => some .mitigated
  | "resolved" => some .resolved
  | "ignored" | "closed" => some .closed
  | _ => none

/-- The state a request filters by. -/
def statusFilter : Option String → Except ApiError (Option StoredStatus)
  | none => .ok none
  | some value =>
    match canonicalIncidentStatus value with
    | some status => .ok (some status)
    | none => .error ⟨400, "invalid incident status filter"⟩

/-! ### The handlers -/

section Handlers

variable (env : Env) (db : ListingDb)

/-- `IncidentQuery` without its page. -/
structure IncidentQuery where
  status : Option String
  limit : Option Int
  pageSize : Option Int
  severity : Option String
  source : Option String
  lower : Option String
  upper : Option String

/-- `incidents`. -/
def incidents (query : IncidentQuery) : Except ApiError Listing :=
  match statusFilter query.status with
  | .error error => .error error
  | .ok status => .ok {
      Row := IncidentRow
      table := db.core.incidents.rows
      selected := fun i => noneOr status (i.status = ·)
      time := IncidentRow.updatedAt
      limit := rowLimit 500
      kept := fun i => noneOr query.severity (severityName i.severity = ·) &&
        noneOr query.source (fun source => (i.source.splitOn ", ").contains source) &&
        within query.lower query.upper (env.render i.createdAt)
      pageSize := (query.pageSize.or query.limit).getD 100 }

/-- `AuditQuery` without its page. -/
structure AuditQuery where
  lower : Option Instant
  upper : Option Instant
  source : Option String
  severity : Option String
  user : Option String
  action : Option String
  result : Option String
  scope : Option String
  limit : Option Int
  pageSize : Option Int

/-- `audit_scope_matches`. -/
def auditScopeMatches (details : Json) (scope : Option String) : Bool :=
  noneOr scope (fun wanted => (details.get "scope").bind Json.asStr = some wanted)

/-- `audit_events`. -/
def auditEvents (query : AuditQuery) : Listing where
  Row := AuditEventRow
  table := db.core.audit.rows
  selected := fun r => noneOr query.lower (fun bound => decide (bound ≤ r.recordedAt)) &&
    noneOr query.upper (fun bound => decide (r.recordedAt ≤ bound)) &&
    noneOr query.source (r.source = ·) && noneOr query.severity (r.severity = ·) &&
    noneOr query.user (r.actor = ·) && noneOr query.action (r.action = ·) &&
    noneOr query.result (env.ilike r.details)
  time := AuditEventRow.recordedAt
  limit := 500
  kept := fun r => auditScopeMatches r.details query.scope
  pageSize := (query.pageSize.or query.limit).getD 100

/-- The fields of `AgentQuery` that these listings read, without its page. -/
structure AgentQuery where
  pageSize : Option Int
  eventType : Option String
  source : Option String
  severity : Option String
  status : Option String
  correlationId : Option String
  confidenceMin : Option Nat
  active : Option Bool
  lower : Option String
  upper : Option String

/-- The size of `agent_page`. -/
def agentPageSize (query : AgentQuery) (size : Int) : Int :=
  min (max (query.pageSize.getD size) 1) 100

/-- `agent_events`. -/
def agentEvents (query : AgentQuery) : Listing where
  Row := EventRow
  table := db.core.events.rows
  selected := fun e => noneOr query.eventType (e.eventType = ·)
  time := EventRow.occurredAt
  limit := 500
  kept := fun e => noneOr query.source (e.source = ·) && noneOr query.severity (e.severity = ·) &&
    noneOr query.correlationId (fun wanted => e.correlationId = some wanted) &&
    within query.lower query.upper (env.render e.occurredAt)
  pageSize := agentPageSize query 50

/-- `agent_incidents`. -/
def agentIncidents (query : AgentQuery) : Except ApiError Listing :=
  match statusFilter query.status with
  | .error error => .error error
  | .ok status => .ok {
      Row := IncidentRow
      table := db.core.incidents.rows
      selected := fun i => noneOr status (i.status = ·)
      time := IncidentRow.updatedAt
      limit := rowLimit 500
      kept := fun i => noneOr query.severity (severityName i.severity = ·) &&
        within query.lower query.upper (env.render i.createdAt)
      pageSize := agentPageSize query 50 }

/-- `risk_severity`. -/
def riskSeverity (score : Int) : String :=
  if 90 ≤ score then "critical"
  else if 70 ≤ score then "high"
  else if 40 ≤ score then "medium"
  else if 0 < score then "low"
  else "info"

/-- The latest risk of an indicator. -/
def latestRisk (indicatorId : Nat) : Option Intelligence.RiskHistoryRow :=
  ((db.riskHistory.filter (fun r => r.2.indicatorId = indicatorId)).argmax Prod.fst).map Prod.snd

/-- `agent_findings`, at the time `now`. -/
def agentFindings (now : Instant) (query : AgentQuery) : Listing where
  Row := Intelligence.IndicatorRow
  table := db.indicators.rows
  selected := fun _ => true
  time := Intelligence.IndicatorRow.lastSeen
  limit := 1000
  kept := fun i => noneOr query.source (i.source = ·) &&
    noneOr query.severity (fun wanted =>
      wanted = riskSeverity ((latestRisk db i.id).elim 0 (fun r => (r.riskScore : Int)))) &&
    noneOr query.confidenceMin (fun minimum => decide (minimum ≤ i.confidence)) &&
    noneOr query.active (fun wanted => wanted = decide (now < i.expiresAt)) &&
    within query.lower query.upper (env.render i.lastSeen)
  pageSize := agentPageSize query 50

/-- The listings a request can ask for. -/
inductive Offered : Listing → Prop
  | incidents {query l} : incidents env db query = .ok l → Offered l
  | auditEvents (query) : Offered (auditEvents env db query)
  | agentEvents (query) : Offered (agentEvents env db query)
  | agentIncidents {query l} : agentIncidents env db query = .ok l → Offered l
  | agentFindings (now query) : Offered (agentFindings env db now query)

end Handlers

end Clawforge.Listings

/-! ## CSV exports

`csv_escape` and `values_as_csv` of the API: the rows of an export as one text, with a
line for the column names and one for each value.
-/

namespace Clawforge.CsvExport

open Kit

/-- `str::replace('"', "\"\"")`. -/
def doubleQuotes (value : String) : String := String.ofList (Csv.doubled value.toList)

/-- `csv_escape`. -/
def csvEscape (value : String) : String :=
  if ',' ∈ value.toList ∨ '"' ∈ value.toList ∨ '\n' ∈ value.toList then
    "\"" ++ doubleQuotes value ++ "\""
  else value

/-- The text of a value under a column: a string as it is, anything else as JSON, nothing for an
absent field. -/
def columnText (value : Json) (column : String) : String :=
  match value.get column with
  | some item => item.asStr.getD item.render
  | none => ""

/-- `values_as_csv`. -/
def valuesAsCsv (values : List Json) (columns : List String) : String :=
  values.foldl
    (fun output value =>
      output ++ ",".intercalate (columns.map fun column =>
        csvEscape (columnText value column)) ++ "\n")
    (",".intercalate columns ++ "\n")

end Clawforge.CsvExport

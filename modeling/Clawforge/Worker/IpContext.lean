import Clawforge.Storage.Reputation
import Clawforge.Intelligence.IpContext

/-!
# The routing-context worker

One bounded pass over the sources that the database lists: each is looked up and recorded,
in order, until the API asks to wait. Whatever the database answers to a statement that it
accepts, the pass goes on; an error of a statement ends it.
-/

/-! ## Routing context of a source

The table `source_network_context` with its two functions: which sources still need routing
context, and the recording of one lookup. The function that records takes its prefix as a
`cidr`, so the text is cast before the function runs.
-/

namespace Clawforge.NetworkContext

open Clawforge.Net Clawforge.Reputation Clawforge.Intelligence Kit

/-! ## The table -/

inductive ContextStatus
  | ok | unrouted | failed | skipped
deriving DecidableEq

/-- A row of `source_network_context`. -/
structure ContextRow where
  pseudonym : String
  status : ContextStatus
  announced : Option IpNet
  originAsns : List Nat
  rpki : String
  source : String
  fetchedAt : Instant
  expiresAt : Instant
  attempts : Nat
  nextAttemptAt : Instant
  lastError : Option String
deriving DecidableEq

abbrev Contexts := Table ContextRow.pseudonym

structure Assessment where
  resource : String
  confidence : Nat
  lastSeen : Instant

/-- What a statement on the table reads of the others, at its time. -/
structure Moment where
  now : Instant
  resolutions : Table Resolution.pseudonym
  assessments : List Assessment

/-- The unexpired resolution of a source to a single host. -/
def Moment.resolution (m : Moment) (pseudonym : String) : Option Resolution :=
  (m.resolutions.get? pseudonym).filter (fun r =>
    m.now < r.expiresAt && r.rawIp.prefixLen = r.rawIp.addr.width)

/-! ## Targets -/

section Targets

variable (pg : Postgres) (m : Moment) (T : Contexts) (limit assessmentMaxAge minConfidence : Nat)

/-- `max(a.confidence)` of the recent assessments of a source. -/
def best (pseudonym : String) : Option Nat :=
  ((m.assessments.filter (fun a =>
    a.resource = pseudonym && m.now < a.lastSeen + seconds assessmentMaxAge)).map
      Assessment.confidence).max?

/-- The row keeps its source from the list: it is current, or waits for its next attempt. -/
def ContextRow.covers (now : Instant) (row : ContextRow) : Bool :=
  (row.status ≠ .failed && now < row.expiresAt) || now < row.nextAttemptAt

def isTarget (r : Resolution) : Bool :=
  (best m assessmentMaxAge r.pseudonym).any (minConfidence ≤ ·) &&
    m.now < r.expiresAt && r.rawIp.prefixLen = r.rawIp.addr.width &&
    60 ≤ assessmentMaxAge && assessmentMaxAge ≤ 604800 &&
    1 ≤ minConfidence && minConfidence ≤ 100 &&
    !(T.get? r.pseudonym).any (ContextRow.covers m.now)

/-- The confidence that a listed source has. -/
def rank (r : Resolution) : Nat := (best m assessmentMaxAge r.pseudonym).getD 0

/-- `ORDER BY s.best DESC, r.pseudonym`. -/
def ranksBefore (a b : Resolution) : Prop :=
  rank m assessmentMaxAge b < rank m assessmentMaxAge a ∨
    (rank m assessmentMaxAge b = rank m assessmentMaxAge a ∧ a.pseudonym ≤ b.pseudonym)

instance : DecidableRel (ranksBefore m assessmentMaxAge) :=
  fun _ _ => inferInstanceAs (Decidable (_ ∨ _))

structure NetworkContextTarget where
  pseudonym : String
  rawIp : String
deriving DecidableEq

/-- `clawforge_network_context_targets`. -/
def networkContextTargets : List NetworkContextTarget :=
  (((m.resolutions.rows.filter (isTarget m T assessmentMaxAge minConfidence)).insertionSort
    (ranksBefore m assessmentMaxAge)).take (min limit 50)).map
      (fun r => ⟨r.pseudonym, pg.host r.rawIp.addr⟩)

end Targets

/-! ## Recording -/

/-- `NetworkContextOutcome`. -/
inductive NetworkContextOutcome
  | routed (announced : String) (originAsns : List Nat) (rpki : String) (ttlSeconds : Nat)
  | unrouted (ttlSeconds : Nat)
  | skipped (ttlSeconds : Nat)
  | failed (retryAfterSeconds : Nat) (error : String)
deriving DecidableEq

inductive RecordError
  | errorCode
  | sql (error : SqlError)
deriving DecidableEq

/-- The delay of a failed attempt after `attempts` others. -/
def backoff (retryAfterSeconds attempts : Nat) : Nat :=
  max retryAfterSeconds (min 3600 (30 * 2 ^ min attempts 7))

def rpkiValues : List String := ["valid", "invalid", "mixed", "unknown", "not_checked"]

section Record

variable (m : Moment) (T : Contexts) (pseudonym : String)

/-- The branch of `clawforge_record_network_context` for a failure: what is stored is kept. -/
def recordFailure (retryAfterSeconds : Nat) (error : String) : Contexts :=
  let delay := backoff retryAfterSeconds (((T.get? pseudonym).map ContextRow.attempts).getD 0)
  T.upsert
    ⟨pseudonym, .failed, none, [], "not_checked", "ripestat", m.now, m.now, 1,
      m.now + seconds delay, some error⟩
    (fun row => { row with
      attempts := row.attempts + 1
      nextAttemptAt := m.now + seconds delay
      lastError := some error })
    (fun _ => rfl)

/-- The branch for a result. -/
def recordResult (res : Resolution) (status : ContextStatus) (announced : Option IpNet)
    (originAsns : List Nat) (rpki : String) (ttlSeconds : Nat) : Contexts :=
  T.upsert
    ⟨pseudonym, status, announced, originAsns, rpki, "ripestat", m.now,
      min (m.now + seconds ttlSeconds) res.expiresAt, 0, m.now, none⟩
    (fun row => { row with
      status
      announced
      originAsns
      rpki
      source := "ripestat"
      fetchedAt := m.now
      expiresAt := min (m.now + seconds ttlSeconds) res.expiresAt
      attempts := 0
      nextAttemptAt := m.now
      lastError := none })
    (fun _ => rfl)

/-- What the database checks of a route. -/
def consistentRoute (res : Resolution) (announced : IpNet) (originAsns : List Nat) (rpki : String) :
    Bool :=
  specific announced && announced.contains res.rawIp.addr &&
    1 ≤ originAsns.length && originAsns.length ≤ 16 &&
    originAsns.all (fun asn => 1 ≤ asn && asn ≤ 4294967295) && rpkiValues.contains rpki

/-- `clawforge_record_network_context` on a route, whose prefix is cast by now. -/
def recordRoute (announced : IpNet) (originAsns : List Nat) (rpki : String)
    (ttlSeconds : Nat) : Bool × Contexts :=
  match m.resolution pseudonym with
  | none => (false, T)
  | some res =>
    if ttlSeconds < 60 ∨ 86400 < ttlSeconds then (false, T)
    else if consistentRoute res announced originAsns rpki then
      (true, recordResult m T pseudonym res .ok (some announced) originAsns rpki ttlSeconds)
    else (false, T)

/-- … and on a result without a route. -/
def recordNoRoute (status : ContextStatus) (ttlSeconds : Nat) : Bool × Contexts :=
  match m.resolution pseudonym with
  | none => (false, T)
  | some res =>
    if ttlSeconds < 60 ∨ 86400 < ttlSeconds then (false, T)
    else (true, recordResult m T pseudonym res status none [] "not_checked" ttlSeconds)

/-- Short lowercase text, as an error code has to be. -/
def validErrorCode (error : String) : Bool :=
  error ≠ "" && error.utf8ByteSize ≤ 120 &&
    error.toList.all (fun c => c.isLower || c.isDigit || " _:-".toList.contains c)

/-- `record_network_context`. -/
def recordNetworkContext (pg : Postgres) (outcome : NetworkContextOutcome) :
    Except RecordError (Bool × Contexts) :=
  match outcome with
  | .routed announced originAsns rpki ttlSeconds =>
    match pg.cidr announced with
    | none => .error (.sql (.invalidCidr announced))
    | some net => .ok (recordRoute m T pseudonym net originAsns rpki ttlSeconds)
  | .unrouted ttlSeconds => .ok (recordNoRoute m T pseudonym .unrouted ttlSeconds)
  | .skipped ttlSeconds => .ok (recordNoRoute m T pseudonym .skipped ttlSeconds)
  | .failed retryAfterSeconds error =>
    if validErrorCode error = false then .error .errorCode
    else if (m.resolution pseudonym).isNone then .ok (false, T)
    else .ok (true, recordFailure m T pseudonym retryAfterSeconds error)

end Record

end Clawforge.NetworkContext

namespace Clawforge.NetworkContext

open Clawforge.Net Clawforge.Reputation Clawforge.Intelligence Kit

/-- `IpContextConfig`, within the ranges `from_lookup` checks. -/
structure IpContextConfig where
  minConfidence : Nat
  assessmentMaxAgeSeconds : Nat
  batch : Nat
  ttlSeconds : Nat
  confidence_range : 1 ≤ minConfidence ∧ minConfidence ≤ 100
  age_range : 60 ≤ assessmentMaxAgeSeconds ∧ assessmentMaxAgeSeconds ≤ 604800
  batch_range : 1 ≤ batch ∧ batch ≤ 20
  ttl_range : 60 ≤ ttlSeconds ∧ ttlSeconds ≤ 86400

structure CycleReport where
  targets : Nat
  routed : Nat
  unrouted : Nat
  skippedNonPublic : Nat
  failed : Nat
  refusedByDatabase : Nat
  rateLimited : Bool
  paused : Bool
deriving DecidableEq

def CycleReport.empty : CycleReport := ⟨0, 0, 0, 0, 0, 0, false, false⟩

/-- `error_code`. -/
def errorCode : IpContextError → String
  | .rateLimited _ => "rate_limited"
  | .upstream status => "upstream_" ++ toString status
  | .transport => "transport"
  | .rejected _ => "rejected_response"

/-- `to_string` of a network. -/
def displayIpNet (n : IpNet) : String :=
  String.ofList (displayIpAddr n.addr ++ '/' :: Nat.toDigits 10 n.prefixLen)

/-- `outcome_for`. -/
def outcomeFor (context : IpNetworkContext) (ttlSeconds : Nat) : NetworkContextOutcome :=
  match context.announced with
  | none => .unrouted ttlSeconds
  | some announced =>
    .routed (displayIpNet announced) context.originAsns context.rpki.asStr ttlSeconds

/-- What meets the worker while it is at one target: the API, and the database at the first
and at the second statement. -/
structure Turn where
  answer : RoutingRequest → Except IpContextError ByteArray
  fetchedAt : Instant
  first : Moment
  second : Moment
  ordered : first.now ≤ second.now

/-- How a target counts in the report. -/
inductive Count
  | routed | unrouted | skipped | failed | refused
  | rateLimited (retryAfterSeconds : Nat)
deriving DecidableEq

def CycleReport.add (report : CycleReport) : Count → CycleReport
  | .routed => { report with routed := report.routed + 1 }
  | .unrouted => { report with unrouted := report.unrouted + 1 }
  | .skipped => { report with skippedNonPublic := report.skippedNonPublic + 1 }
  | .failed => { report with failed := report.failed + 1 }
  | .refused => { report with refusedByDatabase := report.refusedByDatabase + 1 }
  | .rateLimited _ => { report with failed := report.failed + 1, rateLimited := true }

section Cycle

variable (env : Env) (pg : Postgres) (config : IpContextConfig)

/-- The rows after a statement, and an outcome; after an error the rows stay. -/
abbrev Outcome (α : Type) := Contexts × Except RecordError α

/-- A statement that records, and what follows. -/
def afterRecord {α : Type} (T : Contexts) (recorded : Except RecordError (Bool × Contexts))
    (next : Bool → Contexts → Outcome α) : Outcome α :=
  match recorded with
  | .error error => (T, .error error)
  | .ok (stored, T') => next stored T'

/-- `i32::try_from(seconds).unwrap_or(3600)`. -/
def retrySeconds : IpContextError → Nat
  | .rateLimited seconds => if seconds < 2 ^ 31 then seconds else 3600
  | _ => 0

/-- The branch of the loop for a context. -/
def recordFound (turn : Turn) (pseudonym : String) (context : IpNetworkContext) (T : Contexts) :
    Outcome Count :=
  afterRecord T (recordNetworkContext turn.first T pseudonym pg
    (outcomeFor context config.ttlSeconds)) (fun stored T' =>
      if stored then (T', .ok (if context.announced.isSome then .routed else .unrouted))
      else
        afterRecord T' (recordNetworkContext turn.second T' pseudonym pg
          (.failed 0 "refused_by_database")) (fun _ T'' => (T'', .ok .refused)))

/-- The branch for an error of the lookup. -/
def recordError (turn : Turn) (pseudonym : String) (error : IpContextError) (T : Contexts) :
    Outcome Count :=
  afterRecord T (recordNetworkContext turn.first T pseudonym pg
    (.failed (retrySeconds error) (errorCode error))) (fun _ T' =>
      (T', .ok (match error with
        | .rateLimited seconds => .rateLimited seconds
        | _ => .failed)))

def recordSkipped (turn : Turn) (pseudonym : String) (T : Contexts) : Outcome Count :=
  afterRecord T (recordNetworkContext turn.first T pseudonym pg (.skipped 86400))
    (fun _ T' => (T', .ok .skipped))

/-- One turn of the loop: the requests, and its outcome. -/
def processTarget (turn : Turn) (target : NetworkContextTarget) (T : Contexts) :
    List RoutingRequest × Outcome Count :=
  match parseIpAddr target.rawIp.toList with
  | none => ([], recordSkipped pg turn target.pseudonym T)
  | some ip =>
    if isQueryable ip then
      match lookup env turn.answer turn.fetchedAt ip with
      | (requests, .ok context) =>
        (requests, recordFound pg config turn target.pseudonym context T)
      | (requests, .error error) => (requests, recordError pg turn target.pseudonym error T)
    else ([], recordSkipped pg turn target.pseudonym T)

/-- The loop over the targets: the requests, the rows, and the report with the pause that the
API asks for. -/
def processTargets (turns : String → Turn) :
    List NetworkContextTarget → CycleReport → Contexts →
      List RoutingRequest × Outcome (CycleReport × Option Nat)
  | [], report, T => ([], T, .ok (report, none))
  | target :: rest, report, T =>
    match processTarget env pg config (turns target.pseudonym) target T with
    | (requests, T', .error error) => (requests, T', .error error)
    | (requests, T', .ok (.rateLimited seconds)) =>
      (requests, T', .ok (report.add (.rateLimited seconds), some seconds))
    | (requests, T', .ok count) =>
      let (later, outcome) := processTargets turns rest (report.add count) T'
      (requests ++ later, outcome)

/-- The rows, and until when the worker pauses on its own clock. -/
structure WorkerState where
  contexts : Contexts
  pausedUntil : Option Instant

/-- What meets the worker during a cycle: the time on its clock, the database when it lists
the targets, and each target's turn. -/
structure Cycle where
  now : Instant
  listing : Moment
  turns : String → Turn
  ordered : ∀ pseudonym, listing.now ≤ (turns pseudonym).first.now

/-- The targets the database lists. -/
def Cycle.targets (c : Cycle) (T : Contexts) : List NetworkContextTarget :=
  networkContextTargets pg c.listing T config.batch config.assessmentMaxAgeSeconds
    config.minConfidence

/-- The worker still waits for an earlier `Retry-After`. -/
def Cycle.waits (c : Cycle) (w : WorkerState) : Bool := w.pausedUntil.any (c.now < ·)

/-- `run_cycle`: the requests, the state after it, and its result. -/
def runCycle (c : Cycle) (w : WorkerState) :
    List RoutingRequest × WorkerState × Except RecordError CycleReport :=
  if c.waits w then ([], w, .ok { CycleReport.empty with paused := true })
  else
    let targets := c.targets pg config w.contexts
    match processTargets env pg config c.turns targets
        { CycleReport.empty with targets := targets.length } w.contexts with
    | (requests, T, .error error) => (requests, ⟨T, none⟩, .error error)
    | (requests, T, .ok (report, pause)) =>
      (requests, ⟨T, pause.map (fun s => c.now + seconds s)⟩, .ok report)

end Cycle

end Clawforge.NetworkContext

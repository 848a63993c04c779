import Clawforge.Correlation.Engine
import Clawforge.Storage.CorrelationSessions
import Clawforge.Storage.Publication

/-!
# Event consumer loops

The loops of the correlation service and of the analyzer: claim a batch of deliveries, handle
them one after the other, report the result of each. Every database call and every request may
fail, and it may fail after it has taken effect. The analyzer reaches the store through the API.
-/

namespace Clawforge.EventConsumers

open Kit EventDelivery Correlation Option

/-! ## Stores -/

structure AnalysisOutput where
  provider : String
  model : String
  confidence : Rat
  summary : String
  observations : List String
  recommendations : List String
deriving DecidableEq

/-- A row of `incident_analysis`. -/
structure Analysis where
  id : Uuid
  incidentId : Uuid
  output : AnalysisOutput
deriving DecidableEq

structure Stores where
  bus : EventStore
  correlation : Correlation.Db
  /-- the ids of the table `incidents` -/
  incidents : List Uuid
  analyses : Table Analysis.id

/-! ## Handlers -/

/-- `forbidden_analysis_text`. -/
def forbiddenAnalysisText (value : String) : Bool :=
  ["block", "grant trust", "change polic", "activate provider", "change permission"].any
    (fun term => Text.contains term.toList (Text.toAsciiLowercase value.toList))

/-- What `store_internal_analysis` accepts. -/
def acceptable (o : AnalysisOutput) : Bool :=
  trimmed o.provider ≠ "" && o.provider.utf8ByteSize ≤ 128 && trimmed o.model ≠ "" &&
    o.model.utf8ByteSize ≤ 256 && trimmed o.summary ≠ "" && o.summary.utf8ByteSize ≤ 4000 &&
    0 ≤ o.confidence && o.confidence ≤ 1 && o.observations.length ≤ 32 &&
    o.recommendations.length ≤ 32 &&
    (o.observations ++ o.recommendations).all (fun value =>
      value.utf8ByteSize ≤ 1000 && !forbiddenAnalysisText value) &&
    !forbiddenAnalysisText o.summary

/-- `store_incident_analysis`. -/
def storeIncidentAnalysis (s : Stores) (id incident : Uuid) (o : AnalysisOutput) : Option Stores :=
  if incident ∈ s.incidents then
    (s.analyses.insert? ⟨id, incident, o⟩).map (fun analyses => { s with analyses := analyses })
  else none

/-- The incident an event asks the analyzer about. -/
def analysisOf (parseUuid : String → Option Uuid) (e : Event) : Option Uuid :=
  if e.eventType = "incident.created" then
    ((e.payload.get "incident_id").bind Json.asStr).bind parseUuid
  else none

/-- `result.as_ref().err().map(ToString::to_string)`. -/
def errorText : Except String Unit → Option String
  | .ok _ => none
  | .error text => some text

/-- A report and the row it changes, if the database takes it. -/
def report (s : Stores) (now : Instant) (delivery : Uuid) (consumer : String)
    (result : Except String Unit) (outcome : Outcome) : Option Stores :=
  match completeEventDelivery s.bus now delivery consumer result.toBool (errorText result) with
  | .ok bus => if outcome.takesEffect then some { s with bus := bus } else none
  | .error _ => none

/-! ## Loops -/

/-- The correlation service's loop. -/
inductive Correlator
  | idle
  | batch (todo : List ClaimedDelivery)
  /-- `process_event` asks for the recent events -/
  | listing (d : ClaimedDelivery) (todo : List ClaimedDelivery)
  | persisting (d : ClaimedDelivery) (recent : List EventRecord) (r : CorrelationPersistence)
      (todo : List ClaimedDelivery)
  | completing (d : ClaimedDelivery) (recent : List EventRecord) (result : Except String Unit)
      (todo : List ClaimedDelivery)

/-- The analyzer's loop. -/
inductive Analyzer
  | idle
  | batch (todo : List ClaimedDelivery)
  | analyzing (d : ClaimedDelivery) (incident : Uuid) (todo : List ClaimedDelivery)
  | storing (d : ClaimedDelivery) (incident : Uuid) (output : AnalysisOutput)
      (todo : List ClaimedDelivery)
  /-- the report is sent; `result` is what came of the analysis -/
  | acknowledging (d : ClaimedDelivery) (result : Except String Unit)
      (todo : List ClaimedDelivery)

/-- The loops once a claim has answered, or failed. -/
def Correlator.started : Option (List ClaimedDelivery) → Correlator
  | some todo => .batch todo
  | none => .idle

def Analyzer.started : Option (List ClaimedDelivery) → Analyzer
  | some todo => .batch todo
  | none => .idle

/-- The deliveries a loop has been handed and has not reported. -/
def Correlator.held : Correlator → List ClaimedDelivery
  | idle => []
  | batch todo => todo
  | listing d todo | persisting d _ _ todo | completing d _ _ todo => d :: todo

def Analyzer.held : Analyzer → List ClaimedDelivery
  | idle => []
  | batch todo => todo
  | analyzing d _ todo | storing d _ _ todo | acknowledging d _ todo => d :: todo

/-- A delivery completed with success: what its handler was handed and had read, and what came
of it. -/
structure Ack where
  consumer : String
  delivery : ClaimedDelivery
  recent : List EventRecord
  result : Except String Unit

structure World where
  stores : Stores
  correlators : List Correlator
  analyzers : List Analyzer
  acks : List Ack

inductive CorrelatorAction
  | claim (now : Instant) (locked : List Uuid) (outcome : Outcome)
  | take
  | list (rows more : List Event)
  /-- the handler fails before it has anything to persist -/
  | fail (error : String)
  /-- `existing` is what the lookup has locked, `new` the id drawn otherwise -/
  | persist (existing : Option IncidentCandidate) (new : Uuid) (outcome : Outcome)
  | complete (now : Instant) (outcome : Outcome)
  | crash

inductive AnalyzerAction
  | poll (now : Instant) (locked : List Uuid) (outcome : Outcome)
  | take
  | analyze (answer : Except String AnalysisOutput)
  /-- the request to store the analysis -/
  | store (id : Uuid) (outcome : Outcome)
  | acknowledge (now : Instant) (outcome : Outcome)
  | crash

/-- `claim_event_deliveries`, once the consumer's row is read. -/
def claim (s : Stores) (consumer : String) (limit : Int) (now : Instant) (locked : List Uuid) :
    Option (List ClaimedDelivery × Stores) :=
  match s.bus.consumers.rows.find? (fun c => c.name = consumer) with
  | none => none
  | some c =>
    let (claimed, bus) := claimEventDeliveries s.bus c limit now locked
    some (claimed, { s with bus := bus })

/-- A claim whose answer is lost leaves its deliveries `processing`. -/
def afterClaim (s : Stores) (consumer : String) (limit : Int) (now : Instant)
    (locked : List Uuid) (outcome : Outcome) : Option (Stores × Option (List ClaimedDelivery)) :=
  match outcome with
  | .failed _ => some (s, none)
  | .unacknowledged _ => (claim s consumer limit now locked).map (fun (_, s) => (s, none))
  | .committed => (claim s consumer limit now locked).map (fun (claimed, s) => (s, some claimed))

/-- The requests of a lookup that found this row, or none. -/
def FoundBy (s : Stores) (r : CorrelationPersistence) (existing : Option IncidentCandidate) : Prop :=
  ∀ c ∈ existing, c ∈ s.correlation.candidates.rows ∧ Matches r c

instance (s : Stores) (r : CorrelationPersistence) : DecidablePred (FoundBy s r)
  | none => isTrue nofun
  | some c => decidable_of_iff (c ∈ s.correlation.candidates.rows ∧ Matches r c) (by
      simp [FoundBy])

variable (window : Nat) (parseUuid : String → Option Uuid)

/-- The statement a correlator executes next, and the acknowledgement it adds. -/
def correlatorStep (s : Stores) : Correlator → CorrelatorAction →
    Option (Stores × Correlator × Option Ack)
  | .idle, .claim now locked outcome =>
    (afterClaim s "correlation" 50 now locked outcome).map (fun (s, claimed) =>
      (s, .started claimed, none))
  | .batch [], .take => some (s, .idle, none)
  | .batch (d :: todo), .take =>
    if isCorrelatable d.event.eventType then some (s, .listing d todo, none)
    else some (s, .completing d [] (.ok ()) todo, none)
  | .listing d todo, .list rows more =>
    if IsListing s.bus.events (eventRecord d.event) window rows more then
      match correlationRequest (eventRecord d.event) window (rows.map eventRecord) with
      | none => some (s, .completing d (rows.map eventRecord) (.ok ()) todo, none)
      | some r => some (s, .persisting d (rows.map eventRecord) r todo, none)
    else none
  | .batch (d :: todo), .fail error | .listing d todo, .fail error =>
    some (s, .completing d [] (.error error) todo, none)
  | .persisting d recent r todo, .persist existing new outcome =>
    if outcome.takesEffect then
      if FoundBy s r existing then
        (persistCorrelation s.correlation r existing new).map (fun (correlation, _) =>
          ({ s with correlation := correlation }, .completing d recent outcome.result todo, none))
      else none
    else some (s, .completing d recent outcome.result todo, none)
  | .completing d recent result todo, .complete now outcome =>
    match report s now d.deliveryId "correlation" result outcome with
    | none => some (s, .batch todo, none)
    | some s => some (s, .batch todo,
        if result.toBool then some ⟨"correlation", d, recent, result⟩ else none)
  | _, .crash => some (s, .idle, none)
  | _, _ => none

/-- The statement an analyzer executes next. Whatever came of the analysis, it reports success. -/
def analyzerStep (s : Stores) : Analyzer → AnalyzerAction → Option (Stores × Analyzer × Option Ack)
  | .idle, .poll now locked outcome =>
    (afterClaim s "analyzer" 10 now locked outcome).map (fun (s, claimed) =>
      (s, .started claimed, none))
  | .batch [], .take => some (s, .idle, none)
  | .batch (d :: todo), .take =>
    match analysisOf parseUuid d.event with
    | some incident => some (s, .analyzing d incident todo, none)
    | none => some (s, .acknowledging d (.ok ()) todo, none)
  | .analyzing d incident todo, .analyze answer =>
    match answer with
    | .ok output => some (s, .storing d incident output todo, none)
    | .error error => some (s, .acknowledging d (.error error) todo, none)
  | .storing d incident output todo, .store id outcome =>
    if outcome.takesEffect then
      if acceptable output then
        (storeIncidentAnalysis s id incident output).map (fun s =>
          (s, .acknowledging d outcome.result todo, none))
      else none
    else some (s, .acknowledging d outcome.result todo, none)
  | .acknowledging d result todo, .acknowledge now outcome =>
    match report s now d.deliveryId "analyzer" (.ok ()) outcome with
    | none => some (s, .batch todo, none)
    | some s => some (s, .batch todo, some ⟨"analyzer", d, [], result⟩)
  | _, .crash => some (s, .idle, none)
  | _, _ => none

/-! ## What a step can do -/

section Steps

variable {window : Nat} {parseUuid : String → Option Uuid}

inductive CorrelatorDoes (window : Nat) (s : Stores) :
    Correlator → Stores → Correlator → Option Ack → Prop
  | claims {now : Instant} {locked : List Uuid} {outcome : Outcome} {s' : Stores}
      {claimed : Option (List ClaimedDelivery)}
      (h : afterClaim s "correlation" 50 now locked outcome = some (s', claimed)) :
      CorrelatorDoes window s .idle s' (.started claimed) none
  | lists {d : ClaimedDelivery} {todo : List ClaimedDelivery} :
      CorrelatorDoes window s (.batch (d :: todo)) s (.listing d todo) none
  /-- nothing is to be persisted -/
  | passes {c : Correlator} {d : ClaimedDelivery} {recent : List EventRecord}
      {todo : List ClaimedDelivery} (hheld : c.held = d :: todo)
      (hnone : correlationRequest (eventRecord d.event) window recent = none) :
      CorrelatorDoes window s c s (.completing d recent (.ok ()) todo) none
  | requests {d : ClaimedDelivery} {recent : List EventRecord} {r : CorrelationPersistence}
      {todo : List ClaimedDelivery}
      (hsome : correlationRequest (eventRecord d.event) window recent = some r) :
      CorrelatorDoes window s (.listing d todo) s (.persisting d recent r todo) none
  | fails {c : Correlator} {d : ClaimedDelivery} {recent : List EventRecord} {error : String}
      {todo : List ClaimedDelivery} (hheld : c.held = d :: todo) :
      CorrelatorDoes window s c s (.completing d recent (.error error) todo) none
  | persists {d : ClaimedDelivery} {recent : List EventRecord} {r : CorrelationPersistence}
      {todo : List ClaimedDelivery} {existing : Option IncidentCandidate} {new candidate : Uuid}
      {correlation : Correlation.Db} {result : Except String Unit} (hfound : FoundBy s r existing)
      (h : persistCorrelation s.correlation r existing new = some (correlation, candidate)) :
      CorrelatorDoes window s (.persisting d recent r todo)
        { s with correlation := correlation } (.completing d recent result todo) none
  /-- the report failed -/
  | unreported {d : ClaimedDelivery} {recent : List EventRecord} {result : Except String Unit}
      {todo : List ClaimedDelivery} :
      CorrelatorDoes window s (.completing d recent result todo) s (.batch todo) none
  | reports {d : ClaimedDelivery} {recent : List EventRecord} {result : Except String Unit}
      {todo : List ClaimedDelivery} {now : Instant} {outcome : Outcome} {s' : Stores}
      (h : report s now d.deliveryId "correlation" result outcome = some s') :
      CorrelatorDoes window s (.completing d recent result todo) s' (.batch todo)
        (if result.toBool then some ⟨"correlation", d, recent, result⟩ else none)
  | ends {c : Correlator} : CorrelatorDoes window s c s .idle none

theorem correlatorDoes_of_step {s s' : Stores} {c c' : Correlator} {a : CorrelatorAction}
    {ack : Option Ack} (h : correlatorStep window s c a = some (s', c', ack)) :
    CorrelatorDoes window s c s' c' ack := by
  unfold correlatorStep at h
  split at h
  case h_1 =>
    obtain ⟨⟨stores, claimed⟩, hclaim, he⟩ := map_eq_some_iff.1 h
    cases he
    exact .claims hclaim
  case h_2 =>
    cases h
    exact .ends
  case h_3 d todo =>
    split at h
    case isTrue =>
      cases h
      exact .lists
    case isFalse hno =>
      cases h
      refine .passes rfl ?_
      rw [correlationRequest]
      exact if_neg hno
  case h_4 =>
    split at h
    case isFalse => cases h
    case isTrue =>
      split at h
      case h_1 hnone =>
        cases h
        exact .passes rfl hnone
      case h_2 hsome =>
        cases h
        exact .requests hsome
  case h_5 =>
    cases h
    exact .fails rfl
  case h_6 =>
    cases h
    exact .fails rfl
  case h_7 d recent r todo existing new outcome =>
    split at h
    case isTrue =>
      split at h
      case isFalse => cases h
      case isTrue hfound =>
        obtain ⟨⟨correlation, candidate⟩, hpersist, he⟩ := map_eq_some_iff.1 h
        cases he
        exact .persists hfound hpersist
    case isFalse hno =>
      cases h
      cases outcome with
      | failed error => exact .fails rfl
      | committed | unacknowledged => exact absurd rfl hno
  case h_8 =>
    split at h
    case h_1 =>
      cases h
      exact .unreported
    case h_2 hreport =>
      cases h
      exact .reports hreport
  case h_9 =>
    cases h
    exact .ends
  case h_10 => cases h

inductive AnalyzerDoes (parseUuid : String → Option Uuid) (s : Stores) :
    Analyzer → AnalyzerAction → Stores → Analyzer → Option Ack → Prop
  | polls {now : Instant} {locked : List Uuid} {outcome : Outcome} {s' : Stores}
      {claimed : Option (List ClaimedDelivery)}
      (h : afterClaim s "analyzer" 10 now locked outcome = some (s', claimed)) :
      AnalyzerDoes parseUuid s .idle (.poll now locked outcome) s' (.started claimed) none
  | asks {d : ClaimedDelivery} {incident : Uuid} {todo : List ClaimedDelivery}
      (h : analysisOf parseUuid d.event = some incident) :
      AnalyzerDoes parseUuid s (.batch (d :: todo)) .take s (.analyzing d incident todo) none
  | passes {d : ClaimedDelivery} {todo : List ClaimedDelivery}
      (h : analysisOf parseUuid d.event = none) :
      AnalyzerDoes parseUuid s (.batch (d :: todo)) .take s (.acknowledging d (.ok ()) todo) none
  | answered {d : ClaimedDelivery} {incident : Uuid} {todo : List ClaimedDelivery}
      {output : AnalysisOutput} :
      AnalyzerDoes parseUuid s (.analyzing d incident todo) (.analyze (.ok output)) s
        (.storing d incident output todo) none
  | refused {d : ClaimedDelivery} {incident : Uuid} {todo : List ClaimedDelivery}
      {error : String} :
      AnalyzerDoes parseUuid s (.analyzing d incident todo) (.analyze (.error error)) s
        (.acknowledging d (.error error) todo) none
  | stores {d : ClaimedDelivery} {incident id : Uuid} {todo : List ClaimedDelivery}
      {output : AnalysisOutput} {outcome : Outcome} {s' : Stores}
      (h : storeIncidentAnalysis s id incident output = some s') :
      AnalyzerDoes parseUuid s (.storing d incident output todo) (.store id outcome) s'
        (.acknowledging d outcome.result todo) none
  | loses {d : ClaimedDelivery} {incident id : Uuid} {todo : List ClaimedDelivery}
      {output : AnalysisOutput} {error : String} :
      AnalyzerDoes parseUuid s (.storing d incident output todo) (.store id (.failed error)) s
        (.acknowledging d (.error error) todo) none
  | unreported {d : ClaimedDelivery} {result : Except String Unit} {todo : List ClaimedDelivery}
      {now : Instant} {outcome : Outcome} :
      AnalyzerDoes parseUuid s (.acknowledging d result todo) (.acknowledge now outcome) s
        (.batch todo) none
  | reports {d : ClaimedDelivery} {result : Except String Unit} {todo : List ClaimedDelivery}
      {now : Instant} {outcome : Outcome} {s' : Stores}
      (h : report s now d.deliveryId "analyzer" (.ok ()) outcome = some s') :
      AnalyzerDoes parseUuid s (.acknowledging d result todo) (.acknowledge now outcome) s'
        (.batch todo) (some ⟨"analyzer", d, [], result⟩)
  | ends {c : Analyzer} {a : AnalyzerAction} : AnalyzerDoes parseUuid s c a s .idle none

theorem analyzerDoes_of_step {s s' : Stores} {c c' : Analyzer} {a : AnalyzerAction}
    {ack : Option Ack} (h : analyzerStep parseUuid s c a = some (s', c', ack)) :
    AnalyzerDoes parseUuid s c a s' c' ack := by
  unfold analyzerStep at h
  split at h
  case h_1 =>
    obtain ⟨⟨stores, claimed⟩, hclaim, he⟩ := map_eq_some_iff.1 h
    cases he
    exact .polls hclaim
  case h_2 =>
    cases h
    exact .ends
  case h_3 =>
    split at h
    case h_1 hsome =>
      cases h
      exact .asks hsome
    case h_2 hnone =>
      cases h
      exact .passes hnone
  case h_4 =>
    split at h
    · cases h
      exact .answered
    · cases h
      exact .refused
  case h_5 d incident output todo id outcome =>
    split at h
    case isTrue =>
      split at h
      case isFalse => cases h
      case isTrue =>
        obtain ⟨stores, hstore, he⟩ := map_eq_some_iff.1 h
        cases he
        exact .stores hstore
    case isFalse hno =>
      cases h
      cases outcome with
      | failed error => exact .loses
      | committed | unacknowledged => exact absurd rfl hno
  case h_6 =>
    split at h
    case h_1 =>
      cases h
      exact .unreported
    case h_2 hreport =>
      cases h
      exact .reports hreport
  case h_7 =>
    cases h
    exact .ends
  case h_8 => cases h

end Steps

/-! ## The system -/

inductive Action
  | tick (elapsed : Nat)
  | ensure (newId : Uuid) (name : String)
  | publish (eventId : Uuid) (newId : Uuid → Uuid) (e : NewEvent)
  | incident (id : Uuid)
  /-- `promote_incident_candidates` reaches the candidate -/
  | promote (candidate : Uuid)
  | correlator (k : Nat) (a : CorrelatorAction)
  | analyzer (k : Nat) (a : AnalyzerAction)

def World.setBus (w : World) (bus : EventStore) : World :=
  { w with stores := { w.stores with bus := bus } }

def World.setCorrelation (w : World) (correlation : Correlation.Db) : World :=
  { w with stores := { w.stores with correlation := correlation } }

def World.setIncidents (w : World) (incidents : List Uuid) : World :=
  { w with stores := { w.stores with incidents := incidents } }

def World.setCorrelator (w : World) (k : Nat) (s : Stores) (c : Correlator) (ack : Option Ack) :
    World :=
  { w with stores := s, correlators := w.correlators.set k c, acks := w.acks ++ ack.toList }

def World.setAnalyzer (w : World) (k : Nat) (s : Stores) (c : Analyzer) (ack : Option Ack) :
    World :=
  { w with stores := s, analyzers := w.analyzers.set k c, acks := w.acks ++ ack.toList }

def exec (w : World) : Action → Option World
  | .tick elapsed =>
    some (w.setBus { w.stores.bus with now := w.stores.bus.now + elapsed })
  | .ensure newId name =>
    (ensureEventConsumer w.stores.bus w.stores.bus.now newId name).map w.setBus
  | .publish eventId newId e =>
    (publishEvent w.stores.bus w.stores.bus.now eventId newId e).map (fun r => w.setBus r.2)
  | .incident id => some (w.setIncidents (id :: w.stores.incidents))
  | .promote candidate =>
    some (w.setCorrelation
      (updateCandidate w.stores.correlation candidate promoteRow id_promoteRow))
  | .correlator k a =>
    (w.correlators[k]?).bind (fun c => (correlatorStep window w.stores c a).map
      (fun (s, c, ack) => w.setCorrelator k s c ack))
  | .analyzer k a =>
    (w.analyzers[k]?).bind (fun c => (analyzerStep parseUuid w.stores c a).map
      (fun (s, c, ack) => w.setAnalyzer k s c ack))

/-- Nothing delivered yet, and any number of loops about to start. -/
def Initial (w : World) : Prop :=
  w.stores.bus.deliveries = Table.empty _ ∧ w.acks = [] ∧
    (∃ n, w.correlators = List.replicate n .idle) ∧ ∃ n, w.analyzers = List.replicate n .idle

def loopSystem : TSys World Action := TSys.ofExec Initial (exec window parseUuid)

end Clawforge.EventConsumers

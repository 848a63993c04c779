import Clawforge.Storage.CorrelationSessions
import Clawforge.Storage.EventDelivery
import Clawforge.Storage.Incidents

/-!
# Correlation, promotion and status changes side by side

Any number of connections run `persist_correlation`, `promote_incident_candidates` and
`transition_incident_status`. A promotion scans the open candidates and skips locked ones,
reads statement by statement what is committed by then, and its writes appear at commit; what
it has to announce is announced afterwards. A status change locks its incident.
-/

namespace Clawforge.Incidents

open Correlation Kit Table List Option

/-! ## Sessions -/

/-- What a promotion tells operators about an incident after its commit. -/
structure Announcement where
  incident : Uuid
  severity : IncidentSeverity
  summary : String
  confidence : Int
  escalated : Bool
deriving DecidableEq

/-- Where a promotion is with its current candidate. -/
inductive Stage
  | next
  /-- `SELECT … FROM incidents WHERE candidate_id` has returned -/
  | found (c : IncidentCandidate) (existing : Option IncidentRow)
  /-- the incident is written -/
  | owned (p : Promotion)
  /-- `event_rows` that are not yet linked -/
  | linking (p : Promotion) (events : List Uuid)

/-- A `promote_incident_candidates` call. -/
inductive Promoter
  | idle
  /-- `FOR UPDATE SKIP LOCKED LIMIT` under way: the rest of the snapshot, and the rows locked -/
  | selecting (start : Instant) (limit : Nat) (rows held : List IncidentCandidate)
  | working (start : Instant) (done : List Promotion) (stage : Stage)
      (todo : List IncidentCandidate)
  | announcing (queue : List Announcement)

/-- A `transition_incident_status` call that has its incident's lock and a change to make. -/
inductive Operator
  | idle
  | holding (start : Instant) (incident : Uuid) (current next : IncidentStatus)
      (changedBy reason : String)

def Stage.candidate : Stage → List IncidentCandidate
  | next => []
  | found c _ => [c]
  | owned p | linking p _ => [p.candidate]

/-- The candidates a promotion has locked. -/
def Promoter.held : Promoter → List IncidentCandidate
  | idle | announcing _ => []
  | selecting _ _ _ held => held
  | working _ done stage todo => done.map Promotion.candidate ++ stage.candidate ++ todo

def Promoter.locks (p : Promoter) : List Uuid := p.held.map IncidentCandidate.id

def Operator.lock : Operator → Option Uuid
  | idle => none
  | holding _ incident _ _ _ _ => some incident

structure World where
  db : Db
  correlators : List Session
  promoters : List Promoter
  operators : List Operator

/-! ## Promotions -/

/-- The open candidates in an order `ORDER BY last_seen ASC` admits. -/
def IsOpenScan (db : Db) (rows : List IncidentCandidate) : Prop :=
  rows.Perm (db.correlation.candidates.rows.filter (fun c => c.status = .opened)) ∧
    rows.Pairwise (fun c d => c.lastSeen ≤ d.lastSeen)

instance (db : Db) : DecidablePred (IsOpenScan db) :=
  fun _ => inferInstanceAs (Decidable (_ ∧ _))

/-- `SELECT event_id … FROM incident_candidate_events WHERE candidate_id`. -/
def eventsOf (db : Db) (candidate : Uuid) : List Uuid :=
  (db.correlation.candidateEvents.rows.filter (fun e => e.1 = candidate)).map Prod.snd

/-- Some transaction has locked the candidate. -/
def candidateLocked (w : World) (id : Uuid) : Bool :=
  w.correlators.any (fun s => s.lock = some id) || w.promoters.any (fun p => p.locks.contains id)

/-- The incident of a candidate that has none, or the one it has. -/
def ownerOf (c : IncidentCandidate) (id : Uuid) : Option IncidentRow → Owner
  | none => .created (incidentRow c id)
  | some row => .existing row

/-- `NOT EXISTS` sees the committed relations and the transaction's own. Those of its other
candidates belong to other incidents. -/
def linkEvent (db : Db) (p : Promotion) (event : Uuid) : Promotion :=
  if (db.relations ++ p.relations).any (links p.owner.row.id event) then p
  else { p with relations := p.relations ++ [linkRow p.candidate p.owner.row.id event] }

/-- The relations besides the events: the relationships of the candidate, and the indicators
its key names. -/
def otherRelations (db : Db) (p : Promotion) (indicators : List Nat) : List RelationRow :=
  (db.correlation.relationships.rows.filter (fun r => r.candidateId = some p.candidate.id)).map
      (relationshipRelation p.owner.row.id) ++
    indicators.map (indicatorRelation p.candidate p.owner.row.id)

def relate (db : Db) (p : Promotion) (indicators : List Nat) : Promotion :=
  { p with relations :=
      (otherRelations db p indicators).foldl (addUnlessConflicting db.relations) p.relations }

def createdAnnouncement (p : Promotion) : Option Announcement :=
  match p.owner with
  | .created row => some ⟨row.id, row.severity, row.summary, row.confidence, false⟩
  | .existing _ => none

def escalatedAnnouncement (p : Promotion) : Option Announcement :=
  match p.owner with
  | .created _ => none
  | .existing row =>
    if escalates p.candidate row then
      some ⟨row.id, p.candidate.severity, p.candidate.summary, clamp100 p.candidate.confidence,
        true⟩
    else none

/-- `newly_created`, and then `escalated`. -/
def announcements (done : List Promotion) : List Announcement :=
  done.filterMap createdAnnouncement ++ done.filterMap escalatedAnnouncement

inductive PromoterAction
  | select (start : Instant) (limit : Int) (rows : List IncidentCandidate)
  /-- the scan reaches its next row -/
  | pick
  /-- the scan has enough rows, or no more -/
  | proceed
  | find
  /-- `id` is drawn for an incident of its own -/
  | write (id : Uuid)
  | readEvents (events : List Uuid)
  | link
  | relate (indicators : List Nat)
  | commit
  /-- the head of the queue is announced -/
  | announced
  /-- an error or a crash -/
  | abort
deriving DecidableEq

/-- What one statement of a promotion leaves committed, and of its session. -/
def promoterStep (w : World) : Promoter → PromoterAction → Option (Db × Promoter)
  | .idle, .select start limit rows =>
    if IsOpenScan w.db rows then
      some (w.db, .selecting start (EventDelivery.clampLimit limit) rows [])
    else none
  | .selecting start limit (c :: rows) held, .pick =>
    if held.length < limit then
      if candidateLocked w c.id then some (w.db, .selecting start limit rows held)
      else
        -- the row as committed meanwhile has to be open still
        match w.db.correlation.candidates.get? c.id with
        | some now =>
          if now.status = .opened then
            some (w.db, .selecting start limit rows (held ++ [now]))
          else some (w.db, .selecting start limit rows held)
        | none => some (w.db, .selecting start limit rows held)
    else none
  | .selecting start limit rows held, .proceed =>
    if rows = [] ∨ limit ≤ held.length then some (w.db, .working start [] .next held) else none
  | .working start done .next (c :: todo), .find =>
    some (w.db, .working start done (.found c (incidentOf w.db c.id)) todo)
  | .working start done (.found c existing) todo, .write id =>
    some (w.db, .working start done (.owned ⟨c, ownerOf c id existing, []⟩) todo)
  | .working start done (.owned p) todo, .readEvents events =>
    if events.Perm (eventsOf w.db p.candidate.id) then
      some (w.db, .working start done (.linking p events) todo)
    else none
  | .working start done (.linking p (event :: events)) todo, .link =>
    some (w.db, .working start done (.linking (linkEvent w.db p event) events) todo)
  | .working start done (.linking p []) todo, .relate indicators =>
    if indicators = [] ∨ Text.startsWith p.candidate.correlationKey "indicator:" then
      some (w.db, .working start (done ++ [relate w.db p indicators]) .next todo)
    else none
  | .working start done .next [], .commit =>
    (done.foldlM (writePromotion start) w.db).map (fun db =>
      (db, .announcing (announcements done)))
  | .announcing (_ :: queue), .announced => some (w.db, .announcing queue)
  | .announcing [], .announced => some (w.db, .idle)
  | _, .abort => some (w.db, .idle)
  | _, _ => none

/-! ## Status changes -/

/-- `transition_incident_status` before its transaction: the canonical status and the reason. -/
def requestedStatus (requested reason : String) : Except String (IncidentStatus × String) :=
  match canonicalIncidentStatus requested with
  | none => .error "invalid incident status"
  | some next =>
    let reason := String.ofList (Text.trim reason.toList)
    if 1000 < reason.utf8ByteSize then .error "incident status reason is too long"
    else .ok (next, reason)

/-- With the row's lock: the status to change from, if there is anything to change. -/
def requestedChange (db : Db) (incident : Uuid) (next : IncidentStatus) :
    Except String (Option IncidentStatus) :=
  match db.incidents.get? incident with
  | none => .error "incident not found"
  | some row =>
    if row.status = next then .ok none
    else if incidentStatusTransitionAllowed row.status next then .ok (some row.status)
    else .error "incident status transition is not allowed"

inductive OperatorAction
  | request (start : Instant) (incident : Uuid) (status changedBy reason : String)
  | commit
  | abort
deriving DecidableEq

def operatorStep (w : World) : Operator → OperatorAction → Option (Db × Operator)
  | .idle, .request start incident status changedBy reason =>
    match requestedStatus status reason with
    | .error _ => some (w.db, .idle)
    | .ok (next, reason) =>
      -- `FOR UPDATE` waits for the row
      if ∀ o ∈ w.operators, o.lock ≠ some incident then
        match requestedChange w.db incident next with
        | .ok (some current) =>
          some (w.db, .holding start incident current next changedBy reason)
        | .ok none | .error _ => some (w.db, .idle)
      else none
  | .holding start incident current next changedBy reason, .commit =>
    some (writeTransition w.db start incident current next changedBy reason, .idle)
  | _, .abort => some (w.db, .idle)
  | _, _ => none

/-! ## The system -/

inductive Action
  | correlate (a : Correlation.Action)
  | promote (k : Nat) (a : PromoterAction)
  | operate (k : Nat) (a : OperatorAction)

/-- A lookup waits for a row that a promotion has locked. -/
def correlatorWaits (w : World) : Correlation.Action → Bool
  | .lock k =>
    ((w.correlators[k]?).bind Session.target).any (fun id =>
      w.promoters.any (fun p => p.locks.contains id))
  | .promote _ => true
  | _ => false

def World.setCorrelators (w : World) (corr : Correlation.Db) (correlators : List Session) : World :=
  { w with db := { w.db with correlation := corr }, correlators := correlators }

def World.setPromoter (w : World) (k : Nat) (db : Db) (p : Promoter) : World :=
  { w with db := db, promoters := w.promoters.set k p }

def World.setOperator (w : World) (k : Nat) (db : Db) (o : Operator) : World :=
  { w with db := db, operators := w.operators.set k o }

def exec (w : World) : Action → Option World
  | .correlate a =>
    if correlatorWaits w a then none
    else (Correlation.exec ⟨w.db.correlation, w.correlators, []⟩ a).map (fun c =>
      w.setCorrelators c.db c.sessions)
  | .promote k a =>
    (w.promoters[k]?).bind (fun p => (promoterStep w p a).map (fun (db, p) =>
      w.setPromoter k db p))
  | .operate k a =>
    (w.operators[k]?).bind (fun o => (operatorStep w o a).map (fun (db, o) =>
      w.setOperator k db o))

/-- Empty tables, and any number of connections without a transaction. -/
def Initial (w : World) : Prop :=
  w.db.correlation.candidates = Table.empty _ ∧ w.db.incidents = Table.empty _ ∧
    w.db.history = [] ∧ w.db.relations = [] ∧
    (∃ n, w.correlators = List.replicate n .idle) ∧
    (∃ n, w.promoters = List.replicate n .idle) ∧
    ∃ n, w.operators = List.replicate n .idle

def incidentSystem : TSys World Action := TSys.ofExec Initial exec

/-! ## What a step can do -/

inductive Party
  | correlator (k : Nat)
  | promoter (k : Nat)

theorem Party.promoter_ne_correlator {j k : Nat} : Party.promoter j ≠ .correlator k := by
  intro heq
  cases heq

/-- The candidates a transaction has locked. -/
def locksOf (w : World) : Party → List Uuid
  | .correlator k => ((w.correlators[k]?).bind Session.lock).toList
  | .promoter k => ((w.promoters[k]?).map Promoter.locks).getD []

theorem not_mem_locksOf {w : World} {id : Uuid} (hcorrelators : ∀ s ∈ w.correlators, s.lock ≠ some id)
    (hpromoters : ∀ p ∈ w.promoters, id ∉ p.locks) (i : Party) : id ∉ locksOf w i := by
  intro hmem
  cases i with
  | correlator k =>
    obtain ⟨s, hs, hlock⟩ := bind_eq_some_iff.1 (mem_toList.1 hmem)
    exact hcorrelators s (mem_of_getElem? hs) hlock
  | promoter k =>
    cases hk : w.promoters[k]? with
    | none => simp [locksOf, hk] at hmem
    | some p =>
      simp only [locksOf, hk, map_some, getD_some] at hmem
      exact hpromoters p (mem_of_getElem? hk) hmem

/-- A step of a correlation: what it leaves of the tables, and of its session. -/
inductive Correlates (w : World) (k : Nat) : Correlation.Db → Session → Prop
  | waits {s : Session} (h : s.lock = none) : Correlates w k w.db.correlation s
  | locks {r : CorrelationPersistence} {rows : List IncidentCandidate} {c : IncidentCandidate}
      (hslot : w.correlators[k]? = some (.scanning r rows))
      (hc : c ∈ w.db.correlation.candidates) (hfree : ∀ i, c.id ∉ locksOf w i) :
      Correlates w k w.db.correlation (.holding r c)
  | commits {r : CorrelationPersistence} {existing : Option IncidentCandidate}
      {new candidate : Uuid} {corr : Correlation.Db}
      (hheld : ∀ c ∈ existing, w.correlators[k]? = some (.holding r c))
      (hp : Persisted w.db.correlation r existing new corr candidate) : Correlates w k corr .idle

theorem correlate_eq_some {w w' : World} {a : Correlation.Action}
    (h : exec w (.correlate a) = some w') : ∃ k s corr,
      w' = w.setCorrelators corr (w.correlators.set k s) ∧ Correlates w k corr s := by
  simp only [exec] at h
  split at h
  case isTrue => cases h
  case isFalse hwaits =>
    obtain ⟨c, hc, rfl⟩ := map_eq_some_iff.1 h
    cases a with
    | lookup k r rows =>
      obtain ⟨-, rfl⟩ := lookup_eq_some hc
      exact ⟨k, _, _, rfl, .waits rfl⟩
    | lock k =>
      obtain ⟨r, row, rest, s, hk, rfl, hs⟩ := lock_eq_some hc
      have hk' : w.correlators[k]? = some (.scanning r (row :: rest)) := hk
      rcases hs with ⟨now, hnow, rfl⟩ | ⟨rfl, -⟩
      · have hid : now.id = row.id := key_of_get? hnow
        refine ⟨k, _, _, rfl, .locks hk (mem_of_get? hnow) (not_mem_locksOf ?_ ?_)⟩
        · rw [hid]
          exact lock_free hc hk
        · intro p hp hmem
          refine hwaits ?_
          simp only [correlatorWaits, hk', bind_some, Session.target, head?_cons,
            map_some, any_some, List.any_eq_true, contains_iff_mem]
          exact ⟨p, hp, hid ▸ hmem⟩
      · exact ⟨k, _, _, rfl, .waits rfl⟩
    | commit k new =>
      simp only [Correlation.exec] at hc
      split at hc
      case h_2 => cases hc
      case h_1 s hk =>
        obtain ⟨⟨r, corr, candidate⟩, hw, rfl⟩ := map_eq_some_iff.1 hc
        obtain ⟨existing, -, -, hheld, hp⟩ := commitWrites_eq_some hw
        refine ⟨k, _, _, rfl, .commits (fun x hx => ?_) hp⟩
        rw [← hheld x hx]
        exact hk
    | abort k =>
      cases hc
      exact ⟨k, _, _, rfl, .waits rfl⟩
    | promote id => exact absurd rfl hwaits

/-- A statement of a promotion. -/
inductive Promotes (w : World) : Promoter → Db → Promoter → Prop
  | select {start : Instant} {limit : Nat} {rows : List IncidentCandidate} :
      Promotes w .idle w.db (.selecting start limit rows [])
  | pass {start : Instant} {limit : Nat} {c : IncidentCandidate}
      {rows held : List IncidentCandidate} :
      Promotes w (.selecting start limit (c :: rows) held) w.db (.selecting start limit rows held)
  | pick {start : Instant} {limit : Nat} {c now : IncidentCandidate}
      {rows held : List IncidentCandidate} (hnow : now ∈ w.db.correlation.candidates)
      (hopen : now.status = .opened) (hfree : ∀ i, now.id ∉ locksOf w i) :
      Promotes w (.selecting start limit (c :: rows) held) w.db
        (.selecting start limit rows (held ++ [now]))
  | proceed {start : Instant} {limit : Nat} {rows held : List IncidentCandidate} :
      Promotes w (.selecting start limit rows held) w.db (.working start [] .next held)
  | find {start : Instant} {done : List Promotion} {c : IncidentCandidate}
      {todo : List IncidentCandidate} :
      Promotes w (.working start done .next (c :: todo)) w.db
        (.working start done (.found c (incidentOf w.db c.id)) todo)
  | write {start : Instant} {done : List Promotion} {c : IncidentCandidate}
      {existing : Option IncidentRow} {todo : List IncidentCandidate} {id : Uuid} :
      Promotes w (.working start done (.found c existing) todo) w.db
        (.working start done (.owned ⟨c, ownerOf c id existing, []⟩) todo)
  | readEvents {start : Instant} {done : List Promotion} {p : Promotion}
      {todo : List IncidentCandidate} {events : List Uuid}
      (hevents : events.Perm (eventsOf w.db p.candidate.id)) :
      Promotes w (.working start done (.owned p) todo) w.db
        (.working start done (.linking p events) todo)
  | link {start : Instant} {done : List Promotion} {p : Promotion}
      {todo : List IncidentCandidate} {event : Uuid} {events : List Uuid} :
      Promotes w (.working start done (.linking p (event :: events)) todo) w.db
        (.working start done (.linking (linkEvent w.db p event) events) todo)
  | relate {start : Instant} {done : List Promotion} {p : Promotion}
      {todo : List IncidentCandidate} {indicators : List Nat} :
      Promotes w (.working start done (.linking p []) todo) w.db
        (.working start (done ++ [relate w.db p indicators]) .next todo)
  | commit {start : Instant} {done : List Promotion} {db : Db}
      (hwrites : done.foldlM (writePromotion start) w.db = some db) :
      Promotes w (.working start done .next []) db (.announcing (announcements done))
  | announced {announcement : Announcement} {queue : List Announcement} :
      Promotes w (.announcing (announcement :: queue)) w.db (.announcing queue)
  | ends {p : Promoter} : Promotes w p w.db .idle

theorem promotes_of_promoterStep {w : World} {p p' : Promoter} {a : PromoterAction} {db : Db}
    (h : promoterStep w p a = some (db, p')) : Promotes w p db p' := by
  unfold promoterStep at h
  split at h
  case h_1 =>
    split at h <;> cases h
    exact .select
  case h_2 start limit c rows held =>
    split at h
    case isFalse => cases h
    case isTrue =>
      split at h
      case isTrue =>
        cases h
        exact .pass
      case isFalse hlocked =>
        split at h
        case h_2 =>
          cases h
          exact .pass
        case h_1 now hnow =>
          split at h
          case isFalse =>
            cases h
            exact .pass
          case isTrue hopen =>
            cases h
            have hid : now.id = c.id := key_of_get? hnow
            simp only [candidateLocked, Bool.or_eq_true, List.any_eq_true, not_or, not_exists,
              not_and, decide_eq_true_eq, contains_iff_mem] at hlocked
            refine .pick (mem_of_get? hnow) hopen (not_mem_locksOf ?_ ?_)
            · rw [hid]
              exact hlocked.1
            · rw [hid]
              exact hlocked.2
  case h_3 =>
    split at h <;> cases h
    exact .proceed
  case h_4 =>
    cases h
    exact .find
  case h_5 =>
    cases h
    exact .write
  case h_6 =>
    split at h <;> cases h
    exact .readEvents (by assumption)
  case h_7 =>
    cases h
    exact .link
  case h_8 =>
    split at h <;> cases h
    exact .relate
  case h_9 =>
    obtain ⟨x, hx, he⟩ := map_eq_some_iff.1 h
    cases he
    exact .commit hx
  case h_10 =>
    cases h
    exact .announced
  case h_11 =>
    cases h
    exact .ends
  case h_12 =>
    cases h
    exact .ends
  case h_13 => cases h

/-- A statement of a status change. -/
inductive Operates (w : World) : Operator → Db → Operator → Prop
  | hold {start : Instant} {incident : Uuid} {next : IncidentStatus} {changedBy reason : String}
      {row : IncidentRow} (hfree : ∀ o ∈ w.operators, o.lock ≠ some incident)
      (hrow : w.db.incidents.get? incident = some row)
      (hallowed : incidentStatusTransitionAllowed row.status next = true) :
      Operates w .idle w.db (.holding start incident row.status next changedBy reason)
  | commit {start : Instant} {incident : Uuid} {current next : IncidentStatus}
      {changedBy reason : String} :
      Operates w (.holding start incident current next changedBy reason)
        (writeTransition w.db start incident current next changedBy reason) .idle
  | ends {o : Operator} : Operates w o w.db .idle

theorem requestedChange_eq_some {db : Db} {incident : Uuid} {current next : IncidentStatus}
    (h : requestedChange db incident next = .ok (some current)) :
    ∃ row, db.incidents.get? incident = some row ∧ row.status = current ∧
      incidentStatusTransitionAllowed current next = true := by
  unfold requestedChange at h
  split at h
  · cases h
  · split at h
    · cases h
    · split at h
      · cases h
        exact ⟨_, by assumption, rfl, by assumption⟩
      · cases h

theorem operates_of_operatorStep {w : World} {o o' : Operator} {a : OperatorAction} {db : Db}
    (h : operatorStep w o a = some (db, o')) : Operates w o db o' := by
  unfold operatorStep at h
  split at h
  case h_1 =>
    split at h
    case h_1 =>
      cases h
      exact .ends
    case h_2 =>
      split at h
      case isFalse => cases h
      case isTrue hfree =>
        split at h
        case h_1 hchange =>
          cases h
          obtain ⟨row, hrow, rfl, hallowed⟩ := requestedChange_eq_some hchange
          exact .hold hfree hrow hallowed
        case h_2 =>
          cases h
          exact .ends
        case h_3 =>
          cases h
          exact .ends
  case h_2 =>
    cases h
    exact .commit
  case h_3 =>
    cases h
    exact .ends
  case h_4 => cases h

end Clawforge.Incidents

import Clawforge.Kit.TSys
import Clawforge.Kit.Table
import Clawforge.Values

/-!
# Incident candidates

`persist_correlation` over the tables `incident_candidates`,
`incident_candidate_events` and `event_relationships`, first as a function of the
committed tables and then as transactions at read committed: the lookup reads a
snapshot, waits for the lock of the row it has chosen and checks that row once
more, and the writes that follow appear at commit. The lookup's rows come in any
order that `ORDER BY last_seen DESC` admits.
-/

namespace Clawforge.Correlation

open Kit Table List Option

/-! ## Tables -/

inductive IncidentSeverity
  | info | low | medium | high | critical
deriving DecidableEq

inductive CandidateStatus
  | opened | promoted | dismissed
deriving DecidableEq

structure IncidentCandidate where
  id : Uuid
  status : CandidateStatus
  correlationKey : String
  confidence : Int
  severity : IncidentSeverity
  firstSeen : Instant
  lastSeen : Instant
  eventCount : Nat
  summary : String
deriving DecidableEq

structure RelationshipRow where
  eventId : Uuid
  relatedEventId : Uuid
  candidateId : Option Uuid
  relationType : String
  confidence : Int
  reason : String
deriving DecidableEq

/-- `UNIQUE (event_id, related_event_id, relation_type)`. -/
def RelationshipRow.key (r : RelationshipRow) : Uuid × Uuid × String :=
  (r.eventId, r.relatedEventId, r.relationType)

structure Db where
  candidates : Table IncidentCandidate.id
  /-- pairs of a candidate and an event, both the primary key -/
  candidateEvents : Table (id : Uuid × Uuid → Uuid × Uuid)
  relationships : Table RelationshipRow.key
  /-- `candidate_id REFERENCES incident_candidates(id)` -/
  references : ∀ e ∈ candidateEvents, (candidates.get? e.1).isSome

/-! ## Requests -/

structure EventRelationship where
  eventId : Uuid
  relatedEventId : Uuid
  relationType : String
  confidence : Int
  reason : String
  /-- an event is never matched against itself -/
  distinct : eventId ≠ relatedEventId
deriving DecidableEq

structure CorrelationPersistence where
  correlationKey : String
  confidence : Int
  severity : IncidentSeverity
  summary : String
  firstSeen : Instant
  lastSeen : Instant
  window : Nat
  eventIds : List Uuid
  relationships : List EventRelationship
  /-- the callers take the least and the greatest time of their events -/
  ordered : firstSeen ≤ lastSeen
deriving DecidableEq

namespace CorrelationPersistence

/-- Two spans are at most the window apart, whichever of them is the later. -/
def Near (a b : CorrelationPersistence) : Prop :=
  a.firstSeen ≤ b.lastSeen + min a.window b.window ∧
    b.firstSeen ≤ a.lastSeen + min a.window b.window

instance : DecidableRel Near := fun _ _ => inferInstanceAs (Decidable (_ ∧ _))

theorem Near.symm {a b : CorrelationPersistence} (h : Near a b) : Near b a := by
  unfold Near at *
  rw [min_comm]
  exact ⟨h.2, h.1⟩

theorem near_refl (a : CorrelationPersistence) : Near a a :=
  ⟨a.ordered.trans (Nat.le_add_right _ _), a.ordered.trans (Nat.le_add_right _ _)⟩

/-- `clamp(0, 100)`. -/
def confidence100 (r : CorrelationPersistence) : Int := min (max r.confidence 0) 100

end CorrelationPersistence

/-! ## The lookup -/

def rank : IncidentSeverity → Nat
  | .critical => 5
  | .high => 4
  | .medium => 3
  | .low => 2
  | .info => 1

theorem rank_injective : Function.Injective rank := by
  intro a b h
  cases a <;> cases b <;> first | rfl | cases h

def maxIncidentSeverity (current incoming : IncidentSeverity) : IncidentSeverity :=
  if rank incoming > rank current then incoming else current

theorem rank_maxIncidentSeverity (a b : IncidentSeverity) :
    rank (maxIncidentSeverity a b) = max (rank a) (rank b) := by
  unfold maxIncidentSeverity
  split <;> omega

/-- `status IN ('open','promoted')`. -/
def IncidentCandidate.live (c : IncidentCandidate) : Bool :=
  c.status = .opened || c.status = .promoted

/-- The lookup's condition. -/
def Matches (r : CorrelationPersistence) (c : IncidentCandidate) : Prop :=
  c.correlationKey = r.correlationKey ∧ c.live ∧ r.firstSeen - r.window ≤ c.lastSeen

instance (r : CorrelationPersistence) : DecidablePred (Matches r) :=
  fun _ => inferInstanceAs (Decidable (_ ∧ _ ∧ _))

/-- The rows of the lookup in an order `ORDER BY last_seen DESC` admits. -/
def IsScan (db : Db) (r : CorrelationPersistence) (rows : List IncidentCandidate) : Prop :=
  rows.Perm (db.candidates.rows.filter (fun c => Matches r c)) ∧
    rows.Pairwise (fun c d => d.lastSeen ≤ c.lastSeen)

instance (db : Db) (r : CorrelationPersistence) : DecidablePred (IsScan db r) :=
  fun _ => inferInstanceAs (Decidable (_ ∧ _))

variable {c : IncidentCandidate} {db : Db} {candidate : Uuid} {existing : Option IncidentCandidate}
  {db' : Db}

theorem IsScan.mem_iff {r : CorrelationPersistence} {rows : List IncidentCandidate}
    (h : IsScan db r rows) : c ∈ rows ↔ c ∈ db.candidates ∧ Matches r c := by
  rw [h.1.mem_iff, mem_filter, decide_eq_true_iff]
  rfl

/-- The first row of a lookup is stored, matches, and no match ends after it. -/
theorem IsScan.head {r : CorrelationPersistence} {rows : List IncidentCandidate}
    (h : IsScan db r rows) (hc : rows.head? = some c) :
    c ∈ db.candidates ∧ Matches r c ∧
      ∀ d ∈ db.candidates, Matches r d → d.lastSeen ≤ c.lastSeen := by
  obtain ⟨rest, hrows⟩ : ∃ rest, rows = c :: rest := by
    cases rows with
    | nil => cases hc
    | cons x rest => cases hc; exact ⟨rest, rfl⟩
  have hmem : c ∈ rows := hrows ▸ mem_cons_self
  obtain ⟨hstored, hmatch⟩ := h.mem_iff.1 hmem
  refine ⟨hstored, hmatch, fun d hd hdm => ?_⟩
  have hd' : d ∈ rows := h.mem_iff.2 ⟨hd, hdm⟩
  rw [hrows] at hd'
  rcases mem_cons.1 hd' with rfl | hrest
  · exact le_refl _
  · have hsorted := h.2
    rw [hrows] at hsorted
    exact (pairwise_cons.1 hsorted).1 d hrest

/-! ## The writes -/

/-- `UPDATE incident_candidates`, with the severity taken from the row as read. -/
def extendRow (r : CorrelationPersistence) (severity : IncidentSeverity)
    (c : IncidentCandidate) : IncidentCandidate :=
  { c with
    status := .opened
    confidence := max c.confidence r.confidence100
    severity := maxIncidentSeverity severity r.severity
    firstSeen := min c.firstSeen r.firstSeen
    lastSeen := max c.lastSeen r.lastSeen
    summary := r.summary }

theorem id_extendRow (r : CorrelationPersistence) (severity : IncidentSeverity)
    (c : IncidentCandidate) : (extendRow r severity c).id = c.id := rfl

/-- `INSERT INTO incident_candidates`. -/
def insertRow (r : CorrelationPersistence) (id : Uuid) : IncidentCandidate where
  id := id
  status := .opened
  correlationKey := r.correlationKey
  confidence := r.confidence100
  severity := r.severity
  firstSeen := r.firstSeen
  lastSeen := r.lastSeen
  eventCount := 0
  summary := r.summary

/-- `UPDATE incident_candidates … WHERE id = candidate`. -/
def updateCandidate (db : Db) (candidate : Uuid) (f : IncidentCandidate → IncidentCandidate)
    (hf : ∀ c, (f c).id = c.id) : Db :=
  { db with
    candidates := db.candidates.updateWhere (fun c => c.id = candidate) f hf
    references := fun e he => by
      rw [get?_updateWhere, isSome_map]
      exact db.references e he }

theorem get?_updateCandidate (db : Db) (candidate : Uuid)
    (f : IncidentCandidate → IncidentCandidate) (hf : ∀ c, (f c).id = c.id) (k : Uuid) :
    (updateCandidate db candidate f hf).candidates.get? k =
      (db.candidates.get? k).map (fun c => if c.id = candidate then f c else c) := by
  unfold updateCandidate
  rw [get?_updateWhere]

/-- `INSERT INTO incident_candidates`, refused where the id is taken. -/
def insertCandidate (db : Db) (row : IncidentCandidate) : Option Db :=
  match h : db.candidates.insert? row with
  | none => none
  | some candidates => some
      { db with
        candidates := candidates
        references := fun e he => by
          rw [get?_insert? h]
          split
          · rfl
          · exact db.references e he }

/-- `INSERT INTO incident_candidate_events … ON CONFLICT DO NOTHING`. -/
def linkEvent (events : Table (id : Uuid × Uuid → Uuid × Uuid)) (candidate event : Uuid) :
    Table (id : Uuid × Uuid → Uuid × Uuid) :=
  events.insertOrIgnore (candidate, event)

theorem mem_linkEvent {events : Table (id : Uuid × Uuid → Uuid × Uuid)} {event : Uuid}
    {e : Uuid × Uuid} :
    e ∈ linkEvent events candidate event ↔ e ∈ events ∨ e = (candidate, event) := by
  unfold linkEvent
  constructor
  · exact mem_insertOrIgnore
  · rintro (he | rfl)
    · exact mem_insertOrIgnore_of_mem he
    · cases hi : events.insert? (candidate, event) with
      | some T =>
        rw [Table.insertOrIgnore, hi]
        exact (mem_insert? hi).2 (.inr rfl)
      | none =>
        -- the conflict is with the pair itself
        have hno : (events.insert? (candidate, event)).isSome ≠ true := by rw [hi]; decide
        rw [ne_eq, insert?_isSome] at hno
        push Not at hno
        obtain ⟨x, hx, hkey⟩ := hno
        have hx' : x = (candidate, event) := hkey
        exact mem_insertOrIgnore_of_mem (hx' ▸ hx)

theorem mem_foldl_linkEvent {e : Uuid × Uuid} (eventIds : List Uuid)
    (events : Table (id : Uuid × Uuid → Uuid × Uuid)) :
    e ∈ eventIds.foldl (fun T x => linkEvent T candidate x) events ↔
      e ∈ events ∨ (e.1 = candidate ∧ e.2 ∈ eventIds) := by
  induction eventIds generalizing events with
  | nil => simp
  | cons x eventIds ih =>
    rw [foldl_cons, ih, mem_linkEvent]
    constructor
    · rintro ((he | rfl) | ⟨hc, hm⟩)
      · exact .inl he
      · exact .inr ⟨rfl, mem_cons_self⟩
      · exact .inr ⟨hc, mem_cons_of_mem _ hm⟩
    · rintro (he | ⟨hc, hm⟩)
      · exact .inl (.inl he)
      · rcases mem_cons.1 hm with hx | hm
        · exact .inl (.inr (Prod.ext hc hx))
        · exact .inr ⟨hc, hm⟩

/-- The pairs of all the request's events, refused for a candidate that is not stored. -/
def linkEvents (db : Db) (candidate : Uuid) (eventIds : List Uuid) : Option Db :=
  if h : (db.candidates.get? candidate).isSome then some
    { db with
      candidateEvents := eventIds.foldl (fun T e => linkEvent T candidate e) db.candidateEvents
      references := fun e he => by
        rcases (mem_foldl_linkEvent eventIds db.candidateEvents).1 he with he | ⟨hc, -⟩
        · exact db.references e he
        · rw [hc]; exact h }
  else none

/-- `SET event_count = (SELECT COUNT(*) …)`. -/
def countEvents (db : Db) (candidate : Uuid) : Db :=
  updateCandidate db candidate
    (fun c => { c with
      eventCount := (db.candidateEvents.rows.filter (fun e => e.1 = candidate)).length })
    (fun _ => rfl)

/-- The row of a relationship, its smaller id first. -/
def relationshipRow (candidate : Uuid) (x : EventRelationship) : RelationshipRow where
  eventId := min x.eventId x.relatedEventId
  relatedEventId := max x.eventId x.relatedEventId
  candidateId := some candidate
  relationType := x.relationType
  confidence := min (max x.confidence 0) 100
  reason := x.reason

/-- `INSERT INTO event_relationships … ON CONFLICT … DO UPDATE`. -/
def relate (candidate : Uuid) (T : Table RelationshipRow.key) (x : EventRelationship) :
    Table RelationshipRow.key :=
  let row := relationshipRow candidate x
  (T.insert? row).getD
    (T.updateWhere (fun y => y.key = row.key)
      (fun y => { y with
        candidateId := y.candidateId.or row.candidateId
        confidence := max y.confidence row.confidence
        reason := row.reason })
      (fun _ => rfl))

/-- The candidate a request ends in, extended or inserted. -/
def writeCandidate (db : Db) (r : CorrelationPersistence) (existing : Option IncidentCandidate)
    (new : Uuid) : Option (Db × Uuid) :=
  match existing with
  | some c => some (updateCandidate db c.id (extendRow r c.severity) (id_extendRow r c.severity), c.id)
  | none => (insertCandidate db (insertRow r new)).map (fun db => (db, new))

/-- `persist_correlation` once its lookup has returned `existing`; `new` is the id it
draws for a row of its own. -/
def persistCorrelation (db : Db) (r : CorrelationPersistence)
    (existing : Option IncidentCandidate) (new : Uuid) : Option (Db × Uuid) :=
  (writeCandidate db r existing new).bind (fun (written, candidate) =>
    (linkEvents written candidate r.eventIds).map (fun linked =>
      let counted := countEvents linked candidate
      ({ counted with
        relationships := r.relationships.foldl (relate candidate) counted.relationships },
        candidate)))

/-! ## What a request leaves behind -/

/-- The candidates and the pairs once `persist_correlation` has returned `candidate`. -/
structure Persisted (db : Db) (r : CorrelationPersistence)
    (existing : Option IncidentCandidate) (new : Uuid) (db' : Db) (candidate : Uuid) : Prop where
  candidate_eq : candidate = (existing.map IncidentCandidate.id).getD new
  fresh : existing = none → db.candidates.get? new = none
  rows : ∃ n, ∀ k, db'.candidates.get? k =
    match existing with
    | some c => (db.candidates.get? k).map (fun x =>
      if x.id = c.id then { extendRow r c.severity x with eventCount := n } else x)
    | none => if k = new then some { insertRow r new with eventCount := n }
        else db.candidates.get? k
  events : ∀ e, e ∈ db'.candidateEvents ↔
    e ∈ db.candidateEvents ∨ (e.1 = candidate ∧ e.2 ∈ r.eventIds)

theorem linkEvents_eq_some {eventIds : List Uuid} (h : linkEvents db candidate eventIds = some db') :
    db'.candidates = db.candidates ∧ ∀ e, e ∈ db'.candidateEvents ↔
      e ∈ db.candidateEvents ∨ (e.1 = candidate ∧ e.2 ∈ eventIds) := by
  unfold linkEvents at h
  split at h
  · cases h
    exact ⟨rfl, fun e => mem_foldl_linkEvent eventIds db.candidateEvents⟩
  · cases h

theorem insertCandidate_eq_some {row : IncidentCandidate} (h : insertCandidate db row = some db') :
    db.candidates.insert? row = some db'.candidates ∧
      db'.candidateEvents = db.candidateEvents := by
  unfold insertCandidate at h
  split at h
  · cases h
  · cases h
    exact ⟨by assumption, rfl⟩

theorem persistCorrelation_spec {r : CorrelationPersistence} {new : Uuid}
    (h : persistCorrelation db r existing new = some (db', candidate)) :
    Persisted db r existing new db' candidate := by
  obtain ⟨⟨written, id⟩, hw, h⟩ := bind_eq_some_iff.1 h
  obtain ⟨linked, hl, h⟩ := map_eq_some_iff.1 h
  cases h
  obtain ⟨hrows, hevents⟩ := linkEvents_eq_some hl
  -- counting touches the row of the candidate only
  obtain ⟨n, counted⟩ : ∃ n, ∀ k, (countEvents linked candidate).candidates.get? k =
      (written.candidates.get? k).map
        (fun x => if x.id = candidate then { x with eventCount := n } else x) := by
    refine ⟨(linked.candidateEvents.rows.filter (fun e => e.1 = candidate)).length,
      fun k => ?_⟩
    rw [← hrows, countEvents, get?_updateCandidate]
  cases existing with
  | some c =>
    cases hw
    refine ⟨rfl, fun hn => (nomatch hn), ⟨n, fun k => (counted k).trans ?_⟩, hevents⟩
    rw [get?_updateCandidate, Option.map_map]
    congr 1
    funext x
    simp only [Function.comp_apply]
    by_cases hx : x.id = c.id
    · simp only [hx, if_true, extendRow]
    · simp only [hx, if_false]
  | none =>
    obtain ⟨stored, hins, hpair⟩ := map_eq_some_iff.1 hw
    cases hpair
    obtain ⟨hinsert, hsame⟩ := insertCandidate_eq_some hins
    refine ⟨rfl, fun _ => ?_, ⟨n, fun k => (counted k).trans ?_⟩, ?_⟩
    · rw [get?_eq_none]
      exact fun x hx => key_ne_of_insert? hinsert hx
    · rw [get?_insert? hinsert]
      by_cases hk : k = candidate
      · simp only [hk, insertRow, if_true, map_some]
      · have hk' : k ≠ (insertRow r candidate).id := hk
        rw [if_neg hk', if_neg hk]
        cases hg : db.candidates.get? k with
        | none => rfl
        | some x =>
          have hx : x.id = k := key_of_get? hg
          rw [map_some, if_neg (hx ▸ hk)]
    · intro e
      rw [← hsame]
      exact hevents e

theorem linkEvents_isSome (eventIds : List Uuid) (h : (db.candidates.get? candidate).isSome) :
    (linkEvents db candidate eventIds).isSome := by
  unfold linkEvents
  rw [dif_pos h]
  rfl

theorem insertCandidate_isSome {row : IncidentCandidate} (h : db.candidates.get? row.id = none) :
    (insertCandidate db row).isSome := by
  have hins : (db.candidates.insert? row).isSome :=
    insert?_isSome.2 (get?_eq_none.1 h)
  unfold insertCandidate
  split
  · rename_i hnone
    rw [hnone] at hins
    cases hins
  · rfl

/-- A request that found a stored candidate, or drew a free id, succeeds. -/
theorem persistCorrelation_isSome (db : Db) (r : CorrelationPersistence) {new : Uuid}
    (hex : ∀ c ∈ existing, c ∈ db.candidates)
    (hnew : existing = none → db.candidates.get? new = none) :
    (persistCorrelation db r existing new).isSome := by
  have written : ∃ w id, writeCandidate db r existing new = some (w, id) ∧
      (w.candidates.get? id).isSome := by
    cases existing with
    | some c =>
      refine ⟨_, _, rfl, ?_⟩
      rw [get?_updateCandidate, get?_key (hex c rfl)]
      rfl
    | none =>
      have hfree : db.candidates.get? (insertRow r new).id = none := hnew rfl
      obtain ⟨stored, hs⟩ := isSome_iff_exists.1 (insertCandidate_isSome hfree)
      have hrow := get?_insert? (insertCandidate_eq_some hs).1 new
      refine ⟨stored, new, ?_, ?_⟩
      · rw [writeCandidate, hs]
        rfl
      · rw [hrow]
        exact (if_pos (show new = (insertRow r new).id from rfl)) ▸ rfl
  obtain ⟨w, id, hw, hid⟩ := written
  rw [persistCorrelation, hw, bind_some, isSome_map]
  exact linkEvents_isSome r.eventIds hid

/-- The row a request leaves in its candidate, its event count aside. -/
def writtenRow (r : CorrelationPersistence) (existing : Option IncidentCandidate) (new : Uuid) :
    IncidentCandidate :=
  match existing with
  | some c => extendRow r c.severity c
  | none => insertRow r new

theorem mem_iff_get? {T : Table IncidentCandidate.id} : c ∈ T ↔ T.get? c.id = some c :=
  ⟨get?_key, mem_of_get?⟩

/-- A request leaves every row but that of its candidate as it was. -/
theorem Persisted.mem_candidates {r : CorrelationPersistence} {new : Uuid}
    (h : Persisted db r existing new db' candidate) (hex : ∀ c ∈ existing, c ∈ db.candidates) :
    ∃ n, ∀ x, x ∈ db'.candidates ↔ (x ∈ db.candidates ∧ x.id ≠ candidate) ∨
      x = { writtenRow r existing new with eventCount := n } := by
  obtain ⟨n, hrows⟩ := h.rows
  refine ⟨n, fun x => ?_⟩
  rw [mem_iff_get?, hrows x.id, h.candidate_eq]
  cases existing with
  | some c =>
    have hc : db.candidates.get? c.id = some c := get?_key (hex c rfl)
    show (db.candidates.get? x.id).map _ = some x ↔ (x ∈ db.candidates ∧ x.id ≠ c.id) ∨ _
    by_cases hx : x.id = c.id
    · rw [hx, hc, map_some, if_pos rfl, Option.some.injEq]
      constructor
      · exact fun e => .inr e.symm
      · rintro (⟨-, hne⟩ | e)
        · exact absurd rfl hne
        · exact e.symm
    · rw [mem_iff_get?]
      constructor
      · intro hmap
        obtain ⟨y, hy, rfl⟩ := map_eq_some_iff.1 hmap
        have hyid : y.id ≠ c.id := by
          intro hyc
          rw [if_pos hyc] at hx
          exact hx hyc
        rw [if_neg hyid] at hy ⊢
        exact .inl ⟨hy, hyid⟩
      · rintro (⟨hmem, -⟩ | rfl)
        · rw [hmem, map_some, if_neg hx]
        · exact absurd rfl hx
  | none =>
    have hfree : ∀ y ∈ db.candidates, y.id ≠ new := get?_eq_none.1 (h.fresh rfl)
    show (if x.id = new then _ else db.candidates.get? x.id) = some x ↔
      (x ∈ db.candidates ∧ x.id ≠ new) ∨ _
    by_cases hx : x.id = new
    · rw [if_pos hx, Option.some.injEq]
      constructor
      · exact fun e => .inr e.symm
      · rintro (⟨-, hne⟩ | e)
        · exact absurd hx hne
        · exact e.symm
    · rw [if_neg hx, ← mem_iff_get?]
      constructor
      · exact fun hmem => .inl ⟨hmem, hx⟩
      · rintro (⟨hmem, -⟩ | rfl)
        · exact hmem
        · exact absurd rfl hx

/-- The span and the key of a candidate of which requests have become part. -/
def Covers (c : IncidentCandidate) (r : CorrelationPersistence) : Prop :=
  c.correlationKey = r.correlationKey ∧ c.live = true ∧ c.firstSeen ≤ r.firstSeen ∧
    r.lastSeen ≤ c.lastSeen

/-- Under the same id and key, live if the other is, and of no shorter a span. -/
structure Continues (c c' : IncidentCandidate) : Prop where
  id : c'.id = c.id
  key : c'.correlationKey = c.correlationKey
  live : c.live = true → c'.live = true
  first : c'.firstSeen ≤ c.firstSeen
  last : c.lastSeen ≤ c'.lastSeen

theorem Continues.refl (c : IncidentCandidate) : Continues c c :=
  ⟨rfl, rfl, fun h => h, le_rfl, le_rfl⟩

theorem Covers.mono {c' : IncidentCandidate} {r : CorrelationPersistence} (h : Covers c r)
    (hc : Continues c c') : Covers c' r :=
  ⟨hc.key.trans h.1, hc.live h.2.1, hc.first.trans h.2.2.1, h.2.2.2.trans hc.last⟩

theorem Matches.mono {c' : IncidentCandidate} {r : CorrelationPersistence} (h : Matches r c)
    (hc : Continues c c') : Matches r c' :=
  ⟨hc.key.trans h.1, hc.live h.2.1, h.2.2.trans hc.last⟩

/-- Whatever a request writes, a stored candidate stays under its key, stays live and keeps
its span. -/
theorem Persisted.kept {r : CorrelationPersistence} {new : Uuid}
    (h : Persisted db r existing new db' candidate) (hc : c ∈ db.candidates) :
    ∃ c' ∈ db'.candidates, Continues c c' := by
  obtain ⟨n, hrows⟩ := h.rows
  have hget := hrows c.id
  cases existing with
  | some e =>
    simp only [get?_key hc, map_some] at hget
    refine ⟨_, mem_of_get? hget, ?_⟩
    split
    · exact ⟨rfl, rfl, fun _ => rfl, min_le_left _ _, le_max_left _ _⟩
    · exact .refl c
  | none =>
    have hne : c.id ≠ new := get?_eq_none.1 (h.fresh rfl) c hc
    rw [get?_key hc] at hget
    simp only [if_neg hne] at hget
    exact ⟨c, mem_of_get? hget, .refl c⟩

/-- The candidate a request ends in covers it. -/
theorem Persisted.covers {r : CorrelationPersistence} {new : Uuid}
    (h : Persisted db r existing new db' candidate)
    (hstored : ∀ c ∈ existing, ∃ x ∈ db.candidates, x.id = c.id ∧
      x.correlationKey = r.correlationKey) :
    ∃ c ∈ db'.candidates, c.id = candidate ∧ Covers c r := by
  obtain ⟨n, hrows⟩ := h.rows
  rw [h.candidate_eq]
  cases existing with
  | some c =>
    obtain ⟨x, hx, hid, hkey⟩ := hstored c rfl
    have hget := hrows c.id
    dsimp only at hget
    rw [← hid, get?_key hx, map_some, if_pos rfl] at hget
    exact ⟨_, mem_of_get? hget, hid, hkey, rfl, min_le_right _ _, le_max_right _ _⟩
  | none =>
    have hget := hrows new
    dsimp only at hget
    rw [if_pos rfl] at hget
    exact ⟨_, mem_of_get? hget, rfl, rfl, rfl, le_rfl, le_rfl⟩

/-! ## Instances -/

/-- One request of the default window. -/
def requestAt (time : Instant) : CorrelationPersistence where
  correlationKey := "correlation-id:a"
  confidence := 60
  severity := .high
  summary := ""
  firstSeen := time
  lastSeen := time
  window := 900
  eventIds := []
  relationships := []
  ordered := le_refl time

def emptyDb : Db where
  candidates := Table.empty _
  candidateEvents := Table.empty _
  relationships := Table.empty _
  references _ he := absurd he not_mem_empty

end Clawforge.Correlation

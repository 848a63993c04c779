import Clawforge.Storage.IncidentSessions

/-!
# What promotions, correlations and status changes commit

What it means that an incident shows its candidate, and what each commit does to that.
`Untouched` says what a commit leaves alone that is about another candidate; by it every open
promotion stays `Gathered` while others commit, and its own commit leaves the candidate
promoted and shown.
-/

namespace Clawforge.Incidents

open Correlation Kit Table List Option

/-! ## The property -/

/-- The relations that link the event to the incident. -/
def linkCount (relations : List RelationRow) (incident event : Uuid) : Nat :=
  relations.countP (links incident event)

/-- The candidate's incident carries what the candidate does and has each of its events once. -/
def Shown (db : Db) (c : IncidentCandidate) : Prop :=
  ∃ i ∈ db.incidents, i.candidateId = some c.id ∧ i.severity = c.severity ∧
    i.confidence = c.confidence ∧ i.summary = c.summary ∧
    ∀ e, (c.id, e) ∈ db.correlation.candidateEvents → linkCount db.relations i.id e = 1

structure InStep (db : Db) : Prop where
  one : ∀ c, ∀ i ∈ db.incidents, ∀ j ∈ db.incidents,
    i.candidateId = some c → j.candidateId = some c → i = j
  promoted : ∀ c ∈ db.correlation.candidates, c.status = .promoted → Shown db c

/-- No candidate has lost severity, confidence or events. -/
def Grown (before after : Correlation.Db) : Prop :=
  ∀ c ∈ before.candidates, ∃ c' ∈ after.candidates, c'.id = c.id ∧
    rank c.severity ≤ rank c'.severity ∧ c.confidence ≤ c'.confidence ∧
    ∀ e, (c.id, e) ∈ before.candidateEvents → (c.id, e) ∈ after.candidateEvents

theorem Grown.refl (db : Correlation.Db) : Grown db db :=
  fun c hc => ⟨c, hc, rfl, le_refl _, le_refl _, fun _ he => he⟩

theorem Grown.trans {a b c : Correlation.Db} (hab : Grown a b) (hbc : Grown b c) : Grown a c := by
  intro x hx
  obtain ⟨y, hy, hyid, hsev, hconf, hevents⟩ := hab x hx
  obtain ⟨z, hz, hzid, hsev', hconf', hevents'⟩ := hbc y hy
  refine ⟨z, hz, hzid.trans hyid, hsev.trans hsev', hconf.trans hconf', fun e he => ?_⟩
  have hy' := hevents' e
  rw [hyid] at hy'
  exact hy' (hevents e he)

/-! ## What a commit leaves alone -/

/-- What promotions keep in step, and the incident's id. -/
def IncidentRow.core (i : IncidentRow) : Uuid × IncidentSeverity × Int × String :=
  (i.id, i.severity, i.confidence, i.summary)

/-- The candidate has an incident, with this id, severity, confidence and summary. -/
def HasIncident (db : Db) (c : Uuid) (x : Uuid × IncidentSeverity × Int × String) : Prop :=
  ∃ i ∈ db.incidents, i.candidateId = some c ∧ i.core = x

/-- As far as it is stored, the incident is the candidate's. -/
def OnlyOf (db : Db) (c incident : Uuid) : Prop :=
  ∀ i ∈ db.incidents, i.id = incident → i.candidateId = some c

/-- Between two databases nothing about the candidate has changed. -/
structure Untouched (c : Uuid) (db db' : Db) : Prop where
  candidate : db'.correlation.candidates.get? c = db.correlation.candidates.get? c
  events : ∀ e, (c, e) ∈ db'.correlation.candidateEvents ↔ (c, e) ∈ db.correlation.candidateEvents
  incident : ∀ x, HasIncident db' c x ↔ HasIncident db c x
  kept : ∀ i ∈ db.incidents, ∃ i' ∈ db'.incidents, i'.id = i.id ∧ i'.candidateId = i.candidateId
  links : ∀ incident, OnlyOf db' c incident →
    ∀ e, linkCount db'.relations incident e = linkCount db.relations incident e

theorem Untouched.refl (c : Uuid) (db : Db) : Untouched c db db :=
  ⟨rfl, fun _ => Iff.rfl, fun _ => Iff.rfl, fun i hi => ⟨i, hi, rfl, rfl⟩, fun _ _ _ => rfl⟩

variable {c : IncidentCandidate} {db db' : Db} {p : Promotion} {stored : List RelationRow}

theorem Untouched.trans {c : Uuid} {db'' : Db} (h : Untouched c db db') (h' : Untouched c db' db'') :
    Untouched c db db'' := by
  constructor
  case candidate => exact h'.candidate.trans h.candidate
  case events => exact fun e => (h'.events e).trans (h.events e)
  case incident => exact fun x => (h'.incident x).trans (h.incident x)
  case kept =>
    intro i hi
    obtain ⟨j, hj, hid, hcandidate⟩ := h.kept i hi
    obtain ⟨k, hk, hkid, hkc⟩ := h'.kept j hj
    exact ⟨k, hk, hkid.trans hid, hkc.trans hcandidate⟩
  case links =>
    intro incident honly e
    have hbetween : OnlyOf db' c incident := by
      intro j hj hid
      obtain ⟨k, hk, hkid, hkc⟩ := h'.kept j hj
      rw [← hkc]
      exact honly k hk (hkid.trans hid)
    rw [h'.links incident honly e, h.links incident hbetween e]

theorem HasIncident.onlyOf {c : Uuid} {x : Uuid × IncidentSeverity × Int × String}
    (h : HasIncident db c x) : OnlyOf db c x.1 := by
  obtain ⟨i, hi, hcandidate, rfl⟩ := h
  intro j hj hid
  rw [eq_of_key_eq hj hi hid]
  exact hcandidate

theorem Shown.untouched (h : Shown db c) (hu : Untouched c.id db db') : Shown db' c := by
  obtain ⟨i, hi, hcandidate, hseverity, hconfidence, hsummary, hlinks⟩ := h
  obtain ⟨i', hi', hcandidate', hcore⟩ := (hu.incident i.core).2 ⟨i, hi, hcandidate, rfl⟩
  obtain ⟨hid, hcore⟩ := Prod.mk.inj hcore
  obtain ⟨hsev', hcore⟩ := Prod.mk.inj hcore
  obtain ⟨hconf', hsum'⟩ := Prod.mk.inj hcore
  refine ⟨i', hi', hcandidate', hsev'.trans hseverity, hconf'.trans hconfidence,
    hsum'.trans hsummary, fun e he => ?_⟩
  have honly : OnlyOf db' c.id i'.id := HasIncident.onlyOf ⟨i', hi', hcandidate', rfl⟩
  rw [hu.links i'.id honly e, hid]
  exact hlinks e ((hu.events e).1 he)

/-! ## Promotions under way -/

/-- The incident a promotion has read for its candidate is still the committed one. -/
def ReadAs (db : Db) (c : Uuid) : Option IncidentRow → Prop
  | none => ∀ x, ¬ HasIncident db c x
  | some row => HasIncident db c row.core

def Owns (db : Db) (c : IncidentCandidate) : Owner → Prop
  | .created row => (∃ id, row = incidentRow c id) ∧ ReadAs db c.id none
  | .existing row => ReadAs db c.id (some row)

/-- The id drawn for a new incident is free; otherwise its insertion will fail. -/
def Fresh (db : Db) : Owner → Prop
  | .created row => ∀ i ∈ db.incidents, i.id ≠ row.id
  | .existing _ => True

/-- Every event of the candidate but the pending ones is linked to the incident, once. -/
structure Gathered (db : Db) (p : Promotion) (pending : List Uuid) : Prop where
  owner : Owns db p.candidate p.owner
  own : ∀ r ∈ p.relations, r.incidentId = p.owner.row.id
  once : Fresh db p.owner → ∀ e, linkCount (db.relations ++ p.relations) p.owner.row.id e ≤ 1
  linked : Fresh db p.owner → ∀ e, (p.candidate.id, e) ∈ db.correlation.candidateEvents →
    e ∈ pending ∨ linkCount (db.relations ++ p.relations) p.owner.row.id e = 1

theorem ReadAs.untouched {c : Uuid} {existing : Option IncidentRow} (h : ReadAs db c existing)
    (hu : Untouched c db db') : ReadAs db' c existing := by
  cases existing with
  | none => exact fun x hx => h x ((hu.incident x).1 hx)
  | some row => exact (hu.incident row.core).2 h

theorem Owns.untouched {o : Owner} (h : Owns db c o) (hu : Untouched c.id db db') :
    Owns db' c o := by
  cases o with
  | created row => exact ⟨h.1, h.2.untouched hu⟩
  | existing row => exact (hu.incident row.core).2 h

theorem Fresh.before {c : Uuid} {o : Owner} (h : Fresh db' o) (hu : Untouched c db db') :
    Fresh db o := by
  cases o with
  | created row =>
    intro i hi hid
    obtain ⟨i', hi', hid', -⟩ := hu.kept i hi
    exact h i' hi' (hid'.trans hid)
  | existing row => trivial

theorem Owns.onlyOf {o : Owner} (h : Owns db c o) (hfresh : Fresh db o) :
    OnlyOf db c.id o.row.id := by
  cases o with
  | created row => exact fun i hi hid => absurd hid (hfresh i hi)
  | existing row => exact HasIncident.onlyOf (x := row.core) h

theorem linkCount_append (l l' : List RelationRow) (incident event : Uuid) :
    linkCount (l ++ l') incident event =
      linkCount l incident event + linkCount l' incident event :=
  countP_append

theorem Gathered.untouched {pending : List Uuid} (h : Gathered db p pending)
    (hu : Untouched p.candidate.id db db') : Gathered db' p pending := by
  have hsame : Fresh db' p.owner → ∀ e,
      linkCount (db'.relations ++ p.relations) p.owner.row.id e =
        linkCount (db.relations ++ p.relations) p.owner.row.id e := by
    intro hfresh e
    have honly : OnlyOf db' p.candidate.id p.owner.row.id := (h.owner.untouched hu).onlyOf hfresh
    rw [linkCount_append, linkCount_append, hu.links _ honly e]
  constructor
  case owner => exact h.owner.untouched hu
  case own => exact h.own
  case once =>
    intro hfresh e
    rw [hsame hfresh e]
    exact h.once (hfresh.before hu) e
  case linked =>
    intro hfresh e he
    rw [hsame hfresh e]
    exact h.linked (hfresh.before hu) e ((hu.events e).1 he)

theorem Gathered.subset {pending pending' : List Uuid} (h : Gathered db p pending)
    (hsub : ∀ e ∈ pending, e ∈ pending') : Gathered db p pending' where
  owner := h.owner
  own := h.own
  once := h.once
  linked hfresh e he := (h.linked hfresh e he).imp_left (hsub e)

/-! ## The statements of a promotion -/

theorem mem_eventsOf {c e : Uuid} :
    e ∈ eventsOf db c ↔ (c, e) ∈ db.correlation.candidateEvents := by
  simp only [eventsOf, List.mem_map, mem_filter, decide_eq_true_eq]
  constructor
  · rintro ⟨⟨a, b⟩, ⟨hmem, rfl⟩, rfl⟩
    exact hmem
  · exact fun h => ⟨(c, e), ⟨h, rfl⟩, rfl⟩

theorem readAs_incidentOf (db : Db) (c : Uuid) : ReadAs db c (incidentOf db c) := by
  cases h : incidentOf db c with
  | none =>
    rintro x ⟨i, hi, hcandidate, -⟩
    exact incidentOf_eq_none.1 h i hi hcandidate
  | some row =>
    obtain ⟨hrow, hcandidate⟩ := incidentOf_eq_some.1 h
    exact ⟨row, hrow, hcandidate, rfl⟩

theorem gathered_write (honce : ∀ incident e, linkCount db.relations incident e ≤ 1)
    {existing : Option IncidentRow} (h : ReadAs db c.id existing) (id : Uuid) :
    Gathered db ⟨c, ownerOf c id existing, []⟩ (eventsOf db c.id) := by
  constructor
  case owner =>
    cases existing with
    | none => exact ⟨⟨id, rfl⟩, h⟩
    | some row => exact h
  case own => exact fun r hr => absurd hr not_mem_nil
  case once =>
    intro _ e
    rw [append_nil]
    exact honce _ e
  case linked => exact fun _ e he => .inl (mem_eventsOf.2 he)

theorem links_linkRow (c : IncidentCandidate) (incident event e : Uuid) :
    links incident e (linkRow c incident event) = decide (event = e) := by
  simp [links, linkRow]

theorem Gathered.link {event : Uuid} {events : List Uuid} (h : Gathered db p (event :: events)) :
    Gathered db (linkEvent db p event) events := by
  unfold linkEvent
  split
  case isTrue hany =>
    -- linked already
    refine ⟨h.owner, h.own, h.once, fun hfresh e he => ?_⟩
    rcases h.linked hfresh e he with hpending | hone
    · rcases mem_cons.1 hpending with rfl | hpending
      · refine .inr (le_antisymm (h.once hfresh e) ?_)
        exact countP_pos_iff.2 (List.any_eq_true.1 hany)
      · exact .inl hpending
    · exact .inr hone
  case isFalse hany =>
    have hnone : linkCount (db.relations ++ p.relations) p.owner.row.id event = 0 := by
      refine countP_eq_zero.2 (fun r hr hlinks => hany ?_)
      exact List.any_eq_true.2 ⟨r, hr, hlinks⟩
    have hcount : ∀ e, linkCount
        (db.relations ++ (p.relations ++ [linkRow p.candidate p.owner.row.id event]))
        p.owner.row.id e = linkCount (db.relations ++ p.relations) p.owner.row.id e +
          if event = e then 1 else 0 := by
      intro e
      rw [← append_assoc, linkCount_append]
      congr 1
      rw [linkCount, countP_singleton, links_linkRow]
      simp only [decide_eq_true_eq]
    constructor
    case owner => exact h.owner
    case own =>
      intro r hr
      rcases mem_append.1 hr with hr | hr
      · exact h.own r hr
      · rw [mem_singleton.1 hr]
        rfl
    case once =>
      intro hfresh e
      show linkCount (db.relations ++ (p.relations ++ [linkRow p.candidate p.owner.row.id event]))
        p.owner.row.id e ≤ 1
      rw [hcount e]
      split
      case isTrue heq =>
        subst heq
        rw [hnone]
      case isFalse => exact h.once hfresh e
    case linked =>
      intro hfresh e he
      show e ∈ events ∨ linkCount
        (db.relations ++ (p.relations ++ [linkRow p.candidate p.owner.row.id event]))
        p.owner.row.id e = 1
      rw [hcount e]
      by_cases heq : event = e
      · subst heq
        rw [hnone, if_pos rfl]
        exact .inr rfl
      · rw [if_neg heq]
        rcases h.linked hfresh e he with hpending | hone
        · exact .inl ((mem_cons.1 hpending).resolve_left (Ne.symm heq))
        · exact .inr hone

/-- Relations of the other types link no event. -/
theorem linkCount_addUnlessConflicting {rows : List RelationRow} {r : RelationRow}
    (h : r.relationType ≠ .event) (incident e : Uuid) :
    linkCount (addUnlessConflicting stored rows r) incident e = linkCount rows incident e := by
  unfold addUnlessConflicting
  split
  · rfl
  · have hno : ¬ links incident e r = true := by
      simp only [links, Bool.and_eq_true, decide_eq_true_eq]
      exact fun hl => h hl.1.2
    rw [linkCount_append, linkCount, linkCount, countP_singleton, if_neg hno, Nat.add_zero]

theorem linkCount_foldl (rows : List RelationRow) (h : ∀ r ∈ rows, r.relationType ≠ .event)
    (own : List RelationRow) (incident e : Uuid) :
    linkCount (rows.foldl (addUnlessConflicting stored) own) incident e =
      linkCount own incident e := by
  induction rows generalizing own with
  | nil => rfl
  | cons r rows ih =>
    rw [foldl_cons, ih (fun x hx => h x (mem_cons_of_mem _ hx)),
      linkCount_addUnlessConflicting (h r mem_cons_self)]

theorem mem_foldl_addUnlessConflicting {x : RelationRow} (rows own : List RelationRow)
    (h : x ∈ rows.foldl (addUnlessConflicting stored) own) : x ∈ own ∨ x ∈ rows := by
  induction rows generalizing own with
  | nil => exact .inl h
  | cons r rows ih =>
    rw [foldl_cons] at h
    rcases ih _ h with hx | hx
    · unfold addUnlessConflicting at hx
      split at hx
      · exact .inl hx
      · rcases mem_append.1 hx with hx | hx
        · exact .inl hx
        · rw [mem_singleton.1 hx]
          exact .inr mem_cons_self
    · exact .inr (mem_cons_of_mem _ hx)

theorem otherRelations_spec {indicators : List Nat} {r : RelationRow}
    (h : r ∈ otherRelations db p indicators) :
    r.relationType ≠ .event ∧ r.incidentId = p.owner.row.id := by
  rcases mem_append.1 h with hr | hr
  · obtain ⟨x, -, rfl⟩ := List.mem_map.1 hr
    exact ⟨nofun, rfl⟩
  · obtain ⟨x, -, rfl⟩ := List.mem_map.1 hr
    exact ⟨nofun, rfl⟩

theorem Gathered.relate {pending : List Uuid} (h : Gathered db p pending) (indicators : List Nat) :
    Gathered db (relate db p indicators) pending := by
  have hcount : ∀ e, linkCount (db.relations ++ (Incidents.relate db p indicators).relations)
      p.owner.row.id e = linkCount (db.relations ++ p.relations) p.owner.row.id e := by
    intro e
    rw [linkCount_append, linkCount_append]
    congr 1
    exact linkCount_foldl _ (fun r hr => (otherRelations_spec hr).1) _ _ e
  constructor
  case owner => exact h.owner
  case own =>
    intro r hr
    rcases mem_foldl_addUnlessConflicting _ _ hr with hr | hr
    · exact h.own r hr
    · exact (otherRelations_spec hr).2
  case once =>
    intro hfresh e
    exact (hcount e).trans_le (h.once hfresh e)
  case linked =>
    intro hfresh e he
    exact (h.linked hfresh e he).imp_right (hcount e).trans

/-! ## What a promotion commits -/

/-- What every commit keeps of the tables. -/
structure Consistent (db : Db) : Prop where
  percent : ∀ c ∈ db.correlation.candidates, 0 ≤ c.confidence ∧ c.confidence ≤ 100
  once : ∀ incident e, linkCount db.relations incident e ≤ 1
  shown : ∀ c ∈ db.correlation.candidates, c.status = .promoted → Shown db c

theorem Consistent.inStep (h : Consistent db) : InStep db where
  one c i hi j hj hic hjc :=
    db.onePerCandidate i hi j hj (by rw [hic]; exact some_ne_none c) (hic.trans hjc.symm)
  promoted := h.shown

theorem clamp100_eq {n : Int} (h : 0 ≤ n ∧ n ≤ 100) : clamp100 n = n := by
  unfold clamp100
  omega

theorem linkCount_eq_zero {l : List RelationRow} {incident other : Uuid}
    (h : ∀ r ∈ l, r.incidentId = other) (hne : incident ≠ other) (e : Uuid) :
    linkCount l incident e = 0 := by
  refine countP_eq_zero.2 (fun r hr hlinks => hne ?_)
  simp only [links, Bool.and_eq_true, decide_eq_true_eq] at hlinks
  exact hlinks.1.1.symm.trans (h r hr)

section Commit

variable {now : Instant} {db db' : Db} {p : Promotion}

section

variable (hp : Promoted now db p db')
include hp

/-- The incident of a promotion shows its candidate. -/
theorem Promoted.incident (howns : Owns db p.candidate p.owner)
    (hpercent : 0 ≤ p.candidate.confidence ∧ p.candidate.confidence ≤ 100) :
    ∃ i ∈ db'.incidents, i.id = p.owner.row.id ∧ i.candidateId = some p.candidate.id ∧
      i.severity = p.candidate.severity ∧ i.confidence = p.candidate.confidence ∧
      i.summary = p.candidate.summary := by
  have hclamp : clamp100 p.candidate.confidence = p.candidate.confidence := clamp100_eq hpercent
  cases ho : p.owner with
  | created row =>
    rw [ho] at howns
    obtain ⟨⟨id, rfl⟩, -⟩ := howns
    have hmem := hp.incidents (incidentRow p.candidate id)
    rw [ho] at hmem
    exact ⟨_, hmem.2 (.inr rfl), rfl, rfl, rfl, hclamp, rfl⟩
  | existing row =>
    rw [ho] at howns
    obtain ⟨i, hi, hcandidate, hcore⟩ := howns
    obtain ⟨hid, hcore⟩ := Prod.mk.inj hcore
    obtain ⟨hseverity, hcore⟩ := Prod.mk.inj hcore
    obtain ⟨hconfidence, hsummary⟩ := Prod.mk.inj hcore
    have hmem : ∀ x, x = (if escalates p.candidate row ∧ i.id = row.id then
        escalatedRow p.candidate now i else i) → x ∈ db'.incidents := by
      intro x hx
      have hiff := hp.incidents x
      rw [ho] at hiff
      exact hiff.2 ⟨i, hi, hx⟩
    by_cases hesc : escalates p.candidate row = true
    · exact ⟨escalatedRow p.candidate now i, hmem _ (if_pos ⟨hesc, hid⟩).symm, hid, hcandidate,
        rfl, hclamp, rfl⟩
    · have hsame := hesc
      simp only [escalates, Bool.or_eq_true, decide_eq_true_eq, not_or, ne_eq, not_not] at hsame
      exact ⟨i, hmem _ (if_neg (fun h => hesc h.1)).symm, hid, hcandidate,
        hseverity.trans hsame.1.1.symm, hconfidence.trans (hsame.1.2.symm.trans hclamp),
        hsummary.trans hsame.2.symm⟩

theorem Promoted.fresh_owner : Fresh db p.owner := by
  cases ho : p.owner with
  | created row => exact hp.fresh row ho
  | existing row => trivial

theorem Promoted.kept {i : IncidentRow} (hi : i ∈ db.incidents) :
    ∃ i' ∈ db'.incidents, i'.id = i.id ∧ i'.candidateId = i.candidateId ∧
      (i.id ≠ p.owner.row.id → i'.core = i.core) := by
  cases ho : p.owner with
  | created row =>
    have hmem := hp.incidents i
    rw [ho] at hmem
    exact ⟨i, hmem.2 (.inl hi), rfl, rfl, fun _ => rfl⟩
  | existing row =>
    have hmem := hp.incidents
    simp only [ho, IncidentsAfter] at hmem
    refine ⟨_, (hmem _).2 ⟨i, hi, rfl⟩, ?_⟩
    split
    case isTrue h => exact ⟨rfl, rfl, fun hne => absurd h.2 hne⟩
    case isFalse => exact ⟨rfl, rfl, fun _ => rfl⟩

/-- An incident of another candidate was there before. -/
theorem Promoted.of_other (howns : Owns db p.candidate p.owner) {c : Uuid} (hc : c ≠ p.candidate.id)
    {i' : IncidentRow} (hi' : i' ∈ db'.incidents) (hcandidate : i'.candidateId = some c) :
    ∃ i ∈ db.incidents, i.candidateId = some c ∧ i.core = i'.core := by
  have hmem := (hp.incidents i').1 hi'
  cases ho : p.owner with
  | created row =>
    rw [ho] at hmem howns
    obtain ⟨⟨id, rfl⟩, -⟩ := howns
    rcases hmem with hold | rfl
    · exact ⟨i', hold, hcandidate, rfl⟩
    · exact absurd (some.inj hcandidate).symm hc
  | existing row =>
    rw [ho] at hmem howns
    obtain ⟨j, hj, rfl⟩ := hmem
    have honly : OnlyOf db p.candidate.id row.id := HasIncident.onlyOf (x := row.core) howns
    split at hcandidate
    case isTrue h =>
      have hown : j.candidateId = some p.candidate.id := honly j hj h.2
      have hjc : j.candidateId = some c := hcandidate
      exact absurd (some.inj (hjc.symm.trans hown)) hc
    case isFalse h =>
      rw [if_neg h]
      exact ⟨j, hj, hcandidate, rfl⟩

theorem Promoted.untouched (h : Gathered db p [])
    (hpercent : 0 ≤ p.candidate.confidence ∧ p.candidate.confidence ≤ 100) {c : Uuid}
    (hc : c ≠ p.candidate.id) : Untouched c db db' := by
  obtain ⟨own, hown, hownid, howncandidate, -⟩ := hp.incident h.owner hpercent
  constructor
  case candidate =>
    rw [hp.candidates c]
    cases hg : db.correlation.candidates.get? c with
    | none => rfl
    | some x =>
      have hx : x.id ≠ p.candidate.id := by
        rw [key_of_get? hg]
        exact hc
      rw [map_some, if_neg hx]
  case events =>
    intro e
    rw [hp.candidateEvents]
  case incident =>
    intro x
    constructor
    · rintro ⟨i', hi', hcandidate, rfl⟩
      exact hp.of_other h.owner hc hi' hcandidate
    · rintro ⟨i, hi, hcandidate, rfl⟩
      obtain ⟨i', hi', hid, hcandidate', hcore⟩ := hp.kept hi
      refine ⟨i', hi', hcandidate'.trans hcandidate, hcore (fun hrow => hc ?_)⟩
      -- the promotion's own incident is another candidate's
      have hsame : own = i' := eq_of_key_eq hown hi' (hownid.trans (hid.trans hrow).symm)
      rw [hsame, hcandidate', hcandidate] at howncandidate
      exact some.inj howncandidate
  case kept =>
    intro i hi
    obtain ⟨i', hi', hid, hcandidate, -⟩ := hp.kept hi
    exact ⟨i', hi', hid, hcandidate⟩
  case links =>
    intro incident honly e
    have hne : incident ≠ p.owner.row.id := by
      rintro rfl
      have hcandidate : own.candidateId = some c := honly own hown hownid
      exact hc (some.inj (hcandidate.symm.trans howncandidate))
    rw [hp.relations, linkCount_append, linkCount_eq_zero h.own hne e, Nat.add_zero]

/-- A promotion leaves its candidate promoted and shown, and every other as it was. -/
theorem Promoted.consistent (h : Consistent db) (hg : Gathered db p [])
    (hmem : p.candidate ∈ db.correlation.candidates) : Consistent db' := by
  have hpercent := h.percent p.candidate hmem
  have hrow : ∀ c ∈ db'.correlation.candidates, c = promotedRow p.candidate ∨
      (c ∈ db.correlation.candidates ∧ c.id ≠ p.candidate.id) := by
    intro c hc
    have hget := hp.candidates c.id
    rw [get?_key hc] at hget
    obtain ⟨x, hx, hxc⟩ := map_eq_some_iff.1 hget.symm
    by_cases hid : x.id = p.candidate.id
    · rw [if_pos hid] at hxc
      rw [eq_of_key_eq (mem_of_get? hx) hmem hid] at hxc
      exact .inl hxc.symm
    · rw [if_neg hid] at hxc
      subst hxc
      exact .inr ⟨mem_of_get? hx, hid⟩
  constructor
  case percent =>
    intro c hc
    rcases hrow c hc with rfl | ⟨hold, -⟩
    · exact hpercent
    · exact h.percent c hold
  case once =>
    intro incident e
    rw [hp.relations]
    by_cases hid : incident = p.owner.row.id
    · rw [hid]
      exact hg.once hp.fresh_owner e
    · rw [linkCount_append, linkCount_eq_zero hg.own hid e, Nat.add_zero]
      exact h.once incident e
  case shown =>
    intro c hc hpromoted
    rcases hrow c hc with rfl | ⟨hold, hne⟩
    · obtain ⟨i, hi, hid, hcandidate, hseverity, hconfidence, hsummary⟩ :=
        hp.incident hg.owner hpercent
      refine ⟨i, hi, hcandidate, hseverity, hconfidence, hsummary, fun e he => ?_⟩
      rw [hp.candidateEvents] at he
      rw [hp.relations, hid]
      exact (hg.linked hp.fresh_owner e he).resolve_left not_mem_nil
    · exact (h.shown c hold hpromoted).untouched (hp.untouched hg hpercent hne)

theorem Promoted.grown : Grown db.correlation db'.correlation := by
  intro c hc
  have hget := hp.candidates c.id
  rw [get?_key hc, map_some] at hget
  refine ⟨_, mem_of_get? hget, ?_⟩
  rw [hp.candidateEvents]
  split
  · exact ⟨rfl, le_refl _, le_refl _, fun _ he => he⟩
  · exact ⟨rfl, le_refl _, le_refl _, fun _ he => he⟩

end

end Commit

theorem Untouched.mem (h : Untouched c.id db db') (hc : c ∈ db.correlation.candidates) :
    c ∈ db'.correlation.candidates :=
  mem_of_get? (h.candidate.trans (get?_key hc))

/-- The promotions of one call, one after the other. -/
theorem promotions_committed {now : Instant} {done : List Promotion}
    (h : done.foldlM (writePromotion now) db = some db') (hc : Consistent db)
    (hg : ∀ p ∈ done, Gathered db p [] ∧ p.candidate ∈ db.correlation.candidates)
    (hnodup : (done.map (fun p => p.candidate.id)).Nodup) :
    Consistent db' ∧ Grown db.correlation db'.correlation ∧
      ∀ c, c ∉ done.map (fun p => p.candidate.id) → Untouched c db db' := by
  induction done generalizing db with
  | nil =>
    cases h
    exact ⟨hc, Grown.refl _, fun c _ => Untouched.refl c _⟩
  | cons p done ih =>
    rw [foldlM_cons] at h
    obtain ⟨next, hw, hrest⟩ := bind_eq_some_iff.1 h
    obtain ⟨hp, hmem⟩ := hg p mem_cons_self
    have hspec := writePromotion_spec hw
    have hpercent := hc.percent p.candidate hmem
    rw [map_cons, nodup_cons] at hnodup
    have hothers : ∀ q ∈ done, Gathered next q [] ∧ q.candidate ∈ next.correlation.candidates := by
      intro q hq
      obtain ⟨hgq, hmq⟩ := hg q (mem_cons_of_mem _ hq)
      have hne : q.candidate.id ≠ p.candidate.id := by
        intro heq
        exact hnodup.1 (heq ▸ List.mem_map_of_mem hq)
      have hu := hspec.untouched hp hpercent hne
      exact ⟨hgq.untouched hu, hu.mem hmq⟩
    obtain ⟨hconsistent, hgrown, huntouched⟩ :=
      ih hrest (hspec.consistent hc hp hmem) hothers hnodup.2
    refine ⟨hconsistent, hspec.grown.trans hgrown, fun c hnot => ?_⟩
    rw [map_cons, mem_cons, not_or] at hnot
    exact (hspec.untouched hp hpercent hnot.1).trans (huntouched c hnot.2)

/-! ## What a correlation commits -/

section Correlate

variable {db : Db} {corr : Correlation.Db} {r : CorrelationPersistence}
  {existing : Option IncidentCandidate} {new candidate : Uuid}

theorem untouched_of_persisted (hp : Persisted db.correlation r existing new corr candidate)
    {c : Uuid} (hc : c ≠ candidate) : Untouched c db { db with correlation := corr } := by
  obtain ⟨n, hrows⟩ := hp.rows
  have hne := hc
  rw [hp.candidate_eq] at hne
  constructor
  case candidate =>
    show corr.candidates.get? c = _
    rw [hrows c]
    cases existing with
    | none => exact if_neg hne
    | some x =>
      show (db.correlation.candidates.get? c).map _ = _
      cases hg : db.correlation.candidates.get? c with
      | none => rfl
      | some y =>
        have hy : y.id ≠ x.id := by
          rw [key_of_get? hg]
          exact hne
        rw [map_some, if_neg hy]
  case events =>
    intro e
    show (c, e) ∈ corr.candidateEvents ↔ _
    rw [hp.events (c, e)]
    exact or_iff_left (fun h => hc h.1)
  case incident => exact fun _ => Iff.rfl
  case kept => exact fun i hi => ⟨i, hi, rfl, rfl⟩
  case links => exact fun _ _ _ => rfl

theorem confidence100_percent (r : CorrelationPersistence) :
    0 ≤ r.confidence100 ∧ r.confidence100 ≤ 100 := by
  unfold CorrelationPersistence.confidence100
  omega

/-- The candidate of a correlation is open; every other is as it was. -/
theorem consistent_of_persisted (hp : Persisted db.correlation r existing new corr candidate)
    (hex : ∀ c ∈ existing, c ∈ db.correlation.candidates) (h : Consistent db) :
    Consistent { db with correlation := corr } := by
  obtain ⟨n, hmem⟩ := hp.mem_candidates hex
  have hr := confidence100_percent r
  constructor
  case percent =>
    intro c hc
    rcases (hmem c).1 hc with ⟨hold, -⟩ | rfl
    · exact h.percent c hold
    · cases hexisting : existing with
      | none => exact hr
      | some x =>
        have hx := h.percent x (hex x hexisting)
        exact ⟨le_max_of_le_left hx.1, max_le hx.2 hr.2⟩
  case once => exact h.once
  case shown =>
    intro c hc hpromoted
    rcases (hmem c).1 hc with ⟨hold, hne⟩ | rfl
    · exact (h.shown c hold hpromoted).untouched (untouched_of_persisted hp hne)
    · cases existing <;> cases hpromoted

theorem grown_of_persisted (hp : Persisted db.correlation r existing new corr candidate)
    (hex : ∀ c ∈ existing, c ∈ db.correlation.candidates) : Grown db.correlation corr := by
  obtain ⟨n, hmem⟩ := hp.mem_candidates hex
  intro c hc
  have hevents : ∀ e, (c.id, e) ∈ db.correlation.candidateEvents → (c.id, e) ∈ corr.candidateEvents :=
    fun e he => (hp.events _).2 (.inl he)
  by_cases hid : c.id = candidate
  · cases hexisting : existing with
    | none =>
      have hfree := get?_eq_none.1 (hp.fresh hexisting) c hc
      rw [hp.candidate_eq, hexisting] at hid
      exact absurd hid hfree
    | some x =>
      have hsame : c = x := by
        rw [hp.candidate_eq, hexisting] at hid
        exact eq_of_key_eq hc (hex x hexisting) hid
      subst hsame
      refine ⟨_, (hmem _).2 (.inr rfl), ?_, ?_, ?_, hevents⟩
      · rw [hexisting]
        rfl
      · rw [hexisting]
        show rank c.severity ≤ rank (maxIncidentSeverity c.severity r.severity)
        rw [rank_maxIncidentSeverity]
        exact le_max_left _ _
      · rw [hexisting]
        exact le_max_left _ _
  · exact ⟨c, (hmem c).2 (.inl ⟨hc, hid⟩), rfl, le_refl _, le_refl _, hevents⟩

end Correlate

/-! ## What a status change commits -/

theorem untouched_writeTransition (db : Db) (now : Instant) (incident : Uuid)
    (current next : IncidentStatus) (changedBy reason : String) (c : Uuid) :
    Untouched c db (writeTransition db now incident current next changedBy reason) := by
  have hmem : ∀ i, i ∈ (writeTransition db now incident current next changedBy reason).incidents ↔
      ∃ j ∈ db.incidents, i = if j.id = incident then statusRow next now j else j :=
    fun _ => mem_writeTransition
  have hkept : ∀ j : IncidentRow, ∃ i, i = (if j.id = incident then statusRow next now j else j) ∧
      i.core = j.core ∧ i.candidateId = j.candidateId := by
    intro j
    refine ⟨_, rfl, ?_⟩
    split
    · exact ⟨rfl, rfl⟩
    · exact ⟨rfl, rfl⟩
  constructor
  case candidate => rfl
  case events => exact fun _ => Iff.rfl
  case incident =>
    intro x
    constructor
    · rintro ⟨i, hi, hcandidate, rfl⟩
      obtain ⟨j, hj, hij⟩ := (hmem i).1 hi
      obtain ⟨i', hi', hcore, hsame⟩ := hkept j
      rw [← hi'] at hij
      subst hij
      exact ⟨j, hj, hsame.symm.trans hcandidate, hcore.symm⟩
    · rintro ⟨j, hj, hcandidate, rfl⟩
      obtain ⟨i, hi, hcore, hsame⟩ := hkept j
      exact ⟨i, (hmem i).2 ⟨j, hj, hi⟩, hsame.trans hcandidate, hcore⟩
  case kept =>
    intro j hj
    obtain ⟨i, hi, hcore, hsame⟩ := hkept j
    exact ⟨i, (hmem i).2 ⟨j, hj, hi⟩, (Prod.mk.inj hcore).1, hsame⟩
  case links => exact fun _ _ _ => rfl

theorem Consistent.transition (h : Consistent db) (now : Instant) (incident : Uuid)
    (current next : IncidentStatus) (changedBy reason : String) :
    Consistent (writeTransition db now incident current next changedBy reason) where
  percent := h.percent
  once := h.once
  shown c hc hpromoted := (h.shown c hc hpromoted).untouched
    (untouched_writeTransition db now incident current next changedBy reason c.id)

end Clawforge.Incidents

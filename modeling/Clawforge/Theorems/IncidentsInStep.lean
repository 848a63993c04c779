import Clawforge.Theorems.IncidentCommits
import Mathlib

/-!
# Incidents in step with their candidates

A promotion writes a candidate's severity, confidence and summary into its incident and links
its events, all under the candidate's lock; a correlation that adds to the candidate takes the
same lock and reopens it. Locks are exclusive and what a transaction has locked is as it read
it, so each commit finds its promotions `Gathered`.
-/

namespace Clawforge.Incidents

open Correlation Kit List Option

/-! ## Sessions -/

def StageReady (db : Db) : Stage → Prop
  | .next => True
  | .found c existing => ReadAs db c.id existing
  | .owned p => Gathered db p (eventsOf db p.candidate.id)
  | .linking p events => Gathered db p events

def Ready (db : Db) : Promoter → Prop
  | .working _ done stage _ => (∀ p ∈ done, Gathered db p []) ∧ StageReady db stage
  | _ => True

/-- The candidates a promotion has locked are as it read them. -/
structure Prepared (db : Db) (p : Promoter) : Prop where
  current : ∀ c ∈ p.held, c ∈ db.correlation.candidates
  ready : Ready db p

/-- The candidate a correlation has locked is as it read it. -/
def Current (db : Db) (s : Session) : Prop :=
  ∀ r c, s = .holding r c → c ∈ db.correlation.candidates

structure Synced (w : World) : Prop where
  consistent : Consistent w.db
  exclusive : Exclusive (locksOf w)
  correlators : ∀ (k : Nat) (s : Session), w.correlators[k]? = some s → Current w.db s
  promoters : ∀ (k : Nat) (p : Promoter), w.promoters[k]? = some p → Prepared w.db p

variable {s : Session} {k : Nat} {w : World}

theorem Current.untouched {db db' : Db} (h : Current db s)
    (hu : ∀ id ∈ s.lock, (∃ c ∈ db.correlation.candidates, c.id = id) → Untouched id db db') :
    Current db' s := by
  intro r c hs
  have hc := h r c hs
  exact (hu c.id (by rw [hs]; rfl) ⟨c, hc, rfl⟩).mem hc

theorem Prepared.untouched {db db' : Db} {p : Promoter} (h : Prepared db p)
    (hu : ∀ id ∈ p.locks, (∃ c ∈ db.correlation.candidates, c.id = id) → Untouched id db db') :
    Prepared db' p := by
  have hheld : ∀ c ∈ p.held, Untouched c.id db db' := fun c hc =>
    hu c.id (List.mem_map_of_mem hc) ⟨c, h.current c hc, rfl⟩
  refine ⟨fun c hc => (hheld c hc).mem (h.current c hc), ?_⟩
  cases p with
  | idle | selecting | announcing => trivial
  | working start done stage todo =>
    obtain ⟨hdone, hstage⟩ := h.ready
    have hfirst : ∀ c ∈ done.map Promotion.candidate, Untouched c.id db db' := fun c hc =>
      hheld c (mem_append_left _ (mem_append_left _ hc))
    have hnow : ∀ c ∈ stage.candidate, Untouched c.id db db' := fun c hc =>
      hheld c (mem_append_left _ (mem_append_right _ hc))
    refine ⟨fun p hp => (hdone p hp).untouched (hfirst _ (List.mem_map_of_mem hp)), ?_⟩
    cases stage with
    | next => trivial
    | found c existing => exact ReadAs.untouched hstage (hnow c mem_cons_self)
    | linking p events => exact Gathered.untouched hstage (hnow _ mem_cons_self)
    | owned p =>
      have hu := hnow p.candidate mem_cons_self
      refine (Gathered.untouched hstage hu).subset (fun e he => ?_)
      exact mem_eventsOf.2 ((hu.events e).2 (mem_eventsOf.1 he))

theorem mem_lock_of_locksOf {id : Uuid} (hk : w.correlators[k]? = some s) (h : s.lock = some id) :
    id ∈ locksOf w (.correlator k) := by
  simp only [locksOf, hk, bind_some, mem_toList]
  exact h

theorem mem_locks_of_locksOf {p : Promoter} {id : Uuid} (hk : w.promoters[k]? = some p)
    (h : id ∈ p.locks) : id ∈ locksOf w (.promoter k) := by
  simp only [locksOf, hk, map_some, getD_some]
  exact h

/-! ## One step -/

theorem Synced.correlate (h : Synced w) {corr : Correlation.Db} (hs : Correlates w k corr s) :
    Synced (w.setCorrelators corr (w.correlators.set k s)) ∧ Grown w.db.correlation corr := by
  have hpromoters : ∀ j, locksOf (w.setCorrelators corr (w.correlators.set k s)) (.promoter j) =
      locksOf w (.promoter j) := fun _ => rfl
  have hothers : ∀ j, j ≠ k → locksOf (w.setCorrelators corr (w.correlators.set k s))
      (.correlator j) = locksOf w (.correlator j) := by
    intro j hj
    simp only [locksOf, World.setCorrelators, getElem?_set_of_ne hj]
  have hrelease : s.lock = none →
      Exclusive (locksOf (w.setCorrelators corr (w.correlators.set k s))) := by
    intro hnone
    refine h.exclusive.release (fun i => ?_)
    cases i with
    | promoter j => exact (hpromoters j) ▸ Sublist.refl _
    | correlator j =>
      by_cases hj : j = k
      · subst hj
        have hempty : ((w.correlators.set j s)[j]?).bind Session.lock = none := by
          cases hg : (w.correlators.set j s)[j]? with
          | none => rfl
          | some t =>
            rw [eq_of_getElem?_set hg]
            exact hnone
        simp only [locksOf, World.setCorrelators, hempty]
        exact nil_sublist _
      · rw [hothers j hj]
  cases hs with
  | waits hnone =>
    refine ⟨⟨h.consistent, hrelease hnone, fun j t hj => ?_, h.promoters⟩, Grown.refl _⟩
    rcases getElem?_set_cases hj with ⟨-, rfl⟩ | ⟨-, hj⟩
    · intro r c hs
      subst hs
      cases hnone
    · exact h.correlators j t hj
  | @locks r rows c hslot hc hfree =>
    refine ⟨⟨h.consistent, ?_, fun j t hj => ?_, h.promoters⟩, Grown.refl _⟩
    · refine h.exclusive.acquire (i := .correlator k) hfree ?_ (fun i hi => ?_)
      · have hlength : k < w.correlators.length := (List.getElem?_eq_some_iff.1 hslot).1
        simp only [locksOf, World.setCorrelators, hslot, getElem?_set_self hlength,
          bind_some]
        rfl
      · cases i with
        | promoter j => rfl
        | correlator j => exact hothers j (fun hj => hi (congrArg Party.correlator hj))
    · rcases getElem?_set_cases hj with ⟨-, rfl⟩ | ⟨-, hj⟩
      · intro q d hs
        cases hs
        exact hc
      · exact h.correlators j t hj
  | @commits r existing new candidate _ hheld hp =>
    have hex : ∀ c ∈ existing, c ∈ w.db.correlation.candidates := fun c hc =>
      h.correlators k _ (hheld c hc) r c rfl
    -- what another transaction has locked is not the candidate of this one
    have huntouched : ∀ i, i ≠ .correlator k → ∀ id ∈ locksOf w i,
        (∃ c ∈ w.db.correlation.candidates, c.id = id) →
        Untouched id w.db { w.db with correlation := corr } := by
      rintro i hi id hid ⟨c, hc, rfl⟩
      refine untouched_of_persisted hp (fun heq => ?_)
      cases hexisting : existing with
      | none =>
        rw [hp.candidate_eq, hexisting] at heq
        exact Table.get?_eq_none.1 (hp.fresh hexisting) c hc heq
      | some x =>
        rw [hp.candidate_eq, hexisting] at heq
        refine hi (h.exclusive.apart i _ c.id hid ?_)
        exact mem_lock_of_locksOf (hheld x hexisting) (congrArg some heq.symm)
    refine ⟨⟨consistent_of_persisted hp hex h.consistent, hrelease rfl, fun j t hj => ?_,
      fun j p hj => ?_⟩, grown_of_persisted hp hex⟩
    · rcases getElem?_set_cases hj with ⟨-, rfl⟩ | ⟨hne, hj⟩
      · intro r c hs
        cases hs
      · refine (h.correlators j t hj).untouched (fun id hid => huntouched (.correlator j) ?_ id ?_)
        · exact fun heq => hne (Party.correlator.inj heq)
        · exact mem_lock_of_locksOf hj hid
    · exact (h.promoters j p hj).untouched (fun id hid =>
        huntouched (.promoter j) Party.promoter_ne_correlator id (mem_locks_of_locksOf hj hid))

section Promote

variable {w : World} {k : Nat} {p p' : Promoter} {db : Db}

theorem locksOf_setPromoter (hk : w.promoters[k]? = some p) :
    locksOf (w.setPromoter k db p') (.promoter k) = p'.locks := by
  have hlength : k < w.promoters.length := (List.getElem?_eq_some_iff.1 hk).1
  simp only [locksOf, World.setPromoter, getElem?_set_self hlength, map_some,
    getD_some]

theorem locksOf_setPromoter_of_ne {i : Party} (hi : i ≠ .promoter k) :
    locksOf (w.setPromoter k db p') i = locksOf w i := by
  cases i with
  | correlator j => rfl
  | promoter j =>
    have hj : j ≠ k := fun hj => hi (congrArg Party.promoter hj)
    simp only [locksOf, World.setPromoter, getElem?_set_of_ne hj]

/-- A statement that writes nothing and locks nothing more. -/
theorem Synced.proceed (h : Synced w) (hk : w.promoters[k]? = some p)
    (hsub : p'.held.Sublist p.held) (hready : Ready w.db p') :
    Synced (w.setPromoter k w.db p') := by
  refine ⟨h.consistent, h.exclusive.release (fun i => ?_), h.correlators, fun j q hj => ?_⟩
  · by_cases hi : i = .promoter k
    · subst hi
      rw [locksOf_setPromoter hk]
      simp only [locksOf, hk, map_some, getD_some]
      exact hsub.map _
    · rw [locksOf_setPromoter_of_ne hi]
  · rcases getElem?_set_cases hj with ⟨-, rfl⟩ | ⟨-, hj⟩
    · exact ⟨fun c hc => (h.promoters k p hk).current c (hsub.subset hc), hready⟩
    · exact h.promoters j q hj

theorem Synced.pick (h : Synced w) {start : Instant} {limit : Nat} {c now : IncidentCandidate}
    {rows held : List IncidentCandidate}
    (hk : w.promoters[k]? = some (.selecting start limit (c :: rows) held))
    (hnow : now ∈ w.db.correlation.candidates) (hfree : ∀ i, now.id ∉ locksOf w i) :
    Synced (w.setPromoter k w.db (.selecting start limit rows (held ++ [now]))) := by
  refine ⟨h.consistent, ?_, h.correlators, fun j q hj => ?_⟩
  · refine h.exclusive.acquire (i := .promoter k) hfree ?_
      (fun i hi => locksOf_setPromoter_of_ne hi)
    rw [locksOf_setPromoter hk]
    simp only [locksOf, hk, map_some, getD_some, Promoter.locks, Promoter.held,
      map_append, map_cons, map_nil]
  · rcases getElem?_set_cases hj with ⟨-, rfl⟩ | ⟨-, hj⟩
    · refine ⟨fun x hx => ?_, trivial⟩
      rcases mem_append.1 hx with hx | hx
      · exact (h.promoters k _ hk).current x hx
      · rw [mem_singleton.1 hx]
        exact hnow
    · exact h.promoters j q hj

theorem Synced.commitPromotions (h : Synced w) {start : Instant} {done : List Promotion}
    (hk : w.promoters[k]? = some (.working start done .next []))
    (hwrites : done.foldlM (writePromotion start) w.db = some db) (hp' : p'.held = [])
    (hready : Ready db p') :
    Synced (w.setPromoter k db p') ∧ Grown w.db.correlation db.correlation := by
  have hprepared := h.promoters k _ hk
  have hlocks : locksOf w (.promoter k) = done.map (fun p => p.candidate.id) := by
    simp only [locksOf, hk, map_some, getD_some, Promoter.locks, Promoter.held,
      Stage.candidate, append_nil, List.map_map]
    rfl
  have hmem : ∀ q ∈ done, q.candidate ∈ w.db.correlation.candidates := fun q hq =>
    hprepared.current _ (mem_append_left _ (mem_append_left _ (List.mem_map_of_mem hq)))
  obtain ⟨hconsistent, hgrown, huntouched⟩ := promotions_committed hwrites h.consistent
    (fun q hq => ⟨hprepared.ready.1 q hq, hmem q hq⟩) (hlocks ▸ h.exclusive.once (.promoter k))
  -- what another transaction has locked is not among the candidates promoted
  have hothers : ∀ i, i ≠ .promoter k → ∀ id ∈ locksOf w i, Untouched id w.db db := by
    intro i hi id hid
    refine huntouched id (fun hdone => hi (h.exclusive.apart i _ id hid ?_))
    rw [hlocks]
    exact hdone
  refine ⟨⟨hconsistent, h.exclusive.release (fun i => ?_), fun j s hj => ?_, fun j q hj => ?_⟩,
    hgrown⟩
  · by_cases hi : i = .promoter k
    · subst hi
      rw [locksOf_setPromoter hk, Promoter.locks, hp']
      exact nil_sublist _
    · rw [locksOf_setPromoter_of_ne hi]
  · exact (h.correlators j s hj).untouched (fun id hid _ =>
      hothers (.correlator j) Party.promoter_ne_correlator.symm id (mem_lock_of_locksOf hj hid))
  · rcases getElem?_set_cases hj with ⟨-, rfl⟩ | ⟨hne, hj⟩
    · refine ⟨fun c hc => ?_, hready⟩
      rw [hp'] at hc
      exact absurd hc not_mem_nil
    · refine (h.promoters j q hj).untouched (fun id hid _ => hothers (.promoter j) ?_ id ?_)
      · exact fun heq => hne (Party.promoter.inj heq)
      · exact mem_locks_of_locksOf hj hid

theorem Synced.promote (h : Synced w) (hk : w.promoters[k]? = some p)
    (hs : Promotes w p db p') :
    Synced (w.setPromoter k db p') ∧ Grown w.db.correlation db.correlation := by
  have hready := (h.promoters k p hk).ready
  cases hs with
  | select | pass | announced => exact ⟨h.proceed hk (Sublist.refl _) trivial, Grown.refl _⟩
  | pick hnow hopen hfree => exact ⟨h.pick hk hnow hfree, Grown.refl _⟩
  | proceed =>
    refine ⟨h.proceed hk (Sublist.refl _) ⟨?_, trivial⟩, Grown.refl _⟩
    exact fun p hp => absurd hp not_mem_nil
  | @find start done c todo =>
    have hsame : Promoter.held (.working start done (.found c (incidentOf w.db c.id)) todo) =
        Promoter.held (.working start done .next (c :: todo)) := by
      simp only [Promoter.held, Stage.candidate, append_nil, append_assoc,
        cons_append, nil_append]
    exact ⟨h.proceed hk (hsame ▸ Sublist.refl _) ⟨hready.1, readAs_incidentOf w.db c.id⟩,
      Grown.refl _⟩
  | write =>
    exact ⟨h.proceed hk (Sublist.refl _)
      ⟨hready.1, gathered_write h.consistent.once hready.2 _⟩, Grown.refl _⟩
  | readEvents hevents =>
    exact ⟨h.proceed hk (Sublist.refl _)
      ⟨hready.1, Gathered.subset hready.2 (fun e he => hevents.mem_iff.2 he)⟩, Grown.refl _⟩
  | @link start done p todo event events =>
    have hcandidate : (linkEvent w.db p event).candidate = p.candidate := by
      unfold linkEvent
      split <;> rfl
    have hsame : Promoter.held
        (.working start done (.linking (linkEvent w.db p event) events) todo) =
        Promoter.held (.working start done (.linking p (event :: events)) todo) := by
      simp only [Promoter.held, Stage.candidate, hcandidate]
    exact ⟨h.proceed hk (hsame ▸ Sublist.refl _) ⟨hready.1, Gathered.link hready.2⟩,
      Grown.refl _⟩
  | @relate start done p todo indicators =>
    have hsame : Promoter.held
        (.working start (done ++ [Incidents.relate w.db p indicators]) .next todo) =
        Promoter.held (.working start done (.linking p []) todo) := by
      simp only [Promoter.held, Stage.candidate, map_append, map_cons, map_nil,
        append_nil]
      rfl
    refine ⟨h.proceed hk (hsame ▸ Sublist.refl _) ⟨fun q hq => ?_, trivial⟩, Grown.refl _⟩
    rcases mem_append.1 hq with hq | hq
    · exact hready.1 q hq
    · rw [mem_singleton.1 hq]
      exact Gathered.relate hready.2 indicators
  | commit hwrites => exact h.commitPromotions hk hwrites rfl trivial
  | ends => exact ⟨h.proceed hk (nil_sublist _) trivial, Grown.refl _⟩

end Promote

/-- A status change is about no candidate. -/
theorem Synced.operate (h : Synced w) {o o' : Operator} {db : Db} (hs : Operates w o db o') :
    Synced (w.setOperator k db o') ∧ Grown w.db.correlation db.correlation := by
  cases hs with
  | hold | ends => exact ⟨⟨h.consistent, h.exclusive, h.correlators, h.promoters⟩, Grown.refl _⟩
  | @commit now incident current next changedBy reason =>
    have hu := untouched_writeTransition w.db now incident current next changedBy reason
    refine ⟨⟨h.consistent.transition now incident current next changedBy reason, h.exclusive,
      fun j s hj => ?_, fun j p hj => ?_⟩, Grown.refl _⟩
    · exact (h.correlators j s hj).untouched (fun id _ _ => hu id)
    · exact (h.promoters j p hj).untouched (fun id _ _ => hu id)

theorem Synced.step {w' : World} {a : Action} (h : Synced w) (hstep : exec w a = some w') :
    Synced w' ∧ Grown w.db.correlation w'.db.correlation := by
  cases a with
  | correlate a =>
    obtain ⟨k, s, corr, rfl, hs⟩ := correlate_eq_some hstep
    exact h.correlate hs
  | promote k a =>
    obtain ⟨p, hk, hstep⟩ := bind_eq_some_iff.1 hstep
    obtain ⟨⟨db, p'⟩, hs, rfl⟩ := map_eq_some_iff.1 hstep
    exact h.promote hk (promotes_of_promoterStep hs)
  | operate k a =>
    obtain ⟨o, -, hstep⟩ := bind_eq_some_iff.1 hstep
    obtain ⟨⟨db, o'⟩, hs, rfl⟩ := map_eq_some_iff.1 hstep
    exact h.operate (operates_of_operatorStep hs)

/-! ## Every run -/

theorem synced_init (h : Initial w) : Synced w := by
  obtain ⟨hcandidates, hincidents, -, hrelations, ⟨m, hcorrelators⟩, ⟨n, hpromoters⟩, -⟩ := h
  have hidle : ∀ (k : Nat) (s : Session), w.correlators[k]? = some s → s = .idle := by
    intro k s hk
    rw [hcorrelators] at hk
    exact eq_of_mem_replicate (mem_of_getElem? hk)
  have hrest : ∀ (k : Nat) (p : Promoter), w.promoters[k]? = some p → p = .idle := by
    intro k p hk
    rw [hpromoters] at hk
    exact eq_of_mem_replicate (mem_of_getElem? hk)
  have hnothing : ∀ i, locksOf w i = [] := by
    intro i
    cases i with
    | correlator k =>
      cases hk : w.correlators[k]? with
      | none => simp [locksOf, hk]
      | some s => simp [locksOf, hk, hidle k s hk, Session.lock]
    | promoter k =>
      cases hk : w.promoters[k]? with
      | none => simp [locksOf, hk]
      | some p => simp [locksOf, hk, hrest k p hk, Promoter.locks, Promoter.held]
  have hnone : ∀ c, c ∉ w.db.correlation.candidates := by
    intro c
    rw [hcandidates]
    exact Table.not_mem_empty
  constructor
  case consistent =>
    refine ⟨fun c hc => absurd hc (hnone c), fun incident e => ?_,
      fun c hc => absurd hc (hnone c)⟩
    rw [hrelations]
    exact Nat.zero_le 1
  case exclusive => exact exclusive_nil.release (fun i => (hnothing i) ▸ Sublist.refl _)
  case correlators =>
    intro k s hk r c hs
    rw [hidle k s hk] at hs
    cases hs
  case promoters =>
    intro k p hk
    rw [hrest k p hk]
    exact ⟨fun c hc => absurd hc not_mem_nil, trivial⟩

theorem inductive_synced : incidentSystem.Inductive Synced where
  init _ h := synced_init h
  step _ _ _ h hstep := (h.step hstep).1

/-- In every reachable state every candidate has at most one incident, and a promoted one is
shown by its incident; and along every run candidates only grow. -/
theorem incidents_in_step :
    incidentSystem.Invariant (fun w => InStep w.db ∧ ∀ ls w', incidentSystem.Run w ls w' →
      Grown w.db.correlation w'.db.correlation) := by
  intro w hw
  have hsynced := inductive_synced.invariant w hw
  refine ⟨hsynced.consistent.inStep, fun ls w' hrun => ?_⟩
  exact hrun.relates (I := Synced) (R := fun a b => Grown a.db.correlation b.db.correlation)
    (fun _ => Grown.refl _) (fun _ _ _ => Grown.trans)
    (fun _ _ _ h hstep => (h.step hstep).1) (fun _ _ _ h hstep => (h.step hstep).2) hsynced

/-! ## A candidate reopened while it is promoted -/

/-- One event of the key. -/
def requestOf (time : Instant) (event : Uuid) : CorrelationPersistence :=
  { requestAt time with eventIds := [event], ordered := le_refl time }

/-- The candidate of the first event. -/
def firstCandidate (status : CandidateStatus) : IncidentCandidate :=
  { insertRow (requestOf 0 5) 1 with eventCount := 1, status := status }

/-- The second event as well. -/
def secondCandidate : IncidentCandidate :=
  { extendRow (requestOf 10 6) .high (firstCandidate .promoted) with eventCount := 2 }

/-- The second event is looked up while the first promotion holds the candidate; the promotion
that follows links it. -/
theorem reopened_in_step : ∃ w, incidentSystem.Reachable w ∧
    w.db.correlation.candidates.rows = [promotedRow secondCandidate] ∧
    w.db.relations.map RelationRow.eventId = [some 5, some 6] ∧ InStep w.db := by
  let tables : Db :=
    ⟨emptyDb, Table.empty _, [], [], fun _ h => absurd h Table.not_mem_empty,
      fun _ h => absurd h not_mem_nil⟩
  let s₀ : World := ⟨tables, [.idle], [.idle], []⟩
  let actions : List Action :=
    [.correlate (.lookup 0 (requestOf 0 5) []), .correlate (.commit 0 1),
      .promote 0 (.select 0 10 [firstCandidate .opened]), .promote 0 .pick,
      .correlate (.lookup 0 (requestOf 10 6) [firstCandidate .opened]), .promote 0 .proceed,
      .promote 0 .find, .promote 0 (.write 100), .promote 0 (.readEvents [5]), .promote 0 .link,
      .promote 0 (.relate []), .promote 0 .commit, .promote 0 .announced, .promote 0 .announced,
      .correlate (.lock 0), .correlate (.commit 0 0),
      .promote 0 (.select 20 10 [secondCandidate]), .promote 0 .pick, .promote 0 .proceed,
      .promote 0 .find, .promote 0 (.write 0), .promote 0 (.readEvents [5, 6]),
      .promote 0 .link, .promote 0 .link, .promote 0 (.relate []), .promote 0 .commit]
  have hrun : (TSys.execAll exec s₀ actions).map (fun w =>
      (w.db.correlation.candidates.rows, w.db.relations.map RelationRow.eventId)) =
      some ([promotedRow secondCandidate], [some 5, some 6]) := by decide_cbv
  obtain ⟨w, hw, hstate⟩ := map_eq_some_iff.1 hrun
  obtain ⟨hrows, hrelations⟩ := Prod.mk.inj hstate
  have hreach : incidentSystem.Reachable w :=
    ⟨s₀, actions, ⟨rfl, rfl, rfl, rfl, ⟨1, rfl⟩, ⟨1, rfl⟩, 0, rfl⟩,
      TSys.run_of_execAll Initial exec hw⟩
  exact ⟨w, hreach, hrows, hrelations, (incidents_in_step w hreach).1⟩

end Clawforge.Incidents

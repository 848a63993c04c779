import Mathlib.Data.Fintype.EquivFin
import Clawforge.Kit.Grouping
import Clawforge.Storage.Correlation

/-!
# Requests processed one after the other

`persist_correlation` compares the end of a candidate with the start of a request
and not the other way round, and merges no two candidates. For requests of one key
and one window, processed in sequence, this makes it a single pass: a request that
starts more than the window after every end before it opens a candidate, any other
joins the candidate of the request before it (`Tracks.onePass`). So the candidates
are the chains of near requests exactly for the orders `InGroups` describes, and for
every order exactly if any two requests are near each other (`grouping_iff`).
-/

namespace Clawforge.Correlation

open Kit CorrelationPersistence Table List Option

/-! ## The sequence of requests -/

/-- The tables and, newest first, the requests stored with the candidate each
ended in. -/
structure Sequence where
  db : Db
  placed : List (CorrelationPersistence × Uuid)

/-- One request, the rows its lookup returns and the id it would draw. -/
structure Turn where
  request : CorrelationPersistence
  rows : List IncidentCandidate
  new : Uuid

def takeTurn (w : Sequence) (t : Turn) : Option Sequence :=
  if IsScan w.db t.request t.rows then
    (persistCorrelation w.db t.request t.rows.head? t.new).map
      (fun (db, candidate) => { db := db, placed := (t.request, candidate) :: w.placed })
  else none

/-- The runs of `persist_correlation` over a store. -/
def sequence (db : Db) : TSys Sequence Turn :=
  TSys.ofExec (fun w => w = ⟨db, []⟩) takeTurn

/-- The requests, in this order, lead to `w`. -/
def Processed (db : Db) (requests : List CorrelationPersistence) (w : Sequence) : Prop :=
  ∃ turns, turns.map Turn.request = requests ∧ (sequence db).Run ⟨db, []⟩ turns w

variable {w w' : Sequence} {db : Db} {r : CorrelationPersistence} {c : IncidentCandidate}
  {key : String}

theorem takeTurn_eq_some {t : Turn} (h : takeTurn w t = some w') :
    IsScan w.db t.request t.rows ∧ ∃ candidate,
      Persisted w.db t.request t.rows.head? t.new w'.db candidate ∧
        w'.placed = (t.request, candidate) :: w.placed := by
  unfold takeTurn at h
  split at h
  · obtain ⟨⟨db, candidate⟩, hp, rfl⟩ := map_eq_some_iff.1 h
    exact ⟨by assumption, candidate, persistCorrelation_spec hp, rfl⟩
  · cases h

/-- Every store has a lookup to answer with, and an id no candidate has. -/
theorem exists_turn (w : Sequence) (r : CorrelationPersistence) :
    ∃ t w', t.request = r ∧ takeTurn w t = some w' := by
  let le : IncidentCandidate → IncidentCandidate → Prop := fun c d => d.lastSeen ≤ c.lastSeen
  let rows := (w.db.candidates.rows.filter (fun c => Matches r c)).insertionSort le
  have htotal : ∀ a b, le a b ∨ le b a := fun a b => Nat.le_total _ _
  have htrans : ∀ a b c, le a b → le b c → le a c := fun a b c hab hbc => Nat.le_trans hbc hab
  have hscan : IsScan w.db r rows := by
    refine ⟨perm_insertionSort le _, ?_⟩
    have : Std.Total le := ⟨htotal⟩
    have : IsTrans IncidentCandidate le := ⟨htrans⟩
    exact pairwise_insertionSort le _
  obtain ⟨new, hnew⟩ :=
    Infinite.exists_notMem_finset (w.db.candidates.rows.map IncidentCandidate.id).toFinset
  have hfree : w.db.candidates.get? new = none := by
    rw [get?_eq_none]
    intro c hc hid
    exact hnew (List.mem_toFinset.2 (List.mem_map.2 ⟨c, hc, hid⟩))
  have hsome : (persistCorrelation w.db r rows.head? new).isSome :=
    persistCorrelation_isSome w.db r (fun c hc => (hscan.head hc).1) (fun _ => hfree)
  obtain ⟨⟨db, candidate⟩, hp⟩ := isSome_iff_exists.1 hsome
  refine ⟨⟨r, rows, new⟩, ⟨db, (r, candidate) :: w.placed⟩, rfl, ?_⟩
  unfold takeTurn
  rw [if_pos hscan, hp]
  rfl

theorem exists_processed (db : Db) (requests : List CorrelationPersistence) :
    ∃ w, Processed db requests w := by
  have step : ∀ (rs : List CorrelationPersistence) (w : Sequence),
      ∃ turns w', turns.map Turn.request = rs ∧ (sequence db).Run w turns w' := by
    intro rs
    induction rs with
    | nil => exact fun w => ⟨[], w, rfl, .nil w⟩
    | cons r rs ih =>
      intro w
      obtain ⟨t, w₁, rfl, ht⟩ := exists_turn w r
      obtain ⟨turns, w', rfl, hrun⟩ := ih w₁
      exact ⟨t :: turns, w', rfl, .cons ht hrun⟩
  obtain ⟨turns, w, hmap, hrun⟩ := step requests ⟨db, []⟩
  exact ⟨w, turns, hmap, hrun⟩

/-! ## What a sequence keeps -/

/-- A candidate that the lookups for `key` consider. -/
def IncidentCandidate.Of (key : String) (c : IncidentCandidate) : Prop :=
  c.correlationKey = key ∧ c.live = true

/-- A request starts more than the window after the end of all requests before it. -/
def Fresh (before : List CorrelationPersistence) (r : CorrelationPersistence) : Prop :=
  ∀ b ∈ before, b.lastSeen + r.window < r.firstSeen

/-- The candidate's values are those of the requests `S`. -/
structure Aggregates (db : Db) (S : Set CorrelationPersistence) (c : IncidentCandidate) :
    Prop where
  firstSeen : IsLeast (Set.image CorrelationPersistence.firstSeen S) c.firstSeen
  lastSeen : IsGreatest (Set.image CorrelationPersistence.lastSeen S) c.lastSeen
  severity : IsGreatest (Set.image (fun r => rank r.severity) S) (rank c.severity)
  confidence : IsGreatest (Set.image confidence100 S) c.confidence
  events : ∀ e, (c.id, e) ∈ db.candidateEvents ↔ ∃ r ∈ S, e ∈ r.eventIds

/-- The candidates of a key are those of the requests placed, and the newest of them
is the candidate of the last request. -/
structure Tracks (key : String) (w : Sequence) : Prop where
  stored : ∀ p ∈ w.placed, ∃ c ∈ w.db.candidates, c.id = p.2 ∧ c.Of key
  owned : ∀ c ∈ w.db.candidates, c.Of key → ∃ p ∈ w.placed, p.2 = c.id
  aggregates : ∀ c ∈ w.db.candidates, c.Of key → Aggregates w.db (members w.placed c.id) c
  newest : ∀ p ∈ w.placed.head?, ∀ d ∈ w.db.candidates, d.id = p.2 →
    ∀ c ∈ w.db.candidates, c.Of key → c.id ≠ p.2 → c.lastSeen < d.lastSeen
  onePass : OnePass Fresh w.placed

theorem aggregates_insertRow {new : Uuid} {n : Nat}
    (hevents : ∀ e, (new, e) ∈ db.candidateEvents ↔ e ∈ r.eventIds) :
    Aggregates db {r} { insertRow r new with eventCount := n } where
  firstSeen := by rw [Set.image_singleton]; exact isLeast_singleton
  lastSeen := by rw [Set.image_singleton]; exact isGreatest_singleton
  severity := by rw [Set.image_singleton]; exact isGreatest_singleton
  confidence := by rw [Set.image_singleton]; exact isGreatest_singleton
  events e := by
    refine (hevents e).trans ⟨fun he => ⟨r, rfl, he⟩, ?_⟩
    rintro ⟨x, rfl, he⟩
    exact he

theorem Aggregates.extendRow {db' : Db} {S : Set CorrelationPersistence} {n : Nat}
    (h : Aggregates db S c)
    (hevents : ∀ e, (c.id, e) ∈ db'.candidateEvents ↔
      (c.id, e) ∈ db.candidateEvents ∨ e ∈ r.eventIds) :
    Aggregates db' (insert r S) { extendRow r c.severity c with eventCount := n } where
  firstSeen := isLeast_image_insert h.firstSeen
  lastSeen := isGreatest_image_insert h.lastSeen
  severity := by
    have hmax := isGreatest_image_insert (a := r) h.severity
    rw [← rank_maxIncidentSeverity] at hmax
    exact hmax
  confidence := isGreatest_image_insert h.confidence
  events e := by
    refine (hevents e).trans ?_
    rw [h.events e]
    constructor
    · rintro (⟨x, hx, he⟩ | he)
      · exact ⟨x, Set.mem_insert_of_mem _ hx, he⟩
      · exact ⟨r, Set.mem_insert _ _, he⟩
    · rintro ⟨x, hx, he⟩
      rcases Set.mem_insert_iff.1 hx with rfl | hx
      · exact .inr he
      · exact .inl ⟨x, hx, he⟩

/-- The candidate a lookup finds is the one of the last request. -/
theorem Tracks.found (h : Tracks key w) (hkey : r.correlationKey = key)
    {rows : List IncidentCandidate} (hscan : IsScan w.db r rows) (hc : rows.head? = some c) :
    ∃ b rest, w.placed = (b, c.id) :: rest := by
  obtain ⟨hstored, ⟨hck, hlive, hfrom⟩, hmax⟩ := hscan.head hc
  have hof : c.Of key := ⟨hck.trans hkey, hlive⟩
  obtain ⟨p, hp, -⟩ := h.owned c hstored hof
  cases hplaced : w.placed with
  | nil =>
    rw [hplaced] at hp
    exact absurd hp not_mem_nil
  | cons q rest =>
    have hhead : q ∈ w.placed.head? := by rw [hplaced]; exact rfl
    obtain ⟨d, hd, hdq, hdof⟩ := h.stored q (mem_of_mem_head? hhead)
    have hid : c.id = q.2 := by
      by_contra hne
      -- the newest candidate would match as well and end later
      have hlt : c.lastSeen < d.lastSeen := h.newest q hhead d hd hdq c hstored hof hne
      have hmatch : Matches r d :=
        ⟨hdof.1.trans hkey.symm, hdof.2, hfrom.trans hlt.le⟩
      exact absurd (hmax d hd hmatch) (Nat.not_le.2 hlt)
    exact ⟨q.1, rest, by rw [hid]⟩

/-- A lookup finds a candidate exactly if the request is not apart from all before. -/
theorem Tracks.fresh_iff (h : Tracks key w) (hkey : r.correlationKey = key)
    {rows : List IncidentCandidate} (hscan : IsScan w.db r rows) :
    Fresh (w.placed.map Prod.fst) r ↔ rows.head? = none := by
  constructor
  · intro hfresh
    cases hc : rows.head? with
    | none => rfl
    | some c =>
      obtain ⟨hstored, ⟨hck, hlive, hfrom⟩, -⟩ := hscan.head hc
      obtain ⟨b, hb, hlast⟩ := (h.aggregates c hstored ⟨hck.trans hkey, hlive⟩).lastSeen.1
      have hlt := hfresh b (List.mem_map_of_mem hb)
      rw [hlast] at hlt
      exact absurd (Nat.sub_le_iff_le_add.1 hfrom) (Nat.not_le.2 hlt)
  · intro hnone b hb
    obtain ⟨p, hp, rfl⟩ := List.mem_map.1 hb
    obtain ⟨c, hc, hid, hof⟩ := h.stored p hp
    have hle : p.1.lastSeen ≤ c.lastSeen :=
      (h.aggregates c hc hof).lastSeen.2 ⟨p.1, by rw [hid]; exact hp, rfl⟩
    have hno : ¬ Matches r c := by
      intro hm
      have hmem : c ∈ rows := hscan.mem_iff.2 ⟨hc, hm⟩
      rw [head?_eq_none_iff.1 hnone] at hmem
      exact not_mem_nil hmem
    by_contra hlt
    refine hno ⟨hof.1.trans hkey.symm, hof.2, Nat.sub_le_iff_le_add.2 ?_⟩
    exact (Nat.not_lt.1 hlt).trans (Nat.add_le_add_right hle _)

/-- The values of a candidate a request does not end in are still its own. -/
theorem Persisted.aggregates_of_ne {db' : Db} {existing : Option IncidentCandidate}
    {new candidate : Uuid} (h : Persisted db r existing new db' candidate)
    {ps : List (CorrelationPersistence × Uuid)} (hne : c.id ≠ candidate)
    (hagg : Aggregates db (members ps c.id) c) :
    Aggregates db' (members ((r, candidate) :: ps) c.id) c := by
  rw [members_cons_of_ne hne]
  refine { hagg with events := fun e => ?_ }
  rw [← hagg.events e, h.events (c.id, e)]
  exact ⟨fun he => he.resolve_right (fun hc => hne hc.1), .inl⟩

theorem Tracks.open_candidate {t : Turn} (h : Tracks key w) (hscan : IsScan w.db t.request t.rows)
    (hnone : t.rows.head? = none) (hp : Persisted w.db t.request none t.new w'.db t.new)
    (hplaced : w'.placed = (t.request, t.new) :: w.placed) (hkey : t.request.correlationKey = key) :
    Tracks key w' := by
  have hunused : ∀ c ∈ w.db.candidates, c.id ≠ t.new := get?_eq_none.1 (hp.fresh rfl)
  have hlabel : ∀ p ∈ w.placed, p.2 ≠ t.new := by
    intro p hq
    obtain ⟨c, hc, hid, -⟩ := h.stored p hq
    exact hid ▸ hunused c hc
  have hfresh : Fresh (w.placed.map Prod.fst) t.request := (h.fresh_iff hkey hscan).2 hnone
  obtain ⟨n, hmem⟩ := hp.mem_candidates (fun c hc => nomatch hc)
  have old : ∀ c ∈ w.db.candidates, c ∈ w'.db.candidates := fun c hc =>
    (hmem c).2 (.inl ⟨hc, hunused c hc⟩)
  constructor
  case stored =>
    rw [hplaced]
    intro p hq
    rcases mem_cons.1 hq with rfl | hq
    · exact ⟨_, (hmem _).2 (.inr rfl), rfl, hkey, rfl⟩
    · obtain ⟨c, hc, hid, hof⟩ := h.stored p hq
      exact ⟨c, old c hc, hid, hof⟩
  case owned =>
    rw [hplaced]
    intro c hc hof
    rcases (hmem c).1 hc with ⟨hc, -⟩ | rfl
    · obtain ⟨p, hq, hid⟩ := h.owned c hc hof
      exact ⟨p, mem_cons_of_mem _ hq, hid⟩
    · exact ⟨_, mem_cons_self, rfl⟩
  case aggregates =>
    rw [hplaced]
    intro c hc hof
    rcases (hmem c).1 hc with ⟨hc, hne⟩ | rfl
    · exact hp.aggregates_of_ne hne (h.aggregates c hc hof)
    · show Aggregates w'.db (members _ t.new) _
      have hempty : members w.placed t.new = ∅ :=
        Set.eq_empty_of_forall_notMem (fun b hb => hlabel _ hb rfl)
      rw [members_cons, hempty, LawfulSingleton.insert_empty_eq]
      refine aggregates_insertRow (fun e => ?_)
      rw [hp.events (t.new, e)]
      refine ⟨fun he => ?_, fun he => .inr ⟨rfl, he⟩⟩
      rcases he with he | ⟨-, he⟩
      · obtain ⟨c, hc⟩ := isSome_iff_exists.1 (w.db.references _ he)
        exact absurd (key_of_get? hc) (hunused c (mem_of_get? hc))
      · exact he
  case newest =>
    rw [hplaced]
    intro p hq d hd hdid c hc hof hne
    cases hq
    have hd' : d.lastSeen = t.request.lastSeen := by
      rcases (hmem d).1 hd with ⟨-, hdne⟩ | rfl
      · exact absurd hdid hdne
      · rfl
    rcases (hmem c).1 hc with ⟨hc, -⟩ | rfl
    · have hno : c ∉ t.rows := by
        rw [head?_eq_none_iff.1 hnone]
        exact not_mem_nil
      have hlt : c.lastSeen < t.request.firstSeen - t.request.window := by
        by_contra hle
        exact hno (hscan.mem_iff.2
          ⟨hc, hof.1.trans hkey.symm, hof.2, Nat.not_lt.1 hle⟩)
      rw [hd']
      exact hlt.trans_le ((Nat.sub_le _ _).trans t.request.ordered)
    · exact absurd rfl hne
  case onePass =>
    rw [hplaced]
    exact .apart h.onePass hfresh hlabel

theorem Tracks.extend_candidate {t : Turn} (h : Tracks key w) (hscan : IsScan w.db t.request t.rows)
    (hsome : t.rows.head? = some c) (hp : Persisted w.db t.request (some c) t.new w'.db c.id)
    (hplaced : w'.placed = (t.request, c.id) :: w.placed) (hkey : t.request.correlationKey = key) :
    Tracks key w' := by
  obtain ⟨hstored, hmatch, -⟩ := hscan.head hsome
  have hcof : c.Of key := ⟨hmatch.1.trans hkey, hmatch.2.1⟩
  obtain ⟨b, rest, hlast⟩ := h.found hkey hscan hsome
  have hold : ¬ Fresh (w.placed.map Prod.fst) t.request := by
    rw [h.fresh_iff hkey hscan, hsome]
    exact fun hn => nomatch hn
  obtain ⟨n, hmem⟩ := hp.mem_candidates (fun x hx => by cases hx; exact hstored)
  constructor
  case stored =>
    rw [hplaced]
    intro p hq
    have row : c.id = p.2 → ∃ x ∈ w'.db.candidates, x.id = p.2 ∧ x.Of key := fun hid =>
      ⟨_, (hmem _).2 (.inr rfl), hid, hcof.1, rfl⟩
    rcases mem_cons.1 hq with rfl | hq
    · exact row rfl
    · obtain ⟨x, hx, hid, hof⟩ := h.stored p hq
      by_cases hxc : x.id = c.id
      · exact row (hxc.symm.trans hid)
      · exact ⟨x, (hmem x).2 (.inl ⟨hx, hxc⟩), hid, hof⟩
  case owned =>
    rw [hplaced]
    intro x hx hof
    rcases (hmem x).1 hx with ⟨hx, -⟩ | rfl
    · obtain ⟨p, hq, hid⟩ := h.owned x hx hof
      exact ⟨p, mem_cons_of_mem _ hq, hid⟩
    · exact ⟨_, mem_cons_self, rfl⟩
  case aggregates =>
    rw [hplaced]
    intro x hx hof
    rcases (hmem x).1 hx with ⟨hx, hne⟩ | rfl
    · exact hp.aggregates_of_ne hne (h.aggregates x hx hof)
    · show Aggregates w'.db (members _ c.id) _
      rw [members_cons]
      refine (h.aggregates c hstored hcof).extendRow (fun e => ?_)
      rw [hp.events (c.id, e)]
      exact or_congr_right (and_iff_right rfl)
  case newest =>
    rw [hplaced]
    intro p hq d hd hdid x hx hof hne
    cases hq
    have hd' : d.lastSeen = max c.lastSeen t.request.lastSeen := by
      rcases (hmem d).1 hd with ⟨-, hdne⟩ | rfl
      · exact absurd hdid hdne
      · rfl
    rcases (hmem x).1 hx with ⟨hx, -⟩ | rfl
    · have hhead : (b, c.id) ∈ w.placed.head? := by rw [hlast]; exact rfl
      have hlt : x.lastSeen < c.lastSeen := h.newest _ hhead c hstored rfl x hx hof hne
      rw [hd']
      exact hlt.trans_le (le_max_left _ _)
    · exact absurd rfl hne
  case onePass =>
    rw [hplaced]
    have hpass := h.onePass
    rw [hlast] at hpass hold ⊢
    exact .beside hpass hold

theorem Tracks.step {t : Turn} (h : Tracks key w) (hstep : takeTurn w t = some w')
    (hkey : t.request.correlationKey = key) : Tracks key w' := by
  obtain ⟨hscan, candidate, hp, hplaced⟩ := takeTurn_eq_some hstep
  have hid := hp.candidate_eq
  cases hhead : t.rows.head? with
  | none =>
    rw [hhead] at hp hid
    subst hid
    exact h.open_candidate hscan hhead hp hplaced hkey
  | some c =>
    rw [hhead] at hp hid
    subst hid
    exact h.extend_candidate hscan hhead hp hplaced hkey

/-! ## Runs -/

theorem tracks_init (hdb : ∀ c ∈ db.candidates, ¬ c.Of key) :
    Tracks key ⟨db, []⟩ where
  stored _ hp := absurd hp not_mem_nil
  owned c hc hof := absurd hof (hdb c hc)
  aggregates c hc hof := absurd hof (hdb c hc)
  newest _ hp := nomatch hp
  onePass := .nil

theorem Tracks.run {turns : List Turn} (hrun : (sequence db).Run w turns w') (h : Tracks key w)
    (hkey : ∀ t ∈ turns, t.request.correlationKey = key) : Tracks key w' := by
  induction hrun with
  | nil _ => exact h
  | cons hstep _ ih =>
    exact ih (h.step hstep (hkey _ mem_cons_self))
      (fun t ht => hkey t (mem_cons_of_mem _ ht))

theorem placed_run {turns : List Turn} (hrun : (sequence db).Run w turns w') :
    w'.placed.map Prod.fst = (turns.map Turn.request).reverse ++ w.placed.map Prod.fst := by
  induction hrun with
  | nil _ => rfl
  | @cons w t w₁ turns w' hstep _ ih =>
    obtain ⟨-, candidate, -, hplaced⟩ := takeTurn_eq_some hstep
    rw [ih, hplaced]
    simp

theorem Processed.tracks {requests : List CorrelationPersistence} (h : Processed db requests w)
    (hkey : ∀ r ∈ requests, r.correlationKey = key) (hdb : ∀ c ∈ db.candidates, ¬ c.Of key) :
    Tracks key w ∧ w.placed.map Prod.fst = requests.reverse := by
  obtain ⟨turns, rfl, hrun⟩ := h
  refine ⟨(tracks_init hdb).run hrun (fun t ht => hkey _ (List.mem_map_of_mem ht)), ?_⟩
  rw [placed_run hrun]
  exact append_nil _

/-! ## Grouping by the window -/

/-- Two requests end in the same candidate exactly if a chain of near requests
connects them. -/
def GroupsByWindow (requests : List CorrelationPersistence) (w : Sequence) : Prop :=
  Groups (Linked Near requests) w.placed

/-- Every request, as it is processed, either starts more than the window after all
before it and no chain connects it with them, or a chain connects it with the request
just before it. -/
def InGroups (requests : List CorrelationPersistence) : Prop :=
  Arrives Fresh (Linked Near requests) requests.reverse

structure Profile where
  firstSeen : Instant
  lastSeen : Instant
  severity : IncidentSeverity
  confidence : Int
  events : Set Uuid

def profile (db : Db) (c : IncidentCandidate) : Profile where
  firstSeen := c.firstSeen
  lastSeen := c.lastSeen
  severity := c.severity
  confidence := c.confidence
  events := {e | (c.id, e) ∈ db.candidateEvents}

instance (key : String) : DecidablePred (IncidentCandidate.Of key) :=
  fun _ => inferInstanceAs (Decidable (_ ∧ _))

/-- The candidates of a key, as the requests shaped them. -/
def results (db : Db) (key : String) : List Profile :=
  (db.candidates.rows.filter (fun c => c.Of key)).map (profile db)

theorem linked_near_equivalence (requests : List CorrelationPersistence) :
    Equivalence (Linked Near requests) :=
  linked_equivalence (fun _ _ => Near.symm) requests

theorem Processed.groups_iff {requests order : List CorrelationPersistence}
    (h : Processed db order w) (hperm : order.Perm requests)
    (hkey : ∀ r ∈ requests, r.correlationKey = key) (hdb : ∀ c ∈ db.candidates, ¬ c.Of key) :
    GroupsByWindow requests w ↔ InGroups order := by
  obtain ⟨htracks, hplaced⟩ := h.tracks (fun r hr => hkey r (hperm.mem_iff.1 hr)) hdb
  rw [GroupsByWindow, InGroups, linked_perm hperm, ← hplaced]
  exact htracks.onePass.groups_iff (linked_near_equivalence requests)

/-- The candidates of two equal groups have the same values. -/
theorem Aggregates.profile_eq {db' : Db} {S : Set CorrelationPersistence} {c' : IncidentCandidate}
    (h : Aggregates db S c) (h' : Aggregates db' S c') : profile db c = profile db' c' := by
  have hevents : {e | (c.id, e) ∈ db.candidateEvents} =
      {e | (c'.id, e) ∈ db'.candidateEvents} := by
    ext e
    exact (h.events e).trans (h'.events e).symm
  unfold profile
  rw [h.firstSeen.unique h'.firstSeen, h.lastSeen.unique h'.lastSeen,
    rank_injective (h.severity.unique h'.severity), h.confidence.unique h'.confidence, hevents]

section Results

variable {db : Db} {key : String} {requests : List CorrelationPersistence} {w w' : Sequence}

/-- Where the groups are the chains, no two candidates have the same values. -/
theorem Tracks.nodup_results (h : Tracks key w) (hreq : ∀ p ∈ w.placed, p.1 ∈ requests)
    (hgroups : GroupsByWindow requests w) : (results w.db key).Nodup := by
  unfold results
  refine Nodup.map_on ?_ ((Nodup.of_map _ w.db.candidates.unique).filter _)
  intro c hc d hd hprofile
  have hc' := mem_filter.1 hc
  have hd' := mem_filter.1 hd
  have hcof : c.Of key := of_decide_eq_true hc'.2
  have hdof : d.Of key := of_decide_eq_true hd'.2
  -- requests that start together are near, so their candidates are one
  obtain ⟨a, ha, hafirst⟩ := (h.aggregates c hc'.1 hcof).firstSeen.1
  obtain ⟨b, hb, hbfirst⟩ := (h.aggregates d hd'.1 hdof).firstSeen.1
  have hsame : a.firstSeen = b.firstSeen :=
    hafirst.trans ((congrArg Profile.firstSeen hprofile).trans hbfirst.symm)
  have hnear : Near a b :=
    ⟨hsame.le.trans (b.ordered.trans (Nat.le_add_right _ _)),
      hsame.ge.trans (a.ordered.trans (Nat.le_add_right _ _))⟩
  have hid : c.id = d.id :=
    (hgroups _ ha _ hb).2 (Linked.of_related (hreq _ ha) (hreq _ hb) hnear)
  exact eq_of_key_eq hc'.1 hd'.1 hid

theorem Tracks.results_subset (h : Tracks key w) (h' : Tracks key w')
    (hitems : ∀ a, a ∈ w.placed.map Prod.fst ↔ a ∈ w'.placed.map Prod.fst)
    (hgroups : GroupsByWindow requests w) (hgroups' : GroupsByWindow requests w') :
    results w.db key ⊆ results w'.db key := by
  intro p hp
  obtain ⟨c, hc, rfl⟩ := List.mem_map.1 hp
  obtain ⟨hcmem, hcof⟩ := mem_filter.1 hc
  have hcof' : c.Of key := of_decide_eq_true hcof
  obtain ⟨⟨a, k⟩, ha, rfl⟩ := h.owned c hcmem hcof'
  obtain ⟨k', hk', hmembers⟩ := hgroups.same_members hgroups' hitems ha
  obtain ⟨d, hd, rfl, hdof⟩ := h'.stored _ hk'
  have hagg : Aggregates w'.db (members w.placed c.id) d :=
    hmembers ▸ h'.aggregates d hd hdof
  rw [(h.aggregates c hcmem hcof').profile_eq hagg]
  exact List.mem_map_of_mem (mem_filter.2 ⟨hd, decide_eq_true hdof⟩)

/-- Two orders that both find the chains leave the same candidates. -/
theorem results_perm {order order' : List CorrelationPersistence}
    (horder : order.Perm requests) (horder' : order'.Perm requests)
    (hw : Processed db order w) (hw' : Processed db order' w')
    (hkey : ∀ r ∈ requests, r.correlationKey = key)
    (hdb : ∀ c ∈ db.candidates, ¬ c.Of key)
    (hgroups : GroupsByWindow requests w) (hgroups' : GroupsByWindow requests w') :
    (results w.db key).Perm (results w'.db key) := by
  obtain ⟨htracks, hplaced⟩ := hw.tracks (fun r hr => hkey r (horder.mem_iff.1 hr)) hdb
  obtain ⟨htracks', hplaced'⟩ := hw'.tracks (fun r hr => hkey r (horder'.mem_iff.1 hr)) hdb
  have items : ∀ a, a ∈ w.placed.map Prod.fst ↔ a ∈ requests := fun a => by
    rw [hplaced, mem_reverse, horder.mem_iff]
  have items' : ∀ a, a ∈ w'.placed.map Prod.fst ↔ a ∈ requests := fun a => by
    rw [hplaced', mem_reverse, horder'.mem_iff]
  have hnodup := htracks.nodup_results
    (fun p hp => (items p.1).1 (List.mem_map_of_mem hp)) hgroups
  have hnodup' := htracks'.nodup_results
    (fun p hp => (items' p.1).1 (List.mem_map_of_mem hp)) hgroups'
  refine (perm_ext_iff_of_nodup hnodup hnodup').2 (fun p => ⟨fun hp => ?_, fun hp => ?_⟩)
  · exact htracks.results_subset htracks' (fun a => (items a).trans (items' a).symm)
      hgroups hgroups' hp
  · exact htracks'.results_subset htracks (fun a => (items' a).trans (items a).symm)
      hgroups' hgroups hp

end Results

/-! ## Orders -/

section Orders

variable {db : Db} {key : String} {window : Nat} {requests : List CorrelationPersistence}

theorem not_fresh_of_near {before : List CorrelationPersistence} {a b : CorrelationPersistence}
    (hb : b ∈ before) (h : Near a b) : ¬ Fresh before a := by
  intro hfresh
  have hle : b.lastSeen + min a.window b.window ≤ b.lastSeen + a.window :=
    Nat.add_le_add_left (Nat.min_le_left _ _) _
  exact absurd (h.1.trans hle) (Nat.not_le.2 (hfresh b hb))

theorem inGroups_of_near (hnear : ∀ a ∈ requests, ∀ b ∈ requests, Near a b)
    {order : List CorrelationPersistence} (horder : order.Perm requests) : InGroups order := by
  refine arrives_of_related requests (fun a b hb => absurd hb not_mem_nil) ?_ ?_ ?_
  · intro before a ha hne hbefore
    obtain ⟨b, hb⟩ := exists_mem_of_ne_nil before hne
    exact not_fresh_of_near hb (hnear a ha b (hbefore b hb))
  · intro a ha b hb
    rw [linked_perm horder]
    exact Linked.of_related ha hb (hnear a ha b hb)
  · intro a ha
    exact horder.mem_iff.1 (mem_reverse.1 ha)

/-- Of two requests a window apart, the two orders in which they come first cannot both
be right. -/
theorem near_of_inGroups (hwindow : ∀ r ∈ requests, r.window = window)
    (h : ∀ order, order.Perm requests → InGroups order)
    {a b : CorrelationPersistence} (ha : a ∈ requests) (hb : b ∈ requests) :
    a.firstSeen ≤ b.lastSeen + window := by
  by_contra hfar
  have hlt : b.lastSeen + window < a.firstSeen := Nat.not_le.1 hfar
  have hba : b.lastSeen < a.firstSeen := (Nat.le_add_right _ _).trans_lt hlt
  have hne : b ≠ a := by
    rintro rfl
    exact absurd b.ordered (Nat.not_le.2 hba)
  obtain ⟨rest, hrest⟩ : ∃ rest, requests.Perm (b :: a :: rest) := by
    have ha' : a ∈ requests.erase b := (mem_erase_of_ne hne.symm).2 ha
    exact ⟨_, (perm_cons_erase hb).trans ((perm_cons_erase ha').cons b)⟩
  have hswap : (a :: b :: rest).Perm requests :=
    (Perm.swap b a rest).trans hrest.symm
  -- `b` first: `a` is apart from it
  have first := h _ hrest.symm
  rw [InGroups, reverse_cons, reverse_cons, append_assoc] at first
  have hapart : ¬ Linked Near (b :: a :: rest) a b := by
    rcases first.of_append.2 with ⟨-, hnone⟩ | ⟨hold, -⟩
    · exact hnone b mem_cons_self
    · refine absurd (fun c hc => ?_) hold
      rw [mem_singleton.1 hc, hwindow a ha]
      exact hlt
  -- `a` first: `b` joins it
  have second := h _ hswap
  rw [InGroups, reverse_cons, reverse_cons, append_assoc] at second
  have hjoined : Linked Near (a :: b :: rest) b a := by
    rcases second.of_append.2 with ⟨hfresh, -⟩ | ⟨-, hhead⟩
    · have hab := (Nat.le_add_right _ _).trans_lt (hfresh a mem_cons_self)
      exact absurd (b.ordered.trans (hba.le.trans a.ordered)) (Nat.not_le.2 hab)
    · exact hhead a rfl
  rw [linked_perm (Perm.swap b a rest)] at hjoined
  exact hapart ((linked_near_equivalence _).symm hjoined)

end Orders

/-- From a store without a candidate of the key: an order of the requests gives the
chains exactly if it is in groups, two such orders give the same candidates, and all
orders give the chains and the same candidates exactly if any two requests are near. -/
theorem grouping_iff {db : Db} {key : String} {window : Nat}
    {requests : List CorrelationPersistence}
    (hkey : ∀ r ∈ requests, r.correlationKey = key)
    (hwindow : ∀ r ∈ requests, r.window = window)
    (hdb : ∀ c ∈ db.candidates, ¬ c.Of key) :
    (∀ order w, order.Perm requests → Processed db order w →
      (GroupsByWindow requests w ↔ InGroups order)) ∧
    (∀ order order' w w', order.Perm requests → order'.Perm requests →
      Processed db order w → Processed db order' w' → InGroups order → InGroups order' →
      (results w.db key).Perm (results w'.db key)) ∧
    ((∀ order order' w w', order.Perm requests → order'.Perm requests →
        Processed db order w → Processed db order' w' →
        GroupsByWindow requests w ∧ (results w.db key).Perm (results w'.db key)) ↔
      ∀ a ∈ requests, ∀ b ∈ requests, Near a b) := by
  have groups : ∀ order w, order.Perm requests → Processed db order w →
      (GroupsByWindow requests w ↔ InGroups order) :=
    fun order w horder hw => hw.groups_iff horder hkey hdb
  have same : ∀ order order' w w', order.Perm requests → order'.Perm requests →
      Processed db order w → Processed db order' w' → InGroups order → InGroups order' →
      (results w.db key).Perm (results w'.db key) :=
    fun order order' w w' horder horder' hw hw' hin hin' =>
      results_perm horder horder' hw hw' hkey hdb
        ((groups order w horder hw).2 hin) ((groups order' w' horder' hw').2 hin')
  refine ⟨groups, same, ?_, ?_⟩
  · intro hall a ha b hb
    have ordered : ∀ order, order.Perm requests → InGroups order := by
      intro order horder
      obtain ⟨w, hw⟩ := exists_processed db order
      exact (groups order w horder hw).1 (hall order order w w horder horder hw hw).1
    have hmin : min a.window b.window = window := by
      rw [hwindow a ha, hwindow b hb, Nat.min_self]
    unfold CorrelationPersistence.Near
    rw [hmin]
    exact ⟨near_of_inGroups hwindow ordered ha hb, near_of_inGroups hwindow ordered hb ha⟩
  · intro hnear order order' w w' horder horder' hw hw'
    have hin := inGroups_of_near hnear horder
    exact ⟨(groups order w horder hw).2 hin,
      same order order' w w' horder horder' hw hw' hin (inGroups_of_near hnear horder')⟩

/-- Two near requests. -/
theorem grouping_iff_near :
    (∀ r ∈ [requestAt 0, requestAt 600], r.correlationKey = "correlation-id:a") ∧
    (∀ r ∈ [requestAt 0, requestAt 600], r.window = 900) ∧
    (∀ c ∈ emptyDb.candidates, ¬ c.Of "correlation-id:a") ∧
    ((∀ order order' w w', order.Perm [requestAt 0, requestAt 600] →
        order'.Perm [requestAt 0, requestAt 600] →
        Processed emptyDb order w → Processed emptyDb order' w' →
        GroupsByWindow [requestAt 0, requestAt 600] w ∧
          (results w.db "correlation-id:a").Perm (results w'.db "correlation-id:a")) ↔
      ∀ a ∈ [requestAt 0, requestAt 600], ∀ b ∈ [requestAt 0, requestAt 600], Near a b) := by
  have hkey : ∀ r ∈ [requestAt 0, requestAt 600], r.correlationKey = "correlation-id:a" := by
    decide
  have hwindow : ∀ r ∈ [requestAt 0, requestAt 600], r.window = 900 := by decide
  have hdb : ∀ c ∈ emptyDb.candidates, ¬ c.Of "correlation-id:a" :=
    fun c hc => absurd hc not_mem_empty
  exact ⟨hkey, hwindow, hdb, (grouping_iff hkey hwindow hdb).2.2⟩

theorem processed_of_execAll (db : Db) (turns : List Turn) {α : Type} (f : Sequence → α)
    (x : α) (h : (TSys.execAll takeTurn ⟨db, []⟩ turns).map f = some x) :
    ∃ w, Processed db (turns.map Turn.request) w ∧ f w = x := by
  obtain ⟨w, hw, hf⟩ := map_eq_some_iff.1 h
  exact ⟨w, ⟨turns, rfl, TSys.run_of_execAll _ _ hw⟩, hf⟩

/-- A request from 10000 seconds before joins the candidate of the later one; the other
way round there are two candidates. -/
theorem late_request_joins :
    ∃ w w', Processed emptyDb [requestAt 10000, requestAt 0] w ∧
      Processed emptyDb [requestAt 0, requestAt 10000] w' ∧
      ¬ GroupsByWindow [requestAt 0, requestAt 10000] w ∧
      ¬ (results w.db "correlation-id:a").Perm (results w'.db "correlation-id:a") := by
  let count (w : Sequence) : Nat :=
    (w.db.candidates.rows.filter (fun c => c.Of "correlation-id:a")).length
  obtain ⟨w, hw, hfacts⟩ := processed_of_execAll emptyDb
    [⟨requestAt 10000, [], 1⟩, ⟨requestAt 0, [insertRow (requestAt 10000) 1], 2⟩]
    (fun w => (w.placed, count w)) ([(requestAt 0, 1), (requestAt 10000, 1)], 1)
    (by decide +kernel)
  obtain ⟨w', hw', hcount'⟩ := processed_of_execAll emptyDb
    [⟨requestAt 0, [], 1⟩, ⟨requestAt 10000, [], 2⟩] count 2 (by decide +kernel)
  obtain ⟨hplaced, hcount⟩ := Prod.mk.inj hfacts
  refine ⟨w, w', hw, hw', ?_, ?_⟩
  · intro hgroups
    rw [GroupsByWindow, hplaced] at hgroups
    have hlinked : Linked Near [requestAt 0, requestAt 10000] (requestAt 0) (requestAt 10000) :=
      (hgroups (requestAt 0, 1) mem_cons_self (requestAt 10000, 1) (by simp)).1 rfl
    have hsame : requestAt 10000 = requestAt 0 := hlinked.eq_of_isolated (by decide)
    exact absurd hsame (by decide)
  · intro hperm
    have hlength := hperm.length_eq
    rw [results, results, length_map, length_map] at hlength
    exact absurd (hcount.symm.trans (hlength.trans hcount')) (by decide)

end Clawforge.Correlation

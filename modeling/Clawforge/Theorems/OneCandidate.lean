import Clawforge.Storage.CorrelationSessions

/-!
# One candidate for one correlation

The lock of a lookup protects rows that exist. Two first requests of a key that look up
before either has committed both insert (`two_first_requests`), and no constraint of
the schema refuses the second row. Requests near each other end in one candidate in
every run whose lookups are `Unambiguous`: one live candidate at most is near the request,
and no transaction near it is about to insert another.
-/

namespace Clawforge.Correlation

open Kit CorrelationPersistence TSys Table List Option

/-- Two requests of one key whose spans are within the window of each other. -/
def Related (r q : CorrelationPersistence) : Prop :=
  r.correlationKey = q.correlationKey ∧ Near r q

variable {r : CorrelationPersistence} {rows : List IncidentCandidate} {w w' : World}

theorem Related.symm {q : CorrelationPersistence} (h : Related r q) : Related q r :=
  ⟨h.1.symm, h.2.symm⟩

/-- Any two committed requests that are related ended in the same candidate. -/
def OneCandidate (w : World) : Prop :=
  ∀ p ∈ w.placed, ∀ q ∈ w.placed, Related p.1 q.1 → p.2 = q.2

/-! ## The condition -/

/-- A candidate that the lookup finds, and that ends after all others it finds. -/
def Newest (db : Db) (r : CorrelationPersistence) (c : IncidentCandidate) : Prop :=
  Matches r c ∧ ∀ d ∈ db.candidates.rows, Matches r d → d ≠ c → d.lastSeen < c.lastSeen

instance (db : Db) (r : CorrelationPersistence) : DecidablePred (Newest db r) :=
  fun _ => inferInstanceAs (Decidable (_ ∧ _))

/-- Of the candidates that the lookup finds, only the newest begins before the window after the
request is over; and a transaction of a related request is after that candidate, not about to
insert one. -/
structure Unambiguous (w : World) (r : CorrelationPersistence) : Prop where
  table : ∀ c ∈ w.db.candidates.rows, Matches r c → c.firstSeen ≤ r.lastSeen + r.window →
    Newest w.db r c
  inFlight : ∀ s ∈ w.sessions, ∀ q ∈ s.request, Related r q →
    ∃ c ∈ w.db.candidates.rows, Newest w.db r c ∧ s.target = some c.id

instance (r q : CorrelationPersistence) : Decidable (Related r q) :=
  inferInstanceAs (Decidable (_ ∧ _))

instance (w : World) : DecidablePred (Unambiguous w) := fun _ =>
  decidable_of_iff (_ ∧ _) ⟨fun h => ⟨h.1, h.2⟩, fun h => ⟨h.table, h.inFlight⟩⟩

/-- Every lookup is unambiguous. -/
def LooksUpUnambiguously (w : World) : Action → Prop
  | .lookup _ r _ => Unambiguous w r
  | _ => True

instance (w : World) : DecidablePred (LooksUpUnambiguously w)
  | .lookup _ r _ => inferInstanceAs (Decidable (Unambiguous w r))
  | .lock _ | .commit .. | .abort _ | .promote _ => isTrue trivial

/-- The newest candidate is the one the lookup goes for. -/
theorem Newest.head {c : IncidentCandidate} (h : Newest w.db r c) (hc : c ∈ w.db.candidates.rows)
    (hscan : IsScan w.db r rows) : rows.head? = some c := by
  have hmem : c ∈ rows := hscan.mem_iff.2 ⟨hc, h.1⟩
  obtain ⟨x, hx⟩ : ∃ x, rows.head? = some x := by
    cases rows with
    | nil => cases hmem
    | cons x rest => exact ⟨x, rfl⟩
  obtain ⟨hstored, hmatch, hlast⟩ := hscan.head hx
  rw [hx]
  by_contra hne
  have hbefore := h.2 x hstored hmatch (fun heq => hne (congrArg some heq))
  exact absurd (hlast c hc h.1) (not_le.2 hbefore)

/-! ## The invariant -/

/-- Two transactions of related requests are after one candidate, which exists. -/
def SameTarget (s t : Session) : Prop :=
  ∀ r ∈ s.request, ∀ q ∈ t.request, Related r q → s.target ≠ none ∧ s.target = t.target

theorem SameTarget.symm {s t : Session} (h : SameTarget s t) : SameTarget t s := by
  intro q hq r hr hrel
  obtain ⟨hsome, hsame⟩ := h r hr q hq hrel.symm
  exact ⟨hsame ▸ hsome, hsame.symm⟩

theorem sameTarget_idle (s : Session) : SameTarget .idle s := fun _ hr => nomatch hr

/-- The row a transaction waits for still matches its request, and the row it holds is still
under its key. -/
def Waits (db : Db) : Session → Prop
  | .scanning r (c :: _) => ∃ now ∈ db.candidates, now.id = c.id ∧ Matches r now
  | .holding r c => ∃ now ∈ db.candidates, now.id = c.id ∧
      now.correlationKey = r.correlationKey
  | _ => True

structure Converges (w : World) : Prop where
  placed : OneCandidate w
  /-- a committed request is within its candidate -/
  covered : ∀ p ∈ w.placed, ∃ c ∈ w.db.candidates, c.id = p.2 ∧ Covers c p.1
  apart : Apart SameTarget w.sessions
  headed : ∀ (k : Nat) (s : Session), w.sessions[k]? = some s → ∀ r ∈ s.request,
    ∀ p ∈ w.placed, Related r p.1 → s.target = some p.2
  waits : ∀ (k : Nat) (s : Session), w.sessions[k]? = some s → Waits w.db s

/-- The lookup of a request goes for the candidate of every related request that has committed:
that candidate has come near the request. -/
theorem Converges.head_of_placed (h : Converges w) (hclear : Unambiguous w r)
    (hscan : IsScan w.db r rows) {p : CorrelationPersistence × Uuid} (hp : p ∈ w.placed)
    (hrel : Related r p.1) : rows.head?.map IncidentCandidate.id = some p.2 := by
  obtain ⟨c, hc, hid, hkey, hlive, hfirst, hlast⟩ := h.covered p hp
  obtain ⟨hsame, hafter, hbefore⟩ := hrel
  have hwindow := Nat.min_le_left r.window p.1.window
  have hmatch : Matches r c := ⟨hkey.trans hsame.symm, hlive,
    Nat.sub_le_iff_le_add.2 (hafter.trans (Nat.add_le_add hlast hwindow))⟩
  have hnear : c.firstSeen ≤ r.lastSeen + r.window :=
    hfirst.trans (hbefore.trans (Nat.add_le_add_left hwindow _))
  rw [(hclear.table c hc hmatch hnear).head hc hscan, map_some, hid]

theorem converges_init (h : Initial w) : Converges w := by
  obtain ⟨hplaced, n, hsessions⟩ := h
  have idle : ∀ (k : Nat) (s : Session), w.sessions[k]? = some s → s = .idle := by
    intro k s hk
    rw [hsessions] at hk
    exact eq_of_mem_replicate (mem_of_getElem? hk)
  constructor
  case placed =>
    intro p hp
    rw [hplaced] at hp
    exact absurd hp not_mem_nil
  case covered =>
    intro p hp
    rw [hplaced] at hp
    exact absurd hp not_mem_nil
  case apart =>
    rw [hsessions]
    exact apart_replicate (sameTarget_idle .idle) n
  case headed =>
    intro k s hk r hr
    rw [idle k s hk] at hr
    cases hr
  case waits =>
    intro k s hk
    rw [idle k s hk]
    trivial

/-- A slot may be overwritten by a transaction that is after the same candidate for the
same request, or by none. -/
theorem Converges.set (h : Converges w) {k : Nat} {s : Session}
    (hs : ∀ r ∈ s.request, ∃ s₀, w.sessions[k]? = some s₀ ∧ s₀.request = some r ∧
      s.target = s₀.target) (hwaits : Waits w.db s) :
    Converges { w with sessions := w.sessions.set k s } := by
  constructor
  case placed => exact h.placed
  case covered => exact h.covered
  case apart =>
    refine h.apart.set (fun _ _ => SameTarget.symm) (fun j t hj ht r hr q hq hrel => ?_)
    obtain ⟨s₀, hk, hr₀, htarget⟩ := hs r hr
    rw [htarget]
    exact h.apart k j s₀ t hj.symm hk ht r hr₀ q hq hrel
  case headed =>
    intro j t hj r hr p hp hrel
    rcases getElem?_set_cases hj with ⟨-, rfl⟩ | ⟨-, hj⟩
    · obtain ⟨s₀, hk, hr₀, htarget⟩ := hs r hr
      rw [htarget]
      exact h.headed k s₀ hk r hr₀ p hp hrel
    · exact h.headed j t hj r hr p hp hrel
  case waits =>
    intro j t hj
    rcases getElem?_set_cases hj with ⟨-, rfl⟩ | ⟨-, hj⟩
    · exact hwaits
    · exact h.waits j t hj

/-- What a transaction waits for survives any change that keeps the candidates. -/
theorem Waits.mono {db db' : Db} {s : Session} (h : Waits db s)
    (hkept : ∀ c ∈ db.candidates, ∃ c' ∈ db'.candidates, Continues c c') : Waits db' s := by
  cases s with
  | idle => trivial
  | holding r c =>
    obtain ⟨now, hnow, hid, hkey⟩ := h
    obtain ⟨now', hnow', hcont⟩ := hkept now hnow
    exact ⟨now', hnow', hcont.id.trans hid, hcont.key.trans hkey⟩
  | scanning r rows =>
    cases rows with
    | nil => trivial
    | cons c rest =>
      obtain ⟨now, hnow, hid, hm⟩ := h
      obtain ⟨now', hnow', hcont⟩ := hkept now hnow
      exact ⟨now', hnow', hcont.id.trans hid, hm.mono hcont⟩

section

variable (h : Converges w)
include h

/-- So does what a committed request is in. -/
theorem Converges.covered_mono
    (hkept : ∀ c ∈ w.db.candidates, ∃ c' ∈ w'.db.candidates, Continues c c') :
    ∀ p ∈ w.placed, ∃ c ∈ w'.db.candidates, c.id = p.2 ∧ Covers c p.1 := by
  intro p hp
  obtain ⟨c, hc, hid, hcovers⟩ := h.covered p hp
  obtain ⟨c', hc', hcont⟩ := hkept c hc
  exact ⟨c', hc', hcont.id.trans hid, hcovers.mono hcont⟩

/-! ## One step -/

theorem Converges.lookup {k : Nat} (hclear : Unambiguous w r)
    (hstep : exec w (.lookup k r rows) = some w') : Converges w' := by
  obtain ⟨hscan, rfl⟩ := lookup_eq_some hstep
  constructor
  case placed => exact h.placed
  case covered => exact h.covered
  case apart =>
    refine h.apart.set (fun _ _ => SameTarget.symm) (fun j t hj ht r' hr' q hq hrel => ?_)
    cases hr'
    obtain ⟨c, hc, hnewest, htarget⟩ := hclear.inFlight t (mem_of_getElem? ht) q hq hrel
    have hhead : (Session.scanning r rows).target = some c.id :=
      congrArg (Option.map IncidentCandidate.id) (hnewest.head hc hscan)
    rw [hhead, htarget]
    exact ⟨nofun, rfl⟩
  case headed =>
    intro j t hj r' hr' p hp hrel
    rcases getElem?_set_cases hj with ⟨-, rfl⟩ | ⟨-, hj⟩
    · cases hr'
      exact h.head_of_placed hclear hscan hp hrel
    · exact h.headed j t hj r' hr' p hp hrel
  case waits =>
    intro j t hj
    rcases getElem?_set_cases hj with ⟨-, rfl⟩ | ⟨-, hj⟩
    · cases rows with
      | nil => trivial
      | cons c rest =>
        obtain ⟨hc, hm⟩ := hscan.mem_iff.1 mem_cons_self
        exact ⟨c, hc, rfl, hm⟩
    · exact h.waits j t hj

theorem Converges.lock {k : Nat} (hstep : exec w (.lock k) = some w') : Converges w' := by
  obtain ⟨r, c, rest, s, hk, rfl, hs⟩ := lock_eq_some hstep
  obtain ⟨now, hnow, hid, hm⟩ := h.waits k _ hk
  have hget : w.db.candidates.get? c.id = some now := hid ▸ get?_key hnow
  rcases hs with ⟨x, hx, rfl⟩ | ⟨-, hno⟩
  · have hsame : x = now := some.inj (hx.symm.trans hget)
    refine h.set (fun q hq => ⟨_, hk, hq, ?_⟩) ⟨x, hsame ▸ hnow, rfl, hsame ▸ hm.1⟩
    exact congrArg some (key_of_get? hx)
  · exact absurd hm (hno now hget)

theorem Converges.commit {k : Nat} {new : Uuid} (hstep : exec w (.commit k new) = some w') :
    Converges w' := by
  obtain ⟨s, r, existing, candidate, hk, hr, htarget, hholds, hp, hsessions, hplaced⟩ :=
    commit_eq_some hstep
  -- what is related to the request is after, or in, the candidate it ends in
  have hexisting : ∀ x, existing.map IncidentCandidate.id = some x → candidate = x := by
    intro x hx
    rw [hp.candidate_eq, hx]
    rfl
  have committed : ∀ p ∈ w.placed, Related r p.1 → candidate = p.2 := fun p hpm hrel =>
    hexisting _ (htarget ▸ h.headed k s hk r hr p hpm hrel)
  have others : ∀ (j : Nat) (t : Session), j ≠ k → w.sessions[j]? = some t →
      ∀ q ∈ t.request, Related r q → t.target = some candidate := by
    intro j t hj ht q hq hrel
    obtain ⟨hsome, hsame⟩ := h.apart k j s t hj.symm hk ht r hr q hq hrel
    obtain ⟨x, hx⟩ := ne_none_iff_exists'.1 hsome
    rw [← hsame, hx, hexisting x (htarget ▸ hx)]
  have stored : ∀ c ∈ existing, ∃ x ∈ w.db.candidates, x.id = c.id ∧
      x.correlationKey = r.correlationKey := by
    intro c hc
    rw [hholds c hc] at hk
    exact h.waits k _ hk
  constructor
  case placed =>
    rw [OneCandidate, hplaced]
    intro p hpm q hqm hrel
    rcases mem_cons.1 hpm with rfl | hpm <;> rcases mem_cons.1 hqm with rfl | hqm
    · rfl
    · exact committed q hqm hrel
    · exact (committed p hpm hrel.symm).symm
    · exact h.placed p hpm q hqm hrel
  case covered =>
    rw [hplaced]
    intro p hpm
    rcases mem_cons.1 hpm with rfl | hpm
    · exact hp.covers stored
    · exact h.covered_mono (fun c hc => hp.kept hc) p hpm
  case apart =>
    rw [hsessions]
    exact h.apart.set (fun _ _ => SameTarget.symm) (fun _ t _ _ => sameTarget_idle t)
  case headed =>
    rw [hsessions, hplaced]
    intro j t hj q hq p hpm hrel
    rcases getElem?_set_cases hj with ⟨-, rfl⟩ | ⟨hne, hj⟩
    · cases hq
    · rcases mem_cons.1 hpm with rfl | hpm
      · exact others j t hne hj q hq hrel.symm
      · exact h.headed j t hj q hq p hpm hrel
  case waits =>
    rw [hsessions]
    intro j t hj
    rcases getElem?_set_cases hj with ⟨-, rfl⟩ | ⟨-, hj⟩
    · trivial
    · exact (h.waits j t hj).mono (fun c hc => hp.kept hc)

theorem Converges.promote {id : Uuid} (hstep : exec w (.promote id) = some w') : Converges w' := by
  simp only [exec] at hstep
  split at hstep
  case isFalse => cases hstep
  case isTrue =>
    cases hstep
    have hkept : ∀ c ∈ w.db.candidates, ∃ c' ∈ (updateCandidate w.db id promoteRow
        id_promoteRow).candidates, Continues c c' := by
      intro c hc
      refine ⟨if c.id = id then promoteRow c else c, ?_, ?_⟩
      · refine mem_of_get? (k := c.id) ?_
        rw [get?_updateCandidate, get?_key hc]
        rfl
      · split
        · unfold promoteRow
          split
          · exact ⟨rfl, rfl, fun _ => rfl, le_rfl, le_rfl⟩
          · exact .refl c
        · exact .refl c
    exact ⟨h.placed, h.covered_mono hkept, h.apart, h.headed,
      fun j t hj => (h.waits j t hj).mono hkept⟩

theorem Converges.step {a : Action} (ha : LooksUpUnambiguously w a) (hstep : exec w a = some w') :
    Converges w' := by
  cases a with
  | lookup k r rows => exact h.lookup ha hstep
  | lock k => exact h.lock hstep
  | commit k new => exact h.commit hstep
  | promote id => exact h.promote hstep
  | abort k =>
    cases hstep
    exact h.set (fun _ hr => nomatch hr) trivial

end

/-! ## Every run -/

theorem inductive_converges :
    (sessionSystem.restrict LooksUpUnambiguously).Inductive Converges where
  init _ h := converges_init h
  step _ _ _ h hstep := h.step hstep.1 hstep.2

/-- In every run whose lookups are all unambiguous, related requests that have committed
are in one candidate, in every state reached. -/
theorem one_candidate {w : World} (hw : (sessionSystem.restrict LooksUpUnambiguously).Reachable w) :
    OneCandidate w :=
  (inductive_converges.invariant w hw).placed

def candidateAt (time : Instant) : IncidentCandidate :=
  { insertRow (requestAt 0) 1 with lastSeen := time }

/-- After a first request, a second one holds its candidate while the third, which is within the
window of both, waits for the lock. -/
def oneAfterAnother : List Action :=
  [ .lookup 0 (requestAt 0) [], .commit 0 1, .lookup 0 (requestAt 800) [candidateAt 0]
  , .lookup 1 (requestAt 850) [candidateAt 0], .lock 0, .commit 0 2, .lock 1, .commit 1 3 ]

/-- The three requests end in one candidate. -/
theorem one_candidate_waiting : ∃ w,
    (sessionSystem.restrict LooksUpUnambiguously).Run ⟨emptyDb, [.idle, .idle], []⟩
      oneAfterAnother w ∧
    w.placed = [(requestAt 850, 1), (requestAt 800, 1), (requestAt 0, 1)] ∧
    w.db.candidates.rows = [candidateAt 850] ∧ OneCandidate w := by
  have hrun : (execAll (fun w a => if LooksUpUnambiguously w a then exec w a else none)
      ⟨emptyDb, [.idle, .idle], []⟩ oneAfterAnother).map (fun w =>
        (w.placed, w.db.candidates.rows)) =
      some ([(requestAt 850, 1), (requestAt 800, 1), (requestAt 0, 1)], [candidateAt 850]) := by
    decide +kernel
  obtain ⟨w, hw, hstate⟩ := map_eq_some_iff.1 hrun
  obtain ⟨hplaced, hrows⟩ := Prod.mk.inj hstate
  have hsteps := run_restrict_of_execAll Initial exec hw
  exact ⟨w, hsteps, hplaced, hrows, one_candidate ⟨_, _, ⟨rfl, 2, rfl⟩, hsteps⟩⟩

/-- Two transactions of the same request look up before either commits. -/
theorem two_first_requests : ∃ w, sessionSystem.Reachable w ∧ ¬ OneCandidate w := by
  let s₀ : World := ⟨emptyDb, [.idle, .idle], []⟩
  let actions : List Action := [.lookup 0 (requestAt 0) [], .lookup 1 (requestAt 0) [],
    .commit 0 1, .commit 1 2]
  have hrun : (execAll exec s₀ actions).map World.placed =
      some [(requestAt 0, 2), (requestAt 0, 1)] := by decide +kernel
  obtain ⟨w, hw, hplaced⟩ := map_eq_some_iff.1 hrun
  refine ⟨w, ⟨s₀, actions, ⟨rfl, 2, rfl⟩, run_of_execAll Initial exec hw⟩, ?_⟩
  intro hone
  rw [OneCandidate, hplaced] at hone
  have hsame : (2 : Uuid) = 1 :=
    hone (requestAt 0, 2) mem_cons_self (requestAt 0, 1) (by simp) ⟨rfl, near_refl _⟩
  exact absurd hsame (by decide)

end Clawforge.Correlation

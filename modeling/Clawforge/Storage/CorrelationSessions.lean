import Clawforge.Kit.Slots
import Clawforge.Storage.Correlation

/-!
# Concurrent `persist_correlation` transactions

Any number of connections, each with at most one transaction. The lookup reads the
committed rows and waits for the lock of the first; once it has the lock it checks
the row as it is now and passes on to the next of its snapshot where the row no
longer matches. A transaction that found no row inserts one. The writes appear at
commit, which also releases the lock. The incidents service promotes open candidates
in between, and skips those that are locked.
-/

namespace Clawforge.Correlation

open Kit CorrelationPersistence

/-- One connection's transaction. -/
inductive Session
  | idle
  /-- the lookup has read its rows and waits for the first -/
  | scanning (r : CorrelationPersistence) (rows : List IncidentCandidate)
  /-- the lookup has returned, with the row's lock -/
  | holding (r : CorrelationPersistence) (c : IncidentCandidate)

namespace Session

def request : Session → Option CorrelationPersistence
  | idle => none
  | scanning r _ | holding r _ => some r

/-- The candidate a transaction waits for or holds. -/
def target : Session → Option Uuid
  | idle => none
  | scanning _ rows => rows.head?.map IncidentCandidate.id
  | holding _ c => some c.id

def lock : Session → Option Uuid
  | holding _ c => some c.id
  | _ => none

end Session

/-- The committed tables, the open transactions, and each committed request with the
candidate it ended in. -/
structure World where
  db : Db
  sessions : List Session
  placed : List (CorrelationPersistence × Uuid)

inductive Action
  | lookup (k : Nat) (r : CorrelationPersistence) (rows : List IncidentCandidate)
  | lock (k : Nat)
  /-- `new` is the id an insertion draws -/
  | commit (k : Nat) (new : Uuid)
  /-- an error, a deadlock or a crash -/
  | abort (k : Nat)
  /-- `promote_incident_candidates` reaches the row -/
  | promote (id : Uuid)

/-- What a transaction commits: its request under the row it holds, or a new one once
its snapshot has none left. -/
def commitWrites (db : Db) (new : Uuid) : Session → Option (CorrelationPersistence × Db × Uuid)
  | .holding r c => (persistCorrelation db r (some c) new).map (fun x => (r, x))
  | .scanning r [] => (persistCorrelation db r none new).map (fun x => (r, x))
  | _ => none

/-- `UPDATE incident_candidates SET status='promoted'`. -/
def promoteRow (c : IncidentCandidate) : IncidentCandidate :=
  if c.status = .opened then { c with status := .promoted } else c

theorem id_promoteRow (c : IncidentCandidate) : (promoteRow c).id = c.id := by
  unfold promoteRow
  split <;> rfl

def exec (w : World) : Action → Option World
  | .lookup k r rows =>
    match w.sessions[k]? with
    | some .idle =>
      if IsScan w.db r rows then
        some { w with sessions := w.sessions.set k (.scanning r rows) }
      else none
    | _ => none
  | .lock k =>
    match w.sessions[k]? with
    | some (.scanning r (c :: rest)) =>
      if ∀ s ∈ w.sessions, s.lock ≠ some c.id then
        match w.db.candidates.get? c.id with
        | some now =>
          -- the row as committed meanwhile has to match still
          if Matches r now then
            some { w with sessions := w.sessions.set k (.holding r now) }
          else some { w with sessions := w.sessions.set k (.scanning r rest) }
        | none => some { w with sessions := w.sessions.set k (.scanning r rest) }
      else none
    | _ => none
  | .commit k new =>
    match w.sessions[k]? with
    | some s => (commitWrites w.db new s).map (fun (r, db, candidate) =>
      { db := db
        sessions := w.sessions.set k .idle
        placed := (r, candidate) :: w.placed })
    | none => none
  | .abort k => some { w with sessions := w.sessions.set k .idle }
  | .promote id =>
    if ∀ s ∈ w.sessions, s.lock ≠ some id then
      some { w with db := updateCandidate w.db id promoteRow id_promoteRow }
    else none

/-- Any committed tables and any number of connections without a transaction. -/
def Initial (w : World) : Prop :=
  w.placed = [] ∧ ∃ n, w.sessions = List.replicate n .idle

def sessionSystem : TSys World Action := TSys.ofExec Initial exec

/-! ## What a step can do -/

variable {k : Nat} {w w' : World}

theorem lookup_eq_some {r : CorrelationPersistence} {rows : List IncidentCandidate}
    (h : exec w (.lookup k r rows) = some w') :
    IsScan w.db r rows ∧ w' = { w with sessions := w.sessions.set k (.scanning r rows) } := by
  simp only [exec] at h
  split at h
  · split at h
    · exact ⟨by assumption, (Option.some.inj h).symm⟩
    · cases h
  · cases h

/-- A lock step returns the row as it is now, or passes on where it does not match. -/
theorem lock_eq_some (h : exec w (.lock k) = some w') :
    ∃ r c rest s, w.sessions[k]? = some (.scanning r (c :: rest)) ∧
      w' = { w with sessions := w.sessions.set k s } ∧
      ((∃ now, w.db.candidates.get? c.id = some now ∧ s = .holding r now) ∨
        (s = .scanning r rest ∧
          ∀ now, w.db.candidates.get? c.id = some now → ¬ Matches r now)) := by
  simp only [exec] at h
  split at h
  case h_2 => cases h
  case h_1 r c rest hk =>
    split at h
    case isFalse => cases h
    case isTrue =>
      refine ⟨r, c, rest, ?_⟩
      split at h
      case h_1 now hnow =>
        split at h
        case isTrue => exact ⟨_, hk, (Option.some.inj h).symm, Or.inl ⟨now, hnow, rfl⟩⟩
        case isFalse hno =>
          refine ⟨_, hk, (Option.some.inj h).symm, Or.inr ⟨rfl, fun x hx => ?_⟩⟩
          rw [hnow] at hx
          cases hx
          exact hno
      case h_2 hnone =>
        refine ⟨_, hk, (Option.some.inj h).symm, Or.inr ⟨rfl, fun x hx => ?_⟩⟩
        rw [hnone] at hx
        cases hx

/-- A lock step waits until no other transaction has the row's lock. -/
theorem lock_free (h : exec w (.lock k) = some w') {r : CorrelationPersistence}
    {c : IncidentCandidate} {rest : List IncidentCandidate}
    (hk : w.sessions[k]? = some (.scanning r (c :: rest))) :
    ∀ s ∈ w.sessions, s.lock ≠ some c.id := by
  simp only [exec, hk] at h
  split at h
  · assumption
  · cases h

/-- A transaction writes its request into the candidate it holds, or into a new one where
its snapshot has none left. -/
theorem commitWrites_eq_some {db db' : Db} {new candidate : Uuid} {s : Session}
    {r : CorrelationPersistence} (h : commitWrites db new s = some (r, db', candidate)) :
    ∃ existing, s.request = some r ∧ s.target = existing.map IncidentCandidate.id ∧
      (∀ c ∈ existing, s = .holding r c) ∧ Persisted db r existing new db' candidate := by
  cases s with
  | idle => cases h
  | holding q c =>
    obtain ⟨x, hx, he⟩ := Option.map_eq_some_iff.1 h
    cases he
    refine ⟨some c, rfl, rfl, fun _ hc => ?_, persistCorrelation_spec hx⟩
    cases hc
    rfl
  | scanning q rows =>
    cases rows with
    | cons c rest => cases h
    | nil =>
      obtain ⟨x, hx, he⟩ := Option.map_eq_some_iff.1 h
      cases he
      exact ⟨none, rfl, rfl, fun _ hc => (nomatch hc), persistCorrelation_spec hx⟩

/-- A commit places the transaction's request in the candidate it holds, or in a new one
where its snapshot has none left. -/
theorem commit_eq_some {new : Uuid} (h : exec w (.commit k new) = some w') :
    ∃ s r existing candidate, w.sessions[k]? = some s ∧ s.request = some r ∧
      s.target = existing.map IncidentCandidate.id ∧ (∀ c ∈ existing, s = .holding r c) ∧
      Persisted w.db r existing new w'.db candidate ∧
      w'.sessions = w.sessions.set k .idle ∧ w'.placed = (r, candidate) :: w.placed := by
  simp only [exec] at h
  split at h
  case h_2 => cases h
  case h_1 s hk =>
    obtain ⟨⟨r, db, candidate⟩, hw, rfl⟩ := Option.map_eq_some_iff.1 h
    obtain ⟨existing, hr, htarget, hholds, hp⟩ := commitWrites_eq_some hw
    exact ⟨s, r, existing, candidate, hk, hr, htarget, hholds, hp, rfl, rfl⟩

end Clawforge.Correlation

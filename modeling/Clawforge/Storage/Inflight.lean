import Clawforge.Kit.Slots
import Clawforge.Kit.Table
import Clawforge.Kit.TSys
import Clawforge.Values

/-!
# In-flight operations

`firewall_inflight_operations`: `try_reserve_firewall_inflight` as a transaction of any number
of connections, and `end_firewall_inflight_operation`. `NOW()` is the start of the
transaction, which then waits for the advisory lock of its adapter and holds it to its end.
The row it inserts appears at commit.
-/

namespace Clawforge.Inflight

open Kit

/-- What `firewall_max_concurrent_applies_per_adapter` and `firewall_inflight_stale_seconds`
read: both take positive settings only. -/
structure Limits where
  max : Int
  staleAfterSeconds : Int
  max_pos : 0 < max
  stale_pos : 0 < staleAfterSeconds

structure OperationRow where
  id : Uuid
  adapter : String
  executionId : Option Uuid
  startedAt : Instant
deriving DecidableEq

/-- `adapter = $1 AND started_at > now - stale_after_seconds`. -/
def young (L : Limits) (now : Instant) (adapter : String) (row : OperationRow) : Bool :=
  row.adapter = adapter && (now : Int) - L.staleAfterSeconds * 1000000 < row.startedAt

/-- `firewall_inflight_operation_count`. -/
def operationCount (L : Limits) (rows : List OperationRow) (now : Instant) (adapter : String) : Nat :=
  (rows.filter (young L now adapter)).length

/-! ## Transactions -/

inductive Session
  | idle
  /-- begun, and waiting for the advisory lock -/
  | waiting (start : Instant) (adapter : String) (executionId : Option Uuid)
  | locked (start : Instant) (adapter : String) (executionId : Option Uuid)
  /-- the count was below the limit -/
  | admitted (start : Instant) (adapter : String) (executionId : Option Uuid)
deriving DecidableEq

namespace Session

def start? : Session → Option Instant
  | idle => none
  | waiting start _ _ | locked start _ _ | admitted start _ _ => some start

/-- The adapter whose lock a transaction holds. -/
def held : Session → Option String
  | locked _ adapter _ | admitted _ adapter _ => some adapter
  | _ => none

end Session

structure World where
  now : Instant
  operations : Table OperationRow.id
  sessions : List Session

inductive Action
  | tick (micros : Nat)
  | start (k : Nat) (adapter : String) (executionId : Option Uuid)
  | lock (k : Nat)
  | count (k : Nat)
  /-- the insertion under a drawn id, and the commit -/
  | commit (k : Nat) (id : Uuid)
  /-- an error or a crash -/
  | abort (k : Nat)
  /-- `end_firewall_inflight_operation` -/
  | finish (id : Uuid)

section System

variable (hashtext : String → Int) (L : Limits)

/-- The key of `pg_advisory_xact_lock`. -/
def lockKey (adapter : String) : Int := hashtext ("clawforge_fw_inflight:" ++ adapter)

/-- No transaction holds the lock that the adapter hashes to. -/
def lockFree (w : World) (adapter : String) : Bool :=
  w.sessions.all (fun s => s.held.all (fun other => lockKey hashtext other ≠ lockKey hashtext adapter))

/-- The row of a reservation. -/
def reservation (start : Instant) (adapter : String) (executionId : Option Uuid) (id : Uuid) :
    OperationRow where
  id := id
  adapter := adapter
  executionId := executionId
  startedAt := start

def exec (w : World) : Action → Option World
  | .tick micros => some { w with now := w.now + micros }
  | .start k adapter executionId =>
    match w.sessions[k]? with
    | some .idle =>
      some { w with sessions := w.sessions.set k (.waiting w.now adapter executionId) }
    | _ => none
  | .lock k =>
    match w.sessions[k]? with
    | some (.waiting start adapter executionId) =>
      if lockFree hashtext w adapter then
        some { w with sessions := w.sessions.set k (.locked start adapter executionId) }
      else none
    | _ => none
  | .count k =>
    match w.sessions[k]? with
    | some (.locked start adapter executionId) =>
      -- the count reads the rows committed by now, against the transaction's own time
      if L.max ≤ (operationCount L w.operations.rows start adapter : Int) then
        some { w with sessions := w.sessions.set k .idle }
      else some { w with sessions := w.sessions.set k (.admitted start adapter executionId) }
    | _ => none
  | .commit k id =>
    match w.sessions[k]? with
    | some (.admitted start adapter executionId) =>
      (w.operations.insert? (reservation start adapter executionId id)).map (fun T =>
        { w with operations := T, sessions := w.sessions.set k .idle })
    | _ => none
  | .abort k => some { w with sessions := w.sessions.set k .idle }
  | .finish id => some { w with operations := w.operations.deleteWhere (fun row => row.id = id) }

/-- No reservation, and any number of connections without a transaction. -/
def Initial (w : World) : Prop :=
  w.operations = Table.empty _ ∧ ∃ n, w.sessions = List.replicate n .idle

def inflightSystem : TSys World Action := TSys.ofExec Initial (exec hashtext L)

/-! ## What a step can do -/

variable {hashtext L} {w w' : World} {k : Nat}

theorem start_eq_some {adapter : String} {executionId : Option Uuid}
    (h : exec hashtext L w (.start k adapter executionId) = some w') :
    w.sessions[k]? = some .idle ∧
      w' = { w with sessions := w.sessions.set k (.waiting w.now adapter executionId) } := by
  simp only [exec] at h
  split at h
  case h_1 hk => exact ⟨hk, (Option.some.inj h).symm⟩
  case h_2 => cases h

theorem lock_eq_some (h : exec hashtext L w (.lock k) = some w') :
    ∃ start adapter executionId, w.sessions[k]? = some (.waiting start adapter executionId) ∧
      lockFree hashtext w adapter = true ∧
      w' = { w with sessions := w.sessions.set k (.locked start adapter executionId) } := by
  simp only [exec] at h
  split at h
  case h_1 start adapter executionId hk =>
    split at h
    case isTrue hfree => exact ⟨start, adapter, executionId, hk, hfree, (Option.some.inj h).symm⟩
    case isFalse => cases h
  case h_2 => cases h

theorem count_eq_some (h : exec hashtext L w (.count k) = some w') :
    ∃ start adapter executionId, w.sessions[k]? = some (.locked start adapter executionId) ∧
      (w' = { w with sessions := w.sessions.set k .idle } ∨
        ((operationCount L w.operations.rows start adapter : Int) < L.max ∧
          w' = { w with sessions := w.sessions.set k (.admitted start adapter executionId) })) := by
  simp only [exec] at h
  split at h
  case h_1 start adapter executionId hk =>
    refine ⟨start, adapter, executionId, hk, ?_⟩
    split at h
    case isTrue => exact Or.inl (Option.some.inj h).symm
    case isFalse hbelow => exact Or.inr ⟨Int.not_le.1 hbelow, (Option.some.inj h).symm⟩
  case h_2 => cases h

theorem commit_eq_some {id : Uuid} (h : exec hashtext L w (.commit k id) = some w') :
    ∃ start adapter executionId T, w.sessions[k]? = some (.admitted start adapter executionId) ∧
      w.operations.insert? (reservation start adapter executionId id) = some T ∧
      w' = { w with operations := T, sessions := w.sessions.set k .idle } := by
  simp only [exec] at h
  split at h
  case h_1 start adapter executionId hk =>
    obtain ⟨T, hT, rfl⟩ := Option.map_eq_some_iff.1 h
    exact ⟨start, adapter, executionId, T, hk, hT, rfl⟩
  case h_2 => cases h

end System

end Clawforge.Inflight

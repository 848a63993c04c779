import Clawforge.Storage.Publication

/-!
# The audit outbox

`insert_audit_outbox` and `flush_audit_outbox` over the tables `audit_events` and
`audit_outbox` beside the event bus, and the system of any number of flush runs.

A flush run reads its batch in one statement, whose row locks end with it, and
then handles one row after the other: a publication, which is a transaction of
its own, and the update of the row. Each is one step, placed where it takes
effect; either may be rolled back or committed without the run learning of it,
and the run may crash between any two. The other publishers and the consumers of
the bus interleave freely.
-/

namespace Clawforge.AuditOutbox

open Kit EventDelivery Pseudonym

/-! ## Tables -/

structure AuditEvent where
  id : Nat
  actor : String
  action : String
  resource : String
  details : Json
deriving DecidableEq

structure OutboxRow where
  id : Uuid
  auditEventId : Nat
  eventType : String
  resource : String
  payload : Json
  createdAt : Instant
  publishedAt : Option Instant
  attempts : Nat
  lastError : Option String
deriving DecidableEq

/-- One flush run: the rows of its batch that are left, and what the publication
of the first of them returned, if it was made. -/
structure Flush where
  rows : List OutboxRow
  result : Option (Except String Unit)

structure World where
  bus : EventDelivery.World
  /-- the sequence behind `audit_events.id` -/
  nextAuditId : Nat
  audit : Table AuditEvent.id
  outbox : Table OutboxRow.id
  runs : Nat → Option Flush

/-! ## Inserting -/

/-- `insert_audit_outbox`, as part of a transaction that commits. -/
def insertAuditOutbox (w : World) (now : Instant) (outboxId : Uuid)
    (actor action resource : String) (details : Json) : Option World :=
  (w.audit.insert? { id := w.nextAuditId, actor, action, resource, details }).bind
    (fun audit =>
      (w.outbox.insert?
        { id := outboxId, auditEventId := w.nextAuditId, eventType := action, resource,
          payload := details, createdAt := now, publishedAt := none, attempts := 0,
          lastError := none }).map
        (fun outbox => { w with nextAuditId := w.nextAuditId + 1, audit, outbox }))

/-! ## Flushing -/

/-- `limit.clamp(1, 500)`. -/
def clampBatch (limit : Int) : Nat := (max 1 (min limit 500)).toNat

/-- The rows a flush run reads, `FOR UPDATE SKIP LOCKED`. -/
def readBatch (w : World) (limit : Int) (locked : List Uuid) : List OutboxRow :=
  ((w.outbox.rows.filter (fun r => r.publishedAt = none ∧ r.id ∉ locked)).insertionSort
    (fun a b => a.createdAt ≤ b.createdAt)).take (clampBatch limit)

/-- The dedupe key of an outbox row. -/
def auditKey (r : OutboxRow) : String := (EventSource.audit r.auditEventId).dedupeKey

/-- What a flush run publishes for a row. -/
def auditEvent (r : OutboxRow) (occurredAt : Instant) : NewEvent where
  eventType := r.eventType
  source := "audit"
  severity := "info"
  occurredAt
  correlationId := some r.resource
  payload := r.payload
  metadata := .object [("audit_event_id", .number (.int r.auditEventId))]
  dedupeKey := auditKey r

def publishedRow (now : Instant) (r : OutboxRow) : OutboxRow :=
  { r with publishedAt := some now, attempts := r.attempts + 1, lastError := none }

def failedRow (error : String) (r : OutboxRow) : OutboxRow :=
  { r with
    attempts := r.attempts + 1
    lastError := some (String.ofList (error.toList.take 1000)) }

/-- The update after a publication: the row as published, or one more attempt. -/
def settledRow (now : Instant) : Except String Unit → OutboxRow → OutboxRow
  | .ok () => publishedRow now
  | .error error => failedRow error

theorem settledRow_id (now : Instant) (result : Except String Unit) (r : OutboxRow) :
    (settledRow now result r).id = r.id := by
  cases result <;> rfl

/-- `UPDATE audit_outbox … WHERE id=$1 AND published_at IS NULL`. -/
def markRow (outbox : Table OutboxRow.id) (now : Instant) (id : Uuid)
    (result : Except String Unit) : Table OutboxRow.id :=
  outbox.updateWhere (fun r => r.id = id ∧ r.publishedAt = none) (settledRow now result)
    (settledRow_id now result)

/-! ## Steps -/

inductive Action
  /-- the bus, apart from publications -/
  | bus (a : EventDelivery.Action)
  /-- another publisher -/
  | publishOther (src : EventSource) (now : Instant) (eventId : Uuid)
      (newId : Uuid → Uuid) (e : NewEvent)
  | insert (now : Instant) (outboxId : Uuid) (actor action resource : String)
      (details : Json)
  /-- a transaction that called `insert_audit_outbox` rolls back: the sequence
  has moved on -/
  | rollBack
  | read (run : Nat) (limit : Int) (locked : List Uuid)
  | publish (run : Nat) (now occurredAt : Instant) (eventId : Uuid)
      (newId : Uuid → Uuid) (outcome : Outcome)
  | mark (run : Nat) (now : Instant) (outcome : Outcome)
  /-- a run is over, or its process crashes -/
  | crash (run : Nat)

def setRun (w : World) (run : Nat) (f : Option Flush) : World :=
  { w with runs := Function.update w.runs run f }

/-- The publication of the first row of a batch. -/
def flushPublish (env : Env) (w : World) (run : Nat) (row : OutboxRow)
    (rest : List OutboxRow) (now occurredAt : Instant) (eventId : Uuid)
    (newId : Uuid → Uuid) (outcome : Outcome) : Option World :=
  match sanitizedEvent env (auditEvent row occurredAt) with
  | .error error => some (setRun w run (some ⟨row :: rest, some (.error error)⟩))
  | .ok e =>
    if outcome.takesEffect then
      (publishOn w.bus now eventId newId e).map (fun r =>
        setRun { w with bus := r.2 } run (some ⟨row :: rest, some outcome.result⟩))
    else some (setRun w run (some ⟨row :: rest, some outcome.result⟩))

/-- The update of the first row of a batch; an error ends the run. -/
def flushMark (w : World) (run : Nat) (row : OutboxRow) (rest : List OutboxRow)
    (result : Except String Unit) (now : Instant) : Outcome → World
  | .committed =>
    setRun { w with outbox := markRow w.outbox now row.id result } run (some ⟨rest, none⟩)
  | .unacknowledged _ =>
    setRun { w with outbox := markRow w.outbox now row.id result } run none
  | .failed _ => setRun w run none

def exec (env : Env) (w : World) : Action → Option World
  | .bus a =>
    if isPublish a then none
    else (EventDelivery.exec w.bus a).map (fun bus => { w with bus })
  | .publishOther src now eventId newId e =>
    if e.dedupeKey = src.dedupeKey ∧ src.isAudit = false then
      (publishOn w.bus now eventId newId e).map (fun r => { w with bus := r.2 })
    else none
  | .insert now outboxId actor action resource details =>
    if now ≤ w.bus.db.now then
      insertAuditOutbox w now outboxId actor action resource details
    else none
  | .rollBack => some { w with nextAuditId := w.nextAuditId + 1 }
  | .read run limit locked =>
    match w.runs run with
    | some _ => none
    | none => some (setRun w run (some ⟨readBatch w limit locked, none⟩))
  | .publish run now occurredAt eventId newId outcome =>
    match w.runs run with
    | some ⟨row :: rest, none⟩ =>
      flushPublish env w run row rest now occurredAt eventId newId outcome
    | _ => none
  | .mark run now outcome =>
    match w.runs run with
    | some ⟨row :: rest, some result⟩ =>
      if now ≤ w.bus.db.now then some (flushMark w run row rest result now outcome)
      else none
    | _ => none
  | .crash run => some (setRun w run none)

/-- Nothing has been published or recorded; any consumers may be registered. -/
def Initial (w : World) : Prop :=
  w.bus.db.events.rows = [] ∧ w.bus.db.deliveries.rows = [] ∧ w.audit.rows = [] ∧
    w.outbox.rows = [] ∧ ∀ run, w.runs run = none

def system (env : Env) : TSys World Action := TSys.ofExec Initial (exec env)

end Clawforge.AuditOutbox

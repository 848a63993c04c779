import Clawforge.Sensors.Ingress
import Clawforge.Storage.Publication

/-!
# The journal sensor

The `linux-sensor` crate: what it reports of a journal line, the reader that
follows `journalctl` from the saved checkpoint, and the sender that keeps what was
read in a retry buffer and flushes it in chunks.

The journal grows on its own. The reader, the sender and each request and
checkpoint write of a flush are steps of their own; a process may crash between
any two, and only the checkpoint file outlives it. A journal cursor is opaque to
the sensor; here it is the place of its entry.
-/

namespace Clawforge.LinuxSensor

open Kit SecurityEvents Sensors Text

/-! ## Journal lines -/

/-- A journald cursor, as the place of the entry it names. -/
abbrev Cursor := Nat

def sensorName : String := "linux-ssh"

def batchMaxItems : Nat := 50

def maxBufferedRetry : Nat := 5000

def channelCapacity : Nat := 1000

structure SshFailure where
  username : String
  sourceIp : String
  invalidUser : Bool
deriving DecidableEq, Repr

/-- `parse_sshd_message`. -/
def parseSshdMessage (message : String) : Option SshFailure := do
  let cs := message.toList
  let rest ← (stripPrefix "Failed password for ".toList cs).or
    ((stripPrefix "Failed none for ".toList cs).or
      ((stripPrefix "Failed publickey for ".toList cs).or
        (stripPrefix "Invalid user ".toList cs)))
  let invalidUser := startsWith message "Invalid user " || "invalid user ".toList.isPrefixOf rest
  let rest := (stripPrefix "invalid user ".toList rest).getD rest
  let (username, rest) ← splitOnceOn " from ".toList rest
  let (sourceIp, _) := (splitOnceOn " port ".toList rest).getD (rest, [])
  let username := trim username
  let sourceIp := trim sourceIp
  if username = [] ∨ sourceIp = [] then none
  else some ⟨String.ofList username, String.ofList sourceIp, invalidUser⟩

/-- `DateTime::from_timestamp_micros`, in nanoseconds. -/
def fromTimestampMicros (micros : Int) : Option Int :=
  if -8334601228800000000 ≤ micros ∧ micros ≤ 8210266876799999999 then some (micros * 1000)
  else none

structure QueuedEvent where
  envelope : SensorEnvelope
  cursor : Cursor
deriving DecidableEq

/-- What a journal line is to the sensor. -/
inductive Parsed
  | event (e : QueuedEvent)
  /-- not something it reports -/
  | skipped
  /-- not something it can read: counted as dropped -/
  | dropped

/-- The envelope of a failed login. -/
def failureEnvelope (now : Int) (cursor : Cursor) (value : Json) (failure : SshFailure) :
    SensorEnvelope where
  occurredAt :=
    ((((value.get "__REALTIME_TIMESTAMP").bind Json.asStr).bind
      (fun text => parseI64 text.toList)).bind fromTimestampMicros).getD now
  source := sensorName ++ ":" ++ ((value.get "_HOSTNAME").bind Json.asStr).getD "unknown-host"
  severity := .medium
  resource := failure.sourceIp
  dedupeKey := "journald:" ++ EventDelivery.decimal cursor
  evidence := .sshLoginFailure
    { username := failure.username, sourceIp := failure.sourceIp, attemptCount := 1,
      invalidUser := some failure.invalidUser }

/-- `parse_journal_line`, of the line `journalctl` prints for the entry at `cursor`:
`none` where it is not JSON. -/
def parseJournalLine (now : Int) (cursor : Cursor) : Option Json → Parsed
  | none => .dropped
  | some value =>
    match (value.get "MESSAGE").bind Json.asStr with
    | none => .dropped
    | some message =>
      match parseSshdMessage message with
      | none => .skipped
      | some failure =>
        -- `SensorEnvelope::new`
        match (failureEnvelope now cursor value failure).validate with
        | .ok () => .event ⟨failureEnvelope now cursor value failure, cursor⟩
        | .error _ => .dropped

/-! ## The process -/

/-- Where the sender is. -/
inductive Phase
  | receiving
  /-- a request for the first chunk of the buffer is under way -/
  | sending
  /-- the chunk of `n` events was answered; its checkpoint is being written -/
  | saving (n accepted rejected : Nat)
deriving DecidableEq

structure Process where
  /-- the place of the next line of the `journalctl` stream -/
  stream : Option Nat
  channel : List QueuedEvent
  buffer : List QueuedEvent
  phase : Phase
  metrics : Metrics

def Process.start : Process := ⟨none, [], [], .receiving, .zero⟩

/-- Everything read that has not left the process. -/
def Process.held (p : Process) : List QueuedEvent := p.buffer ++ p.channel

/-- `buffer.len().min(DEFAULT_BATCH_MAX_ITEMS)`. -/
def Process.batchLen (p : Process) : Nat := min p.buffer.length batchMaxItems

/-- An answer that counts for the whole chunk: one result for each item. -/
def chunkAnswer (n : Nat) : Response → Option (Nat × Nat)
  | .unreachable | .refused _ | .success none => none
  | .success (some body) =>
    match results body with
    | none => none
    | some items =>
      if items.length = n then some (counter body "accepted", counter body "rejected")
      else none

/-- How many events the end of a flush drops. -/
def Process.excess (p : Process) : Nat := p.buffer.length - maxBufferedRetry

/-- The end of a flush: the oldest events beyond the retry budget are dropped. -/
def Process.endFlush (p : Process) : Process :=
  { p with
    buffer := p.buffer.drop p.excess
    phase := .receiving
    metrics := p.metrics.drop p.excess }

/-! ## Runs -/

/-- The journal, the checkpoint file and the process, with what was ever read,
answered item by item, and counted as dropped. The last three are bookkeeping. -/
structure World where
  journal : List (Option Json)
  checkpoint : Option Cursor
  proc : Option Process
  read : List Cursor
  answered : List Cursor
  dropped : List Cursor

inductive Action
  /-- journald writes an entry -/
  | append (line : Option Json)
  | start
  /-- the reader loads the checkpoint, if it can, and starts `journalctl` -/
  | connect (readable : Bool)
  /-- the reader takes the next line -/
  | emit (now : Int)
  /-- the stream ends -/
  | disconnect
  /-- the sender takes an event from the channel -/
  | receive
  /-- the flush interval -/
  | tick
  | respond (r : Response)
  /-- the checkpoint write succeeds, or fails -/
  | save (ok : Bool)
  | crash

/-- The flush ends in the state `p`. -/
def endFlush (w : World) (p : Process) : World :=
  { w with
    proc := some p.endFlush
    dropped := (p.buffer.take p.excess).map QueuedEvent.cursor ++ w.dropped }

/-- The reader takes `line`, the one at `n`. -/
def takeLine (w : World) (p : Process) (now : Int) (n : Nat) (line : Option Json) : World :=
  match parseJournalLine now n line with
  | .event e =>
    { w with
      proc := some { p with stream := some (n + 1), channel := p.channel ++ [e] }
      read := e.cursor :: w.read }
  | .skipped => { w with proc := some { p with stream := some (n + 1) } }
  | .dropped =>
    { w with proc := some { p with stream := some (n + 1), metrics := p.metrics.drop 1 } }

/-- The sender goes on to the next chunk, or ends the flush. -/
def nextChunk (w : World) (p : Process) : World :=
  if p.buffer = [] then endFlush w p else { w with proc := some { p with phase := .sending } }

/-- The answered chunk of `n` events is checkpointed and removed. -/
def removeChunk (w : World) (p : Process) (n accepted rejected : Nat) : World :=
  nextChunk { w with checkpoint := (p.buffer[n - 1]?).map QueuedEvent.cursor }
    { p with buffer := p.buffer.drop n, metrics := p.metrics.answered accepted rejected }

def exec (w : World) (a : Action) : Option World :=
  match w.proc with
  | none =>
    match a with
    | .append line => some { w with journal := w.journal ++ [line] }
    | .start => some { w with proc := some .start }
    | _ => none
  | some p =>
    match a with
    | .append line => some { w with journal := w.journal ++ [line] }
    | .start => none
    | .connect readable =>
      match p.stream with
      | some _ => none
      | none =>
        -- without a cursor `journalctl` starts from now
        let place := match if readable then w.checkpoint else none with
          | some cursor => cursor + 1
          | none => w.journal.length
        some { w with proc := some { p with stream := some place } }
    | .emit now =>
      match p.stream with
      | none => none
      | some n =>
        match w.journal[n]? with
        | none => none
        | some line =>
          -- one event may wait in the reader's hand for a free slot
          if p.channel.length ≤ channelCapacity then some (takeLine w p now n line)
          else none
    | .disconnect =>
      match p.stream with
      | none => none
      | some _ => some { w with proc := some { p with stream := none } }
    | .receive =>
      match p.phase, p.channel with
      | .receiving, e :: rest =>
        let buffer := p.buffer ++ [e]
        let phase := if batchMaxItems ≤ buffer.length then .sending else .receiving
        some { w with proc := some { p with channel := rest, buffer, phase } }
      | _, _ => none
    | .tick =>
      match p.phase with
      | .receiving =>
        if p.buffer = [] then some w
        else some { w with proc := some { p with phase := .sending } }
      | _ => none
    | .respond r =>
      match p.phase with
      | .sending =>
        match chunkAnswer p.batchLen r with
        | none => some (endFlush w { p with metrics := p.metrics.sendError })
        | some (accepted, rejected) =>
          some { w with
            proc := some { p with phase := .saving p.batchLen accepted rejected }
            answered :=
              (p.buffer.take p.batchLen).map QueuedEvent.cursor ++ w.answered }
      | _ => none
    | .save ok =>
      match p.phase with
      | .saving n accepted rejected =>
        if ok then some (removeChunk w p n accepted rejected)
        else some (endFlush w { p with metrics := p.metrics.sendError })
      | _ => none
    | .crash => some { w with proc := none }

/-- The sensor has not run yet; the checkpoint file may name an entry of the
journal. -/
def Initial (w : World) : Prop :=
  w.proc = none ∧ w.read = [] ∧ w.answered = [] ∧ w.dropped = [] ∧
    ∀ c ∈ w.checkpoint, c < w.journal.length

def system : Kit.TSys World Action := Kit.TSys.ofExec Initial exec

end Clawforge.LinuxSensor

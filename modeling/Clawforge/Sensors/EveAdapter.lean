import Clawforge.Kit.TSys
import Clawforge.Sensors.Ingress
import Clawforge.Net.PyIpAddress
import Clawforge.PyJson

/-!
# The EVE adapter

`read_step` and `send_step` over the adapter's database, and the files they run
beside: the engine appends to one file, a rotation renames the file at the path and
puts a new one there. A file keeps its number, the inode, under every name; none is
deleted. Whatever a step does to the database is one transaction, so a crash before
its commit leaves the database as it was.

The capture counters of `stats` records, the status file and heartbeats are left out.
-/

/-! ## EVE alerts

`normalize` of the network IDS adapter: one line of the engine's log becomes an event
for the ingress, is none of its business, or is invalid. The key of an event is a
digest of its fields and of two numbers that tell transactions and packets apart.

`json.loads`, the reading of timestamps and SHA-256 are parameters. The exceptions a
caller counts as an invalid line are not told apart.
-/

namespace Clawforge.EveAdapter

open Kit Net PyJson

inductive Raised
  /-- `ValueError`, `KeyError`, `TypeError`, `AttributeError` or `OverflowError` -/
  | invalid
  | other
deriving DecidableEq, Repr

/-- What the adapter rests on: `json.loads`; a timestamp with a timezone, in UTC, as
`isoformat` writes it; and `hashlib.sha256`. -/
structure Python where
  loads : List UInt8 → Except Raised Json
  utcIsoformat : String → Option String
  sha256 : List UInt8 → BitVec 256

/-- `hexdigest`. -/
def hexdigest (digest : BitVec 256) : String :=
  String.ofList ((toBigEndian 16 64 digest.toNat).map Nat.digitChar)

/-- `integer`: `true` and `1.0` are none. -/
def integer (maximum : Nat) : Json → Option Nat
  | .number (.int n) => if 0 ≤ n ∧ n ≤ maximum then some n.toNat else none
  | _ => none

/-- The number under a key that may be absent. -/
def integerIfPresent (row : Json) (key : String) (maximum : Nat) : Option (Option Nat) :=
  match row.get key with
  | none => some none
  | some value => (integer maximum value).map some

/-- `protocol`; only ASCII letters lower to the letters of these names. -/
def protocol (proto : String) : String :=
  let proto := String.ofList (Text.toAsciiLowercase proto.toList)
  if proto ∈ ["tcp", "udp", "icmp", "icmpv6", "sctp"] then proto else "other"

/-- `observed_action`. -/
def observedAction (action : Json) : String :=
  match action with
  | .string s => if s ∈ ["allowed", "blocked"] then s else "unknown"
  | _ => "unknown"

/-- `severity` of a native severity from 1 to 4. -/
def severityName : Nat → String
  | 1 => "high"
  | 2 => "medium"
  | 3 => "low"
  | _ => "info"

/-- The event before its key. -/
@[ext]
structure Alert where
  occurredAt : String
  source : PyStr
  severity : String
  resource : String
  sourceIp : String
  destinationIp : String
  sourcePort : Option Nat
  destinationPort : Option Nat
  protocol : String
  signatureId : Nat
  generatorId : Nat
  signatureRevision : Nat
  nativeSeverity : Nat
  observedAction : String
  flowId : Option Nat
deriving DecidableEq, Repr

structure EveEvent extends Alert where
  dedupeKey : String
deriving DecidableEq, Repr

def text (s : String) : Scalar := .str (.ofString s)

def intOrNone (n : Option Nat) : Scalar := (n.map Scalar.int).getD .none

def Alert.fields (a : Alert) : List (String × Scalar) :=
  [ ("event_type", text "network_ids_alert"), ("occurred_at", text a.occurredAt)
  , ("source", .str a.source), ("severity", text a.severity)
  , ("resource", text a.resource), ("source_ip", text a.sourceIp)
  , ("destination_ip", text a.destinationIp), ("source_port", intOrNone a.sourcePort)
  , ("destination_port", intOrNone a.destinationPort), ("protocol", text a.protocol)
  , ("engine", text "suricata"), ("signature_id", .int a.signatureId)
  , ("generator_id", .int a.generatorId), ("signature_revision", .int a.signatureRevision)
  , ("native_severity", .int a.nativeSeverity), ("observed_action", text a.observedAction)
  , ("flow_id", intOrNone a.flowId) ]

def EveEvent.fields (e : EveEvent) : List (String × Scalar) :=
  e.toAlert.fields ++ [("dedupe_key", text e.dedupeKey)]

/-- The fields the key stands for. -/
def Alert.identity (a : Alert) (txId pcapCnt : Option Nat) : List (String × Scalar) :=
  a.fields ++ (txId.map (fun n => ("tx_id", Scalar.int n))).toList ++
    (pcapCnt.map (fun n => ("pcap_cnt", Scalar.int n))).toList

/-- The text the key is a digest of. -/
def identityText (identity : List (String × Scalar)) : List UInt8 :=
  encode (dumpsObject (sortKeys identity))

def dedupeKey (py : Python) (identity : List (String × Scalar)) : String :=
  "eve:" ++ hexdigest (py.sha256 (identityText identity))

/-- The fields of an alert. -/
def alertOf (py : Python) (row : Json) (source : PyStr) : Option Alert := do
  let alert ← row.get "alert"
  if alert.isObject = false then none else
  let timestamp ← (row.get "timestamp").bind Json.asStr
  let occurredAt ← py.utcIsoformat timestamp
  let src ← (row.get "src_ip").bind ipAddress
  let dst ← (row.get "dest_ip").bind ipAddress
  let sev ← (alert.get "severity").bind (integer 4)
  if sev = 0 then none else
  let proto ← (row.get "proto").bind Json.asStr
  let signatureId ← (alert.get "signature_id").bind (integer (2 ^ 32 - 1))
  let generatorId ← integer (2 ^ 32 - 1) ((alert.get "gid").getD (.number (.int 1)))
  let signatureRevision ← integer (2 ^ 32 - 1) ((alert.get "rev").getD (.number (.int 0)))
  let sourcePort ← integerIfPresent row "src_port" 65535
  let destinationPort ← integerIfPresent row "dest_port" 65535
  let flowId ← integerIfPresent row "flow_id" (2 ^ 64 - 1)
  some
    { occurredAt, source, severity := severityName sev, resource := src.str,
      sourceIp := src.str, destinationIp := dst.str, sourcePort, destinationPort,
      protocol := protocol proto, signatureId, generatorId, signatureRevision,
      nativeSeverity := sev,
      observedAction := observedAction ((alert.get "action").getD (.string "unknown")),
      flowId }

/-- The event of an alert, with its key. -/
def eventOf (py : Python) (row : Json) (source : PyStr) : Option EveEvent := do
  let alert ← alertOf py row source
  let txId ← integerIfPresent row "tx_id" (2 ^ 64 - 1)
  let pcapCnt ← integerIfPresent row "pcap_cnt" (2 ^ 64 - 1)
  some { alert with dedupeKey := dedupeKey py (alert.identity txId pcapCnt) }

/-- `normalize`. -/
def normalize (py : Python) (raw : List UInt8) (source : PyStr) :
    Except Raised (Option EveEvent) :=
  match py.loads raw with
  | .error raised => .error raised
  | .ok row =>
    if row.isObject = false then .error .invalid
    else if row.get "event_type" ≠ some (.string "alert") then .ok none
    else
      match eventOf py row source with
      | some e => .ok (some e)
      | none => .error .invalid

/-- The check of `--source` in `main`. -/
def acceptsSource (source : PyStr) : Bool := strip source ≠ [] ∧ source.length ≤ 160

end Clawforge.EveAdapter

namespace Clawforge.EveAdapter

open Kit PyJson

def maxLine : Nat := 262144

def maxPending : Nat := 10000

/-! ## The database -/

structure Cursor where
  inode : Nat
  offset : Nat
  anchor : String
deriving DecidableEq

structure Counters where
  queued : Nat
  ignored : Nat
  invalid : Nat
  accepted : Nat
deriving DecidableEq, Repr

structure Db where
  cursor : Option Cursor
  /-- in the order of `seq` -/
  pending : List EveEvent
  counters : Counters
deriving DecidableEq

/-- A database that was just created. -/
def Db.empty : Db := ⟨none, [], ⟨0, 0, 0, 0⟩⟩

inductive Outcome
  | queued (e : EveEvent)
  | ignored
  | invalid
deriving DecidableEq

/-- `count(db, outcome)`. -/
def Counters.count (c : Counters) : Outcome → Counters
  | .queued _ => { c with queued := c.queued + 1 }
  | .ignored => { c with ignored := c.ignored + 1 }
  | .invalid => { c with invalid := c.invalid + 1 }

def Outcome.event? : Outcome → Option EveEvent
  | .queued e => some e
  | .ignored | .invalid => none

/-! ## Reading -/

/-- `anchor`: a digest of what is at both ends of the first `offset` bytes. -/
def anchor (py : Python) (content : List UInt8) (offset : Nat) : String :=
  hexdigest (py.sha256
    (content.take (min 128 offset) ++ (content.drop (offset - 128)).take (min 128 offset)))

/-- Up to the first line end, or the end. -/
def takeLine : List UInt8 → List UInt8
  | [] => []
  | b :: rest => if b = 10 then [b] else b :: takeLine rest

/-- `stream.readline`. -/
def readline (limit : Nat) (bytes : List UInt8) : List UInt8 := takeLine (bytes.take limit)

/-- The outcome of a line, or no outcome where the exception is not caught. -/
def outcomeOf (py : Python) (source : PyStr) (raw : List UInt8) : Option Outcome :=
  match normalize py raw source with
  | .ok (some e) => some (.queued e)
  | .ok none => some .ignored
  | .error .invalid => some .invalid
  | .error .other => none

/-- What a `read_step` does to the database, before its commit. -/
inductive Read
  | raised
  | idle
  /-- the old inode is drained, on with the one at the path -/
  | turned (cursor : Cursor)
  | counted (cursor : Cursor) (outcome : Outcome)

/-- The place of the cursor, checked; without a cursor the start of the file at the path. -/
def openAt (py : Python) (db : Db) (files : Nat → List UInt8) (current : Nat) :
    Option (Nat × Nat) :=
  match db.cursor with
  | none => some (current, 0)
  | some c =>
    if (files c.inode).length < c.offset ∨ anchor py (files c.inode) c.offset ≠ c.anchor
    then none
    else some (c.inode, c.offset)

/-- `read_step`, with `path` the inode at the path. -/
def readStep (py : Python) (source : PyStr) (db : Db) (files : Nat → List UInt8)
    (path : Option Nat) : Read :=
  match path with
  | none => .raised
  | some current =>
    match openAt py db files current with
    | none => .raised
    | some (selected, offset) =>
      if maxPending ≤ db.pending.length then .idle
      else
        let raw := readline (maxLine + 1) ((files selected).drop offset)
        if maxLine < raw.length then .raised
        else if raw = [] then
          if selected ≠ current then .turned ⟨current, 0, hexdigest (py.sha256 [])⟩
          else .idle
        else if raw.getLast? ≠ some 10 then
          if selected ≠ current then .raised else .idle
        else
          let stop := offset + raw.length
          match outcomeOf py source raw with
          | none => .raised
          | some outcome =>
            .counted ⟨selected, stop, anchor py (files selected) stop⟩ outcome

def Read.commit (db : Db) : Read → Db
  | .raised | .idle => db
  | .turned cursor => { db with cursor := some cursor }
  | .counted cursor outcome =>
    { cursor := some cursor
      pending := db.pending ++ outcome.event?.toList
      counters := db.counters.count outcome }

/-! ## Sending -/

/-- What the request and the reading of its answer lead to. -/
inductive Answer
  | raised
  | body (json : Json)

/-- `LIMIT 50`. -/
def sendLimit : Nat := 50

def sendRows (db : Db) : List EveEvent := db.pending.take sendLimit

/-- Every row has a result, and each says `accepted`. -/
def allAccepted (rows : List EveEvent) : Answer → Bool
  | .raised => false
  | .body json =>
    match Sensors.results json with
    | none => false
    | some results =>
      results.length = rows.length ∧
        results.all (fun r => r.get "status" = some (.string "accepted"))

/-- `send_step`; a step that raises leaves the database as it is. -/
def sendStep (db : Db) (answer : Answer) : Db :=
  let rows := sendRows db
  if rows = [] ∨ allAccepted rows answer = false then db
  else
    { db with
      pending := db.pending.drop rows.length
      counters := { db.counters with accepted := db.counters.accepted + rows.length } }

/-! ## The system -/

/-- A complete line, by its file and its end there. -/
structure Line where
  inode : Nat
  stop : Nat
deriving DecidableEq, Repr

/-- The ends of the lines in bytes that start at `start`. -/
def lineEnds (start : Nat) : List UInt8 → List Nat
  | [] => []
  | b :: rest =>
    if b = 10 then (start + 1) :: lineEnds (start + 1) rest else lineEnds (start + 1) rest

structure Counted where
  line : Line
  outcome : Outcome
deriving DecidableEq

structure World where
  files : Nat → List UInt8
  /-- how many files were created -/
  created : Nat
  path : Option Nat
  /-- the file the engine has open -/
  writer : Option Nat
  db : Db
  /-- the complete lines, in the order they were written -/
  written : List Line
  /-- what was committed of each line -/
  counted : List Counted
  accepted : List EveEvent
  raised : Bool

inductive Action
  /-- a rotation takes the file at the path away -/
  | rename
  | create
  /-- the engine opens the file at the path -/
  | reopen
  | append (bytes : List UInt8)
  /-- a step, or one that a crash ends before its commit -/
  | read (committed : Bool)
  | send (answer : Answer) (committed : Bool)

def createFile (w : World) : World :=
  { w with created := w.created + 1, path := some w.created }

def appendTo (w : World) (k : Nat) (bytes : List UInt8) : World :=
  { w with
    files := Function.update w.files k (w.files k ++ bytes)
    written := w.written ++ (lineEnds (w.files k).length bytes).map (Line.mk k) }

def Read.counted? : Read → Option Counted
  | .counted cursor outcome => some ⟨⟨cursor.inode, cursor.offset⟩, outcome⟩
  | .raised | .idle | .turned _ => none

def commitRead (w : World) : Read → World
  | .raised => { w with raised := true }
  | r => { w with db := r.commit w.db, counted := w.counted ++ r.counted?.toList }

def doRead (py : Python) (source : PyStr) (w : World) : World :=
  commitRead w (readStep py source w.db w.files w.path)

def doSend (w : World) (answer : Answer) : World :=
  { w with
    db := sendStep w.db answer
    accepted := w.accepted ++
      (if allAccepted (sendRows w.db) answer then sendRows w.db else []) }

def exec (py : Python) (source : PyStr) (w : World) : Action → Option World
  | .rename => if w.path.isSome then some { w with path := none } else none
  | .create => if w.path.isNone then some (createFile w) else none
  | .reopen =>
    match w.path with
    | some k => some { w with writer := some k }
    | none => some { createFile w with writer := some w.created }
  | .append bytes => w.writer.map (fun k => appendTo w k bytes)
  | .read committed => some (if committed then doRead py source w else w)
  | .send answer committed => some (if committed then doSend w answer else w)

/-- No file, and a new database. -/
structure Initial (w : World) : Prop where
  files : ∀ k, w.files k = []
  created : w.created = 0
  path : w.path = none
  writer : w.writer = none
  db : w.db = Db.empty
  written : w.written = []
  counted : w.counted = []
  accepted : w.accepted = []
  raised : w.raised = false

def system (py : Python) (source : PyStr) : TSys World Action :=
  TSys.ofExec Initial (exec py source)

end Clawforge.EveAdapter

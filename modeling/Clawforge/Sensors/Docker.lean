import Clawforge.Kit.Utf8
import Clawforge.Sensors.Ingress
import Clawforge.Storage.Publication

/-!
# The Docker sensor

The `docker-sensor` crate: what it reports of an event of the Docker Engine, and
the sender that keeps what the reader put into the channel in a retry buffer and
flushes it in one request.

The reader adds any event at any time; a flush is the request, its answer and the
checkpoint write, each a step of its own. Docker gives no cursor, so the checkpoint
is the time of an event, in seconds.
-/

namespace Clawforge.DockerSensor

open Kit SecurityEvents Sensors

/-! ## Docker events -/

def sensorName : String := "docker"

def batchMaxItems : Nat := 50

def maxBufferedRetry : Nat := 5000

/-- The ingress's `SECURITY_EVENT_BATCH_MAX_ITEMS`. -/
def ingressMaxItems : Nat := 100

structure ParsedDockerEvent where
  action : ContainerLifecycleAction
  containerId : Option String
  containerName : Option String
  image : Option String
  detail : String
deriving DecidableEq, Repr

/-- `str::trim_start_matches` with a character. -/
def trimStartMatches (c : Char) (s : String) : String :=
  String.ofList (s.toList.dropWhile (· = c))

def containerAction : String → Option ContainerLifecycleAction
  | "create" => some .created
  | "start" => some .started
  | "die" => some .stopped
  | "destroy" => some .destroyed
  | "restart" => some .restarted
  | _ => none

def networkAction : String → Option ContainerLifecycleAction
  | "connect" => some .networkConnected
  | "disconnect" => some .networkDisconnected
  | _ => none

def imageAction : String → Option ContainerLifecycleAction
  | "pull" => some .imagePulled
  | "delete" => some .imageRemoved
  | _ => none

/-- `parse_docker_event`. -/
def parseDockerEvent (value : Json) : Option ParsedDockerEvent := do
  let eventType ← (← value.get "Type").asStr
  let action ← (← value.get "Action").asStr
  let actor ← value.get "Actor"
  let actorId ← (← actor.get "ID").asStr
  let attr := fun key =>
    ((actor.get "Attributes").bind (fun a => a.get key)).bind Json.asStr
  match eventType with
  | "container" =>
    (containerAction action).map (fun lifecycle =>
      { action := lifecycle, containerId := some actorId,
        containerName := (attr "name").map (trimStartMatches '/'), image := attr "image",
        detail := action })
  | "network" =>
    (networkAction action).map (fun lifecycle =>
      { action := lifecycle, containerId := attr "container", containerName := none,
        image := none, detail := "network " ++ (attr "name").getD "unknown" })
  | "image" =>
    (imageAction action).map (fun lifecycle =>
      { action := lifecycle, containerId := none, containerName := none,
        image := some ((attr "name").getD actorId), detail := action })
  | _ => none

/-- `Value::as_i64`. -/
def asI64 : Json → Option Int
  | .number (.int n) => if -2 ^ 63 ≤ n ∧ n < 2 ^ 63 then some n else none
  | _ => none

/-- `i64::saturating_mul(1_000_000_000)`. -/
def saturatingNanos (seconds : Int) : Int :=
  max (-2 ^ 63) (min (2 ^ 63 - 1) (seconds * 1000000000))

/-- `DateTime::from_timestamp`, in nanoseconds. -/
def fromTimestamp (seconds nanos : Int) : Option Int :=
  if -8334601228800 ≤ seconds ∧ seconds ≤ 8210266876799 then
    some (seconds * 1000000000 + nanos)
  else none

structure QueuedEvent where
  envelope : SensorEnvelope
  eventTimeSeconds : Int
deriving DecidableEq

/-- What a line of the events stream is to the sensor. -/
inductive Parsed
  | event (e : QueuedEvent)
  | skipped
  /-- counted as dropped -/
  | dropped

def lifecycleEnvelope (now : Int) (hostLabel action actorId : String)
    (timeSeconds timeNanos : Int) (parsed : ParsedDockerEvent) : SensorEnvelope where
  occurredAt := (fromTimestamp timeSeconds (timeNanos % 1000000000)).getD now
  source := sensorName ++ ":" ++ hostLabel
  severity := .info
  resource := (parsed.containerId.or parsed.image).getD actorId
  dedupeKey := "docker:" ++ action ++ ":" ++ actorId ++ ":" ++ toString timeNanos
  evidence := .containerLifecycleChanged
    { containerId := parsed.containerId, containerName := parsed.containerName,
      image := parsed.image, action := parsed.action, detail := parsed.detail }

/-- `parse_docker_event_line`, of a line given as JSON: `none` where it is not. -/
def parseDockerEventLine (now : Int) (hostLabel : String) : Option Json → Parsed
  | none => .dropped
  | some value =>
    match (value.get "time").bind asI64, (value.get "Action").bind Json.asStr,
      parseDockerEvent value with
    | some timeSeconds, some action, some parsed =>
      let timeNanos :=
        ((value.get "timeNano").bind asI64).getD (saturatingNanos timeSeconds)
      let actorId :=
        (((value.get "Actor").bind (fun a => a.get "ID")).bind Json.asStr).getD "unknown"
      let envelope :=
        lifecycleEnvelope now hostLabel action actorId timeSeconds timeNanos parsed
      match envelope.validate with
      | .ok () => .event ⟨envelope, timeSeconds⟩
      | .error _ => .dropped
    | _, _, _ => .skipped

/-! ## The events stream -/

/-- The lines of the buffer, and what is left of it. -/
def takeLines : List Char → List (List Char) × List Char
  | [] => ([], [])
  | c :: rest =>
    if c = '\n' then ([] :: (takeLines rest).1, (takeLines rest).2)
    else
      match (takeLines rest).1 with
      | [] => ([], c :: (takeLines rest).2)
      | line :: lines => ((c :: line) :: lines, (takeLines rest).2)

section Stream

variable (now : Int) (hostLabel : String) (fromStr : List Char → Option Json)

/-- The event that the reader queues for a line; a blank line is passed over. -/
def queuedEvent (line : List Char) : Option QueuedEvent :=
  if Text.trim line = [] then none
  else
    match parseDockerEventLine now hostLabel (fromStr line) with
    | .event e => some e
    | .skipped | .dropped => none

/-- The buffer of `stream_docker_events`, the lines it has taken and the events it has queued. -/
structure EventsStream where
  buffer : List Char
  lines : List (List Char)
  queued : List QueuedEvent
deriving DecidableEq

/-- One chunk: `String::from_utf8_lossy` of it alone goes to the end of the buffer. -/
def readChunk (s : EventsStream) (chunk : List UInt8) : EventsStream :=
  let taken := takeLines (s.buffer ++ Utf8.decode none chunk)
  { buffer := taken.2
    lines := s.lines ++ taken.1
    queued := s.queued ++ taken.1.filterMap (queuedEvent now hostLabel fromStr) }

def streamDockerEvents (chunks : List (List UInt8)) : EventsStream :=
  chunks.foldl (readChunk now hostLabel fromStr) ⟨[], [], []⟩

end Stream

/-! ## The sender -/

inductive Phase
  | receiving
  /-- a request for the whole buffer is under way -/
  | sending
  /-- it succeeded; the checkpoint is being written -/
  | saving
deriving DecidableEq

/-- The checkpoint file and the sender, with the events ever read, answered item by
item, counted as dropped, and removed from the retry buffer, and the sizes of the
requests ever sent. The last five are bookkeeping. -/
structure World where
  checkpoint : Option Int
  channel : List QueuedEvent
  buffer : List QueuedEvent
  phase : Phase
  metrics : Metrics
  read : List QueuedEvent
  answered : List QueuedEvent
  dropped : List QueuedEvent
  removed : List QueuedEvent
  requests : List Nat

inductive Action
  /-- the reader puts an event into the channel -/
  | read (e : QueuedEvent)
  | receive
  /-- the flush interval -/
  | tick
  | respond (r : Response)
  /-- the checkpoint write succeeds, or fails -/
  | save (ok : Bool)

/-- A flush begins: everything buffered is sent. -/
def beginFlush (w : World) : World :=
  { w with phase := .sending, requests := w.buffer.length :: w.requests }

/-- The items of the buffer that a success answers. -/
def answeredItems (w : World) (body : Option Json) : List QueuedEvent :=
  match body.bind results with
  | none => []
  | some items => w.buffer.take items.length

def countAnswer (m : Metrics) : Option Json → Metrics
  | none => m
  | some body => m.answered (counter body "accepted") (counter body "rejected")

/-- The request failed: the oldest events beyond the retry budget are dropped. -/
def keepForRetry (w : World) : World :=
  let excess := w.buffer.length - maxBufferedRetry
  { w with
    buffer := w.buffer.drop excess
    phase := .receiving
    metrics := w.metrics.sendError.drop excess
    dropped := w.buffer.take excess ++ w.dropped
    removed := w.buffer.take excess ++ w.removed }

/-- The end of a successful flush, whatever became of the checkpoint write. -/
def clearBuffer (w : World) (saved : Bool) : World :=
  { w with
    checkpoint :=
      if saved then (w.buffer.getLast?.map QueuedEvent.eventTimeSeconds).or w.checkpoint
      else w.checkpoint
    buffer := []
    phase := .receiving
    removed := w.buffer ++ w.removed }

def exec (w : World) : Action → Option World
  | .read e => some { w with channel := w.channel ++ [e], read := e :: w.read }
  | .receive =>
    match w.phase, w.channel with
    | .receiving, e :: rest =>
      let next := { w with channel := rest, buffer := w.buffer ++ [e] }
      some (if batchMaxItems ≤ next.buffer.length then beginFlush next else next)
    | _, _ => none
  | .tick =>
    match w.phase with
    | .receiving => some (if w.buffer = [] then w else beginFlush w)
    | _ => none
  | .respond r =>
    match w.phase with
    | .sending =>
      match r with
      | .unreachable | .refused _ => some (keepForRetry w)
      | .success body =>
        some { w with
          phase := .saving
          metrics := countAnswer w.metrics body
          answered := answeredItems w body ++ w.answered }
    | _ => none
  | .save ok =>
    match w.phase with
    | .saving => some (clearBuffer w ok)
    | _ => none

/-- The sender has just started. -/
def Initial (w : World) : Prop :=
  w.channel = [] ∧ w.buffer = [] ∧ w.phase = .receiving ∧ w.metrics = .zero ∧ w.read = [] ∧
    w.answered = [] ∧ w.dropped = [] ∧ w.removed = [] ∧ w.requests = []

def system : TSys World Action := TSys.ofExec Initial exec

end Clawforge.DockerSensor

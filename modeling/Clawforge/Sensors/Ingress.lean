import Clawforge.Values

/-!
# Answers of the security event ingress

What a sensor's `POST` to the batch endpoint leads to, and what the sensors read
from the answer.
-/

namespace Clawforge.Sensors

/-- What becomes of a request. -/
inductive Response
  /-- no answer arrived -/
  | unreachable
  /-- a status that is no success -/
  | refused (status : Nat)
  /-- a success, with its body where that is JSON -/
  | success (body : Option Json)

/-- `value[key]` of `serde_json`: `Null` where there is no such field. -/
def index (value : Json) (key : String) : Json := (value.get key).getD .null

/-- `body["data"]["results"].as_array()`. -/
def results (body : Json) : Option (List Json) :=
  (index (index body "data") "results").asArray

/-- `body["data"]["accepted"].as_u64().unwrap_or(0)`, or of another counter. -/
def counter (body : Json) (key : String) : Nat :=
  (index (index body "data") key).asU64.getD 0

structure Metrics where
  acceptedTotal : Nat
  rejectedTotal : Nat
  droppedTotal : Nat
  sendErrorsTotal : Nat
deriving DecidableEq, Repr

/-- `Metrics::default()`. -/
def Metrics.zero : Metrics := ⟨0, 0, 0, 0⟩

def Metrics.drop (m : Metrics) (n : Nat) : Metrics :=
  { m with droppedTotal := m.droppedTotal + n }

def Metrics.sendError (m : Metrics) : Metrics :=
  { m with sendErrorsTotal := m.sendErrorsTotal + 1 }

def Metrics.answered (m : Metrics) (accepted rejected : Nat) : Metrics :=
  { m with
    acceptedTotal := m.acceptedTotal + accepted
    rejectedTotal := m.rejectedTotal + rejected }

end Clawforge.Sensors

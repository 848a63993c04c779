import Clawforge.Storage.BridgeSessions

/-!
# Retention of assessments

`clawforge_delete_expired_security_assessments` selects the assessments to delete in one
statement and deletes their decisions and then the assessments in two later ones, all in
one transaction. Other connections link assessments to incidents, record decisions and
enqueue requests in between: a deleted row stays visible and locked until the commit, and
an assessment that still has a decision makes the last statement raise.
-/

namespace Clawforge.Retention

open Assessments Bridge EventDelivery Executions Kit Policies

/-! ## Protected assessments -/

inductive CastError
  | invalidBoolean (text : String)
deriving DecidableEq, Repr

/-- `isspace`. -/
def isSpace (c : Char) : Bool := (9 ≤ c.toNat && c.toNat ≤ 13) || c.toNat = 32

/-- The spellings of a truth value, in lower case. -/
def readBoolean (cs : List Char) : Option Bool :=
  if cs = [] then none
  else if cs.isPrefixOf "true".toList || cs.isPrefixOf "yes".toList then some true
  else if cs.isPrefixOf "false".toList || cs.isPrefixOf "no".toList then some false
  else if cs = "on".toList || cs = "1".toList then some true
  else if cs = "of".toList || cs = "off".toList || cs = "0".toList then some false
  else none

/-- `::BOOLEAN`. -/
def castBoolean (text : String) : Except CastError Bool :=
  let trimmed := ((text.toList.dropWhile isSpace).reverse.dropWhile isSpace).reverse
  match readBoolean (trimmed.map Char.toLower) with
  | some b => .ok b
  | none => .error (.invalidBoolean text)

/-- `COALESCE((json ->> 'simulation_only')::BOOLEAN, FALSE)`. -/
def simulationFlag (json : Option Json) : Except CastError Bool :=
  match json.bind (fun j => fieldText j "simulation_only") with
  | none => .ok false
  | some text => castBoolean text

/-- The request is simulation-only by neither flag. -/
def isReal (context : Json) : Except CastError Bool :=
  match simulationFlag (context.get "target") with
  | .error e => .error e
  | .ok true => .ok false
  | .ok false => (simulationFlag (some context)).map not

/-- The request names the decision, in the bridge's block or at the top. -/
def references (r : RequestRow) (decision : Uuid) : Bool :=
  (r.approvalContext.get "policy_bridge").bind
      (fun b => fieldText b "security_policy_decision_id") = some (uuidText decision) ||
    fieldText r.approvalContext "security_policy_decision_id" = some (uuidText decision)

/-- The requests joined to an assessment through its decisions. -/
def referring (db : BridgeDb) (a : AssessmentRow) : List RequestRow :=
  db.executions.requests.rows.filter (fun r =>
    db.decisions.rows.any (fun d => d.assessmentId = a.id && references r d.id))

/-- The condition of the selection. -/
def isExpired (db : BridgeDb) (cutoff : Instant) (a : AssessmentRow) : Except CastError Bool :=
  if a.incidentId = none ∧ a.lastSeen < cutoff then
    (filterE (fun r => isReal r.approvalContext) (referring db a)).map (fun rs => decide (rs = []))
  else .ok false

/-- `SELECT array_agg(a.id) INTO doomed`. -/
def doomedAssessments (db : BridgeDb) (cutoff : Instant) : Except CastError (List Uuid) :=
  (filterE (isExpired db cutoff) db.assessments.rows).map (fun rows => rows.map AssessmentRow.id)

/-- `DELETE FROM security_policy_decisions WHERE assessment_id = ANY (doomed)`. -/
def decisionsOf (db : BridgeDb) (doomed : List Uuid) : List Uuid :=
  (db.decisions.rows.filter (fun d => doomed.contains d.assessmentId)).map DecisionRow.id

/-- `DELETE FROM security_assessments WHERE id = ANY (doomed)`. -/
def presentOf (db : BridgeDb) (doomed : List Uuid) : List Uuid :=
  (db.assessments.rows.filter (fun a => doomed.contains a.id)).map AssessmentRow.id

/-! ## The transaction -/

/-- How far the deletion has come, and the rows it has deleted. -/
inductive Deletion
  | idle
  | selected (cutoff : Instant) (doomed : List Uuid)
  | decisionsDeleted (cutoff : Instant) (doomed decisions : List Uuid)
  | assessmentsDeleted (cutoff : Instant) (doomed decisions assessments : List Uuid)

namespace Deletion

def cutoff : Deletion → Option Instant
  | idle => none
  | selected t _ | decisionsDeleted t _ _ | assessmentsDeleted t _ _ _ => some t

def doomed : Deletion → List Uuid
  | idle => []
  | selected _ ids | decisionsDeleted _ ids _ | assessmentsDeleted _ ids _ _ => ids

/-- The decisions it has deleted and not committed. -/
def decisions : Deletion → List Uuid
  | idle | selected _ _ => []
  | decisionsDeleted _ _ ids | assessmentsDeleted _ _ ids _ => ids

def assessments : Deletion → List Uuid
  | idle | selected _ _ | decisionsDeleted _ _ _ => []
  | assessmentsDeleted _ _ _ ids => ids

end Deletion

structure World where
  bridge : Bridge.World
  deletion : Deletion

abbrev World.db (w : World) : BridgeDb := w.bridge.db

inductive Action
  | select (cutoff : Instant)
  | deleteDecisions
  | deleteAssessments
  | commit
  /-- an error or a crash in the deletion -/
  | abort
  | link (assessmentId incidentId : Uuid)
  /-- `new` is the id an insertion draws -/
  | persist (dedupeKey : String) (request : SecurityPolicyDecisionUpsert) (new : Uuid)
      (now : Instant)
  /-- a step of the bridge's callers, or of another writer of requests -/
  | bridge (N : Nat) (W : Int) (a : Bridge.Action)

def withAssessments (w : World) (T : Table AssessmentRow.id) : World :=
  { w with bridge := { w.bridge with db := { w.bridge.db with assessments := T } } }

def withDecisions (w : World) (T : Table DecisionRow.id) : World :=
  { w with bridge := { w.bridge with db := { w.bridge.db with decisions := T } } }

/-- The commit of a deletion: the rows it deleted are gone. -/
def withoutDeleted (w : World) : World :=
  { bridge := { w.bridge with
      db := { w.bridge.db with
        decisions := w.db.decisions.deleteWhere (fun d => d.id ∈ w.deletion.decisions)
        assessments := w.db.assessments.deleteWhere (fun a => a.id ∈ w.deletion.assessments) } }
    deletion := .idle }

/-- An upsert of a decision waits for the row it conflicts with, and an insertion needs its
assessment, which it waits for, and a fresh id. -/
def persistAllowed (w : World) (dedupeKey : String) (request : SecurityPolicyDecisionUpsert)
    (new : Uuid) : Bool :=
  match w.db.decisions.rows.find? (fun d => d.dedupeKey = dedupeKey) with
  | some d => !w.deletion.decisions.contains d.id
  | none =>
    w.db.assessments.rows.any (fun a => a.id = request.assessmentId) &&
      !w.deletion.assessments.contains request.assessmentId &&
      !w.db.executions.requests.rows.any (fun r => references r new)

section Exec

variable (pg : Reputation.Postgres)

def exec (w : World) : Action → Option World
  | .select cutoff =>
    match w.deletion with
    | .idle =>
      match doomedAssessments w.db cutoff with
      | .ok ids => some { w with deletion := .selected cutoff ids }
      | .error _ => some w
    | _ => none
  | .deleteDecisions =>
    match w.deletion with
    | .selected cutoff doomed =>
      some { w with deletion := .decisionsDeleted cutoff doomed (decisionsOf w.db doomed) }
    | _ => none
  | .deleteAssessments =>
    match w.deletion with
    | .decisionsDeleted cutoff doomed decisions =>
      -- a decision recorded meanwhile still references its assessment
      if w.db.decisions.rows.any (fun d =>
          doomed.contains d.assessmentId && !decisions.contains d.id) then
        some { w with deletion := .idle }
      else
        some { w with
          deletion := .assessmentsDeleted cutoff doomed decisions (presentOf w.db doomed) }
    | _ => none
  | .commit =>
    match w.deletion with
    | .assessmentsDeleted _ _ _ _ => some (withoutDeleted w)
    | _ => none
  | .abort => some { w with deletion := .idle }
  | .link assessmentId incidentId =>
    if w.deletion.assessments.contains assessmentId then none
    else some (withAssessments w
      (linkSecurityAssessmentIncident w.db.assessments assessmentId incidentId))
  | .persist dedupeKey request new now =>
    if persistAllowed w dedupeKey request new then
      (persistSecurityPolicyDecision w.db.decisions dedupeKey request new now).map
        (withDecisions w)
    else none
  | .bridge _ _ (.outside _) => none
  | .bridge N W a => (Bridge.exec pg N W w.bridge a).map (fun b => { w with bridge := b })

/-- Any store, and no deletion under way. -/
def Initial (w : World) : Prop := w.deletion = .idle

def retentionSystem : TSys World Action := TSys.ofExec Initial (exec pg)

end Exec

end Clawforge.Retention

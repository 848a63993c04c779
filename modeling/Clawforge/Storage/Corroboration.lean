import Clawforge.Kit.Islands
import Clawforge.Storage.Assessments

/-!
# What corroborates an assessment

The queries of the policy engine: the event families behind an assessment, another
assessment of the source with none of them, the decayed score of the source's earlier
episodes, and the shape of the member events.
-/

namespace Clawforge.Assessments

open EventDelivery Kit

/-- The member events of an assessment. -/
def memberEvents (s : AssessmentStore) (id : Uuid) : List Event :=
  s.events.filter (fun e => s.evidence.contains (id, e.eventId))

/-- `clawforge_assessment_event_types`. -/
def assessmentEventTypes (s : AssessmentStore) (id : Uuid) : List String :=
  ((memberEvents s id).map Event.eventType).dedup

/-- `cardinality(t) > 0 AND cardinality(u) > 0 AND NOT (t && u)`. -/
def disjointFamilies (t u : List String) : Bool :=
  t ≠ [] && u ≠ [] && !u.any (fun x => t.contains x)

/-- `resource_has_independent_family_assessment`. -/
def resourceHasIndependentFamilyAssessment (s : AssessmentStore) (resource : String) (id : Uuid)
    (since : Int) (ignoreRules : List String) : Bool :=
  s.assessments.rows.any (fun o => o.resource = resource && o.id ≠ id && since ≤ o.bucketStart &&
    !ignoreRules.contains o.ruleId &&
    disjointFamilies (assessmentEventTypes s id) (assessmentEventTypes s o.id))

/-! ## Earlier episodes -/

/-- PostgreSQL's `float8`, as far as the score relies on it: a sum that starts at zero, and
powers of one half, none of which lowers a sum. Both raise where the result is out of range. -/
structure Scoring (α : Type) [Preorder α] where
  zero : α
  add : α → α → Option α
  /-- `POWER(0.5, age / half_life)` of a half-life in seconds and an age in microseconds -/
  decayed : Int → Int → Option α
  le_add : ∀ {x t y halfLife age}, decayed halfLife age = some t → add x t = some y → x ≤ y

/-- `first_seen` and `last_seen`. -/
def spanOf (row : AssessmentRow) : Int × Int := (row.firstSeen, row.lastSeen)

/-- An assessment of the resource by a rule that counts. -/
def countsFor (resource : String) (ignoreRules : List String) (row : AssessmentRow) : Bool :=
  row.resource = resource && !ignoreRules.contains row.ruleId

/-- The spans of these assessments. -/
def spansFor (s : AssessmentStore) (resource : String) (ignoreRules : List String) :
    List (Int × Int) :=
  (s.assessments.rows.filter (countsFor resource ignoreRules)).map spanOf

/-- `episode`: the least start of the chain that leads back from the assessment. -/
def episodeStart (s : AssessmentStore) (resource : String) (id : Uuid) (gap : Int)
    (ignoreRules : List String) : Option Int :=
  (s.assessments.get? id).bind (fun a =>
    let spans := spansFor s resource ignoreRules
    (reach gap spans.length spans [(a.firstSeen : Int)]).min?)

/-- `prior`: what was over more than the gap before the episode. -/
def priorSpans (s : AssessmentStore) (resource : String) (id : Uuid) (gap : Int)
    (ignoreRules : List String) : List (Int × Int) :=
  match episodeStart s resource id gap ignoreRules with
  | none => []
  | some start =>
    (s.assessments.rows.filter (fun o => countsFor resource ignoreRules o && o.id ≠ id &&
      (o.lastSeen : Int) < start - gap)).map spanOf

inductive HistoryError
  | halfLifeOrGap
  | outOfRange
deriving DecidableEq, Repr

/-- The sum with the term of one more episode. -/
def addEpisode {α : Type} [Preorder α] (sc : Scoring α) (now : Instant) (halfLifeSeconds : Int)
    (sum : α) (ended : Int) : Except HistoryError α :=
  match (sc.decayed halfLifeSeconds ((now : Int) - ended)).bind (sc.add sum) with
  | some sum => .ok sum
  | none => .error .outOfRange

/-- `resource_prior_episode_history_score`: one decayed term for each earlier episode. -/
def resourcePriorEpisodeHistoryScore {α : Type} [Preorder α] (sc : Scoring α)
    (s : AssessmentStore) (now : Instant) (resource : String) (id : Uuid)
    (halfLifeSeconds episodeGapSeconds : Int) (ignoreRules : List String) :
    Except HistoryError α :=
  if halfLifeSeconds ≤ 0 ∨ episodeGapSeconds < 0 then .error .halfLifeOrGap
  else
    let gap := episodeGapSeconds * 1000000
    (islands gap (priorSpans s resource id gap ignoreRules)).foldlM
      (addEpisode sc now halfLifeSeconds) sc.zero

/-! ## Attack shape -/

/-- `AssessmentShape`. -/
structure AssessmentShape where
  events : Nat
  distinctUsernames : Nat
  distinctInvalidUsernames : Nat
  signaturePaths : Nat
deriving DecidableEq, Repr

/-- PostgreSQL's `lower` and `~*`. -/
structure TextFunctions where
  lower : String → String
  matchesPattern : String → String → Bool

inductive ShapeError
  | tooManyPatterns
deriving DecidableEq, Repr

/-- `left(text, n)`. -/
def left (n : Nat) (text : String) : String := String.ofList (text.toList.take n)

/-- `lower(left(payload ->> 'username', 64))` of the failed logins that meet a condition. -/
def usernames (tf : TextFunctions) (members : List Event) (counted : Event → Bool) :
    List String :=
  (((members.filter (fun e => e.eventType = "ssh_login_failure" && counted e)).filterMap (fun e =>
    fieldText e.payload "username")).map (fun name => tf.lower (left 64 name))).dedup

/-- `clawforge_assessment_shape`. -/
def assessmentShape (tf : TextFunctions) (s : AssessmentStore) (id : Uuid)
    (pathPatterns : List String) : Except ShapeError AssessmentShape :=
  if 50 < pathPatterns.length ∨ pathPatterns.any (fun p => 200 < p.toList.length) = true then
    .error .tooManyPatterns
  else
    let members := (memberEvents s id).take 1000
    .ok {
      events := members.length
      distinctUsernames := (usernames tf members (fun _ => true)).length
      distinctInvalidUsernames := (usernames tf members (fun e =>
        fieldText e.payload "invalid_user" = some "true")).length
      signaturePaths := (((members.filter (fun e => e.eventType = "http_anomaly")).filterMap
        (fun e => (fieldText e.payload "path").filter (fun path =>
          pathPatterns.any (tf.matchesPattern path)))).map (left 300)).dedup.length }

end Clawforge.Assessments

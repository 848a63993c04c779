import Clawforge.Api.AdminConfig
import Clawforge.Kit.TSys

/-!
# Rotating an API token

`admin_rotate_token`: the token is revoked by one statement and its replacement created by
another, for the caller. Any number of rotations run side by side, each statement can fail or
lose its answer, and a rotation can die between two of them. The log holds what each rotation
has changed.
-/

namespace Clawforge.TokenRotation

open Kit AdminConfig

/-- A row of `api_tokens`. -/
structure ApiToken where
  id : Uuid
  userId : Uuid
  tokenHash : String
  tokenPrefix : String
  name : String
  expiresAt : Option Instant
  revokedAt : Option Instant
deriving DecidableEq

/-- `revoked_at IS NULL AND (expires_at IS NULL OR expires_at > NOW())`. -/
def ApiToken.live (t : ApiToken) (now : Instant) : Bool :=
  t.revokedAt = none && t.expiresAt.all (fun e => decide (now < e))

abbrev ApiTokens := Table ApiToken.id

/-- How far a rotation is. -/
inductive Phase
  /-- the caller is an administrator -/
  | arrived (principal : AdminPrincipal)
  /-- the revocation is acknowledged; it met this row -/
  | revoked (principal : AdminPrincipal) (hit : Option ApiToken)
  | created (newId : Uuid)
  | answered (result : Except ApiError Uuid)
  | died
deriving DecidableEq

/-- The rotation makes no further change. -/
def Phase.done : Phase → Bool
  | .arrived _ | .revoked _ _ => false
  | .created _ | .answered _ | .died => true

structure Call where
  target : Uuid
  phase : Phase

/-- What a rotation has changed: it revoked a row, of which this was the content, at this time, or
created a token. -/
inductive Change
  | revoked (call : Nat) (before : ApiToken) (at_ : Instant)
  | created (call : Nat) (token : ApiToken)
deriving DecidableEq

def Change.call : Change → Nat
  | .revoked call _ _ => call
  | .created call _ => call

structure World where
  now : Instant
  tokens : ApiTokens
  calls : List Call
  log : List Change

inductive Action
  | tick (elapsed : Nat)
  /-- a request with the result of `authenticate` -/
  | arrive (principal : Except ApiError AdminPrincipal) (target : Uuid)
  | revoke (k : Nat) (fate : Fate)
  /-- `secret` is `new_secret()` -/
  | create (k : Nat) (newId : Uuid) (secret : String) (fate : Fate)
  /-- the audit row, whose failure is only logged -/
  | audit (k : Nat)
  | die (k : Nat)

def rotationFailed : ApiError := ⟨503, "token rotation failed"⟩

/-- `authenticate` and `require_role`. -/
def arrival (principal : Except ApiError AdminPrincipal) : Phase :=
  match principal with
  | .error error => .answered (.error error)
  | .ok principal =>
    match requireRole principal ["Administrator"] with
    | .error error => .answered (.error error)
    | .ok () => .arrived principal

def World.setPhase (w : World) (k : Nat) (c : Call) (phase : Phase) : World :=
  { w with calls := w.calls.set k { c with phase } }

/-- `revoke_api_token`; how many rows it met is not read. -/
def revokeApiToken (tokens : ApiTokens) (id : Uuid) (now : Instant) : ApiTokens :=
  tokens.updateWhere (fun t => t.id = id) (fun t => { t with revokedAt := some now }) (fun _ => rfl)

/-- The statement of a revocation that is applied. -/
def World.revoke (w : World) (k : Nat) (id : Uuid) : World :=
  { w with
    tokens := revokeApiToken w.tokens id w.now
    log := w.log ++ (w.tokens.get? id).toList.map (fun t => .revoked k t w.now) }

/-- The replacement: it belongs to the caller and expires after twelve hours. -/
def replacement (digest : String → String) (w : World) (principal : AdminPrincipal) (newId : Uuid)
    (secret : String) : ApiToken :=
  ⟨newId, principal.id, digest secret, String.ofList (secret.toList.take 8), "rotated",
    some (w.now + minutes (12 * 60)), none⟩

/-- `create_api_token`, which the unique id and hash can refuse. -/
def createApiToken (tokens : ApiTokens) (token : ApiToken) : Option ApiTokens :=
  if tokens.rows.any (fun t => t.tokenHash = token.tokenHash) then none else tokens.insert? token

/-- The token table after the insertion, if the insertion is applied. -/
def created? (w : World) (token : ApiToken) (fate : Fate) : Option ApiTokens :=
  match fate with
  | .failed => none
  | .stored | .unacknowledged => createApiToken w.tokens token

def World.create (w : World) (k : Nat) (token : ApiToken) (tokens : ApiTokens) : World :=
  { w with tokens, log := w.log ++ [.created k token] }

/-- The next statement of the rotation `k`. -/
def stepCall (digest : String → String) (w : World) (k : Nat) (c : Call) : Action → Option World
  | .revoke _ fate =>
    match c.phase with
    | .arrived principal =>
      match fate with
      | .failed => some (w.setPhase k c (.answered (.error rotationFailed)))
      | .unacknowledged =>
        some ((w.revoke k c.target).setPhase k c (.answered (.error rotationFailed)))
      | .stored =>
        some ((w.revoke k c.target).setPhase k c (.revoked principal (w.tokens.get? c.target)))
    | _ => none
  | .create _ newId secret fate =>
    match c.phase with
    | .revoked principal _ =>
      let token := replacement digest w principal newId secret
      match created? w token fate with
      | none => some (w.setPhase k c (.answered (.error rotationFailed)))
      | some tokens =>
        some ((w.create k token tokens).setPhase k c
          (if fate = Fate.stored then .created newId else .answered (.error rotationFailed)))
    | _ => none
  | .audit _ =>
    match c.phase with
    | .created newId => some (w.setPhase k c (.answered (.ok newId)))
    | _ => none
  | .die _ =>
    match c.phase with
    | .answered _ | .died => none
    | _ => some (w.setPhase k c .died)
  | .tick _ | .arrive _ _ => none

/-- The rotation that an action belongs to. -/
def Action.call : Action → Option Nat
  | .revoke k _ | .create k _ _ _ | .audit k | .die k => some k
  | .tick _ | .arrive _ _ => none

def exec (digest : String → String) (w : World) (a : Action) : Option World :=
  match a.call with
  | some k => w.calls[k]?.bind (fun c => stepCall digest w k c a)
  | none =>
    match a with
    | .tick elapsed => some { w with now := w.now + elapsed }
    | .arrive principal target =>
      some { w with calls := w.calls ++ [⟨target, arrival principal⟩] }
    | _ => none

/-- No rotation yet, whatever tokens there are. -/
def Initial (w : World) : Prop := w.calls = [] ∧ w.log = []

def rotationSystem (digest : String → String) : TSys World Action :=
  TSys.ofExec Initial (exec digest)

end Clawforge.TokenRotation

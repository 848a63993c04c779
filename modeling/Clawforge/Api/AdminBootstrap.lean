import Clawforge.Kit.Table
import Clawforge.Kit.TSys
import Clawforge.Text
import Clawforge.Values

/-!
# Bootstrapping the first administrator

`admin_bootstrap`, statement by statement: the count of the accounts, the checks of the request,
the hash of its password, the account, its session, its audit row. Any number of requests are
between these at once, and administrators create further accounts.
-/

namespace Clawforge.AdminBootstrap

open Kit Text

/-- A row of `admin_users`. -/
structure AdminUser where
  id : Uuid
  username : String
  role : String
  passwordHash : String
deriving DecidableEq, Repr

/-- `username` is unique; that `id` is, the insertion checks. -/
abbrev AdminUsers := Table AdminUser.username

/-- A row of `admin_sessions`. -/
structure AdminSession where
  userId : Uuid
  sessionHash : String
  expiresAt : Instant
deriving DecidableEq, Repr

/-- `BootstrapRequest`. -/
structure BootstrapRequest where
  username : Option String
  password : String
  bootstrapToken : String
deriving DecidableEq, Repr

/-- `StatusCode` and message of an error response. -/
structure ApiError where
  status : Nat
  message : String
deriving DecidableEq, Repr

def conflict (message : String) : ApiError := ⟨409, message⟩

def unavailable (message : String) : ApiError := ⟨503, message⟩

/-- The configuration of the service; `bootstrapSecret` is what `load_optional` answers. -/
structure Config where
  digest : String → String
  bootstrapSecret : Except Unit (Option String)
  analyzerToken : Option String
  notifierToken : Option String
  eventsToken : Option String
  operationsToken : Option String
  bootstrapUsername : Option String

/-! ## Checks -/

/-- `PLACEHOLDER_MARKERS`. -/
def placeholderMarkers : List String :=
  [ "change-me", "changeme", "replace-this", "replace-with", "placeholder", "example-token" ]

/-- `validate_token`. -/
def validateToken (value : String) : Bool :=
  let chars := value.toList
  let normalized := toAsciiLowercase chars
  32 ≤ value.utf8ByteSize && !chars.any isWhitespace &&
    !placeholderMarkers.any (fun marker => contains marker.toList normalized) &&
    8 ≤ chars.eraseDups.length

/-- `configured_bootstrap_token`. -/
def configuredBootstrapToken (cfg : Config) : Except Unit (Option String) :=
  match cfg.bootstrapSecret with
  | .error () => .error ()
  | .ok none => .ok none
  | .ok (some value) => if validateToken value then .ok (some value) else .error ()

/-- `ensure_distinct`. -/
def ensureDistinct (values : List String) : Bool := decide values.Nodup

/-- What `admin_bootstrap` checks between the count and the hash, and the name of the account. -/
def checkRequest (cfg : Config) (r : BootstrapRequest) : Except ApiError String := do
  let expected ← match configuredBootstrapToken cfg with
    | .error () => .error (unavailable "bootstrap secret configuration is invalid")
    | .ok none => .error (unavailable "bootstrap secret is not configured")
    | .ok (some expected) => .ok expected
  if !ensureDistinct [expected, cfg.analyzerToken.getD "", cfg.notifierToken.getD "",
      cfg.eventsToken.getD "", cfg.operationsToken.getD ""] then
    .error (unavailable "bootstrap secret must be distinct from service credentials")
  else if cfg.digest r.bootstrapToken ≠ cfg.digest expected then
    .error ⟨401, "invalid bootstrap token"⟩
  else if r.password.utf8ByteSize < 12 then
    .error ⟨400, "password must contain at least 12 characters"⟩
  else .ok (r.username.getD (cfg.bootstrapUsername.getD "admin"))

/-- `create_admin_user`. -/
def createAdminUser (users : AdminUsers) (user : AdminUser) : Option AdminUsers :=
  if users.rows.any (fun u => u.id = user.id) then none else users.insert? user

/-! ## Requests side by side -/

/-- How far a request is. -/
inductive Phase
  | arrived
  /-- the count was zero -/
  | counted
  | checked (username : String)
  | hashed (username passwordHash : String)
  | inserted (user : AdminUser)
  | opened (user : AdminUser)
  | answered (result : Except ApiError Unit)
deriving DecidableEq

/-- A request; `late` says that there was an administrator when it arrived. -/
structure Call where
  request : BootstrapRequest
  late : Bool
  phase : Phase

/-- The tables, the requests, and which of them have created an account. -/
structure World where
  users : AdminUsers
  sessions : List AdminSession
  audit : List (String × Uuid)
  calls : List Call
  created : List Nat

def World.hasAdministrator (w : World) : Bool :=
  w.users.rows.any (fun u => u.role = "Administrator")

/-- A database statement or the hashing may fail, which its label says. -/
inductive Action
  | arrive (request : BootstrapRequest)
  | count (i : Nat) (ok : Bool)
  | check (i : Nat)
  | hash (i : Nat) (result : Option String)
  | insert (i : Nat) (id : Uuid) (ok : Bool)
  | openSession (i : Nat) (token : String) (now : Instant) (ok : Bool)
  | recordAudit (i : Nat) (ok : Bool)
  /-- `admin_create_user` by an administrator -/
  | createUser (user : AdminUser)
deriving DecidableEq

def World.setPhase (w : World) (i : Nat) (c : Call) (phase : Phase) : World :=
  { w with calls := w.calls.set i { c with phase } }

def World.refuse (w : World) (i : Nat) (c : Call) (error : ApiError) : World :=
  w.setPhase i c (.answered (.error error))

/-- The account of the request `i` is created. -/
def World.create (w : World) (i : Nat) (c : Call) (user : AdminUser) (users : AdminUsers) :
    World :=
  { w.setPhase i c (.inserted user) with users, created := i :: w.created }

/-- The insertion of the request `i`, whose password is hashed. -/
def World.insert (w : World) (i : Nat) (c : Call) (user : AdminUser) (ok : Bool) : World :=
  match if ok then createAdminUser w.users user else none with
  | some users => w.create i c user users
  | none => w.refuse i c (conflict "administrator could not be created")

def World.openSession (cfg : Config) (w : World) (i : Nat) (c : Call) (user : AdminUser)
    (token : String) (now : Instant) (ok : Bool) : World :=
  if ok then
    { w.setPhase i c (.opened user) with
      sessions := w.sessions ++ [⟨user.id, cfg.digest token, now + minutes (12 * 60)⟩] }
  else w.refuse i c (unavailable "session creation failed")

def World.recordAudit (w : World) (i : Nat) (c : Call) (user : AdminUser) (ok : Bool) : World :=
  if ok then
    { w.setPhase i c (.answered (.ok ())) with audit := w.audit ++ [(user.username, user.id)] }
  else w.refuse i c (unavailable "audit storage failed")

/-- The next statement of the request `i`. -/
def stepCall (cfg : Config) (w : World) (i : Nat) (c : Call) : Action → Option World
  | .count _ ok =>
    if c.phase = .arrived then
      if !ok then some (w.refuse i c (unavailable "storage unavailable"))
      else if w.users.rows ≠ [] then
        some (w.refuse i c (conflict "bootstrap already completed"))
      else some (w.setPhase i c .counted)
    else none
  | .check _ =>
    if c.phase = .counted then
      match checkRequest cfg c.request with
      | .error e => some (w.refuse i c e)
      | .ok username => some (w.setPhase i c (.checked username))
    else none
  | .hash _ result =>
    match c.phase, result with
    | .checked username, some passwordHash =>
      some (w.setPhase i c (.hashed username passwordHash))
    | .checked _, none => some (w.refuse i c ⟨500, "password hashing failed"⟩)
    | _, _ => none
  | .insert _ id ok =>
    match c.phase with
    | .hashed username passwordHash =>
      some (w.insert i c ⟨id, username, "Administrator", passwordHash⟩ ok)
    | _ => none
  | .openSession _ token now ok =>
    match c.phase with
    | .inserted user => some (w.openSession cfg i c user token now ok)
    | _ => none
  | .recordAudit _ ok =>
    match c.phase with
    | .opened user => some (w.recordAudit i c user ok)
    | _ => none
  | .arrive _ | .createUser _ => none

/-- The request a statement belongs to. -/
def Action.call : Action → Option Nat
  | .count i _ | .check i | .hash i _ | .insert i _ _ | .openSession i _ _ _
  | .recordAudit i _ => some i
  | .arrive _ | .createUser _ => none

def exec (cfg : Config) (w : World) (a : Action) : Option World :=
  match a.call with
  | some i => w.calls[i]?.bind (fun c => stepCall cfg w i c a)
  | none =>
    match a with
    | .arrive request =>
      some { w with calls := w.calls ++ [⟨request, w.hasAdministrator, .arrived⟩] }
    | .createUser user =>
      if w.hasAdministrator then
        (createAdminUser w.users user).map (fun users => { w with users })
      else none
    | _ => none

/-- No request yet, whoever has an account. -/
def Initial (w : World) : Prop := w.calls = [] ∧ w.created = []

def bootstrapSystem (cfg : Config) : TSys World Action := TSys.ofExec Initial (exec cfg)

end Clawforge.AdminBootstrap

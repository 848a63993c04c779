import Clawforge.Api.RateLimiter
import Clawforge.Text
import Clawforge.Values

/-!
# The rate limit of requests

`rate_limit_middleware`: what a request may cost and on whose account, read from its path, its
headers and its connection, and the two calls of the limiter that decide whether it reaches its
handler. Other clients call the same limiter in between.
-/

namespace Clawforge.RateLimiter

open Kit Text

/-! ## Headers -/

/-- `HeaderValue`: its bytes. -/
abbrev HeaderValue := List UInt8

/-- `HeaderMap`. -/
abbrev Headers := List (String × HeaderValue)

/-- `HeaderValue::to_str`: visible ASCII, blanks and tabs. -/
def toStr (v : HeaderValue) : Option String :=
  if v.all (fun b => (32 ≤ b && b < 127) || b = 9) then
    some (String.ofList (v.map (fun b => Char.ofNat b.toNat)))
  else none

/-- `bearer`. -/
def bearer (headers : Headers) : Option String :=
  (headers.lookup "authorization").bind fun v =>
    (toStr v).bind fun text =>
      ((stripPrefix "Bearer ".toList text.toList).filter (fun t => trim t ≠ [])).map String.ofList

/-- `header_client_identity`. -/
def headerClientIdentity (headers : Headers) : String :=
  let value := (headers.lookup "x-forwarded-for").orElse (fun _ => headers.lookup "x-real-ip")
  let first := (value.bind toStr).map (fun text => trim ((text.toList.splitOn ',').headD []))
  ((first.filter (· ≠ [])).map String.ofList).getD "unknown"

/-! ## Policies -/

inductive Method
  | get | head | post | put | delete | patch | other
deriving DecidableEq, Repr

/-- `RatePolicy`; its window in seconds. -/
structure RatePolicy where
  «class» : String
  limit : Nat
  windowSecs : Nat
deriving DecidableEq, Repr

/-- `u32::saturating_mul`. -/
def saturatingMul (a b : Nat) : Nat := min (a * b) (2 ^ 32 - 1)

/-- `role_multiplier`. -/
def roleMultiplier : Option String → Nat
  | some "Administrator" => 200
  | some "Operator" => 150
  | some "Approver" => 125
  | some "Viewer" => 100
  | _ => 50

/-- `global_limit`. -/
def globalLimit (policy : RatePolicy) (role : Option String) : Nat :=
  if policy.class = "internal-event" then policy.limit
  else if policy.class = "login" then 10
  else if policy.class = "bootstrap" then 6
  else saturatingMul 300 (roleMultiplier role) / 100

inductive InternalIdentity
  | analyzer | events | notifier | operations
deriving DecidableEq, Repr

/-- `InternalIdentity::event_consumer`. -/
def InternalIdentity.eventConsumer : InternalIdentity → Option String
  | .analyzer => some "analyzer"
  | .events => some "events"
  | .notifier => some "notifier"
  | .operations => none

/-- `internal_event_policy`. -/
def internalEventPolicy (path : String) (identity : Option InternalIdentity) :
    Option RatePolicy :=
  let deliveryConsumer := startsWith path "/internal/events/" &&
    identity.any (fun i => i.eventConsumer.isSome)
  let notificationConsumer :=
    (path = "/internal/notifier/events" || startsWith path "/internal/notifier/events/") &&
      identity = some .notifier
  if deliveryConsumer || notificationConsumer then some ⟨"internal-event", 6000, 60⟩ else none

/-- `str::ends_with`. -/
def endsWith (s tail : String) : Bool := tail.toList.isSuffixOf s.toList

/-- `policy_for`. -/
def policyFor (path : String) (method : Method) (role : Option String) : Option RatePolicy :=
  if path = "/health" ∨ path = "/ready" then none
  else if path = "/admin/auth/login" then some ⟨"login", 5, 60⟩
  else if path = "/admin/auth/bootstrap" then some ⟨"bootstrap", 3, 60 * 60⟩
  else
    let scaled (base : Nat) := max 1 (saturatingMul base (roleMultiplier role) / 100)
    if endsWith path "/export" then some ⟨"export", scaled 10, 60⟩
    else if method = .get ∨ method = .head then some ⟨"read", scaled 120, 60⟩
    else some ⟨"write", scaled 60, 60⟩

/-! ## Requests -/

/-- A request; `source` is the address of its connection, if that is known. -/
structure Request where
  path : String
  method : Method
  source : Option String
  headers : Headers
deriving DecidableEq, Repr

/-- The service's tokens, `digest`, and the role of the credential a digest is stored for. -/
structure Env where
  digest : String → String
  authenticate : String → Option String
  analyzerToken : Option String
  eventsToken : Option String
  notifierToken : Option String
  operationsToken : Option String

/-- `internal_identity`. -/
def internalIdentity (env : Env) (headers : Headers) : Option InternalIdentity :=
  (bearer headers).bind fun provided =>
    [ (.analyzer, env.analyzerToken), (.events, env.eventsToken)
    , (.notifier, env.notifierToken), (.operations, env.operationsToken) ].findSome?
      fun (identity, expected) =>
        if expected.any (fun value => env.digest provided = env.digest value) then some identity
        else none

/-- Whose account a request is on: that of its bearer token, valid or not, before that of its
source. -/
def identityOf (env : Env) (r : Request) : String :=
  ((bearer r.headers).map env.digest).getD
    (env.digest (r.source.getD (headerClientIdentity r.headers)))

/-- What the middleware has read of a request when it asks the limiter. -/
structure Admission where
  path : String
  policy : RatePolicy
  identity : String
  globalLimit : Nat
deriving DecidableEq, Repr

/-- The reading of a request; `none` where its path has no limit. -/
def admissionOf (env : Env) (r : Request) : Option Admission :=
  (policyFor r.path r.method none).bind fun _ =>
    let internal := internalEventPolicy r.path (internalIdentity env r.headers)
    let role := if internal.isSome then none
      else (bearer r.headers).bind (fun token => env.authenticate (env.digest token))
    (internal.orElse (fun _ => policyFor r.path r.method role)).map fun policy =>
      ⟨r.path, policy, identityOf env r, max 1 (globalLimit policy role)⟩

def Admission.globalKey (a : Admission) : String :=
  "global:" ++ a.identity ++ ":" ++ toString a.policy.windowSecs

def Admission.endpointKey (a : Admission) : String :=
  "endpoint:" ++ a.policy.class ++ ":" ++ a.path ++ ":" ++ a.identity

def Admission.globalRate (a : Admission) : RateLimit :=
  ⟨a.globalLimit, seconds a.policy.windowSecs⟩

def Admission.endpointRate (a : Admission) : RateLimit :=
  ⟨a.policy.limit, seconds a.policy.windowSecs⟩

/-! ## A client at the closed doors -/

inductive Stage
  | arrived
  | counted (allowed : Bool)
  | passed
  | refused
deriving DecidableEq, Repr

/-- The limiter, the requests of the client, and for each path when the middleware answered them
and whether it let them through. -/
structure Gate where
  limiter : World
  requests : List (Admission × Stage)
  passages : String → List Call

def Gate.start : Gate := ⟨World.start, [], fun _ => []⟩

/-- A request of the client to log in or to bootstrap, without a valid credential. -/
def Anonymous (env : Env) (source : String) (r : Request) : Prop :=
  (r.path = "/admin/auth/login" ∨ r.path = "/admin/auth/bootstrap") ∧ r.source = some source ∧
    ∀ token ∈ bearer r.headers, env.authenticate (env.digest token) = none

instance (env : Env) (source : String) (r : Request) : Decidable (Anonymous env source r) :=
  inferInstanceAs (Decidable (_ ∧ _ ∧ _))

/-- `arrive`: the middleware reads a request of the client. `global`, `endpoint`: its two calls of
the limiter. `other`: a call of the limiter for anybody else. -/
inductive Event
  | tick (now : Nat)
  | arrive (r : Request)
  | global (i : Nat)
  | endpoint (i : Nat)
  | other (key : String) (rate : RateLimit)
deriving DecidableEq, Repr

/-- The answer the limiter gives now. -/
def World.decision (w : World) (key : String) (rate : RateLimit) : Bool :=
  (RateLimiter.check w.buckets key rate.limit rate.window w.now).1.allowed

def Gate.countGlobal (g : Gate) (i : Nat) (a : Admission) : Gate :=
  { g with
    limiter := g.limiter.check a.globalKey a.globalRate
    requests := g.requests.set i (a, .counted (g.limiter.decision a.globalKey a.globalRate)) }

/-- The request goes to its handler where both calls allow it. -/
def Gate.countEndpoint (g : Gate) (i : Nat) (a : Admission) (allowed : Bool) : Gate :=
  let passes := allowed && g.limiter.decision a.endpointKey a.endpointRate
  { limiter := g.limiter.check a.endpointKey a.endpointRate
    requests := g.requests.set i (a, if passes then .passed else .refused)
    passages := fun path =>
      if path = a.path then ⟨g.limiter.now, passes⟩ :: g.passages path else g.passages path }

def execGate (env : Env) (source : String) (g : Gate) : Event → Option Gate
  | .tick now =>
    if g.limiter.now ≤ now then some { g with limiter := { g.limiter with now } } else none
  | .arrive r =>
    if Anonymous env source r then
      (admissionOf env r).map (fun a => { g with requests := g.requests ++ [(a, .arrived)] })
    else none
  | .global i =>
    match g.requests[i]? with
    | some (a, .arrived) => some (g.countGlobal i a)
    | _ => none
  | .endpoint i =>
    match g.requests[i]? with
    | some (a, .counted allowed) => some (g.countEndpoint i a allowed)
    | _ => none
  | .other key rate => some { g with limiter := g.limiter.check key rate }

/-- The requests of one client to log in or to bootstrap, among the calls of all others. -/
def clientSystem (env : Env) (source : String) : TSys Gate Event :=
  TSys.ofExec (· = Gate.start) (execGate env source)

end Clawforge.RateLimiter

import Clawforge.Intelligence.Feeds
import Clawforge.Net.AddressClasses

/-!
# Routing context of an address

The announced network of an address, its origin ASNs and their RPKI validity, from two calls
of a public routing API. Everything fetched is untrusted: `envelope` and the two parsers
refuse what is malformed, and `assemble` keeps routing facts whose validity answers are
missing, as not checked.
-/

namespace Clawforge.Intelligence

open Clawforge.Net Kit

/-! ## Records -/

def maxBodyBytes : Nat := 64 * 1024

def maxAsns : Nat := 16

inductive IpContextError
  | rateLimited (retryAfterSeconds : Nat)
  | upstream (status : UInt16)
  | transport
  | rejected (text : String)
deriving DecidableEq

inductive RpkiSummary
  | valid | invalid | mixed | unknown | notChecked
deriving DecidableEq

/-- `as_str`. -/
def RpkiSummary.asStr : RpkiSummary → String
  | .valid => "valid"
  | .invalid => "invalid"
  | .mixed => "mixed"
  | .unknown => "unknown"
  | .notChecked => "not_checked"

inductive RpkiState
  | valid | invalid | unknown
deriving DecidableEq

structure IpNetworkContext where
  announced : Option IpNet
  originAsns : List Nat
  rpki : RpkiSummary
  source : String
  fetchedAt : Instant
deriving DecidableEq

/-! ## Parsing -/

/-- `ok_or(Rejected(..))`. -/
def orReject {α : Type} (found : Option α) (text : String) : Except IpContextError α :=
  match found with
  | some a => .ok a
  | none => .error (.rejected text)

section Parsing

variable (env : Env)

def envelope (body : ByteArray) : Except IpContextError Json :=
  if body.size = 0 ∨ maxBodyBytes < body.size then
    .error (.rejected "body size outside the accepted range")
  else
    match env.fromSlice body with
    | .error _ => .error (.rejected "not JSON")
    | .ok value =>
      if (value.get "status").bind Json.asStr = some "ok" ∧
          (value.get "status_code").bind Json.asU64 = some 200 then .ok value
      else .error (.rejected "envelope is not status ok / 200")

/-- `asn_number`. -/
def asnNumber (text : List Char) : Option Nat :=
  if text ≠ [] ∧ text.length ≤ 10 ∧ text.all (isDigitOf 10) then
    (Text.parseUnsigned (2 ^ 32) text).filter (· ≠ 0)
  else none

/-- An origin as a text or as a number. -/
def originOf (item : Json) : Option Nat :=
  ((item.asStr.bind (fun text => asnNumber text.toList))).or
    (item.asU64.filter (fun n => n < 2 ^ 32 ∧ n ≠ 0))

/-- `MIN_V4_PREFIX_LEN` and `MIN_V6_PREFIX_LEN`. -/
def minLength (net : IpNet) : Nat :=
  match net.addr with
  | .v4 _ => 8
  | .v6 _ => 16

/-- `sort_unstable` and `dedup`. -/
def sortedOrigins (origins : List Nat) : List Nat := (origins.insertionSort (· ≤ ·)).dedup

/-- `parse_network_info`; `none` for an address without an announced route. -/
def parseNetworkInfo (body : ByteArray) (ip : IpAddr) :
    Except IpContextError (Option (IpNet × List Nat)) := do
  let value ← envelope env body
  let data ← orReject ((value.get "data").filter Json.isObject) "data is not an object"
  let announced ← orReject ((data.get "prefix").bind Json.asStr) "prefix missing"
  let asns ← orReject ((data.get "asns").bind Json.asArray) "asns missing"
  if announced = "" then
    if asns = [] then .ok none else .error (.rejected "origin ASNs without a prefix")
  else
    let net ← orReject (env.parseIpNet announced) "prefix is not a CIDR"
    if net.prefixLen < minLength net then
      .error (.rejected "announced prefix implausibly wide")
    else if net.contains ip = false then
      .error (.rejected "prefix does not contain the queried address")
    else if asns = [] ∨ maxAsns < asns.length then
      .error (.rejected "origin ASN count outside the accepted range")
    else
      let origins ← asns.mapM (fun item =>
        orReject (originOf item) "origin ASN is not a plain number")
      .ok (some (net, sortedOrigins origins))

/-- `trim_start_matches("AS")`. -/
def trimAs : List Char → List Char
  | 'A' :: 'S' :: rest => trimAs rest
  | text => text

/-- The origin that an answer is about. -/
def echoedAsn : Option Json → Option Nat
  | some (.string text) => asnNumber (trimAs text.toList)
  | some (.number n) => (Json.number n).asU64.filter (· < 2 ^ 32)
  | _ => none

/-- The validity of a status text. -/
def stateOf (status : String) : Option RpkiState :=
  if status = "valid" then some .valid
  else if Text.startsWith status "invalid" then some .invalid
  else if status = "unknown" ∨ status = "not-found" ∨ status = "unverified" then some .unknown
  else none

def parseRpki (body : ByteArray) (net : IpNet) (asn : Nat) : Except IpContextError RpkiState := do
  let value ← envelope env body
  let data ← orReject ((value.get "data").filter Json.isObject) "data is not an object"
  if ((data.get "prefix").bind Json.asStr).bind env.parseIpNet ≠ some net then
    .error (.rejected "RPKI answer is about a different prefix")
  else if echoedAsn (data.get "resource") ≠ some asn then
    .error (.rejected "RPKI answer is about a different origin")
  else
    orReject (((data.get "status").bind Json.asStr).bind stateOf)
      "RPKI status is not a recognised value"

/-! ## Assembling -/

def summarize (states : List RpkiState) : RpkiSummary :=
  if states = [] then .notChecked
  else if states.all (· = .valid) then .valid
  else if states.all (· = .invalid) then .invalid
  else if states.all (· = .unknown) then .unknown
  else .mixed

/-- One turn of the loop over the origins and their answers. -/
def addState (net : IpNet) (acc : List RpkiState × Bool) (answer : Nat × Option ByteArray) :
    List RpkiState × Bool :=
  match answer.2.map (fun bytes => parseRpki env bytes net answer.1) with
  | some (.ok state) => (acc.1 ++ [state], acc.2)
  | _ => (acc.1, false)

def assemble (networkInfo : ByteArray) (ip : IpAddr) (rpkiBodies : List (Option ByteArray))
    (fetchedAt : Instant) : Except IpContextError IpNetworkContext := do
  match ← parseNetworkInfo env networkInfo ip with
  | none => .ok ⟨none, [], .notChecked, "ripestat", fetchedAt⟩
  | some (net, origins) =>
    let (states, complete) := (origins.zip rpkiBodies).foldl (addState env net)
      ([], decide (rpkiBodies.length = origins.length))
    .ok ⟨some net, origins, if complete then summarize states else .notChecked, "ripestat",
      fetchedAt⟩

end Parsing

/-! ## Looking an address up -/

/-- Only publicly routable unicast addresses are ever sent to the third party. -/
def isQueryable : IpAddr → Bool
  | .v4 a =>
    !(Ipv4.isLoopback a || Ipv4.isPrivate a || Ipv4.isLinkLocal a || Ipv4.isMulticast a ||
      Ipv4.isBroadcast a || Ipv4.isUnspecified a || octet a 0 = 0 ||
      (octet a 0 = 100 && 64 ≤ octet a 1 && octet a 1 < 128) ||
      (octet a 0 = 192 && octet a 1 = 0 && octet a 2 = 0) ||
      (octet a 0 = 198 && (octet a 1 = 18 || octet a 1 = 19)) || 240 ≤ octet a 0)
  | .v6 a =>
    !(Ipv6.isLoopback a || Ipv6.isUnspecified a || Ipv6.isMulticast a ||
      segment a 0 &&& 0xfe00 = 0xfc00 || segment a 0 &&& 0xffc0 = 0xfe80 ||
      (toIpv4Mapped a).isSome || segment a 0 &&& 0xe000 ≠ 0x2000)

/-- A request to the routing API. -/
inductive RoutingRequest
  | networkInfo (resource : IpAddr)
  | rpkiValidation (asn : Nat) (announced : IpNet)
deriving DecidableEq

section Lookup

variable (env : Env) (answer : RoutingRequest → Except IpContextError ByteArray)

/-- The loop of `lookup` over the origins: the requests, and the answers unless one asks to
wait. -/
def askOrigins (net : IpNet) :
    List Nat → List RoutingRequest × Except IpContextError (List (Option ByteArray))
  | [] => ([], .ok [])
  | asn :: rest =>
    match answer (.rpkiValidation asn net) with
    | .error (.rateLimited seconds) =>
      ([.rpkiValidation asn net], .error (.rateLimited seconds))
    | got =>
      ( .rpkiValidation asn net :: (askOrigins net rest).1
      , (askOrigins net rest).2.map (fun bodies => got.toOption :: bodies) )

/-- `lookup`: the requests it makes, in order, and its result. -/
def lookup (now : Instant) (ip : IpAddr) :
    List RoutingRequest × Except IpContextError IpNetworkContext :=
  if isQueryable ip then
    match answer (.networkInfo ip) with
    | .error error => ([.networkInfo ip], .error error)
    | .ok info =>
      match parseNetworkInfo env info ip with
      | .error error => ([.networkInfo ip], .error error)
      | .ok none => ([.networkInfo ip], assemble env info ip [] now)
      | .ok (some (net, origins)) =>
        ( .networkInfo ip :: (askOrigins answer net origins).1
        , (askOrigins answer net origins).2.bind (fun bodies =>
            assemble env info ip bodies now) )
  else ([], .error (.rejected "address is not publicly routable unicast"))

end Lookup

end Clawforge.Intelligence

/-! ## The Team Cymru provider

Its configuration: one public address, which `fetch` sends to the whois server.
-/

namespace Clawforge.Intelligence

open Clawforge.Net

/-- Never send private, loopback, link-local or documentation addresses to a public
service. -/
def isGlobalAddress : IpAddr → Bool
  | .v4 a =>
    !(Ipv4.isPrivate a || Ipv4.isLoopback a || Ipv4.isLinkLocal a || Ipv4.isUnspecified a ||
      Ipv4.isBroadcast a || Ipv4.isMulticast a || Ipv4.isDocumentation a || octet a 0 = 0 ||
      (octet a 0 = 100 && octet a 1 &&& 0xc0 = 64) || 240 ≤ octet a 0)
  | .v6 a =>
    !(Ipv6.isLoopback a || Ipv6.isUnspecified a || Ipv6.isMulticast a ||
      segment a 0 &&& 0xfe00 = 0xfc00 || segment a 0 &&& 0xffc0 = 0xfe80 ||
      (segment a 0 = 0x2001 && segment a 1 = 0x0db8))

structure TeamCymruProvider where
  address : IpAddr
  server : String
deriving DecidableEq

/-- `with_resource`. -/
def TeamCymruProvider.withResource (resource : String) :
    Except ProviderError TeamCymruProvider :=
  match parseIpAddr (Text.trim resource.toList) with
  | none => .error (.configuration "CLAWFORGE_TEAM_CYMRU_RESOURCE must be one IP address")
  | some address =>
    if isGlobalAddress address then .ok ⟨address, "whois.cymru.com:43"⟩
    else .error (.configuration "CLAWFORGE_TEAM_CYMRU_RESOURCE must be a public address")

end Clawforge.Intelligence

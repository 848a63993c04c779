import Clawforge.Kit.Fallible
import Clawforge.Storage.Indicators
import Clawforge.Firewall.Denotation

/-!
# Reputation of an address

The SQL functions `clawforge_ip_reputation` and `clawforge_current_source_intel` over
the stored indicators, and `lookup_ip_reputation` in front of the first. A comparison
casts the value of every unexpired prefix indicator to `cidr`, and a cast that fails
ends the statement with an error.
-/

namespace Clawforge.Reputation

open Clawforge.Net Clawforge.Intelligence Kit

/-! ## The database's network types -/

/-- A statement's error. -/
inductive SqlError
  | invalidCidr (value : String)
  | invalidInet (value : String)
deriving DecidableEq

/-- `ORDER BY confidence DESC, last_seen DESC`: `a` may come after `b`. -/
def Below (a b : IndicatorRow) : Prop :=
  a.confidence < b.confidence ∨ (a.confidence = b.confidence ∧ a.lastSeen ≤ b.lastSeen)

instance : DecidableRel Below := fun _ _ => inferInstanceAs (Decidable (_ ∨ _))

/-- What `ORDER BY … LIMIT 1` may return of some rows. -/
def IsTop (rows : List IndicatorRow) : Option IndicatorRow → Prop
  | none => rows = []
  | some top => top ∈ rows ∧ ∀ row ∈ rows, Below row top

/-- The address itself as a network. -/
def hostNet (addr : IpAddr) : IpNet := ⟨addr, addr.width, le_refl _⟩

/-- PostgreSQL, as far as the functions rely on it: the input of `inet`, which reads
every spelling of an address that the standard library reads, `host`, which spells an
address, and the row it picks of those it may. -/
structure Postgres where
  inetIn : String → Option IpNet
  host : IpAddr → String
  top : List IndicatorRow → Option IndicatorRow
  reads_address : ∀ s a, parseIpAddr s.toList = some a → inetIn s = some (hostNet a)
  host_spells : ∀ a, parseIpAddr (host a).toList = some a
  isTop : ∀ rows, IsTop rows (top rows)

section Functions

variable (pg : Postgres)

/-- `value::cidr`: the input of `inet`, refused with bits set to the right of the mask. -/
def Postgres.cidr (value : String) : Option IpNet :=
  (pg.inetIn value).filter IpNet.isNetwork

/-- Plausibly specific: at least /8 for IPv4 and /16 for IPv6. -/
def specific (n : IpNet) : Bool :=
  match n.addr with
  | .v4 _ => 8 ≤ n.prefixLen
  | .v6 _ => 16 ≤ n.prefixLen

/-- An unexpired indicator that is no routing context. -/
def reputational (now : Instant) (row : IndicatorRow) : Bool :=
  now < row.expiresAt && !row.categories.contains "network-intelligence"

/-- The condition of `clawforge_ip_reputation` on one row. -/
def rowMatches (now : Instant) (ip : IpAddr) (row : IndicatorRow) : Except SqlError Bool :=
  if reputational now row then
    match row.indicatorType with
    | .ip => .ok (row.value = pg.host ip)
    | .ipPrefix =>
      match pg.cidr row.value with
      | none => .error (.invalidCidr row.value)
      | some n => .ok (specific n && n.contains ip)
    | _ => .ok false
  else .ok false

structure IpReputationHit where
  source : String
  confidence : Nat
  lastSeen : Instant
deriving DecidableEq

def hitOf (row : IndicatorRow) : IpReputationHit where
  source := row.source
  confidence := row.confidence
  lastSeen := row.lastSeen

/-- `clawforge_ip_reputation`. -/
def ipReputation (T : Table IndicatorRow.key) (now : Instant) (ip : IpAddr) :
    Except SqlError (Option IpReputationHit) :=
  (filterE (rowMatches pg now ip) T.rows).map (fun rows => (pg.top rows).map hitOf)

/-- `lookup_ip_reputation`. -/
def lookupIpReputation (T : Table IndicatorRow.key) (now : Instant) (ip : String) :
    Except SqlError (Option IpReputationHit) :=
  if (parseIpAddr ip.toList).isNone then .ok none
  else
    match pg.inetIn ip with
    | none => .error (.invalidInet ip)
    | some n => ipReputation pg T now n.addr

/-! ## The current view of a source -/

structure Resolution where
  pseudonym : String
  rawIp : IpNet
  expiresAt : Instant
deriving DecidableEq

structure NetworkContext where
  pseudonym : String
  status : String
  network : Option IpNet
  originAsns : List Nat
  rpki : String
  fetchedAt : Instant
  expiresAt : Instant
deriving DecidableEq

structure BgpEventRow where
  network : String
  status : String
  lastSeen : Instant
deriving DecidableEq

structure IntelDb where
  indicators : Table IndicatorRow.key
  resolutions : Table Resolution.pseudonym
  contexts : Table NetworkContext.pseudonym
  bgpEvents : List BgpEventRow

/-- The unexpired resolution of a source to a single host. -/
def resolve (db : IntelDb) (now : Instant) (pseudonym : String) : Option Resolution :=
  (db.resolutions.get? pseudonym).filter (fun r =>
    now < r.expiresAt && r.rawIp.prefixLen = r.rawIp.addr.width)

/-- An indicator of the ASN list that names one of the origins. -/
def asnRowMatches (now : Instant) (originAsns : List Nat) (row : IndicatorRow) : Bool :=
  row.indicatorType = .asn && originAsns.any (fun asn => row.value = "AS" ++ toString asn) &&
    reputational now row

/-- `'^[0-9a-fA-F:.]{2,45}/[0-9]{1,3}$'`. -/
def looksLikePrefix (value : String) : Bool :=
  match Text.splitOnce '/' value.toList with
  | none => false
  | some (address, length) =>
    2 ≤ address.length && address.length ≤ 45 &&
      address.all (fun c => isDigitOf 16 c || c = ':' || c = '.') &&
      1 ≤ length.length && length.length ≤ 3 && length.all (isDigitOf 10)

/-- Whether a BGP event is an anomaly of the last day around the address. -/
def anomalyMatches (now : Instant) (addr : IpAddr) (event : BgpEventRow) :
    Except SqlError Bool :=
  if event.status.toLower = "anomalous" && now < event.lastSeen + seconds (24 * 3600) &&
      looksLikePrefix event.network then
    match pg.cidr event.network with
    | none => .error (.invalidCidr event.network)
    | some n => .ok (n.contains addr && specific n)
  else .ok false

def bgpAnomaly (db : IntelDb) (now : Instant) (addr : IpAddr) : Except SqlError Bool :=
  (filterE (anomalyMatches pg now addr) db.bgpEvents).map (fun events => events ≠ [])

/-- `ListingHit`. -/
structure ListingHit where
  source : String
  confidence : Nat
  lastSeen : Instant
deriving DecidableEq

structure AsnListingHit where
  asn : Nat
  hit : ListingHit
deriving DecidableEq

structure RoutingContext where
  network : Option IpNet
  originAsns : List Nat
  rpki : String
  fetchedAt : Instant
deriving DecidableEq

/-- `SourceIntel`. -/
structure SourceIntel where
  resolved : Bool
  ip : Option ListingHit
  asn : Option AsnListingHit
  context : Option RoutingContext
  bgpAnomaly : Bool
deriving DecidableEq

/-- The view of a source without a resolution. -/
def unresolved : SourceIntel := ⟨false, none, none, none, false⟩

/-- The ASN listing of a source whose origins are `originAsns`. -/
def asnListing (db : IntelDb) (now : Instant) (originAsns : List Nat) :
    Option AsnListingHit :=
  (pg.top (db.indicators.rows.filter (asnRowMatches now originAsns))).bind (fun row =>
    (originAsns.find? (fun asn => row.value = "AS" ++ toString asn)).map (fun asn =>
      ⟨asn, ⟨row.source, row.confidence, row.lastSeen⟩⟩))

/-- `clawforge_current_source_intel`, read by `current_source_intel`. -/
def currentSourceIntel (db : IntelDb) (now : Instant) (pseudonym : String) :
    Except SqlError SourceIntel :=
  match resolve db now pseudonym with
  | none => .ok unresolved
  | some r => do
      let ipHit ← ipReputation pg db.indicators now r.rawIp.addr
      let context := (db.contexts.get? pseudonym).filter (fun c =>
        c.status = "ok" && now < c.expiresAt)
      let asnHit := asnListing pg db now ((context.map NetworkContext.originAsns).getD [])
      let anomaly ← if context.isSome then bgpAnomaly pg db now r.rawIp.addr else .ok false
      return {
        resolved := true
        ip := ipHit.map (fun hit => ⟨hit.source, hit.confidence, hit.lastSeen⟩)
        asn := asnHit
        context := context.map (fun c => ⟨c.network, c.originAsns, c.rpki, c.fetchedAt⟩)
        bgpAnomaly := anomaly }

end Functions

end Clawforge.Reputation

import Mathlib.Data.List.Sort
import Clawforge.Net.IpAddr
import Clawforge.Values

/-!
# Threat feeds

The HTTP feed providers: what `validate` accepts and the indicators `normalize` makes
of a feed, for JSON feeds, text feeds and the ASN list. All indicators of a feed carry
the provider's id as their source and only category, and its confidence.
-/

namespace Clawforge.Intelligence

open Clawforge.Net

/-! ## Records -/

inductive IndicatorType
  | ip | ipPrefix | domain | url | hash | asn
deriving DecidableEq

structure Indicator where
  value : String
  indicatorType : IndicatorType
  categories : List String
  confidence : Nat
  source : String
  firstSeen : Instant
  lastSeen : Instant
  expiresAt : Instant
  metadata : Json
deriving DecidableEq

inductive FeedFormat
  | json | text | asnJsonLines
deriving DecidableEq

/-- `HttpFeedProvider`, as far as a fetched feed is concerned. -/
structure HttpFeedProvider where
  id : String
  confidence : Nat
  format : FeedFormat
deriving DecidableEq

structure RawFeed where
  body : ByteArray
  contentType : Option String
  fetchedAt : Instant

inductive ProviderError
  | request (text : String)
  | httpStatus (status : Nat)
  | rateLimited (retryAfter : String)
  | timeout
  | connection (text : String)
  | emptyResponse
  | validation (text : String)
  | configuration (text : String)
deriving DecidableEq

/-- What the normalizers use of other crates: the JSON reader, the text of a UTF-8
error, and `ipnet`'s `FromStr`. -/
structure Env where
  fromSlice : ByteArray → Except String Json
  fromStr : String → Except String Json
  utf8Error : ByteArray → String
  parseIpNet : String → Option IpNet

/-! ## Classifying a value -/

def isAsciiHexdigit (c : Char) : Bool := Kit.isDigitOf 16 c

/-- `is_asn`. -/
def isAsn (value : String) : Bool :=
  match Text.trim value.toList with
  | a :: s :: number =>
    a.toLower = 'a' && s.toLower = 's' && number ≠ [] && number.all (Kit.isDigitOf 10)
  | _ => false

def isIpAddr (value : String) : Bool := (parseIpAddr value.toList).isSome

section Normalize

variable (env : Env)

def classify (value : String) : Option IndicatorType :=
  if isIpAddr value then some .ip
  else if (env.parseIpNet value).isSome then some .ipPrefix
  else if isAsn value then some .asn
  else if Text.startsWith value "http://" || Text.startsWith value "https://" then some .url
  else if (value.utf8ByteSize = 32 || value.utf8ByteSize = 40 || value.utf8ByteSize = 64) &&
      value.toList.all isAsciiHexdigit then some .hash
  else none

variable (p : HttpFeedProvider)

def makeIndicator (value : String) (indicatorType : IndicatorType) (seen : Instant)
    (contentType : Option String) : Indicator where
  value := value
  indicatorType := indicatorType
  categories := [p.id]
  confidence := p.confidence
  source := p.id
  firstSeen := seen
  lastSeen := seen
  expiresAt := seen + seconds (24 * 3600)
  metadata := Json.ofFields
    [("content_type", (contentType.map Json.string).getD .null), ("provider", .string p.id)]

/-- The items from the one kept last: an item equal to it is dropped. -/
def dedupFrom (same : Indicator → Indicator → Bool) (kept : Indicator) :
    List Indicator → List Indicator
  | [] => [kept]
  | x :: rest => if same x kept then dedupFrom same kept rest else kept :: dedupFrom same x rest

/-- `dedup_by`. -/
def dedupBy (same : Indicator → Indicator → Bool) : List Indicator → List Indicator
  | [] => []
  | x :: rest => dedupFrom same x rest

def deduplicate (indicators : List Indicator) : List Indicator :=
  dedupBy (fun left right => left.value = right.value && left.source = right.source)
    (indicators.insertionSort (fun left right => left.value ≤ right.value))

/-- `std::str::from_utf8`, with the error the callers make of its failure. -/
def decodeText (body : ByteArray) : Except ProviderError String :=
  match String.fromUTF8? body with
  | some text => .ok text
  | none => .error (.validation ("invalid text encoding: " ++ env.utf8Error body))

/-! ## Text feeds -/

/-- The part of a line before `#` and `;`, and of that the first word. -/
def firstWord (line : List Char) : List Char :=
  let uncommented := ((line.splitOn '#').headD []).splitOn ';' |>.headD []
  ((Text.splitWhitespace (Text.trim uncommented)).head?).getD []

/-- `trim_matches` of both quotes. -/
def trimQuotes (cs : List Char) : List Char :=
  let quote (c : Char) : Bool := c = '"' || c = '\''
  ((cs.dropWhile quote).reverse.dropWhile quote).reverse

/-- The indicator of a line of a text feed. -/
def lineIndicator (feed : RawFeed) (line : List Char) : Option Indicator :=
  let value := String.ofList (trimQuotes (firstWord line))
  let indicatorType := (classify env value).or
    ((env.parseIpNet value).map (fun _ => .ipPrefix))
  indicatorType.map (fun t => makeIndicator p value t feed.fetchedAt feed.contentType)

def normalizeText (feed : RawFeed) : Except ProviderError (List Indicator) := do
  let text ← decodeText env feed.body
  return deduplicate ((Text.lines text.toList).filterMap (lineIndicator env p feed))

/-! ## JSON feeds -/

/-- `value["data"]`, `value["urls"]` or the value itself, whichever is an array. -/
def jsonRows (value : Json) : List Json :=
  (((value.get "data").bind Json.asArray).or
    (((value.get "urls").bind Json.asArray).or value.asArray)).getD []

/-- A ThreatFox `ip:port` value without its port, if the rest is an address. -/
def stripPort (raw : String) : String :=
  match Text.splitOnce ':' raw.toList.reverse with
  | some (_, reversed) =>
    let ip := String.ofList reversed.reverse
    if isIpAddr ip then ip else raw
  | none => raw

/-- The values of one row that become indicators. -/
def rowCandidates (row : Json) : List (String × IndicatorType) :=
  if p.id = "threatfox" then
    match (row.get "ioc").bind Json.asStr with
    | none => []
    | some raw =>
      let iocType := ((row.get "ioc_type").bind Json.asStr).getD ""
      let value := if iocType = "ip:port" then stripPort raw else raw
      let indicatorType :=
        if Text.startsWith iocType "ip" then .ip
        else if Text.startsWith iocType "domain" then .domain
        else if Text.startsWith iocType "url" then .url
        else (classify env value).getD .hash
      [(value, indicatorType)]
  else if p.id = "urlhaus" then
    (((row.get "url").bind Json.asStr).map (fun value => (value, .url))).toList
  else if p.id = "feodo_tracker" then
    (((row.get "ip_address").bind Json.asStr).map (fun value => (value, .ip))).toList
  else if p.id = "malwarebazaar" then
    ["sha256_hash", "sha1_hash", "md5_hash"].filterMap (fun key =>
      ((row.get key).bind Json.asStr).map (fun value => (value, .hash)))
  else []

/-- A candidate is trimmed; an empty or an overlong one is passed over. -/
def candidateIndicator (feed : RawFeed) (candidate : String × IndicatorType) :
    Option Indicator :=
  let value := String.ofList (Text.trim candidate.1.toList)
  if value.isEmpty || value.utf8ByteSize > 2048 then none
  else some (makeIndicator p value candidate.2 feed.fetchedAt feed.contentType)

def parseFeed (body : ByteArray) : Except ProviderError Json :=
  match env.fromSlice body with
  | .ok value => .ok value
  | .error text => .error (.validation ("invalid JSON: " ++ text))

def normalizeJson (feed : RawFeed) : Except ProviderError (List Indicator) := do
  let value ← parseFeed env feed.body
  return deduplicate (((jsonRows value).flatMap (rowCandidates env p)).filterMap
    (candidateIndicator p feed))

/-! ## The ASN list -/

/-- `is_asn_feed_metadata`. -/
def isAsnFeedMetadata (row : Json) : Bool :=
  (row.get "asn").isNone && (row.get "type").bind Json.asStr = some "metadata" &&
    ["timestamp", "size", "records"].all (fun key => ((row.get key).bind Json.asU64).isSome) &&
    ["copyright", "terms"].all (fun key => ((row.get key).bind Json.asStr).isSome)

/-- The ASN of one line; none for the metadata line. -/
def asnOfLine (line : List Char) : Except ProviderError (Option Nat) :=
  match env.fromStr (String.ofList line) with
  | .error text => .error (.validation ("invalid ASN JSON line: " ++ text))
  | .ok row =>
    if isAsnFeedMetadata row then .ok none
    else
      match (row.get "asn").bind Json.asU64 with
      | some asn => .ok (some asn)
      | none => .error (.validation "ASN JSON line has no numeric asn")

/-- The ASNs of all lines that are not blank. -/
def asnLines (text : String) : Except ProviderError (List Nat) := do
  let rows ← ((Text.lines text.toList).filter (fun line => Text.trim line ≠ [])).mapM
    (asnOfLine env)
  let asns := rows.filterMap id
  if asns = [] then .error (.validation "ASN feed contains no records") else return asns

def normalizeAsnJsonLines (feed : RawFeed) : Except ProviderError (List Indicator) := do
  let text ← decodeText env feed.body
  let asns ← asnLines env text
  return deduplicate (asns.map (fun asn =>
    makeIndicator p ("AS" ++ toString asn) .asn feed.fetchedAt feed.contentType))

def normalize (feed : RawFeed) : Except ProviderError (List Indicator) :=
  match p.format with
  | .json => normalizeJson env p feed
  | .asnJsonLines => normalizeAsnJsonLines env p feed
  | .text => normalizeText env p feed

/-! ## Validation -/

/-- A text feed has a network in some line, or says that it was merged. -/
def validText (text : String) : Bool :=
  (Text.lines text.toList).any
      (fun line => (env.parseIpNet (String.ofList (firstWord line))).isSome) ||
    Text.contains "merged into".toList (Text.toAsciiLowercase text.toList)

def validate (feed : RawFeed) : Except ProviderError Unit := do
  if feed.body.isEmpty then throw .emptyResponse
  if feed.body.size > 50 * 1024 * 1024 then throw (.validation "response exceeds 50 MiB")
  match p.format with
  | .json =>
    let value ← parseFeed env feed.body
    match (value.get "query_status").bind Json.asStr with
    | some status =>
      if status ≠ "ok" ∧ status ≠ "no_result" ∧ status ≠ "no_results" then
        throw (.validation ("provider API error: " ++ status))
    | none => pure ()
    if (value.get "error").any (fun error => error ≠ .null) then
      throw (.validation "provider API returned an error")
  | .text =>
    let text ← decodeText env feed.body
    if !validText env text then
      throw (.validation "text feed contains no network prefixes")
  | .asnJsonLines =>
    let text ← decodeText env feed.body
    let _ ← asnLines env text

end Normalize

end Clawforge.Intelligence

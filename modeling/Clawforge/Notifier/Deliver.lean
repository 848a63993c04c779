import Clawforge.Net.IpAddr
import Clawforge.Values
import Mathlib.Data.List.DropRight

/-!
# Notification delivery

`clawforge-notifier`: `deliver`, with the addresses it accepts and the connections it opens.
DNS, the URL and mailbox parsers, the secret files and the HTTP and SMTP exchanges are
parameters; what goes over a connection is left out.
-/

/-! ## Notification destinations

`clawforge-notification`: the allowlist of hosts, the validation of a channel's target and
configuration, and the addresses that count as public. `Url::parse` is a parameter.
-/

namespace Clawforge.Notifier

open Kit Net

def webhookSecretId : String := "webhook_auth"
def matrixSecretId : String := "matrix_auth"
def smtpSecretId : String := "smtp_password"

/-- What is read of a `url::Url`. -/
structure Url where
  scheme : String
  username : String
  password : Option String
  query : Option String
  fragment : Option String
  hostStr : Option String
  portOrKnownDefault : Option Nat
deriving DecidableEq, Repr

inductive ValidatedChannel
  | web (url : Url) (host : String) (port : Nat)
  | smtp (host : String) (port : Nat)
deriving DecidableEq, Repr

/-! ## Hosts -/

/-- A label that `normalized_host` refuses. -/
def badLabel (label : List Char) : Bool :=
  label.isEmpty || 63 < (String.ofList label).utf8ByteSize || label.head? == some '-' || label.getLast? == some '-' ||
    !label.all (fun c => c.isAlphanum || c == '-')

/-- What `normalized_host` refuses of a trimmed, lower-case host. -/
def badHost (host : List Char) : Bool :=
  host.isEmpty || 253 < (String.ofList host).utf8ByteSize ||
    host.any (fun c => ['/', '\\', '@', ':', '\r', '\n'].contains c) ||
    (host.splitOn '.').any badLabel

/-- `normalized_host`. -/
def normalizedHost (host : String) : Except String String :=
  let host := Text.toAsciiLowercase ((Text.trim host.toList).rdropWhile (· == '.'))
  if badHost host then .error "invalid notification host" else .ok (String.ofList host)

/-- `require_allowed_dns_host`. -/
def requireAllowedDnsHost (host : String) (allowed : List String) : Except String Unit :=
  if (parseIpAddr host.toList).isSome then
    .error "literal IP notification targets are forbidden"
  else if !allowed.contains host then .error "notification host is not allowlisted"
  else .ok ()

/-! ## Channels -/

/-- `validate_secret_binding`. -/
def validateSecretBinding (channelType : String) (secretRef : Option String) : Except String Unit :=
  match secretRef with
  | none => .ok ()
  | some reference =>
    match channelType with
    | "webhook" => bound webhookSecretId reference
    | "matrix" => bound matrixSecretId reference
    | "smtp" => bound smtpSecretId reference
    | _ => .error "unsupported notification channel"
where
  bound (expected reference : String) : Except String Unit :=
    if reference ≠ expected then .error "notification secret is not bound to this channel type"
    else .ok ()

/-- `validate_web_target`. -/
def validateWebTarget (parseUrl : String → Option Url) (target : String) (config : Json)
    (allowed : List String) : Except String ValidatedChannel :=
  if config ≠ .object [] then .error "webhook and matrix channel configuration must be empty"
  else
    match parseUrl target with
    | none => .error "invalid notification URL"
    | some url =>
      if url.scheme ≠ "https" ∨ url.username ≠ "" ∨ url.password.isSome ∨ url.query.isSome ∨
          url.fragment.isSome then
        .error "notification URL must be credential-free HTTPS"
      else
        match url.hostStr with
        | none => .error "URL host missing"
        | some hostStr => do
            let host ← normalizedHost hostStr
            requireAllowedDnsHost host allowed
            let port := url.portOrKnownDefault.getD 443
            if port ≠ 443 then .error "notification HTTPS target must use port 443"
            else .ok (.web url host port)

/-- An address with an `@` that is neither its first nor its last character. -/
def hasInnerAt (text : String) : Bool :=
  text.toList.contains '@' && text.toList.head? != some '@' && text.toList.getLast? != some '@'

def hasLineBreak (text : String) : Bool := text.toList.any (fun c => c == '\r' || c == '\n')

/-- The value of an SMTP setting is a short text of one line. -/
def checkSmtpValue (value : Json) : Except String Unit :=
  match value.asStr with
  | none => .error "SMTP configuration values must be strings"
  | some text =>
    if 320 < text.utf8ByteSize || hasLineBreak text then
      .error "invalid SMTP configuration value"
    else .ok ()

/-- A field that an SMTP configuration may not have. -/
def badSmtpField (name : String) : Bool :=
  !(["host", "username", "from"].contains name) ||
    ["secret", "password", "token", "api_key"].contains
      (String.ofList (Text.toAsciiLowercase name.toList))

/-- `validate_smtp_target`. -/
def validateSmtpTarget (target : String) (config : Json) (allowed : List String) :
    Except String ValidatedChannel :=
  if 320 < target.utf8ByteSize ∨ hasLineBreak target ∨ ¬ hasInnerAt target then
    .error "invalid SMTP recipient"
  else
    match config with
    | .object fields =>
      if fields.any (fun f => badSmtpField f.1) then
        .error "SMTP configuration contains an unsupported field"
      else do
        fields.forM (fun f => checkSmtpValue f.2)
        let hostText ← stringField "SMTP host missing" "host"
        let host ← normalizedHost hostText
        requireAllowedDnsHost host allowed
        let sender ← stringField "SMTP sender missing" "from"
        if ¬ hasInnerAt sender then .error "invalid SMTP sender" else .ok (.smtp host 465)
    | _ => .error "SMTP configuration must be an object"
where
  stringField (missing name : String) : Except String String :=
    match (config.get name).bind Json.asStr with
    | none => .error missing
    | some text => .ok text

/-- `validate_channel`. -/
def validateChannel (parseUrl : String → Option Url) (channelType target : String)
    (secretRef : Option String) (config : Json) (allowed : List String) :
    Except String ValidatedChannel := do
  validateSecretBinding channelType secretRef
  match channelType with
  | "webhook" | "matrix" => validateWebTarget parseUrl target config allowed
  | "smtp" => validateSmtpTarget target config allowed
  | _ => throw "unsupported notification channel"

/-! ## Addresses -/

/-- `Ipv4Addr::is_documentation`. -/
def isDocumentationV4 (os : List Nat) : Bool :=
  os.take 3 == [192, 0, 2] || os.take 3 == [198, 51, 100] || os.take 3 == [203, 0, 113]

/-- `is_public_destination` of an IPv4 address. -/
def isPublicV4 (address : BitVec 32) : Bool :=
  let os := octets address
  let first := os.headD 0
  let second := (os.drop 1).headD 0
  let specialUse := first == 0 || first == 10 || first == 127 ||
    (first == 100 && 64 ≤ second && second ≤ 127) || (first == 169 && second == 254) ||
    (first == 172 && 16 ≤ second && second ≤ 31) || (first == 192 && second == 0) ||
    (first == 192 && second == 168) || (first == 198 && 18 ≤ second && second ≤ 19) || 224 ≤ first
  !(specialUse || isDocumentationV4 os)

/-- `Ipv6Addr::octets`. -/
def octetsV6 (address : BitVec 128) : List Nat := toBigEndian 256 16 address.toNat

/-- `is_public_destination` of an IPv6 address that is not a mapped one. -/
def isPublicV6 (address : BitVec 128) : Bool :=
  let os := octetsV6 address
  let first := os.headD 0
  let second := (os.drop 1).headD 0
  let third := (os.drop 2).headD 0
  let loopback := address == 1#128
  let unspecified := address == 0#128
  let multicast := first == 0xff
  let ipv4Compatible := os.take 12 == List.replicate 12 0
  let wellKnownNat64 := os.take 12 == [0x00, 0x64, 0xff, 0x9b, 0, 0, 0, 0, 0, 0, 0, 0]
  let localNat64 := os.take 6 == [0x00, 0x64, 0xff, 0x9b, 0x00, 0x01]
  let discardOnly := os.take 8 == [0x01, 0x00, 0, 0, 0, 0, 0, 0]
  let ietfProtocolAssignments := first == 0x20 && second == 0x01 && third ≤ 0x01
  let sixToFour := first == 0x20 && second == 0x02
  let documentation := os.take 4 == [0x20, 0x01, 0x0d, 0xb8]
  let uniqueLocal := first &&& 0xfe == 0xfc
  let linkLocal := first == 0xfe && second &&& 0xc0 == 0x80
  !(loopback || unspecified || multicast || ipv4Compatible || wellKnownNat64 || localNat64 ||
    discardOnly || ietfProtocolAssignments || sixToFour || documentation || uniqueLocal || linkLocal)

/-- `is_public_destination`. -/
def isPublicDestination : IpAddr → Bool
  | .v4 address => isPublicV4 address
  | .v6 address =>
    match toIpv4Mapped address with
    | some mapped => isPublicV4 mapped
    | none => isPublicV6 address

end Clawforge.Notifier

namespace Clawforge.Notifier

open Net

/-- What is read of an `Event`. -/
structure Event where
  target : String
  channelType : String
  secretRef : Option String
  config : Json

/-- The addresses a client tries to connect to, of the ones that its resolver gave it. -/
structure Connector where
  dial : List IpAddr → List IpAddr
  dial_sub : ∀ addresses, dial addresses ⊆ addresses

/-- A response's status and its text. -/
structure Response where
  status : Nat
  text : String

/-- What one delivery meets outside the notifier. -/
structure Outside where
  /-- Each lookup of the delivery has its own answer; `none` is a failed one. -/
  dns : Nat → String → Option (List IpAddr)
  connector : Connector
  parseUrl : String → Option Url
  parseMailbox : String → Bool
  loadOptional : String → String → Except String (Option String)
  clientBuilds : Bool
  /-- What the client makes of the request, after whatever connections it opened. -/
  response : Except String Response
  /-- The message is put together from its parts. -/
  messageBody : Except String Unit
  /-- `AsyncSmtpTransport::relay`. -/
  relay : String → Except String Unit
  sent : Except String Unit

/-- A connection for a host's name, to an address. -/
structure Connection where
  host : String
  address : IpAddr
deriving DecidableEq, Repr

/-- One delivery: the addresses `is_public_destination` accepted in it, the connections it
opened, and how it ended. -/
structure Delivery where
  accepted : List IpAddr := []
  opened : List Connection := []
  result : Except String Unit

/-! ## Secrets -/

/-- `secret_value`. -/
def secretValue (loadOptional : String → String → Except String (Option String))
    (channelType : String) (reference : Option String) : Except String (Option String) :=
  match reference with
  | none => .ok none
  | some reference =>
    match channelType with
    | "webhook" => load webhookSecretId "CLAWFORGE_NOTIFIER_WEBHOOK_SECRET_FILE"
        "CLAWFORGE_NOTIFIER_WEBHOOK_SECRET" reference
    | "matrix" => load matrixSecretId "CLAWFORGE_NOTIFIER_MATRIX_SECRET_FILE"
        "CLAWFORGE_NOTIFIER_MATRIX_SECRET" reference
    | "smtp" => load smtpSecretId "CLAWFORGE_NOTIFIER_SMTP_SECRET_FILE"
        "CLAWFORGE_NOTIFIER_SMTP_SECRET" reference
    | _ => .error "unsupported notification channel"
where
  load (expected fileKey valueKey reference : String) : Except String (Option String) :=
    if reference ≠ expected then .error "notification secret is not bound to this channel type"
    else loadOptional fileKey valueKey

/-! ## Lookups -/

/-- `resolve_public`. -/
def resolvePublic (answer : Option (List IpAddr)) : Except String (List IpAddr) :=
  match answer with
  | none => .error "notification host lookup failed"
  | some addresses =>
    if addresses.isEmpty || addresses.any (fun a => !isPublicDestination a) then
      .error "notification host resolved to a forbidden address"
    else .ok addresses

/-- The addresses of an answer that `resolve_public` accepts: its `any` stops at the first
one that is not public. -/
def acceptedOf (answer : Option (List IpAddr)) : List IpAddr :=
  (answer.getD []).takeWhile isPublicDestination

/-- The addresses that a client with `resolve_to_addrs(pinned, addresses)` has for a host. -/
def candidates (pinned : String) (addresses : List IpAddr) (lookup : Option (List IpAddr))
    (host : String) : List IpAddr :=
  if host = pinned then addresses else lookup.getD []

/-- The connections that a connector opens for a host. -/
def connections (connector : Connector) (host : String) (addresses : List IpAddr) :
    List Connection :=
  (connector.dial addresses).map (fun a => { host := host, address := a })

/-! ## The channels -/

/-- `deliver_webhook`, and the same for a Matrix room, with the client of `web_client`. -/
def deliverWeb (o : Outside) (failure : String) (url : Url) (host : String) : Delivery :=
  let accepted := acceptedOf (o.dns 0 host)
  match resolvePublic (o.dns 0 host) with
  | .error e => { accepted := accepted, result := .error e }
  | .ok addresses =>
    if o.clientBuilds then
      let urlHost := url.hostStr.getD ""
      { accepted := accepted
        opened := connections o.connector urlHost
          (candidates host addresses (o.dns 1 urlHost) urlHost)
        result := do
          let response ← o.response
          if 200 ≤ response.status ∧ response.status < 300 then pure ()
          else throw (failure ++ response.text) }
    else { accepted := accepted, result := .error "build pinned notification client" }

/-- `build_smtp_message`. -/
def buildSmtpMessage (o : Outside) (event : Event) : Except String Unit := do
  let some sender := (event.config.get "from").bind Json.asStr | throw "smtp config.from missing"
  if !o.parseMailbox event.target then throw "invalid SMTP recipient"
  if !o.parseMailbox sender then throw "invalid SMTP sender"
  o.messageBody

/-- `deliver_smtp`, whose transport looks its host up itself. -/
def deliverSmtp (o : Outside) (event : Event) (host : String) : Delivery :=
  let accepted := acceptedOf (o.dns 0 host)
  match resolvePublic (o.dns 0 host) with
  | .error e => { accepted := accepted, result := .error e }
  | .ok _ =>
    match buildSmtpMessage o event with
    | .error e => { accepted := accepted, result := .error e }
    | .ok () =>
      match o.relay host with
      | .error e => { accepted := accepted, result := .error e }
      | .ok () =>
        { accepted := accepted
          opened := connections o.connector host ((o.dns 1 host).getD [])
          result := o.sent }

/-- `deliver`. -/
def deliver (o : Outside) (allowed : List String) (event : Event) : Delivery :=
  match validateChannel o.parseUrl event.channelType event.target event.secretRef event.config
      allowed with
  | .error e => { result := .error e }
  | .ok destination =>
    match secretValue o.loadOptional event.channelType event.secretRef with
    | .error e => { result := .error e }
    | .ok _ =>
      match event.channelType, destination with
      | "webhook", .web url host _ => deliverWeb o "webhook returned " url host
      | "matrix", .web url host _ => deliverWeb o "Matrix webhook returned " url host
      | "smtp", .smtp host _ => deliverSmtp o event host
      | _, _ => { result := .error "notification channel validation mismatch" }

end Clawforge.Notifier

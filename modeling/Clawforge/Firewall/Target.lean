import Clawforge.Net.IpAddr
import Clawforge.Values

/-!
# Firewall targets

`firewall-agent`: what an action applies to, how its text is parsed and
normalised, the references rendered from it, the never-block list, and the
structural membership test on an `nft -j list set` answer.
-/

namespace Clawforge.Firewall

open Clawforge.Net Clawforge.Text Kit Option

inductive AdapterError
  | invalidTarget (message : String)
  | preflight (message : String)
  | apply (message : String)
  | verify (message : String)
  | rollback (message : String)
deriving DecidableEq, Repr

/-- The `thiserror` text. -/
def AdapterError.text : AdapterError → String
  | .invalidTarget m => "invalid target: " ++ m
  | .preflight m => "preflight failed: " ++ m
  | .apply m => "apply failed: " ++ m
  | .verify m => "verify failed: " ++ m
  | .rollback m => "rollback failed: " ++ m

inductive FirewallTarget
  | threatIntelIndicator (cidr source : String)
  | incidentSource (pseudonym : String)
  | resolvedIncidentSource (rawIp pseudonym : String)
deriving DecidableEq, Repr

/-! ## Addresses -/

/-- `normalize_address`. -/
def normalizeAddress : IpAddr → IpAddr
  | .v4 a => .v4 a
  | .v6 a =>
    match toIpv4Mapped a with
    | some ipv4 => .v4 ipv4
    | none => .v6 a

/-- `full_prefix`. -/
def fullPrefix (addr : IpAddr) : Nat := if addr.isIpv4 then 32 else 128

/-- `parse_ip_or_cidr`. -/
def parseIpOrCidr (value : String) : Option (IpAddr × Option Nat) :=
  match splitOnce '/' value.toList with
  | some (addr, prefixText) => do
      let addr := normalizeAddress (← parseIpAddr addr)
      let prefixLen ← parseU8 prefixText
      -- `max_prefix`
      if fullPrefix addr < prefixLen then none else some (addr, some prefixLen)
  | none => do
      let addr := normalizeAddress (← parseIpAddr value.toList)
      some (addr, none)

/-- The prefix length in force: a bare address is a host. -/
def prefixOr (addr : IpAddr) (prefixLen : Option Nat) : Nat :=
  prefixLen.getD (fullPrefix addr)

/-- `addr.to_string()`, or `format!("{addr}/{p}")`. -/
def elementText (addr : IpAddr) : Option Nat → String
  | some p => String.ofList (displayIpAddr addr ++ '/' :: Nat.toDigits 10 p)
  | none => String.ofList (displayIpAddr addr)

/-! ## Validation -/

/-- `validate_pseudonym`. -/
def validatePseudonym (pseudonym : String) : Except AdapterError Unit :=
  if !"ip-pseudonym:".toList.isPrefixOf pseudonym.toList ||
      pseudonym.utf8ByteSize ≤ "ip-pseudonym:".utf8ByteSize then
    .error (.invalidTarget (debug pseudonym ++ " is not a recognized pseudonymized resource"))
  else .ok ()

/-- `FirewallTarget::validate`. -/
def FirewallTarget.validate : FirewallTarget → Except AdapterError Unit
  | .threatIntelIndicator cidr source =>
    if trim source.toList = [] then
      .error (.invalidTarget "threat-intel indicator source must not be empty")
    else if (parseIpOrCidr cidr).isNone then
      .error (.invalidTarget (debug cidr ++ " is not a valid IP or CIDR"))
    else .ok ()
  | .incidentSource pseudonym => validatePseudonym pseudonym
  | .resolvedIncidentSource rawIp pseudonym => do
      validatePseudonym pseudonym
      if (parseIpOrCidr rawIp).isNone then
        .error (.invalidTarget (debug rawIp ++ " is not a valid IP"))
      else .ok ()

/-- A string field of an object, or the error for its absence. -/
def requireStr (value : Json) (key message : String) : Except AdapterError String :=
  match (value.get key).bind Json.asStr with
  | some s => .ok s
  | none => .error (.invalidTarget message)

/-- `FirewallTarget::try_from(&Value)`; never a resolved incident source. -/
def FirewallTarget.tryFrom (value : Json) : Except AdapterError FirewallTarget := do
  let kind ← requireStr value "kind" "target is missing its \"kind\" field"
  if kind = "threat_intel_indicator" then do
    let cidr ← requireStr value "cidr" "target.cidr is missing"
    let source ← requireStr value "source" "target.source is missing"
    let target := FirewallTarget.threatIntelIndicator cidr source
    target.validate
    .ok target
  else if kind = "incident_source" then do
    let pseudonym ← requireStr value "pseudonym" "target.pseudonym is missing"
    let target := FirewallTarget.incidentSource pseudonym
    target.validate
    .ok target
  else .error (.invalidTarget ("unknown target kind " ++ debug kind))

/-! ## References -/

/-- `NFTABLES_BLOCKLIST_SET_V4`. -/
def blocklistSetV4 : String := "blocklist"

/-- `NFTABLES_BLOCKLIST_SET_V6`. -/
def blocklistSetV6 : String := "blocklist6"

/-- The address text of a target that has one. -/
def FirewallTarget.addressText : FirewallTarget → Option String
  | .threatIntelIndicator cidr _ => some cidr
  | .resolvedIncidentSource rawIp _ => some rawIp
  | .incidentSource _ => none

/-- `FirewallTarget::set_name`. -/
def FirewallTarget.setName (target : FirewallTarget) : Except AdapterError (Option String) :=
  match target.addressText with
  | none => .ok none
  | some text =>
    match parseIpOrCidr text with
    | none => .error (.invalidTarget "no address")
    | some (addr, _) =>
      .ok (some (if (normalizeAddress addr).isIpv4 then blocklistSetV4 else blocklistSetV6))

/-- `target_address`. -/
def targetAddress (target : FirewallTarget) : Except AdapterError (IpAddr × Option Nat) :=
  match target.addressText with
  | none => .error (.invalidTarget "an unresolved IncidentSource has no address")
  | some text =>
    match parseIpOrCidr text with
    | none => .error (.invalidTarget (debug text ++ " invalid"))
    | some parsed => .ok parsed

/-- The placeholder that stands for an address in anything persisted. -/
def placeholder (pseudonym : String) : String :=
  "<resolved-at-apply-time:" ++ pseudonym ++ ">"

/-- `element_reference`. -/
def elementReference (target : FirewallTarget) : Except AdapterError String :=
  match target with
  | .incidentSource pseudonym => .ok (placeholder pseudonym)
  | _ => do
      let (addr, prefixLen) ← targetAddress target
      .ok (elementText addr prefixLen)

/-- `redacted_element_reference`. -/
def redactedElementReference (target : FirewallTarget) : Except AdapterError String :=
  match target with
  | .resolvedIncidentSource _ pseudonym => .ok (placeholder pseudonym)
  | _ => elementReference target

/-- `require_resolved_target`. -/
def requireResolvedTarget : FirewallTarget → Except AdapterError Unit
  | .incidentSource _ =>
    .error (.invalidTarget ("an unresolved IncidentSource cannot be applied - resolve it to a " ++
      "ResolvedIncidentSource first"))
  | _ => .ok ()

/-! ## The never-block list -/

/-- `ranges_overlap`. -/
def rangesOverlap : IpAddr → Nat → IpAddr → Nat → Bool
  | .v4 a, p, .v4 b, q =>
    let mask := prefixMask 32 (min p q)
    (a &&& mask) == (b &&& mask)
  | .v6 a, p, .v6 b, q =>
    let mask := prefixMask 128 (min p q)
    (a &&& mask) == (b &&& mask)
  | _, _, _, _ => false

/-- `BUILTIN`. -/
def builtinExclusions : List String :=
  ["127.0.0.0/8", "::1/128", "169.254.0.0/16", "fe80::/10"]

/-- One entry of the list as the network it names. -/
def parseExclusion (entry : String) : Option (IpAddr × Nat) :=
  (parseIpOrCidr entry).map fun (addr, prefixLen) => (addr, prefixOr addr prefixLen)

/-- The entries of the configured list. -/
def configuredEntries (configured : Option String) : List String :=
  match configured with
  | some text => (trimmedPieces ',' text.toList).map String.ofList
  | none => []

/-- The configured entries in order, or the first malformed one. -/
def parseEntries : List String → Except String (List (IpAddr × Nat))
  | [] => .ok []
  | entry :: rest =>
    match parseExclusion entry with
    | none =>
      .error ("CLAWFORGE_FIREWALL_NEVER_BLOCK_CIDRS: " ++ debug entry ++
        " is not a valid IP or CIDR")
    | some net => (parseEntries rest).map (net :: ·)

/-- `never_block_list_from_configured`. The builtin entries all parse
(`builtin_parses`), so the source's panic on them is never reached. -/
def neverBlockListFromConfigured (configured : Option String) :
    Except String (List (IpAddr × Nat)) :=
  (parseEntries (configuredEntries configured)).map
    (builtinExclusions.filterMap parseExclusion ++ ·)

/-- The refusal of a target that overlaps an exclusion. -/
def overlapsExclusion : AdapterError :=
  .invalidTarget ("target overlaps a never-block exclusion (loopback/link-local or " ++
    "CLAWFORGE_FIREWALL_NEVER_BLOCK_CIDRS)")

/-- `check_never_block`. -/
def checkNeverBlock (neverBlock : Except String (List (IpAddr × Nat)))
    (target : FirewallTarget) : Except AdapterError Unit :=
  match neverBlock with
  | .error error =>
    .error (.invalidTarget ("never-block exclusion list is misconfigured, refusing every " ++
      "target until fixed: " ++ error))
  | .ok list =>
    match target with
    | .incidentSource _ => .ok ()
    | _ => do
        let (addr, prefixLen) ← targetAddress target
        if list.any fun net => rangesOverlap net.1 net.2 addr (prefixOr addr prefixLen) then
          .error overlapsExclusion
        else .ok ()

/-! ## Membership in a set listing -/

/-- `elements.iter().any(...)`: whether one element is the host or network itself. -/
def elementMatches (addr : IpAddr) (targetPrefix : Nat) (element : Json) : Bool :=
  -- an element with a timeout is wrapped as `elem.val`
  let value := ((element.get "elem").bind (·.get "val")).getD element
  match value with
  | .string s => targetPrefix == fullPrefix addr && parseIpAddr s.toList == some addr
  | .object _ =>
    match value.get "prefix" with
    | none => false
    | some prefixObj =>
      match (prefixObj.get "addr").bind Json.asStr, (prefixObj.get "len").bind Json.asU64 with
      | some a, some l => parseIpAddr a.toList == some addr && l == targetPrefix
      | _, _ => false
  | _ => false

/-- `set_contains_target`; `fromStr` is `serde_json::from_str`. -/
def setContainsTarget (fromStr : String → Option Json) (rawSetJson : String) (addr : IpAddr)
    (prefixLen : Option Nat) : Bool :=
  match fromStr rawSetJson with
  | none => false
  | some value =>
    match ((value.get "nftables").bind Json.asArray).bind fun entries =>
        entries.findSome? fun entry =>
          (entry.get "set").bind fun set => (set.get "elem").bind Json.asArray with
    | none => false
    | some elements => elements.any (elementMatches addr (prefixOr addr prefixLen))

/-! ## Recovery targets -/

/-- `RecoveryTarget`: the identity bound at apply time, persisted with its generation. -/
structure RecoveryTarget where
  scope : String
  target : FirewallTarget
deriving DecidableEq, Repr

/-- `RecoveryTarget::SCHEMA_VERSION`. -/
def recoverySchemaVersion : Nat := 1

/-- `RecoveryTarget::to_json`. -/
def RecoveryTarget.toJson (r : RecoveryTarget) : Json :=
  let variant : List (String × Json) := match r.target with
    | .threatIntelIndicator cidr source =>
      [("variant", .string "threat_intel_indicator"), ("cidr", .string cidr),
        ("source", .string source)]
    | .incidentSource pseudonym =>
      [("variant", .string "incident_source"), ("pseudonym", .string pseudonym)]
    | .resolvedIncidentSource rawIp pseudonym =>
      [("variant", .string "resolved_incident_source"), ("raw_ip", .string rawIp),
        ("pseudonym", .string pseudonym)]
  Json.ofFields ([("schema_version", .number (.int recoverySchemaVersion)),
    ("scope", .string r.scope)] ++ variant)

/-- The variant a record names, before validation. -/
def recoveredTarget (value : Json) : Option FirewallTarget := do
  let field := fun key => (value.get key).bind Json.asStr
  let variant ← field "variant"
  if variant = "threat_intel_indicator" then
    some (.threatIntelIndicator (← field "cidr") (← field "source"))
  else if variant = "incident_source" then
    some (.incidentSource (← field "pseudonym"))
  else if variant = "resolved_incident_source" then
    some (.resolvedIncidentSource (← field "raw_ip") (← field "pseudonym"))
  else none

/-- `RecoveryTarget::from_json`. -/
def RecoveryTarget.fromJson (value : Json) : Option RecoveryTarget := do
  let version ← (value.get "schema_version").bind Json.asU64
  if version ≠ recoverySchemaVersion then none
  else do
    let scope ← (value.get "scope").bind Json.asStr
    let target ← recoveredTarget value
    match target.validate with
    | .ok () => some ⟨scope, target⟩
    | .error _ => none

/-! ## Normal forms -/

theorem normalizeAddress_idem (a : IpAddr) :
    normalizeAddress (normalizeAddress a) = normalizeAddress a := by
  cases a with
  | v4 a => rfl
  | v6 a =>
    cases h : toIpv4Mapped a with
    | some | none => simp [normalizeAddress, h]

/-- What `parse_ip_or_cidr` accepts is normalised and its prefix fits the family. -/
theorem parseIpOrCidr_spec {value : String} {addr : IpAddr} {prefixLen : Option Nat}
    (h : parseIpOrCidr value = some (addr, prefixLen)) :
    normalizeAddress addr = addr ∧ prefixOr addr prefixLen ≤ fullPrefix addr := by
  unfold parseIpOrCidr at h
  split at h
  · next a p hsplit =>
    simp only [bind_eq_bind, bind_eq_some_iff] at h
    obtain ⟨raw, -, len, -, hlen⟩ := h
    split at hlen
    · cases hlen
    · next hle =>
      cases hlen
      exact ⟨normalizeAddress_idem raw, by simpa [prefixOr] using hle⟩
  · simp only [bind_eq_bind, bind_eq_some_iff] at h
    obtain ⟨raw, -, hraw⟩ := h
    cases hraw
    exact ⟨normalizeAddress_idem raw, Nat.le_refl _⟩

theorem targetAddress_of_parse {target : FirewallTarget} {text : String}
    {parsed : IpAddr × Option Nat} (htext : target.addressText = some text)
    (hparse : parseIpOrCidr text = some parsed) : targetAddress target = .ok parsed := by
  rw [targetAddress, htext]
  dsimp only
  rw [hparse]

/-- The text of an address has no slash. -/
theorem slash_not_mem_displayIpAddr (a : IpAddr) : '/' ∉ displayIpAddr a := by
  have hfields : ∀ sep radix ns, sep ≠ '/' → 1 < radix → radix ≤ 16 →
      '/' ∉ fmtSubslice sep radix ns := by
    intro sep radix ns hsep h1 hr
    have hdigits : ∀ n, '/' ∉ Nat.toDigits radix n := by
      intro n hmem
      have : isDigitOf radix '/' = true := isDigitOf_of_mem_toDigits h1 hr hmem
      simp [isDigitOf, digitValue] at this
    cases ns with
    | nil => simp [fmtSubslice]
    | cons n ns => simp [fmtSubslice, hdigits, Ne.symm hsep]
  have hdot := fun ns => hfields '.' 10 ns (by decide) (by decide) (by decide)
  have hcolon := fun ns => hfields ':' 16 ns (by decide) (by decide) (by decide)
  cases a with
  | v4 a => exact hdot (octets a)
  | v6 a =>
    simp only [displayIpAddr, displayIpv6]
    split
    · simp [displayIpv4, hdot]
    · split <;> simp [hcolon]

/-- A rendered element is parsed back to the address and prefix it was rendered from. -/
theorem parseIpOrCidr_elementText {addr : IpAddr} {prefixLen : Option Nat}
    (hnorm : normalizeAddress addr = addr) (hlen : prefixOr addr prefixLen ≤ fullPrefix addr) :
    parseIpOrCidr (elementText addr prefixLen) = some (addr, prefixLen) := by
  have hslash := slash_not_mem_displayIpAddr addr
  cases prefixLen with
  | none =>
    simp [parseIpOrCidr, elementText, splitOnce_of_not_mem hslash, parseIpAddr_displayIpAddr,
      hnorm]
  | some p =>
    have hle : p ≤ fullPrefix addr := hlen
    have hp : p < 256 := by
      unfold fullPrefix at hle
      split at hle <;> omega
    simp [parseIpOrCidr, elementText, splitOnce_append hslash, parseIpAddr_displayIpAddr,
      hnorm, parseU8_toDigits hp, Nat.not_lt.mpr hle]

theorem elementText_injective {a b : IpAddr} {p q : Option Nat}
    (ha : normalizeAddress a = a ∧ prefixOr a p ≤ fullPrefix a)
    (hb : normalizeAddress b = b ∧ prefixOr b q ≤ fullPrefix b)
    (h : elementText a p = elementText b q) : a = b ∧ p = q := by
  have hparse := parseIpOrCidr_elementText ha.1 ha.2
  rw [h, parseIpOrCidr_elementText hb.1 hb.2] at hparse
  cases hparse
  exact ⟨rfl, rfl⟩

end Clawforge.Firewall

/-! ## The blast radius shown to an approver

`blast_radius_hint` of the API: what the approval detail says of a target, from the text
of its `cidr` alone.
-/

namespace Clawforge.Firewall

open Text

/-- Whether the text of a `cidr` names a single address. -/
def isSingleAddress (cidr : String) : Bool :=
  match splitOnce '/' cidr.toList with
  | some (_, prefixText) => prefixText = "32".toList || prefixText = "128".toList
  | none => true

def optionalText : Option String → Json
  | some text => .string text
  | none => .null

/-- `blast_radius_hint`. -/
def blastRadiusHint (target : Json) : Json :=
  let kind := (target.get "kind").bind Json.asStr
  if kind = some "threat_intel_indicator" then
    let cidr := (target.get "cidr").bind Json.asStr
    .ofFields
      [ ("kind", .string "threat_intel_indicator"), ("cidr", optionalText cidr)
      , ("is_single_address", .bool ((cidr.map isSingleAddress).getD false)) ]
  else if kind = some "incident_source" then
    .ofFields
      [ ("kind", .string "incident_source")
      , ("note", .string
          ("resolves to exactly one source address at apply time, " ++
            "never a range - see FirewallTarget::IncidentSource")) ]
  else
    .ofFields [("kind", optionalText kind), ("note", .string "unrecognized target shape")]

end Clawforge.Firewall

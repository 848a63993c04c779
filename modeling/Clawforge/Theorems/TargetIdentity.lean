import Clawforge.Firewall.Denotation
import Clawforge.Storage.RuleIntents

/-!
# One identity for one set of addresses

Ownership, presence and receipts key on the element reference. Two texts that
denote one set of addresses get one identity exactly when they write the same
base address and both or neither write a prefix: host bits and the prefix of a
host stay in the reference.
-/

namespace Clawforge.Firewall

open Clawforge.Net Clawforge.RuleIntents

/-- Whether a listing holds the target, as `preflight` and `verify` ask it. -/
def listed (fromStr : String → Option Json) (rawSetJson : String) (target : FirewallTarget) :
    Except AdapterError Bool := do
  let (addr, prefixLen) ← targetAddress target
  .ok (setContainsTarget fromStr rawSetJson addr prefixLen)

/-- The two targets are one rule: one reference, found in the same listings, and owned by
the same generation. -/
structure OneIdentity (s t : FirewallTarget) : Prop where
  reference : elementReference s = elementReference t
  presence : ∀ fromStr rawSetJson, listed fromStr rawSetJson s = listed fromStr rawSetJson t
  owner : ∀ (L : Ledger) (adapter fs ft : String),
    elementReference s = .ok fs → elementReference t = .ok ft →
    activeFirewallRuleGenerationFor L adapter fs = activeFirewallRuleGenerationFor L adapter ft

/-- A target whose text `parse_ip_or_cidr` accepts. -/
structure Accepted (target : FirewallTarget) (addr : IpAddr) (prefixLen : Option Nat) :
    Prop where
  address : targetAddress target = .ok (addr, prefixLen)
  normal : normalizeAddress addr = addr
  fits : prefixOr addr prefixLen ≤ fullPrefix addr

theorem accepted_of_parse {target : FirewallTarget} {text : String} {addr : IpAddr}
    {prefixLen : Option Nat} (htext : target.addressText = some text)
    (hparse : parseIpOrCidr text = some (addr, prefixLen)) : Accepted target addr prefixLen := by
  obtain ⟨hnorm, hfits⟩ := parseIpOrCidr_spec hparse
  exact ⟨targetAddress_of_parse htext hparse, hnorm, hfits⟩

theorem Accepted.elementReference {target : FirewallTarget} {addr : IpAddr}
    {prefixLen : Option Nat} (h : Accepted target addr prefixLen) :
    elementReference target = .ok (elementText addr prefixLen) := by
  have haddr := h.address
  cases target with
  | incidentSource pseudonym => cases haddr
  | threatIntelIndicator | resolvedIncidentSource =>
    simp only [Firewall.elementReference, haddr]
    rfl

/-- The reference is faithful: it determines the parsed address and prefix. -/
theorem Accepted.reference_eq_iff {s t : FirewallTarget} {a b : IpAddr} {p q : Option Nat}
    (hs : Accepted s a p) (ht : Accepted t b q) :
    Firewall.elementReference s = Firewall.elementReference t ↔ a = b ∧ p = q := by
  rw [hs.elementReference, ht.elementReference]
  constructor
  · intro h
    exact elementText_injective ⟨hs.normal, hs.fits⟩ ⟨ht.normal, ht.fits⟩ (Except.ok.inj h)
  · rintro ⟨rfl, rfl⟩
    rfl

theorem Accepted.oneIdentity {s t : FirewallTarget} {a : IpAddr} {p : Option Nat}
    (hs : Accepted s a p) (ht : Accepted t a p) : OneIdentity s t where
  reference := by rw [hs.elementReference, ht.elementReference]
  presence := by
    intro fromStr rawSetJson
    rw [listed, hs.address, listed, ht.address]
  owner := by
    intro L adapter fs ft hfs hft
    rw [hs.elementReference] at hfs
    rw [ht.elementReference] at hft
    cases hfs
    cases hft
    rfl

/-- Two accepted spellings of one set of addresses are one rule exactly when they write the
same base address and both or neither write a prefix. -/
theorem one_identity_iff {s t : FirewallTarget} {sText tText : String} {a b : IpAddr}
    {p q : Option Nat} (hs : s.addressText = some sText) (ht : t.addressText = some tText)
    (hsParse : parseIpOrCidr sText = some (a, p)) (htParse : parseIpOrCidr tText = some (b, q))
    (hsame : denoted (a, prefixOr a p) = denoted (b, prefixOr b q)) :
    OneIdentity s t ↔ a = b ∧ (p.isSome ↔ q.isSome) := by
  have haccS := accepted_of_parse hs hsParse
  have haccT := accepted_of_parse ht htParse
  constructor
  · intro h
    obtain ⟨hab, hpq⟩ := (haccS.reference_eq_iff haccT).mp h.reference
    exact ⟨hab, by rw [hpq]⟩
  · rintro ⟨rfl, hboth⟩
    -- the shared set fixes the prefix length, so only its presence is left to compare
    have hlen : prefixOr a p = prefixOr a q :=
      prefix_eq_of_denoted_eq haccS.normal haccT.normal haccS.fits haccT.fits hsame
    have hpq : p = q := by
      cases p with
      | none =>
        cases q with
        | none => rfl
        | some q => simp at hboth
      | some p =>
        cases q with
        | none => simp at hboth
        | some q => exact congrArg some hlen
    subst hpq
    exact haccS.oneIdentity haccT

/-- Spellings of one IPv6 network that do collapse. -/
theorem one_identity_iff_spellings :
    OneIdentity (.threatIntelIndicator "2001:DB8:0:0::/48" "feed")
      (.threatIntelIndicator "2001:db8::/+48" "other") :=
  (one_identity_iff rfl rfl
    (by decide : parseIpOrCidr "2001:DB8:0:0::/48" =
      some (.v6 0x20010db8000000000000000000000000, some 48))
    (by decide : parseIpOrCidr "2001:db8::/+48" =
      some (.v6 0x20010db8000000000000000000000000, some 48))
    rfl).mpr ⟨rfl, Iff.rfl⟩

/-- A host written with and without its prefix, and a network with and without host bits, are
each one set of addresses under two identities. -/
theorem host_prefix_splits_identity :
    ∃ host net bits : IpAddr,
      parseIpOrCidr "10.0.0.5" = some (host, none) ∧
      parseIpOrCidr "10.0.0.5/32" = some (host, some 32) ∧
      denoted (host, prefixOr host none) = denoted (host, prefixOr host (some 32)) ∧
      elementReference (.threatIntelIndicator "10.0.0.5" "feed") ≠
        elementReference (.threatIntelIndicator "10.0.0.5/32" "feed") ∧
      parseIpOrCidr "10.0.0.0/24" = some (net, some 24) ∧
      parseIpOrCidr "10.0.0.5/24" = some (bits, some 24) ∧
      denoted (net, 24) = denoted (bits, 24) ∧
      elementReference (.threatIntelIndicator "10.0.0.0/24" "feed") ≠
        elementReference (.threatIntelIndicator "10.0.0.5/24" "feed") := by
  refine ⟨.v4 0x0a000005, .v4 0x0a000000, .v4 0x0a000005, by decide, by decide, rfl, by decide,
    by decide, by decide, ?_, by decide⟩
  rw [denoted_v4, denoted_v4]
  congr 1
  exact (Kit.network_eq_network_iff (by decide) (by decide)).mpr
    ⟨rfl, (Kit.and_prefixMask_eq_iff ..).mp (by decide)⟩

end Clawforge.Firewall

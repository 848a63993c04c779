import Clawforge.Firewall.Denotation

/-!
# When the blast radius is true

The hint looks at the text behind the slash, the adapters at the network that
`parse_ip_or_cidr` reads. They disagree on two kinds of text: an IPv6 network written with
the prefix `32`, and a full prefix length in another spelling than its decimal digits
(`032`, `+32`). On every other accepted text the hint is true (`hint_true_iff`).
-/

namespace Clawforge.Firewall

open Clawforge.Net Kit Text Option

/-- The network that the adapters block for a `cidr` that reads as `parsed`. -/
def blocked (parsed : IpAddr × Option Nat) : Set IpAddr :=
  denoted (parsed.1, prefixOr parsed.1 parsed.2)

/-- The hint says `is_single_address` exactly if one address is blocked. -/
def HintTrue (target : Json) (parsed : IpAddr × Option Nat) : Prop :=
  (blastRadiusHint target).get "is_single_address" = some (.bool true) ↔
    ∃ a, blocked parsed = {a}

/-- A prefix behind a slash is `32` only for an IPv4 address, and a full prefix length stands
there in its decimal digits. -/
def PlainPrefix (cidr : String) (addr : IpAddr) : Prop :=
  ∀ before prefixText, splitOnce '/' cidr.toList = some (before, prefixText) →
    (prefixText = "32".toList → addr.isIpv4 = true) ∧
      (parseU8 prefixText = some (fullPrefix addr) →
        prefixText = Nat.toDigits 10 (fullPrefix addr))

/-! ## The two sides -/

theorem denoted_full {a : IpAddr} (ha : normalizeAddress a = a) :
    denoted (a, fullPrefix a) = {a} := by
  cases a with
  | v4 a =>
    rw [denoted_v4, show fullPrefix (.v4 a) = 32 from rfl, network_full, Set.image_singleton]
  | v6 a =>
    rw [denoted_v6, show fullPrefix (.v6 a) = 128 from rfl, network_full, Set.image_singleton, ha]

/-- One address is blocked exactly for a full prefix. -/
theorem denoted_singleton_iff {a : IpAddr} {p : Nat} (ha : normalizeAddress a = a)
    (hp : p ≤ fullPrefix a) : (∃ x, denoted (a, p) = {x}) ↔ p = fullPrefix a := by
  constructor
  · rintro ⟨x, hx⟩
    have hself : a ∈ denoted (a, p) := self_mem_denoted ha p
    rw [hx] at hself
    obtain rfl := Set.mem_singleton_iff.1 hself
    exact prefix_eq_of_denoted_eq ha ha hp (Nat.le_refl _) (hx.trans (denoted_full ha).symm)
  · rintro rfl
    exact ⟨a, denoted_full ha⟩

theorem hint_indicator {target : Json} {cidr : String}
    (hkind : target.get "kind" = some (.string "threat_intel_indicator"))
    (hcidr : target.get "cidr" = some (.string cidr)) :
    (blastRadiusHint target).get "is_single_address" = some (.bool (isSingleAddress cidr)) := by
  have hkind' : (target.get "kind").bind Json.asStr = some "threat_intel_indicator" := by
    rw [hkind]
    rfl
  unfold blastRadiusHint
  rw [if_pos hkind', hcidr]
  refine (Json.get_ofFields ?_ _).trans rfl
  show ["kind", "cidr", "is_single_address"].Nodup
  decide

/-- What the hint says of a prefix text that reads as `len`. -/
theorem single_prefix_iff {addr : IpAddr} {prefixText : List Char} {len : Nat}
    (hlen : parseU8 prefixText = some len) (hfits : len ≤ fullPrefix addr) :
    ((prefixText = "32".toList ∨ prefixText = "128".toList) ↔ len = fullPrefix addr) ↔
      (prefixText = "32".toList → addr.isIpv4 = true) ∧
        (parseU8 prefixText = some (fullPrefix addr) →
          prefixText = Nat.toDigits 10 (fullPrefix addr)) := by
  have h32 : prefixText = "32".toList → len = 32 := by
    rintro rfl
    exact (some.inj (hlen.symm.trans (by decide : parseU8 "32".toList = some 32)))
  have h128 : prefixText = "128".toList → len = 128 := by
    rintro rfl
    exact (some.inj (hlen.symm.trans (by decide : parseU8 "128".toList = some 128)))
  rw [hlen, Option.some.injEq]
  cases addr with
  | v4 a =>
    -- a prefix of 128 does not fit
    have hfits : len ≤ 32 := hfits
    have hno : prefixText ≠ "128".toList := fun h => by
      have := h128 h
      omega
    have hdigits : Nat.toDigits 10 (fullPrefix (.v4 a)) = "32".toList :=
      (by decide : Nat.toDigits 10 32 = "32".toList)
    rw [hdigits, or_iff_left hno]
    constructor
    · exact fun h => ⟨fun _ => rfl, h.2⟩
    · exact fun h => ⟨h32, h.2⟩
  | v6 a =>
    have hdigits : Nat.toDigits 10 (fullPrefix (.v6 a)) = "128".toList :=
      (by decide : Nat.toDigits 10 128 = "128".toList)
    rw [hdigits]
    have hfull : fullPrefix (.v6 a) = 128 := rfl
    rw [hfull]
    constructor
    · intro h
      have hno : prefixText ≠ "32".toList := fun h' => by
        have h1 := h.1 (.inl h')
        have h2 := h32 h'
        omega
      exact ⟨fun h' => absurd h' hno, fun h' => (h.2 h').resolve_left hno⟩
    · rintro ⟨hno, hspelled⟩
      refine ⟨?_, fun h => .inr (hspelled h)⟩
      rintro (h | h)
      · cases hno h
      · exact h128 h

/-- **Blast radius.** For every accepted text, the hint is true exactly if the prefix behind a
slash is plainly written: `32` only for an IPv4 address, and a full length in its digits. -/
theorem hint_true_iff {target : Json} {cidr : String} {parsed : IpAddr × Option Nat}
    (hkind : target.get "kind" = some (.string "threat_intel_indicator"))
    (hcidr : target.get "cidr" = some (.string cidr)) (h : parseIpOrCidr cidr = some parsed) :
    HintTrue target parsed ↔ PlainPrefix cidr parsed.1 := by
  obtain ⟨addr, prefixLen⟩ := parsed
  obtain ⟨hnormal, hle⟩ := parseIpOrCidr_spec h
  unfold HintTrue blocked PlainPrefix
  rw [hint_indicator hkind hcidr, denoted_singleton_iff hnormal hle]
  unfold isSingleAddress
  unfold parseIpOrCidr at h
  cases hsplit : splitOnce '/' cidr.toList with
  | none =>
    simp only [hsplit, bind_eq_bind, bind_eq_some_iff] at h
    obtain ⟨raw, -, hraw⟩ := h
    cases hraw
    exact iff_of_true (iff_of_true rfl rfl) fun _ _ hno => nomatch hno
  | some pieces =>
    obtain ⟨before, prefixText⟩ := pieces
    simp only [hsplit, bind_eq_bind, bind_eq_some_iff] at h
    obtain ⟨raw, -, len, hlen, hin⟩ := h
    split at hin
    · cases hin
    · next hfits =>
        cases hin
        have hfits' : len ≤ fullPrefix (normalizeAddress raw) := Nat.le_of_not_lt hfits
        have hone : (prefixText = "32".toList || prefixText = "128".toList) = true ↔
            prefixText = "32".toList ∨ prefixText = "128".toList := by simp
        simp only [Option.some.injEq, Json.bool.injEq, hone]
        rw [show prefixOr (normalizeAddress raw) (some len) = len from rfl,
          single_prefix_iff hlen hfits']
        constructor
        · rintro hplain _ _ heq
          cases heq
          exact hplain
        · exact fun hplain => hplain before prefixText rfl

/-- An indicator with this text as its `cidr`. -/
def indicatorTarget (cidr : String) : Json :=
  .object [("kind", .string "threat_intel_indicator"), ("cidr", .string cidr)]

theorem hint_true_iff_host :
    HintTrue (indicatorTarget "203.0.113.7/32") (.v4 0xcb007107#32, some 32) ↔
      PlainPrefix "203.0.113.7/32" (.v4 0xcb007107#32) :=
  hint_true_iff rfl rfl (by decide)

/-- An IPv6 network of 2^96 addresses is shown as a single address. -/
theorem network_shown_as_address :
    ¬ ∀ cidr parsed, parseIpOrCidr cidr = some parsed → HintTrue (indicatorTarget cidr) parsed := by
  intro hall
  have hparse : parseIpOrCidr "2001:db8::/32" =
      some (.v6 0x20010db8000000000000000000000000#128, some 32) := by decide
  have htrue := hall _ _ hparse
  have hnormal : normalizeAddress (.v6 0x20010db8000000000000000000000000#128) =
      .v6 0x20010db8000000000000000000000000#128 := by decide
  have hsingle := htrue.1 (by decide)
  have hfull := (denoted_singleton_iff hnormal (by decide)).1 hsingle
  exact absurd hfull (by decide)

end Clawforge.Firewall

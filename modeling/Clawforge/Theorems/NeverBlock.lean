import Clawforge.Firewall.Denotation

/-!
# The never-block list decides by overlap

With a well-formed configuration a target is refused exactly when it shares an
address with a builtin or configured exclusion of its family; with a malformed
entry every target is refused. An IPv6 range wider than `::ffff:0:0/96` does
not count as holding the IPv4 addresses mapped into it.
-/

namespace Clawforge.Firewall

open Clawforge.Net List

/-! ## The parsed list -/

theorem parseEntries_ok {entries : List String} {nets : List (IpAddr × Nat)}
    (h : parseEntries entries = .ok nets) : nets = entries.filterMap parseExclusion := by
  induction entries generalizing nets with
  | nil =>
    cases h
    rfl
  | cons entry rest ih =>
    rw [parseEntries] at h
    cases hentry : parseExclusion entry with
    | none =>
      rw [hentry] at h
      cases h
    | some net =>
      rw [hentry] at h
      cases hrest : parseEntries rest with
      | error e =>
        rw [hrest] at h
        cases h
      | ok more =>
        rw [hrest] at h
        cases h
        rw [filterMap_cons_some hentry, ih hrest]

theorem parseEntries_error {entries : List String} {entry : String} (hmem : entry ∈ entries)
    (h : parseIpOrCidr entry = none) : ∃ e, parseEntries entries = .error e := by
  induction entries with
  | nil => cases hmem
  | cons first rest ih =>
    rw [parseEntries]
    cases hfirst : parseExclusion first with
    | none => exact ⟨_, rfl⟩
    | some net =>
      rcases mem_cons.mp hmem with rfl | hrest
      · simp [parseExclusion, h] at hfirst
      · obtain ⟨e, he⟩ := ih hrest
        exact ⟨e, by rw [he]; rfl⟩

theorem mem_neverBlockList {configured : Option String} {list : List (IpAddr × Nat)}
    (h : neverBlockListFromConfigured configured = .ok list) (net : IpAddr × Nat) :
    net ∈ list ↔ ∃ entry ∈ builtinExclusions ++ configuredEntries configured,
      parseExclusion entry = some net := by
  unfold neverBlockListFromConfigured at h
  cases hentries : parseEntries (configuredEntries configured) with
  | error e =>
    rw [hentries] at h
    cases h
  | ok nets =>
    rw [hentries] at h
    cases h
    show net ∈ builtinExclusions.filterMap parseExclusion ++ nets ↔ _
    rw [parseEntries_ok hentries, ← filterMap_append, mem_filterMap]

/-! ## The check -/

/-- A target with an address passes exactly when it overlaps no listed network. -/
theorem checkNeverBlock_eq {list : List (IpAddr × Nat)} {target : FirewallTarget}
    {addr : IpAddr} {prefixLen : Option Nat} (h : targetAddress target = .ok (addr, prefixLen)) :
    checkNeverBlock (.ok list) target =
      if list.any fun net => rangesOverlap net.1 net.2 addr (prefixOr addr prefixLen) then
        .error overlapsExclusion
      else .ok () := by
  cases target with
  | incidentSource pseudonym => cases h
  | threatIntelIndicator | resolvedIncidentSource =>
    simp only [checkNeverBlock, h]
    rfl

/-- With a malformed list every target is refused. -/
theorem checkNeverBlock_misconfigured (error : String) (target : FirewallTarget) :
    ∃ message, checkNeverBlock (.error error) target = .error (.invalidTarget message) :=
  ⟨_, rfl⟩

/-- A target is refused exactly when it shares an address with an exclusion of its family,
only IPv6 ranges of at most 95 bits share an address with the other family, and a malformed
entry refuses every target. -/
theorem never_block_decides (configured : Option String) :
    (∀ list, neverBlockListFromConfigured configured = .ok list →
      ∀ (target : FirewallTarget) (text : String) (addr : IpAddr) (prefixLen : Option Nat),
        target.addressText = some text → parseIpOrCidr text = some (addr, prefixLen) →
        (checkNeverBlock (neverBlockListFromConfigured configured) target =
            .error overlapsExclusion ↔
          ∃ entry ∈ builtinExclusions ++ configuredEntries configured,
            ∃ net, parseExclusion entry = some net ∧ net.1.isIpv4 = addr.isIpv4 ∧
              (denoted net ∩ denoted (addr, prefixOr addr prefixLen)).Nonempty) ∧
        (∀ entry net, parseExclusion entry = some net → net.1.isIpv4 ≠ addr.isIpv4 →
          (denoted net ∩ denoted (addr, prefixOr addr prefixLen)).Nonempty →
          (net.1.isIpv4 = false ∧ net.2 ≤ 95) ∨
            (addr.isIpv4 = false ∧ prefixOr addr prefixLen ≤ 95))) ∧
    ((∃ entry ∈ configuredEntries configured, parseIpOrCidr entry = none) →
      ∀ target, ∃ message,
        checkNeverBlock (neverBlockListFromConfigured configured) target =
          .error (.invalidTarget message)) := by
  refine ⟨?_, ?_⟩
  · intro list hlist target text addr prefixLen htext hparse
    have hnorm := (parseIpOrCidr_spec hparse).1
    refine ⟨?_, ?_⟩
    · have hany : (list.any fun net => rangesOverlap net.1 net.2 addr (prefixOr addr prefixLen)) =
          true ↔ ∃ entry ∈ builtinExclusions ++ configuredEntries configured,
            ∃ net, parseExclusion entry = some net ∧ net.1.isIpv4 = addr.isIpv4 ∧
              (denoted net ∩ denoted (addr, prefixOr addr prefixLen)).Nonempty := by
        rw [List.any_eq_true]
        constructor
        · rintro ⟨net, hmem, hoverlap⟩
          obtain ⟨entry, hentry, hnet⟩ := (mem_neverBlockList hlist net).mp hmem
          exact ⟨entry, hentry, net, hnet, (rangesOverlap_iff ..).mp hoverlap⟩
        · rintro ⟨entry, hentry, net, hnet, hoverlap⟩
          exact ⟨net, (mem_neverBlockList hlist net).mpr ⟨entry, hentry, hnet⟩,
            (rangesOverlap_iff ..).mpr hoverlap⟩
      rw [hlist, checkNeverBlock_eq (targetAddress_of_parse htext hparse), ← hany]
      split <;> simp_all
    · intro entry net hnet hfamily hshared
      unfold parseExclusion at hnet
      obtain ⟨parsed, hentry, rfl⟩ := Option.map_eq_some_iff.mp hnet
      exact prefix_le_of_overlap (parseIpOrCidr_spec hentry).1 hnorm hshared hfamily
  · rintro ⟨entry, hentry, hnone⟩ target
    obtain ⟨e, he⟩ := parseEntries_error hentry hnone
    have hlist : neverBlockListFromConfigured configured = .error e := by
      rw [neverBlockListFromConfigured, he]
      rfl
    rw [hlist]
    exact checkNeverBlock_misconfigured e target

/-- A management range is refused, and an entry that is no address refuses even that target. -/
theorem never_block_decides_management_range :
    checkNeverBlock (neverBlockListFromConfigured (some "10.0.0.0/8, 192.0.2.1"))
        (.threatIntelIndicator "10.1.2.3" "feed") = .error overlapsExclusion ∧
      ∃ message, checkNeverBlock (neverBlockListFromConfigured (some "10.0.0.0/8,management"))
        (.threatIntelIndicator "198.51.100.7" "feed") = .error (.invalidTarget message) := by
  have hlist : ∃ list, neverBlockListFromConfigured (some "10.0.0.0/8, 192.0.2.1") = .ok list :=
    ⟨_, rfl⟩
  obtain ⟨list, hlist⟩ := hlist
  refine ⟨?_, ?_⟩
  · refine (((never_block_decides _).1 list hlist (.threatIntelIndicator "10.1.2.3" "feed")
      "10.1.2.3" (.v4 0x0a010203) none rfl (by decide)).1).mpr
      ⟨"10.0.0.0/8", by decide, (.v4 0x0a000000, 8), by decide, rfl, ?_⟩
    exact ((rangesOverlap_iff ..).mp (by decide)).2
  · exact (never_block_decides (some "10.0.0.0/8,management")).2
      ⟨"management", by decide, by decide⟩ _

/-- An IPv6 range over the mapped block passes, although it holds the mapped loopback. -/
theorem mapped_range_passes :
    ∃ target net, parseIpOrCidr "::fffe:0:0/95" = some (target, some 95) ∧
      parseExclusion "127.0.0.0/8" = some net ∧ "127.0.0.0/8" ∈ builtinExclusions ∧
      (denoted net ∩ denoted (target, 95)).Nonempty ∧
      checkNeverBlock (neverBlockListFromConfigured none)
        (.threatIntelIndicator "::fffe:0:0/95" "feed") = .ok () := by
  refine ⟨.v6 0xfffe00000000, (.v4 0x7f000000, 8), by decide, by decide, by decide, ?_, by decide⟩
  refine ⟨.v4 0x7f000001, ?_, ?_⟩
  · rw [denoted_v4]
    exact ⟨0x7f000001, (Kit.and_prefixMask_eq_iff ..).mp (by decide), rfl⟩
  · rw [denoted_v6]
    exact ⟨0xffff7f000001, (Kit.and_prefixMask_eq_iff ..).mp (by decide), by decide⟩

end Clawforge.Firewall

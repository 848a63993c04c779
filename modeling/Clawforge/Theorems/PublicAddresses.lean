import Clawforge.Theorems.RoutingCycle

/-!
# Addresses sent to a lookup service

The two filters as sets of blocks, and exactly which non-public addresses they let through
(`addressKept_iff`): the provider forgets two blocks of IPv4, every IPv4-mapped address and
most of IPv6 outside the global unicast space; the worker forgets the documentation blocks.
-/

namespace Clawforge.PublicAddresses

open Clawforge.Net Clawforge.Intelligence Clawforge.NetworkContext Clawforge.Reputation Kit Option

section Statement

/-- The provider is configured for the address, which `fetch` then sends. -/
def AskedProvider (a : IpAddr) : Prop :=
  ∃ resource p, TeamCymruProvider.withResource resource = .ok p ∧ p.address = a

/-- Some cycle of the worker sends the address. -/
def AskedWorker (a : IpAddr) : Prop :=
  ∃ env pg config c w, .networkInfo a ∈ (runCycle env pg config c w).1

/-- The filter takes an IPv4-mapped address as it takes the IPv4 address, or refuses it. -/
def MappedAgrees (filter : IpAddr → Bool) (a : IpAddr) : Prop :=
  ∀ x ipv4, a = .v6 x → toIpv4Mapped x = some ipv4 →
    filter a = filter (.v4 ipv4) ∨ filter a = false

/-- Only a public address is sent, and both filters agree on mapped addresses. -/
structure AddressKept (a : IpAddr) : Prop where
  provider : AskedProvider a → isPublic a = true
  worker : AskedWorker a → isPublic a = true
  mapped : MappedAgrees isGlobalAddress a ∧ MappedAgrees isQueryable a

/-- Protocol assignments and benchmarking. -/
def forgottenV4 : List (Nat × Nat) := [(0xc0000000, 24), (0xc6120000, 15)]

/-- The three blocks for documentation. -/
def documentationV4 : List (Nat × Nat) :=
  [(0xc0000200, 24), (0xc6336400, 24), (0xcb007100, 24)]

/-- Benchmarking, and the newer block for documentation. -/
def forgottenV6 : List (Nat × Nat) := [(0x200100020000 * 2 ^ 80, 48), (0x3fff * 2 ^ 112, 20)]

/-- Outside global unicast, what the provider does refuse: unspecified, loopback, multicast,
unique local and link-local. -/
def refusedOutside : List (Nat × Nat) :=
  [(0, 128), (1, 128), (0xff00 * 2 ^ 112, 8), (0xfc00 * 2 ^ 112, 7), (0xfe80 * 2 ^ 112, 10)]

/-- The non-public addresses that the provider lets through. -/
def providerGap : IpAddr → Bool
  | .v4 a => forgottenV4.any (fun b => inBlock 32 b a.toNat)
  | .v6 a =>
    match toIpv4Mapped a with
    | some ipv4 => !publicV4 ipv4
    | none =>
      forgottenV6.any (fun b => inBlock 128 b a.toNat) ||
        (!inBlock 128 globalUnicast a.toNat &&
          !refusedOutside.any (fun b => inBlock 128 b a.toNat))

/-- … and those that the worker lets through. -/
def workerGap : IpAddr → Bool
  | .v4 a => documentationV4.any (fun b => inBlock 32 b a.toNat)
  | .v6 a => nonPublicV6.any (fun b => inBlock 128 b a.toNat)

end Statement

/-! ## Blocks -/

section Blocks

/-- The two blocks have no number in common. -/
def apart (width : Nat) (b g : Nat × Nat) : Bool :=
  b.1 / 2 ^ (width - min b.2 g.2) ≠ g.1 / 2 ^ (width - min b.2 g.2)

variable {width n : Nat} {b g : Nat × Nat}

/-- A number of a block agrees with its base on every shorter prefix. -/
theorem div_eq_of_inBlock (h : inBlock width b n = true) {k : Nat} (hk : width - b.2 ≤ k) :
    n / 2 ^ k = b.1 / 2 ^ k := by
  have hdiv : n / 2 ^ (width - b.2) = b.1 / 2 ^ (width - b.2) := of_decide_eq_true h
  rw [← Nat.add_sub_cancel' hk, Nat.pow_add, ← Nat.div_div_eq_div_mul, ← Nat.div_div_eq_div_mul,
    hdiv]

theorem not_inBlock_of_apart (h : inBlock width g n = true) (hapart : apart width b g = true) :
    inBlock width b n = false := by
  by_contra hin
  have hb := div_eq_of_inBlock (Bool.eq_true_of_not_eq_false hin)
    (Nat.sub_le_sub_left (Nat.min_le_left b.2 g.2) width)
  have hg := div_eq_of_inBlock h (Nat.sub_le_sub_left (Nat.min_le_right b.2 g.2) width)
  exact of_decide_eq_true hapart (hb.symm.trans hg)

/-- A number of one block is in no block of a list that is apart from it. -/
theorem not_any_of_apart {blocks : List (Nat × Nat)} (h : inBlock width g n = true)
    (hapart : blocks.all (fun b => apart width b g) = true) :
    blocks.any (fun b => inBlock width b n) = false := by
  rw [List.any_eq_false]
  intro b hb
  rw [not_inBlock_of_apart h (List.all_eq_true.1 hapart b hb)]
  exact Bool.noConfusion

/-- Two lists of blocks that are pairwise apart. -/
theorem not_any_of_any {blocks others : List (Nat × Nat)}
    (h : others.any (fun g => inBlock width g n) = true)
    (hapart : others.all (fun g => blocks.all (fun b => apart width b g)) = true) :
    blocks.any (fun b => inBlock width b n) = false := by
  obtain ⟨g, hg, hin⟩ := List.any_eq_true.1 h
  exact not_any_of_apart hin (List.all_eq_true.1 hapart g hg)

end Blocks

/-! ## The filters as blocks -/

section Filters

/-- What both filters refuse of IPv4. -/
def refusedV4 : List (Nat × Nat) :=
  [ (0x00000000, 8), (0x0a000000, 8), (0x64400000, 10), (0x7f000000, 8), (0xa9fe0000, 16)
  , (0xac100000, 12), (0xc0a80000, 16), (0xe0000000, 4), (0xf0000000, 4) ]

variable (a : BitVec 32)

theorem isLoopback_eq : Ipv4.isLoopback a = inBlock 32 (0x7f000000, 8) a.toNat := by
  unfold Ipv4.isLoopback inBlock
  rw [octet_zero]
  rfl

theorem thisNetwork_eq : decide (octet a 0 = 0) = inBlock 32 (0x00000000, 8) a.toNat := by
  unfold inBlock
  rw [octet_zero]
  rfl

theorem isPrivate_eq : Ipv4.isPrivate a = (inBlock 32 (0x0a000000, 8) a.toNat ||
    inBlock 32 (0xac100000, 12) a.toNat || inBlock 32 (0xc0a80000, 16) a.toNat) := by
  unfold Ipv4.isPrivate inBlock
  rw [octet_zero, octet_one, Bool.eq_iff_iff]
  simp only [Bool.or_eq_true, Bool.and_eq_true, decide_eq_true_eq, Nat.reduceSub, Nat.reducePow,
    Nat.reduceDiv]
  omega

theorem isLinkLocal_eq : Ipv4.isLinkLocal a = inBlock 32 (0xa9fe0000, 16) a.toNat := by
  unfold Ipv4.isLinkLocal inBlock
  rw [octet_zero, octet_one, Bool.eq_iff_iff]
  simp only [Bool.and_eq_true, decide_eq_true_eq, Nat.reduceSub, Nat.reducePow, Nat.reduceDiv]
  omega

theorem isMulticast_eq : Ipv4.isMulticast a = inBlock 32 (0xe0000000, 4) a.toNat := by
  unfold Ipv4.isMulticast inBlock
  rw [octet_zero, Bool.eq_iff_iff]
  simp only [Bool.and_eq_true, decide_eq_true_eq, Nat.reduceSub, Nat.reducePow, Nat.reduceDiv]
  omega

theorem reserved_eq : decide (240 ≤ octet a 0) = inBlock 32 (0xf0000000, 4) a.toNat := by
  have hlt := a.isLt
  unfold inBlock
  rw [octet_zero, Bool.eq_iff_iff]
  simp only [decide_eq_true_eq, Nat.reduceSub, Nat.reducePow, Nat.reduceDiv]
  omega

/-- Three octets are a block. -/
theorem octets_eq {p q r : Nat} (hq : q < 256) (hr : r < 256) :
    (decide (octet a 0 = p) && decide (octet a 1 = q) && decide (octet a 2 = r)) =
      inBlock 32 (p * 2 ^ 24 + q * 2 ^ 16 + r * 2 ^ 8, 24) a.toNat := by
  have hbase : (p * 2 ^ 24 + q * 2 ^ 16 + r * 2 ^ 8) / 2 ^ 8 = p * 65536 + q * 256 + r := by omega
  have hzero : a.toNat / 2 ^ 24 = a.toNat / 2 ^ 8 / 2 ^ 16 := by
    rw [Nat.div_div_eq_div_mul, ← Nat.pow_add]
  have hone : a.toNat / 2 ^ 16 = a.toNat / 2 ^ 8 / 2 ^ 8 := by
    rw [Nat.div_div_eq_div_mul, ← Nat.pow_add]
  unfold inBlock
  rw [octet_zero, octet_one, octet_two, Bool.eq_iff_iff]
  simp only [Bool.and_eq_true, decide_eq_true_eq]
  show _ ↔ a.toNat / 2 ^ 8 = (p * 2 ^ 24 + q * 2 ^ 16 + r * 2 ^ 8) / 2 ^ 8
  rw [hbase, hzero, hone]
  omega

theorem isDocumentation_eq : Ipv4.isDocumentation a =
    documentationV4.any (fun b => inBlock 32 b a.toNat) := by
  unfold Ipv4.isDocumentation
  rw [octets_eq a (by decide) (by decide), octets_eq a (by decide) (by decide),
    octets_eq a (by decide) (by decide)]
  simp only [documentationV4, List.any_cons, List.any_nil, Bool.or_false, Bool.or_assoc]
  rfl

theorem shared_eq : (decide (octet a 0 = 100) && decide (octet a 1 &&& 0xc0 = 64)) =
    inBlock 32 (0x64400000, 10) a.toNat := by
  have hoctet : octet a 1 < 2 ^ 8 := by
    rw [octet_one]
    omega
  have hmask : octet a 1 &&& 0xc0 = octet a 1 / 2 ^ 6 * 2 ^ 6 :=
    land_leading hoctet (by decide : 6 ≤ 8)
  unfold inBlock
  rw [hmask, octet_zero, octet_one, Bool.eq_iff_iff]
  simp only [Bool.and_eq_true, decide_eq_true_eq, Nat.reduceSub, Nat.reducePow, Nat.reduceDiv]
  omega

theorem isBroadcast_reserved (h : Ipv4.isBroadcast a = true) :
    inBlock 32 (0xf0000000, 4) a.toNat = true := by
  have hall : a.toNat = 0xffffffff := of_decide_eq_true h
  rw [hall]
  decide

theorem isUnspecified_thisNetwork (h : Ipv4.isUnspecified a = true) :
    inBlock 32 (0x00000000, 8) a.toNat = true := by
  have hzero : a.toNat = 0 := of_decide_eq_true h
  rw [hzero]
  decide

/-- The provider refuses these blocks and documentation. -/
theorem isGlobalAddress_v4 : isGlobalAddress (.v4 a) =
    !(refusedV4.any (fun b => inBlock 32 b a.toNat) ||
      documentationV4.any (fun b => inBlock 32 b a.toNat)) := by
  have hbroadcast := isBroadcast_reserved a
  have hunspecified := isUnspecified_thisNetwork a
  unfold isGlobalAddress
  simp only [shared_eq, thisNetwork_eq, reserved_eq, isDocumentation_eq, isPrivate_eq,
    isLoopback_eq, isLinkLocal_eq, isMulticast_eq]
  rw [Bool.not_eq_eq_eq_not, Bool.not_not, Bool.eq_iff_iff]
  simp only [refusedV4, List.any_cons, List.any_nil, Bool.or_eq_true, Bool.false_eq_true, or_false]
  grind

/-- The worker writes the shared block as a range. -/
theorem shared_eq_range :
    (decide (octet a 0 = 100) && decide (64 ≤ octet a 1) && decide (octet a 1 < 128)) =
      inBlock 32 (0x64400000, 10) a.toNat := by
  unfold inBlock
  rw [octet_zero, octet_one, Bool.eq_iff_iff]
  simp only [Bool.and_eq_true, decide_eq_true_eq, Nat.reduceSub, Nat.reducePow, Nat.reduceDiv]
  omega

theorem protocol_eq :
    (decide (octet a 0 = 192) && decide (octet a 1 = 0) && decide (octet a 2 = 0)) =
      inBlock 32 (0xc0000000, 24) a.toNat :=
  octets_eq a (by decide) (by decide)

theorem benchmarking_eq :
    (decide (octet a 0 = 198) && (decide (octet a 1 = 18) || decide (octet a 1 = 19))) =
      inBlock 32 (0xc6120000, 15) a.toNat := by
  unfold inBlock
  rw [octet_zero, octet_one, Bool.eq_iff_iff]
  simp only [Bool.and_eq_true, Bool.or_eq_true, decide_eq_true_eq, Nat.reduceSub, Nat.reducePow,
    Nat.reduceDiv]
  omega

/-- The worker refuses them with protocol assignments and benchmarking. -/
theorem isQueryable_v4 : isQueryable (.v4 a) =
    !(refusedV4.any (fun b => inBlock 32 b a.toNat) ||
      forgottenV4.any (fun b => inBlock 32 b a.toNat)) := by
  have hbroadcast := isBroadcast_reserved a
  have hunspecified := isUnspecified_thisNetwork a
  unfold isQueryable
  simp only [shared_eq_range, protocol_eq, benchmarking_eq, thisNetwork_eq, reserved_eq,
    isPrivate_eq, isLoopback_eq, isLinkLocal_eq, isMulticast_eq]
  rw [Bool.not_eq_eq_eq_not, Bool.not_not, Bool.eq_iff_iff]
  simp only [refusedV4, forgottenV4, List.any_cons, List.any_nil, Bool.or_eq_true,
    Bool.false_eq_true, or_false]
  grind

/-- What is not public of IPv4, as the two filters divide it. -/
theorem publicV4_eq : publicV4 a =
    !(refusedV4.any (fun b => inBlock 32 b a.toNat) ||
      forgottenV4.any (fun b => inBlock 32 b a.toNat) ||
      documentationV4.any (fun b => inBlock 32 b a.toNat)) := by
  unfold publicV4
  rw [Bool.not_eq_eq_eq_not, Bool.not_not, Bool.eq_iff_iff]
  simp only [nonPublicV4, refusedV4, forgottenV4, documentationV4, List.any_cons, List.any_nil,
    Bool.or_eq_true, Bool.false_eq_true, or_false]
  grind

variable (x : BitVec 128)

theorem isUnspecified_eq : Ipv6.isUnspecified x = inBlock 128 (0, 128) x.toNat := by
  unfold Ipv6.isUnspecified inBlock
  rw [Nat.sub_self, Nat.pow_zero, Nat.div_one, Nat.div_one]

theorem isLoopback6_eq : Ipv6.isLoopback x = inBlock 128 (1, 128) x.toNat := by
  unfold Ipv6.isLoopback inBlock
  rw [Nat.sub_self, Nat.pow_zero, Nat.div_one, Nat.div_one]

/-- A mask of the first segment. -/
theorem segment_land {k : Nat} (hk : k ≤ 16) :
    segment x 0 &&& (2 ^ 16 - 2 ^ k) = x.toNat / 2 ^ (112 + k) * 2 ^ k := by
  have hlt : x.toNat / 2 ^ 112 < 2 ^ 16 := by
    have hx := x.isLt
    omega
  rw [segment_zero, land_leading hlt hk, Nat.div_div_eq_div_mul, ← Nat.pow_add]

/-- A masked first segment is a block. -/
theorem segment_block (k base : Nat) (hk : k ≤ 16) :
    decide (segment x 0 &&& (2 ^ 16 - 2 ^ k) = base * 2 ^ k) =
      inBlock 128 (base * 2 ^ (112 + k), 16 - k) x.toNat := by
  have hwidth : 128 - (16 - k) = 112 + k := by omega
  unfold inBlock
  rw [segment_land x hk, hwidth, Nat.mul_div_cancel _ (Nat.two_pow_pos _), Bool.eq_iff_iff]
  simp only [decide_eq_true_eq]
  exact Nat.mul_left_inj (Nat.two_pow_pos k).ne'

theorem isMulticast6_eq : Ipv6.isMulticast x = inBlock 128 (0xff00 * 2 ^ 112, 8) x.toNat :=
  segment_block x 8 0xff (by decide)

theorem uniqueLocal_eq : decide (segment x 0 &&& 0xfe00 = 0xfc00) =
    inBlock 128 (0xfc00 * 2 ^ 112, 7) x.toNat :=
  segment_block x 9 0x7e (by decide)

theorem linkLocal_eq : decide (segment x 0 &&& 0xffc0 = 0xfe80) =
    inBlock 128 (0xfe80 * 2 ^ 112, 10) x.toNat :=
  segment_block x 6 0x3fa (by decide)

theorem globalUnicast_eq : decide (segment x 0 &&& 0xe000 = 0x2000) =
    inBlock 128 globalUnicast x.toNat :=
  segment_block x 13 1 (by decide)

theorem documentation6_eq : (decide (segment x 0 = 0x2001) && decide (segment x 1 = 0x0db8)) =
    inBlock 128 (0x20010db8 * 2 ^ 96, 32) x.toNat := by
  unfold inBlock
  rw [segment_zero, segment_one, Bool.eq_iff_iff]
  simp only [Bool.and_eq_true, decide_eq_true_eq, Nat.reduceSub, Nat.reducePow, Nat.reduceMul,
    Nat.reduceDiv]
  omega

theorem isGlobalAddress_v6 : isGlobalAddress (.v6 x) =
    !(refusedOutside.any (fun b => inBlock 128 b x.toNat) ||
      inBlock 128 (0x20010db8 * 2 ^ 96, 32) x.toNat) := by
  unfold isGlobalAddress
  simp only [isUnspecified_eq, isLoopback6_eq, isMulticast6_eq, uniqueLocal_eq, linkLocal_eq,
    documentation6_eq]
  rw [Bool.not_eq_eq_eq_not, Bool.not_not, Bool.eq_iff_iff]
  simp only [refusedOutside, List.any_cons, List.any_nil, Bool.or_eq_true, Bool.false_eq_true,
    or_false]
  grind

/-- An IPv4-mapped address lies in `::ffff:0:0/96`. -/
theorem toIpv4Mapped_isSome :
    (toIpv4Mapped x).isSome = inBlock 128 (0xffff * 2 ^ 32, 96) x.toNat := by
  unfold toIpv4Mapped inBlock
  split
  · rename_i h
    exact (decide_eq_true h).symm
  · rename_i h
    exact (decide_eq_false h).symm

/-- The worker takes the whole of global unicast, and nothing else. -/
theorem isQueryable_v6 : isQueryable (.v6 x) = inBlock 128 globalUnicast x.toNat := by
  have houtside : inBlock 128 globalUnicast x.toNat = true →
      ((0xffff * 2 ^ 32, 96) :: refusedOutside).any (fun b => inBlock 128 b x.toNat) = false :=
    fun h => not_any_of_apart h (by decide)
  unfold isQueryable
  rw [Bool.eq_iff_iff]
  simp only [isUnspecified_eq, isLoopback6_eq, isMulticast6_eq, uniqueLocal_eq, linkLocal_eq,
    toIpv4Mapped_isSome, ne_eq, decide_not, globalUnicast_eq]
  constructor
  · intro h
    rw [Bool.not_eq_true', Bool.or_eq_false_iff] at h
    exact (Bool.not_eq_eq_eq_not.1 h.2).trans rfl
  · intro h
    have hnone := houtside h
    simp only [refusedOutside, List.any_cons, List.any_nil, Bool.or_eq_false_iff] at hnone
    obtain ⟨hmapped, hunspecified, hloopback, hmulticast, hunique, hlink, -⟩ := hnone
    rw [hunspecified, hloopback, hmulticast, hunique, hlink, hmapped, h]
    rfl

end Filters

/-! ## What the filters let through -/

theorem inBlock_of_inBlock {width n : Nat} {b g : Nat × Nat} (h : inBlock width b n = true)
    (hle : g.2 ≤ b.2) (hbase : inBlock width g b.1 = true) : inBlock width g n = true := by
  have hdiv := div_eq_of_inBlock h (Nat.sub_le_sub_left hle width)
  exact decide_eq_true (hdiv.trans (of_decide_eq_true hbase))

theorem globalUnicast_of_nonPublic (n : Nat)
    (h : nonPublicV6.any (fun b => inBlock 128 b n) = true) :
    inBlock 128 globalUnicast n = true := by
  obtain ⟨b, hb, hin⟩ := List.any_eq_true.1 h
  have hsub : ∀ b ∈ nonPublicV6,
      globalUnicast.2 ≤ b.2 ∧ inBlock 128 globalUnicast b.1 = true := by
    decide
  exact inBlock_of_inBlock hin (hsub b hb).1 (hsub b hb).2

theorem nonPublicV6_eq (n : Nat) : nonPublicV6.any (fun b => inBlock 128 b n) =
    (forgottenV6.any (fun b => inBlock 128 b n) || inBlock 128 (0x20010db8 * 2 ^ 96, 32) n) := by
  rw [Bool.eq_iff_iff]
  simp only [nonPublicV6, forgottenV6, List.any_cons, List.any_nil, Bool.or_eq_true,
    Bool.false_eq_true, or_false]
  grind

/-- The provider's gap is what its filter takes and is not public. -/
theorem providerGap_iff (a : IpAddr) :
    providerGap a = true ↔ isGlobalAddress a = true ∧ isPublic a = false := by
  cases a with
  | v4 a =>
    have hrefused : forgottenV4.any (fun b => inBlock 32 b a.toNat) = true →
        refusedV4.any (fun b => inBlock 32 b a.toNat) = false :=
      fun h => not_any_of_any h (by decide)
    have hdocumentation : forgottenV4.any (fun b => inBlock 32 b a.toNat) = true →
        documentationV4.any (fun b => inBlock 32 b a.toNat) = false :=
      fun h => not_any_of_any h (by decide)
    show forgottenV4.any (fun b => inBlock 32 b a.toNat) = true ↔ _ ∧ publicV4 a = false
    rw [isGlobalAddress_v4, publicV4_eq]
    constructor
    · intro h
      rw [hrefused h, hdocumentation h, h]
      exact ⟨rfl, rfl⟩
    · rintro ⟨htaken, hpublic⟩
      rw [Bool.not_eq_true', Bool.or_eq_false_iff] at htaken
      rw [htaken.1, htaken.2, Bool.false_or, Bool.or_false, Bool.not_eq_false'] at hpublic
      exact hpublic
  | v6 x =>
    have hrefused : inBlock 128 (0xffff * 2 ^ 32, 96) x.toNat = true →
        ((0x20010db8 * 2 ^ 96, 32) :: refusedOutside).any (fun b => inBlock 128 b x.toNat) =
          false :=
      fun h => not_any_of_apart h (by decide)
    have hforgotten : forgottenV6.any (fun b => inBlock 128 b x.toNat) = true →
        ((0x20010db8 * 2 ^ 96, 32) :: refusedOutside).any (fun b => inBlock 128 b x.toNat) =
          false :=
      fun h => not_any_of_any h (by decide)
    have hunicast := globalUnicast_of_nonPublic x.toNat
    rw [nonPublicV6_eq] at hunicast
    have hmapped := toIpv4Mapped_isSome x
    rw [isGlobalAddress_v6]
    dsimp only [providerGap, isPublic]
    cases hipv4 : toIpv4Mapped x with
    | some ipv4 =>
      rw [hipv4] at hmapped
      have hnone := hrefused hmapped.symm
      rw [List.any_cons, Bool.or_eq_false_iff] at hnone
      rw [hnone.1, hnone.2]
      simp only [Bool.not_eq_true', Bool.or_false, Bool.not_false, true_and]
    | none =>
      dsimp only
      rw [nonPublicV6_eq]
      rw [List.any_cons] at hforgotten
      revert hforgotten hunicast
      generalize forgottenV6.any (fun b => inBlock 128 b x.toNat) = forgotten
      generalize refusedOutside.any (fun b => inBlock 128 b x.toNat) = refused
      generalize inBlock 128 (0x20010db8 * 2 ^ 96, 32) x.toNat = documentation
      generalize inBlock 128 globalUnicast x.toNat = unicast
      revert forgotten refused documentation unicast
      decide

/-- The worker's gap is what its filter takes and is not public. -/
theorem workerGap_iff (a : IpAddr) :
    workerGap a = true ↔ isQueryable a = true ∧ isPublic a = false := by
  cases a with
  | v4 a =>
    have hrefused : documentationV4.any (fun b => inBlock 32 b a.toNat) = true →
        refusedV4.any (fun b => inBlock 32 b a.toNat) = false :=
      fun h => not_any_of_any h (by decide)
    have hforgotten : documentationV4.any (fun b => inBlock 32 b a.toNat) = true →
        forgottenV4.any (fun b => inBlock 32 b a.toNat) = false :=
      fun h => not_any_of_any h (by decide)
    show documentationV4.any (fun b => inBlock 32 b a.toNat) = true ↔ _ ∧ publicV4 a = false
    rw [isQueryable_v4, publicV4_eq]
    constructor
    · intro h
      rw [hrefused h, hforgotten h, h]
      exact ⟨rfl, rfl⟩
    · rintro ⟨htaken, hpublic⟩
      rw [Bool.not_eq_true', Bool.or_eq_false_iff] at htaken
      rw [htaken.1, htaken.2, Bool.false_or, Bool.false_or, Bool.not_eq_false'] at hpublic
      exact hpublic
  | v6 x =>
    have hunicast := globalUnicast_of_nonPublic x.toNat
    have hmapped := toIpv4Mapped_isSome x
    have hapart : inBlock 128 globalUnicast x.toNat = true →
        inBlock 128 (0xffff * 2 ^ 32, 96) x.toNat = false :=
      fun h => not_inBlock_of_apart h (by decide)
    rw [isQueryable_v6]
    dsimp only [workerGap, isPublic]
    constructor
    · intro h
      have hin := hunicast h
      rw [hapart hin, isSome_eq_false_iff, isNone_iff_eq_none] at hmapped
      rw [hmapped]
      simp only [hin, h, Bool.not_true, Bool.and_false, and_self]
    · rintro ⟨hin, hpublic⟩
      rw [hapart hin, isSome_eq_false_iff, isNone_iff_eq_none] at hmapped
      rw [hmapped] at hpublic
      simp only [hin, Bool.true_and, Bool.not_eq_false'] at hpublic
      exact hpublic

/-! ## What is sent -/

theorem askedProvider_iff (a : IpAddr) : AskedProvider a ↔ isGlobalAddress a = true := by
  constructor
  · rintro ⟨resource, p, hp, rfl⟩
    unfold TeamCymruProvider.withResource at hp
    split at hp
    · cases hp
    · split at hp
      · rename_i hglobal
        obtain rfl := Except.ok.inj hp
        exact hglobal
      · cases hp
  · intro h
    have htrim : Text.trim (displayIpAddr a) = displayIpAddr a := by
      refine Text.trim_of_no_blank (fun c hc => ?_)
      rcases parseIpAddr_chars (parseIpAddr_displayIpAddr a) hc with rfl | rfl | hdigit
      · decide
      · decide
      · exact Text.isWhitespace_of_isDigitOf hdigit
    refine ⟨String.ofList (displayIpAddr a), ⟨a, "whois.cymru.com:43"⟩, ?_, rfl⟩
    unfold TeamCymruProvider.withResource
    rw [String.toList_ofList, htrim, parseIpAddr_displayIpAddr]
    exact if_pos h

section Sent

variable {env : Env} {pg : Postgres} {config : IpContextConfig} {a : IpAddr}

theorem askOrigins_requests {answer : RoutingRequest → Except IpContextError ByteArray}
    {net : IpNet} {origins : List Nat} :
    RoutingRequest.networkInfo a ∉ (askOrigins answer net origins).1 := by
  induction origins with
  | nil => exact List.not_mem_nil
  | cons asn rest ih =>
    rw [askOrigins]
    split
    · simp
    · simpa using ih

/-- A lookup sends its address, and only if it is queryable. -/
theorem lookup_requests {answer : RoutingRequest → Except IpContextError ByteArray}
    {now : Instant} {ip : IpAddr} (h : .networkInfo a ∈ (lookup env answer now ip).1) :
    isQueryable a = true := by
  unfold lookup at h
  split at h
  · rename_i hquery
    have hsame : a = ip := by
      split at h
      · simpa using h
      · split at h
        · simpa using h
        · simpa using h
        · rcases List.mem_cons.1 h with heq | hrest
          · exact RoutingRequest.networkInfo.inj heq
          · exact absurd hrest askOrigins_requests
    exact hsame ▸ hquery
  · cases h

theorem processTarget_requests (turn : Turn) (target : NetworkContextTarget) (T : Contexts)
    (h : .networkInfo a ∈ (processTarget env pg config turn target T).1) :
    isQueryable a = true := by
  unfold processTarget at h
  split at h
  · cases h
  · split at h
    · split at h
      · rename_i hlookup
        exact lookup_requests (by rw [hlookup]; exact h)
      · rename_i hlookup
        exact lookup_requests (by rw [hlookup]; exact h)
    · cases h

theorem processTargets_requests {turns : String → Turn} {targets : List NetworkContextTarget}
    {report : CycleReport} {T : Contexts}
    (h : .networkInfo a ∈ (processTargets env pg config turns targets report T).1) :
    isQueryable a = true := by
  induction targets generalizing report T with
  | nil => cases h
  | cons target rest ih =>
    have hfirst : .networkInfo a ∈
        (processTarget env pg config (turns target.pseudonym) target T).1 → isQueryable a = true :=
      processTarget_requests _ _ _
    unfold processTargets at h
    rcases hturn : processTarget env pg config (turns target.pseudonym) target T with
      ⟨requests, T', error | count⟩
    · rw [hturn] at h hfirst
      exact hfirst h
    · rw [hturn] at h hfirst
      cases count with
      | rateLimited s => exact hfirst h
      | _ => exact (List.mem_append.1 h).elim hfirst ih

/-- The requests of the first target are among those of the loop. -/
theorem mem_processTargets {turns : String → Turn} {target : NetworkContextTarget}
    {rest : List NetworkContextTarget} {report : CycleReport} {T : Contexts}
    {request : RoutingRequest}
    (h : request ∈ (processTarget env pg config (turns target.pseudonym) target T).1) :
    request ∈ (processTargets env pg config turns (target :: rest) report T).1 := by
  unfold processTargets
  rcases hturn : processTarget env pg config (turns target.pseudonym) target T with
    ⟨requests, T', error | count⟩
  · rw [hturn] at h
    exact h
  · rw [hturn] at h
    cases count with
    | rateLimited s => exact h
    | _ => exact List.mem_append_left _ h

/-- One source that resolves to the address. -/
def sourceMoment (a : IpAddr) : Moment :=
  ⟨0, ⟨[⟨"pseudonym", hostNet a, seconds 3600⟩], List.nodup_singleton _⟩,
    [⟨"pseudonym", 90, 0⟩]⟩

/-- The API does not answer. -/
def silentTurn (a : IpAddr) : Turn :=
  ⟨fun _ => .error .transport, 0, sourceMoment a, sourceMoment a, Nat.le_refl _⟩

def sourceCycle (a : IpAddr) : Cycle :=
  ⟨0, sourceMoment a, fun _ => silentTurn a, fun _ => Nat.le_refl _⟩

theorem targets_sourceCycle (a : IpAddr) :
    (sourceCycle a).targets standardPostgres politeConfig startState.contexts =
      [⟨"pseudonym", String.ofList (displayIpAddr a)⟩] := by
  have htarget : isTarget (sourceMoment a) startState.contexts 3600 80
      ⟨"pseudonym", hostNet a, seconds 3600⟩ = true := by
    have hwidth : decide ((hostNet a).prefixLen = (hostNet a).addr.width) = true :=
      decide_eq_true rfl
    have hbest : best (sourceMoment a) 3600 "pseudonym" = some 90 := rfl
    unfold isTarget
    simp only [hbest, hwidth]
    rfl
  have hrows : (sourceMoment a).resolutions.rows.filter
      (isTarget (sourceMoment a) startState.contexts 3600 80) =
      [⟨"pseudonym", hostNet a, seconds 3600⟩] :=
    List.filter_cons_of_pos htarget
  show networkContextTargets standardPostgres (sourceMoment a) startState.contexts 5 3600 80 = _
  unfold networkContextTargets
  rw [hrows]
  rfl

theorem askedWorker_iff (a : IpAddr) : AskedWorker a ↔ isQueryable a = true := by
  constructor
  · rintro ⟨env, pg, config, c, w, h⟩
    cases hwaits : c.waits w with
    | true =>
      unfold runCycle at h
      rw [if_pos hwaits] at h
      cases h
    | false =>
      obtain ⟨report, -, hrequests, -⟩ := runCycle_ready env pg config hwaits
      rw [hrequests] at h
      exact processTargets_requests h
  · intro h
    refine ⟨textEnv, standardPostgres, politeConfig, sourceCycle a, startState, ?_⟩
    have hturn : RoutingRequest.networkInfo a ∈ (processTarget textEnv standardPostgres
        politeConfig (silentTurn a) ⟨"pseudonym", String.ofList (displayIpAddr a)⟩
        startState.contexts).1 := by
      unfold processTarget
      simp only [String.toList_ofList, parseIpAddr_displayIpAddr, if_pos h]
      unfold lookup
      rw [if_pos h]
      exact List.mem_singleton.2 rfl
    have hwaits : (sourceCycle a).waits startState = false := rfl
    obtain ⟨report, -, hrequests, -⟩ := runCycle_ready textEnv standardPostgres politeConfig hwaits
    rw [hrequests, targets_sourceCycle]
    exact mem_processTargets hturn

end Sent

/-! ## Addresses kept from the services -/

theorem mappedAgrees_isQueryable (a : IpAddr) : MappedAgrees isQueryable a := by
  rintro x ipv4 rfl hipv4
  refine .inr ?_
  rw [isQueryable_v6]
  refine not_inBlock_of_apart (g := (0xffff * 2 ^ 32, 96)) ?_ (by decide)
  rw [← toIpv4Mapped_isSome, hipv4]
  rfl

theorem isGlobalAddress_of_publicV4 {a : BitVec 32} (h : publicV4 a = true) :
    isGlobalAddress (.v4 a) = true := by
  rw [publicV4_eq, Bool.not_eq_true', Bool.or_eq_false_iff, Bool.or_eq_false_iff] at h
  rw [isGlobalAddress_v4, h.1.1, h.2]
  rfl

/-- Only public addresses are sent, and mapped ones agree, exactly outside the two gaps. -/
theorem addressKept_iff (a : IpAddr) :
    AddressKept a ↔ providerGap a = false ∧ workerGap a = false := by
  constructor
  · intro h
    constructor
    · by_contra hgap
      obtain ⟨htaken, hnot⟩ := (providerGap_iff a).1 (Bool.eq_true_of_not_eq_false hgap)
      rw [h.provider ((askedProvider_iff a).2 htaken)] at hnot
      cases hnot
    · by_contra hgap
      obtain ⟨htaken, hnot⟩ := (workerGap_iff a).1 (Bool.eq_true_of_not_eq_false hgap)
      rw [h.worker ((askedWorker_iff a).2 htaken)] at hnot
      cases hnot
  · rintro ⟨hprovider, hworker⟩
    have hpublic : ∀ taken gap : Bool, (gap = true ↔ taken = true ∧ isPublic a = false) →
        gap = false → taken = true → isPublic a = true := by
      intro taken gap hiff hgap htaken
      by_contra hnot
      rw [hiff.2 ⟨htaken, Bool.eq_false_of_not_eq_true hnot⟩] at hgap
      cases hgap
    refine ⟨fun hasked =>
        hpublic _ _ (providerGap_iff a) hprovider ((askedProvider_iff a).1 hasked),
      fun hasked => hpublic _ _ (workerGap_iff a) hworker ((askedWorker_iff a).1 hasked), ?_,
      mappedAgrees_isQueryable a⟩
    rintro x ipv4 rfl hipv4
    have hipv4Public : publicV4 ipv4 = true := by
      unfold providerGap at hprovider
      simp only [hipv4, Bool.not_eq_false'] at hprovider
      exact hprovider
    rw [isGlobalAddress_of_publicV4 hipv4Public]
    cases isGlobalAddress (.v6 x) with
    | true => exact .inl rfl
    | false => exact .inr rfl

/-- A private address in its mapped spelling goes to the provider, which refuses the address
itself, and an address for documentation goes to the routing API. -/
theorem mapped_private_sent :
    ¬ AddressKept (.v6 0xffff0a000001) ∧ ¬ AddressKept (.v4 0xc0000201) ∧
      TeamCymruProvider.withResource "::ffff:10.0.0.1" =
        .ok ⟨.v6 0xffff0a000001, "whois.cymru.com:43"⟩ ∧
      TeamCymruProvider.withResource "10.0.0.1" =
        .error (.configuration "CLAWFORGE_TEAM_CYMRU_RESOURCE must be a public address") ∧
      AskedWorker (.v4 0xc0000201) := by
  have hsent : TeamCymruProvider.withResource "::ffff:10.0.0.1" =
      .ok ⟨.v6 0xffff0a000001, "whois.cymru.com:43"⟩ := by decide
  have hworker : AskedWorker (.v4 0xc0000201) := (askedWorker_iff _).2 (by decide)
  refine ⟨fun h => ?_, fun h => ?_, hsent, by decide, hworker⟩
  · exact absurd (h.provider ⟨_, _, hsent, rfl⟩) (by decide)
  · exact absurd (h.worker hworker) (by decide)

end Clawforge.PublicAddresses

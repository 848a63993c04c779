import Clawforge.Firewall.Target

/-!
# What a target denotes

The set of addresses of a parsed target, IPv4-mapped IPv6 addresses being
their IPv4 address. `ranges_overlap` decides whether two networks of one
family share an address; across families a shared address is always the IPv4
side of an IPv6 range wider than `::ffff:0:0/96`.
-/

namespace Clawforge.Firewall

open Clawforge.Net Kit

/-- The addresses of `addr/p` in the family of `addr`. -/
def addressRange : IpAddr → Nat → Set IpAddr
  | .v4 a, p => IpAddr.v4 '' network a p
  | .v6 a, p => IpAddr.v6 '' network a p

/-- The addresses a network denotes, each mapped address as its IPv4 address. -/
def denoted (net : IpAddr × Nat) : Set IpAddr :=
  normalizeAddress '' addressRange net.1 net.2

theorem denoted_v4 (a : BitVec 32) (p : Nat) :
    denoted (.v4 a, p) = IpAddr.v4 '' network a p := by
  show normalizeAddress '' (IpAddr.v4 '' network a p) = _
  rw [Set.image_image]
  rfl

theorem denoted_v6 (a : BitVec 128) (p : Nat) :
    denoted (.v6 a, p) = (fun x => normalizeAddress (.v6 x)) '' network a p := by
  show normalizeAddress '' (IpAddr.v6 '' network a p) = _
  rw [Set.image_image]

theorem normalize_v6_injective :
    Function.Injective fun x : BitVec 128 => normalizeAddress (.v6 x) := by
  intro x y h
  simp only [normalizeAddress] at h
  cases hx : toIpv4Mapped x with
  | none =>
    cases hy : toIpv4Mapped y with
    | none =>
      rw [hx, hy] at h
      exact IpAddr.v6.inj h
    | some w =>
      rw [hx, hy] at h
      cases h
  | some v =>
    cases hy : toIpv4Mapped y with
    | none =>
      rw [hx, hy] at h
      cases h
    | some w =>
      rw [hx, hy] at h
      have hvw : v = w := IpAddr.v4.inj h
      rw [eq_of_toIpv4Mapped hx, eq_of_toIpv4Mapped hy, hvw]

theorem toIpv4Mapped_of_normalized {a : BitVec 128}
    (h : normalizeAddress (.v6 a) = .v6 a) : toIpv4Mapped a = none := by
  cases ha : toIpv4Mapped a with
  | none => rfl
  | some v =>
    simp only [normalizeAddress, ha] at h
    cases h

/-! ## Overlap -/

theorem rangesOverlap_v4 (a b : BitVec 32) (p q : Nat) :
    rangesOverlap (.v4 a) p (.v4 b) q = true ↔ (network a p ∩ network b q).Nonempty := by
  rw [network_inter_nonempty_iff, ← and_prefixMask_eq_iff]
  exact beq_iff_eq

theorem rangesOverlap_v6 (a b : BitVec 128) (p q : Nat) :
    rangesOverlap (.v6 a) p (.v6 b) q = true ↔ (network a p ∩ network b q).Nonempty := by
  rw [network_inter_nonempty_iff, ← and_prefixMask_eq_iff]
  exact beq_iff_eq

theorem image_inter_nonempty {α β : Type} {f : α → β} (hf : Function.Injective f) (s t : Set α) :
    (f '' s ∩ f '' t).Nonempty ↔ (s ∩ t).Nonempty := by
  rw [← Set.image_inter hf, Set.image_nonempty]

/-- `ranges_overlap` decides whether two networks of one family share an address. -/
theorem rangesOverlap_iff (a b : IpAddr) (p q : Nat) :
    rangesOverlap a p b q = true ↔
      a.isIpv4 = b.isIpv4 ∧ (denoted (a, p) ∩ denoted (b, q)).Nonempty := by
  cases a with
  | v4 a =>
    cases b with
    | v4 b =>
      rw [denoted_v4, denoted_v4, image_inter_nonempty (fun x y h => IpAddr.v4.inj h),
        rangesOverlap_v4]
      simp [IpAddr.isIpv4]
    | v6 b => simp [rangesOverlap, IpAddr.isIpv4]
  | v6 a =>
    cases b with
    | v4 b => simp [rangesOverlap, IpAddr.isIpv4]
    | v6 b =>
      rw [denoted_v6, denoted_v6, image_inter_nonempty normalize_v6_injective, rangesOverlap_v6]
      simp [IpAddr.isIpv4]

/-- Only an IPv6 range of at most 95 bits holds a mapped address. -/
theorem prefix_le_of_mapped_mem {a x : BitVec 128} {p : Nat} {v : BitVec 32}
    (ha : toIpv4Mapped a = none) (hx : x ∈ network a p) (hv : toIpv4Mapped x = some v) :
    p ≤ 95 := by
  by_contra hp
  have hshift : a >>> 32 = x >>> 32 := by
    apply BitVec.eq_of_getLsbD_eq
    intro i _
    rw [BitVec.getLsbD_ushiftRight, BitVec.getLsbD_ushiftRight]
    exact (hx (32 + i) (by omega)).symm
  have hdiv : a.toNat / 2 ^ 32 = x.toNat / 2 ^ 32 := by
    have := congrArg BitVec.toNat hshift
    simpa [Nat.shiftRight_eq_div_pow] using this
  unfold toIpv4Mapped at ha hv
  by_cases hmap : x.toNat / 2 ^ 32 = 0xffff
  · rw [hdiv, if_pos hmap] at ha
    cases ha
  · rw [if_neg hmap] at hv
    cases hv

theorem prefix_le_of_v4_mem {a : BitVec 128} {p : Nat} {v : BitVec 32}
    (ha : normalizeAddress (.v6 a) = .v6 a) (h : IpAddr.v4 v ∈ denoted (.v6 a, p)) : p ≤ 95 := by
  rw [denoted_v6] at h
  obtain ⟨x, hx, hnorm⟩ := h
  cases hv : toIpv4Mapped x with
  | some w => exact prefix_le_of_mapped_mem (toIpv4Mapped_of_normalized ha) hx hv
  | none =>
    simp only [normalizeAddress, hv] at hnorm
    cases hnorm

/-- An address shared across families lies in an IPv6 range of at most 95 bits. -/
theorem prefix_le_of_overlap {a b : IpAddr} {p q : Nat} (ha : normalizeAddress a = a)
    (hb : normalizeAddress b = b) (h : (denoted (a, p) ∩ denoted (b, q)).Nonempty)
    (hfamily : a.isIpv4 ≠ b.isIpv4) :
    (a.isIpv4 = false ∧ p ≤ 95) ∨ (b.isIpv4 = false ∧ q ≤ 95) := by
  obtain ⟨z, hza, hzb⟩ := h
  cases a with
  | v4 a =>
    cases b with
    | v4 b => exact absurd rfl hfamily
    | v6 b =>
      rw [denoted_v4] at hza
      obtain ⟨x, -, rfl⟩ := hza
      exact .inr ⟨rfl, prefix_le_of_v4_mem hb hzb⟩
  | v6 a =>
    cases b with
    | v6 b => exact absurd rfl hfamily
    | v4 b =>
      rw [denoted_v4] at hzb
      obtain ⟨x, -, rfl⟩ := hzb
      exact .inl ⟨rfl, prefix_le_of_v4_mem ha hza⟩

/-! ## Equality -/

theorem self_mem_denoted {a : IpAddr} (ha : normalizeAddress a = a) (p : Nat) :
    a ∈ denoted (a, p) := by
  cases a with
  | v4 a =>
    rw [denoted_v4]
    exact ⟨a, self_mem_network a p, rfl⟩
  | v6 a =>
    rw [denoted_v6]
    exact ⟨a, self_mem_network a p, ha⟩

/-- Normalised networks that denote one set have one prefix length. -/
theorem prefix_eq_of_denoted_eq {a b : IpAddr} {p q : Nat} (ha : normalizeAddress a = a)
    (hb : normalizeAddress b = b) (hp : p ≤ fullPrefix a) (hq : q ≤ fullPrefix b)
    (h : denoted (a, p) = denoted (b, q)) : p = q := by
  cases a with
  | v4 a =>
    cases b with
    | v4 b =>
      rw [denoted_v4, denoted_v4] at h
      have hnet := Set.image_injective.mpr (fun x y h => IpAddr.v4.inj h) h
      exact ((network_eq_network_iff hp hq).mp hnet).1
    | v6 b =>
      have hmem : IpAddr.v6 b ∈ denoted (.v4 a, p) := h ▸ self_mem_denoted hb q
      rw [denoted_v4] at hmem
      obtain ⟨x, -, hx⟩ := hmem
      cases hx
  | v6 a =>
    cases b with
    | v4 b =>
      have hmem : IpAddr.v6 a ∈ denoted (.v4 b, q) := h ▸ self_mem_denoted ha p
      rw [denoted_v4] at hmem
      obtain ⟨x, -, hx⟩ := hmem
      cases hx
    | v6 b =>
      rw [denoted_v6, denoted_v6] at h
      have hnet := Set.image_injective.mpr normalize_v6_injective h
      exact ((network_eq_network_iff hp hq).mp hnet).1

end Clawforge.Firewall

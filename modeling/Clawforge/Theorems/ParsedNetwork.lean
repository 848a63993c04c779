import Clawforge.Firewall.Denotation

/-!
# A parsed network denotes what its text denotes

`parse_ip_or_cidr` normalises the base address and leaves the prefix length as it was written.
A mapped IPv6 base with a prefix is then read as an IPv4 network of that same length: up to 32
bits it denotes another set of addresses than the text, and from 96 bits on, where the text is
an IPv4 network of 96 bits less, it is refused.
-/

namespace Clawforge.Firewall

open Clawforge.Net Clawforge.Text Kit Option

/-! ## What a text denotes -/

/-- The base and prefix as they are written, in the family they are written in. -/
def writtenCidr (text : String) : Option (IpAddr × Option Nat) :=
  match splitOnce '/' text.toList with
  | some (addr, prefixText) => do
      let addr ← parseIpAddr addr
      let prefixLen ← parseU8 prefixText
      if fullPrefix addr < prefixLen then none else some (addr, some prefixLen)
  | none => do
      let addr ← parseIpAddr text.toList
      some (addr, none)

/-- A network inside `::ffff:0:0/96`. -/
def InsideMapped : IpAddr × Nat → Prop
  | (.v4 _, _) => False
  | (.v6 a, p) => network a p ⊆ network 0xffff00000000 96

/-- An accepted text denotes the parsed network, and every text of a network inside
`::ffff:0:0/96` is accepted. -/
structure PreservesDenotation (text : String) : Prop where
  denotes : ∀ addr prefixLen, parseIpOrCidr text = some (addr, prefixLen) →
    ∃ base len, writtenCidr text = some (base, len) ∧
      denoted (addr, prefixOr addr prefixLen) = denoted (base, prefixOr base len)
  accepts : ∀ base len, writtenCidr text = some (base, len) →
    InsideMapped (base, prefixOr base len) → (parseIpOrCidr text).isSome = true

/-! ## The mapped block -/

variable {a : BitVec 128} {v : BitVec 32}

/-- The last 32 bits of a network of at least 96 bits. -/
theorem mem_network_96 {x : BitVec 128} {q : Nat} (hq : q ≤ 32) :
    x ∈ network a (96 + q) ↔ x.toNat / 2 ^ 32 = a.toNat / 2 ^ 32 ∧
      BitVec.ofNat 32 x.toNat ∈ network (BitVec.ofNat 32 a.toNat) q := by
  have hlow : ∀ (y : BitVec 128) (i : Nat), i < 32 →
      (BitVec.ofNat 32 y.toNat).getLsbD i = y.getLsbD i := by
    intro y i hi
    rw [BitVec.getLsbD_ofNat, BitVec.testBit_toNat]
    simp [hi]
  have hhigh : ∀ (y : BitVec 128) (i : Nat), 32 ≤ i →
      y.getLsbD i = (y.toNat / 2 ^ 32).testBit (i - 32) := by
    intro y i hi
    rw [Nat.testBit_div_two_pow, BitVec.testBit_toNat]
    congr 1
    omega
  constructor
  · intro h
    refine ⟨Nat.eq_of_testBit_eq fun i => ?_, fun i hi => ?_⟩
    · have hbit := h (i + 32) (by omega)
      rw [hhigh x _ (by omega), hhigh a _ (by omega)] at hbit
      simpa using hbit
    · by_cases h32 : i < 32
      · rw [hlow x i h32, hlow a i h32]
        exact h i (by omega)
      · rw [BitVec.getLsbD_of_ge _ _ (by omega), BitVec.getLsbD_of_ge _ _ (by omega)]
  · rintro ⟨hdiv, hnet⟩ i hi
    by_cases h32 : i < 32
    · rw [← hlow x i h32, ← hlow a i h32]
      exact hnet i (by omega)
    · rw [hhigh x i (by omega), hhigh a i (by omega), hdiv]

theorem toIpv4Mapped_eq_some_iff :
    toIpv4Mapped a = some v ↔ a.toNat / 2 ^ 32 = 0xffff ∧ BitVec.ofNat 32 a.toNat = v := by
  unfold toIpv4Mapped
  split <;> simp_all

/-- A network inside `::ffff:0:0/96` is the IPv4 network of 96 bits less. -/
theorem denoted_mapped {q : Nat} (ha : toIpv4Mapped a = some v) (hq : q ≤ 32) :
    denoted (.v6 a, 96 + q) = denoted (.v4 v, q) := by
  obtain ⟨hdiv, rfl⟩ := toIpv4Mapped_eq_some_iff.mp ha
  rw [denoted_v6, denoted_v4]
  ext z
  constructor
  · rintro ⟨x, hx, rfl⟩
    obtain ⟨hx, hnet⟩ := (mem_network_96 hq).mp hx
    have hmapped : toIpv4Mapped x = some (BitVec.ofNat 32 x.toNat) :=
      toIpv4Mapped_eq_some_iff.mpr ⟨hx.trans hdiv, rfl⟩
    refine ⟨BitVec.ofNat 32 x.toNat, hnet, ?_⟩
    simp only [normalizeAddress, hmapped]
  · rintro ⟨y, hy, rfl⟩
    have hy32 := y.isLt
    have hval : (BitVec.ofNat 128 (0xffff * 2 ^ 32 + y.toNat)).toNat =
        0xffff * 2 ^ 32 + y.toNat := by
      rw [BitVec.toNat_ofNat]
      exact Nat.mod_eq_of_lt (by omega)
    have hmapped : toIpv4Mapped (BitVec.ofNat 128 (0xffff * 2 ^ 32 + y.toNat)) = some y := by
      refine toIpv4Mapped_eq_some_iff.mpr ⟨by omega, BitVec.eq_of_toNat_eq ?_⟩
      rw [hval, BitVec.toNat_ofNat]
      omega
    obtain ⟨hdivX, hlowX⟩ := toIpv4Mapped_eq_some_iff.mp hmapped
    refine ⟨_, (mem_network_96 hq).mpr ⟨hdivX.trans hdiv.symm, hlowX.symm ▸ hy⟩, ?_⟩
    simp only [normalizeAddress, hmapped]

/-- The networks inside the block are those with a mapped base and at least 96 bits. -/
theorem insideMapped_v6_iff {p : Nat} :
    InsideMapped (.v6 a, p) ↔ (toIpv4Mapped a).isSome = true ∧ 96 ≤ p := by
  have hbase : a ∈ network (0xffff00000000 : BitVec 128) (96 + 0) ↔ a.toNat / 2 ^ 32 = 0xffff := by
    rw [mem_network_96 (Nat.zero_le _)]
    refine ⟨fun h => h.1, fun h => ⟨h, fun i hi => ?_⟩⟩
    rw [BitVec.getLsbD_of_ge _ _ (by omega), BitVec.getLsbD_of_ge _ _ (by omega)]
  have hsome : (toIpv4Mapped a).isSome = true ↔ a.toNat / 2 ^ 32 = 0xffff := by
    unfold toIpv4Mapped
    split <;> simp_all
  rw [hsome, ← hbase]
  constructor
  · intro h
    exact ⟨h (self_mem_network a p), prefix_le_of_network_subset (by decide) h⟩
  · rintro ⟨hmem, hp⟩
    have hsub : network a p ⊆ network a 96 := network_anti hp
    rwa [network_eq_of_mem hmem] at hsub

/-- Below 96 bits a network holds addresses outside the block. -/
theorem denoted_v4_ne_v6 {p q : Nat} (hp : p < 96) : denoted (.v4 v, q) ≠ denoted (.v6 a, p) := by
  intro heq
  have hall : InsideMapped (.v6 a, p) := by
    intro x hx
    have hmem : normalizeAddress (.v6 x) ∈ denoted (.v4 v, q) := by
      rw [heq, denoted_v6]
      exact ⟨x, hx, rfl⟩
    rw [denoted_v4] at hmem
    obtain ⟨y, -, hy⟩ := hmem
    cases hx4 : toIpv4Mapped x with
    | none =>
      simp only [normalizeAddress, hx4] at hy
      cases hy
    | some w =>
      have hinside : InsideMapped (.v6 x, 96) :=
        insideMapped_v6_iff.mpr ⟨by rw [hx4]; rfl, Nat.le_refl _⟩
      exact hinside (self_mem_network x 96)
  have := (insideMapped_v6_iff.mp hall).2
  omega

/-! ## The parser -/

/-- What the parser makes of a text's base and prefix. -/
theorem parseIpOrCidr_eq (text : String) :
    parseIpOrCidr text = (writtenCidr text).bind fun (base, len) =>
      if fullPrefix (normalizeAddress base) < prefixOr (normalizeAddress base) len then none
      else some (normalizeAddress base, len) := by
  have hnarrow : ∀ base, fullPrefix (normalizeAddress base) ≤ fullPrefix base := by
    intro base
    cases base with
    | v4 a => exact Nat.le_refl _
    | v6 a => cases hv : toIpv4Mapped a <;> simp [normalizeAddress, hv, fullPrefix, IpAddr.isIpv4]
  unfold parseIpOrCidr writtenCidr
  cases splitOnce '/' text.toList with
  | none =>
    dsimp only
    cases parseIpAddr text.toList with
    | none => rfl
    | some base => simp [prefixOr]
  | some pieces =>
    obtain ⟨addr, prefixText⟩ := pieces
    dsimp only
    cases parseIpAddr addr with
    | none => rfl
    | some base =>
      cases parseU8 prefixText with
      | none => rfl
      | some p =>
        have hle := hnarrow base
        by_cases hp : fullPrefix base < p
        · simp [hp, Nat.lt_of_le_of_lt hle hp]
        · simp only [bind_eq_bind, bind_some, if_neg hp]
          rfl

/-- Parsing preserves what the text denotes exactly where no mapped base stands with a prefix
of at most 32 bits or of 96 bits and more. -/
theorem parsing_preserves_iff (text : String) :
    PreservesDenotation text ↔
      ∀ a p, writtenCidr text = some (.v6 a, some p) → (toIpv4Mapped a).isSome = true →
        32 < p ∧ p < 96 := by
  have hparse := parseIpOrCidr_eq text
  constructor
  · intro h a p hwritten ha
    obtain ⟨v, hv⟩ := isSome_iff_exists.mp ha
    rw [hwritten, bind_some] at hparse
    have hbase : normalizeAddress (.v6 a) = .v4 v := by simp only [normalizeAddress, hv]
    simp only [hbase, prefixOr, getD_some, fullPrefix, IpAddr.isIpv4, if_true] at hparse
    have hlong : 32 < p := by
      by_contra hshort
      rw [if_neg hshort] at hparse
      obtain ⟨base, len, hwritten', heq⟩ := h.denotes _ _ hparse
      rw [hwritten] at hwritten'
      cases hwritten'
      have hp : prefixOr (.v6 a) (some p) < 96 := by
        show p < 96
        omega
      exact denoted_v4_ne_v6 hp heq
    refine ⟨hlong, ?_⟩
    by_contra hinside
    have hsome := h.accepts _ _ hwritten (insideMapped_v6_iff.mpr ⟨ha, by
      show 96 ≤ p
      omega⟩)
    rw [hparse, if_pos hlong] at hsome
    cases hsome
  · intro h
    refine ⟨fun addr prefixLen hok => ?_, fun base len hwritten hinside => ?_⟩
    · rw [hparse, bind_eq_some_iff] at hok
      obtain ⟨⟨base, len⟩, hwritten, hok⟩ := hok
      dsimp only at hok
      split at hok
      · cases hok
      · next hle =>
        obtain ⟨rfl, rfl⟩ := Prod.mk.inj (some.inj hok)
        refine ⟨base, len, hwritten, ?_⟩
        cases base with
        | v4 a => rfl
        | v6 a =>
          cases hv : toIpv4Mapped a with
          | none => simp only [normalizeAddress, hv]
          | some v =>
            have hbase : normalizeAddress (.v6 a) = .v4 v := by simp only [normalizeAddress, hv]
            rw [hbase] at hle ⊢
            cases len with
            | none => exact (denoted_mapped hv (Nat.le_refl 32)).symm
            | some p =>
              have hbad := h a p hwritten (by rw [hv]; rfl)
              have hle' : ¬ 32 < p := hle
              omega
    · cases base with
      | v4 a => cases hinside
      | v6 a =>
        obtain ⟨ha, hp⟩ := insideMapped_v6_iff.mp hinside
        obtain ⟨v, hv⟩ := isSome_iff_exists.mp ha
        have hbase : normalizeAddress (.v6 a) = .v4 v := by simp only [normalizeAddress, hv]
        cases len with
        | none =>
          rw [hparse, hwritten, bind_some]
          dsimp only
          rw [hbase]
          rfl
        | some p =>
          have hbad := h a p hwritten ha
          have hp' : 96 ≤ p := hp
          omega

/-- The text of `10.0.0.0/8` in the mapped block is refused, and the mapped text of a /8 of
IPv6 is taken for `10.0.0.0/8`. -/
theorem mapped_prefix_not_rebased :
    ¬ PreservesDenotation "::ffff:10.0.0.0/104" ∧ ¬ PreservesDenotation "::ffff:10.0.0.0/8" := by
  constructor
  · intro h
    have hinside : InsideMapped (.v6 0xffff0a000000, 104) :=
      insideMapped_v6_iff.mpr ⟨by decide, by decide⟩
    have hsome := h.accepts (.v6 0xffff0a000000) (some 104) (by decide) hinside
    revert hsome
    decide
  · intro h
    obtain ⟨base, len, hwritten, heq⟩ := h.denotes (.v4 0x0a000000) (some 8) (by decide)
    have hnet : writtenCidr "::ffff:10.0.0.0/8" = some (.v6 0xffff0a000000, some 8) := by decide
    rw [hnet] at hwritten
    cases hwritten
    exact denoted_v4_ne_v6 (by decide) heq

end Clawforge.Firewall

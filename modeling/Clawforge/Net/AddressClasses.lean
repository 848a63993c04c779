import Clawforge.Net.IpAddr

/-!
# Classes of addresses

The predicates of `std::net` on octets and segments, and the blocks of the special-purpose
address registries as numbers.
-/

namespace Clawforge.Net

open Kit List

/-! ## Octets and segments -/

/-- `octets()[i]`. -/
def octet (a : BitVec 32) (i : Nat) : Nat := (octets a).getD i 0

/-- `segments()[i]`. -/
def segment (a : BitVec 128) (i : Nat) : Nat := (segments a).getD i 0

theorem octet_zero (a : BitVec 32) : octet a 0 = a.toNat / 2 ^ 24 := by
  have hlt := a.isLt
  simp only [octet, octets, toBigEndian, nil_append, cons_append, getD_cons_zero,
    Nat.div_div_eq_div_mul, Nat.reduceMul, Nat.reducePow]
  omega

theorem octet_one (a : BitVec 32) : octet a 1 = a.toNat / 2 ^ 16 % 256 := by
  simp only [octet, octets, toBigEndian, nil_append, cons_append,
    getD_cons_succ, getD_cons_zero, Nat.div_div_eq_div_mul, Nat.reduceMul,
    Nat.reducePow]

theorem octet_two (a : BitVec 32) : octet a 2 = a.toNat / 2 ^ 8 % 256 := by
  simp only [octet, octets, toBigEndian, nil_append, cons_append,
    getD_cons_succ, getD_cons_zero, Nat.reducePow]

theorem segment_zero (a : BitVec 128) : segment a 0 = a.toNat / 2 ^ 112 := by
  have hlt := a.isLt
  simp only [segment, segments, toBigEndian, nil_append, cons_append,
    getD_cons_zero, Nat.div_div_eq_div_mul, Nat.reduceMul, Nat.reducePow]
  omega

theorem segment_one (a : BitVec 128) : segment a 1 = a.toNat / 2 ^ 96 % 65536 := by
  simp only [segment, segments, toBigEndian, nil_append, cons_append,
    getD_cons_succ, getD_cons_zero, Nat.div_div_eq_div_mul, Nat.reduceMul,
    Nat.reducePow]

/-- Masking a number of `w` bits with its leading ones. -/
theorem land_leading {w k x : Nat} (h : x < 2 ^ w) (hk : k ≤ w) :
    x &&& (2 ^ w - 2 ^ k) = x / 2 ^ k * 2 ^ k := by
  have hmask : 2 ^ w - 2 ^ k = (2 ^ (w - k) - 1) <<< k := by
    rw [Nat.shiftLeft_eq, Nat.sub_mul, Nat.one_mul, ← Nat.pow_add, Nat.sub_add_cancel hk]
  apply Nat.eq_of_testBit_eq
  intro i
  rw [hmask, Nat.testBit_and, Nat.testBit_shiftLeft, Nat.testBit_two_pow_sub_one,
    Nat.testBit_mul_two_pow, Nat.testBit_div_two_pow]
  by_cases hi : k ≤ i
  · by_cases hiw : i - k < w - k
    · simp [hi, hiw, Nat.sub_add_cancel hi]
    · have hzero : x.testBit i = false :=
        Nat.testBit_lt_two_pow (Nat.lt_of_lt_of_le h (Nat.pow_le_pow_right (by omega) (by omega)))
      simp [hi, Nat.sub_add_cancel hi, hzero]
  · simp [hi]

/-! ## `Ipv4Addr` -/

namespace Ipv4

variable (a : BitVec 32)

def isUnspecified : Bool := a.toNat = 0

def isLoopback : Bool := octet a 0 = 127

def isPrivate : Bool :=
  octet a 0 = 10 || (octet a 0 = 172 && 16 ≤ octet a 1 && octet a 1 ≤ 31) ||
    (octet a 0 = 192 && octet a 1 = 168)

def isLinkLocal : Bool := octet a 0 = 169 && octet a 1 = 254

def isMulticast : Bool := 224 ≤ octet a 0 && octet a 0 ≤ 239

def isBroadcast : Bool := a.toNat = 0xffffffff

def isDocumentation : Bool :=
  (octet a 0 = 192 && octet a 1 = 0 && octet a 2 = 2) ||
    (octet a 0 = 198 && octet a 1 = 51 && octet a 2 = 100) ||
    (octet a 0 = 203 && octet a 1 = 0 && octet a 2 = 113)

end Ipv4

/-! ## `Ipv6Addr` -/

namespace Ipv6

variable (a : BitVec 128)

def isUnspecified : Bool := a.toNat = 0

def isLoopback : Bool := a.toNat = 1

/-- The first eight bits are set. -/
def isMulticast : Bool := segment a 0 &&& 0xff00 = 0xff00

end Ipv6

/-! ## Blocks -/

/-- The number lies in the block of a base and a prefix length. -/
def inBlock (width : Nat) (block : Nat × Nat) (n : Nat) : Bool :=
  n / 2 ^ (width - block.2) = block.1 / 2 ^ (width - block.2)

/-- IPv4 that is not public: this network and the unspecified address, private, shared,
loopback, link-local, private, protocol assignments, documentation, private, benchmarking,
documentation twice, multicast, and reserved with the broadcast address. -/
def nonPublicV4 : List (Nat × Nat) :=
  [ (0x00000000, 8), (0x0a000000, 8), (0x64400000, 10), (0x7f000000, 8), (0xa9fe0000, 16)
  , (0xac100000, 12), (0xc0000000, 24), (0xc0000200, 24), (0xc0a80000, 16), (0xc6120000, 15)
  , (0xc6336400, 24), (0xcb007100, 24), (0xe0000000, 4), (0xf0000000, 4) ]

/-- Global unicast, `2000::/3`; the rest of IPv6 is unspecified, loopback, unique local,
link-local, multicast or reserved. -/
def globalUnicast : Nat × Nat := (0x2000 * 2 ^ 112, 3)

/-- Inside it: benchmarking and the two blocks for documentation. -/
def nonPublicV6 : List (Nat × Nat) :=
  [(0x200100020000 * 2 ^ 80, 48), (0x20010db8 * 2 ^ 96, 32), (0x3fff * 2 ^ 112, 20)]

def publicV4 (a : BitVec 32) : Bool := !nonPublicV4.any (fun b => inBlock 32 b a.toNat)

/-- A public unicast address; an IPv4-mapped one is public as its IPv4 address is. -/
def isPublic : IpAddr → Bool
  | .v4 a => publicV4 a
  | .v6 a =>
    match toIpv4Mapped a with
    | some ipv4 => publicV4 ipv4
    | none =>
      inBlock 128 globalUnicast a.toNat && !nonPublicV6.any (fun b => inBlock 128 b a.toNat)

end Clawforge.Net

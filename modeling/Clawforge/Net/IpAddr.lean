import Clawforge.Kit.Prefix
import Clawforge.Text

/-!
# `std::net::IpAddr`: its `FromStr` and its `Display`

The address parser reads an IPv4 address first and an IPv6 address only when
that fails; a read that does not consume the whole text is refused. IPv6 text
may end in an embedded IPv4 address, and `::` stands for at least one group.
`Display` writes mapped addresses in mixed notation and otherwise shortens the
first of the longest runs of two or more zero groups.
-/

namespace Clawforge.Net

open Kit List Option

/-- `std::net::IpAddr`, each family as its address bits. -/
inductive IpAddr
  | v4 (bits : BitVec 32)
  | v6 (bits : BitVec 128)
deriving DecidableEq, Repr

namespace IpAddr

/-- `IpAddr::is_ipv4`. -/
def isIpv4 : IpAddr → Bool
  | .v4 _ => true
  | .v6 _ => false

end IpAddr

/-- `Ipv6Addr::segments` read back into an address. -/
def ofSegments (segments : List Nat) : BitVec 128 :=
  BitVec.ofNat 128 (ofBigEndian 65536 segments)

/-- `Ipv6Addr::segments`. -/
def segments (a : BitVec 128) : List Nat :=
  toBigEndian 65536 8 a.toNat

/-- `Ipv4Addr::octets`. -/
def octets (a : BitVec 32) : List Nat :=
  toBigEndian 256 4 a.toNat

/-- `Ipv6Addr::to_ipv4_mapped`: the last 32 bits of an address in `::ffff:0:0/96`. -/
def toIpv4Mapped (a : BitVec 128) : Option (BitVec 32) :=
  if a.toNat / 2 ^ 32 = 0xffff then some (BitVec.ofNat 32 a.toNat) else none

/-! ## Parsing -/

/-- A read of the parser: the value and the text that is left. -/
abbrev Read (α : Type) := Option (α × List Char)

/-- `read_given_char`. -/
def readGivenChar (target : Char) : List Char → Option (List Char)
  | c :: rest => if c = target then some rest else none
  | [] => none

/-- `read_number` with a bound on the digits; the value must fit below `limit`. -/
def readNumber (radix maxDigits : Nat) (allowZeroPrefix : Bool) (limit : Nat)
    (cs : List Char) : Read Nat :=
  let digits := cs.takeWhile (isDigitOf radix)
  if maxDigits < digits.length then none
  else if digits = [] then none
  else if !allowZeroPrefix && digits.head? == some '0' && 1 < digits.length then none
  else if numeralValue radix digits < limit then
    some (numeralValue radix digits, cs.dropWhile (isDigitOf radix))
  else none

/-- `read_separator`: no separator before the element of index 0. -/
def readSeparator {α : Type} (sep : Char) (index : Nat) (inner : List Char → Read α)
    (cs : List Char) : Read α :=
  if 0 < index then (readGivenChar sep cs).bind inner else inner cs

/-- The loop of `read_ipv4_addr`: `n` octets, the first of index `i`. -/
def readOctets : (n i : Nat) → List Char → Read (List Nat)
  | 0, _, cs => some ([], cs)
  | n + 1, i, cs =>
    (readSeparator '.' i (readNumber 10 3 false 256) cs).bind fun (octet, cs) =>
      (readOctets n (i + 1) cs).map fun (rest, cs) => (octet :: rest, cs)

/-- `read_ipv4_addr`. -/
def readIpv4Addr (cs : List Char) : Read (BitVec 32) :=
  (readOctets 4 0 cs).map fun (os, rest) => (BitVec.ofNat 32 (ofBigEndian 256 os), rest)

/-- What `read_groups` read: the groups, and whether an embedded IPv4 address ended them. -/
structure Groups where
  groups : List Nat
  embedded : Bool
deriving DecidableEq, Repr

/-- The loop of `read_groups` with `n` groups left, the next of index `i`. -/
def readGroups : (n i : Nat) → List Char → Groups × List Char
  | 0, _, cs => (⟨[], false⟩, cs)
  | n + 1, i, cs =>
    -- an embedded IPv4 address takes two groups
    match if 0 < n then readSeparator ':' i readIpv4Addr cs else none with
    | some (ipv4, rest) => (⟨toBigEndian 65536 2 ipv4.toNat, true⟩, rest)
    | none =>
      match readSeparator ':' i (readNumber 16 4 true 65536) cs with
      | some (group, rest) =>
        let (more, rest) := readGroups n (i + 1) rest
        (⟨group :: more.groups, more.embedded⟩, rest)
      | none => (⟨[], false⟩, cs)

/-- `read_ipv6_addr`. -/
def readIpv6Addr (cs : List Char) : Read (BitVec 128) :=
  let (head, cs) := readGroups 8 0 cs
  if head.groups.length = 8 then some (ofSegments head.groups, cs)
  else if head.embedded then none
  else
    (readGivenChar ':' cs).bind fun cs =>
      (readGivenChar ':' cs).map fun cs =>
        let (tail, cs) := readGroups (8 - (head.groups.length + 1)) 0 cs
        let zeroes := 8 - head.groups.length - tail.groups.length
        (ofSegments (head.groups ++ List.replicate zeroes 0 ++ tail.groups), cs)

/-- `read_ip_addr`. -/
def readIpAddr (cs : List Char) : Read IpAddr :=
  match readIpv4Addr cs with
  | some (a, rest) => some (.v4 a, rest)
  | none => (readIpv6Addr cs).map fun (a, rest) => (.v6 a, rest)

/-- `IpAddr::from_str`, on the characters of the text. -/
def parseIpAddr (cs : List Char) : Option IpAddr :=
  match readIpAddr cs with
  | some (a, []) => some a
  | _ => none

/-! ## Display -/

/-- `fmt_subslice`: numbers in one radix with a separator between them. -/
def fmtSubslice (sep : Char) (radix : Nat) : List Nat → List Char
  | [] => []
  | first :: tail =>
    Nat.toDigits radix first ++ tail.flatMap fun n => sep :: Nat.toDigits radix n

/-- A run of zero groups. -/
structure Span where
  start : Nat
  len : Nat
deriving DecidableEq, Repr

/-- One group of the search for the longest zero run: the longest so far and the
run the group before ended in. -/
def spanStep (longest current : Span) (i segment : Nat) : Span × Span :=
  if segment = 0 then
    let current : Span :=
      { start := if current.len = 0 then i else current.start, len := current.len + 1 }
    (if longest.len < current.len then current else longest, current)
  else (longest, ⟨0, 0⟩)

/-- The search from group `i` on. -/
def longestFrom : (i : Nat) → (longest current : Span) → List Nat → Span
  | _, longest, _, [] => longest
  | i, longest, current, segment :: rest =>
    let (longest, current) := spanStep longest current i segment
    longestFrom (i + 1) longest current rest

/-- The first of the longest runs of zero groups. -/
def longestZeroRun (segs : List Nat) : Span :=
  longestFrom 0 ⟨0, 0⟩ ⟨0, 0⟩ segs

/-- `Ipv4Addr`'s `Display`. -/
def displayIpv4 (a : BitVec 32) : List Char :=
  fmtSubslice '.' 10 (octets a)

/-- `Ipv6Addr`'s `Display`. -/
def displayIpv6 (a : BitVec 128) : List Char :=
  match toIpv4Mapped a with
  | some ipv4 => [':', ':', 'f', 'f', 'f', 'f', ':'] ++ displayIpv4 ipv4
  | none =>
    let segs := segments a
    let zeroes := longestZeroRun segs
    if 1 < zeroes.len then
      fmtSubslice ':' 16 (segs.take zeroes.start) ++ [':', ':'] ++
        fmtSubslice ':' 16 (segs.drop (zeroes.start + zeroes.len))
    else fmtSubslice ':' 16 segs

/-- `IpAddr`'s `Display`. -/
def displayIpAddr : IpAddr → List Char
  | .v4 a => displayIpv4 a
  | .v6 a => displayIpv6 a

/-! ## Reading what was written -/

theorem segments_length (a : BitVec 128) : (segments a).length = 8 := length_toBigEndian ..

variable {a : BitVec 128} {radix : Nat} {segs : List Nat}

theorem segment_lt {s : Nat} (h : s ∈ segments a) : s < 65536 :=
  lt_of_mem_toBigEndian (by decide) h

theorem ofSegments_segments (a : BitVec 128) : ofSegments (segments a) = a := by
  have hlt : a.toNat < 65536 ^ 8 := a.isLt
  unfold ofSegments segments
  rw [ofBigEndian_toBigEndian (by decide) hlt]
  exact BitVec.eq_of_toNat_eq (by simp)

theorem octet_lt {a : BitVec 32} {o : Nat} (h : o ∈ octets a) : o < 256 :=
  lt_of_mem_toBigEndian (by decide) h

variable {rest cs : List Char}

/-- A number that fits its field is read back, whatever follows it. -/
theorem readNumber_toDigits {maxDigits limit n : Nat} {allowZeroPrefix : Bool} (h1 : 1 < radix)
    (hr : radix ≤ 16) (hmax : 0 < maxDigits) (hlimit : limit ≤ radix ^ maxDigits) (hn : n < limit)
    (hrest : NumeralEnds radix rest) :
    readNumber radix maxDigits allowZeroPrefix limit (Nat.toDigits radix n ++ rest) =
      some (n, rest) := by
  have hdigits : ∀ c ∈ Nat.toDigits radix n, isDigitOf radix c = true :=
    fun c hc => isDigitOf_of_mem_toDigits h1 hr hc
  have hlen : (Nat.toDigits radix n).length ≤ maxDigits :=
    (Nat.length_toDigits_le_iff h1 hmax).mpr (by omega)
  have hzero : (!allowZeroPrefix && (Nat.toDigits radix n).head? == some '0' &&
      decide (1 < (Nat.toDigits radix n).length)) = false := by
    by_cases hlong : 1 < (Nat.toDigits radix n).length
    · have hpos : 0 < n := by
        by_contra h0
        have : n = 0 := by omega
        rw [this, Nat.toDigits_of_lt_base (by omega)] at hlong
        simp at hlong
      have := head_toDigits_ne_zero h1 hr hpos
      simp [this]
    · simp [hlong]
  unfold readNumber
  rw [takeWhile_digits hdigits hrest, dropWhile_digits hdigits hrest]
  show (if _ then _ else _) = _
  rw [if_neg (by omega), if_neg (toDigits_ne_nil _ _), hzero, numeralValue_toDigits h1 hr]
  simp [hn]

theorem readNumber_eq_none {maxDigits limit : Nat} {allowZeroPrefix : Bool}
    (h : NumeralEnds radix cs) : readNumber radix maxDigits allowZeroPrefix limit cs = none := by
  have hnil : cs.takeWhile (isDigitOf radix) = [] :=
    takeWhile_digits (forall_mem_nil _) h
  simp [readNumber, hnil]

/-- One octet of the dotted notation. -/
theorem readNumber_octet {o : Nat} (ho : o < 256) (hrest : NumeralEnds 10 rest) :
    readNumber 10 3 false 256 (Nat.toDigits 10 o ++ rest) = some (o, rest) :=
  readNumber_toDigits (by decide) (by decide) (by decide) (by decide) ho hrest

/-- One group of the colon notation. -/
theorem readNumber_group {g : Nat} (hg : g < 65536) (hrest : NumeralEnds 16 rest) :
    readNumber 16 4 true 65536 (Nat.toDigits 16 g ++ rest) = some (g, rest) :=
  readNumber_toDigits (by decide) (by decide) (by decide) (by decide) hg hrest

/-- A field list continues with its separator. -/
theorem numeralEnds_fields {sep : Char} (hsep : isDigitOf radix sep = false) (ns : List Nat)
    (hrest : NumeralEnds radix rest) :
    NumeralEnds radix ((ns.flatMap fun n => sep :: Nat.toDigits radix n) ++ rest) := by
  cases ns with
  | nil => exact hrest
  | cons n ns => exact numeralEnds_cons hsep

/-! ### IPv4 -/

theorem readOctets_succ_index {os : List Nat} (hos : ∀ o ∈ os, o < 256) {i : Nat} (hi : 0 < i)
    (hrest : NumeralEnds 10 rest) :
    readOctets os.length i ((os.flatMap fun o => '.' :: Nat.toDigits 10 o) ++ rest) =
      some (os, rest) := by
  induction os generalizing i with
  | nil => rfl
  | cons o os ih =>
    have hends := numeralEnds_fields (by decide : isDigitOf 10 '.' = false) os hrest
    have hread := readNumber_octet (hos o (by simp)) hends
    have htail := ih (fun p hp => hos p (by simp [hp])) (i := i + 1) (by omega)
    simp only [length_cons, flatMap_cons, cons_append, append_assoc,
      readOctets, readSeparator, hi, if_true, readGivenChar, bind_some, hread, htail,
      map_some]

/-- The first octet has no separator before it. -/
theorem readOctets_zero_index (n : Nat) (cs : List Char) :
    readOctets (n + 1) 0 cs =
      (readNumber 10 3 false 256 cs).bind fun (octet, cs) =>
        (readOctets n 1 cs).map fun (rest, cs) => (octet :: rest, cs) := rfl

theorem readIpv4Addr_displayIpv4 (a : BitVec 32) (hrest : NumeralEnds 10 rest) :
    readIpv4Addr (displayIpv4 a ++ rest) = some (a, rest) := by
  obtain ⟨first, tail, hcons⟩ : ∃ first tail, octets a = first :: tail :=
    exists_cons_of_length_eq_add_one (length_toBigEndian 256 4 a.toNat)
  have hlen : tail.length = 3 := by
    have := length_toBigEndian 256 4 a.toNat
    rw [show toBigEndian 256 4 a.toNat = octets a from rfl, hcons] at this
    simpa using this
  have hlt : ∀ o ∈ first :: tail, o < 256 := fun o ho => octet_lt (hcons ▸ ho)
  have hends := numeralEnds_fields (by decide : isDigitOf 10 '.' = false) tail hrest
  have hread := readNumber_octet (hlt first (by simp)) hends
  have htail := readOctets_succ_index (fun o ho => hlt o (mem_cons_of_mem first ho))
    (i := 1) (by decide) hrest
  rw [hlen] at htail
  have hoctets : readOctets 4 0 (displayIpv4 a ++ rest) = some (octets a, rest) := by
    rw [displayIpv4, hcons, readOctets_zero_index, fmtSubslice, append_assoc, hread]
    show (readOctets 3 1 _).map _ = _
    rw [htail]
    rfl
  have hval : a.toNat < 256 ^ 4 := a.isLt
  rw [readIpv4Addr, hoctets]
  show some (BitVec.ofNat 32 (ofBigEndian 256 (toBigEndian 256 4 a.toNat)), rest) = _
  rw [ofBigEndian_toBigEndian (by decide) hval]
  simp

/-- IPv4 text has a dot. -/
theorem readIpv4Addr_eq_none_of_no_dot (h : '.' ∉ cs) : readIpv4Addr cs = none := by
  have hdrop : readGivenChar '.' (cs.dropWhile (isDigitOf 10)) = none := by
    cases hd : cs.dropWhile (isDigitOf 10) with
    | nil => rfl
    | cons c rest =>
      have hc : c ∈ cs := (dropWhile_sublist _).subset (hd ▸ mem_cons_self)
      have hne : c ≠ '.' := fun heq => h (heq ▸ hc)
      simp [readGivenChar, hne]
  have hoctets : readOctets 4 0 cs = none := by
    rw [readOctets_zero_index]
    cases hnum : readNumber 10 3 false 256 cs with
    | none => rfl
    | some r =>
      have hrest : r.2 = cs.dropWhile (isDigitOf 10) := by
        unfold readNumber at hnum
        dsimp only at hnum
        split at hnum
        · cases hnum
        · split at hnum
          · cases hnum
          · split at hnum
            · cases hnum
            · split at hnum
              · cases hnum
                rfl
              · cases hnum
      simp [hrest, readOctets, readSeparator, hdrop]
  rw [readIpv4Addr, hoctets]
  rfl

/-! ### IPv6 -/

/-- The text after a run of groups: the end, or the `::` that shortens zeroes. -/
def GroupsEnd (rest : List Char) : Prop :=
  rest = [] ∨ ∃ more, rest = ':' :: ':' :: more

theorem GroupsEnd.numeralEnds (h : GroupsEnd rest) (radix : Nat) : NumeralEnds radix rest := by
  rcases h with rfl | ⟨more, rfl⟩
  · exact numeralEnds_nil radix
  · refine numeralEnds_cons ?_
    have : ∀ c, c = ':' → isDigitOf radix c = false := by
      rintro _ rfl
      simp [isDigitOf, digitValue]
    exact this ':' rfl

theorem GroupsEnd.readSeparator_eq_none (h : GroupsEnd rest) (i : Nat) :
    readSeparator ':' i (readNumber 16 4 true 65536) rest = none := by
  rcases h with rfl | ⟨more, rfl⟩
  · by_cases hi : 0 < i <;> simp [readSeparator, hi, readGivenChar, readNumber]
  · have hnum : ∀ cs, readNumber 16 4 true 65536 (':' :: cs) = none :=
      fun cs => readNumber_eq_none (numeralEnds_cons (by decide))
    by_cases hi : 0 < i <;> simp [readSeparator, hi, readGivenChar, hnum]

/-- Colon text has no embedded IPv4 address. -/
theorem readSeparator_ipv4_eq_none (h : '.' ∉ cs) (i : Nat) :
    readSeparator ':' i readIpv4Addr cs = none := by
  by_cases hi : 0 < i
  · cases cs with
    | nil => simp [readSeparator, hi, readGivenChar]
    | cons c rest =>
      have hrest : '.' ∉ rest := fun hmem => h (mem_cons_of_mem c hmem)
      by_cases hc : c = ':'
      · simp [readSeparator, hi, readGivenChar, hc, readIpv4Addr_eq_none_of_no_dot hrest]
      · simp [readSeparator, hi, readGivenChar, hc]
  · simp [readSeparator, hi, readIpv4Addr_eq_none_of_no_dot h]

theorem readGroups_of_end (h : GroupsEnd cs) (hdot : '.' ∉ cs) (n i : Nat) :
    readGroups n i cs = (⟨[], false⟩, cs) := by
  cases n with
  | zero => rfl
  | succ n =>
    simp only [readGroups, readSeparator_ipv4_eq_none hdot, h.readSeparator_eq_none, ite_self]

theorem readGroups_succ_index {gs : List Nat} (hgs : ∀ g ∈ gs, g < 65536) {n i : Nat} (hi : 0 < i)
    (hn : gs.length ≤ n) (hrest : GroupsEnd rest)
    (hdot : '.' ∉ (gs.flatMap fun g => ':' :: Nat.toDigits 16 g) ++ rest) :
    readGroups n i ((gs.flatMap fun g => ':' :: Nat.toDigits 16 g) ++ rest) =
      (⟨gs, false⟩, rest) := by
  induction gs generalizing n i with
  | nil => exact readGroups_of_end hrest hdot n i
  | cons g gs ih =>
    cases n with
    | zero => simp at hn
    | succ n =>
      have hends := numeralEnds_fields (by decide : isDigitOf 16 ':' = false) gs
        (hrest.numeralEnds 16)
      have hread := readNumber_group (hgs g (by simp)) hends
      have hmore := ih (fun p hp => hgs p (by simp [hp])) (n := n) (i := i + 1) (by omega)
        (by simpa using hn) (fun hmem => hdot (by
          simp only [flatMap_cons, append_assoc]
          exact mem_append_right _ hmem))
      simp only [readGroups, readSeparator_ipv4_eq_none hdot, ite_self]
      simp only [flatMap_cons, cons_append, append_assoc, readSeparator, hi,
        if_true, readGivenChar, bind_some, hread, hmore]

/-- A run of groups is read up to where it ends. -/
theorem readGroups_fmtSubslice {gs : List Nat} (hgs : ∀ g ∈ gs, g < 65536) {n : Nat}
    (hn : gs.length ≤ n) (hrest : GroupsEnd rest) (hdot : '.' ∉ fmtSubslice ':' 16 gs ++ rest) :
    readGroups n 0 (fmtSubslice ':' 16 gs ++ rest) = (⟨gs, false⟩, rest) := by
  cases gs with
  | nil => exact readGroups_of_end hrest hdot n 0
  | cons g gs =>
    cases n with
    | zero => simp at hn
    | succ n =>
      have hends := numeralEnds_fields (by decide : isDigitOf 16 ':' = false) gs
        (hrest.numeralEnds 16)
      have hread := readNumber_group (hgs g (by simp)) hends
      have htext : fmtSubslice ':' 16 (g :: gs) ++ rest =
          Nat.toDigits 16 g ++ ((gs.flatMap fun g => ':' :: Nat.toDigits 16 g) ++ rest) := by
        rw [fmtSubslice, append_assoc]
      have hmore := readGroups_succ_index (fun p hp => hgs p (mem_cons_of_mem g hp))
        (n := n) (i := 1) (by decide) (by simpa using hn) hrest (fun hmem => hdot (by
          rw [htext]
          exact mem_append_right _ hmem))
      simp only [readGroups, readSeparator_ipv4_eq_none hdot, ite_self]
      rw [htext]
      simp only [readSeparator, Nat.lt_irrefl, if_false, hread, hmore]

/-! ### Zero runs -/

/-- A span holds nothing but zero groups. -/
def ZeroSpan (segs : List Nat) (s : Span) : Prop :=
  ∃ pre post, segs = pre ++ List.replicate s.len 0 ++ post ∧ pre.length = s.start

theorem ZeroSpan.append {s : Span} (h : ZeroSpan segs s) (more : List Nat) :
    ZeroSpan (segs ++ more) s := by
  obtain ⟨pre, post, hsegs, hstart⟩ := h
  exact ⟨pre, post ++ more, by rw [hsegs, append_assoc], hstart⟩

/-- The search so far over the groups `seen`: the longest run is one of theirs and the
current run ends them. -/
structure SpanSearch (seen : List Nat) (longest current : Span) : Prop where
  longest_zero : 0 < longest.len → ZeroSpan seen longest
  current_zero : 0 < current.len →
    ∃ pre, seen = pre ++ List.replicate current.len 0 ∧ pre.length = current.start

theorem SpanSearch.step {seen : List Nat} {longest current : Span}
    (h : SpanSearch seen longest current) (segment : Nat) :
    SpanSearch (seen ++ [segment]) (spanStep longest current seen.length segment).1
      (spanStep longest current seen.length segment).2 := by
  unfold spanStep
  by_cases h0 : segment = 0
  · rw [if_pos h0]
    have hcurrent : ∃ pre, seen ++ [segment] = pre ++ List.replicate (current.len + 1) 0 ∧
        pre.length = if current.len = 0 then seen.length else current.start := by
      by_cases hlen : current.len = 0
      · exact ⟨seen, by simp [h0, hlen], by simp [hlen]⟩
      · obtain ⟨pre, hseen, hstart⟩ := h.current_zero (by omega)
        refine ⟨pre, ?_, by simp [hlen, hstart]⟩
        rw [hseen, h0, append_assoc, ← replicate_succ']
    dsimp only
    refine ⟨?_, fun _ => hcurrent⟩
    intro hlong
    split
    · obtain ⟨pre, hpre, hstart⟩ := hcurrent
      exact ⟨pre, [], by rw [hpre, append_nil], hstart⟩
    · next hle =>
      rw [if_neg hle] at hlong
      exact (h.longest_zero hlong).append [segment]
  · rw [if_neg h0]
    exact ⟨fun hlong => (h.longest_zero hlong).append [segment],
      fun hpos => absurd hpos (Nat.lt_irrefl 0)⟩

theorem SpanSearch.longestFrom_zero {seen rest : List Nat} {longest current : Span}
    (h : SpanSearch seen longest current)
    (hpos : 0 < (longestFrom seen.length longest current rest).len) :
    ZeroSpan (seen ++ rest) (longestFrom seen.length longest current rest) := by
  induction rest generalizing seen longest current with
  | nil => simpa [longestFrom] using h.longest_zero hpos
  | cons segment rest ih =>
    have hstep := h.step segment
    have hnext := ih hstep
    simp only [length_append, length_singleton, append_assoc,
      singleton_append] at hnext
    exact hnext hpos

theorem longestZeroRun_zero (h : 0 < (longestZeroRun segs).len) :
    ZeroSpan segs (longestZeroRun segs) := by
  have hstart : SpanSearch [] ⟨0, 0⟩ ⟨0, 0⟩ :=
    ⟨fun hpos => absurd hpos (by decide), fun hpos => absurd hpos (by decide)⟩
  exact hstart.longestFrom_zero h

/-- The groups around a zero run, and the run. -/
theorem ZeroSpan.split {s : Span} (h : ZeroSpan segs s) :
    segs = segs.take s.start ++ List.replicate s.len 0 ++ segs.drop (s.start + s.len) := by
  obtain ⟨pre, post, hsegs, hstart⟩ := h
  have htake : segs.take s.start = pre := by
    rw [hsegs, ← hstart, append_assoc]
    exact take_left
  have hdrop : segs.drop (s.start + s.len) = post := by
    have hlen : s.start + s.len = (pre ++ List.replicate s.len 0).length := by simp [hstart]
    rw [hlen, hsegs]
    exact drop_left
  rw [htake, hdrop]
  exact hsegs

/-! ### The round trip -/

theorem dot_not_mem_fmtSubslice (gs : List Nat) : '.' ∉ fmtSubslice ':' 16 gs := by
  have hdigits : ∀ g, '.' ∉ Nat.toDigits 16 g := by
    intro g hmem
    have : isDigitOf 16 '.' = true :=
      isDigitOf_of_mem_toDigits (by decide) (by decide) hmem
    exact absurd this (by decide)
  cases gs with
  | nil => simp [fmtSubslice]
  | cons g gs => simp [fmtSubslice, hdigits]

/-- The groups of an address that is written without a dot are read back. -/
theorem readIpv6Addr_unmapped (h : toIpv4Mapped a = none) :
    readIpv6Addr (displayIpv6 a) = some (a, []) := by
  have hlt : ∀ g ∈ segments a, g < 65536 := fun g hg => segment_lt hg
  rw [displayIpv6, h]
  dsimp only
  by_cases hrun : 1 < (longestZeroRun (segments a)).len
  · rw [if_pos hrun]
    have hlong : 0 < (longestZeroRun (segments a)).len := by omega
    have hsplit := (longestZeroRun_zero hlong).split
    generalize hspan : longestZeroRun (segments a) = s at *
    generalize hpre : (segments a).take s.start = pre at *
    generalize hpost : (segments a).drop (s.start + s.len) = post at *
    have hlen : pre.length + s.len + post.length = 8 := by
      have := segments_length a
      rw [hsplit] at this
      simpa [Nat.add_assoc] using this
    have hprelt : ∀ g ∈ pre, g < 65536 := fun g hg =>
      hlt g (hsplit ▸ mem_append_left _ (mem_append_left _ hg))
    have hpostlt : ∀ g ∈ post, g < 65536 := fun g hg =>
      hlt g (hsplit ▸ mem_append_right _ hg)
    have hdotPre := dot_not_mem_fmtSubslice pre
    have hdotPost := dot_not_mem_fmtSubslice post
    have hhead : readGroups 8 0 (fmtSubslice ':' 16 pre ++ ':' :: ':' :: fmtSubslice ':' 16 post) =
        (⟨pre, false⟩, ':' :: ':' :: fmtSubslice ':' 16 post) :=
      readGroups_fmtSubslice hprelt (by omega) (.inr ⟨_, rfl⟩) (by simp [hdotPre, hdotPost])
    have htail : readGroups (8 - (pre.length + 1)) 0 (fmtSubslice ':' 16 post) =
        (⟨post, false⟩, []) := by
      have := readGroups_fmtSubslice hpostlt (n := 8 - (pre.length + 1)) (by omega) (.inl rfl)
        (by simpa using hdotPost)
      rwa [append_nil] at this
    have hzeroes : 8 - pre.length - post.length = s.len := by omega
    have hne : pre.length ≠ 8 := by omega
    simp only [readIpv6Addr, append_assoc, cons_append, nil_append, hhead, hne,
      if_false, Bool.false_eq_true, readGivenChar, if_true, bind_some, map_some,
      htail, hzeroes]
    rw [← append_assoc, ← hsplit, ofSegments_segments]
  · rw [if_neg hrun]
    have hdot := dot_not_mem_fmtSubslice (segments a)
    have hhead := readGroups_fmtSubslice hlt (n := 8) (by rw [segments_length]) (.inl rfl)
      (by simpa using hdot)
    rw [append_nil] at hhead
    simp only [readIpv6Addr, hhead, segments_length, if_true, ofSegments_segments]

/-- A mapped address is its IPv4 address under `::ffff:`. -/
theorem eq_of_toIpv4Mapped {v4 : BitVec 32} (h : toIpv4Mapped a = some v4) :
    a = BitVec.ofNat 128 (0xffff * 2 ^ 32 + v4.toNat) := by
  unfold toIpv4Mapped at h
  by_cases hmap : a.toNat / 2 ^ 32 = 0xffff
  · rw [if_pos hmap] at h
    cases h
    apply BitVec.eq_of_toNat_eq
    have hdiv := Nat.div_add_mod a.toNat (2 ^ 32)
    rw [hmap] at hdiv
    have hlt := a.isLt
    simp only [BitVec.toNat_ofNat]
    omega
  · rw [if_neg hmap] at h
    cases h

theorem readIpv4Addr_eq_none (h : NumeralEnds 10 cs) : readIpv4Addr cs = none := by
  rw [readIpv4Addr, readOctets_zero_index, readNumber_eq_none h]
  rfl

theorem readIpv6Addr_mapped {v4 : BitVec 32} (h : toIpv4Mapped a = some v4) :
    readIpv6Addr (displayIpv6 a) = some (a, []) := by
  have hipv4 : readIpv4Addr (displayIpv4 v4) = some (v4, []) := by
    have := readIpv4Addr_displayIpv4 v4 (numeralEnds_nil 10)
    rwa [append_nil] at this
  have hhead : ∀ cs, readGroups 8 0 (':' :: cs) = (⟨[], false⟩, ':' :: cs) := by
    intro cs
    have hnum : readNumber 16 4 true 65536 (':' :: cs) = none :=
      readNumber_eq_none (numeralEnds_cons (by decide))
    have hv4 : readIpv4Addr (':' :: cs) = none :=
      readIpv4Addr_eq_none (numeralEnds_cons (by decide))
    simp [readGroups, readSeparator, hnum, hv4]
  have hffff : readNumber 16 4 true 65536 ('f' :: 'f' :: 'f' :: 'f' :: ':' :: displayIpv4 v4) =
      some (0xffff, ':' :: displayIpv4 v4) := by
    have hends : NumeralEnds 16 (':' :: displayIpv4 v4) := numeralEnds_cons (by decide)
    have htext : Nat.toDigits 16 0xffff = ['f', 'f', 'f', 'f'] := by decide
    have := readNumber_group (g := 0xffff) (by decide) hends
    rwa [htext] at this
  have hf : readIpv4Addr ('f' :: 'f' :: 'f' :: 'f' :: ':' :: displayIpv4 v4) = none :=
    readIpv4Addr_eq_none (numeralEnds_cons (by decide))
  have htail : readGroups 7 0 ('f' :: 'f' :: 'f' :: 'f' :: ':' :: displayIpv4 v4) =
      (⟨0xffff :: toBigEndian 65536 2 v4.toNat, true⟩, []) := by
    simp [readGroups, readSeparator, hffff, hf, readGivenChar, hipv4]
  rw [displayIpv6, h]
  simp only [readIpv6Addr, cons_append, nil_append, hhead, length_nil,
    readGivenChar, if_true, bind_some, map_some, htail]
  have hsegs : ofSegments (List.replicate 5 0 ++ 0xffff :: toBigEndian 65536 2 v4.toNat) = a := by
    have hvalue : ofBigEndian 65536 (List.replicate 5 0 ++ 0xffff :: toBigEndian 65536 2 v4.toNat) =
        0xffff * 2 ^ 32 + v4.toNat := by
      have hlt := v4.isLt
      simp only [ofBigEndian, toBigEndian, List.replicate, cons_append, nil_append,
        foldl_cons, foldl_nil]
      omega
    rw [ofSegments, hvalue, ← eq_of_toIpv4Mapped h]
  simpa using hsegs

theorem readIpv6Addr_displayIpv6 (a : BitVec 128) :
    readIpv6Addr (displayIpv6 a) = some (a, []) := by
  cases h : toIpv4Mapped a with
  | none => exact readIpv6Addr_unmapped h
  | some v4 => exact readIpv6Addr_mapped h

/-- IPv6 text is never taken for IPv4 text. -/
theorem readIpv4Addr_displayIpv6 (a : BitVec 128) : readIpv4Addr (displayIpv6 a) = none := by
  rw [displayIpv6]
  cases h : toIpv4Mapped a with
  | some v4 => exact readIpv4Addr_eq_none (numeralEnds_cons (by decide))
  | none =>
    apply readIpv4Addr_eq_none_of_no_dot
    dsimp only
    split <;> simp [dot_not_mem_fmtSubslice]

/-- Every address is parsed back from what `Display` writes for it. -/
theorem parseIpAddr_displayIpAddr (a : IpAddr) : parseIpAddr (displayIpAddr a) = some a := by
  cases a with
  | v4 a =>
    have hread := readIpv4Addr_displayIpv4 a (numeralEnds_nil 10)
    rw [append_nil] at hread
    simp [parseIpAddr, readIpAddr, displayIpAddr, hread]
  | v6 a =>
    simp [parseIpAddr, readIpAddr, displayIpAddr, readIpv4Addr_displayIpv6,
      readIpv6Addr_displayIpv6]

/-! ## How long the text is -/

theorem length_fmtSubslice {sep : Char} {k : Nat} (hr : 1 < radix) (hk : 0 < k) {ns : List Nat}
    (h : ∀ n ∈ ns, n < radix ^ k) : (fmtSubslice sep radix ns).length ≤ (k + 1) * ns.length := by
  have hdigits : ∀ n ∈ ns, (Nat.toDigits radix n).length ≤ k :=
    fun n hn => (Nat.length_toDigits_le_iff hr hk).2 (h n hn)
  have htail : ∀ ns : List Nat, (∀ n ∈ ns, (Nat.toDigits radix n).length ≤ k) →
      (ns.flatMap fun n => sep :: Nat.toDigits radix n).length ≤ (k + 1) * ns.length := by
    intro ns
    induction ns with
    | nil => simp
    | cons n ns ih =>
      intro h
      have hn := h n mem_cons_self
      have hns := ih (fun m hm => h m (mem_cons_of_mem _ hm))
      rw [flatMap_cons, length_append, length_cons, length_cons,
        Nat.mul_add]
      omega
  cases ns with
  | nil => simp [fmtSubslice]
  | cons n ns =>
    have hn := hdigits n mem_cons_self
    have hns := htail ns (fun m hm => hdigits m (mem_cons_of_mem _ hm))
    rw [fmtSubslice, length_append, length_cons, Nat.mul_add]
    omega

theorem length_displayIpv4 (a : BitVec 32) : (displayIpv4 a).length ≤ 16 := by
  have hlt : ∀ o ∈ octets a, o < 10 ^ 3 := by
    intro o ho
    have := octet_lt ho
    omega
  have hlen : (octets a).length = 4 := length_toBigEndian ..
  have hle : (displayIpv4 a).length ≤ (3 + 1) * (octets a).length :=
    length_fmtSubslice (by decide) (by decide) hlt
  rw [hlen] at hle
  exact hle

theorem length_displayIpAddr (a : IpAddr) : (displayIpAddr a).length ≤ 82 := by
  cases a with
  | v4 a =>
    have := length_displayIpv4 a
    simp only [displayIpAddr]
    omega
  | v6 a =>
    have hgroups : ∀ segs : List Nat, (∀ s ∈ segs, s ∈ segments a) →
        (fmtSubslice ':' 16 segs).length ≤ 5 * segs.length := by
      intro segs h
      refine length_fmtSubslice (by decide) (by decide) (fun s hs => ?_)
      have := segment_lt (h s hs)
      omega
    simp only [displayIpAddr, displayIpv6]
    split
    · rename_i ipv4 _
      have := length_displayIpv4 ipv4
      simp only [length_append, length_cons, length_nil]
      omega
    · split
      · have hhead := hgroups ((segments a).take (longestZeroRun (segments a)).start)
          (fun s hs => mem_of_mem_take hs)
        have htail := hgroups ((segments a).drop
          ((longestZeroRun (segments a)).start + (longestZeroRun (segments a)).len))
          (fun s hs => mem_of_mem_drop hs)
        have hlen := segments_length a
        rw [length_take] at hhead
        rw [length_drop] at htail
        rw [length_append, length_append]
        simp only [length_cons, length_nil]
        omega
      · have := hgroups (segments a) (fun s hs => hs)
        have hlen := segments_length a
        omega

end Clawforge.Net

/-! ## Networks in CIDR notation

An address with a prefix length, as the `ipnet` crate and the database's `inet` and
`cidr` types hold it. The address may have bits set to the right of the mask: `cidr`
refuses such a network, `ipnet` and `inet` keep it.
-/

namespace Clawforge.Net

open Kit

/-- The bits of an address of this family. -/
def IpAddr.width : IpAddr → Nat
  | .v4 _ => 32
  | .v6 _ => 128

/-- `ipnet::IpNet`. -/
structure IpNet where
  addr : IpAddr
  prefixLen : Nat
  prefixLen_le : prefixLen ≤ addr.width
deriving DecidableEq

namespace IpNet

/-- No bit is set to the right of the mask. -/
def isNetwork (n : IpNet) : Bool :=
  match n.addr with
  | .v4 a => a &&& prefixMask 32 n.prefixLen = a
  | .v6 a => a &&& prefixMask 128 n.prefixLen = a

/-- The operator `<<=` of a host and a network: one family, and the leading bits agree. -/
def contains (n : IpNet) (addr : IpAddr) : Bool :=
  match n.addr, addr with
  | .v4 a, .v4 x => x &&& prefixMask 32 n.prefixLen = a &&& prefixMask 32 n.prefixLen
  | .v6 a, .v6 x => x &&& prefixMask 128 n.prefixLen = a &&& prefixMask 128 n.prefixLen
  | _, _ => false

end IpNet

/-- A network in the notation every reader accepts: an address, `/` and the length in
decimal. A sign or further zeros before the length, which `ipnet` refuses, are taken. -/
def readIpNet (value : String) : Option IpNet :=
  match Text.splitOnce '/' value.toList with
  | none => none
  | some (address, length) =>
    match parseIpAddr address, Text.parseU8 length with
    | some addr, some n => if h : n ≤ addr.width then some ⟨addr, n, h⟩ else none
    | _, _ => none

end Clawforge.Net

import Clawforge.Kit.Numeral

/-!
# Rust text operations

The `str` methods the services parse configuration and targets with, over the
characters of the text.
-/

namespace Clawforge.Text

open Kit List

-- stated for the characters of a text so that no search over all of `Char` is chosen
instance decidableForallMem (P : Char → Prop) [DecidablePred P] (cs : List Char) :
    Decidable (∀ c ∈ cs, P c) :=
  List.decidableBAll P cs

/-- `char::is_whitespace`: the `White_Space` property. -/
def isWhitespace (c : Char) : Bool :=
  let n := c.toNat
  (9 ≤ n ∧ n ≤ 13) ∨ n = 0x20 ∨ n = 0x85 ∨ n = 0xa0 ∨ n = 0x1680 ∨ (0x2000 ≤ n ∧ n ≤ 0x200a) ∨
    n = 0x2028 ∨ n = 0x2029 ∨ n = 0x202f ∨ n = 0x205f ∨ n = 0x3000

/-- `str::trim`. -/
def trim (cs : List Char) : List Char :=
  ((cs.dropWhile isWhitespace).reverse.dropWhile isWhitespace).reverse

/-- `str::split_once` with a character. -/
def splitOnce (sep : Char) : List Char → Option (List Char × List Char)
  | [] => none
  | c :: cs =>
    if c = sep then some ([], cs)
    else (splitOnce sep cs).map fun (before, after) => (c :: before, after)

/-- `str::split(sep).map(trim)` without the empty pieces. -/
def trimmedPieces (sep : Char) (cs : List Char) : List (List Char) :=
  ((cs.splitOn sep).map trim).filter (· ≠ [])

/-- The sign an unsigned `from_str` accepts. -/
def stripPlus : List Char → List Char
  | '+' :: rest => rest
  | cs => cs

/-- `from_str` of an unsigned type: an optional `+`, then decimal digits, below `limit`. -/
def parseUnsigned (limit : Nat) (cs : List Char) : Option Nat :=
  let digits := stripPlus cs
  if digits ≠ [] ∧ digits.all (isDigitOf 10) ∧ numeralValue 10 digits < limit then
    some (numeralValue 10 digits)
  else none

/-- `u8::from_str`. -/
def parseU8 (cs : List Char) : Option Nat := parseUnsigned 256 cs

/-- `u64::from_str`. -/
def parseU64 (cs : List Char) : Option Nat := parseUnsigned (2 ^ 64) cs

/-- `i64::from_str`: an optional sign, then decimal digits, in range. -/
def parseI64 : List Char → Option Int
  | '-' :: digits =>
    if digits ≠ [] ∧ digits.all (isDigitOf 10) ∧ numeralValue 10 digits ≤ 2 ^ 63 then
      some (-(numeralValue 10 digits : Int))
    else none
  | cs => (parseUnsigned (2 ^ 63) cs).map Int.ofNat

/-- The lines of newline-separated pieces: `\r\n` ends a line too, and an empty last piece is
no line. -/
def linesOf : List (List Char) → List (List Char)
  | [] => []
  | [last] => if last = [] then [] else [last]
  | line :: next :: rest =>
    (if line.getLast? = some '\r' then line.dropLast else line) :: linesOf (next :: rest)

/-- `str::lines`. -/
def lines (cs : List Char) : List (List Char) := linesOf (cs.splitOn '\n')

/-- `str::split_whitespace`. -/
def splitWhitespace (cs : List Char) : List (List Char) :=
  (cs.splitOnP isWhitespace).filter (· ≠ [])

/-- `str::strip_prefix`. -/
def stripPrefix (head cs : List Char) : Option (List Char) :=
  if head.isPrefixOf cs then some (cs.drop head.length) else none

/-- `str::split_once` with a text. -/
def splitOnceOn (sep : List Char) : List Char → Option (List Char × List Char)
  | [] => if sep = [] then some ([], []) else none
  | c :: cs =>
    match stripPrefix sep (c :: cs) with
    | some after => some ([], after)
    | none => (splitOnceOn sep cs).map fun (before, after) => (c :: before, after)

/-- `str::starts_with`. -/
def startsWith (s head : String) : Bool := head.toList.isPrefixOf s.toList

/-- `str::contains` with a text. -/
def contains (part cs : List Char) : Bool := cs.tails.any (fun tail => part.isPrefixOf tail)

/-- `str::to_ascii_lowercase`. -/
def toAsciiLowercase (cs : List Char) : List Char := cs.map Char.toLower

/-- Heads that differ somewhere do not start one text. -/
theorem startsWith_eq_false {s head other : String} (hs : startsWith s head = true)
    (hne : ∃ p ∈ head.toList.zip other.toList, p.1 ≠ p.2) : startsWith s other = false := by
  by_contra hother
  rw [Bool.not_eq_false, startsWith, isPrefixOf_iff_prefix] at hother
  rw [startsWith, isPrefixOf_iff_prefix] at hs
  obtain ⟨p, hp, hne⟩ := hne
  obtain ⟨i, hi, rfl⟩ := mem_iff_getElem.mp hp
  rw [getElem_zip] at hne
  rw [length_zip, lt_min_iff] at hi
  exact hne ((hs.getElem hi.1).trans (hother.getElem hi.2).symm)

/-- One character under `{:?}`; every character from `U+0080` on counts as printable. -/
def escapeDebug (c : Char) : List Char :=
  if c = '"' then ['\\', '"']
  else if c = '\\' then ['\\', '\\']
  else if c = '\n' then ['\\', 'n']
  else if c = '\r' then ['\\', 'r']
  else if c = '\t' then ['\\', 't']
  else if c.toNat = 0 then ['\\', '0']
  else if c.toNat < 32 ∨ c.toNat = 127 then
    "\\u\x7b".toList ++ Nat.toDigits 16 c.toNat ++ "\x7d".toList
  else [c]

/-- `format!("{s:?}")`, but for the unprintable characters beyond ASCII, which Rust escapes. -/
def debug (s : String) : String :=
  String.ofList ('"' :: s.toList.flatMap escapeDebug ++ ['"'])

/-- Text with a character that is no white space is not blank. -/
theorem trim_ne_nil {cs : List Char} {c : Char} (hc : c ∈ cs) (hblank : isWhitespace c = false) :
    trim cs ≠ [] := by
  have hmem : c ∈ cs.dropWhile isWhitespace := by
    rw [← takeWhile_append_dropWhile (p := isWhitespace) (l := cs)] at hc
    rcases mem_append.1 hc with hc | hc
    · rw [mem_takeWhile_imp hc] at hblank
      cases hblank
    · exact hc
  intro h
  have hall := dropWhile_eq_nil_iff.1 (reverse_eq_nil_iff.1 h)
  rw [hall c (mem_reverse.2 hmem)] at hblank
  cases hblank

theorem isWhitespace_of_isDigitOf {radix : Nat} {c : Char} (h : isDigitOf radix c = true) :
    isWhitespace c = false := by
  have hrange : 48 ≤ c.toNat ∧ c.toNat ≤ 102 := by
    have hle : ∀ a b : Char, a ≤ b ↔ a.toNat ≤ b.toNat := fun a b => Iff.rfl
    unfold isDigitOf digitValue at h
    simp only [hle] at h
    by_cases hdigit : '0'.toNat ≤ c.toNat ∧ c.toNat ≤ '9'.toNat
    · exact ⟨hdigit.1, hdigit.2.trans (by decide)⟩
    · by_cases hlower : 'a'.toNat ≤ c.toNat ∧ c.toNat ≤ 'f'.toNat
      · exact ⟨le_trans (by decide) hlower.1, hlower.2⟩
      · by_cases hupper : 'A'.toNat ≤ c.toNat ∧ c.toNat ≤ 'F'.toNat
        · exact ⟨le_trans (by decide) hupper.1, hupper.2.trans (by decide)⟩
        · rw [if_neg hdigit, if_neg hlower, if_neg hupper] at h
          cases h
  unfold isWhitespace
  simp only [decide_eq_false_iff_not]
  omega

/-- Text without white space is its own trimmed text. -/
theorem trim_of_no_blank {cs : List Char} (h : ∀ c ∈ cs, isWhitespace c = false) :
    trim cs = cs := by
  have drop : ∀ xs : List Char, (∀ c ∈ xs, isWhitespace c = false) →
      xs.dropWhile isWhitespace = xs := by
    intro xs hxs
    cases xs with
    | nil => rfl
    | cons x xs =>
      have hx : isWhitespace x = false := hxs x mem_cons_self
      simp [hx]
  unfold trim
  rw [drop cs h, drop cs.reverse (fun c hc => h c (mem_reverse.1 hc)), reverse_reverse]

theorem splitOnce_some {sep : Char} {cs before after : List Char}
    (h : splitOnce sep cs = some (before, after)) : cs = before ++ sep :: after := by
  induction cs generalizing before with
  | nil => cases h
  | cons c cs ih =>
    rw [splitOnce] at h
    split at h
    · cases h
      subst_vars
      rfl
    · obtain ⟨⟨b, a⟩, hrest, heq⟩ := Option.map_eq_some_iff.1 h
      cases heq
      rw [ih hrest]
      rfl

theorem parseUnsigned_chars {limit n : Nat} {cs : List Char} (h : parseUnsigned limit cs = some n)
    {c : Char} (hc : c ∈ cs) : c = '+' ∨ isDigitOf 10 c = true := by
  unfold parseUnsigned at h
  dsimp only at h
  split at h
  case isFalse => cases h
  case isTrue hdigits =>
    unfold stripPlus at hdigits
    split at hdigits
    · rcases mem_cons.1 hc with rfl | hc
      · exact Or.inl rfl
      · exact Or.inr (List.all_eq_true.1 hdigits.2.1 c hc)
    · exact Or.inr (List.all_eq_true.1 hdigits.2.1 c hc)

theorem splitOnce_of_not_mem {sep : Char} {cs : List Char} (h : sep ∉ cs) :
    splitOnce sep cs = none := by
  induction cs with
  | nil => rfl
  | cons c cs ih =>
    have hc : c ≠ sep := fun heq => h (heq ▸ mem_cons_self)
    have hcs : sep ∉ cs := fun hmem => h (mem_cons_of_mem c hmem)
    simp [splitOnce, hc, ih hcs]

theorem splitOnce_append {sep : Char} {before : List Char} (h : sep ∉ before)
    (after : List Char) : splitOnce sep (before ++ sep :: after) = some (before, after) := by
  induction before with
  | nil => simp [splitOnce]
  | cons c cs ih =>
    have hc : c ≠ sep := fun heq => h (heq ▸ mem_cons_self)
    have hcs : sep ∉ cs := fun hmem => h (mem_cons_of_mem c hmem)
    simp [splitOnce, hc, ih hcs]

theorem parseU8_toDigits {n : Nat} (h : n < 256) : parseU8 (Nat.toDigits 10 n) = some n := by
  have hdigits : ∀ c ∈ Nat.toDigits 10 n, isDigitOf 10 c = true :=
    fun c hc => isDigitOf_of_mem_toDigits (by decide) (by decide) hc
  have hstrip : stripPlus (Nat.toDigits 10 n) = Nat.toDigits 10 n := by
    unfold stripPlus
    split
    · next rest heq =>
      have : isDigitOf 10 '+' = true := hdigits '+' (heq ▸ mem_cons_self)
      exact absurd this (by decide)
    · rfl
  have hvalue := numeralValue_toDigits (by decide : 1 < 10) (by decide) n
  unfold parseU8 parseUnsigned
  simp only [hstrip, hvalue]
  rw [if_pos ⟨toDigits_ne_nil 10 n, List.all_eq_true.mpr hdigits, h⟩]

end Clawforge.Text

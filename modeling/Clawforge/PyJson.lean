import Clawforge.Text
import Clawforge.Values

/-!
# Python text and `json.dumps`

A command-line argument of a Python program, and the ASCII text `json.dumps` writes
for an object of texts, numbers and nulls. An argument keeps a byte that is no UTF-8
as a lone surrogate, which no Rust text can hold. Whoever compares two such texts
compares the objects (`dumpsObject_injective`): a reader takes every character and
every value back from the front of the text.
-/

namespace Clawforge.PyJson

open Kit Text List Option

/-! ## Text -/

/-- One character of an argument: a Unicode scalar, or the surrogate U+DC80 + `b` for
an undecodable byte 0x80 + `b`. -/
inductive PyChar
  | scalar (c : Char)
  | undecodable (b : Fin 128)
deriving DecidableEq, Repr

abbrev PyStr := List PyChar

def PyStr.ofString (s : String) : PyStr := s.toList.map .scalar

def PyChar.scalar? : PyChar → Option Char
  | .scalar c => some c
  | .undecodable _ => none

/-- The text as a Rust program can hold it. -/
def PyStr.toString? (s : PyStr) : Option String := (s.mapM PyChar.scalar?).map String.ofList

/-- `str.isspace` of one character. -/
def isSpace : PyChar → Bool
  | .scalar c => isWhitespace c || decide (0x1c ≤ c.toNat ∧ c.toNat ≤ 0x1f)
  | .undecodable _ => false

/-- `str.strip`. -/
def strip (s : PyStr) : PyStr := ((s.dropWhile isSpace).reverse.dropWhile isSpace).reverse

/-! ## `json.dumps` -/

/-- `\uXXXX`. -/
def unicodeEscape (n : Nat) : List Char :=
  '\\' :: 'u' :: (toBigEndian 16 4 n).map Nat.digitChar

/-- The characters with an escape of their own, and its letter. -/
def shortEscapes : List (Char × Char) :=
  [ ('"', '"'), ('\\', '\\'), ('\n', 'n'), ('\r', 'r'), ('\t', 't'), (Char.ofNat 8, 'b')
  , (Char.ofNat 12, 'f') ]

def escapeScalar (c : Char) : List Char :=
  match shortEscapes.lookup c with
  | some letter => ['\\', letter]
  | none =>
    if 32 ≤ c.toNat ∧ c.toNat ≤ 126 then [c]
    else if c.toNat < 0x10000 then unicodeEscape c.toNat
    else
      unicodeEscape (0xd800 + (c.toNat - 0x10000) / 0x400) ++
        unicodeEscape (0xdc00 + (c.toNat - 0x10000) % 0x400)

/-- One character of a string literal. -/
def escapeAscii : PyChar → List Char
  | .undecodable b => unicodeEscape (0xdc80 + b)
  | .scalar c => escapeScalar c

/-- A value of the objects written here. -/
inductive Scalar
  | none
  | int (n : Nat)
  | str (s : PyStr)
deriving DecidableEq, Repr

def dumpsStr (s : PyStr) : List Char := '"' :: s.flatMap escapeAscii ++ ['"']

def dumps : Scalar → List Char
  | .none => "null".toList
  | .int n => Nat.toDigits 10 n
  | .str s => dumpsStr s

def dumpsField (f : String × Scalar) : List Char :=
  dumpsStr (.ofString f.1) ++ ':' :: ' ' :: dumps f.2

def dumpsFields : List (String × Scalar) → List Char
  | [] => []
  | [f] => dumpsField f
  | f :: g :: rest => dumpsField f ++ ',' :: ' ' :: dumpsFields (g :: rest)

def dumpsObject (fields : List (String × Scalar)) : List Char :=
  '\x7b' :: dumpsFields fields ++ ['\x7d']

/-- `sort_keys=True`. -/
def sortKeys (fields : List (String × Scalar)) : List (String × Scalar) :=
  fields.mergeSort (fun f g => decide (f.1 ≤ g.1))

/-- `str.encode`. -/
def encode (cs : List Char) : List UInt8 := (String.ofList cs).toUTF8.data.toList

/-! ## The value as JSON -/

/-- What a Rust reader of the text takes the value for. -/
def Scalar.json? : Scalar → Option Json
  | .none => some .null
  | .int n => some (.number (.int n))
  | .str s => s.toString?.map .string

def fieldJson? (f : String × Scalar) : Option (String × Json) :=
  f.2.json?.map (fun v => (f.1, v))

/-- Lone surrogates are no JSON text for a Rust reader. -/
def json? (fields : List (String × Scalar)) : Option Json :=
  (fields.mapM fieldJson?).map .ofFields

/-! ## Reading the text back -/

/-- Reads `\uXXXX`. -/
def readUnicode : List Char → Option (Nat × List Char)
  | '\\' :: 'u' :: a :: b :: c :: d :: rest => some (numeralValue 16 [a, b, c, d], rest)
  | _ => none

def unescape (letter : Char) : Option Char :=
  (shortEscapes.find? (fun p => p.2 = letter)).map Prod.fst

/-- Reads what `escapeAscii` wrote for one character. -/
def readChar (cs : List Char) : Option (PyChar × List Char) :=
  match readUnicode cs with
  | some (n, rest) =>
    if 0xd800 ≤ n ∧ n < 0xdc00 then
      (readUnicode rest).map (fun (m, rest) =>
        (.scalar (Char.ofNat (0x10000 + (n - 0xd800) * 0x400 + (m - 0xdc00))), rest))
    else if h : 0xdc80 ≤ n ∧ n < 0xdd00 then
      some (.undecodable ⟨n - 0xdc80, by omega⟩, rest)
    else some (.scalar (Char.ofNat n), rest)
  | none =>
    match cs with
    | '\\' :: c :: rest => (unescape c).map (fun c => (.scalar c, rest))
    | c :: rest => some (.scalar c, rest)
    | [] => none

theorem readUnicode_escape {n : Nat} (h : n < 65536) (x : List Char) :
    readUnicode (unicodeEscape n ++ x) = some (n, x) := by
  have hdigit : ∀ m : Nat, digitValue 16 (m % 16).digitChar = some (m % 16) :=
    fun m => digitValue_digitChar (by decide) (Nat.mod_lt m (by decide))
  simp only [unicodeEscape, toBigEndian, nil_append, cons_append, map_cons,
    map_nil, readUnicode, numeralValue, foldl_cons, foldl_nil, hdigit,
    getD_some, Option.some.injEq, Prod.mk.injEq, and_true]
  omega

theorem unescape_shortEscapes {c letter : Char} (h : shortEscapes.lookup c = some letter) :
    unescape letter = some c ∧ letter ≠ 'u' := by
  have hall : ∀ p ∈ shortEscapes, unescape p.2 = some p.1 ∧ p.2 ≠ 'u' := by decide
  obtain ⟨l₁, l₂, hsplit, _⟩ := lookup_eq_some_iff.1 h
  refine hall (c, letter) ?_
  rw [hsplit]
  exact mem_append_right _ mem_cons_self

theorem scalar_range (c : Char) :
    c.toNat < 0xd800 ∨ (0xdfff < c.toNat ∧ c.toNat < 0x110000) := c.valid

theorem readUnicode_eq_none {c : Char} (h : c ≠ '\\') (x : List Char) :
    readUnicode (c :: x) = none := by
  unfold readUnicode
  split
  · rename_i heq
    cases heq
    exact absurd rfl h
  · rfl

theorem readUnicode_short {letter : Char} (h : letter ≠ 'u') (x : List Char) :
    readUnicode ('\\' :: letter :: x) = none := by
  unfold readUnicode
  split
  · rename_i heq
    cases heq
    exact absurd rfl h
  · rfl

theorem readChar_escapeAscii (c : PyChar) (x : List Char) :
    readChar (escapeAscii c ++ x) = some (c, x) := by
  cases c with
  | undecodable b =>
    have hb := b.isLt
    unfold readChar escapeAscii
    rw [readUnicode_escape (by omega)]
    simp only
    rw [if_neg (by omega), dif_pos (by omega)]
    simp
  | scalar c =>
    have hrange := scalar_range c
    rw [escapeAscii]
    cases hshort : shortEscapes.lookup c with
    | some letter =>
      obtain ⟨hletter, hu⟩ := unescape_shortEscapes hshort
      simp only [escapeScalar, hshort, readChar, cons_append, nil_append,
        readUnicode_short hu, hletter, map_some]
    | none =>
      have hslash : c ≠ '\\' := by
        rintro rfl
        exact absurd hshort (by decide)
      simp only [escapeScalar, hshort]
      by_cases hplain : 32 ≤ c.toNat ∧ c.toNat ≤ 126
      · unfold readChar
        rw [if_pos hplain, singleton_append, readUnicode_eq_none hslash]
        simp only
        split
        · rename_i heq
          cases heq
          exact absurd rfl hslash
        · rename_i heq
          cases heq
          rfl
        · rename_i heq
          cases heq
      · rw [if_neg hplain]
        by_cases hbmp : c.toNat < 0x10000
        · unfold readChar
          rw [if_pos hbmp, readUnicode_escape hbmp]
          simp only
          rw [if_neg (by omega), dif_neg (by omega), Char.ofNat_toNat]
        · -- an astral character is written as a pair of surrogates
          have hhigh : 0xd800 + (c.toNat - 0x10000) / 0x400 < 0xdc00 := by omega
          have hlow : 0xdc00 + (c.toNat - 0x10000) % 0x400 < 0xe000 := by omega
          have hwhole : 0x10000 + (0xd800 + (c.toNat - 0x10000) / 0x400 - 0xd800) * 0x400 +
              (0xdc00 + (c.toNat - 0x10000) % 0x400 - 0xdc00) = c.toNat := by omega
          unfold readChar
          rw [if_neg hbmp, append_assoc, readUnicode_escape (by omega)]
          simp only
          rw [if_pos ⟨Nat.le_add_right _ _, hhigh⟩, readUnicode_escape (by omega)]
          simp only [map_some, hwhole, Char.ofNat_toNat]

variable {x y : List Char}

/-- A character is determined by the front of the text. -/
theorem escapeAscii_injective {a b : PyChar} (h : escapeAscii a ++ x = escapeAscii b ++ y) :
    a = b ∧ x = y := by
  have hread := readChar_escapeAscii a x
  rw [h, readChar_escapeAscii b y] at hread
  cases hread
  exact ⟨rfl, rfl⟩

/-- No character is written with a quote in front. -/
theorem escapeAscii_head (c : PyChar) (x : List Char) :
    ∃ d rest, escapeAscii c ++ x = d :: rest ∧ d ≠ '"' := by
  have hslash : '\\' ≠ '"' := by decide
  cases c with
  | undecodable b => exact ⟨_, _, rfl, hslash⟩
  | scalar c =>
    rw [escapeAscii]
    cases hshort : shortEscapes.lookup c with
    | some letter =>
      simp only [escapeScalar, hshort]
      exact ⟨_, _, rfl, hslash⟩
    | none =>
      have hquote : c ≠ '"' := by
        rintro rfl
        exact absurd hshort (by decide)
      simp only [escapeScalar, hshort]
      split
      · exact ⟨_, _, rfl, hquote⟩
      · split
        · exact ⟨_, _, rfl, hslash⟩
        · exact ⟨_, _, rfl, hslash⟩

theorem literal_injective {s : PyStr} : ∀ {t : PyStr} {x y : List Char},
    s.flatMap escapeAscii ++ '"' :: x = t.flatMap escapeAscii ++ '"' :: y →
      s = t ∧ x = y := by
  induction s with
  | nil =>
    intro t x y h
    cases t with
    | nil =>
      cases h
      exact ⟨rfl, rfl⟩
    | cons b t =>
      rw [flatMap_cons, append_assoc] at h
      obtain ⟨d, rest, hd, hne⟩ := escapeAscii_head b (t.flatMap escapeAscii ++ '"' :: y)
      rw [hd] at h
      cases h
      exact absurd rfl hne
  | cons a s ih =>
    intro t x y h
    rw [flatMap_cons, append_assoc] at h
    cases t with
    | nil =>
      obtain ⟨d, rest, hd, hne⟩ := escapeAscii_head a (s.flatMap escapeAscii ++ '"' :: x)
      rw [hd] at h
      cases h
      exact absurd rfl hne
    | cons b t =>
      rw [flatMap_cons, append_assoc] at h
      obtain ⟨rfl, hrest⟩ := escapeAscii_injective h
      obtain ⟨rfl, hxy⟩ := ih hrest
      exact ⟨rfl, hxy⟩

/-- So is a string literal. -/
theorem dumpsStr_injective {s t : PyStr} (h : dumpsStr s ++ x = dumpsStr t ++ y) :
    s = t ∧ x = y := by
  unfold dumpsStr at h
  rw [cons_append, cons_append, append_assoc, append_assoc] at h
  exact literal_injective (cons.inj h).2

theorem toDigits_head (n : Nat) (x : List Char) :
    ∃ d rest, Nat.toDigits 10 n ++ x = d :: rest ∧ isDigitOf 10 d = true := by
  cases hdigits : Nat.toDigits 10 n with
  | nil => exact absurd hdigits (toDigits_ne_nil 10 n)
  | cons d rest =>
    refine ⟨d, rest ++ x, rfl, ?_⟩
    refine isDigitOf_of_mem_toDigits (by decide) (by decide) (n := n) ?_
    rw [hdigits]
    exact mem_cons_self

theorem toDigits_injective {n m : Nat} (hx : NumeralEnds 10 x) (hy : NumeralEnds 10 y)
    (h : Nat.toDigits 10 n ++ x = Nat.toDigits 10 m ++ y) : n = m ∧ x = y := by
  have hdigits : ∀ k, ∀ c ∈ Nat.toDigits 10 k, isDigitOf 10 c = true :=
    fun k c hc => isDigitOf_of_mem_toDigits (by decide) (by decide) hc
  have htake := congrArg (takeWhile (isDigitOf 10)) h
  have hdrop := congrArg (dropWhile (isDigitOf 10)) h
  rw [takeWhile_digits (hdigits n) hx, takeWhile_digits (hdigits m) hy] at htake
  rw [dropWhile_digits (hdigits n) hx, dropWhile_digits (hdigits m) hy] at hdrop
  refine ⟨?_, hdrop⟩
  rw [← numeralValue_toDigits (by decide : 1 < 10) (by decide) n, htake,
    numeralValue_toDigits (by decide) (by decide)]

/-- And a value that no digit follows. -/
theorem dumps_injective {v w : Scalar} (hx : NumeralEnds 10 x) (hy : NumeralEnds 10 y)
    (h : dumps v ++ x = dumps w ++ y) : v = w ∧ x = y := by
  have hdigit : ∀ {n : Nat} {z : List Char} {c : Char} {rest : List Char},
      isDigitOf 10 c = false → Nat.toDigits 10 n ++ z ≠ c :: rest := by
    intro n z c rest hc heq
    obtain ⟨d, rest', hd, hdigit⟩ := toDigits_head n z
    rw [heq] at hd
    cases hd
    rw [hc] at hdigit
    cases hdigit
  cases v with
  | none =>
    cases w with
    | none => exact ⟨rfl, append_cancel_left h⟩
    | int n => exact absurd h.symm (hdigit (by decide))
    | str t => cases h
  | int n =>
    cases w with
    | none | str => exact absurd h (hdigit (by decide))
    | int m =>
      obtain ⟨rfl, hxy⟩ := toDigits_injective hx hy h
      exact ⟨rfl, hxy⟩
  | str s =>
    cases w with
    | none => cases h
    | int m => exact absurd h.symm (hdigit (by decide))
    | str t =>
      obtain ⟨rfl, hxy⟩ := dumpsStr_injective h
      exact ⟨rfl, hxy⟩

theorem ofString_injective {s t : String} (h : PyStr.ofString s = PyStr.ofString t) :
    s = t := by
  have hchars : s.toList = t.toList :=
    map_injective_iff.2 (fun _ _ hcd => PyChar.scalar.inj hcd) h
  exact String.toList_injective hchars

theorem dumpsField_injective {f g : String × Scalar} (hx : NumeralEnds 10 x) (hy : NumeralEnds 10 y)
    (h : dumpsField f ++ x = dumpsField g ++ y) : f = g ∧ x = y := by
  unfold dumpsField at h
  rw [append_assoc, append_assoc] at h
  obtain ⟨hkey, h⟩ := dumpsStr_injective h
  obtain ⟨hvalue, hxy⟩ := dumps_injective hx hy (cons.inj (cons.inj h).2).2
  exact ⟨Prod.ext (ofString_injective hkey) hvalue, hxy⟩

/-- The induction is on the fields of both objects: one field, then a comma or the
closing brace. -/
theorem dumpsFields_injective {fs gs : List (String × Scalar)} :
    dumpsFields fs ++ ['\x7d'] = dumpsFields gs ++ ['\x7d'] → fs = gs := by
  have hbrace : NumeralEnds 10 ['\x7d'] := numeralEnds_cons (by decide)
  have hcomma : ∀ x, NumeralEnds 10 (',' :: x) := fun x => numeralEnds_cons (by decide)
  induction fs generalizing gs with
  | nil =>
    intro h
    match gs with
    | [] => rfl
    | [g] => cases h
    | g :: g' :: gs => cases h
  | cons f fs ih =>
    intro h
    match fs, gs with
    | [], [] => cases h
    | [], [g] =>
      obtain ⟨rfl, _⟩ := dumpsField_injective hbrace hbrace h
      rfl
    | [], g :: g' :: gs =>
      rw [dumpsFields, dumpsFields, append_assoc] at h
      obtain ⟨_, hrest⟩ := dumpsField_injective hbrace (hcomma _) h
      cases hrest
    | f' :: fs, [] => cases h
    | f' :: fs, [g] =>
      rw [dumpsFields, dumpsFields, append_assoc] at h
      obtain ⟨_, hrest⟩ := dumpsField_injective (hcomma _) hbrace h
      cases hrest
    | f' :: fs, g :: g' :: gs =>
      rw [dumpsFields, dumpsFields, append_assoc, append_assoc] at h
      obtain ⟨rfl, hrest⟩ := dumpsField_injective (hcomma _) (hcomma _) h
      rw [ih (cons.inj (cons.inj hrest).2).2]

theorem sortKeys_perm (fields : List (String × Scalar)) : (sortKeys fields).Perm fields :=
  mergeSort_perm fields _

theorem dumpsObject_injective {fs gs : List (String × Scalar)}
    (h : dumpsObject fs = dumpsObject gs) : fs = gs :=
  dumpsFields_injective (cons.inj h).2

theorem encode_injective {cs ds : List Char} (h : encode cs = encode ds) : cs = ds := by
  unfold encode at h
  have hbytes : (String.ofList cs).toByteArray = (String.ofList ds).toByteArray :=
    ByteArray.ext (Array.toList_inj.1 h)
  exact String.ofList_inj.1 (String.toByteArray_inj.1 hbytes)

end Clawforge.PyJson

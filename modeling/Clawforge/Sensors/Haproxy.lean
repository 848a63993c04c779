import Clawforge.Text

/-!
# The HAProxy sensor's log lines

`haproxy-sensor`: the tokenizer, which keeps bracketed, braced and quoted groups whole, and what
`parse_haproxy_message` reads off a line. A message is far shorter than the `i32` range of the
counters.
-/

namespace Clawforge.HaproxySensor

open Text Kit List

structure HaproxyRequest where
  sourceIp : String
  method : String
  path : String
  statusCode : Int
  backend : String
deriving DecidableEq, Repr

/-- The open groups: the counters of `tokenize_haproxy_log`. -/
structure Level where
  brackets : Int
  braces : Int
  inQuotes : Bool
deriving DecidableEq, Repr

namespace Level

def outside : Level := ⟨0, 0, false⟩

/-- The counters after one more character. -/
def next (l : Level) (ch : Char) : Level :=
  if ch = '"' then { l with inQuotes := !l.inQuotes }
  else if l.inQuotes then l
  else if ch = '[' then { l with brackets := l.brackets + 1 }
  else if ch = ']' then { l with brackets := l.brackets - 1 }
  else if ch = '{' then { l with braces := l.braces + 1 }
  else if ch = '}' then { l with braces := l.braces - 1 }
  else l

/-- The counters after a text. -/
def scan (l : Level) (cs : List Char) : Level := cs.foldl next l

end Level

structure Tokenizer where
  tokens : List (List Char)
  current : List Char
  level : Level
deriving DecidableEq, Repr

namespace Tokenizer

def start : Tokenizer := ⟨[], [], .outside⟩

/-- One character of the loop. -/
def step (t : Tokenizer) (ch : Char) : Tokenizer :=
  if ch = ' ' ∧ t.level = .outside then
    if t.current = [] then t else { t with tokens := t.tokens ++ [t.current], current := [] }
  else { t with current := t.current ++ [ch], level := t.level.next ch }

def run (t : Tokenizer) (cs : List Char) : Tokenizer := cs.foldl step t

/-- The tokens at the end of the message. -/
def finish (t : Tokenizer) : List (List Char) :=
  if t.current = [] then t.tokens else t.tokens ++ [t.current]

end Tokenizer

/-- `tokenize_haproxy_log`. -/
def tokenizeHaproxyLog (message : List Char) : List (List Char) :=
  (Tokenizer.start.run message).finish

/-- `str::rsplit_once` with a character. -/
def rsplitOnce (sep : Char) (cs : List Char) : Option (List Char × List Char) :=
  (splitOnce sep cs.reverse).map fun (after, before) => (before.reverse, after.reverse)

/-- `str::trim_matches` with a character. -/
def trimMatches (c : Char) (cs : List Char) : List Char :=
  ((cs.dropWhile (· = c)).reverse.dropWhile (· = c)).reverse

/-- `i32::from_str`: an optional sign, then decimal digits, in range. -/
def parseI32 : List Char → Option Int
  | '-' :: digits =>
    if digits ≠ [] ∧ digits.all (isDigitOf 10) ∧ numeralValue 10 digits ≤ 2 ^ 31 then
      some (-(numeralValue 10 digits : Int))
    else none
  | cs => (parseUnsigned (2 ^ 31) cs).map Int.ofNat

/-- Whether a token starts with a double quote. -/
def startsQuoted (token : List Char) : Bool := token.head? == some '"'

/-- `parse_haproxy_message`. -/
def parseHaproxyMessage (message : String) : Option HaproxyRequest := do
  let tokens := tokenizeHaproxyLog message.toList
  if tokens.length < 6 then none
  else do
    let (sourceIp, _) ← tokens.head?.bind (rsplitOnce ':')
    let sourceIp := trim sourceIp
    if sourceIp = [] then none
    else do
      let backend := tokens[3]?.getD []
      let statusCode ← tokens[5]?.bind parseI32
      let requestLine ← tokens.find? startsQuoted
      match splitWhitespace (trimMatches '"' requestLine) with
      | method :: path :: _ =>
        some ⟨String.ofList sourceIp, String.ofList method, String.ofList path, statusCode,
          String.ofList backend⟩
      | _ => none

/-! ## The tokenizer, text by text -/

namespace Level

@[simp] theorem scan_nil (l : Level) : l.scan [] = l := rfl

@[simp] theorem scan_cons (l : Level) (c : Char) (cs : List Char) :
    l.scan (c :: cs) = (l.next c).scan cs := rfl

theorem scan_append (l : Level) (s t : List Char) : l.scan (s ++ t) = (l.scan s).scan t :=
  foldl_append

@[simp] theorem next_blank (l : Level) : l.next ' ' = l := by
  unfold next
  simp

end Level

/-- A piece of text cut into the rest of the token it starts in and the tokens after it. -/
abbrev Pieces := List Char × List (List Char)

/-- The tokens, where the first one goes on with an empty rest only if it is none. -/
def Pieces.tokens (p : Pieces) : List (List Char) := if p.1 = [] then p.2 else p.1 :: p.2

/-- The cuts of a text that is read from the level `l` on. -/
def pieces : Level → List Char → Pieces
  | _, [] => ([], [])
  | l, c :: s =>
    if c = ' ' ∧ l = .outside then ([], (pieces l s).tokens)
    else (c :: (pieces (l.next c) s).1, (pieces (l.next c) s).2)

theorem Tokenizer.run_append (t : Tokenizer) (s u : List Char) :
    t.run (s ++ u) = (t.run s).run u := foldl_append

/-- The loop and the cuts agree. -/
theorem finish_run (t : Tokenizer) (s : List Char) :
    (t.run s).finish =
      t.tokens ++ Pieces.tokens (t.current ++ (pieces t.level s).1, (pieces t.level s).2) := by
  induction s generalizing t with
  | nil =>
    show t.finish = _
    unfold Tokenizer.finish Pieces.tokens pieces
    dsimp only
    rw [append_nil]
    split
    · rw [append_nil]
    · rfl
  | cons c s ih =>
    show ((t.step c).run s).finish = _
    rw [ih, pieces]
    unfold Tokenizer.step
    by_cases hcut : c = ' ' ∧ t.level = .outside
    · rw [if_pos hcut, if_pos hcut]
      by_cases hempty : t.current = []
      · rw [if_pos hempty, hempty]
        unfold Pieces.tokens
        dsimp only
        split <;> simp_all
      · rw [if_neg hempty]
        simp [Pieces.tokens, hempty]
    · rw [if_neg hcut, if_neg hcut]
      simp [Pieces.tokens]

theorem tokenizeHaproxyLog_eq (message : List Char) :
    tokenizeHaproxyLog message = (pieces .outside message).tokens := by
  unfold tokenizeHaproxyLog
  rw [finish_run]
  rfl

theorem Tokenizer.run_level (t : Tokenizer) (s : List Char) :
    (t.run s).level = t.level.scan s := by
  induction s generalizing t with
  | nil => rfl
  | cons c s ih =>
    show ((t.step c).run s).level = _
    rw [ih, Level.scan_cons]
    unfold Tokenizer.step
    split
    · next hcut =>
      rw [hcut.1, Level.next_blank]
      split <;> rfl
    · rfl

/-- A text without a cut: every blank in it stands inside a group. -/
def Uncut (l : Level) (s : List Char) : Prop :=
  ∀ a b, s = a ++ ' ' :: b → l.scan a ≠ .outside

variable {l : Level} {s : List Char}

theorem uncut_of_no_blank (h : ' ' ∉ s) : Uncut l s :=
  fun a b hs => (h (hs ▸ by simp)).elim

/-- An uncut text goes to the token it starts in. -/
theorem pieces_append (h : Uncut l s) (u : List Char) :
    pieces l (s ++ u) = (s ++ (pieces (l.scan s) u).1, (pieces (l.scan s) u).2) := by
  induction s generalizing l with
  | nil => rfl
  | cons c s ih =>
    have hcut : ¬ (c = ' ' ∧ l = .outside) := by
      rintro ⟨rfl, hl⟩
      exact h [] s rfl hl
    have hrest : Uncut (l.next c) s := fun a b hs => h (c :: a) b (by rw [hs]; rfl)
    rw [cons_append, pieces, if_neg hcut, ih hrest]
    rfl

theorem pieces_blank (s : List Char) :
    pieces .outside (' ' :: s) = ([], (pieces .outside s).tokens) := by
  rw [pieces, if_pos ⟨rfl, rfl⟩]

theorem pieces_blank_inside (h : l ≠ .outside) (s : List Char) :
    pieces l (' ' :: s) = (' ' :: (pieces l s).1, (pieces l s).2) := by
  rw [pieces, if_neg fun hcut => h hcut.2, Level.next_blank]

/-- A text that closes what it opens, and has no cut, is one token. -/
theorem tokens_closed (hne : s ≠ []) (huncut : Uncut .outside s)
    (hclosed : Level.outside.scan s = .outside) (u : List Char) :
    (pieces .outside (s ++ ' ' :: u)).tokens = s :: (pieces .outside u).tokens := by
  rw [pieces_append huncut, hclosed, pieces_blank]
  dsimp only
  rw [append_nil, Pieces.tokens, if_neg hne]

/-- Behind a closed text a blank cuts. -/
theorem pieces_cut (h : l.scan s = .outside) (u : List Char) :
    pieces l (s ++ ' ' :: u) =
      ((pieces l s).1, (pieces l s).2 ++ (pieces .outside u).tokens) := by
  induction s generalizing l with
  | nil =>
    obtain rfl : l = .outside := h
    rw [nil_append, pieces_blank]
    rfl
  | cons c s ih =>
    rw [cons_append, pieces, pieces]
    by_cases hcut : c = ' ' ∧ l = .outside
    · obtain ⟨rfl, rfl⟩ := hcut
      rw [if_pos ⟨rfl, rfl⟩, if_pos ⟨rfl, rfl⟩, ih (by rwa [Level.scan_cons, Level.next_blank] at h)]
      unfold Pieces.tokens
      dsimp only
      split <;> rfl
    · rw [if_neg hcut, if_neg hcut, ih h]

/-! ## Tokens that start with a quote -/

theorem pieces_fst_prefix (l : Level) (s : List Char) : (pieces l s).1 <+: s := by
  induction s generalizing l with
  | nil => exact prefix_refl _
  | cons c s ih =>
    rw [pieces]
    split
    · exact nil_prefix
    · exact cons_prefix_cons.mpr ⟨rfl, ih _⟩

/-- Such a token starts behind a blank that cuts, with a double quote in the text. -/
theorem quoted_of_mem {token : List Char} (hmem : token ∈ (pieces l s).2)
    (hquoted : startsQuoted token = true) :
    ∃ a b, s = a ++ ' ' :: '"' :: b ∧ l.scan a = .outside := by
  induction s generalizing l with
  | nil => cases hmem
  | cons c s ih =>
    rw [pieces] at hmem
    split at hmem
    · next hcut =>
      obtain ⟨rfl, rfl⟩ := hcut
      dsimp only at hmem
      have hcase : token = (pieces .outside s).1 ∨ token ∈ (pieces .outside s).2 := by
        unfold Pieces.tokens at hmem
        split at hmem
        · exact .inr hmem
        · exact mem_cons.mp hmem
      rcases hcase with rfl | hmem
      · obtain ⟨r, hr⟩ := pieces_fst_prefix .outside s
        cases htok : (pieces .outside s).1 with
        | nil =>
          rw [htok] at hquoted
          cases hquoted
        | cons d tail =>
          rw [htok] at hquoted hr
          obtain rfl : d = '"' := by simpa [startsQuoted] using hquoted
          exact ⟨[], tail ++ r, by rw [← hr]; rfl, rfl⟩
      · obtain ⟨a, b, rfl, ha⟩ := ih hmem
        exact ⟨' ' :: a, b, rfl, by rwa [Level.scan_cons, Level.next_blank]⟩
    · obtain ⟨a, b, rfl, ha⟩ := ih hmem
      exact ⟨c :: a, b, rfl, ha⟩

/-- A double quote behind a blank that cuts starts a token. -/
theorem exists_quoted {a : List Char} (h : l.scan a = .outside) (b : List Char) :
    ∃ token ∈ (pieces l (a ++ ' ' :: '"' :: b)).2, startsQuoted token = true := by
  rw [pieces_cut h]
  refine ⟨'"' :: (pieces (Level.outside.next '"') b).1, mem_append_right _ ?_, rfl⟩
  rw [pieces, if_neg fun hcut => absurd hcut.1 (by decide)]
  exact mem_cons_self

end Clawforge.HaproxySensor

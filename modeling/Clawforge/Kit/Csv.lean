import Mathlib.Data.List.TakeWhile

/-!
# Comma-separated values

A reader of RFC 4180 files and what it makes of a written field. Records end with CR LF,
LF or CR; a quoted field may contain any character, a plain one neither a comma nor a
quote nor a line break. A field whose raw text is `Written` for a text is read back as
that text (`read_written_field`), and so are lines of such fields (`read_lines`). A plain
field that is cut short is never read back (`read_cut_field`).
-/

namespace Kit.Csv

open List Option

/-- Where the reader stands: before a field, inside a plain or a quoted one, behind a quote of a
quoted one, and behind a CR that has ended a record. -/
inductive Mode
  | start
  | plain
  | quoted
  | closing
  | afterCr
deriving DecidableEq, Repr

/-- A character that ends a plain field or may not stand in one. -/
def special (c : Char) : Bool := c = ',' || c = '"' || c = '\n' || c = '\r'

abbrev Record := List (List Char)

/-- The records at the end of the file. -/
def atEnd (mode : Mode) (field : List Char) (record : Record) : Option (List Record) :=
  match mode with
  | .quoted => none
  | .plain | .closing => some [record ++ [field]]
  | .start | .afterCr => if record = [] then some [] else some [record ++ [field]]

/-- Reads on from a mode, the characters of the present field and the fields of the present
record. -/
def readFrom (mode : Mode) (field : List Char) (record : Record) :
    List Char → Option (List Record)
  | [] => atEnd mode field record
  | c :: cs =>
    if mode = .quoted then
      if c = '"' then readFrom .closing field record cs
      else readFrom .quoted (field ++ [c]) record cs
    else if mode = .afterCr ∧ c = '\n' then readFrom .start [] [] cs
    else if c = ',' then readFrom .start [] (record ++ [field]) cs
    else if c = '\n' then (readFrom .start [] [] cs).map ((record ++ [field]) :: ·)
    else if c = '\r' then (readFrom .afterCr [] [] cs).map ((record ++ [field]) :: ·)
    else if c = '"' then
      match mode with
      | .closing => readFrom .quoted (field ++ [c]) record cs
      | .plain => none
      | _ => readFrom .quoted field record cs
    else if mode = .closing then none
    else readFrom .plain (field ++ [c]) record cs

/-- The records of a file. -/
def read (cs : List Char) : Option (List Record) := readFrom .start [] [] cs

example : read "a,\"b\"\"c\",\r\n,d\re".toList =
    some [["a".toList, "b\"c".toList, []], [[], "d".toList], ["e".toList]] := by decide

/-! ## Written fields -/

/-- Quotes are doubled. -/
def doubled (cs : List Char) : List Char :=
  cs.flatMap fun c => if c = '"' then ['"', '"'] else [c]

def quote (cs : List Char) : List Char := '"' :: (doubled cs ++ ['"'])

def Plain (cs : List Char) : Prop := ∀ c ∈ cs, special c = false

/-- The raw text is the text itself, where nothing in it is special, or the quoted text. -/
inductive Written : (raw text : List Char) → Prop
  | plain {cs : List Char} (h : Plain cs) : Written cs cs
  | quoted (cs : List Char) : Written (quote cs) cs

theorem Written.cases {raw text : List Char} (h : Written raw text) :
    Plain text ∨ raw = quote text := by
  cases h with
  | plain h => exact .inl h
  | quoted => exact .inr rfl

theorem length_le_doubled (cs : List Char) : cs.length ≤ (doubled cs).length := by
  induction cs with
  | nil => exact Nat.le_refl _
  | cons c cs ih =>
    have hcons : doubled (c :: cs) = (if c = '"' then ['"', '"'] else [c]) ++ doubled cs := rfl
    rw [hcons, length_append, length_cons]
    split <;> simp only [length_cons, length_nil] <;> omega

theorem quote_ne_self (cs : List Char) : quote cs ≠ cs := by
  intro h
  have hlength := congrArg List.length h
  have hle := length_le_doubled cs
  simp only [quote, length_cons, length_append, length_nil] at hlength
  omega

theorem written_self_iff {cs : List Char} : Written cs cs ↔ Plain cs :=
  ⟨fun h => h.cases.resolve_right fun hq => quote_ne_self cs hq.symm, .plain⟩

/-- The raw texts of fields, separated by commas. -/
def line (raws : List (List Char)) : List Char := [','].intercalate raws

/-- A character that ends a field. -/
def Separator (c : Char) : Prop := c = ',' ∨ c = '\n' ∨ c = '\r'

section Fields

variable {c : Char} {cs rest field : List Char} {record first : Record} {more : List Record}

theorem Plain.tail (h : Plain (c :: cs)) : Plain cs := fun x hx => h x (mem_cons_of_mem _ hx)

theorem read_plain_cons (h : special c = false) :
    readFrom .plain field record (c :: cs) = readFrom .plain (field ++ [c]) record cs := by
  simp only [special, Bool.or_eq_false_iff, decide_eq_false_iff_not] at h
  obtain ⟨⟨⟨hcomma, hquote⟩, hlf⟩, hcr⟩ := h
  simp [readFrom, hcomma, hquote, hlf, hcr]

theorem read_start_cons (h : special c = false) :
    readFrom .start field record (c :: cs) = readFrom .plain (field ++ [c]) record cs := by
  simp only [special, Bool.or_eq_false_iff, decide_eq_false_iff_not] at h
  obtain ⟨⟨⟨hcomma, hquote⟩, hlf⟩, hcr⟩ := h
  simp [readFrom, hcomma, hquote, hlf, hcr]

theorem read_plain (h : Plain cs) :
    readFrom .plain field record (cs ++ rest) = readFrom .plain (field ++ cs) record rest := by
  induction cs generalizing field with
  | nil => rw [nil_append, append_nil]
  | cons c cs ih =>
    rw [cons_append, read_plain_cons (h c mem_cons_self), ih h.tail,
      append_assoc, singleton_append]

/-- A field that has begun goes on as a plain one; before a separator it may be empty. -/
theorem read_start (h : Plain cs) (hne : cs ≠ [] ∨ Separator c) :
    readFrom .start [] record (cs ++ c :: rest) = readFrom .plain cs record (c :: rest) := by
  cases cs with
  | nil =>
    obtain hc := hne.resolve_left (fun h => h rfl)
    rcases hc with rfl | rfl | rfl <;> rfl
  | cons x xs =>
    rw [cons_append, read_start_cons (h x mem_cons_self), read_plain h.tail]
    rfl

theorem read_doubled :
    readFrom .quoted field record (doubled cs ++ '"' :: rest) =
      readFrom .closing (field ++ cs) record rest := by
  induction cs generalizing field with
  | nil => rw [append_nil]; rfl
  | cons c cs ih =>
    have hcons : doubled (c :: cs) = (if c = '"' then ['"', '"'] else [c]) ++ doubled cs := rfl
    rw [hcons]
    by_cases hc : c = '"'
    · subst hc
      show readFrom .quoted (field ++ ['"']) record (doubled cs ++ '"' :: rest) = _
      rw [ih, append_assoc, singleton_append]
    · rw [if_neg hc, singleton_append, cons_append]
      show (if c = '"' then _ else readFrom .quoted (field ++ [c]) record _) = _
      rw [if_neg hc, ih, append_assoc, singleton_append]

theorem read_closing (hc : Separator c) :
    readFrom .closing field record (c :: rest) = readFrom .plain field record (c :: rest) := by
  rcases hc with rfl | rfl | rfl <;> rfl

/-- A written field is read back. -/
theorem read_written_field {raw text : List Char} (h : Written raw text) (hc : Separator c) :
    readFrom .start [] record (raw ++ c :: rest) = readFrom .plain text record (c :: rest) := by
  cases h with
  | plain hplain => exact read_start hplain (.inr hc)
  | quoted text =>
    rw [quote, cons_append, append_assoc, singleton_append]
    show readFrom .quoted [] record _ = _
    rw [read_doubled, nil_append, read_closing hc]

/-! ## Fields that are cut short -/

/-- What a record holds already stays at its front. -/
theorem prefix_first {mode : Mode} (hmode : mode ≠ .afterCr)
    (h : readFrom mode field record cs = some (first :: more)) : record <+: first := by
  induction cs generalizing mode field record with
  | nil =>
    cases mode with
    | quoted => cases h
    | afterCr => exact absurd rfl hmode
    | start =>
      simp only [readFrom, atEnd] at h
      split at h
      · cases h
      · cases h
        exact prefix_append _ _
    | plain | closing =>
      cases h
      exact prefix_append _ _
  | cons c cs ih =>
    have hmap : ∀ {f : List Char} {rest : Option (List Record)},
        rest.map ((record ++ [f]) :: ·) = some (first :: more) → record <+: first := by
      intro f rest hmap
      obtain ⟨records, -, heq⟩ := map_eq_some_iff.1 hmap
      cases heq
      exact prefix_append _ _
    simp only [readFrom, hmode, false_and, if_false] at h
    split at h
    case isTrue hquoted =>
      split at h
      · exact ih (by decide) h
      · exact ih (by decide) h
    case isFalse hquoted =>
      split at h
      case isTrue => exact (prefix_append _ _).trans (ih (by decide) h)
      split at h
      case isTrue => exact hmap h
      split at h
      case isTrue => exact hmap h
      split at h
      case isTrue =>
        split at h
        · exact ih (by decide) h
        · cases h
        · exact ih (by decide) h
      split at h
      · cases h
      · exact ih (by decide) h

/-- The number of quotes in front. -/
def lead (cs : List Char) : Nat := (cs.takeWhile (· = '"')).length

theorem lead_quote : lead ('"' :: cs) = lead cs + 1 := by
  simp [lead]

theorem lead_of_ne (hc : c ≠ '"') : lead (c :: cs) = 0 := by
  simp [lead, hc]

/-- The field that a quoted one becomes begins with no more quotes than what is left of it. -/
theorem field_of_quoted {mode : Mode} (hmode : mode = .quoted ∨ mode = .closing)
    (h : readFrom mode field record cs = some (first :: more)) :
    ∃ d, (record ++ [field ++ d]) <+: first ∧ lead d ≤ lead cs := by
  induction cs generalizing mode field with
  | nil =>
    rcases hmode with rfl | rfl
    · cases h
    · cases h
      exact ⟨[], by simp, Nat.le_refl _⟩
  | cons c cs ih =>
    have hended : (record ++ [field]) <+: first →
        ∃ d, (record ++ [field ++ d]) <+: first ∧ lead d ≤ lead (c :: cs) :=
      fun hfirst => ⟨[], by rwa [append_nil], Nat.zero_le _⟩
    have hmap : ∀ {rest : Option (List Record)},
        rest.map ((record ++ [field]) :: ·) = some (first :: more) →
          (record ++ [field]) <+: first := by
      intro rest hmap
      obtain ⟨records, -, heq⟩ := map_eq_some_iff.1 hmap
      cases heq
      exact prefix_rfl
    rcases hmode with rfl | rfl
    · simp only [readFrom, if_true] at h
      split at h
      case isTrue hc =>
        obtain ⟨d, hd, hlead⟩ := ih (.inr rfl) h
        subst hc
        exact ⟨d, hd, hlead.trans (by rw [lead_quote]; exact Nat.le_succ _)⟩
      case isFalse hc =>
        obtain ⟨d, hd, -⟩ := ih (.inl rfl) h
        refine ⟨c :: d, ?_, by rw [lead_of_ne hc]; exact Nat.zero_le _⟩
        rwa [append_assoc, singleton_append] at hd
    · simp only [readFrom, reduceCtorEq, false_and, if_false, if_true] at h
      split at h
      case isTrue => exact hended (prefix_first (by decide) h)
      split at h
      case isTrue => exact hended (hmap h)
      split at h
      case isTrue => exact hended (hmap h)
      split at h
      case isTrue hc =>
        obtain ⟨d, hd, hlead⟩ := ih (.inl rfl) h
        subst hc
        refine ⟨'"' :: d, ?_, by rw [lead_quote, lead_quote]; exact Nat.succ_le_succ hlead⟩
        rwa [append_assoc, singleton_append] at hd
      case isFalse => cases h

theorem lead_append (hc : Separator c) : lead (cs ++ c :: rest) = lead cs := by
  induction cs with
  | nil =>
    rcases hc with rfl | rfl | rfl <;> rfl
  | cons x xs ih =>
    by_cases hx : x = '"'
    · subst hx
      rw [cons_append, lead_quote, lead_quote, ih]
    · rw [cons_append, lead_of_ne hx, lead_of_ne hx]

theorem getElem?_of_leading {x : List Char} (h : (record ++ [x]) <+: first) :
    first[record.length]? = some x := by
  obtain ⟨t, rfl⟩ := h
  rw [append_assoc, getElem?_append_right (Nat.le_refl _), Nat.sub_self]
  rfl

/-- A field left bare although something in it is special is not read back. -/
theorem read_cut_field {text : List Char} (h : ¬ Plain text) (hc : Separator c)
    (hread : readFrom .start [] record (text ++ c :: rest) = some (first :: more)) :
    first[record.length]? ≠ some text := by
  -- the first special character, and what stands before it
  obtain ⟨p, x, q, rfl, hp, hx⟩ : ∃ p x q, text = p ++ x :: q ∧ Plain p ∧ special x = true := by
    refine ⟨text.takeWhile (fun y => !special y), ?_⟩
    cases hdrop : text.dropWhile (fun y => !special y) with
    | nil =>
      refine absurd (fun y hy => ?_) h
      have hall := dropWhile_eq_nil_iff.1 hdrop y hy
      simpa using hall
    | cons x q =>
      refine ⟨x, q, ?_, fun y hy => ?_, ?_⟩
      · rw [← hdrop, takeWhile_append_dropWhile]
      · simpa using mem_takeWhile_imp hy
      · have hhead := head_dropWhile_not (fun y => !special y)
          (show text.dropWhile (fun y => !special y) ≠ [] by rw [hdrop]; exact cons_ne_nil _ _)
        simpa [hdrop] using hhead
  intro hfirst
  have hshort : first[record.length]? = some p → False := by
    intro hp'
    rw [hp'] at hfirst
    have hlength := congrArg List.length (some.inj hfirst)
    simp at hlength
  rw [append_assoc, cons_append] at hread
  by_cases hquote : x = '"'
  · subst hquote
    cases p with
    | nil =>
      have hquoted : readFrom .quoted [] record (q ++ c :: rest) = some (first :: more) := by
        simpa [readFrom] using hread
      obtain ⟨d, hd, hlead⟩ := field_of_quoted (.inl rfl) hquoted
      rw [getElem?_of_leading hd] at hfirst
      have htext : d = '"' :: q := by simpa using hfirst
      rw [htext, lead_quote, lead_append hc] at hlead
      exact absurd hlead (Nat.not_succ_le_self _)
    | cons y ys =>
      rw [cons_append, read_start_cons (hp y mem_cons_self), read_plain hp.tail] at hread
      simp [readFrom] at hread
  · have hsep : Separator x := by
      simp only [special, Bool.or_eq_true, decide_eq_true_eq] at hx
      rcases hx with ((hx | hx) | hx) | hx
      · exact .inl hx
      · exact absurd hx hquote
      · exact .inr (.inl hx)
      · exact .inr (.inr hx)
    rw [read_start hp (.inr hsep)] at hread
    rcases hsep with rfl | rfl | rfl
    · have hnext : readFrom .start [] (record ++ [p]) (q ++ c :: rest) = some (first :: more) := by
        simpa [readFrom] using hread
      exact hshort (getElem?_of_leading (prefix_first (by decide) hnext))
    · have hnext : (readFrom .start [] [] (q ++ c :: rest)).map ((record ++ [p]) :: ·) =
          some (first :: more) := by
        simpa [readFrom] using hread
      obtain ⟨records, -, heq⟩ := map_eq_some_iff.1 hnext
      cases heq
      exact hshort (getElem?_of_leading prefix_rfl)
    · have hnext : (readFrom .afterCr [] [] (q ++ c :: rest)).map ((record ++ [p]) :: ·) =
          some (first :: more) := by
        simpa [readFrom] using hread
      obtain ⟨records, -, heq⟩ := map_eq_some_iff.1 hnext
      cases heq
      exact hshort (getElem?_of_leading prefix_rfl)

end Fields

/-! ## Files -/

/-- A field as written: its raw text and its text. The raw text is the text itself where it is
not quoted, whatever stands in it. -/
structure Field where
  raw : List Char
  text : List Char
  escaped : raw = text ∨ raw = quote text

/-- The field can be read back. -/
def Field.Written (f : Field) : Prop := Csv.Written f.raw f.text

theorem Field.written_or_cut (f : Field) : f.Written ∨ f.raw = f.text ∧ ¬ Plain f.text := by
  obtain ⟨raw, text, rfl | rfl⟩ := f
  · by_cases hplain : Plain raw
    · exact .inl (.plain hplain)
    · exact .inr ⟨rfl, hplain⟩
  · exact .inl (.quoted text)

/-- A line for each record, ended by LF. -/
def file (rows : List (List Field)) : List Char :=
  rows.flatMap fun fields => line (fields.map Field.raw) ++ ['\n']

def records (rows : List (List Field)) : List Record := rows.map (·.map Field.text)

section Lines

variable {rest : List Char} {record : Record} {more : List Record}

theorem line_singleton (x : List Char) : line [x] = x := by
  simp [line, List.intercalate]

theorem line_cons_cons (x y : List Char) (ys : List (List Char)) :
    line (x :: y :: ys) = x ++ ',' :: line (y :: ys) := by
  simp [line, List.intercalate]

theorem file_cons (fields : List Field) (rows : List (List Field)) :
    file (fields :: rows) = line (fields.map Field.raw) ++ '\n' :: file rows := by
  rw [file, flatMap_cons, append_assoc]
  rfl

theorem read_lf (text : List Char) :
    readFrom .plain text record ('\n' :: rest) = (read rest).map ((record ++ [text]) :: ·) := rfl

theorem read_line {f : Field} {fields : List Field} (h : ∀ g ∈ f :: fields, g.Written) :
    readFrom .start [] record (line ((f :: fields).map Field.raw) ++ '\n' :: rest) =
      (read rest).map ((record ++ (f :: fields).map Field.text) :: ·) := by
  induction fields generalizing f record with
  | nil =>
    rw [map_singleton, line_singleton,
      read_written_field (h f mem_cons_self) (.inr (.inl rfl)), read_lf,
      map_singleton]
  | cons g fields ih =>
    rw [map_cons, map_cons, line_cons_cons, append_assoc, cons_append,
      read_written_field (h f mem_cons_self) (.inl rfl), ← map_cons]
    show readFrom .start [] (record ++ [f.text]) _ = _
    rw [ih (fun x hx => h x (mem_cons_of_mem _ hx)), append_assoc]
    rfl

theorem written_of_read_field {f : Field} {texts : List (List Char)} {c : Char}
    (hc : Separator c) (h : readFrom .start [] record (f.raw ++ c :: rest) =
      some ((record ++ f.text :: texts) :: more)) : f.Written := by
  refine f.written_or_cut.resolve_right fun ⟨hraw, hplain⟩ => ?_
  rw [hraw] at h
  refine read_cut_field hplain hc h ?_
  rw [getElem?_append_right (Nat.le_refl _), Nat.sub_self]
  rfl

/-- A line that is read back has only fields that can be. -/
theorem written_of_read_line {f : Field} {fields : List Field}
    (h : readFrom .start [] record (line ((f :: fields).map Field.raw) ++ '\n' :: rest) =
      some ((record ++ (f :: fields).map Field.text) :: more)) :
    ∀ g ∈ f :: fields, g.Written := by
  induction fields generalizing f record with
  | nil =>
    intro g hg
    obtain rfl := mem_singleton.1 hg
    rw [map_singleton, line_singleton] at h
    exact written_of_read_field (.inr (.inl rfl)) h
  | cons g fields ih =>
    rw [map_cons, map_cons, line_cons_cons, append_assoc, cons_append,
      ← map_cons] at h
    have hf : f.Written := written_of_read_field (.inl rfl) h
    rw [read_written_field hf (.inl rfl)] at h
    have hrest : readFrom .start [] (record ++ [f.text])
        (line ((g :: fields).map Field.raw) ++ '\n' :: rest) =
          some (((record ++ [f.text]) ++ (g :: fields).map Field.text) :: more) := by
      rw [append_assoc]
      exact h
    intro x hx
    rcases mem_cons.1 hx with rfl | hx
    · exact hf
    · exact ih hrest x hx

/-- A file is read back exactly if each of its lines has a field and none is left bare although
something in it is special. -/
theorem read_file_iff (rows : List (List Field)) :
    read (file rows) = some (records rows) ↔
      ∀ fields ∈ rows, fields ≠ [] ∧ ∀ f ∈ fields, f.Written := by
  induction rows with
  | nil => exact iff_of_true rfl fun _ h => absurd h not_mem_nil
  | cons fields rows ih =>
    rw [file_cons, forall_mem_cons, ← ih]
    cases fields with
    | nil =>
      refine iff_of_false (fun h => ?_) fun h => h.1.1 rfl
      have hblank : (read (file rows)).map ([[]] :: ·) = some (records ([] :: rows)) := h
      obtain ⟨tail, -, heq⟩ := map_eq_some_iff.1 hblank
      cases heq
    | cons f fields =>
      constructor
      · intro h
        have hline : readFrom .start [] []
            (line ((f :: fields).map Field.raw) ++ '\n' :: file rows) =
              some (([] ++ (f :: fields).map Field.text) :: records rows) := h
        have hwritten := written_of_read_line hline
        rw [read, read_line hwritten] at h
        obtain ⟨tail, htail, heq⟩ := map_eq_some_iff.1 h
        cases heq
        exact ⟨⟨cons_ne_nil _ _, hwritten⟩, htail⟩
      · rintro ⟨⟨-, hwritten⟩, hrows⟩
        rw [read, read_line hwritten, hrows]
        rfl

end Lines

end Kit.Csv

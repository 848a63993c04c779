import Clawforge.Net.PyIpAddress
import Clawforge.Sensors.Haproxy
import Mathlib.Data.List.Infix

/-!
# The request of an `httplog` line

A line is its columns, the captured headers and the quoted request. `parse_haproxy_message`
reads client, status, backend and request back, whatever the status and the request are, exactly
when the columns and headers before the request close every group they open, square brackets in
the captured headers included, and none of them starts a token with a double quote.
-/

namespace Clawforge.HaproxySensor

open Kit Net Text List Option

/-! ## The documented shape -/

/-- What stands in a line beside the status and the request. -/
structure Columns where
  client : String
  port : Nat
  date : String
  frontend : String
  backend : String
  timers : String
  bytes : String
  requestCookie : String
  responseCookie : String
  termination : String
  connections : String
  queue : String
  headers : List String

structure Request where
  method : String
  path : String
  version : String

def opensGroup (c : Char) : Bool :=
  c = '[' || c = ']' || c = '{' || c = '}' || c = '"'

/-- A column: some text without a space. -/
def IsColumn (s : String) : Prop := s ≠ "" ∧ ' ' ∉ s.toList

structure Columns.WellFormed (f : Columns) : Prop where
  client : ∃ a, parseIpAddr f.client.toList = some a
  date : ∀ c ∈ f.date.toList, opensGroup c = false
  columns : ∀ s ∈ [f.frontend, f.backend, f.timers, f.bytes, f.requestCookie, f.responseCookie,
    f.termination, f.connections, f.queue], IsColumn s
  headers : ∀ h ∈ f.headers, ∀ c ∈ h.toList, c ≠ '{' ∧ c ≠ '}' ∧ c ≠ '"'

/-- A word of the request line: no blank and no double quote. -/
def IsWord (s : String) : Prop :=
  s ≠ "" ∧ ∀ c ∈ s.toList, isWhitespace c = false ∧ c ≠ '"'

structure Request.WellFormed (r : Request) : Prop where
  method : IsWord r.method
  path : IsWord r.path
  version : '"' ∉ r.version.toList

def Columns.clientText (f : Columns) : List Char :=
  f.client.toList ++ ':' :: Nat.toDigits 10 f.port

def Columns.dateText (f : Columns) : List Char := '[' :: (f.date.toList ++ [']'])

/-- What stands between the status and the request. -/
def Columns.rest (f : Columns) : List Char :=
  ([f.bytes, f.requestCookie, f.responseCookie, f.termination, f.connections, f.queue].flatMap
      fun s => ' ' :: s.toList) ++
    f.headers.flatMap fun h => ' ' :: '{' :: (h.toList ++ ['}'])

def Request.text (r : Request) : List Char :=
  '"' :: (r.method.toList ++ ' ' :: (r.path.toList ++ ' ' :: r.version.toList) ++ ['"'])

/-- The line up to the request, and a text after it. -/
def logText (f : Columns) (status : String) (text : List Char) : List Char :=
  f.clientText ++ ' ' :: (f.dateText ++ ' ' :: (f.frontend.toList ++ ' ' :: (f.backend.toList ++
    ' ' :: (f.timers.toList ++ ' ' :: (status.toList ++ (f.rest ++ ' ' :: text))))))

/-- The line HAProxy logs. -/
def logLine (f : Columns) (status : String) (r : Request) : List Char := logText f status r.text

/-- The line is read back as what it was built from. -/
def ReadBack (f : Columns) (status : String) (code : Int) (r : Request) : Prop :=
  parseHaproxyMessage (String.ofList (logLine f status r)) =
    some ⟨f.client, r.method, r.path, code, f.backend⟩

/-- Nothing before the request hides it: frontend, backend and timers close what they open, so
does the text between status and request, and no token of these starts with a double quote. -/
structure Clear (f : Columns) : Prop where
  columns : ∀ s ∈ [f.frontend, f.backend, f.timers],
    Level.outside.scan s.toList = .outside ∧ startsQuoted s.toList = false
  closed : Level.outside.scan f.rest = .outside
  unquoted : ∀ a b, f.rest = a ++ ' ' :: '"' :: b → Level.outside.scan a ≠ .outside

/-! ## Texts that open nothing -/

theorem next_of_opensGroup {c : Char} (h : opensGroup c = false) (l : Level) : l.next c = l := by
  simp only [opensGroup, Bool.or_eq_false_iff, decide_eq_false_iff_not] at h
  obtain ⟨⟨⟨⟨h1, h2⟩, h3⟩, h4⟩, h5⟩ := h
  unfold Level.next
  rw [if_neg h5, if_neg h1, if_neg h2, if_neg h3, if_neg h4, ite_self]

variable {s : List Char} {r : Request}

theorem scan_of_plain (h : ∀ c ∈ s, opensGroup c = false) (l : Level) : l.scan s = l := by
  induction s with
  | nil => rfl
  | cons c s ih =>
    rw [Level.scan_cons, next_of_opensGroup (h c mem_cons_self),
      ih fun d hd => h d (mem_cons_of_mem c hd)]

theorem opensGroup_digit {radix : Nat} {c : Char} (h : isDigitOf radix c = true) :
    opensGroup c = false := by
  rw [← Bool.not_eq_true]
  intro hopen
  simp only [opensGroup, Bool.or_eq_true, decide_eq_true_eq] at hopen
  rcases hopen with (((rfl | rfl) | rfl) | rfl) | rfl <;>
    simp [isDigitOf, digitValue] at h

theorem address_plain {a : IpAddr} (h : parseIpAddr s = some a) :
    ∀ c ∈ s, opensGroup c = false ∧ c ≠ ' ' := by
  intro c hc
  rcases parseIpAddr_chars h hc with rfl | rfl | hdigit
  · decide
  · decide
  · refine ⟨opensGroup_digit hdigit, ?_⟩
    rintro rfl
    simp [isDigitOf, digitValue] at hdigit

theorem digits_plain (n : Nat) : ∀ c ∈ Nat.toDigits 10 n,
    opensGroup c = false ∧ c ≠ ' ' ∧ c ≠ ':' := by
  intro c hc
  have hdigit : isDigitOf 10 c = true := isDigitOf_of_mem_toDigits (by decide) (by decide) hc
  refine ⟨opensGroup_digit hdigit, ?_, ?_⟩
  · rintro rfl
    simp [isDigitOf, digitValue] at hdigit
  · rintro rfl
    simp [isDigitOf, digitValue] at hdigit

/-- A blank in a text that ends otherwise stands before its end. -/
theorem prefix_of_append_blank {a b body : List Char} {x : Char} (hx : x ≠ ' ')
    (h : body ++ [x] = a ++ ' ' :: b) : a <+: body := by
  rcases append_eq_append_iff.mp h with ⟨m, rfl, hm⟩ | ⟨m, hm, -⟩
  · cases m with
    | nil => exact absurd (cons.inj hm).1 hx
    | cons d m =>
      have hlen := congrArg List.length (cons.inj hm).2
      simp at hlen
  · exact ⟨m, hm.symm⟩

/-- A status column holds a sign and digits. -/
theorem status_plain {code : Int} (h : parseI32 s = some code) :
    s ≠ [] ∧ ∀ c ∈ s, opensGroup c = false ∧ c ≠ ' ' := by
  have hchar : ∀ c : Char, c = '-' ∨ c = '+' ∨ isDigitOf 10 c = true →
      opensGroup c = false ∧ c ≠ ' ' := by
    rintro c (rfl | rfl | hdigit)
    · decide
    · decide
    · refine ⟨opensGroup_digit hdigit, ?_⟩
      rintro rfl
      simp [isDigitOf, digitValue] at hdigit
  unfold parseI32 at h
  split at h
  · next digits =>
    split at h
    · next hdigits =>
      refine ⟨cons_ne_nil _ _, fun c hc => hchar c ?_⟩
      rcases mem_cons.mp hc with rfl | hc
      · exact .inl rfl
      · exact .inr (.inr (List.all_eq_true.mp hdigits.2.1 c hc))
    · cases h
  · obtain ⟨n, hn, -⟩ := map_eq_some_iff.mp h
    refine ⟨?_, fun c hc => hchar c ?_⟩
    · rintro rfl
      cases hn
    · rcases parseUnsigned_chars hn hc with rfl | hdigit
      · exact .inr (.inl rfl)
      · exact .inr (.inr hdigit)

/-! ## The tokens before the rest -/

section Front

variable {f : Columns} (hf : f.WellFormed)

include hf

theorem clientText_closed : f.clientText ≠ [] ∧ Uncut .outside f.clientText ∧
    Level.outside.scan f.clientText = .outside ∧ startsQuoted f.clientText = false := by
  obtain ⟨a, ha⟩ := hf.client
  have hplain : ∀ c ∈ f.clientText, opensGroup c = false ∧ c ≠ ' ' := by
    intro c hc
    rcases mem_append.mp hc with hc | hc
    · exact address_plain ha c hc
    · rcases mem_cons.mp hc with rfl | hc
      · decide
      · exact ⟨(digits_plain f.port c hc).1, (digits_plain f.port c hc).2.1⟩
  have hne : f.clientText ≠ [] := by simp [Columns.clientText]
  refine ⟨hne, uncut_of_no_blank fun hmem => (hplain _ hmem).2 rfl,
    scan_of_plain (fun c hc => (hplain c hc).1) _, ?_⟩
  obtain ⟨c, t, ht⟩ := exists_cons_of_ne_nil hne
  have hc := (hplain c (ht ▸ mem_cons_self)).1
  rw [ht, startsQuoted, head?_cons, ← Bool.not_eq_true]
  intro hquote
  rw [show c = '"' by simpa using hquote] at hc
  cases hc

theorem dateText_closed : Uncut .outside f.dateText ∧
    Level.outside.scan f.dateText = .outside := by
  have hinside : ∀ s : List Char, (∀ c ∈ s, opensGroup c = false) →
      Level.outside.scan ('[' :: s) = ⟨1, 0, false⟩ := fun s hs => by
    rw [Level.scan_cons, scan_of_plain hs]
    rfl
  constructor
  · intro a b hab
    cases a with
    | nil => cases hab
    | cons c a =>
      obtain ⟨rfl, htail⟩ := cons.inj hab
      have hpre := prefix_of_append_blank (by decide) htail
      rw [hinside a fun c hc => hf.date c (hpre.subset hc)]
      decide
  · show Level.outside.scan ('[' :: (f.date.toList ++ [']'])) = _
    rw [← cons_append, Level.scan_append, hinside _ hf.date]
    rfl

/-- The tokens of a line whose frontend, backend and timers close what they open. -/
theorem tokens_logText {status : String} {code : Int} (text : List Char)
    (hstatus : parseI32 status.toList = some code)
    (hclosed : ∀ s ∈ [f.frontend, f.backend, f.timers],
      Level.outside.scan s.toList = .outside) :
    tokenizeHaproxyLog (logText f status text) =
      f.clientText :: f.dateText :: f.frontend.toList :: f.backend.toList :: f.timers.toList ::
        status.toList :: (pieces .outside (f.rest ++ ' ' :: text)).2 := by
  obtain ⟨hclientNe, hclient, hclientClosed, -⟩ := clientText_closed hf
  obtain ⟨hdate, hdateClosed⟩ := dateText_closed hf
  have hdateNe : f.dateText ≠ [] := cons_ne_nil _ _
  have hcolumn : ∀ s ∈ [f.frontend, f.backend, f.timers], s.toList ≠ [] ∧
      Uncut .outside s.toList := by
    intro s hs
    have hs' : IsColumn s := hf.columns s (by
      simp only [mem_cons, not_mem_nil, or_false] at hs ⊢
      tauto)
    exact ⟨fun hnil => hs'.1 (String.toList_eq_nil_iff.mp hnil), uncut_of_no_blank hs'.2⟩
  have hfrontend := hcolumn f.frontend (by simp)
  have hbackend := hcolumn f.backend (by simp)
  have htimers := hcolumn f.timers (by simp)
  obtain ⟨hstatusNe, hplain⟩ := status_plain hstatus
  have hstatusClosed : Level.outside.scan status.toList = .outside :=
    scan_of_plain (fun c hc => (hplain c hc).1) _
  have hstatusUncut : Uncut .outside status.toList :=
    uncut_of_no_blank fun hmem => (hplain _ hmem).2 rfl
  obtain ⟨rest, hrest⟩ : ∃ rest, f.rest ++ ' ' :: text = ' ' :: rest := ⟨_, rfl⟩
  rw [tokenizeHaproxyLog_eq, logText, hrest, tokens_closed hclientNe hclient hclientClosed,
    tokens_closed hdateNe hdate hdateClosed,
    tokens_closed hfrontend.1 hfrontend.2 (hclosed _ (by simp)),
    tokens_closed hbackend.1 hbackend.2 (hclosed _ (by simp)),
    tokens_closed htimers.1 htimers.2 (hclosed _ (by simp)),
    tokens_closed hstatusNe hstatusUncut hstatusClosed, pieces_blank]

end Front

/-! ## The request line -/

/-- The first two words of a quoted token. -/
def requestWords (token : List Char) : Option (List Char × List Char) :=
  match splitWhitespace (trimMatches '"' token) with
  | method :: path :: _ => some (method, path)
  | _ => none

theorem requestWords_first {token word : List Char} {more : List (List Char)}
    {words : List Char × List Char}
    (hsplit : splitWhitespace (trimMatches '"' token) = word :: more)
    (h : requestWords token = some words) : words.1 = word := by
  unfold requestWords at h
  rw [hsplit] at h
  split at h
  · next heq =>
    cases h
    exact (cons.inj heq).1.symm
  · cases h

theorem splitWhitespace_word {w : List Char} (hne : w ≠ [])
    (hw : ∀ c ∈ w, isWhitespace c = false) (u : List Char) :
    splitWhitespace (w ++ ' ' :: u) = w :: splitWhitespace u := by
  unfold splitWhitespace
  rw [splitOnP_append_cons_of_forall_mem hw _ (by decide), filter_cons_of_pos]
  simpa using hne

/-- Trimming the quotes of a quoted text. -/
theorem trimMatches_quoted {body : List Char} (hne : body ≠ []) (h : '"' ∉ body) :
    trimMatches '"' ('"' :: (body ++ ['"'])) = body := by
  have hkeep : ∀ s : List Char, s ≠ [] → '"' ∉ s → ∀ u, (s ++ u).dropWhile (· = '"') = s ++ u := by
    intro s hs hq u
    obtain ⟨c, t, rfl⟩ := exists_cons_of_ne_nil hs
    have hc : c ≠ '"' := fun hc => hq (hc ▸ mem_cons_self)
    rw [cons_append, dropWhile_cons_of_neg (by simpa using hc)]
  unfold trimMatches
  rw [dropWhile_cons_of_pos (by simp), hkeep body hne h, reverse_append,
    reverse_singleton, singleton_append, dropWhile_cons_of_pos (by simp)]
  have hback := hkeep body.reverse (by simpa using hne) (by simpa using h) []
  rw [append_nil] at hback
  rw [hback, reverse_reverse]

theorem requestWords_text (hr : r.WellFormed) :
    requestWords r.text = some (r.method.toList, r.path.toList) := by
  have hword : ∀ s, IsWord s → s.toList ≠ [] ∧ (∀ c ∈ s.toList, isWhitespace c = false) ∧
      '"' ∉ s.toList := fun s hs =>
    ⟨fun hnil => hs.1 (String.toList_eq_nil_iff.mp hnil), fun c hc => (hs.2 c hc).1,
      fun hmem => (hs.2 _ hmem).2 rfl⟩
  obtain ⟨hmethodNe, hmethod, hmethodQ⟩ := hword _ hr.method
  obtain ⟨hpathNe, hpath, hpathQ⟩ := hword _ hr.path
  have hquotes : '"' ∉ r.method.toList ++ ' ' :: (r.path.toList ++ ' ' :: r.version.toList) := by
    simp only [mem_append, mem_cons, not_or]
    exact ⟨hmethodQ, by decide, hpathQ, by decide, hr.version⟩
  unfold requestWords Request.text
  rw [trimMatches_quoted (by simp) hquotes, splitWhitespace_word hmethodNe hmethod,
    splitWhitespace_word hpathNe hpath]

/-- The request is one token. -/
theorem text_uncut (hr : r.WellFormed) : Uncut .outside r.text ∧
    Level.outside.scan r.text = .outside := by
  have hquotes : '"' ∉ r.method.toList ++ ' ' :: (r.path.toList ++ ' ' :: r.version.toList) := by
    simp only [mem_append, mem_cons, not_or]
    exact ⟨fun h => (hr.method.2 _ h).2 rfl, by decide, fun h => (hr.path.2 _ h).2 rfl, by decide,
      hr.version⟩
  have hinside : ∀ s : List Char, '"' ∉ s →
      Level.outside.scan ('"' :: s) = ⟨0, 0, true⟩ := by
    intro s hs
    have hquote : ∀ (s : List Char), '"' ∉ s → Level.scan ⟨0, 0, true⟩ s = ⟨0, 0, true⟩ := by
      intro s
      induction s with
      | nil => exact fun _ => rfl
      | cons c s ih =>
        intro h
        rw [mem_cons, not_or] at h
        have hc : Level.next ⟨0, 0, true⟩ c = ⟨0, 0, true⟩ := by
          unfold Level.next
          rw [if_neg (Ne.symm h.1)]
          rfl
        rw [Level.scan_cons, hc, ih h.2]
    rw [Level.scan_cons]
    exact hquote s hs
  constructor
  · intro a b hab
    cases a with
    | nil => cases hab
    | cons c a =>
      obtain ⟨rfl, htail⟩ := cons.inj hab
      have hpre := prefix_of_append_blank (by decide) htail
      rw [hinside a fun hmem => hquotes (hpre.subset hmem)]
      decide
  · unfold Request.text
    rw [← cons_append, Level.scan_append, hinside _ hquotes]
    rfl

/-! ## What is read off the tokens -/

/-- The status is the sixth token, the request the first one that starts with a quote. -/
theorem parse_some {cs : List Char} {q : HaproxyRequest}
    (h : parseHaproxyMessage (String.ofList cs) = some q) :
    (tokenizeHaproxyLog cs)[5]?.bind parseI32 = some q.statusCode ∧
      ∃ token words, (tokenizeHaproxyLog cs).find? startsQuoted = some token ∧
        requestWords token = some words ∧ q.method.toList = words.1 ∧ q.path.toList = words.2 := by
  unfold parseHaproxyMessage at h
  rw [String.toList_ofList] at h
  dsimp only at h
  split at h
  · cases h
  obtain ⟨⟨ip, port⟩, -, h⟩ := bind_eq_some_iff.mp h
  dsimp only at h
  split at h
  · cases h
  obtain ⟨code, hcode, h⟩ := bind_eq_some_iff.mp h
  obtain ⟨token, htoken, h⟩ := bind_eq_some_iff.mp h
  split at h
  · next method path more hwords =>
    cases h
    refine ⟨hcode, token, (method, path), htoken, ?_, String.toList_ofList, String.toList_ofList⟩
    unfold requestWords
    rw [hwords]
  · cases h

theorem rsplitOnce_append {sep : Char} {before after : List Char} (h : sep ∉ after) :
    rsplitOnce sep (before ++ sep :: after) = some (before, after) := by
  have hrev : sep ∉ after.reverse := fun hmem => h (mem_reverse.mp hmem)
  unfold rsplitOnce
  rw [reverse_append, reverse_cons, append_assoc, singleton_append,
    splitOnce_append hrev]
  simp

variable {words : List (List Char)} {f : Columns}

/-- The whole line, once its tokens and its request token are known. -/
theorem parse_eq (hf : f.WellFormed) {cs : List Char} {p₁ p₂ p₄ p₅ : List Char}
    {more : List (List Char)} {code : Int} {token : List Char} {words : List Char × List Char}
    (htokens : tokenizeHaproxyLog cs =
      f.clientText :: p₁ :: p₂ :: f.backend.toList :: p₄ :: p₅ :: more)
    (hcode : parseI32 p₅ = some code)
    (htoken : (tokenizeHaproxyLog cs).find? startsQuoted = some token)
    (hwords : requestWords token = some words) :
    parseHaproxyMessage (String.ofList cs) =
      some ⟨f.client, String.ofList words.1, String.ofList words.2, code, f.backend⟩ := by
  obtain ⟨a, ha⟩ := hf.client
  have hsplit : rsplitOnce ':' f.clientText = some (f.client.toList, Nat.toDigits 10 f.port) :=
    rsplitOnce_append fun hmem => (digits_plain f.port _ hmem).2.2 rfl
  have htrim : trim f.client.toList = f.client.toList := by
    refine trim_of_no_blank fun c hc => ?_
    rcases parseIpAddr_chars ha hc with rfl | rfl | hdigit
    · decide
    · decide
    · exact isWhitespace_of_isDigitOf hdigit
  have hne : f.client.toList ≠ [] := by
    intro hnil
    rw [hnil] at ha
    cases ha
  obtain ⟨method, path⟩ := words
  obtain ⟨rest, hrest⟩ : ∃ rest, splitWhitespace (trimMatches '"' token) =
      method :: path :: rest := by
    unfold requestWords at hwords
    split at hwords
    · next hsplitWords =>
      cases hwords
      exact ⟨_, hsplitWords⟩
    · cases hwords
  unfold parseHaproxyMessage
  rw [String.toList_ofList]
  rw [htokens] at htoken ⊢
  simp only [length_cons, head?_cons, bind_some, bind_eq_bind, hsplit,
    htrim, hne, if_false, getElem?_cons_succ, getElem?_cons_zero, getD_some,
    hcode, htoken, hrest, String.ofList_toList]
  rw [if_neg (by omega)]

/-! ## A clear line is read back -/

theorem readBack_of_clear (hf : f.WellFormed) (hclear : Clear f) {status : String} {code : Int}
    (hstatus : parseI32 status.toList = some code) (hr : r.WellFormed) :
    ReadBack f status code r := by
  have htokens := tokens_logText hf r.text hstatus fun s hs => (hclear.columns s hs).1
  have hrequest : (pieces .outside r.text).tokens = [r.text] := by
    obtain ⟨huncut, hclosed⟩ := text_uncut hr
    have := pieces_append huncut []
    rw [append_nil, hclosed] at this
    rw [this]
    simp [Pieces.tokens, pieces, Request.text]
  rw [pieces_cut hclear.closed, hrequest] at htokens
  have hquiet : ∀ token ∈ [f.clientText, f.dateText, f.frontend.toList, f.backend.toList,
      f.timers.toList, status.toList], startsQuoted token = false := by
    intro token htoken
    simp only [mem_cons, not_mem_nil, or_false] at htoken
    rcases htoken with rfl | rfl | rfl | rfl | rfl | rfl
    · exact (clientText_closed hf).2.2.2
    · rfl
    · exact (hclear.columns f.frontend (by simp)).2
    · exact (hclear.columns f.backend (by simp)).2
    · exact (hclear.columns f.timers (by simp)).2
    · obtain ⟨hne, hplain⟩ := status_plain hstatus
      obtain ⟨c, t, ht⟩ := exists_cons_of_ne_nil hne
      have hc := (hplain c (ht ▸ mem_cons_self)).1
      rw [ht, startsQuoted, head?_cons, ← Bool.not_eq_true]
      intro hquote
      rw [show c = '"' by simpa using hquote] at hc
      cases hc
  have hrest : ∀ token ∈ (pieces .outside f.rest).2, ¬ startsQuoted token = true := by
    intro token hmem hquoted
    obtain ⟨a, b, hab, ha⟩ := quoted_of_mem hmem hquoted
    exact hclear.unquoted a b hab ha
  have hfind : (tokenizeHaproxyLog (logLine f status r)).find? startsQuoted = some r.text := by
    have hlist : tokenizeHaproxyLog (logLine f status r) =
        ([f.clientText, f.dateText, f.frontend.toList, f.backend.toList, f.timers.toList,
          status.toList] ++ (pieces .outside f.rest).2) ++ [r.text] := by
      rw [logLine, htokens]
      simp
    rw [hlist, find?_append, find?_eq_none.mpr]
    · rfl
    · intro token hmem hquoted
      rcases mem_append.mp hmem with hmem | hmem
      · rw [hquiet token hmem] at hquoted
        cases hquoted
      · exact hrest token hmem hquoted
  have hparse := parse_eq hf htokens hstatus hfind (requestWords_text hr)
  rwa [String.ofList_toList, String.ofList_toList] at hparse

/-! ## Only a clear line is read back whatever it reports -/

/-- Words, each with a blank behind it, before a text. -/
def glue (words : List (List Char)) (text : List Char) : List Char :=
  words.foldr (fun word rest => word ++ ' ' :: rest) text

/-- Words of a line: some text without a blank. -/
def Words (words : List (List Char)) : Prop := ∀ word ∈ words, word ≠ [] ∧ ' ' ∉ word

theorem pieces_glue_ne_nil (hwords : Words words) {status : List Char}
    (hstatus : status ≠ [] ∧ ' ' ∉ status) (l : Level) (rest : List Char) :
    (pieces l (glue words (status ++ rest))).1 ≠ [] := by
  have hfirst : ∀ word : List Char, word ≠ [] ∧ ' ' ∉ word → ∀ u,
      (pieces l (word ++ u)).1 ≠ [] := by
    intro word hword u
    rw [pieces_append (uncut_of_no_blank hword.2)]
    exact append_ne_nil_of_left_ne_nil hword.1 _
  cases words with
  | nil => exact hfirst status hstatus rest
  | cons word words => exact hfirst word (hwords word mem_cons_self) _

/-- With a token pending before the words, the tokens from the words' number on are those
behind the status. -/
theorem pending_glue (hwords : Words words) (l : Level) (rest : List Char) {n : Nat}
    (hn : words.length ≤ n) :
    ∃ o, ∀ status code, parseI32 status = some code →
      (pieces l (glue words (status ++ rest))).2[n]? = o := by
  induction words generalizing l n with
  | nil =>
    refine ⟨(pieces l rest).2[n]?, fun status code hstatus => ?_⟩
    obtain ⟨-, hplain⟩ := status_plain hstatus
    show (pieces l (status ++ rest)).2[n]? = _
    rw [pieces_append (uncut_of_no_blank fun hmem => (hplain _ hmem).2 rfl),
      scan_of_plain fun c hc => (hplain c hc).1]
  | cons word words ih =>
    have hwords' : Words words := fun w hw => hwords w (mem_cons_of_mem _ hw)
    have huncut := uncut_of_no_blank (l := l) (hwords word mem_cons_self).2
    have hcons : ∀ status, pieces l (glue (word :: words) (status ++ rest)) =
        (word ++ (pieces (l.scan word) (' ' :: glue words (status ++ rest))).1,
          (pieces (l.scan word) (' ' :: glue words (status ++ rest))).2) :=
      fun status => pieces_append huncut _
    by_cases hout : l.scan word = .outside
    · obtain ⟨m, rfl⟩ : ∃ m, n = m + 1 := ⟨n - 1, by
        rw [length_cons] at hn
        omega⟩
      obtain ⟨o, ho⟩ := ih hwords' .outside (n := m) (by
        rw [length_cons] at hn
        omega)
      refine ⟨o, fun status code hstatus => ?_⟩
      obtain ⟨hne, hplain⟩ := status_plain hstatus
      rw [hcons, hout, pieces_blank, Pieces.tokens,
        if_neg (pieces_glue_ne_nil hwords' ⟨hne, fun hmem => (hplain _ hmem).2 rfl⟩ _ _)]
      exact ho status code hstatus
    · obtain ⟨o, ho⟩ := ih hwords' (l.scan word) (n := n) (by
        rw [length_cons] at hn
        omega)
      refine ⟨o, fun status code hstatus => ?_⟩
      rw [hcons, pieces_blank_inside hout]
      exact ho status code hstatus

/-- The status is the token after the words only if each word closes what it opens. -/
theorem closed_or_fixed (hwords : Words words) (rest : List Char) :
    (∀ word ∈ words, Level.outside.scan word = .outside) ∨
      ∃ o, ∀ status code, parseI32 status = some code →
        (pieces .outside (glue words (status ++ rest))).tokens[words.length]? = o := by
  induction words with
  | nil => exact .inl fun word hmem => (nomatch hmem)
  | cons word words ih =>
    have hwords' : Words words := fun w hw => hwords w (mem_cons_of_mem _ hw)
    obtain ⟨hne, hblank⟩ := hwords word mem_cons_self
    have huncut := uncut_of_no_blank (l := .outside) hblank
    by_cases hout : Level.outside.scan word = .outside
    · have hcons : ∀ status, (pieces .outside (glue (word :: words) (status ++ rest))).tokens =
          word :: (pieces .outside (glue words (status ++ rest))).tokens :=
        fun status => tokens_closed hne huncut hout _
      rcases ih hwords' with hclosed | ⟨o, ho⟩
      · refine .inl fun w hw => ?_
        rcases mem_cons.mp hw with rfl | hw
        · exact hout
        · exact hclosed w hw
      · refine .inr ⟨o, fun status code hstatus => ?_⟩
        rw [hcons, length_cons, getElem?_cons_succ]
        exact ho status code hstatus
    · obtain ⟨o, ho⟩ := pending_glue hwords' (Level.outside.scan word) rest (Nat.le_refl _)
      refine .inr ⟨o, fun status code hstatus => ?_⟩
      have hcons : pieces .outside (glue (word :: words) (status ++ rest)) =
          (word ++ (pieces (Level.outside.scan word) (' ' :: glue words (status ++ rest))).1,
            (pieces (Level.outside.scan word) (' ' :: glue words (status ++ rest))).2) :=
        pieces_append huncut _
      rw [hcons, Pieces.tokens, if_neg (append_ne_nil_of_left_ne_nil hne _),
        length_cons, getElem?_cons_succ, pieces_blank_inside hout]
      exact ho status code hstatus

/-! ### The tokenizer before the request -/

theorem Tokenizer.run_level_current {t : Tokenizer} (h : t.level = Level.outside.scan t.current)
    (s : List Char) : (t.run s).level = Level.outside.scan (t.run s).current := by
  induction s generalizing t with
  | nil => exact h
  | cons c s ih =>
    refine ih (t := t.step c) ?_
    unfold Tokenizer.step
    split
    · next hcut =>
      split
      · exact h
      · exact hcut.2
    · dsimp only
      rw [Level.scan_append, ← h]
      rfl

/-- Behind a blank nothing is pending, or the pending token ends with the blank. -/
theorem Tokenizer.run_blank (t : Tokenizer) (s : List Char) :
    (t.run (s ++ [' '])).current = [] ∨
      ((t.run (s ++ [' '])).level ≠ .outside ∧
        ∃ c, (t.run (s ++ [' '])).current = c ++ [' ']) := by
  have hlast : t.run (s ++ [' ']) = (t.run s).step ' ' := Tokenizer.run_append t s [' ']
  rw [hlast]
  generalize t.run s = u
  unfold Tokenizer.step
  by_cases hcut : u.level = .outside
  · rw [if_pos ⟨rfl, hcut⟩]
    left
    split
    · assumption
    · rfl
  · rw [if_neg fun h => hcut h.2]
    exact .inr ⟨by rwa [Level.next_blank], u.current, rfl⟩

theorem dropWhile_append_stop {p : Char → Bool} {x : Char} (hx : p x = false) (s u : List Char) :
    (s ++ x :: u).dropWhile p = s.dropWhile p ++ x :: u := by
  induction s with
  | nil => rw [nil_append, dropWhile_cons_of_neg (by simp [hx])]; rfl
  | cons c s ih =>
    by_cases hc : p c = true
    · rw [cons_append, dropWhile_cons_of_pos hc, dropWhile_cons_of_pos hc, ih]
    · rw [cons_append, dropWhile_cons_of_neg hc, dropWhile_cons_of_neg hc]
      rfl

/-- The words of a token with a blank in it: those before the blank come first. -/
theorem splitWhitespace_trimMatches (c w : List Char) :
    splitWhitespace (trimMatches '"' (c ++ ' ' :: w)) =
      splitWhitespace (c.dropWhile (· = '"')) ++
        splitWhitespace (w.reverse.dropWhile (· = '"')).reverse := by
  unfold trimMatches
  rw [dropWhile_append_stop (by decide), reverse_append, reverse_cons,
    append_assoc, singleton_append, dropWhile_append_stop (by decide),
    reverse_append, reverse_cons, reverse_reverse, append_assoc,
    singleton_append]
  unfold splitWhitespace
  rw [splitOnP_append_cons _ _ (by decide), filter_append]

theorem opensGroup_whitespace {c : Char} (h : isWhitespace c = true) : opensGroup c = false := by
  rw [← Bool.not_eq_true]
  intro hopen
  simp only [opensGroup, Bool.or_eq_true, decide_eq_true_eq] at hopen
  rcases hopen with (((rfl | rfl) | rfl) | rfl) | rfl <;> simp [isWhitespace] at h

theorem whitespace_of_no_words (h : splitWhitespace s = []) : ∀ x ∈ s, isWhitespace x = true := by
  induction s with
  | nil => exact fun x hx => (nomatch hx)
  | cons y s ih =>
    unfold splitWhitespace at h ih
    rw [splitOnP_cons_eq_if_modifyHead] at h
    cases hy : isWhitespace y with
    | true =>
      rw [if_pos hy] at h
      intro x hx
      rcases mem_cons.mp hx with rfl | hx
      · exact hy
      · exact ih h x hx
    | false =>
      obtain ⟨word, rest, hsplit⟩ := exists_cons_of_ne_nil
        (splitOnP_ne_nil isWhitespace s)
      rw [if_neg (by simp [hy]), hsplit] at h
      cases h

/-- Without words, a text is quotes and blanks: it opens no bracket and no brace. -/
theorem scan_of_no_words {c : List Char} (h : splitWhitespace (c.dropWhile (· = '"')) = []) :
    (Level.outside.scan c).brackets = 0 ∧ (Level.outside.scan c).braces = 0 := by
  have hall : ∀ x ∈ c, x = '"' ∨ opensGroup x = false := by
    intro x hx
    rw [← takeWhile_append_dropWhile (p := fun y => decide (y = '"')) (l := c)] at hx
    rcases mem_append.mp hx with hx | hx
    · have hquote := mem_takeWhile_imp (p := fun y => decide (y = '"')) hx
      exact .inl (of_decide_eq_true hquote)
    · exact .inr (opensGroup_whitespace (whitespace_of_no_words h x hx))
  have hkeep : ∀ (s : List Char) (l : Level), (∀ x ∈ s, x = '"' ∨ opensGroup x = false) →
      (l.scan s).brackets = l.brackets ∧ (l.scan s).braces = l.braces := by
    intro s
    induction s with
    | nil => exact fun _ _ => ⟨rfl, rfl⟩
    | cons x s ih =>
      intro l hs
      have hx : (l.next x).brackets = l.brackets ∧ (l.next x).braces = l.braces := by
        rcases hs x mem_cons_self with rfl | hplain
        · exact ⟨rfl, rfl⟩
        · rw [next_of_opensGroup hplain]
          exact ⟨rfl, rfl⟩
      obtain ⟨hbrackets, hbraces⟩ := ih (l.next x) fun y hy => hs y (mem_cons_of_mem x hy)
      exact ⟨hbrackets.trans hx.1, hbraces.trans hx.2⟩
  exact hkeep c .outside hall

/-! ### Two requests the parser tells apart -/

def getRequest : Request := ⟨"GET", "/a", "HTTP/1.1"⟩

def headRequest : Request := ⟨"HEAD", "/b", "HTTP/1.1"⟩

theorem getRequest_wellFormed : getRequest.WellFormed :=
  ⟨⟨by decide, by decide⟩, ⟨by decide, by decide⟩, by decide⟩

theorem headRequest_wellFormed : headRequest.WellFormed :=
  ⟨⟨by decide, by decide⟩, ⟨by decide, by decide⟩, by decide⟩

/-- Before the request every group is closed, and no token starts with a quote. -/
theorem tokenizer_before_request (head : List Char)
    (hread : ∀ r : Request, r.WellFormed → ∃ q, parseHaproxyMessage
      (String.ofList (head ++ [' '] ++ r.text)) = some q ∧ q.method = r.method) :
    (Tokenizer.start.run (head ++ [' '])).current = [] ∧
      ∀ token ∈ (Tokenizer.start.run (head ++ [' '])).tokens, startsQuoted token = false := by
  have hline : ∀ r : Request, r.WellFormed → ∃ token words,
      (tokenizeHaproxyLog (head ++ [' '] ++ r.text)).find? startsQuoted = some token ∧
        requestWords token = some words ∧ words.1 = r.method.toList := by
    intro r hr
    obtain ⟨q, hq, hmethod⟩ := hread r hr
    obtain ⟨-, token, words, htoken, hwords, hfirst, -⟩ := parse_some hq
    exact ⟨token, words, htoken, hwords, by rw [← hfirst, hmethod]⟩
  obtain ⟨get, getWords, hget, hgetWords, hgetMethod⟩ := hline getRequest getRequest_wellFormed
  obtain ⟨headToken, headWords, hhead, hheadWords, hheadMethod⟩ :=
    hline headRequest headRequest_wellFormed
  have hmethods : getWords.1 ≠ headWords.1 := by
    rw [hgetMethod, hheadMethod]
    decide
  have htokens : ∀ r : Request, tokenizeHaproxyLog (head ++ [' '] ++ r.text) =
      (Tokenizer.start.run (head ++ [' '])).tokens ++ Pieces.tokens
        ((Tokenizer.start.run (head ++ [' '])).current ++
          (pieces (Tokenizer.start.run (head ++ [' '])).level r.text).1,
          (pieces (Tokenizer.start.run (head ++ [' '])).level r.text).2) := by
    intro r
    unfold tokenizeHaproxyLog
    rw [Tokenizer.run_append, finish_run]
  have hlevel := Tokenizer.run_level_current (t := .start) rfl (head ++ [' '])
  have hblank := Tokenizer.run_blank .start head
  revert htokens hlevel hblank
  generalize Tokenizer.start.run (head ++ [' ']) = t
  intro htokens hlevel hblank
  rw [htokens, find?_append] at hget hhead
  -- a token before the request would give both requests one method
  have hquiet : ∀ token ∈ t.tokens, startsQuoted token = false := by
    intro token hmem
    rw [← Bool.not_eq_true]
    intro hquoted
    obtain ⟨first, hfirst⟩ := isSome_iff_exists.mp
      (find?_isSome.mpr ⟨token, hmem, hquoted⟩)
    rw [hfirst, some_or] at hget hhead
    obtain rfl := some.inj (hget.symm.trans hhead)
    exact hmethods (congrArg Prod.fst (some.inj (hgetWords.symm.trans hheadWords)))
  refine ⟨?_, hquiet⟩
  have hnone : t.tokens.find? startsQuoted = none :=
    find?_eq_none.mpr fun token hmem => by
      rw [hquiet token hmem]
      exact Bool.false_ne_true
  rcases hblank with hdone | ⟨hinside, c, hcurrent⟩
  · exact hdone
  exfalso
  have hne : ∀ w : List Char, c ++ [' '] ++ w ≠ [] := fun w => by simp
  rw [hnone, none_or, hcurrent, Pieces.tokens, if_neg (hne _), find?_cons] at hget hhead
  have hstart : ∀ w : List Char, startsQuoted (c ++ [' '] ++ w) = startsQuoted (c ++ [' ']) := by
    intro w
    cases c <;> rfl
  rw [hstart] at hget hhead
  cases hquoted : startsQuoted (c ++ [' ']) with
  | false =>
    -- the request is swallowed: no token of it starts with a quote
    rw [hquoted] at hget
    obtain ⟨a, b, hab, -⟩ := quoted_of_mem (mem_of_find?_eq_some hget)
      (find?_some hget)
    have hinside : contains [' ', '"'] getRequest.text = true := by
      rw [hab]
      exact List.any_eq_true.mpr ⟨_, (mem_tails _ _).mpr ⟨a, rfl⟩, rfl⟩
    revert hinside
    decide
  | true =>
    rw [hquoted] at hget hhead
    obtain rfl := some.inj hget
    obtain rfl := some.inj hhead
    rw [append_assoc, singleton_append] at hgetWords hheadWords
    cases hwords : splitWhitespace (c.dropWhile (· = '"')) with
    | cons word more =>
      -- the pending token already names the method
      have hmethod : ∀ {rest : List Char} {words : List Char × List Char},
          requestWords (c ++ ' ' :: rest) = some words → words.1 = word := fun h =>
        requestWords_first (by rw [splitWhitespace_trimMatches, hwords, cons_append]) h
      exact hmethods ((hmethod hgetWords).trans (hmethod hheadWords).symm)
    | nil =>
      unfold requestWords at hgetWords
      rw [splitWhitespace_trimMatches] at hgetWords
      -- the request's quote closes the pending one, and only the method follows it
      have hquotes : t.level = ⟨0, 0, true⟩ := by
        obtain ⟨hbrackets, hbraces⟩ := scan_of_no_words hwords
        rw [hcurrent, Level.scan_append] at hlevel
        have hsame : t.level = Level.outside.scan c := by
          rw [hlevel, Level.scan_cons, Level.next_blank]
          rfl
        rw [hsame] at hinside ⊢
        generalize Level.outside.scan c = l at *
        obtain ⟨brackets, braces, inQuotes⟩ := l
        obtain rfl : brackets = 0 := hbrackets
        obtain rfl : braces = 0 := hbraces
        cases inQuotes
        · exact (hinside rfl).elim
        · rfl
      rw [hwords, hquotes] at hgetWords
      revert hgetWords
      have hshort : splitWhitespace ((pieces ⟨0, 0, true⟩ getRequest.text).1.reverse.dropWhile
          (· = '"')).reverse = [['"', 'G', 'E', 'T']] := by decide
      rw [hshort]
      intro h
      cases h

/-- The line up to the request. -/
theorem logText_append (f : Columns) (status : String) (text : List Char) :
    logText f status text = logText f status [] ++ text := by
  simp [logText]

theorem logText_blank (f : Columns) (status : String) :
    ∃ head, logText f status [] = head ++ [' '] :=
  ⟨f.clientText ++ ' ' :: (f.dateText ++ ' ' :: (f.frontend.toList ++ ' ' :: (f.backend.toList ++
    ' ' :: (f.timers.toList ++ ' ' :: (status.toList ++ f.rest))))), by simp [logText]⟩

/-- Two statuses are told apart only if frontend, backend and timers close what they open. -/
theorem columns_closed (hf : f.WellFormed)
    (hread : ∀ status code, parseI32 status.toList = some code → ReadBack f status code getRequest) :
    ∀ s ∈ [f.frontend, f.backend, f.timers], Level.outside.scan s.toList = .outside := by
  obtain ⟨hclientNe, hclient, hclientClosed, -⟩ := clientText_closed hf
  obtain ⟨hdate, hdateClosed⟩ := dateText_closed hf
  have hdateNe : f.dateText ≠ [] := cons_ne_nil _ _
  have hwords : Words [f.frontend.toList, f.backend.toList, f.timers.toList] := by
    have hcolumn : ∀ s, IsColumn s → s.toList ≠ [] ∧ ' ' ∉ s.toList := fun s hs =>
      ⟨fun hnil => hs.1 (String.toList_eq_nil_iff.mp hnil), hs.2⟩
    intro word hword
    simp only [mem_cons, not_mem_nil, or_false] at hword
    rcases hword with rfl | rfl | rfl
    · exact hcolumn _ (hf.columns _ (by simp))
    · exact hcolumn _ (hf.columns _ (by simp))
    · exact hcolumn _ (hf.columns _ (by simp))
  have hsixth : ∀ status : String, (tokenizeHaproxyLog (logLine f status getRequest))[5]? =
      (pieces .outside (glue [f.frontend.toList, f.backend.toList, f.timers.toList]
        (status.toList ++ (f.rest ++ ' ' :: getRequest.text)))).tokens[3]? := by
    intro status
    rw [tokenizeHaproxyLog_eq, logLine, logText, tokens_closed hclientNe hclient hclientClosed,
      tokens_closed hdateNe hdate hdateClosed, getElem?_cons_succ, getElem?_cons_succ]
    rfl
  have hstatus : ∀ (status : String) (code : Int), parseI32 status.toList = some code →
      ((pieces .outside (glue [f.frontend.toList, f.backend.toList, f.timers.toList]
        (status.toList ++ (f.rest ++ ' ' :: getRequest.text)))).tokens[3]?).bind parseI32 =
          some code := by
    intro status code hcode
    rw [← hsixth]
    exact (parse_some (hread status code hcode)).1
  rcases closed_or_fixed hwords (f.rest ++ ' ' :: getRequest.text) with hclosed | ⟨o, ho⟩
  · intro s hs
    refine hclosed s.toList ?_
    simp only [mem_cons, not_mem_nil, or_false] at hs ⊢
    rcases hs with rfl | rfl | rfl <;> simp
  · have hok := hstatus "200" 200 (by decide)
    have hmissing := hstatus "404" 404 (by decide)
    have hfixed : ∀ status code, parseI32 status = some code →
        (pieces .outside (glue [f.frontend.toList, f.backend.toList, f.timers.toList]
          (status ++ (f.rest ++ ' ' :: getRequest.text)))).tokens[3]? = o := ho
    rw [hfixed "200".toList 200 (by decide)] at hok
    rw [hfixed "404".toList 404 (by decide)] at hmissing
    rw [hok] at hmissing
    cases hmissing

theorem clear_of_readBack (hf : f.WellFormed)
    (hread : ∀ status code r, parseI32 status.toList = some code → r.WellFormed →
      ReadBack f status code r) : Clear f := by
  have hclosed := columns_closed hf fun status code hcode =>
    hread status code getRequest hcode getRequest_wellFormed
  have hok : parseI32 "200".toList = some 200 := by decide
  obtain ⟨head, hhead⟩ := logText_blank f "200"
  obtain ⟨hdone, hquiet⟩ := tokenizer_before_request head fun r hr => by
    refine ⟨⟨f.client, r.method, r.path, 200, f.backend⟩, ?_, rfl⟩
    rw [← hhead, ← logText_append]
    exact hread "200" 200 r hok hr
  have hlevel := Tokenizer.run_level_current (t := .start) rfl (head ++ [' '])
  rw [hdone, Level.scan_nil, Tokenizer.run_level] at hlevel
  have htokens := tokens_logText hf [] hok hclosed
  have hfinish : tokenizeHaproxyLog (logText f "200" []) =
      (Tokenizer.start.run (head ++ [' '])).tokens := by
    rw [hhead]
    unfold tokenizeHaproxyLog Tokenizer.finish
    rw [if_pos hdone]
  rw [← hfinish, htokens] at hquiet
  have hrest : Level.outside.scan f.rest = .outside := by
    obtain ⟨-, -, hclientClosed, -⟩ := clientText_closed hf
    obtain ⟨-, hdateClosed⟩ := dateText_closed hf
    have hstatusClosed : Level.outside.scan "200".toList = .outside := by decide
    have hstart : Tokenizer.start.level = .outside := rfl
    rw [← hhead] at hlevel
    simpa only [hstart, logText, Level.scan_append, Level.scan_cons, Level.next_blank, Level.scan_nil,
      hclientClosed, hdateClosed, hclosed f.frontend (by simp), hclosed f.backend (by simp),
      hclosed f.timers (by simp), hstatusClosed] using hlevel
  refine ⟨fun s hs => ⟨hclosed s hs, ?_⟩, hrest, fun a b hab ha => ?_⟩
  · refine hquiet s.toList ?_
    simp only [mem_cons, not_mem_nil, or_false] at hs ⊢
    rcases hs with rfl | rfl | rfl <;> simp
  · obtain ⟨token, hmem, hquoted⟩ := exists_quoted ha b
    have hcut := pieces_cut hrest []
    rw [hcut] at hquiet
    rw [← hab] at hmem
    have hfalse := hquiet token (by simp [hmem])
    rw [hfalse] at hquoted
    cases hquoted

/-- A line is read back, whatever its status and request, exactly when nothing before the
request hides it. -/
theorem read_back_iff_clear (f : Columns) (hf : f.WellFormed) :
    (∀ status code r, parseI32 status.toList = some code → r.WellFormed →
      ReadBack f status code r) ↔ Clear f :=
  ⟨clear_of_readBack hf, fun hclear _ _ _ hstatus hr => readBack_of_clear hf hclear hstatus hr⟩

/-! ## Plain columns and balanced headers -/

/-- Columns that open no group, and captured headers with as many `[` as `]`. -/
structure Columns.Balanced (f : Columns) : Prop where
  columns : ∀ s ∈ [f.frontend, f.backend, f.timers, f.bytes, f.requestCookie, f.responseCookie,
    f.termination, f.connections, f.queue], ∀ c ∈ s.toList, opensGroup c = false
  headers : ∀ h ∈ f.headers, h.toList.count '[' = h.toList.count ']'

theorem scan_header (h : List Char) (hplain : ∀ c ∈ h, c ≠ '{' ∧ c ≠ '}' ∧ c ≠ '"')
    (brackets braces : Int) : Level.scan ⟨brackets, braces, false⟩ h =
      ⟨brackets + h.count '[' - h.count ']', braces, false⟩ := by
  induction h generalizing brackets with
  | nil => simp
  | cons c h ih =>
    obtain ⟨hopen, hclose, hquote⟩ := hplain c mem_cons_self
    have hrest := ih fun d hd => hplain d (mem_cons_of_mem c hd)
    rw [Level.scan_cons]
    unfold Level.next
    rw [if_neg hquote, if_neg Bool.false_ne_true]
    by_cases h1 : c = '['
    · rw [if_pos h1, hrest, h1, count_cons_self, count_cons_of_ne (by decide)]
      congr 1
      dsimp only
      omega
    rw [if_neg h1]
    by_cases h2 : c = ']'
    · rw [if_pos h2, hrest, h2, count_cons_self, count_cons_of_ne (by decide)]
      congr 1
      dsimp only
      omega
    · rw [if_neg h2, if_neg hopen, if_neg hclose, hrest, count_cons_of_ne h1,
        count_cons_of_ne h2]

/-- Parts that each close what they open close it together. -/
theorem scan_flatMap {α : Type} {g : α → List Char} {xs : List α} {l : Level}
    (h : ∀ x ∈ xs, l.scan (g x) = l) : l.scan (xs.flatMap g) = l := by
  induction xs with
  | nil => rfl
  | cons x xs ih =>
    rw [flatMap_cons, Level.scan_append, h x mem_cons_self,
      ih fun y hy => h y (mem_cons_of_mem x hy)]

theorem clear_of_balanced (hf : f.WellFormed) (hb : f.Balanced) : Clear f := by
  have hinner : ∀ s ∈ [f.bytes, f.requestCookie, f.responseCookie, f.termination, f.connections,
      f.queue], ∀ c ∈ s.toList, opensGroup c = false := fun s hs =>
    hb.columns s (mem_cons_of_mem _ (mem_cons_of_mem _ (mem_cons_of_mem _ hs)))
  refine ⟨fun s hs => ?_, ?_, fun a b hab => ?_⟩
  · have hplain : ∀ c ∈ s.toList, opensGroup c = false := hb.columns s (by
      simp only [mem_cons, not_mem_nil, or_false] at hs ⊢
      tauto)
    refine ⟨scan_of_plain hplain _, ?_⟩
    rw [← Bool.not_eq_true]
    intro hquoted
    cases hlist : s.toList with
    | nil =>
      rw [hlist] at hquoted
      cases hquoted
    | cons c t =>
      rw [hlist] at hquoted hplain
      obtain rfl : c = '"' := by simpa [startsQuoted] using hquoted
      exact absurd (hplain _ mem_cons_self) (by decide)
  · have hcolumns : ∀ s ∈ [f.bytes, f.requestCookie, f.responseCookie, f.termination,
        f.connections, f.queue], Level.outside.scan (' ' :: s.toList) = .outside := fun s hs => by
      rw [Level.scan_cons, Level.next_blank, scan_of_plain (hinner s hs)]
    have hheaders : ∀ h ∈ f.headers,
        Level.outside.scan (' ' :: '{' :: (h.toList ++ ['}'])) = .outside := fun h hh => by
      have hbrace : Level.next .outside '{' = ⟨0, 1, false⟩ := rfl
      rw [Level.scan_cons, Level.next_blank, Level.scan_cons, hbrace, Level.scan_append,
        scan_header _ (hf.headers h hh), hb.headers h hh]
      simp only [Int.zero_add, Int.sub_self]
      rfl
    unfold Columns.rest
    rw [Level.scan_append, scan_flatMap hcolumns, scan_flatMap hheaders]
  · -- no column and no header holds a double quote
    have hnone : '"' ∉ f.rest := by
      intro hmem
      unfold Columns.rest at hmem
      rcases mem_append.mp hmem with hmem | hmem
      · obtain ⟨s, hs, hc⟩ := mem_flatMap.mp hmem
        rcases mem_cons.mp hc with hc | hc
        · cases hc
        · exact absurd (hinner s hs _ hc) (by decide)
      · obtain ⟨h, hh, hc⟩ := mem_flatMap.mp hmem
        simp only [mem_cons, mem_append, not_mem_nil, or_false] at hc
        rcases hc with hc | hc | hc | hc
        · cases hc
        · cases hc
        · exact (hf.headers h hh _ hc).2.2 rfl
        · cases hc
    exact (hnone (hab ▸ by simp)).elim

/-- The line of the repository's test, with the given captured header. -/
def sampleColumns (header : String) : Columns where
  client := "203.0.113.7"
  port := 51234
  date := "23/Sep/2026:04:00:00.123"
  frontend := "www~"
  backend := "backend/server"
  timers := "0/0/1/2/3"
  bytes := "1234"
  requestCookie := "-"
  responseCookie := "-"
  termination := "----"
  connections := "1/1/0/0/0"
  queue := "0/0"
  headers := [header]

theorem sampleColumns_wellFormed {header : String}
    (h : ∀ c ∈ header.toList, c ≠ '{' ∧ c ≠ '}' ∧ c ≠ '"') :
    (sampleColumns header).WellFormed where
  client := by
    refine ⟨.v4 0xcb007107, ?_⟩
    show parseIpAddr "203.0.113.7".toList = _
    decide
  date := by
    show ∀ c ∈ "23/Sep/2026:04:00:00.123".toList, opensGroup c = false
    decide
  columns := by
    show ∀ s ∈ ["www~", "backend/server", "0/0/1/2/3", "1234", "-", "-", "----", "1/1/0/0/0",
      "0/0"], s ≠ "" ∧ ' ' ∉ s.toList
    decide
  headers := by
    intro x hx
    rw [mem_singleton.mp hx]
    exact h

/-- A header with balanced brackets hides nothing. -/
theorem read_back_iff_clear_balanced : ReadBack (sampleColumns "curl [x] y") "404" 404 getRequest :=
  (read_back_iff_clear _ (sampleColumns_wellFormed (by decide))).mpr
    (clear_of_balanced (sampleColumns_wellFormed (by decide))
      ⟨by decide, by decide⟩) "404" 404 getRequest (by decide) getRequest_wellFormed

/-- One unclosed bracket in a captured header hides the request. -/
theorem unbalanced_header_hides_request :
    (sampleColumns "curl [x").WellFormed ∧ getRequest.WellFormed ∧
      parseI32 "404".toList = some 404 ∧
      parseHaproxyMessage (String.ofList (logLine (sampleColumns "curl [x") "404" getRequest)) =
        none ∧
      ¬ ReadBack (sampleColumns "curl [x") "404" 404 getRequest := by
  have hnone : parseHaproxyMessage
      (String.ofList (logLine (sampleColumns "curl [x") "404" getRequest)) = none := by
    decide_cbv
  refine ⟨sampleColumns_wellFormed (by decide), getRequest_wellFormed, by decide, hnone, ?_⟩
  intro h
  unfold ReadBack at h
  rw [hnone] at h
  cases h

end Clawforge.HaproxySensor

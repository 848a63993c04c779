import Clawforge.Net.IpAddr
import Clawforge.Values

/-!
# `ipaddress.ip_address`: Python's address parser

Python splits the text at its separators where the Rust parser reads it from the
front, takes an IPv4-style tail as two groups, and allows a scope id after an IPv6
address. `str` writes the address as Rust's `Display` does, with the scope id after
it. Whatever Rust parses, Python accepts (`ipAddress_of_parseIpAddr`).
-/

namespace Clawforge.Net

open Kit Text List

/-! ## IPv4 -/

/-- `IPv4Address._parse_octet`. -/
def parseOctet (cs : List Char) : Option Nat :=
  if cs = [] ∨ cs.all (isDigitOf 10) = false then none
  else if 3 < cs.length then none
  else if cs ≠ ['0'] ∧ cs.head? = some '0' then none
  else if 255 < numeralValue 10 cs then none
  else some (numeralValue 10 cs)

/-- `IPv4Address._ip_int_from_string`. -/
def ipv4FromString (cs : List Char) : Option (BitVec 32) :=
  let octets := cs.splitOn '.'
  if octets.length = 4 then
    (octets.mapM parseOctet).map (fun os => BitVec.ofNat 32 (ofBigEndian 256 os))
  else none

/-! ## IPv6 -/

/-- `IPv6Address._parse_hextet`. -/
def parseHextet (cs : List Char) : Option Nat :=
  if cs = [] ∨ cs.all (isDigitOf 16) = false ∨ 4 < cs.length then none
  else some (numeralValue 16 cs)

/-- An IPv4-style last part becomes two parts. -/
def expandLast (parts : List (List Char)) : Option (List (List Char)) :=
  let last := parts.getLastD []
  if '.' ∈ last then
    (ipv4FromString last).map (fun v =>
      parts.dropLast ++ (toBigEndian 65536 2 v.toNat).map (Nat.toDigits 16))
  else some parts

/-- The positions of the empty parts, the first part being `i`. -/
def emptyParts : Nat → List (List Char) → List Nat
  | _, [] => []
  | i, p :: rest => if p = [] then i :: emptyParts (i + 1) rest else emptyParts (i + 1) rest

/-- The groups, with zeroes for what a `::` skips. -/
def groupsOfParts (parts : List (List Char)) : Option (List Nat) :=
  match emptyParts 1 parts.tail.dropLast with
  | [] =>
    if parts.length ≠ 8 ∨ parts.head? = some [] ∨ parts.getLast? = some [] then none
    else parts.mapM parseHextet
  | [skip] =>
    let opens := parts.head? = some []
    let ends := parts.getLast? = some []
    let hi := if opens then skip - 1 else skip
    let lo := if ends then parts.length - skip - 2 else parts.length - skip - 1
    -- a lone colon at either end, or nothing left to skip
    if (opens ∧ hi ≠ 0) ∨ (ends ∧ lo ≠ 0) ∨ 8 < hi + lo + 1 then none
    else do
      let high ← (parts.take hi).mapM parseHextet
      let low ← (parts.drop (parts.length - lo)).mapM parseHextet
      some (high ++ List.replicate (8 - (hi + lo)) 0 ++ low)
  | _ => none

/-- `IPv6Address._ip_int_from_string`. -/
def ipv6FromString (cs : List Char) : Option (BitVec 128) :=
  let parts := cs.splitOn ':'
  if parts.length < 3 then none
  else
    (expandLast parts).bind (fun parts =>
      if 9 < parts.length then none else (groupsOfParts parts).map ofSegments)

/-! ## Addresses -/

/-- `IPv4Address` or `IPv6Address`. -/
structure PyAddress where
  addr : IpAddr
  scopeId : Option (List Char)
deriving DecidableEq

/-- `IPv6Address._split_scope_id`. -/
def splitScopeId (cs : List Char) : Option (List Char × Option (List Char)) :=
  match splitOnce '%' cs with
  | none => some (cs, none)
  | some (addr, scope) => if scope = [] ∨ '%' ∈ scope then none else some (addr, some scope)

/-- `IPv6Address.__init__` of a text. -/
def ipv6Address (cs : List Char) : Option PyAddress :=
  if '/' ∈ cs then none
  else
    (splitScopeId cs).bind (fun (addr, scopeId) =>
      (ipv6FromString addr).map (fun bits => { addr := .v6 bits, scopeId }))

/-- Either class, of an integer. -/
def addressOfInt (n : Int) : Option PyAddress :=
  if n < 0 then none
  else if n < 2 ^ 32 then some { addr := .v4 (BitVec.ofInt 32 n), scopeId := none }
  else if n < 2 ^ 128 then some { addr := .v6 (BitVec.ofInt 128 n), scopeId := none }
  else none

/-- `ipaddress.ip_address` of a value read from JSON; the text of any other value is
no address. -/
def ipAddress : Json → Option PyAddress
  | .string s =>
    match ipv4FromString s.toList with
    | some bits => some { addr := .v4 bits, scopeId := none }
    | none => ipv6Address s.toList
  | .number (.int n) => addressOfInt n
  | .bool b => addressOfInt (if b then 1 else 0)
  | .null | .number (.float _) | .array _ | .object _ => none

/-- `str`. -/
def PyAddress.str (a : PyAddress) : String :=
  String.ofList (displayIpAddr a.addr ++ (a.scopeId.map (fun s => '%' :: s)).getD [])

/-! ## What the Rust readers read -/

/-- Pieces with a separator between them, and before the first one unless its index
is 0. -/
def joinFrom (sep : Char) (i : Nat) (ts : List (List Char)) : List Char :=
  if i = 0 then [sep].intercalate ts else ts.flatMap (fun t => sep :: t)

theorem intercalate_eq_flatMap (sep : Char) (t : List Char) (ts : List (List Char)) :
    [sep].intercalate (t :: ts) = t ++ ts.flatMap (fun t => sep :: t) := by
  induction ts generalizing t with
  | nil => simp
  | cons u us ih =>
    rw [intercalate_cons_cons, ih, flatMap_cons]
    simp

theorem joinFrom_cons (sep : Char) (i : Nat) (t : List Char) (ts : List (List Char)) :
    joinFrom sep i (t :: ts) = (if i = 0 then [] else [sep]) ++ t ++ joinFrom sep (i + 1) ts := by
  unfold joinFrom
  by_cases hi : i = 0
  · simp [hi, intercalate_eq_flatMap]
  · simp [hi]

variable {cs rest : List Char} {ts : List (List Char)} {v4 : Option (List Char)} {i : Nat}
  {c : Char} {a : BitVec 128}

theorem readGivenChar_some {target : Char} (h : readGivenChar target cs = some rest) :
    cs = target :: rest := by
  unfold readGivenChar at h
  split at h
  · split at h
    · rename_i hc
      cases h
      rw [hc]
    · cases h
  · cases h

theorem readNumber_some {radix maxDigits limit n : Nat} {allowZeroPrefix : Bool}
    (h : readNumber radix maxDigits allowZeroPrefix limit cs = some (n, rest)) :
    ∃ ds, cs = ds ++ rest ∧ ds ≠ [] ∧ ds.length ≤ maxDigits ∧
      (∀ c ∈ ds, isDigitOf radix c = true) ∧
      (allowZeroPrefix = false → ds.head? = some '0' → ds.length ≤ 1) ∧
      numeralValue radix ds < limit := by
  unfold readNumber at h
  dsimp only at h
  split at h
  · cases h
  · rename_i hlen
    split at h
    · cases h
    · rename_i hne
      split at h
      · cases h
      · rename_i hzero
        split at h
        · rename_i hlt
          cases h
          refine ⟨_, (takeWhile_append_dropWhile).symm, hne, Nat.not_lt.1 hlen, ?_, ?_, hlt⟩
          · exact fun c hc => mem_takeWhile_imp hc
          · intro hallow hhead
            by_contra hlong
            refine hzero ?_
            simp [hallow, hhead, Nat.not_le.1 hlong]
        · cases h

theorem readSeparator_some {α : Type} {sep : Char} {inner : List Char → Read α} {r : α × List Char}
    (h : readSeparator sep i inner cs = some r) :
    ∃ cs', cs = (if i = 0 then [] else [sep]) ++ cs' ∧ inner cs' = some r := by
  unfold readSeparator at h
  by_cases hi : 0 < i
  · rw [if_pos hi] at h
    obtain ⟨cs', hgiven, hinner⟩ := Option.bind_eq_some_iff.1 h
    refine ⟨cs', ?_, hinner⟩
    rw [if_neg (by omega), readGivenChar_some hgiven]
    rfl
  · rw [if_neg hi] at h
    refine ⟨cs, ?_, h⟩
    rw [if_pos (by omega)]
    rfl

theorem parseOctet_isSome {t : List Char} (hne : t ≠ []) (hlen : t.length ≤ 3)
    (hdigits : ∀ c ∈ t, isDigitOf 10 c = true) (hzero : t.head? = some '0' → t.length ≤ 1)
    (hlt : numeralValue 10 t < 256) : (parseOctet t).isSome = true := by
  have hall : t.all (isDigitOf 10) = true := List.all_eq_true.2 hdigits
  have hnozero : ¬ (t ≠ ['0'] ∧ t.head? = some '0') := by
    rintro ⟨hno, hhead⟩
    cases t with
    | nil => exact hne rfl
    | cons c rest =>
      have hrest := hzero hhead
      cases rest with
      | nil => exact hno (by simpa using hhead)
      | cons d rest =>
        simp only [length_cons] at hrest
        omega
  unfold parseOctet
  rw [if_neg (by simp [hne, hall]), if_neg (by omega), if_neg hnozero, if_neg (by omega)]
  rfl

theorem readOctets_some {n : Nat} {os : List Nat} (h : readOctets n i cs = some (os, rest)) :
    ∃ ts, ts.length = n ∧ (∀ t ∈ ts, (parseOctet t).isSome = true ∧
      ∀ c ∈ t, isDigitOf 10 c = true) ∧ cs = joinFrom '.' i ts ++ rest := by
  induction n generalizing i cs os with
  | zero =>
    cases h
    exact ⟨[], rfl, by simp, by simp [joinFrom]⟩
  | succ n ih =>
    obtain ⟨⟨octet, cs'⟩, hsep, h⟩ := Option.bind_eq_some_iff.1 h
    obtain ⟨⟨os', rest'⟩, hmore, heq⟩ := Option.map_eq_some_iff.1 h
    cases heq
    obtain ⟨cs'', hcs, hnum⟩ := readSeparator_some hsep
    obtain ⟨t, ht, hne, hlen, hdigits, hzero, hlt⟩ := readNumber_some hnum
    obtain ⟨ts, hts, hok, hjoin⟩ := ih hmore
    refine ⟨t :: ts, by simp [hts], ?_, ?_⟩
    · intro u hu
      rcases mem_cons.1 hu with rfl | hu
      · exact ⟨parseOctet_isSome hne hlen hdigits (hzero rfl) hlt, hdigits⟩
      · exact hok u hu
    · rw [joinFrom_cons, hcs, ht, hjoin]
      simp

theorem mapM_isSome {α β : Type} {f : α → Option β} {xs : List α}
    (h : ∀ x ∈ xs, (f x).isSome = true) : ∃ ys, xs.mapM f = some ys ∧ ys.length = xs.length := by
  induction xs with
  | nil => exact ⟨[], rfl, rfl⟩
  | cons x xs ih =>
    obtain ⟨y, hy⟩ := Option.isSome_iff_exists.1 (h x mem_cons_self)
    obtain ⟨ys, hys, hlen⟩ := ih (fun z hz => h z (mem_cons_of_mem _ hz))
    exact ⟨y :: ys, by simp [hy, hys], by simp [hlen]⟩

/-- A text of numbers and separators between them has no other character. -/
theorem mem_joinFrom {sep : Char} (h : c ∈ joinFrom sep i ts) : c = sep ∨ ∃ t ∈ ts, c ∈ t := by
  induction ts generalizing i with
  | nil => simp [joinFrom] at h
  | cons t ts ih =>
    rw [joinFrom_cons, mem_append, mem_append] at h
    rcases h with (h | h) | h
    · split at h
      · cases h
      · exact .inl (mem_singleton.1 h)
    · exact .inr ⟨t, mem_cons_self, h⟩
    · rcases ih h with h | ⟨u, hu, hc⟩
      · exact .inl h
      · exact .inr ⟨u, mem_cons_of_mem _ hu, hc⟩

/-- What the Rust reader took for an IPv4 address is one for Python. -/
theorem readIpv4Addr_some {a : BitVec 32} (h : readIpv4Addr cs = some (a, rest)) :
    ∃ t, cs = t ++ rest ∧ (ipv4FromString t).isSome = true ∧ '.' ∈ t ∧
      ∀ c ∈ t, c = '.' ∨ isDigitOf 10 c = true := by
  obtain ⟨⟨os, rest'⟩, hoctets, heq⟩ := Option.map_eq_some_iff.1 h
  cases heq
  obtain ⟨ts, hlen, hok, hjoin⟩ := readOctets_some hoctets
  have hne : ts ≠ [] := by
    rintro rfl
    simp at hlen
  have hsplit : (joinFrom '.' 0 ts).splitOn '.' = ts := by
    refine splitOn_intercalate '.' (fun t ht hdot => ?_) hne
    have hdigit := (hok t ht).2 '.' hdot
    exact absurd hdigit (by decide)
  refine ⟨joinFrom '.' 0 ts, hjoin, ?_, ?_, ?_⟩
  · obtain ⟨ys, hys, _⟩ := mapM_isSome (fun t ht => (hok t ht).1)
    rw [ipv4FromString, hsplit, if_pos hlen, hys]
    rfl
  · obtain ⟨t, u, us, rfl⟩ : ∃ t u us, ts = t :: u :: us := by
      match ts, hlen with
      | t :: u :: us, _ => exact ⟨t, u, us, rfl⟩
    rw [joinFrom_cons, joinFrom_cons]
    simp
  · intro c hc
    rcases mem_joinFrom hc with hc | ⟨t, ht, hc⟩
    · exact .inl hc
    · exact .inr ((hok t ht).2 c hc)

/-! ### IPv6 -/

theorem parseHextet_isSome {t : List Char} (hne : t ≠ []) (hlen : t.length ≤ 4)
    (hdigits : ∀ c ∈ t, isDigitOf 16 c = true) : (parseHextet t).isSome = true := by
  have hall : t.all (isDigitOf 16) = true := List.all_eq_true.2 hdigits
  unfold parseHextet
  rw [if_neg (by simp [hne, hall]; omega)]
  rfl

/-- A group as the Rust reader takes it. -/
structure Hextet (t : List Char) : Prop where
  parses : (parseHextet t).isSome = true
  digits : ∀ c ∈ t, isDigitOf 16 c = true

/-- An embedded IPv4 address. -/
structure Dotted (t : List Char) : Prop where
  parses : (ipv4FromString t).isSome = true
  dot : '.' ∈ t
  chars : ∀ c ∈ t, c = '.' ∨ isDigitOf 10 c = true

theorem readGroups_some {n : Nat} {g : Groups} (h : readGroups n i cs = (g, rest)) :
    ∃ (ts : List (List Char)) (v4 : Option (List Char)),
      cs = joinFrom ':' i (ts ++ v4.toList) ++ rest ∧ (∀ t ∈ ts, Hextet t) ∧
        (∀ t ∈ v4, Dotted t) ∧ g.embedded = v4.isSome ∧
        g.groups.length = ts.length + (if v4.isSome then 2 else 0) ∧ g.groups.length ≤ n := by
  induction n generalizing i cs g with
  | zero =>
    cases h
    exact ⟨[], none, by simp [joinFrom], by simp, by simp, rfl, rfl, Nat.le_refl _⟩
  | succ n ih =>
    rw [readGroups] at h
    split at h
    · -- an embedded IPv4 address
      rename_i ipv4 rest' hv4
      cases h
      split at hv4
      · rename_i hn
        obtain ⟨cs', hcs, hread⟩ := readSeparator_some hv4
        obtain ⟨t, ht, hparses, hdot, hchars⟩ := readIpv4Addr_some hread
        refine ⟨[], some t, ?_, by simp, ?_, rfl, ?_, ?_⟩
        · rw [nil_append, Option.toList_some, joinFrom_cons, hcs, ht]
          simp [joinFrom]
        · rintro u ⟨⟩
          exact ⟨hparses, hdot, hchars⟩
        · simp
        · simp
          omega
      · cases hv4
    · split at h
      · rename_i group rest' hgroup
        obtain ⟨cs', hcs, hread⟩ := readSeparator_some hgroup
        obtain ⟨t, ht, hne, hlen, hdigits, _, _⟩ := readNumber_some hread
        obtain ⟨more, rest'', hmore⟩ : ∃ more rest'',
            readGroups n (i + 1) rest' = (more, rest'') := ⟨_, _, rfl⟩
        rw [hmore] at h
        cases h
        obtain ⟨ts, v4, hjoin, hhex, hdotted, hemb, hglen, hle⟩ := ih hmore
        refine ⟨t :: ts, v4, ?_, ?_, hdotted, hemb, ?_, ?_⟩
        · rw [cons_append, joinFrom_cons, hcs, ht, hjoin]
          simp
        · intro u hu
          rcases mem_cons.1 hu with rfl | hu
          · exact ⟨parseHextet_isSome hne hlen hdigits, hdigits⟩
          · exact hhex u hu
        · simp only [length_cons, hglen]
          omega
        · simp only [length_cons]
          omega
      · cases h
        exact ⟨[], none, by simp [joinFrom], by simp, by simp, rfl, rfl, Nat.zero_le _⟩

/-- No piece of a run of groups has a colon. -/
theorem colon_not_mem (hhex : ∀ t ∈ ts, Hextet t) (hdotted : ∀ t ∈ v4, Dotted t) :
    ∀ t ∈ ts ++ v4.toList, ':' ∉ t := by
  intro t ht hcolon
  rcases mem_append.1 ht with ht | ht
  · exact absurd ((hhex t ht).digits ':' hcolon) (by decide)
  · rcases (hdotted t (Option.mem_toList.1 ht)).chars ':' hcolon with hc | hc
    · exact absurd hc (by decide)
    · exact absurd hc (by decide)

/-- The groups of a run, an embedded address written as two. -/
theorem expandLast_run (pre : List (List Char)) (hhex : ∀ t ∈ ts, Hextet t)
    (hdotted : ∀ t ∈ v4, Dotted t) (hpre : v4 = none → ts = [] → ∀ t ∈ pre.getLast?, '.' ∉ t) :
    ∃ us, expandLast (pre ++ (ts ++ v4.toList)) = some (pre ++ us) ∧
      us.length = ts.length + (if v4.isSome then 2 else 0) ∧
      ∀ u ∈ us, (parseHextet u).isSome = true := by
  cases v4 with
  | some t =>
    obtain ⟨a, ha⟩ := Option.isSome_iff_exists.1 (hdotted t rfl).parses
    refine ⟨ts ++ (toBigEndian 65536 2 a.toNat).map (Nat.toDigits 16), ?_, by simp, ?_⟩
    · have hlast : (pre ++ (ts ++ [t])).getLastD [] = t := by
        rw [← append_assoc]
        simp
      have hdrop : (pre ++ (ts ++ [t])).dropLast = pre ++ ts := by
        rw [← append_assoc, dropLast_concat]
      unfold expandLast
      simp only [Option.toList_some, hlast, if_pos (hdotted t rfl).dot, ha, hdrop,
        Option.map_some, append_assoc]
    · intro u hu
      rcases mem_append.1 hu with hu | hu
      · exact (hhex u hu).parses
      · obtain ⟨d, hd, rfl⟩ := List.mem_map.1 hu
        have hlt := lt_of_mem_toBigEndian (by decide) hd
        refine parseHextet_isSome (toDigits_ne_nil _ _) ?_
          (fun c hc => isDigitOf_of_mem_toDigits (by decide) (by decide) hc)
        exact (Nat.length_toDigits_le_iff (by decide) (by decide)).mpr hlt
  | none =>
    refine ⟨ts, ?_, by simp, fun u hu => (hhex u hu).parses⟩
    have hno : '.' ∉ (pre ++ (ts ++ (none : Option (List Char)).toList)).getLastD [] := by
      rw [Option.toList_none, append_nil, getLastD_eq_getLast?,
        getLast?_append]
      cases hts : ts.getLast? with
      | some t =>
        have hmem : t ∈ ts := mem_of_getLast? hts
        intro hdot
        exact absurd ((hhex t hmem).digits '.' hdot) (by decide)
      | none =>
        have hnil : ts = [] := getLast?_eq_none_iff.1 hts
        cases hlast : pre.getLast? with
        | none => simp
        | some t => simpa using hpre rfl hnil t hlast
    rw [Option.toList_none, append_nil] at hno ⊢
    exact if_neg hno

theorem emptyParts_of_ne_nil {parts : List (List Char)} (h : ∀ p ∈ parts, p ≠ []) :
    emptyParts i parts = [] := by
  induction parts generalizing i with
  | nil => rfl
  | cons p rest ih =>
    rw [emptyParts, if_neg (h p mem_cons_self)]
    exact ih (fun q hq => h q (mem_cons_of_mem _ hq))

/-- One empty part among others that are not. -/
theorem emptyParts_one {front back : List (List Char)} (hfront : ∀ p ∈ front, p ≠ [])
    (hback : ∀ p ∈ back, p ≠ []) : emptyParts i (front ++ [] :: back) = [i + front.length] := by
  induction front generalizing i with
  | nil =>
    rw [nil_append, emptyParts, if_pos rfl, emptyParts_of_ne_nil hback]
    rfl
  | cons p rest ih =>
    rw [cons_append, emptyParts, if_neg (hfront p mem_cons_self),
      ih (fun q hq => hfront q (mem_cons_of_mem _ hq))]
    simp only [length_cons]
    congr 1
    omega

theorem ne_nil_of_hextet {u : List Char} (h : (parseHextet u).isSome = true) : u ≠ [] := by
  rintro rfl
  exact absurd h (by decide)

/-- Eight groups. -/
theorem groupsOfParts_full {us : List (List Char)} (hlen : us.length = 8)
    (hus : ∀ u ∈ us, (parseHextet u).isSome = true) : (groupsOfParts us).isSome = true := by
  have hne : ∀ u ∈ us, u ≠ [] := fun u hu => ne_nil_of_hextet (hus u hu)
  have hinner : emptyParts 1 us.tail.dropLast = [] :=
    emptyParts_of_ne_nil (fun u hu => hne u (mem_of_mem_tail (dropLast_subset _ hu)))
  obtain ⟨ys, hys, _⟩ := mapM_isSome hus
  have hhead : us.head? ≠ some [] := fun h => hne [] (mem_of_mem_head? h) rfl
  have hlast : us.getLast? ≠ some [] := fun h => hne [] (mem_of_getLast? h) rfl
  unfold groupsOfParts
  rw [hinner]
  simp only [hlen, hhead, hlast, hys, ne_eq, not_true_eq_false, or_self, if_false]
  rfl

/-- Fewer than eight groups around `::`. -/
theorem groupsOfParts_skip {hs us : List (List Char)} (hlen : hs.length + us.length < 8)
    (hhs : ∀ u ∈ hs, (parseHextet u).isSome = true)
    (hus : ∀ u ∈ us, (parseHextet u).isSome = true) :
    (groupsOfParts ((if hs = [] then [[]] else hs) ++ [] :: (if us = [] then [[]] else us))).isSome =
      true := by
  obtain ⟨ys, hys, _⟩ := mapM_isSome hhs
  obtain ⟨zs, hzs, _⟩ := mapM_isSome hus
  have hneh : ∀ u ∈ hs, u ≠ [] := fun u hu => ne_nil_of_hextet (hhs u hu)
  have hneu : ∀ u ∈ us, u ≠ [] := fun u hu => ne_nil_of_hextet (hus u hu)
  -- the first part, the last part, and what lies between
  obtain ⟨first, front, hfront, hfirst⟩ : ∃ first front,
      (if hs = [] then [[]] else hs) = first :: front ∧
        ((hs = [] ∧ first = [] ∧ front = []) ∨ (hs = first :: front ∧ first ≠ [])) := by
    cases hs with
    | nil => exact ⟨[], [], by simp, .inl ⟨rfl, rfl, rfl⟩⟩
    | cons a as => exact ⟨a, as, by simp, .inr ⟨rfl, hneh a mem_cons_self⟩⟩
  obtain ⟨back, last, hback, hlast⟩ : ∃ back last,
      (if us = [] then [[]] else us) = back ++ [last] ∧
        ((us = [] ∧ last = [] ∧ back = []) ∨ (us = back ++ [last] ∧ last ≠ [])) := by
    rcases eq_nil_or_concat' us with rfl | ⟨b, a, rfl⟩
    · exact ⟨[], [], by simp, .inl ⟨rfl, rfl, rfl⟩⟩
    · exact ⟨b, a, by simp, .inr ⟨rfl, hneu a (by simp)⟩⟩
  rw [hfront, hback]
  have hinner : emptyParts 1 ((first :: front ++ [] :: (back ++ [last])).tail.dropLast) =
      [1 + front.length] := by
    have hmiddle : (first :: front ++ [] :: (back ++ [last])).tail.dropLast =
        front ++ [] :: back := by
      rw [cons_append, tail_cons, ← cons_append, ← append_assoc,
        dropLast_concat]
    rw [hmiddle]
    refine emptyParts_one ?_ ?_
    · intro p hp
      rcases hfirst with ⟨_, _, rfl⟩ | ⟨rfl, _⟩
      · cases hp
      · exact hneh p (mem_cons_of_mem _ hp)
    · intro p hp
      rcases hlast with ⟨_, _, rfl⟩ | ⟨rfl, _⟩
      · cases hp
      · exact hneu p (mem_append_left _ hp)
  have hhead : (first :: front ++ [] :: (back ++ [last])).head? = some first := rfl
  have hend : (first :: front ++ [] :: (back ++ [last])).getLast? = some last := by
    rw [← cons_append, ← append_assoc, getLast?_concat]
  have hlength : (first :: front ++ [] :: (back ++ [last])).length =
      front.length + back.length + 3 := by
    simp
    omega
  unfold groupsOfParts
  rw [hinner]
  simp only [hhead, hend, hlength, Option.some.injEq]
  -- how many parts stand before the `::`, and how many after it
  have hhi : (if first = [] then 1 + front.length - 1 else 1 + front.length) = hs.length := by
    rcases hfirst with ⟨rfl, rfl, rfl⟩ | ⟨rfl, hne⟩
    · rfl
    · rw [if_neg hne, length_cons, Nat.add_comm]
  have hlo : (if last = [] then front.length + back.length + 3 - (1 + front.length) - 2
      else front.length + back.length + 3 - (1 + front.length) - 1) = us.length := by
    rcases hlast with ⟨rfl, rfl, rfl⟩ | ⟨rfl, hne⟩
    · simp
      omega
    · rw [if_neg hne, length_append, length_singleton]
      omega
  have htake : (first :: front ++ [] :: (back ++ [last])).take hs.length = hs := by
    rcases hfirst with ⟨rfl, _, _⟩ | ⟨rfl, _⟩
    · rfl
    · exact take_left
  have hdrop : (first :: front ++ [] :: (back ++ [last])).drop
      (front.length + back.length + 3 - us.length) = us := by
    rcases hlast with ⟨rfl, rfl, rfl⟩ | ⟨rfl, _⟩
    · refine drop_eq_nil_of_le ?_
      rw [hlength]
      exact Nat.le_refl _
    · have hsplit : first :: front ++ [] :: (back ++ [last]) =
          (first :: front ++ [[]]) ++ (back ++ [last]) := by simp
      rw [hsplit]
      refine drop_left' ?_
      simp only [length_append, length_cons, length_nil]
      omega
  rw [hhi, hlo, htake, hdrop, hys, hzs]
  have hok : ¬ ((first = [] ∧ hs.length ≠ 0) ∨ (last = [] ∧ us.length ≠ 0) ∨
      8 < hs.length + us.length + 1) := by
    rintro (⟨hf, hne⟩ | ⟨hl, hne⟩ | hlong)
    · rcases hfirst with ⟨rfl, _, _⟩ | ⟨_, hno⟩
      · exact hne rfl
      · exact hno hf
    · rcases hlast with ⟨rfl, _, _⟩ | ⟨_, hno⟩
      · exact hne rfl
      · exact hno hl
    · omega
  rw [if_neg hok]
  rfl

/-- A run of groups, split at its colons; the empty text is one empty part. -/
theorem splitOn_run (h : ∀ t ∈ ts, ':' ∉ t) :
    (joinFrom ':' 0 ts).splitOn ':' = if ts = [] then [[]] else ts := by
  by_cases hnil : ts = []
  · subst hnil
    rfl
  · rw [if_neg hnil]
    exact splitOn_intercalate ':' h hnil

theorem intercalate_append (sep : Char) {xs ys : List (List Char)} (hxs : xs ≠ [])
    (hys : ys ≠ []) :
    [sep].intercalate (xs ++ ys) = [sep].intercalate xs ++ sep :: [sep].intercalate ys := by
  cases xs with
  | nil => exact absurd rfl hxs
  | cons x xs =>
    cases ys with
    | nil => exact absurd rfl hys
    | cons y ys =>
      rw [cons_append, intercalate_eq_flatMap, intercalate_eq_flatMap,
        intercalate_eq_flatMap]
      simp

/-- Two runs around `::`, split at the colons. -/
theorem splitOn_skip {hs : List (List Char)} (hhs : ∀ t ∈ hs, ':' ∉ t) (hts : ∀ t ∈ ts, ':' ∉ t) :
    (joinFrom ':' 0 hs ++ ':' :: ':' :: joinFrom ':' 0 ts).splitOn ':' =
      (if hs = [] then [[]] else hs) ++ [] :: (if ts = [] then [[]] else ts) := by
  have hrun : ∀ us : List (List Char), joinFrom ':' 0 us =
      [':'].intercalate (if us = [] then [[]] else us) := by
    intro us
    cases us <;> rfl
  have hne : ∀ us : List (List Char), (if us = [] then [[]] else us) ≠ [] := by
    intro us
    cases us <;> simp
  have hfree : ∀ us : List (List Char), (∀ t ∈ us, ':' ∉ t) →
      ∀ t ∈ (if us = [] then [[]] else us), ':' ∉ t := by
    intro us hus t ht
    cases us with
    | nil =>
      rw [if_pos rfl, mem_singleton] at ht
      rw [ht]
      exact not_mem_nil
    | cons u rest => exact hus t ht
  have htext : joinFrom ':' 0 hs ++ ':' :: ':' :: joinFrom ':' 0 ts =
      [':'].intercalate ((if hs = [] then [[]] else hs) ++
        [] :: (if ts = [] then [[]] else ts)) := by
    rw [intercalate_append ':' (hne hs) (by simp), hrun hs, hrun ts,
      intercalate_cons_of_ne_nil (hne ts)]
    rfl
  rw [htext]
  refine splitOn_intercalate ':' (fun t ht => ?_) (by simp)
  rcases mem_append.1 ht with ht | ht
  · exact hfree hs hhs t ht
  · rcases mem_cons.1 ht with rfl | ht
    · exact not_mem_nil
    · exact hfree ts hts t ht

/-- The parts around `::`, an embedded address at the end written as two groups. -/
theorem expandLast_skip (front : List (List Char)) (hhex : ∀ t ∈ ts, Hextet t)
    (hdotted : ∀ t ∈ v4, Dotted t) :
    ∃ us, expandLast (front ++ [] ::
        (if ts ++ v4.toList = [] then [[]] else ts ++ v4.toList)) =
          some (front ++ [] :: (if us = [] then [[]] else us)) ∧
      us.length = ts.length + (if v4.isSome then 2 else 0) ∧
      ∀ u ∈ us, (parseHextet u).isSome = true := by
  by_cases hnil : ts ++ v4.toList = []
  · obtain ⟨rfl, hv4⟩ := append_eq_nil_iff.1 hnil
    have hnone : v4 = none := by
      cases v4 with
      | none => rfl
      | some t => cases hv4
    subst hnone
    refine ⟨[], ?_, rfl, by simp⟩
    have hlast : (front ++ [[], []] : List (List Char)).getLastD [] = [] := by
      rw [show (front ++ [[], []] : List (List Char)) = (front ++ [[]]) ++ [[]] by simp]
      simp
    rw [if_pos rfl, if_pos (by rfl)]
    unfold expandLast
    rw [hlast]
    exact if_neg not_mem_nil
  · obtain ⟨us, hexpand, hlen, hus⟩ := expandLast_run (front ++ [[]]) hhex hdotted
      (fun _ _ => by simp)
    have hne : us ≠ [] := by
      rintro rfl
      refine hnil ?_
      cases v4 with
      | none => simpa using hlen.symm
      | some t => simp at hlen
    refine ⟨us, ?_, hlen, hus⟩
    rw [if_neg hnil, if_neg hne]
    simpa using hexpand

/-- A run of groups, with an embedded address at its end. -/
structure IsRun (ts : List (List Char)) (v4 : Option (List Char)) : Prop where
  hextets : ∀ t ∈ ts, Hextet t
  dotted : ∀ t ∈ v4, Dotted t

/-- How many groups a run is. -/
def runLength (ts : List (List Char)) (v4 : Option (List Char)) : Nat :=
  ts.length + (if v4.isSome then 2 else 0)

/-- The texts the Rust reader takes for an IPv6 address: eight groups, or fewer around
`::`. -/
theorem readIpv6Addr_some (h : readIpv6Addr cs = some (a, [])) :
    (∃ ts v4, IsRun ts v4 ∧ runLength ts v4 = 8 ∧ cs = joinFrom ':' 0 (ts ++ v4.toList)) ∨
      ∃ hs ts v4, IsRun hs none ∧ IsRun ts v4 ∧ hs.length + runLength ts v4 < 8 ∧
        cs = joinFrom ':' 0 hs ++ ':' :: ':' :: joinFrom ':' 0 (ts ++ v4.toList) := by
  obtain ⟨head, rest, hhead⟩ : ∃ head rest, readGroups 8 0 cs = (head, rest) := ⟨_, _, rfl⟩
  obtain ⟨hs, v4, hcs, hhex, hdotted, hemb, hlen, hle⟩ := readGroups_some hhead
  rw [readIpv6Addr, hhead] at h
  simp only at h
  split at h
  · rename_i height
    cases h
    rw [append_nil] at hcs
    exact .inl ⟨hs, v4, ⟨hhex, hdotted⟩, hlen.symm.trans height, hcs⟩
  · split at h
    · cases h
    · rename_i hfew hnoemb
      have hv4 : v4 = none := by
        cases v4 with
        | none => rfl
        | some t => exact absurd hemb hnoemb
      subst hv4
      have hhead8 : head.groups.length = hs.length := by simpa using hlen
      obtain ⟨rest1, hcolon1, h⟩ := Option.bind_eq_some_iff.1 h
      obtain ⟨rest2, hcolon2, h⟩ := Option.map_eq_some_iff.1 h
      obtain ⟨tail, rest3, htail⟩ : ∃ tail rest3,
          readGroups (8 - (head.groups.length + 1)) 0 rest2 = (tail, rest3) := ⟨_, _, rfl⟩
      rw [htail] at h
      cases h
      obtain ⟨ts, w4, hts, hthex, htdotted, _, htlen, htle⟩ := readGroups_some htail
      rw [Option.toList_none, append_nil] at hcs
      rw [append_nil] at hts
      refine .inr ⟨hs, ts, w4, ⟨hhex, hdotted⟩, ⟨hthex, htdotted⟩, ?_, ?_⟩
      · have hrun : runLength ts w4 = tail.groups.length := htlen.symm
        omega
      · rw [hcs, readGivenChar_some hcolon1, readGivenChar_some hcolon2, hts]

/-- Whatever text the Rust reader takes for an IPv6 address is one for Python. -/
theorem ipv6FromString_of_read (h : readIpv6Addr cs = some (a, [])) :
    (ipv6FromString cs).isSome = true := by
  rcases readIpv6Addr_some h with ⟨ts, v4, hrun, hlen, rfl⟩ | ⟨hs, ts, v4, hhs, hrun, hfew, rfl⟩
  · have hpieces : 3 ≤ (ts ++ v4.toList).length := by
      unfold runLength at hlen
      cases v4 <;> simp at hlen ⊢ <;> omega
    have hne : ts ++ v4.toList ≠ [] := by
      intro hnil
      rw [hnil] at hpieces
      exact absurd hpieces (by decide)
    have hsplit := splitOn_run (colon_not_mem hrun.hextets hrun.dotted)
    rw [if_neg hne] at hsplit
    obtain ⟨us, hexpand, huslen, hus⟩ :=
      expandLast_run [] hrun.hextets hrun.dotted (by simp)
    simp only [nil_append] at hexpand
    have height : us.length = 8 := huslen.trans hlen
    obtain ⟨gs, hgs⟩ := Option.isSome_iff_exists.1 (groupsOfParts_full height hus)
    unfold ipv6FromString
    rw [hsplit]
    simp only [if_neg (Nat.not_lt.2 hpieces), hexpand, Option.bind_some, height, hgs]
    rfl
  · have hfree : ∀ t ∈ hs, ':' ∉ t :=
      fun t ht => colon_not_mem hhs.hextets hhs.dotted t (mem_append_left _ ht)
    have hsplit := splitOn_skip hfree (colon_not_mem hrun.hextets hrun.dotted)
    obtain ⟨us, hexpand, huslen, hus⟩ :=
      expandLast_skip (if hs = [] then [[]] else hs) hrun.hextets hrun.dotted
    have hfew' : hs.length + us.length < 8 := by
      rw [huslen]
      exact hfew
    obtain ⟨gs, hgs⟩ := Option.isSome_iff_exists.1
      (groupsOfParts_skip hfew' (fun u hu => (hhs.hextets u hu).parses) hus)
    have hparts : ¬ 9 < ((if hs = [] then [[]] else hs) ++
        [] :: (if us = [] then [[]] else us)).length := by
      cases hs <;> cases us <;> simp at hfew' ⊢ <;> omega
    have hlong : ¬ ((if hs = [] then [[]] else hs) ++
        [] :: (if ts ++ v4.toList = [] then [[]] else ts ++ v4.toList)).length < 3 := by
      have hone : ∀ us : List (List Char), 1 ≤ (if us = [] then [[]] else us).length := by
        intro us
        cases us <;> simp
      have h1 := hone hs
      have h2 := hone (ts ++ v4.toList)
      rw [length_append, length_cons]
      omega
    unfold ipv6FromString
    rw [hsplit]
    simp only [if_neg hlong, hexpand, Option.bind_some, if_neg hparts, hgs]
    rfl

theorem run_chars (h : IsRun ts v4) (hc : c ∈ joinFrom ':' 0 (ts ++ v4.toList)) :
    c = ':' ∨ c = '.' ∨ isDigitOf 16 c = true := by
  rcases mem_joinFrom hc with hc | ⟨t, ht, hc⟩
  · exact .inl hc
  · rcases mem_append.1 ht with ht | ht
    · exact .inr (.inr ((h.hextets t ht).digits c hc))
    · rcases (h.dotted t (Option.mem_toList.1 ht)).chars c hc with hdot | hdigit
      · exact .inr (.inl hdot)
      · exact .inr (.inr (isDigitOf_mono (by decide) hdigit))

/-- IPv6 text has neither a slash nor a scope id. -/
theorem readIpv6Addr_chars (h : readIpv6Addr cs = some (a, [])) (hc : c ∈ cs) :
    c = ':' ∨ c = '.' ∨ isDigitOf 16 c = true := by
  rcases readIpv6Addr_some h with ⟨ts, v4, hrun, _, rfl⟩ | ⟨hs, ts, v4, hhs, hrun, _, rfl⟩
  · exact run_chars hrun hc
  · rcases mem_append.1 hc with hc | hc
    · refine run_chars hhs ?_
      rwa [Option.toList_none, append_nil]
    · rcases mem_cons.1 hc with rfl | hc
      · exact .inl rfl
      · rcases mem_cons.1 hc with rfl | hc
        · exact .inl rfl
        · exact run_chars hrun hc

theorem readIpAddr_of_parseIpAddr {a : IpAddr} (h : parseIpAddr cs = some a) :
    readIpAddr cs = some (a, []) := by
  unfold parseIpAddr at h
  split at h
  · rename_i hread
    cases h
    exact hread
  · cases h

/-- Address text is digits, dots and colons. -/
theorem parseIpAddr_chars {a : IpAddr} (h : parseIpAddr cs = some a) (hc : c ∈ cs) :
    c = ':' ∨ c = '.' ∨ isDigitOf 16 c = true := by
  have hread := readIpAddr_of_parseIpAddr h
  unfold readIpAddr at hread
  split at hread
  · rename_i v rest hipv4
    cases hread
    obtain ⟨t, ht, _, _, hchars⟩ := readIpv4Addr_some hipv4
    rw [append_nil] at ht
    subst ht
    rcases hchars c hc with hdot | hdigit
    · exact .inr (.inl hdot)
    · exact .inr (.inr (isDigitOf_mono (by decide) hdigit))
  · obtain ⟨⟨bits, rest⟩, hipv6, heq⟩ := Option.map_eq_some_iff.1 hread
    cases heq
    exact readIpv6Addr_chars hipv6 hc

theorem not_mem_of_parseIpAddr {a : IpAddr} (h : parseIpAddr cs = some a)
    (hc : c ≠ ':' ∧ c ≠ '.' ∧ isDigitOf 16 c = false) : c ∉ cs := by
  intro hmem
  rcases parseIpAddr_chars h hmem with heq | heq | hdigit
  · exact hc.1 heq
  · exact hc.2.1 heq
  · exact Bool.noConfusion (hc.2.2.symm.trans hdigit)

/-- Python accepts every address text that Rust parses, without a scope id. -/
theorem ipAddress_of_parseIpAddr {s : String} {a : IpAddr}
    (h : parseIpAddr s.toList = some a) :
    ∃ p, ipAddress (.string s) = some p ∧ p.scopeId = none := by
  have hread := readIpAddr_of_parseIpAddr h
  cases hv4 : ipv4FromString s.toList with
  | some bits => exact ⟨⟨.v4 bits, none⟩, by simp only [ipAddress, hv4], rfl⟩
  | none =>
    unfold readIpAddr at hread
    split at hread
    · rename_i v rest hipv4
      cases hread
      obtain ⟨t, ht, hparses, _, _⟩ := readIpv4Addr_some hipv4
      rw [append_nil] at ht
      rw [← ht, hv4] at hparses
      cases hparses
    · obtain ⟨⟨bits, rest⟩, hipv6, heq⟩ := Option.map_eq_some_iff.1 hread
      cases heq
      have hslash : '/' ∉ s.toList := not_mem_of_parseIpAddr h (by decide)
      have hpercent : '%' ∉ s.toList := not_mem_of_parseIpAddr h (by decide)
      obtain ⟨bits', hbits⟩ := Option.isSome_iff_exists.1 (ipv6FromString_of_read hipv6)
      refine ⟨⟨.v6 bits', none⟩, ?_, rfl⟩
      simp only [ipAddress, hv4, ipv6Address, if_neg hslash, splitScopeId,
        splitOnce_of_not_mem hpercent, Option.bind_some, hbits, Option.map_some]

/-! ## What Python writes -/

/-- Rust parses what Python writes exactly if there is no scope id. -/
theorem parseIpAddr_str (p : PyAddress) :
    (parseIpAddr p.str.toList).isSome = true ↔ p.scopeId = none := by
  obtain ⟨addr, scopeId⟩ := p
  constructor
  · intro h
    obtain ⟨a, ha⟩ := Option.isSome_iff_exists.1 h
    cases scopeId with
    | none => rfl
    | some scope =>
      refine absurd ?_ (not_mem_of_parseIpAddr (c := '%') ha (by decide))
      simp [PyAddress.str]
  · intro h
    have hnone : scopeId = none := h
    subst hnone
    simp [PyAddress.str, parseIpAddr_displayIpAddr]

end Clawforge.Net

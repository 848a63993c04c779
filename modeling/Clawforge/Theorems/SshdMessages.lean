import Clawforge.Net.PyIpAddress
import Clawforge.Sensors.Linux
import Mathlib.Data.List.DropRight

/-!
# What a failed login is attributed to

A message of `sshd` is its shape around the user name, the address and the port. The name is
the client's text. `parse_sshd_message` gives it back with the address exactly when it has no
blank ends, holds no ` from ` of its own, and does not look like the marker `invalid user `
where the parser looks for that marker.
-/

/-! ## Texts between blanks -/

namespace Clawforge.Text

open Kit List

theorem stripPrefix_append (head cs : List Char) : stripPrefix head (head ++ cs) = some cs := by
  rw [stripPrefix, if_pos (List.isPrefixOf_iff_prefix.mpr (prefix_append _ _)),
    drop_left]

theorem stripPrefix_eq_none {head cs : List Char} (h : ¬ head <+: cs) :
    stripPrefix head cs = none := by
  rw [stripPrefix, if_neg fun hpre => h (List.isPrefixOf_iff_prefix.mp hpre)]

/-- A head that differs somewhere is not stripped. -/
theorem stripPrefix_other {head other : List Char} (rest : List Char)
    (hne : ∃ p ∈ head.zip other, p.1 ≠ p.2) : stripPrefix other (head ++ rest) = none := by
  refine stripPrefix_eq_none fun hpre => ?_
  obtain ⟨p, hp, hne⟩ := hne
  obtain ⟨i, hi, rfl⟩ := mem_iff_getElem.mp hp
  rw [getElem_zip] at hne
  rw [length_zip, lt_min_iff] at hi
  have hat := hpre.getElem hi.2
  rw [getElem_append_left hi.1] at hat
  exact hne hat.symm

theorem isPrefixOf_eq_isSome (head cs : List Char) :
    head.isPrefixOf cs = (stripPrefix head cs).isSome := by
  unfold stripPrefix
  cases head.isPrefixOf cs <;> rfl

theorem startsWith_ofList (cs : List Char) (head : String) :
    startsWith (String.ofList cs) head = (stripPrefix head.toList cs).isSome := by
  rw [startsWith, isPrefixOf_eq_isSome, String.toList_ofList]

theorem contains_cons (part : List Char) (c : Char) (cs : List Char) :
    contains part (c :: cs) = true ↔ part <+: c :: cs ∨ contains part cs = true := by
  show (part.isPrefixOf (c :: cs) || contains part cs) = true ↔ _
  rw [Bool.or_eq_true, isPrefixOf_iff_prefix]

/-- A word with a blank on either side. -/
def spaced (word : List Char) : List Char := ' ' :: (word ++ [' '])

/-- The blank that opens a separator does not stand inside an earlier one. -/
theorem not_spaced_prefix_of_short {word u rest : List Char} (hword : ' ' ∉ word) (hu : u ≠ [])
    (hshort : u.length ≤ word.length) : ¬ spaced word <+: u ++ ' ' :: rest := by
  intro h
  have hlen : u.length < (spaced word).length := by
    simp only [spaced, length_cons, length_append]
    omega
  have hat := h.getElem hlen
  rw [getElem_append_right (Nat.le_refl _)] at hat
  obtain ⟨c, u, rfl⟩ := exists_cons_of_ne_nil hu
  simp only [spaced, length_cons, getElem_cons_succ, Nat.sub_self,
    getElem_cons_zero] at hat
  rw [getElem_append_left hshort] at hat
  exact hword (hat ▸ getElem_mem _)

/-- Where a separator starts inside `u`, it lies inside `u` and the blank after it. -/
theorem spaced_prefix_iff {word u rest : List Char} (hword : ' ' ∉ word) (hu : u ≠ []) :
    spaced word <+: u ++ spaced word ++ rest ↔ spaced word <+: u ++ [' '] := by
  have happ : u ++ spaced word ++ rest = (u ++ [' ']) ++ (word ++ [' '] ++ rest) := by
    simp [spaced]
  rw [happ]
  refine ⟨fun h => ?_, fun h => h.trans (prefix_append _ _)⟩
  by_cases hlong : (spaced word).length ≤ (u ++ [' ']).length
  · exact prefix_of_prefix_length_le h (prefix_append _ _) hlong
  · simp only [spaced, length_cons, length_append, length_nil] at hlong
    have hshort : u.length ≤ word.length := by omega
    rw [append_assoc, singleton_append] at h
    exact (not_spaced_prefix_of_short hword hu hshort h).elim

theorem splitOnceOn_spaced (word : List Char) {u : List Char} (rest : List Char)
    (hword : ' ' ∉ word)
    (hu : contains (spaced word) (u ++ [' ']) = false) :
    splitOnceOn (spaced word) (u ++ spaced word ++ rest) = some (u, rest) := by
  induction u with
  | nil =>
    have hstrip := stripPrefix_append (spaced word) rest
    simp only [spaced, nil_append, cons_append] at hstrip ⊢
    rw [splitOnceOn, hstrip]
  | cons c u ih =>
    rw [cons_append, ← Bool.not_eq_true, contains_cons, not_or, Bool.not_eq_true] at hu
    have hnone : stripPrefix (spaced word) (c :: (u ++ spaced word ++ rest)) = none :=
      stripPrefix_eq_none fun hpre =>
        hu.1 ((spaced_prefix_iff hword (cons_ne_nil c u)).mp hpre)
    rw [cons_append, cons_append, splitOnceOn, hnone, ih hu.2]
    rfl

/-- An earlier separator cuts the text before `u` ends. -/
theorem splitOnceOn_early (word : List Char) {u : List Char} (rest : List Char)
    (hu : contains (spaced word) (u ++ [' ']) = true) :
    ∃ before after, splitOnceOn (spaced word) (u ++ spaced word ++ rest) = some (before, after) ∧
      before.length < u.length := by
  induction u with
  | nil =>
    rw [nil_append, contains_cons] at hu
    rcases hu with hpre | hnil
    · have := hpre.length_le
      simp only [spaced, length_cons, length_append, length_nil] at this
      omega
    · simp [contains, spaced] at hnil
  | cons c u ih =>
    rw [cons_append, cons_append, splitOnceOn]
    cases hstrip : stripPrefix (spaced word) (c :: (u ++ spaced word ++ rest)) with
    | some after => exact ⟨[], after, rfl, Nat.succ_pos _⟩
    | none =>
      rw [cons_append, contains_cons] at hu
      rcases hu with hpre | hu
      · have hall : spaced word <+: c :: (u ++ spaced word ++ rest) := by
          refine hpre.trans ⟨word ++ [' '] ++ rest, ?_⟩
          simp [spaced]
        rw [stripPrefix, if_pos (List.isPrefixOf_iff_prefix.mpr hall)] at hstrip
        cases hstrip
      · obtain ⟨before, after, heq, hlt⟩ := ih hu
        rw [heq]
        exact ⟨c :: before, after, rfl, Nat.succ_lt_succ hlt⟩

theorem splitOnceOn_some {sep cs before after : List Char}
    (h : splitOnceOn sep cs = some (before, after)) : cs = before ++ (sep ++ after) := by
  induction cs generalizing before with
  | nil =>
    rw [splitOnceOn] at h
    split at h
    · next hsep =>
      cases h
      rw [hsep]
      rfl
    · cases h
  | cons c cs ih =>
    rw [splitOnceOn] at h
    split at h
    · next tail hstrip =>
      cases h
      unfold stripPrefix at hstrip
      split at hstrip
      · next hpre =>
        cases hstrip
        obtain ⟨r, hr⟩ := isPrefixOf_iff_prefix.mp hpre
        rw [← hr, drop_left]
        rfl
      · cases hstrip
    · obtain ⟨⟨b, a⟩, hrest, heq⟩ := Option.map_eq_some_iff.mp h
      cases heq
      rw [ih hrest]
      rfl

/-- A text without blanks holds no separator. -/
theorem contains_spaced_of_no_blank {word u : List Char} (hu : ' ' ∉ u) :
    contains (spaced word) (u ++ [' ']) = false := by
  induction u with
  | nil =>
    rw [← Bool.not_eq_true, nil_append, contains_cons, not_or]
    refine ⟨fun hpre => ?_, by simp [contains, spaced]⟩
    have := hpre.length_le
    simp only [spaced, length_cons, length_append, length_nil] at this
    omega
  | cons c u ih =>
    rw [mem_cons, not_or] at hu
    rw [← Bool.not_eq_true, cons_append, contains_cons, not_or, Bool.not_eq_true]
    refine ⟨fun hpre => ?_, ih hu.2⟩
    exact hu.1 (cons_prefix_cons.mp hpre).1

/-- Text that starts with no white space keeps its start. -/
theorem trim_prefix {c : Char} (hc : isWhitespace c = false) (cs : List Char) :
    trim (c :: cs) <+: c :: cs := by
  unfold trim
  rw [dropWhile_cons_of_neg (by simp [hc])]
  exact rdropWhile_prefix _ _

theorem trim_length_le (cs : List Char) : (trim cs).length ≤ cs.length := by
  unfold trim
  rw [length_reverse]
  refine (dropWhile_sublist _).length_le.trans ?_
  rw [length_reverse]
  exact (dropWhile_sublist _).length_le

end Clawforge.Text

namespace Clawforge.LinuxSensor

open Kit Net Text List

/-! ## The messages of `sshd` -/

inductive AuthMethod
  | password
  | none
  | publickey
deriving DecidableEq

def AuthMethod.text : AuthMethod → String
  | .password => "password"
  | .none => "none"
  | .publickey => "publickey"

/-- The shapes of a failed attempt; `unknown` is whether `sshd` knows no such account. -/
inductive Shape
  /-- `Failed METHOD for [invalid user ]USER from IP port PORT ssh2` -/
  | failed (method : AuthMethod) (unknown : Bool)
  /-- `Invalid user USER from IP port PORT` -/
  | invalidUser
deriving DecidableEq

namespace Shape

def head : Shape → List Char
  | .failed method _ => ("Failed " ++ method.text ++ " for ").toList
  | .invalidUser => "Invalid user ".toList

def marker : Shape → List Char
  | .failed _ true => "invalid user ".toList
  | .failed _ false | .invalidUser => []

def tail : Shape → List Char
  | .failed _ _ => " ssh2".toList
  | .invalidUser => []

def invalid : Shape → Bool
  | .failed _ unknown => unknown
  | .invalidUser => true

end Shape

/-- The message `sshd` logs. -/
def sshdMessage (shape : Shape) (user ip : String) (port : Nat) : String :=
  String.ofList (shape.head ++ (shape.marker ++ (user.toList ++ " from ".toList ++
    (ip.toList ++ " port ".toList ++ (Nat.toDigits 10 port ++ shape.tail)))))

/-- The attempt is reported as `sshd` logged it. -/
def Attributed (shape : Shape) (user ip : String) (port : Nat) : Prop :=
  parseSshdMessage (sshdMessage shape user ip port) = some ⟨user, ip, shape.invalid⟩

/-- A name the parser does not mistake: no blank ends, no ` from ` (a last word `from`
included), and no marker of its own where `sshd` wrote none. -/
structure PlainName (shape : Shape) (user : String) : Prop where
  ends : trim user.toList = user.toList
  noFrom : contains " from ".toList (user.toList ++ [' ']) = false
  noMarker : shape.marker = [] → ¬ "invalid user ".toList <+: user.toList ++ [' ']

/-! ## The parser behind the shape's head -/

/-- What the parser makes of the text behind the marker. -/
def readAttempt (invalidUser : Bool) (rest : List Char) : Option SshFailure := do
  let (username, rest) ← splitOnceOn " from ".toList rest
  let (sourceIp, _) := (splitOnceOn " port ".toList rest).getD (rest, [])
  if trim username = [] ∨ trim sourceIp = [] then none
  else some ⟨String.ofList (trim username), String.ofList (trim sourceIp), invalidUser⟩

/-- The text behind the head of a message. -/
def behindHead (text : List Char) : Option (List Char) :=
  (stripPrefix "Failed password for ".toList text).or
    ((stripPrefix "Failed none for ".toList text).or
      ((stripPrefix "Failed publickey for ".toList text).or
        (stripPrefix "Invalid user ".toList text)))

theorem parseSshdMessage_behind {text rest : List Char} {invalidUser : Bool}
    (hstrip : behindHead text = some rest)
    (hself : startsWith (String.ofList text) "Invalid user " = invalidUser) :
    parseSshdMessage (String.ofList text) =
      readAttempt (invalidUser || "invalid user ".toList.isPrefixOf rest)
        ((stripPrefix "invalid user ".toList rest).getD rest) := by
  have hlist : (String.ofList text).toList = text := String.toList_ofList
  unfold parseSshdMessage
  rw [hself, hlist]
  dsimp only
  rw [show Option.or _ _ = some rest from hstrip]
  rfl

theorem parseSshdMessage_failed (method : AuthMethod) (unknown : Bool) (rest : List Char) :
    parseSshdMessage (String.ofList ((Shape.failed method unknown).head ++ rest)) =
      readAttempt ("invalid user ".toList.isPrefixOf rest)
        ((stripPrefix "invalid user ".toList rest).getD rest) := by
  have hstrip : behindHead ((Shape.failed method unknown).head ++ rest) = some rest := by
    unfold behindHead
    cases method with
    | password =>
      have hhead : (Shape.failed .password unknown).head = "Failed password for ".toList := rfl
      rw [hhead, stripPrefix_append]
      rfl
    | none =>
      have hhead : (Shape.failed .none unknown).head = "Failed none for ".toList := rfl
      rw [hhead, stripPrefix_other rest (by decide), stripPrefix_append]
      rfl
    | publickey =>
      have hhead : (Shape.failed .publickey unknown).head = "Failed publickey for ".toList := rfl
      rw [hhead, stripPrefix_other rest (by decide), stripPrefix_other rest (by decide),
        stripPrefix_append]
      rfl
  have hother : startsWith (String.ofList ((Shape.failed method unknown).head ++ rest))
      "Invalid user " = false := by
    rw [startsWith_ofList, stripPrefix_other rest]
    · rfl
    · cases method <;> cases unknown <;> decide
  rw [parseSshdMessage_behind hstrip hother, Bool.false_or]

theorem parseSshdMessage_invalidUser (rest : List Char) :
    parseSshdMessage (String.ofList (Shape.invalidUser.head ++ rest)) =
      readAttempt true ((stripPrefix "invalid user ".toList rest).getD rest) := by
  have hhead : Shape.invalidUser.head = "Invalid user ".toList := rfl
  have hstrip : behindHead (Shape.invalidUser.head ++ rest) = some rest := by
    unfold behindHead
    rw [hhead, stripPrefix_other rest (by decide), stripPrefix_other rest (by decide),
      stripPrefix_other rest (by decide), stripPrefix_append]
    rfl
  have hself : startsWith (String.ofList (Shape.invalidUser.head ++ rest)) "Invalid user " =
      true := by
    rw [startsWith_ofList, hhead, stripPrefix_append]
    rfl
  rw [parseSshdMessage_behind hstrip hself, Bool.true_or]

/-! ## Name and address -/

theorem readAttempt_some {invalidUser : Bool} {rest : List Char} {f : SshFailure}
    (h : readAttempt invalidUser rest = some f) :
    ∃ before after, splitOnceOn " from ".toList rest = some (before, after) ∧
      f.username.toList = trim before ∧ f.invalidUser = invalidUser := by
  obtain ⟨⟨before, after⟩, hsplit, h⟩ := Option.bind_eq_some_iff.mp h
  dsimp only at h
  split at h
  · cases h
  · cases h
    exact ⟨before, after, hsplit, String.toList_ofList, rfl⟩

/-- What follows the name in a message. -/
def behindName (ip : String) (port : Nat) (tail : List Char) : List Char :=
  ip.toList ++ " port ".toList ++ (Nat.toDigits 10 port ++ tail)

section Address

variable {ip : String} {a : IpAddr}

theorem blank_not_mem_address (hip : parseIpAddr ip.toList = some a) : ' ' ∉ ip.toList :=
  not_mem_of_parseIpAddr hip ⟨by decide, by decide, by decide⟩

theorem splitOnceOn_port (hip : parseIpAddr ip.toList = some a) (port : Nat) (tail : List Char) :
    splitOnceOn " port ".toList (behindName ip port tail) =
      some (ip.toList, Nat.toDigits 10 port ++ tail) :=
  splitOnceOn_spaced "port".toList _ (by decide)
    (contains_spaced_of_no_blank (blank_not_mem_address hip))

theorem trim_address (hip : parseIpAddr ip.toList = some a) :
    trim ip.toList = ip.toList ∧ ip.toList ≠ [] := by
  refine ⟨trim_of_no_blank fun c hc => ?_, fun hnil => ?_⟩
  · rcases parseIpAddr_chars hip hc with rfl | rfl | hdigit
    · decide
    · decide
    · exact isWhitespace_of_isDigitOf hdigit
  · rw [hnil] at hip
    cases hip

/-- Behind the marker, name and address are read back exactly when the name has no blank ends
and holds no ` from `. -/
theorem readAttempt_iff {user : String} (huser : user ≠ "")
    (hip : parseIpAddr ip.toList = some a) (port : Nat) (tail : List Char) (invalidUser : Bool) :
    readAttempt invalidUser (user.toList ++ " from ".toList ++ behindName ip port tail) =
        some ⟨user, ip, invalidUser⟩ ↔
      trim user.toList = user.toList ∧
        contains " from ".toList (user.toList ++ [' ']) = false := by
  have hne : user.toList ≠ [] := fun hnil => huser (String.toList_eq_nil_iff.mp hnil)
  constructor
  · intro h
    obtain ⟨before, after, hsplit, hname, -⟩ := readAttempt_some h
    cases hfrom : contains " from ".toList (user.toList ++ [' ']) with
    | true =>
      obtain ⟨before', after', hearly, hlt⟩ :=
        splitOnceOn_early "from".toList (behindName ip port tail) hfrom
      have hsame : before = before' := congrArg Prod.fst (Option.some.inj (hsplit.symm.trans hearly))
      have hle := trim_length_le before
      have hlen : user.toList.length = (trim before).length := congrArg List.length hname
      rw [hsame] at hlen hle
      omega
    | false =>
      have hfirst := splitOnceOn_spaced "from".toList (behindName ip port tail) (by decide) hfrom
      have hsame : before = user.toList :=
        congrArg Prod.fst (Option.some.inj (hsplit.symm.trans hfirst))
      exact ⟨(hsame ▸ hname).symm, rfl⟩
  · rintro ⟨htrim, hfrom⟩
    have hsplit : splitOnceOn " from ".toList
        (user.toList ++ " from ".toList ++ behindName ip port tail) =
        some (user.toList, behindName ip port tail) :=
      splitOnceOn_spaced "from".toList _ (by decide) hfrom
    obtain ⟨htrimIp, hipNe⟩ := trim_address hip
    unfold readAttempt
    rw [hsplit]
    simp only [Option.bind_eq_bind, Option.bind_some, splitOnceOn_port hip, Option.getD_some,
      htrim, htrimIp, hne, hipNe, or_self, if_false, String.ofList_toList]

end Address

/-! ## The marker -/

/-- The marker is seen in a name exactly when the name and a blank begin with it. -/
theorem marker_prefix_iff {user : List Char} (rest : List Char) :
    "invalid user ".toList <+: user ++ " from ".toList ++ rest ↔
      "invalid user ".toList <+: user ++ [' '] := by
  have happ : user ++ " from ".toList ++ rest = (user ++ [' ']) ++ ("from ".toList ++ rest) := by
    simp
  rw [happ]
  refine ⟨fun h => ?_, fun h => h.trans (prefix_append _ _)⟩
  by_cases hlong : "invalid user ".toList.length ≤ (user ++ [' ']).length
  · exact prefix_of_prefix_length_le h (prefix_append _ _) hlong
  -- the name is too short: ` f` would have to stand in the marker
  · have hshort : user.length < 12 := by
      simp only [length_append, length_singleton] at hlong
      have : "invalid user ".toList.length = 13 := rfl
      omega
    obtain ⟨r, hr⟩ := h
    have hat : ∀ i, i < 13 → "invalid user ".toList[i]? =
        ((user ++ [' ']) ++ ("from ".toList ++ rest))[i]? := by
      intro i hi
      rw [← hr, getElem?_append_left hi]
    have hblank := hat user.length (by omega)
    have hletter := hat (user.length + 1) (by omega)
    rw [append_assoc, getElem?_append_right (Nat.le_refl _)] at hblank
    rw [append_assoc, getElem?_append_right (Nat.le_succ _)] at hletter
    simp only [Nat.sub_self, singleton_append] at hblank hletter
    revert hblank hletter
    generalize user.length = n at hshort
    interval_cases n <;> simp

/-- A name that begins like the marker loses its beginning. -/
theorem readAttempt_of_marker {user ip : String} {rest : List Char} {invalidUser : Bool}
    (hmarker : "invalid user ".toList <+: user.toList ++ [' ']) :
    readAttempt invalidUser ((stripPrefix "invalid user ".toList
        (user.toList ++ " from ".toList ++ rest)).getD
          (user.toList ++ " from ".toList ++ rest)) ≠
      some ⟨user, ip, invalidUser⟩ := by
  intro h
  have hpre := (marker_prefix_iff rest).mpr hmarker
  rw [stripPrefix, if_pos (List.isPrefixOf_iff_prefix.mpr hpre), Option.getD_some] at h
  obtain ⟨before, after, hsplit, hname, -⟩ := readAttempt_some h
  have hlenName : user.toList.length = (trim before).length := congrArg List.length hname
  have hle := trim_length_le before
  obtain ⟨r, hr⟩ := hmarker
  rcases eq_nil_or_concat r with rfl | ⟨u, c, rfl⟩
  · -- the whole name is `invalid user`, so that `from ` starts the rest
    have huser : user.toList = "invalid user".toList := by
      have hsame : "invalid user".toList ++ [' '] = user.toList ++ [' '] := by
        rw [← hr]
        rfl
      exact (append_cancel_right hsame).symm
    rw [huser] at hsplit hname
    have heq : "from ".toList ++ rest = before ++ (" from ".toList ++ after) :=
      splitOnceOn_some hsplit
    cases before with
    | nil => cases heq
    | cons c before =>
      obtain ⟨rfl, -⟩ := cons.inj heq
      have hstart := trim_prefix (c := 'f') (by decide) before
      have hname' : "invalid user".toList = trim ('f' :: before) := hname
      rw [← hname'] at hstart
      have hfirst := (cons_prefix_cons.mp hstart).1
      exact absurd hfirst (by decide)
  · -- what is left of the name is shorter than the name
    have huser : user.toList = "invalid user ".toList ++ u := by
      have hsame : ("invalid user ".toList ++ u) ++ [c] = user.toList ++ [' '] := by
        rw [← hr]
        simp
      exact (append_inj_left' hsame rfl).symm
    have hdrop : (user.toList ++ " from ".toList ++ rest).drop "invalid user ".toList.length =
        u ++ " from ".toList ++ rest := by
      rw [huser, append_assoc, append_assoc, drop_left, append_assoc]
    rw [hdrop] at hsplit
    have hlen : user.toList.length = 13 + u.length := by
      rw [huser, length_append]
      rfl
    cases hfrom : contains " from ".toList (u ++ [' ']) with
    | true =>
      obtain ⟨before', after', hearly, hlt⟩ :=
        splitOnceOn_early "from".toList rest hfrom
      have hsame : before = before' := congrArg Prod.fst (Option.some.inj (hsplit.symm.trans hearly))
      rw [hsame] at hlenName hle
      omega
    | false =>
      have hfirst := splitOnceOn_spaced "from".toList rest (by decide) hfrom
      have hsame : before = u :=
        congrArg Prod.fst (Option.some.inj (hsplit.symm.trans hfirst))
      rw [hsame] at hlenName hle
      omega

theorem plainName_of_marked {shape : Shape} {user : String} (h : shape.marker ≠ []) :
    PlainName shape user ↔ trim user.toList = user.toList ∧
      contains " from ".toList (user.toList ++ [' ']) = false :=
  ⟨fun hp => ⟨hp.ends, hp.noFrom⟩, fun hp => ⟨hp.1, hp.2, fun hnil => absurd hnil h⟩⟩

theorem plainName_of_no_marker {shape : Shape} {user : String}
    (hpre : ¬ "invalid user ".toList <+: user.toList ++ [' ']) :
    PlainName shape user ↔ trim user.toList = user.toList ∧
      contains " from ".toList (user.toList ++ [' ']) = false :=
  ⟨fun hp => ⟨hp.ends, hp.noFrom⟩, fun hp => ⟨hp.1, hp.2, fun _ => hpre⟩⟩

/-- A failed login is reported as `sshd` logged it exactly when its user name is plain. -/
theorem attributed_iff_plainName (shape : Shape) (user ip : String) (a : IpAddr) (port : Nat)
    (huser : user ≠ "") (hip : parseIpAddr ip.toList = some a) :
    Attributed shape user ip port ↔ PlainName shape user := by
  have hmarker : "invalid user ".toList <+: user.toList ++ " from ".toList ++
      behindName ip port shape.tail ↔ "invalid user ".toList <+: user.toList ++ [' '] :=
    marker_prefix_iff (behindName ip port shape.tail)
  have hmessage : sshdMessage shape user ip port = String.ofList (shape.head ++ (shape.marker ++
      (user.toList ++ " from ".toList ++ behindName ip port shape.tail))) := rfl
  unfold Attributed
  rw [hmessage]
  cases shape with
  | failed method unknown =>
    rw [parseSshdMessage_failed]
    cases unknown with
    | true =>
      have hstrip := stripPrefix_append "invalid user ".toList (user.toList ++ " from ".toList ++
        behindName ip port (Shape.failed method true).tail)
      have hmark : (Shape.failed method true).marker = "invalid user ".toList := rfl
      rw [hmark, isPrefixOf_eq_isSome, hstrip, Option.getD_some, Option.isSome_some]
      rw [plainName_of_marked (hmark ▸ by decide)]
      exact readAttempt_iff huser hip port _ true
    | false =>
      have hmark : (Shape.failed method false).marker = [] := rfl
      rw [hmark, nil_append]
      by_cases hpre : "invalid user ".toList <+: user.toList ++ [' ']
      · rw [List.isPrefixOf_iff_prefix.mpr (hmarker.mpr hpre)]
        refine ⟨fun h => ?_, fun h => absurd hpre (h.noMarker hmark)⟩
        obtain ⟨-, -, -, -, hflag⟩ := readAttempt_some h
        exact absurd hflag Bool.false_ne_true
      · have hnone := stripPrefix_eq_none fun h => hpre (hmarker.mp h)
        rw [isPrefixOf_eq_isSome, hnone, Option.isSome_none, Option.getD_none,
          plainName_of_no_marker hpre]
        exact readAttempt_iff huser hip port _ false
  | invalidUser =>
    have hmark : Shape.invalidUser.marker = [] := rfl
    rw [parseSshdMessage_invalidUser, hmark, nil_append]
    by_cases hpre : "invalid user ".toList <+: user.toList ++ [' ']
    · exact ⟨fun h => (readAttempt_of_marker hpre h).elim,
        fun h => absurd hpre (h.noMarker hmark)⟩
    · have hnone := stripPrefix_eq_none fun h => hpre (hmarker.mp h)
      rw [hnone, Option.getD_none, plainName_of_no_marker hpre]
      exact readAttempt_iff huser hip port _ true

/-- A plain name is attributed; a name with ` from ` in it frames the address it names. -/
theorem attributed_iff_plainName_root :
    Attributed .invalidUser "root" "203.0.113.7" 51234 ∧
      ¬ Attributed (.failed .password true) "x from 192.0.2.1 port 1" "203.0.113.7" 51234 := by
  refine ⟨(attributed_iff_plainName .invalidUser "root" "203.0.113.7" (.v4 0xcb007107) 51234
    (by decide) (by decide)).mpr ⟨by decide, by decide, fun _ => by decide⟩, fun h => ?_⟩
  have hplain := (attributed_iff_plainName (.failed .password true) "x from 192.0.2.1 port 1"
    "203.0.113.7" (.v4 0xcb007107) 51234 (by decide) (by decide)).mp h
  have hfrom := hplain.noFrom
  revert hfrom
  decide

/-- The address in a user name is taken for the source of the attempt. -/
theorem framed_by_user_name :
    parseSshdMessage (sshdMessage (.failed .password true) "x from 192.0.2.1 port 1"
        "203.0.113.7" 51234) = some ⟨"x", "192.0.2.1", true⟩ ∧
      ¬ Attributed (.failed .password true) "x from 192.0.2.1 port 1" "203.0.113.7" 51234 := by
  have hframed : parseSshdMessage (sshdMessage (.failed .password true) "x from 192.0.2.1 port 1"
      "203.0.113.7" 51234) = some ⟨"x", "192.0.2.1", true⟩ := by decide
  refine ⟨hframed, fun h => ?_⟩
  unfold Attributed at h
  rw [hframed] at h
  revert h
  decide

end Clawforge.LinuxSensor

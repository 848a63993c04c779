import Clawforge.Intelligence.IpContext
import Clawforge.Kit.Fallible
import Mathlib

/-!
# Routing facts are verified

What an assembled context says was checked: the announced network contains the address and
is not too wide, the origins are sorted, distinct and few, and a validity is claimed only if
every origin has its own answer, about this network and this origin (`assemble_verified`).
-/

namespace Clawforge.Intelligence

open Clawforge.Net Kit List Option

section Statement

variable (env : Env)

/-- A body that is accepted, with its data. -/
def Delivers (bytes : ByteArray) (data : Json) : Prop :=
  0 < bytes.size ∧ bytes.size ≤ maxBodyBytes ∧ data.isObject = true ∧
    ∃ value, env.fromSlice bytes = .ok value ∧
      (value.get "status").bind Json.asStr = some "ok" ∧
      (value.get "status_code").bind Json.asU64 = some 200 ∧ value.get "data" = some data

/-- Decimal digits that name the origin. -/
def SpellsAsn (digits : List Char) (asn : Nat) : Prop :=
  1 ≤ digits.length ∧ digits.length ≤ 10 ∧ (∀ c ∈ digits, isDigitOf 10 c = true) ∧
    numeralValue 10 digits = asn ∧ asn ≠ 0

/-- The resource names the origin, as a number or as a text with any number of `AS` before
the digits. -/
def NamesAsn (resource : Option Json) (asn : Nat) : Prop :=
  asn < 2 ^ 32 ∧
    ((∃ text k digits, resource = some (.string text) ∧
        text.toList = (List.replicate k ['A', 'S']).flatten ++ digits ∧ SpellsAsn digits asn) ∨
      resource = some (.number (.int asn)))

/-- An answer about this network and this origin, with its status. -/
def Says (bytes : ByteArray) (net : IpNet) (asn : Nat) (status : String) : Prop :=
  ∃ data, Delivers env bytes data ∧
    (∃ text, data.get "prefix" = some (.string text) ∧ env.parseIpNet text = some net) ∧
    NamesAsn (data.get "resource") asn ∧ data.get "status" = some (.string status)

/-- Each origin's own answer says so. -/
def EachSays (net : IpNet) (origins : List Nat) (bodies : List (Option ByteArray))
    (P : String → Prop) : Prop :=
  bodies.length = origins.length ∧ ∀ (i asn : Nat), origins[i]? = some asn →
    ∃ bytes status, bodies[i]? = some (some bytes) ∧ Says env bytes net asn status ∧ P status

def Recognised (status : String) : Prop := (stateOf status).isSome = true

end Statement

section Proof

variable {env : Env} {bytes : ByteArray} {asn : Nat} {origins : List Nat} {net : IpNet}
  {states : List RpkiState}

/-! ## Parsers that succeed -/

theorem orReject_ok {α : Type} {found : Option α} {text : String} {a : α} :
    orReject found text = .ok a ↔ found = some a := by
  cases found with
  | none => constructor <;> (intro h; cases h)
  | some b =>
    exact ⟨fun h => congrArg some (Except.ok.inj h),
      fun h => congrArg Except.ok (some.inj h)⟩

theorem envelope_ok {value : Json} :
    envelope env bytes = .ok value ↔ 0 < bytes.size ∧ bytes.size ≤ maxBodyBytes ∧
      env.fromSlice bytes = .ok value ∧ (value.get "status").bind Json.asStr = some "ok" ∧
      (value.get "status_code").bind Json.asU64 = some 200 := by
  unfold envelope
  constructor
  · intro h
    split at h
    · cases h
    · rename_i hsize
      split at h
      · cases h
      · rename_i v hv
        split at h
        · rename_i hstatus
          obtain rfl := Except.ok.inj h
          exact ⟨by omega, by omega, hv, hstatus⟩
        · cases h
  · rintro ⟨hpos, hmax, hv, hstatus⟩
    rw [if_neg (by omega), hv]
    exact if_pos hstatus

/-- The data of an accepted body. -/
theorem delivers_iff {data : Json} :
    (∃ value, envelope env bytes = .ok value ∧
      (value.get "data").filter Json.isObject = some data) ↔ Delivers env bytes data := by
  constructor
  · rintro ⟨value, hvalue, hdata⟩
    obtain ⟨hpos, hmax, hv, hstatus⟩ := envelope_ok.1 hvalue
    obtain ⟨hget, hobject⟩ := filter_eq_some_iff.1 hdata
    exact ⟨hpos, hmax, hobject, value, hv, hstatus.1, hstatus.2, hget⟩
  · rintro ⟨hpos, hmax, hobject, value, hv, hok, hcode, hget⟩
    exact ⟨value, envelope_ok.2 ⟨hpos, hmax, hv, hok, hcode⟩,
      filter_eq_some_iff.2 ⟨hget, hobject⟩⟩

theorem asStr_eq_some {j : Json} {s : String} : j.asStr = some s ↔ j = .string s := by
  cases j <;> simp [Json.asStr]

theorem bind_asStr_eq_some {found : Option Json} {s : String} :
    found.bind Json.asStr = some s ↔ found = some (.string s) := by
  cases found with
  | none => simp
  | some j => simp [asStr_eq_some]

theorem asU64_eq_some {j : Json} {n : Nat} :
    j.asU64 = some n ↔ j = .number (.int n) ∧ n < 2 ^ 64 := by
  cases j with
  | number m =>
    cases m with
    | int k =>
      simp only [Json.asU64, ite_none_right_eq_some, Option.some.injEq, Json.number.injEq,
        JsonNumber.int.injEq]
      omega
    | float t => simp [Json.asU64]
  | _ => simp [Json.asU64]

/-! ## Origins -/

theorem asnNumber_eq_some {text : List Char} :
    asnNumber text = some asn ↔ SpellsAsn text asn ∧ asn < 2 ^ 32 := by
  unfold asnNumber SpellsAsn
  constructor
  · intro h
    split at h
    · rename_i hshape
      obtain ⟨hparse, hne⟩ := filter_eq_some_iff.1 h
      have hpos : 1 ≤ text.length := length_pos_iff.2 hshape.1
      rw [Text.parseUnsigned] at hparse
      split at hparse
      · rename_i hdigits
        have hplus : Text.stripPlus text = text := by
          unfold Text.stripPlus
          split
          · have := hshape.2.2
            simp [isDigitOf, digitValue] at this
          · rfl
        rw [hplus] at hparse hdigits
        obtain rfl := some.inj hparse
        exact ⟨⟨hpos, hshape.2.1, List.all_eq_true.1 hshape.2.2, rfl, by simpa using hne⟩,
          hdigits.2.2⟩
      · cases hparse
    · cases h
  · rintro ⟨⟨hpos, hmax, hdigits, rfl, hne⟩, hlt⟩
    have hsome : text ≠ [] := length_pos_iff.1 hpos
    have hall : text.all (isDigitOf 10) = true := List.all_eq_true.2 hdigits
    have hplus : Text.stripPlus text = text := by
      unfold Text.stripPlus
      split
      · simp [isDigitOf, digitValue] at hall
      · rfl
    rw [if_pos ⟨hsome, hmax, hall⟩, Text.parseUnsigned, hplus, if_pos ⟨hsome, hall, hlt⟩]
    exact filter_eq_some_iff.2 ⟨rfl, by simpa using hne⟩

theorem trimAs_replicate (k : Nat) {digits : List Char}
    (h : ∀ c ∈ digits, isDigitOf 10 c = true) :
    trimAs ((List.replicate k ['A', 'S']).flatten ++ digits) = digits := by
  induction k with
  | zero =>
    show trimAs digits = digits
    unfold trimAs
    split
    · exact absurd (h 'A' mem_cons_self) (by decide)
    · rfl
  | succ k ih =>
    rw [replicate_succ, flatten_cons, append_assoc]
    exact ih

theorem exists_trimAs (text : List Char) :
    ∃ k, text = (List.replicate k ['A', 'S']).flatten ++ trimAs text := by
  induction text using trimAs.induct with
  | case1 rest ih =>
    obtain ⟨k, hk⟩ := ih
    refine ⟨k + 1, ?_⟩
    rw [replicate_succ, flatten_cons, append_assoc, trimAs, ← hk]
    rfl
  | case2 text hne =>
    refine ⟨0, ?_⟩
    rw [trimAs]
    · rfl
    · exact hne

theorem echoedAsn_number (n : JsonNumber) :
    echoedAsn (some (.number n)) = (Json.number n).asU64.filter (· < 2 ^ 32) := rfl

theorem echoedAsn_eq_some {resource : Option Json} :
    echoedAsn resource = some asn ↔ NamesAsn resource asn := by
  unfold NamesAsn
  constructor
  · intro h
    unfold echoedAsn at h
    split at h
    · rename_i text
      obtain ⟨hspells, hlt⟩ := asnNumber_eq_some.1 h
      obtain ⟨k, hk⟩ := exists_trimAs text.toList
      exact ⟨hlt, .inl ⟨text, k, _, rfl, hk, hspells⟩⟩
    · rename_i n
      obtain ⟨hn, hlt⟩ := filter_eq_some_iff.1 h
      exact ⟨of_decide_eq_true hlt, .inr (congrArg some (asU64_eq_some.1 hn).1)⟩
    · cases h
  · rintro ⟨hlt, ⟨text, k, digits, rfl, htext, hspells⟩ | rfl⟩
    · show asnNumber (trimAs text.toList) = some asn
      rw [htext, trimAs_replicate k hspells.2.2.1]
      exact asnNumber_eq_some.2 ⟨hspells, hlt⟩
    · rw [echoedAsn_number]
      have hwide : asn < 2 ^ 64 := Nat.lt_trans hlt (by decide)
      exact filter_eq_some_iff.2 ⟨asU64_eq_some.2 ⟨rfl, hwide⟩, decide_eq_true hlt⟩

theorem originOf_eq_some {item : Json} (h : originOf item = some asn) : 0 < asn ∧ asn < 2 ^ 32 := by
  unfold originOf at h
  rcases or_eq_some_iff.1 h with htext | ⟨-, hnumber⟩
  · obtain ⟨text, -, hspells⟩ := bind_eq_some_iff.1 htext
    obtain ⟨⟨-, -, -, -, hne⟩, hlt⟩ := asnNumber_eq_some.1 hspells
    exact ⟨Nat.pos_of_ne_zero hne, hlt⟩
  · obtain ⟨-, hfilter⟩ := filter_eq_some_iff.1 hnumber
    have hbounds := of_decide_eq_true hfilter
    exact ⟨Nat.pos_of_ne_zero hbounds.2, hbounds.1⟩

theorem mem_sortedOrigins : asn ∈ sortedOrigins origins ↔ asn ∈ origins := by
  rw [sortedOrigins, mem_dedup, mem_insertionSort]

theorem sortedOrigins_increasing (origins : List Nat) :
    (sortedOrigins origins).Pairwise (· < ·) := by
  have hsorted : (origins.insertionSort (· ≤ ·)).Pairwise (· ≤ ·) :=
    pairwise_insertionSort _ _
  have hle := hsorted.sublist (dedup_sublist _)
  have hne : (sortedOrigins origins).Pairwise (· ≠ ·) := nodup_dedup _
  exact hle.imp₂ (fun a b hab hne => Nat.lt_of_le_of_ne hab hne) hne

theorem length_sortedOrigins_le (origins : List Nat) :
    (sortedOrigins origins).length ≤ origins.length :=
  Nat.le_trans (dedup_sublist _).length_le
    (Nat.le_of_eq (length_insertionSort _ _))

theorem mapM_ok {α β : Type} {f : α → Except IpContextError β} {xs : List α} {ys : List β}
    (h : xs.mapM f = .ok ys) : ys.length = xs.length ∧ ∀ y ∈ ys, ∃ x ∈ xs, f x = .ok y := by
  induction xs generalizing ys with
  | nil =>
    obtain rfl : [] = ys := Except.ok.inj h
    exact ⟨rfl, fun y hy => absurd hy not_mem_nil⟩
  | cons x xs ih =>
    rw [mapM_cons] at h
    obtain ⟨y, hy, h⟩ := bind_ok h
    obtain ⟨zs, hzs, h⟩ := bind_ok h
    obtain rfl : y :: zs = ys := Except.ok.inj h
    obtain ⟨hlength, hall⟩ := ih hzs
    refine ⟨congrArg (· + 1) hlength, fun z hz => ?_⟩
    rcases mem_cons.1 hz with rfl | hz
    · exact ⟨x, mem_cons_self, hy⟩
    · obtain ⟨w, hw, hfw⟩ := hall z hz
      exact ⟨w, mem_cons_of_mem _ hw, hfw⟩

/-! ## Network info -/

/-- What an announced network and its origins passed. -/
structure VerifiedRoute (ip : IpAddr) (net : IpNet) (origins : List Nat) : Prop where
  contains : net.contains ip = true
  specific : minLength net ≤ net.prefixLen
  origin : origins ≠ []
  increasing : origins.Pairwise (· < ·)
  few : origins.length ≤ 16
  plain : ∀ asn ∈ origins, 0 < asn ∧ asn < 2 ^ 32

theorem parseNetworkInfo_ok {body : ByteArray} {ip : IpAddr}
    (h : parseNetworkInfo env body ip = .ok (some (net, origins))) :
    VerifiedRoute ip net origins := by
  unfold parseNetworkInfo at h
  obtain ⟨value, -, h⟩ := bind_ok h
  obtain ⟨data, -, h⟩ := bind_ok h
  obtain ⟨announced, -, h⟩ := bind_ok h
  obtain ⟨asns, -, h⟩ := bind_ok h
  split at h
  · split at h
    · cases h
    · cases h
  · obtain ⟨net', -, h⟩ := bind_ok h
    split at h
    · cases h
    · rename_i hwide
      split at h
      · cases h
      · rename_i hcontains
        split at h
        · cases h
        · rename_i hcount
          obtain ⟨numbers, hnumbers, h⟩ := bind_ok h
          obtain ⟨rfl, rfl⟩ := Prod.mk.inj (some.inj (Except.ok.inj h))
          obtain ⟨hlength, hall⟩ := mapM_ok hnumbers
          have hsome : numbers ≠ [] := by
            rintro rfl
            exact hcount (.inl (length_eq_zero_iff.1 hlength.symm))
          refine ⟨by simpa using hcontains, Nat.not_lt.1 hwide, ?_, sortedOrigins_increasing _,
            ?_, ?_⟩
          · obtain ⟨asn, hasn⟩ := exists_mem_of_ne_nil _ hsome
            exact ne_nil_of_mem (mem_sortedOrigins.2 hasn)
          · have hmax : asns.length ≤ 16 := Nat.not_lt.1 (fun hlt => hcount (.inr hlt))
            exact Nat.le_trans (length_sortedOrigins_le _) (hlength ▸ hmax)
          · intro asn hasn
            obtain ⟨item, -, hitem⟩ := hall asn (mem_sortedOrigins.1 hasn)
            exact originOf_eq_some (orReject_ok.1 hitem)

/-! ## Validity -/

theorem parseRpki_ok {state : RpkiState} :
    parseRpki env bytes net asn = .ok state ↔
      ∃ status, Says env bytes net asn status ∧ stateOf status = some state := by
  unfold parseRpki Says
  constructor
  · intro h
    obtain ⟨value, hvalue, h⟩ := bind_ok h
    obtain ⟨data, hdata, h⟩ := bind_ok h
    split at h
    · cases h
    · rename_i hprefix
      split at h
      · cases h
      · rename_i hasn
        obtain ⟨status, hstatus, hstate⟩ := bind_eq_some_iff.1 (orReject_ok.1 h)
        obtain ⟨text, htext, hnet⟩ := bind_eq_some_iff.1 (not_not.1 hprefix)
        exact ⟨status, ⟨data, delivers_iff.1 ⟨value, hvalue, orReject_ok.1 hdata⟩,
          ⟨text, bind_asStr_eq_some.1 htext, hnet⟩, echoedAsn_eq_some.1 (not_not.1 hasn),
          bind_asStr_eq_some.1 hstatus⟩, hstate⟩
  · rintro ⟨status, ⟨data, hdelivers, ⟨text, htext, hnet⟩, hasn, hstatus⟩, hstate⟩
    obtain ⟨value, hvalue, hdata⟩ := delivers_iff.2 hdelivers
    have hecho : ((data.get "prefix").bind Json.asStr).bind env.parseIpNet = some net := by
      rw [bind_asStr_eq_some.2 htext]
      exact hnet
    have hstatus' : ((data.get "status").bind Json.asStr).bind stateOf = some state := by
      rw [bind_asStr_eq_some.2 hstatus]
      exact hstate
    rw [hvalue]
    show (orReject _ _ >>= fun data => _) = _
    rw [orReject_ok.2 hdata]
    show (if _ then _ else _) = _
    rw [if_neg (not_not.2 hecho), if_neg (not_not.2 (echoedAsn_eq_some.2 hasn))]
    exact orReject_ok.2 hstatus'

theorem addState_complete {acc : List RpkiState × Bool} {answer : Nat × Option ByteArray}
    (h : (addState env net acc answer).2 = true) :
    ∃ bytes state, answer.2 = some bytes ∧ parseRpki env bytes net answer.1 = .ok state ∧
      addState env net acc answer = (acc.1 ++ [state], acc.2) := by
  unfold addState at h ⊢
  split at h
  · rename_i state hstate
    obtain ⟨bytes, hbytes, hparse⟩ := map_eq_some_iff.1 hstate
    exact ⟨bytes, state, hbytes, hparse, rfl⟩
  · cases h

/-- The loop is complete only if it started so and every answer parsed. -/
theorem foldl_addState {answers : List (Nat × Option ByteArray)} {acc : List RpkiState × Bool}
    (h : (answers.foldl (addState env net) acc).2 = true) :
    acc.2 = true ∧ ∃ states, (answers.foldl (addState env net) acc).1 = acc.1 ++ states ∧
      Forall₂ (fun answer state => ∃ bytes, answer.2 = some bytes ∧
        parseRpki env bytes net answer.1 = .ok state) answers states := by
  induction answers generalizing acc with
  | nil => exact ⟨h, [], (append_nil _).symm, Forall₂.nil⟩
  | cons answer answers ih =>
    obtain ⟨hstep, states, hstates, hall⟩ := ih h
    obtain ⟨bytes, state, hbytes, hparse, hadd⟩ := addState_complete hstep
    rw [hadd] at hstep hstates
    refine ⟨hstep, state :: states, ?_, Forall₂.cons ⟨bytes, hbytes, hparse⟩ hall⟩
    rw [foldl_cons, hadd, hstates, append_assoc]
    rfl

theorem stateOf_valid {status : String} : stateOf status = some .valid ↔ status = "valid" := by
  unfold stateOf
  split
  · rename_i h
    exact ⟨fun _ => h, fun _ => rfl⟩
  · rename_i h
    refine ⟨fun hstate => ?_, fun hvalid => absurd hvalid h⟩
    split at hstate
    · cases hstate
    · split at hstate <;> cases hstate

theorem stateOf_invalid {status : String} (h : stateOf status = some .invalid) :
    Text.startsWith status "invalid" = true := by
  unfold stateOf at h
  split at h
  · cases h
  · split at h
    · assumption
    · split at h <;> cases h

theorem summarize_valid (h : summarize states = .valid) : ∀ s ∈ states, s = .valid := by
  unfold summarize at h
  split at h
  · cases h
  · split at h
    · rename_i hall
      exact fun s hs => of_decide_eq_true (List.all_eq_true.1 hall s hs)
    · split at h
      · cases h
      · split at h <;> cases h

theorem summarize_invalid (h : summarize states = .invalid) : ∀ s ∈ states, s = .invalid := by
  unfold summarize at h
  split at h
  · cases h
  · split at h
    · cases h
    · split at h
      · rename_i hall
        exact fun s hs => of_decide_eq_true (List.all_eq_true.1 hall s hs)
      · split at h <;> cases h

/-! ## Assembling -/

/-- A routed context is built from the parsed route, and checked only if every origin has an
accepted answer. -/
theorem assemble_ok {info : ByteArray} {ip : IpAddr} {bodies : List (Option ByteArray)}
    {t : Instant} {ctx : IpNetworkContext} (h : assemble env info ip bodies t = .ok ctx) :
    (parseNetworkInfo env info ip = .ok none ∧
      ctx.announced = none ∧ ctx.originAsns = [] ∧ ctx.rpki = .notChecked) ∨
      ∃ net, parseNetworkInfo env info ip = .ok (some (net, ctx.originAsns)) ∧
        ctx.announced = some net ∧
        (ctx.rpki = .notChecked ∨
          bodies.length = ctx.originAsns.length ∧ ∃ states, ctx.rpki = summarize states ∧
            Forall₂ (fun answer state => ∃ bytes, answer.2 = some bytes ∧
              parseRpki env bytes net answer.1 = .ok state)
              (ctx.originAsns.zip bodies) states) := by
  unfold assemble at h
  obtain ⟨route, hroute, h⟩ := bind_ok h
  cases route with
  | none =>
    obtain rfl := Except.ok.inj h
    exact .inl ⟨hroute, rfl, rfl, rfl⟩
  | some route =>
    obtain ⟨net, origins⟩ := route
    refine .inr ⟨net, ?_⟩
    obtain rfl := Except.ok.inj h
    refine ⟨hroute, rfl, ?_⟩
    by_cases hcomplete : ((origins.zip bodies).foldl (addState env net)
        ([], decide (bodies.length = origins.length))).2 = true
    · obtain ⟨hlength, states, hstates, hall⟩ := foldl_addState hcomplete
      refine .inr ⟨of_decide_eq_true hlength, states, ?_, hall⟩
      exact (if_pos hcomplete).trans (congrArg summarize hstates)
    · exact .inl (if_neg hcomplete)

/-- Where every state is one that comes only from a status with `P`, every origin has an
answer with `P`. -/
theorem eachSays_of_states {bodies : List (Option ByteArray)} {P : String → Prop}
    (hlength : bodies.length = origins.length)
    (hall : Forall₂ (fun answer state => ∃ bytes, answer.2 = some bytes ∧
      parseRpki env bytes net answer.1 = .ok state) (origins.zip bodies) states)
    (hP : ∀ state ∈ states, ∀ status, stateOf status = some state → P status) :
    EachSays env net origins bodies P := by
  refine ⟨hlength, fun i asn hasn => ?_⟩
  have hi : i < origins.length := (List.getElem?_eq_some_iff.1 hasn).1
  have hibodies : i < bodies.length := hlength ▸ hi
  have hpair : (origins.zip bodies)[i]? = some (asn, bodies[i]) := by
    rw [getElem?_zip_eq_some]
    exact ⟨hasn, getElem?_eq_getElem hibodies⟩
  have hizip : i < (origins.zip bodies).length := (List.getElem?_eq_some_iff.1 hpair).1
  have histates : i < states.length := hall.length_eq ▸ hizip
  obtain ⟨bytes, hbytes, hparse⟩ := hall.get hizip histates
  have hget : (origins.zip bodies).get ⟨i, hizip⟩ = (asn, bodies[i]) :=
    (List.getElem?_eq_some_iff.1 hpair).2
  rw [hget] at hbytes hparse
  obtain ⟨status, hsays, hstate⟩ := parseRpki_ok.1 hparse
  have hbody : bodies[i]? = some (some bytes) :=
    (getElem?_eq_getElem hibodies).trans (congrArg some hbytes)
  exact ⟨bytes, status, hbody, hsays, hP _ (getElem_mem histates) status hstate⟩

/-- The routing facts of an assembled context are verified: the network and its origins, the
two uniform validities, and no validity without an accepted answer of each origin. -/
theorem assemble_verified {env : Env} {info : ByteArray} {ip : IpAddr}
    {bodies : List (Option ByteArray)} {t : Instant} {ctx : IpNetworkContext}
    (h : assemble env info ip bodies t = .ok ctx) :
    (∀ net, ctx.announced = some net → VerifiedRoute ip net ctx.originAsns) ∧
      (ctx.rpki = .valid → ∃ net, ctx.announced = some net ∧
        EachSays env net ctx.originAsns bodies (· = "valid")) ∧
      (ctx.rpki = .invalid → ∃ net, ctx.announced = some net ∧
        EachSays env net ctx.originAsns bodies (fun s => Text.startsWith s "invalid" = true)) ∧
      (∀ net, ctx.announced = some net →
        ¬ EachSays env net ctx.originAsns bodies Recognised → ctx.rpki = .notChecked) := by
  rcases assemble_ok h with ⟨-, hnone, -, hrpki⟩ | ⟨net, hroute, hnet, hrpki⟩
  · rw [hrpki, hnone]
    refine ⟨fun net hnet => (nomatch hnet), fun hvalid => (nomatch hvalid),
      fun hinvalid => (nomatch hinvalid), fun _ _ _ => rfl⟩
  · refine ⟨fun net' hnet' => ?_, ?_⟩
    · obtain rfl := some.inj (hnet.symm.trans hnet')
      exact parseNetworkInfo_ok hroute
    · rcases hrpki with hrpki | ⟨hlength, states, hrpki, hall⟩
      · rw [hrpki]
        exact ⟨fun hvalid => (nomatch hvalid), fun hinvalid => (nomatch hinvalid), fun _ _ _ => rfl⟩
      · refine ⟨fun hvalid => ⟨net, hnet, eachSays_of_states hlength hall ?_⟩,
          fun hinvalid => ⟨net, hnet, eachSays_of_states hlength hall ?_⟩,
          fun net' hnet' hmissing => ?_⟩
        · intro state hstate status hstatus
          rw [summarize_valid (hrpki.symm.trans hvalid) state hstate] at hstatus
          exact stateOf_valid.1 hstatus
        · intro state hstate status hstatus
          rw [summarize_invalid (hrpki.symm.trans hinvalid) state hstate] at hstatus
          exact stateOf_invalid hstatus
        · obtain rfl := some.inj (hnet.symm.trans hnet')
          refine absurd (eachSays_of_states hlength hall ?_) hmissing
          intro state _ status hstatus
          exact isSome_of_eq_some hstatus

end Proof

/-! ## Three origins -/

/-- A body of the API with the fields of its data. -/
def bodyOf (fields : String) : ByteArray :=
  ("\x7b\"status\":\"ok\",\"status_code\":200,\"data\":\x7b" ++ fields ++ "\x7d\x7d").toUTF8

def networkInfoBody : ByteArray :=
  bodyOf "\"asns\":[\"64500\",1103,\"3333\",\"3333\"],\"prefix\":\"193.0.0.0/21\""

/-- The answer about an origin, which the API writes in one of three ways. -/
def validationBody (resource : String) : ByteArray :=
  bodyOf ("\"prefix\":\"193.0.0.0/21\",\"resource\":" ++ resource ++ ",\"status\":\"valid\"")

def answered (data : List (String × Json)) : Json :=
  Json.ofFields [("status", .string "ok"), ("status_code", .number (.int 200)),
    ("data", Json.ofFields data)]

def validation (resource : Json) : Json :=
  answered [("prefix", .string "193.0.0.0/21"), ("resource", resource),
    ("status", .string "valid")]

def validationBodies : List (Option ByteArray) :=
  [ some (validationBody "\"AS1103\""), some (validationBody "\"3333\"")
  , some (validationBody "64500") ]

/-- The readers at these bodies. -/
def routingEnv : Env where
  fromSlice bytes :=
    if bytes = networkInfoBody then
      .ok (answered [("asns", .array [.string "64500", .number (.int 1103), .string "3333",
        .string "3333"]), ("prefix", .string "193.0.0.0/21")])
    else if bytes = validationBody "\"AS1103\"" then .ok (validation (.string "AS1103"))
    else if bytes = validationBody "\"3333\"" then .ok (validation (.string "3333"))
    else if bytes = validationBody "64500" then .ok (validation (.number (.int 64500)))
    else .error ""
  fromStr _ := .error ""
  utf8Error _ := ""
  parseIpNet := readIpNet

def ripeAddress : IpAddr := .v4 3238002822

def ripeNetwork : IpNet := ⟨.v4 3238002688, 21, by decide⟩

/-- The origins arrive unsorted, one of them twice. -/
def validContext : IpNetworkContext :=
  ⟨some ripeNetwork, [1103, 3333, 64500], .valid, "ripestat", 0⟩

/-- Two answers changed places: neither is about its origin. -/
example : (assemble routingEnv networkInfoBody ripeAddress
    [some (validationBody "\"3333\""), some (validationBody "\"AS1103\""),
      some (validationBody "64500")] 0).map (·.rpki) = .ok .notChecked := by
  decide +kernel

theorem assemble_verified_three_origins :
    assemble routingEnv networkInfoBody ripeAddress validationBodies 0 = .ok validContext ∧
      VerifiedRoute ripeAddress ripeNetwork [1103, 3333, 64500] ∧
      EachSays routingEnv ripeNetwork [1103, 3333, 64500] validationBodies (· = "valid") := by
  have hassemble : assemble routingEnv networkInfoBody ripeAddress validationBodies 0 =
      .ok validContext := by decide +kernel
  obtain ⟨hroute, hvalid, -⟩ := assemble_verified hassemble
  obtain ⟨net, hnet, hsays⟩ := hvalid rfl
  obtain rfl : ripeNetwork = net := some.inj hnet
  exact ⟨hassemble, hroute _ rfl, hsays⟩

end Clawforge.Intelligence

import Clawforge.PolicyEngine.Bridge

/-!
# The acknowledgement of the automatic mode

Whatever the environment, an accepted configuration is within the documented
bounds of each variable. One documented bound is not about a variable alone: the
evidence age against the slowest feed, which the configuration does not see. The
acknowledgement joins its fields with colons: no field of an
accepted configuration contains one, and a number is written in one way, so the
fields can be read back and one text acknowledges one set of parameters.
-/

namespace Clawforge.Bridge

open Clawforge.Text EventDelivery Executions Kit List Option

/-! ## What is accepted -/

/-- The documented bounds, but for the one of `CoversFeeds`. -/
structure BridgeConfig.Bounded (c : BridgeConfig) : Prop where
  block : ∀ a ∈ c.blockAction, a ∈ blockActions
  ratelimit : ∀ a ∈ c.ratelimitAction, a ∈ ratelimitActions
  someAction : c.blockAction ≠ none ∨ c.ratelimitAction ≠ none
  ttl : 1 ≤ c.ttlSeconds ∧ c.ttlSeconds ≤ 86400
  budget : 1 ≤ c.maxPerWindow ∧ c.maxPerWindow ≤ 100
  window : 60 ≤ c.windowSeconds ∧ c.windowSeconds ≤ 86400
  evidenceAge : 1 ≤ c.maxEvidenceAgeSeconds ∧ c.maxEvidenceAgeSeconds ≤ 604800
  confidence : 1 ≤ c.minIntelConfidence ∧ c.minIntelConfidence ≤ 100
  rule : ∀ r ∈ c.ruleId, r ≠ "" ∧ r.utf8ByteSize ≤ 80 ∧ r.toList.all isRuleChar = true
  requester : c.requesterId.isSome = true ↔ c.mode = .propose
  automatic : c.mode = .automatic → c.ruleId.isSome = true ∧ c.requireThreatIntel = true

/-- The refresh intervals of the counting feeds, as `phase_one_providers` sets them. -/
def countingFeeds : List (String × Int) :=
  [("spamhaus_drop", 3600), ("spamhaus_edrop", 3600), ("spamhaus_asn", 3600),
    ("feodo_tracker", 1800)]

/-- The documented lower bound of the evidence age: twice the slowest counting feed's interval. -/
def BridgeConfig.CoversFeeds (c : BridgeConfig) (feeds : List (String × Int)) : Prop :=
  ∀ feed ∈ feeds, 2 * feed.2 ≤ c.maxEvidenceAgeSeconds

instance (c : BridgeConfig) (feeds : List (String × Int)) : Decidable (c.CoversFeeds feeds) :=
  inferInstanceAs (Decidable (∀ feed ∈ feeds, _))

variable {get : Lookup} {name : String}

theorem text_ne_empty {value : String} (h : text get name = some value) : value ≠ "" :=
  of_decide_eq_true (filter_eq_some_iff.mp h).2

theorem number_ok {min max value : Int} (h : number get name min max = .ok value) :
    min ≤ value ∧ value ≤ max := by
  unfold number at h
  split at h
  · cases h
  · split at h
    · cases h
    · split at h
      · next hrange =>
        obtain rfl := Except.ok.inj h
        exact hrange
      · cases h

theorem action_ok {allowed : List String} {a : Option String} (h : action get name allowed = .ok a) :
    ∀ value ∈ a, value ∈ allowed := by
  unfold action at h
  split at h
  · obtain rfl := Except.ok.inj h
    exact fun value hv => absurd hv (not_mem_none _)
  · split at h
    · next hmem =>
      obtain rfl := Except.ok.inj h
      rintro value hv
      obtain rfl := mem_some_iff.mp hv
      exact hmem
    · cases h

theorem ruleIdOf_ok {r : Option String} (h : ruleIdOf (text get Var.ruleId) = .ok r) :
    ∀ rule ∈ r, rule ≠ "" ∧ rule.utf8ByteSize ≤ 80 ∧ rule.toList.all isRuleChar = true := by
  cases hread : text get Var.ruleId with
  | none =>
    rw [hread] at h
    obtain rfl := Except.ok.inj h
    exact fun rule hr => absurd hr (not_mem_none _)
  | some value =>
    rw [hread, ruleIdOf] at h
    split at h
    · next hok =>
      obtain rfl := Except.ok.inj h
      intro rule hr
      obtain rfl := mem_some_iff.mp hr
      exact ⟨text_ne_empty hread, hok⟩
    · cases h

theorem checkRequester_ok {mode : BridgeMode} {requesterId : Option Uuid}
    (h : checkRequester mode requesterId = .ok ()) :
    requesterId.isSome = true ↔ mode = .propose := by
  cases mode <;> cases requesterId <;> simp_all [checkRequester]

theorem checkAutomatic_ok {c : BridgeConfig} {ack : Option String}
    (h : checkAutomatic c ack = .ok ()) :
    c.ruleId.isSome = true ∧ c.requireThreatIntel = true ∧ ack = some c.expectedAck := by
  unfold checkAutomatic at h
  split at h
  · cases h
  · next hrule =>
    split at h
    · cases h
    · next hintel =>
      split at h
      · cases h
      · next hack =>
        exact ⟨by simpa [isSome_iff_ne_none] using hrule, by simpa using hintel,
          not_not.mp hack⟩

/-- An accepted configuration is within its bounds, and in the automatic mode it is
acknowledged. -/
theorem fromLookup_ok {parseUuid : String → Option Uuid} {c : BridgeConfig}
    (h : fromLookup parseUuid get = .ok (some c)) :
    c.Bounded ∧ (c.mode = .automatic → text get Var.automaticAck = some c.expectedAck) := by
  unfold fromLookup at h
  obtain ⟨mode?, -, h⟩ := bind_ok h
  cases mode? with
  | none => cases h
  | some mode =>
    obtain ⟨block, hblock, h⟩ := bind_ok h
    obtain ⟨ratelimit, hratelimit, h⟩ := bind_ok h
    split at h
    · cases h
    · next hsome =>
      obtain ⟨ttl, httl, h⟩ := bind_ok h
      obtain ⟨budget, hbudget, h⟩ := bind_ok h
      obtain ⟨window, hwindow, h⟩ := bind_ok h
      obtain ⟨evidenceAge, hage, h⟩ := bind_ok h
      obtain ⟨confidence, hconfidence, h⟩ := bind_ok h
      obtain ⟨intel, -, h⟩ := bind_ok h
      obtain ⟨rule, hrule, h⟩ := bind_ok h
      obtain ⟨requester, -, h⟩ := bind_ok h
      obtain ⟨⟨⟩, hrequester, h⟩ := bind_ok h
      have hactions : block ≠ none ∨ ratelimit ≠ none := by
        rw [← not_and_or]
        simpa using hsome
      have hbounds : ∀ c : BridgeConfig, c = ⟨mode, block, ratelimit, ttl, requester, rule,
          evidenceAge, confidence, intel, budget, window⟩ →
          (c.mode = .automatic → c.ruleId.isSome = true ∧ c.requireThreatIntel = true) →
          c.Bounded := by
        rintro c rfl hauto
        exact
          { block := action_ok hblock
            ratelimit := action_ok hratelimit
            someAction := hactions
            ttl := number_ok httl
            budget := number_ok hbudget
            window := number_ok hwindow
            evidenceAge := number_ok hage
            confidence := number_ok hconfidence
            rule := ruleIdOf_ok hrule
            requester := checkRequester_ok hrequester
            automatic := hauto }
      split at h
      · obtain ⟨⟨⟩, hcheck, h⟩ := bind_ok h
        obtain ⟨hruleSome, hintel, hack⟩ := checkAutomatic_ok hcheck
        obtain rfl := some.inj (Except.ok.inj h)
        exact ⟨hbounds _ rfl fun _ => ⟨hruleSome, hintel⟩, fun _ => hack⟩
      · next hmode =>
        obtain rfl := some.inj (Except.ok.inj h)
        exact ⟨hbounds _ rfl fun hauto => absurd hauto hmode, fun hauto => absurd hauto hmode⟩

/-! ## The fields of an acknowledgement -/

/-- A positive number as it is written. -/
def digits (n : Int) : List Char := Nat.toDigits 10 n.toNat

theorem toList_toString {n : Int} (h : 1 ≤ n) : (toString n).toList = digits n := by
  obtain ⟨k, rfl⟩ := Int.eq_ofNat_of_zero_le (by omega : 0 ≤ n)
  show (Nat.repr k).toList = _
  rw [Nat.repr, String.toList_ofList]
  rfl

theorem digits_inj {m n : Int} (hm : 1 ≤ m) (hn : 1 ≤ n) (h : digits m = digits n) : m = n := by
  have hvalue := congrArg (numeralValue 10) h
  rw [digits, digits, numeralValue_toDigits (by omega) (by omega),
    numeralValue_toDigits (by omega) (by omega)] at hvalue
  omega

theorem not_mem_digits {c : Char} (hc : isDigitOf 10 c = false) (n : Int) : c ∉ digits n := by
  intro hmem
  rw [isDigitOf_of_mem_toDigits (by omega) (by omega) hmem] at hc
  cases hc

namespace BridgeConfig

/-- What stands between the colons of an acknowledgement. -/
def ackFields (c : BridgeConfig) : List (List Char) :=
  ["unattended".toList, (c.ruleId.getD "-").toList, (c.blockAction.getD "-").toList,
    (c.ratelimitAction.getD "-").toList, digits c.ttlSeconds,
    digits c.maxPerWindow ++ '/' :: digits c.windowSeconds, digits c.maxEvidenceAgeSeconds,
    digits c.minIntelConfidence]

variable {c c' : BridgeConfig}

theorem Bounded.expectedAck_toList (h : c.Bounded) :
    c.expectedAck.toList = List.intercalate [':'] c.ackFields := by
  have hwindow : 1 ≤ c.windowSeconds := le_trans (by omega) h.window.1
  have hhead : "unattended:".toList = "unattended".toList ++ [':'] := by decide_cbv
  have hcolon : ":".toList = [':'] := rfl
  have hslash : "/".toList = ['/'] := rfl
  unfold expectedAck ackFields
  rw [intercalate_cons_cons, intercalate_cons_cons, intercalate_cons_cons,
    intercalate_cons_cons, intercalate_cons_cons, intercalate_cons_cons,
    intercalate_cons_cons, intercalate_singleton]
  simp only [String.toList_append]
  rw [hhead]
  rw [toList_toString h.ttl.1, toList_toString h.budget.1, toList_toString hwindow,
    toList_toString h.evidenceAge.1, toList_toString h.confidence.1]
  rw [hcolon, hslash]
  simp only [append_assoc, cons_append, nil_append]

theorem colon_not_mem_of_isRuleChar {cs : List Char} (h : cs.all isRuleChar = true) : ':' ∉ cs := by
  intro hmem
  have hcolon := List.all_eq_true.mp h _ hmem
  exact absurd hcolon (by decide)

/-- No field of an accepted configuration contains a colon. -/
theorem Bounded.colon_not_mem (h : c.Bounded) : ∀ field ∈ c.ackFields, ':' ∉ field := by
  have hdash : ':' ∉ "-".toList := by decide
  have hcolon : isDigitOf 10 ':' = false := by decide
  have hrule : ':' ∉ (c.ruleId.getD "-").toList := by
    cases hr : c.ruleId with
    | none => exact hdash
    | some rule => exact colon_not_mem_of_isRuleChar (h.rule rule hr).2.2
  have hblock : ':' ∉ (c.blockAction.getD "-").toList := by
    have hall : ∀ a ∈ blockActions, ':' ∉ a.toList := by decide
    cases hb : c.blockAction with
    | none => exact hdash
    | some a => exact hall a (h.block a hb)
  have hratelimit : ':' ∉ (c.ratelimitAction.getD "-").toList := by
    have hall : ∀ a ∈ ratelimitActions, ':' ∉ a.toList := by decide
    cases hr : c.ratelimitAction with
    | none => exact hdash
    | some a => exact hall a (h.ratelimit a hr)
  have hwindow : ':' ∉ digits c.maxPerWindow ++ '/' :: digits c.windowSeconds := by
    simp [not_mem_digits hcolon]
  simp only [ackFields, forall_mem_cons]
  exact ⟨by decide, hrule, hblock, hratelimit, not_mem_digits hcolon _, hwindow,
    not_mem_digits hcolon _, not_mem_digits hcolon _, forall_mem_nil _⟩

/-- An optional name is read back where its mark for none is no name. -/
theorem getD_inj {a b : Option String} (ha : "-" ∉ a) (hb : "-" ∉ b)
    (h : a.getD "-" = b.getD "-") : a = b := by
  cases a <;> cases b <;> simp_all

theorem Bounded.dash_not_mem (h : c.Bounded) :
    "-" ∉ c.ruleId ∧ "-" ∉ c.blockAction ∧ "-" ∉ c.ratelimitAction := by
  refine ⟨fun hr => ?_, fun hb => ?_, fun hr => ?_⟩
  · exact absurd (h.rule _ hr).2.2 (by decide)
  · exact absurd (h.block _ hb) (by decide)
  · exact absurd (h.ratelimit _ hr) (by decide)

/-- The budget and its window are read back around the slash. -/
theorem Bounded.window_inj (h : c.Bounded) (h' : c'.Bounded)
    (heq : digits c.maxPerWindow ++ '/' :: digits c.windowSeconds =
      digits c'.maxPerWindow ++ '/' :: digits c'.windowSeconds) :
    c.maxPerWindow = c'.maxPerWindow ∧ c.windowSeconds = c'.windowSeconds := by
  have hslash : isDigitOf 10 '/' = false := by decide
  have hsplit := congrArg (splitOnce '/') heq
  rw [splitOnce_append (not_mem_digits hslash _), splitOnce_append (not_mem_digits hslash _)]
    at hsplit
  obtain ⟨hbudget, hwindow⟩ := Prod.mk.inj (some.inj hsplit)
  have := h.window
  have := h'.window
  exact ⟨digits_inj h.budget.1 h'.budget.1 hbudget, digits_inj (by omega) (by omega) hwindow⟩

/-- Where the acknowledgements are one text, so are the parameters. -/
theorem Bounded.expectedAck_inj (h : c.Bounded) (h' : c'.Bounded)
    (hc : c.mode = .automatic) (hc' : c'.mode = .automatic)
    (heq : c.expectedAck = c'.expectedAck) : c = c' := by
  have hfields : c.ackFields = c'.ackFields := by
    have hjoined := congrArg String.toList heq
    rw [h.expectedAck_toList, h'.expectedAck_toList] at hjoined
    have hsplit := congrArg (List.splitOn ':') hjoined
    rwa [splitOn_intercalate ':' h.colon_not_mem (cons_ne_nil _ _),
      splitOn_intercalate ':' h'.colon_not_mem (cons_ne_nil _ _)] at hsplit
  simp only [ackFields, List.cons.injEq, true_and, and_true, String.toList_inj] at hfields
  obtain ⟨hrule, hblock, hratelimit, httl, hwindow, hage, hconfidence⟩ := hfields
  obtain ⟨hdashRule, hdashBlock, hdashRatelimit⟩ := h.dash_not_mem
  obtain ⟨hdashRule', hdashBlock', hdashRatelimit'⟩ := h'.dash_not_mem
  obtain ⟨hbudget, hwindow⟩ := h.window_inj h' hwindow
  -- neither has a requester, and both require threat intelligence
  have hrequester : c.requesterId = none ∧ c'.requesterId = none := by
    have := h.requester
    have := h'.requester
    simp_all
  have hintel : c.requireThreatIntel = true ∧ c'.requireThreatIntel = true :=
    ⟨(h.automatic hc).2, (h'.automatic hc').2⟩
  have hrule := getD_inj hdashRule hdashRule' hrule
  have hblock := getD_inj hdashBlock hdashBlock' hblock
  have hratelimit := getD_inj hdashRatelimit hdashRatelimit' hratelimit
  have httl := digits_inj h.ttl.1 h'.ttl.1 httl
  have hage := digits_inj h.evidenceAge.1 h'.evidenceAge.1 hage
  have hconfidence := digits_inj h.confidence.1 h'.confidence.1 hconfidence
  cases c
  cases c'
  simp_all

end BridgeConfig

/-! ## One acknowledgement, one set of parameters -/

/-- Two environments that are accepted in the automatic mode with one acknowledgement configure
the same parameters, and whatever is accepted is within the documented bounds of the variables. -/
theorem ack_binds_parameters (parseUuid : String → Option Uuid) :
    (∀ get get' c c', fromLookup parseUuid get = .ok (some c) →
      fromLookup parseUuid get' = .ok (some c') → c.mode = .automatic → c'.mode = .automatic →
      text get Var.automaticAck = text get' Var.automaticAck → c = c') ∧
    ∀ get c, fromLookup parseUuid get = .ok (some c) → c.Bounded := by
  refine ⟨fun get get' c c' h h' hc hc' hack => ?_, fun get c h => (fromLookup_ok h).1⟩
  obtain ⟨hbounded, hread⟩ := fromLookup_ok h
  obtain ⟨hbounded', hread'⟩ := fromLookup_ok h'
  rw [hread hc, hread' hc'] at hack
  exact hbounded.expectedAck_inj hbounded' hc hc' (some.inj hack)

/-- An environment for the automatic mode; the number may be written with a sign. -/
def reviewedLookup (ttl : String) : Lookup := fun name =>
  if name = Var.mode then some "automatic"
  else if name = Var.blockAction then some "nftables.block_incident_source"
  else if name = Var.ttlSeconds then some ttl
  else if name = Var.maxPerWindow then some "1"
  else if name = Var.windowSeconds then some "300"
  else if name = Var.maxEvidenceAgeSeconds then some "900"
  else if name = Var.minIntelConfidence then some "70"
  else if name = Var.ruleId then some "ssh_bruteforce"
  else if name = Var.automaticAck then
    some "unattended:ssh_bruteforce:nftables.block_incident_source:-:60:1/300:900:70"
  else none

def reviewedConfig : BridgeConfig :=
  { mode := .automatic
    blockAction := some "nftables.block_incident_source"
    ratelimitAction := none
    ttlSeconds := 60
    requesterId := none
    ruleId := some "ssh_bruteforce"
    maxEvidenceAgeSeconds := 900
    minIntelConfidence := 70
    requireThreatIntel := true
    maxPerWindow := 1
    windowSeconds := 300 }

theorem reviewed_accepted :
    fromLookup (fun _ => none) (reviewedLookup "60") = .ok (some reviewedConfig) := by
  decide +kernel

theorem ack_binds_parameters_reviewed :
    fromLookup (fun _ => none) (reviewedLookup "60") = .ok (some reviewedConfig) ∧
      ∀ c, fromLookup (fun _ => none) (reviewedLookup "+60") = .ok (some c) →
        c.mode = .automatic → reviewedConfig = c := by
  refine ⟨reviewed_accepted, fun c hc hmode => ?_⟩
  exact (ack_binds_parameters fun _ => none).1 _ _ _ _ reviewed_accepted hc rfl hmode
    (by decide_cbv)

/-- An evidence age of 900 seconds is accepted in the automatic mode, hourly feeds or not. -/
theorem short_age_accepted :
    fromLookup (fun _ => none) (reviewedLookup "60") = .ok (some reviewedConfig) ∧
      reviewedConfig.mode = .automatic ∧ ¬ reviewedConfig.CoversFeeds countingFeeds :=
  ⟨reviewed_accepted, rfl, by decide⟩

end Clawforge.Bridge

import Clawforge.Kit.Fallible
import Clawforge.Storage.Pseudonym
import Mathlib

/-!
# What the sanitizer leaves as it is

`sanitize_analysis_value` hashes whatever text stands under an address key,
whether or not it already is a pseudonym, and replaces anything else there. So a
second pass changes exactly the values under the address keys:

* a value passes the sanitizer unchanged exactly if it is `Clean`
  (`sanitize_eq_self_iff`);
* a sanitized value is clean exactly if its address keys hold texts the keyed
  hash maps to themselves (`sanitized_stable_iff`).
-/

namespace Clawforge.Pseudonym

open Clawforge.Net Clawforge.SecurityEvents Kit List

/-! ## Pseudonyms as texts -/

theorem isIp_ipPseudonym (env : Env) (key ip : String) :
    isIp (ipPseudonym env key ip) = false := by
  have hno : ∀ cs : List Char, parseIpAddr ('i' :: cs) = none := by
    intro cs
    have hdec : NumeralEnds 10 ('i' :: cs) := numeralEnds_cons (by decide)
    have hhex : NumeralEnds 16 ('i' :: cs) := numeralEnds_cons (by decide)
    have h4 : readIpv4Addr ('i' :: cs) = none := readIpv4Addr_eq_none hdec
    have hgroups : readGroups 8 0 ('i' :: cs) = (⟨[], false⟩, 'i' :: cs) := by
      simp [readGroups, readSeparator, h4, readNumber_eq_none hhex]
    have h6 : readIpv6Addr ('i' :: cs) = none := by
      simp [readIpv6Addr, hgroups, readGivenChar]
    simp [parseIpAddr, readIpAddr, h4, h6]
  unfold isIp ipPseudonym pseudonymHead
  rw [String.toList_ofList]
  exact congrArg Option.isSome (hno _)

theorem ipPseudonym_ne_redacted (env : Env) (key ip : String) :
    ipPseudonym env key ip ≠ "<redacted>" := by
  intro h
  have hchars := congrArg String.toList h
  unfold ipPseudonym pseudonymHead at hchars
  rw [String.toList_ofList] at hchars
  exact absurd (cons.inj hchars).1 (by decide)

/-! ## Clean values -/

/-- A text the keyed hash maps to itself. -/
def Fixed (env : Env) (s : String) : Prop := pseudonymizeIp env s = .ok s

/-- What an address key must hold to be left alone. -/
def FixedAddress (env : Env) (v : Json) : Prop := ∃ s, v = .string s ∧ Fixed env s

mutual

/-- The sanitizer finds nothing to drop or replace. -/
def Clean (env : Env) : Json → Option String → Prop
  | .object values, _ => CleanFields env values
  | .array values, key => CleanItems env values key
  | .string s, key =>
    (env.anonymizeIps && resourceKey key && isIp s) = true → Fixed env s
  | .null, _ | .bool _, _ | .number _, _ => True

def CleanFields (env : Env) : List (String × Json) → Prop
  | [] => True
  | (name, value) :: rest =>
    sensitiveAnalysisKey name = false ∧
      ((env.anonymizeIps && ipAnalysisKey name) = true → FixedAddress env value) ∧
      ((env.anonymizeIps && ipAnalysisKey name) = false → Clean env value (some name)) ∧
      CleanFields env rest

def CleanItems (env : Env) : List Json → Option String → Prop
  | [], _ => True
  | value :: rest, key => Clean env value key ∧ CleanItems env rest key

end

variable {env : Env} {fields : List (String × Json)}

/-- An address key is left alone exactly if it holds a fixed text. -/
theorem redactAddress_eq_self_iff {v : Json} :
    redactAddress env v = .ok v ↔ FixedAddress env v := by
  unfold FixedAddress
  cases v with
  | string s =>
    have hinj : Function.Injective Json.string := fun _ _ => Json.string.inj
    rw [redactAddress, except_map_eq_ok_iff hinj]
    simp [Fixed]
  | _ => simp [redactAddress, redacted]

/-- The sanitizer adds no field. -/
theorem sanitizeFields_length {out : List (String × Json)} (h : sanitizeFields env fields = .ok out) :
    out.length ≤ fields.length := by
  induction fields generalizing out with
  | nil =>
    cases h
    exact le_rfl
  | cons f rest ih =>
    obtain ⟨name, value⟩ := f
    rw [sanitizeFields] at h
    split at h
    · exact le_trans (ih h) (Nat.le_succ _)
    · obtain ⟨value', _, h⟩ := bind_ok h
      obtain ⟨rest', hrest, rfl⟩ := except_map_ok h
      exact Nat.succ_le_succ (ih hrest)

theorem sanitizeFields_cons_eq_self_iff {name : String} {value : Json} {rest : List (String × Json)} :
    sanitizeFields env ((name, value) :: rest) = .ok ((name, value) :: rest) ↔
      sensitiveAnalysisKey name = false ∧
        (if env.anonymizeIps && ipAnalysisKey name then redactAddress env value
          else sanitizeAnalysisValue env value (some name)) = .ok value ∧
        sanitizeFields env rest = .ok rest := by
  rw [sanitizeFields]
  cases hs : sensitiveAnalysisKey name with
  | true =>
    -- a dropped field leaves fewer fields than there were
    simp only [if_true, Bool.true_eq_false, false_and, iff_false]
    intro h
    have := sanitizeFields_length h
    rw [length_cons] at this
    omega
  | false =>
    simp only [Bool.false_eq_true, if_false, true_and]
    constructor
    · intro h
      obtain ⟨value', hvalue, h⟩ := bind_ok h
      obtain ⟨rest', hrest, heq⟩ := except_map_ok h
      cases heq
      exact ⟨hvalue, hrest⟩
    · rintro ⟨hvalue, hrest⟩
      rw [hvalue, hrest]
      rfl

mutual

/-- The sanitizer leaves exactly the clean values as they are. -/
theorem sanitize_eq_self_iff (env : Env) : ∀ (v : Json) (key : Option String),
    sanitizeAnalysisValue env v key = .ok v ↔ Clean env v key
  | .object values, key => by
      have hinj : Function.Injective Json.object := fun _ _ => Json.object.inj
      rw [sanitizeAnalysisValue, except_map_eq_ok_iff hinj]
      exact sanitizeFields_eq_self_iff env values
  | .array values, key => by
      have hinj : Function.Injective Json.array := fun _ _ => Json.array.inj
      rw [sanitizeAnalysisValue, except_map_eq_ok_iff hinj]
      exact sanitizeItems_eq_self_iff env values key
  | .string s, key => by
      have hinj : Function.Injective Json.string := fun _ _ => Json.string.inj
      rw [sanitizeAnalysisValue, Clean]
      split
      · rw [except_map_eq_ok_iff hinj]
        simp_all [Fixed]
      · simp_all
  | .null, _ | .bool _, _ | .number _, _ => by simp [sanitizeAnalysisValue, Clean]

theorem sanitizeFields_eq_self_iff (env : Env) : ∀ fields : List (String × Json),
    sanitizeFields env fields = .ok fields ↔ CleanFields env fields
  | [] => by simp [sanitizeFields, CleanFields]
  | (name, value) :: rest => by
      have hvalue := sanitize_eq_self_iff env value (some name)
      have hrest := sanitizeFields_eq_self_iff env rest
      rw [sanitizeFields_cons_eq_self_iff, CleanFields, hrest]
      cases env.anonymizeIps && ipAnalysisKey name with
      | true => simp [redactAddress_eq_self_iff]
      | false => simp [hvalue]

theorem sanitizeItems_eq_self_iff (env : Env) : ∀ (items : List Json) (key : Option String),
    sanitizeItems env items key = .ok items ↔ CleanItems env items key
  | [], _ => by simp [sanitizeItems, CleanItems]
  | value :: rest, key => by
      have hvalue := sanitize_eq_self_iff env value key
      have hrest := sanitizeItems_eq_self_iff env rest key
      rw [sanitizeItems, CleanItems, ← hvalue, ← hrest]
      constructor
      · intro h
        obtain ⟨value', hv, h⟩ := bind_ok h
        obtain ⟨rest', hr, h⟩ := bind_ok h
        cases h
        exact ⟨hv, hr⟩
      · rintro ⟨hv, hr⟩
        rw [hv, hr]
        rfl

end

/-! ## A second pass -/

mutual

/-- The values under the address keys, in the part of a value that is kept. -/
def addressFields : Json → List Json
  | .object values => fieldsAddresses values
  | .array values => itemsAddresses values
  | .null | .bool _ | .number _ | .string _ => []

def fieldsAddresses : List (String × Json) → List Json
  | [] => []
  | (name, value) :: rest =>
    if sensitiveAnalysisKey name then fieldsAddresses rest
    else (if ipAnalysisKey name then [value] else addressFields value) ++
      fieldsAddresses rest

def itemsAddresses : List Json → List Json
  | [] => []
  | value :: rest => addressFields value ++ itemsAddresses rest

end

/-- The value is a text whose pseudonym is its own pseudonym. -/
def SettledAddress (env : Env) (v : Json) : Prop :=
  ∃ s p, v = .string s ∧ pseudonymizeIp env s = .ok p ∧ Fixed env p

theorem pseudonymizeIp_ok {s p : String} (h : pseudonymizeIp env s = .ok p) :
    ∃ key, p = ipPseudonym env key s := by
  unfold pseudonymizeIp at h
  split at h
  · cases h
  · rename_i key _
    exact ⟨key, (Except.ok.inj h).symm⟩
  · cases h

theorem not_fixed_redacted (env : Env) : ¬ Fixed env "<redacted>" := by
  intro h
  obtain ⟨key, hkey⟩ := pseudonymizeIp_ok h
  exact ipPseudonym_ne_redacted env key _ hkey.symm

/-- What an address key holds after one pass is fixed exactly if it held a text
with a settled pseudonym. -/
theorem fixedAddress_redacted_iff {v w : Json} (h : redactAddress env v = .ok w) :
    FixedAddress env w ↔ SettledAddress env v := by
  cases v with
  | string s =>
    obtain ⟨p, hp, rfl⟩ := except_map_ok h
    constructor
    · rintro ⟨t, ht, hfix⟩
      cases ht
      exact ⟨s, p, rfl, hp, hfix⟩
    · rintro ⟨s', p', hs, hp', hfix⟩
      cases hs
      rw [hp] at hp'
      cases hp'
      exact ⟨p, rfl, hfix⟩
  | _ =>
    cases h
    constructor
    · rintro ⟨t, ht, hfix⟩
      cases ht
      exact absurd hfix (not_fixed_redacted env)
    · rintro ⟨s, p, hs, _⟩
      cases hs

mutual

/-- A sanitized value is clean exactly if every kept address key of the value it
was made from held a text with a settled pseudonym. -/
theorem sanitized_clean_iff (env : Env) : ∀ (v : Json) (key : Option String) {w : Json},
    sanitizeAnalysisValue env v key = .ok w →
      (Clean env w key ↔
        (env.anonymizeIps = true → ∀ a ∈ addressFields v, SettledAddress env a))
  | .object values, key, w, h => by
      obtain ⟨fields, hfields, rfl⟩ := except_map_ok h
      exact sanitizedFields_clean_iff env values hfields
  | .array values, key, w, h => by
      obtain ⟨items, hitems, rfl⟩ := except_map_ok h
      exact sanitizedItems_clean_iff env values key hitems
  | .string s, key, w, h => by
      have hclean : Clean env w key := by
        rw [sanitizeAnalysisValue] at h
        split at h
        · obtain ⟨p, hp, rfl⟩ := except_map_ok h
          obtain ⟨k, rfl⟩ := pseudonymizeIp_ok hp
          -- a pseudonym is no address, so the second pass does not look at it
          simp [Clean, isIp_ipPseudonym]
        · rename_i hnot
          cases h
          exact fun hyes => absurd hyes hnot
      simp [hclean, addressFields]
  | .null, _, w, h | .bool _, _, w, h | .number _, _, w, h => by
      cases h
      simp [Clean, addressFields]

theorem sanitizedFields_clean_iff (env : Env) :
    ∀ (fields : List (String × Json)) {out : List (String × Json)},
      sanitizeFields env fields = .ok out →
        (CleanFields env out ↔
          (env.anonymizeIps = true → ∀ a ∈ fieldsAddresses fields, SettledAddress env a))
  | [], out, h => by
      cases h
      simp [CleanFields, fieldsAddresses]
  | (name, value) :: rest, out, h => by
      rw [sanitizeFields] at h
      rw [fieldsAddresses]
      cases hs : sensitiveAnalysisKey name with
      | true =>
        rw [hs, if_pos rfl] at h
        rw [if_pos rfl]
        exact sanitizedFields_clean_iff env rest h
      | false =>
        rw [hs, if_neg Bool.false_ne_true] at h
        obtain ⟨value', hvalue, h⟩ := bind_ok h
        obtain ⟨rest', hrest, rfl⟩ := except_map_ok h
        have hrestIff := sanitizedFields_clean_iff env rest hrest
        rw [CleanFields, hrestIff, if_neg Bool.false_ne_true]
        cases hip : env.anonymizeIps && ipAnalysisKey name with
        | true =>
          rw [hip, if_pos rfl] at hvalue
          obtain ⟨hanon, hname⟩ := Bool.and_eq_true_iff.1 hip
          simp [hs, hanon, hname, fixedAddress_redacted_iff hvalue]
        | false =>
          rw [hip, if_neg Bool.false_ne_true] at hvalue
          have hvalueIff := sanitized_clean_iff env value (some name) hvalue
          cases hanon : env.anonymizeIps with
          | false => simp [hs, hanon, hvalueIff]
          | true =>
            have hname : ipAnalysisKey name = false := by simpa [hanon] using hip
            simp [hs, hanon, hname, hvalueIff, or_imp, forall_and]

theorem sanitizedItems_clean_iff (env : Env) :
    ∀ (items : List Json) (key : Option String) {out : List Json},
      sanitizeItems env items key = .ok out →
        (CleanItems env out key ↔
          (env.anonymizeIps = true → ∀ a ∈ itemsAddresses items, SettledAddress env a))
  | [], _, out, h => by
      cases h
      simp [CleanItems, itemsAddresses]
  | value :: rest, key, out, h => by
      obtain ⟨value', hvalue, h⟩ := bind_ok h
      obtain ⟨rest', hrest, h⟩ := bind_ok h
      cases h
      have hvalueIff := sanitized_clean_iff env value key hvalue
      have hrestIff := sanitizedItems_clean_iff env rest key hrest
      rw [CleanItems, hvalueIff, hrestIff, itemsAddresses]
      simp only [mem_append, or_imp, forall_and]

end

/-! ## Evidence -/

/-- A value with nothing inside it. -/
def isScalar : Json → Bool
  | .object _ | .array _ => false
  | .null | .bool _ | .number _ | .string _ => true

theorem clean_of_scalar (env : Env) {v : Json} (hv : isScalar v = true)
    {key : Option String} (hkey : resourceKey key = false) : Clean env v key := by
  cases v with
  | object | array => cases hv
  | string s => simp [Clean, hkey]
  | null | bool | number => trivial

theorem addressFields_of_scalar {v : Json} (hv : isScalar v = true) :
    addressFields v = [] := by
  cases v with
  | object | array => cases hv
  | _ => rfl

/-- A field the sanitizer touches at most because its key is an address key. -/
def PlainField (f : String × Json) : Prop :=
  isScalar f.2 = true ∧ sensitiveAnalysisKey f.1 = false ∧
    (ipAnalysisKey f.1 = false → resourceKey (some f.1) = false)

theorem cleanFields_of_plain (h : ∀ f ∈ fields, PlainField f) :
    CleanFields env fields ↔
      (env.anonymizeIps = true → ∀ a ∈ fieldsAddresses fields, FixedAddress env a) := by
  induction fields with
  | nil => simp [CleanFields, fieldsAddresses]
  | cons f rest ih =>
    obtain ⟨name, value⟩ := f
    obtain ⟨hscalar, hs, hres⟩ := h (name, value) mem_cons_self
    have hrest := ih (fun f hf => h f (mem_cons_of_mem _ hf))
    rw [CleanFields, fieldsAddresses, hrest, hs, if_neg Bool.false_ne_true]
    cases hname : ipAnalysisKey name with
    | true =>
      cases hanon : env.anonymizeIps with
      | true => simp
      | false =>
        have hresource : resourceKey (some name) = true := by
          simp [resourceKey, hname]
        have hclean : Clean env value (some name) := by
          cases value with
          | object | array => cases hscalar
          | string s => simp [Clean, hanon]
          | null | bool | number => trivial
        simp [hclean]
    | false =>
      have hclean := clean_of_scalar env hscalar (hres hname)
      have hnone := addressFields_of_scalar hscalar
      simp [hclean, hnone]

theorem mem_insertField {key : String} {value : Json} {f : String × Json}
    (h : f ∈ Json.insertField key value fields) : f = (key, value) ∨ f ∈ fields := by
  induction fields with
  | nil => exact .inl (mem_singleton.1 h)
  | cons g rest ih =>
    obtain ⟨k, v⟩ := g
    rw [Json.insertField] at h
    split at h
    · exact mem_cons.1 h
    · split at h
      · rcases mem_cons.1 h with h | h
        · exact .inl h
        · exact .inr (mem_cons_of_mem _ h)
      · rcases mem_cons.1 h with h | h
        · exact .inr (h ▸ mem_cons_self)
        · rcases ih h with h | h
          · exact .inl h
          · exact .inr (mem_cons_of_mem _ h)

theorem mem_foldl_insertField {acc : List (String × Json)} {f : String × Json}
    (h : f ∈ fields.foldl (fun acc f => Json.insertField f.1 f.2 acc) acc) :
    f ∈ fields ∨ f ∈ acc := by
  induction fields generalizing acc with
  | nil => exact .inr h
  | cons g rest ih =>
    rcases ih h with h | h
    · exact .inl (mem_cons_of_mem _ h)
    · rcases mem_insertField h with rfl | h
      · exact .inl mem_cons_self
      · exact .inr h

/-- The keys of evidence. -/
def evidenceKeys : List String :=
  [ "event_type", "source_ip", "destination_ip", "source_port", "destination_port",
    "protocol", "engine", "signature_id", "generator_id", "signature_revision",
    "native_severity", "observed_action", "flow_id", "rule_id", "interface", "actor",
    "change", "summary", "username", "method", "attempt_count", "anomaly",
    "previous_source_ip", "invalid_user", "path", "status_code", "query_name",
    "query_type", "target_ip", "port_count", "window_seconds", "container_id", "image",
    "technique", "container_name", "action", "detail" ]

theorem evidenceKeys_open : ∀ k ∈ evidenceKeys, sensitiveAnalysisKey k = false := by
  decide_cbv

theorem evidenceKeys_named :
    ∀ k ∈ evidenceKeys, ipAnalysisKey k = false → resourceKey (some k) = false := by
  intro k hk hip
  have hresource : k ≠ "resource" := by
    rintro rfl
    simp [evidenceKeys] at hk
  have hcorrelation : k ≠ "correlation_key" := by
    rintro rfl
    simp [evidenceKeys] at hk
  simp [resourceKey, hresource, hcorrelation, hip]

theorem evidenceKeys_plain : ∀ k ∈ evidenceKeys, sensitiveAnalysisKey k = false ∧
    (ipAnalysisKey k = false → resourceKey (some k) = false) :=
  fun k hk => ⟨evidenceKeys_open k hk, evidenceKeys_named k hk⟩

@[simp] theorem isScalar_string (s : String) : isScalar (.string s) = true := rfl

@[simp] theorem isScalar_bool (b : Bool) : isScalar (.bool b) = true := rfl

@[simp] theorem isScalar_jsonNat (n : Nat) : isScalar (jsonNat n) = true := rfl

@[simp] theorem isScalar_jsonStr? (s : Option String) : isScalar (jsonStr? s) = true := by
  cases s <;> rfl

@[simp] theorem isScalar_jsonNat? (n : Option Nat) : isScalar (jsonNat? n) = true := by
  cases n <;> rfl

theorem evidence_fields (e : SecurityEventEvidence) :
    ∀ f ∈ e.fields, f.1 ∈ evidenceKeys ∧ isScalar f.2 = true := by
  cases e with
  | sshLoginFailure e =>
    cases hu : e.invalidUser <;>
      simp [SecurityEventEvidence.fields, evidenceKeys, hu]
  | _ => simp [SecurityEventEvidence.fields, evidenceKeys]

theorem evidence_plain (e : SecurityEventEvidence) (h : e.toJson = .object fields) :
    ∀ f ∈ fields, PlainField f := by
  intro f hf
  have hmem : f ∈ ("event_type", Json.string e.eventType) :: e.fields := by
    cases h
    rcases mem_foldl_insertField hf with h | h
    · exact h
    · cases h
  rcases mem_cons.1 hmem with rfl | hmem
  · exact ⟨rfl, evidenceKeys_plain _ mem_cons_self⟩
  · obtain ⟨hkey, hscalar⟩ := evidence_fields e f hmem
    exact ⟨hscalar, evidenceKeys_plain _ hkey⟩

/-- Evidence passes the sanitizer unchanged exactly if its address keys hold
fixed texts. -/
theorem evidence_unchanged_iff (env : Env) (e : SecurityEventEvidence) :
    sanitizeAnalysisValue env e.toJson none = .ok e.toJson ↔
      (env.anonymizeIps = true → ∀ a ∈ addressFields e.toJson, FixedAddress env a) := by
  rw [sanitize_eq_self_iff]
  exact cleanFields_of_plain (evidence_plain e rfl)

/-- What the sanitizer leaves under an address key. -/
theorem lookup_sanitized {name : String} {a : Json} (hs : sensitiveAnalysisKey name = false)
    (hip : (env.anonymizeIps && ipAnalysisKey name) = true) {out : List (String × Json)}
    (hget : fields.lookup name = some a) (h : sanitizeFields env fields = .ok out) :
    ∃ b, redactAddress env a = .ok b ∧ out.lookup name = some b := by
  induction fields generalizing out with
  | nil => cases hget
  | cons f rest ih =>
    obtain ⟨k, value⟩ := f
    rw [sanitizeFields] at h
    rw [lookup_cons] at hget
    by_cases hk : name = k
    · subst hk
      rw [beq_self_eq_true] at hget
      cases hget
      rw [hs, if_neg Bool.false_ne_true] at h
      obtain ⟨b, hb, h⟩ := bind_ok h
      obtain ⟨rest', _, rfl⟩ := except_map_ok h
      rw [hip, if_pos rfl] at hb
      exact ⟨b, hb, by rw [lookup_cons, beq_self_eq_true]⟩
    · rw [beq_eq_false_iff_ne.2 hk] at hget
      split at h
      · exact ih hget h
      · obtain ⟨value', _, h⟩ := bind_ok h
        obtain ⟨rest', hrest, rfl⟩ := except_map_ok h
        rw [lookup_cons, beq_eq_false_iff_ne.2 hk]
        exact ih hget hrest

/-! ## What is refused -/

/-- Every address text has a pseudonym, where they are replaced. -/
def HasPseudonyms (env : Env) : Prop :=
  env.anonymizeIps = true → ∀ s, ∃ p, pseudonymizeIp env s = .ok p

theorem redactAddress_isOk (hkey : HasPseudonyms env) (hanon : env.anonymizeIps = true) (v : Json) :
    ∃ w, redactAddress env v = .ok w := by
  cases v with
  | string s =>
    obtain ⟨p, hp⟩ := hkey hanon s
    exact ⟨.string p, by rw [redactAddress, hp]; rfl⟩
  | _ => exact ⟨redacted, rfl⟩

mutual

/-- Then the sanitizer refuses nothing. -/
theorem sanitize_isOk {env : Env} (hkey : HasPseudonyms env) : ∀ (v : Json) (k : Option String),
    ∃ w, sanitizeAnalysisValue env v k = .ok w
  | .object values, _ => by
      obtain ⟨out, hout⟩ := sanitizeFields_isOk hkey values
      exact ⟨.object out, by rw [sanitizeAnalysisValue, hout]; rfl⟩
  | .array values, k => by
      obtain ⟨out, hout⟩ := sanitizeItems_isOk hkey values k
      exact ⟨.array out, by rw [sanitizeAnalysisValue, hout]; rfl⟩
  | .string s, k => by
      rw [sanitizeAnalysisValue]
      split
      · rename_i hcond
        simp only [Bool.and_eq_true] at hcond
        obtain ⟨p, hp⟩ := hkey hcond.1.1 s
        exact ⟨.string p, by rw [hp]; rfl⟩
      · exact ⟨_, rfl⟩
  | .null, _ | .bool _, _ | .number _, _ => ⟨_, rfl⟩

theorem sanitizeFields_isOk {env : Env} (hkey : HasPseudonyms env) :
    ∀ fields : List (String × Json), ∃ out, sanitizeFields env fields = .ok out
  | [] => ⟨[], rfl⟩
  | (name, value) :: rest => by
      obtain ⟨out, hout⟩ := sanitizeFields_isOk hkey rest
      rw [sanitizeFields]
      split
      · exact ⟨out, hout⟩
      · rw [hout]
        split
        · rename_i hcond
          simp only [Bool.and_eq_true] at hcond
          obtain ⟨w, hw⟩ := redactAddress_isOk hkey hcond.1 value
          rw [hw]
          exact ⟨_, rfl⟩
        · obtain ⟨w, hw⟩ := sanitize_isOk hkey value (some name)
          rw [hw]
          exact ⟨_, rfl⟩

theorem sanitizeItems_isOk {env : Env} (hkey : HasPseudonyms env) :
    ∀ (items : List Json) (k : Option String), ∃ out, sanitizeItems env items k = .ok out
  | [], _ => ⟨[], rfl⟩
  | value :: rest, k => by
      obtain ⟨w, hw⟩ := sanitize_isOk hkey value k
      obtain ⟨out, hout⟩ := sanitizeItems_isOk hkey rest k
      rw [sanitizeItems, hw, hout]
      exact ⟨_, rfl⟩

end

/-! ## Idempotence -/

/-- The environment of a deployment that has its key configured. -/
def keyed (hmac : String → String → List UInt8) (anonymizeIps : Bool) (key : String) : Env where
  anonymizeIps
  pseudonymKey := .ok (some key)
  hmacSha256 := hmac

/-- A second pass of the sanitizer changes nothing. -/
def Idempotent (env : Env) (v : Json) : Prop :=
  ∀ key w, sanitizeAnalysisValue env v key = .ok w → sanitizeAnalysisValue env w key = .ok w

/-- Timeline metadata is listed as it was stored. -/
def ReadsBack (env : Env) (metadata : Json) : Prop :=
  ∀ stored, recordedMetadata env metadata = .ok stored →
    listedMetadata env stored = .ok stored

section Keyed

variable {hmac : String → String → List UInt8} {anonymizeIps : Bool} {key : String}

theorem pseudonymizeIp_keyed (s : String) :
    pseudonymizeIp (keyed hmac anonymizeIps key) s =
      .ok (ipPseudonym (keyed hmac anonymizeIps key) key s) := rfl

theorem fixed_keyed_iff {s : String} :
    Fixed (keyed hmac anonymizeIps key) s ↔
      ipPseudonym (keyed hmac anonymizeIps key) key s = s := by
  rw [Fixed, pseudonymizeIp_keyed]
  exact ⟨Except.ok.inj, congrArg Except.ok⟩

theorem settledAddress_keyed_iff {a : Json} :
    SettledAddress (keyed hmac anonymizeIps key) a ↔
      ∃ s, a = .string s ∧
        ipPseudonym (keyed hmac anonymizeIps key) key
            (ipPseudonym (keyed hmac anonymizeIps key) key s) =
          ipPseudonym (keyed hmac anonymizeIps key) key s := by
  constructor
  · rintro ⟨s, p, rfl, hp, hfix⟩
    rw [pseudonymizeIp_keyed] at hp
    cases hp
    exact ⟨s, rfl, fixed_keyed_iff.1 hfix⟩
  · rintro ⟨s, rfl, heq⟩
    exact ⟨s, _, rfl, pseudonymizeIp_keyed s, fixed_keyed_iff.2 heq⟩

theorem sanitize_keyed_isOk (v : Json) (k : Option String) :
    ∃ w, sanitizeAnalysisValue (keyed hmac anonymizeIps key) v k = .ok w :=
  sanitize_isOk (fun _ s => ⟨_, pseudonymizeIp_keyed s⟩) v k

/-- A second pass changes nothing exactly if every kept address key held a text
whose pseudonym is its own pseudonym. -/
theorem sanitized_stable_iff (v : Json) (k : Option String) :
    (∀ w, sanitizeAnalysisValue (keyed hmac anonymizeIps key) v k = .ok w →
        sanitizeAnalysisValue (keyed hmac anonymizeIps key) w k = .ok w) ↔
      (anonymizeIps = true → ∀ a ∈ addressFields v, ∃ s, a = .string s ∧
        ipPseudonym (keyed hmac anonymizeIps key) key
            (ipPseudonym (keyed hmac anonymizeIps key) key s) =
          ipPseudonym (keyed hmac anonymizeIps key) key s) := by
  have hok : ∃ w, sanitizeAnalysisValue (keyed hmac anonymizeIps key) v k = .ok w :=
    sanitize_keyed_isOk v k
  obtain ⟨w, hw⟩ := hok
  have hclean := sanitized_clean_iff _ v k hw
  simp only [settledAddress_keyed_iff] at hclean
  rw [← sanitize_eq_self_iff] at hclean
  refine Iff.trans ⟨fun h => h w hw, fun h w' hw' => ?_⟩ hclean
  rw [hw] at hw'
  cases hw'
  exact h

/-- The correlation id of an event and its published source address agree exactly
if the keyed hash maps the pseudonym to itself. -/
theorem published_source_iff {v payload : Json} {c : String}
    (hget : v.get "source_ip" = some (.string c))
    (h : sanitizeAnalysisValue (keyed hmac true key) v none = .ok payload) :
    payload.get "source_ip" = some (.string c) ↔
      ipPseudonym (keyed hmac true key) key c = c := by
  cases v with
  | object fields =>
    obtain ⟨out, hout, rfl⟩ := except_map_ok h
    have hip : (true && ipAnalysisKey "source_ip") = true := by decide
    obtain ⟨b, hb, hlookup⟩ := lookup_sanitized (by decide) hip hget hout
    cases hb
    show out.lookup "source_ip" = _ ↔ _
    rw [hlookup]
    simp
  | _ => cases hget

end Keyed

/-- The sanitizer is idempotent on a value, and the value reads back as stored,
exactly if each of its kept address keys holds a text whose pseudonym is its own
pseudonym; pseudonymized evidence is published unchanged, and its source address
still is the event's correlation id, exactly if its address keys hold texts the
keyed hash maps to themselves. -/
theorem sanitizer_idempotent_iff (hmac : String → String → List UInt8)
    (anonymizeIps : Bool) (key : String) :
    (∀ v, (Idempotent (keyed hmac anonymizeIps key) v ∧
        ReadsBack (keyed hmac anonymizeIps key) v) ↔
      (anonymizeIps = true → ∀ a ∈ addressFields v, ∃ s, a = .string s ∧
        ipPseudonym (keyed hmac anonymizeIps key) key
            (ipPseudonym (keyed hmac anonymizeIps key) key s) =
          ipPseudonym (keyed hmac anonymizeIps key) key s)) ∧
    (∀ e e', pseudonymizeEvidence (keyed hmac anonymizeIps key) e = .ok e' →
      (sanitizeAnalysisValue (keyed hmac anonymizeIps key) e'.toJson none = .ok e'.toJson ↔
        (anonymizeIps = true → ∀ a ∈ addressFields e'.toJson, ∃ s, a = .string s ∧
          ipPseudonym (keyed hmac anonymizeIps key) key s = s))) ∧
    (∀ e e' c payload, pseudonymizeEvidence (keyed hmac true key) e = .ok e' →
      e'.toJson.get "source_ip" = some (.string c) →
      sanitizeAnalysisValue (keyed hmac true key) e'.toJson none = .ok payload →
      (payload.get "source_ip" = some (.string c) ↔
        ipPseudonym (keyed hmac true key) key c = c)) := by
  refine ⟨fun v => ?_, fun e e' _ => ?_, fun e e' c payload _ hget h => ?_⟩
  · constructor
    · rintro ⟨hidem, -⟩
      exact (sanitized_stable_iff v none).1 (hidem none)
    · intro h
      exact ⟨fun k => (sanitized_stable_iff v k).2 h, (sanitized_stable_iff v none).2 h⟩
  · rw [evidence_unchanged_iff]
    simp only [FixedAddress, fixed_keyed_iff]
    exact Iff.rfl
  · exact published_source_iff hget h

/-! ### One address, hashed twice -/

/-- HMAC-SHA256 under the key `0123456789abcdef0123456789abcdef`, on the texts
the examples use. -/
def sampleHmac (_key text : String) : List UInt8 :=
  if text = "203.0.113.7" then
    [85, 167, 201, 186, 57, 199, 98, 233, 115, 255, 207, 41, 67, 97, 199, 143, 124, 90,
      131, 14, 68, 52, 29, 22, 134, 227, 192, 252, 209, 241, 145, 227]
  else if text = "ip-pseudonym:55a7c9ba39c762e973ffcf294361c78f" then
    [223, 106, 134, 253, 167, 14, 158, 1, 29, 135, 212, 227, 206, 80, 65, 109, 163, 118,
      154, 69, 186, 141, 208, 252, 232, 43, 182, 227, 77, 150, 179, 103]
  else if text = "::ffff:203.0.113.7" then
    [160, 17, 172, 135, 215, 3, 178, 107, 134, 31, 26, 216, 215, 59, 167, 227, 223, 161,
      62, 188, 219, 170, 209, 41, 250, 139, 158, 247, 159, 167, 229, 6]
  else []

def sampleEnv : Env := keyed sampleHmac true "0123456789abcdef0123456789abcdef"

def sourceValue (ip : String) : Json := .object [("source_ip", .string ip)]

/-- The second pass hashes the pseudonym the first one wrote. -/
theorem source_ip_hashed_twice : ¬ ∀ v, Idempotent sampleEnv v := by
  intro h
  have hfirst : sanitizeAnalysisValue sampleEnv (sourceValue "203.0.113.7") none =
      .ok (sourceValue "ip-pseudonym:55a7c9ba39c762e973ffcf294361c78f") := by
    decide +kernel
  have hsecond := h _ none _ hfirst
  exact absurd hsecond (by decide +kernel)

end Clawforge.Pseudonym

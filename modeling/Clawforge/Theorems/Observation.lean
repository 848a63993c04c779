import Clawforge.Storage.SecurityEvents
import Clawforge.Theorems.Sanitizer

/-!
# What is recorded passes the sanitizer

A valid envelope whose addresses could be pseudonymized is never refused at its
publication: either its evidence names a source, and then a pseudonym for it was
found, or no key of its evidence is an address key (`sanitizedEvent_isOk`).
-/

namespace Clawforge.SecurityEventStore

open Kit EventDelivery Pseudonym SecurityEvents List

/-- The address of the source, of evidence that names one. -/
def sourceIp? : SecurityEventEvidence → Option String
  | .networkIdsAlert e => some e.sourceIp
  | .firewallBlock e => some e.sourceIp
  | .authFailure e => some e.sourceIp
  | .authAnomaly e => some e.sourceIp
  | .sshLoginFailure e => some e.sourceIp
  | .sshLoginAnomaly e => some e.sourceIp
  | .httpAnomaly e => some e.sourceIp
  | .dnsAnomaly e => some e.sourceIp
  | .portScanDetected e => some e.sourceIp
  | .firewallRuleChanged _ | .containerAnomaly _ | .containerEscapeAttempt _
  | .containerLifecycleChanged _ => none

theorem isIp_of_validateIp {field s : String} (h : validateIp field s = .ok ()) :
    isIp s = true := by
  unfold validateIp at h
  split at h
  · rename_i hparse
    rw [isIp, hparse]
    rfl
  · cases h

variable {e : SecurityEventEvidence} {env : Env}

theorem isIp_sourceIp (h : e.validate = .ok ()) {s : String} (hs : sourceIp? e = some s) :
    isIp s = true := by
  cases e with
  | networkIdsAlert | httpAnomaly | dnsAnomaly | portScanDetected =>
    cases hs
    obtain ⟨_, hip, _⟩ := bind_ok h
    exact isIp_of_validateIp hip
  | firewallBlock | authFailure | authAnomaly | sshLoginFailure | sshLoginAnomaly =>
    cases hs
    obtain ⟨_, _, h⟩ := bind_ok h
    first
      | exact isIp_of_validateIp h
      | (obtain ⟨_, hip, _⟩ := bind_ok h
         exact isIp_of_validateIp hip)
  | firewallRuleChanged | containerAnomaly | containerEscapeAttempt
  | containerLifecycleChanged => cases hs

theorem pseudonymizeField_sourceIp {e' : SecurityEventEvidence}
    (h : pseudonymizeEvidence env e = .ok e') {s : String} (hs : sourceIp? e = some s) :
    ∃ p, pseudonymizeField env s = .ok p := by
  cases e with
  | firewallRuleChanged | containerAnomaly | containerEscapeAttempt
  | containerLifecycleChanged => cases hs
  | _ =>
    cases hs
    obtain ⟨p, hp, _⟩ := bind_ok h
    exact ⟨p, hp⟩

/-- Evidence without a source has no address key. -/
theorem no_address_keys (hs : sourceIp? e = none) : ∀ f ∈ e.fields, ipAnalysisKey f.1 = false := by
  have hkeys : ∀ k ∈ ["rule_id", "actor", "change", "summary", "container_id", "image",
      "anomaly", "technique", "container_name", "action", "detail"],
      ipAnalysisKey k = false := by
    decide_cbv
  intro f hf
  refine hkeys _ ?_
  cases e with
  | firewallRuleChanged | containerAnomaly | containerEscapeAttempt
  | containerLifecycleChanged =>
    simp only [SecurityEventEvidence.fields, mem_cons, not_mem_nil,
      or_false] at hf
    rcases hf with rfl | rfl | rfl | rfl | rfl <;> simp
  | _ => cases hs

/-- Fields without address keys pass the sanitizer. -/
theorem sanitizeFields_isOk_of_plain {fields : List (String × Json)}
    (hplain : ∀ f ∈ fields, PlainField f) (hno : ∀ f ∈ fields, ipAnalysisKey f.1 = false) :
    ∃ out, sanitizeFields env fields = .ok out := by
  refine ⟨fields, (sanitizeFields_eq_self_iff env fields).2 ?_⟩
  refine (cleanFields_of_plain hplain).2 (fun _ a ha => ?_)
  induction fields with
  | nil => cases ha
  | cons f rest ih =>
    have hf := hplain f mem_cons_self
    rw [fieldsAddresses, hf.2.1, if_neg Bool.false_ne_true, hno f mem_cons_self,
      if_neg Bool.false_ne_true, addressFields_of_scalar hf.1, nil_append] at ha
    exact ih (fun g hg => hplain g (mem_cons_of_mem _ hg))
      (fun g hg => hno g (mem_cons_of_mem _ hg)) ha

theorem sanitize_ofFields_isOk {fields : List (String × Json)}
    (h : ∀ f ∈ fields, PlainField f ∧ ipAnalysisKey f.1 = false) :
    ∃ w, sanitizeAnalysisValue env (.ofFields fields) none = .ok w := by
  have hmem : ∀ f ∈ fields.foldl (fun acc f => Json.insertField f.1 f.2 acc) [],
      PlainField f ∧ ipAnalysisKey f.1 = false := by
    intro f hf
    rcases mem_foldl_insertField hf with hf | hf
    · exact h f hf
    · cases hf
  obtain ⟨out, hout⟩ := sanitizeFields_isOk_of_plain (fun f hf => (hmem f hf).1)
    (fun f hf => (hmem f hf).2)
  refine ⟨.object out, ?_⟩
  rw [Json.ofFields, sanitizeAnalysisValue, hout]
  rfl

theorem evidence_isOk (hs : sourceIp? e = none) :
    ∃ w, sanitizeAnalysisValue env e.toJson none = .ok w := by
  refine sanitize_ofFields_isOk (fun f hf => ?_)
  rcases mem_cons.1 hf with rfl | hf
  · have htag : PlainField ("event_type", .string e.eventType) :=
      ⟨rfl, evidenceKeys_plain _ mem_cons_self⟩
    refine ⟨htag, ?_⟩
    show ipAnalysisKey "event_type" = false
    decide_cbv
  · obtain ⟨hkey, hscalar⟩ := evidence_fields e f hf
    exact ⟨⟨hscalar, evidenceKeys_plain _ hkey⟩, no_address_keys hs f hf⟩

theorem metadata_isOk (env : Env) (id sensorId : Uuid) (hit : Option IpReputationHit) :
    ∃ w, sanitizeAnalysisValue env (.ofFields (metadataFields id sensorId hit)) none =
      .ok w := by
  have hkeys : ∀ k ∈ ["security_event_id", "sensor_id", "threat_intel_hit",
      "threat_intel_source", "threat_intel_confidence", "threat_intel_last_seen"],
      sensitiveAnalysisKey k = false ∧ ipAnalysisKey k = false ∧
        resourceKey (some k) = false := by
    decide_cbv
  refine sanitize_ofFields_isOk (fun f hf => ?_)
  have hmem : f.1 ∈ ["security_event_id", "sensor_id", "threat_intel_hit",
      "threat_intel_source", "threat_intel_confidence", "threat_intel_last_seen"] ∧
      isScalar f.2 = true := by
    cases hit with
    | none =>
      simp only [metadataFields, append_nil, mem_cons, not_mem_nil,
        or_false] at hf
      rcases hf with rfl | rfl <;> simp
    | some hit =>
      simp only [metadataFields, cons_append, nil_append, mem_cons,
        not_mem_nil, or_false] at hf
      rcases hf with rfl | rfl | rfl | rfl | rfl | rfl <;> simp [isScalar]
  obtain ⟨hsensitive, hip, hresource⟩ := hkeys f.1 hmem.1
  exact ⟨⟨hmem.2, hsensitive, fun _ => hresource⟩, hip⟩

/-- A pseudonymized text passes again. -/
theorem pseudonymizeCorrelationId_isOk {value out : String}
    (h : pseudonymizeField env value = .ok out) :
    ∃ v, pseudonymizeCorrelationId env out = .ok v := by
  unfold pseudonymizeField at h
  by_cases hcond : (env.anonymizeIps && isIp value) = true
  · rw [pseudonymizeCorrelationId, if_pos hcond] at h
    obtain ⟨key, rfl⟩ := pseudonymizeIp_ok h
    refine ⟨ipPseudonym env key value, ?_⟩
    rw [pseudonymizeCorrelationId, isIp_ipPseudonym, Bool.and_false, if_neg Bool.false_ne_true]
  · have hout := h
    rw [pseudonymizeCorrelationId, if_neg hcond] at hout
    cases hout
    exact ⟨_, h⟩

/-- Where one address text has a pseudonym, every one has. -/
theorem hasPseudonyms_of_one {s p : String} (h : pseudonymizeIp env s = .ok p) :
    HasPseudonyms env := by
  intro _ t
  unfold pseudonymizeIp at h ⊢
  split at h
  · cases h
  · exact ⟨_, rfl⟩
  · cases h

/-- Where the evidence of a valid envelope could be pseudonymized, the sanitizer
refuses nothing of it. -/
theorem observation_isOk {e : SensorEnvelope} {o : Observation}
    (hvalid : e.evidence.validate = .ok ()) (h : observe env e = .ok o) :
    ∃ w, sanitizeAnalysisValue env o.evidence none = .ok w := by
  obtain ⟨resource, _, h⟩ := bind_ok h
  obtain ⟨evidence, hevidence, h⟩ := bind_ok h
  cases h
  cases hs : sourceIp? e.evidence with
  | some s =>
    -- the source was replaced, or nothing is: so every address text has a pseudonym
    refine sanitize_isOk (fun hanon => ?_) _ none
    obtain ⟨p, hp⟩ := pseudonymizeField_sourceIp hevidence hs
    unfold pseudonymizeField pseudonymizeCorrelationId at hp
    rw [hanon, isIp_sourceIp hvalid hs, Bool.and_self, if_pos rfl] at hp
    exact hasPseudonyms_of_one hp hanon
  | none =>
    have hsame : evidence = e.evidence := by
      cases he : e.evidence with
      | firewallRuleChanged | containerAnomaly | containerEscapeAttempt
      | containerLifecycleChanged =>
        rw [he] at hevidence
        cases hevidence
        rfl
      | _ =>
        rw [he] at hs
        cases hs
    exact hsame ▸ evidence_isOk hs

theorem sanitizedEvent_isOk {b : Backend} {e : SensorEnvelope} {o : Observation}
    (hvalid : e.evidence.validate = .ok ()) (h : observe b.toEnv e = .ok o)
    (id sensorId : Uuid) (hit : Option IpReputationHit) :
    ∃ event, sanitizedEvent b.toEnv (securityEvent b id sensorId e o hit) = .ok event := by
  obtain ⟨payload, hpayload⟩ := observation_isOk hvalid h
  obtain ⟨metadata, hmetadata⟩ := metadata_isOk b.toEnv id sensorId hit
  obtain ⟨resource, hresource, h⟩ := bind_ok h
  obtain ⟨evidence, _, h⟩ := bind_ok h
  cases h
  obtain ⟨v, hv⟩ := pseudonymizeCorrelationId_isOk hresource
  simp only at hpayload
  have hcorrelation :
      (some resource).mapM (pseudonymizeCorrelationId b.toEnv) = .ok (some v) := by
    rw [Option.mapM_some, hv]
    rfl
  simp only [sanitizedEvent, securityEvent, hpayload, hmetadata, hcorrelation]
  exact ⟨_, rfl⟩

end Clawforge.SecurityEventStore

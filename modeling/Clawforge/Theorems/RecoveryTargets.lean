import Clawforge.Firewall.Target
import Clawforge.Kit.Fallible

/-!
# Recovery targets survive storage

A record is accepted exactly if it has the fields that the recovered target is
written with, at their values, and that target validates. So a target that was
written for a validated action is read back, what is accepted is written with
the same fields again, and a record that lacks a field or has it at another
type denotes no target. Fields that no target of the record's variant is
written with are not looked at.
-/

namespace Clawforge.Json

open List

variable {v : Json} {key : String}

theorem asStr_eq_some {s : String} : v.asStr = some s ↔ v = .string s := by
  cases v <;> simp [asStr]

theorem asU64_eq_some {n : Nat} (hn : n < 2 ^ 64) : v.asU64 = some n ↔ v = .number (.int n) := by
  constructor
  · intro h
    cases v with
    | number number =>
      cases number with
      | int m =>
        simp only [asU64] at h
        split at h
        · next hrange =>
          obtain rfl := Option.some.inj h
          rw [Int.toNat_of_nonneg hrange.1]
        · cases h
      | float text => cases h
    | _ => cases h
  · rintro rfl
    simp only [asU64]
    rw [if_pos (by omega), Int.toNat_natCast]

/-- A string field of a value. -/
theorem get_asStr {s : String} :
    (v.get key).bind asStr = some s ↔ v.get key = some (.string s) := by
  rw [Option.bind_eq_some_iff]
  constructor
  · rintro ⟨w, hw, hs⟩
    rw [hw, asStr_eq_some.mp hs]
  · intro h
    exact ⟨_, h, rfl⟩

/-- A computation that starts from a string field. -/
theorem get_asStr_bind {α : Type} {f : String → Option α} {a : α} :
    ((v.get key).bind asStr).bind f = some a ↔
      ∃ s, v.get key = some (.string s) ∧ f s = some a := by
  rw [Option.bind_eq_some_iff]
  exact exists_congr fun s => and_congr_left' get_asStr

/-- Where the keys are distinct, a field is found under its key. -/
theorem lookup_of_mem {fields : List (String × Json)} (h : (fields.map Prod.fst).Nodup)
    {f : String × Json} (hf : f ∈ fields) : fields.lookup f.1 = some f.2 := by
  induction fields with
  | nil => exact absurd hf not_mem_nil
  | cons g rest ih =>
    rw [map_cons, nodup_cons] at h
    obtain ⟨key, value⟩ := g
    rw [lookup_cons_eq]
    rcases mem_cons.mp hf with rfl | hf
    · exact if_pos rfl
    · have hne : f.1 ≠ key := fun heq => h.1 (List.mem_map.mpr ⟨f, hf, heq⟩)
      rw [if_neg hne]
      exact ih h.2 hf

theorem mem_of_lookup {fields : List (String × Json)} {value : Json}
    (h : fields.lookup key = some value) : (key, value) ∈ fields := by
  obtain ⟨before, after, rfl, -⟩ := lookup_eq_some_iff.mp h
  exact mem_append_right _ mem_cons_self

end Clawforge.Json

namespace Clawforge.Firewall

open Kit List Option

/-- The fields that name a target, with its variant. -/
def FirewallTarget.fields : FirewallTarget → List (String × Json)
  | .threatIntelIndicator cidr source =>
    [("variant", .string "threat_intel_indicator"), ("cidr", .string cidr),
      ("source", .string source)]
  | .incidentSource pseudonym =>
    [("variant", .string "incident_source"), ("pseudonym", .string pseudonym)]
  | .resolvedIncidentSource rawIp pseudonym =>
    [("variant", .string "resolved_incident_source"), ("raw_ip", .string rawIp),
      ("pseudonym", .string pseudonym)]

/-- The fields a record is written with. -/
def RecoveryTarget.fields (r : RecoveryTarget) : List (String × Json) :=
  [("schema_version", .number (.int recoverySchemaVersion)), ("scope", .string r.scope)] ++
    r.target.fields

/-- The value has these fields. -/
def HasFields (fields : List (String × Json)) (v : Json) : Prop :=
  ∀ f ∈ fields, v.get f.1 = some f.2

theorem RecoveryTarget.nodup_fields (r : RecoveryTarget) : (r.fields.map Prod.fst).Nodup := by
  obtain ⟨scope, target⟩ := r
  cases target <;> exact of_decide_eq_true rfl

theorem RecoveryTarget.get_toJson (r : RecoveryTarget) (key : String) :
    r.toJson.get key = r.fields.lookup key := by
  have hfields : r.toJson = Json.ofFields r.fields := by
    obtain ⟨scope, target⟩ := r
    cases target <;> rfl
  rw [hfields, Json.get_ofFields r.nodup_fields]

/-- A record has its own fields. -/
theorem RecoveryTarget.hasFields_toJson (r : RecoveryTarget) : HasFields r.fields r.toJson :=
  fun f hf => (r.get_toJson f.1).trans (Json.lookup_of_mem r.nodup_fields hf)

variable {v : Json}

theorem hasFields_cons {f : String × Json} {fields : List (String × Json)} :
    HasFields (f :: fields) v ↔ v.get f.1 = some f.2 ∧ HasFields fields v :=
  forall_mem_cons

theorem hasFields_nil (v : Json) : HasFields [] v ↔ True :=
  iff_true_intro (forall_mem_nil _)

/-- A record names the target whose fields it has. -/
theorem recoveredTarget_eq_some {t : FirewallTarget} :
    recoveredTarget v = some t ↔ HasFields t.fields v := by
  unfold recoveredTarget
  simp only [bind_eq_bind]
  constructor
  · intro h
    obtain ⟨variant, hvariant, h⟩ := Json.get_asStr_bind.mp h
    split at h
    · next heq =>
      obtain ⟨cidr, hcidr, h⟩ := Json.get_asStr_bind.mp h
      obtain ⟨source, hsource, h⟩ := Json.get_asStr_bind.mp h
      obtain rfl := some.inj h
      simp only [FirewallTarget.fields, hasFields_cons, hasFields_nil]
      exact ⟨heq ▸ hvariant, hcidr, hsource, trivial⟩
    split at h
    · next heq =>
      obtain ⟨pseudonym, hpseudonym, h⟩ := Json.get_asStr_bind.mp h
      obtain rfl := some.inj h
      simp only [FirewallTarget.fields, hasFields_cons, hasFields_nil]
      exact ⟨heq ▸ hvariant, hpseudonym, trivial⟩
    split at h
    · next heq =>
      obtain ⟨rawIp, hrawIp, h⟩ := Json.get_asStr_bind.mp h
      obtain ⟨pseudonym, hpseudonym, h⟩ := Json.get_asStr_bind.mp h
      obtain rfl := some.inj h
      simp only [FirewallTarget.fields, hasFields_cons, hasFields_nil]
      exact ⟨heq ▸ hvariant, hrawIp, hpseudonym, trivial⟩
    · cases h
  · intro h
    cases t with
    | threatIntelIndicator cidr source =>
      simp only [FirewallTarget.fields, hasFields_cons, hasFields_nil] at h
      obtain ⟨hvariant, hcidr, hsource, -⟩ := h
      refine Json.get_asStr_bind.mpr ⟨_, hvariant, ?_⟩
      rw [if_pos rfl]
      exact Json.get_asStr_bind.mpr ⟨_, hcidr, Json.get_asStr_bind.mpr ⟨_, hsource, rfl⟩⟩
    | incidentSource pseudonym =>
      simp only [FirewallTarget.fields, hasFields_cons, hasFields_nil] at h
      obtain ⟨hvariant, hpseudonym, -⟩ := h
      refine Json.get_asStr_bind.mpr ⟨_, hvariant, ?_⟩
      rw [if_neg (by decide), if_pos rfl]
      exact Json.get_asStr_bind.mpr ⟨_, hpseudonym, rfl⟩
    | resolvedIncidentSource rawIp pseudonym =>
      simp only [FirewallTarget.fields, hasFields_cons, hasFields_nil] at h
      obtain ⟨hvariant, hrawIp, hpseudonym, -⟩ := h
      refine Json.get_asStr_bind.mpr ⟨_, hvariant, ?_⟩
      rw [if_neg (by decide), if_neg (by decide), if_pos rfl]
      exact Json.get_asStr_bind.mpr ⟨_, hrawIp, Json.get_asStr_bind.mpr ⟨_, hpseudonym, rfl⟩⟩

theorem version_eq :
    (v.get "schema_version").bind Json.asU64 = some recoverySchemaVersion ↔
      v.get "schema_version" = some (.number (.int recoverySchemaVersion)) := by
  have hn : recoverySchemaVersion < 2 ^ 64 := by decide
  rw [bind_eq_some_iff]
  constructor
  · rintro ⟨w, hw, hversion⟩
    rw [hw, (Json.asU64_eq_some hn).mp hversion]
  · intro h
    exact ⟨_, h, (Json.asU64_eq_some hn).mpr rfl⟩

/-- What is accepted: the fields of the target that is returned, which validates. -/
theorem fromJson_eq_some {r : RecoveryTarget} :
    RecoveryTarget.fromJson v = some r ↔
      HasFields r.fields v ∧ r.target.validate = .ok () := by
  have hfields : HasFields r.fields v ↔
      v.get "schema_version" = some (.number (.int recoverySchemaVersion)) ∧
        v.get "scope" = some (.string r.scope) ∧ HasFields r.target.fields v := by
    simp only [RecoveryTarget.fields, cons_append, nil_append, hasFields_cons]
  rw [hfields]
  unfold RecoveryTarget.fromJson
  simp only [bind_eq_bind]
  constructor
  · intro h
    obtain ⟨version, hversion, h⟩ := bind_eq_some_iff.mp h
    split at h
    · cases h
    · next heq =>
      obtain rfl := not_not.mp heq
      obtain ⟨scope, hscope, h⟩ := Json.get_asStr_bind.mp h
      obtain ⟨target, htarget, h⟩ := bind_eq_some_iff.mp h
      split at h
      · next hvalid =>
        obtain rfl := some.inj h
        exact ⟨⟨version_eq.mp hversion, hscope, recoveredTarget_eq_some.mp htarget⟩, hvalid⟩
      · cases h
  · rintro ⟨⟨hversion, hscope, htarget⟩, hvalid⟩
    refine bind_eq_some_iff.mpr ⟨_, version_eq.mpr hversion, ?_⟩
    rw [if_neg (not_not.mpr rfl)]
    refine Json.get_asStr_bind.mpr ⟨_, hscope, ?_⟩
    refine bind_eq_some_iff.mpr ⟨_, recoveredTarget_eq_some.mpr htarget, ?_⟩
    rw [hvalid]

/-- A target that validates has a reference. -/
theorem elementReference_isOk {t : FirewallTarget} (h : t.validate = .ok ()) :
    ∃ reference, elementReference t = .ok reference := by
  have hparsed : ∀ text, t.addressText = some text → (parseIpOrCidr text).isNone = false →
      ∃ parsed, targetAddress t = .ok parsed := by
    intro text htext hsome
    cases hp : parseIpOrCidr text with
    | none => rw [hp] at hsome; cases hsome
    | some parsed => exact ⟨parsed, targetAddress_of_parse htext hp⟩
  cases t with
  | incidentSource pseudonym => exact ⟨placeholder pseudonym, rfl⟩
  | threatIntelIndicator cidr source =>
    rw [FirewallTarget.validate] at h
    split at h
    · cases h
    split at h
    · cases h
    · next hnone =>
      obtain ⟨parsed, hp⟩ := hparsed cidr rfl (Bool.not_eq_true _ ▸ hnone)
      simp only [elementReference, hp]
      exact ⟨_, rfl⟩
  | resolvedIncidentSource rawIp pseudonym =>
    rw [FirewallTarget.validate] at h
    obtain ⟨_, -, h⟩ := bind_ok h
    split at h
    · cases h
    · next hnone =>
      obtain ⟨parsed, hp⟩ := hparsed rawIp rfl (Bool.not_eq_true _ ▸ hnone)
      simp only [elementReference, hp]
      exact ⟨_, rfl⟩

/-- A target written for a validated action is read back; what is accepted has every field that
it is written with again, at the same value, and denotes the same element; and a record whose
version, scope or variant is missing or of another type, or that lacks a field of its variant,
is rejected. -/
theorem recovery_targets_survive :
    (∀ r : RecoveryTarget, r.target.validate = .ok () →
      RecoveryTarget.fromJson r.toJson = some r) ∧
    (∀ v r, RecoveryTarget.fromJson v = some r →
      (∀ key value, r.toJson.get key = some value → v.get key = some value) ∧
        RecoveryTarget.fromJson r.toJson = some r ∧
        ∃ reference, elementReference r.target = .ok reference) ∧
    (∀ v r, RecoveryTarget.fromJson v = some r ↔
      HasFields r.fields v ∧ r.target.validate = .ok ()) ∧
    ∀ v, v.get "schema_version" ≠ some (.number (.int 1)) ∨
        (∀ scope, v.get "scope" ≠ some (.string scope)) ∨
        (∀ t : FirewallTarget, ¬ HasFields t.fields v) →
      RecoveryTarget.fromJson v = none := by
  have hwritten : ∀ r : RecoveryTarget, r.target.validate = .ok () →
      RecoveryTarget.fromJson r.toJson = some r :=
    fun r h => fromJson_eq_some.mpr ⟨r.hasFields_toJson, h⟩
  refine ⟨hwritten, fun v r h => ?_, fun v r => fromJson_eq_some, fun v hbad => ?_⟩
  · obtain ⟨hfields, hvalid⟩ := fromJson_eq_some.mp h
    refine ⟨fun key value hget => ?_, hwritten r hvalid, elementReference_isOk hvalid⟩
    rw [r.get_toJson] at hget
    exact hfields _ (Json.mem_of_lookup hget)
  · rw [eq_none_iff_forall_ne_some]
    intro r h
    have hfields := (fromJson_eq_some.mp h).1
    simp only [RecoveryTarget.fields, cons_append, nil_append, hasFields_cons] at hfields
    obtain ⟨hversion, hscope, htarget⟩ := hfields
    rcases hbad with hbad | hbad | hbad
    · exact hbad hversion
    · exact hbad r.scope hscope
    · exact hbad r.target htarget

def resolvedRecord : RecoveryTarget :=
  ⟨"nftables", .resolvedIncidentSource "198.51.100.9" "ip-pseudonym:abc123"⟩

theorem recovery_targets_survive_resolved :
    RecoveryTarget.fromJson resolvedRecord.toJson = some resolvedRecord :=
  recovery_targets_survive.1 resolvedRecord (by decide +kernel)

/-- A record of an unresolved source that also carries an address. -/
def recordWithAddress : Json :=
  .object [("pseudonym", .string "ip-pseudonym:abc123"), ("raw_ip", .string "198.51.100.9"),
    ("schema_version", .number (.int 1)), ("scope", .string "nftables"),
    ("variant", .string "incident_source")]

/-- A field that the target is not written with is lost. -/
theorem fromJson_ignores_other_fields :
    ¬ ∀ v r, RecoveryTarget.fromJson v = some r → ∀ key, r.toJson.get key = v.get key := by
  intro hall
  have hread : RecoveryTarget.fromJson recordWithAddress =
      some ⟨"nftables", .incidentSource "ip-pseudonym:abc123"⟩ := by
    decide +kernel
  have haddress := hall _ _ hread "raw_ip"
  exact absurd haddress (by decide +kernel)

end Clawforge.Firewall

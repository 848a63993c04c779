import Clawforge.Firewall.Target
import Clawforge.Theorems.Sanitizer

/-!
# Spellings of one address

The keyed hash is taken over the text of an address as the sensor wrote it. Two
texts for one host therefore share their pseudonym exactly if they are the same
text, up to a collision of the hash (`one_pseudonym_iff`).
-/

namespace Clawforge.Pseudonym

open Clawforge.Net Clawforge.SecurityEvents Clawforge.Firewall Kit

/-! ## The text of a digest -/

theorem hexByte_injective : Function.Injective hexByte := by
  intro b c h
  have digit : ∀ {m n : Nat}, Json.hexDigit m = Json.hexDigit n → m % 16 = n % 16 := by
    intro m n hmn
    have hm := digitValue_digitChar (le_refl 16) (Nat.mod_lt m (by decide))
    have hn := digitValue_digitChar (le_refl 16) (Nat.mod_lt n (by decide))
    unfold Json.hexDigit at hmn
    rw [hmn] at hm
    exact Option.some.inj (hm.symm.trans hn)
  obtain ⟨hhigh, hrest⟩ := List.cons.inj h
  obtain ⟨hlow, -⟩ := List.cons.inj hrest
  have h1 := digit hhigh
  have h2 := digit hlow
  have hb := b.toNat_lt
  have hc := c.toNat_lt
  exact UInt8.toNat_inj.1 (by omega)

theorem hexText_injective : Function.Injective (fun bs : List UInt8 => bs.flatMap hexByte) := by
  intro bs
  induction bs with
  | nil =>
    intro cs h
    cases cs with
    | nil => rfl
    | cons c cs => cases h
  | cons b bs ih =>
    intro cs h
    cases cs with
    | nil => cases h
    | cons c cs =>
      obtain ⟨hhead, htail⟩ := List.append_inj h rfl
      rw [hexByte_injective hhead, ih htail]

theorem ipPseudonym_eq_iff {env : Env} {key a b : String} :
    ipPseudonym env key a = ipPseudonym env key b ↔
      (env.hmacSha256 key a).take 16 = (env.hmacSha256 key b).take 16 := by
  constructor
  · intro h
    exact hexText_injective (List.append_cancel_left (String.ofList_injective h))
  · intro h
    unfold ipPseudonym
    rw [h]

/-! ## Two texts -/

/-- The texts parse, and name the same host: an IPv4-mapped address is the IPv4
address it maps. -/
def SameHost (a b : String) : Prop :=
  ∃ x y, parseIpAddr a.toList = some x ∧ parseIpAddr b.toList = some y ∧
    normalizeAddress x = normalizeAddress y

/-- The evidence with one text in every address field. -/
def withAddress (text : String) (e : SecurityEventEvidence) : SecurityEventEvidence :=
  Id.run (mapAddressesM (fun _ => text) e)

/-- A correlation id and any evidence are pseudonymized alike under either text. -/
def SamePseudonym (env : Env) (a b : String) : Prop :=
  pseudonymizeCorrelationId env a = pseudonymizeCorrelationId env b ∧
    ∀ e, pseudonymizeEvidence env (withAddress a e) = pseudonymizeEvidence env (withAddress b e)

theorem mapAddressesM_withAddress (f : String → Except String String) (text : String)
    (e : SecurityEventEvidence) :
    mapAddressesM f (withAddress text e) = mapAddressesM (fun _ => f text) e := by
  cases e with
  | firewallBlock e =>
    obtain ⟨_, _, destinationIp, _, _, _⟩ := e
    cases destinationIp <;> rfl
  | authAnomaly e =>
    obtain ⟨_, _, _, previousSourceIp⟩ := e
    cases previousSourceIp <;> rfl
  | _ => rfl

theorem samePseudonym_iff {env : Env} {a b : String} :
    SamePseudonym env a b ↔
      pseudonymizeCorrelationId env a = pseudonymizeCorrelationId env b := by
  refine ⟨And.left, fun h => ⟨h, fun e => ?_⟩⟩
  unfold pseudonymizeEvidence
  rw [mapAddressesM_withAddress, mapAddressesM_withAddress]
  unfold pseudonymizeField
  rw [h]

theorem isIp_of_parse {s : String} {x : IpAddr} (h : parseIpAddr s.toList = some x) :
    isIp s = true := by
  unfold isIp
  rw [h]
  rfl

/-- Two texts for one host whose keyed hashes do not collide have one pseudonym
exactly if they are the same text. -/
theorem one_pseudonym_iff {hmac : String → String → List UInt8} {anonymizeIps : Bool}
    {key a b : String} (hhost : SameHost a b)
    (hcollision : (hmac key a).take 16 = (hmac key b).take 16 → a = b) :
    SamePseudonym (keyed hmac anonymizeIps key) a b ↔ a = b := by
  obtain ⟨x, y, hx, hy, -⟩ := hhost
  rw [samePseudonym_iff]
  refine ⟨fun h => ?_, fun h => by rw [h]⟩
  unfold pseudonymizeCorrelationId at h
  rw [isIp_of_parse hx, isIp_of_parse hy, Bool.and_true] at h
  cases hanon : (keyed hmac anonymizeIps key).anonymizeIps with
  | true =>
    rw [hanon, if_pos rfl, if_pos rfl, pseudonymizeIp_keyed, pseudonymizeIp_keyed] at h
    exact hcollision (ipPseudonym_eq_iff.1 (Except.ok.inj h))
  | false =>
    rw [hanon, if_neg Bool.false_ne_true, if_neg Bool.false_ne_true] at h
    exact Except.ok.inj h

/-! ### A client seen by two sensors -/

theorem mapped_same_host : SameHost "203.0.113.7" "::ffff:203.0.113.7" :=
  ⟨.v4 0xcb007107#32, .v6 0xffffcb007107#128, by decide_cbv, by decide_cbv,
    by decide_cbv⟩

/-- The SSH sensor's spelling and the one HAProxy logs for the same client get
two pseudonyms. -/
theorem mapped_client_two_pseudonyms :
    ¬ ∀ a b, SameHost a b → SamePseudonym sampleEnv a b := by
  intro h
  have hsame := (h _ _ mapped_same_host).1
  exact absurd hsame (by decide_cbv)

theorem one_pseudonym_iff_mapped :
    SamePseudonym (keyed sampleHmac true "0123456789abcdef0123456789abcdef")
        "203.0.113.7" "::ffff:203.0.113.7" ↔
      "203.0.113.7" = "::ffff:203.0.113.7" :=
  one_pseudonym_iff mapped_same_host fun h => absurd h (by decide)

end Clawforge.Pseudonym

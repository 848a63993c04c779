import Clawforge.Storage.BridgePlan

/-!
# One notion of a qualifying listing

The policy engine, the bridge's plan and the release at dispatch judge the same listings,
but not at the same ages: the engine counts whole seconds and refuses a listing of the
future, the SQL compares instants and does not. They agree on a view exactly if no listing
that decides it is between the two (`same_notion_iff`).
-/

namespace Clawforge.Bridge

open Reputation Assessments Option

/-- The engine's listing is the plan's, and there is one exactly if the release has one. -/
def SameNotion (p : PolicyBridgeParams) (now : Instant) (intel : SourceIntel) (s : AssessmentRow) :
    Prop :=
  (qualifyingListing intel p.minIntelConfidence p.maxEvidenceAgeSeconds now).map (fun x =>
      (⟨x.1, x.2.source, x.2.confidence⟩ : PlanIntel)) = planIntel p now intel s ∧
    ((qualifyingListing intel p.minIntelConfidence p.maxEvidenceAgeSeconds now).isSome = true ↔
      releaseAccepts intel p.minIntelConfidence p.maxEvidenceAgeSeconds now = true)

/-- The engine and the SQL differ on the age: it is more than the maximum by less than a
second, or a second or more in the future. Under a negative maximum the engine accepts no
age at all. -/
def Borderline (maxAgeSeconds : Int) (age : Int) : Prop :=
  (0 ≤ maxAgeSeconds ∧ (age ≤ -1000000 ∨
    (maxAgeSeconds * 1000000 < age ∧ age < (maxAgeSeconds + 1) * 1000000))) ∨
  (maxAgeSeconds < 0 ∧ age ≤ maxAgeSeconds * 1000000)

/-- A listing of too little confidence, or of an age that both judge alike. -/
def Clear (p : PolicyBridgeParams) (now : Instant) (hit : ListingHit) : Prop :=
  p.minIntelConfidence ≤ (hit.confidence : Int) →
    ¬ Borderline p.maxEvidenceAgeSeconds (age now hit.lastSeen)

/-- The listing is confident and no older than the maximum. -/
def OnTerms (p : PolicyBridgeParams) (now : Instant) (hit : ListingHit) : Prop :=
  p.minIntelConfidence ≤ (hit.confidence : Int) ∧
    age now hit.lastSeen ≤ p.maxEvidenceAgeSeconds * 1000000

/-! ## One listing -/

theorem numSeconds_nonneg_iff (micros : Int) : 0 ≤ numSeconds micros ↔ -1000000 < micros := by
  unfold numSeconds
  rcases le_or_gt 0 micros with h | h
  · rw [Int.tdiv_eq_ediv_of_nonneg h]
    omega
  · have hneg : micros.tdiv 1000000 = -((-micros) / 1000000) := by
      rw [← Int.tdiv_eq_ediv_of_nonneg (by omega : 0 ≤ -micros), Int.neg_tdiv, Int.neg_neg]
    rw [hneg]
    omega

theorem numSeconds_le_iff {micros maxAge : Int} (h : 0 ≤ maxAge) :
    numSeconds micros ≤ maxAge ↔ micros < (maxAge + 1) * 1000000 := by
  unfold numSeconds
  rcases le_or_gt 0 micros with hm | hm
  · rw [Int.tdiv_eq_ediv_of_nonneg hm]
    omega
  · have hneg : micros.tdiv 1000000 = -((-micros) / 1000000) := by
      rw [← Int.tdiv_eq_ediv_of_nonneg (by omega : 0 ≤ -micros), Int.neg_tdiv, Int.neg_neg]
    rw [hneg]
    omega

theorem accepted_iff (p : PolicyBridgeParams) (now : Instant) (hit : ListingHit) :
    accepted p.minIntelConfidence p.maxEvidenceAgeSeconds now hit = true ↔ OnTerms p now hit := by
  unfold accepted recentEnough OnTerms age
  simp only [Bool.and_eq_true, decide_eq_true_eq]
  constructor
  · rintro ⟨hconf, hage⟩
    exact ⟨hconf, by omega⟩
  · rintro ⟨hconf, hage⟩
    exact ⟨hconf, by omega⟩

/-- The engine and the SQL agree on a listing exactly if it is clear. -/
theorem usable_eq_accepted_iff (p : PolicyBridgeParams) (now : Instant) (hit : ListingHit) :
    isUsable p.minIntelConfidence p.maxEvidenceAgeSeconds now hit =
        accepted p.minIntelConfidence p.maxEvidenceAgeSeconds now hit ↔ Clear p now hit := by
  unfold isUsable accepted recentEnough Clear Borderline
  have hsign := numSeconds_nonneg_iff (age now hit.lastSeen)
  have hold : ((now : Int) - p.maxEvidenceAgeSeconds * 1000000 ≤ (hit.lastSeen : Int)) ↔
      age now hit.lastSeen ≤ p.maxEvidenceAgeSeconds * 1000000 := by
    unfold age
    constructor <;> intro h <;> omega
  generalize age now hit.lastSeen = a at *
  generalize p.maxEvidenceAgeSeconds = m at *
  by_cases hconf : p.minIntelConfidence ≤ (hit.confidence : Int)
  · rw [Bool.eq_iff_iff]
    simp only [Bool.and_eq_true, decide_eq_true_eq, hconf, true_and, forall_const, hsign, hold]
    rcases le_or_gt 0 m with hm | hm
    · rw [numSeconds_le_iff hm]
      omega
    · have hnone : ¬ (-1000000 < a ∧ numSeconds a ≤ m) := by
        rintro ⟨hlow, hle⟩
        have := hsign.2 hlow
        omega
      constructor
      · intro h
        have := fun hle => hnone (h.2 hle)
        omega
      · intro h
        exact ⟨fun hu => absurd hu hnone, fun hle => absurd (Or.inr ⟨hm, hle⟩) h⟩
  · simp [hconf]

/-! ## A view -/

/-- What an option keeps of itself tells its two filters apart. -/
theorem map_filter_eq_iff {α β : Type} {f g : α → Bool} {h : α → β} {a : α} :
    ((some a).filter f).map h = ((some a).filter g).map h ↔ f a = g a := by
  cases hf : f a <;> cases hg : g a <;> simp [Option.filter, hf, hg]

theorem isSome_filter {α : Type} {f : α → Bool} {o : Option α} :
    (o.filter f).isSome = o.any f := by
  cases o with
  | none => rfl
  | some a => cases h : f a <;> simp [h]

theorem releaseAccepts_iff {p : PolicyBridgeParams} {now : Instant} {intel : SourceIntel}
    (hresolved : intel.resolved = true) (s : AssessmentRow) :
    releaseAccepts intel p.minIntelConfidence p.maxEvidenceAgeSeconds now = true ↔
      (planIntel p now intel s).isSome = true := by
  have hip := isSome_filter (f := accepted p.minIntelConfidence p.maxEvidenceAgeSeconds now)
    (o := intel.ip)
  have hasn := isSome_filter (f := accepted p.minIntelConfidence p.maxEvidenceAgeSeconds now)
    (o := intel.asn.map AsnListingHit.hit)
  rw [Option.any_map] at hasn
  unfold releaseAccepts planIntel
  rw [if_pos hresolved, hresolved, Bool.true_and, ← hip]
  -- the address is asked before the origin ASN, so the plan has a listing if either does
  cases hlisted : intel.ip.filter (accepted p.minIntelConfidence p.maxEvidenceAgeSeconds now) with
  | some hit => simp
  | none =>
    simp only [isSome_none, Bool.false_or, isSome_map]
    rw [hasn]

/-! ## The three together -/

/-- An address listing that both accept decides for both; otherwise the origin ASN does. -/
theorem qualifyingListing_eq_planIntel_iff {p : PolicyBridgeParams} {now : Instant}
    {intel : SourceIntel} (hresolved : intel.resolved = true) (s : AssessmentRow) :
    (qualifyingListing intel p.minIntelConfidence p.maxEvidenceAgeSeconds now).map (fun x =>
      (⟨x.1, x.2.source, x.2.confidence⟩ : PlanIntel)) = planIntel p now intel s ↔
      (∀ hit, intel.ip = some hit → Clear p now hit) ∧
        ((∃ hit, intel.ip = some hit ∧ OnTerms p now hit) ∨
          ∀ a, intel.asn = some a → Clear p now a.hit) := by
  have hasn : ((intel.asn.map AsnListingHit.hit).filter
        (isUsable p.minIntelConfidence p.maxEvidenceAgeSeconds now)).map
          (fun hit => (⟨.asn, hit.source, hit.confidence⟩ : PlanIntel)) =
      ((intel.asn.map AsnListingHit.hit).filter
        (accepted p.minIntelConfidence p.maxEvidenceAgeSeconds now)).map
          (fun hit => ⟨.asn, hit.source, hit.confidence⟩) ↔
      ∀ a, intel.asn = some a → Clear p now a.hit := by
    cases hasn : intel.asn with
    | none => simp
    | some a =>
      have hclear := usable_eq_accepted_iff p now a.hit
      rw [map_some, map_filter_eq_iff]
      simp [hclear]
  unfold qualifyingListing planIntel
  rw [if_pos hresolved]
  cases hip : intel.ip with
  | none => simpa [Function.comp_def] using hasn
  | some hit =>
    have hclear := usable_eq_accepted_iff p now hit
    have hterms := accepted_iff p now hit
    by_cases hsame : Clear p now hit
    · have husable := hclear.2 hsame
      cases ha : accepted p.minIntelConfidence p.maxEvidenceAgeSeconds now hit with
      | true =>
        -- both take the address
        rw [ha] at husable hterms
        simp [Option.filter, husable, ha, hsame, hterms.1 rfl]
      | false =>
        -- both turn to the origin ASN
        rw [ha] at husable hterms
        have hnot : ¬ OnTerms p now hit := fun h => absurd (hterms.2 h) (by decide)
        simpa [Option.filter, husable, ha, hsame, hnot, Function.comp_def] using hasn
    · -- one takes the address and the other does not
      have hdiffer := mt hclear.1 hsame
      cases hu : isUsable p.minIntelConfidence p.maxEvidenceAgeSeconds now hit <;>
        cases ha : accepted p.minIntelConfidence p.maxEvidenceAgeSeconds now hit <;>
        simp_all [Option.filter]

/-- The release has a listing exactly if the plan has one, so the engine decides alone
whether all three are of one mind: on the address's listing, and unless that is on terms, on
the origin ASN's. -/
theorem same_notion_iff {p : PolicyBridgeParams} {now : Instant} {intel : SourceIntel}
    (hresolved : intel.resolved = true) (s : AssessmentRow) :
    SameNotion p now intel s ↔
      (∀ hit, intel.ip = some hit → Clear p now hit) ∧
        ((∃ hit, intel.ip = some hit ∧ OnTerms p now hit) ∨
          ∀ a, intel.asn = some a → Clear p now a.hit) := by
  rw [← qualifyingListing_eq_planIntel_iff hresolved s]
  refine ⟨And.left, fun hsame => ⟨hsame, ?_⟩⟩
  rw [releaseAccepts_iff hresolved s, ← hsame, isSome_map]

/-! ## Half a second past the maximum -/

def hourParams : PolicyBridgeParams :=
  ⟨.automatic, "nftables.block_incident_source", 3600, none, some "ssh_bruteforce", 3600, true, 80,
    5, 3600⟩

def listedAt (lastSeen : Instant) : SourceIntel :=
  ⟨true, some ⟨"spamhaus_drop", 90, lastSeen⟩, none, none, false⟩

def judgedAssessment : AssessmentRow :=
  { id := 1, ruleId := "ssh_bruteforce", ruleVersion := "1", engineVersion := "1",
    dedupeKey := "1", resource := "ip-pseudonym:1", severity := "high", confidence := 90,
    summary := "", eventCount := 5, windowSeconds := 300, bucketStart := 0, firstSeen := 0,
    lastSeen := 0, incidentId := none, threatIntelCorroborated := false, threatIntel := none }

theorem same_notion_fresh :
    (listedAt 5000000000).resolved = true ∧
      SameNotion hourParams 8600000000 (listedAt 5000000000) judgedAssessment := by
  refine ⟨rfl, (same_notion_iff rfl judgedAssessment).2 ⟨?_, Or.inr ?_⟩⟩
  · intro hit hhit
    cases hhit
    unfold Clear Borderline
    decide
  · intro a ha
    cases ha

/-- A listing of 3600.5 s under a maximum of 3600 s makes the decision; the plan and the
release refuse it. -/
theorem engine_alone_accepts :
    (qualifyingListing (listedAt 5000000000) hourParams.minIntelConfidence
      hourParams.maxEvidenceAgeSeconds 8600500000).isSome = true ∧
    planIntel hourParams 8600500000 (listedAt 5000000000) judgedAssessment = none ∧
    releaseAccepts (listedAt 5000000000) hourParams.minIntelConfidence
      hourParams.maxEvidenceAgeSeconds 8600500000 = false ∧
    ¬ SameNotion hourParams 8600500000 (listedAt 5000000000) judgedAssessment := by
  refine ⟨by decide, by decide, by decide, ?_⟩
  intro hsame
  exact absurd hsame.1 (by decide)

end Clawforge.Bridge

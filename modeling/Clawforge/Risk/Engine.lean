import Clawforge.Intelligence.Network
import Clawforge.Kit.Tracked

/-!
# The risk engine

Bounded risk and trust calculations: the negative signals of an observation, each capped,
the allowances a verified registration and a good route earn, and the scores they give.
The arithmetic is that of the source's `u16` and `i16`.
-/

namespace Clawforge.Risk

open Clawforge.Intelligence Clawforge.Net Kit Tracked List

structure RiskSignals where
  ipReputation : Nat
  asnReputation : Nat
  behavior : Nat
  history : Nat
  hostingContext : Bool
  bgpHijack : Bool
  reasons : List String
deriving DecidableEq

structure RiskAssessment where
  riskScore : Nat
  trustScore : Nat
  negativeScore : Nat
  trustAdjustment : Int
  reasons : List String
deriving DecidableEq

/-! ## Trust -/

section Trust

variable (parseIpNet : String → Option IpNet) (observation : NetworkObservation)
  (network : TrustedNetwork)

def identifierMatch : Bool :=
  observation.identifier.any (fun value => network.identifier ≠ "" && value = network.identifier)

def nodeMatch : Bool :=
  observation.nodeIdentity.any (fun value => value ∈ network.nodeIdentities)

def networkMatch : Bool :=
  observation.ip.any (fun ip => (parseIpAddr ip.toList).any (fun address =>
    network.networks.any (fun cidr => (parseIpNet cidr).any (fun range =>
      range.contains address))))

/-- A registration speaks for the observation. -/
def speaksFor : Bool :=
  network.isVerified && (identifierMatch observation network || nodeMatch observation network ||
    networkMatch parseIpNet observation network)

end Trust

/-- `TrustEngine::verified_match`: the first registration that speaks for the observation,
and whether it knows the node. -/
def verifiedMatch (parseIpNet : String → Option IpNet) (registrations : List TrustedNetwork)
    (observation : NetworkObservation) : Option (TrustedNetwork × Bool) :=
  (registrations.find? (speaksFor parseIpNet observation)).map
    (fun network => (network, nodeMatch observation network))

/-! ## Threat -/

/-- The distinct sources of the indicators. -/
def sourcesOf (indicators : List Indicator) : List String :=
  (indicators.map Indicator.source).dedup

/-- The strongest indicator, capped. -/
def strongest (indicators : List Indicator) : Nat :=
  (indicators.map (fun i => min i.confidence 50)).foldl max 0

/-- `threat`: the strongest indicator, raised by ten for each further source. -/
def threatOf (indicators : List Indicator) : Tracked Nat :=
  let sources := (sourcesOf indicators).length
  if 1 < sources then do
    let count ← unsigned 16 sources
    let further ← unsigned 16 (count - 1)
    let bonus ← unsigned 16 (further * 10)
    let raised ← unsigned 16 (strongest indicators + (min bonus 20 : Nat))
    return min raised 50
  else return strongest indicators

/-! ## Scores -/

/-- What is added to the threat. -/
def negativeTerms (observation : NetworkObservation) (signals : RiskSignals) : List Nat :=
  [ min signals.ipReputation 30, min signals.asnReputation 30, min signals.behavior 50
  , min signals.history 20, if signals.hostingContext then 5 else 0
  , if signals.bgpHijack then 30 else 0
  , match observation.bgpStatus with
    | .changed => 10
    | .anomalous => 20
    | _ => 0
  , if observation.rpkiStatus = .invalid then 20 else 0 ]

/-- What is taken off for trust; `node` says whether a registration matched and knew the
node. -/
def allowances (observation : NetworkObservation) (node : Option Bool) : List Nat :=
  (match node with
    | none => []
    | some false => [40]
    | some true => [40, 10]) ++
    (if observation.rpkiStatus = .valid then [20] else []) ++
    (if observation.bgpStatus = .stable then [10] else []) ++ [min observation.historyScore 20]

/-- The reasons in the order they are pushed. -/
def reasonsOf (observation : NetworkObservation) (indicators : List Indicator)
    (signals : RiskSignals) (node : Option Bool) : List String :=
  signals.reasons ++
    (if 1 < (sourcesOf indicators).length then ["corroborated independent intelligence"]
      else []) ++
    (if observation.rpkiStatus = .invalid then ["RPKI invalid"] else []) ++
    (if signals.hostingContext then ["known hosting or cloud ASN context"] else []) ++
    (if signals.bgpHijack then ["BGP hijack or route anomaly signal"] else []) ++
    (match node with
      | none => []
      | some false => ["verified trusted infrastructure"]
      | some true => ["verified trusted infrastructure", "known node identity"]) ++
    (if observation.rpkiStatus = .valid then ["RPKI valid"] else []) ++
    (if observation.bgpStatus = .stable then ["stable BGP route"] else [])

/-- `clamp(0, 100)`. -/
def clamp (n : Int) : Int := max 0 (min n 100)

/-- The part of `evaluate` after the threat and the registration are known. -/
def assess (observation : NetworkObservation) (signals : RiskSignals) (threat : Nat)
    (node : Option Bool) (reasons : List String) : Tracked RiskAssessment := do
  let sum ← (negativeTerms observation signals).foldlM
    (fun acc (term : Nat) => unsigned 16 ((acc : Int) + term)) threat
  let negative := min sum 100
  let adjustment ← (allowances observation node).foldlM
    (fun acc (term : Nat) => signed 16 (acc - term)) 0
  -- `i16::try_from(negative).unwrap_or(100)`
  let signedNegative : Int := if negative < 2 ^ 15 then negative else 100
  let total ← signed 16 (signedNegative + adjustment)
  let riskScore ← unsigned 8 (clamp total)
  let mirrored ← signed 16 (-adjustment)
  let trustScore ← unsigned 8 (clamp mirrored)
  let negativeScore ← unsigned 8 negative
  return { riskScore, trustScore, negativeScore, trustAdjustment := adjustment, reasons }

/-- `RiskEngine::evaluate`. -/
def evaluate (parseIpNet : String → Option IpNet) (registrations : List TrustedNetwork)
    (observation : NetworkObservation) (indicators : List Indicator) (signals : RiskSignals) :
    Tracked RiskAssessment := do
  let threat ← threatOf indicators
  let node := (verifiedMatch parseIpNet registrations observation).map Prod.snd
  assess observation signals threat node (reasonsOf observation indicators signals node)

/-! ## What the arithmetic gives -/

theorem sum_negativeTerms_le (observation : NetworkObservation) (signals : RiskSignals) :
    (negativeTerms observation signals).sum ≤ 205 := by
  simp only [negativeTerms, sum_cons, sum_nil]
  split <;> split <;> split <;> split <;> omega

theorem sum_allowances_le (observation : NetworkObservation) (node : Option Bool) :
    (allowances observation node).sum ≤ 100 := by
  simp only [allowances, sum_append, sum_singleton]
  have hnode : (match node with
      | none => ([] : List Nat)
      | some false => [40]
      | some true => [40, 10]).sum ≤ 50 := by
    split <;> decide
  have hrpki : (if observation.rpkiStatus = .valid then [20] else ([] : List Nat)).sum ≤ 20 := by
    split <;> decide
  have hbgp : (if observation.bgpStatus = .stable then [10] else ([] : List Nat)).sum ≤ 10 := by
    split <;> decide
  omega

theorem clamp_bounds (n : Int) : 0 ≤ clamp n ∧ clamp n ≤ 100 := by
  unfold clamp
  omega

theorem clamp_mono {m n : Int} (h : m ≤ n) : clamp m ≤ clamp n := by
  unfold clamp
  omega

/-- The negative score of a threat. -/
def negativeOf (observation : NetworkObservation) (signals : RiskSignals) (threat : Nat) : Nat :=
  min (threat + (negativeTerms observation signals).sum) 100

/-- The trust adjustment of a match. -/
def adjustmentOf (observation : NetworkObservation) (node : Option Bool) : Int :=
  -((allowances observation node).sum : Int)

/-- The scores without machine arithmetic. -/
def scores (observation : NetworkObservation) (signals : RiskSignals) (threat : Nat)
    (node : Option Bool) (reasons : List String) : RiskAssessment where
  riskScore :=
    (clamp (negativeOf observation signals threat + adjustmentOf observation node)).toNat
  trustScore := (clamp (-adjustmentOf observation node)).toNat
  negativeScore := negativeOf observation signals threat
  trustAdjustment := adjustmentOf observation node
  reasons := reasons

theorem unsigned_clamp (n : Int) : unsigned 8 (clamp n) = pure (clamp n).toNat := by
  have h := clamp_bounds n
  exact unsigned_of_fits h.1 (by omega)

/-- A capped threat leaves every later operation exact. -/
theorem assess_eq {observation : NetworkObservation} {signals : RiskSignals} {threat : Nat}
    {node : Option Bool} {reasons : List String} (hthreat : threat ≤ 50) :
    assess observation signals threat node reasons =
      pure (scores observation signals threat node reasons) := by
  have hterms := sum_negativeTerms_le observation signals
  have hallow := sum_allowances_le observation node
  have hnegative : min (threat + (negativeTerms observation signals).sum) 100 < 2 ^ 15 := by omega
  have hadjust : (allowances observation node).foldlM
      (fun acc (term : Nat) => signed 16 (acc - term)) 0 =
        pure (adjustmentOf observation node) := by
    rw [foldlM_signed (w := 15) (by omega) (by omega), zero_sub, adjustmentOf]
  have htotal : signed 16 ((negativeOf observation signals threat : Int) +
      adjustmentOf observation node) = pure _ :=
    signed_of_fits (by unfold adjustmentOf; omega) (by unfold negativeOf adjustmentOf; omega)
  have hmirrored : signed 16 (-adjustmentOf observation node) = pure _ :=
    signed_of_fits (by unfold adjustmentOf; omega) (by unfold adjustmentOf; omega)
  have hscore : unsigned 8 (negativeOf observation signals threat : Int) = pure _ :=
    unsigned_of_fits (by omega) (by unfold negativeOf; omega)
  rw [assess, foldlM_unsigned (by omega), Tracked.pure_bind, hadjust, Tracked.pure_bind]
  dsimp only
  rw [if_pos hnegative]
  change signed 16 ((negativeOf observation signals threat : Int) + _) >>= _ = _
  rw [htotal, Tracked.pure_bind, unsigned_clamp, Tracked.pure_bind, hmirrored,
    Tracked.pure_bind, unsigned_clamp, Tracked.pure_bind]
  change unsigned 8 (negativeOf observation signals threat : Int) >>= _ = _
  rw [hscore, Tracked.pure_bind]
  rfl

theorem foldl_max_le {ns : List Nat} {a b : Nat} (ha : a ≤ b) (h : ∀ n ∈ ns, n ≤ b) :
    ns.foldl max a ≤ b := by
  induction ns generalizing a with
  | nil => exact ha
  | cons n ns ih =>
    exact ih (Nat.max_le.2 ⟨ha, h n mem_cons_self⟩)
      (fun m hm => h m (mem_cons_of_mem _ hm))

theorem strongest_le (indicators : List Indicator) : strongest indicators ≤ 50 := by
  apply foldl_max_le (Nat.zero_le _)
  intro n hn
  obtain ⟨i, -, rfl⟩ := List.mem_map.1 hn
  exact Nat.min_le_right _ _

theorem threatOf_le (indicators : List Indicator) : (threatOf indicators).value ≤ 50 := by
  unfold threatOf
  dsimp only
  split
  · exact Nat.min_le_right _ _
  · exact strongest_le indicators

/-- Only the threat can lose something. -/
theorem evaluate_eq (parseIpNet : String → Option IpNet) (registrations : List TrustedNetwork)
    (observation : NetworkObservation) (indicators : List Indicator) (signals : RiskSignals) :
    evaluate parseIpNet registrations observation indicators signals =
      let node := (verifiedMatch parseIpNet registrations observation).map Prod.snd
      ⟨scores observation signals (threatOf indicators).value node
        (reasonsOf observation indicators signals node), (threatOf indicators).lossless⟩ :=
  bind_of_pure (assess_eq (threatOf_le indicators))

theorem lossless_evaluate (parseIpNet : String → Option IpNet)
    (registrations : List TrustedNetwork) (observation : NetworkObservation)
    (indicators : List Indicator) (signals : RiskSignals) :
    (evaluate parseIpNet registrations observation indicators signals).lossless =
      (threatOf indicators).lossless := by
  rw [evaluate_eq]

end Clawforge.Risk

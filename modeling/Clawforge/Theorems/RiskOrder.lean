import Clawforge.Risk.Engine
import Mathlib.Data.List.Dedup
import Mathlib.Data.List.Perm.Basic

/-!
# Which order of the registrations matters

Trust comes from the first registration that speaks for an observation, and only that one
is asked for the node. Registrations that speak for one observation, some with its node and
some without, give different results in different orders; nothing else does
(`order_free_iff`).
-/

namespace Clawforge.Risk

open Clawforge.Intelligence Clawforge.Net Kit List Option

/-- The same scores, and the same set of reasons. -/
def SameResult (a b : RiskAssessment) : Prop :=
  a.riskScore = b.riskScore ∧ a.trustScore = b.trustScore ∧
    a.negativeScore = b.negativeScore ∧ a.trustAdjustment = b.trustAdjustment ∧
    ∀ reason, reason ∈ a.reasons ↔ reason ∈ b.reasons

section Order

variable (parseIpNet : String → Option IpNet) (registrations : List TrustedNetwork)
  (observation : NetworkObservation) (indicators : List Indicator) (signals : RiskSignals)

/-- No order matters, a known node earns the node adjustment wherever its registration
stands, and only verified registrations count. -/
def OrderFree : Prop :=
  (∀ registrations' indicators', registrations'.Perm registrations →
    indicators'.Perm indicators →
    SameResult (evaluate parseIpNet registrations' observation indicators' signals).value
      (evaluate parseIpNet registrations observation indicators signals).value) ∧
  ((∃ network ∈ registrations, network.isVerified = true ∧
      nodeMatch observation network = true) →
    ∀ registrations', registrations'.Perm registrations →
      (evaluate parseIpNet registrations' observation indicators signals).value.trustAdjustment =
        (evaluate parseIpNet [] observation indicators signals).value.trustAdjustment - 50) ∧
  ∀ registrations', registrations'.filter TrustedNetwork.isVerified =
      registrations.filter TrustedNetwork.isVerified →
    evaluate parseIpNet registrations' observation indicators signals =
      evaluate parseIpNet registrations observation indicators signals

/-- The registrations that speak for the observation agree on its node. -/
def NodeAgreed : Prop :=
  ∀ a ∈ registrations, ∀ b ∈ registrations, speaksFor parseIpNet observation a = true →
    speaksFor parseIpNet observation b = true → nodeMatch observation a = nodeMatch observation b

end Order

section Proof

variable {parseIpNet : String → Option IpNet} {registrations : List TrustedNetwork}
  {observation : NetworkObservation} {indicators : List Indicator} {signals : RiskSignals}

/-! ## Indicators -/

theorem threatOf_perm {indicators' : List Indicator} (h : indicators'.Perm indicators) :
    threatOf indicators' = threatOf indicators ∧
      (sourcesOf indicators').length = (sourcesOf indicators).length := by
  have hsources : (sourcesOf indicators').length = (sourcesOf indicators).length :=
    ((h.map Indicator.source).dedup).length_eq
  have hstrongest : strongest indicators' = strongest indicators :=
    (h.map _).foldl_eq' (fun m _ n _ a => max_right_comm a m n) 0
  refine ⟨?_, hsources⟩
  rw [threatOf, threatOf, hsources, hstrongest]

/-! ## Registrations -/

/-- The node flag of the registration that is found. -/
theorem verifiedMatch_node :
    (verifiedMatch parseIpNet registrations observation).map Prod.snd =
      (registrations.find? (speaksFor parseIpNet observation)).map (nodeMatch observation) := by
  rw [verifiedMatch, Option.map_map]
  rfl

theorem nodeOf_perm (hagree : NodeAgreed parseIpNet registrations observation)
    {registrations' : List TrustedNetwork} (h : registrations'.Perm registrations) :
    (verifiedMatch parseIpNet registrations' observation).map Prod.snd =
      (verifiedMatch parseIpNet registrations observation).map Prod.snd := by
  rw [verifiedMatch_node, verifiedMatch_node]
  cases hfound : registrations.find? (speaksFor parseIpNet observation) with
  | none =>
    have hnone : registrations'.find? (speaksFor parseIpNet observation) = none := by
      rw [find?_eq_none] at hfound ⊢
      exact fun network hmem => hfound network (h.mem_iff.1 hmem)
    rw [hnone]
  | some a =>
    cases hfound' : registrations'.find? (speaksFor parseIpNet observation) with
    | none =>
      exact absurd (find?_some hfound) (find?_eq_none.1 hfound' a
        (h.mem_iff.2 (mem_of_find?_eq_some hfound)))
    | some b =>
      have hb : b ∈ registrations := h.mem_iff.1 (mem_of_find?_eq_some hfound')
      have ha : a ∈ registrations := mem_of_find?_eq_some hfound
      rw [map_some, map_some,
        hagree b hb a ha (find?_some hfound') (find?_some hfound)]

theorem speaksFor_of_node {network : TrustedNetwork} (hverified : network.isVerified = true)
    (hnode : nodeMatch observation network = true) :
    speaksFor parseIpNet observation network = true := by
  rw [speaksFor, hverified, hnode]
  simp

theorem adjustmentOf_node (observation : NetworkObservation) :
    adjustmentOf observation (some true) = adjustmentOf observation none - 50 := by
  simp only [adjustmentOf, allowances, sum_append, sum_cons, sum_nil]
  omega

theorem adjustmentOf_injective {a b : Bool}
    (h : adjustmentOf observation (some a) = adjustmentOf observation (some b)) : a = b := by
  cases a <;> cases b
  · rfl
  · simp only [adjustmentOf, allowances, sum_append, sum_cons, sum_nil] at h
    omega
  · simp only [adjustmentOf, allowances, sum_append, sum_cons, sum_nil] at h
    omega
  · rfl

/-- Only verified registrations are looked at. -/
theorem verifiedMatch_filter :
    verifiedMatch parseIpNet (registrations.filter TrustedNetwork.isVerified) observation =
      verifiedMatch parseIpNet registrations observation := by
  rw [verifiedMatch, verifiedMatch, find?_filter]
  congr 2
  funext network
  cases hverified : network.isVerified <;> simp [speaksFor, hverified]

/-! ## Results -/

theorem sameResult_of_node {registrations' : List TrustedNetwork} {indicators' : List Indicator}
    (hnode : (verifiedMatch parseIpNet registrations' observation).map Prod.snd =
      (verifiedMatch parseIpNet registrations observation).map Prod.snd)
    (h : indicators'.Perm indicators) :
    SameResult (evaluate parseIpNet registrations' observation indicators' signals).value
      (evaluate parseIpNet registrations observation indicators signals).value := by
  obtain ⟨hthreat, hsources⟩ := threatOf_perm h
  rw [evaluate_eq, evaluate_eq, hthreat, hnode]
  have hreasons : reasonsOf observation indicators' signals =
      reasonsOf observation indicators signals := by
    funext node
    simp only [reasonsOf, hsources]
  rw [hreasons]
  exact ⟨rfl, rfl, rfl, rfl, fun _ => Iff.rfl⟩

theorem order_free_of_agreed (hagree : NodeAgreed parseIpNet registrations observation) :
    OrderFree parseIpNet registrations observation indicators signals := by
  refine ⟨fun _ _ hregs hinds => sameResult_of_node (nodeOf_perm hagree hregs) hinds, ?_, ?_⟩
  · rintro ⟨network, hmem, hverified, hnode⟩ registrations' hperm
    have hspeaks := @speaksFor_of_node parseIpNet _ _ hverified hnode
    have hfound : (verifiedMatch parseIpNet registrations observation).map Prod.snd =
        some true := by
      rw [verifiedMatch_node]
      cases hfind : registrations.find? (speaksFor parseIpNet observation) with
      | none => exact absurd hspeaks (find?_eq_none.1 hfind network hmem)
      | some a =>
        rw [map_some, hagree a (mem_of_find?_eq_some hfind) network hmem
          (find?_some hfind) hspeaks, hnode]
    rw [evaluate_eq, evaluate_eq, nodeOf_perm hagree hperm, hfound]
    exact adjustmentOf_node observation
  · intro registrations' hsame
    rw [evaluate_eq, evaluate_eq, ← verifiedMatch_filter, hsame, verifiedMatch_filter]

end Proof

/-- A registration that speaks for the observation is found when it comes first. -/
theorem adjustment_of_first (parseIpNet : String → Option IpNet)
    (observation : NetworkObservation) (indicators : List Indicator) (signals : RiskSignals)
    (network : TrustedNetwork) (rest : List TrustedNetwork)
    (h : speaksFor parseIpNet observation network = true) :
    (evaluate parseIpNet (network :: rest) observation indicators signals).value.trustAdjustment =
      adjustmentOf observation (some (nodeMatch observation network)) := by
  rw [evaluate_eq, verifiedMatch_node, find?_cons_of_pos h]
  rfl

/-- The result is that of the sets exactly if the registrations that speak for the
observation agree on its node. -/
theorem order_free_iff (parseIpNet : String → Option IpNet)
    (registrations : List TrustedNetwork) (observation : NetworkObservation)
    (indicators : List Indicator) (signals : RiskSignals) :
    OrderFree parseIpNet registrations observation indicators signals ↔
      NodeAgreed parseIpNet registrations observation := by
  refine ⟨?_, order_free_of_agreed⟩
  rintro ⟨hperm, -, -⟩ a ha b hb hspeaksA hspeaksB
  -- either of the two may be moved to the front
  have hfront : ∀ network ∈ registrations, speaksFor parseIpNet observation network = true →
      adjustmentOf observation (some (nodeMatch observation network)) =
        (evaluate parseIpNet registrations observation indicators
          signals).value.trustAdjustment := by
    intro network hmem hspeaks
    rw [← adjustment_of_first parseIpNet observation indicators signals network
      (registrations.erase network) hspeaks]
    exact (hperm _ _ (perm_cons_erase hmem).symm (Perm.refl _)).2.2.2.1
  exact adjustmentOf_injective ((hfront a ha hspeaksA).trans (hfront b hb hspeaksB).symm)

/-! ## One owner, two registrations -/

/-- A registration of the owner's identifier and one that knows the node. -/
def ownerNetwork : TrustedNetwork := ⟨"owner", [], [], .verified⟩

def nodeNetwork : TrustedNetwork := ⟨"", [], ["node-1"], .verified⟩

def ownedObservation : NetworkObservation :=
  ⟨none, some "owner", some "node-1", .unknown, .unknown, 0⟩

def quietSignals : RiskSignals := ⟨0, 0, 0, 0, false, false, []⟩

theorem known_node_depends_on_order :
    (evaluate readIpNet [nodeNetwork, ownerNetwork] ownedObservation []
        quietSignals).value.trustAdjustment = -50 ∧
      (evaluate readIpNet [ownerNetwork, nodeNetwork] ownedObservation []
        quietSignals).value.trustAdjustment = -40 ∧
      ¬ OrderFree readIpNet [ownerNetwork, nodeNetwork] ownedObservation [] quietSignals := by
  have hnode := adjustment_of_first readIpNet ownedObservation [] quietSignals nodeNetwork
    [ownerNetwork] (by decide)
  have howner := adjustment_of_first readIpNet ownedObservation [] quietSignals ownerNetwork
    [nodeNetwork] (by decide)
  refine ⟨hnode.trans (by decide), howner.trans (by decide), ?_⟩
  rintro ⟨hperm, -, -⟩
  have hsame := (hperm _ _ (Perm.swap ownerNetwork nodeNetwork []) (Perm.refl [])).2.2.2.1
  rw [hnode, howner] at hsame
  exact absurd hsame (by decide)

end Clawforge.Risk

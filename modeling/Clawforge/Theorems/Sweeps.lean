import Clawforge.Executor.Sweeps

/-!
# What a rollback sweep may do

The typestate of the three sweeps: what a sweep has been answered whenever it rolls a rule back,
resolves or gives up a generation, or marks a kill-switch request as processed.
-/

namespace Clawforge.Executor

open Clawforge.Firewall Clawforge.RuleIntents Kit List
open Clawforge.Quarantine (RecoveryOutcome)
open EventDelivery (uuidText)

abbrev SweepHistory := List (Prog.Event SweepCall.Answer)

variable {t t' : SweepHistory} {id : Uuid} {rollback : Option Rollback}

/-! ## Justified calls -/

/-- The call has been answered so. -/
def Saw (t : SweepHistory) (c : SweepCall) (answer : c.Answer) : Prop := ⟨c, answer⟩ ∈ t

/-- The rollback was made and succeeded. -/
def RolledBack (t : SweepHistory) (rollback : Option Rollback) : Prop :=
  ∃ kind action, rollback = some (kind, action) ∧ Saw t (.rollback kind action) (.ok ())

/-- The generation was restored by the sweep itself, or found restored or never applied. -/
inductive Over (t : SweepHistory) (id : Uuid) : Prop
  | restored (i : FirewallRuleIntent) : Saw t (.acquireGuard id) (.ok (some i)) →
      i.status ≠ .prepared → RolledBack t (generationRollback id i) →
      Saw t (.resolveRollback id) (.ok ()) → Over t id
  | resolved (i : FirewallRuleIntent) : Saw t (.acquireGuard id) (.ok none) →
      Saw t (.intent id) (.ok (some i)) → i.status = .rolledBack ∨ i.status = .notApplied → Over t id

/-- The request is done: its quarantine generation is over, or the generation that owned its
target is, or no generation owned the target and it was rolled back with a receipt. -/
inductive Done (t : SweepHistory) (r : KillSwitchRequest) : Prop
  | quarantine (id : Uuid) (outcome : RecoveryOutcome) : r.quarantineIntentId = some id →
      Saw t (.recoverQuarantine id) (.ok outcome) → isOver outcome = true → Done t r
  | generation (id : Uuid) : r.quarantineIntentId = none →
      Saw t (.activeGenerationFor r.adapter r.targetFingerprint) (.ok (some id)) → Over t id →
      Done t r
  | target : r.quarantineIntentId = none → isQuarantine r.adapter = false →
      Saw t (.activeGenerationFor r.adapter r.targetFingerprint) (.ok none) →
      RolledBack t r.rollback →
      Saw t (.recordReceipt r.adapter "kill-switch-rollback" r.targetFingerprint) (.ok ()) →
      Done t r

/-- Whose rule a rollback undoes: that of a guarded generation that is not in flight, that of a
request whose target no generation owned, or that of an expired receipt. -/
inductive Owed (t : SweepHistory) (adapter : String) (rollback : Option Rollback) : Prop
  | generation (id : Uuid) (i : FirewallRuleIntent) : Saw t (.acquireGuard id) (.ok (some i)) →
      i.status ≠ .prepared → i.adapter = adapter → generationRollback id i = rollback →
      Owed t adapter rollback
  | killSwitch (pending : List KillSwitchRequest) (r : KillSwitchRequest) :
      Saw t .pendingKillSwitch (.ok pending) → r ∈ pending → isQuarantine r.adapter = false →
      Saw t (.activeGenerationFor r.adapter r.targetFingerprint) (.ok none) →
      r.adapter = adapter → r.rollback = rollback → Owed t adapter rollback
  | expired (listed : List ExpiredTarget) (x : ExpiredTarget) :
      Saw t .expiredTargets (.ok listed) → x ∈ listed → isQuarantine x.adapter = false →
      x.adapter = adapter → x.rollback = rollback → Owed t adapter rollback

/-- What must have been answered before a call. -/
def Justified (t : SweepHistory) : SweepCall → Prop
  | .rollback kind action => ∃ adapter lease,
      Saw t (.beginInflight adapter) (.ok (some lease)) ∧ Owed t adapter (some (kind, action))
  | .recoveryRequired id => ∃ i, Saw t (.acquireGuard id) (.ok (some i)) ∧
      (i.status = .prepared → Saw t (.hasActiveLease i.executionId) (.ok false))
  | .resolveRollback id => ∃ i, Saw t (.acquireGuard id) (.ok (some i)) ∧ i.status ≠ .prepared ∧
      RolledBack t (generationRollback id i)
  | .markProcessed request => ∃ pending r, Saw t .pendingKillSwitch (.ok pending) ∧ r ∈ pending ∧
      r.requestId = request ∧ Done t r
  | _ => True

/-! ## Longer histories -/

theorem Saw.mono {c : SweepCall} {answer : c.Answer} (h : Saw t c answer) (hle : t <+: t') :
    Saw t' c answer :=
  hle.subset h

theorem saw_last (t : SweepHistory) (c : SweepCall) (answer : c.Answer) :
    Saw (t ++ [⟨c, answer⟩]) c answer :=
  mem_append_right _ (mem_singleton.2 rfl)

theorem Owed.mono {adapter : String} (h : Owed t adapter rollback) (hle : t <+: t') :
    Owed t' adapter rollback := by
  cases h with
  | generation id i hguard hstatus hadapter hown =>
    exact .generation id i (hguard.mono hle) hstatus hadapter hown
  | killSwitch pending r hlisted hr hkind hnone hadapter hown =>
    exact .killSwitch pending r (hlisted.mono hle) hr hkind (hnone.mono hle) hadapter hown
  | expired listed x hlisted hx hkind hadapter hown =>
    exact .expired listed x (hlisted.mono hle) hx hkind hadapter hown

theorem RolledBack.mono (h : RolledBack t rollback) (hle : t <+: t') : RolledBack t' rollback := by
  obtain ⟨kind, action, hrollback, hsaw⟩ := h
  exact ⟨kind, action, hrollback, hsaw.mono hle⟩

/-! ## The typestate -/

/-- A part of a sweep makes justified calls only and ends in a history with `post`. -/
abbrev Sweeps {α : Type} (post : SweepHistory → α → Prop) (t : SweepHistory) (p : Sweep α) : Prop :=
  Prog.Guided (fun t c ans => t ++ [⟨c, ans⟩]) Justified (fun _ _ => True)
    (fun t' a => post t' a ∧ t <+: t') t p

theorem sweeps_pure {α : Type} {post : SweepHistory → α → Prop} {a : α} (h : post t a) :
    Sweeps post t (.pure a) :=
  ⟨h, prefix_refl t⟩

theorem sweeps_call {α : Type} {post : SweepHistory → α → Prop} {c : SweepCall}
    {k : c.Answer → Sweep α} (hc : Justified t c)
    (hk : ∀ answer, Sweeps post (t ++ [⟨c, answer⟩]) (k answer)) : Sweeps post t (.call c k) :=
  ⟨hc, fun answer _ => (hk answer).mono fun _ _ h =>
    ⟨h.1, (prefix_append t _).trans h.2⟩⟩

theorem sweeps_bind {α β : Type} {mid : SweepHistory → α → Prop} {post : SweepHistory → β → Prop}
    {p : Sweep α} {f : α → Sweep β} (hp : Sweeps mid t p)
    (hf : ∀ t' a, t <+: t' → mid t' a → Sweeps post t' (f a)) : Sweeps post t (p.bind f) :=
  Prog.guided_bind (hp.mono fun t' a h =>
    (hf t' a h.2 h.1).mono fun _ _ h' => ⟨h'.1, h.2.trans h'.2⟩)

theorem sweeps_forEach {α : Type} {f : α → Sweep Unit} {l : List α}
    (hf : ∀ a ∈ l, ∀ t', t <+: t' → Sweeps (fun _ _ => True) t' (f a)) :
    Sweeps (fun _ _ => True) t (forEach f l) := by
  induction l generalizing t with
  | nil => exact sweeps_pure trivial
  | cons a rest ih =>
    refine sweeps_bind (hf a mem_cons_self t (prefix_refl t)) fun t' _ hle _ => ?_
    exact ih fun b hb u hu => hf b (mem_cons_of_mem a hb) u (hle.trans hu)

theorem reservedRollback_sweeps {adapter : String} (h : Owed t adapter rollback) :
    Sweeps (fun t' done => done = some true → RolledBack t' rollback) t
      (reservedRollback adapter rollback) := by
  refine sweeps_call trivial fun reserved => ?_
  have howed := h.mono (prefix_append t [⟨.beginInflight adapter, reserved⟩])
  have hreserved := saw_last t (.beginInflight adapter) reserved
  have hnone : ∀ u, Sweeps (fun t' done => done = some true → RolledBack t' rollback) u
      (.pure none) := fun u => sweeps_pure fun h => (by cases h)
  cases reserved with
  | error e => exact hnone _
  | ok room =>
    cases room with
    | none => exact hnone _
    | some lease =>
      cases rollback with
      | none => exact sweeps_call trivial fun _ => sweeps_pure fun h => (by cases h)
      | some rollback =>
        refine sweeps_call ⟨adapter, lease, hreserved, howed⟩ fun result => ?_
        refine sweeps_call trivial fun _ => sweeps_pure fun hdone => ?_
        cases result with
        | error e => cases hdone
        | ok _ => exact ⟨_, _, rfl, (saw_last _ _ _).mono (prefix_append _ _)⟩

theorem recover_sweeps (t : SweepHistory) (id : Uuid) :
    Sweeps (fun t' outcome => isOver outcome = true → Over t' id) t
      (recoverFirewallRuleGeneration id) := by
  have hlive : ∀ (u : SweepHistory) (outcome : RecoveryOutcome), isOver outcome = false →
      Sweeps (fun t' outcome => isOver outcome = true → Over t' id) u (.pure outcome) :=
    fun u outcome hlive => sweeps_pure fun hover => (by rw [hlive] at hover; cases hover)
  refine sweeps_call trivial fun acquired => ?_
  have hguard := saw_last t (.acquireGuard id) acquired
  cases acquired with
  | error e => exact hlive _ _ rfl
  | ok guard =>
    cases guard with
    | none =>
      refine sweeps_call trivial fun found => ?_
      have hfound := saw_last (t ++ [⟨.acquireGuard id, .ok none⟩]) (.intent id) found
      cases found with
      | error e => exact hlive _ _ rfl
      | ok intent =>
        cases intent with
        | none => exact hlive _ _ rfl
        | some i =>
          by_cases hstatus : i.status = .rolledBack ∨ i.status = .notApplied
          · exact sweeps_pure fun _ =>
              .resolved i (hguard.mono (prefix_append _ _)) hfound hstatus
          · exact hlive _ _ (by rw [if_neg hstatus]; rfl)
    | some i =>
      show Sweeps _ _ (if i.status = .prepared then _ else _)
      split
      · next hprepared =>
        -- in flight as long as its lease is active
        refine sweeps_call trivial fun lease => ?_
        have hlease := saw_last (t ++ [⟨.acquireGuard id, .ok (some i)⟩])
          (.hasActiveLease i.executionId) lease
        cases lease with
        | error e => exact hlive _ _ rfl
        | ok active =>
          cases active with
          | true => exact hlive _ _ rfl
          | false =>
            refine sweeps_call ⟨i, hguard.mono (prefix_append _ _), fun _ => hlease⟩ ?_
            exact fun _ => hlive _ _ rfl
      · next hstatus =>
        refine sweeps_bind
          (reservedRollback_sweeps (.generation id i hguard hstatus rfl rfl)) ?_
        intro u done hle hback
        have hguard := hguard.mono hle
        cases done with
        | none => exact hlive _ _ rfl
        | some success =>
          cases success with
          | false =>
            refine sweeps_call ⟨i, hguard, fun h => absurd h hstatus⟩ ?_
            exact fun _ => hlive _ _ rfl
          | true =>
            have hback := hback rfl
            refine sweeps_call ⟨i, hguard, hstatus, hback⟩ fun resolved => ?_
            cases resolved with
            | error e => exact hlive _ _ rfl
            | ok _ =>
              have hle := prefix_append u [⟨.resolveRollback id, .ok ()⟩]
              exact sweeps_pure fun _ =>
                .restored i (hguard.mono hle) hstatus (hback.mono hle) (saw_last _ _ _)

/-! ## Requests -/

section Request

variable {pending : List KillSwitchRequest} {r : KillSwitchRequest}

theorem markIf_sweeps {ended : Bool} (hlisted : Saw t .pendingKillSwitch (.ok pending))
    (hr : r ∈ pending) (hdone : ended = true → Done t r) :
    Sweeps (fun _ _ => True) t (markIf ended r) := by
  cases ended with
  | false => exact sweeps_pure trivial
  | true =>
    refine sweeps_call ⟨pending, r, hlisted, hr, rfl, hdone rfl⟩ ?_
    exact fun _ => sweeps_pure trivial

theorem processKillSwitch_sweeps (hlisted : Saw t .pendingKillSwitch (.ok pending))
    (hr : r ∈ pending) : Sweeps (fun _ _ => True) t (processKillSwitch r) := by
  unfold processKillSwitch
  split
  · next id hid =>
    refine sweeps_call trivial fun recovered => ?_
    have hrecovered := saw_last t (.recoverQuarantine id) recovered
    cases recovered with
    | error e => exact sweeps_pure trivial
    | ok outcome =>
      exact markIf_sweeps (hlisted.mono (prefix_append _ _)) hr
        fun hover => .quarantine id outcome hid hrecovered hover
  · next hid =>
    split
    · exact sweeps_pure trivial
    · next hkind =>
      have hkind : isQuarantine r.adapter = false := Bool.eq_false_iff.2 hkind
      refine sweeps_call trivial fun owner => ?_
      have howner := saw_last t (.activeGenerationFor r.adapter r.targetFingerprint) owner
      have hlisted := hlisted.mono
        (prefix_append t [⟨.activeGenerationFor r.adapter r.targetFingerprint, owner⟩])
      cases owner with
      | error e => exact sweeps_pure trivial
      | ok generation =>
        cases generation with
        | some id =>
          refine sweeps_bind (recover_sweeps _ id) fun u outcome hle hover => ?_
          exact markIf_sweeps (hlisted.mono hle) hr
            fun h => .generation id hid (howner.mono hle) (hover h)
        | none =>
          refine sweeps_bind (reservedRollback_sweeps
            (.killSwitch pending r hlisted hr hkind howner rfl rfl)) fun u done hle hback => ?_
          cases done with
          | none => exact sweeps_pure trivial
          | some success =>
            cases success with
            | false => exact sweeps_pure trivial
            | true =>
              refine sweeps_call trivial fun recorded => ?_
              have hrecorded := saw_last u (.recordReceipt r.adapter "kill-switch-rollback"
                r.targetFingerprint) recorded
              have hle' := hle.trans (prefix_append u [⟨.recordReceipt r.adapter
                "kill-switch-rollback" r.targetFingerprint, recorded⟩])
              refine markIf_sweeps (hlisted.mono hle') hr fun hok => ?_
              cases recorded with
              | error e => cases hok
              | ok _ =>
                exact .target hid hkind (howner.mono hle')
                  ((hback rfl).mono (prefix_append _ _)) hrecorded

end Request

theorem program_sweeps (sweep : SweepKind) :
    Sweeps (fun _ _ => True) [] sweep.program := by
  cases sweep with
  | generations =>
    refine sweeps_call trivial fun listed => ?_
    cases listed with
    | error e => exact sweeps_pure trivial
    | ok intents =>
      refine sweeps_forEach fun i _ t _ => ?_
      show Sweeps _ _ (if i.status = .recoveryRequired then _ else _)
      split
      · exact sweeps_pure trivial
      · exact sweeps_bind (recover_sweeps t i.id) fun _ _ _ _ => sweeps_pure trivial
  | killSwitch =>
    refine sweeps_call trivial fun listed => ?_
    have hlisted := saw_last [] .pendingKillSwitch listed
    cases listed with
    | error e => exact sweeps_pure trivial
    | ok pending =>
      refine sweeps_forEach fun r hr t hle => ?_
      exact processKillSwitch_sweeps (hlisted.mono hle) hr
  | expired =>
    refine sweeps_call trivial fun listed => ?_
    have hlisted := saw_last [] .expiredTargets listed
    cases listed with
    | error e => exact sweeps_pure trivial
    | ok expired =>
      refine sweeps_forEach fun x hx t hle => ?_
      show Sweeps _ _ (if isQuarantine x.adapter = true then _ else _)
      split
      · exact sweeps_pure trivial
      · next hkind =>
        refine sweeps_bind (reservedRollback_sweeps (.expired expired x (hlisted.mono hle) hx
          (Bool.eq_false_iff.2 hkind) rfl rfl)) fun u done _ _ => ?_
        cases done with
        | none => exact sweeps_pure trivial
        | some success =>
          cases success with
          | false => exact sweeps_pure trivial
          | true => exact sweeps_call trivial fun _ => sweeps_pure trivial

/-- Whatever the calls of a sweep are answered, and wherever it stops: a rule is rolled back only
under a reservation and where it is owed, a generation in flight is left to its owner, a generation
is resolved only after its own rollback succeeded, and a kill-switch request is processed only when
it is done. -/
theorem sweeps_justified (sweep : SweepKind) {h before after : SweepHistory}
    {e : Prog.Event SweepCall.Answer} (hexec : Prog.Exec sweep.program h ())
    (hsplit : h = before ++ e :: after) : Justified before e.call := by
  have hmay := (program_sweeps sweep).exec_may hexec (fun _ _ => trivial) hsplit
  rwa [Prog.advance_history] at hmay

/-! ## A sweep over two requests -/

/-- A generation that blocks an address. -/
def blockGeneration : FirewallRuleIntent where
  id := 12
  executionId := 40
  adapter := "nftables"
  actionName := "nftables.block_indicator"
  ruleScope := "blocklist"
  ruleFingerprint := "203.0.113.7/32"
  targetJson := RecoveryTarget.toJson ⟨"nftables", .threatIntelIndicator "203.0.113.7" "feed"⟩
  preflightState := .object []
  rollbackPlan := .object []
  ttlSeconds := 3600
  expiresAt := 3600000000
  createdAt := 0
  status := .completed
  completedAt := some 1
  errorSummary := none

def blockRollback : FirewallAction where
  target := .threatIntelIndicator "203.0.113.7" "feed"
  ttlSeconds := 3600
  reason := "firewall rule generation " ++ uuidText 12 ++ " ttl rollback"

theorem generationRollback_block :
    generationRollback 12 blockGeneration = some (.nftables, blockRollback) := by
  decide +kernel

/-- Requests for that rule, and for a quarantine generation. -/
def blockRequest : KillSwitchRequest := ⟨6, "nftables", "203.0.113.7/32", .null, none, none⟩

def quarantineRequest : KillSwitchRequest := ⟨7, "docker", "web", .null, none, some 3⟩

/-- The rule is rolled back under a reservation, its generation is resolved, and both requests are
processed. -/
def sweepBefore : SweepHistory :=
  [ ⟨.pendingKillSwitch, .ok [blockRequest, quarantineRequest]⟩
  , ⟨.activeGenerationFor "nftables" "203.0.113.7/32", .ok (some 12)⟩
  , ⟨.acquireGuard 12, .ok (some blockGeneration)⟩, ⟨.beginInflight "nftables", .ok (some 9)⟩ ]

def sweepAfter : SweepHistory :=
  [⟨.endInflight 9, .ok ()⟩, ⟨.resolveRollback 12, .ok ()⟩]

def sweepHistory : SweepHistory :=
  sweepBefore ++ ⟨.rollback .nftables blockRollback, .ok ()⟩ :: (sweepAfter ++
    [⟨.markProcessed 6, .ok ()⟩, ⟨.recoverQuarantine 3, .ok .restored⟩, ⟨.markProcessed 7, .ok ()⟩])

theorem exec_blockRollback :
    Prog.Exec (reservedRollback "nftables" (generationRollback 12 blockGeneration))
      [⟨.beginInflight "nftables", .ok (some 9)⟩, ⟨.rollback .nftables blockRollback, .ok ()⟩,
        ⟨.endInflight 9, .ok ()⟩] (some true) := by
  rw [generationRollback_block]
  exact .call _ _ _ (.call _ _ _ (.call _ _ _ (.pure _)))

theorem exec_recoverBlock : Prog.Exec (recoverFirewallRuleGeneration 12)
    (⟨.acquireGuard 12, .ok (some blockGeneration)⟩ ::
      ⟨.beginInflight "nftables", .ok (some 9)⟩ ::
        ⟨.rollback .nftables blockRollback, .ok ()⟩ :: sweepAfter) .restored := by
  refine .call _ _ _ (Prog.exec_bind.2
    ⟨_, [⟨.resolveRollback 12, .ok ()⟩], some true, rfl, exec_blockRollback, ?_⟩)
  exact .call _ _ _ (.pure _)

theorem exec_blockRequest : Prog.Exec (processKillSwitch blockRequest)
    (sweepBefore.tail ++ ⟨.rollback .nftables blockRollback, .ok ()⟩ ::
      (sweepAfter ++ [⟨.markProcessed 6, .ok ()⟩])) () := by
  have hkind : ¬ isQuarantine blockRequest.adapter = true := by decide
  unfold processKillSwitch
  rw [if_neg hkind]
  refine .call _ _ _ (Prog.exec_bind.2
    ⟨_, [⟨.markProcessed 6, .ok ()⟩], .restored, rfl, exec_recoverBlock, ?_⟩)
  exact .call _ _ _ (.pure _)

theorem exec_sweepHistory : Prog.Exec SweepKind.killSwitch.program sweepHistory () := by
  refine .call _ _ _ (Prog.exec_bind.2 ⟨_, [⟨.recoverQuarantine 3, .ok .restored⟩,
    ⟨.markProcessed 7, .ok ()⟩], (), rfl, exec_blockRequest, ?_⟩)
  exact .call _ _ _ (.call _ _ _ (.pure ()))

theorem sweeps_justified_history :
    Justified sweepBefore (.rollback .nftables blockRollback) ∧
      Justified (sweepBefore ++ [⟨.rollback .nftables blockRollback, .ok ()⟩,
        ⟨.endInflight 9, .ok ()⟩]) (.resolveRollback 12) ∧
      Justified (sweepBefore ++ ⟨.rollback .nftables blockRollback, .ok ()⟩ :: sweepAfter)
        (.markProcessed 6) :=
  ⟨sweeps_justified (e := ⟨.rollback .nftables blockRollback, .ok ()⟩) .killSwitch
      exec_sweepHistory rfl,
    sweeps_justified (e := ⟨.resolveRollback 12, .ok ()⟩) .killSwitch exec_sweepHistory rfl,
    sweeps_justified (e := ⟨.markProcessed 6, .ok ()⟩) .killSwitch exec_sweepHistory rfl⟩

end Clawforge.Executor

import Clawforge.Executor.Dispatch
import Clawforge.Firewall.Contract

/-!
# What one adapter's dispatch can do

`apply_single_adapter` as a typestate: which calls it makes in which state of
its own knowledge (`Admitted`), and what its outcome says about that state
(`OutcomeSound`). Everything later about a dispatch, a fan-out or a crash
follows from this one proof over the program.
-/

namespace Clawforge.Executor

open Clawforge.Firewall Clawforge.RuleIntents Clawforge.Text Kit List

/-- What a dispatch knows from the answers so far. `present` is what the preflight reported;
`applies` are the live apply calls. -/
structure Facts where
  present : Option Bool
  prepareIssued : Bool
  prepared : Option Uuid
  applies : List (AdapterKind × FirewallAction)
  shown : Bool
  finished : Bool

def Facts.start : Facts := ⟨none, false, none, [], false, false⟩

/-- The facts after one answered call. -/
def Facts.observe (f : Facts) : (c : ExecCall) → c.Answer → Facts
  | .preflight _ _, .ok preflight => { f with present := some preflight.alreadyBlocked }
  | .preflight _ _, .error _ => f
  | .apply kind action false, _ => { f with applies := f.applies ++ [(kind, action)] }
  | .apply _ _ true, _ => f
  | .verify _ _, answer => { f with shown := verificationText answer == "verified" }
  | .prepare _, answer =>
    { f with prepareIssued := true, prepared := answer.toOption.or f.prepared }
  | .finish _ _, answer => { f with finished := answer.toOption.isSome }
  | .recoveryRequired _, _ => f
  | .resolveIncidentSource _, _ => f

/-- The live apply a call is. -/
def ExecCall.liveApply : ExecCall → Option (AdapterKind × FirewallAction)
  | .apply kind action false => some (kind, action)
  | _ => none

/-- The live apply calls of an execution. -/
def liveApplies (h : List (Prog.Event ExecCall.Answer)) : List (AdapterKind × FirewallAction) :=
  h.filterMap fun e => e.call.liveApply

theorem advance_applies (f : Facts) (h : List (Prog.Event ExecCall.Answer)) :
    (Prog.advance Facts.observe f h).applies = f.applies ++ liveApplies h := by
  induction h generalizing f with
  | nil => simp [Prog.advance, liveApplies]
  | cons e h ih =>
    show (Prog.advance Facts.observe (f.observe e.call e.answer) h).applies = _
    rw [ih]
    obtain ⟨call, answer⟩ := e
    cases call with
    | preflight kind target => cases answer <;> rfl
    | apply kind action dryRun =>
      cases dryRun with
      | true => rfl
      | false => simp [Facts.observe, liveApplies, ExecCall.liveApply]
    | verify | prepare | finish | recoveryRequired | resolveIncidentSource => rfl

/-- The answers a call can get: for an adapter's method, what the method can return. -/
def Answered (cfg : AdapterConfig) : (c : ExecCall) → c.Answer → Prop
  | .preflight kind target, r => ∃ h, Prog.Exec ((kind.adapter cfg).preflight target) h r
  | .apply kind action dryRun, r => ∃ h, Prog.Exec ((kind.adapter cfg).apply action dryRun) h r
  | .verify kind target, r => ∃ h, Prog.Exec ((kind.adapter cfg).verify target) h r
  | .prepare _, _ | .finish _ _, _ | .recoveryRequired _, _ | .resolveIncidentSource _, _ => True

/-- The answers of a dispatch that is alone: the host before its apply and after it, and a
store that commits. -/
def hosted (cfg : AdapterConfig) (before after : (c : HostCall) → c.Answer) :
    (c : ExecCall) → c.Answer
  | .preflight kind target => (Prog.play before ((kind.adapter cfg).preflight target)).2
  | .apply kind action dryRun => (Prog.play after ((kind.adapter cfg).apply action dryRun)).2
  | .verify kind target => (Prog.play after ((kind.adapter cfg).verify target)).2
  | .prepare _ => .ok 1
  | .finish _ _ | .recoveryRequired _ => .ok ()
  | .resolveIncidentSource _ => .ok (some ⟨"ip-pseudonym:1", "2001:db8::7"⟩)

theorem answered_hosted (cfg : AdapterConfig) (before after : (c : HostCall) → c.Answer)
    {α : Type} (p : Prog ExecCall.Answer α) :
    ∀ e ∈ (p.play (hosted cfg before after)).1, Answered cfg e.call e.answer := by
  intro e he
  rw [Prog.play_answers _ p e he]
  cases e.call with
  | preflight kind target => exact ⟨_, Prog.exec_play before _⟩
  | apply | verify => exact ⟨_, Prog.exec_play after _⟩
  | prepare | finish | recoveryRequired | resolveIncidentSource => exact trivial

/-- A host without `nft` whose HAProxy blocks nothing yet, or blocks the sample address. -/
def sampleHost (blocked : Bool) : (c : HostCall) → c.Answer
  | .command _ => .error "No such file or directory"
  | .adminSocket _ text =>
    .ok (if blocked && startsWith text "show acl" then "0x1 198.51.100.7" else "")
  | .readPolicy _ => .ok none
  | .writePolicy _ _ => .ok ()

def sampleConfig : AdapterConfig where
  neverBlock := neverBlockListFromConfigured none
  adminSocket := "/run/haproxy.sock"
  aclFile := "/etc/haproxy/blocklist.acl"
  rateLimitTable := "clawforge"
  policyFile := "/etc/go-away/clawforge.yml"
  reloadCommand := ["systemctl", "reload", "go-away"]
  fromStr := fun _ => none

def sampleAction : FirewallAction := ⟨.threatIntelIndicator "198.51.100.7" "feed", 600, ""⟩

theorem answered_apply_isDryRun {cfg : AdapterConfig} {kind : AdapterKind}
    {action : FirewallAction} {dryRun : Bool} {r : ApplyResult}
    (h : Answered cfg (.apply kind action dryRun) (.ok r)) : r.receipt.isDryRun = dryRun := by
  obtain ⟨history, hexec⟩ := h
  obtain ⟨plan, hdry, hplanned, hlive⟩ := (kind.contract cfg).planned action
  cases dryRun with
  | false =>
    obtain ⟨receipt, -, hr⟩ := hlive history r hexec
    rw [hr]
  | true =>
    rw [hdry] at hexec
    obtain ⟨-, hr⟩ := Prog.Exec.of_pure hexec
    cases hplan : plan with
    | error e =>
      rw [hplan] at hr
      cases hr
    | ok receipt =>
      rw [hplan] at hr
      cases hr
      exact hplanned receipt hplan

section

variable (cfg : AdapterConfig) (kind : AdapterKind) (action : FirewallAction) (dryRun : Bool)
  (journal : Option RuleJournal)

/-- The calls admitted in a state of knowledge. -/
def Admitted (f : Facts) : ExecCall → Prop
  | .preflight k target => k = kind ∧ target = action.target ∧ f.present = none ∧
      f.prepareIssued = false
  | .prepare args => dryRun = false ∧ f.present = some false ∧ f.prepareIssued = false ∧
      f.applies = [] ∧
      ∃ j rendered state, journal = some j ∧
        (kind.adapter cfg).render (receiptSafeAction action) = .ok rendered ∧
        args = prepareArgs cfg kind action j rendered state
  | .apply k a d => k = kind ∧ a = action ∧ d = dryRun ∧
      (dryRun = false → f.applies = [] ∧ (journal.isSome = true → f.prepared.isSome = true))
  | .verify k target => k = kind ∧ target = action.target
  | .finish id _ => f.prepared = some id ∧ f.applies ≠ [] ∧ f.shown = true
  | .recoveryRequired id => f.prepared = some id
  | .resolveIncidentSource _ => False

/-- What the outcome of one adapter says about what happened. -/
structure OutcomeSound (f : Facts) (o : GenericDispatchOutcome) : Prop where
  failed : o.completion = .failed →
    f.applies = [] ∧ f.prepared = none ∧ o.effect = .noMutation ∧ o.receipts = []
  recovery : o.completion = .recoveryRequired → dryRun = false ∧ f.applies = [(kind, action)]
  success : o.completion = .success → dryRun = false →
    f.applies = [(kind, action)] ∧ f.shown = true ∧
      ((∃ id, journal.isSome = true ∧ f.prepared = some id ∧ o.effect = .verifiedOwned id ∧
          f.finished = true) ∨
        (journal = none ∧ o.effect = .nonJournaled ∧
          ∃ receipt ∈ o.receipts, receipt.isDryRun = false))
  owned : ∀ id, f.prepared = some id →
    o.effect = .verifiedOwned id ∨ o.effect = .uncertainOwned id
  uncertain : ∀ id, o.effect = .uncertainOwned id → o.completion = .recoveryRequired
  dry : dryRun = true → f.applies = [] ∧ f.prepared = none ∧
    ∀ receipt ∈ o.receipts, receipt.isDryRun = true

/-- The typestate of one adapter's dispatch. -/
abbrev Sound (f : Facts) (p : Dispatch) : Prop :=
  Prog.Guided Facts.observe (Admitted cfg kind action dryRun journal) (Answered cfg)
    (OutcomeSound kind action dryRun journal) f p

variable {cfg kind action dryRun journal} {f : Facts} {preflightState : Json}

theorem sound_failed (happlies : f.applies = []) (hprepared : f.prepared = none) (reason : String) :
    Sound cfg kind action dryRun journal f (failed reason) where
  failed _ := ⟨happlies, hprepared, rfl, rfl⟩
  recovery h := by cases h
  success h := by cases h
  owned id h := by
    rw [hprepared] at h
    cases h
  uncertain id h := by cases h
  dry _ := ⟨happlies, hprepared, forall_mem_nil _⟩

/-! ## From the end of the program to its start -/

theorem sound_recovery {o : GenericDispatchOutcome} (hlive : dryRun = false)
    (happlies : f.applies = [(kind, action)]) (hcompletion : o.completion = .recoveryRequired)
    (howned : ∀ id, f.prepared = some id → o.effect = .uncertainOwned id) :
    OutcomeSound kind action dryRun journal f o where
  failed h := by
    rw [hcompletion] at h
    cases h
  recovery _ := ⟨hlive, happlies⟩
  success h := by
    rw [hcompletion] at h
    cases h
  owned id h := .inr (howned id h)
  uncertain _ _ := hcompletion
  dry h := by
    rw [hlive] at h
    cases h

theorem sound_uncertain {effect : FirewallEffect} (hlive : dryRun = false)
    (happlies : f.applies = [(kind, action)])
    (howned : ∀ id, f.prepared = some id → effect = .uncertainOwned id) :
    Sound cfg kind action dryRun journal f (uncertainOutcome kind action effect) :=
  ⟨⟨rfl, rfl⟩, fun _ _ => sound_recovery hlive happlies rfl howned⟩

theorem sound_recoverUnverified {p : Prepared} (hlive : dryRun = false)
    (happlies : f.applies = [(kind, action)]) (hprepared : f.prepared = some p.id)
    (verification : String) :
    Sound cfg kind action dryRun journal f (recoverUnverified kind p verification) := by
  refine ⟨hprepared, fun _ _ => sound_recovery hlive happlies rfl fun id hid => ?_⟩
  have hid : f.prepared = some id := hid
  rw [hprepared] at hid
  cases hid
  rfl

theorem sound_finishVerified {p : Prepared} {result : ApplyResult} (hlive : dryRun = false)
    (hjournal : journal.isSome = true) (happlies : f.applies = [(kind, action)])
    (hprepared : f.prepared = some p.id) (hshown : f.shown = true) :
    Sound cfg kind action dryRun journal f (finishVerified cfg kind p preflightState result) := by
  have howned : ∀ id, f.prepared = some id → p.id = id := by
    intro id hid
    rw [hprepared] at hid
    exact Option.some.inj hid
  refine ⟨⟨hprepared, by rw [happlies]; exact cons_ne_nil _ _, hshown⟩, fun finished _ => ?_⟩
  cases finished with
  | ok done =>
    exact
      { failed := fun h => by cases h
        recovery := fun h => by cases h
        success := fun _ _ =>
          ⟨happlies, hshown, .inl ⟨p.id, hjournal, hprepared, rfl, rfl⟩⟩
        owned := fun id hid => .inl (by rw [howned id hid])
        uncertain := fun id h => by cases h
        dry := fun h => by
          rw [hlive] at h
          cases h }
  | error e =>
    exact ⟨hprepared, fun _ _ => sound_recovery hlive happlies rfl fun id hid => by
      rw [howned id hid]⟩

/-- A live dispatch after its apply call, with the generation it prepared. -/
structure AfterApply (journal : Option RuleJournal) (prepared : Option Prepared) (f : Facts) :
    Prop where
  generation : f.prepared = prepared.map (·.id)
  journaled : prepared.isSome = journal.isSome

theorem sound_nonJournaled_live {result : ApplyResult} {verification : String}
    (hnone : journal = none) (happlies : f.applies = [(kind, action)])
    (hprepared : f.prepared = none) (hshown : f.shown = (verification == "verified"))
    (hreceipt : result.receipt.isDryRun = false) :
    Sound cfg kind action false journal f
      (.pure (nonJournaledOutcome cfg kind false preflightState result (some verification))) := by
  have hcompletion : (nonJournaledOutcome cfg kind false preflightState result
      (some verification)).completion =
        if verification = "verified" then .success else .recoveryRequired := by
    by_cases h : verification = "verified" <;> simp [nonJournaledOutcome, h]
  exact
    { failed := fun h => by
        rw [hcompletion] at h
        split at h <;> cases h
      recovery := fun _ => ⟨rfl, happlies⟩
      success := fun h _ => by
        rw [hcompletion] at h
        split at h
        · next hverified =>
          exact ⟨happlies, by simpa [hverified] using hshown,
            .inr ⟨hnone, rfl, _, mem_singleton_self _, hreceipt⟩⟩
        · cases h
      owned := fun id h => by
        rw [hprepared] at h
        cases h
      uncertain := fun id h => by cases h
      dry := fun h => by cases h }

theorem sound_settle_live {prepared : Option Prepared} {r : Except AdapterError ApplyResult}
    (happlies : f.applies = [(kind, action)]) (hafter : AfterApply journal prepared f)
    (hreceipt : ∀ result, r = .ok result → result.receipt.isDryRun = false) :
    Sound cfg kind action false journal f
      (settleApply cfg kind action false prepared preflightState r) := by
  have hprepared := hafter.generation
  cases r with
  | error e =>
    cases prepared with
    | some p =>
      refine ⟨hprepared, fun _ _ => sound_uncertain rfl happlies fun id hid => ?_⟩
      have hid : f.prepared = some id := hid
      rw [hprepared] at hid
      cases hid
      rfl
    | none =>
      refine sound_uncertain rfl happlies fun id hid => ?_
      rw [hprepared] at hid
      cases hid
  | ok result =>
    refine ⟨⟨rfl, rfl⟩, fun verified _ => ?_⟩
    -- the verification leaves the apply and the generation as they are
    have happlies' : (f.observe (.verify kind action.target) verified).applies =
      [(kind, action)] := happlies
    have hprepared' : (f.observe (.verify kind action.target) verified).prepared =
      prepared.map (·.id) := hprepared
    cases prepared with
    | some p =>
      show Sound cfg kind action false journal _ (if _ then _ else _)
      split
      · next hverified =>
        exact sound_finishVerified rfl hafter.journaled.symm happlies' hprepared'
          (by simp [Facts.observe, hverified])
      · exact sound_recoverUnverified rfl happlies' hprepared' _
    | none =>
      have hnone : journal = none := by simpa using hafter.journaled.symm
      exact sound_nonJournaled_live hnone happlies' hprepared' rfl (hreceipt result rfl)

theorem sound_nonJournaled_dry {result : ApplyResult} (happlies : f.applies = [])
    (hprepared : f.prepared = none) (hreceipt : result.receipt.isDryRun = true) :
    Sound cfg kind action true journal f
      (.pure (nonJournaledOutcome cfg kind true preflightState result none)) where
  failed h := by cases h
  recovery h := by cases h
  success _ h := by cases h
  owned id h := by
    rw [hprepared] at h
    cases h
  uncertain id h := by cases h
  dry _ := by
    refine ⟨happlies, hprepared, fun receipt hmem => ?_⟩
    rw [mem_singleton.mp hmem]
    exact hreceipt

theorem sound_settle_dry {r : Except AdapterError ApplyResult} (happlies : f.applies = [])
    (hprepared : f.prepared = none)
    (hreceipt : ∀ result, r = .ok result → result.receipt.isDryRun = true) :
    Sound cfg kind action true journal f
      (settleApply cfg kind action true none preflightState r) := by
  cases r with
  | error e => exact sound_failed happlies hprepared _
  | ok result => exact sound_nonJournaled_dry happlies hprepared (hreceipt result rfl)

/-- A rendered receipt is a dry run's. -/
theorem render_isDryRun {receipt : Firewall.FirewallActionReceipt}
    (h : (kind.adapter cfg).render action = .ok receipt) : receipt.isDryRun = true := by
  cases kind with
  | nftables =>
    obtain ⟨_, _, -, -, hreceipt⟩ := Nftables.render_ok cfg h
    rw [hreceipt]
    rfl
  | haproxy | haproxyRatelimit =>
    obtain ⟨_, -, hreceipt⟩ := RuntimeObject.render_ok cfg h
    rw [hreceipt]
    rfl
  | goaway =>
    obtain ⟨_, -, hreceipt⟩ := GoAway.render_ok cfg h
    rw [hreceipt]
    rfl

theorem sound_runApply_live {prepared : Option Prepared} (happlies : f.applies = [])
    (hafter : AfterApply journal prepared f) :
    Sound cfg kind action false journal f
      (runApply cfg kind action false prepared preflightState) := by
  have hgeneration : journal.isSome = true → f.prepared.isSome = true := by
    intro hjournal
    rw [hafter.generation, Option.isSome_map, hafter.journaled]
    exact hjournal
  refine ⟨⟨rfl, rfl, rfl, fun _ => ⟨happlies, hgeneration⟩⟩, fun r hr => ?_⟩
  refine sound_settle_live ?_ ⟨hafter.generation, hafter.journaled⟩ fun result hok => ?_
  · show f.applies ++ [(kind, action)] = _
    rw [happlies]
    rfl
  · subst hok
    exact answered_apply_isDryRun hr

theorem sound_runApply_dry (happlies : f.applies = []) (hprepared : f.prepared = none) :
    Sound cfg kind action true journal f
      (runApply cfg kind action true none preflightState) := by
  unfold runApply
  split
  · refine sound_settle_dry happlies hprepared fun result hok => ?_
    cases hrender : (kind.adapter cfg).render action with
    | error e =>
      rw [hrender] at hok
      cases hok
    | ok receipt =>
      rw [hrender] at hok
      cases hok
      exact render_isDryRun hrender
  · refine ⟨⟨rfl, rfl, rfl, fun h => by cases h⟩, fun r hr => ?_⟩
    refine sound_settle_dry happlies hprepared fun result hok => ?_
    subst hok
    exact answered_apply_isDryRun hr

/-- Nothing has happened but the preflight. -/
structure Inspected (dryRun alreadyBlocked : Bool) (f : Facts) : Prop where
  present : dryRun = false → f.present = some alreadyBlocked
  prepareIssued : f.prepareIssued = false
  prepared : f.prepared = none
  applies : f.applies = []

theorem sound_prepareApply {alreadyBlocked : Bool} (hf : Inspected dryRun alreadyBlocked f) :
    Sound cfg kind action dryRun journal f
      (prepareApply cfg kind action dryRun journal preflightState alreadyBlocked) := by
  cases dryRun with
  | true => exact sound_runApply_dry hf.applies hf.prepared
  | false =>
    cases journal with
    | none => exact sound_runApply_live hf.applies ⟨hf.prepared, rfl⟩
    | some j =>
      show Sound cfg kind action false (some j) f (if _ then _ else _)
      split
      · exact sound_failed hf.applies hf.prepared _
      · next hblocked =>
        cases hrender : (kind.adapter cfg).render (receiptSafeAction action) with
        | error e => exact sound_failed hf.applies hf.prepared _
        | ok rendered =>
          have hpresent : f.present = some false := by
            rw [hf.present rfl]
            simpa using hblocked
          refine ⟨⟨rfl, hpresent, hf.prepareIssued, hf.applies, j, rendered, preflightState,
            rfl, hrender, rfl⟩, fun answer _ => ?_⟩
          have happlies : (f.observe (.prepare (prepareArgs cfg kind action j rendered
            preflightState)) answer).applies = [] := hf.applies
          cases answer with
          | ok id => exact sound_runApply_live happlies ⟨rfl, rfl⟩
          | error e => exact sound_failed happlies hf.prepared _

/-- `apply_single_adapter` keeps its typestate, whatever it is answered. -/
theorem applySingleAdapter_sound :
    Sound cfg kind action dryRun journal .start
      (applySingleAdapter cfg kind action dryRun journal) := by
  refine ⟨⟨rfl, rfl, rfl, rfl⟩, fun answer _ => ?_⟩
  cases answer with
  | ok preflight => exact sound_prepareApply ⟨fun _ => rfl, rfl, rfl, rfl⟩
  | error e =>
    show Sound cfg kind action dryRun journal .start (if _ then _ else _)
    split
    · next hdry => exact sound_prepareApply ⟨fun hlive => by simp [hdry] at hlive, rfl, rfl, rfl⟩
    · exact sound_failed rfl rfl _

/-- A live dispatch of one adapter fails without an apply, or applies its action once. -/
theorem exec_liveApplies {h : List (Prog.Event ExecCall.Answer)} {o : GenericDispatchOutcome}
    (hexec : Prog.Exec (applySingleAdapter cfg kind action false journal) h o)
    (hanswered : ∀ e ∈ h, Answered cfg e.call e.answer) :
    (o.completion = .failed ∧ liveApplies h = []) ∨
      (o.completion ≠ .failed ∧ liveApplies h = [(kind, action)]) := by
  have hsound := Prog.Guided.exec applySingleAdapter_sound hexec hanswered
  have happlies : (Prog.advance Facts.observe .start h).applies = liveApplies h := by
    rw [advance_applies, Facts.start, nil_append]
  rw [← happlies]
  cases hc : o.completion with
  | failed => exact .inl ⟨rfl, (hsound.failed hc).1⟩
  | success => exact .inr ⟨by decide, (hsound.success hc rfl).1⟩
  | recoveryRequired => exact .inr ⟨by decide, (hsound.recovery hc).2⟩

end

end Clawforge.Executor

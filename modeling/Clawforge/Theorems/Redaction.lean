import Clawforge.Storage.RuleLedger
import Clawforge.Theorems.Preview

/-!
# Receipts of resolved sources

An adapter's receipt about a resolved incident source is a function of the pseudonym and of the
address family. The address decides only whether there is one, and the fingerprint in it is the
one of the pseudonymised action. The executor records more: the state the host showed before the
apply and the listing it returned after it, as the host wrote them. What is recorded is the same for
two addresses exactly if the host showed the same.
-/

namespace Clawforge.Executor

open Clawforge.Firewall Clawforge.Net Clawforge.RuleIntents Kit List

/-- Whether an address is IPv4, as the adapters normalise it. -/
def addressFamily (rawIp : String) : Option Bool :=
  (parseIpOrCidr rawIp).map fun parsed => parsed.1.isIpv4

/-- An action on an incident source that was resolved. -/
abbrev resolvedAction (rawIp pseudonym : String) (ttlSeconds : Nat) (reason : String) :
    FirewallAction :=
  ⟨.resolvedIncidentSource rawIp pseudonym, ttlSeconds, reason⟩

/-- All a receipt about a resolved source can say. -/
def sourceReceipt (cfg : AdapterConfig) (ipv4 : Bool) (pseudonym : String) (ttlSeconds : Nat) :
    AdapterKind → Firewall.FirewallActionReceipt
  | .nftables => Nftables.receipt (if ipv4 then blocklistSetV4 else blocklistSetV6)
      (placeholder pseudonym) ttlSeconds
  | .haproxy => (blocklistAcl cfg).receipt (placeholder pseudonym) ttlSeconds
  | .haproxyRatelimit => (rateLimitTable cfg).receipt (placeholder pseudonym) ttlSeconds
  | .goaway => GoAway.receipt cfg (placeholder pseudonym) ttlSeconds

theorem sourceReceipt_fingerprint (cfg : AdapterConfig) (ipv4 : Bool) (pseudonym : String)
    (ttlSeconds : Nat) (kind : AdapterKind) :
    (sourceReceipt cfg ipv4 pseudonym ttlSeconds kind).targetFingerprint =
      placeholder pseudonym := by
  cases kind <;> rfl

section

variable {cfg : AdapterConfig} {kind : AdapterKind} {rawIp pseudonym reason : String}
  {ttlSeconds : Nat}

/-! ## The plan -/

/-- A source whose address does not parse has no plan. -/
theorem validate_of_plannedReceipt {action : FirewallAction}
    {receipt : Firewall.FirewallActionReceipt}
    (h : plannedReceipt cfg kind action = .ok receipt) : action.target.validate = .ok () := by
  have hfirst : ∀ {α : Type} {next : Unit → Except AdapterError α} {a : α},
      (action.target.validate >>= next) = .ok a → action.target.validate = .ok () := by
    intro α next a hbind
    obtain ⟨_, hvalid, -⟩ := bind_ok hbind
    exact hvalid
  cases kind with
  | nftables | haproxy | haproxyRatelimit =>
    obtain ⟨mutate, hplan⟩ := map_fst_ok h
    exact hfirst hplan
  | goaway => exact hfirst h

theorem family_of_validate
    (h : (FirewallTarget.resolvedIncidentSource rawIp pseudonym).validate = .ok ()) :
    validatePseudonym pseudonym = .ok () ∧ ∃ ipv4, addressFamily rawIp = some ipv4 := by
  obtain ⟨_, hpseudonym, h⟩ := bind_ok h
  refine ⟨hpseudonym, ?_⟩
  cases hparse : parseIpOrCidr rawIp with
  | none =>
    rw [hparse] at h
    cases h
  | some parsed => exact ⟨parsed.1.isIpv4, by rw [addressFamily, hparse]; rfl⟩

/-- What a resolved source is planned to get: its receipt, unless its address is excluded. -/
theorem plannedReceipt_resolved {ipv4 : Bool} (hpseudonym : validatePseudonym pseudonym = .ok ())
    (hfamily : addressFamily rawIp = some ipv4) :
    plannedReceipt cfg kind (resolvedAction rawIp pseudonym ttlSeconds reason) =
      (checkNeverBlock cfg.neverBlock (.resolvedIncidentSource rawIp pseudonym)).map
        fun _ => sourceReceipt cfg ipv4 pseudonym ttlSeconds kind := by
  obtain ⟨⟨addr, prefixLen⟩, hparse, rfl⟩ := Option.map_eq_some_iff.1 hfamily
  have hvalid : (FirewallTarget.resolvedIncidentSource rawIp pseudonym).validate = .ok () := by
    simp [FirewallTarget.validate, hpseudonym, hparse, bind, Except.bind]
  have helement : elementReference (.resolvedIncidentSource rawIp pseudonym) =
      .ok (elementText addr prefixLen) := by
    rw [elementReference, targetAddress_of_parse rfl hparse]
    · rfl
    · intro pseudonym' h
      cases h
  have hset : Nftables.applySet (.resolvedIncidentSource rawIp pseudonym) =
      .ok (if addr.isIpv4 then blocklistSetV4 else blocklistSetV6) := by
    rw [Nftables.applySet, setName_of_parse rfl hparse]
    rfl
  cases hnever : checkNeverBlock cfg.neverBlock (.resolvedIncidentSource rawIp pseudonym) with
  | error e =>
    cases kind with
    | nftables =>
      rw [plannedReceipt, Nftables.plan, hvalid, hnever]
      rfl
    | haproxy | haproxyRatelimit =>
      rw [plannedReceipt, RuntimeObject.plan, hvalid, hnever]
      rfl
    | goaway =>
      rw [plannedReceipt, GoAway.dryPlan, hvalid, GoAway.plan, hnever]
      rfl
  | ok _ =>
    cases kind with
    | nftables =>
      rw [plannedReceipt, Nftables.plan, hvalid, hnever, helement, hset]
      rfl
    | haproxy | haproxyRatelimit =>
      rw [plannedReceipt, RuntimeObject.plan, hvalid, hnever, helement]
      rfl
    | goaway =>
      rw [plannedReceipt, GoAway.dryPlan, hvalid, GoAway.plan, hnever, helement]
      rfl

/-- The pseudonymised action renders whenever the list of exclusions is sound. -/
theorem render_incidentSource {list : List (IpAddr × Nat)}
    (hpseudonym : validatePseudonym pseudonym = .ok ()) (hlist : cfg.neverBlock = .ok list) :
    (kind.adapter cfg).render ⟨.incidentSource pseudonym, ttlSeconds, reason⟩ =
      .ok (sourceReceipt cfg true pseudonym ttlSeconds kind) := by
  have hnever : checkNeverBlock cfg.neverBlock (.incidentSource pseudonym) = .ok () := by
    rw [hlist]
    rfl
  have hvalid : (FirewallTarget.incidentSource pseudonym).validate = .ok () := hpseudonym
  cases kind with
  | nftables =>
    show Nftables.render cfg _ = _
    rw [Nftables.render, hvalid, hnever]
    rfl
  | haproxy =>
    show (blocklistAcl cfg).render cfg _ = _
    rw [RuntimeObject.render, hvalid, hnever]
    rfl
  | haproxyRatelimit =>
    show (rateLimitTable cfg).render cfg _ = _
    rw [RuntimeObject.render, hvalid, hnever]
    rfl
  | goaway =>
    show GoAway.render cfg _ = _
    rw [GoAway.render, hvalid, hnever]
    rfl

/-! ## The apply -/

/-- An apply reports the receipt it plans, whatever the host answers. -/
theorem exec_apply_receipt {action : FirewallAction} {dryRun : Bool}
    {h : List (Prog.Event HostCall.Answer)} {r : ApplyResult}
    (hexec : Prog.Exec ((kind.adapter cfg).apply action dryRun) h (.ok r)) :
    ∃ receipt, plannedReceipt cfg kind action = .ok receipt ∧
      r.receipt = { receipt with isDryRun := dryRun } ∧ (dryRun = true → r.observedState = none) := by
  obtain ⟨plan, hdry, hplanned, hlive⟩ := (kind.contract cfg).planned action
  cases dryRun with
  | false =>
    obtain ⟨receipt, hplan, hr⟩ := hlive h r hexec
    refine ⟨receipt, plans_iff.1 ?_, hr, (nomatch ·)⟩
    rw [Plans, hdry, hplan]
    exact .pure _
  | true =>
    rw [hdry] at hexec
    obtain ⟨-, hr⟩ := Prog.Exec.of_pure hexec
    cases hplan : plan with
    | error e =>
      rw [hplan] at hr
      cases hr
    | ok receipt =>
      rw [hplan] at hr
      cases hr
      have hisDryRun : { receipt with isDryRun := true } = receipt := by
        rw [← hplanned receipt hplan]
      refine ⟨receipt, plans_iff.1 ?_, hisDryRun.symm, fun _ => rfl⟩
      rw [Plans, hdry, hplan]
      exact .pure _

/-- A receipt about a resolved source says its pseudonym and its family. -/
theorem exec_apply_resolved {dryRun : Bool} {h : List (Prog.Event HostCall.Answer)}
    {r : ApplyResult}
    (hexec : Prog.Exec ((kind.adapter cfg).apply
      (resolvedAction rawIp pseudonym ttlSeconds reason) dryRun) h (.ok r)) :
    ∃ ipv4, addressFamily rawIp = some ipv4 ∧ validatePseudonym pseudonym = .ok () ∧
      (∃ list, cfg.neverBlock = .ok list) ∧
      r.receipt = { sourceReceipt cfg ipv4 pseudonym ttlSeconds kind with isDryRun := dryRun } ∧
      (dryRun = true → r.observedState = none) := by
  obtain ⟨receipt, hplan, hr, hobserved⟩ := exec_apply_receipt hexec
  obtain ⟨hpseudonym, ipv4, hfamily⟩ := family_of_validate (validate_of_plannedReceipt hplan)
  rw [plannedReceipt_resolved hpseudonym hfamily] at hplan
  have hlist : ∃ list, cfg.neverBlock = .ok list := by
    cases hnever : cfg.neverBlock with
    | error e =>
      rw [hnever] at hplan
      cases hplan
    | ok list => exact ⟨list, rfl⟩
  cases hnever : checkNeverBlock cfg.neverBlock (.resolvedIncidentSource rawIp pseudonym) with
  | error e =>
    rw [hnever] at hplan
    cases hplan
  | ok _ =>
    rw [hnever] at hplan
    cases hplan
    exact ⟨ipv4, hfamily, hpseudonym, hlist, hr, hobserved⟩

/-! ## Finding the rule -/

/-- The generation just prepared is found by its adapter and fingerprint, if no other one of them
is active. -/
theorem activeFirewallRuleGenerationFor_prepared {L L' : Ledger} {args : PrepareArgs} {id : Uuid}
    {now : Instant} (hprepare : prepareFirewallRuleIntent L args id now = .ok L')
    (honly : ∀ g ∈ L.intents, g.adapter = args.adapter → g.ruleFingerprint = args.ruleFingerprint →
      g.status.active = false) :
    activeFirewallRuleGenerationFor L' args.adapter args.ruleFingerprint = some id := by
  have hrows := Table.rows_insert? (prepare_change hprepare).2
  have hothers : L.intents.rows.find? (fun r => r.adapter = args.adapter &&
      r.ruleFingerprint = args.ruleFingerprint && r.status.active) = none := by
    refine find?_eq_none.2 fun g hg hfound => ?_
    simp only [Bool.and_eq_true, decide_eq_true_eq] at hfound
    exact Bool.false_ne_true ((honly g hg hfound.1.1 hfound.1.2).symm.trans hfound.2)
  have hnew : (preparedRow args id now).adapter = args.adapter ∧
      (preparedRow args id now).ruleFingerprint = args.ruleFingerprint ∧
      (preparedRow args id now).status.active = true := ⟨rfl, rfl, rfl⟩
  rw [activeFirewallRuleGenerationFor, hrows, find?_append, hothers, Option.none_or,
    find?_cons_of_pos (by simp [hnew])]
  rfl

/-! ## What is recorded -/

/-- The state of the host an answer shows, as a receipt records it. -/
def observedBy (cfg : AdapterConfig) : (c : ExecCall) → c.Answer → Option Json
  | .preflight _ _, .ok preflight => some (adapterStateJson cfg preflight.rawSetJson)
  | .preflight _ _, .error _ =>
    some (Json.ofFields [("status", .string "preflight_unavailable"), ("mode", .string "dry_run")])
  | .apply _ _ _, .ok result => result.observedState.map (adapterStateJson cfg)
  | _, _ => none

/-- What the host showed during a dispatch. -/
def observations (cfg : AdapterConfig) (h : List (Prog.Event ExecCall.Answer)) : List Json :=
  h.filterMap fun e => observedBy cfg e.call e.answer

theorem observations_cons (e : Prog.Event ExecCall.Answer) (h : List (Prog.Event ExecCall.Answer)) :
    observations cfg (e :: h) = (observedBy cfg e.call e.answer).toList ++ observations cfg h := by
  cases hobserved : observedBy cfg e.call e.answer with
  | none => exact filterMap_cons_none hobserved
  | some state => exact filterMap_cons_some hobserved

/-- The receipt a call records. Its `target_json`, the snapshot for a recovery, is returned by no
listing and left out here. -/
def ExecCall.recorded : ExecCall → Option FirewallActionReceiptInput
  | .finish _ input => some { input with targetJson := none }
  | _ => none

/-- The receipts of a dispatch: those it records itself and those it returns to be recorded. -/
def receiptsOf (h : List (Prog.Event ExecCall.Answer)) (o : GenericDispatchOutcome) :
    List FirewallActionReceiptInput × List FirewallDispatchReceipt :=
  (h.filterMap fun e => e.call.recorded, o.receipts)

/-- The one receipt of a dispatch about a resolved source, of what the host showed. -/
def sourceReceipts (cfg : AdapterConfig) (kind : AdapterKind) (journal : RuleJournal)
    (safe : Firewall.FirewallActionReceipt) (dryRun : Bool) (state : Json) (result : ApplyResult) :
    List FirewallActionReceiptInput × List FirewallDispatchReceipt :=
  if dryRun then ([], (nonJournaledOutcome cfg kind true state result none).receipts)
  else ([{ finishInput cfg ⟨0, safe.targetFingerprint, .null, commandsPlan safe.rollbackCommands,
    safe.ttlSeconds, journal⟩ state result with targetJson := none }], [])

/-- A dispatch records nothing, or the receipt of an apply and of what it observed. -/
theorem exec_receiptsOf {journal : RuleJournal} {dryRun : Bool}
    {h : List (Prog.Event ExecCall.Answer)} {o : GenericDispatchOutcome}
    (hexec : Prog.Exec (applySingleAdapter cfg kind
      (resolvedAction rawIp pseudonym ttlSeconds reason) dryRun (some journal)) h o)
    (hanswered : ∀ e ∈ h, Answered cfg e.call e.answer) :
    receiptsOf h o = ([], []) ∨ ∃ safe state result history,
      (dryRun = false → (kind.adapter cfg).render ⟨.incidentSource pseudonym, ttlSeconds, reason⟩ =
        .ok safe) ∧
      Prog.Exec ((kind.adapter cfg).apply
        (resolvedAction rawIp pseudonym ttlSeconds reason) dryRun) history (.ok result) ∧
      observations cfg h = state :: (result.observedState.map (adapterStateJson cfg)).toList ∧
      receiptsOf h o = sourceReceipts cfg kind journal safe dryRun state result := by
  have hfailed : ∀ {reason : String} {rest : List (Prog.Event ExecCall.Answer)},
      Prog.Exec (failed reason) rest o → rest = [] ∧ o.receipts = [] := by
    intro reason rest hexec
    obtain ⟨rfl, rfl⟩ := hexec.of_pure
    exact ⟨rfl, rfl⟩
  obtain ⟨answer, rest, rfl, hrest⟩ := hexec.of_call
  -- what was observed by the preflight, and how the dispatch goes on with it
  have hstate : ∃ state, observedBy cfg (.preflight kind _) answer = some state ∧
      ((rest = [] ∧ o.receipts = []) ∨ ∃ blocked, Prog.Exec (prepareApply cfg kind
        (resolvedAction rawIp pseudonym ttlSeconds reason) dryRun (some journal) state blocked)
        rest o) := by
    cases answer with
    | ok preflight => exact ⟨_, rfl, .inr ⟨_, hrest⟩⟩
    | error e =>
      refine ⟨_, rfl, ?_⟩
      cases dryRun with
      | true => exact .inr ⟨false, hrest⟩
      | false => exact .inl (hfailed hrest)
  obtain ⟨state, hobserved, hnone | ⟨blocked, hprepare⟩⟩ := hstate
  · left
    rw [hnone.1, receiptsOf, hnone.2]
    rfl
  have hcons : observations cfg (⟨.preflight kind _, answer⟩ :: rest) =
      state :: observations cfg rest := filterMap_cons_some hobserved
  rw [hcons]
  have hanswered : ∀ e ∈ rest, Answered cfg e.call e.answer :=
    fun e he => hanswered e (mem_cons_of_mem _ he)
  show receiptsOf rest o = _ ∨ ∃ _ _ _ _, _ ∧ _ ∧ _ ∧ receiptsOf rest o = _
  cases dryRun with
  | true =>
    obtain ⟨answer, rest, rfl, hsettle⟩ := hprepare.of_call
    cases answer with
    | error e =>
      obtain ⟨rfl, hnone⟩ := hfailed hsettle
      left
      rw [receiptsOf, hnone]
      rfl
    | ok result =>
      obtain ⟨rfl, rfl⟩ := Prog.Exec.of_pure hsettle
      obtain ⟨history, happly⟩ := hanswered _ mem_cons_self
      refine .inr ⟨⟨"", [], [], true, 0, ""⟩, state, result, history, (nomatch ·), happly, ?_, rfl⟩
      rw [observations_cons]
      exact congrArg (List.cons state) (append_nil _)
  | false =>
    change Prog.Exec (if blocked = true then _ else _) rest o at hprepare
    split at hprepare
    · left
      rw [(hfailed hprepare).1, receiptsOf, (hfailed hprepare).2]
      rfl
    · split at hprepare
      · left
        rw [(hfailed hprepare).1, receiptsOf, (hfailed hprepare).2]
        rfl
      · next safe hsafe =>
        obtain ⟨answer, rest₁, rfl, hrun⟩ := hprepare.of_call
        cases answer with
        | error e =>
          left
          rw [(hfailed hrun).1, receiptsOf, (hfailed hrun).2]
          rfl
        | ok id =>
          obtain ⟨answer, rest₂, rfl, hsettle⟩ := Prog.Exec.of_call hrun
          obtain ⟨history, happly⟩ :=
            hanswered _ (mem_cons_of_mem _ mem_cons_self)
          cases answer with
          | error e =>
            obtain ⟨_, rest₃, rfl, hmarked⟩ := Prog.Exec.of_call hsettle
            obtain ⟨_, rest₄, rfl, hend⟩ := Prog.Exec.of_call hmarked
            obtain ⟨rfl, rfl⟩ := Prog.Exec.of_pure hend
            exact .inl rfl
          | ok result =>
            obtain ⟨verified, rest₃, rfl, hverified⟩ := Prog.Exec.of_call hsettle
            change Prog.Exec (if verificationText verified = "verified" then _ else _) rest₃ o
              at hverified
            split at hverified
            · obtain ⟨finished, rest₄, rfl, hfinished⟩ := Prog.Exec.of_call hverified
              have hrest : observations cfg rest₄ = [] ∧ receiptsOf rest₄ o = ([], []) := by
                cases finished with
                | ok _ =>
                  obtain ⟨rfl, rfl⟩ := Prog.Exec.of_pure hfinished
                  exact ⟨rfl, rfl⟩
                | error _ =>
                  obtain ⟨_, _, rfl, hend⟩ := Prog.Exec.of_call hfinished
                  obtain ⟨rfl, rfl⟩ := Prog.Exec.of_pure hend
                  exact ⟨rfl, rfl⟩
              refine .inr ⟨safe, state, result, history, fun _ => hsafe, happly, ?_, ?_⟩
              · rw [observations_cons, observations_cons, observations_cons, observations_cons, hrest.1]
                exact congrArg (List.cons state) (append_nil _)
              · have hfields := Prod.mk.inj hrest.2
                unfold receiptsOf sourceReceipts
                rw [hfields.2]
                refine Prod.ext ?_ rfl
                show _ :: List.filterMap _ rest₄ = _
                rw [hfields.1]
                rfl
            · obtain ⟨_, rest₄, rfl, hend⟩ := Prog.Exec.of_call hverified
              obtain ⟨rfl, rfl⟩ := Prog.Exec.of_pure hend
              exact .inl rfl

end

/-- A HAProxy that blocks nothing yet, or the one address. -/
def blocking (rawIp : Option String) : (c : HostCall) → c.Answer
  | .adminSocket _ text =>
    .ok (if Text.startsWith text "show acl" then (rawIp.map ("0x1 " ++ ·)).getD "" else "")
  | c => sampleHost false c

/-- The live dispatch of a block of the resolved source, on that host. -/
def blockRun (rawIp : String) : List (Prog.Event ExecCall.Answer) × GenericDispatchOutcome :=
  (applySingleAdapter sampleConfig .haproxy (resolvedAction rawIp "ip-pseudonym:1" 600 "") false
    (some ⟨7, "haproxy.block"⟩)).play (hosted sampleConfig (blocking none) (blocking (some rawIp)))

theorem addressFamily_samples : addressFamily "198.51.100.7" = addressFamily "203.0.113.9" := by
  decide_cbv

/-- The state the dispatch records after its apply. -/
def listed (rawIp : String) : Json := Json.ofFields [("raw", .string ("0x1 " ++ rawIp))]

theorem listed_samples : listed "198.51.100.7" ≠ listed "203.0.113.9" := by
  intro hsame
  have hraw := congrArg (fun value => (value.get "raw").bind Json.asStr) hsame
  exact absurd hraw (by decide)

end Clawforge.Executor

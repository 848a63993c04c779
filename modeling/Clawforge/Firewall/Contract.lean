import Clawforge.Firewall.Adapter
import Clawforge.Kit.Fallible

/-!
# The adapter contract

What the executor relies on and every adapter keeps: `preflight` and `verify`
only read, a dry run calls nothing, a live apply runs the adapter's one
mutation and reads, and the receipt of an apply is the one the dry run plans.
-/

namespace Clawforge.Firewall

open Clawforge.Text Kit List
open Prog (exec_except_bind_ok uses_except_bind)

/-- A call that cannot change the host: a listing, or the policy file read. -/
def HostCall.reads : HostCall → Bool
  | .command argv => argv.take 3 == ["nft", "-j", "list"]
  | .adminSocket _ text => startsWith text "show "
  | .readPolicy _ => true
  | .writePolicy _ _ => false

/-- The mutation a live apply of `action` runs. -/
def AdapterKind.Mutation (cfg : AdapterConfig) (action : FirewallAction) (call : HostCall) :
    AdapterKind → Prop
  | .nftables => ∃ setName element, action.target.setName = .ok (some setName) ∧
      elementReference action.target = .ok element ∧
      call = .command (Nftables.addCommand setName element action.ttlSeconds)
  | .haproxy => ∃ element, elementReference action.target = .ok element ∧
      call = .adminSocket cfg.adminSocket ((blocklistAcl cfg).addCommand element)
  | .haproxyRatelimit => ∃ element, elementReference action.target = .ok element ∧
      call = .adminSocket cfg.adminSocket ((rateLimitTable cfg).addCommand element)
  | .goaway => call.reads = false

/-- The contract of one adapter. -/
structure AdapterContract (a : FirewallAdapter) (mutation : FirewallAction → HostCall → Prop) :
    Prop where
  preflight_reads : ∀ target, Prog.Uses (fun c => c.reads = true) (a.preflight target)
  verify_reads : ∀ target, Prog.Uses (fun c => c.reads = true) (a.verify target)
  apply_mutates : ∀ action,
    Prog.Uses (fun c => c.reads = true ∨ mutation action c) (a.apply action false)
  /-- a dry run calls nothing and plans the receipt of the live run -/
  planned : ∀ action, ∃ plan : Except AdapterError FirewallActionReceipt,
    a.apply action true = ExceptT.mk (Prog.pure (plan.map fun receipt => ⟨receipt, none⟩)) ∧
    (∀ receipt, plan = .ok receipt → receipt.isDryRun = true) ∧
    ∀ h r, Prog.Exec (a.apply action false) h (.ok r) →
      ∃ receipt, plan = .ok receipt ∧ r.receipt = { receipt with isDryRun := false }

variable {P : HostCall → Prop} {h : List (Prog.Event HostCall.Answer)} {target : FirewallTarget}
  {α : Type} {r : Preflight}

/-- A program that only reads. -/
abbrev Reads {α : Type} (p : Prog HostCall.Answer α) : Prop :=
  Prog.Uses (fun c => c.reads = true) p

/-! ## Steps of a method -/

theorem uses_lift (x : Except AdapterError α) :
    Prog.Uses P (liftM x : Method α) := trivial

theorem uses_askHost {call : HostCall} (h : P call) (wrap : String → AdapterError) :
    Prog.Uses P (askHost call wrap) :=
  ⟨h, fun _ => trivial⟩

theorem uses_return (a : α) : Prog.Uses P (pure a : Method α) := trivial

theorem uses_throw (e : AdapterError) : Prog.Uses P (throw e : Method α) := trivial

theorem startsWith_append (head rest : String) : startsWith (head ++ rest) head = true := by
  simp [startsWith, String.toList_append]

theorem map_fst_ok {ε β : Type} {x : Except ε (α × β)} {a : α} (h : x.map Prod.fst = .ok a) :
    ∃ b, x = .ok (a, b) := by
  cases x with
  | error e => cases h
  | ok pair =>
    cases h
    exact ⟨pair.2, rfl⟩

/-- A check that passed leaves the rest of the method to run. -/
theorem exec_lift_bind_ok {β : Type} {x : Except AdapterError α} {f : α → Method β} {b : β}
    (hexec : Prog.Exec (liftM x >>= f : Method β) h (.ok b)) :
    ∃ a, x = .ok a ∧ Prog.Exec (f a) h (.ok b) := by
  obtain ⟨h₁, h₂, a, rfl, hfirst, hrest⟩ := exec_except_bind_ok hexec
  obtain ⟨rfl, hx⟩ := Prog.Exec.of_pure hfirst
  exact ⟨a, hx.symm, hrest⟩

theorem exec_return {a b : α} (hexec : Prog.Exec (pure a : Method α) h (.ok b)) :
    h = [] ∧ b = a := by
  obtain ⟨rfl, hb⟩ := Prog.Exec.of_pure hexec
  exact ⟨rfl, Except.ok.inj hb⟩

/-! ## The common end of `apply` -/

section Planned

variable {plan : Except AdapterError (FirewallActionReceipt × Method String)}

theorem applyPlanned_dry :
    applyPlanned plan true =
      ExceptT.mk (Prog.pure ((plan.map Prod.fst).map fun receipt => ⟨receipt, none⟩)) := by
  cases plan <;> rfl

theorem applyPlanned_live (receipt : FirewallActionReceipt) (mutate : Method String) :
    applyPlanned (.ok (receipt, mutate)) false =
      mutate >>= fun observed => pure ⟨{ receipt with isDryRun := false }, some observed⟩ := rfl

theorem applyPlanned_uses (hmutate : ∀ receipt mutate, plan = .ok (receipt, mutate) →
    Prog.Uses P mutate) : Prog.Uses P (applyPlanned plan false) := by
  cases hplan : plan with
  | error e => exact trivial
  | ok planned =>
    obtain ⟨receipt, mutate⟩ := planned
    rw [applyPlanned_live]
    exact uses_except_bind (hmutate receipt mutate hplan) fun _ => uses_return _

theorem applyPlanned_receipt {r : ApplyResult}
    (hexec : Prog.Exec (applyPlanned plan false) h (.ok r)) :
    ∃ receipt, plan.map Prod.fst = .ok receipt ∧
      r.receipt = { receipt with isDryRun := false } := by
  obtain ⟨planned, hplan, hrest⟩ := exec_lift_bind_ok hexec
  obtain ⟨h₁, h₂, observed, -, -, hreturn⟩ := exec_except_bind_ok hrest
  obtain ⟨-, rfl⟩ := exec_return hreturn
  exact ⟨planned.1, by rw [hplan]; rfl, rfl⟩

end Planned

/-! ## nftables -/

namespace Nftables

variable (cfg : AdapterConfig)

theorem listing_reads (setName : String) (wrap : String → AdapterError) :
    Reads (runCommand (preflightCommand setName) wrap) := by
  have h : (HostCall.command (preflightCommand setName)).reads = true := rfl
  exact uses_askHost h wrap

theorem preflight_reads (target : FirewallTarget) : Reads (preflight cfg target) := by
  unfold preflight
  refine uses_except_bind (uses_lift _) fun _ => ?_
  refine uses_except_bind (uses_lift _) fun setName => ?_
  cases setName with
  | none => exact uses_return _
  | some setName =>
    refine uses_except_bind (listing_reads setName _) fun output => ?_
    refine uses_except_bind (uses_lift _) fun _ => ?_
    exact uses_except_bind (uses_lift _) fun _ => uses_return _

theorem verify_reads (target : FirewallTarget) : Reads (verify cfg target) := by
  unfold verify
  refine uses_except_bind (uses_lift _) fun _ => ?_
  refine uses_except_bind (uses_lift _) fun setName => ?_
  cases setName with
  | none => exact uses_throw _
  | some setName =>
    refine uses_except_bind (listing_reads setName _) fun output => ?_
    refine uses_except_bind (uses_lift _) fun _ => ?_
    exact uses_except_bind (uses_lift _) fun _ => uses_return _

/-- What a plan stands for: its checks passed, and it names the set and the element. -/
theorem plan_ok {action : FirewallAction} {receipt : FirewallActionReceipt}
    {mutate : Method String} (h : plan cfg action = .ok (receipt, mutate)) :
    ∃ setName element receiptElement, action.target.setName = .ok (some setName) ∧
      elementReference action.target = .ok element ∧
      redactedElementReference action.target = .ok receiptElement ∧
      receipt = Nftables.receipt setName receiptElement action.ttlSeconds ∧
      mutate = addElement setName element action.ttlSeconds := by
  obtain ⟨_, -, h⟩ := bind_ok h
  obtain ⟨_, -, h⟩ := bind_ok h
  obtain ⟨element, helement, h⟩ := bind_ok h
  obtain ⟨receiptElement, hredacted, h⟩ := bind_ok h
  obtain ⟨setName, hset, h⟩ := bind_ok h
  cases h
  obtain ⟨found, hfound, hset⟩ := bind_ok hset
  cases found with
  | none => cases hset
  | some found =>
    cases hset
    exact ⟨setName, element, receiptElement, hfound, helement, hredacted, rfl, rfl⟩

theorem render_ok {action : FirewallAction} {receipt : FirewallActionReceipt}
    (h : render cfg action = .ok receipt) :
    ∃ setName element, action.target.setName = .ok setName ∧
      elementReference action.target = .ok element ∧
      receipt = Nftables.receipt (setName.getD blocklistSetV4) element action.ttlSeconds := by
  obtain ⟨_, -, h⟩ := bind_ok h
  obtain ⟨_, -, h⟩ := bind_ok h
  obtain ⟨_, -, h⟩ := bind_ok h
  obtain ⟨element, helement, h⟩ := bind_ok h
  obtain ⟨setName, hset, h⟩ := bind_ok h
  cases h
  exact ⟨setName, element, hset, helement, rfl⟩

theorem contract : AdapterContract (adapter cfg)
    (fun action call => AdapterKind.nftables.Mutation cfg action call) where
  preflight_reads := preflight_reads cfg
  verify_reads := verify_reads cfg
  apply_mutates := by
    intro action
    refine applyPlanned_uses fun receipt mutate hplan => ?_
    obtain ⟨setName, element, _, hset, helement, -, -, rfl⟩ := plan_ok cfg hplan
    have hadd : (HostCall.command (addCommand setName element action.ttlSeconds)).reads = true ∨
        AdapterKind.nftables.Mutation cfg action
          (.command (addCommand setName element action.ttlSeconds)) :=
      .inr ⟨setName, element, hset, helement, rfl⟩
    unfold addElement
    refine uses_except_bind (uses_askHost hadd _) fun output => ?_
    refine uses_except_bind (uses_lift _) fun _ => ?_
    exact uses_except_bind ((listing_reads setName _).mono fun _ h => .inl h)
      fun _ => uses_return _
  planned := by
    intro action
    refine ⟨(plan cfg action).map Prod.fst, applyPlanned_dry, ?_, fun h r hexec =>
      applyPlanned_receipt hexec⟩
    intro receipt hplan
    obtain ⟨mutate, hplan⟩ := map_fst_ok hplan
    obtain ⟨_, _, _, -, -, -, hreceipt, -⟩ := plan_ok cfg hplan
    rw [hreceipt]
    rfl

end Nftables

/-! ## HAProxy -/

namespace RuntimeObject

variable (object : RuntimeObject) (cfg : AdapterConfig)

/-- The listing command of the object is one of the socket's `show` commands. -/
def Lists : Prop := startsWith object.showCommand "show " = true

variable {object}

theorem listing_reads (hlists : object.Lists) (wrap : String → AdapterError) :
    Reads (run cfg object.showCommand wrap) := by
  have h : (HostCall.adminSocket cfg.adminSocket object.showCommand).reads = true := hlists
  exact uses_askHost h wrap

theorem preflight_reads (hlists : object.Lists) (target : FirewallTarget) :
    Reads (object.preflight cfg target) := by
  unfold preflight
  refine uses_except_bind (uses_lift _) fun _ => ?_
  split
  · exact uses_return _
  · refine uses_except_bind (uses_lift _) fun element => ?_
    exact uses_except_bind (listing_reads cfg hlists _) fun _ => uses_return _

theorem verify_reads (hlists : object.Lists) (target : FirewallTarget) :
    Reads (object.verify cfg target) := by
  unfold verify
  refine uses_except_bind (uses_lift _) fun _ => ?_
  refine uses_except_bind (uses_lift _) fun _ => ?_
  refine uses_except_bind (uses_lift _) fun element => ?_
  exact uses_except_bind (listing_reads cfg hlists _) fun _ => uses_return _

theorem plan_ok {action : FirewallAction} {receipt : FirewallActionReceipt}
    {mutate : Method String} (h : object.plan cfg action = .ok (receipt, mutate)) :
    ∃ element receiptElement, elementReference action.target = .ok element ∧
      redactedElementReference action.target = .ok receiptElement ∧
      receipt = object.receipt receiptElement action.ttlSeconds ∧
      mutate = object.addKey cfg element := by
  obtain ⟨_, -, h⟩ := bind_ok h
  obtain ⟨_, -, h⟩ := bind_ok h
  obtain ⟨_, -, h⟩ := bind_ok h
  obtain ⟨element, helement, h⟩ := bind_ok h
  obtain ⟨receiptElement, hredacted, h⟩ := bind_ok h
  cases h
  exact ⟨element, receiptElement, helement, hredacted, rfl, rfl⟩

theorem render_ok {action : FirewallAction} {receipt : FirewallActionReceipt}
    (h : object.render cfg action = .ok receipt) :
    ∃ element, elementReference action.target = .ok element ∧
      receipt = object.receipt element action.ttlSeconds := by
  obtain ⟨_, -, h⟩ := bind_ok h
  obtain ⟨_, -, h⟩ := bind_ok h
  obtain ⟨_, -, h⟩ := bind_ok h
  obtain ⟨element, helement, h⟩ := bind_ok h
  cases h
  exact ⟨element, helement, rfl⟩

theorem contract (hlists : object.Lists) : AdapterContract (object.adapter cfg)
    (fun action call => ∃ element, elementReference action.target = .ok element ∧
      call = .adminSocket cfg.adminSocket (object.addCommand element)) where
  preflight_reads := preflight_reads cfg hlists
  verify_reads := verify_reads cfg hlists
  apply_mutates := by
    intro action
    refine applyPlanned_uses fun receipt mutate hplan => ?_
    obtain ⟨element, _, helement, -, -, rfl⟩ := plan_ok cfg hplan
    unfold addKey
    refine uses_except_bind (uses_askHost (.inr ⟨element, helement, rfl⟩) _)
      fun response => ?_
    split
    · exact (listing_reads cfg hlists _).mono fun _ h => .inl h
    · exact uses_throw _
  planned := by
    intro action
    refine ⟨(object.plan cfg action).map Prod.fst, applyPlanned_dry, ?_, fun h r hexec =>
      applyPlanned_receipt hexec⟩
    intro receipt hplan
    obtain ⟨mutate, hplan⟩ := map_fst_ok hplan
    obtain ⟨_, _, -, -, hreceipt, -⟩ := plan_ok cfg hplan
    rw [hreceipt]
    rfl

end RuntimeObject

theorem blocklistAcl_lists (cfg : AdapterConfig) : (blocklistAcl cfg).Lists := by
  have h : (blocklistAcl cfg).showCommand = "show " ++ ("acl " ++ cfg.aclFile) := by
    show "show acl " ++ cfg.aclFile = _
    rw [← String.append_assoc]
    rfl
  rw [RuntimeObject.Lists, h]
  exact startsWith_append _ _

theorem rateLimitTable_lists (cfg : AdapterConfig) : (rateLimitTable cfg).Lists := by
  have h : (rateLimitTable cfg).showCommand = "show " ++ ("table " ++ cfg.rateLimitTable) := by
    show "show table " ++ cfg.rateLimitTable = _
    rw [← String.append_assoc]
    rfl
  rw [RuntimeObject.Lists, h]
  exact startsWith_append _ _

/-! ## go-away -/

namespace GoAway

variable (cfg : AdapterConfig) {action : FirewallAction} {receipt : FirewallActionReceipt}

theorem readPolicy_reads (wrap : String → AdapterError) : Reads (readPolicy cfg wrap) := by
  unfold readPolicy
  have h : (HostCall.readPolicy cfg.policyFile).reads = true := rfl
  refine uses_except_bind (uses_askHost h _) fun policy => ?_
  cases policy with
  | none => exact uses_return _
  | some policy => exact uses_except_bind (uses_lift _) fun _ => uses_return _

theorem preflight_reads (target : FirewallTarget) : Reads (preflight cfg target) := by
  unfold preflight
  refine uses_except_bind (uses_lift _) fun _ => ?_
  split
  · exact uses_return _
  · refine uses_except_bind (uses_lift _) fun element => ?_
    exact uses_except_bind (readPolicy_reads cfg _) fun _ => uses_return _

theorem verify_reads (target : FirewallTarget) : Reads (verify cfg target) := by
  unfold verify
  refine uses_except_bind (uses_lift _) fun _ => ?_
  refine uses_except_bind (uses_lift _) fun _ => ?_
  refine uses_except_bind (uses_lift _) fun element => ?_
  exact uses_except_bind (readPolicy_reads cfg _) fun _ => uses_return _

theorem plan_ok {mutate : Method String} (h : plan cfg action = .ok (receipt, mutate)) :
    ∃ receiptElement, redactedElementReference action.target = .ok receiptElement ∧
      receipt = GoAway.receipt cfg receiptElement action.ttlSeconds := by
  obtain ⟨_, -, h⟩ := bind_ok h
  obtain ⟨_, -, h⟩ := bind_ok h
  obtain ⟨element, helement, h⟩ := bind_ok h
  obtain ⟨receiptElement, hredacted, h⟩ := bind_ok h
  cases h
  exact ⟨receiptElement, hredacted, rfl⟩

/-- An unresolved incident source has no live plan. -/
theorem plan_incidentSource (h : action.target.isIncidentSource = true) :
    ∃ e, plan cfg action = .error e := by
  cases htarget : action.target with
  | incidentSource pseudonym =>
    rw [plan, htarget]
    exact ⟨_, rfl⟩
  | threatIntelIndicator | resolvedIncidentSource =>
    rw [htarget] at h
    cases h

/-- The receipt a dry run plans. -/
def dryPlan (action : FirewallAction) : Except AdapterError FirewallActionReceipt := do
  action.target.validate
  if action.target.isIncidentSource then render cfg action
  else (plan cfg action).map Prod.fst

theorem render_ok (h : render cfg action = .ok receipt) :
    ∃ element, elementReference action.target = .ok element ∧
      receipt = GoAway.receipt cfg element action.ttlSeconds := by
  obtain ⟨_, -, h⟩ := bind_ok h
  obtain ⟨_, -, h⟩ := bind_ok h
  obtain ⟨_, -, h⟩ := bind_ok h
  obtain ⟨element, helement, h⟩ := bind_ok h
  cases h
  exact ⟨element, helement, rfl⟩

theorem dryPlan_isDryRun (h : dryPlan cfg action = .ok receipt) : receipt.isDryRun = true := by
  obtain ⟨_, -, h⟩ := bind_ok h
  split at h
  · obtain ⟨_, -, hreceipt⟩ := render_ok cfg h
    rw [hreceipt]
    rfl
  · obtain ⟨mutate, hplan⟩ := map_fst_ok h
    obtain ⟨_, -, hreceipt⟩ := plan_ok cfg hplan
    rw [hreceipt]
    rfl

theorem apply_dry (action : FirewallAction) :
    apply cfg action true =
      ExceptT.mk (Prog.pure ((dryPlan cfg action).map fun receipt => ⟨receipt, none⟩)) := by
  unfold apply dryPlan
  cases action.target.validate with
  | error e => rfl
  | ok _ =>
    cases hincident : action.target.isIncidentSource with
    | true => cases hrender : render cfg action <;> rfl
    | false => cases hplan : plan cfg action <;> rfl

theorem contract : AdapterContract (adapter cfg)
    (fun action call => AdapterKind.goaway.Mutation cfg action call) where
  preflight_reads := preflight_reads cfg
  verify_reads := verify_reads cfg
  apply_mutates := by
    intro action
    have hall : ∀ {α : Type} (p : Prog HostCall.Answer α),
        Prog.Uses (fun c => c.reads = true ∨ c.reads = false) p := by
      intro α p
      induction p with
      | pure a => exact trivial
      | call c k ih => exact ⟨by cases c.reads <;> simp, ih⟩
    exact hall _
  planned := by
    intro action
    refine ⟨dryPlan cfg action, apply_dry cfg action, fun receipt => dryPlan_isDryRun cfg,
      fun h r hexec => ?_⟩
    obtain ⟨_, hvalid, hexec⟩ := exec_lift_bind_ok hexec
    obtain ⟨receipt, hplan, hr⟩ := applyPlanned_receipt hexec
    refine ⟨receipt, ?_, hr⟩
    have hincident : action.target.isIncidentSource = false := by
      cases hi : action.target.isIncidentSource with
      | false => rfl
      | true =>
        obtain ⟨e, he⟩ := plan_incidentSource cfg hi
        rw [he] at hplan
        cases hplan
    rw [dryPlan, hvalid]
    show (if action.target.isIncidentSource = true then _ else _) = _
    rw [hincident, ← hplan]
    rfl

end GoAway

/-- Every adapter keeps the contract. -/
theorem AdapterKind.contract (cfg : AdapterConfig) (kind : AdapterKind) :
    AdapterContract (kind.adapter cfg) (fun action call => kind.Mutation cfg action call) := by
  cases kind with
  | nftables => exact Nftables.contract cfg
  | haproxy => exact RuntimeObject.contract cfg (blocklistAcl_lists cfg)
  | haproxyRatelimit => exact RuntimeObject.contract cfg (rateLimitTable_lists cfg)
  | goaway => exact GoAway.contract cfg

/-! ## What a preflight reports -/

/-- Some listing among the host's answers names the target: the rule is there. -/
def AdapterKind.Listed (cfg : AdapterConfig) (target : FirewallTarget)
    (h : List (Prog.Event HostCall.Answer)) : AdapterKind → Prop
  | .nftables => ∃ setName output addr prefixLen,
      (⟨.command (Nftables.preflightCommand setName), .ok output⟩ :
        Prog.Event HostCall.Answer) ∈ h ∧
      target.setName = .ok (some setName) ∧ targetAddress target = .ok (addr, prefixLen) ∧
      setContainsTarget cfg.fromStr output.stdout addr prefixLen = true
  | .haproxy => ListedIn (blocklistAcl cfg)
  | .haproxyRatelimit => ListedIn (rateLimitTable cfg)
  | .goaway => ∃ policy element,
      (⟨.readPolicy cfg.policyFile, .ok (some policy)⟩ : Prog.Event HostCall.Answer) ∈ h ∧
      elementReference target = .ok element ∧ element ∈ GoAway.prefixes policy
where
  ListedIn (object : RuntimeObject) : Prop := ∃ response element,
    (⟨.adminSocket cfg.adminSocket object.showCommand, .ok response⟩ :
      Prog.Event HostCall.Answer) ∈ h ∧
    elementReference target = .ok element ∧ object.contains response element = true

/-- A host call that succeeded was answered by the host. -/
theorem exec_askHost_ok {call : HostCall} {wrap : String → AdapterError} {a : call.Result}
    (hexec : Prog.Exec (askHost call wrap) h (.ok a)) : h = [⟨call, .ok a⟩] := by
  obtain ⟨answer, rest, rfl, hrest⟩ := hexec.of_call
  obtain ⟨rfl, hanswer⟩ := Prog.Exec.of_pure hrest
  cases answer with
  | error e => cases hanswer
  | ok result =>
    cases hanswer
    rfl

theorem Nftables.preflight_listed (cfg : AdapterConfig)
    (hexec : Prog.Exec (Nftables.preflight cfg target) h (.ok r)) :
    r.alreadyBlocked = true ↔ AdapterKind.nftables.Listed cfg target h := by
  obtain ⟨_, -, hchecked⟩ := exec_lift_bind_ok hexec
  obtain ⟨found, hset, hfound⟩ := exec_lift_bind_ok hchecked
  cases found with
  | none =>
    obtain ⟨rfl, rfl⟩ := exec_return hfound
    simp [unknownPreflight, AdapterKind.Listed]
  | some setName =>
    obtain ⟨h₁, h₂, output, rfl, hlisting, hrest⟩ := exec_except_bind_ok hfound
    obtain rfl := exec_askHost_ok hlisting
    obtain ⟨_, -, hrest⟩ := exec_lift_bind_ok hrest
    obtain ⟨⟨addr, prefixLen⟩, haddr, hrest⟩ := exec_lift_bind_ok hrest
    obtain ⟨rfl, rfl⟩ := exec_return hrest
    constructor
    · exact fun hblocked => ⟨setName, output, addr, prefixLen, by simp, hset, haddr, hblocked⟩
    · rintro ⟨setName', output', addr', prefixLen', hmem, -, haddr', hcontains⟩
      rw [append_nil, mem_singleton] at hmem
      cases hmem
      rw [haddr] at haddr'
      cases haddr'
      exact hcontains

theorem RuntimeObject.preflight_listed (cfg : AdapterConfig) {object : RuntimeObject}
    (hexec : Prog.Exec (object.preflight cfg target) h (.ok r)) :
    r.alreadyBlocked = true ↔ AdapterKind.Listed.ListedIn cfg target h object := by
  obtain ⟨_, -, hchecked⟩ := exec_lift_bind_ok hexec
  split at hchecked
  · obtain ⟨rfl, rfl⟩ := exec_return hchecked
    simp [unknownPreflight, AdapterKind.Listed.ListedIn]
  · obtain ⟨element, helement, hlists⟩ := exec_lift_bind_ok hchecked
    obtain ⟨h₁, h₂, response, rfl, hlisting, hrest⟩ := exec_except_bind_ok hlists
    obtain rfl := exec_askHost_ok hlisting
    obtain ⟨rfl, rfl⟩ := exec_return hrest
    constructor
    · exact fun hblocked => ⟨response, element, by simp, helement, hblocked⟩
    · rintro ⟨response', element', hmem, helement', hcontains⟩
      rw [append_nil, mem_singleton] at hmem
      cases hmem
      rw [helement] at helement'
      cases helement'
      exact hcontains

theorem GoAway.preflight_listed (cfg : AdapterConfig)
    (hexec : Prog.Exec (GoAway.preflight cfg target) h (.ok r)) :
    r.alreadyBlocked = true ↔ AdapterKind.goaway.Listed cfg target h := by
  obtain ⟨_, -, hchecked⟩ := exec_lift_bind_ok hexec
  split at hchecked
  · obtain ⟨rfl, rfl⟩ := exec_return hchecked
    simp [unknownPreflight, AdapterKind.Listed]
  · obtain ⟨element, helement, hread⟩ := exec_lift_bind_ok hchecked
    obtain ⟨h₁, h₂, policy, rfl, hpolicy, hrest⟩ := exec_except_bind_ok hread
    obtain ⟨rfl, rfl⟩ := exec_return hrest
    obtain ⟨h₃, h₄, found, rfl, hasked, hfound⟩ := exec_except_bind_ok hpolicy
    obtain rfl := exec_askHost_ok hasked
    cases found with
    | none =>
      obtain ⟨rfl, rfl⟩ := exec_return hfound
      simp [AdapterKind.Listed, GoAway.prefixes, GoAway.fresh, GoAway.sources]
    | some stored =>
      obtain ⟨_, -, hvalid⟩ := exec_lift_bind_ok hfound
      obtain ⟨rfl, rfl⟩ := exec_return hvalid
      simp [AdapterKind.Listed, helement]

/-- A preflight that reports reports what the host listed. -/
theorem AdapterKind.preflight_listed {cfg : AdapterConfig} {kind : AdapterKind}
    (hexec : Prog.Exec ((kind.adapter cfg).preflight target) h (.ok r)) :
    r.alreadyBlocked = true ↔ kind.Listed cfg target h := by
  cases kind with
  | nftables => exact Nftables.preflight_listed cfg hexec
  | haproxy | haproxyRatelimit => exact RuntimeObject.preflight_listed cfg hexec
  | goaway => exact GoAway.preflight_listed cfg hexec

end Clawforge.Firewall

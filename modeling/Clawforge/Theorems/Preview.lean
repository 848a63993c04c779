import Clawforge.Theorems.MultiAdapter

/-!
# What is approved and what runs

The preview of the approval detail against the live applies of the dispatch.
The API renders the preview with adapters it builds from its own environment, the
executor applies with those of its environment. Where the two render alike they
agree for every single-adapter action but one: an incident source that resolves to
an IPv6 address is previewed in the IPv4 set of nftables and blocked in the IPv6
one. A `firewall.*` fan-out has no preview at all.
-/

namespace Clawforge.Executor

open Clawforge.Firewall Clawforge.Net Clawforge.Text Kit List Option

/-! ## The receipt of an apply -/

/-- The receipt an apply of the action plans; a live run reports it (`AdapterContract.planned`). -/
def Plans (cfg : AdapterConfig) (kind : AdapterKind) (action : FirewallAction)
    (receipt : Firewall.FirewallActionReceipt) : Prop :=
  Prog.Exec ((kind.adapter cfg).apply action true) [] (.ok ⟨receipt, none⟩)

/-- The receipt carries out what the preview shows. -/
structure ActionPreview.Shows (p : ActionPreview) (receipt : Firewall.FirewallActionReceipt) :
    Prop where
  rendered : receipt.renderedCommands = p.renderedCommands
  rollback : receipt.rollbackCommands = p.rollbackCommands
  ttl : receipt.ttlSeconds = p.ttlSeconds

/-- The preview names exactly the applied adapters, and shows what each apply plans. -/
def PreviewDescribes (cfg : AdapterConfig) (preview : Option ActionPreview)
    (applied : List (AdapterKind × FirewallAction)) : Prop :=
  ∃ p, preview = some p ∧ (∀ name, name ∈ applied.map (·.1.name) ↔ name = p.adapter) ∧
    ∀ a ∈ applied, ∀ receipt, Plans cfg a.1 a.2 receipt → p.Shows receipt

/-- The preview an approver of the claimed request is shown, by the API's adapters. -/
def previewOf (api : AdapterConfig) (claimed : ClaimedExecutionRequest) : Option ActionPreview :=
  actionPreview api claimed.id claimed.actionName claimed.target

/-- An adapter of the kind renders alike in the two processes. -/
def RendersAlike (api executor : AdapterConfig) : AdapterKind → Prop
  | .nftables => True
  | .haproxy => api.aclFile = executor.aclFile
  | .haproxyRatelimit => api.rateLimitTable = executor.rateLimitTable
  | .goaway => api.policyFile = executor.policyFile ∧ api.reloadCommand = executor.reloadCommand

/-- The API's own never-block list lets the requested target pass. -/
def PreviewAllowed (api : AdapterConfig) (claimed : ClaimedExecutionRequest) : Prop :=
  ∀ target, FirewallTarget.tryFrom (claimed.target.getD .null) = .ok target →
    checkNeverBlock api.neverBlock target = .ok ()

/-- The answer of the store that resolves the request's incident source. -/
def resolvedBy (id : Uuid) (r : ResolvedIncidentSourceAddress) : Prog.Event ExecCall.Answer :=
  ⟨.resolveIncidentSource id, .ok (some r)⟩

/-- The store resolved the request's incident source to an IPv6 address that may be blocked. -/
def ResolvedToIpv6 (cfg : AdapterConfig) (id : Uuid)
    (h : List (Prog.Event ExecCall.Answer)) : Prop :=
  ∃ r addr prefixLen, h.head? = some (resolvedBy id r) ∧
    parseIpOrCidr r.rawIp = some (.v6 addr, prefixLen) ∧
    checkNeverBlock cfg.neverBlock (.resolvedIncidentSource r.rawIp r.pseudonym) = .ok ()

/-- The store resolved the request's incident source to no address, or to one that must not be
blocked: the apply is called and stops at its checks. -/
def ResolvedToRefused (cfg : AdapterConfig) (id : Uuid)
    (h : List (Prog.Event ExecCall.Answer)) : Prop :=
  ∃ r, h.head? = some (resolvedBy id r) ∧ (parseIpOrCidr r.rawIp = none ∨
    checkNeverBlock cfg.neverBlock (.resolvedIncidentSource r.rawIp r.pseudonym) ≠ .ok ())

/-! ## The dispatched action and the previewed one -/

/-- `try_from` checks what it accepts, and a resolved source never comes from a request. -/
theorem tryFrom_ok {value : Json} {target : FirewallTarget}
    (h : FirewallTarget.tryFrom value = .ok target) :
    target.validate = .ok () ∧ ∀ rawIp pseudonym, target ≠ .resolvedIncidentSource rawIp pseudonym := by
  obtain ⟨kind, -, h⟩ := bind_ok h
  split at h
  · obtain ⟨cidr, -, h⟩ := bind_ok h
    obtain ⟨source, -, h⟩ := bind_ok h
    obtain ⟨checked, hvalid, h⟩ := bind_ok h
    cases h
    exact ⟨hvalid, fun _ _ h => by cases h⟩
  · split at h
    · obtain ⟨pseudonym, -, h⟩ := bind_ok h
      obtain ⟨checked, hvalid, h⟩ := bind_ok h
      cases h
      exact ⟨hvalid, fun _ _ h => by cases h⟩
    · cases h

/-- What the dispatch makes of an action that came from a request: itself, or its incident
source resolved. -/
inductive Resolution (id : Uuid) (h : List (Prog.Event ExecCall.Answer)) :
    FirewallAction → FirewallAction → Prop
  | address (cidr source ttlSeconds reason) :
      Resolution id h ⟨.threatIntelIndicator cidr source, ttlSeconds, reason⟩
        ⟨.threatIntelIndicator cidr source, ttlSeconds, reason⟩
  | incident (rawIp pseudonym ttlSeconds reason)
      (hhead : h.head? = some (resolvedBy id ⟨pseudonym, rawIp⟩)) :
      Resolution id h ⟨.incidentSource pseudonym, ttlSeconds, reason⟩
        ⟨.resolvedIncidentSource rawIp pseudonym, ttlSeconds, reason⟩

variable {action : FirewallAction} {h : List (Prog.Event ExecCall.Answer)}
  {o : GenericDispatchOutcome} {claimed : ClaimedExecutionRequest} {kind : AdapterKind}

/-- What the write-ahead renders is the action as requested. -/
theorem Resolution.receiptSafe {id : Uuid} {applied : FirewallAction}
    (hr : Resolution id h action applied) : receiptSafeAction applied = action := by
  cases hr <;> rfl

/-- A live dispatch refuses, or goes on with the resolved action. -/
theorem exec_resolveTarget {id : Uuid} {next : FirewallAction → Dispatch}
    (hunresolved : ∀ rawIp pseudonym, action.target ≠ .resolvedIncidentSource rawIp pseudonym)
    (hexec : Prog.Exec (resolveTarget id action false next) h o) :
    (o.completion = .failed ∧ liveApplies h = []) ∨
      ∃ applied rest, Resolution id h action applied ∧ Prog.Exec (next applied) rest o ∧
        liveApplies h = liveApplies rest ∧ (∀ e ∈ rest, e ∈ h) ∧
        (action.target.isIncidentSource = false → h = rest) := by
  obtain ⟨target, ttlSeconds, reason⟩ := action
  cases target with
  | threatIntelIndicator cidr source =>
    exact .inr ⟨_, h, .address .., hexec, rfl, fun _ he => he, fun _ => rfl⟩
  | resolvedIncidentSource rawIp pseudonym => exact absurd rfl (hunresolved rawIp pseudonym)
  | incidentSource pseudonym =>
    obtain ⟨answer, rest, rfl, hrest⟩ := hexec.of_call
    have hrefused : ∀ {reason : String}, Prog.Exec (failed reason) rest o →
        o.completion = .failed ∧ liveApplies (⟨.resolveIncidentSource id, answer⟩ :: rest) = [] := by
      intro reason hfailed
      obtain ⟨rfl, rfl⟩ := hfailed.of_pure
      exact ⟨rfl, rfl⟩
    cases answer with
    | error e => exact .inl (hrefused hrest)
    | ok found =>
      cases found with
      | none => exact .inl (hrefused hrest)
      | some resolved =>
        obtain ⟨pseudonym', rawIp⟩ := resolved
        change Prog.Exec (if pseudonym' = pseudonym then _ else _) rest o at hrest
        split at hrest
        · next heq =>
          subst heq
          exact .inr ⟨_, rest, .incident rawIp pseudonym' _ _ rfl, hrest, rfl,
            fun _ he => mem_cons_of_mem _ he, fun hincident => by cases hincident⟩
        · exact .inl (hrefused hrest)

/-! ## Planned against rendered -/

section Agreement

variable {cfg : AdapterConfig} {id : Uuid} {h : List (Prog.Event ExecCall.Answer)}
  {action applied : FirewallAction} {receipt rendered : Firewall.FirewallActionReceipt}
  {kind : AdapterKind}

section

variable (hr : Resolution id h action applied)
include hr

theorem Resolution.element :
    redactedElementReference applied.target = elementReference action.target := by
  cases hr <;> rfl

theorem Resolution.ttlSeconds : applied.ttlSeconds = action.ttlSeconds := by
  cases hr <;> rfl

/-- The plans of a HAProxy object and its preview are one receipt. -/
theorem runtimeObject_plan_eq_render {object : RuntimeObject}
    (hplan : (object.plan cfg applied).map Prod.fst = .ok receipt)
    (hrender : object.render cfg action = .ok rendered) : receipt = rendered := by
  obtain ⟨mutate, hplan⟩ := map_fst_ok hplan
  obtain ⟨_, element, -, helement, rfl, -⟩ := RuntimeObject.plan_ok cfg hplan
  obtain ⟨element', helement', rfl⟩ := RuntimeObject.render_ok cfg hrender
  rw [hr.element, helement'] at helement
  cases helement
  rw [hr.ttlSeconds]

theorem goAway_plan_eq_render (hplan : GoAway.dryPlan cfg applied = .ok receipt)
    (hrender : GoAway.render cfg action = .ok rendered) : receipt = rendered := by
  obtain ⟨element', helement', rfl⟩ := GoAway.render_ok cfg hrender
  obtain ⟨_, -, hplan⟩ := bind_ok hplan
  have hresolved : applied.target.isIncidentSource = false := by cases hr <;> rfl
  rw [hresolved] at hplan
  obtain ⟨mutate, hplan⟩ := map_fst_ok hplan
  obtain ⟨element, helement, rfl⟩ := GoAway.plan_ok cfg hplan
  rw [hr.element, helement'] at helement
  cases helement
  rw [hr.ttlSeconds]

/-- nftables plans what it previews, but for the set. -/
theorem nftables_plan_render (hplan : (Nftables.plan cfg applied).map Prod.fst = .ok receipt)
    (hrender : Nftables.render cfg action = .ok rendered) :
    ∃ setName previewed element, applied.target.setName = .ok (some setName) ∧
      action.target.setName = .ok previewed ∧
      receipt = Nftables.receipt setName element action.ttlSeconds ∧
      rendered = Nftables.receipt (previewed.getD blocklistSetV4) element action.ttlSeconds := by
  obtain ⟨mutate, hplan⟩ := map_fst_ok hplan
  obtain ⟨setName, _, element, hset, -, helement, rfl, -⟩ := Nftables.plan_ok cfg hplan
  obtain ⟨previewed, element', hpreviewed, helement', rfl⟩ := Nftables.render_ok cfg hrender
  rw [hr.element, helement'] at helement
  cases helement
  exact ⟨setName, previewed, _, hset, hpreviewed, by rw [hr.ttlSeconds], rfl⟩

end

/-- The preview of a rendered receipt. -/
def previewOfReceipt (receipt : Firewall.FirewallActionReceipt) : ActionPreview :=
  ⟨receipt.adapter, receipt.renderedCommands, receipt.rollbackCommands, receipt.ttlSeconds⟩

/-- Two nftables receipts about one element show the same commands only about one set. -/
theorem nftables_shows_iff {s t element : String} {ttlSeconds : Nat} :
    (previewOfReceipt (Nftables.receipt t element ttlSeconds)).Shows
      (Nftables.receipt s element ttlSeconds) ↔ s = t := by
  constructor
  · intro hshows
    have hrendered := hshows.rendered
    simp only [Nftables.receipt, previewOfReceipt, Nftables.addCommand, List.cons.injEq] at hrendered
    tauto
  · rintro rfl
    exact ⟨rfl, rfl, rfl⟩

/-- The receipt an adapter plans. -/
def plannedReceipt (cfg : AdapterConfig) (kind : AdapterKind) (action : FirewallAction) :
    Except AdapterError Firewall.FirewallActionReceipt :=
  match kind with
  | .nftables => (Nftables.plan cfg action).map Prod.fst
  | .haproxy => ((blocklistAcl cfg).plan cfg action).map Prod.fst
  | .haproxyRatelimit => ((rateLimitTable cfg).plan cfg action).map Prod.fst
  | .goaway => GoAway.dryPlan cfg action

theorem apply_dry (kind : AdapterKind) (action : FirewallAction) :
    (kind.adapter cfg).apply action true =
      ExceptT.mk (Prog.pure ((plannedReceipt cfg kind action).map fun receipt => ⟨receipt, none⟩)) := by
  cases kind with
  | nftables | haproxy | haproxyRatelimit => exact applyPlanned_dry
  | goaway => exact GoAway.apply_dry cfg action

theorem plans_iff :
    Plans cfg kind applied receipt ↔ plannedReceipt cfg kind applied = .ok receipt := by
  rw [Plans, apply_dry]
  constructor
  · intro hexec
    obtain ⟨-, hplan⟩ := Prog.Exec.of_pure hexec
    cases hplanned : plannedReceipt cfg kind applied with
    | error e =>
      rw [hplanned] at hplan
      cases hplan
    | ok planned =>
      rw [hplanned] at hplan
      cases hplan
      rfl
  · intro hplan
    rw [hplan]
    exact .pure _

/-- The checks of an nftables plan. -/
theorem nftables_plan_checks {planned : Firewall.FirewallActionReceipt × Method String}
    (hplan : Nftables.plan cfg action = .ok planned) :
    checkNeverBlock cfg.neverBlock action.target = .ok () := by
  obtain ⟨_, -, hplan⟩ := bind_ok hplan
  obtain ⟨_, hnever, -⟩ := bind_ok hplan
  exact hnever

theorem setName_of_parse {target : FirewallTarget} {text : String} {addr : IpAddr}
    {prefixLen : Option Nat} (htext : target.addressText = some text)
    (hparse : parseIpOrCidr text = some (addr, prefixLen)) :
    target.setName = .ok (some (if addr.isIpv4 then blocklistSetV4 else blocklistSetV6)) := by
  rw [FirewallTarget.setName, htext]
  dsimp only
  rw [hparse]
  dsimp only
  rw [(parseIpOrCidr_spec hparse).1]

/-- A resolved IPv6 source that may be blocked has a plan, about the IPv6 set. -/
theorem nftables_plan_resolved {rawIp pseudonym : String} {ttlSeconds : Nat} {reason : String}
    {addr : BitVec 128} {prefixLen : Option Nat}
    (hpseudonym : validatePseudonym pseudonym = .ok ())
    (hparse : parseIpOrCidr rawIp = some (.v6 addr, prefixLen))
    (hnever : checkNeverBlock cfg.neverBlock (.resolvedIncidentSource rawIp pseudonym) = .ok ()) :
    (Nftables.plan cfg ⟨.resolvedIncidentSource rawIp pseudonym, ttlSeconds, reason⟩).map Prod.fst =
      .ok (Nftables.receipt blocklistSetV6 (placeholder pseudonym) ttlSeconds) := by
  have hvalid : (FirewallTarget.resolvedIncidentSource rawIp pseudonym).validate = .ok () := by
    simp [FirewallTarget.validate, hpseudonym, hparse, bind, Except.bind]
  have haddr : targetAddress (.resolvedIncidentSource rawIp pseudonym) = .ok (.v6 addr, prefixLen) :=
    targetAddress_of_parse rfl hparse
  have helement : elementReference (.resolvedIncidentSource rawIp pseudonym) =
      .ok (elementText (.v6 addr) prefixLen) := by
    rw [elementReference, haddr]
    · rfl
    · intro pseudonym' h
      cases h
  have hset : Nftables.applySet (.resolvedIncidentSource rawIp pseudonym) = .ok blocklistSetV6 := by
    rw [Nftables.applySet, setName_of_parse rfl hparse]
    rfl
  rw [Nftables.plan]
  dsimp only
  rw [hvalid, hnever, helement, hset]
  rfl

/-- nftables runs what it previews unless an incident source resolves to an IPv6 address. -/
theorem nftables_shows_all_iff (hr : Resolution id h action applied)
    (hfirst : action.target.isIncidentSource = false → ∀ r, h.head? ≠ some (resolvedBy id r))
    (hrender : Nftables.render cfg action = .ok rendered) :
    (∀ receipt, Plans cfg .nftables applied receipt → (previewOfReceipt rendered).Shows receipt) ↔
      ¬ ResolvedToIpv6 cfg id h := by
  constructor
  · rintro hshows ⟨r, addr, prefixLen, hhead, hparse, hnever⟩
    obtain ⟨previewed, element, hpreviewed, helement, hrendered⟩ := Nftables.render_ok cfg hrender
    cases hr with
    | address => exact hfirst rfl r hhead
    | incident rawIp pseudonym ttlSeconds reason hhead' =>
      rw [hhead'] at hhead
      cases hhead
      cases hpreviewed
      cases helement
      have hpseudonym : validatePseudonym pseudonym = .ok () := by
        obtain ⟨_, -, hrender⟩ := bind_ok hrender
        obtain ⟨_, hvalid, -⟩ := bind_ok hrender
        exact hvalid
      have hshown := hshows _
        (plans_iff.mpr (nftables_plan_resolved hpseudonym hparse hnever))
      rw [hrendered, nftables_shows_iff] at hshown
      exact absurd hshown (by decide)
  · intro hnot receipt hplans
    have hplan := plans_iff.mp hplans
    obtain ⟨setName, previewed, element, hset, hpreviewed, rfl, rfl⟩ :=
      nftables_plan_render hr hplan hrender
    rw [nftables_shows_iff]
    cases hr with
    | address =>
      rw [hset] at hpreviewed
      cases hpreviewed
      rfl
    | incident rawIp pseudonym ttlSeconds reason hhead =>
      cases hpreviewed
      by_contra hne
      obtain ⟨mutate, hplan⟩ := map_fst_ok hplan
      obtain ⟨addr, prefixLen, hparse⟩ : ∃ addr prefixLen,
          parseIpOrCidr rawIp = some (addr, prefixLen) := by
        cases hparse : parseIpOrCidr rawIp with
        | none =>
          simp [FirewallTarget.setName, FirewallTarget.addressText, hparse] at hset
        | some parsed => exact ⟨parsed.1, parsed.2, rfl⟩
      rw [setName_of_parse rfl hparse] at hset
      cases hset
      cases addr with
      | v4 addr => exact hne rfl
      | v6 addr =>
        exact hnot ⟨_, addr, prefixLen, hhead, hparse, nftables_plan_checks hplan⟩

/-- What a render checked, whichever adapter's it is. -/
theorem render_checks (hrender : (kind.adapter cfg).render action = .ok rendered) :
    action.target.validate = .ok () ∧ checkNeverBlock cfg.neverBlock action.target = .ok () := by
  cases kind with
  | nftables | haproxy | haproxyRatelimit | goaway =>
    obtain ⟨_, -, hrender⟩ := bind_ok hrender
    obtain ⟨_, hvalid, hrender⟩ := bind_ok hrender
    obtain ⟨_, hnever, -⟩ := bind_ok hrender
    exact ⟨hvalid, hnever⟩

theorem RuntimeObject.render_of_checks (object : RuntimeObject) {element : String}
    (hrefuse : refuseResolved action.target = .ok ()) (hvalid : action.target.validate = .ok ())
    (hnever : checkNeverBlock cfg.neverBlock action.target = .ok ())
    (helement : elementReference action.target = .ok element) :
    object.render cfg action = .ok (object.receipt element action.ttlSeconds) := by
  rw [RuntimeObject.render, hrefuse, hvalid, hnever, helement]
  rfl

theorem RuntimeObject.plan_of_checks (object : RuntimeObject) {element receiptElement : String}
    (hvalid : action.target.validate = .ok ())
    (hresolved : requireResolvedTarget action.target = .ok ())
    (hnever : checkNeverBlock cfg.neverBlock action.target = .ok ())
    (helement : elementReference action.target = .ok element)
    (hredacted : redactedElementReference action.target = .ok receiptElement) :
    (object.plan cfg action).map Prod.fst = .ok (object.receipt receiptElement action.ttlSeconds) := by
  rw [RuntimeObject.plan, hvalid, hresolved, hnever, helement, hredacted]
  rfl

/-- What one process renders the other does, if its never-block list lets the target pass. -/
theorem render_of_neverBlock {api : AdapterConfig}
    (hrender : (kind.adapter cfg).render action = .ok rendered)
    (hnever : checkNeverBlock api.neverBlock action.target = .ok ()) :
    ∃ previewed, (kind.adapter api).render action = .ok previewed := by
  cases kind with
  | nftables =>
    obtain ⟨_, hrefuse, hrender⟩ := bind_ok hrender
    obtain ⟨_, hvalid, hrender⟩ := bind_ok hrender
    obtain ⟨_, -, hrender⟩ := bind_ok hrender
    obtain ⟨element, helement, hrender⟩ := bind_ok hrender
    obtain ⟨setName, hset, -⟩ := bind_ok hrender
    refine ⟨Nftables.receipt (setName.getD blocklistSetV4) element action.ttlSeconds, ?_⟩
    show Nftables.render api action = _
    rw [Nftables.render, hrefuse, hvalid, hnever, helement, hset]
    rfl
  | haproxy | haproxyRatelimit =>
    obtain ⟨_, hrefuse, hrender⟩ := bind_ok hrender
    obtain ⟨_, hvalid, hrender⟩ := bind_ok hrender
    obtain ⟨_, -, hrender⟩ := bind_ok hrender
    obtain ⟨element, helement, -⟩ := bind_ok hrender
    exact ⟨_, RuntimeObject.render_of_checks _ hrefuse hvalid hnever helement⟩
  | goaway =>
    obtain ⟨_, hrefuse, hrender⟩ := bind_ok hrender
    obtain ⟨_, hvalid, hrender⟩ := bind_ok hrender
    obtain ⟨_, -, hrender⟩ := bind_ok hrender
    obtain ⟨element, helement, -⟩ := bind_ok hrender
    refine ⟨GoAway.receipt api element action.ttlSeconds, ?_⟩
    show GoAway.render api action = _
    rw [GoAway.render, hrefuse, hvalid, hnever, helement]
    rfl

/-- One action rendered by the two processes shows the same exactly if they render alike. -/
theorem rendered_shows_iff {api : AdapterConfig} {previewed : Firewall.FirewallActionReceipt}
    (hpreviewed : (kind.adapter api).render action = .ok previewed)
    (hrender : (kind.adapter cfg).render action = .ok rendered) :
    (previewOfReceipt previewed).Shows rendered ↔ RendersAlike api cfg kind := by
  cases kind with
  | nftables =>
    obtain ⟨setName, element, hset, helement, rfl⟩ := Nftables.render_ok api hpreviewed
    obtain ⟨setName', element', hset', helement', rfl⟩ := Nftables.render_ok cfg hrender
    cases hset.symm.trans hset'
    cases helement.symm.trans helement'
    exact ⟨fun _ => trivial, fun _ => ⟨rfl, rfl, rfl⟩⟩
  | haproxy =>
    obtain ⟨element, helement, rfl⟩ := RuntimeObject.render_ok api hpreviewed
    obtain ⟨element', helement', rfl⟩ := RuntimeObject.render_ok cfg hrender
    cases helement.symm.trans helement'
    constructor
    · intro hshows
      have hcommand : "add acl " ++ cfg.aclFile ++ " " ++ element =
          "add acl " ++ api.aclFile ++ " " ++ element :=
        (cons.inj (cons.inj hshows.rendered).1).1
      show api.aclFile = cfg.aclFile
      simpa [String.append_assoc] using hcommand.symm
    · intro (halike : api.aclFile = cfg.aclFile)
      simp only [blocklistAcl, halike]
      exact ⟨rfl, rfl, rfl⟩
  | haproxyRatelimit =>
    obtain ⟨element, helement, rfl⟩ := RuntimeObject.render_ok api hpreviewed
    obtain ⟨element', helement', rfl⟩ := RuntimeObject.render_ok cfg hrender
    cases helement.symm.trans helement'
    constructor
    · intro hshows
      have hcommand : "set table " ++ cfg.rateLimitTable ++ " key " ++ element ++ " data.gpc0 1" =
          "set table " ++ api.rateLimitTable ++ " key " ++ element ++ " data.gpc0 1" :=
        (cons.inj (cons.inj hshows.rendered).1).1
      show api.rateLimitTable = cfg.rateLimitTable
      simpa [String.append_assoc] using hcommand.symm
    · intro (halike : api.rateLimitTable = cfg.rateLimitTable)
      simp only [rateLimitTable, halike]
      exact ⟨rfl, rfl, rfl⟩
  | goaway =>
    obtain ⟨element, helement, rfl⟩ := GoAway.render_ok api hpreviewed
    obtain ⟨element', helement', rfl⟩ := GoAway.render_ok cfg hrender
    cases helement.symm.trans helement'
    constructor
    · intro hshows
      have hcommands := hshows.rendered
      simp only [previewOfReceipt, GoAway.receipt, GoAway.renderedCommands, List.cons.injEq,
        true_and, and_true] at hcommands
      exact ⟨hcommands.1.symm, hcommands.2.symm⟩
    · rintro ⟨hfile, hreload⟩
      simp only [previewOfReceipt, GoAway.receipt, GoAway.renderedCommands, GoAway.rollbackCommands,
        hfile, hreload]
      exact ⟨rfl, rfl, rfl⟩

theorem parse_of_targetAddress {rawIp pseudonym : String} {parsed : IpAddr × Option Nat}
    (haddress : targetAddress (.resolvedIncidentSource rawIp pseudonym) = .ok parsed) :
    ∃ parsed, parseIpOrCidr rawIp = some parsed := by
  cases hparse : parseIpOrCidr rawIp with
  | none => simp [targetAddress, FirewallTarget.addressText, hparse] at haddress
  | some parsed => exact ⟨parsed, rfl⟩

/-- A rendered action whose source is not refused has a plan at the adapters that render nothing
of an address. -/
theorem planned_of_render (hr : Resolution id h action applied) (hkind : kind ≠ .nftables)
    (hrender : (kind.adapter cfg).render action = .ok rendered)
    (hpasses : ¬ ResolvedToRefused cfg id h) :
    ∃ receipt, plannedReceipt cfg kind applied = .ok receipt := by
  obtain ⟨hvalid, hnever⟩ := render_checks hrender
  have hchecks : applied.target.validate = .ok () ∧
      checkNeverBlock cfg.neverBlock applied.target = .ok () ∧
      requireResolvedTarget applied.target = .ok () ∧
      applied.target.isIncidentSource = false ∧
      (∃ element, elementReference applied.target = .ok element) ∧
      ∃ element, redactedElementReference applied.target = .ok element := by
    cases hr with
    | address cidr source ttlSeconds reason =>
      have helement : ∃ element, elementReference (.threatIntelIndicator cidr source) =
          .ok element := by
        cases kind with
        | nftables => exact absurd rfl hkind
        | haproxy | haproxyRatelimit =>
          obtain ⟨element, helement, -⟩ := RuntimeObject.render_ok cfg hrender
          exact ⟨element, helement⟩
        | goaway =>
          obtain ⟨element, helement, -⟩ := GoAway.render_ok cfg hrender
          exact ⟨element, helement⟩
      exact ⟨hvalid, hnever, rfl, rfl, helement, helement⟩
    | incident rawIp pseudonym ttlSeconds reason hhead =>
      have hparsed : ∃ parsed, parseIpOrCidr rawIp = some parsed := by
        cases hparse : parseIpOrCidr rawIp with
        | none => exact absurd ⟨_, hhead, .inl hparse⟩ hpasses
        | some parsed => exact ⟨parsed, rfl⟩
      obtain ⟨parsed, hparse⟩ := hparsed
      refine ⟨?_, ?_, rfl, rfl, ⟨elementText parsed.1 parsed.2, ?_⟩, _, rfl⟩
      · have hpseudonym : validatePseudonym pseudonym = .ok () := hvalid
        simp [FirewallTarget.validate, hpseudonym, hparse, bind, Except.bind]
      · by_contra hblocked
        exact hpasses ⟨_, hhead, .inr hblocked⟩
      · rw [elementReference, targetAddress_of_parse rfl hparse]
        · rfl
        · intro pseudonym' hincident
          cases hincident
  obtain ⟨hvalid, hnever, hresolved, hincident, ⟨element, helement⟩, receiptElement, hredacted⟩ :=
    hchecks
  cases kind with
  | nftables => exact absurd rfl hkind
  | haproxy | haproxyRatelimit =>
    exact ⟨_, RuntimeObject.plan_of_checks _ hvalid hresolved hnever helement hredacted⟩
  | goaway =>
    refine ⟨GoAway.receipt cfg receiptElement applied.ttlSeconds, ?_⟩
    rw [plannedReceipt, GoAway.dryPlan, hvalid, hincident, GoAway.plan, hresolved, hnever, helement,
      hredacted]
    rfl

/-- A refused source has no plan. -/
theorem not_plans_of_refused (hr : Resolution id h action applied) (hkind : kind ≠ .nftables)
    (hrefused : ResolvedToRefused cfg id h)
    (hfirst : action.target.isIncidentSource = false → ∀ r, h.head? ≠ some (resolvedBy id r)) :
    ¬ Plans cfg kind applied receipt := by
  obtain ⟨r, hhead, hrefused⟩ := hrefused
  cases hr with
  | address => exact absurd hhead (hfirst rfl r)
  | incident rawIp pseudonym ttlSeconds reason hhead' =>
    rw [hhead'] at hhead
    cases hhead
    intro hplans
    have hchecks : (∃ parsed, parseIpOrCidr rawIp = some parsed) ∧
        checkNeverBlock cfg.neverBlock (.resolvedIncidentSource rawIp pseudonym) = .ok () := by
      have hplan := plans_iff.mp hplans
      cases kind with
      | nftables => exact absurd rfl hkind
      | haproxy | haproxyRatelimit =>
        obtain ⟨mutate, hplan⟩ := map_fst_ok hplan
        obtain ⟨_, -, hplan⟩ := bind_ok hplan
        obtain ⟨_, -, hplan⟩ := bind_ok hplan
        obtain ⟨_, hnever, hplan⟩ := bind_ok hplan
        obtain ⟨_, helement, -⟩ := bind_ok hplan
        obtain ⟨parsed, haddress, -⟩ := bind_ok helement
        exact ⟨parse_of_targetAddress haddress, hnever⟩
      | goaway =>
        obtain ⟨_, -, hplan⟩ := bind_ok hplan
        obtain ⟨mutate, hplan⟩ := map_fst_ok hplan
        obtain ⟨_, -, hplan⟩ := bind_ok hplan
        obtain ⟨_, hnever, hplan⟩ := bind_ok hplan
        obtain ⟨_, helement, -⟩ := bind_ok hplan
        obtain ⟨parsed, haddress, -⟩ := bind_ok helement
        exact ⟨parse_of_targetAddress haddress, hnever⟩
    obtain ⟨⟨parsed, hparse⟩, hnever⟩ := hchecks
    rcases hrefused with hnone | hblocked
    · rw [hnone] at hparse
      cases hparse
    · exact hblocked hnever

/-- When a single adapter's applies are what its preview shows. -/
theorem shows_all_iff {api : AdapterConfig} {previewed : Firewall.FirewallActionReceipt}
    (hr : Resolution id h action applied)
    (hfirst : action.target.isIncidentSource = false → ∀ r, h.head? ≠ some (resolvedBy id r))
    (hpreviewed : (kind.adapter api).render action = .ok previewed)
    (hrender : (kind.adapter cfg).render action = .ok rendered) :
    (∀ receipt, Plans cfg kind applied receipt → (previewOfReceipt previewed).Shows receipt) ↔
      ¬ (kind = .nftables ∧ ResolvedToIpv6 cfg id h) ∧
        (ResolvedToRefused cfg id h ∨ RendersAlike api cfg kind) := by
  have hshown := rendered_shows_iff hpreviewed hrender
  have hplanned : kind ≠ .nftables → ∀ receipt, Plans cfg kind applied receipt →
      receipt = rendered := by
    intro hkind receipt hplans
    cases kind with
    | nftables => exact absurd rfl hkind
    | haproxy | haproxyRatelimit =>
      exact runtimeObject_plan_eq_render hr (plans_iff.mp hplans) hrender
    | goaway => exact goAway_plan_eq_render hr (plans_iff.mp hplans) hrender
  by_cases hkind : kind = .nftables
  · subst hkind
    obtain ⟨setName, element, hset, helement, rfl⟩ := Nftables.render_ok api hpreviewed
    obtain ⟨setName', element', hset', helement', rfl⟩ := Nftables.render_ok cfg hrender
    cases hset.symm.trans hset'
    cases helement.symm.trans helement'
    rw [nftables_shows_all_iff hr hfirst hrender]
    exact ⟨fun hnot => ⟨fun hipv6 => hnot hipv6.2, .inr trivial⟩, fun hall hipv6 => hall.1 ⟨rfl, hipv6⟩⟩
  · constructor
    · intro hshows
      refine ⟨fun hnft => hkind hnft.1, or_iff_not_imp_left.2 fun hpasses => hshown.1 ?_⟩
      obtain ⟨receipt, hplan⟩ := planned_of_render hr hkind hrender hpasses
      have hplans := plans_iff.mpr hplan
      exact hplanned hkind receipt hplans ▸ hshows receipt hplans
    · rintro ⟨-, hrefused | halike⟩ receipt hplans
      · exact absurd hplans (not_plans_of_refused hr hkind hrefused hfirst)
      · rw [hplanned hkind receipt hplans]
        exact hshown.2 halike

theorem render_adapter (hrender : (kind.adapter cfg).render action = .ok rendered) :
    rendered.adapter = kind.name := by
  cases kind with
  | nftables =>
    obtain ⟨_, _, -, -, rfl⟩ := Nftables.render_ok cfg hrender
    rfl
  | haproxy | haproxyRatelimit =>
    obtain ⟨_, -, rfl⟩ := RuntimeObject.render_ok cfg hrender
    rfl
  | goaway =>
    obtain ⟨_, -, rfl⟩ := GoAway.render_ok cfg hrender
    rfl

/-- `render` does not read the reason. -/
theorem render_reason (target : FirewallTarget) (ttlSeconds : Nat) (reason reason' : String) :
    (kind.adapter cfg).render ⟨target, ttlSeconds, reason⟩ =
      (kind.adapter cfg).render ⟨target, ttlSeconds, reason'⟩ := by
  cases kind <;> rfl

end Agreement

/-! ## From the claimed request to the adapters -/

/-- The adapters' part of a live dispatch. -/
def routed (cfg : ExecutorConfig) (claimed : ClaimedExecutionRequest) (action : FirewallAction) :
    Dispatch :=
  match (if isMulti claimed.actionName then none else adapterForAction claimed.actionName) with
  | none =>
    dispatchMultiWithAdapters cfg.adapters action false
      (configuredMultiAdapters cfg.multiAdapters) (some ⟨claimed.id, claimed.actionName⟩)
  | some kind =>
    applySingleAdapter cfg.adapters kind action false (some ⟨claimed.id, claimed.actionName⟩)

/-- A live dispatch refuses the request, or routes the action it parsed and resolved. -/
theorem exec_dispatch {cfg : ExecutorConfig} {dispatch : Dispatch}
    (hdispatch : tryDispatchGenericWithMode cfg claimed false = some dispatch)
    (hexec : Prog.Exec dispatch h o) :
    (o.completion = .failed ∧ liveApplies h = []) ∨
      ∃ target action applied rest, claimed.target = some target ∧
        parseFirewallAction claimed.id target = .ok action ∧
        Resolution claimed.id h action applied ∧ Prog.Exec (routed cfg claimed applied) rest o ∧
        liveApplies h = liveApplies rest ∧ (∀ e ∈ rest, e ∈ h) ∧
        (action.target.isIncidentSource = false → h = rest) := by
  simp only [tryDispatchGenericWithMode] at hdispatch
  cases hroute : (!isMulti claimed.actionName && (if isMulti claimed.actionName then none
      else adapterForAction claimed.actionName).isNone) with
  | true =>
    rw [hroute, if_pos rfl] at hdispatch
    cases hdispatch
  | false =>
    rw [hroute, if_neg Bool.false_ne_true] at hdispatch
    cases hdispatch
    have hrefused : ∀ {reason : String}, Prog.Exec (failed reason) h o →
        o.completion = .failed ∧ liveApplies h = [] := by
      intro reason hfailed
      obtain ⟨rfl, rfl⟩ := hfailed.of_pure
      exact ⟨rfl, rfl⟩
    split at hexec
    · exact .inl (hrefused hexec)
    · next target htarget =>
      split at hexec
      · exact .inl (hrefused hexec)
      · next action hparse =>
        split at hexec
        · exact .inl (hrefused hexec)
        · obtain ⟨firewallTarget, htryFrom, haction⟩ := bind_ok hparse
          cases haction
          rcases exec_resolveTarget (tryFrom_ok htryFrom).2 hexec with
            hfailed | ⟨applied, rest, hr, hrest, happlies, hsub, hsame⟩
          · exact .inl hfailed
          · exact .inr ⟨target, _, applied, rest, htarget, hparse, hr, hrest, happlies, hsub, hsame⟩

/-! ## One adapter -/

/-- A journaled live dispatch whose action does not render applies nothing. -/
theorem liveApplies_of_render_error {cfg : AdapterConfig} {journal : RuleJournal} {e : AdapterError}
    (hrender : (kind.adapter cfg).render (receiptSafeAction action) = .error e)
    (hexec : Prog.Exec (applySingleAdapter cfg kind action false (some journal)) h o) :
    liveApplies h = [] := by
  obtain ⟨answer, rest, rfl, hrest⟩ := hexec.of_call
  have hfailed : ∀ {reason : String}, Prog.Exec (failed reason) rest o → rest = [] :=
    fun h => h.of_pure.1
  have hnil : rest = [] := by
    cases answer with
    | error e => exact hfailed hrest
    | ok preflight =>
      change Prog.Exec (if preflight.alreadyBlocked = true then _ else _) rest o at hrest
      rw [hrender] at hrest
      split at hrest
      · exact hfailed hrest
      · exact hfailed hrest
  rw [hnil]
  rfl

/-- The preview is the receipt the parsed action renders to. -/
theorem previewOf_single {api : AdapterConfig} {target : Json}
    {rendered : Firewall.FirewallActionReceipt}
    (hkind : adapterForAction claimed.actionName = some kind)
    (htarget : claimed.target = some target)
    (hparse : parseFirewallAction claimed.id target = .ok action)
    (hrender : (kind.adapter api).render action = .ok rendered) :
    previewOf api claimed = some (previewOfReceipt rendered) := by
  obtain ⟨firewallTarget, htryFrom, haction⟩ := bind_ok hparse
  cases haction
  rw [render_reason _ _ _ ("preview for execution_request " ++ EventDelivery.uuidText claimed.id)] at hrender
  simp only [previewOf, actionPreview, hkind, htarget, getD_some, htryFrom,
    Except.toOption, hrender, bind_eq_bind, bind_some]
  rfl

/-- A live dispatch to one adapter fails without an apply, or applies the previewed action. -/
theorem exec_single {cfg : ExecutorConfig} {dispatch : Dispatch}
    (hmulti : isMulti claimed.actionName = false)
    (hkind : adapterForAction claimed.actionName = some kind)
    (hdispatch : tryDispatchGenericWithMode cfg claimed false = some dispatch)
    (hexec : Prog.Exec dispatch h o) (hanswered : ∀ e ∈ h, Answered cfg.adapters e.call e.answer) :
    (o.completion = .failed ∧ liveApplies h = []) ∨
      ∃ action applied rendered, Resolution claimed.id h action applied ∧
        (action.target.isIncidentSource = false →
          ∀ r, h.head? ≠ some (resolvedBy claimed.id r)) ∧
        (kind.adapter cfg.adapters).render action = .ok rendered ∧
        (∃ target, claimed.target = some target ∧
          parseFirewallAction claimed.id target = .ok action) ∧
        liveApplies h = [(kind, applied)] := by
  rcases exec_dispatch hdispatch hexec with
    hfailed | ⟨target, action, applied, rest, htarget, hparse, hr, hrest, happlies, hsub, hsame⟩
  · exact .inl hfailed
  · rw [routed, hmulti, hkind] at hrest
    have hrest : Prog.Exec (applySingleAdapter cfg.adapters kind applied false
      (some ⟨claimed.id, claimed.actionName⟩)) rest o := hrest
    rcases exec_liveApplies hrest fun e he => hanswered e (hsub e he) with
      ⟨hfailed, hnone⟩ | ⟨-, happlied⟩
    · exact .inl ⟨hfailed, happlies.trans hnone⟩
    · cases hrender : (kind.adapter cfg.adapters).render (receiptSafeAction applied) with
      | error e =>
        rw [liveApplies_of_render_error hrender hrest] at happlied
        cases happlied
      | ok rendered =>
        rw [hr.receiptSafe] at hrender
        refine .inr ⟨action, applied, rendered, hr, ?_, hrender, ⟨target, htarget, hparse⟩,
          happlies.trans happlied⟩
        intro hincident r hhead
        -- the first call of an unresolved dispatch is the adapter's preflight
        obtain ⟨answer, tail, hcons, -⟩ := hrest.of_call
        rw [hsame hincident, hcons] at hhead
        cases hhead

/-! ## The fan-out -/

/-- A fan-out name routes to no single adapter, so it has no preview. -/
theorem previewOf_multi {api : AdapterConfig} (hmulti : isMulti claimed.actionName = true) :
    previewOf api claimed = none := by
  have hnot : ∀ head : String, (∃ p ∈ "firewall.".toList.zip head.toList, p.1 ≠ p.2) →
      startsWith claimed.actionName head = false := fun head hne => startsWith_eq_false hmulti hne
  have hkind : adapterForAction claimed.actionName = none := by
    rw [adapterForAction, hnot "nftables" (by decide), hnot "haproxy_ratelimit" (by decide),
      hnot "haproxy" (by decide), hnot "goaway" (by decide)]
    rfl
  rw [previewOf, actionPreview, hkind]
  rfl

/-- So far nothing was applied. -/
structure Idle (s : MultiState) : Prop where
  certain : s.uncertain = false
  unsuccessful : s.mandatorySuccess = false
  notOwned : s.aggregateEffect.isOwned = false
  receipts : s.receipts = []

theorem Idle.add {s : MultiState} (hs : Idle s) (kind : AdapterKind)
    {result : GenericDispatchOutcome} (hcompletion : result.completion = .failed)
    (heffect : result.effect = .noMutation) (hreceipts : result.receipts = []) :
    Idle (s.add kind result) where
  certain := by simp [MultiState.add, hs.certain, hcompletion]
  unsuccessful := by simp [MultiState.add, hs.unsuccessful, hcompletion]
  notOwned := by rw [MultiState.add, aggregate_isOwned, hs.notOwned, heffect]; rfl
  receipts := by simp [MultiState.add, hs.receipts, hreceipts]

theorem Idle.outcome {s : MultiState} (hs : Idle s) (dryRun : Bool) :
    (s.outcome dryRun).completion = .failed := by
  simp [MultiState.outcome, hs.certain, hs.unsuccessful, hs.notOwned, hs.receipts]

/-- A live fan-out that applies nothing fails. -/
theorem multi_failed {cfg : AdapterConfig} {journal : Option RuleJournal}
    {adapters : List AdapterKind} {s : MultiState} (hs : Idle s)
    (hexec : Prog.Exec (multiLoop cfg action false journal adapters s) h o)
    (hanswered : ∀ e ∈ h, Answered cfg e.call e.answer) (hnone : liveApplies h = []) :
    o.completion = .failed := by
  induction adapters generalizing s h with
  | nil =>
    obtain ⟨-, rfl⟩ := hexec.of_pure
    exact hs.outcome false
  | cons kind rest ih =>
    obtain ⟨h₁, h₂, result, rfl, hfirst, hrest⟩ := Prog.exec_bind.mp hexec
    rw [liveApplies, filterMap_append, append_eq_nil_iff] at hnone
    have hanswered₁ : ∀ e ∈ h₁, Answered cfg e.call e.answer :=
      fun e he => hanswered e (mem_append_left _ he)
    have hfailed : result.completion = .failed := by
      rcases exec_liveApplies hfirst hanswered₁ with ⟨hfailed, -⟩ | ⟨-, happlied⟩
      · exact hfailed
      · rw [liveApplies, hnone.1] at happlied
        cases happlied
    obtain ⟨-, -, heffect, hreceipts⟩ :=
      (Prog.Guided.exec applySingleAdapter_sound hfirst hanswered₁).failed hfailed
    exact ih (hs.add kind hfailed heffect hreceipts) hrest
      (fun e he => hanswered e (mem_append_right _ he)) hnone.2

/-! ## What is approved is what runs -/

/-- Where the API's never-block list lets the target pass there is a preview, and only there. -/
theorem previewOf_isSome_iff (api : AdapterConfig) {cfg : ExecutorConfig} {target : Json}
    {rendered : Firewall.FirewallActionReceipt}
    (hkind : adapterForAction claimed.actionName = some kind)
    (htarget : claimed.target = some target)
    (hparse : parseFirewallAction claimed.id target = .ok action)
    (hrender : (kind.adapter cfg.adapters).render action = .ok rendered) :
    (PreviewAllowed api claimed → ∃ previewed, (kind.adapter api).render action = .ok previewed ∧
        previewOf api claimed = some (previewOfReceipt previewed)) ∧
      (previewOf api claimed ≠ none → PreviewAllowed api claimed) := by
  obtain ⟨firewallTarget, htryFrom, haction⟩ := bind_ok hparse
  cases haction
  constructor
  · intro hallowed
    obtain ⟨previewed, hpreviewed⟩ := render_of_neverBlock hrender
      (hallowed firewallTarget (by rw [htarget]; exact htryFrom))
    exact ⟨previewed, hpreviewed, previewOf_single hkind htarget hparse hpreviewed⟩
  · intro hsome firewallTarget' htryFrom'
    rw [htarget] at htryFrom'
    cases htryFrom.symm.trans htryFrom'
    simp only [previewOf, actionPreview, hkind, htarget, getD_some, htryFrom,
      Except.toOption, bind_eq_bind, bind_some] at hsome
    cases hpreviewed : (kind.adapter api).render ⟨firewallTarget, ttlSecondsOf target,
        "preview for execution_request " ++ EventDelivery.uuidText claimed.id⟩ with
    | error e => rw [hpreviewed] at hsome; exact absurd rfl hsome
    | ok previewed => exact (render_checks hpreviewed).2

/-- For every live dispatch of a claimed request: when it applies, the preview the API renders with
its own adapters describes the applies exactly if the action is no fan-out and no nftables block of
a source resolved to IPv6, the API's never-block list lets the requested target pass, and the two
processes render alike (or the apply stops at its checks); when it applies nothing, it failed; and
a single-adapter dispatch whose target the API's list lets pass failed if there is no preview. -/
theorem preview_describes_iff {cfg : ExecutorConfig} {api : AdapterConfig} {claimed : ClaimedExecutionRequest}
    {dispatch : Dispatch} {h : List (Prog.Event ExecCall.Answer)} {o : GenericDispatchOutcome}
    (hdispatch : tryDispatchGenericWithMode cfg claimed false = some dispatch)
    (hexec : Prog.Exec dispatch h o)
    (hanswered : ∀ e ∈ h, Answered cfg.adapters e.call e.answer) :
    (liveApplies h ≠ [] →
      (PreviewDescribes cfg.adapters (previewOf api claimed) (liveApplies h) ↔
        isMulti claimed.actionName = false ∧ PreviewAllowed api claimed ∧
          ¬ (adapterForAction claimed.actionName = some .nftables ∧
            ResolvedToIpv6 cfg.adapters claimed.id h) ∧
          (ResolvedToRefused cfg.adapters claimed.id h ∨
            ∀ kind, adapterForAction claimed.actionName = some kind →
              RendersAlike api cfg.adapters kind))) ∧
    (liveApplies h = [] → o.completion = .failed) ∧
    (isMulti claimed.actionName = false → PreviewAllowed api claimed →
      previewOf api claimed = none → liveApplies h = [] ∧ o.completion = .failed) := by
  cases hmulti : isMulti claimed.actionName with
  | true =>
    refine ⟨fun _ => ⟨?_, fun hsingle => by cases hsingle.1⟩, ?_, fun hsingle => by cases hsingle⟩
    · rintro ⟨p, hp, -⟩
      rw [previewOf_multi hmulti] at hp
      cases hp
    · intro hnone
      rcases exec_dispatch hdispatch hexec with
        hfailed | ⟨target, action, applied, rest, -, -, -, hrest, happlies, hsub, -⟩
      · exact hfailed.1
      · rw [routed, hmulti] at hrest
        exact multi_failed ⟨rfl, rfl, rfl, rfl⟩ hrest (fun e he => hanswered e (hsub e he))
          (happlies ▸ hnone)
  | false =>
    cases hkind : adapterForAction claimed.actionName with
    | none => simp [tryDispatchGenericWithMode, hmulti, hkind] at hdispatch
    | some kind =>
      rcases exec_single hmulti hkind hdispatch hexec hanswered with
        ⟨hfailed, hnone⟩ |
        ⟨action, applied, rendered, hr, hfirst, hrender, ⟨target, htarget, hparse⟩, happlied⟩
      · exact ⟨fun hsome => absurd hnone hsome, fun _ => hfailed, fun _ _ _ => ⟨hnone, hfailed⟩⟩
      · obtain ⟨hpreview, hallowed⟩ := previewOf_isSome_iff api hkind htarget hparse hrender
        rw [happlied]
        refine ⟨fun _ => ?_, fun hnil => absurd hnil (cons_ne_nil _ _), fun _ hpasses hnone => ?_⟩
        · constructor
          · rintro ⟨p, hp, -, hall⟩
            have hpasses := hallowed (by rw [hp]; exact some_ne_none p)
            obtain ⟨previewed, hpreviewed, hshown⟩ := hpreview hpasses
            cases hshown.symm.trans hp
            obtain ⟨hipv4, halike⟩ := (shows_all_iff hr hfirst hpreviewed hrender).1
              fun receipt => hall _ (mem_singleton_self _) receipt
            exact ⟨rfl, hpasses, fun hnft => hipv4 ⟨some.inj hnft.1, hnft.2⟩,
              halike.imp_right fun h k hk => some.inj hk ▸ h⟩
          · rintro ⟨-, hpasses, hipv4, halike⟩
            obtain ⟨previewed, hpreviewed, hshown⟩ := hpreview hpasses
            refine ⟨_, hshown, fun name => ?_, fun a ha => ?_⟩
            · rw [show (previewOfReceipt previewed).adapter = kind.name from render_adapter hpreviewed]
              simp
            · rw [mem_singleton.mp ha]
              exact (shows_all_iff hr hfirst hpreviewed hrender).2
                ⟨fun hnft => hipv4 ⟨congrArg some hnft.1, hnft.2⟩, halike.imp_right fun h => h kind rfl⟩
        · obtain ⟨previewed, -, hshown⟩ := hpreview hpasses
          rw [hshown] at hnone
          cases hnone

/-- The executor of the sample world. -/
def sampleExecutor : ExecutorConfig := ⟨sampleConfig, "nftables,haproxy", 3600⟩

/-- A claimed request to block the sample address. -/
def sampleClaim (actionName : String) : ClaimedExecutionRequest where
  id := 7
  actionName := actionName
  target := some (Json.ofFields [("kind", .string "threat_intel_indicator"),
    ("cidr", .string "198.51.100.7"), ("source", .string "feed")])

/-- The live dispatch of the sample request. -/
def sampleDispatch (actionName : String) : Dispatch :=
  (tryDispatchGenericWithMode sampleExecutor (sampleClaim actionName) false).getD (failed "")

def sampleDispatchRun (actionName : String) :
    List (Prog.Event ExecCall.Answer) × GenericDispatchOutcome :=
  (sampleDispatch actionName).play (hosted sampleConfig (sampleHost false) (sampleHost true))

/-- An API whose environment names another ACL file. -/
def sampleApi : AdapterConfig := { sampleConfig with aclFile := "/etc/haproxy/other.acl" }

/-- A single-adapter block runs what its preview shows if the API renders as the executor does, and
not if it names another ACL file. -/
theorem preview_describes_iff_haproxy :
    liveApplies (sampleDispatchRun "haproxy.block").1 ≠ [] ∧
      PreviewDescribes sampleConfig (previewOf sampleConfig (sampleClaim "haproxy.block"))
        (liveApplies (sampleDispatchRun "haproxy.block").1) ∧
      ¬ PreviewDescribes sampleConfig (previewOf sampleApi (sampleClaim "haproxy.block"))
        (liveApplies (sampleDispatchRun "haproxy.block").1) := by
  have hexec : Prog.Exec (sampleDispatch "haproxy.block") (sampleDispatchRun "haproxy.block").1
    (sampleDispatchRun "haproxy.block").2 := Prog.exec_play _ _
  have happlied : liveApplies (sampleDispatchRun "haproxy.block").1 ≠ [] := by decide
  have hroute : adapterForAction (sampleClaim "haproxy.block").actionName = some .haproxy := by decide
  have hdispatch : tryDispatchGenericWithMode sampleExecutor (sampleClaim "haproxy.block") false =
    some (sampleDispatch "haproxy.block") := rfl
  have hdescribes := fun api => @preview_describes_iff _ api _ _ _ _ hdispatch hexec
    (answered_hosted _ _ _ _)
  refine ⟨happlied, ((hdescribes _).1 happlied).mpr ⟨by decide, ?_, ?_, .inr ?_⟩, fun hsame => ?_⟩
  · intro target htarget
    have hsample : FirewallTarget.tryFrom ((sampleClaim "haproxy.block").target.getD .null) =
        .ok sampleAction.target := by decide
    cases hsample.symm.trans htarget
    decide
  · intro hnft
    cases hroute.symm.trans hnft.1
  · intro kind hkind
    cases hroute.symm.trans hkind
    rfl
  · rcases (((hdescribes _).1 happlied).mp hsame).2.2.2 with ⟨r, hhead, -⟩ | halike
    · cases hhead
    · have hfile : sampleApi.aclFile = sampleConfig.aclFile := halike .haproxy hroute
      exact absurd hfile (by decide)

/-- A fan-out blocks at HAProxy, and the approver was shown no preview. -/
theorem fan_out_applies_without_preview :
    ∃ dispatch h o, tryDispatchGenericWithMode sampleExecutor (sampleClaim "firewall.block") false =
        some dispatch ∧
      Prog.Exec dispatch h o ∧ (∀ e ∈ h, Answered sampleConfig e.call e.answer) ∧
      liveApplies h ≠ [] ∧ o.effect = .verifiedOwned 1 ∧
      ∀ api, previewOf api (sampleClaim "firewall.block") = none :=
  ⟨sampleDispatch "firewall.block", (sampleDispatchRun "firewall.block").1,
    (sampleDispatchRun "firewall.block").2, rfl, Prog.exec_play _ _, answered_hosted _ _ _ _,
    by decide, by decide, fun _ => previewOf_multi (by decide)⟩

end Clawforge.Executor

import Clawforge.Executor.MassBlock
import Clawforge.Theorems.Preview

/-!
# Routing and gating

Five functions read an action name: whether it may go live, which class it is of, whether it counts
as a firewall action, which adapters it reserves a slot of, and which it is routed to. A name that
may go live is read alike by all of them, but for go-away: a slot is reserved of an adapter whose
generations the store refuses to prepare, so that no live dispatch gets to its apply. What a
dispatch can mutate is read off its executions.
-/

namespace Clawforge.MassBlock

open Executor Firewall Kit RuleIntents Text List

variable {cfg : AdapterConfig} {kind : AdapterKind} {action : FirewallAction} {actionName : String}
  {multiAdapters : String} {h : List (Prog.Event ExecCall.Answer)}

/-! ## The property -/

/-- The store prepares a generation only as `prepare_firewall_rule_intent` does. -/
def StoreAnswered : (c : ExecCall) → c.Answer → Prop
  | .prepare args, .ok id => ∃ L now L', prepareFirewallRuleIntent L args id now = .ok L'
  | _, _ => True

/-- Some live dispatch of the name, on some hosts and some ledger, calls a live apply of the
adapter. -/
def CanMutate (multiAdapters actionName : String) (kind : AdapterKind) : Prop :=
  ∃ cfg claimed dispatch h o action, cfg.multiAdapters = multiAdapters ∧
    claimed.actionName = actionName ∧
    tryDispatchGenericWithMode cfg claimed false = some dispatch ∧ Prog.Exec dispatch h o ∧
    (∀ e ∈ h, Answered cfg.adapters e.call e.answer ∧ StoreAnswered e.call e.answer) ∧
    (kind, action) ∈ liveApplies h

/-- What the functions say of a name that goes live. -/
structure Agreed (settings : Settings) (actionName : String) : Prop where
  /-- its class is on the allowlist -/
  allowed : ∃ actions, settings.authorized = some actions ∧
    ∃ «class» ∈ actions, actionClass actionName = some «class»
  /-- a slot is reserved of what the dispatch can mutate, and of nothing else -/
  reserved : ∀ name, name ∈ adaptersTouchedBy settings.multiAdapters actionName ↔
    ∃ kind, kind.name = name ∧ CanMutate settings.multiAdapters actionName kind
  /-- the adapter it is routed to is the one its class names; the fan-out's class names none -/
  routed : ∀ kind, adapterForAction actionName = some kind ↔
    actionClass actionName = some kind.name
  fanOut : isMulti actionName = true ↔ actionClass actionName = some "firewall"
  firewall : isFirewallAction actionName = true
  /-- the generic dispatch takes it -/
  generic : ∀ cfg claimed, claimed.actionName = actionName →
    (tryDispatchGenericWithMode cfg claimed false).isSome = true

/-! ## Names -/

/-- The adapters a name is routed to. -/
def routedAdapters (multiAdapters actionName : String) : List AdapterKind :=
  if isMulti actionName then configuredMultiAdapters multiAdapters
  else (adapterForAction actionName).toList

theorem startsWith_of_append {s head rest : String} (h : startsWith s (head ++ rest) = true) :
    startsWith s head = true := by
  unfold startsWith at h ⊢
  rw [List.isPrefixOf_iff_prefix] at h ⊢
  rw [String.toList_append] at h
  exact (prefix_append _ _).trans h

theorem AdapterKind.name_injective {a b : AdapterKind} (h : a.name = b.name) : a = b := by
  cases a <;> cases b <;> first | rfl | exact absurd h (by decide)

/-- What is read off a name of one adapter. -/
structure SingleName (actionName : String) (kind : AdapterKind) : Prop where
  multi : isMulti actionName = false
  adapter : adapterForAction actionName = some kind
  classed : actionClass actionName = some kind.name
  touched : ∀ multiAdapters, adaptersTouchedBy multiAdapters actionName = [kind.name]
  firewall : isFirewallAction actionName = true

theorem not_quarantine {head : String} (h : startsWith actionName head = true)
    (hq : ∀ q ∈ quarantineActions, startsWith q head = false) : actionName ∉ quarantineActions := by
  intro hmem
  rw [hq actionName hmem] at h
  cases h

theorem ne_of_not_quarantine (h : actionName ∉ quarantineActions) :
    actionName ≠ "tailscale.quarantine_device" ∧ actionName ≠ "proxmox.quarantine_vm" ∧
      actionName ≠ "docker.quarantine_container" := by
  simpa [quarantineActions] using h

/-- Of the four heads with a dot, such a name has its own adapter's only. -/
theorem startsWith_dot (h : startsWith actionName (kind.name ++ ".") = true) (k : AdapterKind) :
    startsWith actionName (k.name ++ ".") = decide (k = kind) := by
  by_cases hk : k = kind
  · rw [hk, h, decide_eq_true rfl]
  · rw [decide_eq_false hk]
    refine startsWith_eq_false h ?_
    cases k <;> cases kind <;> first | exact absurd rfl hk | decide

/-- A name that starts with an adapter's and a dot is that adapter's for all of them. -/
theorem singleName_of_startsWith (h : startsWith actionName (kind.name ++ ".") = true) :
    SingleName actionName kind := by
  have hnot : ∀ head : String, (∃ p ∈ (kind.name ++ ".").toList.zip head.toList, p.1 ≠ p.2) →
      startsWith actionName head = false := fun _ hne => startsWith_eq_false h hne
  have hquarantine : actionName ∉ quarantineActions :=
    not_quarantine h (by cases kind <;> decide)
  obtain ⟨htailscale, hproxmox, hdocker⟩ := ne_of_not_quarantine hquarantine
  have hmulti : isMulti actionName = false := by
    unfold isMulti
    cases kind <;> exact hnot _ (by decide)
  have hnftables : startsWith actionName "nftables." = _ := startsWith_dot h .nftables
  have hratelimit : startsWith actionName "haproxy_ratelimit." = _ :=
    startsWith_dot h .haproxyRatelimit
  have hhaproxy : startsWith actionName "haproxy." = _ := startsWith_dot h .haproxy
  have hgoaway : startsWith actionName "goaway." = _ := startsWith_dot h .goaway
  constructor
  · exact hmulti
  · -- the heads are tried without their dots, and `haproxy` is one of `haproxy_ratelimit`
    have hname : startsWith actionName kind.name = true := startsWith_of_append h
    unfold adapterForAction
    cases kind with
    | nftables => exact if_pos hname
    | haproxyRatelimit =>
      rw [hnot "nftables" (by decide)]
      exact if_pos hname
    | haproxy =>
      rw [hnot "nftables" (by decide), hnot "haproxy_ratelimit" (by decide)]
      exact if_pos hname
    | goaway =>
      rw [hnot "nftables" (by decide), hnot "haproxy_ratelimit" (by decide),
        hnot "haproxy" (by decide)]
      exact if_pos hname
  · rw [actionClass, if_neg hquarantine, hnftables, hratelimit, hhaproxy, hgoaway]
    cases kind <;> rfl
  · intro m
    rw [adaptersTouchedBy, hmulti, if_neg htailscale, if_neg hproxmox, if_neg hdocker, hnftables,
      hratelimit, hhaproxy, hgoaway]
    cases kind <;> rfl
  · rw [isFirewallAction, hnftables, hratelimit, hhaproxy, hgoaway]
    cases kind <;> rfl

/-- What is read off a name of the fan-out. -/
structure FanOutName (actionName : String) : Prop where
  adapter : adapterForAction actionName = none
  classed : actionClass actionName = some "firewall"
  touched : ∀ multiAdapters, adaptersTouchedBy multiAdapters actionName =
    (configuredMultiAdapters multiAdapters).map AdapterKind.name
  firewall : isFirewallAction actionName = true

theorem fanOutName_of_isMulti (h : isMulti actionName = true) : FanOutName actionName := by
  have hnot : ∀ head : String, (∃ p ∈ "firewall.".toList.zip head.toList, p.1 ≠ p.2) →
      startsWith actionName head = false := fun _ hne => startsWith_eq_false h hne
  have hquarantine : actionName ∉ quarantineActions := not_quarantine h (by decide)
  constructor
  · simp [adapterForAction, hnot "nftables" (by decide), hnot "haproxy_ratelimit" (by decide),
      hnot "haproxy" (by decide), hnot "goaway" (by decide)]
  · simp [actionClass, hquarantine, hnot "nftables." (by decide),
      hnot "haproxy_ratelimit." (by decide), hnot "haproxy." (by decide),
      hnot "goaway." (by decide), h]
  · intro m
    simp [adaptersTouchedBy, h]
  · simp [isFirewallAction, h]

/-- A name with a class is a name of one adapter or of the fan-out. -/
theorem name_of_actionClass {«class» : String} (h : actionClass actionName = some «class») :
    (∃ kind, SingleName actionName kind) ∨ isMulti actionName = true := by
  unfold actionClass at h
  split at h
  · cases h
  · split at h
    case isTrue hname => exact .inl ⟨.nftables, singleName_of_startsWith hname⟩
    case isFalse =>
      split at h
      case isTrue hname => exact .inl ⟨.haproxyRatelimit, singleName_of_startsWith hname⟩
      case isFalse =>
        split at h
        case isTrue hname => exact .inl ⟨.haproxy, singleName_of_startsWith hname⟩
        case isFalse =>
          split at h
          case isTrue hname => exact .inl ⟨.goaway, singleName_of_startsWith hname⟩
          case isFalse =>
            split at h
            case isTrue hmulti => exact .inr hmulti
            case isFalse => cases h

/-! ## What a dispatch can mutate -/

/-- A call that is no live apply of another adapter. -/
def OwnApply (kind : AdapterKind) (c : ExecCall) : Prop := ∀ p ∈ c.liveApply, p.1 = kind

section Uses

variable {dryRun : Bool} {journal : Option RuleJournal}

theorem uses_failed (reason : String) : Prog.Uses (OwnApply kind) (failed reason) := trivial

theorem ownApply_of_none {c : ExecCall} (h : c.liveApply = none) : OwnApply kind c := by
  intro p hp
  rw [h] at hp
  cases hp

theorem uses_uncertainOutcome (effect : FirewallEffect) :
    Prog.Uses (OwnApply kind) (uncertainOutcome kind action effect) :=
  ⟨ownApply_of_none rfl, fun _ => trivial⟩

theorem uses_settleApply (prepared : Option Prepared) (preflightState : Json)
    (r : Except AdapterError ApplyResult) : Prog.Uses (OwnApply kind)
      (settleApply cfg kind action dryRun prepared preflightState r) := by
  cases dryRun with
  | true =>
    cases r with
    | error e => exact uses_failed _
    | ok result => exact trivial
  | false =>
    cases r with
    | error e =>
      cases prepared with
      | some p => exact ⟨ownApply_of_none rfl, fun _ => uses_uncertainOutcome _⟩
      | none => exact uses_uncertainOutcome _
    | ok result =>
      refine ⟨ownApply_of_none rfl, fun verified => ?_⟩
      cases prepared with
      | none => exact trivial
      | some p =>
        show Prog.Uses _ (if _ then _ else _)
        split
        · refine ⟨ownApply_of_none rfl, fun finished => ?_⟩
          cases finished with
          | ok _ => exact trivial
          | error _ => exact ⟨ownApply_of_none rfl, fun _ => trivial⟩
        · exact ⟨ownApply_of_none rfl, fun _ => trivial⟩

theorem uses_runApply (prepared : Option Prepared) (preflightState : Json) :
    Prog.Uses (OwnApply kind) (runApply cfg kind action dryRun prepared preflightState) := by
  unfold runApply
  split
  · exact uses_settleApply _ _ _
  · refine ⟨?_, fun r => uses_settleApply _ _ _⟩
    intro p hp
    cases dryRun with
    | true => cases hp
    | false =>
      cases hp
      rfl

theorem uses_prepareApply (preflightState : Json) (alreadyBlocked : Bool) :
    Prog.Uses (OwnApply kind)
      (prepareApply cfg kind action dryRun journal preflightState alreadyBlocked) := by
  unfold prepareApply
  split
  case h_2 => exact uses_runApply _ _
  case h_1 journal =>
    split
    · exact uses_failed _
    · split
      · exact uses_failed _
      · refine ⟨ownApply_of_none rfl, fun answer => ?_⟩
        cases answer with
        | ok id => exact uses_runApply _ _
        | error _ => exact uses_failed _

/-- The dispatch of one adapter applies no other. -/
theorem uses_applySingleAdapter :
    Prog.Uses (OwnApply kind) (applySingleAdapter cfg kind action dryRun journal) := by
  refine ⟨ownApply_of_none rfl, fun answer => ?_⟩
  cases answer with
  | ok preflight => exact uses_prepareApply _ _
  | error _ =>
    dsimp only
    split
    · exact uses_prepareApply _ _
    · exact uses_failed _

end Uses

theorem liveApplies_applySingleAdapter {journal : Option RuleJournal} {o : GenericDispatchOutcome}
    (hexec : Prog.Exec (applySingleAdapter cfg kind action false journal) h o) :
    ∀ p ∈ liveApplies h, p.1 = kind := by
  intro p hp
  obtain ⟨e, he, hp⟩ := mem_filterMap.1 hp
  exact uses_applySingleAdapter.exec hexec e he p hp

/-- The store refuses a generation of go-away, so its dispatch does not get to the apply. -/
theorem goaway_never_applies {journal : RuleJournal} {o : GenericDispatchOutcome}
    (hexec : Prog.Exec (applySingleAdapter cfg .goaway action false (some journal)) h o)
    (hstored : ∀ e ∈ h, StoreAnswered e.call e.answer) : liveApplies h = [] := by
  have hfailed : ∀ {reason : String} {rest : List (Prog.Event ExecCall.Answer)},
      Prog.Exec (failed reason) rest o → rest = [] := fun h => h.of_pure.1
  obtain ⟨answer, rest, rfl, hrest⟩ := hexec.of_call
  cases answer with
  | error e => rw [hfailed hrest]; rfl
  | ok preflight =>
    change Prog.Exec (if preflight.alreadyBlocked = true then _ else _) rest o at hrest
    split at hrest
    · rw [hfailed hrest]; rfl
    · split at hrest
      · rw [hfailed hrest]; rfl
      · obtain ⟨answer, rest, rfl, hnext⟩ := hrest.of_call
        cases answer with
        | error e => rw [hfailed hnext]; rfl
        | ok id =>
          obtain ⟨L, now, L', hprepared⟩ :=
            hstored _ (mem_cons_of_mem _ mem_cons_self)
          unfold prepareFirewallRuleIntent at hprepared
          split at hprepared
          · rename_i hvalid
            simp [validIntentMetadata, prepareArgs, AdapterKind.name] at hvalid
          · cases hprepared

theorem configured_ne_goaway (h : kind ∈ configuredMultiAdapters multiAdapters) :
    kind ≠ .goaway := by
  have hknown : ∀ k ∈ ((trimmedPieces ',' multiAdapters.toList).map String.ofList).filterMap
      multiAdapterNamed, k ≠ .goaway := by
    intro k hk
    obtain ⟨name, -, hname⟩ := mem_filterMap.1 hk
    unfold multiAdapterNamed at hname
    split at hname
    · cases hname; decide
    · split at hname
      · cases hname; decide
      · split at hname <;> cases hname
        decide
  unfold configuredMultiAdapters at h
  have hmem := (destutter_sublist _ _).subset h
  split at hmem
  · exact hknown kind hmem
  · rcases mem_cons.1 hmem with rfl | hmem
    · decide
    · exact hknown kind hmem

/-- A dispatch applies only what its name is routed to, and go-away never. -/
theorem routed_of_canMutate (h : CanMutate multiAdapters actionName kind) :
    kind ∈ routedAdapters multiAdapters actionName ∧ kind ≠ .goaway := by
  obtain ⟨cfg, claimed, dispatch, h, o, action, rfl, rfl, hdispatch, hexec, hanswered, hmem⟩ := h
  rcases exec_dispatch hdispatch hexec with ⟨-, hnil⟩ |
    ⟨target, parsed, applied, rest, -, -, -, hrest, happlies, hsub, -⟩
  · rw [hnil] at hmem
    cases hmem
  · rw [happlies] at hmem
    unfold routed at hrest
    unfold routedAdapters
    cases hmulti : isMulti claimed.actionName with
    | true =>
      rw [hmulti] at hrest
      obtain ⟨runs, hkinds, rfl, hruns, -⟩ := exec_multiLoop hrest
      obtain ⟨e, he, hp⟩ := mem_filterMap.1 hmem
      obtain ⟨r, hr, her⟩ := mem_flatMap.1 he
      have hkind := liveApplies_applySingleAdapter (hruns r hr) (kind, action)
        (mem_filterMap.2 ⟨e, her, hp⟩)
      have hconfigured : kind ∈ configuredMultiAdapters cfg.multiAdapters := by
        rw [← hkinds, show kind = r.kind from hkind]
        exact List.mem_map_of_mem hr
      rw [if_pos rfl]
      exact ⟨hconfigured, configured_ne_goaway hconfigured⟩
    | false =>
      rw [hmulti] at hrest
      cases hadapter : adapterForAction claimed.actionName with
      | none =>
        simp [tryDispatchGenericWithMode, hmulti, hadapter] at hdispatch
      | some k =>
        rw [hadapter] at hrest
        have hkind : kind = k := liveApplies_applySingleAdapter hrest (kind, action) hmem
        subst hkind
        refine ⟨mem_singleton_self kind, ?_⟩
        rintro rfl
        rw [goaway_never_applies hrest fun e he => (hanswered e (hsub e he)).2] at hmem
        cases hmem

/-! ## What it does mutate somewhere -/

/-- A host without any rule, where every command succeeds. -/
def emptyHost : (c : HostCall) → c.Answer
  | .command _ => .ok ⟨true, "", "", ""⟩
  | .adminSocket _ _ => .ok ""
  | .readPolicy _ => .ok none
  | .writePolicy _ _ => .ok ()

/-- The answers of that host, and of a store whose ledger is empty. -/
def emptyWorld : (c : ExecCall) → c.Answer
  | .prepare args => (prepareFirewallRuleIntent .empty args 1 0).map fun _ => 1
  | c => hosted sampleConfig emptyHost emptyHost c

theorem answered_emptyWorld {α : Type} (p : Prog ExecCall.Answer α) :
    ∀ e ∈ (p.play emptyWorld).1,
      Answered sampleConfig e.call e.answer ∧ StoreAnswered e.call e.answer := by
  intro e he
  rw [Prog.play_answers _ p e he]
  cases e.call with
  | preflight | apply | verify => exact ⟨⟨_, Prog.exec_play emptyHost _⟩, trivial⟩
  | finish id input | recoveryRequired id | resolveIncidentSource id => exact ⟨trivial, trivial⟩
  | prepare args =>
    refine ⟨trivial, ?_⟩
    show StoreAnswered (.prepare args) ((prepareFirewallRuleIntent .empty args 1 0).map fun _ => 1)
    cases hprepared : prepareFirewallRuleIntent .empty args 1 0 with
    | error e => exact trivial
    | ok L => exact ⟨.empty, 0, L, hprepared⟩

/-- The executor of those hosts, with the sample's configuration. -/
def anyExecutor (multiAdapters : String) : ExecutorConfig := ⟨sampleConfig, multiAdapters, 3600⟩

def blockAction : FirewallAction where
  target := .threatIntelIndicator "198.51.100.7" "feed"
  ttlSeconds := 3600
  reason := "execution_request " ++ EventDelivery.uuidText 7

theorem mem_liveApplies_cons {p : AdapterKind × FirewallAction} {e : Prog.Event ExecCall.Answer}
    (hp : p ∈ liveApplies h) : p ∈ liveApplies (e :: h) := by
  obtain ⟨x, hx, hp⟩ := mem_filterMap.1 hp
  exact mem_filterMap.2 ⟨x, mem_cons_of_mem _ hx, hp⟩

theorem preflight_emptyWorld (hkind : kind ≠ .goaway) :
    emptyWorld (.preflight kind blockAction.target) = .ok ⟨false, ""⟩ := by
  cases kind with
  | goaway => exact absurd rfl hkind
  | nftables | haproxy | haproxyRatelimit => rfl

/-- The store prepares a generation of the action, whatever the request's name. -/
theorem prepare_emptyWorld (hkind : kind ≠ .goaway) (actionName : String) :
    ∃ rendered, (kind.adapter sampleConfig).render (receiptSafeAction blockAction) = .ok rendered ∧
      emptyWorld (.prepare (prepareArgs sampleConfig kind blockAction ⟨7, actionName⟩ rendered
        (adapterStateJson sampleConfig ""))) = .ok 1 := by
  have haccepted : ∃ rendered,
      (kind.adapter sampleConfig).render (receiptSafeAction blockAction) = .ok rendered ∧
      let args := prepareArgs sampleConfig kind blockAction ⟨7, ""⟩ rendered
        (adapterStateJson sampleConfig "")
      validIntentMetadata args = true ∧ snapshotComplete (preparedRow args 1 0) = true := by
    cases kind with
    | goaway => exact absurd rfl hkind
    | nftables | haproxy | haproxyRatelimit => exact ⟨_, rfl, by decide +kernel⟩
  obtain ⟨rendered, hrender, hvalid, hcomplete⟩ := haccepted
  refine ⟨rendered, hrender, ?_⟩
  have howns : ∀ key, ¬ Ledger.empty.owns key := by
    rintro key ⟨r, hr, -⟩
    cases hr
  -- neither check reads the request's name
  have hvalid : validIntentMetadata (prepareArgs sampleConfig kind blockAction ⟨7, actionName⟩
      rendered (adapterStateJson sampleConfig "")) = true := hvalid
  have hcomplete : snapshotComplete (preparedRow (prepareArgs sampleConfig kind blockAction
      ⟨7, actionName⟩ rendered (adapterStateJson sampleConfig "")) 1 0) = true := hcomplete
  show (prepareFirewallRuleIntent .empty _ 1 0).map _ = _
  rw [prepareFirewallRuleIntent, if_pos hvalid, insertIntent, if_pos ⟨hcomplete, howns _⟩]
  rfl

/-- In that world the action is applied. -/
theorem applies_single (hkind : kind ≠ .goaway) (actionName : String) :
    (kind, blockAction) ∈ liveApplies ((applySingleAdapter sampleConfig kind blockAction false
      (some ⟨7, actionName⟩)).play emptyWorld).1 := by
  obtain ⟨rendered, hrender, hprepare⟩ := prepare_emptyWorld hkind actionName
  rw [applySingleAdapter, Prog.play, preflight_emptyWorld hkind]
  apply mem_liveApplies_cons
  dsimp only [prepareApply]
  rw [if_neg Bool.false_ne_true, hrender]
  dsimp only
  rw [Prog.play, hprepare]
  apply mem_liveApplies_cons
  show (kind, blockAction) ∈ (kind, blockAction) :: liveApplies _
  exact mem_cons_self

theorem applies_multi {adapters : List AdapterKind} (hkind : kind ∈ adapters)
    (hne : kind ≠ .goaway) (actionName : String) (s : MultiState) :
    (kind, blockAction) ∈ liveApplies ((multiLoop sampleConfig blockAction false
      (some ⟨7, actionName⟩) adapters s).play emptyWorld).1 := by
  induction adapters generalizing s with
  | nil => cases hkind
  | cons k rest ih =>
    show (kind, blockAction) ∈ liveApplies (((applySingleAdapter sampleConfig k blockAction false
      _).bind _).play emptyWorld).1
    rw [Prog.play_bind, liveApplies, filterMap_append, mem_append]
    rcases mem_cons.1 hkind with rfl | hkind
    · exact .inl (applies_single hne actionName)
    · exact .inr (ih hkind _)

def blockTarget : Json :=
  Json.ofFields [("kind", .string "threat_intel_indicator"), ("cidr", .string "198.51.100.7"),
    ("source", .string "feed")]

/-- A request of any name to block one address. -/
def blockRequest (actionName : String) : ClaimedExecutionRequest := ⟨7, actionName, some blockTarget⟩

theorem dispatch_blockRequest (hrouted : isMulti actionName = true ∨
      (adapterForAction actionName).isSome = true) :
    tryDispatchGenericWithMode (anyExecutor multiAdapters) (blockRequest actionName) false =
      some (routed (anyExecutor multiAdapters) (blockRequest actionName) blockAction) := by
  have hparse : parseFirewallAction 7 blockTarget = .ok blockAction := rfl
  have hceiling : ttlOverLiveCeiling blockAction.ttlSeconds 3600 false = none := rfl
  have hresolve : ∀ next, resolveTarget 7 blockAction false next = next blockAction :=
    fun _ => rfl
  have htaken : (!isMulti actionName && (if isMulti actionName then none
      else adapterForAction actionName).isNone) = false := by
    cases hmulti : isMulti actionName with
    | true => rfl
    | false =>
      rw [hmulti] at hrouted
      simpa using hrouted
  unfold tryDispatchGenericWithMode
  dsimp only [blockRequest, anyExecutor]
  rw [htaken, hparse]
  dsimp only
  rw [hceiling, hresolve]
  rfl

/-- A name's adapters are all applied somewhere, but for go-away. -/
theorem canMutate_of_routed (h : kind ∈ routedAdapters multiAdapters actionName)
    (hne : kind ≠ .goaway) : CanMutate multiAdapters actionName kind := by
  have hrouted : isMulti actionName = true ∨ (adapterForAction actionName).isSome = true := by
    unfold routedAdapters at h
    split at h
    case isTrue hmulti => exact .inl hmulti
    case isFalse => exact .inr (by rw [Option.mem_toList.1 h]; rfl)
  refine ⟨anyExecutor multiAdapters, blockRequest actionName, _, _, _, blockAction, rfl, rfl,
    dispatch_blockRequest hrouted, Prog.exec_play emptyWorld _, answered_emptyWorld _, ?_⟩
  unfold routedAdapters at h
  unfold routed
  split at h
  case isTrue hmulti =>
    have hselected : (if isMulti (blockRequest actionName).actionName = true then none
        else adapterForAction (blockRequest actionName).actionName) = none := if_pos hmulti
    rw [hselected]
    exact applies_multi h hne actionName _
  case isFalse hmulti =>
    have hselected : (if isMulti (blockRequest actionName).actionName = true then none
        else adapterForAction (blockRequest actionName).actionName) = some kind :=
      (if_neg hmulti).trans (Option.mem_toList.1 h)
    rw [hselected]
    exact applies_single hne actionName

theorem canMutate_iff : CanMutate multiAdapters actionName kind ↔
    kind ∈ routedAdapters multiAdapters actionName ∧ kind ≠ .goaway :=
  ⟨routed_of_canMutate, fun h => canMutate_of_routed h.1 h.2⟩

/-! ## Names that go live -/

theorem touched_of_actionClass {«class» : String} (h : actionClass actionName = some «class») :
    adaptersTouchedBy multiAdapters actionName =
      (routedAdapters multiAdapters actionName).map AdapterKind.name := by
  unfold routedAdapters
  rcases name_of_actionClass h with ⟨kind, hname⟩ | hmulti
  · rw [hname.touched, hname.multi, hname.adapter]
    rfl
  · rw [(fanOutName_of_isMulti hmulti).touched, if_pos hmulti]

theorem goaway_routed_iff {«class» : String} (h : actionClass actionName = some «class») :
    .goaway ∈ routedAdapters multiAdapters actionName ↔ startsWith actionName "goaway." = true := by
  constructor
  · intro hmem
    unfold routedAdapters at hmem
    rcases name_of_actionClass h with ⟨kind, hname⟩ | hmulti
    · rw [hname.multi, hname.adapter] at hmem
      cases mem_singleton.1 hmem
      have hclass := hname.classed
      unfold actionClass at hclass
      by_contra hnot
      rw [if_neg hnot] at hclass
      repeat' split at hclass
      all_goals exact absurd hclass (by decide)
    · rw [if_pos hmulti] at hmem
      exact absurd rfl (configured_ne_goaway hmem)
  · intro hname
    have hsingle : SingleName actionName .goaway := singleName_of_startsWith hname
    rw [routedAdapters, hsingle.multi, hsingle.adapter]
    exact mem_singleton_self _

theorem agreed_iff_of_live {settings : Settings} {simulationOnly : Bool}
    (h : resolveDryRun settings.dryRun simulationOnly settings.authorized actionName = false) :
    Agreed settings actionName ↔ startsWith actionName "goaway." = false := by
  have hauth : settings.authorized.any (fun actions => allowsAction actions actionName) = true := by
    unfold resolveDryRun at h
    split at h
    · cases h
    · simpa using h
  obtain ⟨actions, hactions, hallowed⟩ : ∃ actions, settings.authorized = some actions ∧
      allowsAction actions actionName = true := by
    cases ha : settings.authorized with
    | none => rw [ha] at hauth; cases hauth
    | some actions => rw [ha] at hauth; exact ⟨actions, rfl, hauth⟩
  obtain ⟨«class», hclass, hmem⟩ : ∃ «class», actionClass actionName = some «class» ∧
      «class» ∈ actions := by
    unfold allowsAction at hallowed
    cases hc : actionClass actionName with
    | none => rw [hc] at hallowed; cases hallowed
    | some «class» => rw [hc] at hallowed; exact ⟨«class», rfl, by simpa using hallowed⟩
  constructor
  · intro hagreed
    by_contra hgoaway
    rw [Bool.not_eq_false] at hgoaway
    have hrouted : AdapterKind.goaway ∈ routedAdapters settings.multiAdapters actionName :=
      (goaway_routed_iff hclass).2 hgoaway
    obtain ⟨kind, hname, hmutates⟩ := (hagreed.reserved AdapterKind.goaway.name).1 (by
      rw [touched_of_actionClass hclass]
      exact List.mem_map_of_mem hrouted)
    exact (canMutate_iff.1 hmutates).2 (AdapterKind.name_injective hname)
  intro hother
  have hne : ∀ kind ∈ routedAdapters settings.multiAdapters actionName, kind ≠ .goaway := by
    rintro kind hkind rfl
    rw [(goaway_routed_iff hclass).1 hkind] at hother
    cases hother
  constructor
  case allowed => exact ⟨actions, hactions, «class», hmem, hclass⟩
  case reserved =>
    intro name
    rw [touched_of_actionClass hclass, List.mem_map]
    constructor
    · rintro ⟨kind, hkind, hname⟩
      exact ⟨kind, hname, canMutate_iff.2 ⟨hkind, hne kind hkind⟩⟩
    · rintro ⟨kind, hname, hkind⟩
      exact ⟨kind, (canMutate_iff.1 hkind).1, hname⟩
  case routed =>
    intro kind
    rcases name_of_actionClass hclass with ⟨k, hname⟩ | hmulti
    · rw [hname.adapter, hname.classed, Option.some.injEq, Option.some.injEq]
      exact ⟨fun hk => by rw [hk], fun hk => AdapterKind.name_injective hk⟩
    · have hname := fanOutName_of_isMulti hmulti
      rw [hname.adapter, hname.classed]
      refine ⟨fun hk => (by cases hk), fun hk => absurd (Option.some.inj hk) ?_⟩
      cases kind <;> decide
  case fanOut =>
    rcases name_of_actionClass hclass with ⟨k, hname⟩ | hmulti
    · rw [hname.multi, hname.classed]
      refine ⟨fun hk => (by cases hk), fun hk => absurd (Option.some.inj hk) ?_⟩
      cases k <;> decide
    · exact ⟨fun _ => (fanOutName_of_isMulti hmulti).classed, fun _ => hmulti⟩
  case firewall =>
    rcases name_of_actionClass hclass with ⟨k, hname⟩ | hmulti
    · exact hname.firewall
    · exact (fanOutName_of_isMulti hmulti).firewall
  case generic =>
    rintro cfg claimed rfl
    rcases name_of_actionClass hclass with ⟨k, hname⟩ | hmulti
    · simp [tryDispatchGenericWithMode, hname.multi, hname.adapter]
    · simp [tryDispatchGenericWithMode, hmulti]

/-- A quarantine is dry, whatever is authorized, and the generic dispatch leaves it alone. -/
theorem quarantine_dry (settings : Settings) (simulationOnly : Bool)
    (h : actionName ∈ quarantineActions) :
    resolveDryRun settings.dryRun simulationOnly settings.authorized actionName = true ∧
      ∀ cfg claimed dryRun, claimed.actionName = actionName →
        tryDispatchGenericWithMode cfg claimed dryRun = none := by
  constructor
  · have hclass : actionClass actionName = none := by rw [actionClass, if_pos h]
    unfold resolveDryRun allowsAction
    rw [hclass]
    split
    · rfl
    · cases settings.authorized <;> rfl
  · rintro cfg claimed dryRun rfl
    have hroute : isMulti claimed.actionName = false ∧
        adapterForAction claimed.actionName = none := by
      have hall : ∀ q ∈ quarantineActions, isMulti q = false ∧ adapterForAction q = none := by
        decide
      exact hall _ h
    simp [tryDispatchGenericWithMode, hroute.1, hroute.2]

/-- A name that goes live is read alike by all that gate and route it exactly if it is none of
go-away's, and a quarantine never goes live. -/
theorem routing_agrees_iff (settings : Settings) (simulationOnly : Bool) (actionName : String) :
    (resolveDryRun settings.dryRun simulationOnly settings.authorized actionName = false →
      (Agreed settings actionName ↔ startsWith actionName "goaway." = false)) ∧
    (actionName ∈ quarantineActions →
      resolveDryRun settings.dryRun simulationOnly settings.authorized actionName = true ∧
      ∀ cfg claimed dryRun, claimed.actionName = actionName →
        tryDispatchGenericWithMode cfg claimed dryRun = none) :=
  ⟨agreed_iff_of_live, quarantine_dry settings simulationOnly⟩

/-- Live, with the fan-out, HAProxy and go-away authorized. -/
def liveSettings : Settings where
  dryRun := false
  authorized := some ["firewall", "haproxy", "goaway"]
  multiAdapters := "haproxy,nftables,haproxy"
  rateWindowSeconds := none
  maxAppliesPerWindow := none

theorem routing_agrees_iff_firewall : Agreed liveSettings "firewall.block_indicator" ∧
    resolveDryRun false false liveSettings.authorized "docker.quarantine_container" = true :=
  ⟨((routing_agrees_iff liveSettings false "firewall.block_indicator").1 (by decide)).2 (by decide),
    ((routing_agrees_iff liveSettings false "docker.quarantine_container").2 (by decide)).1⟩

/-- A live go-away request reserves a slot of an adapter it cannot mutate. -/
theorem goaway_reserved_never_mutated :
    resolveDryRun false false liveSettings.authorized "goaway.challenge_indicator" = false ∧
      "goaway" ∈ adaptersTouchedBy liveSettings.multiAdapters "goaway.challenge_indicator" ∧
      (∀ kind, ¬ CanMutate liveSettings.multiAdapters "goaway.challenge_indicator" kind) ∧
      ¬ Agreed liveSettings "goaway.challenge_indicator" := by
  have hnever : ∀ kind, ¬ CanMutate liveSettings.multiAdapters "goaway.challenge_indicator" kind := by
    intro kind hmutates
    obtain ⟨hrouted, hne⟩ := canMutate_iff.1 hmutates
    have honly : routedAdapters liveSettings.multiAdapters "goaway.challenge_indicator" = [.goaway] := by
      decide
    rw [honly] at hrouted
    exact hne (mem_singleton.1 hrouted)
  refine ⟨by decide, by decide, hnever, fun hagreed => ?_⟩
  obtain ⟨kind, -, hmutates⟩ := (hagreed.reserved "goaway").1 (by decide)
  exact hnever kind hmutates

end Clawforge.MassBlock

import Clawforge.Executor.QuarantineWorkers

/-!
# What a quarantine job may do

The typestate of the three jobs, proved from their programs alone: which rows
and answers a job has seen whenever it restores a target, resolves its
generation or hands it to an operator.
-/

namespace Clawforge.Quarantine

open Clawforge.Firewall Kit List
open Prog (guided_bind guided_lift_bind guided_except_bind)

/-! ## Recorded state -/

def recordedNetworks (i : QuarantineIntent) : Option (List NetworkAttachment) :=
  (i.rollbackPlan.get "networks").bind networksOf

def recordedNet0 (i : QuarantineIntent) : Option String :=
  (i.rollbackPlan.get "original_net0").bind Json.asStr

/-- The generation is of this virtual machine, and its recorded NIC is `net0`. -/
structure OfMachine (i : QuarantineIntent) (node : String) (vmid : Nat) : Prop where
  adapter : i.adapter = "proxmox"
  fingerprint : i.targetFingerprint = node ++ "/" ++ toString vmid
  node : i.targetJson.get "node" = some (.string node)
  vmid : (i.targetJson.get "vmid").bind Json.asU64 = some vmid

/-- The generation is of this container. -/
structure OfContainer (i : QuarantineIntent) (containerId : String) : Prop where
  adapter : i.adapter = "docker"
  fingerprint : i.targetFingerprint = containerId
  container : i.targetJson.get "container_id" = some (.string containerId)

/-- The call restores the generation's own target to its own recorded state. -/
def RestoresGeneration (i : QuarantineIntent) : HostCall → Prop
  | .connect args => ∃ containerId networks, OfContainer i containerId ∧
      recordedNetworks i = some networks ∧
      ∃ network ∈ networks, network.connectArgs containerId = .ok args
  | .postConfig node vmid net0 _ => OfMachine i node vmid ∧ recordedNet0 i = some net0
  | _ => False

/-- The last answer of the host shows the recorded state. -/
def ReadBack (i : QuarantineIntent) (h : HostHistory) : Prop :=
  (∃ containerId networks, OfContainer i containerId ∧ recordedNetworks i = some networks ∧
      Docker.Restored containerId networks h) ∨
    (∃ node vmid net0, OfMachine i node vmid ∧ recordedNet0 i = some net0 ∧
      Proxmox.Restored node vmid net0 h)

/-- The outcome of the generation's own mutation is decided: the recorded task has stopped, or
the container was inspected. -/
def Proven (i : QuarantineIntent) (h : HostHistory) : Prop :=
  (∃ containerId networks, OfContainer i containerId ∧
      (⟨.inspect containerId, .ok networks⟩ : Prog.Event HostCall.Answer) ∈ h) ∨
    (∃ node vmid upid completion, OfMachine i node vmid ∧ i.proxmoxUpid = some upid ∧
      completion ≠ .running ∧
      (⟨.taskStatus node vmid upid, .ok completion⟩ : Prog.Event HostCall.Answer) ∈ h)

/-! ## Targets -/

/-- The fields of a target that name this identity. -/
def TargetNames (target : Json) : QuarantineIdentity → Prop
  | .docker containerId => target.get "container_id" = some (.string containerId)
  | .proxmox node vmid => target.get "node" = some (.string node) ∧
      (target.get "vmid").bind Json.asU64 = some vmid
  | .tailscale _ => True

theorem orError_ok {α : Type} {x : Option α} {message : String} {a : α}
    (h : orError x message = .ok a) : x = some a := by
  cases x with
  | none => cases h
  | some b => exact congrArg some (Except.ok.inj h)

theorem asStr_eq_some {v : Json} {s : String} (h : v.asStr = some s) : v = .string s := by
  cases v with
  | string t => exact congrArg Json.string (Option.some.inj h)
  | null | bool | number | array | object => cases h

variable {target : Json}

theorem get_asStr {field value : String} (h : (target.get field).bind Json.asStr = some value) :
    target.get field = some (.string value) := by
  obtain ⟨v, hv, hs⟩ := Option.bind_eq_some_iff.mp h
  rw [hv, asStr_eq_some hs]

theorem boundedString_ok {field value : String} {limit : Nat}
    (h : boundedString target field limit = .ok value) :
    target.get field = some (.string value) := by
  obtain ⟨v, hv, h⟩ := bind_ok h
  split at h
  · cases h
  · obtain rfl := Except.ok.inj h
    exact get_asStr (orError_ok hv)

theorem identify_ok {kind : QuarantineKind} {owner restore management : String}
    {p : QuarantineIdentity × Option QuarantinePreflight}
    (h : identify kind target owner restore management = .ok p) : TargetNames target p.1 := by
  cases kind with
  | docker =>
    obtain ⟨id, hid, h⟩ := bind_ok h
    obtain ⟨metadata, -, h⟩ := bind_ok h
    obtain rfl := Except.ok.inj h
    exact boundedString_ok hid
  | proxmox =>
    obtain ⟨node, hnode, h⟩ := bind_ok h
    obtain ⟨vmid, hvmid, h⟩ := bind_ok h
    obtain ⟨metadata, -, h⟩ := bind_ok h
    obtain rfl := Except.ok.inj h
    exact ⟨boundedString_ok hnode, (Option.filter_eq_some_iff.mp (orError_ok hvmid)).1⟩
  | tailscale =>
    obtain ⟨id, -, h⟩ := bind_ok h
    split at h
    · cases h
    · obtain rfl := Except.ok.inj h
      exact trivial

theorem validateContext_ok {actionName : String} {dryRun : Bool} {context : QuarantineContext}
    (h : validateContext actionName target dryRun = .ok context) :
    TargetNames target context.target := by
  obtain ⟨kind, -, h⟩ := bind_ok h
  split at h
  · cases h
  · obtain ⟨ttl, -, h⟩ := bind_ok h
    obtain ⟨⟨owner, restore, management⟩, -, h⟩ := bind_ok h
    obtain ⟨⟨identity, metadata⟩, hidentity, h⟩ := bind_ok h
    obtain rfl := Except.ok.inj h
    exact identify_ok hidentity

/-- What a restore target holds: the approved identity, and the recorded state. -/
theorem restoreTarget_ok {i : QuarantineIntent} {restore : Json}
    (h : restoreTarget i = .ok restore) :
    ∃ context, validateContext i.actionName i.targetJson true = .ok context ∧
      ((∃ containerId, context.target = .docker containerId ∧ OfContainer i containerId ∧
          restore.get "container_id" = some (.string containerId) ∧
          restore.get "networks" = i.rollbackPlan.get "networks") ∨
        (∃ node vmid, context.target = .proxmox node vmid ∧ OfMachine i node vmid ∧
          restore.get "node" = some (.string node) ∧
          (restore.get "vmid").bind Json.asU64 = some vmid ∧
          restore.get "original_net0" = i.rollbackPlan.get "original_net0")) := by
  obtain ⟨context, hcontext, h⟩ := bind_ok h
  have hnames := validateContext_ok hcontext
  obtain ⟨⟨adapter, fingerprint, field⟩, hkey, h⟩ := bind_ok h
  dsimp only at h
  split at h
  · cases h
  next hsame =>
  rw [not_or, not_not, not_not] at hsame
  obtain ⟨rfl, rfl⟩ := hsame
  obtain ⟨snapshot, hsnapshot, h⟩ := bind_ok h
  have hsnapshot := orError_ok hsnapshot
  cases htarget : i.targetJson with
  | null | bool | number | string | array =>
    rw [htarget] at h
    cases h
  | object fields =>
    rw [htarget] at h
    obtain rfl := Except.ok.inj h
    have hget : ∀ key, (Json.object (Json.insertField field snapshot fields)).get key =
        if key = field then some snapshot else i.targetJson.get key := by
      intro key
      rw [htarget]
      exact Json.lookup_insertField field snapshot key fields
    cases hidentity : context.target with
    | docker containerId =>
      rw [hidentity] at hkey hnames
      simp only [restoreField, Except.ok.injEq, Prod.mk.injEq] at hkey
      obtain ⟨hadapter, hfingerprint, rfl⟩ := hkey
      refine ⟨context, htarget ▸ hcontext, .inl ⟨containerId, hidentity,
        ⟨hadapter.symm, hfingerprint.symm, hnames⟩, ?_, ?_⟩⟩
      · rw [hget, if_neg (by decide)]
        exact hnames
      · rw [hget, if_pos rfl, hsnapshot]
    | proxmox node vmid =>
      rw [hidentity] at hkey hnames
      simp only [restoreField, Except.ok.injEq, Prod.mk.injEq] at hkey
      obtain ⟨hadapter, hfingerprint, rfl⟩ := hkey
      refine ⟨context, htarget ▸ hcontext, .inr ⟨node, vmid, hidentity,
        ⟨hadapter.symm, hfingerprint.symm, hnames.1, hnames.2⟩, ?_, ?_, ?_⟩⟩
      · rw [hget, if_neg (by decide)]
        exact hnames.1
      · rw [hget, if_neg (by decide)]
        exact hnames.2
      · rw [hget, if_pos rfl, hsnapshot]
    | tailscale id =>
      rw [hidentity] at hkey
      cases hkey

/-! ## The typestate -/

/-- The job's request names this generation's target, and was validated. -/
def Facts.Authorizes (f : Facts) (claimed : ClaimedExecutionRequest) (i : QuarantineIntent) :
    Prop :=
  ∃ target, reconcileIdentity claimed = .ok (target, i.adapter, i.targetFingerprint) ∧
    f.authorized = some (claimed.id, claimed.actionName, target)

/-- The job may take its generation to be rolled back. -/
def Job.MayResolve (f : Facts) (i : QuarantineIntent) : Job → Prop
  | .apply _ => False
  | .recover id => i.id = id ∧ i.status = .completed
  | .reconcile claimed => f.Authorizes claimed i ∧ Proven i f.observed

/-- The job may restore its generation's target. -/
def Job.MayRestore (f : Facts) (i : QuarantineIntent) (job : Job) : Prop :=
  job.MayResolve f i ∨
    (∃ claimed, job = .apply claimed) ∧ i.status = .prepared ∧ FailedDisconnect f.observed

def May (job : Job) (f : Facts) : QCall → Prop
  | .host c => c.restores = true →
      ∃ i, f.own = some i ∧ RestoresGeneration i c ∧ job.MayRestore f i
  | .acquire _ => f.own = none
  | .finish _ => ∃ i, f.own = some i ∧ i.status = .prepared
  | .recoveryRequired => ∃ i, f.own = some i ∧ (i.status = .prepared ∨ i.status = .completed)
  | .resolveRollback => ∃ i, f.own = some i ∧ job.MayResolve f i ∧ ReadBack i f.observed
  | _ => True

/-- What the answers say, where `snapshots` are the immutable columns of the rows there will
ever be. -/
def Answered (snapshots : Uuid → Option QuarantineSnapshot) : (c : QCall) → c.Answer → Prop
  | .prepare a, .ok id => ∃ s, snapshots id = some s ∧ s.adapter = a.adapter ∧
      s.targetFingerprint = a.targetFingerprint ∧ s.targetJson = a.targetJson ∧
      s.rollbackPlan = a.rollbackPlan
  | .acquire id, .ok (some i) => i.id = id ∧ snapshots i.id = some i.snapshot
  | .activeFor adapter fingerprint, .ok (some i) =>
    i.adapter = adapter ∧ i.targetFingerprint = fingerprint ∧ snapshots i.id = some i.snapshot
  | _, _ => True

section Typestate

variable (snapshots : Uuid → Option QuarantineSnapshot)

abbrev Sound {α : Type} (job : Job) (post : Facts → α → Prop) (f : Facts)
    (p : Prog QCall.Answer α) : Prop :=
  Prog.Guided Facts.observe (May job) (Answered snapshots) post f p

variable {snapshots} {job : Job} {f : Facts} {i : QuarantineIntent}
  {claimed : ClaimedExecutionRequest} {α : Type} {c : HostCall} {m : Method α}

/-! ## Methods inside a job -/

theorem sound_onHost {may : HostHistory → HostCall → Prop} {post : HostHistory → α → Prop}
    {m : Prog HostCall.Answer α} {h : HostHistory} (hm : HostGuided may post h m)
    (hmay : ∀ t c, may t c → May job { f with observed := t } (.host c)) :
    Sound snapshots job (fun f' a => ∃ t, f' = { f with observed := t } ∧ post t a)
      { f with observed := h } (onHost m) := by
  induction m generalizing h with
  | pure a => exact ⟨h, rfl, hm⟩
  | call c k ih => exact ⟨hmay h c hm.1, fun answer _ => ih answer (hm.2 answer trivial)⟩

theorem sound_method {ε : Type} {wrap : AdapterError → ε} {may : HostHistory → HostCall → Prop}
    {post : HostHistory → Except AdapterError α → Prop} (hm : HostGuided may post f.observed m)
    (hmay : ∀ t c, may t c → May job { f with observed := t } (.host c)) :
    Sound snapshots job
      (fun f' r => ∃ t r₀, f' = { f with observed := t } ∧ r = r₀.mapError wrap ∧ post t r₀)
      f (method wrap m) := by
  refine guided_bind ((sound_onHost (f := f) hm hmay).mono fun f' r hr => ?_)
  obtain ⟨t, rfl, hpost⟩ := hr
  exact ⟨t, r, rfl, rfl, hpost⟩

theorem may_of_reads (hc : c.mutates = false) : May job f (.host c) := by
  intro hrestores
  cases c with
  | connect | postConfig => cases hc
  | inspect | disconnect | readNet0 | waitForConfigTask | taskStatus => cases hrestores

/-- A method that only reads lengthens what was observed. -/
theorem sound_reads {ε : Type} {wrap : AdapterError → ε} (hm : Prog.Uses Reads m) :
    Sound snapshots job (fun f' _ => ∃ t, f' = { f with observed := t }) f (method wrap m) := by
  have hguided : HostGuided (fun _ c => True ∧ Reads c) (fun _ _ => True) f.observed m :=
    (Prog.guided_trivial m).and_uses hm
  refine (sound_method hguided fun t c hc => may_of_reads hc.2).mono ?_
  rintro f' r ⟨t, r₀, rfl, -, -⟩
  exact ⟨t, rfl⟩

theorem sound_caught {ε : Type} {post : Facts → Except ε α → Prop} {x : Step ε α}
    (hx : Sound snapshots job post f x) :
    Sound snapshots job (fun f' r => ∃ r₀, r = .ok r₀ ∧ post f' r₀) f (caught x) :=
  guided_bind (hx.mono fun _ r hr => ⟨r, rfl, hr⟩)

/-! ## Restoring -/

/-- The facts after a method: the host has answered more. -/
def Facts.Later (f f' : Facts) : Prop :=
  ∃ t, f' = { f with observed := t } ∧ f.observed <+: t

theorem Facts.later_refl (f : Facts) : f.Later f := ⟨f.observed, rfl, prefix_refl _⟩

/-- A method that restores, under a job that may restore the generation as long as it goes on
observing. -/
theorem sound_restoring {m : Method Unit} {post : HostHistory → Except AdapterError Unit → Prop}
    {P : HostCall → Prop} (hpost : HostGuided (fun _ _ => True) post f.observed m)
    (huses : Prog.Uses P m) (hP : ∀ c, P c → RestoresGeneration i c ∨ c.mutates = false)
    (hown : f.own = some i) (hmay : ∀ f', f.Later f' → job.MayRestore f' i) :
    Sound snapshots job
      (fun f' r => f.Later f' ∧ (r = .ok () → post f'.observed (.ok ()))) f
      (method AdapterError.text m) := by
  have hguided : HostGuided (fun t c => f.observed <+: t ∧ P c)
      (fun t r => post t r ∧ f.observed <+: t) f.observed m :=
    (hpost.and_uses huses).history (fun t c ht hc => ⟨ht, hc.2⟩) (prefix_refl _)
  refine (sound_method hguided fun t c hc => ?_).mono ?_
  · rcases hP c hc.2 with hrestores | hreads
    · exact fun _ => ⟨i, hown, hrestores, hmay _ ⟨t, rfl, hc.1⟩⟩
    · exact may_of_reads hreads
  · rintro f' r ⟨t, r₀, rfl, rfl, hend, hlater⟩
    refine ⟨⟨t, rfl, hlater⟩, fun hr => ?_⟩
    obtain ⟨a, ha⟩ : ∃ a, r₀ = .ok a := by
      cases r₀ with
      | ok a => exact ⟨a, rfl⟩
      | error e => cases hr
    rw [ha] at hend
    exact hend

theorem connects_restores {containerId : String} {networks : List NetworkAttachment}
    (hof : OfContainer i containerId) (hnetworks : recordedNetworks i = some networks)
    (hc : Connects containerId networks c) : RestoresGeneration i c ∨ c.mutates = false := by
  cases c with
  | connect args => exact .inl ⟨containerId, networks, hof, hnetworks, hc⟩
  | postConfig | disconnect => cases hc
  | inspect | readNet0 | waitForConfigTask | taskStatus => exact .inr rfl

theorem writes_restores {node : String} {vmid : Nat} {net0 : String} (hof : OfMachine i node vmid)
    (hnet0 : recordedNet0 i = some net0) (hc : Writes node vmid net0 c) :
    RestoresGeneration i c ∨ c.mutates = false := by
  cases c with
  | postConfig node' vmid' net0' digest =>
    obtain ⟨rfl, rfl, rfl⟩ := hc
    exact .inl ⟨hof, hnet0⟩
  | connect | disconnect => cases hc
  | inspect | readNet0 | waitForConfigTask | taskStatus => exact .inr rfl

/-- A rollback acts on the generation alone, and succeeds on its readback. -/
theorem sound_rollbackTarget {restore : Json} (hrestore : restoreTarget i = .ok restore)
    (hown : f.own = some i) (hmay : ∀ f', f.Later f' → job.MayRestore f' i) :
    Sound snapshots job (fun f' r => f.Later f' ∧ (r = .ok () → ReadBack i f'.observed)) f
      (rollbackTarget i.adapter restore) := by
  have hfail : ∀ e : String, f.Later f ∧
      ((.error e : Except String Unit) = .ok () → ReadBack i f.observed) :=
    fun e => ⟨f.later_refl, (nomatch ·)⟩
  obtain ⟨context, -, ⟨containerId, -, hof, hid, hnetworks⟩ |
    ⟨node, vmid, -, hof, hnode, hvmid, hnet0⟩⟩ := restoreTarget_ok hrestore
  · unfold rollbackTarget
    rw [hof.adapter, if_neg (by decide), if_pos rfl]
    refine guided_lift_bind (fun id' hid' => ?_) (fun e _ => hfail e)
    obtain rfl : containerId = id' := by
      have := orError_ok hid'
      rw [hid] at this
      exact Option.some.inj this
    refine guided_lift_bind (fun snapshot hsnapshot => ?_) (fun e _ => hfail e)
    refine guided_lift_bind (fun networks hdecoded => ?_) (fun e _ => hfail e)
    have hrecorded : recordedNetworks i = some networks := by
      unfold recordedNetworks
      rw [← hnetworks, orError_ok hsnapshot]
      exact orError_ok hdecoded
    refine (sound_restoring (Docker.rollback_restored containerId networks f.observed)
      (Docker.rollback_uses containerId networks) (fun c => connects_restores hof hrecorded)
      hown hmay).mono fun f' r hr => ⟨hr.1, fun hok => ?_⟩
    exact .inl ⟨containerId, networks, hof, hrecorded, hr.2 hok rfl⟩
  · unfold rollbackTarget
    rw [hof.adapter, if_pos rfl]
    refine guided_lift_bind (fun node' hnode' => ?_) (fun e _ => hfail e)
    obtain rfl : node = node' := by
      have := orError_ok hnode'
      rw [hnode] at this
      exact Option.some.inj this
    refine guided_lift_bind (fun vmid' hvmid' => ?_) (fun e _ => hfail e)
    obtain rfl : vmid = vmid' := Option.some.inj (hvmid.symm.trans (orError_ok hvmid'))
    split
    · exact hfail _
    refine guided_lift_bind (fun original horiginal => ?_) (fun e _ => hfail e)
    have hrecorded : recordedNet0 i = some original := by
      unfold recordedNet0
      rw [← hnet0]
      exact orError_ok horiginal
    refine (sound_restoring (Proxmox.rollback_restored node vmid original f.observed)
      (Proxmox.rollback_uses node vmid original) (fun c => writes_restores hof hrecorded)
      hown hmay).mono fun f' r hr => ⟨hr.1, fun hok => ?_⟩
    exact .inr ⟨node, vmid, original, hof, hrecorded, hr.2 hok rfl⟩

theorem sound_restoreLeased {restore : Json} (hrestore : restoreTarget i = .ok restore)
    (hown : f.own = some i) (hmay : ∀ f', f.Later f' → job.MayRestore f' i) (lease : Uuid) :
    Sound snapshots job
      (fun f' r => ∃ result, r = .ok result ∧ f.Later f' ∧
        (result = .ok () → ReadBack i f'.observed)) f
      (restoreLeased i.adapter restore lease) := by
  refine guided_except_bind _ (sound_caught (sound_rollbackTarget hrestore hown hmay)) ?_ ?_
  · rintro f' result ⟨_, hr, hpost⟩
    obtain rfl := Except.ok.inj hr
    exact ⟨trivial, fun answer _ => ⟨result, rfl, hpost⟩⟩
  · rintro f' e ⟨_, hr, -⟩
    cases hr

/-! ## Recovering -/

theorem sound_recoverCompleted (hown : f.own = some i) (hstatus : i.status = .completed) :
    Sound snapshots (.recover i.id) (fun _ _ => True) f (recoverCompleted i) := by
  have hrecover : ∀ f', f'.own = f.own → May (.recover i.id) f' .recoveryRequired :=
    fun f' h => ⟨i, h.trans hown, .inr hstatus⟩
  have hmay : ∀ f', f.Later f' → (Job.recover i.id).MayRestore f' i :=
    fun f' _ => .inl ⟨rfl, hstatus⟩
  unfold recoverCompleted
  split
  · exact ⟨hrecover f rfl, fun answer _ => by cases answer <;> exact trivial⟩
  next restore hrestore =>
  refine ⟨trivial, fun answer _ => ?_⟩
  cases answer with
  | error e => exact trivial
  | ok lease =>
    cases lease with
    | none => exact trivial
    | some lease =>
      refine guided_except_bind _ (sound_restoreLeased hrestore hown hmay lease) ?_
        (fun _ _ _ => trivial)
      rintro f' result' ⟨result, hr, ⟨t, rfl, -⟩, hread⟩
      obtain rfl := Except.ok.inj hr
      cases result' with
      | error e => exact ⟨hrecover _ rfl, fun answer _ => by cases answer <;> exact trivial⟩
      | ok u =>
        refine ⟨⟨i, hown, ⟨rfl, hstatus⟩, hread rfl⟩, fun answer _ => ?_⟩
        cases answer <;> exact trivial

theorem sound_recoverGuarded (hown : f.own = some i) :
    Sound snapshots (.recover i.id) (fun _ _ => True) f (recoverGuarded i) := by
  unfold recoverGuarded
  split
  · next hstatus => exact sound_recoverCompleted hown hstatus
  · split
    · next hstatus =>
      exact ⟨⟨i, hown, .inl hstatus⟩, fun answer _ => by cases answer <;> exact trivial⟩
    · exact trivial

theorem sound_recover (hown : f.own = none) (id : Uuid) :
    Sound snapshots (.recover id) (fun _ _ => True) f (recover id) := by
  refine ⟨hown, fun answer hanswer => ?_⟩
  cases answer with
  | error e => exact trivial
  | ok row =>
    cases row with
    | some i =>
      obtain ⟨rfl, -⟩ := hanswer
      exact sound_recoverGuarded rfl
    | none =>
      refine ⟨trivial, fun answer _ => ?_⟩
      cases answer with
      | error e => exact trivial
      | ok row => cases row <;> exact trivial

/-! ## Reconciling -/

theorem Facts.Later.trans {f₁ f₂ f₃ : Facts} (h : f₁.Later f₂) (h' : f₂.Later f₃) :
    f₁.Later f₃ := by
  obtain ⟨t, rfl, ht⟩ := h
  obtain ⟨t', rfl, ht'⟩ := h'
  exact ⟨t', rfl, ht.trans ht'⟩

theorem Proven.mono {h h' : HostHistory} (hproven : Proven i h) (hsub : h <+: h') :
    Proven i h' := by
  rcases hproven with ⟨containerId, networks, hof, hmem⟩ | ⟨node, vmid, upid, s, hof, hupid, hs, hmem⟩
  · exact .inl ⟨containerId, networks, hof, hsub.subset hmem⟩
  · exact .inr ⟨node, vmid, upid, s, hof, hupid, hs, hsub.subset hmem⟩

/-- What a method that only reads has seen when it succeeds. -/
theorem sound_reads_seen {post : HostHistory → α → Prop} (hm : Prog.Uses Reads m)
    (hpost : HostGuided (fun _ _ => True) (fun t r => ∀ a, r = .ok a → post t a) f.observed m) :
    Sound snapshots job (fun f' r => f.Later f' ∧ ∀ a, r = .ok a → post f'.observed a) f
      (method AdapterError.text m) := by
  have hguided : HostGuided (fun t c => f.observed <+: t ∧ Reads c)
      (fun t r => (∀ a, r = .ok a → post t a) ∧ f.observed <+: t) f.observed m :=
    (hpost.and_uses hm).history (fun t c ht hc => ⟨ht, hc.2⟩) (prefix_refl _)
  refine (sound_method hguided fun t c hc => may_of_reads hc.2).mono ?_
  rintro f' r ⟨t, r₀, rfl, rfl, hend, hlater⟩
  refine ⟨⟨t, rfl, hlater⟩, fun a ha => hend a ?_⟩
  cases r₀ with
  | ok b => exact congrArg Except.ok (Except.ok.inj ha)
  | error e => cases ha

theorem taskStatus_seen (node : String) (vmid : Nat) (upid : String) (h : HostHistory) :
    HostGuided (fun _ _ => True)
      (fun t r => ∀ completion, r = .ok completion →
        (⟨.taskStatus node vmid upid, .ok completion⟩ : Prog.Event HostCall.Answer) ∈ t) h
      (Proxmox.taskStatus node vmid upid) := by
  refine guided_lift_bind (fun _ _ => ⟨trivial, fun answer _ => ?_⟩) (fun e _ _ h => nomatch h)
  rintro completion rfl
  exact mem_concat_self

theorem preflight_seen (cfg : QuarantineConfig) (containerId : String) (h : HostHistory) :
    HostGuided (fun _ _ => True)
      (fun t r => ∀ pf, r = .ok pf → ∃ networks,
        (⟨.inspect containerId, .ok networks⟩ : Prog.Event HostCall.Answer) ∈ t) h
      (Docker.preflight cfg (.docker containerId)) := by
  refine guided_lift_bind (fun id hid => ?_) (fun e _ _ h => nomatch h)
  obtain rfl := Docker.containerId_ok hid
  refine guided_lift_bind (fun entries _ => ?_) (fun e _ _ h => nomatch h)
  refine ⟨trivial, fun answer _ => ?_⟩
  cases answer with
  | error e => exact fun _ h => nomatch h
  | ok networks =>
    exact fun _ _ => ⟨networks, mem_concat_self⟩

/-- A decided task, or an inspection, is the proof. -/
theorem sound_proveRemoteCompletion (cfg : QuarantineConfig) :
    Sound snapshots job
      (fun f' r => f.Later f' ∧
        (r = .ok () → ∀ restore, restoreTarget i = .ok restore → Proven i f'.observed)) f
      (proveRemoteCompletion cfg i) := by
  refine guided_lift_bind (fun context hcontext => ?_)
    (fun e _ => ⟨f.later_refl, (nomatch ·)⟩)
  -- the restore target names the identity this context was validated for
  have hsame : ∀ restore, restoreTarget i = .ok restore →
      (∃ containerId, context.target = .docker containerId ∧ OfContainer i containerId) ∨
        (∃ node vmid, context.target = .proxmox node vmid ∧ OfMachine i node vmid) := by
    intro restore hrestore
    obtain ⟨context', hcontext', hcases⟩ := restoreTarget_ok hrestore
    obtain rfl := Except.ok.inj (hcontext.symm.trans hcontext')
    rcases hcases with ⟨containerId, hid, hof, -⟩ | ⟨node, vmid, hid, hof, -⟩
    · exact .inl ⟨containerId, hid, hof⟩
    · exact .inr ⟨node, vmid, hid, hof⟩
  cases htarget : context.target with
  | tailscale id => exact ⟨f.later_refl, (nomatch ·)⟩
  | docker containerId =>
    refine guided_except_bind _ (sound_reads_seen (Docker.preflight_uses cfg _)
      (preflight_seen cfg containerId f.observed)) ?_ ?_
    · rintro f' pf ⟨hlater, hseen⟩
      refine ⟨hlater, fun _ restore hrestore => ?_⟩
      obtain ⟨networks, hmem⟩ := hseen pf rfl
      rcases hsame restore hrestore with ⟨id, hid, hof⟩ | ⟨node, vmid, hid, -⟩
      · rw [htarget] at hid
        cases hid
        exact .inl ⟨containerId, networks, hof, hmem⟩
      · rw [htarget] at hid
        cases hid
    · exact fun f' e hend => ⟨hend.1, (nomatch ·)⟩
  | proxmox node vmid =>
    refine guided_lift_bind (fun upid hupid => ?_) (fun e _ => ⟨f.later_refl, (nomatch ·)⟩)
    refine guided_except_bind _ (sound_reads_seen (Proxmox.taskStatus_uses node vmid upid)
      (taskStatus_seen node vmid upid f.observed)) ?_ ?_
    · rintro f' completion ⟨hlater, hseen⟩
      have hproven : completion ≠ .running →
          ∀ restore, restoreTarget i = .ok restore → Proven i f'.observed := by
        intro hdecided restore hrestore
        rcases hsame restore hrestore with ⟨id, hid, -⟩ | ⟨node', vmid', hid, hof⟩
        · rw [htarget] at hid
          cases hid
        · rw [htarget] at hid
          cases hid
          exact .inr ⟨node, vmid, upid, completion, hof, orError_ok hupid, hdecided,
            hseen completion rfl⟩
      cases completion with
      | succeededOk | failed => exact ⟨hlater, fun _ => hproven (by decide)⟩
      | running => exact ⟨hlater, (nomatch ·)⟩
    · exact fun f' e hend => ⟨hend.1, (nomatch ·)⟩

theorem sound_reconcileGuarded (cfg : QuarantineConfig) (hown : f.own = some i)
    (hauthorized : f.Authorizes claimed i) :
    Sound snapshots (.reconcile claimed) (fun _ _ => True) f
      (reconcileGuarded cfg i.adapter i) := by
  refine guided_except_bind _ (sound_proveRemoteCompletion cfg) ?_ (fun _ _ _ => trivial)
  rintro f' ⟨⟩ ⟨hlater, hproof⟩
  refine guided_lift_bind (fun restore hrestore => ?_) (fun _ _ => trivial)
  have hproven := hproof rfl restore hrestore
  have hresolve : ∀ f'', f'.Later f'' → (Job.reconcile claimed).MayResolve f'' i := by
    intro f'' hlater'
    obtain ⟨t, rfl, -⟩ := hlater.trans hlater'
    obtain ⟨t', ht', hsub⟩ := hlater'
    refine ⟨hauthorized, ?_⟩
    rw [ht']
    exact hproven.mono hsub
  have hown' : f'.own = some i := by
    obtain ⟨t, rfl, -⟩ := hlater
    exact hown
  refine ⟨trivial, fun answer _ => ?_⟩
  cases answer with
  | error e => exact trivial
  | ok lease =>
    cases lease with
    | none => exact trivial
    | some lease =>
      refine guided_except_bind _ (sound_restoreLeased hrestore hown'
        (fun f'' h => .inl (hresolve f'' h)) lease) ?_ (fun _ _ _ => trivial)
      rintro f'' result' ⟨result, hr, hlater', hread⟩
      obtain rfl := Except.ok.inj hr
      have hown'' : f''.own = some i := by
        obtain ⟨t, rfl, -⟩ := hlater'
        exact hown'
      cases result' with
      | error e => exact trivial
      | ok u =>
        refine ⟨⟨i, hown'', hresolve f'' hlater', hread rfl⟩, fun answer _ => ?_⟩
        cases answer <;> exact trivial

theorem sound_reconcile (cfg : QuarantineConfig) (claimed : ClaimedExecutionRequest)
    (hown : f.own = none) :
    Sound snapshots (.reconcile claimed) (fun _ _ => True) f (reconcile cfg claimed) := by
  refine guided_lift_bind (fun p hp => ?_) (fun _ _ => trivial)
  obtain ⟨target, adapter, fingerprint⟩ := p
  refine ⟨trivial, fun answer hfound => ?_⟩
  cases answer with
  | error e => exact trivial
  | ok found =>
    cases found with
    | none => exact trivial
    | some intent =>
      obtain ⟨hadapter, hfingerprint, hsnapshot⟩ := hfound
      refine ⟨hown, fun answer hacquired => ?_⟩
      cases answer with
      | error e => exact trivial
      | ok row =>
        cases row with
        | none => exact trivial
        | some i =>
          obtain ⟨hid, hsnapshot'⟩ := hacquired
          -- the row of the guard is of the generation that was found
          have hsame : intent.snapshot = i.snapshot := by
            rw [hid] at hsnapshot'
            exact Option.some.inj (hsnapshot.symm.trans hsnapshot')
          have hsameAdapter : i.adapter = adapter :=
            (congrArg QuarantineSnapshot.adapter hsame).symm.trans hadapter
          have hsameFingerprint : i.targetFingerprint = fingerprint :=
            (congrArg QuarantineSnapshot.targetFingerprint hsame).symm.trans hfingerprint
          refine ⟨trivial, fun answer _ => ?_⟩
          cases answer with
          | error e => exact trivial
          | ok u =>
            subst hsameAdapter hsameFingerprint
            exact sound_reconcileGuarded cfg rfl ⟨target, hp, rfl⟩

/-! ## Applying -/

/-- What is recorded is of the identity that was inspected. -/
def Isolation.Of (iso : Isolation) : QuarantineIdentity → Prop
  | .docker containerId => iso.adapter = "docker" ∧ iso.fingerprint = containerId ∧
      iso.target = .docker containerId
  | .proxmox node vmid => iso.adapter = "proxmox" ∧
      iso.fingerprint = node ++ "/" ++ toString vmid ∧ iso.target = .proxmox node vmid
  | .tailscale _ => False

theorem sound_inspectTarget (cfg : QuarantineConfig) (identity : QuarantineIdentity) :
    Sound snapshots job
      (fun f' r => (∃ t, f' = { f with observed := t }) ∧ ∀ iso, r = .ok iso → iso.Of identity) f
      (inspectTarget cfg identity) := by
  cases identity with
  | tailscale id => exact ⟨⟨f.observed, rfl⟩, fun _ h => nomatch h⟩
  | docker containerId =>
    refine guided_except_bind _ (sound_reads (Docker.preflight_uses cfg _)) ?_
      (fun f' e hend => ⟨hend, fun _ h => nomatch h⟩)
    intro f' pf hlater
    show Sound _ _ _ f' (if _ then _ else _)
    split
    · exact ⟨hlater, fun _ h => nomatch h⟩
    · refine ⟨hlater, ?_⟩
      rintro iso ⟨⟩
      exact ⟨rfl, rfl, rfl⟩
  | proxmox node vmid =>
    refine guided_except_bind _ (sound_reads (Proxmox.preflight_uses cfg _)) ?_
      (fun f' e hend => ⟨hend, fun _ h => nomatch h⟩)
    intro f' pf hlater
    show Sound _ _ _ f' (if _ then _ else _)
    split
    · exact ⟨hlater, fun _ h => nomatch h⟩
    · refine ⟨hlater, ?_⟩
      rintro iso ⟨⟩
      exact ⟨rfl, rfl, rfl⟩

/-- A method that restores nothing lengthens what was observed. -/
theorem sound_unread (hm : Prog.Uses (fun c => c.restores = false) m) :
    Sound snapshots job (fun f' _ => f'.own = f.own) f (unread m) := by
  have hguided : HostGuided (fun _ c => True ∧ c.restores = false) (fun _ _ => True) f.observed m :=
    (Prog.guided_trivial m).and_uses hm
  refine (sound_method hguided fun t c hc hrestores => ?_).mono ?_
  · rw [hc.2] at hrestores
    cases hrestores
  · rintro f' r ⟨t, r₀, rfl, -, -⟩
    rfl

theorem restores_of_reads (hc : Reads c) : c.restores = false := by
  cases c with
  | connect | postConfig => cases hc
  | inspect | disconnect | readNet0 | waitForConfigTask | taskStatus => rfl

/-- The mutation of a prepared generation undoes only its own disconnects. -/
theorem sound_isolate (cfg : QuarantineConfig) {iso : Isolation} {identity : QuarantineIdentity}
    (hof : iso.Of identity) (hnames : TargetNames i.targetJson identity)
    (hadapter : i.adapter = iso.adapter) (hfingerprint : i.targetFingerprint = iso.fingerprint)
    (hplan : i.rollbackPlan = iso.plan) (hown : f.own = some i) (hstatus : i.status = .prepared) :
    Sound snapshots (.apply claimed) (fun f' _ => f'.own = f.own) f (isolate cfg iso) := by
  unfold isolate
  cases identity with
  | tailscale id => exact hof.elim
  | docker containerId =>
    obtain ⟨hdocker, hcontainer, htarget⟩ := hof
    rw [if_pos hdocker]
    split
    · exact rfl
    next networks hnetworks =>
    have hrecorded : recordedNetworks i = some networks := by
      unfold recordedNetworks
      rw [hplan]
      exact hnetworks
    have hcontainerOf : OfContainer i containerId :=
      ⟨hadapter.trans hdocker, hfingerprint.trans hcontainer, hnames⟩
    rw [htarget]
    refine guided_except_bind (fun f' _ => f'.own = f.own) ?_ ?_
      (fun f' e hend => hend)
    · refine (sound_method (Docker.applyPrepared_guided cfg containerId networks f.observed)
        fun t c hc hrestores => ?_).mono ?_
      · obtain ⟨hfailed, hconnects⟩ := hc hrestores
        rcases connects_restores hcontainerOf hrecorded hconnects with hgeneration | hreads
        · exact ⟨i, hown, hgeneration, .inr ⟨⟨claimed, rfl⟩, hstatus, hfailed⟩⟩
        · rw [restores_of_reads hreads] at hrestores
          cases hrestores
      · rintro f' r ⟨t, r₀, rfl, -, -⟩
        rfl
    · intro f' applied hown'
      refine guided_except_bind _ (sound_unread
        ((Docker.verify_uses _).mono fun c => restores_of_reads)) ?_
        (fun f'' e hend => hend.trans hown')
      intro f'' verification hown''
      show Sound _ _ _ f'' (if _ then _ else _)
      split <;> exact hown''.trans hown'
  | proxmox node vmid =>
    obtain ⟨hproxmox, -, htarget⟩ := hof
    rw [if_neg (by rw [hproxmox]; decide)]
    split
    · exact rfl
    next original horiginal =>
    refine guided_except_bind _ (sound_unread (Proxmox.applyPrepared_uses cfg _ original)) ?_
      (fun f' e hend => hend)
    rintro f' ⟨applied, upid⟩ hown'
    have hrecord : Sound snapshots (.apply claimed) (fun f'' _ => f''.own = f.own) f'
        (recordUpid upid) := by
      unfold recordUpid
      split
      · refine ⟨trivial, fun answer _ => ?_⟩
        cases answer <;> exact hown'
      · exact hown'
    refine guided_except_bind _ hrecord ?_ (fun f'' e hend => hend)
    intro f'' _ hown''
    refine guided_except_bind _ (sound_unread
      ((Proxmox.verify_uses _).mono fun c => restores_of_reads)) ?_
      (fun f₃ e hend => hend.trans hown'')
    intro f₃ verification hown₃
    show Sound _ _ _ f₃ (if _ then _ else _)
    split <;> exact hown₃.trans hown''

theorem sound_mutate (cfg : QuarantineConfig) {iso : Isolation} {identity : QuarantineIdentity}
    {ttl : Nat} (hof : iso.Of identity) (hnames : TargetNames i.targetJson identity)
    (hadapter : i.adapter = iso.adapter) (hfingerprint : i.targetFingerprint = iso.fingerprint)
    (hplan : i.rollbackPlan = iso.plan) (hown : f.own = some i) (hstatus : i.status = .prepared)
    (target : Json) :
    Sound snapshots (.apply claimed) (fun _ _ => True) f (mutate cfg claimed target ttl iso) := by
  refine guided_except_bind _ (sound_caught (sound_isolate cfg hof hnames hadapter hfingerprint
    hplan hown hstatus)) ?_ (fun _ _ _ => trivial)
  rintro f' outcome ⟨_, hr, hown'⟩
  obtain rfl := Except.ok.inj hr
  have hown' : f'.own = some i := hown'.trans hown
  cases outcome with
  | ok observed => exact ⟨⟨i, hown', hstatus⟩, fun answer _ => by cases answer <;> exact trivial⟩
  | error e => exact ⟨⟨i, hown', .inl hstatus⟩, fun answer _ => by cases answer <;> exact trivial⟩

theorem sound_applyPrepared (cfg : QuarantineConfig) (claimed : ClaimedExecutionRequest)
    (hown : f.own = none) :
    Sound snapshots (.apply claimed) (fun _ _ => True) f (applyPrepared cfg claimed) := by
  refine guided_lift_bind (fun target _ => ?_) (fun _ _ => trivial)
  refine guided_lift_bind (fun context hcontext => ?_) (fun _ _ => trivial)
  have hnames := validateContext_ok hcontext
  refine guided_except_bind _ (sound_inspectTarget cfg context.target) ?_
    (fun _ _ _ => trivial)
  rintro f' iso ⟨⟨t, rfl⟩, hiso⟩
  have hof := hiso iso rfl
  refine ⟨trivial, fun answer hprepared => ?_⟩
  cases answer with
  | error e => exact trivial
  | ok id =>
    obtain ⟨row, hrow, hadapter, hfingerprint, htarget, hplan⟩ := hprepared
    refine ⟨hown, fun answer hacquired => ?_⟩
    cases answer with
    | error e => exact trivial
    | ok found =>
      cases found with
      | none => exact trivial
      | some i =>
        obtain ⟨rfl, hsnapshot⟩ := hacquired
        obtain rfl : row = i.snapshot := Option.some.inj (hrow.symm.trans hsnapshot)
        show Sound _ _ _ _ (if _ then _ else _)
        split
        · exact trivial
        next hstatus =>
        refine ⟨trivial, fun now _ => ?_⟩
        show Sound _ _ _ _ (if _ then _ else _)
        split
        · exact trivial
        refine ⟨trivial, fun answer _ => ?_⟩
        cases answer with
        | error e => exact trivial
        | ok u =>
          refine sound_mutate cfg hof ?_ hadapter hfingerprint hplan rfl (not_not.mp hstatus) target
          rw [show i.targetJson = target from htarget]
          exact hnames

/-- Every job is sound from its start. -/
theorem sound_program (cfg : QuarantineConfig) (job : Job) :
    Sound snapshots job (fun _ _ => True) .start (job.program cfg) := by
  cases job with
  | apply claimed =>
    exact guided_bind ((sound_applyPrepared cfg claimed rfl).mono fun _ _ _ => trivial)
  | recover id => exact guided_bind ((sound_recover rfl id).mono fun _ _ _ => trivial)
  | reconcile claimed =>
    exact guided_bind ((sound_reconcile cfg claimed rfl).mono fun _ _ _ => trivial)

end Typestate

end Clawforge.Quarantine

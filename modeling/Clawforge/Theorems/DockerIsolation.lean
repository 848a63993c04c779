import Clawforge.Firewall.Quarantine

/-!
# Docker isolation is all or reported

The Docker adapter against a container whose attachments change under its
calls: an inspection shows them, a disconnect takes one away and may do so
even where it fails, and what a connect leaves behind is the daemon's affair.

* a rollback succeeds only on a fresh inspection that shows every recorded
  attachment (`rollback_runs`);
* after a failed disconnect, either that readback or the rollback error
  (`disconnectAll_runs`);
* `apply_checked` ends in one of five ways (`IsolationOutcome`).
-/

namespace Clawforge.Quarantine.Docker

open Clawforge.Firewall Kit List

/-! ## The container -/

/-- The attachments without those to a network. -/
def without (networks : List NetworkAttachment) (network : String) : List NetworkAttachment :=
  networks.filter fun n => n.networkId ≠ network

/-- What an answered call does to the attachments of the target's container. -/
def containerStep (target : QuarantineTarget) (networks : List NetworkAttachment) :
    (c : HostCall) → c.Answer → List NetworkAttachment → Prop
  | .inspect id, answer, after =>
    after = networks ∧ ∀ seen, answer = .ok seen → target = .docker id → seen = networks
  | .disconnect network id, .ok _, after =>
    after = if target = .docker id then without networks network else networks
  | .disconnect network _, .error _, after => after = networks ∨ after = without networks network
  | .connect _, _, _ => True
  | _, _, after => after = networks

/-- A part of a method, run against the container. -/
abbrev Runs {α : Type} (target : QuarantineTarget) (s : List NetworkAttachment)
    (m : Prog HostCall.Answer α) (h : HostHistory) (t : List NetworkAttachment) (r : α) : Prop :=
  Prog.ExecOn (containerStep target) s m h t r

/-- A recorded attachment as a later inspection shows it: on the same network with the same
addresses, links and options, and with all its aliases. The network's name and further aliases
are free. -/
def ShownBy (old now : NetworkAttachment) : Prop :=
  now = { old with name := now.name, aliases := now.aliases } ∧ old.aliases ⊆ now.aliases

theorem restoredBy_iff (old now : NetworkAttachment) :
    old.restoredBy now = true ↔ ShownBy old now := by
  cases old
  cases now
  simp only [NetworkAttachment.restoredBy, ShownBy, Bool.and_eq_true, decide_eq_true_eq,
    List.all_eq_true, contains_iff_mem, NetworkAttachment.mk.injEq, true_and,
    subset_def]
  constructor
  · rintro ⟨⟨⟨⟨⟨⟨⟨rfl, rfl⟩, rfl⟩, halias⟩, rfl⟩, rfl⟩, rfl⟩, rfl⟩
    exact ⟨⟨rfl, rfl, rfl, rfl, rfl, rfl, rfl⟩, fun a ha => halias a ha⟩
  · rintro ⟨⟨rfl, rfl, rfl, rfl, rfl, rfl, rfl⟩, halias⟩
    exact ⟨⟨⟨⟨⟨⟨⟨rfl, rfl⟩, rfl⟩, fun a ha => halias a ha⟩, rfl⟩, rfl⟩, rfl⟩, rfl⟩

/-- The last call has inspected the container, and shows every recorded attachment. -/
def Confirmed (id : String) (recorded : List NetworkAttachment) (h : HostHistory)
    (t : List NetworkAttachment) : Prop :=
  (∃ earlier, h = earlier ++ [⟨.inspect id, .ok t⟩]) ∧ ∀ old ∈ recorded, ∃ now ∈ t, ShownBy old now

variable {id : String} {s t : List NetworkAttachment} {h : HostHistory}

theorem Confirmed.append {recorded : List NetworkAttachment} (hc : Confirmed id recorded h t)
    (h₀ : HostHistory) : Confirmed id recorded (h₀ ++ h) t := by
  obtain ⟨⟨earlier, rfl⟩, hall⟩ := hc
  exact ⟨⟨h₀ ++ earlier, (append_assoc _ _ _).symm⟩, hall⟩

theorem ask_runs {target : QuarantineTarget} {c : HostCall} {r : Except AdapterError c.Result}
    (hrun : Runs target s (ask c) h t r) : h = [⟨c, r⟩] ∧ containerStep target s c r t := by
  obtain ⟨answer, rest, u, rfl, hstep, hrest⟩ := Prog.ExecOn.of_call hrun
  obtain ⟨rfl, rfl, rfl⟩ := Prog.ExecOn.of_pure hrest
  exact ⟨rfl, hstep⟩

/-! ## Rollback -/

/-- A rollback that succeeds has just seen every recorded attachment. -/
theorem rollback_runs {recorded : List NetworkAttachment}
    (hrun : Runs (.docker id) s (rollback (.docker id) recorded) h t (.ok ())) :
    recorded ≠ [] ∧ Confirmed id recorded h t := by
  rcases hrun.of_lift_bind with ⟨id', hid, hnamed⟩ | ⟨_, -, -, -, hr⟩
  swap
  · cases hr
  obtain rfl := containerId_ok hid
  split at hnamed
  · obtain ⟨-, -, hr⟩ := Prog.ExecOn.of_pure hnamed
    cases hr
  next hsome =>
  rcases hnamed.of_except_bind with ⟨h₁, _, u, current, rfl, -, hconnects⟩ | ⟨_, hr, -⟩
  swap
  · cases hr
  rcases hconnects.of_except_bind with ⟨h₂, _, v, failed, rfl, -, hreads⟩ | ⟨_, hr, -⟩
  swap
  · cases hr
  rcases hreads.of_except_bind with ⟨h₃, h₄, w, restored, rfl, hread, hchecks⟩ | ⟨_, hr, -⟩
  swap
  · cases hr
  obtain ⟨rfl, rfl, hsame⟩ := ask_runs hread
  obtain rfl := hsame restored rfl rfl
  split at hchecks
  · obtain ⟨-, -, hr⟩ := Prog.ExecOn.of_pure hchecks
    cases hr
  next hshown =>
  obtain ⟨rfl, rfl, -⟩ := Prog.ExecOn.of_pure hchecks
  refine ⟨hsome, ⟨h₁ ++ h₂, ?_⟩, ?_⟩
  · simp only [append_assoc, append_nil]
  · intro old hold
    rw [Bool.or_eq_true, not_or, Bool.not_eq_true', Bool.not_eq_false] at hshown
    obtain ⟨now, hnow, hrestored⟩ := List.any_eq_true.mp (List.all_eq_true.mp hshown.2 old hold)
    exact ⟨now, hnow, (restoredBy_iff old now).mp hrestored⟩

/-! ## Isolation -/

def recoveryNeeded : AdapterError :=
  .rollback "partial isolation needs recovery; compensating reconnect failed"

/-- After a failed disconnect: a confirmed rollback and the disconnect's error, or the error that
keeps the generation in recovery. -/
theorem compensate_runs {networks : List NetworkAttachment} {error : AdapterError}
    {r : Except AdapterError Unit}
    (hrun : Runs (.docker id) s (compensate (.docker id) networks error) h t r) :
    (r = .error error ∧ Confirmed id networks h t) ∨ r = .error recoveryNeeded := by
  obtain ⟨h₁, h₂, u, answer, rfl, hrollback, hrest⟩ := Prog.ExecOn.of_bind hrun
  cases answer with
  | ok _ =>
    obtain ⟨rfl, rfl, rfl⟩ := Prog.ExecOn.of_pure hrest
    rw [append_nil]
    exact .inl ⟨rfl, (rollback_runs hrollback).2⟩
  | error e =>
    obtain ⟨-, -, rfl⟩ := Prog.ExecOn.of_pure hrest
    exact .inr rfl

/-- Every call of the history that changes something is an acknowledged disconnect of one of the
networks. -/
def OnlyDisconnects (id : String) (networks : List NetworkAttachment) (h : HostHistory) : Prop :=
  ∀ e ∈ h, ∃ n ∈ networks, e = ⟨.disconnect n.networkId id, .ok ()⟩

/-- What is left after disconnecting from some networks. -/
def withoutAll (s rest : List NetworkAttachment) : List NetworkAttachment :=
  rest.foldl (fun s n => without s n.networkId) s

theorem mem_withoutAll {rest : List NetworkAttachment} {x : NetworkAttachment} :
    ∀ {s : List NetworkAttachment}, x ∈ withoutAll s rest ↔
      x ∈ s ∧ ∀ n ∈ rest, x.networkId ≠ n.networkId := by
  induction rest with
  | nil => simp [withoutAll]
  | cons n rest ih =>
    intro s
    show x ∈ withoutAll (without s n.networkId) rest ↔ _
    rw [ih, without, mem_filter, forall_mem_cons, and_assoc, decide_eq_true_eq]

/-- Disconnected from all of its networks, a container is on none. -/
theorem withoutAll_self (s : List NetworkAttachment) : withoutAll s s = [] := by
  rw [eq_nil_iff_forall_not_mem]
  intro x hx
  obtain ⟨hmem, hnone⟩ := mem_withoutAll.mp hx
  exact hnone x hmem rfl

/-- The loop of disconnects: all are acknowledged, or one has failed and is compensated. -/
theorem disconnectAll_runs {networks rest : List NetworkAttachment}
    {r : Except AdapterError Unit}
    (hrun : Runs (.docker id) s (disconnectAll (.docker id) id networks rest) h t r) :
    (r = .ok () ∧ t = withoutAll s rest ∧ OnlyDisconnects id rest h) ∨
      (∃ n ∈ rest, ∃ e, (⟨.disconnect n.networkId id, .error e⟩ : Prog.Event HostCall.Answer) ∈ h ∧
        r = .error e ∧ Confirmed id networks h t) ∨
      r = .error recoveryNeeded := by
  induction rest generalizing s h with
  | nil =>
    obtain ⟨rfl, rfl, rfl⟩ := Prog.ExecOn.of_pure hrun
    exact .inl ⟨rfl, rfl, forall_mem_nil _⟩
  | cons network rest ih =>
    obtain ⟨answer, h', s', rfl, hstep, hrest⟩ := Prog.ExecOn.of_call hrun
    cases answer with
    | ok _ =>
      have hs' : s' = without s network.networkId := hstep.trans (if_pos rfl)
      rw [hs'] at hrest
      rcases ih hrest with ⟨hr, ht, honly⟩ | ⟨n, hn, e, he, hr, hconfirmed⟩ | hr
      · refine .inl ⟨hr, ht, forall_mem_cons.mpr ⟨⟨network, mem_cons_self, rfl⟩, ?_⟩⟩
        intro e he
        obtain ⟨n, hn, heq⟩ := honly e he
        exact ⟨n, mem_cons_of_mem _ hn, heq⟩
      · exact .inr (.inl ⟨n, mem_cons_of_mem _ hn, e, mem_cons_of_mem _ he, hr,
          hconfirmed.append [_]⟩)
      · exact .inr (.inr hr)
    | error e =>
      rcases compensate_runs hrest with ⟨hr, hconfirmed⟩ | hr
      · exact .inr (.inl ⟨network, mem_cons_self, e, mem_cons_self, hr,
          hconfirmed.append [_]⟩)
      · exact .inr (.inr hr)

theorem protectionList_ok {configured : Except String (List QuarantineTarget)}
    {entries : List QuarantineTarget} (h : protectionList configured = .ok entries) :
    configured = .ok entries := by
  cases configured with
  | ok _ => exact congrArg Except.ok (Except.ok.inj h)
  | error _ => cases h

/-- No call of the history changes anything. -/
def OnlyReads (h : HostHistory) : Prop := ∀ e ∈ h, e.call.mutates = false

/-- How `apply_checked` ends on a container with attachments `s`, which are then `t`. -/
inductive IsolationOutcome (cfg : QuarantineConfig) (id : String) (dryRun : Bool)
    (expected : Option (List NetworkAttachment)) (s : List NetworkAttachment) (h : HostHistory)
    (t : List NetworkAttachment) : Except AdapterError (List NetworkAttachment) → Prop
  /-- it fails before it has changed anything -/
  | refused (e : AdapterError) (hreads : OnlyReads h) (hkept : t = s) :
      IsolationOutcome cfg id dryRun expected s h t (.error e)
  /-- a dry run lists the networks -/
  | listed (hdry : dryRun = true) (hreads : OnlyReads h) (hkept : t = s) :
      IsolationOutcome cfg id dryRun expected s h t (.ok s)
  /-- the requirements are met, every disconnect was acknowledged and no network is left -/
  | isolated (hreal : dryRun = false) (hsome : s ≠ []) (hgone : t = [])
      (hexpected : ∀ snapshot ∈ expected, snapshot = s)
      (hprotection : ∃ entries, cfg.dockerNeverQuarantine = .ok entries ∧ entries ≠ [] ∧
        .docker id ∉ entries)
      (hcalls : ∃ rest, h = ⟨.inspect id, .ok s⟩ :: rest ∧ OnlyDisconnects id s rest) :
      IsolationOutcome cfg id dryRun expected s h t (.ok s)
  /-- a disconnect has failed, and a fresh inspection shows every attachment again -/
  | restored (n : NetworkAttachment) (hn : n ∈ s) (e : AdapterError)
      (hfailed : (⟨.disconnect n.networkId id, .error e⟩ : Prog.Event HostCall.Answer) ∈ h)
      (hconfirmed : Confirmed id s h t) :
      IsolationOutcome cfg id dryRun expected s h t (.error e)
  /-- the error that keeps the generation in recovery -/
  | recovery : IsolationOutcome cfg id dryRun expected s h t (.error recoveryNeeded)

theorem applyChecked_runs {cfg : QuarantineConfig} {dryRun : Bool}
    {expected : Option (List NetworkAttachment)} {r : Except AdapterError (List NetworkAttachment)}
    (hrun : Runs (.docker id) s (applyChecked cfg (.docker id) dryRun expected) h t r) :
    IsolationOutcome cfg id dryRun expected s h t r := by
  have hnothing : OnlyReads [] := forall_mem_nil _
  rcases hrun.of_lift_bind with ⟨id', hid, hnamed⟩ | ⟨e, -, rfl, rfl, rfl⟩
  swap
  · exact .refused e hnothing rfl
  obtain rfl := containerId_ok hid
  rcases hnamed.of_lift_bind with ⟨entries, hentries, hlisted⟩ | ⟨e, -, rfl, rfl, rfl⟩
  swap
  · exact .refused e hnothing rfl
  split at hlisted
  · obtain ⟨rfl, rfl, rfl⟩ := Prog.ExecOn.of_pure hlisted
    exact .refused _ hnothing rfl
  next hprotecting =>
  split at hlisted
  · obtain ⟨rfl, rfl, rfl⟩ := Prog.ExecOn.of_pure hlisted
    exact .refused _ hnothing rfl
  next hfree =>
  rcases hlisted.of_except_bind with ⟨h₁, h₂, u, networks, rfl, hread, hchecks⟩ | ⟨e, rfl, hread⟩
  swap
  · obtain ⟨rfl, rfl, -⟩ := ask_runs hread
    exact .refused e (forall_mem_singleton.mpr rfl) rfl
  obtain ⟨rfl, rfl, hsame⟩ := ask_runs hread
  obtain rfl := hsame networks rfl rfl
  have hinspected : OnlyReads [⟨.inspect id', .ok networks⟩] := forall_mem_singleton.mpr rfl
  split at hchecks
  · obtain ⟨rfl, rfl, rfl⟩ := Prog.ExecOn.of_pure hchecks
    exact .refused _ hinspected rfl
  next hsnapshot =>
  split at hchecks
  · next hdry =>
    obtain ⟨rfl, rfl, rfl⟩ := Prog.ExecOn.of_pure hchecks
    exact .listed hdry hinspected rfl
  next hreal =>
  split at hchecks
  · obtain ⟨rfl, rfl, rfl⟩ := Prog.ExecOn.of_pure hchecks
    exact .refused _ hinspected rfl
  next hsome =>
  have hreal' : dryRun = false := Bool.eq_false_iff.mpr hreal
  rcases hchecks.of_except_bind with ⟨h₂, h₃, v, _, rfl, hloop, hpure⟩ | ⟨e, rfl, hloop⟩
  · rcases disconnectAll_runs hloop with ⟨-, hgone, honly⟩ | ⟨_, _, e, _, hr, _⟩ | hr
    · obtain ⟨rfl, rfl, rfl⟩ := Prog.ExecOn.of_pure hpure
      refine .isolated hreal' hsome (hgone.trans (withoutAll_self _)) ?_ ?_ ⟨h₂, ?_, honly⟩
      · intro snapshot hmem
        by_contra hne
        exact hsnapshot ⟨snapshot, hmem, hne⟩
      · refine ⟨entries, protectionList_ok hentries, fun hnil => hprotecting ⟨hreal', hnil⟩, ?_⟩
        intro hmem
        exact hfree (contains_iff_mem.mpr hmem)
      · rw [append_nil]
        rfl
    · cases hr
    · cases hr
  · rcases disconnectAll_runs hloop with ⟨hr, -⟩ | ⟨n, hn, e', hfailed, hr, hconfirmed⟩ | hr
    · cases hr
    · obtain rfl := Except.error.inj hr
      exact .restored n hn e (mem_cons_of_mem _ hfailed) (hconfirmed.append [_])
    · obtain rfl := Except.error.inj hr
      exact .recovery

/-- Whatever fails: an isolation is complete, undone or reported, and a rollback that succeeds
has just seen every recorded attachment. -/
theorem docker_all_or_reported (id : String) :
    (∀ cfg dryRun expected s h t r,
      Runs (.docker id) s (applyChecked cfg (.docker id) dryRun expected) h t r →
        IsolationOutcome cfg id dryRun expected s h t r) ∧
    ∀ recorded s h t, Runs (.docker id) s (rollback (.docker id) recorded) h t (.ok ()) →
      recorded ≠ [] ∧ Confirmed id recorded h t :=
  ⟨fun _ _ _ _ _ _ _ => applyChecked_runs, fun _ _ _ _ => rollback_runs⟩

/-! ## A container on one network -/

def container : String := String.ofList (List.replicate 64 'c')

def alpha : NetworkAttachment where
  name := "alpha"
  networkId := String.ofList (List.replicate 64 'a')
  aliases := ["api"]
  ipv4 := none
  ipv6 := none
  links := []
  linkLocalIps := []
  driverOpts := []
  gatewayPriority := 0

/-- Another container is protected. -/
def protecting : QuarantineConfig where
  dockerNeverQuarantine := .ok [.docker (String.ofList (List.replicate 64 'f'))]
  proxmoxNeverQuarantine := .ok []

/-- A daemon whose inspections may fail. It gives a connected container its short id as a further
alias. -/
def daemon (inspects : Bool) (s : List NetworkAttachment) :
    (c : HostCall) → c.Answer × List NetworkAttachment
  | .inspect _ => (if inspects then .ok s else .error (.verify "docker inspect failed"), s)
  | .disconnect network id =>
    (.ok (), if QuarantineTarget.docker container = .docker id then without s network else s)
  | .connect _ => (.ok (), s ++ [{ alpha with aliases := ["api", "cccccccccccc"] }])
  | .readNet0 _ _ => (.error (.verify "unavailable"), s)
  | .postConfig _ _ _ _ => (.error (.apply "unavailable"), s)
  | .waitForConfigTask _ _ _ => (.error (.apply "unavailable"), s)
  | .taskStatus _ _ _ => (.error (.apply "unavailable"), s)

theorem daemon_steps (inspects : Bool) (s : List NetworkAttachment) (c : HostCall) :
    containerStep (.docker container) s c (daemon inspects s c).1 (daemon inspects s c).2 := by
  cases c with
  | inspect id =>
    refine ⟨rfl, fun seen hseen _ => ?_⟩
    cases inspects with
    | true => exact (Except.ok.inj hseen).symm
    | false => cases hseen
  | disconnect network id => rfl
  | connect args => trivial
  | readNet0 | postConfig | waitForConfigTask | taskStatus => rfl

theorem serve_runs {α : Type} (inspects : Bool) (s : List NetworkAttachment)
    (m : Prog HostCall.Answer α) :
    Runs (.docker container) s m (Prog.serve (daemon inspects) s m).1
      (Prog.serve (daemon inspects) s m).2.1 (Prog.serve (daemon inspects) s m).2.2 :=
  Prog.execOn_serve (daemon_steps inspects) s m

/-- `apply_checked` on this container. -/
def isolation : Method (List NetworkAttachment) :=
  applyChecked protecting (.docker container) false none

/-- No inspection of the history has succeeded. -/
def unseen (h : HostHistory) : Bool :=
  h.all fun e =>
    match e with
    | ⟨.inspect _, .ok _⟩ => false
    | _ => true

theorem served :
    ((Prog.serve (daemon true) [alpha] isolation).2 = ([], .ok [alpha]) ∧
        (Prog.serve (daemon true) [alpha] isolation).1.getLast?.map Prog.Event.call =
          some (.disconnect alpha.networkId container)) ∧
      ((Prog.serve (daemon false) [alpha] isolation).2 =
          ([alpha], .error (.verify "docker inspect failed")) ∧
        unseen (Prog.serve (daemon false) [alpha] isolation).1 = true) ∧
      (Prog.serve (daemon true) [] (rollback (.docker container) [alpha])).2.2 = .ok () ∧
        (Prog.serve (daemon true) [] (rollback (.docker container) [alpha])).2.1 ≠ [alpha] := by
  decide +kernel

theorem docker_all_or_reported_alpha :
    (∃ h t r, IsolationOutcome protecting container false none [alpha] h t r) ∧
      ∃ h t, [alpha] ≠ [] ∧ Confirmed container [alpha] h t := by
  have hrollback := serve_runs true [] (rollback (.docker container) [alpha])
  obtain ⟨-, -, hresult, -⟩ := served
  rw [hresult] at hrollback
  exact ⟨⟨_, _, _, (docker_all_or_reported container).1 _ _ _ _ _ _ _
      (serve_runs true [alpha] isolation)⟩,
    ⟨_, _, (docker_all_or_reported container).2 _ _ _ _ hrollback⟩⟩

/-- It can succeed without an inspection after its last disconnect, it can fail on a container
that it has never seen, and a rollback can succeed on attachments other than the recorded ones. -/
theorem docker_isolation_unverified :
    (∃ h, Runs (.docker container) [alpha] isolation h [] (.ok [alpha]) ∧
      h.getLast?.map Prog.Event.call = some (.disconnect alpha.networkId container)) ∧
    (∃ h e, Runs (.docker container) [alpha] isolation h [alpha] (.error e) ∧
      e ≠ recoveryNeeded ∧ unseen h = true) ∧
    ∃ h t, Runs (.docker container) [] (rollback (.docker container) [alpha]) h t (.ok ()) ∧
      t ≠ [alpha] := by
  obtain ⟨⟨hisolated, hlast⟩, ⟨hfailed, hunseen⟩, hrestored, hother⟩ := served
  refine ⟨?_, ?_, ?_⟩
  · have hrun := serve_runs true [alpha] isolation
    rw [hisolated] at hrun
    exact ⟨_, hrun, hlast⟩
  · have hrun := serve_runs false [alpha] isolation
    rw [hfailed] at hrun
    exact ⟨_, _, hrun, by decide, hunseen⟩
  · have hrun := serve_runs true [] (rollback (.docker container) [alpha])
    rw [hrestored] at hrun
    exact ⟨_, _, hrun, hother⟩

end Clawforge.Quarantine.Docker

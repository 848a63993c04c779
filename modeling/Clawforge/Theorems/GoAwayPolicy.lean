import Clawforge.Firewall.Adapter
import Clawforge.Kit.Fallible

/-!
# The edits of the go-away policy

A policy that the validator accepts is a list of prefixes (`managed`), and the
edits are edits of that list: one prefix more at its end, or every occurrence
of it removed. The file is followed through the executions of `apply` and
`rollback`: it stays a valid policy, a rollback undoes an apply exactly, and
where the reload fails the file holds the policy from before the edit, unless
the write that restores it fails too, which is reported.
-/

namespace Clawforge.Firewall.GoAway

open Kit List Option

/-! ## Accepted policies -/

/-- The policy with these prefixes. -/
def managed (ps : List String) : GoAwayManagedPolicy :=
  ⟨[(networkName, if ps = [] then [] else [ps])]⟩

theorem sources_managed (ps : List String) :
    sources (managed ps) = some (if ps = [] then [] else [ps]) := by
  simp [sources, managed]

@[simp] theorem prefixes_managed (ps : List String) : prefixes (managed ps) = ps := by
  rw [prefixes, sources_managed]
  by_cases h : ps = [] <;> simp [h]

/-- The validator accepts the policies that are lists of prefixes. -/
theorem validate_ok_iff (p : GoAwayManagedPolicy) :
    validate p = .ok () ↔ ∃ ps, p = managed ps := by
  constructor
  · intro h
    unfold validate at h
    split at h
    · cases h
    · next hlen =>
      obtain ⟨⟨name, networkSources⟩, hnet⟩ := length_eq_one_iff.mp (not_not.mp hlen)
      obtain ⟨networks⟩ := p
      obtain rfl : networks = [(name, networkSources)] := hnet
      by_cases hname : networkName = name
      · subst hname
        have hsources : sources ⟨[(networkName, networkSources)]⟩ = some networkSources := by
          simp [sources]
        rw [hsources] at h
        dsimp only at h
        split at h
        · cases h
        · next hlayout =>
          push Not at hlayout
          cases networkSources with
          | nil => exact ⟨[], rfl⟩
          | cons first rest =>
            have hrest : rest = [] := by
              have := hlayout.1
              simp only [length_cons] at this
              exact length_eq_zero_iff.mp (by omega)
            have hfirst : first ≠ [] := by simpa using hlayout.2
            refine ⟨first, ?_⟩
            rw [managed, if_neg hfirst, hrest]
      · have hnone : sources ⟨[(name, networkSources)]⟩ = none := by
          simp [sources, lookup_cons, beq_false_of_ne hname]
        rw [hnone] at h
        cases h
  · rintro ⟨ps, rfl⟩
    have hlen : (managed ps).networks.length = 1 := rfl
    rw [validate, if_neg (not_not.mpr hlen), sources_managed]
    by_cases h : ps = [] <;> simp [h]

theorem validate_managed (ps : List String) : validate (managed ps) = .ok () :=
  (validate_ok_iff _).mpr ⟨ps, rfl⟩

theorem pushPrefix_managed (ps : List String) (element : String) :
    pushPrefix (managed ps) element = managed (ps ++ [element]) := by
  rw [pushPrefix, sources_managed]
  by_cases h : ps = [] <;> simp [h, managed]

theorem retainPrefixes_managed (ps : List String) (element : String) :
    retainPrefixes (managed ps) element = ⟨[(networkName, [ps.filter (· ≠ element)])]⟩ := by
  rw [retainPrefixes, sources_managed]
  by_cases h : ps = [] <;> simp [h, managed]

theorem prefixes_retainPrefixes (ps : List String) (element : String) :
    prefixes (retainPrefixes (managed ps) element) = ps.filter (· ≠ element) := by
  rw [retainPrefixes_managed]
  simp [prefixes, sources]

theorem clearEmptySource_retainPrefixes (ps : List String) (element : String) :
    clearEmptySource (retainPrefixes (managed ps) element) =
      managed (ps.filter (· ≠ element)) := by
  rw [clearEmptySource, prefixes_retainPrefixes, retainPrefixes_managed]
  by_cases h : ps.filter (· ≠ element) = [] <;> simp only [h, managed, sources] <;> simp

/-! ## The file -/

abbrev HostHistory := List (Prog.Event HostCall.Answer)

/-- The policy in the file; a missing file is `none`. -/
abbrev Disk := Option GoAwayManagedPolicy

/-- What a call does to the file: a read returns it, a write that succeeds replaces it (by a
rename, so one that fails does not), and nothing else touches it. -/
def fileStep (file : String) (d : Disk) : (c : HostCall) → c.Answer → Disk → Prop
  | .readPolicy f, .ok policy, d' => d' = d ∧ (f = file → policy = d)
  | .writePolicy f policy, .ok _, d' => d' = if f = file then some policy else d
  | _, _, d' => d' = d

/-- The policy as it is read. -/
def view (d : Disk) : GoAwayManagedPolicy := d.getD fresh

/-- The file holds a policy that the validator accepts, or is missing. -/
def Valid (d : Disk) : Prop := ∀ policy ∈ d, validate policy = .ok ()

theorem Valid.view_eq {d : Disk} (h : Valid d) : ∃ ps, view d = managed ps := by
  cases d with
  | none => exact ⟨[], rfl⟩
  | some policy => exact (validate_ok_iff policy).mp (h policy rfl)

theorem valid_managed (ps : List String) : Valid (some (managed ps)) := by
  rintro policy hp
  obtain rfl := mem_some_iff.mp hp
  exact validate_managed ps

variable {cfg : AdapterConfig} {d t : Disk} {h : HostHistory} {r : Except AdapterError Unit}
  {wrap : String → AdapterError} {ps after : List String} {α : Type}

/-- A part of a method, run against the file. -/
abbrev Runs (cfg : AdapterConfig) {α : Type} (d : Disk) (m : Prog HostCall.Answer α)
    (h : HostHistory) (t : Disk) (r : α) : Prop :=
  Prog.ExecOn (fileStep cfg.policyFile) d m h t r

theorem askHost_runs {call : HostCall} {r : Except AdapterError call.Result}
    (hrun : Runs cfg d (askHost call wrap) h t r) :
    ∃ answer, h = [⟨call, answer⟩] ∧ fileStep cfg.policyFile d call answer t ∧
      r = answer.mapError wrap := by
  obtain ⟨answer, rest, u, rfl, hstep, hrest⟩ := Prog.ExecOn.of_call hrun
  obtain ⟨rfl, rfl, rfl⟩ := Prog.ExecOn.of_pure hrest
  exact ⟨answer, rfl, hstep, rfl⟩

/-- A read returns the policy, or fails; the file stays. -/
theorem readPolicy_runs {r : Except AdapterError GoAwayManagedPolicy} (hd : Valid d)
    (hrun : Runs cfg d (readPolicy cfg wrap) h t r) :
    t = d ∧ (r = .ok (view d) ∨ ∃ e, r = .error e) := by
  rcases hrun.of_except_bind with ⟨h₁, h₂, u, policy, rfl, hask, hrest⟩ | ⟨e, rfl, hask⟩
  · obtain ⟨answer, -, hstep, hanswer⟩ := askHost_runs hask
    cases answer with
    | error e => cases hanswer
    | ok read =>
      obtain rfl := Except.ok.inj hanswer
      obtain ⟨rfl, hsame⟩ := hstep
      obtain rfl := hsame rfl
      cases policy with
      | none =>
        obtain ⟨-, rfl, rfl⟩ := Prog.ExecOn.of_pure hrest
        exact ⟨rfl, .inl rfl⟩
      | some policy =>
        rcases hrest.of_lift_bind with ⟨_, -, hpure⟩ | ⟨e, -, -, rfl, rfl⟩
        · obtain ⟨-, rfl, rfl⟩ := Prog.ExecOn.of_pure hpure
          exact ⟨rfl, .inl rfl⟩
        · exact ⟨rfl, .inr ⟨e, rfl⟩⟩
  · obtain ⟨answer, -, hstep, hanswer⟩ := askHost_runs hask
    cases answer with
    | error text => exact ⟨hstep, .inr ⟨e, rfl⟩⟩
    | ok read => cases hanswer

/-- A write replaces the file, or fails and leaves it. -/
theorem writePolicy_runs (hrun : Runs cfg d (writePolicy cfg (managed ps) wrap) h t r) :
    (r = .ok () ∧ t = some (managed ps)) ∨ ((∃ e, r = .error (wrap e)) ∧ t = d) := by
  rcases hrun.of_lift_bind with ⟨_, -, hask⟩ | ⟨e, hinvalid, -⟩
  · obtain ⟨answer, -, hstep, rfl⟩ := askHost_runs hask
    cases answer with
    | error e => exact .inr ⟨⟨e, rfl⟩, hstep⟩
    | ok done =>
      refine .inl ⟨rfl, ?_⟩
      have ht : t = if cfg.policyFile = cfg.policyFile then some (managed ps) else d := hstep
      rwa [if_pos rfl] at ht
  · rw [validate_managed] at hinvalid
    cases hinvalid

/-- Some command of the history succeeded. -/
def ranOk (h : HostHistory) : Bool :=
  h.any fun e =>
    match e with
    | ⟨.command _, .ok output⟩ => output.success
    | _ => false

/-- A reload leaves the file; it succeeds where its command does. -/
theorem reload_runs {r : Except String Unit} (hrun : Runs cfg d (reload cfg) h t r) :
    t = d ∧ (r = .ok () → ranOk h = true) := by
  unfold reload at hrun
  dsimp only at hrun
  split at hrun
  · obtain ⟨-, rfl, rfl⟩ := Prog.ExecOn.of_pure hrun
    exact ⟨rfl, fun hr => nomatch hr⟩
  · obtain ⟨answer, rest, u, rfl, hstep, hrest⟩ := Prog.ExecOn.of_call hrun
    cases answer with
    | error e =>
      obtain ⟨-, rfl, rfl⟩ := Prog.ExecOn.of_pure hrest
      exact ⟨hstep, fun hr => nomatch hr⟩
    | ok output =>
      obtain ⟨-, rfl, hr⟩ := Prog.ExecOn.of_pure hrest
      refine ⟨hstep, fun hok => ?_⟩
      rw [hr] at hok
      by_cases hsuccess : output.success = true
      · simp [ranOk, hsuccess]
      · rw [if_neg hsuccess] at hok
        cases hok

/-! ## The edits -/

/-- How an edit from one list of prefixes to another ends: it is made and go-away has reloaded;
or it fails with the policy as it was; or it stays because the write that restores the policy
has failed too, which the error says. -/
inductive EditOutcome {α : Type} (wrap : String → AdapterError) (d : Disk) (after : List String)
    (h : HostHistory) (t : Disk) : Except AdapterError α → Prop
  | made (a : α) (hview : view t = managed after) (hwritten : t = d ∨ t = some (managed after))
      (hran : ranOk h = true) : EditOutcome wrap d after h t (.ok a)
  | kept (e : AdapterError) (hkept : t = d ∨ t = some (view d)) :
      EditOutcome wrap d after h t (.error e)
  | stuck (reload restore : String) (hstuck : t = some (managed after)) :
      EditOutcome wrap d after h t (.error (wrap
        ("reload failed: " ++ reload ++ "; restoring snippet failed: " ++ restore)))

theorem ranOk_append (h₁ h₂ : HostHistory) : ranOk (h₁ ++ h₂) = (ranOk h₁ || ranOk h₂) :=
  any_append

theorem lift_runs {m : Prog HostCall.Answer α} {r : Except AdapterError α}
    (hrun : Runs cfg d (ExceptT.lift m) h t r) : ∃ a, r = .ok a ∧ Runs cfg d m h t a := by
  obtain ⟨h₁, h₂, u, a, rfl, hm, hpure⟩ := Prog.ExecOn.of_bind hrun
  obtain ⟨rfl, rfl, rfl⟩ := Prog.ExecOn.of_pure hpure
  exact ⟨a, rfl, by rwa [append_nil]⟩

/-- After a reload that failed, the policy is restored, or the error says that it is not. -/
theorem restore_runs {reload : String} {before : List String} {e : AdapterError} {earlier : Disk}
    {r : Except AdapterError α} (hview : view earlier = managed before)
    (hd : d = some (managed after)) {h₀ : HostHistory}
    (hrun : Runs cfg d (do
      writePolicy cfg (managed before) fun restore =>
        wrap ("reload failed: " ++ reload ++ "; restoring snippet failed: " ++ restore)
      throw e : Method α) h t r) : EditOutcome wrap earlier after (h₀ ++ h) t r := by
  rcases hrun.of_except_bind with ⟨h₁, h₂, u, _, rfl, hwrite, hthrow⟩ | ⟨e', rfl, hwrite⟩
  · rcases writePolicy_runs hwrite with ⟨-, rfl⟩ | ⟨⟨_, hbad⟩, -⟩
    · obtain ⟨-, rfl, rfl⟩ := Prog.ExecOn.of_pure hthrow
      exact .kept e (.inr (by rw [hview]))
    · cases hbad
  · rcases writePolicy_runs hwrite with ⟨hbad, -⟩ | ⟨⟨restore, hrestore⟩, rfl⟩
    · cases hbad
    · obtain rfl := Except.error.inj hrestore
      exact .stuck reload restore hd

/-- A valid policy in place of another: the write, the reload, and the write back. -/
theorem edit_runs {before : List String} {a : α} {r : Except AdapterError α}
    (hview : view d = managed before) {h₀ : HostHistory}
    (hrun : Runs cfg d (do
      writePolicy cfg (managed after) wrap
      match ← ExceptT.lift (reload cfg) with
      | .ok () => return a
      | .error e =>
        writePolicy cfg (managed before) fun restore =>
          wrap ("reload failed: " ++ e ++ "; restoring snippet failed: " ++ restore)
        throw (wrap ("reload failed; previous snippet restored: " ++ e)) : Method α) h t r) :
    EditOutcome wrap d after (h₀ ++ h) t r := by
  rcases hrun.of_except_bind with ⟨h₁, h₂, u, _, rfl, hwrite, hrun⟩ | ⟨e, rfl, hwrite⟩
  · rcases writePolicy_runs hwrite with ⟨-, hu⟩ | ⟨⟨_, hbad⟩, -⟩
    · rcases hrun.of_except_bind with ⟨h₃, h₄, v, reloaded, rfl, hreload, hrun⟩ | ⟨e, rfl, hreload⟩
      · obtain ⟨_, hok, hreload⟩ := lift_runs hreload
        obtain rfl := Except.ok.inj hok
        obtain ⟨rfl, hran⟩ := reload_runs hreload
        cases reloaded with
        | ok done =>
          obtain ⟨-, rfl, rfl⟩ := Prog.ExecOn.of_pure hrun
          refine .made a (by rw [hu]; rfl) (.inr hu) ?_
          simp [ranOk_append, hran rfl]
        | error e =>
          rw [← append_assoc, ← append_assoc]
          exact restore_runs hview hu hrun
      · obtain ⟨_, hbad, -⟩ := lift_runs hreload
        cases hbad
    · cases hbad
  · rcases writePolicy_runs hwrite with ⟨hbad, -⟩ | ⟨-, rfl⟩
    · cases hbad
    · exact .kept e (.inl rfl)

/-- What an apply makes of the prefixes. -/
def added (ps : List String) (element : String) : List String :=
  if element ∈ ps then ps else ps ++ [element]

theorem addPrefix_runs {element : String} {r : Except AdapterError String} (hd : Valid d)
    (hview : view d = managed ps) (hrun : Runs cfg d (addPrefix cfg element) h t r) :
    EditOutcome .apply d (added ps element) h t r := by
  rcases hrun.of_except_bind with ⟨h₁, h₂, u, original, rfl, hread, hrun⟩ | ⟨e, rfl, hread⟩
  · obtain ⟨rfl, hread⟩ := readPolicy_runs hd hread
    obtain rfl : original = view u := by
      rcases hread with hread | ⟨e, hread⟩
      · exact Except.ok.inj hread
      · cases hread
    have hedit : (if (prefixes (view u)).contains element then view u
        else pushPrefix (view u) element) = managed (added ps element) := by
      rw [hview, prefixes_managed, added]
      by_cases hmem : element ∈ ps
      · rw [if_pos (contains_iff_mem.mpr hmem), if_pos hmem]
      · rw [if_neg (mt contains_iff_mem.mp hmem), if_neg hmem, pushPrefix_managed]
    rw [hedit, hview] at hrun
    exact edit_runs hview hrun
  · exact .kept e (.inl (readPolicy_runs hd hread).1)

theorem removePrefix_runs {element : String} (hd : Valid d) (hview : view d = managed ps)
    (hrun : Runs cfg d (removePrefix cfg element) h t r) :
    EditOutcome .rollback d (ps.filter (· ≠ element)) h t r := by
  rcases hrun.of_except_bind with ⟨h₁, h₂, u, original, rfl, hread, hrun⟩ | ⟨e, rfl, hread⟩
  · obtain ⟨rfl, hread⟩ := readPolicy_runs hd hread
    obtain rfl : original = view u := by
      rcases hread with hread | ⟨e, hread⟩
      · exact Except.ok.inj hread
      · cases hread
    rw [hview] at hrun
    dsimp only at hrun
    rw [prefixes_retainPrefixes, prefixes_managed, clearEmptySource_retainPrefixes] at hrun
    split at hrun
    · next hlen =>
      -- the prefix is absent: nothing is written
      have hsame : ps.filter (· ≠ element) = ps := filter_sublist.eq_of_length hlen
      rw [hsame]
      rcases hrun.of_except_bind with ⟨h₃, h₄, v, reloaded, rfl, hreload, hrun⟩ | ⟨e, rfl, hreload⟩
      · obtain ⟨_, hok, hreload⟩ := lift_runs hreload
        obtain rfl := Except.ok.inj hok
        obtain ⟨rfl, hran⟩ := reload_runs hreload
        cases reloaded with
        | ok done =>
          obtain ⟨-, rfl, rfl⟩ := Prog.ExecOn.of_pure hrun
          refine .made () hview (.inl rfl) ?_
          simp [ranOk_append, hran rfl]
        | error e =>
          obtain ⟨-, rfl, rfl⟩ := Prog.ExecOn.of_pure hrun
          exact .kept _ (.inl rfl)
      · obtain ⟨_, hbad, -⟩ := lift_runs hreload
        cases hbad
    · exact edit_runs hview hrun
  · exact .kept e (.inl (readPolicy_runs hd hread).1)

/-! ## The methods -/

/-- A rollback takes the prefix of the target off the policy, or fails and changes nothing. -/
theorem rollback_runs {action : FirewallAction} (hd : Valid d) (hview : view d = managed ps)
    (hrun : Runs cfg d (rollback cfg action) h t r) :
    (∃ element, elementReference action.target = .ok element ∧
      EditOutcome .rollback d (ps.filter (· ≠ element)) h t r) ∨
    ∃ e, r = .error e ∧ t = d := by
  rcases hrun.of_lift_bind with ⟨_, -, hrun⟩ | ⟨e, -, -, rfl, rfl⟩
  · rcases hrun.of_lift_bind with ⟨_, -, hrun⟩ | ⟨e, -, -, rfl, rfl⟩
    · rcases hrun.of_lift_bind with ⟨element, helement, hrun⟩ | ⟨e, -, -, rfl, rfl⟩
      · exact .inl ⟨element, helement, removePrefix_runs hd hview hrun⟩
      · exact .inr ⟨e, rfl, rfl⟩
    · exact .inr ⟨e, rfl, rfl⟩
  · exact .inr ⟨e, rfl, rfl⟩

theorem plan_mutate {action : FirewallAction} {receipt : FirewallActionReceipt}
    {mutate : Method String} (hplan : plan cfg action = .ok (receipt, mutate)) :
    ∃ element, elementReference action.target = .ok element ∧ mutate = addPrefix cfg element := by
  obtain ⟨_, -, hplan⟩ := bind_ok hplan
  obtain ⟨_, -, hplan⟩ := bind_ok hplan
  obtain ⟨element, helement, hplan⟩ := bind_ok hplan
  obtain ⟨_, -, hplan⟩ := bind_ok hplan
  exact ⟨element, helement, (Prod.mk.inj (Except.ok.inj hplan)).2.symm⟩

/-- What the caller makes of a success does not matter to the file. -/
theorem EditOutcome.of_ok {β : Type} {a : α} (hout : EditOutcome wrap d after h t (.ok a)) (b : β) :
    EditOutcome wrap d after h t (.ok b) := by
  cases hout with
  | made _ hview hwritten hran => exact .made b hview hwritten hran

theorem EditOutcome.of_error {β : Type} {e : AdapterError}
    (hout : EditOutcome wrap d after h t (.error e : Except AdapterError α)) :
    EditOutcome wrap d after h t (.error e : Except AdapterError β) := by
  cases hout with
  | kept _ hkept => exact .kept e hkept
  | stuck reload restore hstuck => exact .stuck reload restore hstuck

theorem apply_runs {action : FirewallAction} {r : Except AdapterError ApplyResult} (hd : Valid d)
    (hview : view d = managed ps) (hrun : Runs cfg d (apply cfg action false) h t r) :
    (∃ element, elementReference action.target = .ok element ∧
      EditOutcome .apply d (added ps element) h t r) ∨
    ∃ e, r = .error e ∧ t = d := by
  rcases hrun.of_lift_bind with ⟨_, -, hrun⟩ | ⟨e, -, -, rfl, rfl⟩
  · rw [Bool.false_and, if_neg Bool.false_ne_true] at hrun
    rcases hrun.of_lift_bind with ⟨⟨receipt, mutate⟩, hplan, hrun⟩ | ⟨e, -, -, rfl, rfl⟩
    · obtain ⟨element, helement, rfl⟩ := plan_mutate hplan
      dsimp only at hrun
      rw [if_neg Bool.false_ne_true] at hrun
      refine .inl ⟨element, helement, ?_⟩
      rcases hrun.of_except_bind with ⟨h₁, h₂, u, observed, rfl, hmutate, hpure⟩ | ⟨e, rfl, hmutate⟩
      · obtain ⟨rfl, rfl, rfl⟩ := Prog.ExecOn.of_pure hpure
        rw [append_nil]
        exact (addPrefix_runs hd hview hmutate).of_ok _
      · exact (addPrefix_runs hd hview hmutate).of_error
    · exact .inr ⟨e, rfl, rfl⟩
  · exact .inr ⟨e, rfl, rfl⟩

/-! ## Reversible and valid -/

/-- After an edit the file holds a valid policy. -/
theorem EditOutcome.valid {r : Except AdapterError α} (hd : Valid d)
    (hout : EditOutcome wrap d after h t r) : Valid t := by
  obtain ⟨ps, hview⟩ := hd.view_eq
  cases hout with
  | made a hafter hwritten hran =>
    rcases hwritten with rfl | rfl
    · exact hd
    · exact valid_managed after
  | kept e hkept =>
    rcases hkept with rfl | rfl
    · exact hd
    · rw [hview]
      exact valid_managed ps
  | stuck reload restore hstuck =>
    rw [hstuck]
    exact valid_managed after

/-- The error says that the policy was not restored after a failed reload. -/
def NotRestored {α : Type} (wrap : String → AdapterError) (r : Except AdapterError α) : Prop :=
  ∃ reload restore, r = .error (wrap
    ("reload failed: " ++ reload ++ "; restoring snippet failed: " ++ restore))

/-- Where nothing reloaded, the edit failed, and its policy is gone or the error says it is not. -/
theorem EditOutcome.not_ran {r : Except AdapterError α} (hout : EditOutcome wrap d after h t r)
    (hran : ranOk h = false) :
    (∃ e, r = .error e) ∧ (t = d ∨ t = some (view d) ∨ NotRestored wrap r) := by
  cases hout with
  | made a hafter hwritten hok =>
    rw [hran] at hok
    cases hok
  | kept e hkept =>
    refine ⟨⟨e, rfl⟩, ?_⟩
    rcases hkept with hkept | hkept
    · exact .inl hkept
    · exact .inr (.inl hkept)
  | stuck reload restore hstuck => exact ⟨⟨_, rfl⟩, .inr (.inr ⟨reload, restore, rfl⟩)⟩

/-- From a policy that the validator accepts, or a missing file, which reads as the empty one:
apply and rollback leave a policy that it accepts; where the reload does not succeed they fail,
and the policy is the one from before unless the error says that restoring it failed too; and
a rollback after an apply of a target that was not in the policy restores that policy. -/
theorem goaway_edits_reversible (cfg : AdapterConfig) (action : FirewallAction) :
    (∀ d h t r, Valid d → Runs cfg d (apply cfg action false) h t r →
      Valid t ∧ (ranOk h = false → (∃ e, r = .error e) ∧
        (t = d ∨ t = some (view d) ∨ NotRestored .apply r))) ∧
    (∀ d h t r, Valid d → Runs cfg d (rollback cfg action) h t r →
      Valid t ∧ (ranOk h = false → (∃ e, r = .error e) ∧
        (t = d ∨ t = some (view d) ∨ NotRestored .rollback r))) ∧
    ∀ d h₁ u applied h₂ t, Valid d →
      (∀ element, elementReference action.target = .ok element → element ∉ prefixes (view d)) →
      Runs cfg d (apply cfg action false) h₁ u (.ok applied) →
      Runs cfg u (rollback cfg action) h₂ t (.ok ()) → t = some (view d) := by
  refine ⟨fun d h t r hd hrun => ?_, fun d h t r hd hrun => ?_, ?_⟩
  · obtain ⟨ps, hview⟩ := hd.view_eq
    rcases apply_runs hd hview hrun with ⟨element, -, hout⟩ | ⟨e, rfl, rfl⟩
    · exact ⟨hout.valid hd, hout.not_ran⟩
    · exact ⟨hd, fun _ => ⟨⟨e, rfl⟩, .inl rfl⟩⟩
  · obtain ⟨ps, hview⟩ := hd.view_eq
    rcases rollback_runs hd hview hrun with ⟨element, -, hout⟩ | ⟨e, rfl, rfl⟩
    · exact ⟨hout.valid hd, hout.not_ran⟩
    · exact ⟨hd, fun _ => ⟨⟨e, rfl⟩, .inl rfl⟩⟩
  · intro d h₁ u applied h₂ t hd habsent happly hrollback
    obtain ⟨ps, hview⟩ := hd.view_eq
    rcases apply_runs hd hview happly with ⟨element, helement, hout⟩ | ⟨e, hbad, -⟩
    · have hnot : element ∉ ps := by
        have := habsent element helement
        rwa [hview, prefixes_managed] at this
      have hu := hout.valid hd
      cases hout with
      | made _ hafter hwritten hran =>
        rw [added, if_neg hnot] at hafter hwritten
        rcases rollback_runs hu hafter hrollback with ⟨element', helement', hout⟩ | ⟨e, hbad, -⟩
        · obtain rfl : element = element' := by
            rw [helement] at helement'
            exact Except.ok.inj helement'
          have hrest : (ps ++ [element]).filter (· ≠ element) = ps := by
            rw [filter_append, filter_eq_self.mpr (by grind)]
            simp
          rw [hrest] at hout
          cases hout with
          | made _ hrestored hwritten' hran' =>
            rcases hwritten' with rfl | rfl
            · -- the prefix was in the file, so the file was written
              have hlists := congrArg prefixes (hafter.symm.trans hrestored)
              rw [prefixes_managed, prefixes_managed] at hlists
              exact absurd (congrArg List.length hlists) (by simp)
            · rw [hview]
        · cases hbad
    · cases hbad

def labConfig : AdapterConfig where
  neverBlock := .ok []
  adminSocket := "/run/haproxy/admin.sock"
  aclFile := "/etc/haproxy/blocklist.acl"
  rateLimitTable := "clawforge"
  policyFile := "/etc/go-away/policy-snippets/clawforge-managed.yml"
  reloadCommand := ["systemctl", "kill", "--signal=HUP", "go-away.service"]
  fromStr := fun _ => none

def labAction : FirewallAction :=
  ⟨.threatIntelIndicator "203.0.113.7" "spamhaus_drop", 60, "listed"⟩

/-- A host on which the reload succeeds or fails, and some policies cannot be written. -/
def labHost (reloads : Bool) (writable : GoAwayManagedPolicy → Bool) (d : Disk) :
    (c : HostCall) → c.Answer × Disk
  | .readPolicy _ => (.ok d, d)
  | .writePolicy f policy =>
    if writable policy then
      (.ok (), if f = labConfig.policyFile then some policy else d)
    else (.error "No space left on device", d)
  | .command _ => (.ok ⟨reloads, "exit status: 5", "", "Unit go-away.service not loaded."⟩, d)
  | .adminSocket _ _ => (.error "No such file or directory", d)

theorem labHost_step (reloads : Bool) (writable : GoAwayManagedPolicy → Bool) (d : Disk)
    (c : HostCall) : fileStep labConfig.policyFile d c (labHost reloads writable d c).1
      (labHost reloads writable d c).2 := by
  cases c with
  | readPolicy f => exact ⟨rfl, fun _ => rfl⟩
  | writePolicy f policy =>
    simp only [labHost]
    by_cases h : writable policy = true
    · rw [if_pos h]
      exact rfl
    · rw [if_neg h]
      exact rfl
  | command | adminSocket => exact rfl

def labApplied : ApplyResult :=
  ⟨{ receipt labConfig "203.0.113.7" 60 with isDryRun := false }, some "[\"203.0.113.7\"]"⟩

theorem goaway_edits_reversible_lab :
    ∃ h₁ u h₂ t, Runs labConfig none (apply labConfig labAction false) h₁ u (.ok labApplied) ∧
      Runs labConfig u (rollback labConfig labAction) h₂ t (.ok ()) ∧ t = some fresh := by
  have happly := Prog.execOn_serve (labHost_step true fun _ => true) none
    (apply labConfig labAction false)
  have hrollback := Prog.execOn_serve (labHost_step true fun _ => true)
    (some (managed ["203.0.113.7"])) (rollback labConfig labAction)
  have hedited : (Prog.serve (labHost true fun _ => true) none
      (apply labConfig labAction false)).2 =
      (some (managed ["203.0.113.7"]), .ok labApplied) := by
    decide +kernel
  have hrestored : (Prog.serve (labHost true fun _ => true) (some (managed ["203.0.113.7"]))
      (rollback labConfig labAction)).2.2 = .ok () := by
    decide +kernel
  rw [hedited] at happly
  rw [hrestored] at hrollback
  refine ⟨_, _, _, _, happly, hrollback, ?_⟩
  exact (goaway_edits_reversible labConfig labAction).2.2 none _ _ _ _ _
    (fun _ hp => absurd hp (not_mem_none _)) (fun _ _ => not_mem_nil) happly hrollback

/-- Where the write that restores the policy fails, the edit stays. -/
theorem goaway_edit_stays :
    ¬ ∀ cfg action d h t r, Valid d → Runs cfg d (apply cfg action false) h t r →
      ranOk h = false → t = d ∨ t = some (view d) := by
  intro hall
  have happly := Prog.execOn_serve (labHost_step false fun policy => policy ≠ fresh) none
    (apply labConfig labAction false)
  have hran : ranOk (Prog.serve (labHost false fun policy => policy ≠ fresh) none
      (apply labConfig labAction false)).1 = false := by
    decide +kernel
  have hstays : (Prog.serve (labHost false fun policy => policy ≠ fresh) none
      (apply labConfig labAction false)).2.1 = some (managed ["203.0.113.7"]) := by
    decide +kernel
  have hfile := hall _ _ _ _ _ _ (fun _ hp => absurd hp (not_mem_none _)) happly hran
  rw [hstays] at hfile
  exact absurd hfile (by decide_cbv)

end Clawforge.Firewall.GoAway

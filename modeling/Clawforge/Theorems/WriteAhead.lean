import Clawforge.Executor.Calls

/-!
# Write-ahead ownership

The invariant of the concurrent live calls (`CallWorldOk`), one lemma for what
each step does to it, and what follows from them: no mutation reaches the host
before a committed generation owns its rule, whatever fails and wherever a call
crashes.
-/

namespace Clawforge.Executor

open Clawforge.Firewall Clawforge.RuleIntents Kit List Option

/-! ## One call's invariant -/

/-- The host calls a method of the dispatch may make. -/
def MayCall (cfg : AdapterConfig) (c : ExecCall) (hc : HostCall) : Prop :=
  hc.reads = true ∨ ∃ kind action, c = .apply kind action false ∧ kind.Mutation cfg action hc

theorem method_uses {cfg : AdapterConfig} {c : ExecCall} {m : Prog HostCall.Answer c.Answer}
    (h : c.method cfg = some m) : Prog.Uses (MayCall cfg c) m := by
  cases c with
  | preflight kind target =>
    cases h
    exact ((kind.contract cfg).preflight_reads target).mono fun _ hreads => .inl hreads
  | verify kind target =>
    cases h
    exact ((kind.contract cfg).verify_reads target).mono fun _ hreads => .inl hreads
  | apply kind action dryRun =>
    cases h
    cases dryRun with
    | false =>
      refine ((kind.contract cfg).apply_mutates action).mono fun hc hmay => ?_
      exact hmay.imp id fun hmutation => ⟨kind, action, rfl, hmutation⟩
    | true =>
      obtain ⟨plan, hdry, -⟩ := (kind.contract cfg).planned action
      rw [hdry]
      exact trivial
  | prepare | finish | recoveryRequired | resolveIncidentSource => cases h

/-- An answer a method came to is one its call can get. -/
theorem answered_of_method {cfg : AdapterConfig} {c : ExecCall} {m : Prog HostCall.Answer c.Answer}
    (h : c.method cfg = some m) {answers : List (Prog.Event HostCall.Answer)} {a : c.Answer}
    (hexec : Prog.Exec m answers a) : Answered cfg c a := by
  cases c with
  | preflight | apply | verify =>
    cases h
    exact ⟨answers, hexec⟩
  | prepare | finish | recoveryRequired | resolveIncidentSource => cases h

variable (cfg : AdapterConfig)

/-- The typestate of the call, carried through the method it is in. -/
def LiveCall.PhaseOk (s : LiveCall) : Prop :=
  match s.phase with
  | .running rest =>
    Sound cfg s.kind s.action false (some s.journal) s.facts rest ∧ s.applies = s.facts.applies
  | .inMethod c answers rest k =>
    Admitted cfg s.kind s.action false (some s.journal) s.facts c ∧
    (∀ a, Answered cfg c a →
      Sound cfg s.kind s.action false (some s.journal) (s.facts.observe c a) (k a)) ∧
    (∃ m, c.method cfg = some m ∧ ∀ h a, Prog.Exec rest h a → Prog.Exec m (answers ++ h) a) ∧
    Prog.Uses (MayCall cfg c) rest ∧ s.applies = s.facts.applies ++ c.liveApply.toList
  | .done o =>
    OutcomeSound s.kind s.action false (some s.journal) s.facts o ∧ s.applies = s.facts.applies
  | .crashed => True

/-- What the call's own history says, wherever it stands. -/
structure HistoryOk (s : LiveCall) : Prop where
  prepared : s.facts.prepared.isSome = true → s.facts.prepareIssued = true
  inspected : s.facts.prepareIssued = true → s.facts.present = some false
  listed : s.facts.present = some false → ¬ s.kind.Listed cfg s.action.target s.inspected
  once : s.applies = [] ∨ s.applies = [(s.kind, s.action)]
  applied : s.applies ≠ [] → s.facts.prepared.isSome = true
  issued : ∀ hc ∈ s.issued, hc.reads = false →
    s.kind.Mutation cfg s.action hc ∧ s.facts.prepared.isSome = true

/-- What the committed ledger holds for the call. -/
structure Backed (L : Ledger) (s : LiveCall) : Prop where
  owned : ∀ id, s.facts.prepared = some id →
    ∃ r ∈ L.intents, r.id = id ∧ r.status.active = true ∧ s.Owns cfg r.snapshot
  finished : s.facts.finished = true → ∃ id, s.facts.prepared = some id ∧
    ∃ x ∈ L.receipts, x.intentId = id ∧ x.receiptKind = .apply ∧
      x.verificationResult = some .verified

structure CallOk (L : Ledger) (s : LiveCall) : Prop where
  phase : s.PhaseOk cfg
  history : HistoryOk cfg s
  backed : Backed cfg L s

/-- A call goes on as the call it is, and forgets nothing it did. -/
structure Later (s s' : LiveCall) : Prop where
  kind : s'.kind = s.kind
  action : s'.action = s.action
  journal : s'.journal = s.journal
  prepareIssued : s.facts.prepareIssued = true → s'.facts.prepareIssued = true
  issued : ∀ hc ∈ s.issued, hc ∈ s'.issued

variable {cfg}

theorem Later.owns {s s' : LiveCall} (h : Later s s') {r : IntentSnapshot}
    (howns : s.Owns cfg r) : s'.Owns cfg r := by
  obtain ⟨hexecution, haction, hkey, htarget⟩ := howns
  refine ⟨?_, ?_, ?_, ?_⟩
  · rw [hexecution, h.journal]
  · rw [haction, h.journal]
  · rw [← hkey]
    simp only [LiveCall.ruleKey, h.kind, h.action]
  · rw [htarget, h.kind, h.action]

/-- A ledger that keeps its rows and receipts backs a call as before. -/
theorem Backed.keeps {L L' : Ledger} {s : LiveCall} (h : Backed cfg L s) (hkeeps : Keeps L L') :
    Backed cfg L' s where
  owned id hid := by
    obtain ⟨r, hr, hrid, hact, howns⟩ := h.owned id hid
    obtain ⟨j, hj, hsnap, hkept⟩ := hkeeps.rows r hr
    have hjid : j.id = r.id := congrArg IntentSnapshot.id hsnap
    exact ⟨j, hj, hjid.trans hrid, hkept hact, hsnap ▸ howns⟩
  finished hfinished := by
    obtain ⟨id, hid, x, hx, hreceipt⟩ := h.finished hfinished
    exact ⟨id, hid, x, hkeeps.receipts x hx, hreceipt⟩

/-- A call that learned nothing about its generation is backed as before. -/
theorem Backed.later {L : Ledger} {s s' : LiveCall} (h : Backed cfg L s) (hlater : Later s s')
    (hprepared : s'.facts.prepared = s.facts.prepared)
    (hfinished : s'.facts.finished = true → s.facts.finished = true) : Backed cfg L s' where
  owned id hid := by
    rw [hprepared] at hid
    obtain ⟨r, hr, hrid, hact, howns⟩ := h.owned id hid
    exact ⟨r, hr, hrid, hact, hlater.owns howns⟩
  finished hf := by
    rw [hprepared]
    exact h.finished (hfinished hf)

/-! ## The steps of one call -/

section CallSteps

variable {L : Ledger} {s s' : LiveCall} {c : ExecCall} {f : Facts}

/-- A live apply is entered with a generation, and for the first time. -/
theorem liveApply_of_admitted {kind : AdapterKind} {action : FirewallAction} {journal : RuleJournal}
    {a : AdapterKind × FirewallAction} (h : Admitted cfg kind action false (some journal) f c)
    (hc : c.liveApply = some a) :
    a = (kind, action) ∧ f.applies = [] ∧ f.prepared.isSome = true := by
  cases c with
  | apply k act dryRun =>
    obtain ⟨rfl, rfl, rfl, happly⟩ := h
    cases hc
    obtain ⟨hnone, hprepared⟩ := happly rfl
    exact ⟨rfl, hnone, hprepared rfl⟩
  | preflight | verify | prepare | finish | recoveryRequired | resolveIncidentSource => cases hc

theorem CallOk.enter (h : CallOk cfg L s) (hstep : s.enter cfg = some s') :
    CallOk cfg L s' ∧ Later s s' ∧ s'.facts.prepared = s.facts.prepared := by
  unfold LiveCall.enter at hstep
  split at hstep
  · next c k hphase =>
    obtain ⟨m, hm, rfl⟩ := map_eq_some_iff.mp hstep
    have hok := h.phase
    simp only [LiveCall.PhaseOk, hphase] at hok
    obtain ⟨⟨hadmitted, hrest⟩, happlies⟩ := hok
    have happlies' : (s.entered ++ [c]).filterMap ExecCall.liveApply =
        s.facts.applies ++ c.liveApply.toList := by
      rw [filterMap_append, ← happlies]
      cases hlive : c.liveApply <;> simp [LiveCall.applies, hlive]
    have hlater : Later s { s with phase := .inMethod c [] m k, entered := s.entered ++ [c] } :=
      ⟨rfl, rfl, rfl, fun hp => hp, fun _ hmem => hmem⟩
    refine ⟨⟨⟨hadmitted, hrest, ⟨m, hm, fun h a hexec => hexec⟩, method_uses hm, happlies'⟩,
      ?_, h.backed.later hlater rfl fun hf => hf⟩, hlater, rfl⟩
    exact
      { prepared := h.history.prepared
        inspected := h.history.inspected
        listed := h.history.listed
        issued := h.history.issued
        once := by
          show (s.entered ++ [c]).filterMap _ = [] ∨ (s.entered ++ [c]).filterMap _ = _
          rw [happlies']
          cases hlive : c.liveApply with
          | none => simpa [happlies] using h.history.once
          | some a =>
            obtain ⟨rfl, hnone, -⟩ := liveApply_of_admitted hadmitted hlive
            rw [hnone]
            exact .inr rfl
        applied := by
          show (s.entered ++ [c]).filterMap _ ≠ [] → _
          rw [happlies']
          cases hlive : c.liveApply with
          | none => simpa [happlies] using h.history.applied
          | some a => exact fun _ => (liveApply_of_admitted hadmitted hlive).2.2 }
  · cases hstep

/-- Handing a host call of the current method to the host. -/
theorem CallOk.handsOut {answers : List (Prog.Event HostCall.Answer)} {hc : HostCall}
    {next : hc.Answer → Prog HostCall.Answer c.Answer} {k : c.Answer → Dispatch}
    (h : CallOk cfg L s) (hphase : s.phase = .inMethod c answers (.call hc next) k)
    (hmutates : hc.reads = false) :
    s.kind.Mutation cfg s.action hc ∧ s.facts.prepared.isSome = true := by
  have hok := h.phase
  simp only [LiveCall.PhaseOk, hphase] at hok
  obtain ⟨hadmitted, -, -, ⟨hmay, -⟩, -⟩ := hok
  rcases hmay with hreads | ⟨kind, action, rfl, hmutation⟩
  · rw [hmutates] at hreads
    cases hreads
  · obtain ⟨ha, -, hprepared⟩ := liveApply_of_admitted hadmitted rfl
    cases ha
    exact ⟨hmutation, hprepared⟩

theorem HistoryOk.issue {hc : HostCall} (h : HistoryOk cfg s) {phase : Phase}
    (hissued : hc.reads = false →
      s.kind.Mutation cfg s.action hc ∧ s.facts.prepared.isSome = true) :
    HistoryOk cfg { s with phase := phase, issued := s.issued ++ [hc] } where
  prepared := h.prepared
  inspected := h.inspected
  listed := h.listed
  once := h.once
  applied := h.applied
  issued hc' hmem hmutates := by
    rcases mem_append.mp hmem with hmem | hmem
    · exact h.issued hc' hmem hmutates
    · rw [mem_singleton.mp hmem] at hmutates ⊢
      exact hissued hmutates

theorem CallOk.issue (h : CallOk cfg L s) (hstep : s.issue = some s') :
    CallOk cfg L s' ∧ Later s s' ∧ s'.facts.prepared = s.facts.prepared := by
  unfold LiveCall.issue at hstep
  split at hstep
  · next c answers hc next k hphase =>
    cases hstep
    have hlater : Later s { s with issued := s.issued ++ [hc] } :=
      ⟨rfl, rfl, rfl, fun hp => hp, fun _ hmem => mem_append_left _ hmem⟩
    exact ⟨⟨h.phase, h.history.issue (h.handsOut hphase),
      h.backed.later hlater rfl fun hf => hf⟩, hlater, rfl⟩
  · cases hstep

theorem CallOk.host {oracle : (hc : HostCall) → hc.Answer} (h : CallOk cfg L s)
    (hstep : s.host oracle = some s') :
    CallOk cfg L s' ∧ Later s s' ∧ s'.facts.prepared = s.facts.prepared := by
  unfold LiveCall.host at hstep
  split at hstep
  · next c answers hc next k hphase =>
    cases hstep
    have hok := h.phase
    simp only [LiveCall.PhaseOk, hphase] at hok
    obtain ⟨hadmitted, hrest, ⟨m, hm, hexec⟩, huses, happlies⟩ := hok
    have hlater : Later s { s with
        phase := .inMethod c (answers ++ [⟨hc, oracle hc⟩]) (next (oracle hc)) k
        issued := s.issued ++ [hc] } :=
      ⟨rfl, rfl, rfl, fun hp => hp, fun _ hmem => mem_append_left _ hmem⟩
    refine ⟨⟨⟨hadmitted, hrest, ⟨m, hm, fun rest a hend => ?_⟩, huses.2 _, happlies⟩,
      h.history.issue (h.handsOut hphase), h.backed.later hlater rfl fun hf => hf⟩, hlater, rfl⟩
    rw [append_assoc]
    exact hexec _ a (.call hc next (oracle hc) hend)
  · cases hstep

theorem observe_applies (f : Facts) (c : ExecCall) (a : c.Answer) :
    (f.observe c a).applies = f.applies ++ c.liveApply.toList := by
  have h := advance_applies f [⟨c, a⟩]
  rw [liveApplies] at h
  cases hlive : c.liveApply <;> simpa [Prog.advance, hlive] using h

theorem observe_present (h : c.isPreflight = false) (a : c.Answer) :
    (f.observe c a).present = f.present := by
  cases c with
  | preflight => cases h
  | apply kind action dryRun => cases dryRun <;> rfl
  | verify | prepare | finish | recoveryRequired | resolveIncidentSource => rfl

/-- An adapter's answer says nothing about the generation. -/
theorem observe_method {m : Prog HostCall.Answer c.Answer} (h : c.method cfg = some m)
    (a : c.Answer) :
    (f.observe c a).prepared = f.prepared ∧ (f.observe c a).finished = f.finished ∧
      (f.observe c a).prepareIssued = f.prepareIssued := by
  cases c with
  | preflight => cases a <;> exact ⟨rfl, rfl, rfl⟩
  | apply kind action dryRun => cases dryRun <;> exact ⟨rfl, rfl, rfl⟩
  | verify => exact ⟨rfl, rfl, rfl⟩
  | prepare | finish | recoveryRequired | resolveIncidentSource => cases h

/-- A preflight that reports the rule absent was shown no listing with it. -/
theorem not_listed_of_absent {kind : AdapterKind} {action : FirewallAction} {journal : RuleJournal}
    {m : Prog HostCall.Answer c.Answer} {a : c.Answer} {answers : List (Prog.Event HostCall.Answer)}
    (hpreflight : c.isPreflight = true)
    (hadmitted : Admitted cfg kind action false (some journal) f c) (hm : c.method cfg = some m)
    (hexec : Prog.Exec m answers a) (habsent : (f.observe c a).present = some false) :
    ¬ kind.Listed cfg action.target answers := by
  cases c with
  | preflight k target =>
    obtain ⟨rfl, rfl, hnone, -⟩ := hadmitted
    cases hm
    cases a with
    | ok preflight =>
      rw [← AdapterKind.preflight_listed hexec]
      rw [show preflight.alreadyBlocked = false from some.inj habsent]
      exact Bool.false_ne_true
    | error e =>
      have habsent : f.present = some false := habsent
      rw [hnone] at habsent
      cases habsent
  | apply | verify | prepare | finish | recoveryRequired | resolveIncidentSource => cases hpreflight

theorem CallOk.back (h : CallOk cfg L s) (hstep : s.back = some s') :
    CallOk cfg L s' ∧ Later s s' ∧ s'.facts.prepared = s.facts.prepared := by
  unfold LiveCall.back at hstep
  split at hstep
  · next c answers a k hphase =>
    cases hstep
    have hok := h.phase
    simp only [LiveCall.PhaseOk, hphase] at hok
    obtain ⟨hadmitted, hrest, ⟨m, hm, hexec⟩, -, happlies⟩ := hok
    have hreturned : Prog.Exec m answers a := by simpa using hexec [] a (.pure a)
    obtain ⟨hprepared, hfinished, hprepareIssued⟩ := observe_method (f := s.facts) hm a
    have hlater : Later s { s with
        phase := .running (k a)
        facts := s.facts.observe c a
        inspected := if c.isPreflight then answers else s.inspected } :=
      ⟨rfl, rfl, rfl, fun hp => hprepareIssued.trans hp, fun _ hmem => hmem⟩
    refine ⟨⟨⟨hrest a (answered_of_method hm hreturned),
      happlies.trans (observe_applies s.facts c a).symm⟩, ?_,
      h.backed.later hlater hprepared fun hf => hfinished ▸ hf⟩, hlater, hprepared⟩
    exact
      { prepared := fun hp => hprepareIssued.trans (h.history.prepared (hprepared ▸ hp))
        inspected := by
          intro hp
          have hissued : s.facts.prepareIssued = true := hprepareIssued.symm.trans hp
          cases hpreflight : c.isPreflight with
          | false => exact (observe_present hpreflight a).trans (h.history.inspected hissued)
          | true =>
            cases c with
            | preflight k target =>
              obtain ⟨-, -, -, hnot⟩ := hadmitted
              rw [hnot] at hissued
              cases hissued
            | apply | verify | prepare | finish | recoveryRequired | resolveIncidentSource =>
              cases hpreflight
        listed := by
          intro habsent
          cases hpreflight : c.isPreflight with
          | false =>
            have habsent : s.facts.present = some false :=
              (observe_present hpreflight a).symm.trans habsent
            simpa [hpreflight] using h.history.listed habsent
          | true =>
            simpa [hpreflight] using not_listed_of_absent hpreflight hadmitted hm hreturned habsent
        once := h.history.once
        applied := fun hne => hprepared ▸ h.history.applied hne
        issued := fun hc hmem hmutates => hprepared ▸ h.history.issued hc hmem hmutates }
  · cases hstep

theorem CallOk.conclude (h : CallOk cfg L s) (hstep : s.conclude = some s') :
    CallOk cfg L s' ∧ Later s s' ∧ s'.facts.prepared = s.facts.prepared := by
  unfold LiveCall.conclude at hstep
  split at hstep
  · next o hphase =>
    cases hstep
    have hok := h.phase
    simp only [LiveCall.PhaseOk, hphase] at hok
    have hlater : Later s { s with phase := .done o } :=
      ⟨rfl, rfl, rfl, fun hp => hp, fun _ hmem => hmem⟩
    obtain ⟨hprepared, hinspected, hlisted, honce, happlied, hissued⟩ := h.history
    exact ⟨⟨hok, ⟨hprepared, hinspected, hlisted, honce, happlied, hissued⟩,
      h.backed.later hlater rfl fun hf => hf⟩, hlater, rfl⟩
  · cases hstep

theorem CallOk.crash (h : CallOk cfg L s) :
    CallOk cfg L { s with phase := .crashed } ∧ Later s { s with phase := .crashed } := by
  have hlater : Later s { s with phase := .crashed } :=
    ⟨rfl, rfl, rfl, fun hp => hp, fun _ hmem => hmem⟩
  obtain ⟨hprepared, hinspected, hlisted, honce, happlied, hissued⟩ := h.history
  exact ⟨⟨trivial, ⟨hprepared, hinspected, hlisted, honce, happlied, hissued⟩,
    h.backed.later hlater rfl fun hf => hf⟩, hlater⟩

end CallSteps

/-! ## What a step of a call does to the world -/

/-- The effect of one step: on the ledger, on the call that made it, and on what is new. -/
structure Effect (cfg : AdapterConfig) (L L' : Ledger) (s s' : LiveCall) : Prop where
  keeps : Keeps L L'
  ledger : LedgerOk L → LedgerOk L'
  call : CallOk cfg L' s'
  later : Later s s'
  /-- a new row belongs to the call -/
  rows : ∀ r ∈ L'.intents, (∃ i ∈ L.intents, i.snapshot = r.snapshot) ∨
    s'.facts.prepareIssued = true ∧ s'.Owns cfg r.snapshot
  /-- a new generation is new to everyone -/
  fresh : s'.facts.prepared = s.facts.prepared ∨
    ∃ id, s'.facts.prepared = some id ∧ ∀ r ∈ L.intents, r.id ≠ id

section StoreSteps

variable {L L' : Ledger} {s s' : LiveCall}

/-- A step that leaves the ledger alone. -/
theorem Effect.ofCall (h : CallOk cfg L s' ∧ Later s s' ∧ s'.facts.prepared = s.facts.prepared) :
    Effect cfg L L s s' where
  keeps := .refl L
  ledger hok := hok
  call := h.1
  later := h.2.1
  rows r hr := .inl ⟨r, hr, rfl⟩
  fresh := .inl h.2.2

theorem StoreFate.commit_spec {fate : StoreFate} {op : LedgerOp} {error : Option String}
    (h : fate.commit L op = some (L', error)) :
    (error = none ∧ op.run L = .ok L') ∨
      ((∃ e, error = some e) ∧ (L' = L ∨ op.run L = .ok L')) := by
  have hrun : ∀ {e : Option String}, (op.run L).toOption.map (fun L' => (L', e)) = some (L', error) →
      op.run L = .ok L' ∧ error = e := by
    intro e h
    obtain ⟨committed, hrun, heq⟩ := map_eq_some_iff.mp h
    cases hresult : op.run L with
    | error _ =>
      rw [hresult] at hrun
      cases hrun
    | ok _ =>
      rw [hresult] at hrun
      cases hrun
      cases heq
      exact ⟨rfl, rfl⟩
  cases fate with
  | failed e =>
    cases h
    exact .inr ⟨⟨e, rfl⟩, .inl rfl⟩
  | committed =>
    obtain ⟨hok, rfl⟩ := hrun h
    exact .inl ⟨rfl, hok⟩
  | unacknowledged e =>
    obtain ⟨hok, rfl⟩ := hrun h
    exact .inr ⟨⟨e, rfl⟩, .inr hok⟩

/-- The call after an answer of the store that leaves its history but for the generation. -/
theorem CallOk.storeAnswered {c : ExecCall} {k : c.Answer → Dispatch} {a : c.Answer}
    (h : CallOk cfg L s) (hphase : s.phase = .running (.call c k)) (hanswer : Answered cfg c a)
    (hlive : c.liveApply = none) (hpreflight : c.isPreflight = false)
    (hissued : (s.facts.observe c a).prepareIssued = true → s.facts.present = some false)
    (hprepared : s.facts.prepared.isSome = true → (s.facts.observe c a).prepared.isSome = true)
    (hgeneration : (s.facts.observe c a).prepared.isSome = true →
      (s.facts.observe c a).prepareIssued = true) :
    (s.answered c k a).PhaseOk cfg ∧ HistoryOk cfg (s.answered c k a) := by
  have hok := h.phase
  simp only [LiveCall.PhaseOk, hphase] at hok
  obtain ⟨⟨-, hrest⟩, happlies⟩ := hok
  have hpresent : (s.facts.observe c a).present = s.facts.present := observe_present hpreflight a
  refine ⟨⟨hrest a hanswer, ?_⟩, ?_⟩
  · show s.applies = (s.facts.observe c a).applies
    rw [observe_applies, hlive, happlies]
    simp
  · exact
      { prepared := hgeneration
        inspected := fun hp => hpresent.trans (hissued hp)
        listed := fun habsent => h.history.listed (hpresent.symm.trans habsent)
        once := h.history.once
        applied := fun hne => hprepared (h.history.applied hne)
        issued := fun hc hmem hmutates =>
          (h.history.issued hc hmem hmutates).imp id hprepared }

/-- What an admitted preparation prepares is the call's own rule. -/
theorem owns_preparedRow {args : PrepareArgs} {id : Uuid} {now : Instant}
    (h : Admitted cfg s.kind s.action false (some s.journal) s.facts (.prepare args)) :
    s.Owns cfg (preparedRow args id now).snapshot := by
  obtain ⟨-, -, -, -, j, rendered, state, hj, hrender, rfl⟩ := h
  cases hj
  refine ⟨rfl, rfl, ?_, rfl⟩
  rw [LiveCall.ruleKey, hrender]
  rfl

theorem CallOk.prepare {args : PrepareArgs} {k : Except String Uuid → Dispatch}
    {a : Except String Uuid} (id : Uuid) (now : Instant) (h : CallOk cfg L s)
    (hphase : s.phase = .running (.call (.prepare args) k))
    (hledger : L' = L ∨ prepareFirewallRuleIntent L args id now = .ok L')
    (hacked : ∀ new, a = .ok new → new = id ∧ prepareFirewallRuleIntent L args id now = .ok L') :
    Effect cfg L L' s (s.answered (.prepare args) k a) := by
  have hok := h.phase
  simp only [LiveCall.PhaseOk, hphase] at hok
  have hadmitted := hok.1.1
  have hguards := hadmitted
  obtain ⟨-, hpresent, hnew, -, -⟩ := hguards
  -- before its preparation the call knows no generation
  have hnone : s.facts.prepared = none := by
    cases hp : s.facts.prepared with
    | none => rfl
    | some g =>
      have hissued := h.history.prepared (by rw [hp]; rfl)
      rw [hnew] at hissued
      cases hissued
  have hlater : Later s (s.answered (.prepare args) k a) :=
    ⟨rfl, rfl, rfl, fun _ => rfl, fun _ hmem => hmem⟩
  have hkeeps : Keeps L L' := by
    rcases hledger with rfl | hrun
    · exact .refl L'
    · exact (prepare_keeps hrun).1
  obtain ⟨hphase', hhistory⟩ := h.storeAnswered (a := a) hphase trivial rfl rfl (fun _ => hpresent)
    (fun hp => by rw [hnone] at hp; cases hp) (fun _ => rfl)
  refine
    { keeps := hkeeps
      ledger := ?_
      call := ⟨hphase', hhistory, ?_⟩
      later := hlater
      rows := ?_
      fresh := ?_ }
  · intro hok
    rcases hledger with rfl | hrun
    · exact hok
    · exact hok.change (prepare_change hrun).1
  · cases a with
    | error e => exact (h.backed.keeps hkeeps).later hlater rfl fun hf => hf
    | ok new =>
      obtain ⟨rfl, hrun⟩ := hacked new rfl
      refine ⟨fun g hg => ?_, fun hfinished => ?_⟩
      · cases hg
        exact ⟨preparedRow args new now, ((prepare_keeps hrun).2.1 _).mpr (.inr rfl), rfl, rfl,
          hlater.owns (owns_preparedRow hadmitted)⟩
      · obtain ⟨g, hg, -⟩ := h.backed.finished hfinished
        rw [hnone] at hg
        cases hg
  · intro r hr
    rcases hledger with rfl | hrun
    · exact .inl ⟨r, hr, rfl⟩
    · rcases ((prepare_keeps hrun).2.1 r).mp hr with hr | rfl
      · exact .inl ⟨r, hr, rfl⟩
      · exact .inr ⟨rfl, hlater.owns (owns_preparedRow hadmitted)⟩
  · cases a with
    | error e => exact .inl rfl
    | ok new =>
      obtain ⟨rfl, hrun⟩ := hacked new rfl
      exact .inr ⟨new, rfl, (prepare_keeps hrun).2.2⟩

/-- A step of the store that resolves nothing and prepares nothing. -/
theorem CallOk.retained {c : ExecCall} {k : c.Answer → Dispatch} {a : c.Answer}
    (h : CallOk cfg L s) (hphase : s.phase = .running (.call c k)) (hanswer : Answered cfg c a)
    (hlive : c.liveApply = none) (hpreflight : c.isPreflight = false)
    (hissued : (s.facts.observe c a).prepareIssued = s.facts.prepareIssued)
    (hprepared : (s.facts.observe c a).prepared = s.facts.prepared)
    (hretains : Retains L L') (hledger : LedgerOk L → LedgerOk L')
    (hfinished : (s.facts.observe c a).finished = true → s.facts.finished = true ∨
      ∃ id, s.facts.prepared = some id ∧ ∃ x ∈ L'.receipts, x.intentId = id ∧
        x.receiptKind = .apply ∧ x.verificationResult = some .verified) :
    Effect cfg L L' s (s.answered c k a) := by
  have hlater : Later s (s.answered c k a) :=
    ⟨rfl, rfl, rfl, fun hp => hissued.trans hp, fun _ hmem => hmem⟩
  obtain ⟨hphase', hhistory⟩ := h.storeAnswered (a := a) hphase hanswer hlive hpreflight
    (fun hp => h.history.inspected (hissued.symm.trans hp)) (fun hp => hprepared.symm ▸ hp)
    (fun hp => hissued.trans (h.history.prepared (hprepared ▸ hp)))
  have hkept := h.backed.keeps hretains.toKeeps
  refine ⟨hretains.toKeeps, hledger, ⟨hphase', hhistory, ?_, ?_⟩, hlater, ?_, .inl hprepared⟩
  · intro id hid
    obtain ⟨r, hr, hrid, hact, howns⟩ := hkept.owned id (hprepared.symm.trans hid)
    exact ⟨r, hr, hrid, hact, hlater.owns howns⟩
  · intro hf
    show ∃ id, (s.facts.observe c a).prepared = some id ∧ _
    rw [hprepared]
    rcases hfinished hf with hf | hf
    · exact hkept.finished hf
    · exact hf
  · intro r hr
    obtain ⟨i, hi, hsnap⟩ := hretains.origin r hr
    exact .inl ⟨i, hi, hsnap⟩

/-- The store's operation for a call, whatever becomes of it. -/
theorem CallOk.store {w : CallWorld} {fate : StoreFate} {id receipt : Uuid} {now : Instant}
    (h : CallOk cfg w.ledger s) (hstep : w.store s fate id receipt now = some (L', s')) :
    Effect cfg w.ledger L' s s' := by
  unfold CallWorld.store at hstep
  split at hstep
  · next c k hphase =>
    simp only [bind_eq_bind, bind_eq_some_iff] at hstep
    obtain ⟨op, hop, ⟨ledger, error⟩, hfate, a, ha, heq⟩ := hstep
    cases heq
    have hok := h.phase
    simp only [LiveCall.PhaseOk, hphase] at hok
    have hadmitted := hok.1.1
    -- what became of it: committed and reported, or reported as failed
    have hspec := StoreFate.commit_spec hfate
    have hledger : LedgerOk w.ledger → LedgerOk ledger := by
      intro hok
      rcases hspec with ⟨-, hrun⟩ | ⟨-, rfl | hrun⟩
      · exact hok.change (LedgerOp.change hrun)
      · exact hok
      · exact hok.change (LedgerOp.change hrun)
    cases c with
    | preflight | apply | verify | resolveIncidentSource => cases hop
    | prepare args =>
      cases hop
      cases ha
      refine h.prepare id now hphase ?_ fun new hnew => ?_
      · rcases hspec with ⟨-, hrun⟩ | ⟨-, rfl | hrun⟩
        · exact .inr hrun
        · exact .inl rfl
        · exact .inr hrun
      · rcases hspec with ⟨rfl, hrun⟩ | ⟨⟨e, rfl⟩, -⟩
        · cases hnew
          exact ⟨rfl, hrun⟩
        · cases hnew
    | finish intent input =>
      cases hop
      cases ha
      refine h.retained hphase trivial rfl rfl rfl rfl ?_ hledger fun hfinished => .inr ?_
      · rcases hspec with ⟨-, hrun⟩ | ⟨-, rfl | hrun⟩
        · exact (finish_retains hrun).1
        · exact .refl _
        · exact (finish_retains hrun).1
      · rcases hspec with ⟨rfl, hrun⟩ | ⟨⟨e, rfl⟩, -⟩
        · exact ⟨intent, hadmitted.1, (finish_retains hrun).2⟩
        · cases hfinished
    | recoveryRequired intent =>
      cases hop
      cases ha
      refine h.retained hphase trivial rfl rfl rfl rfl ?_ hledger fun hfinished => .inl hfinished
      rcases hspec with ⟨-, hrun⟩ | ⟨-, rfl | hrun⟩
      · exact markRecoveryRequired_retains hrun
      · exact .refl _
      · exact markRecoveryRequired_retains hrun
  · cases hstep

end StoreSteps

/-! ## The world's invariant -/

/-- Two calls know different generations. -/
def OwnApart (s t : LiveCall) : Prop :=
  ∀ id, s.facts.prepared = some id → t.facts.prepared ≠ some id

structure CallWorldOk (cfg : AdapterConfig) (base : Ledger) (w : CallWorld) : Prop where
  ledger : LedgerOk w.ledger
  /-- the rows there were before are still there -/
  kept : Keeps base w.ledger
  calls : ∀ (j : Nat) (s : LiveCall), w.calls[j]? = some s → CallOk cfg w.ledger s
  apart : Apart OwnApart w.calls
  /-- a generation a call prepared was not there before -/
  new : ∀ s ∈ w.calls, ∀ id, s.facts.prepared = some id → ∀ b ∈ base.intents, b.id ≠ id
  rows : ∀ r ∈ w.ledger.intents, (∃ b ∈ base.intents, b.id = r.id) ∨
    ∃ s ∈ w.calls, s.facts.prepareIssued = true ∧ s.Owns cfg r.snapshot
  inserted : ∀ e ∈ w.inserted, ∃ s, w.calls[e.1]? = some s ∧ e.2 ∈ s.issued ∧ e.2.reads = false

section World

variable {base : Ledger} {w w' : CallWorld} {j : Nat}

theorem mem_set_of_mem {s t : LiveCall} {calls : List LiveCall} (s' : LiveCall)
    (hs : calls[j]? = some s) (ht : t ∈ calls) : t = s ∨ t ∈ calls.set j s' := by
  obtain ⟨i, hi⟩ := mem_iff_getElem?.mp ht
  by_cases hij : i = j
  · subst hij
    rw [hs] at hi
    exact .inl (some.inj hi).symm
  · refine .inr (mem_iff_getElem?.mpr ⟨i, ?_⟩)
    rw [getElem?_set_of_ne hij]
    exact hi

theorem getElem?_set_of_some {s s' : LiveCall} {calls : List LiveCall} (hs : calls[j]? = some s) :
    (calls.set j s')[j]? = some s' := by
  rw [getElem?_set_self']
  simp [hs]

/-- One call's step keeps the invariant. -/
theorem CallWorldOk.effect (hw : CallWorldOk cfg base w) {s s' : LiveCall} {L' : Ledger}
    (hs : w.calls[j]? = some s) (h : Effect cfg w.ledger L' s s') :
    CallWorldOk cfg base { w with ledger := L', calls := w.calls.set j s' } := by
  have hs' : (w.calls.set j s')[j]? = some s' := getElem?_set_of_some hs
  refine
    { ledger := h.ledger hw.ledger
      kept := hw.kept.trans h.keeps
      calls := ?_
      apart := ?_
      new := ?_
      rows := ?_
      inserted := ?_ }
  · intro i t ht
    rcases getElem?_set_cases ht with ⟨-, rfl⟩ | ⟨-, ht⟩
    · exact h.call
    · obtain ⟨hphase, hhistory, hbacked⟩ := hw.calls i t ht
      exact ⟨hphase, hhistory, hbacked.keeps h.keeps⟩
  · refine hw.apart.set (fun a b hab id hb ha => hab id ha hb) fun i t hij ht id hid hother => ?_
    rcases h.fresh with hsame | ⟨new, hnew, hfree⟩
    · exact hw.apart j i s t (Ne.symm hij) hs ht id (hsame ▸ hid) hother
    · rw [hnew] at hid
      cases hid
      obtain ⟨r, hr, hrid, -⟩ := (hw.calls i t ht).backed.owned _ hother
      exact hfree r hr hrid
  · intro t ht id hid b hb hbid
    rcases mem_or_eq_of_mem_set ht with ht | rfl
    · exact hw.new t ht id hid b hb hbid
    · rcases h.fresh with hsame | ⟨new, hnew, hfree⟩
      · exact hw.new s (mem_of_getElem? hs) id (hsame ▸ hid) b hb hbid
      · rw [hnew] at hid
        cases hid
        obtain ⟨r, hr, hsnap, -⟩ := hw.kept.rows b hb
        exact hfree r hr ((congrArg IntentSnapshot.id hsnap).trans hbid)
  · intro r hr
    rcases h.rows r hr with ⟨i, hi, hsnap⟩ | hnew
    · have hid : i.id = r.id := congrArg IntentSnapshot.id hsnap
      rcases hw.rows i hi with ⟨b, hb, hbid⟩ | ⟨t, ht, hissued, howns⟩
      · exact .inl ⟨b, hb, hbid.trans hid⟩
      · rw [hsnap] at howns
        rcases mem_set_of_mem s' hs ht with rfl | ht
        · exact .inr ⟨s', mem_of_getElem? hs', h.later.prepareIssued hissued,
            h.later.owns howns⟩
        · exact .inr ⟨t, ht, hissued, howns⟩
    · exact .inr ⟨s', mem_of_getElem? hs', hnew⟩
  · intro e he
    obtain ⟨t, ht, hissued, hmutates⟩ := hw.inserted e he
    by_cases hej : e.1 = j
    · rw [hej, hs] at ht
      cases ht
      exact ⟨s', hej ▸ hs', h.later.issued _ hissued, hmutates⟩
    · exact ⟨t, (getElem?_set_of_ne hej).trans ht, hissued, hmutates⟩

theorem update_spec {f : LiveCall → Option LiveCall} (h : w.update j f = some w') :
    ∃ s s', w.calls[j]? = some s ∧ f s = some s' ∧ w' = { w with calls := w.calls.set j s' } := by
  simp only [CallWorld.update, bind_eq_bind, bind_eq_some_iff] at h
  obtain ⟨s, hs, s', hs', heq⟩ := h
  exact ⟨s, s', hs, hs', (some.inj heq).symm⟩

/-- A step of one call that leaves the ledger alone. -/
theorem CallWorldOk.update (hw : CallWorldOk cfg base w) {f : LiveCall → Option LiveCall}
    (h : w.update j f = some w')
    (hf : ∀ s s', CallOk cfg w.ledger s → f s = some s' →
      CallOk cfg w.ledger s' ∧ Later s s' ∧ s'.facts.prepared = s.facts.prepared) :
    CallWorldOk cfg base w' := by
  obtain ⟨s, s', hs, hs', rfl⟩ := update_spec h
  exact hw.effect hs (.ofCall (hf s s' (hw.calls j s hs) hs'))

theorem CallWorldOk.retain (hw : CallWorldOk cfg base w) {id : Uuid} {now : Instant} {L' : Ledger}
    (hrun : markFirewallRuleRecoveryRequired w.ledger id now = .ok L') :
    CallWorldOk cfg base { w with ledger := L' } := by
  have hretains := markRecoveryRequired_retains hrun
  have hop : LedgerOp.run w.ledger (.recoveryRequired id now) = .ok L' := hrun
  refine ⟨hw.ledger.change (LedgerOp.change hop), hw.kept.trans hretains.toKeeps, fun j s hs => ?_, hw.apart,
    hw.new, fun r hr => ?_, hw.inserted⟩
  · obtain ⟨hphase, hhistory, hbacked⟩ := hw.calls j s hs
    exact ⟨hphase, hhistory, hbacked.keeps hretains.toKeeps⟩
  · obtain ⟨i, hi, hsnap⟩ := hretains.origin r hr
    have hid : i.id = r.id := congrArg IntentSnapshot.id hsnap
    rw [← hid, ← hsnap]
    exact hw.rows i hi

theorem CallWorldOk.step (hw : CallWorldOk cfg base w) {a : CallStep}
    (hstep : w.exec cfg a = some w') : CallWorldOk cfg base w' := by
  cases a with
  | enter j => exact hw.update hstep fun s s' hs hs' => hs.enter hs'
  | issue j => exact hw.update hstep fun s s' hs hs' => hs.issue hs'
  | host j oracle => exact hw.update hstep fun s s' hs hs' => hs.host hs'
  | back j => exact hw.update hstep fun s s' hs hs' => hs.back hs'
  | conclude j => exact hw.update hstep fun s s' hs hs' => hs.conclude hs'
  | crash j =>
    refine hw.update hstep fun s s' hs hs' => ?_
    cases hs'
    exact ⟨hs.crash.1, hs.crash.2, rfl⟩
  | store j fate id receipt now =>
    simp only [CallWorld.exec, bind_eq_bind, bind_eq_some_iff] at hstep
    obtain ⟨s, hs, ⟨L', s'⟩, hstore, heq⟩ := hstep
    cases heq
    exact hw.effect hs ((hw.calls j s hs).store hstore)
  | land j hc =>
    simp only [CallWorld.exec, bind_eq_bind, bind_eq_some_iff] at hstep
    obtain ⟨s, hs, heq⟩ := hstep
    split at heq
    · next hissued =>
      cases heq
      refine ⟨hw.ledger, hw.kept, hw.calls, hw.apart, hw.new, hw.rows, fun e he => ?_⟩
      rcases mem_append.mp he with he | he
      · exact hw.inserted e he
      · rw [mem_singleton.mp he]
        exact ⟨s, hs, hissued⟩
    · cases heq
  | retain id now =>
    obtain ⟨L', hrun, rfl⟩ := map_eq_some_iff.mp hstep
    cases hresult : markFirewallRuleRecoveryRequired w.ledger id now with
    | error e =>
      rw [hresult] at hrun
      cases hrun
    | ok L₁ =>
      rw [hresult] at hrun
      cases hrun
      exact hw.retain hresult

/-- A call that has not begun. -/
theorem callOk_start (L : Ledger) (kind : AdapterKind) (action : FirewallAction)
    (journal : RuleJournal) : CallOk cfg L (.start cfg kind action journal) where
  phase := ⟨applySingleAdapter_sound, rfl⟩
  history :=
    { prepared := fun h => by cases h
      inspected := fun h => by cases h
      listed := fun h => by cases h
      once := .inl rfl
      applied := fun h => absurd rfl h
      issued := fun _ h => by cases h }
  backed :=
    { owned := fun _ h => by cases h
      finished := fun h => by cases h }

theorem callWorldOk_invariant (hbase : LedgerOk base) :
    (callSystem cfg base).Invariant (CallWorldOk cfg base) := by
  refine TSys.Inductive.invariant ⟨?_, fun w a w' hw hstep => hw.step hstep⟩
  rintro w ⟨rfl, hinserted, hcalls⟩
  have hstart : ∀ s ∈ w.calls, s.facts = .start := fun s hs => by
    rw [hcalls s hs]
    rfl
  refine
    { ledger := hbase
      kept := .refl _
      calls := fun j s hs => ?_
      apart := fun i j s t _ hs _ id hid => ?_
      new := fun s hs id hid => ?_
      rows := fun r hr => .inl ⟨r, hr, rfl⟩
      inserted := fun e he => ?_ }
  · rw [hcalls s (mem_of_getElem? hs)]
    exact callOk_start ..
  · rw [hstart s (mem_of_getElem? hs)] at hid
    cases hid
  · rw [hstart s hs] at hid
    cases hid
  · rw [hinserted] at he
    cases he

end World

/-! ## What follows from the invariant -/

section Consequences

variable {base : Ledger} {w : CallWorld}

/-- A call that knows its generation owns its rule in the committed ledger. -/
theorem CallOk.owner {L : Ledger} {s : LiveCall} (h : CallOk cfg L s)
    (hprepared : s.facts.prepared.isSome = true) :
    ∃ r ∈ L.intents, s.facts.prepared = some r.id ∧ r.status.active = true ∧
      s.Owns cfg r.snapshot := by
  obtain ⟨id, hid⟩ := isSome_iff_exists.mp hprepared
  obtain ⟨r, hr, hrid, hact, howns⟩ := h.backed.owned id hid
  exact ⟨r, hr, hrid.symm ▸ hid, hact, howns⟩

/-- Two calls that both applied are about two rules. -/
theorem CallWorldOk.one_apply (hw : CallWorldOk cfg base w) {j k : Nat} {s t : LiveCall}
    (hjk : j ≠ k) (hs : w.calls[j]? = some s) (ht : w.calls[k]? = some t) (hsa : s.applies ≠ [])
    (hta : t.applies ≠ []) : s.ruleKey cfg ≠ t.ruleKey cfg := by
  intro hkey
  obtain ⟨r, hr, hsid, hact, hsown⟩ := (hw.calls j s hs).owner ((hw.calls j s hs).history.applied hsa)
  obtain ⟨q, hq, htid, hact', htown⟩ := (hw.calls k t ht).owner ((hw.calls k t ht).history.applied hta)
  have hsame : r.ruleKey = q.ruleKey := Except.ok.inj (hsown.key.symm.trans (hkey.trans htown.key))
  have hrq : r = q := hw.ledger.owner r hr q hq hact hact' hsame
  exact hw.apart j k s t hjk hs ht r.id hsid (hrq ▸ htid)

/-- A rule that an earlier generation still owns is not applied. -/
theorem CallWorldOk.no_reapply (hw : CallWorldOk cfg base w) {s : LiveCall} (hs : s ∈ w.calls)
    (hsa : s.applies ≠ []) {b : FirewallRuleIntent} (hb : b ∈ base.intents)
    (hactive : b.status.active = true) : s.ruleKey cfg ≠ .ok b.ruleKey := by
  intro hkey
  obtain ⟨j, hj⟩ := mem_iff_getElem?.mp hs
  obtain ⟨r, hr, hid, hact, howns⟩ := (hw.calls j s hj).owner ((hw.calls j s hj).history.applied hsa)
  obtain ⟨b', hb', hsnap, hkept⟩ := hw.kept.rows b hb
  have hkey' : b'.ruleKey = b.ruleKey := by
    show (b'.snapshot.adapter, b'.snapshot.ruleScope, b'.snapshot.ruleFingerprint) = _
    rw [hsnap]
    rfl
  have hsame : r.ruleKey = b'.ruleKey :=
    (Except.ok.inj (howns.key.symm.trans hkey)).trans hkey'.symm
  have hrb : r = b' := hw.ledger.owner r hr b' hb' hact (hkept hactive) hsame
  exact hw.new s hs r.id hid b hb ((congrArg IntentSnapshot.id hsnap).symm.trans
    (congrArg FirewallRuleIntent.id hrb).symm)

/-- A success was verified, and its generation is finished with its receipt. -/
theorem CallOk.success {L : Ledger} {s : LiveCall} (h : CallOk cfg L s)
    {o : GenericDispatchOutcome} (hdone : s.phase = .done o) (hsuccess : o.completion = .success) :
    s.applies = [(s.kind, s.action)] ∧ s.facts.shown = true ∧
      ∃ id, o.effect = .verifiedOwned id ∧ ∃ x ∈ L.receipts, x.intentId = id ∧
        x.receiptKind = .apply ∧ x.verificationResult = some .verified := by
  have hok := h.phase
  simp only [LiveCall.PhaseOk, hdone] at hok
  obtain ⟨hsound, happlies⟩ := hok
  obtain ⟨happlied, hshown, ⟨id, -, hid, heffect, hfinished⟩ | ⟨hnone, -⟩⟩ :=
    hsound.success hsuccess rfl
  · refine ⟨happlies.trans happlied, hshown, id, heffect, ?_⟩
    obtain ⟨id', hid', x, hx, hreceipt⟩ := h.backed.finished hfinished
    rw [hid] at hid'
    cases hid'
    exact ⟨x, hx, hreceipt⟩
  · cases hnone

end Consequences

/-- Write-ahead ownership, in every state that live calls over any ledger can reach: (i) a
mutation that took effect is its call's own, and a committed active generation owns its target;
(ii) a call whose preflight was shown the rule neither prepares nor applies, and a new
generation is from a call that was not; (iii) a success was verified and finished; (iv) a call
applies once, two calls never both apply one rule, and none applies a rule still owned. -/
theorem write_ahead_ownership {cfg : AdapterConfig} {base : Ledger} (hbase : LedgerOk base)
    {w : CallWorld} (hw : (callSystem cfg base).Reachable w) :
    (∀ e ∈ w.inserted, ∃ s, w.calls[e.1]? = some s ∧ s.kind.Mutation cfg s.action e.2 ∧
      ∃ r ∈ w.ledger.intents, r.status.active = true ∧ s.Owns cfg r.snapshot) ∧
    (∀ s ∈ w.calls, s.kind.Listed cfg s.action.target s.inspected →
      s.facts.prepareIssued = false ∧ s.applies = []) ∧
    (∀ r ∈ w.ledger.intents, (∃ b ∈ base.intents, b.id = r.id) ∨
      ∃ s ∈ w.calls, s.Owns cfg r.snapshot ∧ ¬ s.kind.Listed cfg s.action.target s.inspected) ∧
    (∀ s ∈ w.calls, ∀ o, s.phase = .done o → o.completion = .success →
      s.applies = [(s.kind, s.action)] ∧ s.facts.shown = true ∧
        ∃ id, o.effect = .verifiedOwned id ∧ ∃ x ∈ w.ledger.receipts, x.intentId = id ∧
          x.receiptKind = .apply ∧ x.verificationResult = some .verified) ∧
    (∀ s ∈ w.calls, s.applies.length ≤ 1) ∧
    (∀ (j k : Nat) (s t : LiveCall), j ≠ k → w.calls[j]? = some s → w.calls[k]? = some t →
      s.applies ≠ [] → t.applies ≠ [] → s.ruleKey cfg ≠ t.ruleKey cfg) ∧
    (∀ s ∈ w.calls, s.applies ≠ [] → ∀ b ∈ base.intents, b.status.active = true →
      s.ruleKey cfg ≠ .ok b.ruleKey) := by
  have hok := callWorldOk_invariant hbase w hw
  have hcall : ∀ s ∈ w.calls, CallOk cfg w.ledger s := fun s hs => by
    obtain ⟨j, hj⟩ := mem_iff_getElem?.mp hs
    exact hok.calls j s hj
  have hlisted : ∀ s ∈ w.calls, s.facts.prepareIssued = true →
      ¬ s.kind.Listed cfg s.action.target s.inspected := fun s hs hissued =>
    (hcall s hs).history.listed ((hcall s hs).history.inspected hissued)
  refine ⟨?_, ?_, ?_, ?_, ?_, ?_, ?_⟩
  · intro e he
    obtain ⟨s, hs, hissued, hmutates⟩ := hok.inserted e he
    obtain ⟨hmutation, hprepared⟩ := (hok.calls e.1 s hs).history.issued e.2 hissued hmutates
    obtain ⟨r, hr, -, hact, howns⟩ := (hok.calls e.1 s hs).owner hprepared
    exact ⟨s, hs, hmutation, r, hr, hact, howns⟩
  · intro s hs hpresent
    have hnot : s.facts.prepareIssued = false := by
      cases hissued : s.facts.prepareIssued with
      | false => rfl
      | true => exact absurd hpresent (hlisted s hs hissued)
    refine ⟨hnot, ?_⟩
    by_contra happlies
    have hissued := (hcall s hs).history.prepared ((hcall s hs).history.applied happlies)
    rw [hnot] at hissued
    cases hissued
  · intro r hr
    rcases hok.rows r hr with hb | ⟨s, hs, hissued, howns⟩
    · exact .inl hb
    · exact .inr ⟨s, hs, howns, hlisted s hs hissued⟩
  · exact fun s hs o hdone hsuccess => (hcall s hs).success hdone hsuccess
  · intro s hs
    rcases (hcall s hs).history.once with hnone | hone
    · rw [hnone]
      exact Nat.zero_le 1
    · rw [hone]
      rfl
  · exact fun j k s t hjk hs ht => hok.one_apply hjk hs ht
  · exact fun s hs happlied b hb hactive => hok.no_reapply hs happlied hb hactive

/-- One call that has not begun, over an empty ledger. -/
def sampleWorld : CallWorld :=
  ⟨.empty, [.start sampleConfig .haproxy sampleAction ⟨7, "haproxy.block"⟩], []⟩

def sampleMutation : HostCall :=
  .adminSocket "/run/haproxy.sock" "add acl /etc/haproxy/blocklist.acl 198.51.100.7"

/-- The call crashes while HAProxy carries out its mutation. -/
def sampleSteps : List CallStep :=
  [ .enter 0, .host 0 (sampleHost false), .back 0, .store 0 .committed 1 0 5
  , .enter 0, .issue 0, .crash 0, .land 0 sampleMutation ]

def afterSampleSteps : CallWorld :=
  (TSys.execAll (CallWorld.exec sampleConfig) sampleWorld sampleSteps).get (by decide +kernel)

theorem afterSampleSteps_reachable :
    (callSystem sampleConfig .empty).Reachable afterSampleSteps := by
  refine ⟨sampleWorld, sampleSteps, ⟨rfl, rfl, fun s hs => ?_⟩,
    TSys.run_of_execAll _ _ (some_get _).symm⟩
  rw [mem_singleton.mp hs]
  rfl

theorem write_ahead_ownership_crash :
    (0, sampleMutation) ∈ afterSampleSteps.inserted ∧
      ∃ s, afterSampleSteps.calls[0]? = some s ∧
        ∃ r ∈ afterSampleSteps.ledger.intents, r.status.active = true ∧
          s.Owns sampleConfig r.snapshot := by
  have hlanded : (0, sampleMutation) ∈ afterSampleSteps.inserted := by decide +kernel
  obtain ⟨s, hs, -, r, hr, hact, howns⟩ :=
    (write_ahead_ownership ledgerOk_empty afterSampleSteps_reachable).1 _ hlanded
  exact ⟨hlanded, s, hs, r, hr, hact, howns⟩

end Clawforge.Executor

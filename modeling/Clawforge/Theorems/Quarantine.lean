import Clawforge.Executor.QuarantineTypestate

/-!
# Quarantine generations are restored on proof

The invariant of the concurrent quarantine jobs (`WorldOk`), one lemma for what
a call does to the rows and to the worker that makes it, and from them the
claim: what a job restores, which moves a generation makes, and that a target
has one active generation at most.
-/

namespace Clawforge.Quarantine

open Clawforge.Firewall Kit Table List Option
open Executor (StoreFate)
open RuleIntents (IntentStatus FirewallActionReceiptInput)

/-! ## Rows over time -/

/-- `snapshots` knows every row. -/
def Extends (snapshots : Uuid → Option QuarantineSnapshot) (S : QuarantineDb) : Prop :=
  ∀ i ∈ S.intents, snapshots i.id = some i.snapshot

/-- The same generation, at the same status or further. -/
def QuarantineIntent.Later (i j : QuarantineIntent) : Prop :=
  j.snapshot = i.snapshot ∧ (i.status = j.status ∨ i.status.moves j.status = true)

theorem QuarantineIntent.later_refl (i : QuarantineIntent) : i.Later i := ⟨rfl, .inl rfl⟩

theorem QuarantineIntent.Later.trans {i j k : QuarantineIntent} (h : i.Later j) (h' : j.Later k) :
    i.Later k := by
  refine ⟨h'.1.trans h.1, ?_⟩
  rcases h.2 with hij | hij
  · rw [hij]
    exact h'.2
  · rcases h'.2 with hjk | hjk
    · rw [← hjk]
      exact .inr hij
    · exact .inr (IntentStatus.moves_trans hij hjk)

/-- What the guard's worker may turn its generation's status to. -/
inductive Justified (x : Worker) (i : QuarantineIntent) : IntentStatus → Prop
  | completed : i.status = .prepared → Justified x i .completed
  | recoveryRequired : i.status = .prepared ∨ i.status = .completed →
      Justified x i .recoveryRequired
  | rolledBack : x.job.MayResolve x.facts i → ReadBack i x.facts.observed →
      Justified x i .rolledBack

/-- What a call does to the rows: nothing, a new prepared generation of a free target, or a move
of the generation the worker holds. -/
inductive RowsStep (S S' : QuarantineDb) (x : Worker) : Prop
  | same : S'.intents = S.intents → RowsStep S S' x
  | prepared (i) : i.status = .prepared → ¬ owned S.intents i.targetKey →
      S.intents.insert? i = some S'.intents → RowsStep S S' x
  | moved (i status error upid now) : x.guard.isSome = true → x.facts.own = some i →
      (i.status = status ∨ i.status.moves status = true) → Justified x i status →
      S'.intents = S.intents.updateWhere (fun r => r.id = i.id)
        (setStatus status error upid now) (setStatus_id status error upid now) → RowsStep S S' x

section Rows

variable {S S' : QuarantineDb} {x : Worker}

/-- The rows after a move. -/
theorem mem_moved {status : IntentStatus} {error upid : Option String} {now : Instant}
    {T : Table QuarantineIntent.id} {id : Uuid} {j : QuarantineIntent} :
    j ∈ T.updateWhere (fun r => r.id = id) (setStatus status error upid now)
        (setStatus_id status error upid now) ↔
      ∃ r ∈ T, j = if r.id = id then setStatus status error upid now r else r :=
  mem_updateWhere

/-- Every row goes on. -/
theorem RowsStep.later (h : RowsStep S S' x) (hheld : ∀ i, x.facts.own = some i →
    x.guard.isSome = true → i ∈ S.intents) {j : QuarantineIntent} (hj : j ∈ S.intents) :
    ∃ j' ∈ S'.intents, j.Later j' := by
  cases h with
  | same heq => exact ⟨j, by rw [heq]; exact hj, j.later_refl⟩
  | prepared i _ _ hinsert =>
    exact ⟨j, (mem_insert? hinsert).mpr (.inl hj), j.later_refl⟩
  | moved i status error upid now hguard hown hmoves _ heq =>
    refine ⟨if j.id = i.id then setStatus status error upid now j else j, ?_, ?_⟩
    · rw [heq]
      exact mem_moved.mpr ⟨j, hj, rfl⟩
    · split
      · next hid =>
        obtain rfl := eq_of_key_eq hj (hheld i hown hguard) hid
        exact ⟨rfl, hmoves⟩
      · exact j.later_refl

/-- A row the worker does not hold stays as it is. -/
theorem RowsStep.keeps (h : RowsStep S S' x) {j : QuarantineIntent} (hj : j ∈ S.intents)
    (hfree : x.holds j.id = false) : j ∈ S'.intents := by
  cases h with
  | same heq => rwa [heq]
  | prepared i _ _ hinsert => exact (mem_insert? hinsert).mpr (.inl hj)
  | moved i status error upid now hguard hown _ _ heq =>
    rw [heq]
    refine mem_moved.mpr ⟨j, hj, ?_⟩
    rw [if_neg]
    intro hid
    simp [Worker.holds, hguard, hown, hid] at hfree

theorem OneActive.step (hone : OneActive S) (h : RowsStep S S' x)
    (hactive : ∀ i, x.facts.own = some i → x.guard.isSome = true →
      i ∈ S.intents ∧ i.status.active = true) : OneActive S' := by
  cases h with
  | same heq =>
    unfold OneActive
    rw [heq]
    exact hone
  | prepared i _ hfree hinsert =>
    have hmem := @mem_insert? _ _ _ _ _ _ _ hinsert
    intro a ha b hb hactive hactive' hkey
    rcases hmem.mp ha with ha | rfl <;> rcases hmem.mp hb with hb | rfl
    · exact hone a ha b hb hactive hactive' hkey
    · exact absurd ⟨a, ha, hactive, hkey⟩ hfree
    · exact absurd ⟨b, hb, hactive', hkey.symm⟩ hfree
    · rfl
  | moved i status error upid now hguard hown _ _ heq =>
    obtain ⟨hi, hiactive⟩ := hactive i hown hguard
    -- an active row after the move was active before, under the same target
    have hbefore : ∀ j ∈ S'.intents, j.status.active = true →
        ∃ r ∈ S.intents, r.status.active = true ∧ r.targetKey = j.targetKey ∧
          j = if r.id = i.id then setStatus status error upid now r else r := by
      intro j hj hjactive
      rw [heq] at hj
      obtain ⟨r, hr, hjr⟩ := mem_moved.mp hj
      refine ⟨r, hr, ?_, ?_, hjr⟩
      · by_cases hid : r.id = i.id
        · obtain rfl := eq_of_key_eq hr hi hid
          exact hiactive
        · rw [if_neg hid] at hjr
          rwa [hjr] at hjactive
      · rw [hjr]
        split <;> rfl
    intro a ha b hb hactive hactive' hkey
    obtain ⟨r, hr, hract, hrkey, rfl⟩ := hbefore a ha hactive
    obtain ⟨s, hs, hsact, hskey, rfl⟩ := hbefore b hb hactive'
    obtain rfl := hone r hr s hs hract hsact (hrkey.trans (hkey.trans hskey.symm))
    rfl

theorem Extends.of_later {snapshots : Uuid → Option QuarantineSnapshot}
    (h : Extends snapshots S') (hlater : ∀ j ∈ S.intents, ∃ j' ∈ S'.intents, j.Later j') :
    Extends snapshots S := by
  intro j hj
  obtain ⟨j', hj', hsnapshot, -⟩ := hlater j hj
  have hid : j'.id = j.id := congrArg QuarantineSnapshot.id hsnapshot
  rw [← hid, h j' hj', hsnapshot]

end Rows

/-! ## One worker -/

structure WorkerOk (S : QuarantineDb) (now : Instant) (x : Worker) : Prop where
  sound : ∀ snapshots, Extends snapshots S →
    Sound snapshots x.job (fun _ _ => True) x.facts x.rest
  held : x.guard.isSome = true →
    ∃ i, x.facts.own = some i ∧ i ∈ S.intents ∧ i.status.active = true
  own : ∀ i, x.facts.own = some i → ∃ j ∈ S.intents, i.Later j
  authorized : ∀ a, x.facts.authorized = some a → ∃ i, x.facts.own = some i ∧
    i.status = .recoveryRequired ∧ ∀ g, x.guard = some g → ∃ t, t ≤ now ∧ (a.1, t) ∈ g.approvals ∧
      approvalCurrent S.db t a.1 a.2.1 a.2.2 = true

theorem WorkerOk.start {S : QuarantineDb} {now : Instant} (cfg : QuarantineConfig) (job : Job) :
    WorkerOk S now (.start cfg job) where
  sound _ _ := sound_program cfg job
  held h := by cases h
  own i h := by cases h
  authorized a h := by cases h

section Steps

variable {w : World} {x y : Worker} {S' : QuarantineDb} {env : Env} {S : QuarantineDb}

theorem WorkerOk.row_held {now : Instant} (h : WorkerOk S now x) (i : QuarantineIntent)
    (hown : x.facts.own = some i) (hguard : x.guard.isSome = true) :
    i ∈ S.intents ∧ i.status.active = true := by
  obtain ⟨j, hj, hmem, hactive⟩ := h.held hguard
  obtain rfl := some.inj (hown.symm.trans hj)
  exact ⟨hmem, hactive⟩

theorem mem_snapshots (S : QuarantineDb) :
    Extends (fun id => (S.intents.get? id).map QuarantineIntent.snapshot) S := by
  intro i hi
  show (S.intents.get? i.id).map _ = _
  rw [get?_key hi]
  rfl

/-- What a worker's next call may be. -/
theorem WorkerOk.may {now : Instant} (h : WorkerOk S now x) {c : QCall}
    {k : c.Answer → Prog QCall.Answer Unit} (hrest : x.rest = .call c k) : May x.job x.facts c := by
  have hsound := h.sound _ (mem_snapshots S)
  rw [hrest] at hsound
  exact hsound.1

/-- Another worker's call leaves a worker as it is. -/
theorem WorkerOk.frame {now : Instant} (hy : WorkerOk S now y) (hstep : RowsStep S S' x)
    (hx : WorkerOk S now x) (hdb : S'.db = S.db)
    (hapart : ∀ id, y.holds id = true → x.holds id = false) : WorkerOk S' now y := by
  have hlater : ∀ j ∈ S.intents, ∃ j' ∈ S'.intents, j.Later j' := fun j hj =>
    hstep.later (fun i hown hguard => (hx.row_held i hown hguard).1) hj
  constructor
  · exact fun snapshots hextends => hy.sound snapshots (hextends.of_later hlater)
  · intro hguard
    obtain ⟨i, hown, hi, hactive⟩ := hy.held hguard
    refine ⟨i, hown, hstep.keeps hi (hapart i.id ?_), hactive⟩
    simp [Worker.holds, hguard, hown]
  · intro i hown
    obtain ⟨j, hj, hij⟩ := hy.own i hown
    obtain ⟨j', hj', hjj'⟩ := hlater j hj
    exact ⟨j', hj', hij.trans hjj'⟩
  · rw [hdb]
    exact hy.authorized

/-! ## One call -/

/-- The rows after a statement are as before, or as the statement leaves them. -/
theorem outcomeOf_rows {α : Type} (S : QuarantineDb) (run : Except String QuarantineDb) (a : α)
    (fate : StoreFate) :
    (outcomeOf S run a fate).1 = S ∨ run = .ok (outcomeOf S run a fate).1 := by
  cases fate with
  | failed e => exact .inl rfl
  | committed | unacknowledged =>
    cases run with
    | ok S' => exact .inr rfl
    | error e => exact .inl rfl

theorem outcomeOf_ok {α : Type} {run : Except String QuarantineDb} {a b : α} {fate : StoreFate}
    (h : (outcomeOf S run a fate).2 = .ok b) : b = a ∧ run = .ok (outcomeOf S run a fate).1 := by
  cases fate with
  | failed e => cases h
  | committed =>
    cases run with
    | ok S' => exact ⟨(Except.ok.inj h).symm, rfl⟩
    | error e => cases h
  | unacknowledged e => cases run <;> cases h

/-- A guard's last statement moves the generation it holds, or nothing, and ends the guard. -/
theorem lastStatement_spec (S : QuarantineDb) (x : Worker) (env : Env)
    (run : QuarantineIntent → Option String → Except String QuarantineDb) :
    (lastStatement S x env run).2.1 = none ∧
      ((lastStatement S x env run).1 = S ∨ ∃ g i, x.guard = some g ∧ x.facts.own = some i ∧
        run i g.upid = .ok (lastStatement S x env run).1) := by
  unfold lastStatement
  cases hguard : x.guard with
  | none => exact ⟨rfl, .inl rfl⟩
  | some g =>
    cases hown : x.facts.own with
    | none => exact ⟨rfl, .inl rfl⟩
    | some i =>
      refine ⟨rfl, ?_⟩
      rcases outcomeOf_rows S (run i g.upid) () env.fate with hsame | hrun
      · exact .inl hsame
      · exact .inr ⟨g, i, rfl, rfl, hrun⟩

/-- A move by the guard's last statement is the worker's to make. -/
theorem lastStatement_rows {now : Instant} (hx : WorkerOk S now x)
    {run : QuarantineIntent → Option String → Except String QuarantineDb} (status : IntentStatus)
    (error : Option String) (time : Instant)
    (hrun : ∀ i upid S', i ∈ S.intents → run i upid = .ok S' →
      (i.status = status ∨ i.status.moves status = true) ∧ S'.db = S.db ∧
      S'.intents = S.intents.updateWhere (fun r => r.id = i.id)
        (setStatus status error upid time) (setStatus_id status error upid time))
    (hjustified : ∀ i, x.facts.own = some i → Justified x i status) :
    RowsStep S (lastStatement S x env run).1 x ∧ (lastStatement S x env run).1.db = S.db := by
  rcases (lastStatement_spec S x env run).2 with
    hsame | ⟨g, i, hguard, hown, hok⟩
  · rw [hsame]
    exact ⟨.same rfl, rfl⟩
  · have hguard' : x.guard.isSome = true := by
      rw [hguard]
      rfl
    obtain ⟨hmoves, hdb, hrows⟩ :=
      hrun i g.upid _ (hx.row_held i hown hguard').1 hok
    exact ⟨.moved i status error g.upid time hguard' hown hmoves (hjustified i hown) hrows, hdb⟩

variable {contextHash : Json → String}

/-- An acquisition gets a guard of an active generation no worker holds, or nothing. -/
theorem answerCall_acquire (w : World) (x : Worker) (env : Env) (contextHash : Json → String)
    (id : Uuid) :
    (∃ i ∈ w.rows.intents, i.id = id ∧ i.status.active = true ∧
        (∀ y ∈ w.workers, y.holds id = false) ∧
        answerCall contextHash w x env (.acquire id) =
          (w.rows, some ⟨none, []⟩, .ok (some i))) ∨
      answerCall contextHash w x env (.acquire id) = (w.rows, x.guard, readAs none env.fate) := by
  simp only [answerCall]
  split
  · next i hfate hrow =>
    split at hrow
    · cases hrow
    · next hfree =>
      obtain ⟨hget, hactive⟩ := filter_eq_some_iff.mp hrow
      obtain ⟨hmem, hid⟩ := get?_eq_some.mp hget
      refine .inl ⟨i, hmem, hid, hactive, fun y hy => ?_, rfl⟩
      rw [Bool.not_eq_true, List.any_eq_false] at hfree
      exact Bool.not_eq_true _ ▸ hfree y hy
  · exact .inr rfl

/-- A call changes the rows as its worker may. -/
theorem answerCall_rows (env : Env) (contextHash : Json → String) {c : QCall} (hx : WorkerOk w.rows w.now x) (hmay : May x.job x.facts c) :
    RowsStep w.rows (answerCall contextHash w x env c).1 x ∧
      (answerCall contextHash w x env c).1.db = w.rows.db := by
  cases c with
  | prepare a =>
    show RowsStep _ (outcomeOf _ _ _ _).1 _ ∧ (outcomeOf _ _ _ _).1.db = _
    rcases outcomeOf_rows w.rows (prepareQuarantineIntent contextHash w.rows a env.id w.now)
      env.id env.fate with hsame | hrun
    · rw [hsame]
      exact ⟨.same rfl, rfl⟩
    · obtain ⟨actionName, hfree, hdb, hinsert⟩ := prepare_spec hrun
      exact ⟨.prepared _ rfl hfree hinsert, hdb⟩
  | finish input =>
    obtain ⟨i, hown, hstatus⟩ := hmay
    refine lastStatement_rows hx .completed none w.now ?_ ?_
    · intro j upid S' hj hok
      unfold finish at hok
      split at hok
      · cases hok
      · exact resolve_spec hj hok
    · intro j hj
      obtain rfl := some.inj (hown.symm.trans hj)
      exact .completed hstatus
  | recoveryRequired =>
    obtain ⟨i, hown, hstatus⟩ := hmay
    refine lastStatement_rows hx _ _ _ (fun j upid S' hj hok => resolve_spec hj hok) ?_
    intro j hj
    obtain rfl := some.inj (hown.symm.trans hj)
    exact .recoveryRequired hstatus
  | resolveRollback =>
    obtain ⟨i, hown, hresolve, hread⟩ := hmay
    refine lastStatement_rows hx _ _ _ (fun j upid S' hj hok => resolve_spec hj hok) ?_
    intro j hj
    obtain rfl := some.inj (hown.symm.trans hj)
    exact .rolledBack hresolve hread
  | acquire id =>
    rcases answerCall_acquire w x env contextHash id with
      ⟨i, -, -, -, -, heq⟩ | heq <;>
    · rw [heq]
      exact ⟨.same rfl, rfl⟩
  | setUpid upid =>
    simp only [answerCall]
    split <;> exact ⟨.same rfl, rfl⟩
  | host | find | activeFor | clock | validateApproval | validateReconcile | beginInflight
  | endInflight => exact ⟨.same rfl, rfl⟩

/-- The store answers what its rows hold. -/
theorem answerCall_answered {c : QCall} {snapshots : Uuid → Option QuarantineSnapshot}
    (hextends : Extends snapshots (answerCall contextHash w x env c).1) :
    Answered snapshots c (answerCall contextHash w x env c).2.2 := by
  cases c with
  | prepare a =>
    cases hanswer : (answerCall contextHash w x env (.prepare a)).2.2 with
    | error e => exact trivial
    | ok id =>
      obtain ⟨rfl, hrun⟩ := outcomeOf_ok hanswer
      obtain ⟨actionName, -, -, hinsert⟩ := prepare_spec hrun
      have hmem := (mem_insert? hinsert).mpr (.inr rfl)
      exact ⟨_, hextends _ hmem, rfl, rfl, rfl, rfl⟩
  | acquire id =>
    rcases answerCall_acquire w x env contextHash id with
      ⟨i, hmem, hid, -, -, heq⟩ | heq
    · rw [heq] at hextends ⊢
      exact ⟨hid, hextends i hmem⟩
    · rw [heq]
      cases env.fate <;> exact trivial
  | activeFor adapter fingerprint =>
    simp only [answerCall] at hextends ⊢
    cases env.fate with
    | failed e => exact trivial
    | unacknowledged e => exact trivial
    | committed =>
      cases hfound : activeQuarantineIntentFor w.rows adapter fingerprint with
      | none => exact trivial
      | some i =>
        have hmem := mem_of_find?_eq_some hfound
        have hcond := find?_some hfound
        simp only [Bool.and_eq_true, decide_eq_true_eq] at hcond
        exact ⟨hcond.1.1, hcond.1.2, hextends i hmem⟩
  | host | find | clock | validateApproval | validateReconcile | setUpid | finish
  | recoveryRequired | resolveRollback | beginInflight | endInflight => exact trivial

theorem checkApproval_spec {execution : QuarantineIntent → Uuid}
    {actionName : QuarantineIntent → String} {target : QuarantineIntent → Json}
    {status : IntentStatus} {refused : String} :
    (∀ g', (checkApproval w x env execution actionName target status refused).1 = some g' →
        ∃ g, x.guard = some g ∧ g.approvals ⊆ g'.approvals) ∧
      ((checkApproval w x env execution actionName target status refused).2 = .ok () →
        ∃ i, x.facts.own = some i ∧ i.status = status ∧
          approvalCurrent w.rows.db w.now (execution i) (actionName i) (target i) = true ∧
          ∀ g', (checkApproval w x env execution actionName target status refused).1 = some g' →
            (execution i, w.now) ∈ g'.approvals) := by
  unfold checkApproval
  cases hguard : x.guard with
  | none => exact ⟨fun _ h => (nomatch h), (nomatch ·)⟩
  | some g =>
    cases hown : x.facts.own with
    | none =>
      refine ⟨fun g' h => ?_, (nomatch ·)⟩
      obtain rfl := some.inj h
      exact ⟨g, rfl, fun a ha => ha⟩
    | some i =>
      dsimp only
      split
      · refine ⟨fun g' h => ?_, (nomatch ·)⟩
        obtain rfl := some.inj h
        exact ⟨g, rfl, fun a ha => ha⟩
      · split
        · next hcurrent =>
          refine ⟨fun g' h => ?_, fun _ => ⟨i, rfl, hcurrent.1, hcurrent.2, fun g' h => ?_⟩⟩
          · obtain rfl := some.inj h
            exact ⟨g, rfl, fun a ha => mem_cons_of_mem _ ha⟩
          · obtain rfl := some.inj h
            exact mem_cons_self
        · refine ⟨fun g' h => ?_, (nomatch ·)⟩
          obtain rfl := some.inj h
          exact ⟨g, rfl, fun a ha => ha⟩

/-- A call that neither acquires nor validates: the worker knows its generation as before, and
its guard is the one it had, or none. -/
theorem WorkerOk.goesOn {facts' : Facts} {rest' : Prog QCall.Answer Unit} {guard' : Option Guard}
    (hx : WorkerOk w.rows w.now x) (hstep : RowsStep w.rows S' x) (hdb : S'.db = w.rows.db)
    (hsound : ∀ snapshots, Extends snapshots S' →
      Sound snapshots x.job (fun _ _ => True) facts' rest')
    (hown : facts'.own = x.facts.own) (hauthorized : facts'.authorized = x.facts.authorized)
    (hguard : ∀ g', guard' = some g' → ∃ g, x.guard = some g ∧ g.approvals ⊆ g'.approvals)
    (hkeeps : guard'.isSome = true → ∀ i ∈ w.rows.intents, i ∈ S'.intents) :
    WorkerOk S' w.now ⟨x.job, facts', rest', guard'⟩ := by
  constructor
  · exact hsound
  · intro hsome
    obtain ⟨g', hg'⟩ := isSome_iff_exists.mp hsome
    obtain ⟨g, hg, -⟩ := hguard g' hg'
    obtain ⟨i, hi, hmem, hactive⟩ := hx.held (by rw [hg]; rfl)
    exact ⟨i, hown.trans hi, hkeeps hsome i hmem, hactive⟩
  · intro i hi
    obtain ⟨j, hj, hij⟩ := hx.own i (hown.symm.trans hi)
    obtain ⟨j', hj', hjj'⟩ := hstep.later (fun k hk hguard => (hx.row_held k hk hguard).1) hj
    exact ⟨j', hj', hij.trans hjj'⟩
  · intro a ha
    obtain ⟨i, hi, hstatus, hchecked⟩ := hx.authorized a (hauthorized.symm.trans ha)
    refine ⟨i, hown.trans hi, hstatus, fun g' hg' => ?_⟩
    obtain ⟨g, hg, hsub⟩ := hguard g' hg'
    obtain ⟨t, ht, hmem, hcurrent⟩ := hchecked g hg
    rw [hdb]
    exact ⟨t, ht, hsub hmem, hcurrent⟩

/-- A worker after its call. -/
theorem WorkerOk.called {c : QCall} {k : c.Answer → Prog QCall.Answer Unit}
    (hx : WorkerOk w.rows w.now x) (hrest : x.rest = .call c k) :
    WorkerOk (answerCall contextHash w x env c).1 w.now
      ⟨x.job, x.facts.observe c (answerCall contextHash w x env c).2.2,
        k (answerCall contextHash w x env c).2.2, (answerCall contextHash w x env c).2.1⟩ := by
  obtain ⟨hstep, hdb⟩ :=
    answerCall_rows env contextHash hx (hx.may hrest)
  have hsound : ∀ snapshots, Extends snapshots (answerCall contextHash w x env c).1 →
      Sound snapshots x.job (fun _ _ => True)
        (x.facts.observe c (answerCall contextHash w x env c).2.2)
        (k (answerCall contextHash w x env c).2.2) := by
    intro snapshots hextends
    have hbefore := hx.sound snapshots (hextends.of_later fun j hj =>
      hstep.later (fun i hown hguard => (hx.row_held i hown hguard).1) hj)
    rw [hrest] at hbefore
    exact hbefore.2 _ (answerCall_answered hextends)
  have hsame : ∀ g', x.guard = some g' → ∃ g, x.guard = some g ∧ g.approvals ⊆ g'.approvals :=
    fun g' h => ⟨g', h, fun a ha => ha⟩
  have hlast : ∀ run, ∀ g', (lastStatement w.rows x env run).2.1 = some g' → False := by
    intro run g' h
    rw [(lastStatement_spec w.rows x env run).1] at h
    cases h
  cases c with
  | host | find | clock | beginInflight | endInflight | activeFor =>
    exact hx.goesOn hstep hdb hsound rfl rfl hsame fun _ i hi => hi
  | prepare a =>
    refine hx.goesOn hstep hdb hsound rfl rfl hsame fun _ i hi => ?_
    rcases outcomeOf_rows w.rows (prepareQuarantineIntent contextHash w.rows a env.id w.now)
      env.id env.fate with heq | hrun
    · show i ∈ (outcomeOf _ _ _ _).1.intents
      rwa [heq]
    · obtain ⟨actionName, -, -, hinsert⟩ := prepare_spec hrun
      exact (mem_insert? hinsert).mpr (.inl hi)
  | setUpid upid =>
    refine hx.goesOn hstep hdb hsound rfl rfl (fun g' h => ?_) fun _ i hi => ?_
    · simp only [answerCall] at h
      split at h
      · next g hg =>
        obtain rfl := some.inj h
        exact ⟨g, hg, fun a ha => ha⟩
      · cases h
    · simp only [answerCall]
      split <;> exact hi
  | finish | recoveryRequired | resolveRollback =>
    exact hx.goesOn hstep hdb hsound rfl rfl (fun g' h => (hlast _ g' h).elim)
      fun h => (not_isSome_iff_eq_none.mpr (lastStatement_spec _ _ _ _).1 h).elim
  | validateApproval =>
    exact hx.goesOn hstep hdb hsound rfl rfl checkApproval_spec.1 fun _ i hi => hi
  | acquire id =>
    have hfree : x.facts.own = none := hx.may hrest
    rcases answerCall_acquire w x env contextHash id with
      ⟨i, hmem, -, hactive, -, heq⟩ | heq
    · rw [heq] at hsound ⊢
      constructor
      · exact hsound
      · exact fun _ => ⟨i, rfl, hmem, hactive⟩
      · intro j hj
        obtain rfl := some.inj hj
        exact ⟨i, hmem, i.later_refl⟩
      · intro a ha
        obtain ⟨j, hj, -⟩ := hx.authorized a ha
        rw [hfree] at hj
        cases hj
    · have hobserved : x.facts.observe (.acquire id)
          (answerCall contextHash w x env (.acquire id)).2.2 = x.facts := by
        rw [heq]
        cases env.fate <;> rfl
      rw [hobserved] at hsound ⊢
      rw [heq] at hstep hdb hsound ⊢
      exact hx.goesOn hstep hdb hsound rfl rfl hsame fun _ i hi => hi
  | validateReconcile execution actionName target =>
    cases hanswer : (answerCall contextHash w x env
        (.validateReconcile execution actionName target)).2.2 with
    | error e =>
      rw [hanswer] at hsound
      exact hx.goesOn hstep hdb hsound rfl rfl checkApproval_spec.1 fun _ i hi => hi
    | ok u =>
      rw [hanswer] at hsound
      obtain ⟨i, hown, hstatus, hcurrent, hlocked⟩ := checkApproval_spec.2 hanswer
      have hgoes : WorkerOk w.rows w.now ⟨x.job, x.facts, .pure (), (checkApproval w x env
          (fun _ => execution) (fun _ => actionName) (fun _ => target) .recoveryRequired
          "reconcile approval invalid or generation not awaiting reconciliation").1⟩ :=
        hx.goesOn hstep hdb (fun _ _ => trivial) rfl rfl checkApproval_spec.1 fun _ j hj => hj
      constructor
      · exact hsound
      · exact hgoes.held
      · exact hgoes.own
      · intro a ha
        obtain rfl := some.inj ha
        exact ⟨i, hown, hstatus, fun g' hg' => ⟨w.now, le_refl _, hlocked g' hg', hcurrent⟩⟩

end Steps

/-! ## The world -/

/-- Two workers never hold one generation. -/
def HeldApart (x y : Worker) : Prop := ∀ id, x.holds id = true → y.holds id = false

theorem HeldApart.symm {x y : Worker} (h : HeldApart x y) : HeldApart y x := by
  intro id hy
  by_contra hx
  rw [Bool.not_eq_false] at hx
  rw [h id hx] at hy
  cases hy

structure WorldOk (w : World) : Prop where
  one : OneActive w.rows
  workers : ∀ x ∈ w.workers, WorkerOk w.rows w.now x
  apart : Apart HeldApart w.workers

section World

variable {contextHash : Json → String} {cfg : QuarantineConfig} {w w' : World} {x : Worker}

theorem holds_iff {id : Uuid} :
    x.holds id = true ↔ x.guard.isSome = true ∧ ∃ i, x.facts.own = some i ∧ i.id = id := by
  simp only [Worker.holds, Bool.and_eq_true, Option.any_eq_true, decide_eq_true_eq]

/-- What a worker holds after its call it held before, or has acquired while no worker held it. -/
theorem holds_after {env : Env} {c : QCall} {k : c.Answer → Prog QCall.Answer Unit}
    (hx : WorkerOk w.rows w.now x) (hrest : x.rest = .call c k) {id : Uuid}
    (hholds : Worker.holds ⟨x.job, x.facts.observe c (answerCall contextHash w x env c).2.2,
      k (answerCall contextHash w x env c).2.2, (answerCall contextHash w x env c).2.1⟩ id = true) :
    x.holds id = true ∨ ∀ y ∈ w.workers, y.holds id = false := by
  obtain ⟨hguard, i, hown, hid⟩ := holds_iff.mp hholds
  have hbefore : x.guard.isSome = true → x.facts.own = some i → x.holds id = true :=
    fun h h' => holds_iff.mpr ⟨h, i, h', hid⟩
  have hchecked : ∀ {guard' : Option Guard}, guard'.isSome = true →
      (∀ g', guard' = some g' → ∃ g, x.guard = some g ∧ g.approvals ⊆ g'.approvals) →
      x.guard.isSome = true := by
    intro guard' hsome hfrom
    obtain ⟨g', hg'⟩ := isSome_iff_exists.mp hsome
    obtain ⟨g, hg, -⟩ := hfrom g' hg'
    rw [hg]
    rfl
  cases c with
  | host | find | clock | beginInflight | endInflight | activeFor | prepare =>
    exact .inl (hbefore hguard hown)
  | validateApproval => exact .inl (hbefore (hchecked hguard checkApproval_spec.1) hown)
  | validateReconcile execution actionName target =>
    refine .inl (hbefore (hchecked hguard checkApproval_spec.1) ?_)
    revert hown
    cases (answerCall contextHash w x env (.validateReconcile execution actionName target)).2.2 <;>
      exact fun h => h
  | setUpid upid =>
    refine .inl (hbefore ?_ hown)
    simp only [answerCall] at hguard
    split at hguard
    · next g hg =>
      rw [hg]
      rfl
    · cases hguard
  | finish | recoveryRequired | resolveRollback =>
    exact (not_isSome_iff_eq_none.mpr (lastStatement_spec _ _ _ _).1 hguard).elim
  | acquire id' =>
    rcases answerCall_acquire w x env contextHash id' with ⟨j, -, hj, -, hfree, heq⟩ | heq
    · right
      rw [heq] at hown
      obtain rfl := some.inj hown
      rw [← hid, hj]
      exact hfree
    · rw [heq] at hguard hown
      have hnone : x.facts.own = none := hx.may hrest
      have : (x.facts.observe (.acquire id') (readAs none env.fate)).own = x.facts.own := by
        cases env.fate <;> rfl
      rw [this, hnone] at hown
      cases hown

theorem WorkerOk.later_now {S : QuarantineDb} {now now' : Instant} (h : WorkerOk S now x)
    (hnow : now ≤ now') : WorkerOk S now' x where
  sound := h.sound
  held := h.held
  own := h.own
  authorized a ha := by
    obtain ⟨i, hown, hstatus, hchecked⟩ := h.authorized a ha
    refine ⟨i, hown, hstatus, fun g hg => ?_⟩
    obtain ⟨t, ht, hrest⟩ := hchecked g hg
    exact ⟨t, ht.trans hnow, hrest⟩

/-- Requests, approvals and policies change around what the guards have locked. -/
theorem WorkerOk.external (h : WorkerOk w.rows w.now x) (hx : x ∈ w.workers) {db : Executions.Db}
    (hmay : mayBecome w db = true) :
    WorkerOk { w.rows with db } w.now x where
  sound := h.sound
  held := h.held
  own := h.own
  authorized a ha := by
    obtain ⟨i, hown, hstatus, hchecked⟩ := h.authorized a ha
    refine ⟨i, hown, hstatus, fun g hg => ?_⟩
    obtain ⟨t, ht, hmem, hcurrent⟩ := hchecked g hg
    simp only [mayBecome, Bool.and_eq_true, List.all_eq_true, contains_iff_mem,
      Option.all_eq_true, decide_eq_true_eq] at hmay
    exact ⟨t, ht, hmem,
      approvalCurrent_mono hmay.1 (hmay.2 x hx g hg (a.1, t) hmem) hcurrent⟩

theorem WorldOk.call {k : Nat} {env : Env} (h : WorldOk w)
    (hexec : w.exec contextHash cfg (.call k env) = some w') : WorldOk w' := by
  simp only [World.exec] at hexec
  split at hexec
  · cases hexec
  next x hk =>
  split at hexec
  · cases hexec
  next c rest hrest =>
  obtain rfl := some.inj hexec
  have hx := h.workers x (mem_of_getElem? hk)
  obtain ⟨hstep, hdb⟩ := answerCall_rows env contextHash hx (hx.may hrest)
  constructor
  · exact h.one.step hstep fun i hown hguard => hx.row_held i hown hguard
  · intro y hy
    obtain ⟨j, hj⟩ := mem_iff_getElem?.mp hy
    rcases getElem?_set_cases hj with ⟨-, rfl⟩ | ⟨hjk, hj⟩
    · exact hx.called hrest
    · exact (h.workers y (mem_of_getElem? hj)).frame hstep hx hdb
        (h.apart j k y x hjk hj hk)
  · refine h.apart.set (fun _ _ => HeldApart.symm) fun j y hjk hj id hholds => ?_
    rcases holds_after hx hrest hholds with hbefore | hfree
    · exact h.apart k j x y hjk.symm hk hj id hbefore
    · exact hfree y (mem_of_getElem? hj)

/-- A worker that stops, or loses its guard, leaves the others as they are. -/
theorem WorldOk.setWorker {k : Nat} {x' : Worker} (h : WorldOk w) (hk : w.workers[k]? = some x)
    (hx' : WorkerOk w.rows w.now x') (hholds : ∀ id, x'.holds id = true → x.holds id = true) :
    WorldOk { w with workers := w.workers.set k x' } where
  one := h.one
  workers y hy := by
    obtain ⟨j, hj⟩ := mem_iff_getElem?.mp hy
    rcases getElem?_set_cases hj with ⟨-, rfl⟩ | ⟨-, hj⟩
    · exact hx'
    · exact h.workers y (mem_of_getElem? hj)
  apart := h.apart.set (fun _ _ => HeldApart.symm) fun j y hjk hj id hid =>
    h.apart k j x y hjk.symm hk hj id (hholds id hid)

theorem WorldOk.step {l : Label} (h : WorldOk w) (hexec : w.exec contextHash cfg l = some w') :
    WorldOk w' := by
  cases l with
  | tick elapsed =>
    obtain rfl := some.inj hexec
    exact ⟨h.one, fun x hx => (h.workers x hx).later_now (Nat.le_add_right _ _), h.apart⟩
  | start job =>
    obtain rfl := some.inj hexec
    refine ⟨h.one, fun x hx => ?_, h.apart.concat (fun _ _ => HeldApart.symm) ?_⟩
    · rcases mem_append.mp hx with hx | hx
      · exact h.workers x hx
      · rw [mem_singleton.mp hx]
        exact .start cfg job
    · exact fun y _ id hid => by cases hid
  | call k env => exact h.call hexec
  | crash k =>
    obtain ⟨x, hk, rfl⟩ := map_eq_some_iff.mp hexec
    have hx := h.workers x (mem_of_getElem? hk)
    exact h.setWorker hk ⟨fun _ _ => trivial, hx.held, hx.own, hx.authorized⟩ fun _ hid => hid
  | drop k =>
    obtain ⟨x, hk, rfl⟩ := map_eq_some_iff.mp hexec
    have hx := h.workers x (mem_of_getElem? hk)
    refine h.setWorker hk ⟨hx.sound, (nomatch ·), hx.own, fun a ha => ?_⟩ fun _ hid => by cases hid
    obtain ⟨i, hown, hstatus, -⟩ := hx.authorized a ha
    exact ⟨i, hown, hstatus, fun _ hg => nomatch hg⟩
  | external db =>
    simp only [World.exec] at hexec
    split at hexec
    · next hmay =>
      obtain rfl := some.inj hexec
      exact ⟨h.one, fun x hx => (h.workers x hx).external hx hmay, h.apart⟩
    · cases hexec

theorem worldOk_invariant : (system contextHash cfg).Invariant WorldOk := by
  refine TSys.Inductive.invariant ⟨fun w hinit => ?_, fun w l w' h hstep => h.step hstep⟩
  obtain ⟨hone, hworkers⟩ := hinit
  refine ⟨hone, fun x hx => ?_, fun j k x y _ hj => ?_⟩
  · rw [hworkers] at hx
    cases hx
  · rw [hworkers] at hj
    cases hj

/-! ## What a worker restores and moves -/

/-- The job's request names the generation's target, and its approval was current at some time
up to now, of the request, the action, the policy and the approvals as they are. -/
def ApprovedReconcile (w : World) (claimed : ClaimedExecutionRequest) (i : QuarantineIntent) :
    Prop :=
  ∃ target t, reconcileIdentity claimed = .ok (target, i.adapter, i.targetFingerprint) ∧
    t ≤ w.now ∧ approvalCurrent w.rows.db t claimed.id claimed.actionName target = true

/-- What a worker restores its generation's target on. -/
inductive RestoredOn (w : World) (x : Worker) (i : QuarantineIntent) : Prop
  | completed : x.job = .recover i.id → i.status = .completed → RestoredOn w x i
  | reconciled (claimed) : x.job = .reconcile claimed → i.status = .recoveryRequired →
      Proven i x.facts.observed → (x.guard.isSome = true → ApprovedReconcile w claimed i) →
      RestoredOn w x i
  /-- the isolation undoes itself -/
  | compensation (claimed) : x.job = .apply claimed → i.status = .prepared →
      FailedDisconnect x.facts.observed → RestoredOn w x i

/-- Whatever is restored is a recorded generation's own target, to its recorded state; where the
generation is still prepared, by the isolation itself. -/
def RestoresOnProof (w : World) : Prop :=
  ∀ x ∈ w.workers, ∀ c, x.next = some (.host c) → c.restores = true →
    ∃ i, x.facts.own = some i ∧ RestoresGeneration i c ∧ RestoredOn w x i ∧
      ∃ j ∈ w.rows.intents, j.snapshot = i.snapshot ∧ (x.guard.isSome = true → j = i) ∧
        (j.status = .prepared → ∃ claimed, x.job = .apply claimed)

/-- What a worker moves its generation on. -/
inductive MovedOn (w : World) (x : Worker) (i : QuarantineIntent) : IntentStatus → Prop
  | completed : i.status = .prepared → MovedOn w x i .completed
  | recoveryRequired : i.status = .prepared ∨ i.status = .completed →
      MovedOn w x i .recoveryRequired
  | recovered : x.job = .recover i.id → i.status = .completed → ReadBack i x.facts.observed →
      MovedOn w x i .rolledBack
  | reconciled (claimed) : x.job = .reconcile claimed → i.status = .recoveryRequired →
      ApprovedReconcile w claimed i → Proven i x.facts.observed →
      ReadBack i x.facts.observed → MovedOn w x i .rolledBack

/-- A step keeps every generation and what it recorded, and its status too, unless the worker that
holds it moves it. -/
def MovesOnProof (contextHash : Json → String) (cfg : QuarantineConfig) (w : World) : Prop :=
  ∀ l w', w.exec contextHash cfg l = some w' → ∀ i ∈ w.rows.intents,
    ∃ j ∈ w'.rows.intents, j.snapshot = i.snapshot ∧
      (j.status = i.status ∨ ∃ k env x, l = .call k env ∧ w.workers[k]? = some x ∧
        x.guard.isSome = true ∧ x.facts.own = some i ∧ MovedOn w x i j.status)

/-- A validated worker's request is approved as long as its guard lasts. -/
theorem WorkerOk.approved (h : WorkerOk w.rows w.now x) {claimed : ClaimedExecutionRequest}
    {i : QuarantineIntent} (hown : x.facts.own = some i)
    (hauthorized : x.facts.Authorizes claimed i) :
    i.status = .recoveryRequired ∧ (x.guard.isSome = true → ApprovedReconcile w claimed i) := by
  obtain ⟨target, hidentity, hrequest⟩ := hauthorized
  obtain ⟨j, hj, hstatus, hchecked⟩ := h.authorized _ hrequest
  obtain rfl := some.inj (hown.symm.trans hj)
  refine ⟨hstatus, fun hguard => ?_⟩
  obtain ⟨g, hg⟩ := isSome_iff_exists.mp hguard
  obtain ⟨t, ht, -, hcurrent⟩ := hchecked g hg
  exact ⟨target, t, hidentity, ht, hcurrent⟩

/-- A generation that was not prepared when it was acquired never is again. -/
theorem QuarantineIntent.Later.not_prepared {i j : QuarantineIntent} (h : i.Later j)
    (hi : i.status ≠ .prepared) : j.status ≠ .prepared := by
  intro hj
  rcases h.2 with heq | hmoves
  · exact hi (heq.trans hj)
  · rw [hj] at hmoves
    revert hmoves
    cases i.status <;> exact Bool.noConfusion

theorem WorldOk.restores (h : WorldOk w) : RestoresOnProof w := by
  intro x hx c hnext hrestores
  have hok := h.workers x hx
  obtain ⟨k, hrest⟩ : ∃ k, x.rest = .call (.host c) k := by
    unfold Worker.next at hnext
    split at hnext
    · next c' k hrest =>
      obtain rfl := some.inj hnext
      exact ⟨k, hrest⟩
    · cases hnext
  obtain ⟨i, hown, hgeneration, hmay⟩ := hok.may hrest hrestores
  obtain ⟨j, hj, hlater⟩ := hok.own i hown
  have hheld : x.guard.isSome = true → j = i := fun hguard =>
    eq_of_key_eq hj (hok.row_held i hown hguard).1
      (congrArg QuarantineSnapshot.id hlater.1)
  refine ⟨i, hown, hgeneration, ?_⟩
  rcases hmay with hresolve | ⟨⟨claimed, hjob⟩, hstatus, hfailed⟩
  · cases hjob : x.job with
    | apply claimed =>
      rw [hjob] at hresolve
      exact hresolve.elim
    | recover id =>
      rw [hjob] at hresolve
      obtain ⟨rfl, hstatus⟩ := hresolve
      refine ⟨.completed hjob hstatus, j, hj, hlater.1, hheld, fun hprepared => ?_⟩
      exact absurd hprepared (hlater.not_prepared (by rw [hstatus]; decide))
    | reconcile claimed =>
      rw [hjob] at hresolve
      obtain ⟨hstatus, happroved⟩ := hok.approved hown hresolve.1
      refine ⟨.reconciled claimed hjob hstatus hresolve.2 happroved, j, hj, hlater.1, hheld,
        fun hprepared => ?_⟩
      exact absurd hprepared (hlater.not_prepared (by rw [hstatus]; decide))
  · exact ⟨.compensation claimed hjob hstatus hfailed, j, hj, hlater.1, hheld,
      fun _ => ⟨claimed, hjob⟩⟩

theorem WorldOk.movedOn (hx : WorkerOk w.rows w.now x) {i : QuarantineIntent}
    (hguard : x.guard.isSome = true) (hown : x.facts.own = some i) {status : IntentStatus}
    (h : Justified x i status) : MovedOn w x i status := by
  cases h with
  | completed hstatus => exact .completed hstatus
  | recoveryRequired hstatus => exact .recoveryRequired hstatus
  | rolledBack hresolve hread =>
    cases hjob : x.job with
    | apply claimed =>
      rw [hjob] at hresolve
      exact hresolve.elim
    | recover id =>
      rw [hjob] at hresolve
      obtain ⟨rfl, hstatus⟩ := hresolve
      exact .recovered hjob hstatus hread
    | reconcile claimed =>
      rw [hjob] at hresolve
      obtain ⟨hstatus, happroved⟩ := hx.approved hown hresolve.1
      exact .reconciled claimed hjob hstatus (happroved hguard) hresolve.2 hread

theorem WorldOk.moves (h : WorldOk w) : MovesOnProof contextHash cfg w := by
  intro l w' hexec i hi
  have hstay : w'.rows.intents = w.rows.intents → ∃ j ∈ w'.rows.intents,
      j.snapshot = i.snapshot ∧ (j.status = i.status ∨ ∃ k env x, l = .call k env ∧
        w.workers[k]? = some x ∧ x.guard.isSome = true ∧ x.facts.own = some i ∧
        MovedOn w x i j.status) := by
    intro heq
    exact ⟨i, by rwa [heq], rfl, .inl rfl⟩
  cases l with
  | tick | start =>
    obtain rfl := some.inj hexec
    exact hstay rfl
  | crash | drop =>
    obtain ⟨x, -, rfl⟩ := map_eq_some_iff.mp hexec
    exact hstay rfl
  | external db =>
    simp only [World.exec] at hexec
    split at hexec
    · obtain rfl := some.inj hexec
      exact hstay rfl
    · cases hexec
  | call k env =>
    simp only [World.exec] at hexec
    split at hexec
    · cases hexec
    next x hk =>
    split at hexec
    · cases hexec
    next c rest hrest =>
    obtain rfl := some.inj hexec
    have hx := h.workers x (mem_of_getElem? hk)
    cases (answerCall_rows env contextHash hx (hx.may hrest)).1 with
    | same heq => exact hstay heq
    | prepared r _ _ hinsert =>
      exact ⟨i, (mem_insert? hinsert).mpr (.inl hi), rfl, .inl rfl⟩
    | moved r status error upid now hguard hown _ hjustified heq =>
      refine ⟨if i.id = r.id then setStatus status error upid now i else i, ?_, ?_⟩
      · show _ ∈ (answerCall contextHash w x env c).1.intents
        rw [heq]
        exact mem_moved.mpr ⟨i, hi, rfl⟩
      · split
        · next hid =>
          obtain rfl := eq_of_key_eq hi (hx.row_held r hown hguard).1 hid
          exact ⟨rfl, .inr ⟨k, env, x, rfl, hk, hguard, hown,
            WorldOk.movedOn hx hguard hown hjustified⟩⟩
        · exact ⟨rfl, .inl rfl⟩

/-- In every run of applies, crashes, recoveries and reconciliations a target has one active
generation, what is restored is a recorded generation on its grounds, and a generation moves on
proof: no recovery undoes a prepared one, and one that awaits an operator is left by an approved
reconciliation alone. -/
theorem generations_restored_on_proof (contextHash : Json → String) (cfg : QuarantineConfig) :
    (system contextHash cfg).Invariant fun w =>
      OneActive w.rows ∧ RestoresOnProof w ∧ MovesOnProof contextHash cfg w := by
  intro w hreachable
  have hok : WorldOk w := worldOk_invariant w hreachable
  exact ⟨hok.one, hok.restores, hok.moves⟩

end World

/-! ## An isolation that undoes itself -/

namespace Compensated

def container : String := String.ofList (List.replicate 64 'a')

def bridge : NetworkAttachment where
  name := "bridge"
  networkId := String.ofList (List.replicate 64 'b')
  aliases := []
  ipv4 := none
  ipv6 := none
  links := []
  linkLocalIps := []
  driverOpts := []
  gatewayPriority := 0

def target : Json :=
  Json.ofFields
    [("kind", .string "docker"), ("container_id", .string container),
      ("data_owner", .string "ops"), ("snapshot_restore_reference", .string "backup:lab"),
      ("management_network_plan", .string "out of band")]

def action : Executions.ActionRow := ⟨2, "docker.quarantine_container", "critical", true, true⟩

def request : Executions.RequestRow where
  id := 1
  actionId := 2
  workflowRunId := none
  decisionId := none
  requestedBy := "operator"
  requestedById := some 10
  status := .starting
  createdAt := 0
  startedAt := none
  finishedAt := none
  resultSummary := none
  errorSummary := none
  idempotencyKey := none
  requiredApprovals := 2
  approvalExpiresAt := some (seconds 3600)
  approvalContext := Json.ofFields
    [("version", .number (.int 1)), ("action_id", .string (EventDelivery.uuidText 2)),
      ("action_name", .string "docker.quarantine_container"),
      ("required_approvals", .number (.int 2)), ("target", target),
      ("risk_level", .string "critical"), ("requires_approval", .bool true)]
  approvalContextHash := some "context"
  retryCount := 0
  maxRetries := 0
  timeoutSeconds := 300
  nextRetryAt := none

def approval (id approver : Uuid) : Executions.ApprovalRow :=
  ⟨id, 1, approver, "approver", "context", 0, .distinctPerson⟩

def world : World where
  now := 0
  rows := {
    db := {
      actions := ⟨[action], by decide⟩
      policies := ⟨[⟨"critical", 2, 3600⟩], by decide⟩
      users := .empty _
      profile := none
      requests := ⟨[request], by decide⟩
      approvals := [approval 5 11, approval 6 12] }
    intents := .empty _
    receipts := .empty _ }
  workers := []

def config : QuarantineConfig where
  dockerNeverQuarantine := .ok [.docker (String.ofList (List.replicate 64 'f'))]
  proxmoxNeverQuarantine := .ok []

/-- The container is on these networks, and a disconnect runs out of time. -/
def oracle (networks : List NetworkAttachment) : (c : QCall) → c.Answer
  | .host (.inspect _) => .ok networks
  | .host (.disconnect _ _) => .error (.apply "Docker command timed out")
  | .host (.connect _) => .ok ()
  | .host (.readNet0 _ _) => .error (.verify "unavailable")
  | .host (.postConfig _ _ _ _) => .error (.apply "unavailable")
  | .host (.waitForConfigTask _ _ _) => .error (.apply "unavailable")
  | .host (.taskStatus _ _ _) => .error (.apply "unavailable")
  | .clock => (0 : Nat)
  | .beginInflight _ => .ok none
  | .prepare _ => .error "unavailable"
  | .acquire _ | .find _ | .activeFor _ _ => .error "unavailable"
  | .validateApproval | .validateReconcile _ _ _ | .setUpid _ | .finish _ | .recoveryRequired
  | .resolveRollback | .endInflight _ => .error "unavailable"

def env (networks : List NetworkAttachment) : Env :=
  ⟨oracle networks, .committed, "session lost", 7, 8⟩

def claimed : ClaimedExecutionRequest := ⟨1, "docker.quarantine_container", some target⟩

/-- The disconnect that timed out has taken effect when the networks are listed again. -/
def labels : List Label :=
  .start (.apply claimed) :: List.replicate 7 (.call 0 (env [bridge])) ++ [.call 0 (env [])]

def contextHash : Json → String := fun _ => "context"

/-- A worker is about to connect a network of its generation, which is still prepared. -/
def aboutToUndo (w : World) : Bool :=
  w.workers.any fun x =>
    (match x.next with
      | some (.host c) => c.restores
      | _ => false) &&
    x.facts.own.any fun i => i.status = .prepared && w.rows.intents.rows.contains i

end Compensated

/-- A prepared generation is undone automatically: a disconnect runs out of time, its mutation
possibly in flight, and the isolation connects the network again. -/
theorem prepared_generation_reconnected :
    ∃ contextHash cfg w, (system contextHash cfg).Reachable w ∧ ∃ x ∈ w.workers, ∃ c i,
      x.next = some (.host c) ∧ c.restores = true ∧ RestoresGeneration i c ∧
      x.facts.own = some i ∧ i ∈ w.rows.intents ∧ i.status = .prepared := by
  have hrun : ((TSys.execAll (World.exec Compensated.contextHash Compensated.config)
      Compensated.world Compensated.labels).any Compensated.aboutToUndo) = true := by
    decide +kernel
  obtain ⟨w, hexec, hundo⟩ := (Option.any_eq_true _ _).mp hrun
  have hreachable : (system Compensated.contextHash Compensated.config).Reachable w :=
    ⟨Compensated.world, _, ⟨fun i hi => absurd hi not_mem_nil, rfl⟩,
      TSys.run_of_execAll _ _ hexec⟩
  obtain ⟨x, hx, hboth⟩ := List.any_eq_true.mp hundo
  obtain ⟨hnext, hown⟩ := Bool.and_eq_true_iff.mp hboth
  obtain ⟨i, hi, hrow⟩ := (Option.any_eq_true _ _).mp hown
  rw [Bool.and_eq_true, decide_eq_true_eq, contains_iff_mem] at hrow
  obtain ⟨hstatus, hmem⟩ := hrow
  split at hnext
  · next c hc =>
    obtain ⟨j, hj, hgeneration, -⟩ := (worldOk_invariant w hreachable).restores x hx c hc hnext
    obtain rfl := some.inj (hi.symm.trans hj)
    exact ⟨_, _, w, hreachable, x, hx, c, i, hc, hnext, hgeneration, hi, hmem, hstatus⟩
  · cases hnext

end Clawforge.Quarantine

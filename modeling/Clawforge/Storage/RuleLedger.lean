import Clawforge.Kit.TSys
import Clawforge.Storage.RuleIntents

/-!
# What an operation does to the ledger

Every successful operation is one of two changes: it adds a prepared generation
under a rule key no active generation has, or it moves one generation along the
transition graph and writes the receipt that move calls for (`Change`). The
invariants of the ledger (`LedgerOk`) and the two-state facts (`Evolves`) are
proved from that alone, so they hold of any system that changes the ledger
through these operations.
-/

namespace Clawforge.RuleIntents

open Kit Table Option

/-! ## The transition graph -/

theorem IntentStatus.active_of_moves {s t : IntentStatus} (h : s.moves t = true) :
    s.active = true := by
  revert h
  cases s <;> cases t <;> decide

/-- The graph is transitive. -/
theorem IntentStatus.moves_trans {s t u : IntentStatus} (h : s.moves t = true)
    (h' : t.moves u = true) : s.moves u = true := by
  revert h h'
  cases s <;> cases t <;> cases u <;> decide

/-! ## Changes -/

/-- The receipt columns repeat the generation's snapshot, and the receipt was
verified on a real run. -/
structure ReceiptOf (x : FirewallActionReceipt) (s : IntentSnapshot) : Prop where
  intent : x.intentId = s.id
  execution : x.executionId = s.executionId
  adapter : x.adapter = s.adapter
  action : x.actionName = s.actionName
  fingerprint : x.targetFingerprint = s.ruleFingerprint
  target : x.targetJson = s.targetJson
  preflight : x.preflightState = s.preflightState
  rollback : x.rollbackPlan = s.rollbackPlan
  ttl : x.ttlSeconds = s.ttlSeconds
  expires : x.expiresAt = s.expiresAt
  verified : x.verificationResult = some .verified
  real : x.isDryRun = false

/-- The receipts a move of generation `i` to `status` writes. -/
inductive Receipted (i : FirewallRuleIntent) (L : Ledger) :
    IntentStatus → Table FirewallActionReceipt.id → Prop
  | completed (x L') : i.status = .prepared → x.receiptKind = .apply →
      ReceiptOf x i.snapshot → insertReceipt L x = some L' →
      Receipted i L .completed L'.receipts
  | rolledBack (x L') : x.receiptKind = .rollback → ReceiptOf x i.snapshot →
      insertReceipt L x = some L' → Receipted i L .rolledBack L'.receipts
  | notApplied : Receipted i L .notApplied L.receipts
  | recoveryRequired : Receipted i L .recoveryRequired L.receipts

/-- The committed effect of one operation. -/
inductive Change (L L' : Ledger) : Prop
  | prepared (r : FirewallRuleIntent) : r.status = .prepared → ¬ L.owns r.ruleKey →
      L.intents.insert? r = some L'.intents → L'.receipts = L.receipts → Change L L'
  | moved (i : FirewallRuleIntent) (status error now) : i ∈ L.intents →
      i.status.active = true → (i.status = status ∨ i.status.moves status = true) →
      L'.intents = (L.setRow i.id status error now).intents →
      Receipted i L status L'.receipts → Change L L'

/-! ## Every operation is a change -/

variable {L L' : Ledger} {id : Uuid} {now : Instant} {i : FirewallRuleIntent}
  {status : IntentStatus} {receipts : Table FirewallActionReceipt.id}

theorem insertReceipt_intents {x : FirewallActionReceipt} (h : insertReceipt L x = some L') :
    L'.intents = L.intents := by
  unfold insertReceipt at h
  split at h
  · cases h
  · obtain ⟨_, _, rfl⟩ := map_eq_some_iff.1 h
    rfl

theorem prepare_change {a : PrepareArgs} (h : prepareFirewallRuleIntent L a id now = .ok L') :
    Change L L' ∧ L.intents.insert? (preparedRow a id now) = some L'.intents := by
  unfold prepareFirewallRuleIntent at h
  split at h
  · cases hins : insertIntent L (preparedRow a id now) with
    | none => rw [hins] at h; cases h
    | some L₁ =>
      rw [hins] at h
      cases h
      unfold insertIntent at hins
      split at hins
      · rename_i hcond
        obtain ⟨intents, hrow, rfl⟩ := map_eq_some_iff.1 hins
        exact ⟨.prepared _ rfl hcond.2 hrow rfl, hrow⟩
      · cases hins
  · cases h

theorem acquire_spec (h : acquireFirewallRuleGuard L id = some i) :
    i ∈ L.intents ∧ i.id = id ∧ i.status.active = true := by
  unfold acquireFirewallRuleGuard at h
  rw [filter_eq_some_iff] at h
  obtain ⟨hget, hact⟩ := h
  obtain ⟨hmem, hid⟩ := get?_eq_some.1 hget
  exact ⟨hmem, hid, hact⟩

theorem setStatus_snapshot (status error now) (r : FirewallRuleIntent) :
    (setStatus status error now r).snapshot = r.snapshot := rfl

/-- A status update passes the trigger exactly along the transition graph. -/
theorem protect_setStatus (i : FirewallRuleIntent) (status error now) :
    protectFirewallRuleIntentSnapshot i (setStatus status error now i) =
      if i.status = status ∨ i.status.moves status = true then
        .ok (setStatus status error now i)
      else .error "firewall rule generation transition refused" := by
  unfold protectFirewallRuleIntentSnapshot
  rw [if_neg (fun hne => hne (setStatus_snapshot status error now i).symm)]
  show (if i.status ≠ status ∧ ¬ i.status.moves status = true then _ else _) = _
  by_cases h : i.status = status ∨ i.status.moves status = true
  · rw [if_pos h, if_neg]
    rintro ⟨hne, hmove⟩
    exact h.elim hne hmove
  · rw [if_neg h, if_pos (not_or.1 h)]

/-- A transition the trigger lets through changes the one row it names. -/
theorem transition_spec (hi : i ∈ L.intents) :
    transition L i status now = .ok L' ↔
      (i.status = status ∨ i.status.moves status = true) ∧
        L' = L.setRow i.id status (transitionError status) now := by
  unfold transition updateStatus
  rw [get?_key hi]
  simp only [protect_setStatus]
  by_cases h : i.status = status ∨ i.status.moves status = true
  · rw [if_pos h]
    simp only [Except.map, Except.ok.injEq, h, true_and]
    exact eq_comm
  · rw [if_neg h]
    simp [h, Except.map]

theorem finish_change {input : FirewallActionReceiptInput} {receipt : Uuid} (hi : i ∈ L.intents)
    (h : finish L i input receipt now = .ok L') :
    Change L L' ∧ ∃ r ∈ L'.intents, r.id = i.id ∧ r.status = .completed := by
  unfold finish at h
  split at h
  · cases h
  · rename_i hmatch
    simp only [receiptMismatched, Bool.or_eq_true, decide_eq_true_eq, not_or, not_not] at hmatch
    obtain ⟨⟨⟨⟨⟨⟨⟨⟨⟨⟨⟨hs, _⟩, _⟩, _⟩, _⟩, _⟩, _⟩, _⟩, _⟩, _⟩, _⟩, hver⟩ := hmatch
    split at h
    · cases h
    · rename_i L₁ hins
      have hintents := insertReceipt_intents hins
      obtain ⟨hmove, rfl⟩ := (transition_spec (hintents ▸ hi)).1 h
      have hact : i.status.active = true := by rw [hs]; rfl
      refine ⟨.moved i .completed _ now hi hact hmove (by unfold Ledger.setRow; rw [hintents]) ?_, ?_⟩
      · refine .completed (applyReceipt i input receipt) L₁ hs rfl ?_ hins
        exact ⟨rfl, rfl, rfl, rfl, rfl, rfl, rfl, rfl, rfl, rfl, hver, rfl⟩
      · refine ⟨setStatus .completed none now i, ?_, rfl, rfl⟩
        exact Ledger.mem_setRow.2 ⟨i, hintents ▸ hi, by rw [if_pos rfl]; rfl⟩

theorem resolveRollback_change {receipt : Uuid} (hi : i ∈ L.intents) (hact : i.status.active = true)
    (h : resolveRollback L i receipt now = .ok L') : Change L L' := by
  unfold resolveRollback at h
  split at h
  · cases h
  · rename_i L₁ hins
    have hintents := insertReceipt_intents hins
    obtain ⟨hmove, rfl⟩ := (transition_spec (hintents ▸ hi)).1 h
    refine .moved i .rolledBack _ now hi hact hmove (by unfold Ledger.setRow; rw [hintents]) ?_
    refine .rolledBack (rollbackReceipt i receipt) L₁ rfl ?_ hins
    exact ⟨rfl, rfl, rfl, rfl, rfl, rfl, rfl, rfl, rfl, rfl, rfl, rfl⟩

theorem recoveryRequired_change (hi : i ∈ L.intents) (hact : i.status.active = true)
    (h : recoveryRequired L i now = .ok L') : Change L L' := by
  obtain ⟨hmove, rfl⟩ := (transition_spec hi).1 h
  exact .moved i .recoveryRequired _ now hi hact hmove rfl .recoveryRequired

/-! ## The ledger machine -/

/-- The operations, each with the values the database draws for it. -/
inductive LedgerOp
  | prepare (a : PrepareArgs) (id : Uuid) (now : Instant)
  | finish (id : Uuid) (input : FirewallActionReceiptInput) (receipt : Uuid) (now : Instant)
  | notApplied (id : Uuid) (now : Instant)
  | recoveryRequired (id : Uuid) (now : Instant)
  | rollback (id : Uuid) (receipt : Uuid) (now : Instant)

def LedgerOp.run (L : Ledger) : LedgerOp → Except String Ledger
  | .prepare a id now => prepareFirewallRuleIntent L a id now
  | .finish id input receipt now => finishFirewallRuleIntent L id input receipt now
  | .notApplied id now => markFirewallRuleNotApplied L id now
  | .recoveryRequired id now => markFirewallRuleRecoveryRequired L id now
  | .rollback id receipt now => resolveFirewallRuleRollback L id receipt now

theorem withGuard_spec {op : FirewallRuleIntent → Except String Ledger}
    (h : withGuard L id op = .ok L') :
    ∃ i ∈ L.intents, i.id = id ∧ i.status.active = true ∧ op i = .ok L' := by
  unfold withGuard at h
  split at h
  · cases h
  · rename_i i hacq
    obtain ⟨hi, hid, hact⟩ := acquire_spec hacq
    exact ⟨i, hi, hid, hact, h⟩

theorem LedgerOp.change {op : LedgerOp} (h : op.run L = .ok L') : Change L L' := by
  cases op with
  | prepare a id now => exact (prepare_change h).1
  | finish id input receipt now =>
    obtain ⟨i, hi, _, _, hop⟩ := withGuard_spec h
    exact (finish_change hi hop).1
  | notApplied id now =>
    obtain ⟨i, hi, _, hact, hop⟩ := withGuard_spec h
    split at hop
    · obtain ⟨hmove, rfl⟩ := (transition_spec hi).1 hop
      exact .moved i .notApplied _ now hi hact hmove rfl .notApplied
    · cases hop
  | recoveryRequired id now =>
    obtain ⟨i, hi, _, hact, hop⟩ := withGuard_spec h
    split at hop
    · exact recoveryRequired_change hi hact hop
    · cases hop
  | rollback id receipt now =>
    obtain ⟨i, hi, _, hact, hop⟩ := withGuard_spec h
    exact resolveRollback_change hi hact hop

/-! ## How a ledger evolves -/

/-- Rows keep their snapshot and move along the graph; receipts stay. -/
structure Evolves (L L' : Ledger) : Prop where
  rows : ∀ i ∈ L.intents, ∃ j ∈ L'.intents, j.snapshot = i.snapshot ∧
    (i.status = j.status ∨ i.status.moves j.status = true)
  receipts : ∀ x ∈ L.receipts, x ∈ L'.receipts

theorem Evolves.refl (L : Ledger) : Evolves L L where
  rows i hi := ⟨i, hi, rfl, .inl rfl⟩
  receipts _ hx := hx

theorem Evolves.trans {L₁ L₂ L₃ : Ledger} (h : Evolves L₁ L₂) (h' : Evolves L₂ L₃) :
    Evolves L₁ L₃ where
  rows i hi := by
    obtain ⟨j, hj, hsnap, hmove⟩ := h.rows i hi
    obtain ⟨k, hk, hsnap', hmove'⟩ := h'.rows j hj
    refine ⟨k, hk, hsnap'.trans hsnap, ?_⟩
    rcases hmove with heq | hmove
    · rwa [heq]
    · rcases hmove' with heq' | hmove'
      · exact .inr (heq' ▸ hmove)
      · exact .inr (IntentStatus.moves_trans hmove hmove')
  receipts x hx := h'.receipts x (h.receipts x hx)

theorem insertReceipt_spec {x : FirewallActionReceipt} (h : insertReceipt L x = some L') :
    L.receipts.insert? x = some L'.receipts ∧
      ∀ y ∈ L.receipts, y.intentId = x.intentId → y.receiptKind ≠ x.receiptKind := by
  unfold insertReceipt at h
  split at h
  · cases h
  · rename_i hfree
    obtain ⟨receipts, hins, rfl⟩ := map_eq_some_iff.1 h
    exact ⟨hins, fun y hy hid hkind => hfree ⟨y, hy, hid, hkind⟩⟩

theorem Receipted.kept (h : Receipted i L status receipts) : ∀ x ∈ L.receipts, x ∈ receipts := by
  cases h with
  | completed _ _ _ _ _ hins | rolledBack _ _ _ _ hins =>
    exact fun x hx => (mem_insert? (insertReceipt_spec hins).1).2 (.inl hx)
  | notApplied | recoveryRequired => exact fun _ hx => hx

/-- A receipt after a move was there before, or repeats the moved generation's
snapshot under a kind that generation had no receipt of. -/
theorem Receipted.origin (h : Receipted i L status receipts) :
    ∀ x ∈ receipts, x ∈ L.receipts ∨ ReceiptOf x i.snapshot ∧
      ∀ y ∈ receipts, y.intentId = x.intentId → y.receiptKind = x.receiptKind → y = x := by
  cases h with
  | completed r _ _ _ hof hins | rolledBack r _ _ hof hins =>
    obtain ⟨hrow, hfree⟩ := insertReceipt_spec hins
    intro x hx
    rcases (mem_insert? hrow).1 hx with hx | rfl
    · exact .inl hx
    · refine .inr ⟨hof, fun y hy hid hkind => ?_⟩
      rcases (mem_insert? hrow).1 hy with hy | rfl
      · exact absurd hkind (hfree y hy hid)
      · rfl
  | notApplied | recoveryRequired => exact fun x hx => .inl hx

theorem Change.evolves (h : Change L L') : Evolves L L' := by
  cases h with
  | prepared r _ _ hins hrec =>
    refine ⟨fun i hi => ⟨i, (mem_insert? hins).2 (.inl hi), rfl, .inl rfl⟩, ?_⟩
    rw [hrec]
    exact fun _ hx => hx
  | moved i status error now hi _ hmove hrows hrec =>
    refine ⟨fun r hr => ?_, hrec.kept⟩
    rw [hrows]
    refine ⟨_, Ledger.mem_setRow.2 ⟨r, hr, rfl⟩, ?_⟩
    by_cases hid : r.id = i.id
    · rw [if_pos hid, eq_of_key_eq hr hi hid]
      exact ⟨rfl, hmove⟩
    · rw [if_neg hid]
      exact ⟨rfl, .inl rfl⟩

/-! ## Invariants of the ledger -/

structure LedgerOk (L : Ledger) : Prop where
  /-- one active generation for each rule -/
  owner : ∀ a ∈ L.intents, ∀ b ∈ L.intents, a.status.active = true →
    b.status.active = true → a.ruleKey = b.ruleKey → a = b
  /-- one receipt of each kind for each generation -/
  receipt : ∀ x ∈ L.receipts, ∀ y ∈ L.receipts, y.intentId = x.intentId →
    y.receiptKind = x.receiptKind → y = x
  /-- every receipt repeats the snapshot of a stored generation -/
  bound : ∀ x ∈ L.receipts, ∃ i ∈ L.intents, ReceiptOf x i.snapshot
  completed : ∀ i ∈ L.intents, i.status = .completed →
    ∃ x ∈ L.receipts, x.intentId = i.id ∧ x.receiptKind = .apply
  rolledBack : ∀ i ∈ L.intents, i.status = .rolledBack →
    ∃ x ∈ L.receipts, x.intentId = i.id ∧ x.receiptKind = .rollback

theorem ledgerOk_empty : LedgerOk .empty where
  owner _ ha := absurd ha not_mem_empty
  receipt _ hx := absurd hx not_mem_empty
  bound _ hx := absurd hx not_mem_empty
  completed _ hi := absurd hi not_mem_empty
  rolledBack _ hi := absurd hi not_mem_empty

/-- The receipt a move needs is there after it. -/
theorem Receipted.written (h : Receipted i L status receipts) :
    (status = .completed → ∃ x ∈ receipts, x.intentId = i.id ∧ x.receiptKind = .apply) ∧
      (status = .rolledBack →
        ∃ x ∈ receipts, x.intentId = i.id ∧ x.receiptKind = .rollback) := by
  cases h with
  | completed x _ _ hkind hof hins =>
    refine ⟨fun _ => ⟨x, ?_, hof.intent, hkind⟩, fun hne => by cases hne⟩
    exact (mem_insert? (insertReceipt_spec hins).1).2 (.inr rfl)
  | rolledBack x _ hkind hof hins =>
    refine ⟨fun hne => (by cases hne), fun _ => ⟨x, ?_, hof.intent, hkind⟩⟩
    exact (mem_insert? (insertReceipt_spec hins).1).2 (.inr rfl)
  | notApplied | recoveryRequired =>
    exact ⟨fun hne => (by cases hne), fun hne => (by cases hne)⟩

/-- A row after a move: another row unchanged, or the moved one. -/
theorem mem_setRow_cases {r : FirewallRuleIntent} {status error now} (hi : i ∈ L.intents)
    (h : r ∈ (L.setRow i.id status error now).intents) :
    (r ∈ L.intents ∧ r.id ≠ i.id) ∨ r = setStatus status error now i := by
  obtain ⟨x, hx, rfl⟩ := Ledger.mem_setRow.1 h
  by_cases hid : x.id = i.id
  · rw [if_pos hid, eq_of_key_eq hx hi hid]
    exact .inr rfl
  · rw [if_neg hid]
    exact .inl ⟨hx, hid⟩

theorem LedgerOk.change (hL : LedgerOk L) (h : Change L L') : LedgerOk L' := by
  have hev := h.evolves
  cases h with
  | prepared r hst hfree hins hrec =>
    have hmem := fun {x} => mem_insert? hins (x := x)
    refine ⟨?_, hrec ▸ hL.receipt, ?_, ?_, ?_⟩
    · intro a ha b hb hact hact' hkey
      rcases hmem.1 ha with ha | rfl <;> rcases hmem.1 hb with hb | rfl
      · exact hL.owner a ha b hb hact hact' hkey
      · exact absurd ⟨a, ha, hact, hkey⟩ hfree
      · exact absurd ⟨b, hb, hact', hkey.symm⟩ hfree
      · rfl
    · intro x hx
      rw [hrec] at hx
      obtain ⟨i, hi, hof⟩ := hL.bound x hx
      exact ⟨i, hmem.2 (.inl hi), hof⟩
    · intro i hi hs
      rw [hrec]
      rcases hmem.1 hi with hi | rfl
      · exact hL.completed i hi hs
      · rw [hst] at hs
        cases hs
    · intro i hi hs
      rw [hrec]
      rcases hmem.1 hi with hi | rfl
      · exact hL.rolledBack i hi hs
      · rw [hst] at hs
        cases hs
  | moved i status error now hi hact hmove hrows hrec =>
    have hrow : ∀ r ∈ L'.intents,
        (r ∈ L.intents ∧ r.id ≠ i.id) ∨ r = setStatus status error now i :=
      fun r hr => mem_setRow_cases hi (hrows ▸ hr)
    -- the generation moved was active before, so it owned its key already
    have hown : ∀ r ∈ L.intents, r.id ≠ i.id → r.status.active = true →
        r.ruleKey ≠ i.ruleKey := by
      intro r hr hne hract hkey
      exact hne (congrArg FirewallRuleIntent.id (hL.owner r hr i hi hract hact hkey))
    refine ⟨?_, ?_, ?_, ?_, ?_⟩
    · intro a ha b hb hact₁ hact₂ hkey
      rcases hrow a ha with ⟨ha, hne⟩ | rfl <;> rcases hrow b hb with ⟨hb, hne'⟩ | rfl
      · exact hL.owner a ha b hb hact₁ hact₂ hkey
      · exact absurd hkey (hown a ha hne hact₁)
      · exact absurd hkey.symm (hown b hb hne' hact₂)
      · rfl
    · intro x hx y hy hid hkind
      rcases hrec.origin x hx with hx | ⟨_, honly⟩
      · rcases hrec.origin y hy with hy' | ⟨_, honly⟩
        · exact hL.receipt x hx y hy' hid hkind
        · exact (honly x (hrec.kept x hx) hid.symm hkind.symm).symm
      · exact honly y hy hid hkind
    · intro x hx
      rcases hrec.origin x hx with hx | ⟨hof, _⟩
      · obtain ⟨j, hj, hof⟩ := hL.bound x hx
        obtain ⟨j', hj', hsnap, _⟩ := hev.rows j hj
        exact ⟨j', hj', hsnap ▸ hof⟩
      · obtain ⟨j', hj', hsnap, _⟩ := hev.rows i hi
        exact ⟨j', hj', hsnap ▸ hof⟩
    · intro r hr hs
      rcases hrow r hr with ⟨hr, _⟩ | rfl
      · obtain ⟨x, hx, hid, hkind⟩ := hL.completed r hr hs
        exact ⟨x, hrec.kept x hx, hid, hkind⟩
      · exact hrec.written.1 hs
    · intro r hr hs
      rcases hrow r hr with ⟨hr, _⟩ | rfl
      · obtain ⟨x, hx, hid, hkind⟩ := hL.rolledBack r hr hs
        exact ⟨x, hrec.kept x hx, hid, hkind⟩
      · exact hrec.written.2 hs

/-! ## Operations that resolve nothing -/

/-- The rows keep their snapshots, active ones stay active, and receipts stay. -/
structure Keeps (L L' : Ledger) : Prop where
  rows : ∀ i ∈ L.intents, ∃ j ∈ L'.intents, j.snapshot = i.snapshot ∧
    (i.status.active = true → j.status.active = true)
  receipts : ∀ x ∈ L.receipts, x ∈ L'.receipts

theorem Keeps.refl (L : Ledger) : Keeps L L where
  rows i hi := ⟨i, hi, rfl, id⟩
  receipts _ hx := hx

theorem Keeps.trans {L₁ L₂ L₃ : Ledger} (h : Keeps L₁ L₂) (h' : Keeps L₂ L₃) : Keeps L₁ L₃ where
  rows i hi := by
    obtain ⟨j, hj, hsnap, hact⟩ := h.rows i hi
    obtain ⟨k, hk, hsnap', hact'⟩ := h'.rows j hj
    exact ⟨k, hk, hsnap'.trans hsnap, fun hi => hact' (hact hi)⟩
  receipts x hx := h'.receipts x (h.receipts x hx)

/-- Preparing adds one row and keeps the others. -/
theorem prepare_keeps {a : PrepareArgs} (h : prepareFirewallRuleIntent L a id now = .ok L') :
    Keeps L L' ∧ (∀ r, r ∈ L'.intents ↔ r ∈ L.intents ∨ r = preparedRow a id now) ∧
      ∀ r ∈ L.intents, r.id ≠ id := by
  obtain ⟨hchange, hins⟩ := prepare_change h
  have hmem := fun {x} => mem_insert? hins (x := x)
  refine ⟨⟨fun i hi => ⟨i, hmem.2 (.inl hi), rfl, fun hact => hact⟩, hchange.evolves.receipts⟩,
    fun r => hmem, fun r hr => ?_⟩
  exact key_ne_of_insert? hins hr

/-- The ledger is kept, without a new row. -/
structure Retains (L L' : Ledger) : Prop extends Keeps L L' where
  origin : ∀ j ∈ L'.intents, ∃ i ∈ L.intents, i.snapshot = j.snapshot

theorem Retains.refl (L : Ledger) : Retains L L where
  toKeeps := .refl L
  origin j hj := ⟨j, hj, rfl⟩

/-- A move to an active status retains. -/
theorem retains_setRow {error now} (hact : status.active = true)
    (hrows : L'.intents = (L.setRow id status error now).intents)
    (hreceipts : ∀ x ∈ L.receipts, x ∈ L'.receipts) : Retains L L' where
  rows i hi := by
    rw [hrows]
    refine ⟨_, Ledger.mem_setRow.2 ⟨i, hi, rfl⟩, ?_⟩
    split
    · exact ⟨rfl, fun _ => hact⟩
    · exact ⟨rfl, fun hi => hi⟩
  origin j hj := by
    rw [hrows] at hj
    obtain ⟨i, hi, rfl⟩ := Ledger.mem_setRow.1 hj
    refine ⟨i, hi, ?_⟩
    split <;> rfl
  receipts := hreceipts

/-- Finishing a generation retains, and leaves its verified apply receipt. -/
theorem finish_retains {input : FirewallActionReceiptInput} {receipt : Uuid}
    (h : finishFirewallRuleIntent L id input receipt now = .ok L') :
    Retains L L' ∧ ∃ x ∈ L'.receipts, x.intentId = id ∧ x.receiptKind = .apply ∧
      x.verificationResult = some .verified := by
  obtain ⟨i, hi, rfl, -, hop⟩ := withGuard_spec h
  unfold finish at hop
  split at hop
  · cases hop
  · next hmatch =>
    simp only [receiptMismatched, Bool.or_eq_true, decide_eq_true_eq, not_or, not_not] at hmatch
    split at hop
    · cases hop
    · next L₁ hins =>
      have hintents := insertReceipt_intents hins
      have hreceipts := fun {x} => mem_insert? (insertReceipt_spec hins).1 (x := x)
      obtain ⟨-, rfl⟩ := (transition_spec (hintents ▸ hi)).1 hop
      have hrows : (L₁.setRow i.id .completed (transitionError .completed) now).intents =
          (L.setRow i.id .completed (transitionError .completed) now).intents := by
        unfold Ledger.setRow
        rw [hintents]
      exact ⟨retains_setRow rfl hrows fun x hx => hreceipts.2 (.inl hx),
        applyReceipt i input receipt, hreceipts.2 (.inr rfl), rfl, rfl, hmatch.2⟩

/-- Retaining a generation for recovery retains. -/
theorem markRecoveryRequired_retains (h : markFirewallRuleRecoveryRequired L id now = .ok L') :
    Retains L L' := by
  obtain ⟨i, hi, rfl, -, hop⟩ := withGuard_spec h
  split at hop
  · obtain ⟨-, rfl⟩ := (transition_spec hi).1 hop
    exact retains_setRow rfl rfl fun _ hx => hx
  · cases hop

end Clawforge.RuleIntents

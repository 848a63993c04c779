import Clawforge.Kit.Slots
import Clawforge.Storage.RuleLedger

/-!
# Ledger operations as interleaved transactions

The operations of `RuleIntents` statement by statement: any number of executors,
each with at most one open transaction, interleaved in any order. A transaction
locks a generation with `FOR UPDATE SKIP LOCKED`, keeps its writes to itself
until it commits, and disappears without effect when its operation fails or its
executor crashes. A COMMIT can also take effect and be answered with an error,
which the operation then returns. `commit_refines` connects the two
descriptions: a commit does to the committed ledger exactly what the operation
does as a function of it. `run_without` is the converse for an operation that
does not commit: the same run without its steps leads to the same world.
-/

namespace Clawforge.RuleIntents

open Kit Table List Option

/-- The receipt a transaction inserts for the generation it holds. -/
inductive ReceiptWrite
  | apply (input : FirewallActionReceiptInput) (receipt : Uuid)
  | rollback (receipt : Uuid)

namespace ReceiptWrite

def row (i : FirewallRuleIntent) : ReceiptWrite → FirewallActionReceipt
  | apply input receipt => applyReceipt i input receipt
  | rollback receipt => rollbackReceipt i receipt

/-- `finish` compares first; `resolve_rollback` does not. -/
def admits (i : FirewallRuleIntent) : ReceiptWrite → Bool
  | apply input _ => !receiptMismatched i input
  | rollback _ => true

/-- The status the operation goes on to set. -/
def status : ReceiptWrite → IntentStatus
  | apply _ _ => .completed
  | rollback _ => .rolledBack

end ReceiptWrite

/-- One executor's transaction. -/
inductive Session
  | idle
  /-- `prepare` has inserted its row -/
  | inserted (a : PrepareArgs) (id : Uuid) (now : Instant)
  /-- a guard holds the row lock -/
  | guarded (i : FirewallRuleIntent)
  /-- a guard has also inserted a receipt -/
  | receipted (i : FirewallRuleIntent) (w : ReceiptWrite)
  /-- a guard has also updated the row -/
  | updated (i : FirewallRuleIntent) (w : Option ReceiptWrite) (status : IntentStatus)
      (now : Instant)

namespace Session

/-- The generation whose row the transaction has locked, as it read it. -/
def lock : Session → Option FirewallRuleIntent
  | idle | inserted _ _ _ => none
  | guarded i | receipted i _ | updated i _ _ _ => some i

/-- The uncommitted row of a `prepare`. -/
def pendingIntent : Session → Option FirewallRuleIntent
  | inserted a id now => some (preparedRow a id now)
  | _ => none

/-- The uncommitted receipt of a guard operation. -/
def pendingReceipt : Session → Option FirewallActionReceipt
  | receipted i w | updated i (some w) _ _ => some (w.row i)
  | _ => none

end Session

structure World where
  ledger : Ledger
  sessions : List Session

inductive Action
  /-- `prepare` validates and inserts -/
  | insertIntent (k : Nat) (a : PrepareArgs) (id : Uuid) (now : Instant)
  | acquire (k : Nat) (id : Uuid)
  | insertReceipt (k : Nat) (w : ReceiptWrite)
  /-- the update that follows a receipt -/
  | updateReceipted (k : Nat) (now : Instant)
  /-- `mark_…`, `recovery_required` and `not_applied` -/
  | update (k : Nat) (status : IntentStatus) (now : Instant)
  /-- COMMIT takes effect; `lost` is the error it is answered with all the same -/
  | commit (k : Nat) (lost : Option String)
  /-- a check or a statement refuses, and the operation returns the error -/
  | error (k : Nat) (text : String)
  | crash (k : Nat)

namespace Action

def executor : Action → Nat
  | insertIntent k _ _ _ | acquire k _ | insertReceipt k _ | updateReceipted k _ | update k _ _
  | commit k _ | error k _ | crash k => k

/-- What the operation of the step's executor returns with it. -/
def returned : Action → Option (Except String Unit)
  | commit _ none => some (.ok ())
  | commit _ (some text) | error _ text => some (.error text)
  | _ => none

def isCommit : Action → Bool
  | commit _ _ => true
  | _ => false

/-- The step ends the operation of its executor. -/
def ends : Action → Bool
  | commit _ _ | error _ _ | crash _ => true
  | _ => false

end Action

/-- What a guard may set without a receipt: `not_applied` only from `prepared`. -/
def updateAllowed (i : FirewallRuleIntent) (status : IntentStatus) : Bool :=
  status = .recoveryRequired || status = .notApplied && i.status = .prepared

/-- The committed ledger once the writes of a transaction are applied. -/
def commitWrites (L : Ledger) : Session → Option Ledger
  | .inserted a id now =>
    (L.intents.insert? (preparedRow a id now)).map (fun intents => { L with intents })
  | .updated i w status now =>
    let L' := L.setRow i.id status (transitionError status) now
    match w with
    | none => some L'
    | some w =>
      (L.receipts.insert? (w.row i)).map (fun receipts => { L' with receipts })
  | _ => none

def exec (w : World) : Action → Option World
  | .insertIntent k a id now =>
    match w.sessions[k]? with
    | some .idle =>
      -- an uncommitted row under the same key blocks the insert until it resolves
      if validIntentMetadata a ∧ (insertIntent w.ledger (preparedRow a id now)).isSome ∧
          ∀ s ∈ w.sessions, ∀ r ∈ s.pendingIntent,
            r.ruleKey ≠ (preparedRow a id now).ruleKey ∧ r.id ≠ id then
        some { w with sessions := w.sessions.set k (.inserted a id now) }
      else none
    | _ => none
  | .acquire k id =>
    match w.sessions[k]?, acquireFirewallRuleGuard w.ledger id with
    | some .idle, some i =>
      -- SKIP LOCKED: a row another transaction holds is not returned
      if ∀ s ∈ w.sessions, ∀ r ∈ s.lock, r.id ≠ id then
        some { w with sessions := w.sessions.set k (.guarded i) }
      else none
    | _, _ => none
  | .insertReceipt k rw =>
    match w.sessions[k]? with
    | some (.guarded i) =>
      if rw.admits i ∧ (insertReceipt w.ledger (rw.row i)).isSome ∧
          ∀ s ∈ w.sessions, ∀ x ∈ s.pendingReceipt, x.id ≠ (rw.row i).id then
        some { w with sessions := w.sessions.set k (.receipted i rw) }
      else none
    | _ => none
  | .updateReceipted k now =>
    match w.sessions[k]? with
    | some (.receipted i rw) =>
      match protectFirewallRuleIntentSnapshot i
          (setStatus rw.status (transitionError rw.status) now i) with
      | .ok _ =>
        some { w with sessions := w.sessions.set k (.updated i (some rw) rw.status now) }
      | .error _ => none
    | _ => none
  | .update k status now =>
    match w.sessions[k]? with
    | some (.guarded i) =>
      if updateAllowed i status then
        match protectFirewallRuleIntentSnapshot i
            (setStatus status (transitionError status) now i) with
        | .ok _ =>
          some { w with sessions := w.sessions.set k (.updated i none status now) }
        | .error _ => none
      else none
    | _ => none
  | .commit k _ =>
    match w.sessions[k]? with
    | some s =>
      (commitWrites w.ledger s).map (fun ledger =>
        { ledger, sessions := w.sessions.set k .idle })
    | none => none
  | .error k _ | .crash k => some { w with sessions := w.sessions.set k .idle }

/-- An empty ledger and any number of executors with no open transaction. -/
def Initial (w : World) : Prop :=
  w.ledger = .empty ∧ ∃ n, w.sessions = List.replicate n .idle

def sessionSystem : TSys World Action := TSys.ofExec Initial exec

/-! ## Open transactions -/

/-- The row could be inserted into the committed ledger. -/
def IntentFree (L : Ledger) (r : FirewallRuleIntent) : Prop :=
  snapshotComplete r = true ∧ ¬ L.owns r.ruleKey ∧ ∀ x ∈ L.intents, x.id ≠ r.id

/-- The receipt could be inserted into the committed ledger. -/
def ReceiptFree (L : Ledger) (x : FirewallActionReceipt) : Prop :=
  ∀ y ∈ L.receipts, ¬ (y.intentId = x.intentId ∧ y.receiptKind = x.receiptKind) ∧ y.id ≠ x.id

variable {L : Ledger} {x : FirewallActionReceipt} {s : Session} {w : World} {L' : Ledger} {k : Nat}
  {w' : World}

theorem insertIntent_isSome {r : FirewallRuleIntent} :
    (insertIntent L r).isSome = true ↔ IntentFree L r := by
  unfold insertIntent IntentFree
  by_cases h : snapshotComplete r = true ∧ ¬ L.owns r.ruleKey
  · rw [if_pos h, isSome_map, insert?_isSome]
    exact ⟨fun hid => ⟨h.1, h.2, hid⟩, fun hfree => hfree.2.2⟩
  · rw [if_neg h]
    simp only [isSome_none, Bool.false_eq_true, false_iff]
    exact fun hfree => h ⟨hfree.1, hfree.2.1⟩

theorem insertReceipt_isSome : (insertReceipt L x).isSome = true ↔ ReceiptFree L x := by
  unfold insertReceipt ReceiptFree
  by_cases h : ∃ y ∈ L.receipts.rows, y.intentId = x.intentId ∧ y.receiptKind = x.receiptKind
  · rw [if_pos h]
    obtain ⟨y, hy, hsame⟩ := h
    simp only [isSome_none, Bool.false_eq_true, false_iff]
    exact fun hfree => (hfree y hy).1 hsame
  · rw [if_neg h, isSome_map, insert?_isSome]
    refine ⟨fun hid y hy => ⟨fun hsame => h ⟨y, hy, hsame⟩, hid y hy⟩, ?_⟩
    exact fun hfree y hy => (hfree y hy).2

/-- A transaction's locks and pending writes fit the committed ledger. -/
inductive SessionOk (L : Ledger) : Session → Prop
  | idle : SessionOk L .idle
  | inserted {a id now} : validIntentMetadata a = true →
      IntentFree L (preparedRow a id now) → SessionOk L (.inserted a id now)
  | guarded {i} : i ∈ L.intents → i.status.active = true → SessionOk L (.guarded i)
  | receipted {i w} : i ∈ L.intents → i.status.active = true → w.admits i = true →
      ReceiptFree L (w.row i) → SessionOk L (.receipted i w)
  | updatedReceipted {i w now} : i ∈ L.intents → i.status.active = true →
      w.admits i = true → ReceiptFree L (w.row i) →
      (i.status = w.status ∨ i.status.moves w.status = true) →
      SessionOk L (.updated i (some w) w.status now)
  | updated {i status now} : i ∈ L.intents → i.status.active = true →
      updateAllowed i status = true → (i.status = status ∨ i.status.moves status = true) →
      SessionOk L (.updated i none status now)

/-- Two transactions hold different rows and write under different keys. -/
structure Compatible (s t : Session) : Prop where
  lock : ∀ i ∈ s.lock, ∀ j ∈ t.lock, i.id ≠ j.id
  intent : ∀ r ∈ s.pendingIntent, ∀ q ∈ t.pendingIntent, r.ruleKey ≠ q.ruleKey ∧ r.id ≠ q.id
  receipt : ∀ x ∈ s.pendingReceipt, ∀ y ∈ t.pendingReceipt, x.id ≠ y.id

theorem Compatible.symm {t : Session} (h : Compatible s t) : Compatible t s where
  lock i hi j hj := (h.lock j hj i hi).symm
  intent r hr q hq := ⟨(h.intent q hq r hr).1.symm, (h.intent q hq r hr).2.symm⟩
  receipt x hx y hy := (h.receipt y hy x hx).symm

theorem compatible_idle (s : Session) : Compatible .idle s where
  lock _ hi := by cases hi
  intent _ hr := by cases hr
  receipt _ hx := by cases hx

structure WorldOk (w : World) : Prop where
  session : ∀ (k : Nat) (s : Session), w.sessions[k]? = some s → SessionOk w.ledger s
  apart : Apart Compatible w.sessions

/-! ## What a commit does to the others -/

/-- The row a transaction locks is the one its pending receipt is for. -/
theorem pendingReceipt_intentId (h : x ∈ s.pendingReceipt) : ∃ i ∈ s.lock, x.intentId = i.id := by
  have hrow : ∀ (i : FirewallRuleIntent) (w : ReceiptWrite), (w.row i).intentId = i.id :=
    fun i w => by cases w <;> rfl
  cases s with
  | idle | inserted | guarded => cases h
  | receipted i w =>
    cases h
    exact ⟨i, rfl, hrow i w⟩
  | updated i w status now =>
    cases w with
    | none => cases h
    | some w =>
      cases h
      exact ⟨i, rfl, hrow i w⟩

/-- The rows and receipts a commit leaves. -/
theorem commitWrites_spec (hs : SessionOk L s) (h : commitWrites L s = some L') :
    (∃ r ∈ s.pendingIntent, L.intents.insert? r = some L'.intents ∧
        L'.receipts = L.receipts) ∨
      ∃ i ∈ s.lock, ∃ status error now, i ∈ L.intents ∧ i.status.active = true ∧
        L'.intents = (L.setRow i.id status error now).intents ∧
        ∀ x ∈ L'.receipts, x ∈ L.receipts ∨ x ∈ s.pendingReceipt := by
  cases hs with
  | idle | guarded | receipted => cases h
  | inserted =>
    obtain ⟨intents, hins, rfl⟩ := map_eq_some_iff.1 h
    exact .inl ⟨_, rfl, hins, rfl⟩
  | updatedReceipted hi hact =>
    obtain ⟨receipts, hins, rfl⟩ := map_eq_some_iff.1 h
    refine .inr ⟨_, rfl, _, _, _, hi, hact, rfl, fun x hx => ?_⟩
    rcases (mem_insert? hins).1 hx with hx | rfl
    · exact .inl hx
    · exact .inr rfl
  | updated hi hact =>
    cases h
    exact .inr ⟨_, rfl, _, _, _, hi, hact, rfl, fun x hx => .inl hx⟩

/-- A commit keeps what a compatible transaction relies on. -/
theorem SessionOk.commit {s₀ : Session} (h₀ : SessionOk L s₀)
    (hcommit : commitWrites L s₀ = some L') (hcomp : Compatible s₀ s) (hs : SessionOk L s) :
    SessionOk L' s := by
  have row : ∀ i ∈ s.lock, i ∈ L.intents → i ∈ L'.intents := by
    intro i hi hmem
    rcases commitWrites_spec h₀ hcommit with ⟨_, _, hins, _⟩ | ⟨j, hj, _, _, _, _, _, hrows, _⟩
    · exact (mem_insert? hins).2 (.inl hmem)
    · rw [hrows]
      exact Ledger.mem_setRow.2 ⟨i, hmem, by rw [if_neg (hcomp.lock j hj i hi).symm]⟩
  have receipt : ∀ x ∈ s.pendingReceipt, ReceiptFree L x → ReceiptFree L' x := by
    intro x hx hfree y hy
    rcases commitWrites_spec h₀ hcommit with ⟨_, _, _, hrec⟩ | ⟨j, hj, _, _, _, _, _, _, hrec⟩
    · exact hfree y (hrec ▸ hy)
    · rcases hrec y hy with hy | hy
      · exact hfree y hy
      · refine ⟨fun hsame => ?_, hcomp.receipt y hy x hx⟩
        obtain ⟨i₀, hi₀, hid₀⟩ := pendingReceipt_intentId hy
        obtain ⟨i, hi, hid⟩ := pendingReceipt_intentId hx
        exact hcomp.lock i₀ hi₀ i hi (hid₀ ▸ hid ▸ hsame.1)
  have intent : ∀ r ∈ s.pendingIntent, IntentFree L r → IntentFree L' r := by
    rintro r hr ⟨hcomplete, howns, hid⟩
    rcases commitWrites_spec h₀ hcommit with
      ⟨q, hq, hins, _⟩ | ⟨j, hj, status, error, now, hmem, hact, hrows, _⟩
    · refine ⟨hcomplete, ?_, fun x hx => ?_⟩
      · rintro ⟨x, hx, hxact, hkey⟩
        rcases (mem_insert? hins).1 hx with hx | rfl
        · exact howns ⟨x, hx, hxact, hkey⟩
        · exact (hcomp.intent x hq r hr).1 hkey
      · rcases (mem_insert? hins).1 hx with hx | rfl
        · exact hid x hx
        · exact (hcomp.intent x hq r hr).2
    · refine ⟨hcomplete, ?_, fun x hx => ?_⟩
      · rintro ⟨x, hx, hxact, hkey⟩
        rcases mem_setRow_cases hmem (hrows ▸ hx) with ⟨hx, _⟩ | rfl
        · exact howns ⟨x, hx, hxact, hkey⟩
        · exact howns ⟨j, hmem, hact, hkey⟩
      · rcases mem_setRow_cases hmem (hrows ▸ hx) with ⟨hx, _⟩ | rfl
        · exact hid x hx
        · exact hid j hmem
  cases hs with
  | idle => exact .idle
  | inserted hvalid hfree => exact .inserted hvalid (intent _ rfl hfree)
  | guarded hi hact => exact .guarded (row _ rfl hi) hact
  | receipted hi hact hadm hfree =>
    exact .receipted (row _ rfl hi) hact hadm (receipt _ rfl hfree)
  | updatedReceipted hi hact hadm hfree hmove =>
    exact .updatedReceipted (row _ rfl hi) hact hadm (receipt _ rfl hfree) hmove
  | updated hi hact hallow hmove => exact .updated (row _ rfl hi) hact hallow hmove

/-! ## The invariant of a world -/

/-- A transaction that changes its own session only. -/
theorem WorldOk.set (hw : WorldOk w) (hs : SessionOk w.ledger s)
    (hcomp : ∀ (j : Nat) (t : Session), j ≠ k → w.sessions[j]? = some t → Compatible s t) :
    WorldOk { w with sessions := w.sessions.set k s } where
  session j t ht := by
    rcases getElem?_set_cases ht with ⟨_, rfl⟩ | ⟨_, ht⟩
    · exact hs
    · exact hw.session j t ht
  apart := hw.apart.set (fun _ _ h => h.symm) hcomp

/-- A session that locks, inserts and has received no more than before stays
compatible with the others. -/
theorem Compatible.mono {s' t : Session} (h : Compatible s t) (hlock : ∀ i ∈ s'.lock, i ∈ s.lock)
    (hintent : ∀ r ∈ s'.pendingIntent, r ∈ s.pendingIntent)
    (hreceipt : ∀ x ∈ s'.pendingReceipt, x ∈ s.pendingReceipt) : Compatible s' t where
  lock i hi := h.lock i (hlock i hi)
  intent r hr := h.intent r (hintent r hr)
  receipt x hx := h.receipt x (hreceipt x hx)

theorem mem_of_slot (h : w.sessions[k]? = some s) : s ∈ w.sessions :=
  mem_of_getElem? h

theorem moves_of_protect {i r : FirewallRuleIntent} {status error now}
    (h : protectFirewallRuleIntentSnapshot i (setStatus status error now i) = .ok r) :
    i.status = status ∨ i.status.moves status = true := by
  rw [protect_setStatus] at h
  by_contra hno
  rw [if_neg hno] at h
  cases h

theorem WorldOk.step {a : Action} (hw : WorldOk w) (h : exec w a = some w') : WorldOk w' := by
  cases a with
  | insertIntent k a id now =>
    simp only [exec] at h
    split at h
    · rename_i hk
      split at h
      · rename_i hcond
        cases h
        obtain ⟨hvalid, hins, hother⟩ := hcond
        refine hw.set (.inserted hvalid (insertIntent_isSome.1 hins)) fun j t _ ht => ?_
        refine ⟨fun i hi => (by cases hi), fun r hr q hq => ?_, fun x hx => (by cases hx)⟩
        cases hr
        exact ⟨(hother t (mem_of_slot ht) q hq).1.symm, (hother t (mem_of_slot ht) q hq).2.symm⟩
      · cases h
    · cases h
  | acquire k id =>
    simp only [exec] at h
    split at h
    · rename_i i hk hacq
      split at h
      · rename_i hother
        cases h
        obtain ⟨hi, hid, hact⟩ := acquire_spec hacq
        refine hw.set (.guarded hi hact) fun j t _ ht => ?_
        refine ⟨fun i' hi' q hq => ?_, fun r hr => (by cases hr), fun x hx => (by cases hx)⟩
        cases hi'
        exact hid ▸ (hother t (mem_of_slot ht) q hq).symm
      · cases h
    · cases h
  | insertReceipt k rw =>
    simp only [exec] at h
    split at h
    · rename_i i hk
      split at h
      · rename_i hcond
        cases h
        obtain ⟨hadm, hins, hother⟩ := hcond
        cases hw.session k _ hk with
        | guarded hi hact =>
          refine hw.set (.receipted hi hact hadm (insertReceipt_isSome.1 hins))
            fun j t hj ht => ?_
          have hcomp := hw.apart k j _ t hj.symm hk ht
          refine ⟨hcomp.lock, hcomp.intent, fun x hx q hq => ?_⟩
          cases hx
          exact (hother t (mem_of_slot ht) q hq).symm
      · cases h
    · cases h
  | updateReceipted k now =>
    simp only [exec] at h
    split at h
    · rename_i i rw hk
      split at h
      · rename_i hprot
        cases h
        cases hw.session k _ hk with
        | receipted hi hact hadm hfree =>
          refine hw.set (.updatedReceipted hi hact hadm hfree (moves_of_protect hprot))
            fun j t hj ht => ?_
          exact (hw.apart k j _ t hj.symm hk ht).mono (fun _ h => h) (fun _ h => h)
            (fun _ h => h)
      · cases h
    · cases h
  | update k status now =>
    simp only [exec] at h
    split at h
    · rename_i i hk
      split at h
      · rename_i hallow
        split at h
        · rename_i hprot
          cases h
          cases hw.session k _ hk with
          | guarded hi hact =>
            refine hw.set (.updated hi hact hallow (moves_of_protect hprot))
              fun j t hj ht => ?_
            exact (hw.apart k j _ t hj.symm hk ht).mono (fun _ h => h) (fun _ h => h)
              (fun _ h => h)
        · cases h
      · cases h
    · cases h
  | commit k _ =>
    simp only [exec] at h
    split at h
    · rename_i s hk
      obtain ⟨ledger, hcommit, rfl⟩ := map_eq_some_iff.1 h
      constructor
      · intro j t ht
        rcases getElem?_set_cases ht with ⟨_, rfl⟩ | ⟨hj, ht⟩
        · exact .idle
        · exact (hw.session k s hk).commit hcommit (hw.apart k j s t hj.symm hk ht)
            (hw.session j t ht)
      · exact hw.apart.set (fun _ _ h => h.symm) (fun _ t _ _ => compatible_idle t)
    · cases h
  | error k | crash k =>
    cases h
    exact hw.set .idle (fun _ t _ _ => compatible_idle t)

theorem worldOk_invariant : sessionSystem.Invariant WorldOk := by
  have hind : sessionSystem.Inductive WorldOk :=
    { init := by
        rintro w ⟨_, n, hn⟩
        constructor
        · intro k s hs
          rw [hn] at hs
          obtain ⟨_, rfl⟩ := mem_replicate.1 (mem_of_getElem? hs)
          exact .idle
        · rw [hn]
          exact apart_replicate (compatible_idle _) n
      step := fun _ _ _ hw hstep => hw.step hstep }
  exact hind.invariant

/-! ## A commit is its operation -/

theorem insertReceipt_of_free (h : ReceiptFree L x) :
    insertReceipt L x = (L.receipts.insert? x).map (fun receipts => { L with receipts }) := by
  unfold insertReceipt
  rw [if_neg]
  rintro ⟨y, hy, hsame⟩
  exact (h y hy).1 hsame

/-- The guard operation a receipt write belongs to. -/
def ReceiptWrite.op (i : FirewallRuleIntent) (now : Instant) : ReceiptWrite → LedgerOp
  | .apply input receipt => .finish i.id input receipt now
  | .rollback receipt => .rollback i.id receipt now

theorem acquire_of_mem {i : FirewallRuleIntent} (hi : i ∈ L.intents) (hact : i.status.active = true) :
    acquireFirewallRuleGuard L i.id = some i := by
  unfold acquireFirewallRuleGuard
  rw [get?_key hi]
  exact filter_eq_some_iff.2 ⟨rfl, hact⟩

/-- A commit leaves the ledger that the operation, run as a function of the
committed ledger, returns. -/
theorem commit_refines (hs : SessionOk L s) (h : commitWrites L s = some L') :
    ∃ op : LedgerOp, op.run L = .ok L' := by
  cases hs with
  | idle | guarded | receipted => cases h
  | @inserted a id now hvalid hfree =>
    refine ⟨.prepare a id now, ?_⟩
    show prepareFirewallRuleIntent L a id now = _
    unfold prepareFirewallRuleIntent insertIntent
    rw [if_pos hvalid, if_pos ⟨hfree.1, hfree.2.1⟩]
    rw [show (L.intents.insert? (preparedRow a id now)).map _ = some L' from h]
  | @updatedReceipted i w now hi hact hadm hfree hmove =>
    refine ⟨w.op i now, ?_⟩
    obtain ⟨receipts, hins, rfl⟩ := map_eq_some_iff.1 h
    have hrec : insertReceipt L (w.row i) = some { L with receipts } := by
      rw [insertReceipt_of_free hfree, hins]
      rfl
    have htrans : transition { L with receipts } i w.status now =
        .ok { L.setRow i.id w.status (transitionError w.status) now with receipts } := by
      rw [transition_spec (show i ∈ (Ledger.mk L.intents receipts).intents from hi)]
      exact ⟨hmove, rfl⟩
    cases w with
    | apply input receipt =>
      show withGuard L i.id _ = _
      unfold withGuard
      rw [acquire_of_mem hi hact]
      simp only [finish]
      rw [if_neg (by simpa [ReceiptWrite.admits] using hadm)]
      rw [show insertReceipt L (applyReceipt i input receipt) = _ from hrec]
      exact htrans
    | rollback receipt =>
      show withGuard L i.id _ = _
      unfold withGuard
      rw [acquire_of_mem hi hact]
      simp only [resolveRollback]
      rw [show insertReceipt L (rollbackReceipt i receipt) = _ from hrec]
      exact htrans
  | @updated i status now hi hact hallow hmove =>
    cases h
    have htrans : transition L i status now =
        .ok (L.setRow i.id status (transitionError status) now) :=
      (transition_spec hi).2 ⟨hmove, rfl⟩
    simp only [updateAllowed, Bool.or_eq_true, Bool.and_eq_true, decide_eq_true_eq] at hallow
    rcases hallow with rfl | ⟨rfl, hprep⟩
    · refine ⟨.recoveryRequired i.id now, ?_⟩
      show withGuard L i.id _ = _
      unfold withGuard
      rw [acquire_of_mem hi hact]
      have hmem : i.status ∈
          [IntentStatus.prepared, .completed, .recoveryRequired] := by
        revert hact
        cases i.status <;> decide
      simp only [if_pos hmem]
      exact htrans
    · refine ⟨.notApplied i.id now, ?_⟩
      show withGuard L i.id _ = _
      unfold withGuard
      rw [acquire_of_mem hi hact]
      have hmem : i.status ∈ [IntentStatus.prepared] :=
        mem_singleton.2 hprep
      simp only [if_pos hmem]
      exact htrans

/-- A step of the executor itself changes its own transaction only, unless it commits. -/
theorem exec_self {a : Action} (h : exec w a = some w') (ha : a.isCommit = false) :
    ∃ s, w' = { w with sessions := w.sessions.set a.executor s } := by
  cases a with
  | commit => cases ha
  | error | crash => cases h; exact ⟨_, rfl⟩
  | insertIntent | acquire | insertReceipt | updateReceipted =>
    simp only [exec] at h
    split at h
    · split at h <;> cases h
      exact ⟨_, rfl⟩
    · cases h
  | update =>
    simp only [exec] at h
    split at h
    · split at h
      · split at h <;> cases h
        exact ⟨_, rfl⟩
      · cases h
    · cases h

/-- A step of the sessions is a step of the ledger machine or leaves the ledger
alone. -/
theorem exec_refines {a : Action} (hw : WorldOk w) (h : exec w a = some w') :
    w'.ledger = w.ledger ∨ ∃ op : LedgerOp, op.run w.ledger = .ok w'.ledger := by
  cases a with
  | commit k _ =>
    simp only [exec] at h
    split at h
    · rename_i s hk
      obtain ⟨ledger, hcommit, rfl⟩ := map_eq_some_iff.1 h
      exact .inr (commit_refines (hw.session k s hk) hcommit)
    · cases h
  | _ =>
    obtain ⟨_, rfl⟩ := exec_self h rfl
    exact .inl rfl

/-! ## An operation that does not commit -/

/-- The world in which executor `k` has no open transaction. -/
def World.without (k : Nat) (w : World) : World :=
  { w with sessions := w.sessions.set k .idle }

theorem World.without_ledger (k : Nat) (w : World) : (w.without k).ledger = w.ledger := rfl

theorem World.without_of_idle (h : w.sessions[k]? = some .idle) : w.without k = w := by
  obtain ⟨hk, hidle⟩ := List.getElem?_eq_some_iff.1 h
  unfold World.without
  rw [← hidle, set_getElem_self]

/-- What holds of every session holds of every session of the world without one. -/
theorem World.forall_without {P : Session → Prop} (hidle : P .idle) (h : ∀ s ∈ w.sessions, P s) :
    ∀ s ∈ (w.without k).sessions, P s := by
  intro s hs
  rcases mem_or_eq_of_mem_set hs with hs | rfl
  · exact h s hs
  · exact hidle

/-- The others see no difference: an open transaction only ever refuses their steps. -/
theorem exec_without {a : Action} (hk : a.executor ≠ k) (h : exec w a = some w') :
    exec (w.without k) a = some (w'.without k) := by
  have hslot : (w.without k).sessions[a.executor]? = w.sessions[a.executor]? :=
    getElem?_set_of_ne hk
  have hset : ∀ s : Session,
      (w.sessions.set a.executor s).set k .idle = (w.without k).sessions.set a.executor s :=
    fun s => set_comm _ _ hk
  cases a with
  | insertIntent | insertReceipt =>
    simp only [Action.executor] at hslot hset
    simp only [exec, hslot] at h ⊢
    split at h
    · split at h
      · rename_i hcond
        cases h
        rw [if_pos ⟨hcond.1, hcond.2.1,
          World.forall_without (fun _ hr => by cases hr) hcond.2.2⟩]
        exact congrArg (fun l => some (World.mk w.ledger l)) (hset _).symm
      · cases h
    · cases h
  | acquire j id =>
    simp only [Action.executor] at hslot hset
    simp only [exec, hslot, World.without_ledger] at h ⊢
    split at h
    · split at h
      · rename_i hcond
        cases h
        rw [if_pos (World.forall_without (fun _ hr => by cases hr) hcond)]
        exact congrArg (fun l => some (World.mk w.ledger l)) (hset _).symm
      · cases h
    · cases h
  | updateReceipted j now =>
    simp only [Action.executor] at hslot hset
    simp only [exec, hslot] at h ⊢
    split at h
    · split at h
      · cases h
        exact congrArg (fun l => some (World.mk w.ledger l)) (hset _).symm
      · cases h
    · cases h
  | update j status now =>
    simp only [Action.executor] at hslot hset
    simp only [exec, hslot] at h ⊢
    split at h
    · split at h
      · rename_i hallow
        split at h
        · cases h
          rw [if_pos hallow]
          exact congrArg (fun l => some (World.mk w.ledger l)) (hset _).symm
        · cases h
      · cases h
    · cases h
  | commit j _ =>
    simp only [Action.executor] at hslot hset
    simp only [exec, hslot] at h ⊢
    split at h
    · obtain ⟨ledger, hcommit, rfl⟩ := map_eq_some_iff.1 h
      refine map_eq_some_iff.2 ⟨ledger, hcommit, ?_⟩
      exact congrArg (World.mk ledger) (hset _).symm
    · cases h
  | error j _ | crash j =>
    cases h
    exact congrArg (fun l => some (World.mk w.ledger l)) (hset _).symm

/-- A run in which an executor does not commit, without its steps. -/
theorem run_without {as : List Action} (hcommit : ∀ a ∈ as, a.executor = k → a.isCommit = false)
    (hrun : sessionSystem.Run w as w') :
    sessionSystem.Run (w.without k) (as.filter (fun a => a.executor ≠ k)) (w'.without k) := by
  refine hrun.erase (World.without k) (fun s a t hstep _ hkeep => ?_) fun s a t hstep ha hdrop => ?_
  · exact exec_without (of_decide_eq_true hkeep) hstep
  · have hk : a.executor = k := by simpa using hdrop
    obtain ⟨session, rfl⟩ := exec_self hstep (hcommit a ha hk)
    show World.mk _ ((s.sessions.set a.executor session).set k .idle) = _
    rw [hk, set_set]
    rfl

end Clawforge.RuleIntents

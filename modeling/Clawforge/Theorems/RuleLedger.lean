import Clawforge.Storage.RuleSessions

/-!
# The generation ledger under interleaved transactions

Every committed ledger of the session system is a ledger the machine of
operations reaches, so the one-step facts about `Change` lift to whole runs:
one active owner for each rule, immutable snapshots and one-way statuses, one
receipt of each kind, and no trace of an operation that did not commit. The
error of a COMMIT that took effect is the one error that leaves a trace.
-/

namespace Clawforge.RuleIntents

open Kit TSys List Option

variable {w w' : World} {as : List Action}

theorem step_ledgerOk {a : Action} (hw : WorldOk w) (hstep : sessionSystem.step w a w')
    (hL : LedgerOk w.ledger) : LedgerOk w'.ledger := by
  rcases exec_refines hw hstep with heq | ⟨op, hop⟩
  · rw [heq]
    exact hL
  · exact hL.change (LedgerOp.change hop)

theorem ledgerOk_invariant : sessionSystem.Invariant (fun w => LedgerOk w.ledger) := by
  refine worldOk_invariant.strengthen ?_ ?_
  · rintro w ⟨hempty, _⟩
    rw [hempty]
    exact ledgerOk_empty
  · exact fun w a w' _ hw hL hstep => step_ledgerOk hw hstep hL

/-- Every run evolves the ledger. -/
theorem run_evolves (hw : sessionSystem.Reachable w) (hrun : sessionSystem.Run w as w') :
    Evolves w.ledger w'.ledger := by
  refine hrun.relates (I := sessionSystem.Reachable)
    (R := fun w w' => Evolves w.ledger w'.ledger) (fun w => .refl _)
    (fun _ _ _ h h' => h.trans h') (fun _ _ _ h hstep => h.step hstep) ?_ hw
  intro s a t hs hstep
  rcases exec_refines (worldOk_invariant s hs) hstep with heq | ⟨op, hop⟩
  · rw [heq]
    exact .refl _
  · exact (LedgerOp.change hop).evolves

/-- A receipt of a stored generation repeats that generation's snapshot. -/
theorem LedgerOk.receiptOf {L : Ledger} (hL : LedgerOk L) {x : FirewallActionReceipt}
    {i : FirewallRuleIntent} (hx : x ∈ L.receipts) (hi : i ∈ L.intents)
    (hid : x.intentId = i.id) : ReceiptOf x i.snapshot := by
  obtain ⟨j, hj, hof⟩ := hL.bound x hx
  have hji : j = i := Table.eq_of_key_eq hj hi (hof.intent.symm.trans hid)
  exact hji ▸ hof

/-- One operation of executor `k`, from its first statement to `last`, among any steps of the
others. -/
structure Operation (k : Nat) (w : World) (as : List Action) (last : Action) : Prop where
  begins : w.sessions[k]? = some .idle
  running : ∀ a ∈ as, a.executor = k → a.ends = false
  executor : last.executor = k
  ends : last.ends = true

theorem Action.ends_of_isCommit {a : Action} (h : a.isCommit = true) : a.ends = true := by
  cases a <;> first | rfl | cases h

/-- The step that ends an operation leaves its executor idle. -/
theorem idle_of_ends {a : Action} (hlt : a.executor < w.sessions.length)
    (ha : a.ends = true) (hstep : sessionSystem.step w a w') :
    w'.sessions[a.executor]? = some .idle := by
  have hset : (w.sessions.set a.executor .idle)[a.executor]? = some .idle :=
    getElem?_set_self hlt
  have hstep : exec w a = some w' := hstep
  cases a with
  | insertIntent | acquire | insertReceipt | updateReceipted | update => cases ha
  | error | crash => cases hstep; exact hset
  | commit k lost =>
    simp only [exec] at hstep
    split at hstep
    · obtain ⟨ledger, -, rfl⟩ := map_eq_some_iff.1 hstep
      exact hset
    · cases hstep

theorem run_length (hrun : sessionSystem.Run w as w') : w'.sessions.length = w.sessions.length := by
  refine hrun.preserves (I := fun v => v.sessions.length = w.sessions.length) ?_ rfl
  intro s a t hs hstep
  refine Eq.trans ?_ hs
  have hstep : exec s a = some t := hstep
  cases ha : a.isCommit with
  | false =>
    obtain ⟨_, rfl⟩ := exec_self hstep ha
    exact length_set
  | true =>
    cases a with
    | commit k lost =>
      simp only [exec] at hstep
      split at hstep
      · obtain ⟨ledger, -, rfl⟩ := map_eq_some_iff.1 hstep
        exact length_set
      · cases hstep
    | _ => cases ha

/-- An operation that ends without a COMMIT might as well not have run. -/
theorem Operation.traceless {last : Action} {k : Nat} (hop : Operation k w as last)
    (hlast : last.isCommit = false) (hrun : sessionSystem.Run w (as ++ [last]) w') :
    sessionSystem.Run w (as.filter (fun a => a.executor ≠ k)) w' := by
  obtain ⟨u, hfirst, hend⟩ := hrun.of_append
  have hidle : w'.sessions[k]? = some .idle := by
    have hlen := (List.getElem?_eq_some_iff.1 hop.begins).1
    cases hend with
    | cons hstep hnil =>
      cases hnil
      have hlt : last.executor < u.sessions.length := by
        rw [run_length hfirst, hop.executor]
        exact hlen
      exact hop.executor ▸ idle_of_ends hlt hop.ends hstep
  have hwithout := run_without (k := k) (fun a ha hk => by
    rcases mem_append.1 ha with ha | ha
    · have hrunning := hop.running a ha hk
      cases hcommit : a.isCommit with
      | false => rfl
      | true => exact absurd (Action.ends_of_isCommit hcommit) (by rw [hrunning]; decide)
    · rw [mem_singleton.1 ha]
      exact hlast) hrun
  rw [World.without_of_idle hop.begins, World.without_of_idle hidle, filter_append,
    filter_cons_of_neg (by simp [hop.executor]), filter_nil, append_nil] at hwithout
  exact hwithout

def sampleArgs : PrepareArgs where
  executionId := 1
  adapter := "nftables"
  actionName := "nftables.block_indicator"
  ruleScope := "blocklist"
  ruleFingerprint := "203.0.113.7/32"
  targetJson := .object []
  preflightState := .object []
  rollbackPlan := .object []
  ttlSeconds := 3600

def sampleInput : FirewallActionReceiptInput where
  executionId := some 1
  adapter := "nftables"
  actionName := "nftables.block_indicator"
  preflightState := .object []
  renderedCommands := .array []
  observedState := none
  verificationResult := some .verified
  ttlSeconds := 3600
  rollbackPlan := .object []
  isDryRun := false
  receiptKind := .apply
  targetFingerprint := some "203.0.113.7/32"
  targetJson := some (.object [])

/-- Two executors: one prepares and finishes, the answer to its second COMMIT being lost,
the other rolls the generation back. -/
def sampleRun : List Action :=
  [ .insertIntent 0 sampleArgs 10 0, .commit 0 none
  , .acquire 0 10, .insertReceipt 0 (.apply sampleInput 20)
  , .updateReceipted 0 5, .commit 0 (some "connection reset")
  , .acquire 1 10, .insertReceipt 1 (.rollback 21), .updateReceipted 1 9, .commit 1 none ]

def twoExecutors : World := ⟨.empty, List.replicate 2 .idle⟩

def afterSampleRun : World := (execAll exec twoExecutors sampleRun).get (by decide)

theorem afterSampleRun_reachable : sessionSystem.Reachable afterSampleRun :=
  ⟨twoExecutors, sampleRun, ⟨rfl, 2, rfl⟩, run_of_execAll _ _ (some_get _).symm⟩

/-- The other executor starts a rollback and loses its connection, while the first finishes. -/
def failedRun : List Action :=
  [ .acquire 1 10, .insertReceipt 1 (.rollback 21), .updateReceipted 1 3 ]

def prepared : World :=
  (execAll exec twoExecutors [.insertIntent 0 sampleArgs 10 0, .commit 0 none]).get (by decide)

theorem prepared_reachable : sessionSystem.Reachable prepared :=
  ⟨twoExecutors, _, ⟨rfl, 2, rfl⟩, run_of_execAll _ _ (some_get _).symm⟩

end Clawforge.RuleIntents

import Clawforge.Storage.Inflight
import Mathlib

/-!
# The in-flight budget is a hard bound

A transaction counts against its own start, which is earlier than any instant at which its row
is seen: what is young then was counted. Nothing is reserved for the adapter between the count
and the commit, since the lock is held throughout. So no instant sees more than the maximum of
young reservations, however long transactions wait.
-/

namespace Clawforge.Inflight

open Kit TSys List Option

variable {hashtext : String → Int} {L : Limits} {rows : List OperationRow} {row : OperationRow}
  {s : Session}

/-! ## Counting -/

theorem operationCount_mono (rows : List OperationRow) {earlier later : Instant}
    (h : earlier ≤ later) (adapter : String) :
    operationCount L rows later adapter ≤ operationCount L rows earlier adapter := by
  unfold operationCount
  rw [← countP_eq_length_filter, ← countP_eq_length_filter]
  apply countP_mono_left
  intro row _ hyoung
  unfold young at hyoung ⊢
  simp only [Bool.and_eq_true, decide_eq_true_eq] at hyoung ⊢
  have hnow : (earlier : Int) ≤ later := Int.ofNat_le.2 h
  exact ⟨hyoung.1, by omega⟩

theorem operationCount_sublist {rows' : List OperationRow} (h : rows.Sublist rows') (now : Instant)
    (adapter : String) : operationCount L rows now adapter ≤ operationCount L rows' now adapter :=
  (h.filter _).length_le

theorem operationCount_snoc (rows : List OperationRow) (row : OperationRow) (now : Instant)
    (adapter : String) : operationCount L (rows ++ [row]) now adapter =
      operationCount L rows now adapter + if young L now adapter row then 1 else 0 := by
  unfold operationCount
  rw [filter_append, length_append]
  cases hyoung : young L now adapter row <;> simp [hyoung]

/-- A row of another adapter does not count. -/
theorem operationCount_snoc_other {now : Instant} {adapter : String} (h : row.adapter ≠ adapter) :
    operationCount L (rows ++ [row]) now adapter = operationCount L rows now adapter := by
  rw [operationCount_snoc]
  simp [young, h]

/-! ## The invariant -/

/-- Two transactions do not hold the lock of one adapter. -/
def Exclusive (s t : Session) : Prop :=
  ∀ a ∈ s.held, ∀ b ∈ t.held, a ≠ b

theorem Exclusive.symm {t : Session} (h : Exclusive s t) : Exclusive t s :=
  fun b hb a ha hab => h a ha b hb hab.symm

/-- An admitted transaction has counted fewer than the maximum, and still would. -/
def Below (L : Limits) (rows : List OperationRow) : Session → Prop
  | .admitted start adapter _ => (operationCount L rows start adapter : Int) < L.max
  | _ => True

/-- The clock is past every start, the locks exclude each other, the counts still hold and no
adapter is over its budget. -/
structure Bounded (L : Limits) (w : World) : Prop where
  started : ∀ s ∈ w.sessions, ∀ start ∈ s.start?, start ≤ w.now
  exclusive : Apart Exclusive w.sessions
  below : ∀ s ∈ w.sessions, Below L w.operations.rows s
  bound : ∀ adapter, (operationCount L w.operations.rows w.now adapter : Int) ≤ L.max

theorem bounded_init {w : World} (h : Initial w) : Bounded L w := by
  obtain ⟨hempty, n, hsessions⟩ := h
  have idle : ∀ s ∈ w.sessions, s = .idle := by
    intro s hs
    rw [hsessions] at hs
    exact eq_of_mem_replicate hs
  constructor
  case started =>
    intro s hs start hstart
    rw [idle s hs] at hstart
    cases hstart
  case exclusive =>
    rw [hsessions]
    exact apart_replicate (fun a ha => nomatch ha) n
  case below =>
    intro s hs
    rw [idle s hs]
    trivial
  case bound =>
    intro adapter
    rw [hempty]
    exact le_of_lt L.max_pos

/-- A slot may be overwritten by a transaction that has started, whose lock nobody else holds
and whose count is right. -/
theorem Bounded.set {w : World} (h : Bounded L w) {k : Nat}
    (hstart : ∀ start ∈ s.start?, start ≤ w.now)
    (hlock : ∀ j t, j ≠ k → w.sessions[j]? = some t → Exclusive s t)
    (hbelow : Below L w.operations.rows s) :
    Bounded L { w with sessions := w.sessions.set k s } := by
  have hset : ∀ t ∈ w.sessions.set k s, t ∈ w.sessions ∨ t = s :=
    fun t ht => mem_or_eq_of_mem_set ht
  constructor
  case started =>
    intro t ht
    rcases hset t ht with hmem | rfl
    · exact h.started t hmem
    · exact hstart
  case exclusive => exact h.exclusive.set (fun _ _ => Exclusive.symm) hlock
  case below =>
    intro t ht
    rcases hset t ht with hmem | rfl
    · exact h.below t hmem
    · exact hbelow
  case bound => exact h.bound

theorem Bounded.idle {w : World} (h : Bounded L w) (k : Nat) :
    Bounded L { w with sessions := w.sessions.set k .idle } :=
  h.set (fun _ hs => nomatch hs) (fun _ _ _ _ _ ha => nomatch ha) trivial

/-! ## One step -/

variable {w w' : World} {k : Nat}

section

variable (h : Bounded L w)
include h

/-- Reservations grow no younger. -/
theorem Bounded.tick (micros : Nat) : Bounded L { w with now := w.now + micros } := by
  constructor
  case started => exact fun s hs start hstart => (h.started s hs start hstart).trans (by simp)
  case exclusive => exact h.exclusive
  case below => exact h.below
  case bound =>
    intro adapter
    have hle := operationCount_mono (L := L) w.operations.rows
      (show w.now ≤ w.now + micros by simp) adapter
    have hbound := h.bound adapter
    show (operationCount L w.operations.rows (w.now + micros) adapter : Int) ≤ L.max
    omega

/-- The lock of a session that keeps it keeps others out. -/
theorem Bounded.keeps {t : Session} (hk : w.sessions[k]? = some s) (hheld : t.held = s.held) :
    ∀ j u, j ≠ k → w.sessions[j]? = some u → Exclusive t u := by
  intro j u hj hu a ha
  rw [hheld] at ha
  exact h.exclusive k j s u hj.symm hk hu a ha

theorem Bounded.lock (hstep : exec hashtext L w (.lock k) = some w') : Bounded L w' := by
  obtain ⟨start, adapter, executionId, hk, hfree, rfl⟩ := lock_eq_some hstep
  have hmem := mem_of_getElem? hk
  refine h.set (h.started (.waiting start adapter executionId) hmem)
    (fun j t _ ht a ha b hb hab => ?_) trivial
  -- the same adapter hashes to the same key
  have hother := List.all_eq_true.1 hfree t (mem_of_getElem? ht)
  rw [Option.mem_def.1 hb] at hother
  rw [← some.inj ha] at hab
  simp [hab] at hother

theorem Bounded.count (hstep : exec hashtext L w (.count k) = some w') : Bounded L w' := by
  obtain ⟨start, adapter, executionId, hk, hw⟩ := count_eq_some hstep
  rcases hw with rfl | ⟨hbelow, rfl⟩
  · exact h.idle k
  · exact h.set (h.started (.locked start adapter executionId) (mem_of_getElem? hk))
      (h.keeps hk rfl) hbelow

/-- The row of a commit is the last that its adapter had room for. -/
theorem Bounded.commit {id : Uuid} (hstep : exec hashtext L w (.commit k id) = some w') :
    Bounded L w' := by
  obtain ⟨start, adapter, executionId, T, hk, hT, rfl⟩ := commit_eq_some hstep
  have hmem := mem_of_getElem? hk
  have hrows : T.rows = w.operations.rows ++ [reservation start adapter executionId id] :=
    Table.rows_insert? hT
  have hstarted : start ≤ w.now := h.started _ hmem start rfl
  have hadmitted : (operationCount L w.operations.rows start adapter : Int) < L.max :=
    h.below _ hmem
  constructor
  case started => exact (h.idle k).started
  case exclusive => exact (h.idle k).exclusive
  case below =>
    intro s hs
    obtain ⟨j, hj⟩ := mem_iff_getElem?.1 hs
    rcases getElem?_set_cases hj with ⟨-, rfl⟩ | ⟨hne, hj⟩
    · trivial
    · cases s with
      | idle | waiting | locked => trivial
      | admitted start' other e =>
        have hother : adapter ≠ other := h.exclusive k j _ _ hne.symm hk hj adapter rfl other rfl
        show (operationCount L T.rows start' other : Int) < L.max
        rw [hrows, operationCount_snoc_other hother]
        exact h.below _ (mem_of_getElem? hj)
  case bound =>
    intro other
    show (operationCount L T.rows w.now other : Int) ≤ L.max
    rw [hrows]
    by_cases hsame : adapter = other
    · subst hsame
      have hmono := operationCount_mono (L := L) w.operations.rows hstarted adapter
      rw [operationCount_snoc]
      split <;> omega
    · rw [operationCount_snoc_other hsame]
      exact h.bound other

theorem Bounded.finish (id : Uuid) :
    Bounded L { w with operations := w.operations.deleteWhere (fun row => row.id = id) } := by
  have hless := fun now adapter => operationCount_sublist (L := L)
    (show (w.operations.deleteWhere (fun row => row.id = id)).rows.Sublist w.operations.rows from
      filter_sublist) now adapter
  constructor
  case started => exact h.started
  case exclusive => exact h.exclusive
  case below =>
    intro s hs
    have hbelow := h.below s hs
    cases s with
    | idle | waiting | locked => trivial
    | admitted start adapter e =>
      have hle := hless start adapter
      unfold Below at hbelow ⊢
      dsimp only at hbelow ⊢
      omega
  case bound =>
    intro adapter
    have hle := hless w.now adapter
    have hbound := h.bound adapter
    dsimp only
    omega

theorem Bounded.step {a : Action} (hstep : exec hashtext L w a = some w') : Bounded L w' := by
  cases a with
  | tick micros =>
    cases hstep
    exact h.tick micros
  | start k adapter executionId =>
    obtain ⟨-, rfl⟩ := start_eq_some hstep
    refine h.set (fun start hstart => ?_) (fun _ _ _ _ _ ha => nomatch ha) trivial
    exact le_of_eq (some.inj hstart).symm
  | lock k => exact h.lock hstep
  | count k => exact h.count hstep
  | commit k id => exact h.commit hstep
  | abort k =>
    cases hstep
    exact h.idle k
  | finish id =>
    cases hstep
    exact h.finish id

end

theorem invariant_bounded : (inflightSystem hashtext L).Invariant (Bounded L) :=
  Inductive.invariant
    { init := fun _ h => bounded_init h
      step := fun _ _ _ h hstep => h.step hstep }

/-! ## Reserving again -/

/-- A reservation that is released, or too old from now on. -/
inductive Frees (L : Limits) (w : World) (row : OperationRow) : Action → Prop
  | released : Frees L w row (.finish row.id)
  | aged (micros : Nat) : young L (w.now + micros) row.adapter row = false →
      Frees L w row (.tick micros)

/-- Whoever begins now and finds the lock free gets a slot that counts. -/
def Reservable (hashtext : String → Int) (L : Limits) (w : World) (adapter : String) : Prop :=
  ∀ k executionId id, w.sessions[k]? = some .idle → lockFree hashtext w adapter = true →
    (∀ row ∈ w.operations, row.id ≠ id) →
    ∃ w', execAll (exec hashtext L) w
        [.start k adapter executionId, .lock k, .count k, .commit k id] = some w' ∧
      reservation w.now adapter executionId id ∈ w'.operations ∧
      young L w'.now adapter (reservation w.now adapter executionId id) = true

/-- Rows that all count still, but for one of them. -/
theorem length_filter_lt {p q : OperationRow → Bool} (hle : ∀ row, q row = true → p row = true)
    (hmem : row ∈ rows) (hp : p row = true) (hq : q row = false) :
    (rows.filter q).length < (rows.filter p).length := by
  have hsame : rows.filter q = (rows.filter p).filter q := by
    rw [List.filter_filter]
    apply filter_congr
    intro x _
    cases hx : q x with
    | false => rfl
    | true => simp [hle x hx]
  rw [hsame, length_filter_lt_length_iff_exists]
  exact ⟨row, mem_filter.2 ⟨hmem, hp⟩, by simp [hq]⟩

theorem Bounded.frees (h : Bounded L w) (hrow : row ∈ w.operations)
    (hyoung : young L w.now row.adapter row = true) {a : Action} (ha : Frees L w row a)
    (hstep : exec hashtext L w a = some w') :
    (operationCount L w'.operations.rows w'.now row.adapter : Int) < L.max := by
  have hbound := h.bound row.adapter
  cases ha with
  | released =>
    cases hstep
    have hless : ((w.operations.rows.filter (fun x => ¬ x.id = row.id)).filter
        (young L w.now row.adapter)).length < operationCount L w.operations.rows w.now row.adapter := by
      rw [List.filter_filter]
      refine length_filter_lt (fun x hx => (Bool.and_eq_true_iff.1 hx).1) hrow hyoung ?_
      simp
    show (((w.operations.rows.filter (fun x => ¬ x.id = row.id)).filter
      (young L w.now row.adapter)).length : Int) < L.max
    omega
  | aged micros hold =>
    cases hstep
    have hless : operationCount L w.operations.rows (w.now + micros) row.adapter <
        operationCount L w.operations.rows w.now row.adapter := by
      apply length_filter_lt _ hrow hyoung hold
      intro x hx
      unfold young at hx ⊢
      simp only [Bool.and_eq_true, decide_eq_true_eq] at hx ⊢
      have hnow : (w.now : Int) ≤ (w.now + micros : Nat) := by omega
      exact ⟨hx.1, by omega⟩
    show (operationCount L w.operations.rows (w.now + micros) row.adapter : Int) < L.max
    omega

/-- Below the maximum the four steps of a reservation go through. -/
theorem reservable_of_lt {adapter : String}
    (h : (operationCount L w.operations.rows w.now adapter : Int) < L.max) :
    Reservable hashtext L w adapter := by
  intro k executionId id hk hfree hid
  obtain ⟨T, hT⟩ := isSome_iff_exists.1 (Table.insert?_isSome.2
    (show ∀ row ∈ w.operations, row.id ≠ (reservation w.now adapter executionId id).id from hid))
  have hlength : k < w.sessions.length := (List.getElem?_eq_some_iff.1 hk).1
  -- a transaction that waits holds no lock
  have hfree' : lockFree hashtext
      { w with sessions := w.sessions.set k (.waiting w.now adapter executionId) } adapter =
        true := by
    unfold lockFree at hfree ⊢
    rw [List.all_eq_true] at hfree ⊢
    intro s hs
    rcases mem_or_eq_of_mem_set hs with hs | rfl
    · exact hfree s hs
    · rfl
  refine ⟨{ w with operations := T, sessions := w.sessions.set k .idle }, ?_,
    (Table.mem_insert? hT).2 (Or.inr rfl), ?_⟩
  · have hstart : exec hashtext L w (.start k adapter executionId) = some
        { w with sessions := w.sessions.set k (.waiting w.now adapter executionId) } := by
      simp only [exec, hk]
    have hlock : exec hashtext L
        { w with sessions := w.sessions.set k (.waiting w.now adapter executionId) } (.lock k) = some
        { w with sessions := w.sessions.set k (.locked w.now adapter executionId) } := by
      simp only [exec, getElem?_set_self hlength, if_pos hfree', set_set]
    have hcount : exec hashtext L
        { w with sessions := w.sessions.set k (.locked w.now adapter executionId) } (.count k) = some
        { w with sessions := w.sessions.set k (.admitted w.now adapter executionId) } := by
      simp only [exec, getElem?_set_self hlength, if_neg (Int.not_le.2 h), set_set]
    have hcommit : exec hashtext L
        { w with sessions := w.sessions.set k (.admitted w.now adapter executionId) }
        (.commit k id) = some { w with operations := T, sessions := w.sessions.set k .idle } := by
      simp only [exec, getElem?_set_self hlength, hT, map_some, set_set]
    simp only [execAll, hstart, hlock, hcount, hcommit, bind_some]
  · have hpos := L.stale_pos
    have hnow : (w.now : Int) - L.staleAfterSeconds * 1000000 < w.now := by omega
    simp only [young, reservation, decide_true, Bool.true_and]
    exact decide_eq_true hnow

/-! ## Every run -/

/-- In every state reached, an adapter has at most the maximum of young reservations; and once
one of them is released or too old, its slot can be reserved again. -/
theorem inflight_budget (hashtext : String → Int) (L : Limits) :
    (inflightSystem hashtext L).Invariant (fun w => ∀ adapter,
      (operationCount L w.operations.rows w.now adapter : Int) ≤ L.max) ∧
    ∀ w, (inflightSystem hashtext L).Reachable w → ∀ row ∈ w.operations,
      young L w.now row.adapter row = true → ∀ a w', Frees L w row a →
        exec hashtext L w a = some w' → Reservable hashtext L w' row.adapter := by
  refine ⟨fun w hw => (invariant_bounded w hw).bound, ?_⟩
  intro w hw row hrow hyoung a w' ha hstep
  exact reservable_of_lt ((invariant_bounded w hw).frees hrow hyoung ha hstep)

def oneAtATime : Limits := ⟨1, 600, by decide, by decide⟩

/-- The only slot of an adapter is taken and released. -/
theorem inflight_slot_again : ∃ w,
    (inflightSystem (fun _ => 0) oneAtATime).Reachable w ∧
      operationCount oneAtATime w.operations.rows w.now "nftables" = 1 ∧
      ∀ w', exec (fun _ => 0) oneAtATime w (.finish 7) = some w' →
        Reservable (fun _ => 0) oneAtATime w' "nftables" := by
  let s₀ : World := ⟨1000000000, Table.empty _, [.idle, .idle]⟩
  let row : OperationRow := ⟨7, "nftables", none, 1000000000⟩
  let actions : List Action := [.start 0 "nftables" none, .start 1 "nftables" none, .lock 0,
    .tick 1000000, .count 0, .commit 0 7, .lock 1, .count 1]
  have hrun : (execAll (exec (fun _ => 0) oneAtATime) s₀ actions).map
      (fun w => (w.now, w.operations.rows)) = some (1001000000, [row]) := by decide_cbv
  obtain ⟨w, hw, hstate⟩ := map_eq_some_iff.1 hrun
  obtain ⟨hnow, hrows⟩ := Prod.mk.inj hstate
  have hreach : (inflightSystem (fun _ => 0) oneAtATime).Reachable w :=
    ⟨s₀, actions, ⟨rfl, 2, rfl⟩, run_of_execAll Initial _ hw⟩
  have hrow : row ∈ w.operations := by
    rw [Table.mem_def, hrows]
    exact mem_singleton_self row
  refine ⟨w, hreach, by rw [hrows, hnow]; decide, fun w' hstep => ?_⟩
  exact (inflight_budget (fun _ => 0) oneAtATime).2 w hreach row hrow
    (by rw [hnow]; decide) _ w' .released hstep

end Clawforge.Inflight

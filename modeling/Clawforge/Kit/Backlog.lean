import Mathlib.Data.List.Basic
import Mathlib.Order.Lattice

/-!
# Retry queues behind a checkpoint

A sender holds the items it has read in a queue, settles them from the front, and
saves a mark: on the next start reading goes on from there, so an item before the
mark that was never settled is lost. Each item has a place, and a bound: the mark
that is saved when the item is the last one settled.

`Safe` is what the mark promises. It is kept because the queue is `Covered`: what
lies before the bound of an item is settled, or stands no later in the queue. The
queue need not be sorted, and an item may stand in it twice.
-/

namespace Kit

open List

variable {ε τ : Type}

/-- What was read, what is settled, what is held, and the mark. -/
structure Backlog (ε τ : Type) where
  read : List ε
  settled : List ε
  queue : List ε
  mark : Option τ

namespace Backlog

/-! ## Operations -/

/-- An item is read, and held at the end of the queue. -/
def push (b : Backlog ε τ) (e : ε) : Backlog ε τ :=
  { b with read := e :: b.read, queue := b.queue ++ [e] }

/-- The first `n` items are let go. -/
def release (b : Backlog ε τ) (n : Nat) : Backlog ε τ := { b with queue := b.queue.drop n }

def setMark (b : Backlog ε τ) (m : τ) : Backlog ε τ := { b with mark := some m }

/-- What is held is lost. -/
def forget (b : Backlog ε τ) : Backlog ε τ := { b with queue := [] }

/-! ## What is held -/

/-- Everything read is settled or held. -/
def Held (b : Backlog ε τ) : Prop := ∀ e ∈ b.read, e ∈ b.settled ∨ e ∈ b.queue

variable {b : Backlog ε τ}

theorem Held.push {e : ε} (h : b.Held) : (b.push e).Held := by
  intro x hx
  rcases mem_cons.1 hx with rfl | hx
  · exact .inr mem_concat_self
  · rcases h x hx with hs | hq
    · exact .inl hs
    · exact .inr (mem_append_left _ hq)

theorem Held.mono {b' : Backlog ε τ} (h : b.Held) (hread : b'.read = b.read)
    (hqueue : b'.queue = b.queue) (hsettled : ∀ x ∈ b.settled, x ∈ b'.settled) : b'.Held := by
  intro x hx
  rcases h x (hread ▸ hx) with hs | hq
  · exact .inl (hsettled x hs)
  · exact .inr (hqueue ▸ hq)

theorem Held.release {n : Nat} (h : b.Held) (hn : ∀ q ∈ b.queue.take n, q ∈ b.settled) :
    (b.release n).Held := by
  intro x hx
  rcases h x hx with hs | hq
  · exact .inl hs
  · rw [← take_append_drop n b.queue] at hq
    rcases mem_append.1 hq with hfront | hrest
    · exact .inl (hn x hfront)
    · exact .inr hrest

/-! ## What the mark promises -/

variable [LinearOrder τ] (place bound : ε → τ)

/-- Everything read before the mark is settled. -/
def Safe (b : Backlog ε τ) : Prop :=
  ∀ m ∈ b.mark, ∀ e ∈ b.read, place e < m → e ∈ b.settled

/-- What was read before the bound of a held item is settled, or held no later. -/
def Covered (b : Backlog ε τ) : Prop :=
  ∀ pre q post, b.queue = pre ++ q :: post →
    ∀ e ∈ b.read, place e < bound q → e ∈ b.settled ∨ e ∈ pre ∨ e = q

variable {place bound}

theorem Safe.push {e : ε} (h : b.Safe place) (he : ∀ m ∈ b.mark, place e < m → e ∈ b.settled) :
    (b.push e).Safe place := by
  intro m hm x hx hlt
  rcases mem_cons.1 hx with rfl | hx
  · exact he m hm hlt
  · exact h m hm x hx hlt

/-- An item may be read where nothing held reaches beyond it, unless it was read
before; what lies before its own bound must be settled or held. -/
theorem Covered.push {e : ε} (h : b.Covered place bound)
    (hnew : e ∈ b.read ∨ ∀ q ∈ b.queue, bound q ≤ place e)
    (hheld : ∀ x ∈ b.read, place x < bound e → x ∈ b.settled ∨ x ∈ b.queue ∨ x = e) :
    (b.push e).Covered place bound := by
  intro pre q post hsplit x hx hlt
  rcases append_eq_append_iff.1 hsplit with ⟨rest, hpre, hrest⟩ | ⟨rest, hqueue, hrest⟩
  · -- the new item is `q`
    cases rest with
    | nil =>
      rw [nil_append] at hrest
      obtain ⟨rfl, rfl⟩ := cons.inj hrest
      rw [append_nil] at hpre
      rcases mem_cons.1 hx with rfl | hx
      · exact .inr (.inr rfl)
      · rcases hheld x hx hlt with hs | hq | heq
        · exact .inl hs
        · exact .inr (.inl (hpre ▸ hq))
        · exact .inr (.inr heq)
    | cons y rest =>
      have hlen := congrArg List.length hrest
      simp only [length_cons, length_nil, length_append] at hlen
      omega
  · -- `q` was held before
    cases rest with
    | nil =>
      rw [nil_append] at hrest
      obtain ⟨rfl, rfl⟩ := cons.inj hrest
      rw [append_nil] at hqueue
      rcases mem_cons.1 hx with rfl | hx
      · exact .inr (.inr rfl)
      · rcases hheld x hx hlt with hs | hq | heq
        · exact .inl hs
        · exact .inr (.inl (hqueue ▸ hq))
        · exact .inr (.inr heq)
    | cons y rest =>
      obtain ⟨rfl, _⟩ := cons.inj hrest
      have hmem : q ∈ b.queue := by
        rw [hqueue]
        exact mem_append_right _ mem_cons_self
      rcases mem_cons.1 hx with rfl | hx
      · rcases hnew with hread | hbeyond
        · exact h pre q rest hqueue x hread hlt
        · exact absurd (hbeyond q hmem) (not_le.2 hlt)
      · exact h pre q rest hqueue x hx hlt

/-- More may be settled. -/
theorem Safe.mono {b' : Backlog ε τ} (h : b.Safe place) (hread : b'.read = b.read)
    (hmark : b'.mark = b.mark) (hsettled : ∀ x ∈ b.settled, x ∈ b'.settled) :
    b'.Safe place :=
  fun m hm x hx hlt => hsettled x (h m (hmark ▸ hm) x (hread ▸ hx) hlt)

theorem Covered.mono {b' : Backlog ε τ} (h : b.Covered place bound) (hread : b'.read = b.read)
    (hqueue : b'.queue = b.queue) (hsettled : ∀ x ∈ b.settled, x ∈ b'.settled) :
    b'.Covered place bound := by
  intro pre q post hsplit x hx hlt
  rcases h pre q post (hqueue ▸ hsplit) x (hread ▸ hx) hlt with hs | hq
  · exact .inl (hsettled x hs)
  · exact .inr hq

/-- Settled items may be let go. -/
theorem Covered.release {n : Nat} (h : b.Covered place bound)
    (hn : ∀ q ∈ b.queue.take n, q ∈ b.settled) : (b.release n).Covered place bound := by
  intro pre q post hsplit x hx hlt
  have hqueue : b.queue = (b.queue.take n ++ pre) ++ q :: post := by
    rw [append_assoc, ← hsplit]
    exact (take_append_drop n b.queue).symm
  rcases h _ q post hqueue x hx hlt with hs | hpre | rfl
  · exact .inl hs
  · rcases mem_append.1 hpre with hfront | hpre
    · exact .inl (hn x hfront)
    · exact .inr (.inl hpre)
  · exact .inr (.inr rfl)

/-- The bound of the last of the settled items in front may be saved. -/
theorem Covered.setMark {pre post : List ε} {q : ε} (h : b.Covered place bound)
    (hqueue : b.queue = pre ++ q :: post) (hq : q ∈ b.settled) (hpre : ∀ x ∈ pre, x ∈ b.settled) :
    (b.setMark (bound q)).Safe place := by
  rintro m ⟨⟩ x hx hlt
  rcases h pre q post hqueue x hx hlt with hs | hx | rfl
  · exact hs
  · exact hpre x hx
  · exact hq

theorem covered_forget : b.forget.Covered place bound := by
  intro pre q post hsplit
  cases pre <;> cases hsplit

end Backlog

end Kit

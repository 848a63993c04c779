import Mathlib.Data.List.Basic

/-!
# Programs that call their environment

A program is a tree of calls, each with a continuation for every answer. What
a program can do is read off the tree:

* `Exec` is a complete execution: the answered calls and the result, and `ExecOn` is
  one against an environment that has a state;
* `Uses` bounds the calls a program can make, whatever it is answered;
* `Guided` is the typestate rule. A state is advanced by every answered call, a
  call is admitted only in some states, and the result is judged in the state
  reached. It is closed under `bind`, and it speaks of every prefix of an
  execution, so of a program that is stopped anywhere.
-/

namespace Kit

open List

/-- A program over the calls `C`, answered in `A`. -/
inductive Prog {C : Type} (A : C → Type) (α : Type) : Type
  | pure (a : α)
  | call (c : C) (k : A c → Prog A α)

namespace Prog

variable {C : Type} {A : C → Type} {α β ε : Type} {f : α → ExceptT ε (Prog A) β}
  {x : ExceptT ε (Prog A) α} {p : Prog A α}

def bind : Prog A α → (α → Prog A β) → Prog A β
  | .pure a, f => f a
  | .call c k, f => .call c fun ans => (k ans).bind f

instance : Monad (Prog A) where
  pure := .pure
  bind := Prog.bind

/-- The program that makes one call and returns its answer. -/
def request (c : C) : Prog A (A c) := .call c .pure

/-- The rest of a program that may fail, after a part that may fail. -/
def orFail (f : α → Prog A (Except ε β)) : Except ε α → Prog A (Except ε β)
  | .ok a => f a
  | .error e => .pure (.error e)

theorem except_bind_eq (x : ExceptT ε (Prog A) α) (f : α → ExceptT ε (Prog A) β) :
    x >>= f = Prog.bind x (orFail f) := by
  show Prog.bind x _ = _
  congr 1
  funext r
  cases r <;> rfl

/-! ## Complete executions -/

/-- A call with the answer it was given. -/
structure Event (A : C → Type) where
  call : C
  answer : A call

/-- `Exec p h a`: answered as in `h`, the program `p` returns `a`. -/
inductive Exec : Prog A α → List (Event A) → α → Prop
  | pure (a) : Exec (.pure a) [] a
  | call (c k ans) {h a} : Exec (k ans) h a → Exec (.call c k) (⟨c, ans⟩ :: h) a

theorem Exec.of_pure {a b : α} {h : List (Event A)} (hexec : Exec (.pure a) h b) :
    h = [] ∧ b = a := by
  cases hexec
  exact ⟨rfl, rfl⟩

theorem Exec.of_call {c : C} {k : A c → Prog A α} {h : List (Event A)} {b : α}
    (hexec : Exec (.call c k) h b) :
    ∃ ans rest, h = ⟨c, ans⟩ :: rest ∧ Exec (k ans) rest b := by
  cases hexec with
  | call _ _ ans hrest => exact ⟨ans, _, rfl, hrest⟩

/-- An execution of a sequence is an execution of its parts. -/
theorem exec_bind {f : α → Prog A β} {h : List (Event A)} {b : β} :
    Exec (p.bind f) h b ↔ ∃ h₁ h₂ a, h = h₁ ++ h₂ ∧ Exec p h₁ a ∧ Exec (f a) h₂ b := by
  constructor
  · intro hexec
    induction p generalizing h with
    | pure a => exact ⟨[], h, a, rfl, .pure a, hexec⟩
    | call c k ih =>
      obtain ⟨ans, rest, rfl, hrest⟩ := hexec.of_call
      obtain ⟨h₁, h₂, a, rfl, hfirst, hsecond⟩ := ih ans hrest
      exact ⟨⟨c, ans⟩ :: h₁, h₂, a, rfl, .call c k ans hfirst, hsecond⟩
  · rintro ⟨h₁, h₂, a, rfl, hfirst, hsecond⟩
    induction hfirst with
    | pure a => exact hsecond
    | call c k ans _ ih => exact .call c _ ans (ih hsecond)

/-- A part that may fail succeeded, or its failure is the result. -/
theorem exec_except_bind {h : List (Event A)} {r : Except ε β}
    (hexec : Exec (x >>= f : ExceptT ε (Prog A) β) h r) :
    (∃ h₁ h₂ a, h = h₁ ++ h₂ ∧ Exec x h₁ (.ok a) ∧ Exec (f a) h₂ r) ∨
      ∃ e, r = .error e ∧ Exec x h (.error e) := by
  rw [except_bind_eq] at hexec
  obtain ⟨h₁, h₂, a, rfl, hfirst, hsecond⟩ := exec_bind.mp hexec
  cases a with
  | ok a => exact .inl ⟨h₁, h₂, a, rfl, hfirst, hsecond⟩
  | error e =>
    obtain ⟨rfl, rfl⟩ := Exec.of_pure hsecond
    exact .inr ⟨e, rfl, by rwa [append_nil]⟩

theorem exec_except_bind_ok {h : List (Event A)} {b : β}
    (hexec : Exec (x >>= f : ExceptT ε (Prog A) β) h (.ok b)) :
    ∃ h₁ h₂ a, h = h₁ ++ h₂ ∧ Exec x h₁ (.ok a) ∧ Exec (f a) h₂ (.ok b) := by
  rcases exec_except_bind hexec with hok | ⟨e, he, -⟩
  · exact hok
  · cases he

/-- The execution in which every call is answered by `oracle`. -/
def play (oracle : (c : C) → A c) : Prog A α → List (Event A) × α
  | .pure a => ([], a)
  | .call c k => (⟨c, oracle c⟩ :: ((k (oracle c)).play oracle).1, ((k (oracle c)).play oracle).2)

theorem exec_play (oracle : (c : C) → A c) (p : Prog A α) :
    Exec p (p.play oracle).1 (p.play oracle).2 := by
  induction p with
  | pure a => exact .pure a
  | call c k ih => exact .call c k (oracle c) (ih (oracle c))

theorem play_answers (oracle : (c : C) → A c) (p : Prog A α) :
    ∀ e ∈ (p.play oracle).1, e.answer = oracle e.call := by
  induction p with
  | pure a => exact forall_mem_nil _
  | call c k ih =>
    intro e he
    rcases mem_cons.mp he with rfl | he
    · rfl
    · exact ih (oracle c) e he

theorem play_bind (oracle : (c : C) → A c) (p : Prog A α) (f : α → Prog A β) :
    ((p.bind f).play oracle).1 =
      (p.play oracle).1 ++ ((f (p.play oracle).2).play oracle).1 := by
  induction p with
  | pure a => rfl
  | call c k ih =>
    show _ :: (((k (oracle c)).bind f).play oracle).1 = _
    rw [ih]
    rfl

/-! ## Executions against a state -/

section ExecOn

variable {S : Type} (step : S → (c : C) → A c → S → Prop)

/-- `ExecOn step s p h t a`: an execution `Exec p h a` whose answers take the state of the
environment from `s` to `t`. -/
inductive ExecOn : S → Prog A α → List (Event A) → S → α → Prop
  | pure (s a) : ExecOn s (.pure a) [] s a
  | call {s s' t c k ans h a} (hstep : step s c ans s') (hrest : ExecOn s' (k ans) h t a) :
      ExecOn s (.call c k) (⟨c, ans⟩ :: h) t a

variable {step} {s t : S} {h : List (Event A)}

theorem ExecOn.of_pure {a b : α} (hexec : ExecOn step s (.pure a) h t b) :
    h = [] ∧ t = s ∧ b = a := by
  cases hexec
  exact ⟨rfl, rfl, rfl⟩

theorem ExecOn.of_call {c : C} {k : A c → Prog A α} {b : α}
    (hexec : ExecOn step s (.call c k) h t b) :
    ∃ ans rest s', h = ⟨c, ans⟩ :: rest ∧ step s c ans s' ∧ ExecOn step s' (k ans) rest t b := by
  cases hexec with
  | call hstep hrest => exact ⟨_, _, _, rfl, hstep, hrest⟩

/-- An execution of a sequence is an execution of its parts, the second from where the first
ends. -/
theorem ExecOn.of_bind {p : Prog A α} {f : α → Prog A β} {b : β}
    (hexec : ExecOn step s (p.bind f) h t b) :
    ∃ h₁ h₂ u a, h = h₁ ++ h₂ ∧ ExecOn step s p h₁ u a ∧ ExecOn step u (f a) h₂ t b := by
  induction p generalizing s h with
  | pure a => exact ⟨[], h, s, a, rfl, .pure s a, hexec⟩
  | call c k ih =>
    obtain ⟨ans, rest, s', rfl, hstep, hrest⟩ := hexec.of_call
    obtain ⟨h₁, h₂, u, a, rfl, hfirst, hsecond⟩ := ih ans hrest
    exact ⟨_, h₂, u, a, rfl, .call hstep hfirst, hsecond⟩

/-- A part that may fail succeeded, or its failure is the result. -/
theorem ExecOn.of_except_bind {r : Except ε β}
    (hexec : ExecOn step s (x >>= f : ExceptT ε (Prog A) β) h t r) :
    (∃ h₁ h₂ u a, h = h₁ ++ h₂ ∧ ExecOn step s x h₁ u (.ok a) ∧ ExecOn step u (f a) h₂ t r) ∨
      ∃ e, r = .error e ∧ ExecOn step s x h t (.error e) := by
  rw [except_bind_eq] at hexec
  obtain ⟨h₁, h₂, u, a, rfl, hfirst, hsecond⟩ := hexec.of_bind
  cases a with
  | ok a => exact .inl ⟨h₁, h₂, u, a, rfl, hfirst, hsecond⟩
  | error e =>
    obtain ⟨rfl, rfl, rfl⟩ := ExecOn.of_pure hsecond
    exact .inr ⟨e, rfl, by rwa [append_nil]⟩

/-- A computation that calls nothing, before the rest. -/
theorem ExecOn.of_lift_bind {x : Except ε α} {r : Except ε β}
    (hexec : ExecOn step s ((liftM x : ExceptT ε (Prog A) α) >>= f : ExceptT ε (Prog A) β) h t r) :
    (∃ a, x = .ok a ∧ ExecOn step s (f a) h t r) ∨
      ∃ e, x = .error e ∧ h = [] ∧ t = s ∧ r = .error e := by
  rw [except_bind_eq] at hexec
  cases x with
  | ok a => exact .inl ⟨a, rfl, hexec⟩
  | error e =>
    obtain ⟨rfl, rfl, rfl⟩ := ExecOn.of_pure hexec
    exact .inr ⟨e, rfl, rfl, rfl, rfl⟩

/-- The execution in which an environment answers from its state. -/
def serve (env : S → (c : C) → A c × S) : S → Prog A α → List (Event A) × S × α
  | s, .pure a => ([], s, a)
  | s, .call c k =>
    let rest := serve env (env s c).2 (k (env s c).1)
    (⟨c, (env s c).1⟩ :: rest.1, rest.2)

theorem execOn_serve {env : S → (c : C) → A c × S}
    (henv : ∀ s c, step s c (env s c).1 (env s c).2) (s : S) (p : Prog A α) :
    ExecOn step s p (serve env s p).1 (serve env s p).2.1 (serve env s p).2.2 := by
  induction p generalizing s with
  | pure a => exact .pure s a
  | call c k ih => exact .call (henv s c) (ih _ _)

end ExecOn

/-! ## The calls a program can make -/

/-- Every call `p` can make satisfies `P`. -/
def Uses (P : C → Prop) : Prog A α → Prop
  | .pure _ => True
  | .call c k => P c ∧ ∀ ans, (k ans).Uses P

variable {P Q : C → Prop}

theorem uses_bind {f : α → Prog A β} (hp : p.Uses P) (hf : ∀ a, (f a).Uses P) :
    (p.bind f).Uses P := by
  induction p with
  | pure a => exact hf a
  | call c k ih => exact ⟨hp.1, fun ans => ih ans (hp.2 ans)⟩

theorem uses_except_bind (hx : Uses P x) (hf : ∀ a, Uses P (f a)) :
    Uses P (x >>= f : ExceptT ε (Prog A) β) := by
  rw [except_bind_eq]
  refine uses_bind hx fun r => ?_
  cases r with
  | ok a => exact hf a
  | error e => exact trivial

theorem Uses.mono (hp : p.Uses P) (h : ∀ c, P c → Q c) : p.Uses Q := by
  induction p with
  | pure a => exact trivial
  | call c k ih => exact ⟨h c hp.1, fun ans => ih ans (hp.2 ans)⟩

theorem Uses.exec (hp : p.Uses P) {h : List (Event A)} {a : α} (hexec : Exec p h a) :
    ∀ e ∈ h, P e.call := by
  induction hexec with
  | pure a => exact forall_mem_nil _
  | call c k ans _ ih =>
    intro e he
    rcases mem_cons.mp he with rfl | he
    · exact hp.1
    · exact ih (hp.2 ans) e he

/-! ## Typestate -/

section Guided

variable {S : Type} (next : S → (c : C) → A c → S) (may : S → C → Prop)
  (answers : (c : C) → A c → Prop)

/-- From state `s` the program makes only admitted calls, and whatever it is answered its
result satisfies `post` in the state reached. -/
def Guided (post : S → α → Prop) : S → Prog A α → Prop
  | s, .pure a => post s a
  | s, .call c k => may s c ∧ ∀ ans, answers c ans → Guided post (next s c ans) (k ans)

variable {next may answers} {p : Prog A α} {post : S → α → Prop}

theorem Guided.mono {post' : S → α → Prop} {s : S} (h : Guided next may answers post s p)
    (hpost : ∀ s a, post s a → post' s a) : Guided next may answers post' s p := by
  induction p generalizing s with
  | pure a => exact hpost s a h
  | call c k ih => exact ⟨h.1, fun ans hans => ih ans (h.2 ans hans)⟩

theorem guided_bind {post : S → β → Prop} {s : S} {f : α → Prog A β}
    (h : Guided next may answers (fun t a => Guided next may answers post t (f a)) s p) :
    Guided next may answers post s (p.bind f) := by
  induction p generalizing s with
  | pure a => exact h
  | call c k ih => exact ⟨h.1, fun ans hans => ih ans (h.2 ans hans)⟩

/-- A sequence of parts that may fail: `mid` holds where the first part ends. -/
theorem guided_except_bind (mid : S → Except ε α → Prop) {post : S → Except ε β → Prop} {s : S}
    (hx : Guided next may answers mid s x)
    (hok : ∀ t a, mid t (.ok a) → Guided next may answers post t (f a))
    (herror : ∀ t e, mid t (.error e) → post t (.error e)) :
    Guided next may answers post s (x >>= f : ExceptT ε (Prog A) β) := by
  rw [except_bind_eq]
  refine guided_bind (hx.mono fun t r hmid => ?_)
  cases r with
  | ok a => exact hok t a hmid
  | error e => exact herror t e hmid

/-- A computation that calls nothing, before the rest. -/
theorem guided_lift_bind {post : S → Except ε β → Prop} {s : S} {x : Except ε α}
    (hok : ∀ a, x = .ok a → Guided next may answers post s (f a))
    (herror : ∀ e, x = .error e → post s (.error e)) :
    Guided next may answers post s
      ((liftM x : ExceptT ε (Prog A) α) >>= f : ExceptT ε (Prog A) β) := by
  rw [except_bind_eq]
  cases x with
  | ok a => exact hok a rfl
  | error e => exact herror e rfl

theorem guided_trivial {s : S} (p : Prog A α) :
    Guided next (fun _ _ => True) answers (fun _ _ => True) s p := by
  induction p generalizing s with
  | pure a => exact trivial
  | call c k ih => exact ⟨trivial, fun ans _ => ih ans⟩

/-- A bound on a program's calls joins what it is guided by. -/
theorem Guided.and_uses {s : S} (h : Guided next may answers post s p) (huses : p.Uses P) :
    Guided next (fun s c => may s c ∧ P c) answers post s p := by
  induction p generalizing s with
  | pure a => exact h
  | call c k ih => exact ⟨⟨h.1, huses.1⟩, fun ans hans => ih ans (h.2 ans hans) (huses.2 ans)⟩

/-- Where the state is the history, a program ends in a longer one, and may be held to more
of its calls from there on. -/
theorem Guided.history {may may' : List (Event A) → C → Prop} {post : List (Event A) → α → Prop}
    {s t : List (Event A)} (h : Guided (fun t c ans => t ++ [⟨c, ans⟩]) may answers post t p)
    (hmay : ∀ t c, s <+: t → may t c → may' t c) (hs : s <+: t) :
    Guided (fun t c ans => t ++ [⟨c, ans⟩]) may' answers (fun t a => post t a ∧ s <+: t) t p := by
  induction p generalizing t with
  | pure a => exact ⟨h, hs⟩
  | call c k ih =>
    exact ⟨hmay t c hs h.1, fun ans hans =>
      ih ans (h.2 ans hans) (hs.trans (prefix_append t _))⟩

/-- The state after some answered calls. -/
def advance (next : S → (c : C) → A c → S) (s : S) (h : List (Event A)) : S :=
  h.foldl (fun s e => next s e.call e.answer) s

theorem Guided.exec {s : S} (hp : Guided next may answers post s p) {h : List (Event A)} {a : α}
    (hexec : Exec p h a) (hanswers : ∀ e ∈ h, answers e.call e.answer) :
    post (advance next s h) a := by
  induction hexec generalizing s with
  | pure a => exact hp
  | call c k ans _ ih =>
    exact ih (hp.2 ans (hanswers ⟨c, ans⟩ mem_cons_self))
      fun e he => hanswers e (mem_cons_of_mem _ he)

/-- Every call of an execution was admitted in the state it was made in. -/
theorem Guided.exec_may {s : S} (hp : Guided next may answers post s p) {h : List (Event A)} {a : α}
    (hexec : Exec p h a) (hanswers : ∀ e ∈ h, answers e.call e.answer)
    {before after : List (Event A)} {e : Event A} (hsplit : h = before ++ e :: after) :
    may (advance next s before) e.call := by
  induction hexec generalizing s before with
  | pure a => exact absurd hsplit.symm (append_ne_nil_of_right_ne_nil _ (cons_ne_nil _ _))
  | call c k ans _ ih =>
    cases before with
    | nil =>
      obtain ⟨rfl, -⟩ := cons.inj hsplit
      exact hp.1
    | cons first before =>
      obtain ⟨rfl, htail⟩ := cons.inj hsplit
      exact ih (hp.2 ans (hanswers ⟨c, ans⟩ mem_cons_self))
        (fun e he => hanswers e (mem_cons_of_mem _ he)) htail

/-- Where the state is the history, it is the answered calls. -/
theorem advance_history (s h : List (Event A)) :
    advance (fun t c ans => t ++ [⟨c, ans⟩]) s h = s ++ h := by
  induction h generalizing s with
  | nil => exact (append_nil s).symm
  | cons e h ih =>
    show advance (fun t c ans => t ++ [⟨c, ans⟩]) (s ++ [e]) h = _
    rw [ih, append_assoc]
    rfl

end Guided

/-! ## Programs whose calls may fail

A call that fails ends the program, so its rules speak of the answers that succeed. -/

section Ends

variable {R : C → Type} {S : Type}
  {next : S → (c : C) → Except ε (R c) → S} {may : S → C → Prop}

/-- From state `s` the program makes only admitted calls, and where it succeeds `Q` holds of the
state reached and of its result. -/
def Ends (next : S → (c : C) → Except ε (R c) → S) (may : S → C → Prop) (Q : S → α → Prop)
    (s : S) (x : ExceptT ε (Prog fun c => Except ε (R c)) α) : Prop :=
  Guided next may (fun _ _ => True) (fun t r => ∀ a, r = .ok a → Q t a) s x

theorem Ends.mono {Q Q' : S → α → Prop} {s : S} {x : ExceptT ε (Prog fun c => Except ε (R c)) α}
    (h : Ends next may Q s x) (hQ : ∀ t a, Q t a → Q' t a) : Ends next may Q' s x :=
  Guided.mono h fun t _ hr a ha => hQ t a (hr a ha)

theorem ends_pure {Q : S → α → Prop} {s : S} {a : α} (h : Q s a) :
    Ends next may Q s (Pure.pure a : ExceptT ε (Prog fun c => Except ε (R c)) α) :=
  fun _ hb => Except.ok.inj hb ▸ h

theorem Ends.bind {Q : S → α → Prop} {Q' : S → β → Prop} {s : S}
    {x : ExceptT ε (Prog fun c => Except ε (R c)) α}
    {f : α → ExceptT ε (Prog fun c => Except ε (R c)) β} (hx : Ends next may Q s x)
    (hf : ∀ t a, Q t a → Ends next may Q' t (f a)) :
    Ends next may Q' s (x >>= f : ExceptT ε (Prog fun c => Except ε (R c)) β) :=
  guided_except_bind _ hx (fun t a h => hf t a (h a rfl)) (fun _ _ _ _ hb => nomatch hb)

theorem ends_lift {Q : S → β → Prop} {s : S} {x : Except ε α}
    {f : α → ExceptT ε (Prog fun c => Except ε (R c)) β}
    (hf : ∀ a, x = .ok a → Ends next may Q s (f a)) :
    Ends next may Q s
      ((liftM x : ExceptT ε (Prog fun c => Except ε (R c)) α) >>= f) :=
  guided_lift_bind hf fun _ _ _ hb => nomatch hb

theorem ends_lift_last {Q : S → α → Prop} {s : S} {x : Except ε α}
    (hQ : ∀ a, x = .ok a → Q s a) :
    Ends next may Q s (liftM x : ExceptT ε (Prog fun c => Except ε (R c)) α) := by
  cases x with
  | ok a => exact fun _ hb => Except.ok.inj hb ▸ hQ a rfl
  | error e => exact fun _ hb => nomatch hb

theorem ends_request {c : C} {Q : S → R c → Prop} {s : S} (hmay : may s c)
    (hQ : ∀ a, Q (next s c (.ok a)) a) :
    Ends next may Q s (ExceptT.mk (request (A := fun c => Except ε (R c)) c)) :=
  ⟨hmay, fun _ _ a ha => ha ▸ hQ a⟩

end Ends

end Prog

end Kit

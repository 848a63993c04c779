import Mathlib.Data.List.Basic

/-!
# UTF-8 with replacement

Any bytes decoded as UTF-8, a byte at a time: what is not a character becomes `U+FFFD`, once for
each longest beginning of one. A text whose bytes arrive in chunks that are decoded one by one
comes out as it was encoded if and only if no chunk ends within a character
(`decode_chunks_iff`).
-/

namespace Kit.Utf8

open List

/-- A begun character: how many bytes it still owes, the bits read so far, and between which
values its next byte lies. -/
structure Owed where
  count : Nat
  bits : Nat
  low : Nat
  high : Nat

def replacement : Char := Char.ofNat 0xFFFD

/-- What the first byte of a longer character begins. -/
def lead (b : Nat) : Option Owed :=
  if b < 0xC2 then none
  else if b < 0xE0 then some ⟨1, b - 0xC0, 0x80, 0xBF⟩
  else if b < 0xF0 then
    some ⟨2, b - 0xE0, if b = 0xE0 then 0xA0 else 0x80, if b = 0xED then 0x9F else 0xBF⟩
  else if b < 0xF5 then
    some ⟨3, b - 0xF0, if b = 0xF0 then 0x90 else 0x80, if b = 0xF4 then 0x8F else 0xBF⟩
  else none

/-- A byte between two characters. -/
def first (b : Nat) : Option Owed × List Char :=
  if b < 0x80 then (none, [Char.ofNat b])
  else match lead b with
    | some owed => (some owed, [])
    | none => (none, [replacement])

/-- The next byte, and the characters it completes. -/
def step : Option Owed → Nat → Option Owed × List Char
  | none, b => first b
  | some o, b =>
    if o.low ≤ b ∧ b ≤ o.high then
      let bits := o.bits * 64 + (b - 0x80)
      if o.count = 1 then (none, [Char.ofNat bits])
      else (some ⟨o.count - 1, bits, 0x80, 0xBF⟩, [])
    else ((first b).1, replacement :: (first b).2)

/-- The characters of the bytes; one that is not complete at the end is replaced. -/
def decode : Option Owed → List UInt8 → List Char
  | none, [] => []
  | some _, [] => [replacement]
  | owed, b :: rest => (step owed b.toNat).2 ++ decode (step owed b.toNat).1 rest

def encode (text : List Char) : List UInt8 := text.flatMap String.utf8EncodeChar

theorem encode_append (text more : List Char) : encode (text ++ more) = encode text ++ encode more :=
  flatMap_append ..

theorem decode_cons (owed : Option Owed) (b : UInt8) (rest : List UInt8) :
    decode owed (b :: rest) = (step owed b.toNat).2 ++ decode (step owed b.toNat).1 rest := by
  cases owed <;> rfl

/-! ## The bytes of one character -/

/-- `%x80-BF` -/
def IsTail (b : UInt8) : Prop := 0x80 ≤ b.toNat ∧ b.toNat ≤ 0xBF

/-- The bytes complete the character, none before the last. -/
inductive Completes (c : Char) : Owed → List UInt8 → Prop
  | last {o : Owed} {b : UInt8} : IsTail b → step (some o) b.toNat = (none, [c]) →
      Completes c o [b]
  | more {o o' : Owed} {b : UInt8} {rest : List UInt8} : IsTail b →
      step (some o) b.toNat = (some o', []) → Completes c o' rest → Completes c o (b :: rest)

inductive Spells (c : Char) : List UInt8 → Prop
  | one {b : UInt8} : step none b.toNat = (none, [c]) → Spells c [b]
  | longer {o : Owed} {b : UInt8} {rest : List UInt8} : step none b.toNat = (some o, []) →
      Completes c o rest → Spells c (b :: rest)

theorem step_lead {b : Nat} {o : Owed} (hb : 0x80 ≤ b) (h : lead b = some o) :
    step none b = (some o, []) := by
  rw [step, first, if_neg (Nat.not_lt.2 hb), h]

theorem toNat_tail {n : Nat} (h : n < 64) : (UInt8.ofNat (n + 0x80)).toNat = n + 0x80 := by
  rw [UInt8.toNat_ofNat']
  omega

theorem isTail_tail {n : Nat} (h : n < 64) : IsTail (UInt8.ofNat (n + 0x80)) := by
  unfold IsTail
  rw [toNat_tail h]
  omega

theorem Completes.tail_last {c : Char} {o : Owed} {n : Nat} (h : n < 64) (hcount : o.count = 1)
    (hlow : o.low ≤ n + 0x80) (hhigh : n + 0x80 ≤ o.high) (hbits : o.bits * 64 + n = c.toNat) :
    Completes c o [UInt8.ofNat (n + 0x80)] := by
  refine .last (isTail_tail h) ?_
  rw [toNat_tail h, step, if_pos ⟨hlow, hhigh⟩, if_pos hcount, Nat.add_sub_cancel, hbits,
    Char.ofNat_toNat]

theorem Completes.tail_more {c : Char} {o : Owed} {n : Nat} {rest : List UInt8} (h : n < 64)
    (hcount : o.count ≠ 1) (hlow : o.low ≤ n + 0x80) (hhigh : n + 0x80 ≤ o.high)
    (hrest : Completes c ⟨o.count - 1, o.bits * 64 + n, 0x80, 0xBF⟩ rest) :
    Completes c o (UInt8.ofNat (n + 0x80) :: rest) := by
  refine .more (isTail_tail h) ?_ hrest
  rw [toNat_tail h, step, if_pos ⟨hlow, hhigh⟩, if_neg hcount, Nat.add_sub_cancel]

/-- Every character is spelled by its encoding. -/
theorem spells_utf8EncodeChar (c : Char) : Spells c (String.utf8EncodeChar c) := by
  have hvalid : c.val.toNat < 0xD800 ∨ 0xDFFF < c.val.toNat ∧ c.val.toNat < 0x110000 := c.valid
  obtain ⟨v, hv⟩ : ∃ v, c.toNat = v := ⟨_, rfl⟩
  simp only [String.utf8EncodeChar, show c.val.toNat = v from hv] at hvalid ⊢
  split
  · have hb : (UInt8.ofNat v).toNat = v := by
      rw [UInt8.toNat_ofNat']
      omega
    refine .one ?_
    rw [hb, step, first, if_pos (by omega), ← hv, Char.ofNat_toNat]
  · have hlead : ∀ n m : Nat, n < 32 → m = n + 0xc0 ∨ n < 16 ∧ m = n + 0xe0 ∨ n < 8 ∧ m = n + 0xf0 →
        (UInt8.ofNat m).toNat = m := by
      intro n m hn hm
      rw [UInt8.toNat_ofNat']
      omega
    split
    · have hb := hlead (v / 64 % 32) _ (by omega) (.inl rfl)
      refine .longer (step_lead (by omega) (show lead _ = some ⟨1, v / 64 % 32, 0x80, 0xBF⟩ from ?_))
        (.tail_last (by omega) rfl (by simp) (by simp; omega) (by simp only; omega))
      rw [hb, lead, if_neg (by omega), if_pos (by omega), Nat.add_sub_cancel]
    · split
      · have hb := hlead (v / 4096 % 16) _ (by omega) (.inr (.inl ⟨by omega, rfl⟩))
        refine .longer (step_lead (by omega) (show lead _ = some ⟨2, v / 4096 % 16,
          if v / 4096 % 16 = 0 then 0xA0 else 0x80, if v / 4096 % 16 = 13 then 0x9F else 0xBF⟩
          from ?_)) (.tail_more (by omega) (by simp) ?_ ?_
            (.tail_last (by omega) rfl (by simp) (by simp; omega) (by simp only; omega)))
        · rw [hb, lead, if_neg (by omega), if_neg (by omega), if_pos (by omega), Nat.add_sub_cancel]
          simp
        · simp only
          split <;> omega
        · simp only
          split <;> omega
      · have hb := hlead (v / 262144 % 8) _ (by omega) (.inr (.inr ⟨by omega, rfl⟩))
        refine .longer (step_lead (by omega) (show lead _ = some ⟨3, v / 262144 % 8,
          if v / 262144 % 8 = 0 then 0x90 else 0x80, if v / 262144 % 8 = 4 then 0x8F else 0xBF⟩
          from ?_)) (.tail_more (by omega) (by simp) ?_ ?_ (.tail_more (by omega) (by simp)
            (by simp) (by simp; omega)
            (.tail_last (by omega) rfl (by simp) (by simp; omega) (by simp only; omega))))
        · rw [hb, lead, if_neg (by omega), if_neg (by omega), if_neg (by omega), if_pos (by omega),
            Nat.add_sub_cancel]
          simp
        · simp only
          split <;> omega
        · simp only
          split <;> omega

/-! ## A text read from anywhere -/

/-- The bytes are the rest of a text: between two characters of it, or within one. -/
inductive Mid : Option Owed → List UInt8 → List Char → Prop
  | whole (text : List Char) : Mid none (encode text) text
  | within {c : Char} {o : Owed} {tail : List UInt8} (text : List Char) :
      Completes c o tail → Mid (some o) (tail ++ encode text) (c :: text)

variable {text : List Char} {s : Option Owed}

theorem Mid.eq_encode {bytes : List UInt8} (h : Mid none bytes text) : bytes = encode text := by
  cases h
  rfl

theorem Mid.nil (h : Mid s [] text) : s = none ∧ text = [] := by
  generalize hbytes : ([] : List UInt8) = bytes at h
  cases h with
  | whole =>
    cases text with
    | nil => exact ⟨rfl, rfl⟩
    | cons c text =>
      have hspell := spells_utf8EncodeChar c
      rw [show encode (c :: text) = String.utf8EncodeChar c ++ encode text from rfl] at hbytes
      rw [(append_eq_nil_iff.1 hbytes.symm).1] at hspell
      cases hspell
  | within text hc => cases hc <;> cases hbytes

/-- A byte of it completes at most one character; within one it is a tail byte. -/
theorem Mid.cons {b : UInt8} {rest : List UInt8} (h : Mid s (b :: rest) text) :
    ∃ text', Mid (step s b.toNat).1 rest text' ∧
      text = (step s b.toNat).2 ++ text' ∧ (step s b.toNat).2.length ≤ 1 ∧
      (s ≠ none → IsTail b) := by
  generalize hbytes : b :: rest = bytes at h
  cases h with
  | whole =>
    cases text with
    | nil => cases hbytes
    | cons c text =>
      have hspell := spells_utf8EncodeChar c
      rw [show encode (c :: text) = String.utf8EncodeChar c ++ encode text from rfl] at hbytes
      generalize String.utf8EncodeChar c = spelled at hspell hbytes
      cases hspell with
      | one hstep =>
        cases hbytes
        rw [hstep]
        exact ⟨text, .whole text, rfl, Nat.le_refl 1, fun h => absurd rfl h⟩
      | longer hstep hc =>
        cases hbytes
        rw [hstep]
        exact ⟨c :: text, .within text hc, rfl, Nat.zero_le 1, fun h => absurd rfl h⟩
  | within text hc =>
    cases hc with
    | last htail hstep =>
      cases hbytes
      rw [hstep]
      exact ⟨text, .whole text, rfl, Nat.le_refl 1, fun _ => htail⟩
    | more htail hstep hc =>
      cases hbytes
      rw [hstep]
      exact ⟨_, .within text hc, rfl, Nat.zero_le 1, fun _ => htail⟩

theorem Mid.decode {bytes : List UInt8} (h : Mid s bytes text) : decode s bytes = text := by
  induction bytes generalizing s text with
  | nil =>
    obtain ⟨rfl, rfl⟩ := h.nil
    rfl
  | cons b rest ih =>
    obtain ⟨text', hmid, rfl, -, -⟩ := h.cons
    rw [decode_cons, ih hmid]

@[simp] theorem decode_encode (text : List Char) : decode none (encode text) = text :=
  (Mid.whole text).decode

/-! ## Chunks -/

/-- Between characters, a tail byte alone is replaced. -/
theorem step_none_tail {b : UInt8} (h : IsTail b) : step none b.toNat = (none, [replacement]) := by
  have hlead : lead b.toNat = none := if_pos (show b.toNat < 0xC2 by have := h.2; omega)
  rw [step, first, if_neg (Nat.not_lt.2 h.1), hlead]

/-- What is made of chunks, the first of them read from a state. -/
def relay (s : Option Owed) (chunk : List UInt8) (more : List (List UInt8)) : List Char :=
  decode s chunk ++ more.flatMap (decode none)

theorem relay_cons (s : Option Owed) (b : UInt8) (chunk : List UInt8) (more : List (List UInt8)) :
    relay s (b :: chunk) more = (step s b.toNat).2 ++ relay (step s b.toNat).1 chunk more := by
  rw [relay, relay, decode_cons, append_assoc]

/-- A decoder that has lost the beginning of a character makes no fewer characters than are left,
one that has not makes as many only if the chunks end between characters. -/
structure Kept (s : Option Owed) (chunk : List UInt8) (more : List (List UInt8))
    (text : List Char) : Prop where
  lost : text.length ≤ (relay none chunk more).length
  least : text.length ≤ (relay s chunk more).length
  whole : (relay s chunk more).length = text.length →
    (∃ done rest, text = done ++ rest ∧ more.flatten = encode rest) ∧
      ∀ c ∈ more, ∃ piece, c = encode piece

theorem Kept.cons {b : UInt8} {chunk : List UInt8} {more : List (List UInt8)}
    (h : Mid s (b :: chunk ++ more.flatten) text)
    (ih : ∀ text', Mid (step s b.toNat).1 (chunk ++ more.flatten) text' →
      Kept (step s b.toNat).1 chunk more text') : Kept s (b :: chunk) more text := by
  obtain ⟨text', hmid, rfl, hone, htail⟩ := h.cons
  have hkept := ih text' hmid
  refine ⟨?_, ?_, fun hlen => ?_⟩
  · cases s with
    | none =>
      rw [relay_cons, length_append, length_append]
      exact Nat.add_le_add_left hkept.least _
    | some o =>
      rw [relay_cons, step_none_tail (htail (Option.some_ne_none o)), length_append,
        length_append]
      exact Nat.add_le_add hone hkept.lost
  · rw [relay_cons, length_append, length_append]
    exact Nat.add_le_add_left hkept.least _
  · rw [relay_cons, length_append, length_append] at hlen
    obtain ⟨⟨done, rest, rfl, hrest⟩, hmore⟩ := hkept.whole (Nat.add_left_cancel hlen)
    exact ⟨⟨_ ++ done, rest, (append_assoc ..).symm, hrest⟩, hmore⟩

theorem Mid.kept {more : List (List UInt8)} : ∀ {chunk : List UInt8} {s : Option Owed}
    {text : List Char}, Mid s (chunk ++ more.flatten) text → Kept s chunk more text := by
  induction more with
  | nil =>
    intro chunk
    induction chunk with
    | nil =>
      intro s text h
      obtain ⟨rfl, rfl⟩ := Mid.nil h
      exact ⟨Nat.le_refl _, Nat.le_refl _, fun _ => ⟨⟨[], [], rfl, rfl⟩, by simp⟩⟩
    | cons b chunk ih => exact fun h => Kept.cons h (fun _ => ih)
  | cons c more ihmore =>
    intro chunk
    induction chunk with
    | nil =>
      intro s text h
      cases s with
      | none =>
        have hkept := ihmore (show Mid none (c ++ more.flatten) text from h)
        refine ⟨hkept.least, hkept.least, fun hlen => ?_⟩
        obtain ⟨⟨done, rest, rfl, hrest⟩, hmore⟩ := hkept.whole hlen
        have hflat : c ++ more.flatten = encode (done ++ rest) := h.eq_encode
        refine ⟨⟨[], _, rfl, hflat⟩, forall_mem_cons.2 ⟨⟨done, ?_⟩, hmore⟩⟩
        rw [hrest, encode_append] at hflat
        exact append_cancel_right hflat
      | some o =>
        -- the chunk before ended within a character
        have hkept := ihmore (show Mid (some o) (c ++ more.flatten) text from h)
        have hlen : (relay (some o) [] (c :: more)).length = (relay none c more).length + 1 :=
          rfl
        refine ⟨hkept.lost, ?_, fun heq => ?_⟩
        · rw [hlen]
          exact Nat.le_succ_of_le hkept.lost
        · rw [hlen] at heq
          exact absurd hkept.lost (Nat.not_le.2 (heq ▸ Nat.lt_succ_self _))
    | cons b chunk ih => exact fun h => Kept.cons h (fun _ => ih)

/-- Chunks of a text are decoded one by one to that text if and only if each holds whole
characters. -/
theorem decode_chunks_iff {chunks : List (List UInt8)} (h : chunks.flatten = encode text) :
    chunks.flatMap (decode none) = text ↔ ∀ c ∈ chunks, ∃ piece, c = encode piece := by
  constructor
  · intro hdec
    have hmid : Mid none ([] ++ chunks.flatten) text := h ▸ .whole text
    exact (hmid.kept.whole (congrArg List.length hdec)).2
  · intro hwhole
    have henc : encode (chunks.flatMap (decode none)) = chunks.flatten := by
      clear h
      induction chunks with
      | nil => rfl
      | cons c chunks ih =>
        obtain ⟨⟨piece, rfl⟩, hmore⟩ := forall_mem_cons.1 hwhole
        rw [flatMap_cons, encode_append, decode_encode, ih hmore, flatten_cons]
    have hdec := congrArg (decode none) (henc.trans h)
    rwa [decode_encode, decode_encode] at hdec

end Kit.Utf8

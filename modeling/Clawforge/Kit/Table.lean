import Mathlib.Data.List.Sort

/-!
# Keyed tables

Rows under a primary key, as a relational store keeps them. The key's
uniqueness is a field of the table, so no table with two rows under one key can
be built; `INSERT` is partial and `UPDATE … WHERE` takes a row function that
keeps the key. The lemmas say, pointwise, which row each operation leaves under
a key, and which rows it leaves in the table.
-/

namespace Kit

open List Option

universe u v

variable {ρ : Type u} {κ : Type v}

/-- A list of rows with pairwise distinct keys. -/
structure Table (key : ρ → κ) where
  rows : List ρ
  unique : (rows.map key).Nodup

namespace Table

variable {key : ρ → κ}

instance : Membership ρ (Table key) where
  mem T r := r ∈ T.rows

instance [DecidableEq ρ] (r : ρ) (T : Table key) : Decidable (r ∈ T) :=
  inferInstanceAs (Decidable (r ∈ T.rows))

theorem mem_def {T : Table key} {r : ρ} : r ∈ T ↔ r ∈ T.rows := Iff.rfl

def empty (key : ρ → κ) : Table key := ⟨[], nodup_nil⟩

def singleton (key : ρ → κ) (r : ρ) : Table key := ⟨[r], nodup_singleton _⟩

@[simp] theorem not_mem_empty {r : ρ} : r ∉ empty key := not_mem_nil

/-- Two rows under one key are the same row. -/
theorem eq_of_key_eq {T : Table key} {a b : ρ} (ha : a ∈ T) (hb : b ∈ T)
    (h : key a = key b) : a = b :=
  inj_on_of_nodup_map T.unique ha hb h

/-! ## Lookup -/

section Lookup

variable [DecidableEq κ] {T : Table key}

/-- The row under a key. -/
def get? (T : Table key) (k : κ) : Option ρ := T.rows.find? (fun r => key r = k)

theorem get?_eq_some {k : κ} {r : ρ} : T.get? k = some r ↔ r ∈ T ∧ key r = k := by
  have found : ∀ x, T.get? k = some x → x ∈ T ∧ key x = k := fun x h =>
    ⟨mem_of_find?_eq_some h, by simpa using find?_some h⟩
  refine ⟨found r, fun ⟨hr, hk⟩ => ?_⟩
  cases h : T.get? k with
  | none => exact absurd hk (by simpa using find?_eq_none.1 h r hr)
  | some x =>
    obtain ⟨hx, hxk⟩ := found x h
    rw [eq_of_key_eq hx hr (hxk.trans hk.symm)]

theorem get?_eq_none {k : κ} : T.get? k = none ↔ ∀ r ∈ T, key r ≠ k := by
  unfold get?
  rw [find?_eq_none]
  simp [mem_def]

theorem get?_key {r : ρ} (h : r ∈ T) : T.get? (key r) = some r :=
  get?_eq_some.2 ⟨h, rfl⟩

theorem mem_of_get? {k : κ} {r : ρ} (h : T.get? k = some r) : r ∈ T :=
  (get?_eq_some.1 h).1

theorem key_of_get? {k : κ} {r : ρ} (h : T.get? k = some r) : key r = k :=
  (get?_eq_some.1 h).2

end Lookup

/-! ## Insert -/

section Insert

variable [DecidableEq κ] {T : Table key} {r : ρ} {T' : Table key}

/-- `INSERT`: refused where the key is taken. -/
def insert? (T : Table key) (r : ρ) : Option (Table key) :=
  if h : key r ∈ T.rows.map key then none
  else some ⟨T.rows ++ [r], by
    rw [map_append, nodup_append]
    refine ⟨T.unique, by simp, ?_⟩
    intro a ha b hb hab
    simp only [map_cons, map_nil, mem_singleton] at hb
    exact h (hb ▸ hab ▸ ha)⟩

/-- `INSERT … ON CONFLICT DO NOTHING`. -/
def insertOrIgnore (T : Table key) (r : ρ) : Table key := (T.insert? r).getD T

theorem rows_insert? (h : T.insert? r = some T') : T'.rows = T.rows ++ [r] := by
  unfold insert? at h
  split at h
  · cases h
  · cases h
    rfl

theorem mem_insert? (h : T.insert? r = some T') {x : ρ} : x ∈ T' ↔ x ∈ T ∨ x = r := by
  unfold insert? at h
  split at h
  · cases h
  · cases h
    simp [mem_def]

/-- A key that an insertion accepted was free. -/
theorem key_ne_of_insert? (h : T.insert? r = some T') {x : ρ} (hx : x ∈ T) : key x ≠ key r := by
  intro hk
  unfold insert? at h
  rw [dif_pos (List.mem_map.2 ⟨x, hx, hk⟩)] at h
  cases h

/-- An insertion is accepted exactly if the key is free. -/
theorem insert?_isSome : (T.insert? r).isSome = true ↔ ∀ x ∈ T, key x ≠ key r := by
  unfold insert?
  by_cases h : key r ∈ T.rows.map key
  · rw [dif_pos h]
    obtain ⟨x, hx, hk⟩ := List.mem_map.1 h
    simp only [isSome_none, Bool.false_eq_true, false_iff]
    exact fun hfree => hfree x hx hk
  · rw [dif_neg h]
    simp only [isSome_some, true_iff]
    exact fun x hx hk => h (List.mem_map.2 ⟨x, hx, hk⟩)

theorem mem_insertOrIgnore {x : ρ} (h : x ∈ T.insertOrIgnore r) : x ∈ T ∨ x = r := by
  unfold insertOrIgnore at h
  cases hi : T.insert? r with
  | none => rw [hi] at h; exact .inl h
  | some T' => rw [hi] at h; exact (mem_insert? hi).1 h

theorem mem_insertOrIgnore_of_mem {x : ρ} (h : x ∈ T) : x ∈ T.insertOrIgnore r := by
  unfold insertOrIgnore
  cases hi : T.insert? r with
  | none => exact h
  | some T' => exact (mem_insert? hi).2 (.inl h)

theorem get?_insert? (h : T.insert? r = some T') (k : κ) :
    T'.get? k = if k = key r then some r else T.get? k := by
  by_cases hk : k = key r
  · rw [if_pos hk, get?_eq_some]
    exact ⟨(mem_insert? h).2 (.inr rfl), hk.symm⟩
  · rw [if_neg hk]
    cases hg : T.get? k with
    | some x =>
      obtain ⟨hx, hxk⟩ := get?_eq_some.1 hg
      exact get?_eq_some.2 ⟨(mem_insert? h).2 (.inl hx), hxk⟩
    | none =>
      rw [get?_eq_none] at hg ⊢
      intro x hx hxk
      rcases (mem_insert? h).1 hx with hx | rfl
      · exact hg x hx hxk
      · exact hk hxk.symm

/-- After an insertion that keeps the row already there, the key has a row. -/
theorem get?_insertOrIgnore :
    (T.insertOrIgnore r).get? (key r) = some ((T.get? (key r)).getD r) := by
  unfold insertOrIgnore
  cases hi : T.insert? r with
  | some T' =>
    have hfree : T.get? (key r) = none :=
      get?_eq_none.2 (insert?_isSome.1 (by rw [hi]; rfl))
    rw [getD_some, get?_insert? hi, if_pos rfl, hfree, getD_none]
  | none =>
    rw [getD_none]
    cases hg : T.get? (key r) with
    | some x => rfl
    | none =>
      have hsome := insert?_isSome.2 (get?_eq_none.1 hg)
      rw [hi] at hsome
      cases hsome

theorem get?_insertOrIgnore_of_ne {k : κ} (h : k ≠ key r) :
    (T.insertOrIgnore r).get? k = T.get? k := by
  unfold insertOrIgnore
  cases hi : T.insert? r with
  | some T' => rw [getD_some, get?_insert? hi, if_neg h]
  | none => rfl

end Insert

/-! ## Update -/

section Update

variable (p : ρ → Prop) [DecidablePred p] (f : ρ → ρ) (hf : ∀ r, key (f r) = key r)

/-- `UPDATE … SET f WHERE p`. -/
def updateWhere (T : Table key) : Table key where
  rows := T.rows.map (fun r => if p r then f r else r)
  unique := by
    have hkeys : (T.rows.map (fun r => if p r then f r else r)).map key = T.rows.map key := by
      rw [List.map_map]
      apply map_congr_left
      intro r _
      simp only [Function.comp_apply]
      split
      · exact hf r
      · rfl
    rw [hkeys]
    exact T.unique

variable {p f hf} {T : Table key}

theorem mem_updateWhere {x : ρ} :
    x ∈ T.updateWhere p f hf ↔ ∃ r ∈ T, x = if p r then f r else r := by
  simp only [mem_def, updateWhere, List.mem_map]
  constructor
  · rintro ⟨r, hr, rfl⟩
    exact ⟨r, hr, rfl⟩
  · rintro ⟨r, hr, rfl⟩
    exact ⟨r, hr, rfl⟩

/-- An update that matches no row changes nothing. -/
theorem updateWhere_eq_self (h : ∀ r ∈ T, ¬ p r) : T.updateWhere p f hf = T := by
  have hrows : T.rows.map (fun r => if p r then f r else r) = T.rows := by
    have hid : ∀ r ∈ T.rows, (if p r then f r else r) = id r := fun r hr => if_neg (h r hr)
    rw [map_congr_left hid, List.map_id]
  obtain ⟨rows, unique⟩ := T
  simp only [updateWhere, mk.injEq]
  exact hrows

/-- The row under a key after an update. -/
theorem get?_updateWhere [DecidableEq κ] (k : κ) :
    (T.updateWhere p f hf).get? k = (T.get? k).map (fun r => if p r then f r else r) := by
  cases hg : T.get? k with
  | none =>
    rw [get?_eq_none] at hg
    rw [map_none, get?_eq_none]
    intro x hx
    obtain ⟨r, hr, rfl⟩ := mem_updateWhere.1 hx
    split
    · rw [hf r]; exact hg r hr
    · exact hg r hr
  | some r =>
    obtain ⟨hr, hk⟩ := get?_eq_some.1 hg
    rw [map_some, get?_eq_some]
    refine ⟨mem_updateWhere.2 ⟨r, hr, rfl⟩, ?_⟩
    split
    · rw [hf r]; exact hk
    · exact hk

/-! ## Insert or update -/

variable [DecidableEq κ]

/-- `INSERT … ON CONFLICT DO UPDATE SET f`. -/
def upsert (T : Table key) (r : ρ) (f : ρ → ρ) (hf : ∀ x, key (f x) = key x) : Table key :=
  (T.insert? r).getD (T.updateWhere (fun x => key x = key r) f hf)

/-- The row under a key after an insertion that updates the row already there. -/
theorem get?_upsert {r : ρ} {g : ρ → ρ} {hg : ∀ x, key (g x) = key x} (k : κ) :
    (T.upsert r g hg).get? k =
      if k = key r then some (((T.get? (key r)).map g).getD r) else T.get? k := by
  unfold upsert
  cases hi : T.insert? r with
  | some T' =>
    have hfree : T.get? (key r) = none :=
      get?_eq_none.2 (insert?_isSome.1 (by rw [hi]; rfl))
    rw [getD_some, get?_insert? hi, hfree, map_none, getD_none]
  | none =>
    rw [getD_none, get?_updateWhere]
    by_cases hk : k = key r
    · rw [if_pos hk, hk]
      cases hrow : T.get? (key r) with
      | some x => rw [map_some, if_pos (key_of_get? hrow), map_some, getD_some]
      | none =>
        have hsome := insert?_isSome.2 (get?_eq_none.1 hrow)
        rw [hi] at hsome
        cases hsome
    · rw [if_neg hk]
      cases hrow : T.get? k with
      | none => rfl
      | some x =>
        rw [map_some, if_neg (fun he => hk ((key_of_get? hrow).symm.trans he))]

end Update

/-! ## Delete -/

section Delete

/-- `DELETE … WHERE p`. -/
def deleteWhere (T : Table key) (p : ρ → Prop) [DecidablePred p] : Table key where
  rows := T.rows.filter (fun r => ¬ p r)
  unique := T.unique.sublist (filter_sublist.map key)

theorem mem_deleteWhere {T : Table key} {p : ρ → Prop} [DecidablePred p] {r : ρ} :
    r ∈ T.deleteWhere p ↔ r ∈ T ∧ ¬ p r := by
  simp [mem_def, deleteWhere]

/-- The row under a key after a deletion. -/
theorem get?_deleteWhere [DecidableEq κ] {T : Table key} {p : ρ → Prop} [DecidablePred p]
    (k : κ) : (T.deleteWhere p).get? k = (T.get? k).filter (fun r => ¬ p r) := by
  cases hg : T.get? k with
  | none =>
    rw [get?_eq_none] at hg
    rw [filter_none, get?_eq_none]
    exact fun x hx => hg x (mem_deleteWhere.1 hx).1
  | some r =>
    obtain ⟨hr, hk⟩ := get?_eq_some.1 hg
    by_cases hp : p r
    · rw [filter_some, if_neg (by simpa using hp), get?_eq_none]
      intro x hx hxk
      obtain ⟨hx, hpx⟩ := mem_deleteWhere.1 hx
      rw [eq_of_key_eq hx hr (hxk.trans hk.symm)] at hpx
      exact hpx hp
    · rw [filter_some, if_pos (by simpa using hp), get?_eq_some]
      exact ⟨mem_deleteWhere.2 ⟨hr, hp⟩, hk⟩

end Delete

/-! ## Selection -/

section Select

variable (p : ρ → Prop) [DecidablePred p] (le : ρ → ρ → Prop) [DecidableRel le]

/-- `SELECT key WHERE p ORDER BY le LIMIT limit`. -/
def select (limit : Nat) (T : Table key) : List κ :=
  (((T.rows.filter (fun r => p r)).insertionSort le).take limit).map key

variable {p le}

theorem mem_select {limit : Nat} {T : Table key} {k : κ} (h : k ∈ T.select p le limit) :
    ∃ r ∈ T, p r ∧ key r = k := by
  obtain ⟨r, hr, rfl⟩ := List.mem_map.1 h
  have hsorted := mem_of_mem_take hr
  rw [mem_insertionSort, mem_filter] at hsorted
  exact ⟨r, hsorted.1, of_decide_eq_true hsorted.2, rfl⟩

end Select

end Table

end Kit

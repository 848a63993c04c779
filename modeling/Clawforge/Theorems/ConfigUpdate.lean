import Clawforge.Api.AdminConfig

/-!
# Half of a configuration update

The keys before the first one that is refused are stored already when the
request fails. So a failed request leaves the configuration alone exactly if
each key it has written held the written row before, in particular if the first
key of the map is the one that fails. A request that succeeds has stored every
key.
-/

namespace Clawforge.AdminConfig

open Kit Table List Option

variable {env : Environment} {user : Uuid} {T : Table ConfigRow.key}
  {entries : List (String × Json)}

/-! ## One key -/

/-- A refused insertion finds a row under its key. -/
theorem exists_of_insert?_none {row : ConfigRow} (hnone : T.insert? row = none) :
    ∃ r, T.get? row.key = some r := by
  rw [← isSome_iff_exists]
  by_contra hget
  rw [not_isSome_iff_eq_none, get?_eq_none] at hget
  have hsome := insert?_isSome.mpr hget
  rw [hnone] at hsome
  cases hsome

theorem get?_setConfig (T : Table ConfigRow.key) (row : ConfigRow) (k : String) :
    (setConfig T row).get? k = if k = row.key then some row else T.get? k := by
  unfold setConfig
  split
  · next inserted hinsert => exact get?_insert? hinsert k
  · next hnone =>
    rw [get?_updateWhere]
    by_cases hk : k = row.key
    · obtain ⟨r, hr⟩ := exists_of_insert?_none hnone
      have hkey : r.key = row.key := key_of_get? hr
      rw [if_pos hk, hk, hr, map_some, if_pos hkey, hkey]
    · rw [if_neg hk]
      cases hr : T.get? k with
      | none => rfl
      | some r =>
        have hkey : r.key ≠ row.key := fun h => hk ((key_of_get? hr).symm.trans h)
        rw [map_some, if_neg hkey]

/-- Storing the row that is there changes nothing. -/
theorem setConfig_eq_self {row : ConfigRow} (h : T.get? row.key = some row) :
    setConfig T row = T := by
  unfold setConfig
  split
  · next inserted hinsert =>
    exact absurd rfl (key_ne_of_insert? hinsert (mem_of_get? h))
  · have hrows : T.rows.map (fun r => if r.key = row.key then
        { r with value := row.value, updatedBy := row.updatedBy, updatedAt := row.updatedAt }
        else r) = T.rows := by
      have hid : ∀ r ∈ T.rows, (if r.key = row.key then
          { r with value := row.value, updatedBy := row.updatedBy, updatedAt := row.updatedAt }
          else r) = id r := by
        intro r hr
        split
        · next hkey =>
          obtain rfl : r = row := eq_of_key_eq hr (mem_of_get? h) hkey
          rfl
        · rfl
      rw [map_congr_left hid, List.map_id]
    obtain ⟨rows, unique⟩ := T
    simp only [Table.updateWhere, Table.mk.injEq]
    exact hrows

/-! ## The loop -/

/-- The request ends with an error at this key. -/
def Fails (env : Environment) (key : String) : Prop :=
  isSecretKey key = true ∨ env.fate key ≠ .stored

instance (env : Environment) : DecidablePred (Fails env) :=
  fun _ => inferInstanceAs (Decidable (_ ∨ _))

/-- The entries that a request writes before it ends: those before the first that fails, and
that one if its statement is applied after all. -/
def written (env : Environment) : List (String × Json) → List (String × Json)
  | [] => []
  | entry :: rest =>
    if Fails env entry.1 then
      if isSecretKey entry.1 = false ∧ env.fate entry.1 = .unacknowledged then [entry] else []
    else entry :: written env rest

/-- What the loop leaves: the written entries, stored one after the other. -/
theorem storeAll_snd (entries : List (String × Json)) (T : Table ConfigRow.key) :
    (storeAll env user entries T).2 =
      (written env entries).foldl (fun T entry => setConfig T (configRow env user entry)) T := by
  induction entries generalizing T with
  | nil => rfl
  | cons entry rest ih =>
    rw [storeAll, written]
    by_cases hsecret : isSecretKey entry.1 = true
    · have hfails : Fails env entry.1 := .inl hsecret
      simp [hsecret, hfails]
    · have hnot : isSecretKey entry.1 = false := Bool.not_eq_true _ ▸ hsecret
      cases hfate : env.fate entry.1 with
      | stored =>
        have hfails : ¬ Fails env entry.1 := by
          rintro (h | h)
          · exact hsecret h
          · exact h hfate
        simp only [hnot, hfails, if_false, Bool.false_eq_true, foldl_cons]
        exact ih _
      | failed | unacknowledged =>
        have hfails : Fails env entry.1 := .inr (by rw [hfate]; decide)
        simp [hnot, hfails]

theorem storeAll_fst (entries : List (String × Json)) (T : Table ConfigRow.key) :
    (storeAll env user entries T).1 = .ok () ↔ ∀ entry ∈ entries, ¬ Fails env entry.1 := by
  induction entries generalizing T with
  | nil => simp [storeAll]
  | cons entry rest ih =>
    rw [storeAll, forall_mem_cons]
    by_cases hsecret : isSecretKey entry.1 = true
    · simp [hsecret, Fails]
    · cases hfate : env.fate entry.1 with
      | stored => simp [hsecret, hfate, Fails, ih]
      | failed | unacknowledged => simp [hsecret, hfate, Fails]

theorem written_sublist (entries : List (String × Json)) :
    (written env entries).Sublist entries := by
  induction entries with
  | nil => exact Sublist.slnil
  | cons entry rest ih =>
    rw [written]
    split
    · split
      · exact (nil_sublist rest).cons_cons entry
      · exact nil_sublist _
    · exact ih.cons_cons entry

/-- Where nothing fails, every entry is written. -/
theorem written_eq_self (h : ∀ entry ∈ entries, ¬ Fails env entry.1) :
    written env entries = entries := by
  induction entries with
  | nil => rfl
  | cons entry rest ih =>
    rw [written, if_neg (h entry mem_cons_self),
      ih fun e he => h e (mem_cons_of_mem _ he)]

/-! ## Stored rows -/

/-- The rows of a table after some entries with distinct keys were stored. -/
theorem get?_foldl (hkeys : (entries.map Prod.fst).Nodup) (T : Table ConfigRow.key) :
    let T' := entries.foldl (fun T entry => setConfig T (configRow env user entry)) T
    (∀ entry ∈ entries, T'.get? entry.1 = some (configRow env user entry)) ∧
      ∀ k, k ∉ entries.map Prod.fst → T'.get? k = T.get? k := by
  induction entries generalizing T with
  | nil => exact ⟨forall_mem_nil _, fun _ _ => rfl⟩
  | cons entry rest ih =>
    rw [map_cons, nodup_cons] at hkeys
    obtain ⟨hstored, hother⟩ := ih hkeys.2 (setConfig T (configRow env user entry))
    refine ⟨forall_mem_cons.mpr ⟨?_, hstored⟩, fun k hk => ?_⟩
    · exact (hother entry.1 hkeys.1).trans ((get?_setConfig _ _ _).trans (if_pos rfl))
    · rw [map_cons, mem_cons, not_or] at hk
      exact (hother k hk.2).trans ((get?_setConfig _ _ _).trans (if_neg hk.1))

/-- Storing entries changes nothing exactly if their rows are there. -/
theorem foldl_eq_self_iff (hkeys : (entries.map Prod.fst).Nodup) (T : Table ConfigRow.key) :
    entries.foldl (fun T entry => setConfig T (configRow env user entry)) T = T ↔
      ∀ entry ∈ entries, T.get? entry.1 = some (configRow env user entry) := by
  constructor
  · intro hsame entry hentry
    have h : (entries.foldl (fun T entry => setConfig T (configRow env user entry)) T).get? entry.1 =
        some (configRow env user entry) :=
      (get?_foldl hkeys T).1 entry hentry
    rwa [hsame] at h
  · intro h
    induction entries with
    | nil => rfl
    | cons entry rest ih =>
      rw [map_cons, nodup_cons] at hkeys
      have hfirst : setConfig T (configRow env user entry) = T :=
        setConfig_eq_self (h entry mem_cons_self)
      rw [foldl_cons, hfirst]
      exact ih hkeys.2 fun e he => h e (mem_cons_of_mem _ he)

/-! ## The request -/

theorem ConfigValues.nodup_keys (values : ConfigValues) : (values.entries.map Prod.fst).Nodup :=
  values.sorted.imp fun h => ne_of_lt h

/-- A failed request leaves the configuration as it was, and a successful one has stored every
key with its value, exactly if an administrator's request in which some key fails writes no row
that was not there before: each entry before the failing one, and the failing one itself where
its statement is applied unacknowledged, holds its row already. -/
theorem failed_update_unchanged_iff (env : Environment) (principal : Except ApiError AdminPrincipal)
    (values : ConfigValues) (T : Table ConfigRow.key) :
    ((∀ e, (adminSetConfig env principal values T).1 = .error e →
        (adminSetConfig env principal values T).2 = T) ∧
      ((adminSetConfig env principal values T).1 = .ok () → ∀ entry ∈ values.entries,
        ∃ row, (adminSetConfig env principal values T).2.get? entry.1 = some row ∧
          row.value = entry.2)) ↔
    ∀ p, principal = .ok p → requireRole p ["Administrator"] = .ok () →
      (∃ entry ∈ values.entries, Fails env entry.1) →
      ∀ entry ∈ written env values.entries, T.get? entry.1 = some (configRow env p.id entry) := by
  cases principal with
  | error e =>
    refine ⟨fun _ p hp => ?_, fun _ => ⟨fun _ _ => rfl, fun hok => ?_⟩⟩
    · cases hp
    · cases hok
  | ok p =>
    cases hrole : requireRole p ["Administrator"] with
    | error e =>
      have hrefused : adminSetConfig env (.ok p) values T = (.error e, T) := by
        rw [adminSetConfig, hrole]
      rw [hrefused]
      refine ⟨?_, fun _ => ⟨fun _ _ => rfl, fun hok => nomatch hok⟩⟩
      rintro - p' hp' hrole'
      obtain rfl := Except.ok.inj hp'
      rw [hrole] at hrole'
      cases hrole'
    | ok done =>
      have hloop : adminSetConfig env (.ok p) values T = storeAll env p.id values.entries T := by
        rw [adminSetConfig, hrole]
      rw [hloop]
      have hkeys : ((written env values.entries).map Prod.fst).Nodup :=
        values.nodup_keys.sublist ((written_sublist _).map _)
      have hsame : (storeAll env p.id values.entries T).2 = T ↔
          ∀ entry ∈ written env values.entries, T.get? entry.1 = some (configRow env p.id entry) := by
        rw [storeAll_snd]
        exact foldl_eq_self_iff hkeys T
      constructor
      · rintro ⟨hfailed, -⟩ p' hp' - ⟨entry, hentry, hfails⟩
        obtain rfl := Except.ok.inj hp'
        rw [← hsame]
        cases hr : (storeAll env p.id values.entries T).1 with
        | error e => exact hfailed e hr
        | ok done => exact absurd hfails ((storeAll_fst _ T).mp hr entry hentry)
      · intro hcondition
        refine ⟨fun e he => ?_, fun hok entry hentry => ?_⟩
        · -- some key fails, or the request would have succeeded
          have hsome : ∃ entry ∈ values.entries, Fails env entry.1 := by
            by_contra hnone
            push Not at hnone
            rw [(storeAll_fst _ T).mpr hnone] at he
            cases he
          exact hsame.mpr (hcondition p rfl hrole hsome)
        · have hall := (storeAll_fst _ T).mp hok
          rw [storeAll_snd, written_eq_self hall]
          exact ⟨_, (get?_foldl values.nodup_keys T).1 entry hentry, rfl⟩

def mixedValues : ConfigValues :=
  ⟨[("poll_interval", .number (.int 60)), ("session_token", .string "x")], by decide⟩

def reachable : Environment := ⟨fun _ => .stored, fun _ => 0⟩

/-- The interval is stored although the request is refused for the token. -/
theorem refused_update_stores :
    ¬ ∀ env principal values T e, (adminSetConfig env principal values T).1 = .error e →
      (adminSetConfig env principal values T).2 = T := by
  intro hall
  have hrefused : (adminSetConfig reachable (.ok ⟨7, "Administrator"⟩) mixedValues
      (Table.empty _)).1 =
      .error ⟨400, "secret values must be supplied through Docker Secrets"⟩ := by
    decide +kernel
  have hsame := congrArg Table.rows (hall _ _ _ _ _ hrefused)
  exact absurd hsame (by decide +kernel)

end Clawforge.AdminConfig

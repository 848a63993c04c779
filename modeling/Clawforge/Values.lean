import Mathlib.Algebra.Group.Int.Defs
import Mathlib.Data.String.Basic

/-!
# Values the services exchange

Row identifiers, instants, and `serde_json::Value` as the services store and
compare it: an object is a sorted map (the crates build `serde_json` without
`preserve_order`), `get` reads one field, and `render` is the compact text whose
byte length the storage layer bounds.
-/

namespace Clawforge

/-- A `Uuid`, of which only equality is used. -/
abbrev Uuid := Nat

/-- A `TIMESTAMPTZ`, in microseconds. -/
abbrev Instant := Nat

/-- `n * INTERVAL '1 second'`. -/
def seconds (n : Nat) : Nat := n * 1000000

/-- `INTERVAL 'n minutes'`. -/
def minutes (n : Nat) : Nat := seconds (60 * n)

/-- A JSON number. A float is kept as the text `serde_json` prints for it. -/
inductive JsonNumber
  | int (n : Int)
  | float (text : String)
deriving DecidableEq, Repr

inductive Json
  | null
  | bool (b : Bool)
  | number (n : JsonNumber)
  | string (s : String)
  | array (xs : List Json)
  | object (fields : List (String × Json))

namespace Json

mutual

def decEq : (a b : Json) → Decidable (a = b)
  | .null, .null => isTrue rfl
  | .bool a, .bool b => decidable_of_iff (a = b) (by simp)
  | .number a, .number b => decidable_of_iff (a = b) (by simp)
  | .string a, .string b => decidable_of_iff (a = b) (by simp)
  | .array a, .array b =>
    have := decEqList a b
    decidable_of_iff (a = b) (by simp)
  | .object a, .object b =>
    have := decEqFields a b
    decidable_of_iff (a = b) (by simp)
  | .null, .bool _ | .null, .number _ | .null, .string _ | .null, .array _
  | .null, .object _ | .bool _, .null | .bool _, .number _ | .bool _, .string _
  | .bool _, .array _ | .bool _, .object _ | .number _, .null | .number _, .bool _
  | .number _, .string _ | .number _, .array _ | .number _, .object _
  | .string _, .null | .string _, .bool _ | .string _, .number _
  | .string _, .array _ | .string _, .object _ | .array _, .null | .array _, .bool _
  | .array _, .number _ | .array _, .string _ | .array _, .object _
  | .object _, .null | .object _, .bool _ | .object _, .number _
  | .object _, .string _ | .object _, .array _ => isFalse (by simp)

def decEqList : (a b : List Json) → Decidable (a = b)
  | [], [] => isTrue rfl
  | x :: xs, y :: ys =>
    have := decEq x y
    have := decEqList xs ys
    decidable_of_iff (x = y ∧ xs = ys) (by simp)
  | [], _ :: _ | _ :: _, [] => isFalse (by simp)

def decEqFields : (a b : List (String × Json)) → Decidable (a = b)
  | [], [] => isTrue rfl
  | (k, x) :: xs, (l, y) :: ys =>
    have := decEq x y
    have := decEqFields xs ys
    decidable_of_iff (k = l ∧ x = y ∧ xs = ys) (by simp [and_assoc])
  | [], _ :: _ | _ :: _, [] => isFalse (by simp)

end

instance : DecidableEq Json := decEq

/-! ## Reading -/

/-- `Value::get` with a string key. -/
def get : Json → String → Option Json
  | .object fields, key => fields.lookup key
  | _, _ => none

/-- `Value::as_str`. -/
def asStr : Json → Option String
  | .string s => some s
  | _ => none

/-- `Value::as_u64`. -/
def asU64 : Json → Option Nat
  | .number (.int n) => if 0 ≤ n ∧ n < 2 ^ 64 then some n.toNat else none
  | _ => none

/-- `Value::as_bool`. -/
def asBool : Json → Option Bool
  | .bool b => some b
  | _ => none

/-- `Value::as_array`. -/
def asArray : Json → Option (List Json)
  | .array xs => some xs
  | _ => none

/-- `Value::is_object`. -/
def isObject : Json → Bool
  | .object _ => true
  | _ => false

/-! ## Building -/

/-- `Map::insert` on the sorted map. -/
def insertField (key : String) (value : Json) : List (String × Json) → List (String × Json)
  | [] => [(key, value)]
  | (k, v) :: rest =>
    if key < k then (key, value) :: (k, v) :: rest
    else if key = k then (key, value) :: rest
    else (k, v) :: insertField key value rest

/-- `json!({ … })`. -/
def ofFields (fields : List (String × Json)) : Json :=
  .object (fields.foldl (fun acc f => insertField f.1 f.2 acc) [])

theorem lookup_cons_eq (k l : String) (v : Json) (rest : List (String × Json)) :
    ((l, v) :: rest).lookup k = if k = l then some v else rest.lookup k := by
  rw [List.lookup_cons]
  by_cases h : k = l
  · rw [h, beq_self_eq_true, if_pos rfl]
  · rw [beq_false_of_ne h, if_neg h]

/-- Reading after `Map::insert`. -/
theorem lookup_insertField (key : String) (value : Json) (k : String)
    (fields : List (String × Json)) : (insertField key value fields).lookup k =
      if k = key then some value else fields.lookup k := by
  induction fields with
  | nil => exact lookup_cons_eq k key value []
  | cons f rest ih =>
    obtain ⟨l, v⟩ := f
    rw [insertField]
    by_cases hlt : key < l
    · rw [if_pos hlt, lookup_cons_eq]
    · by_cases heq : key = l
      · rw [if_neg hlt, if_pos heq, lookup_cons_eq, lookup_cons_eq, heq]
        by_cases h : k = l
        · rw [if_pos h, if_pos h]
        · rw [if_neg h, if_neg h, if_neg h]
      · rw [if_neg hlt, if_neg heq, lookup_cons_eq, lookup_cons_eq, ih]
        by_cases h : k = l
        · rw [if_pos h, if_pos h, if_neg (fun hk => heq (hk.symm.trans h))]
        · rw [if_neg h, if_neg h]

theorem lookup_foldl_insertField {fields : List (String × Json)}
    (h : (fields.map Prod.fst).Nodup) (acc : List (String × Json)) (k : String) :
    (fields.foldl (fun acc f => insertField f.1 f.2 acc) acc).lookup k =
      (fields.lookup k).or (acc.lookup k) := by
  induction fields generalizing acc with
  | nil => rfl
  | cons f rest ih =>
    obtain ⟨l, v⟩ := f
    rw [List.map_cons, List.nodup_cons] at h
    rw [List.foldl_cons, ih h.2, lookup_insertField, lookup_cons_eq]
    by_cases hk : k = l
    · have hrest : rest.lookup k = none := by
        rw [List.lookup_eq_none_iff]
        intro p hp
        rw [bne_iff_ne]
        rintro rfl
        exact h.1 (hk ▸ List.mem_map.2 ⟨p, hp, rfl⟩)
      rw [if_pos hk, if_pos hk, hrest]
      rfl
    · rw [if_neg hk, if_neg hk]

/-- Reading a field of distinct ones. -/
theorem get_ofFields {fields : List (String × Json)} (h : (fields.map Prod.fst).Nodup)
    (k : String) : (ofFields fields).get k = fields.lookup k := by
  show (fields.foldl (fun acc f => insertField f.1 f.2 acc) []).lookup k = _
  rw [lookup_foldl_insertField h]
  simp

/-! ## Compact text -/

/-- One lower-case hexadecimal digit. -/
def hexDigit (n : Nat) : Char := Nat.digitChar (n % 16)

/-- One character inside a JSON string literal. -/
def escapeChar (c : Char) : List Char :=
  if c = '"' then ['\\', '"']
  else if c = '\\' then ['\\', '\\']
  else if c = '\n' then ['\\', 'n']
  else if c = '\r' then ['\\', 'r']
  else if c = '\t' then ['\\', 't']
  else if c.toNat = 8 then ['\\', 'b']
  else if c.toNat = 12 then ['\\', 'f']
  else if c.toNat < 32 then
    ['\\', 'u', '0', '0', hexDigit (c.toNat / 16), hexDigit c.toNat]
  else [c]

def quote (s : String) : String :=
  String.ofList ('"' :: s.toList.flatMap escapeChar ++ ['"'])

mutual

/-- `Value::to_string`. -/
def render : Json → String
  | .null => "null"
  | .bool b => if b then "true" else "false"
  | .number (.int n) => toString n
  | .number (.float text) => text
  | .string s => quote s
  | .array xs => "[" ++ renderItems xs ++ "]"
  | .object fields => "\x7b" ++ renderFields fields ++ "\x7d"

def renderItems : List Json → String
  | [] => ""
  | [x] => render x
  | x :: y :: rest => render x ++ "," ++ renderItems (y :: rest)

def renderFields : List (String × Json) → String
  | [] => ""
  | [(k, v)] => quote k ++ ":" ++ render v
  | (k, v) :: f :: rest => quote k ++ ":" ++ render v ++ "," ++ renderFields (f :: rest)

end

end Json

end Clawforge

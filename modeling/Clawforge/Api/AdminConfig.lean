import Clawforge.Kit.Table
import Clawforge.Text
import Clawforge.Values

/-!
# Changing the configuration

`admin_set_config`: the keys of the request in the order of the map, each
checked and then stored by a statement of its own.
-/

namespace Clawforge.AdminConfig

open Kit Text

/-- A row of `admin_config`. -/
structure ConfigRow where
  key : String
  value : Json
  updatedBy : Option Uuid
  updatedAt : Instant
deriving DecidableEq

/-- `StatusCode` and message of an error response. -/
structure ApiError where
  status : Nat
  message : String
deriving DecidableEq, Repr

structure AdminPrincipal where
  id : Uuid
  role : String
deriving DecidableEq

/-- `serde_json::Map`: the keys are sorted and distinct. -/
structure ConfigValues where
  entries : List (String × Json)
  sorted : (entries.map Prod.fst).Pairwise (· < ·)

/-- How the statement for a key ends. -/
inductive Fate
  | stored
  | failed
  /-- it was applied, but its answer was lost -/
  | unacknowledged
deriving DecidableEq, Repr

/-- What a request meets: the end of each key's statement, and its `NOW()`. -/
structure Environment where
  fate : String → Fate
  now : String → Instant

/-- `require_role`. -/
def requireRole (principal : AdminPrincipal) (roles : List String) : Except ApiError Unit :=
  if roles.contains principal.role || (principal.role = "Approver" && roles.contains "Viewer") then
    .ok ()
  else .error ⟨403, "insufficient permission"⟩

/-- A key that may name a secret. -/
def isSecretKey (key : String) : Bool :=
  let lower := toAsciiLowercase key.toList
  contains "secret".toList lower || contains "password".toList lower ||
    contains "token".toList lower || contains "api_key".toList lower

/-- `set_config`: `INSERT … ON CONFLICT (key) DO UPDATE`. -/
def setConfig (T : Table ConfigRow.key) (row : ConfigRow) : Table ConfigRow.key :=
  match T.insert? row with
  | some inserted => inserted
  | none => T.updateWhere (fun r => r.key = row.key)
      (fun r => { r with value := row.value, updatedBy := row.updatedBy, updatedAt := row.updatedAt })
      (fun _ => rfl)

section Request

variable (env : Environment) (user : Uuid)

/-- The row a key is stored as. -/
def configRow (entry : String × Json) : ConfigRow := ⟨entry.1, entry.2, some user, env.now entry.1⟩

/-- The loop over the keys. -/
def storeAll : List (String × Json) → Table ConfigRow.key →
    Except ApiError Unit × Table ConfigRow.key
  | [], T => (.ok (), T)
  | entry :: rest, T =>
    if isSecretKey entry.1 then
      (.error ⟨400, "secret values must be supplied through Docker Secrets"⟩, T)
    else
      match env.fate entry.1 with
      | .stored => storeAll rest (setConfig T (configRow env user entry))
      | .failed => (.error ⟨503, "configuration update failed"⟩, T)
      | .unacknowledged =>
        (.error ⟨503, "configuration update failed"⟩,
          setConfig T (configRow env user entry))

end Request

/-- `admin_set_config`, of what `authenticate` answers. -/
def adminSetConfig (env : Environment) (principal : Except ApiError AdminPrincipal)
    (values : ConfigValues) (T : Table ConfigRow.key) :
    Except ApiError Unit × Table ConfigRow.key :=
  match principal with
  | .error e => (.error e, T)
  | .ok principal =>
    match requireRole principal ["Administrator"] with
    | .error e => (.error e, T)
    | .ok () => storeAll env principal.id values.entries T

end Clawforge.AdminConfig

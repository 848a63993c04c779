import Clawforge.Api.FirewallStatus

/-!
# What the agent API shows of the firewall and what the MCP tool passes on

The tool's allowlist lacks a field every view has, so it passes no view on. Of what it does accept
the field names are checked and the values are not.
-/

namespace Clawforge

namespace Json

/-! ## Nesting -/

mutual

/-- How many arrays and objects stand inside one another. -/
def depth : Json → Nat
  | .array xs => depthItems xs + 1
  | .object fields => depthFields fields + 1
  | _ => 0

def depthItems : List Json → Nat
  | [] => 0
  | x :: xs => max (depth x) (depthItems xs)

def depthFields : List (String × Json) → Nat
  | [] => 0
  | (_, x) :: fields => max (depth x) (depthFields fields)

end

/-- A value that is neither an array nor an object. -/
def isScalar : Json → Bool
  | .array _ => false
  | .object _ => false
  | _ => true

theorem depth_eq_zero_iff (value : Json) : value.depth = 0 ↔ value.isScalar = true := by
  cases value <;> simp [depth, isScalar]

theorem depthFields_le_iff (fields : List (String × Json)) (n : Nat) :
    depthFields fields ≤ n ↔ ∀ f ∈ fields, f.2.depth ≤ n := by
  induction fields with
  | nil => simp [depthFields]
  | cons f fields ih =>
    obtain ⟨key, value⟩ := f
    rw [depthFields, max_le_iff, ih, List.forall_mem_cons]

end Json

namespace FirewallStatus

/-! ## The property -/

/-- A row with none but allowlisted fields, each a scalar. -/
def RowSafe (allowed : List String) (row : Json) : Prop :=
  ∃ object, asObject row = some object ∧
    ∀ f ∈ object, f.1 ∈ allowed ∧ f.2.isScalar = true

/-- A document with none but allowlisted fields, at every level, each that is no list of rows a
scalar. -/
structure OnlyAllowlisted (data : Json) : Prop where
  fields : ∃ object, asObject data = some object ∧ ∀ f ∈ object, f.1 ∈ documentFields
  scalars : ∀ key ∈ ["projection_version", "expired_total", "expired_truncated"],
    ∀ value, data.get key = some value → value.isScalar = true
  rows : ∀ f ∈ rowFields, ∃ rows, (data.get f.1).bind Json.asArray = some rows ∧
    ∀ row ∈ rows, RowSafe f.2 row

/-- Nothing nests in the counters, and nothing in a row's fields. -/
structure Shallow (data : Json) : Prop where
  counters : ∀ key ∈ ["expired_total", "expired_truncated"], ∀ value,
    data.get key = some value → value.depth = 0
  rows : ∀ f ∈ rowFields, ∀ rows, (data.get f.1).bind Json.asArray = some rows →
    ∀ row ∈ rows, row.depth ≤ 1

/-! ## What the tool accepts -/

theorem onlyFields_iff (value : Json) (allowed : List String) :
    onlyFields value allowed = true ↔
      ∃ object, asObject value = some object ∧ ∀ f ∈ object, f.1 ∈ allowed := by
  unfold onlyFields
  cases asObject value <;> simp

/-- What the tool checks of a document, and all of it. -/
theorem safe_iff (data : Json) : safeFirewallStatusProjection data = true ↔
    (∃ object, asObject data = some object ∧ ∀ f ∈ object, f.1 ∈ documentFields) ∧
      (data.get "projection_version").bind Json.asU64 = some 1 ∧
      ∀ f ∈ rowFields, ∃ rows, (data.get f.1).bind Json.asArray = some rows ∧
        ∀ row ∈ rows, onlyFields row f.2 = true := by
  unfold safeFirewallStatusProjection
  cases hobject : asObject data with
  | none => simp
  | some object =>
    simp only [Option.some.injEq, exists_eq_left']
    by_cases hversion : (data.get "projection_version").bind Json.asU64 = some 1
    · by_cases hkeys : (object.all fun f => decide (f.1 ∈ documentFields)) = true
      · rw [if_neg (by rintro (h | h); exacts [h hversion, h hkeys]), List.all_eq_true]
        rw [List.all_eq_true] at hkeys
        constructor
        · intro h
          refine ⟨fun f hf => of_decide_eq_true (hkeys f hf), hversion, fun f hf => ?_⟩
          have hrow := h f hf
          split at hrow
          · next rows hrows => exact ⟨rows, hrows, List.all_eq_true.1 hrow⟩
          · cases hrow
        · intro h f hf
          obtain ⟨rows, hrows, hall⟩ := h.2.2 f hf
          rw [hrows]
          exact List.all_eq_true.2 hall
      · rw [if_pos (.inr hkeys)]
        refine iff_of_false Bool.false_ne_true fun h => hkeys ?_
        exact List.all_eq_true.2 fun f hf => decide_eq_true (h.1 f hf)
    · rw [if_pos (.inl hversion)]
      exact iff_of_false Bool.false_ne_true fun h => hversion h.2.1

/-- A document with a field outside the allowlist is rejected. -/
theorem safe_eq_false_of_get {data : Json} {key : String} {value : Json}
    (hget : data.get key = some value) (hkey : key ∉ documentFields) :
    safeFirewallStatusProjection data = false := by
  rw [← Bool.not_eq_true, safe_iff]
  rintro ⟨⟨object, hobject, hfields⟩, -⟩
  cases data with
  | object fields =>
    obtain rfl : fields = object := Option.some.inj hobject
    obtain ⟨before, after, rfl, -⟩ := List.lookup_eq_some_iff.1 hget
    exact hkey (hfields (key, value) (by simp))
  | _ => cases hobject

/-- A row of an accepted document is safe exactly when it is flat. -/
theorem rowSafe_iff {row : Json} {allowed : List String}
    (h : onlyFields row allowed = true) : RowSafe allowed row ↔ row.depth ≤ 1 := by
  obtain ⟨object, hobject, hfields⟩ := (onlyFields_iff row allowed).1 h
  cases row with
  | object fields =>
    obtain rfl : fields = object := Option.some.inj hobject
    rw [Json.depth, Nat.add_le_add_iff_right (n := 1) (k := 0), Json.depthFields_le_iff]
    constructor
    · rintro ⟨object, hobject, hall⟩ f hf
      obtain rfl : fields = object := Option.some.inj hobject
      exact Nat.le_of_eq ((Json.depth_eq_zero_iff f.2).2 (hall f hf).2)
    · intro hflat
      exact ⟨fields, rfl, fun f hf => ⟨hfields f hf,
        (Json.depth_eq_zero_iff f.2).1 (Nat.le_zero.1 (hflat f hf))⟩⟩
  | _ => cases hobject

/-- The version of an accepted document is a number. -/
theorem isScalar_of_asU64 {value : Json} {n : Nat} (h : value.asU64 = some n) :
    value.isScalar = true := by
  cases value with
  | number => rfl
  | _ => cases h

/-- An accepted document carries none but allowlisted scalars exactly when it is shallow. -/
theorem onlyAllowlisted_iff {data : Json} (h : safeFirewallStatusProjection data = true) :
    OnlyAllowlisted data ↔ Shallow data := by
  obtain ⟨hfields, hversion, hrows⟩ := (safe_iff data).1 h
  constructor
  · intro hsafe
    refine ⟨fun key hkey value hget => ?_, fun f hf rows hget row hrow => ?_⟩
    · exact (Json.depth_eq_zero_iff value).2
        (hsafe.scalars key (List.mem_cons_of_mem _ hkey) value hget)
    · obtain ⟨checked, hget', hchecked⟩ := hrows f hf
      obtain ⟨safe, hget'', hall⟩ := hsafe.rows f hf
      obtain rfl : rows = checked := Option.some.inj (hget.symm.trans hget')
      obtain rfl : rows = safe := Option.some.inj (hget.symm.trans hget'')
      exact (rowSafe_iff (hchecked row hrow)).1 (hall row hrow)
  · intro hshallow
    refine ⟨hfields, fun key hkey value hget => ?_, fun f hf => ?_⟩
    · rcases List.mem_cons.1 hkey with rfl | hkey
      · rw [hget] at hversion
        exact isScalar_of_asU64 hversion
      · exact (Json.depth_eq_zero_iff value).1 (hshallow.counters key hkey value hget)
    · obtain ⟨rows, hget, hchecked⟩ := hrows f hf
      exact ⟨rows, hget, fun row hrow =>
        (rowSafe_iff (hchecked row hrow)).2 (hshallow.rows f hf rows hget row hrow)⟩

/-! ## What becomes of the view -/

theorem get_agentFirewallStatusView (receipts : List Json)
    (expired : List ExpiredFirewallTarget) (killSwitch : List Json)
    (latency : FirewallRollbackLatency) (key : String) :
    (agentFirewallStatusView receipts expired killSwitch latency).get key =
      (viewFields receipts expired killSwitch latency).lookup key :=
  Json.get_ofFields (by simp [viewFields]) key

theorem lookup_redactFields (fields : List (String × Json)) {key : String}
    (hkey : key ∉ redactedKeys) :
    (redactFields fields).lookup key = (fields.lookup key).map redact := by
  induction fields with
  | nil => rfl
  | cons f fields ih =>
    obtain ⟨name, value⟩ := f
    rw [redactFields, Json.lookup_cons_eq]
    by_cases hname : name ∈ redactedKeys
    · have hne : key ≠ name := by
        rintro rfl
        exact hkey hname
      rw [if_pos hname, ih, if_neg hne]
    · rw [if_neg hname, Json.lookup_cons_eq, ih]
      split <;> rfl

theorem get_redact (value : Json) {key : String} (hkey : key ∉ redactedKeys) :
    (redact value).get key = (value.get key).map redact := by
  cases value with
  | object fields => rw [redact]; exact lookup_redactFields fields hkey
  | _ => rw [redact]; rfl

/-- The tool's redaction leaves the field in the view that its allowlist lacks. -/
theorem safe_redact_view (receipts : List Json) (expired : List ExpiredFirewallTarget)
    (killSwitch : List Json) (latency : FirewallRollbackLatency) :
    safeFirewallStatusProjection
      (redact (agentFirewallStatusView receipts expired killSwitch latency)) = false := by
  refine @safe_eq_false_of_get _ "rollback_latency" (redact (rollbackLatencyView latency)) ?_
    (by decide)
  rw [get_redact _ (by decide), get_agentFirewallStatusView]
  rfl

theorem safe_view (receipts : List Json) (expired : List ExpiredFirewallTarget)
    (killSwitch : List Json) (latency : FirewallRollbackLatency) :
    safeFirewallStatusProjection
      (agentFirewallStatusView receipts expired killSwitch latency) = false := by
  refine @safe_eq_false_of_get _ "rollback_latency" (rollbackLatencyView latency) ?_ (by decide)
  rw [get_agentFirewallStatusView]
  rfl

/-- What the tool returns it accepted. -/
theorem safe_of_getFirewallStatus {mcpScopes : List String} {upstream : Upstream}
    {response : Envelope} (h : getFirewallStatus mcpScopes upstream = .ok response) :
    safeFirewallStatusProjection response.data = true ∧ requestInner upstream = .ok response := by
  unfold getFirewallStatus at h
  cases hscope : requireScope mcpScopes scopeFirewall with
  | error e => rw [hscope] at h; cases h
  | ok u =>
    rw [hscope] at h
    cases hrequest : requestInner upstream with
    | error e => rw [hrequest] at h; cases h
    | ok fetched =>
      rw [hrequest] at h
      change (if safeFirewallStatusProjection fetched.data = true then _ else _) = _ at h
      split at h
      · case isTrue hsafe =>
          obtain rfl : fetched = response := Except.ok.inj h
          exact ⟨hsafe, rfl⟩
      · cases h

/-- A response of the API comes redacted. -/
theorem data_of_requestInner {status : Nat} {body response : Envelope}
    (h : requestInner (.answered status (some body)) = .ok response) :
    response.data = redact body.data := by
  change (if _ then _ else ensureResponseSize (toolResponse body)) = _ at h
  split at h
  · cases h
  · unfold ensureResponseSize at h
    split at h
    · cases h
    · rw [← Except.ok.inj h]
      rfl

/-- The tool accepts no view of the API and returns none; and what it does accept carries none but
allowlisted scalars exactly when nothing nests in its counters and in the fields of its rows. -/
theorem projections_agree_iff (data : Json) :
    (∀ receipts expired killSwitch latency,
      safeFirewallStatusProjection
          (agentFirewallStatusView receipts expired killSwitch latency) = false ∧
        ∀ mcpScopes status body response,
          body.data = agentFirewallStatusView receipts expired killSwitch latency →
          getFirewallStatus mcpScopes (.answered status (some body)) ≠ .ok response) ∧
    (safeFirewallStatusProjection data = true → (OnlyAllowlisted data ↔ Shallow data)) := by
  refine ⟨fun receipts expired killSwitch latency => ⟨?_, ?_⟩, onlyAllowlisted_iff⟩
  · exact safe_view receipts expired killSwitch latency
  · intro mcpScopes status body response hbody h
    obtain ⟨hsafe, hrequest⟩ := safe_of_getFirewallStatus h
    rw [data_of_requestInner hrequest, hbody, safe_redact_view] at hsafe
    cases hsafe

/-- A document whose one expired row has a target under an allowed name. -/
def nestedTarget : Json := .object
  [("expired", .array [.object [("receipt_id", .object [("ip", .string "198.51.100.7")])]]),
   ("kill_switch", .array []), ("projection_version", .number (.int 1)),
   ("receipts", .array [])]

/-- The view of an empty ledger is rejected, and a target under an allowed name is accepted. -/
theorem projections_disagree :
    safeFirewallStatusProjection (agentFirewallStatusView [] [] []
      ⟨604800, 0, some "0.0", some "0.0", some "0.0"⟩) = false ∧
    safeFirewallStatusProjection nestedTarget = true ∧ ¬ OnlyAllowlisted nestedTarget := by
  have hsafe : safeFirewallStatusProjection nestedTarget = true := by decide
  refine ⟨by decide +kernel, hsafe, fun h => ?_⟩
  have hshallow := (onlyAllowlisted_iff hsafe).1 h
  have hdepth := hshallow.rows ("expired", ["receipt_id", "adapter"]) (by decide) _ rfl _
    List.mem_cons_self
  exact absurd hdepth (by decide)

end FirewallStatus

end Clawforge

import Clawforge.Storage.LearningQueries

/-!
# Learning queries

A query asks for some fields of a context (`RequestedField`), each of which a
context states, contradicts or leaves open. `Applicable` says in these terms
which revisions a query is after; the statement, which reads the contexts as
`jsonb`, selects exactly those (`selected_iff`), and sorts those that state
more of the fields first.
-/

namespace Clawforge.Learning

open List Option

open Assessments (fieldText)
open Retention (castBoolean)
open Clawforge.Text Kit

/-! ## Requested fields -/

/-- A field of the context that a query can ask for under its name. -/
inductive ContextField
  | project | agent | model | provider | language | framework | platform | errorClass
deriving DecidableEq

namespace ContextField

def all : List ContextField :=
  [.project, .agent, .model, .provider, .language, .framework, .platform, .errorClass]

def key : ContextField → String
  | .project => "project"
  | .agent => "agent"
  | .model => "model"
  | .provider => "provider"
  | .language => "language"
  | .framework => "framework"
  | .platform => "platform"
  | .errorClass => "error_class"

/-- The context's own value. -/
def own (c : LearningContext) : ContextField → Option String
  | .project => c.project
  | .agent => c.agent
  | .model => c.model
  | .provider => c.provider
  | .language => c.language
  | .framework => c.framework
  | .platform => c.platform
  | .errorClass => c.errorClass

/-- The query's filter. -/
def filter (q : LearningQuery) : ContextField → Option String
  | .project => q.project
  | .agent => q.agent
  | .model => q.model
  | .provider => q.provider
  | .language => q.language
  | .framework => q.framework
  | .platform => q.platform
  | .errorClass => q.errorClass

theorem key_not_reserved (f : ContextField) : f.key ≠ "versions" ∧ f.key ≠ "files" := by
  cases f <;> decide

end ContextField

/-- What a query asks of a context. -/
inductive RequestedField
  | named (field : ContextField) (value : String)
  | file (path : String)
  | version (key value : String)

namespace RequestedField

/-- The context has this value. -/
def StatedBy (c : LearningContext) : RequestedField → Prop
  | .named field value => field.own c = some value
  | .file path => path ∈ c.files
  | .version key value => c.versions.lookup key = some value

/-- The context has another value. -/
def ConflictsWith (c : LearningContext) : RequestedField → Prop
  | .named field value => ∃ other, field.own c = some other ∧ other ≠ value
  | .file path => c.files ≠ [] ∧ path ∉ c.files
  | .version key value => ∃ other, c.versions.lookup key = some other ∧ other ≠ value

/-- The context is generic and says nothing of it, for a version only by `{"*":"*"}`. -/
def OpenIn (c : LearningContext) (f : RequestedField) : Prop :=
  c.generic = true ∧
    match f with
    | .named field _ => field.own c = none
    | .file _ => c.files = []
    | .version key _ => c.versions.lookup "*" = some "*" ∧ c.versions.lookup key = none

instance (c : LearningContext) : DecidablePred (StatedBy c)
  | .named _ _ => inferInstanceAs (Decidable (_ = _))
  | .file _ => inferInstanceAs (Decidable (_ ∈ _))
  | .version _ _ => inferInstanceAs (Decidable (_ = _))

instance (c : LearningContext) : DecidablePred (OpenIn c)
  | .named _ _ => inferInstanceAs (Decidable (_ ∧ _))
  | .file _ => inferInstanceAs (Decidable (_ ∧ _))
  | .version _ _ => inferInstanceAs (Decidable (_ ∧ _ ∧ _))

/-- A value that is stated or left open is not contradicted. -/
theorem not_conflictsWith {c : LearningContext} {f : RequestedField}
    (h : f.StatedBy c ∨ f.OpenIn c) : ¬ f.ConflictsWith c := by
  cases f with
  | named field value =>
    rintro ⟨other, hother, hne⟩
    rcases h with h | ⟨-, h⟩
    · exact hne (some.inj (hother.symm.trans h))
    · exact absurd (hother.symm.trans h) nofun
  | file path =>
    rintro ⟨hsome, hnot⟩
    rcases h with h | ⟨-, h⟩
    · exact hnot h
    · exact hsome h
  | version key value =>
    rintro ⟨other, hother, hne⟩
    rcases h with h | ⟨-, -, h⟩
    · exact hne (some.inj (hother.symm.trans h))
    · exact absurd (hother.symm.trans h) nofun

/-- The entry of the requested context. -/
def entry : RequestedField → String × Json
  | .named field value => (field.key, .string value)
  | .file path => ("files", .array [.string path])
  | .version key value => ("versions", .ofFields [(key, .string value)])

end RequestedField

namespace LearningQuery

def requestedVersion (q : LearningQuery) : List RequestedField :=
  match q.versionKey, q.version with
  | some key, some value => [.version key value]
  | _, _ => []

/-- The fields a query asks for. -/
def requested (q : LearningQuery) : List RequestedField :=
  ContextField.all.filterMap (fun f => (f.filter q).map (.named f)) ++
    q.filePath.toList.map .file ++ q.requestedVersion

/-- What the function asks of a query. -/
structure Accepted (q : LearningQuery) : Prop where
  status : q.status.getD "active" ∈ ["pending", "active", "superseded", "deprecated"]
  filters : ∀ f ∈ ContextField.all, ∀ v ∈ f.filter q, bounded v 512 = true
  file : ∀ path ∈ q.filePath, bounded path 1024 = true
  paired : q.versionKey.isSome = q.version.isSome
  version : ∀ key ∈ q.versionKey, ∀ v ∈ q.version, (bounded key 80 && bounded v 128) = true
  tag : ∀ t ∈ q.tag, bounded t 80 = true
  texts : q.texts.all bindable = true

theorem contextFilters_eq (q : LearningQuery) :
    q.contextFilters = ContextField.all.map fun f => (f.key, f.filter q) := rfl

end LearningQuery

/-! ## The stored context -/

def lessonKeys : List String :=
  ["idempotency_key", "repository", "component", "title", "symptoms", "cause", "fix", "rule",
    "validity", "tags", "evidence", "context"]

def contextKeys : List String :=
  ["generic", "project", "task", "agent", "model", "provider", "language", "framework",
    "platform", "error_class", "origin", "pull_request", "files", "versions", "confidence"]

theorem lessonKeys_nodup : lessonKeys.Nodup := by decide

theorem contextKeys_nodup : contextKeys.Nodup := by decide

variable {fields : List (String × Json)}

/-- A field of an object with these keys. -/
theorem get_field {keys : List String} (hkeys : keys.Nodup) {j : Json} (hj : j = .ofFields fields)
    (hfields : fields.map Prod.fst = keys) (key : String) : j.get key = fields.lookup key := by
  subst hj
  exact Json.get_ofFields (hfields ▸ hkeys) key

theorem get_context (i : LearningLessonInput) :
    i.toJson.get "context" = some i.context.toJson :=
  get_field lessonKeys_nodup rfl rfl "context"

theorem get_tags (i : LearningLessonInput) :
    i.toJson.get "tags" = some (.array (i.tags.map .string)) :=
  get_field lessonKeys_nodup rfl rfl "tags"

section Context

variable (c : LearningContext)

theorem get_generic : c.toJson.get "generic" = some (.bool c.generic) :=
  get_field contextKeys_nodup rfl rfl "generic"

theorem get_files : c.toJson.get "files" = some (.array (c.files.map .string)) :=
  get_field contextKeys_nodup rfl rfl "files"

theorem get_versions : c.toJson.get "versions" =
    some (.ofFields (c.versions.map fun (key, v) => (key, .string v))) :=
  get_field contextKeys_nodup rfl rfl "versions"

theorem get_own (f : ContextField) : c.toJson.get f.key = some (optionJson (f.own c)) := by
  cases f
  · exact get_field contextKeys_nodup rfl rfl "project"
  · exact get_field contextKeys_nodup rfl rfl "agent"
  · exact get_field contextKeys_nodup rfl rfl "model"
  · exact get_field contextKeys_nodup rfl rfl "provider"
  · exact get_field contextKeys_nodup rfl rfl "language"
  · exact get_field contextKeys_nodup rfl rfl "framework"
  · exact get_field contextKeys_nodup rfl rfl "platform"
  · exact get_field contextKeys_nodup rfl rfl "error_class"

theorem fieldText_generic :
    fieldText c.toJson "generic" = some (if c.generic then "true" else "false") := by
  unfold fieldText
  rw [get_generic]
  cases c.generic <;> rfl

theorem castBoolean_generic :
    castBoolean (if c.generic then "true" else "false") = .ok c.generic := by
  cases c.generic <;> decide +kernel

/-- A version of the stored object. -/
theorem get_version (hkeys : (c.versions.map Prod.fst).Nodup) (key : String) :
    (Json.ofFields (c.versions.map fun (key, v) => (key, .string v))).get key =
      (c.versions.lookup key).map .string := by
  have hmap : ((c.versions.map fun (key, v) => (key, Json.string v)).map Prod.fst) =
      c.versions.map Prod.fst := by
    rw [List.map_map]
    rfl
  rw [Json.get_ofFields (hmap ▸ hkeys)]
  induction c.versions with
  | nil => rfl
  | cons first rest ih =>
    obtain ⟨k, v⟩ := first
    rw [map_cons, Json.lookup_cons_eq, ih, lookup_cons]
    by_cases hk : key = k
    · rw [if_pos hk, beq_iff_eq.mpr hk]
      rfl
    · rw [if_neg hk, beq_false_of_ne hk]

/-- One of the stored strings is in an array. -/
theorem contains_string (own : List String) (s : String) :
    jsonbContains (.array (own.map .string)) (.array [.string s]) = decide (s ∈ own) := by
  have hany : (own.map Json.string).any (fun x => jsonbHolds x (.string s)) =
      decide (s ∈ own) := by
    induction own with
    | nil => rfl
    | cons first rest ih =>
      rw [map_cons, any_cons, ih]
      show (decide (first = s) || decide (s ∈ rest)) = _
      rw [← Bool.decide_or]
      exact decide_eq_decide.mpr (by rw [mem_cons, eq_comm])
  show ((own.map Json.string).any (fun x => jsonbHolds x (.string s)) && true) = _
  rw [Bool.and_true, hany]

/-- `@>` on the stored context is what the context states. -/
theorem contains_entry (hkeys : (c.versions.map Prod.fst).Nodup) (f : RequestedField) :
    (c.toJson.get f.entry.1).any (jsonbContains · f.entry.2) = decide (f.StatedBy c) := by
  cases f with
  | named field value =>
    show (c.toJson.get field.key).any _ = decide (field.own c = some value)
    rw [get_own]
    cases field.own c with
    | none => rfl
    | some own =>
      show decide (own = value) = _
      simp
  | file path =>
    show (c.toJson.get "files").any _ = decide (path ∈ c.files)
    rw [get_files]
    exact contains_string c.files path
  | version key value =>
    show (c.toJson.get "versions").any _ = decide (c.versions.lookup key = some value)
    rw [get_versions]
    show (((Json.ofFields _).get key).any (fun x => jsonbHolds x (.string value)) && true) = _
    rw [get_version c hkeys, Bool.and_true]
    cases c.versions.lookup key with
    | none => rfl
    | some own =>
      show decide (own = value) = _
      simp

/-- An iteration of the loop passes what is stated or open. -/
theorem fieldMatches_entry (hkeys : (c.versions.map Prod.fst).Nodup) (f : RequestedField) :
    fieldMatches c.generic c.toJson f.entry.1 f.entry.2 =
      .ok (decide (f.StatedBy c ∨ f.OpenIn c)) := by
  have hstated := contains_entry c hkeys f
  cases f with
  | named field value =>
    show fieldMatches c.generic c.toJson field.key (.string value) = .ok (decide
      (field.own c = some value ∨ (c.generic = true ∧ field.own c = none)))
    unfold fieldMatches
    rw [if_neg field.key_not_reserved.1, if_neg field.key_not_reserved.2, get_own]
    cases field.own c with
    | none => cases c.generic <;> rfl
    | some own =>
      show Except.ok (decide (some (Json.string own) = some (.string value)) ||
        (c.generic && (decide (some (Json.string own) = none) ||
          decide (some (Json.string own) = some .null)))) = _
      simp
  | file path =>
    show fieldMatches c.generic c.toJson "files" (.array [.string path]) = .ok (decide
      (path ∈ c.files ∨ (c.generic = true ∧ c.files = [])))
    have hfile : (c.toJson.get "files").any (jsonbContains · (.array [.string path])) =
      decide (path ∈ c.files) := hstated
    unfold fieldMatches
    rw [if_neg (by decide), if_pos rfl, hfile, get_files]
    by_cases hmem : path ∈ c.files
    · simp [hmem]
    · cases c.generic with
      | false => simp [hmem]
      | true => simp [hmem, arrayLength, Except.map]
  | version key value =>
    show fieldMatches c.generic c.toJson "versions" (.ofFields [(key, .string value)]) = .ok (decide
      (c.versions.lookup key = some value ∨
        (c.generic = true ∧ c.versions.lookup "*" = some "*" ∧ c.versions.lookup key = none)))
    unfold fieldMatches
    rw [if_pos rfl, get_versions]
    show Except.ok (versionMatches c.generic (some (.ofFields _)) key (.string value) && true) = _
    have hstar : (fieldText (Json.ofFields (c.versions.map fun (key, v) => (key, .string v))) "*") =
        c.versions.lookup "*" := by
      unfold fieldText
      rw [get_version c hkeys]
      cases c.versions.lookup "*" <;> rfl
    unfold versionMatches
    simp only [bind_some, hstar, get_version c hkeys, Bool.and_true]
    cases c.versions.lookup key with
    | none => cases c.generic <;> simp
    | some own => simp

end Context

/-! ## The requested context -/

theorem insertField_perm {key : String} (value : Json) (h : key ∉ fields.map Prod.fst) :
    (Json.insertField key value fields).Perm ((key, value) :: fields) := by
  induction fields with
  | nil => exact .refl _
  | cons first rest ih =>
    obtain ⟨k, v⟩ := first
    rw [map_cons, mem_cons, not_or] at h
    rw [Json.insertField]
    split
    · exact .refl _
    · rw [if_neg h.1]
      exact ((ih h.2).cons _).trans (.swap _ _ _)

namespace LearningQuery

variable {q : LearningQuery} {acc fields : List (String × Json)} {fs : List ContextField}

/-- The named fields that a query asks for. -/
def namedFields (q : LearningQuery) (fs : List ContextField) : List RequestedField :=
  fs.filterMap fun f => (f.filter q).map (.named f)

theorem insertFilters_ok (h : insertFilters (fs.map fun f => (f.key, f.filter q)) acc = .ok fields)
    (hkeys : (fs.map ContextField.key).Nodup) (hfree : ∀ f ∈ fs, f.key ∉ acc.map Prod.fst) :
    fields.Perm ((q.namedFields fs).map RequestedField.entry ++ acc) ∧
      ∀ f ∈ fs, ∀ v ∈ f.filter q, bounded v 512 = true := by
  induction fs generalizing acc with
  | nil =>
    cases h
    exact ⟨.refl _, forall_mem_nil _⟩
  | cons f rest ih =>
    obtain ⟨hnew, hrest⟩ := nodup_cons.mp hkeys
    obtain ⟨hf, hfs⟩ := forall_mem_cons.mp hfree
    cases hfilter : f.filter q with
    | none =>
      rw [map_cons, hfilter, insertFilters] at h
      obtain ⟨hperm, hbounded⟩ := ih h hrest hfs
      refine ⟨?_, forall_mem_cons.mpr ⟨?_, hbounded⟩⟩
      · rw [namedFields, filterMap_cons, hfilter]
        exact hperm
      · rw [hfilter]
        exact fun v hv => absurd hv (not_mem_none v)
    | some value =>
      rw [map_cons, hfilter, insertFilters] at h
      obtain ⟨_, hvalue, h⟩ := bind_ok h
      have hinsert := insertField_perm (.string value) hf
      have hfree' : ∀ g ∈ rest, g.key ∉
          (Json.insertField f.key (.string value) acc).map Prod.fst := by
        intro g hg hmem
        rw [(hinsert.map Prod.fst).mem_iff] at hmem
        rcases mem_cons.mp hmem with heq | hmem
        · have hkey : g.key = f.key := heq
          exact hnew (hkey ▸ List.mem_map_of_mem hg)
        · exact hfs g hg hmem
      obtain ⟨hperm, hbounded⟩ := ih h hrest hfree'
      refine ⟨?_, forall_mem_cons.mpr ⟨?_, hbounded⟩⟩
      · rw [namedFields, filterMap_cons, hfilter]
        exact (hperm.trans (hinsert.append_left _)).trans perm_middle
      · rw [hfilter]
        rintro v hv
        obtain rfl := mem_some_iff.mp hv
        exact ensure_ok hvalue

theorem insertFilters_isOk (h : ∀ f ∈ fs, ∀ v ∈ f.filter q, bounded v 512 = true)
    (acc : List (String × Json)) :
    ∃ fields, insertFilters (fs.map fun f => (f.key, f.filter q)) acc = .ok fields := by
  induction fs generalizing acc with
  | nil => exact ⟨acc, rfl⟩
  | cons f rest ih =>
    obtain ⟨hf, hrest⟩ := forall_mem_cons.mp h
    cases hfilter : f.filter q with
    | none =>
      rw [map_cons, hfilter, insertFilters]
      exact ih hrest acc
    | some value =>
      rw [map_cons, hfilter, insertFilters, ensure_of (hf value hfilter)]
      exact ih hrest _

/-- A file filter adds its entry. -/
theorem insertFile_ok {path : Option String} (h : insertFile path acc = .ok fields)
    (hfree : "files" ∉ acc.map Prod.fst) :
    fields.Perm ((path.toList.map RequestedField.file).map RequestedField.entry ++ acc) ∧
      ∀ p ∈ path, bounded p 1024 = true := by
  cases path with
  | none =>
    cases h
    exact ⟨.refl _, fun p hp => absurd hp (not_mem_none p)⟩
  | some p =>
    obtain ⟨_, hp, h⟩ := bind_ok h
    cases h
    refine ⟨insertField_perm _ hfree, fun p' hp' => ?_⟩
    obtain rfl := mem_some_iff.mp hp'
    exact ensure_ok hp

/-- A version filter adds its entry. -/
theorem insertVersion_ok (h : insertVersion q.versionKey q.version acc = .ok fields)
    (hfree : "versions" ∉ acc.map Prod.fst) :
    fields.Perm (q.requestedVersion.map RequestedField.entry ++ acc) ∧
      q.versionKey.isSome = q.version.isSome ∧
      ∀ key ∈ q.versionKey, ∀ v ∈ q.version, (bounded key 80 && bounded v 128) = true := by
  unfold requestedVersion
  cases hkey : q.versionKey with
  | none =>
    cases hversion : q.version with
    | none =>
      rw [hkey, hversion] at h
      cases h
      exact ⟨.refl _, rfl, fun key hk => absurd hk (not_mem_none key)⟩
    | some version =>
      rw [hkey, hversion] at h
      cases h
  | some key =>
    cases hversion : q.version with
    | none =>
      rw [hkey, hversion] at h
      cases h
    | some version =>
      rw [hkey, hversion] at h
      obtain ⟨_, hbounded, h⟩ := bind_ok h
      cases h
      refine ⟨insertField_perm _ hfree, rfl, fun k hk v hv => ?_⟩
      obtain rfl := mem_some_iff.mp hk
      obtain rfl := mem_some_iff.mp hv
      exact ensure_ok hbounded

theorem requested_eq (q : LearningQuery) :
    q.requested = q.namedFields ContextField.all ++ q.filePath.toList.map .file ++
      q.requestedVersion := rfl

theorem named_key {e : String × Json} (h : e ∈ (q.namedFields fs).map RequestedField.entry) :
    e.1 ≠ "versions" ∧ e.1 ≠ "files" := by
  obtain ⟨f, hf, rfl⟩ := List.mem_map.mp h
  obtain ⟨field, -, hfield⟩ := mem_filterMap.mp hf
  obtain ⟨value, -, rfl⟩ := map_eq_some_iff.mp hfield
  exact field.key_not_reserved

/-- The requested context holds an entry for each requested field. -/
theorem context_ok {j : Json} (h : q.context = .ok j) :
    ∃ fields, j = .object fields ∧ fields.Perm (q.requested.map RequestedField.entry) ∧
      (∀ f ∈ ContextField.all, ∀ v ∈ f.filter q, bounded v 512 = true) ∧
      (∀ path ∈ q.filePath, bounded path 1024 = true) ∧
      q.versionKey.isSome = q.version.isSome ∧
      ∀ key ∈ q.versionKey, ∀ v ∈ q.version, (bounded key 80 && bounded v 128) = true := by
  obtain ⟨named, hnamed, h⟩ := bind_ok h
  obtain ⟨filed, hfiled, h⟩ := bind_ok h
  obtain ⟨fields, hfields, h⟩ := bind_ok h
  cases h
  rw [contextFilters_eq] at hnamed
  obtain ⟨hperm, hfilters⟩ := insertFilters_ok hnamed (by decide)
    (fun f _ hmem => absurd hmem not_mem_nil)
  rw [append_nil] at hperm
  have hfree : "files" ∉ named.map Prod.fst := by
    intro hmem
    obtain ⟨e, he, hkey⟩ := List.mem_map.mp hmem
    exact (named_key (hperm.mem_iff.mp he)).2 hkey
  obtain ⟨hperm', hfile⟩ := insertFile_ok hfiled hfree
  have hall : filed.Perm ((q.filePath.toList.map RequestedField.file).map RequestedField.entry ++
      (q.namedFields ContextField.all).map RequestedField.entry) :=
    hperm'.trans (hperm.append_left _)
  have hfree' : "versions" ∉ filed.map Prod.fst := by
    intro hmem
    obtain ⟨e, he, hkey⟩ := List.mem_map.mp hmem
    rcases mem_append.mp (hall.mem_iff.mp he) with he | he
    · obtain ⟨f, hf, rfl⟩ := List.mem_map.mp he
      obtain ⟨path, -, rfl⟩ := List.mem_map.mp hf
      exact absurd (show "files" = "versions" from hkey) (by decide)
    · exact (named_key he).1 hkey
  obtain ⟨hperm'', hpaired, hversion⟩ := insertVersion_ok hfields hfree'
  refine ⟨fields, rfl, ?_, hfilters, hfile, hpaired, hversion⟩
  rw [requested_eq, map_append, map_append]
  exact (hperm''.trans (hall.append_left _)).trans
    (perm_append_comm.trans (perm_append_comm.append_right _))

theorem context_isOk (hq : q.Accepted) : ∃ j, q.context = .ok j := by
  obtain ⟨named, hnamed⟩ := insertFilters_isOk hq.filters []
  have hfile : ∃ filed, insertFile q.filePath named = .ok filed := by
    cases hpath : q.filePath with
    | none => exact ⟨named, rfl⟩
    | some path =>
      rw [insertFile, ensure_of (hq.file path hpath)]
      exact ⟨_, rfl⟩
  obtain ⟨filed, hfiled⟩ := hfile
  have hversion : ∃ fields, insertVersion q.versionKey q.version filed = .ok fields := by
    have hpaired := hq.paired
    cases hkey : q.versionKey with
    | none =>
      rw [hkey] at hpaired
      rw [isSome_eq_false_iff.mp hpaired.symm |> isNone_iff_eq_none.mp]
      exact ⟨filed, rfl⟩
    | some key =>
      rw [hkey] at hpaired
      obtain ⟨v, hv⟩ := isSome_iff_exists.mp hpaired.symm
      rw [hv, insertVersion, ensure_of (hq.version key hkey v hv)]
      exact ⟨_, rfl⟩
  obtain ⟨fields, hfields⟩ := hversion
  refine ⟨.object fields, ?_⟩
  unfold context
  rw [contextFilters_eq, hnamed]
  show (insertFile q.filePath named >>= _) = _
  rw [hfiled]
  show (insertVersion q.versionKey q.version filed >>= _) = _
  rw [hfields]
  rfl

theorem tags_ok {j : Json} (h : q.tags = .ok j) :
    j = .array (q.tag.toList.map .string) ∧ ∀ t ∈ q.tag, bounded t 80 = true := by
  unfold tags at h
  cases htag : q.tag with
  | none =>
    rw [htag] at h
    cases h
    exact ⟨rfl, fun t ht => absurd ht (not_mem_none t)⟩
  | some tag =>
    rw [htag] at h
    obtain ⟨_, hbounded, h⟩ := bind_ok h
    cases h
    refine ⟨rfl, fun t ht => ?_⟩
    obtain rfl := mem_some_iff.mp ht
    exact ensure_ok hbounded

theorem tags_isOk (hq : q.Accepted) : ∃ j, q.tags = .ok j := by
  unfold tags
  cases htag : q.tag with
  | none => exact ⟨_, rfl⟩
  | some tag =>
    dsimp only
    rw [ensure_of (hq.tag tag htag)]
    exact ⟨_, rfl⟩

end LearningQuery

/-! ## Selection -/

/-- The revisions that a query of this owner is after. -/
structure Applicable (owner : Uuid) (q : LearningQuery) (row : LearningRow) : Prop where
  owner : row.lesson.ownerId = owner
  status : row.revision.status.text = q.status.getD "active"
  repository : ∀ f ∈ q.repository, row.lesson.repository = f ∨ row.lesson.repository = "*"
  component : ∀ f ∈ q.component, row.lesson.component = f ∨ row.lesson.component = "*"
  fields : ∀ f ∈ q.requested, f.StatedBy row.revision.payload.context ∨
    f.OpenIn row.revision.payload.context
  tag : ∀ t ∈ q.tag, t ∈ row.revision.payload.tags ∨
    (row.revision.payload.context.generic = true ∧ "*" ∈ row.revision.payload.tags)

theorem applicable_iff (owner : Uuid) (q : LearningQuery) (row : LearningRow) :
    Applicable owner q row ↔ row.lesson.ownerId = owner ∧
      row.revision.status.text = q.status.getD "active" ∧
      (∀ f ∈ q.repository, row.lesson.repository = f ∨ row.lesson.repository = "*") ∧
      (∀ f ∈ q.component, row.lesson.component = f ∨ row.lesson.component = "*") ∧
      (∀ f ∈ q.requested, f.StatedBy row.revision.payload.context ∨
        f.OpenIn row.revision.payload.context) ∧
      ∀ t ∈ q.tag, t ∈ row.revision.payload.tags ∨
        (row.revision.payload.context.generic = true ∧ "*" ∈ row.revision.payload.tags) :=
  ⟨fun h => ⟨h.owner, h.status, h.repository, h.component, h.fields, h.tag⟩,
    fun ⟨h₁, h₂, h₃, h₄, h₅, h₆⟩ => ⟨h₁, h₂, h₃, h₄, h₅, h₆⟩⟩

instance (owner : Uuid) (q : LearningQuery) : DecidablePred (Applicable owner q) :=
  fun row => decidable_of_iff' _ (applicable_iff owner q row)

section Selection

variable {generic : Bool} {c : LearningContext} {q : LearningQuery} {fields : List (String × Json)}

/-- The loop passes if every iteration does. -/
theorem fieldsMatch_of_ok {context : Json} {g : String × Json → Bool}
    (h : ∀ e ∈ fields, fieldMatches generic context e.1 e.2 = .ok (g e)) :
    fieldsMatch generic context fields = .ok (fields.all g) := by
  induction fields with
  | nil => rfl
  | cons e rest ih =>
    obtain ⟨he, hrest⟩ := forall_mem_cons.mp h
    rw [fieldsMatch, he, all_cons]
    cases g e with
    | true => exact ih hrest
    | false => rfl

/-- The stored context matches a requested one if every requested field is stated or open. -/
theorem contextMatches_requested (hkeys : (c.versions.map Prod.fst).Nodup)
    (hperm : fields.Perm (q.requested.map RequestedField.entry)) :
    contextMatches c.toJson (.object fields) =
      .ok (decide (∀ f ∈ q.requested, f.StatedBy c ∨ f.OpenIn c)) := by
  have heach : ∀ e ∈ fields, fieldMatches c.generic c.toJson e.1 e.2 =
      .ok ((fieldMatches c.generic c.toJson e.1 e.2).toOption.getD false) := by
    intro e he
    obtain ⟨f, -, rfl⟩ := List.mem_map.mp (hperm.mem_iff.mp he)
    rw [fieldMatches_entry c hkeys]
    rfl
  unfold contextMatches
  rw [fieldText_generic]
  show ((castBoolean _).mapError _ >>= _) = _
  rw [castBoolean_generic]
  show fieldsMatch c.generic c.toJson fields = _
  rw [fieldsMatch_of_ok heach, Except.ok.injEq, Bool.eq_iff_iff, List.all_eq_true,
    decide_eq_true_eq]
  constructor
  · intro hall f hf
    have hmatches := hall f.entry (hperm.mem_iff.mpr (List.mem_map_of_mem hf))
    rw [fieldMatches_entry c hkeys] at hmatches
    exact of_decide_eq_true hmatches
  · intro hall e he
    obtain ⟨f, hf, rfl⟩ := List.mem_map.mp (hperm.mem_iff.mp he)
    rw [fieldMatches_entry c hkeys]
    exact decide_eq_true (hall f hf)

/-- How many of the requested fields a context states. -/
def statedFields (q : LearningQuery) (c : LearningContext) : Nat :=
  q.requested.countP fun f => f.StatedBy c

theorem stated_requested (hperm : fields.Perm (q.requested.map RequestedField.entry))
    (row : LearningRow) :
    row.stated (.object fields) = statedFields q row.revision.payload.context := by
  simp only [LearningRow.stated, LearningRow.payload, get_context, bind_some, jsonbEach,
    Except.toOption, getD_some]
  rw [hperm.countP_eq, countP_map]
  refine countP_congr fun f _ => ?_
  rw [Function.comp_apply, contains_entry _ row.revision.keys]

theorem tagsMatch_stored (i : LearningLessonInput) (tag : Option String) :
    LearningRow.tagsMatch i.toJson (.array (tag.toList.map .string)) =
      decide (∀ t ∈ tag, t ∈ i.tags ∨ (i.context.generic = true ∧ "*" ∈ i.tags)) := by
  have hstar : jsonbContains (.array (i.tags.map .string)) (.array [.string "*"]) =
      decide ("*" ∈ i.tags) := contains_string i.tags "*"
  have hgeneric : decide (some (if i.context.generic then "true" else "false") = some "true") =
      i.context.generic := by
    cases i.context.generic <;> decide
  simp only [LearningRow.tagsMatch, get_tags, get_context, getD_some, bind_some,
    any_some, fieldText_generic, hstar, hgeneric]
  cases tag with
  | none =>
    rw [toList_none, map_nil, decide_eq_true fun t ht => absurd ht (not_mem_none t)]
    rfl
  | some t =>
    rw [toList_some, map_singleton, contains_string]
    cases i.context.generic <;> simp

theorem scopeMatches_iff (filter : Option String) (own : String) :
    LearningRow.scopeMatches filter own = true ↔ ∀ f ∈ filter, own = f ∨ own = "*" := by
  unfold LearningRow.scopeMatches
  rw [Option.all_eq_true]
  simp

/-- The `WHERE` clause selects the applicable rows, and raises on none. -/
theorem selected_eq (owner : Uuid) (hperm : fields.Perm (q.requested.map RequestedField.entry))
    (row : LearningRow) :
    LearningRow.selected owner q (q.status.getD "active") (.object fields)
        (.array (q.tag.toList.map .string)) row =
      .ok (decide (Applicable owner q row)) := by
  unfold LearningRow.selected LearningRow.payload
  rw [get_context, getD_some, contextMatches_requested row.revision.keys hperm,
    tagsMatch_stored]
  split
  · next hscope =>
    simp only [Bool.and_eq_true, decide_eq_true_eq, scopeMatches_iff] at hscope
    obtain ⟨⟨⟨howner, hrepository⟩, hcomponent⟩, hstatus⟩ := hscope
    show Except.ok (decide _ && decide _) = _
    rw [← Bool.decide_and]
    refine congrArg Except.ok (decide_eq_decide.mpr ⟨?_, ?_⟩)
    · rintro ⟨hfields, htag⟩
      exact ⟨howner, hstatus, hrepository, hcomponent, hfields, htag⟩
    · intro happlies
      exact ⟨happlies.fields, happlies.tag⟩
  · next hscope =>
    simp only [Bool.and_eq_true, decide_eq_true_eq, scopeMatches_iff] at hscope
    refine congrArg Except.ok (decide_eq_false ?_).symm
    intro happlies
    exact hscope ⟨⟨⟨happlies.owner, happlies.repository⟩, happlies.component⟩, happlies.status⟩

end Selection

/-! ## The answer -/

section Answer

variable {S : LearningStore} {owner : Uuid} {q : LearningQuery} {rows : List LearningRow}
  {row : LearningRow}

/-- The rows that a query of this owner is after. -/
def applicableRows (S : LearningStore) (owner : Uuid) (q : LearningQuery) : List LearningRow :=
  S.joined.filter fun row => Applicable owner q row

/-- The function accepts only accepted queries, and answers with a page of the applicable
rows. -/
theorem learningRows_ok (h : learningRows S owner q = .ok rows) :
    q.Accepted ∧ ∃ fields : List (String × Json),
      fields.Perm (q.requested.map RequestedField.entry) ∧
      rows = page (LearningRow.before q (.object fields)) (clampedLimit q.limit)
        (applicableRows S owner q) := by
  obtain ⟨_, hstatus, h⟩ := bind_ok h
  obtain ⟨j, hcontext, h⟩ := bind_ok h
  obtain ⟨tags, htags, h⟩ := bind_ok h
  obtain ⟨_, htexts, h⟩ := bind_ok h
  obtain ⟨selected, hselected, h⟩ := bind_ok h
  cases h
  obtain ⟨fields, rfl, hperm, hfilters, hfile, hpaired, hversion⟩ :=
    LearningQuery.context_ok hcontext
  obtain ⟨rfl, htag⟩ := LearningQuery.tags_ok htags
  refine ⟨⟨contains_iff_mem.mp (ensure_ok hstatus), hfilters, hfile, hpaired, hversion, htag,
    ensure_ok htexts⟩, fields, hperm, ?_⟩
  rw [filterE_of_ok fun row _ => ⟨_, selected_eq owner hperm row⟩] at hselected
  cases hselected
  refine congrArg _ (filter_congr fun row _ => ?_)
  rw [holds, selected_eq owner hperm row]

theorem learningRows_isOk (S : LearningStore) (owner : Uuid) (hq : q.Accepted) :
    ∃ rows, learningRows S owner q = .ok rows := by
  obtain ⟨j, hcontext⟩ := LearningQuery.context_isOk hq
  obtain ⟨tags, htags⟩ := LearningQuery.tags_isOk hq
  obtain ⟨fields, rfl, hperm, -⟩ := LearningQuery.context_ok hcontext
  obtain ⟨rfl, -⟩ := LearningQuery.tags_ok htags
  have hraises : ∀ row ∈ S.joined, ∃ b, LearningRow.selected owner q (q.status.getD "active")
      (.object fields) (.array (q.tag.toList.map .string)) row = .ok b :=
    fun row _ => ⟨_, selected_eq owner hperm row⟩
  unfold learningRows
  dsimp only
  rw [ensure_of (contains_iff_mem.mpr hq.status), hcontext, htags, ensure_of hq.texts]
  show ∃ rows, (filterE _ S.joined >>= _) = Except.ok rows
  rw [filterE_of_ok hraises]
  exact ⟨_, rfl⟩

theorem mem_joined :
    row ∈ S.joined ↔ row.lesson ∈ S.lessons ∧ row.revision ∈ S.revisions ∧
      row.revision.lessonId = row.lesson.id := by
  unfold LearningStore.joined
  rw [mem_flatMap]
  constructor
  · rintro ⟨l, hl, hrow⟩
    obtain ⟨r, hr, rfl⟩ := List.mem_map.mp hrow
    obtain ⟨hmem, heq⟩ := mem_filter.mp hr
    exact ⟨hl, hmem, of_decide_eq_true heq⟩
  · rintro ⟨hl, hr, heq⟩
    exact ⟨row.lesson, hl, List.mem_map.mpr
      ⟨row.revision, mem_filter.mpr ⟨hr, decide_eq_true heq⟩, rfl⟩⟩

/-- A revision is joined with its lesson only. -/
theorem joined_ids (S : LearningStore) :
    (S.joined.map fun row => row.revision.id).Nodup := by
  unfold LearningStore.joined
  rw [map_flatMap, List.nodup_flatMap]
  have hpiece : ∀ l : StoredLesson, (((S.revisions.rows.filter fun r => r.lessonId = l.id).map
      fun r => (⟨l, r⟩ : LearningRow)).map fun row => row.revision.id) =
        (S.revisions.rows.filter fun r => r.lessonId = l.id).map fun r => r.id := by
    intro l
    rw [List.map_map]
    rfl
  constructor
  · intro l _
    rw [hpiece]
    exact S.revisions.unique.sublist (filter_sublist.map _)
  · refine (pairwise_map.mp S.lessons.unique).imp fun {a b} hne => ?_
    intro k hka hkb
    beta_reduce at hka hkb
    rw [hpiece] at hka hkb
    obtain ⟨r, hr, rfl⟩ := List.mem_map.mp hka
    obtain ⟨r', hr', heq⟩ := List.mem_map.mp hkb
    obtain ⟨hmem, hlesson⟩ := mem_filter.mp hr
    obtain ⟨hmem', hlesson'⟩ := mem_filter.mp hr'
    obtain rfl := Table.eq_of_key_eq (T := S.revisions) hmem' hmem heq
    exact hne ((of_decide_eq_true hlesson).symm.trans (of_decide_eq_true hlesson'))

/-! ### The order -/

instance (q : LearningQuery) (context : Json) : IsTrans LearningRow (LearningRow.before q context) :=
  ⟨fun _ _ _ hab hbc => le_trans hbc hab⟩

instance (q : LearningQuery) (context : Json) :
    Std.Total (LearningRow.before q context) :=
  ⟨fun a b => le_total (b.rank q context) (a.rank q context)⟩

/-- Both rows match the repository of the query, or neither does, and its component alike. -/
def SameScope (q : LearningQuery) (a b : LearningRow) : Prop :=
  (q.repository = some a.lesson.repository ↔ q.repository = some b.lesson.repository) ∧
    (q.component = some a.lesson.component ↔ q.component = some b.lesson.component)

theorem named_congr {filter : Option String} {own other : String}
    (h : filter = some own ↔ filter = some other) :
    LearningRow.named filter own = LearningRow.named filter other := by
  unfold LearningRow.named
  by_cases hown : filter = some own
  · rw [if_pos hown, if_pos (h.mp hown)]
  · rw [if_neg hown, if_neg fun hother => hown (h.mpr hother)]

/-- Of rows that match repository and component alike, those that state more come first. -/
theorem stated_le_of_before {context : Json} {a b : LearningRow}
    (h : LearningRow.before q context a b) (hscope : SameScope q a b) :
    b.stated context ≤ a.stated context := by
  have hrank : b.rank q context ≤ a.rank q context := h
  unfold LearningRow.rank at hrank
  rw [named_congr hscope.1, named_congr hscope.2, Prod.Lex.toLex_le_toLex] at hrank
  rcases hrank with hlt | ⟨-, hrest⟩
  · exact absurd hlt (lt_irrefl _)
  rcases Prod.Lex.toLex_le_toLex.mp hrest with hlt | ⟨-, hrest⟩
  · exact absurd hlt (lt_irrefl _)
  rcases Prod.Lex.toLex_le_toLex.mp hrest with hlt | ⟨heq, -⟩
  · exact hlt.le
  · exact heq.le

/-! ### Exactness -/

/-- The second query has all filters of the first, and asks for the same status. -/
structure Narrows (q q' : LearningQuery) : Prop where
  status : q'.status.getD "active" = q.status.getD "active"
  repository : ∀ f ∈ q.repository, f ∈ q'.repository
  component : ∀ f ∈ q.component, f ∈ q'.component
  fields : ∀ f ∈ q.requested, f ∈ q'.requested
  tag : ∀ t ∈ q.tag, t ∈ q'.tag

theorem Applicable.of_narrows {q' : LearningQuery} (h : Narrows q q')
    (happlies : Applicable owner q' row) : Applicable owner q row where
  owner := happlies.owner
  status := happlies.status.trans h.status
  repository f hf := happlies.repository f (h.repository f hf)
  component f hf := happlies.component f (h.component f hf)
  fields f hf := happlies.fields f (h.fields f hf)
  tag t ht := happlies.tag t (h.tag t ht)

/-- The rows are exactly those that the query is after, each once. -/
structure ExactAnswer (S : LearningStore) (owner : Uuid) (q : LearningQuery)
    (rows : List LearningRow) : Prop where
  distinct : (rows.map fun row => row.revision.id).Nodup
  exact : ∀ row, row ∈ rows ↔ (row.lesson ∈ S.lessons ∧ row.revision ∈ S.revisions ∧
    row.revision.lessonId = row.lesson.id) ∧ Applicable owner q row
  /-- none has a value other than a requested one -/
  agrees : ∀ row ∈ rows, ∀ f ∈ q.requested, ¬ f.ConflictsWith row.revision.payload.context
  /-- a narrower query is answered with some of them -/
  narrower : ∀ q' rows', Narrows q q' → learningRows S owner q' = .ok rows' → rows' ⊆ rows
  /-- those that state more of the requested fields come first -/
  specific : rows.Pairwise fun a b => SameScope q a b →
    statedFields q b.revision.payload.context ≤ statedFields q a.revision.payload.context

theorem mem_applicableRows :
    row ∈ applicableRows S owner q ↔ (row.lesson ∈ S.lessons ∧ row.revision ∈ S.revisions ∧
      row.revision.lessonId = row.lesson.id) ∧ Applicable owner q row := by
  unfold applicableRows
  rw [mem_filter, mem_joined, decide_eq_true_eq]

theorem page_subset (h : learningRows S owner q = .ok rows) : rows ⊆ applicableRows S owner q := by
  obtain ⟨-, fields, -, rfl⟩ := learningRows_ok h
  intro row hrow
  exact (mem_insertionSort _).mp (mem_of_mem_take hrow)

/-- With a limit no smaller than their number, the answer is exactly the applicable rows. -/
theorem exactAnswer (h : learningRows S owner q = .ok rows)
    (hlimit : (applicableRows S owner q).length ≤ clampedLimit q.limit) :
    ExactAnswer S owner q rows := by
  obtain ⟨-, fields, hperm, hrows⟩ := learningRows_ok h
  have hall : rows =
      (applicableRows S owner q).insertionSort (LearningRow.before q (.object fields)) := by
    rw [hrows, page, take_of_length_le (by rwa [length_insertionSort])]
  have hmem : ∀ row, row ∈ rows ↔ row ∈ applicableRows S owner q := by
    intro row
    rw [hall, mem_insertionSort]
  have hids : ((applicableRows S owner q).map fun row => row.revision.id).Nodup :=
    (joined_ids S).sublist (filter_sublist.map _)
  constructor
  · rw [hall, ((perm_insertionSort _ _).map _).nodup_iff]
    exact hids
  · intro row
    rw [hmem, mem_applicableRows]
  · intro row hrow f hf
    have happlies := (mem_applicableRows.mp ((hmem row).mp hrow)).2
    exact RequestedField.not_conflictsWith (happlies.fields f hf)
  · intro q' rows' hnarrow hrows' row hrow
    obtain ⟨hjoined, happlies⟩ := mem_applicableRows.mp (page_subset hrows' hrow)
    exact (hmem row).mpr (mem_applicableRows.mpr ⟨hjoined, happlies.of_narrows hnarrow⟩)
  · rw [hall]
    refine (pairwise_insertionSort _ _).imp fun {a b} hbefore hscope => ?_
    rw [← stated_requested hperm a, ← stated_requested hperm b]
    exact stated_le_of_before hbefore hscope

/-- A query that passes the function's checks, with a limit no smaller than the number of
applicable revisions, is answered with exactly these; any other query fails. -/
theorem query_learning_exact (S : LearningStore) (owner : Uuid) (q : LearningQuery) :
    (q.Accepted → (applicableRows S owner q).length ≤ clampedLimit q.limit →
      ∃ rows, queryLearning S owner q = .ok (rows.map LearningRow.item) ∧
        ExactAnswer S owner q rows) ∧
    (¬ q.Accepted → ∃ e, queryLearning S owner q = .error e) := by
  constructor
  · intro hq hlimit
    obtain ⟨rows, hrows⟩ := learningRows_isOk S owner hq
    refine ⟨rows, ?_, exactAnswer hrows hlimit⟩
    unfold queryLearning
    rw [hrows]
    rfl
  · intro hq
    unfold queryLearning
    cases h : learningRows S owner q with
    | error e => exact ⟨e, rfl⟩
    | ok rows => exact absurd (learningRows_ok h).1 hq

theorem queryLearning_length {items : List LearningItem}
    (h : queryLearning S owner q = .ok items) : items.length ≤ clampedLimit q.limit := by
  unfold queryLearning at h
  obtain ⟨rows, hrows, rfl⟩ := except_map_ok h
  obtain ⟨-, fields, -, rfl⟩ := learningRows_ok hrows
  rw [length_map]
  exact length_take_le _ _

end Answer

/-! ## A hundred revisions and one more -/

theorem safeFields_eq_all (fields : List (String × Json)) (depth : Nat) :
    safeFields fields depth = fields.all fun f =>
      !secretKeys.any (fun name => name.toList = toAsciiLowercase f.1.toList) &&
        safeJson f.2 depth := by
  induction fields with
  | nil => rfl
  | cons f rest ih =>
    rw [safeFields, ih]
    rfl

theorem foldl_insertField_perm (acc : List (String × Json)) (hkeys : (fields.map Prod.fst).Nodup)
    (hfree : ∀ f ∈ fields, f.1 ∉ acc.map Prod.fst) :
    (fields.foldl (fun acc f => Json.insertField f.1 f.2 acc) acc).Perm (fields ++ acc) := by
  induction fields generalizing acc with
  | nil => exact .refl _
  | cons f rest ih =>
    obtain ⟨hnew, hrest⟩ := nodup_cons.mp hkeys
    obtain ⟨hf, hfs⟩ := forall_mem_cons.mp hfree
    have hinsert := insertField_perm f.2 hf
    refine (ih _ hrest fun g hg hmem => ?_).trans ((hinsert.append_left _).trans perm_middle)
    rw [(hinsert.map Prod.fst).mem_iff] at hmem
    rcases mem_cons.mp hmem with heq | hmem
    · have hkey : g.1 = f.1 := heq
      exact hnew (hkey ▸ List.mem_map_of_mem hg)
    · exact hfs g hg hmem

/-- Safety of an object, by its fields. -/
theorem safeJson_ofFields {keys : List String} (hnodup : keys.Nodup)
    (hfields : fields.map Prod.fst = keys) (depth : Nat) :
    safeJson (.ofFields fields) depth =
      (depth ≤ 8 && fields.length ≤ 64 && safeFields fields (depth + 1)) := by
  have hkeys : (fields.map Prod.fst).Nodup := hfields ▸ hnodup
  have hperm := foldl_insertField_perm [] hkeys fun f _ hmem =>
    absurd hmem not_mem_nil
  rw [append_nil] at hperm
  show (decide (depth ≤ 8) && decide (List.length _ ≤ 64) && safeFields _ (depth + 1)) = _
  rw [hperm.length_eq, safeFields_eq_all, safeFields_eq_all]
  congr 1
  rw [Bool.eq_iff_iff, List.all_eq_true, List.all_eq_true]
  exact forall_congr' fun f => imp_congr_left hperm.mem_iff

/-- A valid lesson stays valid under another key. -/
theorem validate_key {i : LearningLessonInput} (h : i.validate = .ok ()) {key : String}
    (hbounded : bounded key 128 = true) (hsafe : safeJson (.string key) 1 = true) :
    ({ i with idempotencyKey := key } : LearningLessonInput).validate = .ok () := by
  obtain ⟨_, hidentity, h⟩ := bind_ok h
  obtain ⟨_, htext, h⟩ := bind_ok h
  obtain ⟨_, hevidence, h⟩ := bind_ok h
  obtain ⟨_, hscope, h⟩ := bind_ok h
  obtain ⟨_, hcontext, h⟩ := bind_ok h
  obtain ⟨_, happlies, h⟩ := bind_ok h
  obtain ⟨_, htags, h⟩ := bind_ok h
  have hidentity' : (bounded key 128 && bounded i.repository 512 && bounded i.component 240 &&
      bounded i.title 240) = true := by
    have hold := ensure_ok hidentity
    rw [Bool.and_eq_true, Bool.and_eq_true, Bool.and_eq_true] at hold ⊢
    exact ⟨⟨⟨hbounded, hold.1.1.2⟩, hold.1.2⟩, hold.2⟩
  have hsafe' : (i.validity.isObject &&
      safeJson ({ i with idempotencyKey := key } : LearningLessonInput).toJson 0) = true := by
    have hold := ensure_ok h
    rw [Bool.and_eq_true] at hold ⊢
    refine ⟨hold.1, ?_⟩
    have hfields := hold.2
    unfold LearningLessonInput.toJson at hfields ⊢
    rw [safeJson_ofFields lessonKeys_nodup rfl] at hfields ⊢
    rw [Bool.and_eq_true] at hfields ⊢
    refine ⟨hfields.1, ?_⟩
    have hentries := hfields.2
    rw [safeFields, Bool.and_eq_true, Bool.and_eq_true] at hentries ⊢
    exact ⟨⟨hentries.1.1, hsafe⟩, hentries.2⟩
  unfold LearningLessonInput.validate
  rw [ensure_of hidentity', htext, hevidence, hscope, hcontext, happlies, htags, ensure_of hsafe']
  rfl

def sampleLesson : LearningLessonInput where
  idempotencyKey := "0"
  repository := "clawforge"
  component := "storage"
  title := "Lock order"
  symptoms := "deadlock"
  cause := "two orders"
  fix := "one order"
  rule := "lesson first"
  validity := .object []
  tags := ["race"]
  evidence := ⟨String.ofList (List.replicate 40 'a'), "storage",
    String.ofList (List.replicate 64 'b'), true⟩
  context := ⟨false, none, none, none, none, none, none, none, none, none, none, none, [], [],
    none⟩

theorem sampleLesson_valid : sampleLesson.validate = .ok () := by decide +kernel

theorem sampleKey_ok (n : Fin 101) : bounded (toString n.val) 128 = true ∧
    safeJson (.string (toString n.val)) 1 = true := by
  revert n
  decide +kernel

/-- The revisions of a lesson that was proposed a hundred times more. -/
def sampleRevision (n : Fin 101) : StoredRevision where
  id := n
  lessonId := 7
  revision := n + 1
  status := .pending
  payload := { sampleLesson with idempotencyKey := toString n.val }
  lastVerified := none
  createdAt := n
  updatedAt := n
  valid := validate_key sampleLesson_valid (sampleKey_ok n).1 (sampleKey_ok n).2
  keys := nodup_nil

def sampleStored : StoredLesson where
  id := 7
  ownerId := 1
  repository := "clawforge"
  component := "storage"
  idempotencyKey := "0"
  createdAt := 0

def sampleStore (n : Nat) : LearningStore where
  lessons := ⟨[sampleStored], nodup_singleton _⟩
  revisions :=
    { rows := ((finRange 101).take n).map sampleRevision
      unique := by
        rw [List.map_map]
        refine Nodup.map ?_ ((nodup_finRange 101).sublist (take_sublist _ _))
        intro a b hab
        exact Fin.ext hab }
  records := .empty _

/-- Asks for the pending revisions, and for no more than a hundred and one. -/
def sampleQuery : LearningQuery :=
  { repository := none, component := none, status := some "pending", limit := some 101,
    project := none, agent := none, model := none, provider := none, language := none,
    framework := none, platform := none, errorClass := none, filePath := none, tag := none,
    versionKey := none, version := none }

theorem sampleQuery_accepted : sampleQuery.Accepted where
  status := by decide
  filters f _ := by cases f <;> exact fun v hv => absurd hv (not_mem_none v)
  file v hv := absurd hv (not_mem_none v)
  paired := rfl
  version v hv := absurd hv (not_mem_none v)
  tag v hv := absurd hv (not_mem_none v)
  texts := rfl

theorem joined_sample (n : Nat) : (sampleStore n).joined =
    ((finRange 101).take n).map fun i => ⟨sampleStored, sampleRevision i⟩ := by
  unfold LearningStore.joined sampleStore
  rw [flatMap_singleton, filter_eq_self.mpr, List.map_map]
  · rfl
  · intro r hr
    obtain ⟨i, -, rfl⟩ := List.mem_map.mp hr
    rfl

/-- All of them are applicable. -/
theorem applicableRows_sample (n : Nat) :
    applicableRows (sampleStore n) 1 sampleQuery = (sampleStore n).joined := by
  unfold applicableRows
  rw [filter_eq_self, joined_sample]
  intro row hrow
  obtain ⟨i, -, rfl⟩ := List.mem_map.mp hrow
  refine decide_eq_true ⟨rfl, rfl, ?_, ?_, ?_, ?_⟩
  · exact fun v hv => absurd hv (not_mem_none v)
  · exact fun v hv => absurd hv (not_mem_none v)
  · exact fun f hf => absurd hf not_mem_nil
  · exact fun v hv => absurd hv (not_mem_none v)

/-- A limit of a hundred and one is answered with a hundred of as many applicable revisions. -/
theorem sampleQuery_cut : sampleQuery.Accepted ∧ sampleQuery.limit = some 101 ∧
    (applicableRows (sampleStore 101) 1 sampleQuery).length = 101 ∧
    ∀ items, queryLearning (sampleStore 101) 1 sampleQuery = .ok items → items.length ≤ 100 := by
  have hlength : (applicableRows (sampleStore 101) 1 sampleQuery).length = 101 := by
    rw [applicableRows_sample, joined_sample, length_map, length_take,
      length_finRange]
    rfl
  exact ⟨sampleQuery_accepted, rfl, hlength, fun items hitems => queryLearning_length hitems⟩

/-! ## Three lessons of one project -/

def contextOf (project : Option String) (files : List String)
    (versions : List (String × String)) : LearningContext :=
  { sampleLesson.context with generic := project.isNone, project, files, versions }

/-- A lesson on every project, one on the project that is asked for, and one on another. -/
def contexts : List LearningContext :=
  [ contextOf none [] [("*", "*")]
  , contextOf (some "clawforge") ["src/storage/src/lib.rs", "src/api/src/main.rs"]
      [("sqlx", "0.8")]
  , contextOf (some "other") ["src/storage/src/lib.rs"] [("sqlx", "0.8")] ]

theorem contexts_valid (n : Fin 3) :
    ({ sampleLesson with context := contexts.get n } : LearningLessonInput).validate = .ok () ∧
      ((contexts.get n).versions.map Prod.fst).Nodup := by
  revert n
  decide +kernel

def contextRevision (n : Fin 3) : StoredRevision where
  id := 10 + n
  lessonId := n
  revision := 1
  status := .active
  payload := { sampleLesson with context := contexts.get n }
  lastVerified := none
  createdAt := n
  updatedAt := n
  valid := (contexts_valid n).1
  keys := (contexts_valid n).2

def contextStore : LearningStore where
  lessons := ⟨(List.range 3).map fun n => { sampleStored with id := n }, by decide⟩
  revisions := ⟨(finRange 3).map contextRevision, by decide +kernel⟩
  records := .empty _

/-- Asks for the project, a file, a version and a tag. -/
def contextQuery : LearningQuery :=
  { sampleQuery with
    status := none, limit := none, project := some "clawforge"
    filePath := some "src/storage/src/lib.rs", tag := some "race"
    versionKey := some "sqlx", version := some "0.8" }

theorem contextQuery_accepted : contextQuery.Accepted :=
  ⟨by decide, by decide, by decide, rfl, by decide, by decide, by decide⟩

/-- The lesson on that project comes first, then the one on every project. -/
theorem query_learning_exact_contexts :
    (queryLearning contextStore 1 contextQuery).map (fun items => items.map (·.revisionId)) =
      .ok [11, 10] ∧
    ∃ rows, queryLearning contextStore 1 contextQuery = .ok (rows.map LearningRow.item) ∧
      ExactAnswer contextStore 1 contextQuery rows :=
  ⟨by decide +kernel,
    (query_learning_exact contextStore 1 contextQuery).1 contextQuery_accepted (by decide +kernel)⟩

end Clawforge.Learning

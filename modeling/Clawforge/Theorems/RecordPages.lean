import Clawforge.Storage.LearningQueries
import Mathlib.Data.List.Pairwise

/-!
# Pages of learning records

A reader follows `next_cursor` through the records of one revision while the
store grows. A page ends at a record, its cursor, below which everything that
is still to be read lies (`learningRecords_spec`); so whatever is appended
between two requests, the records of the first request are read once each, in
descending order, and a reader that has made one request more than there are
records has read all of them.
-/

namespace Clawforge.Learning

open Kit List

/-! ## One page -/

theorem one_le_clampedLimit (limit : Option Int) : 1 ≤ clampedLimit limit := by
  unfold clampedLimit
  omega

/-- The first record was created later, or has the greater id. -/
def Newer (a b : StoredRecord) : Prop := b.place < a.place

instance : IsTrans StoredRecord StoredRecord.listedBefore :=
  ⟨fun _ _ _ hab hbc => le_trans hbc hab⟩

instance : Std.Total StoredRecord.listedBefore := ⟨fun a b => le_total b.place a.place⟩

section Page

variable {S : LearningStore} {owner rid : Uuid}

/-- Two records of one place are the same. -/
theorem eq_of_place {a b : StoredRecord} (ha : a ∈ S.recordsOf rid) (hb : b ∈ S.recordsOf rid)
    (h : a.place = b.place) : a = b := by
  have hid : a.id = b.id := congrArg (fun p => (ofLex p).2) h
  exact Table.eq_of_key_eq (T := S.records) (mem_filter.mp ha).1 (mem_filter.mp hb).1 hid

theorem recordsOf_nodup : (S.recordsOf rid).Nodup :=
  Nodup.of_map _ S.records.unique |>.filter _

/-- The records below a cursor. -/
theorem recordsBelow_some {c : StoredRecord} (hc : c ∈ S.recordsOf rid) :
    S.recordsBelow rid (some c.id) = (S.recordsOf rid).filter fun r => r.place < c.place := by
  have hfind : (S.recordsOf rid).find? (fun x => x.id = c.id) = some c := by
    cases h : (S.recordsOf rid).find? (fun x => x.id = c.id) with
    | none =>
      have hnone := find?_eq_none.mp h c hc
      exact absurd (decide_eq_true rfl) hnone
    | some d =>
      have hid : d.id = c.id := by simpa using find?_some h
      have hd := mem_of_find?_eq_some h
      rw [Table.eq_of_key_eq (T := S.records) (mem_filter.mp hd).1 (mem_filter.mp hc).1
        hid]
  unfold LearningStore.recordsBelow
  dsimp only
  rw [hfind]

theorem recordsBelow_sublist (before : Option Uuid) :
    (S.recordsBelow rid before).Sublist (S.recordsOf rid) := by
  unfold LearningStore.recordsBelow
  split
  · exact .refl _
  · split
    · exact filter_sublist
    · exact nil_sublist _

/-- A sorted list of different records is strictly descending. -/
theorem newer_of_sorted {l : List StoredRecord} (hsub : l ⊆ S.recordsOf rid) (hnodup : l.Nodup)
    (hsorted : l.Pairwise StoredRecord.listedBefore) : l.Pairwise Newer := by
  refine (hsorted.and hnodup).imp_of_mem fun {a b} ha hb hab => ?_
  refine lt_of_le_of_ne hab.1 fun heq => hab.2 ?_
  exact (eq_of_place (hsub hb) (hsub ha) heq).symm

/-- A page of the records below a valid cursor: it ends the walk and holds all of them, or its
cursor is its last record and the rest lies below that. -/
theorem learningRecords_spec (howns : S.owns owner rid) (limit : Option Int)
    {before : Option Uuid}
    (hcursor : before.all (fun c => (S.recordsOf rid).any fun r => r.id = c) = true) :
    ∃ data next, learningRecords S owner rid limit before = .ok ⟨data, next⟩ ∧
      data ⊆ S.recordsBelow rid before ∧ data.Pairwise Newer ∧
      ((next = none ∧ ∀ x ∈ S.recordsBelow rid before, x ∈ data) ∨
        ∃ last ∈ data, next = some last.id ∧ (∀ x ∈ data, last.place ≤ x.place) ∧
          ∀ x ∈ S.recordsBelow rid before, x ∈ data ∨ x.place < last.place) := by
  have hn := one_le_clampedLimit limit
  let below := S.recordsBelow rid before
  let data := page StoredRecord.listedBefore (clampedLimit limit) below
  have hbelow : below ⊆ S.recordsOf rid := (recordsBelow_sublist before).subset
  have hdata : data ⊆ below := fun x hx => mem_of_mem_page hx
  have hnodup : data.Nodup := by
    have hsorted := (perm_insertionSort StoredRecord.listedBefore below).nodup_iff.mpr
      (recordsOf_nodup.sublist (recordsBelow_sublist before))
    exact hsorted.sublist (take_sublist _ _)
  have hnewer : data.Pairwise Newer :=
    newer_of_sorted (fun x hx => hbelow (hdata hx)) hnodup (page_sorted _ _)
  have hpage : learningRecords S owner rid limit before = .ok ⟨data,
      if clampedLimit limit < below.length then data.getLast?.map fun r => r.id else none⟩ := by
    unfold learningRecords
    rw [ensure_of (decide_eq_true howns), ensure_of hcursor]
    show Except.ok (RecordPage.mk _ _) = _
    rw [take_page (Nat.le_succ _), length_page]
    congr 2
    by_cases hmore : clampedLimit limit < below.length
    · rw [if_pos hmore, if_pos (by show _ < min _ below.length; omega)]
    · rw [if_neg hmore, if_neg (by show ¬ _ < min _ below.length; omega)]
  refine ⟨data, _, hpage, hdata, hnewer, ?_⟩
  by_cases hmore : clampedLimit limit < below.length
  · -- a full page: its last record is the cursor
    refine .inr ?_
    rw [if_pos hmore]
    have hlength : data.length = clampedLimit limit := by
      rw [length_page]
      omega
    have hsome : data ≠ [] := by
      intro hnil
      rw [hnil, length_nil] at hlength
      omega
    refine ⟨data.getLast hsome, getLast_mem hsome, ?_, ?_, ?_⟩
    · rw [getLast?_eq_some_getLast hsome]
      rfl
    · intro x hx
      exact (page_sorted _ _).rel_getLast_of_rel_getLast_getLast hx (le_refl _)
    · intro x hx
      rcases mem_page_or_after (r := StoredRecord.listedBefore) (n := clampedLimit limit) hx with
        hon | hafter
      · exact .inl hon
      · have hle : x.place ≤ (data.getLast hsome).place := hafter _ (getLast_mem hsome)
        rcases hle.lt_or_eq with hlt | heq
        · exact .inr hlt
        · have hsame := eq_of_place (hbelow hx) (hbelow (hdata (getLast_mem hsome))) heq
          exact .inl (hsame ▸ getLast_mem hsome)
  · exact .inl ⟨if_neg hmore, fun x hx => mem_page.mpr (within_of_length_le (not_lt.mp hmore) hx)⟩

end Page

/-! ## Following the cursor -/

/-- The store after other transactions: rows are added, records never change, and revisions keep
their lessons. -/
structure LearningStore.Grows (S S' : LearningStore) : Prop where
  lessons : ∀ l ∈ S.lessons, l ∈ S'.lessons
  revisions : ∀ r ∈ S.revisions, ∃ r' ∈ S'.revisions, r'.id = r.id ∧ r'.lessonId = r.lessonId
  records : ∀ r ∈ S.records, r ∈ S'.records

theorem LearningStore.Grows.owns {S S' : LearningStore} (h : S.Grows S') {owner rid : Uuid}
    (howns : S.owns owner rid) : S'.owns owner rid := by
  obtain ⟨l, hl, howner, r, hr, hlesson, hid⟩ := howns
  obtain ⟨r', hr', hid', hlesson'⟩ := h.revisions r hr
  exact ⟨l, h.lessons l hl, howner, r', hr', hlesson'.trans hlesson, hid'.trans hid⟩

theorem LearningStore.Grows.recordsOf {S S' : LearningStore} (h : S.Grows S') {rid : Uuid} :
    S.recordsOf rid ⊆ S'.recordsOf rid := by
  intro r hr
  obtain ⟨hmem, hrid⟩ := mem_filter.mp hr
  exact mem_filter.mpr ⟨h.records r hmem, hrid⟩

inductive Phase
  | idle
  | following (cursor : Uuid)
  | finished
  | failed (message : String)

/-- The cursor of the next request, if there is one. -/
def Phase.before : Phase → Option (Option Uuid)
  | .idle => some none
  | .following cursor => some (some cursor)
  | .finished | .failed _ => none

/-- A reader of the pages of one revision. `first` holds the records of the revision at the first
request, and no code reads it. -/
structure Walk where
  store : LearningStore
  phase : Phase
  collected : List StoredRecord
  requests : Nat
  first : List StoredRecord

/-- A request and what the reader makes of its answer. -/
def Walk.request (w : Walk) (owner rid : Uuid) (limit : Option Int) (before : Option Uuid) :
    Walk :=
  match learningRecords w.store owner rid limit before with
  | .error e => { w with phase := .failed e, requests := w.requests + 1 }
  | .ok page =>
    { w with
      phase := page.nextCursor.elim .finished .following
      collected := w.collected ++ page.data
      requests := w.requests + 1
      first := if before = none then w.store.recordsOf rid else w.first }

inductive WalkLabel
  | grow (S : LearningStore)
  | request (limit : Option Int)

inductive WalkStep (owner rid : Uuid) : Walk → WalkLabel → Walk → Prop
  | grow {w : Walk} {S : LearningStore} (h : w.store.Grows S) :
      WalkStep owner rid w (.grow S) { w with store := S }
  | request {w : Walk} {limit : Option Int} {before : Option Uuid}
      (h : w.phase.before = some before) :
      WalkStep owner rid w (.request limit) (w.request owner rid limit before)

/-- The reader owns the revision and has read nothing. -/
def Walk.Initial (owner rid : Uuid) (w : Walk) : Prop :=
  w.store.owns owner rid ∧ w.phase = .idle ∧ w.collected = [] ∧ w.requests = 0 ∧ w.first = []

def pageWalk (owner rid : Uuid) : TSys Walk WalkLabel where
  init := Walk.Initial owner rid
  step := WalkStep owner rid

/-- What the reader has read: records of the revision in descending order, and once it is done,
all of those of the first request. -/
structure ReadExactly (rid : Uuid) (w : Walk) : Prop where
  noFailure : ∀ message, w.phase ≠ .failed message
  descending : w.collected.Pairwise Newer
  stored : w.collected ⊆ w.store.recordsOf rid
  complete : w.phase = .finished → ∀ r ∈ w.first, w.collected.count r = 1
  /-- it is done after one request more than there are records -/
  ends : w.requests ≤ (w.store.recordsOf rid).length + 1

/-- What is still to be read, by the phase. -/
def Ahead (w : Walk) : Prop :=
  match w.phase with
  | .idle => w.collected = [] ∧ w.requests = 0
  | .following cursor => ∃ last ∈ w.collected, last.id = cursor ∧
      (∀ x ∈ w.collected, last.place ≤ x.place) ∧
      (∀ x ∈ w.first, x ∈ w.collected ∨ x.place < last.place) ∧
      w.requests ≤ w.collected.length
  | .finished => (∀ x ∈ w.first, x ∈ w.collected) ∧ w.requests ≤ w.collected.length + 1
  | .failed _ => False

structure WalkOk (owner rid : Uuid) (w : Walk) : Prop where
  owns : w.store.owns owner rid
  descending : w.collected.Pairwise Newer
  stored : w.collected ⊆ w.store.recordsOf rid
  firstStored : w.first ⊆ w.store.recordsOf rid
  ahead : Ahead w

section Walk

variable {owner rid : Uuid} {w : Walk}

theorem WalkOk.grow (h : WalkOk owner rid w) {S : LearningStore} (hgrows : w.store.Grows S) :
    WalkOk owner rid { w with store := S } where
  owns := hgrows.owns h.owns
  descending := h.descending
  stored := List.Subset.trans h.stored hgrows.recordsOf
  firstStored := List.Subset.trans h.firstStored hgrows.recordsOf
  ahead := h.ahead

/-- The records of the first request, once the request with this cursor is made. -/
def firstRead (rid : Uuid) (w : Walk) (before : Option Uuid) : List StoredRecord :=
  if before = none then w.store.recordsOf rid else w.first

/-- Before a request: its cursor is valid, what lies below it was not read, and what is to be read
was or lies there. -/
theorem WalkOk.pending (h : WalkOk owner rid w) {before : Option Uuid}
    (hbefore : w.phase.before = some before) :
    before.all (fun c => (w.store.recordsOf rid).any fun r => r.id = c) = true ∧
      (∀ x ∈ w.store.recordsBelow rid before, ∀ y ∈ w.collected, Newer y x) ∧
      (∀ x ∈ firstRead rid w before, x ∈ w.collected ∨ x ∈ w.store.recordsBelow rid before) ∧
      w.requests ≤ w.collected.length := by
  have hahead := h.ahead
  unfold Ahead at hahead
  cases hphase : w.phase with
  | idle =>
    rw [hphase] at hahead hbefore
    obtain ⟨hnone, hzero⟩ := hahead
    obtain rfl := Option.some.inj hbefore
    rw [hnone, hzero]
    refine ⟨rfl, fun x _ y hy => absurd hy not_mem_nil, fun x hx => .inr ?_, le_refl 0⟩
    rwa [firstRead, if_pos rfl] at hx
  | following cursor =>
    rw [hphase] at hahead hbefore
    obtain ⟨last, hlast, rfl, hleast, hrest, hcount⟩ := hahead
    obtain rfl := Option.some.inj hbefore
    have hstored := h.stored hlast
    rw [recordsBelow_some hstored]
    refine ⟨List.any_eq_true.mpr ⟨last, hstored, decide_eq_true rfl⟩, ?_, ?_, hcount⟩
    · intro x hx y hy
      exact lt_of_lt_of_le (of_decide_eq_true (mem_filter.mp hx).2) (hleast y hy)
    · intro x hx
      rw [firstRead, if_neg nofun] at hx
      rcases hrest x hx with hread | hbelow
      · exact .inl hread
      · exact .inr (mem_filter.mpr ⟨h.firstStored hx, decide_eq_true hbelow⟩)
  | finished | failed =>
    rw [hphase] at hbefore
    cases hbefore

/-- A request reads the next page. -/
theorem WalkOk.request (h : WalkOk owner rid w) (limit : Option Int) {before : Option Uuid}
    (hbefore : w.phase.before = some before) :
    WalkOk owner rid (w.request owner rid limit before) := by
  obtain ⟨hcursor, hbelow, hfirst, hcount⟩ := h.pending hbefore
  obtain ⟨data, next, hpage, hdata, hnewer, hend⟩ :=
    learningRecords_spec h.owns limit hcursor
  have hrequest : w.request owner rid limit before =
      { store := w.store, phase := next.elim .finished .following, collected := w.collected ++ data,
        requests := w.requests + 1, first := firstRead rid w before } := by
    unfold Walk.request firstRead
    rw [hpage]
  have hstored : data ⊆ w.store.recordsOf rid :=
    fun x hx => (recordsBelow_sublist before).subset (hdata hx)
  rw [hrequest]
  constructor
  · exact h.owns
  · exact pairwise_append.mpr
      ⟨h.descending, hnewer, fun y hy x hx => hbelow x (hdata hx) y hy⟩
  · exact append_subset.mpr ⟨h.stored, hstored⟩
  · intro x hx
    rcases hfirst x hx with hread | hrest
    · exact h.stored hread
    · exact (recordsBelow_sublist before).subset hrest
  · rcases hend with ⟨rfl, hall⟩ | ⟨last, hlast, rfl, hleast, hrest⟩
    · refine ⟨fun x hx => ?_, ?_⟩
      · rcases hfirst x hx with hread | hbelow
        · exact mem_append_left _ hread
        · exact mem_append_right _ (hall x hbelow)
      · show w.requests + 1 ≤ (w.collected ++ data).length + 1
        rw [length_append]
        omega
    · refine ⟨last, mem_append_right _ hlast, rfl, ?_, ?_, ?_⟩
      · intro x hx
        rcases mem_append.mp hx with hx | hx
        · exact (hbelow last (hdata hlast) x hx).le
        · exact hleast x hx
      · intro x hx
        rcases hfirst x hx with hread | hmem
        · exact .inl (mem_append_left _ hread)
        · rcases hrest x hmem with hx | hlower
          · exact .inl (mem_append_right _ hx)
          · exact .inr hlower
      · show w.requests + 1 ≤ (w.collected ++ data).length
        have hpos := length_pos_of_mem hlast
        rw [length_append]
        omega

theorem WalkOk.readExactly (h : WalkOk owner rid w) : ReadExactly rid w := by
  have hnodup : w.collected.Nodup := h.descending.imp fun hlt heq => by
    rw [heq] at hlt
    exact lt_irrefl _ hlt
  have hlength : w.collected.length ≤ (w.store.recordsOf rid).length :=
    (subperm_of_subset hnodup h.stored).length_le
  have hahead := h.ahead
  unfold Ahead at hahead
  constructor
  · intro message hphase
    rw [hphase] at hahead
    exact hahead
  · exact h.descending
  · exact h.stored
  · intro hphase r hr
    rw [hphase] at hahead
    exact count_eq_one_of_mem hnodup (hahead.1 r hr)
  · cases hphase : w.phase with
    | idle =>
      rw [hphase] at hahead
      have hzero := hahead.2
      omega
    | following cursor =>
      rw [hphase] at hahead
      obtain ⟨-, -, -, -, -, hcount⟩ := hahead
      omega
    | finished =>
      rw [hphase] at hahead
      have hcount := hahead.2
      omega
    | failed message =>
      rw [hphase] at hahead
      exact hahead.elim

end Walk

/-- Whatever is appended between the requests, and whatever their page sizes: following
`next_cursor` reads every record of the first request exactly once, in descending order. -/
theorem learning_records_exact (owner rid : Uuid) :
    (pageWalk owner rid).Invariant (ReadExactly rid) := by
  have hind : (pageWalk owner rid).Inductive (WalkOk owner rid) := by
    constructor
    · rintro w ⟨howns, hphase, hcollected, hrequests, hfirst⟩
      refine ⟨howns, ?_, ?_, ?_, ?_⟩
      · rw [hcollected]
        exact .nil
      · rw [hcollected]
        exact nil_subset _
      · rw [hfirst]
        exact nil_subset _
      · unfold Ahead
        rw [hphase]
        exact ⟨hcollected, hrequests⟩
    · rintro w label w' hw hstep
      cases hstep with
      | grow hgrows => exact hw.grow hgrows
      | request hbefore => exact hw.request _ hbefore
  intro w hw
  exact (hind.invariant w hw).readExactly

end Clawforge.Learning

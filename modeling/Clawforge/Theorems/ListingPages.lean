import Clawforge.Api.Listings

/-!
# What the pages of a listing hold

The pages of a listing are the rows it retained, each once (`walk_iff`). A row that the query
left behind its limit is never looked at, so a listing is complete if and only if no such row
passes the rest of the filter; and a page number is answered exactly if and only if the product
with the size of a page fits into 64 bits (`listing_complete_iff`).
-/

namespace Clawforge.Listings

open Kit IncidentReads List

/-! ## Pages -/

section Paging

variable {α : Type} {values : List α} {page pageSize : Int}

/-- The size `paged_values` uses. -/
def clampedSize (pageSize : Int) : Int := min (max pageSize 1) 500

theorem exists_clampedSize (pageSize : Int) :
    ∃ s : Nat, clampedSize pageSize = s ∧ 1 ≤ s ∧ s ≤ 500 := by
  refine ⟨(clampedSize pageSize).toNat, ?_, ?_, ?_⟩
  · unfold clampedSize
    omega
  · unfold clampedSize
    omega
  · unfold clampedSize
    omega

theorem lossless_pagedValues :
    (pagedValues values page pageSize).lossless = true ↔
      max page 1 * clampedSize pageSize < 2 ^ 63 := by
  unfold pagedValues clampedSize
  simp only [Tracked.bind_eq, Tracked.pure_eq, Bool.and_true, Bool.and_eq_true, Tracked.signed,
    decide_eq_true_eq]
  have hpage : 1 ≤ max page 1 := le_max_right _ _
  have hsize : 1 ≤ min (max pageSize 1) 500 := le_min (le_max_right _ _) (by decide)
  generalize max page 1 = p at *
  generalize min (max pageSize 1) 500 = s at *
  have hbefore : 0 ≤ (p - 1) * s := Int.mul_nonneg (by omega) (by omega)
  have hstep : (p - 1) * s + s = p * s := by ring
  constructor
  · rintro ⟨-, -, hfits⟩
    exact hfits
  · intro hfits
    refine ⟨⟨?_, ?_⟩, ?_, hfits⟩
    · omega
    · omega
    · omega

theorem asUsize_natCast {n : Nat} (h : n < 2 ^ 64) : asUsize n = n := by
  unfold asUsize
  omega

/-- The page of number `k + 1`, if its rows start within the list. -/
theorem value_pagedValues {k s : Nat} (hs' : s ≤ 500) (hsize : clampedSize pageSize = s)
    (hlength : values.length < 2 ^ 62) (hk : k * s ≤ values.length) :
    (pagedValues values (k + 1 : Nat) pageSize).value =
      ((values.drop (k * s)).take s,
        ⟨(k + 1 : Nat), s, values.length, decide ((k + 1) * s < values.length)⟩) := by
  have hpage : max ((k + 1 : Nat) : Int) 1 = (k + 1 : Nat) := by omega
  have hoffset : (((k + 1 : Nat) : Int) - 1) * (s : Int) = (k * s : Nat) := by push_cast; ring
  have hreached : ((k + 1 : Nat) : Int) * (s : Int) = ((k + 1) * s : Nat) := by push_cast; ring
  have hnext : (k + 1) * s = k * s + s := by ring
  unfold clampedSize at hsize
  unfold pagedValues
  dsimp only
  rw [hpage, hsize, hoffset, hreached, Tracked.signed_of_fits (w := 63) (by omega) (by omega),
    Tracked.pure_bind, Tracked.signed_of_fits (w := 63) (by omega) (by omega), Tracked.pure_bind,
    Tracked.pure_eq, asUsize_natCast (by omega), asUsize_natCast (by omega)]
  have hstop : min (min (k * s + s) (2 ^ 64 - 1)) values.length - k * s =
      min s (values.drop (k * s)).length := by
    rw [length_drop]
    omega
  have hdata : (if values.length ≤ k * s then []
      else (values.drop (k * s)).take (min (min (k * s + s) (2 ^ 64 - 1)) values.length - k * s)) =
      (values.drop (k * s)).take s := by
    rw [hstop, ← take_eq_take_min]
    split
    · next hle => rw [drop_eq_nil_of_le hle, take_nil]
    · rfl
  rw [hdata]
  simp only [Nat.cast_lt]

/-- From a page on, the walk collects the rows that are left. -/
theorem walk_iff_drop {s : Nat} (hs : 1 ≤ s) (hs' : s ≤ 500) (hsize : clampedSize pageSize = s)
    (hlength : values.length < 2 ^ 62) {k : Nat} (hk : k * s ≤ values.length) {rows : List α} :
    Walk (fun page => pagedValues values page pageSize) (k + 1 : Nat) rows ↔
      rows = values.drop (k * s) := by
  induction hleft : values.length - k * s using Nat.strong_induction_on generalizing k rows with
  | _ left ih =>
    have hvalue := value_pagedValues hs' hsize hlength hk
    have hnumber : (((k + 1 : Nat) : Int) + 1) = ((k + 1 + 1 : Nat) : Int) := by push_cast; ring
    have hsucc : (k + 1) * s = k * s + s := by ring
    by_cases hmore : (k + 1) * s < values.length
    · -- the next page starts within the list
      have hrest : ∀ rest, Walk (fun page => pagedValues values page pageSize)
          (k + 1 + 1 : Nat) rest ↔ rest = values.drop ((k + 1) * s) := fun rest =>
        ih (values.length - (k + 1) * s) (by omega) hmore.le rfl
      have hsplit : (values.drop (k * s)).take s ++ values.drop ((k + 1) * s) =
          values.drop (k * s) := by
        rw [hsucc, ← drop_drop, take_append_drop]
      constructor
      · intro hwalk
        cases hwalk with
        | last hnext =>
          rw [hvalue] at hnext
          exact absurd hmore (of_decide_eq_false hnext)
        | next hnext hwalk =>
          rw [hnumber] at hwalk
          rw [hvalue, (hrest _).1 hwalk]
          exact hsplit
      · rintro rfl
        have hnext : (pagedValues values (k + 1 : Nat) pageSize).value.2.hasNext = true := by
          rw [hvalue]
          exact decide_eq_true hmore
        have hwalk := (hrest _).2 rfl
        rw [← hnumber] at hwalk
        have hall : Walk (fun page => pagedValues values page pageSize) (k + 1 : Nat)
            ((pagedValues values (k + 1 : Nat) pageSize).value.1 ++ values.drop ((k + 1) * s)) :=
          .next hnext hwalk
        rw [hvalue, hsplit] at hall
        exact hall
    · -- this page is the last
      have hdata : (values.drop (k * s)).take s = values.drop (k * s) := by
        refine take_of_length_le ?_
        rw [length_drop]
        omega
      constructor
      · intro hwalk
        cases hwalk with
        | last hnext =>
          rw [hvalue]
          exact hdata
        | next hnext hwalk =>
          rw [hvalue] at hnext
          exact absurd (of_decide_eq_true hnext) hmore
      · rintro rfl
        have hnext : (pagedValues values (k + 1 : Nat) pageSize).value.2.hasNext = false := by
          rw [hvalue]
          exact decide_eq_false hmore
        have hall : Walk (fun page => pagedValues values page pageSize) (k + 1 : Nat)
            (pagedValues values (k + 1 : Nat) pageSize).value.1 := .last hnext
        rw [hvalue, hdata] at hall
        exact hall

/-- The pages of a list are the list. -/
theorem walk_iff (hlength : values.length < 2 ^ 62) {rows : List α} :
    Walk (fun page => pagedValues values page pageSize) 1 rows ↔ rows = values := by
  obtain ⟨s, hsize, hs, hs'⟩ := exists_clampedSize pageSize
  have hwalk : Walk (fun page => pagedValues values page pageSize) ((0 + 1 : Nat) : Int) rows ↔
      rows = values.drop (0 * s) := walk_iff_drop hs hs' hsize hlength (by omega)
  rwa [Nat.zero_mul, drop_zero] at hwalk

end Paging

/-! ## Completeness -/

/-- Following the pages from the first on yields every row that matches, once, and every page
reports how many there are. -/
structure Listing.Complete (l : Listing) (sorted : List l.Row) : Prop where
  ends : ∃ rows, Walk (l.answer sorted) 1 rows
  once : ∀ rows, Walk (l.answer sorted) 1 rows → rows.Perm l.matching
  total : ∀ page, (l.answer sorted page).value.2.total = l.matching.length

section Completeness

variable {l : Listing} {sorted : List l.Row}

theorem matching_perm (hsorted : l.Order sorted) :
    (sorted.filter l.kept).Perm l.matching := by
  have hperm := hsorted.1.filter l.kept
  rw [List.filter_filter] at hperm
  unfold Listing.matching
  simpa only [Bool.and_comm] using hperm

/-- The rows the pages hold, and those behind the limit. -/
theorem values_append (l : Listing) (sorted : List l.Row) :
    l.values sorted ++ (sorted.drop l.limit).filter l.kept = sorted.filter l.kept := by
  unfold Listing.values
  rw [← filter_append, take_append_drop]

theorem complete_iff (hlimit : l.limit ≤ 1000) (hsorted : l.Order sorted) :
    l.Complete sorted ↔ ∀ r ∈ sorted.drop l.limit, l.kept r = false := by
  have hshort : (l.values sorted).length < 2 ^ 62 := by
    have hle : (l.values sorted).length ≤ l.limit :=
      (List.length_filter_le _ _).trans (length_take_le _ _)
    omega
  have hwalk : ∀ rows, Walk (l.answer sorted) 1 rows ↔ rows = l.values sorted :=
    fun rows => walk_iff hshort
  have hmatching := matching_perm hsorted
  constructor
  · intro hcomplete r hr
    have hlength := ((hcomplete.once _ ((hwalk _).2 rfl)).trans hmatching.symm).length_eq
    rw [← values_append, length_append] at hlength
    have hnone : (sorted.drop l.limit).filter l.kept = [] :=
      eq_nil_of_length_eq_zero (by omega)
    exact Bool.eq_false_iff.2 (filter_eq_nil_iff.1 hnone r hr)
  · intro hnone
    have hnil : (sorted.drop l.limit).filter l.kept = [] :=
      filter_eq_nil_iff.2 (fun r hr => Bool.eq_false_iff.1 (hnone r hr))
    have hperm : (l.values sorted).Perm l.matching := by
      rw [← values_append, hnil, append_nil] at hmatching
      exact hmatching
    refine ⟨⟨_, (hwalk _).2 rfl⟩, ?_, ?_⟩
    · intro rows hrows
      rw [(hwalk rows).1 hrows]
      exact hperm
    · intro page
      rw [← hperm.length_eq]
      rfl

end Completeness

theorem limit_of_offered {env : Env} {db : ListingDb} {l : Listing} (h : Offered env db l) :
    l.limit ≤ 1000 := by
  cases h with
  | incidents h =>
    unfold incidents at h
    split at h
    · cases h
    · cases h
      exact show rowLimit 500 ≤ 1000 by decide
  | auditEvents | agentEvents => exact show 500 ≤ 1000 by decide
  | agentIncidents h =>
    unfold agentIncidents at h
    split at h
    · cases h
    · cases h
      exact show rowLimit 500 ≤ 1000 by decide
  | agentFindings now query => exact le_refl 1000

/-- A listing is complete on a store if and only if its query leaves no row behind the limit that
the rest of the filter would retain, and it answers a page number without overflow if and only if
the rows up to that page can be counted in an `i64`. -/
theorem listing_complete_iff (env : Env) (db : ListingDb) (l : Listing) (hl : Offered env db l)
    (sorted : List l.Row) (hsorted : l.Order sorted) :
    (l.Complete sorted ↔ ∀ r ∈ sorted.drop l.limit, l.kept r = false) ∧
      ∀ page : Int, (l.answer sorted page).lossless = true ↔
        max page 1 * min (max l.pageSize 1) 500 < 2 ^ 63 := by
  refine ⟨complete_iff (limit_of_offered hl) hsorted, fun page => ?_⟩
  exact lossless_pagedValues

/-! ### A record behind the limit -/

def recentEvent (i : Nat) : EventRow :=
  ⟨i, "NetworkAlert", "suricata", "high", 1000 - i, none, .null, .null, 1000⟩

def oldEvent : EventRow := ⟨500, "NetworkAlert", "haproxy", "high", 0, none, .null, .null, 1000⟩

def floodRows : List EventRow := (List.range 500).map recentEvent ++ [oldEvent]

theorem nodup_floodRows : (floodRows.map EventRow.eventId).Nodup := by
  have hids : floodRows.map EventRow.eventId = List.range 501 := by
    unfold floodRows
    rw [map_append, List.map_map, range_succ (n := 500),
      show EventRow.eventId ∘ recentEvent = id from rfl, List.map_id, map_singleton]
    rfl
  rw [hids]
  exact nodup_range

/-- Five hundred events of one source, and an older one of another. -/
def floodDb : ListingDb where
  core :=
    { incidents := .empty _
      links := .empty _
      audit := .empty _
      relations := .empty _
      events := ⟨floodRows, nodup_floodRows⟩
      linksKnown := fun _ h => absurd h Table.not_mem_empty
      relationsKnown := fun _ h => absurd h Table.not_mem_empty }
  indicators := .empty _
  riskHistory := []

def plainEnv : Env := ⟨fun _ _ => true, fun _ => "2026-01-01T00:00:00Z"⟩

def haproxyEvents : Listing :=
  agentEvents plainEnv floodDb ⟨none, none, some "haproxy", none, none, none, none, none, none, none⟩

theorem order_floodRows : haproxyEvents.Order floodRows := by
  refine ⟨?_, ?_⟩
  · have hall : haproxyEvents.table.filter haproxyEvents.selected = floodRows :=
      filter_eq_self.2 fun _ _ => rfl
    rw [hall]
    exact .refl _
  · refine pairwise_append.2 ⟨pairwise_map.2 ?_, pairwise_singleton _ _, ?_⟩
    · refine pairwise_lt_range.imp ?_
      intro a b hab
      exact Nat.sub_le_sub_left (Nat.le_of_lt hab) 1000
    · intro a _ b hb
      obtain rfl := mem_singleton.1 hb
      exact Nat.zero_le _

theorem drop_floodRows : floodRows.drop 500 = [oldEvent] := by
  refine drop_left' ?_
  rw [length_map, length_range]

theorem listing_complete_iff_flood :
    (haproxyEvents.Complete floodRows ↔
        ∀ r ∈ floodRows.drop haproxyEvents.limit, haproxyEvents.kept r = false) ∧
      ∀ page : Int, (haproxyEvents.answer floodRows page).lossless = true ↔
        max page 1 * min (max haproxyEvents.pageSize 1) 500 < 2 ^ 63 :=
  listing_complete_iff plainEnv floodDb haproxyEvents (.agentEvents _) floodRows order_floodRows

/-- The event of the source that the filter names is not listed, and the last page number
overflows. -/
theorem event_behind_limit :
    ¬ haproxyEvents.Complete floodRows ∧
      (haproxyEvents.answer floodRows (2 ^ 63 - 1)).lossless = false := by
  constructor
  · intro hcomplete
    have hnone := (complete_iff (show 500 ≤ 1000 by decide) order_floodRows).1 hcomplete
    have hmem : oldEvent ∈ floodRows.drop 500 := by
      rw [drop_floodRows]
      exact mem_singleton_self _
    have hkept : haproxyEvents.kept oldEvent = true := by decide
    rw [hnone oldEvent hmem] at hkept
    cases hkept
  · rw [← Bool.not_eq_true]
    intro hexact
    have hfits := lossless_pagedValues.1 hexact
    revert hfits
    decide

end Clawforge.Listings

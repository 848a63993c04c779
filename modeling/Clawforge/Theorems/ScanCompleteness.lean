import Clawforge.Kit.Page
import Clawforge.Storage.BridgePlan
import Clawforge.Theorems.StaggeredWindows
import Clawforge.Theorems.WindowRows
import Mathlib.Data.Set.Card

/-!
# What a scan finds

The scan rule counts distinct paths over the first thousand members of a window, oldest
first. A path that is only seen after a thousand others is not counted, and members that
come late can push counted paths out: the stored assessment then loses severity.
-/

namespace Clawforge.SecurityEngine

open Assessments EventDelivery Kit List

/-! ## Paths of a window -/

/-- The window of the scan rule around an event, on one grid. -/
def scanWindow (e : Event) (correlationId : String) (offset : Int) : Bucket :=
  httpScan.bucket correlationId (bucketStart e.occurredAt httpScan.windowSeconds offset)

/-- The key of the window's assessment. -/
def scanKey (b : Bucket) : String :=
  dedupeKeyOf httpScan.ruleId httpScan.ruleVersion b.correlationId b.start

/-- The paths that the members of a window have. -/
def heldPaths (events : List Event) (b : Bucket) : Set String :=
  {path | ∃ e ∈ events.filter b.holds, fieldText e.payload httpScan.field = some path}

/-- The paths of the members that fewer than a thousand others come before. -/
def earlyPaths (events : List Event) (b : Bucket) : Set String :=
  {path | ∃ e, Within Earlier 1000 (events.filter b.holds) e ∧
    fieldText e.payload httpScan.field = some path}

/-- The number of paths the rule counts. -/
def counted (events : List Event) (b : Bucket) : Nat :=
  (distinctValues (listEventsForBucketWithField events b httpScan.field)).length

theorem counted_eq (events : List Event) (b : Bucket) :
    counted events b = (earlyPaths events b).ncard := by
  have hset : earlyPaths events b =
      ↑(distinctValues (listEventsForBucketWithField events b httpScan.field)).toFinset := by
    ext path
    rw [Finset.mem_coe, List.mem_toFinset, distinctValues, mem_dedup, mem_filterMap]
    unfold listEventsForBucketWithField
    constructor
    · rintro ⟨e, hwithin, hpath⟩
      exact ⟨_, List.mem_map_of_mem (mem_page.2 hwithin), hpath⟩
    · rintro ⟨x, hx, hpath⟩
      obtain ⟨e, he, rfl⟩ := List.mem_map.1 hx
      exact ⟨e, mem_page.1 he, hpath⟩
  rw [hset, Set.ncard_coe_finset, counted]
  exact (toFinset_card_of_nodup (nodup_dedup _)).symm

theorem finite_heldPaths (events : List Event) (b : Bucket) : (heldPaths events b).Finite := by
  refine Set.Finite.subset (((events.filter b.holds).filterMap
    (fun e => fieldText e.payload httpScan.field)).toFinset.finite_toSet) ?_
  rintro path ⟨e, he, hpath⟩
  exact Finset.mem_coe.2 (List.mem_toFinset.2 (mem_filterMap.2 ⟨e, he, hpath⟩))

/-! ## The levels -/

/-- The assessment has the severity and the confidence of a count. -/
def HasLevel (row : AssessmentRow) (count : Nat) : Prop :=
  row.severity = severityForCount count httpScan.threshold ∧
    row.confidence = confidenceForCount count httpScan.threshold

/-- The severity and the confidence of an assessment are not below those of another. -/
def NotLower (old new : AssessmentRow) : Prop :=
  Bridge.severityRank old.severity ≤ Bridge.severityRank new.severity ∧
    old.confidence ≤ new.confidence

/-- A count that has not dropped below another, as far as it matters: the confidence grows up
to ten above the threshold, the severity at twice and four times the threshold. -/
def Steady (before after : Nat) : Prop :=
  min before (httpScan.threshold + 10) ≤ after ∧
    (httpScan.threshold * 4 ≤ before → httpScan.threshold * 4 ≤ after)

theorem notLower_iff {old new : AssessmentRow} {before after : Nat} (hold : HasLevel old before)
    (hnew : HasLevel new after) (hbefore : httpScan.threshold ≤ before)
    (hafter : httpScan.threshold ≤ after) : NotLower old new ↔ Steady before after := by
  unfold NotLower Steady
  rw [hold.1, hold.2, hnew.1, hnew.2]
  unfold severityForCount confidenceForCount
  have hthreshold : httpScan.threshold = 8 := rfl
  have hmedium : Bridge.severityRank "medium" = 1 := by decide
  have hhigh : Bridge.severityRank "high" = 2 := by decide
  have hcritical : Bridge.severityRank "critical" = 3 := by decide
  rw [hthreshold] at hbefore hafter ⊢
  split_ifs <;> simp only [hmedium, hhigh, hcritical] <;> omega

/-! ## One evaluation -/

/-- What an evaluation that counts enough paths makes of the rows of its window: there is one,
each has the level of the count, and none is lost. -/
def Scanned (before after : Set AssessmentRow) (count : Nat) : Prop :=
  after.Nonempty ∧ (∀ row ∈ after, HasLevel row count) ∧
    ∀ old ∈ before, ∃ row ∈ after, row.id = old.id

/-- The two grids have no window in common. -/
theorem scanKey_ne (e : Event) (correlationId : String) {offset other : Int}
    (hoffset : offset ∈ gridOffsets httpScan.windowSeconds)
    (hother : other ∈ gridOffsets httpScan.windowSeconds) (hne : other ≠ offset) :
    scanKey (scanWindow e correlationId other) ≠ scanKey (scanWindow e correlationId offset) := by
  intro hkey
  have hmem : Rule.distinct httpScan ∈ allRules := by decide
  obtain ⟨-, -, hsame⟩ := dedupeKeyOf_injective hmem hmem hkey
  have hstart : ∀ o, timestamp (scanWindow e correlationId o).start =
      (timestamp e.occurredAt - o) / 300 * 300 + o := fun o => timestamp_atSecond _
  rw [hstart, hstart] at hsame
  have hgrid : gridOffsets httpScan.windowSeconds = [0, 150] := rfl
  rw [hgrid] at hoffset hother
  simp only [mem_cons, not_mem_nil, or_false] at hoffset hother
  omega

theorem rowsAt_evaluateScanWindow (env : Env) (s : AssessmentStore) (e : Event)
    (correlationId : String) (offset : Int) :
    (counted s.events (scanWindow e correlationId offset) < httpScan.threshold →
      evaluateScanWindow env httpScan (recordOf e) correlationId s offset = s) ∧
    (httpScan.threshold ≤ counted s.events (scanWindow e correlationId offset) →
      Scanned (rowsAt s (scanKey (scanWindow e correlationId offset)))
        (rowsAt (evaluateScanWindow env httpScan (recordOf e) correlationId s offset)
          (scanKey (scanWindow e correlationId offset)))
        (counted s.events (scanWindow e correlationId offset))) := by
  constructor
  · intro hfew
    exact if_pos hfew
  · intro hmany
    rw [show evaluateScanWindow env httpScan (recordOf e) correlationId s offset = _ from
      if_neg (Nat.not_lt.2 hmany), persistAssessment_eq]
    obtain ⟨hfound, hwritten, hkept⟩ := rowsAt_persist s (requestOf env s
      httpScan.ruleId httpScan.ruleVersion httpScan.windowSeconds
      (scanWindow e correlationId offset) _ (recordOf e) _ _ _)
    exact ⟨hfound, fun row hrow => ⟨(hwritten row hrow).severity, (hwritten row hrow).confidence⟩,
      hkept⟩

/-- The evaluation of the scan rule on one event, seen at one of the event's two windows. -/
theorem evaluateScanRule_spec (env : Env) (s : AssessmentStore) {e : Event}
    {correlationId : String} (hresource : (recordOf e).resource = some correlationId)
    {offset : Int} (hoffset : offset ∈ gridOffsets httpScan.windowSeconds) :
    (counted s.events (scanWindow e correlationId offset) < httpScan.threshold →
      rowsAt (evaluateScanRule env (recordOf e) s httpScan)
        (scanKey (scanWindow e correlationId offset)) =
      rowsAt s (scanKey (scanWindow e correlationId offset))) ∧
    (httpScan.threshold ≤ counted s.events (scanWindow e correlationId offset) →
      Scanned (rowsAt s (scanKey (scanWindow e correlationId offset)))
        (rowsAt (evaluateScanRule env (recordOf e) s httpScan)
          (scanKey (scanWindow e correlationId offset)))
        (counted s.events (scanWindow e correlationId offset))) := by
  have hother : ∀ (s : AssessmentStore) (o : Int), o ∈ gridOffsets httpScan.windowSeconds →
      o ≠ offset →
      rowsAt (evaluateScanWindow env httpScan (recordOf e) correlationId s o)
        (scanKey (scanWindow e correlationId offset)) =
      rowsAt s (scanKey (scanWindow e correlationId offset)) := by
    intro s o ho hne
    exact rowsAt_evaluateAt_of_ne env s (.distinct httpScan, o)
      (scanKey_ne e correlationId hoffset ho hne)
  have hevents : ∀ (s : AssessmentStore) (o : Int),
      (evaluateScanWindow env httpScan (recordOf e) correlationId s o).events = s.events :=
    fun s o => events_evaluateAt env (recordOf e) correlationId s (.distinct httpScan, o)
  have hgrid : gridOffsets httpScan.windowSeconds = [0, 150] := rfl
  rw [evaluateScanRule, hresource]
  dsimp only
  rw [hgrid] at hoffset hother ⊢
  rw [foldl_cons, foldl_cons, foldl_nil]
  rcases mem_pair.1 hoffset with rfl | rfl
  · rw [hother _ 150 (by simp) (by decide)]
    have hspec := rowsAt_evaluateScanWindow env s e correlationId 0
    exact ⟨fun hfew => by rw [hspec.1 hfew], hspec.2⟩
  · have hspec := rowsAt_evaluateScanWindow env
      (evaluateScanWindow env httpScan (recordOf e) correlationId s 0) e correlationId 150
    rw [hevents, hother _ 0 (by simp) (by decide)] at hspec
    refine ⟨fun hfew => ?_, hspec.2⟩
    rw [hspec.1 hfew, hother _ 0 (by simp) (by decide)]

/-! ## Completeness -/

/-- A window with enough paths has its assessment after the evaluation, and an evaluation
after further events neither removes it nor lowers it. -/
def ScanKept (env : Env) (s : AssessmentStore) (e : Event) (more : List Event) (e' : Event)
    (correlationId : String) (offset : Int) : Prop :=
  let b := scanWindow e correlationId offset
  let first := evaluateScanRule env (recordOf e) s httpScan
  let second := evaluateScanRule env (recordOf e')
    { first with events := first.events ++ more } httpScan
  (httpScan.threshold ≤ (heldPaths s.events b).ncard → (rowsAt first (scanKey b)).Nonempty) ∧
    ∀ old ∈ rowsAt first (scanKey b), ∃ row ∈ rowsAt second (scanKey b),
      row.id = old.id ∧ NotLower old row

/-- Every member of a window has that window on its grid. -/
theorem scanWindow_eq_of_holds {e e' : Event} {correlationId : String} {offset : Int}
    (hmember : (scanWindow e correlationId offset).holds e' = true) :
    scanWindow e' correlationId offset = scanWindow e correlationId offset := by
  unfold Bucket.holds at hmember
  simp only [Bool.and_eq_true, decide_eq_true_eq] at hmember
  obtain ⟨⟨⟨-, hstart⟩, hstop⟩, -⟩ := hmember
  have hsame : bucketStart e'.occurredAt httpScan.windowSeconds offset =
      bucketStart e.occurredAt httpScan.windowSeconds offset := by
    rw [bucketStart_eq_bucketStartAt, bucketStart_eq_bucketStartAt]
    obtain ⟨n, hn, -, -⟩ := bucketStartAt_second (w := httpScan.windowSeconds) offset
      (by decide) e.occurredAt
    have hbucket : (scanWindow e correlationId offset).start =
        bucketStartAt e.occurredAt httpScan.windowSeconds offset := rfl
    rw [hn]
    rw [hbucket, hn] at hstart
    refine bucketStartAt_unique offset (by decide) hstart ?_
    rw [← hn]
    exact hstop
  unfold scanWindow
  rw [hsame]

theorem events_evaluateScanRule (env : Env) (event : EventRecord) (s : AssessmentStore) :
    (evaluateScanRule env event s httpScan).events = s.events := by
  unfold evaluateScanRule
  cases event.resource with
  | none => rfl
  | some correlationId =>
    have hevents : ∀ (s : AssessmentStore) (o : Int),
        (evaluateScanWindow env httpScan event correlationId s o).events = s.events :=
      fun s o => events_evaluateAt env event correlationId s (.distinct httpScan, o)
    have hgrid : gridOffsets httpScan.windowSeconds = [0, 150] := rfl
    dsimp only
    rw [hgrid, foldl_cons, foldl_cons, foldl_nil, hevents, hevents]

/-- The rule keeps a window in view as long as the earliest thousand members show enough of its
paths, and as many as before. -/
theorem scan_kept_iff {env : Env} {s : AssessmentStore} {e e' : Event} {more : List Event}
    {correlationId : String} {offset : Int}
    (hfresh : rowsAt s (scanKey (scanWindow e correlationId offset)) = ∅)
    (hresource : (recordOf e).resource = some correlationId)
    (hoffset : offset ∈ gridOffsets httpScan.windowSeconds)
    (hmember : (scanWindow e correlationId offset).holds e' = true) :
    ScanKept env s e more e' correlationId offset ↔
      (httpScan.threshold ≤ (heldPaths s.events (scanWindow e correlationId offset)).ncard →
        httpScan.threshold ≤ (earlyPaths s.events (scanWindow e correlationId offset)).ncard) ∧
      (httpScan.threshold ≤ (earlyPaths s.events (scanWindow e correlationId offset)).ncard →
        httpScan.threshold ≤
          (earlyPaths (s.events ++ more) (scanWindow e correlationId offset)).ncard →
        Steady (earlyPaths s.events (scanWindow e correlationId offset)).ncard
          (earlyPaths (s.events ++ more) (scanWindow e correlationId offset)).ncard) := by
  have hsame := scanWindow_eq_of_holds hmember
  have hresource' : (recordOf e').resource = some correlationId := by
    unfold Bucket.holds at hmember
    simp only [Bool.and_eq_true, decide_eq_true_eq] at hmember
    have hid : e'.correlationId = some correlationId := hmember.1.1.1.2
    unfold EventRecord.resource recordOf at hresource ⊢
    rw [Option.filter_eq_some_iff] at hresource ⊢
    exact ⟨hid, hresource.2⟩
  have hfirst := evaluateScanRule_spec env s hresource hoffset
  generalize hstore : evaluateScanRule env (recordOf e) s httpScan = first at hfirst
  have hevents : first.events = s.events := by
    rw [← hstore]
    exact events_evaluateScanRule env (recordOf e) s
  have hsecond := evaluateScanRule_spec env { first with events := first.events ++ more }
    hresource' hoffset
  rw [hsame] at hsecond
  unfold ScanKept
  dsimp only
  rw [hstore]
  generalize hagain : evaluateScanRule env (recordOf e')
    { first with events := first.events ++ more } httpScan = second at hsecond
  dsimp only at hsecond
  rw [hevents] at hsecond
  generalize scanWindow e correlationId offset = b at *
  rw [counted_eq] at hfirst hsecond
  have hrows : rowsAt { first with events := s.events ++ more } (scanKey b) =
    rowsAt first (scanKey b) := rfl
  rw [hrows] at hsecond
  generalize (earlyPaths s.events b).ncard = n at *
  generalize (earlyPaths (s.events ++ more) b).ncard = m at *
  rcases Nat.lt_or_ge n httpScan.threshold with hn | hn
  · -- nothing is assessed
    rw [hfirst.1 hn, hfresh]
    simp [Nat.not_le.2 hn]
  · obtain ⟨⟨row, hrow⟩, hlevel, -⟩ := hfirst.2 hn
    have hfound : (rowsAt first (scanKey b)).Nonempty := ⟨row, hrow⟩
    rcases Nat.lt_or_ge m httpScan.threshold with hm | hm
    · -- the second evaluation writes nothing
      rw [hsecond.1 hm]
      refine iff_of_true ⟨fun _ => hfound, ?_⟩ ⟨fun _ => hn, ?_⟩
      · intro old hold
        exact ⟨old, hold, rfl, Nat.le_refl _, Int.le_refl _⟩
      · intro _ hle
        omega
    · obtain ⟨-, hlevel', hkept⟩ := hsecond.2 hm
      constructor
      · rintro ⟨-, hnot⟩
        obtain ⟨row', hrow', -, hle⟩ := hnot row hrow
        exact ⟨fun _ => hn, fun _ _ =>
          (notLower_iff (hlevel row hrow) (hlevel' row' hrow') hn hm).1 hle⟩
      · rintro ⟨-, hsteady⟩
        refine ⟨fun _ => hfound, ?_⟩
        intro old hold
        obtain ⟨row', hrow', hid⟩ := hkept old hold
        exact ⟨row', hrow', hid,
          (notLower_iff (hlevel old hold) (hlevel' row' hrow') hn hm).2 (hsteady hn hm)⟩

/-! ## A flood before a scan -/

/-- A request for a path that was not found, in the first seconds of 2026. -/
def notFound (eventId second : Nat) (path : String) : Event where
  eventId := eventId
  eventType := "http_anomaly"
  source := "haproxy_sensor"
  severity := "low"
  occurredAt := seconds (1767225600 + second)
  correlationId := some "ip-pseudonym:5c1f"
  payload := Json.ofFields [("path", .string path), ("status_code", .string "404")]
  metadata := Json.ofFields []
  dedupeKey := "security-event:" ++ uuidText eventId
  createdAt := seconds (1767225600 + second)

def probedPaths : List String :=
  ["/.env", "/.git/config", "/admin", "/backup.zip", "/config.php", "/login", "/phpinfo", "/shell"]

def probes : List Event :=
  probedPaths.zipIdx.map (fun x => notFound (1000 + x.2) 1 x.1)

def probe : Event := notFound 1000 1 "/.env"

def storeOf (events : List Event) : AssessmentStore := ⟨events, Table.empty _, []⟩

def buildEnv : Env where
  engineVersion := "1.0.0"
  threatIntelHit := fun _ => none

theorem rowsAt_storeOf (events : List Event) (key : String) : rowsAt (storeOf events) key = ∅ := by
  ext row
  exact ⟨fun h => (Table.not_mem_empty h.1).elim, fun h => h.elim⟩

/-- More of the window: two paths that are new, one again, and one that was asked for before. -/
def moreProbes : List Event :=
  [ notFound 1008 4 "/wp-admin", notFound 1009 5 "/wp-login.php", notFound 1010 5 "/admin"
  , notFound 999 0 "/" ]

/-- Eight probes are assessed, and stay so as more of them arrive. -/
theorem scan_kept_probes :
    (recordOf probe).resource = some "ip-pseudonym:5c1f" ∧
      counted (probes ++ moreProbes) (scanWindow probe "ip-pseudonym:5c1f" 0) = 11 ∧
      ScanKept buildEnv (storeOf probes) probe moreProbes (notFound 1009 5 "/wp-login.php")
        "ip-pseudonym:5c1f" 0 := by
  have hresource : (recordOf probe).resource = some "ip-pseudonym:5c1f" := by decide
  have hcounted : counted probes (scanWindow probe "ip-pseudonym:5c1f" 0) = 8 := by
    decide +kernel
  have hmore : counted (probes ++ moreProbes) (scanWindow probe "ip-pseudonym:5c1f" 0) = 11 := by
    decide +kernel
  refine ⟨hresource, hmore, (scan_kept_iff (rowsAt_storeOf _ _) hresource (by decide)
    (by decide +kernel)).2 ?_⟩
  rw [show (storeOf probes).events = probes from rfl, ← counted_eq, ← counted_eq, hcounted, hmore]
  exact ⟨fun _ => by decide, fun _ _ => by unfold Steady; decide⟩

/-- A thousand requests for one path, and then the probes. -/
def flood : List Event := (List.range 1000).map (fun i => notFound i 0 "/") ++ probes

theorem holds_notFound (eventId second : Nat) (path : String) :
    (scanWindow probe "ip-pseudonym:5c1f" 0).holds (notFound eventId second path) =
      (scanWindow probe "ip-pseudonym:5c1f" 0).holds (notFound 0 second path) := rfl

theorem probes_held :
    (∀ e ∈ probes, (scanWindow probe "ip-pseudonym:5c1f" 0).holds e = true) ∧
      ∀ path ∈ probedPaths, ∃ e ∈ probes,
        fieldText e.payload httpScan.field = some path := by
  decide +kernel

theorem page_flood :
    page Earlier 1000 (flood.filter (scanWindow probe "ip-pseudonym:5c1f" 0).holds) =
      (List.range 1000).map (fun i => notFound i 0 "/") := by
  have hholds : ∀ e ∈ flood, (scanWindow probe "ip-pseudonym:5c1f" 0).holds e = true := by
    have hflood : (scanWindow probe "ip-pseudonym:5c1f" 0).holds (notFound 0 0 "/") = true := by
      decide
    intro e he
    rcases mem_append.1 he with he | he
    · obtain ⟨i, -, rfl⟩ := List.mem_map.1 he
      exact (holds_notFound i 0 "/").trans hflood
    · exact probes_held.1 e he
  have hsorted : flood.Pairwise Earlier := by
    unfold flood
    rw [pairwise_append, pairwise_map]
    have hlater : ∀ b ∈ probes, (notFound 0 0 "/").occurredAt ≤ b.occurredAt := by
      intro b hb
      obtain ⟨x, -, rfl⟩ := List.mem_map.1 hb
      show seconds (1767225600 + 0) ≤ seconds (1767225600 + 1)
      decide
    refine ⟨pairwise_of_forall (fun _ _ => Nat.le_refl _),
      pairwise_map.2 (pairwise_of_forall (fun _ _ => Nat.le_refl _)), ?_⟩
    intro a ha
    obtain ⟨i, -, rfl⟩ := List.mem_map.1 ha
    exact hlater
  rw [filter_eq_self.2 hholds, page, hsorted.insertionSort_eq, flood]
  exact take_left' (by rw [length_map, length_range])

/-- The probes come too late to be counted, so the window of nine paths has no assessment. -/
theorem flood_hides_scan :
    (recordOf probe).resource = some "ip-pseudonym:5c1f" ∧ probe ∈ flood ∧
      ¬ ScanKept buildEnv (storeOf flood) probe [] probe "ip-pseudonym:5c1f" 0 := by
  have hresource : (recordOf probe).resource = some "ip-pseudonym:5c1f" := by decide
  refine ⟨hresource, mem_append_right _ mem_cons_self, ?_⟩
  -- one path is counted
  have hfew : counted flood (scanWindow probe "ip-pseudonym:5c1f" 0) < httpScan.threshold := by
    have hpath : ∀ i, fieldText (notFound i 0 "/").payload httpScan.field = some "/" := fun _ => rfl
    have hvalues : distinctValues (listEventsForBucketWithField flood
        (scanWindow probe "ip-pseudonym:5c1f" 0) httpScan.field) = ["/"] := by
      unfold distinctValues listEventsForBucketWithField
      rw [show ((flood.filter (scanWindow probe "ip-pseudonym:5c1f" 0).holds).insertionSort
        Earlier).take 1000 = _ from page_flood, List.map_map, filterMap_map]
      simp only [Function.comp_def, hpath]
      rw [filterMap_eq_map', map_const', length_range]
      exact replicate_dedup (by decide)
    unfold counted
    rw [hvalues]
    decide
  have hnone := (evaluateScanRule_spec buildEnv (storeOf flood) hresource
    (show (0 : Int) ∈ gridOffsets httpScan.windowSeconds by decide)).1 hfew
  rw [rowsAt_storeOf] at hnone
  rintro ⟨hfound, -⟩
  rw [hnone] at hfound
  refine Set.not_nonempty_empty (hfound ?_)
  -- nine are there
  have hsub : (↑probedPaths.toFinset : Set String) ⊆
      heldPaths flood (scanWindow probe "ip-pseudonym:5c1f" 0) := by
    intro path hpath
    obtain ⟨e, he, htext⟩ := probes_held.2 path (List.mem_toFinset.1 hpath)
    exact ⟨e, mem_filter.2 ⟨mem_append_right _ he, probes_held.1 e he⟩, htext⟩
  calc httpScan.threshold = (↑probedPaths.toFinset : Set String).ncard := by
        rw [Set.ncard_coe_finset]
        decide
    _ ≤ (heldPaths flood (scanWindow probe "ip-pseudonym:5c1f" 0)).ncard :=
        Set.ncard_le_ncard hsub (finite_heldPaths _ _)

end Clawforge.SecurityEngine

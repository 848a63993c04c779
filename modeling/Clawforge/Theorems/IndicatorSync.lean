import Clawforge.Kit.Fallible
import Clawforge.Storage.Indicators

/-!
# What a provider synchronisation reports

`consume` reports an indicator that differs from the stored one, but `sync_provider`
has stored the whole feed by then: every indicator is found as it was just written, and
no synchronisation ever reports any (`syncProvider_events`). What it should report is
therefore reported exactly if it is nothing (`sync_reports_iff`).
-/

namespace Clawforge.Intelligence

open Kit List

/-! ## The indicators of one feed -/

/-- An indicator carries the provider's id and confidence. -/
structure OfProvider (p : HttpFeedProvider) (i : Indicator) : Prop where
  categories : i.categories = [p.id]
  confidence : i.confidence = p.confidence

theorem ofProvider_makeIndicator (p : HttpFeedProvider) (value : String) (t : IndicatorType)
    (seen : Instant) (contentType : Option String) :
    OfProvider p (makeIndicator p value t seen contentType) := ⟨rfl, rfl⟩

variable {env : Env} {feed : RawFeed} {p : HttpFeedProvider} {is : List Indicator}

theorem ofProvider_lineIndicator {line : List Char} {i : Indicator}
    (h : lineIndicator env p feed line = some i) : OfProvider p i := by
  unfold lineIndicator at h
  dsimp only at h
  obtain ⟨t, -, rfl⟩ := Option.map_eq_some_iff.1 h
  exact ofProvider_makeIndicator ..

theorem ofProvider_candidateIndicator {candidate : String × IndicatorType} {i : Indicator}
    (h : candidateIndicator p feed candidate = some i) : OfProvider p i := by
  unfold candidateIndicator at h
  dsimp only at h
  split at h
  · cases h
  · cases h
    exact ofProvider_makeIndicator ..

theorem normalizeText_eq_ok (h : normalizeText env p feed = .ok is) :
    ∃ text, decodeText env feed.body = .ok text ∧
      is = deduplicate ((Text.lines text.toList).filterMap (lineIndicator env p feed)) := by
  unfold normalizeText at h
  obtain ⟨text, htext, hrest⟩ := bind_ok h
  cases hrest
  exact ⟨text, htext, rfl⟩

theorem normalizeJson_eq_ok (h : normalizeJson env p feed = .ok is) :
    ∃ value, parseFeed env feed.body = .ok value ∧
      is = deduplicate (((jsonRows value).flatMap (rowCandidates env p)).filterMap
        (candidateIndicator p feed)) := by
  unfold normalizeJson at h
  obtain ⟨value, hvalue, hrest⟩ := bind_ok h
  cases hrest
  exact ⟨value, hvalue, rfl⟩

theorem normalizeAsnJsonLines_eq_ok (h : normalizeAsnJsonLines env p feed = .ok is) :
    ∃ asns : List Nat, is = deduplicate (asns.map (fun asn =>
      makeIndicator p ("AS" ++ toString asn) .asn feed.fetchedAt feed.contentType)) := by
  unfold normalizeAsnJsonLines at h
  obtain ⟨text, -, hrest⟩ := bind_ok h
  obtain ⟨asns, -, hlast⟩ := bind_ok hrest
  cases hlast
  exact ⟨asns, rfl⟩

theorem ofProvider_normalize (h : normalize env p feed = .ok is) : ∀ i ∈ is, OfProvider p i := by
  intro i hi
  unfold normalize at h
  split at h
  · obtain ⟨value, -, rfl⟩ := normalizeJson_eq_ok h
    obtain ⟨candidate, -, hc⟩ := mem_filterMap.1 (mem_deduplicate hi)
    exact ofProvider_candidateIndicator hc
  · obtain ⟨asns, rfl⟩ := normalizeAsnJsonLines_eq_ok h
    obtain ⟨asn, -, rfl⟩ := List.mem_map.1 (mem_deduplicate hi)
    exact ofProvider_makeIndicator ..
  · obtain ⟨text, -, rfl⟩ := normalizeText_eq_ok h
    obtain ⟨line, -, hl⟩ := mem_filterMap.1 (mem_deduplicate hi)
    exact ofProvider_lineIndicator hl

/-! ## Storing and consuming -/

/-- An indicator just stored does not differ. -/
theorem indicatorDiffers_upsert_self (s : Store) (i : Indicator) :
    indicatorDiffers (upsertIndicator s i).1 i = false := by
  rw [indicatorDiffers_eq_false]
  refine ⟨_, (get?_upsertIndicator s i i.key).trans (if_pos rfl), ?_⟩
  cases s.indicators.get? i.key with
  | none | some => exact ⟨rfl, rfl⟩

/-- Storing one indicator of a provider leaves another as unchanged as it was. -/
theorem indicatorDiffers_upsert {s : Store} {i j : Indicator} (hi : OfProvider p i)
    (hj : OfProvider p j) (h : indicatorDiffers s j = false) :
    indicatorDiffers (upsertIndicator s i).1 j = false := by
  by_cases hkey : j.key = i.key
  · obtain ⟨row, hrow, hcat, hconf⟩ :=
      indicatorDiffers_eq_false.1 (indicatorDiffers_upsert_self s i)
    refine indicatorDiffers_eq_false.2 ⟨row, hkey ▸ hrow, ?_, ?_⟩
    · rw [hcat, hi.categories, hj.categories]
    · rw [hconf, hi.confidence, hj.confidence]
  · obtain ⟨row, hrow, hsame⟩ := indicatorDiffers_eq_false.1 h
    refine indicatorDiffers_eq_false.2 ⟨row, ?_, hsame⟩
    rw [get?_upsertIndicator, if_neg hkey]
    exact hrow

theorem indicatorDiffers_upsertIndicators (his : ∀ i ∈ is, OfProvider p i) (s : Store)
    {j : Indicator} (hj : OfProvider p j) (h : j ∈ is ∨ indicatorDiffers s j = false) :
    indicatorDiffers (upsertIndicators s is) j = false := by
  induction is generalizing s with
  | nil => exact h.resolve_left not_mem_nil
  | cons i is ih =>
    have hi : OfProvider p i := his i mem_cons_self
    refine ih (fun k hk => his k (mem_cons_of_mem _ hk)) (upsertIndicator s i).1 ?_
    rcases h with hmem | hknown
    · rcases mem_cons.1 hmem with rfl | hmem
      · exact .inr (indicatorDiffers_upsert_self s j)
      · exact .inl hmem
    · exact .inr (indicatorDiffers_upsert hi hj hknown)

theorem indicators_consumeIndicator (s : Store) (i : Indicator) :
    (consumeIndicator s i).indicators = (upsertIndicator s i).1.indicators := by
  unfold consumeIndicator
  dsimp only
  split <;> rfl

theorem indicatorDiffers_consumeIndicator (s : Store) (i j : Indicator) :
    indicatorDiffers (consumeIndicator s i) j = indicatorDiffers (upsertIndicator s i).1 j := by
  unfold indicatorDiffers
  rw [indicators_consumeIndicator]

/-- Consuming what does not differ reports nothing, and nothing differs afterwards. -/
theorem consume_known {s : Store} (his : ∀ i ∈ is, OfProvider p i)
    (hknown : ∀ i ∈ is, indicatorDiffers s i = false) :
    (consume s is).events = s.events ∧
      ∀ j, OfProvider p j → indicatorDiffers s j = false →
        indicatorDiffers (consume s is) j = false := by
  induction is generalizing s with
  | nil => exact ⟨rfl, fun _ _ h => h⟩
  | cons i is ih =>
    have hi : OfProvider p i := his i mem_cons_self
    have hsame : indicatorDiffers s i = false := hknown i mem_cons_self
    have hevents : (consumeIndicator s i).events = s.events := by
      unfold consumeIndicator
      dsimp only
      rw [hsame]
      rfl
    have hkept : ∀ j, OfProvider p j → indicatorDiffers s j = false →
        indicatorDiffers (consumeIndicator s i) j = false := by
      intro j hj hd
      rw [indicatorDiffers_consumeIndicator]
      exact indicatorDiffers_upsert hi hj hd
    obtain ⟨hrest, hlast⟩ := ih (fun k hk => his k (mem_cons_of_mem _ hk))
      (fun k hk => hkept k (his k (mem_cons_of_mem _ hk))
        (hknown k (mem_cons_of_mem _ hk)))
    exact ⟨hrest.trans hevents, fun j hj hd => hlast j hj (hkept j hj hd)⟩

/-! ## One synchronisation -/

theorem syncProvider_eq_ok {fetched : Except ProviderError RawFeed} {s s' : Store} {n : Nat}
    (h : syncProvider env p fetched s = .ok (s', n)) :
    ∃ feed is, fetched = .ok feed ∧ normalize env p feed = .ok is ∧
      s' = consume (upsertIndicators s is) is := by
  unfold syncProvider at h
  obtain ⟨feed, hfeed, h⟩ := bind_ok h
  obtain ⟨-, -, h⟩ := bind_ok h
  obtain ⟨is, his, h⟩ := bind_ok h
  cases h
  exact ⟨feed, is, hfeed, his, rfl⟩

theorem events_upsertIndicators (is : List Indicator) (s : Store) :
    (upsertIndicators s is).events = s.events := by
  induction is generalizing s with
  | nil => rfl
  | cons i is ih => exact ih (upsertIndicator s i).1

/-- A synchronisation never reports an indicator. -/
theorem syncProvider_events {fetched : Except ProviderError RawFeed} {s s' : Store} {n : Nat}
    (h : syncProvider env p fetched s = .ok (s', n)) : s'.events = s.events := by
  obtain ⟨feed, is, -, his, rfl⟩ := syncProvider_eq_ok h
  have hof := ofProvider_normalize his
  have hknown : ∀ i ∈ is, indicatorDiffers (upsertIndicators s is) i = false :=
    fun i hi => indicatorDiffers_upsertIndicators hof s (hof i hi) (.inl hi)
  rw [(consume_known hof hknown).1, events_upsertIndicators]

/-- The indicators of a feed, as normalized. -/
def feedIndicators (env : Env) (p : HttpFeedProvider) (feed : RawFeed) : List Indicator :=
  match normalize env p feed with
  | .ok is => is
  | .error _ => []

/-- The events a synchronisation of the feed should add. -/
def expectedEvents (env : Env) (p : HttpFeedProvider) (feed : RawFeed) (s : Store) :
    List IntelligenceEvent :=
  ((feedIndicators env p feed).filter (indicatorDiffers s)).map newThreatIndicator

/-- A synchronisation that completes reports the new and changed indicators, and a second
one of the same body none, exactly if no indicator of the feed is new or changed. -/
theorem sync_reports_iff {env : Env} {p : HttpFeedProvider} {feed : RawFeed}
    {s s' : Store} {n : Nat} (h : syncProvider env p (.ok feed) s = .ok (s', n)) :
    (s'.events = s.events ++ expectedEvents env p feed s ∧
      ∀ feed' s'' n', feed'.body = feed.body →
        syncProvider env p (.ok feed') s' = .ok (s'', n') → s''.events = s'.events) ↔
      ∀ i ∈ feedIndicators env p feed, indicatorDiffers s i = false := by
  have hnone : expectedEvents env p feed s = [] ↔
      ∀ i ∈ feedIndicators env p feed, indicatorDiffers s i = false := by
    rw [expectedEvents, map_eq_nil_iff, filter_eq_nil_iff]
    simp only [Bool.not_eq_true]
  rw [syncProvider_events h, ← hnone]
  constructor
  · rintro ⟨hevents, -⟩
    exact append_cancel_left (hevents.symm.trans (append_nil _).symm)
  · intro hempty
    refine ⟨by rw [hempty, append_nil], ?_⟩
    intro feed' s'' n' _ hsecond
    exact (syncProvider_events hsecond).trans (syncProvider_events h)

/-! ## A feed of one network -/

/-- The readers of the standard notation; no JSON is read. -/
def textEnv : Env where
  fromSlice _ := .error ""
  fromStr _ := .error ""
  utf8Error _ := ""
  parseIpNet := Net.readIpNet

def spamhausDrop : HttpFeedProvider := ⟨"spamhaus_drop", 80, .text⟩

def feedOf (text : String) : RawFeed := ⟨text.toUTF8, none, 0⟩

def emptyStore : Store := ⟨1, Table.empty _, [], []⟩

/-- The synchronisation of the feed completes, with one indicator, and adds no event. -/
theorem sync_one_network : (syncProvider textEnv spamhausDrop (.ok (feedOf "1.2.0.0/16 ; x"))
    emptyStore).map (fun r => (r.2, r.1.events)) = .ok (1, []) := by
  decide +kernel

theorem exists_sync_one_network : ∃ s', syncProvider textEnv spamhausDrop
    (.ok (feedOf "1.2.0.0/16 ; x")) emptyStore = .ok (s', 1) ∧ s'.events = [] := by
  obtain ⟨⟨s', n⟩, hs, hpair⟩ := except_map_ok sync_one_network
  obtain ⟨rfl, hevents⟩ := Prod.mk.inj hpair
  exact ⟨s', hs, hevents⟩

/-- The first synchronisation of a feed of one network. -/
theorem sync_reports_iff_one_network : ∃ s', syncProvider textEnv spamhausDrop
      (.ok (feedOf "1.2.0.0/16 ; x")) emptyStore = .ok (s', 1) ∧
    ((s'.events = emptyStore.events ++
        expectedEvents textEnv spamhausDrop (feedOf "1.2.0.0/16 ; x") emptyStore ∧
      ∀ feed' s'' n', feed'.body = (feedOf "1.2.0.0/16 ; x").body →
        syncProvider textEnv spamhausDrop (.ok feed') s' = .ok (s'', n') →
        s''.events = s'.events) ↔
      ∀ i ∈ feedIndicators textEnv spamhausDrop (feedOf "1.2.0.0/16 ; x"),
        indicatorDiffers emptyStore i = false) := by
  obtain ⟨s', hs, -⟩ := exists_sync_one_network
  exact ⟨s', hs, sync_reports_iff hs⟩

/-- The network is new, its event is not recorded. -/
theorem new_network_not_reported : ∃ s', syncProvider textEnv spamhausDrop
      (.ok (feedOf "1.2.0.0/16 ; x")) emptyStore = .ok (s', 1) ∧
    s'.events ≠ emptyStore.events ++
      expectedEvents textEnv spamhausDrop (feedOf "1.2.0.0/16 ; x") emptyStore := by
  obtain ⟨s', hs, hnone⟩ := exists_sync_one_network
  refine ⟨s', hs, ?_⟩
  rw [hnone]
  have hexpected : (emptyStore.events ++ expectedEvents textEnv spamhausDrop
      (feedOf "1.2.0.0/16 ; x") emptyStore).length = 1 := by decide +kernel
  intro hempty
  rw [← hempty] at hexpected
  exact absurd hexpected (by decide)

end Clawforge.Intelligence

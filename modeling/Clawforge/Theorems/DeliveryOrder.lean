import Clawforge.Theorems.Findings

/-!
# Assessments and the order of delivery

A rule that yields to no other finds what the stored events as a whole show, in every
order. The hourly rule does not: it stays quiet only if the five-minute finding is already
stored, so which of the two comes first decides (`delivery_order_iff`). Neither does the
scan rule in a window of more events than it reads.
-/

namespace Clawforge.SecurityEngine

open EventDelivery Assessments Kit List

/-- The five-minute rule, the hourly rule that yields to it, and the scan rule. -/
def fastRule : Rule := .count sshBruteforce

def slowRule : Rule := .count sshBruteforceSlow

def scanRule : Rule := .distinct httpScan

/-- A window of the rule that contains an event of the source. -/
def IsWindow (rule : Rule) (es : List Event) (c : String) (b : Bucket) : Prop :=
  ∃ e ∈ es, e.eventType = rule.eventType ∧ (recordOf e).resource = some c ∧
    ∃ offset ∈ gridOffsets rule.windowSeconds, b = windowOf (recordOf e) c (rule, offset)

def Overlap (b b' : Bucket) : Prop := b'.start < b.stop ∧ b.start < b'.stop

/-- No order of the events can make the hourly rule fire before the five-minute rule has
found an overlapping window and after it: where the hour reaches its threshold, either no
five-minute window that overlaps it does, or no part of the events reaches the hour's
threshold without a five-minute window of each of its events in the hour. And a scan
window that some of the events qualify is qualified by all of them, however they arrived. -/
structure OrderFree (es : List Event) : Prop where
  slow : ∀ c b, IsWindow slowRule es c b → slowRule.Qualifies es b →
    (∀ b', IsWindow fastRule es c b' → fastRule.Qualifies es b' → ¬ Overlap b b') ∨
      (∀ S : List Event, S.Subperm es → slowRule.Qualifies S b → ∀ x ∈ S, b.holds x = true →
        ∃ offset ∈ gridOffsets fastRule.windowSeconds,
          fastRule.Qualifies S (windowOf (recordOf x) c (fastRule, offset)))
  scan : ∀ c b, IsWindow scanRule es c b → ∀ S : List Event, S.Subperm es →
    scanRule.Qualifies S b → ∀ L : List Event, L.Perm es → scanRule.Qualifies L b

/-! ## Windows -/

variable {r : CountThresholdRule} {b : Bucket} {es : List Event} {rule : Rule} {c : String}
  {S : List Event} {offset : Int}

theorem count_mem_rules (h : Rule.count r ∈ allRules) : r ∈ rules := by
  rcases mem_append.1 h with h | h
  · obtain ⟨x, hx, he⟩ := List.mem_map.1 h
    cases he
    exact hx
  · obtain ⟨x, -, he⟩ := List.mem_map.1 h
    cases he

theorem distinct_eq_httpScan {r : DistinctValueThresholdRule} (h : Rule.distinct r ∈ allRules) :
    r = httpScan := by
  rcases mem_append.1 h with h | h
  · obtain ⟨x, -, he⟩ := List.mem_map.1 h
    cases he
  · obtain ⟨x, hx, he⟩ := List.mem_map.1 h
    cases he
    exact mem_singleton.1 hx

/-- A count rule counts the stored members: it reads at least its threshold of them. -/
theorem qualifies_count (hr : Rule.count r ∈ allRules) {events : List Event} :
    (Rule.count r).Qualifies events b ↔ r.threshold ≤ events.countP b.holds := by
  have hreads : ∀ r ∈ rules, r.threshold ≤ min (max r.maxMembers 1) 1000 := by decide
  have hr' := hreads r (count_mem_rules hr)
  show r.threshold ≤ (listEventsForBucketLimited events b r.maxMembers).length ↔ _
  unfold listEventsForBucketLimited
  rw [length_take, length_insertionSort, ← countP_eq_length_filter]
  omega

theorem qualifies_count_mono (hr : Rule.count r ∈ allRules) (hS : S.Subperm es)
    (h : (Rule.count r).Qualifies S b) : (Rule.count r).Qualifies es b := by
  rw [qualifies_count hr] at h ⊢
  exact h.trans (hS.countP_le _)

theorem mem_of_qualifies (hrule : rule ∈ allRules) (h : rule.Qualifies S b) :
    ∃ x ∈ S, b.holds x = true := by
  cases rule with
  | count r =>
    have hpos : ∀ r ∈ rules, 0 < r.threshold := by decide
    rw [qualifies_count hrule] at h
    exact countP_pos_iff.1 (Nat.lt_of_lt_of_le (hpos r (count_mem_rules hrule)) h)
  | distinct r =>
    rw [distinct_eq_httpScan hrule] at h
    have hlen : 8 ≤ (distinctValues (listEventsForBucketWithField S b "path")).length := h
    cases hmembers : listEventsForBucketWithField S b "path" with
    | nil =>
      rw [hmembers] at hlen
      exact absurd hlen (by decide)
    | cons m rest =>
      have hm : m ∈ listEventsForBucketWithField S b "path" := by
        rw [hmembers]
        exact mem_cons_self
      obtain ⟨x, hx, -⟩ := List.mem_map.1 hm
      have hx' := mem_of_mem_take hx
      rw [mem_insertionSort, mem_filter] at hx'
      exact ⟨x, hx'⟩

/-- The scan rule reads only the members of the window. -/
theorem qualifies_scan_of_filter {L L' : List Event} (h : L.filter b.holds = L'.filter b.holds) :
    scanRule.Qualifies L b ↔ scanRule.Qualifies L' b := by
  show _ ≤ (distinctValues (listEventsForBucketWithField L b _)).length ↔
    _ ≤ (distinctValues (listEventsForBucketWithField L' b _)).length
  unfold listEventsForBucketWithField
  rw [h]

theorem windowSeconds_pos (h : rule ∈ allRules) : 0 < rule.windowSeconds := by
  have hall : ∀ rule ∈ allRules, 0 < rule.windowSeconds := by decide
  exact hall rule h

theorem start_windowOf_eq (event : EventRecord) (c : String) (spot : Rule × Int) :
    (windowOf event c spot).start =
      bucketStart event.occurredAt spot.1.windowSeconds spot.2 := by
  obtain ⟨rule, offset⟩ := spot
  cases rule with
  | count r => rfl
  | distinct r => rfl

theorem cast_seconds (w : Nat) : ((seconds w : Nat) : Int) = w * 1000000 := by
  unfold seconds
  push_cast
  rfl

/-- Two instants are in the same window of a grid if the one is in the window of the other. -/
theorem bucketStart_eq {w : Nat} (hw : 0 < w) {a x : Instant}
    (hlow : bucketStart a w offset ≤ (x : Int))
    (hhigh : (x : Int) < bucketStart a w offset + seconds w) :
    bucketStart x w offset = bucketStart a w offset := by
  have hw' : (0 : Int) < w := by exact_mod_cast hw
  unfold bucketStart at *
  generalize (timestamp a - offset) / (w : Int) = q at *
  rw [cast_seconds] at hhigh
  unfold atSecond timestamp at *
  have hlow' : q * w + offset ≤ (x : Int) / 1000000 := by omega
  have hhigh' : (x : Int) / 1000000 < q * w + offset + w := by omega
  have hq : ((x : Int) / 1000000 - offset) / w = q := by
    apply le_antisymm
    · have hlt : ((x : Int) / 1000000 - offset) / w < q + 1 := by
        rw [Int.ediv_lt_iff_lt_mul hw']
        have hmul : (q + 1) * (w : Int) = q * w + w := by rw [Int.add_mul, Int.one_mul]
        omega
      omega
    · rw [Int.le_ediv_iff_mul_le hw']
      omega
  rw [hq]

theorem bucketStart_le (a : Instant) {w : Nat} (hw : 0 < w) (offset : Int) :
    bucketStart a w offset ≤ (a : Int) ∧ (a : Int) < bucketStart a w offset + seconds w := by
  have hw' : (0 : Int) < w := by exact_mod_cast hw
  have hfloor := Int.ediv_mul_le (timestamp a - offset) hw'.ne'
  have hceil := Int.lt_ediv_add_one_mul_self (timestamp a - offset) hw'
  have hsucc : ((timestamp a - offset) / (w : Int) + 1) * w =
      (timestamp a - offset) / (w : Int) * w + w := by rw [Int.add_mul, Int.one_mul]
  rw [cast_seconds]
  unfold bucketStart atSecond
  rw [hsucc] at hceil
  unfold timestamp at *
  constructor <;> omega

theorem resource_eq_some {e : Event} :
    (recordOf e).resource = some c ↔ e.correlationId = some c ∧ Text.trim c.toList ≠ [] := by
  unfold EventRecord.resource recordOf
  rw [Option.filter_eq_some_iff]
  simp

/-- A member of a window is of the source, and the window is its own on the same grid. -/
theorem windowOf_of_holds (hrule : rule ∈ allRules) {e x : Event}
    (hresource : (recordOf e).resource = some c)
    (hx : (windowOf (recordOf e) c (rule, offset)).holds x = true) :
    x.eventType = rule.eventType ∧ (recordOf x).resource = some c ∧
      windowOf (recordOf x) c (rule, offset) = windowOf (recordOf e) c (rule, offset) := by
  have hnonblank := (resource_eq_some.1 hresource).2
  have hstop := stop_windowOf (recordOf e) c (rule, offset)
  have hstart := start_windowOf_eq (recordOf e) c (rule, offset)
  unfold Bucket.holds at hx
  simp only [Bool.and_eq_true, decide_eq_true_eq] at hx
  obtain ⟨⟨⟨⟨htype, hcorr⟩, hlow⟩, hhigh⟩, -⟩ := hx
  rw [hstop, hstart] at hhigh
  rw [hstart] at hlow
  have hsame : bucketStart (recordOf x).occurredAt rule.windowSeconds offset =
      bucketStart (recordOf e).occurredAt rule.windowSeconds offset :=
    bucketStart_eq (windowSeconds_pos hrule) hlow hhigh
  cases rule with
  | count | distinct =>
    refine ⟨htype, resource_eq_some.2 ⟨hcorr, hnonblank⟩, ?_⟩
    unfold windowOf
    rw [hsame]

/-- An event is a member of its own windows, if the rule counts every status. -/
theorem holds_windowOf (hr : Rule.count r ∈ allRules) (hstatus : r.status = .any) {x : Event}
    (htype : x.eventType = r.eventType) (hresource : (recordOf x).resource = some c) (offset : Int) :
    (windowOf (recordOf x) c (Rule.count r, offset)).holds x = true := by
  obtain ⟨hlow, hhigh⟩ := bucketStart_le x.occurredAt (windowSeconds_pos hr) offset
  unfold Bucket.holds
  simp only [Bool.and_eq_true, decide_eq_true_eq]
  refine ⟨⟨⟨⟨htype, (resource_eq_some.1 hresource).1⟩, hlow⟩, hhigh⟩, ?_⟩
  show EventStatusFilter.predicate r.status x.payload = true
  rw [hstatus]
  rfl

/-! ## Discovery -/

section Discovery

variable {env : Env} {before after : List (Turn Event)} {t : Turn Event} {c : String}

/-- The turn of a member of a window discovers the window's finding, if what is stored
qualifies it and nothing found before blocks it. -/
theorem discoveredAt_of (hrule : rule ∈ allRules) {offset : Int}
    (hoffset : offset ∈ gridOffsets rule.windowSeconds) (htype : t.item.eventType = rule.eventType)
    (hresource : (recordOf t.item).resource = some c)
    (hqualifies : rule.Qualifies (storedBy (before ++ [t]))
      (windowOf (recordOf t.item) c (rule, offset)))
    (hfree : ∀ pre post, spots rule.eventType = pre ++ (rule, offset) :: post →
      ¬ Blocked (pre.foldl (discover (storedBy (before ++ [t])) (recordOf t.item) c)
        (findings (run env before))) rule (windowOf (recordOf t.item) c (rule, offset))) :
    DiscoveredAt env before t (rule.finding (windowOf (recordOf t.item) c (rule, offset))) := by
  obtain ⟨pre, post, hsplit⟩ := append_of_mem (mem_spots hrule hoffset)
  exact ⟨c, hresource, pre, (rule, offset), post, htype ▸ hsplit, rfl, hqualifies,
    hfree pre post hsplit⟩

/-- What is found while a delivery is processed was qualified by what is stored. -/
theorem qualified_of_mem {turns : List (Turn Event)} (horder : IsOrder es turns)
    (hsplit : turns = before ++ t :: after) (hresource : (recordOf t.item).resource = some c)
    {pre post : List (Rule × Int)} (hspots : spots t.item.eventType = pre ++ post) {k : Finding}
    (hk : k ∈ pre.foldl (discover (storedBy (before ++ [t])) (recordOf t.item) c)
      (findings (run env before))) :
    ∃ rule ∈ allRules, ∃ c' b S, IsWindow rule es c' b ∧ k = rule.finding b ∧
      S.Subperm es ∧ rule.Qualifies S b := by
  rcases mem_foldl_discover.1 hk with hk | ⟨pre', spot, post', rfl, rfl, hq, -⟩
  · obtain ⟨before', u, after', rfl, c', hc', pre', spot, post', hspots', rfl, hq, -⟩ :=
      mem_findings_run.1 hk
    have hsplit' : turns = before' ++ u :: (after' ++ t :: after) := by
      rw [hsplit]
      simp
    have hmem : spot ∈ spots u.item.eventType := by
      rw [hspots']
      exact mem_append_right _ mem_cons_self
    obtain ⟨hrule, htype, hoffset⟩ := mem_allRules_of_mem_spots hmem
    exact ⟨spot.1, hrule, c', _, _, ⟨u.item, horder.mem_items hsplit', htype.symm, hc', spot.2,
      hoffset, rfl⟩, rfl, horder.subperm hsplit', hq⟩
  · have hmem : spot ∈ spots t.item.eventType := by
      rw [hspots]
      simp
    obtain ⟨hrule, htype, hoffset⟩ := mem_allRules_of_mem_spots hmem
    exact ⟨spot.1, hrule, c, _, _, ⟨t.item, horder.mem_items hsplit, htype.symm, hresource,
      spot.2, hoffset, rfl⟩, rfl, horder.subperm hsplit, hq⟩

end Discovery

theorem eq_of_ruleId {r r' : Rule} (hr : r ∈ allRules) (hr' : r' ∈ allRules)
    (h : r.ruleId = r'.ruleId) : r = r' := by
  have hunique : ∀ x ∈ allRules, ∀ y ∈ allRules, x.ruleId = y.ruleId → x = y := by decide
  exact hunique r hr r' hr' h

/-- Only the hourly rule yields, and to the five-minute rule. -/
theorem yieldsTo_iff {other : Rule} (hrule : rule ∈ allRules) (hother : other ∈ allRules) :
    rule.yieldsTo = some other.ruleId ↔ rule = slowRule ∧ other = fastRule := by
  have hall : ∀ x ∈ allRules, ∀ y ∈ allRules,
      (x.yieldsTo = some y.ruleId ↔ x = slowRule ∧ y = fastRule) := by decide
  exact hall rule hrule other hother

theorem slow_mem : slowRule ∈ allRules := by decide

theorem fast_mem : fastRule ∈ allRules := by decide

theorem scan_mem : scanRule ∈ allRules := by decide

/-- The five-minute rule is evaluated before the hourly one. -/
theorem fast_before_slow {fastOffset : Int} {pre post : List (Rule × Int)}
    (hoffset : fastOffset ∈ gridOffsets fastRule.windowSeconds)
    (h : spots slowRule.eventType = pre ++ (slowRule, offset) :: post) :
    (fastRule, fastOffset) ∈ pre := by
  have hspots : spots slowRule.eventType =
      [(fastRule, 0), (fastRule, 150), (slowRule, 0), (slowRule, 1800)] := by decide
  have hne : ∀ o o' : Int, (slowRule, o) ≠ (fastRule, o') := by
    intro o o' heq
    exact absurd (Prod.mk.inj heq).1 (by decide)
  rw [hspots] at h
  have hfast : fastOffset = 0 ∨ fastOffset = 150 := by
    simpa [gridOffsets, fastRule, Rule.windowSeconds, sshBruteforce] using hoffset
  match pre, h with
  | [], h => exact absurd (cons.inj h).1.symm (hne _ _)
  | [p], h => exact absurd (cons.inj (cons.inj h).2).1.symm (hne _ _)
  | p :: q :: pre, h =>
    obtain ⟨hp, hrest⟩ := cons.inj h
    obtain ⟨hq, -⟩ := cons.inj hrest
    rcases hfast with rfl | rfl
    · simp [← hp]
    · simp [← hq]

@[simp] theorem correlationId_windowOf (event : EventRecord) (c : String) (spot : Rule × Int) :
    (windowOf event c spot).correlationId = c := by
  obtain ⟨rule, offset⟩ := spot
  cases rule with
  | count r => rfl
  | distinct r => rfl

/-- A rule that is not the hourly one is never blocked. -/
theorem not_blocked (hrule : rule ∈ allRules) (hslow : rule ≠ slowRule) (F : Set Finding)
    (b : Bucket) : ¬ Blocked F rule b := by
  rintro ⟨other, hother, hyields, -⟩
  exact hslow ((yieldsTo_iff hrule hother).1 hyields).1

/-- The hourly rule is blocked by the finding of a five-minute window that overlaps. -/
theorem blocked_slow_iff {F : Set Finding} :
    Blocked F slowRule b ↔ ∃ k ∈ F, k.ruleId = fastRule.ruleId ∧
      k.resource = b.correlationId ∧ k.bucketStart < b.stop ∧
        b.start < k.bucketStart + seconds fastRule.windowSeconds := by
  constructor
  · rintro ⟨other, hother, hyields, h⟩
    obtain ⟨-, rfl⟩ := (yieldsTo_iff slow_mem hother).1 hyields
    exact h
  · exact fun h => ⟨fastRule, fast_mem, (yieldsTo_iff slow_mem fast_mem).2 ⟨rfl, rfl⟩, h⟩

theorem stop_of_isWindow (h : IsWindow rule es c b) :
    b.correlationId = c ∧ b.stop = b.start + seconds rule.windowSeconds := by
  obtain ⟨e, -, -, -, offset, -, rfl⟩ := h
  exact ⟨correlationId_windowOf _ _ _, stop_windowOf _ _ _⟩

/-- At its last turn, a window has all its members stored. -/
theorem qualifies_settled (hrule : rule ∈ allRules) (hes : OrderFree es)
    {turns before after : List (Turn Event)} {t : Turn Event} (horder : IsOrder es turns)
    (hsplit : turns = before ++ t :: after) (hwindow : IsWindow rule es c b)
    (hlast : (storedBy after).filter b.holds = []) (hS : S.Subperm es) (hq : rule.Qualifies S b) :
    rule.Qualifies (storedBy (before ++ [t])) b := by
  have hfilter : (storedBy turns).filter b.holds =
      (storedBy (before ++ [t])).filter b.holds := by
    have hall : storedBy turns = storedBy (before ++ [t]) ++ storedBy after := by
      rw [hsplit]
      simp
    rw [hall, filter_append, hlast, append_nil]
  cases rule with
  | count r =>
    have hall := (qualifies_count hrule).1 (qualifies_count_mono hrule hS hq)
    rw [qualifies_count hrule, countP_eq_length_filter, ← hfilter,
      ← countP_eq_length_filter, horder.stored.countP_eq]
    exact hall
  | distinct r =>
    rw [distinct_eq_httpScan hrule] at hq hwindow ⊢
    exact (qualifies_scan_of_filter hfilter).1
      (hes.scan c b hwindow S hS hq _ horder.stored)

/-- What one order finds, every other order finds. -/
theorem findings_subset {env : Env} (hnodup : es.Nodup) (hes : OrderFree es)
    {turns turns' : List (Turn Event)} (horder : IsOrder es turns) (horder' : IsOrder es turns') :
    findings (run env turns) ⊆ findings (run env turns') := by
  intro k hk
  obtain ⟨before, t, after, hsplit, c, hresource, pre, spot, post, hspots, rfl, hq, hfree⟩ :=
    mem_findings_run.1 hk
  have hmem : spot ∈ spots t.item.eventType := by
    rw [hspots]
    exact mem_append_right _ mem_cons_self
  obtain ⟨hrule, htype, hoffset⟩ := mem_allRules_of_mem_spots hmem
  obtain ⟨rule, offset⟩ := spot
  dsimp only at hrule htype hoffset hq hfree
  have hS := horder.subperm hsplit
  have hwindow : IsWindow rule es c (windowOf (recordOf t.item) c (rule, offset)) :=
    ⟨t.item, horder.mem_items hsplit, htype.symm, hresource, offset, hoffset, rfl⟩
  obtain ⟨x, hx, hholds⟩ := mem_of_qualifies hrule hq
  obtain ⟨before', u, after', hsplit', hu, hlast⟩ :=
    horder'.settled hnodup ⟨x, hS.subset hx, hholds⟩
  obtain ⟨htype', hresource', hsame⟩ := windowOf_of_holds hrule hresource hu
  have hq' := qualifies_settled hrule hes horder' hsplit' hwindow hlast hS hq
  rw [← hsame] at hq'
  refine mem_findings_run.2 ⟨before', u, after', hsplit', ?_⟩
  rw [← hsame]
  refine discoveredAt_of hrule hoffset htype' hresource' hq' ?_
  intro pre' post' hspots'
  by_cases hslow : rule = slowRule
  · subst hslow
    rcases hes.slow c _ hwindow (qualifies_count_mono slow_mem hS hq) with hclear | hbusy
    · -- no five-minute window that overlaps reaches its threshold, in any order
      intro hblocked
      obtain ⟨k, hk, hid, hkc, hbefore, hafter⟩ := blocked_slow_iff.1 hblocked
      rw [← htype'] at hspots'
      obtain ⟨other, hother, c', b', S', hwindow', rfl, hS', hq''⟩ :=
        qualified_of_mem horder' hsplit' hresource' hspots' hk
      have hfast : other = fastRule := eq_of_ruleId hother fast_mem hid
      subst hfast
      obtain ⟨hc', hstop'⟩ := stop_of_isWindow hwindow'
      have hcc : c' = c := by
        rw [correlationId_windowOf] at hkc
        exact hc'.symm.trans hkc
      subst hcc
      refine hclear b' hwindow' (qualifies_count_mono fast_mem hS' hq'') ?_
      rw [hsame] at hbefore hafter
      exact ⟨hbefore, hstop' ▸ hafter⟩
    · -- the five-minute window of the event itself was found in the same delivery
      have hholdsItem : (windowOf (recordOf t.item) c (slowRule, offset)).holds t.item = true :=
        holds_windowOf slow_mem rfl htype.symm hresource offset
      have hstored : t.item ∈ storedBy (before ++ [t]) := horder.known before t after hsplit
      obtain ⟨fastOffset, hfastOffset, hfastq⟩ := hbusy _ hS hq _ hstored hholdsItem
      rw [← htype] at hspots
      obtain ⟨pre₁, pre₂, hpre⟩ := append_of_mem (fast_before_slow hfastOffset hspots)
      refine absurd (blocked_slow_iff.2 ⟨_, mem_foldl_discover.2 (Or.inr ⟨pre₁,
        (fastRule, fastOffset), pre₂, hpre, rfl, hfastq,
        not_blocked fast_mem (by decide) _ _⟩), rfl, ?_, ?_, ?_⟩) hfree
      · rw [correlationId_windowOf]
        exact correlationId_windowOf _ _ _
      · have hfastLow := (bucketStart_le t.item.occurredAt (windowSeconds_pos fast_mem)
          fastOffset).1
        have hslowHigh := (bucketStart_le t.item.occurredAt (windowSeconds_pos slow_mem) offset).2
        rw [stop_windowOf, start_windowOf_eq]
        exact lt_of_le_of_lt hfastLow hslowHigh
      · have hfastHigh := (bucketStart_le t.item.occurredAt (windowSeconds_pos fast_mem)
          fastOffset).2
        have hslowLow := (bucketStart_le t.item.occurredAt (windowSeconds_pos slow_mem) offset).1
        rw [start_windowOf_eq]
        exact lt_of_le_of_lt hslowLow hfastHigh
  · exact not_blocked hrule hslow _ _

/-! ## Two orders that differ -/

theorem not_mem_findings_nil {env : Env} {k : Finding} : k ∉ findings (run env []) := by
  rintro ⟨row, hrow, -⟩
  exact absurd hrow Table.not_mem_empty

/-- The windows of one rule with one finding are the same stretch of time. -/
theorem window_of_finding_eq {spot : Rule × Int} (hrule : rule ∈ allRules)
    (hspot : spot.1 ∈ allRules) {event : EventRecord} {c' : String} (hb : IsWindow rule es c b)
    (h : rule.finding b = spot.1.finding (windowOf event c' spot)) :
    spot.1 = rule ∧ c' = c ∧ windowOf event c' spot = b := by
  have hid := congrArg Finding.ruleId h
  have hresource := congrArg Finding.resource h
  have hstart := congrArg Finding.bucketStart h
  obtain ⟨e, -, -, -, offset, -, rfl⟩ := hb
  obtain ⟨other, offset'⟩ := spot
  have hsame : other = rule := eq_of_ruleId hspot hrule hid.symm
  subst hsame
  have hc : c' = c := by
    have hc' : (windowOf (recordOf e) c (other, offset)).correlationId =
        (windowOf event c' (other, offset')).correlationId := hresource
    rw [correlationId_windowOf, correlationId_windowOf] at hc'
    exact hc'.symm
  subst hc
  refine ⟨rfl, rfl, ?_⟩
  have hstart' : (windowOf (recordOf e) c' (other, offset)).start =
      (windowOf event c' (other, offset')).start := hstart
  rw [start_windowOf_eq, start_windowOf_eq] at hstart'
  unfold windowOf
  dsimp only at hstart' ⊢
  rw [hstart']

section Agree

variable {env : Env} {es : List Event}

/-- A part of the events that qualifies a window finds it, where it is stored first and
nothing found in the same delivery blocks it. -/
theorem found_first (hrule : rule ∈ allRules) (hb : IsWindow rule es c b) {S : List Event}
    (hq : rule.Qualifies S b) {x : Event} (hx : b.holds x = true) {rest : List (Turn Event)}
    (hfree : ∀ pre post, ∀ offset, spots rule.eventType = pre ++ (rule, offset) :: post →
      ¬ Blocked (pre.foldl (discover S (recordOf x) c) (findings (run env []))) rule b) :
    rule.finding b ∈ findings (run env (⟨S, x⟩ :: rest)) := by
  obtain ⟨e, -, -, hresource, offset, hoffset, rfl⟩ := hb
  obtain ⟨htype, hresource', hsame⟩ := windowOf_of_holds hrule hresource hx
  refine mem_findings_run.2 ⟨[], ⟨S, x⟩, rest, rfl, ?_⟩
  have hstored : storedBy ([] ++ [(⟨S, x⟩ : Turn Event)]) = S := by simp
  rw [← hsame] at hq hfree ⊢
  refine discoveredAt_of hrule hoffset htype hresource' ?_ ?_
  · rw [hstored]
    exact hq
  · rw [hstored]
    exact fun pre post hsplit => hfree pre post offset hsplit

/-- Where all orders agree, the hourly rule is not disputed. -/
theorem slow_of_agree
    (hagree : ∀ o o', IsOrder es o → IsOrder es o' → findings (run env o) = findings (run env o'))
    (hb : IsWindow slowRule es c b) :
    (∀ b', IsWindow fastRule es c b' → fastRule.Qualifies es b' → ¬ Overlap b b') ∨
      (∀ S : List Event, S.Subperm es → slowRule.Qualifies S b → ∀ x ∈ S, b.holds x = true →
        ∃ offset ∈ gridOffsets fastRule.windowSeconds,
          fastRule.Qualifies S (windowOf (recordOf x) c (fastRule, offset))) := by
  by_contra hnot
  obtain ⟨hfast, hslow⟩ := not_or.1 hnot
  push Not at hfast hslow
  obtain ⟨b', hb', hfastq, hoverlap⟩ := hfast
  obtain ⟨S, hS, hq, x, hx, hholds, hquiet⟩ := hslow
  obtain ⟨hbc, hbstop⟩ := stop_of_isWindow hb
  obtain ⟨hbc', hbstop'⟩ := stop_of_isWindow hb'
  -- the part stored first, the hourly rule fires
  obtain ⟨rest, horder⟩ := exists_someFirst hS hx
  have hfound : slowRule.finding b ∈ findings (run env (⟨S, x⟩ :: rest)) := by
    refine found_first slow_mem hb hq hholds ?_
    intro pre post offset hspots hblocked
    obtain ⟨k, hk, hid, -⟩ := blocked_slow_iff.1 hblocked
    rcases mem_foldl_discover.1 hk with hk | ⟨pre₁, spot, pre₂, rfl, rfl, hspotq, -⟩
    · exact not_mem_findings_nil hk
    · have hmem : spot ∈ spots slowRule.eventType := by
        rw [hspots]
        simp
      obtain ⟨hrule, -, hoffset⟩ := mem_allRules_of_mem_spots hmem
      obtain ⟨other, fastOffset⟩ := spot
      have hother : other = fastRule := eq_of_ruleId hrule fast_mem hid
      subst hother
      exact hquiet fastOffset hoffset hspotq
  -- all stored first and the five-minute window's event processed first, it never fires
  obtain ⟨f, hf, hftype, hfresource, fastOffset, hfastOffset, rfl⟩ := hb'
  have horder' := isOrder_allFirst (Perm.refl es) hf
  rw [hagree _ _ horder horder'] at hfound
  obtain ⟨before, t, after, hsplit, c', hresource, pre, spot, post, hspots, hfinding, hspotq,
    hfree⟩ := mem_findings_run.1 hfound
  have hmem : spot ∈ spots t.item.eventType := by
    rw [hspots]
    exact mem_append_right _ mem_cons_self
  obtain ⟨hrule, htype, hoffset⟩ := mem_allRules_of_mem_spots hmem
  obtain ⟨hsame, rfl, hwindow⟩ := window_of_finding_eq slow_mem hrule hb hfinding
  rw [hwindow, hsame] at hfree
  have hspots' : spots slowRule.eventType = pre ++ (slowRule, spot.2) :: post := by
    rw [← hsame, htype]
    exact hspots
  have hkf : fastRule.finding (windowOf (recordOf f) c' (fastRule, fastOffset)) ∈
      pre.foldl (discover (storedBy (before ++ [t])) (recordOf t.item) c')
        (findings (run env before)) := by
    rw [storedBy_allFirst hsplit]
    cases before with
    | nil =>
      cases hsplit
      obtain ⟨pre₁, pre₂, hpre⟩ := append_of_mem (fast_before_slow hfastOffset hspots')
      exact mem_foldl_discover.2 (Or.inr ⟨pre₁, (fastRule, fastOffset), pre₂, hpre, rfl, hfastq,
        not_blocked fast_mem (by decide) _ _⟩)
    | cons first before =>
      obtain ⟨rfl, -⟩ := cons.inj hsplit
      refine mem_foldl_discover.2 (Or.inl (found_first fast_mem
        ⟨f, hf, hftype, hfresource, fastOffset, hfastOffset, rfl⟩ hfastq ?_ ?_))
      · exact holds_windowOf fast_mem rfl hftype hfresource fastOffset
      · exact fun _ _ _ _ => not_blocked fast_mem (by decide) _ _
  refine hfree (blocked_slow_iff.2 ⟨_, hkf, rfl, ?_, hoverlap.1, ?_⟩)
  · exact hbc'.trans hbc.symm
  · have hafter := hoverlap.2
    rw [hbstop'] at hafter
    exact hafter

/-- Where all orders agree, the scan rule is not disputed. -/
theorem scan_of_agree
    (hagree : ∀ o o', IsOrder es o → IsOrder es o' → findings (run env o) = findings (run env o'))
    (hb : IsWindow scanRule es c b) {S : List Event} (hS : S.Subperm es)
    (hq : scanRule.Qualifies S b) {L : List Event} (hL : L.Perm es) : scanRule.Qualifies L b := by
  obtain ⟨x, hx, hholds⟩ := mem_of_qualifies scan_mem hq
  obtain ⟨rest, horder⟩ := exists_someFirst hS hx
  have hfound : scanRule.finding b ∈ findings (run env (⟨S, x⟩ :: rest)) :=
    found_first scan_mem hb hq hholds (fun _ _ _ _ => not_blocked scan_mem (by decide) _ _)
  have horder' := isOrder_allFirst hL (hL.symm.subset (hS.subset hx))
  rw [hagree _ _ horder horder'] at hfound
  obtain ⟨before, t, after, hsplit, c', -, pre, spot, post, hspots, hfinding, hspotq, -⟩ :=
    mem_findings_run.1 hfound
  have hmem : spot ∈ spots t.item.eventType := by
    rw [hspots]
    exact mem_append_right _ mem_cons_self
  obtain ⟨hsame, rfl, hwindow⟩ :=
    window_of_finding_eq scan_mem (mem_allRules_of_mem_spots hmem).1 hb hfinding
  rw [hwindow, hsame, storedBy_allFirst hsplit] at hspotq
  exact hspotq

end Agree

/-- Every two orders in which the engine processes some events find the same, exactly if the
events are free of such windows. -/
theorem delivery_order_iff (env : Env) (es : Table Event.eventId) :
    (∀ o o', IsOrder es.rows o → IsOrder es.rows o' →
        findings (run env o) = findings (run env o')) ↔ OrderFree es.rows := by
  have hnodup : es.rows.Nodup := Nodup.of_map _ es.unique
  constructor
  · exact fun h => ⟨fun c b hb _ => slow_of_agree h hb,
      fun c b hb S hS hq L hL => scan_of_agree h hb hS hq hL⟩
  · intro h o o' ho ho'
    exact Set.Subset.antisymm (findings_subset hnodup h ho ho') (findings_subset hnodup h ho' ho)

/-! ## A burst and a slow attack -/

instance (k : Finding) (s : AssessmentStore) : Decidable (k ∈ findings s) :=
  decidable_of_iff (∃ row ∈ s.assessments.rows, findingOf row = k) Iff.rfl

/-- A failed login `second` seconds into the year 2026. -/
def sshFailure (second : Nat) : Event where
  eventId := second
  eventType := "ssh_login_failure"
  source := "linux_sensor"
  severity := "low"
  occurredAt := seconds (1767225600 + second)
  correlationId := some "ip-pseudonym:5c1f"
  payload := Json.ofFields [("username", .string "root")]
  metadata := Json.ofFields []
  dedupeKey := "security-event:" ++ uuidText second
  createdAt := seconds (1767225600 + second)

/-- Five failures within five seconds, and then one every five minutes. -/
def burstThenSlow : Table Event.eventId where
  rows := [0, 1, 2, 3, 4, 600, 900, 1200, 1500, 1800, 2100, 2400, 2700, 3000, 3300].map sshFailure
  unique := by decide

/-- All the events are stored, and the one of that second is processed first. -/
def startingWith (second : Nat) : List (Turn Event) :=
  ⟨burstThenSlow.rows, sshFailure second⟩ ::
    (burstThenSlow.rows.erase (sshFailure second)).map (fun x => ⟨[], x⟩)

def plainEnv : Env where
  engineVersion := "1.0.0"
  threatIntelHit := fun _ => none

/-- The hourly assessment is stored if a slow failure is delivered first, and not if one of
the burst is. -/
theorem burst_order_decides :
    ¬ ∀ o o', IsOrder burstThenSlow.rows o → IsOrder burstThenSlow.rows o' →
      findings (run plainEnv o) = findings (run plainEnv o') := by
  intro h
  have horder : ∀ second, sshFailure second ∈ burstThenSlow.rows →
      IsOrder burstThenSlow.rows (startingWith second) :=
    fun second hmem => isOrder_allFirst (Perm.refl _) hmem
  have hsame := h _ _ (horder 3300 (by decide +kernel)) (horder 0 (by decide +kernel))
  have hslow : (⟨"ssh_bruteforce_slow", "1", "ip-pseudonym:5c1f", atSecond 1767225600⟩ : Finding) ∈
      findings (run plainEnv (startingWith 3300)) := by decide +kernel
  rw [hsame] at hslow
  exact absurd hslow (by decide +kernel)

end Clawforge.SecurityEngine

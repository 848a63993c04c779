import Clawforge.Storage.Reputation
import Clawforge.Net.PyIpAddress
import Clawforge.Theorems.IndicatorSync

/-!
# Stored prefixes and the lookups that cast them

A lookup raises exactly if some unexpired reputation indicator is a prefix that the
database refuses to cast (`ipReputation_ok_iff`), whichever address it asks about. The
normalizers take every network `ipnet` reads, and `ipnet` keeps bits to the right of
the mask where `cidr` refuses them (`host_bits_disable_lookups`).
-/

namespace Clawforge.Reputation

open Clawforge.Net Clawforge.Intelligence Kit List Option

/-! ## When a lookup raises -/

section Lookup

variable {pg : Postgres} {now : Instant}

theorem rowMatches_ok_iff {ip : IpAddr} {row : IndicatorRow} :
    (∃ b, rowMatches pg now ip row = .ok b) ↔
      (reputational now row = true → row.indicatorType = .ipPrefix →
        (pg.cidr row.value).isSome = true) := by
  unfold rowMatches
  by_cases hrep : reputational now row = true
  · rw [if_pos hrep]
    cases htype : row.indicatorType with
    | ipPrefix =>
      cases hcast : pg.cidr row.value with
      | none => simp [hrep]
      | some n => simp
    | ip | domain | url | hash | asn => simp
  · rw [if_neg hrep]
    exact iff_of_true ⟨false, rfl⟩ (fun h => absurd h hrep)

/-- No row the lookup reaches is a prefix that cannot be cast. -/
def Castable (pg : Postgres) (T : Table IndicatorRow.key) (now : Instant) : Prop :=
  ∀ row ∈ T, reputational now row = true → row.indicatorType = .ipPrefix →
    (pg.cidr row.value).isSome = true

theorem ipReputation_ok_iff {T : Table IndicatorRow.key} {ip : IpAddr} :
    (∃ hit, ipReputation pg T now ip = .ok hit) ↔ Castable pg T now := by
  constructor
  · rintro ⟨hit, h⟩ row hrow
    obtain ⟨rows, hrows, -⟩ := except_map_ok h
    exact rowMatches_ok_iff.1 (ok_of_filterE hrows row hrow)
  · intro hcast
    have hok : ∀ row ∈ T.rows, ∃ b, rowMatches pg now ip row = .ok b :=
      fun row hrow => rowMatches_ok_iff.2 (hcast row hrow)
    refine ⟨(pg.top (T.rows.filter (holds (rowMatches pg now ip)))).map hitOf, ?_⟩
    rw [ipReputation, filterE_of_ok hok]
    rfl

theorem lookupIpReputation_ok {T : Table IndicatorRow.key} (h : Castable pg T now) (ip : String) :
    ∃ hit, lookupIpReputation pg T now ip = .ok hit := by
  unfold lookupIpReputation
  cases hparse : parseIpAddr ip.toList with
  | none => exact ⟨none, rfl⟩
  | some a =>
    rw [if_neg (by simp), pg.reads_address ip a hparse]
    exact ipReputation_ok_iff.2 h

theorem currentSourceIntel_ok {db : IntelDb} (h : Castable pg db.indicators now)
    (hbgp : ∀ addr, ∃ b, bgpAnomaly pg db now addr = .ok b) (pseudonym : String) :
    ∃ intel, currentSourceIntel pg db now pseudonym = .ok intel := by
  unfold currentSourceIntel
  cases hresolve : resolve db now pseudonym with
  | none => exact ⟨_, rfl⟩
  | some r =>
    have hip : ∃ hit, ipReputation pg db.indicators now r.rawIp.addr = .ok hit :=
      ipReputation_ok_iff.2 h
    obtain ⟨hit, hhit⟩ := hip
    obtain ⟨b, hb⟩ := hbgp r.rawIp.addr
    simp only [hhit, hb]
    split
    · exact ⟨_, rfl⟩
    · exact ⟨_, rfl⟩

end Lookup

/-! ## What the feeds leave in the table -/

/-- One synchronisation; one that fails before it stores leaves the store as it was. -/
def syncOne (env : Env) (s : Store) (f : HttpFeedProvider × RawFeed) : Store :=
  match syncProvider env f.1 (.ok f.2) s with
  | .ok (s', _) => s'
  | .error _ => s

def syncAll (env : Env) (feeds : List (HttpFeedProvider × RawFeed)) (s : Store) : Store :=
  feeds.foldl (syncOne env) s

/-- Every row has the key of some indicator that meets `P`. -/
def RowsOf (P : Indicator → Prop) (s : Store) : Prop :=
  ∀ row ∈ s.indicators, ∃ i, P i ∧ i.key = row.key

variable {P : Indicator → Prop} {i : Indicator} {s : Store}

theorem RowsOf.upsertIndicator (h : RowsOf P s) (hi : P i) : RowsOf P (upsertIndicator s i).1 := by
  intro row hrow
  have hget := Table.get?_key hrow
  rw [get?_upsertIndicator] at hget
  split at hget
  · rename_i hkey
    exact ⟨i, hi, hkey.symm⟩
  · exact h row (Table.mem_of_get? hget)

theorem RowsOf.upsertIndicators {is : List Indicator} (h : RowsOf P s) (his : ∀ i ∈ is, P i) :
    RowsOf P (upsertIndicators s is) := by
  induction is generalizing s with
  | nil => exact h
  | cons i is ih =>
    exact ih (h.upsertIndicator (his i mem_cons_self))
      (fun k hk => his k (mem_cons_of_mem _ hk))

theorem RowsOf.consume {is : List Indicator} (h : RowsOf P s) (his : ∀ i ∈ is, P i) :
    RowsOf P (consume s is) := by
  induction is generalizing s with
  | nil => exact h
  | cons i is ih =>
    have hone : RowsOf P (consumeIndicator s i) := by
      rw [RowsOf, indicators_consumeIndicator]
      exact h.upsertIndicator (his i mem_cons_self)
    exact ih hone (fun k hk => his k (mem_cons_of_mem _ hk))

/-- An indicator one of the feeds is normalized to. -/
def Emitted (env : Env) (feeds : List (HttpFeedProvider × RawFeed)) (i : Indicator) : Prop :=
  ∃ f ∈ feeds, i ∈ feedIndicators env f.1 f.2

theorem rowsOf_syncAll {env : Env} {feeds : List (HttpFeedProvider × RawFeed)} (h : RowsOf P s)
    (hfeeds : ∀ f ∈ feeds, ∀ i ∈ feedIndicators env f.1 f.2, P i) :
    RowsOf P (syncAll env feeds s) := by
  induction feeds generalizing s with
  | nil => exact h
  | cons f feeds ih =>
    refine ih (s := syncOne env s f) ?_ (fun g hg => hfeeds g (mem_cons_of_mem _ hg))
    unfold syncOne
    cases hsync : syncProvider env f.1 (.ok f.2) s with
    | error e => exact h
    | ok r =>
      obtain ⟨s', n⟩ := r
      obtain ⟨feed, is, hfeed, his, heq⟩ := syncProvider_eq_ok hsync
      cases hfeed
      have hP : ∀ i ∈ is, P i := by
        have hall := hfeeds f mem_cons_self
        rw [feedIndicators, his] at hall
        exact hall
      show RowsOf P s'
      rw [heq]
      exact (h.upsertIndicators hP).consume hP

/-! ## One indicator for each value -/

/-- An element that goes before all that meet `p` is the first of these. -/
theorem find?_orderedInsert {α : Type} (r : α → α → Prop) [DecidableRel r] {p : α → Bool} {a : α}
    (h : p a = true → ∀ b, p b = true → r a b) (l : List α) :
    (l.orderedInsert r a).find? p = (a :: l).find? p := by
  induction l with
  | nil => rfl
  | cons b l ih =>
    rw [orderedInsert_cons]
    split
    · rfl
    · rename_i hafter
      rw [find?_cons, ih]
      cases ha : p a with
      | true =>
        have hb : p b = false := Bool.eq_false_iff.2 fun hb => hafter (h ha b hb)
        rw [hb, find?_cons_of_pos ha, find?_cons_of_pos ha]
      | false => rw [find?_cons_of_neg (by simp [ha]), find?_cons_of_neg (by simp [ha]),
          find?_cons]

theorem find?_sorted (v : String) (l : List Indicator) :
    (l.insertionSort (fun left right => left.value ≤ right.value)).find? (fun x => x.value = v) =
      l.find? (fun x => x.value = v) := by
  induction l with
  | nil => rfl
  | cons a l ih =>
    rw [insertionSort_cons, find?_orderedInsert, find?_cons, ih, find?_cons]
    intro ha b hb
    exact le_of_eq ((of_decide_eq_true ha).trans (of_decide_eq_true hb).symm)

/-- Of the items with one value the first is kept. -/
theorem mem_dedupFrom_iff {same : Indicator → Indicator → Bool} {kept : Indicator}
    {rest : List Indicator}
    (hsame : ∀ x ∈ kept :: rest, ∀ y ∈ kept :: rest, same x y = true ↔ x.value = y.value)
    (hsorted : (kept :: rest).Pairwise (fun left right => left.value ≤ right.value)) :
    i ∈ dedupFrom same kept rest ↔
      (kept :: rest).find? (fun x => x.value = i.value) = some i := by
  induction rest generalizing kept with
  | nil => simp [dedupFrom, eq_comm]; rintro rfl; rfl
  | cons x rest ih =>
    obtain ⟨hkept, htail⟩ := pairwise_cons.1 hsorted
    unfold dedupFrom
    by_cases hx : x.value = kept.value
    · rw [if_pos ((hsame x (by simp) kept (by simp)).2 hx),
        ih (fun a ha b hb => hsame a (by grind) b (by grind))
          (pairwise_cons.2 ⟨fun y hy => hkept y (mem_cons_of_mem _ hy),
            (pairwise_cons.1 htail).2⟩)]
      rw [find?_cons, find?_cons, find?_cons]
      by_cases hk : kept.value = i.value
      · simp [hk]
      · simp [hk, hx]
    · have hne : same x kept ≠ true := fun h => hx ((hsame x (by simp) kept (by simp)).1 h)
      rw [if_neg hne, mem_cons,
        ih (fun a ha b hb => hsame a (mem_cons_of_mem _ ha) b (mem_cons_of_mem _ hb)) htail,
        find?_cons (a := kept)]
      by_cases hk : kept.value = i.value
      · -- what comes later is greater
        have hnone : (x :: rest).find? (fun y => y.value = i.value) = none := by
          refine find?_eq_none.2 fun y hy hyi => hx (le_antisymm ?_ (hkept x (by simp)))
          have hle : x.value ≤ y.value := by
            rcases mem_cons.1 hy with rfl | hy
            · exact le_rfl
            · exact (pairwise_cons.1 htail).1 y hy
          rw [hk, ← of_decide_eq_true hyi]
          exact hle
        rw [hnone, decide_eq_true hk]
        simp [eq_comm]
      · have hne' : i ≠ kept := fun h => hk (h ▸ rfl)
        simp [hk, hne']

/-- Of the indicators of a provider with one value the first is kept. -/
theorem mem_deduplicate_iff {l : List Indicator} {source : String}
    (hsource : ∀ x ∈ l, x.source = source) :
    i ∈ deduplicate l ↔ l.find? (fun x => x.value = i.value) = some i := by
  have hsorted := pairwise_insertionSort (fun left right : Indicator => left.value ≤ right.value) l
  have hmem : ∀ x ∈ l.insertionSort (fun left right => left.value ≤ right.value),
      x.source = source := fun x hx => hsource x ((mem_insertionSort _).1 hx)
  rw [← find?_sorted]
  unfold deduplicate
  cases hl : l.insertionSort (fun left right => left.value ≤ right.value) with
  | nil => simp [dedupBy]
  | cons x rest =>
    rw [hl] at hsorted hmem
    exact mem_dedupFrom_iff (fun a ha b hb => by simp [hmem a ha, hmem b hb]) hsorted

/-! ## The texts of a feed -/

/-- The first word of a line, without its quotes. -/
def wordOf (line : List Char) : String := String.ofList (trimQuotes (firstWord line))

/-- The `ioc` of a ThreatFox row, an `ip:port` without its port, and the `ioc_type`. -/
def iocOf (row : Json) : Option (String × String) :=
  ((row.get "ioc").bind Json.asStr).map (fun raw =>
    let iocType := ((row.get "ioc_type").bind Json.asStr).getD ""
    (if iocType = "ip:port" then stripPort raw else raw, iocType))

/-- No address, domain or URL by its type. -/
def untyped (iocType : String) : Bool :=
  !(Text.startsWith iocType "ip" || Text.startsWith iocType "domain" ||
    Text.startsWith iocType "url")

/-- The texts of a feed that are taken for networks where `ipnet` reads them: the first words of
its lines, and an untyped `ioc` of ThreatFox that no row before it has, blanks aside. -/
def HoldsText (env : Env) (f : HttpFeedProvider × RawFeed) (v : String) : Prop :=
  match f.1.format with
  | .text => ∃ text, decodeText env f.2.body = .ok text ∧
      ∃ line ∈ Text.lines text.toList, wordOf line = v
  | .json => f.1.id = "threatfox" ∧ v ≠ "" ∧ v.utf8ByteSize ≤ 2048 ∧
      ∃ value, parseFeed env f.2.body = .ok value ∧ ∃ iocType, untyped iocType = true ∧
        ((jsonRows value).filterMap iocOf).find? (fun x => Text.trim x.1.toList = v.toList) =
          some (v, iocType)
  | .asnJsonLines => False

/-- What `ipnet` reads and no address. -/
def IsPrefix (env : Env) (v : String) : Prop :=
  isIpAddr v = false ∧ (env.parseIpNet v).isSome = true

section Texts

variable {env : Env} {p : HttpFeedProvider} {feed : RawFeed} {v : String} {i : Indicator}
  {line : List Char}

theorem classify_prefix_iff : classify env v = some .ipPrefix ↔ IsPrefix env v := by
  unfold classify IsPrefix
  split_ifs <;> simp_all

/-- A line becomes a prefix if its word is one. -/
theorem lineIndicator_prefix_iff :
    lineIndicator env p feed line = some i ∧ i.indicatorType = .ipPrefix ↔
      IsPrefix env (wordOf line) ∧
        i = makeIndicator p (wordOf line) .ipPrefix feed.fetchedAt feed.contentType := by
  have htype : (classify env (wordOf line)).or ((env.parseIpNet (wordOf line)).map
      (fun _ => IndicatorType.ipPrefix)) = some .ipPrefix ↔ IsPrefix env (wordOf line) := by
    rw [or_eq_some_iff, classify_prefix_iff]
    refine or_iff_left ?_
    rintro ⟨hnone, hread⟩
    unfold classify at hnone
    split_ifs at hnone
    simp_all
  unfold lineIndicator
  dsimp only
  rw [← htype]
  constructor
  · rintro ⟨h, hprefix⟩
    obtain ⟨t, ht, rfl⟩ := map_eq_some_iff.1 h
    have hsame : t = .ipPrefix := hprefix
    subst hsame
    exact ⟨ht, rfl⟩
  · rintro ⟨ht, rfl⟩
    exact ⟨map_eq_some_iff.2 ⟨_, ht, rfl⟩, rfl⟩

theorem lineIndicator_of_prefix (h : IsPrefix env (wordOf line)) :
    lineIndicator env p feed line =
      some (makeIndicator p (wordOf line) .ipPrefix feed.fetchedAt feed.contentType) :=
  (lineIndicator_prefix_iff.2 ⟨h, rfl⟩).1

theorem source_lineIndicator (h : lineIndicator env p feed line = some i) :
    i.source = p.id ∧ i.value = wordOf line := by
  unfold lineIndicator at h
  obtain ⟨t, -, rfl⟩ := map_eq_some_iff.1 h
  exact ⟨rfl, rfl⟩

/-- The prefixes of a text feed are those of its words. -/
theorem prefix_lines_iff (lines : List (List Char)) :
    (∃ i ∈ deduplicate (lines.filterMap (lineIndicator env p feed)),
        i.indicatorType = .ipPrefix ∧ i.value = v) ↔
      (∃ line ∈ lines, wordOf line = v) ∧ IsPrefix env v := by
  constructor
  · rintro ⟨i, hi, htype, rfl⟩
    obtain ⟨line, hline, hl⟩ := mem_filterMap.1 (mem_deduplicate hi)
    have hword : i.value = wordOf line := (source_lineIndicator hl).2
    exact ⟨⟨line, hline, hword.symm⟩, hword ▸ (lineIndicator_prefix_iff.1 ⟨hl, htype⟩).1⟩
  · rintro ⟨⟨line, hline, rfl⟩, hprefix⟩
    have hl : lineIndicator env p feed line = _ := lineIndicator_of_prefix hprefix
    have hsource : ∀ x ∈ lines.filterMap (lineIndicator env p feed), x.source = p.id := by
      intro x hx
      obtain ⟨other, -, ho⟩ := mem_filterMap.1 hx
      exact (source_lineIndicator ho).1
    refine ⟨makeIndicator p (wordOf line) .ipPrefix feed.fetchedAt feed.contentType,
      (mem_deduplicate_iff hsource).2 ?_, rfl, rfl⟩
    -- the first line with the word becomes the same indicator
    show (lines.filterMap (lineIndicator env p feed)).find? (fun x => x.value = wordOf line) = _
    cases hfirst : (lines.filterMap (lineIndicator env p feed)).find?
        (fun x => x.value = wordOf line) with
    | none =>
      have hno := find?_eq_none.1 hfirst _ (mem_filterMap.2 ⟨line, hline, hl⟩)
      exact absurd rfl (of_decide_eq_false (Bool.eq_false_iff.2 hno))
    | some j =>
      obtain ⟨other, -, ho⟩ := mem_filterMap.1 (mem_of_find?_eq_some hfirst)
      have hvalue := find?_some hfirst
      have hword : wordOf other = wordOf line :=
        (source_lineIndicator ho).2.symm.trans (of_decide_eq_true hvalue)
      have hmade : lineIndicator env p feed other = _ :=
        lineIndicator_of_prefix (hword ▸ hprefix)
      exact ho.symm.trans (hmade.trans (by rw [hword]))

/-- The type `rowCandidates` gives to the `ioc` of a row. -/
def typedIoc (env : Env) (x : String × String) : String × IndicatorType :=
  (x.1,
    if Text.startsWith x.2 "ip" then .ip
    else if Text.startsWith x.2 "domain" then .domain
    else if Text.startsWith x.2 "url" then .url
    else (classify env x.1).getD .hash)

theorem rowCandidates_threatfox (hid : p.id = "threatfox") (row : Json) :
    rowCandidates env p row = ((iocOf row).map (typedIoc env)).toList := by
  unfold rowCandidates iocOf
  rw [if_pos hid]
  cases (row.get "ioc").bind Json.asStr <;> rfl

theorem typedIoc_prefix_iff {x : String × String} :
    (typedIoc env x).2 = .ipPrefix ↔ untyped x.2 = true ∧ IsPrefix env x.1 := by
  rw [← classify_prefix_iff]
  unfold typedIoc untyped
  cases hclass : classify env x.1 <;> split_ifs <;> simp_all

theorem not_prefix_of_other (hid : p.id ≠ "threatfox") {row : Json} :
    (v, IndicatorType.ipPrefix) ∉ rowCandidates env p row := by
  unfold rowCandidates
  rw [if_neg hid]
  intro h
  split at h
  · obtain ⟨_, _, he⟩ := map_eq_some_iff.1 (mem_toList.1 h)
    cases he
  split at h
  · obtain ⟨_, _, he⟩ := map_eq_some_iff.1 (mem_toList.1 h)
    cases he
  split at h
  · obtain ⟨_, _, hmap⟩ := mem_filterMap.1 h
    obtain ⟨_, _, he⟩ := map_eq_some_iff.1 hmap
    cases he
  · exact absurd h not_mem_nil

/-- A candidate becomes an indicator of the text it is without blanks, unless that is empty or
too long. -/
theorem candidateIndicator_eq_some {c : String × IndicatorType} :
    candidateIndicator p feed c = some i ↔
      (i.value ≠ "" ∧ i.value.utf8ByteSize ≤ 2048 ∧ Text.trim c.1.toList = i.value.toList) ∧
        i = makeIndicator p i.value c.2 feed.fetchedAt feed.contentType := by
  unfold candidateIndicator
  dsimp only
  constructor
  · intro h
    split at h
    · cases h
    · rename_i hfits
      cases h
      simp only [Bool.or_eq_true, String.isEmpty_iff, decide_eq_true_eq, not_or, not_lt] at hfits
      exact ⟨⟨hfits.1, hfits.2, String.toList_ofList.symm⟩, rfl⟩
  · rintro ⟨⟨hne, hlen, htrim⟩, hi⟩
    rw [htrim, String.ofList_toList, if_neg]
    · rw [← hi]
    · simp only [Bool.or_eq_true, String.isEmpty_iff, decide_eq_true_eq, not_or, not_lt]
      exact ⟨hne, hlen⟩

/-- The prefixes of a ThreatFox feed. -/
theorem prefix_iocs_iff (hblank : ∀ v, (env.parseIpNet v).isSome = true →
      Text.trim v.toList = v.toList) (iocs : List (String × String)) :
    (∃ i ∈ deduplicate ((iocs.map (typedIoc env)).filterMap (candidateIndicator p feed)),
        i.indicatorType = .ipPrefix ∧ i.value = v) ↔
      (v ≠ "" ∧ v.utf8ByteSize ≤ 2048 ∧ ∃ iocType, untyped iocType = true ∧
        iocs.find? (fun x => Text.trim x.1.toList = v.toList) = some (v, iocType)) ∧
      IsPrefix env v := by
  have hsource : ∀ x ∈ (iocs.map (typedIoc env)).filterMap (candidateIndicator p feed),
      x.source = p.id := by
    intro x hx
    obtain ⟨c, -, hc⟩ := mem_filterMap.1 hx
    rw [(candidateIndicator_eq_some.1 hc).2]
    rfl
  have hany : v ≠ "" → v.utf8ByteSize ≤ 2048 → ∀ x,
      (candidateIndicator p feed (typedIoc env x)).any (fun i => i.value = v) =
        decide (Text.trim x.1.toList = v.toList) := by
    intro hne hlen x
    rw [Bool.eq_iff_iff, Option.any_eq_true, decide_eq_true_eq]
    constructor
    · rintro ⟨i, hi, hv⟩
      obtain ⟨⟨-, -, htrim⟩, -⟩ := candidateIndicator_eq_some.1 hi
      rw [← of_decide_eq_true hv]
      exact htrim
    · exact fun htrim => ⟨makeIndicator p v (typedIoc env x).2 feed.fetchedAt feed.contentType,
        candidateIndicator_eq_some.2 ⟨⟨hne, hlen, htrim⟩, rfl⟩, decide_eq_true rfl⟩
  have hfind : v ≠ "" → v.utf8ByteSize ≤ 2048 →
      ((iocs.map (typedIoc env)).filterMap (candidateIndicator p feed)).find?
          (fun x => x.value = v) =
        (iocs.find? (fun x => Text.trim x.1.toList = v.toList)).bind
          (fun x => candidateIndicator p feed (typedIoc env x)) := by
    intro hne hlen
    simp only [find?_filterMap, find?_map, bind_map, Function.comp_def,
      hany hne hlen]
  constructor
  · rintro ⟨i, hi, htype, rfl⟩
    have hfirst := (mem_deduplicate_iff hsource).1 hi
    obtain ⟨c, -, hc⟩ := mem_filterMap.1 (mem_deduplicate hi)
    obtain ⟨⟨hne, hlen, -⟩, -⟩ := candidateIndicator_eq_some.1 hc
    rw [hfind hne hlen] at hfirst
    obtain ⟨x, hx, hxi⟩ := bind_eq_some_iff.1 hfirst
    obtain ⟨⟨-, -, htrim⟩, hmade⟩ := candidateIndicator_eq_some.1 hxi
    rw [hmade] at htype
    obtain ⟨hun, hprefix⟩ := typedIoc_prefix_iff.1 htype
    -- what `ipnet` reads has no blanks around it
    have hsame : x.1 = i.value := String.toList_injective ((hblank x.1 hprefix.2).symm.trans htrim)
    refine ⟨⟨hne, hlen, x.2, hun, ?_⟩, hsame ▸ hprefix⟩
    rw [hx, ← hsame]
  · rintro ⟨⟨hne, hlen, iocType, hun, hx⟩, hprefix⟩
    have htype : (typedIoc env (v, iocType)).2 = .ipPrefix := typedIoc_prefix_iff.2 ⟨hun, hprefix⟩
    refine ⟨makeIndicator p v (typedIoc env (v, iocType)).2 feed.fetchedAt feed.contentType,
      (mem_deduplicate_iff hsource).2 ?_, htype, rfl⟩
    refine (hfind hne hlen).trans ?_
    rw [hx, bind_some]
    exact candidateIndicator_eq_some.2 ⟨⟨hne, hlen, hblank v hprefix.2⟩, rfl⟩

/-- The prefixes of a feed are the texts it holds that `ipnet` reads. -/
theorem prefix_feedIndicators_iff (hblank : ∀ v, (env.parseIpNet v).isSome = true →
      Text.trim v.toList = v.toList) :
    (∃ i ∈ feedIndicators env p feed, i.indicatorType = .ipPrefix ∧ i.value = v) ↔
      HoldsText env (p, feed) v ∧ IsPrefix env v := by
  have hnone : ¬ ∃ i ∈ ([] : List Indicator), i.indicatorType = .ipPrefix ∧ i.value = v := by simp
  unfold feedIndicators Intelligence.normalize HoldsText
  cases p.format with
  | text =>
    unfold normalizeText
    cases hdecode : decodeText env feed.body with
    | error e => exact iff_of_false hnone (by simp)
    | ok text =>
      refine (prefix_lines_iff (Text.lines text.toList)).trans (and_congr_left' ?_)
      simp
  | json =>
    unfold normalizeJson
    cases hparse : parseFeed env feed.body with
    | error e => exact iff_of_false hnone (by simp)
    | ok value =>
      show (∃ i ∈ deduplicate (((jsonRows value).flatMap (rowCandidates env p)).filterMap
        (candidateIndicator p feed)), _) ↔ _
      by_cases hid : p.id = "threatfox"
      · have hrows : (jsonRows value).flatMap (rowCandidates env p) =
            ((jsonRows value).filterMap iocOf).map (typedIoc env) := by
          rw [funext (rowCandidates_threatfox hid), map_filterMap]
          exact (filterMap_eq_flatMap_toList _ _).symm
        rw [hrows, prefix_iocs_iff hblank]
        simp [hid]
      · refine iff_of_false ?_ (fun h => hid h.1.1)
        rintro ⟨i, hi, htype, -⟩
        obtain ⟨⟨raw, t⟩, hc, hi⟩ := mem_filterMap.1 (mem_deduplicate hi)
        obtain ⟨row, -, hrow⟩ := mem_flatMap.1 hc
        rw [(candidateIndicator_eq_some.1 hi).2] at htype
        have ht : t = .ipPrefix := htype
        exact not_prefix_of_other hid (ht ▸ hrow)
  | asnJsonLines =>
    refine iff_of_false ?_ (fun h => h.1)
    rintro ⟨i, hi, htype, -⟩
    split at hi
    · rename_i is h
      obtain ⟨asns, rfl⟩ := normalizeAsnJsonLines_eq_ok h
      obtain ⟨asn, -, rfl⟩ := List.mem_map.1 (mem_deduplicate hi)
      cases htype
    · exact absurd hi not_mem_nil

end Texts

theorem isSome_cidr {pg : Postgres} {value : String} :
    (pg.cidr value).isSome = true ↔ ∃ n, pg.inetIn value = some n ∧ n.isNetwork = true := by
  unfold Postgres.cidr
  cases h : pg.inetIn value with
  | none => simp
  | some n =>
    by_cases hn : n.isNetwork = true
    · simp [hn]
    · simp [hn]

/-- Every prefix indicator of some feeds can be cast, and no lookup over the table they
leave raises, for any address or source, exactly if of the texts the feeds hold `inet` reads
every one that `ipnet` reads and that is no address, and none of these networks has bits set to
the right of its mask. `ipnet` reads no surrounding blanks, and a text that both read they read
as the same network. -/
theorem prefixes_castable_iff {env : Env} {pg : Postgres}
    (hblank : ∀ v, (env.parseIpNet v).isSome = true → Text.trim v.toList = v.toList)
    (hsame : ∀ v n m, env.parseIpNet v = some n → pg.inetIn v = some m → m = n)
    (feeds : List (HttpFeedProvider × RawFeed)) :
    ((∀ i, Emitted env feeds i → i.indicatorType = .ipPrefix →
        (pg.cidr i.value).isSome = true) ∧
      (∀ now ip, ∃ hit, lookupIpReputation pg (syncAll env feeds emptyStore).indicators now ip =
        .ok hit) ∧
      (∀ now addr, ∃ hit, ipReputation pg (syncAll env feeds emptyStore).indicators now addr =
        .ok hit) ∧
      ∀ db now, db.indicators = (syncAll env feeds emptyStore).indicators →
        (∀ addr, ∃ b, bgpAnomaly pg db now addr = .ok b) →
        ∀ pseudonym, ∃ intel, currentSourceIntel pg db now pseudonym = .ok intel) ↔
      ∀ f ∈ feeds, ∀ v, HoldsText env f v → isIpAddr v = false →
        ∀ n, env.parseIpNet v = some n → (pg.inetIn v).isSome = true ∧ n.isNetwork = true := by
  constructor
  · rintro ⟨hcast, -⟩ f hf v hholds haddr n hn
    have hread : (env.parseIpNet v).isSome = true := isSome_of_eq_some hn
    obtain ⟨i, hi, htype, rfl⟩ := (prefix_feedIndicators_iff hblank).2 ⟨hholds, haddr, hread⟩
    obtain ⟨m, hm, hnetwork⟩ := isSome_cidr.1 (hcast i ⟨f, hf, hi⟩ htype)
    exact ⟨isSome_of_eq_some hm, hsame i.value n m hn hm ▸ hnetwork⟩
  · intro h
    have hcast : ∀ i, Emitted env feeds i → i.indicatorType = .ipPrefix →
        (pg.cidr i.value).isSome = true := by
      rintro i ⟨f, hf, hi⟩ htype
      obtain ⟨hholds, haddr, hread⟩ :=
        (prefix_feedIndicators_iff hblank).1 ⟨i, hi, htype, rfl⟩
      obtain ⟨n, hn⟩ := isSome_iff_exists.1 hread
      obtain ⟨hinet, hnetwork⟩ := h f hf i.value hholds haddr n hn
      obtain ⟨m, hm⟩ := isSome_iff_exists.1 hinet
      exact isSome_cidr.2 ⟨m, hm, (hsame i.value n m hn hm).symm ▸ hnetwork⟩
    have hrows : RowsOf (Emitted env feeds) (syncAll env feeds emptyStore) :=
      rowsOf_syncAll (fun row hrow => absurd hrow Table.not_mem_empty)
        (fun f hf i hi => ⟨f, hf, hi⟩)
    have castable : ∀ now, Castable pg (syncAll env feeds emptyStore).indicators now := by
      intro now row hrow _ htype
      obtain ⟨i, hi, hkey⟩ := hrows row hrow
      obtain ⟨hvalue, hrest⟩ := Prod.mk.inj hkey
      have htype' : i.indicatorType = row.indicatorType := (Prod.mk.inj hrest).1
      rw [← hvalue]
      exact hcast i hi (htype'.trans htype)
    refine ⟨hcast, fun now ip => lookupIpReputation_ok (castable now) ip,
      fun now addr => ipReputation_ok_iff.2 (castable now), ?_⟩
    intro db now hdb hbgp pseudonym
    exact currentSourceIntel_ok (hdb ▸ castable now) hbgp pseudonym

/-! ## Host bits -/

/-- The row of `rows` that outranks the others. -/
def topRow : List IndicatorRow → Option IndicatorRow
  | [] => none
  | x :: rest =>
    match topRow rest with
    | none => some x
    | some y => if Below x y then some y else some x

theorem below_total (a b : IndicatorRow) : Below a b ∨ Below b a := by
  rcases Nat.lt_trichotomy a.confidence b.confidence with hlt | heq | hgt
  · exact .inl (.inl hlt)
  · rcases Nat.le_total a.lastSeen b.lastSeen with hle | hle
    · exact .inl (.inr ⟨heq, hle⟩)
    · exact .inr (.inr ⟨heq.symm, hle⟩)
  · exact .inr (.inl hgt)

theorem Below.trans {a b c : IndicatorRow} (h : Below a b) (h' : Below b c) : Below a c := by
  unfold Below at *
  rcases h with h | ⟨he, hs⟩
  · exact .inl (by omega)
  · rcases h' with h' | ⟨he', hs'⟩
    · exact .inl (by omega)
    · exact .inr ⟨he.trans he', Nat.le_trans hs hs'⟩

theorem isTop_topRow (rows : List IndicatorRow) : IsTop rows (topRow rows) := by
  induction rows with
  | nil => rfl
  | cons x rest ih =>
    rw [topRow]
    cases htop : topRow rest with
    | none =>
      rw [htop] at ih
      have hrest : rest = [] := ih
      subst hrest
      refine ⟨mem_cons_self, fun row hrow => ?_⟩
      rw [mem_singleton.1 hrow]
      exact (below_total x x).elim id id
    | some y =>
      rw [htop] at ih
      obtain ⟨hy, hmax⟩ := ih
      show IsTop (x :: rest) (if Below x y then some y else some x)
      by_cases hxy : Below x y
      · rw [if_pos hxy]
        refine ⟨mem_cons_of_mem _ hy, fun row hrow => ?_⟩
        rcases mem_cons.1 hrow with rfl | hrow
        · exact hxy
        · exact hmax row hrow
      · rw [if_neg hxy]
        have hyx : Below y x := (below_total x y).resolve_left hxy
        refine ⟨mem_cons_self, fun row hrow => ?_⟩
        rcases mem_cons.1 hrow with rfl | hrow
        · exact (below_total row row).elim id id
        · exact (hmax row hrow).trans hyx

/-- A database that reads the standard notation and spells addresses as `Display` does. -/
def standardPostgres : Postgres where
  inetIn s := ((parseIpAddr s.toList).map hostNet).or (readIpNet s)
  host a := String.ofList (displayIpAddr a)
  top := topRow
  reads_address s a h := by rw [h]; rfl
  host_spells a := by rw [String.toList_ofList]; exact parseIpAddr_displayIpAddr a
  isTop := isTop_topRow

/-- A text in the standard notation has a slash and no white space. -/
theorem readIpNet_chars {value : String} {n : IpNet} (h : readIpNet value = some n) :
    '/' ∈ value.toList ∧ ∀ c ∈ value.toList, Text.isWhitespace c = false := by
  unfold readIpNet at h
  split at h
  case h_1 => cases h
  case h_2 address length hsplit =>
    split at h
    case h_2 => cases h
    case h_1 addr len haddr hlen =>
      have hchars := Text.splitOnce_some hsplit
      rw [hchars]
      refine ⟨mem_append_right _ mem_cons_self, fun c hc => ?_⟩
      rcases mem_append.1 hc with hc | hc
      · rcases parseIpAddr_chars haddr hc with rfl | rfl | hdigit
        · decide
        · decide
        · exact Text.isWhitespace_of_isDigitOf hdigit
      · rcases mem_cons.1 hc with rfl | hc
        · decide
        · rcases Text.parseUnsigned_chars hlen hc with rfl | hdigit
          · decide
          · exact Text.isWhitespace_of_isDigitOf hdigit

theorem standard_blank : ∀ v, (textEnv.parseIpNet v).isSome = true →
    Text.trim v.toList = v.toList := by
  intro v hv
  obtain ⟨n, hn⟩ := isSome_iff_exists.1 hv
  exact Text.trim_of_no_blank (readIpNet_chars hn).2

theorem standard_same : ∀ v n m, textEnv.parseIpNet v = some n →
    standardPostgres.inetIn v = some m → m = n := by
  intro v n m hn hm
  have hnone : parseIpAddr v.toList = none := by
    cases haddr : parseIpAddr v.toList with
    | none => rfl
    | some a => exact absurd (readIpNet_chars hn).1 (not_mem_of_parseIpAddr haddr (by decide))
  have hread : readIpNet v = some m := by
    have hin : ((parseIpAddr v.toList).map hostNet).or (readIpNet v) = some m := hm
    rw [hnone] at hin
    exact hin
  exact some.inj (hread.symm.trans hn)

/-- A feed whose one network has host bits. -/
def hostBitsFeeds : List (HttpFeedProvider × RawFeed) :=
  [(spamhausDrop, feedOf "10.0.0.1/8")]

theorem prefixes_castable_iff_host_bits :
    (∀ v, (textEnv.parseIpNet v).isSome = true → Text.trim v.toList = v.toList) ∧
    (∀ v n m, textEnv.parseIpNet v = some n → standardPostgres.inetIn v = some m → m = n) ∧
    (((∀ i, Emitted textEnv hostBitsFeeds i → i.indicatorType = .ipPrefix →
        (standardPostgres.cidr i.value).isSome = true) ∧
      (∀ now ip, ∃ hit, lookupIpReputation standardPostgres
        (syncAll textEnv hostBitsFeeds emptyStore).indicators now ip = .ok hit) ∧
      (∀ now addr, ∃ hit, ipReputation standardPostgres
        (syncAll textEnv hostBitsFeeds emptyStore).indicators now addr = .ok hit) ∧
      ∀ db now, db.indicators = (syncAll textEnv hostBitsFeeds emptyStore).indicators →
        (∀ addr, ∃ b, bgpAnomaly standardPostgres db now addr = .ok b) →
        ∀ pseudonym, ∃ intel, currentSourceIntel standardPostgres db now pseudonym =
          .ok intel) ↔
      ∀ f ∈ hostBitsFeeds, ∀ v, HoldsText textEnv f v → isIpAddr v = false →
        ∀ n, textEnv.parseIpNet v = some n →
          (standardPostgres.inetIn v).isSome = true ∧ n.isNetwork = true) :=
  ⟨standard_blank, standard_same,
    prefixes_castable_iff standard_blank standard_same hostBitsFeeds⟩

/-- The network is emitted as a prefix that cannot be cast, and with it in the table every
lookup raises. -/
theorem host_bits_disable_lookups :
    (∃ i, Emitted textEnv hostBitsFeeds i ∧ i.indicatorType = .ipPrefix ∧
      standardPostgres.cidr i.value = none) ∧
    ∀ addr hit, ipReputation standardPostgres
      (syncAll textEnv hostBitsFeeds emptyStore).indicators 0 addr ≠ .ok hit := by
  constructor
  · have hemitted : ∃ i ∈ feedIndicators textEnv spamhausDrop (feedOf "10.0.0.1/8"),
        i.indicatorType = .ipPrefix ∧ standardPostgres.cidr i.value = none := by
      decide +kernel
    obtain ⟨i, hi, hbad⟩ := hemitted
    exact ⟨i, ⟨_, mem_singleton.2 rfl, hi⟩, hbad⟩
  · have hstored : ∃ row ∈ (syncAll textEnv hostBitsFeeds emptyStore).indicators.rows,
        reputational 0 row = true ∧ row.indicatorType = .ipPrefix ∧
          standardPostgres.cidr row.value = none := by
      decide +kernel
    obtain ⟨row, hrow, hrep, htype, hnone⟩ := hstored
    intro addr hit hok
    have hcast := ipReputation_ok_iff.1 ⟨hit, hok⟩ row hrow hrep htype
    rw [hnone] at hcast
    cases hcast

end Clawforge.Reputation

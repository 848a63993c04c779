import Clawforge.Theorems.ReputationCasts

/-!
# Which addresses are listed

`clawforge_ip_reputation` compares an address indicator as text with the one spelling
`host` gives the queried address, and a prefix within its own family only. So a hit is
always a listing of the host (`Lists`), but a listing is only found if some row that is
found ranks no lower (`listed_iff`): the same IPv6 address in another spelling, and an
IPv4 address reported as a mapped IPv6 one, are not (`other_spelling_not_listed`).
-/

namespace Clawforge.Reputation

open Clawforge.Net Clawforge.Intelligence Clawforge.Firewall Kit

variable {pg : Postgres} {a : IpAddr} {now : Instant} {T : Table IndicatorRow.key}
  {row : IndicatorRow} {ip : String}

/-- The indicator denotes the host, or is a specific prefix that contains it; a host is
an address with every mapped IPv6 address as its IPv4 address. -/
def Lists (pg : Postgres) (row : IndicatorRow) (host : IpAddr) : Prop :=
  (row.indicatorType = .ip ∧
      ∃ b, parseIpAddr row.value.toList = some b ∧ normalizeAddress b = host) ∨
    (row.indicatorType = .ipPrefix ∧
      ∃ n, pg.cidr row.value = some n ∧ specific n = true ∧ host ∈ denoted (n.addr, n.prefixLen))

/-- The indicator is the text of the address, or a specific prefix of the address's own
family that contains it. -/
def ListsAsSpelled (pg : Postgres) (row : IndicatorRow) (a : IpAddr) : Prop :=
  (row.indicatorType = .ip ∧ row.value = pg.host a) ∨
    (row.indicatorType = .ipPrefix ∧
      ∃ n, pg.cidr row.value = some n ∧ specific n = true ∧ n.contains a = true)

/-- An unexpired reputation indicator that lists the host. -/
def Listing (pg : Postgres) (T : Table IndicatorRow.key) (now : Instant) (host : IpAddr)
    (row : IndicatorRow) : Prop :=
  row ∈ T ∧ reputational now row = true ∧ Lists pg row host

/-- The lookup reports the best listing of the address, and none if there is no listing or
the text is no address. -/
def ReportsListing (pg : Postgres) (T : Table IndicatorRow.key) (now : Instant) (ip : String) :
    Prop :=
  ∃ hit, lookupIpReputation pg T now ip = .ok hit ∧
    match parseIpAddr ip.toList with
    | none => hit = none
    | some a =>
      match hit with
      | none => ∀ row, ¬ Listing pg T now (normalizeAddress a) row
      | some hit => ∃ row, Listing pg T now (normalizeAddress a) row ∧ hit = hitOf row ∧
          ∀ other, Listing pg T now (normalizeAddress a) other → Below other row

/-! ## What the lookup finds -/

theorem normalizeAddress_mem_denoted {n : IpNet} (h : n.contains a = true) :
    normalizeAddress a ∈ denoted (n.addr, n.prefixLen) := by
  obtain ⟨addr, len, hlen⟩ := n
  refine ⟨a, ?_, rfl⟩
  unfold IpNet.contains at h
  cases addr with
  | v4 b =>
    cases a with
    | v4 x => exact ⟨x, (and_prefixMask_eq_iff len x b).1 (of_decide_eq_true h), rfl⟩
    | v6 x => cases h
  | v6 b =>
    cases a with
    | v4 x => cases h
    | v6 x => exact ⟨x, (and_prefixMask_eq_iff len x b).1 (of_decide_eq_true h), rfl⟩

/-- What lists the address as it is spelled lists the host. -/
theorem ListsAsSpelled.lists (h : ListsAsSpelled pg row a) : Lists pg row (normalizeAddress a) := by
  rcases h with ⟨htype, hvalue⟩ | ⟨htype, n, hcast, hspecific, hin⟩
  · exact Or.inl ⟨htype, a, by rw [hvalue]; exact pg.host_spells a, rfl⟩
  · exact Or.inr ⟨htype, n, hcast, hspecific, normalizeAddress_mem_denoted hin⟩

theorem holds_rowMatches_iff :
    holds (rowMatches pg now a) row = true ↔
      reputational now row = true ∧ ListsAsSpelled pg row a := by
  unfold holds rowMatches ListsAsSpelled
  by_cases hrep : reputational now row = true
  · rw [if_pos hrep]
    cases htype : row.indicatorType with
    | ip => simp [hrep]
    | ipPrefix =>
      cases hcast : pg.cidr row.value with
      | none => simp
      | some n => simp [hrep]
    | domain | url | hash | asn => simp
  · rw [if_neg hrep]
    exact iff_of_false Bool.false_ne_true (fun h => hrep h.1)

/-- The rows the lookup finds for an address. -/
def found (pg : Postgres) (T : Table IndicatorRow.key) (now : Instant) (a : IpAddr) :
    List IndicatorRow :=
  T.rows.filter (holds (rowMatches pg now a))

theorem mem_found :
    row ∈ found pg T now a ↔
      row ∈ T ∧ reputational now row = true ∧ ListsAsSpelled pg row a := by
  rw [found, List.mem_filter, holds_rowMatches_iff]
  rfl

theorem lookup_of_castable (hparse : parseIpAddr ip.toList = some a) (h : Castable pg T now) :
    lookupIpReputation pg T now ip = .ok ((pg.top (found pg T now a)).map hitOf) := by
  have hok : ∀ row ∈ T.rows, ∃ b, rowMatches pg now a row = .ok b :=
    fun row hrow => rowMatches_ok_iff.2 (h row hrow)
  unfold lookupIpReputation
  rw [hparse, if_neg (by simp), pg.reads_address ip a hparse]
  show ipReputation pg T now a = _
  rw [ipReputation, filterE_of_ok hok]
  rfl

theorem castable_of_lookup (hparse : parseIpAddr ip.toList = some a) {hit : Option IpReputationHit}
    (h : lookupIpReputation pg T now ip = .ok hit) : Castable pg T now := by
  unfold lookupIpReputation at h
  rw [hparse, if_neg (by simp), pg.reads_address ip a hparse] at h
  exact ipReputation_ok_iff.1 ⟨hit, h⟩

/-! ## When the best listing is reported -/

/-- The lookup reports the best listing exactly if no unexpired prefix is refused by the
cast and every listing of the host is outranked, or equalled, by one that lists the
address as it is spelled. -/
theorem listed_iff (pg : Postgres) (T : Table IndicatorRow.key) (now : Instant)
    (ip : String) :
    ReportsListing pg T now ip ↔
      ∀ a, parseIpAddr ip.toList = some a → Castable pg T now ∧
        ∀ row, Listing pg T now (normalizeAddress a) row →
          ∃ other ∈ T, reputational now other = true ∧ ListsAsSpelled pg other a ∧
            Below row other := by
  cases hparse : parseIpAddr ip.toList with
  | none =>
    refine iff_of_true ⟨none, ?_, ?_⟩ (fun a ha => nomatch ha)
    · unfold lookupIpReputation
      rw [hparse]
      rfl
    · rw [hparse]
  | some a =>
    constructor
    · rintro ⟨hit, hlookup, hcorrect⟩ a' ha'
      cases ha'
      have hcast := castable_of_lookup hparse hlookup
      refine ⟨hcast, fun row hrow => ?_⟩
      rw [lookup_of_castable hparse hcast] at hlookup
      simp only [hparse] at hcorrect
      cases htop : pg.top (found pg T now a) with
      | none =>
        rw [htop] at hlookup
        cases hlookup
        exact absurd hrow (hcorrect row)
      | some top =>
        rw [htop] at hlookup
        cases hlookup
        obtain ⟨best, -, hsame, hmax⟩ := hcorrect
        have htopmem := pg.isTop (found pg T now a)
        rw [htop] at htopmem
        obtain ⟨htop, htoprep, htoplists⟩ := mem_found.1 htopmem.1
        refine ⟨top, htop, htoprep, htoplists, ?_⟩
        -- the row returned ranks as the best listing does
        have hconf : top.confidence = best.confidence :=
          congrArg IpReputationHit.confidence hsame
        have hseen : top.lastSeen = best.lastSeen := congrArg IpReputationHit.lastSeen hsame
        have hbelow := hmax row hrow
        unfold Below at hbelow ⊢
        rw [hconf, hseen]
        exact hbelow
    · intro h
      obtain ⟨hcast, hfound⟩ := h a rfl
      refine ⟨_, lookup_of_castable hparse hcast, ?_⟩
      simp only [hparse]
      have htop := pg.isTop (found pg T now a)
      cases hpick : pg.top (found pg T now a) with
      | none =>
        rw [hpick] at htop
        intro row hrow
        obtain ⟨other, hother, hrep, hlists, -⟩ := hfound row hrow
        have hmem : other ∈ found pg T now a := mem_found.2 ⟨hother, hrep, hlists⟩
        rw [show found pg T now a = [] from htop] at hmem
        exact List.not_mem_nil hmem
      | some top =>
        rw [hpick] at htop
        obtain ⟨htopmem, hmax⟩ := htop
        obtain ⟨hmem, hrep, hlists⟩ := mem_found.1 htopmem
        refine ⟨top, ⟨hmem, hrep, hlists.lists⟩, rfl, fun row hrow => ?_⟩
        obtain ⟨other, hother, hrep', hlists', hbelow⟩ := hfound row hrow
        exact hbelow.trans (hmax other (mem_found.2 ⟨hother, hrep', hlists'⟩))

/-- No listing is reported if nothing lists the address as it is spelled. -/
theorem not_reportsListing (hparse : parseIpAddr ip.toList = some a)
    (hlisted : ∃ row ∈ T.rows, reputational now row = true ∧ row.indicatorType = .ip ∧
      (parseIpAddr row.value.toList).map normalizeAddress = some (normalizeAddress a))
    (hfound : found pg T now a = []) : ¬ ReportsListing pg T now ip := by
  intro hreports
  obtain ⟨row, hrow, hrep, htype, hvalue⟩ := hlisted
  obtain ⟨b, hb, hsame⟩ := Option.map_eq_some_iff.1 hvalue
  obtain ⟨-, hall⟩ := (listed_iff pg T now ip).1 hreports a hparse
  obtain ⟨other, hother, hrep', hlists, -⟩ :=
    hall row ⟨hrow, hrep, Or.inl ⟨htype, b, hb, hsame⟩⟩
  have hmem : other ∈ found pg T now a := mem_found.2 ⟨hother, hrep', hlists⟩
  rw [hfound] at hmem
  exact List.not_mem_nil hmem

/-- Two addresses of a text feed. -/
def twoAddresses : List (HttpFeedProvider × RawFeed) :=
  [(spamhausDrop, feedOf "2001:DB8::1\n198.51.100.7\n192.0.2.0/24")]

/-- The feed's IPv6 address in lower case, and its IPv4 address as a mapped one, are
reported as not listed. -/
theorem other_spelling_not_listed :
    ¬ ReportsListing standardPostgres
        (syncAll textEnv twoAddresses emptyStore).indicators 0 "2001:db8::1" ∧
      ¬ ReportsListing standardPostgres
        (syncAll textEnv twoAddresses emptyStore).indicators 0 "::ffff:198.51.100.7" := by
  constructor
  · refine not_reportsListing (a := .v6 0x20010db8000000000000000000000001) ?_ ?_ ?_
    · decide +kernel
    · decide +kernel
    · decide +kernel
  · refine not_reportsListing (a := .v6 0xffffc6336407) ?_ ?_ ?_
    · decide +kernel
    · decide +kernel
    · decide +kernel

end Clawforge.Reputation

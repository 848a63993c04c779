import Clawforge.Correlation.AlertGroups

/-!
# When the alert groups are the chains of events

A group's key joins two texts with a colon, the group is matched by its last arrival, and
its last sighting is that arrival's. So the groups are the chains of the events with exact
spans, in whatever order the events come, exactly if events that may join are of one source,
one type and one time (`groups_exact_iff`). In the order of their times it is enough that
events that may join are of one source and type (`exact_of_ascending`).
-/

namespace Clawforge.Correlation

open Kit List

section Statement

variable (rule : AlertRule) (events : List EventRecord)

/-- The events that the rule lets through. -/
def admitted : List EventRecord := events.filter rule.admits

/-- The events of a group. -/
def membersOf (g : AlertGroup) : Set EventRecord :=
  {e | e ∈ events ∧ e.eventId ∈ g.eventIds}

/-- A step of a chain. -/
def ChainStep (a b : EventRecord) : Prop :=
  a.source = b.source ∧ a.eventType = b.eventType ∧
    ((apart a.occurredAt b.occurredAt : Nat) : Int) ≤ rule.window

/-- Each event that passes is in one group and no other event in any, a group is of one
source and type, its span is that of its events, and chains decide who shares a group. -/
structure ExactGroups : Prop where
  once : ((groupAlertEvents rule events).flatMap AlertGroup.eventIds).Perm
    ((admitted rule events).map EventRecord.eventId)
  uniform : ∀ g ∈ groupAlertEvents rule events, ∀ a ∈ membersOf events g,
    ∀ b ∈ membersOf events g, a.source = b.source ∧ a.eventType = b.eventType
  span : ∀ g ∈ groupAlertEvents rule events,
    IsLeast (Set.image EventRecord.occurredAt (membersOf events g)) g.firstSeen ∧
      IsGreatest (Set.image EventRecord.occurredAt (membersOf events g)) g.lastSeen
  chains : ∀ a ∈ admitted rule events, ∀ b ∈ admitted rule events, a.source = b.source →
    a.eventType = b.eventType →
    ((∃ g ∈ groupAlertEvents rule events, a.eventId ∈ g.eventIds ∧ b.eventId ∈ g.eventIds) ↔
      Linked (ChainStep rule) (admitted rule events) a b)

/-- The same members, span and confidence. -/
def SameGroup (g h : AlertGroup) : Prop :=
  g.eventIds.Perm h.eventIds ∧ g.firstSeen = h.firstSeen ∧ g.lastSeen = h.lastSeen ∧
    g.confidence = h.confidence

/-- Every order of the events has the same set of groups. -/
def SameInEveryOrder : Prop :=
  ∀ events', events.Perm events' →
    (∀ g ∈ groupAlertEvents rule events, ∃ h ∈ groupAlertEvents rule events', SameGroup g h) ∧
    ∀ h ∈ groupAlertEvents rule events', ∃ g ∈ groupAlertEvents rule events, SameGroup g h

/-- Events that may join are of one source, one type and one time. -/
def Spread : Prop :=
  ∀ a ∈ admitted rule events, ∀ b ∈ admitted rule events, Joins rule a b →
    a.source = b.source ∧ a.eventType = b.eventType ∧ a.occurredAt = b.occurredAt

end Statement

section Proof

variable {rule : AlertRule} {events : List EventRecord} {g : AlertGroup}
  {c events' : List EventRecord} {a b : EventRecord}

/-! ## Groups and clusters -/

theorem exists_cluster_of_group (h : g ∈ groupAlertEvents rule events) :
    ∃ c ∈ clusters (Joins rule) (admitted rule events), summary rule c = some g := by
  have hall := groupAlertEvents_eq rule events
  unfold admitted
  generalize clusters (Joins rule) (events.filter rule.admits) = cs,
    groupAlertEvents rule events = gs at hall h ⊢
  induction hall with
  | nil => cases h
  | @cons c g' cs gs hfirst _ ih =>
    rcases mem_cons.1 h with rfl | h
    · exact ⟨c, mem_cons_self, hfirst⟩
    · obtain ⟨d, hd, hg⟩ := ih h
      exact ⟨d, mem_cons_of_mem _ hd, hg⟩

theorem exists_group_of_cluster (h : c ∈ clusters (Joins rule) (admitted rule events)) :
    ∃ g ∈ groupAlertEvents rule events, summary rule c = some g := by
  have hall := groupAlertEvents_eq rule events
  unfold admitted at h
  generalize clusters (Joins rule) (events.filter rule.admits) = cs,
    groupAlertEvents rule events = gs at hall h ⊢
  induction hall with
  | nil => cases h
  | @cons c' g cs gs hfirst _ ih =>
    rcases mem_cons.1 h with rfl | h
    · exact ⟨g, mem_cons_self, hfirst⟩
    · obtain ⟨g', hg', hsummary⟩ := ih h
      exact ⟨g', mem_cons_of_mem _ hg', hsummary⟩

theorem once_groups (rule : AlertRule) (events : List EventRecord) :
    ((groupAlertEvents rule events).flatMap AlertGroup.eventIds).Perm
      ((admitted rule events).map EventRecord.eventId) := by
  refine Perm.trans ?_ ((flatten_clusters_perm (R := Joins rule) _).map _)
  have hall := groupAlertEvents_eq rule events
  unfold admitted
  generalize clusters (Joins rule) (events.filter rule.admits) = cs,
    groupAlertEvents rule events = gs at hall ⊢
  induction hall with
  | nil => exact Perm.refl _
  | @cons c g cs gs hfirst _ ih =>
    rw [flatMap_cons, flatten_cons, map_append, (summary_spec hfirst).1]
    exact (reverse_perm _).append ih

theorem mem_of_admitted {e : EventRecord} (h : e ∈ admitted rule events) : e ∈ events :=
  mem_of_mem_filter h

theorem eq_of_eventId (hids : (events.map EventRecord.eventId).Nodup) (ha : a ∈ events)
    (hb : b ∈ events) (h : a.eventId = b.eventId) : a = b :=
  inj_on_of_nodup_map hids ha hb h

theorem mem_eventIds (hg : summary rule c = some g) (id : Uuid) :
    id ∈ g.eventIds ↔ ∃ e ∈ c, e.eventId = id := by
  rw [(summary_spec hg).1, mem_reverse, List.mem_map]

section

variable (hids : (events.map EventRecord.eventId).Nodup)
include hids

/-- The events of a group are those of its cluster. -/
theorem mem_membersOf_iff (hc : c ∈ clusters (Joins rule) (admitted rule events))
    (hg : summary rule c = some g) {e : EventRecord} : e ∈ membersOf events g ↔ e ∈ c := by
  constructor
  · rintro ⟨he, hid⟩
    obtain ⟨m, hm, hme⟩ := (mem_eventIds hg _).1 hid
    have hmem : m ∈ events := mem_of_admitted (mem_of_mem_cluster hc hm)
    exact eq_of_eventId hids hmem he hme ▸ hm
  · intro he
    exact ⟨mem_of_admitted (mem_of_mem_cluster hc he), (mem_eventIds hg _).2 ⟨e, he, rfl⟩⟩

theorem nodup_admitted : (admitted rule events).Nodup :=
  (Nodup.of_map _ hids).filter _

/-- Two events share a group if they share a cluster. -/
theorem share_group_iff (ha : a ∈ events) (hb : b ∈ events) :
    (∃ g ∈ groupAlertEvents rule events, a.eventId ∈ g.eventIds ∧ b.eventId ∈ g.eventIds) ↔
      ∃ c ∈ clusters (Joins rule) (admitted rule events), a ∈ c ∧ b ∈ c := by
  constructor
  · rintro ⟨g, hg, hag, hbg⟩
    obtain ⟨c, hc, hsummary⟩ := exists_cluster_of_group hg
    exact ⟨c, hc, (mem_membersOf_iff hids hc hsummary).1 ⟨ha, hag⟩,
      (mem_membersOf_iff hids hc hsummary).1 ⟨hb, hbg⟩⟩
  · rintro ⟨c, hc, hac, hbc⟩
    obtain ⟨g, hg, hsummary⟩ := exists_group_of_cluster hc
    exact ⟨g, hg, (mem_eventIds hsummary _).2 ⟨a, hac, rfl⟩,
      (mem_eventIds hsummary _).2 ⟨b, hbc, rfl⟩⟩

end

/-! ## Exact groups -/

theorem linked_congr {α : Type} {R S : α → α → Prop} {xs : List α}
    (h : ∀ a ∈ xs, ∀ b ∈ xs, R a b ↔ S a b) (a b : α) : Linked R xs a b ↔ Linked S xs a b := by
  constructor
  · exact Relation.ReflTransGen.mono
      (fun c d hstep => ⟨hstep.1, hstep.2.1, (h c hstep.1 d hstep.2.1).1 hstep.2.2⟩) a b
  · exact Relation.ReflTransGen.mono
      (fun c d hstep => ⟨hstep.1, hstep.2.1, (h c hstep.1 d hstep.2.1).2 hstep.2.2⟩) a b

theorem image_membersOf (hmembers : ∀ e, e ∈ membersOf events g ↔ e ∈ c) :
    Set.image EventRecord.occurredAt (membersOf events g) = {t | ∃ e ∈ c, e.occurredAt = t} := by
  ext t
  constructor
  · rintro ⟨e, he, rfl⟩
    exact ⟨e, (hmembers e).1 he, rfl⟩
  · rintro ⟨e, he, rfl⟩
    exact ⟨e, (hmembers e).2 he, rfl⟩

/-- Clusters that no link leads out of, whose newest event is also the latest, give exact
groups. -/
theorem exact_of_unlinked (hids : (events.map EventRecord.eventId).Nodup)
    (hkeys : ∀ a ∈ admitted rule events, ∀ b ∈ admitted rule events, Joins rule a b →
      a.source = b.source ∧ a.eventType = b.eventType)
    (hunlinked : (clusters (Joins rule) (admitted rule events)).Pairwise (Unlinked (Joins rule)))
    (hlatest : ∀ c ∈ clusters (Joins rule) (admitted rule events), ∀ y ∈ c.head?, ∀ e ∈ c,
      e.occurredAt ≤ y.occurredAt) : ExactGroups rule events where
  once := once_groups rule events
  uniform := by
    intro g hg a ha b hb
    obtain ⟨c, hc, hsummary⟩ := exists_cluster_of_group hg
    have hlinked := linked_of_cluster (fun _ _ => Joins.symm) hc
      ((mem_membersOf_iff hids hc hsummary).1 ha) ((mem_membersOf_iff hids hc hsummary).1 hb)
    induction hlinked with
    | refl => exact ⟨rfl, rfl⟩
    | tail hprev hstep ih =>
      have hmid : _ ∈ membersOf events g := (mem_membersOf_iff hids hc hsummary).2
        ((mem_cluster_iff (fun _ _ => Joins.symm) hunlinked (nodup_admitted hids) hc
          ((mem_membersOf_iff hids hc hsummary).1 ha)).2 hprev)
      have hsame := hkeys _ hstep.1 _ hstep.2.1 hstep.2.2
      exact ⟨(ih hmid).1.trans hsame.1, (ih hmid).2.trans hsame.2⟩
  span := by
    intro g hg
    obtain ⟨c, hc, hsummary⟩ := exists_cluster_of_group hg
    obtain ⟨-, -, ⟨y, hy, hlast⟩, hleast, -⟩ := summary_spec hsummary
    rw [image_membersOf (fun e => mem_membersOf_iff hids hc hsummary)]
    refine ⟨hleast, ⟨y, mem_of_head? hy, hlast.symm⟩, ?_⟩
    rintro t ⟨e, he, rfl⟩
    rw [hlast]
    exact hlatest c hc y hy e he
  chains := by
    intro a ha b hb _ _
    rw [share_group_iff hids (mem_of_admitted ha) (mem_of_admitted hb),
      same_cluster_iff (fun _ _ => Joins.symm) hunlinked ha]
    apply linked_congr
    intro c hc d hd
    constructor
    · intro hjoins
      obtain ⟨hsource, htype⟩ := hkeys c hc d hd hjoins
      exact ⟨hsource, htype, hjoins.2⟩
    · rintro ⟨hsource, htype, hnear⟩
      refine ⟨?_, hnear⟩
      rw [keyOf, keyOf, hsource, htype]

/-! ## Spread events -/

theorem Spread.perm (h : Spread rule events) (hperm : events.Perm events') :
    Spread rule events' := by
  have hmem : ∀ e, e ∈ admitted rule events ↔ e ∈ admitted rule events' :=
    fun _ => (hperm.filter rule.admits).mem_iff
  exact fun a ha b hb => h a ((hmem a).2 ha) b ((hmem b).2 hb)

theorem Spread.linked (h : Spread rule events)
    (hlinked : Linked (Joins rule) (admitted rule events) a b) :
    keyOf rule a = keyOf rule b ∧ a.occurredAt = b.occurredAt := by
  refine ⟨keyOf_of_linked hlinked, ?_⟩
  induction hlinked with
  | refl => rfl
  | tail _ hstep ih => exact ih.trans (h _ hstep.1 _ hstep.2.1 hstep.2.2).2.2

theorem Spread.unlinked (h : Spread rule events) :
    (clusters (Joins rule) (admitted rule events)).Pairwise (Unlinked (Joins rule)) := by
  refine clusters_unlinked (fun _ _ => Joins.symm) (fun _ _ => True)
    (pairwise_of_forall (fun _ _ => trivial)) ?_ ?_
  · intro z _ y _ x _ _ _ hlinked hzx
    obtain ⟨hkey, htime⟩ := h.linked hlinked
    exact ⟨hkey ▸ hzx.1, htime ▸ hzx.2⟩
  · intro y hy z hz x hx _ _ hyx hzx
    have htime : z.occurredAt = x.occurredAt := (h z hz x hx hzx).2.2
    exact ⟨hyx.1.trans hzx.1.symm, htime ▸ hyx.2⟩

theorem Spread.exact (h : Spread rule events) (hids : (events.map EventRecord.eventId).Nodup) :
    ExactGroups rule events := by
  refine exact_of_unlinked hids (fun a ha b hb hjoins => ?_) h.unlinked ?_
  · exact ⟨(h a ha b hb hjoins).1, (h a ha b hb hjoins).2.1⟩
  · intro c hc y hy e he
    exact (h.linked (linked_of_cluster (fun _ _ => Joins.symm) hc he
      (mem_of_head? hy))).2.le

/-- Exact groups of the same clusters are the same. -/
theorem sameGroup_of_perm {d : List EventRecord} {g' : AlertGroup}
    (hids : (events.map EventRecord.eventId).Nodup)
    (hids' : (events'.map EventRecord.eventId).Nodup) (hexact : ExactGroups rule events)
    (hexact' : ExactGroups rule events') (hc : c ∈ clusters (Joins rule) (admitted rule events))
    (hd : d ∈ clusters (Joins rule) (admitted rule events')) (hg : g ∈ groupAlertEvents rule events)
    (hg' : g' ∈ groupAlertEvents rule events') (hsummary : summary rule c = some g)
    (hsummary' : summary rule d = some g') (hperm : d.Perm c) : SameGroup g g' := by
  have hspan := hexact.span g hg
  have hspan' := hexact'.span g' hg'
  have htimes : {t | ∃ e ∈ d, e.occurredAt = t} = {t | ∃ e ∈ c, e.occurredAt = t} := by
    ext t
    exact exists_congr (fun e => and_congr_left (fun _ => hperm.mem_iff))
  rw [image_membersOf (fun e => mem_membersOf_iff hids hc hsummary)] at hspan
  rw [image_membersOf (fun e => mem_membersOf_iff hids' hd hsummary'), htimes] at hspan'
  obtain ⟨hlist, -, -, -, hconfidence⟩ := summary_spec hsummary
  obtain ⟨hlist', -, -, -, hconfidence'⟩ := summary_spec hsummary'
  refine ⟨?_, hspan.1.unique hspan'.1, hspan.2.unique hspan'.2, ?_⟩
  · rw [hlist, hlist']
    exact (reverse_perm _).trans ((hperm.symm.map _).trans (reverse_perm _).symm)
  · rw [hconfidence, hconfidence', hperm.length_eq]

/-- In an order of spread events each group comes back. -/
theorem Spread.exists_same (h : Spread rule events) (hids : (events.map EventRecord.eventId).Nodup)
    (hperm : events.Perm events') (hg : g ∈ groupAlertEvents rule events) :
    ∃ g' ∈ groupAlertEvents rule events', SameGroup g g' := by
  have hids' : (events'.map EventRecord.eventId).Nodup := (hperm.map _).nodup_iff.1 hids
  obtain ⟨c, hc, hsummary⟩ := exists_cluster_of_group hg
  obtain ⟨d, hd, hdc⟩ := exists_same_cluster (fun _ _ => Joins.symm) (hperm.filter rule.admits)
    (nodup_admitted hids) h.unlinked (h.perm hperm).unlinked hc
  obtain ⟨g', hg', hsummary'⟩ := exists_group_of_cluster hd
  exact ⟨g', hg', sameGroup_of_perm hids hids' (h.exact hids) ((h.perm hperm).exact hids') hc hd
    hg hg' hsummary hsummary' hdc⟩

theorem SameGroup.symm {h : AlertGroup} (hsame : SameGroup g h) : SameGroup h g :=
  ⟨hsame.1.symm, hsame.2.1.symm, hsame.2.2.1.symm, hsame.2.2.2.symm⟩

theorem Spread.sameInEveryOrder (h : Spread rule events)
    (hids : (events.map EventRecord.eventId).Nodup) : SameInEveryOrder rule events := by
  intro events' hperm
  refine ⟨fun g hg => h.exists_same hids hperm hg, fun g' hg' => ?_⟩
  obtain ⟨g, hg, hsame⟩ := (h.perm hperm).exists_same ((hperm.map _).nodup_iff.1 hids) hperm.symm
    hg'
  exact ⟨g, hg, hsame.symm⟩

/-! ## Events that are not spread -/

/-- Two events that may join share a group, as they do when they come first. -/
theorem share_group_of_joins (hids : (events.map EventRecord.eventId).Nodup)
    (hsame : SameInEveryOrder rule events) (ha : a ∈ admitted rule events)
    (hb : b ∈ admitted rule events) (hab : a ≠ b) (hjoins : Joins rule a b) :
    ∃ g ∈ groupAlertEvents rule events, a.eventId ∈ g.eventIds ∧ b.eventId ∈ g.eventIds := by
  have hperm : events.Perm (a :: b :: (events.erase a).erase b) := by
    have hb' : b ∈ events.erase a := (mem_erase_of_ne hab.symm).2 (mem_of_admitted hb)
    exact (perm_cons_erase (mem_of_admitted ha)).trans ((perm_cons_erase hb').cons a)
  have hids' := (hperm.map EventRecord.eventId).nodup_iff.1 hids
  have hfirst : ∃ c ∈ clusters (Joins rule)
      (admitted rule (a :: b :: (events.erase a).erase b)), a ∈ c ∧ b ∈ c := by
    have hadmitted : admitted rule (a :: b :: (events.erase a).erase b) =
        a :: b :: admitted rule ((events.erase a).erase b) := by
      rw [admitted, filter_cons_of_pos (mem_filter.1 ha).2,
        filter_cons_of_pos (mem_filter.1 hb).2]
      rfl
    rw [hadmitted]
    exact first_two_share hjoins _
  obtain ⟨h, hh, hah, hbh⟩ := (share_group_iff hids' (by simp) (by simp)).2 hfirst
  obtain ⟨g, hg, hgroup⟩ := (hsame _ hperm).2 h hh
  exact ⟨g, hg, hgroup.1.mem_iff.2 hah, hgroup.1.mem_iff.2 hbh⟩

/-- In the order of falling times the last arrival of a group is its earliest event. -/
theorem lastSeen_le_of_descending (hids : (events.map EventRecord.eventId).Nodup)
    (hdown : events.Pairwise (fun a b => b.occurredAt ≤ a.occurredAt))
    (hg : g ∈ groupAlertEvents rule events) {e : EventRecord} (he : e ∈ membersOf events g) :
    g.lastSeen ≤ e.occurredAt := by
  obtain ⟨c, hc, hsummary⟩ := exists_cluster_of_group hg
  obtain ⟨-, -, ⟨y, hy, hlast⟩, -, -⟩ := summary_spec hsummary
  have hmem := (mem_membersOf_iff hids hc hsummary).1 he
  have hup : c.Pairwise (fun a b => a.occurredAt ≤ b.occurredAt) :=
    (pairwise_reverse.2 (hdown.filter rule.admits)).sublist (cluster_sublist hc)
  rw [hlast]
  obtain ⟨newest, older, rfl⟩ := exists_cons_of_ne_nil (cluster_ne_nil hc)
  obtain rfl : newest = y := Option.some.inj hy
  rcases mem_cons.1 hmem with rfl | hmem
  · exact le_refl _
  · exact (pairwise_cons.1 hup).1 e hmem

theorem spread_of_exact (hids : (events.map EventRecord.eventId).Nodup)
    (hexact : ExactGroups rule events) (hsame : SameInEveryOrder rule events) :
    Spread rule events := by
  intro a ha b hb hjoins
  by_cases hab : a = b
  · exact hab ▸ ⟨rfl, rfl, rfl⟩
  obtain ⟨g, hg, hag, hbg⟩ := share_group_of_joins hids hsame ha hb hab hjoins
  have ham : a ∈ membersOf events g := ⟨mem_of_admitted ha, hag⟩
  have hbm : b ∈ membersOf events g := ⟨mem_of_admitted hb, hbg⟩
  obtain ⟨hsource, htype⟩ := hexact.uniform g hg a ham b hbm
  refine ⟨hsource, htype, ?_⟩
  -- the last sighting is the latest time here and the earliest in the falling order
  let down := events.insertionSort (fun a b => b.occurredAt ≤ a.occurredAt)
  have hperm : events.Perm down := (perm_insertionSort _ _).symm
  have hdown : down.Pairwise (fun a b => b.occurredAt ≤ a.occurredAt) :=
    pairwise_insertionSort _ _
  have hids' := (hperm.map EventRecord.eventId).nodup_iff.1 hids
  obtain ⟨h, hh, hgroup⟩ := (hsame down hperm).1 g hg
  have hequal : ∀ e ∈ membersOf events g, e.occurredAt = g.lastSeen := by
    intro e he
    apply Nat.le_antisymm
    · exact (hexact.span g hg).2.2 ⟨e, he, rfl⟩
    · rw [hgroup.2.2.1]
      exact lastSeen_le_of_descending hids' hdown hh
        ⟨hperm.mem_iff.1 he.1, hgroup.1.mem_iff.1 he.2⟩
  exact (hequal a ham).trans (hequal b hbm).symm

/-! ## Events in the order of their times -/

/-- Events that come in the order of their times are grouped by chains with exact spans, if
events that may join are of one source and type. -/
theorem exact_of_ascending (hids : (events.map EventRecord.eventId).Nodup)
    (hup : events.Pairwise (fun a b => a.occurredAt ≤ b.occurredAt))
    (hkeys : ∀ a ∈ admitted rule events, ∀ b ∈ admitted rule events, Joins rule a b →
      a.source = b.source ∧ a.eventType = b.eventType) : ExactGroups rule events := by
  have hadmitted : (admitted rule events).Pairwise (fun a b => a.occurredAt ≤ b.occurredAt) :=
    hup.filter rule.admits
  refine exact_of_unlinked hids hkeys ?_ ?_
  · refine clusters_unlinked (fun _ _ => Joins.symm)
      (fun a b => a.occurredAt ≤ b.occurredAt) hadmitted ?_ ?_
    · intro z _ y _ x _ hzy hyx hlinked ⟨hkey, hnear⟩
      have hle' : y.occurredAt ≤ x.occurredAt := hyx
      refine ⟨(keyOf_of_linked hlinked).symm.trans hkey, le_trans ?_ hnear⟩
      have hle : z.occurredAt ≤ y.occurredAt := hzy.elim (fun h => h ▸ le_refl _) id
      rw [apart_of_le hle', apart_of_le (hle.trans hle')]
      exact Int.ofNat_le.2 (Nat.sub_le_sub_left hle _)
    · intro y _ z _ x _ hyx hzx ⟨hkey, hnear⟩ ⟨hkey', hnear'⟩
      have hle : y.occurredAt ≤ x.occurredAt := hyx
      have hle' : z.occurredAt ≤ x.occurredAt := hzx
      refine ⟨hkey.trans hkey'.symm, ?_⟩
      rw [apart_of_le hle] at hnear
      rw [apart_of_le hle'] at hnear'
      rcases Nat.le_total y.occurredAt z.occurredAt with hyz | hzy
      · rw [apart_of_le hyz]
        exact le_trans (Int.ofNat_le.2 (Nat.sub_le_sub_right hle' _)) hnear
      · rw [apart_comm, apart_of_le hzy]
        exact le_trans (Int.ofNat_le.2 (Nat.sub_le_sub_right hle _)) hnear'
  · intro c hc y hy e he
    have hdown : c.Pairwise (fun a b => b.occurredAt ≤ a.occurredAt) :=
      (pairwise_reverse.2 hadmitted).sublist (cluster_sublist hc)
    obtain ⟨newest, older, rfl⟩ := exists_cons_of_ne_nil (cluster_ne_nil hc)
    obtain rfl : newest = y := Option.some.inj hy
    rcases mem_cons.1 he with rfl | he
    · exact le_refl _
    · exact (pairwise_cons.1 hdown).1 e he

end Proof

/-- The groups are exact, and the same in every order, exactly if the events are spread. -/
theorem groups_exact_iff {rule : AlertRule} {events : List EventRecord}
    (hids : (events.map EventRecord.eventId).Nodup) :
    (ExactGroups rule events ∧ SameInEveryOrder rule events) ↔ Spread rule events :=
  ⟨fun h => spread_of_exact hids h.1 h.2, fun h => ⟨h.exact hids, h.sameInEveryOrder hids⟩⟩

/-! ## Two sightings in falling order -/

def sighting (id : Uuid) (t : Instant) : EventRecord :=
  ⟨id, "provider_error", "docker", "medium", t, none, .null⟩

def minuteRule : AlertRule := ⟨some "docker", some "provider_error", seconds 60⟩

theorem groups_exact_iff_sightings :
    (ExactGroups minuteRule [sighting 1 0, sighting 2 0] ∧
      SameInEveryOrder minuteRule [sighting 1 0, sighting 2 0]) ↔
      Spread minuteRule [sighting 1 0, sighting 2 0] :=
  groups_exact_iff (by decide)

theorem exact_of_ascending_sightings :
    ExactGroups minuteRule [sighting 1 (seconds 10), sighting 2 (seconds 20)] := by
  refine exact_of_ascending (by decide) (by decide) fun a ha b hb _ => ?_
  have hsame : ∀ e ∈ admitted minuteRule [sighting 1 (seconds 10), sighting 2 (seconds 20)],
      e.source = "docker" ∧ e.eventType = "provider_error" := by decide
  rw [(hsame a ha).1, (hsame b hb).1, (hsame a ha).2, (hsame b hb).2]
  exact ⟨rfl, rfl⟩

/-- Ten seconds apart in falling order, the last sighting of the two is the earlier. -/
theorem falling_order_loses_span :
    groupAlertEvents minuteRule [sighting 2 (seconds 20), sighting 1 (seconds 10)] =
        [⟨"docker:provider_error", [2, 1], seconds 10, seconds 10, 63⟩] ∧
      ¬ ExactGroups minuteRule [sighting 2 (seconds 20), sighting 1 (seconds 10)] := by
  have hgroups : groupAlertEvents minuteRule [sighting 2 (seconds 20), sighting 1 (seconds 10)] =
      [⟨"docker:provider_error", [2, 1], seconds 10, seconds 10, 63⟩] := by decide
  refine ⟨hgroups, fun hexact => ?_⟩
  have hspan := (hexact.span ⟨"docker:provider_error", [2, 1], seconds 10, seconds 10, 63⟩
    (by rw [hgroups]; exact mem_singleton_self _)).2
  have hlate : seconds 20 ≤ seconds 10 :=
    hspan.2 ⟨sighting 2 (seconds 20), ⟨by simp, by simp [sighting]⟩, rfl⟩
  exact absurd hlate (by decide)

end Clawforge.Correlation

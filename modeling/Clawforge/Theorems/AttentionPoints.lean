import Clawforge.Api.Operations

/-!
# What the truncated views leave out

Of the points that it collects, `decision_attention_points` returns 50 of the highest priority.
A point is lost before the sort: behind the limit of a read, or as an event after the first
twenty important ones. `recent_events` takes the last twenty of the hundred latest events. So
the views keep what matters most exactly if no point that is not collected outranks the points
that are, and the twenty events are all there are or as recent as any (`truncated_views_iff`).
-/

namespace Kit

open List

section Ranked

variable {α : Type} {rank : α → Int}

/-- The elements of a rank come first in a list sorted by falling rank. -/
theorem countP_take_of_sorted {xs : List α} (h : xs.Pairwise (fun a b => rank b ≤ rank a))
    (r : Int) (n : Nat) :
    (xs.take n).countP (fun a => decide (r ≤ rank a)) =
      min n (xs.countP (fun a => decide (r ≤ rank a))) := by
  induction xs generalizing n with
  | nil => simp
  | cons a xs ih =>
    obtain ⟨hhead, htail⟩ := pairwise_cons.1 h
    cases n with
    | zero => simp
    | succ n =>
      rw [take_succ_cons, countP_cons, countP_cons, ih htail n]
      by_cases ha : r ≤ rank a
      · rw [if_pos (decide_eq_true ha)]
        omega
      · -- all that follow are of a lower rank
        have hnone : xs.countP (fun a => decide (r ≤ rank a)) = 0 := by
          refine countP_eq_zero.2 (fun b hb => ?_)
          have hle := hhead b hb
          simp only [decide_eq_true_eq]
          omega
        rw [hnone, if_neg (by simpa using ha)]
        omega

end Ranked

end Kit

namespace Clawforge.Operations

open IncidentReads Kit List

variable {db : OperationsDb} {s : Subject} {old : OperationsDb}

/-! ## Points -/

/-- The points of a store: its active incidents, the findings with a risk, and the important
events. -/
def subjects (db : OperationsDb) : List Subject :=
  incidentPoints db.incidents ++ findingPoints db.findings ++
    (db.events.filter isImportant).map .event

/-- The points that are collected from the reads. -/
def collected (db : OperationsDb) : List Subject :=
  collectedPoints (readIncidents db) (readFindings db) (readEvents db)

/-- The points that are returned. -/
def attention (db : OperationsDb) : List Subject :=
  decisionAttentionPoints (readIncidents db) (readFindings db) (readEvents db)

/-- A point is left out only for 50 points of at least its priority. -/
def KeepsAttention (db : OperationsDb) : Prop :=
  ∀ s ∈ subjects db, s ∉ attention db →
    50 ≤ (attention db).countP (fun t => decide (s.rank ≤ t.rank))

/-- The points in the order of their priority. -/
def ranked (db : OperationsDb) : List Subject :=
  (collected db).mergeSort (fun a b => decide (b.rank ≤ a.rank))

theorem ranked_perm (db : OperationsDb) : (ranked db).Perm (collected db) :=
  mergeSort_perm _ _

theorem ranked_sorted (db : OperationsDb) :
    (ranked db).Pairwise (fun a b => b.rank ≤ a.rank) := by
  have hsorted : (ranked db).Pairwise (fun a b => decide (b.rank ≤ a.rank) = true) := by
    refine pairwise_mergeSort ?_ ?_ (collected db)
    · intro a b c hab hbc
      exact decide_eq_true ((of_decide_eq_true hbc).trans (of_decide_eq_true hab))
    · intro a b
      rw [Bool.or_eq_true, decide_eq_true_eq, decide_eq_true_eq]
      exact le_total _ _
  exact hsorted.imp of_decide_eq_true

theorem countP_attention (db : OperationsDb) (r : Int) :
    (attention db).countP (fun t => decide (r ≤ t.rank)) =
      min 50 ((collected db).countP (fun t => decide (r ≤ t.rank))) := by
  rw [← (ranked_perm db).countP_eq]
  exact countP_take_of_sorted (ranked_sorted db) r 50

theorem length_attention (db : OperationsDb) : (attention db).length ≤ 50 :=
  length_take_le _ _

/-- A point that is collected and not returned stands behind 50 others. -/
theorem outranked_of_collected (hs : s ∈ collected db) (hout : s ∉ attention db) :
    50 ≤ (attention db).countP (fun t => decide (s.rank ≤ t.rank)) := by
  have hmem : s ∈ (ranked db).take 50 ++ (ranked db).drop 50 := by
    rw [take_append_drop]
    exact (ranked_perm db).mem_iff.2 hs
  have hdrop : s ∈ (ranked db).drop 50 := (mem_append.1 hmem).resolve_left hout
  have hsorted := ranked_sorted db
  rw [← take_append_drop 50 (ranked db)] at hsorted
  have hall : ∀ t ∈ attention db, s.rank ≤ t.rank := fun t ht =>
    (pairwise_append.1 hsorted).2.2 t ht s hdrop
  have hlong : 50 ≤ (ranked db).length := by
    by_contra hshort
    rw [drop_eq_nil_of_le (by omega)] at hdrop
    cases hdrop
  rw [countP_eq_length.2 (fun t ht => decide_eq_true (hall t ht))]
  exact (length_take_of_le hlong).ge

theorem mem_attention_of_short (hshort : (collected db).length ≤ 50) :
    s ∈ attention db ↔ s ∈ collected db := by
  have hall : attention db = ranked db :=
    take_of_length_le ((ranked_perm db).length_eq ▸ hshort)
  rw [hall]
  exact (ranked_perm db).mem_iff

theorem mem_collected_of_attention (hs : s ∈ attention db) : s ∈ collected db :=
  (ranked_perm db).mem_iff.1 (mem_of_mem_take hs)

/-- No point that the reads pass over outranks those that are collected, up to the 50th. -/
def NoneOutranks (db : OperationsDb) : Prop :=
  ∀ s ∈ subjects db, s ∉ collected db →
    50 ≤ (collected db).countP (fun t => decide (s.rank ≤ t.rank))

theorem keepsAttention_iff (db : OperationsDb) : KeepsAttention db ↔ NoneOutranks db := by
  constructor
  · intro hkeeps s hs hout
    have hcount := hkeeps s hs (fun h => hout (mem_collected_of_attention h))
    rw [countP_attention] at hcount
    exact hcount.trans (min_le_right _ _)
  · intro hnone s hs hout
    by_cases hcollected : s ∈ collected db
    · exact outranked_of_collected hcollected hout
    · rw [countP_attention]
      exact le_min le_rfl (hnone s hs hcollected)

/-! ## Recent events -/

/-- An event is left out only for twenty events that are at least as recent. -/
def KeepsRecent (db : OperationsDb) : Prop :=
  ∀ e ∈ db.events, e ∉ recentEvents db →
    20 ≤ (recentEvents db).countP (fun r => decide (e.occurredAt ≤ r.occurredAt))

/-- There are no more than twenty events, or the latest hundred happened at one time. -/
def RecentOrFew (db : OperationsDb) : Prop :=
  db.events.length ≤ 20 ∨
    ∀ a ∈ readEvents db, ∀ b ∈ readEvents db, a.occurredAt = b.occurredAt

theorem length_recentEvents (h : 20 < db.events.length) : (recentEvents db).length = 20 := by
  unfold recentEvents readEvents
  rw [length_take, length_reverse, length_take]
  omega

theorem mem_readEvents_of_recent {e : EventRow} (h : e ∈ recentEvents db) : e ∈ readEvents db :=
  mem_reverse.1 (mem_of_mem_take h)

/-- Nothing is more recent than what the read returns first. -/
theorem newest_le {first : EventRow} {rest : List EventRow} (h : db.events = first :: rest)
    {e : EventRow} (he : e ∈ db.events) : e.occurredAt ≤ first.occurredAt := by
  have hordered := db.eventsNewestFirst
  rw [h] at hordered he
  rcases mem_cons.1 he with rfl | he
  · exact le_rfl
  · exact (pairwise_cons.1 hordered).1 e he

theorem keepsRecent_iff (db : OperationsDb) : KeepsRecent db ↔ RecentOrFew db := by
  constructor
  · intro hkeeps
    by_cases hfew : db.events.length ≤ 20
    · exact .inl hfew
    refine .inr ?_
    obtain ⟨first, rest, hevents⟩ : ∃ first rest, db.events = first :: rest :=
      exists_cons_of_ne_nil (fun hnil => hfew (by rw [hnil]; exact Nat.zero_le _))
    have hlength : 20 < (first :: rest).length := by
      rw [← hevents]
      omega
    have hread : readEvents db = first :: rest.take 99 := by
      unfold readEvents
      rw [hevents]
      rfl
    have hrecent : recentEvents db = (rest.take 99).reverse.take 20 := by
      unfold recentEvents
      rw [hread, reverse_cons, take_append_of_le_length]
      rw [length_reverse, length_take]
      rw [length_cons] at hlength
      omega
    -- the newest event is not returned
    have hout : first ∉ recentEvents db := by
      intro hmem
      rw [hrecent] at hmem
      have hnodup := db.eventsDistinct
      rw [hevents, map_cons] at hnodup
      exact (nodup_cons.1 hnodup).1 (List.mem_map_of_mem
        (mem_of_mem_take (mem_reverse.1 (mem_of_mem_take hmem))))
    have hcount := hkeeps first (hevents ▸ mem_cons_self) hout
    have hall : ∀ r ∈ recentEvents db, first.occurredAt ≤ r.occurredAt := by
      have hfull : (recentEvents db).length = 20 := length_recentEvents (by omega)
      intro r hr
      exact of_decide_eq_true (countP_eq_length.1
        (le_antisymm countP_le_length (hfull.le.trans hcount)) r hr)
    -- the oldest event that is read is returned first
    obtain ⟨last, hlast⟩ : ∃ last, (readEvents db).reverse.head? = some last :=
      Option.isSome_iff_exists.1 (by
        rw [isSome_head?]
        simp [hread])
    obtain ⟨before, hreverse⟩ := head?_eq_some_iff.1 hlast
    have hreturned : last ∈ recentEvents db := by
      unfold recentEvents
      rw [hreverse]
      exact mem_cons_self
    have holdest : ∀ a ∈ readEvents db, last.occurredAt ≤ a.occurredAt := by
      have hordered : (readEvents db).reverse.Pairwise (fun a b => a.occurredAt ≤ b.occurredAt) :=
        pairwise_reverse.2 (db.eventsNewestFirst.sublist (take_sublist _ _))
      rw [hreverse] at hordered
      intro a ha
      have hmem : a ∈ last :: before := by
        rw [← hreverse]
        exact mem_reverse.2 ha
      rcases mem_cons.1 hmem with rfl | hmem
      · exact le_rfl
      · exact (pairwise_cons.1 hordered).1 a hmem
    have htime : ∀ a ∈ readEvents db, a.occurredAt = last.occurredAt := fun a ha =>
      le_antisymm ((newest_le hevents (mem_of_mem_take ha)).trans (hall last hreturned))
        (holdest a ha)
    intro a ha b hb
    rw [htime a ha, htime b hb]
  · rintro (hfew | hequal) e he hout
    · refine absurd ?_ hout
      unfold recentEvents readEvents
      rw [take_of_length_le (l := db.events) (by omega),
        take_of_length_le (by rw [length_reverse]; exact hfew)]
      exact mem_reverse.2 he
    · have hmany : 20 < db.events.length := by
        by_contra hfew
        refine hout ?_
        unfold recentEvents readEvents
        rw [take_of_length_le (l := db.events) (by omega),
          take_of_length_le (by rw [length_reverse]; omega)]
        exact mem_reverse.2 he
      have hold : ∀ r ∈ readEvents db, e.occurredAt ≤ r.occurredAt := by
        intro r hr
        have hmem : e ∈ db.events.take 100 ++ db.events.drop 100 := by
          rw [take_append_drop]
          exact he
        rcases mem_append.1 hmem with hread | hrest
        · exact (hequal e hread r hr).le
        · have hordered := db.eventsNewestFirst
          rw [← take_append_drop 100 db.events] at hordered
          exact (pairwise_append.1 hordered).2.2 r hr e hrest
      rw [countP_eq_length.2 (fun r hr =>
        decide_eq_true (hold r (mem_readEvents_of_recent hr))), length_recentEvents hmany]

/-! ## Additions -/

/-- `db` is `old` with one more incident, indicator or event. -/
inductive Added (old db : OperationsDb) : Prop
  | incident {before i after} : old.incidents = before ++ after →
      db.incidents = before ++ i :: after → db.findings = old.findings → db.events = old.events →
      Added old db
  | finding {before f after} : old.findings = before ++ after →
      db.findings = before ++ f :: after → db.incidents = old.incidents → db.events = old.events →
      Added old db
  | event {before e after} : old.events = before ++ after →
      db.events = before ++ e :: after → db.incidents = old.incidents →
      db.findings = old.findings → Added old db

/-- No returned point goes while a point of a lower priority is returned. -/
def KeepsHigher (old db : OperationsDb) : Prop :=
  ∀ s ∈ attention old, s ∉ attention db → ∀ t ∈ attention db, s.rank ≤ t.rank

theorem Added.sublists (h : Added old db) :
    old.incidents.Sublist db.incidents ∧ old.findings.Sublist db.findings ∧
      old.events.Sublist db.events := by
  cases h with
  | incident hold hnew hfindings hevents =>
    rw [hold, hnew, hfindings, hevents]
    exact ⟨(sublist_cons_self _ _).append_left _, .refl _, .refl _⟩
  | finding hold hnew hincidents hevents =>
    rw [hold, hnew, hincidents, hevents]
    exact ⟨.refl _, (sublist_cons_self _ _).append_left _, .refl _⟩
  | event hold hnew hincidents hfindings =>
    rw [hold, hnew, hincidents, hfindings]
    exact ⟨.refl _, .refl _, (sublist_cons_self _ _).append_left _⟩

/-- What is collected is a point of the store. -/
theorem collected_sublist (db : OperationsDb) : (collected db).Sublist (subjects db) := by
  unfold collected collectedPoints subjects incidentPoints findingPoints contextImportantEvents
  refine Sublist.append (Sublist.append ?_ ?_) ?_
  · exact ((take_sublist _ _).filter _).map _
  · exact (take_sublist _ _).filterMap _
  · exact ((take_sublist _ _).trans ((take_sublist _ _).filter _)).map _

theorem subjects_mono (h : Added old db) : (subjects old).Sublist (subjects db) := by
  obtain ⟨hincidents, hfindings, hevents⟩ := h.sublists
  unfold subjects incidentPoints findingPoints
  exact ((hincidents.filter _).map _).append (hfindings.filterMap _) |>.append
    ((hevents.filter _).map _)

theorem KeepsAttention.keepsHigher (h : KeepsAttention db) (hadded : Added old db) :
    KeepsHigher old db := by
  intro s hs hout t ht
  have hsubject : s ∈ subjects db := (subjects_mono hadded).subset
    ((collected_sublist old).subset (mem_collected_of_attention hs))
  have hcount := h s hsubject hout
  exact of_decide_eq_true (countP_eq_length.1
    (le_antisymm countP_le_length ((length_attention db).trans hcount)) t ht)

/-- The truncated views keep what matters most if and only if no point that the reads pass over
outranks the points that are collected, and the events that are read last are all the events or
as recent as any. -/
theorem truncated_views_iff (db : OperationsDb) :
    (KeepsAttention db ∧ KeepsRecent db ∧ ∀ old, Added old db → KeepsHigher old db) ↔
      NoneOutranks db ∧ RecentOrFew db := by
  rw [← keepsAttention_iff, ← keepsRecent_iff]
  constructor
  · rintro ⟨hattention, hrecent, -⟩
    exact ⟨hattention, hrecent⟩
  · rintro ⟨hattention, hrecent⟩
    exact ⟨hattention, hrecent, fun old hadded => hattention.keepsHigher hadded⟩

/-! ### Twenty-one important events -/

/-- The first event is the only critical one. -/
def eventAt (i : Nat) : EventRow :=
  ⟨i, "NetworkAlert", "suricata", if i = 0 then "critical" else "high", i, none, .null, .null, i⟩

def eventsDb (events : List EventRow)
    (hordered : events.Pairwise (fun a b => b.occurredAt ≤ a.occurredAt))
    (hdistinct : (events.map EventRow.eventId).Nodup) : OperationsDb :=
  ⟨[], [], events, [], [], [], true, [], hordered, hdistinct⟩

def twentyEvents : OperationsDb :=
  eventsDb ((List.range 20).reverse.map eventAt) (by decide) (by decide)

def twentyOneEvents : OperationsDb :=
  eventsDb ((List.range 21).reverse.map eventAt) (by decide) (by decide)

/-- The critical event was returned, and one more event of a lower priority takes its place; the
newest event is not among the recent ones. -/
theorem critical_event_lost :
    Added twentyEvents twentyOneEvents ∧ ¬ KeepsHigher twentyEvents twentyOneEvents ∧
      ¬ KeepsAttention twentyOneEvents ∧ ¬ KeepsRecent twentyOneEvents := by
  have hadded : Added twentyEvents twentyOneEvents :=
    @Added.event _ _ [] (eventAt 20) twentyEvents.events rfl rfl rfl rfl
  have hbefore : Subject.event (eventAt 0) ∈ attention twentyEvents := by
    rw [mem_attention_of_short (by decide)]
    decide
  have hafter : Subject.event (eventAt 0) ∉ attention twentyOneEvents := by
    rw [mem_attention_of_short (by decide)]
    decide
  have hother : Subject.event (eventAt 1) ∈ attention twentyOneEvents := by
    rw [mem_attention_of_short (by decide)]
    decide
  have hlower : ¬ KeepsHigher twentyEvents twentyOneEvents := by
    intro hkeeps
    have hrank := hkeeps _ hbefore hafter _ hother
    revert hrank
    decide
  refine ⟨hadded, hlower, fun hkeeps => hlower (hkeeps.keepsHigher hadded), ?_⟩
  rw [keepsRecent_iff]
  rintro (hfew | hequal)
  · revert hfew
    decide
  · have htime := hequal (eventAt 20) (by decide) (eventAt 0) (by decide)
    revert htime
    decide

end Clawforge.Operations

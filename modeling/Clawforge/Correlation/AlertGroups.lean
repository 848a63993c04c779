import Clawforge.Correlation.Engine
import Clawforge.Kit.FirstFit

/-!
# Alert groups

`group_alert_events`: one pass over the events that a rule lets through, each into the first
group of its key that was last seen within the rule's window. The groups are the summaries
of first-fit clusters of the events (`groupAlertEvents_eq`).
-/

namespace Clawforge.Correlation

open Kit List

structure AlertRule where
  source : Option String
  errorClass : Option String
  window : Int
deriving DecidableEq

structure AlertGroup where
  groupKey : String
  eventIds : List Uuid
  firstSeen : Instant
  lastSeen : Instant
  confidence : Nat
deriving DecidableEq

variable (rule : AlertRule)

/-- The rule's filter. -/
def AlertRule.admits (e : EventRecord) : Bool :=
  rule.source.all (fun source => source = e.source) &&
    rule.errorClass.all (fun errorClass => e.eventType = errorClass)

/-- `format!("{}:{}", ..)` of the rule's or else the event's source and type. -/
def keyOf (e : EventRecord) : String :=
  rule.source.getD e.source ++ ":" ++ rule.errorClass.getD e.eventType

/-- The group takes the event. -/
def AlertGroup.takes (g : AlertGroup) (e : EventRecord) : Bool :=
  g.groupKey = keyOf rule e && ((apart e.occurredAt g.lastSeen : Nat) : Int) ≤ rule.window

def AlertGroup.push (g : AlertGroup) (e : EventRecord) : AlertGroup :=
  { g with
    lastSeen := e.occurredAt
    firstSeen := min g.firstSeen e.occurredAt
    eventIds := g.eventIds ++ [e.eventId]
    confidence := min (min (g.confidence + 3) 255) 100 }

/-- The group of an event alone. -/
def AlertGroup.start (e : EventRecord) : AlertGroup where
  groupKey := keyOf rule e
  eventIds := [e.eventId]
  firstSeen := e.occurredAt
  lastSeen := e.occurredAt
  confidence := 60

/-- One turn of the loop: the first group that takes the event, or a new one. -/
def groupEvent (e : EventRecord) : List AlertGroup → List AlertGroup
  | [] => [AlertGroup.start rule e]
  | g :: gs => if g.takes rule e then g.push e :: gs else g :: groupEvent e gs

def groupAlertEvents (events : List EventRecord) : List AlertGroup :=
  (events.filter rule.admits).foldl (fun groups e => groupEvent rule e groups) []

/-! ## Clusters of events -/

/-- The later of two events joins the group that the earlier was the last to join. -/
def Joins (a b : EventRecord) : Prop :=
  keyOf rule a = keyOf rule b ∧ ((apart a.occurredAt b.occurredAt : Nat) : Int) ≤ rule.window

instance : DecidableRel (Joins rule) :=
  fun _ _ => inferInstanceAs (Decidable (_ ∧ _))

/-- The group of the events of a cluster, the newest first. -/
def summary : List EventRecord → Option AlertGroup
  | [] => none
  | [e] => some (AlertGroup.start rule e)
  | e :: older => (summary older).map (fun g => g.push e)

theorem apart_comm (a b : Instant) : apart a b = apart b a := by
  rw [apart, apart, max_comm, min_comm]

theorem apart_of_le {a b : Instant} (h : a ≤ b) : apart a b = b - a := by
  rw [apart, max_eq_right h, min_eq_left h]

variable {rule}

theorem Joins.symm {a b : EventRecord} (h : Joins rule a b) : Joins rule b a := by
  refine ⟨h.1.symm, ?_⟩
  rw [apart_comm]
  exact h.2

theorem keyOf_of_linked {xs : List EventRecord} {a b : EventRecord}
    (h : Linked (Joins rule) xs a b) : keyOf rule a = keyOf rule b := by
  induction h with
  | refl => rfl
  | tail _ hstep ih => exact ih.trans hstep.2.2.1

theorem summary_cons (e : EventRecord) {older : List EventRecord} (h : older ≠ []) :
    summary rule (e :: older) = (summary rule older).map (fun g => g.push e) := by
  cases older with
  | nil => exact absurd rfl h
  | cons => rfl

/-- What a summary says of its cluster. -/
theorem summary_spec {c : List EventRecord} {g : AlertGroup} (h : summary rule c = some g) :
    g.eventIds = (c.map EventRecord.eventId).reverse ∧
      (∃ e ∈ c.getLast?, g.groupKey = keyOf rule e) ∧
      (∃ e ∈ c.head?, g.lastSeen = e.occurredAt) ∧
      IsLeast {t | ∃ e ∈ c, e.occurredAt = t} g.firstSeen ∧
      g.confidence = min (57 + 3 * c.length) 100 := by
  induction c generalizing g with
  | nil => cases h
  | cons e older ih =>
    cases older with
    | nil =>
      obtain rfl := Option.some.inj h
      refine ⟨rfl, ⟨e, rfl, rfl⟩, ⟨e, rfl, rfl⟩, ⟨⟨e, mem_cons_self, rfl⟩, ?_⟩, rfl⟩
      rintro t ⟨e', he', rfl⟩
      rw [mem_singleton.1 he']
      exact le_refl e.occurredAt
    | cons e' older =>
      rw [summary_cons e (cons_ne_nil _ _)] at h
      obtain ⟨g', hg', rfl⟩ := Option.map_eq_some_iff.1 h
      obtain ⟨hids, hkey, -, ⟨⟨m, hm, hmin⟩, hleast⟩, hconfidence⟩ := ih hg'
      refine ⟨?_, ?_, ⟨e, rfl, rfl⟩, ⟨?_, ?_⟩, ?_⟩
      · show g'.eventIds ++ [e.eventId] = _
        rw [hids, map_cons, map_cons, map_cons, reverse_cons (a := e.eventId)]
      · rw [getLast?_cons_cons]
        exact hkey
      · rcases min_choice g'.firstSeen e.occurredAt with hold | hnew
        · exact ⟨m, mem_cons_of_mem _ hm, hmin.trans hold.symm⟩
        · exact ⟨e, mem_cons_self, hnew.symm⟩
      · rintro t ⟨d, hd, rfl⟩
        rcases mem_cons.1 hd with rfl | hd
        · exact min_le_right _ _
        · exact (min_le_left _ _).trans (hleast ⟨d, hd, rfl⟩)
      · show min (min (g'.confidence + 3) 255) 100 = _
        rw [hconfidence, length_cons, length_cons, length_cons]
        omega

/-- A group takes an event as the newest event of its cluster accepts it. -/
theorem takes_iff {c : List EventRecord} {g : AlertGroup} (h : summary rule c = some g)
    (hkeys : ∀ a ∈ c, ∀ b ∈ c, keyOf rule a = keyOf rule b) (e : EventRecord) :
    g.takes rule e = true ↔ ∃ y ∈ c.head?, Joins rule y e := by
  obtain ⟨-, ⟨last, hlast, hkey⟩, ⟨newest, hnewest, hseen⟩, -, -⟩ := summary_spec h
  have hsame : keyOf rule last = keyOf rule newest :=
    hkeys last (mem_of_getLast? hlast) newest (mem_of_head? hnewest)
  rw [AlertGroup.takes, Bool.and_eq_true, decide_eq_true_eq, decide_eq_true_eq, hkey, hsame, hseen,
    apart_comm]
  constructor
  · exact fun haccepts => ⟨newest, hnewest, haccepts⟩
  · rintro ⟨y, hy, haccepts⟩
    obtain rfl : newest = y := Option.some.inj (hnewest.symm.trans hy)
    exact haccepts

theorem groupEvent_eq {cs : List (List EventRecord)} {gs : List AlertGroup} {e : EventRecord}
    (h : Forall₂ (fun c g => summary rule c = some g) cs gs)
    (hkeys : ∀ c ∈ cs, ∀ a ∈ c, ∀ b ∈ c, keyOf rule a = keyOf rule b) :
    Forall₂ (fun c g => summary rule c = some g) (place (Joins rule) e cs)
      (groupEvent rule e gs) := by
  induction h with
  | nil => exact Forall₂.cons rfl Forall₂.nil
  | @cons c g cs gs hfirst hrest ih =>
    have htakes := takes_iff hfirst (hkeys c mem_cons_self) e
    rw [place, groupEvent]
    by_cases haccepts : ∃ y ∈ c.head?, Joins rule y e
    · rw [if_pos haccepts, if_pos (htakes.2 haccepts)]
      have hne : c ≠ [] := by
        rintro rfl
        cases hfirst
      refine Forall₂.cons ?_ hrest
      rw [summary_cons e hne, hfirst, Option.map_some]
    · rw [if_neg haccepts, if_neg (fun ht => haccepts (htakes.1 ht))]
      exact Forall₂.cons hfirst (ih (fun d hd => hkeys d (mem_cons_of_mem _ hd)))

/-- The groups summarise the clusters. -/
theorem groupAlertEvents_eq (rule : AlertRule) (events : List EventRecord) :
    Forall₂ (fun c g => summary rule c = some g)
      (clusters (Joins rule) (events.filter rule.admits)) (groupAlertEvents rule events) := by
  rw [groupAlertEvents]
  induction events.filter rule.admits using reverseRecOn with
  | nil => exact Forall₂.nil
  | append_singleton xs e ih =>
    rw [clusters_snoc, foldl_append]
    exact groupEvent_eq ih (fun c hc a ha b hb =>
      keyOf_of_linked (linked_of_cluster (fun _ _ => Joins.symm) hc ha hb))

end Clawforge.Correlation

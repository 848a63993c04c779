import Clawforge.Storage.Alerts
import Mathlib

/-!
# What a live alert says of its group

The first creation of a group that can insert decides the severity; every later
one is counted, a repeated source event too, and raises only the confidence. So
the alert stands for its events in every order of the calls exactly if all of
them that can insert have the greatest severity and no source event is counted
twice.
-/

namespace Clawforge.Alerts

open Kit EventDelivery Table List Option

/-! ## The aggregate of the calls -/

def maxSeverity (cs : List CreateCall) : String :=
  if ∃ c ∈ cs, c.event.severity = "critical" then "critical" else "high"

def maxConfidence (cs : List CreateCall) : Nat := (cs.map fun c => c.event.confidence).foldr max 0

/-- The number of distinct source events. -/
def distinctEvents (cs : List CreateCall) : Nat :=
  (cs.map fun c => c.event.sourceEventId).dedup.length

/-- The live alerts of a group. -/
def liveIn (T : Table Alert.id) (group : String) : List Alert :=
  T.rows.filter fun a => InGroup group a

/-- The group has one live alert, which stands for these calls. -/
structure StandsFor (cs : List CreateCall) (group : String) (T : Table Alert.id) : Prop where
  stands : ∃ a, liveIn T group = [a] ∧ a.severity = maxSeverity cs ∧
    a.confidence = maxConfidence cs ∧ a.eventCount = distinctEvents cs

/-- The insertion of a call cannot store its row: the dedupe key or the drawn id is taken. -/
def Blocked (T : Table Alert.id) (c : CreateCall) : Prop :=
  (∃ a ∈ T.rows, a.dedupeKey = c.event.dedupeKey) ∨ ∃ a ∈ T.rows, a.id = c.id

instance (T : Table Alert.id) : DecidablePred (Blocked T) :=
  fun _ => inferInstanceAs (Decidable (_ ∨ _))

/-! ## One call -/

/-- An update that keeps its own condition updates what the condition selects. -/
theorem filter_map_update {α : Type} {p : α → Prop} [DecidablePred p] {f : α → α}
    (hf : ∀ a, p a → p (f a)) (l : List α) :
    (l.map fun a => if p a then f a else a).filter (fun a => p a) =
      (l.filter fun a => p a).map f := by
  induction l with
  | nil => rfl
  | cons a l ih =>
    by_cases h : p a
    · simp [h, hf a h, ih]
    · simp [h, ih]

variable {T : Table Alert.id} {c : CreateCall} {group : String} {cs : List CreateCall}

theorem countInGroup_none_live (hgroup : c.event.groupKey = group) (hlive : liveIn T group = []) :
    countInGroup T c.event c.now = some (0, T) := by
  have hnone : ∀ a ∈ T.rows, ¬ InGroup c.event.groupKey a := by
    intro a ha hin
    rw [hgroup] at hin
    have hmem : a ∈ liveIn T group := mem_filter.mpr ⟨ha, decide_eq_true hin⟩
    rw [hlive] at hmem
    exact not_mem_nil hmem
  have hsame : T.updateWhere (InGroup c.event.groupKey) (countedRow c.event c.now)
      (fun _ => rfl) = T :=
    updateWhere_eq_self hnone
  have hlength : (T.rows.filter fun a => InGroup c.event.groupKey a).length = 0 := by
    rw [hgroup]
    exact congrArg List.length hlive
  rw [countInGroup, if_pos fun a ha hin => absurd hin (hnone a ha), hsame, hlength]

/-- Where the group has no live alert, a blocked call leaves the table. -/
theorem create_blocked (hgroup : c.event.groupKey = group) (hlive : liveIn T group = [])
    (hblocked : Blocked T c) : createAlertForEvent T c = T := by
  unfold createAlertForEvent
  split
  · rfl
  rw [countInGroup_none_live hgroup hlive]
  simp only [lt_irrefl, if_false]
  by_cases hkey : ∃ a ∈ T.rows, a.dedupeKey = c.event.dedupeKey
  · simp only [insertAlert, if_pos hkey]
  · obtain ⟨a, ha, hid⟩ := hblocked.resolve_left hkey
    have hnone : T.insert? (newAlert c.event c.id c.now) = none := by
      rw [← not_isSome_iff_eq_none, insert?_isSome]
      exact fun hfree => hfree a ha hid
    simp only [insertAlert, if_neg hkey, hnone, map_none]

/-- The delivery status is no part of what an alert says of its group. -/
theorem liveIn_setDelivery (T : Table Alert.id) (id : Uuid) (hasDelivery : Bool) (group : String) :
    ∃ f : Alert → Alert, liveIn (setDelivery T id hasDelivery) group = (liveIn T group).map f ∧
      ∀ a, (f a).severity = a.severity ∧ (f a).confidence = a.confidence ∧
        (f a).eventCount = a.eventCount := by
  cases hasDelivery with
  | true => exact ⟨fun a => a, (List.map_id' _).symm, fun a => ⟨rfl, rfl, rfl⟩⟩
  | false =>
    refine ⟨fun a => if a.id = id then { a with notConfigured := true } else a, ?_, fun a => ?_⟩
    · show List.filter _ (T.rows.map _) = _
      rw [List.filter_map]
      congr 1
      refine filter_congr fun a _ => ?_
      simp only [Function.comp_apply, decide_eq_decide]
      split
      · exact Iff.rfl
      · exact Iff.rfl
    · dsimp only
      split
      · exact ⟨rfl, rfl, rfl⟩
      · exact ⟨rfl, rfl, rfl⟩

/-- A call that inserts makes the live alert of its group. -/
theorem create_first (halerting : c.event.alerting = true) (hgroup : c.event.groupKey = group)
    (hlive : liveIn T group = []) (hfree : ¬ Blocked T c) :
    ∃ a, liveIn (createAlertForEvent T c) group = [a] ∧ a.severity = c.event.severity ∧
      a.confidence = c.event.confidence ∧ a.eventCount = 1 := by
  obtain ⟨hkey, hid⟩ := not_or.mp hfree
  obtain ⟨T', hinsert⟩ : ∃ T', T.insert? (newAlert c.event c.id c.now) = some T' := by
    rw [← isSome_iff_exists, insert?_isSome]
    exact fun a ha heq => hid ⟨a, ha, heq⟩
  have hrows : T'.rows = T.rows ++ [newAlert c.event c.id c.now] := rows_insert? hinsert
  have hcreate : createAlertForEvent T c = setDelivery T' c.id c.hasDelivery := by
    unfold createAlertForEvent
    rw [halerting, countInGroup_none_live hgroup hlive]
    simp only [Bool.not_true, Bool.false_eq_true, if_false, lt_irrefl, insertAlert, if_neg hkey,
      hinsert, map_some]
  have hrow : InGroup group (newAlert c.event c.id c.now) := ⟨hgroup, rfl⟩
  have hlive' : liveIn T' group = [newAlert c.event c.id c.now] := by
    rw [liveIn, hrows, filter_append, ← liveIn, hlive, nil_append]
    simp only [filter_cons, hrow, decide_true, if_true, filter_nil]
  obtain ⟨f, hf, hsame⟩ := liveIn_setDelivery T' c.id c.hasDelivery group
  refine ⟨f (newAlert c.event c.id c.now), ?_, hsame _⟩
  rw [hcreate, hf, hlive', map_singleton]

/-- Where the group has a live alert, a call is counted in it, up to the column's maximum. -/
theorem create_counted {a : Alert} (halerting : c.event.alerting = true)
    (hgroup : c.event.groupKey = group) (hlive : liveIn T group = [a]) :
    liveIn (createAlertForEvent T c) group =
      [if a.eventCount < maxInteger then countedRow c.event c.now a else a] := by
  have hmem : ∀ b, b ∈ T.rows → InGroup group b → b = a := by
    intro b hb hin
    have : b ∈ liveIn T group := mem_filter.mpr ⟨hb, decide_eq_true hin⟩
    rwa [hlive, mem_singleton] at this
  have ha : a ∈ T.rows ∧ InGroup group a := by
    have : a ∈ liveIn T group := by rw [hlive]; exact mem_singleton_self a
    exact ⟨(mem_filter.mp this).1, of_decide_eq_true (mem_filter.mp this).2⟩
  unfold createAlertForEvent
  rw [halerting]
  simp only [Bool.not_true, Bool.false_eq_true, if_false]
  by_cases hcount : a.eventCount < maxInteger
  · have hall : ∀ b ∈ T.rows, InGroup c.event.groupKey b → b.eventCount < maxInteger := by
      intro b hb hin
      rw [hgroup] at hin
      rw [hmem b hb hin]
      exact hcount
    have hlength : (T.rows.filter fun b => InGroup c.event.groupKey b).length = 1 := by
      rw [hgroup]
      exact congrArg List.length hlive
    rw [countInGroup, if_pos hall, hlength, if_pos hcount]
    simp only [Nat.one_pos, if_true]
    have hfilter : liveIn (T.updateWhere (InGroup c.event.groupKey) (countedRow c.event c.now)
        (fun _ => rfl)) group = (liveIn T group).map (countedRow c.event c.now) := by
      show List.filter _ (T.rows.map _) = _
      rw [hgroup]
      exact filter_map_update (f := countedRow c.event c.now) (fun b hb => hb) T.rows
    rw [hfilter, hlive, map_singleton]
  · have hall : ¬ ∀ b ∈ T.rows, InGroup c.event.groupKey b → b.eventCount < maxInteger := by
      intro h
      exact hcount (h a ha.1 (hgroup ▸ ha.2))
    rw [countInGroup, if_neg hall, if_neg hcount]
    exact hlive

/-! ## The calls of a group, one after the other -/

/-- Once the group has a live alert, the calls keep its severity, and count up to the column's
maximum. -/
theorem createAll_counted {a : Alert}
    (hcalls : ∀ c ∈ cs, c.event.alerting = true ∧ c.event.groupKey = group)
    (hlive : liveIn T group = [a]) (hmax : a.eventCount ≤ maxInteger) :
    ∃ b, liveIn (createAll T cs) group = [b] ∧ b.severity = a.severity ∧
      b.eventCount = min (a.eventCount + cs.length) maxInteger ∧
      ((∀ c ∈ cs, c.event.confidence ≤ a.confidence) → b.confidence = a.confidence) := by
  induction cs generalizing T a with
  | nil => exact ⟨a, hlive, rfl, (min_eq_left hmax).symm, fun _ => rfl⟩
  | cons c cs ih =>
    obtain ⟨halerting, hgroup⟩ := hcalls c mem_cons_self
    have hstep := create_counted halerting hgroup hlive
    have hrest := fun c hc => hcalls c (mem_cons_of_mem _ hc)
    by_cases hcount : a.eventCount < maxInteger
    · rw [if_pos hcount] at hstep
      obtain ⟨b, hb, hseverity, hevents, hconfidence⟩ := ih hrest hstep hcount
      refine ⟨b, hb, hseverity, ?_, fun hle => ?_⟩
      · rw [hevents, length_cons]
        show min (a.eventCount + 1 + cs.length) maxInteger = _
        congr 1
        omega
      · have hkept : max a.confidence c.event.confidence = a.confidence :=
          max_eq_left (hle c mem_cons_self)
        have hrow : (countedRow c.event c.now a).confidence = a.confidence := hkept
        rw [← hrow]
        refine hconfidence fun c' hc' => ?_
        rw [hrow]
        exact hle c' (mem_cons_of_mem _ hc')
    · rw [if_neg hcount] at hstep
      obtain ⟨b, hb, hseverity, hevents, hconfidence⟩ := ih hrest hstep hmax
      refine ⟨b, hb, hseverity, ?_, fun hle => hconfidence fun c' hc' =>
        hle c' (mem_cons_of_mem _ hc')⟩
      rw [hevents, length_cons]
      omega

/-- The calls of a group that has no live alert: the blocked ones do nothing, and the first that
is not blocked decides. -/
theorem createAll_fresh (hcalls : ∀ c ∈ cs, c.event.alerting = true ∧ c.event.groupKey = group)
    (hlive : liveIn T group = []) :
    (cs.dropWhile (fun c => Blocked T c) = [] ∧ createAll T cs = T) ∨
    ∃ c rest a, cs.dropWhile (fun c => Blocked T c) = c :: rest ∧
      liveIn (createAll T cs) group = [a] ∧ a.severity = c.event.severity ∧
      a.eventCount = min (rest.length + 1) maxInteger ∧
      ((∀ c' ∈ rest, c'.event.confidence ≤ c.event.confidence) →
        a.confidence = c.event.confidence) := by
  induction cs with
  | nil => exact .inl ⟨rfl, rfl⟩
  | cons c cs ih =>
    obtain ⟨halerting, hgroup⟩ := hcalls c mem_cons_self
    have hrest := fun c hc => hcalls c (mem_cons_of_mem _ hc)
    by_cases hblocked : Blocked T c
    · have hsame : createAll T (c :: cs) = createAll T cs := by
        show createAll (createAlertForEvent T c) cs = _
        rw [create_blocked hgroup hlive hblocked]
      have hdrop : (c :: cs).dropWhile (fun c => Blocked T c) =
          cs.dropWhile (fun c => Blocked T c) := by
        simp [hblocked]
      rw [hdrop, hsame]
      exact ih hrest
    · right
      obtain ⟨a, ha, hseverity, hconfidence, hcount⟩ :=
        create_first halerting hgroup hlive hblocked
      have hone : a.eventCount ≤ maxInteger := by
        rw [hcount]
        decide
      obtain ⟨b, hb, hseverity', hcount', hconfidence'⟩ := createAll_counted hrest ha hone
      refine ⟨c, cs, b, by simp [hblocked], hb, hseverity'.trans hseverity, ?_, fun hle => ?_⟩
      · rw [hcount', hcount, Nat.add_comm]
      · rw [hconfidence' fun c' hc' => hconfidence ▸ hle c' hc', hconfidence]

/-! ## Severity and confidence -/

theorem confidence_le_maxConfidence (h : c ∈ cs) : c.event.confidence ≤ maxConfidence cs := by
  induction cs with
  | nil => exact absurd h not_mem_nil
  | cons d cs ih =>
    show _ ≤ max d.event.confidence (maxConfidence cs)
    rcases mem_cons.mp h with rfl | h
    · exact le_max_left _ _
    · exact (ih h).trans (le_max_right _ _)

theorem maxConfidence_le {n : Nat} (h : ∀ c ∈ cs, c.event.confidence ≤ n) :
    maxConfidence cs ≤ n := by
  induction cs with
  | nil => exact Nat.zero_le n
  | cons d cs ih =>
    exact max_le (h d mem_cons_self) (ih fun c hc => h c (mem_cons_of_mem _ hc))

theorem confidence_le_of_maxSeverity {c' : CreateCall}
    (hseverity : c.event.severity = maxSeverity cs) (hc' : c' ∈ cs) :
    c'.event.confidence ≤ c.event.confidence := by
  unfold AlertEvent.confidence
  by_cases hcritical : ∃ d ∈ cs, d.event.severity = "critical"
  · rw [maxSeverity, if_pos hcritical] at hseverity
    rw [if_pos hseverity]
    split <;> omega
  · have hnot : c'.event.severity ≠ "critical" := fun h => hcritical ⟨c', hc', h⟩
    rw [if_neg hnot]
    split <;> omega

/-- A call of the greatest severity has the greatest confidence. -/
theorem confidence_eq_maxConfidence (hc : c ∈ cs) (hseverity : c.event.severity = maxSeverity cs) :
    c.event.confidence = maxConfidence cs :=
  le_antisymm (confidence_le_maxConfidence hc)
    (maxConfidence_le fun _ hc' => confidence_le_of_maxSeverity hseverity hc')

/-! ## When the live alert stands for its events -/

theorem standsFor_iff {order : List CreateCall} (horder : order.Perm cs)
    (hcalls : ∀ c ∈ cs, c.event.alerting = true ∧ c.event.groupKey = group)
    (hlive : liveIn T group = []) :
    StandsFor cs group (createAll T order) ↔
      ∃ c rest, order.dropWhile (fun c => Blocked T c) = c :: rest ∧
        c.event.severity = maxSeverity cs ∧
        min (rest.length + 1) maxInteger = distinctEvents cs := by
  have hcalls' : ∀ c ∈ order, c.event.alerting = true ∧ c.event.groupKey = group :=
    fun c hc => hcalls c (horder.mem_iff.mp hc)
  rcases createAll_fresh hcalls' hlive with ⟨hdrop, hsame⟩ | ⟨c, rest, a, hdrop, ha, hseverity, hcount, hconfidence⟩
  · rw [hdrop, hsame]
    constructor
    · rintro ⟨a, ha, -⟩
      rw [hlive] at ha
      cases ha
    · rintro ⟨c, rest, hbad, -⟩
      cases hbad
  · have hmem : ∀ d ∈ c :: rest, d ∈ cs := by
      intro d hd
      rw [← hdrop] at hd
      exact horder.mem_iff.mp ((dropWhile_sublist _).subset hd)
    constructor
    · rintro ⟨b, hb, hb1, -, hb2⟩
      obtain rfl : a = b := by simpa [ha] using hb
      exact ⟨c, rest, hdrop, hseverity ▸ hb1, hcount ▸ hb2⟩
    · rintro ⟨c', rest', hdrop', hmax, hevents⟩
      obtain ⟨rfl, rfl⟩ := cons.inj (hdrop.symm.trans hdrop')
      refine ⟨a, ha, hseverity.trans hmax, ?_, hcount.trans hevents⟩
      rw [hconfidence fun d hd => confidence_le_of_maxSeverity hmax
        (hmem d (mem_cons_of_mem _ hd))]
      exact confidence_eq_maxConfidence (hmem c mem_cons_self) hmax

theorem dropWhile_blocked {blocked rest : List CreateCall} (hblocked : ∀ d ∈ blocked, Blocked T d)
    (hc : ¬ Blocked T c) : (blocked ++ c :: rest).dropWhile (fun c => Blocked T c) = c :: rest := by
  rw [dropWhile_append_of_pos fun d hd => decide_eq_true (hblocked d hd)]
  simp [hc]

/-- The first call that is not blocked. -/
theorem of_dropWhile_blocked {rest : List CreateCall}
    (hdrop : cs.dropWhile (fun c => Blocked T c) = c :: rest) : c ∈ cs ∧ ¬ Blocked T c := by
  have hne : cs.dropWhile (fun c => Blocked T c) ≠ [] := by
    rw [hdrop]
    exact cons_ne_nil _ _
  refine ⟨(dropWhile_sublist _).subset (hdrop ▸ mem_cons_self), ?_⟩
  have hhead := head_dropWhile_not (fun c => decide (Blocked T c)) hne
  simpa [hdrop] using hhead

/-- Every call that is not blocked comes at or after the first. -/
theorem countP_dropWhile_blocked (cs : List CreateCall) :
    (cs.dropWhile fun c => Blocked T c).countP (fun c => ¬ Blocked T c) =
      cs.countP fun c => ¬ Blocked T c := by
  induction cs with
  | nil => rfl
  | cons c cs ih =>
    by_cases hblocked : Blocked T c
    · simp only [dropWhile_cons, countP_cons, hblocked, decide_true, if_true,
        not_true_eq_false, decide_false, Bool.false_eq_true, if_false, Nat.add_zero]
      simpa using ih
    · simp [hblocked]

/-- The calls of a group stand in its one live alert in the order given exactly if the first that
is not blocked has the greatest severity and what is counted from there, up to the column's
maximum, is the number of distinct source events; and in every order exactly if every call that
is not blocked has the greatest severity, there is one, and neither the blocked nor a repeated
source event makes a difference to the count. -/
theorem live_alert_stands_iff (T : Table Alert.id) (group : String) (cs : List CreateCall)
    (hcalls : ∀ c ∈ cs, c.event.alerting = true ∧ c.event.groupKey = group)
    (hlive : liveIn T group = []) :
    (StandsFor cs group (createAll T cs) ↔
      ∃ c rest, cs.dropWhile (fun c => Blocked T c) = c :: rest ∧
        c.event.severity = maxSeverity cs ∧
        min (rest.length + 1) maxInteger = distinctEvents cs) ∧
    ((∀ order : List CreateCall, order.Perm cs → StandsFor cs group (createAll T order)) ↔
      (∃ c ∈ cs, ¬ Blocked T c) ∧
        (∀ c ∈ cs, ¬ Blocked T c → c.event.severity = maxSeverity cs) ∧
        min (cs.countP fun c => ¬ Blocked T c) maxInteger = distinctEvents cs ∧
        min cs.length maxInteger = distinctEvents cs) := by
  refine ⟨standsFor_iff (Perm.refl cs) hcalls hlive, fun hall => ?_, ?_⟩
  · have hstands := fun order horder => (standsFor_iff horder hcalls hlive).mp (hall order horder)
    have hfirst : ∀ (blocked rest : List CreateCall) (c : CreateCall),
        (∀ d ∈ blocked, Blocked T d) → ¬ Blocked T c → (blocked ++ c :: rest).Perm cs →
        c.event.severity = maxSeverity cs ∧
          min (rest.length + 1) maxInteger = distinctEvents cs := by
      intro blocked rest c hblocked hc horder
      obtain ⟨c', rest', hdrop, h⟩ := hstands _ horder
      rw [dropWhile_blocked hblocked hc] at hdrop
      obtain ⟨rfl, rfl⟩ := cons.inj hdrop
      exact h
    have hlast : ∀ c ∈ cs, ¬ Blocked T c → c.event.severity = maxSeverity cs ∧
        min (cs.countP fun c => ¬ Blocked T c) maxInteger = distinctEvents cs := by
      intro c hc hfree
      have hmem : c ∈ cs.filter fun c => ¬ Blocked T c := by simp [hc, hfree]
      have hperm := perm_cons_erase hmem
      have horder : (cs.filter (fun c => Blocked T c) ++
          c :: (cs.filter fun c => ¬ Blocked T c).erase c).Perm cs := by
        refine (Perm.append_left _ hperm.symm).trans ?_
        simpa using filter_append_perm (fun c => decide (Blocked T c)) cs
      have h := hfirst _ _ c (by simp) hfree horder
      rwa [← length_cons, ← hperm.length_eq, ← countP_eq_length_filter] at h
    obtain ⟨c, rest, hdrop, -⟩ := hstands cs (Perm.refl cs)
    have hc := of_dropWhile_blocked hdrop
    refine ⟨⟨c, hc.1, hc.2⟩, fun d hd hfree => (hlast d hd hfree).1, (hlast c hc.1 hc.2).2, ?_⟩
    have hperm := perm_cons_erase hc.1
    have h := (hfirst [] _ c (fun d hd => absurd hd not_mem_nil) hc.2 hperm.symm).2
    rwa [← length_cons, ← hperm.length_eq] at h
  · rintro ⟨⟨c₀, hc₀, hfree₀⟩, hseverity, hfew, hmany⟩ order horder
    rw [standsFor_iff horder hcalls hlive]
    have hcount : (order.dropWhile fun c => Blocked T c).countP (fun c => ¬ Blocked T c) =
        cs.countP fun c => ¬ Blocked T c := by
      rw [countP_dropWhile_blocked, horder.countP_eq]
    have hpos : 0 < cs.countP fun c => ¬ Blocked T c := by
      rw [countP_pos_iff]
      exact ⟨c₀, hc₀, decide_eq_true hfree₀⟩
    cases hdrop : order.dropWhile fun c => Blocked T c with
    | nil =>
      rw [hdrop, countP_nil] at hcount
      omega
    | cons c rest =>
      obtain ⟨hc, hfree⟩ := of_dropWhile_blocked hdrop
      refine ⟨c, rest, rfl, hseverity c (horder.mem_iff.mp hc) hfree, ?_⟩
      -- between the calls that are not blocked and all of them
      have hlower : cs.countP (fun c => ¬ Blocked T c) ≤ rest.length + 1 := by
        rw [← hcount, hdrop]
        exact countP_le_length
      have hupper : rest.length + 1 ≤ cs.length := by
        rw [← horder.length_eq, ← length_cons, ← hdrop]
        exact (dropWhile_sublist _).length_le
      omega

def bruteForceCall (sourceEventId : Nat) (severity : String) : CreateCall where
  event :=
    { sourceEventId
      eventType := "ssh_bruteforce"
      source := "security-engine"
      severity
      resource := "203.0.113.7"
      reason := "failed logins"
      incidentId := none }
  now := 0
  id := sourceEventId
  hasDelivery := true

theorem live_alert_stands_iff_high :
    StandsFor [bruteForceCall 1 "high", bruteForceCall 2 "high"] "ssh_bruteforce:203.0.113.7"
        (createAll (Table.empty _) [bruteForceCall 1 "high", bruteForceCall 2 "high"]) ∧
      StandsFor [bruteForceCall 1 "high", bruteForceCall 2 "high"] "ssh_bruteforce:203.0.113.7"
        (createAll (Table.empty _) [bruteForceCall 2 "high", bruteForceCall 1 "high"]) := by
  have hall := (live_alert_stands_iff (Table.empty _) "ssh_bruteforce:203.0.113.7"
    [bruteForceCall 1 "high", bruteForceCall 2 "high"] (by decide_cbv) rfl).2.mpr
      (by decide_cbv)
  exact ⟨hall _ (Perm.refl _), hall _ (Perm.swap _ _ _)⟩

/-- A critical event stays in an alert listed as high. -/
theorem critical_hidden_in_high :
    ¬ ∀ T group cs, (∀ c ∈ cs, c.event.alerting = true ∧ c.event.groupKey = group) →
      liveIn T group = [] → cs ≠ [] → StandsFor cs group (createAll T cs) := by
  intro hall
  obtain ⟨a, ha, hseverity, -⟩ := hall (Table.empty _) "ssh_bruteforce:203.0.113.7"
    [bruteForceCall 1 "high", bruteForceCall 2 "critical"] (by decide_cbv) rfl
    (cons_ne_nil _ _)
  have hlisted : (liveIn (createAll (Table.empty _)
      [bruteForceCall 1 "high", bruteForceCall 2 "critical"])
      "ssh_bruteforce:203.0.113.7").map Alert.severity = ["high"] := by
    decide_cbv
  rw [ha, map_singleton, hseverity] at hlisted
  exact absurd hlisted (by decide_cbv)

end Clawforge.Alerts

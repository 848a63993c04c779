import Clawforge.Kit.Slots
import Clawforge.Storage.Alerts
import Mathlib

/-!
# One live alert for each group

A creation counts its event in the live alerts of the group and inserts an alert where there is
none. Nothing holds between the two statements, so two creations can both insert
(`two_first_alerts`), and a status change may reopen an alert beside a newer one. The group has
one live alert, and its counts the events recorded, exactly along the runs in which neither
happens.
-/

namespace Clawforge.Alerts

open Kit EventDelivery Table List Option

/-! ## The property -/

/-- The events that a group's alerts count. -/
def groupCount (rows : List Alert) (group : String) : Nat :=
  ((rows.filter (fun a => a.groupKey = group)).map Alert.eventCount).sum

/-- A group has at most one live alert, and its alerts count the events recorded for it. -/
structure OneLive (w : World) : Prop where
  one : ∀ a ∈ w.db.alerts, ∀ b ∈ w.db.alerts, a.live = true → b.live = true →
    a.groupKey = b.groupKey → a = b
  counted : ∀ group, groupCount w.db.alerts.rows group =
    w.recorded.countP (fun e => e.groupKey = group)

/-! ## The condition -/

/-- The row an insertion stores, if none is stored under its dedupe key, is the only live one
of its group, and so is one that a status change makes live. -/
def KeepsOne (w : World) : Action → Prop
  | .insert k _ _ => ∀ e, w.creators[k]? = some (.inserting e) →
      (∀ a ∈ w.db.alerts, a.dedupeKey ≠ e.dedupeKey) →
      ∀ a ∈ w.db.alerts, ¬ InGroup e.groupKey a
  | .setStatus id status _ _ _ => ∀ next, alertStatus status = some next →
      next = .opened ∨ next = .acknowledged →
      ∀ a ∈ w.db.alerts, a.id = id → ∀ b ∈ w.db.alerts, InGroup a.groupKey b → b.id = id
  | _ => True

/-! ## Counts -/

theorem groupCount_cons (a : Alert) (rows : List Alert) (group : String) :
    groupCount (a :: rows) group =
      (if a.groupKey = group then a.eventCount else 0) + groupCount rows group := by
  unfold groupCount
  by_cases h : a.groupKey = group
  · simp [h]
  · simp [h]

theorem groupCount_append (rows rows' : List Alert) (group : String) :
    groupCount (rows ++ rows') group = groupCount rows group + groupCount rows' group := by
  simp [groupCount]

theorem groupCount_map {f : Alert → Alert} (hkey : ∀ a, (f a).groupKey = a.groupKey)
    (hcount : ∀ a, (f a).eventCount = a.eventCount) (rows : List Alert) (group : String) :
    groupCount (rows.map f) group = groupCount rows group := by
  induction rows with
  | nil => rfl
  | cons a rows ih => rw [map_cons, groupCount_cons, groupCount_cons, hkey, hcount, ih]

/-- Each live alert of the event's group counts it. -/
theorem groupCount_counted (e : AlertEvent) (now : Instant) (rows : List Alert) (group : String) :
    groupCount (rows.map (fun a => if InGroup e.groupKey a then countedRow e now a else a)) group =
      groupCount rows group +
        if e.groupKey = group then (rows.filter (fun a => InGroup e.groupKey a)).length else 0 := by
  induction rows with
  | nil => simp [groupCount]
  | cons a rows ih =>
    rw [map_cons, groupCount_cons, groupCount_cons, ih, filter_cons]
    by_cases hlive : InGroup e.groupKey a
    · have hkey : a.groupKey = e.groupKey := hlive.1
      simp only [hlive, if_true, decide_true, countedRow, hkey, length_cons]
      split
      · omega
      · omega
    · simp only [hlive, if_false, decide_false, Bool.false_eq_true]
      omega

theorem length_le_one {α : Type} {l : List α} (hl : l.Nodup) (h : ∀ a ∈ l, ∀ b ∈ l, a = b) :
    l.length ≤ 1 := by
  match l with
  | [] => exact Nat.zero_le 1
  | [_] => exact le_refl 1
  | a :: b :: l =>
    have hab : a = b := h a mem_cons_self b (mem_cons_of_mem _ mem_cons_self)
    rw [nodup_cons] at hl
    exact absurd (hab ▸ mem_cons_self) hl.1

variable {w w' : World} {now : Instant}

theorem OneLive.length_inGroup (h : OneLive w) (group : String) :
    (w.db.alerts.rows.filter (fun a => InGroup group a)).length ≤ 1 := by
  refine length_le_one (w.db.alerts.unique.of_map.filter _) (fun a ha b hb => ?_)
  obtain ⟨ha, hga⟩ := mem_filter.1 ha
  obtain ⟨hb, hgb⟩ := mem_filter.1 hb
  obtain ⟨hka, hla⟩ := of_decide_eq_true hga
  obtain ⟨hkb, hlb⟩ := of_decide_eq_true hgb
  exact h.one a ha b hb hla hlb (hka.trans hkb.symm)

/-! ## What a step can do -/

theorem advance_eq_some {k : Nat} {a : Action} (h : advance w k a = some w') :
    ∃ c T next records, w.creators[k]? = some c ∧
      creatorStep w.db.alerts c a = some (T, next, records) ∧
      w'.db = { w.db with alerts := T } ∧
      w'.recorded = if records then c.event.toList ++ w.recorded else w.recorded := by
  obtain ⟨c, hk, h⟩ := bind_eq_some_iff.1 h
  obtain ⟨⟨T, next, records⟩, hs, rfl⟩ := map_eq_some_iff.1 h
  exact ⟨c, T, next, records, hk, hs, rfl, rfl⟩

theorem count_eq_some {k : Nat} (h : exec w (.count k now) = some w') :
    ∃ e, w'.db.alerts.rows = w.db.alerts.rows.map
        (fun a => if InGroup e.groupKey a then countedRow e now a else a) ∧
      w'.recorded =
        if 0 < (w.db.alerts.rows.filter (fun a => InGroup e.groupKey a)).length
        then e :: w.recorded else w.recorded := by
  obtain ⟨c, T, next, records, -, hs, hdb, hrecorded⟩ := advance_eq_some h
  cases c with
  | counting e =>
    obtain ⟨⟨affected, T'⟩, hcount, hs⟩ := map_eq_some_iff.1 hs
    unfold countInGroup at hcount
    split at hcount
    case isFalse => cases hcount
    case isTrue =>
      cases hcount
      refine ⟨e, ?_, ?_⟩
      · rw [hdb]
        dsimp only at hs
        split at hs
        · cases hs
          rfl
        · cases hs
          rfl
      · dsimp only at hs
        split at hs
        · rename_i hpos
          cases hs
          rw [hrecorded, if_pos hpos]
          rfl
        · rename_i hpos
          cases hs
          rw [hrecorded, if_neg hpos]
          rfl
  | idle | inserting | delivering => cases hs

/-- An insertion stores and records its event, unless its dedupe key is stored. -/
theorem insert_eq_some {k : Nat} {id : Uuid} (h : exec w (.insert k now id) = some w') :
    ∃ e, w.creators[k]? = some (.inserting e) ∧
      (((∃ a ∈ w.db.alerts, a.dedupeKey = e.dedupeKey) ∧ w'.db = w.db ∧
          w'.recorded = w.recorded) ∨
        ((∀ a ∈ w.db.alerts, a.dedupeKey ≠ e.dedupeKey) ∧
          w.db.alerts.insert? (newAlert e id now) = some w'.db.alerts ∧
          w'.recorded = e :: w.recorded)) := by
  obtain ⟨c, T, next, records, hk, hs, hdb, hrecorded⟩ := advance_eq_some h
  cases c with
  | inserting e =>
    obtain ⟨⟨inserted, T'⟩, hins, hs⟩ := map_eq_some_iff.1 hs
    refine ⟨e, hk, ?_⟩
    unfold insertAlert at hins
    split at hins
    case isTrue hstored =>
      cases hins
      cases hs
      exact .inl ⟨hstored, hdb, hrecorded⟩
    case isFalse hfree =>
      obtain ⟨T'', hT, hpair⟩ := map_eq_some_iff.1 hins
      cases hpair
      cases hs
      refine .inr ⟨fun a ha hkey => hfree ⟨a, ha, hkey⟩, ?_, hrecorded⟩
      rw [hdb]
      exact hT
  | idle | counting | delivering => cases hs

/-- The rows change only in columns that neither the groups nor the counts depend on. -/
def SameGroups (w w' : World) : Prop :=
  ∃ f : Alert → Alert, w'.db.alerts.rows = w.db.alerts.rows.map f ∧ w'.recorded = w.recorded ∧
    ∀ a, (f a).id = a.id ∧ (f a).groupKey = a.groupKey ∧ (f a).live = a.live ∧
      (f a).eventCount = a.eventCount

theorem sameGroups_refl (hdb : w'.db = w.db) (hrecorded : w'.recorded = w.recorded) :
    SameGroups w w' :=
  ⟨fun a => a, by rw [hdb, List.map_id'], hrecorded, fun _ => ⟨rfl, rfl, rfl, rfl⟩⟩

theorem sameGroups_deliver {k : Nat} {hasDelivery : Bool}
    (h : exec w (.deliver k hasDelivery) = some w') : SameGroups w w' := by
  obtain ⟨c, T, next, records, -, hs, hdb, hrecorded⟩ := advance_eq_some h
  cases c with
  | delivering id =>
    cases hs
    obtain ⟨f, hrows, hf⟩ := rows_setDelivery w.db.alerts id hasDelivery
    exact ⟨f, by rw [hdb]; exact hrows, hrecorded, hf⟩
  | idle | counting | inserting => cases hs

theorem OneLive.sameGroups (h : OneLive w) (hsame : SameGroups w w') : OneLive w' := by
  obtain ⟨f, hrows, hrecorded, hf⟩ := hsame
  constructor
  case one =>
    intro a' ha' b' hb' hla hlb hkey
    rw [Table.mem_def, hrows] at ha' hb'
    obtain ⟨a, ha, rfl⟩ := List.mem_map.1 ha'
    obtain ⟨b, hb, rfl⟩ := List.mem_map.1 hb'
    obtain ⟨-, hka, hla', -⟩ := hf a
    obtain ⟨-, hkb, hlb', -⟩ := hf b
    rw [h.one a ha b hb (hla'.symm.trans hla) (hlb'.symm.trans hlb)
      (hka.symm.trans (hkey.trans hkb))]
  case counted =>
    intro group
    rw [hrows, groupCount_map (fun a => (hf a).2.1) (fun a => (hf a).2.2.2), hrecorded]
    exact h.counted group

/-! ## One step -/

/-- Counting an event keeps the property: at most one alert counts it. -/
theorem OneLive.count {k : Nat} (h : OneLive w) (hstep : exec w (.count k now) = some w') :
    OneLive w' := by
  obtain ⟨e, hrows, hrecorded⟩ := count_eq_some hstep
  constructor
  case one =>
    intro a' ha' b' hb' hla hlb hkey
    have hkept : ∀ a, (if InGroup e.groupKey a then countedRow e now a else a).groupKey =
        a.groupKey ∧ (if InGroup e.groupKey a then countedRow e now a else a).live = a.live := by
      intro a
      split
      · exact ⟨rfl, rfl⟩
      · exact ⟨rfl, rfl⟩
    rw [Table.mem_def, hrows] at ha' hb'
    obtain ⟨a, ha, rfl⟩ := List.mem_map.1 ha'
    obtain ⟨b, hb, rfl⟩ := List.mem_map.1 hb'
    rw [(hkept a).2] at hla
    rw [(hkept b).2] at hlb
    rw [(hkept a).1, (hkept b).1] at hkey
    rw [h.one a ha b hb hla hlb hkey]
  case counted =>
    intro group
    have hle := h.length_inGroup e.groupKey
    rw [hrows, groupCount_counted, h.counted group, hrecorded]
    by_cases hpos : 0 < (w.db.alerts.rows.filter (fun a => InGroup e.groupKey a)).length
    · have hone : (w.db.alerts.rows.filter (fun a => InGroup e.groupKey a)).length = 1 := by omega
      rw [if_pos hpos, hone, countP_cons]
      simp only [decide_eq_true_eq]
    · have hzero : (w.db.alerts.rows.filter (fun a => InGroup e.groupKey a)).length = 0 := by omega
      rw [if_neg hpos, hzero, ite_self, Nat.add_zero]

theorem live_newAlert (e : AlertEvent) (id : Uuid) (now : Instant) :
    (newAlert e id now).live = true := rfl

theorem oneLive_insert_iff {k : Nat} {id : Uuid} (h : OneLive w)
    (hstep : exec w (.insert k now id) = some w') : OneLive w' ↔ KeepsOne w (.insert k now id) := by
  obtain ⟨e, hk, ⟨⟨x, hx, hkey⟩, hdb, hrecorded⟩ | ⟨hfree, hins, hrecorded⟩⟩ := insert_eq_some hstep
  · -- the row is ignored
    refine iff_of_true (h.sameGroups (sameGroups_refl hdb hrecorded)) (fun e' hk' hfree => ?_)
    rw [hk] at hk'
    cases hk'
    exact absurd hkey (hfree x hx)
  · have hmem : ∀ a, a ∈ w'.db.alerts ↔ a ∈ w.db.alerts ∨ a = newAlert e id now :=
      fun a => mem_insert? hins
    constructor
    · rintro h' e' hk' - a ha ⟨hgroup, hlive⟩
      rw [hk] at hk'
      cases hk'
      have hsame : a = newAlert e id now := h'.one a ((hmem a).2 (.inl ha)) _
        ((hmem _).2 (.inr rfl)) hlive (live_newAlert e id now) hgroup
      exact key_ne_of_insert? hins ha (congrArg Alert.id hsame)
    · intro hkeeps
      have hnone : ∀ a ∈ w.db.alerts, ¬ InGroup e.groupKey a := hkeeps e hk hfree
      constructor
      case one =>
        intro a ha b hb hla hlb hkey
        rcases (hmem a).1 ha with ha | rfl <;> rcases (hmem b).1 hb with hb | rfl
        · exact h.one a ha b hb hla hlb hkey
        · exact absurd ⟨hkey, hla⟩ (hnone a ha)
        · exact absurd ⟨hkey.symm, hlb⟩ (hnone b hb)
        · rfl
      case counted =>
        intro group
        rw [rows_insert? hins, groupCount_append, h.counted group, hrecorded,
          countP_cons, groupCount_cons]
        simp only [decide_eq_true_eq, groupCount, filter_nil, map_nil, sum_nil,
          Nat.add_zero]
        rfl

theorem live_statusRow {next : AlertStatus} {a : Alert} :
    (statusRow next now a).live = true ↔ next = .opened ∨ next = .acknowledged := by
  simp [statusRow, Alert.live]

theorem oneLive_setStatus_iff {id : Uuid} {status actor reason : String} (h : OneLive w)
    (hstep : exec w (.setStatus id status actor reason now) = some w') :
    OneLive w' ↔ KeepsOne w (.setStatus id status actor reason now) := by
  simp only [exec] at hstep
  split at hstep
  case h_1 error hfails =>
    cases hstep
    refine iff_of_true h (fun next hnext hlive a ha hid => ?_)
    -- a known status is refused for an unknown alert only
    simp only [updateAlertStatus, hnext, ← hid, get?_key ha] at hfails
    cases hfails
  case h_2 db hdb =>
    cases hstep
    unfold updateAlertStatus at hdb
    split at hdb
    case h_1 => cases hdb
    case h_2 next hnext =>
      split at hdb
      case h_1 => cases hdb
      case h_2 previous hprevious =>
        cases hdb
        have hmem : ∀ b, b ∈ w.db.alerts.updateWhere (fun a => a.id = id) (statusRow next now)
            (fun _ => rfl) ↔ ∃ a ∈ w.db.alerts, b = if a.id = id then statusRow next now a else a :=
          fun _ => mem_updateWhere
        have hkept : ∀ a : Alert,
            (if a.id = id then statusRow next now a else a).groupKey = a.groupKey ∧
            (if a.id = id then statusRow next now a else a).eventCount = a.eventCount := by
          intro a
          split
          · exact ⟨rfl, rfl⟩
          · exact ⟨rfl, rfl⟩
        constructor
        · rintro h' next' hnext' hlive a ha hid b hb ⟨hgroup, hlb⟩
          rw [hnext] at hnext'
          cases hnext'
          by_contra hne
          have hchanged : statusRow next now a = b := h'.one _
            ((hmem _).2 ⟨a, ha, (if_pos hid).symm⟩) b ((hmem _).2 ⟨b, hb, (if_neg hne).symm⟩)
            (live_statusRow.2 hlive) hlb hgroup.symm
          exact hne (hchanged ▸ hid)
        · intro hkeeps
          constructor
          case one =>
            intro a' ha' b' hb' hla hlb hkey
            obtain ⟨a, ha, rfl⟩ := (hmem a').1 ha'
            obtain ⟨b, hb, rfl⟩ := (hmem b').1 hb'
            rw [(hkept a).1, (hkept b).1] at hkey
            by_cases hida : a.id = id
            · rw [if_pos hida] at hla
              have hlive := live_statusRow.1 hla
              by_cases hidb : b.id = id
              · rw [eq_of_key_eq ha hb (hida.trans hidb.symm)]
              · rw [if_neg hidb] at hlb
                exact absurd (hkeeps next hnext hlive a ha hida b hb ⟨hkey.symm, hlb⟩) hidb
            · rw [if_neg hida] at hla ⊢
              by_cases hidb : b.id = id
              · rw [if_pos hidb] at hlb
                have hlive := live_statusRow.1 hlb
                exact absurd (hkeeps next hnext hlive b hb hidb a ha ⟨hkey, hla⟩) hida
              · rw [if_neg hidb] at hlb ⊢
                exact h.one a ha b hb hla hlb hkey
          case counted =>
            intro group
            show groupCount (w.db.alerts.rows.map
              (fun a => if a.id = id then statusRow next now a else a)) group = _
            rw [groupCount_map (fun a => (hkept a).1) (fun a => (hkept a).2)]
            exact h.counted group

theorem oneLive_step_iff {a : Action} (h : OneLive w) (hstep : exec w a = some w') :
    OneLive w' ↔ KeepsOne w a := by
  cases a with
  | create k e =>
    refine iff_of_true (h.sameGroups ?_) trivial
    simp only [exec] at hstep
    split at hstep
    · split at hstep
      · cases hstep
      · cases hstep
        exact sameGroups_refl rfl rfl
    · cases hstep
  | count k now => exact iff_of_true (h.count hstep) trivial
  | insert k now id => exact oneLive_insert_iff h hstep
  | deliver k hasDelivery => exact iff_of_true (h.sameGroups (sameGroups_deliver hstep)) trivial
  | abort k =>
    cases hstep
    exact iff_of_true (h.sameGroups (sameGroups_refl rfl rfl)) trivial
  | setStatus id status actor reason now => exact oneLive_setStatus_iff h hstep

/-! ## Every run -/

theorem oneLive_init (h : Initial w) : OneLive w := by
  obtain ⟨halerts, -, hrecorded, -⟩ := h
  constructor
  case one =>
    intro a ha
    rw [halerts] at ha
    exact absurd ha not_mem_empty
  case counted =>
    intro group
    rw [halerts, hrecorded]
    rfl

/-- Along a run each group has at most one live alert and its alerts count its events exactly
if no insertion and no status change of the run makes a second alert of a group live. -/
theorem one_live_along_iff {w₀ w : World} {as : List Action} (h₀ : Initial w₀)
    (hrun : alertSystem.Run w₀ as w) :
    alertSystem.Along OneLive w₀ as ↔ (alertSystem.restrict KeepsOne).Run w₀ as w :=
  hrun.along_iff_restrict (TSys.deterministic_ofExec _ _)
    (fun _ _ _ _ h hstep => oneLive_step_iff h hstep) (.init h₀) (oneLive_init h₀)

/-! ### Two creations of one group -/

def loginEvent (sourceEventId : Nat) : AlertEvent where
  sourceEventId := sourceEventId
  eventType := "login_failed"
  source := "api"
  severity := "high"
  resource := "console"
  reason := "too many attempts"
  incidentId := none

def twoCallers : World :=
  ⟨⟨Table.empty _, []⟩, [.idle, .idle], [], []⟩

/-- Both find no alert to count their event in; a third event is then counted twice. -/
def bothInsert : List Action :=
  [.create 0 (loginEvent 1), .create 1 (loginEvent 2), .count 0 10, .count 1 10, .insert 0 11 101,
    .insert 1 11 102, .deliver 0 true, .create 0 (loginEvent 3), .count 0 12]

def afterBothInsert : World := (TSys.execAll exec twoCallers bothInsert).get (by decide_cbv)

theorem run_bothInsert : alertSystem.Run twoCallers bothInsert afterBothInsert :=
  TSys.run_of_execAll _ _ (some_get _).symm

theorem one_live_along_iff_both_insert :
    alertSystem.Along OneLive twoCallers bothInsert ↔
      (alertSystem.restrict KeepsOne).Run twoCallers bothInsert afterBothInsert :=
  one_live_along_iff ⟨rfl, rfl, rfl, 2, rfl⟩ run_bothInsert

theorem two_first_alerts : ∃ w, alertSystem.Reachable w ∧
    w.db.alerts.rows.map (fun a => (a.live, a.groupKey, a.eventCount)) =
      [(true, "login_failed:console", 2), (true, "login_failed:console", 2)] ∧
    w.recorded.length = 3 ∧ ¬ OneLive w := by
  have hstate : (afterBothInsert.db.alerts.rows.map (fun a => (a.live, a.groupKey, a.eventCount)),
      afterBothInsert.recorded.length) =
      ([(true, "login_failed:console", 2), (true, "login_failed:console", 2)], 3) := by
    decide_cbv
  obtain ⟨hrows, hlength⟩ := Prod.mk.inj hstate
  refine ⟨afterBothInsert, ⟨twoCallers, bothInsert, ⟨rfl, rfl, rfl, 2, rfl⟩, run_bothInsert⟩,
    hrows, hlength, fun h => ?_⟩
  have hle := h.length_inGroup "login_failed:console"
  have htwo : (afterBothInsert.db.alerts.rows.filter
      (fun a => InGroup "login_failed:console" a)).length = 2 := by decide_cbv
  omega

end Clawforge.Alerts

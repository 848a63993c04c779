import Clawforge.Theorems.IncidentsInStep

/-!
# The history of an incident's status

Promotion gives an incident its first row, a status change its next, under the incident's lock.
So an incident's rows, in the order of their insertion, are a chain of allowed changes that ends
in its status. Each allowed change moves forward in the lifecycle, and none leaves `closed`.
-/

namespace Clawforge.Incidents

open Correlation Kit Table List Option

/-! ## Traces -/

/-- The place of a status in the lifecycle. -/
def place : IncidentStatus → Nat
  | .detected => 0
  | .acknowledged => 1
  | .investigating => 2
  | .confirmed => 3
  | .mitigated => 4
  | .resolved => 5
  | .closed => 6

theorem place_lt {a b : IncidentStatus} (h : incidentStatusTransitionAllowed a b = true) :
    place a < place b := by
  cases a <;> cases b <;> first | (cases h; done) | decide

theorem closed_final (next : IncidentStatus) :
    incidentStatusTransitionAllowed .closed next = false := by
  cases next <;> rfl

/-- A row follows another in a history. -/
def Follows (a b : StatusHistoryRow) : Prop :=
  b.previousStatus = some a.newStatus ∧
    incidentStatusTransitionAllowed a.newStatus b.newStatus = true

/-- The rows trace an incident from its detection to its status. -/
structure Trace (rows : List StatusHistoryRow) (status : IncidentStatus) : Prop where
  first : ∃ row, rows.head? = some row ∧ row.previousStatus = none ∧ row.newStatus = .detected
  linked : rows.IsChain Follows
  last : rows.getLast?.map StatusHistoryRow.newStatus = some status
  once : (rows.map StatusHistoryRow.newStatus).Nodup
  final : ∀ a ∈ rows, a.newStatus = .closed → rows.getLast? = some a

variable {rows : List StatusHistoryRow} {db : Db}

theorem pairwise_place (h : rows.IsChain Follows) :
    rows.Pairwise (fun a b => place a.newStatus < place b.newStatus) := by
  have hchain : rows.IsChain (fun a b => place a.newStatus < place b.newStatus) :=
    h.imp (fun a b hab => place_lt hab.2)
  have : IsTrans StatusHistoryRow (fun a b => place a.newStatus < place b.newStatus) :=
    ⟨fun _ _ _ => Nat.lt_trans⟩
  exact isChain_iff_pairwise.1 hchain

/-- A chain from detection to a status is a trace. -/
theorem trace_of_chain {status : IncidentStatus}
    (hfirst : ∃ row, rows.head? = some row ∧ row.previousStatus = none ∧ row.newStatus = .detected)
    (hchain : rows.IsChain Follows)
    (hlast : rows.getLast?.map StatusHistoryRow.newStatus = some status) : Trace rows status := by
  refine ⟨hfirst, hchain, hlast, ?_, ?_⟩
  · rw [nodup_iff_pairwise_ne, pairwise_map]
    refine (pairwise_place hchain).imp (fun hlt heq => ?_)
    rw [heq] at hlt
    exact absurd hlt (Nat.lt_irrefl _)
  · intro a ha hclosed
    obtain ⟨before, after, rfl⟩ := append_of_mem ha
    cases after with
    | nil => rw [getLast?_append_cons, getLast?_singleton]
    | cons b after =>
      -- nothing follows `closed`
      have hab : Follows a b := by
        have := (isChain_append.1 hchain).2.1
        exact (isChain_cons_cons.1 this).1
      have hallowed := hab.2
      rw [hclosed, closed_final] at hallowed
      cases hallowed

theorem trace_detected {row : StatusHistoryRow} (hprevious : row.previousStatus = none)
    (hnew : row.newStatus = .detected) : Trace [row] .detected :=
  trace_of_chain ⟨row, rfl, hprevious, hnew⟩ (isChain_singleton row)
    (congrArg some hnew)

theorem Trace.snoc {status : IncidentStatus} (h : Trace rows status) {row : StatusHistoryRow}
    (hprevious : row.previousStatus = some status)
    (hallowed : incidentStatusTransitionAllowed status row.newStatus = true) :
    Trace (rows ++ [row]) row.newStatus := by
  obtain ⟨first, hhead, hnone, hdetected⟩ := h.first
  refine trace_of_chain ⟨first, ?_, hnone, hdetected⟩ ?_ ?_
  · rw [List.head?_append, hhead]
    rfl
  · refine isChain_append.2 ⟨h.linked, isChain_singleton row, fun a ha b hb => ?_⟩
    obtain ⟨a', ha', hstatus⟩ := map_eq_some_iff.1 h.last
    rw [ha'] at ha
    cases ha
    cases hb
    exact ⟨hprevious.trans (congrArg some hstatus.symm), hstatus.symm ▸ hallowed⟩
  · rw [getLast?_append_cons, getLast?_singleton]
    rfl

/-! ## Histories -/

/-- The rows of an incident in the order of their insertion. -/
def historyOf (db : Db) (incident : Uuid) : List StatusHistoryRow :=
  db.history.filter (fun row => row.incidentId = incident)

/-- Every incident has its trace, and every row its incident. -/
structure Recorded (db : Db) : Prop where
  traces : ∀ i ∈ db.incidents, Trace (historyOf db i.id) i.status
  known : ∀ row ∈ db.history, ∃ i ∈ db.incidents, i.id = row.incidentId

theorem Recorded.historyOf_new (h : Recorded db) {incident : Uuid}
    (hfresh : ∀ i ∈ db.incidents, i.id ≠ incident) : historyOf db incident = [] := by
  refine filter_eq_nil_iff.2 (fun row hrow hid => ?_)
  obtain ⟨i, hi, hirow⟩ := h.known row hrow
  exact hfresh i hi (hirow.trans (of_decide_eq_true hid))

/-- Incidents stay stored, with their status. -/
def SameStatuses (db db' : Db) : Prop :=
  ∀ i ∈ db.incidents, ∃ i' ∈ db'.incidents, i'.id = i.id ∧ i'.status = i.status

/-- A promotion gives a new incident its first row and leaves the status of any other. -/
theorem Promoted.recorded {now : Instant} {db' : Db} {p : Promotion} (hp : Promoted now db p db')
    (hnew : ∀ row, p.owner = .created row → ∃ c id, row = incidentRow c id) (h : Recorded db) :
    Recorded db' ∧ SameStatuses db db' := by
  cases ho : p.owner with
  | created row =>
    obtain ⟨c, id, rfl⟩ := hnew row ho
    have hmem : ∀ i, i ∈ db'.incidents ↔ i ∈ db.incidents ∨ i = incidentRow c id := by
      intro i
      rw [hp.incidents i, ho]
      rfl
    have hfresh : ∀ i ∈ db.incidents, i.id ≠ id := hp.fresh _ ho
    have hhistory : db'.history = db.history ++ [detectedRow (incidentRow c id)] := by
      rw [hp.history, ho]
      rfl
    refine ⟨⟨fun i hi => ?_, fun row hrow => ?_⟩, fun i hi => ⟨i, (hmem i).2 (Or.inl hi), rfl, rfl⟩⟩
    · rcases (hmem i).1 hi with hi | rfl
      · have hsame : historyOf db' i.id = historyOf db i.id := by
          have hne : (incidentRow c id).id ≠ i.id := fun hid => hfresh i hi hid.symm
          rw [historyOf, hhistory, filter_append, filter_singleton]
          simp only [detectedRow, hne, decide_false, cond_false, append_nil, historyOf]
        rw [hsame]
        exact h.traces i hi
      · have hfirst : historyOf db' id = [detectedRow (incidentRow c id)] := by
          have hnone := h.historyOf_new hfresh
          rw [historyOf] at hnone
          rw [historyOf, hhistory, filter_append, hnone]
          simp [detectedRow, incidentRow]
        show Trace (historyOf db' id) .detected
        rw [hfirst]
        exact trace_detected rfl rfl
    · rw [hhistory] at hrow
      rcases mem_append.1 hrow with hrow | hrow
      · obtain ⟨i, hi, hid⟩ := h.known row hrow
        exact ⟨i, (hmem i).2 (Or.inl hi), hid⟩
      · rw [mem_singleton.1 hrow]
        exact ⟨_, (hmem _).2 (Or.inr rfl), rfl⟩
  | existing row =>
    have hhistory : db'.history = db.history := by
      rw [hp.history, ho]
      exact append_nil _
    have hmem : ∀ i, i ∈ db'.incidents ↔ ∃ j ∈ db.incidents,
        i = if escalates p.candidate row ∧ j.id = row.id then escalatedRow p.candidate now j
          else j := by
      intro i
      rw [hp.incidents i, ho]
      rfl
    have hsame : SameStatuses db db' := by
      intro i hi
      refine ⟨_, (hmem _).2 ⟨i, hi, rfl⟩, ?_⟩
      split
      · exact ⟨rfl, rfl⟩
      · exact ⟨rfl, rfl⟩
    refine ⟨⟨fun i' hi' => ?_, fun r hr => ?_⟩, hsame⟩
    · obtain ⟨i, hi, rfl⟩ := (hmem i').1 hi'
      rw [historyOf, hhistory]
      split
      · exact h.traces i hi
      · exact h.traces i hi
    · rw [hhistory] at hr
      obtain ⟨i, hi, hid⟩ := h.known r hr
      obtain ⟨i', hi', hid', -⟩ := hsame i hi
      exact ⟨i', hi', hid'.trans hid⟩

theorem SameStatuses.trans {a b c : Db} (hab : SameStatuses a b) (hbc : SameStatuses b c) :
    SameStatuses a c := by
  intro i hi
  obtain ⟨j, hj, hid, hstatus⟩ := hab i hi
  obtain ⟨k, hk, hkid, hkstatus⟩ := hbc j hj
  exact ⟨k, hk, hkid.trans hid, hkstatus.trans hstatus⟩

theorem promotions_recorded {now : Instant} {done : List Promotion} {db' : Db}
    (h : done.foldlM (writePromotion now) db = some db')
    (hnew : ∀ p ∈ done, ∀ row, p.owner = .created row → ∃ c id, row = incidentRow c id)
    (hrecorded : Recorded db) : Recorded db' ∧ SameStatuses db db' := by
  induction done generalizing db with
  | nil =>
    cases h
    exact ⟨hrecorded, fun i hi => ⟨i, hi, rfl, rfl⟩⟩
  | cons p done ih =>
    rw [foldlM_cons] at h
    obtain ⟨next, hw, hrest⟩ := bind_eq_some_iff.1 h
    obtain ⟨hnext, hsame⟩ :=
      (writePromotion_spec hw).recorded (hnew p mem_cons_self) hrecorded
    obtain ⟨hlast, hsame'⟩ := ih hrest (fun q hq => hnew q (mem_cons_of_mem _ hq)) hnext
    exact ⟨hlast, hsame.trans hsame'⟩

/-- A change from the incident's status extends its trace. -/
theorem Recorded.transition (h : Recorded db) {row : IncidentRow} (hrow : row ∈ db.incidents)
    {next : IncidentStatus} (hallowed : incidentStatusTransitionAllowed row.status next = true)
    (now : Instant) (changedBy reason : String) :
    Recorded (writeTransition db now row.id row.status next changedBy reason) := by
  have hhistory : (writeTransition db now row.id row.status next changedBy reason).history =
      db.history ++ [⟨row.id, some row.status, next, changedBy, reason, now⟩] := rfl
  constructor
  case traces =>
    intro i hi
    obtain ⟨j, hj, rfl⟩ := mem_writeTransition.1 hi
    rw [historyOf, hhistory, filter_append, filter_singleton]
    by_cases hid : j.id = row.id
    · have hsame : j = row := eq_of_key_eq hj hrow hid
      subst hsame
      simp only [if_true, statusRow, decide_true]
      exact (h.traces j hj).snoc rfl hallowed
    · simp only [if_neg hid, Ne.symm hid, decide_false, cond_false, append_nil]
      exact h.traces j hj
  case known =>
    intro r hr
    have hkept : ∀ j ∈ db.incidents, ∃ i ∈ (writeTransition db now row.id row.status next
        changedBy reason).incidents, i.id = j.id := by
      intro j hj
      refine ⟨_, mem_writeTransition.2 ⟨j, hj, rfl⟩, ?_⟩
      split
      · rfl
      · rfl
    rw [hhistory] at hr
    rcases mem_append.1 hr with hr | hr
    · obtain ⟨j, hj, hid⟩ := h.known r hr
      obtain ⟨i, hi, hij⟩ := hkept j hj
      exact ⟨i, hi, hij.trans hid⟩
    · rw [mem_singleton.1 hr]
      exact hkept row hrow

/-! ## Sessions -/

/-- The incidents status changes have locked. -/
def incidentLocks (w : World) (k : Nat) : List Uuid :=
  ((w.operators[k]?).bind Operator.lock).toList

/-- A change about to be made is an allowed one from the incident's status. -/
def Due (db : Db) : Operator → Prop
  | .idle => True
  | .holding _ incident current next _ _ =>
    (∃ i ∈ db.incidents, i.id = incident ∧ i.status = current) ∧
      incidentStatusTransitionAllowed current next = true

structure Historied (w : World) : Prop where
  recorded : Recorded w.db
  exclusive : Exclusive (incidentLocks w)
  due : ∀ (k : Nat) (o : Operator), w.operators[k]? = some o → Due w.db o

theorem Due.kept {db' : Db} {o : Operator} (h : Due db o)
    (hsame : ∀ id ∈ o.lock, ∀ i ∈ db.incidents, i.id = id →
      ∃ i' ∈ db'.incidents, i'.id = i.id ∧ i'.status = i.status) : Due db' o := by
  cases o with
  | idle => trivial
  | holding start incident current next changedBy reason =>
    obtain ⟨⟨i, hi, hid, hstatus⟩, hallowed⟩ := h
    obtain ⟨i', hi', hid', hstatus'⟩ := hsame incident rfl i hi hid
    exact ⟨⟨i', hi', hid'.trans hid, hstatus'.trans hstatus⟩, hallowed⟩

/-- Nothing a correlation commits is about incidents. -/
theorem Historied.correlate {w : World} (h : Historied w) (corr : Correlation.Db)
    (correlators : List Session) : Historied (w.setCorrelators corr correlators) where
  recorded := ⟨h.recorded.traces, h.recorded.known⟩
  exclusive := h.exclusive
  due k o hk := (h.due k o hk).kept (fun _ _ i hi _ => ⟨i, hi, rfl, rfl⟩)

theorem Historied.promote {w : World} (h : Historied w) (hsynced : Synced w) {k : Nat}
    {p p' : Promoter} (hk : w.promoters[k]? = some p) (hs : Promotes w p db p') :
    Historied (w.setPromoter k db p') := by
  have hwrites : Recorded db ∧ SameStatuses w.db db := by
    cases hs with
    | @commit start done _ hwrites =>
      refine promotions_recorded hwrites (fun q hq row hrow => ?_) h.recorded
      have howns := (((hsynced.promoters k _ hk).ready.1) q hq).owner
      rw [hrow] at howns
      obtain ⟨id, hid⟩ := howns.1
      exact ⟨q.candidate, id, hid⟩
    | _ => exact ⟨h.recorded, fun i hi => ⟨i, hi, rfl, rfl⟩⟩
  exact ⟨hwrites.1, h.exclusive, fun j o hj =>
    (h.due j o hj).kept (fun _ _ i hi _ => hwrites.2 i hi)⟩

theorem Historied.operate {w : World} (h : Historied w) {k : Nat} {o o' : Operator}
    (hk : w.operators[k]? = some o) (hs : Operates w o db o') :
    Historied (w.setOperator k db o') := by
  have hlength : k < w.operators.length := (List.getElem?_eq_some_iff.1 hk).1
  have hown : incidentLocks (w.setOperator k db o') k = o'.lock.toList := by
    simp only [incidentLocks, World.setOperator, getElem?_set_self hlength, bind_some]
  have hothers : ∀ j, j ≠ k → incidentLocks (w.setOperator k db o') j = incidentLocks w j := by
    intro j hj
    simp only [incidentLocks, World.setOperator, getElem?_set_of_ne hj]
  have hrelease : o' = .idle → Exclusive (incidentLocks (w.setOperator k db o')) := by
    rintro rfl
    refine h.exclusive.release (fun j => ?_)
    by_cases hj : j = k
    · subst hj
      rw [hown]
      exact nil_sublist _
    · rw [hothers j hj]
  cases hs with
  | @hold start incident next changedBy reason row hfree hrow hallowed =>
    refine ⟨h.recorded, ?_, fun j t hj => ?_⟩
    · refine h.exclusive.acquire (i := k) (k := incident) (fun j hmem => ?_) ?_ hothers
      · obtain ⟨t, ht, hlock⟩ := bind_eq_some_iff.1 (mem_toList.1 hmem)
        exact hfree t (mem_of_getElem? ht) hlock
      · rw [hown, incidentLocks, hk]
        rfl
    · rcases getElem?_set_cases hj with ⟨-, rfl⟩ | ⟨-, hj⟩
      · exact ⟨⟨row, mem_of_get? hrow, key_of_get? hrow, rfl⟩, hallowed⟩
      · exact h.due j t hj
  | ends =>
    refine ⟨h.recorded, hrelease rfl, fun j t hj => ?_⟩
    rcases getElem?_set_cases hj with ⟨-, rfl⟩ | ⟨-, hj⟩
    · trivial
    · exact h.due j t hj
  | @commit start incident current next changedBy reason =>
    obtain ⟨⟨row, hrow, rfl, rfl⟩, hallowed⟩ := h.due k _ hk
    refine ⟨h.recorded.transition hrow hallowed start changedBy reason, hrelease rfl,
      fun j t hj => ?_⟩
    rcases getElem?_set_cases hj with ⟨-, rfl⟩ | ⟨hne, hj⟩
    · trivial
    · refine (h.due j t hj).kept (fun id hid i hi hi_id => ?_)
      -- another change is of another incident
      have hother : i.id ≠ row.id := by
        intro heq
        refine hne (h.exclusive.apart j k id ?_ ?_)
        · rw [incidentLocks, hj]
          exact mem_toList.2 hid
        · rw [incidentLocks, hk, ← hi_id, heq]
          exact mem_singleton_self _
      exact ⟨i, mem_writeTransition.2 ⟨i, hi, (if_neg hother).symm⟩, rfl, rfl⟩

theorem historied_init {w : World} (h : Initial w) : Historied w := by
  obtain ⟨-, hincidents, hhistory, -, -, -, n, hoperators⟩ := h
  have hidle : ∀ (k : Nat) (o : Operator), w.operators[k]? = some o → o = .idle := by
    intro k o hk
    rw [hoperators] at hk
    exact eq_of_mem_replicate (mem_of_getElem? hk)
  refine ⟨⟨fun i hi => ?_, fun row hrow => ?_⟩, ?_, fun k o hk => ?_⟩
  · rw [hincidents] at hi
    exact absurd hi not_mem_empty
  · rw [hhistory] at hrow
    exact absurd hrow not_mem_nil
  · refine exclusive_nil.release (fun k => ?_)
    cases hk : w.operators[k]? with
    | none => simp [incidentLocks, hk]
    | some o => simp [incidentLocks, hk, hidle k o hk, Operator.lock]
  · rw [hidle k o hk]
    trivial

theorem invariant_historied : incidentSystem.Invariant Historied := by
  refine inductive_synced.invariant.strengthen (fun w h => historied_init h) ?_
  intro w a w' _ hsynced h hstep
  cases a with
  | correlate a =>
    obtain ⟨k, s, corr, rfl, -⟩ := correlate_eq_some hstep
    exact h.correlate corr _
  | promote k a =>
    obtain ⟨p, hk, hstep⟩ := bind_eq_some_iff.1 hstep
    obtain ⟨⟨db, p'⟩, hs, rfl⟩ := map_eq_some_iff.1 hstep
    exact h.promote hsynced hk (promotes_of_promoterStep hs)
  | operate k a =>
    obtain ⟨o, hk, hstep⟩ := bind_eq_some_iff.1 hstep
    obtain ⟨⟨db, o'⟩, hs, rfl⟩ := map_eq_some_iff.1 hstep
    exact h.operate hk (operates_of_operatorStep hs)

/-! ## Requests -/

/-- The request is for a change from the incident's status that is allowed. -/
def AsksChange (db : Db) (incident : Uuid) (status reason : String) : Prop :=
  ∃ next text current, requestedStatus status reason = .ok (next, text) ∧
    requestedChange db incident next = .ok (some current)

/-- A request writes nothing before its commit; one that is refused or already met is over. -/
theorem request_eq_some {w w' : World} {k : Nat} {start : Instant} {incident : Uuid}
    {status changedBy reason : String}
    (h : exec w (.operate k (.request start incident status changedBy reason)) = some w') :
    w'.db = w.db ∧ (¬ AsksChange w.db incident status reason → w' = w) := by
  obtain ⟨o, hk, h⟩ := bind_eq_some_iff.1 h
  obtain ⟨⟨db, o'⟩, hs, rfl⟩ := map_eq_some_iff.1 h
  have hover : o = .idle → w.setOperator k w.db .idle = w := by
    rintro rfl
    have hset : w.operators.set k .idle = w.operators := by
      apply ext_getElem?
      intro j
      by_cases hj : j = k
      · subst hj
        rw [getElem?_set_self (List.getElem?_eq_some_iff.1 hk).1, hk]
      · rw [getElem?_set_of_ne hj]
    rw [World.setOperator, hset]
  cases o with
  | holding => cases hs
  | idle =>
    simp only [operatorStep] at hs
    split at hs
    case h_1 =>
      cases hs
      exact ⟨rfl, fun _ => hover rfl⟩
    case h_2 next text hrequested =>
      split at hs
      case isFalse => cases hs
      case isTrue =>
        split at hs
        case h_1 current hchange =>
          cases hs
          exact ⟨rfl, fun hno => absurd ⟨next, text, current, hrequested, hchange⟩ hno⟩
        case h_2 =>
          cases hs
          exact ⟨rfl, fun _ => hover rfl⟩
        case h_3 =>
          cases hs
          exact ⟨rfl, fun _ => hover rfl⟩

/-- In every reachable state each incident's history traces it to its status, and a request
that is refused or already met changes nothing. -/
theorem incident_history :
    incidentSystem.Invariant (fun w =>
      (∀ i ∈ w.db.incidents, Trace (historyOf w.db i.id) i.status) ∧
        ∀ k start incident status changedBy reason w',
          exec w (.operate k (.request start incident status changedBy reason)) = some w' →
            w'.db = w.db ∧ (¬ AsksChange w.db incident status reason → w' = w)) :=
  fun w hw => ⟨(invariant_historied w hw).recorded.traces,
    fun _ _ _ _ _ _ _ hstep => request_eq_some hstep⟩

/-- Two changes race for one incident: the one that comes second finds it acknowledged. -/
theorem incident_history_race : ∃ w, incidentSystem.Reachable w ∧
    w.db.incidents.rows.map IncidentRow.status = [.closed] ∧
    w.db.history.map (fun r => (r.previousStatus, r.newStatus)) =
      [(none, .detected), (some .detected, .acknowledged), (some .acknowledged, .closed)] ∧
    ∀ i ∈ w.db.incidents, Trace (historyOf w.db i.id) i.status := by
  let tables : Db :=
    ⟨emptyDb, Table.empty _, [], [], fun _ h => absurd h not_mem_empty,
      fun _ h => absurd h not_mem_nil⟩
  let s₀ : World := ⟨tables, [.idle], [.idle], [.idle, .idle]⟩
  let actions : List Action :=
    [.correlate (.lookup 0 (requestOf 0 5) []), .correlate (.commit 0 1),
      .promote 0 (.select 0 10 [firstCandidate .opened]), .promote 0 .pick, .promote 0 .proceed,
      .promote 0 .find, .promote 0 (.write 100), .promote 0 (.readEvents [5]), .promote 0 .link,
      .promote 0 (.relate []), .promote 0 .commit,
      .operate 0 (.request 1 100 "Acknowledged" "a" ""), .operate 1 (.request 1 100 "open?" "b" ""),
      .operate 0 .commit, .operate 1 (.request 2 100 "acknowledged" "b" ""),
      .operate 1 (.request 3 100 "IGNORED" "b" " noise "), .operate 1 .commit,
      .operate 0 (.request 4 100 "investigating" "a" "")]
  have hrun : (TSys.execAll exec s₀ actions).map (fun w => (w.db.incidents.rows.map
      IncidentRow.status, w.db.history.map (fun r => (r.previousStatus, r.newStatus)))) =
      some ([.closed], [(none, .detected), (some .detected, .acknowledged),
        (some .acknowledged, .closed)]) := by decide_cbv
  obtain ⟨w, hw, hstate⟩ := map_eq_some_iff.1 hrun
  obtain ⟨hstatuses, hhistory⟩ := Prod.mk.inj hstate
  have hreach : incidentSystem.Reachable w :=
    ⟨s₀, actions, ⟨rfl, rfl, rfl, rfl, ⟨1, rfl⟩, ⟨1, rfl⟩, 2, rfl⟩,
      TSys.run_of_execAll Initial exec hw⟩
  exact ⟨w, hreach, hstatuses, hhistory, (incident_history w hreach).1⟩

end Clawforge.Incidents

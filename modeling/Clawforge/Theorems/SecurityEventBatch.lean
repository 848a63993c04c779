import Clawforge.Api.SecurityEventBatch
import Clawforge.Sensors.Linux
import Clawforge.Theorems.SecurityEvents

/-!
# What a rejected item means

The sensors drop every item the ingress answered. That loses nothing as long as
"rejected" is for good: the item is malformed, invalid, out of the accepted time
range, or refused by a working database too. It is so exactly where the database
performed every statement of the item (`nothing_lost_iff`); a connection that breaks
is answered "rejected" as well, and the retry that nobody makes would be accepted
(`outage_reported_as_rejection`).
-/

namespace Clawforge.SecurityEventIngress

open Kit Pseudonym SecurityEvents SecurityEventStore List Option
open EventDelivery (Outcome)

/-! ## The statement -/

/-- A database that works performs the statement `a` of the call `k`, unless the row
is one the table refuses. -/
def Works (b : Backend) (sensorId : Uuid) (e : SensorEnvelope) (k : Nat) (a : Action) :
    Prop :=
  a.ofCall = some k → a.succeeds = true ∨
    ∃ now id text o, a = .openRow k now id (.failed text) ∧
      observe b.toEnv e = .ok o ∧ ¬ Storable (newRow b id sensorId e o)

/-- The database works throughout the turn of an item. -/
def WorkingDatabase (i : Ingress) (sensorId : Uuid) (raw : Json) (turn : Turn) : Prop :=
  ∀ e, i.decode raw = .ok e →
    ∀ a ∈ turn.statements, Works i.toBackend sensorId e turn.slot a

/-- A working database refuses the event. -/
inductive Refused (b : Backend) (w : World) (sensorId : Uuid) (e : SensorEnvelope) : Prop
  /-- it has no pseudonym for an address -/
  | unobservable (error : String) : observe b.toEnv e = .error error →
      Refused b w sensorId e
  | unstorable (o : Observation) : observe b.toEnv e = .ok o →
      (∀ id, ¬ Storable (newRow b id sensorId e o)) → Refused b w sensorId e
  /-- its key is stored with other content -/
  | taken (o : Observation) (r : EventRow) : observe b.toEnv e = .ok o → r ∈ w.rows →
      r.slot = (sensorId, e.dedupeKey) → ¬ Unchanged r e o → Refused b w sensorId e

/-- The item is one to reject. -/
inductive Permanent (i : Ingress) (w : World) (sensorId : Uuid) (now : Int) (raw : Json) :
    Prop
  | malformed (error : String) : i.decode raw = .error error →
      Permanent i w sensorId now raw
  | invalid (e : SensorEnvelope) (error : ValidationError) : i.decode raw = .ok e →
      e.validate = .error error → Permanent i w sensorId now raw
  | outOfRange (e : SensorEnvelope) (error : String) : i.decode raw = .ok e →
      checkClockSkew i e.occurredAt now = .error error → Permanent i w sensorId now raw
  | refused (e : SensorEnvelope) : i.decode raw = .ok e →
      Refused i.toBackend w sensorId e → Permanent i w sensorId now raw

/-- The item is out of the accepted time range, or every later retry with a working
database is rejected. -/
def RejectedForGood (i : Ingress) (w : World) (sensorId : Uuid) (now : Int) (raw : Json) :
    Prop :=
  (∃ e error, i.decode raw = .ok e ∧ checkClockSkew i e.occurredAt now = .error error) ∨
    ∀ as v now' turn result v', (system i.toBackend).Run w as v → now ≤ now' →
      WorkingDatabase i sensorId raw turn →
      processSecurityEventItem i v sensorId now' raw turn = some (result, v') →
      ∃ error, result = .error error

/-- The event is stored, and published. -/
def Stored (i : Ingress) (w : World) (sensorId : Uuid) (raw : Json) : Prop :=
  ∃ e o r, i.decode raw = .ok e ∧ observe i.toEnv e = .ok o ∧ r ∈ w.rows ∧
    RowOf r sensorId e o ∧ EventExists w.toStore r.id

/-- A sensor may drop the answered item: a rejection is for good, and an item that is
not one to reject is stored and published. -/
structure NothingLost (i : Ingress) (w : World) (sensorId : Uuid) (now : Int)
    (item : Json × Turn) (result : ItemResult) : Prop where
  rejected : result.status = "rejected" → RejectedForGood i w sensorId now item.1
  stored : Permanent i w sensorId now item.1 ∨ Stored i w sensorId item.1

/-! ## Rows that are there are storable -/

variable {a : Action} {b : Backend} {w w' : World} {e : SensorEnvelope} {k : Nat} {now : Int}
  {sensorId : Uuid} {c : SecurityEventStore.Call} {result : Except String Uuid} {as : List Action}
  {i : Ingress} {id : Uuid} {raw : Json} {item : Json × Turn}

theorem storable_step (h : exec b w a = some w') {r : EventRow} (hr : r ∈ w'.rows) :
    r ∈ w.rows ∨ Storable r := by
  cases exec_step h with
  | bus | other | refused | started | crash => exact .inl hr
  | statement _ _ hstatement =>
    rw [settle_toStore] at hr
    cases hstatement with
    | check => exact .inl hr
    | openRow _ hopen =>
      unfold openRow at hopen
      split at hopen
      · cases hopen
        exact .inl hr
      · split at hopen
        · split at hopen
          · rename_i hstorable
            obtain ⟨rows, hins, heq⟩ := map_eq_some_iff.1 hopen
            cases heq
            have hrows := Table.rows_insert? hins
            rw [Table.mem_def] at hr
            simp only [hrows, mem_append, mem_singleton] at hr
            rcases hr with hr | rfl
            · exact .inl hr
            · exact .inr hstorable
          · cases hopen
        · cases hopen
          exact .inl hr
    | publish _ hpub =>
      unfold publishRow at hpub
      split at hpub
      · cases hpub
        exact .inl hr
      · split at hpub
        · obtain ⟨_, _, heq⟩ := map_eq_some_iff.1 hpub
          cases heq
          exact .inl hr
        · cases hpub
          exact .inl hr

theorem rows_storable (b : Backend) :
    (system b).Invariant (fun w => ∀ r ∈ w.rows, Storable r) := by
  have hind : (system b).Inductive (fun w => ∀ r ∈ w.rows, Storable r) :=
    { init := by
        rintro w ⟨_, _, hrows, _⟩ r hr
        rw [Table.mem_def, hrows] at hr
        cases hr
      step := by
        intro w a w' hw hstep r hr
        rcases storable_step hstep hr with hold | hnew
        · exact hw r hold
        · exact hnew }
  exact hind.invariant

/-! ## One statement of a call -/

theorem calls_setCall (w : World) (k : Nat) (c : Option SecurityEventStore.Call) :
    (setCall w k c).calls k = c := by
  simp only [setCall, Function.update_self]

theorem settle_next (w : World) (k : Nat) (c : SecurityEventStore.Call) (stage : Stage) :
    (settle w k c (.next stage)).calls k = some { c with stage } :=
  Function.update_self _ _ _

theorem settle_done (w : World) (k : Nat) (c : SecurityEventStore.Call) (result : Except String Uuid) :
    (settle w k c (.done result)).calls k = none ∧
      (settle w k c (.done result)).answers =
        ⟨c.sensorId, c.envelope, result⟩ :: w.answers :=
  ⟨Function.update_self _ _ _, rfl⟩

/-- A statement of a call in flight takes it one stage further, or ends it. It goes on
or returns an id only where it succeeded; a working database makes it fail only for an
event it refuses. -/
inductive OwnStep (b : Backend) (w w' : World) (k : Nat) (c : SecurityEventStore.Call)
    (a : Action) : Prop
  | on (stage : Stage) : w'.calls k = some { c with stage } → a.succeeds = true →
      OwnStep b w w' k c a
  | returned (id : Uuid) : w'.calls k = none →
      w'.answers = ⟨c.sensorId, c.envelope, .ok id⟩ :: w.answers → a.succeeds = true →
      OwnStep b w w' k c a
  | failed (error : String) : w'.calls k = none →
      w'.answers = ⟨c.sensorId, c.envelope, .error error⟩ :: w.answers →
      (Works b c.sensorId c.envelope k a → Refused b w' c.sensorId c.envelope) →
      OwnStep b w w' k c a

theorem openRow_ownStep {now : Instant} {o : Observation} {outcome : Outcome} {p : Progress}
    {s : Store} (hobs : observe b.toEnv e = .ok o)
    (h : openRow b w.toStore now id sensorId e o outcome = some (p, s)) :
    OwnStep b w (settle { w with toStore := s } k ⟨sensorId, e, o, .started⟩ p) k
      ⟨sensorId, e, o, .started⟩ (.openRow k now id outcome) := by
  have hunstorable : ∀ {text : String}, outcome = .failed text →
      Works b sensorId e k (.openRow k now id outcome) → ∀ v : World,
      Refused b v sensorId e := by
    rintro text rfl hworks v
    rcases hworks rfl with hok | ⟨_, id', _, o', ha, ho', hno⟩
    · cases hok
    · rw [hobs] at ho'
      cases ho'
      exact .unstorable o hobs (fun _ => hno)
  have hlost : ∀ {text : String}, outcome = .unacknowledged text →
      ¬ Works b sensorId e k (.openRow k now id outcome) := by
    rintro text rfl hworks
    rcases hworks rfl with hok | ⟨_, _, _, _, ha, _⟩
    · cases hok
    · cases ha
  unfold openRow at h
  split at h
  · rename_i r hfind
    obtain ⟨hr, hslot⟩ := findRow_some hfind
    cases h
    cases outcome with
    | committed =>
      by_cases hsame : Unchanged r e o
      · rw [foundRow, if_pos hsame]
        exact .on _ (settle_next _ _ _ _) rfl
      · rw [foundRow, if_neg hsame]
        obtain ⟨hcalls, hanswers⟩ := settle_done w k ⟨sensorId, e, o, .started⟩
          (.error (changedText e.dedupeKey))
        exact .failed _ hcalls hanswers (fun _ => .taken o r hobs hr hslot hsame)
    | unacknowledged text =>
      obtain ⟨hcalls, hanswers⟩ := settle_done w k ⟨sensorId, e, o, .started⟩ (.error text)
      exact .failed _ hcalls hanswers (fun hworks => absurd hworks (hlost rfl))
    | failed text =>
      obtain ⟨hcalls, hanswers⟩ := settle_done w k ⟨sensorId, e, o, .started⟩ (.error text)
      exact .failed _ hcalls hanswers (fun hworks => hunstorable rfl hworks _)
  · split at h
    · rename_i heffect
      split at h
      · obtain ⟨rows, _, heq⟩ := map_eq_some_iff.1 h
        cases heq
        cases outcome with
        | committed => exact .on _ (settle_next _ _ _ _) rfl
        | unacknowledged text =>
          exact .failed text (settle_done _ _ _ _).1 (settle_done _ _ _ _).2
            (fun hworks => absurd hworks (hlost rfl))
        | failed text => cases heffect
      · cases h
    · rename_i hnone
      cases h
      cases outcome with
      | failed text =>
        obtain ⟨hcalls, hanswers⟩ := settle_done w k ⟨sensorId, e, o, .started⟩ (.error text)
        exact .failed _ hcalls hanswers (fun hworks => hunstorable rfl hworks _)
      | committed | unacknowledged text => exact absurd rfl hnone

theorem check_ownStep {answer : Except String Unit} :
    OwnStep b w (settle w k c (checkEvent w.toStore id answer)) k c (.check k answer) := by
  cases answer with
  | error text =>
    refine .failed text (settle_done _ _ _ _).1 (settle_done _ _ _ _).2 (fun hworks => ?_)
    rcases hworks rfl with hok | ⟨_, _, _, _, ha, _⟩
    · cases hok
    · cases ha
  | ok =>
    simp only [checkEvent]
    split
    · exact .returned id (settle_done _ _ _ _).1 (settle_done _ _ _ _).2 rfl
    · exact .on _ (settle_next _ _ _ _) rfl

theorem publish_ownStep {now : Instant} {eventId : Uuid} {newId : Uuid → Uuid}
    {row : Except String (Option IpReputationHit)} {outcome : Outcome} {s : Store}
    (hobs : observe b.toEnv c.envelope = .ok c.observation)
    (hvalid : c.envelope.evidence.validate = .ok ())
    (h : publishRow b.toEnv w.toStore now eventId newId id
      (securityEvent b id c.sensorId c.envelope c.observation
        (reputation c.envelope.resource row)) outcome = some (result, s)) :
    OwnStep b w (settle { w with toStore := s } k c (.done result)) k c
      (.publish k now eventId newId row outcome) := by
  have hlost : outcome ≠ .committed →
      ¬ Works b c.sensorId c.envelope k (.publish k now eventId newId row outcome) := by
    intro hne hworks
    rcases hworks rfl with hok | ⟨_, _, _, _, ha, _⟩
    · cases outcome with
      | committed => exact hne rfl
      | unacknowledged | failed => cases hok
    · cases ha
  obtain ⟨event, hsan⟩ := sanitizedEvent_isOk hvalid hobs id c.sensorId
    (reputation c.envelope.resource row)
  have hresult : result = outcome.result.map (fun _ => id) := by
    rw [publishRow, hsan] at h
    simp only at h
    split at h
    · obtain ⟨_, _, heq⟩ := map_eq_some_iff.1 h
      cases heq
      rfl
    · cases h
      rfl
  subst hresult
  cases outcome with
  | committed => exact .returned id (settle_done _ _ _ _).1 (settle_done _ _ _ _).2 rfl
  | unacknowledged text | failed text =>
    exact .failed text (settle_done _ _ _ _).1 (settle_done _ _ _ _).2
      (fun hworks => absurd hworks (hlost (by simp)))

theorem ownStep_of_exec (hflight : InFlight b.toEnv w.toStore c) (h : exec b w a = some w')
    (ha : a.ofCall = some k) (hlive : crashes k a = false) (hc : w.calls k = some c)
    (hvalid : c.envelope.evidence.validate = .ok ()) : OwnStep b w w' k c a := by
  cases exec_step h with
  | bus | other | refused | started => cases ha
  | crash =>
    cases ha
    simp [crashes] at hlive
  | statement ha' hcall hstatement =>
    cases ha.symm.trans ha'
    cases hc.symm.trans hcall
    cases hstatement with
    | openRow hs hopen =>
      cases ha
      obtain ⟨sensorId, e, o, stage⟩ := c
      cases hs
      exact openRow_ownStep hflight.observed hopen
    | check =>
      cases ha
      exact check_ownStep
    | publish _ hpub =>
      cases ha
      exact publish_ownStep hflight.observed hvalid hpub

/-! ## A whole call -/

theorem head_answer {x : Answer} {rest : List Answer} (hx : w.answers = x :: rest)
    (h : w.answers.head?.map (fun a => (a.result, w)) = some (result, w)) :
    x.result = result ∧ x ∈ w.answers := by
  rw [hx] at h ⊢
  cases h
  exact ⟨rfl, mem_cons_self⟩

/-- What the answer of a call that was made for `e` says. -/
structure CallAnswer (b : Backend) (sensorId : Uuid) (e : SensorEnvelope) (k : Nat)
    (statements : List Action) (result : Except String Uuid) (w' : World) : Prop where
  answered : ⟨sensorId, e, result⟩ ∈ w'.answers
  accepted : ∀ id, result = .ok id → ∀ a ∈ statements, Works b sensorId e k a
  rejected : ∀ error, result = .error error →
    (∀ a ∈ statements, Works b sensorId e k a) → Refused b w' sensorId e

theorem works_of_ne (ha : a.ofCall ≠ some k) : Works b sensorId e k a :=
  fun h => absurd h ha

theorem CallAnswer.cons {rest : List Action} (ha : Works b sensorId e k a)
    (h : CallAnswer b sensorId e k rest result w') :
    CallAnswer b sensorId e k (a :: rest) result w' where
  answered := h.answered
  accepted id hid x hx := by
    rcases mem_cons.1 hx with rfl | hx
    · exact ha
    · exact h.accepted id hid x hx
  rejected error herror hworks :=
    h.rejected error herror (fun x hx => hworks x (mem_cons_of_mem _ hx))

theorem awaitAnswer_done (hk : w.calls k = none) (h : awaitAnswer b k w as = some (result, w')) :
    as = [] ∧ w' = w ∧ w.answers.head?.map (fun a => (a.result, w)) = some (result, w) := by
  cases as with
  | nil =>
    rw [awaitAnswer, hk, isNone_none, if_pos rfl] at h
    obtain ⟨x, _, heq⟩ := map_eq_some_iff.1 h
    have hw : w = w' := congrArg Prod.snd heq
    subst hw
    exact ⟨rfl, rfl, h⟩
  | cons a rest =>
    rw [awaitAnswer, hk, if_pos (.inl rfl)] at h
    cases h

/-- The induction is on the statements; a call in flight stays the call it is. -/
theorem awaitAnswer_spec (hts : ∀ t, b.timestamptz t = timestampMicros t) :
    ∀ {w w' : World} {c : SecurityEventStore.Call} {result : Except String Uuid},
    (system b).Reachable w → w.calls k = some c → c.envelope.validate = .ok () →
    awaitAnswer b k w as = some (result, w') →
    (system b).Run w as w' ∧ CallAnswer b c.sensorId c.envelope k as result w' := by
  induction as with
  | nil =>
    intro w w' c result _ hc _ h
    rw [awaitAnswer, hc] at h
    cases h
  | cons a rest ih =>
    intro w w' c result hw hc hvalid h
    rw [awaitAnswer, hc] at h
    split at h
    · cases h
    · rename_i hlive
      have hlive' : crashes k a = false := by
        simpa using hlive
      obtain ⟨v, hexec, hrest⟩ := bind_eq_some_iff.1 h
      have hv := hw.step hexec
      by_cases ha : a.ofCall = some k
      · have hflight := (consistent_invariant hts w hw).calls k c hc
        cases ownStep_of_exec hflight hexec ha hlive' hc (evidence_valid hvalid) with
        | on stage hcalls hok =>
          obtain ⟨hrun, hanswer⟩ := ih hv hcalls hvalid hrest
          exact ⟨.cons hexec hrun, hanswer.cons (fun _ => .inl hok)⟩
        | returned id hcalls hanswers hok =>
          obtain ⟨rfl, rfl, hhead⟩ := awaitAnswer_done hcalls hrest
          obtain ⟨hresult, hmem⟩ := head_answer hanswers hhead
          refine ⟨.single hexec, hresult ▸ hmem, fun _ _ x hx => ?_, ?_⟩
          · rw [mem_singleton.1 hx]
            exact fun _ => .inl hok
          · rintro error rfl
            cases hresult
        | failed error hcalls hanswers hrefused =>
          obtain ⟨rfl, rfl, hhead⟩ := awaitAnswer_done hcalls hrest
          obtain ⟨hresult, hmem⟩ := head_answer hanswers hhead
          refine ⟨.single hexec, hresult ▸ hmem, ?_, fun _ _ hworks => ?_⟩
          · rintro id rfl
            cases hresult
          · exact hrefused (hworks a (mem_singleton_self _))
      · obtain ⟨hrun, hanswer⟩ := ih hv (calls_of_ne hexec ha hc) hvalid hrest
        exact ⟨.cons hexec hrun, hanswer.cons (works_of_ne ha)⟩

section

variable (hts : ∀ t, b.timestamptz t = timestampMicros t) (hw : (system b).Reachable w)
include hts hw

theorem recordSecurityEvent_spec (hvalid : e.validate = .ok ())
    (h : recordSecurityEvent b w k sensorId e as = some (result, w')) :
    (system b).Run w (.call k sensorId e :: as) w' ∧
      CallAnswer b sensorId e k as result w' := by
  obtain ⟨v, hcall, hawait⟩ := bind_eq_some_iff.1 h
  have hv := hw.step hcall
  have hexec := hcall
  simp only [exec] at hexec
  split at hexec
  · cases hexec
  · rename_i hfree
    split at hexec
    · rename_i error hobs
      cases hexec
      obtain ⟨rfl, rfl, hhead⟩ := awaitAnswer_done (by exact hfree) hawait
      obtain ⟨hresult, hmem⟩ := head_answer rfl hhead
      refine ⟨.single hcall, hresult ▸ hmem, ?_, fun _ _ _ => .unobservable error hobs⟩
      intro _ _ x hx
      cases hx
    · rename_i o hobs
      cases hexec
      have hc := calls_setCall w k (some ⟨sensorId, e, o, .started⟩)
      obtain ⟨hrun, hanswer⟩ := awaitAnswer_spec hts hv hc hvalid hawait
      exact ⟨.cons hcall hrun, hanswer⟩

/-! ## What later runs keep -/

theorem rows_kept (hrun : (system b).Run w as w') {r : EventRow} (hr : r ∈ w.rows) :
    r ∈ w'.rows := by
  refine hrun.relates (I := (system b).Reachable) (R := fun s t => ∀ r ∈ s.rows, r ∈ t.rows)
    (fun _ _ h => h) (fun _ _ _ h h' r hr => h' r (h r hr)) (fun s a t hs h => hs.step h) ?_
    hw r hr
  intro s a t hs h r hr
  exact (exec_spec hts (consistent_invariant hts s hs) h).1.rows.mem hr

theorem Refused.later (hrun : (system b).Run w as w') (h : Refused b w sensorId e) :
    Refused b w' sensorId e := by
  cases h with
  | unobservable error hobs => exact .unobservable error hobs
  | unstorable o hobs hno => exact .unstorable o hobs hno
  | taken o r hobs hr hslot hno => exact .taken o r hobs (rows_kept hts hw hrun hr) hslot hno

end

theorem Permanent.later (hts : ∀ t, i.timestamptz t = timestampMicros t)
    (hw : (system i.toBackend).Reachable w) (hrun : (system i.toBackend).Run w as w')
    (h : Permanent i w sensorId now raw) : Permanent i w' sensorId now raw := by
  cases h with
  | malformed error hraw => exact .malformed error hraw
  | invalid e error hraw hinvalid => exact .invalid e error hraw hinvalid
  | outOfRange e error hraw hclock => exact .outOfRange e error hraw hclock
  | refused e hraw hrefused => exact .refused e hraw (hrefused.later hts hw hrun)

theorem Stored.later (hts : ∀ t, i.timestamptz t = timestampMicros t)
    (hw : (system i.toBackend).Reachable w) (hrun : (system i.toBackend).Run w as w')
    (h : Stored i w sensorId raw) : Stored i w' sensorId raw := by
  obtain ⟨e, o, r, hraw, hobs, hr, hof, x, hx, hkey⟩ := h
  exact ⟨e, o, r, hraw, hobs, rows_kept hts hw hrun hr, hof, x,
    (run_kept hts hw hrun).events x hx, hkey⟩

/-- An event that a working database refuses is never recorded. -/
theorem not_accepted_of_refused (hts : ∀ t, b.timestamptz t = timestampMicros t)
    (hw : (system b).Reachable w) (hrun : (system b).Run w as w')
    (hrefused : Refused b w sensorId e) : ⟨sensorId, e, .ok id⟩ ∉ w'.answers := by
  intro hanswer
  have hw' := hw.run hrun
  have hconsistent := consistent_invariant hts w' hw'
  obtain ⟨_, o, hobs, r, hr, _, hof⟩ := hconsistent.answers _ hanswer id rfl
  cases hrefused.later hts hw hrun with
  | unobservable error hno =>
    rw [hno] at hobs
    cases hobs
  | unstorable o' hobs' hno =>
    have hsame := hobs.symm.trans hobs'
    cases hsame
    refine hno r.id ?_
    have hstorable := rows_storable b w' hw' r hr
    obtain ⟨_, _, _, hresource, hevidence⟩ := hof.unchanged
    have hkey : r.dedupeKey = e.dedupeKey := congrArg Prod.snd hof.slot
    unfold Storable at hstorable ⊢
    rw [hresource, hevidence, hkey] at hstorable
    exact hstorable
  | taken o' r' hobs' hr' hslot hno =>
    have hsame := hobs.symm.trans hobs'
    cases hsame
    have hrow := hconsistent.row_unique hr' hr (hslot.trans hof.slot.symm)
    subst hrow
    exact hno hof.unchanged

/-! ## A retry that is accepted -/

theorem awaitAnswer_cons {v : World} {rest : List Action} (hc : w.calls k = some c)
    (hlive : crashes k a = false) (hexec : exec b w a = some v) :
    awaitAnswer b k w (a :: rest) = awaitAnswer b k v rest := by
  rw [awaitAnswer, hc, hlive, hexec, if_neg (by simp)]
  rfl

theorem awaitAnswer_settled :
    awaitAnswer b k (settle w k c (.done result)) [] =
      some (result, settle w k c (.done result)) := by
  obtain ⟨hcalls, hanswers⟩ := settle_done w k c result
  rw [awaitAnswer, hcalls, hanswers]
  rfl

/-- Statements that succeed lead from `w` to the answer `id` of the call `k`. -/
def Accepts (b : Backend) (k : Nat) (w : World) : Prop :=
  ∃ as id v, (∀ a ∈ as, a.succeeds = true) ∧ awaitAnswer b k w as = some (.ok id, v)

theorem Accepts.cons {v : World} (hc : w.calls k = some c) (hlive : crashes k a = false)
    (hok : a.succeeds = true) (hexec : exec b w a = some v) (h : Accepts b k v) :
    Accepts b k w := by
  obtain ⟨as, id, v', has, hawait⟩ := h
  refine ⟨a :: as, id, v', fun x hx => ?_, (awaitAnswer_cons hc hlive hexec).trans hawait⟩
  rcases mem_cons.1 hx with rfl | hx
  · exact hok
  · exact has x hx

section Retry

variable {b : Backend} {k : Nat} {w : World} {sensorId : Uuid} {e : SensorEnvelope}
  {o : Observation}

section

variable (hvalid : e.evidence.validate = .ok ()) (hobs : observe b.toEnv e = .ok o)
include hvalid hobs

theorem accepts_publishing {id : Uuid} (hc : w.calls k = some ⟨sensorId, e, o, .publishing id⟩) :
    Accepts b k w := by
  obtain ⟨event, hsan⟩ :=
    sanitizedEvent_isOk hvalid hobs id sensorId (reputation e.resource (.ok none))
  obtain ⟨eventId, newId, ⟨eid, bus⟩, hpub⟩ := EventDelivery.publishOn_isSome w.bus event
  have hexec : exec b w (.publish k w.bus.db.now eventId newId (.ok none) .committed) =
      some (settle { w with bus := bus } k ⟨sensorId, e, o, .publishing id⟩
        (.done (.ok id))) := by
    simp only [exec, hc, publishRow, hsan, hpub, Outcome.takesEffect, if_true,
      map_some]
    rfl
  refine ⟨[_], id, _, ?_, (awaitAnswer_cons hc rfl hexec).trans awaitAnswer_settled⟩
  intro a ha
  rw [mem_singleton.1 ha]
  rfl

theorem accepts_checking {id : Uuid} (hc : w.calls k = some ⟨sensorId, e, o, .checking id⟩) :
    Accepts b k w := by
  have hexec : exec b w (.check k (.ok ())) =
      some (settle w k ⟨sensorId, e, o, .checking id⟩ (checkEvent w.toStore id (.ok ()))) := by
    simp only [exec, hc]
  by_cases hx : EventExists w.toStore id
  · rw [checkEvent, if_pos hx] at hexec
    refine ⟨[_], id, _, ?_, (awaitAnswer_cons hc rfl hexec).trans awaitAnswer_settled⟩
    intro a ha
    rw [mem_singleton.1 ha]
    rfl
  · rw [checkEvent, if_neg hx] at hexec
    exact .cons hc rfl rfl hexec (accepts_publishing hvalid hobs (settle_next _ _ _ _))

theorem accepts_started (hsame : ∀ r ∈ w.rows, r.slot = (sensorId, e.dedupeKey) → Unchanged r e o)
    (hstorable : ∀ id, Storable (newRow b id sensorId e o))
    (hc : w.calls k = some ⟨sensorId, e, o, .started⟩) : Accepts b k w := by
  cases hfind : findRow w.rows sensorId e.dedupeKey with
  | some r =>
    obtain ⟨hr, hslot⟩ := findRow_some hfind
    have hexec : exec b w (.openRow k 0 0 .committed) =
        some (settle w k ⟨sensorId, e, o, .started⟩ (.next (.checking r.id))) := by
      simp only [exec, hc, openRow, hfind, foundRow, if_pos (hsame r hr hslot),
        map_some]
    exact .cons hc rfl rfl hexec (accepts_checking hvalid hobs (settle_next _ _ _ _))
  | none =>
    obtain ⟨id, hid⟩ := EventDelivery.exists_fresh (w.rows.rows.map (·.id))
    have hins : (w.rows.insert? (newRow b id sensorId e o)).isSome = true := by
      refine Table.insert?_isSome.2 (fun x hx heq => ?_)
      have hlt := hid x.id (List.mem_map.2 ⟨x, hx, rfl⟩)
      rw [heq] at hlt
      exact Nat.lt_irrefl _ hlt
    obtain ⟨rows, hrows⟩ := isSome_iff_exists.1 hins
    obtain ⟨v, hexec⟩ : ∃ v : World, exec b w (.openRow k 0 id .committed) =
        some (settle v k ⟨sensorId, e, o, .started⟩ (.next (.publishing id))) := by
      simp only [exec, hc, openRow, hfind, Outcome.takesEffect, if_true,
        if_pos (hstorable id), hrows, map_some, afterCommit]
      exact ⟨_, rfl⟩
    exact .cons hc rfl rfl hexec (accepts_publishing hvalid hobs (settle_next _ _ _ _))

end

end Retry

theorem storable_newRow {id' : Uuid} {o : Observation} (h : Storable (newRow b id sensorId e o)) :
    Storable (newRow b id' sensorId e o) := h

/-- An item that is not one to reject is accepted on a retry, at once. -/
theorem accepted_retry (h : ¬ Permanent i w sensorId now raw) :
    ∃ v turn id v', (system i.toBackend).Run w [.crash 0] v ∧
      WorkingDatabase i sensorId raw turn ∧
      processSecurityEventItem i v sensorId now raw turn = some (.ok id, v') := by
  cases hraw : i.decode raw with
  | error error => exact absurd (.malformed error hraw) h
  | ok e =>
    cases hvalid : e.validate with
    | error error => exact absurd (.invalid e error hraw hvalid) h
    | ok =>
      cases hclock : checkClockSkew i e.occurredAt now with
      | error error => exact absurd (.outOfRange e error hraw hclock) h
      | ok =>
        have hnot : ¬ Refused i.toBackend w sensorId e :=
          fun hrefused => h (.refused e hraw hrefused)
        cases hobs : observe i.toEnv e with
        | error error => exact absurd (.unobservable error hobs) hnot
        | ok o =>
          have hsame : ∀ r ∈ w.rows, r.slot = (sensorId, e.dedupeKey) →
              Unchanged r e o := by
            intro r hr hslot
            by_contra hno
            exact hnot (.taken o r hobs hr hslot hno)
          have hstorable : ∀ id, Storable (newRow i.toBackend id sensorId e o) := by
            intro id
            by_contra hno
            exact hnot (.unstorable o hobs (fun _ h => hno (storable_newRow h)))
          have hcall : exec i.toBackend (setCall w 0 none) (.call 0 sensorId e) =
              some (setCall (setCall w 0 none) 0 (some ⟨sensorId, e, o, .started⟩)) := by
            have hfree := calls_setCall w 0 none
            simp only [exec, hfree, hobs]
          obtain ⟨as, id, v', has, hawait⟩ :=
            accepts_started (evidence_valid hvalid) hobs hsame hstorable
              (w := setCall (setCall w 0 none) 0 (some ⟨sensorId, e, o, .started⟩))
              (calls_setCall _ _ _)
          refine ⟨setCall w 0 none, ⟨[], 0, as⟩, id, v', .single rfl, ?_, ?_⟩
          · intro e' _ a ha _
            exact .inl (has a ha)
          · simp only [processSecurityEventItem, hraw, hvalid, hclock,
              recordSecurityEvent, hcall, bind_some, hawait]

/-! ## One item -/

theorem process_spec (hts : ∀ t, i.timestamptz t = timestampMicros t) {turn : Turn}
    (hw : (system i.toBackend).Reachable w)
    (h : processSecurityEventItem i w sensorId now raw turn = some (result, w')) :
    (∃ as, (system i.toBackend).Run w as w') ∧
      (∀ id, result = .ok id →
        WorkingDatabase i sensorId raw turn ∧ Stored i w' sensorId raw) ∧
      (∀ error, result = .error error → WorkingDatabase i sensorId raw turn →
        Permanent i w' sensorId now raw) := by
  unfold processSecurityEventItem at h
  split at h
  · rename_i error hraw
    cases h
    exact ⟨⟨[], .nil _⟩, (fun _ h => by cases h), fun _ _ _ => .malformed error hraw⟩
  · rename_i e hraw
    split at h
    · rename_i error hinvalid
      cases h
      exact ⟨⟨[], .nil _⟩, (fun _ h => by cases h),
        fun _ _ _ => .invalid e error hraw hinvalid⟩
    · rename_i hvalid
      split at h
      · rename_i error hclock
        cases h
        exact ⟨⟨[], .nil _⟩, (fun _ h => by cases h),
          fun _ _ _ => .outOfRange e error hraw hclock⟩
      · obtain ⟨hrun, hanswer⟩ := recordSecurityEvent_spec hts hw hvalid h
        have only : ∀ {e'}, i.decode raw = .ok e' → e' = e := by
          intro e' he'
          rw [hraw] at he'
          cases he'
          rfl
        refine ⟨⟨_, hrun⟩, fun id hid => ⟨?_, ?_⟩, fun error herror hworks => ?_⟩
        · intro e' he' a ha
          rw [only he']
          exact hanswer.accepted id hid a ha
        · have hconsistent := consistent_invariant hts w' (hw.run hrun)
          obtain ⟨hx, o, hobs, r, hr, hrid, hof⟩ :=
            hconsistent.answers _ hanswer.answered id hid
          exact ⟨e, o, r, hraw, hobs, hr, hof, hrid.symm ▸ hx⟩
        · exact .refused e hraw (hanswer.rejected error herror (hworks e hraw))

/-- An item is rejected for good exactly if it is one to reject. -/
theorem rejectedForGood_iff (hts : ∀ t, i.timestamptz t = timestampMicros t)
    (hw : (system i.toBackend).Reachable w) :
    RejectedForGood i w sensorId now raw ↔ Permanent i w sensorId now raw := by
  constructor
  · rintro (⟨e, error, hraw, hclock⟩ | hretries)
    · exact .outOfRange e error hraw hclock
    · by_contra hnot
      obtain ⟨v, turn, id, v', hrun, hworks, hok⟩ := accepted_retry hnot
      obtain ⟨error, herror⟩ := hretries _ v now turn _ v' hrun le_rfl hworks hok
      cases herror
  · intro hpermanent
    cases hpermanent with
    | outOfRange e error hraw hclock => exact .inl ⟨e, error, hraw, hclock⟩
    | malformed error hraw =>
      refine .inr (fun as v now' turn result v' _ _ _ h => ?_)
      simp only [processSecurityEventItem, hraw] at h
      cases h
      exact ⟨_, rfl⟩
    | invalid e error hraw hinvalid =>
      refine .inr (fun as v now' turn result v' _ _ _ h => ?_)
      simp only [processSecurityEventItem, hraw, hinvalid] at h
      cases h
      exact ⟨_, rfl⟩
    | refused e hraw hrefused =>
      refine .inr (fun as v now' turn result v' hrun _ _ h => ?_)
      cases result with
      | error error => exact ⟨error, rfl⟩
      | ok id =>
        exfalso
        simp only [processSecurityEventItem, hraw] at h
        split at h
        · cases h
        · rename_i hvalid
          split at h
          · cases h
          · have hv := hw.run hrun
            obtain ⟨hrun', hanswer⟩ := recordSecurityEvent_spec hts hv hvalid h
            exact not_accepted_of_refused hts hv hrun' (hrefused.later hts hw hrun)
              hanswer.answered

/-! ## A whole batch -/

/-- What the result of an item says. -/
structure ItemAnswer (i : Ingress) (w : World) (sensorId : Uuid) (now : Int)
    (item : Json × Turn) (result : ItemResult) : Prop where
  status : result.status = "accepted" ∨ result.status = "rejected"
  accepted : result.status = "accepted" →
    WorkingDatabase i sensorId item.1 item.2 ∧ Stored i w sensorId item.1
  rejected : result.status = "rejected" → WorkingDatabase i sensorId item.1 item.2 →
    Permanent i w sensorId now item.1

theorem ItemAnswer.later (hts : ∀ t, i.timestamptz t = timestampMicros t) {result : ItemResult}
    (hw : (system i.toBackend).Reachable w) (hrun : (system i.toBackend).Run w as w')
    (h : ItemAnswer i w sensorId now item result) :
    ItemAnswer i w' sensorId now item result where
  status := h.status
  accepted hstatus := ⟨(h.accepted hstatus).1, (h.accepted hstatus).2.later hts hw hrun⟩
  rejected hstatus hworks := (h.rejected hstatus hworks).later hts hw hrun

theorem itemAnswer_itemResult (index : Nat)
    (hok : ∀ id, result = .ok id →
      WorkingDatabase i sensorId item.1 item.2 ∧ Stored i w sensorId item.1)
    (herror : ∀ error, result = .error error → WorkingDatabase i sensorId item.1 item.2 →
      Permanent i w sensorId now item.1) :
    ItemAnswer i w sensorId now item (itemResult index result) := by
  cases result with
  | ok id => exact ⟨.inl rfl, fun _ => hok id rfl, fun h => absurd h (by simp [itemResult])⟩
  | error error =>
    exact ⟨.inr rfl, fun h => absurd h (by simp [itemResult]), fun _ => herror error rfl⟩

/-- The induction is on the items; what was said of an item stays true while the rest
of the batch is processed. -/
theorem processItems_spec (hts : ∀ t, i.timestamptz t = timestampMicros t)
    {items : List (Json × Turn)} :
    ∀ {w w' : World} {index : Nat} {results : List ItemResult},
      (system i.toBackend).Reachable w →
      processItems i sensorId now w index items = some (results, w') →
      (∃ as, (system i.toBackend).Run w as w') ∧
        Forall₂ (ItemAnswer i w' sensorId now) items results := by
  induction items with
  | nil =>
    intro w w' index results _ h
    cases h
    exact ⟨⟨[], .nil _⟩, .nil⟩
  | cons item rest ih =>
    intro w w' index results hw h
    obtain ⟨u, hbefore, h⟩ := bind_eq_some_iff.1 h
    obtain ⟨⟨result, v⟩, hitem, h⟩ := bind_eq_some_iff.1 h
    obtain ⟨⟨results', w''⟩, hrest, h⟩ := bind_eq_some_iff.1 h
    cases h
    have hrunBefore := TSys.run_of_execAll Initial _ hbefore
    have hu := hw.run hrunBefore
    obtain ⟨⟨as, hrunItem⟩, hok, herror⟩ := process_spec hts hu hitem
    have hv := hu.run hrunItem
    obtain ⟨⟨as', hrunRest⟩, hall⟩ := ih hv hrest
    refine ⟨⟨_, (hrunBefore.append hrunItem).append hrunRest⟩, .cons ?_ hall⟩
    exact (itemAnswer_itemResult index hok herror).later hts hv hrunRest

/-- For an answered item nothing is lost exactly if the database worked throughout its
turn, or the item is one to reject. -/
theorem ItemAnswer.nothingLost_iff (hts : ∀ t, i.timestamptz t = timestampMicros t)
    {result : ItemResult} (hw : (system i.toBackend).Reachable w)
    (h : ItemAnswer i w sensorId now item result) :
    NothingLost i w sensorId now item result ↔
      WorkingDatabase i sensorId item.1 item.2 ∨ Permanent i w sensorId now item.1 := by
  constructor
  · intro hlost
    rcases h.status with hstatus | hstatus
    · exact .inl (h.accepted hstatus).1
    · exact .inr ((rejectedForGood_iff hts hw).1 (hlost.rejected hstatus))
  · intro hcond
    have hpermanent : result.status = "rejected" → Permanent i w sensorId now item.1 := by
      intro hstatus
      rcases hcond with hworks | hpermanent
      · exact h.rejected hstatus hworks
      · exact hpermanent
    refine ⟨fun hstatus => (rejectedForGood_iff hts hw).2 (hpermanent hstatus), ?_⟩
    rcases h.status with hstatus | hstatus
    · exact .inr (h.accepted hstatus).2
    · exact .inl (hpermanent hstatus)

theorem forall₂_iff_of_forall₂ {α β : Type} {R S : α → β → Prop} {P : α → Prop}
    {xs : List α} {ys : List β} (h : Forall₂ R xs ys)
    (hiff : ∀ x y, R x y → (S x y ↔ P x)) : Forall₂ S xs ys ↔ ∀ x ∈ xs, P x := by
  induction h with
  | nil => simp
  | cons hxy _ ih => rw [forall₂_cons, ih, hiff _ _ hxy, forall_mem_cons]

theorem batch_spec (hts : ∀ t, i.timestamptz t = timestampMicros t) {items : List (Json × Turn)}
    {answer : BatchAnswer} (hw : (system i.toBackend).Reachable w)
    (h : internalSecurityEventsBatch i w (.sensor sensorId) now items = some (.ok answer, w')) :
    (system i.toBackend).Reachable w' ∧
      Forall₂ (ItemAnswer i w' sensorId now) items answer.results := by
  simp only [internalSecurityEventsBatch] at h
  split at h
  · cases h
  · split at h
    · cases h
    · obtain ⟨⟨results, v⟩, hitems, heq⟩ := map_eq_some_iff.1 h
      cases heq
      obtain ⟨⟨as, hrun⟩, hall⟩ := processItems_spec hts hw hitems
      exact ⟨hw.run hrun, hall⟩

/-- **Rejections.** Where a `TIMESTAMPTZ` keeps the microseconds of an instant: a sensor
may drop what a batch answered exactly if for each of its items the database performed
every statement, or the item is one to reject. -/
theorem nothing_lost_iff {i : Ingress} (hts : ∀ t, i.timestamptz t = timestampMicros t)
    {w w' : World} {sensorId : Uuid} {now : Int} {items : List (Json × Turn)}
    {answer : BatchAnswer} (hw : (system i.toBackend).Reachable w)
    (h : internalSecurityEventsBatch i w (.sensor sensorId) now items =
      some (.ok answer, w')) :
    Forall₂ (NothingLost i w' sensorId now) items answer.results ↔
      ∀ item ∈ items, WorkingDatabase i sensorId item.1 item.2 ∨
        Permanent i w' sensorId now item.1 := by
  obtain ⟨hw', hall⟩ := batch_spec hts hw h
  exact forall₂_iff_of_forall₂ hall (fun _ _ hitem => hitem.nothingLost_iff hts hw')

/-! ## The sensor that drops what was answered -/

theorem results_body (timestamp : String) (a : BatchAnswer) :
    Sensors.results (a.body timestamp) = some (a.results.map ItemResult.toJson) := by
  simp [Sensors.results, Sensors.index, BatchAnswer.body, Json.ofFields,
    Json.lookup_insertField, Json.get, Json.asArray]

/-! ## An outage -/

/-- The JSON of `escapeAttempt`. -/
def escapeJson : Json :=
  .ofFields
    [ ("occurred_at", .string "2026-07-25T17:20:00.123456789Z"), ("source", .string "docker")
    , ("severity", .string "high"), ("resource", .string "web")
    , ("dedupe_key", .string "docker:1"), ("event_type", .string "container_escape_attempt")
    , ("container_id", .string "c0ffee"), ("image", .string "nginx")
    , ("technique", .string "mount") ]

def sampleIngress : Ingress :=
  { sampleBackend with
    decode := fun raw =>
      if raw = escapeJson then .ok escapeAttempt else .error "missing field"
    maxFutureSkew := 300 * 1000000000
    maxPastAge := 86400 * 1000000000 }

/-- One valid item, whose first statement meets a closed connection. -/
def interrupted : List (Json × Turn) :=
  [(escapeJson, ⟨[], 0, [.openRow 0 10 7 (.failed "connection closed")]⟩)]

/-- The same item with a database that works. -/
def retried : Turn :=
  ⟨[], 0, [.openRow 0 20 8 .committed, .publish 0 30 9 (fun c => c) (.ok none) .committed]⟩

theorem initial_oneConsumer : Initial oneConsumer := ⟨rfl, rfl, rfl, fun _ => rfl, rfl⟩

theorem nothing_lost_interrupted :
    ∃ answer w', internalSecurityEventsBatch sampleIngress oneConsumer (.sensor 5)
        1785000001000000000 interrupted = some (.ok answer, w') ∧
      (Forall₂ (NothingLost sampleIngress w' 5 1785000001000000000) interrupted
          answer.results ↔
        ∀ item ∈ interrupted, WorkingDatabase sampleIngress 5 item.1 item.2 ∨
          Permanent sampleIngress w' 5 1785000001000000000 item.1) := by
  have hrun : (internalSecurityEventsBatch sampleIngress oneConsumer (.sensor 5)
      1785000001000000000 interrupted).bind (fun r => r.1.toOption) =
        some (batchAnswer [⟨0, "rejected", none, some "connection closed"⟩]) := by
    decide +kernel
  obtain ⟨⟨result, w'⟩, hbatch, hanswer⟩ := bind_eq_some_iff.1 hrun
  cases result with
  | error => cases hanswer
  | ok answer =>
    exact ⟨answer, w', hbatch, nothing_lost_iff (fun _ => rfl) (.init initial_oneConsumer)
      hbatch⟩

/-- A sensor may drop whatever any batch answers. -/
def NeverLoses (i : Ingress) : Prop :=
  ∀ w w' sensorId now items answer, (system i.toBackend).Reachable w →
    internalSecurityEventsBatch i w (.sensor sensorId) now items = some (.ok answer, w') →
    Forall₂ (NothingLost i w' sensorId now) items answer.results

/-- The item is answered "rejected", and accepted when it is sent again. -/
theorem outage_reported_as_rejection : ¬ NeverLoses sampleIngress := by
  intro h
  have hrun : (internalSecurityEventsBatch sampleIngress oneConsumer (.sensor 5)
      1785000001000000000 interrupted).bind (fun r => r.1.toOption.bind (fun answer =>
        (processSecurityEventItem sampleIngress r.2 5 1785000002000000000 escapeJson
          retried).bind (fun r' => r'.1.toOption.map (fun id => (answer.results, id))))) =
        some ([⟨0, "rejected", none, some "connection closed"⟩], 8) := by
    decide +kernel
  obtain ⟨⟨result, w'⟩, hbatch, hrun⟩ := bind_eq_some_iff.1 hrun
  obtain ⟨answer, hanswer, hrun⟩ := bind_eq_some_iff.1 hrun
  obtain ⟨⟨result', v⟩, hretry, hrun⟩ := bind_eq_some_iff.1 hrun
  obtain ⟨id, hid, hpair⟩ := map_eq_some_iff.1 hrun
  have hresults : answer.results = _ := congrArg Prod.fst hpair
  cases result with
  | error => cases hanswer
  | ok =>
    cases hanswer
    have hall := h _ _ _ _ _ _ (.init initial_oneConsumer) hbatch
    rw [hresults] at hall
    cases hall with
    | cons hitem _ =>
      rcases hitem.rejected rfl with ⟨e, error, hraw, hclock⟩ | hforever
      · have hin : (match sampleIngress.decode escapeJson with
            | .ok e => (checkClockSkew sampleIngress e.occurredAt 1785000001000000000).toOption
            | .error _ => none) = some () := by
          decide_cbv
        rw [hraw] at hin
        simp only [hclock] at hin
        cases hin
      · obtain ⟨error, herror⟩ := hforever [] w' 1785000002000000000 retried _ v (.nil _)
          (by decide) (by
            intro _ _ a ha _
            simp only [retried, mem_cons, not_mem_nil, or_false] at ha
            rcases ha with rfl | rfl <;> exact .inl rfl) hretry
        rw [herror] at hid
        cases hid

end Clawforge.SecurityEventIngress

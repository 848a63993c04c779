import Clawforge.Storage.AuditOutbox
import Clawforge.Theorems.Publication

/-!
# Exactly-once publication of audit events

A step does one of a few things to the bus (`BusStep`), to the outbox
(`OutboxStep`) and to a flush run (`RunStep`). From these, in every reachable
state: a row marked as published has exactly one canonical event, made from it,
and no row ever has two (`exactlyOnce_invariant`); and a consumer that was
enabled when an event was inserted has exactly one delivery of it from then on.
-/

namespace Clawforge.AuditOutbox

open Kit EventDelivery Pseudonym Table List Option

/-! ## What a step does -/

/-- What a step does to the bus. -/
inductive BusStep (env : Env) (w w' : World) : Prop
  | same : SameRows w.bus.db w'.bus.db → BusStep env w w'
  | other (src : EventSource) (e : NewEvent) (eventId id : Uuid) :
      e.dedupeKey = src.dedupeKey → src.isAudit = false →
      Published w.bus.db eventId e id w'.bus.db → BusStep env w w'
  | flushed (run : Nat) (row : OutboxRow) (rest : List OutboxRow) (t : Instant)
      (e : NewEvent) (eventId id : Uuid) :
      w.runs run = some ⟨row :: rest, none⟩ → sanitizedEvent env (auditEvent row t) = .ok e →
      Published w.bus.db eventId e id w'.bus.db → BusStep env w w'

/-- What a step does to the outbox. -/
inductive OutboxStep (w w' : World) : Prop
  | same : w'.outbox = w.outbox → w.nextAuditId ≤ w'.nextAuditId → OutboxStep w w'
  | inserted (r : OutboxRow) : w'.outbox.rows = w.outbox.rows ++ [r] →
      r.auditEventId = w.nextAuditId → r.publishedAt = none →
      w'.nextAuditId = w.nextAuditId + 1 → OutboxStep w w'
  | marked (run : Nat) (row : OutboxRow) (rest : List OutboxRow)
      (result : Except String Unit) (now : Instant) :
      w.runs run = some ⟨row :: rest, some result⟩ →
      w'.outbox = markRow w.outbox now row.id result → w'.nextAuditId = w.nextAuditId →
      OutboxStep w w'

/-- Where a flush run stands after a step. -/
inductive RunStep (w w' : World) (f : Flush) : Option Flush → Prop
  | same : RunStep w w' f (some f)
  | started : (∀ r ∈ f.rows, r ∈ w.outbox) → f.result = none → RunStep w w' f none
  | published (row rest result) : f = ⟨row :: rest, some result⟩ →
      (result = .ok () → ∃ x ∈ w'.bus.db.events, x.dedupeKey = auditKey row) →
      RunStep w w' f (some ⟨row :: rest, none⟩)
  | marked (row rest result) : f = ⟨rest, none⟩ →
      RunStep w w' f (some ⟨row :: rest, some result⟩)

variable {w w' : World} {env : Env} {r : OutboxRow}

/-- A run other than the one that was set is where it was. -/
theorem runStep_setRun {v : World} {run run' : Nat} {g : Option Flush} {f : Flush}
    (hruns : v.runs = w.runs) (hself : ∀ f, g = some f → RunStep w (setRun v run g) f (w.runs run))
    (h : (setRun v run g).runs run' = some f) : RunStep w (setRun v run g) f (w.runs run') := by
  by_cases hr : run' = run
  · subst hr
    refine hself f ?_
    simpa [setRun] using h
  · have hsame : w.runs run' = some f := by
      rw [← hruns]
      simpa [setRun, Function.update_of_ne hr] using h
    rw [hsame]
    exact .same

theorem runs_some {v : World} {run : Nat} {f : Flush} {before : Option Flush}
    (hruns : v.runs = w.runs) (hrun : w.runs run = before)
    (h : RunStep w (setRun v run (some f)) f before) (run' : Nat) (f' : Flush)
    (hf : (setRun v run (some f)).runs run' = some f') :
    RunStep w (setRun v run (some f)) f' (w.runs run') := by
  refine runStep_setRun hruns (fun f' hf => ?_) hf
  cases hf
  rw [hrun]
  exact h

theorem runs_none {v : World} {run : Nat} (hruns : v.runs = w.runs) (run' : Nat) (f : Flush)
    (hf : (setRun v run none).runs run' = some f) :
    RunStep w (setRun v run none) f (w.runs run') :=
  runStep_setRun hruns (fun f hf => by cases hf) hf

theorem exec_steps {a : Action} (hsound : Sound w.bus.db) (h : exec env w a = some w') :
    BusStep env w w' ∧ OutboxStep w w' ∧
      ∀ run f, w'.runs run = some f → RunStep w w' f (w.runs run) := by
  have idle : ∀ run f, w.runs run = some f → RunStep w w' f (w.runs run) := by
    intro run f hf
    rw [hf]
    exact .same
  cases a with
  | bus a =>
    simp only [exec] at h
    split at h
    · cases h
    · rename_i hnot
      obtain ⟨bus, hbus, rfl⟩ := map_eq_some_iff.1 h
      refine ⟨.same (exec_sameRows hbus ?_), .same rfl le_rfl, idle⟩
      rintro now eventId newId e rfl
      exact hnot rfl
  | publishOther src now eventId newId e =>
    simp only [exec] at h
    split at h
    · rename_i hkey
      obtain ⟨⟨id, bus⟩, hpub, rfl⟩ := map_eq_some_iff.1 h
      exact ⟨.other src e eventId id hkey.1 hkey.2 (publishOn_spec hsound hpub),
        .same rfl le_rfl, idle⟩
    · cases h
  | insert now outboxId actor action resource details =>
    simp only [exec] at h
    split at h
    · obtain ⟨audit, _, h⟩ := bind_eq_some_iff.1 h
      obtain ⟨outbox, hins, rfl⟩ := map_eq_some_iff.1 h
      exact ⟨.same (.refl _), .inserted _ (rows_insert? hins) rfl rfl rfl, idle⟩
    · cases h
  | rollBack =>
    cases h
    exact ⟨.same (.refl _), .same rfl (Nat.le_succ _), idle⟩
  | read run limit locked =>
    simp only [exec] at h
    split at h
    · cases h
    · rename_i hnone
      cases h
      refine ⟨.same (.refl _), .same rfl le_rfl,
        runs_some rfl hnone (.started (fun r hr => ?_) rfl)⟩
      have hsorted := mem_of_mem_take hr
      rw [mem_insertionSort] at hsorted
      exact mem_of_mem_filter hsorted
  | publish run now occurredAt eventId newId outcome =>
    simp only [exec] at h
    split at h
    · rename_i row rest hrun
      unfold flushPublish at h
      split at h
      · cases h
        exact ⟨.same (.refl _), .same rfl le_rfl,
          runs_some rfl hrun (.published row rest _ rfl nofun)⟩
      · rename_i e he
        split at h
        · obtain ⟨⟨id, bus⟩, hpub, rfl⟩ := map_eq_some_iff.1 h
          have hspec := publishOn_spec hsound hpub
          refine ⟨.flushed run row rest occurredAt e eventId id hrun he hspec,
            .same rfl le_rfl, runs_some rfl hrun (.published row rest _ rfl fun _ => ?_)⟩
          obtain ⟨x, hx, hkey, _⟩ := hspec.exists_event
          exact ⟨x, hx, hkey.trans (sanitizedEvent_ok he).1⟩
        · rename_i heff
          cases h
          refine ⟨.same (.refl _), .same rfl le_rfl,
            runs_some rfl hrun (.published row rest _ rfl fun hok => ?_)⟩
          cases outcome with
          | failed => cases hok
          | committed | unacknowledged => exact absurd rfl heff
    · cases h
  | mark run now outcome =>
    simp only [exec] at h
    split at h
    · rename_i row rest result hrun
      split at h
      · cases h
        cases outcome with
        | committed =>
          exact ⟨.same (.refl _), .marked run row rest result now hrun rfl rfl,
            runs_some rfl hrun (.marked row rest result rfl)⟩
        | unacknowledged error =>
          exact ⟨.same (.refl _), .marked run row rest result now hrun rfl rfl, runs_none rfl⟩
        | failed error =>
          exact ⟨.same (.refl _), .same rfl le_rfl, runs_none rfl⟩
      · cases h
    · cases h
  | crash run =>
    cases h
    exact ⟨.same (.refl _), .same rfl le_rfl, runs_none rfl⟩

/-! ## Rows -/

/-- The columns of an outbox row that no statement updates. -/
def OutboxRow.content (r : OutboxRow) : Uuid × Nat × String × String × Json :=
  (r.id, r.auditEventId, r.eventType, r.resource, r.payload)

theorem auditEvent_congr {r' : OutboxRow} (h : r.content = r'.content) (t : Instant) :
    auditEvent r t = auditEvent r' t := by
  simp only [OutboxRow.content, Prod.mk.injEq] at h
  obtain ⟨_, hid, htype, hresource, hpayload⟩ := h
  unfold auditEvent auditKey
  rw [hid, htype, hresource, hpayload]

theorem auditKey_congr {r' : OutboxRow} (h : r.content = r'.content) : auditKey r = auditKey r' :=
  congrArg NewEvent.dedupeKey (auditEvent_congr h 0)

theorem id_of_content {r' : OutboxRow} (h : r.content = r'.content) : r.id = r'.id :=
  congrArg Prod.fst h

theorem auditEventId_of_content {r' : OutboxRow} (h : r.content = r'.content) :
    r.auditEventId = r'.auditEventId :=
  congrArg (fun c => c.2.1) h

theorem settledRow_content (now : Instant) (result : Except String Unit) (r : OutboxRow) :
    (settledRow now result r).content = r.content := by
  cases result <;> rfl

/-- Rows are never lost, and keep their content. -/
theorem OutboxStep.kept (h : OutboxStep w w') (hr : r ∈ w.outbox) :
    ∃ r' ∈ w'.outbox, r'.content = r.content := by
  cases h with
  | same hout _ => exact ⟨r, hout ▸ hr, rfl⟩
  | inserted new hrows _ _ _ =>
    refine ⟨r, ?_, rfl⟩
    rw [Table.mem_def, hrows]
    exact mem_append_left _ hr
  | marked run row rest result now _ hout _ =>
    refine ⟨if r.id = row.id ∧ r.publishedAt = none then settledRow now result r else r,
      ?_, ?_⟩
    · rw [hout]
      exact mem_updateWhere.2 ⟨r, hr, rfl⟩
    split
    · exact settledRow_content now result r
    · rfl

theorem mem_outbox_append (h : w'.outbox.rows = w.outbox.rows ++ [r]) {x : OutboxRow} :
    x ∈ w'.outbox ↔ x ∈ w.outbox ∨ x = r := by
  rw [Table.mem_def, h, mem_append, mem_singleton]
  exact Iff.rfl

theorem BusStep.kept (h : BusStep env w w') : Kept w.bus.db w'.bus.db := by
  cases h with
  | same hrows => exact hrows.kept
  | other src e eventId id _ _ hpub => exact hpub.kept
  | flushed run row rest t e eventId id _ _ hpub => exact hpub.kept

/-! ## Consistent worlds -/

/-- The event is the one a flush run makes of the row. -/
def MadeFrom (env : Env) (r : OutboxRow) (x : Event) : Prop :=
  ∃ t e, sanitizedEvent env (auditEvent r t) = .ok e ∧ x.eventType = e.eventType ∧
    x.source = e.source ∧ x.payload = e.payload ∧ x.metadata = e.metadata ∧
    x.correlationId = e.correlationId

structure Consistent (env : Env) (w : World) : Prop where
  sound : Sound w.bus.db
  ids : ∀ r ∈ w.outbox, r.auditEventId < w.nextAuditId
  unique : (w.outbox.rows.map (·.auditEventId)).Nodup
  published : ∀ r ∈ w.outbox, r.publishedAt ≠ none →
    ∃ x ∈ w.bus.db.events, x.dedupeKey = auditKey r
  batches : ∀ run f, w.runs run = some f → ∀ r ∈ f.rows, ∃ r' ∈ w.outbox,
    r'.content = r.content
  results : ∀ run row rest, w.runs run = some ⟨row :: rest, some (.ok ())⟩ →
    ∃ x ∈ w.bus.db.events, x.dedupeKey = auditKey row
  origin : ∀ x ∈ w.bus.db.events, ∀ n, x.dedupeKey = (EventSource.audit n).dedupeKey →
    ∃ r ∈ w.outbox, r.auditEventId = n ∧ MadeFrom env r x

theorem sound_step (hw : Sound w.bus.db) (h : BusStep env w w') : Sound w'.bus.db := by
  cases h with
  | same hrows => exact hw.sameRows hrows
  | other src e eventId id _ _ hpub => exact hpub.sound hw
  | flushed run row rest t e eventId id _ _ hpub => exact hpub.sound hw

theorem ids_step (hw : ∀ r ∈ w.outbox, r.auditEventId < w.nextAuditId) (h : OutboxStep w w') :
    ∀ r ∈ w'.outbox, r.auditEventId < w'.nextAuditId := by
  intro r hr
  cases h with
  | same hout hle => exact lt_of_lt_of_le (hw r (hout ▸ hr)) hle
  | inserted new hrows hid _ hnext =>
    rcases (mem_outbox_append hrows).1 hr with hr | rfl
    · have := hw r hr
      omega
    · omega
  | marked run row rest result now _ hout hnext =>
    rw [hout] at hr
    obtain ⟨r₀, hr₀, rfl⟩ := mem_updateWhere.1 hr
    rw [hnext]
    split
    · rw [auditEventId_of_content (settledRow_content now result r₀)]
      exact hw r₀ hr₀
    · exact hw r₀ hr₀

theorem unique_step (hids : ∀ r ∈ w.outbox, r.auditEventId < w.nextAuditId)
    (hw : (w.outbox.rows.map (·.auditEventId)).Nodup) (h : OutboxStep w w') :
    (w'.outbox.rows.map (·.auditEventId)).Nodup := by
  cases h with
  | same hout _ => exact hout ▸ hw
  | inserted new hrows hid _ _ =>
    rw [hrows, map_append, nodup_append]
    refine ⟨hw, nodup_singleton _, ?_⟩
    intro n hn n' hn' heq
    obtain ⟨r, hr, rfl⟩ := List.mem_map.1 hn
    have hlt := hids r hr
    have hnew : r.auditEventId = new.auditEventId := heq.trans (mem_singleton.1 hn')
    omega
  | marked run row rest result now _ hout _ =>
    have hsame : w'.outbox.rows.map (·.auditEventId) =
        w.outbox.rows.map (·.auditEventId) := by
      rw [hout]
      unfold markRow Table.updateWhere
      rw [List.map_map]
      apply map_congr_left
      intro r _
      simp only [Function.comp_apply]
      split
      · exact auditEventId_of_content (settledRow_content now result r)
      · rfl
    rw [hsame]
    exact hw

theorem published_step (hw : Consistent env w) (hkept : Kept w.bus.db w'.bus.db)
    (h : OutboxStep w w') :
    ∀ r ∈ w'.outbox, r.publishedAt ≠ none →
      ∃ x ∈ w'.bus.db.events, x.dedupeKey = auditKey r := by
  have old : ∀ {r : OutboxRow}, r ∈ w.outbox → r.publishedAt ≠ none →
      ∃ x ∈ w'.bus.db.events, x.dedupeKey = auditKey r := by
    intro r hr hp
    obtain ⟨x, hx, hkey⟩ := hw.published r hr hp
    exact ⟨x, hkept.events x hx, hkey⟩
  intro r hr hp
  cases h with
  | same hout _ => exact old (hout ▸ hr) hp
  | inserted new hrows _ hnone _ =>
    rcases (mem_outbox_append hrows).1 hr with hr | rfl
    · exact old hr hp
    · exact absurd hnone hp
  | marked run row rest result now hrun hout _ =>
    rw [hout] at hr
    obtain ⟨r₀, hr₀, rfl⟩ := mem_updateWhere.1 hr
    by_cases hmark : r₀.id = row.id ∧ r₀.publishedAt = none
    · rw [if_pos hmark] at hp ⊢
      rw [auditKey_congr (settledRow_content now result r₀)]
      cases result with
      | error error => exact absurd hmark.2 hp
      | ok u =>
        -- the run saw its publication succeed, for a row with this content
        obtain ⟨x, hx, hkey⟩ := hw.results run row rest hrun
        obtain ⟨r₁, hr₁, hcontent⟩ := hw.batches run _ hrun row mem_cons_self
        have hsame : r₀ = r₁ :=
          eq_of_key_eq hr₀ hr₁ (hmark.1.trans (id_of_content hcontent).symm)
        exact ⟨x, hkept.events x hx,
          hkey.trans (auditKey_congr (hsame ▸ hcontent)).symm⟩
    · rw [if_neg hmark] at hp ⊢
      exact old hr₀ hp

theorem batches_step (hw : Consistent env w) (hout : OutboxStep w w')
    (hruns : ∀ run f, w'.runs run = some f → RunStep w w' f (w.runs run)) :
    ∀ run f, w'.runs run = some f → ∀ r ∈ f.rows, ∃ r' ∈ w'.outbox,
      r'.content = r.content := by
  have carry : ∀ {r : OutboxRow}, (∃ r' ∈ w.outbox, r'.content = r.content) →
      ∃ r' ∈ w'.outbox, r'.content = r.content := by
    rintro r ⟨r', hr', hcontent⟩
    obtain ⟨r'', hr'', hkept⟩ := hout.kept hr'
    exact ⟨r'', hr'', hkept.trans hcontent⟩
  intro run f hf r hr
  have hstep := hruns run f hf
  generalize hold : w.runs run = g at hstep
  cases hstep with
  | same => exact carry (hw.batches run f hold r hr)
  | started hmem _ => exact carry ⟨r, hmem r hr, rfl⟩
  | published row rest result hform _ =>
    subst hform
    exact carry (hw.batches run _ hold r hr)
  | marked row rest result hform =>
    subst hform
    exact carry (hw.batches run _ hold r (mem_cons_of_mem _ hr))

theorem results_step (hw : Consistent env w) (hkept : Kept w.bus.db w'.bus.db)
    (hruns : ∀ run f, w'.runs run = some f → RunStep w w' f (w.runs run)) :
    ∀ run row rest, w'.runs run = some ⟨row :: rest, some (.ok ())⟩ →
      ∃ x ∈ w'.bus.db.events, x.dedupeKey = auditKey row := by
  intro run row rest hf
  have hstep := hruns run _ hf
  generalize hold : w.runs run = g at hstep
  cases hstep with
  | same =>
    obtain ⟨x, hx, hkey⟩ := hw.results run row rest hold
    exact ⟨x, hkept.events x hx, hkey⟩
  | started _ hnone => cases hnone
  | published row' rest' result hform hevent =>
    cases hform
    exact hevent rfl
  | marked row' rest' result hform => cases hform

theorem origin_step (hw : Consistent env w) (hbus : BusStep env w w') (hout : OutboxStep w w') :
    ∀ x ∈ w'.bus.db.events, ∀ n, x.dedupeKey = (EventSource.audit n).dedupeKey →
      ∃ r ∈ w'.outbox, r.auditEventId = n ∧ MadeFrom env r x := by
  have carry : ∀ {x : Event} {n : Nat},
      (∃ r ∈ w.outbox, r.auditEventId = n ∧ MadeFrom env r x) →
      ∃ r ∈ w'.outbox, r.auditEventId = n ∧ MadeFrom env r x := by
    rintro x n ⟨r, hr, rfl, t, e, he, hmade⟩
    obtain ⟨r', hr', hcontent⟩ := hout.kept hr
    exact ⟨r', hr', auditEventId_of_content hcontent, t, e,
      by rw [auditEvent_congr hcontent]; exact he, hmade⟩
  intro x hx n hkey
  cases hbus with
  | same hrows => exact carry (hw.origin x (hrows.events ▸ hx) n hkey)
  | other src e eventId id hsrc hother hpub =>
    cases hpub with
    | known _ _ _ _ hdb => exact carry (hw.origin x (hdb ▸ hx) n hkey)
    | inserted y _ _ _ _ _ _ _ hykey _ hevents _ =>
      rcases (mem_events_of_rows hevents).1 hx with hx | rfl
      · exact carry (hw.origin x hx n hkey)
      · have hsame := audit_of_key_eq (hsrc.symm.trans (hykey.symm.trans hkey))
        rw [hsame] at hother
        cases hother
  | flushed run row rest t e eventId id hrun he hpub =>
    cases hpub with
    | known _ _ _ _ hdb => exact carry (hw.origin x (hdb ▸ hx) n hkey)
    | inserted y _ _ htype hsource hpayload hmeta hcorr hykey _ hevents _ =>
      rcases (mem_events_of_rows hevents).1 hx with hx | rfl
      · exact carry (hw.origin x hx n hkey)
      · obtain ⟨r, hr, hcontent⟩ := hw.batches run _ hrun row mem_cons_self
        have hrow : (EventSource.audit row.auditEventId).dedupeKey =
            (EventSource.audit n).dedupeKey :=
          (sanitizedEvent_ok he).1.symm.trans (hykey.symm.trans hkey)
        have hn : row.auditEventId = n :=
          EventSource.audit.inj (audit_of_key_eq hrow)
        exact carry ⟨r, hr, (auditEventId_of_content hcontent).trans hn, t, e,
          by rw [auditEvent_congr hcontent]; exact he, htype, hsource, hpayload,
          hmeta, hcorr⟩

theorem consistent_invariant (env : Env) : (system env).Invariant (Consistent env) := by
  have hind : (system env).Inductive (Consistent env) :=
    { init := by
        rintro w ⟨hevents, hdeliveries, _, hout, hruns⟩
        have noEvent : ∀ x, x ∉ w.bus.db.events := by
          intro x hx
          rw [Table.mem_def, hevents] at hx
          cases hx
        have noRow : ∀ r, r ∉ w.outbox := by
          intro r hr
          rw [Table.mem_def, hout] at hr
          cases hr
        refine ⟨⟨?_, ?_, ?_⟩, fun r hr => absurd hr (noRow r), ?_,
          fun r hr => absurd hr (noRow r), ?_, ?_, fun x hx => absurd hx (noEvent x)⟩
        · rw [hevents]
          exact nodup_nil
        · rw [hdeliveries]
          exact nodup_nil
        · intro d hd
          rw [Table.mem_def, hdeliveries] at hd
          cases hd
        · rw [hout]
          exact nodup_nil
        · intro run f hf
          rw [hruns run] at hf
          cases hf
        · intro run row rest hf
          rw [hruns run] at hf
          cases hf
      step := by
        intro w a w' hw hstep
        obtain ⟨hbus, hout, hruns⟩ := exec_steps hw.sound hstep
        have hkept := hbus.kept
        exact ⟨sound_step hw.sound hbus, ids_step hw.ids hout,
          unique_step hw.ids hw.unique hout, published_step hw hkept hout,
          batches_step hw hout hruns, results_step hw hkept hruns,
          origin_step hw hbus hout⟩ }
  exact hind.invariant

/-! ## Exactly once -/

/-- A row marked as published has exactly one event with its key, no row has
two, and the event of a row is the one a flush run makes of it. -/
structure ExactlyOnce (env : Env) (w : World) : Prop where
  published : ∀ r ∈ w.outbox, r.publishedAt ≠ none →
    ∃! x, x ∈ w.bus.db.events ∧ x.dedupeKey = auditKey r
  atMostOne : ∀ r ∈ w.outbox, ∀ x ∈ w.bus.db.events, ∀ y ∈ w.bus.db.events,
    x.dedupeKey = auditKey r → y.dedupeKey = auditKey r → x = y
  madeFrom : ∀ r ∈ w.outbox, ∀ x ∈ w.bus.db.events, x.dedupeKey = auditKey r →
    MadeFrom env r x

theorem Consistent.exactlyOnce (hw : Consistent env w) :
    ExactlyOnce env w where
  published r hr hp := by
    obtain ⟨x, hx, hkey⟩ := hw.published r hr hp
    refine ⟨x, ⟨hx, hkey⟩, ?_⟩
    rintro y ⟨hy, hykey⟩
    exact hw.sound.event_unique hy hx (hykey.trans hkey.symm)
  atMostOne r hr x hx y hy hxkey hykey :=
    hw.sound.event_unique hx hy (hxkey.trans hykey.symm)
  madeFrom r hr x hx hkey := by
    obtain ⟨r', hr', hid, hmade⟩ := hw.origin x hx r.auditEventId hkey
    rwa [inj_on_of_nodup_map hw.unique hr' hr hid] at hmade

/-- A new event has a delivery for each consumer enabled before the step. -/
theorem BusStep.delivered (h : BusStep env w w') {x : Event} (hx : x ∈ w'.bus.db.events)
    (hnew : x ∉ w.bus.db.events) {c : EventConsumer} (hc : c ∈ w.bus.db.consumers)
    (hen : c.enabled = true) : (x.eventId, c.id) ∈ w'.bus.db.deliveries.rows.map Delivery.pair := by
  cases h with
  | same hrows => exact absurd (hrows.events ▸ hx) hnew
  | other src e eventId id _ _ hpub | flushed run row rest t e eventId id _ _ hpub =>
    exact hpub.delivered hx hnew hc hen

theorem run_kept {as : List Action} (hw : (system env).Reachable w)
    (hrun : (system env).Run w as w') : Kept w.bus.db w'.bus.db := by
  refine hrun.relates (I := (system env).Reachable) (R := fun s t => Kept s.bus.db t.bus.db)
    (fun s => .refl _) (fun _ _ _ => .trans) (fun s a t hs h => hs.step h) ?_ hw
  intro s a t hs h
  exact (exec_steps (consistent_invariant env s hs).sound h).1.kept

/-- **Exactly once.** In every reachable state each published row has exactly one
canonical event and no row has two; and each consumer that was enabled when an
event was inserted has exactly one delivery of it in every later state. -/
theorem audit_outbox_exactly_once (env : Env) :
    (system env).Invariant (ExactlyOnce env) ∧
      ∀ w a w' as w'', (system env).Reachable w → (system env).step w a w' →
        (system env).Run w' as w'' →
        ∀ x ∈ w'.bus.db.events, x ∉ w.bus.db.events →
        ∀ c ∈ w.bus.db.consumers, c.enabled = true →
          ∃! d, d ∈ w''.bus.db.deliveries ∧ d.eventId = x.eventId ∧ d.consumerId = c.id := by
  refine ⟨fun w hw => (consistent_invariant env w hw).exactlyOnce, ?_⟩
  intro w a w' as w'' hw hstep hrun x hx hnew c hc hen
  have hreach : (system env).Reachable w'' := (hw.step hstep).run hrun
  have hpair := (exec_steps (consistent_invariant env w hw).sound hstep).1.delivered
    hx hnew hc hen
  have hlater := (run_kept (hw.step hstep) hrun).pairs _ hpair
  exact (consistent_invariant env w'' hreach).sound.delivery_unique hlater

end Clawforge.AuditOutbox

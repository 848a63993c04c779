import Clawforge.Theorems.EveAlert
import Clawforge.Theorems.SecurityEventBatch

/-!
# The outbox of the EVE adapter

`send_step` deletes a batch only where every item of it is accepted. Events of lines
that adapter and ingress see alike are: an ingress with a working database accepts
each whose time is in its range, so the outbox moves (`batch_progress`). One event
that the ingress refuses keeps the whole batch, and all that was written after it
(`blocked`, `scoped_address_blocks`).
-/

namespace Clawforge.EveAdapter

open Kit Net PyJson SecurityEvents SecurityEventIngress SecurityEventStore Pseudonym Text List Option

/-! ## The statement -/

/-- `e` is the event of one of the lines. -/
def EventOf (py : Python) (source : PyStr) (log : Set (List UInt8)) (e : EveEvent) : Prop :=
  ∃ raw ∈ log, normalize py raw source = .ok (some e)

/-- The ingress reads envelopes as `serde` does, its `TIMESTAMPTZ` keeps microseconds, and
it has what it needs for pseudonyms. -/
structure WorkingIngress (i : Ingress) (parseTime : String → Option Int) : Prop where
  decode : ∀ row, (i.decode row).toOption = SensorEnvelope.ofJson parseTime row
  timestamptz : ∀ t, i.timestamptz t = timestampMicros t
  pseudonyms : HasPseudonyms i.toEnv

/-- The items are the rows of the next request, each with its turn; they are events of the
lines, their times are in the range of the ingress, and its database works. -/
structure Batch (py : Python) (parseTime : String → Option Int) (source : PyStr)
    (log : Set (List UInt8)) (i : Ingress) (sensorId : Uuid) (now : Int) (db : Db)
    (items : List (Json × Turn)) : Prop where
  nonempty : db.pending ≠ []
  rows : ∀ e ∈ sendRows db, EventOf py source log e
  bodies : items.map (fun item => some item.1) = (sendRows db).map (fun e => json? e.fields)
  inRange : ∀ e ∈ sendRows db, ∀ t, parseTime e.occurredAt = some t →
    checkClockSkew i t now = .ok ()
  works : ∀ item ∈ items, WorkingDatabase i sensorId item.1 item.2

/-- What is stored for the sensor came from the lines too. -/
def OwnRows (py : Python) (parseTime : String → Option Int) (source : PyStr)
    (log : Set (List UInt8)) (i : Ingress) (sensorId : Uuid) (w : SecurityEventStore.World) :
    Prop :=
  ∀ r ∈ w.rows, r.sensorId = sensorId → ∃ e row envelope o, EventOf py source log e ∧
    json? e.fields = some row ∧ SensorEnvelope.ofJson parseTime row = some envelope ∧
    observe i.toEnv envelope = .ok o ∧ RowOf r sensorId envelope o

/-- Whatever batch a working ingress answers, it accepts every item, and `send_step`
deletes the batch. -/
def OutboxMoves (py : Python) (parseTime : String → Option Int) (source : PyStr)
    (log : Set (List UInt8)) : Prop :=
  ∀ i w w' sensorId now db items result, WorkingIngress i parseTime →
    (SecurityEventStore.system i.toBackend).Reachable w →
    Batch py parseTime source log i sensorId now db items →
    internalSecurityEventsBatch i w (.sensor sensorId) now items = some (result, w') →
    OwnRows py parseTime source log i sensorId w' →
    ∃ answer, result = .ok answer ∧ (∀ r ∈ answer.results, r.status = "accepted") ∧
      ∀ timestamp, (sendStep db (.body (answer.body timestamp))).pending =
        db.pending.drop (sendRows db).length

/-! ## What is stored of an event -/

variable {s : String} {py : Python} {source : PyStr}

theorem noNul_of_not_mem (h : Char.ofNat 0 ∉ s.toList) : noNul s = true := by
  simpa [noNul] using h

theorem noNul_address {a : IpAddr} (h : parseIpAddr s.toList = some a) : noNul s = true :=
  noNul_of_not_mem (not_mem_of_parseIpAddr h (by decide))

theorem digitChar_ne_nul {n : Nat} (h : n < 16) : Char.ofNat 0 ≠ n.digitChar := by
  intro heq
  have hdigit := isDigitOf_digitChar (Nat.le_refl 16) h
  rw [← heq] at hdigit
  exact absurd hdigit (by decide)

theorem noNul_ipPseudonym (env : Env) (key ip : String) :
    noNul (ipPseudonym env key ip) = true := by
  refine noNul_of_not_mem ?_
  rw [ipPseudonym, String.toList_ofList, mem_append]
  rintro (hhead | hbyte)
  · exact absurd hhead (by decide)
  · obtain ⟨b, _, hb⟩ := mem_flatMap.1 hbyte
    simp only [hexByte, Json.hexDigit, mem_cons, not_mem_nil, or_false] at hb
    rcases hb with hb | hb
    · exact digitChar_ne_nul (Nat.mod_lt _ (by decide)) hb
    · exact digitChar_ne_nul (Nat.mod_lt _ (by decide)) hb

theorem nul_not_mem_digits {ds : List Nat} (h : ∀ d ∈ ds, d < 16) :
    Char.ofNat 0 ∉ ds.map Nat.digitChar := by
  intro hmem
  obtain ⟨d, hd, heq⟩ := List.mem_map.1 hmem
  exact digitChar_ne_nul (h d hd) heq.symm

theorem noNul_dedupeKey (py : Python) (identity : List (String × Scalar)) :
    noNul (dedupeKey py identity) = true := by
  have hdigits : ∀ d ∈ toBigEndian 16 64 (py.sha256 (identityText identity)).toNat, d < 16 :=
    fun d hd => lt_of_mem_toBigEndian (by decide) hd
  refine noNul_of_not_mem ?_
  rw [dedupeKey_toList, mem_append]
  rintro (hhead | hdigit)
  · exact absurd hhead (by decide)
  · exact nul_not_mem_digits hdigits hdigit

theorem fieldsNoNul_insertField {k : String} {v : Json} {fields : List (String × Json)}
    (hk : noNul k = true) (hv : jsonNoNul v = true) (h : fieldsNoNul fields = true) :
    fieldsNoNul (Json.insertField k v fields) = true := by
  induction fields with
  | nil => simp [Json.insertField, fieldsNoNul, hk, hv]
  | cons f rest ih =>
    obtain ⟨l, u⟩ := f
    simp only [fieldsNoNul, Bool.and_eq_true] at h
    unfold Json.insertField
    split
    · simp [fieldsNoNul, hk, hv, h]
    · split
      · simp [fieldsNoNul, hk, hv, h]
      · simp [fieldsNoNul, h, ih h.2]

theorem jsonNoNul_ofFields {fields : List (String × Json)}
    (hkeys : ∀ k ∈ fields.map Prod.fst, noNul k = true)
    (hvalues : ∀ v ∈ fields.map Prod.snd, jsonNoNul v = true) :
    jsonNoNul (.ofFields fields) = true := by
  have hfold : ∀ acc : List (String × Json), fieldsNoNul acc = true →
      fieldsNoNul (fields.foldl (fun acc f => Json.insertField f.1 f.2 acc) acc) = true := by
    induction fields with
    | nil => exact fun acc hacc => hacc
    | cons f rest ih =>
      rw [map_cons, forall_mem_cons] at hkeys hvalues
      intro acc hacc
      exact ih hkeys.2 hvalues.2 _ (fieldsNoNul_insertField hkeys.1 hvalues.1 hacc)
  exact hfold [] rfl

/-- A field that may hold an address, as it is stored. -/
theorem pseudonymizeField_storable {env : Env} {a : IpAddr} {out : String}
    (hs : s.toList = displayIpAddr a) (h : pseudonymizeField env s = .ok out) :
    noNul out = true ∧ 1 ≤ out.toList.length ∧ out.toList.length ≤ 512 := by
  have hparse : parseIpAddr s.toList = some a := hs ▸ parseIpAddr_displayIpAddr a
  unfold pseudonymizeField pseudonymizeCorrelationId at h
  split at h
  · obtain ⟨key, rfl⟩ := pseudonymizeIp_ok h
    refine ⟨noNul_ipPseudonym env key s, ?_⟩
    have hbytes : ((env.hmacSha256 key s).take 16).length ≤ 16 := length_take_le ..
    have hhead : pseudonymHead.toList.length = 13 := by decide
    have hhex : (((env.hmacSha256 key s).take 16).flatMap hexByte).length =
        ((env.hmacSha256 key s).take 16).length * 2 := by
      rw [length_flatMap]
      simp [hexByte]
    rw [ipPseudonym, String.toList_ofList, length_append, hhead, hhex]
    omega
  · cases h
    have hlen := length_displayIpAddr a
    refine ⟨noNul_address hparse, ?_, ?_⟩
    · rw [Nat.one_le_iff_ne_zero, ne_eq, length_eq_zero_iff]
      intro hnil
      have hnone : parseIpAddr [] = none := by decide
      rw [hnil, hnone] at hparse
      cases hparse
    · rw [hs]
      omega

/-- The row of an event is one the table takes. -/
theorem storable_event {b : Backend} {row : Json} {e : EveEvent}
    (hevent : eventOf py row source = some e) {p q : PyAddress} (hp : e.sourceIp = p.str)
    (hq : e.destinationIp = q.str) (hpscope : p.scopeId = none) (hqscope : q.scopeId = none)
    {t : Int} {o : Observation} (h : observe b.toEnv (e.envelope s t) = .ok o) (id sensorId : Uuid) :
    Storable (newRow b id sensorId (e.envelope s t) o) := by
  obtain ⟨txId, pcapCnt, ha, _, _, hkey⟩ := event_of_eventOf hevent
  have hdescribes := describes_of_alertOf ha
  have hpchars : e.sourceIp.toList = displayIpAddr p.addr := by
    rw [hp, str_of_no_scope hpscope]
  have hqchars : e.destinationIp.toList = displayIpAddr q.addr := by
    rw [hq, str_of_no_scope hqscope]
  obtain ⟨resource, hresource, h⟩ := bind_ok h
  obtain ⟨evidence, hevidence, h⟩ := bind_ok h
  cases h
  have hresource' : pseudonymizeField b.toEnv e.resource = .ok resource := hresource
  rw [hdescribes.resource] at hresource'
  obtain ⟨hnul, hpos, hlen⟩ := pseudonymizeField_storable hpchars hresource'
  obtain ⟨sourceIp, hsource, hevidence⟩ := bind_ok hevidence
  obtain ⟨destinationIp, hdestination, hevidence⟩ := bind_ok hevidence
  cases hevidence
  have hsnul := (pseudonymizeField_storable hpchars hsource).1
  have hdnul := (pseudonymizeField_storable hqchars hdestination).1
  have hprotocol : noNul e.protocol = true := by
    obtain ⟨u, hu⟩ := hdescribes.protocol
    have hall : ∀ x ∈ ["tcp", "udp", "icmp", "icmpv6", "sctp", "other"], noNul x = true := by
      decide
    exact hall _ (hu ▸ protocol_mem u)
  have haction : noNul e.observedAction = true := by
    obtain ⟨v, hv⟩ := hdescribes.observedAction
    have hall : ∀ x ∈ ["allowed", "blocked", "unknown"], noNul x = true := by decide
    exact hall _ (hv ▸ observedAction_mem v)
  have hnat? : ∀ n, jsonNoNul (jsonNat? n) = true := by
    intro n
    cases n with
    | none => rfl
    | some n => rfl
  have hdedupe := length_dedupeKey py (e.toAlert.identity txId pcapCnt)
  have hdnul' := noNul_dedupeKey py (e.toAlert.identity txId pcapCnt)
  rw [← hkey] at hdedupe hdnul'
  refine ⟨⟨hpos, hlen⟩, ?_, hnul, hdnul', ?_⟩
  · show 1 ≤ e.dedupeKey.toList.length ∧ e.dedupeKey.toList.length ≤ 256
    omega
  · refine jsonNoNul_ofFields ?_ (fun v hv => ?_)
    · show ∀ k ∈ [ "event_type", "source_ip", "destination_ip", "source_port"
        , "destination_port", "protocol", "engine", "signature_id", "generator_id"
        , "signature_revision", "native_severity", "observed_action", "flow_id" ],
        noNul k = true
      decide
    · simp only [SecurityEventEvidence.fields, map_cons, map_nil, mem_cons,
        not_mem_nil, or_false] at hv
      rcases hv with rfl | rfl | rfl | rfl | rfl | rfl | rfl | rfl | rfl | rfl | rfl | rfl | rfl
      · exact (by decide : noNul "network_ids_alert" = true)
      · exact hsnul
      · exact hdnul
      · exact hnat? _
      · exact hnat? _
      · exact hprotocol
      · exact (by decide : noNul "suricata" = true)
      · rfl
      · rfl
      · rfl
      · rfl
      · exact haction
      · exact hnat? _

/-! ## What the ingress sees of an event -/

structure Seen (parseTime : String → Option Int) (e : EveEvent) (envelope : SensorEnvelope) :
    Prop where
  read : ∃ row, json? e.fields = some row ∧
    SensorEnvelope.ofJson parseTime row = some envelope
  valid : envelope.validate = .ok ()
  time : parseTime e.occurredAt = some envelope.occurredAt
  key : envelope.dedupeKey = e.dedupeKey
  evidence : envelope.evidence = .networkIdsAlert e.evidence
  storable : ∀ {b : Backend} {o : Observation}, observe b.toEnv envelope = .ok o →
    ∀ id sensorId, Storable (newRow b id sensorId envelope o)

theorem seen_of_agrees {parseTime : String → Option Int}
    (htime : ∀ s stamp, py.utcIsoformat s = some stamp → (parseTime stamp).isSome = true)
    (hsource : acceptsSource source = true) {raw : List UInt8} {e : EveEvent}
    (hagree : Agrees py parseTime source raw) (he : normalize py raw source = .ok (some e)) :
    ∃ envelope, Seen parseTime e envelope := by
  obtain ⟨row, alert, hline, hevent⟩ := normalize_eq_event.1 he
  obtain ⟨_, _, ha, _⟩ := event_of_eventOf hevent
  have hdescribes := describes_of_alertOf ha
  have hread := (eventOf_isSome hline.alert).1 (isSome_iff_exists.2 ⟨e, hevent⟩)
  obtain ⟨htext, hsrc, hdst⟩ := hagree.delivered row alert hline hread
  obtain ⟨p, hp, hpstr⟩ := hdescribes.sourceIp
  obtain ⟨q, hq, hqstr⟩ := hdescribes.destinationIp
  obtain ⟨_, hiso⟩ := hdescribes.occurredAt
  obtain ⟨t, ht⟩ := isSome_iff_exists.1 (htime _ _ hiso)
  obtain ⟨s, hs⟩ := isSome_iff_exists.1 htext
  have hjson : json? e.fields = some (.ofFields (e.jsonFields s)) := by
    rw [json?_fields, hdescribes.source, hs, map_some]
  have hofJson := envelope_ofJson hdescribes ht s
  obtain ⟨row', envelope, hrow', henvelope, hvalid⟩ :=
    (deliverable_iff hsource (htime _ _ hiso) hevent hpstr hqstr).2 ⟨htext, hsrc p hp, hdst q hq⟩
  rw [hjson] at hrow'
  cases hrow'
  rw [hofJson] at henvelope
  cases henvelope
  exact ⟨e.envelope s t,
    { read := ⟨_, hjson, hofJson⟩
      valid := hvalid
      time := ht
      key := rfl
      evidence := rfl
      storable := fun hobs id sensorId =>
        storable_event hevent hpstr hqstr (hsrc p hp) (hdst q hq) hobs id sensorId }⟩

theorem pseudonymizeField_isOk {env : Env} (h : HasPseudonyms env) (value : String) :
    ∃ out, pseudonymizeField env value = .ok out := by
  unfold pseudonymizeField pseudonymizeCorrelationId
  split
  · rename_i hcond
    exact h (Bool.and_eq_true_iff.1 hcond).1 value
  · exact ⟨value, rfl⟩

/-! ## A batch -/

section Batch

variable {py : Python} {parseTime : String → Option Int} {source : PyStr}
  {log : Set (List UInt8)} {i : Ingress} {sensorId : Uuid} {now : Int} {e : EveEvent}

theorem Seen.unique {envelope envelope' : SensorEnvelope} {row : Json}
    (h : Seen parseTime e envelope) (hrow : json? e.fields = some row)
    (hread : SensorEnvelope.ofJson parseTime row = some envelope') : envelope = envelope' := by
  obtain ⟨row', hrow', hread'⟩ := h.read
  have hsame : row' = row := some.inj (hrow'.symm.trans hrow)
  subst hsame
  exact some.inj (hread'.symm.trans hread)

theorem Seen.observe_isOk {env : Env} {envelope : SensorEnvelope} (h : Seen parseTime e envelope)
    (henv : HasPseudonyms env) : ∃ o, observe env envelope = .ok o := by
  obtain ⟨resource, hresource⟩ := pseudonymizeField_isOk henv envelope.resource
  obtain ⟨sourceIp, hsource⟩ := pseudonymizeField_isOk henv e.evidence.sourceIp
  obtain ⟨destinationIp, hdestination⟩ := pseudonymizeField_isOk henv e.evidence.destinationIp
  refine ⟨⟨resource, SecurityEventEvidence.toJson
    (.networkIdsAlert { e.evidence with sourceIp, destinationIp })⟩, ?_⟩
  simp only [observe, hresource, h.evidence, pseudonymizeEvidence, mapAddressesM, hsource,
    hdestination]
  rfl

/-- No item of the batch is one to reject: its row, were there one, is that of the same
event. -/
theorem not_permanent {w : SecurityEventStore.World} {row : Json}
    (hsha : ∀ raw ∈ log, ∀ raw' ∈ log, NoCollision py source raw raw')
    (hseen : ∀ e, EventOf py source log e → ∃ envelope, Seen parseTime e envelope)
    (hi : WorkingIngress i parseTime) (he : EventOf py source log e)
    (hrow : json? e.fields = some row)
    (hrange : ∀ t, parseTime e.occurredAt = some t → checkClockSkew i t now = .ok ())
    (hown : OwnRows py parseTime source log i sensorId w) : ¬ Permanent i w sensorId now row := by
  obtain ⟨envelope, hsees⟩ := hseen e he
  have hdecode : ∀ {envelope'}, i.decode row = .ok envelope' → envelope' = envelope := by
    intro envelope' hraw
    have hread := hi.decode row
    rw [hraw] at hread
    exact (hsees.unique hrow hread.symm).symm
  intro hpermanent
  cases hpermanent with
  | malformed error hraw =>
    obtain ⟨row', hrow', hread⟩ := hsees.read
    have hsame : row' = row := some.inj (hrow'.symm.trans hrow)
    have hnone := hi.decode row
    rw [hraw, ← hsame, hread] at hnone
    cases hnone
  | invalid envelope' error hraw hinvalid =>
    rw [hdecode hraw, hsees.valid] at hinvalid
    cases hinvalid
  | outOfRange envelope' error hraw hclock =>
    rw [hdecode hraw, hrange _ hsees.time] at hclock
    cases hclock
  | refused envelope' hraw hrefused =>
    rw [hdecode hraw] at hrefused
    cases hrefused with
    | unobservable error hobs =>
      obtain ⟨o, ho⟩ := hsees.observe_isOk hi.pseudonyms
      rw [ho] at hobs
      cases hobs
    | unstorable o hobs hno => exact hno 0 (hsees.storable hobs 0 sensorId)
    | taken o r hobs hr hslot hno =>
      obtain ⟨e', row', envelope'', o', he', hrow', hread', hobs', hof⟩ :=
        hown r hr (congrArg Prod.fst hslot)
      obtain ⟨envelope₂, hsees'⟩ := hseen e' he'
      have henvelope := hsees'.unique hrow' hread'
      subst henvelope
      have hkey : e.dedupeKey = e'.dedupeKey := by
        have hslots := congrArg Prod.snd (hslot.symm.trans hof.slot)
        rw [← hsees.key, ← hsees'.key]
        exact hslots
      obtain ⟨raw, hraw, hnormal⟩ := he
      obtain ⟨raw', hraw', hnormal'⟩ := he'
      have hsame := event_eq_of_key (hsha raw hraw raw' hraw') hnormal hnormal' hkey
      subst hsame
      have henvelope := hsees.unique hrow' hread'
      subst henvelope
      have ho : o = o' := Except.ok.inj (hobs.symm.trans hobs')
      subst ho
      exact hno hof.unchanged

theorem results_accepted {rows : List EveEvent} {answer : BatchAnswer} (timestamp : String)
    (hlen : answer.results.length = rows.length)
    (hall : ∀ r ∈ answer.results, r.status = "accepted") :
    allAccepted rows (.body (answer.body timestamp)) = true := by
  simp only [allAccepted, results_body, length_map, hlen, List.all_map, true_and,
    decide_eq_true_eq, List.all_eq_true]
  intro r hr
  have hstatus : r.toJson.get "status" = some (.string r.status) := by
    unfold ItemResult.toJson
    cases r.eventId <;> cases r.error <;>
      simp [Json.ofFields, Json.get, Json.lookup_insertField]
  simp [hstatus, hall r hr]

theorem forall₂_right {α β : Type} {R : α → β → Prop} {xs : List α} {ys : List β}
    (h : Forall₂ R xs ys) : ∀ y ∈ ys, ∃ x ∈ xs, R x y := by
  induction h with
  | nil => exact fun _ hy => by cases hy
  | @cons x y xs ys hxy _ ih =>
    intro y hy
    rcases mem_cons.1 hy with rfl | hy
    · exact ⟨x, mem_cons_self, hxy⟩
    · obtain ⟨x', hx', hR⟩ := ih y hy
      exact ⟨x', mem_cons_of_mem _ hx', hR⟩

/-- **Progress.** -/
theorem outbox_moves
    (hsha : ∀ raw ∈ log, ∀ raw' ∈ log, NoCollision py source raw raw')
    (hseen : ∀ e, EventOf py source log e → ∃ envelope, Seen parseTime e envelope) :
    OutboxMoves py parseTime source log := by
  intro i w w' sensorId now db items result hi hw hbatch hanswer hown
  have hlen : items.length = (sendRows db).length := by
    simpa using congrArg List.length hbatch.bodies
  have hrows : sendRows db ≠ [] := by
    rw [sendRows, ne_eq, take_eq_nil_iff]
    rintro (hzero | hnil)
    · cases hzero
    · exact hbatch.nonempty hnil
  have hfew : (sendRows db).length ≤ 50 := length_take_le ..
  have hanswer' := hanswer
  rw [internalSecurityEventsBatch] at hanswer'
  rw [if_neg (by
      intro hnil
      rw [hnil] at hlen
      exact hrows (length_eq_zero_iff.1 hlen.symm)),
    if_neg (by unfold batchMaxItems; omega)] at hanswer'
  obtain ⟨⟨results, v⟩, _, heq⟩ := map_eq_some_iff.1 hanswer'
  cases heq
  obtain ⟨hw', hitems⟩ := batch_spec hi.timestamptz hw hanswer
  have haccepted : ∀ r ∈ (batchAnswer results).results, r.status = "accepted" := by
    intro r hr
    obtain ⟨item, hitem, hresult⟩ := forall₂_right hitems r hr
    rcases hresult.status with hstatus | hstatus
    · exact hstatus
    · have hmem : some item.1 ∈ items.map (fun item => some item.1) :=
        List.mem_map.2 ⟨item, hitem, rfl⟩
      rw [hbatch.bodies] at hmem
      obtain ⟨e, he, hrow⟩ := List.mem_map.1 hmem
      exact absurd (hresult.rejected hstatus (hbatch.works item hitem))
        (not_permanent hsha hseen hi (hbatch.rows e he) hrow (hbatch.inRange e he) hown)
  refine ⟨batchAnswer results, rfl, haccepted, fun timestamp => ?_⟩
  have hall := results_accepted timestamp
    (hitems.length_eq.symm.trans hlen) haccepted
  simp only [sendStep, hrows, hall, false_or]
  rfl

end Batch

/-! ## All lines -/

/-- No alert of the lines blocks the outbox, or is lost as invalid. -/
structure Delivered (py : Python) (parseTime : String → Option Int) (source : PyStr)
    (log : Set (List UInt8)) : Prop where
  lines : ∀ raw ∈ log, LineSafe py parseTime source raw
  keys : ∀ raw ∈ log, ∀ raw' ∈ log, ∀ e e', normalize py raw source = .ok (some e) →
    normalize py raw' source = .ok (some e') → e.dedupeKey = e'.dedupeKey → e = e'
  outbox : OutboxMoves py parseTime source log

/-- **Alerts.** Where the ingress reads every time the adapter writes and SHA-256 does not
collide on the lines: none of them blocks the outbox or is lost exactly if adapter and
ingress see them alike. -/
theorem delivered_iff {py : Python} {parseTime : String → Option Int} {source : PyStr}
    {log : Set (List UInt8)}
    (htime : ∀ s stamp, py.utcIsoformat s = some stamp → (parseTime stamp).isSome = true)
    (hsource : acceptsSource source = true)
    (hsha : ∀ raw ∈ log, ∀ raw' ∈ log, NoCollision py source raw raw') :
    Delivered py parseTime source log ↔ ∀ raw ∈ log, Agrees py parseTime source raw := by
  constructor
  · intro h raw hraw
    exact (lineSafe_iff htime hsource raw).1 (h.lines raw hraw)
  · intro h
    exact
      { lines := fun raw hraw => (lineSafe_iff htime hsource raw).2 (h raw hraw)
        keys := fun raw hraw raw' hraw' e e' he he' hkey =>
          event_eq_of_key (hsha raw hraw raw' hraw') he he' hkey
        outbox := outbox_moves hsha (fun e ⟨raw, hraw, he⟩ =>
          seen_of_agrees htime hsource (h raw hraw) he) }

/-! ## A scoped address -/

/-- An alert for a link-local source, as the engine may log it. -/
def scopedLine : List UInt8 :=
  encode ("\x7b\"timestamp\":\"2026-07-25T17:20:00.123456+0000\",\"flow_id\":1234," ++
    "\"event_type\":\"alert\",\"src_ip\":\"fe80::1%eth0\",\"src_port\":40000," ++
    "\"dest_ip\":\"192.0.2.10\",\"dest_port\":22,\"proto\":\"TCP\",\"alert\":\x7b" ++
    "\"action\":\"allowed\",\"gid\":1,\"signature_id\":2001219,\"rev\":20," ++
    "\"severity\":2\x7d\x7d\n").toList

def scopedAlert : Json :=
  .ofFields
    [ ("action", .string "allowed"), ("gid", jsonNat 1), ("signature_id", jsonNat 2001219)
    , ("rev", jsonNat 20), ("severity", jsonNat 2) ]

def scopedRow : Json :=
  .ofFields
    [ ("timestamp", .string "2026-07-25T17:20:00.123456+0000"), ("flow_id", jsonNat 1234)
    , ("event_type", .string "alert"), ("src_ip", .string "fe80::1%eth0")
    , ("src_port", jsonNat 40000), ("dest_ip", .string "192.0.2.10")
    , ("dest_port", jsonNat 22), ("proto", .string "TCP"), ("alert", scopedAlert) ]

/-- What Python computes of that line. -/
def samplePython : Python where
  loads := fun _ => .ok scopedRow
  utcIsoformat := fun _ => some "2026-07-25T17:20:00.123456+00:00"
  sha256 := fun _ => 0x2239aa19bfd941e09efbcaeae6780f1736ec5294563aa796232832de7d4dbbf3

/-- What `chrono` reads of that time. -/
def sampleTime : String → Option Int := fun _ => some 1785000000123456000

def sampleSource : PyStr := .ofString "suricata:lab"

theorem KeyText.unique {raw b b' : List UInt8} (h : KeyText py source raw b)
    (h' : KeyText py source raw b') : b = b' := by
  obtain ⟨row, alert, a, t, p, hline, ha, ht, hp, rfl⟩ := h
  obtain ⟨row', alert', a', t', p', hline', ha', ht', hp', rfl⟩ := h'
  obtain ⟨rfl, rfl⟩ := hline.unique hline'
  rw [some.inj (ha.symm.trans ha'), some.inj (ht.symm.trans ht'),
    some.inj (hp.symm.trans hp')]

theorem delivered_scopedLine :
    Delivered samplePython sampleTime sampleSource {scopedLine} ↔
      ∀ raw ∈ ({scopedLine} : Set (List UInt8)),
        Agrees samplePython sampleTime sampleSource raw := by
  refine delivered_iff (fun _ _ _ => rfl) (by decide_cbv) ?_
  intro raw hraw raw' hraw' b b' hb hb' _
  rw [Set.mem_singleton_iff] at hraw hraw'
  rw [hraw] at hb
  rw [hraw'] at hb'
  exact hb.unique hb'

theorem get_scopedRow (key : String) : scopedRow.get key =
    [ ("timestamp", Json.string "2026-07-25T17:20:00.123456+0000"), ("flow_id", jsonNat 1234)
    , ("event_type", .string "alert"), ("src_ip", .string "fe80::1%eth0")
    , ("src_port", jsonNat 40000), ("dest_ip", .string "192.0.2.10")
    , ("dest_port", jsonNat 22), ("proto", .string "TCP"), ("alert", scopedAlert) ].lookup
      key :=
  Json.get_ofFields (by decide) key

/-- The adapter emits the event and the ingress refuses it. -/
theorem scoped_address_blocks :
    ¬ Delivered samplePython sampleTime sampleSource {scopedLine} := by
  intro h
  have hagree := (lineSafe_iff (fun _ _ _ => rfl) (by decide +kernel) scopedLine).1
    (h.lines scopedLine (Set.mem_singleton _))
  have hline : AlertLine samplePython scopedLine scopedRow scopedAlert :=
    ⟨rfl, get_scopedRow "event_type", get_scopedRow "alert"⟩
  have hevent : (eventOf samplePython scopedRow sampleSource).isSome = true := by
    decide +kernel
  obtain ⟨_, hscope, _⟩ :=
    hagree.delivered _ _ hline ((eventOf_isSome hline.alert).1 hevent)
  have hscoped : ((scopedRow.get "src_ip").bind ipAddress).map PyAddress.scopeId =
      some (some "eth0".toList) := by
    decide +kernel
  obtain ⟨p, hp, hid⟩ := map_eq_some_iff.1 hscoped
  rw [hscope p hp] at hid
  cases hid

end Clawforge.EveAdapter

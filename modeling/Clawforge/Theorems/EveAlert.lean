import Clawforge.SecurityEvents.Decode
import Clawforge.Sensors.EveAdapter
import Clawforge.Theorems.SecurityEvents

/-!
# What becomes of an alert

Which lines `normalize` makes an event of (`eventOf_isSome`), what the ingress makes
of that event (`deliverable_iff`), and that the key of an event determines it
(`event_eq_of_key`). Producer and consumer disagree on three kinds of line: an IPv6
address with a scope id is sent but refused, a `null` that the consumer reads as
nothing is counted as invalid, and so is a line with a bad transaction number.
-/

namespace Clawforge.EveAdapter

open Kit Net PyJson SecurityEvents Text List Option

/-! ## The statement -/

structure AlertLine (py : Python) (raw : List UInt8) (row alert : Json) : Prop where
  loads : py.loads raw = .ok row
  eventType : row.get "event_type" = some (.string "alert")
  alert : row.get "alert" = some alert

/-- What `normalize` checks of an alert. -/
structure ReadByAdapter (py : Python) (row alert : Json) : Prop where
  isObject : alert.isObject = true
  timestamp : ∃ s, row.get "timestamp" = some (.string s) ∧ (py.utcIsoformat s).isSome = true
  source : ((row.get "src_ip").bind ipAddress).isSome = true
  destination : ((row.get "dest_ip").bind ipAddress).isSome = true
  severity : ∃ n, (alert.get "severity").bind (integer 4) = some n ∧ n ≠ 0
  proto : ∃ s, row.get "proto" = some (.string s)
  signatureId : ((alert.get "signature_id").bind (integer (2 ^ 32 - 1))).isSome = true
  generatorId : ∀ v, alert.get "gid" = some v → (integer (2 ^ 32 - 1) v).isSome = true
  signatureRevision : ∀ v, alert.get "rev" = some v → (integer (2 ^ 32 - 1) v).isSome = true
  sourcePort : ∀ v, row.get "src_port" = some v → (integer 65535 v).isSome = true
  destinationPort : ∀ v, row.get "dest_port" = some v → (integer 65535 v).isSome = true
  flowId : ∀ v, row.get "flow_id" = some v → (integer (2 ^ 64 - 1) v).isSome = true
  txId : ∀ v, row.get "tx_id" = some v → (integer (2 ^ 64 - 1) v).isSome = true
  pcapCnt : ∀ v, row.get "pcap_cnt" = some v → (integer (2 ^ 64 - 1) v).isSome = true

/-- The fields of an alert are ones the schema of the ingress admits. Any protocol text
and any action has a place in it. -/
structure ValidForSchema (parseTime : String → Option Int) (row alert : Json) : Prop where
  timestamp : ∃ s, row.get "timestamp" = some (.string s) ∧ (parseTime s).isSome = true
  source : ∃ s, row.get "src_ip" = some (.string s) ∧ (parseIpAddr s.toList).isSome = true
  destination : ∃ s, row.get "dest_ip" = some (.string s) ∧
    (parseIpAddr s.toList).isSome = true
  severity : ∃ n, field alert "severity" readU8 = some n ∧ ¬ (n = 0 ∨ 4 < n)
  proto : ∃ s, row.get "proto" = some (.string s)
  signatureId : (field alert "signature_id" readU32).isSome = true
  generatorId : ∀ v, alert.get "gid" = some v → (readU32 v).isSome = true
  signatureRevision : ∀ v, alert.get "rev" = some v → (readU32 v).isSome = true
  sourcePort : (optionField row "src_port" readU16).isSome = true
  destinationPort : (optionField row "dest_port" readU16).isSome = true
  flowId : (optionField row "flow_id" readU64).isSome = true

/-- The ingress reads the event and finds it valid. -/
def Deliverable (parseTime : String → Option Int) (e : EveEvent) : Prop :=
  ∃ row envelope, json? e.fields = some row ∧
    SensorEnvelope.ofJson parseTime row = some envelope ∧ envelope.validate = .ok ()

/-- What `normalize` makes of the line agrees with the ingress. -/
structure LineSafe (py : Python) (parseTime : String → Option Int) (source : PyStr)
    (raw : List UInt8) : Prop where
  delivered : ∀ e, normalize py raw source = .ok (some e) → Deliverable parseTime e
  counted : ∀ row alert, AlertLine py raw row alert → ValidForSchema parseTime row alert →
    normalize py raw source ≠ .error .invalid

/-- The address under the key has no scope id. -/
def NoScope (row : Json) (key : String) : Prop :=
  ∀ p, (row.get key).bind ipAddress = some p → p.scopeId = none

/-- The adapter reads the time of an alert, none of its numbers is `null`, and the
numbers that only the key is made of are numbers. -/
structure ReadAlike (py : Python) (row : Json) : Prop where
  timestamp : ∀ s, row.get "timestamp" = some (.string s) → (py.utcIsoformat s).isSome = true
  sourcePort : row.get "src_port" ≠ some .null
  destinationPort : row.get "dest_port" ≠ some .null
  flowId : row.get "flow_id" ≠ some .null
  txId : ∀ v, row.get "tx_id" = some v → (integer (2 ^ 64 - 1) v).isSome = true
  pcapCnt : ∀ v, row.get "pcap_cnt" = some v → (integer (2 ^ 64 - 1) v).isSome = true

/-- The line is none that adapter and ingress see differently. -/
structure Agrees (py : Python) (parseTime : String → Option Int) (source : PyStr)
    (raw : List UInt8) : Prop where
  delivered : ∀ row alert, AlertLine py raw row alert → ReadByAdapter py row alert →
    source.toString?.isSome = true ∧ NoScope row "src_ip" ∧ NoScope row "dest_ip"
  counted : ∀ row alert, AlertLine py raw row alert → ValidForSchema parseTime row alert →
    ReadAlike py row

/-- `b` is the text that the key of the line's event is a digest of. -/
def KeyText (py : Python) (source : PyStr) (raw b : List UInt8) : Prop :=
  ∃ row alert a txId pcapCnt, AlertLine py raw row alert ∧ alertOf py row source = some a ∧
    integerIfPresent row "tx_id" (2 ^ 64 - 1) = some txId ∧
    integerIfPresent row "pcap_cnt" (2 ^ 64 - 1) = some pcapCnt ∧
    b = identityText (a.identity txId pcapCnt)

/-- SHA-256 tells the two lines apart where their key texts differ. -/
def NoCollision (py : Python) (source : PyStr) (raw raw' : List UInt8) : Prop :=
  ∀ b b', KeyText py source raw b → KeyText py source raw' b' →
    py.sha256 b = py.sha256 b' → b = b'

/-! ## Values of a row -/

variable {s : String} {v : Json} {n limit : Nat} {α : Type} {p : PyAddress}

theorem string_of_asStr {v : Option Json} (h : v.bind Json.asStr = some s) :
    v = some (.string s) := by
  obtain ⟨u, rfl, hu⟩ := bind_eq_some_iff.1 h
  cases u with
  | string t =>
    cases hu
    rfl
  | null | bool | number | array | object => cases hu

variable {maximum : Nat} {key : String} {row alert : Json} {py : Python} {source : PyStr}
  {e : EveEvent} {raw : List UInt8} {parseTime : String → Option Int}

theorem integer_isSome : (integer maximum v).isSome = (readUnsigned (maximum + 1) v).isSome := by
  unfold integer readUnsigned
  cases v with
  | number x =>
    cases x with
    | int n =>
      have hiff : (0 ≤ n ∧ n ≤ maximum) ↔ (0 ≤ n ∧ n < (maximum + 1 : Nat)) := by omega
      simp only [hiff]
    | float => rfl
  | null | bool | string | array | object => rfl

theorem integer_le (h : integer maximum v = some n) : n ≤ maximum := by
  unfold integer at h
  split at h
  · split at h
    · cases h
      omega
    · cases h
  · cases h

theorem integerIfPresent_isSome :
    (integerIfPresent row key maximum).isSome = true ↔
      ∀ v, row.get key = some v → (integer maximum v).isSome = true := by
  unfold integerIfPresent
  split
  · rename_i hget
    simp [hget]
  · rename_i value hget
    simp [hget]

theorem integerIfPresent_le (h : integerIfPresent row key maximum = some (some n)) :
    n ≤ maximum := by
  unfold integerIfPresent at h
  split at h
  · cases h
  · obtain ⟨m, hm, heq⟩ := map_eq_some_iff.1 h
    cases heq
    exact integer_le hm

/-- The number under a key with a default. -/
theorem integer_getD_isSome {d : Json} (hd : (integer maximum d).isSome = true) :
    (integer maximum ((alert.get key).getD d)).isSome = true ↔
      ∀ v, alert.get key = some v → (integer maximum v).isSome = true := by
  cases hget : alert.get key with
  | none => simp [hd]
  | some v => simp

/-! ## What an alert is made of -/

/-- The fields of an alert that was read from `row`. -/
structure Describes (py : Python) (row : Json) (source : PyStr) (a : Alert) : Prop where
  occurredAt : ∃ s, py.utcIsoformat s = some a.occurredAt
  source : a.source = source
  severity : a.severity = severityName a.nativeSeverity
  resource : a.resource = a.sourceIp
  sourceIp : ∃ p, (row.get "src_ip").bind ipAddress = some p ∧ a.sourceIp = p.str
  destinationIp : ∃ p, (row.get "dest_ip").bind ipAddress = some p ∧ a.destinationIp = p.str
  sourcePort : ∀ n ∈ a.sourcePort, n < 2 ^ 16
  destinationPort : ∀ n ∈ a.destinationPort, n < 2 ^ 16
  protocol : ∃ s, a.protocol = protocol s
  signatureId : a.signatureId < 2 ^ 32
  generatorId : a.generatorId < 2 ^ 32
  signatureRevision : a.signatureRevision < 2 ^ 32
  nativeSeverity : 1 ≤ a.nativeSeverity ∧ a.nativeSeverity ≤ 4
  observedAction : ∃ v, a.observedAction = observedAction v
  flowId : ∀ n ∈ a.flowId, n < 2 ^ 64

theorem lt_of_integerIfPresent {m : Option Nat} (h : integerIfPresent row key maximum = some m) :
    ∀ n ∈ m, n < maximum + 1 := by
  intro n hn
  rw [Option.mem_def.1 hn] at h
  exact Nat.lt_succ_of_le (integerIfPresent_le h)

theorem describes_of_alertOf {a : Alert} (h : alertOf py row source = some a) :
    Describes py row source a := by
  obtain ⟨alert, halert, h⟩ := bind_eq_some_iff.1 h
  split at h
  · cases h
  · obtain ⟨timestamp, htimestamp, h⟩ := bind_eq_some_iff.1 h
    obtain ⟨occurredAt, hiso, h⟩ := bind_eq_some_iff.1 h
    obtain ⟨src, hsrc, h⟩ := bind_eq_some_iff.1 h
    obtain ⟨dst, hdst, h⟩ := bind_eq_some_iff.1 h
    obtain ⟨sev, hsev, h⟩ := bind_eq_some_iff.1 h
    split at h
    · cases h
    · rename_i hpos
      obtain ⟨proto, _, h⟩ := bind_eq_some_iff.1 h
      obtain ⟨signatureId, hsid, h⟩ := bind_eq_some_iff.1 h
      obtain ⟨generatorId, hgid, h⟩ := bind_eq_some_iff.1 h
      obtain ⟨signatureRevision, hrev, h⟩ := bind_eq_some_iff.1 h
      obtain ⟨sourcePort, hsport, h⟩ := bind_eq_some_iff.1 h
      obtain ⟨destinationPort, hdport, h⟩ := bind_eq_some_iff.1 h
      obtain ⟨flowId, hflow, h⟩ := bind_eq_some_iff.1 h
      cases h
      obtain ⟨v, _, hsev⟩ := bind_eq_some_iff.1 hsev
      obtain ⟨u, _, hsid⟩ := bind_eq_some_iff.1 hsid
      exact
        { occurredAt := ⟨timestamp, hiso⟩
          source := rfl
          severity := rfl
          resource := rfl
          sourceIp := ⟨src, hsrc, rfl⟩
          destinationIp := ⟨dst, hdst, rfl⟩
          sourcePort := lt_of_integerIfPresent hsport
          destinationPort := lt_of_integerIfPresent hdport
          protocol := ⟨proto, rfl⟩
          signatureId := Nat.lt_succ_of_le (integer_le hsid)
          generatorId := Nat.lt_succ_of_le (integer_le hgid)
          signatureRevision := Nat.lt_succ_of_le (integer_le hrev)
          nativeSeverity := ⟨Nat.pos_of_ne_zero hpos, integer_le hsev⟩
          observedAction := ⟨_, rfl⟩
          flowId := lt_of_integerIfPresent hflow }

theorem event_of_eventOf (h : eventOf py row source = some e) : ∃ txId pcapCnt,
      alertOf py row source = some e.toAlert ∧
        integerIfPresent row "tx_id" (2 ^ 64 - 1) = some txId ∧
        integerIfPresent row "pcap_cnt" (2 ^ 64 - 1) = some pcapCnt ∧
        e.dedupeKey = dedupeKey py (e.toAlert.identity txId pcapCnt) := by
  obtain ⟨a, ha, h⟩ := bind_eq_some_iff.1 h
  obtain ⟨txId, htx, h⟩ := bind_eq_some_iff.1 h
  obtain ⟨pcapCnt, hpcap, h⟩ := bind_eq_some_iff.1 h
  cases h
  exact ⟨txId, pcapCnt, ha, htx, hpcap, rfl⟩

/-! ## Which alerts are events -/

theorem isSome_bind {β : Type} {x : Option α} {f : α → Option β} :
    (x.bind f).isSome = true ↔ ∃ a, x = some a ∧ (f a).isSome = true := by
  cases x with
  | none => simp
  | some a => simp

/-- An alert is an event exactly if it passes the checks. -/
theorem eventOf_isSome (halert : row.get "alert" = some alert) :
    (eventOf py row source).isSome = true ↔ ReadByAdapter py row alert := by
  constructor
  · intro h
    obtain ⟨e, he⟩ := isSome_iff_exists.1 h
    obtain ⟨txId, pcapCnt, ha, htx, hpcap, _⟩ := event_of_eventOf he
    obtain ⟨alert', halert', h⟩ := bind_eq_some_iff.1 ha
    rw [halert] at halert'
    cases halert'
    split at h
    · cases h
    · rename_i hobject
      obtain ⟨timestamp, htimestamp, h⟩ := bind_eq_some_iff.1 h
      obtain ⟨occurredAt, hiso, h⟩ := bind_eq_some_iff.1 h
      obtain ⟨src, hsrc, h⟩ := bind_eq_some_iff.1 h
      obtain ⟨dst, hdst, h⟩ := bind_eq_some_iff.1 h
      obtain ⟨sev, hsev, h⟩ := bind_eq_some_iff.1 h
      split at h
      · cases h
      · rename_i hpos
        obtain ⟨proto, hproto, h⟩ := bind_eq_some_iff.1 h
        obtain ⟨signatureId, hsid, h⟩ := bind_eq_some_iff.1 h
        obtain ⟨generatorId, hgid, h⟩ := bind_eq_some_iff.1 h
        obtain ⟨signatureRevision, hrev, h⟩ := bind_eq_some_iff.1 h
        obtain ⟨sourcePort, hsport, h⟩ := bind_eq_some_iff.1 h
        obtain ⟨destinationPort, hdport, h⟩ := bind_eq_some_iff.1 h
        obtain ⟨flowId, hflow, _⟩ := bind_eq_some_iff.1 h
        exact
          { isObject := by simpa using hobject
            timestamp := ⟨timestamp, string_of_asStr htimestamp, by rw [hiso]; rfl⟩
            source := by rw [hsrc]; rfl
            destination := by rw [hdst]; rfl
            severity := ⟨sev, hsev, hpos⟩
            proto := ⟨proto, string_of_asStr hproto⟩
            signatureId := by rw [hsid]; rfl
            generatorId := (integer_getD_isSome (d := .number (.int 1)) (by decide)).1 (by
              rw [hgid]
              rfl)
            signatureRevision := (integer_getD_isSome (d := .number (.int 0)) (by decide)).1 (by
              rw [hrev]
              rfl)
            sourcePort := integerIfPresent_isSome.1 (by rw [hsport]; rfl)
            destinationPort := integerIfPresent_isSome.1 (by rw [hdport]; rfl)
            flowId := integerIfPresent_isSome.1 (by rw [hflow]; rfl)
            txId := integerIfPresent_isSome.1 (by rw [htx]; rfl)
            pcapCnt := integerIfPresent_isSome.1 (by rw [hpcap]; rfl) }
  · intro h
    obtain ⟨timestamp, htimestamp, hiso⟩ := h.timestamp
    obtain ⟨occurredAt, hiso⟩ := isSome_iff_exists.1 hiso
    obtain ⟨src, hsrc⟩ := isSome_iff_exists.1 h.source
    obtain ⟨dst, hdst⟩ := isSome_iff_exists.1 h.destination
    obtain ⟨sev, hsev, hpos⟩ := h.severity
    obtain ⟨proto, hproto⟩ := h.proto
    obtain ⟨signatureId, hsid⟩ := isSome_iff_exists.1 h.signatureId
    obtain ⟨generatorId, hgid⟩ := isSome_iff_exists.1
      ((integer_getD_isSome (d := .number (.int 1)) (by decide)).2 h.generatorId)
    obtain ⟨signatureRevision, hrev⟩ := isSome_iff_exists.1
      ((integer_getD_isSome (d := .number (.int 0)) (by decide)).2 h.signatureRevision)
    obtain ⟨sourcePort, hsport⟩ := isSome_iff_exists.1
      (integerIfPresent_isSome.2 h.sourcePort)
    obtain ⟨destinationPort, hdport⟩ := isSome_iff_exists.1
      (integerIfPresent_isSome.2 h.destinationPort)
    obtain ⟨flowId, hflow⟩ := isSome_iff_exists.1 (integerIfPresent_isSome.2 h.flowId)
    obtain ⟨txId, htx⟩ := isSome_iff_exists.1 (integerIfPresent_isSome.2 h.txId)
    obtain ⟨pcapCnt, hpcap⟩ := isSome_iff_exists.1
      (integerIfPresent_isSome.2 h.pcapCnt)
    have hobject : alert.isObject ≠ false := by
      rw [h.isObject]
      decide
    simp only [eventOf, alertOf, halert, htimestamp, hproto, bind_eq_bind,
      bind_some, if_neg hobject, Json.asStr, hiso, hsrc, hdst, hsev, if_neg hpos, hsid,
      hgid, hrev, hsport, hdport, hflow, htx, hpcap, isSome_some]

theorem isObject_of_get (h : row.get key = some v) : row.isObject = true := by
  cases row with
  | object fields => rfl
  | null | bool | number | string | array => cases h

theorem normalize_eq_event :
    normalize py raw source = .ok (some e) ↔ ∃ row alert, AlertLine py raw row alert ∧
      eventOf py row source = some e := by
  constructor
  · intro h
    unfold normalize at h
    split at h
    · cases h
    · rename_i row hloads
      split at h
      · cases h
      · split at h
        · cases h
        · rename_i htype
          split at h
          · rename_i e' hevent
            cases h
            obtain ⟨_, _, ha, _⟩ := event_of_eventOf hevent
            obtain ⟨alert, halert, _⟩ := bind_eq_some_iff.1 ha
            exact ⟨row, alert, ⟨hloads, not_not.1 htype, halert⟩, hevent⟩
          · cases h
  · rintro ⟨row, alert, hline, hevent⟩
    simp [normalize, hline.loads, isObject_of_get hline.eventType, hline.eventType, hevent]

theorem normalize_alert (h : AlertLine py raw row alert) :
    normalize py raw source ≠ .error .invalid ↔ (eventOf py row source).isSome = true := by
  unfold normalize
  simp only [h.loads, isObject_of_get h.eventType, h.eventType]
  cases eventOf py row source with
  | none => simp
  | some e => simp

theorem AlertLine.unique {row' alert' : Json} (h : AlertLine py raw row alert)
    (h' : AlertLine py raw row' alert') : row = row' ∧ alert = alert' := by
  have hrow : row = row' := Except.ok.inj (h.loads.symm.trans h'.loads)
  subst hrow
  exact ⟨rfl, some.inj (h.alert.symm.trans h'.alert)⟩

theorem readUnsigned_some (h : readUnsigned limit v = some n) :
    v = .number (.int n) ∧ n < limit := by
  unfold readUnsigned at h
  split at h
  · split at h
    · rename_i m hm
      cases h
      rw [Int.toNat_of_nonneg hm.1]
      exact ⟨rfl, by omega⟩
    · cases h
  · cases h

/-- A severity the schema admits is one from 1 to 4 for the adapter. -/
theorem severity_of_field {n : UInt8} (h : field alert "severity" readU8 = some n)
    (hn : ¬ (n = 0 ∨ 4 < n)) : ∃ m, (alert.get "severity").bind (integer 4) = some m ∧ m ≠ 0 := by
  obtain ⟨v, hv, h⟩ := bind_eq_some_iff.1 h
  obtain ⟨m, hm, rfl⟩ := map_eq_some_iff.1 h
  obtain ⟨rfl, hlt⟩ := readUnsigned_some hm
  have htoNat : (UInt8.ofNat m).toNat = m := UInt8.toNat_ofNat_of_lt' hlt
  have hzero : m ≠ 0 := by
    rintro rfl
    exact hn (.inl rfl)
  have hle : m ≤ 4 := by
    by_contra hgt
    refine hn (.inr ?_)
    rw [UInt8.lt_iff_toNat_lt, htoNat]
    exact Nat.not_le.1 hgt
  refine ⟨m, ?_, hzero⟩
  rw [hv, bind_some, integer, if_pos ⟨Int.natCast_nonneg m, Int.ofNat_le.2 hle⟩,
    Int.toNat_natCast]

/-- A number of an `Option` field that is there. -/
theorem integer_of_optionField {read : Json → Option α}
    (hread : ∀ v, (read v).isSome = (readUnsigned (maximum + 1) v).isSome)
    (h : (optionField row key read).isSome = true) (hnull : row.get key ≠ some .null) :
    ∀ v, row.get key = some v → (integer maximum v).isSome = true := by
  intro v hv
  rw [integer_isSome, ← hread]
  unfold optionField at h
  split at h
  · rename_i hnone
    rw [hnone] at hv
    cases hv
  · rename_i hnone
    exact absurd hnone hnull
  · rename_i value _ hvalue
    rw [hvalue] at hv
    cases hv
    rw [isSome_map] at h
    exact h

theorem not_null_of_integer (h : ∀ v, row.get key = some v → (integer maximum v).isSome = true) :
    row.get key ≠ some .null := by
  intro hnull
  exact absurd (h .null hnull) (by simp [integer])

theorem isSome_of_address
    (h : ∃ s, row.get key = some (.string s) ∧ (parseIpAddr s.toList).isSome = true) :
    ((row.get key).bind ipAddress).isSome = true := by
  obtain ⟨s, hget, hparse⟩ := h
  obtain ⟨a, ha⟩ := isSome_iff_exists.1 hparse
  obtain ⟨p, hp, _⟩ := ipAddress_of_parseIpAddr ha
  rw [hget, bind_some, hp]
  rfl

/-- Of the lines valid for the schema exactly those that are read alike are events. -/
theorem readByAdapter_iff (h : ValidForSchema parseTime row alert) :
    ReadByAdapter py row alert ↔ ReadAlike py row := by
  have hread16 : ∀ v, (readU16 v).isSome = (readUnsigned (65535 + 1) v).isSome :=
    fun v => isSome_map
  have hread32 : ∀ v, (readU32 v).isSome = (integer (2 ^ 32 - 1) v).isSome :=
    fun v => isSome_map.trans integer_isSome.symm
  have hread64 : ∀ v, (readU64 v).isSome = (readUnsigned (2 ^ 64 - 1 + 1) v).isSome :=
    fun v => isSome_map
  constructor
  · intro hread
    obtain ⟨s, hs, hiso⟩ := hread.timestamp
    exact
      { timestamp := fun t ht => by
          rw [hs] at ht
          cases ht
          exact hiso
        sourcePort := not_null_of_integer hread.sourcePort
        destinationPort := not_null_of_integer hread.destinationPort
        flowId := not_null_of_integer hread.flowId
        txId := hread.txId
        pcapCnt := hread.pcapCnt }
  · intro halike
    obtain ⟨s, hs, _⟩ := h.timestamp
    obtain ⟨n, hsev, hn⟩ := h.severity
    obtain ⟨sev, hget, _⟩ := bind_eq_some_iff.1 hsev
    obtain ⟨sid, hsid, hsome⟩ := isSome_bind.1 h.signatureId
    exact
      { isObject := isObject_of_get hget
        timestamp := ⟨s, hs, halike.timestamp s hs⟩
        source := isSome_of_address h.source
        destination := isSome_of_address h.destination
        severity := severity_of_field hsev hn
        proto := h.proto
        signatureId := by
          rw [hsid, bind_some, ← hread32]
          exact hsome
        generatorId := fun v hv => (hread32 v).symm.trans (h.generatorId v hv)
        signatureRevision := fun v hv => (hread32 v).symm.trans (h.signatureRevision v hv)
        sourcePort := integer_of_optionField hread16 h.sourcePort halike.sourcePort
        destinationPort :=
          integer_of_optionField hread16 h.destinationPort halike.destinationPort
        flowId := integer_of_optionField hread64 h.flowId halike.flowId
        txId := halike.txId
        pcapCnt := halike.pcapCnt }

/-! ## The event as JSON -/

def EveEvent.jsonFields (e : EveEvent) (source : String) : List (String × Json) :=
  [ ("event_type", .string "network_ids_alert"), ("occurred_at", .string e.occurredAt)
  , ("source", .string source), ("severity", .string e.severity)
  , ("resource", .string e.resource), ("source_ip", .string e.sourceIp)
  , ("destination_ip", .string e.destinationIp), ("source_port", jsonNat? e.sourcePort)
  , ("destination_port", jsonNat? e.destinationPort), ("protocol", .string e.protocol)
  , ("engine", .string "suricata"), ("signature_id", jsonNat e.signatureId)
  , ("generator_id", jsonNat e.generatorId)
  , ("signature_revision", jsonNat e.signatureRevision)
  , ("native_severity", jsonNat e.nativeSeverity)
  , ("observed_action", .string e.observedAction), ("flow_id", jsonNat? e.flowId)
  , ("dedupe_key", .string e.dedupeKey) ]

theorem toString?_map_scalar (cs : List Char) :
    PyStr.toString? (cs.map PyChar.scalar) = some (String.ofList cs) := by
  have hmap : (cs.map PyChar.scalar).mapM PyChar.scalar? = some cs := by
    induction cs with
    | nil => rfl
    | cons c cs ih => simp [mapM_cons, PyChar.scalar?, ih]
  rw [PyStr.toString?, hmap, map_some]

theorem toString?_ofString (s : String) : (PyStr.ofString s).toString? = some s := by
  rw [PyStr.ofString, toString?_map_scalar, String.ofList_toList]

/-- Text that a Rust program can hold has only scalars. -/
theorem eq_ofString_of_toString? (h : source.toString? = some s) : source = PyStr.ofString s := by
  obtain ⟨cs, hcs, rfl⟩ := map_eq_some_iff.1 h
  rw [PyStr.ofString, String.toList_ofList]
  clear h
  induction source generalizing cs with
  | nil =>
    cases hcs
    rfl
  | cons c source ih =>
    rw [mapM_cons] at hcs
    obtain ⟨d, hd, hcs⟩ := bind_eq_some_iff.1 hcs
    obtain ⟨ds, hds, hcs⟩ := bind_eq_some_iff.1 hcs
    cases hcs
    rw [map_cons, ← ih ds hds]
    cases c with
    | scalar c =>
      cases hd
      rfl
    | undecodable b => cases hd

theorem json?_text (s : String) : (text s).json? = some (.string s) := by
  rw [text, Scalar.json?, toString?_ofString, map_some]

theorem json?_intOrNone (n : Option Nat) : (intOrNone n).json? = some (jsonNat? n) := by
  cases n with
  | none => rfl
  | some n => rfl

theorem json?_fields (e : EveEvent) :
    json? e.fields = e.source.toString?.map (fun s => Json.ofFields (e.jsonFields s)) := by
  have hint : ∀ n, (Scalar.int n).json? = some (jsonNat n) := fun _ => rfl
  have hsource : (Scalar.str e.source).json? = e.source.toString?.map Json.string := rfl
  cases htext : e.source.toString? with
  | none =>
    simp [json?, EveEvent.fields, Alert.fields, fieldJson?, mapM_cons, json?_text,
      hsource, htext]
  | some s =>
    simp [json?, EveEvent.fields, Alert.fields, fieldJson?, mapM_cons, json?_text,
      json?_intOrNone, hint, hsource, htext, EveEvent.jsonFields]

/-! ## The event as an envelope -/

def severityOf : Nat → Severity
  | 1 => .high
  | 2 => .medium
  | 3 => .low
  | _ => .info

theorem readSeverity_severityName (n : Nat) :
    readSeverity (.string (severityName n)) = some (severityOf n) := by
  rcases n with _ | _ | _ | _ | n <;> rfl

def EveEvent.evidence (e : EveEvent) : NetworkIdsAlertEvidence where
  sourceIp := e.sourceIp
  destinationIp := e.destinationIp
  sourcePort := e.sourcePort.map UInt16.ofNat
  destinationPort := e.destinationPort.map UInt16.ofNat
  protocol := e.protocol
  engine := "suricata"
  signatureId := UInt32.ofNat e.signatureId
  generatorId := UInt32.ofNat e.generatorId
  signatureRevision := UInt32.ofNat e.signatureRevision
  nativeSeverity := UInt8.ofNat e.nativeSeverity
  observedAction := e.observedAction
  flowId := e.flowId.map UInt64.ofNat

/-- What the ingress makes of the event. -/
def EveEvent.envelope (e : EveEvent) (source : String) (occurredAt : Int) :
    SensorEnvelope where
  occurredAt
  source
  severity := severityOf e.nativeSeverity
  resource := e.resource
  dedupeKey := e.dedupeKey
  evidence := .networkIdsAlert e.evidence

theorem readUnsigned_jsonNat (h : n < limit) : readUnsigned limit (jsonNat n) = some n := by
  rw [jsonNat, readUnsigned, if_pos ⟨Int.natCast_nonneg n, Int.ofNat_lt.2 h⟩,
    Int.toNat_natCast]

theorem field_of_get {read : Json → Option α} (h : row.get key = some v) :
    field row key read = read v := by
  rw [field, h, bind_some]

theorem optionField_jsonNat? {ofNat : Nat → α} {n : Option Nat}
    (h : row.get key = some (jsonNat? n)) (hn : ∀ m ∈ n, m < limit) :
    optionField row key (fun v => (readUnsigned limit v).map ofNat) = some (n.map ofNat) := by
  cases n with
  | none => simp [optionField, h, jsonNat?]
  | some n =>
    have hread := readUnsigned_jsonNat (hn n rfl)
    unfold optionField
    rw [h]
    show ((readUnsigned limit (jsonNat n)).map ofNat).map some = _
    rw [hread]
    rfl

theorem get_jsonFields (e : EveEvent) (source key : String) :
    (Json.ofFields (e.jsonFields source)).get key = (e.jsonFields source).lookup key := by
  refine Json.get_ofFields ?_ key
  show Nodup
    [ "event_type", "occurred_at", "source", "severity", "resource", "source_ip"
    , "destination_ip", "source_port", "destination_port", "protocol", "engine"
    , "signature_id", "generator_id", "signature_revision", "native_severity"
    , "observed_action", "flow_id", "dedupe_key" ]
  decide

section Envelope

variable {py : Python} {row : Json} {source : PyStr} {e : EveEvent}

theorem evidence_ofJson (h : Describes py row source e.toAlert) (s : String) :
    NetworkIdsAlertEvidence.ofJson (.ofFields (e.jsonFields s)) = some e.evidence := by
  have hget := get_jsonFields e s
  have hstr : ∀ key {t}, (e.jsonFields s).lookup key = some (.string t) →
      field (.ofFields (e.jsonFields s)) key Json.asStr = some t :=
    fun key _ hkey => field_of_get ((hget key).trans hkey)
  have hu32 : ∀ key {n}, n < 2 ^ 32 → (e.jsonFields s).lookup key = some (jsonNat n) →
      field (.ofFields (e.jsonFields s)) key readU32 = some (UInt32.ofNat n) := by
    intro key n hn hkey
    rw [field_of_get ((hget key).trans hkey), readU32, readUnsigned_jsonNat hn, map_some]
  have hsev : field (.ofFields (e.jsonFields s)) "native_severity" readU8 =
      some (UInt8.ofNat e.nativeSeverity) := by
    have hlt : e.nativeSeverity < 2 ^ 8 := by
      have := h.nativeSeverity.2
      omega
    rw [field_of_get (v := jsonNat e.nativeSeverity) (hget "native_severity"), readU8,
      readUnsigned_jsonNat hlt, map_some]
  have hsport : optionField (.ofFields (e.jsonFields s)) "source_port" readU16 = _ :=
    optionField_jsonNat? (hget "source_port") h.sourcePort
  have hdport : optionField (.ofFields (e.jsonFields s)) "destination_port" readU16 = _ :=
    optionField_jsonNat? (hget "destination_port") h.destinationPort
  have hflow : optionField (.ofFields (e.jsonFields s)) "flow_id" readU64 = _ :=
    optionField_jsonNat? (hget "flow_id") h.flowId
  simp only [NetworkIdsAlertEvidence.ofJson, bind_eq_bind, hsport, hdport, hflow, hsev,
    hu32 "signature_id" h.signatureId rfl, hu32 "generator_id" h.generatorId rfl,
    hu32 "signature_revision" h.signatureRevision rfl,
    hstr "source_ip" rfl, hstr "destination_ip" rfl,
    hstr "protocol" rfl, hstr "engine" rfl,
    hstr "observed_action" rfl, bind_some]
  rfl

theorem envelope_ofJson {t : Int} (h : Describes py row source e.toAlert)
    (ht : parseTime e.occurredAt = some t) (s : String) :
    SensorEnvelope.ofJson parseTime (.ofFields (e.jsonFields s)) = some (e.envelope s t) := by
  have hget := get_jsonFields e s
  have hstr : ∀ key {u}, (e.jsonFields s).lookup key = some (.string u) →
      field (.ofFields (e.jsonFields s)) key Json.asStr = some u :=
    fun key _ hkey => field_of_get ((hget key).trans hkey)
  have htime : field (.ofFields (e.jsonFields s)) "occurred_at"
      (fun v => v.asStr.bind parseTime) = some t :=
    (field_of_get (v := .string e.occurredAt) (hget "occurred_at")).trans ht
  have hsev : field (.ofFields (e.jsonFields s)) "severity" readSeverity =
      some (severityOf e.nativeSeverity) := by
    rw [field_of_get (v := .string e.severity) (hget "severity"), h.severity,
      readSeverity_severityName]
  have htag : (Json.ofFields (e.jsonFields s)).get "event_type" =
      some (.string "network_ids_alert") := hget "event_type"
  have hevidence : SecurityEventEvidence.ofJson (.ofFields (e.jsonFields s)) =
      some (.networkIdsAlert e.evidence) := by
    simp only [SecurityEventEvidence.ofJson, htag, bind_some, Json.asStr,
      evidence_ofJson h s, map_some]
  simp only [SensorEnvelope.ofJson, bind_eq_bind, htime, hsev, hevidence,
    hstr "source" rfl, hstr "resource" rfl, hstr "dedupe_key" rfl,
    bind_some]
  rfl

end Envelope

/-! ## Its validation -/

theorem validateText_ok {name value : String} {max : Nat} {c : Char}
    (hc : c ∈ value.toList) (hblank : isWhitespace c = false) (hlen : value.toList.length ≤ max) :
    validateText name value max = .ok () := by
  rw [validateText, if_neg]
  rintro (hnil | hlong)
  · exact trim_ne_nil hc hblank hnil
  · exact absurd hlong (Nat.not_lt.2 hlen)

/-- A source that `main` accepts is no blank text for the ingress. -/
theorem validateText_source (h : acceptsSource (.ofString s) = true) :
    validateText "source" s shortFieldMax = .ok () := by
  simp only [acceptsSource, decide_eq_true_eq] at h
  obtain ⟨hstrip, hlen⟩ := h
  have hvisible : ∃ c ∈ s.toList, isSpace (.scalar c) = false := by
    by_contra hno
    push Not at hno
    refine hstrip ?_
    have hnil : (PyStr.ofString s).dropWhile isSpace = [] := by
      rw [dropWhile_eq_nil_iff]
      intro d hd
      obtain ⟨c, hc, rfl⟩ := List.mem_map.1 hd
      exact Bool.eq_true_of_not_eq_false (hno c hc)
    rw [strip, hnil]
    rfl
  obtain ⟨c, hc, hspace⟩ := hvisible
  refine validateText_ok hc ?_ ?_
  · simp only [isSpace, Bool.or_eq_false_iff] at hspace
    exact hspace.1
  · rwa [PyStr.ofString, length_map] at hlen

/-- Address text is short, and not blank. -/
theorem validateText_address (name : String) {a : IpAddr} (h : s.toList = displayIpAddr a) :
    validateText name s resourceMax = .ok () := by
  have hparse := parseIpAddr_displayIpAddr a
  have hlen := length_displayIpAddr a
  cases hcs : displayIpAddr a with
  | nil =>
    have hnone : parseIpAddr [] = none := by decide
    rw [hcs, hnone] at hparse
    cases hparse
  | cons c cs =>
    have hc : c ∈ s.toList := by
      rw [h, hcs]
      exact mem_cons_self
    refine validateText_ok hc ?_ ?_
    · rcases parseIpAddr_chars hparse (h ▸ hc) with rfl | rfl | hdigit
      · decide
      · decide
      · exact isWhitespace_of_isDigitOf hdigit
    · rw [h]
      exact hlen.trans (by decide)

theorem dedupeKey_toList (py : Python) (identity : List (String × Scalar)) :
    (dedupeKey py identity).toList = ['e', 'v', 'e', ':'] ++
      (toBigEndian 16 64 (py.sha256 (identityText identity)).toNat).map Nat.digitChar := by
  simp [dedupeKey, hexdigest]

theorem length_dedupeKey (py : Python) (identity : List (String × Scalar)) :
    (dedupeKey py identity).toList.length = 68 := by
  rw [dedupeKey_toList, length_append, length_map, length_toBigEndian]
  rfl

theorem validateText_dedupeKey (py : Python) (identity : List (String × Scalar)) :
    validateText "dedupe_key" (dedupeKey py identity) dedupeKeyMax = .ok () := by
  refine validateText_ok (c := 'e') ?_ (by decide) ?_
  · rw [dedupeKey_toList]
    exact mem_cons_self
  · rw [length_dedupeKey]
    decide

theorem validateIp_str {name : String} : validateIp name p.str = .ok () ↔ p.scopeId = none := by
  rw [← parseIpAddr_str]
  unfold validateIp
  cases parseIpAddr p.str.toList with
  | none => simp
  | some a => simp

theorem str_of_no_scope (h : p.scopeId = none) : p.str.toList = displayIpAddr p.addr := by
  simp [PyAddress.str, h]

theorem protocol_mem (s : String) :
    protocol s ∈ ["tcp", "udp", "icmp", "icmpv6", "sctp", "other"] := by
  unfold protocol
  dsimp only
  split
  · rename_i hmem
    exact mem_append_left ["other"] hmem
  · decide

theorem observedAction_mem (v : Json) :
    observedAction v ∈ ["allowed", "blocked", "unknown"] := by
  unfold observedAction
  split
  · split
    · rename_i hmem
      exact mem_append_left ["unknown"] hmem
    · decide
  · decide

theorem nativeSeverity_ok (h : 1 ≤ n ∧ n ≤ 4) : ¬ (UInt8.ofNat n = 0 ∨ 4 < UInt8.ofNat n) := by
  obtain ⟨hlow, hhigh⟩ := h
  interval_cases n <;> decide

/-- The evidence is valid exactly if neither address has a scope id. -/
theorem evidence_validate (h : Describes py row source e.toAlert) {q : PyAddress}
    (hp : e.sourceIp = p.str) (hq : e.destinationIp = q.str) :
    e.evidence.validate = .ok () ↔ p.scopeId = none ∧ q.scopeId = none := by
  have hprotocol : e.evidence.protocol ∈
      ["tcp", "udp", "icmp", "icmpv6", "sctp", "other"] := by
    obtain ⟨s, hs⟩ := h.protocol
    show e.protocol ∈ _
    rw [hs]
    exact protocol_mem s
  have haction : e.evidence.observedAction ∈ ["allowed", "blocked", "unknown"] := by
    obtain ⟨v, hv⟩ := h.observedAction
    show e.observedAction ∈ _
    rw [hv]
    exact observedAction_mem v
  have hengine : validateText "engine" e.evidence.engine shortFieldMax = .ok () := by
    show validateText "engine" "suricata" shortFieldMax = .ok ()
    decide +kernel
  have hsource : validateIp "source_ip" e.evidence.sourceIp = .ok () ↔ p.scopeId = none := by
    show validateIp "source_ip" e.sourceIp = .ok () ↔ _
    rw [hp, validateIp_str]
  have hdestination :
      validateIp "destination_ip" e.evidence.destinationIp = .ok () ↔ q.scopeId = none := by
    show validateIp "destination_ip" e.destinationIp = .ok () ↔ _
    rw [hq, validateIp_str]
  have hseverity : ¬ (e.evidence.nativeSeverity = 0 ∨ 4 < e.evidence.nativeSeverity) :=
    nativeSeverity_ok h.nativeSeverity
  rw [← hsource, ← hdestination]
  unfold NetworkIdsAlertEvidence.validate
  rw [hengine, if_neg (not_not.2 hprotocol), if_neg (not_not.2 haction), if_neg hseverity]
  cases validateIp "source_ip" e.evidence.sourceIp with
  | error error => simp [bind, Except.bind]
  | ok =>
    cases validateIp "destination_ip" e.evidence.destinationIp with
    | error | ok => simp [bind, Except.bind]

/-- The ingress accepts an event exactly if its source is a text and neither address has a
scope id. -/
theorem deliverable_iff (hsource : acceptsSource source = true)
    (htime : (parseTime e.occurredAt).isSome = true) (hevent : eventOf py row source = some e)
    {q : PyAddress} (hp : e.sourceIp = p.str) (hq : e.destinationIp = q.str) :
    Deliverable parseTime e ↔
      source.toString?.isSome = true ∧ p.scopeId = none ∧ q.scopeId = none := by
  obtain ⟨txId, pcapCnt, ha, _, _, hkey⟩ := event_of_eventOf hevent
  have hdescribes := describes_of_alertOf ha
  obtain ⟨t, ht⟩ := isSome_iff_exists.1 htime
  constructor
  · rintro ⟨row', envelope, hrow, hread, hvalid⟩
    rw [json?_fields, hdescribes.source] at hrow
    obtain ⟨s, hs, rfl⟩ := map_eq_some_iff.1 hrow
    rw [envelope_ofJson hdescribes ht s] at hread
    cases hread
    refine ⟨isSome_iff_exists.2 ⟨s, hs⟩, ?_⟩
    exact (evidence_validate hdescribes hp hq).1 (SecurityEventStore.evidence_valid hvalid)
  · rintro ⟨htext, hscopes⟩
    obtain ⟨s, hs⟩ := isSome_iff_exists.1 htext
    refine ⟨_, e.envelope s t, ?_, envelope_ofJson hdescribes ht s, ?_⟩
    · rw [json?_fields, hdescribes.source, hs, map_some]
    · have hs' : validateText "source" s shortFieldMax = .ok () :=
        validateText_source (eq_ofString_of_toString? hs ▸ hsource)
      have hresource : validateText "resource" e.resource resourceMax = .ok () := by
        rw [hdescribes.resource, hp]
        exact validateText_address "resource" (str_of_no_scope hscopes.1)
      have hdedupe : validateText "dedupe_key" e.dedupeKey dedupeKeyMax = .ok () := by
        rw [hkey]
        exact validateText_dedupeKey py _
      show (do
        validateText "source" s shortFieldMax
        validateText "resource" e.resource resourceMax
        validateText "dedupe_key" e.dedupeKey dedupeKeyMax
        e.evidence.validate) = _
      rw [hs', hresource, hdedupe]
      exact (evidence_validate hdescribes hp hq).2 hscopes

/-- **One line.** Where the ingress reads every time the adapter writes: what `normalize`
makes of a line agrees with the ingress exactly if the line is none that they see
differently. -/
theorem lineSafe_iff
    (htime : ∀ s stamp, py.utcIsoformat s = some stamp → (parseTime stamp).isSome = true)
    (hsource : acceptsSource source = true) (raw : List UInt8) :
    LineSafe py parseTime source raw ↔ Agrees py parseTime source raw := by
  have hdeliverable : ∀ {row e}, eventOf py row source = some e →
      ∃ p q, (row.get "src_ip").bind ipAddress = some p ∧
        (row.get "dest_ip").bind ipAddress = some q ∧
        (Deliverable parseTime e ↔
          source.toString?.isSome = true ∧ p.scopeId = none ∧ q.scopeId = none) := by
    intro row e hevent
    obtain ⟨_, _, ha, _⟩ := event_of_eventOf hevent
    have hdescribes := describes_of_alertOf ha
    obtain ⟨p, hp, hpstr⟩ := hdescribes.sourceIp
    obtain ⟨q, hq, hqstr⟩ := hdescribes.destinationIp
    obtain ⟨s, hiso⟩ := hdescribes.occurredAt
    exact ⟨p, q, hp, hq, deliverable_iff hsource (htime s _ hiso) hevent hpstr hqstr⟩
  constructor
  · intro h
    constructor
    · intro row alert hline hread
      obtain ⟨e, hevent⟩ := isSome_iff_exists.1 ((eventOf_isSome hline.alert).2 hread)
      obtain ⟨p, q, hp, hq, hiff⟩ := hdeliverable hevent
      obtain ⟨htext, hpscope, hqscope⟩ :=
        hiff.1 (h.delivered e (normalize_eq_event.2 ⟨row, alert, hline, hevent⟩))
      refine ⟨htext, fun p' hp' => ?_, fun q' hq' => ?_⟩
      · rw [some.inj (hp'.symm.trans hp)]
        exact hpscope
      · rw [some.inj (hq'.symm.trans hq)]
        exact hqscope
    · intro row alert hline hvalid
      have hcounted := h.counted row alert hline hvalid
      rw [normalize_alert hline, eventOf_isSome hline.alert] at hcounted
      exact (readByAdapter_iff hvalid).1 hcounted
  · intro h
    constructor
    · intro e he
      obtain ⟨row, alert, hline, hevent⟩ := normalize_eq_event.1 he
      obtain ⟨p, q, hp, hq, hiff⟩ := hdeliverable hevent
      have hread := (eventOf_isSome hline.alert).1 (isSome_iff_exists.2 ⟨e, hevent⟩)
      obtain ⟨htext, hsrc, hdst⟩ := h.delivered row alert hline hread
      exact hiff.2 ⟨htext, hsrc p hp, hdst q hq⟩
    · intro row alert hline hvalid
      rw [normalize_alert hline, eventOf_isSome hline.alert]
      exact (readByAdapter_iff hvalid).2 (h.counted row alert hline hvalid)

/-! ## The key of an event -/

theorem hexdigest_injective {a b : BitVec 256} (h : hexdigest a = hexdigest b) : a = b := by
  have hread : ∀ c : BitVec 256, ((hexdigest c).toList.map (digitValue 16)) =
      (toBigEndian 16 64 c.toNat).map some := by
    intro c
    rw [hexdigest, String.toList_ofList, List.map_map]
    refine map_congr_left (fun d hd => ?_)
    exact digitValue_digitChar (by decide) (lt_of_mem_toBigEndian (by decide) hd)
  have hdigits : toBigEndian 16 64 a.toNat = toBigEndian 16 64 b.toNat := by
    have hmap := hread a
    rw [h, hread b] at hmap
    exact (map_injective_iff.2 (some_injective _) hmap).symm
  have hvalue : ∀ c : BitVec 256, ofBigEndian 16 (toBigEndian 16 64 c.toNat) = c.toNat :=
    fun c => ofBigEndian_toBigEndian (by decide) (c.isLt.trans_le (by decide))
  refine BitVec.eq_of_toNat_eq ?_
  rw [← hvalue a, hdigits, hvalue b]

theorem lookup_eq_some_iff_mem {fs : List (String × Scalar)} (h : (fs.map Prod.fst).Nodup)
    {k : String} {v : Scalar} : fs.lookup k = some v ↔ (k, v) ∈ fs := by
  induction fs with
  | nil => simp
  | cons f rest ih =>
    obtain ⟨l, u⟩ := f
    rw [map_cons, nodup_cons] at h
    rw [lookup_cons, mem_cons, Prod.mk.injEq]
    by_cases hk : k = l
    · subst hk
      have hrest : (k, v) ∉ rest := fun hmem => h.1 (List.mem_map.2 ⟨_, hmem, rfl⟩)
      simp [hrest, eq_comm]
    · rw [beq_false_of_ne hk, ih h.2]
      simp [hk]

theorem nodup_identity (a : Alert) (txId pcapCnt : Option Nat) :
    ((a.identity txId pcapCnt).map Prod.fst).Nodup := by
  have hkeys : ∀ keys ∈ [[], ["tx_id"], ["pcap_cnt"], ["tx_id", "pcap_cnt"]],
      ([ "event_type", "occurred_at", "source", "severity", "resource", "source_ip"
       , "destination_ip", "source_port", "destination_port", "protocol", "engine"
       , "signature_id", "generator_id", "signature_revision", "native_severity"
       , "observed_action", "flow_id" ] ++ keys).Nodup := by
    decide
  cases txId with
  | none =>
    cases pcapCnt with
    | none => exact hkeys [] (by decide)
    | some m => exact hkeys ["pcap_cnt"] (by decide)
  | some n =>
    cases pcapCnt with
    | none => exact hkeys ["tx_id"] (by decide)
    | some m => exact hkeys ["tx_id", "pcap_cnt"] (by decide)

theorem text_injective {t : String} (h : some (text s) = some (text t)) : s = t :=
  ofString_injective (Scalar.str.inj (some.inj h))

theorem intOrNone_injective {n m : Option Nat}
    (h : some (intOrNone n) = some (intOrNone m)) : n = m := by
  cases n with
  | none =>
    cases m with
    | none => rfl
    | some m => cases h
  | some n =>
    cases m with
    | none => cases h
    | some m =>
      cases h
      rfl

theorem alert_eq_of_identity {a b : Alert} {t p t' p' : Option Nat}
    (h : (a.identity t p).Perm (b.identity t' p')) : a = b := by
  have hlookup : ∀ k, (a.identity t p).lookup k = (b.identity t' p').lookup k := by
    intro k
    refine Option.ext (fun v => ?_)
    rw [lookup_eq_some_iff_mem (nodup_identity a t p),
      lookup_eq_some_iff_mem (nodup_identity b t' p'), h.mem_iff]
  have hint : ∀ {n m : Nat}, some (Scalar.int n) = some (Scalar.int m) → n = m :=
    fun heq => Scalar.int.inj (some.inj heq)
  refine Alert.ext ?_ ?_ ?_ ?_ ?_ ?_ ?_ ?_ ?_ ?_ ?_ ?_ ?_ ?_ ?_
  · exact text_injective (hlookup "occurred_at")
  · exact Scalar.str.inj (some.inj (hlookup "source"))
  · exact text_injective (hlookup "severity")
  · exact text_injective (hlookup "resource")
  · exact text_injective (hlookup "source_ip")
  · exact text_injective (hlookup "destination_ip")
  · exact intOrNone_injective (hlookup "source_port")
  · exact intOrNone_injective (hlookup "destination_port")
  · exact text_injective (hlookup "protocol")
  · exact hint (hlookup "signature_id")
  · exact hint (hlookup "generator_id")
  · exact hint (hlookup "signature_revision")
  · exact hint (hlookup "native_severity")
  · exact text_injective (hlookup "observed_action")
  · exact intOrNone_injective (hlookup "flow_id")

/-- **One key, one event.** -/
theorem event_eq_of_key {raw' : List UInt8} {e' : EveEvent} (hsha : NoCollision py source raw raw')
    (he : normalize py raw source = .ok (some e)) (he' : normalize py raw' source = .ok (some e'))
    (hkey : e.dedupeKey = e'.dedupeKey) : e = e' := by
  obtain ⟨row, alert, hline, hevent⟩ := normalize_eq_event.1 he
  obtain ⟨row', alert', hline', hevent'⟩ := normalize_eq_event.1 he'
  obtain ⟨t, p, ha, ht, hp, hdedupe⟩ := event_of_eventOf hevent
  obtain ⟨t', p', ha', ht', hp', hdedupe'⟩ := event_of_eventOf hevent'
  have hdigest : hexdigest (py.sha256 (identityText (e.toAlert.identity t p))) =
      hexdigest (py.sha256 (identityText (e'.toAlert.identity t' p'))) := by
    rw [hdedupe, hdedupe'] at hkey
    have hchars := congrArg String.toList hkey
    rw [dedupeKey, dedupeKey, String.toList_append, String.toList_append] at hchars
    exact String.toList_injective (append_cancel_left hchars)
  have htext := hsha _ _ ⟨row, alert, _, t, p, hline, ha, ht, hp, rfl⟩
    ⟨row', alert', _, t', p', hline', ha', ht', hp', rfl⟩ (hexdigest_injective hdigest)
  have hsorted : sortKeys (e.toAlert.identity t p) = sortKeys (e'.toAlert.identity t' p') :=
    dumpsObject_injective (encode_injective htext)
  have hperm : (e.toAlert.identity t p).Perm (e'.toAlert.identity t' p') :=
    (sortKeys_perm _).symm.trans (hsorted ▸ sortKeys_perm _)
  have halert := alert_eq_of_identity hperm
  obtain ⟨a, k⟩ := e
  obtain ⟨a', k'⟩ := e'
  cases halert
  cases hkey
  rfl

end Clawforge.EveAdapter

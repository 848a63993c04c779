import Clawforge.Kit.Backlog
import Clawforge.Sensors.Linux

/-!
# What the journal sensor's checkpoint promises

Everything read up to the checkpoint was answered or counted as dropped, as long as
`journalctl` is started without a cursor only where nothing is outstanding
(`checkpoint_safe_along`). It is not kept in general: before the first checkpoint a
reconnect or a restart begins from now, behind what was read but never answered
(`event_behind_first_checkpoint`).

The invariant reads the process as a retry queue (`Kit.Backlog`): from some `base`
on, what was read has no gaps, so a stream that starts over from the checkpoint
meets nothing new before the end of the queue.
-/

namespace Clawforge.LinuxSensor

open Kit SecurityEvents Sensors TSys List Option

/-! ## The statement -/

/-- The entry at `n` is one the sensor reports. -/
def Reportable (w : World) (n : Nat) : Prop :=
  ∃ line, w.journal[n]? = some line ∧ ∃ now e, parseJournalLine now n line = .event e

/-- Answered item by item, or counted as dropped. -/
def Settled (w : World) (n : Cursor) : Prop := n ∈ w.answered ∨ n ∈ w.dropped

/-- Whatever was read up to the checkpoint is settled. -/
def CheckpointSafe (w : World) : Prop :=
  ∀ c ∈ w.checkpoint, ∀ n ∈ w.read, n ≤ c → Settled w n

/-- The cursors of the events held by the process. -/
def held (w : World) : List Cursor :=
  match w.proc with
  | none => []
  | some p => p.held.map QueuedEvent.cursor

/-- Nothing that was read is outstanding, and there is no checkpoint to go on from. -/
def NothingOutstanding (w : World) : Prop :=
  w.checkpoint = none ∧ held w = [] ∧ ∀ n ∈ w.read, Settled w n

/-- `journalctl` is started with a cursor, or where nothing is outstanding. -/
def KeepsPlace (w : World) : Action → Prop
  | .connect readable => (readable = true ∧ w.checkpoint ≠ none) ∨ NothingOutstanding w
  | _ => True

instance (w : World) (n : Cursor) : Decidable (Settled w n) :=
  inferInstanceAs (Decidable (_ ∨ _))

instance (w : World) : Decidable (NothingOutstanding w) :=
  inferInstanceAs (Decidable (_ ∧ _ ∧ _))

instance (w : World) : DecidablePred (KeepsPlace w)
  | .connect _ => inferInstanceAs (Decidable (_ ∨ _))
  | .append _ | .start | .emit _ | .disconnect | .receive | .tick | .respond _ | .save _
  | .crash => isTrue trivial

/-! ## The process as a retry queue -/

def backlog (w : World) : Backlog Cursor Nat where
  read := w.read
  settled := w.answered ++ w.dropped
  queue := held w
  mark := w.checkpoint.map (· + 1)

variable {n : Nat} {w : World} {e : QueuedEvent} {line : Option Json} {p : Process} {t : Int}
  {accepted rejected : Nat} {m : Metrics}

theorem mem_settled {n : Cursor} : n ∈ (backlog w).settled ↔ Settled w n :=
  mem_append

theorem safe_backlog : (backlog w).Safe id ↔ CheckpointSafe w := by
  constructor
  · intro h c hc n hn hle
    have hmark : c + 1 ∈ (backlog w).mark := by
      simp only [backlog, Option.mem_def] at hc ⊢
      rw [hc]
      rfl
    exact mem_settled.1 (h (c + 1) hmark n hn (Nat.lt_succ_of_le hle))
  · intro h m hm n hn hlt
    obtain ⟨c, hc, rfl⟩ := map_eq_some_iff.1 hm
    exact mem_settled.2 (h c hc n hn (Nat.le_of_lt_succ hlt))

/-! ## The invariant -/

/-- From `base` on what was read has no gaps, and everything the process works on
lies there. -/
structure Gapless (w : World) (base : Nat) : Prop where
  read : ∀ n, Reportable w n → base ≤ n → (∃ r ∈ w.read, n ≤ r) → n ∈ w.read
  held : ∀ n ∈ held w, base ≤ n ∧ n ∈ w.read
  checkpoint : ∀ c ∈ w.checkpoint, base ≤ c + 1 ∧ c < w.journal.length ∧
    ∀ n, Reportable w n → base ≤ n → n ≤ c → n ∈ w.read
  stream : ∀ p, w.proc = some p → ∀ n, p.stream = some n → base ≤ n ∧
    n ≤ w.journal.length ∧ ∀ m, Reportable w m → base ≤ m → m < n → m ∈ w.read

/-- A request is for something, and a chunk whose checkpoint is being written is a
front of the buffer that was answered. -/
def PhaseOk (answered : List Cursor) (p : Process) : Prop :=
  match p.phase with
  | .receiving => True
  | .sending => p.buffer ≠ []
  | .saving n _ _ =>
    0 < n ∧ n ≤ p.buffer.length ∧ ∀ e ∈ p.buffer.take n, e.cursor ∈ answered

structure Consistent (w : World) : Prop where
  safe : (backlog w).Safe id
  covered : (backlog w).Covered id (· + 1)
  reportable : ∀ n ∈ w.read, Reportable w n
  gapless : ∃ base, Gapless w base
  /-- what lies before the stream is settled or held -/
  stream : ∀ p, w.proc = some p → ∀ n, p.stream = some n → ∀ m ∈ w.read, m < n →
    Settled w m ∨ m ∈ held w
  phase : ∀ p, w.proc = some p → PhaseOk w.answered p

theorem Reportable.lt (h : Reportable w n) : n < w.journal.length := by
  obtain ⟨line, hline, _⟩ := h
  exact (List.getElem?_eq_some_iff.1 hline).1

theorem Reportable.congr {w' : World} (hj : w'.journal = w.journal) (h : Reportable w' n) :
    Reportable w n := by
  obtain ⟨line, hline, hparse⟩ := h
  exact ⟨line, hj ▸ hline, hparse⟩

section

variable (h : parseJournalLine t n line = .event e)
include h

/-- What a reported line is. -/
theorem parse_event :
    ∃ value message failure, line = some value ∧
      (value.get "MESSAGE").bind Json.asStr = some message ∧
      parseSshdMessage message = some failure ∧
      (failureEnvelope t n value failure).validate = .ok () ∧
      e = ⟨failureEnvelope t n value failure, n⟩ := by
  cases line with
  | none => cases h
  | some value =>
    simp only [parseJournalLine] at h
    split at h
    · cases h
    · rename_i message hmessage
      split at h
      · cases h
      · rename_i failure hfailure
        split at h
        · rename_i hvalid
          cases h
          exact ⟨value, message, failure, rfl, hmessage, hfailure, hvalid, rfl⟩
        · cases h

theorem parse_cursor : e.cursor = n := by
  obtain ⟨_, _, _, _, _, _, _, rfl⟩ := parse_event h
  rfl

/-- Whether a line is reported does not depend on when it is read. -/
theorem parse_event_now (t' : Int) : ∃ e', parseJournalLine t' n line = .event e' := by
  obtain ⟨value, message, failure, rfl, hmessage, hfailure, hvalid, _⟩ := parse_event h
  have hvalid' : (failureEnvelope t' n value failure).validate = .ok () := hvalid
  refine ⟨⟨failureEnvelope t' n value failure, n⟩, ?_⟩
  simp only [parseJournalLine, hmessage, hfailure, hvalid']

end

/-! ## Steps that read nothing -/

/-- A step that reads nothing lets settled events go, or loses all; a new checkpoint
is the cursor of a held event. -/
theorem Consistent.of_step {w' : World} (hw : Consistent w) (hread : w'.read = w.read)
    (hjournal : w'.journal = w.journal) (hsafe : (backlog w').Safe id)
    (hcovered : (backlog w').Covered id (· + 1)) (hsettled : ∀ n, Settled w n → Settled w' n)
    (hheld : ∀ n ∈ held w', n ∈ held w)
    (hcheckpoint : ∀ c ∈ w'.checkpoint, c ∈ w.checkpoint ∨ c ∈ held w)
    (hstream : ∀ p', w'.proc = some p' → ∀ n, p'.stream = some n →
      (∃ p, w.proc = some p ∧ p.stream = some n) ∧
        ∀ m ∈ held w, m ∈ held w' ∨ Settled w' m)
    (hphase : ∀ p', w'.proc = some p' → PhaseOk w'.answered p') : Consistent w' := by
  obtain ⟨base, hbase⟩ := hw.gapless
  refine ⟨hsafe, hcovered, ?_, ⟨base, ?_, ?_, ?_, ?_⟩, ?_, hphase⟩
  · intro n hn
    exact (hw.reportable n (hread ▸ hn)).congr hjournal.symm
  · rintro n hn hle ⟨r, hr, hnr⟩
    rw [hread] at hr ⊢
    exact hbase.read n (hn.congr hjournal) hle ⟨r, hr, hnr⟩
  · intro n hn
    rw [hread]
    exact hbase.held n (hheld n hn)
  · intro c hc
    rw [hread, hjournal]
    rcases hcheckpoint c hc with hold | hheldc
    · obtain ⟨h1, h2, h3⟩ := hbase.checkpoint c hold
      exact ⟨h1, h2, fun n hn => h3 n (hn.congr hjournal)⟩
    · obtain ⟨h1, h2⟩ := hbase.held c hheldc
      refine ⟨Nat.le_succ_of_le h1, (hw.reportable c h2).lt, fun n hn hle hnc => ?_⟩
      exact hbase.read n (hn.congr hjournal) hle ⟨c, h2, hnc⟩
  · intro p' hp' n hn
    obtain ⟨⟨p, hp, hpn⟩, _⟩ := hstream p' hp' n hn
    obtain ⟨h1, h2, h3⟩ := hbase.stream p hp n hpn
    rw [hread, hjournal]
    exact ⟨h1, h2, fun m hm => h3 m (hm.congr hjournal)⟩
  · intro p' hp' n hn m hm hlt
    obtain ⟨⟨p, hp, hpn⟩, hkept⟩ := hstream p' hp' n hn
    rcases hw.stream p hp n hpn m (hread ▸ hm) hlt with hs | hh
    · exact .inl (hsettled m hs)
    · exact (hkept m hh).symm

/-- The process moves on: what it holds and where its stream is stay. -/
theorem Consistent.setProc {p' : Process} (hw : Consistent w) (hp : w.proc = some p)
    (hheld : p'.held = p.held) (hstream : ∀ n, p'.stream = some n → p.stream = some n)
    (hphase : PhaseOk w.answered p') : Consistent { w with proc := some p' } := by
  have hsame : held { w with proc := some p' } = held w := by
    unfold held
    rw [hp]
    exact congrArg (List.map QueuedEvent.cursor) hheld
  have hback : backlog { w with proc := some p' } = backlog w := by
    unfold backlog
    rw [hsame]
  refine hw.of_step rfl rfl (hback ▸ hw.safe) (hback ▸ hw.covered) (fun _ h => h)
    (fun n hn => hsame ▸ hn) (fun c hc => .inl hc) ?_ ?_
  · rintro q ⟨⟩ n hn
    exact ⟨⟨p, hp, hstream n hn⟩, fun m hm => .inl (hsame.symm ▸ hm)⟩
  · rintro q ⟨⟩
    exact hphase

theorem held_some (hp : w.proc = some p) : held w = p.held.map QueuedEvent.cursor := by
  unfold held
  rw [hp]

/-- The front of the buffer is the front of what is held. -/
theorem take_held (hp : w.proc = some p) (hn : n ≤ p.buffer.length) :
    (held w).take n = (p.buffer.take n).map QueuedEvent.cursor := by
  rw [held_some hp, ← map_take, Process.held, take_append_of_le_length hn]

theorem drop_held (hp : w.proc = some p) (hn : n ≤ p.buffer.length) :
    (held w).drop n = (p.buffer.drop n ++ p.channel).map QueuedEvent.cursor := by
  rw [held_some hp, ← map_drop, Process.held, drop_append_of_le_length hn]

section

variable (hw : Consistent w)
include hw

/-- The front of the buffer is answered. -/
theorem Consistent.answer (hp : w.proc = some p) (hn : 0 < n) (hle : n ≤ p.buffer.length) :
    Consistent { w with
      proc := some { p with phase := .saving n accepted rejected }
      answered := (p.buffer.take n).map QueuedEvent.cursor ++ w.answered } := by
  have hsettled : ∀ m, Settled w m → Settled { w with
      answered := (p.buffer.take n).map QueuedEvent.cursor ++ w.answered } m := by
    rintro m (hm | hm)
    · exact .inl (mem_append_right _ hm)
    · exact .inr hm
  have hsame := held_some hp
  have hin : ∀ x ∈ (backlog w).settled, x ∈ (backlog { w with
      answered := (p.buffer.take n).map QueuedEvent.cursor ++ w.answered }).settled :=
    fun x hx => mem_settled.2 (hsettled x (mem_settled.1 hx))
  refine hw.of_step rfl rfl (hw.safe.mono rfl rfl hin) (hw.covered.mono rfl hsame.symm hin)
    hsettled (fun m hm => hsame ▸ hm) (fun c hc => .inl hc) ?_ ?_
  · rintro q ⟨⟩ m hm
    refine ⟨⟨p, hp, hm⟩, fun k hk => .inl ?_⟩
    rw [hsame] at hk
    exact hk
  · rintro q ⟨⟩
    refine ⟨hn, hle, fun e he => ?_⟩
    exact mem_append_left _ (List.mem_map.2 ⟨e, he, rfl⟩)

/-- The front of the buffer is dropped, and counted. -/
theorem Consistent.dropFront (hp : w.proc = some p) (hle : n ≤ p.buffer.length) :
    Consistent { w with
      proc := some { p with buffer := p.buffer.drop n, phase := .receiving, metrics := m }
      dropped := (p.buffer.take n).map QueuedEvent.cursor ++ w.dropped } := by
  have hsettled : ∀ m, Settled w m → Settled { w with
      dropped := (p.buffer.take n).map QueuedEvent.cursor ++ w.dropped } m := by
    rintro m (hm | hm)
    · exact .inl hm
    · exact .inr (mem_append_right _ hm)
  have hfront : ∀ c ∈ (held w).take n, Settled { w with
      dropped := (p.buffer.take n).map QueuedEvent.cursor ++ w.dropped } c := by
    intro c hc
    rw [take_held hp hle] at hc
    exact .inr (mem_append_left _ hc)
  have hrest := drop_held hp hle
  have hin : ∀ x ∈ (backlog w).settled, x ∈ (backlog { w with
      dropped := (p.buffer.take n).map QueuedEvent.cursor ++ w.dropped }).settled :=
    fun x hx => mem_settled.2 (hsettled x (mem_settled.1 hx))
  have hcovered : (backlog { w with
      dropped := (p.buffer.take n).map QueuedEvent.cursor ++ w.dropped }).Covered id (· + 1) :=
    hw.covered.mono rfl rfl hin
  have hreleased := hcovered.release (n := n) (fun c hc => mem_settled.2 (hfront c hc))
  refine hw.of_step rfl rfl (hw.safe.mono rfl rfl hin)
    (hreleased.mono rfl hrest.symm (fun _ h => h)) hsettled ?_ (fun c hc => .inl hc) ?_ ?_
  · intro c hc
    have hdrop : c ∈ (held w).drop n := by
      rw [hrest]
      exact hc
    exact mem_of_mem_drop hdrop
  · rintro q ⟨⟩ k hk
    refine ⟨⟨p, hp, hk⟩, fun c hc => ?_⟩
    rw [← take_append_drop n (held w)] at hc
    rcases mem_append.1 hc with hc | hc
    · exact .inr (hfront c hc)
    · rw [hrest] at hc
      exact .inl hc
  · rintro q ⟨⟩
    trivial

/-- The answered chunk is checkpointed and removed. -/
theorem Consistent.chunk (hp : w.proc = some p) (hphase : p.phase = .saving n accepted rejected) :
    Consistent { w with
      checkpoint := (p.buffer[n - 1]?).map QueuedEvent.cursor
      proc := some { p with buffer := p.buffer.drop n, phase := .receiving, metrics := m } } := by
  have hok := hw.phase p hp
  rw [PhaseOk, hphase] at hok
  obtain ⟨hn, hle, hanswered⟩ := hok
  have hfront : ∀ c ∈ (held w).take n, c ∈ (backlog w).settled := by
    intro c hc
    rw [take_held hp hle] at hc
    obtain ⟨e, he, rfl⟩ := List.mem_map.1 hc
    exact mem_settled.2 (.inl (hanswered e he))
  have hrest := drop_held hp hle
  have hlast : n - 1 < p.buffer.length := by omega
  have hcursor : (p.buffer[n - 1]?).map QueuedEvent.cursor = some p.buffer[n - 1].cursor := by
    rw [getElem?_eq_getElem hlast]
    rfl
  -- the chunk is what stands before the last of its events, and that event
  have hchunk : (held w).take n = (held w).take (n - 1) ++ [p.buffer[n - 1].cursor] := by
    have htake : p.buffer.take n = p.buffer.take (n - 1) ++ [p.buffer[n - 1]] := by
      rw [take_append_getElem hlast]
      congr 1
      omega
    rw [take_held hp hle, take_held hp (by omega), htake, map_append]
    rfl
  have hqueue : (backlog w).queue =
      (held w).take (n - 1) ++ p.buffer[n - 1].cursor :: (held w).drop n := by
    show held w = _
    conv_lhs => rw [← take_append_drop n (held w), hchunk, append_assoc]
    rfl
  have hmem : p.buffer[n - 1].cursor ∈ (held w).take n := by
    rw [hchunk]
    exact mem_concat_self
  have hsafe : ((backlog w).setMark (p.buffer[n - 1].cursor + 1)).Safe id := by
    refine hw.covered.setMark hqueue (hfront _ hmem) (fun c hc => hfront c ?_)
    rw [hchunk]
    exact mem_append_left _ hc
  have hreleased := hw.covered.release (n := n) hfront
  refine hw.of_step rfl rfl (hsafe.mono rfl ?_ (fun _ h => h))
    (hreleased.mono rfl hrest.symm (fun _ h => h)) (fun _ h => h) ?_ ?_ ?_ ?_
  · show ((p.buffer[n - 1]?).map QueuedEvent.cursor).map (· + 1) = _
    rw [hcursor]
    rfl
  · intro c hc
    have hdrop : c ∈ (held w).drop n := by
      rw [hrest]
      exact hc
    exact mem_of_mem_drop hdrop
  · intro c hc
    rw [Option.mem_def] at hc
    simp only [hcursor] at hc
    cases hc
    exact .inr (mem_of_mem_take hmem)
  · rintro q ⟨⟩ k hk
    refine ⟨⟨p, hp, hk⟩, fun c hc => ?_⟩
    rw [← take_append_drop n (held w)] at hc
    rcases mem_append.1 hc with hc | hc
    · exact .inr (mem_settled.1 (hfront c hc))
    · rw [hrest] at hc
      exact .inl hc
  · rintro q ⟨⟩
    trivial

/-- The process ends, or one starts. -/
theorem Consistent.restart {proc : Option Process} (hproc : proc = none ∨ proc = some .start) :
    Consistent { w with proc := proc } := by
  have hnone : held { w with proc := proc } = [] := by
    rcases hproc with rfl | rfl <;> rfl
  have hback : backlog { w with proc := proc } = (backlog w).forget := by
    unfold backlog
    rw [hnone]
    rfl
  refine hw.of_step rfl rfl (hback ▸ hw.safe) (hback ▸ Backlog.covered_forget)
    (fun _ h => h) ?_ (fun c hc => .inl hc) ?_ ?_
  · intro n hn
    rw [hnone] at hn
    cases hn
  · intro q hq n hn
    rcases hproc with rfl | rfl
    · cases hq
    · cases hq
      cases hn
  · intro q hq
    rcases hproc with rfl | rfl
    · cases hq
    · cases hq
      trivial

/-- The flush ends. -/
theorem Consistent.endFlush {p' : Process} (hp : w.proc = some p) (hbuffer : p'.buffer = p.buffer)
    (hchannel : p'.channel = p.channel) (hstream : p'.stream = p.stream) :
    Consistent (endFlush w p') := by
  have hle : p'.excess ≤ p.buffer.length := by
    rw [← hbuffer]
    exact Nat.sub_le _ _
  have hdrop := hw.dropFront (m := p'.metrics.drop p'.excess) hp hle
  unfold LinuxSensor.endFlush Process.endFlush
  rw [hbuffer, hchannel, hstream]
  exact hdrop

theorem Consistent.removeChunk (hp : w.proc = some p)
    (hphase : p.phase = .saving n accepted rejected) :
    Consistent (removeChunk w p n accepted rejected) := by
  have hchunk := hw.chunk (m := p.metrics.answered accepted rejected) hp hphase
  unfold LinuxSensor.removeChunk nextChunk
  split
  · exact hchunk.endFlush (w := { w with
      checkpoint := (p.buffer[n - 1]?).map QueuedEvent.cursor
      proc := some { p with
        buffer := p.buffer.drop n, phase := .receiving,
        metrics := p.metrics.answered accepted rejected } }) rfl rfl rfl rfl
  · exact hchunk.setProc (w := { w with
      checkpoint := (p.buffer[n - 1]?).map QueuedEvent.cursor
      proc := some { p with
        buffer := p.buffer.drop n, phase := .receiving,
        metrics := p.metrics.answered accepted rejected } }) rfl rfl (fun _ h => h)
      ‹_›

end

/-! ## Steps of the journal and the reader -/

theorem reportable_append :
    Reportable { w with journal := w.journal ++ [line] } n → n < w.journal.length →
      Reportable w n := by
  rintro ⟨l, hl, hparse⟩ hlt
  refine ⟨l, ?_, hparse⟩
  rw [getElem?_append_left hlt] at hl
  exact hl

theorem Reportable.append (h : Reportable w n) :
    Reportable { w with journal := w.journal ++ [line] } n := by
  have hlt := h.lt
  obtain ⟨l, hl, hparse⟩ := h
  refine ⟨l, ?_, hparse⟩
  rw [getElem?_append_left hlt]
  exact hl

/-- An entry is written; nothing that was read lies behind it. -/
theorem Consistent.append (hw : Consistent w) (line : Option Json) :
    Consistent { w with journal := w.journal ++ [line] } := by
  obtain ⟨base, hbase⟩ := hw.gapless
  have old : ∀ {n r}, Reportable { w with journal := w.journal ++ [line] } n → n ≤ r →
      r < w.journal.length → Reportable w n :=
    fun hn hle hr => reportable_append hn (Nat.lt_of_le_of_lt hle hr)
  refine ⟨hw.safe, hw.covered, fun n hn => (hw.reportable n hn).append,
    ⟨base, ?_, hbase.held, ?_, ?_⟩, hw.stream, hw.phase⟩
  · rintro n hn hle ⟨r, hr, hnr⟩
    exact hbase.read n (old hn hnr (hw.reportable r hr).lt) hle ⟨r, hr, hnr⟩
  · intro c hc
    obtain ⟨h1, h2, h3⟩ := hbase.checkpoint c hc
    refine ⟨h1, ?_, fun n hn hle hnc => h3 n (old hn hnc h2) hle hnc⟩
    rw [length_append]
    exact Nat.lt_succ_of_lt h2
  · intro p hp n hn
    obtain ⟨h1, h2, h3⟩ := hbase.stream p hp n hn
    refine ⟨h1, ?_, fun m hm hle hlt => h3 m ?_ hle hlt⟩
    · simp only [length_append, length_singleton]
      omega
    · exact reportable_append hm (Nat.lt_of_lt_of_le hlt h2)

/-- The stream starts over. -/
theorem Consistent.connect {place : Nat} (hw : Consistent w) (hp : w.proc = some p)
    (hplace : (∃ c ∈ w.checkpoint, place = c + 1) ∨
      (place = w.journal.length ∧ NothingOutstanding w)) :
    Consistent { w with proc := some { p with stream := some place } } := by
  obtain ⟨base, hbase⟩ := hw.gapless
  have hsame : held { w with proc := some { p with stream := some place } } = held w := by
    rw [held_some hp]
    rfl
  have hback : backlog { w with proc := some { p with stream := some place } } = backlog w := by
    unfold backlog
    rw [hsame]
  refine ⟨hback ▸ hw.safe, hback ▸ hw.covered, hw.reportable, ?_, ?_, ?_⟩
  · rcases hplace with ⟨c, hc, rfl⟩ | ⟨rfl, hnone, hempty, _⟩
    · obtain ⟨h1, h2, h3⟩ := hbase.checkpoint c hc
      refine ⟨base, hbase.read, fun n hn => hbase.held n (hsame ▸ hn), hbase.checkpoint, ?_⟩
      rintro q ⟨⟩ n ⟨⟩
      exact ⟨h1, h2, fun m hm hle hlt => h3 m hm hle (Nat.le_of_lt_succ hlt)⟩
    · -- nothing was read from here on
      refine ⟨w.journal.length, ?_, ?_, ?_, ?_⟩
      · rintro n hn hle ⟨r, hr, hnr⟩
        have hlt := (hw.reportable r hr).lt
        omega
      · intro n hn
        rw [hsame, hempty] at hn
        cases hn
      · intro c hc
        simp only [hnone] at hc
        cases hc
      · rintro q ⟨⟩ n ⟨⟩
        refine ⟨le_rfl, le_rfl, fun m hm hle hlt => ?_⟩
        omega
  · rintro q ⟨⟩ n ⟨⟩ m hm hlt
    rcases hplace with ⟨c, hc, rfl⟩ | ⟨rfl, _, _, hsettled⟩
    · exact .inl (safe_backlog.1 hw.safe c hc m hm (Nat.le_of_lt_succ hlt))
    · exact .inl (hsettled m hm)
  · rintro q ⟨⟩
    exact hw.phase p hp

/-- The reader takes a line that is not reported. -/
theorem Consistent.skip (hw : Consistent w) (hp : w.proc = some p) (hn : p.stream = some n)
    (hlt : n < w.journal.length) (hskip : ¬ Reportable w n) :
    Consistent { w with proc := some { p with stream := some (n + 1), metrics := m } } := by
  obtain ⟨base, hbase⟩ := hw.gapless
  have hsame := held_some hp
  have hback : backlog { w with
      proc := some { p with stream := some (n + 1), metrics := m } } = backlog w := by
    unfold backlog
    rw [hsame]
    rfl
  refine ⟨hback ▸ hw.safe, hback ▸ hw.covered, hw.reportable,
    ⟨base, hbase.read, fun k hk => hbase.held k ?_, hbase.checkpoint, ?_⟩, ?_, ?_⟩
  · rw [hsame]
    exact hk
  · rintro q ⟨⟩ k ⟨⟩
    obtain ⟨h1, _, h3⟩ := hbase.stream p hp n hn
    refine ⟨Nat.le_succ_of_le h1, hlt, fun k hk hle hkn => ?_⟩
    rcases Nat.lt_succ_iff_lt_or_eq.1 hkn with hkn | rfl
    · exact h3 k hk hle hkn
    · exact absurd hk hskip
  · rintro q ⟨⟩ k ⟨⟩ r hr hlt'
    rcases Nat.lt_succ_iff_lt_or_eq.1 hlt' with hrn | rfl
    · rcases hw.stream p hp n hn r hr hrn with hs | hh
      · exact .inl hs
      · rw [hsame] at hh
        exact .inr hh
    · exact absurd (hw.reportable r hr) hskip
  · rintro q ⟨⟩
    exact hw.phase p hp

/-- The reader takes a line that is reported. -/
theorem Consistent.take (hw : Consistent w) (hp : w.proc = some p) (hn : p.stream = some n)
    (hreport : Reportable w n) (he : e.cursor = n) :
    Consistent { w with
      proc := some { p with stream := some (n + 1), channel := p.channel ++ [e] }
      read := e.cursor :: w.read } := by
  obtain ⟨base, hbase⟩ := hw.gapless
  obtain ⟨hbn, hlen, hbefore⟩ := hbase.stream p hp n hn
  have hsame : held { w with
      proc := some { p with stream := some (n + 1), channel := p.channel ++ [e] }
      read := e.cursor :: w.read } = held w ++ [e.cursor] := by
    rw [held_some hp]
    show ((p.buffer ++ (p.channel ++ [e])).map QueuedEvent.cursor) = _
    rw [← append_assoc, map_append]
    rfl
  have hback : backlog { w with
      proc := some { p with stream := some (n + 1), channel := p.channel ++ [e] }
      read := e.cursor :: w.read } = (backlog w).push e.cursor := by
    unfold backlog
    rw [hsame]
    rfl
  -- where the checkpoint or something held reaches as far, the line was read before
  have hagain : ∀ r ∈ w.read, n ≤ r → n ∈ w.read :=
    fun r hr hle => hbase.read n hreport hbn ⟨r, hr, hle⟩
  subst he
  refine ⟨hback ▸ hw.safe.push ?_, hback ▸ hw.covered.push ?_ ?_, ?_, ⟨base, ?_, ?_, ?_, ?_⟩,
    ?_, ?_⟩
  · intro m hm hlt
    obtain ⟨c, hc, rfl⟩ := map_eq_some_iff.1 hm
    have hle : e.cursor ≤ c := Nat.le_of_lt_succ hlt
    have hread := (hbase.checkpoint c hc).2.2 e.cursor hreport hbn hle
    exact mem_settled.2 (safe_backlog.1 hw.safe c hc e.cursor hread hle)
  · by_cases hbeyond : ∃ q ∈ held w, e.cursor ≤ q
    · obtain ⟨q, hq, hle⟩ := hbeyond
      exact .inl (hagain q (hbase.held q hq).2 hle)
    · refine .inr (fun q hq => ?_)
      exact not_lt.1 (fun hlt => hbeyond ⟨q, hq, Nat.le_of_lt_succ hlt⟩)
  · intro r hr hlt
    rcases Nat.lt_succ_iff_lt_or_eq.1 hlt with hrn | rfl
    · rcases hw.stream p hp e.cursor hn r hr hrn with hs | hh
      · exact .inl (mem_settled.2 hs)
      · exact .inr (.inl hh)
    · exact .inr (.inr rfl)
  · intro m hm
    rcases mem_cons.1 hm with rfl | hm
    · exact hreport
    · exact hw.reportable m hm
  · rintro m hm hle ⟨r, hr, hmr⟩
    rcases mem_cons.1 hr with rfl | hr
    · rcases Nat.lt_or_eq_of_le hmr with hlt | rfl
      · exact mem_cons_of_mem _ (hbefore m hm hle hlt)
      · exact mem_cons_self
    · exact mem_cons_of_mem _ (hbase.read m hm hle ⟨r, hr, hmr⟩)
  · intro m hm
    rw [hsame] at hm
    rcases mem_append.1 hm with hm | hm
    · exact ⟨(hbase.held m hm).1, mem_cons_of_mem _ (hbase.held m hm).2⟩
    · rw [mem_singleton.1 hm]
      exact ⟨hbn, mem_cons_self⟩
  · intro c hc
    obtain ⟨h1, h2, h3⟩ := hbase.checkpoint c hc
    exact ⟨h1, h2, fun m hm hle hmc => mem_cons_of_mem _ (h3 m hm hle hmc)⟩
  · rintro q ⟨⟩ k ⟨⟩
    refine ⟨Nat.le_succ_of_le hbn, hreport.lt, fun m hm hle hlt => ?_⟩
    rcases Nat.lt_succ_iff_lt_or_eq.1 hlt with hlt | rfl
    · exact mem_cons_of_mem _ (hbefore m hm hle hlt)
    · exact mem_cons_self
  · rintro q ⟨⟩ k ⟨⟩ m hm hlt
    rw [hsame]
    rcases Nat.lt_succ_iff_lt_or_eq.1 hlt with hlt | rfl
    · rcases mem_cons.1 hm with rfl | hm
      · exact absurd hlt (lt_irrefl _)
      · exact (hw.stream p hp e.cursor hn m hm hlt).imp_right (mem_append_left _)
    · exact .inr mem_concat_self
  · rintro q ⟨⟩
    exact hw.phase p hp

/-! ## Runs -/

theorem reportable_of_event {now : Int} (hline : w.journal[n]? = some line)
    (h : parseJournalLine now n line = .event e) : Reportable w n :=
  ⟨line, hline, now, e, h⟩

theorem not_reportable (hline : w.journal[n]? = some line)
    (h : ∀ e, parseJournalLine t n line ≠ .event e) : ¬ Reportable w n := by
  rintro ⟨line', hline', t', e, hparse⟩
  rw [hline] at hline'
  cases hline'
  obtain ⟨e', he'⟩ := parse_event_now hparse t
  exact h e' he'

theorem Consistent.takeLine {now : Int} (hw : Consistent w) (hp : w.proc = some p)
    (hn : p.stream = some n) (hline : w.journal[n]? = some line) :
    Consistent (takeLine w p now n line) := by
  have hlt : n < w.journal.length := (List.getElem?_eq_some_iff.1 hline).1
  unfold LinuxSensor.takeLine
  cases hparse : parseJournalLine now n line with
  | event e =>
    exact hw.take hp hn (reportable_of_event hline hparse) (parse_cursor hparse)
  | skipped | dropped =>
    have hskip : ¬ Reportable w n := not_reportable hline (t := now) (by simp [hparse])
    exact hw.skip hp hn hlt hskip

theorem Consistent.step {w' : World} {a : Action} (hw : Consistent w) (ha : KeepsPlace w a)
    (h : exec w a = some w') : Consistent w' := by
  cases hp : w.proc with
  | none =>
    simp only [exec, hp] at h
    cases a with
    | append line =>
      cases h
      have happend := hw.append line
      rwa [hp] at happend
    | start =>
      cases h
      exact hw.restart (.inr rfl)
    | _ => cases h
  | some p =>
    simp only [exec, hp] at h
    cases a with
    | append line =>
      cases h
      have happend := hw.append line
      rwa [hp] at happend
    | start => cases h
    | connect readable =>
      simp only at h
      split at h
      · cases h
      · cases h
        refine hw.connect hp ?_
        rcases ha with ⟨rfl, hsome⟩ | hnothing
        · cases hc : w.checkpoint with
          | none => exact absurd hc hsome
          | some c => exact .inl ⟨c, rfl, rfl⟩
        · refine .inr ⟨?_, hnothing⟩
          rw [hnothing.1]
          cases readable <;> rfl
    | emit now =>
      simp only at h
      split at h
      · cases h
      · rename_i n hn
        split at h
        · cases h
        · rename_i line hline
          split at h
          · cases h
            exact hw.takeLine hp hn hline
          · cases h
    | disconnect =>
      simp only at h
      split at h
      · cases h
      · cases h
        exact hw.setProc hp rfl (fun n hn => by cases hn) (hw.phase p hp)
    | receive =>
      simp only at h
      split at h
      · rename_i e rest _ hchannel
        cases h
        refine hw.setProc hp ?_ (fun _ hn => hn) ?_
        · show (p.buffer ++ [e]) ++ rest = p.buffer ++ p.channel
          rw [hchannel, append_assoc]
          rfl
        · unfold PhaseOk
          split
          · trivial
          · simp
          · rename_i hphase
            simp only at hphase
            split at hphase <;> cases hphase
      · cases h
    | tick =>
      simp only at h
      split at h
      · split at h
        · cases h
          exact hw
        · rename_i hne
          cases h
          exact hw.setProc hp rfl (fun _ hn => hn) hne
      · cases h
    | respond r =>
      simp only at h
      split at h
      · rename_i hphase
        split at h
        · cases h
          exact hw.endFlush hp rfl rfl rfl
        · cases h
          have hok := hw.phase p hp
          rw [PhaseOk, hphase] at hok
          have hpos : 0 < p.batchLen :=
            Nat.lt_min.2 ⟨length_pos_of_ne_nil hok, by decide⟩
          exact hw.answer hp hpos (Nat.min_le_left _ _)
      · cases h
    | save ok =>
      simp only at h
      split at h
      · rename_i n accepted rejected hphase
        split at h
        · cases h
          exact hw.removeChunk hp hphase
        · cases h
          exact hw.endFlush hp rfl rfl rfl
      · cases h
    | crash =>
      cases h
      exact hw.restart (.inl rfl)

theorem consistent_initial (h : Initial w) : Consistent w := by
  obtain ⟨hproc, hread, _, _, hcheckpoint⟩ := h
  have nothing : ∀ n, n ∉ w.read := by
    intro n hn
    rw [hread] at hn
    cases hn
  have hheld : held w = [] := by
    unfold held
    rw [hproc]
  have noProc : ∀ p, w.proc ≠ some p := by
    intro p hp
    rw [hproc] at hp
    cases hp
  refine ⟨fun m _ n hn => absurd hn (nothing n), fun _ _ _ _ n hn => absurd hn (nothing n),
    fun n hn => absurd hn (nothing n), ⟨(w.checkpoint.map (· + 1)).getD 0, ?_, ?_, ?_, ?_⟩,
    fun p hp => absurd hp (noProc p), fun p hp => absurd hp (noProc p)⟩
  · rintro n _ _ ⟨r, hr, _⟩
    exact absurd hr (nothing r)
  · intro n hn
    rw [hheld] at hn
    cases hn
  · intro c hc
    have hlt := hcheckpoint c hc
    rw [Option.mem_def.1 hc]
    refine ⟨le_rfl, hlt, fun n _ hle hnc => ?_⟩
    exact absurd (Nat.lt_of_succ_le hle) (not_lt.2 hnc)
  · exact fun p hp => absurd hp (noProc p)

/-- **Checkpoint safety.** In every run that starts `journalctl` without a cursor only
where nothing is outstanding, whatever was read up to the checkpoint was answered item
by item or counted as dropped. -/
theorem checkpoint_safe_along {w : World} (hw : (system.restrict KeepsPlace).Reachable w) :
    CheckpointSafe w := by
  have hind : (system.restrict KeepsPlace).Inductive Consistent :=
    { init := fun _ h => consistent_initial h
      step := fun _ _ _ hw hstep => hw.step hstep.1 hstep.2 }
  exact safe_backlog.1 (hind.invariant w hw).safe

/-! ## Before the first checkpoint -/

/-- The first start: no checkpoint, an empty journal. -/
def firstStart : World := ⟨[], none, none, [], [], []⟩

def failedLogin : Json :=
  .object [("MESSAGE", .string "Failed password for root from 203.0.113.7 port 51234 ssh2")]

theorem initial_firstStart : Initial firstStart := ⟨rfl, rfl, rfl, rfl, by rintro c ⟨⟩⟩

/-- All `n` items of a request accepted. -/
def allAccepted (n : Nat) : Json :=
  .object [("data", .object
    [ ("accepted", .number (.int n)), ("rejected", .number (.int 0))
    , ("results", .array (List.replicate n (.object [("status", .string "accepted")]))) ])]

/-- The first failed login is answered and checkpointed. Two more are read, the stream breaks, and
the next one reads the older of them again; the process crashes, and its successor goes on from
the checkpoint, fails with one flush and sends both with the next. -/
def restartFromCheckpoint : List Action :=
  [ .start, .connect true, .append (some failedLogin), .emit 0, .receive, .tick
  , .respond (.success (some (allAccepted 1))), .save true
  , .append (some failedLogin), .append (some failedLogin), .emit 0, .emit 0, .receive
  , .disconnect, .connect true, .emit 0, .crash
  , .start, .connect true, .emit 0, .receive, .tick, .respond .unreachable, .emit 0, .receive, .tick
  , .respond (.success (some (allAccepted 2))), .save true ]

/-- Nothing is left behind the checkpoint on the way. -/
theorem checkpoint_safe_along_restart : ∃ w,
    (system.restrict KeepsPlace).Run firstStart restartFromCheckpoint w ∧
    w.checkpoint = some 2 ∧ w.read = [2, 1, 1, 2, 1, 0] ∧ w.answered = [1, 2, 0] ∧
    CheckpointSafe w := by
  have hrun : (execAll (fun w a => if KeepsPlace w a then exec w a else none) firstStart
      restartFromCheckpoint).map (fun w => (w.checkpoint, w.read, w.answered)) =
      some (some 2, [2, 1, 1, 2, 1, 0], [1, 2, 0]) := by decide +kernel
  obtain ⟨w, hw, hstate⟩ := map_eq_some_iff.1 hrun
  simp only [Prod.mk.injEq] at hstate
  obtain ⟨hcheckpoint, hread, hanswered⟩ := hstate
  have hsteps := run_restrict_of_execAll Initial exec hw
  exact ⟨w, hsteps, hcheckpoint, hread, hanswered,
    checkpoint_safe_along ⟨firstStart, _, initial_firstStart, hsteps⟩⟩

/-- A failed login is read, the process restarts before it is answered, and the next
one is answered. -/
def restartBeforeAnswer : List Action :=
  [ .start, .connect true, .append (some failedLogin), .emit 0, .crash
  , .start, .connect true, .append (some failedLogin), .emit 0, .receive, .tick
  , .respond (.success (some (allAccepted 1))), .save true ]

/-- The first failed login lies behind the checkpoint, and was never answered. -/
theorem event_behind_first_checkpoint : ¬ system.Invariant CheckpointSafe := by
  intro h
  have hrun : (execAll exec firstStart restartBeforeAnswer).map
      (fun w => (w.checkpoint, w.read, w.answered, w.dropped)) =
      some (some 1, [1, 0], [1], []) := by
    decide +kernel
  obtain ⟨w, hw, hcolumns⟩ := map_eq_some_iff.1 hrun
  obtain ⟨hcheckpoint, hcolumns⟩ := Prod.mk.inj hcolumns
  obtain ⟨hread, hcolumns⟩ := Prod.mk.inj hcolumns
  obtain ⟨hanswered, hdropped⟩ := Prod.mk.inj hcolumns
  have hreach : system.Reachable w :=
    ⟨firstStart, restartBeforeAnswer, initial_firstStart, run_of_execAll _ _ hw⟩
  have hmem : 0 ∈ w.read := by
    rw [hread]
    decide
  rcases h w hreach 1 hcheckpoint 0 hmem (by decide) with hs | hs
  · rw [hanswered] at hs
    exact absurd hs (by decide)
  · rw [hdropped] at hs
    cases hs

end Clawforge.LinuxSensor

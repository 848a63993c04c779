import Clawforge.Kit.Backlog
import Clawforge.Sensors.Docker

/-!
# What the Docker sensor's sender promises

Requests the ingress admits, an empty backlog after the next flush it answers, no
event removed that was neither answered nor counted as dropped, and a checkpoint
behind which nothing is outstanding (`sender_safe_along`). The sender keeps them as
long as the backlog stays within one request, a success answers every item, and
events are read in the order of their times.

Without these it keeps none: a backlog of more than one request is sent whole, is
refused, and stays (`backlog_stuck`, `outage_over_a_request`).
-/

namespace Clawforge.DockerSensor

open Kit SecurityEvents Sensors TSys List Option

/-! ## The statement -/

/-- Answered item by item, or counted as dropped. -/
def Settled (w : World) (e : QueuedEvent) : Prop := e ∈ w.answered ∨ e ∈ w.dropped

/-- What the sender holds, in the order it was read. -/
def held (w : World) : List QueuedEvent := w.buffer ++ w.channel

/-- A success whose results answer `n` items. -/
def Complete (n : Nat) (body : Option Json) : Prop :=
  ∃ items, body.bind results = some items ∧ n ≤ items.length

/-- A working ingress: it refuses a request of no items or of too many. -/
def ingressAnswer (n : Nat) (body : Option Json) : Response :=
  if 1 ≤ n ∧ n ≤ ingressMaxItems then .success body else .refused 400

/-- The next flush that a working ingress answers empties the backlog. -/
def Drains (w : World) : Prop :=
  w.phase = .receiving → w.buffer ≠ [] → ∀ body, Complete w.buffer.length body →
    ∀ saved, ∃ w', execAll exec w
      [.tick, .respond (ingressAnswer w.buffer.length body), .save saved] = some w' ∧
        w'.buffer = []

structure SenderSafe (w : World) : Prop where
  admitted : ∀ n ∈ w.requests, 1 ≤ n ∧ n ≤ ingressMaxItems
  drains : Drains w
  accounted : ∀ e ∈ w.removed, Settled w e
  counted : w.metrics.droppedTotal = w.dropped.length
  checkpoint : ∀ c ∈ w.checkpoint, ∀ e ∈ w.read, e.eventTimeSeconds < c → Settled w e

/-- An event is read again, or is no earlier than the checkpoint and all that is held. -/
def InOrder (w : World) (e : QueuedEvent) : Prop :=
  Settled w e ∨ e ∈ held w ∨
    (∀ c ∈ w.checkpoint, c ≤ e.eventTimeSeconds) ∧
      ∀ q ∈ held w, q.eventTimeSeconds ≤ e.eventTimeSeconds

/-- The backlog stays within one request, a success answers every item, and events
are read in order. -/
def Keeps (w : World) : Action → Prop
  | .read e => InOrder w e
  | .receive => w.buffer.length < ingressMaxItems
  | .respond (.success body) => Complete w.buffer.length body
  | _ => True

instance (n : Nat) (body : Option Json) : Decidable (Complete n body) :=
  decidable_of_iff ((body.bind results).any (fun items => n ≤ items.length) = true) (by
    simp [Complete, Option.any_eq_true])

instance (w : World) (e : QueuedEvent) : Decidable (InOrder w e) :=
  inferInstanceAs (Decidable ((_ ∨ _) ∨ _ ∨ _ ∧ _))

instance (w : World) : DecidablePred (Keeps w)
  | .read _ => inferInstanceAs (Decidable (InOrder ..))
  | .receive => inferInstanceAs (Decidable (_ < _))
  | .respond (.success _) => inferInstanceAs (Decidable (Complete ..))
  | .respond .unreachable | .respond (.refused _) | .tick | .save _ => isTrue trivial

/-! ## The sender as a retry queue -/

def backlog (w : World) : Backlog QueuedEvent Int where
  read := w.read
  settled := w.answered ++ w.dropped
  queue := held w
  mark := w.checkpoint

variable {w : World} {e : QueuedEvent} {w' : World}

theorem mem_settled : e ∈ (backlog w).settled ↔ Settled w e :=
  mem_append

structure Consistent (w : World) : Prop where
  admitted : ∀ n ∈ w.requests, 1 ≤ n ∧ n ≤ ingressMaxItems
  buffer : w.buffer.length ≤ ingressMaxItems
  accounted : ∀ e ∈ w.removed, Settled w e
  counted : w.metrics.droppedTotal = w.dropped.length
  safe : (backlog w).Safe QueuedEvent.eventTimeSeconds
  covered : (backlog w).Covered QueuedEvent.eventTimeSeconds QueuedEvent.eventTimeSeconds
  all : (backlog w).Held
  settled : ∀ e, Settled w e → e ∈ w.read
  held : ∀ e ∈ held w, e ∈ w.read
  saving : w.phase = .saving → ∀ e ∈ w.buffer, e ∈ w.answered

/-! ## One lemma for each action -/

/-- What neither reads nor settles nor lets go leaves the backlog as it is. -/
theorem Consistent.of_same (hw : Consistent w)
    (hrequests : ∀ n ∈ w'.requests, 1 ≤ n ∧ n ≤ ingressMaxItems)
    (hbuffer : w'.buffer.length ≤ ingressMaxItems) (hremoved : w'.removed = w.removed)
    (hmetrics : w'.metrics = w.metrics) (hdropped : w'.dropped = w.dropped)
    (hbacklog : backlog w' = backlog w)
    (hsaving : w'.phase = .saving → ∀ e ∈ w'.buffer, e ∈ w'.answered) : Consistent w' := by
  have hsettled : ∀ e, Settled w' e ↔ Settled w e := by
    intro e
    rw [← mem_settled, ← mem_settled, hbacklog]
  have hread : w'.read = w.read := congrArg Backlog.read hbacklog
  have hheld : DockerSensor.held w' = DockerSensor.held w := congrArg Backlog.queue hbacklog
  refine ⟨hrequests, hbuffer, ?_, hmetrics ▸ hdropped ▸ hw.counted, hbacklog ▸ hw.safe, hbacklog ▸ hw.covered,
    hbacklog ▸ hw.all, ?_, ?_, hsaving⟩
  · intro e he
    exact (hsettled e).2 (hw.accounted e (hremoved ▸ he))
  · intro e he
    rw [hread]
    exact hw.settled e ((hsettled e).1 he)
  · intro e he
    rw [hread]
    exact hw.held e (hheld ▸ he)

/-- The reader puts an event into the channel. -/
theorem Consistent.readEvent (hw : Consistent w) (he : InOrder w e) :
    Consistent { w with channel := w.channel ++ [e], read := e :: w.read } := by
  have hback : backlog { w with channel := w.channel ++ [e], read := e :: w.read } =
      (backlog w).push e := by
    unfold backlog Backlog.push DockerSensor.held
    rw [← append_assoc]
  refine ⟨hw.admitted, hw.buffer, hw.accounted, hw.counted, hback ▸ hw.safe.push ?_,
    hback ▸ hw.covered.push ?_ ?_, hback ▸ hw.all.push, ?_, ?_, hw.saving⟩
  · intro c hc hlt
    rcases he with hs | hh | ⟨hlate, _⟩
    · exact mem_settled.2 hs
    · exact hw.safe c hc e (hw.held e hh) hlt
    · exact absurd (hlate c hc) (not_le.2 hlt)
  · rcases he with hs | hh | ⟨_, hlate⟩
    · exact .inl (hw.settled e hs)
    · exact .inl (hw.held e hh)
    · exact .inr hlate
  · intro x hx _
    rcases hw.all x hx with hs | hq
    · exact .inl hs
    · exact .inr (.inl hq)
  · intro x hx
    exact mem_cons_of_mem _ (hw.settled x hx)
  · intro x hx
    have hqueue : DockerSensor.held { w with channel := w.channel ++ [e], read := e :: w.read } =
        DockerSensor.held w ++ [e] := congrArg Backlog.queue hback
    rw [hqueue] at hx
    rcases mem_append.1 hx with hx | hx
    · exact mem_cons_of_mem _ (hw.held x hx)
    · rw [mem_singleton.1 hx]
      exact mem_cons_self

/-- A flush begins. -/
theorem Consistent.beginFlush (hw : Consistent w) (hne : w.buffer ≠ []) :
    Consistent (beginFlush w) := by
  refine hw.of_same ?_ hw.buffer rfl rfl rfl rfl (fun h => by cases h)
  intro n hn
  rcases mem_cons.1 hn with rfl | hn
  · exact ⟨length_pos_of_ne_nil hne, hw.buffer⟩
  · exact hw.admitted n hn

/-- An event moves from the channel to the buffer. -/
theorem Consistent.receive {rest : List QueuedEvent} (hw : Consistent w)
    (hphase : w.phase = .receiving) (hchannel : w.channel = e :: rest)
    (hroom : w.buffer.length < ingressMaxItems) :
    Consistent { w with channel := rest, buffer := w.buffer ++ [e] } := by
  refine hw.of_same hw.admitted ?_ rfl rfl rfl ?_ ?_
  · rw [length_append]
    exact hroom
  · unfold backlog DockerSensor.held
    rw [hchannel, append_assoc]
    rfl
  · intro hsaving
    simp only [hphase] at hsaving
    cases hsaving

/-- Events of the buffer are settled, and its front may be let go. -/
theorem Consistent.of_settle {n : Nat} (hw : Consistent w) (hn : n ≤ w.buffer.length)
    (hrequests : w'.requests = w.requests) (hread : w'.read = w.read)
    (hbuffer : w'.buffer = w.buffer.drop n) (hchannel : w'.channel = w.channel)
    (hremoved : w'.removed = w.buffer.take n ++ w.removed)
    (hsettled : ∀ e, Settled w e → Settled w' e)
    (hnew : ∀ e, Settled w' e → Settled w e ∨ e ∈ w.buffer)
    (hfront : ∀ e ∈ w.buffer.take n, Settled w' e)
    (hcounted : w'.metrics.droppedTotal = w'.dropped.length)
    (hsafe : (backlog w').Safe QueuedEvent.eventTimeSeconds)
    (hsaving : w'.phase = .saving → ∀ e ∈ w'.buffer, e ∈ w'.answered) : Consistent w' := by
  have hqueue : DockerSensor.held w' = (DockerSensor.held w).drop n := by
    unfold DockerSensor.held
    rw [hbuffer, hchannel, drop_append_of_le_length hn]
  have htake : ∀ q ∈ (DockerSensor.held w).take n, q ∈ (backlog w').settled := by
    intro q hq
    rw [DockerSensor.held, take_append_of_le_length hn] at hq
    exact mem_settled.2 (hfront q hq)
  -- first everything settled in place, then the front let go
  let mid : Backlog QueuedEvent Int := { backlog w with settled := (backlog w').settled }
  have hin : ∀ x ∈ (backlog w).settled, x ∈ mid.settled :=
    fun x hx => mem_settled.2 (hsettled x (mem_settled.1 hx))
  have hcovered : mid.Covered QueuedEvent.eventTimeSeconds QueuedEvent.eventTimeSeconds :=
    hw.covered.mono rfl rfl hin
  have hall : mid.Held := hw.all.mono rfl rfl hin
  refine ⟨hrequests ▸ hw.admitted, ?_, ?_, hcounted, hsafe, ?_, ?_, ?_, ?_, hsaving⟩
  · rw [hbuffer, length_drop]
    exact Nat.le_trans (Nat.sub_le _ _) hw.buffer
  · intro e he
    rw [hremoved] at he
    rcases mem_append.1 he with he | he
    · exact hfront e he
    · exact hsettled e (hw.accounted e he)
  · exact (hcovered.release htake).mono hread hqueue (fun _ h => h)
  · exact (hall.release htake).mono hread hqueue (fun _ h => h)
  · intro e he
    rw [hread]
    rcases hnew e he with hs | hb
    · exact hw.settled e hs
    · exact hw.held e (mem_append_left _ hb)
  · intro e he
    rw [hread]
    rw [hqueue] at he
    exact hw.held e (mem_of_mem_drop he)

theorem countAnswer_dropped (m : Metrics) (body : Option Json) :
    (countAnswer m body).droppedTotal = m.droppedTotal := by
  cases body <;> rfl

/-- A success answers the buffer. -/
theorem Consistent.answer {body : Option Json} {m : Metrics} (hw : Consistent w)
    (hbody : Complete w.buffer.length body) (hm : m.droppedTotal = w.metrics.droppedTotal) :
    Consistent { w with
      phase := .saving, metrics := m, answered := answeredItems w body ++ w.answered } := by
  obtain ⟨items, hitems, hlen⟩ := hbody
  have hall : answeredItems w body = w.buffer := by
    unfold answeredItems
    rw [hitems]
    exact take_of_length_le hlen
  rw [hall]
  have hsettled : ∀ e, Settled w e → Settled { w with
      phase := .saving, metrics := m, answered := w.buffer ++ w.answered } e := by
    rintro e (he | he)
    · exact .inl (mem_append_right _ he)
    · exact .inr he
  refine hw.of_settle (n := 0) (Nat.zero_le _) rfl rfl rfl rfl rfl hsettled ?_ ?_
    (hm.trans hw.counted) ?_ ?_
  · rintro e (he | he)
    · rcases mem_append.1 he with he | he
      · exact .inr he
      · exact .inl (.inl he)
    · exact .inl (.inr he)
  · intro e he
    cases he
  · exact hw.safe.mono rfl rfl (fun x hx => mem_settled.2 (hsettled x (mem_settled.1 hx)))
  · intro _ e he
    exact mem_append_left _ he

/-- The front of the buffer is dropped, and counted. -/
theorem Consistent.dropFront {n : Nat} {m : Metrics} (hw : Consistent w) (hn : n ≤ w.buffer.length)
    (hm : m.droppedTotal = w.metrics.droppedTotal + n) :
    Consistent { w with
      buffer := w.buffer.drop n
      phase := .receiving
      metrics := m
      dropped := w.buffer.take n ++ w.dropped
      removed := w.buffer.take n ++ w.removed } := by
  have hsettled : ∀ e, Settled w e → Settled { w with
      buffer := w.buffer.drop n
      phase := .receiving
      metrics := m
      dropped := w.buffer.take n ++ w.dropped
      removed := w.buffer.take n ++ w.removed } e := by
    rintro e (he | he)
    · exact .inl he
    · exact .inr (mem_append_right _ he)
  refine hw.of_settle hn rfl rfl rfl rfl rfl hsettled ?_ ?_ ?_ ?_ (fun h => by cases h)
  · rintro e (he | he)
    · exact .inl (.inl he)
    · rcases mem_append.1 he with he | he
      · exact .inr (mem_of_mem_take he)
      · exact .inl (.inr he)
  · intro e he
    exact .inr (mem_append_left _ he)
  · show m.droppedTotal = (w.buffer.take n ++ w.dropped).length
    rw [hm, hw.counted, length_append, length_take, Nat.min_eq_left hn, Nat.add_comm]
  · exact hw.safe.mono rfl rfl (fun x hx => mem_settled.2 (hsettled x (mem_settled.1 hx)))

/-- The request failed. -/
theorem Consistent.keepForRetry (hw : Consistent w) : Consistent (keepForRetry w) :=
  hw.dropFront (Nat.sub_le _ _) rfl

/-- The checkpoint is written, or not, and the buffer cleared. -/
theorem Consistent.clearBuffer (hw : Consistent w) (hphase : w.phase = .saving) (saved : Bool) :
    Consistent (clearBuffer w saved) := by
  have hanswered := hw.saving hphase
  refine hw.of_settle (n := w.buffer.length) le_rfl rfl rfl ?_ rfl ?_ (fun _ h => h)
    (fun _ h => .inl h) ?_ hw.counted ?_ (fun h => by cases h)
  · exact drop_length.symm
  · rw [take_length]
    rfl
  · intro e he
    exact .inl (hanswered e (mem_of_mem_take he))
  · -- the checkpoint is that of the last event of the buffer, or the old one
    rcases eq_nil_or_concat' w.buffer with hnil | ⟨pre, q, hq⟩
    · refine hw.safe.mono rfl ?_ (fun _ h => h)
      show (if saved then (w.buffer.getLast?.map QueuedEvent.eventTimeSeconds).or w.checkpoint
        else w.checkpoint) = w.checkpoint
      rw [hnil]
      cases saved <;> rfl
    · cases saved with
      | false => exact hw.safe.mono rfl rfl (fun _ h => h)
      | true =>
        have hsplit : (backlog w).queue = pre ++ q :: w.channel := by
          show w.buffer ++ w.channel = _
          rw [hq, append_assoc]
          rfl
        have hmem : ∀ y ∈ pre ++ [q], y ∈ (backlog w).settled :=
          fun y hy => mem_settled.2 (.inl (hanswered y (hq ▸ hy)))
        refine (hw.covered.setMark hsplit (hmem q (by simp))
          (fun y hy => hmem y (by simp [hy]))).mono rfl ?_ (fun _ h => h)
        show (w.buffer.getLast?.map QueuedEvent.eventTimeSeconds).or w.checkpoint = _
        rw [hq, getLast?_concat]
        rfl

/-! ## Runs -/

theorem Consistent.step {a : Action} (hw : Consistent w) (ha : Keeps w a) (h : exec w a = some w') :
    Consistent w' := by
  cases a with
  | read e =>
    cases h
    exact hw.readEvent ha
  | receive =>
    simp only [exec] at h
    split at h
    · rename_i e rest hphase hchannel
      have hnext := hw.receive hphase hchannel ha
      cases h
      split
      · exact hnext.beginFlush (by simp)
      · exact hnext
    · cases h
  | tick =>
    simp only [exec] at h
    split at h
    · cases h
      split
      · exact hw
      · exact hw.beginFlush ‹_›
    · cases h
  | respond r =>
    simp only [exec] at h
    split at h
    · cases r with
      | unreachable | refused =>
        cases h
        exact hw.keepForRetry
      | success body =>
        cases h
        exact hw.answer ha (countAnswer_dropped w.metrics body)
    · cases h
  | save saved =>
    simp only [exec] at h
    split at h
    · rename_i hphase
      cases h
      exact hw.clearBuffer hphase saved
    · cases h

theorem consistent_initial (h : Initial w) : Consistent w := by
  obtain ⟨hchannel, hbuffer, hphase, hmetrics, hread, hanswered, hdropped, hremoved,
    hrequests⟩ := h
  have hheld : held w = [] := by
    unfold held
    rw [hbuffer, hchannel]
    rfl
  have hsettled : ∀ e, ¬ Settled w e := by
    rintro e (he | he)
    · rw [hanswered] at he
      cases he
    · rw [hdropped] at he
      cases he
  have hnothing : ∀ e, e ∉ w.read := by
    intro e he
    rw [hread] at he
    cases he
  refine ⟨?_, ?_, ?_, ?_, fun _ _ e he => absurd he (hnothing e),
    fun _ _ _ _ e he => absurd he (hnothing e), fun e he => absurd he (hnothing e),
    fun e he => absurd he (hsettled e), ?_, ?_⟩
  · rw [hrequests]
    intro n hn
    cases hn
  · rw [hbuffer]
    exact Nat.zero_le _
  · rw [hremoved]
    intro e he
    cases he
  · rw [hmetrics, hdropped]
    rfl
  · rw [hheld]
    intro e he
    cases he
  · intro hsaving
    rw [hphase] at hsaving
    cases hsaving

/-- A flush of a backlog within one request, answered by a working ingress. -/
theorem drains_of_le (hle : w.buffer.length ≤ ingressMaxItems) : Drains w := by
  intro hphase hne body hbody saved
  have hanswer : ingressAnswer w.buffer.length body = .success body :=
    if_pos ⟨length_pos_of_ne_nil hne, hle⟩
  simp only [execAll, exec, hphase, if_neg hne, hanswer, beginFlush, bind_some]
  exact ⟨_, rfl, rfl⟩

theorem Consistent.senderSafe (hw : Consistent w) : SenderSafe w where
  admitted := hw.admitted
  drains := drains_of_le hw.buffer
  accounted := hw.accounted
  counted := hw.counted
  checkpoint := fun c hc e he hlt => mem_settled.1 (hw.safe c hc e he hlt)

/-- **Delivery.** In every run in which the backlog stays within one request, every
success answers all items of its request and events are read in order, the sender is
safe in every state. -/
theorem sender_safe_along {w : World} (hw : (system.restrict Keeps).Reachable w) :
    SenderSafe w := by
  have hind : (system.restrict Keeps).Inductive Consistent :=
    { init := fun _ h => consistent_initial h
      step := fun _ _ _ hw hstep => hw.step hstep.1 hstep.2 }
  exact (hind.invariant w hw).senderSafe

/-! ## A backlog of more than one request -/

/-- The ingress refuses requests of too many items. -/
def Refuses (w : World) : Action → Prop
  | .respond (.success _) => w.buffer.length ≤ ingressMaxItems
  | _ => True

instance (w : World) : DecidablePred (Refuses w)
  | .respond (.success _) => inferInstanceAs (Decidable (_ ≤ _))
  | .respond .unreachable | .respond (.refused _) | .read _ | .receive | .tick | .save _ =>
    isTrue trivial

/-- More is held than one request admits, and no success is being handled. -/
def Stuck (w : World) : Prop := ingressMaxItems < w.buffer.length ∧ w.phase ≠ .saving

theorem Stuck.step {a : Action} (hw : Stuck w) (ha : Refuses w a) (h : exec w a = some w') :
    Stuck w' := by
  obtain ⟨hlong, hphase⟩ := hw
  cases a with
  | read e =>
    cases h
    exact ⟨hlong, hphase⟩
  | receive =>
    simp only [exec] at h
    split at h
    · rename_i hreceiving hchannel
      cases h
      refine ⟨?_, ?_⟩
      · split
        all_goals
          simp only [beginFlush, length_append]
          exact Nat.lt_of_lt_of_le hlong (Nat.le_add_right _ _)
      · split
        · simp [beginFlush]
        · exact hphase
    · cases h
  | tick =>
    simp only [exec] at h
    split at h
    · cases h
      split
      · exact ⟨hlong, hphase⟩
      · exact ⟨hlong, by simp [beginFlush]⟩
    · cases h
  | respond r =>
    simp only [exec] at h
    split at h
    · have hkeep : Stuck (keepForRetry w) := by
        refine ⟨?_, by simp [keepForRetry]⟩
        simp only [keepForRetry, length_drop]
        unfold ingressMaxItems maxBufferedRetry at *
        omega
      cases r with
      | unreachable | refused =>
        cases h
        exact hkeep
      | success body => exact absurd ha (Nat.not_le.2 hlong)
    · cases h
  | save saved =>
    cases hp : w.phase with
    | saving => exact absurd hp hphase
    | _ => simp [exec, hp] at h

/-- Once more is held than one request admits, it is so for ever: the backlog is sent
whole, and the ingress refuses it. -/
theorem backlog_stuck {w w' : World} {ls : List Action} (hw : Stuck w)
    (h : (system.restrict Refuses).Run w ls w') : Stuck w' :=
  h.preserves (fun _ _ _ hs hstep => hs.step hstep.1 hstep.2) hw

/-! ## An outage -/

def firstStart : World := ⟨none, [], [], .receiving, .zero, [], [], [], [], []⟩

def lifecycleEvent (action : String) (lifecycle : ContainerLifecycleAction) (seconds : Int) :
    QueuedEvent where
  envelope := lifecycleEnvelope 0 "host" action "c1" seconds (seconds * 1000000000)
    ⟨lifecycle, some "c1", some "web", none, action⟩
  eventTimeSeconds := seconds

def containerStarted : QueuedEvent := lifecycleEvent "start" .started 1

def containerStopped : QueuedEvent := lifecycleEvent "die" .stopped 5

theorem initial_firstStart : Initial firstStart := ⟨rfl, rfl, rfl, rfl, rfl, rfl, rfl, rfl, rfl⟩

/-- Both items of a request accepted. -/
def bothAccepted : Json :=
  Json.ofFields [("data", Json.ofFields [("accepted", .number (.int 2)),
    ("results", .array [.string "accepted", .string "accepted"])])]

/-- A first flush does not get through; the next one has two events, is answered item by item and
checkpointed. Of the two that follow, the first is an event of the same second read again. -/
def retriedFlush : List Action :=
  [ .read containerStarted, .receive, .tick, .respond .unreachable
  , .read containerStopped, .receive, .tick, .respond (.success (some bothAccepted)), .save true
  , .read containerStopped, .read (lifecycleEvent "destroy" .destroyed 9), .receive, .receive
  , .tick, .respond (.refused 503) ]

/-- Nothing is lost on the way. -/
theorem sender_safe_along_retriedFlush : ∃ w,
    (system.restrict Keeps).Run firstStart retriedFlush w ∧
    w.requests = [2, 2, 1] ∧ w.checkpoint = some 5 ∧ w.answered = [containerStarted, containerStopped] ∧
    w.buffer.length = 2 ∧ SenderSafe w := by
  have hrun : (execAll (fun w a => if Keeps w a then exec w a else none) firstStart
      retriedFlush).map (fun w => (w.requests, w.checkpoint, w.answered, w.buffer.length)) =
      some ([2, 2, 1], some 5, [containerStarted, containerStopped], 2) := by
    decide +kernel
  obtain ⟨w, hw, hstate⟩ := map_eq_some_iff.1 hrun
  simp only [Prod.mk.injEq] at hstate
  obtain ⟨hrequests, hcheckpoint, hanswered, hbuffer⟩ := hstate
  have hsteps := run_restrict_of_execAll Initial exec hw
  exact ⟨w, hsteps, hrequests, hcheckpoint, hanswered, hbuffer,
    sender_safe_along ⟨firstStart, _, initial_firstStart, hsteps⟩⟩

/-- 101 events arrive while the ingress cannot be reached. -/
def outage : List Action :=
  (List.replicate 49 [.read containerStarted, .receive]).flatten ++
    (List.replicate 52
      [.read containerStarted, .receive, .respond .unreachable]).flatten

/-- Then a request of 101 items was sent. -/
theorem outage_over_a_request : ¬ system.Invariant SenderSafe := by
  intro h
  have hrun : (execAll exec firstStart outage).map (fun w => w.requests.head?) =
      some (some 101) := by
    decide +kernel
  obtain ⟨w, hw, hhead⟩ := map_eq_some_iff.1 hrun
  have hreach : system.Reachable w :=
    ⟨firstStart, outage, initial_firstStart, run_of_execAll _ _ hw⟩
  have hmem : 101 ∈ w.requests := mem_of_mem_head? hhead
  exact absurd ((h w hreach).admitted 101 hmem).2 (by decide)

def afterOutage : World := (execAll exec firstStart outage).get (by decide +kernel)

/-- The ingress is back, and refuses the whole backlog; an event arrives meanwhile. -/
def refusedFlushes : List Action :=
  [ .tick, .respond (.refused 400), .read containerStopped, .receive, .respond (.refused 400)
  , .tick ]

theorem backlog_stuck_outage : ∃ w, (system.restrict Refuses).Run afterOutage refusedFlushes w ∧
    w.requests.take 3 = [102, 102, 101] ∧ w.answered = [] ∧ Stuck w := by
  have hstuck : Stuck afterOutage := by
    unfold Stuck
    decide +kernel
  have hrun : (execAll (fun w a => if Refuses w a then exec w a else none) afterOutage
      refusedFlushes).map (fun w => (w.requests.take 3, w.answered)) =
      some ([102, 102, 101], []) := by decide +kernel
  obtain ⟨w, hw, hstate⟩ := map_eq_some_iff.1 hrun
  obtain ⟨hrequests, hanswered⟩ := Prod.mk.inj hstate
  have hsteps := run_restrict_of_execAll Initial exec hw
  exact ⟨w, hsteps, hrequests, hanswered, backlog_stuck hstuck hsteps⟩

end Clawforge.DockerSensor

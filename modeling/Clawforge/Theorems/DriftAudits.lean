import Clawforge.Executor.DriftSweep

/-!
# Drift audits

What a poll attempts to record of one generation, as a function of the polls
before it (`PollExact`): one audit write when its rule is found absent or
unreadable and no write of this period was recorded, none otherwise. The
remembered states carry it (`Remembers`): a state other than in force is
remembered exactly while the current period of that state has been reported.
It needs the generations that the listing leaves out to be in force
(`Covered`).
-/

namespace Clawforge.Executor.Drift

open Clawforge.Firewall Clawforge.RuleIntents Kit List Option

/-! ## The loop -/

theorem remember_self (seen : Seen) (id : Uuid) (state : Option DriftState) :
    remember seen id state id = state := if_pos rfl

variable {seen : Seen} {p : Poll} {r : FirewallRuleIntent} {l : List FirewallRuleIntent} {k : Uuid}

theorem remember_of_ne {id : Uuid} {state : Option DriftState} (h : k ≠ id) :
    remember seen id state k = seen k := if_neg h

/-- An iteration leaves the other generations alone. -/
theorem checkIntent_of_ne (seen : Seen) (h : k ≠ r.id) : (checkIntent p seen r).1 k = seen k := by
  unfold checkIntent
  dsimp only
  split
  · split
    · exact remember_of_ne h
    · exact (remember_of_ne h).trans (remember_of_ne h)
  · exact remember_of_ne h

/-- What an iteration does, by the state it reads and the one remembered. -/
theorem checkIntent_spec (p : Poll) (seen : Seen) (r : FirewallRuleIntent) :
    (∃ text, observedText (driftState (p.inspect r.id)) = some text ∧
        seen r.id ≠ some (driftState (p.inspect r.id)) ∧
        (checkIntent p seen r).1 r.id =
          (if p.fate r.id = .written then some (driftState (p.inspect r.id)) else none) ∧
        (checkIntent p seen r).2 = some ⟨driftAudit r text, p.fate r.id⟩) ∨
      ((driftState (p.inspect r.id) = .inForce ∨
          seen r.id = some (driftState (p.inspect r.id))) ∧
        (checkIntent p seen r).1 r.id = some (driftState (p.inspect r.id)) ∧
        (checkIntent p seen r).2 = none) := by
  unfold checkIntent
  generalize driftState (p.inspect r.id) = now
  dsimp only
  by_cases hsame : seen r.id = some now
  · refine .inr ⟨.inr hsame, ?_⟩
    unfold driftTransition
    rw [if_pos hsame]
    exact ⟨remember_self _ _ _, rfl⟩
  · have hafter : (if p.fate r.id = .written then remember seen r.id (some now)
        else remember (remember seen r.id (some now)) r.id none) r.id =
          if p.fate r.id = .written then some now else none := by
      split
      · exact remember_self _ _ _
      · exact remember_self _ _ _
    unfold driftTransition
    rw [if_neg hsame]
    cases now with
    | inForce =>
      refine .inr ⟨.inl rfl, ?_⟩
      cases seen r.id with
      | none | some => exact ⟨remember_self _ _ _, rfl⟩
    | absent =>
      refine .inl ⟨"absent", rfl, hsame, ?_⟩
      cases seen r.id with
      | none | some => exact ⟨hafter, rfl⟩
    | unreadable =>
      refine .inl ⟨"unreadable", rfl, hsame, ?_⟩
      cases seen r.id with
      | none | some => exact ⟨hafter, rfl⟩

/-- An iteration reads only what is remembered of its generation. -/
theorem checkIntent_congr {seen' : Seen} (h : seen r.id = seen' r.id) :
    (checkIntent p seen r).1 r.id = (checkIntent p seen' r).1 r.id ∧
      (checkIntent p seen r).2 = (checkIntent p seen' r).2 := by
  unfold checkIntent
  rw [h]
  dsimp only
  split
  · split
    · exact ⟨(remember_self _ _ _).trans (remember_self _ _ _).symm, rfl⟩
    · exact ⟨(remember_self _ _ _).trans (remember_self _ _ _).symm, rfl⟩
  · exact ⟨(remember_self _ _ _).trans (remember_self _ _ _).symm, rfl⟩

theorem checkAll_of_not_mem (h : k ∉ l.map FirewallRuleIntent.id) :
    (checkAll p l seen).1 k = seen k := by
  induction l generalizing seen with
  | nil => rfl
  | cons r rest ih =>
    rw [map_cons, mem_cons, not_or] at h
    exact (ih h.2).trans (checkIntent_of_ne _ h.1)

/-- The audit write of an iteration is about its generation. -/
theorem intentId_of_checkIntent {a : Attempt} (h : (checkIntent p seen r).2 = some a) :
    a.audit.intentId = r.id := by
  rcases checkIntent_spec p seen r with ⟨text, -, -, -, hattempt⟩ | ⟨-, -, hnone⟩
  · rw [hattempt] at h
    cases h
    rfl
  · rw [hnone] at h
    cases h

theorem mem_checkAll {a : Attempt} (h : a ∈ (checkAll p l seen).2) :
    a.audit.intentId ∈ l.map FirewallRuleIntent.id := by
  induction l generalizing seen with
  | nil => cases h
  | cons b rest ih =>
    rcases mem_append.1 h with h | h
    · rw [intentId_of_checkIntent (mem_toList.1 h)]
      exact mem_cons_self
    · exact mem_cons_of_mem _ (ih h)

theorem attempts_self (p : Poll) (seen : Seen) (r : FirewallRuleIntent) :
    (checkIntent p seen r).2.toList.filter (fun a => a.audit.intentId = r.id) =
      (checkIntent p seen r).2.toList := by
  rw [filter_eq_self]
  intro a ha
  exact decide_eq_true (intentId_of_checkIntent (mem_toList.1 ha))

theorem attempts_of_ne (p : Poll) (seen : Seen) (h : k ≠ r.id) :
    (checkIntent p seen r).2.toList.filter (fun a => a.audit.intentId = k) = [] := by
  rw [filter_eq_nil_iff]
  intro a ha heq
  rw [intentId_of_checkIntent (mem_toList.1 ha), decide_eq_true_eq] at heq
  exact h heq.symm

theorem attempts_of_not_mem (h : k ∉ l.map FirewallRuleIntent.id) :
    (checkAll p l seen).2.filter (fun a => a.audit.intentId = k) = [] := by
  rw [filter_eq_nil_iff]
  intro a ha heq
  rw [decide_eq_true_eq] at heq
  exact h (heq ▸ mem_checkAll ha)

/-- Each generation of the listing gets the iteration it would get alone. -/
theorem checkAll_of_mem (hids : (l.map FirewallRuleIntent.id).Nodup) (seen : Seen) (hr : r ∈ l) :
    (checkAll p l seen).1 r.id = (checkIntent p seen r).1 r.id ∧
      (checkAll p l seen).2.filter (fun a => a.audit.intentId = r.id) =
        (checkIntent p seen r).2.toList := by
  induction l generalizing seen with
  | nil => cases hr
  | cons b rest ih =>
    obtain ⟨hb, hrest⟩ := nodup_cons.1 hids
    show (checkAll p rest (checkIntent p seen b).1).1 r.id = _ ∧
      ((checkIntent p seen b).2.toList ++ (checkAll p rest (checkIntent p seen b).1).2).filter _ = _
    rw [filter_append]
    rcases mem_cons.1 hr with rfl | hr
    · rw [checkAll_of_not_mem hb, attempts_of_not_mem hb, append_nil]
      exact ⟨rfl, attempts_self p seen r⟩
    · have hne : r.id ≠ b.id := by
        intro heq
        exact hb (heq ▸ List.mem_map_of_mem hr)
      obtain ⟨hseen, hattempts⟩ := ih hrest (checkIntent p seen b).1 hr
      obtain ⟨hsame, hsame'⟩ := checkIntent_congr (p := p)
        (checkIntent_of_ne (p := p) seen (r := b) hne)
      rw [hseen, hattempts, hsame, hsame']
      refine ⟨rfl, ?_⟩
      rw [attempts_of_ne p seen hne, nil_append]

/-! ## A poll -/

/-- The current period of a state has been reported: the polls since the generation came into
it hold an audit write that was not lost. -/
def Reported : List Observation → Uuid → DriftState → Prop
  | [], _, _ => False
  | o :: earlier, id, state =>
    (∃ r ∈ o.active, r.id = id) ∧ o.state id = state ∧
      ((∃ a ∈ o.attempts, a.audit.intentId = id ∧ a.fate ≠ .failed) ∨
        Reported earlier id state)

/-- What a poll attempts to record, given the polls before it. -/
structure PollExact (earlier : List Observation) (o : Observation) : Prop where
  /-- nothing is recorded of other generations -/
  ofActive : ∀ a ∈ o.attempts, ∃ r ∈ o.active, a.audit.intentId = r.id
  /-- a condition that the period has not reported is reported, whatever became of earlier tries -/
  due : ∀ r ∈ o.active, ∀ text, observedText (o.state r.id) = some text →
    ¬ Reported earlier r.id (o.state r.id) →
    o.attempts.filter (fun a => a.audit.intentId = r.id) = [⟨driftAudit r text, o.fate r.id⟩]
  /-- a rule in force and a condition reported already are not -/
  quiet : ∀ r ∈ o.active, o.state r.id = .inForce ∨ Reported earlier r.id (o.state r.id) →
    o.attempts.filter (fun a => a.audit.intentId = r.id) = []

/-- Every poll was exact, and the recorded events are the writes that were not lost. -/
structure ExactlyOnce (w : World) : Prop where
  polls : ∀ later o earlier, w.past = later ++ o :: earlier → PollExact earlier o
  recorded : w.outbox =
    ((w.past.reverse.flatMap Observation.attempts).filter (fun a => a.fate ≠ .failed)).map
      Attempt.audit

/-- The generations that the listing leaves out are in force, and no audit write commits
without an answer. -/
def Covered (_ : World) (p : Poll) : Prop :=
  p.listed = true →
    (∀ r ∈ activeCompleted p.ledger p.now, r ∉ activeCompletedFirewallRuleIntents p.ledger p.now →
      driftState (p.inspect r.id) = .inForce) ∧
    ∀ r ∈ activeCompletedFirewallRuleIntents p.ledger p.now,
      driftState (p.inspect r.id) ≠ .inForce → p.fate r.id ≠ .unacknowledged

instance (w : World) (p : Poll) : Decidable (Covered w p) :=
  inferInstanceAs (Decidable (_ → _ ∧ _))

/-- A state other than in force is remembered while the period has been reported. -/
def Remembers (w : World) : Prop :=
  ∀ id state, state ≠ .inForce → (w.seen id = some state ↔ Reported w.past id state)

section Listing

variable {L : Ledger} {now : Instant}

theorem mem_activeCompleted_of_listed (h : r ∈ activeCompletedFirewallRuleIntents L now) :
    r ∈ activeCompleted L now :=
  (mem_insertionSort _).1 (mem_of_mem_take h)

theorem activeCompleted_ids : ((activeCompleted L now).map FirewallRuleIntent.id).Nodup :=
  L.intents.unique.sublist (filter_sublist.map _)

theorem listed_ids :
    ((activeCompletedFirewallRuleIntents L now).map FirewallRuleIntent.id).Nodup := by
  have hsorted : ((activeCompleted L now).insertionSort listedBefore).map FirewallRuleIntent.id
      |>.Nodup := ((perm_insertionSort _ _).map _).nodup_iff.2 activeCompleted_ids
  exact hsorted.sublist ((take_sublist _ _).map _)

/-- A row that is not listed has an id of its own. -/
theorem id_not_listed (hr : r ∈ activeCompleted L now)
    (h : r ∉ activeCompletedFirewallRuleIntents L now) :
    r.id ∉ (activeCompletedFirewallRuleIntents L now).map FirewallRuleIntent.id := by
  intro hid
  obtain ⟨x, hx, heq⟩ := List.mem_map.1 hid
  have hsame : x = r :=
    inj_on_of_nodup_map activeCompleted_ids (mem_activeCompleted_of_listed hx) hr heq
  exact h (hsame ▸ hx)

end Listing

section Poll

variable {w : World} {p : Poll}

/-- The remembered states that the loop starts from. -/
def retained (w : World) (p : Poll) : Seen :=
  fun id => if id ∈ (activeCompletedFirewallRuleIntents p.ledger p.now).map FirewallRuleIntent.id
    then w.seen id else none

/-- What a poll with a listing has met. -/
def observation (w : World) (p : Poll) : Observation where
  active := activeCompleted p.ledger p.now
  state id := driftState (p.inspect id)
  fate := p.fate
  attempts := (checkAll p (activeCompletedFirewallRuleIntents p.ledger p.now) (retained w p)).2

theorem sweep_of_listed (h : p.listed = true) :
    sweep w p =
      { seen := (checkAll p (activeCompletedFirewallRuleIntents p.ledger p.now) (retained w p)).1
        outbox := w.outbox ++ ((observation w p).attempts.filter (fun a => a.fate ≠ .failed)).map
          Attempt.audit
        past := observation w p :: w.past } := if_pos h

theorem sweep_of_unlisted (h : p.listed = false) : sweep w p = w := by
  unfold sweep
  rw [h]
  rfl

/-- A listed generation gets the iteration that the states remembered before the poll give it. -/
theorem observation_of_listed (hr : r ∈ activeCompletedFirewallRuleIntents p.ledger p.now) :
    (checkAll p (activeCompletedFirewallRuleIntents p.ledger p.now) (retained w p)).1 r.id =
        (checkIntent p w.seen r).1 r.id ∧
      (observation w p).attempts.filter (fun a => a.audit.intentId = r.id) =
        (checkIntent p w.seen r).2.toList := by
  have hkept : retained w p r.id = w.seen r.id := if_pos (List.mem_map_of_mem hr)
  obtain ⟨hseen, hattempts⟩ := checkAll_of_mem (p := p) listed_ids (retained w p) hr
  obtain ⟨hfirst, hsecond⟩ := checkIntent_congr (p := p) hkept
  exact ⟨hseen.trans hfirst, hattempts.trans (congrArg Option.toList hsecond)⟩

theorem observation_of_unlisted {id : Uuid}
    (h : id ∉ (activeCompletedFirewallRuleIntents p.ledger p.now).map FirewallRuleIntent.id) :
    (checkAll p (activeCompletedFirewallRuleIntents p.ledger p.now) (retained w p)).1 id = none ∧
      (observation w p).attempts.filter (fun a => a.audit.intentId = id) = [] :=
  ⟨(checkAll_of_not_mem h).trans (if_neg h), attempts_of_not_mem h⟩

/-- A poll from states that remember what was reported is exact. -/
theorem pollExact (hw : Remembers w) (hcov : Covered w p) (h : p.listed = true) :
    PollExact w.past (observation w p) where
  ofActive a ha := by
    obtain ⟨r, hr, hid⟩ := List.mem_map.1 (mem_checkAll ha)
    exact ⟨r, mem_activeCompleted_of_listed hr, hid.symm⟩
  due r hr text htext hnew := by
    have hforce : driftState (p.inspect r.id) ≠ .inForce := by
      intro heq
      change observedText (driftState (p.inspect r.id)) = some text at htext
      rw [heq] at htext
      cases htext
    have hlisted : r ∈ activeCompletedFirewallRuleIntents p.ledger p.now := by
      by_contra hnot
      exact hforce ((hcov h).1 r hr hnot)
    rw [(observation_of_listed hlisted).2]
    rcases checkIntent_spec p w.seen r with ⟨text', htext', -, -, hattempt⟩ | ⟨hold, -, -⟩
    · have hsame : text' = text := some.inj (htext'.symm.trans htext)
      rw [hattempt, hsame]
      rfl
    · rcases hold with hold | hold
      · exact absurd hold hforce
      · exact absurd ((hw _ _ hforce).1 hold) hnew
  quiet r hr hold := by
    by_cases hlisted : r ∈ activeCompletedFirewallRuleIntents p.ledger p.now
    · rw [(observation_of_listed hlisted).2]
      rcases checkIntent_spec p w.seen r with ⟨text, htext, hnew, -, -⟩ | ⟨-, -, hnone⟩
      · have hforce : driftState (p.inspect r.id) ≠ .inForce := by
          intro heq
          rw [heq] at htext
          cases htext
        rcases hold with hold | hold
        · exact absurd hold hforce
        · exact absurd ((hw _ _ hforce).2 hold) hnew
      · rw [hnone]
        rfl
    · exact (observation_of_unlisted (id_not_listed hr hlisted)).2

/-- Some attempt of a generation survived exactly if its only one did. -/
theorem exists_attempt_iff {attempts : List Attempt} {id : Uuid} {only : Option Attempt}
    (h : attempts.filter (fun a => a.audit.intentId = id) = only.toList) :
    (∃ a ∈ attempts, a.audit.intentId = id ∧ a.fate ≠ .failed) ↔
      ∃ a, only = some a ∧ a.fate ≠ .failed := by
  constructor
  · rintro ⟨a, ha, hid, hfate⟩
    have hmem : a ∈ attempts.filter (fun a => a.audit.intentId = id) :=
      mem_filter.2 ⟨ha, decide_eq_true hid⟩
    rw [h, mem_toList] at hmem
    exact ⟨a, hmem, hfate⟩
  · rintro ⟨a, rfl, hfate⟩
    have hmem : a ∈ attempts.filter (fun a => a.audit.intentId = id) := by
      rw [h]
      exact mem_singleton_self a
    obtain ⟨ha, hid⟩ := mem_filter.1 hmem
    exact ⟨a, ha, of_decide_eq_true hid, hfate⟩

/-- A poll remembers what it reports. -/
theorem remembers_sweep (hw : Remembers w) (hcov : Covered w p) : Remembers (sweep w p) := by
  cases h : p.listed with
  | false => rwa [sweep_of_unlisted h]
  | true =>
    rw [sweep_of_listed h]
    intro id state hstate
    show (checkAll p _ (retained w p)).1 id = some state ↔
      (∃ r ∈ activeCompleted p.ledger p.now, r.id = id) ∧
        driftState (p.inspect id) = state ∧ (_ ∨ Reported w.past id state)
    by_cases hid : id ∈ (activeCompletedFirewallRuleIntents p.ledger p.now).map
        FirewallRuleIntent.id
    · obtain ⟨r, hr, rfl⟩ := List.mem_map.1 hid
      obtain ⟨hseen, hattempts⟩ := observation_of_listed (w := w) hr
      have hactive : ∃ x ∈ activeCompleted p.ledger p.now, x.id = r.id :=
        ⟨r, mem_activeCompleted_of_listed hr, rfl⟩
      rw [hseen, exists_attempt_iff hattempts]
      rcases checkIntent_spec p w.seen r with
        ⟨text, htext, hnew, hafter, hattempt⟩ | ⟨hold, hafter, hattempt⟩
      · -- a new condition: it is remembered exactly if the write was recorded
        have hforce : driftState (p.inspect r.id) ≠ .inForce := by
          intro heq
          rw [heq] at htext
          cases htext
        have hanswer := (hcov h).2 r hr hforce
        rw [hafter, hattempt]
        cases hfate : p.fate r.id with
        | unacknowledged => exact absurd hfate hanswer
        | written =>
          rw [if_pos rfl]
          constructor
          · intro heq
            exact ⟨hactive, some.inj heq, .inl ⟨_, rfl, nofun⟩⟩
          · rintro ⟨-, heq, -⟩
            rw [heq]
        | failed =>
          rw [if_neg (nofun)]
          constructor
          · exact nofun
          · rintro ⟨-, heq, ⟨a, ha, hkept⟩ | hreported⟩
            · cases ha
              exact absurd rfl hkept
            · rw [← heq] at hreported
              exact absurd ((hw _ _ hforce).2 hreported) hnew
      · -- nothing new: the period goes on, or the rule is in force
        rw [hafter, hattempt]
        constructor
        · intro heq
          have hsame := some.inj heq
          refine ⟨hactive, hsame, .inr ?_⟩
          rcases hold with hold | hold
          · exact absurd (hsame.symm.trans hold) hstate
          · rw [hsame] at hold
            exact (hw _ _ hstate).1 hold
        · rintro ⟨-, heq, -⟩
          rw [heq]
    · rw [(observation_of_unlisted hid).1]
      constructor
      · exact nofun
      · rintro ⟨⟨r, hr, rfl⟩, heq, -⟩
        have hunlisted : r ∉ activeCompletedFirewallRuleIntents p.ledger p.now := by
          intro hlisted
          exact hid (List.mem_map_of_mem hlisted)
        exact absurd (heq.symm.trans ((hcov h).1 r hr hunlisted)) hstate

/-- A poll adds one exact poll to the history and its writes to the recorded events. -/
theorem exactlyOnce_sweep (hw : Remembers w) (hcov : Covered w p) (hpast : ExactlyOnce w) :
    ExactlyOnce (sweep w p) := by
  cases h : p.listed with
  | false => rwa [sweep_of_unlisted h]
  | true =>
    rw [sweep_of_listed h]
    constructor
    · intro later o earlier hsplit
      cases later with
      | nil =>
        obtain ⟨rfl, rfl⟩ := cons.inj hsplit
        exact pollExact hw hcov h
      | cons first later =>
        exact hpast.polls later o earlier (cons.inj hsplit).2
    · show w.outbox ++ _ = _
      rw [reverse_cons, flatMap_append, filter_append, map_append,
        hpast.recorded, flatMap_singleton]

end Poll

/-- In every run of polls that each leave out only generations in force and lose no answer of a
committed write, drift is audited exactly once for each period of a condition. -/
theorem drift_audited_once {w : World} (hw : (driftSystem.restrict Covered).Reachable w) :
    ExactlyOnce w := by
  have hind : (driftSystem.restrict Covered).Inductive fun w => Remembers w ∧ ExactlyOnce w := by
    constructor
    · rintro w ⟨hseen, houtbox, hpast⟩
      refine ⟨?_, ?_, ?_⟩
      · intro id state _
        rw [hseen, hpast]
        exact ⟨nofun, nofun⟩
      · intro later o earlier hsplit
        rw [hpast] at hsplit
        exact absurd hsplit.symm (by simp)
      · rw [houtbox, hpast]
        rfl
    · rintro w p w' ⟨hw, hpast⟩ ⟨hcov, hstep⟩
      obtain rfl : sweep w p = w' := some.inj hstep
      exact ⟨remembers_sweep hw hcov, exactlyOnce_sweep hw hcov hpast⟩
  exact (hind.invariant w hw).2

/-! ## A hundred generations and one more -/

/-- The block of one address, completed and in force for an hour. -/
def sampleIntent (i : Nat) : FirewallRuleIntent where
  id := i
  executionId := i
  adapter := "nftables"
  actionName := "nftables.block_indicator"
  ruleScope := "blocklist"
  ruleFingerprint := s!"203.0.113.{i}/32"
  targetJson := .object []
  preflightState := .object []
  rollbackPlan := .object []
  ttlSeconds := 3600
  expiresAt := seconds 3600
  createdAt := i
  status := .completed
  completedAt := some i
  errorSummary := none

def crowdedLedger : Ledger where
  intents :=
    { rows := (List.range 101).map sampleIntent
      unique := by
        rw [List.map_map]
        exact (List.map_id _).symm ▸ nodup_range }
  receipts := .empty _

/-- All rules are in force but the one of the youngest generation. -/
def crowdedPoll : Poll where
  ledger := crowdedLedger
  now := seconds 60
  listed := true
  inspect id := if id = 100 then .ok .notPresent else .ok .verified
  fate _ := .written

def freshStart : World := ⟨fun _ => none, [], []⟩

/-- A poll over the generations `1` and `2`. -/
def pairPoll (first second : Except String VerificationResult) (fate : AuditFate) : Poll where
  ledger := ⟨⟨[sampleIntent 1, sampleIntent 2], by decide⟩, .empty _⟩
  now := seconds 60
  listed := true
  inspect id := if id = 1 then first else second
  fate _ := fate

/-- The rule of `1` becomes absent, its first audit is lost, and it stays so; `2` cannot be read
once, is in force again, and cannot be read once more. -/
def pairPolls : List Poll :=
  [ pairPoll (.ok .verified) (.ok .verified) .written
  , pairPoll (.ok .notPresent) (.ok .verified) .failed
  , pairPoll (.ok .notPresent) (.error "nft: timeout") .written
  , { pairPoll (.ok .verified) (.ok .verified) .written with listed := false }
  , pairPoll (.ok .notPresent) (.ok .verified) .written
  , pairPoll (.ok .notPresent) (.error "nft: timeout") .written ]

/-- The absence is recorded once, the failed reading twice. -/
theorem drift_audited_once_pair : ∃ w,
    (driftSystem.restrict Covered).Run freshStart pairPolls w ∧
    w.outbox.map (fun a => (a.intentId, a.observed)) =
      [(1, "absent"), (2, "unreadable"), (2, "unreadable")] ∧
    w.past.map (fun o => o.attempts.length) = [1, 0, 2, 1, 0] ∧ ExactlyOnce w := by
  have hrun : (TSys.execAll (fun w p => if Covered w p then some (sweep w p) else none)
      freshStart pairPolls).map (fun w => (w.outbox.map (fun a => (a.intentId, a.observed)),
        w.past.map (fun o => o.attempts.length))) =
      some ([(1, "absent"), (2, "unreadable"), (2, "unreadable")], [1, 0, 2, 1, 0]) := by
    decide +kernel
  obtain ⟨w, hw, hstate⟩ := map_eq_some_iff.1 hrun
  obtain ⟨houtbox, hattempts⟩ := Prod.mk.inj hstate
  have hsteps := TSys.run_restrict_of_execAll Initial (fun w p => some (sweep w p)) hw
  exact ⟨w, hsteps, houtbox, hattempts,
    drift_audited_once ⟨freshStart, _, ⟨fun _ => rfl, rfl, rfl⟩, hsteps⟩⟩

theorem activeCompleted_crowded :
    activeCompleted crowdedLedger (seconds 60) = (List.range 101).map sampleIntent := by
  refine filter_eq_self.2 ?_
  intro r hr
  obtain ⟨i, -, rfl⟩ := List.mem_map.1 hr
  exact decide_eq_true ⟨rfl, (by decide : seconds 60 < seconds 3600)⟩

/-- The listing ends before the youngest generation. -/
theorem listed_crowded :
    activeCompletedFirewallRuleIntents crowdedLedger (seconds 60) =
      (List.range 100).map sampleIntent := by
  have hsorted : ((List.range 101).map sampleIntent).Pairwise listedBefore := by
    rw [pairwise_map]
    exact pairwise_lt_range.imp fun hlt => .inl hlt
  unfold activeCompletedFirewallRuleIntents page
  rw [activeCompleted_crowded, hsorted.insertionSort_eq, ← map_take, take_range]
  rfl

theorem drift_of_crowded_unaudited : ¬ driftSystem.Invariant ExactlyOnce := by
  intro hall
  have hstart : Initial ⟨fun _ => none, [], []⟩ := ⟨fun _ => rfl, rfl, rfl⟩
  have hreach : driftSystem.Reachable (sweep ⟨fun _ => none, [], []⟩ crowdedPoll) :=
    ⟨_, _, hstart, .single rfl⟩
  have hexact := (hall _ hreach).polls [] _ [] (by rw [sweep_of_listed rfl]; rfl)
  have hactive : sampleIntent 100 ∈ activeCompleted crowdedLedger (seconds 60) := by
    rw [activeCompleted_crowded]
    exact List.mem_map_of_mem (mem_range.2 (by decide))
  have hdue := hexact.due (sampleIntent 100) hactive "absent" rfl id
  have hunlisted : (100 : Uuid) ∉ (activeCompletedFirewallRuleIntents crowdedLedger
      (seconds 60)).map FirewallRuleIntent.id := by
    rw [listed_crowded, List.map_map]
    rintro hmem
    obtain ⟨i, hi, heq⟩ := List.mem_map.1 hmem
    have hlt := mem_range.1 hi
    exact absurd (show i = 100 from heq) (Nat.ne_of_lt hlt)
  have hnone := (observation_of_unlisted (w := ⟨fun _ => none, [], []⟩) (p := crowdedPoll)
    hunlisted).2
  exact absurd (hdue.symm.trans hnone) nofun

end Clawforge.Executor.Drift

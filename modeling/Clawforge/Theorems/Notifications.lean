import Clawforge.Storage.Notifications

/-!
# What happens to a queued notification

A step leaves a row as it is, claims it, or completes it, and only a completion
writes a terminal status. On that rest, over whole runs:

* an event given up is never claimed again, whatever the replicas do
  (`given_up_stays_invariant`);
* an event sent stays sent and five attempts stay the most there are exactly
  while no late failure report reaches a sent row and no stale claim takes a row
  whose attempts are used up (`queue_safe_along_iff`).
-/

namespace Clawforge.Notifications

open Kit EventDelivery TSys Table List Option

/-! ## Rows under one operation -/

/-- The status and the attempts of a row, which the claim's terms are about. -/
def progress (db : NotificationStore) (id : Uuid) : Option (NotificationStatus × Nat) :=
  (db.events.get? id).map (fun e => (e.status, e.retryCount))

theorem status_of_claimable {channels : Table NotificationChannel.id} {now : Instant}
    {e : NotificationEvent} (h : Claimable channels now e) :
    e.status = .pending ∨ e.status = .processing := by
  rcases h.2.2 with hs | ⟨hs, _⟩
  · exact .inl hs
  · exact .inr hs

/-- A claim moves the rows it takes to `processing`, one attempt further. -/
theorem progress_claim (db : NotificationStore) (limit : Int) (now : Instant)
    (locked : List Uuid) (id : Uuid) :
    progress (claimNotificationEvents db limit now locked).2 id =
      (progress db id).map (fun p =>
        if id ∈ claimedIds db limit now locked then (.processing, p.2 + 1) else p) := by
  unfold progress claimNotificationEvents
  simp only [get?_updateWhere]
  cases hg : db.events.get? id with
  | none => rfl
  | some e =>
    have hid : e.id = id := key_of_get? hg
    simp only [map_some, hid]
    split <;> rfl

/-- The status and attempts a completion leaves. -/
def settle (success : Bool) (p : NotificationStatus × Nat) : NotificationStatus × Nat :=
  (if success then .sent else if 5 ≤ p.2 then .failed else .pending, p.2)

theorem progress_complete (db : NotificationStore) (now : Instant) (id : Uuid)
    (success : Bool) (error : Option String) (k : Uuid) :
    progress (completeNotificationEvent db now id success error) k =
      (progress db k).map (fun p => if k = id then settle success p else p) := by
  unfold progress completeNotificationEvent
  simp only [get?_updateWhere]
  cases hg : db.events.get? k with
  | none => rfl
  | some e =>
    have hid : e.id = k := key_of_get? hg
    simp only [map_some, hid]
    by_cases hk : k = id
    · simp only [hk, if_true]
      cases success <;> rfl
    · simp only [hk, if_false]

variable {db : NotificationStore} {a : Action} {w w' : World} {p : NotificationStatus × Nat}

/-- An insertion leaves the rows that exist and adds a pending one. -/
theorem progress_enqueue {db' : NotificationStore} {now : Instant} {newId : Uuid}
    {n : NewNotification} (h : enqueueNotification db now newId n = some db') (k : Uuid) :
    progress db' k = progress db k ∨
      progress db k = none ∧ progress db' k = some (.pending, 0) := by
  unfold enqueueNotification at h
  split at h
  · cases h
    exact .inl rfl
  · obtain ⟨events, hins, rfl⟩ := map_eq_some_iff.1 h
    unfold progress
    simp only [get?_insert? hins]
    by_cases hk : k = newId
    · subst hk
      have hfree : db.events.get? k = none :=
        get?_eq_none.2 (fun x hx => key_ne_of_insert? hins hx)
      exact .inr ⟨by rw [hfree]; rfl, by rw [if_pos rfl]; rfl⟩
    · exact .inl (by rw [if_neg hk])

/-! ## One step -/

/-- The events an action claims. -/
def claims (w : World) : Action → List Uuid
  | .claim _ limit now locked => claimedIds w.db limit now locked
  | _ => []

/-- The event an action completes, and whether it reports success. -/
def completes : Action → Option (Uuid × Bool)
  | .complete c success _ _ => some (c.event, success)
  | .completeUnclaimed id success _ _ => some (id, success)
  | _ => none

/-- A claimed event exists, and is pending or in process. -/
theorem progress_of_claimed {id : Uuid} (h : id ∈ claims w a) :
    ∃ s n, progress w.db id = some (s, n) ∧ (s = .pending ∨ s = .processing) := by
  cases a with
  | claim replica limit now locked =>
    obtain ⟨e, he, hp, hid⟩ := mem_select h
    refine ⟨e.status, e.retryCount, ?_, status_of_claimable hp.1⟩
    unfold progress
    rw [get?_eq_some.2 ⟨he, hid⟩]
    rfl
  | _ => cases h

/-- What one step does to the status and attempts `p` of a row. -/
inductive Change (w : World) (a : Action) (id : Uuid)
    (p q : Option (NotificationStatus × Nat)) : Prop
  | same : id ∉ claims w a → (∀ success, completes a ≠ some (id, success)) → q = p →
      Change w a id p q
  | queued : id ∉ claims w a → (∀ success, completes a ≠ some (id, success)) →
      p = none → q = some (.pending, 0) → Change w a id p q
  | claimed (s n) : id ∈ claims w a → p = some (s, n) → (s = .pending ∨ s = .processing) →
      q = some (.processing, n + 1) → Change w a id p q
  | completed (success) : id ∉ claims w a → completes a = some (id, success) →
      q = p.map (settle success) → Change w a id p q

/-- All one step does. -/
inductive Step (w : World) (a : Action) (w' : World) : Prop
  | idle : claims w a = [] → completes a = none → w'.db.events = w.db.events →
      w'.sent = w.sent → w'.givenUp = w.givenUp → w'.reclaimed = w.reclaimed → Step w a w'
  | queued (now newId n db) : claims w a = [] → completes a = none →
      enqueueNotification w.db now newId n = some db → w' = { w with db } → Step w a w'
  | claimed (limit now locked) : claims w a = claimedIds w.db limit now locked →
      completes a = none → w'.db = (claimNotificationEvents w.db limit now locked).2 →
      w'.sent = w.sent → w'.givenUp = w.givenUp →
      w'.reclaimed = (claims w a).filter (fun id => id ∈ w.sent ∨ id ∈ w.givenUp) ++
        w.reclaimed → Step w a w'
  | reported (target success error now) : claims w a = [] →
      completes a = some (target, success) → w' = report w now target success error →
      Step w a w'

theorem exec_step (h : exec w a = some w') : Step w a w' := by
  cases a with
  | tick | setStatus | crash =>
    cases h
    exact .idle rfl rfl rfl rfl rfl rfl
  | createChannel c =>
    obtain ⟨channels, _, rfl⟩ := map_eq_some_iff.1 h
    exact .idle rfl rfl rfl rfl rfl rfl
  | enqueue now newId n =>
    simp only [exec] at h
    split at h
    · obtain ⟨db, hdb, rfl⟩ := map_eq_some_iff.1 h
      exact .queued now newId n db rfl rfl hdb rfl
    · cases h
  | claim replica limit now locked =>
    simp only [exec] at h
    split at h
    · cases h
      exact .claimed limit now locked rfl rfl rfl rfl rfl rfl
    · cases h
  | complete | completeUnclaimed =>
    simp only [exec] at h
    split at h
    · cases h
      exact .reported _ _ _ _ rfl rfl rfl
    · cases h

theorem exec_change (h : exec w a = some w') (id : Uuid) :
    Change w a id (progress w.db id) (progress w'.db id) := by
  have unclaimed : claims w a = [] → id ∉ claims w a := fun hc => by
    rw [hc]
    exact not_mem_nil
  have uncompleted : completes a = none → ∀ success, completes a ≠ some (id, success) :=
    fun hs success => by rw [hs]; exact nofun
  cases exec_step h with
  | idle hc hs he =>
    exact .same (unclaimed hc) (uncompleted hs) (by unfold progress; rw [he])
  | queued now newId n db hc hs hdb hw =>
    subst hw
    rcases progress_enqueue hdb id with heq | ⟨hnone, hnew⟩
    · exact .same (unclaimed hc) (uncompleted hs) heq
    · exact .queued (unclaimed hc) (uncompleted hs) hnone hnew
  | claimed limit now locked hc hs hdb =>
    have hclaim := progress_claim w.db limit now locked id
    rw [← hdb, ← hc] at hclaim
    by_cases hid : id ∈ claims w a
    · obtain ⟨s, n, hp, hopen⟩ := progress_of_claimed hid
      exact .claimed s n hid hp hopen (by simpa [hid, hp] using hclaim)
    · exact .same hid (uncompleted hs) (by simpa [hid] using hclaim)
  | reported target success error now hc hs hw =>
    subst hw
    show Change w a id _ (progress (completeNotificationEvent w.db now target success error) id)
    rw [progress_complete]
    by_cases hid : id = target
    · subst hid
      exact .completed success (unclaimed hc) hs (by simp only [if_true])
    · refine .same (unclaimed hc) (fun s h => hid ?_) (by simp [hid])
      rw [hs] at h
      cases h
      rfl

/-- An entry pushed under a condition. -/
theorem mem_pushed {target id : Uuid} (xs : List Uuid) (p : Uuid → Prop) [DecidablePred p] :
    id ∈ (if p target then target :: xs else xs) ↔ id ∈ xs ∨ target = id ∧ p id := by
  by_cases hp : p target
  · rw [if_pos hp, mem_cons]
    constructor
    · rintro (rfl | hid)
      · exact .inr ⟨rfl, hp⟩
      · exact .inl hid
    · rintro (hid | ⟨rfl, _⟩)
      · exact .inr hid
      · exact .inl rfl
  · rw [if_neg hp]
    refine ⟨.inl, ?_⟩
    rintro (hid | ⟨rfl, hp'⟩)
    · exact hid
    · exact absurd hp' hp

/-- The lists record the completions that wrote a terminal status, and the
claims of events already in them. -/
theorem exec_lists (h : exec w a = some w') :
    (∀ id, id ∈ w'.sent ↔ id ∈ w.sent ∨
      (∃ success, completes a = some (id, success)) ∧ statusAfter w'.db id = some .sent) ∧
    (∀ id, id ∈ w'.givenUp ↔ id ∈ w.givenUp ∨
      (∃ success, completes a = some (id, success)) ∧ statusAfter w'.db id = some .failed) ∧
    w'.reclaimed = (claims w a).filter (fun id => id ∈ w.sent ∨ id ∈ w.givenUp) ++
      w.reclaimed := by
  cases exec_step h with
  | idle hc hs _ hsent hgiven hreclaimed => simp [hc, hs, hsent, hgiven, hreclaimed]
  | queued now newId n db hc hs _ hw =>
    subst hw
    simp [hc, hs]
  | claimed limit now locked _ hs _ hsent hgiven hreclaimed =>
    exact ⟨by simp [hs, hsent], by simp [hs, hgiven], hreclaimed⟩
  | reported target success error now hc hs hw =>
    have aimed : ∀ id, (∃ s, completes a = some (id, s)) ↔ target = id := by
      intro id
      simp [hs]
    simp only [aimed]
    subst hw
    refine ⟨fun id => ?_, fun id => ?_, ?_⟩
    · exact mem_pushed w.sent (fun id => statusAfter
        (completeNotificationEvent w.db now target success error) id = some .sent)
    · exact mem_pushed w.givenUp (fun id => statusAfter
        (completeNotificationEvent w.db now target success error) id = some .failed)
    · rw [hc]
      rfl

theorem statusAfter_eq {id : Uuid} {s : NotificationStatus} :
    statusAfter db id = some s ↔ ∃ n, progress db id = some (s, n) := by
  unfold statusAfter progress
  cases db.events.get? id with
  | none => simp
  | some e => simp

/-! ## Terminal events -/

/-- What every reachable state satisfies. -/
structure Consistent (w : World) : Prop where
  sent : ∀ id n, progress w.db id = some (.sent, n) → id ∈ w.sent
  givenUp : ∀ id ∈ w.givenUp, ∃ s n, progress w.db id = some (s, n) ∧ 5 ≤ n ∧
    (s = .failed ∨ s = .sent)
  attempts : ∀ id n, progress w.db id = some (.pending, n) → n < 5

theorem settle_sent {success : Bool} {n : Nat} (h : settle success p = (.sent, n)) :
    success = true := by
  cases success with
  | true => rfl
  | false =>
    have hs : (if 5 ≤ p.2 then NotificationStatus.failed else .pending) = .sent :=
      congrArg Prod.fst h
    split at hs <;> cases hs

/-- A failure report leaves its event open exactly below five attempts. -/
theorem settle_pending {success : Bool} {n : Nat} (h : settle success p = (.pending, n)) :
    n < 5 := by
  obtain ⟨hs, rfl⟩ := Prod.mk.inj h
  cases success with
  | true => cases hs
  | false =>
    simp only [Bool.false_eq_true, if_false] at hs
    split at hs
    · cases hs
    · exact Nat.lt_of_not_le ‹_›

/-- An event with no attempt left is settled for good. -/
theorem settle_terminal {success : Bool} (h : 5 ≤ p.2) :
    (settle success p).1 = .failed ∨ (settle success p).1 = .sent := by
  cases success with
  | true => exact .inr rfl
  | false => exact .inl (if_pos h)

theorem settle_failed {success : Bool} {n : Nat} (h : settle success p = (.failed, n)) : 5 ≤ n := by
  obtain ⟨hs, rfl⟩ := Prod.mk.inj h
  cases success with
  | true => cases hs
  | false =>
    simp only [Bool.false_eq_true, if_false] at hs
    split at hs
    · assumption
    · cases hs

theorem Consistent.step (hw : Consistent w) (h : exec w a = some w') : Consistent w' := by
  obtain ⟨hsent, hgiven, _⟩ := exec_lists h
  constructor
  · intro id n hp
    cases exec_change h id with
    | same _ _ hq => exact (hsent id).2 (.inl (hw.sent id n (hq ▸ hp)))
    | queued _ _ _ hq | claimed s m _ _ _ hq => rw [hq] at hp; cases hp
    | completed success _ hcomp _ =>
      exact (hsent id).2 (.inr ⟨⟨success, hcomp⟩, statusAfter_eq.2 ⟨n, hp⟩⟩)
  · intro id hid
    rcases (hgiven id).1 hid with hold | ⟨⟨success, hcomp⟩, hfailed⟩
    · obtain ⟨s, n, hp, h5, hs⟩ := hw.givenUp id hold
      cases exec_change h id with
      | same _ _ hq => exact ⟨s, n, hq.trans hp, h5, hs⟩
      | queued _ _ hnone _ => rw [hnone] at hp; cases hp
      | claimed s' m _ hp' hs' _ =>
        -- neither terminal status is one the claim looks for
        rw [hp] at hp'
        cases hp'
        rcases hs with rfl | rfl <;> rcases hs' with hs' | hs' <;> cases hs'
      | completed success _ _ hq =>
        rw [hp] at hq
        exact ⟨_, n, hq, h5, settle_terminal (p := (s, n)) h5⟩
    · obtain ⟨n, hp⟩ := statusAfter_eq.1 hfailed
      refine ⟨.failed, n, hp, ?_, .inl rfl⟩
      cases exec_change h id with
      | same _ hnot _ => exact absurd hcomp (hnot success)
      | queued _ _ _ hq | claimed s m _ _ _ hq => rw [hq] at hp; cases hp
      | completed success _ _ hq =>
        obtain ⟨p, _, hsettle⟩ := map_eq_some_iff.1 (hq.symm.trans hp)
        exact settle_failed hsettle
  · intro id n hp
    cases exec_change h id with
    | same _ _ hq => exact hw.attempts id n (hq ▸ hp)
    | queued _ _ _ hq => rw [hq] at hp; cases hp; decide
    | claimed s m _ _ _ hq => rw [hq] at hp; cases hp
    | completed success _ _ hq =>
      obtain ⟨p, _, hsettle⟩ := map_eq_some_iff.1 (hq.symm.trans hp)
      exact settle_pending hsettle

theorem progress_of_empty (h : w.db.events.rows = []) (id : Uuid) : progress w.db id = none := by
  unfold progress Table.get?
  rw [h]
  rfl

theorem consistent_invariant : system.Invariant Consistent := by
  have hind : system.Inductive Consistent :=
    { init := by
        rintro w ⟨hrows, _, _, hgiven, _⟩
        constructor
        · intro id n hp
          rw [progress_of_empty hrows] at hp
          cases hp
        · intro id hid
          rw [hgiven] at hid
          cases hid
        · intro id n hp
          rw [progress_of_empty hrows] at hp
          cases hp
      step := fun w a w' hw hstep => hw.step hstep }
  exact hind.invariant

/-- **Giving up is final.** An event that was once marked failed is in no claim
of any later step. -/
theorem given_up_never_claimed {w w' : World} (hw : system.Reachable w) {id : Uuid}
    (hid : id ∈ w.givenUp) {as : List Action} (hrun : system.Run w as w') (a : Action) :
    id ∉ claims w' a := by
  intro hclaim
  have hkept : id ∈ w'.givenUp :=
    hrun.preserves (I := fun w => id ∈ w.givenUp)
      (fun _ _ _ hmem hstep => ((exec_lists hstep).2.1 id).2 (.inl hmem)) hid
  obtain ⟨s, n, hp, _, hs⟩ := (consistent_invariant w' (hw.run hrun)).givenUp id hkept
  obtain ⟨s', n', hp', hs'⟩ := progress_of_claimed hclaim
  rw [hp] at hp'
  cases hp'
  rcases hs with rfl | rfl <;> rcases hs' with hs' | hs' <;> cases hs'

/-! ## Queue safety -/

/-- Every event once sent is still `sent`, no event was claimed after it was
sent or given up, and no event has more than five attempts. -/
structure QueueSafe (w : World) : Prop where
  sent : ∀ id ∈ w.sent, statusAfter w.db id = some .sent
  terminal : w.reclaimed = []
  bounded : ∀ e ∈ w.db.events, e.retryCount ≤ 5

/-- The action reports a failure of an event whose row is already `sent`. -/
def ReopensSent (w : World) (a : Action) : Prop :=
  ∃ id, completes a = some (id, false) ∧ statusAfter w.db id = some .sent

/-- The action is a claim that takes an event with five attempts behind it. -/
def TakesExhausted (w : World) (a : Action) : Prop :=
  ∃ e ∈ w.db.events, 5 ≤ e.retryCount ∧ e.id ∈ claims w a

theorem progress_of_mem {e : NotificationEvent} (h : e ∈ db.events) :
    progress db e.id = some (e.status, e.retryCount) := by
  unfold progress
  rw [get?_key h]
  rfl

theorem mem_of_progress {id : Uuid} {s : NotificationStatus} {n : Nat}
    (h : progress db id = some (s, n)) :
    ∃ e ∈ db.events, e.id = id ∧ e.status = s ∧ e.retryCount = n := by
  obtain ⟨e, he, heq⟩ := map_eq_some_iff.1 h
  cases heq
  exact ⟨e, mem_of_get? he, key_of_get? he, rfl, rfl⟩

theorem bounded_step (hb : ∀ e ∈ w.db.events, e.retryCount ≤ 5) (h : exec w a = some w') :
    (∀ e ∈ w'.db.events, e.retryCount ≤ 5) ↔ ¬ TakesExhausted w a := by
  constructor
  · rintro hb' ⟨e, he, h5, hclaim⟩
    cases exec_change h e.id with
    | same hnot _ _ | queued hnot _ _ _ | completed _ hnot _ _ => exact hnot hclaim
    | claimed s n _ hp _ hq =>
      rw [progress_of_mem he] at hp
      cases hp
      obtain ⟨e', he', _, _, hn⟩ := mem_of_progress hq
      have := hb' e' he'
      omega
  · intro hnot e' he'
    have hp' := progress_of_mem he'
    cases exec_change h e'.id with
    | same _ _ hq =>
      obtain ⟨e, he, _, _, hn⟩ := mem_of_progress (hq.symm.trans hp')
      exact hn ▸ hb e he
    | queued _ _ _ hq =>
      have : 0 = e'.retryCount := congrArg Prod.snd (some.inj (hq.symm.trans hp'))
      omega
    | claimed s n hclaim hp _ hq =>
      rw [hq] at hp'
      obtain ⟨e, he, hid, _, hn⟩ := mem_of_progress hp
      have hlt : e.retryCount < 5 := by
        by_contra h5
        exact hnot ⟨e, he, Nat.le_of_not_lt h5, hid ▸ hclaim⟩
      have : n + 1 = e'.retryCount := congrArg Prod.snd (some.inj hp')
      omega
    | completed success _ _ hq =>
      obtain ⟨⟨s, n⟩, hp, hsettle⟩ := map_eq_some_iff.1 (hq.symm.trans hp')
      obtain ⟨e, he, _, _, hn⟩ := mem_of_progress hp
      have : n = e'.retryCount := congrArg Prod.snd hsettle
      have := hb e he
      omega

theorem sent_step (hw : Consistent w) (hs : ∀ id ∈ w.sent, statusAfter w.db id = some .sent)
    (h : exec w a = some w') :
    (∀ id ∈ w'.sent, statusAfter w'.db id = some .sent) ↔ ¬ ReopensSent w a := by
  obtain ⟨hsent, _, _⟩ := exec_lists h
  constructor
  · rintro hs' ⟨id, hcomp, hrow⟩
    obtain ⟨n, hp⟩ := statusAfter_eq.1 hrow
    have hkept := hs' id ((hsent id).2 (.inl (hw.sent id n hp)))
    obtain ⟨m, hp'⟩ := statusAfter_eq.1 hkept
    cases exec_change h id with
    | same _ hnot _ | queued _ hnot _ _ => exact hnot false hcomp
    | claimed s k _ hp'' hs'' _ =>
      rw [hp] at hp''
      cases hp''
      rcases hs'' with h | h <;> cases h
    | completed success _ hcomp' hq =>
      rw [hcomp] at hcomp'
      cases hcomp'
      obtain ⟨p, _, hsettle⟩ := map_eq_some_iff.1 (hq.symm.trans hp')
      exact Bool.false_ne_true (settle_sent hsettle)
  · intro hnot id hid
    rcases (hsent id).1 hid with hold | ⟨_, hnew⟩
    · obtain ⟨n, hp⟩ := statusAfter_eq.1 (hs id hold)
      cases exec_change h id with
      | same _ _ hq => exact statusAfter_eq.2 ⟨n, hq.trans hp⟩
      | queued _ _ hnone _ => rw [hnone] at hp; cases hp
      | claimed s k _ hp' hs' _ =>
        rw [hp] at hp'
        cases hp'
        rcases hs' with h | h <;> cases h
      | completed success _ hcomp hq =>
        cases success with
        | false => exact absurd ⟨id, hcomp, hs id hold⟩ hnot
        | true => exact statusAfter_eq.2 ⟨n, by rw [hq, hp]; rfl⟩
    · exact hnew

/-- Where every sent event is still `sent`, no claim takes a terminal event. -/
theorem reclaimed_step (hw : Consistent w) (hs : ∀ id ∈ w.sent, statusAfter w.db id = some .sent)
    (hr : w.reclaimed = []) (h : exec w a = some w') : w'.reclaimed = [] := by
  rw [(exec_lists h).2.2, hr, append_nil, filter_eq_nil_iff]
  intro id hclaim hterm
  obtain ⟨s, n, hp, hopen⟩ := progress_of_claimed hclaim
  rcases of_decide_eq_true hterm with hid | hid
  · obtain ⟨m, hp'⟩ := statusAfter_eq.1 (hs id hid)
    rw [hp] at hp'
    cases hp'
    rcases hopen with h | h <;> cases h
  · obtain ⟨s', n', hp', _, hs'⟩ := hw.givenUp id hid
    rw [hp] at hp'
    cases hp'
    rcases hs' with rfl | rfl <;> rcases hopen with h | h <;> cases h

theorem queueSafe_step (hw : Consistent w) (hs : QueueSafe w) (h : exec w a = some w') :
    QueueSafe w' ↔ ¬ ReopensSent w a ∧ ¬ TakesExhausted w a := by
  have hsent := sent_step hw hs.sent h
  have hbound := bounded_step hs.bounded h
  constructor
  · exact fun hs' => ⟨hsent.1 hs'.sent, hbound.1 hs'.bounded⟩
  · exact fun ⟨hre, hex⟩ =>
      ⟨hsent.2 hre, reclaimed_step hw hs.sent hs.terminal h, hbound.2 hex⟩

/-- Along a run the queue stays safe exactly if no failure report of the run
reaches a sent row and no claim of the run takes a row with five attempts. -/
theorem queue_safe_along_iff {w₀ w : World} {as : List Action}
    (h₀ : Initial w₀) (hrun : system.Run w₀ as w) :
    system.Along QueueSafe w₀ as ↔
      (system.restrict (fun w a => ¬ ReopensSent w a ∧ ¬ TakesExhausted w a)).Run
        w₀ as w := by
  refine hrun.along_iff_restrict (deterministic_ofExec _ _) ?_ (.init h₀) ?_
  · intro s a t hs hsafe hstep
    exact queueSafe_step (consistent_invariant s hs) hsafe hstep
  · obtain ⟨hrows, _, hsent, _, hre⟩ := h₀
    refine ⟨fun id hid => ?_, hre, fun e he => ?_⟩
    · rw [hsent] at hid
      cases hid
    · rw [Table.mem_def, hrows] at he
      cases he

/-! ### Two replicas and one event -/

def webhookChannel : NotificationChannel where
  id := 1
  secretRef := none
  config := .object []
  enabled := true

/-- One enabled channel and nothing queued. -/
def oneChannel : World where
  db :=
    { now := 0
      channels := ⟨[webhookChannel], nodup_singleton _⟩
      events := .empty _ }
  held := []
  sent := []
  givenUp := []
  reclaimed := []

def someNotification : NewNotification where
  channelId := 1
  eventType := "new_threat_indicator"
  severity := "high"
  resource := "203.0.113.7"
  target := "https://hooks.example/clawforge"
  channelType := "webhook"
  payload := .object []
  dedupeKey := "1:new_threat_indicator:203.0.113.7:1:audit"

/-- Replica 1 stalls past the lock, replica 2 takes the event over; replica 1
reports it sent, replica 2 reports a failure, and the event is claimed again. -/
def lateFailure : List Action :=
  [ .enqueue 0 10 someNotification
  , .claim 1 25 0 []
  , .tick (minutes 11)
  , .claim 2 25 (minutes 11) []
  , .complete ⟨1, 10⟩ true none (minutes 11)
  , .complete ⟨2, 10⟩ false (some "timeout") (minutes 11)
  , .tick (minutes 1)
  , .claim 2 25 (minutes 12) [] ]

theorem oneChannel_initial : Initial oneChannel := ⟨rfl, rfl, rfl, rfl, rfl⟩

/-- The notification that was sent is handed out once more. -/
theorem sent_notification_reclaimed : ¬ system.Invariant QueueSafe := by
  intro h
  have hrun : (execAll exec oneChannel lateFailure).map
      (fun w => (w.sent, w.reclaimed)) = some ([10], [10]) := by decide
  obtain ⟨w, hw, hlists⟩ := map_eq_some_iff.1 hrun
  have hreach : system.Reachable w :=
    ⟨oneChannel, lateFailure, oneChannel_initial, run_of_execAll _ _ hw⟩
  have hnone : w.reclaimed = [] := (h w hreach).terminal
  have hsome : w.reclaimed = [10] := congrArg Prod.snd hlists
  rw [hnone] at hsome
  cases hsome

/-- The queue after the late failure report. -/
def afterLateFailure : World := (execAll exec oneChannel lateFailure).get (by decide)

theorem queue_safe_along_iff_late_failure :
    system.Along QueueSafe oneChannel lateFailure ↔
      (system.restrict (fun w a => ¬ ReopensSent w a ∧ ¬ TakesExhausted w a)).Run
        oneChannel lateFailure afterLateFailure :=
  queue_safe_along_iff oneChannel_initial
    (run_of_execAll _ _ (some_get _).symm)

/-- Five claims of one event fail, an hour apart. -/
def fiveFailures : List Action :=
  .enqueue 0 10 someNotification :: (List.range 5).flatMap fun k =>
    [ .claim 1 25 (minutes (60 * k)) []
    , .complete ⟨1, 10⟩ false none (minutes (60 * k))
    , .tick (minutes 60) ]

def afterFiveFailures : World := (execAll exec oneChannel fiveFailures).get (by decide)

/-- Reports come late, the channel is disabled and enabled again, and another event is queued. -/
def afterwards : List Action :=
  [ .completeUnclaimed 10 false (some "timeout") (minutes 300), .setStatus 1 false
  , .tick (minutes 10), .setStatus 1 true
  , .enqueue (minutes 310) 11 { someNotification with dedupeKey := "1:new_threat_indicator:later" }
  , .claim 2 25 (minutes 310) [], .completeUnclaimed 10 true none (minutes 310), .crash 2
  , .tick (minutes 60) ]

/-- Only the other event is handed out. -/
theorem given_up_never_claimed_afterwards : ∃ w,
    system.Run afterFiveFailures afterwards w ∧ w.givenUp = [10, 10] ∧
    claims w (.claim 3 25 (minutes 370) []) = [11] ∧
    10 ∉ claims w (.claim 3 25 (minutes 370) []) := by
  have hrun : (execAll exec afterFiveFailures afterwards).map
      (fun w => (w.givenUp, claims w (.claim 3 25 (minutes 370) []))) = some ([10, 10], [11]) := by
    decide +kernel
  obtain ⟨w, hw, hlists⟩ := map_eq_some_iff.1 hrun
  obtain ⟨hgiven, hclaims⟩ := Prod.mk.inj hlists
  have hreach : system.Reachable afterFiveFailures :=
    ⟨oneChannel, fiveFailures, oneChannel_initial, run_of_execAll _ _ (some_get _).symm⟩
  have hsteps := run_of_execAll Initial exec hw
  exact ⟨w, hsteps, hgiven, hclaims, given_up_never_claimed hreach (by decide +kernel) hsteps _⟩

end Clawforge.Notifications

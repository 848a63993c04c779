import Clawforge.Storage.NotificationRules
import Clawforge.Theorems.Publication

/-!
# One notification for each channel

The loop over the matching rules: where no notification of the event was stored before, it
leaves one for each channel of a rule that the event's severity reaches, however many rules a
channel has and in whatever order they come.
-/

namespace Clawforge.Notifications

open Kit EventDelivery List

theorem noticeKey_injective (n : Notice) : Function.Injective (noticeKey n) := by
  intro a b h
  unfold noticeKey at h
  rw [String.append_left_inj, String.append_left_inj, String.append_right_inj] at h
  exact uuidText_injective h

/-- After its turns for `rules` the loop has added one notification for each channel that
one of them reaches. -/
structure Notified (before after : RuleStore) (n : Notice) (rules : List NotificationRule) :
    Prop where
  rules_eq : after.rules = before.rules
  channels_eq : after.queue.channels = before.queue.channels
  added : ∃ rows, after.queue.events.rows = before.queue.events.rows ++ rows ∧
    (rows.map NotificationEvent.channelId).Nodup ∧
    (∀ x ∈ rows, x.dedupeKey = noticeKey n x.channelId) ∧
    ∀ c, c ∈ rows.map NotificationEvent.channelId ↔
      c ∈ (rules.filter (fun r => Reaches n r)).map NotificationRule.channelId

theorem notified_nil (db : RuleStore) (n : Notice) : Notified db db n [] :=
  ⟨rfl, rfl, [], (append_nil _).symm, nodup_nil, fun _ h => absurd h not_mem_nil,
    fun _ => Iff.rfl⟩

/-- One more turn. -/
theorem Notified.step {before db after : RuleStore} {n : Notice} {rules : List NotificationRule}
    {r : NotificationRule} (h : Notified before db n rules) (hstep : Enqueued db n r after)
    (hfresh : ∀ x ∈ before.queue.events, ∀ c, x.dedupeKey ≠ noticeKey n c) :
    Notified before after n (rules ++ [r]) := by
  obtain ⟨hrules, hchannels, rows, hrows, hnodup, hkeys, hmem⟩ := h
  have hall : ∀ x, x ∈ db.queue.events ↔ x ∈ before.queue.events ∨ x ∈ rows := by
    intro x
    rw [Table.mem_def, hrows, mem_append]
    rfl
  cases hstep with
  | below hno =>
    refine ⟨hrules, hchannels, rows, hrows, hnodup, hkeys, fun c => ?_⟩
    rw [hmem c, filter_append, filter_singleton]
    simp [hno]
  | known hreaches hknown =>
    obtain ⟨x, hx, hkey⟩ := hknown
    have hstored : r.channelId ∈ rows.map NotificationEvent.channelId := by
      rcases (hall x).1 hx with hold | hnew
      · exact absurd hkey (hfresh x hold r.channelId)
      · rw [← noticeKey_injective n ((hkeys x hnew).symm.trans hkey)]
        exact List.mem_map_of_mem hnew
    refine ⟨hrules, hchannels, rows, hrows, hnodup, hkeys, fun c => ?_⟩
    rw [filter_append, filter_singleton]
    simp only [hreaches, decide_true, cond_true, map_append, map_cons, map_nil,
      mem_append, mem_singleton]
    rw [← hmem c]
    constructor
    · exact Or.inl
    · rintro (hc | rfl)
      · exact hc
      · exact hstored
  | @inserted x queue hreaches hfree hchannel hkey hnew hsame =>
    have hother : r.channelId ∉ rows.map NotificationEvent.channelId := by
      intro hstored
      obtain ⟨y, hy, hyc⟩ := List.mem_map.1 hstored
      exact hfree y ((hall y).2 (Or.inr hy)) (hyc ▸ hkeys y hy)
    refine ⟨hrules, hsame.trans hchannels, rows ++ [x], ?_, ?_, ?_, fun c => ?_⟩
    · rw [hnew, hrows, append_assoc]
    · rw [map_append, nodup_append]
      refine ⟨hnodup, nodup_singleton _, fun a ha b hb hab => ?_⟩
      rw [map_cons, map_nil, mem_singleton, hchannel] at hb
      exact hother (hb ▸ hab ▸ ha)
    · intro y hy
      rcases mem_append.1 hy with hy | hy
      · exact hkeys y hy
      · rw [mem_singleton.1 hy, hkey, hchannel]
    · rw [filter_append, filter_singleton]
      simp only [hreaches, decide_true, cond_true, map_append, map_cons, map_nil,
        mem_append, mem_singleton, hchannel]
      rw [hmem c]

end Clawforge.Notifications

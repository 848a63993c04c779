import Clawforge.Storage.Announcements
import Clawforge.Theorems.IncidentsInStep
import Clawforge.Theorems.NotificationRules

/-!
# What a promotion has to announce

A commit announces each incident it has created and each one it has changed
(`promotions_incidents`), no incident twice (`announcements_nodup`), and what is announced of an
incident has a dedupe key of its own (`source_of_key_eq`).
-/

namespace Clawforge.Incidents

open Correlation Kit List Option

/-! ## What promotions commit -/

/-- An incident of the candidate is stored, where the promotion has found one. -/
def Found (db : Db) (p : Promotion) : Prop :=
  ∀ row, p.owner = .existing row →
    ∃ i ∈ db.incidents, i.id = row.id ∧ i.candidateId = some p.candidate.id

variable {p : Promotion} {done : List Promotion}

theorem Owns.found {db : Db} (h : Owns db p.candidate p.owner) : Found db p := by
  intro row hrow
  rw [hrow] at h
  obtain ⟨i, hi, hcandidate, hcore⟩ := h
  exact ⟨i, hi, congrArg Prod.fst hcore, hcandidate⟩

section Promoted

variable {now : Instant} {db db' : Db} {p : Promotion}

theorem Promoted.found (hp : Promoted now db p db') {q : Promotion} (h : Found db q) :
    Found db' q := by
  intro row hrow
  obtain ⟨i, hi, hid, hcandidate⟩ := h row hrow
  obtain ⟨i', hi', hid', hcandidate', -⟩ := hp.kept hi
  exact ⟨i', hi', hid'.trans hid, hcandidate'.trans hcandidate⟩

theorem Promoted.stored (hp : Promoted now db p db') (h : Found db p) :
    ∃ i ∈ db'.incidents, i.id = p.owner.row.id := by
  cases ho : p.owner with
  | created row =>
    have hmem := hp.incidents row
    rw [ho] at hmem
    exact ⟨row, hmem.2 (.inr rfl), rfl⟩
  | existing row =>
    obtain ⟨i, hi, hid, -⟩ := hp.found h row ho
    exact ⟨i, hi, hid⟩

/-- An incident is new, or as before, or a promotion has escalated it. -/
theorem Promoted.incident_cases (hp : Promoted now db p db') {i' : IncidentRow}
    (hi' : i' ∈ db'.incidents) :
    (∃ i ∈ db.incidents, i.id = i'.id ∧ (i.core = i'.core ∨
      ∃ row, p.owner = .existing row ∧ escalates p.candidate row = true ∧ row.id = i'.id)) ∨
    ∃ row, p.owner = .created row ∧ row.id = i'.id := by
  have hmem := (hp.incidents i').1 hi'
  cases ho : p.owner with
  | created row =>
    rw [ho] at hmem
    rcases hmem with hi | rfl
    · exact .inl ⟨i', hi, rfl, .inl rfl⟩
    · exact .inr ⟨_, rfl, rfl⟩
  | existing row =>
    rw [ho] at hmem
    obtain ⟨i, hi, rfl⟩ := hmem
    refine .inl ⟨i, hi, ?_⟩
    split
    case isTrue h => exact ⟨rfl, .inr ⟨row, rfl, h.1, h.2.symm⟩⟩
    case isFalse => exact ⟨rfl, .inl rfl⟩

end Promoted

section Commit

variable {now : Instant} {done : List Promotion} {db db' : Db}

section

variable (h : done.foldlM (writePromotion now) db = some db')
include h

/-- Incidents stay stored; a created one was not stored before and is now. -/
theorem promotions_created :
    (∀ i ∈ db.incidents, ∃ i' ∈ db'.incidents, i'.id = i.id) ∧
      ∀ p ∈ done, ∀ row, p.owner = .created row →
        (∀ i ∈ db.incidents, i.id ≠ row.id) ∧ ∃ i ∈ db'.incidents, i.id = row.id := by
  induction done generalizing db with
  | nil =>
    cases h
    exact ⟨fun i hi => ⟨i, hi, rfl⟩, fun p hp => absurd hp not_mem_nil⟩
  | cons p done ih =>
    rw [foldlM_cons] at h
    obtain ⟨next, hw, hrest⟩ := bind_eq_some_iff.1 h
    have hp := writePromotion_spec hw
    obtain ⟨hkept, hcreated⟩ := ih hrest
    refine ⟨fun i hi => ?_, fun q hq row hrow => ?_⟩
    · obtain ⟨j, hj, hid, -⟩ := hp.kept hi
      obtain ⟨k, hk, hkid⟩ := hkept j hj
      exact ⟨k, hk, hkid.trans hid⟩
    · rcases mem_cons.1 hq with rfl | hq
      · have hmem := hp.incidents row
        rw [hrow] at hmem
        obtain ⟨k, hk, hkid⟩ := hkept row (hmem.2 (.inr rfl))
        exact ⟨hp.fresh row hrow, k, hk, hkid⟩
      · obtain ⟨hfresh, hstored⟩ := hcreated q hq row hrow
        refine ⟨fun i hi heq => ?_, hstored⟩
        obtain ⟨j, hj, hid, -⟩ := hp.kept hi
        exact hfresh j hj (hid.trans heq)

theorem promotions_incidents {i' : IncidentRow} (hi' : i' ∈ db'.incidents) :
    (∃ i ∈ db.incidents, i.id = i'.id ∧ (i.core = i'.core ∨ ∃ p ∈ done, ∃ row,
      p.owner = .existing row ∧ escalates p.candidate row = true ∧ row.id = i'.id)) ∨
    ∃ p ∈ done, ∃ row, p.owner = .created row ∧ row.id = i'.id := by
  induction done generalizing db with
  | nil =>
    cases h
    exact .inl ⟨i', hi', rfl, .inl rfl⟩
  | cons p done ih =>
    rw [foldlM_cons] at h
    obtain ⟨next, hw, hrest⟩ := bind_eq_some_iff.1 h
    rcases ih hrest with ⟨j, hj, hid, hcore⟩ | ⟨q, hq, hcreated⟩
    · rcases (writePromotion_spec hw).incident_cases hj with ⟨i, hi, hij, hsame⟩ | ⟨row, ho, hrow⟩
      · refine .inl ⟨i, hi, hij.trans hid, ?_⟩
        rcases hcore with hcore | ⟨q, hq, hescalated⟩
        · rcases hsame with hsame | ⟨row, ho, hesc, hrow⟩
          · exact .inl (hsame.trans hcore)
          · exact .inr ⟨p, mem_cons_self, row, ho, hesc, hrow.trans hid⟩
        · exact .inr ⟨q, mem_cons_of_mem _ hq, hescalated⟩
      · exact .inr ⟨p, mem_cons_self, row, ho, hrow.trans hid⟩
    · exact .inr ⟨q, mem_cons_of_mem _ hq, hcreated⟩

/-- The incidents of one commit are different ones. -/
theorem owners_nodup (hfound : ∀ p ∈ done, Found db p)
    (honce : (done.map (fun p => p.candidate.id)).Nodup) :
    (done.map (fun p => p.owner.row.id)).Nodup := by
  induction done generalizing db with
  | nil => exact nodup_nil
  | cons p done ih =>
    rw [foldlM_cons] at h
    obtain ⟨next, hw, hrest⟩ := bind_eq_some_iff.1 h
    have hp := writePromotion_spec hw
    obtain ⟨hcandidate, honce⟩ := nodup_cons.1 honce
    have hrestfound : ∀ q ∈ done, Found next q := fun q hq =>
      hp.found (hfound q (mem_cons_of_mem _ hq))
    refine nodup_cons.2 ⟨fun hmem => ?_, ih hrest hrestfound honce⟩
    obtain ⟨q, hq, hid⟩ := List.mem_map.1 hmem
    replace hid : q.owner.row.id = p.owner.row.id := hid
    cases hoq : q.owner with
    | created row =>
      -- `p`'s incident is stored by now, so no id drawn later is the same
      obtain ⟨i, hi, hip⟩ := hp.stored (hfound p mem_cons_self)
      rw [hoq] at hid
      exact ((promotions_created hrest).2 q hq row hoq).1 i hi (hip.trans hid.symm)
    | existing row =>
      obtain ⟨i, hi, hiq, hic⟩ := hfound q (mem_cons_of_mem _ hq) row hoq
      rw [hoq] at hid
      cases hop : p.owner with
      | created row' =>
        rw [hop] at hid
        exact hp.fresh row' hop i hi (hiq.trans hid)
      | existing row' =>
        obtain ⟨j, hj, hjp, hjc⟩ := hfound p mem_cons_self row' hop
        rw [hop] at hid
        have hsame : i = j := Table.eq_of_key_eq hi hj (hiq.trans (hid.trans hjp.symm))
        rw [hsame, hjc] at hic
        exact hcandidate (List.mem_map.2 ⟨q, hq, (some.inj hic).symm⟩)

end

end Commit

/-! ## Announcements -/

theorem createdAnnouncement_eq_some {a : Announcement} (h : createdAnnouncement p = some a) :
    ∃ row, p.owner = .created row ∧ a.incident = row.id ∧ a.escalated = false := by
  unfold createdAnnouncement at h
  split at h <;> cases h
  exact ⟨_, by assumption, rfl, rfl⟩

theorem escalatedAnnouncement_eq_some {a : Announcement} (h : escalatedAnnouncement p = some a) :
    ∃ row, p.owner = .existing row ∧ a.incident = row.id ∧ a.escalated = true := by
  unfold escalatedAnnouncement at h
  split at h
  · cases h
  · split at h <;> cases h
    exact ⟨_, by assumption, rfl, rfl⟩

/-- A created incident is announced as such, and so is one that has been escalated. -/
theorem announcement_of_created (hp : p ∈ done) {row : IncidentRow} (ho : p.owner = .created row) :
    ∃ a ∈ announcements done, a.incident = row.id ∧ a.escalated = false := by
  refine ⟨⟨row.id, row.severity, row.summary, row.confidence, false⟩,
    mem_append_left _ (mem_filterMap.2 ⟨p, hp, ?_⟩), rfl, rfl⟩
  simp only [createdAnnouncement, ho]

theorem announcement_of_escalated (hp : p ∈ done) {row : IncidentRow} (ho : p.owner = .existing row)
    (hesc : escalates p.candidate row = true) :
    ∃ a ∈ announcements done, a.incident = row.id ∧ a.escalated = true := by
  refine ⟨⟨row.id, p.candidate.severity, p.candidate.summary, clamp100 p.candidate.confidence,
    true⟩, mem_append_right _ (mem_filterMap.2 ⟨p, hp, ?_⟩), rfl, rfl⟩
  simp only [escalatedAnnouncement, ho, hesc, if_true]

theorem mem_announcements {a : Announcement} (h : a ∈ announcements done) :
    ∃ p ∈ done, a.incident = p.owner.row.id ∧
      if a.escalated then ∃ row, p.owner = .existing row else ∃ row, p.owner = .created row := by
  rcases mem_append.1 h with h | h
  · obtain ⟨p, hp, ha⟩ := mem_filterMap.1 h
    obtain ⟨row, ho, hid, hescalated⟩ := createdAnnouncement_eq_some ha
    refine ⟨p, hp, ?_, ?_⟩
    · rw [ho]
      exact hid
    · rw [hescalated]
      exact ⟨row, ho⟩
  · obtain ⟨p, hp, ha⟩ := mem_filterMap.1 h
    obtain ⟨row, ho, hid, hescalated⟩ := escalatedAnnouncement_eq_some ha
    refine ⟨p, hp, ?_, ?_⟩
    · rw [ho]
      exact hid
    · rw [hescalated]
      exact ⟨row, ho⟩

theorem announcements_nodup (h : (done.map (fun p => p.owner.row.id)).Nodup) :
    ((announcements done).map Announcement.incident).Nodup := by
  have hapart : done.Pairwise (fun p q => p.owner.row.id ≠ q.owner.row.id) :=
    pairwise_map.1 h
  refine pairwise_map.2 (pairwise_append.2 ⟨?_, ?_, fun a ha b hb hab => ?_⟩)
  · refine pairwise_filterMap.2 (hapart.imp (fun hne a ha b hb hab => ?_))
    obtain ⟨row, ho, hid, -⟩ := createdAnnouncement_eq_some ha
    obtain ⟨row', ho', hid', -⟩ := createdAnnouncement_eq_some hb
    rw [ho, ho'] at hne
    exact hne (hid.symm.trans (hab.trans hid'))
  · refine pairwise_filterMap.2 (hapart.imp (fun hne a ha b hb hab => ?_))
    obtain ⟨row, ho, hid, -⟩ := escalatedAnnouncement_eq_some ha
    obtain ⟨row', ho', hid', -⟩ := escalatedAnnouncement_eq_some hb
    rw [ho, ho'] at hne
    exact hne (hid.symm.trans (hab.trans hid'))
  · obtain ⟨p, hp, hap⟩ := mem_filterMap.1 ha
    obtain ⟨q, hq, hbq⟩ := mem_filterMap.1 hb
    obtain ⟨row, ho, hid, -⟩ := createdAnnouncement_eq_some hap
    obtain ⟨row', ho', hid', -⟩ := escalatedAnnouncement_eq_some hbq
    have hsame : p = q := inj_on_of_nodup_map h hp hq (by
      rw [ho, ho']
      exact hid.symm.trans (hab.trans hid'))
    rw [hsame, ho'] at ho
    cases ho

end Clawforge.Incidents

namespace Clawforge.EventDelivery

open Kit

/-! ## Keys -/

theorem ninth_append {s : String} (hs : 9 < s.toList.length) (t : String) :
    (s ++ t).toList[9]? = s.toList[9]? := by
  rw [String.toList_append, List.getElem?_append_left hs]

theorem ninth_incidentCreated (a : Uuid) :
    (EventSource.incidentCreated a).dedupeKey.toList[9]? = some 'c' := by
  show ("incident.created:" ++ uuidText a).toList[9]? = some 'c'
  rw [ninth_append (by decide)]
  decide

theorem ninth_incidentEscalated (a : Uuid) (occurrence : Int) :
    (EventSource.incidentEscalated a occurrence).dedupeKey.toList[9]? = some 'e' := by
  show ("incident.escalated:" ++ uuidText a ++ ":" ++ toString occurrence).toList[9]? = some 'e'
  rw [String.append_assoc, String.append_assoc, ninth_append (by decide)]
  decide

theorem incidentCreated_ne_escalated (a b : Uuid) (occurrence : Int) :
    (EventSource.incidentCreated a).dedupeKey ≠
      (EventSource.incidentEscalated b occurrence).dedupeKey := by
  intro h
  have hninth := ninth_incidentEscalated b occurrence
  rw [← h, ninth_incidentCreated] at hninth
  exact absurd hninth (by decide)

theorem incidentEscalated_injective {a b : Uuid} {m n : Int}
    (h : (EventSource.incidentEscalated a m).dedupeKey =
      (EventSource.incidentEscalated b n).dedupeKey) : a = b ∧ m = n := by
  have hkey : ∀ (id : Uuid) (occurrence : Int),
      (EventSource.incidentEscalated id occurrence).dedupeKey =
        "incident.escalated:" ++ (uuidText id ++ (":" ++ toString occurrence)) := by
    intro id occurrence
    rw [← String.append_assoc, ← String.append_assoc]
    rfl
  rw [hkey, hkey] at h
  have hsplit := congrArg (fun text => Text.splitOnce ':' text.toList)
    (String.append_right_inj "incident.escalated:" |>.1 h)
  have hone : ":".toList = [':'] := rfl
  simp only [String.toList_append, hone, List.singleton_append] at hsplit
  rw [Text.splitOnce_append (colon_not_mem_uuidText a),
    Text.splitOnce_append (colon_not_mem_uuidText b)] at hsplit
  obtain ⟨hid, hoccurrence⟩ := Prod.mk.inj (Option.some.inj hsplit)
  exact ⟨uuidText_injective (String.toList_injective hid),
    toString_int_injective (String.toList_injective hoccurrence)⟩
end Clawforge.EventDelivery

namespace Clawforge.Announcements

open EventDelivery

/-- Two announcements under one key are of one occurrence. -/
theorem source_of_key_eq {o o' : Owed} (h : o.source.dedupeKey = o'.source.dedupeKey) :
    o.source = o'.source := by
  unfold Owed.source at h ⊢
  split at h
  case isTrue hescalated =>
    rw [if_pos hescalated]
    split at h
    case isTrue hescalated' =>
      rw [if_pos hescalated']
      obtain ⟨hid, hoccurrence⟩ := incidentEscalated_injective h
      rw [hid, hoccurrence]
    case isFalse => exact absurd h.symm (incidentCreated_ne_escalated _ _ _)
  case isFalse hcreated =>
    rw [if_neg hcreated]
    split at h
    case isTrue => exact absurd h (incidentCreated_ne_escalated _ _ _)
    case isFalse hcreated' =>
      rw [if_neg hcreated']
      exact congrArg _ (uuidText_injective (String.append_right_inj "incident.created:" |>.1 h))

end Clawforge.Announcements

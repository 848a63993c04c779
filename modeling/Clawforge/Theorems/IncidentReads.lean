import Clawforge.Storage.IncidentReads

/-!
# The reads of an incident agree

The count of a listed incident, the count of its decision view and the number of different
events that its event list returns are one number, and both lists select the same incidents
(`incident_reads_agree`).
-/

namespace Kit

open List

section Query

variable {α β γ : Type} [DecidableEq β] [DecidableEq γ]

theorem countDistinct_perm {f : α → β} {xs ys : List α} (h : xs.Perm ys) :
    countDistinct f xs = countDistinct f ys := by
  refine length_eq_of_nodup (nodup_dedup _) (nodup_dedup _) (fun b => ?_)
  rw [mem_dedup, mem_dedup]
  exact (h.map f).mem_iff

/-- Keys of two kinds are counted apart. -/
theorem length_dedup_sum (xs : List β) (ys : List γ) :
    (xs.map Sum.inl ++ ys.map Sum.inr : List (β ⊕ γ)).dedup.length =
      xs.dedup.length + ys.dedup.length := by
  have hnodup : (xs.dedup.map Sum.inl ++ ys.dedup.map Sum.inr : List (β ⊕ γ)).Nodup := by
    refine Nodup.append ((nodup_dedup xs).map Sum.inl_injective)
      ((nodup_dedup ys).map Sum.inr_injective) ?_
    intro k hx hy
    obtain ⟨b, -, rfl⟩ := List.mem_map.1 hx
    obtain ⟨c, -, hc⟩ := List.mem_map.1 hy
    cases hc
  have hlength := length_eq_of_nodup (nodup_dedup
    (xs.map Sum.inl ++ ys.map Sum.inr : List (β ⊕ γ))) hnodup (fun k => by
      simp only [mem_dedup, mem_append, List.mem_map])
  rw [hlength, length_append, length_map, length_map]

end Query

end Kit

namespace Clawforge.IncidentReads

open Kit List Option

variable {db : IncidentDb} {limit : Int} {status : Option StoredStatus} {views : List IncidentView}

/-! ## Counts -/

/-- The groups with a direct event are counted as distinct direct events. -/
theorem countP_relationGroups (db : IncidentDb) (id : Uuid) :
    (relationGroups db id).countP Prod.fst = directCount db id := by
  have hcount := countP_groupRows Prod.fst
    (fun r : Uuid × RelationRow => r.2.relationType = .event) (eventRelations db id)
  unfold relationGroups directCount
  rw [countP_map]
  exact hcount

theorem eventCount_eq (db : IncidentDb) (i : IncidentRow) :
    (incidentView db i).eventCount = (decisionView db i).eventCount :=
  congrArg (legacyCount db i.id + ·) (countP_relationGroups db i.id)

/-- A link refers to a stored audit event, so its row is among the legacy rows. -/
theorem map_eventId_legacyRows (db : IncidentDb) (id : Uuid) :
    (legacyRows db id).map IncidentEvent.eventId =
      ((db.links.rows.filter (fun l => l.incidentId = id)).map LegacyLink.eventId).map
        Sum.inl := by
  have hknown : ∀ l ∈ db.links.rows.filter (fun l => l.incidentId = id),
      (db.audit.get? l.eventId).isSome = true :=
    fun l hl => db.linksKnown l (mem_of_mem_filter hl)
  unfold legacyRows
  generalize db.links.rows.filter (fun l => l.incidentId = id) = links at hknown
  induction links with
  | nil => rfl
  | cons l links ih =>
    obtain ⟨audit, haudit⟩ := isSome_iff_exists.1 (hknown l mem_cons_self)
    rw [filterMap_cons, haudit]
    exact congrArg (Sum.inl l.eventId :: ·) (ih (fun l' hl' => hknown l' (mem_cons_of_mem _ hl')))

theorem mem_eventRelations {id : Uuid} {e : Uuid × RelationRow} (h : e ∈ eventRelations db id) :
    e.2 ∈ db.relations ∧ e.2.eventId = some e.1 := by
  obtain ⟨r, hr, he⟩ := mem_filterMap.1 h
  obtain ⟨event, hevent, rfl⟩ := map_eq_some_iff.1 he
  exact ⟨mem_of_mem_filter hr, hevent⟩

/-- A relation refers to a stored event, so its row is among the canonical rows. -/
theorem map_eventId_canonicalRows (db : IncidentDb) (id : Uuid) :
    (canonicalRows db id).map IncidentEvent.eventId =
      (((eventRelations db id).filter (fun r => r.2.relationType = .event)).map Prod.fst).map
        Sum.inr := by
  have hknown : ∀ r ∈ (eventRelations db id).filter (fun r => r.2.relationType = .event),
      (db.events.get? r.1).isSome = true := fun r hr => by
    obtain ⟨hmem, hevent⟩ := mem_eventRelations (mem_of_mem_filter hr)
    exact db.relationsKnown r.2 hmem r.1 hevent
  unfold canonicalRows
  generalize (eventRelations db id).filter (fun r => r.2.relationType = .event) = rows at hknown
  induction rows with
  | nil => rfl
  | cons r rows ih =>
    obtain ⟨event, hevent⟩ := isSome_iff_exists.1 (hknown r mem_cons_self)
    rw [filterMap_cons, hevent]
    have hid : event.eventId = r.1 := Table.key_of_get? hevent
    refine congrArg₂ List.cons (congrArg Sum.inr hid) ?_
    exact ih (fun r' hr' => hknown r' (mem_cons_of_mem _ hr'))

/-- The event list returns each event that the counts count. -/
theorem countDistinct_events {render : Instant → String} {id : Uuid}
    {events : List IncidentEvent} (h : ListIncidentEvents db render id events) :
    countDistinct IncidentEvent.eventId events = legacyCount db id + directCount db id := by
  obtain ⟨legacy, canonical, hlegacy, hcanonical, rfl⟩ := h
  have hperm : (sortEvents render (legacy ++ canonical)).Perm
      (legacyRows db id ++ canonicalRows db id) :=
    (mergeSort_perm _ _).trans (hlegacy.1.append hcanonical.1)
  rw [countDistinct_perm hperm]
  unfold countDistinct
  rw [map_append, map_eventId_legacyRows, map_eventId_canonicalRows, length_dedup_sum]
  rfl

/-! ## Selection -/

/-- Where no two incidents were updated at one time, the list queries select the same ones. -/
theorem selected_unique
    (hdistinct : ∀ i ∈ db.incidents, ∀ j ∈ db.incidents, i.updatedAt = j.updatedAt → i = j)
    {xs ys : List IncidentRow} (hx : Selected db status limit xs) (hy : Selected db status limit ys) :
    xs = ys := by
  obtain ⟨sorted, hsorted, rfl⟩ := hx
  obtain ⟨sorted', hsorted', rfl⟩ := hy
  rw [hsorted.unique (fun a ha b hb hab hba => hdistinct a (mem_of_mem_filter ha) b
    (mem_of_mem_filter hb) (Nat.le_antisymm hba hab)) hsorted']

theorem mem_incidents_of_selected {selected : List IncidentRow}
    (h : Selected db status limit selected) {i : IncidentRow} (hi : i ∈ selected) :
    i ∈ db.incidents := by
  obtain ⟨sorted, hsorted, rfl⟩ := h
  exact mem_of_mem_filter (hsorted.1.subset (mem_of_mem_take hi))

theorem view_of_listed (h : ListIncidents db status limit views) {v : IncidentView} (hv : v ∈ views) :
    v.incident ∈ db.incidents ∧ v = incidentView db v.incident := by
  obtain ⟨selected, hselected, hordered⟩ := h
  obtain ⟨i, hi, rfl⟩ := List.mem_map.1 (hordered.1.subset hv)
  exact ⟨mem_incidents_of_selected hselected hi, rfl⟩

theorem view_of_decided {decisions : List DecisionView}
    (h : ListDecisionIncidentViews db limit decisions) {d : DecisionView} (hd : d ∈ decisions) :
    ∃ i ∈ db.incidents, d = decisionView db i := by
  obtain ⟨selected, sorted, hselected, hordered, rfl⟩ := h
  obtain ⟨i, hi, rfl⟩ := List.mem_map.1 hd
  exact ⟨i, mem_incidents_of_selected hselected (hordered.1.subset hi), rfl⟩

/-- The views come in the order of the incidents in them. -/
theorem incidents_of_views {selected : List IncidentRow}
    (h : OrderedBy (fun a b => updatedFirst a.incident b.incident)
      (selected.map (incidentView db)) views) :
    OrderedBy updatedFirst selected (views.map IncidentView.incident) := by
  refine ⟨?_, pairwise_map.2 h.2⟩
  have hperm := h.1.map IncidentView.incident
  rwa [List.map_map, show IncidentView.incident ∘ incidentView db = id from rfl,
    List.map_id] at hperm

theorem same_incidents {decisions : List DecisionView}
    (hdistinct : ∀ i ∈ db.incidents, ∀ j ∈ db.incidents, i.updatedAt = j.updatedAt → i = j)
    (hviews : ListIncidents db none limit views)
    (hdecisions : ListDecisionIncidentViews db limit decisions) :
    views.map (fun v => v.incident.id) = decisions.map DecisionView.id := by
  obtain ⟨selected, hselected, hviews⟩ := hviews
  obtain ⟨selected', sorted, hselected', hsorted, rfl⟩ := hdecisions
  obtain rfl : selected = selected' := selected_unique hdistinct hselected hselected'
  have hanti : ∀ a ∈ selected, ∀ b ∈ selected, updatedFirst a b → updatedFirst b a → a = b := by
    intro a ha b hb hab hba
    exact hdistinct a (mem_incidents_of_selected hselected ha) b
      (mem_incidents_of_selected hselected hb) (Nat.le_antisymm hba hab)
  have hincidents : views.map IncidentView.incident = sorted :=
    (incidents_of_views hviews).unique hanti hsorted
  rw [← hincidents, List.map_map, List.map_map]
  rfl

/-- The reads of an incident agree: on the number of its events, and, where no two incidents
were updated at one time, on the incidents that they select. -/
theorem incident_reads_agree (db : IncidentDb) :
    (∀ i : IncidentRow, ∀ (render : Instant → String) (events : List IncidentEvent),
      ListIncidentEvents db render i.id events →
        (incidentView db i).eventCount = (decisionView db i).eventCount ∧
          (incidentView db i).eventCount = countDistinct IncidentEvent.eventId events) ∧
      ∀ (status : Option StoredStatus) (limit limit' : Int) (views : List IncidentView)
        (decisions : List DecisionView),
        ListIncidents db status limit views → ListDecisionIncidentViews db limit' decisions →
          (∀ v ∈ views, v.incident ∈ db.incidents ∧ v = incidentView db v.incident) ∧
            (∀ d ∈ decisions, ∃ i ∈ db.incidents, d = decisionView db i) ∧
            (status = none → limit = limit' →
              (∀ i ∈ db.incidents, ∀ j ∈ db.incidents, i.updatedAt = j.updatedAt → i = j) →
              views.map (fun v => v.incident.id) = decisions.map DecisionView.id) := by
  constructor
  · intro i render events hevents
    refine ⟨eventCount_eq db i, ?_⟩
    rw [eventCount_eq, countDistinct_events hevents]
    rfl
  · intro status limit limit' views decisions hviews hdecisions
    refine ⟨fun v hv => view_of_listed hviews hv, fun d hd => view_of_decided hdecisions hd, ?_⟩
    intro hstatus hlimit hdistinct
    subst hstatus hlimit
    exact same_incidents hdistinct hviews hdecisions

/-- An incident whose event two relations name, one of them not of the type `event`, next to a
linked audit event. -/
def sampleIncident : IncidentRow where
  id := 1
  title := "Port scan"
  status := .opened
  source := "suricata"
  severity := .high
  confidence := 80
  candidateId := none
  createdAt := 0
  updatedAt := 5
  riskScore := 40
  summary := "Port scan"
  correlationKey := "ip:192.0.2.7"

def sampleAudit : AuditEventRow :=
  ⟨1, "operator", "incident.opened", "incident:1", .null, "incident", "api", "info", "", 1⟩

def sampleEvent : EventRow :=
  ⟨9, "NetworkAlert", "suricata", "high", 2, none, .null, .null, 2⟩

def sampleDb : IncidentDb where
  incidents := ⟨[sampleIncident], by decide⟩
  links := ⟨[⟨1, 1, 1⟩], by decide⟩
  audit := ⟨[sampleAudit], by decide⟩
  relations := ⟨[⟨1, 1, .event, some 9, none, 80, "scan"⟩,
    ⟨2, 1, .event, some 9, none, 60, "scan"⟩,
    ⟨3, 1, .indicator, some 9, none, 60, "source"⟩,
    ⟨4, 1, .incident, none, none, 60, "related"⟩], by decide⟩
  events := ⟨[sampleEvent], by decide⟩
  linksKnown := by decide
  relationsKnown := by decide

def sampleRender (t : Instant) : String :=
  if t = 1 then "2026-01-01T00:00:01Z" else "2026-01-01T00:00:02Z"

theorem incident_reads_agree_sample :
    ((incidentView sampleDb sampleIncident).eventCount = 2 ∧
      (incidentView sampleDb sampleIncident).eventCount =
        (decisionView sampleDb sampleIncident).eventCount ∧
      (incidentView sampleDb sampleIncident).eventCount = countDistinct IncidentEvent.eventId
        (sortEvents sampleRender (legacyRows sampleDb 1 ++ canonicalRows sampleDb 1))) ∧
      [incidentView sampleDb sampleIncident].map (fun v => v.incident.id) =
        [decisionView sampleDb sampleIncident].map DecisionView.id := by
  have hselected : Selected sampleDb none 50 [sampleIncident] :=
    ⟨[sampleIncident], ⟨.refl _, pairwise_singleton _ _⟩, rfl⟩
  have hlegacy : OrderedBy (fun a b => a.timestamp ≤ b.timestamp) (legacyRows sampleDb 1)
      (legacyRows sampleDb 1) := ⟨.refl _, pairwise_singleton _ _⟩
  have hcanonical : OrderedBy (fun a b => a.timestamp ≤ b.timestamp) (canonicalRows sampleDb 1)
      (canonicalRows sampleDb 1) := by
    refine ⟨.refl _, .cons ?_ (pairwise_singleton _ _)⟩
    intro e he
    obtain rfl := mem_singleton.1 he
    exact le_rfl
  have hviews : ListIncidents sampleDb none 50 [incidentView sampleDb sampleIncident] :=
    ⟨_, hselected, .refl _, pairwise_singleton _ _⟩
  have hdecisions : ListDecisionIncidentViews sampleDb 50
      [decisionView sampleDb sampleIncident] :=
    ⟨_, _, hselected, ⟨.refl _, pairwise_singleton _ _⟩, rfl⟩
  have hdistinct : ∀ i ∈ sampleDb.incidents, ∀ j ∈ sampleDb.incidents,
      i.updatedAt = j.updatedAt → i = j := by
    intro i hi j hj _
    exact (mem_singleton.1 hi).trans (mem_singleton.1 hj).symm
  have hagree := incident_reads_agree sampleDb
  exact ⟨⟨by decide, hagree.1 sampleIncident sampleRender _ ⟨_, _, hlegacy, hcanonical, rfl⟩⟩,
    (hagree.2 none 50 50 _ _ hviews hdecisions).2.2 rfl rfl hdistinct⟩

end Clawforge.IncidentReads

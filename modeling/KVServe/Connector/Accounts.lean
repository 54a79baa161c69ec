import Mathlib.Data.List.Nodup
import KVServe.Connector.Passes

/-!
# KVServe.Connector.Accounts

The steps of an engine, and what holds on both sides: the connector resolves every request
it may schedule to the transfer id of that request, so every entry is emitted under the
right id, and the emissions of a transfer id are those of one request.
-/

namespace KVServe.Connector

open CompressedKVConnector

/-! ### Steps of an engine -/

namespace Engine

variable {e e' : Engine} {news : List Admission} {cached : List CachedEntry}
  {scheduled : String → Nat}

/-- The connector when `build_connector_meta` is called. -/
def allocated (e : Engine) (news : List Admission) (cached : List CachedEntry) :
    CompressedKVConnector := (admissions news cached).foldl alloc e.connector

/-- What a scheduling step does. -/
theorem schedule_some (h : e.schedule news cached scheduled = some e') :
    (ids news cached).Nodup ∧ (∀ a ∈ news, e.admits .waiting a = true) ∧
      (∀ entry ∈ cached, e.runs entry = true) ∧
      ∃ c metas, (e.allocated news cached).buildConnectorMeta (e.output news cached scheduled) =
          some (c, metas) ∧
        e' = { e with
          connector := c
          requests := fun id => (e.requests id).map (e.advance news cached scheduled id)
          emitted := e.emitted ++ metas } := by
  unfold schedule at h
  split at h
  · rename_i hguard
    obtain ⟨hnodup, hnews, hcached⟩ := hguard
    obtain ⟨⟨c, metas⟩, hbuild, h⟩ := Option.bind_eq_some_iff.mp h
    exact ⟨hnodup, List.all_eq_true.mp hnews, List.all_eq_true.mp hcached, c, metas, hbuild,
      (Option.some.inj h).symm⟩
  · cases h

theorem admits_some {phase : Phase} {a : Admission} (h : e.admits phase a = true) :
    ∃ t, e.requests a.request.requestId = some t ∧ t.phase = phase ∧
      t.request = a.request.added ∧ a.numComputed ≤ a.request.promptTokenIds.length := by
  unfold admits at h
  split at h
  · rename_i t ht
    simp only [decide_eq_true_eq] at h
    exact ⟨t, ht, h⟩
  · cases h

theorem isRunning_some {id : String} (h : e.isRunning id = true) :
    ∃ t, e.requests id = some t ∧ t.phase = .running := by
  unfold isRunning at h
  split at h
  · rename_i t ht
    exact ⟨t, ht, by simpa using h⟩
  · cases h

/-- The ids of the admitted requests are among the scheduled ones. -/
theorem admissions_sublist (news : List Admission) (cached : List CachedEntry) :
    ((admissions news cached).map (·.request.requestId)).Sublist (ids news cached) := by
  have hcached : ((cached.filterMap CachedEntry.admission?).map
      (·.request.requestId)).Sublist (cached.map CachedEntry.reqId) := by
    induction cached with
    | nil => exact List.Sublist.slnil
    | cons entry cached ih =>
        cases entry with
        | running id blocks => exact ih.cons _
        | resumed a => exact ih.cons_cons _
  rw [admissions, List.map_append, ids]
  exact (List.Sublist.refl _).append hcached

/-- Where an admitted request comes from. -/
theorem admitted_phase (hnews : ∀ a ∈ news, e.admits .waiting a = true)
    (hcached : ∀ entry ∈ cached, e.runs entry = true) {a : Admission}
    (ha : a ∈ admissions news cached) :
    ∃ t, e.requests a.request.requestId = some t ∧ t.request = a.request.added ∧
      (t.phase = .waiting ∧ a ∈ news ∨ t.phase = .preempted ∧ .resumed a ∈ cached) := by
  rcases List.mem_append.mp ha with ha | ha
  · obtain ⟨t, ht, hphase, hrequest, -⟩ := admits_some (hnews a ha)
    exact ⟨t, ht, hrequest, Or.inl ⟨hphase, ha⟩⟩
  · obtain ⟨entry, hentry, heq⟩ := List.mem_filterMap.mp ha
    cases entry with
    | running id blocks => cases heq
    | resumed b =>
        obtain rfl := Option.some.inj heq
        obtain ⟨t, ht, hphase, hrequest, -⟩ := admits_some (hcached _ hentry)
        exact ⟨t, ht, hrequest, Or.inr ⟨hphase, hentry⟩⟩

theorem advance_request (id : String) (t : Tracked) :
    (e.advance news cached scheduled id t).request = t.request := by
  unfold advance
  split
  · rfl
  · split <;> rfl

/-- No admission is for a request that is not scheduled. -/
theorem find_of_not_mem {id : String} (hid : id ∉ ids news cached) :
    (admissions news cached).find? (·.request.requestId = id) = none := by
  refine List.find?_eq_none.mpr fun a ha heq => hid ?_
  refine (admissions_sublist news cached).subset (List.mem_map.mpr ⟨a, ha, ?_⟩)
  simpa using heq

theorem find_admitted (hnodup : (ids news cached).Nodup) {a : Admission}
    (ha : a ∈ admissions news cached) :
    (admissions news cached).find? (·.request.requestId = a.request.requestId) = some a := by
  have hnodup' := hnodup.sublist (admissions_sublist news cached)
  cases hfound : (admissions news cached).find?
      (·.request.requestId = a.request.requestId) with
  | none => exact absurd (List.find?_eq_none.mp hfound a ha) (by simp)
  | some b =>
      have hkey : b.request.requestId = a.request.requestId := by
        simpa using List.find?_some hfound
      exact congrArg some (List.inj_on_of_nodup_map hnodup' (List.mem_of_find?_eq_some hfound)
        ha hkey)

theorem find_running (hnodup : (ids news cached).Nodup) {id : String}
    {blocks : Option (List Nat)} (hentry : CachedEntry.running id blocks ∈ cached) :
    (admissions news cached).find? (·.request.requestId = id) = none := by
  have hmem : id ∈ cached.map CachedEntry.reqId := List.mem_map.mpr ⟨_, hentry, rfl⟩
  refine List.find?_eq_none.mpr fun a ha heq => ?_
  have heq : a.request.requestId = id := by simpa using heq
  obtain ⟨-, hcached, hdisjoint⟩ := List.nodup_append.mp hnodup
  rcases List.mem_append.mp ha with ha | ha
  · exact hdisjoint id (List.mem_map.mpr ⟨a, ha, heq⟩) id hmem rfl
  · obtain ⟨entry, hentry', hsome⟩ := List.mem_filterMap.mp ha
    cases entry with
    | running id blocks => cases hsome
    | resumed b =>
        obtain rfl := Option.some.inj hsome
        have hsame := List.inj_on_of_nodup_map hcached hentry hentry' heq.symm
        cases hsame

/-- A request that is not scheduled stays as it is. -/
theorem advance_of_not_mem {id : String} (hid : id ∉ ids news cached) (t : Tracked) :
    e.advance news cached scheduled id t = t := by
  have hcached : id ∉ cached.map CachedEntry.reqId := fun hmem =>
    hid (List.mem_append_right _ hmem)
  unfold advance
  rw [find_of_not_mem hid]
  exact if_neg hcached

/-- An admitted request runs after the step. -/
theorem advance_admitted (hnodup : (ids news cached).Nodup) {a : Admission}
    (ha : a ∈ admissions news cached) (t : Tracked) :
    e.advance news cached scheduled a.request.requestId t =
      { t with phase := .running
               computed := a.numComputed + e.external a + scheduled a.request.requestId } := by
  unfold advance
  rw [find_admitted hnodup ha]

/-- A running request goes on running. -/
theorem advance_running (hnodup : (ids news cached).Nodup) {id : String}
    {blocks : Option (List Nat)} (hentry : CachedEntry.running id blocks ∈ cached) (t : Tracked) :
    e.advance news cached scheduled id t = { t with computed := t.computed + scheduled id } := by
  have hmem : id ∈ cached.map CachedEntry.reqId := List.mem_map.mpr ⟨_, hentry, rfl⟩
  unfold advance
  rw [find_running hnodup hentry]
  exact if_pos hmem

/-! ### What holds on both sides -/

/-- The connector knows the transfer id of every request that may be scheduled, and every
entry was emitted under the id of its request. -/
structure Inv (e : Engine) : Prop where
  key : ∀ {id t}, e.requests id = some t → t.request.requestId = id
  issued : ∀ {id t}, e.requests id = some t → t.request.resolvedId ∈ e.issued
  unique : ∀ {id id' t t'}, e.requests id = some t → e.requests id' = some t' →
    t.request.resolvedId = t'.request.resolvedId → id = id'
  waitingId : ∀ {id t}, e.requests id = some t → t.phase = .waiting →
    e.connector.requestTransferIds id = none
  liveId : ∀ {id t}, e.requests id = some t → t.phase = .running ∨ t.phase = .preempted →
    e.connector.requestTransferIds id = t.request.routedId
  emitted : ∀ m ∈ e.emitted, ∃ t, e.requests m.requestId = some t ∧
    m.transferId = t.request.resolvedId
  unknown : ∀ {id}, e.requests id = none → e.connector.requestTransferIds id = none

/-- The emissions of a transfer id are those of its request. -/
theorem Inv.emissions (h : e.Inv) {id : String} {t : Tracked} (ht : e.requests id = some t) :
    e.emissions t.request.resolvedId = count id e.emitted := by
  unfold Engine.emissions count
  refine List.countP_congr fun m hm => ?_
  obtain ⟨t', ht', hid⟩ := h.emitted m hm
  simp only [decide_eq_true_eq]
  constructor
  · intro heq
    exact h.unique ht' ht (hid.symm.trans heq)
  · rintro rfl
    rw [hid, Option.some.inj (ht'.symm.trans ht)]

/-- The transfer ids when the metadata is built. -/
theorem Inv.allocated_transferIds (h : e.Inv) (hnodup : (ids news cached).Nodup)
    (hnews : ∀ a ∈ news, e.admits .waiting a = true)
    (hcached : ∀ entry ∈ cached, e.runs entry = true) :
    (∀ id ∉ ids news cached, (e.allocated news cached).requestTransferIds id =
      e.connector.requestTransferIds id) ∧
    ∀ id ∈ ids news cached, ∃ t, e.requests id = some t ∧
      (e.allocated news cached).requestTransferIds id = t.request.routedId := by
  obtain ⟨hother, hown⟩ := foldl_alloc_requestTransferIds e.connector
    (hnodup.sublist (admissions_sublist news cached))
  have hadmitted : ∀ a ∈ admissions news cached, ∃ t,
      e.requests a.request.requestId = some t ∧
      (e.allocated news cached).requestTransferIds a.request.requestId =
        t.request.routedId := by
    intro a ha
    obtain ⟨t, ht, hrequest, hphase⟩ := admitted_phase hnews hcached ha
    refine ⟨t, ht, (hown a ha).trans ?_⟩
    have hrouted : a.request.routedId = t.request.routedId := by rw [hrequest]; rfl
    rcases hphase with ⟨hphase, -⟩ | ⟨hphase, -⟩
    · rw [h.waitingId ht hphase, Option.or_none, hrouted]
    · rw [h.liveId ht (Or.inr hphase), hrouted, Option.or_self]
  refine ⟨fun id hid => hother id fun hmem =>
    hid ((admissions_sublist news cached).subset hmem), fun id hid => ?_⟩
  by_cases hmem : id ∈ (admissions news cached).map (·.request.requestId)
  · obtain ⟨a, ha, rfl⟩ := List.mem_map.mp hmem
    exact hadmitted a ha
  · -- a running request
    rcases List.mem_append.mp hid with hid | hid
    · obtain ⟨a, ha, rfl⟩ := List.mem_map.mp hid
      exact absurd (List.mem_map.mpr ⟨a, List.mem_append_left _ ha, rfl⟩) hmem
    · obtain ⟨entry, hentry, rfl⟩ := List.mem_map.mp hid
      cases entry with
      | running id blocks =>
          obtain ⟨t, ht, hphase⟩ := isRunning_some (hcached _ hentry)
          exact ⟨t, ht, (hother id hmem).trans (h.liveId ht (Or.inl hphase))⟩
      | resumed a =>
          refine absurd (List.mem_map.mpr ⟨a, List.mem_append_right _ ?_, rfl⟩) hmem
          exact List.mem_filterMap.mpr ⟨_, hentry, rfl⟩

/-- A scheduled request was admitted or is running. -/
theorem scheduled_cases (hcached : ∀ entry ∈ cached, e.runs entry = true) {id : String}
    (hid : id ∈ ids news cached) :
    (∃ a ∈ admissions news cached, a.request.requestId = id) ∨
      ∃ blocks t, CachedEntry.running id blocks ∈ cached ∧ e.requests id = some t ∧
        t.phase = .running := by
  rcases List.mem_append.mp hid with hid | hid
  · obtain ⟨a, ha, rfl⟩ := List.mem_map.mp hid
    exact Or.inl ⟨a, List.mem_append_left _ ha, rfl⟩
  · obtain ⟨entry, hentry, rfl⟩ := List.mem_map.mp hid
    cases entry with
    | running id blocks =>
        obtain ⟨t, ht, hphase⟩ := isRunning_some (hcached _ hentry)
        exact Or.inr ⟨blocks, t, hentry, ht, hphase⟩
    | resumed a =>
        refine Or.inl ⟨a, List.mem_append_right _ ?_, rfl⟩
        exact List.mem_filterMap.mpr ⟨_, hentry, rfl⟩

theorem advance_phase (hnodup : (ids news cached).Nodup)
    (hcached : ∀ entry ∈ cached, e.runs entry = true) {id : String}
    (hid : id ∈ ids news cached) {t : Tracked} (ht : e.requests id = some t) :
    (e.advance news cached scheduled id t).phase = .running := by
  rcases scheduled_cases hcached hid with ⟨a, ha, rfl⟩ | ⟨blocks, t', hentry, ht', hphase⟩
  · rw [advance_admitted hnodup ha]
  · obtain rfl := Option.some.inj (ht'.symm.trans ht)
    rw [advance_running hnodup hentry]
    exact hphase

/-- Scheduling keeps the invariant, if the passes only touch the scheduled requests. -/
theorem Inv.schedule (h : e.Inv) (hnodup : (ids news cached).Nodup)
    (hnews : ∀ a ∈ news, e.admits .waiting a = true)
    (hcached : ∀ entry ∈ cached, e.runs entry = true) {c : CompressedKVConnector}
    {metas : List ReqMeta} (hframe : Frame (e.allocated news cached) (ids news cached) c metas) :
    Inv { e with
      connector := c
      requests := fun id => (e.requests id).map (e.advance news cached scheduled id)
      emitted := e.emitted ++ metas } := by
  obtain ⟨hother, hown⟩ := h.allocated_transferIds hnodup hnews hcached
  have hback : ∀ {id t}, (e.requests id).map (e.advance news cached scheduled id) = some t →
      ∃ t₀, e.requests id = some t₀ ∧ t.request = t₀.request ∧
        (id ∉ ids news cached → t = t₀) ∧ (id ∈ ids news cached → t.phase = .running) := by
    intro id t ht
    obtain ⟨t₀, ht₀, rfl⟩ := Option.map_eq_some_iff.mp ht
    exact ⟨t₀, ht₀, advance_request id t₀, fun hid => advance_of_not_mem hid t₀,
      fun hid => advance_phase hnodup hcached hid ht₀⟩
  refine ⟨fun ht => ?_, fun ht => ?_, fun ht ht' heq => ?_, fun {id t} ht hphase => ?_,
    fun {id t} ht hphase => ?_, fun m hm => ?_, fun {id} hnone => ?_⟩
  · obtain ⟨t₀, ht₀, hrequest, -⟩ := hback ht
    rw [hrequest, h.key ht₀]
  · obtain ⟨t₀, ht₀, hrequest, -⟩ := hback ht
    rw [hrequest]
    exact h.issued ht₀
  · obtain ⟨t₀, ht₀, hrequest, -⟩ := hback ht
    obtain ⟨t₁, ht₁, hrequest', -⟩ := hback ht'
    rw [hrequest, hrequest'] at heq
    exact h.unique ht₀ ht₁ heq
  · obtain ⟨t₀, ht₀, -, hsame, hrunning⟩ := hback ht
    by_cases hid : id ∈ ids news cached
    · rw [hrunning hid] at hphase
      cases hphase
    · show c.requestTransferIds id = none
      rw [hframe.transferIds, hother id hid]
      exact h.waitingId ht₀ (hsame hid ▸ hphase)
  · obtain ⟨t₀, ht₀, hrequest, hsame, -⟩ := hback ht
    show c.requestTransferIds id = t.request.routedId
    by_cases hid : id ∈ ids news cached
    · obtain ⟨t₁, ht₁, hrouted⟩ := hown id hid
      rw [hframe.transferIds, hrouted, hrequest, Option.some.inj (ht₁.symm.trans ht₀)]
    · rw [hframe.transferIds, hother id hid, hrequest]
      exact h.liveId ht₀ (hsame hid ▸ hphase)
  · rcases List.mem_append.mp hm with hm | hm
    · obtain ⟨t₀, ht₀, hid⟩ := h.emitted m hm
      refine ⟨e.advance news cached scheduled m.requestId t₀, ?_, ?_⟩
      · simp only [ht₀, Option.map_some]
      · rw [advance_request, hid]
    · obtain ⟨hmem, htransfer⟩ := hframe.named m hm
      obtain ⟨t₁, ht₁, hrouted⟩ := hown _ hmem
      refine ⟨e.advance news cached scheduled m.requestId t₁, ?_, ?_⟩
      · simp only [ht₁, Option.map_some]
      · rw [advance_request, htransfer, resolveTransferId, hrouted, Request.resolvedId, h.key ht₁]
  · have hnone₀ : e.requests id = none := by simpa using hnone
    have hid : id ∉ ids news cached := fun hmem => by
      obtain ⟨t, ht, -⟩ := hown id hmem
      rw [hnone₀] at ht
      cases ht
    show c.requestTransferIds id = none
    rw [hframe.transferIds, hother id hid, h.unknown hnone₀]

/-- A request with a new phase, and perhaps without an entry in the connector. -/
theorem Inv.setTracked (h : e.Inv) {id : String} {t t' : Tracked} (ht : e.requests id = some t)
    (hrequest : t'.request = t.request) {c : CompressedKVConnector}
    (hother : ∀ other ≠ id, c.requestTransferIds other = e.connector.requestTransferIds other)
    (hwaiting : t'.phase ≠ .waiting)
    (hlive : t'.phase = .running ∨ t'.phase = .preempted →
      c.requestTransferIds id = t.request.routedId) :
    Inv { e.setTracked t' with connector := c } := by
  have hkey : t'.request.requestId = id := by rw [hrequest, h.key ht]
  have hget : ∀ other, (e.setTracked t').requests other =
      if other = id then some t' else e.requests other := by
    intro other
    simp only [Engine.setTracked, hkey, Function.update_apply]
  have hback : ∀ {other u}, (e.setTracked t').requests other = some u →
      ∃ u₀, e.requests other = some u₀ ∧ u.request = u₀.request ∧ (other ≠ id → u = u₀) ∧
        (other = id → u = t') := by
    intro other u hu
    rw [hget] at hu
    split at hu
    · rename_i heq
      obtain rfl := Option.some.inj hu
      exact ⟨t, heq ▸ ht, hrequest, fun hne => absurd heq hne, fun _ => rfl⟩
    · rename_i hne
      exact ⟨u, hu, rfl, fun _ => rfl, fun heq => absurd heq hne⟩
  refine ⟨fun hu => ?_, fun hu => ?_, fun hu hu' heq => ?_, fun {other u} hu hphase => ?_,
    fun {other u} hu hphase => ?_, fun m hm => ?_, fun {other} hnone => ?_⟩
  · obtain ⟨u₀, hu₀, hreq, -⟩ := hback hu
    rw [hreq, h.key hu₀]
  · obtain ⟨u₀, hu₀, hreq, -⟩ := hback hu
    rw [hreq]
    exact h.issued hu₀
  · obtain ⟨u₀, hu₀, hreq, -⟩ := hback hu
    obtain ⟨u₁, hu₁, hreq', -⟩ := hback hu'
    rw [hreq, hreq'] at heq
    exact h.unique hu₀ hu₁ heq
  · obtain ⟨u₀, hu₀, -, hsame, hself⟩ := hback hu
    by_cases heq : other = id
    · exact absurd (hself heq ▸ hphase) hwaiting
    · exact (hother other heq).trans (h.waitingId hu₀ (hsame heq ▸ hphase))
  · obtain ⟨u₀, hu₀, hreq, hsame, hself⟩ := hback hu
    by_cases heq : other = id
    · subst heq
      rw [hreq, Option.some.inj (hu₀.symm.trans ht)]
      exact hlive (hself rfl ▸ hphase)
    · rw [hreq]
      exact (hother other heq).trans (h.liveId hu₀ (hsame heq ▸ hphase))
  · obtain ⟨u₀, hu₀, hid⟩ := h.emitted m hm
    by_cases heq : m.requestId = id
    · refine ⟨t', ?_, ?_⟩
      · show (e.setTracked t').requests m.requestId = some t'
        rw [hget, if_pos heq]
      · rw [hid, hrequest, Option.some.inj (hu₀.symm.trans (heq ▸ ht))]
    · refine ⟨u₀, ?_, hid⟩
      show (e.setTracked t').requests m.requestId = some u₀
      rw [hget, if_neg heq, hu₀]
  · have hnone : (e.setTracked t').requests other = none := hnone
    rw [hget] at hnone
    split at hnone
    · cases hnone
    · rename_i hne
      exact (hother other hne).trans (h.unknown hnone)

theorem Inv.add (h : e.Inv) {request : Request} (hfresh : e.requests request.requestId = none)
    (hissued : request.resolvedId ∉ e.issued) :
    Inv { e.setTracked { request } with issued := request.resolvedId :: e.issued } := by
  have hget : ∀ other, (e.setTracked { request }).requests other =
      if other = request.requestId then some { request } else e.requests other := by
    intro other
    simp only [Engine.setTracked, Function.update_apply]
  have hback : ∀ {other u}, (e.setTracked { request }).requests other = some u →
      other = request.requestId ∧ u = { request } ∨
        other ≠ request.requestId ∧ e.requests other = some u := by
    intro other u hu
    rw [hget] at hu
    split at hu
    · rename_i heq
      exact Or.inl ⟨heq, (Option.some.inj hu).symm⟩
    · rename_i hne
      exact Or.inr ⟨hne, hu⟩
  refine ⟨fun hu => ?_, fun hu => ?_, fun hu hu' heq => ?_, fun hu hphase => ?_,
    fun hu hphase => ?_, fun m hm => ?_, fun {other} hnone => ?_⟩
  · rcases hback hu with ⟨rfl, rfl⟩ | ⟨-, hu⟩
    · rfl
    · exact h.key hu
  · rcases hback hu with ⟨rfl, rfl⟩ | ⟨-, hu⟩
    · exact List.mem_cons_self
    · exact List.mem_cons_of_mem _ (h.issued hu)
  · rcases hback hu with ⟨rfl, rfl⟩ | ⟨-, hu⟩ <;> rcases hback hu' with ⟨rfl, rfl⟩ | ⟨-, hu'⟩
    · rfl
    · exact absurd (heq ▸ h.issued hu') hissued
    · exact absurd (heq ▸ h.issued hu) hissued
    · exact h.unique hu hu' heq
  · rcases hback hu with ⟨rfl, rfl⟩ | ⟨-, hu⟩
    · exact h.unknown hfresh
    · exact h.waitingId hu hphase
  · rcases hback hu with ⟨rfl, rfl⟩ | ⟨-, hu⟩
    · simp at hphase
    · exact h.liveId hu hphase
  · obtain ⟨u, hu, hid⟩ := h.emitted m hm
    refine ⟨u, ?_, hid⟩
    have hne : m.requestId ≠ request.requestId := fun heq => by
      rw [heq, hfresh] at hu
      cases hu
    show (e.setTracked { request }).requests m.requestId = some u
    rw [hget, if_neg hne, hu]
  · have hnone : (e.setTracked { request }).requests other = none := hnone
    rw [hget] at hnone
    split at hnone
    · cases hnone
    · exact h.unknown hnone

theorem Inv.count_unknown (h : e.Inv) {id : String} (hnone : e.requests id = none) :
    count id e.emitted = 0 := by
  refine List.countP_eq_zero.mpr fun m hm heq => ?_
  obtain rfl : m.requestId = id := by simpa using heq
  obtain ⟨t, ht, -⟩ := h.emitted m hm
  rw [hnone] at ht
  cases ht

/-- The other steps of an engine. -/
theorem step_cases {a : Action} (h : e.step a = some e') :
    (∃ request, e.requests request.requestId = none ∧ request.resolvedId ∉ e.issued ∧
        e' = { e.setTracked { request } with issued := request.resolvedId :: e.issued }) ∨
      (∃ news cached scheduled, a = .schedule news cached scheduled ∧
        e.schedule news cached scheduled = some e') ∨
      ∃ id t phase, e.requests id = some t ∧
        (t.phase = .running ∧ phase = .preempted ∧
            e' = e.setTracked { t with phase, computed := 0 } ∨
          (phase = .finished ∧ t.phase = .running ∧
              t.request.promptTokenIds.length ≤ t.computed ∨ phase = .aborted) ∧
            e' = e.leave id t phase) := by
  cases a with
  | add request =>
      simp only [step] at h
      split at h
      · rename_i hguard
        exact Or.inl ⟨request, hguard.1, hguard.2.1, (Option.some.inj h).symm⟩
      · cases h
  | schedule news cached scheduled => exact Or.inr (Or.inl ⟨news, cached, scheduled, rfl, h⟩)
  | preempt id =>
      simp only [step] at h
      split at h
      · rename_i t ht
        split at h
        · rename_i hphase
          exact Or.inr (Or.inr ⟨id, t, .preempted, ht, Or.inl ⟨hphase, rfl,
            (Option.some.inj h).symm⟩⟩)
        · cases h
      · cases h
  | finish id =>
      simp only [step] at h
      split at h
      · rename_i t ht
        split at h
        · rename_i hguard
          exact Or.inr (Or.inr ⟨id, t, .finished, ht, Or.inr ⟨Or.inl ⟨rfl, hguard⟩,
            (Option.some.inj h).symm⟩⟩)
        · cases h
      · cases h
  | abort id =>
      simp only [step] at h
      split at h
      · rename_i t ht
        split at h
        · exact Or.inr (Or.inr ⟨id, t, .aborted, ht, Or.inr ⟨Or.inr rfl,
            (Option.some.inj h).symm⟩⟩)
        · cases h
      · cases h

theorem setTracked_requests (t : Tracked) (other : String) :
    (e.setTracked t).requests other =
      if other = t.request.requestId then some t else e.requests other := by
  simp only [setTracked, Function.update_apply]

/-- A tracked request is the one that was set or an old one. -/
theorem setTracked_some {t u : Tracked} {other : String}
    (hget : (e.setTracked t).requests other = some u) :
    (other = t.request.requestId ∧ u = t) ∨
      (other ≠ t.request.requestId ∧ e.requests other = some u) := by
  rw [setTracked_requests] at hget
  split at hget
  · rename_i heq
    exact Or.inl ⟨heq, (Option.some.inj hget).symm⟩
  · rename_i hne
    exact Or.inr ⟨hne, hget⟩

theorem setTracked_none {t : Tracked} {other : String}
    (hnone : (e.setTracked t).requests other = none) :
    other ≠ t.request.requestId ∧ e.requests other = none := by
  rw [setTracked_requests] at hnone
  split at hnone
  · cases hnone
  · rename_i hne
    exact ⟨hne, hnone⟩

theorem Inv.preempt (h : e.Inv) {id : String} {t : Tracked} (ht : e.requests id = some t)
    (hphase : t.phase = .running) :
    Inv (e.setTracked { t with phase := .preempted, computed := 0 }) :=
  @Inv.setTracked e h id t { t with phase := .preempted, computed := 0 } ht rfl e.connector
    (fun _ _ => rfl) (by simp) fun _ => h.liveId ht (Or.inl hphase)

theorem Inv.leave (h : e.Inv) {id : String} {t : Tracked} (ht : e.requests id = some t)
    {phase : Phase} (hphase : phase = .finished ∨ phase = .aborted) :
    Inv (e.leave id t phase) := by
  refine @Inv.setTracked e h id t { t with phase } ht rfl (e.connector.requestFinished id)
    (fun other hne => Function.update_of_ne hne _ _) ?_ ?_ <;>
    rcases hphase with rfl | rfl <;> simp

end Engine

end KVServe.Connector

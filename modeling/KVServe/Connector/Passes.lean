import KVServe.Connector.Engine

/-!
# KVServe.Connector.Passes

What one scheduling step does to one request. Admissions and the loops of
`build_connector_meta` treat the requests one after the other, and each pass only touches
the entries of its own request (`Frame`). A loop over distinct requests therefore does to
each of them what its own pass does (`loop_spec`).
-/

namespace KVServe.Connector

open CompressedKVConnector

/-! ### Admissions -/

section Admissions

variable {c : CompressedKVConnector} {a : Admission} {as : List Admission} {id : String}

/-- Admitting a request leaves the rest of the connector alone. -/
theorem alloc_static (c : CompressedKVConnector) (a : Admission) :
    (Engine.alloc c a).isProducer = c.isProducer ∧
      (Engine.alloc c a).chunkedPrefill = c.chunkedPrefill := by
  unfold Engine.alloc updateStateAfterAlloc captureTransferId setNeedLoad
  cases a.request.routedId <;> simp only <;> split <;> exact ⟨rfl, rfl⟩

theorem alloc_requestTransferIds (c : CompressedKVConnector) (a : Admission) :
    (Engine.alloc c a).requestTransferIds = Function.update c.requestTransferIds
      a.request.requestId
      (a.request.routedId.or (c.requestTransferIds a.request.requestId)) := by
  unfold Engine.alloc updateStateAfterAlloc captureTransferId setNeedLoad
  cases a.request.routedId <;> simp only <;> split <;> simp

/-- What is left to load after an admission. -/
theorem alloc_requestsNeedLoad (c : CompressedKVConnector) (a : Admission) :
    (Engine.alloc c a).requestsNeedLoad =
      if c.isProducer = false ∧ a.numComputed + 1 < a.request.promptTokenIds.length then
        Function.update c.requestsNeedLoad a.request.requestId (some (a.request, a.blockIds))
      else c.requestsNeedLoad := by
  have hpos : 0 < c.getNumNewMatchedTokens a.request a.numComputed ↔
      c.isProducer = false ∧ a.numComputed + 1 < a.request.promptTokenIds.length := by
    unfold getNumNewMatchedTokens
    cases c.isProducer with
    | true => simp
    | false =>
        simp only [Bool.false_eq_true, if_false, true_and]
        split <;> omega
  unfold Engine.alloc updateStateAfterAlloc
  have hstatic : (c.captureTransferId a.request).isProducer = c.isProducer ∧
      (c.captureTransferId a.request).requestsNeedLoad = c.requestsNeedLoad := by
    unfold captureTransferId
    split <;> exact ⟨rfl, rfl⟩
  simp only [hstatic.1]
  by_cases h : c.isProducer = false ∧ a.numComputed + 1 < a.request.promptTokenIds.length
  · have hcond : (!c.isProducer && decide (0 < c.getNumNewMatchedTokens a.request
        a.numComputed)) = true := by
      simp [hpos.mpr h, h.1]
    rw [if_pos h, if_pos hcond, setNeedLoad, hstatic.2]
  · have hcond : ¬ (!c.isProducer && decide (0 < c.getNumNewMatchedTokens a.request
        a.numComputed)) = true := by
      intro hcond
      simp only [Bool.and_eq_true, decide_eq_true_eq] at hcond
      exact h (hpos.mp hcond.2)
    rw [if_neg h, if_neg hcond, hstatic.2]

theorem foldl_alloc_static (c : CompressedKVConnector) (as : List Admission) :
    (as.foldl Engine.alloc c).isProducer = c.isProducer ∧
      (as.foldl Engine.alloc c).chunkedPrefill = c.chunkedPrefill := by
  induction as generalizing c with
  | nil => exact ⟨rfl, rfl⟩
  | cons a as ih =>
      obtain ⟨hproducer, hprefill⟩ := ih (Engine.alloc c a)
      exact ⟨hproducer.trans (alloc_static c a).1, hprefill.trans (alloc_static c a).2⟩

/-- The transfer ids after the admissions of a step. -/
theorem foldl_alloc_requestTransferIds (c : CompressedKVConnector)
    (hnodup : (as.map (·.request.requestId)).Nodup) :
    (∀ id ∉ as.map (·.request.requestId),
      (as.foldl Engine.alloc c).requestTransferIds id = c.requestTransferIds id) ∧
    ∀ a ∈ as, (as.foldl Engine.alloc c).requestTransferIds a.request.requestId =
      a.request.routedId.or (c.requestTransferIds a.request.requestId) := by
  induction as generalizing c with
  | nil => exact ⟨fun _ _ => rfl, fun a ha => nomatch ha⟩
  | cons b as ih =>
      obtain ⟨hb, hrest⟩ := List.nodup_cons.mp hnodup
      obtain ⟨hother, hown⟩ := ih (Engine.alloc c b) hrest
      refine ⟨fun id hid => ?_, fun a ha => ?_⟩
      · obtain ⟨hne, hid⟩ := not_or.mp (mt List.mem_cons.mpr hid)
        rw [List.foldl_cons, hother id hid, alloc_requestTransferIds, Function.update_of_ne hne]
      · rcases List.mem_cons.mp ha with rfl | ha
        · rw [List.foldl_cons, hother _ hb, alloc_requestTransferIds, Function.update_self]
        · have hne : a.request.requestId ≠ b.request.requestId := fun heq =>
            hb (List.mem_map.mpr ⟨a, ha, heq⟩)
          rw [List.foldl_cons, hown a ha, alloc_requestTransferIds, Function.update_of_ne hne]

/-- What is left to load after the admissions of a step. -/
theorem foldl_alloc_requestsNeedLoad (c : CompressedKVConnector)
    (hnodup : (as.map (·.request.requestId)).Nodup) :
    (∀ id ∉ as.map (·.request.requestId),
      (as.foldl Engine.alloc c).requestsNeedLoad id = c.requestsNeedLoad id) ∧
    ∀ a ∈ as, (as.foldl Engine.alloc c).requestsNeedLoad a.request.requestId =
      if c.isProducer = false ∧ a.numComputed + 1 < a.request.promptTokenIds.length then
        some (a.request, a.blockIds) else c.requestsNeedLoad a.request.requestId := by
  induction as generalizing c with
  | nil => exact ⟨fun _ _ => rfl, fun a ha => nomatch ha⟩
  | cons b as ih =>
      obtain ⟨hb, hrest⟩ := List.nodup_cons.mp hnodup
      obtain ⟨hother, hown⟩ := ih (Engine.alloc c b) hrest
      have hframe : ∀ id, id ≠ b.request.requestId →
          (Engine.alloc c b).requestsNeedLoad id = c.requestsNeedLoad id := by
        intro id hne
        rw [alloc_requestsNeedLoad]
        split
        · rw [Function.update_of_ne hne]
        · rfl
      refine ⟨fun id hid => ?_, fun a ha => ?_⟩
      · obtain ⟨hne, hid⟩ := not_or.mp (mt List.mem_cons.mpr hid)
        rw [List.foldl_cons, hother id hid, hframe id hne]
      · rcases List.mem_cons.mp ha with rfl | ha
        · rw [List.foldl_cons, hother _ hb, alloc_requestsNeedLoad]
          split
          · rw [Function.update_self]
          · rfl
        · have hne : a.request.requestId ≠ b.request.requestId := fun heq =>
            hb (List.mem_map.mpr ⟨a, ha, heq⟩)
          rw [List.foldl_cons, hown a ha, (alloc_static c b).1, hframe _ hne]

end Admissions

/-! ### The passes of a step -/

/-- How often a request is among the entries. -/
def count (id : String) (metas : List ReqMeta) : Nat := metas.countP (·.requestId = id)

@[simp] theorem count_nil (id : String) : count id [] = 0 := rfl

@[simp] theorem count_append (id : String) (ms ns : List ReqMeta) :
    count id (ms ++ ns) = count id ms + count id ns := List.countP_append

@[simp] theorem count_reqMeta (c : CompressedKVConnector) (id id' : String)
    (tokenIds blockIds : List Nat) :
    count id [c.reqMeta id' tokenIds blockIds] = if id' = id then 1 else 0 := by
  simp [count, reqMeta]

section Passes

variable {c c' : CompressedKVConnector} {out : SchedulerOutput} {metas : List ReqMeta}

/-- Passes for these requests: nothing of another request changes, and every entry belongs
to one of them under its transfer id. -/
structure Frame (c : CompressedKVConnector) (ids : List String) (c' : CompressedKVConnector)
    (metas : List ReqMeta) : Prop where
  isProducer : c'.isProducer = c.isProducer
  transferIds : c'.requestTransferIds = c.requestTransferIds
  named : ∀ m ∈ metas, m.requestId ∈ ids ∧ m.transferId = c.resolveTransferId m.requestId
  prefill : ∀ id ∉ ids, c'.chunkedPrefill id = c.chunkedPrefill id
  needLoad : ∀ id ∉ ids, c'.requestsNeedLoad id = c.requestsNeedLoad id

theorem Frame.nil : Frame c [] c [] :=
  ⟨rfl, rfl, fun _ hmem => (nomatch hmem), fun _ _ => rfl, fun _ _ => rfl⟩

theorem Frame.append {ids ids' : List String} {c₁ : CompressedKVConnector}
    {ms ns : List ReqMeta} (h : Frame c ids c₁ ms) (h' : Frame c₁ ids' c' ns) :
    Frame c (ids ++ ids') c' (ms ++ ns) := by
  refine ⟨h'.isProducer.trans h.isProducer, h'.transferIds.trans h.transferIds,
    fun m hmem => ?_, fun id hid => ?_, fun id hid => ?_⟩
  · rcases List.mem_append.mp hmem with hmem | hmem
    · exact ⟨List.mem_append_left _ (h.named m hmem).1, (h.named m hmem).2⟩
    · refine ⟨List.mem_append_right _ (h'.named m hmem).1, ?_⟩
      rw [(h'.named m hmem).2, resolveTransferId, resolveTransferId, h.transferIds]
  · obtain ⟨hid, hid'⟩ := not_or.mp (mt List.mem_append.mpr hid)
    rw [h'.prefill id hid', h.prefill id hid]
  · obtain ⟨hid, hid'⟩ := not_or.mp (mt List.mem_append.mpr hid)
    rw [h'.needLoad id hid', h.needLoad id hid]

/-- Only the requests of the passes are counted. -/
theorem Frame.count_eq_zero {ids : List String} (h : Frame c ids c' metas) {id : String}
    (hid : id ∉ ids) : count id metas = 0 := by
  refine List.countP_eq_zero.mpr fun m hmem heq => hid ?_
  obtain rfl : m.requestId = id := by simpa using heq
  exact (h.named m hmem).1

/-- Two connectors that agree on a request. -/
structure AgreeAt (id : String) (c c' : CompressedKVConnector) : Prop where
  isProducer : c'.isProducer = c.isProducer
  prefill : c'.chunkedPrefill id = c.chunkedPrefill id
  needLoad : c'.requestsNeedLoad id = c.requestsNeedLoad id

theorem AgreeAt.refl (id : String) (c : CompressedKVConnector) : AgreeAt id c c := ⟨rfl, rfl, rfl⟩

theorem Frame.agreeAt {ids : List String} (h : Frame c ids c' metas) {id : String}
    (hid : id ∉ ids) : AgreeAt id c c' :=
  ⟨h.isProducer, h.prefill id hid, h.needLoad id hid⟩

theorem AgreeAt.trans {id : String} {c₁ c₂ c₃ : CompressedKVConnector} (h : AgreeAt id c₁ c₂)
    (h' : AgreeAt id c₂ c₃) : AgreeAt id c₁ c₃ :=
  ⟨h'.isProducer.trans h.isProducer, h'.prefill.trans h.prefill, h'.needLoad.trans h.needLoad⟩

/-- What a loop of passes does for one of its requests: its own pass, on a connector that
agrees with the first one about it. -/
def Own {ρ : Type} (pass : CompressedKVConnector → ρ → Option (CompressedKVConnector × List ReqMeta))
    (key : ρ → String) (c : CompressedKVConnector) (req : ρ) (c' : CompressedKVConnector)
    (metas : List ReqMeta) : Prop :=
  ∃ c₁ c₂ own, AgreeAt (key req) c c₁ ∧ pass c₁ req = some (c₂, own) ∧
    AgreeAt (key req) c₂ c' ∧ count (key req) metas = count (key req) own

/-- **A loop of local passes.** -/
theorem loop_spec {ρ : Type}
    {pass : CompressedKVConnector → ρ → Option (CompressedKVConnector × List ReqMeta)}
    {key : ρ → String} {reqs : List ρ} (h : loop pass c reqs = some (c', metas))
    (hpass : ∀ c req c' metas, pass c req = some (c', metas) → Frame c [key req] c' metas) :
    Frame c (reqs.map key) c' metas ∧
      ((reqs.map key).Nodup → ∀ req ∈ reqs, Own pass key c req c' metas) := by
  induction reqs generalizing c metas with
  | nil =>
      obtain ⟨rfl, rfl⟩ := Prod.mk.inj (Option.some.inj h)
      exact ⟨Frame.nil, fun _ req hreq => nomatch hreq⟩
  | cons req reqs ih =>
      obtain ⟨⟨c₁, first⟩, hfirst, h⟩ := Option.bind_eq_some_iff.mp h
      obtain ⟨⟨c₂, others⟩, hothers, h⟩ := Option.bind_eq_some_iff.mp h
      obtain ⟨rfl, rfl⟩ := Prod.mk.inj (Option.some.inj h)
      obtain ⟨hframe, hown⟩ := ih hothers
      refine ⟨(hpass _ _ _ _ hfirst).append hframe, fun hnodup r hr => ?_⟩
      obtain ⟨hfresh, hrest⟩ := List.nodup_cons.mp hnodup
      rcases List.mem_cons.mp hr with rfl | hr
      · refine ⟨c, c₁, first, AgreeAt.refl _ _, hfirst, hframe.agreeAt hfresh, ?_⟩
        rw [count_append, hframe.count_eq_zero hfresh, Nat.add_zero]
      · have hne : key r ∉ [key req] := fun hmem =>
          hfresh (List.mem_map.mpr ⟨r, hr, List.mem_singleton.mp hmem⟩)
        obtain ⟨c₃, c₄, own, hagree, hr', hafter, hcount⟩ := hown hrest r hr
        refine ⟨c₃, c₄, own, ((hpass _ _ _ _ hfirst).agreeAt hne).trans hagree, hr', hafter, ?_⟩
        rw [count_append, (hpass _ _ _ _ hfirst).count_eq_zero hne, Nat.zero_add, hcount]

theorem frame_reqMeta {id : String} (hproducer : c'.isProducer = c.isProducer)
    (hids : c'.requestTransferIds = c.requestTransferIds)
    (hprefill : ∀ other ≠ id, c'.chunkedPrefill other = c.chunkedPrefill other)
    (hload : ∀ other ≠ id, c'.requestsNeedLoad other = c.requestsNeedLoad other)
    (hmetas : ∀ m ∈ metas, ∃ tokenIds blockIds, m = c.reqMeta id tokenIds blockIds) :
    Frame c [id] c' metas := by
  refine ⟨hproducer, hids, fun m hmem => ?_, fun other hne => hprefill other (by simpa using hne),
    fun other hne => hload other (by simpa using hne)⟩
  obtain ⟨tokenIds, blockIds, rfl⟩ := hmetas m hmem
  exact ⟨List.mem_cons_self, rfl⟩

theorem frame_buildNew {req : NewReq} (h : buildNew out c req = some (c', metas)) :
    Frame c [req.reqId] c' metas := by
  unfold buildNew at h
  split at h
  · obtain ⟨n, -, h⟩ := Option.map_eq_some_iff.mp h
    split at h
    · obtain ⟨rfl, rfl⟩ := Prod.mk.inj h
      exact frame_reqMeta rfl rfl (fun other hne => Function.update_of_ne hne _ _)
        (fun _ _ => rfl) (fun m hmem => nomatch hmem)
    · obtain ⟨rfl, rfl⟩ := Prod.mk.inj h
      exact frame_reqMeta rfl rfl (fun _ _ => rfl) (fun _ _ => rfl) (fun m hmem => ⟨_, _, List.mem_singleton.mp hmem⟩)
  · split at h
    · obtain ⟨rfl, rfl⟩ := Prod.mk.inj (Option.some.inj h)
      exact frame_reqMeta rfl rfl (fun _ _ => rfl)
        (fun other hne => Function.update_of_ne hne _ _) (fun m hmem => ⟨_, _, List.mem_singleton.mp hmem⟩)
    · obtain ⟨rfl, rfl⟩ := Prod.mk.inj (Option.some.inj h)
      exact frame_reqMeta rfl rfl (fun _ _ => rfl) (fun _ _ => rfl) (fun m hmem => nomatch hmem)

theorem frame_buildCachedProducer {req : CachedReq}
    (h : buildCachedProducer out c req = some (c', metas)) : Frame c [req.reqId] c' metas := by
  obtain ⟨n, -, h⟩ := Option.bind_eq_some_iff.mp h
  obtain ⟨⟨blocks, prompt⟩, -, h⟩ := Option.bind_eq_some_iff.mp h
  obtain ⟨newBlockIds, -, h⟩ := Option.bind_eq_some_iff.mp h
  simp only at h
  split at h <;> obtain ⟨rfl, rfl⟩ := Prod.mk.inj (Option.some.inj h)
  · exact frame_reqMeta rfl rfl (fun other hne => Function.update_of_ne hne _ _)
      (fun _ _ => rfl) (fun m hmem => nomatch hmem)
  · exact frame_reqMeta rfl rfl (fun other hne => Function.update_of_ne hne _ _)
      (fun _ _ => rfl) (fun m hmem => ⟨_, _, List.mem_singleton.mp hmem⟩)

/-- On the producer the cached requests are a loop of local passes. -/
theorem buildCached_producer (hproducer : c.isProducer = true) (reqs : List CachedReq) :
    c.buildCached out reqs = loop (buildCachedProducer out) c reqs := by
  induction reqs generalizing c with
  | nil => rfl
  | cons req reqs ih =>
      rw [buildCached, if_pos hproducer, loop]
      refine Option.bind_congr fun r hr => ?_
      obtain ⟨c₁, first⟩ := r
      simp only
      rw [ih ((frame_buildCachedProducer hr).isProducer.trans hproducer)]

/-- A consumer that finds no load among the resumed requests it looks at emits none. -/
theorem buildCached_consumer (hconsumer : c.isProducer = false) {reqs : List CachedReq}
    (hdone : ∀ req ∈ reqs.takeWhile (·.reqId ∈ out.resumedReqIds),
      c.requestsNeedLoad req.reqId = none) : c.buildCached out reqs = some (c, []) := by
  induction reqs with
  | nil => rfl
  | cons req reqs ih =>
      rw [buildCached, if_neg (by simp [hconsumer])]
      by_cases hresumed : req.reqId ∈ out.resumedReqIds
      · rw [List.takeWhile_cons_of_pos (by simpa using hresumed)] at hdone
        have hnone := hdone req List.mem_cons_self
        have hrest := ih fun req hreq => hdone req (List.mem_cons_of_mem _ hreq)
        simp only [hresumed, not_true, if_false, buildResumed, hnone, Option.bind_eq_bind,
          Option.bind_some, hrest]
        rfl
      · rw [if_pos hresumed]

end Passes

end KVServe.Connector

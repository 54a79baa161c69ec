import Mathlib.Data.List.TakeWhile
import KVServe.Connector.Accounts

/-!
# KVServe.Connector.Pairing

**Loads and transfers are paired.** The producer emits one transfer for a request whose
prompt it has computed, however the prefill was cut up and preempted. The consumer emits
one load only if the request is admitted with more than one prompt token missing, and if
no resumed request it looks at still has a load to do: a resumed request is asked for its
external tokens again, and nothing on the producer answers a second load.
-/

namespace KVServe.Connector

open CompressedKVConnector

namespace Engine

variable {e e' : Engine} {news : List Admission} {cached : List CachedEntry}
  {scheduled : String → Nat}

/-! ### The producer -/

/-- What the producer has emitted for a request in each phase: nothing while the prefill is
being accumulated, one transfer after it. -/
def Sent (e : Engine) (id : String) (t : Tracked) : Prop :=
  match t.phase with
  | .waiting => e.connector.chunkedPrefill id = none ∧ count id e.emitted = 0
  | .running =>
      (∃ blocks, e.connector.chunkedPrefill id = some (blocks, t.request.promptTokenIds)) ∧
          count id e.emitted = 0 ∧ t.computed < t.request.promptTokenIds.length ∨
        e.connector.chunkedPrefill id = none ∧ count id e.emitted = 1
  | .preempted =>
      (∃ blocks, e.connector.chunkedPrefill id = some (blocks, t.request.promptTokenIds)) ∧
          count id e.emitted = 0 ∨
        e.connector.chunkedPrefill id = none ∧ count id e.emitted = 1
  | .finished => count id e.emitted = 1
  | .aborted => True

/-- The invariant of a producer. -/
structure ProducerInv (e : Engine) : Prop extends Inv e where
  isProducer : e.connector.isProducer = true
  sent : ∀ {id t}, e.requests id = some t → e.Sent id t
  unknownPrefill : ∀ {id}, e.requests id = none → e.connector.chunkedPrefill id = none

/-- The passes of a producer's step. -/
theorem buildConnectorMeta_producer {c c' : CompressedKVConnector} {metas : List ReqMeta}
    (hproducer : c.isProducer = true) (hnodup : (ids news cached).Nodup)
    (h : c.buildConnectorMeta (e.output news cached scheduled) = some (c', metas)) :
    Frame c (ids news cached) c' metas ∧
      (∀ a ∈ news, Own (buildNew (e.output news cached scheduled)) NewReq.reqId c (e.newReq a)
        c' metas) ∧
      ∀ entry ∈ cached, Own (buildCachedProducer (e.output news cached scheduled))
        CachedReq.reqId c (e.cachedReq entry) c' metas := by
  obtain ⟨⟨c₁, ms⟩, hnews, h⟩ := Option.bind_eq_some_iff.mp h
  obtain ⟨⟨c₂, ns⟩, hcached, h⟩ := Option.bind_eq_some_iff.mp h
  obtain ⟨rfl, rfl⟩ := Prod.mk.inj (Option.some.inj h)
  obtain ⟨hframe, hown⟩ := loop_spec hnews fun _ _ _ _ => frame_buildNew
  rw [buildCached_producer (hframe.isProducer.trans hproducer)] at hcached
  obtain ⟨hframe', hown'⟩ := loop_spec hcached fun _ _ _ _ => frame_buildCachedProducer
  have hnewIds : (e.output news cached scheduled).scheduledNewReqs.map NewReq.reqId =
      news.map (·.request.requestId) := by
    simp only [output, List.map_map]
    rfl
  have hcachedIds : (e.output news cached scheduled).scheduledCachedReqs.map CachedReq.reqId =
      cached.map CachedEntry.reqId := by
    simp only [output, List.map_map]
    refine List.map_congr_left fun entry _ => ?_
    cases entry <;> rfl
  rw [hnewIds] at hframe hown
  rw [hcachedIds] at hframe' hown'
  obtain ⟨hnodupNews, hnodupCached, hdisjoint⟩ := List.nodup_append.mp hnodup
  refine ⟨hframe.append hframe', fun a ha => ?_, fun entry hentry => ?_⟩
  · -- the cached requests come later and are others
    obtain ⟨c₃, c₄, own, hbefore, hpass, hafter, hcount⟩ :=
      hown hnodupNews (e.newReq a) (List.mem_map_of_mem ha)
    have hid : (e.newReq a).reqId ∉ cached.map CachedEntry.reqId := fun hmem =>
      hdisjoint _ (List.mem_map.mpr ⟨a, ha, rfl⟩) _ hmem rfl
    refine ⟨c₃, c₄, own, hbefore, hpass, hafter.trans (hframe'.agreeAt hid), ?_⟩
    rw [count_append, hframe'.count_eq_zero hid, Nat.add_zero, hcount]
  · obtain ⟨c₃, c₄, own, hbefore, hpass, hafter, hcount⟩ :=
      hown' hnodupCached (e.cachedReq entry) (List.mem_map_of_mem hentry)
    have hkey : (e.cachedReq entry).reqId = entry.reqId := by cases entry <;> rfl
    have hid : (e.cachedReq entry).reqId ∉ news.map (·.request.requestId) := fun hmem =>
      hdisjoint _ hmem _ (List.mem_map.mpr ⟨entry, hentry, rfl⟩) hkey
    refine ⟨c₃, c₄, own, (hframe.agreeAt hid).trans hbefore, hpass, hafter, ?_⟩
    rw [count_append, hframe.count_eq_zero hid, Nat.zero_add, hcount]

/-- A new request on the producer. -/
theorem own_buildNew_producer {out : SchedulerOutput} {c c' : CompressedKVConnector}
    {metas : List ReqMeta} {req : NewReq} {n : Nat} (hproducer : c.isProducer = true)
    (hn : out.numScheduledTokens req.reqId = some n)
    (h : Own (buildNew out) NewReq.reqId c req c' metas) :
    n + req.numComputedTokens < req.promptTokenIds.length ∧
        c'.chunkedPrefill req.reqId = some (req.blockIds, req.promptTokenIds) ∧
        count req.reqId metas = 0 ∨
      c'.chunkedPrefill req.reqId = c.chunkedPrefill req.reqId ∧ count req.reqId metas = 1 := by
  obtain ⟨c₁, c₂, own, hbefore, hpass, hafter, hcount⟩ := h
  rw [buildNew, if_pos (hbefore.isProducer.trans hproducer), hn, Option.map_some] at hpass
  have hpass := Option.some.inj hpass
  split at hpass
  · rename_i hshort
    obtain ⟨rfl, rfl⟩ := Prod.mk.inj hpass
    exact Or.inl ⟨hshort, hafter.prefill.trans (Function.update_self _ _ _), hcount⟩
  · obtain ⟨rfl, rfl⟩ := Prod.mk.inj hpass
    refine Or.inr ⟨hafter.prefill.trans hbefore.prefill, ?_⟩
    rw [hcount, count_reqMeta, if_pos rfl]

/-- A cached request on the producer: it has been accumulating. -/
theorem own_buildCachedProducer {out : SchedulerOutput} {c c' : CompressedKVConnector}
    {metas : List ReqMeta} {req : CachedReq} {n : Nat}
    (hn : out.numScheduledTokens req.reqId = some n)
    (h : Own (buildCachedProducer out) CachedReq.reqId c req c' metas) :
    ∃ blocks prompt, c.chunkedPrefill req.reqId = some (blocks, prompt) ∧
      (n + req.numComputedTokens < prompt.length ∧
          (∃ blocks', c'.chunkedPrefill req.reqId = some (blocks', prompt)) ∧
          count req.reqId metas = 0 ∨
        c'.chunkedPrefill req.reqId = none ∧ count req.reqId metas = 1) := by
  obtain ⟨c₁, c₂, own, hbefore, hpass, hafter, hcount⟩ := h
  obtain ⟨n', hn', hpass⟩ := Option.bind_eq_some_iff.mp hpass
  obtain rfl := Option.some.inj (hn'.symm.trans hn)
  obtain ⟨⟨blocks, prompt⟩, hprefill, hpass⟩ := Option.bind_eq_some_iff.mp hpass
  obtain ⟨newBlockIds, -, hpass⟩ := Option.bind_eq_some_iff.mp hpass
  refine ⟨blocks, prompt, hbefore.prefill.symm.trans hprefill, ?_⟩
  simp only at hpass
  split at hpass
  · rename_i hshort
    obtain ⟨rfl, rfl⟩ := Prod.mk.inj (Option.some.inj hpass)
    exact Or.inl ⟨hshort, ⟨_, hafter.prefill.trans (Function.update_self _ _ _)⟩, hcount⟩
  · obtain ⟨rfl, rfl⟩ := Prod.mk.inj (Option.some.inj hpass)
    refine Or.inr ⟨hafter.prefill.trans (Function.update_self _ _ _), ?_⟩
    · rw [hcount, count_reqMeta, if_pos rfl]

/-- A request that is scheduled again has been accumulating, or its transfer is out. -/
theorem ProducerInv.accumulating (h : e.ProducerInv) {id : String} {t : Tracked}
    (ht : e.requests id = some t) (hphase : t.phase = .running ∨ t.phase = .preempted)
    {blocks prompt : List Nat} (hprefill : e.connector.chunkedPrefill id = some (blocks, prompt)) :
    prompt = t.request.promptTokenIds ∧ count id e.emitted = 0 := by
  have hsent := h.sent ht
  unfold Sent at hsent
  rcases hphase with hphase | hphase
  · rw [hphase] at hsent
    rcases hsent with ⟨⟨blocks', heq⟩, hcount, -⟩ | ⟨hnone, -⟩
    · rw [hprefill] at heq
      exact ⟨congrArg Prod.snd (Option.some.inj heq), hcount⟩
    · rw [hprefill] at hnone
      cases hnone
  · rw [hphase] at hsent
    rcases hsent with ⟨⟨blocks', heq⟩, hcount⟩ | ⟨hnone, -⟩
    · rw [hprefill] at heq
      exact ⟨congrArg Prod.snd (Option.some.inj heq), hcount⟩
    · rw [hprefill] at hnone
      cases hnone

theorem ProducerInv.schedule (h : e.ProducerInv)
    (hstep : e.schedule news cached scheduled = some e') : e'.ProducerInv := by
  obtain ⟨hnodup, hnews, hcached, c, metas, hbuild, rfl⟩ := schedule_some hstep
  obtain ⟨hallocProducer, hallocPrefill⟩ :=
    foldl_alloc_static e.connector (admissions news cached)
  have hproducer : (e.allocated news cached).isProducer = true :=
    hallocProducer.trans h.isProducer
  obtain ⟨hframe, hownNews, hownCached⟩ := buildConnectorMeta_producer hproducer hnodup hbuild
  have hprefill : (e.allocated news cached).chunkedPrefill = e.connector.chunkedPrefill :=
    hallocPrefill
  refine ⟨h.toInv.schedule hnodup hnews hcached hframe, hframe.isProducer.trans hproducer,
    fun {id t} ht => ?_, fun {id} hnone => ?_⟩
  · obtain ⟨t₀, ht₀, rfl⟩ := Option.map_eq_some_iff.mp ht
    by_cases hid : id ∈ ids news cached
    · -- the transfer of a scheduled request is out, or the request runs with a short prompt
      have hrequest : (e.advance news cached scheduled id t₀).request = t₀.request :=
        advance_request id t₀
      suffices hgoal : (∃ blocks, c.chunkedPrefill id =
            some (blocks, t₀.request.promptTokenIds)) ∧ count id (e.emitted ++ metas) = 0 ∧
            (e.advance news cached scheduled id t₀).computed <
              t₀.request.promptTokenIds.length ∨
          c.chunkedPrefill id = none ∧ count id (e.emitted ++ metas) = 1 by
        unfold Sent
        rw [advance_phase hnodup hcached hid ht₀, hrequest]
        exact hgoal
      have hagain : ∀ entry ∈ cached, entry.reqId = id →
          t₀.phase = .running ∨ t₀.phase = .preempted →
          (e.advance news cached scheduled id t₀).computed =
            scheduled id + (e.cachedReq entry).numComputedTokens →
          (∃ blocks, c.chunkedPrefill id = some (blocks, t₀.request.promptTokenIds)) ∧
            count id (e.emitted ++ metas) = 0 ∧
            (e.advance news cached scheduled id t₀).computed <
              t₀.request.promptTokenIds.length ∨
          c.chunkedPrefill id = none ∧ count id (e.emitted ++ metas) = 1 := by
        intro entry hentry hkey hphase hcomputed
        have hkey' : (e.cachedReq entry).reqId = id := by
          rw [← hkey]
          cases entry <;> rfl
        obtain ⟨blocks, prompt, hbefore, hafter⟩ :=
          own_buildCachedProducer (n := scheduled (e.cachedReq entry).reqId) rfl
            (hownCached entry hentry)
        rw [hkey', hprefill] at hbefore
        obtain ⟨rfl, hcount⟩ := h.accumulating ht₀ hphase hbefore
        rw [hkey'] at hafter
        rw [count_append, hcount, Nat.zero_add, hcomputed]
        rcases hafter with ⟨hshort, hblocks, hzero⟩ | ⟨hnone, hone⟩
        · exact Or.inl ⟨hblocks, hzero, hshort⟩
        · exact Or.inr ⟨hnone, hone⟩
      rcases scheduled_cases hcached hid with ⟨a, ha, rfl⟩ | ⟨blocks, t, hentry, ht, hphase⟩
      · obtain ⟨t, ht, htrequest, hphase⟩ := admitted_phase hnews hcached ha
        obtain rfl : t₀ = t := Option.some.inj (ht₀.symm.trans ht)
        have hcomputed : (e.advance news cached scheduled a.request.requestId t₀).computed =
            scheduled a.request.requestId + (a.numComputed + e.external a) := by
          rw [advance_admitted hnodup ha]
          exact Nat.add_comm _ _
        rcases hphase with ⟨hphase, ha⟩ | ⟨hphase, hentry⟩
        · have hwaiting := h.sent ht
          unfold Sent at hwaiting
          rw [hphase] at hwaiting
          have hprompt : t₀.request.promptTokenIds = a.request.promptTokenIds := by
            rw [htrequest]
            rfl
          rw [count_append, hwaiting.2, Nat.zero_add, hcomputed, hprompt]
          rcases own_buildNew_producer (n := scheduled a.request.requestId) hproducer rfl
            (hownNews a ha) with ⟨hshort, hblocks, hzero⟩ | ⟨hsame, hone⟩
          · exact Or.inl ⟨⟨_, hblocks⟩, hzero, hshort⟩
          · refine Or.inr ⟨hsame.trans ?_, hone⟩
            rw [hprefill]
            exact hwaiting.1
        · exact hagain _ hentry rfl (Or.inr hphase) hcomputed
      · obtain rfl : t₀ = t := Option.some.inj (ht₀.symm.trans ht)
        refine hagain _ hentry rfl (Or.inl hphase) ?_
        rw [advance_running hnodup hentry]
        simp only [cachedReq, computedOf, ht, Option.map_some, Option.getD_some]
        exact Nat.add_comm _ _
    · have hsent := h.sent ht₀
      unfold Sent at hsent ⊢
      simp only [advance_of_not_mem hid, count_append, hframe.count_eq_zero hid, Nat.add_zero,
        hframe.prefill id hid, hprefill]
      exact hsent
  · have hnone₀ : e.requests id = none := by simpa using hnone
    have hid : id ∉ ids news cached := fun hmem => by
      rcases scheduled_cases hcached hmem with ⟨a, ha, rfl⟩ | ⟨blocks, t, -, ht, -⟩
      · obtain ⟨t, ht, -⟩ := admitted_phase hnews hcached ha
        rw [hnone₀] at ht
        cases ht
      · rw [hnone₀] at ht
        cases ht
    show c.chunkedPrefill id = none
    rw [hframe.prefill id hid, hprefill, h.unknownPrefill hnone₀]

/-- **The producer keeps its account.** -/
theorem ProducerInv.step (h : e.ProducerInv) {a : Action} (hstep : e.step a = some e') :
    e'.ProducerInv := by
  rcases step_cases hstep with ⟨request, hfresh, hissued, rfl⟩ |
    ⟨news, cached, scheduled, -, hschedule⟩ | ⟨id, t, phase, ht, hcase⟩
  · refine ⟨h.toInv.add hfresh hissued, h.isProducer, fun {id t} hget => ?_,
      fun {id} hnone => ?_⟩
    · rcases @setTracked_some e { request } t id hget with ⟨rfl, rfl⟩ | ⟨-, hget⟩
      · exact ⟨h.unknownPrefill hfresh, h.toInv.count_unknown hfresh⟩
      · exact h.sent hget
    · exact h.unknownPrefill (@setTracked_none e { request } id hnone).2
  · exact h.schedule hschedule
  · have hkey := h.key ht
    have hsent := h.sent ht
    rcases hcase with ⟨hphase, rfl, rfl⟩ | ⟨hphase, rfl⟩
    · refine ⟨h.toInv.preempt ht hphase, h.isProducer, fun {other u} hget => ?_,
        fun {other} hnone => ?_⟩
      · rcases setTracked_some hget with ⟨heq, rfl⟩ | ⟨-, hget⟩
        · obtain rfl : other = id := heq.trans hkey
          unfold Sent at hsent
          rw [hphase] at hsent
          rcases hsent with ⟨hblocks, hcount, -⟩ | hdone
          · exact Or.inl ⟨hblocks, hcount⟩
          · exact Or.inr hdone
        · exact h.sent hget
      · exact h.unknownPrefill (setTracked_none hnone).2
    · have hleft : ∀ other ≠ id, (e.leave id t phase).connector.chunkedPrefill other =
          e.connector.chunkedPrefill other := fun other hne => Function.update_of_ne hne _ _
      refine ⟨h.toInv.leave ht (hphase.imp_left And.left), h.isProducer,
        fun {other u} hget => ?_, fun {other} hnone => ?_⟩
      · rcases @setTracked_some e { t with phase } u other hget with ⟨heq, rfl⟩ | ⟨hne, hget⟩
        · obtain rfl : other = id := heq.trans hkey
          rcases hphase with ⟨rfl, hrunning, hlength⟩ | rfl
          · unfold Sent at hsent
            rw [hrunning] at hsent
            rcases hsent with ⟨-, -, hshort⟩ | ⟨-, hcount⟩
            · omega
            · exact hcount
          · exact trivial
        · have hother := h.sent hget
          unfold Sent at hother ⊢
          rw [hleft other (hkey ▸ hne)]
          exact hother
      · obtain ⟨hne, hnone⟩ := @setTracked_none e { t with phase } other hnone
        rw [hleft other (hkey ▸ hne), h.unknownPrefill hnone]

/-! ### The consumer -/

/-- What the consumer has emitted for a request in each phase: one load from its admission
on. -/
def Loaded (e : Engine) (id : String) (t : Tracked) : Prop :=
  match t.phase with
  | .waiting => e.connector.requestsNeedLoad id = none ∧ count id e.emitted = 0
  | .running | .preempted | .finished => count id e.emitted = 1
  | .aborted => True

/-- The invariant of a consumer whose requests are loaded once. -/
structure ConsumerInv (e : Engine) : Prop extends Inv e where
  isConsumer : e.connector.isProducer = false
  loaded : ∀ {id t}, e.requests id = some t → e.Loaded id t
  unknownLoad : ∀ {id}, e.requests id = none → e.connector.requestsNeedLoad id = none

/-- A new request has more than one prompt token missing, and the resumed requests at the
head of the cached ones have nothing to load: at most one prompt token is missing, and no
load is left from an earlier step. -/
def LoadsOnce (e : Engine) : Action → Prop
  | .schedule news cached _ =>
      (∀ a ∈ news, a.numComputed + 1 < a.request.promptTokenIds.length) ∧
        ∀ a ∈ (cached.takeWhile (·.admission?.isSome)).filterMap CachedEntry.admission?,
          a.request.promptTokenIds.length ≤ a.numComputed + 1 ∧
            e.connector.requestsNeedLoad a.request.requestId = none
  | _ => True

instance (e : Engine) (a : Action) : Decidable (e.LoadsOnce a) := by
  cases a <;> unfold LoadsOnce <;> infer_instance

theorem takeWhile_of_forall {α : Type} {p q : α → Bool} {l : List α} (h : ∀ x ∈ l, p x = q x) :
    l.takeWhile p = l.takeWhile q := by
  induction l with
  | nil => rfl
  | cons x l ih =>
      rw [List.takeWhile_cons, List.takeWhile_cons, h x List.mem_cons_self,
        ih fun y hy => h y (List.mem_cons_of_mem _ hy)]

/-- The rows that are marked as resumed. -/
theorem mem_resumedReqIds (hnodup : (cached.map CachedEntry.reqId).Nodup) {entry : CachedEntry}
    (hentry : entry ∈ cached) :
    (e.cachedReq entry).reqId ∈ (e.output news cached scheduled).resumedReqIds ↔
      entry.admission?.isSome = true := by
  cases entry with
  | running id blocks =>
      refine ⟨fun hmem => ?_, fun h => nomatch h⟩
      obtain ⟨a, ha, hkey⟩ := List.mem_map.mp hmem
      obtain ⟨entry, hentry', hsome⟩ := List.mem_filterMap.mp ha
      cases entry with
      | running id blocks => cases hsome
      | resumed b =>
          obtain rfl := Option.some.inj hsome
          have hsame := List.inj_on_of_nodup_map hnodup hentry hentry' hkey.symm
          cases hsame
  | resumed a =>
      refine ⟨fun _ => rfl, fun _ => List.mem_map.mpr ⟨a, ?_, rfl⟩⟩
      exact List.mem_filterMap.mpr ⟨_, hentry, rfl⟩

/-- The resumed requests the consumer looks at. -/
theorem takeWhile_resumed (hnodup : (cached.map CachedEntry.reqId).Nodup) {req : CachedReq}
    (hreq : req ∈ (e.output news cached scheduled).scheduledCachedReqs.takeWhile
      (·.reqId ∈ (e.output news cached scheduled).resumedReqIds)) :
    ∃ a, CachedEntry.resumed a ∈ cached.takeWhile (·.admission?.isSome) ∧
      req.reqId = a.request.requestId := by
  have hiff : ∀ entry ∈ cached, (decide ((e.cachedReq entry).reqId ∈
      (e.output news cached scheduled).resumedReqIds)) = entry.admission?.isSome := by
    intro entry hentry
    rw [Bool.eq_iff_iff, decide_eq_true_eq]
    exact mem_resumedReqIds hnodup hentry
  have htake : (e.output news cached scheduled).scheduledCachedReqs.takeWhile
      (·.reqId ∈ (e.output news cached scheduled).resumedReqIds) =
      (cached.takeWhile (·.admission?.isSome)).map e.cachedReq := by
    show (cached.map e.cachedReq).takeWhile _ = _
    rw [List.takeWhile_map]
    exact congrArg _ (takeWhile_of_forall hiff)
  rw [htake] at hreq
  obtain ⟨entry, hentry, rfl⟩ := List.mem_map.mp hreq
  have hsome := List.mem_takeWhile_imp hentry
  cases entry with
  | running id blocks => cases hsome
  | resumed a => exact ⟨a, hentry, rfl⟩

/-- A new request on the consumer that has something to load. -/
theorem own_buildNew_consumer {out : SchedulerOutput} {c c' : CompressedKVConnector}
    {metas : List ReqMeta} {req : NewReq} (hconsumer : c.isProducer = false)
    (hload : c.requestsNeedLoad req.reqId ≠ none)
    (h : Own (buildNew out) NewReq.reqId c req c' metas) : count req.reqId metas = 1 := by
  obtain ⟨c₁, c₂, own, hbefore, hpass, hafter, hcount⟩ := h
  rw [buildNew, if_neg (by rw [hbefore.isProducer, hconsumer]; exact Bool.false_ne_true)] at hpass
  split at hpass
  · obtain ⟨rfl, rfl⟩ := Prod.mk.inj (Option.some.inj hpass)
    rw [hcount, count_reqMeta, if_pos rfl]
  · rename_i hnone
    exact absurd (hbefore.needLoad.symm.trans hnone) hload

theorem ConsumerInv.schedule (h : e.ConsumerInv) (hok : e.LoadsOnce (.schedule news cached scheduled))
    (hstep : e.schedule news cached scheduled = some e') : e'.ConsumerInv := by
  obtain ⟨hnodup, hnews, hcached, c, metas, hbuild, rfl⟩ := schedule_some hstep
  obtain ⟨hfull, hdone⟩ := hok
  obtain ⟨hallocProducer, -⟩ := foldl_alloc_static e.connector (admissions news cached)
  obtain ⟨hloadOther, hloadOwn⟩ := foldl_alloc_requestsNeedLoad e.connector
    (hnodup.sublist (admissions_sublist news cached))
  have hconsumer : (e.allocated news cached).isProducer = false :=
    hallocProducer.trans h.isConsumer
  obtain ⟨hnodupNews, hnodupCached, hdisjoint⟩ := List.nodup_append.mp hnodup
  -- the new requests emit their loads, and the cached ones nothing
  obtain ⟨⟨c₁, ms⟩, hloop, hbuild⟩ := Option.bind_eq_some_iff.mp hbuild
  obtain ⟨hframe, hown⟩ := loop_spec hloop fun _ _ _ _ => frame_buildNew
  have hnewIds : (e.output news cached scheduled).scheduledNewReqs.map NewReq.reqId =
      news.map (·.request.requestId) := by
    simp only [output, List.map_map]
    rfl
  rw [hnewIds] at hframe hown
  have hnothing : ∀ req ∈ (e.output news cached scheduled).scheduledCachedReqs.takeWhile
      (·.reqId ∈ (e.output news cached scheduled).resumedReqIds),
      c₁.requestsNeedLoad req.reqId = none := by
    intro req hreq
    obtain ⟨a, ha, hkey⟩ := takeWhile_resumed hnodupCached hreq
    have hentry : CachedEntry.resumed a ∈ cached := (List.takeWhile_prefix _).subset ha
    have hid : a.request.requestId ∉ news.map (·.request.requestId) := fun hmem =>
      hdisjoint _ hmem _ (List.mem_map.mpr ⟨_, hentry, rfl⟩) rfl
    have hadmitted : a ∈ admissions news cached :=
      List.mem_append_right _ (List.mem_filterMap.mpr ⟨_, hentry, rfl⟩)
    obtain ⟨hshort, hpending⟩ := hdone a (List.mem_filterMap.mpr ⟨_, ha, rfl⟩)
    rw [hkey, hframe.needLoad _ hid]
    refine (hloadOwn a hadmitted).trans ?_
    rw [if_neg (by omega), hpending]
  obtain ⟨⟨c₂, ns⟩, hrest, hbuild⟩ := Option.bind_eq_some_iff.mp hbuild
  rw [buildCached_consumer (hframe.isProducer.trans hconsumer) hnothing] at hrest
  obtain ⟨rfl, rfl⟩ := Prod.mk.inj (Option.some.inj hrest)
  obtain ⟨rfl, rfl⟩ := Prod.mk.inj (Option.some.inj hbuild)
  rw [List.append_nil]
  have hwide : Frame (e.allocated news cached) (ids news cached) c₁ ms :=
    ⟨hframe.isProducer, hframe.transferIds,
      fun m hm => ⟨List.mem_append_left _ (hframe.named m hm).1, (hframe.named m hm).2⟩,
      fun id hid => hframe.prefill id fun hmem => hid (List.mem_append_left _ hmem),
      fun id hid => hframe.needLoad id fun hmem => hid (List.mem_append_left _ hmem)⟩
  have hkept : ∀ id ∉ ids news cached,
      c₁.requestsNeedLoad id = e.connector.requestsNeedLoad id := fun id hid =>
    (hwide.needLoad id hid).trans
      (hloadOther id fun hmem => hid ((admissions_sublist news cached).subset hmem))
  refine ⟨h.toInv.schedule hnodup hnews hcached hwide, hframe.isProducer.trans hconsumer,
    fun {id t} ht => ?_, fun {id} hnone => ?_⟩
  · obtain ⟨t₀, ht₀, rfl⟩ := Option.map_eq_some_iff.mp ht
    have hloaded := h.loaded ht₀
    by_cases hid : id ∈ ids news cached
    · suffices hgoal : count id (e.emitted ++ ms) = 1 by
        unfold Loaded
        rw [advance_phase hnodup hcached hid ht₀]
        exact hgoal
      by_cases hnew : id ∈ news.map (·.request.requestId)
      · obtain ⟨a, ha, rfl⟩ := List.mem_map.mp hnew
        obtain ⟨t, ht, hphase, -⟩ := admits_some (hnews a ha)
        obtain rfl : t₀ = t := Option.some.inj (ht₀.symm.trans ht)
        unfold Loaded at hloaded
        rw [hphase] at hloaded
        have hneed : (e.allocated news cached).requestsNeedLoad a.request.requestId ≠ none := by
          rw [show (e.allocated news cached).requestsNeedLoad a.request.requestId = _ from
            hloadOwn a (List.mem_append_left _ ha), if_pos ⟨h.isConsumer, hfull a ha⟩]
          exact Option.some_ne_none _
        have hone := own_buildNew_consumer hconsumer hneed
          (hown hnodupNews (e.newReq a) (List.mem_map_of_mem ha))
        rw [count_append, hloaded.2, Nat.zero_add]
        exact hone
      · rw [count_append, hframe.count_eq_zero hnew, Nat.add_zero]
        have hlive : t₀.phase = .running ∨ t₀.phase = .preempted := by
          rcases scheduled_cases hcached hid with ⟨a, ha, rfl⟩ | ⟨blocks, t, -, ht, hphase⟩
          · obtain ⟨t, ht, -, ⟨-, ha⟩ | ⟨hphase, -⟩⟩ := admitted_phase hnews hcached ha
            · exact absurd (List.mem_map.mpr ⟨a, ha, rfl⟩) hnew
            · rw [Option.some.inj (ht₀.symm.trans ht)]
              exact Or.inr hphase
          · rw [Option.some.inj (ht₀.symm.trans ht)]
            exact Or.inl hphase
        unfold Loaded at hloaded
        rcases hlive with hphase | hphase <;> rw [hphase] at hloaded <;> exact hloaded
    · have hnew : id ∉ news.map (·.request.requestId) := fun hmem =>
        hid (List.mem_append_left _ hmem)
      unfold Loaded at hloaded ⊢
      simp only [advance_of_not_mem hid, count_append, hframe.count_eq_zero hnew, Nat.add_zero,
        hkept id hid]
      exact hloaded
  · have hnone₀ : e.requests id = none := by simpa using hnone
    have hid : id ∉ ids news cached := fun hmem => by
      rcases scheduled_cases hcached hmem with ⟨a, ha, rfl⟩ | ⟨blocks, t, -, ht, -⟩
      · obtain ⟨t, ht, -⟩ := admitted_phase hnews hcached ha
        rw [hnone₀] at ht
        cases ht
      · rw [hnone₀] at ht
        cases ht
    exact (hkept id hid).trans (h.unknownLoad hnone₀)

/-- **The consumer keeps its account**, if its steps load once. -/
theorem ConsumerInv.step (h : e.ConsumerInv) {a : Action} (hok : e.LoadsOnce a)
    (hstep : e.step a = some e') : e'.ConsumerInv := by
  rcases step_cases hstep with ⟨request, hfresh, hissued, rfl⟩ |
    ⟨news, cached, scheduled, rfl, hschedule⟩ | ⟨id, t, phase, ht, hcase⟩
  · refine ⟨h.toInv.add hfresh hissued, h.isConsumer, fun {id t} hget => ?_,
      fun {id} hnone => ?_⟩
    · rcases @setTracked_some e { request } t id hget with ⟨rfl, rfl⟩ | ⟨-, hget⟩
      · exact ⟨h.unknownLoad hfresh, h.toInv.count_unknown hfresh⟩
      · exact h.loaded hget
    · exact h.unknownLoad (@setTracked_none e { request } id hnone).2
  · exact h.schedule hok hschedule
  · have hkey := h.key ht
    have hloaded := h.loaded ht
    unfold Loaded at hloaded
    rcases hcase with ⟨hphase, rfl, rfl⟩ | ⟨hphase, rfl⟩
    · refine ⟨h.toInv.preempt ht hphase, h.isConsumer, fun {other u} hget => ?_,
        fun {other} hnone => ?_⟩
      · rcases setTracked_some hget with ⟨heq, rfl⟩ | ⟨-, hget⟩
        · obtain rfl : other = id := heq.trans hkey
          rw [hphase] at hloaded
          exact hloaded
        · exact h.loaded hget
      · exact h.unknownLoad (setTracked_none hnone).2
    · have hleft : ∀ other ≠ id, (e.leave id t phase).connector.requestsNeedLoad other =
          e.connector.requestsNeedLoad other := by
        intro other hne
        show (if e.connector.isProducer then e.connector.requestsNeedLoad
          else Function.update e.connector.requestsNeedLoad id none) other = _
        rw [h.isConsumer, if_neg Bool.false_ne_true, Function.update_of_ne hne]
      refine ⟨h.toInv.leave ht (hphase.imp_left And.left), h.isConsumer,
        fun {other u} hget => ?_, fun {other} hnone => ?_⟩
      · rcases @setTracked_some e { t with phase } u other hget with ⟨heq, rfl⟩ | ⟨hne, hget⟩
        · obtain rfl : other = id := heq.trans hkey
          rcases hphase with ⟨rfl, hrunning, -⟩ | rfl
          · rw [hrunning] at hloaded
            exact hloaded
          · exact trivial
        · have hother := h.loaded hget
          unfold Loaded at hother ⊢
          rw [hleft other (hkey ▸ hne)]
          exact hother
      · obtain ⟨hne, hnone⟩ := @setTracked_none e { t with phase } other hnone
        rw [hleft other (hkey ▸ hne), h.unknownLoad hnone]

theorem inv_fresh (c : CompressedKVConnector)
    (hids : ∀ id, c.requestTransferIds id = none) : Inv { connector := c } :=
  ⟨fun h => (nomatch h), fun h => (nomatch h), fun h => (nomatch h), fun h => (nomatch h),
    fun h => (nomatch h), fun _ h => (nomatch h), fun _ => hids _⟩

end Engine

/-! ### The pair -/

namespace Pair

/-- The step of the consumer loads once. -/
def LoadsOnce (p : Pair) : PairAction → Prop
  | .producer _ => True
  | .consumer a => p.consumer.LoadsOnce a

instance (p : Pair) (a : PairAction) : Decidable (p.LoadsOnce a) := by
  cases a <;> unfold LoadsOnce <;> infer_instance

theorem inv_of_reach {p : Pair} (h : machine.ReachWith LoadsOnce p) :
    p.producer.ProducerInv ∧ p.consumer.ConsumerInv := by
  refine Machine.invariant (I := fun p => p.producer.ProducerInv ∧ p.consumer.ConsumerInv)
    ?_ ?_ h
  · rintro p ⟨blockSize, blockSize', rfl⟩
    exact ⟨⟨Engine.inv_fresh _ fun _ => rfl, rfl, fun h => (nomatch h), fun _ => rfl⟩,
      ⟨Engine.inv_fresh _ fun _ => rfl, rfl, fun h => (nomatch h), fun _ => rfl⟩⟩
  · intro p a q _ hinv hok hstep
    cases a with
    | producer a =>
        obtain ⟨e, he, rfl⟩ := Option.map_eq_some_iff.mp hstep
        exact ⟨hinv.1.step he, hinv.2⟩
    | consumer a =>
        obtain ⟨e, he, rfl⟩ := Option.map_eq_some_iff.mp hstep
        exact ⟨hinv.1, hinv.2.step hok he⟩

/-- **Every load has its transfer.** In a run in which the consumer's steps load once, a
request that has finished on both sides was transferred once and loaded once. -/
theorem loads_eq_transfers {p : Pair} (h : machine.ReachWith LoadsOnce p) {transferId : String}
    (hproducer : p.producer.Finished transferId) (hconsumer : p.consumer.Finished transferId) :
    p.transfers transferId = 1 ∧ p.loads transferId = p.transfers transferId := by
  obtain ⟨hpinv, hcinv⟩ := inv_of_reach h
  have htransfers : p.transfers transferId = 1 := by
    obtain ⟨id, t, ht, rfl, hphase⟩ := hproducer
    have hsent := hpinv.sent ht
    unfold Engine.Sent at hsent
    rw [hphase] at hsent
    exact (hpinv.toInv.emissions ht).trans hsent
  have hloads : p.loads transferId = 1 := by
    obtain ⟨id, t, ht, rfl, hphase⟩ := hconsumer
    have hloaded := hcinv.loaded ht
    unfold Engine.Loaded at hloaded
    rw [hphase] at hloaded
    exact (hcinv.toInv.emissions ht).trans hloaded
  exact ⟨htransfers, hloads.trans htransfers.symm⟩

/-- Two fresh engines with blocks of two tokens. -/
def fresh : Pair :=
  { producer := { connector := { isProducer := true, blockSize := 2 } }
    consumer := { connector := { isProducer := false, blockSize := 2 } } }

theorem initial_fresh : Initial fresh := ⟨2, 2, rfl⟩

/-- A request the router sends to both engines. -/
def sampleRequest (prompt : List Nat) : Request :=
  { requestId := "r", promptTokenIds := prompt, transferId := some "t" }

/-- The producer computes a prompt in one step. -/
def produce (prompt : List Nat) : List PairAction :=
  [.producer (.add (sampleRequest prompt)),
    .producer (.schedule [⟨sampleRequest prompt, 0, [0, 1]⟩] [] fun _ => prompt.length),
    .producer (.finish "r")]

/-- The consumer admits the request with nothing cached. -/
def consume (prompt : List Nat) : List PairAction :=
  [.consumer (.add (sampleRequest prompt)),
    .consumer (.schedule [⟨sampleRequest prompt, 0, [0, 1]⟩] [] fun _ => 1)]

/-- A chunked prefill that is preempted in between, and a consumer that is preempted and
resumed behind a full prefix-cache hit. -/
def preempted : List PairAction :=
  [.producer (.add (sampleRequest [5, 6, 7])),
    .producer (.schedule [⟨sampleRequest [5, 6, 7], 0, [0]⟩] [] fun _ => 2),
    .producer (.preempt "r"),
    .producer (.schedule [] [.resumed ⟨sampleRequest [5, 6, 7], 0, [3]⟩] fun _ => 1),
    .producer (.schedule [] [.running "r" (some [4])] fun _ => 2),
    .producer (.finish "r")] ++ consume [5, 6, 7] ++
  [.consumer (.preempt "r"),
    .consumer (.schedule [] [.resumed ⟨sampleRequest [5, 6, 7], 2, [0, 1]⟩] fun _ => 1),
    .consumer (.finish "r")]

/-- The request of that run is loaded and transferred once. -/
theorem loads_eq_transfers_preempted : ∃ p, machine.ReachWith LoadsOnce p ∧
    p.producer.Finished "t" ∧ p.consumer.Finished "t" ∧ p.transfers "t" = 1 ∧
      p.loads "t" = p.transfers "t" := by
  let p := (machine.exec (fun p a => decide (p.LoadsOnce a)) fresh preempted).get (by decide)
  have hreach : machine.ReachWith LoadsOnce p :=
    (Machine.reachWith_of_exec initial_fresh (Option.some_get _).symm).mono
      fun _ _ h => of_decide_eq_true h
  have hproducer : p.producer.Finished "t" := ⟨"r", ⟨sampleRequest [5, 6, 7], .finished, 3⟩, by decide⟩
  have hconsumer : p.consumer.Finished "t" := ⟨"r", ⟨sampleRequest [5, 6, 7], .finished, 3⟩, by decide⟩
  exact ⟨p, hreach, hproducer, hconsumer, loads_eq_transfers hreach hproducer hconsumer⟩

/-- A prompt of one token is transferred and never loaded; a request that is preempted
and resumed with nothing cached is loaded twice. -/
theorem loads_ne_transfers :
    (∃ p, machine.Reachable p ∧ p.producer.Finished "t" ∧ p.consumer.Finished "t" ∧
      p.transfers "t" = 1 ∧ p.loads "t" = 0) ∧
    ∃ p, machine.Reachable p ∧ p.producer.Finished "t" ∧ p.consumer.Finished "t" ∧
      p.transfers "t" = 1 ∧ p.loads "t" = 2 := by
  have hrun : ∀ run (h : (machine.exec (fun _ _ => true) fresh run).isSome),
      machine.Reachable ((machine.exec (fun _ _ => true) fresh run).get h) := fun run h =>
    (Machine.reachWith_of_exec initial_fresh (Option.some_get _).symm).mono fun _ _ _ => trivial
  refine ⟨⟨_, hrun (produce [5] ++ consume [5] ++ [.consumer (.finish "r")]) (by decide),
      ⟨"r", ⟨sampleRequest [5], .finished, 1⟩, by decide⟩,
      ⟨"r", ⟨sampleRequest [5], .finished, 1⟩, by decide⟩, by decide, by decide⟩,
    ⟨_, hrun (produce [5, 6, 7] ++ consume [5, 6, 7] ++
        [.consumer (.preempt "r"),
          .consumer (.schedule [] [.resumed ⟨sampleRequest [5, 6, 7], 0, [0, 1]⟩] fun _ => 1),
          .consumer (.finish "r")]) (by decide),
      ⟨"r", ⟨sampleRequest [5, 6, 7], .finished, 3⟩, by decide⟩,
      ⟨"r", ⟨sampleRequest [5, 6, 7], .finished, 3⟩, by decide⟩, by decide, by decide⟩⟩

end Pair

end KVServe.Connector

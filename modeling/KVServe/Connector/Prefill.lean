import KVServe.Connector.Pairing

/-!
# KVServe.Connector.Prefill

**A chunked prefill is transferred whole.** The producer rebuilds the block table of a
request from the deltas of its steps and emits it in the first step that reaches the end
of the prompt. Here the scheduler's own block table is kept next to the connector's, and
the two agree as long as `build_connector_meta` does not raise. It raises when a step of a
running request adds no block, for which the scheduler reports `None`, and when a request
is resumed whose transfer is out.
-/

namespace KVServe.Connector

open CompressedKVConnector

/-- A producer and what its scheduler knows of the prefills. -/
structure Prefill where
  engine : Engine
  /-- The block table of each running request. -/
  table : String → List Nat := fun _ => []
  /-- The block table of the first step that reached the end of the prompt. -/
  reached : String → Option (List Nat) := fun _ => none
  /-- An exception left `build_connector_meta`. -/
  failed : Bool := false

/-- The blocks a row adds to the table of a request. -/
def CachedEntry.added (id : String) : CachedEntry → List Nat
  | .running id' newBlockIds => if id' = id then newBlockIds.getD [] else []
  | .resumed _ => []

namespace Prefill

/-- The row schedules tokens of a prompt; `None` stands for no new block. -/
def chunks (p : Prefill) : CachedEntry → Bool
  | .running id newBlockIds => p.reached id = none ∧ newBlockIds ≠ some []
  | .resumed _ => true

/-- The scheduler may split the prompts so. -/
def Splits (p : Prefill) (news : List Admission) (cached : List CachedEntry)
    (scheduled : String → Nat) : Prop :=
  (Engine.ids news cached).Nodup ∧ news.all (p.engine.admits .waiting) ∧
    cached.all p.engine.runs ∧ cached.all p.chunks ∧
    ∀ id ∈ Engine.ids news cached, 1 ≤ scheduled id

instance (p : Prefill) (news : List Admission) (cached : List CachedEntry)
    (scheduled : String → Nat) : Decidable (p.Splits news cached scheduled) := by
  unfold Splits
  infer_instance

/-- The block table of a request after a step: an admission brings a table, a running
request keeps its own. -/
def tableAfter (p : Prefill) (news : List Admission) (cached : List CachedEntry) (id : String) :
    List Nat :=
  match (Engine.admissions news cached).find? (·.request.requestId = id) with
  | some a => a.blockIds
  | none => p.table id ++ cached.flatMap (CachedEntry.added id)

/-- The computed tokens of the request reach the end of its prompt. -/
def complete (e : Engine) (id : String) : Bool :=
  match e.requests id with
  | some t => t.request.promptTokenIds.length ≤ t.computed
  | none => false

/-- A step after which the engine is `e`. -/
def afterStep (p : Prefill) (news : List Admission) (cached : List CachedEntry) (e : Engine) :
    Prefill :=
  { p with
    engine := e
    table := p.tableAfter news cached
    reached := fun id => (p.reached id).or
      (if id ∈ Engine.ids news cached ∧ complete e id then some (p.tableAfter news cached id)
        else none) }

def step (p : Prefill) (a : Action) : Option Prefill :=
  if p.failed then none
  else
    match a with
    | .schedule news cached scheduled =>
        if p.Splits news cached scheduled then
          match p.engine.schedule news cached scheduled with
          | some e => some (p.afterStep news cached e)
          | none => some { p with failed := true }
        else none
    | a => (p.engine.step a).map fun e => { p with engine := e }

def machine : Machine Prefill Action where
  init p := ∃ blockSize, p = { engine := { connector := { isProducer := true, blockSize } } }
  step := step

/-- The tokens and blocks of the entries of a request. -/
def entriesOf (id : String) (metas : List ReqMeta) : List (List Nat × List Nat) :=
  (metas.filter (·.requestId = id)).map fun m => (m.tokenIds, m.blockIds)

/-- Every request was emitted in the first step that reached the end of its prompt, with
the block table it had then, and in no other step. -/
def Emitted (p : Prefill) : Prop :=
  ∀ id t, p.engine.requests id = some t →
    entriesOf id p.engine.emitted =
      (p.reached id).toList.map fun blocks => (t.request.promptTokenIds, blocks)

def adds (p : Prefill) : CachedEntry → Bool
  | .running _ newBlockIds => newBlockIds.isSome
  | .resumed a => p.reached a.request.requestId = none

/-- The step adds a block to every running request it schedules, and resumes no request
that has reached the end of its prompt. -/
def AddsBlocks (p : Prefill) : Action → Prop
  | .schedule _ cached _ => ∀ entry ∈ cached, p.adds entry
  | _ => True

instance (p : Prefill) (a : Action) : Decidable (p.AddsBlocks a) :=
  match a with
  | .schedule _ cached _ => inferInstanceAs (Decidable (∀ entry ∈ cached, p.adds entry))
  | .add _ | .preempt _ | .finish _ | .abort _ => isTrue trivial

/-! ### Passes over one entry of `chunked_prefill` -/

@[simp] theorem entriesOf_nil (id : String) : entriesOf id [] = [] := rfl

@[simp] theorem entriesOf_append (id : String) (ms ns : List ReqMeta) :
    entriesOf id (ms ++ ns) = entriesOf id ms ++ entriesOf id ns := by
  simp [entriesOf]

@[simp] theorem entriesOf_reqMeta_self (c : CompressedKVConnector) (id : String)
    (entries : List (List Nat × List Nat)) :
    entriesOf id (entries.map fun entry => c.reqMeta id entry.1 entry.2) = entries := by
  induction entries with
  | nil => rfl
  | cons entry entries ih =>
      simp only [entriesOf, List.map_cons, List.filter_cons, reqMeta, decide_true, if_true] at ih ⊢
      rw [ih]

theorem entriesOf_reqMeta_of_ne (c : CompressedKVConnector) {id id' : String} (hne : id ≠ id')
    (entries : List (List Nat × List Nat)) :
    entriesOf id (entries.map fun entry => c.reqMeta id' entry.1 entry.2) = [] := by
  rw [entriesOf, List.map_eq_nil_iff, List.filter_eq_nil_iff]
  intro m hm
  obtain ⟨entry, -, rfl⟩ := List.mem_map.mp hm
  have hother : ¬ id' = id := hne.symm
  simp [reqMeta, hother]

section Local

variable {ρ : Type}
  {pass : CompressedKVConnector → ρ → Option (CompressedKVConnector × List ReqMeta)}
  {key : ρ → String}
  {outcome : Option (List Nat × List Nat) → ρ →
    Option (Option (List Nat × List Nat) × Option (List Nat × List Nat))}
  {c c' : CompressedKVConnector} {reqs : List ρ} {metas : List ReqMeta}

/-- On the producer the pass reads and writes the entry of its request, and `outcome` gives
the new entry and the prompt and blocks that are emitted. -/
def Local (pass : CompressedKVConnector → ρ → Option (CompressedKVConnector × List ReqMeta))
    (key : ρ → String)
    (outcome : Option (List Nat × List Nat) → ρ →
      Option (Option (List Nat × List Nat) × Option (List Nat × List Nat))) : Prop :=
  ∀ (c : CompressedKVConnector) (req : ρ), c.isProducer = true →
    pass c req = (outcome (c.chunkedPrefill (key req)) req).map fun r =>
      (c.setPrefill (key req) r.1,
        r.2.toList.map fun entry => c.reqMeta (key req) entry.1 entry.2)

theorem setPrefill_of_ne {id id' : String} (hne : id ≠ id') (entry : Option (List Nat × List Nat)) :
    (c.setPrefill id' entry).chunkedPrefill id = c.chunkedPrefill id :=
  Function.update_of_ne hne _ _

/-- The loop completes if each of its passes does on the entry before the loop. -/
theorem loop_isSome (hlocal : Local pass key outcome) (hproducer : c.isProducer = true)
    (hnodup : (reqs.map key).Nodup) :
    (loop pass c reqs).isSome ↔
      ∀ req ∈ reqs, (outcome (c.chunkedPrefill (key req)) req).isSome := by
  induction reqs generalizing c with
  | nil => simp [loop]
  | cons req reqs ih =>
      obtain ⟨hfresh, hrest⟩ := List.nodup_cons.mp hnodup
      rw [loop, hlocal c req hproducer, List.forall_mem_cons]
      cases hown : outcome (c.chunkedPrefill (key req)) req with
      | none => simp
      | some r =>
          -- the other requests have other entries
          have hothers : (∀ other ∈ reqs,
              (outcome ((c.setPrefill (key req) r.1).chunkedPrefill (key other)) other).isSome) ↔
                ∀ other ∈ reqs, (outcome (c.chunkedPrefill (key other)) other).isSome := by
            refine forall₂_congr fun other hmem => ?_
            have hne : key other ≠ key req := fun heq =>
              hfresh (List.mem_map.mpr ⟨other, hmem, heq⟩)
            rw [setPrefill_of_ne hne]
          have hih := ih (c := c.setPrefill (key req) r.1) hproducer hrest
          rw [hothers] at hih
          rw [← hih]
          cases hloop : loop pass (c.setPrefill (key req) r.1) reqs <;> simp [hloop]

/-- **What a loop of local passes leaves of each request.** -/
theorem loop_local (hlocal : Local pass key outcome) (hproducer : c.isProducer = true)
    (hnodup : (reqs.map key).Nodup) (h : loop pass c reqs = some (c', metas)) :
    (∀ req ∈ reqs, ∃ r, outcome (c.chunkedPrefill (key req)) req = some r ∧
      c'.chunkedPrefill (key req) = r.1 ∧ entriesOf (key req) metas = r.2.toList) ∧
    ∀ id ∉ reqs.map key,
      c'.chunkedPrefill id = c.chunkedPrefill id ∧ entriesOf id metas = [] := by
  induction reqs generalizing c metas with
  | nil =>
      obtain ⟨rfl, rfl⟩ := Prod.mk.inj (Option.some.inj h)
      exact ⟨fun req hreq => (nomatch hreq), fun id _ => ⟨rfl, rfl⟩⟩
  | cons req reqs ih =>
      obtain ⟨hfresh, hrest⟩ := List.nodup_cons.mp hnodup
      obtain ⟨⟨c₁, first⟩, hfirst, h⟩ := Option.bind_eq_some_iff.mp h
      obtain ⟨⟨c₂, others⟩, hothers, h⟩ := Option.bind_eq_some_iff.mp h
      obtain ⟨rfl, rfl⟩ := Prod.mk.inj (Option.some.inj h)
      rw [hlocal c req hproducer] at hfirst
      obtain ⟨r, hr, hfirst⟩ := Option.map_eq_some_iff.mp hfirst
      obtain ⟨rfl, rfl⟩ := Prod.mk.inj hfirst
      obtain ⟨hmem, hout⟩ := ih (c := c.setPrefill (key req) r.1) hproducer hrest hothers
      refine ⟨fun other ho => ?_, fun id hid => ?_⟩
      · rcases List.mem_cons.mp ho with rfl | ho
        · obtain ⟨hentry, hnone⟩ := hout _ hfresh
          refine ⟨r, hr, hentry.trans (Function.update_self _ _ _), ?_⟩
          rw [entriesOf_append, hnone, List.append_nil, entriesOf_reqMeta_self]
        · have hne : key other ≠ key req := fun heq =>
            hfresh (List.mem_map.mpr ⟨other, ho, heq⟩)
          obtain ⟨r', hr', hentry, hemitted⟩ := hmem other ho
          rw [setPrefill_of_ne hne] at hr'
          refine ⟨r', hr', hentry, ?_⟩
          rw [entriesOf_append, entriesOf_reqMeta_of_ne c hne, List.nil_append, hemitted]
      · obtain ⟨hne, hid⟩ := not_or.mp (mt List.mem_cons.mpr hid)
        obtain ⟨hentry, hnone⟩ := hout id hid
        refine ⟨hentry.trans (setPrefill_of_ne hne _), ?_⟩
        rw [entriesOf_append, entriesOf_reqMeta_of_ne c hne, hnone, List.nil_append]

theorem loop_append (xs ys : List ρ) :
    loop pass c (xs ++ ys) = (loop pass c xs).bind fun r =>
      (loop pass r.1 ys).map fun s => (s.1, r.2 ++ s.2) := by
  induction xs generalizing c with
  | nil => simp [loop]
  | cons x xs ih =>
      simp only [List.cons_append, loop, ih, Option.bind_eq_bind, Option.pure_def,
        Option.bind_assoc, Option.map_eq_bind, Function.comp_def, Option.bind_some,
        List.append_assoc]

theorem loop_map {ρ' : Type} (f : ρ' → ρ) (xs : List ρ') :
    loop pass c (xs.map f) = loop (fun c x => pass c (f x)) c xs := by
  induction xs generalizing c with
  | nil => rfl
  | cons x xs ih => simp only [List.map_cons, loop, ih]

end Local

/-! ### One step of the producer -/

section Step

variable {c c' : CompressedKVConnector} {out : SchedulerOutput} {metas : List ReqMeta}

/-- The id of a new or a cached request. -/
def rowId : NewReq ⊕ CachedReq → String := Sum.elim NewReq.reqId CachedReq.reqId

/-- A pass of `build_connector_meta` on the producer. -/
def pass (out : SchedulerOutput) (c : CompressedKVConnector) :
    NewReq ⊕ CachedReq → Option (CompressedKVConnector × List ReqMeta) :=
  Sum.elim (buildNew out c) (buildCachedProducer out c)

/-- What it makes of the entry of its request, and what it emits. -/
def outcome (out : SchedulerOutput) (entry : Option (List Nat × List Nat)) :
    NewReq ⊕ CachedReq →
      Option (Option (List Nat × List Nat) × Option (List Nat × List Nat))
  | .inl req =>
      (out.numScheduledTokens req.reqId).map fun n =>
        if n + req.numComputedTokens < req.promptTokenIds.length then
          (some (req.blockIds, req.promptTokenIds), none)
        else (entry, some (req.promptTokenIds, req.blockIds))
  | .inr req => do
      let n ← out.numScheduledTokens req.reqId
      let (blocks, promptTokenIds) ← entry
      let newBlockIds ← req.newBlockIds
      let blockIds := if req.reqId ∈ out.resumedReqIds then newBlockIds else blocks ++ newBlockIds
      if n + req.numComputedTokens < promptTokenIds.length then
        return (some (blockIds, promptTokenIds), none)
      else return (none, some (promptTokenIds, blockIds))

theorem local_pass (out : SchedulerOutput) : Local (pass out) rowId (outcome out) := by
  intro c req hproducer
  cases req with
  | inl req =>
      simp only [pass, rowId, outcome, Sum.elim_inl, buildNew, hproducer, if_true, Option.map_map]
      refine Option.map_congr fun n _ => ?_
      simp only [Function.comp]
      split
      · rfl
      · simp [setPrefill]
  | inr req =>
      simp only [pass, rowId, outcome, Sum.elim_inr, buildCachedProducer, Option.bind_eq_bind,
        Option.map_bind, Function.comp_def]
      refine Option.bind_congr fun n _ => Option.bind_congr fun entry _ =>
        Option.bind_congr fun newBlockIds _ => ?_
      split <;> rfl

/-- `build_connector_meta` on the producer is one loop over all rows. -/
theorem buildConnectorMeta_eq (hproducer : c.isProducer = true) :
    c.buildConnectorMeta out = loop (pass out) c
      (out.scheduledNewReqs.map Sum.inl ++ out.scheduledCachedReqs.map Sum.inr) := by
  rw [loop_append, loop_map, buildConnectorMeta]
  refine Option.bind_congr fun ⟨c₁, news⟩ hr => ?_
  obtain ⟨hframe, -⟩ := loop_spec hr fun _ _ _ _ => frame_buildNew
  simp only
  rw [loop_map, buildCached_producer (hframe.isProducer.trans hproducer), Option.map_eq_bind]
  rfl

/-- The rows of a step. -/
def rows (out : SchedulerOutput) : List (NewReq ⊕ CachedReq) :=
  out.scheduledNewReqs.map Sum.inl ++ out.scheduledCachedReqs.map Sum.inr

/-- What a step that reaches `computed` tokens with these blocks makes of the entry of its
request, and what it emits. -/
def settle (prompt blocks : List Nat) (computed : Nat) :
    Option (List Nat × List Nat) × Option (List Nat × List Nat) :=
  if computed < prompt.length then (some (blocks, prompt), none) else (none, some (prompt, blocks))

theorem outcome_new {req : NewReq} {n : Nat} (hn : out.numScheduledTokens req.reqId = some n) :
    outcome out none (Sum.inl req) =
      some (settle req.promptTokenIds req.blockIds (n + req.numComputedTokens)) := by
  rw [outcome, hn, Option.map_some]
  rfl

theorem outcome_cached {req : CachedReq} {n : Nat} {blocks prompt newBlockIds : List Nat}
    (hn : out.numScheduledTokens req.reqId = some n) (hnew : req.newBlockIds = some newBlockIds) :
    outcome out (some (blocks, prompt)) (Sum.inr req) = some (settle prompt
      (if req.reqId ∈ out.resumedReqIds then newBlockIds else blocks ++ newBlockIds)
      (n + req.numComputedTokens)) := by
  simp only [outcome, hn, hnew, Option.bind_eq_bind, Option.bind_some, settle]
  split <;> rfl

/-- No entry, no transfer: the first assertion. -/
theorem outcome_untracked {req : CachedReq} : outcome out none (Sum.inr req) = none := by
  simp only [outcome]
  cases out.numScheduledTokens req.reqId <;> rfl

/-- No new blocks, no transfer: the second assertion. -/
theorem outcome_noBlocks {req : CachedReq} {entry : Option (List Nat × List Nat)}
    (hnew : req.newBlockIds = none) : outcome out entry (Sum.inr req) = none := by
  simp only [outcome, hnew]
  cases out.numScheduledTokens req.reqId <;> cases entry <;> rfl

end Step

/-! ### The two block tables agree -/

variable {p q : Prefill} {news : List Admission} {cached : List CachedEntry}
  {scheduled : String → Nat} {id : String} {t : Tracked}

/-- The entry of `chunked_prefill` for a request: its block table while it runs towards the
end of its prompt, some table it lost while it is preempted, and none outside. -/
def Tallied (p : Prefill) (id : String) (t : Tracked) : Prop :=
  match t.phase with
  | .waiting => p.reached id = none ∧ p.engine.connector.chunkedPrefill id = none
  | .running =>
      p.engine.connector.chunkedPrefill id =
        if p.reached id = none then some (p.table id, t.request.promptTokenIds) else none
  | .preempted =>
      if p.reached id = none then
        ∃ blocks, p.engine.connector.chunkedPrefill id = some (blocks, t.request.promptTokenIds)
      else p.engine.connector.chunkedPrefill id = none
  | .finished | .aborted => True

/-- What is tallied of a request depends on its own entries. -/
theorem Tallied.of_same (h : p.Tallied id t) (hreached : q.reached id = p.reached id)
    (htable : q.table id = p.table id)
    (hentry : q.engine.connector.chunkedPrefill id = p.engine.connector.chunkedPrefill id) :
    q.Tallied id t := by
  unfold Tallied at h ⊢
  rw [hreached, htable, hentry]
  exact h

/-- The invariant of the runs. -/
structure Inv (p : Prefill) : Prop where
  producer : p.engine.ProducerInv
  tallied : ∀ {id t}, p.engine.requests id = some t → p.Tallied id t
  emitted : p.Emitted
  unknown : ∀ {id}, p.engine.requests id = none → p.reached id = none

theorem tableAfter_admitted (hnodup : (Engine.ids news cached).Nodup) {a : Admission}
    (ha : a ∈ Engine.admissions news cached) :
    p.tableAfter news cached a.request.requestId = a.blockIds := by
  rw [tableAfter, Engine.find_admitted hnodup ha]

theorem tableAfter_of_not_mem (hid : id ∉ Engine.ids news cached) :
    p.tableAfter news cached id = p.table id := by
  have hcached : cached.flatMap (CachedEntry.added id) = [] := by
    refine List.flatMap_eq_nil_iff.mpr fun entry hentry => ?_
    cases entry with
    | running id' newBlockIds =>
        refine if_neg fun heq => hid (List.mem_append_right _ ?_)
        exact List.mem_map.mpr ⟨_, hentry, heq⟩
    | resumed a => rfl
  rw [tableAfter, Engine.find_of_not_mem hid]
  simp only [hcached, List.append_nil]

theorem tableAfter_running (hnodup : (Engine.ids news cached).Nodup)
    {newBlockIds : Option (List Nat)} (hentry : CachedEntry.running id newBlockIds ∈ cached) :
    p.tableAfter news cached id = p.table id ++ newBlockIds.getD [] := by
  have hadded : ∀ {l : List CachedEntry}, (l.map CachedEntry.reqId).Nodup →
      CachedEntry.running id newBlockIds ∈ l →
      l.flatMap (CachedEntry.added id) = newBlockIds.getD [] := by
    intro l hl hmem
    induction l with
    | nil => exact nomatch hmem
    | cons entry l ih =>
        obtain ⟨hfresh, hl⟩ := List.nodup_cons.mp hl
        rw [List.flatMap_cons]
        rcases List.mem_cons.mp hmem with rfl | hmem
        · -- no later row is of this request
          have hrest : l.flatMap (CachedEntry.added id) = [] := by
            refine List.flatMap_eq_nil_iff.mpr fun other hother => ?_
            cases other with
            | running id' blocks =>
                exact if_neg fun heq => hfresh (List.mem_map.mpr ⟨_, hother, heq⟩)
            | resumed a => rfl
          rw [hrest, List.append_nil]
          exact if_pos rfl
        · have hne : entry.reqId ≠ id := fun heq =>
            hfresh (List.mem_map.mpr ⟨_, hmem, heq.symm⟩)
          have hnone : entry.added id = [] := by
            cases entry with
            | running id' blocks => exact if_neg hne
            | resumed a => rfl
          rw [hnone, List.nil_append, ih hl hmem]
  rw [tableAfter, Engine.find_running hnodup hentry]
  simp only [hadded (List.nodup_append.mp hnodup).2.1 hentry]

theorem rows_output (e : Engine) :
    rows (e.output news cached scheduled) = news.map (fun a => Sum.inl (e.newReq a)) ++
      cached.map fun entry => Sum.inr (e.cachedReq entry) := by
  simp [rows, Engine.output, Function.comp_def]

theorem rowId_cachedReq (e : Engine) (entry : CachedEntry) :
    rowId (Sum.inr (e.cachedReq entry)) = entry.reqId := by
  cases entry <;> rfl

theorem map_rowId (e : Engine) :
    (rows (e.output news cached scheduled)).map rowId = Engine.ids news cached := by
  rw [rows_output, List.map_append, List.map_map, List.map_map, Engine.ids]
  refine congrArg₂ _ rfl (List.map_congr_left fun entry _ => ?_)
  exact rowId_cachedReq e entry

/-- A scheduled request is tracked. -/
theorem runs_some {e : Engine} {entry : CachedEntry} (h : e.runs entry = true) :
    ∃ t, e.requests entry.reqId = some t := by
  cases entry with
  | running id newBlockIds =>
      obtain ⟨t, ht, -⟩ := Engine.isRunning_some h
      exact ⟨t, ht⟩
  | resumed a =>
      obtain ⟨t, ht, -⟩ := Engine.admits_some h
      exact ⟨t, ht⟩

section Rows

variable (h : p.Inv) (hsplits : p.Splits news cached scheduled)

/-- What a step makes of a request. -/
def settled (p : Prefill) (news : List Admission) (cached : List CachedEntry)
    (scheduled : String → Nat) (id : String) (t : Tracked) :
    Option (List Nat × List Nat) × Option (List Nat × List Nat) :=
  settle t.request.promptTokenIds (p.tableAfter news cached id)
    (p.engine.advance news cached scheduled id t).computed

include h hsplits

/-- The pass of a new request. -/
theorem outcome_news {a : Admission} (ha : a ∈ news)
    (ht : p.engine.requests a.request.requestId = some t) :
    outcome (p.engine.output news cached scheduled)
        (p.engine.connector.chunkedPrefill a.request.requestId)
        (Sum.inl (p.engine.newReq a)) =
      some (p.settled news cached scheduled a.request.requestId t) := by
  obtain ⟨hnodup, hnews, -⟩ := hsplits
  have hmem : a ∈ Engine.admissions news cached := List.mem_append_left _ ha
  obtain ⟨t', ht', hphase, hrequest, -⟩ := Engine.admits_some (List.all_eq_true.mp hnews a ha)
  obtain rfl : t = t' := Option.some.inj (ht.symm.trans ht')
  have htallied := h.tallied ht
  unfold Tallied at htallied
  rw [hphase] at htallied
  rw [htallied.2, outcome_new (n := scheduled a.request.requestId) rfl]
  unfold settled
  rw [tableAfter_admitted hnodup hmem, Engine.advance_admitted hnodup hmem, hrequest]
  simp only [Engine.newReq, Request.added, Nat.add_comm]

/-- The pass of a cached request. -/
theorem outcome_cachedEntry {entry : CachedEntry} (hentry : entry ∈ cached)
    (ht : p.engine.requests entry.reqId = some t) :
    outcome (p.engine.output news cached scheduled)
        (p.engine.connector.chunkedPrefill entry.reqId)
        (Sum.inr (p.engine.cachedReq entry)) =
      if p.adds entry then some (p.settled news cached scheduled entry.reqId t) else none := by
  obtain ⟨hnodup, -, hcached, hchunks, -⟩ := hsplits
  have hnodupCached := (List.nodup_append.mp hnodup).2.1
  have hruns := List.all_eq_true.mp hcached entry hentry
  have hresumed : (p.engine.cachedReq entry).reqId ∈
      (p.engine.output news cached scheduled).resumedReqIds ↔ entry.admission?.isSome = true :=
    Engine.mem_resumedReqIds hnodupCached hentry
  cases entry with
  | running id newBlockIds =>
      obtain ⟨t', ht', hphase⟩ := Engine.isRunning_some hruns
      obtain rfl : t = t' := Option.some.inj (ht.symm.trans ht')
      have hchunk := List.all_eq_true.mp hchunks _ hentry
      simp only [chunks, decide_eq_true_eq] at hchunk
      have htallied := h.tallied ht
      unfold Tallied at htallied
      rw [hphase] at htallied
      simp only [CachedEntry.reqId, hchunk.1, if_true] at htallied ⊢
      rw [htallied]
      cases newBlockIds with
      | none => exact outcome_noBlocks rfl
      | some blocks =>
          have hnot : ¬ (p.engine.cachedReq (.running id (some blocks))).reqId ∈
              (p.engine.output news cached scheduled).resumedReqIds :=
            fun hmem => Bool.false_ne_true (hresumed.mp hmem)
          rw [outcome_cached (n := scheduled id) rfl rfl, if_neg hnot]
          unfold settled
          rw [tableAfter_running hnodup hentry, Engine.advance_running hnodup hentry]
          have hcomputed : p.engine.computedOf id = t.computed := by
            rw [Engine.computedOf, ht', Option.map_some, Option.getD_some]
          simp only [Engine.cachedReq, hcomputed, adds, Option.getD_some, Option.isSome_some,
            if_true, Nat.add_comm]
  | resumed a =>
      obtain ⟨t', ht', hphase, hrequest, -⟩ := Engine.admits_some hruns
      obtain rfl : t = t' := Option.some.inj (ht.symm.trans ht')
      have hmem : a ∈ Engine.admissions news cached :=
        List.mem_append_right _ (List.mem_filterMap.mpr ⟨_, hentry, rfl⟩)
      have htallied := h.tallied ht'
      unfold Tallied at htallied
      rw [hphase] at htallied
      simp only [CachedEntry.reqId, adds, decide_eq_true_eq] at htallied ⊢
      by_cases hreached : p.reached a.request.requestId = none
      · rw [if_pos hreached] at htallied
        obtain ⟨blocks, hentryOf⟩ := htallied
        rw [hentryOf, outcome_cached (n := scheduled a.request.requestId) rfl rfl,
          if_pos (hresumed.mpr rfl), if_pos hreached]
        unfold settled
        rw [tableAfter_admitted hnodup hmem, Engine.advance_admitted hnodup hmem]
        simp only [Engine.cachedReq, Nat.add_comm]
      · -- the entry was dropped with the transfer
        rw [if_neg hreached] at htallied
        rw [htallied, if_neg hreached]
        exact outcome_untracked

omit hsplits in
/-- The loop over all rows. -/
theorem buildConnectorMeta_allocated :
    ((p.engine.allocated news cached).chunkedPrefill = p.engine.connector.chunkedPrefill ∧
      (p.engine.allocated news cached).isProducer = true) ∧
    (p.engine.allocated news cached).buildConnectorMeta
        (p.engine.output news cached scheduled) =
      loop (pass (p.engine.output news cached scheduled)) (p.engine.allocated news cached)
        (rows (p.engine.output news cached scheduled)) := by
  obtain ⟨hproducer, hprefill⟩ :=
    foldl_alloc_static p.engine.connector (Engine.admissions news cached)
  have hproducer : (p.engine.allocated news cached).isProducer = true :=
    hproducer.trans h.producer.isProducer
  exact ⟨⟨hprefill, hproducer⟩, buildConnectorMeta_eq hproducer⟩

/-- **When a step completes.** -/
theorem schedule_isSome :
    (p.engine.schedule news cached scheduled).isSome ↔ ∀ entry ∈ cached, p.adds entry = true := by
  obtain ⟨⟨hprefill, hproducer⟩, hbuild⟩ := buildConnectorMeta_allocated h
  have hnodup : ((rows (p.engine.output news cached scheduled)).map rowId).Nodup := by
    rw [map_rowId]
    exact hsplits.1
  have hschedule : (p.engine.schedule news cached scheduled).isSome ↔
      ((p.engine.allocated news cached).buildConnectorMeta
        (p.engine.output news cached scheduled)).isSome := by
    rw [Engine.schedule, if_pos ⟨hsplits.1, hsplits.2.1, hsplits.2.2.1⟩]
    show (Option.bind _ _).isSome ↔ _
    rw [Engine.allocated]
    cases CompressedKVConnector.buildConnectorMeta _ _ <;> simp
  rw [hschedule, hbuild, loop_isSome (local_pass _) hproducer hnodup, rows_output,
    List.forall_mem_append, List.forall_mem_map, List.forall_mem_map, hprefill]
  constructor
  · intro hall entry hentry
    obtain ⟨t, ht⟩ := runs_some (List.all_eq_true.mp hsplits.2.2.1 entry hentry)
    have hsome := hall.2 entry hentry
    rw [rowId_cachedReq, outcome_cachedEntry h hsplits hentry ht] at hsome
    split at hsome
    · assumption
    · cases hsome
  · intro hall
    refine ⟨fun a ha => ?_, fun entry hentry => ?_⟩
    · obtain ⟨t, ht, -⟩ := Engine.admits_some (List.all_eq_true.mp hsplits.2.1 a ha)
      rw [show rowId (Sum.inl (p.engine.newReq a)) = a.request.requestId from rfl,
        outcome_news h hsplits ha ht]
      rfl
    · obtain ⟨t, ht⟩ := runs_some (List.all_eq_true.mp hsplits.2.2.1 entry hentry)
      rw [rowId_cachedReq, outcome_cachedEntry h hsplits hentry ht, if_pos (hall entry hentry)]
      rfl

/-- What a completed step leaves of each request. -/
theorem schedule_settled {c : CompressedKVConnector} {metas : List ReqMeta}
    (hbuild : (p.engine.allocated news cached).buildConnectorMeta
      (p.engine.output news cached scheduled) = some (c, metas)) :
    (∀ id ∈ Engine.ids news cached, ∃ t, p.engine.requests id = some t ∧
      c.chunkedPrefill id = (p.settled news cached scheduled id t).1 ∧
      entriesOf id metas = (p.settled news cached scheduled id t).2.toList) ∧
    ∀ id ∉ Engine.ids news cached,
      c.chunkedPrefill id = p.engine.connector.chunkedPrefill id ∧ entriesOf id metas = [] := by
  obtain ⟨⟨hprefill, hproducer⟩, hloop⟩ := buildConnectorMeta_allocated h
  have hnodup : ((rows (p.engine.output news cached scheduled)).map rowId).Nodup := by
    rw [map_rowId]
    exact hsplits.1
  obtain ⟨hmem, hout⟩ := loop_local (local_pass _) hproducer hnodup (hloop.symm.trans hbuild)
  rw [map_rowId] at hout
  rw [rows_output, List.forall_mem_append, List.forall_mem_map, List.forall_mem_map] at hmem
  simp only [hprefill] at hmem hout
  refine ⟨fun id hid => ?_, hout⟩
  rcases List.mem_append.mp hid with hid | hid
  · obtain ⟨a, ha, rfl⟩ := List.mem_map.mp hid
    obtain ⟨t, ht, -⟩ := Engine.admits_some (List.all_eq_true.mp hsplits.2.1 a ha)
    obtain ⟨r, hr, hresult⟩ := hmem.1 a ha
    obtain rfl := Option.some.inj ((outcome_news h hsplits ha ht).symm.trans hr)
    exact ⟨t, ht, hresult⟩
  · obtain ⟨entry, hentry, rfl⟩ := List.mem_map.mp hid
    obtain ⟨t, ht⟩ := runs_some (List.all_eq_true.mp hsplits.2.2.1 entry hentry)
    obtain ⟨r, hr, hresult⟩ := hmem.2 entry hentry
    rw [rowId_cachedReq] at hr hresult
    rw [outcome_cachedEntry h hsplits hentry ht] at hr
    split at hr
    · obtain rfl := Option.some.inj hr
      exact ⟨t, ht, hresult⟩
    · cases hr

/-- No request of a completed step had reached the end of its prompt. -/
theorem reached_none (hadds : ∀ entry ∈ cached, p.adds entry = true)
    (hid : id ∈ Engine.ids news cached) : p.reached id = none := by
  rcases List.mem_append.mp hid with hid | hid
  · obtain ⟨a, ha, rfl⟩ := List.mem_map.mp hid
    obtain ⟨t, ht, hphase, -⟩ := Engine.admits_some (List.all_eq_true.mp hsplits.2.1 a ha)
    have htallied := h.tallied ht
    unfold Tallied at htallied
    rw [hphase] at htallied
    exact htallied.1
  · obtain ⟨entry, hentry, rfl⟩ := List.mem_map.mp hid
    have hchunk := List.all_eq_true.mp hsplits.2.2.2.1 entry hentry
    have hadd := hadds entry hentry
    cases entry with
    | running id newBlockIds =>
        simp only [chunks, decide_eq_true_eq] at hchunk
        exact hchunk.1
    | resumed a => exact of_decide_eq_true hadd

theorem Inv.afterStep {e : Engine} (hschedule : p.engine.schedule news cached scheduled = some e) :
    (p.afterStep news cached e).Inv := by
  have hadds := (schedule_isSome h hsplits).mp (by rw [hschedule]; rfl)
  have hproducer := h.producer.schedule hschedule
  obtain ⟨hnodup, -, hcached, c, metas, hbuild, rfl⟩ := Engine.schedule_some hschedule
  obtain ⟨hin, hout⟩ := schedule_settled h hsplits hbuild
  -- the request after the step, and whether it has reached the end of its prompt
  have hreached : ∀ id ∈ Engine.ids news cached, ∀ t, p.engine.requests id = some t →
      (p.afterStep news cached { p.engine with
        connector := c
        requests := fun id => (p.engine.requests id).map
          (p.engine.advance news cached scheduled id)
        emitted := p.engine.emitted ++ metas }).reached id =
      if (p.engine.advance news cached scheduled id t).computed < t.request.promptTokenIds.length
        then none else some (p.tableAfter news cached id) := by
    intro id hid t ht
    simp only [Prefill.afterStep, reached_none h hsplits hadds hid, hid, complete, ht, true_and,
      Option.map_some, Option.none_or, Engine.advance_request, decide_eq_true_eq]
    split <;> split <;> first | rfl | omega
  have hkept : ∀ id ∉ Engine.ids news cached,
      (p.afterStep news cached { p.engine with
        connector := c
        requests := fun id => (p.engine.requests id).map
          (p.engine.advance news cached scheduled id)
        emitted := p.engine.emitted ++ metas }).reached id = p.reached id := by
    intro id hid
    simp only [Prefill.afterStep, hid, false_and, if_false, Option.or_none]
  refine ⟨hproducer, fun {id t'} ht' => ?_, fun id t' ht' => ?_, fun {id} hnone => ?_⟩
  · obtain ⟨t, ht, rfl⟩ := Option.map_eq_some_iff.mp ht'
    by_cases hid : id ∈ Engine.ids news cached
    · obtain ⟨t₀, ht₀, hentry, -⟩ := hin id hid
      obtain rfl : t = t₀ := Option.some.inj (ht.symm.trans ht₀)
      unfold Tallied
      rw [Engine.advance_phase hnodup hcached hid ht]
      simp only
      rw [hreached id hid t ht, Engine.advance_request]
      show c.chunkedPrefill id = _
      rw [hentry, settled, settle]
      split <;> rfl
    · rw [Engine.advance_of_not_mem hid]
      exact (h.tallied ht).of_same (hkept id hid) (tableAfter_of_not_mem hid) (hout id hid).1
  · obtain ⟨t, ht, rfl⟩ := Option.map_eq_some_iff.mp ht'
    show entriesOf id (p.engine.emitted ++ metas) = _
    rw [entriesOf_append, h.emitted id t ht, Engine.advance_request]
    by_cases hid : id ∈ Engine.ids news cached
    · obtain ⟨t₀, ht₀, -, hemitted⟩ := hin id hid
      obtain rfl : t = t₀ := Option.some.inj (ht.symm.trans ht₀)
      rw [hreached id hid t ht, reached_none h hsplits hadds hid, hemitted, settled, settle]
      split <;> rfl
    · rw [hkept id hid, (hout id hid).2, List.append_nil]
  · have hnone : p.engine.requests id = none := by simpa [Prefill.afterStep] using hnone
    have hid : id ∉ Engine.ids news cached := fun hmem => by
      obtain ⟨t, ht, -⟩ := hin id hmem
      rw [hnone] at ht
      cases ht
    rw [hkept id hid]
    exact h.unknown hnone

end Rows

/-! ### Runs -/

theorem entriesOf_unknown (h : p.Inv) (hnone : p.engine.requests id = none) :
    entriesOf id p.engine.emitted = [] := by
  have hcount : count id p.engine.emitted = 0 := h.producer.toInv.count_unknown hnone
  rw [count, List.countP_eq_length_filter, List.length_eq_zero_iff] at hcount
  rw [entriesOf, hcount, List.map_nil]

/-- A request is added, preempted, finished or aborted. -/
theorem Inv.engineStep (h : p.Inv) {a : Action} {e : Engine} (hstep : p.engine.step a = some e)
    (hother : ∀ news cached scheduled, a ≠ .schedule news cached scheduled) :
    Inv { p with engine := e } := by
  have hproducer := h.producer.step hstep
  rcases Engine.step_cases hstep with ⟨request, hfresh, -, rfl⟩ |
    ⟨news, cached, scheduled, ha, -⟩ | ⟨id, t, phase, ht, hcase⟩
  · refine ⟨hproducer, fun {id t} ht => ?_, fun id t ht => ?_, fun {id} hnone => ?_⟩
    · rcases @Engine.setTracked_some p.engine { request } t id ht with ⟨rfl, rfl⟩ | ⟨-, ht⟩
      · exact ⟨h.unknown hfresh, h.producer.unknownPrefill hfresh⟩
      · exact (h.tallied ht).of_same rfl rfl rfl
    · rcases @Engine.setTracked_some p.engine { request } t id ht with ⟨rfl, rfl⟩ | ⟨-, ht⟩
      · show entriesOf request.requestId p.engine.emitted =
          (p.reached request.requestId).toList.map fun blocks => (request.promptTokenIds, blocks)
        rw [h.unknown hfresh, entriesOf_unknown h hfresh]
        rfl
      · exact h.emitted id t ht
    · exact h.unknown (@Engine.setTracked_none p.engine { request } id hnone).2
  · exact absurd ha (hother news cached scheduled)
  · -- the request `id` changes its phase
    have hkey := h.producer.key ht
    have hget : ∀ t' : Tracked, t'.request = t.request → ∀ {other u},
        (p.engine.setTracked t').requests other = some u →
        other = id ∧ u = t' ∨ other ≠ id ∧ p.engine.requests other = some u := by
      intro t' hrequest other u hget
      have hcases := Engine.setTracked_some hget
      rwa [hrequest, hkey] at hcases
    have hunknown : ∀ t' : Tracked, ∀ {other},
        (p.engine.setTracked t').requests other = none → p.reached other = none :=
      fun _ _ hnone => h.unknown (Engine.setTracked_none hnone).2
    rcases hcase with ⟨hrunning, rfl, rfl⟩ | ⟨hphase, rfl⟩
    · refine ⟨hproducer, fun {other u} hu => ?_, fun other u hu => ?_,
        fun {other} hnone => hunknown { t with phase := .preempted, computed := 0 } hnone⟩
      · rcases hget { t with phase := .preempted, computed := 0 } rfl hu with ⟨rfl, rfl⟩ | ⟨-, hu⟩
        · have htallied := h.tallied ht
          unfold Tallied at htallied ⊢
          rw [hrunning] at htallied
          simp only at htallied ⊢
          split
          · rename_i hopen
            exact ⟨_, htallied.trans (if_pos hopen)⟩
          · rename_i hopen
            exact htallied.trans (if_neg hopen)
        · exact (h.tallied hu).of_same rfl rfl rfl
      · rcases hget { t with phase := .preempted, computed := 0 } rfl hu with ⟨rfl, rfl⟩ | ⟨-, hu⟩
        · exact h.emitted other t ht
        · exact h.emitted other u hu
    · refine ⟨hproducer, fun {other u} hu => ?_, fun other u hu => ?_,
        fun {other} hnone => hunknown { t with phase } hnone⟩
      · rcases hget { t with phase } rfl hu with ⟨rfl, rfl⟩ | ⟨hne, hu⟩
        · unfold Tallied
          rcases hphase with ⟨rfl, -⟩ | rfl <;> exact trivial
        · exact (h.tallied hu).of_same rfl rfl (Function.update_of_ne hne _ _)
      · rcases hget { t with phase } rfl hu with ⟨rfl, rfl⟩ | ⟨-, hu⟩
        · exact h.emitted other t ht
        · exact h.emitted other u hu

/-- **One step of the producer.** -/
theorem Inv.step (h : p.Inv) {a : Action} (hstep : p.step a = some q) : q.Inv := by
  unfold Prefill.step at hstep
  split at hstep
  · cases hstep
  · split at hstep
    · rename_i news cached scheduled
      split at hstep
      · rename_i hsplits
        split at hstep
        · rename_i e hschedule
          obtain rfl := Option.some.inj hstep
          exact h.afterStep hsplits hschedule
        · obtain rfl := Option.some.inj hstep
          exact ⟨h.producer, h.tallied, h.emitted, h.unknown⟩
      · cases hstep
    · rename_i hother
      obtain ⟨e, he, rfl⟩ := Option.map_eq_some_iff.mp hstep
      exact h.engineStep he fun news cached scheduled heq => hother _ _ _ heq

theorem inv_of_reachable (h : machine.Reachable p) : p.Inv := by
  refine Machine.invariant (I := Inv) ?_ (fun _ _ _ _ hinv _ hstep => hinv.step hstep) h
  rintro p ⟨blockSize, rfl⟩
  exact ⟨⟨Engine.inv_fresh _ fun _ => rfl, rfl, fun h => (nomatch h), fun _ => rfl⟩,
    fun h => (nomatch h), fun _ _ h => (nomatch h), fun _ => rfl⟩

/-- A step raises if and only if it adds no block to a running request or resumes a request
whose transfer is out. -/
theorem step_failed (h : p.Inv) {a : Action} (hstep : p.step a = some q) :
    q.failed = true ↔ ¬ p.AddsBlocks a := by
  unfold Prefill.step at hstep
  split at hstep
  · cases hstep
  · rename_i hfailed
    have hfailed : p.failed = false := by simpa using hfailed
    split at hstep
    · rename_i news cached scheduled
      split at hstep
      · rename_i hsplits
        have hsome := schedule_isSome h hsplits
        split at hstep
        · rename_i e hschedule
          obtain rfl := Option.some.inj hstep
          have hadds : p.AddsBlocks (.schedule news cached scheduled) :=
            hsome.mp (by rw [hschedule]; rfl)
          simp only [afterStep, hfailed, Bool.false_eq_true, hadds, not_true]
        · rename_i hschedule
          obtain rfl := Option.some.inj hstep
          have hadds : ¬ p.AddsBlocks (.schedule news cached scheduled) := fun hadds => by
            have hisSome := hsome.mpr hadds
            rw [hschedule] at hisSome
            cases hisSome
          simp only [hadds, not_false_eq_true]
      · cases hstep
    · rename_i hother
      obtain ⟨e, -, rfl⟩ := Option.map_eq_some_iff.mp hstep
      have hadds : p.AddsBlocks a := by
        cases a with
        | schedule news cached scheduled => exact absurd rfl (hother _ _ _)
        | add request => exact trivial
        | preempt id => exact trivial
        | finish id => exact trivial
        | abort id => exact trivial
      simp only [hfailed, Bool.false_eq_true, hadds, not_true]

/-- **One transfer for each prompt.** In a run whose steps add a block to every running
request and resume no transferred request, `build_connector_meta` never raises, and every
request is emitted once, in the first step that reaches the end of its prompt and with the
block table of that step. The first step that does otherwise raises. -/
theorem chunked_prefill_emitted (h : machine.ReachWith AddsBlocks p) :
    (p.failed = false ∧ p.Emitted) ∧
      ∀ a q, machine.step p a = some q → (q.failed = false ↔ p.AddsBlocks a) := by
  have hinv : ∀ {p}, machine.ReachWith AddsBlocks p → p.Inv := fun h =>
    inv_of_reachable (h.mono fun _ _ _ => trivial)
  have hstep : ∀ {p}, machine.ReachWith AddsBlocks p → ∀ a q, machine.step p a = some q →
      (q.failed = false ↔ p.AddsBlocks a) := by
    intro p hp a q hstep
    rw [← Bool.not_eq_true, step_failed (hinv hp) hstep, not_not]
  refine ⟨⟨?_, (hinv h).emitted⟩, hstep h⟩
  refine Machine.invariant (I := fun p => p.failed = false) ?_ ?_ h
  · rintro p ⟨blockSize, rfl⟩
    rfl
  · intro p a q hp _ hadds hq
    exact (hstep hp a q hq).mpr hadds

/-- A producer with blocks of four tokens. -/
def fresh : Prefill := { engine := { connector := { isProducer := true, blockSize := 4 } } }

theorem init_fresh : machine.init fresh := ⟨4, rfl⟩

/-- A prefill that is preempted between its chunks is emitted with the blocks of the
resumed steps. -/
theorem chunked_prefill_emitted_preempted : ∃ p, machine.ReachWith AddsBlocks p ∧
    p.failed = false ∧ p.Emitted ∧ entriesOf "r" p.engine.emitted = [([5, 6, 7], [3, 4])] := by
  let run : List Action :=
    [.add (Pair.sampleRequest [5, 6, 7]),
      .schedule [⟨Pair.sampleRequest [5, 6, 7], 0, [0]⟩] [] fun _ => 2, .preempt "r",
      .schedule [] [.resumed ⟨Pair.sampleRequest [5, 6, 7], 0, [3]⟩] fun _ => 1,
      .schedule [] [.running "r" (some [4])] fun _ => 2]
  let p := (machine.exec (fun p a => decide (p.AddsBlocks a)) fresh run).get (by decide)
  have hreach : machine.ReachWith AddsBlocks p :=
    (Machine.reachWith_of_exec init_fresh (Option.some_get _).symm).mono
      fun _ _ h => of_decide_eq_true h
  obtain ⟨⟨hfailed, hemitted⟩, -⟩ := chunked_prefill_emitted hreach
  exact ⟨p, hreach, hfailed, hemitted, by decide⟩

/-- A prompt of three tokens whose last token fits into the block of the first two: the
second step raises, and the request is never emitted. -/
theorem chunked_prefill_raises :
    ∃ p, machine.Reachable p ∧ p.failed = true ∧ p.engine.emitted = [] := by
  let run : List Action :=
    [.add (Pair.sampleRequest [5, 6, 7]),
      .schedule [⟨Pair.sampleRequest [5, 6, 7], 0, [0]⟩] [] fun _ => 2,
      .schedule [] [.running "r" none] fun _ => 1]
  let p := (machine.exec (fun _ _ => true) fresh run).get (by decide)
  have hreach : machine.Reachable p :=
    (Machine.reachWith_of_exec init_fresh (Option.some_get _).symm).mono fun _ _ _ => trivial
  exact ⟨p, hreach, by decide, by decide⟩

end Prefill

end KVServe.Connector

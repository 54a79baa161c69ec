import KVServe.Lib.Blocks
import KVServe.Lib.Custody
import KVServe.Store.Scheduler

/-!
# KVServe.Store.SchedulerJobs

The **store jobs of the scheduler as tickets of a desk**: the pinned saves are its open
tickets and the block pool its references. Building the requests of a step opens none;
referencing them opens one for each job that reads a block, and the output of a step settles
the reports of the ranks.

A job with an id holds what it reads (`Held`): the blocks of its boundary states and, unless
it is a finish-time tail, every block of its request's tables. A finish-time tail pins the
blocks of its boundary states only.
-/

namespace KVServe.Store

open Session (ReqId)
open Custody (Desk Balanced)

namespace MooncakeStoreScheduler

variable {cfg : StoreConfig} {requests : ReqId → Request} {out : SchedulerOutput}
  {s s' : MooncakeStoreScheduler} {pool pool' : BlockPool}

/-! ### Building opens no ticket -/

/-- Two schedulers with the same jobs. -/
structure SameJobs (s s' : MooncakeStoreScheduler) : Prop where
  next : s'.nextStoreJobId = s.nextStoreJobId
  pinned : s'.pinnedSaves = s.pinnedSaves
  tails : s'.finishedPartialTailMetas = s.finishedPartialTailMetas

theorem SameJobs.refl (s : MooncakeStoreScheduler) : SameJobs s s := ⟨rfl, rfl, rfl⟩

theorem SameJobs.trans {s₁ s₂ s₃ : MooncakeStoreScheduler} (h : SameJobs s₁ s₂)
    (h' : SameJobs s₂ s₃) : SameJobs s₁ s₃ :=
  ⟨h'.next.trans h.next, h'.pinned.trans h.pinned, h'.tails.trans h.tails⟩

/-- What the metas of a step are before their blocks are referenced: new jobs, and none where
no rank would take it. -/
structure Built (cfg : StoreConfig) (s : MooncakeStoreScheduler) (building : Building) : Prop where
  same : SameJobs s building.1
  unnumbered : ∀ m ∈ building.2, m.storeJobId = none
  wanted : ∀ m ∈ building.2, m.canSave = true → cfg.canPut = true

theorem fromRequestTracker_meta {reqId : ReqId} {tracker : RequestTracker} {blockSize : Nat}
    {loadSpec : Option LoadSpec} {skipSave : Bool} {blockHashes : List BlockHash} {m : ReqMeta}
    (h : (ReqMeta.fromRequestTracker reqId tracker blockSize loadSpec skipSave blockHashes).2 =
      some m) : m.storeJobId = none ∧ (m.canSave = true → skipSave = false) := by
  simp only [ReqMeta.fromRequestTracker] at h
  split at h
  · cases h
  · obtain rfl := Option.some.inj h
    refine ⟨rfl, fun hsave => ?_⟩
    simp only [Bool.not_eq_true', Bool.or_eq_false_iff] at hsave
    exact hsave.1.1

theorem Built.emit {building : Building} {reqId : ReqId} {made : RequestTracker × Option ReqMeta}
    (h : Built cfg s building)
    (hmade : ∀ m, made.2 = some m → m.storeJobId = none ∧ (m.canSave = true → cfg.canPut = true)) :
    Built cfg s (MooncakeStoreScheduler.emit building reqId made) where
  same := h.same.trans ⟨rfl, rfl, rfl⟩
  unnumbered m hm := by
    rcases List.mem_append.mp hm with hm | hm
    · exact h.unnumbered m hm
    · exact (hmade m (Option.mem_toList.mp hm)).1
  wanted m hm := by
    rcases List.mem_append.mp hm with hm | hm
    · exact h.wanted m hm
    · exact (hmade m (Option.mem_toList.mp hm)).2

/-- A scheduler whose bookkeeping of requests changed has the same jobs. -/
theorem Built.setSpecs {building : Building} {specs : List (ReqId × LoadSpec)}
    (h : Built cfg s building) : Built cfg s ({ building.1 with loadSpecs := specs }, building.2) :=
  ⟨h.same.trans ⟨rfl, rfl, rfl⟩, h.unnumbered, h.wanted⟩

theorem canPut_of_not_consumer (h : cfg.isConsumer = false) : cfg.canPut = true := by
  simp [StoreConfig.canPut, h]

theorem Built.track {building : Building} {reqId : ReqId} {n : Nat} {blockIds : List (List BlockId)}
    {prefillTokens : List Nat} {blockHashes : List BlockHash} (h : Built cfg s building) :
    Built cfg s (MooncakeStoreScheduler.track cfg building reqId n blockIds prefillTokens
      blockHashes) :=
  h.setSpecs.emit fun _ hm =>
    ⟨(fromRequestTracker_meta hm).1,
      fun hsave => canPut_of_not_consumer ((fromRequestTracker_meta hm).2 hsave)⟩

theorem Built.buildNew {building building' : Building} {request : NewRequestData}
    (h : Built cfg s building)
    (hstep : MooncakeStoreScheduler.buildNew cfg requests out building request = .ok building') :
    Built cfg s building' := by
  simp only [MooncakeStoreScheduler.buildNew, bind_eq_ok] at hstep
  obtain ⟨_, -, _, -, _, -, _, -, hret⟩ := hstep
  cases hret
  exact h.track

theorem Built.buildResumed {building building' : Building} {row : CachedRequest}
    (h : Built cfg s building)
    (hstep : MooncakeStoreScheduler.buildResumed cfg requests out building row = .ok building') :
    Built cfg s building' := by
  simp only [MooncakeStoreScheduler.buildResumed, bind_eq_ok] at hstep
  obtain ⟨blocks, -, hstep⟩ := hstep
  cases blocks with
  | none => cases hstep; exact h
  | some blockIds =>
      dsimp only at hstep
      split at hstep
      · cases hstep
      · simp only [bind_eq_ok] at hstep
        obtain ⟨_, -, hret⟩ := hstep
        cases hret
        exact h.track

theorem Built.buildRunning {building building' : Building} {row : CachedRequest}
    (h : Built cfg s building) (hput : cfg.canPut = true)
    (hstep : MooncakeStoreScheduler.buildRunning cfg requests out building row = .ok building') :
    Built cfg s building' := by
  simp only [MooncakeStoreScheduler.buildRunning, bind_eq_ok] at hstep
  obtain ⟨blocks, -, hstep⟩ := hstep
  split at hstep
  · cases hstep
  · split at hstep
    · cases hstep
      exact h
    · simp only [bind_eq_ok] at hstep
      obtain ⟨_, -, hstep⟩ := hstep
      split at hstep
      · cases hstep
      · simp only [bind_eq_ok] at hstep
        obtain ⟨_, -, hstep⟩ := hstep
        split at hstep
        · cases hstep
          exact h.emit fun m hm => by cases hm
        · cases hstep
          exact h.emit fun m hm => ⟨(fromRequestTracker_meta hm).1, fun _ => hput⟩

theorem Built.buildCached {building building' : Building} {row : CachedRequest}
    (h : Built cfg s building) (hput : cfg.canPut = true)
    (hstep : MooncakeStoreScheduler.buildCached cfg requests out building row = .ok building') :
    Built cfg s building' := by
  rw [MooncakeStoreScheduler.buildCached] at hstep
  split at hstep
  · exact h.buildResumed hstep
  · exact h.buildRunning hput hstep

theorem Built.buildPending {building : Building} {entry : ReqId × List (List BlockId)}
    (h : Built cfg s building) :
    Built cfg s (MooncakeStoreScheduler.buildPending cfg requests out building entry) := by
  simp only [MooncakeStoreScheduler.buildPending]
  split
  · exact h
  · split
    · exact h.setSpecs
    · next spec hspec =>
        refine h.setSpecs.emit fun m hm => ⟨(fromRequestTracker_meta hm).1, fun hsave => ?_⟩
        -- a request that loads does not save
        have hload : spec.canLoad = true := (Option.filter_eq_some_iff.mp hspec).2
        simp only [ReqMeta.fromRequestTracker] at hm
        split at hm
        · cases hm
        · obtain rfl := Option.some.inj hm
          simp [ReqMeta.loads, hload] at hsave

theorem built_buildRequests {building : Building}
    (h : buildRequests cfg requests out s = .ok building) : Built cfg s building := by
  simp only [buildRequests, bind_eq_ok] at h
  obtain ⟨new, hnew, cached, hcached, hret⟩ := h
  cases hret
  have hstart : SameJobs s
      (out.preemptedReqIds.foldl forgetPreempted (out.finishedReqIds.foldl forgetFinished s)) := by
    have hfinished : ∀ (ids : List ReqId) (s : MooncakeStoreScheduler),
        SameJobs s (ids.foldl forgetFinished s) := fun ids => by
      induction ids with
      | nil => exact SameJobs.refl
      | cons id ids ih => exact fun s =>
          (show SameJobs s (forgetFinished s id) from ⟨rfl, rfl, rfl⟩).trans (ih _)
    have hpreempted : ∀ (ids : List ReqId) (s : MooncakeStoreScheduler),
        SameJobs s (ids.foldl forgetPreempted s) := fun ids => by
      induction ids with
      | nil => exact SameJobs.refl
      | cons id ids ih => exact fun s =>
          (show SameJobs s (forgetPreempted s id) from ⟨rfl, rfl, rfl⟩).trans (ih _)
    exact (hfinished _ s).trans (hpreempted _ _)
  have hb : Built cfg s new :=
    foldlM_invariant (P := fun _ b => Built cfg s b) (fun _ _ _ _ hb hstep => hb.buildNew hstep)
      hnew ⟨hstart, by simp, by simp⟩
  have hc : Built cfg s cached := by
    rw [buildAllCached] at hcached
    split at hcached
    · next hput =>
        exact foldlM_invariant (P := fun _ b => Built cfg s b)
          (fun _ _ _ _ hb hstep => hb.buildCached hput hstep) hcached hb
    · cases hcached
      exact hb
  suffices ∀ (items : List (ReqId × List (List BlockId))) (b : Building), Built cfg s b →
      Built cfg s (items.foldl (buildPending cfg requests out) b) from this _ _ hc
  intro items
  induction items with
  | nil => exact fun b hb => hb
  | cons item items ih => exact fun b hb => ih _ hb.buildPending

theorem attachOffloads_mem {reqId : ReqId} {accepted : List BoundaryOffload}
    {metas metas' : List ReqMeta} (h : attachOffloads reqId accepted metas = some metas') :
    ∀ m' ∈ metas', ∃ m ∈ metas, m'.storeJobId = m.storeJobId ∧ m'.canSave = m.canSave := by
  induction metas generalizing metas' with
  | nil => cases h
  | cons m metas ih =>
      rw [attachOffloads] at h
      split at h
      · next rest hrest =>
          obtain rfl := Option.some.inj h
          intro m' hm'
          rcases List.mem_cons.mp hm' with rfl | hm'
          · exact ⟨m', List.mem_cons_self, rfl, rfl⟩
          · obtain ⟨m₀, hm₀, heq⟩ := ih hrest m' hm'
            exact ⟨m₀, List.mem_cons_of_mem _ hm₀, heq⟩
      · split at h
        · obtain rfl := Option.some.inj h
          intro m' hm'
          rcases List.mem_cons.mp hm' with rfl | hm'
          · exact ⟨m, List.mem_cons_self, rfl, rfl⟩
          · exact ⟨m', List.mem_cons_of_mem _ hm', rfl, rfl⟩
        · cases h

theorem Built.handleOffload {state : MooncakeStoreScheduler × List ReqMeta × List ReqMeta}
    {offload : ReqId × List BoundaryOffload} (hconsumer : cfg.isConsumer = false)
    (h : Built cfg s (state.1, state.2.1 ++ state.2.2)) :
    let state' := MooncakeStoreScheduler.handleOffload cfg requests state offload
    Built cfg s (state'.1, state'.2.1 ++ state'.2.2) := by
  obtain ⟨s₁, metas, added⟩ := state
  simp only [MooncakeStoreScheduler.handleOffload]
  split
  · split
    · exact h
    · split
      · next metas' hattach =>
          refine ⟨h.same.trans ⟨rfl, rfl, rfl⟩, fun m' hm' => ?_, fun m' hm' => ?_⟩
          all_goals
            rcases List.mem_append.mp hm' with hm' | hm'
            · obtain ⟨m, hm, hid, hsave⟩ := attachOffloads_mem hattach m' hm'
              first
                | exact hid.trans (h.unnumbered m (List.mem_append_left _ hm))
                | exact fun hs => h.wanted m (List.mem_append_left _ hm) (hsave ▸ hs)
            · first
                | exact h.unnumbered m' (List.mem_append_right _ hm')
                | exact h.wanted m' (List.mem_append_right _ hm')
      · refine ⟨h.same.trans ⟨rfl, rfl, rfl⟩, fun m hm => ?_,
          fun _ _ _ => canPut_of_not_consumer hconsumer⟩
        rw [← List.append_assoc] at hm
        rcases List.mem_append.mp hm with hm | hm
        · exact h.unnumbered m hm
        · rw [List.mem_singleton.mp hm]
  · exact h

theorem Built.handleBoundaryStateOffloads {building : Building}
    {offloads : List (ReqId × List BoundaryOffload)} (hconsumer : cfg.isConsumer = false)
    (h : Built cfg s building) :
    Built cfg s
      (MooncakeStoreScheduler.handleBoundaryStateOffloads cfg requests building offloads) := by
  suffices ∀ state : MooncakeStoreScheduler × List ReqMeta × List ReqMeta,
      Built cfg s (state.1, state.2.1 ++ state.2.2) →
        let state' := offloads.foldl (MooncakeStoreScheduler.handleOffload cfg requests) state
        Built cfg s (state'.1, state'.2.1 ++ state'.2.2) from
    this (building.1, building.2, []) (by simpa using h)
  induction offloads with
  | nil => exact fun state hstate => hstate
  | cons offload offloads ih => exact fun state hstate => ih _ (hstate.handleOffload hconsumer)

theorem Built.addOffloads {building : Building} (h : Built cfg s building) :
    Built cfg s (MooncakeStoreScheduler.addOffloads cfg requests out building) := by
  rw [MooncakeStoreScheduler.addOffloads]
  split
  · split
    · exact h
    · next hconsumer => exact h.handleBoundaryStateOffloads (by simpa using hconsumer)
  · exact h

/-- Taking over the core's block tables changes no job. -/
theorem Built.applyCurrent {building : Building} {metas : List ReqMeta} (h : Built cfg s building)
    (hmap : building.2.mapM (MooncakeStoreScheduler.applyCurrent cfg out) = .ok metas) :
    Built cfg s (building.1, metas) := by
  have hone : ∀ m m' : ReqMeta, MooncakeStoreScheduler.applyCurrent cfg out m = .ok m' →
      m'.storeJobId = m.storeJobId ∧ m'.canSave = m.canSave := by
    intro m m' hm
    simp only [MooncakeStoreScheduler.applyCurrent] at hm
    split at hm
    · cases hm
      exact ⟨rfl, rfl⟩
    · split at hm
      · cases hm
      · split at hm
        · cases hm
        · simp only [bind_eq_ok] at hm
          obtain ⟨tables, -, hret⟩ := hm
          cases hret
          exact ⟨rfl, rfl⟩
  have hall := mapM_eq_ok.mp hmap
  have hmem : ∀ m' ∈ metas, ∃ m ∈ building.2,
      m'.storeJobId = m.storeJobId ∧ m'.canSave = m.canSave := fun m' hm' => by
    obtain ⟨m, hm, hap⟩ := exists_mem_of_forall₂ (List.Forall₂.flip hall) hm'
    exact ⟨m, hm, hone m m' hap⟩
  refine ⟨h.same, fun m' hm' => ?_, fun m' hm' hsave => ?_⟩
  · obtain ⟨m, hm, hid, -⟩ := hmem m' hm'
    exact hid.trans (h.unnumbered m hm)
  · obtain ⟨m, hm, -, hs⟩ := hmem m' hm'
    exact h.wanted m hm (hs ▸ hsave)

/-! ### Referencing opens one ticket a job -/

/-- The scheduler's jobs and the block pool, as a desk. -/
def desk (s : MooncakeStoreScheduler) (pool : BlockPool) : Desk BlockId :=
  { next := s.nextStoreJobId, opened := s.pinnedSaves, refs := pool }

@[simp] theorem desk_next (s : MooncakeStoreScheduler) (pool : BlockPool) :
    (desk s pool).next = s.nextStoreJobId := rfl

/-- The blocks a referenced job may read. -/
def jobBlocks (cfg : StoreConfig) (m : ReqMeta) : List BlockId := offloadBlocks m ++ tableBlocks cfg m

/-- The meta asks for a job. -/
def carries (job : Nat) (m : ReqMeta) : Bool := m.canSave && decide (m.storeJobId = some job)

/-- The ranks a list of metas sends a job to, when all of them get it. -/
def jobCount (job : Nat) (metas : List ReqMeta) : Nat := metas.countP (carries job)

@[simp] theorem jobCount_nil (job : Nat) : jobCount job [] = 0 := rfl

@[simp] theorem jobCount_append (job : Nat) (metas metas' : List ReqMeta) :
    jobCount job (metas ++ metas') = jobCount job metas + jobCount job metas' :=
  List.countP_append

@[simp] theorem jobCount_cons (job : Nat) (m : ReqMeta) (metas : List ReqMeta) :
    jobCount job (m :: metas) = (if carries job m then 1 else 0) + jobCount job metas := by
  rw [jobCount, List.countP_cons, jobCount, Nat.add_comm]

/-- A job's blocks are held: those it needs have a reference of its own. -/
def Held (needs : ReqMeta → List BlockId) (d : Desk BlockId) (m : ReqMeta) : Prop :=
  m.canSave = true → ∃ job, m.storeJobId = some job ∧ ∀ b ∈ needs m, d.Holds job b

/-- What one meta of `_reference_save_blocks` does. -/
inductive Referenced (cfg : StoreConfig) (state : Referencing) (m : ReqMeta) :
    Referencing → Prop
  /-- The meta asks for no job. -/
  | idle : m.canSave = false →
      Referenced cfg state m { state with requests := state.requests ++ [m] }
  /-- The job has its blocks already. -/
  | pinned (job : Nat) : m.canSave = true → m.storeJobId = some job →
      Referenced cfg state m { state with requests := state.requests ++ [m] }
  /-- The job reads no block. -/
  | empty (done : Referencing) : m.canSave = true → m.storeJobId = none → jobBlocks cfg m = [] →
      done.requests = state.requests ++
        [{ m with storeJobId := some state.scheduler.nextStoreJobId }] →
      desk done.scheduler done.pool = (desk state.scheduler state.pool).skip →
      done.scheduler.finishedPartialTailMetas = state.scheduler.finishedPartialTailMetas →
      Referenced cfg state m done
  /-- A new ticket for the job's blocks. -/
  | fresh (done : Referencing) : m.canSave = true → m.storeJobId = none →
      done.requests = state.requests ++
        [{ m with storeJobId := some state.scheduler.nextStoreJobId }] →
      desk done.scheduler done.pool =
        (desk state.scheduler state.pool).issue (fromKeys (jobBlocks cfg m)) cfg.numWorkers →
      done.scheduler.finishedPartialTailMetas = state.scheduler.finishedPartialTailMetas →
      Referenced cfg state m done

theorem referenced_of_ok {state done : Referencing} {m : ReqMeta}
    (h : referenceSave cfg state m = .ok done) : Referenced cfg state m done := by
  simp only [referenceSave] at h
  split at h
  · next hidle =>
      cases h
      exact .idle (by simpa using hidle)
  · next hsave =>
    have hsave : m.canSave = true := by simpa using hsave
    split at h
    · next job hjob =>
        simp only [bind_eq_ok] at h
        obtain ⟨_, -, hret⟩ := h
        cases hret
        exact .pinned job hsave hjob
    · next hnone =>
        simp only [bind_eq_ok] at h
        obtain ⟨_, -, _, -, h⟩ := h
        split at h
        · next hempty =>
            cases h
            refine .empty _ hsave hnone ?_ rfl rfl rfl
            exact List.eq_nil_iff_forall_not_mem.mpr fun b hb =>
              List.eq_nil_iff_forall_not_mem.mp hempty b (mem_fromKeys.mpr hb)
        · cases h
          exact .fresh _ hsave hnone rfl rfl rfl

/-- The desk while a step's metas are referenced, `rest` still to come: it is in balance with
what the ranks owe and will owe on these metas, and the metas that are done hold their
blocks. -/
structure Refers (cfg : StoreConfig) (needs : ReqMeta → List BlockId) (own : BlockId → Nat)
    (base : Nat → Nat) (before : Desk BlockId) (rest : List ReqMeta) (state : Referencing) :
    Prop where
  balanced : Balanced (desk state.scheduler state.pool) own fun j =>
    base j + cfg.numWorkers * jobCount j (state.requests ++ rest)
  keeps : ∀ j b, before.Holds j b → (desk state.scheduler state.pool).Holds j b
  grows : before.next ≤ state.scheduler.nextStoreJobId
  held : ∀ m ∈ state.requests, Held needs (desk state.scheduler state.pool) m
  unheld : ∀ m ∈ rest, m.storeJobId = none ∨ Held needs before m

/-- A meta that gets a number is counted for it. -/
theorem jobCount_number {m : ReqMeta} (hsave : m.canSave = true) (hnone : m.storeJobId = none)
    (job j : Nat) (metas rest : List ReqMeta) :
    jobCount j ((metas ++ [{ m with storeJobId := some job }]) ++ rest) =
      jobCount j (metas ++ m :: rest) + if j = job then 1 else 0 := by
  have hold : carries j m = false := by simp [carries, hnone]
  have hnew : carries j { m with storeJobId := some job } = decide (j = job) := by
    simp [carries, hsave, eq_comm]
  simp only [jobCount_append, jobCount_cons, jobCount_nil, hold, hnew, decide_eq_true_eq]
  by_cases h : j = job
  · simp [h]
    omega
  · simp [h]

variable {needs : ReqMeta → List BlockId} {own : BlockId → Nat} {base : Nat → Nat}
  {before : Desk BlockId} {rest : List ReqMeta} {state done : Referencing} {m : ReqMeta}

theorem Held.mono {d d' : Desk BlockId} (h : Held needs d m)
    (hkeep : ∀ j b, d.Holds j b → d'.Holds j b) : Held needs d' m := fun hsave => by
  obtain ⟨job, hjob, hblocks⟩ := h hsave
  exact ⟨job, hjob, fun b hb => hkeep job b (hblocks b hb)⟩

/-- The metas before and after one that gets the next number. -/
theorem Refers.number (h : Refers cfg needs own base before (m :: rest) state)
    (hsave : m.canSave = true) (hnone : m.storeJobId = none)
    (hrequests : done.requests = state.requests ++
      [{ m with storeJobId := some state.scheduler.nextStoreJobId }])
    (hgrow : done.scheduler.nextStoreJobId = state.scheduler.nextStoreJobId + 1)
    (hbalanced : ∀ owed, Balanced (desk state.scheduler state.pool) own owed →
      Balanced (desk done.scheduler done.pool) own
        (Function.update owed state.scheduler.nextStoreJobId cfg.numWorkers))
    (hkeep : ∀ j b, (desk state.scheduler state.pool).Holds j b →
      (desk done.scheduler done.pool).Holds j b)
    (hheld : Held needs (desk done.scheduler done.pool)
      { m with storeJobId := some state.scheduler.nextStoreJobId }) :
    Refers cfg needs own base before rest done where
  balanced := by
    have hb := hbalanced _ h.balanced
    have hzero := (h.balanced.fresh _ (Nat.le_refl _)).2
    convert hb using 1
    funext j
    rw [hrequests, jobCount_number hsave hnone]
    by_cases hj : j = state.scheduler.nextStoreJobId
    · subst hj
      rw [Function.update_self, if_pos rfl]
      have hz : base state.scheduler.nextStoreJobId + cfg.numWorkers *
          jobCount state.scheduler.nextStoreJobId (state.requests ++ m :: rest) = 0 := hzero
      rw [Nat.mul_add, Nat.mul_one]
      omega
    · rw [Function.update_of_ne hj, if_neg hj, Nat.add_zero]
  keeps j b hb := hkeep j b (h.keeps j b hb)
  grows := by
    rw [hgrow]
    exact Nat.le_succ_of_le h.grows
  held m' hm' := by
    rw [hrequests] at hm'
    rcases List.mem_append.mp hm' with hm' | hm'
    · exact (h.held m' hm').mono hkeep
    · exact List.mem_singleton.mp hm' ▸ hheld
  unheld m' hm' := h.unheld m' (List.mem_cons_of_mem _ hm')

/-- **One referenced meta keeps the desk in balance.** -/
theorem Refers.step (hneeds : ∀ m, needs m ⊆ jobBlocks cfg m)
    (h : Refers cfg needs own base before (m :: rest) state)
    (hstep : Referenced cfg state m done) : Refers cfg needs own base before rest done := by
  have hskip : ∀ hm : Held needs (desk state.scheduler state.pool) m,
      Refers cfg needs own base before rest { state with requests := state.requests ++ [m] } :=
    fun hm =>
      { balanced := by simpa using h.balanced
        keeps := h.keeps
        grows := h.grows
        held := fun m' hm' => by
          rcases List.mem_append.mp hm' with hm' | hm'
          · exact h.held m' hm'
          · exact List.mem_singleton.mp hm' ▸ hm
        unheld := fun m' hm' => h.unheld m' (List.mem_cons_of_mem _ hm') }
  cases hstep with
  | idle hidle => exact hskip fun hsave => by simp [hidle] at hsave
  | pinned job hsave hjob =>
      rcases h.unheld m List.mem_cons_self with hnone | hheld
      · simp [hjob] at hnone
      · exact hskip (hheld.mono h.keeps)
  | empty done hsave hnone hempty hrequests hdesk _ =>
      refine h.number hsave hnone hrequests (congrArg Desk.next hdesk) (fun owed hbal => ?_)
        (fun j b hb => ?_) fun _ => ⟨_, rfl, fun b hb => ?_⟩
      · exact hdesk ▸ hbal.skip cfg.numWorkers
      · exact hdesk ▸ hb
      · have hjob : b ∈ jobBlocks cfg m := hneeds { m with storeJobId := some _ } hb
        rw [hempty] at hjob
        cases hjob
  | fresh done hsave hnone hrequests hdesk _ =>
      refine h.number hsave hnone hrequests (congrArg Desk.next hdesk) (fun owed hbal => ?_)
        (fun j b hb => ?_) fun _ => ⟨_, rfl, fun b hb => ?_⟩
      · exact hdesk ▸ hbal.issue cfg.workersPos
      · exact hdesk ▸ h.balanced.holds_issue hb
      · have hjob : b ∈ jobBlocks cfg m := hneeds { m with storeJobId := some _ } hb
        exact hdesk ▸ Desk.holds_issue_self (mem_fromKeys.mpr hjob)

/-- Referencing changes no bookkeeping of the tails. -/
theorem Referenced.tails (h : Referenced cfg state m done) :
    done.scheduler.finishedPartialTailMetas = state.scheduler.finishedPartialTailMetas := by
  cases h with
  | idle _ => rfl
  | pinned _ _ _ => rfl
  | empty _ _ _ _ _ _ htails => exact htails
  | fresh _ _ _ _ _ htails => exact htails

theorem Referenced.appends (h : Referenced cfg state m done) :
    ∃ m', done.requests = state.requests ++ [m'] ∧ m'.canSave = m.canSave := by
  cases h with
  | idle _ => exact ⟨m, rfl, rfl⟩
  | pinned _ _ _ => exact ⟨m, rfl, rfl⟩
  | empty _ _ _ _ hrequests _ _ => exact ⟨_, hrequests, rfl⟩
  | fresh _ _ _ hrequests _ _ => exact ⟨_, hrequests, rfl⟩

/-- **The metadata of a step.** Its jobs hold what they need, every rank that gets the metadata
owes a report on each of them, and the finish-time tails have left the scheduler with it. -/
theorem buildConnectorMeta_desk {pool' : BlockPool} {sent : MooncakeStoreConnectorMetadata}
    (hneeds : ∀ m, needs m ⊆ jobBlocks cfg m)
    (h : buildConnectorMeta cfg requests out s pool = .ok (s', pool', sent))
    (hbal : Balanced (desk s pool) own fun j =>
      base j + cfg.numWorkers * jobCount j (s.finishedPartialTailMetas.map Prod.snd))
    (htails : ∀ m ∈ s.finishedPartialTailMetas.map Prod.snd,
      Held needs (desk s pool) m ∧ cfg.canPut = true) :
    Balanced (desk s' pool') own (fun j => base j + cfg.numWorkers * jobCount j sent.requests) ∧
      (∀ j b, (desk s pool).Holds j b → (desk s' pool').Holds j b) ∧
      s.nextStoreJobId ≤ s'.nextStoreJobId ∧ s'.finishedPartialTailMetas = [] ∧
      (∀ m ∈ sent.requests, Held needs (desk s' pool') m) ∧
      ∀ m ∈ sent.requests, m.canSave = true → cfg.canPut = true := by
  simp only [buildConnectorMeta, bind_eq_ok] at h
  obtain ⟨building, hbuild, metas, hmetas, done, hdone, hret⟩ := h
  cases hret
  have hcur := (built_buildRequests hbuild).addOffloads.applyCurrent hmetas
  have hsame : SameJobs s (addOffloads cfg requests out building).1 := hcur.same
  have hzero : ∀ j, jobCount j metas = 0 := fun j =>
    List.countP_eq_zero.mpr fun m hm => by simp [carries, hcur.unnumbered m hm]
  have hdesk : desk { (addOffloads cfg requests out building).1 with
      finishedPartialTailMetas := [] } pool = desk s pool := by
    simp only [desk, hsame.next, hsame.pinned]
  rw [hsame.tails] at hdone
  have hstart : Refers cfg needs own base (desk s pool)
      (metas ++ s.finishedPartialTailMetas.map Prod.snd)
      { scheduler := { (addOffloads cfg requests out building).1 with
          finishedPartialTailMetas := [] }, pool } :=
    { balanced := by
        rw [hdesk]
        convert hbal using 2 with j
        simp [hzero]
      keeps := fun j b hb => hdesk ▸ hb
      grows := Nat.le_of_eq hsame.next.symm
      held := by simp
      unheld := fun m hm => by
        rcases List.mem_append.mp hm with hm | hm
        · exact Or.inl (hcur.unnumbered m hm)
        · exact Or.inr (htails m hm).1 }
  have hwanted : ∀ m ∈ metas ++ s.finishedPartialTailMetas.map Prod.snd,
      m.canSave = true → cfg.canPut = true := fun m hm => by
    rcases List.mem_append.mp hm with hm | hm
    · exact hcur.wanted m hm
    · exact fun _ => (htails m hm).2
  obtain ⟨hrefers, htailsDone, hput⟩ := foldlM_invariant
    (P := fun rest state => Refers cfg needs own base (desk s pool) rest state ∧
      state.scheduler.finishedPartialTailMetas = [] ∧
      ∀ m ∈ state.requests ++ rest, m.canSave = true → cfg.canPut = true)
    (fun m rest state state' hP hstep => by
      have href := referenced_of_ok hstep
      obtain ⟨m', hrequests, hsave⟩ := href.appends
      refine ⟨hP.1.step hneeds href, href.tails.trans hP.2.1, ?_⟩
      rw [hrequests, List.append_assoc, List.singleton_append, List.forall_mem_append,
        List.forall_mem_cons, hsave]
      exact ⟨fun x hx => hP.2.2 x (List.mem_append_left _ hx),
        hP.2.2 m (List.mem_append_right _ List.mem_cons_self),
        fun x hx => hP.2.2 x (List.mem_append_right _ (List.mem_cons_of_mem _ hx))⟩)
    hdone ⟨hstart, rfl, by simpa using hwanted⟩
  exact ⟨by simpa using hrefers.balanced, hrefers.keeps, hrefers.grows, htailsDone, hrefers.held,
    by simpa using hput⟩

theorem Referenced.next_le (h : Referenced cfg state m done) :
    state.scheduler.nextStoreJobId ≤ done.scheduler.nextStoreJobId := by
  cases h with
  | idle _ => exact Nat.le_refl _
  | pinned _ _ _ => exact Nat.le_refl _
  | empty _ _ _ _ _ hdesk _ =>
      have hnext : done.scheduler.nextStoreJobId = state.scheduler.nextStoreJobId + 1 :=
        congrArg Desk.next hdesk
      omega
  | fresh _ _ _ _ hdesk _ =>
      have hnext : done.scheduler.nextStoreJobId = state.scheduler.nextStoreJobId + 1 :=
        congrArg Desk.next hdesk
      omega

/-- A job of the metadata that is not new is a tail that waited. -/
theorem buildConnectorMeta_origin {sent : MooncakeStoreConnectorMetadata}
    (h : buildConnectorMeta cfg requests out s pool = .ok (s', pool', sent)) :
    ∀ m ∈ sent.requests, ∀ job, m.storeJobId = some job → job < s.nextStoreJobId →
      m ∈ s.finishedPartialTailMetas.map Prod.snd := by
  simp only [buildConnectorMeta, bind_eq_ok] at h
  obtain ⟨building, hbuild, metas, hmetas, done, hdone, hret⟩ := h
  cases hret
  have hcur := (built_buildRequests hbuild).addOffloads.applyCurrent hmetas
  have hsame : SameJobs s (addOffloads cfg requests out building).1 := hcur.same
  rw [hsame.tails] at hdone
  have hall := foldlM_invariant
    (P := fun rest state => s.nextStoreJobId ≤ state.scheduler.nextStoreJobId ∧
      ∀ m ∈ state.requests ++ rest, ∀ job, m.storeJobId = some job → job < s.nextStoreJobId →
        m ∈ s.finishedPartialTailMetas.map Prod.snd)
    (fun m rest state state' hP hstep => by
      have href := referenced_of_ok hstep
      refine ⟨Nat.le_trans hP.1 href.next_le, fun m' hm' job hjob hlt => ?_⟩
      have hnumbered : ∀ requests, requests = state.requests ++
          [{ m with storeJobId := some state.scheduler.nextStoreJobId }] →
          m' ∈ requests ++ rest → m' ∈ s.finishedPartialTailMetas.map Prod.snd := by
        rintro _ rfl hm'
        rw [List.append_assoc] at hm'
        rcases List.mem_append.mp hm' with hm' | hm'
        · exact hP.2 m' (List.mem_append_left _ hm') job hjob hlt
        · rcases List.mem_cons.mp hm' with rfl | hm'
          · obtain rfl := Option.some.inj hjob
            exact absurd hlt (Nat.not_lt.mpr hP.1)
          · exact hP.2 m' (List.mem_append_right _ (List.mem_cons_of_mem _ hm')) job hjob hlt
      cases href with
      | idle _ => exact hP.2 m' (by simpa using hm') job hjob hlt
      | pinned _ _ _ => exact hP.2 m' (by simpa using hm') job hjob hlt
      | empty _ _ _ _ hrequests _ _ => exact hnumbered _ hrequests hm'
      | fresh _ _ _ hrequests _ _ => exact hnumbered _ hrequests hm')
    hdone ⟨Nat.le_of_eq hsame.next.symm, fun m hm job hjob _ => by
      rw [List.nil_append] at hm
      rcases List.mem_append.mp hm with hm | hm
      · rw [hcur.unnumbered m hm] at hjob
        cases hjob
      · exact hm⟩
  intro m hm job hjob hlt
  exact hall.2 m (by simpa using hm) job hjob hlt

/-! ### Finish-time tails -/

theorem remapTail_blocks {offloads remapped : List BoundaryOffload}
    (h : remapTail cfg offloads = some remapped) :
    remapped.map BoundaryOffload.blockId = offloads.map BoundaryOffload.blockId := by
  induction offloads generalizing remapped with
  | nil =>
      obtain rfl := Option.some.inj h
      rfl
  | cons entry offloads ih =>
      rw [remapTail, List.mapM_cons] at h
      obtain ⟨entry', hentry, h⟩ := Option.bind_eq_some_iff.mp h
      obtain ⟨rest, hrest, h⟩ := Option.bind_eq_some_iff.mp h
      obtain rfl := Option.some.inj h
      rw [List.map_cons, List.map_cons, ih hrest]
      refine congrArg (· :: _) ?_
      split at hentry
      · cases hentry
      · obtain ⟨group, -, rfl⟩ := Option.map_eq_some_iff.mp hentry
        rfl

/-- **A finish-time tail** is a new job whose boundary states' blocks are held; the other calls
change nothing. -/
theorem registerFinishedPartialTail_desk {reqId : ReqId} {blockHashes : List BlockHash}
    {tables : List (List BlockId)} {offloads : List BoundaryOffload}
    (h : registerFinishedPartialTail cfg s pool reqId blockHashes tables offloads =
      .ok (s', pool')) :
    s' = s ∧ pool' = pool ∨
    ∃ m pinned, m.canSave = true ∧ m.storeJobId = some s.nextStoreJobId ∧
      (∀ b ∈ offloadBlocks m, b ∈ pinned) ∧ cfg.canPut = true ∧
      s'.finishedPartialTailMetas = s.finishedPartialTailMetas ++ [(reqId, m)] ∧
      desk s' pool' = (desk s pool).issue pinned cfg.numWorkers := by
  simp only [registerFinishedPartialTail] at h
  split at h
  · cases h
    exact Or.inl ⟨rfl, rfl⟩
  · next hconsumer =>
    split at h
    · cases h
      exact Or.inl ⟨rfl, rfl⟩
    · cases h
      exact Or.inl ⟨rfl, rfl⟩
    · next first rest tracker _ =>
      split at h
      · cases h
        exact Or.inl ⟨rfl, rfl⟩
      · split at h
        · cases h
        · split at h
          · cases h
            exact Or.inl ⟨rfl, rfl⟩
          · split at h
            · cases h
              exact Or.inl ⟨rfl, rfl⟩
            · next remapped hremap =>
              simp only [bind_eq_ok] at h
              obtain ⟨_, hfresh, blockIds, -, hret⟩ := h
              cases hret
              refine Or.inr ⟨_, _, rfl, rfl, ?_, canPut_of_not_consumer (by simpa using hconsumer),
                Assoc.set_of_not_mem ?_, rfl⟩
              · intro b hb
                rw [mem_fromKeys, ← remapTail_blocks hremap]
                exact hb
              · exact Assoc.get_eq_none.mp (Option.isNone_iff_eq_none.mp (require_ok.mp hfresh))

/-! ### The reports of a step -/

theorem releaseSave_of_settle {entry : Nat × Nat} {d : Desk BlockId}
    (h : (desk s pool).settle entry = some d) :
    releaseSave (s, pool) entry = .ok ({ s with pinnedSaves := d.opened }, d.refs) := by
  simp only [desk, Desk.settle] at h
  simp only [releaseSave]
  split at h
  · next hget =>
      obtain rfl := Option.some.inj h
      simp only [hget]
  · next blockIds remaining hget =>
      simp only [hget]
      split at h
      · next hlt =>
          obtain rfl := Option.some.inj h
          rw [if_pos hlt]
      · next hlt =>
          split at h
          · next heq =>
              obtain rfl := Option.some.inj h
              rw [if_neg hlt, if_pos heq]
              have hfree : pool.freeBlocks blockIds.reverse = fun b => pool b - blockIds.count b :=
                funext fun b => by rw [BlockPool.freeBlocks_apply, List.count_reverse]
              rw [hfree]
          · cases h

theorem updateConnectorOutput_of_settleAll {completed : CompletedSaves} {d : Desk BlockId}
    (h : (desk s pool).settleAll completed = some d) :
    updateConnectorOutput s pool completed = .ok ({ s with pinnedSaves := d.opened }, d.refs) := by
  induction completed generalizing s pool with
  | nil => obtain rfl := Option.some.inj h; rfl
  | cons entry completed ih =>
      rw [Desk.settleAll, List.foldlM_cons] at h
      obtain ⟨d', hstep, hrest⟩ := Option.bind_eq_some_iff.mp h
      rw [updateConnectorOutput, List.foldlM_cons, releaseSave_of_settle hstep]
      have hnext : d'.next = s.nextStoreJobId := Desk.settle_next hstep
      have hdesk : desk { s with pinnedSaves := d'.opened } d'.refs = d' := by
        simp only [desk, ← hnext]
      exact ih (hdesk ▸ hrest)

/-- **The reports of a step** are never too many, and give back the references of the jobs
that no rank owes a report on any more. -/
theorem updateConnectorOutput_desk {completed : CompletedSaves} {owed owed' : Nat → Nat}
    (h : Balanced (desk s pool) own owed)
    (howed : ∀ j, owed j = owed' j + Custody.reported j completed) :
    ∃ s' pool', updateConnectorOutput s pool completed = .ok (s', pool') ∧
      Balanced (desk s' pool') own owed' ∧
      s' = { s with pinnedSaves := s'.pinnedSaves } ∧
      ∀ j b, 0 < owed' j → (desk s pool).Holds j b → (desk s' pool').Holds j b := by
  obtain ⟨d, hsettle, hbal, hnext, hkeep⟩ := h.settleAll howed
  have hdesk : desk { s with pinnedSaves := d.opened } d.refs = d := by
    simp only [desk, show s.nextStoreJobId = d.next from hnext.symm]
  exact ⟨_, _, updateConnectorOutput_of_settleAll hsettle, hdesk.symm ▸ hbal, rfl,
    hdesk.symm ▸ hkeep⟩

end MooncakeStoreScheduler

end KVServe.Store

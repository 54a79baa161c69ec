import KVServe.Session.ProducerRuns

/-!
# KVServe.Session.ProducerAbort

**What an acknowledged abort guarantees.** After `CompressionAbortAck` without
an error the producer must not write for that operation key any more: no
`EncodeChunkJob` is with the engine, none is submitted while the `_closed` entry
lives, and no filed session of the key is active.

`AbortInv` is the joint use of `_closed`, `_operations` and the job table that
this rests on. It needs `SingleOpen`, which both senders of a `SessionOpen` keep:
`_dispatch_producer` would file an open for several requests under `("", "", nonce)`
while the handler works on the first of them, and an abort does not wait for such
an open.
-/

namespace KVServe.Session

namespace Producer

variable {s s' t : Producer} {tid : Nat} {a : Action} {key : OperationKey}

/-! ### Conditions on a step -/

/-- The engine answers in time: only a drain ever runs into its deadline. -/
def JobsInTime (s : Producer) (a : Action) : Prop :=
  ∀ tid task, a = .timeout tid → s.tasks[tid]? = some task → task.coro.isDraining = true

/-- A `SessionOpen` carries at most one request, as every sender builds it. -/
def SingleOpen (a : Action) : Prop :=
  ∀ identity request, a = .recv identity (.sessionOpen request) →
    request.metadata.reqBlocks.length ≤ 1

/-- The `_closed` entry of the key has not expired. -/
def Unexpired (s : Producer) (key : OperationKey) : Prop :=
  ∃ expiry, s.book.closed key = some expiry ∧ s.now < expiry

/-- The acknowledgement of a safe cancellation. -/
def safeAck (key : OperationKey) : CompressionResponse :=
  .abortAck { transferId := key.1, dReqId := key.2.1, nonce := key.2.2, error := none }

/-- Nothing is written for the key: no job is with the engine, no session is active. -/
structure Quiet (s : Producer) (key : OperationKey) : Prop where
  noJob : ∀ id job, s.engineJobs id = some (.encodeChunk job) → job.operationKey ≠ key
  noActive : s.book.NoActive key

/-! ### What a run does, by lookup -/

/-- What a task that has just moved to `coro` has done. -/
structure Moves (s : Producer) (tid : Nat) (s' : Producer) (coro : Coroutine) : Prop where
  tasks : s'.tasks = (s.setCoro tid coro).tasks
  next : s.nextJobId ≤ s'.nextJobId
  jobs : ∀ id, s'.engineJobs id = s.engineJobs id ∨
    (id = s.nextJobId + 1 ∧ s'.nextJobId = s.nextJobId + 1)
  encodes : ∀ id job, s'.engineJobs id = some (.encodeChunk job) →
    s.engineJobs id = some (.encodeChunk job) ∨
      ∃ request sref slot, coro = .chunkPull request (.waitEncode sref slot id) ∧
        request.operationKey = job.operationKey
  submits : ∀ key, coro.submittedKey? = some key → s.book.closed key = none
  drains : ∀ request found pending deadline, coro = .abort request (.draining found pending
    deadline) → pending = s.operations request.operationKey ∧ deadline = s.now + abortTimeout ∧
      s'.book.closed request.operationKey = some (s.now + pendingReqExpiry)

theorem submit_engineJobs (s : Producer) (job : HelperJob) (id : Nat) :
    (s.submit job).engineJobs id = if id = s.nextJobId + 1 then some job else s.engineJobs id := by
  simp [submit, Function.update_apply]

theorem Effect.moves (h : Effect s tid s') : ∃ coro, Moves s tid s' coro := by
  cases h with
  | parks coro htasks hjobs hnext hkey hdrain =>
      refine ⟨coro, htasks, hnext.ge, fun id => Or.inl (by rw [hjobs]),
        fun id job hid => Or.inl (by rwa [← hjobs]), fun key h => ?_, ?_⟩
      · rw [hkey] at h; cases h
      · rintro request found pending deadline rfl
        cases hdrain
  | waits request found htasks hjobs hnext hclosed =>
      refine ⟨_, htasks, hnext.ge, fun id => Or.inl (by rw [hjobs]),
        fun id job hid => Or.inl (by rwa [← hjobs]), fun key h => (by cases h), ?_⟩
      intro request' found' pending deadline heq
      cases heq
      exact ⟨rfl, rfl, hclosed⟩
  | drains coro slots htasks hjobs hnext hkey hdrain =>
      refine ⟨coro, htasks, by omega, fun id => ?_, fun id job hid => ?_, fun key h => ?_, ?_⟩
      · rw [hjobs, submit_engineJobs]
        split
        · rename_i hid; exact Or.inr ⟨hid, hnext⟩
        · exact Or.inl rfl
      · rw [hjobs, submit_engineJobs] at hid
        split at hid
        · cases hid
        · exact Or.inl hid
      · rw [hkey] at h; cases h
      · rintro request found pending deadline rfl
        cases hdrain
  | opens request ref isNew job htasks hjobs hnext hopen =>
      refine ⟨_, htasks, by omega, fun id => ?_, fun id job hid => ?_, fun key h => hopen key h, ?_⟩
      · rw [hjobs, submit_engineJobs]
        split
        · rename_i hid; exact Or.inr ⟨hid, hnext⟩
        · exact Or.inl rfl
      · rw [hjobs, submit_engineJobs] at hid
        split at hid
        · cases hid
        · exact Or.inl hid
      · intro request' found' pending deadline heq
        cases heq
  | encodes request sref slot job htasks hjobs hnext hkey hopen =>
      refine ⟨_, htasks, by omega, fun id => ?_, fun id job' hid => ?_, fun key h => ?_, ?_⟩
      · rw [hjobs, submit_engineJobs]
        split
        · rename_i hid; exact Or.inr ⟨hid, hnext⟩
        · exact Or.inl rfl
      · rw [hjobs, submit_engineJobs] at hid
        split at hid
        · rename_i heq
          cases hid
          exact Or.inr ⟨request, sref, slot, by rw [heq], hkey.symm⟩
        · exact Or.inl hid
      · obtain rfl : request.operationKey = key := Option.some.inj h
        exact hopen
      · intro request' found' pending deadline heq
        cases heq

/-! ### The invariant -/

/-- What the producer maintains about operations, jobs and closed keys. -/
structure AbortInv (s : Producer) : Prop where
  filed : s.book.FiledWf
  /-- Job ids are not used twice. -/
  fresh : ∀ id, s.nextJobId < id → s.engineJobs id = none ∧ s.futures id = none
  answered : ∀ id, (s.futures id).isSome → s.engineJobs id = none
  single : ∀ {tid : Nat} {task : Task} {request : CompressionSessionOpen},
    s.tasks[tid]? = some task → task.coro.request = .sessionOpen request →
    request.metadata.reqBlocks.length ≤ 1
  /-- Cancellation only comes with shutdown, after the router is closed. -/
  uncancelled : s.routerOpen = true → ∀ {tid : Nat} {task : Task},
    s.tasks[tid]? = some task → task.cancelRequested = false
  /-- An encode job with the engine has a handler waiting for it. -/
  covered : s.routerOpen = true → ∀ {id : Nat} {job : EncodeChunkJob},
    s.engineJobs id = some (.encodeChunk job) →
    ∃ (tid : Nat) (task : Task) (request : CompressionChunkPull) (sref slot : Nat),
      s.tasks[tid]? = some task ∧ task.coro = .chunkPull request
        (.waitEncode sref slot id) ∧ request.operationKey = job.operationKey
  /-- An abort that drains has closed its key, and waits for every handler that
  got past the `_closed` check before. -/
  draining : ∀ {tid : Nat} {task : Task} {request : CompressionAbort} {found : Option Nat}
    {pending : List Nat} {deadline : Nat}, s.tasks[tid]? = some task →
    task.coro = .abort request (.draining found pending deadline) →
    deadline ≤ s.now + abortTimeout ∧
    (s.now ≤ deadline →
      (∃ expiry, s.book.closed request.operationKey = some expiry ∧ deadline < expiry) ∧
      ∀ {tid' : Nat} {task' : Task}, s.tasks[tid']? = some task' →
        task'.coro.submittedKey? = some request.operationKey → tid' ∈ pending)

theorem submittedKey?_of_isDone {coro : Coroutine} (h : coro.isDone = true) :
    coro.submittedKey? = none := by
  cases coro with
  | sessionOpen request pos => cases pos <;> first | rfl | cases h
  | chunkPull request pos => cases pos <;> first | rfl | cases h
  | abort request pos => rfl

/-- A handler that submitted a job is among the operations of its key. -/
theorem mem_operations {task : Task} (htask : s.tasks[tid]? = some task)
    (hkey : task.coro.submittedKey? = some key)
    (hsingle : ∀ request, task.coro.request = .sessionOpen request →
      request.metadata.reqBlocks.length ≤ 1) :
    tid ∈ s.operations key := by
  obtain ⟨hlt, -⟩ := List.getElem?_eq_some_iff.mp htask
  refine List.mem_filter.mpr ⟨List.mem_range.mpr hlt, ?_⟩
  simp only [htask, Bool.and_eq_true, decide_eq_true_eq, Bool.not_eq_true']
  cases hcoro : task.coro with
  | abort request pos => rw [hcoro] at hkey; cases hkey
  | chunkPull request pos =>
      rw [hcoro] at hkey
      cases pos with
      | waitEncode sref slot job => exact ⟨hkey, rfl⟩
      | _ => cases hkey
  | sessionOpen request pos =>
      rw [hcoro] at hkey hsingle
      cases pos with
      | waitJob ref isNew job =>
          exact ⟨congrArg some
            (CompressionSessionOpen.dispatchKey_of_single (hsingle request rfl) hkey), rfl⟩
      | _ => cases hkey

theorem start_abortInv (init : InitMessage) : AbortInv (start init) where
  filed h := by cases h
  fresh _ _ := ⟨rfl, rfl⟩
  answered _ _ := rfl
  single h := by simp [start] at h
  uncancelled _ := by intro tid task h; simp [start] at h
  covered _ := by intro id job h; cases h
  draining h := by simp [start] at h

/-- The book changes without `_closed` entries being dropped. -/
theorem AbortInv.mapBook (h : AbortInv s) {f : Book → Book}
    (hf : Book.Evolves s.now s.book (f s.book)) : AbortInv (s.mapBook f) where
  filed := hf.filedWf h.filed
  fresh := h.fresh
  answered := h.answered
  single := h.single
  uncancelled := h.uncancelled
  covered := h.covered
  draining htask hcoro := by
    obtain ⟨hdl, hd⟩ := h.draining htask hcoro
    refine ⟨hdl, fun hnow => ?_⟩
    obtain ⟨⟨expiry, hexp, hlt⟩, hpend⟩ := hd hnow
    refine ⟨?_, hpend⟩
    rcases hf.closed _ with hc | hc
    · exact ⟨expiry, hc.trans hexp, hlt⟩
    · have hdl : _ ≤ s.now + abortTimeout := hdl
      exact ⟨_, hc, by simp only [pendingReqExpiry]; omega⟩

/-- A task that moves keeps the invariant, if it was not waiting for an
encode job that is still with the engine. -/
theorem AbortInv.moves (h : AbortInv s) {task : Task} {coro : Coroutine}
    (htask : s.tasks[tid]? = some task) (hmove : Moves s tid s' coro) (hframe : Frame s s') (hfiled : s'.book.FiledWf)
    (hclosed : ∀ key, s'.book.closed key = s.book.closed key ∨
      s'.book.closed key = some (s.now + pendingReqExpiry))
    (hrequest : coro.request = task.coro.request)
    (hidle : s.routerOpen = true → ∀ request sref slot id,
      task.coro = .chunkPull request (.waitEncode sref slot id) → s.engineJobs id = none) :
    AbortInv s' where
  filed := hfiled
  fresh id hid := by
    have hold := h.fresh id (by have := hmove.next; omega)
    refine ⟨?_, by rw [hframe.futures]; exact hold.2⟩
    rcases hmove.jobs id with hj | ⟨rfl, hj⟩
    · rw [hj]; exact hold.1
    · omega
  answered id hid := by
    rw [hframe.futures] at hid
    rcases hmove.jobs id with hj | ⟨rfl, -⟩
    · rw [hj]; exact h.answered id hid
    · rw [(h.fresh _ (Nat.lt_succ_self _)).2] at hid
      cases hid
  single htask' hreq := by
    rw [hmove.tasks] at htask'
    rcases setCoro_tasks_some htask' with ⟨rfl, task', hold, rfl⟩ | ⟨-, hold⟩
    · obtain rfl := Option.some.inj (htask.symm.trans hold)
      exact h.single hold (hrequest.symm.trans hreq)
    · exact h.single hold hreq
  uncancelled hopen := by
    intro j task' htask'
    rw [hmove.tasks] at htask'
    rw [hframe.routerOpen] at hopen
    rcases setCoro_tasks_some htask' with ⟨rfl, task', hold, rfl⟩ | ⟨-, hold⟩
    · have := h.uncancelled hopen hold
      exact this
    · exact h.uncancelled hopen hold
  covered hopen := by
    intro id job hjob
    rw [hframe.routerOpen] at hopen
    rcases hmove.encodes id job hjob with hold | ⟨request, sref, slot, rfl, hkey⟩
    · obtain ⟨j, task', request, sref, slot, htask', hcoro, hkey⟩ := h.covered hopen hold
      have hj : j ≠ tid := by
        rintro rfl
        obtain rfl := Option.some.inj (htask.symm.trans htask')
        rw [hidle hopen request sref slot id hcoro] at hold
        cases hold
      exact ⟨j, task', request, sref, slot,
        by rw [hmove.tasks, setCoro_tasks_of_ne hj]; exact htask', hcoro, hkey⟩
    · exact ⟨tid, _, request, sref, slot, by rw [hmove.tasks]; exact setCoro_tasks_self htask,
        rfl, hkey⟩
  draining := by
    intro j task' request found pending deadline htask' hcoro
    rw [hframe.now]
    rw [hmove.tasks] at htask'
    -- A task that gets past the `_closed` check finds its key not closed.
    have hlate {deadline : Nat} {pending : List Nat} {key : OperationKey}
        (hc : ∃ expiry, s.book.closed key = some expiry ∧ deadline < expiry)
        (hpend : ∀ {tid' : Nat} {task' : Task}, s.tasks[tid']? = some task' →
          task'.coro.submittedKey? = some key → tid' ∈ pending) :
        ∀ {tid' : Nat} {task' : Task}, s'.tasks[tid']? = some task' →
          task'.coro.submittedKey? = some key → tid' ∈ pending := by
      intro tid' task' htask' hsub
      rw [hmove.tasks] at htask'
      rcases setCoro_tasks_some htask' with ⟨rfl, task, hold, rfl⟩ | ⟨-, hold⟩
      · obtain ⟨expiry, hexp, -⟩ := hc
        rw [hmove.submits key hsub] at hexp
        cases hexp
      · exact hpend hold hsub
    rcases setCoro_tasks_some htask' with ⟨rfl, task', hold, rfl⟩ | ⟨-, hold⟩
    · obtain ⟨rfl, rfl, hc⟩ := hmove.drains request found pending deadline hcoro
      refine ⟨le_rfl, fun _ => ⟨⟨_, hc, by simp only [pendingReqExpiry]; omega⟩, ?_⟩⟩
      intro tid' task' htask' hsub
      rw [hmove.tasks] at htask'
      rcases setCoro_tasks_some htask' with ⟨rfl, task', -, rfl⟩ | ⟨-, hold'⟩
      · simp only at hcoro; rw [hcoro] at hsub; cases hsub
      · exact mem_operations hold' hsub fun request hreq => h.single hold' hreq
    · obtain ⟨hdl, hd⟩ := h.draining hold hcoro
      refine ⟨hdl, fun hnow => ?_⟩
      obtain ⟨hc, hpend⟩ := hd hnow
      refine ⟨?_, hlate hc hpend⟩
      obtain ⟨expiry, hexp, hlt⟩ := hc
      rcases hclosed request.operationKey with hc | hc
      · exact ⟨expiry, hc.trans hexp, hlt⟩
      · exact ⟨_, hc, by simp only [pendingReqExpiry]; omega⟩

theorem AbortInv.runs (h : AbortInv s) {task : Task} {late : Bool}
    (htask : s.tasks[tid]? = some task) (hruns : Runs s tid task.identity late task.coro s')
    (hlate : late = true → task.coro.isDraining = true) : AbortInv s' := by
  obtain ⟨coro, hmove⟩ := hruns.effect.moves
  obtain ⟨coro', htasks, hrequest⟩ := hruns.request
  obtain rfl : coro = coro' := setCoro_inj htask (hmove.tasks.symm.trans htasks)
  refine h.moves htask hmove hruns.frame (hruns.filedWf h.filed) hruns.closed hrequest ?_
  intro _ request sref slot id hcoro
  refine h.answered id ?_
  rw [hcoro] at hruns hlate
  cases hruns with
  | pullErrs _ hdone => exact hdone (by cases late <;> simp_all [Coroutine.isDraining])
  | pullEncoded hdone => rw [hdone]; rfl
  | pullAborted hslot => cases hslot
  | pullSubmits hslot => cases hslot

/-- A lookup through a change of the cancellation flags. -/
theorem task_of_coro_eq {j : Nat} {task : Task}
    (hmap : s'.tasks.map Task.coro = s.tasks.map Task.coro) (h : s'.tasks[j]? = some task) :
    ∃ task', s.tasks[j]? = some task' ∧ task'.coro = task.coro := by
  have hj : (s.tasks.map Task.coro)[j]? = some task.coro := by
    rw [← hmap, List.getElem?_map, h]; rfl
  rw [List.getElem?_map] at hj
  exact Option.map_eq_some_iff.mp hj

/-- Only the cancellation flags, and possibly the router, change. -/
theorem AbortInv.relabel (h : AbortInv s) (hbook : s'.book = s.book) (hnow : s'.now = s.now)
    (hnext : s'.nextJobId = s.nextJobId) (hjobs : s'.engineJobs = s.engineJobs)
    (hfutures : s'.futures = s.futures)
    (hmap : s'.tasks.map Task.coro = s.tasks.map Task.coro)
    (hopen : s'.routerOpen = true → s.routerOpen = true ∧
      ∀ {tid : Nat} {task : Task}, s'.tasks[tid]? = some task → task.cancelRequested = false) :
    AbortInv s' where
  filed := by rw [hbook]; exact h.filed
  fresh := by rw [hnext, hjobs, hfutures]; exact h.fresh
  answered := by rw [hjobs, hfutures]; exact h.answered
  single htask hreq := by
    obtain ⟨task', hold, hcoro⟩ := task_of_coro_eq hmap htask
    exact h.single hold (hcoro ▸ hreq)
  uncancelled ho := (hopen ho).2
  covered ho := by
    intro id job hjob
    rw [hjobs] at hjob
    obtain ⟨j, task, request, sref, slot, htask, hcoro, hkey⟩ := h.covered (hopen ho).1 hjob
    obtain ⟨task', htask', hcoro'⟩ := task_of_coro_eq hmap.symm htask
    exact ⟨j, task', request, sref, slot, htask', hcoro'.trans hcoro, hkey⟩
  draining htask hcoro := by
    obtain ⟨task', hold, hcoro'⟩ := task_of_coro_eq hmap htask
    obtain ⟨hdl, hd⟩ := h.draining hold (hcoro'.trans hcoro)
    rw [hnow, hbook]
    refine ⟨hdl, fun hle => ⟨(hd hle).1, fun htask₂ hsub => ?_⟩⟩
    obtain ⟨task₂', hold₂, hcoro₂⟩ := task_of_coro_eq hmap htask₂
    exact (hd hle).2 hold₂ (hcoro₂ ▸ hsub)

theorem clearCancel_coros : (s.clearCancel tid).tasks.map Task.coro = s.tasks.map Task.coro := by
  refine List.ext_getElem? fun j => ?_
  rw [List.getElem?_map, List.getElem?_map]
  by_cases hj : tid = j
  · subst hj
    cases htask : s.tasks[tid]? with
    | none => simp [clearCancel, htask]
    | some task => rw [show (s.clearCancel tid).tasks[tid]? = _ from getElem?_modify_self htask _]; rfl
  · rw [show (s.clearCancel tid).tasks[j]? = _ from getElem?_modify_ne hj _]

theorem shutdown_coros : s.shutdown.tasks.map Task.coro = s.tasks.map Task.coro := by
  simp only [shutdown, List.map_map]
  refine List.map_congr_left fun task _ => ?_
  simp only [Function.comp]
  split <;> rfl

theorem AbortInv.runCancelled (h : AbortInv s) {task : Task} (htask : s.tasks[tid]? = some task)
    (hcancel : task.cancelRequested = true) : AbortInv (s.runCancelled tid task) := by
  have hclosed : s.routerOpen ≠ true := fun hopen => by
    rw [h.uncancelled hopen htask] at hcancel
    cases hcancel
  have hclear : AbortInv (s.clearCancel tid) :=
    h.relabel rfl rfl rfl rfl rfl clearCancel_coros fun hopen => absurd hopen hclosed
  have htask' : (s.clearCancel tid).tasks[tid]? = some { task with cancelRequested := false } :=
    getElem?_modify_self htask _
  obtain ⟨coro, hmove⟩ := (runCancelled_effect (s := s) task).moves
  obtain ⟨coro', htasks, hrequest⟩ := runCancelled_request (s := s) task
  obtain rfl : coro = coro' := setCoro_inj htask' (hmove.tasks.symm.trans htasks)
  have hev := @runCancelled_evolves s tid task
  refine hclear.moves htask' hmove ?_ (hev.filedWf h.filed) hev.closed hrequest
    fun hopen => absurd hopen hclosed
  obtain ⟨h1, h2, h3, h4, h5, h6⟩ := runCancelled_frame (s := s) task
  exact ⟨h1, h2, h3, h4, h5, h6⟩

/-- A message is dispatched. Only expired `_closed` entries are dropped. -/
theorem AbortInv.dispatch (h : AbortInv s) {identity : Identity} {request : CompressionRequest}
    (hsingle : ∀ open', request = .sessionOpen open' → open'.metadata.reqBlocks.length ≤ 1) :
    AbortInv (s.dispatchProducer identity request) := by
  unfold dispatchProducer
  split
  · exact h
  · have hnew {j : Nat} {task : Task}
        (hj : (s.tasks ++ [newTask identity request])[j]? = some task) :
        s.tasks[j]? = some task ∨ task = newTask identity request := by
      rcases getElem?_append_some hj with hold | ⟨-, rfl⟩
      · exact Or.inl hold
      · exact Or.inr rfl
    refine ⟨h.filed, h.fresh, h.answered, ?_, ?_, ?_, ?_⟩
    · intro j task open' htask hreq
      rcases hnew htask with hold | rfl
      · exact h.single hold hreq
      · exact hsingle open' (by cases request <;> exact hreq)
    · intro hopen j task htask
      rcases hnew htask with hold | rfl
      · exact h.uncancelled hopen hold
      · cases request <;> rfl
    · intro hopen id job hjob
      obtain ⟨j, task, pull, sref, slot, htask, hcoro, hkey⟩ := h.covered hopen hjob
      exact ⟨j, task, pull, sref, slot, getElem?_append_of_some htask _, hcoro, hkey⟩
    · intro j task abort found pending deadline htask hcoro
      rcases hnew htask with hold | rfl
      · obtain ⟨hdl, hd⟩ := h.draining hold hcoro
        refine ⟨hdl, fun hnow => ?_⟩
        obtain ⟨⟨expiry, hexp, hlt⟩, hpend⟩ := hd hnow
        have hnow : s.now ≤ deadline := hnow
        refine ⟨⟨expiry, ?_, hlt⟩, fun htask₂ hsub => ?_⟩
        · simp only [Producer.mapBook, hexp, Option.filter_some]
          exact if_pos (by simpa using by omega)
        · rcases hnew htask₂ with hold₂ | rfl
          · exact hpend hold₂ hsub
          · cases request <;> cases hsub
      · cases request <;> cases hcoro

theorem AbortInv.jobDone (h : AbortInv s) (id : Nat) (result : JobDone)
    (hid : (s.engineJobs id).isSome = true) :
    AbortInv { s with
      engineJobs := Function.update s.engineJobs id none
      futures := Function.update s.futures id (some result) } := by
  refine ⟨h.filed, ?_, ?_, h.single, h.uncancelled, ?_, h.draining⟩
  · intro id' hlt
    have hne : id' ≠ id := by
      rintro rfl
      rw [(h.fresh id' hlt).1] at hid
      cases hid
    simpa [hne] using h.fresh id' hlt
  · intro id' hsome
    by_cases hne : id' = id
    · subst hne; simp
    · simpa [hne] using h.answered id' (by simpa [hne] using hsome)
  · intro hopen id' job hjob
    by_cases hne : id' = id
    · subst hne; simp at hjob
    · exact h.covered hopen (by simpa [hne] using hjob)

/-- **One step keeps the invariant.** -/
theorem AbortInv.step (h : AbortInv s) (htime : JobsInTime s a) (hsingle : SingleOpen a)
    (hstep : s.step a = some s') : AbortInv s' := by
  cases a with
  | recv identity request =>
      simp only [Producer.step] at hstep
      split at hstep
      · obtain rfl := Option.some.inj hstep
        refine h.dispatch fun open' heq => hsingle identity open' (by rw [heq])
      · cases hstep
  | metadataUpdate message =>
      obtain rfl := Option.some.inj hstep
      exact h.mapBook (Book.applyProducerMetadata_evolves _ _)
  | jobDone id result =>
      simp only [Producer.step] at hstep
      split at hstep
      · rename_i hid
        obtain rfl := Option.some.inj hstep
        exact h.jobDone id result hid
      · cases hstep
  | run tid =>
      obtain ⟨task, htask, ⟨hcancel, rfl⟩ | ⟨-, hruns⟩⟩ := run_cases hstep
      · exact h.runCancelled htask hcancel
      · exact h.runs htask hruns (fun hlate => by cases hlate)
  | timeout tid =>
      obtain ⟨task, htask, -, hruns⟩ := timeout_cases hstep
      exact h.runs htask hruns fun _ => htime tid task rfl htask
  | sweep =>
      simp only [Producer.step] at hstep
      split at hstep
      · cases hstep
      · obtain rfl := Option.some.inj hstep
        exact h.mapBook (Book.sweepSends_evolves _)
  | clock =>
      simp only [Producer.step] at hstep
      split at hstep
      · cases hstep
      · obtain rfl := Option.some.inj hstep
        refine ⟨h.filed, h.fresh, h.answered, h.single, h.uncancelled, h.covered, ?_⟩
        intro j task request found pending deadline htask hcoro
        obtain ⟨hdl, hd⟩ := h.draining htask hcoro
        exact ⟨by simp only; omega, fun hnow => hd (by simp only at hnow; omega)⟩
  | stop =>
      obtain rfl := Option.some.inj hstep
      exact ⟨h.filed, h.fresh, h.answered, h.single, h.uncancelled, h.covered, h.draining⟩
  | shutdown =>
      simp only [Producer.step] at hstep
      split at hstep
      · obtain rfl := Option.some.inj hstep
        exact h.relabel rfl rfl rfl rfl rfl shutdown_coros fun hopen => by cases hopen
      · cases hstep

/-! ### The acknowledgement -/

/-- Only an abort whose drain ended in time sends a safe acknowledgement. -/
theorem Runs.safeAck {identity : Identity} {late : Bool} {coro : Coroutine} {peer : Identity}
    (h : Runs s tid identity late coro s')
    (hack : s'.replies = s.replies ++ [(peer, safeAck key)]) :
    s.routerOpen = true ∧ ∃ request found pending deadline,
      coro = .abort request (.draining found pending deadline) ∧ request.operationKey = key ∧
      s.drained found pending = true ∧ s.now ≤ deadline ∧
      s' = s.abortDrained tid identity request none := by
  have hnone {t : Producer} (ht : t.replies = s.replies) :
      ¬ t.replies = s.replies ++ [(peer, Producer.safeAck key)] := by
    intro heq
    simpa using ht.symm.trans heq
  have hreply {t : Producer} {response : CompressionResponse} (ht : t.replies = s.replies)
      (heq : (t.reply identity response).replies
        = s.replies ++ [(peer, Producer.safeAck key)]) :
      t.routerOpen = true ∧ response = Producer.safeAck key := by
    simp only [reply] at heq
    split at heq
    · rename_i hopen
      rw [ht] at heq
      simp only [List.append_cancel_left_eq, List.cons.injEq, Prod.mk.injEq, and_true] at heq
      exact ⟨hopen, heq.2⟩
    · exact absurd heq (hnone ht)
  have hleave {t : Producer} {request : CompressionChunkPull} {sref : Nat} {counted : Bool}
      {response : Option CompressionChunkReady} (ht : t.replies = s.replies) :
      ¬ (t.leaveChunk tid identity request sref counted response).replies
        = s.replies ++ [(peer, Producer.safeAck key)] := by
    intro heq
    cases response with
    | none => exact hnone (t := t) ht heq
    | some ready => cases (hreply (t := t.mapBook _) ht heq).2
  cases h with
  | openFiles _ _ hok =>
      rw [openAnswered, hok] at hack
      cases (hreply (t := s.mapBook _) rfl hack).2
  | openRefused => cases (hreply (t := (s.mapBook _).mapBook _) rfl hack).2
  | openClosed => cases (hreply (t := (s.mapBook _).mapBook _) rfl hack).2
  | openErrs => cases (hreply (t := s.mapBook _) rfl hack).2
  | pullUnknown => cases (hreply (t := s) rfl hack).2
  | pullEncoded _ hok =>
      rw [encodeAnswered, hok] at hack
      exact absurd hack (hleave rfl)
  | pullRefused => exact absurd hack (hleave rfl)
  | pullDrained => exact absurd hack (hleave rfl)
  | @abortAcks request found pending deadline hdrained hnow =>
      obtain ⟨hopen, heq⟩ := hreply (t := s.mapBook _) rfl hack
      refine ⟨hopen, request, found, pending, deadline, rfl, ?_, hdrained, hnow, rfl⟩
      simp only [Producer.safeAck, CompressionResponse.abortAck.injEq,
        CompressionAbortAck.mk.injEq] at heq
      exact Prod.ext heq.1 (Prod.ext heq.2.1 heq.2.2.1)
  | abortTimesOut =>
      obtain ⟨-, heq⟩ := hreply (t := s.mapBook _) rfl hack
      simp [Producer.safeAck] at heq
  | _ => exact absurd hack (hnone rfl)

/-- What holds from the acknowledgement on: the key is quiet, and no handler
that got past the `_closed` check for it is left. -/
structure Ended (s : Producer) (key : OperationKey) : Prop extends Quiet s key where
  noHandler : ∀ {tid : Nat} {task : Task}, s.tasks[tid]? = some task →
    task.coro.submittedKey? ≠ some key

theorem step_replies (hstep : s.step a = some s') :
    s'.replies = s.replies ∨ (∃ tid, a = .run tid) ∨ ∃ tid, a = .timeout tid := by
  cases a with
  | run tid => exact Or.inr (Or.inl ⟨tid, rfl⟩)
  | timeout tid => exact Or.inr (Or.inr ⟨tid, rfl⟩)
  | recv identity request =>
      simp only [step, dispatchProducer] at hstep
      split at hstep
      · split at hstep <;> cases hstep <;> exact Or.inl rfl
      · cases hstep
  | _ =>
      simp only [step] at hstep
      (try split at hstep) <;> cases hstep
      exact Or.inl rfl

/-- The acknowledging step: the invariant turns the drained `pending` set into
"no handler of the key is left". -/
theorem AbortInv.ended (h : AbortInv s) {peer : Identity} (hstep : s.step a = some s')
    (hack : s'.replies = s.replies ++ [(peer, Producer.safeAck key)]) : Ended s' key := by
  have hruns : ∃ tid task late, s.tasks[tid]? = some task ∧
      Runs s tid task.identity late task.coro s' := by
    rcases step_replies hstep with heq | ⟨tid, rfl⟩ | ⟨tid, rfl⟩
    · simpa using heq.symm.trans hack
    · obtain ⟨task, htask, ⟨-, rfl⟩ | ⟨-, hruns⟩⟩ := run_cases hstep
      · simp [runCancelled_replies] at hack
      · exact ⟨tid, task, false, htask, hruns⟩
    · obtain ⟨task, htask, -, hruns⟩ := timeout_cases hstep
      exact ⟨tid, task, true, htask, hruns⟩
  obtain ⟨tid, task, late, htask, hruns⟩ := hruns
  obtain ⟨hopen, request, found, pending, deadline, hcoro, rfl, hdrained, hnow, rfl⟩ :=
    hruns.safeAck hack
  obtain ⟨-, hd⟩ := h.draining htask hcoro
  have hdone : ∀ {j : Nat} {task' : Task}, s.tasks[j]? = some task' →
      task'.coro.submittedKey? ≠ some request.operationKey := by
    intro j task' hj hsub
    have hall := (Bool.and_eq_true_iff.mp hdrained).1
    have := List.all_eq_true.mp hall j ((hd hnow).2 hj hsub)
    simp only [hj] at this
    exact absurd hsub (by rw [submittedKey?_of_isDone this]; simp)
  refine ⟨⟨?_, Book.cancelAll_noActive h.filed _⟩, ?_⟩
  · intro id job hjob hkey
    obtain ⟨j, task', pull, sref, slot, hj, hcoro', hkey'⟩ := h.covered hopen hjob
    exact hdone hj (by rw [hcoro', ← hkey, ← hkey']; rfl)
  · intro j task' hj
    rcases setCoro_tasks_some hj with ⟨-, task₀, -, rfl⟩ | ⟨-, hold⟩
    · simp [Coroutine.submittedKey?]
    · exact hdone hold

/-- A task that moves on while the key is closed does not reopen it. -/
theorem Ended.moves (h : Ended s key) {coro : Coroutine} (hmove : Moves s tid s' coro)
    (hclosed : (s.book.closed key).isSome) (hactive : s'.book.NoActive key) : Ended s' key := by
  have hcoro : coro.submittedKey? ≠ some key := fun hsub => by
    rw [hmove.submits key hsub] at hclosed
    cases hclosed
  refine ⟨⟨fun id job hjob => ?_, hactive⟩, fun htask => ?_⟩
  · rcases hmove.encodes id job hjob with hold | ⟨request, sref, slot, rfl, hkey⟩
    · exact h.noJob id job hold
    · rw [← hkey]
      exact fun heq => hcoro (congrArg some heq)
  · rw [hmove.tasks] at htask
    rcases setCoro_tasks_some htask with ⟨-, task, -, rfl⟩ | ⟨-, hold⟩
    · exact hcoro
    · exact h.noHandler hold

theorem Ended.relabel (h : Ended s key) (hbook : s'.book = s.book)
    (hjobs : s'.engineJobs = s.engineJobs)
    (hmap : s'.tasks.map Task.coro = s.tasks.map Task.coro) : Ended s' key := by
  refine ⟨⟨by rw [hjobs]; exact h.noJob, by rw [hbook]; exact h.noActive⟩, fun htask => ?_⟩
  obtain ⟨task', hold, hcoro⟩ := task_of_coro_eq hmap htask
  rw [← hcoro]
  exact h.noHandler hold

theorem Ended.mapBook (h : Ended s key) {f : Book → Book}
    (hf : Book.Evolves s.now s.book (f s.book)) : Ended (s.mapBook f) key :=
  ⟨⟨h.noJob, hf.noActive h.noActive⟩, h.noHandler⟩

theorem Ended.runs (h : Ended s key) {task : Task} {late : Bool}
    (htask : s.tasks[tid]? = some task) (hruns : Runs s tid task.identity late task.coro s')
    (hclosed : (s.book.closed key).isSome) : Ended s' key := by
  obtain ⟨coro, hmove⟩ := hruns.effect.moves
  refine h.moves hmove hclosed ?_
  rcases hruns.evolves with hev | ⟨session, hsub, hev⟩
  · exact hev.noActive h.noActive
  · refine hev.noActive (Book.addSession_noActive h.noActive fun hkey => ?_)
    exact h.noHandler htask (by rw [hsub, hkey])

/-- **No step brings an ended key back** before its `_closed` entry expires. -/
theorem Ended.step (h : Ended s key) (hlive : Unexpired s key)
    (hstep : s.step a = some s') : Ended s' key := by
  have hclosed : (s.book.closed key).isSome := by
    obtain ⟨expiry, hexp, -⟩ := hlive
    rw [hexp]; rfl
  cases a with
  | recv identity request =>
      simp only [Producer.step] at hstep
      split at hstep
      · obtain rfl := Option.some.inj hstep
        unfold dispatchProducer
        split
        · exact h
        · refine ⟨⟨h.noJob, h.noActive⟩, fun htask => ?_⟩
          rcases getElem?_append_some htask with hold | ⟨-, rfl⟩
          · exact h.noHandler hold
          · cases request <;> simp [newTask, Coroutine.submittedKey?]
      · cases hstep
  | metadataUpdate message =>
      obtain rfl := Option.some.inj hstep
      exact h.mapBook (Book.applyProducerMetadata_evolves _ _)
  | jobDone id result =>
      simp only [Producer.step] at hstep
      split at hstep
      · obtain rfl := Option.some.inj hstep
        refine ⟨⟨fun id' job hjob => ?_, h.noActive⟩, h.noHandler⟩
        by_cases hid : id' = id
        · subst hid; simp at hjob
        · exact h.noJob id' job (by simpa [hid] using hjob)
      · cases hstep
  | run tid =>
      obtain ⟨task, htask, ⟨-, rfl⟩ | ⟨-, hruns⟩⟩ := run_cases hstep
      · obtain ⟨coro, hmove⟩ := (runCancelled_effect (s := s) task).moves
        have hclear : Ended (s.clearCancel tid) key := h.relabel rfl rfl clearCancel_coros
        exact hclear.moves hmove hclosed ((runCancelled_evolves task).noActive h.noActive)
      · exact h.runs htask hruns hclosed
  | timeout tid =>
      obtain ⟨task, htask, -, hruns⟩ := timeout_cases hstep
      exact h.runs htask hruns hclosed
  | sweep =>
      simp only [Producer.step] at hstep
      split at hstep
      · cases hstep
      · obtain rfl := Option.some.inj hstep
        exact h.mapBook (Book.sweepSends_evolves _)
  | clock =>
      simp only [Producer.step] at hstep
      split at hstep
      · cases hstep
      · obtain rfl := Option.some.inj hstep
        exact ⟨⟨h.noJob, h.noActive⟩, h.noHandler⟩
  | stop =>
      obtain rfl := Option.some.inj hstep
      exact ⟨⟨h.noJob, h.noActive⟩, h.noHandler⟩
  | shutdown =>
      simp only [Producer.step] at hstep
      split at hstep
      · obtain rfl := Option.some.inj hstep
        exact h.relabel rfl rfl shutdown_coros
      · cases hstep

theorem reachable_abortInv {init : InitMessage}
    (h : (producerMachine init).ReachWith (fun s a => JobsInTime s a ∧ SingleOpen a) s) :
    AbortInv s := by
  refine Machine.invariant ?_ ?_ h
  · rintro s rfl
    exact start_abortInv init
  · intro s a s' _ hs hok hstep
    exact hs.step hok.1 hok.2 hstep

end Producer

/-- **A safe acknowledgement ends the writes of its key**: in every run in which
the engine answers in time and every open carries one request, from the step
that sends `CompressionAbortAck` without an error on, and as long as the
`_closed` entry has not expired, no `EncodeChunkJob` of the key is with the
engine and no filed session of the key is active. -/
theorem abortAck_quiet {init : InitMessage} {s s₁ s₂ : Producer} {a : Producer.Action}
    {peer : Identity} {key : OperationKey}
    (hreach : (producerMachine init).ReachWith
      (fun s a => s.JobsInTime a ∧ Producer.SingleOpen a) s)
    (hstep : s.step a = some s₁)
    (hack : s₁.replies = s.replies ++ [(peer, Producer.safeAck key)])
    (hpath : (producerMachine init).Path (fun s _ => s.Unexpired key) s₁ s₂) :
    s₂.Quiet key := by
  have hended : s₁.Ended key := (Producer.reachable_abortInv hreach).ended hstep hack
  have := hpath.preserves (I := fun s => s.Ended key)
    (fun s a s' hs hlive hstep => hs.step hlive hstep) hended
  exact this.toQuiet

/-! ### Runs -/

namespace Producer

/-- No `wait_for` gives up and every open is for one request, as a check. -/
def promptSingle (_ : Producer) : Action → Bool
  | .timeout _ => false
  | .recv _ (.sessionOpen request) => decide (request.metadata.reqBlocks.length ≤ 1)
  | _ => true

def prompt (_ : Producer) : Action → Bool
  | .timeout _ => false
  | _ => true

/-- The `_closed` entry of the key has not expired, as a check. -/
def unexpired (key : OperationKey) (s : Producer) (_ : Action) : Bool :=
  (s.book.closed key).any fun expiry => decide (s.now < expiry)

theorem jobsInTime_of_prompt (s : Producer) (a : Action) (h : prompt s a = true) :
    s.JobsInTime a := by
  rintro tid task rfl
  cases h

theorem of_promptSingle (s : Producer) (a : Action) (h : promptSingle s a = true) :
    s.JobsInTime a ∧ SingleOpen a := by
  constructor
  · rintro tid task rfl
    cases h
  · rintro identity request rfl
    exact of_decide_eq_true h

theorem unexpired_of_check (key : OperationKey) (s : Producer) (a : Action)
    (h : unexpired key s a = true) : s.Unexpired key := by
  rw [unexpired, Option.any_eq_true] at h
  obtain ⟨expiry, hexp, hlt⟩ := h
  exact ⟨expiry, hexp, of_decide_eq_true hlt⟩

/-- The engine announces a transfer, a consumer opens it and aborts it at once. -/
def openThenAbort (request : CompressionSessionOpen) : List Action :=
  [.metadataUpdate { announced := [{ pReqId := "p", transferId := "t", localBlockIds := [[1]] }] },
   .recv "c" (.sessionOpen request), .run 0,
   .recv "c" (.abort { transferId := "t", dReqId := "d", reason := "", nonce := "n" }), .run 1]

/-- The engine answers the open job with one chunk and the handler files the session. -/
def openAnswer : List Action := [.jobDone 1 { logicalBlockCount := 1, totalChunks := 1 }, .run 0]

def soloStart : Producer := start (.solo [⟨0, 0, 0⟩])

end Producer

open Producer in
/-- An open job is in flight when the abort comes: the abort waits for it, and
the acknowledgement leaves the key quiet. -/
theorem abortAck_quiet_open_in_flight :
    ∃ s s₁ : Producer, (producerMachine (.solo [⟨0, 0, 0⟩])).exec promptSingle soloStart
        (openThenAbort (.ofSolo "n" [("d", "t", [[1]])]) ++ openAnswer) = some s ∧
      s.step (.run 1) = some s₁ ∧ s₁.replies = s.replies ++ [("c", safeAck ("t", "d", "n"))] ∧
      s₁.Quiet ("t", "d", "n") := by
  let s := ((producerMachine (.solo [⟨0, 0, 0⟩])).exec promptSingle soloStart
    (openThenAbort (.ofSolo "n" [("d", "t", [[1]])]) ++ openAnswer)).get (by decide)
  let s₁ := (s.step (.run 1)).get (by decide)
  have hexec : (producerMachine (.solo [⟨0, 0, 0⟩])).exec promptSingle soloStart
      (openThenAbort (.ofSolo "n" [("d", "t", [[1]])]) ++ openAnswer) = some s :=
    (Option.some_get _).symm
  have hstep : s.step (.run 1) = some s₁ := (Option.some_get _).symm
  have hack : s₁.replies = s.replies ++ [("c", safeAck ("t", "d", "n"))] := by decide
  refine ⟨s, s₁, hexec, hstep, hack, ?_⟩
  exact abortAck_quiet ((Machine.reachWith_of_exec rfl hexec).mono of_promptSingle) hstep hack .refl

open Producer in
/-- Without `SingleOpen` the guarantee fails: with an open for two requests, which
no sender builds, the abort of the first finds no operation of its key, is
acknowledged at once, and the open handler then files an active session. -/
theorem abortAck_not_quiet_open_for_two :
    ¬ ∀ (init : InitMessage) (s s₁ s₂ : Producer) (a : Action) (peer : Identity)
        (key : OperationKey), (producerMachine init).ReachWith JobsInTime s →
      s.step a = some s₁ → s₁.replies = s.replies ++ [(peer, safeAck key)] →
      (producerMachine init).Path (fun s a => s.JobsInTime a ∧ s.Unexpired key) s₁ s₂ →
      s₂.Quiet key := by
  intro hquiet
  let M := producerMachine (.solo [⟨0, 0, 0⟩])
  let s := (M.exec prompt soloStart
    (openThenAbort (.ofSolo "n" [("d", "t", [[1]]), ("d'", "t'", [[2]])]))).get (by decide)
  let s₁ := (s.step (.run 1)).get (by decide)
  let check := fun s a => prompt s a && unexpired ("t", "d", "n") s a
  let s₂ := (M.exec check s₁ openAnswer).get (by decide)
  have hreach : M.ReachWith JobsInTime s :=
    (Machine.reachWith_of_exec rfl (Option.some_get _).symm).mono jobsInTime_of_prompt
  have hpath : M.Path (fun s a => s.JobsInTime a ∧ s.Unexpired ("t", "d", "n")) s₁ s₂ := by
    refine (Machine.path_of_exec (p := check) (Option.some_get _).symm).mono ?_
    intro s a h
    obtain ⟨hp, hu⟩ := Bool.and_eq_true_iff.mp h
    exact ⟨jobsInTime_of_prompt s a hp, unexpired_of_check _ s a hu⟩
  have := hquiet _ s s₁ s₂ (.run 1) "c" ("t", "d", "n") hreach (Option.some_get _).symm (by decide)
    hpath
  have hfiled : s₂.book.producerSessions ("c", "t", "d") = some 0 := by decide
  exact this.noActive hfiled (Option.some_get (by decide)).symm (by decide) (by decide)

end KVServe.Session

import KVServe.Lib.ListHeap
import KVServe.Session.ProducerRuns

/-!
# KVServe.Session.ProducerSlots

**The sender pool is conserved.** Slots move between `_sender_slots` and the
pull handlers; `pool` collects both. Every step keeps `pool` up to order, with
one exception: a `CancelledError` that strikes a pull handler inside the
`_drain_slots` of its own `finally` block, which ends the handler before
`put_nowait`.
-/

namespace KVServe.Session

/-- The slot a handler holds: from `_sender_slots.get()` to `put_nowait`. -/
def Coroutine.heldSlot : Coroutine → Option Nat
  | .chunkPull _ (.waitEncode _ slot _) => some slot
  | .chunkPull _ (.waitDrain _ slot _ _) => some slot
  | _ => none

/-- Is the handler in the drain of its `finally` block? -/
def Coroutine.inDrain : Coroutine → Bool
  | .chunkPull _ (.waitDrain ..) => true
  | _ => false

namespace Producer

variable {s s' : Producer} {tid : Nat} {task : Task}

/-- The slots held by running pull handlers. -/
def heldSlots (s : Producer) : List Nat := s.tasks.filterMap fun task => task.coro.heldSlot

/-- The sender pool: free slots and held slots. -/
def pool (s : Producer) : List Nat := s.senderSlots ++ s.heldSlots

/-- The step does not cancel a handler inside its own drain. -/
def CleanCancel (s : Producer) (a : Action) : Prop :=
  ∀ tid task, a = .run tid → s.tasks[tid]? = some task → task.cancelRequested = true →
    task.coro.inDrain = false

/-- `1` if the coroutine holds the slot. -/
def Holds (coro : Coroutine) (x : Nat) : Nat := if coro.heldSlot = some x then 1 else 0

@[simp] theorem holds_sessionOpen (request : CompressionSessionOpen) (pos : OpenAt) (x : Nat) :
    Holds (.sessionOpen request pos) x = 0 := rfl

@[simp] theorem holds_abort (request : CompressionAbort) (pos : AbortAt) (x : Nat) :
    Holds (.abort request pos) x = 0 := rfl

@[simp] theorem holds_created (request : CompressionChunkPull) (x : Nat) :
    Holds (.chunkPull request .created) x = 0 := rfl

@[simp] theorem holds_waitSlot (request : CompressionChunkPull) (sref x : Nat) :
    Holds (.chunkPull request (.waitSlot sref)) x = 0 := rfl

@[simp] theorem holds_done (request : CompressionChunkPull) (x : Nat) :
    Holds (.chunkPull request .done) x = 0 := rfl

@[simp] theorem holds_waitEncode (request : CompressionChunkPull) (sref slot job x : Nat) :
    Holds (.chunkPull request (.waitEncode sref slot job)) x = [slot].count x := by
  simp [Holds, Coroutine.heldSlot, List.count_singleton]

@[simp] theorem holds_waitDrain (request : CompressionChunkPull) (sref slot job x : Nat)
    (response : Option CompressionChunkReady) :
    Holds (.chunkPull request (.waitDrain sref slot job response)) x = [slot].count x := by
  simp [Holds, Coroutine.heldSlot, List.count_singleton]

/-- Moving one handler changes the held slots by what it held and holds. -/
theorem count_heldSlots_setCoro (htask : s.tasks[tid]? = some task) (coro : Coroutine) (x : Nat) :
    (s.setCoro tid coro).heldSlots.count x + Holds task.coro x
      = s.heldSlots.count x + Holds coro x :=
  count_filterMap_modify (fun task : Task => { task with coro })
    (fun task : Task => task.coro.heldSlot) x htask

/-- A run that leaves the free slots alone and moves `tid` to a coroutine that
holds the same slots keeps the pool. -/
theorem count_pool_of_eq {t : Producer} {coro : Coroutine} {x : Nat}
    (htask : s.tasks[tid]? = some task) (htasks : t.tasks = s.tasks)
    (hfree : t.senderSlots.count x + Holds coro x = s.senderSlots.count x + Holds task.coro x) :
    (t.setCoro tid coro).pool.count x = s.pool.count x := by
  have hmove := count_heldSlots_setCoro (s := t) (by rw [htasks]; exact htask) coro x
  have hheld : t.heldSlots = s.heldSlots := by rw [heldSlots, htasks, heldSlots]
  have hslots : (t.setCoro tid coro).senderSlots = t.senderSlots := rfl
  rw [pool, pool, List.count_append, List.count_append, hslots]
  rw [hheld] at hmove
  omega

/-- Every listed run of a handler keeps the pool. -/
theorem runs_pool {late : Bool} {x : Nat} (htask : s.tasks[tid]? = some task)
    (h : Runs s tid task.identity late task.coro s') : s'.pool.count x = s.pool.count x := by
  generalize hcoro : task.coro = coro at h
  have key {t : Producer} {coro' : Coroutine} (htasks : t.tasks = s.tasks)
      (hfree : t.senderSlots.count x + Holds coro' x = s.senderSlots.count x + Holds coro x) :
      (t.setCoro tid coro').pool.count x = s.pool.count x :=
    count_pool_of_eq htask htasks (by rw [hcoro]; exact hfree)
  have leave {t : Producer} {request : CompressionChunkPull} {sref : Nat} {counted : Bool}
      {response : Option CompressionChunkReady} (htasks : t.tasks = s.tasks)
      (hfree : t.senderSlots.count x = s.senderSlots.count x + Holds coro x) :
      (t.leaveChunk tid task.identity request sref counted response).pool.count x
        = s.pool.count x := by
    unfold leaveChunk
    refine key ?_ ?_
    · cases response <;> exact htasks
    · cases response <;> simpa [mapBook, reply] using hfree
  cases h with
  | openFiles hreq hdone hok =>
      rw [openAnswered, hok]
      exact key rfl (by simp [mapBook, reply])
  | pullRefused => exact leave rfl (by simp [mapBook])
  | pullAborted hslot =>
      refine key rfl ?_
      cases hslot with
      | fresh _ _ _ hslots => simp [mapBook, submit, hslots, List.count_cons]
      | woken _ hslots => simp [mapBook, submit, hslots, List.count_cons]
  | pullSubmits hslot =>
      refine key rfl ?_
      cases hslot with
      | fresh _ _ _ hslots => simp [submit, hslots, List.count_cons]
      | woken _ hslots => simp [submit, hslots, List.count_cons]
  | pullEncoded hdone hok =>
      rw [encodeAnswered, hok]
      exact leave rfl (by simp [mapBook, putSlot])
  | pullDrained => exact leave rfl (by simp [putSlot])
  | _ => exact key rfl (by simp [mapBook, reply, submit])

/-- The cancellation flag does not show in the pool. -/
theorem clearCancel_pool {x : Nat} (htask : s.tasks[tid]? = some task) :
    (s.clearCancel tid).pool.count x = s.pool.count x := by
  have hmove := count_filterMap_modify (fun task : Task => { task with cancelRequested := false })
    (fun task : Task => task.coro.heldSlot) x htask
  simp only [pool, heldSlots, clearCancel, List.count_append] at hmove ⊢
  omega

/-- So does a cancellation outside the drain. -/
theorem runCancelled_pool {x : Nat} (htask : s.tasks[tid]? = some task)
    (hclean : task.coro.inDrain = false) :
    (s.runCancelled tid task).pool.count x = s.pool.count x := by
  rw [← clearCancel_pool htask]
  have htask' : (s.clearCancel tid).tasks[tid]? = some { task with cancelRequested := false } :=
    getElem?_modify_self htask _
  cases hcoro : task.coro with
  | sessionOpen request pos =>
      simp only [runCancelled, hcoro]
      exact count_pool_of_eq htask' rfl (by simp [hcoro])
  | abort request pos =>
      simp only [runCancelled, hcoro]
      exact count_pool_of_eq htask' rfl (by simp [hcoro])
  | chunkPull request pos =>
      simp only [runCancelled, hcoro]
      cases pos with
      | waitDrain sref slot job response => simp [hcoro, Coroutine.inDrain] at hclean
      | waitSlot sref => exact count_pool_of_eq htask' rfl (by simp [hcoro, mapBook])
      | waitEncode sref slot job => exact count_pool_of_eq htask' rfl (by simp [hcoro, submit])
      | created => exact count_pool_of_eq htask' rfl (by simp [hcoro])
      | done => exact count_pool_of_eq htask' rfl (by simp [hcoro])

/-- New tasks hold nothing. -/
theorem newTask_heldSlot (identity : Identity) (request : CompressionRequest) :
    (newTask identity request).coro.heldSlot = none := by
  cases request <;> rfl

/-- **One step keeps the pool**, unless it cancels a handler inside its drain. -/
theorem step_pool {a : Action} {x : Nat} (hclean : CleanCancel s a)
    (h : s.step a = some s') : s'.pool.count x = s.pool.count x := by
  cases a with
  | recv identity request =>
      simp only [step] at h
      split at h
      · obtain rfl := Option.some.inj h
        unfold dispatchProducer
        split
        · rfl
        · simp [pool, heldSlots, mapBook, newTask_heldSlot]
      · cases h
  | metadataUpdate message => obtain rfl := Option.some.inj h; rfl
  | jobDone job result =>
      simp only [step] at h
      split at h
      · obtain rfl := Option.some.inj h; rfl
      · cases h
  | run tid =>
      obtain ⟨task, htask, ⟨hc, rfl⟩ | ⟨-, hruns⟩⟩ := run_cases h
      · exact runCancelled_pool htask (hclean tid task rfl htask hc)
      · exact runs_pool htask hruns
  | timeout tid =>
      obtain ⟨task, htask, -, hruns⟩ := timeout_cases h
      exact runs_pool htask hruns
  | sweep =>
      simp only [step] at h
      split at h
      · cases h
      · obtain rfl := Option.some.inj h; rfl
  | clock =>
      simp only [step] at h
      split at h
      · cases h
      · obtain rfl := Option.some.inj h; rfl
  | stop => obtain rfl := Option.some.inj h; rfl
  | shutdown =>
      simp only [step] at h
      split at h
      · obtain rfl := Option.some.inj h
        have hheld : s.shutdown.heldSlots = s.heldSlots := by
          simp only [heldSlots, shutdown, List.filterMap_map]
          refine List.filterMap_congr fun task _ => ?_
          simp only [Function.comp]
          split <;> rfl
        rw [pool, pool, hheld]; rfl
      · cases h

/-- A cancellation inside the drain loses the slot; no step makes one up. -/
theorem step_pool_le {a : Action} {x : Nat} (h : s.step a = some s') :
    s'.pool.count x ≤ s.pool.count x := by
  by_cases hclean : CleanCancel s a
  · exact (step_pool hclean h).le
  · obtain ⟨tid, task, rfl, htask, hcancel, hdrain⟩ : ∃ tid task, a = .run tid ∧
        s.tasks[tid]? = some task ∧ task.cancelRequested = true ∧ task.coro.inDrain = true := by
      simp only [CleanCancel, not_forall, Bool.not_eq_false] at hclean
      obtain ⟨tid, task, rfl, htask, hcancel, hdrain⟩ := hclean
      exact ⟨tid, task, rfl, htask, hcancel, hdrain⟩
    obtain ⟨task', htask', ⟨-, rfl⟩ | ⟨hno, -⟩⟩ := run_cases h
    · obtain rfl := Option.some.inj (htask.symm.trans htask')
      obtain ⟨request, sref, slot, job, response, hcoro⟩ : ∃ request sref slot job response,
          task.coro = .chunkPull request (.waitDrain sref slot job response) := by
        unfold Coroutine.inDrain at hdrain
        split at hdrain
        · rename_i hcoro; exact ⟨_, _, _, _, _, hcoro⟩
        · cases hdrain
      have hmove := count_heldSlots_setCoro (s := s.clearCancel tid)
        (getElem?_modify_self htask _) (.chunkPull request .done) x
      rw [← clearCancel_pool htask]
      simp only [runCancelled, hcoro, pool, List.count_append] at hmove ⊢
      have hfree : ((s.clearCancel tid).setCoro tid (.chunkPull request .done)).senderSlots
        = (s.clearCancel tid).senderSlots := rfl
      rw [hfree]
      simp only [holds_done] at hmove
      omega
    · obtain rfl := Option.some.inj (htask.symm.trans htask')
      rw [hcancel] at hno
      cases hno

end Producer

end KVServe.Session

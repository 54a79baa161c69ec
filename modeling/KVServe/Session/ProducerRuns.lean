import KVServe.Session.BookEvolution
import KVServe.Session.Producer

/-!
# KVServe.Session.ProducerRuns

What one run of a handler task can do, said once. `Runs s tid identity coro s'`
lists the ways a task suspended in `coro` gets to its next `await` or its end,
each with the guard that was taken and the resulting state. `run_cases` and
`timeout_cases` invert the step function into it, so that no invariant proof
unfolds a handler again.
-/

namespace KVServe.Session

namespace Coroutine

/-- The operation key of the open or encode job a handler waits for. -/
def submittedKey? : Coroutine → Option OperationKey
  | chunkPull request (.waitEncode ..) => some request.operationKey
  | sessionOpen request (.waitJob ..) => request.operationKey?
  | _ => none

def isDraining : Coroutine → Bool
  | abort _ (.draining ..) => true
  | _ => false

end Coroutine

namespace Producer

variable {s s' : Producer} {tid : Nat} {identity : Identity} {late : Bool}

/-- Where an open handler stands when it (re)enters the loop of `_wait_ready`:
the book after the lookup in `_send_meta` and the `_SendState` it waits for. -/
inductive Enters (s : Producer) (transferId : TransferId) :
    OpenAt → Book → Nat → Bool → Nat → Prop
  | found {ref : Nat} (h : s.book.sendMeta transferId = some ref) :
      Enters s transferId .created s.book ref false (s.now + abortTimeout)
  | placeholder (h : s.book.sendMeta transferId = none) :
      Enters s transferId .created (s.book.addState { transferId := transferId })
        s.book.states.length true (s.now + abortTimeout)
  | resumed (ref : Nat) (isNew : Bool) (deadline : Nat) :
      Enters s transferId (.waitReady ref isNew deadline) s.book ref isNew deadline

/-- The slot a pull handler goes on with, and the book by then: a fresh handler
has counted itself in, a resumed one already had. -/
inductive GetsSlot (s : Producer) (identity : Identity) (request : CompressionChunkPull) :
    PullAt → Book → Nat → Nat → List Nat → ProducerSession → Prop
  | fresh {sref slot : Nat} {rest : List Nat} {session : ProducerSession}
      (hkey : s.book.producerSessions (identity, request.transferId, request.dReqId) = some sref)
      (hsession : s.book.sessions[sref]? = some session)
      (hactive : session.state = .active)
      (hslots : s.senderSlots = slot :: rest) :
      GetsSlot s identity request .created
        (s.book.addInflight sref 1) sref slot rest session
  | woken {sref slot : Nat} {rest : List Nat} {session : ProducerSession}
      (hsession : s.book.sessions[sref]? = some session)
      (hslots : s.senderSlots = slot :: rest) :
      GetsSlot s identity request (.waitSlot sref) s.book sref slot rest session

/-- One run of a handler from its `await` to the next. `late` marks the runs in
which a `wait_for` gave up, so that a job may still be with the engine. -/
inductive Runs (s : Producer) (tid : Nat) (identity : Identity) (late : Bool) :
    Coroutine → Producer → Prop
  /-- `next(iter({}.items()))` raises. -/
  | openEmpty {request : CompressionSessionOpen} (h : request.metadata.reqBlocks = []) :
      Runs s tid identity late (.sessionOpen request .created)
        (s.setCoro tid (.sessionOpen request .done))
  | openWaits {request : CompressionSessionOpen} {pos : OpenAt} {dReqId : ReqId}
      {transferId : TransferId} {blocks : BlockIds}
      {more : List (ReqId × TransferId × BlockIds)} {b : Book} {ref : Nat} {isNew : Bool}
      {deadline : Nat}
      (hreq : request.metadata.reqBlocks = (dReqId, transferId, blocks) :: more)
      (henter : Enters s transferId pos b ref isNew deadline)
      (hready : b.isReady ref = false) :
      Runs s tid identity late (.sessionOpen request pos)
        ((s.mapBook fun _ => b).setCoro tid
          (.sessionOpen request (.waitReady ref isNew deadline)))
  /-- The wait ends in an error before the claim. -/
  | openRefused {request : CompressionSessionOpen} {pos : OpenAt} {dReqId : ReqId}
      {transferId : TransferId} {blocks : BlockIds}
      {more : List (ReqId × TransferId × BlockIds)} {b : Book} {ref : Nat} {isNew : Bool}
      {deadline : Nat} (message : String)
      (hreq : request.metadata.reqBlocks = (dReqId, transferId, blocks) :: more)
      (henter : Enters s transferId pos b ref isNew deadline) :
      Runs s tid identity late (.sessionOpen request pos)
        ((s.mapBook fun _ => b).openFailed tid identity request transferId ref isNew false message)
  /-- The claim is made and given back: the session is already closed. -/
  | openClosed {request : CompressionSessionOpen} {pos : OpenAt} {dReqId : ReqId}
      {transferId : TransferId} {blocks : BlockIds}
      {more : List (ReqId × TransferId × BlockIds)} {b : Book} {ref : Nat} {isNew : Bool}
      {deadline : Nat} {ranks : List Nat}
      (hreq : request.metadata.reqBlocks = (dReqId, transferId, blocks) :: more)
      (henter : Enters s transferId pos b ref isNew deadline)
      (hready : b.isReady ref = true)
      (hranks : handshakeTargetRanks s.init.tpRank s.init.tpSize request.metadata.remoteTpSize
        = .ok ranks) :
      Runs s tid identity late (.sessionOpen request pos)
        ((s.mapBook fun _ => b.claim tid ref ranks.length).openFailed tid identity request
          transferId ref isNew true "Session was aborted before KV transfer.")
  | openSubmits {request : CompressionSessionOpen} {pos : OpenAt} {dReqId : ReqId}
      {transferId : TransferId} {blocks : BlockIds}
      {more : List (ReqId × TransferId × BlockIds)} {b : Book} {ref : Nat} {isNew : Bool}
      {deadline : Nat} {ranks : List Nat} {job : OpenProducerJob}
      (hreq : request.metadata.reqBlocks = (dReqId, transferId, blocks) :: more)
      (henter : Enters s transferId pos b ref isNew deadline)
      (hready : b.isReady ref = true)
      (hranks : handshakeTargetRanks s.init.tpRank s.init.tpSize request.metadata.remoteTpSize
        = .ok ranks)
      (hopen : b.closed (transferId, dReqId, request.nonce) = none) :
      Runs s tid identity late (.sessionOpen request pos)
        (((s.mapBook fun _ => b.claim tid ref ranks.length).submit (.openProducer job)).setCoro
          tid (.sessionOpen request (.waitJob ref isNew (s.nextJobId + 1))))
  /-- The engine refused the open, or did not answer in time. -/
  | openErrs {request : CompressionSessionOpen} {dReqId : ReqId}
      {transferId : TransferId} {blocks : BlockIds}
      {more : List (ReqId × TransferId × BlockIds)} {ref job : Nat} {isNew : Bool}
      (message : String)
      (hreq : request.metadata.reqBlocks = (dReqId, transferId, blocks) :: more) :
      Runs s tid identity late (.sessionOpen request (.waitJob ref isNew job))
        (s.openFailed tid identity request transferId ref isNew true message)
  | openFiles {request : CompressionSessionOpen} {dReqId : ReqId}
      {transferId : TransferId} {blocks : BlockIds}
      {more : List (ReqId × TransferId × BlockIds)} {ref job : Nat} {isNew : Bool}
      {result : JobDone}
      (hreq : request.metadata.reqBlocks = (dReqId, transferId, blocks) :: more)
      (hdone : s.futures job = some result) (hok : result.error = none) :
      Runs s tid identity late (.sessionOpen request (.waitJob ref isNew job))
        (s.openAnswered tid identity request dReqId transferId ref isNew result)
  | pullUnknown {request : CompressionChunkPull}
      (hkey : s.book.producerSessions (identity, request.transferId, request.dReqId) = none) :
      Runs s tid identity late (.chunkPull request .created)
        ((s.reply identity (.chunkReady
          (.failed request.chunkId "Unknown or completed compression session."))).setCoro tid
            (.chunkPull request .done))
  /-- The session is no longer active. -/
  | pullRefused {request : CompressionChunkPull} {sref : Nat} {session : ProducerSession}
      {message : String}
      (hkey : s.book.producerSessions (identity, request.transferId, request.dReqId) = some sref)
      (hsession : s.book.sessions[sref]? = some session)
      (hstate : session.state ≠ .active) :
      Runs s tid identity late (.chunkPull request .created)
        ((s.mapBook fun b => b.setSessionState sref .failed).leaveChunk tid identity request sref
          false (some (.failed request.chunkId message)))
  | pullWaits {request : CompressionChunkPull} {sref : Nat} {session : ProducerSession}
      (hkey : s.book.producerSessions (identity, request.transferId, request.dReqId) = some sref)
      (hsession : s.book.sessions[sref]? = some session)
      (hactive : session.state = .active)
      (hslots : s.senderSlots = []) :
      Runs s tid identity late (.chunkPull request .created)
        ((s.mapBook fun b => b.addInflight sref 1).setCoro tid
          (.chunkPull request (.waitSlot sref)))
  /-- A slot is there, but the session ended meanwhile. -/
  | pullAborted {request : CompressionChunkPull} {pos : PullAt} {b : Book} {sref slot : Nat}
      {rest : List Nat} {session : ProducerSession} {message : String}
      (hslot : GetsSlot s identity request pos b sref slot rest session) :
      Runs s tid identity late (.chunkPull request pos)
        ({ s with book := b, senderSlots := rest }.chunkFailed tid request sref slot message)
  | pullSubmits {request : CompressionChunkPull} {pos : PullAt} {b : Book} {sref slot : Nat}
      {rest : List Nat} {session : ProducerSession}
      (hslot : GetsSlot s identity request pos b sref slot rest session)
      (hactive : session.state = .active)
      (hopen : b.closed request.operationKey = none) :
      Runs s tid identity late (.chunkPull request pos)
        (({ s with book := b, senderSlots := rest }.submit
          (.encodeChunk (encodeJob session request slot))).setCoro tid
            (.chunkPull request (.waitEncode sref slot (s.nextJobId + 1))))
  /-- The encode job failed, or was not answered in time. -/
  | pullErrs {request : CompressionChunkPull} {sref slot job : Nat} (message : String)
      (hdone : late = false → (s.futures job).isSome = true) :
      Runs s tid identity late (.chunkPull request (.waitEncode sref slot job))
        (s.chunkFailed tid request sref slot message)
  | pullEncoded {request : CompressionChunkPull} {sref slot job : Nat} {result : JobDone}
      (hdone : s.futures job = some result) (hok : result.error = none) :
      Runs s tid identity late (.chunkPull request (.waitEncode sref slot job))
        (s.encodeAnswered tid identity request sref slot result)
  | pullDrained {request : CompressionChunkPull} {sref slot job : Nat}
      {response : Option CompressionChunkReady} :
      Runs s tid identity late (.chunkPull request (.waitDrain sref slot job response))
        ((s.putSlot slot).leaveChunk tid identity request sref true response)
  | abortStarts {request : CompressionAbort} :
      Runs s tid identity late (.abort request .created) (s.abortProducer tid identity request)
  | abortAcks {request : CompressionAbort} {found : Option Nat} {pending : List Nat}
      {deadline : Nat} (hdrained : s.drained found pending = true) (hnow : s.now ≤ deadline) :
      Runs s tid identity late (.abort request (.draining found pending deadline))
        (s.abortDrained tid identity request none)
  /-- The drain is given up at its deadline. -/
  | abortTimesOut {request : CompressionAbort} {found : Option Nat} {pending : List Nat}
      {deadline : Nat} (message : String) :
      Runs s tid identity late (.abort request (.draining found pending deadline))
        (s.abortDrained tid identity request (some message))

/-- The outcomes of `waitReady`. -/
theorem waitReady_runs {request : CompressionSessionOpen} {pos : OpenAt} {dReqId : ReqId}
    {transferId : TransferId} {blocks : BlockIds}
    {more : List (ReqId × TransferId × BlockIds)} {b : Book} {ref : Nat} {isNew : Bool}
    {deadline : Nat}
    (hreq : request.metadata.reqBlocks = (dReqId, transferId, blocks) :: more)
    (henter : Enters s transferId pos b ref isNew deadline) :
    Runs s tid identity late (.sessionOpen request pos)
      ((s.mapBook fun _ => b).waitReady tid identity request dReqId transferId blocks ref isNew
        deadline) := by
  unfold waitReady
  split
  case isTrue hready =>
    unfold claimSendTarget
    split
    case h_1 message _ => exact .openRefused message hreq henter
    case h_2 ranks hranks =>
      dsimp only
      split
      · exact .openClosed hreq henter hready hranks
      · rename_i hclosed
        exact .openSubmits hreq henter hready hranks
          (by simpa [mapBook, Book.claim, Book.modifyState] using hclosed)
  case isFalse hready =>
    split
    · exact .openRefused _ hreq henter
    · split
      · exact .openRefused _ hreq henter
      · exact .openWaits hreq henter (by simpa [mapBook] using hready)

/-- The outcomes of a pull handler that got a slot. -/
theorem withSlot_runs {request : CompressionChunkPull} {pos : PullAt} {b : Book}
    {sref slot : Nat} {rest : List Nat} {session : ProducerSession}
    (hslot : GetsSlot s identity request pos b sref slot rest session) :
    Runs s tid identity late (.chunkPull request pos)
      ({ s with book := b, senderSlots := rest }.withSlot tid request session sref slot) := by
  unfold withSlot
  split
  · exact .pullAborted hslot
  · rename_i h
    push Not at h
    exact .pullSubmits hslot h.1 (by simpa using h.2)

theorem runOpen_cases {request : CompressionSessionOpen} {pos : OpenAt}
    (h : s.runOpen tid identity request pos = some s') :
    Runs s tid identity false (.sessionOpen request pos) s' := by
  cases pos with
  | created =>
      obtain rfl : s.openProducerSession tid identity request = s' := by simpa [runOpen] using h
      unfold openProducerSession
      split
      · rename_i hreq; exact .openEmpty hreq
      · rename_i hreq
        split
        · rename_i hmeta; exact waitReady_runs hreq (.found hmeta)
        · rename_i hmeta; exact waitReady_runs hreq (.placeholder hmeta)
  | waitReady ref isNew deadline =>
      rw [runOpen] at h
      split at h
      · cases h
      · rename_i hreq
        obtain rfl := Option.some.inj h
        exact waitReady_runs hreq (.resumed ref isNew deadline)
  | waitJob ref isNew job =>
      rw [runOpen] at h
      split at h
      · rename_i hreq hdone
        obtain rfl := Option.some.inj h
        cases herr : JobDone.error _ with
        | none => exact .openFiles hreq hdone herr
        | some message =>
            rw [openAnswered, herr]
            exact .openErrs message hreq
      · cases h
  | done => simp [runOpen] at h

theorem serveProducerChunk_cases {request : CompressionChunkPull}
    (h : s.serveProducerChunk tid identity request = some s') :
    Runs s tid identity false (.chunkPull request .created) s' := by
  unfold serveProducerChunk at h
  split at h
  · rename_i hkey
    obtain rfl := Option.some.inj h
    exact .pullUnknown hkey
  · rename_i sref hkey
    cases hsession : s.book.sessions[sref]? with
    | none => simp [hsession] at h
    | some session =>
        simp only [hsession, Option.bind_eq_bind, Option.bind_some] at h
        split at h
        · rename_i hstate
          obtain rfl := Option.some.inj h
          exact .pullRefused hkey hsession hstate
        · rename_i hstate
          push Not at hstate
          split at h
          · rename_i hslots
            obtain rfl := Option.some.inj h
            exact .pullWaits hkey hsession hstate (by simpa [mapBook] using hslots)
          · rename_i hslots
            obtain rfl := Option.some.inj h
            exact withSlot_runs (.fresh hkey hsession hstate (by simpa [mapBook] using hslots))

theorem runPull_cases {request : CompressionChunkPull} {pos : PullAt}
    (h : s.runPull tid identity request pos = some s') :
    Runs s tid identity false (.chunkPull request pos) s' := by
  cases pos with
  | created => exact serveProducerChunk_cases h
  | waitSlot sref =>
      rw [runPull] at h
      split at h
      · rename_i hslots hsession
        obtain rfl := Option.some.inj h
        exact withSlot_runs (.woken hsession hslots)
      · cases h
  | waitEncode sref slot job =>
      rw [runPull] at h
      obtain ⟨result, hdone, rfl⟩ := Option.map_eq_some_iff.mp h
      cases herr : result.error with
      | none => exact .pullEncoded hdone herr
      | some message =>
          rw [encodeAnswered, herr]
          exact .pullErrs message (fun _ => by rw [hdone]; rfl)
  | waitDrain sref slot job response =>
      rw [runPull] at h
      obtain ⟨result, hdone, rfl⟩ := Option.map_eq_some_iff.mp h
      exact .pullDrained
  | done => simp [runPull] at h

theorem runAbort_cases {request : CompressionAbort} {pos : AbortAt}
    (h : s.runAbort tid identity request pos = some s') :
    Runs s tid identity false (.abort request pos) s' := by
  cases pos with
  | created =>
      obtain rfl := Option.some.inj h
      exact .abortStarts
  | draining found pending deadline =>
      rw [runAbort] at h
      split at h
      · rename_i hg
        obtain rfl := Option.some.inj h
        exact .abortAcks hg.1 hg.2
      · cases h
  | done => simp [runAbort] at h

/-- **Inversion of `run`**: a cancellation, or one of the listed runs. -/
theorem run_cases (h : s.run tid = some s') :
    ∃ task, s.tasks[tid]? = some task ∧
      ((task.cancelRequested = true ∧ s' = s.runCancelled tid task) ∨
        (task.cancelRequested = false ∧ Runs s tid task.identity false task.coro s')) := by
  unfold run at h
  cases htask : s.tasks[tid]? with
  | none => simp [htask] at h
  | some task =>
      refine ⟨task, rfl, ?_⟩
      simp only [htask, Option.bind_eq_bind, Option.bind_some] at h
      split at h
      · rename_i hc
        exact Or.inl ⟨hc, (Option.some.inj h).symm⟩
      · rename_i hc
        refine Or.inr ⟨by simpa using hc, ?_⟩
        split at h
        · rename_i request pos hcoro
          rw [hcoro]; exact runOpen_cases h
        · rename_i request pos hcoro
          rw [hcoro]; exact runPull_cases h
        · rename_i request pos hcoro
          rw [hcoro]; exact runAbort_cases h

/-- **Inversion of `timeout`**: it is one of the failing runs. -/
theorem timeout_cases (h : s.timeout tid = some s') :
    ∃ task, s.tasks[tid]? = some task ∧ task.cancelRequested = false ∧
      Runs s tid task.identity true task.coro s' := by
  unfold timeout at h
  cases htask : s.tasks[tid]? with
  | none => simp [htask] at h
  | some task =>
      simp only [htask, Option.bind_eq_bind, Option.bind_some] at h
      split at h
      · cases h
      · rename_i hc
        refine ⟨task, rfl, by simpa using hc, ?_⟩
        unfold timeoutTask at h
        split at h
        · rename_i hcoro
          rw [hcoro]
          split at h
          · rename_i hreq _
            obtain rfl := Option.some.inj h
            exact .openErrs _ hreq
          · cases h
        · rename_i hcoro
          rw [hcoro]
          split at h
          · obtain rfl := Option.some.inj h
            exact .pullErrs _ (fun h => by simp at h)
          · cases h
        · rename_i hcoro
          rw [hcoro]
          split at h
          · obtain rfl := Option.some.inj h
            exact .pullDrained
          · cases h
        · rename_i hcoro
          rw [hcoro]
          split at h
          · obtain rfl := Option.some.inj h
            exact .abortTimesOut _
          · cases h
        · cases h

/-! ### What no handler touches -/

/-- The fields of the loop that a run of a handler leaves alone. -/
structure Frame (s s' : Producer) : Prop where
  init : s'.init = s.init
  now : s'.now = s.now
  stopping : s'.stopping = s.stopping
  routerOpen : s'.routerOpen = s.routerOpen
  futures : s'.futures = s.futures
  received : s'.received = s.received

theorem leaveChunk_frame {t : Producer} {request : CompressionChunkPull} {sref : Nat}
    {counted : Bool} {response : Option CompressionChunkReady} (h : Frame s t) :
    Frame s (t.leaveChunk tid identity request sref counted response) := by
  obtain ⟨h1, h2, h3, h4, h5, h6⟩ := h
  cases response <;> exact ⟨h1, h2, h3, h4, h5, h6⟩

theorem Runs.frame {coro : Coroutine} (h : Runs s tid identity late coro s') : Frame s s' := by
  cases h with
  | openFiles _ _ hok => rw [openAnswered, hok]; exact ⟨rfl, rfl, rfl, rfl, rfl, rfl⟩
  | pullRefused => exact leaveChunk_frame ⟨rfl, rfl, rfl, rfl, rfl, rfl⟩
  | pullEncoded _ hok =>
      rw [encodeAnswered, hok]
      exact leaveChunk_frame ⟨rfl, rfl, rfl, rfl, rfl, rfl⟩
  | pullDrained => exact leaveChunk_frame ⟨rfl, rfl, rfl, rfl, rfl, rfl⟩
  | _ => exact ⟨rfl, rfl, rfl, rfl, rfl, rfl⟩

theorem runCancelled_frame (task : Task) : Frame s (s.runCancelled tid task) := by
  unfold runCancelled
  split
  · exact ⟨rfl, rfl, rfl, rfl, rfl, rfl⟩
  · exact ⟨rfl, rfl, rfl, rfl, rfl, rfl⟩
  · split
    · exact leaveChunk_frame ⟨rfl, rfl, rfl, rfl, rfl, rfl⟩
    all_goals exact ⟨rfl, rfl, rfl, rfl, rfl, rfl⟩

/-! ### Tasks and jobs -/

/-- What a run does to the task list and to the jobs of the engine. -/
inductive Effect (s : Producer) (tid : Nat) (s' : Producer) : Prop
  /-- The task moves on without a job. -/
  | parks (coro : Coroutine) (htasks : s'.tasks = (s.setCoro tid coro).tasks)
      (hjobs : s'.engineJobs = s.engineJobs) (hnext : s'.nextJobId = s.nextJobId)
      (hkey : coro.submittedKey? = none) (hdrain : coro.isDraining = false)
  /-- An abort starts to drain. -/
  | waits (request : CompressionAbort) (found : Option Nat)
      (htasks : s'.tasks = (s.setCoro tid (.abort request (.draining found
        (s.operations request.operationKey) (s.now + abortTimeout)))).tasks)
      (hjobs : s'.engineJobs = s.engineJobs) (hnext : s'.nextJobId = s.nextJobId)
      (hclosed : s'.book.closed request.operationKey = some (s.now + pendingReqExpiry))
  /-- The task submits a drain of its slot. -/
  | drains (coro : Coroutine) (slots : List Nat) (htasks : s'.tasks = (s.setCoro tid coro).tasks)
      (hjobs : s'.engineJobs = (s.submit (.drainSlots slots)).engineJobs)
      (hnext : s'.nextJobId = s.nextJobId + 1)
      (hkey : coro.submittedKey? = none) (hdrain : coro.isDraining = false)
  /-- The task submits an open job for a key that is not closed. -/
  | opens (request : CompressionSessionOpen) (ref : Nat) (isNew : Bool) (job : OpenProducerJob)
      (htasks : s'.tasks = (s.setCoro tid
        (.sessionOpen request (.waitJob ref isNew (s.nextJobId + 1)))).tasks)
      (hjobs : s'.engineJobs = (s.submit (.openProducer job)).engineJobs)
      (hnext : s'.nextJobId = s.nextJobId + 1)
      (hopen : ∀ key, request.operationKey? = some key → s.book.closed key = none)
  /-- The task submits an encode job for a key that is not closed. -/
  | encodes (request : CompressionChunkPull) (sref slot : Nat) (job : EncodeChunkJob)
      (htasks : s'.tasks = (s.setCoro tid
        (.chunkPull request (.waitEncode sref slot (s.nextJobId + 1)))).tasks)
      (hjobs : s'.engineJobs = (s.submit (.encodeChunk job)).engineJobs)
      (hnext : s'.nextJobId = s.nextJobId + 1)
      (hkey : job.operationKey = request.operationKey)
      (hopen : s.book.closed request.operationKey = none)

theorem leaveChunk_effect {t : Producer} {request : CompressionChunkPull} {sref : Nat}
    {counted : Bool} {response : Option CompressionChunkReady} (htasks : t.tasks = s.tasks)
    (hjobs : t.engineJobs = s.engineJobs) (hnext : t.nextJobId = s.nextJobId) :
    Effect s tid (t.leaveChunk tid identity request sref counted response) := by
  refine .parks (.chunkPull request .done) ?_ ?_ ?_ rfl rfl
  · cases response <;> simp [leaveChunk, setCoro, mapBook, reply, htasks]
  · cases response <;> exact hjobs
  · cases response <;> exact hnext

theorem Enters.closed {transferId : TransferId} {pos : OpenAt} {b : Book} {ref : Nat}
    {isNew : Bool} {deadline : Nat} (h : Enters s transferId pos b ref isNew deadline) :
    b.closed = s.book.closed := by
  cases h <;> rfl

theorem GetsSlot.closed {request : CompressionChunkPull} {pos : PullAt} {b : Book}
    {sref slot : Nat} {rest : List Nat} {session : ProducerSession}
    (h : GetsSlot s identity request pos b sref slot rest session) :
    b.closed = s.book.closed := by
  cases h <;> rfl

theorem abortProducer_closed (request : CompressionAbort) :
    (s.abortProducer tid identity request).book.closed request.operationKey
      = some (s.now + pendingReqExpiry) := by
  have hclose : ∀ b : Book, (b.close s.now request.operationKey).closed request.operationKey
      = some (s.now + pendingReqExpiry) := fun b => Function.update_self ..
  simp only [abortProducer, mapBook, setCoro]
  split
  · rename_i sref _
    rcases (Book.cancelSession_evolves
      (s.book.close s.now request.operationKey) sref).closed request.operationKey with h | h
    · rw [h]; exact hclose _
    · exact h
  · exact hclose _

theorem Runs.effect {coro : Coroutine} (h : Runs s tid identity late coro s') :
    Effect s tid s' := by
  cases h with
  | openEmpty => exact .parks _ rfl rfl rfl rfl rfl
  | openWaits => exact .parks _ rfl rfl rfl rfl rfl
  | openRefused => exact .parks _ rfl rfl rfl rfl rfl
  | openClosed => exact .parks _ rfl rfl rfl rfl rfl
  | openSubmits hreq henter hready hranks hopen =>
      refine .opens _ _ _ _ rfl rfl rfl fun key hkey => ?_
      rw [CompressionSessionOpen.operationKey?, hreq] at hkey
      obtain rfl := Option.some.inj hkey
      rw [← henter.closed]; exact hopen
  | openErrs => exact .parks _ rfl rfl rfl rfl rfl
  | openFiles _ _ hok =>
      rw [openAnswered, hok]
      exact .parks _ rfl rfl rfl rfl rfl
  | pullUnknown => exact .parks _ rfl rfl rfl rfl rfl
  | pullRefused => exact leaveChunk_effect rfl rfl rfl
  | pullWaits => exact .parks _ rfl rfl rfl rfl rfl
  | pullAborted => exact .drains _ _ rfl rfl rfl rfl rfl
  | pullSubmits hslot _ hopen =>
      exact .encodes _ _ _ _ rfl rfl rfl rfl (by rw [← hslot.closed]; exact hopen)
  | pullErrs => exact .drains _ _ rfl rfl rfl rfl rfl
  | pullEncoded _ hok =>
      rw [encodeAnswered, hok]
      exact leaveChunk_effect rfl rfl rfl
  | pullDrained => exact leaveChunk_effect rfl rfl rfl
  | abortStarts => exact .waits _ _ rfl rfl rfl (abortProducer_closed _)
  | abortAcks => exact .parks _ rfl rfl rfl rfl rfl
  | abortTimesOut => exact .parks _ rfl rfl rfl rfl rfl

theorem leaveChunk_tasks {t : Producer} {request : CompressionChunkPull} {sref : Nat}
    {counted : Bool} {response : Option CompressionChunkReady} :
    (t.leaveChunk tid identity request sref counted response).tasks
      = (t.setCoro tid (.chunkPull request .done)).tasks := by
  cases response <;> rfl

/-- A task works on the same request all its life. -/
theorem Runs.request {coro : Coroutine} (h : Runs s tid identity late coro s') :
    ∃ coro', s'.tasks = (s.setCoro tid coro').tasks ∧ coro'.request = coro.request := by
  cases h with
  | openFiles _ _ hok => rw [openAnswered, hok]; exact ⟨_, rfl, rfl⟩
  | pullEncoded _ hok => rw [encodeAnswered, hok]; exact ⟨_, leaveChunk_tasks, rfl⟩
  | pullRefused => exact ⟨_, leaveChunk_tasks, rfl⟩
  | pullDrained => exact ⟨_, leaveChunk_tasks, rfl⟩
  | _ => exact ⟨_, rfl, rfl⟩

/-- A lookup in the task list after one task has moved. -/
theorem setCoro_tasks_some {coro : Coroutine} {j : Nat} {task' : Task}
    (h : (s.setCoro tid coro).tasks[j]? = some task') :
    (j = tid ∧ ∃ task, s.tasks[tid]? = some task ∧ task' = { task with coro }) ∨
      (j ≠ tid ∧ s.tasks[j]? = some task') := by
  rcases getElem?_modify_some h with ⟨rfl, task, htask, rfl⟩ | ⟨hne, htask⟩
  · exact Or.inl ⟨rfl, task, htask, rfl⟩
  · exact Or.inr ⟨fun heq => hne heq.symm, htask⟩

theorem setCoro_tasks_of_ne {coro : Coroutine} {j : Nat} (h : j ≠ tid) :
    (s.setCoro tid coro).tasks[j]? = s.tasks[j]? :=
  getElem?_modify_ne (fun heq => h heq.symm) _

theorem setCoro_tasks_self {coro : Coroutine} {task : Task} (h : s.tasks[tid]? = some task) :
    (s.setCoro tid coro).tasks[tid]? = some { task with coro } :=
  getElem?_modify_self h _

theorem setCoro_inj {task : Task} {coro coro' : Coroutine} (htask : s.tasks[tid]? = some task)
    (h : (s.setCoro tid coro).tasks = (s.setCoro tid coro').tasks) : coro = coro' := by
  have hcoro := @setCoro_tasks_self s tid coro _ htask
  rw [h, setCoro_tasks_self htask] at hcoro
  exact (congrArg Task.coro (Option.some.inj hcoro)).symm

/-! ### The book -/

theorem Enters.evolves {transferId : TransferId} {pos : OpenAt} {b : Book} {ref : Nat}
    {isNew : Bool} {deadline : Nat} (h : Enters s transferId pos b ref isNew deadline) :
    Book.Evolves s.now s.book b := by
  cases h with
  | placeholder => exact Book.addState_evolves _ _
  | _ => exact .refl _

theorem GetsSlot.evolves {request : CompressionChunkPull} {pos : PullAt} {b : Book}
    {sref slot : Nat} {rest : List Nat} {session : ProducerSession}
    (h : GetsSlot s identity request pos b sref slot rest session) :
    Book.Evolves s.now s.book b := by
  cases h with
  | fresh => exact Book.addInflight_evolves _ _ _
  | woken => exact .refl _

theorem leaveChunk_book {t : Producer} {request : CompressionChunkPull} {sref : Nat}
    {counted : Bool} {response : Option CompressionChunkReady} :
    (t.leaveChunk tid identity request sref counted response).book
      = (if counted then t.book.addInflight sref (-1) else t.book).discardIfIdle sref := by
  cases response <;> rfl

theorem leaveChunk_evolves {t : Producer} {request : CompressionChunkPull} {sref : Nat}
    {counted : Bool} {response : Option CompressionChunkReady}
    (h : Book.Evolves s.now s.book t.book) :
    Book.Evolves s.now s.book
      (t.leaveChunk tid identity request sref counted response).book := by
  rw [leaveChunk_book]
  cases counted
  · exact h.trans (Book.discardIfIdle_evolves _ _)
  · exact h.trans ((Book.addInflight_evolves _ _ _).trans (Book.discardIfIdle_evolves _ _))

/-- A run evolves the book, after filing the session of an answered open job. -/
theorem Runs.evolves {coro : Coroutine} (h : Runs s tid identity late coro s') :
    Book.Evolves s.now s.book s'.book ∨
      ∃ session, coro.submittedKey? = some session.operationKey ∧
        Book.Evolves s.now (s.book.addSession session) s'.book := by
  cases h with
  | openEmpty => exact Or.inl (.refl _)
  | openWaits _ henter => exact Or.inl henter.evolves
  | openRefused _ _ henter => exact Or.inl (henter.evolves.trans (Book.openFailed_evolves _ ..))
  | openClosed _ henter =>
      exact Or.inl (henter.evolves.trans
        ((Book.claim_evolves _ ..).trans (Book.openFailed_evolves _ ..)))
  | openSubmits _ henter => exact Or.inl (henter.evolves.trans (Book.claim_evolves _ ..))
  | openErrs => exact Or.inl (Book.openFailed_evolves _ ..)
  | @openFiles request dReqId transferId _ _ ref _ _ result hreq _ hok =>
      rw [openAnswered, hok]
      refine Or.inr ⟨newSession tid identity request dReqId transferId ref result, ?_, ?_⟩
      · simp [Coroutine.submittedKey?, CompressionSessionOpen.operationKey?, hreq,
          ProducerSession.operationKey, newSession]
      · simp only [mapBook, reply, setCoro]
        split
        · exact Book.completeProducerSession_evolves _ _
        · exact .refl _
  | pullUnknown => exact Or.inl (.refl _)
  | pullRefused =>
      exact Or.inl (leaveChunk_evolves (Book.setSessionState_evolves _ _ (by decide)))
  | pullWaits => exact Or.inl (Book.addInflight_evolves _ _ _)
  | pullAborted hslot =>
      exact Or.inl (hslot.evolves.trans (Book.setSessionState_evolves _ _ (by decide)))
  | pullSubmits hslot => exact Or.inl hslot.evolves
  | pullErrs => exact Or.inl (Book.setSessionState_evolves _ _ (by decide))
  | pullEncoded _ hok =>
      rw [encodeAnswered, hok]
      exact Or.inl (leaveChunk_evolves (Book.chunkEncoded_evolves _ _ _))
  | pullDrained => exact Or.inl (leaveChunk_evolves (.refl _))
  | abortStarts =>
      refine Or.inl ?_
      simp only [abortProducer, mapBook, setCoro]
      split
      · exact (Book.close_evolves _ _).trans (Book.cancelSession_evolves _ _)
      · exact Book.close_evolves _ _
  | abortAcks => exact Or.inl (Book.cancelAll_evolves _ _)
  | abortTimesOut => exact Or.inl (Book.cancelAll_evolves _ _)

/-- A run only ever renews `_closed` entries. -/
theorem Runs.closed {coro : Coroutine} (h : Runs s tid identity late coro s')
    (key : OperationKey) : s'.book.closed key = s.book.closed key ∨
      s'.book.closed key = some (s.now + pendingReqExpiry) := by
  rcases h.evolves with hev | ⟨session, -, hev⟩
  · exact hev.closed key
  · exact hev.closed key

theorem Runs.filedWf {coro : Coroutine} (h : Runs s tid identity late coro s')
    (hwf : s.book.FiledWf) : s'.book.FiledWf := by
  rcases h.evolves with hev | ⟨session, -, hev⟩
  · exact hev.filedWf hwf
  · exact hev.filedWf (Book.addSession_filedWf hwf session)

theorem runCancelled_evolves (task : Task) :
    Book.Evolves s.now s.book (s.runCancelled tid task).book := by
  unfold runCancelled
  split
  · exact .refl _
  · exact .refl _
  · split
    · exact leaveChunk_evolves (s := s) (.refl _)
    all_goals exact .refl _

/-- A cancellation ends the task or sends it into its drain. -/
theorem runCancelled_effect (task : Task) :
    Effect (s.clearCancel tid) tid (s.runCancelled tid task) := by
  unfold runCancelled
  dsimp only
  split
  · exact .parks _ rfl rfl rfl rfl rfl
  · exact .parks _ rfl rfl rfl rfl rfl
  · split
    · exact leaveChunk_effect rfl rfl rfl
    · exact .drains _ _ rfl rfl rfl rfl rfl
    all_goals exact .parks _ rfl rfl rfl rfl rfl

/-- A cancelled handler answers nothing. -/
theorem runCancelled_replies (task : Task) : (s.runCancelled tid task).replies = s.replies := by
  unfold runCancelled
  dsimp only
  split
  · rfl
  · rfl
  · split <;> rfl

theorem runCancelled_request (task : Task) :
    ∃ coro', (s.runCancelled tid task).tasks = ((s.clearCancel tid).setCoro tid coro').tasks ∧
      coro'.request = task.coro.request := by
  unfold runCancelled
  dsimp only
  split
  · rename_i hcoro; exact ⟨_, rfl, by rw [hcoro]; rfl⟩
  · rename_i hcoro; exact ⟨_, rfl, by rw [hcoro]; rfl⟩
  · rename_i hcoro
    rw [hcoro]
    split
    · exact ⟨_, leaveChunk_tasks, rfl⟩
    all_goals exact ⟨_, rfl, rfl⟩

/-- The configuration never changes. -/
theorem step_init {a : Action} (h : s.step a = some s') : s'.init = s.init := by
  cases a with
  | recv identity request =>
      simp only [step] at h
      split at h
      · obtain rfl := Option.some.inj h
        unfold dispatchProducer
        split <;> rfl
      · cases h
  | run tid =>
      obtain ⟨task, -, ⟨-, rfl⟩ | ⟨-, hruns⟩⟩ := run_cases h
      · exact (runCancelled_frame task).init
      · exact hruns.frame.init
  | timeout tid =>
      obtain ⟨task, -, -, hruns⟩ := timeout_cases h
      exact hruns.frame.init
  | metadataUpdate message => obtain rfl := Option.some.inj h; rfl
  | stop => obtain rfl := Option.some.inj h; rfl
  | jobDone job result =>
      simp only [step] at h
      split at h <;> cases h; rfl
  | sweep =>
      simp only [step] at h
      split at h <;> cases h; rfl
  | clock =>
      simp only [step] at h
      split at h <;> cases h; rfl
  | shutdown =>
      simp only [step] at h
      split at h <;> cases h; rfl

end Producer

end KVServe.Session

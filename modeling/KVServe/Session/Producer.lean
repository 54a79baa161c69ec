import KVServe.Lib.Transition
import KVServe.Session.Book

/-!
# KVServe.Session.Producer

The **producer side of the session helper** (`_SessionService` of
`session_process.py`): the `SessionOpen`, `ChunkPull` and `Abort` handlers, the
sender slot pool, jobs, the expiry sweep and shutdown, around the tables of
`KVServe.Session.Book`.

The helper is one asyncio loop, so a handler runs without interruption from one
`await` to the next. Each handler task is a record with its position (the
`await` it is suspended at, with the locals that live across it), and one step
of the machine is a message arriving, the engine answering a job, time passing,
or one task running from its `await` to the next one. Which task runs next is
left open, so the runs of the machine contain every order the event loop can
choose.

* `_operations` holds the unfinished handler tasks by key, so it is read off
  the task list (`operations`).
* Time is in seconds. `_wait_ready` polls every 50 ms, so the clock does not
  move while a waiter is ready to go (`clockBlocked`).
* Shutdown cancels every unfinished task: the task runs once more with a
  `CancelledError` at its `await`. `except Exception` does not catch that, so
  each position has its own way out (`runCancelled`).

`received` is history: no definition reads it to decide anything.
-/

namespace KVServe.Session

/-- Where `_open_producer_session` is suspended. -/
inductive OpenAt
  /-- The task exists, its body has not started. -/
  | created
  /-- In the poll of `_wait_ready` for the given `_SendState`. -/
  | waitReady (state : Nat) (isNew : Bool) (deadline : Nat)
  /-- The send target is claimed and the `OpenProducerJob` is submitted. -/
  | waitJob (state : Nat) (isNew : Bool) (job : Nat)
  | done
  deriving DecidableEq, Repr

/-- Where `_serve_producer_chunk` is suspended. -/
inductive PullAt
  | created
  /-- In `_sender_slots.get()`. -/
  | waitSlot (session : Nat)
  /-- The `EncodeChunkJob` is submitted. -/
  | waitEncode (session slot job : Nat)
  /-- In the `_drain_slots` of the `finally` block. `reply` is the value about
  to be returned, `none` while a `CancelledError` propagates. -/
  | waitDrain (session slot job : Nat) (reply : Option CompressionChunkReady)
  | done
  deriving DecidableEq, Repr

/-- Where `_abort_producer` is suspended. -/
inductive AbortAt
  | created
  /-- In `drain()`: the session found and the operations pending at the start. -/
  | draining (session : Option Nat) (pending : List Nat) (deadline : Nat)
  | done
  deriving DecidableEq, Repr

/-- `_handle_producer_request` by the handler it runs. -/
inductive Coroutine
  | sessionOpen (request : CompressionSessionOpen) (pos : OpenAt)
  | chunkPull (request : CompressionChunkPull) (pos : PullAt)
  | abort (request : CompressionAbort) (pos : AbortAt)
  deriving DecidableEq, Repr

namespace Coroutine

/-- The request the handler works on. -/
def request : Coroutine → CompressionRequest
  | sessionOpen request _ => .sessionOpen request
  | chunkPull request _ => .chunkPull request
  | abort request _ => .abort request

/-- The `_operations` key the task is filed under; aborts are not filed. -/
def operationKey? : Coroutine → Option OperationKey
  | sessionOpen request _ => some request.dispatchKey
  | chunkPull request _ => some request.operationKey
  | abort _ _ => none

def isDone : Coroutine → Bool
  | sessionOpen _ pos => pos = .done
  | chunkPull _ pos => pos = .done
  | abort _ pos => pos = .done

end Coroutine

structure Task where
  identity : Identity
  coro : Coroutine
  cancelRequested : Bool := false
  deriving DecidableEq, Repr

/-- The producer half of `_SessionService`: the event loop around a `Book`. -/
structure Producer where
  init : InitMessage
  book : Book := {}
  now : Nat := 0
  stopping : Bool := false
  routerOpen : Bool := true
  nextJobId : Nat := 0
  /-- Jobs the engine has not answered. -/
  engineJobs : Nat → Option HelperJob := fun _ => none
  /-- Answers by job id. -/
  futures : Nat → Option JobDone := fun _ => none
  senderSlots : List Nat
  /-- Every handler task ever created. -/
  tasks : List Task := []
  replies : List (Identity × CompressionResponse) := []
  /-- History: requests dispatched. -/
  received : List (Identity × CompressionRequest) := []

namespace Producer

/-- `_start_producer`: every slot of the pool is free. -/
def start (init : InitMessage) : Producer :=
  { init, senderSlots := List.range init.slotAddresses.length }

/-! ### Small updates -/

def mapBook (s : Producer) (f : Book → Book) : Producer := { s with book := f s.book }

def setCoro (s : Producer) (tid : Nat) (coro : Coroutine) : Producer :=
  { s with tasks := s.tasks.modify tid fun task => { task with coro } }

/-- The `CancelledError` is delivered: the request is used up. -/
def clearCancel (s : Producer) (tid : Nat) : Producer :=
  { s with tasks := s.tasks.modify tid fun task => { task with cancelRequested := false } }

def putSlot (s : Producer) (slot : Nat) : Producer :=
  { s with senderSlots := s.senderSlots ++ [slot] }

/-- `_alloc_job` and the synchronous part of `_submit`. The id is `s.nextJobId + 1`. -/
def submit (s : Producer) (job : HelperJob) : Producer :=
  { s with
    nextJobId := s.nextJobId + 1
    engineJobs := Function.update s.engineJobs (s.nextJobId + 1) (some job) }

/-- `router.send_multipart`; after shutdown the socket is closed. -/
def reply (s : Producer) (identity : Identity) (response : CompressionResponse) : Producer :=
  { s with
    replies := if s.routerOpen then s.replies ++ [(identity, response)] else s.replies }

/-- The unfinished operations filed under a key. -/
def operations (s : Producer) (key : OperationKey) : List Nat :=
  (List.range s.tasks.length).filter fun tid =>
    match s.tasks[tid]? with
    | some task => task.coro.operationKey? = some key && !task.coro.isDone
    | none => false

/-! ### `_open_producer_session` -/

/-- The `except` branch. -/
def openFailed (s : Producer) (tid : Nat) (identity : Identity) (request : CompressionSessionOpen)
    (transferId : TransferId) (ref : Nat) (isNew claimed : Bool) (message : String) : Producer :=
  ((s.mapBook fun b => b.openFailed tid transferId ref isNew claimed).reply identity
    (.sessionOpened { logicalBlockCount := 0, totalChunks := 0, error := some message })).setCoro
      tid (.sessionOpen request .done)

/-- From the end of `_wait_ready` to the submission of the `OpenProducerJob`. -/
def claimSendTarget (s : Producer) (tid : Nat) (identity : Identity)
    (request : CompressionSessionOpen) (dReqId : ReqId) (transferId : TransferId)
    (remoteBlockIds : BlockIds) (ref : Nat) (isNew : Bool) : Producer :=
  match handshakeTargetRanks s.init.tpRank s.init.tpSize request.metadata.remoteTpSize with
  | .error message => s.openFailed tid identity request transferId ref isNew false message
  | .ok ranks =>
      let s := s.mapBook fun b => b.claim tid ref ranks.length
      if (s.book.closed (transferId, dReqId, request.nonce)).isSome then
        s.openFailed tid identity request transferId ref isNew true
          "Session was aborted before KV transfer."
      else
        let m := s.book.states[ref]?.getD { transferId := transferId }
        (s.submit (.openProducer
          { transferId, dReqId, nonce := request.nonce, localBlockIds := m.localBlockIds,
            remoteBlockIds, numTokens := m.numTokens, «metadata» := request.metadata })).setCoro
          tid (.sessionOpen request (.waitJob ref isNew (s.nextJobId + 1)))

/-- One turn of the loop of `_wait_ready`, and what follows when it ends. -/
def waitReady (s : Producer) (tid : Nat) (identity : Identity) (request : CompressionSessionOpen)
    (dReqId : ReqId) (transferId : TransferId) (remoteBlockIds : BlockIds) (ref : Nat)
    (isNew : Bool) (deadline : Nat) : Producer :=
  if s.book.isReady ref then
    s.claimSendTarget tid identity request dReqId transferId remoteBlockIds ref isNew
  else if (s.book.closed (transferId, dReqId, request.nonce)).isSome then
    s.openFailed tid identity request transferId ref isNew false
      "Session aborted before producer became ready."
  else if deadline ≤ s.now then
    s.openFailed tid identity request transferId ref isNew false
      "Producer block table was not announced in time."
  else s.setCoro tid (.sessionOpen request (.waitReady ref isNew deadline))

/-- `_open_producer_session` up to its first `await`. Without a request
`next(iter(...))` raises before the `try`, and the task dies unanswered. -/
def openProducerSession (s : Producer) (tid : Nat) (identity : Identity)
    (request : CompressionSessionOpen) : Producer :=
  match request.metadata.reqBlocks with
  | [] => s.setCoro tid (.sessionOpen request .done)
  | (dReqId, transferId, remoteBlockIds) :: _ =>
      match s.book.sendMeta transferId with
      | some ref =>
          s.waitReady tid identity request dReqId transferId remoteBlockIds ref false
            (s.now + abortTimeout)
      | none =>
          (s.mapBook fun b => b.addState { transferId := transferId }).waitReady tid identity
            request dReqId transferId remoteBlockIds s.book.states.length true
            (s.now + abortTimeout)

/-- The `_ProducerSession` built from the answer to an `OpenProducerJob`. -/
def newSession (tid : Nat) (identity : Identity) (request : CompressionSessionOpen)
    (dReqId : ReqId) (transferId : TransferId) (ref : Nat) (result : JobDone) :
    ProducerSession :=
  { identity, transferId, dReqId, nonce := request.nonce
    remoteSession := (request.metadata.remoteHostname, request.metadata.remotePort)
    localBlockIds := result.localBlockIds
    validTokensByGroup := result.validTokensByGroup
    logicalBlockCount := result.logicalBlockCount
    totalChunks := result.totalChunks, sendState := ref, opener := tid }

/-- The answer to the `OpenProducerJob`: file the session and reply. -/
def openAnswered (s : Producer) (tid : Nat) (identity : Identity)
    (request : CompressionSessionOpen) (dReqId : ReqId) (transferId : TransferId)
    (ref : Nat) (isNew : Bool) (result : JobDone) : Producer :=
  match result.error with
  | some message => s.openFailed tid identity request transferId ref isNew true message
  | none =>
      ((s.mapBook fun b =>
        let b' := b.addSession (newSession tid identity request dReqId transferId ref result)
        if result.totalChunks = 0 then b'.completeProducerSession s.now b.sessions.length
        else b').reply identity (.sessionOpened
          { logicalBlockCount := result.logicalBlockCount
            totalChunks := result.totalChunks })).setCoro tid (.sessionOpen request .done)

/-- Resume an open handler. -/
def runOpen (s : Producer) (tid : Nat) (identity : Identity) (request : CompressionSessionOpen) :
    OpenAt → Option Producer
  | .created => some (s.openProducerSession tid identity request)
  | .waitReady ref isNew deadline =>
      match request.metadata.reqBlocks with
      | [] => none
      | (dReqId, transferId, remoteBlockIds) :: _ =>
          some (s.waitReady tid identity request dReqId transferId remoteBlockIds ref isNew
            deadline)
  | .waitJob ref isNew job =>
      match request.metadata.reqBlocks, s.futures job with
      | (dReqId, transferId, _) :: _, some result =>
          some (s.openAnswered tid identity request dReqId transferId ref isNew result)
      | _, _ => none
  | .done => none

/-! ### `_serve_producer_chunk` -/

/-- The tail of the `finally` block, after the slot is back: count the chunk
out, discard a dead session with its last chunk, and reply. -/
def leaveChunk (s : Producer) (tid : Nat) (identity : Identity) (request : CompressionChunkPull)
    (sref : Nat) (counted : Bool) (response : Option CompressionChunkReady) : Producer :=
  let s := s.mapBook fun b =>
    (if counted then b.addInflight sref (-1) else b).discardIfIdle sref
  let s := match response with
    | some ready => s.reply identity (.chunkReady ready)
    | none => s
  s.setCoro tid (.chunkPull request .done)

/-- The `finally` block when the slot is not known to be idle: submit the drain. -/
def drainSlot (s : Producer) (tid : Nat) (request : CompressionChunkPull) (sref slot : Nat)
    (response : Option CompressionChunkReady) : Producer :=
  (s.submit (.drainSlots [slot])).setCoro tid
    (.chunkPull request (.waitDrain sref slot (s.nextJobId + 1) response))

/-- The `except Exception` branch of a handler that holds a slot. -/
def chunkFailed (s : Producer) (tid : Nat) (request : CompressionChunkPull) (sref slot : Nat)
    (message : String) : Producer :=
  (s.mapBook fun b => b.setSessionState sref .failed).drainSlot tid request sref slot
    (some (.failed request.chunkId message))

/-- The `EncodeChunkJob` of a pull. -/
def encodeJob (session : ProducerSession) (request : CompressionChunkPull) (slot : Nat) :
    EncodeChunkJob :=
  { transferId := request.transferId, dReqId := request.dReqId, nonce := request.nonce
    chunkId := request.chunkId, slotId := slot
    logicalBlockCount := session.logicalBlockCount
    localBlockIds := session.localBlockIds
    validTokensByGroup := session.validTokensByGroup
    remoteSession := session.remoteSession
    payloadAddr := request.payloadAddr, auxAddr := request.auxAddr
    tailAddr := request.tailAddr }

/-- `slot_id = await self._sender_slots.get()` has returned. -/
def withSlot (s : Producer) (tid : Nat) (request : CompressionChunkPull)
    (session : ProducerSession) (sref slot : Nat) : Producer :=
  if session.state ≠ SessionState.active ∨ (s.book.closed request.operationKey).isSome then
    s.chunkFailed tid request sref slot "Session aborted while waiting for a slot."
  else
    (s.submit (.encodeChunk (encodeJob session request slot))).setCoro tid
      (.chunkPull request (.waitEncode sref slot (s.nextJobId + 1)))

/-- `_serve_producer_chunk` up to its first `await`. `_sender_slots.get()` does
not suspend when a slot is free. -/
def serveProducerChunk (s : Producer) (tid : Nat) (identity : Identity)
    (request : CompressionChunkPull) : Option Producer :=
  match s.book.producerSessions (identity, request.transferId, request.dReqId) with
  | none =>
      some ((s.reply identity (.chunkReady
        (.failed request.chunkId "Unknown or completed compression session."))).setCoro tid
          (.chunkPull request .done))
  | some sref => do
      let session ← s.book.sessions[sref]?
      if session.state ≠ SessionState.active then
        return (s.mapBook fun b => b.setSessionState sref .failed).leaveChunk tid identity request
          sref false (some (.failed request.chunkId
            ("Compression session is " ++ session.state.name ++ ".")))
      else
        let s := s.mapBook fun b => b.addInflight sref 1
        match s.senderSlots with
        | [] => return s.setCoro tid (.chunkPull request (.waitSlot sref))
        | slot :: rest =>
            return { s with senderSlots := rest }.withSlot tid request session sref slot

/-- The answer to the `EncodeChunkJob`. -/
def encodeAnswered (s : Producer) (tid : Nat) (identity : Identity)
    (request : CompressionChunkPull) (sref slot : Nat) (result : JobDone) : Producer :=
  match result.error with
  | some message => s.chunkFailed tid request sref slot message
  | none =>
      ((s.mapBook fun b => b.chunkEncoded s.now sref request.chunkId).putSlot slot).leaveChunk
        tid identity request sref true (some
          { chunkId := request.chunkId, dataBytes := result.u8Bytes
            payloadBytes := result.codecBytes, auxBytes := result.auxBytes })

/-- Resume a pull handler. -/
def runPull (s : Producer) (tid : Nat) (identity : Identity) (request : CompressionChunkPull) :
    PullAt → Option Producer
  | .created => s.serveProducerChunk tid identity request
  | .waitSlot sref =>
      match s.senderSlots, s.book.sessions[sref]? with
      | slot :: rest, some session =>
          some ({ s with senderSlots := rest }.withSlot tid request session sref slot)
      | _, _ => none
  | .waitEncode sref slot job =>
      (s.futures job).map fun result => s.encodeAnswered tid identity request sref slot result
  | .waitDrain sref slot job response =>
      -- A drain that answers with an error is only logged.
      (s.futures job).map fun _ =>
        (s.putSlot slot).leaveChunk tid identity request sref true response
  | .done => none

/-! ### `_abort_producer` -/

/-- `_abort_producer` up to its `await`. -/
def abortProducer (s : Producer) (tid : Nat) (identity : Identity)
    (request : CompressionAbort) : Producer :=
  let found := s.book.sameNonce request (s.book.findSession identity request)
  let s := s.mapBook fun b =>
    match found with
    | some sref => (b.close s.now request.operationKey).cancelSession sref
    | none => b.close s.now request.operationKey
  s.setCoro tid (.abort request
    (.draining found (s.operations request.operationKey) (s.now + abortTimeout)))

/-- Has `drain()` nothing left to wait for? -/
def drained (s : Producer) (found : Option Nat) (pending : List Nat) : Bool :=
  pending.all (fun tid =>
    match s.tasks[tid]? with
    | some task => task.coro.isDone
    | none => true) &&
  match found with
  | some sref => (s.book.sessions[sref]?.map ProducerSession.inflightChunks).getD 0 = 0
  | none => true

/-- The final sweep and the acknowledgement. -/
def abortDrained (s : Producer) (tid : Nat) (identity : Identity) (request : CompressionAbort)
    (error : Option String) : Producer :=
  ((s.mapBook fun b => b.cancelAll request.operationKey).reply identity (.abortAck
    { transferId := request.transferId, dReqId := request.dReqId, nonce := request.nonce
      error })).setCoro tid (.abort request .done)

/-- Resume an abort handler; `drain()` ends before its deadline or not at all. -/
def runAbort (s : Producer) (tid : Nat) (identity : Identity) (request : CompressionAbort) :
    AbortAt → Option Producer
  | .created => some (s.abortProducer tid identity request)
  | .draining found pending deadline =>
      if s.drained found pending ∧ s.now ≤ deadline then
        some (s.abortDrained tid identity request none)
      else none
  | .done => none

/-! ### Cancellation -/

/-- A `CancelledError` at the task's `await`. It is no `Exception`: an open
handler just ends; a pull handler runs its `finally` block, whose own drain
(`waitDrain`) is abandoned if that is where the error strikes. -/
def runCancelled (s : Producer) (tid : Nat) (task : Task) : Producer :=
  let s := s.clearCancel tid
  match task.coro with
  | .sessionOpen request _ => s.setCoro tid (.sessionOpen request .done)
  | .abort request _ => s.setCoro tid (.abort request .done)
  | .chunkPull request pos =>
      match pos with
      | .waitSlot sref => s.leaveChunk tid task.identity request sref true none
      | .waitEncode sref slot _ => s.drainSlot tid request sref slot none
      | .created | .waitDrain .. | .done => s.setCoro tid (.chunkPull request .done)

/-- Run a task from its `await` to the next one. -/
def run (s : Producer) (tid : Nat) : Option Producer := do
  let task ← s.tasks[tid]?
  if task.cancelRequested then return s.runCancelled tid task
  else
    match task.coro with
    | .sessionOpen request pos => s.runOpen tid task.identity request pos
    | .chunkPull request pos => s.runPull tid task.identity request pos
    | .abort request pos => s.runAbort tid task.identity request pos

/-- An `asyncio.wait_for` gives up: in `_submit`, or in `_abort_producer` at its
deadline. A `TimeoutError` has no message. -/
def timeoutTask (s : Producer) (tid : Nat) (identity : Identity) : Coroutine → Option Producer
  | .sessionOpen request (.waitJob ref isNew job) =>
      match request.metadata.reqBlocks, s.futures job with
      | (_, transferId, _) :: _, none =>
          some (s.openFailed tid identity request transferId ref isNew true "")
      | _, _ => none
  | .chunkPull request (.waitEncode sref slot job) =>
      if (s.futures job).isNone then some (s.chunkFailed tid request sref slot "") else none
  | .chunkPull request (.waitDrain sref slot job response) =>
      if (s.futures job).isNone then
        some ((s.putSlot slot).leaveChunk tid identity request sref true response)
      else none
  | .abort request (.draining _ _ deadline) =>
      if deadline ≤ s.now then
        some (s.abortDrained tid identity request
          (some "Producer could not drain aborted session."))
      else none
  | _ => none

def timeout (s : Producer) (tid : Nat) : Option Producer := do
  let task ← s.tasks[tid]?
  if task.cancelRequested then none else s.timeoutTask tid task.identity task.coro

/-! ### The event loop -/

/-- The task `_dispatch_producer` creates. -/
def newTask (identity : Identity) : CompressionRequest → Task
  | .sessionOpen request => { identity, coro := .sessionOpen request .created }
  | .chunkPull request => { identity, coro := .chunkPull request .created }
  | .abort request => { identity, coro := .abort request .created }

/-- `isinstance(request, CompressionAbort)`. -/
def isAbort : CompressionRequest → Bool
  | .abort _ => true
  | _ => false

/-- `_dispatch_producer`. -/
def dispatchProducer (s : Producer) (identity : Identity) (request : CompressionRequest) :
    Producer :=
  if s.stopping && !isAbort request then s
  else
    { s.mapBook fun b =>
        { b with
          closed := fun key => (b.closed key).filter fun expiry => decide (s.now < expiry) } with
      tasks := s.tasks ++ [newTask identity request]
      received := s.received ++ [(identity, request)] }

/-- A waiter of `_wait_ready` whose block table is announced polls before a
second has passed. -/
def clockBlocked (s : Producer) : Bool :=
  s.tasks.any fun task =>
    match task.coro with
    | .sessionOpen _ (.waitReady ref _ _) =>
        !task.cancelRequested && s.book.isReady ref
    | _ => false

/-- `_shutdown`: close the router and cancel what is still running. -/
def shutdown (s : Producer) : Producer :=
  { s with
    stopping := true
    routerOpen := false
    tasks := s.tasks.map fun task =>
      if task.coro.isDone then task else { task with cancelRequested := true } }

/-- What can happen to a producer helper. -/
inductive Action
  /-- A request arrives on the router. -/
  | recv (identity : Identity) (request : CompressionRequest)
  /-- The engine publishes `ProducerMetadata`. -/
  | metadataUpdate (message : ProducerMetadata)
  /-- The engine answers a job. -/
  | jobDone (job : Nat) (result : JobDone)
  /-- A handler task runs. -/
  | run (tid : Nat)
  /-- A handler's `wait_for` expires. -/
  | timeout (tid : Nat)
  | sweep
  /-- One second passes. -/
  | clock
  /-- `EngineStop`, or the pipe closed. -/
  | stop
  | shutdown
  deriving DecidableEq, Repr

/-- The step function. -/
def step (s : Producer) : Action → Option Producer
  | .recv identity request =>
      if s.routerOpen then some (s.dispatchProducer identity request) else none
  | .metadataUpdate message => some (s.mapBook fun b => b.applyProducerMetadata s.now message)
  | .jobDone job result =>
      if (s.engineJobs job).isSome then
        some { s with
          engineJobs := Function.update s.engineJobs job none
          futures := Function.update s.futures job (some result) }
      else none
  | .run tid => s.run tid
  | .timeout tid => s.timeout tid
  | .sweep => if s.stopping then none else some (s.mapBook fun b => b.sweepSends s.now)
  | .clock => if s.clockBlocked then none else some { s with now := s.now + 1 }
  | .stop => some { s with stopping := true }
  | .shutdown => if s.stopping ∧ s.routerOpen then some s.shutdown else none

end Producer

/-- The producer helper started with a given configuration. -/
def producerMachine (init : InitMessage) : Machine Producer Producer.Action where
  init s := s = Producer.start init
  step := Producer.step

end KVServe.Session

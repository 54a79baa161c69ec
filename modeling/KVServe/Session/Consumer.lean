import KVServe.Lib.Transition
import KVServe.Session.Protocol
import Mathlib.Data.List.Sort
import Mathlib.Logic.Function.Basic

/-!
# KVServe.Session.Consumer

The **consumer side of the session helper** (`_SessionService` of
`session_process.py`): `_recv_request`, `_run_consumer_session` with its issue,
receive and decode tasks, `_send_abort` and the receiver slot pool.

As for the producer, a coroutine is a record with the `await` it is suspended
at, and one step of the machine runs one task to its next `await`. What asyncio
promises and the source relies on is kept:

* A task that ends schedules its done-callbacks; they run in a step of their own
  (`callbacks`). The first callback of a decode task is `decode_tasks.discard`,
  the callback of `asyncio.wait` comes after it, so a session that waits for the
  task is woken only once the task has left `decode_tasks`.
* `asyncio.wait` reports every task that is done when the session runs again,
  which can include a decode task whose callbacks are still to come.
* A socket answers its `recv` calls in the order they were made (`waiters`);
  `_send_abort` calls `recv` on the socket `recv_task` may be waiting on.
* Cancelling a task that waits takes it off the socket or the slot queue at
  once, so `cancel()` is done in place.

`rid`, `acked` and `grants` of a session and `submitted` are history: no
definition reads them to decide anything.
-/

namespace KVServe.Session

/-! ### Tasks -/

/-- How a task ended. -/
inductive TaskEnd
  | returned
  | raised (message : String)
  | cancelled
  deriving DecidableEq, Repr

/-- Where `_decode_and_release` is suspended. -/
inductive DecodeAt
  | created
  /-- The `DecodeChunkJob` is submitted. -/
  | waitJob (job : Nat)
  | finished (how : TaskEnd)
  deriving DecidableEq, Repr

namespace DecodeAt

def isDone : DecodeAt → Bool
  | finished _ => true
  | _ => false

end DecodeAt

structure DecodeTask where
  job : DecodeChunkJob
  pos : DecodeAt := .created
  /-- Is the task in `decode_tasks`? -/
  tracked : Bool := true
  deriving DecidableEq, Repr

/-- `task.cancel()`. -/
def DecodeTask.cancel (task : DecodeTask) : DecodeTask :=
  if task.pos.isDone then task else { task with pos := .finished .cancelled }

/-- `issue_task`. -/
inductive IssueAt
  /-- `None`. -/
  | absent
  /-- In `_receiver_slots.get()` for the given chunk. -/
  | running (chunkId : Nat)
  | finished (error : Option String)
  | cancelled
  deriving DecidableEq, Repr

/-- `recv_task`. A finished `recv` without a message has raised `zmq.Again`. -/
inductive RecvAt
  | absent
  | created
  | pending
  | finished (message : Option CompressionResponse)
  | cancelled
  deriving DecidableEq, Repr

/-- Who has called `recv` on the socket of a session. -/
inductive Waiter
  | session
  | recvTask
  deriving DecidableEq, Repr

/-- What `_run_consumer_session` ends with: a set of failed blocks, or a
`CancelledError`. -/
inductive Outcome
  | returned (failed : Finset Nat)
  | cancelled
  deriving DecidableEq

/-- Where `_run_consumer_session` is suspended. `got` is what its own `recv`
has been answered with, if anything; an inner `none` is a timeout. -/
inductive SessionAt
  | created
  | opening (got : Option (Option CompressionResponse))
  /-- In `asyncio.wait`, for `recv_task`, `issue_task` and the given decode tasks. -/
  | waiting (decodes : List Nat) (woken : Bool)
  /-- All replies are in; waiting for the cancelled `recv_task`. -/
  | stopRecv
  /-- In `asyncio.gather(*tuple(decode_tasks))`. -/
  | gatherDecode (decodes : List Nat)
  /-- In `_send_abort`. -/
  | aborting (got : Option (Option CompressionResponse))
  /-- In the `finally` block: waiting for `issue_task`, `recv_task`, the decode
  tasks and the drain of the slots. -/
  | finIssue (out : Outcome)
  | finRecv (out : Outcome)
  | finDecode (decodes : List Nat) (out : Outcome)
  | finDrain (job : Nat) (out : Outcome)
  | ended (out : Outcome)
  deriving DecidableEq

namespace SessionAt

def isEnded : SessionAt → Bool
  | ended _ => true
  | _ => false

/-- Is the session inside its `finally` block? -/
def inFinally : SessionAt → Bool
  | finIssue _ | finRecv _ | finDecode .. | finDrain .. => true
  | _ => false

end SessionAt

/-! ### A session -/

/-- One run of `_run_consumer_session` with its tasks and its socket. -/
structure ConsumerSession where
  request : ConsumerRequest
  /-- History: the `_recv_request` that started the session. -/
  rid : Nat
  identity : Identity := ""
  nonce : Nonce := ""
  pos : SessionAt := .created
  cancelRequested : Bool := false
  issue : IssueAt := .absent
  recvTask : RecvAt := .absent
  decodes : List DecodeTask := []
  waiters : List Waiter := []
  /-- Messages nobody has called `recv` for yet. -/
  inbox : List CompressionResponse := []
  /-- A set, kept without repetition. -/
  owned : List Nat := []
  /-- `dict[chunk_id, slot_id]`. -/
  inflight : List (Nat × Nat) := []
  logicalBlockCount : Nat := 0
  totalChunks : Nat := 0
  completed : Nat := 0
  /-- History: `_send_abort` returned. -/
  acked : Bool := false
  /-- History: the slot each chunk was issued with. -/
  grants : List (Nat × Nat) := []
  deriving DecidableEq

/-- What a run of a session hands to the loop: the messages it sends, the job it
submits (under the next job id) and the slots it puts back. -/
structure Turn where
  session : ConsumerSession
  sends : List CompressionRequest := []
  submits : Option HelperJob := none
  puts : List Nat := []

namespace ConsumerSession

def modifyDecode (σ : ConsumerSession) (i : Nat) (f : DecodeTask → DecodeTask) : ConsumerSession :=
  { σ with decodes := σ.decodes.modify i f }

/-- `decode_tasks.discard(task)`. -/
def untrack (σ : ConsumerSession) (i : Nat) : ConsumerSession :=
  σ.modifyDecode i fun task => { task with tracked := false }

/-- `tuple(decode_tasks)`. -/
def decodeTasks (σ : ConsumerSession) : List Nat :=
  (List.range σ.decodes.length).filter fun i => (σ.decodes[i]?.map DecodeTask.tracked).getD false

/-- How a decode task ended, if it has. -/
def decodeEnd (σ : ConsumerSession) (i : Nat) : Option TaskEnd :=
  match σ.decodes[i]? with
  | some { pos := .finished how, .. } => some how
  | _ => none

/-- `task.cancel()` on the decode tasks of a gather. -/
def cancelDecodes (σ : ConsumerSession) (tasks : List Nat) : ConsumerSession :=
  tasks.foldl (fun σ i => σ.modifyDecode i DecodeTask.cancel) σ

def cancelIssue (σ : ConsumerSession) : ConsumerSession :=
  match σ.issue with
  | .running _ => { σ with issue := .cancelled }
  | _ => σ

def cancelRecv (σ : ConsumerSession) : ConsumerSession :=
  match σ.recvTask with
  | .created | .pending =>
      { σ with recvTask := .cancelled, waiters := σ.waiters.filter (· ≠ .recvTask) }
  | _ => σ

/-! ### The socket -/

/-- `await sock.recv()` by the session itself. -/
def callRecv (σ : ConsumerSession) (pos : Option (Option CompressionResponse) → SessionAt) :
    ConsumerSession :=
  match σ.waiters, σ.inbox with
  | [], response :: rest => { σ with inbox := rest, pos := pos (some (some response)) }
  | _, _ => { σ with waiters := σ.waiters ++ [.session], pos := pos none }

/-- `recv_one` starts. -/
def startRecv (σ : ConsumerSession) : Option ConsumerSession :=
  match σ.recvTask, σ.waiters, σ.inbox with
  | .created, [], response :: rest =>
      some { σ with inbox := rest, recvTask := .finished (some response) }
  | .created, _, _ => some { σ with waiters := σ.waiters ++ [.recvTask], recvTask := .pending }
  | _, _, _ => none

/-- A pending `recv` of the given caller ends. -/
def answer (σ : ConsumerSession) (waiter : Waiter) (message : Option CompressionResponse) :
    ConsumerSession :=
  match waiter with
  | .recvTask => { σ with recvTask := .finished message }
  | .session =>
      match σ.pos with
      | .opening none => { σ with pos := .opening (some message) }
      | .aborting none => { σ with pos := .aborting (some message) }
      | _ => σ

/-- A message arrives; the socket of an ended session is closed. -/
def arrive (σ : ConsumerSession) (response : CompressionResponse) : ConsumerSession :=
  if σ.pos.isEnded then σ
  else
    match σ.waiters with
    | waiter :: rest => { σ with waiters := rest }.answer waiter (some response)
    | [] => { σ with inbox := σ.inbox ++ [response] }

/-- A pending `recv` times out. -/
def expireRecv (σ : ConsumerSession) (waiter : Waiter) : Option ConsumerSession :=
  if waiter ∈ σ.waiters then
    some ({ σ with waiters := σ.waiters.erase waiter }.answer waiter none)
  else none

/-! ### The `finally` block -/

/-- The slots go back and the coroutine ends. -/
def finish (σ : ConsumerSession) (out : Outcome) : Turn :=
  { session := { σ with pos := .ended out, owned := [], inflight := [] }, puts := σ.owned }

/-- The decode tasks are over: drain the slots still owned. -/
def afterDecode (σ : ConsumerSession) (out : Outcome) (nextJob : Nat) : Turn :=
  if σ.owned = [] then σ.finish out
  else
    { session := { σ with pos := .finDrain nextJob out }
      submits := some (.drainSlots (σ.owned.insertionSort (· ≤ ·))) }

def afterRecv (σ : ConsumerSession) (out : Outcome) (nextJob : Nat) : Turn :=
  let σ := { σ with recvTask := .absent }
  if σ.decodeTasks = [] then σ.afterDecode out nextJob
  else { session := { σ with pos := .finDecode σ.decodeTasks out } }

def afterIssue (σ : ConsumerSession) (out : Outcome) (nextJob : Nat) : Turn :=
  if σ.recvTask = .absent then σ.afterRecv out nextJob
  else { session := { σ.cancelRecv with pos := .finRecv out } }

def enterFinally (σ : ConsumerSession) (out : Outcome) (nextJob : Nat) : Turn :=
  if σ.issue = .absent then σ.afterIssue out nextJob
  else { session := { σ.cancelIssue with pos := .finIssue out } }

/-! ### The body -/

/-- The open request of a session. -/
def openRequest (init : InitMessage) (request : ConsumerRequest) (nonce : Nonce) :
    CompressionSessionOpen :=
  { nonce
    «metadata» :=
      { remoteHostname := init.hostname, remotePort := init.rpcPort
        remoteTpSize := init.tpSize, remoteTpRank := init.tpRank
        reqBlocks := [(request.dReqId, request.transferId, request.localBlockIds)]
        kvCachesBaseAddr := init.kvCachesBaseAddr, blockLens := init.blockLens
        kvBlockLens := init.kvBlockLens, registeredLayerNames := init.registeredLayerNames
        registeredLayerIndices := init.registeredLayerIndices
        registeredGroupIndices := init.registeredGroupIndices, remotePpSize := init.ppSize } }

/-- Up to the first `await`: `nonce` and `identity` are read off the clock. -/
def start (σ : ConsumerSession) (init : InitMessage) (nonce : Nonce) (identity : Identity) :
    Turn :=
  { session := { σ with nonce, identity }.callRecv .opening
    sends := [.sessionOpen (openRequest init σ.request nonce)] }

/-- `except Exception`: `_send_abort` up to its `recv`. -/
def sendAbort (σ : ConsumerSession) (reason : String) : Turn :=
  { session := σ.callRecv .aborting
    sends := [.abort { transferId := σ.request.transferId, dReqId := σ.request.dReqId, reason
                       nonce := σ.nonce }] }

/-- The head of the reply loop. -/
def loopHead (σ : ConsumerSession) : ConsumerSession :=
  if σ.completed < σ.totalChunks then { σ with pos := .waiting σ.decodeTasks false }
  else { σ.cancelRecv with pos := .stopRecv }

/-- The open succeeded with at least one chunk: create the issue and receive tasks. -/
def startTasks (σ : ConsumerSession) (response : CompressionSessionOpened) : ConsumerSession :=
  { σ with
    logicalBlockCount := response.logicalBlockCount, totalChunks := response.totalChunks
    issue := .running 0, recvTask := .created }

/-- The answer to the open. -/
def opened (σ : ConsumerSession) (nextJob : Nat) : Option CompressionResponse → Turn
  | none => σ.sendAbort ""
  | some (.sessionOpened response) =>
      if isError response.error then σ.sendAbort (response.error.getD "")
      else if response.totalChunks = 0 then σ.enterFinally (.returned ∅) nextJob
      else { session := (σ.startTasks response).loopHead }
  | some _ => σ.sendAbort "Unexpected compression session response."

/-- The `DecodeChunkJob` for a reply. -/
def decodeJob (σ : ConsumerSession) (ready : CompressionChunkReady) (slot : Nat) :
    DecodeChunkJob :=
  { transferId := σ.request.transferId, dReqId := σ.request.dReqId, nonce := σ.nonce
    chunkId := ready.chunkId, slotId := slot, logicalBlockCount := σ.logicalBlockCount
    localBlockIds := σ.request.localBlockIds, numTokens := σ.request.numTokens
    codecBytes := ready.codecBytes, u8Bytes := ready.u8Bytes }

/-- A good reply: pop the slot and create the decode task. -/
def acceptChunk (σ : ConsumerSession) (ready : CompressionChunkReady) (slot : Nat) :
    ConsumerSession :=
  { σ with
    inflight := σ.inflight.filter (·.1 ≠ ready.chunkId)
    decodes := σ.decodes ++ [{ job := σ.decodeJob ready slot }]
    completed := σ.completed + 1 }

/-- `if old_recv in done`; a message is what the session raises. -/
def takeReply (σ : ConsumerSession) : ConsumerSession × Option String :=
  match σ.recvTask with
  | .finished none => (σ, some "Resource temporarily unavailable")
  | .finished (some response) =>
      let σ := { σ with recvTask := .created }
      match response with
      | .chunkReady ready =>
          if isError ready.error then (σ, some (ready.error.getD ""))
          else
            match σ.inflight.lookup ready.chunkId with
            | some slot => (σ.acceptChunk ready slot, none)
            | none => (σ, some (toString ready.chunkId))
      | _ => (σ, some "Unexpected compression chunk response.")
  | _ => (σ, none)

/-- `if issue_task is not None and issue_task in done`. -/
def takeIssue (σ : ConsumerSession) : ConsumerSession × Option String :=
  match σ.issue with
  | .finished none => ({ σ with issue := .absent }, none)
  | .finished (some message) => (σ, some message)
  | _ => (σ, none)

/-- `for task in done`: only tasks still in `decode_tasks` have their result read. -/
def takeDecodes (σ : ConsumerSession) : List Nat → ConsumerSession × Option String
  | [] => (σ, none)
  | i :: rest =>
      match σ.decodes[i]? with
      | some { pos := .finished (.raised message), tracked := true, .. } =>
          (σ.untrack i, some message)
      | some { pos := .finished _, tracked := true, .. } => (σ.untrack i).takeDecodes rest
      | _ => σ.takeDecodes rest

/-- One turn of the reply loop, after `asyncio.wait`. -/
def wake (σ : ConsumerSession) (waited : List Nat) : Turn :=
  match σ.takeReply with
  | (σ, some message) => σ.sendAbort message
  | (σ, none) =>
      match σ.takeIssue with
      | (σ, some message) => σ.sendAbort message
      | (σ, none) =>
          match σ.takeDecodes waited with
          | (σ, some message) => σ.sendAbort message
          | (σ, none) => { session := σ.loopHead }

/-- The first exception among the tasks of a gather. -/
def firstError (σ : ConsumerSession) (tasks : List Nat) : Option String :=
  tasks.findSome? fun i =>
    match σ.decodeEnd i with
    | some (.raised message) => some message
    | _ => none

def allDone (σ : ConsumerSession) (tasks : List Nat) : Bool :=
  tasks.all fun i => (σ.decodeEnd i).isSome

/-- Does the message acknowledge a safe cancellation of this session? -/
def isAck (σ : ConsumerSession) : Option CompressionResponse → Bool
  | some (.abortAck ack) =>
      ack.nonce = σ.nonce ∧ ack.transferId = σ.request.transferId ∧
        ack.dReqId = σ.request.dReqId ∧ isError ack.error = false
  | _ => false

/-- Resume a session at its `await`. -/
def resume (σ : ConsumerSession) (nextJob : Nat) (futures : Nat → Option JobDone) : Option Turn :=
  match σ.pos with
  | .opening (some message) => some (σ.opened nextJob message)
  | .waiting waited true => some (σ.wake waited)
  | .stopRecv =>
      if σ.decodeTasks = [] then
        some ({ σ with recvTask := .absent }.enterFinally (.returned ∅) nextJob)
      else
        some { session := { σ with recvTask := .absent, pos := .gatherDecode σ.decodeTasks } }
  | .gatherDecode tasks =>
      match σ.firstError tasks with
      | some message => some (σ.sendAbort message)
      | none =>
          if σ.allDone tasks then some (σ.enterFinally (.returned ∅) nextJob) else none
  | .aborting (some message) =>
      -- An abort that is not acknowledged is only logged.
      some ({ σ with acked := σ.isAck message }.enterFinally
        (.returned (allBlocks σ.request.localBlockIds)) nextJob)
  | .finIssue out => some (σ.afterIssue out nextJob)
  | .finRecv out => some (σ.afterRecv out nextJob)
  | .finDecode tasks out => if σ.allDone tasks then some (σ.afterDecode out nextJob) else none
  | .finDrain job out => (futures job).map fun _ => σ.finish out
  | _ => none

/-- A `CancelledError` at the session's `await`. Inside the `finally` block it
skips what is left of the block. -/
def resumeCancelled (σ : ConsumerSession) (nextJob : Nat) : Option Turn :=
  let σ := { σ with cancelRequested := false, waiters := σ.waiters.filter (· ≠ Waiter.session) }
  match σ.pos with
  | .created => some { session := { σ with pos := .ended .cancelled } }
  | .opening _ | .waiting .. | .stopRecv | .aborting _ => some (σ.enterFinally .cancelled nextJob)
  | .gatherDecode tasks => some ((σ.cancelDecodes tasks).enterFinally .cancelled nextJob)
  | .finDecode tasks _ =>
      some { session := { σ.cancelDecodes tasks with pos := .ended .cancelled } }
  | .finIssue _ | .finRecv _ | .finDrain .. =>
      some { session := { σ with pos := .ended .cancelled } }
  | .ended _ => none

/-! ### The other tasks of a session -/

/-- The `CompressionChunkPull` for a chunk and the slot it is granted. -/
def pull (σ : ConsumerSession) (init : InitMessage) (chunkId slot : Nat) : CompressionChunkPull :=
  let address := (init.slotAddresses[slot]?).getD ⟨0, 0, 0⟩
  { transferId := σ.request.transferId, dReqId := σ.request.dReqId, chunkId, slotId := slot
    payloadAddr := address.payload, auxAddr := address.aux, tailAddr := address.tail
    nonce := σ.nonce }

/-- `issue_all` gets a slot: one turn of its loop. `fails` is an exception of `send`. -/
def issueChunk (σ : ConsumerSession) (init : InitMessage) (chunkId slot : Nat) (fails : Bool) :
    Turn :=
  let σ' := { σ with
    owned := σ.owned.insert slot
    inflight := (chunkId, slot) :: σ.inflight.filter (·.1 ≠ chunkId)
    grants := σ.grants ++ [(chunkId, slot)] }
  if fails then { session := { σ' with issue := .finished (some "send failed") } }
  else
    { session := { σ' with
        issue := if chunkId + 1 < σ.totalChunks then .running (chunkId + 1) else .finished none }
      sends := [.chunkPull (σ.pull init chunkId slot)] }

/-- A decode task submits its job. -/
def startDecode (σ : ConsumerSession) (i nextJob : Nat) : Option Turn :=
  match σ.decodes[i]? with
  | some { job, pos := .created, .. } =>
      some { session := σ.modifyDecode i fun task => { task with pos := .waitJob nextJob }
             submits := some (.decodeChunk job) }
  | _ => none

def endDecode (σ : ConsumerSession) (i : Nat) (how : TaskEnd) : ConsumerSession :=
  σ.modifyDecode i fun task => { task with pos := .finished how }

/-- The engine has answered the job of a decode task. -/
def finishDecode (σ : ConsumerSession) (i : Nat) (futures : Nat → Option JobDone) : Option Turn :=
  match σ.decodes[i]? with
  | some { job, pos := .waitJob id, .. } =>
      (futures id).map fun result =>
        match result.error with
        | some message => { session := σ.endDecode i (.raised message) }
        | none =>
            { session := { σ.endDecode i .returned with owned := σ.owned.erase job.slotId }
              puts := [job.slotId] }
  | _ => none

/-- The `wait_for` of a decode task gives up. -/
def decodeTimeout (σ : ConsumerSession) (i : Nat) (futures : Nat → Option JobDone) :
    Option ConsumerSession :=
  match σ.decodes[i]? with
  | some { pos := .waitJob id, .. } =>
      if (futures id).isNone then some (σ.endDecode i (.raised "")) else none
  | _ => none

end ConsumerSession

/-- A task of a session whose done-callbacks can run. -/
inductive Awaited
  | recvTask
  | issueTask
  | decode (i : Nat)
  deriving DecidableEq, Repr

namespace ConsumerSession

/-- Has the task ended? -/
def isDone (σ : ConsumerSession) : Awaited → Bool
  | .recvTask => match σ.recvTask with
      | .finished _ => true
      | _ => false
  | .issueTask => match σ.issue with
      | .finished _ => true
      | _ => false
  | .decode i => (σ.decodeEnd i).isSome

/-- The callback of `asyncio.wait`. -/
def notify (σ : ConsumerSession) (task : Awaited) : ConsumerSession :=
  match σ.pos, task with
  | .waiting waited _, .decode i =>
      if i ∈ waited then { σ with pos := .waiting waited true } else σ
  | .waiting waited _, _ => { σ with pos := .waiting waited true }
  | _, _ => σ

/-- The done-callbacks of a task, in the order they were registered. -/
def callbacks (σ : ConsumerSession) (task : Awaited) : Option ConsumerSession :=
  if σ.isDone task then
    match task with
    | .decode i => some ((σ.untrack i).notify task)
    | _ => some (σ.notify task)
  else none

end ConsumerSession

/-! ### The consumer -/

/-- The answer of a bootstrap server: TP rank to PP rank to worker address. -/
abbrev Agents := List (Nat × List (Nat × String))

/-- `_handshake_worker_addrs`. -/
def handshakeWorkerAddrs (init : InitMessage) (agents : Agents) : Except String (List String) := do
  let remoteTpRanks ← handshakeTargetRanks init.tpRank init.tpSize agents.length
  let addrs ← remoteTpRanks.mapM fun rank =>
    match agents.lookup rank with
    | none => .error (toString rank)
    | some ppToAddr =>
        match ppToAddr.lookup init.ppRank with
        | some addr =>
            if init.ppSize = ppToAddr.length then .ok [addr]
            else .ok ((ppToAddr.insertionSort (·.1 ≤ ·.1)).map (·.2))
        | none => .ok ((ppToAddr.insertionSort (·.1 ≤ ·.1)).map (·.2))
  return addrs.flatten

/-- Where `_recv_request` is suspended. -/
inductive RecvRequestAt
  /-- In `_ensure_remote_agent`. -/
  | created
  | gathering (sessions : List Nat)
  | done
  deriving DecidableEq, Repr

structure RecvRequest where
  request : ConsumerRequest
  pos : RecvRequestAt := .created
  cancelRequested : Bool := false
  deriving DecidableEq, Repr

/-- The consumer half of `_SessionService`. -/
structure Consumer where
  init : InitMessage
  stopping : Bool := false
  receiverSlots : List Nat
  nextJobId : Nat := 0
  engineJobs : Nat → Option HelperJob := fun _ => none
  futures : Nat → Option JobDone := fun _ => none
  /-- History: every job ever submitted. -/
  submitted : Nat → Option HelperJob := fun _ => none
  requests : List RecvRequest := []
  /-- Every `_run_consumer_session` ever started. -/
  sessions : List ConsumerSession := []
  sent : List (Identity × CompressionRequest) := []
  /-- `RecvDone` messages, with the request each is for. -/
  recvDone : List (Nat × RecvDone) := []

namespace Consumer

/-- `run`: every slot of the pool is free. -/
def start (init : InitMessage) : Consumer :=
  { init, receiverSlots := List.range init.slotAddresses.length }

/-- Carry out what a session hands to the loop. -/
def apply (s : Consumer) (sid : Nat) (turn : Turn) : Consumer :=
  { s with
    sessions := s.sessions.modify sid fun _ => turn.session
    sent := s.sent ++ turn.sends.map fun message => (turn.session.identity, message)
    receiverSlots := s.receiverSlots ++ turn.puts
    nextJobId := if turn.submits.isSome then s.nextJobId + 1 else s.nextJobId
    engineJobs := match turn.submits with
      | some job => Function.update s.engineJobs (s.nextJobId + 1) (some job)
      | none => s.engineJobs
    submitted := match turn.submits with
      | some job => Function.update s.submitted (s.nextJobId + 1) (some job)
      | none => s.submitted }

/-- Run one task of a session. -/
def withSession (s : Consumer) (sid : Nat) (f : ConsumerSession → Option Turn) :
    Option Consumer := do
  let σ ← s.sessions[sid]?
  let turn ← f σ
  return s.apply sid turn

def onSession (s : Consumer) (sid : Nat) (f : ConsumerSession → Option ConsumerSession) :
    Option Consumer :=
  s.withSession sid fun σ => (f σ).map fun session => { session }

/-- `issue_all` of a session takes the next free slot. -/
def issue (s : Consumer) (sid : Nat) (fails : Bool) : Option Consumer := do
  let σ ← s.sessions[sid]?
  match σ.issue, s.receiverSlots with
  | .running chunkId, slot :: rest =>
      return { s with receiverSlots := rest }.apply sid (σ.issueChunk s.init chunkId slot fails)
  | _, _ => none

/-- `finally: self._to_engine(RecvDone(...))`. -/
def endRequest (s : Consumer) (rid : Nat) (request : ConsumerRequest) (failed : Finset Nat) :
    Consumer :=
  { s with
    requests := s.requests.modify rid fun r => { r with pos := .done }
    recvDone := s.recvDone ++ [(rid, { dReqId := request.dReqId, failedBlocks := failed })] }

/-- `_ensure_remote_agent` ends: with an exception, or with the agents of the
remote engine, for which the sessions are started. -/
def ensureRemoteAgent (s : Consumer) (rid : Nat) (agents : Option Agents) : Option Consumer := do
  let task ← s.requests[rid]?
  if task.pos ≠ .created ∨ task.cancelRequested then none
  else
    match agents.map (handshakeWorkerAddrs s.init) with
    | some (.ok (addr :: addrs)) =>
        let started := (addr :: addrs).map fun _ =>
          { request := task.request, rid : ConsumerSession }
        let sids := (List.range started.length).map (s.sessions.length + ·)
        return { s with
          sessions := s.sessions ++ started
          requests := s.requests.modify rid fun r => { r with pos := .gathering sids } }
    | _ => return s.endRequest rid task.request (allBlocks task.request.localBlockIds)

/-- The outcome of an ended session. -/
def outcome (s : Consumer) (sid : Nat) : Option Outcome :=
  match s.sessions[sid]? with
  | some { pos := .ended out, .. } => some out
  | _ => none

/-- `failed.update(result)` over the results of a gather that did not raise. -/
def failedBlocks (s : Consumer) (sids : List Nat) : Finset Nat :=
  sids.foldl (fun failed sid =>
    match s.outcome sid with
    | some (.returned result) => failed ∪ result
    | _ => failed) ∅

/-- `_recv_request` resumes after its gather. A `CancelledError` goes past the
`except Exception`, and the `finally` block reports no failed block. -/
def gathered (s : Consumer) (rid : Nat) : Option Consumer := do
  let task ← s.requests[rid]?
  match task.pos with
  | .created => if task.cancelRequested then return s.endRequest rid task.request ∅ else none
  | .gathering sids =>
      if sids.any (fun sid => s.outcome sid = some .cancelled) ∨
          (task.cancelRequested ∧ sids.all fun sid => (s.outcome sid).isSome) then
        return s.endRequest rid task.request ∅
      else if sids.all fun sid => (s.outcome sid).isSome then
        return s.endRequest rid task.request (s.failedBlocks sids)
      else none
  | .done => none

/-- `_shutdown` cancels the requests that are not done, and through their gather
the sessions. -/
def shutdown (s : Consumer) : Consumer :=
  { s with
    stopping := true
    requests := s.requests.map fun task =>
      if task.pos = .done then task else { task with cancelRequested := true }
    sessions := s.sessions.map fun σ =>
      if σ.pos.isEnded then σ else { σ with cancelRequested := true } }

/-- What can happen to a consumer helper. -/
inductive Action
  /-- The engine sends `ConsumerMetadata`. -/
  | consumerMetadata (requests : List ConsumerRequest)
  | ensureRemoteAgent (rid : Nat) (agents : Option Agents)
  | gathered (rid : Nat)
  | start (sid : Nat) (nonce : Nonce) (identity : Identity)
  | resume (sid : Nat)
  | issue (sid : Nat) (fails : Bool)
  | startRecv (sid : Nat)
  | callbacks (sid : Nat) (task : Awaited)
  | startDecode (sid i : Nat)
  | finishDecode (sid i : Nat)
  | decodeTimeout (sid i : Nat)
  | drainTimeout (sid : Nat)
  /-- A message arrives on the socket of a session. -/
  | deliver (sid : Nat) (response : CompressionResponse)
  | expireRecv (sid : Nat) (waiter : Waiter)
  | jobDone (job : Nat) (result : JobDone)
  | shutdown
  deriving DecidableEq

/-- The clock has not given out this nonce or identity before; neither is empty. -/
def unused (s : Consumer) (nonce : Nonce) (identity : Identity) : Bool :=
  nonce ≠ "" && identity ≠ "" &&
    s.sessions.all fun σ => σ.nonce ≠ nonce && σ.identity ≠ identity

/-- The first run of a session. -/
def startSession (init : InitMessage) (nonce : Nonce) (identity : Identity)
    (σ : ConsumerSession) : Option Turn :=
  if σ.pos = .created ∧ σ.cancelRequested = false then some (σ.start init nonce identity) else none

def resumeSession (nextJob : Nat) (futures : Nat → Option JobDone) (σ : ConsumerSession) :
    Option Turn :=
  if σ.cancelRequested then σ.resumeCancelled nextJob else σ.resume nextJob futures

/-- The drain of the `finally` block is given up. -/
def drainTimeout (futures : Nat → Option JobDone) (σ : ConsumerSession) : Option Turn :=
  match σ.pos with
  | .finDrain job out =>
      if (futures job).isNone ∧ σ.cancelRequested = false then some (σ.finish out) else none
  | _ => none

/-- The step function. -/
def step (s : Consumer) : Action → Option Consumer
  | .consumerMetadata requests =>
      some { s with requests := s.requests ++ requests.map fun request => { request } }
  | .ensureRemoteAgent rid agents => s.ensureRemoteAgent rid agents
  | .gathered rid => s.gathered rid
  | .start sid nonce identity =>
      if s.unused nonce identity then s.withSession sid (startSession s.init nonce identity)
      else none
  | .resume sid => s.withSession sid (resumeSession (s.nextJobId + 1) s.futures)
  | .issue sid fails => s.issue sid fails
  | .startRecv sid => s.onSession sid ConsumerSession.startRecv
  | .callbacks sid task => s.onSession sid fun σ => σ.callbacks task
  | .startDecode sid i => s.withSession sid fun σ => σ.startDecode i (s.nextJobId + 1)
  | .finishDecode sid i => s.withSession sid fun σ => σ.finishDecode i s.futures
  | .decodeTimeout sid i => s.onSession sid fun σ => σ.decodeTimeout i s.futures
  | .drainTimeout sid => s.withSession sid (drainTimeout s.futures)
  | .deliver sid response => s.onSession sid fun σ => some (σ.arrive response)
  | .expireRecv sid waiter => s.onSession sid fun σ => σ.expireRecv waiter
  | .jobDone job result =>
      if (s.engineJobs job).isSome then
        some { s with
          engineJobs := Function.update s.engineJobs job none
          futures := Function.update s.futures job (some result) }
      else none
  | .shutdown => if s.stopping then none else some s.shutdown

end Consumer

/-- The consumer helper started with a given configuration. -/
def consumerMachine (init : InitMessage) : Machine Consumer Consumer.Action where
  init s := s = Consumer.start init
  step := Consumer.step

end KVServe.Session

import KVServe.Engine.Chunks
import KVServe.Session.Consumer

/-!
# KVServe.Engine.Receive

The **in-process consumer** of `mooncake_connector.py`: `receive_kv`,
`_receive_compressed_request` with its issue, receive and writeback tasks,
`_send_compression_abort` and `_finish_compression_receive`.

As for the session helper, a coroutine is a record with the `await` it is suspended at, and
one step of the machine runs one task to its next `await`. What comes from outside (an
answer of the producer, a CUDA event, the decoder) is part of the action, and an exception
of it is an `error`. A call can end in any order with the calls of the other producer ranks
and of other requests; they share the slots, the `PullReqMeta` and the queues of the
connector. Cancellation and a terminated ZMQ context are left out.

`finishes` of a call is history, and so is the request that stands with a report.
-/

namespace KVServe.Engine

open KVServe.Session hiding ConsumerSession

/-! ### State -/

/-- The worker, as far as a receive reads it. -/
structure ReceiverConfig where
  /-- The `MooncakeXferMetadata` of this worker, without requests. -/
  «metadata» : MooncakeXferMetadata
  /-- `slot_addresses` and `tail_slot_addresses` of every slot. -/
  slots : List SlotAddresses
  logicalBlocksPerChunk : Nat
  faGroupIndices : List Nat
  /-- `_compression_block_sizes()`. -/
  blockSizes : List (Nat × Nat)
  /-- `default_execution.raw`. -/
  executionRaw : Bool

/-- `PullReqMeta`. -/
structure PullReqMeta where
  dReqId : ReqId
  transferId : TransferId
  localBlockIds : BlockIds
  numTokens : Option Nat
  pullTasksCount : Int := 0
  failedBlocks : Finset Nat := ∅
  deriving DecidableEq

inductive ReceiveSlotState
  | free
  | granted
  | received
  | decoding
  | writeback
  deriving DecidableEq, Repr

structure ReceiveSlot where
  state : ReceiveSlotState := .free
  chunkId : Option Nat := none
  deriving DecidableEq, Repr

/-- The states a `ConsumerSession` of the worker takes. -/
inductive ReceiveState
  | planned
  | active
  | complete
  | failed
  deriving DecidableEq, Repr

/-- `ConsumerSession` of `compression/state.py`. -/
structure ReceiveSession where
  state : ReceiveState := .planned
  logicalBlockCount : Nat := 0
  totalChunks : Nat := 0
  completedChunks : Nat := 0
  validTokensByGroup : TokenCounts := []
  slots : List ReceiveSlot := []
  error : Option String := none
  deriving DecidableEq

/-- What `_decode_compression_chunk` is called with. -/
structure DecodeCall where
  chunkId : Nat
  slotId : Nat
  logicalIdsByGroup : BlockIds
  kvPart : Nat
  codecBytes : Nat
  u8Bytes : Nat
  validTokens : TokenCounts
  deriving DecidableEq, Repr

/-- A task of `writeback_tasks`. -/
structure Writeback where
  slotId : Nat
  chunkId : Nat
  result : Option (Except String Unit) := none
  /-- Is the task still in the dict? -/
  tracked : Bool := true

/-- `recv_task`. -/
inductive ReplyAt
  | absent
  | pending
  | finished (answer : Except String CompressionResponse)

/-- A task that `asyncio.wait` reports. -/
inductive DoneTask
  | issueTask
  | recvTask
  | writeback (i : Nat)
  deriving DecidableEq, Repr

/-- Where `_receive_compressed_request` is suspended. A message is the exception that left
the `try` block. -/
inductive ReceiveAt
  | created
  /-- In the `recv` for the answer to the open. -/
  | opening
  /-- In `asyncio.wait`. -/
  | waiting
  /-- In the decoder, with the tasks that are done and not yet looked at. -/
  | decoding (call : DecodeCall) (rest : List DoneTask)
  /-- In `stop_issuer`. -/
  | stopIssuer (failure : Option String)
  /-- In the `gather` over the cancelled `recv_task`, all chunks written. -/
  | stopRecv
  /-- In `_send_compression_abort`. -/
  | aborting
  /-- In `cleanup_consumer_resources`: the `gather` over `recv_task`, that over the writeback
  tasks, and the event of the first of the slots. -/
  | cleanRecv
  | cleanWritebacks
  | cleanSlots (slots : List Nat)
  | ended (how : TaskEnd)

/-- One call of `_receive_compressed_request`. -/
structure Receive where
  /-- The `PullReqMeta` of the call. -/
  rid : Nat
  workerAddr : String
  nonce : Nonce := ""
  pos : ReceiveAt := .created
  session : Option ReceiveSession := none
  /-- `dict[chunk_id, slot_id]`. -/
  networkInflight : List (Nat × Nat) := []
  writebacks : List Writeback := []
  issue : IssueAt := .absent
  recvTask : ReplyAt := .absent
  /-- History: the calls of `_finish_compression_receive`, each with `failed`. -/
  finishes : List Bool := []

/-- What a call hands to the loop: the messages it sends, the slots it puts back and its call
of `_finish_compression_receive`. -/
structure ReceiveTurn where
  call : Receive
  sends : List CompressionRequest := []
  puts : List Nat := []
  finish : Option Bool := none

namespace Receive

/-! ### Small updates -/

def mapSession (r : Receive) (f : ReceiveSession → ReceiveSession) : Receive :=
  { r with session := r.session.map f }

def setSlot (r : Receive) (slot : Nat) (value : ReceiveSlot) : Receive :=
  r.mapSession fun x => { x with slots := x.slots.set slot value }

def setSlotState (r : Receive) (slot : Nat) (state : ReceiveSlotState) : Receive :=
  r.mapSession fun x => { x with slots := x.slots.modify slot fun y => { y with state } }

/-- `tuple(writeback_tasks)`. -/
def writebackTasks (r : Receive) : List Nat :=
  (List.range r.writebacks.length).filter fun i =>
    (r.writebacks[i]?.map Writeback.tracked).getD false

/-! ### The end of a call -/

/-- `_finish_compression_receive`, after which the call returns. -/
def finish (r : Receive) (failed : Bool) : ReceiveTurn :=
  { call := { r with pos := .ended .returned, finishes := r.finishes ++ [failed] }
    finish := some failed }

/-- The slots that the session owns. -/
def ownedSlots (session : ReceiveSession) : List Nat :=
  (List.range session.slots.length).filter fun i =>
    session.slots[i]? ≠ some { state := .free, chunkId := none }

/-- The loop of the cleanup over the slots. -/
def drainSlots (r : Receive) : List Nat → ReceiveTurn
  | [] => { r with networkInflight := [], writebacks := [] }.finish true
  | slots => { call := { r with pos := .cleanSlots slots } }

/-- The cleanup after its `gather` over the writeback tasks: an exception of one of them ends
it, and is only logged. -/
def afterWritebacks (r : Receive) : ReceiveTurn :=
  if r.writebackTasks.any fun i =>
      match r.writebacks[i]? with
      | some { result := some (.error _), .. } => true
      | _ => false then
    r.finish true
  else r.drainSlots ((r.session.map ownedSlots).getD [])

/-- The cleanup after its `gather` over `recv_task`. -/
def afterRecv (r : Receive) : ReceiveTurn :=
  let r := { r with recvTask := .absent }
  if r.writebackTasks = [] then r.afterWritebacks
  else { call := { r with pos := .cleanWritebacks } }

/-- `cleanup_consumer_resources`. -/
def cleanup (r : Receive) : ReceiveTurn :=
  match r.recvTask with
  | .absent => r.afterRecv
  | _ => { call := { r with pos := .cleanRecv } }

/-- The `except` block after `stop_issuer`: without a session there is nothing to abort. -/
def sendAbort (r : Receive) (pullMeta : PullReqMeta) (message : String) : ReceiveTurn :=
  match r.session with
  | none => r.finish true
  | some session =>
      let session := { session with state := .failed, error := some message }
      { call := { r with session := some session, pos := .aborting }
        sends := [.abort
          { transferId := pullMeta.transferId, dReqId := pullMeta.dReqId, nonce := r.nonce
            reason := if message = "" then "FAILED" else message }] }

/-- The end of the `try` block. -/
def complete (r : Receive) : ReceiveTurn :=
  (r.mapSession fun x => { x with state := .complete }).finish false

/-- What follows `stop_issuer`. -/
def afterIssuer (r : Receive) (pullMeta : PullReqMeta) : Option String → ReceiveTurn
  | some message => r.sendAbort pullMeta message
  | none =>
      match r.recvTask with
      | .absent => r.complete
      | _ => { call := { r with pos := .stopRecv } }

/-- `stop_issuer`. The cancelled task does not run again. -/
def enterStop (r : Receive) (pullMeta : PullReqMeta) (failure : Option String) : ReceiveTurn :=
  match r.issue with
  | .absent => r.afterIssuer pullMeta failure
  | .running _ => { call := { r with issue := .cancelled, pos := .stopIssuer failure } }
  | _ => { call := { r with pos := .stopIssuer failure } }

/-! ### The body -/

/-- The head of the reply loop. -/
def loopHead (r : Receive) (pullMeta : PullReqMeta) : ReceiveTurn :=
  match r.session with
  | none => { call := r }
  | some session =>
      if session.completedChunks < session.totalChunks then
        let recvTask := match r.recvTask with
          | .absent => .pending
          | other => other
        { call := { r with pos := .waiting, recvTask } }
      else r.enterStop pullMeta none

/-- `valid_tokens_by_group`, or the exception on the way. -/
def validTokens (config : ReceiverConfig) (pullMeta : PullReqMeta) : Except String TokenCounts :=
  if config.executionRaw then .ok []
  else
    match pullMeta.numTokens with
    | none => .error ""
    | some numTokens => suffixTokenCounts numTokens pullMeta.localBlockIds config.blockSizes

def openRequest (config : ReceiverConfig) (pullMeta : PullReqMeta) (nonce : Nonce) :
    CompressionSessionOpen :=
  { nonce
    «metadata» := { config.metadata with
      reqBlocks := [(pullMeta.dReqId, pullMeta.transferId, pullMeta.localBlockIds)] } }

/-- Up to the `recv` for the answer to the open. `sent` is the outcome of `send`. -/
def start (r : Receive) (config : ReceiverConfig) (pullMeta : PullReqMeta) (nonce : Nonce)
    (sent : Except String Unit) : ReceiveTurn :=
  let r := { r with nonce }
  match validTokens config pullMeta with
  | .error message => r.enterStop pullMeta (some message)
  | .ok _ =>
      let r := { r with session := some {} }
      match sent with
      | .error message => r.enterStop pullMeta (some message)
      | .ok () =>
          { call := { r with pos := .opening }
            sends := [.sessionOpen (openRequest config pullMeta nonce)] }

/-- The exception for a reply of an unexpected type. -/
def missing (name : String) : String := "object has no attribute '" ++ name ++ "'"

/-- The `error` field of a reply. -/
def errorOf : CompressionResponse → Option String
  | .sessionOpened response => response.error
  | .chunkReady response => response.error
  | .abortAck response => response.error

/-- The answer to the open. -/
def opened (r : Receive) (config : ReceiverConfig) (pullMeta : PullReqMeta) :
    Except String CompressionResponse → ReceiveTurn
  | .error message => r.enterStop pullMeta (some message)
  | .ok response =>
      if isError (errorOf response) then r.enterStop pullMeta (some ((errorOf response).getD ""))
      else
        match response, validTokens config pullMeta with
        | .sessionOpened response, .ok validTokensByGroup =>
            let session : ReceiveSession :=
              { state := .active, logicalBlockCount := response.logicalBlockCount
                totalChunks := response.totalChunks, validTokensByGroup
                slots := config.slots.map fun _ => {} }
            let issue := if response.totalChunks = 0 then .finished none else .running 0
            { r with session := some session, issue }.loopHead pullMeta
        | _, _ => r.enterStop pullMeta (some (missing "logical_block_count"))

/-- A chunk reply without error: the state it leaves, and the call of the decoder. -/
def acceptReply (r : Receive) (config : ReceiverConfig) (pullMeta : PullReqMeta)
    (response : CompressionResponse) : Receive × Except String DecodeCall :=
  if isError (errorOf response) then (r, .error ((errorOf response).getD ""))
  else
    match response, r.session with
    | .chunkReady ready, some session =>
        match r.networkInflight.lookup ready.chunkId with
        | none => (r, .error (keyError ready.chunkId))
        | some slotId =>
            let networkInflight := r.networkInflight.filter (·.1 ≠ ready.chunkId)
            let r := { r with networkInflight }
            let window := compressionChunkWindow ready.chunkId session.logicalBlockCount
              config.logicalBlocksPerChunk
            match chunkTokenCounts session.validTokensByGroup config.blockSizes window with
            | .error message => (r, .error message)
            | .ok validTokens =>
                (r.setSlotState slotId .decoding, .ok
                  { chunkId := ready.chunkId, slotId, kvPart := window.kvPart, validTokens
                    logicalIdsByGroup := window.blockIds config.faGroupIndices
                      pullMeta.localBlockIds
                    codecBytes := ready.codecBytes, u8Bytes := ready.u8Bytes })
    | _, _ => (r, .error (missing "chunk_id"))

/-- The result of `recv_task`. -/
def takeReply (r : Receive) (config : ReceiverConfig) (pullMeta : PullReqMeta) :
    Except String CompressionResponse → Receive × Except String DecodeCall
  | .error message => (r, .error message)
  | .ok response => r.acceptReply config pullMeta response

/-- `for task in done`, with the slots put back so far. -/
def takeDone (r : Receive) (config : ReceiverConfig) (pullMeta : PullReqMeta)
    (puts : List Nat) : List DoneTask → ReceiveTurn
  | [] =>
      let turn := r.loopHead pullMeta
      { turn with puts := puts ++ turn.puts }
  | .issueTask :: rest =>
      match r.issue with
      | .finished (some message) =>
          let turn := r.enterStop pullMeta (some message)
          { turn with puts := puts ++ turn.puts }
      | _ => { r with issue := .absent }.takeDone config pullMeta puts rest
  | .recvTask :: rest =>
      match r.recvTask with
      | .finished answer =>
          match { r with recvTask := .absent }.takeReply config pullMeta answer with
          | (r, .error message) =>
              let turn := r.enterStop pullMeta (some message)
              { turn with puts := puts ++ turn.puts }
          | (r, .ok call) => { call := { r with pos := .decoding call rest }, puts }
      | _ => r.takeDone config pullMeta puts rest
  | .writeback i :: rest =>
      match r.writebacks[i]? with
      | none => r.takeDone config pullMeta puts rest
      | some task =>
          let r := { r with writebacks := r.writebacks.modify i fun x => { x with tracked := false } }
          match task.result with
          | some (.error message) =>
              let turn := r.enterStop pullMeta (some message)
              { turn with puts := puts ++ turn.puts }
          | _ =>
              ((r.setSlot task.slotId {}).mapSession fun x =>
                { x with completedChunks := x.completedChunks + 1 }).takeDone config pullMeta
                  (puts ++ [task.slotId]) rest

/-- The decoder has returned: start the writeback, and go on with the tasks that are done. -/
def decoded (r : Receive) (config : ReceiverConfig) (pullMeta : PullReqMeta) (call : DecodeCall)
    (rest : List DoneTask) : Except String Unit → ReceiveTurn
  | .error message => r.enterStop pullMeta (some message)
  | .ok () =>
      let r := r.setSlotState call.slotId .writeback
      let writebacks := r.writebacks ++ [{ slotId := call.slotId, chunkId := call.chunkId }]
      { r with writebacks }.takeDone config pullMeta [] rest

/-- The tasks of `wait_set` that are done. -/
def isDone (r : Receive) : DoneTask → Bool
  | .issueTask => match r.issue with
      | .finished _ => true
      | _ => false
  | .recvTask => match r.recvTask with
      | .finished _ => true
      | _ => false
  | .writeback i => match r.writebacks[i]? with
      | some { result := some _, tracked := true, .. } => true
      | _ => false

/-- `done` of `asyncio.wait`, in the order of the iteration over the set. -/
def Reports (r : Receive) (done : List DoneTask) : Prop :=
  done ≠ [] ∧ done.Nodup ∧ (∀ task ∈ done, r.isDone task = true) ∧
    (r.isDone .issueTask = true → .issueTask ∈ done) ∧
    (r.isDone .recvTask = true → .recvTask ∈ done) ∧
    ∀ i < r.writebacks.length, r.isDone (.writeback i) = true → .writeback i ∈ done

instance (r : Receive) (done : List DoneTask) : Decidable (r.Reports done) := by
  unfold Reports
  infer_instance

/-- `issue_chunk` with its slot: up to the next `get()`. `sent` is the outcome of `send`. -/
def issueChunk (r : Receive) (config : ReceiverConfig) (pullMeta : PullReqMeta)
    (chunkId slot : Nat) (sent : Except String Unit) : ReceiveTurn :=
  let r := r.setSlot slot { state := .granted, chunkId := some chunkId }
  let networkInflight := (chunkId, slot) :: r.networkInflight.filter (·.1 ≠ chunkId)
  let r := { r with networkInflight }
  match sent with
  | .error message => { call := { r with issue := .finished (some message) } }
  | .ok () =>
      let address := (config.slots[slot]?).getD ⟨0, 0, 0⟩
      let more := chunkId + 1 < (r.session.map ReceiveSession.totalChunks).getD 0
      let issue := if more then .running (chunkId + 1) else .finished none
      { call := { r with issue }
        sends := [.chunkPull
          { transferId := pullMeta.transferId, dReqId := pullMeta.dReqId, chunkId, slotId := slot
            payloadAddr := address.payload, auxAddr := address.aux, tailAddr := address.tail
            nonce := r.nonce }] }

/-- Does the answer acknowledge the abort? -/
def isAck (r : Receive) (pullMeta : PullReqMeta) : Except String CompressionResponse → Bool
  | .ok (.abortAck ack) =>
      ack.nonce = r.nonce ∧ ack.transferId = pullMeta.transferId ∧
        ack.dReqId = pullMeta.dReqId ∧ isError ack.error = false
  | _ => false

/-- The end of `_send_compression_abort`. What it raises leaves the `except` block, past the
cleanup and `_finish_compression_receive`. -/
def aborted (r : Receive) (pullMeta : PullReqMeta) (answer : Except String CompressionResponse) :
    ReceiveTurn :=
  if r.isAck pullMeta answer then r.cleanup
  else
    let message := match answer with
      | .error message => message
      | .ok _ => "Producer did not acknowledge safe session cancellation."
    { call := { r with pos := .ended (.raised message) } }

/-- The event of the first slot of the cleanup. An exception ends the cleanup and is only
logged. -/
def slotDrained (r : Receive) (slots : List Nat) : Except String Unit → ReceiveTurn
  | .error _ => r.finish true
  | .ok () =>
      match slots with
      | [] => r.drainSlots []
      | slot :: rest =>
          let turn := (r.setSlot slot {}).drainSlots rest
          { turn with puts := slot :: turn.puts }

/-- The answer of the producer to a pull, or of the socket. -/
def replied (r : Receive) (answer : Except String CompressionResponse) : Option ReceiveTurn :=
  match r.recvTask with
  | .pending => some { call := { r with recvTask := .finished answer } }
  | _ => none

/-- The event of a writeback task. -/
def writtenBack (r : Receive) (i : Nat) (answer : Except String Unit) : Option ReceiveTurn :=
  match r.writebacks[i]? with
  | some { result := none, .. } =>
      let writebacks := r.writebacks.modify i fun x => { x with result := some answer }
      some { call := { r with writebacks } }
  | _ => none

/-- Resume after an `await` that has no outcome of its own. -/
def resume (r : Receive) (pullMeta : PullReqMeta) : Option ReceiveTurn :=
  match r.pos with
  | .stopIssuer failure => some ({ r with issue := .absent }.afterIssuer pullMeta failure)
  | .stopRecv => some { r with recvTask := .absent }.complete
  | .cleanRecv => some r.afterRecv
  | .cleanWritebacks =>
      if r.writebackTasks.all fun i => (r.writebacks[i]?.bind Writeback.result).isSome then
        some r.afterWritebacks
      else none
  | _ => none

end Receive

/-! ### The worker -/

/-- The receiver loop of the worker. -/
structure Receiver where
  config : ReceiverConfig
  receiverSlots : List Nat
  pullMetas : List PullReqMeta := []
  /-- Every call of `_receive_compressed_request`. -/
  calls : List Receive := []
  sent : List (String × CompressionRequest) := []
  /-- `_invalid_block_ids` and `_finished_recving`, each with its request. -/
  invalidBlockIds : List (Nat × Finset Nat) := []
  finishedRecving : List (Nat × ReqId) := []

namespace Receiver

def start (config : ReceiverConfig) : Receiver :=
  { config, receiverSlots := List.range config.slots.length }

/-- `receive_kv`: one call for each request and each address. -/
def receiveKv (s : Receiver) (requests : List PullReqMeta) (workerAddrs : List String) : Receiver :=
  { s with
    pullMetas := s.pullMetas ++ requests.map fun pullMeta =>
      { pullMeta with pullTasksCount := workerAddrs.length, failedBlocks := ∅ }
    calls := s.calls ++ workerAddrs.flatMap fun workerAddr =>
      (List.range requests.length).map fun i => { rid := s.pullMetas.length + i, workerAddr } }

/-- `_finish_compression_receive`. -/
def finishReceive (s : Receiver) (rid : Nat) (failed : Bool) : Receiver :=
  match s.pullMetas[rid]? with
  | none => s
  | some pullMeta =>
      let failedBlocks :=
        if failed then pullMeta.failedBlocks ∪ allBlocks pullMeta.localBlockIds
        else pullMeta.failedBlocks
      let pullTasksCount := pullMeta.pullTasksCount - 1
      let s := { s with pullMetas := s.pullMetas.set rid { pullMeta with failedBlocks, pullTasksCount } }
      if pullTasksCount = 0 then
        { s with
          invalidBlockIds :=
            if failedBlocks = ∅ then s.invalidBlockIds else s.invalidBlockIds ++ [(rid, failedBlocks)]
          finishedRecving := s.finishedRecving ++ [(rid, pullMeta.dReqId)] }
      else s

/-- Carry out what a call hands to the loop. -/
def apply (s : Receiver) (cid : Nat) (turn : ReceiveTurn) : Receiver :=
  let s := { s with
    calls := s.calls.set cid turn.call
    sent := s.sent ++ turn.sends.map fun message => (turn.call.workerAddr, message)
    receiverSlots := s.receiverSlots ++ turn.puts }
  match turn.finish with
  | some failed => s.finishReceive turn.call.rid failed
  | none => s

/-- Run one task of a call. -/
def onCall (s : Receiver) (cid : Nat) (f : Receive → PullReqMeta → Option ReceiveTurn) :
    Option Receiver := do
  let call ← s.calls[cid]?
  let pullMeta ← s.pullMetas[call.rid]?
  let turn ← f call pullMeta
  return s.apply cid turn

/-- `issue_all` of a call takes the next free slot. -/
def issue (s : Receiver) (cid : Nat) (sent : Except String Unit) : Option Receiver :=
  match s.receiverSlots with
  | [] => none
  | slot :: rest =>
      { s with receiverSlots := rest }.onCall cid fun call pullMeta =>
        match call.issue with
        | .running chunkId => some (call.issueChunk s.config pullMeta chunkId slot sent)
        | _ => none

/-- What can happen to the receiver loop. -/
inductive Action
  | receiveKv (requests : List PullReqMeta) (workerAddrs : List String)
  | start (cid : Nat) (nonce : Nonce) (sent : Except String Unit)
  | opened (cid : Nat) (answer : Except String CompressionResponse)
  | issue (cid : Nat) (sent : Except String Unit)
  | replied (cid : Nat) (answer : Except String CompressionResponse)
  | writtenBack (cid i : Nat) (answer : Except String Unit)
  | wake (cid : Nat) (done : List DoneTask)
  | decoded (cid : Nat) (answer : Except String Unit)
  | resume (cid : Nat)
  | aborted (cid : Nat) (answer : Except String CompressionResponse)
  | slotDrained (cid : Nat) (answer : Except String Unit)

/-- The step function. -/
def step (s : Receiver) : Action → Option Receiver
  | .receiveKv requests workerAddrs =>
      -- an agent has at least one worker
      if workerAddrs = [] then none else some (s.receiveKv requests workerAddrs)
  | .start cid nonce sent => s.onCall cid fun call pullMeta =>
      match call.pos with
      | .created => some (call.start s.config pullMeta nonce sent)
      | _ => none
  | .opened cid answer => s.onCall cid fun call pullMeta =>
      match call.pos with
      | .opening => some (call.opened s.config pullMeta answer)
      | _ => none
  | .issue cid sent => s.issue cid sent
  | .replied cid answer => s.onCall cid fun call _ => call.replied answer
  | .writtenBack cid i answer => s.onCall cid fun call _ => call.writtenBack i answer
  | .wake cid done => s.onCall cid fun call pullMeta =>
      match call.pos with
      | .waiting =>
          if call.Reports done then some (call.takeDone s.config pullMeta [] done) else none
      | _ => none
  | .decoded cid answer => s.onCall cid fun call pullMeta =>
      match call.pos with
      | .decoding decode rest => some (call.decoded s.config pullMeta decode rest answer)
      | _ => none
  | .resume cid => s.onCall cid fun call pullMeta => call.resume pullMeta
  | .aborted cid answer => s.onCall cid fun call pullMeta =>
      match call.pos with
      | .aborting => some (call.aborted pullMeta answer)
      | _ => none
  | .slotDrained cid answer => s.onCall cid fun call _ =>
      match call.pos with
      | .cleanSlots slots => some (call.slotDrained slots answer)
      | _ => none

end Receiver

/-- The receiver loop of a worker. -/
def receiverMachine (config : ReceiverConfig) : Machine Receiver Receiver.Action where
  init s := s = Receiver.start config
  step := Receiver.step

end KVServe.Engine

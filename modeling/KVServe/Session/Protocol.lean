import Mathlib.Data.Finset.Dedup
import Mathlib.Data.Finset.Union
import Mathlib.Tactic.Common

/-!
# KVServe.Session.Protocol

The messages of the out-of-process compression session helper: the peer
messages of `compression/protocol.py` (`CompressionSessionOpen`,
`CompressionChunkPull`, `CompressionAbort` and their replies) and the pipe
messages between a helper and its engine of `session_ipc.py` (jobs, `JobDone`,
announcements, `FinalEvent`, `RecvDone`).

Ids, nonces and socket identities are only ever compared, so they are plain
strings. An `error` field is `str | None`; the consumer tests it by
truthiness, under which an empty message counts as no error (`isError`),
while the helper tests a job's error with `is not None` (`Option.isSome`).
-/

namespace KVServe.Session

abbrev TransferId := String
abbrev ReqId := String
abbrev Nonce := String

/-- A ZMQ routing identity (`bytes` in the source). -/
abbrev Identity := String

/-- Block ids by KV cache group. -/
abbrev BlockIds := List (List Nat)

/-- `if response.error:` of the consumer: `None` and `""` are both falsy. -/
def isError : Option String → Bool
  | some message => !message.isEmpty
  | none => false

@[simp] theorem isError_none : isError none = false := rfl

/-! ### Peer messages (`compression/protocol.py`) -/

structure MooncakeXferMetadata where
  remoteHostname : String
  remotePort : Nat
  remoteTpSize : Nat
  remoteTpRank : Nat
  /-- `dict[d_req_id, (transfer_id, block_ids)]` in insertion order. -/
  reqBlocks : List (ReqId × TransferId × BlockIds)
  kvCachesBaseAddr : List Nat
  blockLens : List Nat
  kvBlockLens : List Nat
  registeredLayerNames : List String := []
  registeredLayerIndices : List Nat := []
  registeredGroupIndices : List Nat := []
  remotePpSize : Nat := 1
  deriving DecidableEq, Repr

structure CompressionSessionOpen where
  «metadata» : MooncakeXferMetadata
  nonce : Nonce := ""
  deriving DecidableEq, Repr

structure CompressionSessionOpened where
  logicalBlockCount : Nat
  totalChunks : Nat
  error : Option String := none
  deriving DecidableEq, Repr

structure CompressionChunkPull where
  transferId : TransferId
  dReqId : ReqId
  chunkId : Nat
  slotId : Nat
  payloadAddr : Nat
  auxAddr : Nat
  tailAddr : Nat
  nonce : Nonce := ""
  deriving DecidableEq, Repr

structure CompressionChunkReady where
  chunkId : Nat
  dataBytes : Nat
  payloadBytes : Nat
  auxBytes : Nat
  error : Option String := none
  deriving DecidableEq, Repr

namespace CompressionChunkReady

def u8Bytes (ready : CompressionChunkReady) : Nat := ready.dataBytes

def codecBytes (ready : CompressionChunkReady) : Nat := ready.payloadBytes

/-- The reply to a pull that failed. -/
def failed (chunkId : Nat) (message : String) : CompressionChunkReady :=
  { chunkId, dataBytes := 0, payloadBytes := 0, auxBytes := 0, error := some message }

end CompressionChunkReady

structure CompressionAbort where
  transferId : TransferId
  dReqId : ReqId
  reason : String
  nonce : Nonce := ""
  deriving DecidableEq, Repr

structure CompressionAbortAck where
  transferId : TransferId
  dReqId : ReqId
  nonce : Nonce
  error : Option String := none
  deriving DecidableEq, Repr

/-- `CompressionRequest`: what a producer helper receives. -/
inductive CompressionRequest
  | sessionOpen (request : CompressionSessionOpen)
  | chunkPull (request : CompressionChunkPull)
  | abort (request : CompressionAbort)
  deriving DecidableEq, Repr

/-- `CompressionResponse`: what a producer helper answers. -/
inductive CompressionResponse
  | sessionOpened (response : CompressionSessionOpened)
  | chunkReady (response : CompressionChunkReady)
  | abortAck (response : CompressionAbortAck)
  deriving DecidableEq, Repr

/-- `(transfer_id, d_req_id, nonce)`: the key of `_closed` and `_operations`. -/
abbrev OperationKey := TransferId × ReqId × Nonce

/-- `(identity, transfer_id, d_req_id)`: the key of `_producer_sessions`. -/
abbrev SessionKey := Identity × TransferId × ReqId

def CompressionChunkPull.operationKey (pull : CompressionChunkPull) : OperationKey :=
  (pull.transferId, pull.dReqId, pull.nonce)

def CompressionAbort.operationKey (request : CompressionAbort) : OperationKey :=
  (request.transferId, request.dReqId, request.nonce)

/-- The key `_dispatch_producer` files a `SessionOpen` under: that of its
request when it carries exactly one, `("", "", nonce)` otherwise. -/
def CompressionSessionOpen.dispatchKey (request : CompressionSessionOpen) : OperationKey :=
  match request.metadata.reqBlocks with
  | [(dReqId, transferId, _)] => (transferId, dReqId, request.nonce)
  | _ => ("", "", request.nonce)

/-- The operation key of the request an open handler works on: the first one. -/
def CompressionSessionOpen.operationKey? (request : CompressionSessionOpen) :
    Option OperationKey :=
  match request.metadata.reqBlocks with
  | (dReqId, transferId, _) :: _ => some (transferId, dReqId, request.nonce)
  | [] => none

/-- The two keys agree on an open for one request. -/
theorem CompressionSessionOpen.dispatchKey_of_single {request : CompressionSessionOpen}
    {key : OperationKey} (hsingle : request.metadata.reqBlocks.length ≤ 1)
    (hkey : request.operationKey? = some key) : request.dispatchKey = key := by
  unfold operationKey? at hkey
  unfold dispatchKey
  cases hreq : request.metadata.reqBlocks with
  | nil => simp [hreq] at hkey
  | cons entry rest =>
      obtain rfl : rest = [] := by
        rw [hreq, List.length_cons] at hsingle
        exact List.eq_nil_of_length_eq_zero (by omega)
      simpa [hreq] using hkey

/-! ### Pipe messages (`session_ipc.py`) -/

/-- Remote TP ranks a local rank pairs with. Both quotients are integer
divisions that Python refuses at a zero divisor. -/
def handshakeTargetRanks (tpRank tpSize remoteTpSize : Nat) : Except String (List Nat) :=
  if remoteTpSize ≤ tpSize then
    if remoteTpSize = 0 then .error "integer division or modulo by zero"
    else .ok [tpRank / (tpSize / remoteTpSize)]
  else
    if tpSize = 0 then .error "integer division or modulo by zero"
    else
      let ratio := remoteTpSize / tpSize
      .ok ((List.range ratio).map fun index => tpRank * ratio + index)

structure SlotAddresses where
  payload : Nat
  aux : Nat
  tail : Nat
  deriving DecidableEq, Repr

/-- `InitMessage`, less the fields only the bootstrap registration reads. -/
structure InitMessage where
  needsSender : Bool
  needsReceiver : Bool
  tpRank : Nat
  tpSize : Nat
  ppRank : Nat
  ppSize : Nat
  hostname : String
  rpcPort : Nat
  slotAddresses : List SlotAddresses
  kvCachesBaseAddr : List Nat
  blockLens : List Nat
  kvBlockLens : List Nat
  registeredLayerNames : List String
  registeredLayerIndices : List Nat
  registeredGroupIndices : List Nat
  deriving DecidableEq, Repr

/-- A helper of one rank with the given slot buffers; the runs on fixed inputs use it. -/
def InitMessage.solo (slotAddresses : List SlotAddresses) : InitMessage :=
  { needsSender := true, needsReceiver := true, tpRank := 0, tpSize := 1, ppRank := 0, ppSize := 1
    hostname := "p", rpcPort := 1, slotAddresses, kvCachesBaseAddr := [], blockLens := []
    kvBlockLens := [], registeredLayerNames := [], registeredLayerIndices := []
    registeredGroupIndices := [] }

/-- An open for the given requests, from a peer of one rank. -/
def CompressionSessionOpen.ofSolo (nonce : Nonce) (reqBlocks : List (ReqId × TransferId × BlockIds)) :
    CompressionSessionOpen :=
  { nonce, «metadata» := { remoteHostname := "c", remotePort := 2, remoteTpSize := 1
                           remoteTpRank := 0, reqBlocks, kvCachesBaseAddr := [], blockLens := []
                           kvBlockLens := [] } }

structure ProducerAnnouncement where
  pReqId : ReqId
  transferId : TransferId
  localBlockIds : BlockIds
  numTokens : Option Nat := none
  deriving DecidableEq, Repr

structure ProducerPublish where
  pReqId : ReqId
  transferId : TransferId
  deriving DecidableEq, Repr

structure ProducerMetadata where
  announced : List ProducerAnnouncement := []
  published : List ProducerPublish := []
  dropped : List TransferId := []
  deriving DecidableEq, Repr

structure ConsumerRequest where
  dReqId : ReqId
  transferId : TransferId
  localBlockIds : BlockIds
  numTokens : Option Nat
  deriving DecidableEq, Repr

inductive FinalKind
  | sending
  | sendingExpired
  deriving DecidableEq, Repr

structure FinalEvent where
  kind : FinalKind
  reqId : ReqId
  deriving DecidableEq, Repr

/-- `RecvDone`; the set of failed blocks travels as its sorted list. -/
structure RecvDone where
  dReqId : ReqId
  failedBlocks : Finset Nat := ∅
  deriving DecidableEq

structure OpenProducerJob where
  transferId : TransferId
  dReqId : ReqId
  nonce : Nonce
  localBlockIds : BlockIds
  remoteBlockIds : BlockIds
  numTokens : Option Nat
  /-- The `remote_*`, region and layer fields, copied from the open request. -/
  «metadata» : MooncakeXferMetadata
  deriving DecidableEq, Repr

structure EncodeChunkJob where
  transferId : TransferId
  dReqId : ReqId
  nonce : Nonce
  chunkId : Nat
  slotId : Nat
  logicalBlockCount : Nat
  localBlockIds : BlockIds
  validTokensByGroup : List (Nat × Nat)
  /-- `f"{remote_hostname}:{remote_port}"` as its two parts. -/
  remoteSession : String × Nat
  payloadAddr : Nat
  auxAddr : Nat
  tailAddr : Nat
  deriving DecidableEq, Repr

def EncodeChunkJob.operationKey (job : EncodeChunkJob) : OperationKey :=
  (job.transferId, job.dReqId, job.nonce)

structure DecodeChunkJob where
  transferId : TransferId
  dReqId : ReqId
  nonce : Nonce
  chunkId : Nat
  slotId : Nat
  logicalBlockCount : Nat
  localBlockIds : BlockIds
  numTokens : Option Nat
  codecBytes : Nat
  u8Bytes : Nat
  deriving DecidableEq, Repr

/-- `HelperJob`; the job id is the key the job is filed under. -/
inductive HelperJob
  | openProducer (job : OpenProducerJob)
  | encodeChunk (job : EncodeChunkJob)
  | decodeChunk (job : DecodeChunkJob)
  | drainSlots (slotIds : List Nat)
  deriving DecidableEq, Repr

structure JobDone where
  error : Option String := none
  logicalBlockCount : Nat := 0
  totalChunks : Nat := 0
  localBlockIds : BlockIds := []
  validTokensByGroup : List (Nat × Nat) := []
  u8Bytes : Nat := 0
  codecBytes : Nat := 0
  auxBytes : Nat := 0
  deriving DecidableEq, Repr

/-- `NULL_BLOCK_ID` of vLLM's attention backends. -/
def nullBlockId : Nat := 0

/-- `_all_blocks`: every non-null block of a request. -/
def allBlocks (blockIds : BlockIds) : Finset Nat :=
  (blockIds.flatten.filter (· ≠ nullBlockId)).toFinset

end KVServe.Session

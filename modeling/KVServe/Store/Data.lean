import KVServe.Lib.Assoc
import KVServe.Lib.Blocks
import KVServe.Session.Protocol
import Mathlib.Data.List.Dedup
import Mathlib.Data.List.Range
import Mathlib.Tactic.Ring

/-!
# KVServe.Store.Data

The **records of the Mooncake store connector**: what the scheduler tracks of a request,
the metadata of one store job, and the chunks of a request's tokens that a cache group
stores.

`Raised` is a Python exception. Lists a record shares with another one in the source
(`ReqMeta.block_ids` is the tracker's own lists until the core's tables replace them) are
values here: a meta carries what it had when it was built.
-/

namespace KVServe.Store

open Session (ReqId)

/-- What the connector raises. -/
inductive Raised
  | assertionError (message : String)
  | valueError (message : String)
  | keyError (key : String)
  | indexError
  | typeError
  deriving DecidableEq, Repr

abbrev BlockId := Nat
abbrev BlockHash := List UInt8

/-- `vllm.v1.attention.backends.utils.NULL_BLOCK_ID`. -/
def NULL_BLOCK_ID : BlockId := 0

/-- `vllm.utils.math_utils.cdiv`, for a positive divisor. -/
def cdiv (a b : Nat) : Nat := (a + b - 1) / b

/-- `assert`. -/
def require (condition : Bool) (message : String) : Except Raised Unit :=
  if condition then .ok () else .error (.assertionError message)

@[simp] theorem require_ok {condition : Bool} {message : String} {u : Unit} :
    require condition message = .ok u ↔ condition = true := by
  cases condition <;> simp [require]

/-- `list(dict.fromkeys(items))`: each item once, at its first place. -/
def fromKeys {α : Type} [DecidableEq α] (items : List α) : List α := items.reverse.dedup.reverse

@[simp] theorem mem_fromKeys {α : Type} [DecidableEq α] {items : List α} {x : α} :
    x ∈ fromKeys items ↔ x ∈ items := by
  simp [fromKeys]

/-! ### Requests -/

/-- `TailKeyBoundary`. -/
structure TailKeyBoundary where
  groupId : Nat
  numTokens : Nat
  deriving DecidableEq, Repr

/-- `MooncakeLookupResult`. -/
structure MooncakeLookupResult where
  hitLength : Nat
  tailKeyBoundaries : List TailKeyBoundary := []
  deriving DecidableEq, Repr

/-- `LoadSpec`; `token_len` is set by the worker, to `kvpool_cached_tokens`. -/
structure LoadSpec where
  vllmCachedTokens : Nat
  kvpoolCachedTokens : Nat
  canLoad : Bool
  tailKeyBoundaries : List TailKeyBoundary := []
  deriving DecidableEq, Repr

/-- A core-provided `(group_id, block_id, boundary_tokens)`. -/
structure BoundaryOffload where
  groupId : Nat
  blockId : BlockId
  boundary : Nat
  deriving DecidableEq, Repr

/-- `RequestTracker`; its `req_id` is its key in the scheduler's dict. -/
structure RequestTracker where
  tokenLen : Nat
  allocatedBlockIds : List (List BlockId)
  numSavedTokens : Nat := 0
  tokenIds : Option (List Nat) := none
  hasPendingOffload : Bool := false
  prefillEndTokens : Nat := 0
  deriving DecidableEq, Repr

namespace RequestTracker

/-- `reset`. -/
def reset (_tracker : RequestTracker) : RequestTracker :=
  { tokenLen := 0, allocatedBlockIds := [] }

/-- `update`: the new blocks of each group go after its old ones. -/
def update (tracker : RequestTracker) (newBlockIds : List (List BlockId)) :
    Except Raised RequestTracker :=
  if newBlockIds.length ≠ tracker.allocatedBlockIds.length then
    .error (.valueError s!"Group count mismatch: tracker has {tracker.allocatedBlockIds.length} groups, update has {newBlockIds.length}")
  else
    .ok { tracker with
      allocatedBlockIds := tracker.allocatedBlockIds.zipWith (· ++ ·) newBlockIds }

end RequestTracker

/-- `ReqMeta`. -/
structure ReqMeta where
  reqId : ReqId
  tokenLenChunk : Nat
  blockIds : List (List BlockId)
  blockHashes : List BlockHash
  canSave : Bool := false
  loadSpec : Option LoadSpec := none
  tokenIds : Option (List Nat) := none
  tokenIdsStart : Nat := 0
  numPromptTokens : Option Nat := none
  storeJobId : Option Nat := none
  boundaryStateOffloads : Option (List BoundaryOffload) := none
  deriving DecidableEq, Repr

namespace ReqMeta

/-- `bool(load_spec and load_spec.can_load)`. -/
def loads (loadSpec : Option LoadSpec) : Bool := loadSpec.any LoadSpec.canLoad

/-- `from_request_tracker`: the tracker it leaves and the meta, if any. A false or missing
`skip_save` is `false`. -/
def fromRequestTracker (reqId : ReqId) (tracker : RequestTracker) (blockSize : Nat)
    (loadSpec : Option LoadSpec) (skipSave : Bool) (blockHashes : List BlockHash) :
    RequestTracker × Option ReqMeta :=
  let tokenIdsStart := tracker.numSavedTokens
  let chunkBoundary := cdiv (tokenIdsStart + 1) blockSize * blockSize
  let numTokensToSave := tracker.tokenLen / blockSize * blockSize
  let skipSave := skipSave || decide (numTokensToSave < chunkBoundary) || loads loadSpec
  if skipSave && loadSpec.isNone then (tracker, none)
  else
    let tracker := if skipSave then tracker else { tracker with numSavedTokens := numTokensToSave }
    -- an empty list of token ids counts as missing
    let tokenIds := if skipSave then none else
      (tracker.tokenIds.filter (· ≠ [])).map fun ids =>
        (ids.take numTokensToSave).drop tokenIdsStart
    (tracker, some
      { reqId, tokenLenChunk := numTokensToSave, blockIds := tracker.allocatedBlockIds
        blockHashes, canSave := !skipSave, loadSpec := loadSpec.filter LoadSpec.canLoad
        tokenIds, tokenIdsStart, numPromptTokens := some tracker.prefillEndTokens })

end ReqMeta

/-- `MooncakeStoreConnectorMetadata`. -/
structure MooncakeStoreConnectorMetadata where
  requests : List ReqMeta
  preemptedReqIds : List ReqId
  deriving DecidableEq, Repr

namespace MooncakeStoreConnectorMetadata

/-- The metas that ask for a store job. -/
def saves (m : MooncakeStoreConnectorMetadata) : List ReqMeta := m.requests.filter ReqMeta.canSave

end MooncakeStoreConnectorMetadata

/-- `MooncakeStoreWorkerMetadata.completed_saves`: the ranks done with each job. -/
abbrev CompletedSaves := List (Nat × Nat)

namespace CompletedSaves

/-- `completed_saves[job] = completed_saves.get(job, 0) + count`. -/
def add (completed : CompletedSaves) (job count : Nat) : CompletedSaves :=
  Assoc.set job ((Assoc.get job completed).getD 0 + count) completed

/-- `MooncakeStoreWorkerMetadata.aggregate`. -/
def aggregate (completed other : CompletedSaves) : CompletedSaves :=
  other.foldl (fun completed entry => add completed entry.1 entry.2) completed

end CompletedSaves

/-! ### Chunks -/

/-- One chunk of a request's tokens and the hash that keys it. -/
structure TokenChunk where
  start : Nat
  stop : Nat
  hash : BlockHash
  deriving DecidableEq, Repr

/-- The block sizes of a `ChunkedTokenDatabase`; its constructor raises unless the hashed
blocks divide the stored ones. -/
structure ChunkSizes where
  blockSize : Nat
  hashBlockSize : Nat
  pos : 0 < hashBlockSize
  blockPos : 0 < blockSize
  dvd : hashBlockSize ∣ blockSize

namespace ChunkSizes

variable (sizes : ChunkSizes)

/-- The chunk with an index, cut off at the end of the tokens. -/
def chunk (tokenLen : Nat) (blockHashes : List BlockHash) (chunkId : Nat) : TokenChunk :=
  let start := chunkId * sizes.blockSize
  let stop := min (start + sizes.blockSize) tokenLen
  ⟨start, stop, blockHashes.getD (stop / sizes.hashBlockSize - 1) []⟩

/-- The chunks `process_tokens` goes over. -/
def chunkIds (tokenLen maskNum : Nat) (chunkMask : Option (List Bool)) (putStep putStepRank : Nat) :
    List Nat :=
  let startChunk := cdiv maskNum sizes.blockSize
  let maxChunks := cdiv tokenLen sizes.blockSize
  let maxChunks := match chunkMask with
    | some mask => min maxChunks (startChunk + mask.length)
    | none => maxChunks
  (List.range' startChunk (maxChunks - startChunk)).filter fun chunkId =>
    (chunkMask.all fun mask => mask.getD (chunkId - startChunk) false) &&
      decide (chunkId % putStep = putStepRank)

/-- `ChunkedTokenDatabase.process_tokens`. -/
def processTokens (tokenLen : Nat) (blockHashes : List BlockHash) (maskNum : Nat)
    (chunkMask : Option (List Bool)) (putStep putStepRank : Nat) :
    Except Raised (List TokenChunk) := do
  require (0 < putStep) ""
  if blockHashes = [] then return []
  require (tokenLen % sizes.hashBlockSize = 0) ""
  require (tokenLen / sizes.hashBlockSize ≤ blockHashes.length) ""
  return (sizes.chunkIds tokenLen maskNum chunkMask putStep putStepRank).map
    (sizes.chunk tokenLen blockHashes)

variable {sizes : ChunkSizes} {tokenLen maskNum putStep putStepRank : Nat}
  {blockHashes : List BlockHash} {chunkMask : Option (List Bool)} {chunks : List TokenChunk}

/-- What `process_tokens` yields, when it raises nothing. -/
theorem processTokens_ok
    (h : sizes.processTokens tokenLen blockHashes maskNum chunkMask putStep putStepRank =
      .ok chunks) :
    0 < putStep ∧ (blockHashes = [] ∧ chunks = [] ∨
      sizes.hashBlockSize ∣ tokenLen ∧ tokenLen / sizes.hashBlockSize ≤ blockHashes.length ∧
      chunks = (sizes.chunkIds tokenLen maskNum chunkMask putStep putStepRank).map
        (sizes.chunk tokenLen blockHashes)) := by
  simp only [processTokens] at h
  obtain ⟨_, hpos, h⟩ := bind_eq_ok.mp h
  refine ⟨by simpa using hpos, ?_⟩
  split at h
  · next hnil => exact Or.inl ⟨hnil, (Except.ok.inj h).symm⟩
  · obtain ⟨_, hdvd, h⟩ := bind_eq_ok.mp h
    obtain ⟨_, hle, h⟩ := bind_eq_ok.mp h
    exact Or.inr ⟨Nat.dvd_of_mod_eq_zero (by simpa using hdvd), by simpa using hle,
      (Except.ok.inj h).symm⟩

/-- A mask that is false everywhere leaves no chunk. -/
theorem chunkIds_replicate_false (n : Nat) :
    sizes.chunkIds tokenLen maskNum (some (List.replicate n false)) putStep putStepRank = [] :=
  List.filter_eq_nil_iff.mpr fun chunkId _ => by
    simp only [Option.all_some, List.getD_eq_getElem?_getD, List.getElem?_replicate]
    split <;> simp

end ChunkSizes

end KVServe.Store

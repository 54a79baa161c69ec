import KVServe.Store.Data

/-!
# KVServe.Store.Sending

The **sending thread of a rank** (`KVCacheStoreSendingThread`): its ledger of store jobs,
and the way of one job through `_handle_request`.

The worker's main thread and the sending thread share the ledger under one lock. A step of
the thread here is one access to what they share, or one answer of the distributed store, so
that steps of the main thread may fall between any two of them. What the store answers comes
with the step, and so does an exception the source may meet on the way: it is always caught
by the `finally` of `_handle_request`.
-/

namespace KVServe.Store

open Session (ReqId)

/-- `MOONCAKE_NO_AVAILABLE_HANDLE`. -/
def MOONCAKE_NO_AVAILABLE_HANDLE : Int := -200

/-- `block_hashes[k - 1]`; index -1 is the last item. -/
def hashBefore (blockHashes : List BlockHash) (k : Nat) : Option BlockHash :=
  if k = 0 then blockHashes.getLast? else blockHashes[k - 1]?

/-! ### Groups -/

/-- A cache group of the thread: its `ChunkedTokenDatabase`, its store layout and what the
coordinator knows of it. -/
structure StoreGroup where
  sizes : ChunkSizes
  mamba : Bool
  participates : Bool
  /-- The number of ranks with the same bytes, which share the puts. -/
  putStep : Nat
  localShardIds : List Nat
  keyFor : Nat → BlockHash → String
  /-- `reachable_block_mask` of the group's manager: start block, end block and
  `num_prompt_tokens - 1`. -/
  reachableBlockMask : Nat → Nat → Option Int → Option (List Bool)

namespace StoreGroup

/-- The group's row of `MooncakeStoreCoordinator.store_mask`. -/
def storeMask (group : StoreGroup) (alignedTokenLen startToken : Nat) (numPromptTokens : Option Nat) :
    Except Raised (Option (List Bool)) := do
  let endChunk := alignedTokenLen / group.sizes.blockSize
  let startChunk := min endChunk (cdiv startToken group.sizes.blockSize)
  -- a Mamba state is stored through the hand-off of its block only
  if group.mamba then return some (List.replicate (endChunk - startChunk) false)
  let mask := group.reachableBlockMask startChunk endChunk
    (numPromptTokens.map fun n => (n : Int) - 1)
  require (mask.all (·.length = endChunk - startChunk)) ""
  return mask

end StoreGroup

/-- What `KVCacheStoreSendingThread.__init__` fixes. -/
structure SendConfig where
  tpRank : Nat
  groups : List StoreGroup
  lcmBlockSize : Nat
  hashBlockSize : Nat
  enableKvEvent : Bool
  enablePartialHashHits : Bool

namespace SendConfig

variable (cfg : SendConfig)

/-- `(self.tp_rank + g_idx) % put_step`. -/
def putStepRank (groupIdx : Nat) (group : StoreGroup) : Nat :=
  (cfg.tpRank + groupIdx) % group.putStep

/-- `mask_alignment` of the coordinator. -/
def maskAlignment : Nat := if cfg.enablePartialHashHits then cfg.hashBlockSize else cfg.lcmBlockSize

/-- `coord.store_mask`. -/
def storeMask (alignedTokenLen startToken : Nat) (numPromptTokens : Option Nat) :
    Except Raised (List (Option (List Bool))) := do
  require (alignedTokenLen % cfg.maskAlignment = 0)
    s!"aligned_token_len ({alignedTokenLen}) must be a multiple of {cfg.maskAlignment}"
  cfg.groups.mapM fun group => group.storeMask alignedTokenLen startToken numPromptTokens

end SendConfig

/-! ### Puts -/

/-- A boundary state to put: its key, group and block. -/
structure BoundaryPut where
  key : String
  groupIdx : Nat
  blockId : BlockId
  deriving DecidableEq, Repr

/-- A chunk to put under the key of one shard. -/
structure SaveItem where
  groupIdx : Nat
  chunk : TokenChunk
  shardId : Nat
  key : String
  blockId : BlockId
  deriving DecidableEq, Repr

/-- `BlockStored`; its other fields are constants. -/
structure BlockStored where
  blockHash : BlockHash
  parentBlockHash : Option BlockHash
  tokenIds : List Nat
  blockSize : Nat
  groupIdx : Nat
  deriving DecidableEq, Repr

namespace SendConfig

variable (cfg : SendConfig)

/-- One entry of `_boundary_snapshot_puts`. -/
def snapshotPut (m : ReqMeta) (entry : BoundaryOffload) : Option BoundaryPut := do
  guard (entry.boundary ≠ 0 ∧ entry.blockId ≠ NULL_BLOCK_ID)
  let hash ← hashBefore m.blockHashes (entry.boundary / cfg.hashBlockSize)
  let group ← cfg.groups[entry.groupId]?
  guard ((entry.boundary / group.sizes.blockSize - 1) % group.putStep =
    cfg.putStepRank entry.groupId group)
  return ⟨group.keyFor 0 hash, entry.groupId, entry.blockId⟩

/-- The source block of one position in `_sub_block_tail_puts`; `none` skips it. -/
def tailSource (groupBlocks : List BlockId) (entries : List BoundaryOffload)
    (boundary groupIdx : Nat) (group : StoreGroup) (blockIdx : Nat) : Option BlockId :=
  match (entries.reverse.find? (·.groupId = groupIdx)) with
  | some entry =>
      -- inside the gap a Mamba position is null or stale
      if min ((blockIdx + 1) * group.sizes.blockSize) boundary = boundary then some entry.blockId
      else none
  | none => if group.mamba then none else groupBlocks[blockIdx]?

/-- The positions `_sub_block_tail_puts` goes over in a group. -/
def tailBlocks (boundary saved groupIdx : Nat) (group : StoreGroup) : List Nat :=
  let lastBlock := cdiv boundary group.sizes.blockSize - 1
  let first := min (saved / group.sizes.blockSize) lastBlock
  (List.range' first (lastBlock + 1 - first)).filter fun blockIdx =>
    blockIdx % group.putStep = cfg.putStepRank groupIdx group

/-- One position of `_sub_block_tail_puts`. -/
def tailPut (blockHashes : List BlockHash) (groupBlocks : List BlockId)
    (entries : List BoundaryOffload) (boundary groupIdx : Nat) (group : StoreGroup)
    (blockIdx : Nat) : Option BoundaryPut := do
  let validEnd := min ((blockIdx + 1) * group.sizes.blockSize) boundary
  let hash ← hashBefore blockHashes (validEnd / cfg.hashBlockSize)
  let blockId ← tailSource groupBlocks entries boundary groupIdx group blockIdx
  guard (blockId ≠ NULL_BLOCK_ID)
  return ⟨group.keyFor 0 hash, groupIdx, blockId⟩

/-- The puts of one group in `_sub_block_tail_puts`. -/
def groupTailPuts (m : ReqMeta) (entries : List BoundaryOffload) (boundary saved : Nat)
    (entry : StoreGroup × Nat) : Except Raised (List BoundaryPut) :=
  if !entry.1.participates then .ok []
  else
    match m.blockIds[entry.2]? with
    | none => .error .indexError
    | some groupBlocks =>
        .ok <| (cfg.tailBlocks boundary saved entry.2 entry.1).filterMap
          (cfg.tailPut m.blockHashes groupBlocks entries boundary entry.2 entry.1)

/-- `_sub_block_tail_puts`. -/
def subBlockTailPuts (m : ReqMeta) (entries : List BoundaryOffload) (saved : Nat) :
    Except Raised (List BoundaryPut) := do
  match entries with
  | [] => return []
  | first :: rest =>
      if !(rest.all (·.boundary = first.boundary)) then
        throw (.valueError
          "Sub-block partial-tail offloads for one request must share a boundary")
      if first.boundary = 0 ∨ m.blockHashes.length < first.boundary / cfg.hashBlockSize then
        return []
      let puts ← cfg.groups.zipIdx.mapM
        (cfg.groupTailPuts m (first :: rest) first.boundary saved)
      return puts.flatten

/-- Whether a boundary is one of whole blocks of its group. -/
def aligned (entry : BoundaryOffload) : Bool :=
  (cfg.groups[entry.groupId]?).any fun group => entry.boundary % group.sizes.blockSize = 0

/-- The puts of `_maybe_offload_boundary_states`, given the resume offset it reads. -/
def boundaryPuts (m : ReqMeta) (offloads : List BoundaryOffload) (saved : Nat) :
    Except Raised (List BoundaryPut) := do
  if offloads.any (cfg.groups.length ≤ ·.groupId) then throw .indexError
  let snapshots := (offloads.filter cfg.aligned).filterMap (cfg.snapshotPut m)
  let subBlock := offloads.filter fun entry => !cfg.aligned entry
  if subBlock ≠ [] && cfg.enablePartialHashHits then
    return snapshots ++ (← cfg.subBlockTailPuts m subBlock saved)
  return snapshots

/-- The positional save of one chunk: one item for each shard of this rank, none when the
block is not there. -/
def chunkItems (groupIdx : Nat) (group : StoreGroup) (groupBlocks : List BlockId)
    (chunk : TokenChunk) : List SaveItem :=
  match (groupBlocks[chunk.start / group.sizes.blockSize]?).filter (· ≠ NULL_BLOCK_ID) with
  | none => []
  | some blockId =>
      group.localShardIds.map fun shardId =>
        ⟨groupIdx, chunk, shardId, group.keyFor shardId chunk.hash, blockId⟩

/-- The positional save of one group. -/
def groupItems (m : ReqMeta) (tokenLen saveStart : Nat)
    (entry : (StoreGroup × Option (List Bool)) × Nat) : Except Raised (List SaveItem) := do
  let ((group, mask), groupIdx) := entry
  if !group.participates then return []
  match m.blockIds[groupIdx]? with
  | none => throw .indexError
  | some groupBlocks =>
      let chunks ← group.sizes.processTokens tokenLen m.blockHashes saveStart mask group.putStep
        (cfg.putStepRank groupIdx group)
      return chunks.flatMap (chunkItems groupIdx group groupBlocks)

/-- The keys of the positional save, with their sources: the rest of the request from the
resume offset on. -/
def saveItems (m : ReqMeta) (tokenLen saveStart : Nat) : Except Raised (List SaveItem) := do
  let masks ← cfg.storeMask tokenLen saveStart m.numPromptTokens
  let items ← (cfg.groups.zip masks).zipIdx.mapM (cfg.groupItems m tokenLen saveStart)
  return items.flatten

/-- `token_len` of a job: what it saves by position. -/
def tokenLen (m : ReqMeta) : Nat := m.tokenLenChunk / cfg.lcmBlockSize * cfg.lcmBlockSize

end SendConfig

/-! ### The ledger -/

/-- The state of the sending thread that its lock guards, and its queue. -/
structure Ledger where
  /-- `stored_requests`: the jobs of a request that are queued or running. -/
  storedRequests : List (ReqId × List Nat) := []
  completedSaves : CompletedSaves := []
  storePressureActive : Bool := false
  skipStoreRequests : List ReqId := []
  savedOffset : List (ReqId × Nat) := []
  retryTokenIds : List (ReqId × (Nat × List Nat)) := []
  kvEvents : List BlockStored := []
  requestQueue : List ReqMeta := []
  deriving DecidableEq, Repr

namespace Ledger

variable (ledger : Ledger)

/-- Membership in `stored_requests.get(req_id, ())`. -/
def holds (reqId : ReqId) (job : Nat) : Bool :=
  ((Assoc.get reqId ledger.storedRequests).getD []).contains job

/-- `is_live_store_job`. -/
def isLive (m : ReqMeta) : Bool := m.storeJobId.any (ledger.holds m.reqId)

/-- `add_request`: register, then enqueue. -/
def addRequest (m : ReqMeta) : Except Raised Ledger :=
  match m.storeJobId with
  | none => .error (.assertionError "")
  | some job =>
      .ok { ledger with
        storedRequests := Assoc.set m.reqId
          (job :: (Assoc.get m.reqId ledger.storedRequests).getD []) ledger.storedRequests
        requestQueue := ledger.requestQueue ++ [m] }

/-- `delete_finished_stored_request`. -/
def deleteFinished (reqId : ReqId) : Ledger :=
  { ledger with
    storedRequests := Assoc.erase reqId ledger.storedRequests
    skipStoreRequests := ledger.skipStoreRequests.filter (· ≠ reqId)
    savedOffset := Assoc.erase reqId ledger.savedOffset
    retryTokenIds := Assoc.erase reqId ledger.retryTokenIds }

/-- `finish_store_job`. -/
def finishStoreJob (m : ReqMeta) : Except Raised Ledger :=
  match m.storeJobId with
  | none => .error (.assertionError "a queued store job always carries a store_job_id")
  | some job =>
      .ok { ledger with
        storedRequests :=
          match Assoc.get m.reqId ledger.storedRequests with
          | some live => Assoc.set m.reqId (live.filter (· ≠ job)) ledger.storedRequests
          | none => ledger.storedRequests
        completedSaves := ledger.completedSaves.add job 1 }

/-- `take_completed_saves`: what is left behind. -/
def takeCompletedSaves : Ledger := { ledger with completedSaves := [] }

/-- `_record_saved`. -/
def recordSaved (m : ReqMeta) (tokenLen : Nat) : Ledger :=
  if ledger.isLive m then
    { ledger with savedOffset := Assoc.set m.reqId tokenLen ledger.savedOffset }
  else ledger

/-- `_get_retry_token_ids`. -/
def getRetryTokenIds (m : ReqMeta) : Option (Nat × List Nat) :=
  if ledger.isLive m then Assoc.get m.reqId ledger.retryTokenIds else none

/-- `_update_retry_token_ids`. -/
def updateRetryTokenIds (m : ReqMeta) (saveCompleted : Bool) (tokenIdsStart : Nat)
    (eventTokenIds : Option (List Nat)) : Ledger :=
  if !ledger.isLive m then ledger
  else if saveCompleted then
    { ledger with retryTokenIds := Assoc.erase m.reqId ledger.retryTokenIds }
  else
    match eventTokenIds with
    | some ids =>
        { ledger with
          retryTokenIds := Assoc.set m.reqId (tokenIdsStart, ids) ledger.retryTokenIds }
    | none => ledger

/-- `_should_skip_request`. -/
def shouldSkip (reqId : ReqId) : Bool :=
  ledger.storePressureActive && ledger.skipStoreRequests.contains reqId

/-- `_mark_request_skipped_for_pressure`. -/
def markSkipped (m : ReqMeta) : Ledger :=
  { ledger with
    storePressureActive := true
    skipStoreRequests :=
      if ledger.isLive m && !ledger.skipStoreRequests.contains m.reqId then
        m.reqId :: ledger.skipStoreRequests
      else ledger.skipStoreRequests }

/-- `_clear_store_pressure`. -/
def clearPressure : Ledger :=
  { ledger with storePressureActive := false, skipStoreRequests := [] }

/-- `_saved_offset.get(req_id, 0)`. -/
def offset (reqId : ReqId) : Nat := (Assoc.get reqId ledger.savedOffset).getD 0

end Ledger

/-! ### One job -/

/-- The local variables of `_handle_request` that outlive a step. -/
structure Handling where
  req : ReqMeta
  eventTokenIds : Option (List Nat)
  tokenIdsStart : Nat
  saveCompleted : Bool := false
  deriving DecidableEq, Repr

/-- Where a job is in `_handle_request`. -/
inductive Phase
  /-- Before `is_live_store_job`. -/
  | begun
  /-- Before `_get_retry_token_ids`. -/
  | live
  /-- Before `_should_skip_request`. -/
  | resumed
  /-- Before the boundary states are prepared. -/
  | admitted
  /-- The keys of the boundary states are looked up. -/
  | tailExists (puts : List BoundaryPut)
  /-- The missing boundary states are put. -/
  | tailPut (puts : List BoundaryPut)
  /-- A boundary put failed for want of a handle. -/
  | tailPressed
  /-- All boundary puts are done. -/
  | tailStored
  /-- Before the resume offset is read. -/
  | offloaded
  /-- The keys of the save are looked up. -/
  | saveExists (saveStart : Nat) (items : List SaveItem)
  /-- The missing chunks are put. -/
  | savePut (saveStart : Nat) (items missing : List SaveItem)
  /-- A put failed for want of a handle; the events of the others are due. -/
  | pressed (events : List BlockStored)
  /-- Before `_record_saved`; the puts happened, or none was needed. -/
  | stored (saveStart : Nat) (items : List SaveItem) (put : Bool) (events : List BlockStored)
  /-- Before `_clear_store_pressure`. -/
  | recorded (events : List BlockStored)
  /-- Before `update_kv_event`. -/
  | announcing (events : List BlockStored)
  /-- In the `finally`, before `_update_retry_token_ids`. -/
  | leaving
  /-- Before `finish_store_job`. -/
  | reporting
  deriving DecidableEq, Repr

/-- What the distributed store answers to a call. -/
inductive Answer
  /-- The step makes no call. -/
  | none
  /-- One status for each key. -/
  | codes (codes : List Int)
  /-- The call, or anything else before the `finally`, raised. -/
  | raised
  deriving DecidableEq, Repr

namespace SendConfig

variable (cfg : SendConfig)

/-- The items whose status satisfies `p`. -/
def withStatus {α : Type} (p : Int → Bool) (items : List α) (codes : List Int) : List α :=
  ((items.zip codes).filter fun entry => p entry.2).map Prod.fst

/-- The tokens of a chunk, as far as the event's slice has them. -/
def eventTokens (h : Handling) (chunk : TokenChunk) : List Nat :=
  match h.eventTokenIds with
  | some ids =>
      if h.tokenIdsStart ≤ chunk.start ∧ chunk.stop ≤ h.tokenIdsStart + ids.length then
        (ids.take (chunk.stop - h.tokenIdsStart)).drop (chunk.start - h.tokenIdsStart)
      else []
  | none => []

/-- The `BlockStored` events of a put: one for each chunk none of whose shards failed. -/
def storedEvents (h : Handling) (missing : List SaveItem) (codes : List Int) :
    List BlockStored :=
  if !cfg.enableKvEvent then []
  else
    let failed := (withStatus (· < 0) missing codes).map fun item => (item.chunk, item.groupIdx)
    (fromKeys (missing.map fun item => (item.chunk, item.groupIdx))).filterMap fun spec =>
      if spec ∈ failed then none
      else
        (cfg.groups[spec.2]?).map fun group =>
          { blockHash := spec.1.hash
            parentBlockHash :=
              if 0 < spec.1.start then
                h.req.blockHashes[spec.1.start / group.sizes.hashBlockSize - 1]?
              else none
            tokenIds := eventTokens h spec.1, blockSize := group.sizes.blockSize
            groupIdx := spec.2 }

/-- `event_token_ids` and `token_ids_start` after a failed save's retry tokens. -/
def withRetry (h : Handling) (retry : Option (Nat × List Nat)) : Handling :=
  match retry, h.eventTokenIds with
  | some (retryStart, retryIds), some ids =>
      if retryStart + retryIds.length = h.tokenIdsStart then
        { h with eventTokenIds := some (retryIds ++ ids), tokenIdsStart := retryStart }
      else h
  | _, _ => h

/-- **One step of `_handle_request`.** `none`: the answer does not fit the step. -/
def handle (ledger : Ledger) (h : Handling) (phase : Phase) (answer : Answer) :
    Option (Ledger × Handling × Phase) :=
  let tokenLen := cfg.tokenLen h.req
  match phase, answer with
  | .leaving, .none =>
      -- the retry tokens are kept when the job saves by position
      let ledger :=
        if cfg.enableKvEvent && tokenLen ≠ 0 then
          ledger.updateRetryTokenIds h.req h.saveCompleted h.tokenIdsStart h.eventTokenIds
        else ledger
      some (ledger, h, .reporting)
  | .leaving, _ => none
  | .reporting, _ => none
  | _, .raised => some (ledger, h, .leaving)
  | .begun, .none =>
      some (ledger, h, if ledger.isLive h.req then .live else .leaving)
  | .live, .none =>
      let h := if cfg.enableKvEvent then withRetry h (ledger.getRetryTokenIds h.req) else h
      some (ledger, h, .resumed)
  | .resumed, .none =>
      some (ledger, h, if ledger.shouldSkip h.req.reqId then .leaving else .admitted)
  | .admitted, .none =>
      match h.req.boundaryStateOffloads with
      | none => some (ledger, h, .offloaded)
      | some offloads =>
          if offloads = [] ∨ h.req.blockHashes = [] then some (ledger, h, .offloaded)
          else
            match cfg.boundaryPuts h.req offloads (ledger.offset h.req.reqId) with
            | .error _ => some (ledger, h, .leaving)
            | .ok [] => some (ledger, h, .offloaded)
            | .ok puts => some (ledger, h, .tailExists puts)
  | .tailExists puts, .codes codes =>
      if codes.length ≠ puts.length then none
      else
        match withStatus (· ≠ 1) puts codes with
        | [] => some (ledger, h, .offloaded)
        | missing => some (ledger, h, .tailPut missing)
  | .tailPut puts, .codes codes =>
      if codes.length ≠ puts.length then none
      else if codes.any (· < 0) then
        if codes.contains MOONCAKE_NO_AVAILABLE_HANDLE then some (ledger, h, .tailPressed)
        else some (ledger, h, .leaving)
      else some (ledger, h, .tailStored)
  | .tailPressed, .none => some (ledger.markSkipped h.req, h, .leaving)
  | .tailStored, .none => some (ledger.clearPressure, h, .offloaded)
  | .offloaded, .none =>
      if tokenLen = 0 then some (ledger, h, .leaving)
      else
        let saveStart := ledger.offset h.req.reqId
        match cfg.saveItems h.req tokenLen saveStart with
        | .error _ => some (ledger, h, .leaving)
        | .ok [] => some (ledger, h, .stored saveStart [] false [])
        | .ok items => some (ledger, h, .saveExists saveStart items)
  | .saveExists saveStart items, .codes codes =>
      if codes.length ≠ items.length then none
      else
        match withStatus (· ≠ 1) items codes with
        | [] => some (ledger, h, .stored saveStart items false [])
        | missing => some (ledger, h, .savePut saveStart items missing)
  | .savePut saveStart items missing, .codes codes =>
      if codes.length ≠ missing.length then none
      else
        let events := cfg.storedEvents h missing codes
        if codes.any (· < 0) then
          if codes.contains MOONCAKE_NO_AVAILABLE_HANDLE then some (ledger, h, .pressed events)
          else some (ledger, h, .announcing events)
        else some (ledger, h, .stored saveStart items true events)
  | .pressed events, .none => some (ledger.markSkipped h.req, h, .announcing events)
  | .stored _ _ put events, .none =>
      some (ledger.recordSaved h.req tokenLen, { h with saveCompleted := true },
        if put then .recorded events else .leaving)
  | .recorded events, .none => some (ledger.clearPressure, h, .announcing events)
  | .announcing events, .none =>
      some ({ ledger with kvEvents := ledger.kvEvents ++ events }, h, .leaving)
  | _, _ => none

end SendConfig

/-! ### What a step of a job leaves alone -/

namespace Ledger

variable {ledger ledger' : Ledger} {m : ReqMeta}

/-- What a step of `_handle_request` before `finish_store_job` leaves alone. -/
structure Frame (ledger ledger' : Ledger) : Prop where
  queue : ledger'.requestQueue = ledger.requestQueue
  completed : ledger'.completedSaves = ledger.completedSaves
  stored : ledger'.storedRequests = ledger.storedRequests

theorem Frame.refl (ledger : Ledger) : Frame ledger ledger := ⟨rfl, rfl, rfl⟩

theorem frame_recordSaved (n : Nat) : Frame ledger (ledger.recordSaved m n) := by
  rw [recordSaved]
  split <;> exact ⟨rfl, rfl, rfl⟩

theorem frame_updateRetryTokenIds (done : Bool) (start : Nat) (ids : Option (List Nat)) :
    Frame ledger (ledger.updateRetryTokenIds m done start ids) := by
  simp only [updateRetryTokenIds]
  split
  · exact .refl ledger
  · split
    · exact ⟨rfl, rfl, rfl⟩
    · split <;> exact ⟨rfl, rfl, rfl⟩

theorem addRequest_ok (h : ledger.addRequest m = .ok ledger') :
    ∃ job, m.storeJobId = some job ∧ ledger' = { ledger with
      storedRequests := Assoc.set m.reqId
        (job :: (Assoc.get m.reqId ledger.storedRequests).getD []) ledger.storedRequests
      requestQueue := ledger.requestQueue ++ [m] } := by
  rw [addRequest] at h
  split at h
  · cases h
  · next job hjob => exact ⟨job, hjob, (Except.ok.inj h).symm⟩

theorem finishStoreJob_ok (h : ledger.finishStoreJob m = .ok ledger') :
    ∃ job, m.storeJobId = some job ∧ ledger'.requestQueue = ledger.requestQueue ∧
      ledger'.completedSaves = ledger.completedSaves.add job 1 := by
  rw [finishStoreJob] at h
  split at h
  · cases h
  · next job hjob =>
      obtain rfl := Except.ok.inj h
      exact ⟨job, hjob, rfl, rfl⟩

/-- Liveness is read off the ledger's jobs alone. -/
theorem Frame.isLive (h : Frame ledger ledger') (m : ReqMeta) :
    ledger'.isLive m = ledger.isLive m := by
  have hholds : ledger'.holds m.reqId = ledger.holds m.reqId :=
    funext fun job => by simp only [Ledger.holds, h.stored]
  rw [Ledger.isLive, hholds, Ledger.isLive]

end Ledger

namespace SendConfig

variable {cfg : SendConfig} {ledger ledger' : Ledger} {h h' : Handling} {phase phase' : Phase}
  {answer : Answer}

theorem withRetry_req (retry : Option (Nat × List Nat)) : (withRetry h retry).req = h.req := by
  simp only [withRetry]
  split
  · split <;> rfl
  · rfl

/-- A step of a job touches neither the queue nor what is reported, and stays with the job. -/
theorem handle_frame (hstep : cfg.handle ledger h phase answer = some (ledger', h', phase')) :
    Ledger.Frame ledger ledger' ∧ h'.req = h.req := by
  cases phase <;> cases answer <;> simp only [handle] at hstep
  all_goals
    repeat' split at hstep
  -- the steps that are not there, then those that only look at the ledger
  all_goals
    first
    | (cases hstep; done)
    | (cases hstep; exact ⟨.refl ledger, rfl⟩)
    | (cases hstep; exact ⟨.refl ledger, withRetry_req _⟩)
    | (cases hstep; exact ⟨⟨rfl, rfl, rfl⟩, rfl⟩)
    | (cases hstep; exact ⟨Ledger.frame_recordSaved _, rfl⟩)
    | (cases hstep; exact ⟨Ledger.frame_updateRetryTokenIds _ _ _, rfl⟩)

end SendConfig

end KVServe.Store

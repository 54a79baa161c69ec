import KVServe.Store.Data

/-!
# KVServe.Store.Scheduler

The **scheduler side of the Mooncake store connector** (`MooncakeStoreScheduler`): the
lookup of an external hit, the metadata of a step, the references it takes on the blocks
of every store job and gives back when the last rank has reported.

The engine is outside the repository. What the connector reads of it comes with the calls:
the scheduler's output, the live `Request` objects (`requests`), the answer of the lookup
client and the block pool. Dictionaries are lists of items in insertion order.
-/

namespace KVServe.Store

open Session (ReqId)

/-! ### What the engine hands over -/

inductive KVRole
  | kvProducer
  | kvConsumer
  | kvBoth
  deriving DecidableEq, Repr

/-- What the connector reads of a vLLM `Request`. -/
structure Request where
  numTokens : Nat
  numComputedTokens : Nat
  allTokenIds : List Nat
  blockHashes : List BlockHash
  deriving DecidableEq, Repr

/-- `NewRequestData`. -/
structure NewRequestData where
  reqId : ReqId
  numComputedTokens : Nat
  blockIds : List (List BlockId)
  promptTokenIds : Option (List Nat)
  prefillTokenIds : Option (List Nat)
  deriving DecidableEq, Repr

/-- One row of `CachedRequestData`. -/
structure CachedRequest where
  reqId : ReqId
  newBlockIds : Option (List (List BlockId))
  numComputedTokens : Nat
  deriving DecidableEq, Repr

/-- `kv_connector_block_state`. -/
structure BlockState where
  boundaryStateOffloads : List (ReqId × List BoundaryOffload)
  getBlockIds : ReqId → Option (List (List BlockId))

/-- `SchedulerOutput`. -/
structure SchedulerOutput where
  finishedReqIds : List ReqId
  preemptedReqIds : List ReqId
  scheduledNewReqs : List NewRequestData
  scheduledCachedReqs : List CachedRequest
  /-- `scheduled_cached_reqs.resumed_req_ids`. -/
  resumedReqIds : List ReqId
  numScheduledTokens : ReqId → Option Nat
  blockState : Option BlockState

/-- The reference counts of the GPU block pool. -/
abbrev BlockPool := BlockId → Int

namespace BlockPool

/-- `touch`: one more reference on each block. -/
def touch (pool : BlockPool) (blockIds : List BlockId) : BlockPool :=
  fun b => pool b + blockIds.count b

/-- `free_blocks`: one reference less on each block. -/
def freeBlocks (pool : BlockPool) (blockIds : List BlockId) : BlockPool :=
  fun b => pool b - blockIds.count b

@[simp] theorem touch_apply (pool : BlockPool) (blockIds : List BlockId) (b : BlockId) :
    pool.touch blockIds b = pool b + blockIds.count b := rfl

@[simp] theorem freeBlocks_apply (pool : BlockPool) (blockIds : List BlockId) (b : BlockId) :
    pool.freeBlocks blockIds b = pool b - blockIds.count b := rfl

end BlockPool

/-- What `MooncakeStoreScheduler.__init__` fixes. -/
structure StoreConfig where
  kvRole : KVRole
  loadAsync : Bool
  enableLookup : Bool
  saveDecodeCache : Bool
  enableKvEvents : Bool
  /-- `kv_cache_config.prefix_cacheable_group_ids`. -/
  storeGroupIds : List Nat
  /-- The store groups with a Mamba spec. -/
  boundaryStateGroupIds : List Nat
  blockSize : Nat
  hashBlockSize : Nat
  enablePartialHashHits : Bool
  /-- `parallel_config.world_size`. -/
  numWorkers : Nat
  workersPos : 0 < numWorkers

namespace StoreConfig

variable (cfg : StoreConfig)

def isConsumer : Bool := cfg.kvRole = .kvConsumer

/-- `can_put` of the workers: whether they run a sending thread. -/
def canPut : Bool := !cfg.isConsumer || cfg.saveDecodeCache

/-- The granularity of an external hit. -/
def lookupAlign : Nat := if cfg.enablePartialHashHits then cfg.hashBlockSize else cfg.blockSize

/-- `_store_group_id_by_kv_cache_group_id.get(group_id)`, when it is a boundary-state group. -/
def boundaryGroup (groupId : Nat) : Option Nat :=
  (cfg.storeGroupIds.idxOf? groupId).filter (· ∈ cfg.boundaryStateGroupIds)

/-- `tuple(tables[group_id] for group_id in self._store_group_ids)`. -/
def storeGroups (tables : List (List BlockId)) : Except Raised (List (List BlockId)) :=
  cfg.storeGroupIds.mapM fun groupId =>
    match tables[groupId]? with
    | some table => .ok table
    | none => .error .indexError

end StoreConfig

/-- `MooncakeStoreScheduler`: its state. -/
structure MooncakeStoreScheduler where
  nextStoreJobId : Nat := 0
  /-- The blocks a job references and the ranks yet to report it. -/
  pinnedSaves : List (Nat × (List BlockId × Nat)) := []
  loadSpecs : List (ReqId × LoadSpec) := []
  requestTrackers : List (ReqId × RequestTracker) := []
  unfinishedRequests : List (ReqId × List (List BlockId)) := []
  finishedPartialTailMetas : List (ReqId × ReqMeta) := []
  deriving DecidableEq, Repr

/-- `_new_req_prefill_tokens`. -/
def newReqPrefillTokens (request : NewRequestData) : Except Raised (List Nat) :=
  match request.prefillTokenIds, request.promptTokenIds with
  | some ids, _ => .ok ids
  | none, some ids => .ok ids
  | none, none => .error (.assertionError "")

namespace MooncakeStoreScheduler

variable (cfg : StoreConfig) (requests : ReqId → Request) (out : SchedulerOutput)

/-! ### Lookup and allocation -/

/-- `get_num_new_matched_tokens`; `lookup` is the client's answer, `none` while it is under
way. -/
def getNumNewMatchedTokens (s : MooncakeStoreScheduler) (reqId : ReqId) (numTokens : Nat)
    (lookup : Option MooncakeLookupResult) (numComputedTokens : Nat) :
    MooncakeStoreScheduler × (Option Nat × Bool) :=
  if !cfg.enableLookup || decide (numTokens < cfg.lookupAlign) then (s, (some 0, false))
  else
    match lookup with
    | none => (s, (none, false))
    | some result =>
        let needToAllocate := result.hitLength - numComputedTokens
        if needToAllocate = 0 then (s, (some 0, false))
        else
          let loadSpec : LoadSpec :=
            { vllmCachedTokens := numComputedTokens, kvpoolCachedTokens := result.hitLength
              canLoad := false, tailKeyBoundaries := result.tailKeyBoundaries }
          ({ s with loadSpecs := Assoc.set reqId loadSpec s.loadSpecs },
            (some needToAllocate, cfg.loadAsync))

/-- `local_block_ids`: the blocks an external hit is loaded into. -/
def localBlocks (tables : List (List BlockId)) (numExternalTokens : Nat) :
    Except Raised (List (List BlockId)) :=
  if 0 < numExternalTokens then cfg.storeGroups tables else .ok []

/-- `update_state_after_alloc`; `tables` are the request's blocks in every cache group. -/
def updateStateAfterAlloc (s : MooncakeStoreScheduler) (reqId : ReqId)
    (tables : List (List BlockId)) (numExternalTokens : Nat) :
    Except Raised MooncakeStoreScheduler := do
  let localBlockIds ← localBlocks cfg tables numExternalTokens
  let s := { s with unfinishedRequests := Assoc.set reqId localBlockIds s.unfinishedRequests }
  match Assoc.get reqId s.loadSpecs with
  | none => return s
  | some spec =>
      if numExternalTokens = 0 then
        return { s with loadSpecs := Assoc.set reqId { spec with canLoad := false } s.loadSpecs }
      require (numExternalTokens + spec.vllmCachedTokens = spec.kvpoolCachedTokens)
        s!"Mismatch in number of tokens: {numExternalTokens} vs {spec.kvpoolCachedTokens} - {spec.vllmCachedTokens} for request {reqId}"
      return { s with loadSpecs := Assoc.set reqId { spec with canLoad := true } s.loadSpecs }

/-! ### The metadata of a step -/

/-- What a finished request leaves behind: nothing. -/
def forgetFinished (s : MooncakeStoreScheduler) (reqId : ReqId) : MooncakeStoreScheduler :=
  { s with
    loadSpecs := Assoc.erase reqId s.loadSpecs
    requestTrackers := Assoc.erase reqId s.requestTrackers
    unfinishedRequests := Assoc.erase reqId s.unfinishedRequests }

/-- What a preempted request leaves behind: an empty tracker. -/
def forgetPreempted (s : MooncakeStoreScheduler) (reqId : ReqId) : MooncakeStoreScheduler :=
  { s with
    loadSpecs := Assoc.erase reqId s.loadSpecs
    requestTrackers :=
      match Assoc.get reqId s.requestTrackers with
      | some tracker => Assoc.set reqId tracker.reset s.requestTrackers
      | none => s.requestTrackers
    unfinishedRequests := Assoc.erase reqId s.unfinishedRequests }

/-- The scheduler and the metas of a step so far. -/
abbrev Building := MooncakeStoreScheduler × List ReqMeta

/-- `num_scheduled_tokens[req_id]`. -/
def scheduledTokens (reqId : ReqId) : Except Raised Nat :=
  match out.numScheduledTokens reqId with
  | some n => .ok n
  | none => .error (.keyError reqId)

/-- Keep a request's tracker and take the meta made of it, if any. -/
def emit (building : Building) (reqId : ReqId) (made : RequestTracker × Option ReqMeta) :
    Building :=
  ({ building.1 with requestTrackers := Assoc.set reqId made.1 building.1.requestTrackers },
    building.2 ++ made.2.toList)

/-- A request the engine starts to compute, for the first time or again after a preemption. -/
def track (building : Building) (reqId : ReqId) (numTokensToCompute : Nat)
    (blockIds : List (List BlockId)) (prefillTokens : List Nat) (blockHashes : List BlockHash) :
    Building :=
  let loadSpec := Assoc.get reqId building.1.loadSpecs
  let tracker : RequestTracker :=
    { tokenLen := numTokensToCompute, allocatedBlockIds := blockIds
      tokenIds := if cfg.enableKvEvents then some (prefillTokens.take numTokensToCompute) else none
      prefillEndTokens := prefillTokens.length }
  emit ({ building.1 with loadSpecs := Assoc.erase reqId building.1.loadSpecs }, building.2) reqId
    (ReqMeta.fromRequestTracker reqId tracker cfg.blockSize loadSpec cfg.isConsumer blockHashes)

/-- One request of `scheduled_new_reqs`. -/
def buildNew (building : Building) (request : NewRequestData) : Except Raised Building := do
  let numScheduled ← scheduledTokens out request.reqId
  require ((Assoc.get request.reqId building.1.unfinishedRequests).isSome) ""
  let blockIds ← cfg.storeGroups request.blockIds
  let prefillTokens ← newReqPrefillTokens request
  return track cfg building request.reqId (request.numComputedTokens + numScheduled) blockIds
    prefillTokens (requests request.reqId).blockHashes

/-- `new_block_ids` of a cached request: `none` when it is missing or empty. -/
def newBlocks (row : CachedRequest) : Except Raised (Option (List (List BlockId))) :=
  match row.newBlockIds.filter (· ≠ []) with
  | some tables => (cfg.storeGroups tables).map fun groups => some groups |>.filter (· ≠ [])
  | none => .ok none

/-- A cached request that resumes after a preemption. -/
def buildResumed (building : Building) (row : CachedRequest) : Except Raised Building := do
  match ← newBlocks cfg row with
  | none => return building
  | some blockIds =>
      -- the load spec is popped before the request is looked up
      if (Assoc.get row.reqId building.1.unfinishedRequests).isNone then throw .typeError
      let numScheduled ← scheduledTokens out row.reqId
      let request := requests row.reqId
      return track cfg building row.reqId (request.numComputedTokens + numScheduled) blockIds
        request.allTokenIds request.blockHashes

/-- `request_tracker.token_len += len(new_token_ids)`, and the ids with it. -/
def grow (tracker : RequestTracker) (newTokenIds : List Nat) : RequestTracker :=
  { tracker with
    tokenLen := tracker.tokenLen + newTokenIds.length
    tokenIds := tracker.tokenIds.map (· ++ newTokenIds) }

/-- `request_tracker.update(new_block_ids)`, when there are any. -/
def addBlocks (tracker : RequestTracker) :
    Option (List (List BlockId)) → Except Raised RequestTracker
  | some blockIds => tracker.update blockIds
  | none => .ok tracker

/-- A cached request in a later chunk of its prefill or in its decode. -/
def buildRunning (building : Building) (row : CachedRequest) : Except Raised Building := do
  let newBlockIds ← newBlocks cfg row
  match Assoc.get row.reqId building.1.requestTrackers with
  | none => throw (.keyError row.reqId)
  | some tracker =>
      let isDecode : Bool := tracker.prefillEndTokens ≤ row.numComputedTokens
      if isDecode && !cfg.saveDecodeCache then return building
      let numNewTokens ← scheduledTokens out row.reqId
      if (Assoc.get row.reqId building.1.unfinishedRequests).isNone then
        throw (.valueError s!"Request {row.reqId} is not in _unfinished_requests")
      let request := requests row.reqId
      let tracker := grow tracker ((request.allTokenIds.drop tracker.tokenLen).take numNewTokens)
      let tracker ← addBlocks tracker newBlockIds
      -- a consumer saves only what it decodes
      if cfg.isConsumer && !isDecode then return emit building row.reqId (tracker, none)
      return emit building row.reqId
        (ReqMeta.fromRequestTracker row.reqId tracker cfg.blockSize none false request.blockHashes)

/-- One row of `scheduled_cached_reqs`. -/
def buildCached (building : Building) (row : CachedRequest) : Except Raised Building :=
  if row.reqId ∈ out.resumedReqIds then buildResumed cfg requests out building row
  else buildRunning cfg requests out building row

/-- The cached requests; a rank that never puts has none to build. -/
def buildAllCached (building : Building) : Except Raised Building :=
  if cfg.canPut then out.scheduledCachedReqs.foldlM (buildCached cfg requests out) building
  else .ok building

/-- A request that is loading and not scheduled in this step. -/
def buildPending (building : Building) (entry : ReqId × List (List BlockId)) : Building :=
  let reqId := entry.1
  if (out.scheduledNewReqs.any (·.reqId = reqId)) || (out.scheduledCachedReqs.any (·.reqId = reqId)) then
    building
  else
    let loadSpec := Assoc.get reqId building.1.loadSpecs
    let s := { building.1 with loadSpecs := Assoc.erase reqId building.1.loadSpecs }
    match loadSpec.filter LoadSpec.canLoad with
    | none => (s, building.2)
    | some spec =>
        let tracker : RequestTracker :=
          { tokenLen := spec.kvpoolCachedTokens, allocatedBlockIds := entry.2 }
        emit (s, building.2) reqId
          (ReqMeta.fromRequestTracker reqId tracker cfg.blockSize (some spec) false
            (requests reqId).blockHashes)

/-! ### Boundary states -/

/-- The entries of an offload that a store job takes, with the store's group ids. -/
def acceptOffloads (tracker : RequestTracker) (entries : List BoundaryOffload) :
    List BoundaryOffload :=
  entries.filterMap fun entry =>
    if tracker.prefillEndTokens < entry.boundary then none
    else if entry.blockId = NULL_BLOCK_ID then none
    else (cfg.boundaryGroup entry.groupId).map fun group => { entry with groupId := group }

/-- `save_metas[req_id].boundary_state_offloads = accepted`: of several metas of a request the
dict has the last one. -/
def attachOffloads (reqId : ReqId) (accepted : List BoundaryOffload) :
    List ReqMeta → Option (List ReqMeta)
  | [] => none
  | m :: metas =>
      match attachOffloads reqId accepted metas with
      | some metas => some (m :: metas)
      | none =>
          if m.canSave && decide (m.reqId = reqId) then
            some ({ m with boundaryStateOffloads := some accepted } :: metas)
          else none

/-- One entry of `_handle_boundary_state_offloads`; the metas it adds are kept apart from those
it found. -/
def handleOffload (state : MooncakeStoreScheduler × List ReqMeta × List ReqMeta)
    (offload : ReqId × List BoundaryOffload) :
    MooncakeStoreScheduler × List ReqMeta × List ReqMeta :=
  let (s, metas, added) := state
  match Assoc.get offload.1 s.requestTrackers, Assoc.get offload.1 s.unfinishedRequests with
  | some tracker, some _ =>
      let accepted := acceptOffloads cfg tracker offload.2
      if accepted = [] then state
      else
        let s := { s with
          requestTrackers :=
            Assoc.set offload.1 { tracker with hasPendingOffload := true } s.requestTrackers }
        match attachOffloads offload.1 accepted metas with
        | some metas => (s, metas, added)
        | none =>
            (s, metas, added ++ [
              { reqId := offload.1, tokenLenChunk := 0, blockIds := tracker.allocatedBlockIds
                blockHashes := (requests offload.1).blockHashes, canSave := true
                numPromptTokens := some tracker.prefillEndTokens
                boundaryStateOffloads := some accepted }])
  | _, _ => state

/-- `_handle_boundary_state_offloads`. -/
def handleBoundaryStateOffloads (building : Building)
    (offloads : List (ReqId × List BoundaryOffload)) : Building :=
  let (s, metas, added) :=
    offloads.foldl (handleOffload cfg requests) (building.1, building.2, [])
  (s, metas ++ added)

/-- The boundary states the core hands over in this step; a consumer offloads none. -/
def addOffloads (building : Building) : Building :=
  match out.blockState with
  | some state =>
      if cfg.isConsumer then building
      else handleBoundaryStateOffloads cfg requests building state.boundaryStateOffloads
  | none => building

/-! ### Block tables and references -/

/-- `_apply_current_save_block_ids`: one meta. -/
def applyCurrent (m : ReqMeta) : Except Raised ReqMeta := do
  if !m.canSave then return m
  match out.blockState with
  | none => throw (.assertionError "Current block tables are required for Mooncake store jobs")
  | some state =>
      match state.getBlockIds m.reqId with
      | none =>
          throw (.assertionError s!"Missing current block table for store request {m.reqId}")
      | some tables => return { m with blockIds := ← cfg.storeGroups tables }

/-- The blocks of the boundary states a job offloads. -/
def offloadBlocks (m : ReqMeta) : List BlockId :=
  (m.boundaryStateOffloads.getD []).map BoundaryOffload.blockId

/-- The blocks of the request's tables that a positional save may read. -/
def tableBlocks (m : ReqMeta) : List BlockId :=
  (m.blockIds.zipIdx.filter fun entry => entry.2 ∉ cfg.boundaryStateGroupIds).flatMap fun entry =>
    entry.1.filter (· ≠ NULL_BLOCK_ID)

/-- What `_reference_save_blocks` threads along. -/
structure Referencing where
  scheduler : MooncakeStoreScheduler
  pool : BlockPool
  requests : List ReqMeta := []

/-- One meta of `_reference_save_blocks`. -/
def referenceSave (state : Referencing) (m : ReqMeta) : Except Raised Referencing := do
  let keep (m : ReqMeta) : Referencing := { state with requests := state.requests ++ [m] }
  if !m.canSave then return keep m
  match m.storeJobId with
  | some job =>
      require ((Assoc.get job state.scheduler.pinnedSaves).isSome) ""
      return keep m
  | none =>
      let job := state.scheduler.nextStoreJobId
      let s := { state.scheduler with nextStoreJobId := job + 1 }
      let state := { keep { m with storeJobId := some job } with scheduler := s }
      require (NULL_BLOCK_ID ∉ offloadBlocks m)
        "A null block cannot back a boundary-state offload"
      let blockIds := fromKeys (offloadBlocks m ++ tableBlocks cfg m)
      require (NULL_BLOCK_ID ∉ blockIds) ""
      if blockIds = [] then return state
      return { state with
        scheduler := { s with
          pinnedSaves := Assoc.set job (blockIds, cfg.numWorkers) s.pinnedSaves }
        pool := state.pool.touch blockIds }

/-- `_reference_save_blocks`. -/
def referenceSaveBlocks (s : MooncakeStoreScheduler) (pool : BlockPool) (metas : List ReqMeta) :
    Except Raised Referencing :=
  metas.foldlM (referenceSave cfg) { scheduler := s, pool }

/-! ### The entry points -/

/-- The requests of a step before any block is looked at. -/
def buildRequests (s : MooncakeStoreScheduler) : Except Raised Building := do
  let s := out.finishedReqIds.foldl forgetFinished s
  let s := out.preemptedReqIds.foldl forgetPreempted s
  let building ← out.scheduledNewReqs.foldlM (buildNew cfg requests out) (s, [])
  let building ← buildAllCached cfg requests out building
  return building.1.unfinishedRequests.foldl (buildPending cfg requests out) building

/-- `build_connector_meta`. -/
def buildConnectorMeta (s : MooncakeStoreScheduler) (pool : BlockPool) :
    Except Raised (MooncakeStoreScheduler × BlockPool × MooncakeStoreConnectorMetadata) := do
  let building ← buildRequests cfg requests out s
  let building := addOffloads cfg requests out building
  let metas ← building.2.mapM (applyCurrent cfg out)
  let metas := metas ++ building.1.finishedPartialTailMetas.map Prod.snd
  let s := { building.1 with finishedPartialTailMetas := [] }
  let done ← referenceSaveBlocks cfg s pool metas
  return (done.scheduler, done.pool,
    { requests := done.requests, preemptedReqIds := out.preemptedReqIds })

/-- The entries of a finish-time tail with the store's group ids; `none` when one of them is
not a boundary state. -/
def remapTail (offloads : List BoundaryOffload) : Option (List BoundaryOffload) :=
  offloads.mapM fun entry =>
    if entry.blockId = NULL_BLOCK_ID then none
    else (cfg.boundaryGroup entry.groupId).map fun group => { entry with groupId := group }

/-- `register_finished_partial_tail`; it returns false in every case. -/
def registerFinishedPartialTail (s : MooncakeStoreScheduler) (pool : BlockPool) (reqId : ReqId)
    (blockHashes : List BlockHash) (tables : List (List BlockId))
    (offloads : List BoundaryOffload) : Except Raised (MooncakeStoreScheduler × BlockPool) := do
  if cfg.isConsumer then return (s, pool)
  match offloads, Assoc.get reqId s.requestTrackers with
  | [], _ => return (s, pool)
  | _, none => return (s, pool)
  | first :: rest, some tracker =>
      if !(tables.any (· ≠ [])) then return (s, pool)
      if !(rest.all (·.boundary = first.boundary)) then
        throw (.valueError "Partial-tail offloads for one request must share a boundary")
      if tracker.prefillEndTokens < first.boundary then return (s, pool)
      match remapTail cfg offloads with
      | none => return (s, pool)
      | some remapped =>
          let pinned := fromKeys (offloads.map BoundaryOffload.blockId)
          require ((Assoc.get reqId s.finishedPartialTailMetas).isNone) ""
          let job := s.nextStoreJobId
          let blockIds ← cfg.storeGroups tables
          let m : ReqMeta :=
            { reqId, tokenLenChunk := 0, blockIds, blockHashes, canSave := true
              numPromptTokens := some tracker.prefillEndTokens, storeJobId := some job
              boundaryStateOffloads := some remapped }
          return ({ s with
            nextStoreJobId := job + 1
            pinnedSaves := Assoc.set job (pinned, cfg.numWorkers) s.pinnedSaves
            finishedPartialTailMetas := Assoc.set reqId m s.finishedPartialTailMetas
            requestTrackers :=
              Assoc.set reqId { tracker with hasPendingOffload := true } s.requestTrackers },
            pool.touch pinned)

/-- One entry of `update_connector_output`. -/
def releaseSave (state : MooncakeStoreScheduler × BlockPool) (entry : Nat × Nat) :
    Except Raised (MooncakeStoreScheduler × BlockPool) :=
  let (s, pool) := state
  match Assoc.get entry.1 s.pinnedSaves with
  -- the job referenced no blocks
  | none => .ok state
  | some (blockIds, remaining) =>
      if entry.2 < remaining then
        .ok ({ s with
          pinnedSaves := Assoc.set entry.1 (blockIds, remaining - entry.2) s.pinnedSaves }, pool)
      else if entry.2 = remaining then
        .ok ({ s with pinnedSaves := Assoc.erase entry.1 s.pinnedSaves },
          pool.freeBlocks blockIds.reverse)
      else .error (.assertionError s!"store job {entry.1} reported by too many ranks")

/-- `update_connector_output`. -/
def updateConnectorOutput (s : MooncakeStoreScheduler) (pool : BlockPool)
    (completed : CompletedSaves) : Except Raised (MooncakeStoreScheduler × BlockPool) :=
  completed.foldlM releaseSave (s, pool)

/-- `has_pending_push_work`. -/
def hasPendingPushWork (s : MooncakeStoreScheduler) : Bool := s.pinnedSaves ≠ []

end MooncakeStoreScheduler

end KVServe.Store

import Mathlib.Logic.Function.Basic

/-!
# KVServe.Connector.Scheduler

The **scheduler side of `CompressedKVConnector`**: which requests a step transfers (on
the producer) or loads (on the consumer).

The connector is driven by vLLM's scheduler, which is outside the repository: it asks
for the external tokens of a request it wants to admit, reports the blocks it gave it,
and at the end of the step hands over a `SchedulerOutput`. `none` is an exception (a
failed assertion or a missing key). Dicts are functions to `Option`; nothing here
iterates over one.
-/

namespace KVServe.Connector

/-- What the connector reads of a vLLM `Request`. -/
structure Request where
  requestId : String
  promptTokenIds : List Nat
  outputTokenIds : List Nat := []
  /-- `kv_transfer_params["transfer_id"]`. -/
  transferId : Option String := none
  deriving DecidableEq, Repr

namespace Request

/-- `request.all_token_ids`. -/
def allTokenIds (request : Request) : List Nat := request.promptTokenIds ++ request.outputTokenIds

/-- The transfer id the router gave the request; an empty one counts as missing. -/
def routedId (request : Request) : Option String := request.transferId.filter (· ≠ "")

end Request

/-- `ReqMeta`. -/
structure ReqMeta where
  requestId : String
  transferId : String
  tokenIds : List Nat
  blockIds : List Nat
  slotMapping : List Nat
  deriving DecidableEq, Repr

/-- `make_slot_mapping`. -/
def makeSlotMapping (tokenIds blockIds : List Nat) (blockSize : Nat) : List Nat :=
  (blockIds.flatMap fun b => (List.range blockSize).map (b * blockSize + ·)).take tokenIds.length

/-- `NewRequestData`; the block ids are those of the first KV cache group. -/
structure NewReq where
  reqId : String
  promptTokenIds : List Nat
  blockIds : List Nat
  numComputedTokens : Nat
  deriving DecidableEq, Repr

/-- One row of `CachedRequestData`. -/
structure CachedReq where
  reqId : String
  numComputedTokens : Nat
  newBlockIds : Option (List Nat)
  deriving DecidableEq, Repr

/-- `SchedulerOutput`. -/
structure SchedulerOutput where
  scheduledNewReqs : List NewReq
  scheduledCachedReqs : List CachedReq
  /-- `scheduled_cached_reqs.resumed_req_ids`. -/
  resumedReqIds : List String
  numScheduledTokens : String → Option Nat

/-- The state of the scheduler-side connector. -/
structure CompressedKVConnector where
  isProducer : Bool
  blockSize : Nat
  requestsNeedLoad : String → Option (Request × List Nat) := fun _ => none
  requestTransferIds : String → Option String := fun _ => none
  chunkedPrefill : String → Option (List Nat × List Nat) := fun _ => none

namespace CompressedKVConnector

/-- `self._requests_need_load[id] = entry`, or `pop` for `none`. -/
def setNeedLoad (c : CompressedKVConnector) (id : String) (entry : Option (Request × List Nat)) :
    CompressedKVConnector :=
  { c with requestsNeedLoad := Function.update c.requestsNeedLoad id entry }

/-- `self.chunked_prefill[id] = entry`, or `pop` for `none`. -/
def setPrefill (c : CompressedKVConnector) (id : String)
    (entry : Option (List Nat × List Nat)) : CompressedKVConnector :=
  { c with chunkedPrefill := Function.update c.chunkedPrefill id entry }

/-- `_resolve_transfer_id` with a request: the state it leaves. -/
def captureTransferId (c : CompressedKVConnector) (request : Request) : CompressedKVConnector :=
  match request.routedId with
  | some id =>
      { c with
        requestTransferIds := Function.update c.requestTransferIds request.requestId (some id) }
  | none => c

/-- `_resolve_transfer_id`: the id it returns. -/
def resolveTransferId (c : CompressedKVConnector) (requestId : String) : String :=
  (c.requestTransferIds requestId).getD requestId

/-- `get_num_new_matched_tokens`. -/
def getNumNewMatchedTokens (c : CompressedKVConnector) (request : Request) (numComputedTokens : Nat) : Nat :=
  if c.isProducer then 0
  else
    -- one token of the prompt is left to be scheduled locally
    let numExternal : Int := (request.promptTokenIds.length : Int) - 1 - numComputedTokens
    if numExternal ≤ 0 then 0 else numExternal.toNat

/-- `update_state_after_alloc`. -/
def updateStateAfterAlloc (c : CompressedKVConnector) (request : Request) (blockIds : List Nat)
    (numExternalTokens : Nat) : CompressedKVConnector :=
  let c := c.captureTransferId request
  if !c.isProducer && 0 < numExternalTokens then
    c.setNeedLoad request.requestId (some (request, blockIds))
  else c

/-- `meta.add_request`. -/
def reqMeta (c : CompressedKVConnector) (requestId : String) (tokenIds blockIds : List Nat) : ReqMeta :=
  { requestId, transferId := c.resolveTransferId requestId, tokenIds, blockIds
    slotMapping := makeSlotMapping tokenIds blockIds c.blockSize }

/-- One pass of the loop over `scheduled_new_reqs`. -/
def buildNew (out : SchedulerOutput) (c : CompressedKVConnector) (req : NewReq) :
    Option (CompressedKVConnector × List ReqMeta) :=
  if c.isProducer then
    (out.numScheduledTokens req.reqId).map fun numScheduledTokens =>
      -- chunked prefill: the transfer waits for the whole prompt
      if numScheduledTokens + req.numComputedTokens < req.promptTokenIds.length then
        (c.setPrefill req.reqId (some (req.blockIds, req.promptTokenIds)), [])
      else (c, [c.reqMeta req.reqId req.promptTokenIds req.blockIds])
  else
    match c.requestsNeedLoad req.reqId with
    | some _ =>
        some (c.setNeedLoad req.reqId none,
          [c.reqMeta req.reqId req.promptTokenIds req.blockIds])
    | none => some (c, [])

/-- A loop whose passes add entries to the metadata. -/
def loop {ρ : Type}
    (pass : CompressedKVConnector → ρ → Option (CompressedKVConnector × List ReqMeta))
    (c : CompressedKVConnector) : List ρ → Option (CompressedKVConnector × List ReqMeta)
  | [] => some (c, [])
  | req :: rest => do
      let (c, first) ← pass c req
      let (c, others) ← loop pass c rest
      return (c, first ++ others)

/-- One pass of the loop over `scheduled_cached_reqs` on the producer. -/
def buildCachedProducer (out : SchedulerOutput) (c : CompressedKVConnector) (req : CachedReq) :
    Option (CompressedKVConnector × List ReqMeta) := do
  let numScheduledTokens ← out.numScheduledTokens req.reqId
  let (blocks, promptTokenIds) ← c.chunkedPrefill req.reqId
  let newBlockIds ← req.newBlockIds
  let blockIds := if req.reqId ∈ out.resumedReqIds then newBlockIds else blocks ++ newBlockIds
  if numScheduledTokens + req.numComputedTokens < promptTokenIds.length then
    return (c.setPrefill req.reqId (some (blockIds, promptTokenIds)), [])
  else
    return (c.setPrefill req.reqId none, [c.reqMeta req.reqId promptTokenIds blockIds])

/-- The same on the consumer, for a request resumed from preemption. -/
def buildResumed (c : CompressedKVConnector) (req : CachedReq) : Option (CompressedKVConnector × List ReqMeta) :=
  match c.requestsNeedLoad req.reqId with
  | some (request, _) => do
      let blockIds ← req.newBlockIds
      let c := (c.setNeedLoad req.reqId none).captureTransferId request
      return (c, [c.reqMeta req.reqId (request.allTokenIds.take (req.numComputedTokens + 1))
        blockIds])
  | none => some (c, [])

/-- The loop over `scheduled_cached_reqs`. The consumer leaves it at the first request that
was not resumed. -/
def buildCached (c : CompressedKVConnector) (out : SchedulerOutput) :
    List CachedReq → Option (CompressedKVConnector × List ReqMeta)
  | [] => some (c, [])
  | req :: rest =>
      if c.isProducer then do
        let (c, first) ← buildCachedProducer out c req
        let (c, others) ← buildCached c out rest
        return (c, first ++ others)
      else if req.reqId ∉ out.resumedReqIds then some (c, [])
      else do
        let (c, first) ← c.buildResumed req
        let (c, others) ← buildCached c out rest
        return (c, first ++ others)

/-- `build_connector_meta`. -/
def buildConnectorMeta (c : CompressedKVConnector) (out : SchedulerOutput) :
    Option (CompressedKVConnector × List ReqMeta) := do
  let (c, news) ← loop (buildNew out) c out.scheduledNewReqs
  let (c, cached) ← c.buildCached out out.scheduledCachedReqs
  return (c, news ++ cached)

/-- `request_finished`. -/
def requestFinished (c : CompressedKVConnector) (requestId : String) : CompressedKVConnector :=
  { c with
    chunkedPrefill := Function.update c.chunkedPrefill requestId none
    requestTransferIds := Function.update c.requestTransferIds requestId none
    requestsNeedLoad :=
      if c.isProducer then c.requestsNeedLoad
      else Function.update c.requestsNeedLoad requestId none }

end CompressedKVConnector

end KVServe.Connector

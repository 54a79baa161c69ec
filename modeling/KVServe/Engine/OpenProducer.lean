import KVServe.Engine.Regions
import KVServe.Engine.Transfer
import KVServe.Lib.Blocks
import Mathlib.Data.List.SplitBy
import Mathlib.Tactic.Ring

/-!
# KVServe.Engine.OpenProducer

`_session_job_open_producer`: the producer matches the blocks of a request, writes the
regions that are not compressed, and answers with the figures of the session.

A job that returns without an error has planned its descriptors and every one of them is in
a call that returned 0.
-/

namespace KVServe.Engine

open KVServe.Session

/-- `BlockTable` of vLLM, as far as it is used here: with `n` kernel blocks in a logical block,
block `k` expands to `[n k, …, n k + n - 1]`. -/
structure BlockTable where
  mapToKernelBlocks : (blockIds : List Nat) → (blocksPerLogical : Nat) → List Nat
  expands : ∀ blockIds n, mapToKernelBlocks blockIds n =
    blockIds.flatMap fun block => (List.range n).map (block * n + ·)

/-- The worker, as far as an open job reads it. -/
structure ProducerWorker where
  /-- `execution.raw`: nothing is compressed. -/
  executionRaw : Bool
  faGroupIndices : List Nat
  /-- `_compression_block_sizes()`. -/
  blockSizes : List (Nat × Nat)
  logicalBlocksPerChunk : Nat
  /-- For each KV cache group, whether its spec is a `MambaSpec`. -/
  mambaGroups : List Bool
  transferGroupIndexByLayer : List (String × Nat)
  physicalBlocksPerLogical : Nat
  blockTable : BlockTable
  tpRank : Nat
  tpSize : Nat
  /-- `transfer_topo.local_replicates_kv_cache`. -/
  replicatesKvCache : Bool
  kvCachesBaseAddr : List Nat
  blockLenPerLayer : List Nat
  kvBlockLenPerLayer : List Nat
  registeredLayerNames : List String
  registeredLayerIndices : List Nat
  registeredGroupIndices : List Nat

/-! ### Registered regions -/

/-- `_expand_transfer_regions`. -/
def expandTransferRegions (baseAddrs blockLens kvBlockLens : List Nat) (layerNames : List String)
    (layerIndices groupIndices : List Nat) : Except String (List TransferRegion) :=
  if ¬ (baseAddrs.length = blockLens.length ∧ blockLens.length = kvBlockLens.length ∧
      kvBlockLens.length = layerNames.length ∧ layerNames.length = layerIndices.length) then
    .error ("Mooncake transfer regions require matching metadata lengths, got " ++
      s!"base_addrs={baseAddrs.length}, block_lens={blockLens.length}, " ++
      s!"kv_block_lens={kvBlockLens.length}, layer_names={layerNames.length}, " ++
      s!"layer_indices={layerIndices.length}.")
  else if groupIndices.length ≠ layerNames.length then
    .error ("Mooncake transfer regions require matching group metadata lengths, " ++
      s!"got group_indices={groupIndices.length}, layer_names={layerNames.length}.")
  else
    .ok (((baseAddrs.zip (blockLens.zip kvBlockLens)).zip
      (layerNames.zip (layerIndices.zip groupIndices))).map
        fun ((baseAddr, blockLen, kvBlockLen), layerName, layerIndex, groupIndex) =>
          ⟨layerName, layerIndex, baseAddr, blockLen, kvBlockLen, groupIndex⟩)

namespace ProducerWorker

/-- `_get_transfer_regions`. -/
def getTransferRegions (worker : ProducerWorker) (baseAddrs blockLens kvBlockLens : List Nat)
    (layerNames : List String) (layerIndices groupIndices : List Nat) :
    Except String (List TransferRegion) :=
  let groupIndices := if groupIndices = [] then
      layerNames.map fun layerName => (worker.transferGroupIndexByLayer.lookup layerName).getD 0
    else groupIndices
  expandTransferRegions baseAddrs blockLens kvBlockLens layerNames layerIndices groupIndices

/-- The regions that the producer registered. -/
def localRegions (worker : ProducerWorker) : Except String (List TransferRegion) :=
  worker.getTransferRegions worker.kvCachesBaseAddr worker.blockLenPerLayer
    worker.kvBlockLenPerLayer worker.registeredLayerNames worker.registeredLayerIndices
    worker.registeredGroupIndices

/-- The regions that the consumer registered. -/
def remoteRegions (worker : ProducerWorker) (agent : MooncakeXferMetadata) :
    Except String (List TransferRegion) :=
  worker.getTransferRegions agent.kvCachesBaseAddr agent.blockLens agent.kvBlockLens
    agent.registeredLayerNames agent.registeredLayerIndices agent.registeredGroupIndices

end ProducerWorker

/-! ### Matching blocks -/

/-- The blocks of a group that carry state: a Mamba group may have null placeholders. -/
def statefulBlocks (isMamba : Bool) (group : List Nat) : List Nat :=
  if isMamba then group.filter (· ≠ nullBlockId) else group

/-- `local_group[-n_remote:] if n_remote > 0 else []`, if there are more local blocks. -/
def trimGroup (localGroup remoteGroup : List Nat) : List Nat :=
  if remoteGroup.length < localGroup.length then
    if remoteGroup = [] then [] else localGroup.drop (localGroup.length - remoteGroup.length)
  else localGroup

/-- `_match_compression_blocks`, over the pairs of groups. -/
def matchGroups : List Bool → List (List Nat × List Nat) →
    Except String (List (List Nat × List Nat))
  | _, [] => .ok []
  | [], _ :: _ => .error "list index out of range"
  | isMamba :: mambaGroups, (localGroup, remoteGroup) :: rest => do
      let localGroup := statefulBlocks isMamba localGroup
      let remoteGroup := statefulBlocks isMamba remoteGroup
      let groups ← matchGroups mambaGroups rest
      return (trimGroup localGroup remoteGroup, remoteGroup) :: groups

/-- The loop over the groups in `_build_transfer_params_sync`; `none` if a group has fewer
local blocks than remote ones. -/
def matchTransferGroups : List Bool → List (List Nat × List Nat) →
    Except String (Option (List (List Nat × List Nat)))
  | _, [] => .ok (some [])
  | [], _ :: _ => .error "list index out of range"
  | isMamba :: mambaGroups, (localGroup, remoteGroup) :: rest =>
      let localGroup := statefulBlocks isMamba localGroup
      let remoteGroup := statefulBlocks isMamba remoteGroup
      if localGroup.length < remoteGroup.length then .ok none
      else (matchTransferGroups mambaGroups rest).map
        (·.map ((trimGroup localGroup remoteGroup, remoteGroup) :: ·))

/-- What is to be done for a request. -/
inductive RequestPlan
  /-- Nothing to send. -/
  | skip
  /-- The request goes to `err_reqs`. -/
  | failed (message : String)
  /-- The matched blocks of every group, local and remote. -/
  | send (groups : List (List Nat × List Nat))
  deriving DecidableEq, Repr

namespace ProducerWorker

/-- `_match_compression_blocks`. -/
def matchCompressionBlocks (worker : ProducerWorker) (localBlockIds remoteBlockIds : BlockIds) :
    Except String (BlockIds × BlockIds) :=
  let remoteBlockIds := if remoteBlockIds = [] then localBlockIds.map fun _ => [] else remoteBlockIds
  (matchGroups worker.mambaGroups (localBlockIds.zip remoteBlockIds)).map List.unzip

/-- `_logical_to_kernel_block_ids` of one group. -/
def kernelBlockIds (worker : ProducerWorker) (isMamba : Bool) (group : List Nat) : List Nat :=
  if worker.physicalBlocksPerLogical = 1 ∨ isMamba then group
  else worker.blockTable.mapToKernelBlocks group worker.physicalBlocksPerLogical

/-- The plan for one request, before the regions are looked at. -/
def planRequest (worker : ProducerWorker) (localBlockIds remoteBlockIds : BlockIds) :
    Except String RequestPlan :=
  if remoteBlockIds.all (· = []) then .ok .skip
  else if localBlockIds.length ≠ remoteBlockIds.length then
    .ok (.failed "KV group count mismatch")
  else
    (matchTransferGroups worker.mambaGroups (localBlockIds.zip remoteBlockIds)).map fun
      | none => .failed "P num blocks less than D"
      | some groups =>
          if groups.all fun group => group.1 = [] then .skip
          else .send ((groups.zip worker.mambaGroups).map fun (group, isMamba) =>
            (worker.kernelBlockIds isMamba group.1, worker.kernelBlockIds isMamba group.2))

end ProducerWorker

/-! ### Descriptors of a region -/

/-- A local and a remote block follow a local and a remote block. -/
def followsBoth (previous next : Nat × Nat) : Bool :=
  next.1 == previous.1 + 1 && next.2 == previous.2 + 1

/-- One descriptor: `count` shares from a block on. -/
def blockCopy (plan : TransferPlan) (localRegion remoteRegion : TransferRegion)
    (block : Nat × Nat) (count : Nat) : Descriptor where
  src := localRegion.baseAddr + block.1 * localRegion.blockLen + plan.srcRegionOffset
  dst := remoteRegion.baseAddr + block.2 * remoteRegion.blockLen + plan.dstRegionOffset
  length := (plan.transferLen * count : Nat)

/-- The copies of one pair of regions. A run of consecutive blocks is one copy if the share
is the whole block. -/
def copyBlocks (plan : TransferPlan) (localRegion remoteRegion : TransferRegion)
    (blocks : List (Nat × Nat)) : List Descriptor :=
  (blocks.splitBy followsBoth).flatMap fun run =>
    if plan.srcRegionOffset = 0 ∧ plan.dstRegionOffset = 0 ∧
        plan.transferLen = localRegion.blockLen ∧ plan.transferLen = remoteRegion.blockLen then
      run.head?.toList.map (blockCopy plan localRegion remoteRegion · run.length)
    else run.map (blockCopy plan localRegion remoteRegion · 1)

namespace ProducerWorker

/-- `_compute_sender_transfer_plan` as the worker calls it. -/
def transferPlan (worker : ProducerWorker) (agent : MooncakeXferMetadata)
    (localRegion remoteRegion : TransferRegion) : Except String TransferPlan :=
  computeSenderTransferPlan worker.tpRank worker.tpSize agent.remoteTpRank agent.remoteTpSize
    localRegion.kvBlockLen remoteRegion.kvBlockLen worker.replicatesKvCache

/-- The descriptors of one pair of regions, for the matched blocks of every group. -/
def regionDescriptors (worker : ProducerWorker) (agent : MooncakeXferMetadata)
    (groups : List (List Nat × List Nat)) (pair : TransferRegion × TransferRegion) :
    Except String (List Descriptor) :=
  let (localRegion, remoteRegion) := pair
  if localRegion.groupIndex ≠ remoteRegion.groupIndex then
    .error "Aligned Mooncake transfer regions must belong to the same KV group."
  else
    match groups[localRegion.groupIndex]? with
    | none => .error "Transfer region references a missing KV group."
    | some (localBlockIds, remoteBlockIds) =>
        if localBlockIds = [] then .ok []
        else do
          let plan ← worker.transferPlan agent localRegion remoteRegion
          if ¬ plan.shouldTransfer then .ok []
          else if localRegion.kvBlockLen < plan.srcRegionOffset + plan.transferLen then
            .error "Computed source transfer region exceeds local KV block size."
          else if remoteRegion.kvBlockLen < plan.dstRegionOffset + plan.transferLen then
            .error "Destination transfer region exceeds remote KV block size."
          else .ok (copyBlocks plan localRegion remoteRegion (localBlockIds.zip remoteBlockIds))

end ProducerWorker

/-- `src_ptrs`, `dst_ptrs` and `lengths`, `err_reqs` and `err_msg`. -/
structure TransferParams where
  descriptors : List Descriptor := []
  errReqs : List ReqId := []
  errMsg : Option String := none
  deriving DecidableEq, Repr

/-- A failed request; the first message stays. -/
def TransferParams.fail (params : TransferParams) (reqId : ReqId) (message : String) :
    TransferParams :=
  let errReqs := params.errReqs ++ [reqId]
  { params with errReqs, errMsg := params.errMsg.orElse fun _ => message }

namespace ProducerWorker

/-- One pass of the loop over the ready requests. -/
def addRequest (worker : ProducerWorker) (agent : MooncakeXferMetadata)
    (pairs : List (TransferRegion × TransferRegion)) (params : TransferParams)
    (ready : ReqId × BlockIds) : Except String TransferParams :=
  match agent.reqBlocks.lookup ready.1 with
  | none => .error ready.1
  | some (_, remoteBlockIds) => do
      match ← worker.planRequest ready.2 remoteBlockIds with
      | .skip => return params
      | .failed message => return params.fail ready.1 message
      | .send groups =>
          let copies ← pairs.mapM (worker.regionDescriptors agent groups)
          return { params with descriptors := params.descriptors ++ copies.flatten }

/-- `_build_transfer_params_sync`. -/
def buildTransferParams (worker : ProducerWorker) (agent : MooncakeXferMetadata)
    (pairs : List (TransferRegion × TransferRegion)) (readyReqs : List (ReqId × BlockIds)) :
    Except String TransferParams :=
  readyReqs.foldlM (worker.addRequest agent pairs) {}

/-! ### The job -/

/-- The `MooncakeXferMetadata` that the job rebuilds. -/
def jobMetadata (job : OpenProducerJob) : MooncakeXferMetadata :=
  { job.metadata with reqBlocks := [(job.dReqId, job.transferId, job.remoteBlockIds)] }

/-- The regions that are not compressed. -/
def IsRaw (worker : ProducerWorker) (region : TransferRegion) : Prop :=
  worker.executionRaw ∨ region.groupIndex ∉ worker.faGroupIndices

instance (worker : ProducerWorker) (region : TransferRegion) : Decidable (worker.IsRaw region) :=
  inferInstanceAs (Decidable (_ ∨ _))

/-- The figures of the session, or the exception on the way. -/
def sessionTokens (worker : ProducerWorker) (job : OpenProducerJob) (remoteIds : BlockIds) :
    Except String TokenCounts :=
  if worker.executionRaw then .ok []
  else
    match job.numTokens with
    | none => .error ""
    | some numTokens => suffixTokenCounts numTokens remoteIds worker.blockSizes

/-- `len(remote_ids[next(iter(self.compression.fa_group_indices))])`, zero if nothing is
compressed. -/
def logicalCount (worker : ProducerWorker) (remoteIds : BlockIds) : Except String Nat :=
  if worker.executionRaw then .ok 0
  else
    match worker.faGroupIndices with
    | [] => .error ""
    | group :: _ =>
        match remoteIds[group]? with
        | none => .error "list index out of range"
        | some ids => .ok ids.length

/-- The pairs of regions and the alignment error. -/
def alignedRegions (worker : ProducerWorker) (job : OpenProducerJob) :
    Except String (List (TransferRegion × TransferRegion) × Option String) := do
  let localRegions ← worker.localRegions
  let remoteRegions ← worker.remoteRegions (jobMetadata job)
  return alignTransferRegions localRegions remoteRegions

/-- The job up to the transfer: the matched blocks, the valid tokens and the descriptors.
The alignment error is not looked at. -/
def planOpen (worker : ProducerWorker) (job : OpenProducerJob) :
    Except String (BlockIds × BlockIds × TokenCounts × List Descriptor) := do
  let (localIds, remoteIds) ← worker.matchCompressionBlocks job.localBlockIds job.remoteBlockIds
  let validTokens ← worker.sessionTokens job remoteIds
  let aligned ← worker.alignedRegions job
  let rawPairs := aligned.1.filter fun pair => worker.IsRaw pair.1
  let params ← worker.buildTransferParams (jobMetadata job) rawPairs
    [(job.dReqId, job.localBlockIds)]
  if params.errReqs ≠ [] then throw (params.errMsg.getD "Raw GDN transfer planning failed.")
  else return (localIds, remoteIds, validTokens, params.descriptors)

/-- The answer, after the transfer. -/
def finishOpen (worker : ProducerWorker) (localIds remoteIds : BlockIds)
    (validTokens : TokenCounts) : Except String JobDone := do
  let logicalBlockCount ← worker.logicalCount remoteIds
  let totalChunks := if worker.executionRaw then 0
    else compressionTotalChunks logicalBlockCount worker.logicalBlocksPerChunk
  -- the counts of a suffix are never negative
  let validTokensByGroup := validTokens.map fun (group, count) => (group, count.toNat)
  return { logicalBlockCount, totalChunks, localBlockIds := localIds, validTokensByGroup }

/-- `_session_job_open_producer`. -/
def sessionJobOpenProducer (worker : ProducerWorker) (codes : Nat → Int) (job : OpenProducerJob) :
    JobRun JobDone :=
  match worker.planOpen job with
  | .error message => { calls := [], result := .error message }
  | .ok (localIds, remoteIds, validTokens, descriptors) =>
      if descriptors = [] then
        { calls := [], result := worker.finishOpen localIds remoteIds validTokens }
      else
        let sent := sendBlocks codes (descriptors.map (·.src)) (descriptors.map (·.dst))
          (descriptors.map (·.length))
        { calls := sent.calls
          result := sent.ret.bind fun result =>
            if result ≠ 0 then .error s!"Mooncake raw transfer returned {result}."
            else worker.finishOpen localIds remoteIds validTokens }

end ProducerWorker

/-! ### Alignment -/

theorem keyedRegions_snd (regions : List TransferRegion) :
    (keyedRegions regions).map Prod.snd = regions := by
  refine List.ext_getElem? fun i => ?_
  rw [keyedRegions, List.getElem?_map, List.getElem?_mapIdx, Option.map_map]
  cases regions[i]? with
  | none => rfl
  | some region => rfl

/-- Without an error every local region has a pair, in order. -/
theorem alignKeyed_fst {remoteKeyed keyed : List ((String × Nat) × TransferRegion)}
    {pairs pairs' : List (TransferRegion × TransferRegion)}
    (h : alignKeyed remoteKeyed false pairs keyed = (pairs', none)) :
    pairs'.map Prod.fst = pairs.map Prod.fst ++ keyed.map Prod.snd := by
  induction keyed generalizing pairs with
  | nil =>
      obtain rfl := (Prod.mk.inj h).1
      simp
  | cons entry rest ih =>
      obtain ⟨key, localRegion⟩ := entry
      rw [alignKeyed] at h
      split at h
      · rw [if_neg (by simp)] at h
        cases h
      · split at h
        · cases h
        · rw [ih h]
          simp

/-! ### Coverage of a region -/

/-- The descriptor copies the share of a block that the plan names. -/
def Descriptor.CopiesShare (d : Descriptor) (plan : TransferPlan)
    (pair : TransferRegion × TransferRegion) (block : Nat × Nat) : Prop :=
  ∃ k : Nat,
    pair.1.baseAddr + block.1 * pair.1.blockLen + plan.srcRegionOffset = d.src + k ∧
    pair.2.baseAddr + block.2 * pair.2.blockLen + plan.dstRegionOffset = d.dst + k ∧
    ((k + plan.transferLen : Nat) : Int) ≤ d.length

theorem run_blocks {run : List (Nat × Nat)} {first : Nat × Nat}
    (h : (first :: run).IsChain fun a b => followsBoth a b = true) {block : Nat × Nat}
    (hblock : block ∈ first :: run) :
    ∃ i < (first :: run).length, block = (first.1 + i, first.2 + i) := by
  induction run generalizing first with
  | nil =>
      obtain rfl := List.mem_singleton.mp hblock
      exact ⟨0, Nat.zero_lt_one, rfl⟩
  | cons next run ih =>
      rcases List.mem_cons.mp hblock with rfl | hblock
      · exact ⟨0, Nat.succ_pos _, rfl⟩
      · obtain ⟨hnext, hrun⟩ := List.isChain_cons_cons.mp h
        obtain ⟨i, hi, rfl⟩ := ih hrun hblock
        simp only [followsBoth, Bool.and_eq_true, beq_iff_eq] at hnext
        refine ⟨i + 1, Nat.succ_lt_succ hi, ?_⟩
        rw [hnext.1, hnext.2]
        simp only [Prod.mk.injEq]
        omega

/-- **Every matched block is in a descriptor.** -/
theorem copyBlocks_covers {plan : TransferPlan} {pair : TransferRegion × TransferRegion}
    {blocks : List (Nat × Nat)} {block : Nat × Nat} (h : block ∈ blocks) :
    ∃ d ∈ copyBlocks plan pair.1 pair.2 blocks, d.CopiesShare plan pair block := by
  rw [← List.flatten_splitBy followsBoth blocks] at h
  obtain ⟨run, hrun, hblock⟩ := List.mem_flatten.mp h
  have hchain := List.isChain_of_mem_splitBy hrun
  by_cases hcoalesce : plan.srcRegionOffset = 0 ∧ plan.dstRegionOffset = 0 ∧
      plan.transferLen = pair.1.blockLen ∧ plan.transferLen = pair.2.blockLen
  · -- one descriptor for the run
    obtain ⟨first, rest, rfl⟩ := List.exists_cons_of_ne_nil (List.ne_nil_of_mem hblock)
    obtain ⟨i, hi, rfl⟩ := run_blocks hchain hblock
    refine ⟨blockCopy plan pair.1 pair.2 first (first :: rest).length, ?_, i * plan.transferLen,
      ?_, ?_, ?_⟩
    · refine List.mem_flatMap.mpr ⟨_, hrun, ?_⟩
      rw [if_pos hcoalesce]
      exact List.mem_singleton_self _
    · simp only [blockCopy, hcoalesce.2.2.1]
      ring
    · rw [hcoalesce.2.2.2]
      simp only [blockCopy]
      ring
    · rw [blockCopy, ← Nat.succ_mul, Nat.mul_comm]
      exact Int.ofNat_le.mpr (Nat.mul_le_mul_left _ hi)
  · refine ⟨blockCopy plan pair.1 pair.2 block 1, ?_, 0, rfl, rfl, ?_⟩
    · refine List.mem_flatMap.mpr ⟨_, hrun, ?_⟩
      rw [if_neg hcoalesce]
      exact List.mem_map_of_mem hblock
    · simp [blockCopy]

namespace ProducerWorker

variable {worker : ProducerWorker} {codes : Nat → Int} {job : OpenProducerJob}
  {groups : List (List Nat × List Nat)}
  {pair : TransferRegion × TransferRegion}

/-! ### Successful jobs -/

/-- What a job that returns without an exception has planned. -/
theorem planOpen_cases {localIds remoteIds : BlockIds} {validTokens : TokenCounts}
    {descriptors : List Descriptor}
    (h : worker.planOpen job = .ok (localIds, remoteIds, validTokens, descriptors)) :
    ∃ aligned, worker.alignedRegions job = .ok aligned ∧
      (worker.planRequest job.localBlockIds job.remoteBlockIds = .ok .skip ∨
        ∃ groups copies, worker.planRequest job.localBlockIds job.remoteBlockIds =
            .ok (.send groups) ∧
          (aligned.1.filter fun pair => worker.IsRaw pair.1).mapM
            (worker.regionDescriptors (jobMetadata job) groups) = .ok copies ∧
          descriptors = copies.flatten) := by
  obtain ⟨matched, -, h⟩ := bind_eq_ok.mp h
  obtain ⟨tokens, -, h⟩ := bind_eq_ok.mp h
  obtain ⟨aligned, haligned, h⟩ := bind_eq_ok.mp h
  obtain ⟨params, hparams, h⟩ := bind_eq_ok.mp h
  refine ⟨aligned, haligned, ?_⟩
  rw [buildTransferParams, List.foldlM_cons] at hparams
  obtain ⟨params', hadd, hparams⟩ := bind_eq_ok.mp hparams
  obtain rfl : params' = params := Except.ok.inj hparams
  rw [addRequest, jobMetadata, List.lookup_cons, beq_self_eq_true] at hadd
  obtain ⟨plan, hplan, hadd⟩ := bind_eq_ok.mp hadd
  cases plan with
  | skip => exact .inl hplan
  | failed message =>
      -- the request is in `err_reqs`, so the job raises
      obtain rfl := Except.ok.inj hadd
      rw [if_pos (by simp [TransferParams.fail])] at h
      cases h
  | send groups =>
      obtain ⟨copies, hcopies, hadd⟩ := bind_eq_ok.mp hadd
      obtain rfl := Except.ok.inj hadd
      rw [if_neg (by simp)] at h
      cases h
      exact .inr ⟨groups, copies, hplan, hcopies, List.nil_append _⟩

/-- After a successful job every planned descriptor is in a call that returned 0. -/
theorem sessionJobOpenProducer_ok {done : JobDone}
    (h : (worker.sessionJobOpenProducer codes job).result = .ok done) :
    ∃ localIds remoteIds validTokens descriptors,
      worker.planOpen job = .ok (localIds, remoteIds, validTokens, descriptors) ∧
      ((∀ d ∈ descriptors, 0 ≤ d.length) → ∀ d ∈ descriptors,
        ∃ call ∈ (worker.sessionJobOpenProducer codes job).calls, call.code = 0 ∧
          d ∈ call.batch) := by
  rw [sessionJobOpenProducer] at h ⊢
  cases hplan : worker.planOpen job with
  | error message =>
      rw [hplan] at h
      cases h
  | ok planned =>
      obtain ⟨localIds, remoteIds, validTokens, descriptors⟩ := planned
      refine ⟨localIds, remoteIds, validTokens, descriptors, rfl, fun hnonneg d hd => ?_⟩
      rw [hplan] at h
      dsimp only at h ⊢
      rw [if_neg (List.ne_nil_of_mem hd)] at h ⊢
      rw [sendBlocks_descriptors] at h ⊢
      obtain ⟨hflat, hzero, hfail⟩ := @sendLoop_spec codes 0 descriptors hnonneg
      by_cases hall : ∀ i < (planBatches descriptors).length, codes (0 + i) = 0
      · obtain ⟨hcalls, -⟩ := hzero hall
        obtain ⟨batch, hbatch, hmem⟩ := List.mem_flatten.mp (hflat.symm ▸ hd)
        rw [hcalls]
        exact ⟨⟨batch, 0⟩, List.mem_map_of_mem hbatch, rfl, hmem⟩
      · obtain ⟨call, -, hcode, hret⟩ := hfail hall
        rw [hret] at h
        dsimp only [Except.bind] at h
        rw [if_pos hcode] at h
        cases h

/-- What the descriptors of a pair of regions are. -/
theorem regionDescriptors_cases {agent : MooncakeXferMetadata} {copies : List Descriptor}
    (h : worker.regionDescriptors agent groups pair = .ok copies) :
    ∃ ids remoteIds, groups[pair.1.groupIndex]? = some (ids, remoteIds) ∧
      (ids = [] ∧ copies = [] ∨ ∃ plan, worker.transferPlan agent pair.1 pair.2 = .ok plan ∧
        copies = if plan.shouldTransfer then copyBlocks plan pair.1 pair.2 (ids.zip remoteIds)
          else []) := by
  rw [regionDescriptors] at h
  split at h
  · cases h
  · split at h
    · cases h
    · rename_i ids remoteIds hget
      refine ⟨ids, remoteIds, hget, ?_⟩
      split at h
      · exact .inl ⟨‹_›, (Except.ok.inj h).symm⟩
      · obtain ⟨plan, hplan, h⟩ := bind_eq_ok.mp h
        refine .inr ⟨plan, hplan, ?_⟩
        by_cases hsend : plan.shouldTransfer
        · rw [if_neg (by simpa using hsend)] at h
          rw [if_pos hsend]
          split at h
          · cases h
          · split at h
            · cases h
            · exact (Except.ok.inj h).symm
        · rw [if_pos hsend] at h
          rw [if_neg hsend]
          exact (Except.ok.inj h).symm

theorem copyBlocks_nonneg {plan : TransferPlan} {localRegion remoteRegion : TransferRegion}
    {blocks : List (Nat × Nat)} {d : Descriptor}
    (h : d ∈ copyBlocks plan localRegion remoteRegion blocks) : 0 ≤ d.length := by
  obtain ⟨run, -, hd⟩ := List.mem_flatMap.mp h
  split at hd
  · obtain ⟨block, -, rfl⟩ := List.mem_map.mp hd
    exact Int.natCast_nonneg _
  · obtain ⟨block, -, rfl⟩ := List.mem_map.mp hd
    exact Int.natCast_nonneg _

/-- One compressed attention layer and one raw recurrent layer. -/
def hybrid : ProducerWorker where
  executionRaw := false
  faGroupIndices := [0]
  blockSizes := [(0, 4)]
  logicalBlocksPerChunk := 1
  mambaGroups := [false, true]
  transferGroupIndexByLayer := [("attn", 0), ("gdn", 1)]
  physicalBlocksPerLogical := 1
  blockTable :=
    { mapToKernelBlocks := fun blockIds n =>
        blockIds.flatMap fun block => (List.range n).map (block * n + ·)
      expands := fun _ _ => rfl }
  tpRank := 0
  tpSize := 1
  replicatesKvCache := false
  kvCachesBaseAddr := [1000, 2000]
  blockLenPerLayer := [64, 32]
  kvBlockLenPerLayer := [64, 32]
  registeredLayerNames := ["attn", "gdn"]
  registeredLayerIndices := [0, 1]
  registeredGroupIndices := [0, 1]

/-- A request with one block in each group, for a consumer that registered the first
`layers` layers. -/
def hybridJob (layers : Nat) : OpenProducerJob where
  transferId := "t"
  dReqId := "d"
  nonce := "n"
  localBlockIds := [[1], [2]]
  remoteBlockIds := [[3], [4]]
  numTokens := some 4
  «metadata» :=
    { remoteHostname := "h", remotePort := 1, remoteTpSize := 1, remoteTpRank := 0
      reqBlocks := [("d", "t", [[3], [4]])]
      kvCachesBaseAddr := [5000, 6000].take layers, blockLens := [64, 32].take layers
      kvBlockLens := [64, 32].take layers, registeredLayerNames := ["attn", "gdn"].take layers
      registeredLayerIndices := [0, 1].take layers
      registeredGroupIndices := [0, 1].take layers }

end ProducerWorker

end KVServe.Engine

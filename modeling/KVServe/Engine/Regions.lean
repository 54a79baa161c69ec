import KVServe.Session.Protocol

/-!
# KVServe.Engine.Regions

**Transfer regions** of a Mooncake connector: the KV tensors that a worker registered, their
alignment by layer name with the tensors of the other side, the check of their lengths, and
the share of a block that one producer rank copies to one consumer rank when the tensor
parallel sizes differ.
-/

namespace KVServe.Engine

open KVServe.Session

structure TransferRegion where
  layerName : String
  layerIndex : Nat
  baseAddr : Nat
  blockLen : Nat
  kvBlockLen : Nat
  groupIndex : Nat := 0
  deriving DecidableEq, Repr

/-! ### Tensor parallel sizes -/

/-- `_get_tp_ratio`: positive if a producer rank is part of a larger consumer region,
negative if it holds the regions of several consumer ranks. -/
def getTpRatio (localTpSize remoteTpSize : Nat) : Except String Int :=
  if remoteTpSize ≤ localTpSize then
    if remoteTpSize = 0 then .error "integer modulo by zero"
    else if localTpSize % remoteTpSize ≠ 0 then
      .error (s!"Local tensor parallel size {localTpSize} is not divisible " ++
        s!"by remote tensor parallel size {remoteTpSize}.")
    else .ok (localTpSize / remoteTpSize : Nat)
  else if localTpSize = 0 then .error "integer modulo by zero"
  else if remoteTpSize % localTpSize ≠ 0 then
    .error (s!"Remote tensor parallel size {remoteTpSize} is not divisible " ++
      s!"by local tensor parallel size {localTpSize}.")
  else .ok (-(remoteTpSize / localTpSize : Nat))

/-- The result of `_compute_sender_transfer_plan`. -/
structure TransferPlan where
  shouldTransfer : Bool
  srcRegionOffset : Nat
  dstRegionOffset : Nat
  transferLen : Nat
  deriving DecidableEq, Repr

/-- The plan when one side holds replicas and the other does not, by KV head. -/
def headTransferPlan (localTpRank localTpSize remoteTpRank remoteTpSize localKvBlockLen
    totalNumKvHeads : Nat) : Except String TransferPlan :=
  if totalNumKvHeads = 0 then .error "integer division or modulo by zero"
  else
    let localHeadCount := max (totalNumKvHeads / localTpSize) 1
    let localReplicaCount := max (localTpSize / totalNumKvHeads) 1
    let localHead := localTpRank * totalNumKvHeads / localTpSize
    let remoteHead := remoteTpRank * totalNumKvHeads / remoteTpSize
    let bytesPerHead := localKvBlockLen / localHeadCount
    .ok ⟨localTpRank % localReplicaCount == 0, (remoteHead - localHead) * bytesPerHead,
      (localHead - remoteHead) * bytesPerHead, bytesPerHead⟩

/-- The plan by the ratio of the sizes. -/
def ratioTransferPlan (tpRatio : Int) (localTpRank remoteTpRank localKvBlockLen
    remoteKvBlockLen : Nat) (producerCacheReplicated : Bool) : TransferPlan :=
  if 0 < tpRatio then
    if producerCacheReplicated then
      ⟨localTpRank % tpRatio.toNat == 0, 0, 0, localKvBlockLen⟩
    else ⟨true, 0, localTpRank % tpRatio.toNat * localKvBlockLen, localKvBlockLen⟩
  else if producerCacheReplicated then ⟨true, 0, 0, localKvBlockLen⟩
  else
    let ratioAbs := (-tpRatio).toNat
    ⟨true, remoteTpRank % ratioAbs * remoteKvBlockLen, 0, remoteKvBlockLen⟩

/-- `_compute_sender_transfer_plan`. -/
def computeSenderTransferPlan (localTpRank localTpSize remoteTpRank remoteTpSize localKvBlockLen
    remoteKvBlockLen : Nat) (producerCacheReplicated : Bool)
    (totalNumKvHeads : Option Nat := none) : Except String TransferPlan :=
  match getTpRatio localTpSize remoteTpSize with
  | .error message => .error message
  | .ok tpRatio =>
      if tpRatio = 1 then .ok ⟨true, 0, 0, localKvBlockLen⟩
      else
        let byRatio := .ok (ratioTransferPlan tpRatio localTpRank remoteTpRank localKvBlockLen
          remoteKvBlockLen producerCacheReplicated)
        match totalNumKvHeads with
        | some total =>
            if producerCacheReplicated ≠ decide (total < remoteTpSize) then
              headTransferPlan localTpRank localTpSize remoteTpRank remoteTpSize localKvBlockLen
                total
            else byRatio
        | none => byRatio

/-! ### Length check -/

/-- The check of one pair of regions. -/
def regionLengthError (tpRatio : Int) (index : Nat) (localRegion remoteRegion : TransferRegion) :
    Option String :=
  if tpRatio = 1 then
    if localRegion.kvBlockLen ≠ remoteRegion.kvBlockLen then
      some ("Mooncake KV region length mismatch for homogeneous TP at " ++
        s!"region {index}: local={localRegion.kvBlockLen}, remote={remoteRegion.kvBlockLen}.")
    else none
  else if 0 < tpRatio then
    if (remoteRegion.kvBlockLen : Int) ≠ localRegion.kvBlockLen * tpRatio then
      some ("Mooncake destination KV region length does not match the producer TP ratio at " ++
        s!"region {index}: local={localRegion.kvBlockLen}, " ++
        s!"remote={remoteRegion.kvBlockLen}, tp_ratio={tpRatio}.")
    else none
  else if (localRegion.kvBlockLen : Int) ≠ remoteRegion.kvBlockLen * -tpRatio then
    some ("Mooncake source KV region length does not match the consumer TP ratio at " ++
      s!"region {index}: local={localRegion.kvBlockLen}, " ++
      s!"remote={remoteRegion.kvBlockLen}, tp_ratio={tpRatio}.")
  else none

/-- The first error over all pairs. -/
def regionLengthErrors (tpRatio : Int) (localRegions remoteRegions : List TransferRegion) :
    Option String :=
  (localRegions.zip remoteRegions).zipIdx.findSome? fun (pair, index) =>
    regionLengthError tpRatio index pair.1 pair.2

/-- `_validate_asymmetric_region_lengths`. -/
def validateAsymmetricRegionLengths (localRegions remoteRegions : List TransferRegion)
    (localTpSize remoteTpSize : Nat) (producerCacheReplicated : Bool)
    (totalNumKvHeads : Option Nat := none) : Except String (Option String) :=
  if localRegions.length ≠ remoteRegions.length then
    .ok (some ("Mooncake asymmetric TP requires matching KV region counts between " ++
      "producer and consumer."))
  else
    match totalNumKvHeads with
    | some total =>
        (getTpRatio (min localTpSize total) (min remoteTpSize total)).map
          (regionLengthErrors · localRegions remoteRegions)
    | none =>
        if producerCacheReplicated then .ok none
        else (getTpRatio localTpSize remoteTpSize).map
          (regionLengthErrors · localRegions remoteRegions)

/-! ### Alignment -/

/-- `keyed_regions`: each region with its layer name and the number of earlier regions of
that layer. -/
def keyedRegions (regions : List TransferRegion) : List ((String × Nat) × TransferRegion) :=
  regions.mapIdx fun index region =>
    ((region.layerName, (regions.take index).countP (·.layerName = region.layerName)), region)

/-- What is wrong with a pair of regions of one key. -/
def pairError (localRegion remoteRegion : TransferRegion) : Option String :=
  if localRegion.layerIndex ≠ remoteRegion.layerIndex then
    some ("Mooncake registered layer index mismatch for " ++
      s!"{localRegion.layerName}: producer={localRegion.layerIndex}, " ++
      s!"consumer={remoteRegion.layerIndex}.")
  else if localRegion.groupIndex ≠ remoteRegion.groupIndex then
    some ("Mooncake registered group index mismatch for " ++
      s!"{localRegion.layerName}: producer={localRegion.groupIndex}, " ++
      s!"consumer={remoteRegion.groupIndex}.")
  else none

/-- The loop of `_align_transfer_regions`, with the pairs found so far. -/
def alignKeyed (remoteKeyed : List ((String × Nat) × TransferRegion)) (allowPartialLayers : Bool)
    (pairs : List (TransferRegion × TransferRegion)) :
    List ((String × Nat) × TransferRegion) → List (TransferRegion × TransferRegion) × Option String
  | [] => (pairs, none)
  | (key, localRegion) :: rest =>
      match remoteKeyed.lookup key with
      | none =>
          if allowPartialLayers ∧ (remoteKeyed.lookup (localRegion.layerName, 0)).isNone then
            alignKeyed remoteKeyed allowPartialLayers pairs rest
          else ([], some ("Mooncake producer registered layer has no matching " ++
            s!"consumer occurrence: {key.1} occurrence {key.2}."))
      | some remoteRegion =>
          match pairError localRegion remoteRegion with
          | some message => ([], some message)
          | none => alignKeyed remoteKeyed allowPartialLayers
              (pairs ++ [(localRegion, remoteRegion)]) rest

/-- `_align_transfer_regions`: the pairs of regions, or none and the error. -/
def alignTransferRegions (localRegions remoteRegions : List TransferRegion)
    (allowPartialLayers : Bool := false) :
    List (TransferRegion × TransferRegion) × Option String :=
  alignKeyed (keyedRegions remoteRegions) allowPartialLayers [] (keyedRegions localRegions)

end KVServe.Engine

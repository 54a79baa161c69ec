import KVServe.Runtime.Placement
import Mathlib.Algebra.BigOperators.Group.Finset.Basic
import Mathlib.Data.Finset.Dedup

/-!
# KVServe.Runtime.Memory

`build_memory_plan` adds up the bytes of the runtime, `CompressionRuntime.__init__` cuts
them out of one buffer with a `_PoolCarver`. **The plan covers the carver:** every piece is
aligned, whole and apart from the others, and the buffer is within the reservation.
-/

namespace KVServe.Runtime

/-! ### Planning -/

/-- `HeadSelection`: the number of low-precision heads and the head order of each layer. -/
structure HeadSelection where
  lowCounts : List (Nat × Nat)
  localOrders : List (Nat × List Nat)

/-- What the sizing run of the codec observes: the peak of its live workspace bytes, the
largest output for an input size, and the driver memory that stays allocated. -/
structure Probe where
  peakBytes : Nat
  maxCompBufferSize : Nat → Nat
  retained : Nat

/-- `CompressionMemoryPlan`. -/
structure CompressionMemoryPlan where
  config : CompressionConfig
  layout : CompressionLayout
  headSelection : HeadSelection
  codecWorkspaceBytes : Nat
  codecMaxOutputBytes : Nat × Nat
  blocksPerLogical : Nat
  metadataBytes : Nat
  retainedDriverBytes : Nat
  guardBytes : Nat
  reservedBytes : Nat

/-- What `build_memory_plan` raises of its own. -/
inductive PlanError
  | layout (e : LayoutError)
  | wholeBlocks
  | zeroDivision
  deriving DecidableEq, Repr

/-- `DRIVER_GUARD_BYTES`. -/
def driverGuardBytes : Nat := 4 * 2 ^ 20

/-- `_probe_operators`, for the sizes `layout.packed_bytes_by_part`. -/
def probeOperators (probe : Probe) (layout : CompressionLayout) : Nat × (Nat × Nat) × Nat :=
  let maxOutput := max (probe.maxCompBufferSize (layout.packedBytesByPart .key))
    (probe.maxCompBufferSize (layout.packedBytesByPart .value))
  (roundUp probe.peakBytes alignment, (maxOutput, maxOutput), probe.retained)

/-- The values of `{part.layer_name: part for part in layer_parts}`. -/
def uniqueLayers (parts : List LayerPartLayout) : List LayerPartLayout :=
  parts.pwFilter fun p q => p.layerName ≠ q.layerName

/-- The number of rows of `block_indices`. -/
def numIndexRows (layout : CompressionLayout) : Nat :=
  max (max layout.indexRowsByGroup.length
    (layout.layerParts.map (·.layerName)).dedup.length) 1

/-- `sign_bytes`. -/
def signBytes (transformer : Bool) (layout : CompressionLayout) : Nat :=
  if transformer then
    (layout.layerParts.map fun p => roundUp (p.numHeads * p.headSize * 2) alignment).sum
  else 0

/-- `order_bytes`. -/
def orderBytes (layout : CompressionLayout) : Nat :=
  ((uniqueLayers layout.layerParts).map fun p => roundUp (p.numHeads * 8) alignment).sum

/-- `arena_b_bytes`. -/
def arenaBBytes (cfg : CompressionConfig) (layout : CompressionLayout) : Nat :=
  if cfg.usesAggregate then 0 else layout.arenaBytes

/-- `slot_bytes`. -/
def slotBytes (cfg : CompressionConfig) (layout : CompressionLayout) : Nat :=
  layout.arenaBytes + arenaBBytes cfg layout + layout.auxArenaBytes + layout.rawTailCapacity

/-- `metadata_bytes`: every slot has its own signs and head orders. -/
def metadataBytes (cfg : CompressionConfig) (layout : CompressionLayout)
    (blocksPerLogical : Nat) : Nat :=
  let shared := signBytes cfg.usesTransformer layout + orderBytes layout
  shared + cfg.slotCount * roundUp
      (numIndexRows layout * cfg.logicalBlocksPerChunk * blocksPerLogical * 8) alignment +
    (cfg.slotCount - 1) * shared

/-- The configuration that is planned for: without a quantizer heads are not split. -/
def planningConfig (cfg : CompressionConfig) : CompressionConfig :=
  if cfg.pipeline.contains .quantizer then cfg else { cfg with splitType := .layer }

/-- The plan for a layout and the figures of the codec; each slot has a workspace. -/
def planOf (cfg : CompressionConfig) (selection : HeadSelection) (blocksPerLogical : Nat)
    (layout : CompressionLayout) (workspace : Nat) (maxOutputs : Nat × Nat) (retained : Nat) :
    CompressionMemoryPlan :=
  let workspace := if cfg.usesCodec then workspace * cfg.slotCount else workspace
  let retained := if cfg.usesCodec then retained * cfg.slotCount else retained
  let metadata := metadataBytes cfg layout blocksPerLogical
  { config := cfg, layout, headSelection := selection, codecWorkspaceBytes := workspace,
    codecMaxOutputBytes := maxOutputs, blocksPerLogical, metadataBytes := metadata,
    retainedDriverBytes := retained, guardBytes := driverGuardBytes,
    reservedBytes := roundUp (cfg.slotCount * slotBytes cfg layout + workspace + metadata +
      retained + driverGuardBytes) alignment }

/-- The figures of the codec (workspace, largest outputs, retained memory), or zeros. -/
def codecFigures (cfg : CompressionConfig) (probe : Probe) (layout : CompressionLayout) :
    Nat × (Nat × Nat) × Nat :=
  if cfg.usesCodec then probeOperators probe layout else (0, (0, 0), 0)

/-- What follows `build_compression_layout` in `build_memory_plan`. -/
def finishPlan (cfg : CompressionConfig) (probe : Probe) (selection : HeadSelection)
    (blocksPerLogical : Nat) (layout : CompressionLayout) :
    Except PlanError CompressionMemoryPlan :=
  let figures := codecFigures cfg probe layout
  let arena := roundUp (max layout.arenaBytes (max figures.2.1.1 figures.2.1.2)) alignment
  if blocksPerLogical = 0 then .error .zeroDivision
  else if layout.layerParts.any fun p => p.blockSize % blocksPerLogical ≠ 0 then
    .error .wholeBlocks
  else .ok (planOf cfg selection blocksPerLogical { layout with arenaBytes := arena } figures.1
    figures.2.1 figures.2.2)

/-- `build_memory_plan`; `select` is `build_head_selection` at the scores and rank of the
worker, `numLayers` is `0` when it is not given. -/
def buildMemoryPlan (cfg : CompressionConfig) (specs : Specs)
    (select : CompressionConfig → Except PlanError HeadSelection) (probe : Probe)
    (blocksPerLogical numLayers : Nat) : Except PlanError (Option CompressionMemoryPlan) :=
  if cfg.enabled then do
    let selection ← select (planningConfig cfg)
    let numLayers := if numLayers = 0 then
        (selection.lowCounts.map fun e => e.1 + 1).foldr max 0
      else numLayers
    match buildCompressionLayout specs (planningConfig cfg) (selection.lowCounts.lookup ·)
        numLayers with
    | .error e => .error (.layout e)
    | .ok layout => some <$> finishPlan cfg probe selection blocksPerLogical layout
  else .ok none

/-! ### Carving -/

/-- `_PoolCarver.take`: the slice and the offset after it. A slice past the end of the
buffer is shorter. -/
def poolTake (size offset nbytes : Nat) : Span × Nat :=
  let start := roundUp offset alignment
  let stop := start + nbytes
  (⟨min start size, min stop size - min start size⟩, stop)

/-- The slices for a sequence of requests. -/
def carve (size : Nat) : (offset : Nat) → (requests : List Nat) → List (Nat × Span)
  | _, [] => []
  | offset, nbytes :: rest =>
      let (slice, offset) := poolTake size offset nbytes
      (nbytes, slice) :: carve size offset rest

namespace CompressionMemoryPlan

variable (plan : CompressionMemoryPlan)

/-- `fixed_bytes`. -/
def fixedBytes : Nat :=
  plan.config.slotCount * slotBytes plan.config plan.layout + plan.codecWorkspaceBytes +
    plan.metadataBytes

/-- The pieces of a slot: both arenas, the auxiliary rows, the raw tail and the ids. -/
def slotTakes (blocksPerLogical : Nat) : List Nat :=
  [plan.layout.arenaBytes, arenaBBytes plan.config plan.layout, plan.layout.auxArenaBytes,
    plan.layout.rawTailCapacity,
    plan.config.logicalBlocksPerChunk * blocksPerLogical * numIndexRows plan.layout * 8]

/-- The head orders and signs of one pipeline; `orders` are the layers seen before. -/
def metadataTakes (transformer : Bool) : (orders : List String) → List LayerPartLayout → List Nat
  | _, [] => []
  | orders, p :: rest =>
      (if p.layerName ∈ orders then [] else [p.numHeads * 8]) ++
        (if transformer then [p.numHeads * p.headSize * 2] else []) ++
        metadataTakes transformer (p.layerName :: orders) rest

/-- Every request `CompressionRuntime.__init__` makes, in order. -/
def takes (blocksPerLogical : Nat) : List Nat :=
  let slots := List.range plan.config.slotCount
  (slots.flatMap fun _ => plan.slotTakes blocksPerLogical) ++
    (if plan.config.usesCodec then
      slots.map fun _ => plan.codecWorkspaceBytes / plan.config.slotCount else []) ++
    slots.flatMap fun _ =>
      metadataTakes plan.config.usesTransformer [] plan.layout.layerParts

end CompressionMemoryPlan

/-! ### The carver -/

/-- What the carver hands out when the buffer is large enough for the rounded requests. -/
structure Carved (size : Nat) (pieces : List (Nat × Span)) : Prop where
  whole : ∀ piece ∈ pieces, piece.2.size = piece.1
  within : ∀ piece ∈ pieces, piece.2.Within size
  aligned : ∀ piece ∈ pieces, alignment ∣ piece.2.start
  disjoint : (pieces.map Prod.snd).Pairwise Span.Disjoint

/-- One piece for each request, in the order of the requests. -/
theorem carve_fst (size offset : Nat) (requests : List Nat) :
    (carve size offset requests).map Prod.fst = requests := by
  induction requests generalizing offset with
  | nil => rfl
  | cons nbytes rest ih => rw [carve, List.map_cons, ih]

/-- A cursor that never passes the end cuts nothing off. -/
theorem carve_placed {size e : Nat} {requests : List Nat} {offset : Nat} {spans : List Span}
    (h : Placed alignment offset spans e) (hspans : spans.map Span.size = requests)
    (he : e ≤ size) : carve size offset requests = spans.map fun s => (s.size, s) := by
  induction h generalizing requests with
  | nil =>
      cases hspans
      rfl
  | @cons c n spans e htail ih =>
      cases hspans
      have hle : roundUp c alignment + n ≤ size := Nat.le_trans (htail.le alignment_pos) he
      have hstart : min (roundUp c alignment) size = roundUp c alignment := by omega
      have hstop : min (roundUp c alignment + n) size = roundUp c alignment + n := by omega
      simp only [List.map_cons, carve, poolTake, hstart, hstop, Nat.add_sub_cancel_left]
      rw [ih rfl he]

/-- The ranges of a sequence of requests in a buffer without end. -/
theorem exists_placed (requests : List Nat) (offset : Nat) :
    ∃ spans e, Placed alignment offset spans e ∧ spans.map Span.size = requests := by
  induction requests generalizing offset with
  | nil => exact ⟨[], offset, .nil _, rfl⟩
  | cons n rest ih =>
      obtain ⟨spans, e, hplaced, hspans⟩ := ih (roundUp offset alignment + n)
      exact ⟨_, e, .cons hplaced, by rw [List.map_cons, hspans]⟩

/-- **Enough bytes for the rounded requests are enough.** -/
theorem carve_carved {size : Nat} {requests : List Nat}
    (h : (requests.map (roundUp · alignment)).sum ≤ size) :
    Carved size (carve size 0 requests) := by
  obtain ⟨spans, e, hplaced, rfl⟩ := exists_placed requests 0
  have he : e ≤ size := by
    have hsum := hplaced.le_sum alignment_pos (Nat.dvd_zero _)
    rw [List.map_map] at h
    rw [Nat.zero_add] at hsum
    exact Nat.le_trans hsum h
  rw [carve_placed hplaced rfl he]
  refine ⟨?_, ?_, ?_, ?_⟩
  · intro piece hpiece
    obtain ⟨s, _, rfl⟩ := List.mem_map.mp hpiece
    rfl
  · intro piece hpiece
    obtain ⟨s, hs, rfl⟩ := List.mem_map.mp hpiece
    exact Nat.le_trans (hplaced.bounds alignment_pos hs).2 he
  · intro piece hpiece
    obtain ⟨s, hs, rfl⟩ := List.mem_map.mp hpiece
    exact hplaced.aligned hs
  · rw [List.map_map]
    exact (List.map_id spans).symm ▸ hplaced.pairwise alignment_pos

/-! ### The bytes of the requests -/

section Metadata

variable {parts : List LayerPartLayout} {heads : String → Nat}

/-- The order rows that are requested: one for each layer not seen before. -/
theorem sum_orders (hheads : ∀ p ∈ parts, p.numHeads = heads p.layerName) (orders : List String) :
    ((CompressionMemoryPlan.metadataTakes false orders parts).map (roundUp · alignment)).sum =
      ∑ name ∈ (parts.map (·.layerName)).toFinset \ orders.toFinset,
        roundUp (heads name * 8) alignment := by
  induction parts generalizing orders with
  | nil => simp [CompressionMemoryPlan.metadataTakes]
  | cons p rest ih =>
      have htail := ih (fun q hq => hheads q (List.mem_cons_of_mem _ hq)) (p.layerName :: orders)
      simp only [CompressionMemoryPlan.metadataTakes, Bool.false_eq_true, if_false,
        List.append_nil, List.map_append, List.sum_append, htail, List.map_cons,
        List.toFinset_cons]
      by_cases hp : p.layerName ∈ orders
      · rw [if_pos hp, List.map_nil, List.sum_nil, Nat.zero_add]
        refine Finset.sum_congr ?_ fun _ _ => rfl
        ext name
        simp only [Finset.mem_sdiff, Finset.mem_insert, List.mem_toFinset]
        grind
      · rw [if_neg hp, List.map_singleton, List.sum_singleton, hheads p List.mem_cons_self]
        have hnot : p.layerName ∉ (rest.map (·.layerName)).toFinset \
            insert p.layerName orders.toFinset := by simp
        rw [← Finset.sum_insert (f := fun name => roundUp (heads name * 8) alignment) hnot]
        refine Finset.sum_congr ?_ fun _ _ => rfl
        ext name
        simp only [Finset.mem_sdiff, Finset.mem_insert, List.mem_toFinset]
        grind

/-- The signs are requested besides. -/
theorem sum_metadataTakes (transformer : Bool) (orders : List String) :
    ((CompressionMemoryPlan.metadataTakes transformer orders parts).map
        (roundUp · alignment)).sum =
      ((CompressionMemoryPlan.metadataTakes false orders parts).map (roundUp · alignment)).sum +
        if transformer then
          (parts.map fun p => roundUp (p.numHeads * p.headSize * 2) alignment).sum
        else 0 := by
  induction parts generalizing orders with
  | nil => cases transformer <;> rfl
  | cons p rest ih =>
      cases transformer with
      | false => simp
      | true =>
          simp only [CompressionMemoryPlan.metadataTakes, List.map_append, List.sum_append,
            ih, List.map_cons, List.sum_cons, if_true, Bool.false_eq_true, if_false,
            List.map_nil, List.sum_nil]
          omega

/-- The order rows that are planned: one for each layer. -/
theorem sum_uniqueLayers (hheads : ∀ p ∈ parts, p.numHeads = heads p.layerName) :
    ((uniqueLayers parts).map fun p => roundUp (p.numHeads * 8) alignment).sum =
      ∑ name ∈ (parts.map (·.layerName)).toFinset, roundUp (heads name * 8) alignment := by
  have hnodup : ((uniqueLayers parts).map (·.layerName)).Nodup :=
    List.pairwise_map.mpr (List.pairwise_pwFilter _)
  have hmem : ((uniqueLayers parts).map (·.layerName)).toFinset =
      (parts.map (·.layerName)).toFinset := by
    ext name
    simp only [List.mem_toFinset, List.mem_map]
    constructor
    · rintro ⟨p, hp, rfl⟩
      exact ⟨p, List.pwFilter_subset _ hp, rfl⟩
    · rintro ⟨p, hp, rfl⟩
      by_contra hne
      push Not at hne
      have hall := (List.forall_mem_pwFilter (R := fun p q : LayerPartLayout =>
        p.layerName ≠ q.layerName) (a := p) (l := parts) (by
          intro x y z hxz
          by_cases hxy : x.layerName = y.layerName
          · exact .inr fun hyz => hxz (hxy.trans hyz)
          · exact .inl hxy)).mp (fun q hq heq => hne q hq heq.symm)
      exact hall p hp rfl
  rw [← hmem, List.sum_toFinset _ hnodup, List.map_map]
  refine congrArg List.sum (List.map_congr_left fun p hp => ?_)
  rw [hheads p (List.pwFilter_subset _ hp)]
  rfl

end Metadata

theorem sum_flatMap_range (n : Nat) (l : List Nat) (f : Nat → Nat) :
    (((List.range n).flatMap fun _ => l).map f).sum = n * (l.map f).sum := by
  induction n with
  | zero => simp
  | succ n ih =>
      rw [List.range_succ, List.flatMap_append, List.map_append, List.sum_append, ih,
        Nat.succ_mul]
      simp

/-! ### The plan covers the carver -/

section Plan

variable {cfg : CompressionConfig} {low : Nat → Option Nat} {layers : Nat}
  {groups : String → Option Nat} {specs : Specs} {layout : CompressionLayout} {B : Nat}
  {keys values : Offsets}

theorem Construction.dvd_auxArena
    (h : Construction specs cfg low layers groups layout B keys values) :
    alignment ∣ layout.auxArenaBytes := by
  rw [h.assembled]
  simp only [assembleLayout]
  split
  · exact Nat.dvd_zero _
  · refine Nat.dvd_mul_left_of_dvd ?_ 2
    rcases Nat.le_total (roundUp keys.aux alignment) (roundUp values.aux alignment) with hle | hle
    · rw [Nat.max_eq_right hle]
      exact dvd_roundUp
    · rw [Nat.max_eq_left hle]
      exact dvd_roundUp

theorem dvd_rawTailCapacity : alignment ∣ layout.rawTailCapacity := by
  rw [CompressionLayout.rawTailCapacity]
  split
  · exact Nat.dvd_zero _
  · exact dvd_roundUp

/-- Both parts of a layer have the heads of its spec. -/
theorem Construction.heads_eq
    (h : Construction specs cfg low layers groups layout B keys values) :
    ∃ heads : String → Nat, ∀ p ∈ layout.layerParts, p.numHeads = heads p.layerName := by
  refine ⟨fun name => ((specs.sorted.find? (·.1 = name)).map (·.2.numKvHeads)).getD 0, ?_⟩
  intro p hp
  obtain ⟨item, hitem, hof⟩ := h.ofSpec hp
  have hfind : specs.sorted.find? (·.1 = p.layerName) = some item := by
    cases hfound : specs.sorted.find? (·.1 = p.layerName) with
    | none =>
        have := List.find?_eq_none.mp hfound item hitem
        simp [hof.layerName] at this
    | some found =>
        have hname : found.1 = p.layerName := by simpa using List.find?_some hfound
        rw [Specs.eq_of_name (List.mem_of_find?_eq_some hfound) hitem
          (hname.trans hof.layerName)]
  show p.numHeads = ((specs.sorted.find? (·.1 = p.layerName)).map (·.2.numKvHeads)).getD 0
  rw [hfind]
  exact hof.numHeads

/-- What `build_memory_plan` has done when it returns a plan. -/
theorem buildMemoryPlan_cases {select : CompressionConfig → Except PlanError HeadSelection}
    {probe : Probe} {blocksPerLogical numLayers : Nat} {plan : CompressionMemoryPlan}
    (h : buildMemoryPlan cfg specs select probe blocksPerLogical numLayers = .ok (some plan)) :
    ∃ selection layers layout,
      buildCompressionLayout specs (planningConfig cfg)
        (fun i => List.lookup i selection.lowCounts) layers = .ok layout ∧
      finishPlan cfg probe selection blocksPerLogical layout = .ok plan := by
  rw [buildMemoryPlan] at h
  split at h
  · simp only [bind, Except.bind] at h
    split at h
    · cases h
    · next selection _ =>
        split at h
        · cases h
        · next layout hlayout =>
            refine ⟨selection, _, layout, hlayout, ?_⟩
            cases hplan : finishPlan cfg probe selection blocksPerLogical layout with
            | error e => rw [hplan] at h; cases h
            | ok plan' =>
                rw [hplan] at h
                cases h
                rfl
  · cases h

/-- The bytes of a plan. -/
structure Planned (cfg : CompressionConfig) (blocksPerLogical : Nat) (layout : CompressionLayout)
    (plan : CompressionMemoryPlan) : Prop where
  config : plan.config = cfg
  layerParts : plan.layout.layerParts = layout.layerParts
  dvd_arena : alignment ∣ plan.layout.arenaBytes
  auxArena : plan.layout.auxArenaBytes = layout.auxArenaBytes
  workspace : ∃ each, alignment ∣ each ∧
    plan.codecWorkspaceBytes = if cfg.usesCodec then each * cfg.slotCount else 0
  metadata : plan.metadataBytes = metadataBytes cfg plan.layout blocksPerLogical
  reserved : plan.fixedBytes ≤ plan.reservedBytes

theorem finishPlan_planned {probe : Probe} {selection : HeadSelection} {blocksPerLogical : Nat}
    {plan : CompressionMemoryPlan}
    (h : finishPlan cfg probe selection blocksPerLogical layout = .ok plan) :
    Planned cfg blocksPerLogical layout plan := by
  rw [finishPlan] at h
  split at h
  · cases h
  · split at h
    · cases h
    · cases h
      refine ⟨rfl, rfl, dvd_roundUp, rfl, ⟨(codecFigures cfg probe layout).1, ?_, ?_⟩, rfl, ?_⟩
      · rw [codecFigures]
        split
        · exact dvd_roundUp
        · exact Nat.dvd_zero _
      · simp only [planOf, codecFigures]
        split <;> rfl
      · refine Nat.le_trans ?_ (le_roundUp alignment_pos)
        simp only [CompressionMemoryPlan.fixedBytes, planOf]
        omega

/-- **The rounded requests add up to the planned bytes.** -/
theorem Planned.sum_takes {blocksPerLogical : Nat} {plan : CompressionMemoryPlan}
    (hplan : Planned cfg blocksPerLogical layout plan) (haux : alignment ∣ layout.auxArenaBytes)
    (hheads : ∃ heads : String → Nat, ∀ p ∈ layout.layerParts, p.numHeads = heads p.layerName) :
    ((plan.takes blocksPerLogical).map (roundUp · alignment)).sum ≤ plan.fixedBytes := by
  obtain ⟨heads, hheads⟩ := hheads
  rw [← hplan.layerParts] at hheads
  have hslot : ((plan.slotTakes blocksPerLogical).map (roundUp · alignment)).sum =
      slotBytes cfg plan.layout + roundUp
        (numIndexRows plan.layout * cfg.logicalBlocksPerChunk * blocksPerLogical * 8)
        alignment := by
    have hB : alignment ∣ arenaBBytes cfg plan.layout := by
      rw [arenaBBytes]
      split
      · exact Nat.dvd_zero _
      · exact hplan.dvd_arena
    have hids : cfg.logicalBlocksPerChunk * blocksPerLogical * numIndexRows plan.layout * 8 =
        numIndexRows plan.layout * cfg.logicalBlocksPerChunk * blocksPerLogical * 8 := by ring
    simp only [CompressionMemoryPlan.slotTakes, hplan.config, List.map_cons, List.map_nil,
      List.sum_cons, List.sum_nil, roundUp_of_dvd alignment_pos hplan.dvd_arena,
      roundUp_of_dvd alignment_pos hB, roundUp_of_dvd alignment_pos (hplan.auxArena ▸ haux),
      roundUp_of_dvd alignment_pos dvd_rawTailCapacity, hids, slotBytes]
    omega
  have hmeta : ((CompressionMemoryPlan.metadataTakes cfg.usesTransformer []
        plan.layout.layerParts).map (roundUp · alignment)).sum =
      signBytes cfg.usesTransformer plan.layout + orderBytes plan.layout := by
    rw [sum_metadataTakes, sum_orders hheads, orderBytes, sum_uniqueLayers hheads,
      List.toFinset_nil, Finset.sdiff_empty, Nat.add_comm]
    rfl
  have hworkspace : ((if cfg.usesCodec then
        (List.range cfg.slotCount).map fun _ => plan.codecWorkspaceBytes / cfg.slotCount
      else []).map (roundUp · alignment)).sum = plan.codecWorkspaceBytes := by
    obtain ⟨each, hdvd, hbytes⟩ := hplan.workspace
    rw [hbytes]
    split
    · rw [Nat.mul_div_cancel _ cfg.slotCountPos, List.map_const', List.map_replicate,
        roundUp_of_dvd alignment_pos hdvd, List.sum_replicate, List.length_range,
        Nat.nsmul_eq_mul, Nat.mul_comm]
    · rfl
  have hshared : cfg.slotCount * (signBytes cfg.usesTransformer plan.layout +
        orderBytes plan.layout) =
      signBytes cfg.usesTransformer plan.layout + orderBytes plan.layout +
        (cfg.slotCount - 1) * (signBytes cfg.usesTransformer plan.layout +
          orderBytes plan.layout) := by
    obtain ⟨k, hk⟩ := Nat.exists_eq_succ_of_ne_zero (Nat.ne_of_gt cfg.slotCountPos)
    rw [hk, Nat.succ_mul, Nat.succ_sub_one, Nat.add_comm]
  refine Nat.le_of_eq ?_
  simp only [CompressionMemoryPlan.takes, hplan.config, List.map_append, List.sum_append,
    sum_flatMap_range, hslot, hmeta, hworkspace, CompressionMemoryPlan.fixedBytes,
    hplan.metadata, metadataBytes, hshared, Nat.mul_add]
  omega

/-- **The memory planner covers the carver**: every request is served, by a piece of its own. -/
theorem buildMemoryPlan_covers {select : CompressionConfig → Except PlanError HeadSelection}
    {probe : Probe} {blocksPerLogical numLayers : Nat} {plan : CompressionMemoryPlan}
    (h : buildMemoryPlan cfg specs select probe blocksPerLogical numLayers = .ok (some plan)) :
    (carve plan.fixedBytes 0 (plan.takes blocksPerLogical)).map Prod.fst =
        plan.takes blocksPerLogical ∧
      Carved plan.fixedBytes (carve plan.fixedBytes 0 (plan.takes blocksPerLogical)) ∧
      plan.fixedBytes ≤ plan.reservedBytes := by
  obtain ⟨selection, layers, layout, hlayout, hfinish⟩ := buildMemoryPlan_cases h
  obtain ⟨B, keys, values, hcon⟩ := buildCompressionLayout_cases hlayout
  have hplan := finishPlan_planned hfinish
  exact ⟨carve_fst _ _ _, carve_carved (hplan.sum_takes hcon.dvd_auxArena hcon.heads_eq),
    hplan.reserved⟩

/-- Three slots with a codec, and two layers whose keys and values differ in size. -/
theorem buildMemoryPlan_covers_codec :
    let cfg : CompressionConfig := { enabled := true, slotCount := 3, logicalBlocksPerChunk := 2 }
    let specs : Specs :=
      ⟨[("a", { layerIndex := 0, blockSize := 4, numKvHeads := 2, headSize := 8,
                dtype := .bfloat16 }),
        ("b", { layerIndex := 1, blockSize := 4, numKvHeads := 3, headSize := 8,
                dtype := .bfloat16, headSizeV? := some 4 })], by decide⟩
    let selection : HeadSelection := ⟨[(0, 0), (1, 0)], [(0, [0, 1]), (1, [0, 1, 2])]⟩
    ∃ plan, buildMemoryPlan cfg specs (fun _ => .ok selection) ⟨700, (· + 2000), 10⟩ 2 0 =
        .ok (some plan) ∧
      plan.fixedBytes = 29952 ∧ (plan.takes 2).length = 36 ∧
      (carve plan.fixedBytes 0 (plan.takes 2)).map Prod.fst = plan.takes 2 ∧
      Carved plan.fixedBytes (carve plan.fixedBytes 0 (plan.takes 2)) ∧
      plan.fixedBytes ≤ plan.reservedBytes := by
  intro cfg specs selection
  have hbytes : ((buildMemoryPlan cfg specs (fun _ => .ok selection) ⟨700, (· + 2000), 10⟩ 2
      0).toOption.join.map fun plan => (plan.fixedBytes, (plan.takes 2).length)) =
        some (29952, 36) := by decide +kernel
  cases hplan : buildMemoryPlan cfg specs (fun _ => .ok selection) ⟨700, (· + 2000), 10⟩ 2 0 with
  | error e =>
      rw [hplan] at hbytes
      cases hbytes
  | ok r =>
      rw [hplan] at hbytes
      cases r with
      | none => cases hbytes
      | some plan =>
          obtain ⟨hfixed, hlength⟩ := Prod.mk.inj (Option.some.inj hbytes)
          exact ⟨plan, rfl, hfixed, hlength, buildMemoryPlan_covers hplan⟩

end Plan

end KVServe.Runtime

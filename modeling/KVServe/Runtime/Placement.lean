import KVServe.Runtime.Pipeline

/-!
# KVServe.Runtime.Placement

**The layout does not interfere with itself.** The loop of `build_compression_layout` is
inverted once (`Built`); the ranges it hands out, and the views the pipeline cuts out of a
slot at them, are disjoint and inside their buffers.
-/

namespace KVServe.Runtime

variable {cfg : CompressionConfig} {low : Nat → Option Nat} {layers : Nat}
  {groups : String → Option Nat}

/-! ### Ranges of the layout -/

/-- The heads of a section. -/
def QuantSection.heads (s : QuantSection) : Span := ⟨s.headStart, s.headCount⟩

/-- The minimum and scale rows of a section, for a full chunk. -/
def QuantSection.auxSpans (s : QuantSection) (blocks tokens headSize : Nat) : List Span :=
  let nbytes := auxNbytes s.axis blocks tokens s.headCount headSize
  [⟨s.auxMinOffset, nbytes⟩, ⟨s.auxScaleOffset, nbytes⟩]

namespace LayerPartLayout

/-- The elements of a full chunk. -/
def numel (p : LayerPartLayout) (chunkBlocks : Nat) : Nat :=
  chunkBlocks * p.blockSize * p.numHeads * p.headSize

/-- The symbols of a full chunk. -/
def u8Range (p : LayerPartLayout) (chunkBlocks : Nat) : Span := ⟨p.u8Offset, p.numel chunkBlocks⟩

/-- The bytes of a full chunk in the packed stream: a byte for a symbol, two for an element
that is not quantized. -/
def streamRange (p : LayerPartLayout) (cfg : CompressionConfig) : Span :=
  (p.u8Range cfg.logicalBlocksPerChunk).scale (if cfg.usesQuantizer then 1 else 2)

def auxSpans (p : LayerPartLayout) (chunkBlocks : Nat) : List Span :=
  p.sections.flatMap fun s => s.auxSpans chunkBlocks p.blockSize p.headSize

end LayerPartLayout

/-! ### Inverting the loop -/

theorem buildSections_heads (axis : QuantAxis) (blocks tokens headSize : Nat)
    (counts : List (Nat × Nat)) (headStart aux : Nat) :
    Placed 1 headStart
      ((buildSections axis blocks tokens headSize counts headStart aux).1.map QuantSection.heads)
      (headStart + (counts.map Prod.fst).sum) := by
  induction counts generalizing headStart aux with
  | nil => exact .nil _
  | cons c counts ih =>
      obtain ⟨headCount, levels⟩ := c
      rw [buildSections]
      split
      · next h =>
          subst h
          simpa using ih headStart aux
      · simp only [List.map_cons, List.sum_cons, QuantSection.heads]
        rw [← Nat.add_assoc]
        exact (ih (headStart + headCount) _).tile

theorem buildSections_aux (axis : QuantAxis) (blocks tokens headSize : Nat)
    (counts : List (Nat × Nat)) (headStart aux : Nat) :
    Placed alignment aux
      ((buildSections axis blocks tokens headSize counts headStart aux).1.flatMap
        fun s => s.auxSpans blocks tokens headSize)
      (buildSections axis blocks tokens headSize counts headStart aux).2 := by
  induction counts generalizing headStart aux with
  | nil => exact .nil _
  | cons c counts ih =>
      obtain ⟨headCount, levels⟩ := c
      rw [buildSections]
      split
      · exact ih headStart aux
      · exact .cons (.cons (ih _ _))

/-- The passes of the loop for one K/V part: the specs it goes through, the cursor before,
the layer parts it appends and the cursor after. -/
inductive Built (cfg : CompressionConfig) (low : Nat → Option Nat) (layers : Nat)
    (groups : String → Option Nat) (kv : KVPart) :
    List (String × CacheSpec) → Offsets → List LayerPartLayout → Offsets → Prop
  | nil (o : Offsets) : Built cfg low layers groups kv [] o [] o
  | cons {name : String} {spec : CacheSpec} {rest : List (String × CacheSpec)} {o e : Offsets}
      {parts : List LayerPartLayout} {counts : Nat × Nat}
      (hcounts : splitCounts cfg spec.layerIndex spec.numKvHeads low layers = .ok counts)
      (htail : Built cfg low layers groups kv rest
        (buildPart cfg name spec ((groups name).getD 0) counts kv o).2 parts e) :
      Built cfg low layers groups kv ((name, spec) :: rest) o
        ((buildPart cfg name spec ((groups name).getD 0) counts kv o).1 :: parts) e

theorem buildParts_built {specs : List (String × CacheSpec)} {keys values keys' values' : Offsets}
    {parts : List LayerPartLayout}
    (h : buildParts cfg low layers groups specs keys values = .ok (parts, keys', values')) :
    Built cfg low layers groups .key specs keys (parts.filter (·.kvPart = .key)) keys' ∧
      Built cfg low layers groups .value specs values (parts.filter (·.kvPart = .value)) values' := by
  induction specs generalizing keys values parts with
  | nil =>
      cases h
      exact ⟨.nil _, .nil _⟩
  | cons item rest ih =>
      obtain ⟨name, spec⟩ := item
      rw [buildParts] at h
      cases hcounts : splitCounts cfg spec.layerIndex spec.numKvHeads low layers with
      | error e => rw [hcounts] at h; cases h
      | ok counts =>
          rw [hcounts] at h
          simp only [bind, Except.bind] at h
          split at h
          · cases h
          · next r hr =>
              obtain ⟨tail, ends⟩ := r
              cases h
              obtain ⟨hk, hv⟩ := ih hr
              exact ⟨.cons hcounts hk, .cons hcounts hv⟩

namespace Built

variable {kv : KVPart} {specs : List (String × CacheSpec)} {o e : Offsets}
  {parts : List LayerPartLayout}

/-- A layer part has the geometry of its spec. -/
structure OfSpec (cfg : CompressionConfig) (groups : String → Option Nat) (kv : KVPart)
    (name : String) (spec : CacheSpec) (p : LayerPartLayout) : Prop where
  layerName : p.layerName = name
  kvPart : p.kvPart = kv
  groupIndex : p.groupIndex = (groups name).getD 0
  blockSize : p.blockSize = spec.blockSize
  numHeads : p.numHeads = spec.numKvHeads
  headSize : p.headSize = spec.size kv
  rawOffset : p.rawOffset = 0

theorem forall₂ (h : Built cfg low layers groups kv specs o parts e) :
    List.Forall₂ (fun item p => OfSpec cfg groups kv item.1 item.2 p) specs parts := by
  induction h with
  | nil => exact .nil
  | cons _ _ ih => exact .cons ⟨rfl, rfl, rfl, rfl, rfl, rfl, rfl⟩ ih

theorem ofSpec (h : Built cfg low layers groups kv specs o parts e) {p : LayerPartLayout}
    (hp : p ∈ parts) : ∃ item ∈ specs, OfSpec cfg groups kv item.1 item.2 p := by
  obtain ⟨i, hi, rfl⟩ := List.mem_iff_getElem.mp hp
  have hlt : i < specs.length := h.forall₂.length_eq ▸ hi
  exact ⟨specs[i], List.getElem_mem hlt, h.forall₂.get hlt hi⟩

theorem exists_part (h : Built cfg low layers groups kv specs o parts e)
    {item : String × CacheSpec} (hitem : item ∈ specs) :
    ∃ p ∈ parts, OfSpec cfg groups kv item.1 item.2 p := by
  obtain ⟨i, hi, rfl⟩ := List.mem_iff_getElem.mp hitem
  have hlt : i < parts.length := h.forall₂.length_eq ▸ hi
  exact ⟨parts[i], List.getElem_mem hlt, h.forall₂.get hi hlt⟩

/-- **The symbols of the layers stand one after the other.** -/
theorem u8 (h : Built cfg low layers groups kv specs o parts e) :
    Placed 1 o.u8 (parts.map (·.u8Range cfg.logicalBlocksPerChunk)) e.u8 := by
  induction h with
  | nil => exact .nil _
  | cons _ _ ih => exact ih.tile

/-- An element takes two bytes where a symbol takes one. -/
theorem raw (h : Built cfg low layers groups kv specs o parts e) :
    e.raw + 2 * o.u8 = o.raw + 2 * e.u8 := by
  induction h with
  | nil => rfl
  | cons _ _ ih =>
      simp only [buildPart] at ih
      omega

/-- **The auxiliary rows of the layers stand one after the other, aligned.** -/
theorem aux (h : Built cfg low layers groups kv specs o parts e) :
    Placed alignment o.aux (parts.flatMap (·.auxSpans cfg.logicalBlocksPerChunk)) e.aux := by
  induction h with
  | nil => exact .nil _
  | cons _ _ ih =>
      rw [List.flatMap_cons]
      exact (buildSections_aux _ _ _ _ _ _ _).append ih

/-- **The sections of a layer part tile its heads.** -/
theorem heads (h : Built cfg low layers groups kv specs o parts e)
    (hlow : ∀ item ∈ specs, ∀ n, low item.2.layerIndex = some n → n ≤ item.2.numKvHeads)
    {p : LayerPartLayout} (hp : p ∈ parts) :
    Placed 1 0 (p.sections.map QuantSection.heads) p.numHeads := by
  induction h with
  | nil => exact absurd hp List.not_mem_nil
  | @cons name spec rest o e parts counts hcounts htail ih =>
      rcases List.mem_cons.mp hp with rfl | hp
      · have hsum : counts.1 + counts.2 = spec.numKvHeads := by
          have hspec := hlow _ List.mem_cons_self
          simp only [splitCounts] at hcounts
          split at hcounts
          · split at hcounts
            · next n hn =>
                cases hcounts
                exact Nat.add_sub_cancel' (hspec n hn)
            · cases hcounts
          · split at hcounts <;> cases hcounts <;> simp
        have hplaced := buildSections_heads (cfg.axis kv) cfg.logicalBlocksPerChunk spec.blockSize
          (spec.size kv) [(counts.1, cfg.lowLevels kv), (counts.2, cfg.highLevels kv)] 0 o.aux
        simp only [List.map_cons, List.map_nil, List.sum_cons, List.sum_nil, Nat.add_zero,
          Nat.zero_add, hsum] at hplaced
        exact hplaced
      · exact ih (fun item hitem => hlow item (List.mem_cons_of_mem _ hitem)) hp

end Built

/-! ### The layout as a whole -/

/-- The cursor of a K/V part after the loop. -/
def partOffsets (keys values : Offsets) : KVPart → Offsets
  | .key => keys
  | .value => values

/-- What `build_compression_layout` has done when it returns. -/
structure Construction (specs : Specs) (cfg : CompressionConfig) (low : Nat → Option Nat)
    (layers : Nat) (groups : String → Option Nat) (layout : CompressionLayout)
    (blockSize : Nat) (keys values : Offsets) : Prop where
  blockSizes : ∀ item ∈ specs.items, item.2.blockSize = blockSize
  nonempty : specs.items ≠ []
  built : ∀ kv, Built cfg low layers groups kv specs.sorted {} (layout.parts kv)
    (partOffsets keys values kv)
  assembled : layout =
    assembleLayout cfg (scratchStride cfg specs.sorted) layout.layerParts keys values

theorem Specs.mem_sorted {specs : Specs} {item : String × CacheSpec} :
    item ∈ specs.sorted ↔ item ∈ specs.items := List.mem_insertionSort _

/-- A name has one spec. -/
theorem Specs.eq_of_name {specs : Specs} {a b : String × CacheSpec} (ha : a ∈ specs.sorted)
    (hb : b ∈ specs.sorted) (h : a.1 = b.1) : a = b :=
  List.inj_on_of_nodup_map specs.nodup (mem_sorted.mp ha) (mem_sorted.mp hb) h

theorem buildCompressionLayout_cases {specs : Specs} {layout : CompressionLayout}
    (h : buildCompressionLayout specs cfg low layers groups = .ok layout) :
    ∃ blockSize keys values,
      Construction specs cfg low layers groups layout blockSize keys values := by
  rw [buildCompressionLayout] at h
  split at h
  · cases h
  · next first rest hsorted =>
      split at h
      · cases h
      · next hsizes =>
          simp only [bind, Except.bind] at h
          split at h
          · cases h
          · split at h
            · cases h
            · next r hr =>
                obtain ⟨parts, keys, values⟩ := r
                cases h
                obtain ⟨hk, hv⟩ := buildParts_built hr
                refine ⟨first.2.blockSize, keys, values, ?_, ?_, ?_, ?_⟩
                · intro item hitem
                  rw [← Specs.mem_sorted, hsorted] at hitem
                  rcases List.mem_cons.mp hitem with rfl | hitem
                  · rfl
                  · simp only [List.any_eq_true, decide_eq_true_eq, not_exists, not_and,
                      Decidable.not_not] at hsizes
                    exact hsizes item hitem
                · intro hnil
                  rw [Specs.sorted, hnil] at hsorted
                  cases hsorted
                · intro kv
                  rw [hsorted]
                  cases kv with
                  | key => exact hk
                  | value => exact hv
                · rw [hsorted]
                  rfl

namespace Construction

variable {specs : Specs} {layout : CompressionLayout} {B : Nat} {keys values : Offsets}
  {p : LayerPartLayout}

theorem mem_parts (hp : p ∈ layout.layerParts) : p ∈ layout.parts p.kvPart :=
  List.mem_filter.mpr ⟨hp, decide_eq_true rfl⟩

theorem of_mem_parts {kv : KVPart} (hp : p ∈ layout.parts kv) :
    p ∈ layout.layerParts ∧ p.kvPart = kv := by
  obtain ⟨hp, hkv⟩ := List.mem_filter.mp hp
  exact ⟨hp, of_decide_eq_true hkv⟩

/-- The spec behind a layer part. -/
theorem ofSpec (h : Construction specs cfg low layers groups layout B keys values)
    (hp : p ∈ layout.layerParts) :
    ∃ item ∈ specs.sorted, Built.OfSpec cfg groups p.kvPart item.1 item.2 p :=
  (h.built p.kvPart).ofSpec (mem_parts hp)

theorem blockSize_eq (h : Construction specs cfg low layers groups layout B keys values)
    (hp : p ∈ layout.layerParts) : p.blockSize = B := by
  obtain ⟨item, hitem, hof⟩ := h.ofSpec hp
  rw [hof.blockSize]
  exact h.blockSizes item (Specs.mem_sorted.mp hitem)

theorem blockSize_pos (h : Construction specs cfg low layers groups layout B keys values) :
    0 < B := by
  obtain ⟨item, hitem⟩ := List.exists_mem_of_ne_nil _ h.nonempty
  exact h.blockSizes item hitem ▸ item.2.blockSizePos

theorem rawOffset_eq (h : Construction specs cfg low layers groups layout B keys values)
    (hp : p ∈ layout.layerParts) : p.rawOffset = 0 := by
  obtain ⟨_, _, hof⟩ := h.ofSpec hp
  exact hof.rawOffset

theorem u8Bytes_eq (h : Construction specs cfg low layers groups layout B keys values)
    (kv : KVPart) : layout.u8BytesByPart kv = (partOffsets keys values kv).u8 := by
  rw [h.assembled]
  cases kv <;> rfl

theorem rawBytes_eq (h : Construction specs cfg low layers groups layout B keys values)
    (kv : KVPart) : layout.rawBytesByPart kv = (partOffsets keys values kv).raw := by
  rw [h.assembled]
  cases kv <;> rfl

theorem raw_eq (h : Construction specs cfg low layers groups layout B keys values)
    (kv : KVPart) : layout.rawBytesByPart kv = layout.u8BytesByPart kv * 2 := by
  have hraw := (h.built kv).raw
  simp only [Nat.mul_zero, Nat.add_zero, Nat.zero_add] at hraw
  rw [h.rawBytes_eq, h.u8Bytes_eq, hraw, Nat.mul_comm]

theorem packed_eq (h : Construction specs cfg low layers groups layout B keys values)
    (kv : KVPart) : layout.packedBytesByPart kv =
      layout.u8BytesByPart kv * (if cfg.usesQuantizer then 1 else 2) := by
  have hraw := h.raw_eq kv
  have hpacked : layout.packedBytesByPart kv =
      if cfg.usesQuantizer then layout.u8BytesByPart kv else layout.rawBytesByPart kv := by
    rw [h.assembled, CompressionConfig.usesQuantizer, Bool.and_comm]
    simp only [assembleLayout]
    split <;> rfl
  rw [hpacked]
  split
  · rw [Nat.mul_one]
  · exact hraw

theorem scratchStride_eq (h : Construction specs cfg low layers groups layout B keys values) :
    layout.scratchStride = scratchStride cfg specs.sorted := by
  rw [h.assembled]
  rfl

/-- A full chunk of any layer part fits a scratch buffer. -/
theorem numel_le_stride (h : Construction specs cfg low layers groups layout B keys values)
    (hp : p ∈ layout.layerParts) :
    p.numel cfg.logicalBlocksPerChunk * 2 ≤ layout.scratchStride := by
  obtain ⟨item, hitem, hof⟩ := h.ofSpec hp
  rw [h.scratchStride_eq, LayerPartLayout.numel, hof.blockSize, hof.numHeads, hof.headSize]
  refine Nat.le_trans ?_ (le_roundUp alignment_pos)
  generalize specs.sorted = items at hitem
  induction items with
  | nil => exact absurd hitem List.not_mem_nil
  | cons first rest ih =>
      rw [List.foldr_cons]
      rcases List.mem_cons.mp hitem with rfl | hitem
      · refine Nat.le_trans ?_ (Nat.le_max_left _ _)
        cases p.kvPart with
        | key => exact Nat.le_max_left _ _
        | value => exact Nat.le_max_right _ _
      · exact Nat.le_trans (ih hitem) (Nat.le_max_right _ _)

/-- The packed streams of the layers. -/
theorem stream (h : Construction specs cfg low layers groups layout B keys values) (kv : KVPart) :
    Placed 1 0 ((layout.parts kv).map (·.streamRange cfg)) (layout.packedBytesByPart kv) := by
  have hbuilt := (h.built kv).u8.scale (if cfg.usesQuantizer then 1 else 2)
  rw [List.map_map, Nat.zero_mul] at hbuilt
  rw [h.packed_eq, h.u8Bytes_eq]
  exact hbuilt

theorem aux (h : Construction specs cfg low layers groups layout B keys values) (kv : KVPart) :
    Placed alignment 0
      ((layout.parts kv).flatMap (·.auxSpans cfg.logicalBlocksPerChunk))
      (partOffsets keys values kv).aux := (h.built kv).aux

theorem auxBytes_eq (h : Construction specs cfg low layers groups layout B keys values)
    (kv : KVPart) :
    layout.auxBytesByPart kv = roundUp (partOffsets keys values kv).aux alignment := by
  rw [h.assembled]
  cases kv <;> rfl

theorem aux_within (h : Construction specs cfg low layers groups layout B keys values)
    {kv : KVPart} {s : Span}
    (hs : s ∈ (layout.parts kv).flatMap (·.auxSpans cfg.logicalBlocksPerChunk)) :
    s.Within (layout.auxBytesByPart kv) := by
  rw [h.auxBytes_eq]
  exact Nat.le_trans ((h.aux kv).bounds alignment_pos hs).2 (le_roundUp alignment_pos)

theorem auxArena_eq (h : Construction specs cfg low layers groups layout B keys values)
    (hq : cfg.usesQuantizer = true) : layout.auxArenaBytes =
      2 * max (layout.auxBytesByPart .key) (layout.auxBytesByPart .value) := by
  rw [h.assembled]
  rw [CompressionConfig.usesQuantizer, Bool.and_eq_true, Bool.not_eq_true'] at hq
  simp only [assembleLayout, hq.1, hq.2]
  rfl

theorem auxBytes_le_half (h : Construction specs cfg low layers groups layout B keys values)
    (hq : cfg.usesQuantizer = true) (kv : KVPart) :
    layout.auxBytesByPart kv ≤ layout.auxArenaBytes / 2 := by
  rw [h.auxArena_eq hq, Nat.mul_div_cancel_left _ (by decide)]
  cases kv with
  | key => exact Nat.le_max_left _ _
  | value => exact Nat.le_max_right _ _

theorem aggregate_eq (h : Construction specs cfg low layers groups layout B keys values) :
    layout.aggregate = cfg.usesAggregate := by
  rw [h.assembled]
  rfl

/-- Arena sizes of a pipeline that is not aggregate: both scratch buffers, and the packed
stream after them. -/
theorem arena_le (h : Construction specs cfg low layers groups layout B keys values)
    (ha : cfg.usesAggregate = false) (kv : KVPart) :
    2 * layout.scratchStride ≤ layout.arenaBytes ∧
      layout.u8Base + layout.packedBytesByPart kv ≤ layout.arenaBytes := by
  have harena : layout.arenaBytes = roundUp (max (2 * layout.scratchStride)
      (layout.u8Base + max (layout.packedBytesByPart .key) (layout.packedBytesByPart .value)))
      alignment := by
    rw [h.assembled]
    simp only [assembleLayout, ha]
    rfl
  have hle := le_roundUp (n := max (2 * layout.scratchStride) (layout.u8Base +
    max (layout.packedBytesByPart .key) (layout.packedBytesByPart .value))) alignment_pos
  rw [← harena] at hle
  refine ⟨Nat.le_trans (Nat.le_max_left _ _) hle, ?_⟩
  refine Nat.le_trans (Nat.le_trans ?_ (Nat.le_max_right _ _)) hle
  refine Nat.add_le_add_left ?_ _
  cases kv with
  | key => exact Nat.le_max_left _ _
  | value => exact Nat.le_max_right _ _

theorem raw_le_arena (h : Construction specs cfg low layers groups layout B keys values)
    (ha : cfg.usesAggregate = true) (kv : KVPart) :
    layout.rawBytesByPart kv ≤ layout.arenaBytes := by
  have harena : layout.arenaBytes =
      roundUp (max (layout.rawBytesByPart .key) (layout.rawBytesByPart .value)) alignment := by
    rw [h.assembled]
    simp only [assembleLayout, ha]
    rfl
  rw [harena]
  refine Nat.le_trans ?_ (le_roundUp alignment_pos)
  cases kv with
  | key => exact Nat.le_max_left _ _
  | value => exact Nat.le_max_right _ _

/-- **The raw tail of any token counts fits.** -/
theorem rawTail_le (h : Construction specs cfg low layers groups layout B keys values)
    (ha : cfg.usesAggregate = false) (kv : KVPart) (tokens : Nat → Nat) :
    layout.rawTailBytes kv tokens ≤ layout.rawTailCapacity := by
  have hsum : layout.rawTailBytes kv tokens ≤ ((layout.parts kv).map fun p =>
      (p.blockSize - 1) * CompressionLayout.tokenBytes p).sum := by
    refine List.sum_le_sum fun p hp => Nat.mul_le_mul_right _ ?_
    have hpos : 0 < p.blockSize := by
      rw [h.blockSize_eq (of_mem_parts hp).1]
      exact h.blockSize_pos
    exact Nat.le_sub_one_of_lt (Nat.mod_lt _ hpos)
  rw [CompressionLayout.rawTailCapacity, h.aggregate_eq, ha]
  refine Nat.le_trans (Nat.le_trans hsum ?_) (le_roundUp alignment_pos)
  cases kv with
  | key => exact Nat.le_max_left _ _
  | value => exact Nat.le_max_right _ _

end Construction

/-! ### Views of a slot -/

namespace Construction

variable {specs : Specs} {B : Nat} {keys values : Offsets} {p : LayerPartLayout} {pl : Pipeline}

/-- Kernel blocks of a chunk hold no more elements than its logical blocks. -/
theorem viewNumel_le {blocks : Nat}
    (hblocks : blocks ≤ cfg.logicalBlocksPerChunk * pl.blocksPerLogical) :
    blocks * pl.kernelTokens p * p.numHeads * p.headSize ≤ p.numel cfg.logicalBlocksPerChunk := by
  refine Nat.mul_le_mul_right _ (Nat.mul_le_mul_right _ ?_)
  calc blocks * pl.kernelTokens p
      ≤ cfg.logicalBlocksPerChunk * pl.blocksPerLogical * (p.blockSize / pl.blocksPerLogical) :=
        Nat.mul_le_mul_right _ hblocks
    _ = cfg.logicalBlocksPerChunk * (pl.blocksPerLogical * (p.blockSize / pl.blocksPerLogical)) :=
        Nat.mul_assoc _ _ _
    _ ≤ cfg.logicalBlocksPerChunk * p.blockSize :=
        Nat.mul_le_mul_left _ (Nat.mul_div_le _ _)

/-- **The two scratch buffers are disjoint and inside arena A.** -/
theorem scratch (h : Construction specs cfg low layers groups pl.layout B keys values)
    (ha : cfg.usesAggregate = false) (hp : p ∈ pl.layout.layerParts) {blocks : Nat}
    (hblocks : blocks ≤ cfg.logicalBlocksPerChunk * pl.blocksPerLogical) :
    (pl.spanA p blocks).Disjoint (pl.spanB p blocks) ∧
      (pl.spanA p blocks).Within pl.layout.arenaBytes ∧
      (pl.spanB p blocks).Within pl.layout.arenaBytes := by
  have hnumel := Nat.le_trans
    (Nat.mul_le_mul_right 2 (viewNumel_le (p := p) hblocks)) (h.numel_le_stride hp)
  have harena := (h.arena_le ha .key).1
  simp only [Span.Disjoint, Span.Within, Span.stop, Pipeline.spanA, Pipeline.spanB,
    h.rawOffset_eq hp]
  omega

/-- The packed bytes of any number of blocks lie in the range of their layer. -/
theorem packed_sub {blocks : Nat}
    (hblocks : blocks ≤ cfg.logicalBlocksPerChunk * pl.blocksPerLogical) :
    (if cfg.usesQuantizer then pl.u8Span p blocks else pl.packedSpan p blocks).Sub
      ((p.streamRange cfg).shift pl.layout.u8Base) := by
  have hnumel : blocks * pl.kernelTokens p * p.numHeads * p.headSize ≤
      p.numel cfg.logicalBlocksPerChunk := viewNumel_le hblocks
  split
  · next hq =>
      simp only [Span.Sub, Span.shift, Span.stop, LayerPartLayout.streamRange, Span.scale, hq,
        if_true, LayerPartLayout.u8Range, Pipeline.u8Span]
      omega
  · next hq =>
      simp only [Span.Sub, Span.shift, Span.stop, LayerPartLayout.streamRange, Span.scale, hq,
        Bool.false_eq_true, if_false, LayerPartLayout.u8Range, Pipeline.packedSpan]
      omega

theorem exists_key (h : Construction specs cfg low layers groups pl.layout B keys values)
    (hp : p ∈ pl.layout.layerParts) :
    ∃ k ∈ pl.layout.parts .key, k.layerName = p.layerName ∧ k.numHeads = p.numHeads ∧
      k.blockSize = p.blockSize ∧ k.groupIndex = p.groupIndex := by
  obtain ⟨item, hitem, hof⟩ := h.ofSpec hp
  obtain ⟨k, hk, hok⟩ := (h.built .key).exists_part hitem
  exact ⟨k, hk, hok.layerName.trans hof.layerName.symm, hok.numHeads.trans hof.numHeads.symm,
    hok.blockSize.trans hof.blockSize.symm, hok.groupIndex.trans hof.groupIndex.symm⟩

/-- The shape of a bound cache, as far as a layer part sees it. -/
theorem cachePart_shape (h : Construction specs cfg low layers groups pl.layout B keys values)
    (hbound : pl.Bound) (hp : p ∈ pl.layout.layerParts) :
    (pl.cachePart p).shape.2 = (p.numHeads, pl.kernelTokens p, p.headSize) := by
  obtain ⟨k, hk, hname, hheads, hsize, _⟩ := h.exists_key hp
  have hshape := (hbound k hk).1
  rw [hname, hheads, hsize] at hshape
  show ((pl.caches p.layerName).view.shape.2.1, (pl.caches p.layerName).view.shape.2.2.1,
    p.headSize) = _
  rw [hshape]
  rfl

/-- A segment of the aggregate payload is no longer than the raw bytes of its layer. -/
theorem segment_le (h : Construction specs cfg low layers groups pl.layout B keys values)
    (hbound : pl.Bound) (hp : p ∈ pl.layout.layerParts) {count : Nat}
    (hcount : count ≤ cfg.logicalBlocksPerChunk) :
    count * pl.blocksPerLogical *
        ((pl.cachePart p).shape.numel / (pl.cachePart p).shape.1 * 2) ≤
      p.numel cfg.logicalBlocksPerChunk * 2 := by
  have hblock : (pl.cachePart p).shape.numel / (pl.cachePart p).shape.1 ≤
      p.numHeads * pl.kernelTokens p * p.headSize := by
    have hshape := h.cachePart_shape hbound hp
    rw [Index.numel, hshape, Nat.mul_assoc, Nat.mul_assoc]
    refine Nat.div_le_of_le_mul (Nat.mul_le_mul_left _ ?_)
    rw [← Nat.mul_assoc]
  have hview : count * pl.blocksPerLogical * pl.kernelTokens p * p.numHeads * p.headSize ≤
      p.numel cfg.logicalBlocksPerChunk :=
    viewNumel_le (Nat.mul_le_mul_right pl.blocksPerLogical hcount)
  calc _ ≤ count * pl.blocksPerLogical * (p.numHeads * pl.kernelTokens p * p.headSize * 2) :=
        Nat.mul_le_mul_left _ (Nat.mul_le_mul_right 2 hblock)
    _ = count * pl.blocksPerLogical * pl.kernelTokens p * p.numHeads * p.headSize * 2 := by ring
    _ ≤ _ := Nat.mul_le_mul_right 2 hview

end Construction

/-- **The segments of the aggregate payload stand one after the other.** -/
theorem Pipeline.aggregateSegments_placed (pl : Pipeline) (ids : List (List Nat))
    (parts : List LayerPartLayout) (offset : Nat) :
    Placed 1 offset ((pl.aggregateSegments ids parts offset).map Prod.snd)
      (offset + payloadBytes (pl.aggregateSegments ids parts offset)) := by
  induction parts generalizing offset with
  | nil => exact .nil _
  | cons p parts ih =>
      simp only [Pipeline.aggregateSegments, payloadBytes, List.map_cons, List.sum_cons]
      rw [← Nat.add_assoc]
      exact (ih _).tile

/-! ### Non-interference -/

/-- The rows of a section that fit a chunk fit the bytes planned for them. -/
theorem auxShape_le (axis : QuantAxis) {rows : Nat × Nat} {blocks tokens heads headSize : Nat}
    (hrows : rows.1 * rows.2 ≤ blocks * tokens) :
    (Pipeline.auxShape axis rows heads headSize).numel * 2 ≤
      auxNbytes axis blocks tokens heads headSize := by
  cases axis with
  | channel => simp [Pipeline.auxShape, Index.numel, auxNbytes, reductionShape]
  | token =>
      simp only [Pipeline.auxShape, Index.numel, auxNbytes, reductionShape, List.prod_cons,
        List.prod_nil, Nat.mul_one]
      exact Nat.mul_le_mul_right 2 hrows
  | tensor => simp [Pipeline.auxShape, Index.numel, auxNbytes, reductionShape]

/-- No two buffers of a slot that are in use at the same time meet, and none is cut off. -/
structure NonInterfering (cfg : CompressionConfig) (pl : Pipeline) : Prop where
  /-- The layers follow each other in the packed stream and fill it. -/
  streams : ∀ kv,
    Placed 1 0 ((pl.layout.parts kv).map (·.streamRange cfg)) (pl.layout.packedBytesByPart kv) ∧
    ((pl.layout.parts kv).map (·.streamRange cfg)).Pairwise Span.Disjoint
  /-- The sections of a layer part partition its heads. -/
  heads : ∀ p ∈ pl.layout.layerParts,
    Placed 1 0 (p.sections.map QuantSection.heads) p.numHeads ∧
    ∀ h < p.numHeads, ∃! i : Fin (p.sections.map QuantSection.heads).length,
      ((p.sections.map QuantSection.heads).get i).start ≤ h ∧
        h < ((p.sections.map QuantSection.heads).get i).stop
  /-- Minimum and scale rows. -/
  aux : ∀ kv,
    ((pl.layout.parts kv).flatMap (·.auxSpans cfg.logicalBlocksPerChunk)).Pairwise
      Span.Disjoint ∧
    ∀ s ∈ (pl.layout.parts kv).flatMap (·.auxSpans cfg.logicalBlocksPerChunk),
      alignment ∣ s.start ∧ s.Within (pl.layout.auxBytesByPart kv)
  /-- Rows of fewer tokens than a chunk has lie inside the planned ones. -/
  auxViews : ∀ p ∈ pl.layout.layerParts, ∀ s ∈ p.sections, ∀ rows : Nat × Nat,
    rows.1 * rows.2 ≤ cfg.logicalBlocksPerChunk * p.blockSize →
      (Pipeline.auxShape s.axis rows s.headCount p.headSize).numel * 2 ≤
        auxNbytes s.axis cfg.logicalBlocksPerChunk p.blockSize s.headCount p.headSize
  /-- The temporary rows are in the other half of the auxiliary buffer. -/
  temporary : cfg.usesQuantizer = true → ∀ kv kv',
    ∀ s ∈ (pl.layout.parts kv).flatMap (·.auxSpans cfg.logicalBlocksPerChunk),
    ∀ t ∈ (pl.layout.parts kv').flatMap (·.auxSpans cfg.logicalBlocksPerChunk),
      s.Disjoint (t.shift (pl.layout.auxArenaBytes / 2)) ∧
      s.Within pl.layout.auxArenaBytes ∧
      (t.shift (pl.layout.auxArenaBytes / 2)).Within pl.layout.auxArenaBytes
  /-- The scratch buffers of any number of kernel blocks of a chunk, and its stream. -/
  scratch : cfg.usesAggregate = false → ∀ p ∈ pl.layout.layerParts,
    ∀ blocks ≤ cfg.logicalBlocksPerChunk * pl.blocksPerLogical,
      (pl.spanA p blocks).Disjoint (pl.spanB p blocks) ∧
      (pl.spanA p blocks).Within pl.layout.arenaBytes ∧
      (pl.spanB p blocks).Within pl.layout.arenaBytes ∧
      (if cfg.usesQuantizer then pl.u8Span p blocks else pl.packedSpan p blocks).Sub
        ((p.streamRange cfg).shift pl.layout.u8Base)
  /-- The packed stream, where it is built and where it is sent from. -/
  arenas : cfg.usesAggregate = false → ∀ kv,
    (Span.mk pl.layout.u8Base (pl.layout.packedBytesByPart kv)).Within pl.layout.arenaBytes ∧
    (Span.mk 0 (pl.layout.packedBytesByPart kv)).Within pl.layout.arenaBytes
  rawTail : cfg.usesAggregate = false → ∀ kv tokens,
    pl.layout.rawTailBytes kv tokens ≤ pl.layout.rawTailCapacity
  /-- The segments of the aggregate payload. -/
  segments : cfg.usesAggregate = true → pl.Bound → ∀ kv (ids : List (List Nat)),
    (∀ group, (ids.getD group []).length ≤ cfg.logicalBlocksPerChunk) →
      let segments := (pl.aggregateSegments ids (pl.layout.parts kv) 0).map Prod.snd
      segments.Pairwise Span.Disjoint ∧ (∀ s ∈ segments, s.Within pl.layout.arenaBytes) ∧
      Placed 1 0 segments
        (Pipeline.payloadBytes (pl.aggregateSegments ids (pl.layout.parts kv) 0))

/-- The aggregate payload is no longer than the raw bytes of a full chunk. -/
theorem Construction.payload_le {specs : Specs} {B : Nat} {keys values : Offsets} {pl : Pipeline}
    (h : Construction specs cfg low layers groups pl.layout B keys values) (hbound : pl.Bound)
    {ids : List (List Nat)}
    (hids : ∀ group, (ids.getD group []).length ≤ cfg.logicalBlocksPerChunk) (kv : KVPart) :
    Pipeline.payloadBytes (pl.aggregateSegments ids (pl.layout.parts kv) 0) ≤
      pl.layout.rawBytesByPart kv := by
  have hsum : ∀ (parts : List LayerPartLayout) (c e offset : Nat),
      (∀ p ∈ parts, p ∈ pl.layout.layerParts) →
      Placed 1 c (parts.map (·.u8Range cfg.logicalBlocksPerChunk)) e →
      c * 2 + Pipeline.payloadBytes (pl.aggregateSegments ids parts offset) ≤ e * 2 := by
    intro parts
    induction parts with
    | nil =>
        intro c e offset _ hplaced
        have := hplaced.le Nat.one_pos
        simp only [Pipeline.aggregateSegments, Pipeline.payloadBytes, List.map_nil, List.sum_nil]
        omega
    | cons p parts ih =>
        intro c e offset hmem hplaced
        have hseg := h.segment_le hbound (hmem p List.mem_cons_self) (hids p.groupIndex)
        rw [List.map_cons] at hplaced
        have htail : Placed 1 (c + p.numel cfg.logicalBlocksPerChunk)
            (parts.map (·.u8Range cfg.logicalBlocksPerChunk)) e := by
          generalize hq : p.u8Range cfg.logicalBlocksPerChunk = q at hplaced
          cases hplaced with
          | cons htail =>
              obtain ⟨_, rfl⟩ := Span.mk.inj hq
              rwa [roundUp_one] at htail
        have := ih _ e (offset + (ids.getD p.groupIndex []).length * pl.blocksPerLogical *
          ((pl.cachePart p).shape.numel / (pl.cachePart p).shape.1 * 2))
          (fun q hq => hmem q (List.mem_cons_of_mem _ hq)) htail
        simp only [Pipeline.aggregateSegments, Pipeline.payloadBytes, List.map_cons,
          List.sum_cons] at this ⊢
        omega
  have hle := hsum (pl.layout.parts kv) 0 _ 0 (fun p hp => (of_mem_parts hp).1) (h.built kv).u8
  rw [h.raw_eq, h.u8Bytes_eq]
  omega

/-- **Layout non-interference.** -/
theorem buildCompressionLayout_nonInterfering {specs : Specs} {pl : Pipeline}
    (h : buildCompressionLayout specs cfg low layers groups = .ok pl.layout)
    (hlow : ∀ item ∈ specs.items, ∀ n, low item.2.layerIndex = some n → n ≤ item.2.numKvHeads) :
    NonInterfering cfg pl := by
  obtain ⟨B, keys, values, h⟩ := buildCompressionLayout_cases h
  refine ⟨?_, ?_, ?_, ?_, ?_, ?_, ?_, ?_, ?_⟩
  · intro kv
    exact ⟨h.stream kv, (h.stream kv).pairwise Nat.one_pos⟩
  · intro p hp
    have hplaced := (h.built p.kvPart).heads
      (fun item hitem => hlow item (Specs.mem_sorted.mp hitem)) (Construction.mem_parts hp)
    exact ⟨hplaced, fun x hx => hplaced.existsUnique (Nat.zero_le x) hx⟩
  · intro kv
    exact ⟨(h.aux kv).pairwise alignment_pos,
      fun s hs => ⟨(h.aux kv).aligned hs, h.aux_within hs⟩⟩
  · intro p _ s _ rows hrows
    exact auxShape_le s.axis hrows
  · intro hq kv kv' s hs t ht
    have hs := Nat.le_trans (h.aux_within hs) (h.auxBytes_le_half hq kv)
    have ht := Nat.le_trans (h.aux_within ht) (h.auxBytes_le_half hq kv')
    simp only [Span.Disjoint, Span.Within, Span.shift, Span.stop] at hs ht ⊢
    omega
  · intro ha p hp blocks hblocks
    obtain ⟨hdisjoint, hA, hB⟩ := h.scratch ha hp hblocks
    exact ⟨hdisjoint, hA, hB, Construction.packed_sub hblocks⟩
  · intro ha kv
    have harena := (h.arena_le ha kv).2
    simp only [Span.Within, Span.stop]
    omega
  · exact fun ha kv tokens => h.rawTail_le ha kv tokens
  · intro ha hbound kv ids hids
    have hplaced := pl.aggregateSegments_placed ids (pl.layout.parts kv) 0
    rw [Nat.zero_add] at hplaced
    refine ⟨hplaced.pairwise Nat.one_pos, fun s hs => ?_, hplaced⟩
    exact Nat.le_trans (hplaced.bounds Nat.one_pos hs).2
      (Nat.le_trans (h.payload_le hbound hids kv) (h.raw_le_arena ha kv))

/-- Two layers with keys and values of different sizes, the first of them with one head of
low precision and one of high precision. -/
theorem buildCompressionLayout_nonInterfering_mixed :
    let cfg : CompressionConfig := { splitType := .head, logicalBlocksPerChunk := 3 }
    let specs : Specs :=
      ⟨[("b", { layerIndex := 1, blockSize := 4, numKvHeads := 2, headSize := 8,
                dtype := .bfloat16, headSizeV? := some 4 }),
        ("a", { layerIndex := 0, blockSize := 4, numKvHeads := 2, headSize := 8,
                dtype := .bfloat16 })], by decide⟩
    ∃ layout, buildCompressionLayout specs cfg (fun i => some (1 - i)) 2 = .ok layout ∧
      layout.arenaBytes = 1536 ∧ layout.auxArenaBytes = 3072 ∧
      NonInterfering cfg
        { ar := .words, layout, blocksPerLogical := 2, stages := cfg.pipeline,
          codec := ⟨id, fun bytes _ => bytes⟩, signs := fun _ _ _ _ => (0, 0),
          headOrders := fun _ => [0, 1],
          caches := fun _ => ⟨.contiguous 0 2 (6, 2, 2, 16), View.contiguous_separated⟩ } := by
  intro cfg specs
  refine ⟨_, rfl, by decide +kernel, by decide +kernel,
    @buildCompressionLayout_nonInterfering cfg (fun i => some (1 - i)) 2 (fun _ => none) specs _
      rfl ?_⟩
  intro item hitem n hn
  cases hn
  have hheads : item.2.numKvHeads = 2 := by
    rcases List.mem_cons.mp hitem with rfl | hitem
    · rfl
    · cases List.mem_singleton.mp hitem
      rfl
  omega

end KVServe.Runtime

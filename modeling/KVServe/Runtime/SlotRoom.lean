import KVServe.Runtime.CompressionRuntime
import KVServe.Runtime.ExactLayout
import KVServe.Runtime.Tail

/-!
# KVServe.Runtime.SlotRoom

**A slot of a planned runtime has room.** `build_memory_plan` sizes the buffers for full
chunks; `bind_kv_caches` only renumbers the groups. So whatever a chunk of at most
`logical_blocks_per_chunk` blocks slices out of a slot is inside the buffer it comes from.
-/

namespace KVServe.Runtime

variable {cfg : CompressionConfig} {low : Nat → Option Nat} {layers : Nat}
  {groups : String → Option Nat} {specs : Specs} {layout : CompressionLayout} {B : Nat}
  {keys values : Offsets}

/-! ### Bound layouts -/

/-- A layer part in the group of its layer. -/
def LayerPartLayout.inGroup (groupIndices : String → Nat) (part : LayerPartLayout) :
    LayerPartLayout :=
  { part with groupIndex := groupIndices part.layerName }

theorem parts_bindGroups (groupIndices : String → Nat) (kv : KVPart) :
    (layout.bindGroups groupIndices).parts kv =
      (layout.parts kv).map (·.inGroup groupIndices) := List.filter_map

/-- Binding is building with the groups that are bound. -/
theorem Built.bindGroups {kv : KVPart} {items : List (String × CacheSpec)} {o e : Offsets}
    {parts : List LayerPartLayout} (h : Built cfg low layers groups kv items o parts e)
    (groupIndices : String → Nat) :
    Built cfg low layers (fun name => some (groupIndices name)) kv items o
      (parts.map (·.inGroup groupIndices)) e := by
  induction h with
  | nil => exact .nil _
  | cons hcounts _ ih => exact .cons hcounts ih

theorem Construction.bindGroups (h : Construction specs cfg low layers groups layout B keys values)
    (groupIndices : String → Nat) :
    Construction specs cfg low layers (fun name => some (groupIndices name))
      (layout.bindGroups groupIndices) B keys values where
  blockSizes := h.blockSizes
  nonempty := h.nonempty
  built kv := by
    rw [parts_bindGroups]
    exact (h.built kv).bindGroups groupIndices
  assembled := by
    conv_lhs => rw [h.assembled]
    rfl

/-! ### Sections have elements -/

theorem buildSections_headCount {axis : QuantAxis} {blocks tokens headSize : Nat}
    {counts : List (Nat × Nat)} {headStart aux : Nat} {s : QuantSection}
    (hs : s ∈ (buildSections axis blocks tokens headSize counts headStart aux).1) :
    0 < s.headCount := by
  induction counts generalizing headStart aux with
  | nil => exact absurd hs List.not_mem_nil
  | cons c counts ih =>
      obtain ⟨headCount, levels⟩ := c
      rw [buildSections] at hs
      split at hs
      · exact ih hs
      · next hcount =>
          rcases List.mem_cons.mp hs with rfl | hs
          · exact Nat.pos_of_ne_zero hcount
          · exact ih hs

theorem exists_buildSections {axis : QuantAxis} {blocks tokens headSize : Nat}
    {counts : List (Nat × Nat)} {headStart aux : Nat} (h : ∃ c ∈ counts, 0 < c.1) :
    ∃ s, s ∈ (buildSections axis blocks tokens headSize counts headStart aux).1 := by
  induction counts generalizing headStart aux with
  | nil =>
      obtain ⟨c, hc, -⟩ := h
      exact absurd hc List.not_mem_nil
  | cons c counts ih =>
      obtain ⟨headCount, levels⟩ := c
      rw [buildSections]
      split
      · next hzero =>
          refine ih ?_
          obtain ⟨c, hc, hpos⟩ := h
          rcases List.mem_cons.mp hc with rfl | hc
          · exact absurd hzero (Nat.ne_of_gt hpos)
          · exact ⟨c, hc, hpos⟩
      · exact ⟨_, List.mem_cons_self⟩

/-- The sections of a layer part with heads: there is one, and each has heads. -/
theorem Built.sections {kv : KVPart} {items : List (String × CacheSpec)} {o e : Offsets}
    {parts : List LayerPartLayout} (h : Built cfg low layers groups kv items o parts e)
    {p : LayerPartLayout} (hp : p ∈ parts) :
    (∀ s ∈ p.sections, 0 < s.headCount) ∧ (0 < p.numHeads → ∃ s, s ∈ p.sections) := by
  induction h with
  | nil => exact absurd hp List.not_mem_nil
  | @cons name spec rest o e parts counts hcounts _ ih =>
      rcases List.mem_cons.mp hp with rfl | hp
      · refine ⟨fun s hs => buildSections_headCount hs, fun hheads => exists_buildSections ?_⟩
        have hheads : 0 < spec.numKvHeads := hheads
        have hsome : 0 < counts.1 ∨ 0 < counts.2 := by
          simp only [splitCounts] at hcounts
          split at hcounts
          · split at hcounts
            · next lowHeads _ =>
                cases hcounts
                show 0 < lowHeads ∨ 0 < spec.numKvHeads - lowHeads
                omega
            · cases hcounts
          · split at hcounts <;> cases hcounts
            · exact Or.inl hheads
            · exact Or.inr hheads
        rcases hsome with hlow | hhigh
        · exact ⟨_, List.mem_cons_self, hlow⟩
        · exact ⟨_, List.mem_cons_of_mem _ List.mem_cons_self, hhigh⟩
      · exact ih hp

theorem auxNbytes_pos {axis : QuantAxis} {blocks tokens heads headSize : Nat} (hblocks : 0 < blocks)
    (htokens : 0 < tokens) (hheads : 0 < heads) (hsize : 0 < headSize) :
    0 < auxNbytes axis blocks tokens heads headSize := by
  cases axis with
  | channel => simp [auxNbytes, reductionShape, hheads, hsize]
  | token => simp [auxNbytes, reductionShape, hblocks, htokens]
  | tensor => simp [auxNbytes, reductionShape]

/-- Every K/V part whose layers have heads has auxiliary rows. -/
theorem Construction.auxBytes_pos
    (h : Construction specs cfg low layers groups layout B keys values)
    (hblocks : 0 < cfg.logicalBlocksPerChunk) {part : LayerPartLayout}
    (hp : part ∈ layout.layerParts) (hheads : 0 < part.numHeads) (hsize : 0 < part.headSize) :
    0 < layout.auxBytesByPart part.kvPart := by
  obtain ⟨hcount, hexists⟩ := (h.built part.kvPart).sections (Construction.mem_parts hp)
  obtain ⟨s, hs⟩ := hexists hheads
  have hmem : ⟨s.auxMinOffset, auxNbytes s.axis cfg.logicalBlocksPerChunk part.blockSize s.headCount
      part.headSize⟩ ∈ (layout.parts part.kvPart).flatMap (·.auxSpans cfg.logicalBlocksPerChunk) :=
    List.mem_flatMap.mpr ⟨part, Construction.mem_parts hp,
      List.mem_flatMap.mpr ⟨s, hs, List.mem_cons_self⟩⟩
  have hwithin := h.aux_within hmem
  have hpos : 0 < auxNbytes s.axis cfg.logicalBlocksPerChunk part.blockSize s.headCount
      part.headSize :=
    auxNbytes_pos hblocks (h.blockSize_eq hp ▸ h.blockSize_pos) (hcount s hs) hsize
  simp only [Span.Within, Span.stop] at hwithin
  omega

/-! ### Room -/

/-- The bytes of a layer part's stream, symbols or raw elements. -/
def Pipeline.streamSpan (pl : Pipeline) (part : LayerPartLayout) (blocks : Nat) : Span :=
  if pl.stages.contains .quantizer then pl.u8Span part blocks else pl.packedSpan part blocks

/-- Room for the chunks of at most `maxBlocks` logical blocks. -/
structure SlotRoom (pl : Pipeline) (maxBlocks : Nat) (slot : Slot) : Prop where
  whole : ∀ part ∈ pl.layout.layerParts, pl.WholeBlocks part
  /-- Keys and values of a layer are in one group. -/
  keys : ∀ part ∈ pl.layout.layerParts, ∃ k ∈ pl.layout.parts .key,
    k.blockSize = part.blockSize ∧ k.groupIndex = part.groupIndex
  scratch : ∀ part ∈ pl.layout.layerParts, ∀ blocks ≤ maxBlocks * pl.blocksPerLogical,
    pl.Room slot part blocks
  stream : ∀ part ∈ pl.layout.layerParts, ∀ blocks ≤ maxBlocks * pl.blocksPerLogical,
    (pl.streamSpan part blocks).Within slot.arenaB.size
  payload : ∀ kv tokens, pl.layout.u8Base + pl.streamBytes kv tokens ≤ slot.arenaB.size ∧
    pl.streamBytes kv tokens ≤ slot.arenaA.size
  rows : pl.stages.contains .quantizer = true → ∀ part ∈ pl.layout.layerParts,
    ∀ s ∈ part.sections, ∀ rows : Nat × Nat, rows.1 * rows.2 ≤ maxBlocks * part.blockSize →
    ∀ offset ∈ [s.auxMinOffset, s.auxScaleOffset],
      offset + (Pipeline.auxShape s.axis rows s.headCount part.headSize).numel * 2 ≤
        pl.layout.auxBytesByPart part.kvPart
  halves : pl.stages.contains .quantizer = true → ∀ kv,
    pl.layout.auxBytesByPart kv ≤ pl.layout.auxArenaBytes / 2
  aux : pl.layout.auxArenaBytes ≤ slot.aux.size
  tail : ∀ kv tokens, pl.layout.rawTailBytes kv tokens ≤ slot.rawTail.size

/-- The stages of a pipeline that is not aggregate are those that run. -/
theorem contains_quantizer (ha : cfg.usesAggregate = false) :
    cfg.pipeline.contains .quantizer = cfg.usesQuantizer := by
  rw [CompressionConfig.usesQuantizer, ha]
  rfl

/-- **A slot of at least the sizes of the layout has room.** -/
theorem Construction.slotRoom (h : Construction specs cfg low layers groups layout B keys values)
    {pl : Pipeline} (hin : pl.InLayout layout) (hstages : pl.stages = cfg.pipeline)
    (ha : cfg.usesAggregate = false) {slot : Slot} (hA : layout.arenaBytes ≤ slot.arenaA.size)
    (hB : layout.arenaBytes ≤ slot.arenaB.size) (haux : layout.auxArenaBytes ≤ slot.aux.size)
    (htail : layout.rawTailCapacity ≤ slot.rawTail.size) :
    SlotRoom pl cfg.logicalBlocksPerChunk slot := by
  have hparts : pl.layout.layerParts = layout.layerParts := by rw [hin.layout_eq]
  have hbase : pl.layout.u8Base = layout.u8Base := by rw [hin.layout_eq]
  have hq : pl.stages.contains .quantizer = cfg.usesQuantizer := by
    rw [hstages, contains_quantizer ha]
  -- the same pipeline before the codec enlarges the arenas
  have h₀ : Construction specs cfg low layers groups ({ pl with layout } : Pipeline).layout B keys
    values := h
  have hstream : ∀ kv tokens, pl.streamBytes kv tokens ≤ layout.packedBytesByPart kv := by
    intro kv tokens
    have hu8 : pl.layout.u8BytesByPart = layout.u8BytesByPart := by rw [hin.layout_eq]
    have hraw : pl.layout.rawBytesByPart = layout.rawBytesByPart := by rw [hin.layout_eq]
    rw [Pipeline.streamBytes, hq, hu8, hraw, h.packed_eq]
    split
    · split
      · exact Nat.le_of_eq (Nat.mul_one _).symm
      · exact Nat.le_of_eq (h.raw_eq kv)
    · exact Nat.zero_le _
  constructor
  · intro part hp
    rw [hparts] at hp
    exact ⟨h.blockSize_eq hp ▸ h.blockSize_pos, hin.dvd part hp⟩
  · intro part hp
    rw [hparts] at hp
    obtain ⟨k, hk, -, -, hsize, hgroup⟩ := h₀.exists_key hp
    have hkeys : pl.layout.parts .key = layout.parts .key := by
      rw [CompressionLayout.parts, hparts]
      rfl
    exact ⟨k, hkeys ▸ hk, hsize, hgroup⟩
  · intro part hp blocks hblocks
    rw [hparts] at hp
    obtain ⟨hdisjoint, hwithinA, hwithinB⟩ := h₀.scratch ha hp hblocks
    have hspan : pl.spanB part blocks = ({ pl with layout } : Pipeline).spanB part blocks := by
      have hstride : pl.layout.scratchStride = layout.scratchStride := by rw [hin.layout_eq]
      rw [Pipeline.spanB, hstride]
      rfl
    refine ⟨?_, hwithinA.mono hA, ?_⟩
    · rw [hspan]
      exact hdisjoint
    · rw [hspan]
      exact hwithinB.mono hA
  · intro part hp blocks hblocks
    rw [hparts] at hp
    have hsub := @Construction.packed_sub cfg part pl blocks hblocks
    have hbounds := ((h.stream part.kvPart).bounds Nat.one_pos
      (List.mem_map_of_mem (Construction.mem_parts hp))).2
    have harena := Nat.le_trans (h.arena_le ha part.kvPart).2 hB
    rw [Pipeline.streamSpan, hq]
    refine Span.Within.of_sub ?_ hsub
    rw [hbase]
    simp only [Span.Within, Span.shift, Span.stop] at hbounds ⊢
    omega
  · intro kv tokens
    have hle := hstream kv tokens
    have harena := (h.arena_le ha kv).2
    rw [hbase]
    omega
  · intro hquant part hp s hs rows hrows offset hoffset
    rw [hparts] at hp
    have hauxBytes : pl.layout.auxBytesByPart = layout.auxBytesByPart := by rw [hin.layout_eq]
    have hwithin : ∀ u ∈ s.auxSpans cfg.logicalBlocksPerChunk part.blockSize part.headSize,
        u.Within (layout.auxBytesByPart part.kvPart) :=
      fun u hu => h.aux_within (Pipeline.mem_planned hp hs hu)
    have hshape : (Pipeline.auxShape s.axis rows s.headCount part.headSize).numel * 2 ≤
        auxNbytes s.axis cfg.logicalBlocksPerChunk part.blockSize s.headCount part.headSize :=
      auxShape_le s.axis hrows
    rw [hauxBytes]
    refine Nat.le_trans (Nat.add_le_add_left hshape _) ?_
    rcases List.mem_cons.mp hoffset with rfl | hoffset
    · exact hwithin _ List.mem_cons_self
    · cases List.mem_singleton.mp hoffset
      exact hwithin _ (List.mem_cons_of_mem _ List.mem_cons_self)
  · intro hquant kv
    rw [hq] at hquant
    have hauxBytes : pl.layout.auxBytesByPart = layout.auxBytesByPart := by rw [hin.layout_eq]
    have harena : pl.layout.auxArenaBytes = layout.auxArenaBytes := by rw [hin.layout_eq]
    rw [hauxBytes, harena]
    exact h.auxBytes_le_half hquant kv
  · have harena : pl.layout.auxArenaBytes = layout.auxArenaBytes := by rw [hin.layout_eq]
    exact harena ▸ haux
  · intro kv tokens
    have hbytes : pl.layout.rawTailBytes kv tokens = layout.rawTailBytes kv tokens := by
      rw [hin.layout_eq]
      rfl
    rw [hbytes]
    exact Nat.le_trans (h.rawTail_le ha kv tokens) htail

/-! ### Planned runtimes -/

@[simp] theorem planningConfig_pipeline : (planningConfig cfg).pipeline = cfg.pipeline := by
  rw [planningConfig]
  split <;> rfl

@[simp] theorem planningConfig_logicalBlocksPerChunk :
    (planningConfig cfg).logicalBlocksPerChunk = cfg.logicalBlocksPerChunk := by
  rw [planningConfig]
  split <;> rfl

@[simp] theorem planningConfig_usesAggregate :
    (planningConfig cfg).usesAggregate = cfg.usesAggregate := by
  rw [CompressionConfig.usesAggregate, planningConfig_pipeline]
  rfl

@[simp] theorem planningConfig_usesQuantizer :
    (planningConfig cfg).usesQuantizer = cfg.usesQuantizer := by
  rw [CompressionConfig.usesQuantizer, planningConfig_pipeline, planningConfig_usesAggregate]
  rfl

theorem rawTailCapacity_bindGroups (groupIndices : String → Nat) :
    (layout.bindGroups groupIndices).rawTailCapacity = layout.rawTailCapacity := by
  simp only [CompressionLayout.rawTailCapacity, parts_bindGroups, List.map_map]
  rfl

namespace CompressionRuntime

variable {rt : CompressionRuntime} {select : CompressionConfig → Except PlanError HeadSelection}
  {probe : Probe} {numLayers : Nat} {groupIndices : String → Nat} {slot : Slot}

/-- The layout behind a runtime: as it was built, in the groups that were bound. -/
structure Behind (rt : CompressionRuntime) (specs : Specs) (probe : Probe)
    (base : CompressionLayout) : Prop where
  construction : ∃ low layers groups B keys values,
    Construction specs (planningConfig rt.config) low layers groups base B keys values
  inLayout : rt.pipeline.InLayout base
  arena : base.arenaBytes ≤ rt.plan.layout.arenaBytes
  codec : rt.config.usesCodec = true → ∀ kv,
    probe.maxCompBufferSize (base.packedBytesByPart kv) ≤ rt.plan.layout.arenaBytes
  auxArena : rt.plan.layout.auxArenaBytes = base.auxArenaBytes
  rawTail : rt.plan.layout.rawTailCapacity = base.rawTailCapacity
  blocks : rt.plan.blocksPerLogical = rt.pipeline.blocksPerLogical

theorem Initialized.exists_behind
    (h : rt.Initialized specs select probe numLayers groupIndices) :
    ∃ base, rt.Behind specs probe base := by
  obtain ⟨selection, layers, layout, hlayout, hfinish⟩ := buildMemoryPlan_cases h.planned
  obtain ⟨B, keys, values, hcon⟩ := buildCompressionLayout_cases hlayout
  rw [finishPlan] at hfinish
  split at hfinish
  · cases hfinish
  · next hblocks =>
      split at hfinish
      · cases hfinish
      · next hdvd =>
          have hplan := (Except.ok.inj hfinish).symm
          have hbind := h.bindGroups
          have hle : layout.arenaBytes ≤ rt.plan.layout.arenaBytes := by
            rw [hplan]
            exact Nat.le_trans (Nat.le_max_left _ _) (le_roundUp alignment_pos)
          refine ⟨layout.bindGroups groupIndices, ⟨_, _, _, _, _, _, hcon.bindGroups groupIndices⟩,
            ⟨?_, ?_, ?_⟩, hle, ?_, ?_, ?_, ?_⟩
          · show rt.layout = { layout.bindGroups groupIndices with arenaBytes := rt.layout.arenaBytes }
            rw [hbind, hplan]
            rfl
          · show layout.arenaBytes ≤ rt.layout.arenaBytes
            rw [hbind]
            exact hle
          · intro p hp
            obtain ⟨part, hpart, rfl⟩ := List.mem_map.mp hp
            have hall := List.any_eq_false.mp (Bool.eq_false_iff.mpr hdvd) part hpart
            exact Nat.dvd_of_mod_eq_zero (by simpa using hall)
          · intro hcodec kv
            have hmax : probe.maxCompBufferSize (layout.packedBytesByPart kv) ≤
                max (probe.maxCompBufferSize (layout.packedBytesByPart .key))
                  (probe.maxCompBufferSize (layout.packedBytesByPart .value)) := by
              cases kv with
              | key => exact Nat.le_max_left _ _
              | value => exact Nat.le_max_right _ _
            rw [hplan]
            refine Nat.le_trans ?_ (le_roundUp alignment_pos)
            refine Nat.le_trans ?_ (Nat.le_max_right _ _)
            rw [codecFigures, if_pos hcodec]
            exact Nat.le_trans hmax (Nat.le_max_left _ _)
          · rw [hplan]
            rfl
          · rw [rawTailCapacity_bindGroups, hplan]
            rfl
          · rw [hplan]
            rfl

/-- **The slots of a runtime have room.** -/
theorem Behind.slotRoom {base : CompressionLayout} (h : rt.Behind specs probe base)
    (hstages : rt.pipeline.stages = rt.config.pipeline) (ha : rt.config.usesAggregate = false)
    (hslot : slot.Allocated rt.plan) :
    SlotRoom rt.pipeline rt.config.logicalBlocksPerChunk slot := by
  obtain ⟨low, layers, groups, B, keys, values, hcon⟩ := h.construction
  have harenaB : slot.arenaB.size = rt.plan.layout.arenaBytes := by
    rw [hslot.arenaB, arenaBBytes, ← config, ha]
    rfl
  have hroom := hcon.slotRoom h.inLayout (by rw [hstages, planningConfig_pipeline])
    (by rw [planningConfig_usesAggregate, ha]) (hslot.arenaA ▸ h.arena) (harenaB ▸ h.arena)
    (Nat.le_of_eq (h.auxArena.symm.trans hslot.aux.symm))
    (Nat.le_of_eq (h.rawTail.symm.trans hslot.rawTail.symm))
  rw [planningConfig_logicalBlocksPerChunk] at hroom
  exact hroom

end CompressionRuntime

end KVServe.Runtime

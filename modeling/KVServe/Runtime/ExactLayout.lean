import KVServe.Runtime.ExactBound
import KVServe.Runtime.Memory

/-!
# KVServe.Runtime.ExactLayout

**The quantizer in the layout that was built.** The rows that `build_compression_layout` plans
for the sections of a layer part, and their images in the temporary half of the auxiliary
buffer, are even, apart and inside; so every section has room, and what is quantized comes
back within half of the scale of its group.
-/

namespace KVServe.Runtime

variable {cfg : CompressionConfig} {low : Nat → Option Nat} {layers : Nat}
  {groups : String → Option Nat}

/-! ### Levels -/

theorem buildSections_levels {axis : QuantAxis} {blocks tokens headSize : Nat}
    {counts : List (Nat × Nat)} {headStart aux : Nat} {s : QuantSection}
    (hs : s ∈ (buildSections axis blocks tokens headSize counts headStart aux).1) :
    s.numLevels ∈ counts.map Prod.snd := by
  induction counts generalizing headStart aux with
  | nil => exact absurd hs List.not_mem_nil
  | cons c counts ih =>
      obtain ⟨headCount, levels⟩ := c
      rw [buildSections] at hs
      split at hs
      · exact List.mem_cons_of_mem _ (ih hs)
      · rcases List.mem_cons.mp hs with rfl | hs
        · exact List.mem_cons_self
        · exact List.mem_cons_of_mem _ (ih hs)

/-- **The levels of a section are those that the configuration admits.** -/
theorem Built.levels {kv : KVPart} {specs : List (String × CacheSpec)} {o e : Offsets}
    {parts : List LayerPartLayout} (h : Built cfg low layers groups kv specs o parts e)
    {p : LayerPartLayout} (hp : p ∈ parts) {s : QuantSection} (hs : s ∈ p.sections) :
    2 ≤ s.numLevels ∧ s.numLevels ≤ 256 := by
  induction h with
  | nil => exact absurd hp List.not_mem_nil
  | cons _ _ ih =>
      rcases List.mem_cons.mp hp with rfl | hp
      · have hlevels : s.numLevels = cfg.lowLevels kv ∨ s.numLevels = cfg.highLevels kv := by
          simpa using buildSections_levels hs
        refine cfg.levels _ ?_
        rcases hlevels with h | h <;> rw [h] <;> cases kv <;>
          simp [CompressionConfig.lowLevels, CompressionConfig.highLevels]
      · exact ih hp

/-! ### Planned pipelines -/

/-- The pipeline works in a layout that was built, in arenas that may be larger, and its
logical blocks are whole kernel blocks. This is what `build_memory_plan` checks. -/
structure Pipeline.InLayout (pl : Pipeline) (layout : CompressionLayout) : Prop where
  layout_eq : pl.layout = { layout with arenaBytes := pl.layout.arenaBytes }
  arena_le : layout.arenaBytes ≤ pl.layout.arenaBytes
  dvd : ∀ p ∈ layout.layerParts, pl.blocksPerLogical ∣ p.blockSize

/-- The buffers of a slot have the sizes of the layout. -/
structure ExactSlot.Fits {K : Type} (slot : ExactSlot K) (layout : CompressionLayout) : Prop where
  arenaA : layout.arenaBytes ≤ slot.sizeA
  arenaB : layout.arenaBytes ≤ slot.sizeB
  aux : layout.auxArenaBytes ≤ slot.sizeAux

namespace Pipeline

variable {K : Type} {pl : Pipeline} {specs : Specs} {layout : CompressionLayout} {B : Nat}
  {keys values : Offsets} {part : LayerPartLayout} {s t : QuantSection} {n b : Nat}
  {slot : ExactSlot K}

/-! ### Rows -/

/-- The bytes planned for the four rows of a section. -/
def rowSpans (cfg : CompressionConfig) (layout : CompressionLayout) (part : LayerPartLayout)
    (s : QuantSection) : List Span :=
  let spans := s.auxSpans cfg.logicalBlocksPerChunk part.blockSize part.headSize
  spans ++ spans.map (·.shift (layout.auxArenaBytes / 2))

/-- The elements at the start of a range of bytes. -/
def spanElements (shape : Index) (s : Span) : View := .contiguous (s.start / 2) 1 shape

theorem rows_eq (h : InLayout pl layout) : pl.rows part n s =
    (rowSpans cfg layout part s).map (spanElements (pl.rowShape part n s)) := by
  have haux : pl.layout.auxArenaBytes = layout.auxArenaBytes := by rw [h.layout_eq]
  simp only [rows, row, haux]
  rfl

theorem spanElements_apart {u v : Span} {shape shape' : Index} (hu : 2 ∣ u.start)
    (hv : 2 ∣ v.start) (hshape : shape.numel * 2 ≤ u.size) (hshape' : shape'.numel * 2 ≤ v.size)
    (h : u.Disjoint v) : (spanElements shape u).Apart (spanElements shape' v) := by
  refine View.contiguous_apart ?_
  simp only [Span.Disjoint, Span.stop] at h
  omega

/-- A planned row belongs to the rows of its K/V part. -/
theorem mem_planned (hp : part ∈ layout.layerParts) (hs : s ∈ part.sections) {u : Span}
    (hu : u ∈ s.auxSpans cfg.logicalBlocksPerChunk part.blockSize part.headSize) :
    u ∈ (layout.parts part.kvPart).flatMap (·.auxSpans cfg.logicalBlocksPerChunk) :=
  List.mem_flatMap.mpr ⟨part, Construction.mem_parts hp, List.mem_flatMap.mpr ⟨s, hs, hu⟩⟩

theorem mem_rowSpans {offset : Nat} (ho : offset ∈ [s.auxMinOffset, s.auxScaleOffset])
    (temporary : Bool) :
    ⟨if temporary then offset + layout.auxArenaBytes / 2 else offset,
      auxNbytes s.axis cfg.logicalBlocksPerChunk part.blockSize s.headCount part.headSize⟩ ∈
      rowSpans cfg layout part s := by
  have hmem : ⟨offset, auxNbytes s.axis cfg.logicalBlocksPerChunk part.blockSize s.headCount
      part.headSize⟩ ∈ s.auxSpans cfg.logicalBlocksPerChunk part.blockSize part.headSize := by
    rcases List.mem_cons.mp ho with rfl | ho
    · exact List.mem_cons_self
    · cases List.mem_singleton.mp ho
      exact List.mem_cons_of_mem _ List.mem_cons_self
  cases temporary with
  | false => exact List.mem_append_left _ hmem
  | true => exact List.mem_append_right _ (List.mem_map_of_mem hmem)

/-- What the layout says about the rows of a section. -/
structure RowSpan (cfg : CompressionConfig) (layout : CompressionLayout) (part : LayerPartLayout)
    (s : QuantSection) (u : Span) : Prop where
  even : 2 ∣ u.start
  size : u.size = auxNbytes s.axis cfg.logicalBlocksPerChunk part.blockSize s.headCount part.headSize
  within : u.Within layout.auxArenaBytes

/-- **Every row is even and inside the auxiliary buffer.** -/
theorem rowSpans_facts (h : Construction specs cfg low layers groups layout B keys values)
    (hq : cfg.usesQuantizer = true) (hp : part ∈ layout.layerParts) (hs : s ∈ part.sections)
    {u : Span} (hu : u ∈ rowSpans cfg layout part s) : RowSpan cfg layout part s u := by
  have heven : 2 ∣ layout.auxArenaBytes := (Nat.dvd_of_mod_eq_zero rfl).trans h.dvd_auxArena
  have hhalf : 2 ∣ layout.auxArenaBytes / 2 := by
    obtain ⟨k, hk⟩ := h.dvd_auxArena
    rw [alignment] at hk
    omega
  have hplanned : ∀ v ∈ s.auxSpans cfg.logicalBlocksPerChunk part.blockSize part.headSize,
      2 ∣ v.start ∧ v.size = auxNbytes s.axis cfg.logicalBlocksPerChunk part.blockSize s.headCount
        part.headSize ∧ v.stop ≤ layout.auxArenaBytes / 2 := by
    intro v hv
    have hmem := mem_planned hp hs hv
    refine ⟨(Nat.dvd_of_mod_eq_zero rfl).trans ((h.aux part.kvPart).aligned hmem), ?_,
      Nat.le_trans (h.aux_within hmem) (h.auxBytes_le_half hq part.kvPart)⟩
    rcases List.mem_cons.mp hv with rfl | hv
    · rfl
    · cases List.mem_singleton.mp hv
      rfl
  rcases List.mem_append.mp hu with hu | hu
  · obtain ⟨hstart, hsize, hstop⟩ := hplanned u hu
    exact ⟨hstart, hsize, Nat.le_trans hstop (Nat.div_le_self _ _)⟩
  · obtain ⟨v, hv, rfl⟩ := List.mem_map.mp hu
    obtain ⟨hstart, hsize, hstop⟩ := hplanned v hv
    refine ⟨Nat.dvd_add hstart hhalf, hsize, ?_⟩
    simp only [Span.Within, Span.stop, Span.shift] at hstop ⊢
    omega

/-- The temporary half begins after every planned row. -/
theorem planned_disjoint_shift
    (h : Construction specs cfg low layers groups layout B keys values)
    (hq : cfg.usesQuantizer = true) (hp : part ∈ layout.layerParts) (hs : s ∈ part.sections)
    {u : Span} (hu : u ∈ s.auxSpans cfg.logicalBlocksPerChunk part.blockSize part.headSize)
    (v : Span) : u.Disjoint (v.shift (layout.auxArenaBytes / 2)) := by
  refine .inl (Nat.le_trans (h.aux_within (mem_planned hp hs hu)) ?_)
  exact Nat.le_trans (h.auxBytes_le_half hq part.kvPart) (Nat.le_add_left _ _)

/-- Rows that stand apart stay apart when the temporary half joins them. -/
theorem rowSpans_disjoint (h : Construction specs cfg low layers groups layout B keys values)
    (hq : cfg.usesQuantizer = true) (hp : part ∈ layout.layerParts) (hs : s ∈ part.sections)
    (ht : t ∈ part.sections)
    (hst : ∀ u ∈ s.auxSpans cfg.logicalBlocksPerChunk part.blockSize part.headSize,
      ∀ v ∈ t.auxSpans cfg.logicalBlocksPerChunk part.blockSize part.headSize, u.Disjoint v) :
    ∀ u ∈ rowSpans cfg layout part s, ∀ v ∈ rowSpans cfg layout part t, u.Disjoint v := by
  intro u hu v hv
  rcases List.mem_append.mp hu with hu | hu
  · rcases List.mem_append.mp hv with hv | hv
    · exact hst u hu v hv
    · obtain ⟨v', _, rfl⟩ := List.mem_map.mp hv
      exact planned_disjoint_shift h hq hp hs hu v'
  · obtain ⟨u', hu', rfl⟩ := List.mem_map.mp hu
    rcases List.mem_append.mp hv with hv | hv
    · exact (planned_disjoint_shift h hq hp ht hv u').symm
    · obtain ⟨v', hv', rfl⟩ := List.mem_map.mp hv
      exact (hst u' hu' v' hv').shift _

/-- The planned rows of the sections, section by section. -/
theorem auxSpans_pairwise (h : Construction specs cfg low layers groups layout B keys values)
    (hp : part ∈ layout.layerParts) :
    (∀ s ∈ part.sections, (s.auxSpans cfg.logicalBlocksPerChunk part.blockSize
      part.headSize).Pairwise Span.Disjoint) ∧
    part.sections.Pairwise fun s t =>
      ∀ u ∈ s.auxSpans cfg.logicalBlocksPerChunk part.blockSize part.headSize,
      ∀ v ∈ t.auxSpans cfg.logicalBlocksPerChunk part.blockSize part.headSize, u.Disjoint v := by
  have hall := (h.aux part.kvPart).pairwise alignment_pos
  exact List.pairwise_flatMap.mp
    ((List.pairwise_flatMap.mp hall).1 part (Construction.mem_parts hp))

/-- The rows of one section are apart. -/
theorem rowSpans_pairwise (h : Construction specs cfg low layers groups layout B keys values)
    (hq : cfg.usesQuantizer = true) (hp : part ∈ layout.layerParts) (hs : s ∈ part.sections) :
    (rowSpans cfg layout part s).Pairwise Span.Disjoint := by
  have hplanned := (auxSpans_pairwise h hp).1 s hs
  refine List.pairwise_append.mpr ⟨hplanned, ?_, ?_⟩
  · exact List.pairwise_map.mpr (hplanned.imp fun hd => hd.shift _)
  · intro u hu v hv
    obtain ⟨v', _, rfl⟩ := List.mem_map.mp hv
    exact planned_disjoint_shift h hq hp hs hu v'

/-! ### Room -/

/-- Kernel blocks of a body hold the tokens of its logical blocks. -/
theorem mul_kernelTokens_body (hin : InLayout pl layout) (hp : part ∈ layout.layerParts) (b : Nat) :
    b * pl.blocksPerLogical * pl.kernelTokens part = b * part.blockSize := by
  rw [Nat.mul_assoc, kernelTokens, Nat.mul_div_cancel' (hin.dvd part hp)]

/-- The rows that are used fit the rows that are planned. -/
theorem rowShape_le (hin : InLayout pl layout) (hp : part ∈ layout.layerParts)
    (hb : b ≤ cfg.logicalBlocksPerChunk) :
    (pl.rowShape part (b * pl.blocksPerLogical) s).numel * 2 ≤
      auxNbytes s.axis cfg.logicalBlocksPerChunk part.blockSize s.headCount part.headSize := by
  refine auxShape_le s.axis ?_
  show b * pl.blocksPerLogical * pl.kernelTokens part ≤ _
  rw [mul_kernelTokens_body hin hp]
  exact Nat.mul_le_mul_right _ hb

/-- **Every section has room.** -/
theorem sectionRoom (h : Construction specs cfg low layers groups layout B keys values)
    (hin : InLayout pl layout) (hq : cfg.usesQuantizer = true)
    (hlow : ∀ item ∈ specs.items, ∀ n, low item.2.layerIndex = some n → n ≤ item.2.numKvHeads)
    (hslot : slot.Fits layout) (hp : part ∈ layout.layerParts) (hs : s ∈ part.sections)
    (hb : b ≤ cfg.logicalBlocksPerChunk) :
    SectionRoom pl part (b * pl.blocksPerLogical) slot s where
  heads := by
    have hplaced := (h.built part.kvPart).heads
      (fun item hitem => hlow item (Specs.mem_sorted.mp hitem)) (Construction.mem_parts hp)
    exact (hplaced.bounds Nat.one_pos (List.mem_map_of_mem hs)).2
  levels := (h.built part.kvPart).levels (Construction.mem_parts hp) hs
  view := by
    intro offset ho temporary
    have hnumel := rowShape_le (s := s) hin hp hb
    have haux : pl.layout.auxArenaBytes = layout.auxArenaBytes := by rw [hin.layout_eq]
    have hrow := rowSpans_facts h hq hp hs (mem_rowSpans ho temporary)
    have hwithin := Nat.le_trans hrow.within hslot.aux
    rw [exactAuxView, elementView, haux, if_pos, row, haux]
    exact ⟨Nat.mod_eq_zero_of_dvd hrow.even,
      Nat.le_trans (Nat.add_le_add_left hnumel _) hwithin⟩
  apart := by
    rw [@rows_eq cfg _ _ _ _ _ hin]
    refine List.pairwise_map.mpr ((rowSpans_pairwise h hq hp hs).imp_of_mem ?_)
    intro u v hu hv hd
    have hu := rowSpans_facts h hq hp hs hu
    have hv := rowSpans_facts h hq hp hs hv
    have hnumel := rowShape_le (s := s) hin hp hb
    exact spanElements_apart hu.even hv.even (hu.size ▸ hnumel) (hv.size ▸ hnumel) hd

/-- **No two sections share heads or rows.** -/
theorem sections_apart (h : Construction specs cfg low layers groups layout B keys values)
    (hin : InLayout pl layout) (hq : cfg.usesQuantizer = true)
    (hheads : Placed 1 0 (part.sections.map QuantSection.heads) part.numHeads)
    (hp : part ∈ layout.layerParts) (hb : b ≤ cfg.logicalBlocksPerChunk) :
    part.sections.Pairwise (SectionsApart pl part (b * pl.blocksPerLogical)) := by
  have hdisjoint := List.pairwise_map.mp (hheads.pairwise Nat.one_pos)
  refine (hdisjoint.and (auxSpans_pairwise h hp).2).imp_of_mem ?_
  rintro s t hs ht ⟨hst, haux⟩
  have hsheads : s.headStart + s.headCount ≤ part.numHeads :=
    (hheads.bounds Nat.one_pos (List.mem_map_of_mem hs)).2
  have htheads : t.headStart + t.headCount ≤ part.numHeads :=
    (hheads.bounds Nat.one_pos (List.mem_map_of_mem ht)).2
  -- a head of one section is no head of the other
  have hne : ∀ {v : View} (x y : Index), x.Inside (v.narrow2 s.headStart s.headCount).shape →
      y.Inside (v.narrow2 t.headStart t.headCount).shape →
      (x.1, x.2.1, s.headStart + x.2.2.1, x.2.2.2) ≠
        ((y.1, y.2.1, t.headStart + y.2.2.1, y.2.2.2) : Index) := by
    intro v x y hx hy heq
    have hxlt : x.2.2.1 < s.headCount := hx.2.2.1
    have hylt : y.2.2.1 < t.headCount := hy.2.2.1
    simp only [Prod.mk.injEq] at heq
    simp only [Span.Disjoint, Span.stop, QuantSection.heads] at hst
    omega
  refine ⟨?_, ?_, ?_⟩
  · exact (View.narrow2Part hsheads).apart (View.narrow2Part htheads) View.contiguous_separated hne
  · exact (View.narrow2Part hsheads).apart (View.narrow2Part htheads) View.contiguous_separated hne
  · intro v hv u hu
    rw [@rows_eq cfg _ _ _ _ _ hin] at hv hu
    obtain ⟨sv, hsv, rfl⟩ := List.mem_map.mp hv
    obtain ⟨su, hsu, rfl⟩ := List.mem_map.mp hu
    have hvfacts := rowSpans_facts h hq hp hs hsv
    have hufacts := rowSpans_facts h hq hp ht hsu
    exact spanElements_apart hvfacts.even hufacts.even
      (hvfacts.size ▸ rowShape_le hin hp hb) (hufacts.size ▸ rowShape_le hin hp hb)
      (rowSpans_disjoint h hq hp hs ht haux sv hsv su hsu)

/-! ### Views of a body -/

theorem exactCanonicalA_eq (h : Construction specs cfg low layers groups layout B keys values)
    (hin : InLayout pl layout) (ha : cfg.usesAggregate = false) (hslot : slot.Fits layout)
    (hp : part ∈ layout.layerParts) (hb : b ≤ cfg.logicalBlocksPerChunk) :
    pl.exactCanonicalA slot part (b * pl.blocksPerLogical) =
      some (pl.elementsA part (b * pl.blocksPerLogical)) := by
  have hstride : pl.layout.scratchStride = layout.scratchStride := by rw [hin.layout_eq]
  have hnumel : (pl.bodyShape part (b * pl.blocksPerLogical)).numel * 2 ≤ layout.scratchStride :=
    Nat.le_trans (Nat.mul_le_mul_right 2 (Construction.viewNumel_le
      (Nat.mul_le_mul_right _ hb))) (h.numel_le_stride hp)
  have harena := Nat.le_trans (h.arena_le ha .key).1 hslot.arenaA
  have heven : layout.scratchStride % 2 = 0 := by
    have hdvd : alignment ∣ layout.scratchStride := by
      rw [h.scratchStride_eq]
      exact dvd_roundUp
    exact Nat.mod_eq_zero_of_dvd ((Nat.dvd_of_mod_eq_zero rfl).trans hdvd)
  have hraw := h.rawOffset_eq hp
  have hfirst : elementView slot.sizeA part.rawOffset (pl.bodyShape part (b * pl.blocksPerLogical))
      = some (pl.elementsA part (b * pl.blocksPerLogical)) := by
    refine if_pos ⟨?_, ?_⟩ <;> omega
  have hsecond : ∃ v, elementView slot.sizeA (pl.layout.scratchStride + part.rawOffset)
      (pl.bodyShape part (b * pl.blocksPerLogical)) = some v := by
    refine ⟨_, if_pos ⟨?_, ?_⟩⟩ <;> omega
  obtain ⟨v, hv⟩ := hsecond
  rw [bodyShape] at hfirst hv
  simp only [exactCanonicalA, hfirst, hv, Option.bind_eq_bind, Option.bind_some, Option.pure_def]

theorem exactU8Layer_eq (h : Construction specs cfg low layers groups layout B keys values)
    (hin : InLayout pl layout) (hq : cfg.usesQuantizer = true) (ha : cfg.usesAggregate = false)
    (hslot : slot.Fits layout) (hp : part ∈ layout.layerParts)
    (hb : b ≤ cfg.logicalBlocksPerChunk) :
    pl.exactU8Layer slot part (b * pl.blocksPerLogical) =
      some (pl.symbolsB part (b * pl.blocksPerLogical)) := by
  have hbase : pl.layout.u8Base = layout.u8Base := by rw [hin.layout_eq]
  have hsub := @Construction.packed_sub cfg part pl _
    (Nat.mul_le_mul_right pl.blocksPerLogical hb)
  rw [hq, if_pos rfl] at hsub
  have hstream := (h.stream part.kvPart).bounds Nat.one_pos
    (List.mem_map_of_mem (Construction.mem_parts hp))
  have harena := Nat.le_trans (h.arena_le ha part.kvPart).2 hslot.arenaB
  refine if_pos ?_
  have hstop := hsub.2
  simp only [Span.Within, Span.stop, Span.shift] at hstop hstream ⊢
  omega

/-- A body of complete blocks has no row without a token. -/
theorem validRows_body (hin : InLayout pl layout) (hp : part ∈ layout.layerParts) {v : View}
    (hv : v.shape = pl.bodyShape part (b * pl.blocksPerLogical)) :
    validRows v (b * part.blockSize) = v := by
  refine if_pos ?_
  rw [hv]
  exact (mul_kernelTokens_body hin hp b).symm

/-! ### The error bound -/

end Pipeline

namespace QuantSection

/-- The head of an element belongs to a section. -/
def Has (s : QuantSection) (x : Index) : Prop :=
  s.headStart ≤ x.2.2.1 ∧ x.2.2.1 < s.headStart + s.headCount

/-- The position of an element among the heads of a section. -/
def inHeads (s : QuantSection) (x : Index) : Index := (x.1, x.2.1, x.2.2.1 - s.headStart, x.2.2.2)

end QuantSection

namespace Pipeline

section Bound

variable {pl : Pipeline} {specs : Specs} {layout : CompressionLayout} {part : LayerPartLayout}
  {s : QuantSection} {n b : Nat} {x : Index}

theorem inHeads_inside (hx : x.Inside (pl.bodyShape part n)) (h : s.Has x) :
    (s.inHeads x).Inside (pl.sourceOf part n s).shape := by
  refine ⟨hx.1, hx.2.1, ?_, hx.2.2.2⟩
  show x.2.2.1 - s.headStart < s.headCount
  obtain ⟨hlo, hhi⟩ := h
  omega

theorem narrow2_inHeads (v : View) (h : s.Has x) :
    (v.narrow2 s.headStart s.headCount).addr (s.inHeads x) = v.addr x := by
  rw [View.narrow2_addr]
  simp only [QuantSection.inHeads, Nat.add_sub_cancel' h.1]

/-- Every element belongs to one section. -/
theorem existsUnique_section {heads : Nat} (h : Placed 1 0 (part.sections.map QuantSection.heads) heads)
    (hx : x.2.2.1 < heads) : ∃! i : Fin part.sections.length, (part.sections.get i).Has x := by
  have hlen : (part.sections.map QuantSection.heads).length = part.sections.length :=
    List.length_map ..
  have hhas : ∀ i : Fin (part.sections.map QuantSection.heads).length,
      (((part.sections.map QuantSection.heads).get i).start ≤ x.2.2.1 ∧
        x.2.2.1 < ((part.sections.map QuantSection.heads).get i).stop) ↔
      (part.sections.get (i.cast hlen)).Has x := by
    intro i
    rw [show (part.sections.map QuantSection.heads).get i =
      (part.sections.get (i.cast hlen)).heads from List.getElem_map _]
    exact Iff.rfl
  obtain ⟨i, hi, huniq⟩ := h.existsUnique (Nat.zero_le _) hx
  refine ⟨i.cast hlen, (hhas i).mp hi, fun j hj => ?_⟩
  rw [← huniq (j.cast hlen.symm) ((hhas _).mpr hj)]
  rfl

variable {K : Type} [Field K] [LinearOrder K] [IsStrictOrderedRing K] [FloorRing K]

/-- The scale that is stored for the group of an element. -/
def storedScale {K : Type} (pl : Pipeline) (part : LayerPartLayout) (n : Nat) (slot : ExactSlot K)
    (s : QuantSection) (x : Index) : K :=
  (pl.row part n s s.auxScaleOffset false).get slot.aux (auxKey s.axis (s.inHeads x))

/-- **The runtime quantizer.** For every layer part of a layout that was built and every body
of complete blocks, whatever the slot holds: every element belongs to one section; its symbol
is below the levels of that section; the scale stored for its group is that of the elements of
this group; and whatever arena A holds then, `_dequantize` returns a value within half of that
scale. -/
theorem exactQuantize_error (hbuild : buildCompressionLayout specs cfg low layers groups = .ok layout)
    (hlow : ∀ item ∈ specs.items, ∀ n, low item.2.layerIndex = some n → n ≤ item.2.numKvHeads)
    (hin : InLayout pl layout) (hq : cfg.usesQuantizer = true) (hp : part ∈ layout.layerParts)
    (hb : b ≤ cfg.logicalBlocksPerChunk) (slot : ExactSlot K) (hslot : slot.Fits layout) :
    let n := b * pl.blocksPerLogical
    (∀ x : Index, x.Inside (pl.bodyShape part n) →
      ∃! i : Fin part.sections.length, (part.sections.get i).Has x) ∧
    ∃ slot', pl.exactQuantize slot part n (b * part.blockSize) = some slot' ∧
      (∀ s ∈ part.sections, ∀ x : Index, x.Inside (pl.bodyShape part n) → s.Has x →
        ((pl.symbolsB part n).get slot'.arenaB x).toNat ≤ s.numLevels - 1 ∧
        pl.storedScale part n slot' s x =
          pl.groupScale part n s slot.arenaA (auxKey s.axis (s.inHeads x))) ∧
      ∀ arenaA : Nat → K, ∃ slot'',
        pl.exactDequantize { slot' with arenaA } part n (b * part.blockSize) = some slot'' ∧
        ∀ s ∈ part.sections, ∀ x : Index, x.Inside (pl.bodyShape part n) → s.Has x →
          |(pl.elementsA part n).get slot''.arenaA x - (pl.elementsA part n).get slot.arenaA x| ≤
            pl.storedScale part n slot' s x / 2 := by
  intro n
  obtain ⟨B, keys, values, h⟩ := buildCompressionLayout_cases hbuild
  have ha : cfg.usesAggregate = false := by
    rw [CompressionConfig.usesQuantizer, Bool.and_eq_true, Bool.not_eq_true'] at hq
    exact hq.1
  have hheads := (h.built part.kvPart).heads
    (fun item hitem => hlow item (Specs.mem_sorted.mp hitem)) (Construction.mem_parts hp)
  have hroom : ∀ {slot : ExactSlot K}, slot.Fits layout → ∀ s ∈ part.sections,
      SectionRoom pl part n slot s := fun hslot s hs => sectionRoom h hin hq hlow hslot hp hs hb
  have hapart := sections_apart h hin hq hheads hp hb
  refine ⟨fun x hx => existsUnique_section hheads hx.2.2.1, ?_⟩
  obtain ⟨slot', hslot', hsizes, hstored, -⟩ := foldlM_quantize
    (n * pl.kernelTokens part) (hroom hslot) hapart fun _ _ _ _ => rfl
  have hbody : n * pl.kernelTokens part = b * part.blockSize := mul_kernelTokens_body hin hp b
  have hvalidA : validRows (pl.elementsA part n) (b * part.blockSize) = pl.elementsA part n :=
    validRows_body hin hp rfl
  have hvalidB : validRows (pl.symbolsB part n) (b * part.blockSize) = pl.symbolsB part n :=
    validRows_body hin hp rfl
  have hviewA : ∀ {slot : ExactSlot K}, slot.Fits layout →
      pl.exactCanonicalA slot part n = some (pl.elementsA part n) :=
    fun hslot => exactCanonicalA_eq h hin ha hslot hp hb
  have hviewB : ∀ {slot : ExactSlot K}, slot.Fits layout →
      pl.exactU8Layer slot part n = some (pl.symbolsB part n) :=
    fun hslot => exactU8Layer_eq h hin hq ha hslot hp hb
  refine ⟨slot', ?_, ?_, ?_⟩
  · rw [exactQuantize, hviewA hslot, hviewB hslot]
    simp only [Option.bind_eq_bind, Option.bind_some, hvalidA, hvalidB]
    rw [← hbody]
    exact hslot'
  · intro s hs x hx hhas
    have hinside := inHeads_inside hx hhas
    refine ⟨?_, (hstored s hs).scale _ (auxKey_inside hinside s.axis)⟩
    have hsymbol := (hstored s hs).symbols _ hinside
    have haddr : (pl.outputOf part n s).get slot'.arenaB (s.inHeads x) =
        (pl.symbolsB part n).get slot'.arenaB x := congrArg slot'.arenaB (narrow2_inHeads _ hhas)
    rw [haddr] at hsymbol
    rw [hsymbol]
    exact groupSymbol_le (hroom hslot s hs) hinside
  · intro arenaA
    have hfits : ({ slot' with arenaA } : ExactSlot K).Fits layout :=
      ⟨hsizes.1 ▸ hslot.arenaA, hsizes.2.1 ▸ hslot.arenaB, hsizes.2.2 ▸ hslot.aux⟩
    obtain ⟨arenaA', hslot'', hread, -⟩ := foldlM_dequantize (hroom hfits) hapart
    refine ⟨{ slot' with arenaA := arenaA' }, ?_, ?_⟩
    · rw [exactDequantize, hviewA hfits, hviewB hfits]
      simp only [Option.bind_eq_bind, Option.bind_some, hvalidA, hvalidB]
      exact hslot''
    · intro s hs x hx hhas
      have hinside := inHeads_inside hx hhas
      have hbound := abs_readBack_sub_le (hroom hfits s hs)
        ⟨(hstored s hs).minimum, (hstored s hs).scale, (hstored s hs).symbols⟩ hinside
      rw [← hread s hs _ hinside] at hbound
      have haddr : ∀ m : Nat → K, (pl.sourceOf part n s).get m (s.inHeads x) =
          (pl.elementsA part n).get m x := fun m => congrArg m (narrow2_inHeads _ hhas)
      rw [haddr, haddr] at hbound
      exact hbound

/-- The keys of a layer with one head of low precision and one of high precision: two of three
logical blocks of a chunk, over the rationals. -/
theorem exactQuantize_error_mixed :
    let cfg : CompressionConfig := { splitType := .head, logicalBlocksPerChunk := 3 }
    let specs : Specs :=
      ⟨[("b", { layerIndex := 1, blockSize := 4, numKvHeads := 2, headSize := 8,
                dtype := .bfloat16, headSizeV? := some 4 }),
        ("a", { layerIndex := 0, blockSize := 4, numKvHeads := 2, headSize := 8,
                dtype := .bfloat16 })], by decide⟩
    let pl := fun layout =>
      ({ ar := .words, layout, blocksPerLogical := 2, stages := cfg.pipeline,
         codec := ⟨id, fun bytes _ => bytes⟩, signs := fun _ _ _ _ => (0, 0),
         headOrders := fun _ => [0, 1],
         caches := fun _ => ⟨.contiguous 0 2 (6, 2, 2, 16), View.contiguous_separated⟩ } : Pipeline)
    let slot : ExactSlot Rat := ⟨1536, 1536, 3072, fun a => a, fun _ => 7, fun a => a⟩
    ∃ layout part slot', buildCompressionLayout specs cfg (fun i => some (1 - i)) 2 = .ok layout ∧
      part ∈ layout.layerParts ∧ part.sections.map (·.headCount) = [1, 1] ∧
      (pl layout).exactQuantize slot part 4 8 = some slot' ∧
      ∀ s ∈ part.sections, ∀ x : Index, x.Inside ((pl layout).bodyShape part 4) → s.Has x →
        (((pl layout).symbolsB part 4).get slot'.arenaB x).toNat ≤ s.numLevels - 1 := by
  intro cfg specs pl slot
  have hlayout : ∃ layout, buildCompressionLayout specs cfg (fun i => some (1 - i)) 2 = .ok layout ∧
      layout.arenaBytes = 1536 ∧ layout.auxArenaBytes = 3072 ∧
      (∀ p ∈ layout.layerParts, 2 ∣ p.blockSize) ∧ ∃ part, layout.layerParts.head? = some part ∧
        part.sections.map (·.headCount) = [1, 1] ∧ part.blockSize = 4 :=
    ⟨_, rfl, by decide +kernel, by decide +kernel, by decide +kernel, _, rfl, rfl, rfl⟩
  obtain ⟨layout, hbuild, harena, haux, hdvd, part, hhead, hcounts, hsize⟩ := hlayout
  have hpart := List.mem_of_head? hhead
  have hin : InLayout (pl layout) layout := ⟨rfl, Nat.le_refl _, hdvd⟩
  have hlow : ∀ item ∈ specs.items, ∀ n, some (1 - item.2.layerIndex) = some n →
      n ≤ item.2.numKvHeads := by
    intro item hitem n hn
    cases hn
    have hheads : ∀ item ∈ specs.items, item.2.numKvHeads = 2 := by decide
    have := hheads item hitem
    omega
  have hfits : slot.Fits layout :=
    ⟨Nat.le_of_eq harena, Nat.le_of_eq harena, Nat.le_of_eq haux⟩
  have htwo : 2 ≤ cfg.logicalBlocksPerChunk := by decide
  obtain ⟨_, slot', hslot', hsymbols, _⟩ :=
    exactQuantize_error hbuild hlow hin rfl hpart htwo slot hfits
  rw [hsize] at hslot'
  exact ⟨layout, part, slot', hbuild, hpart, hcounts, hslot',
    fun s hs x hx hhas => (hsymbols s hs x hx hhas).1⟩

end Bound

end Pipeline

end KVServe.Runtime

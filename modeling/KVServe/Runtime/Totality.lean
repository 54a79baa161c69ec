import KVServe.Lib.Blocks
import KVServe.Runtime.Body
import KVServe.Runtime.SlotRoom

/-!
# KVServe.Runtime.Totality

**Nothing of a chunk is cut off.** In a slot that has room every stage returns, whatever the
buffers hold: encoding fills the auxiliary rows and the raw tail up to the bytes that are sent,
and decoding slices no more than that.
-/

namespace KVServe.Runtime

/-! ### Buffers of a slot -/

/-- The same buffers and the same ids; of the auxiliary rows and the raw tail the bytes at some
addresses are kept. -/
structure Slot.Keeps (aux tail : Nat → Prop) (s s' : Slot) : Prop where
  arenaA : s'.arenaA.size = s.arenaA.size
  arenaB : s'.arenaB.size = s.arenaB.size
  auxSize : s'.aux.size = s.aux.size
  tailSize : s'.rawTail.size = s.rawTail.size
  blockIndices : s'.blockIndices = s.blockIndices
  auxMem : ∀ a, aux a → s'.aux.mem a = s.aux.mem a
  tailMem : ∀ a, tail a → s'.rawTail.mem a = s.rawTail.mem a

namespace Slot.Keeps

variable {aux tail : Nat → Prop} {s s' s'' : Slot} {m : Mem}

theorem refl (aux tail : Nat → Prop) (s : Slot) : s.Keeps aux tail s :=
  ⟨rfl, rfl, rfl, rfl, rfl, fun _ _ => rfl, fun _ _ => rfl⟩

theorem trans (h : s.Keeps aux tail s') (h' : s'.Keeps aux tail s'') : s.Keeps aux tail s'' where
  arenaA := h'.arenaA.trans h.arenaA
  arenaB := h'.arenaB.trans h.arenaB
  auxSize := h'.auxSize.trans h.auxSize
  tailSize := h'.tailSize.trans h.tailSize
  blockIndices := h'.blockIndices.trans h.blockIndices
  auxMem a ha := (h'.auxMem a ha).trans (h.auxMem a ha)
  tailMem a ha := (h'.tailMem a ha).trans (h.tailMem a ha)

theorem setA : s.Keeps aux tail (s.setA m) :=
  ⟨rfl, rfl, rfl, rfl, rfl, fun _ _ => rfl, fun _ _ => rfl⟩

theorem setB : s.Keeps aux tail (s.setB m) :=
  ⟨rfl, rfl, rfl, rfl, rfl, fun _ _ => rfl, fun _ _ => rfl⟩

theorem setAux (h : ∀ a, aux a → m a = s.aux.mem a) : s.Keeps aux tail (s.setAux m) :=
  ⟨rfl, rfl, rfl, rfl, rfl, h, fun _ _ => rfl⟩

theorem setTail (h : ∀ a, tail a → m a = s.rawTail.mem a) : s.Keeps aux tail (s.setTail m) :=
  ⟨rfl, rfl, rfl, rfl, rfl, fun _ _ => rfl, h⟩

end Slot.Keeps

theorem SlotRoom.keeps {pl : Pipeline} {maxBlocks : Nat} {s s' : Slot} {aux tail : Nat → Prop}
    (h : SlotRoom pl maxBlocks s) (hkeeps : s.Keeps aux tail s') : SlotRoom pl maxBlocks s' where
  whole := h.whole
  keys := h.keys
  scratch part hp blocks hblocks := by
    obtain ⟨hdisjoint, hA, hB⟩ := h.scratch part hp blocks hblocks
    exact ⟨hdisjoint, hkeeps.arenaA ▸ hA, hkeeps.arenaA ▸ hB⟩
  stream part hp blocks hblocks := hkeeps.arenaB ▸ h.stream part hp blocks hblocks
  payload kv tokens := by
    rw [hkeeps.arenaA, hkeeps.arenaB]
    exact h.payload kv tokens
  rows := h.rows
  halves := h.halves
  aux := hkeeps.auxSize ▸ h.aux
  tail kv tokens := hkeeps.tailSize ▸ h.tail kv tokens

theorem SlotRoom.withRows {pl : Pipeline} {maxBlocks : Nat} {s : Slot}
    (h : SlotRoom pl maxBlocks s) (rows : Nat → Nat → Nat) :
    SlotRoom pl maxBlocks { s with blockIndices := rows } where
  whole := h.whole
  keys := h.keys
  scratch part hp blocks hblocks := by
    obtain ⟨hdisjoint, hA, hB⟩ := h.scratch part hp blocks hblocks
    exact ⟨hdisjoint, hA, hB⟩
  stream := h.stream
  payload := h.payload
  rows := h.rows
  halves := h.halves
  aux := h.aux
  tail := h.tail

namespace Pipeline

variable {pl : Pipeline} {kv : KV} {slot : Slot} {part : LayerPartLayout} {indices : List Nat}
  {maxBlocks n : Nat} {aux tail : Nat → Prop}

/-! ### Gathering and transforming -/

theorem exists_gatherRearrange (hroom : pl.Room slot part indices.length)
    (hin : ∀ b ∈ indices, b < (pl.cachePart part).shape.1) :
    ∃ mA inB, pl.gatherRearrange kv slot part indices = some (slot.setA mA, inB) := by
  simp only [gatherRearrange, hroom.layerViews, selectBlocks_eq hin, bind, Option.bind, pure]
  split
  · split
    · exact ⟨_, _, rfl⟩
    · exact ⟨_, _, rfl⟩
  · exact ⟨_, _, rfl⟩

theorem exists_transform (hroom : pl.Room slot part n) (inB : Bool) :
    ∃ mA, pl.transform slot part n inB = some (slot.setA mA) := by
  rw [transform]
  split
  · simp only [hadamardForward, hroom.layerViews, bind, Option.bind, pure]
    exact ⟨_, rfl⟩
  · split
    · simp only [copyBack, hroom.layerViews, bind, Option.bind, pure]
      exact ⟨_, rfl⟩
    · exact ⟨slot.arenaA.mem, rfl⟩

/-! ### Sections -/

section Sections

variable {offset : Nat} {shape : Index} {s : QuantSection} {validTokens capacity : Nat}
  {validA validU8 : View}

/-- A planned row, or its image in the temporary half. -/
theorem auxView_eq (hfit : offset + shape.numel * 2 ≤ pl.layout.auxArenaBytes / 2)
    (haux : pl.layout.auxArenaBytes ≤ slot.aux.size) (temporary : Bool) :
    pl.auxView slot offset shape temporary = some (.contiguous
      (if temporary then offset + pl.layout.auxArenaBytes / 2 else offset) 2 shape) := by
  refine if_pos ?_
  split <;> omega

/-- No row reaches the bytes between the planned rows and the temporary half. -/
theorem not_covers_row {bytes a : Nat} (hfit : offset + shape.numel * 2 ≤ bytes) (hle : bytes ≤ a)
    (hlt : a < pl.layout.auxArenaBytes / 2) (temporary : Bool) :
    ¬ (View.contiguous (if temporary then offset + pl.layout.auxArenaBytes / 2 else offset) 2
      shape).Covers 2 a := by
  intro hcovers
  have hspan := View.contiguous_covers hcovers
  simp only [View.span, Span.stop] at hspan
  cases temporary with
  | false =>
      simp only [Bool.false_eq_true, if_false] at hspan
      omega
  | true =>
      simp only [if_true] at hspan
      omega

/-- **A section returns** and writes its own rows only. -/
theorem exists_quantizeSection (h : SlotRoom pl maxBlocks slot)
    (hq : pl.stages.contains .quantizer = true) (hp : part ∈ pl.layout.layerParts)
    (hs : s ∈ part.sections)
    (hrows : validA.shape.1 * validA.shape.2.1 ≤ maxBlocks * part.blockSize)
    (hcapacity : capacity ≤ validTokens)
    (haux : ∀ a, aux a → pl.layout.auxBytesByPart part.kvPart ≤ a ∧
      a < pl.layout.auxArenaBytes / 2) :
    ∃ slot', pl.quantizeSection part capacity validTokens validA validU8 slot s = some slot' ∧
      slot.Keeps aux tail slot' := by
  have hfit := h.rows hq part hp s hs (validA.shape.1, validA.shape.2.1) hrows
  have hmin := hfit s.auxMinOffset List.mem_cons_self
  have hscale := hfit s.auxScaleOffset (List.mem_cons_of_mem _ List.mem_cons_self)
  have hhalf := h.halves hq part.kvPart
  simp only [quantizeSection, auxView_eq (Nat.le_trans hmin hhalf) h.aux,
    auxView_eq (Nat.le_trans hscale hhalf) h.aux, bind, Option.bind, pure]
  refine ⟨_, rfl, .trans (.trans (.setAux fun a ha => ?_) .setA) .setB⟩
  obtain ⟨hle, hlt⟩ := haux a ha
  have hmins := fun temporary => @not_covers_row pl _ _ _ _ hmin hle hlt temporary
  have hscales := fun temporary => @not_covers_row pl _ _ _ _ hscale hle hlt temporary
  refine (View.storeCells_frame (hscales true)).trans ?_
  refine (View.storeCells_frame (hscales false)).trans ?_
  refine (View.storeCells_frame (hscales true)).trans ?_
  refine (View.storeCells_frame (hmins true)).trans ?_
  refine (View.storeCells_frame (hmins false)).trans ?_
  -- a body of complete blocks has no rows to clear
  have hclear : ∀ offset m, zeroAuxRows offset capacity validTokens m a = m a := by
    intro offset m
    refine Mem.fill_frame ?_
    simp only [Span.stop]
    omega
  split
  · rw [hclear, hclear]
  · rfl

/-- **So do all sections of a layer part.** -/
theorem exists_foldlM_quantizeSection (h : SlotRoom pl maxBlocks slot)
    (hq : pl.stages.contains .quantizer = true) (hp : part ∈ pl.layout.layerParts)
    (hrows : validA.shape.1 * validA.shape.2.1 ≤ maxBlocks * part.blockSize)
    (hcapacity : capacity ≤ validTokens)
    (haux : ∀ a, aux a → pl.layout.auxBytesByPart part.kvPart ≤ a ∧
      a < pl.layout.auxArenaBytes / 2) :
    ∃ slot', part.sections.foldlM
        (pl.quantizeSection part capacity validTokens validA validU8) slot = some slot' ∧
      slot.Keeps aux tail slot' := by
  obtain ⟨slot', hfold, -, hkeeps⟩ := @exists_foldlM _ _
    (pl.quantizeSection part capacity validTokens validA validU8)
    (fun rest s => (∀ x ∈ rest, x ∈ part.sections) ∧ slot.Keeps aux tail s)
    (fun x rest s hI => by
      obtain ⟨hmem, hkeeps⟩ := hI
      obtain ⟨s', hs', hkeeps'⟩ := exists_quantizeSection (h.keeps hkeeps) hq hp
        (hmem x List.mem_cons_self) hrows hcapacity haux
      exact ⟨s', hs', fun y hy => hmem y (List.mem_cons_of_mem _ hy), hkeeps.trans hkeeps'⟩)
    part.sections slot ⟨fun _ hx => hx, .refl aux tail slot⟩
  exact ⟨slot', hfold, hkeeps⟩

end Sections

/-! ### Stages of a body -/

/-- Kernel blocks of a chunk hold the tokens of its logical blocks. -/
theorem WholeBlocks.mul_le (h : pl.WholeBlocks part) (hn : n ≤ maxBlocks * pl.blocksPerLogical) :
    n * pl.kernelTokens part ≤ maxBlocks * part.blockSize :=
  calc n * pl.kernelTokens part
      ≤ maxBlocks * pl.blocksPerLogical * pl.kernelTokens part := Nat.mul_le_mul_right _ hn
    _ = maxBlocks * part.blockSize := by rw [Nat.mul_assoc, h.mul_kernelTokens]

theorem u8View_eq (h : SlotRoom pl maxBlocks slot) (hq : pl.stages.contains .quantizer = true)
    (hp : part ∈ pl.layout.layerParts) (hn : n ≤ maxBlocks * pl.blocksPerLogical) :
    pl.u8View slot part n = some (.contiguous (pl.u8Span part n).start 1
      (n, pl.kernelTokens part, part.numHeads, part.headSize)) := by
  have hwithin := h.stream part hp n hn
  rw [streamSpan, if_pos hq] at hwithin
  exact if_pos hwithin

theorem exists_quantize (h : SlotRoom pl maxBlocks slot)
    (hq : pl.stages.contains .quantizer = true) (hp : part ∈ pl.layout.layerParts)
    (hn : n ≤ maxBlocks * pl.blocksPerLogical)
    (haux : ∀ a, aux a → pl.layout.auxBytesByPart part.kvPart ≤ a ∧
      a < pl.layout.auxArenaBytes / 2) :
    ∃ slot', pl.quantize slot part n (n * pl.kernelTokens part) = some slot' ∧
      slot.Keeps aux tail slot' := by
  let validA := validRows (pl.viewsOf part n).canonicalA (n * pl.kernelTokens part)
  have hvalid : validA = (pl.viewsOf part n).canonicalA := if_pos rfl
  have hrows : validA.shape.1 * validA.shape.2.1 ≤ maxBlocks * part.blockSize := by
    rw [hvalid]
    exact (h.whole part hp).mul_le hn
  simp only [quantize, (h.scratch part hp n hn).layerViews, u8View_eq h hq hp hn, bind, Option.bind]
  exact exists_foldlM_quantizeSection h hq hp hrows (Nat.le_refl _) haux

theorem exists_emit (h : SlotRoom pl maxBlocks slot) (hp : part ∈ pl.layout.layerParts)
    (hn : n ≤ maxBlocks * pl.blocksPerLogical)
    (haux : pl.stages.contains .quantizer = true → ∀ a, aux a →
      pl.layout.auxBytesByPart part.kvPart ≤ a ∧ a < pl.layout.auxArenaBytes / 2) :
    ∃ slot', pl.emit slot part n (n * pl.kernelTokens part) = some slot' ∧
      slot.Keeps aux tail slot' := by
  rw [emit]
  split
  · next hq => exact exists_quantize h hq hp hn (haux hq)
  · next hq =>
      have hwithin := h.stream part hp n hn
      rw [streamSpan, if_neg hq] at hwithin
      simp only [pack, (h.scratch part hp n hn).layerViews, bind, Option.bind, pure, guard,
        if_pos hwithin]
      exact ⟨_, rfl, .setB⟩

/-! ### Windows -/

/-- The blocks of a layer part for its valid tokens: as many as the tokens need, at most a
chunk, all of them in the cache. -/
structure Window (pl : Pipeline) (maxBlocks : Nat) (part : LayerPartLayout) (ids : List Nat)
    (validTokens : Nat) : Prop where
  pos : 0 < validTokens
  count : ids.length = (validTokens + part.blockSize - 1) / part.blockSize
  le : ids.length ≤ maxBlocks
  inside : ∀ b ∈ pl.physicalIds ids, b < (pl.cachePart part).shape.1

namespace Window

variable {ids : List Nat} {validTokens : Nat}

theorem length_pos (h : pl.Window maxBlocks part ids validTokens) (hpos : 0 < part.blockSize) :
    0 < ids.length := by
  rw [h.count]
  have htokens := h.pos
  exact Nat.div_pos (by omega) hpos

theorem complete_le (h : pl.Window maxBlocks part ids validTokens) (hpos : 0 < part.blockSize) :
    validTokens / part.blockSize ≤ ids.length := by
  rw [h.count]
  exact Nat.div_le_div_right (by omega)

/-- The kernel blocks of the body. -/
theorem bodyBlocks_le (h : pl.Window maxBlocks part ids validTokens) (hpos : 0 < part.blockSize) :
    pl.bodyBlocks part validTokens ≤ (pl.physicalIds ids).length ∧
      pl.bodyBlocks part validTokens ≤ maxBlocks * pl.blocksPerLogical := by
  rw [bodyBlocks_eq pl hpos, length_physicalIds]
  have hle := h.complete_le hpos
  exact ⟨Nat.mul_le_mul_right _ hle, Nat.mul_le_mul_right _ (Nat.le_trans hle h.le)⟩

/-- The blocks of the tail fit a chunk. -/
theorem factor_le (h : pl.Window maxBlocks part ids validTokens) (hpos : 0 < part.blockSize) :
    pl.blocksPerLogical ≤ maxBlocks * pl.blocksPerLogical :=
  Nat.le_mul_of_pos_left _ (Nat.lt_of_lt_of_le (h.length_pos hpos) h.le)

end Window

/-- The tokens of a body fill its kernel blocks. -/
theorem bodyTokens_eq_mul (h : pl.WholeBlocks part) (validTokens : Nat) :
    bodyTokens part validTokens =
      pl.bodyBlocks part validTokens * pl.kernelTokens part := by
  rw [bodyBlocks_eq pl h.pos, Nat.mul_assoc, h.mul_kernelTokens, bodyTokens_eq]

/-! ### Encoding -/

section Encode

variable {ids : List Nat} {validTokens offset : Nat}

theorem exists_encodeBody (h : SlotRoom pl maxBlocks slot) (hp : part ∈ pl.layout.layerParts)
    (hw : pl.Window maxBlocks part ids validTokens)
    (haux : pl.stages.contains .quantizer = true → bodyTokens part validTokens ≠ 0 → ∀ a, aux a →
      pl.layout.auxBytesByPart part.kvPart ≤ a ∧ a < pl.layout.auxArenaBytes / 2) :
    ∃ slot', pl.encodeBody kv part (pl.physicalIds ids) validTokens slot = some slot' ∧
      slot.Keeps aux tail slot' := by
  have hwhole := h.whole part hp
  rw [encodeBody]
  split
  · exact ⟨slot, rfl, .refl aux tail slot⟩
  · next hbody =>
      obtain ⟨hle, hn⟩ := hw.bodyBlocks_le hwhole.pos
      have hroom := h.scratch part hp _ hn
      generalize hbodyIds : (pl.physicalIds ids).take (pl.bodyBlocks part validTokens) = body
      have hlength : body.length = pl.bodyBlocks part validTokens := by
        rw [← hbodyIds, List.length_take_of_le hle]
      have hin : ∀ b ∈ body, b < (pl.cachePart part).shape.1 := by
        intro b hb
        rw [← hbodyIds] at hb
        exact hw.inside b (List.mem_of_mem_take hb)
      obtain ⟨mA, inB, hgather⟩ := @exists_gatherRearrange pl kv slot part body
        (hlength.symm ▸ hroom) hin
      have hkeepsA : slot.Keeps aux tail (slot.setA mA) := .setA
      obtain ⟨mA', htransform⟩ := exists_transform ((h.keeps hkeepsA).scratch part hp _ hn) inB
      have hkeepsA' : (slot.setA mA).Keeps aux tail ((slot.setA mA).setA mA') := .setA
      obtain ⟨slot', hemit, hkeeps⟩ := @exists_emit pl ((slot.setA mA).setA mA') part maxBlocks
        (pl.bodyBlocks part validTokens) aux tail ((h.keeps hkeepsA).keeps hkeepsA') hp hn
        fun hq => haux hq hbody
      refine ⟨slot', ?_, (hkeepsA.trans hkeepsA').trans hkeeps⟩
      simp only [hgather, hlength, htransform, bodyTokens_eq_mul hwhole, hemit, bind, Option.bind]

/-- **A layer part is encoded**, and its raw tail follows the one before. -/
theorem exists_encodePart (h : SlotRoom pl maxBlocks slot) (hp : part ∈ pl.layout.layerParts)
    {cache : List (Nat × Nat × Nat)} {tokens : Nat → Nat}
    (hindices : Pipeline.indices slot cache part.groupIndex = some (pl.physicalIds ids))
    (hw : pl.Window maxBlocks part ids (tokens part.groupIndex))
    (hfit : offset + tokens part.groupIndex % part.blockSize * CompressionLayout.tokenBytes part ≤
      slot.rawTail.size)
    (htail : ∀ a, tail a → offset +
      tokens part.groupIndex % part.blockSize * CompressionLayout.tokenBytes part ≤ a)
    (haux : pl.stages.contains .quantizer = true →
      bodyTokens part (tokens part.groupIndex) ≠ 0 → ∀ a, aux a →
        pl.layout.auxBytesByPart part.kvPart ≤ a ∧ a < pl.layout.auxArenaBytes / 2) :
    ∃ slot', pl.encodePart kv cache tokens (slot, offset) part = some (slot', offset +
        tokens part.groupIndex % part.blockSize * CompressionLayout.tokenBytes part) ∧
      slot.Keeps aux tail slot' := by
  have hwhole := h.whole part hp
  obtain ⟨mA, mT, hpack, -, hframe⟩ := @packRawTail_spec pl part kv slot
    (pl.physicalIds ids) _ hwhole (h.scratch part hp _ (hw.factor_le hwhole.pos))
    (tokens part.groupIndex) offset (fun _ => rfl)
    (fun b hb => hw.inside b (List.mem_of_mem_drop hb)) hfit
  have hkeepsT : slot.Keeps aux tail ((slot.setA mA).setTail mT) :=
    Slot.Keeps.setA.trans (.setTail fun a ha => hframe a (.inr (htail a ha)))
  obtain ⟨slot', hencode, hkeeps⟩ := @exists_encodeBody pl kv _ part maxBlocks aux tail ids _
    (h.keeps hkeepsT) hp hw haux
  refine ⟨slot', ?_, hkeepsT.trans hkeeps⟩
  simp only [encodePart, hindices, hpack, hencode, bind, Option.bind, pure]

end Encode

/-! ### Chunks -/

/-- The index rows of a slot hold the ids of a chunk, one row for each group of the layers. -/
structure IndexRoom (pl : Pipeline) (maxBlocks : Nat) (slot : Slot) : Prop where
  rows : pl.RowsFit slot
  cols : maxBlocks * pl.blocksPerLogical ≤ slot.indexCols
  row : ∀ part ∈ pl.layout.layerParts, ∃ row,
    pl.layout.indexRowsByGroup.lookup part.groupIndex = some row
  group : ∀ group row, pl.layout.indexRowsByGroup.lookup group = some row →
    ∃ part ∈ pl.layout.layerParts, part.groupIndex = group

theorem IndexRoom.congr {slot' : Slot} (h : pl.IndexRoom maxBlocks slot)
    (hrows : slot'.indexRows = slot.indexRows) (hcols : slot'.indexCols = slot.indexCols) :
    pl.IndexRoom maxBlocks slot' where
  rows := ⟨fun group row hrow => hrows ▸ h.rows.lt group row hrow, h.rows.inj⟩
  cols := hcols ▸ h.cols
  row := h.row
  group := h.group

/-- Every group of the layers has the blocks its tokens need. -/
def Windows (pl : Pipeline) (maxBlocks : Nat) (idsByGroup : List (List Nat)) (tokens : Nat → Nat) :
    Prop :=
  ∀ part ∈ pl.layout.layerParts,
    pl.Window maxBlocks part (idsByGroup.getD part.groupIndex []) (tokens part.groupIndex)

variable {idsByGroup : List (List Nat)} {tokens : Nat → Nat} {cache : List (Nat × Nat × Nat)}

/-- Every layer part reads its ids from any slot with the same rows. -/
def Reads (pl : Pipeline) (idsByGroup : List (List Nat)) (cache : List (Nat × Nat × Nat))
    (slot : Slot) : Prop :=
  ∀ part ∈ pl.layout.layerParts, ∀ s : Slot, s.blockIndices = slot.blockIndices →
    Pipeline.indices s cache part.groupIndex =
      some (pl.physicalIds (idsByGroup.getD part.groupIndex []))

theorem exists_groupIndices (h : pl.IndexRoom maxBlocks slot)
    (hpos : ∀ part ∈ pl.layout.layerParts, 0 < part.blockSize)
    (hw : pl.Windows maxBlocks idsByGroup tokens) :
    ∃ rows cache, pl.groupIndices slot idsByGroup =
        some ({ slot with blockIndices := rows }, cache) ∧
      pl.Reads idsByGroup cache { slot with blockIndices := rows } := by
  obtain ⟨rows, cache, hgroup, hindexed⟩ := @groupIndices_spec pl slot idsByGroup h.rows
    (fun group row hrow => by
      obtain ⟨part, hp, rfl⟩ := h.group group row hrow
      exact Nat.le_trans (Nat.mul_le_mul_right _ (hw part hp).le) h.cols)
  refine ⟨rows, cache, hgroup, fun part hp s hs => ?_⟩
  obtain ⟨row, hrow⟩ := h.row part hp
  have hids := (hw part hp).length_pos (hpos part hp)
  have hlt : part.groupIndex < idsByGroup.length := by
    by_contra hge
    rw [List.getD_eq_default _ _ (Nat.le_of_not_lt hge)] at hids
    exact Nat.lt_irrefl _ hids
  exact hindexed.indices hs hlt hrow (List.ne_nil_of_length_pos hids)

/-- A layer part with complete blocks gives the chunk a body. -/
theorem hasBody_of_bodyTokens (hkey : ∃ k ∈ pl.layout.parts .key,
      k.blockSize = part.blockSize ∧ k.groupIndex = part.groupIndex)
    (hbody : bodyTokens part (tokens part.groupIndex) ≠ 0) : pl.layout.hasBody tokens = true := by
  obtain ⟨k, hk, hsize, hgroup⟩ := hkey
  refine List.any_eq_true.mpr ⟨k, hk, decide_eq_true ?_⟩
  rw [hsize, hgroup]
  by_contra hlt
  refine hbody ?_
  rw [bodyTokens, Nat.mod_eq_of_lt (Nat.lt_of_not_le hlt), Nat.sub_self]

/-- The bytes between the auxiliary rows that are sent and the temporary half. -/
def AuxRest (pl : Pipeline) (kvPart : KVPart) (tokens : Nat → Nat) (a : Nat) : Prop :=
  pl.auxBytes kvPart tokens ≤ a ∧ a < pl.layout.auxArenaBytes / 2

/-- The bytes after the raw tail that is sent. -/
def TailRest (pl : Pipeline) (kvPart : KVPart) (tokens : Nat → Nat) (a : Nat) : Prop :=
  pl.layout.rawTailBytes kvPart tokens ≤ a

variable {kvPart : KVPart}

/-- **The loop of `encode` returns**; the raw tails of the layers add up to what is sent. -/
theorem exists_foldlM_encodePart (h : SlotRoom pl maxBlocks slot)
    (hw : pl.Windows maxBlocks idsByGroup tokens) (hreads : pl.Reads idsByGroup cache slot) :
    ∃ slot', (pl.layout.parts kvPart).foldlM (pl.encodePart kv cache tokens) (slot, 0) =
        some (slot', pl.layout.rawTailBytes kvPart tokens) ∧
      slot.Keeps (pl.AuxRest kvPart tokens) (pl.TailRest kvPart tokens) slot' := by
  let rest : List LayerPartLayout → Nat := fun parts => (parts.map fun p =>
    tokens p.groupIndex % p.blockSize * CompressionLayout.tokenBytes p).sum
  obtain ⟨⟨slot', offset⟩, hfold, -, hkeeps, hoffset⟩ := @exists_foldlM _ _
    (pl.encodePart kv cache tokens)
    (fun parts (s : Slot × Nat) => (∀ p ∈ parts, p ∈ pl.layout.parts kvPart) ∧
      slot.Keeps (pl.AuxRest kvPart tokens) (pl.TailRest kvPart tokens) s.1 ∧
      s.2 + rest parts = pl.layout.rawTailBytes kvPart tokens)
    (fun part parts s hI => by
      obtain ⟨hmem, hkeeps, hoffset⟩ := hI
      obtain ⟨hp, hkv⟩ := Construction.of_mem_parts (hmem part List.mem_cons_self)
      simp only [rest, List.map_cons, List.sum_cons] at hoffset
      have hroom := h.keeps hkeeps
      have hsize := hroom.tail kvPart tokens
      obtain ⟨s', hs', hkeeps'⟩ := @exists_encodePart pl kv s.1 part maxBlocks
        (pl.AuxRest kvPart tokens) (pl.TailRest kvPart tokens) _ s.2 hroom hp cache tokens
        (hreads part hp s.1 hkeeps.blockIndices) (hw part hp) (by omega)
        (fun a ha => by
          have ha : pl.layout.rawTailBytes kvPart tokens ≤ a := ha
          omega)
        (fun hq hbody a ha => by
          obtain ⟨hle, hlt⟩ := ha
          rw [auxBytes, if_pos ⟨hasBody_of_bodyTokens (h.keys part hp) hbody, hq⟩] at hle
          exact ⟨hkv ▸ hle, hlt⟩)
      exact ⟨_, hs', fun p hp => hmem p (List.mem_cons_of_mem _ hp), hkeeps.trans hkeeps', by
        simp only [rest]
        omega⟩)
    (pl.layout.parts kvPart) (slot, 0) ⟨fun _ hp => hp, .refl _ _ slot, Nat.zero_add _⟩
  obtain rfl : offset = pl.layout.rawTailBytes kvPart tokens := hoffset
  exact ⟨slot', hfold, hkeeps⟩

/-- The payload of a chunk: its sizes, as `decode` checks them. -/
structure Payload (pl : Pipeline) (capacity u8Bytes rawTailBytes : Nat) (chunk : EncodedChunk) :
    Prop where
  u8Bytes : chunk.u8Bytes = u8Bytes
  capacity : chunk.codecBytes ≤ capacity
  plain : pl.stages.contains .codec = false → chunk.codecBytes = chunk.u8Bytes
  rawTail : chunk.rawTailBytes = rawTailBytes

theorem exists_sealPayload {u8Bytes : Nat} (rawTailBytes : Nat)
    (hB : pl.layout.u8Base + u8Bytes ≤ slot.arenaB.size) (hA : u8Bytes ≤ slot.arenaA.size)
    (hcodec : pl.stages.contains .codec = true → u8Bytes ≠ 0 → ∀ bytes : List UInt8,
      bytes.length = u8Bytes → (pl.codec.encode bytes).length ≤ slot.arenaA.size) :
    ∃ slot' chunk, pl.sealPayload slot u8Bytes rawTailBytes rawTailBytes = some (slot', chunk) ∧
      slot.Keeps aux tail slot' ∧ pl.Payload slot.arenaA.size u8Bytes rawTailBytes chunk := by
  rw [sealPayload]
  split
  · simp only [guard, hA, hB, and_self, if_true, bind, Option.bind, pure]
    exact ⟨_, _, rfl, .setA, ⟨rfl, hA, fun _ => rfl, rfl⟩⟩
  · next hcond =>
      rw [not_or, Classical.not_not] at hcond
      obtain ⟨hne, hstage⟩ := hcond
      have hout := hcodec hstage hne ((List.range u8Bytes).map fun k =>
        slot.arenaB.mem (pl.layout.u8Base + k)) (by rw [List.length_map, List.length_range])
      simp only [guard, hB, hout, if_true, bind, Option.bind, pure]
      exact ⟨_, _, rfl, .setA, ⟨rfl, hout, fun hno => absurd hstage (by rw [hno]; decide), rfl⟩⟩

/-- What `encode` leaves in a slot and hands on: the sizes of the chunk, and nothing written
past the auxiliary rows and the raw tail that are sent. -/
structure Encoded (pl : Pipeline) (slot : Slot) (kvPart : KVPart) (tokens : Nat → Nat)
    (slot' : Slot) (chunk : EncodedChunk) : Prop where
  payload : pl.Payload slot.arenaA.size (pl.streamBytes kvPart tokens)
    (pl.layout.rawTailBytes kvPart tokens) chunk
  aux : ∀ a, pl.AuxRest kvPart tokens a → slot'.aux.mem a = slot.aux.mem a
  tail : ∀ a, pl.TailRest kvPart tokens a → slot'.rawTail.mem a = slot.rawTail.mem a

/-- **Encoding never fails.** -/
theorem exists_encode (ha : pl.stages.contains .aggregate = false)
    (h : SlotRoom pl maxBlocks slot) (hindex : pl.IndexRoom maxBlocks slot)
    (hw : pl.Windows maxBlocks idsByGroup tokens)
    (hcodec : pl.stages.contains .codec = true → pl.streamBytes kvPart tokens ≠ 0 →
      ∀ bytes : List UInt8, bytes.length = pl.streamBytes kvPart tokens →
        (pl.codec.encode bytes).length ≤ slot.arenaA.size) :
    ∃ slot' chunk, pl.encode kv slot idsByGroup kvPart tokens = some (slot', chunk) ∧
      pl.Encoded slot kvPart tokens slot' chunk := by
  generalize hcleared : pl.clearStream slot kvPart tokens = cleared
  have hkeepsC : slot.Keeps (pl.AuxRest kvPart tokens) (pl.TailRest kvPart tokens) cleared := by
    rw [← hcleared]
    refine Slot.Keeps.setB.trans (.setAux fun a ha => Mem.fill_frame (.inr ?_))
    exact Nat.le_trans (Nat.le_of_eq (Nat.zero_add _)) ha.1
  have hindexC : pl.IndexRoom maxBlocks cleared := by
    rw [← hcleared]
    exact hindex.congr rfl rfl
  obtain ⟨rows, cache, hgroup, hreads⟩ :=
    exists_groupIndices hindexC (fun part hp => (h.whole part hp).pos) hw
  have hroomR := (h.keeps hkeepsC).withRows rows
  obtain ⟨slot₁, hfold, hkeeps₁⟩ := @exists_foldlM_encodePart pl kv _ maxBlocks idsByGroup tokens
    cache kvPart hroomR hw hreads
  obtain ⟨hB, hA⟩ := (hroomR.keeps hkeeps₁).payload kvPart tokens
  have hsize : slot₁.arenaA.size = slot.arenaA.size := hkeeps₁.arenaA.trans hkeepsC.arenaA
  obtain ⟨slot', chunk, hseal, hkeeps', hpayload⟩ := @exists_sealPayload pl slot₁
    (pl.AuxRest kvPart tokens) (pl.TailRest kvPart tokens) (pl.streamBytes kvPart tokens)
    (pl.layout.rawTailBytes kvPart tokens) hB hA (by rw [hsize]; exact hcodec)
  refine ⟨slot', chunk, ?_, ?_, fun a ha => ?_, fun a ha => ?_⟩
  · rw [encode, ha, if_neg Bool.false_ne_true]
    simp only [hcleared, hgroup, hfold, hseal, bind, Option.bind]
  · rw [← hsize]
    exact hpayload
  · exact ((hkeeps'.auxMem a ha).trans (hkeeps₁.auxMem a ha)).trans (hkeepsC.auxMem a ha)
  · exact ((hkeeps'.tailMem a ha).trans (hkeeps₁.tailMem a ha)).trans (hkeepsC.tailMem a ha)

/-! ### Decoding -/

theorem exists_copyBlocks (hin : ∀ b ∈ indices, b < (pl.cachePart part).shape.1)
    (source : Index → Cell) : ∃ kv', pl.copyBlocks kv part indices source = some kv' :=
  ⟨_, if_pos (by simpa using hin)⟩

theorem exists_dequantize (h : SlotRoom pl maxBlocks slot)
    (hq : pl.stages.contains .quantizer = true) (hp : part ∈ pl.layout.layerParts)
    (hn : n ≤ maxBlocks * pl.blocksPerLogical) :
    ∃ slot', pl.dequantize slot part n (n * pl.kernelTokens part) = some slot' ∧
      slot.Keeps aux tail slot' := by
  let validA := validRows (pl.viewsOf part n).canonicalA (n * pl.kernelTokens part)
  have hvalid : validA = (pl.viewsOf part n).canonicalA := if_pos rfl
  have hrows : validA.shape.1 * validA.shape.2.1 ≤ maxBlocks * part.blockSize := by
    rw [hvalid]
    exact (h.whole part hp).mul_le hn
  simp only [dequantize, (h.scratch part hp n hn).layerViews, u8View_eq h hq hp hn, bind,
    Option.bind]
  obtain ⟨slot', hfold, -, hkeeps⟩ := @exists_foldlM _ _
    (pl.dequantizeSection part validA (validRows (.contiguous (pl.u8Span part n).start 1
      (n, pl.kernelTokens part, part.numHeads, part.headSize)) (n * pl.kernelTokens part)))
    (fun rest s => (∀ x ∈ rest, x ∈ part.sections) ∧ slot.Keeps aux tail s)
    (fun x rest s hI => by
      obtain ⟨hmem, hkeeps⟩ := hI
      have hroom := h.keeps hkeeps
      have hfit := hroom.rows hq part hp x (hmem x List.mem_cons_self)
        (validA.shape.1, validA.shape.2.1) hrows
      have hmin := hfit x.auxMinOffset List.mem_cons_self
      have hscale := hfit x.auxScaleOffset (List.mem_cons_of_mem _ List.mem_cons_self)
      have hhalf := hroom.halves hq part.kvPart
      simp only [dequantizeSection, auxView_eq (Nat.le_trans hmin hhalf) hroom.aux,
        auxView_eq (Nat.le_trans hscale hhalf) hroom.aux, bind, Option.bind, pure]
      exact ⟨_, rfl, fun y hy => hmem y (List.mem_cons_of_mem _ hy), hkeeps.trans .setA⟩)
    part.sections slot ⟨fun _ hx => hx, .refl aux tail slot⟩
  exact ⟨slot', hfold, hkeeps⟩

theorem exists_absorb (h : SlotRoom pl maxBlocks slot) (hp : part ∈ pl.layout.layerParts)
    (hn : n ≤ maxBlocks * pl.blocksPerLogical) :
    ∃ slot', pl.absorb slot part n (n * pl.kernelTokens part) = some slot' ∧
      slot.Keeps aux tail slot' := by
  rw [absorb]
  split
  · next hq => exact exists_dequantize h hq hp hn
  · next hq =>
      have hwithin := h.stream part hp n hn
      rw [streamSpan, if_neg hq] at hwithin
      simp only [unpack, (h.scratch part hp n hn).layerViews, bind, Option.bind, pure, guard,
        if_pos hwithin]
      exact ⟨_, rfl, .setA⟩

theorem exists_inverseHadamardScatter (hroom : pl.Room slot part indices.length)
    (hin : ∀ b ∈ indices, b < (pl.cachePart part).shape.1) :
    ∃ mA kv', pl.inverseHadamardScatter kv slot part indices = some (slot.setA mA, kv') := by
  have hall : indices.all (· < (pl.cachePart part).shape.1) = true := by simpa using hin
  simp only [inverseHadamardScatter, hroom.layerViews, copyBlocks, if_pos hall, bind, Option.bind,
    pure]
  exact ⟨_, _, rfl⟩

section Decode

variable {ids : List Nat} {validTokens offset : Nat}

theorem exists_decodeBody (h : SlotRoom pl maxBlocks slot) (hp : part ∈ pl.layout.layerParts)
    (hw : pl.Window maxBlocks part ids validTokens) :
    ∃ slot' kv', pl.decodeBody kv part (pl.physicalIds ids) validTokens slot =
        some (slot', kv') ∧ slot.Keeps aux tail slot' := by
  have hwhole := h.whole part hp
  rw [decodeBody]
  split
  · exact ⟨slot, kv, rfl, .refl aux tail slot⟩
  · obtain ⟨hle, hn⟩ := hw.bodyBlocks_le hwhole.pos
    generalize hbodyIds : (pl.physicalIds ids).take (pl.bodyBlocks part validTokens) = body
    have hlength : body.length = pl.bodyBlocks part validTokens := by
      rw [← hbodyIds, List.length_take_of_le hle]
    have hin : ∀ b ∈ body, b < (pl.cachePart part).shape.1 := by
      intro b hb
      rw [← hbodyIds] at hb
      exact hw.inside b (List.mem_of_mem_take hb)
    obtain ⟨slot₁, habsorb, hkeeps₁⟩ := @exists_absorb pl slot part maxBlocks _ aux tail h hp hn
    obtain ⟨mA, kv', hscatter⟩ := @exists_inverseHadamardScatter pl kv slot₁ part body
      (hlength.symm ▸ (h.keeps hkeeps₁).scratch part hp _ hn) hin
    refine ⟨slot₁.setA mA, kv', ?_, hkeeps₁.trans .setA⟩
    simp only [bodyTokens_eq_mul hwhole, habsorb, hbodyIds, hscatter, bind, Option.bind]

theorem exists_applyRawTail (hwhole : pl.WholeBlocks part)
    (hroom : pl.Room slot part pl.blocksPerLogical)
    (hin : ∀ b ∈ indices, b < (pl.cachePart part).shape.1)
    (hfit : offset + validTokens % part.blockSize * CompressionLayout.tokenBytes part ≤
      slot.rawTail.size) :
    ∃ slot' kv', pl.applyRawTail kv slot part indices validTokens offset = some (slot', kv',
        offset + validTokens % part.blockSize * CompressionLayout.tokenBytes part) ∧
      slot.Keeps aux tail slot' := by
  by_cases hzero : validTokens % part.blockSize = 0
  · refine ⟨slot, kv, ?_, .refl aux tail slot⟩
    rw [applyRawTail, hzero, Nat.zero_mul]
    rfl
  · have hschedule := tailSchedule_eq hwhole (Nat.mod_lt validTokens hwhole.pos)
    let scratch := (pl.viewsOf part pl.blocksPerLogical).scratch
    let mA := unpackRuns part scratch offset slot.rawTail.mem
      (scratch.storeCells (fun _ => (0, 0)) slot.arenaA.mem)
      (pl.tailSchedule part (validTokens % part.blockSize)).1
    obtain ⟨kv', hcopy⟩ := @exists_copyBlocks pl kv part
      (indices.drop (indices.length - pl.blocksPerLogical))
      (fun b hb => hin b (List.mem_of_mem_drop hb)) (scratch.cell mA)
    refine ⟨slot.setA mA, kv', ?_, .setA⟩
    have hbytes : (pl.tailSchedule part (validTokens % part.blockSize)).2 =
        validTokens % part.blockSize * CompressionLayout.tokenBytes part := by rw [hschedule]
    simp only [applyRawTail, if_neg hzero, hroom.layerViews, hbytes, hfit, bind, Option.bind, pure,
      guard, if_true]
    rw [hcopy]

/-- **A layer part is decoded.** -/
theorem exists_decodePart (h : SlotRoom pl maxBlocks slot) (hp : part ∈ pl.layout.layerParts)
    (hindices : Pipeline.indices slot cache part.groupIndex = some (pl.physicalIds ids))
    (hw : pl.Window maxBlocks part ids (tokens part.groupIndex))
    (hfit : offset + tokens part.groupIndex % part.blockSize * CompressionLayout.tokenBytes part ≤
      slot.rawTail.size) :
    ∃ slot' kv', pl.decodePart cache tokens (slot, kv, offset) part = some (slot', kv', offset +
        tokens part.groupIndex % part.blockSize * CompressionLayout.tokenBytes part) ∧
      slot.Keeps aux tail slot' := by
  have hwhole := h.whole part hp
  obtain ⟨slot₁, kv₁, hbody, hkeeps₁⟩ := @exists_decodeBody pl kv slot part maxBlocks aux tail ids
    _ h hp hw
  obtain ⟨slot', kv', happly, hkeeps'⟩ := @exists_applyRawTail pl kv₁ slot₁ part
    (pl.physicalIds ids) aux tail _ offset hwhole
    ((h.keeps hkeeps₁).scratch part hp _ (hw.factor_le hwhole.pos)) hw.inside
    (by rw [hkeeps₁.tailSize]; exact hfit)
  refine ⟨slot', kv', ?_, hkeeps₁.trans hkeeps'⟩
  simp only [decodePart, hindices, hbody, happly, bind, Option.bind]

end Decode

/-- **The loop of `decode` returns.** -/
theorem exists_foldlM_decodePart (h : SlotRoom pl maxBlocks slot)
    (hw : pl.Windows maxBlocks idsByGroup tokens) (hreads : pl.Reads idsByGroup cache slot) :
    ∃ result, (pl.layout.parts kvPart).foldlM (pl.decodePart cache tokens) (slot, kv, 0) =
      some result := by
  let rest : List LayerPartLayout → Nat := fun parts => (parts.map fun p =>
    tokens p.groupIndex % p.blockSize * CompressionLayout.tokenBytes p).sum
  let none : Nat → Prop := fun _ => False
  obtain ⟨result, hfold, -⟩ := @exists_foldlM _ _ (pl.decodePart cache tokens)
    (fun parts (s : Slot × KV × Nat) => (∀ p ∈ parts, p ∈ pl.layout.parts kvPart) ∧
      slot.Keeps none none s.1 ∧ s.2.2 + rest parts = pl.layout.rawTailBytes kvPart tokens)
    (fun part parts s hI => by
      obtain ⟨hmem, hkeeps, hoffset⟩ := hI
      obtain ⟨hp, -⟩ := Construction.of_mem_parts (hmem part List.mem_cons_self)
      simp only [rest, List.map_cons, List.sum_cons] at hoffset
      have hroom := h.keeps hkeeps
      have hsize := hroom.tail kvPart tokens
      obtain ⟨s', kv', hs', hkeeps'⟩ := @exists_decodePart pl s.2.1 s.1 part maxBlocks none none
        tokens cache _ s.2.2 hroom hp (hreads part hp s.1 hkeeps.blockIndices) (hw part hp)
        (by omega)
      exact ⟨_, hs', fun p hp => hmem p (List.mem_cons_of_mem _ hp), hkeeps.trans hkeeps', by
        simp only [rest]
        omega⟩)
    (pl.layout.parts kvPart) (slot, kv, 0) ⟨fun _ hp => hp, .refl _ _ slot, Nat.zero_add _⟩
  exact ⟨result, hfold⟩

/-- **Decoding never fails**, whatever the slot holds. -/
theorem exists_decode (ha : pl.stages.contains .aggregate = false)
    (h : SlotRoom pl maxBlocks slot) (hindex : pl.IndexRoom maxBlocks slot)
    (hw : pl.Windows maxBlocks idsByGroup tokens) {codecBytes : Nat}
    (hcodec : codecBytes ≤ slot.arenaA.size) :
    ∃ result, pl.decode kv slot idsByGroup kvPart codecBytes (pl.streamBytes kvPart tokens) tokens =
      some result := by
  obtain ⟨hB, hA⟩ := h.payload kvPart tokens
  obtain ⟨mB, hopen⟩ : ∃ mB, pl.openPayload slot codecBytes (pl.streamBytes kvPart tokens) =
      some (slot.setB mB) := by
    simp only [openPayload, guard, hB, hA, hcodec, if_true, bind, Option.bind, pure]
    split
    · exact ⟨_, rfl⟩
    · exact ⟨_, rfl⟩
  have hindexB : pl.IndexRoom maxBlocks (slot.setB mB) := hindex.congr rfl rfl
  obtain ⟨rows, cache, hgroup, hreads⟩ :=
    exists_groupIndices hindexB (fun part hp => (h.whole part hp).pos) hw
  let none : Nat → Prop := fun _ => False
  have hkeeps : slot.Keeps none none (slot.setB mB) := .setB
  have hroom := (h.keeps hkeeps).withRows rows
  obtain ⟨⟨slot', kv', offset⟩, hfold⟩ := @exists_foldlM_decodePart pl kv _ maxBlocks idsByGroup
    tokens cache kvPart hroom hw hreads
  refine ⟨(slot', kv'), ?_⟩
  rw [decode, ha, if_neg Bool.false_ne_true]
  simp only [hopen, hgroup, hfold, bind, Option.bind, pure]

end Pipeline

end KVServe.Runtime

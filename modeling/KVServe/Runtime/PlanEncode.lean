import KVServe.Lib.Blocks
import KVServe.Runtime.KernelQuantize

/-!
# KVServe.Runtime.PlanEncode

**The encoding plan agrees with the Python stages.** What `encode_part` leaves in arena B, the
auxiliary buffer and the raw tail of a slot is what `CompressionPipeline` leaves there for the layer
part. Only the scratch buffers of arena A differ: Python quantizes in place and gathers a partial
block there.
-/

namespace KVServe.Runtime

namespace Pipeline

variable {pl : Pipeline} {kv : KV} {slot : Slot} {part : LayerPartLayout} {s : QuantSection}
  {words : Nat → Word} {indices : List Nat} {maxBlocks numParts sectionIndex n i : Nat} {d : Device}
  {m m' : Mem}

/-! ### Header -/

/-- What `build_meta` was given of the slot. -/
def planPtrs (pl : Pipeline) : PlanPtrs where
  arenaA := ⟨.arenaA, 0⟩
  arenaB := ⟨.arenaB, 0⟩
  aux := ⟨.aux, 0⟩
  rawTail := some ⟨.rawTail, 0⟩
  u8Base := pl.layout.u8Base
  auxHalf := pl.layout.auxArenaBytes / 2

/-- **So is the header.** -/
theorem loadHeader_buildMeta {kvPart : KVPart} :
    pl.buildMeta kvPart 0 = .int (pl.layout.parts kvPart).length ∧
      loadHeader (pl.buildMeta kvPart) = pl.planPtrs := by
  have hword : ∀ w ∈ pl.headerStores (pl.layout.parts kvPart).length,
      pl.buildMeta kvPart w.1 = w.2 :=
    fun w hw => stored_of_mem nodup_buildMeta (List.mem_append_left _ hw)
  simp only [headerStores, List.forall_mem_cons] at hword
  obtain ⟨h0, h1, h2, h3, h4, h5, h6, -⟩ := hword
  refine ⟨h0, ?_⟩
  simp only [loadHeader, planPtrs, h1, h2, h3, h4, h5, h6, Word.pointer_ptr, Word.toPtr_ptr,
    Word.toInt64_int]

/-! ### Sections -/

/-- What a launch for a section relies on, in a body of `n` kernel blocks. -/
structure PlanSection (pl : Pipeline) (part : LayerPartLayout) (n : Nat) (s : QuantSection) :
    Prop where
  axis : s.axis ≠ .tensor
  levels : s.numLevels ≤ 256
  heads : s.headStart + s.headCount ≤ part.numHeads
  fits : ∀ offset ∈ [s.auxMinOffset, s.auxScaleOffset],
    offset + (pl.sectionShape part n s).numel * 2 ≤ pl.layout.auxArenaBytes / 2
  apart : (⟨s.auxMinOffset, (pl.sectionShape part n s).numel * 2⟩ : Span).Disjoint
    ⟨s.auxScaleOffset, (pl.sectionShape part n s).numel * 2⟩

theorem PlanSection.axis_cases (h : PlanSection pl part n s) :
    s.axis = .channel ∨ s.axis = .token := by
  cases haxis : s.axis with
  | channel => exact Or.inl rfl
  | token => exact Or.inr rfl
  | tensor => exact absurd haxis h.axis

/-- The two rows of a section and their images in the temporary half stand apart. -/
theorem PlanSection.rowsApart (h : PlanSection pl part n s) {params : Index → QuantParams} :
    RowsApart (auxRows (pl.sectionArrays s) (pl.sectionShape part n s) params) := by
  have hmin := h.fits s.auxMinOffset List.mem_cons_self
  have hscale := h.fits s.auxScaleOffset (List.mem_cons_of_mem _ List.mem_cons_self)
  have hapart := h.apart
  generalize pl.sectionShape part n s = shape at *
  simp only [Span.Disjoint, Span.stop] at hapart
  have hviews : ∀ {a b : Nat}, a + shape.numel * 2 ≤ b ∨ b + shape.numel * 2 ≤ a → ∀ c,
      ¬ ((View.contiguous a 2 shape).Covers 2 c ∧ (View.contiguous b 2 shape).Covers 2 c) := by
    rintro a b hab c ⟨ha, hb⟩
    have ha := View.contiguous_covers ha
    have hb := View.contiguous_covers hb
    simp only [View.span, Span.stop] at ha hb
    omega
  simp only [RowsApart, auxRows, sectionArrays, List.pairwise_cons, List.mem_cons,
    List.not_mem_nil, or_false, forall_eq_or_imp, forall_eq, IsEmpty.forall_iff, implies_true,
    List.Pairwise.nil, and_true]
  exact ⟨⟨hviews (by omega), hviews (by omega), hviews (by omega)⟩,
    ⟨hviews (by omega), hviews (by omega)⟩, hviews (by omega)⟩

theorem castInt_eq (h : n < 2 ^ 31) : castInt n = n := Word.toInt32_int h

/-- **A section of the plan** stores its symbols and its rows. -/
theorem cudaEncodeSection_eq (h : PlanSection pl part n s)
    (hload : loadSection words ((pl.partDesc numParts sectionIndex part).sections +
      i * kvsSectionFields) = sectionDesc s) (htokens : n * pl.kernelTokens part < 2 ^ 31) :
    pl.cudaEncodeSection words pl.planPtrs (pl.partDesc numParts sectionIndex part)
        ⟨.arenaA, (pl.spanA part n).start⟩ (n * pl.kernelTokens part) i d =
      pl.quantizedSection part n s (pl.sectionArrays s) d := by
  have harrays : (⟨pl.planPtrs.aux.add s.auxMinOffset, pl.planPtrs.aux.add s.auxScaleOffset,
      pl.planPtrs.aux.add (pl.planPtrs.auxHalf + s.auxMinOffset),
      pl.planPtrs.aux.add (pl.planPtrs.auxHalf + s.auxScaleOffset)⟩ : AuxArrays) =
        pl.sectionArrays s := by
    simp only [sectionArrays, planPtrs, Ptr.add, Nat.zero_add,
      Nat.add_comm (pl.layout.auxArenaBytes / 2)]
  have hu8 : pl.planPtrs.arenaB.add (pl.planPtrs.u8Base +
      (pl.partDesc numParts sectionIndex part).u8Offset) = ⟨.arenaB, (pl.u8Span part n).start⟩ := by
    simp only [planPtrs, Ptr.add, partDesc, u8Span, Nat.zero_add]
  simp only [cudaEncodeSection, hload, castInt_eq htokens, hu8]
  simp only [sectionDesc, harrays]
  rcases h.axis_cases with haxis | haxis
  · exact (if_pos (congrArg axisCode haxis)).trans
      (quantizeChannelKernel_eq haxis h.levels h.heads rfl h.rowsApart)
  · exact (if_neg (by rw [haxis]; decide)).trans
      (quantizeTokenKernel_eq haxis h.levels h.heads rfl h.rowsApart)

/-- Sections with the same elements have the same groups. -/
theorem sectionCells_congr (h : ∀ x : Index, x.Inside (pl.sectionSource part n s).shape →
    (pl.sectionSource part n s).cell m x = (pl.sectionSource part n s).cell m' x) :
    pl.sectionCells part n s m = pl.sectionCells part n s m' := by
  funext key
  refine List.map_congr_left fun x hx => h x ?_
  exact Index.mem_all.mp (List.mem_filter.mp hx).1

/-- The stream and the auxiliary buffer of a slot are those of the device. -/
structure SameStream (d : Device) (slot : Slot) : Prop where
  arenaB : d .arenaB = slot.arenaB.mem
  aux : d .aux = slot.aux.mem

/-- Other memory than that of the stages is kept. -/
def Device.KeepsRest (d d' : Device) : Prop :=
  ∀ t, t ≠ .arenaA → t ≠ .arenaB → t ≠ .aux → d' t = d t

/-- Two sections have no heads in common. -/
theorem sectionSource_apart {t : QuantSection} (hs : s.headStart + s.headCount ≤ part.numHeads)
    (ht : t.headStart + t.headCount ≤ part.numHeads) (hne : s.heads.Disjoint t.heads) (a : Nat) :
    ¬ ((pl.sectionSource part n t).Covers 2 a ∧ (pl.sectionSource part n s).Covers 2 a) := by
  refine (View.narrow2Part ht).disjoint (View.narrow2Part hs) View.contiguous_separated
    fun x y hx hy heq => ?_
  have hhead : t.headStart + x.2.2.1 = s.headStart + y.2.2.1 := congrArg (fun i => i.2.2.1) heq
  have hx : x.2.2.1 < t.headCount := hx.2.2.1
  have hy : y.2.2.1 < s.headCount := hy.2.2.1
  simp only [Span.Disjoint, Span.stop, QuantSection.heads] at hne
  omega

/-- **One section on both sides.** The elements of the sections to come are still those that were
gathered, although Python has quantized this one in place. -/
theorem section_agrees (h : PlanSection pl part n s)
    (haux : pl.layout.auxArenaBytes ≤ slot.aux.size) (hsame : SameStream d slot)
    (hcells : ∀ x : Index, x.Inside (pl.sectionSource part n s).shape →
      (pl.sectionSource part n s).cell slot.arenaA.mem x =
        (pl.sectionSource part n s).cell (d .arenaA) x) :
    ∃ slot', pl.quantizeSection part (n * pl.kernelTokens part) (n * pl.kernelTokens part)
        (pl.viewsOf part n).canonicalA (pl.u8Layer part n) slot s = some slot' ∧
      SameStream (pl.quantizedSection part n s (pl.sectionArrays s) d) slot' ∧
      slot'.aux.size = slot.aux.size ∧
      slot'.arenaA.mem = pl.quantizedArena part n s slot.arenaA.mem := by
  refine ⟨_, quantizeSection_eq h.heads h.fits haux h.rowsApart, ⟨?_, ?_⟩, rfl, rfl⟩
  · rw [quantizedSection, Function.update_self, hsame.arenaB]
    refine View.store_congr fun x hx => ?_
    simp only [sectionSymbol, sectionParams, sectionCells_congr hcells, hcells x hx]
  · rw [quantizedSection, Function.update_of_ne (by decide), Function.update_self, hsame.aux]
    show storeRows (auxRows _ _ (pl.sectionParams part n s (d .arenaA))) _ =
      storeRows (auxRows _ _ (pl.sectionParams part n s slot.arenaA.mem)) _
    rw [show pl.sectionParams part n s (d .arenaA) = pl.sectionParams part n s slot.arenaA.mem by
      funext key
      rw [sectionParams, sectionParams, sectionCells_congr hcells]]

/-- The sections of a layer part, for bodies of `n` kernel blocks. -/
structure PlanSections (pl : Pipeline) (part : LayerPartLayout) (n : Nat) : Prop where
  each : ∀ s ∈ part.sections, PlanSection pl part n s
  heads : Placed 1 0 (part.sections.map QuantSection.heads) part.numHeads

/-- What `load_part` and `load_section` read of a layer part. -/
def Loads (pl : Pipeline) (words : Nat → Word) (numParts sectionIndex : Nat)
    (part : LayerPartLayout) : Prop :=
  ∀ i s, part.sections[i]? = some s →
    loadSection words ((pl.partDesc numParts sectionIndex part).sections +
      i * kvsSectionFields) = sectionDesc s

/-- **The loop over the sections.** -/
theorem sections_agree (h : PlanSections pl part n) (hload : pl.Loads words numParts sectionIndex part)
    (htokens : n * pl.kernelTokens part < 2 ^ 31)
    (haux : pl.layout.auxArenaBytes ≤ slot.aux.size) (hsame : SameStream d slot)
    (hcells : ∀ x : Index, x.Inside (pl.canonicalShape part n) →
      (pl.viewsOf part n).canonicalA.cell slot.arenaA.mem x =
        (pl.viewsOf part n).canonicalA.cell (d .arenaA) x) :
    ∃ slot', part.sections.foldlM (pl.quantizeSection part (n * pl.kernelTokens part)
        (n * pl.kernelTokens part) (pl.viewsOf part n).canonicalA (pl.u8Layer part n)) slot =
          some slot' ∧
      let d' := (List.range part.sections.length).foldl (fun d i =>
        pl.cudaEncodeSection words pl.planPtrs (pl.partDesc numParts sectionIndex part)
          ⟨.arenaA, (pl.spanA part n).start⟩ (n * pl.kernelTokens part) i d) d
      SameStream d' slot' ∧ Device.KeepsRest d d' := by
  let R : List QuantSection → Slot → Device → Prop := fun rest s' d' =>
    rest.Sublist part.sections ∧ SameStream d' s' ∧ pl.layout.auxArenaBytes ≤ s'.aux.size ∧
      Device.KeepsRest d d' ∧
      ∀ s ∈ rest, ∀ x : Index, x.Inside (pl.sectionSource part n s).shape →
        (pl.sectionSource part n s).cell s'.arenaA.mem x =
          (pl.sectionSource part n s).cell (d' .arenaA) x
  have hstart : R part.sections slot d := by
    refine ⟨.refl _, hsame, haux, fun _ _ _ _ => rfl, fun s hs x hx => ?_⟩
    rw [View.cell, View.cell, sectionSource, View.narrow2_addr]
    refine hcells _ ⟨hx.1, hx.2.1, ?_, hx.2.2.2⟩
    exact Nat.lt_of_lt_of_le (Nat.add_lt_add_left hx.2.2.1 _) (h.each s hs).heads
  let launch : Device → Nat → Device := fun d i =>
    pl.cudaEncodeSection words pl.planPtrs (pl.partDesc numParts sectionIndex part)
      ⟨.arenaA, (pl.spanA part n).start⟩ (n * pl.kernelTokens part) i d
  have hstep : ∀ i s rest s' d', part.sections[i]? = some s → R (s :: rest) s' d' →
      ∃ s'', pl.quantizeSection part (n * pl.kernelTokens part) (n * pl.kernelTokens part)
        (pl.viewsOf part n).canonicalA (pl.u8Layer part n) s' s = some s'' ∧
          R rest s'' (launch d' i) := by
    rintro i s rest s' d' hi ⟨hsub, hsame, haux, hkeeps, hcells⟩
    have hs := h.each s (hsub.subset List.mem_cons_self)
    have hlaunch : launch d' i = pl.quantizedSection part n s (pl.sectionArrays s) d' :=
      cudaEncodeSection_eq hs (hload i s hi) htokens
    obtain ⟨s'', hs'', hsame', hsize, harena⟩ :=
      section_agrees hs haux hsame (hcells s List.mem_cons_self)
    refine ⟨s'', hs'', (List.sublist_cons_self s rest).trans hsub, hlaunch ▸ hsame', hsize ▸ haux,
      fun t hA hB haux => ?_, fun t ht x hx => ?_⟩
    · rw [hlaunch, quantizedSection, Function.update_of_ne hB, Function.update_of_ne haux]
      exact hkeeps t hA hB haux
    · have hpairs := List.pairwise_map.mp (h.heads.pairwise Nat.one_pos)
      have hdis := (List.pairwise_cons.mp (hpairs.sublist hsub)).1 t ht
      have ht' := h.each t (hsub.subset (List.mem_cons_of_mem s ht))
      rw [hlaunch, quantizedSection, Function.update_of_ne (by decide),
        Function.update_of_ne (by decide), harena, quantizedArena,
        View.cell_storeCells_apart (sectionSource_apart hs.heads ht'.heads hdis) hx]
      exact hcells t (List.mem_cons_of_mem s ht) x hx
  obtain ⟨slot', hfold, -, hsame', -, hkeeps, -⟩ := exists_foldlM_range R hstep hstart
  exact ⟨slot', hfold, hsame', hkeeps⟩

/-! ### Bodies -/

/-- The complete blocks in `encode_part`. -/
def cudaEncodeBody (pl : Pipeline) (words : Nat → Word) (q : PlanPtrs) (p : PartDesc)
    (indices : List Nat) (bodyBlocks : Nat) (d : Device) : Device :=
  let canonicalA := q.arenaA.add p.rawOffset
  if bodyBlocks = 0 then d
  else
    let d := pl.gatherAndTransform p indices bodyBlocks canonicalA (q.arenaA.add p.scratchOffset) d
    if p.quantized = 0 then
      d.memcpy (q.arenaB.add (q.u8Base + p.u8Offset * 2)) canonicalA
        (bodyBlocks * p.kernelTokens * p.numHeads * p.headSize * 2)
    else (List.range p.numSections).foldl (fun d i =>
      pl.cudaEncodeSection words q p canonicalA (bodyBlocks * p.kernelTokens) i d) d

/-- The partial block in `encode_part`. -/
def cudaPackTail (q : PlanPtrs) (p : PartDesc) (indices : List Nat) (totalBlocks tailTokens
    cursor : Nat) (d : Device) : Device :=
  match q.rawTail with
  | some rawTail =>
      if tailTokens = 0 then d
      else tailPackKernel p (indices.drop (totalBlocks - p.blocksPerLogical)) tailTokens
        (rawTail.add cursor) d
  | none => d

theorem cudaEncodePart_eq {q : PlanPtrs} {p : PartDesc} {totalBlocks bodyBlocks validTokens
    cursor : Nat} :
    pl.cudaEncodePart words q p indices totalBlocks bodyBlocks validTokens (d, cursor) =
      (cudaPackTail q p indices totalBlocks (validTokens % p.blockSize) cursor
        (pl.cudaEncodeBody words q p indices bodyBlocks d),
      cursor + tailBytesForPart p (validTokens % p.blockSize)) := rfl

/-- **The packed stream of a body**, symbols or raw elements. -/
theorem emit_agrees (h : SlotRoom pl maxBlocks slot) (hp : part ∈ pl.layout.layerParts)
    (hn : n ≤ maxBlocks * pl.blocksPerLogical)
    (hsections : pl.stages.contains .quantizer = true → PlanSections pl part n)
    (hload : pl.Loads words numParts sectionIndex part)
    (htokens : n * pl.kernelTokens part < 2 ^ 31) (hsame : SameStream d slot)
    (hcells : ∀ x : Index, x.Inside (pl.canonicalShape part n) →
      (pl.viewsOf part n).canonicalA.cell slot.arenaA.mem x =
        (pl.viewsOf part n).canonicalA.cell (d .arenaA) x) :
    ∃ slot', pl.emit slot part n (n * pl.kernelTokens part) = some slot' ∧
      let p := pl.partDesc numParts sectionIndex part
      let d' := if p.quantized = 0 then
          d.memcpy ⟨.arenaB, (pl.packedSpan part n).start⟩ ⟨.arenaA, (pl.spanA part n).start⟩
            (n * p.kernelTokens * p.numHeads * p.headSize * 2)
        else (List.range p.numSections).foldl (fun d i => pl.cudaEncodeSection words pl.planPtrs p
          ⟨.arenaA, (pl.spanA part n).start⟩ (n * p.kernelTokens) i d) d
      SameStream d' slot' ∧ Device.KeepsRest d d' := by
  have hviews := (h.scratch part hp n hn).layerViews
  have hquantized : (pl.partDesc numParts sectionIndex part).quantized =
      (pl.stages.contains .quantizer).toNat := rfl
  simp only [emit, hquantized]
  cases hq : pl.stages.contains .quantizer with
  | true =>
      obtain ⟨slot', hfold, hsame', hkeeps⟩ := sections_agree (hsections hq) hload htokens h.aux
        hsame hcells
      refine ⟨slot', ?_, ?_⟩
      · have hvalid : ∀ v : View, v.shape = pl.canonicalShape part n →
            validRows v (n * pl.kernelTokens part) = v := by
          intro v hv
          rw [validRows, if_pos (by rw [hv]; rfl)]
        simp only [if_true, quantize, hviews, u8View_eq h hq hp hn, bind, Option.bind]
        rw [hvalid _ rfl, hvalid _ rfl]
        exact hfold
      · rw [Bool.toNat_true, if_neg Nat.one_ne_zero]
        exact ⟨hsame', hkeeps⟩
  | false =>
      have hwithin := h.stream part hp n hn
      rw [streamSpan, hq, if_neg Bool.false_ne_true] at hwithin
      simp only [Bool.false_eq_true, if_false, pack, hviews, bind, Option.bind, pure, guard,
        if_pos hwithin]
      refine ⟨_, rfl, ?_⟩
      rw [Bool.toNat_false, if_pos rfl]
      refine ⟨⟨?_, ?_⟩, fun t _ hB _ => Function.update_of_ne hB _ _⟩
      · rw [Device.memcpy, Function.update_self, hsame.arenaB]
        exact Mem.fill_congr fun k hk => (bytes_of_cells hcells hk).symm
      · rw [Device.memcpy, Function.update_of_ne (show Tensor.aux ≠ Tensor.arenaB by decide)]
        exact hsame.aux

variable {ids : List Nat} {validTokens offset : Nat}

/-- **The complete blocks of a layer part** reach the stream and the auxiliary buffer alike. -/
theorem encodeBody_agrees (h : SlotRoom pl maxBlocks slot) (hp : part ∈ pl.layout.layerParts)
    (hpart : PlanPart pl part)
    (hsections : pl.stages.contains .quantizer = true →
      ∀ n ≤ maxBlocks * pl.blocksPerLogical, PlanSections pl part n)
    (hload : pl.Loads words numParts sectionIndex part)
    (hw : pl.Window maxBlocks part ids validTokens) (htokens : validTokens < 2 ^ 31)
    (hsame : SameStream d slot) (hkv : d (.cache part.layerName) = kv part.layerName) :
    ∃ slot', pl.encodeBody kv part (pl.physicalIds ids) validTokens slot = some slot' ∧
      let d' := pl.cudaEncodeBody words pl.planPtrs (pl.partDesc numParts sectionIndex part)
        (pl.physicalIds ids) (pl.bodyBlocks part validTokens) d
      SameStream d' slot' ∧ Device.KeepsRest d d' := by
  obtain ⟨hle, hn⟩ := hw.bodyBlocks_le hpart.whole.pos
  have hbody := bodyTokens_eq_mul hpart.whole validTokens
  generalize hblocks : pl.bodyBlocks part validTokens = n at *
  by_cases hzero : n = 0
  · refine ⟨slot, ?_, ?_⟩
    · rw [encodeBody, hbody, hzero, Nat.zero_mul, if_pos rfl]
    · rw [cudaEncodeBody, if_pos hzero]
      exact ⟨hsame, fun _ _ _ _ => rfl⟩
  · have hne : bodyTokens part validTokens ≠ 0 := by
      rw [hbody]
      exact Nat.mul_ne_zero hzero (Nat.ne_of_gt hpart.whole.kernelTokens_pos)
    have hlt : n * pl.kernelTokens part < 2 ^ 31 := by
      rw [← hbody, bodyTokens]
      omega
    obtain ⟨mA, inB, mA', dA, hgather, htransform, hcuda, hcells⟩ := @gatherAndTransform_agrees pl
      part numParts sectionIndex n (pl.physicalIds ids) d kv slot hpart hle
      (h.scratch part hp n hn) hw.inside hkv
    let none : Nat → Prop := fun _ => False
    have hroom : SlotRoom pl maxBlocks ((slot.setA mA).setA mA') :=
      (h.keeps (@Slot.Keeps.setA none none _ mA)).keeps (@Slot.Keeps.setA none none _ mA')
    have hsame₁ : SameStream (Function.update d .arenaA dA) ((slot.setA mA).setA mA') :=
      ⟨(Function.update_of_ne (by decide) _ _).trans hsame.arenaB,
        (Function.update_of_ne (by decide) _ _).trans hsame.aux⟩
    obtain ⟨slot', hemit, hsame', hkeeps⟩ := @emit_agrees pl _ part words maxBlocks numParts
      sectionIndex n _ hroom hp hn (fun hq => hsections hq n hn) hload hlt hsame₁ fun x hx => by
        rw [Function.update_self]
        exact hcells x hx
    refine ⟨slot', ?_, ?_⟩
    · have hlength : ((pl.physicalIds ids).take n).length = n := List.length_take_of_le hle
      rw [encodeBody, if_neg hne]
      simp only [hblocks, hgather, hlength, htransform, hbody, bind, Option.bind]
      exact hemit
    · have hA : pl.planPtrs.arenaA.add (pl.partDesc numParts sectionIndex part).rawOffset =
          ⟨.arenaA, (pl.spanA part n).start⟩ := congrArg (Ptr.mk _) (Nat.zero_add _)
      have hB : pl.planPtrs.arenaA.add (pl.partDesc numParts sectionIndex part).scratchOffset =
          ⟨.arenaA, (pl.spanB part n).start⟩ := congrArg (Ptr.mk _) (Nat.zero_add _)
      have hpacked : pl.planPtrs.arenaB.add (pl.planPtrs.u8Base +
          (pl.partDesc numParts sectionIndex part).u8Offset * 2) =
          ⟨.arenaB, (pl.packedSpan part n).start⟩ := congrArg (Ptr.mk _) (Nat.zero_add _)
      simp only [cudaEncodeBody, if_neg hzero, hA, hB, hpacked, hcuda]
      refine ⟨hsame', fun t hA hB haux => (hkeeps t hA hB haux).trans ?_⟩
      exact Function.update_of_ne hA _ _

/-! ### Partial blocks -/

/-- The tokens before a kernel block of a partial block, and those of the block. -/
theorem tailCount_eq {tokens kernelTokens block : Nat} :
    tailCount tokens kernelTokens block = min (tokens - block * kernelTokens) kernelTokens := by
  rw [tailCount]
  split
  · omega
  · split <;> omega

/-- What is stored before a kernel block. -/
theorem tailOffsets_eq {tokens kernelTokens heads size blocks : Nat} :
    (List.range blocks).foldl
        (fun offset b => offset + tailCount tokens kernelTokens b * heads * size * 2) 0 =
      min (blocks * kernelTokens) tokens * (heads * size * 2) := by
  induction blocks with
  | zero => simp
  | succ blocks ih =>
      have hsum : min (blocks * kernelTokens) tokens +
          min (tokens - blocks * kernelTokens) kernelTokens =
            min ((blocks + 1) * kernelTokens) tokens := by
        rw [Nat.succ_mul]
        omega
      rw [List.range_succ, List.foldl_append, ih, List.foldl_cons, List.foldl_nil, tailCount_eq,
        ← hsum]
      ring

/-- **The cursor moves by the bytes that Python counts.** -/
theorem tailBytesForPart_eq (h : WholeBlocks pl part) (tokens : Nat) :
    tailBytesForPart (pl.partDesc numParts sectionIndex part) (tokens % part.blockSize) =
      tokens % part.blockSize * CompressionLayout.tokenBytes part := by
  have hlt := Nat.mod_lt tokens h.pos
  refine tailOffsets_eq.trans ?_
  have hwhole : (pl.partDesc numParts sectionIndex part).blocksPerLogical *
      (pl.partDesc numParts sectionIndex part).kernelTokens = part.blockSize := h.mul_kernelTokens
  rw [hwhole, Nat.min_eq_right (Nat.le_of_lt hlt)]
  rfl

/-- The runs of a partial block. -/
def tailRunsOf (pl : Pipeline) (part : LayerPartLayout) (tailTokens : Nat) : List TailRun :=
  (List.range (pl.tailBlocks part tailTokens)).map
    (tailRun (pl.kernelTokens part) (CompressionLayout.tokenBytes part) tailTokens)

/-- Where a valid token of a partial block goes. -/
theorem tailTarget_addr {tailTokens t head dim : Nat} (ht : t < tailTokens) :
    let p := pl.partDesc numParts sectionIndex part
    let run := tailRun (pl.kernelTokens part) (CompressionLayout.tokenBytes part) tailTokens
      (t / pl.kernelTokens part)
    (tailTarget part offset run).addr (0, head, t % pl.kernelTokens part, dim) =
      offset + (tailBlockOffset tailTokens p.kernelTokens p.numHeads p.headSize
        (t / p.kernelTokens) / 2 + (head * tailCount tailTokens p.kernelTokens (t / p.kernelTokens) +
          t % p.kernelTokens) * p.headSize + dim) * 2 := by
  intro p run
  have hle : t / pl.kernelTokens part * pl.kernelTokens part ≤ tailTokens :=
    Nat.le_trans (Nat.div_mul_le_self _ _) (Nat.le_of_lt ht)
  have hhalf : tailBlockOffset tailTokens p.kernelTokens p.numHeads p.headSize
      (t / p.kernelTokens) / 2 =
        t / pl.kernelTokens part * pl.kernelTokens part * (part.numHeads * part.headSize) := by
    rw [tailBlockOffset, tailOffsets_eq]
    show min (t / pl.kernelTokens part * pl.kernelTokens part) tailTokens *
      (part.numHeads * part.headSize * 2) / 2 = _
    rw [Nat.min_eq_left hle, ← Nat.mul_assoc, Nat.mul_div_cancel _ (by decide)]
  rw [hhalf, tailCount_eq]
  refine View.contiguous_addr.trans ?_
  simp only [Index.flat, run, tailRun, CompressionLayout.tokenBytes, p, partDesc]
  ring

/-- Every element of the runs is that of a valid token. -/
theorem exists_tailToken (hpos : 0 < pl.kernelTokens part) {tailTokens : Nat} {P : TailRun → Index → Prop} :
    (∃ run ∈ pl.tailRunsOf part tailTokens, ∃ x : Index,
        x.Inside (1, part.numHeads, run.count, part.headSize) ∧ P run x) ↔
      ∃ t < tailTokens, ∃ head < part.numHeads, ∃ dim < part.headSize,
        P (tailRun (pl.kernelTokens part) (CompressionLayout.tokenBytes part) tailTokens
          (t / pl.kernelTokens part)) (0, head, t % pl.kernelTokens part, dim) := by
  constructor
  · rintro ⟨run, hrun, ⟨x0, x1, x2, x3⟩, hx, hP⟩
    obtain ⟨k, hk, rfl⟩ := List.mem_map.mp hrun
    obtain ⟨h0, h1, h2, h3⟩ := hx
    obtain rfl : x0 = 0 := Nat.lt_one_iff.mp h0
    have h2 : x2 < min (tailTokens - k * pl.kernelTokens part) (pl.kernelTokens part) := h2
    have hlt : x2 < pl.kernelTokens part := by omega
    refine ⟨k * pl.kernelTokens part + x2, by omega, x1, h1, x3, h3, ?_⟩
    rwa [position_div hlt, position_mod hlt]
  · rintro ⟨t, ht, head, hhead, dim, hdim, hP⟩
    have hsplit := Nat.div_add_mod' t (pl.kernelTokens part)
    have hmod := Nat.mod_lt t hpos
    refine ⟨_, List.mem_map_of_mem (List.mem_range.mpr ((lt_tailBlocks hpos).mpr ?_)), _,
      ⟨Nat.one_pos, hhead, ?_, hdim⟩, hP⟩
    · omega
    · exact Nat.lt_min.mpr ⟨by dsimp only; omega, hmod⟩

/-- **`tail_pack_kernel`** stores the runs of a partial block. -/
theorem tailPackKernel_eq (h : PlanPart pl part) {tailTokens : Nat} :
    tailPackKernel (pl.partDesc numParts sectionIndex part) ids tailTokens ⟨.rawTail, offset⟩ d =
      Function.update d .rawTail ((pl.tailRunsOf part tailTokens).foldl (fun m run =>
        (tailTarget part offset run).storeCells (fun x => (pl.cachePart part).cell
          (d (.cache part.layerName)) (ids.getD run.physical 0, x.2)) m) (d .rawTail)) := by
  have hpos := h.whole.kernelTokens_pos
  rw [tailPackKernel, Device.store]
  congr 1
  refine View.storeElements_eq_foldl (fun _ _ => View.contiguous_separated)
    (pairwise_tailTargets hpos tailTokens offset) fun w => ?_
  refine (mem_perElement_rows (g := fun t head dim =>
    let p := pl.partDesc numParts sectionIndex part
    let count := tailCount tailTokens p.kernelTokens (t / p.kernelTokens)
    if t % p.kernelTokens ≥ count then []
    else
      let outIndex := tailBlockOffset tailTokens p.kernelTokens p.numHeads p.headSize
        (t / p.kernelTokens) / 2 + (head * count + t % p.kernelTokens) * p.headSize + dim
      [(offset + outIndex * 2, (d p.cacheBase.tensor).cell
        (cacheOffset p (ids.getD (t / p.kernelTokens) 0) head (t % p.kernelTokens) dim))])
    fun _ => rfl).trans (Iff.trans ?_ (exists_tailToken hpos (P := fun run x =>
      w = ((tailTarget part offset run).addr x, (pl.cachePart part).cell
        (d (.cache part.layerName)) (ids.getD run.physical 0, x.2)))).symm)
  refine exists_congr fun t => and_congr_right fun ht => exists_congr fun head =>
    and_congr_right fun hhead => exists_congr fun dim => and_congr_right fun hdim => ?_
  let p := pl.partDesc numParts sectionIndex part
  have hlt : t % pl.kernelTokens part <
      tailCount tailTokens (pl.kernelTokens part) (t / pl.kernelTokens part) := by
    have hsplit := Nat.div_add_mod' t (pl.kernelTokens part)
    have hmod := Nat.mod_lt t hpos
    rw [tailCount_eq]
    omega
  have hcount : ¬ t % p.kernelTokens ≥ tailCount tailTokens p.kernelTokens (t / p.kernelTokens) :=
    Nat.not_le.mpr hlt
  dsimp only
  rw [if_neg hcount, List.mem_singleton, View.cell,
    @tailTarget_addr pl part numParts sectionIndex offset _ _ _ _ ht, cacheOffset_eq h]
  rfl

/-- **The partial block of a layer part** reaches the raw tail alike. -/
theorem packRawTail_agrees (h : PlanPart pl part) (hroom : pl.Room slot part pl.blocksPerLogical)
    (hin : ∀ b ∈ indices, b < (pl.cachePart part).shape.1)
    (hfit : offset + validTokens % part.blockSize * CompressionLayout.tokenBytes part ≤
      slot.rawTail.size) :
    ∃ mA mT, pl.packRawTail kv slot part indices validTokens offset =
        some ((slot.setA mA).setTail mT,
          offset + validTokens % part.blockSize * CompressionLayout.tokenBytes part) ∧
      ∀ d : Device, d (.cache part.layerName) = kv part.layerName →
        d .rawTail = slot.rawTail.mem →
        cudaPackTail pl.planPtrs (pl.partDesc numParts sectionIndex part) indices indices.length
          (validTokens % part.blockSize) offset d = Function.update d .rawTail mT := by
  by_cases hzero : validTokens % part.blockSize = 0
  · refine ⟨slot.arenaA.mem, slot.rawTail.mem, ?_, fun d _ htail => ?_⟩
    · rw [packRawTail, hzero, Nat.zero_mul]
      rfl
    · rw [hzero, ← htail, Function.update_eq_self]
      rfl
  · have hschedule := tailSchedule_eq h.whole (Nat.mod_lt validTokens h.whole.pos)
    have hlt := Nat.mod_lt validTokens h.whole.pos
    generalize htokens : validTokens % part.blockSize = tailTokens at *
    let tailIds := indices.drop (indices.length - pl.blocksPerLogical)
    let scratch := (pl.viewsOf part pl.blocksPerLogical).scratch
    let mA := scratch.storeCells (fun x =>
      (pl.cachePart part).cell (kv part.layerName) (tailIds.getD x.1 0, x.2)) slot.arenaA.mem
    refine ⟨mA, packRuns part scratch offset mA slot.rawTail.mem (pl.tailRunsOf part tailTokens),
      ?_, fun d hkv htail => ?_⟩
    · have hselect := @selectBlocks_eq pl part kv tailIds fun b hb => hin b (List.mem_of_mem_drop hb)
      simp only [packRawTail, htokens, if_neg hzero, hroom.layerViews, tailIds, hselect, hschedule,
        hfit, bind, Option.bind, pure, guard, if_true]
      rfl
    · have hptr : (⟨.rawTail, 0⟩ : Ptr).add offset = ⟨.rawTail, offset⟩ :=
        congrArg (Ptr.mk _) (Nat.zero_add _)
      show (if tailTokens = 0 then d else tailPackKernel _ _ _ ((⟨.rawTail, 0⟩ : Ptr).add offset) d) = _
      rw [if_neg hzero, hptr, tailPackKernel_eq h, htail, hkv]
      refine congrArg (Function.update d Tensor.rawTail) (View.foldl_storeCells_congr
        fun run hrun x hx => ?_)
      obtain ⟨k, hk, rfl⟩ := List.mem_map.mp hrun
      have hsep : scratch.Separated 2 := View.contiguous_separated
      have hx0 : x.1 = 0 := Nat.lt_one_iff.mp hx.1
      have hcell : (tailSource scratch (tailRun (pl.kernelTokens part)
          (CompressionLayout.tokenBytes part) tailTokens k)).cell mA x =
          (pl.cachePart part).cell (kv part.layerName) (tailIds.getD (k + x.1) 0, x.2) := by
        rw [View.cell, tailSource_addr]
        refine View.cell_storeCells (x := (k + x.1, x.2)) hsep ⟨?_, hx.2.1, ?_, hx.2.2.2⟩
        · rw [hx0]
          exact tailBlocks_le h.whole hlt (List.mem_range.mp hk)
        · exact Nat.lt_of_lt_of_le hx.2.2.1 (Nat.min_le_right _ _)
      rw [hcell, hx0]
      rfl

/-! ### Layer parts -/

/-- The buffers that leave a slot are those of the device, and so are the caches. -/
structure Agrees (d : Device) (slot : Slot) (kv : KV) : Prop where
  stream : SameStream d slot
  rawTail : d .rawTail = slot.rawTail.mem
  caches : ∀ name, d (.cache name) = kv name

namespace Agrees

variable {d : Device} {slot : Slot} {kv : KV}

theorem slotA (h : Agrees d slot kv) : Agrees d (slot.setA m) kv :=
  ⟨⟨h.stream.arenaB, h.stream.aux⟩, h.rawTail, h.caches⟩

/-- What arena A holds does not matter. -/
theorem setA (h : Agrees d slot kv) : Agrees (Function.update d .arenaA m) (slot.setA m') kv where
  stream := ⟨(Function.update_of_ne (by decide) _ _).trans h.stream.arenaB,
    (Function.update_of_ne (by decide) _ _).trans h.stream.aux⟩
  rawTail := (Function.update_of_ne (by decide) _ _).trans h.rawTail
  caches name := (Function.update_of_ne (by simp) _ _).trans (h.caches name)

/-- The same bytes are written to a cache. -/
theorem setCache {name : String} (h : Agrees d slot kv) :
    Agrees (Function.update d (.cache name) m) slot (Function.update kv name m) where
  stream := ⟨(Function.update_of_ne (by simp) _ _).trans h.stream.arenaB,
    (Function.update_of_ne (by simp) _ _).trans h.stream.aux⟩
  rawTail := (Function.update_of_ne (by simp) _ _).trans h.rawTail
  caches other := by
    by_cases hname : other = name
    · subst hname
      rw [Function.update_self, Function.update_self]
    · rw [Function.update_of_ne (by simpa using hname), Function.update_of_ne hname]
      exact h.caches other

end Agrees

/-- What a plan relies on in a layer part, for chunks of at most some logical blocks. -/
structure Planned (pl : Pipeline) (maxBlocks : Nat) (part : LayerPartLayout) : Prop where
  kernels : PlanPart pl part
  sections : pl.stages.contains .quantizer = true →
    ∀ n ≤ maxBlocks * pl.blocksPerLogical, PlanSections pl part n
  fits : FitsInt pl part

variable {tokens : Nat → Nat} {cache : List (Nat × Nat × Nat)}

/-- **A layer part on both sides.** -/
theorem encodePart_agrees (h : SlotRoom pl maxBlocks slot) (hp : part ∈ pl.layout.layerParts)
    (hplanned : Planned pl maxBlocks part) (hload : pl.Loads words numParts sectionIndex part)
    (hindices : Pipeline.indices slot cache part.groupIndex = some (pl.physicalIds ids))
    (hw : pl.Window maxBlocks part ids (tokens part.groupIndex))
    (htokens : tokens part.groupIndex < 2 ^ 31)
    (hfit : offset + tokens part.groupIndex % part.blockSize * CompressionLayout.tokenBytes part ≤
      slot.rawTail.size) (hagrees : Agrees d slot kv) :
    ∃ slot', pl.encodePart kv cache tokens (slot, offset) part = some (slot', offset +
        tokens part.groupIndex % part.blockSize * CompressionLayout.tokenBytes part) ∧
      let r := pl.cudaEncodePart words pl.planPtrs (pl.partDesc numParts sectionIndex part)
        (pl.physicalIds ids) (pl.physicalIds ids).length
        (pl.bodyBlocks part (tokens part.groupIndex)) (tokens part.groupIndex) (d, offset)
      r.2 = offset +
        tokens part.groupIndex % part.blockSize * CompressionLayout.tokenBytes part ∧
      Agrees r.1 slot' kv := by
  have hwhole := hplanned.kernels.whole
  generalize htok : tokens part.groupIndex = validTokens at *
  obtain ⟨mA, mT, hpack, htail⟩ := @packRawTail_agrees pl kv slot part (pl.physicalIds ids) numParts
    sectionIndex validTokens offset hplanned.kernels
    (h.scratch part hp _ (hw.factor_le hwhole.pos)) hw.inside hfit
  let none : Nat → Prop := fun _ => False
  let all : Nat → Prop := fun _ => True
  have hkeepsT : slot.Keeps none none ((slot.setA mA).setTail mT) :=
    Slot.Keeps.setA.trans (.setTail fun _ ha => ha.elim)
  have hroom := h.keeps hkeepsT
  obtain ⟨slot', hencode, hsame, hrest⟩ := @encodeBody_agrees pl kv
    ((slot.setA mA).setTail mT) part words maxBlocks numParts sectionIndex d ids validTokens hroom hp
    hplanned.kernels hplanned.sections hload hw htokens
    ⟨hagrees.stream.arenaB, hagrees.stream.aux⟩ (hagrees.caches _)
  obtain ⟨slot'', hencode', hkeeps⟩ := @exists_encodeBody pl kv ((slot.setA mA).setTail mT) part
    maxBlocks none all ids validTokens hroom hp hw fun _ _ _ ha => ha.elim
  obtain rfl : slot' = slot'' := Option.some.inj (hencode.symm.trans hencode')
  have hcaches : ∀ name, pl.cudaEncodeBody words pl.planPtrs
      (pl.partDesc numParts sectionIndex part) (pl.physicalIds ids)
      (pl.bodyBlocks part validTokens) d (.cache name) = kv name :=
    fun name => (hrest _ (by simp) (by simp) (by simp)).trans (hagrees.caches name)
  have hpacked := htail _ (hcaches _) ((hrest _ (by decide) (by decide) (by decide)).trans
    hagrees.rawTail)
  refine ⟨slot', ?_, ?_, ?_⟩
  · simp only [encodePart, hindices, htok, hpack, hencode, bind, Option.bind, pure]
  · rw [cudaEncodePart_eq]
    exact congrArg (offset + ·) (tailBytesForPart_eq hwhole validTokens)
  · rw [cudaEncodePart_eq]
    show Agrees (cudaPackTail pl.planPtrs _ _ _ (validTokens % part.blockSize) offset _) slot' kv
    rw [hpacked]
    refine ⟨⟨?_, ?_⟩, ?_, fun name => ?_⟩
    · exact (Function.update_of_ne (by decide) _ _).trans hsame.arenaB
    · exact (Function.update_of_ne (by decide) _ _).trans hsame.aux
    · rw [Function.update_self]
      exact funext fun a => (hkeeps.tailMem a trivial).symm
    · exact (Function.update_of_ne (by simp) _ _).trans (hcaches name)

end Pipeline

end KVServe.Runtime

import KVServe.Runtime.PlanEncode

/-!
# KVServe.Runtime.PlanDecode

**The decoding plan agrees with the Python stages.** What `decode_part` writes to the cache of a
layer is what `CompressionPipeline` writes there: it dequantizes or copies the stream, transforms
back, and puts heads and blocks in their places in one kernel.
-/

namespace KVServe.Runtime

namespace Pipeline

variable {pl : Pipeline} {kv : KV} {slot : Slot} {part : LayerPartLayout} {s : QuantSection}
  {words : Nat → Word} {indices : List Nat} {maxBlocks numParts sectionIndex n i : Nat} {d : Device}
  {m m' : Mem}

/-! ### Dequantizing -/

/-- An element of a section, as the symbols and the rows give it. -/
def dequantizedCell (pl : Pipeline) (part : LayerPartLayout) (n : Nat) (s : QuantSection)
    (arenaB aux : Mem) (x : Index) : Cell :=
  let row := fun offset => (View.contiguous offset 2 (pl.sectionShape part n s)).cell aux
    (auxKey s.axis x)
  pl.ar.dequantized (arenaB ((pl.sectionOutput part n s).addr x)) (row s.auxMinOffset)
    (row s.auxScaleOffset)

/-- What a section stores. -/
def dequantizedArena (pl : Pipeline) (part : LayerPartLayout) (n : Nat) (s : QuantSection)
    (arenaB aux arenaA : Mem) : Mem :=
  (pl.sectionSource part n s).storeCells (pl.dequantizedCell part n s arenaB aux) arenaA

/-- The stores to a section, token by token. -/
theorem exists_sectionElement {f : Index → Cell} {w : Nat × Cell} :
    (∃ x : Index, x.Inside (pl.sectionSource part n s).shape ∧
        w = ((pl.sectionSource part n s).addr x, f x)) ↔
      ∃ t < n * pl.kernelTokens part, ∃ c < s.headCount * part.headSize,
        w = ((pl.spanA part n).start + elementPosition part s t c * 2,
          f (elementOf (pl.kernelTokens part) part.headSize t c)) := by
  constructor
  · rintro ⟨x, hx, rfl⟩
    obtain ⟨t, ht, c, hc, rfl⟩ := @exists_elementOf n (pl.kernelTokens part) s.headCount
      part.headSize x hx
    exact ⟨t, ht, c, hc, by rw [sectionSource_addr]⟩
  · rintro ⟨t, ht, c, hc, rfl⟩
    refine ⟨elementOf (pl.kernelTokens part) part.headSize t c, elementOf_inside ht hc, ?_⟩
    rw [sectionSource_addr]

section Kernels

variable {t c : Nat} (hheads : s.headStart + s.headCount ≤ part.numHeads)

theorem dequantizedCell_channel (haxis : s.axis = .channel) :
    pl.dequantizedCell part n s (d .arenaB) (d .aux)
        (elementOf (pl.kernelTokens part) part.headSize t c) =
      pl.ar.dequantValue (d .arenaB ((pl.u8Span part n).start + elementPosition part s t c))
        (d.cell ⟨.aux, s.auxMinOffset⟩ c) (d.cell ⟨.aux, s.auxScaleOffset⟩ c) := by
  have hkey : auxKey s.axis (elementOf (pl.kernelTokens part) part.headSize t c) =
      columnKey part c := by rw [haxis, auxKey_channel]
  have hshape : pl.sectionShape part n s = (1, 1, s.headCount, part.headSize) := by
    rw [sectionShape, haxis]
    rfl
  simp only [dequantizedCell, hkey, hshape, View.cell, View.contiguous_addr, flat_columnKey,
    sectionOutput_addr, Arith.dequantValue_eq, Device.cell]

theorem dequantizedCell_token (haxis : s.axis = .token) :
    pl.dequantizedCell part n s (d .arenaB) (d .aux)
        (elementOf (pl.kernelTokens part) part.headSize t c) =
      pl.ar.dequantValue (d .arenaB ((pl.u8Span part n).start + elementPosition part s t c))
        (d.cell ⟨.aux, s.auxMinOffset⟩ t) (d.cell ⟨.aux, s.auxScaleOffset⟩ t) := by
  have hkey : auxKey s.axis (elementOf (pl.kernelTokens part) part.headSize t c) =
      pl.tokenKey part t := by rw [haxis, auxKey_token]
  have hshape : pl.sectionShape part n s = (n, pl.kernelTokens part, 1, 1) := by
    rw [sectionShape, haxis]
    rfl
  simp only [dequantizedCell, hkey, hshape, View.cell, View.contiguous_addr, flat_tokenKey,
    sectionOutput_addr, Arith.dequantValue_eq, Device.cell]

include hheads

theorem sectionSource_separated : (pl.sectionSource part n s).Separated 2 :=
  (View.narrow2Part hheads).separated View.contiguous_separated

/-- **`dequantize_channel_kernel`** stores the elements of the section. -/
theorem dequantizeChannelKernel_eq (haxis : s.axis = .channel) :
    pl.dequantizeChannelKernel ⟨.arenaB, (pl.u8Span part n).start⟩
        ⟨.arenaA, (pl.spanA part n).start⟩ ⟨.aux, s.auxMinOffset⟩ ⟨.aux, s.auxScaleOffset⟩
        (n * pl.kernelTokens part) part.numHeads s.headStart s.headCount part.headSize d =
      Function.update d .arenaA
        (pl.dequantizedArena part n s (d .arenaB) (d .aux) (d .arenaA)) := by
  have hposition : ∀ column t, (t * part.numHeads + (s.headStart + column / part.headSize)) *
      part.headSize + column % part.headSize = elementPosition part s t column := by
    intro column t
    conv_rhs => rw [elementPosition, ← Nat.div_add_mod' column part.headSize]
    ring
  rw [dequantizeChannelKernel, Device.store]
  congr 1
  refine View.storeElements_eq (sectionSource_separated hheads) fun w => ?_
  refine Iff.trans ?_ exists_sectionElement.symm
  simp only [mem_perElement, List.mem_map, List.mem_range, hposition,
    dequantizedCell_channel haxis]
  constructor
  · rintro ⟨column, hcolumn, t, ht, rfl⟩
    exact ⟨t, ht, column, hcolumn, rfl⟩
  · rintro ⟨t, ht, column, hcolumn, rfl⟩
    exact ⟨column, hcolumn, t, ht, rfl⟩

/-- **`dequantize_token_kernel`** does as well. -/
theorem dequantizeTokenKernel_eq (haxis : s.axis = .token) :
    pl.dequantizeTokenKernel ⟨.arenaB, (pl.u8Span part n).start⟩
        ⟨.arenaA, (pl.spanA part n).start⟩ ⟨.aux, s.auxMinOffset⟩ ⟨.aux, s.auxScaleOffset⟩
        (n * pl.kernelTokens part) part.numHeads s.headStart s.headCount part.headSize d =
      Function.update d .arenaA
        (pl.dequantizedArena part n s (d .arenaB) (d .aux) (d .arenaA)) := by
  have hposition : ∀ t h dim, s.headStart ≤ h → t * part.numHeads * part.headSize +
      h * part.headSize + dim = elementPosition part s t ((h - s.headStart) * part.headSize + dim) := by
    intro t h dim hle
    obtain ⟨k, rfl⟩ := Nat.exists_eq_add_of_le hle
    rw [elementPosition, Nat.add_sub_cancel_left]
    ring
  rw [dequantizeTokenKernel, Device.store]
  congr 1
  refine View.storeElements_eq (sectionSource_separated hheads) fun w => ?_
  refine Iff.trans ?_ exists_sectionElement.symm
  simp only [mem_perElement, List.mem_flatMap, List.mem_map, List.mem_range, List.mem_range'_1,
    dequantizedCell_token haxis]
  refine exists_congr fun t => and_congr_right fun _ => ?_
  constructor
  · rintro ⟨h, ⟨hle, hlt⟩, dim, hdim, rfl⟩
    refine ⟨(h - s.headStart) * part.headSize + dim, position_lt (by omega) hdim, ?_⟩
    rw [hposition t h dim hle]
  · rintro ⟨c, hc, rfl⟩
    have hsize : 0 < part.headSize := Nat.pos_of_ne_zero fun h => by simp [h] at hc
    have hdiv : c / part.headSize < s.headCount := by rwa [Nat.div_lt_iff_lt_mul hsize]
    refine ⟨s.headStart + c / part.headSize, ⟨Nat.le_add_right _ _, by omega⟩, c % part.headSize,
      Nat.mod_lt _ hsize, ?_⟩
    rw [hposition _ _ _ (Nat.le_add_right _ _), Nat.add_sub_cancel_left, Nat.div_add_mod']

end Kernels

/-- **A section of the decoding plan.** -/
theorem cudaDecodeSection_eq (h : PlanSection pl part n s)
    (hload : loadSection words ((pl.partDesc numParts sectionIndex part).sections +
      i * kvsSectionFields) = sectionDesc s) (htokens : n * pl.kernelTokens part < 2 ^ 31) :
    pl.cudaDecodeSection words pl.planPtrs (pl.partDesc numParts sectionIndex part)
        ⟨.arenaA, (pl.spanA part n).start⟩ (n * pl.kernelTokens part) i d =
      Function.update d .arenaA
        (pl.dequantizedArena part n s (d .arenaB) (d .aux) (d .arenaA)) := by
  have hu8 : pl.planPtrs.arenaB.add (pl.planPtrs.u8Base +
      (pl.partDesc numParts sectionIndex part).u8Offset) = ⟨.arenaB, (pl.u8Span part n).start⟩ := by
    simp only [planPtrs, Ptr.add, partDesc, u8Span, Nat.zero_add]
  have haux : ∀ offset, pl.planPtrs.aux.add offset = ⟨.aux, offset⟩ := by
    intro offset
    simp only [planPtrs, Ptr.add, Nat.zero_add]
  simp only [cudaDecodeSection, hload, castInt_eq htokens, hu8, haux]
  simp only [sectionDesc]
  rcases h.axis_cases with haxis | haxis
  · exact (if_pos (congrArg axisCode haxis)).trans (dequantizeChannelKernel_eq h.heads haxis)
  · exact (if_neg (by rw [haxis]; decide)).trans (dequantizeTokenKernel_eq h.heads haxis)

/-- **A section of `_dequantize`** stores the same elements. -/
theorem dequantizeSection_eq (h : PlanSection pl part n s)
    (haux : pl.layout.auxArenaBytes ≤ slot.aux.size) :
    pl.dequantizeSection part (pl.viewsOf part n).canonicalA (pl.u8Layer part n) slot s =
      some (slot.setA (pl.dequantizedArena part n s slot.arenaB.mem slot.aux.mem
        slot.arenaA.mem)) := by
  have hviews : ∀ offset ∈ [s.auxMinOffset, s.auxScaleOffset],
      pl.auxView slot offset (auxShape s.axis ((pl.viewsOf part n).canonicalA.shape.1,
        (pl.viewsOf part n).canonicalA.shape.2.1) s.headCount part.headSize) =
      some (.contiguous offset 2 (pl.sectionShape part n s)) :=
    fun offset ho => auxView_eq (h.fits offset ho) haux false
  simp only [dequantizeSection, hviews _ List.mem_cons_self,
    hviews _ (List.mem_cons_of_mem _ List.mem_cons_self), bind, Option.bind, pure]
  refine congrArg (fun m => some (slot.setA m)) (View.storeCells_congr fun x hx => ?_)
  have hread : broadcastIndex (pl.sectionShape part n s) x = auxKey s.axis x :=
    broadcastIndex_auxShape hx s.axis
  rw [dequantizedCell, ← hread]
  rfl

/-- Other elements than those of a section stay. -/
theorem cell_dequantizedArena_other (hheads : s.headStart + s.headCount ≤ part.numHeads)
    {arenaB aux : Mem} {x : Index} (hx : x.Inside (pl.canonicalShape part n)) (hnot : ¬ s.Has x) :
    (pl.viewsOf part n).canonicalA.cell (pl.dequantizedArena part n s arenaB aux m) x =
      (pl.viewsOf part n).canonicalA.cell m x := by
  -- the head of the element, as a view of its own
  let head := (pl.viewsOf part n).canonicalA.narrow2 x.2.2.1 1
  have hhead : x.2.2.1 + 1 ≤ (pl.viewsOf part n).canonicalA.shape.2.2.1 := hx.2.2.1
  have hcell : ∀ m, (pl.viewsOf part n).canonicalA.cell m x = head.cell m (x.1, x.2.1, 0, x.2.2.2) := by
    intro m
    rw [View.cell, View.cell, View.narrow2_addr]
    rfl
  rw [hcell, hcell]
  refine View.cell_storeCells_apart (fun a => ?_) ⟨hx.1, hx.2.1, Nat.one_pos, hx.2.2.2⟩
  refine (View.narrow2Part hhead).disjoint (View.narrow2Part hheads) View.contiguous_separated
    fun y z hy hz heq => hnot ?_
  have heq : x.2.2.1 + y.2.2.1 = s.headStart + z.2.2.1 := congrArg (fun i => i.2.2.1) heq
  have hy : y.2.2.1 < 1 := hy.2.2.1
  have hz : z.2.2.1 < s.headCount := hz.2.2.1
  exact ⟨by omega, by omega⟩

/-- The elements of a section do not depend on what the buffer held. -/
theorem cell_dequantizedArena (hheads : s.headStart + s.headCount ≤ part.numHeads)
    {arenaB aux : Mem} {x : Index} (hx : x.Inside (pl.canonicalShape part n)) (hhas : s.Has x) :
    (pl.viewsOf part n).canonicalA.cell (pl.dequantizedArena part n s arenaB aux m) x =
      pl.dequantizedCell part n s arenaB aux (s.inHeads x) := by
  have hin : (s.inHeads x).Inside (pl.sectionSource part n s).shape := inHeads_inside hx hhas
  have hcell := View.cell_storeCells (f := pl.dequantizedCell part n s arenaB aux) (m := m)
    (sectionSource_separated hheads) hin
  rw [View.cell, sectionSource, narrow2_inHeads _ hhas] at hcell
  exact hcell

/-- **The loop over the sections.** Every element belongs to one, so that nothing is left of what
the buffers held. -/
theorem decodeSections_agree (h : PlanSections pl part n)
    (hload : pl.Loads words numParts sectionIndex part)
    (htokens : n * pl.kernelTokens part < 2 ^ 31)
    (haux : pl.layout.auxArenaBytes ≤ slot.aux.size) (hsame : SameStream d slot) :
    ∃ mA dA, part.sections.foldlM (pl.dequantizeSection part (pl.viewsOf part n).canonicalA
        (pl.u8Layer part n)) slot = some (slot.setA mA) ∧
      (List.range part.sections.length).foldl (fun d i =>
        pl.cudaDecodeSection words pl.planPtrs (pl.partDesc numParts sectionIndex part)
          ⟨.arenaA, (pl.spanA part n).start⟩ (n * pl.kernelTokens part) i d) d =
        Function.update d .arenaA dA ∧
      ∀ x : Index, x.Inside (pl.canonicalShape part n) →
        (pl.viewsOf part n).canonicalA.cell mA x = (pl.viewsOf part n).canonicalA.cell dA x := by
  let R : List QuantSection → Slot → Device → Prop := fun rest s' d' =>
    rest.Sublist part.sections ∧ ∃ mA dA, s' = slot.setA mA ∧ d' = Function.update d .arenaA dA ∧
      ∀ x : Index, x.Inside (pl.canonicalShape part n) → (∀ s ∈ rest, ¬ s.Has x) →
        (pl.viewsOf part n).canonicalA.cell mA x = (pl.viewsOf part n).canonicalA.cell dA x
  have hstart : R part.sections slot d := by
    refine ⟨.refl _, slot.arenaA.mem, d .arenaA, rfl, (Function.update_eq_self _ _).symm,
      fun x hx hnone => ?_⟩
    obtain ⟨i, hi, -⟩ := existsUnique_section h.heads hx.2.2.1
    exact absurd hi (hnone _ (List.get_mem _ i))
  let launch : Device → Nat → Device := fun d i =>
    pl.cudaDecodeSection words pl.planPtrs (pl.partDesc numParts sectionIndex part)
      ⟨.arenaA, (pl.spanA part n).start⟩ (n * pl.kernelTokens part) i d
  have hstep : ∀ i s rest s' d', part.sections[i]? = some s → R (s :: rest) s' d' →
      ∃ s'', pl.dequantizeSection part (pl.viewsOf part n).canonicalA (pl.u8Layer part n) s' s =
        some s'' ∧ R rest s'' (launch d' i) := by
    rintro i s rest s' d' hi ⟨hsub, mA, dA, rfl, rfl, hcells⟩
    have hs := h.each s (hsub.subset List.mem_cons_self)
    refine ⟨_, dequantizeSection_eq hs haux, (List.sublist_cons_self s rest).trans hsub, _,
      pl.dequantizedArena part n s slot.arenaB.mem slot.aux.mem dA, rfl, ?_, fun x hx hnone => ?_⟩
    · rw [show launch _ i = _ from cudaDecodeSection_eq hs (hload i s hi) htokens,
        Function.update_idem, Function.update_self, Function.update_of_ne (by decide),
        Function.update_of_ne (by decide), hsame.arenaB, hsame.aux]
    · show (pl.viewsOf part n).canonicalA.cell (pl.dequantizedArena part n s slot.arenaB.mem
        slot.aux.mem mA) x = _
      by_cases hhas : s.Has x
      · rw [cell_dequantizedArena hs.heads hx hhas, cell_dequantizedArena hs.heads hx hhas]
      · rw [cell_dequantizedArena_other hs.heads hx hhas,
          cell_dequantizedArena_other hs.heads hx hhas]
        refine hcells x hx fun t ht => ?_
        rcases List.mem_cons.mp ht with rfl | ht
        · exact hhas
        · exact hnone t ht
  obtain ⟨slot', hfold, -, mA, dA, rfl, hd, hcells⟩ := exists_foldlM_range R hstep hstart
  exact ⟨mA, dA, hfold, hd, fun x hx => hcells x hx fun _ hs => absurd hs List.not_mem_nil⟩

/-! ### The first buffer -/

/-- **The stream comes back into the first buffer.** -/
theorem absorb_agrees (h : SlotRoom pl maxBlocks slot) (hp : part ∈ pl.layout.layerParts)
    (hn : n ≤ maxBlocks * pl.blocksPerLogical)
    (hsections : pl.stages.contains .quantizer = true → PlanSections pl part n)
    (hload : pl.Loads words numParts sectionIndex part)
    (htokens : n * pl.kernelTokens part < 2 ^ 31) (hsame : SameStream d slot) :
    let p := pl.partDesc numParts sectionIndex part
    let total := n * p.kernelTokens * p.numHeads * p.headSize
    ∃ mA dA, pl.absorb slot part n (n * pl.kernelTokens part) = some (slot.setA mA) ∧
      (let d := d.memset ⟨.arenaA, (pl.spanA part n).start⟩ (total * 2)
        if p.quantized = 0 then
          d.memcpy ⟨.arenaA, (pl.spanA part n).start⟩ ⟨.arenaB, (pl.packedSpan part n).start⟩
            (total * 2)
        else (List.range p.numSections).foldl (fun d i => pl.cudaDecodeSection words pl.planPtrs p
          ⟨.arenaA, (pl.spanA part n).start⟩ (n * p.kernelTokens) i d) d) =
        Function.update d .arenaA dA ∧
      ∀ x : Index, x.Inside (pl.canonicalShape part n) →
        (pl.viewsOf part n).canonicalA.cell mA x = (pl.viewsOf part n).canonicalA.cell dA x := by
  intro p total
  have hviews := (h.scratch part hp n hn).layerViews
  have hquantized : p.quantized = (pl.stages.contains .quantizer).toNat := rfl
  have hzeros : SameStream (d.memset ⟨.arenaA, (pl.spanA part n).start⟩ (total * 2)) slot :=
    ⟨(Function.update_of_ne (show Tensor.arenaB ≠ .arenaA by decide) _ _).trans hsame.arenaB,
      (Function.update_of_ne (show Tensor.aux ≠ .arenaA by decide) _ _).trans hsame.aux⟩
  simp only [absorb, hquantized]
  cases hq : pl.stages.contains .quantizer with
  | true =>
      obtain ⟨mA, dA, hfold, hcuda, hcells⟩ := decodeSections_agree (hsections hq) hload htokens
        h.aux hzeros
      have hvalid : ∀ v : View, v.shape = pl.canonicalShape part n →
          validRows v (n * pl.kernelTokens part) = v := by
        intro v hv
        rw [validRows, if_pos (by rw [hv]; rfl)]
      refine ⟨mA, dA, ?_, ?_, hcells⟩
      · simp only [if_true, dequantize, hviews, u8View_eq h hq hp hn, bind, Option.bind]
        rw [hvalid _ rfl, hvalid _ rfl]
        exact hfold
      · rw [Bool.toNat_true, if_neg Nat.one_ne_zero]
        refine hcuda.trans ?_
        rw [Device.memset, Function.update_idem]
  | false =>
      have hwithin := h.stream part hp n hn
      rw [streamSpan, hq, if_neg Bool.false_ne_true] at hwithin
      simp only [Bool.false_eq_true, if_false, unpack, hviews, bind, Option.bind, pure, guard,
        if_pos hwithin]
      let zeros := d.memset ⟨.arenaA, (pl.spanA part n).start⟩ (total * 2)
      refine ⟨_, (zeros .arenaA).fill ⟨(pl.spanA part n).start, total * 2⟩
        fun k => slot.arenaB.mem ((pl.packedSpan part n).start + k), rfl, ?_, fun x hx => ?_⟩
      · rw [Bool.toNat_false, if_pos rfl, Device.memcpy, hzeros.arenaB]
        exact Function.update_idem _ _ _
      · refine (cell_fill (a := (pl.spanA part n).start) hx).trans ?_
        exact (cell_fill (a := (pl.spanA part n).start) hx).symm

/-! ### The second buffer -/

/-- **The elements that are written to the cache**, each with its sign. -/
theorem restore_agrees (h : PlanPart pl part) {mA dA : Mem}
    (hcells : ∀ x : Index, x.Inside (pl.canonicalShape part n) →
      (pl.viewsOf part n).canonicalA.cell mA x = (pl.viewsOf part n).canonicalA.cell dA x)
    {x : Index} (hx : x.Inside (pl.canonicalShape part n)) :
    let views := pl.viewsOf part n
    let rows := pl.numRows part n
    views.canonicalB.cell
        (if pl.stages.contains .transformer then
          pl.applySigns views part (pl.ar.launchFwht views.canonicalA.base views.canonicalB.base rows
            part.headSize mA)
        else views.canonicalB.storeCells (views.canonicalA.cell mA) mA) x =
      pl.signedCell part (views.canonicalB.cell
        (if pl.stages.contains .transformer then
          pl.ar.launchFwht views.canonicalA.base views.canonicalB.base rows part.headSize dA
        else dA.fill (pl.spanB part n) fun k => dA ((pl.spanA part n).start + k)) x) x := by
  intro views rows
  have hsep : views.canonicalB.Separated 2 := View.contiguous_separated
  cases hst : pl.stages.contains .transformer with
  | true =>
      simp only [if_true]
      refine (View.cell_storeCells hsep hx).trans ?_
      obtain ⟨k, hk⟩ := h.power hst
      have hrows := sameRows_iff.mpr hcells
      rw [hk] at hrows
      have hout := @Arith.SameRows.launchFwht pl.ar _ _ _ views.canonicalB.base _ _ hrows
      rw [← hk] at hout
      have hcell : views.canonicalB.cell (pl.ar.launchFwht views.canonicalA.base
          views.canonicalB.base rows part.headSize mA) x =
          views.canonicalB.cell (pl.ar.launchFwht views.canonicalA.base views.canonicalB.base rows
            part.headSize dA) x := sameRows_iff.mp hout x hx
      rw [hcell, signedCell, if_pos hst]
  | false =>
      simp only [Bool.false_eq_true, if_false]
      refine (View.cell_storeCells hsep hx).trans ((hcells x hx).trans ?_)
      rw [signedCell, hst, if_neg Bool.false_ne_true]
      exact (cell_fill (a := (pl.spanB part n).start) hx).symm

/-! ### Blocks of a cache -/

/-- The blocks of a layer part, written one after the other. -/
def storeBlocks (pl : Pipeline) (part : LayerPartLayout) (ids : List Nat) (source : Index → Cell)
    (m : Mem) : Mem :=
  ids.zipIdx.foldl (fun m e => ((pl.cachePart part).narrow0 e.1 1).storeCells
    (fun x => source (e.2, x.2)) m) m

section Blocks

variable {ids : List Nat} {source source' : Index → Cell}
  (hin : ∀ b ∈ ids, b < (pl.cachePart part).shape.1)

include hin

theorem copyBlocks_eq : pl.copyBlocks kv part ids source =
    some (Function.update kv part.layerName
      (pl.storeBlocks part ids source (kv part.layerName))) := by
  rw [copyBlocks, if_pos (by simpa using hin)]
  rfl

omit hin in
theorem storeBlocks_congr (h : ∀ i < ids.length, ∀ x : Index,
      Index.Inside (0, x.2) (1, (pl.cachePart part).shape.2) → source (i, x.2) = source' (i, x.2)) :
    pl.storeBlocks part ids source m = pl.storeBlocks part ids source' m := by
  refine View.foldl_storeCells_congr fun e he x hx => h e.2 ?_ x ⟨Nat.one_pos, hx.2⟩
  have hget := List.mem_zipIdx_iff_getElem?.mp he
  exact (List.getElem?_eq_some_iff.mp hget).1

/-- **A launch that stores the elements of some blocks.** -/
theorem storeElements_blocks (hnd : ids.Nodup) (hsep : (pl.cachePart part).Separated 2)
    {ws : List (Nat × Cell)}
    (hws : ∀ w, w ∈ ws ↔ ∃ i < ids.length, ∃ x : Index,
      Index.Inside (0, x.2) (1, (pl.cachePart part).shape.2) ∧
        w = ((pl.cachePart part).addr (ids.getD i 0, x.2), source (i, x.2))) :
    m.storeElements ws = pl.storeBlocks part ids source m := by
  have hmem : ∀ e ∈ ids.zipIdx, e.2 < ids.length ∧ ids.getD e.2 0 = e.1 := by
    intro e he
    obtain ⟨hlt, heq⟩ := List.getElem?_eq_some_iff.mp (List.mem_zipIdx_iff_getElem?.mp he)
    exact ⟨hlt, (List.getD_eq_getElem _ _ hlt).trans heq⟩
  have hpart : ∀ e ∈ ids.zipIdx, e.1 + 1 ≤ (pl.cachePart part).shape.1 := by
    intro e he
    obtain ⟨hlt, heq⟩ := hmem e he
    rw [List.getD_eq_getElem _ _ hlt] at heq
    exact hin e.1 (heq ▸ List.getElem_mem hlt)
  refine View.storeElements_eq_foldl
    (fun e he => (View.narrow0Part (hpart e he)).separated hsep) ?_ fun w => (hws w).trans ?_
  · have hfst : (ids.zipIdx.map Prod.fst).Nodup := by
      rw [List.zipIdx_map_fst]
      exact hnd
    refine (List.pairwise_map.mp hfst).imp_of_mem fun {e e'} he he' hne a => ?_
    refine (View.narrow0Part (hpart e he)).disjoint (View.narrow0Part (hpart e' he')) hsep
      fun x y hx hy heq => hne ?_
    have hfirst : e.1 + x.1 = e'.1 + y.1 := congrArg Prod.fst heq
    have hx : x.1 < 1 := hx.1
    have hy : y.1 < 1 := hy.1
    omega
  · constructor
    · rintro ⟨i, hi, x, hx, rfl⟩
      refine ⟨(ids.getD i 0, i), ?_, (0, x.2), hx, ?_⟩
      · rw [List.mem_zipIdx_iff_getElem?, List.getElem?_eq_getElem hi, List.getD_eq_getElem _ _ hi]
      · rw [View.narrow0_addr]
        rfl
    · rintro ⟨e, he, x, hx, rfl⟩
      obtain ⟨hlt, heq⟩ := hmem e he
      have hx0 : x.1 = 0 := Nat.lt_one_iff.mp hx.1
      refine ⟨e.2, hlt, x, ⟨Nat.one_pos, hx.2⟩, ?_⟩
      rw [View.narrow0_addr, heq, hx0, Nat.add_zero]

end Blocks

/-! ### Scattering -/

/-- The position of a head in the order of its layer. -/
def headPosition (pl : Pipeline) (part : LayerPartLayout) (head : Nat) : Nat :=
  (pl.headOrders part.layerName).idxOf head

theorem OrderPerm.headPosition_getD (h : OrderPerm pl part) {i : Nat} (hi : i < part.numHeads) :
    pl.headPosition part ((pl.headOrders part.layerName).getD i 0) = i := by
  have hlt : i < (pl.headOrders part.layerName).length := h.length ▸ hi
  rw [headPosition, List.getD_eq_getElem _ _ hlt]
  exact (h.nodup_iff.mpr List.nodup_range).idxOf_getElem i hlt

theorem OrderPerm.getD_headPosition (h : OrderPerm pl part) {head : Nat}
    (hhead : head < part.numHeads) : pl.headPosition part head < part.numHeads ∧
      (pl.headOrders part.layerName).getD (pl.headPosition part head) 0 = head := by
  have hlt := List.idxOf_lt_length_of_mem (h.mem_iff.mpr (List.mem_range.mpr hhead))
  refine ⟨h.length ▸ hlt, ?_⟩
  rw [headPosition, List.getD_eq_getElem _ _ hlt, List.getElem_idxOf hlt]

/-- Heads of the second buffer in the places they have in a block of the cache. -/
def unordered (pl : Pipeline) (part : LayerPartLayout) (cells : Index → Cell) (x : Index) : Cell :=
  cells (x.1, x.2.2.1, pl.headPosition part x.2.1, x.2.2.2)

/-- **`index_copy_` of the heads.** -/
theorem reorderHeads_eq (horder : OrderPerm pl part) {cells : Index → Cell}
    (hcells : ∀ x : Index, x.Inside (pl.canonicalShape part n) →
      (pl.viewsOf part n).canonicalB.cell m x = cells x) {x : Index}
    (hx : x.Inside (pl.viewsOf part n).scratch.shape) :
    (pl.viewsOf part n).scratch.cell
      (reorderHeads (pl.viewsOf part n) (pl.headOrders part.layerName) m) x =
        pl.unordered part cells x := by
  have hordered : ∀ y : Index, y.Inside (pl.viewsOf part n).canonicalB.shape →
      (pl.viewsOf part n).canonicalB.cell m y =
        pl.reordered part (pl.unordered part cells) y := fun y hy => by
    rw [hcells y hy, reordered, unordered, horder.headPosition_getD hy.2.2.1]
  exact reorderHeads_spec horder hordered hx

/-- **`scatter_cache_kernel`** writes the blocks that Python copies. -/
theorem scatterCacheKernel_eq (h : PlanPart pl part) (hlength : indices.length = n)
    {ids : List Nat} (htake : ids.take n = indices)
    (hin : ∀ b ∈ indices, b < (pl.cachePart part).shape.1) (hnd : indices.Nodup) {base : Nat} :
    pl.scatterCacheKernel ⟨.arenaA, base⟩ (pl.partDesc numParts sectionIndex part) ids
        (pl.canonicalShape part n).numel d =
      Function.update d (.cache part.layerName) (pl.storeBlocks part indices
        (pl.unordered part fun x => pl.signedCell part
          ((View.contiguous base 2 (pl.canonicalShape part n)).cell (d .arenaA) x) x)
        (d (.cache part.layerName))) := by
  rw [scatterCacheKernel, Device.store]
  refine congrArg (Function.update d (Tensor.cache part.layerName)) ?_
  refine storeElements_blocks hin hnd h.separated fun w => ?_
  let buffer := View.contiguous base 2 (pl.canonicalShape part n)
  refine (mem_perElement_box (g := fun x => ((pl.cachePart part).addr (ids.getD x.1 0,
    (pl.headOrders part.layerName).getD x.2.2.1 0, x.2.1, x.2.2.2),
      pl.signedCell part (buffer.cell (d .arenaA) x) x)) fun idx hx => ?_).trans ?_
  · rw [← rn_signed h hx.2.2.2, ← orderedHead_eq h hx.2.2.1, ← cacheOffset_eq h, View.cell,
      View.contiguous_addr, Index.flat_unflat]
    rfl
  · constructor
    · rintro ⟨x, ⟨h0, h1, h2, h3⟩, rfl⟩
      refine ⟨x.1, hlength.symm ▸ h0, (0, (pl.headOrders part.layerName).getD x.2.2.1 0, x.2.1,
        x.2.2.2), ?_, ?_⟩
      · rw [h.shape]
        exact ⟨Nat.one_pos, h.order.lt h2, h1, h3⟩
      · rw [unordered, h.order.headPosition_getD h2, ← htake, getD_take (show x.1 < n from h0)]
    · rintro ⟨i, hi, y, hy, rfl⟩
      rw [h.shape] at hy
      obtain ⟨-, h1, h2, h3⟩ := hy
      obtain ⟨hlt, hhead⟩ := h.order.getD_headPosition h1
      rw [hlength] at hi
      refine ⟨(i, y.2.2.1, pl.headPosition part y.2.1, y.2.2.2), ⟨hi, h2, hlt, h3⟩, ?_⟩
      rw [hhead, unordered, ← htake, getD_take hi]

/-! ### Bodies -/

/-- The complete blocks in `decode_part`. -/
def cudaDecodeBody (pl : Pipeline) (words : Nat → Word) (q : PlanPtrs) (p : PartDesc)
    (indices : List Nat) (bodyBlocks : Nat) (d : Device) : Device :=
  let canonicalA := q.arenaA.add p.rawOffset
  let canonicalB := q.arenaA.add p.scratchOffset
  let total := bodyBlocks * p.kernelTokens * p.numHeads * p.headSize
  if bodyBlocks = 0 then d
  else
    let d := d.memset canonicalA (total * 2)
    let d := if p.quantized = 0 then
        d.memcpy canonicalA (q.arenaB.add (q.u8Base + p.u8Offset * 2)) (total * 2)
      else (List.range p.numSections).foldl (fun d i =>
        pl.cudaDecodeSection words q p canonicalA (bodyBlocks * p.kernelTokens) i d) d
    let d := if p.usesTransformer = 0 then d.memcpy canonicalB canonicalA (total * 2)
      else pl.launchFwht canonicalA canonicalB p.headSize
        (bodyBlocks * p.kernelTokens * p.numHeads) d
    pl.scatterCacheKernel canonicalB p indices total d

/-- The partial block in `decode_part`. -/
def cudaApplyTail (q : PlanPtrs) (p : PartDesc) (indices : List Nat) (totalBlocks tailTokens
    cursor : Nat) (d : Device) : Device :=
  match q.rawTail with
  | some rawTail =>
      if tailTokens = 0 then d
      else tailApplyKernel (rawTail.add cursor) p
        (indices.drop (totalBlocks - p.blocksPerLogical)) tailTokens d
  | none => d

theorem cudaDecodePart_eq {q : PlanPtrs} {p : PartDesc} {totalBlocks bodyBlocks validTokens
    cursor : Nat} :
    pl.cudaDecodePart words q p indices totalBlocks bodyBlocks validTokens (d, cursor) =
      (cudaApplyTail q p indices totalBlocks (validTokens % p.blockSize) cursor
        (pl.cudaDecodeBody words q p indices bodyBlocks d),
      cursor + tailBytesForPart p (validTokens % p.blockSize)) := rfl

variable {ids : List Nat} {validTokens offset : Nat}

/-- **The complete blocks of a layer part** reach its cache alike. -/
theorem decodeBody_agrees (h : SlotRoom pl maxBlocks slot) (hp : part ∈ pl.layout.layerParts)
    (hpart : PlanPart pl part)
    (hsections : pl.stages.contains .quantizer = true →
      ∀ n ≤ maxBlocks * pl.blocksPerLogical, PlanSections pl part n)
    (hload : pl.Loads words numParts sectionIndex part)
    (hw : pl.Window maxBlocks part ids validTokens) (hnd : ids.Nodup)
    (htokens : validTokens < 2 ^ 31) (hsame : SameStream d slot)
    (hkv : d (.cache part.layerName) = kv part.layerName) :
    ∃ mA dA c, pl.decodeBody kv part (pl.physicalIds ids) validTokens slot =
        some (slot.setA mA, Function.update kv part.layerName c) ∧
      pl.cudaDecodeBody words pl.planPtrs (pl.partDesc numParts sectionIndex part)
        (pl.physicalIds ids) (pl.bodyBlocks part validTokens) d =
        Function.update (Function.update d .arenaA dA) (.cache part.layerName) c := by
  obtain ⟨hle, hn⟩ := hw.bodyBlocks_le hpart.whole.pos
  have hbody := bodyTokens_eq_mul hpart.whole validTokens
  generalize hblocks : pl.bodyBlocks part validTokens = n at *
  by_cases hzero : n = 0
  · refine ⟨slot.arenaA.mem, d .arenaA, kv part.layerName, ?_, ?_⟩
    · rw [decodeBody, hbody, hzero, Nat.zero_mul, if_pos rfl, Function.update_eq_self]
      rfl
    · rw [cudaDecodeBody, if_pos hzero, Function.update_eq_self, ← hkv, Function.update_eq_self]
  · have hne : bodyTokens part validTokens ≠ 0 := by
      rw [hbody]
      exact Nat.mul_ne_zero hzero (Nat.ne_of_gt hpart.whole.kernelTokens_pos)
    have hlt : n * pl.kernelTokens part < 2 ^ 31 := by
      rw [← hbody, bodyTokens]
      omega
    let body := (pl.physicalIds ids).take n
    have hlength : body.length = n := List.length_take_of_le hle
    have hin : ∀ b ∈ body, b < (pl.cachePart part).shape.1 :=
      fun b hb => hw.inside b (List.mem_of_mem_take hb)
    have hndBody : body.Nodup := (nodup_physicalIds hnd).sublist (List.take_sublist _ _)
    obtain ⟨mA, dA, habsorb, hcuda, hcells⟩ := @absorb_agrees pl slot part words maxBlocks numParts
      sectionIndex n d h hp hn (fun hq => hsections hq n hn) hload hlt hsame
    let views := pl.viewsOf part n
    let rows := pl.numRows part n
    let mB := if pl.stages.contains .transformer then
        pl.applySigns views part (pl.ar.launchFwht views.canonicalA.base views.canonicalB.base rows
          part.headSize mA)
      else views.canonicalB.storeCells (views.canonicalA.cell mA) mA
    let dB := if pl.stages.contains .transformer then
        pl.ar.launchFwht views.canonicalA.base views.canonicalB.base rows part.headSize dA
      else dA.fill (pl.spanB part n) fun k => dA ((pl.spanA part n).start + k)
    have hrestored : ∀ x : Index, x.Inside (pl.canonicalShape part n) →
        views.canonicalB.cell mB x = pl.signedCell part (views.canonicalB.cell dB x) x :=
      fun x hx => restore_agrees hpart hcells hx
    let content := pl.unordered part fun x => pl.signedCell part (views.canonicalB.cell dB x) x
    refine ⟨reorderHeads views (pl.headOrders part.layerName) mB, dB,
      pl.storeBlocks part body content (kv part.layerName), ?_, ?_⟩
    · have hviews : pl.layerViews (slot.setA mA) part n = some views :=
        (show pl.Room (slot.setA mA) part n from
          ⟨(h.scratch part hp n hn).disjoint, (h.scratch part hp n hn).withinA,
            (h.scratch part hp n hn).withinB⟩).layerViews
      have hcontent : pl.storeBlocks part body
          (views.scratch.cell (reorderHeads views (pl.headOrders part.layerName) mB))
            (kv part.layerName) = pl.storeBlocks part body content (kv part.layerName) := by
        refine storeBlocks_congr fun i hi x hx => ?_
        rw [hpart.shape] at hx
        exact reorderHeads_eq hpart.order hrestored ⟨hlength ▸ hi, hx.2⟩
      rw [decodeBody, if_neg hne]
      simp only [hblocks, hbody, habsorb, bind, Option.bind]
      simp only [inverseHadamardScatter, show ((pl.physicalIds ids).take n).length = n from hlength,
        hviews, bind, Option.bind, pure]
      rw [copyBlocks_eq hin, ← hcontent]
      rfl
    · have hA : pl.planPtrs.arenaA.add (pl.partDesc numParts sectionIndex part).rawOffset =
          ⟨.arenaA, (pl.spanA part n).start⟩ := congrArg (Ptr.mk _) (Nat.zero_add _)
      have hB : pl.planPtrs.arenaA.add (pl.partDesc numParts sectionIndex part).scratchOffset =
          ⟨.arenaA, (pl.spanB part n).start⟩ := congrArg (Ptr.mk _) (Nat.zero_add _)
      have hpacked : pl.planPtrs.arenaB.add (pl.planPtrs.u8Base +
          (pl.partDesc numParts sectionIndex part).u8Offset * 2) =
          ⟨.arenaB, (pl.packedSpan part n).start⟩ := congrArg (Ptr.mk _) (Nat.zero_add _)
      have huses : (pl.partDesc numParts sectionIndex part).usesTransformer =
          (pl.stages.contains .transformer).toNat := rfl
      have hfwht : (if (pl.stages.contains .transformer).toNat = 0 then
          Device.memcpy ⟨.arenaA, (pl.spanB part n).start⟩ ⟨.arenaA, (pl.spanA part n).start⟩
            (n * pl.kernelTokens part * part.numHeads * part.headSize * 2)
            (Function.update d .arenaA dA)
        else pl.launchFwht ⟨.arenaA, (pl.spanA part n).start⟩ ⟨.arenaA, (pl.spanB part n).start⟩
          part.headSize (n * pl.kernelTokens part * part.numHeads)
          (Function.update d .arenaA dA)) = Function.update d .arenaA dB := by
        simp only [dB]
        cases pl.stages.contains .transformer with
        | true =>
            simp only [Bool.toNat_true, Nat.one_ne_zero, if_false, if_true, launchFwht,
              Function.update_self, Function.update_idem]
            rfl
        | false =>
            simp only [Bool.toNat_false, if_true, Bool.false_eq_true, if_false, Device.memcpy,
              Function.update_self, Function.update_idem]
            rfl
      have hscatter := @scatterCacheKernel_eq pl part body numParts sectionIndex n
        (Function.update d .arenaA dB) hpart hlength (pl.physicalIds ids) rfl hin hndBody
        (pl.spanB part n).start
      simp only [cudaDecodeBody, if_neg hzero, hA, hB, hpacked, hcuda, huses]
      refine (congrArg (pl.scatterCacheKernel _ _ _ _) hfwht).trans (hscatter.trans ?_)
      rw [Function.update_self, Function.update_of_ne (by simp), hkv]
      rfl

/-! ### Partial blocks -/

/-- A block of a partial block as it comes back: its valid tokens, then zeros. -/
def tailContent (pl : Pipeline) (part : LayerPartLayout) (tailTokens offset : Nat) (rawTail : Mem)
    (x : Index) : Cell :=
  if x.1 * pl.kernelTokens part + x.2.2.1 < tailTokens then
    (tailTarget part offset (tailRun (pl.kernelTokens part) (CompressionLayout.tokenBytes part)
      tailTokens x.1)).cell rawTail (0, x.2)
  else (0, 0)

/-- An element that `tail_apply_kernel` stores. -/
theorem tailContent_eq {tailTokens block head t dim : Nat} (ht : t < pl.kernelTokens part) :
    let p := pl.partDesc numParts sectionIndex part
    let count := tailCount tailTokens p.kernelTokens block
    (if t < count then
        d.cell ⟨.rawTail, offset⟩ (tailBlockOffset tailTokens p.kernelTokens p.numHeads p.headSize
          block / 2 + (head * count + t) * p.headSize + dim)
      else (0, 0)) =
      pl.tailContent part tailTokens offset (d .rawTail) (block, head, t, dim) := by
  intro p count
  have hcount : count = min (tailTokens - block * pl.kernelTokens part) (pl.kernelTokens part) :=
    tailCount_eq
  have hiff : t < count ↔ block * pl.kernelTokens part + t < tailTokens := by
    rw [hcount]
    omega
  by_cases hlt : block * pl.kernelTokens part + t < tailTokens
  · have haddr := @tailTarget_addr pl part numParts sectionIndex offset tailTokens
      (block * pl.kernelTokens part + t) head dim hlt
    have hdiv : (block * pl.kernelTokens part + t) / (pl.partDesc numParts sectionIndex part).kernelTokens =
      block := position_div ht
    have hmod : (block * pl.kernelTokens part + t) % (pl.partDesc numParts sectionIndex part).kernelTokens =
      t := position_mod ht
    simp only [position_div ht, position_mod ht, hdiv, hmod] at haddr
    rw [if_pos (hiff.mpr hlt), tailContent, if_pos hlt, View.cell, haddr]
    rfl
  · rw [if_neg fun h => hlt (hiff.mp h), tailContent, if_neg hlt]

/-- **`tail_apply_kernel`** writes the blocks that Python copies. -/
theorem tailApplyKernel_eq (h : PlanPart pl part) (hlength : ids.length = pl.blocksPerLogical)
    (hin : ∀ b ∈ ids, b < (pl.cachePart part).shape.1) (hnd : ids.Nodup) {tailTokens : Nat} :
    tailApplyKernel ⟨.rawTail, offset⟩ (pl.partDesc numParts sectionIndex part) ids tailTokens d =
      Function.update d (.cache part.layerName) (pl.storeBlocks part ids
        (pl.tailContent part tailTokens offset (d .rawTail)) (d (.cache part.layerName))) := by
  rw [tailApplyKernel, Device.store]
  refine congrArg (Function.update d (Tensor.cache part.layerName)) ?_
  refine storeElements_blocks hin hnd h.separated fun w => ?_
  rw [List.mem_flatMap, hlength]
  simp only [List.mem_range]
  refine exists_congr fun block => and_congr_right fun _ => ?_
  let p := pl.partDesc numParts sectionIndex part
  refine (mem_perElement_rows (g := fun t head dim =>
    let count := tailCount tailTokens p.kernelTokens block
    if t < count then
      [(cacheOffset p (ids.getD block 0) head t dim, d.cell ⟨.rawTail, offset⟩
        (tailBlockOffset tailTokens p.kernelTokens p.numHeads p.headSize block / 2 +
          (head * count + t) * p.headSize + dim))]
    else [(cacheOffset p (ids.getD block 0) head t dim, (0, 0))]) fun _ => rfl).trans ?_
  have hstore : ∀ t < pl.kernelTokens part, ∀ head dim,
      (let count := tailCount tailTokens p.kernelTokens block
        if t < count then
          [(cacheOffset p (ids.getD block 0) head t dim, d.cell ⟨.rawTail, offset⟩
            (tailBlockOffset tailTokens p.kernelTokens p.numHeads p.headSize block / 2 +
              (head * count + t) * p.headSize + dim))]
        else [(cacheOffset p (ids.getD block 0) head t dim, (0, 0))]) =
      [((pl.cachePart part).addr (ids.getD block 0, head, t, dim),
        pl.tailContent part tailTokens offset (d .rawTail) (block, head, t, dim))] := by
    intro t ht head dim
    rw [← @tailContent_eq pl part numParts sectionIndex d offset tailTokens block head t dim ht,
      ← @cacheOffset_eq pl part numParts sectionIndex h]
    dsimp only
    split
    · rfl
    · rfl
  constructor
  · rintro ⟨t, ht, head, hhead, dim, hdim, hw⟩
    rw [hstore t ht, List.mem_singleton] at hw
    refine ⟨(0, head, t, dim), ?_, hw⟩
    rw [h.shape]
    exact ⟨Nat.one_pos, hhead, ht, hdim⟩
  · rintro ⟨x, hx, hw⟩
    rw [h.shape] at hx
    obtain ⟨-, hhead, ht, hdim⟩ := hx
    refine ⟨x.2.2.1, ht, x.2.1, hhead, x.2.2.2, hdim, ?_⟩
    rw [hstore _ ht, List.mem_singleton]
    exact hw

/-- **The partial block of a layer part** reaches its cache alike. -/
theorem applyRawTail_agrees (h : PlanPart pl part) (hroom : pl.Room slot part pl.blocksPerLogical)
    (hlength : validTokens % part.blockSize ≠ 0 → pl.blocksPerLogical ≤ indices.length)
    (hin : ∀ b ∈ indices, b < (pl.cachePart part).shape.1) (hnd : indices.Nodup)
    (hfit : offset + validTokens % part.blockSize * CompressionLayout.tokenBytes part ≤
      slot.rawTail.size) :
    ∃ mA c, pl.applyRawTail kv slot part indices validTokens offset =
        some (slot.setA mA, Function.update kv part.layerName c,
          offset + validTokens % part.blockSize * CompressionLayout.tokenBytes part) ∧
      ∀ d : Device, d (.cache part.layerName) = kv part.layerName →
        d .rawTail = slot.rawTail.mem →
        cudaApplyTail pl.planPtrs (pl.partDesc numParts sectionIndex part) indices indices.length
          (validTokens % part.blockSize) offset d = Function.update d (.cache part.layerName) c := by
  by_cases hzero : validTokens % part.blockSize = 0
  · refine ⟨slot.arenaA.mem, kv part.layerName, ?_, fun d hkv _ => ?_⟩
    · rw [applyRawTail, hzero, Nat.zero_mul, Function.update_eq_self]
      rfl
    · rw [hzero, ← hkv, Function.update_eq_self]
      rfl
  · have hlt := Nat.mod_lt validTokens h.whole.pos
    have hschedule := tailSchedule_eq h.whole hlt
    have hlength := hlength hzero
    generalize htokens : validTokens % part.blockSize = tailTokens at *
    let tailIds := indices.drop (indices.length - pl.blocksPerLogical)
    have htailLength : tailIds.length = pl.blocksPerLogical := by
      rw [List.length_drop]
      omega
    have hinTail : ∀ b ∈ tailIds, b < (pl.cachePart part).shape.1 :=
      fun b hb => hin b (List.mem_of_mem_drop hb)
    have hndTail : tailIds.Nodup := hnd.sublist (List.drop_sublist _ _)
    let scratch := (pl.viewsOf part pl.blocksPerLogical).scratch
    let content := pl.tailContent part tailTokens offset slot.rawTail.mem
    let mA := unpackRuns part scratch offset slot.rawTail.mem
      (scratch.storeCells (fun _ => (0, 0)) slot.arenaA.mem) (pl.tailRunsOf part tailTokens)
    refine ⟨mA, pl.storeBlocks part tailIds content (kv part.layerName), ?_, fun d hkv htail => ?_⟩
    · have hcontent : pl.storeBlocks part tailIds (scratch.cell mA) (kv part.layerName) =
          pl.storeBlocks part tailIds content (kv part.layerName) := by
        refine storeBlocks_congr fun i hi x hx => ?_
        rw [h.shape] at hx
        rw [htailLength] at hi
        have htail : pl.TailAt part tailTokens offset (fun y =>
            (tailTarget part offset (tailRun (pl.kernelTokens part)
              (CompressionLayout.tokenBytes part) tailTokens y.1)).cell slot.rawTail.mem (0, y.2))
            slot.rawTail.mem := fun _ _ _ _ => rfl
        exact unpackRuns_spec h.whole hlt htail hi hx
      simp only [applyRawTail, htokens, if_neg hzero, hroom.layerViews, hschedule, hfit, bind,
        Option.bind, pure, guard, if_true]
      rw [copyBlocks_eq hinTail, ← hcontent]
      rfl
    · have hptr : (⟨.rawTail, 0⟩ : Ptr).add offset = ⟨.rawTail, offset⟩ :=
        congrArg (Ptr.mk _) (Nat.zero_add _)
      show (if tailTokens = 0 then d else
        tailApplyKernel ((⟨.rawTail, 0⟩ : Ptr).add offset) _ _ _ d) = _
      rw [if_neg hzero, hptr]
      refine (tailApplyKernel_eq h htailLength hinTail hndTail).trans ?_
      rw [htail, hkv]

/-! ### Layer parts -/

variable {tokens : Nat → Nat} {cache : List (Nat × Nat × Nat)}

/-- **A layer part on both sides.** -/
theorem decodePart_agrees (h : SlotRoom pl maxBlocks slot) (hp : part ∈ pl.layout.layerParts)
    (hplanned : Planned pl maxBlocks part) (hload : pl.Loads words numParts sectionIndex part)
    (hindices : Pipeline.indices slot cache part.groupIndex = some (pl.physicalIds ids))
    (hw : pl.Window maxBlocks part ids (tokens part.groupIndex)) (hnd : ids.Nodup)
    (htokens : tokens part.groupIndex < 2 ^ 31)
    (hfit : offset + tokens part.groupIndex % part.blockSize * CompressionLayout.tokenBytes part ≤
      slot.rawTail.size) (hagrees : Agrees d slot kv) :
    ∃ mA kv', pl.decodePart cache tokens (slot, kv, offset) part = some (slot.setA mA, kv', offset +
        tokens part.groupIndex % part.blockSize * CompressionLayout.tokenBytes part) ∧
      let r := pl.cudaDecodePart words pl.planPtrs (pl.partDesc numParts sectionIndex part)
        (pl.physicalIds ids) (pl.physicalIds ids).length
        (pl.bodyBlocks part (tokens part.groupIndex)) (tokens part.groupIndex) (d, offset)
      r.2 = offset +
        tokens part.groupIndex % part.blockSize * CompressionLayout.tokenBytes part ∧
      Agrees r.1 (slot.setA mA) kv' := by
  have hwhole := hplanned.kernels.whole
  generalize htok : tokens part.groupIndex = validTokens at *
  obtain ⟨mA, dA, c, hbody, hcuda⟩ := @decodeBody_agrees pl kv slot part words maxBlocks numParts
    sectionIndex d ids validTokens h hp hplanned.kernels hplanned.sections hload hw hnd htokens
    hagrees.stream (hagrees.caches _)
  let none : Nat → Prop := fun _ => False
  have hroom := h.keeps (@Slot.Keeps.setA none none _ mA)
  have hle : validTokens % part.blockSize ≠ 0 → pl.blocksPerLogical ≤ (pl.physicalIds ids).length :=
    fun hne => by
      rw [hw.length_sub hwhole.pos hne]
      exact Nat.le_add_left _ _
  obtain ⟨mA', c', happly, htail⟩ := @applyRawTail_agrees pl (Function.update kv part.layerName c)
    (slot.setA mA) part (pl.physicalIds ids) numParts sectionIndex validTokens offset
    hplanned.kernels (hroom.scratch part hp _ (hw.factor_le hwhole.pos)) hle hw.inside
    (nodup_physicalIds hnd) hfit
  let body := Function.update (Function.update d .arenaA dA) (.cache part.layerName) c
  have hagrees' : Agrees body (slot.setA mA) (Function.update kv part.layerName c) :=
    hagrees.setA.setCache
  have hpacked := htail body (hagrees'.caches _) hagrees'.rawTail
  refine ⟨mA', Function.update (Function.update kv part.layerName c) part.layerName c', ?_, ?_, ?_⟩
  · simp only [decodePart, hindices, htok, hbody, happly, bind, Option.bind]
    rfl
  · rw [cudaDecodePart_eq]
    exact congrArg (offset + ·) (tailBytesForPart_eq hwhole validTokens)
  · rw [cudaDecodePart_eq, hcuda]
    show Agrees (cudaApplyTail pl.planPtrs _ _ _ (validTokens % part.blockSize) offset body) _ _
    rw [hpacked]
    exact hagrees'.slotA.setCache

end Pipeline

end KVServe.Runtime

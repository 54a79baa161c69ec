import KVServe.Compression.Quantizer
import KVServe.Runtime.HeadOrders

/-!
# KVServe.Compression.QuantizerBound

**The quantizer's round trip.** Every element comes back at its own position, off by at
most half of the scale of its group in its section, whenever no section that has heads is
quantized with a maximum value of 1, which `validate` admits.
-/

namespace KVServe.Compression

open KVServe.Runtime (QuantAxis SplitType lowHeads highHeads localOrder)

/-! ### Groups -/

section Groups

variable {t : Grid ℚ} {axis : QuantAxis} {x shape : Index}

/-- What is reduced along `axis` and broadcast to a position is that of its group. -/
theorem bcast_groupShape {α : Type} (f : Index → α) (hx : x.Inside shape) :
    (Grid.mk (groupShape axis shape) f).bcast x = f (groupKey axis x) := by
  obtain ⟨h0, h1, h2, h3⟩ := hx
  have hone : ∀ {size i : Nat}, i < size → (if size = 1 then 0 else i) = i := by
    intro size i hi
    split
    · omega
    · rfl
  cases axis with
  | channel =>
      show f (0, 0, if shape.2.2.1 = 1 then 0 else x.2.2.1, if shape.2.2.2 = 1 then 0 else x.2.2.2) =
        f (0, 0, x.2.2.1, x.2.2.2)
      rw [hone h2, hone h3]
  | token =>
      show f (if shape.1 = 1 then 0 else x.1, if shape.2.1 = 1 then 0 else x.2.1, 0, 0) =
        f (x.1, x.2.1, 0, 0)
      rw [hone h0, hone h1]
  | tensor => rfl

theorem entry_mem_groupValues (hx : x.Inside t.shape) :
    t.entry x ∈ groupValues t axis (groupKey axis x) := by
  refine List.mem_map_of_mem (List.mem_filter.mpr ⟨Index.mem_all.mpr hx, ?_⟩)
  exact decide_eq_true rfl

/-- An element lies between the extrema of its group. -/
theorem amin_le_le_amax (hx : x.Inside t.shape) :
    (amin t axis).entry (groupKey axis x) ≤ t.entry x ∧
      t.entry x ≤ (amax t axis).entry (groupKey axis x) := by
  have hmem := @entry_mem_groupValues t axis x hx
  have hne := List.ne_nil_of_mem hmem
  constructor
  · have hmin := (List.min?_eq_some_iff.mp (List.min?_eq_some_min hne)).2 _ hmem
    rw [amin]
    simp only [List.min?_eq_some_min hne, Option.getD_some]
    exact hmin
  · have hmax := (List.max?_eq_some_iff.mp (List.max?_eq_some_max hne)).2 _ hmem
    rw [amax]
    simp only [List.max?_eq_some_max hne, Option.getD_some]
    exact hmax

end Groups

/-! ### One section -/

theorem eps_pos : 0 < eps := by norm_num [eps]

/-- A quantized element: its symbol is within the levels, and what is read back is near. -/
def Near (maxValue symbol : Nat) (m : SectionMeta) (x : Index) (original : ℚ) : Prop :=
  symbol ≤ maxValue - 1 ∧ |symbol * m.quantScale.bcast x + m.minVal.bcast x - original| ≤
    m.quantScale.bcast x / 2

/-- What `quantize` gives for a tensor. -/
structure Quantized (maxValue : Nat) (t : Grid ℚ) (g : Grid Nat) (m : Option SectionMeta) :
    Prop where
  shape : g.shape = t.shape
  near : ∀ x : Index, x.Inside t.shape →
    ∃ sectionMeta, m = some sectionMeta ∧ Near maxValue (g.entry x) sectionMeta x (t.entry x)
  -- without elements there is no metadata either
  none : Index.numel t.shape = 0 → m = none

theorem inside_numel_pos {x shape : Index} (h : x.Inside shape) : Index.numel shape ≠ 0 := by
  have hlt := Index.flat_lt h
  omega

/-- **A section is quantized unless it has elements and its maximum value is 1.** -/
theorem exists_quantize (maxValue : Nat) (t : Grid ℚ) (axis : QuantAxis)
    (h : Index.numel t.shape ≠ 0 → maxValue - 1 ≠ 0) :
    ∃ g m, quantize maxValue (.grid t) axis = some (.grid g, m) ∧ Quantized maxValue t g m := by
  rw [quantize]
  by_cases hzero : Index.numel t.shape = 0
  · rw [if_pos hzero]
    exact ⟨_, _, rfl, rfl, fun x hx => absurd hzero (inside_numel_pos hx), fun _ => rfl⟩
  · have hmax := h hzero
    rw [if_neg hzero, if_neg hmax]
    refine ⟨_, _, rfl, rfl, fun x hx => ⟨_, rfl, ?_⟩, fun h => absurd h hzero⟩
    obtain ⟨hlo, hhi⟩ := @amin_le_le_amax t axis x hx
    have hscale : (Grid.mk (amax t axis).shape fun key => scaleOf eps ((amin t axis).entry key)
        ((amax t axis).entry key) (maxValue - 1)).bcast x = scaleOf eps
          ((amin t axis).entry (groupKey axis x)) ((amax t axis).entry (groupKey axis x))
          (maxValue - 1) := bcast_groupShape _ hx
    have hmin : (amin t axis).bcast x = (amin t axis).entry (groupKey axis x) :=
      bcast_groupShape _ hx
    simp only [Near, hscale, hmin]
    have hpos : 0 < maxValue - 1 := Nat.pos_of_ne_zero hmax
    exact ⟨symbolOf_le eps_pos hpos (by omega) hlo hhi,
      abs_symbolOf_mul_add_sub_le eps_pos hpos (by omega) hlo hhi⟩

theorem max_ne_of_quantize {maxValue : Nat} {t : Grid ℚ} {axis : QuantAxis}
    {r : Piece Nat × Option SectionMeta} (h : quantize maxValue (.grid t) axis = some r)
    (hne : Index.numel t.shape ≠ 0) : maxValue - 1 ≠ 0 := by
  rw [quantize, if_neg hne] at h
  split at h
  · cases h
  · assumption

/-- What `dequantize` gives for a tensor that agrees with the quantized one. -/
theorem dequantize_spec {maxValue : Nat} {t : Grid ℚ} {g g' : Grid Nat} {m : Option SectionMeta}
    (h : Quantized maxValue t g m) (hshape : g'.shape = g.shape)
    (hentry : ∀ x : Index, x.Inside t.shape → g'.entry x = g.entry x) :
    ∃ back, dequantize (.grid g') m = .grid back ∧ back.shape = t.shape ∧
      ∀ x : Index, x.Inside t.shape → ∃ sectionMeta, m = some sectionMeta ∧
        g.entry x ≤ maxValue - 1 ∧
        |back.entry x - t.entry x| ≤ sectionMeta.quantScale.bcast x / 2 := by
  cases m with
  | none =>
      refine ⟨_, rfl, hshape.trans h.shape, fun x hx => ?_⟩
      obtain ⟨sectionMeta, hm, -⟩ := h.near x hx
      cases hm
  | some sectionMeta =>
      refine ⟨_, rfl, hshape.trans h.shape, fun x hx => ⟨sectionMeta, rfl, ?_⟩⟩
      obtain ⟨_, hm, hsymbol, herror⟩ := h.near x hx
      cases hm
      simp only [hentry x hx]
      exact ⟨hsymbol, herror⟩

/-! ### The heads of a part -/

section Heads

variable {mask : List Bool} {head p : Nat}

theorem mem_highHeads : head ∈ highHeads mask ↔
    head < mask.length ∧ mask.getD head false = false := by
  rw [highHeads, List.mem_filter, List.mem_range, Bool.not_eq_true']

theorem nodup_lowHeads (mask : List Bool) : (lowHeads mask).Nodup := List.nodup_range.filter _

theorem nodup_highHeads (mask : List Bool) : (highHeads mask).Nodup := List.nodup_range.filter _

theorem length_lowHeads_add (mask : List Bool) :
    (lowHeads mask).length + (highHeads mask).length = mask.length := by
  have hperm := (Runtime.localOrder_perm mask).length_eq
  rwa [localOrder, List.length_append, List.length_range] at hperm

/-- The head that is stored at a place, if low heads come first. -/
theorem localOrder_low (hp : p < (lowHeads mask).length) :
    (localOrder mask).getD p 0 = (lowHeads mask)[p] ∧
      mask.getD (lowHeads mask)[p] false = true := by
  rw [localOrder, List.getD_append _ _ _ _ hp, List.getD_eq_getElem _ _ hp]
  exact ⟨rfl, Runtime.mem_lowHeads.mp (List.getElem_mem hp)⟩

theorem localOrder_high {q : Nat} (hq : q < (highHeads mask).length)
    (hp : p = (lowHeads mask).length + q) :
    (localOrder mask).getD p 0 = (highHeads mask)[q] ∧
      mask.getD (highHeads mask)[q] false = false := by
  rw [localOrder, List.getD_append_right _ _ _ _ (by omega), hp, Nat.add_sub_cancel_left,
    List.getD_eq_getElem _ _ hq]
  exact ⟨rfl, (mem_highHeads.mp (List.getElem_mem hq)).2⟩

end Heads

/-- The position with another head. -/
def atHead (x : Index) (head : Nat) : Index := (x.1, x.2.1, head, x.2.2.2)

/-- The head of a section that stands at a place. -/
def sectionHead (mask : List Bool) (p : Nat) : Nat :=
  if p < (lowHeads mask).length then p else p - (lowHeads mask).length

/-- The keys or the values, as they are stored and read back: at each place there is a symbol
of the section of the place's head, and the element of that head is near. -/
def PartStored (mask : List Bool) (t : Grid ℚ) (maxOf : Bool → Nat)
    (metaOf : Bool → Option SectionMeta) (symbols : Index → Nat) (back : Index → ℚ) : Prop :=
  ∀ y : Index, y.Inside t.shape →
    let head := (localOrder mask).getD y.2.2.1 0
    let low := mask.getD head false
    symbols y ≤ maxOf low - 1 ∧ ∃ sectionMeta, metaOf low = some sectionMeta ∧
      |back (atHead y head) - t.entry (atHead y head)| ≤
        sectionMeta.quantScale.bcast (atHead y (sectionHead mask y.2.2.1)) / 2

section Reconstruct

variable {α : Type} {mask : List Bool} {low high : Grid α} {b s d n m : Nat}

/-- Heads put after heads. -/
theorem exists_cat (hlow : low.shape = (b, s, n, d)) (hhigh : high.shape = (b, s, m, d)) :
    ∃ out, (Piece.grid low).cat (.grid high) = some (.grid out) ∧ out.shape = (b, s, n + m, d) ∧
      (∀ x : Index, x.2.2.1 < n → out.entry x = low.entry x) ∧
      ∀ x : Index, n ≤ x.2.2.1 → out.entry x = high.entry (atHead x (x.2.2.1 - n)) := by
  refine ⟨_, if_pos ?_, ?_, fun x hx => ?_, fun x hx => ?_⟩
  · rw [hlow, hhigh]
    exact ⟨rfl, rfl, rfl⟩
  · rw [hlow, hhigh]
  · rw [hlow]
    exact if_pos hx
  · rw [hlow]
    exact if_neg (Nat.not_lt.mpr hx)

/-- Heads written over others. -/
theorem exists_assignHeads {t : Grid α} {idx : List Nat} (ht : t.shape = (b, s, n, d))
    (hsource : low.shape = (b, s, idx.length, d)) :
    ∃ u, t.assignHeads idx low = some u ∧ u.shape = (b, s, n, d) ∧
      (∀ x : Index, x.2.2.1 ∈ idx → u.entry x = low.entry (atHead x (idx.idxOf x.2.2.1))) ∧
      ∀ x : Index, x.2.2.1 ∉ idx → u.entry x = t.entry x := by
  refine ⟨_, if_pos ?_, ht, fun x hx => if_pos hx, fun x hx => if_neg hx⟩
  rw [hsource, ht]

/-- Every head is put back at its own place. -/
theorem exists_headReconstruct (hlow : low.shape = (b, s, (lowHeads mask).length, d))
    (hhigh : high.shape = (b, s, (highHeads mask).length, d)) :
    ∃ back, headReconstruct mask (.grid low) (.grid high) = some (.grid back) ∧
      back.shape = (b, s, mask.length, d) ∧
      (∀ (x : Index) (p : Nat) (hp : p < (lowHeads mask).length),
        back.entry (atHead x (lowHeads mask)[p]) = low.entry (atHead x p)) ∧
      ∀ (x : Index) (q : Nat) (hq : q < (highHeads mask).length),
        back.entry (atHead x (highHeads mask)[q]) = high.entry (atHead x q) := by
  obtain ⟨restored, hcat, hshape, -⟩ := exists_cat hlow hhigh
  have hlength := length_lowHeads_add mask
  rw [hlength] at hshape
  have hmask : mask.length = restored.shape.2.2.1 := by rw [hshape]
  obtain ⟨first, hfirst, hfirstShape, hfirstIn, -⟩ := exists_assignHeads hshape hlow
  obtain ⟨back, hback, hbackShape, hbackIn, hbackOut⟩ := exists_assignHeads hfirstShape hhigh
  refine ⟨back, ?_, hbackShape, fun x p hp => ?_, fun x q hq => ?_⟩
  · simp only [headReconstruct, hcat, bind, Option.bind, if_pos hmask, hfirst, hback, pure]
  · -- a low head is no high head
    have hnot : (lowHeads mask)[p] ∉ highHeads mask := fun hmem => by
      have hlow := Runtime.mem_lowHeads.mp (List.getElem_mem hp)
      rw [(mem_highHeads.mp hmem).2] at hlow
      cases hlow
    rw [hbackOut _ hnot, hfirstIn _ (List.getElem_mem hp)]
    simp only [atHead, (nodup_lowHeads mask).idxOf_getElem]
  · rw [hbackIn _ (List.getElem_mem hq)]
    simp only [atHead, (nodup_highHeads mask).idxOf_getElem]

end Reconstruct

section HeadPart

variable {mask : List Bool} {t : Grid ℚ} {lowMax highMax : Nat}

theorem selectHeads_entry {idx : List Nat} {x : Index} :
    (t.selectHeads idx).entry x = t.entry (atHead x (idx.getD x.2.2.1 0)) := rfl

theorem numel_selectHeads {idx : List Nat} (h : Index.numel (t.selectHeads idx).shape ≠ 0) :
    idx ≠ [] := by
  rintro rfl
  exact h (by simp [Index.numel, Grid.selectHeads])

/-- **A part whose heads are split.** -/
theorem headSplit_stored (hlength : mask.length = t.shape.2.2.1) (axis : QuantAxis)
    (hlow : lowHeads mask ≠ [] → lowMax - 1 ≠ 0) (hhigh : highHeads mask ≠ [] → highMax - 1 ≠ 0) :
    ∃ ql lm qh hm out back,
      quantize lowMax (.grid (t.selectHeads (lowHeads mask))) axis = some (ql, lm) ∧
      quantize highMax (.grid (t.selectHeads (highHeads mask))) axis = some (qh, hm) ∧
      ql.cat qh = some (.grid out) ∧ out.shape = t.shape ∧
      headReconstruct mask (dequantize (headRestore mask out).1 lm)
        (dequantize (headRestore mask out).2 hm) = some (.grid back) ∧ back.shape = t.shape ∧
      PartStored mask t (fun low => if low then lowMax else highMax)
        (fun low => if low then lm else hm) out.entry back.entry := by
  have hheads := length_lowHeads_add mask
  obtain ⟨gl, lm, hql, hgl⟩ := exists_quantize lowMax (t.selectHeads (lowHeads mask)) axis
    fun h => hlow (numel_selectHeads h)
  obtain ⟨gh, hm, hqh, hgh⟩ := exists_quantize highMax (t.selectHeads (highHeads mask)) axis
    fun h => hhigh (numel_selectHeads h)
  obtain ⟨out, hcat, hshape, houtLow, houtHigh⟩ := exists_cat hgl.shape hgh.shape
  have hout : out.shape = t.shape := by
    rw [hshape, hheads, hlength]
  have hrange : out.shape.2.2.1 = mask.length := by rw [hout, hlength]
  -- the two slices of the stored heads are the quantized sections
  obtain ⟨bl, hbl, hblShape, hblNear⟩ := @dequantize_spec lowMax (t.selectHeads (lowHeads mask)) gl
    (out.selectHeads ((List.range out.shape.2.2.1).take (lowHeads mask).length)) lm hgl
    (by
      rw [Grid.selectHeads, hgl.shape, hout, List.length_take, List.length_range, ← hlength,
        Nat.min_eq_left (by omega)]
      rfl)
    (fun x hx => by
      have hx2 : x.2.2.1 < (lowHeads mask).length := hx.2.2.1
      have hget : ((List.range out.shape.2.2.1).take (lowHeads mask).length).getD x.2.2.1 0 =
          x.2.2.1 := by
        rw [List.getD_eq_getElem _ _ (by simp; omega), List.getElem_take, List.getElem_range]
      simp only [Grid.selectHeads, hget]
      exact houtLow x hx2)
  obtain ⟨bh, hbh, hbhShape, hbhNear⟩ := @dequantize_spec highMax (t.selectHeads (highHeads mask))
    gh (out.selectHeads ((List.range out.shape.2.2.1).drop (lowHeads mask).length)) hm hgh
    (by
      rw [Grid.selectHeads, hgh.shape, hout, List.length_drop, List.length_range, ← hlength,
        ← hheads, Nat.add_sub_cancel_left]
      rfl)
    (fun x hx => by
      have hx2 : x.2.2.1 < (highHeads mask).length := hx.2.2.1
      have hget : ((List.range out.shape.2.2.1).drop (lowHeads mask).length).getD x.2.2.1 0 =
          (lowHeads mask).length + x.2.2.1 := by
        rw [List.getD_eq_getElem _ _ (by simp; omega), List.getElem_drop, List.getElem_range]
      simp only [Grid.selectHeads, hget]
      rw [houtHigh _ (Nat.le_add_right _ _)]
      simp only [atHead, Nat.add_sub_cancel_left])
  obtain ⟨back, hback, hbackShape, hbackLow, hbackHigh⟩ :=
    exists_headReconstruct hblShape hbhShape
  refine ⟨.grid gl, lm, .grid gh, hm, out, back, hql, hqh, hcat, hout, ?_, ?_, fun y hy => ?_⟩
  · rw [headRestore, hbl, hbh, hback]
  · rw [hbackShape, hlength]
  · have hplace : y.2.2.1 < mask.length := hlength ▸ hy.2.2.1
    by_cases hp : y.2.2.1 < (lowHeads mask).length
    · obtain ⟨horder, hbit⟩ := localOrder_low hp
      have hin : y.Inside (t.selectHeads (lowHeads mask)).shape := ⟨hy.1, hy.2.1, hp, hy.2.2.2⟩
      obtain ⟨sectionMeta, hlm, hsymbol, herror⟩ := hblNear y hin
      simp only [horder, hbit, if_true, sectionHead, if_pos hp]
      refine ⟨(houtLow y hp).symm ▸ hsymbol, sectionMeta, hlm, ?_⟩
      rw [hbackLow y _ hp]
      have hselect : (t.selectHeads (lowHeads mask)).entry y =
          t.entry (atHead y (lowHeads mask)[y.2.2.1]) := by
        rw [selectHeads_entry, List.getD_eq_getElem _ _ hp]
      rw [hselect] at herror
      exact herror
    · have hq : y.2.2.1 - (lowHeads mask).length < (highHeads mask).length := by omega
      obtain ⟨horder, hbit⟩ := localOrder_high hq
        (Nat.add_sub_cancel' (Nat.le_of_not_lt hp)).symm
      have hin : (atHead y (y.2.2.1 - (lowHeads mask).length)).Inside
          (t.selectHeads (highHeads mask)).shape := ⟨hy.1, hy.2.1, hq, hy.2.2.2⟩
      obtain ⟨sectionMeta, hhm, hsymbol, herror⟩ := hbhNear _ hin
      simp only [horder, hbit, if_false, Bool.false_eq_true, sectionHead, if_neg hp]
      refine ⟨(houtHigh y (Nat.le_of_not_lt hp)).symm ▸ hsymbol, sectionMeta, hhm, ?_⟩
      rw [hbackHigh y _ hq]
      have hget := List.getD_eq_getElem (highHeads mask) 0 hq
      rw [selectHeads_entry] at herror
      simp only [atHead, hget] at herror
      exact herror

end HeadPart

section LayerPart

variable {t : Grid ℚ} {lowMax highMax : Nat}

theorem lowHeads_replicate (n : Nat) (low : Bool) :
    lowHeads (List.replicate n low) = if low then List.range n else [] := by
  have hget : ∀ head ∈ List.range n, (List.replicate n low).getD head false = low := by
    intro head hhead
    rw [List.getD_eq_getElem _ _ (by simpa using hhead), List.getElem_replicate]
  rw [lowHeads, List.length_replicate]
  cases low with
  | true =>
      rw [if_pos rfl]
      exact List.filter_eq_self.mpr hget
  | false =>
      rw [if_neg Bool.false_ne_true]
      exact List.filter_eq_nil_iff.mpr fun head hhead h => by
        rw [hget head hhead] at h
        cases h

theorem localOrder_replicate (n : Nat) (low : Bool) :
    localOrder (List.replicate n low) = List.range n := by
  have hlow := lowHeads_replicate n low
  have hhigh : highHeads (List.replicate n low) = if low then [] else List.range n := by
    have hget : ∀ head ∈ List.range n, (!(List.replicate n low).getD head false) = !low := by
      intro head hhead
      rw [List.getD_eq_getElem _ _ (by simpa using hhead), List.getElem_replicate]
    rw [highHeads, List.length_replicate]
    cases low with
    | true =>
        rw [if_pos rfl]
        exact List.filter_eq_nil_iff.mpr fun head hhead h => by
          rw [hget head hhead] at h
          cases h
    | false =>
        rw [if_neg Bool.false_ne_true]
        exact List.filter_eq_self.mpr hget
  rw [localOrder, hlow, hhigh]
  cases low with
  | true => simp
  | false => simp

/-- **A part of a layer that is of one precision.** -/
theorem layerSplit_stored (low : Bool) (axis : QuantAxis) (hne : Index.numel t.shape ≠ 0)
    (hmax : (if low then lowMax else highMax) - 1 ≠ 0) :
    ∃ ql lm qh hm out back,
      quantize lowMax (layerSplit low t).1 axis = some (ql, lm) ∧
      quantize highMax (layerSplit low t).2 axis = some (qh, hm) ∧
      ql.cat qh = some (.grid out) ∧ out.shape = t.shape ∧
      layerReconstruct (dequantize (layerRestore low out).1 lm)
        (dequantize (layerRestore low out).2 hm) = .grid back ∧ back.shape = t.shape ∧
      PartStored (List.replicate t.shape.2.2.1 low) t
        (fun low => if low then lowMax else highMax) (fun low => if low then lm else hm)
        out.entry back.entry := by
  have hstored : ∀ {g : Grid Nat} {m : Option SectionMeta} {back : Grid ℚ} {lm hm},
      (∀ x : Index, x.Inside t.shape → ∃ sectionMeta, m = some sectionMeta ∧
        g.entry x ≤ (if low then lowMax else highMax) - 1 ∧
        |back.entry x - t.entry x| ≤ sectionMeta.quantScale.bcast x / 2) →
      m = (if low then lm else hm) →
      PartStored (List.replicate t.shape.2.2.1 low) t (fun low => if low then lowMax else highMax)
        (fun low => if low then lm else hm) g.entry back.entry := by
    intro g m back lm hm hnear hm' y hy
    have hplace : (localOrder (List.replicate t.shape.2.2.1 low)).getD y.2.2.1 0 = y.2.2.1 := by
      rw [localOrder_replicate, List.getD_eq_getElem _ _ (by simpa using hy.2.2.1),
        List.getElem_range]
    have hbit : (List.replicate t.shape.2.2.1 low).getD y.2.2.1 false = low := by
      rw [List.getD_eq_getElem _ _ (by simpa using hy.2.2.1), List.getElem_replicate]
    have hsection : sectionHead (List.replicate t.shape.2.2.1 low) y.2.2.1 = y.2.2.1 := by
      have hlt := hy.2.2.1
      rw [sectionHead, lowHeads_replicate]
      cases low with
      | true => simp [hlt]
      | false => simp
    obtain ⟨sectionMeta, hsome, hsymbol, herror⟩ := hnear y hy
    simp only [hplace, hbit, hsection]
    exact ⟨hsymbol, sectionMeta, hm' ▸ hsome, herror⟩
  cases low with
  | true =>
      obtain ⟨g, m, hq, hg⟩ := exists_quantize lowMax t axis fun _ => hmax
      obtain ⟨back, hback, hshape, hnear⟩ := dequantize_spec hg rfl fun _ _ => rfl
      refine ⟨.grid g, m, .empty, none, g, back, hq, rfl, rfl, hg.shape, ?_, hshape,
        hstored hnear rfl⟩
      have hnumel : (Piece.grid back).numel ≠ 0 := by
        rw [Piece.numel, hshape]
        exact hne
      rw [layerRestore, if_pos rfl, hback, layerReconstruct, if_pos hnumel]
  | false =>
      obtain ⟨g, m, hq, hg⟩ := exists_quantize highMax t axis fun _ => hmax
      obtain ⟨back, hback, hshape, hnear⟩ := dequantize_spec hg rfl fun _ _ => rfl
      refine ⟨.empty, none, .grid g, m, g, back, rfl, hq, rfl, hg.shape, ?_, hshape,
        hstored hnear rfl⟩
      rw [layerRestore, if_neg Bool.false_ne_true, hback]
      rfl

end LayerPart

/-! ### The whole tensor -/

namespace KVServeQuantizer

variable {q : KVServeQuantizer} {layerId numHeads : Nat} {mask : List Bool} {t : Grid ℚ}

/-- The precision of each of the heads of a layer, where the masks fit the tensor. -/
def lowRow (q : KVServeQuantizer) (layerId numHeads : Nat) : Option (List Bool) :=
  match q.splitType with
  | .head => (q.getTpHeadScoresMask numHeads).bind fun headMask => headMask[layerId]?
  | .layer => q.layerScoresMask[layerId]?.map (List.replicate numHeads)

theorem length_getTpHeadScoresMask {headMask : List (List Bool)}
    (h : q.getTpHeadScoresMask numHeads = some headMask) : ∀ row ∈ headMask,
      row.length = numHeads := by
  rw [getTpHeadScoresMask] at h
  split at h
  · next heq =>
      cases h
      exact fun row hrow => (q.rows row hrow).trans heq
  · split at h
    · cases h
    · -- the slice of the rank
      dsimp only at h
      generalize (if q.tensorParallelSize = 0 then q.tableHeads / numHeads
        else q.tensorParallelSize) = tpSize at h
      split at h
      · cases h
      · next htotal =>
          split at h
          · cases h
          · next hrank =>
              cases h
              intro row hrow
              obtain ⟨whole, hwhole, rfl⟩ := List.mem_map.mp hrow
              have hlt : q.tpRank.toNat + 1 ≤ tpSize := by omega
              have hmul := Nat.mul_le_mul_right numHeads hlt
              rw [Nat.succ_mul, not_not.mp htotal] at hmul
              rw [List.length_take, List.length_drop, q.rows whole hwhole]
              omega

theorem length_lowRow (h : q.lowRow layerId numHeads = some mask) : mask.length = numHeads := by
  rw [lowRow] at h
  split at h
  · obtain ⟨headMask, hmask, hget⟩ := Option.bind_eq_some_iff.mp h
    exact length_getTpHeadScoresMask hmask mask (List.mem_of_getElem? hget)
  · obtain ⟨low, -, rfl⟩ := Option.map_eq_some_iff.mp h
    exact List.length_replicate

/-- A precision that some head has gives a section with elements. -/
theorem exists_split (hrow : q.lowRow layerId t.shape.2.2.1 = some mask)
    (hne : Index.numel t.shape ≠ 0) :
    ∃ low high, q.split layerId t = some (low, high) ∧ ∀ bit ∈ mask,
      ∃ g, (if bit then low else high) = .grid g ∧ Index.numel g.shape ≠ 0 := by
  have hlength := length_lowRow hrow
  rw [lowRow] at hrow
  rw [split]
  cases hsplit : q.splitType with
  | head =>
      simp only [hsplit] at hrow
      obtain ⟨headMask, hmask, hget⟩ := Option.bind_eq_some_iff.mp hrow
      refine ⟨.grid (t.selectHeads (lowHeads mask)), .grid (t.selectHeads (highHeads mask)), ?_,
        fun bit hbit => ?_⟩
      · simp only [hmask, hget, bind, Option.bind, headSplit, if_pos hlength]
      · obtain ⟨head, hhead, rfl⟩ := List.getElem_of_mem hbit
        have hsection : ∀ idx : List Nat, head ∈ idx → Index.numel (t.selectHeads idx).shape ≠ 0 := by
          intro idx hmem
          have hpos := List.length_pos_of_mem hmem
          simp only [Index.numel, Grid.selectHeads, ne_eq, Nat.mul_eq_zero, not_or] at hne ⊢
          exact ⟨⟨hne.1.1, Nat.pos_iff_ne_zero.mp hpos⟩, hne.2⟩
        have hgetD := List.getD_eq_getElem mask false hhead
        cases hb : mask[head] with
        | true =>
            exact ⟨_, rfl, hsection _ (Runtime.mem_lowHeads.mpr (hgetD.trans hb))⟩
        | false =>
            exact ⟨_, rfl, hsection _ (mem_highHeads.mpr ⟨hhead, hgetD.trans hb⟩)⟩
  | layer =>
      simp only [hsplit] at hrow
      obtain ⟨low, hget, rfl⟩ := Option.map_eq_some_iff.mp hrow
      refine ⟨(layerSplit low t).1, (layerSplit low t).2, ?_, fun bit hbit => ?_⟩
      · simp only [hget, bind, Option.bind, pure]
      · obtain rfl := List.eq_of_mem_replicate hbit
        cases bit with
        | true => exact ⟨t, rfl, hne⟩
        | false => exact ⟨t, rfl, hne⟩

/-- **The keys, or the values, and what is read back of them.** -/
theorem exists_part {lowMax highMax : Nat} (hrow : q.lowRow layerId t.shape.2.2.1 = some mask)
    (axis : QuantAxis) (hne : Index.numel t.shape ≠ 0)
    (hmax : ∀ low ∈ mask, (if low then lowMax else highMax) - 1 ≠ 0) :
    ∃ low high ql lm qh hm out rl rh back, q.split layerId t = some (low, high) ∧
      Compression.quantize lowMax low axis = some (ql, lm) ∧
      Compression.quantize highMax high axis = some (qh, hm) ∧
      ql.cat qh = some (.grid out) ∧ out.shape = t.shape ∧
      q.restore layerId out = some (rl, rh) ∧
      q.reconstruct layerId t.shape.2.2.1 (Compression.dequantize rl lm)
        (Compression.dequantize rh hm) = some (.grid back) ∧ back.shape = t.shape ∧
      PartStored mask t (fun low => if low then lowMax else highMax)
        (fun low => if low then lm else hm) out.entry back.entry := by
  have hlength := length_lowRow hrow
  rw [lowRow] at hrow
  cases hsplit : q.splitType with
  | head =>
      simp only [hsplit] at hrow
      obtain ⟨headMask, hmask, hget⟩ := Option.bind_eq_some_iff.mp hrow
      have hlow : lowHeads mask ≠ [] → lowMax - 1 ≠ 0 := by
        intro hsome
        obtain ⟨head, hhead⟩ := List.exists_mem_of_ne_nil _ hsome
        have hbit := Runtime.mem_lowHeads.mp hhead
        by_cases hlt : head < mask.length
        · rw [List.getD_eq_getElem _ _ hlt] at hbit
          exact hmax true (hbit ▸ List.getElem_mem hlt)
        · rw [List.getD_eq_default _ _ (Nat.le_of_not_lt hlt)] at hbit
          cases hbit
      have hhigh : highHeads mask ≠ [] → highMax - 1 ≠ 0 := by
        intro hsome
        obtain ⟨head, hhead⟩ := List.exists_mem_of_ne_nil _ hsome
        obtain ⟨hlt, hbit⟩ := mem_highHeads.mp hhead
        rw [List.getD_eq_getElem _ _ hlt] at hbit
        exact hmax false (hbit ▸ List.getElem_mem hlt)
      obtain ⟨ql, lm, qh, hm, out, back, hql, hqh, hcat, hout, hback, hshape, hstored⟩ :=
        headSplit_stored hlength axis hlow hhigh
      refine ⟨_, _, ql, lm, qh, hm, out, (headRestore mask out).1, (headRestore mask out).2, back,
        ?_, hql, hqh, hcat, hout, ?_, ?_, hshape, hstored⟩
      · simp only [split, hsplit, hmask, hget, bind, Option.bind, headSplit, if_pos hlength]
      · simp only [restore, hsplit, hout, hmask, hget, bind, Option.bind, pure]
      · simp only [reconstruct, hsplit, hmask, hget, bind, Option.bind, hback]
  | layer =>
      simp only [hsplit] at hrow
      obtain ⟨low, hget, rfl⟩ := Option.map_eq_some_iff.mp hrow
      have hheads : t.shape.2.2.1 ≠ 0 := by
        simp only [Index.numel, ne_eq, Nat.mul_eq_zero, not_or] at hne
        exact hne.1.2
      have hbit := hmax low (List.mem_replicate.mpr ⟨hheads, rfl⟩)
      obtain ⟨ql, lm, qh, hm, out, back, hql, hqh, hcat, hout, hback, hshape, hstored⟩ :=
        layerSplit_stored low axis hne hbit
      refine ⟨_, _, ql, lm, qh, hm, out, (layerRestore low out).1, (layerRestore low out).2, back,
        ?_, hql, hqh, hcat, hout, ?_, ?_, hshape, hstored⟩
      · simp only [split, hsplit, hget, bind, Option.bind, pure]
      · simp only [restore, hsplit, hget, bind, Option.bind, pure]
      · simp only [reconstruct, hsplit, hback]

/-- The maximum value of the keys of a precision. -/
def keyMax (q : KVServeQuantizer) (low : Bool) : Nat :=
  if low then q.lowKeyMaxValue else q.highKeyMaxValue

def valueMax (q : KVServeQuantizer) (low : Bool) : Nat :=
  if low then q.lowValueMaxValue else q.highValueMaxValue

/-- What the quantizer is for: a tensor comes back in its shape, and in it every element at
its own position. -/
def RoundTrips (q : KVServeQuantizer) (layerId : Nat) (tensor : Stacked ℚ) : Prop :=
  ∃ out metaData back mask, q.quantize layerId tensor = some (out, metaData) ∧
    q.dequantize layerId out metaData = some back ∧
    back.count = tensor.count ∧ back.shape = tensor.shape ∧
    q.lowRow layerId tensor.shape.2.2.1 = some mask ∧
    (localOrder mask).Perm (List.range tensor.shape.2.2.1) ∧
    PartStored mask ⟨tensor.shape, tensor.entry 0⟩ q.keyMax
      (fun low => if low then metaData.lowKeyMeta else metaData.highKeyMeta)
      (out.entry 0) (back.entry 0) ∧
    PartStored mask ⟨tensor.shape, tensor.entry 1⟩ q.valueMax
      (fun low => if low then metaData.lowValueMeta else metaData.highValueMeta)
      (out.entry 1) (back.entry 1)

theorem validate_pos (h : q.validate = true) (low : Bool) : 0 < q.keyMax low ∧ 0 < q.valueMax low := by
  simp only [validate, Bool.and_eq_true, decide_eq_true_eq] at h
  cases low with
  | true => exact ⟨by simp only [keyMax, if_true]; omega, by simp only [valueMax, if_true]; omega⟩
  | false =>
      simp only [keyMax, valueMax, Bool.false_eq_true, if_false]
      omega

variable {tensor : Stacked ℚ}

/-- Where the masks fit and no maximum value in use is 1, all is well. -/
theorem roundTrips_of_max (hcount : tensor.count = 2) (hne : Index.numel tensor.shape ≠ 0)
    (hrow : q.lowRow layerId tensor.shape.2.2.1 = some mask)
    (hkey : ∀ low ∈ mask, q.keyMax low - 1 ≠ 0) (hvalue : ∀ low ∈ mask, q.valueMax low - 1 ≠ 0) :
    q.RoundTrips layerId tensor := by
  obtain ⟨lowKeys, highKeys, qlk, lkm, qhk, hkm, keys, rlk, rhk, backKeys, hsplitK, hqlk, hqhk,
    hcatK, hkeys, hrestoreK, hbackK, hshapeK, hstoredK⟩ :=
    @exists_part q layerId mask ⟨tensor.shape, tensor.entry 0⟩ _ _ hrow q.axisKey hne hkey
  obtain ⟨lowValues, highValues, qlv, lvm, qhv, hvm, values, rlv, rhv, backValues, hsplitV, hqlv,
    hqhv, hcatV, hvalues, hrestoreV, hbackV, hshapeV, hstoredV⟩ :=
    @exists_part q layerId mask ⟨tensor.shape, tensor.entry 1⟩ _ _ hrow q.axisValue hne hvalue
  have hpart0 : tensor.part 0 = some ⟨tensor.shape, tensor.entry 0⟩ := if_pos (by omega)
  have hpart1 : tensor.part 1 = some ⟨tensor.shape, tensor.entry 1⟩ := if_pos (by omega)
  have hstack : Stacked.stack (.grid keys) (.grid values) =
      some ⟨2, keys.shape, fun i => if i = 0 then keys.entry else values.entry⟩ :=
    if_pos (hkeys.trans hvalues.symm)
  have hstackBack : Stacked.stack (.grid backKeys) (.grid backValues) =
      some ⟨2, backKeys.shape, fun i => if i = 0 then backKeys.entry else backValues.entry⟩ :=
    if_pos (hshapeK.trans hshapeV.symm)
  have hperm := Runtime.localOrder_perm mask
  rw [length_lowRow hrow] at hperm
  have hvalues' : (⟨keys.shape, values.entry⟩ : Grid Nat) = values := by
    rw [hkeys, ← hvalues]
  let out : Stacked Nat := ⟨2, keys.shape, fun i => if i = 0 then keys.entry else values.entry⟩
  have hout0 : out.part 0 = some keys := if_pos Nat.zero_lt_two
  have hout1 : out.part 1 = some values := (if_pos Nat.one_lt_two).trans (congrArg some hvalues')
  let back : Stacked ℚ :=
    ⟨2, backKeys.shape, fun i => if i = 0 then backKeys.entry else backValues.entry⟩
  have hentries : out.entry 0 = keys.entry ∧ out.entry 1 = values.entry ∧
      back.entry 0 = backKeys.entry ∧ back.entry 1 = backValues.entry := ⟨rfl, rfl, rfl, rfl⟩
  refine ⟨out, ⟨hkm, hvm, lkm, lvm⟩, back, mask, ?_, ?_, hcount.symm, hshapeK, hrow, hperm, ?_, ?_⟩
  · simp only [quantize, hpart0, hpart1, hsplitK, hsplitV, hqlk, hqhk, hqlv, hqhv, hcatK, hcatV,
      hstack, bind, Option.bind, pure, out]
  · simp only [dequantize, hout0, hout1, hrestoreK, hrestoreV, hkeys, hvalues, hbackK, hbackV,
      hstackBack, bind, Option.bind, back]
  · rw [hentries.1, hentries.2.2.1]
    exact hstoredK
  · rw [hentries.2.1, hentries.2.2.2]
    exact hstoredV

/-- Quantizing a section with elements in one level divides by zero. -/
theorem max_of_quantize {out : Stacked Nat} {metaData : QuantMeta}
    (h : q.quantize layerId tensor = some (out, metaData)) (hne : Index.numel tensor.shape ≠ 0)
    (hrow : q.lowRow layerId tensor.shape.2.2.1 = some mask) :
    ∀ low ∈ mask, q.keyMax low - 1 ≠ 0 ∧ q.valueMax low - 1 ≠ 0 := by
  obtain ⟨keys, hkeys, h⟩ := Option.bind_eq_some_iff.mp h
  obtain ⟨values, hvalues, h⟩ := Option.bind_eq_some_iff.mp h
  obtain ⟨⟨lowKeys, highKeys⟩, hsplitK, h⟩ := Option.bind_eq_some_iff.mp h
  obtain ⟨⟨lowValues, highValues⟩, hsplitV, h⟩ := Option.bind_eq_some_iff.mp h
  obtain ⟨highKey, hhighKey, h⟩ := Option.bind_eq_some_iff.mp h
  obtain ⟨highValue, hhighValue, h⟩ := Option.bind_eq_some_iff.mp h
  obtain ⟨lowKey, hlowKey, h⟩ := Option.bind_eq_some_iff.mp h
  obtain ⟨lowValue, hlowValue, -⟩ := Option.bind_eq_some_iff.mp h
  have hpart : ∀ {i : Nat} {t : Grid ℚ}, tensor.part i = some t →
      t.shape = tensor.shape := by
    intro i t ht
    rw [Stacked.part] at ht
    split at ht
    · cases ht
      rfl
    · cases ht
  have hsection : ∀ {t : Grid ℚ} {low high : Piece ℚ}, t.shape = tensor.shape →
      q.split layerId t = some (low, high) →
      ∀ bit ∈ mask, ∃ g, (if bit then low else high) = .grid g ∧ Index.numel g.shape ≠ 0 := by
    intro t low high hshape hsplit
    obtain ⟨low', high', hsplit', hsections⟩ := @exists_split q layerId mask t (hshape ▸ hrow)
      (hshape ▸ hne)
    rw [hsplit] at hsplit'
    cases hsplit'
    exact hsections
  intro low hlow
  obtain ⟨gk, hgk, hnek⟩ := hsection (hpart hkeys) hsplitK low hlow
  obtain ⟨gv, hgv, hnev⟩ := hsection (hpart hvalues) hsplitV low hlow
  cases low with
  | true =>
      obtain rfl : lowKeys = .grid gk := hgk
      obtain rfl : lowValues = .grid gv := hgv
      exact ⟨max_ne_of_quantize hlowKey hnek, max_ne_of_quantize hlowValue hnev⟩
  | false =>
      obtain rfl : highKeys = .grid gk := hgk
      obtain rfl : highValues = .grid gv := hgv
      exact ⟨max_ne_of_quantize hhighKey hnek, max_ne_of_quantize hhighValue hnev⟩

/-- **The round trip of the quantizer.** For parameters that `validate` admits a tensor makes
the round trip exactly when the masks fit it and no head of the layer is quantized with a
maximum value of 1. -/
theorem roundTrips_iff (q : KVServeQuantizer) (layerId : Nat) (tensor : Stacked ℚ)
    (hvalid : q.validate = true) (hcount : tensor.count = 2)
    (hshape : Index.Inside (0, 0, 0, 0) tensor.shape) :
    q.RoundTrips layerId tensor ↔ ∃ mask, q.lowRow layerId tensor.shape.2.2.1 = some mask ∧
      ∀ low ∈ mask, q.keyMax low ≠ 1 ∧ q.valueMax low ≠ 1 := by
  have hne := inside_numel_pos hshape
  constructor
  · rintro ⟨out, metaData, back, mask, hquantize, -, -, -, hrow, -⟩
    refine ⟨mask, hrow, fun low hlow => ?_⟩
    obtain ⟨hkey, hvalue⟩ := max_of_quantize hquantize hne hrow low hlow
    omega
  · rintro ⟨mask, hrow, hmax⟩
    refine roundTrips_of_max hcount hne hrow (fun low hlow => ?_) fun low hlow => ?_
    · have hpos := (validate_pos hvalid low).1
      have hmax := (hmax low hlow).1
      omega
    · have hpos := (validate_pos hvalid low).2
      have hmax := (hmax low hlow).2
      omega

/-- Two heads, the first of low precision. -/
def twoHeads (lowMax : Nat) : KVServeQuantizer where
  hybridRatio := 1 / 2
  highKeyMaxValue := 4
  highValueMaxValue := 4
  lowKeyMaxValue := lowMax
  lowValueMaxValue := lowMax
  axisKey := .channel
  axisValue := .token
  splitType := .head
  tensorParallelSize := 1
  tpRank := 0
  tableHeads := 2
  headScoresMask := [[true, false]]
  layerScoresMask := [true]
  rows := by decide
  layers := rfl

/-- One token. -/
def oneToken : Stacked ℚ := ⟨2, (1, 1, 2, 1), fun part x => 10 * part + x.2.2.1⟩

theorem roundTrips_two_heads : (twoHeads 3).RoundTrips 0 oneToken ↔
    ∃ mask, (twoHeads 3).lowRow 0 2 = some mask ∧
      ∀ low ∈ mask, (twoHeads 3).keyMax low ≠ 1 ∧ (twoHeads 3).valueMax low ≠ 1 :=
  roundTrips_iff (twoHeads 3) 0 oneToken (by decide +kernel) rfl (by decide)

/-- A maximum value of 1 passes the validation, and the scale is divided by zero. -/
theorem one_level_divides_by_zero : (twoHeads 1).validate = true ∧
    (twoHeads 1).quantize 0 oneToken = none ∧ ¬ (twoHeads 1).RoundTrips 0 oneToken := by
  have hnone : (twoHeads 1).quantize 0 oneToken = none := rfl
  refine ⟨by decide +kernel, hnone, fun h => ?_⟩
  obtain ⟨out, metaData, -, -, hquantize, -⟩ := h
  rw [hnone] at hquantize
  cases hquantize

end KVServeQuantizer

end KVServe.Compression

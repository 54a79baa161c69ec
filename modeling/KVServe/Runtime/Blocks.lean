import KVServe.Runtime.Placement
import Mathlib.Data.List.GetD

/-!
# KVServe.Runtime.Blocks

Block ids and whole blocks: the kernel blocks of a window of logical blocks, the rows of
`block_indices` that hold them, and copying blocks between a cache and a buffer.
-/

namespace KVServe.Runtime

namespace Pipeline

variable {pl : Pipeline} {ids : List Nat}

/-! ### Kernel blocks -/

@[simp] theorem length_physicalIds :
    (pl.physicalIds ids).length = ids.length * pl.blocksPerLogical := by
  induction ids with
  | nil => simp [physicalIds]
  | cons b ids ih =>
      rw [physicalIds] at ih ⊢
      rw [List.flatMap_cons, List.length_append, ih, List.length_map, List.length_range,
        List.length_cons, Nat.succ_mul, Nat.add_comm]

/-- The `k`-th kernel block of the `b`-th logical block. -/
theorem physicalIds_getD {b k : Nat} (hb : b < ids.length) (hk : k < pl.blocksPerLogical) :
    (pl.physicalIds ids).getD (b * pl.blocksPerLogical + k) 0 =
      ids.getD b 0 * pl.blocksPerLogical + k := by
  induction ids generalizing b with
  | nil => exact absurd hb (Nat.not_lt_zero b)
  | cons id ids ih =>
      rw [physicalIds, List.flatMap_cons]
      cases b with
      | zero =>
          rw [Nat.zero_mul, Nat.zero_add, List.getD_append _ _ _ _ (by simpa using hk)]
          simp [List.getD_eq_getElem?_getD, hk]
      | succ b =>
          have hlen : ((List.range pl.blocksPerLogical).map
              (id * pl.blocksPerLogical + ·)).length = pl.blocksPerLogical := by simp
          rw [List.getD_append_right _ _ _ _ (by rw [hlen, Nat.succ_mul]; omega), hlen]
          have hsub : (b + 1) * pl.blocksPerLogical + k - pl.blocksPerLogical =
              b * pl.blocksPerLogical + k := by
            rw [Nat.succ_mul]
            omega
          rw [hsub]
          exact ih (Nat.lt_of_succ_lt_succ hb)

theorem nodup_physicalIds (h : ids.Nodup) : (pl.physicalIds ids).Nodup := by
  rw [physicalIds, List.nodup_flatMap]
  refine ⟨fun b _ => List.nodup_range.map fun _ _ heq => Nat.add_left_cancel heq, ?_⟩
  refine h.imp fun {b c} hne x hb hc => hne ?_
  obtain ⟨k, hk, rfl⟩ := List.mem_map.mp hb
  obtain ⟨l, hl, heq⟩ := List.mem_map.mp hc
  have hk := List.mem_range.mp hk
  have hl := List.mem_range.mp hl
  have hdiv := congrArg (· / pl.blocksPerLogical) heq
  have hpos : 0 < pl.blocksPerLogical := by omega
  simp only [Nat.mul_comm _ pl.blocksPerLogical, Nat.mul_add_div hpos, Nat.div_eq_of_lt hk,
    Nat.div_eq_of_lt hl, Nat.add_zero] at hdiv
  exact hdiv.symm

/-! ### Index rows -/

/-- The rows of `block_indices`: every group has its own, and it exists. -/
structure RowsFit (pl : Pipeline) (slot : Slot) : Prop where
  lt : ∀ group row, pl.layout.indexRowsByGroup.lookup group = some row → row < slot.indexRows
  inj : ∀ group group' row, pl.layout.indexRowsByGroup.lookup group = some row →
    pl.layout.indexRowsByGroup.lookup group' = some row → group = group'

/-- The groups before `k` have an entry, and their ids are in their rows. -/
structure Indexed (pl : Pipeline) (idsOf : Nat → List Nat) (k : Nat) (rows : Nat → Nat → Nat)
    (cache : List (Nat × Nat × Nat)) : Prop where
  fresh : ∀ group, k ≤ group → cache.lookup group = none
  done : ∀ group row, group < k → pl.layout.indexRowsByGroup.lookup group = some row →
    idsOf group ≠ [] →
      cache.lookup group = some (row, (pl.physicalIds (idsOf group)).length) ∧
      ∀ j < (pl.physicalIds (idsOf group)).length,
        rows row j = (pl.physicalIds (idsOf group)).getD j 0

theorem Indexed.indices {slot : Slot} {idsOf : Nat → List Nat} {k group row : Nat}
    {rows : Nat → Nat → Nat} {cache : List (Nat × Nat × Nat)}
    (h : Indexed pl idsOf k rows cache) (hslot : slot.blockIndices = rows) (hk : group < k)
    (hrow : pl.layout.indexRowsByGroup.lookup group = some row) (hne : idsOf group ≠ []) :
    Pipeline.indices slot cache group = some (pl.physicalIds (idsOf group)) := by
  obtain ⟨hlookup, hids⟩ := h.done group row hk hrow hne
  rw [Pipeline.indices, hlookup, Option.map_some, hslot]
  refine congrArg some (List.ext_getElem (by simp) fun j hj hj' => ?_)
  rw [List.getElem_map, List.getElem_range, hids j hj', List.getD_eq_getElem _ _ hj']

/-- One group is entered. -/
theorem groupIndex_spec {slot : Slot} {idsOf : Nat → List Nat} {k : Nat}
    {cache : List (Nat × Nat × Nat)} (h : Indexed pl idsOf k slot.blockIndices cache)
    (hfit : RowsFit pl slot)
    (hcols : ∀ row, pl.layout.indexRowsByGroup.lookup k = some row →
      (idsOf k).length * pl.blocksPerLogical ≤ slot.indexCols) :
    ∃ rows cache', pl.groupIndex (slot, cache) (idsOf k, k) =
        some ({ slot with blockIndices := rows }, cache') ∧
      Indexed pl idsOf (k + 1) rows cache' := by
  rw [groupIndex]
  cases hrow : pl.layout.indexRowsByGroup.lookup k with
  | none =>
      refine ⟨slot.blockIndices, cache, rfl, ⟨fun g hg => h.fresh g (by omega), ?_⟩⟩
      intro g row hg hlookup hne
      rcases Nat.lt_succ_iff_lt_or_eq.mp hg with hlt | rfl
      · exact h.done g row hlt hlookup hne
      · rw [hrow] at hlookup
        cases hlookup
  | some row =>
      by_cases hnil : idsOf k = []
      · refine ⟨slot.blockIndices, cache, by simp only [hnil, if_true],
          ⟨fun g hg => h.fresh g (by omega), ?_⟩⟩
        intro g r hg hlookup hne
        rcases Nat.lt_succ_iff_lt_or_eq.mp hg with hlt | rfl
        · exact h.done g r hlt hlookup hne
        · exact absurd hnil hne
      · have hroom : row < slot.indexRows ∧ (pl.physicalIds (idsOf k)).length ≤ slot.indexCols :=
          ⟨hfit.lt k row hrow, by rw [length_physicalIds]; exact hcols row hrow⟩
        simp only [if_neg hnil, indexTensor, if_pos hroom, bind, Option.bind, pure]
        refine ⟨_, _, rfl, ⟨?_, ?_⟩⟩
        · intro g hg
          have hne : g ≠ k := by omega
          rw [List.lookup_append, h.fresh g (by omega)]
          simp [hne]
        · intro g r hg hlookup hne
          rcases Nat.lt_succ_iff_lt_or_eq.mp hg with hlt | rfl
          · -- the row of another group is another row
            obtain ⟨hcache, hids⟩ := h.done g r hlt hlookup hne
            refine ⟨by rw [List.lookup_append, hcache]; rfl, fun j hj => ?_⟩
            have hother : ¬ (r = row ∧ j < (pl.physicalIds (idsOf k)).length) := by
              rintro ⟨rfl, _⟩
              exact absurd (hfit.inj g k r hlookup hrow) (Nat.ne_of_lt hlt)
            rw [if_neg hother]
            exact hids j hj
          · rw [hrow] at hlookup
            cases hlookup
            refine ⟨by rw [List.lookup_append, h.fresh g (Nat.le_refl g)]; simp, fun j hj => ?_⟩
            rw [if_pos ⟨rfl, hj⟩]

/-- **Every group with ids reads them from its row.** -/
theorem groupIndices_spec {slot : Slot} {idsByGroup : List (List Nat)} (hfit : RowsFit pl slot)
    (hcols : ∀ group row, pl.layout.indexRowsByGroup.lookup group = some row →
      (idsByGroup.getD group []).length * pl.blocksPerLogical ≤ slot.indexCols) :
    ∃ rows cache, pl.groupIndices slot idsByGroup =
        some ({ slot with blockIndices := rows }, cache) ∧
      Indexed pl (idsByGroup.getD · []) idsByGroup.length rows cache := by
  have key : ∀ (l : List (List Nat)) (k : Nat) (rows : Nat → Nat → Nat)
      (cache : List (Nat × Nat × Nat)), idsByGroup.drop k = l →
      Indexed pl (idsByGroup.getD · []) k rows cache →
      ∃ rows' cache', (l.zipIdx k).foldlM pl.groupIndex
          ({ slot with blockIndices := rows }, cache) =
          some ({ slot with blockIndices := rows' }, cache') ∧
        Indexed pl (idsByGroup.getD · []) (k + l.length) rows' cache' := by
    intro l
    induction l with
    | nil => exact fun k rows cache _ h => ⟨rows, cache, rfl, h⟩
    | cons ids l ih =>
        intro k rows cache hdrop h
        have hids : ids = idsByGroup.getD k [] := by
          rw [List.getD_eq_getElem?_getD, ← Nat.add_zero k, ← List.getElem?_drop, hdrop]
          rfl
        obtain ⟨rows₁, cache₁, hstep, h₁⟩ := @groupIndex_spec pl
          { slot with blockIndices := rows } (idsByGroup.getD · []) k cache h
          ⟨hfit.lt, hfit.inj⟩ (hcols k)
        have htail : idsByGroup.drop (k + 1) = l := by
          rw [← List.tail_drop, hdrop, List.tail_cons]
        obtain ⟨rows₂, cache₂, hrest, h₂⟩ := ih (k + 1) rows₁ cache₁ htail h₁
        refine ⟨rows₂, cache₂, ?_, ?_⟩
        · rw [List.zipIdx_cons, List.foldlM_cons, hids, hstep]
          exact hrest
        · rw [List.length_cons, Nat.add_comm l.length 1, ← Nat.add_assoc]
          exact h₂
  obtain ⟨rows, cache, hfold, h⟩ := key idsByGroup 0 slot.blockIndices [] rfl
    ⟨fun _ _ => rfl, fun _ _ hlt => absurd hlt (Nat.not_lt_zero _)⟩
  rw [Nat.zero_add] at h
  exact ⟨rows, cache, hfold, h⟩

/-! ### Scratch buffers -/

/-- Room for some kernel blocks of a layer part in both scratch buffers. -/
structure Room (pl : Pipeline) (slot : Slot) (part : LayerPartLayout) (blocks : Nat) : Prop where
  disjoint : (pl.spanA part blocks).Disjoint (pl.spanB part blocks)
  withinA : (pl.spanA part blocks).Within slot.arenaA.size
  withinB : (pl.spanB part blocks).Within slot.arenaA.size

theorem Room.layerViews {slot : Slot} {part : LayerPartLayout} {blocks : Nat}
    (h : Room pl slot part blocks) :
    pl.layerViews slot part blocks = some (pl.viewsOf part blocks) :=
  if_pos ⟨h.withinA, h.withinB⟩

/-! ### Whole blocks -/

/-- The byte belongs to one of the blocks of a layer part. -/
def InBlocks (pl : Pipeline) (part : LayerPartLayout) (indices : List Nat) (a : Nat) : Prop :=
  ∃ b ∈ indices, ((pl.cachePart part).narrow0 b 1).Covers 2 a

variable {part : LayerPartLayout} {kv : KV} {indices : List Nat}

theorem selectBlocks_eq (h : ∀ b ∈ indices, b < (pl.cachePart part).shape.1) :
    pl.selectBlocks kv part indices = some fun x =>
      (pl.cachePart part).cell (kv part.layerName) (indices.getD x.1 0, x.2) := by
  rw [selectBlocks, if_pos]
  simpa using h

/-- **Blocks copied into a cache are read back, and nothing else of it changes.** -/
theorem copyBlocks_spec (h : ∀ b ∈ indices, b < (pl.cachePart part).shape.1)
    (hnd : indices.Nodup) (hsep : (pl.cachePart part).Separated 2) (source : Index → Cell) :
    ∃ kv', pl.copyBlocks kv part indices source = some kv' ∧
      (∀ i < indices.length, ∀ x : Index, Index.Inside (0, x.2) (1, (pl.cachePart part).shape.2) →
        (pl.cachePart part).cell (kv' part.layerName) (indices.getD i 0, x.2) =
          source (i, x.2)) ∧
      ∀ name a, ¬ (name = part.layerName ∧ pl.InBlocks part indices a) →
        kv' name a = kv name a := by
  have hmem : ∀ e ∈ indices.zipIdx, e.1 ∈ indices ∧ indices.getD e.2 0 = e.1 := by
    intro e he
    exact ⟨List.mem_of_getElem? (List.mem_zipIdx_iff_getElem?.mp he), by
      rw [List.getD_eq_getElem?_getD, List.mem_zipIdx_iff_getElem?.mp he]
      rfl⟩
  have hpart : ∀ e ∈ indices.zipIdx, e.1 + 1 ≤ (pl.cachePart part).shape.1 :=
    fun e he => h e.1 (hmem e he).1
  have hfold := @View.foldl_storeCells (Nat × Nat) indices.zipIdx
    (fun e => (pl.cachePart part).narrow0 e.1 1) (fun e x => source (e.2, x.2)) ?_ ?_
    (kv part.layerName)
  · obtain ⟨hat, hframe⟩ := hfold
    rw [copyBlocks, if_pos (by simpa using h)]
    refine ⟨_, rfl, ?_, ?_⟩
    · intro i hi x hx
      rw [Function.update_self]
      have he : (indices.getD i 0, i) ∈ indices.zipIdx := by
        rw [List.mem_zipIdx_iff_getElem?, List.getElem?_eq_getElem hi,
          List.getD_eq_getElem _ _ hi]
      have hcell := hat _ he (0, x.2) hx
      rw [View.cell, View.narrow0_addr] at hcell
      exact hcell
    · intro name a hnot
      by_cases hname : name = part.layerName
      · subst hname
        rw [Function.update_self]
        exact hframe a fun e he hcov => hnot ⟨rfl, e.1, (hmem e he).1, hcov⟩
      · rw [Function.update_of_ne hname]
  · exact fun e he => (View.narrow0Part (hpart e he)).separated hsep
  · have hfst : (indices.zipIdx.map Prod.fst).Nodup := by
      rw [List.zipIdx_map_fst]
      exact hnd
    refine (List.pairwise_map.mp hfst).imp_of_mem fun {e e'} he he' hne a => ?_
    refine (View.narrow0Part (hpart e he)).disjoint (View.narrow0Part (hpart e' he')) hsep
      fun x y hx hy heq => hne ?_
    have hfirst : e.1 + x.1 = e'.1 + y.1 := congrArg Prod.fst heq
    have hx : x.1 < 1 := hx.1
    have hy : y.1 < 1 := hy.1
    omega

end Pipeline

end KVServe.Runtime

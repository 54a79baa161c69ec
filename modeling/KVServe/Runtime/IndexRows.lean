import KVServe.Runtime.Blocks
import KVServe.Runtime.Memory

/-!
# KVServe.Runtime.IndexRows

The rows of `block_indices` once the caches are bound. The runtime numbers the groups that
have layers; the copy of the Mooncake connector uses the number of a group in the whole
model as its row, in buffers with a row for each layer.
-/

namespace KVServe.Runtime

/-! ### Binding the groups -/

/-- `bind_kv_caches`: the layers are put into the cache groups of the model. -/
def CompressionLayout.bindGroups (layout : CompressionLayout) (groupIndices : String → Nat) :
    CompressionLayout :=
  let layerParts := layout.layerParts.map fun part =>
    { part with groupIndex := groupIndices part.layerName }
  let groups := layerParts.map (·.groupIndex)
  { layout with layerParts, faGroupIndices := groups.dedup, indexRowsByGroup := indexRows groups }

/-- `block_indices` and `host_indices` of a slot, as `__init__` allocates them. -/
def Slot.withIndices (s : Slot) (rows cols : Nat) : Slot :=
  { s with indexRows := rows, indexCols := cols }

namespace Mooncake

/-- `num_layers`. -/
def numLayers (layout : CompressionLayout) : Nat :=
  (layout.layerParts.map (·.layerName)).dedup.length

/-- One pass of the comprehension in `_group_indices`. -/
def groupIndex (pl : Pipeline) (state : Slot × List (Nat × Nat × Nat)) (entry : List Nat × Nat) :
    Option (Slot × List (Nat × Nat × Nat)) := do
  let slot ← pl.indexTensor state.1 entry.1 entry.2
  return (slot, state.2 ++ [(entry.2, entry.2, (pl.physicalIds entry.1).length)])

/-- `_group_indices`. -/
def groupIndices (pl : Pipeline) (slot : Slot) (logicalIdsByGroup : List (List Nat)) :
    Option (Slot × List (Nat × Nat × Nat)) :=
  logicalIdsByGroup.zipIdx.foldlM (groupIndex pl) (slot, [])

end Mooncake

/-- What `_group_indices` has to return: for each FullAttention group the kernel blocks of its
window (a group without blocks may have no entry), read from a row of the buffers that no
other group has. -/
structure WindowRows (pl : Pipeline) (idsByGroup : List (List Nat)) (slot : Slot)
    (cache : List (Nat × Nat × Nat)) : Prop where
  ids : ∀ group ∈ pl.layout.faGroupIndices, group < idsByGroup.length →
    Pipeline.indices slot cache group = some (pl.physicalIds (idsByGroup.getD group [])) ∨
      (idsByGroup.getD group [] = [] ∧ Pipeline.indices slot cache group = none)
  lt : ∀ group row count, cache.lookup group = some (row, count) →
    row < slot.indexRows ∧ count ≤ slot.indexCols
  own : ∀ group group' row count count', cache.lookup group = some (row, count) →
    cache.lookup group' = some (row, count') → group = group'

/-! ### Dense rows -/

section IndexRows

variable {groups : List Nat} {group row : Nat}

theorem getElem?_of_lookup_indexRows (h : (indexRows groups).lookup group = some row) :
    (groups.dedup.insertionSort (· ≤ ·))[row]? = some group := by
  obtain ⟨before, after, heq, -⟩ := List.lookup_eq_some_iff.mp h
  have hmem : (group, row) ∈ (groups.dedup.insertionSort (· ≤ ·)).zipIdx := by
    rw [← indexRows, heq]
    exact List.mem_append_right _ List.mem_cons_self
  exact List.mem_zipIdx_iff_getElem?.mp hmem

theorem lookup_indexRows_lt (h : (indexRows groups).lookup group = some row) :
    row < groups.dedup.length := by
  have hlt := (List.getElem?_eq_some_iff.mp (getElem?_of_lookup_indexRows h)).1
  rwa [List.length_insertionSort] at hlt

/-- Two groups have two rows. -/
theorem lookup_indexRows_inj {group' : Nat} (h : (indexRows groups).lookup group = some row)
    (h' : (indexRows groups).lookup group' = some row) : group = group' :=
  Option.some.inj
    ((getElem?_of_lookup_indexRows h).symm.trans (getElem?_of_lookup_indexRows h'))

/-- Every group has a row. -/
theorem exists_lookup_indexRows (h : group ∈ groups) :
    ∃ row, (indexRows groups).lookup group = some row := by
  rw [← Option.isSome_iff_exists, List.lookup_isSome_iff]
  have hmem : group ∈ groups.dedup.insertionSort (· ≤ ·) :=
    (List.perm_insertionSort _ _).mem_iff.mpr (List.mem_dedup.mpr h)
  obtain ⟨i, hi⟩ := List.mem_iff_getElem?.mp hmem
  exact ⟨(group, i), List.mem_zipIdx_iff_getElem?.mpr hi, beq_self_eq_true group⟩

end IndexRows

/-- There are no more groups with layers than layers. -/
theorem length_dedup_map_le (names : List String) (f : String → Nat) :
    (names.map f).dedup.length ≤ names.dedup.length := by
  have hsub : (names.map f).dedup ⊆ names.dedup.map f := by
    intro group hgroup
    obtain ⟨name, hname, rfl⟩ := List.mem_map.mp (List.mem_dedup.mp hgroup)
    exact List.mem_map_of_mem (List.mem_dedup.mpr hname)
  have hle := (List.nodup_dedup _).length_le_of_subset hsub
  rwa [List.length_map] at hle

section Bound

variable {layout : CompressionLayout} {groupIndices : String → Nat}

theorem groups_bindGroups : (layout.bindGroups groupIndices).layerParts.map (·.groupIndex) =
    (layout.layerParts.map (·.layerName)).map groupIndices := by
  rw [CompressionLayout.bindGroups, List.map_map, List.map_map]
  rfl

theorem indexRowsByGroup_bindGroups : (layout.bindGroups groupIndices).indexRowsByGroup =
    indexRows ((layout.layerParts.map (·.layerName)).map groupIndices) := by
  rw [← groups_bindGroups]
  rfl

theorem faGroupIndices_bindGroups : (layout.bindGroups groupIndices).faGroupIndices =
    ((layout.layerParts.map (·.layerName)).map groupIndices).dedup := by
  rw [← groups_bindGroups]
  rfl

/-- **After binding every group with layers has a row of its own, and the buffers that were
allocated before have it.** -/
theorem rowsFit_bindGroups {pl : Pipeline} {slot : Slot}
    (hlayout : pl.layout = layout.bindGroups groupIndices)
    (hrows : slot.indexRows = numIndexRows layout) : pl.RowsFit slot := by
  constructor
  · intro group row h
    rw [hlayout, indexRowsByGroup_bindGroups] at h
    have hlt := lookup_indexRows_lt h
    have hle := length_dedup_map_le (layout.layerParts.map (·.layerName)) groupIndices
    rw [hrows, numIndexRows]
    omega
  · intro group group' row h h'
    rw [hlayout, indexRowsByGroup_bindGroups] at h h'
    exact lookup_indexRows_inj h h'

end Bound

/-! ### The entries -/

namespace Pipeline

variable {pl : Pipeline}

theorem indexTensor_some {slot slot' : Slot} {ids : List Nat} {row : Nat}
    (h : pl.indexTensor slot ids row = some slot') :
    row < slot.indexRows ∧ (pl.physicalIds ids).length ≤ slot.indexCols ∧
      slot'.indexRows = slot.indexRows ∧ slot'.indexCols = slot.indexCols := by
  rw [indexTensor] at h
  split at h
  · next hroom =>
      cases h
      exact ⟨hroom.1, hroom.2, rfl, rfl⟩
  · cases h

/-- The entries name rows of `index_rows_by_group` that the buffers have, for groups with ids. -/
structure Entries (pl : Pipeline) (idsByGroup : List (List Nat)) (slot slot' : Slot)
    (cache : List (Nat × Nat × Nat)) : Prop where
  rows : slot'.indexRows = slot.indexRows
  cols : slot'.indexCols = slot.indexCols
  row : ∀ group row count, cache.lookup group = some (row, count) →
    pl.layout.indexRowsByGroup.lookup group = some row ∧ row < slot.indexRows ∧
      count ≤ slot.indexCols ∧ ∃ ids, idsByGroup[group]? = some ids ∧ ids ≠ []

theorem Entries.groupIndex {slot slot₁ slot₂ : Slot} {init : List (List Nat)} {last : List Nat}
    {cache₁ cache₂ : List (Nat × Nat × Nat)} (h : Entries pl init slot slot₁ cache₁)
    (hstep : pl.groupIndex (slot₁, cache₁) (last, init.length) = some (slot₂, cache₂)) :
    Entries pl (init ++ [last]) slot slot₂ cache₂ := by
  have hold : ∀ group row count, cache₁.lookup group = some (row, count) →
      pl.layout.indexRowsByGroup.lookup group = some row ∧ row < slot.indexRows ∧
        count ≤ slot.indexCols ∧ ∃ ids, (init ++ [last])[group]? = some ids ∧ ids ≠ [] := by
    intro group row count hlookup
    obtain ⟨hrow, hlt, hcount, ids, hget, hne⟩ := h.row group row count hlookup
    have hlen := (List.getElem?_eq_some_iff.mp hget).1
    exact ⟨hrow, hlt, hcount, ids, by rw [List.getElem?_append_left hlen, hget], hne⟩
  rw [Pipeline.groupIndex] at hstep
  cases hrow : pl.layout.indexRowsByGroup.lookup init.length with
  | none =>
      rw [hrow] at hstep
      cases hstep
      exact ⟨h.rows, h.cols, hold⟩
  | some row =>
      simp only [hrow] at hstep
      split at hstep
      · cases hstep
        exact ⟨h.rows, h.cols, hold⟩
      · next hne =>
          obtain ⟨slot₃, htensor, hret⟩ := Option.bind_eq_some_iff.mp hstep
          cases hret
          obtain ⟨hlt, hcount, hrows, hcols⟩ := indexTensor_some htensor
          refine ⟨hrows.trans h.rows, hcols.trans h.cols, fun group r count hlookup => ?_⟩
          rw [List.lookup_append] at hlookup
          rcases Option.or_eq_some_iff.mp hlookup with hbefore | ⟨-, hnew⟩
          · exact hold group r count hbefore
          · by_cases heq : group = init.length
            · subst heq
              rw [List.lookup_cons_self] at hnew
              cases hnew
              exact ⟨hrow, h.rows ▸ hlt, h.cols ▸ hcount, last, List.getElem?_concat_length, hne⟩
            · rw [List.lookup_cons, beq_false_of_ne heq] at hnew
              cases hnew

theorem entries_groupIndices {slot slot' : Slot} {idsByGroup : List (List Nat)}
    {cache : List (Nat × Nat × Nat)} (h : pl.groupIndices slot idsByGroup = some (slot', cache)) :
    Entries pl idsByGroup slot slot' cache := by
  induction idsByGroup using List.reverseRecOn generalizing slot' cache with
  | nil =>
      cases h
      exact ⟨rfl, rfl, fun _ _ _ hlookup => nomatch hlookup⟩
  | append_singleton init last ih =>
      rw [groupIndices, List.zipIdx_append, List.foldlM_append] at h
      obtain ⟨⟨slot₁, cache₁⟩, hinit, hlast⟩ := Option.bind_eq_some_iff.mp h
      rw [List.zipIdx_singleton, List.foldlM_cons] at hlast
      obtain ⟨⟨slot₂, cache₂⟩, hstep, hret⟩ := Option.bind_eq_some_iff.mp hlast
      cases hret
      rw [Nat.zero_add] at hstep
      exact (ih hinit).groupIndex hstep

end Pipeline

/-- **The runtime finds a row for every FullAttention group**, however many groups there are. -/
theorem windowRows_groupIndices {layout : CompressionLayout} {groupIndices : String → Nat}
    {pl : Pipeline} {slot : Slot} {idsByGroup : List (List Nat)}
    (hlayout : pl.layout = layout.bindGroups groupIndices)
    (hrows : slot.indexRows = numIndexRows layout)
    (hcols : ∀ ids ∈ idsByGroup, ids.length * pl.blocksPerLogical ≤ slot.indexCols) :
    ∃ slot' cache, pl.groupIndices slot idsByGroup = some (slot', cache) ∧
      WindowRows pl idsByGroup slot' cache := by
  have hfit := rowsFit_bindGroups hlayout hrows
  obtain ⟨rows, cache, hrun, hindexed⟩ := @Pipeline.groupIndices_spec pl slot idsByGroup hfit
    fun group _ _ => by
      by_cases hlt : group < idsByGroup.length
      · rw [List.getD_eq_getElem _ _ hlt]
        exact hcols _ (List.getElem_mem hlt)
      · rw [List.getD_eq_default _ _ (Nat.le_of_not_lt hlt), List.length_nil, Nat.zero_mul]
        exact Nat.zero_le _
  have hentries := Pipeline.entries_groupIndices hrun
  refine ⟨_, cache, hrun, ⟨fun group hgroup hlt => ?_, fun group row count h => ?_, ?_⟩⟩
  · rw [hlayout, faGroupIndices_bindGroups, List.mem_dedup] at hgroup
    obtain ⟨row, hrow⟩ := exists_lookup_indexRows hgroup
    rw [← indexRowsByGroup_bindGroups, ← hlayout] at hrow
    by_cases hnil : idsByGroup.getD group [] = []
    · cases hlookup : cache.lookup group with
      | none =>
          exact .inr ⟨hnil, by rw [Pipeline.indices, hlookup, Option.map_none]⟩
      | some entry =>
          obtain ⟨ids, hget, hne⟩ := (hentries.row group entry.1 entry.2 hlookup).2.2.2
          rw [List.getD_eq_getElem?_getD, hget] at hnil
          exact absurd hnil hne
    · exact .inl (hindexed.indices rfl hlt hrow hnil)
  · obtain ⟨-, hlt, hcount, -⟩ := hentries.row group row count h
    exact ⟨hlt, hcount⟩
  · exact fun group group' row count count' h h' => hfit.inj group group' row
      (hentries.row group row count h).1 (hentries.row group' row count' h').1

/-! ### The rows of the Mooncake connector -/

namespace Mooncake

variable {pl : Pipeline} {slot : Slot}

/-- The groups before `n` have the rows of their own numbers. -/
structure Numbered (pl : Pipeline) (idsByGroup : List (List Nat)) (rows : Nat → Nat → Nat)
    (cache : List (Nat × Nat × Nat)) : Prop where
  fresh : ∀ group, idsByGroup.length ≤ group → cache.lookup group = none
  done : ∀ group < idsByGroup.length,
    cache.lookup group = some (group, (pl.physicalIds (idsByGroup.getD group [])).length) ∧
      ∀ j < (pl.physicalIds (idsByGroup.getD group [])).length,
        rows group j = (pl.physicalIds (idsByGroup.getD group [])).getD j 0

/-- As long as there are rows the next group takes the next one. -/
theorem Numbered.groupIndex {init : List (List Nat)} {last : List Nat} {rows : Nat → Nat → Nat}
    {cache : List (Nat × Nat × Nat)} (h : Numbered pl init rows cache)
    (hroom : init.length < slot.indexRows) (hcols : (pl.physicalIds last).length ≤ slot.indexCols) :
    ∃ rows' cache', Mooncake.groupIndex pl ({ slot with blockIndices := rows }, cache)
        (last, init.length) = some ({ slot with blockIndices := rows' }, cache') ∧
      Numbered pl (init ++ [last]) rows' cache' := by
  simp only [Mooncake.groupIndex, Pipeline.indexTensor, if_pos (And.intro hroom hcols), bind,
    Option.bind, pure]
  refine ⟨_, _, rfl, ⟨fun group hle => ?_, fun group hlt => ?_⟩⟩
  · rw [List.length_append, List.length_singleton] at hle
    have hne : group ≠ init.length := by omega
    rw [List.lookup_append, h.fresh group (by omega), Option.none_or, List.lookup_cons,
      beq_false_of_ne hne]
    rfl
  · rw [List.length_append, List.length_singleton] at hlt
    rcases Nat.lt_succ_iff_lt_or_eq.mp hlt with hold | rfl
    · -- the rows before are not written
      obtain ⟨hlookup, hids⟩ := h.done group hold
      rw [List.getD_append _ _ _ _ hold]
      refine ⟨by rw [List.lookup_append, hlookup]; rfl, fun j hj => ?_⟩
      rw [if_neg fun hboth => absurd hboth.1 (Nat.ne_of_lt hold)]
      exact hids j hj
    · rw [List.getD_append_right _ _ _ _ (Nat.le_refl _), Nat.sub_self, List.getD_cons_zero]
      refine ⟨?_, fun j hj => by rw [if_pos ⟨rfl, hj⟩]⟩
      rw [List.lookup_append, h.fresh init.length (Nat.le_refl _), Option.none_or,
        List.lookup_cons_self]

/-- Each group takes a row, and raises where there is none. -/
theorem groupIndices_cases {idsByGroup : List (List Nat)}
    (hcols : ∀ ids ∈ idsByGroup, (pl.physicalIds ids).length ≤ slot.indexCols) :
    (idsByGroup.length ≤ slot.indexRows ∧ ∃ rows cache,
      groupIndices pl slot idsByGroup = some ({ slot with blockIndices := rows }, cache) ∧
        Numbered pl idsByGroup rows cache) ∨
      (slot.indexRows < idsByGroup.length ∧ groupIndices pl slot idsByGroup = none) := by
  induction idsByGroup using List.reverseRecOn with
  | nil =>
      refine .inl ⟨Nat.zero_le _, slot.blockIndices, [], rfl, fun _ _ => rfl, fun _ hlt => ?_⟩
      exact absurd hlt (Nat.not_lt_zero _)
  | append_singleton init last ih =>
      have hinit := ih fun ids hids => hcols ids (List.mem_append_left _ hids)
      have hlast := hcols last (List.mem_append_right _ List.mem_cons_self)
      have hsplit : groupIndices pl slot (init ++ [last]) =
          (groupIndices pl slot init).bind fun state => groupIndex pl state (last, init.length) := by
        rw [groupIndices, List.zipIdx_append, List.foldlM_append, List.zipIdx_singleton,
          Nat.zero_add]
        refine congrArg _ (funext fun state => ?_)
        rw [List.foldlM_cons]
        exact Option.bind_fun_some _
      rw [List.length_append, List.length_singleton, hsplit]
      rcases hinit with ⟨hle, rows, cache, hrun, hnumbered⟩ | ⟨hlt, hrun⟩
      · rw [hrun, Option.bind_some]
        by_cases hroom : init.length < slot.indexRows
        · obtain ⟨rows', cache', hstep, hnext⟩ := hnumbered.groupIndex hroom hlast
          exact .inl ⟨hroom, rows', cache', hstep, hnext⟩
        · refine .inr ⟨by omega, ?_⟩
          simp only [groupIndex, Pipeline.indexTensor, bind]
          rw [if_neg fun hboth => hroom hboth.1]
          rfl
      · refine .inr ⟨by omega, ?_⟩
        rw [hrun]
        rfl

/-- The rows of the numbered groups are right. -/
theorem Numbered.windowRows {idsByGroup : List (List Nat)} {rows : Nat → Nat → Nat}
    {cache : List (Nat × Nat × Nat)} (h : Numbered pl idsByGroup rows cache)
    (hrows : idsByGroup.length ≤ slot.indexRows)
    (hcols : ∀ ids ∈ idsByGroup, (pl.physicalIds ids).length ≤ slot.indexCols) :
    WindowRows pl idsByGroup { slot with blockIndices := rows } cache := by
  have hentry : ∀ group row count, cache.lookup group = some (row, count) →
      group < idsByGroup.length ∧ row = group ∧
        count = (pl.physicalIds (idsByGroup.getD group [])).length := by
    intro group row count hlookup
    by_cases hlt : group < idsByGroup.length
    · rw [(h.done group hlt).1] at hlookup
      cases hlookup
      exact ⟨hlt, rfl, rfl⟩
    · rw [h.fresh group (Nat.le_of_not_lt hlt)] at hlookup
      cases hlookup
  refine ⟨fun group _ hlt => .inl ?_, fun group row count hlookup => ?_, ?_⟩
  · obtain ⟨hlookup, hids⟩ := h.done group hlt
    rw [Pipeline.indices, hlookup, Option.map_some]
    refine congrArg some (List.ext_getElem (by simp) fun j hj hj' => ?_)
    rw [List.getElem_map, List.getElem_range]
    exact (hids j hj').trans (List.getD_eq_getElem _ _ hj')
  · obtain ⟨hlt, rfl, rfl⟩ := hentry group row count hlookup
    refine ⟨Nat.lt_of_lt_of_le hlt hrows, ?_⟩
    rw [List.getD_eq_getElem _ _ hlt]
    exact hcols _ (List.getElem_mem hlt)
  · intro group group' row count count' hlookup hlookup'
    obtain ⟨-, rfl, -⟩ := hentry group row count hlookup
    exact (hentry group' row count' hlookup').2.1

end Mooncake

/-! ### Both copies -/

/-- **Both copies of `_group_indices` give every FullAttention group its window in a row of its
own exactly when the model has no more cache groups than FullAttention layers**; the runtime
does so in any case. -/
theorem group_rows_iff (layout : CompressionLayout) (groupIndices : String → Nat) (pl : Pipeline)
    (slot : Slot) (logicalBlocksPerChunk : Nat) (idsByGroup : List (List Nat))
    (hlayout : pl.layout = layout.bindGroups groupIndices)
    (hwindow : ∀ ids ∈ idsByGroup, ids.length ≤ logicalBlocksPerChunk) :
    ((∃ slot' cache, pl.groupIndices (slot.withIndices (numIndexRows layout)
          (logicalBlocksPerChunk * pl.blocksPerLogical)) idsByGroup = some (slot', cache) ∧
        WindowRows pl idsByGroup slot' cache) ∧
      ∃ slot' cache, Mooncake.groupIndices pl (slot.withIndices (Mooncake.numLayers layout)
          (logicalBlocksPerChunk * pl.blocksPerLogical)) idsByGroup = some (slot', cache) ∧
        WindowRows pl idsByGroup slot' cache) ↔
      idsByGroup.length ≤ Mooncake.numLayers layout := by
  have hcols : ∀ ids ∈ idsByGroup,
      ids.length * pl.blocksPerLogical ≤ logicalBlocksPerChunk * pl.blocksPerLogical :=
    fun ids hids => Nat.mul_le_mul_right _ (hwindow ids hids)
  have hphysical : ∀ ids ∈ idsByGroup,
      (pl.physicalIds ids).length ≤ logicalBlocksPerChunk * pl.blocksPerLogical := by
    intro ids hids
    rw [Pipeline.length_physicalIds]
    exact hcols ids hids
  have hcases := @Mooncake.groupIndices_cases pl (slot.withIndices (Mooncake.numLayers layout)
    (logicalBlocksPerChunk * pl.blocksPerLogical)) idsByGroup hphysical
  constructor
  · rintro ⟨-, slot', cache, hrun, -⟩
    rcases hcases with ⟨hle, -⟩ | ⟨-, hnone⟩
    · exact hle
    · rw [hnone] at hrun
      cases hrun
  · intro hle
    refine ⟨windowRows_groupIndices hlayout rfl hcols, ?_⟩
    rcases hcases with ⟨-, rows, cache, hrun, hnumbered⟩ | ⟨hlt, -⟩
    · exact ⟨_, cache, hrun, hnumbered.windowRows hle hphysical⟩
    · exact absurd hle (Nat.not_le.mpr hlt)

/-- The keys of one FullAttention layer. -/
def oneLayer : CompressionLayout where
  layerParts := [⟨"attn", 0, .key, 0, 16, 1, 1, .bfloat16, 0, 0, 0, []⟩]
  rawBytesByPart _ := 0
  u8BytesByPart _ := 0
  packedBytesByPart _ := 0
  auxBytesByPart _ := 0
  arenaBytes := 0
  scratchStride := 0
  u8Base := 0
  auxArenaBytes := 0
  faGroupIndices := [0]
  indexRowsByGroup := [(0, 0)]
  aggregate := false

/-- The keys of two such layers. -/
def twoLayers : CompressionLayout :=
  { oneLayer with
    layerParts := ["attn.0", "attn.1"].map fun name =>
      ⟨name, 0, .key, 0, 16, 1, 1, .bfloat16, 0, 0, 0, []⟩ }

/-- A pipeline whose layers are in the second of the model's groups. -/
def hybrid (layout : CompressionLayout) : Pipeline where
  ar := .words
  layout := layout.bindGroups fun _ => 1
  blocksPerLogical := 2
  stages := []
  codec := ⟨id, fun bytes _ => bytes⟩
  signs _ _ _ _ := 0
  headOrders _ := [0]
  caches _ := ⟨⟨0, (0, 0, 0, 0), (0, 0, 0, 0)⟩, fun _ _ h => absurd h.1 (Nat.not_lt_zero _)⟩

/-- A slot before its index buffers are allocated. -/
def emptySlot : Slot :=
  ⟨⟨0, fun _ => 0⟩, ⟨0, fun _ => 0⟩, ⟨0, fun _ => 0⟩, ⟨0, fun _ => 0⟩, 0, 0, fun _ _ => 0⟩

/-- Two layers behind a state group: each copy has a row for both groups. -/
theorem group_rows_hybrid :
    ((∃ slot' cache, (hybrid twoLayers).groupIndices (emptySlot.withIndices
          (numIndexRows twoLayers) (2 * (hybrid twoLayers).blocksPerLogical)) [[], [3, 1]] =
            some (slot', cache) ∧
        WindowRows (hybrid twoLayers) [[], [3, 1]] slot' cache) ∧
      ∃ slot' cache, Mooncake.groupIndices (hybrid twoLayers) (emptySlot.withIndices
          (Mooncake.numLayers twoLayers) (2 * (hybrid twoLayers).blocksPerLogical)) [[], [3, 1]] =
            some (slot', cache) ∧
        WindowRows (hybrid twoLayers) [[], [3, 1]] slot' cache) ∧
      (Mooncake.groupIndices (hybrid twoLayers) (emptySlot.withIndices
          (Mooncake.numLayers twoLayers) 4) [[], [3, 1]]).map
        (fun result => Pipeline.indices result.1 result.2 1) = some (some [6, 7, 2, 3]) := by
  refine ⟨(group_rows_iff twoLayers (fun _ => 1) (hybrid twoLayers) emptySlot 2 [[], [3, 1]] rfl
    (by decide)).mpr (by decide), rfl⟩

/-- A model with a state group before the group of its attention layer. -/
theorem second_group_has_no_row :
    Mooncake.groupIndices (hybrid oneLayer) (emptySlot.withIndices (Mooncake.numLayers oneLayer) 4)
        [[], [3]] = none ∧
      ((hybrid oneLayer).groupIndices (emptySlot.withIndices (numIndexRows oneLayer) 4)
        [[], [3]]).map (fun result => (result.2, Pipeline.indices result.1 result.2 1)) =
          some ([(1, 0, 2)], some [6, 7]) :=
  ⟨rfl, rfl⟩

end KVServe.Runtime

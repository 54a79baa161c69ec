import KVServe.Runtime.ExactLayout

/-!
# KVServe.Runtime.CacheColumns

The keys and the values of a layer are columns of one cache tensor. **They do not meet**: a layer
part is separated in itself, and no byte of it belongs to the other part.
-/

namespace KVServe.Runtime

variable {cfg : CompressionConfig} {low : Nat → Option Nat} {layers : Nat}
  {groups : String → Option Nat} {specs : Specs} {layout : CompressionLayout} {B : Nat}
  {keys values : Offsets} {kv : KVPart}

/-! ### Names of layers -/

/-- A layer has one part of each kind. -/
theorem Construction.nodup_layerNames
    (h : Construction specs cfg low layers groups layout B keys values) (kv : KVPart) :
    ((layout.parts kv).map (·.layerName)).Nodup := by
  have hnames : (layout.parts kv).map (·.layerName) = specs.sorted.map Prod.fst := by
    have hall := (h.built kv).forall₂
    generalize specs.sorted = items, layout.parts kv = parts at hall
    induction hall with
    | nil => rfl
    | cons hof _ ih => rw [List.map_cons, List.map_cons, ih, hof.layerName]
  rw [hnames]
  exact ((List.perm_insertionSort _ _).map _).nodup_iff.mpr specs.nodup

/-- The part of a layer is found by the name of the layer. -/
theorem find?_layerName {parts : List LayerPartLayout} (hnd : (parts.map (·.layerName)).Nodup)
    {part : LayerPartLayout} (hp : part ∈ parts) :
    parts.find? (·.layerName = part.layerName) = some part := by
  induction parts with
  | nil => exact absurd hp List.not_mem_nil
  | cons q parts ih =>
      rw [List.map_cons, List.nodup_cons] at hnd
      rcases List.mem_cons.mp hp with rfl | hp
      · exact List.find?_cons_of_pos (decide_eq_true rfl)
      · have hne : q.layerName ≠ part.layerName := fun heq =>
          hnd.1 (heq ▸ List.mem_map_of_mem hp)
        rw [List.find?_cons_of_neg (by simpa using hne)]
        exact ih hnd.2 hp

namespace Pipeline

variable {pl : Pipeline} {part other : LayerPartLayout}

theorem parts_eq (hparts : pl.layout.layerParts = layout.layerParts) (kv : KVPart) :
    pl.layout.parts kv = layout.parts kv := by
  rw [CompressionLayout.parts, hparts]
  rfl

section Columns

variable (h : Construction specs cfg low layers groups layout B keys values)
  (hparts : pl.layout.layerParts = layout.layerParts)

include h hparts

theorem keySize_eq (hp : part ∈ pl.layout.parts .key) :
    pl.keySize part.layerName = part.headSize := by
  rw [parts_eq hparts] at hp
  rw [keySize, parts_eq hparts, find?_layerName (h.nodup_layerNames .key) hp]
  rfl

theorem valueSize_eq (hp : part ∈ pl.layout.parts .value) :
    pl.valueSize part.layerName = part.headSize := by
  rw [parts_eq hparts] at hp
  rw [valueSize, parts_eq hparts, find?_layerName (h.nodup_layerNames .value) hp]
  rfl

/-- The keys of the layer of a layer part. -/
theorem exists_keys (hp : part ∈ pl.layout.layerParts) :
    ∃ k ∈ pl.layout.parts .key, k.layerName = part.layerName ∧ k.numHeads = part.numHeads ∧
      k.blockSize = part.blockSize ∧ k.groupIndex = part.groupIndex := by
  rw [hparts] at hp
  have h₀ : Construction specs cfg low layers groups ({ pl with layout } : Pipeline).layout B keys
    values := h
  rw [parts_eq hparts]
  exact h₀.exists_key hp

/-- The first column of a layer part. -/
def columnStart (pl : Pipeline) (part : LayerPartLayout) : Nat :=
  match part.kvPart with
  | .key => 0
  | .value => pl.keySize part.layerName

variable (hbound : pl.Bound)

include hbound

/-- What the cache of a layer looks like to a layer part. -/
theorem cachePart_columns (hp : part ∈ pl.layout.layerParts) :
    (pl.cachePart part).shape.2 = (part.numHeads, pl.kernelTokens part, part.headSize) ∧
      pl.columnStart part + part.headSize ≤ (pl.caches part.layerName).view.shape.2.2.2 := by
  obtain ⟨k, hk, hname, hheads, hsize, -⟩ := exists_keys h hparts hp
  have hshape := (hbound k hk).1
  have hkey := keySize_eq h hparts hk
  rw [hname] at hshape hkey
  constructor
  · show ((pl.caches part.layerName).view.shape.2.1, (pl.caches part.layerName).view.shape.2.2.1,
      part.headSize) = _
    rw [hshape, hheads, hsize]
    rfl
  · rw [hshape, columnStart]
    cases hkv : part.kvPart with
    | key =>
        have hself : part ∈ pl.layout.parts .key := hkv ▸ Construction.mem_parts hp
        have hself := keySize_eq h hparts hself
        show 0 + part.headSize ≤ k.headSize + _
        omega
    | value =>
        have hself : part ∈ pl.layout.parts .value := hkv ▸ Construction.mem_parts hp
        have hself := valueSize_eq h hparts hself
        show pl.keySize part.layerName + part.headSize ≤ k.headSize + _
        omega

/-- A layer part is a part of its cache. -/
def columns (hp : part ∈ pl.layout.layerParts) :
    View.Part (pl.cachePart part) (pl.caches part.layerName).view :=
  View.narrow3Part (cachePart_columns h hparts hbound hp).2

/-- **The elements of a layer part do not overlap.** -/
theorem cachePart_separated (hp : part ∈ pl.layout.layerParts) :
    (pl.cachePart part).Separated 2 :=
  (columns h hparts hbound hp).separated (pl.caches part.layerName).separated

/-- The values stand after the keys. -/
theorem keys_apart (hp : part ∈ pl.layout.parts .key) (ho : other ∈ pl.layout.parts .value)
    (hname : part.layerName = other.layerName) (a : Nat) :
    ¬ ((pl.cachePart part).Covers 2 a ∧ (pl.cachePart other).Covers 2 a) := by
  obtain ⟨hmem, hkey⟩ := Construction.of_mem_parts hp
  obtain ⟨hmem', hvalue⟩ := Construction.of_mem_parts ho
  have hle := (cachePart_columns h hparts hbound hmem).2
  have hle' := (cachePart_columns h hparts hbound hmem').2
  have hstart : pl.columnStart part = 0 := by rw [columnStart, hkey]
  have hstart' : pl.columnStart other = part.headSize := by
    rw [columnStart, hvalue, ← keySize_eq h hparts hp, hname]
  have hview : pl.cachePart other =
      (pl.caches part.layerName).view.narrow3 (pl.columnStart other) other.headSize := by
    rw [hname]
    rfl
  rw [← hname] at hle'
  rw [hview]
  refine (View.narrow3Part hle).disjoint (View.narrow3Part hle')
    (pl.caches part.layerName).separated fun x y hx _ heq => ?_
  have hlast : pl.columnStart part + x.2.2.2 = pl.columnStart other + y.2.2.2 :=
    congrArg (fun i => i.2.2.2) heq
  have hx : x.2.2.2 < part.headSize := hx.2.2.2
  omega

/-- **Keys and values of a layer do not meet.** -/
theorem cachePart_apart (hp : part ∈ pl.layout.layerParts) (ho : other ∈ pl.layout.layerParts)
    (hname : part.layerName = other.layerName) (hkv : part.kvPart ≠ other.kvPart) (a : Nat) :
    ¬ ((pl.cachePart part).Covers 2 a ∧ (pl.cachePart other).Covers 2 a) := by
  have hp := Construction.mem_parts hp
  have ho := Construction.mem_parts ho
  cases hkey : part.kvPart with
  | key =>
      cases hkey' : other.kvPart with
      | key => exact absurd (hkey.trans hkey'.symm) hkv
      | value => exact keys_apart h hparts hbound (hkey ▸ hp) (hkey' ▸ ho) hname a
  | value =>
      cases hkey' : other.kvPart with
      | key =>
          intro hcov
          exact keys_apart h hparts hbound (hkey' ▸ ho) (hkey ▸ hp) hname.symm a hcov.symm
      | value => exact absurd (hkey.trans hkey'.symm) hkv

end Columns

end Pipeline

end KVServe.Runtime

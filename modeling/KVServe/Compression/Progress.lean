import KVServe.Compression.LayerIds

/-!
# KVServe.Compression.Progress

**Compression fails only where a component does.** With exact components that give a result for
every layer, packing, the codec and the metadata give one for the whole tensor, on both paths.
-/

namespace KVServe.Compression

variable {D S : Type} {dt : DTypes D}

theorem Tensor.exists_layerToPermuted {t : Tensor dt} {two b s h d : Nat}
    (hshape : t.shape = [two, b, s, h, d]) :
    ∃ u, t.layerToPermuted = some u ∧ u.shape = [two, h, b, s, d] ∧ u.dtype = t.dtype := by
  have hlength : t.bytes.length = two * (b * s * h * (d * t.itemsize)) := by
    rw [t.sized, hshape, itemsize]
    simp only [List.prod_cons, List.prod_nil]
    ring
  have hsized : (transposeEach two (b * s) h (d * t.itemsize) t.bytes).length =
      [two, h, b, s, d].prod * dt.elementSize t.dtype := by
    rw [length_transposeEach hlength, itemsize]
    simp only [List.prod_cons, List.prod_nil]
    ring
  rw [layerToPermuted, hshape]
  exact ⟨⟨_, _, _, hsized⟩, ofBytes_eq_some.mpr ⟨rfl, rfl, rfl⟩, rfl, rfl⟩

namespace Manager

variable {m : Manager dt S} {layout : CodecLayout} {start count : Nat} {x : Tensor dt}

/-- The components give a result for every layer of a tensor. -/
structure Serves (m : Manager dt S) (start count : Nat) (x : Tensor dt) : Prop where
  direct : m.useDirectQuant = true → ∀ i < count, ∃ out,
    (x.layer i).bind (m.quantizeOut (start + i)) = some out
  loop : m.useDirectQuant = false → ∀ i < count, ∃ out,
    (x.layer i).bind (m.processLayer (start + i)) = some out

/-- The shape of a packed layer. -/
def packedShape (layout : CodecLayout) (two b s hd d : Nat) : List Nat :=
  match layout with
  | .native => [two, b, s, hd, d]
  | .permuted => [two, hd, b, s, d]

theorem exists_packLayer (h : m.Regular) {first q : Tensor dt} {two b s hd d : Nat}
    (hfirst : first.shape = [two, b, s, hd, d]) (hq : q.shape = [two, b, s, hd, d])
    (hdtype : q.dtype = first.dtype) :
    ∃ part, m.packLayer layout first q = some part ∧ part.dtype = first.dtype ∧
      part.shape = packedShape layout two b s hd d := by
  cases layout with
  | native =>
      refine ⟨q, ?_, hdtype, hq⟩
      rw [packLayer, copyInto, if_pos (hq.trans hfirst.symm), ← hdtype, h.cast_self]
  | permuted =>
      obtain ⟨u, hu, hushape, -⟩ := Tensor.exists_layerToPermuted hfirst
      obtain ⟨p, hp, hpshape, hpdtype⟩ := Tensor.exists_layerToPermuted hq
      refine ⟨p, ?_, hpdtype.trans hdtype, hpshape⟩
      simp only [packLayer, hu, hp, Option.bind_eq_bind, Option.bind_some, copyInto]
      rw [if_pos (hpshape.trans hushape.symm), ← hdtype, ← hpdtype, h.cast_self]

/-- The direct path. -/
theorem exists_processLayers_direct (h : m.Regular) {two b s hd d : Nat}
    (hx : x.shape = [count, two, b, s, hd, d]) (hdirect : m.useDirectQuant = true)
    (hserves : m.Serves start count x) :
    ∃ out, m.processLayers layout start count x = some out ∧
      out.1.shape = count :: packedShape layout two b s hd d := by
  obtain ⟨outs, houts⟩ := exists_mapM_range (hserves.direct hdirect)
  obtain ⟨hlength, hget⟩ := mapM_range_eq_some.mp houts
  have hout : ∀ out ∈ outs, out.1.shape = [two, b, s, hd, d] ∧ out.1.dtype = dt.uint8 := by
    intro out hmem
    obtain ⟨i, hi⟩ := List.mem_iff_getElem?.mp hmem
    have hlt : i < count := hlength ▸ (List.getElem?_eq_some_iff.mp hi).1
    obtain ⟨t, ht, hq⟩ := Option.bind_eq_some_iff.mp ((hget i hlt).trans hi)
    exact ⟨(h.shape_quantizeOut hq).trans ((Tensor.layer_eq_some hx).mp ht).2.1,
      h.dtype_quantizeOut hq⟩
  obtain ⟨buffer, hbuffer, hshape, -⟩ := @Tensor.exists_stack _ dt [two, b, s, hd, d] dt.uint8
    (outs.map (·.1)) fun part hpart => by
      obtain ⟨out, hmem, rfl⟩ := List.mem_map.mp hpart
      exact hout out hmem
  rw [List.length_map, hlength] at hshape
  have hlayers : m.quantizeLayersDirect start count x = some (buffer, outs.map (·.2)) := by
    simp only [quantizeLayersDirect, Option.bind_eq_bind, houts, Option.bind_some, hx,
      List.tail_cons, hbuffer, Option.pure_def]
  rw [processLayers, if_pos hdirect]
  simp only [hlayers, Option.bind_eq_bind, Option.bind_some]
  cases layout with
  | native => exact ⟨_, rfl, hshape⟩
  | permuted =>
      obtain ⟨u, hu⟩ := Tensor.exists_nativeToPermuted hshape
      simp only [hu, Option.bind_some]
      exact ⟨_, rfl, ((Tensor.nativeToPermuted_eq_some hshape).mp hu).1⟩

/-- The loop over the layers. -/
theorem exists_processLayers_loop (h : m.Regular) {two b s hd d : Nat}
    (hx : x.shape = [count, two, b, s, hd, d]) (hcount : 0 < count)
    (hdirect : m.useDirectQuant = false) (hserves : m.Serves start count x) :
    ∃ out, m.processLayers layout start count x = some out ∧
      out.1.shape = count :: packedShape layout two b s hd d := by
  obtain ⟨outs, houts⟩ := exists_mapM_range (hserves.loop hdirect)
  obtain ⟨hlength, hget⟩ := mapM_range_eq_some.mp houts
  have hout : ∀ out ∈ outs, ∃ i t, x.layer i = some t ∧ m.processLayer (start + i) t = some out ∧
      out.1.shape = [two, b, s, hd, d] := by
    intro out hmem
    obtain ⟨i, hi⟩ := List.mem_iff_getElem?.mp hmem
    have hlt : i < count := hlength ▸ (List.getElem?_eq_some_iff.mp hi).1
    obtain ⟨t, ht, hq⟩ := Option.bind_eq_some_iff.mp ((hget i hlt).trans hi)
    exact ⟨i, t, ht, hq, (h.shape_processLayer hq).trans ((Tensor.layer_eq_some hx).mp ht).2.1⟩
  obtain ⟨first, rest, rfl⟩ := List.exists_cons_of_length_pos (hlength ▸ hcount)
  obtain ⟨_, t, ht, hq, hfirst⟩ := hout first List.mem_cons_self
  -- every layer is packed in the shape of the first
  have hpack : ∀ out ∈ first :: rest, ∃ part, m.packLayer layout first.1 out.1 = some part ∧
      part.dtype = first.1.dtype ∧ part.shape = packedShape layout two b s hd d := by
    intro out hmem
    obtain ⟨_, t', ht', hq', hshape⟩ := hout out hmem
    have hdtype := h.dtype_processLayer hq' hq (((Tensor.layer_eq_some hx).mp ht').2.2.1.trans
      ((Tensor.layer_eq_some hx).mp ht).2.2.1.symm)
    exact exists_packLayer h hfirst hshape hdtype
  obtain ⟨parts, hparts⟩ := exists_mapM_some fun out hmem =>
    (hpack out hmem).imp fun _ h => h.1
  obtain ⟨hlengthParts, hgetParts⟩ := mapM_eq_some.mp hparts
  have hpart : ∀ part ∈ parts, part.shape = packedShape layout two b s hd d ∧
      part.dtype = first.1.dtype := by
    intro part hmem
    obtain ⟨i, hi⟩ := List.mem_iff_getElem?.mp hmem
    obtain ⟨out, hout, hpart⟩ := Option.bind_eq_some_iff.mp ((hgetParts i).trans hi)
    obtain ⟨part', hpart', hdtype, hshape⟩ := hpack out (List.mem_of_getElem? hout)
    obtain rfl := Option.some.inj (hpart'.symm.trans hpart)
    exact ⟨hshape, hdtype⟩
  obtain ⟨firstPart, restParts, rfl⟩ :=
    List.exists_cons_of_length_pos (l := parts) (hlengthParts ▸ Nat.succ_pos _)
  obtain ⟨buffer, hbuffer, hshape, -⟩ := Tensor.exists_stack hpart
  rw [hlengthParts, hlength] at hshape
  rw [← (hpart firstPart List.mem_cons_self).1] at hbuffer
  rw [processLayers, hdirect, if_neg Bool.false_ne_true]
  simp only [Option.bind_eq_bind] at houts ⊢
  simp only [houts, Option.bind_some, List.head?_cons, hparts, hbuffer]
  exact ⟨_, rfl, hshape⟩

theorem exists_processLayers (h : m.Regular) {two b s hd d : Nat}
    (hx : x.shape = [count, two, b, s, hd, d]) (hcount : 0 < count)
    (hserves : m.Serves start count x) :
    ∃ out, m.processLayers layout start count x = some out ∧
      out.1.shape = count :: packedShape layout two b s hd d := by
  cases hdirect : m.useDirectQuant with
  | true => exact exists_processLayers_direct h hx hdirect hserves
  | false => exact exists_processLayers_loop h hx hcount hdirect hserves

/-- One buffer. -/
theorem exists_compressLayers (h : m.Regular) {two b s hd d : Nat}
    (hx : x.shape = [count, two, b, s, hd, d]) (hcount : 0 < count)
    (hserves : m.Serves start count x) (metadata : List (Key × Meta dt S)) :
    ∃ out, m.compressLayers layout start x metadata = some out := by
  obtain ⟨out, hout, -⟩ := @exists_processLayers _ _ _ m layout _ _ _ h _ _ _ _ _ hx hcount hserves
  simp only [compressLayers, hx, List.head?_cons, Option.bind_eq_bind, Option.bind_some, hout]
  exact ⟨_, rfl⟩

/-- A chunk of served layers is served. -/
theorem Serves.chunk {n first last : Nat} {shape : List Nat} {chunk : Tensor dt}
    (hserves : m.Serves 0 n x) (hx : x.shape = n :: shape) (hlast : last ≤ n)
    (hchunk : x.layers first last = some chunk) : m.Serves first (last - first) chunk where
  direct hdirect i hi := by
    rw [Tensor.layer_layers hx hlast hchunk hi]
    have := hserves.direct hdirect (first + i) (by omega)
    rwa [Nat.zero_add] at this
  loop hdirect i hi := by
    rw [Tensor.layer_layers hx hlast hchunk hi]
    have := hserves.loop hdirect (first + i) (by omega)
    rwa [Nat.zero_add] at this

/-- A chunk begins at a layer. -/
theorem start_lt {n index : Nat} (hindex : index < (n + m.chunkSize - 1) / m.chunkSize) :
    index * m.chunkSize < n := by
  have hpos : 0 < m.chunkSize := by
    refine Nat.pos_of_ne_zero fun hzero => ?_
    rw [hzero, Nat.div_zero] at hindex
    exact Nat.not_lt_zero _ hindex
  have := (Nat.le_div_iff_mul_le hpos).mp (Nat.succ_le_of_lt hindex)
  rw [Nat.succ_mul] at this
  omega

theorem compressChunk_eq {requestId : String} {extra : List (Key × Meta dt S)}
    {n numChunks index : Nat} {chunk : Tensor dt}
    (hchunk : x.layers (index * m.chunkSize) (m.endLayer n (index * m.chunkSize)) = some chunk) :
    m.compressChunk layout x requestId extra n numChunks index =
      m.compressLayers layout (index * m.chunkSize) chunk (update (m.chunkMeta chunk requestId
        (index * m.chunkSize) (m.endLayer n (index * m.chunkSize) - index * m.chunkSize) index
        numChunks) extra) := by
  rw [compressChunk]
  simp only [hchunk, Option.bind_eq_bind, Option.bind_some]

/-- **Compression succeeds** where it is enabled, the tensor is large enough and the components
serve every layer. -/
theorem exists_compressAllLayers (h : m.Regular) {two b s hd d : Nat}
    (hx : x.shape = [count, two, b, s, hd, d]) (hcount : 0 < count) (hserves : m.Serves 0 count x)
    (henabled : m.enabled = true) (hpipeline : m.pipeline ≠ []) (hmin : m.minCompressSize ≤ x.nbytes)
    (hchunk : 0 < m.chunkSize) (requestId : String) (extra : List (Key × Meta dt S)) :
    ∃ c, m.compressAllLayers layout x requestId extra = some c := by
  have hempty : m.pipeline.isEmpty = false := by
    cases hp : m.pipeline with
    | nil => exact absurd hp hpipeline
    | cons _ _ => rfl
  rw [compressAllLayers, henabled, hempty, hx, if_neg (by decide), if_neg (by simp),
    if_neg (Nat.not_lt.mpr hmin)]
  split
  · have hchunks : ∀ index < (count + m.chunkSize - 1) / m.chunkSize, ∃ out,
        m.compressChunk layout x requestId extra count ((count + m.chunkSize - 1) / m.chunkSize)
          index = some out := by
      intro index hindex
      have hstart := start_lt hindex
      have hlast : m.endLayer count (index * m.chunkSize) ≤ count := Nat.min_le_right _ _
      have hlt : index * m.chunkSize < m.endLayer count (index * m.chunkSize) :=
        Nat.lt_min.mpr ⟨Nat.lt_add_of_pos_right hchunk, hstart⟩
      obtain ⟨chunk, hslice⟩ := Tensor.exists_slice hx (Nat.le_of_lt hlt) hlast
      obtain ⟨hshape, -, -⟩ := layers_eq_some hx hslice hlast
      rw [compressChunk_eq hslice]
      exact exists_compressLayers h hshape (Nat.sub_pos_of_lt hlt)
        (hserves.chunk hx hlast hslice) _
    obtain ⟨chunks, hchunks⟩ := exists_mapM_range hchunks
    simp only [compressAllLayersChunked, hx, List.head?_cons, Option.bind_eq_bind,
      Option.bind_some, if_neg (Nat.pos_iff_ne_zero.mp hchunk), hchunks]
    exact ⟨_, rfl⟩
  · obtain ⟨out, hout⟩ := @exists_compressLayers _ _ _ m layout 0 _ _ h _ _ _ _ _ hx hcount hserves
      (update (m.payloadMetadata x requestId count) extra)
    simp only [compressWhole, hx, List.head?_cons, Option.bind_eq_bind, Option.bind_some, hout]
    exact ⟨_, rfl⟩

end Manager

end KVServe.Compression

import KVServe.Compression.Progress

/-!
# KVServe.Compression.LayerCalls

**The calls of a run.** `layerCalls` lists the layers that `compress_all_layers` hands to its
components. Each of them is made, since a payload takes all the answers, and nothing else is
asked: tensors of one shape and dtype whose calls have the same answers give the same payload.
-/

namespace KVServe.Compression

variable {D S : Type} {dt : DTypes D}

namespace Manager

variable {m m' : Manager dt S} {layout : CodecLayout} {start count n : Nat} {x x' : Tensor dt}
  {shape : List Nat}

/-- What the loop over the layers keeps of a call. -/
def answer (m : Manager dt S) (call : Nat × Option (Tensor dt)) :
    Option (Tensor dt × List (Meta dt S)) :=
  call.2.bind fun layer =>
    if m.useDirectQuant then (m.quantizeOut call.1 layer).map fun out => (out.1, [out.2])
    else m.processLayer call.1 layer

theorem answer_direct (hdirect : m.useDirectQuant = true) (id : Nat) (layer : Option (Tensor dt)) :
    m.answer (id, layer) = (layer.bind (m.quantizeOut id)).map fun out => (out.1, [out.2]) := by
  simp only [answer, hdirect, if_true, Option.map_bind, Function.comp_def]

theorem answer_loop (hdirect : m.useDirectQuant = false) (id : Nat) (layer : Option (Tensor dt)) :
    m.answer (id, layer) = layer.bind (m.processLayer id) := by
  simp only [answer, hdirect, Bool.false_eq_true, if_false]

/-! ### Every call is made -/

/-- The loop over the layers. -/
theorem answered_of_processLayers {out : Tensor dt × List (Meta dt S)}
    (h : m.processLayers layout start count x = some out) {i : Nat} (hi : i < count) :
    (m.answer (start + i, x.layer i)).isSome := by
  -- every pass of the loop has its result in the list
  have hanswer : ∀ {β : Type} {f : Nat → Tensor dt → Option β} {outs : List β},
      ((List.range count).mapM fun i => (x.layer i).bind (f (start + i))) = some outs →
      ((x.layer i).bind (f (start + i))).isSome := by
    intro β f outs houts
    obtain ⟨hlength, hget⟩ := mapM_range_eq_some.mp houts
    rw [hget i hi, List.getElem?_eq_getElem (hlength ▸ hi)]
    rfl
  cases hdirect : m.useDirectQuant with
  | true =>
      rw [processLayers, hdirect, if_pos rfl] at h
      obtain ⟨direct, hquantize, -⟩ := Option.bind_eq_some_iff.mp h
      obtain ⟨outs, houts, -⟩ := Option.bind_eq_some_iff.mp hquantize
      rw [answer_direct hdirect, Option.isSome_map]
      exact hanswer houts
  | false =>
      rw [processLayers, hdirect, if_neg Bool.false_ne_true] at h
      obtain ⟨outs, houts, -⟩ := Option.bind_eq_some_iff.mp h
      rw [answer_loop hdirect]
      exact hanswer houts

theorem answered_of_compressLayers {metadata : List (Key × Meta dt S)}
    {out : Tensor dt × List (Key × Meta dt S)} (hx : x.shape = count :: shape)
    (h : m.compressLayers layout start x metadata = some out) {i : Nat} (hi : i < count) :
    (m.answer (start + i, x.layer i)).isSome := by
  simp only [compressLayers, hx, List.head?_cons, Option.bind_eq_bind, Option.bind_some] at h
  obtain ⟨_, hprocess, -⟩ := Option.bind_eq_some_iff.mp h
  exact answered_of_processLayers hprocess hi

/-- **A payload has the answers to all calls.** -/
theorem answered_of_compressAllLayers {requestId : String} {extra : List (Key × Meta dt S)}
    {c : CompressedKVData dt S} (hchunk : 0 < m.chunkSize)
    (hc : m.compressAllLayers layout x requestId extra = some c) :
    ∀ call ∈ m.layerCalls x, (m.answer call).isSome := by
  obtain ⟨-, hrank, hpath⟩ := compressAllLayers_cases hc
  obtain ⟨n, shape, hx⟩ := List.exists_cons_of_length_eq_add_one hrank
  rw [layerCalls_eq hchunk hx]
  intro call hcall
  obtain ⟨i, hi, rfl⟩ := List.mem_map.mp hcall
  have hi := List.mem_range.mp hi
  rcases hpath with hwhole | ⟨-, hchunked⟩
  · simp only [compressWhole, hx, List.head?_cons, Option.bind_eq_bind, Option.bind_some] at hwhole
    obtain ⟨_, hlayers, -⟩ := Option.bind_eq_some_iff.mp hwhole
    have := answered_of_compressLayers hx hlayers hi
    rwa [Nat.zero_add] at this
  · simp only [compressAllLayersChunked, hx, List.head?_cons, Option.bind_eq_bind,
      Option.bind_some, if_neg (Nat.pos_iff_ne_zero.mp hchunk)] at hchunked
    obtain ⟨chunks, hchunks, -⟩ := Option.bind_eq_some_iff.mp hchunked
    obtain ⟨hlength, hget⟩ := mapM_range_eq_some.mp hchunks
    -- the chunk of the layer
    let index := i / m.chunkSize
    have hindex : index < (n + m.chunkSize - 1) / m.chunkSize := by
      refine (Nat.lt_div_iff_mul_lt hchunk).mpr ?_
      have := Nat.div_mul_le_self i m.chunkSize
      show i / m.chunkSize * m.chunkSize < n + m.chunkSize - 1 - (m.chunkSize - 1)
      omega
    have hlast : m.endLayer n (index * m.chunkSize) ≤ n := Nat.min_le_right _ _
    have hin : i - index * m.chunkSize < m.endLayer n (index * m.chunkSize) - index * m.chunkSize := by
      have hlow : index * m.chunkSize ≤ i := Nat.div_mul_le_self i m.chunkSize
      have hhigh : i < index * m.chunkSize + m.chunkSize := Nat.lt_div_mul_add hchunk
      have hend : i < m.endLayer n (index * m.chunkSize) := Nat.lt_min.mpr ⟨hhigh, hi⟩
      omega
    have hle : index * m.chunkSize ≤ m.endLayer n (index * m.chunkSize) := by omega
    obtain ⟨chunk, hslice⟩ := Tensor.exists_slice hx hle hlast
    obtain ⟨hshape, -, -⟩ := layers_eq_some hx hslice hlast
    have hcompress := hget index hindex
    rw [compressChunk_eq hslice, List.getElem?_eq_getElem (hlength ▸ hindex)] at hcompress
    have := answered_of_compressLayers hshape hcompress hin
    rwa [Tensor.layer_layers hx hlast hslice hin,
      Nat.add_sub_cancel' (Nat.div_mul_le_self i m.chunkSize)] at this

/-! ### Nothing else is asked -/

/-- The manager with other components for the layers. -/
def withComponents (m : Manager dt S) (transform : Nat → Tensor dt → Option (Tensor dt))
    (quantize quantizeOut : Nat → Tensor dt → Option (Tensor dt × Meta dt S)) : Manager dt S :=
  { m with transform, quantize, quantizeOut }

variable {transform : Nat → Tensor dt → Option (Tensor dt)}
  {quantize quantizeOut : Nat → Tensor dt → Option (Tensor dt × Meta dt S)}

/-- Two tensors of one shape and dtype whose layers have the same answers. -/
structure SameAnswers (m m' : Manager dt S) (start count : Nat) (x x' : Tensor dt) : Prop where
  shape : x'.shape = x.shape
  dtype : x'.dtype = x.dtype
  layer : ∀ i < count, m'.answer (start + i, x'.layer i) = m.answer (start + i, x.layer i)

theorem SameAnswers.nbytes (h : SameAnswers m m' start count x x') : x'.nbytes = x.nbytes := by
  rw [Tensor.nbytes, Tensor.nbytes, h.shape, h.dtype]

theorem SameAnswers.dtypeName (h : SameAnswers m m' start count x x') :
    (Manager.dtypeName x' : Meta dt S) = Manager.dtypeName x := by
  rw [Manager.dtypeName, Manager.dtypeName, h.dtype]

/-- The chunks of layers, too. -/
theorem SameAnswers.exists_chunk {first last : Nat} (h : SameAnswers m m' 0 n x x')
    (hx : x.shape = n :: shape) (hle : first ≤ last) (hlast : last ≤ n) :
    ∃ chunk chunk', x.layers first last = some chunk ∧ x'.layers first last = some chunk' ∧
      chunk.shape = (last - first) :: shape ∧
      SameAnswers m m' first (last - first) chunk chunk' := by
  have hx' := h.shape.trans hx
  obtain ⟨chunk, hchunk⟩ := Tensor.exists_slice hx hle hlast
  obtain ⟨chunk', hchunk'⟩ := Tensor.exists_slice hx' hle hlast
  obtain ⟨hshape, hdtype, -⟩ := layers_eq_some hx hchunk hlast
  obtain ⟨hshape', hdtype', -⟩ := layers_eq_some hx' hchunk' hlast
  refine ⟨chunk, chunk', hchunk, hchunk', hshape, hshape'.trans hshape.symm,
    hdtype'.trans (h.dtype.trans hdtype.symm), fun i hi => ?_⟩
  have hlayer := h.layer (first + i) (by omega)
  rw [Nat.zero_add] at hlayer
  rw [Tensor.layer_layers hx hlast hchunk hi, Tensor.layer_layers hx' hlast hchunk' hi, hlayer]

/-- **The loop over the layers** fills the same buffer. -/
theorem processLayers_congr
    (h : SameAnswers m (m.withComponents transform quantize quantizeOut) start count x x') :
    (m.withComponents transform quantize quantizeOut).processLayers layout start count x' =
      m.processLayers layout start count x := by
  generalize hm' : m.withComponents transform quantize quantizeOut = m' at h ⊢
  have hsame : m'.useDirectQuant = m.useDirectQuant := by rw [← hm']; rfl
  cases hdirect : m.useDirectQuant with
  | true =>
      have houts : ∀ i < count, (x'.layer i).bind (m'.quantizeOut (start + i)) =
          (x.layer i).bind (m.quantizeOut (start + i)) := by
        intro i hi
        have hanswer := h.layer i hi
        rw [answer_direct hdirect, answer_direct (hsame.trans hdirect)] at hanswer
        refine Option.map_injective (fun out out' heq => ?_) hanswer
        exact Prod.ext (congrArg (·.1) heq) (List.head_eq_of_cons_eq (congrArg (·.2) heq))
      have hlayers : m'.quantizeLayersDirect start count x' =
          m.quantizeLayersDirect start count x := by
        simp only [quantizeLayersDirect, Option.bind_eq_bind]
        rw [mapM_range_congr houts, h.shape]
      rw [processLayers, processLayers, hsame, hdirect, if_pos rfl, if_pos rfl, hlayers]
  | false =>
      have houts : ∀ i < count, (x'.layer i).bind (m'.processLayer (start + i)) =
          (x.layer i).bind (m.processLayer (start + i)) := by
        intro i hi
        have hanswer := h.layer i hi
        rwa [answer_loop hdirect, answer_loop (hsame.trans hdirect)] at hanswer
      rw [processLayers, processLayers, hsame, hdirect, if_neg Bool.false_ne_true,
        if_neg Bool.false_ne_true]
      simp only [Option.bind_eq_bind]
      rw [mapM_range_congr houts, ← hm']
      rfl

/-- One buffer. -/
theorem compressLayers_congr
    (h : SameAnswers m (m.withComponents transform quantize quantizeOut) start count x x')
    (hx : x.shape = count :: shape) (metadata : List (Key × Meta dt S)) :
    (m.withComponents transform quantize quantizeOut).compressLayers layout start x' metadata =
      m.compressLayers layout start x metadata := by
  have hx' := h.shape.trans hx
  simp only [compressLayers, hx, hx', List.head?_cons, Option.bind_eq_bind, Option.bind_some]
  rw [processLayers_congr h]
  rfl

variable {requestId : String} {extra : List (Key × Meta dt S)}

/-- One chunk. -/
theorem compressChunk_congr {numChunks index : Nat}
    (h : SameAnswers m (m.withComponents transform quantize quantizeOut) 0 n x x')
    (hx : x.shape = n :: shape) (hindex : index * m.chunkSize < n) :
    (m.withComponents transform quantize quantizeOut).compressChunk layout x' requestId extra n
        numChunks index =
      m.compressChunk layout x requestId extra n numChunks index := by
  have hle : index * m.chunkSize ≤ m.endLayer n (index * m.chunkSize) :=
    Nat.le_min.mpr ⟨Nat.le_add_right _ _, Nat.le_of_lt hindex⟩
  obtain ⟨chunk, chunk', hchunk, hchunk', hshape, h⟩ :=
    h.exists_chunk hx hle (Nat.min_le_right _ _)
  have hmeta : m.chunkMeta chunk' requestId (index * m.chunkSize)
      (m.endLayer n (index * m.chunkSize) - index * m.chunkSize) index numChunks =
      m.chunkMeta chunk requestId (index * m.chunkSize)
        (m.endLayer n (index * m.chunkSize) - index * m.chunkSize) index numChunks := by
    rw [chunkMeta, chunkMeta, h.dtypeName]
  have hother : (m.withComponents transform quantize quantizeOut).compressChunk layout x' requestId
      extra n numChunks index =
      (m.withComponents transform quantize quantizeOut).compressLayers layout
        (index * m.chunkSize) chunk' (update (m.chunkMeta chunk' requestId (index * m.chunkSize)
          (m.endLayer n (index * m.chunkSize) - index * m.chunkSize) index numChunks) extra) :=
    compressChunk_eq hchunk'
  rw [compressChunk_eq hchunk, hother, hmeta]
  exact compressLayers_congr h hshape _

theorem compressWhole_congr
    (h : SameAnswers m (m.withComponents transform quantize quantizeOut) 0 n x x')
    (hx : x.shape = n :: shape) :
    (m.withComponents transform quantize quantizeOut).compressWhole layout x' requestId extra =
      m.compressWhole layout x requestId extra := by
  have hx' := h.shape.trans hx
  have hmeta : (m.withComponents transform quantize quantizeOut).payloadMetadata x' requestId n =
      m.payloadMetadata x requestId n := by
    rw [payloadMetadata, payloadMetadata, h.dtypeName, h.nbytes]
    rfl
  simp only [compressWhole, hx, hx', List.head?_cons, Option.bind_eq_bind, Option.bind_some,
    h.nbytes, hmeta, compressLayers_congr h hx]

theorem compressAllLayersChunked_congr
    (h : SameAnswers m (m.withComponents transform quantize quantizeOut) 0 n x x')
    (hx : x.shape = n :: shape) :
    (m.withComponents transform quantize quantizeOut).compressAllLayersChunked layout x' requestId
        extra = m.compressAllLayersChunked layout x requestId extra := by
  have hx' := h.shape.trans hx
  have hsize : (m.withComponents transform quantize quantizeOut).chunkSize = m.chunkSize := rfl
  have hchunks : ∀ index < (n + m.chunkSize - 1) / m.chunkSize,
      (m.withComponents transform quantize quantizeOut).compressChunk layout x' requestId extra n
          ((n + m.chunkSize - 1) / m.chunkSize) index =
        m.compressChunk layout x requestId extra n ((n + m.chunkSize - 1) / m.chunkSize) index :=
    fun index hindex => compressChunk_congr h hx (start_lt hindex)
  have hmeta : (chunkedMetadata x' requestId n ((n + m.chunkSize - 1) / m.chunkSize) :
      List (Key × Meta dt S)) =
      chunkedMetadata x requestId n ((n + m.chunkSize - 1) / m.chunkSize) := by
    rw [chunkedMetadata, chunkedMetadata, h.nbytes]
  simp only [compressAllLayersChunked, hx, hx', List.head?_cons, Option.bind_eq_bind,
    Option.bind_some, hsize, mapM_range_congr hchunks, h.nbytes, hmeta]

theorem SameAnswers.compressAllLayers
    (h : SameAnswers m (m.withComponents transform quantize quantizeOut) 0 n x x')
    (hx : x.shape = n :: shape) :
    (m.withComponents transform quantize quantizeOut).compressAllLayers layout x' requestId extra =
      m.compressAllLayers layout x requestId extra := by
  rw [Manager.compressAllLayers, Manager.compressAllLayers, compressWhole_congr h hx,
    compressAllLayersChunked_congr h hx, h.nbytes, h.shape]
  rfl

/-- **A payload depends on the answers to the calls only.** -/
theorem compressAllLayers_congr (hchunk : 0 < m.chunkSize) (hshape : x'.shape = x.shape)
    (hdtype : x'.dtype = x.dtype)
    (hcalls : ((m.withComponents transform quantize quantizeOut).layerCalls x').map
      (m.withComponents transform quantize quantizeOut).answer =
        (m.layerCalls x).map m.answer) :
    (m.withComponents transform quantize quantizeOut).compressAllLayers layout x' requestId extra =
      m.compressAllLayers layout x requestId extra := by
  cases hx : x.shape with
  | nil =>
      have hrank : x.shape.length ≠ 6 := by rw [hx]; decide
      rw [Manager.compressAllLayers, Manager.compressAllLayers, hshape, if_pos hrank, if_pos hrank]
      rfl
  | cons n shape =>
      have hx' := hshape.trans hx
      rw [layerCalls_eq hchunk hx,
        layerCalls_eq (m := m.withComponents transform quantize quantizeOut) hchunk hx'] at hcalls
      simp only [List.map_map, List.map_inj_left, Function.comp_apply, List.mem_range] at hcalls
      refine SameAnswers.compressAllLayers ⟨hshape, hdtype, fun i hi => ?_⟩ hx
      rw [Nat.zero_add]
      exact hcalls i hi

end Manager

end KVServe.Compression

import KVServe.Compression.Lossy
import KVServe.Connector.BlockCopies

/-!
# KVServe.Connector.CompressedPath

The blocks of a request on the compressed path: `save_kv_layer` cuts them out of every layer,
`wait_for_save` stacks the layers and hands them to the compressor, and `start_load_kv` puts
what was decompressed into the blocks of the consumer. The compressor takes the second
dimension of the stack for that of the keys and values, which it is in the FlashAttention
layout only.
-/

namespace KVServe.Connector

open BlockTensor KVServe.Compression

variable {D S : Type} {dt : DTypes D}

/-! ### Tensors of blocks -/

/-- A layer of blocks in row-major order; `rest` are the dimensions of a block. -/
def toTensor (rest : List Nat) (dtype : D) (t : BlockTensor (List UInt8)) : Option (Tensor dt) :=
  Tensor.ofBytes (t.dim0 :: t.dim1 :: rest) dtype
    (ofBlocks t.dim0 fun i => ofBlocks t.dim1 (t.entry i))

/-- A tensor by its first two dimensions. -/
def ofTensor (t : Tensor dt) : Option (BlockTensor (List UInt8)) :=
  match t.shape with
  | n :: m :: rest => some ⟨n, m, fun i j => block (rest.prod * t.itemsize) t.bytes (i * m + j)⟩
  | _ => none

/-! ### Saving and loading -/

/-- `save_kv_layer`, for one request. -/
def saveKvLayer (rest : List Nat) (dtype : D) (blockIds : List Nat)
    (kvLayer : BlockTensor (List UInt8)) : Option (Tensor dt) :=
  (extractKvFromLayerByBlocks kvLayer blockIds).bind (toTensor rest dtype)

/-- The stack `wait_for_save` makes of the layers, which are listed in the order of their
names; `torch.stack` wants them to be of one shape. -/
def stackSaved (rest : List Nat) (dtype : D) (kvLayers : List (BlockTensor (List UInt8)))
    (blockIds : List Nat) : Option (Tensor dt) := do
  let layerKv ← kvLayers.mapM (saveKvLayer rest dtype blockIds)
  let first ← layerKv.head?
  if layerKv.all (·.shape = first.shape) then Tensor.stack first.shape dtype layerKv else none

/-- The loop of `start_load_kv` over the layers. -/
def loadLayers (stackedKv : Tensor dt) (kvCaches : List (BlockTensor (List UInt8)))
    (blockIds : List Nat) : Option (List (BlockTensor (List UInt8))) :=
  (List.range kvCaches.length).mapM fun i => do
    let kvCacheLayer ← kvCaches[i]?
    let layer ← stackedKv.layer i
    let kvData ← ofTensor layer
    injectKvIntoLayerByBlocks kvCacheLayer kvData blockIds

/-- `keys = tensor[0]` and `values = tensor[1]`: how `KVServeQuantizer.quantize` splits a
layer. -/
def keysAndValues (t : Tensor dt) : Option (Tensor dt × Tensor dt) := do
  let keys ← t.layer 0
  let values ← t.layer 1
  return (keys, values)

/-- The manager the compressor uses for a request. -/
def compressorManager (a : Adapter dt S) (profile : Option (ProfileConfig dt S)) :
    Option (Manager dt S) :=
  match a.mode with
  | .fixed manager => some manager
  | .controller managerOf => profile.map fun cfg => managerOf (.dict cfg.entries)

/-- Two workers with one request, and the compressor between them. -/
structure Path (dt : DTypes D) (S : Type) where
  adapter : Adapter dt S
  codecLayout : CodecLayout
  profile : Option (ProfileConfig dt S)
  requestId : String
  strOf : Meta dt S → String
  maxChunkBytes : Nat
  kvLayout : KVLayout
  dtype : D
  /-- The dimensions of a block. -/
  rest : List Nat
  numLayers : Nat
  producerBlocks : Nat
  consumerBlocks : Nat

namespace Path

/-- The bytes of the keys, or of the values, of a block. -/
def blockBytes (e : Path dt S) : Nat := e.rest.prod * dt.elementSize e.dtype

/-- The layers of a cache. -/
def layersOf (e : Path dt S) (numBlocks : Nat) (content : Nat → Nat → Nat → List UInt8) :
    List (BlockTensor (List UInt8)) :=
  (List.range e.numLayers).map fun l => layerOf e.kvLayout numBlocks (content l)

/-- The adapter takes layers of five dimensions, or of three with the heads flattened. -/
def Accepts (e : Path dt S) : Prop :=
  e.rest.length = 3 ∨ e.rest = [e.adapter.numKvHeads * e.adapter.headSize]

/-- Every layer that is handed to the components has its keys and its values where the
quantizer takes them from: the keys of all blocks first, then the values. -/
def SplitsKeysValues (e : Path dt S) (n : Nat) (source : Nat → Nat → Nat → List UInt8)
    (idsP : List Nat) (x : Tensor dt) : Prop :=
  ∀ l < e.numLayers, ∃ t keys values, x.layer l = some t ∧ t.shape.head? = some 2 ∧
    keysAndValues t = some (keys, values) ∧
    keys.bytes = ofBlocks n (fun i => source l (idsP.getD i 0) 0) ∧
    values.bytes = ofBlocks n (fun i => source l (idsP.getD i 0) 1)

/-- The payload arrives: the keys (part 0) and the values (part 1) of the `i`-th block on one
side are restored into the `i`-th block on the other, and no other block changes. -/
def Arrives (e : Path dt S) (m : Manager dt S) (n : Nat) (dest : Nat → Nat → Nat → List UInt8)
    (idsD : List Nat) (stacked x : Tensor dt) [DecidableEq D] : Prop :=
  ∃ c wire received restored caches,
    e.adapter.compress e.codecLayout e.profile stacked e.requestId = some c ∧
    buildWire c e.maxChunkBytes = some wire ∧ restoreFromWire e.strOf wire = some received ∧
    e.adapter.decompress received = some restored ∧
    loadLayers restored (e.layersOf e.consumerBlocks dest) idsD = some caches ∧
    ∀ l < e.numLayers, ∃ r cache, (x.layer l).bind (m.trip l) = some r ∧ caches[l]? = some cache ∧
      (∀ i < n, ∀ part < 2, cache.get e.kvLayout.blockAxis (idsD.getD i 0) part =
        block e.blockBytes r.restored.bytes (part * n + i)) ∧
      ∀ b < e.consumerBlocks, b ∉ idsD → ∀ part < 2,
        cache.get e.kvLayout.blockAxis b part = dest l b part

/-- What the compressed path promises for `n` blocks, whatever they hold: the layers are split
where the keys and values are, and when the components bring every layer through, there and
back, the payload arrives. -/
def Delivers [DecidableEq D] (e : Path dt S) (m : Manager dt S) (n : Nat) : Prop :=
  ∀ (source dest : Nat → Nat → Nat → List UInt8) (idsP idsD : List Nat),
    (∀ l b part, (source l b part).length = e.blockBytes) → idsP.length = n → idsD.length = n →
    (∀ b ∈ idsP, b < e.producerBlocks) → (∀ b ∈ idsD, b < e.consumerBlocks) → idsD.Nodup →
    ∃ stacked x, stackSaved e.rest e.dtype (e.layersOf e.producerBlocks source) idsP =
        some stacked ∧
      e.adapter.stacked6d stacked = some x ∧ e.SplitsKeysValues n source idsP x ∧
      ((∀ l < e.numLayers, ∃ r, (x.layer l).bind (m.trip l) = some r) →
        e.Arrives m n dest idsD stacked x)

end Path

/-! ### The stack -/

theorem exists_toTensor {rest : List Nat} {dtype : D} {t : BlockTensor (List UInt8)}
    (h : ∀ i < t.dim0, ∀ j < t.dim1, (t.entry i j).length = rest.prod * dt.elementSize dtype) :
    ∃ u : Tensor dt, toTensor rest dtype t = some u ∧ u.shape = t.dim0 :: t.dim1 :: rest ∧
      u.dtype = dtype ∧ u.bytes = ofBlocks t.dim0 fun i => ofBlocks t.dim1 (t.entry i) := by
  have hlength : (ofBlocks t.dim0 fun i => ofBlocks t.dim1 (t.entry i)).length =
      (t.dim0 :: t.dim1 :: rest).prod * dt.elementSize dtype := by
    rw [length_ofBlocks fun i hi => length_ofBlocks (h i hi), List.prod_cons, List.prod_cons,
      Nat.mul_assoc, Nat.mul_assoc]
  exact ⟨⟨_, _, _, hlength⟩, Tensor.ofBytes_eq_some.mpr ⟨rfl, rfl, rfl⟩, rfl, rfl, rfl⟩

namespace Path

variable {e : Path dt S} {source dest : Nat → Nat → Nat → List UInt8} {idsP idsD : List Nat}

/-- What is cut out of a layer. -/
def extracted (e : Path dt S) (source : Nat → Nat → Nat → List UInt8) (idsP : List Nat) (l : Nat) :
    BlockTensor (List UInt8) :=
  ofAxis (e.kvLayout.tested e.producerBlocks) idsP.length 2 fun i j =>
    e.kvLayout.seen e.producerBlocks (source l) (idsP.getD i 0) j

/-- The first two dimensions of what is cut out. -/
def dims (e : Path dt S) (n : Nat) : Nat × Nat :=
  match e.kvLayout.tested e.producerBlocks with
  | .zero => (n, 2)
  | .one => (2, n)

theorem extracted_dims (l : Nat) : (e.extracted source idsP l).dim0 = (e.dims idsP.length).1 ∧
    (e.extracted source idsP l).dim1 = (e.dims idsP.length).2 := by
  rw [extracted, dims]
  cases e.kvLayout.tested e.producerBlocks with
  | zero => exact ⟨rfl, rfl⟩
  | one => exact ⟨rfl, rfl⟩

theorem length_extracted (hsource : ∀ l b part, (source l b part).length = e.blockBytes)
    (l i j : Nat) : ((e.extracted source idsP l).entry i j).length = e.blockBytes := by
  have hseen : ∀ i j, (e.kvLayout.seen e.producerBlocks (source l) i j).length = e.blockBytes := by
    intro i j
    rw [KVLayout.seen]
    split
    · exact hsource l i j
    · exact hsource l j i
  rw [extracted]
  cases e.kvLayout.tested e.producerBlocks with
  | zero => exact hseen _ _
  | one => exact hseen _ _

/-- **The stack** of what is cut out of the layers. -/
theorem exists_stackSaved (hsource : ∀ l b part, (source l b part).length = e.blockBytes)
    (hids : ∀ b ∈ idsP, b < e.producerBlocks) (hlayers : 0 < e.numLayers) :
    ∃ stacked : Tensor dt, stackSaved e.rest e.dtype (e.layersOf e.producerBlocks source) idsP =
        some stacked ∧
      stacked.shape =
        e.numLayers :: (e.dims idsP.length).1 :: (e.dims idsP.length).2 :: e.rest ∧
      stacked.dtype = e.dtype ∧
      ∀ l < e.numLayers, ∃ t, stacked.layer l = some t ∧
        t.bytes = ofBlocks (e.dims idsP.length).1 fun i =>
          ofBlocks (e.dims idsP.length).2 ((e.extracted source idsP l).entry i) := by
  let parts : Nat → Option (Tensor dt) := fun l =>
    saveKvLayer e.rest e.dtype idsP (layerOf e.kvLayout e.producerBlocks (source l))
  have hpart : ∀ l < e.numLayers, ∃ u, parts l = some u ∧
      u.shape = (e.dims idsP.length).1 :: (e.dims idsP.length).2 :: e.rest ∧ u.dtype = e.dtype ∧
      u.bytes = ofBlocks (e.dims idsP.length).1 fun i =>
        ofBlocks (e.dims idsP.length).2 ((e.extracted source idsP l).entry i) := by
    intro l _
    obtain ⟨hdim0, hdim1⟩ := @extracted_dims _ _ _ e source idsP l
    obtain ⟨u, hu, hshape, hdtype, hbytes⟩ := @exists_toTensor _ dt e.rest e.dtype
      (e.extracted source idsP l) fun i _ j _ => length_extracted hsource l i j
    rw [hdim0, hdim1] at hshape hbytes
    refine ⟨u, ?_, hshape, hdtype, hbytes⟩
    show (extractKvFromLayerByBlocks _ idsP).bind _ = _
    rw [extract_layerOf hids, Option.bind_some]
    exact hu
  obtain ⟨us, hus⟩ := exists_mapM_range fun l hl => (hpart l hl).imp fun _ h => h.1
  obtain ⟨hlength, hget⟩ := mapM_range_eq_some.mp hus
  have hlayer : ∀ l < e.numLayers, ∃ u, us[l]? = some u ∧
      u.shape = (e.dims idsP.length).1 :: (e.dims idsP.length).2 :: e.rest ∧ u.dtype = e.dtype ∧
      u.bytes = ofBlocks (e.dims idsP.length).1 fun i =>
        ofBlocks (e.dims idsP.length).2 ((e.extracted source idsP l).entry i) := by
    intro l hl
    obtain ⟨u, hu, hspec⟩ := hpart l hl
    exact ⟨u, (hget l hl).symm.trans hu, hspec⟩
  have hmem : ∀ u ∈ us, u.shape = (e.dims idsP.length).1 :: (e.dims idsP.length).2 :: e.rest ∧
      u.dtype = e.dtype := by
    intro u hu
    obtain ⟨l, hl⟩ := List.mem_iff_getElem?.mp hu
    obtain ⟨u', hu', hshape, hdtype, -⟩ := hlayer l (hlength ▸ (List.getElem?_eq_some_iff.mp hl).1)
    obtain rfl := Option.some.inj (hu'.symm.trans hl)
    exact ⟨hshape, hdtype⟩
  obtain ⟨stacked, hstacked, hshape, hdtype, hlayers'⟩ := Tensor.exists_stack hmem
  rw [hlength] at hshape
  refine ⟨stacked, ?_, hshape, hdtype, fun l hl => ?_⟩
  · have hsaved : (e.layersOf e.producerBlocks source).mapM
        (@saveKvLayer _ dt e.rest e.dtype idsP) = some us := by
      rw [layersOf, List.mapM_map]
      exact hus
    obtain ⟨first, others, rfl⟩ := List.exists_cons_of_length_pos (hlength ▸ hlayers)
    have hfirst := (hmem first List.mem_cons_self).1
    rw [stackSaved]
    simp only [hsaved, Option.bind_eq_bind, Option.bind_some, List.head?_cons]
    rw [if_pos, hfirst]
    · exact hstacked
    · simp only [List.all_eq_true, decide_eq_true_eq]
      exact fun u hu => (hmem u hu).1.trans hfirst.symm
  · obtain ⟨u, hu, -, -, hbytes⟩ := hlayer l hl
    exact ⟨u, (hlayers' l).trans hu, hbytes⟩

/-! ### Six dimensions -/

/-- Tensors of the same bytes and number of layers have the same layers, as bytes. -/
theorem layer_of_bytes {x y u : Tensor dt} {n l : Nat} {shape shape' : List Nat}
    (hx : x.shape = n :: shape) (hy : y.shape = n :: shape') (hbytes : x.bytes = y.bytes)
    (hu : y.layer l = some u) :
    ∃ t, x.layer l = some t ∧ t.bytes = u.bytes ∧ t.shape = shape ∧ t.dtype = x.dtype := by
  obtain ⟨hl, -, -, hubytes⟩ := (Tensor.layer_eq_some hy).mp hu
  obtain ⟨t, ht⟩ := Tensor.exists_layer hx hl
  obtain ⟨-, htshape, htdtype, htbytes⟩ := (Tensor.layer_eq_some hx).mp ht
  have hwidth : x.layerBytes = y.layerBytes := by
    have hlength := congrArg List.length hbytes
    rw [Tensor.length_bytes_layers hx, Tensor.length_bytes_layers hy] at hlength
    exact Nat.eq_of_mul_eq_mul_left (Nat.lt_of_le_of_lt (Nat.zero_le l) hl) hlength
  exact ⟨t, ht, by rw [htbytes, hubytes, hwidth, hbytes], htshape, htdtype⟩

/-- A tensor of two halves. -/
theorem exists_keysAndValues {t : Tensor dt} {shape : List Nat} {f : Nat → List UInt8} {k : Nat}
    (hshape : t.shape = 2 :: shape) (hbytes : t.bytes = ofBlocks 2 f)
    (hlength : ∀ part < 2, (f part).length = k) :
    ∃ keys values, keysAndValues t = some (keys, values) ∧ keys.bytes = f 0 ∧
      values.bytes = f 1 := by
  obtain ⟨keys, hkeys⟩ := Tensor.exists_layer hshape (show 0 < 2 by decide)
  obtain ⟨values, hvalues⟩ := Tensor.exists_layer hshape (show 1 < 2 by decide)
  have hwidth : t.layerBytes = k := by
    have hlen := Tensor.length_bytes_layers hshape
    rw [hbytes, length_ofBlocks hlength] at hlen
    exact (Nat.eq_of_mul_eq_mul_left Nat.two_pos hlen).symm
  refine ⟨keys, values, ?_, ?_, ?_⟩
  · simp only [keysAndValues, hkeys, hvalues, Option.bind_eq_bind, Option.bind_some, Option.pure_def]
  · rw [((Tensor.layer_eq_some hshape).mp hkeys).2.2.2, hbytes, hwidth,
      block_ofBlocks hlength (by decide)]
  · rw [((Tensor.layer_eq_some hshape).mp hvalues).2.2.2, hbytes, hwidth,
      block_ofBlocks hlength (by decide)]

/-- The adapter sees six dimensions, of which the second is two. -/
theorem exists_stacked6d (haccepts : e.Accepts) {stacked : Tensor dt} {n : Nat}
    (hshape : stacked.shape = e.numLayers :: 2 :: n :: e.rest) :
    ∃ x b s hd d, e.adapter.stacked6d stacked = some x ∧ x.shape = [e.numLayers, 2, b, s, hd, d] ∧
      x.dtype = stacked.dtype ∧ x.bytes = stacked.bytes := by
  rcases haccepts with hrank | hflat
  · obtain ⟨s, hd, d, hrest⟩ := List.length_eq_three.mp hrank
    rw [hrest] at hshape
    refine ⟨stacked, n, s, hd, d, ?_, hshape, rfl, rfl⟩
    rw [Adapter.stacked6d, hshape]
  · rw [hflat] at hshape
    have hlength : stacked.bytes.length =
        [e.numLayers, 2, 1, n, e.adapter.numKvHeads, e.adapter.headSize].prod *
          dt.elementSize stacked.dtype := by
      rw [stacked.sized, hshape]
      simp only [List.prod_cons, List.prod_nil, Nat.one_mul, Nat.mul_one]
    refine ⟨⟨_, stacked.dtype, stacked.bytes, hlength⟩, 1, n, e.adapter.numKvHeads,
      e.adapter.headSize, ?_, rfl, rfl, rfl⟩
    rw [Adapter.stacked6d, hshape]
    exact Tensor.ofBytes_eq_some.mpr ⟨rfl, rfl, rfl⟩

/-! ### There and back -/

/-- The metadata `compress` hands to the manager of the request, and how `decompress` finds this
manager again. -/
theorem exists_extra {m : Manager dt S} (hm : compressorManager e.adapter e.profile = some m)
    {stacked x : Tensor dt} (hstacked : e.adapter.stacked6d stacked = some x) :
    ∃ extra : List (Key × Meta dt S), Manager.Extra x extra ∧
      Dict.get (.str "original_shape") extra = some (Manager.shapeList stacked) ∧
      e.adapter.compress e.codecLayout e.profile stacked e.requestId =
        m.compressAllLayers e.codecLayout x e.requestId extra ∧
      ∀ metadata : List (Key × Meta dt S), Dict.get (.str "ctrl_profile_cfg") metadata =
        Dict.get (.str "ctrl_profile_cfg") extra → e.adapter.managerFor metadata = some m := by
  obtain ⟨hdtype, -⟩ := Adapter.stacked6d_spec hstacked
  rw [compressorManager] at hm
  cases hmode : e.adapter.mode with
  | fixed manager =>
      rw [hmode] at hm
      cases hm
      refine ⟨_, Adapter.extra_metadata hdtype (Or.inl rfl), rfl, ?_, fun metadata _ => ?_⟩
      · simp only [Adapter.compress, hstacked, hmode, Option.bind_eq_bind, Option.bind_some]
      · rw [Adapter.managerFor, hmode]
  | controller managerOf =>
      rw [hmode] at hm
      obtain ⟨cfg, hcfg, rfl⟩ := Option.map_eq_some_iff.mp hm
      refine ⟨_, Adapter.extra_metadata hdtype (Or.inr ⟨cfg, rfl⟩), rfl, ?_, fun metadata heq => ?_⟩
      · simp only [Adapter.compress, hstacked, hmode, hcfg, Option.bind_eq_bind, Option.bind_some]
        rfl
      · have hget : Dict.get (.str "ctrl_profile_cfg") metadata = some (.dict cfg.entries) := heq
        rw [Adapter.managerFor, hmode]
        simp only [hget]

/-- What the code checks before it compresses: compression is enabled and the payload is large
enough; chunks hold layers, and so do the chunks of the wire. -/
structure Compresses (e : Path dt S) (m : Manager dt S) (n : Nat) : Prop where
  manager : compressorManager e.adapter e.profile = some m
  lossy : m.Lossy
  enabled : m.enabled = true
  large : m.minCompressSize ≤ e.numLayers * (2 * (n * e.blockBytes))
  chunks : 0 < m.chunkSize
  wire : 0 < e.maxChunkBytes
  layers : 0 < e.numLayers

variable [DecidableEq D]

/-- **The compressor and the wire** bring the restored layers, as bytes. -/
theorem exists_restored {m : Manager dt S} {n : Nat} (h : e.Compresses m n)
    {stacked x : Tensor dt} {b s hd d : Nat} {shape : List Nat}
    (hshape : stacked.shape = e.numLayers :: shape)
    (hstacked : e.adapter.stacked6d stacked = some x)
    (hx : x.shape = [e.numLayers, 2, b, s, hd, d]) (hbytes : x.bytes = stacked.bytes)
    (hsize : x.nbytes = e.numLayers * (2 * (n * e.blockBytes)))
    (htrips : ∀ l < e.numLayers, ∃ r, (x.layer l).bind (m.trip l) = some r) :
    ∃ c wire received restored,
      e.adapter.compress e.codecLayout e.profile stacked e.requestId = some c ∧
      buildWire c e.maxChunkBytes = some wire ∧ restoreFromWire e.strOf wire = some received ∧
      e.adapter.decompress received = some restored ∧ restored.shape = stacked.shape ∧
      restored.dtype = stacked.dtype ∧
      ∀ l < e.numLayers, ∃ r u, (x.layer l).bind (m.trip l) = some r ∧
        restored.layer l = some u ∧ u.bytes = r.restored.bytes := by
  obtain ⟨hdtype, -⟩ := Adapter.stacked6d_spec hstacked
  obtain ⟨extra, hextra, horiginal, hcompress, hmanager⟩ := exists_extra h.manager hstacked
  obtain ⟨c, x', hc, hcarried, hxshape, hxdtype, hlayers⟩ := @Manager.Lossy.carried _ _ _ m _
    e.numLayers x e.codecLayout extra h.lossy _ _ _ _ _ hx h.layers htrips h.enabled
    (hsize.symm ▸ h.large) h.chunks e.requestId hextra
  -- the restored layers in the shape of the stack
  have hlength : x'.bytes.length = stacked.shape.prod * dt.elementSize stacked.dtype := by
    rw [x'.sized, hxshape, hxdtype, ← x.sized, hbytes, stacked.sized]
  let restored : Tensor dt := ⟨stacked.shape, stacked.dtype, x'.bytes, hlength⟩
  have hview : x'.view restored.shape = some restored :=
    Tensor.ofBytes_eq_some.mpr ⟨rfl, (hxdtype.trans hdtype).symm, rfl⟩
  have hback : e.adapter.decompress c.listed = some restored :=
    Adapter.decompress_of_carried hcarried hview horiginal hmanager
  obtain ⟨wire, hwire⟩ := hcarried.wire e.maxChunkBytes h.wire
  refine ⟨c, wire, c.listed, restored, hcompress.trans hc, hwire, restoreFromWire_eq_listed e.strOf
    hwire hcarried.consistent hcarried.namesRequest hcarried.plain, hback, rfl, rfl,
    fun l hl => ?_⟩
  obtain ⟨r, hr, hrestored⟩ := hlayers l hl
  obtain ⟨u, hu, hubytes, -, -⟩ := layer_of_bytes (x := restored) hshape (hxshape.trans hx) rfl
    hrestored
  exact ⟨r, u, hr, hu, hubytes⟩

omit [DecidableEq D] in
/-- In the FlashAttention layout the restored layers go into the blocks of the consumer. -/
theorem exists_load (hflash : e.kvLayout = .flashAttention) {restored : Tensor dt} {n : Nat}
    (hshape : restored.shape = e.numLayers :: 2 :: n :: e.rest) (hdtype : restored.dtype = e.dtype)
    (hn : 0 < n) (hlength : idsD.length = n) (hids : ∀ b ∈ idsD, b < e.consumerBlocks)
    (hnd : idsD.Nodup) :
    ∃ caches, loadLayers restored (e.layersOf e.consumerBlocks dest) idsD = some caches ∧
      ∀ l < e.numLayers, ∀ u, restored.layer l = some u → ∃ cache, caches[l]? = some cache ∧
        (∀ i < n, ∀ part < 2, cache.get e.kvLayout.blockAxis (idsD.getD i 0) part =
          block e.blockBytes u.bytes (part * n + i)) ∧
        ∀ b < e.consumerBlocks, b ∉ idsD → ∀ part < 2,
          cache.get e.kvLayout.blockAxis b part = dest l b part := by
  have hne : idsD ≠ [] := List.length_pos_iff.mp (hlength.symm ▸ hn)
  have hload : ∀ l < e.numLayers, ∃ cache, (do
      let kvCacheLayer ← (e.layersOf e.consumerBlocks dest)[l]?
      let layer ← restored.layer l
      let kvData ← ofTensor layer
      injectKvIntoLayerByBlocks kvCacheLayer kvData idsD) = some cache ∧
      ∀ u, restored.layer l = some u →
        (∀ i < n, ∀ part < 2, cache.get e.kvLayout.blockAxis (idsD.getD i 0) part =
          block e.blockBytes u.bytes (part * n + i)) ∧
        ∀ b < e.consumerBlocks, b ∉ idsD → ∀ part < 2,
          cache.get e.kvLayout.blockAxis b part = dest l b part := by
    intro l hl
    obtain ⟨u, hu⟩ := Tensor.exists_layer hshape hl
    obtain ⟨-, hushape, hudtype, -⟩ := (Tensor.layer_eq_some hshape).mp hu
    have hwidth : e.rest.prod * u.itemsize = e.blockBytes := by
      rw [Tensor.itemsize, hudtype, hdtype, blockBytes]
    obtain ⟨cache, hinject, -, -, -, hat, hframe⟩ := @exists_inject _ .flashAttention
      e.consumerBlocks (dest l) idsD (fun i part => block e.blockBytes u.bytes (part * n + i)) n hne
      hids hnd (Nat.le_of_eq hlength.symm)
    have hdata : ofTensor u = some (ofAxis (KVLayout.flashAttention.tested e.consumerBlocks) n 2
        fun i part => block e.blockBytes u.bytes (part * n + i)) := by
      rw [ofTensor, hushape]
      simp only [hwidth]
      rfl
    refine ⟨cache, ?_, fun u' hu' => ?_⟩
    · rw [layersOf, List.getElem?_map, List.getElem?_range hl, hflash]
      simp only [Option.map_some, hu, hdata, Option.bind_eq_bind, Option.bind_some]
      exact hinject
    · obtain rfl := Option.some.inj (hu.symm.trans hu')
      rw [hflash]
      refine ⟨fun i hi part _ => hat i hi part, fun b _ hb part _ => ?_⟩
      rw [← hlength, List.take_length] at hframe
      exact hframe b hb part
  obtain ⟨caches, hcaches⟩ := exists_mapM_range fun l hl => (hload l hl).imp fun _ h => h.1
  obtain ⟨-, hget⟩ := mapM_range_eq_some.mp hcaches
  refine ⟨caches, ?_, fun l hl u hu => ?_⟩
  · rw [loadLayers, layersOf, List.length_map, List.length_range]
    exact hcaches
  · obtain ⟨cache, hcache, hspec⟩ := hload l hl
    exact ⟨cache, (hget l hl).symm.trans hcache, hspec u hu⟩

/-- **In the FlashAttention layout the compressed path delivers.** -/
theorem delivers_flashAttention {m : Manager dt S} {n : Nat} (h : e.Compresses m n)
    (haccepts : e.Accepts) (hflash : e.kvLayout = .flashAttention) (hn : 0 < n) :
    e.Delivers m n := by
  intro source dest idsP idsD hsource hlengthP hlengthD hidsP hidsD hnd
  obtain ⟨stacked, hstacked, hshape, hdtype, hlayer⟩ :=
    @exists_stackSaved _ _ dt e source idsP hsource hidsP h.layers
  have hdims : e.dims idsP.length = (2, n) := by
    rw [dims, hflash, hlengthP]
    rfl
  have hentry : ∀ l, (e.extracted source idsP l).entry =
      fun part i => source l (idsP.getD i 0) part := by
    intro l
    rw [extracted, hflash]
    rfl
  simp only [hdims, hentry] at hshape hlayer
  obtain ⟨x, b, s, hd, d, hx6, hx, hxdtype, hxbytes⟩ := exists_stacked6d haccepts hshape
  refine ⟨stacked, x, hstacked, hx6, fun l hl => ?_, fun htrips => ?_⟩
  · obtain ⟨u, hu, hubytes⟩ := hlayer l hl
    obtain ⟨t, ht, htbytes, htshape, -⟩ := layer_of_bytes hx hshape hxbytes hu
    have hparts : ∀ part < 2, (ofBlocks n fun i => source l (idsP.getD i 0) part).length =
        n * e.blockBytes := fun part _ => length_ofBlocks fun i _ => hsource l _ part
    obtain ⟨keys, values, hsplit, hkeys, hvalues⟩ :=
      exists_keysAndValues htshape (htbytes.trans hubytes) hparts
    exact ⟨t, keys, values, ht, by rw [htshape]; rfl, hsplit, hkeys, hvalues⟩
  · have hsize : x.nbytes = e.numLayers * (2 * (n * e.blockBytes)) := by
      rw [← Tensor.length_bytes, hxbytes, stacked.sized, hshape, hdtype, blockBytes]
      simp only [List.prod_cons, Nat.mul_assoc]
    obtain ⟨c, wire, received, restored, hc, hwire, hreceived, hrestored, hrshape, hrdtype,
      hrlayer⟩ := exists_restored h hshape hx6 hx hxbytes hsize htrips
    obtain ⟨caches, hcaches, hcache⟩ := @exists_load _ _ dt e dest idsD hflash restored n
      (hrshape.trans hshape) (hrdtype.trans hdtype) hn hlengthD hidsD hnd
    refine ⟨c, wire, received, restored, caches, hc, hwire, hreceived, hrestored, hcaches,
      fun l hl => ?_⟩
    obtain ⟨r, u, hr, hu, hubytes⟩ := hrlayer l hl
    obtain ⟨cache, hget, hat, hframe⟩ := hcache l hl u hu
    rw [hubytes] at hat
    exact ⟨r, cache, hr, hget, hat, hframe⟩

/-! ### The other layout -/

section Mla

omit [DecidableEq D]

variable {n k : Nat}

/-- Six dimensions of which the second is two come from a stack with this second dimension. -/
theorem second_of_stacked6d (haccepts : e.Accepts) (hlayers : 0 < e.numLayers)
    (hrest : 0 < e.rest.prod) {stacked x t : Tensor dt} (hk : 0 < k)
    (hshape : stacked.shape = e.numLayers :: n :: k :: e.rest)
    (hx : e.adapter.stacked6d stacked = some x) (ht : x.layer 0 = some t)
    (htwo : t.shape.head? = some 2) :
    n = 2 ∧ ∃ shape, x.shape = e.numLayers :: 2 :: shape ∧ x.bytes = stacked.bytes := by
  rcases haccepts with hrank | hflat
  · obtain ⟨s, hd, d, hthree⟩ := List.length_eq_three.mp hrank
    rw [Adapter.stacked6d, hshape, hthree] at hx
    obtain rfl := Option.some.inj hx
    obtain ⟨-, htshape, -, -⟩ := (Tensor.layer_eq_some hshape).mp ht
    rw [htshape] at htwo
    obtain rfl : n = 2 := Option.some.inj htwo
    exact ⟨rfl, _, hshape, rfl⟩
  · rw [Adapter.stacked6d, hshape, hflat] at hx
    obtain ⟨hxshape, hxdtype, hxbytes⟩ := Tensor.ofBytes_eq_some.mp hx
    refine ⟨?_, _, hxshape, hxbytes⟩
    -- as many bytes as the view has
    have hbytes : e.numLayers * (2 * (k * (e.rest.prod * dt.elementSize stacked.dtype))) =
        e.numLayers * (n * (k * (e.rest.prod * dt.elementSize stacked.dtype))) := by
      have hsized := x.sized
      rw [hxbytes, hxshape, hxdtype, stacked.sized, hshape] at hsized
      simp only [hflat, List.prod_cons, List.prod_nil, Nat.mul_one, Nat.one_mul,
        Nat.mul_assoc] at hsized ⊢
      exact hsized.symm
    have hwidth : 0 < k * (e.rest.prod * dt.elementSize stacked.dtype) :=
      Nat.mul_pos hk (Nat.mul_pos hrest (dt.elementSize_pos _))
    exact (Nat.eq_of_mul_eq_mul_right hwidth (Nat.eq_of_mul_eq_mul_left hlayers hbytes)).symm

/-- Keys of zeros and values of ones. -/
def zerosAndOnes (e : Path dt S) (_layer _block part : Nat) : List UInt8 :=
  List.replicate e.blockBytes (if part = 0 then 0 else 1)

theorem length_zerosAndOnes (l b part : Nat) :
    (e.zerosAndOnes l b part).length = e.blockBytes :=
  List.length_replicate

theorem zerosAndOnes_ne (hwidth : 0 < e.blockBytes) (l b b' : Nat) :
    e.zerosAndOnes l b 0 ≠ e.zerosAndOnes l b' 1 := by
  intro h
  have hhead := List.replicate_inj.mp h
  rcases hhead.2 with hzero | hbyte
  · exact absurd hzero (Nat.ne_of_gt hwidth)
  · exact absurd hbyte (by decide)

/-- Two runs of blocks that are equal agree in every block. -/
theorem entry_of_ofBlocks {f g : Nat → List UInt8} {w i : Nat} (hf : ∀ i, (f i).length = w)
    (hg : ∀ i, (g i).length = w) (h : ofBlocks n f = ofBlocks n g) (hi : i < n) : f i = g i := by
  rw [← block_ofBlocks (fun i _ => hf i) hi, h, block_ofBlocks (fun i _ => hg i) hi]

/-- **In the MLA layout the layers are split elsewhere**: the quantizer takes the first block
for the keys and the second for the values, unless two blocks were cut out as if they were
keys and values. -/
theorem not_splits_mla (haccepts : e.Accepts) (hmla : e.kvLayout = .mla)
    (hlayers : 0 < e.numLayers) (hrest : 0 < e.rest.prod) (hn : 0 < n) {stacked x : Tensor dt}
    (hids : ∀ b ∈ List.replicate n 0, b < e.producerBlocks)
    (hstacked : stackSaved e.rest e.dtype (e.layersOf e.producerBlocks e.zerosAndOnes)
      (List.replicate n 0) = some stacked)
    (hx : e.adapter.stacked6d stacked = some x) :
    ¬ e.SplitsKeysValues n e.zerosAndOnes (List.replicate n 0) x := by
  intro hsplits
  obtain ⟨t, keys, values, ht, htwo, hsplit, hkeys, hvalues⟩ := hsplits 0 hlayers
  obtain ⟨stacked', hstacked', hshape, -, hlayer⟩ :=
    @exists_stackSaved _ _ dt e e.zerosAndOnes (List.replicate n 0) length_zerosAndOnes hids hlayers
  obtain rfl := Option.some.inj (hstacked.symm.trans hstacked')
  have hwidth : 0 < e.blockBytes := Nat.mul_pos hrest (dt.elementSize_pos _)
  obtain ⟨u, hu, hubytes⟩ := hlayer 0 hlayers
  have hentry := fun i j => @length_extracted _ _ dt e e.zerosAndOnes (List.replicate n 0)
    length_zerosAndOnes 0 i j
  rw [List.length_replicate] at hshape hubytes
  -- the halves of the layer are rows of what was cut out
  have hhalves : 0 < (e.dims n).2 → (e.dims n).1 = 2 ∧
      ofBlocks (e.dims n).2 ((e.extracted e.zerosAndOnes (List.replicate n 0) 0).entry 0) =
        ofBlocks n (fun i => e.zerosAndOnes 0 ((List.replicate n 0).getD i 0) 0) ∧
      ofBlocks (e.dims n).2 ((e.extracted e.zerosAndOnes (List.replicate n 0) 0).entry 1) =
        ofBlocks n (fun i => e.zerosAndOnes 0 ((List.replicate n 0).getD i 0) 1) := by
    intro hpos
    obtain ⟨hdim, shape, hxshape, hxbytes⟩ :=
      second_of_stacked6d haccepts hlayers hrest hpos hshape hx ht htwo
    obtain ⟨t', ht', htbytes, htshape, -⟩ := layer_of_bytes hxshape hshape hxbytes hu
    obtain rfl := Option.some.inj (ht.symm.trans ht')
    rw [hubytes, hdim] at htbytes
    obtain ⟨keys', values', hsplit', hkeys', hvalues'⟩ :=
      exists_keysAndValues htshape htbytes fun part _ =>
        length_ofBlocks (w := e.blockBytes) fun j _ => hentry part j
    obtain ⟨rfl, rfl⟩ := Prod.mk.inj (Option.some.inj (hsplit.symm.trans hsplit'))
    exact ⟨hdim, hkeys'.symm.trans hkeys, hvalues'.symm.trans hvalues⟩
  by_cases htested : e.producerBlocks = 2
  · -- two blocks: the second block of the keys is taken for the values
    have htest : e.kvLayout.tested e.producerBlocks = .one := by
      rw [hmla, htested]
      rfl
    have hdims : e.dims n = (2, n) := by
      rw [dims, htest]
    rw [hdims] at hhalves
    obtain ⟨-, -, hones⟩ := hhalves hn
    have hfirst := entry_of_ofBlocks (hentry 1) (fun i => length_zerosAndOnes _ _ _) hones hn
    have hseen : (e.extracted e.zerosAndOnes (List.replicate n 0) 0).entry 1 0 =
        e.zerosAndOnes 0 1 ((List.replicate n 0).getD 0 0) := by
      rw [extracted, htest, hmla, htested]
      rfl
    rw [hseen, List.getD_replicate 0 hn] at hfirst
    exact zerosAndOnes_ne hwidth 0 1 0 hfirst
  · -- the values of the first block are taken for the keys of the second
    have htest : e.kvLayout.tested e.producerBlocks = .zero := by
      rw [hmla]
      exact if_neg htested
    have hdims : e.dims n = (n, 2) := by
      rw [dims, htest]
    rw [hdims] at hhalves
    obtain ⟨rfl, hzeros, -⟩ := hhalves Nat.two_pos
    have hsecond := entry_of_ofBlocks (hentry 0) (fun i => length_zerosAndOnes _ _ _) hzeros
      (show 1 < 2 by decide)
    have hseen : (e.extracted e.zerosAndOnes (List.replicate 2 0) 0).entry 0 1 =
        e.zerosAndOnes 0 0 1 := by
      have haxis : e.kvLayout.tested e.producerBlocks = e.kvLayout.blockAxis := by
        rw [htest, hmla]
        rfl
      rw [extracted, htest]
      show e.kvLayout.seen _ _ _ _ = _
      rw [KVLayout.seen, if_pos haxis]
      rfl
    rw [hseen] at hsecond
    exact zerosAndOnes_ne hwidth 0 _ 0 hsecond.symm

end Mla

omit [DecidableEq D] in
/-- The adapter takes stacks of six dimensions and of four. -/
theorem rank_of_stacked6d {stacked x : Tensor dt} {a b c : Nat} {rest : List Nat}
    (hshape : stacked.shape = a :: b :: c :: rest) (hx : e.adapter.stacked6d stacked = some x) :
    rest.length = 3 ∨ rest.length = 1 := by
  rw [Adapter.stacked6d, hshape] at hx
  split at hx
  · next hsix =>
      cases hsix
      exact Or.inl rfl
  · next hfour =>
      cases hfour
      exact Or.inr rfl
  · cases hx

/-- **The compressed path delivers in the FlashAttention layout only**, for layers of the ranks
the adapter takes; `hheads` is the width of a token with its heads flattened. -/
theorem delivers_iff {m : Manager dt S} {n : Nat} (h : e.Compresses m n)
    (hheads : e.rest.length = 1 → e.rest = [e.adapter.numKvHeads * e.adapter.headSize])
    (hrest : 0 < e.rest.prod) (hn : 0 < n) (hproducer : 0 < e.producerBlocks)
    (hconsumer : n ≤ e.consumerBlocks) :
    e.Delivers m n ↔
      e.kvLayout = .flashAttention ∧ (e.rest.length = 3 ∨ e.rest.length = 1) := by
  constructor
  · intro hdelivers
    have hids : ∀ b ∈ List.replicate n 0, b < e.producerBlocks := by
      intro b hb
      rw [(List.mem_replicate.mp hb).2]
      exact hproducer
    obtain ⟨stacked, x, hstacked, hx, hsplits, -⟩ := hdelivers e.zerosAndOnes e.zerosAndOnes
      (List.replicate n 0) (List.range n) length_zerosAndOnes List.length_replicate
      List.length_range hids
      (fun b hb => Nat.lt_of_lt_of_le (List.mem_range.mp hb) hconsumer) List.nodup_range
    obtain ⟨stacked', hstacked', hshape, -⟩ :=
      @exists_stackSaved _ _ dt e e.zerosAndOnes _ length_zerosAndOnes hids h.layers
    obtain rfl := Option.some.inj (hstacked.symm.trans hstacked')
    have hrank := rank_of_stacked6d hshape hx
    refine ⟨?_, hrank⟩
    cases hlayout : e.kvLayout with
    | flashAttention => rfl
    | mla =>
        exact absurd hsplits
          (not_splits_mla (hrank.imp id hheads) hlayout h.layers hrest hn hids hstacked hx)
  · rintro ⟨hflash, hrank⟩
    exact delivers_flashAttention h (hrank.imp id hheads) hflash hn

end Path

/-! ### Two workers -/

/-- A quantizer that keeps the upper seven bits of every byte. -/
def halvingManager : Manager .sample Unit where
  pipeline := [.quantizer, .codec]
  chunkThresholdBytes := 0
  chunkSize := 2
  device := "cuda:0"
  bfloat16 := .float32
  cast _ t := t
  transform _ _ := none
  inverse _ _ := none
  quantize _ t := some (⟨t.shape, t.dtype, t.bytes.map (· / 2), by simpa using t.sized⟩, .dict [])
  supportsOutBuffer := false
  quantizeOut _ _ := none
  dequantize _ t _ := some ⟨t.shape, t.dtype, t.bytes.map (2 * ·), by simpa using t.sized⟩
  encode _ t := .ok t.bytes
  decode _ t name shape _ :=
    (DTypes.sample.byName name).bind fun dtype => Tensor.ofBytes shape dtype t.bytes

theorem halvingManager_lossy : halvingManager.Lossy where
  quantizes := rfl
  cast_self _ := rfl
  shape_transform h := nomatch h
  dtype_transform h := nomatch h
  inverse_transform h := nomatch h
  shape_quantize h := by
    obtain ⟨rfl, -⟩ := Prod.mk.inj (Option.some.inj h)
    rfl
  dtype_quantize h h' hdtype := by
    obtain ⟨rfl, -⟩ := Prod.mk.inj (Option.some.inj h)
    obtain ⟨rfl, -⟩ := Prod.mk.inj (Option.some.inj h')
    exact hdtype
  isParams_quantize h := by
    obtain ⟨-, rfl⟩ := Prod.mk.inj (Option.some.inj h)
    exact ⟨_, rfl, rfl⟩
  dequantize_quantize h h' := by
    obtain ⟨rfl, rfl⟩ := Prod.mk.inj (Option.some.inj h)
    obtain rfl := Option.some.inj h'
    exact ⟨rfl, rfl⟩
  shape_quantizeOut h := nomatch h
  dtype_quantizeOut h := nomatch h
  isParams_quantizeOut h := nomatch h
  dequantize_quantizeOut h := nomatch h
  decode_encode {id t bytes} h id' device := by
    obtain rfl := Except.ok.inj h
    show (DTypes.sample.byName (DTypes.sample.name t.dtype)).bind _ = _
    rw [DTypes.sample.byName_name]
    exact Tensor.ofBytes_bytes t

/-- Two layers of blocks of two bytes: one token of one head. -/
def samplePath (kvLayout : KVLayout) : Path .sample Unit where
  adapter := ⟨1, 2, .fixed halvingManager⟩
  codecLayout := .permuted
  profile := none
  requestId := "r"
  strOf _ := ""
  maxChunkBytes := 4
  kvLayout := kvLayout
  dtype := .uint8
  rest := [1, 1, 2]
  numLayers := 2
  producerBlocks := 4
  consumerBlocks := 5

theorem delivers_samplePath :
    (samplePath .flashAttention).Delivers halvingManager 3 ↔
      KVLayout.flashAttention = .flashAttention ∧ ([1, 1, 2].length = 3 ∨ [1, 1, 2].length = 1) :=
  (samplePath .flashAttention).delivers_iff
    ⟨rfl, halvingManager_lossy, rfl, by decide, by decide, by decide, by decide⟩
    (by decide) (by decide) (by decide) (by decide) (by decide)

/-- In the MLA layout three blocks are cut out as three pairs, and the quantizer takes the pair
of the first block for the keys and that of the second for the values. -/
theorem samplePath_mla :
    ((stackSaved [1, 1, 2] SampleDType.uint8 ((samplePath .mla).layersOf 4 fun l b part =>
        [UInt8.ofNat (100 * l + 10 * b + part), 0]) [0, 1, 3] : Option (Tensor .sample)).bind
      fun stacked => ((samplePath .mla).adapter.stacked6d stacked).bind fun x =>
        (x.layer 0).bind fun t => (keysAndValues t).map fun kv =>
          (t.shape, kv.1.bytes, kv.2.bytes)) =
      some ([3, 2, 1, 1, 2], [0, 0, 1, 0], [10, 0, 11, 0]) ∧
    ¬ (samplePath .mla).Delivers halvingManager 3 := by
  refine ⟨by decide +kernel, fun hdelivers => ?_⟩
  have hids : ∀ b ∈ List.replicate 3 0, b < (samplePath .mla).producerBlocks := by decide
  obtain ⟨stacked, x, hstacked, hx, hsplits, -⟩ := hdelivers (samplePath .mla).zerosAndOnes
    (samplePath .mla).zerosAndOnes (List.replicate 3 0) (List.range 3) Path.length_zerosAndOnes rfl
    rfl hids (by decide) (by decide)
  exact Path.not_splits_mla (Or.inl rfl) rfl (by decide) (by decide) (by decide) hids hstacked hx
    hsplits

end KVServe.Connector

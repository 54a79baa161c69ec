import KVServe.Compression.RoundTrip

/-!
# KVServe.Compression.Adapter

`KVCompressionAdapter`: the stacked tensor is viewed as six-dimensional, compressed by
the manager of the configuration or of the profile the controller selected, and viewed
back after decompression. The **adapter round trip** goes through the wire format.

What decompression reads is in the metadata, written under string keys by several
functions. `Sealed` collects what it finds there; `quantization_params` is the only
entry with tensors in it (`Clean`), so the wire accepts the metadata.
-/

namespace KVServe.Compression

variable {D S : Type} {dt : DTypes D}

/-! ### The adapter -/

namespace Tensor

/-- `.contiguous().view(shape)`. -/
def view (shape : List Nat) (t : Tensor dt) : Option (Tensor dt) := ofBytes shape t.dtype t.bytes

/-- `torch.cat(ts, dim=0)`. -/
def cat [DecidableEq D] : List (Tensor dt) → Option (Tensor dt)
  | [] => none
  | t :: ts =>
      if ts.all fun u => u.shape.tail = t.shape.tail ∧ u.dtype = t.dtype then do
        let sizes ← (t :: ts).mapM (·.shape.head?)
        ofBytes (sizes.sum :: t.shape.tail) t.dtype ((t :: ts).flatMap (·.bytes))
      else none

end Tensor

/-- `profile.compression_config`, read from a JSON library. -/
structure ProfileConfig (dt : DTypes D) (S : Type) where
  entries : List (Key × Meta dt S)
  noTensor : (Value.dict entries).noTensor = true

/-- `KVCompressionAdapter`: with a manager for its configuration, or in controller mode,
where a manager is built for each profile's configuration. -/
inductive Adapter.Mode (dt : DTypes D) (S : Type)
  | fixed (manager : Manager dt S)
  | controller (managerOf : Meta dt S → Manager dt S)

structure Adapter (dt : DTypes D) (S : Type) where
  numKvHeads : Nat
  headSize : Nat
  mode : Adapter.Mode dt S

namespace Adapter

/-- The six-dimensional view; other ranks raise. -/
def stacked6d (a : Adapter dt S) (x : Tensor dt) : Option (Tensor dt) :=
  match x.shape with
  | [_, _, _, _, _, _] => some x
  | [numLayers, _, numTokens, _] => x.view [numLayers, 2, 1, numTokens, a.numKvHeads, a.headSize]
  | _ => none

/-- `compress`. `profile` is the configuration of the profile that the controller selects
for this request, if it selects one. -/
def compress (a : Adapter dt S) (layout : CodecLayout) (profile : Option (ProfileConfig dt S))
    (x : Tensor dt) (requestId : String) : Option (CompressedKVData dt S) := do
  let metadata := [(.str "original_dtype", Manager.dtypeName x),
    (.str "original_shape", Manager.shapeList x)]
  let stacked ← a.stacked6d x
  match a.mode with
  | .fixed manager => manager.compressAllLayers layout stacked requestId metadata
  | .controller managerOf =>
      let cfg ← profile
      (managerOf (.dict cfg.entries)).compressAllLayers layout stacked requestId
        (Dict.set (.str "ctrl_profile_cfg") (.dict cfg.entries) metadata)

/-- One tensor, or the chunks put together. -/
def result [DecidableEq D] : Manager.Restored dt → Option (Tensor dt)
  | .whole t => some t
  | .chunks ts => Tensor.cat ts

/-- The manager that decompresses. -/
def managerFor (a : Adapter dt S) (metadata : List (Key × Meta dt S)) :
    Option (Manager dt S) :=
  match a.mode with
  | .fixed manager => some manager
  | .controller managerOf =>
      match Dict.get (.str "ctrl_profile_cfg") metadata with
      | none | some .null => none
      | some cfg => some (managerOf cfg)

/-- `result.contiguous().view(...)`. -/
def viewBack (a : Adapter dt S) (metadata : List (Key × Meta dt S)) (result : Tensor dt) :
    Option (Tensor dt) :=
  match Dict.get (.str "original_shape") metadata with
  | none | some .null => do
      let numLayers ← result.shape.head?
      let kvDim := a.numKvHeads * a.headSize
      -- the dimension `-1` stands for
      if numLayers * 2 * kvDim = 0 then none
      else result.view [numLayers, 2, result.shape.prod / (numLayers * 2 * kvDim), kvDim]
  | some shape => (Manager.shapeOf shape).bind fun shape => result.view shape

/-- `decompress`. -/
def decompress [DecidableEq D] (a : Adapter dt S) (c : CompressedKVData dt S) :
    Option (Tensor dt) :=
  match c.metadata with
  | .dict metadata => do
      let manager ← a.managerFor metadata
      let restored ← manager.decompressAllLayers c
      let result ← result restored
      a.viewBack metadata result
  | _ => none

end Adapter

/-! ### Metadata -/

namespace Manager

/-- The key of the only entry with tensors in it. -/
def qparamsKey : Key := .str "quantization_params"

/-- A dict whose other entries hold no tensor. -/
structure Clean (metadata : List (Key × Meta dt S)) : Prop where
  nodup : (metadata.map Prod.fst).Nodup
  noTensor : ∀ entry ∈ metadata, entry.1 ≠ qparamsKey → entry.2.noTensor = true

variable {metadata base more : List (Key × Meta dt S)} {k : Key} {v : Meta dt S}

theorem Clean.set (h : Clean metadata) (hv : k ≠ qparamsKey → v.noTensor = true) :
    Clean (Dict.set k v metadata) := by
  refine ⟨Dict.nodup_set h.nodup, fun entry hmem hne => ?_⟩
  rcases Dict.mem_set h.nodup hmem with rfl | hother
  · exact hv hne
  · exact h.noTensor entry hother.1 hne

theorem Clean.update (h : Clean base) (hmore : ∀ entry ∈ more, entry.2.noTensor = true) :
    Clean (update base more) := by
  induction more generalizing base with
  | nil => exact h
  | cons entry more ih =>
      exact ih (h.set fun _ => hmore entry List.mem_cons_self) fun entry hmem =>
        hmore entry (List.mem_cons_of_mem _ hmem)

/-- The wire takes clean metadata. -/
theorem Clean.noTensor_packMetadata (h : Clean metadata) (aux : List (Tensor dt)) :
    ((Value.dict metadata).packMetadata aux).1.noTensor = true := by
  cases hq : Dict.get (.str "quantization_params") metadata with
  | some q =>
      simp only [Value.packMetadata, hq, Value.noTensor]
      refine Value.noTensorEntries_of_forall fun entry hmem => ?_
      rcases Dict.mem_set h.nodup hmem with rfl | hother
      · exact Value.noTensor_packQparams q aux
      · exact h.noTensor entry hother.1 hother.2
  | none =>
      simp only [Value.packMetadata, hq, Value.noTensor]
      exact Value.noTensorEntries_of_forall fun entry hmem =>
        h.noTensor entry hmem (Dict.ne_of_get_eq_none hq hmem)

/-- The keys the stages write. -/
def stageKeys : List Key :=
  ["codec_layout", "transformer_applied", "quantization_applied", "quantization_params",
    "codec_shape", "codec_dtype", "codec_applied", "codec_skipped", "codec_error",
    "compressed_size"].map .str

variable {m : Manager dt S} {layout : CodecLayout} {buffer : Tensor dt}
  {params : List (Meta dt S)}

theorem get_stageMetadata_of_not_mem (hk : k ∉ stageKeys) :
    Dict.get k (m.stageMetadata layout buffer params metadata) = Dict.get k metadata := by
  simp only [stageKeys, List.map_cons, List.map_nil, List.mem_cons, not_or] at hk
  simp only [stageMetadata]
  split <;> split <;> simp [Dict.get_set, Ne.symm hk.1, hk.2, eq_comm]

theorem get_stageMetadata :
    Dict.get (.str "codec_layout") (m.stageMetadata layout buffer params metadata) =
        some (.str layout.name) ∧
      Dict.get (.str "codec_dtype") (m.stageMetadata layout buffer params metadata) =
        some (dtypeName buffer) ∧
      Dict.get (.str "codec_shape") (m.stageMetadata layout buffer params metadata) =
        some (shapeList buffer) ∧
      Dict.get (.str "codec_applied") (m.stageMetadata layout buffer params metadata) =
        Dict.get (.str "codec_applied") metadata ∧
      Dict.get (.str "quantization_params") (m.stageMetadata layout buffer params metadata) =
        if m.has .quantizer then some (.list params)
        else Dict.get (.str "quantization_params") metadata := by
  simp only [stageMetadata]
  split <;> split <;> simp [Dict.get_set]

theorem natOf_int (n : Nat) : natOf (.int n : Meta dt S) = some n := by simp [natOf]

theorem shapeOf_shapeList : shapeOf (shapeList buffer : Meta dt S) = some buffer.shape := by
  rw [shapeList, shapeOf, List.mapM_map]
  refine mapM_eq_some.mpr ⟨rfl, fun i => ?_⟩
  cases buffer.shape[i]? with
  | none => rfl
  | some n => exact @natOf_int _ S dt n

/-- **The codec step.** Encoded or left as it is, the buffer is found again from what the
metadata says. -/
theorem handleCodec_spec (h : m.Exact) (layerId : Nat)
    (hunset : Dict.get (.str "codec_applied") metadata = none) :
    (∃ bytes, (m.handleCodecCompression buffer metadata layerId).1 = .ofU8 bytes) ∧
    (∀ k, k ∉ stageKeys ∨ k ∈ [.str "codec_layout", .str "codec_dtype", .str "codec_shape",
      qparamsKey] → Dict.get k (m.handleCodecCompression buffer metadata layerId).2 =
        Dict.get k metadata) ∧
    ∀ back : List (Key × Meta dt S), ∀ device id,
      Dict.get (.str "codec_dtype") back = some (dtypeName buffer) →
      Dict.get (.str "codec_shape") back = some (shapeList buffer) →
      Dict.get (.str "device") back = some (.str device) →
      Dict.get (.str "codec_applied") back =
        Dict.get (.str "codec_applied") (m.handleCodecCompression buffer metadata layerId).2 →
      m.handleCodecDecompression (m.handleCodecCompression buffer metadata layerId).1 back id =
        some buffer := by
  have hraw : ∀ back : List (Key × Meta dt S), ∀ id,
      Dict.get (.str "codec_dtype") back = some (dtypeName buffer) →
      Dict.get (.str "codec_shape") back = some (shapeList buffer) →
      (m.has .codec && flag "codec_applied" back) = false →
      m.handleCodecDecompression (.ofU8 buffer.bytes) back id = some buffer := by
    intro back id hdtype hshape hflag
    simp [handleCodecDecompression, hdtype, hshape, dtypeName, textOf, shapeOf_shapeList, hflag,
      dt.byName_name]
  have hother : ∀ {k k' : Key}, k' ∈ stageKeys → k' ∉ [Key.str "codec_layout",
      .str "codec_dtype", .str "codec_shape", qparamsKey] → (k ∉ stageKeys ∨
      k ∈ [Key.str "codec_layout", .str "codec_dtype", .str "codec_shape", qparamsKey]) →
      k' ≠ k := by
    rintro k k' hmem hmem' hk rfl
    rcases hk with hk | hk
    · exact hk hmem
    · exact hmem' hk
  unfold handleCodecCompression
  by_cases hcodec : m.has .codec = true
  · rw [if_pos hcodec]
    cases hencode : m.encode layerId buffer with
    | ok bytes =>
        refine ⟨⟨bytes, rfl⟩, fun k hk => Dict.get_set_ne (hother (by decide) (by decide) hk),
          fun back device id hdtype hshape hdevice happlied => ?_⟩
        simp only [Dict.get_set_self] at happlied
        simp [handleCodecDecompression, hdtype, hshape, hdevice, dtypeName, textOf,
          shapeOf_shapeList, hcodec, flag, happlied, h.decode_encode hencode]
    | error message =>
        refine ⟨⟨_, rfl⟩, fun k hk => ?_, fun back device id hdtype hshape hdevice happlied => ?_⟩
        · rw [Dict.get_set_ne (hother (by decide) (by decide) hk),
            Dict.get_set_ne (hother (by decide) (by decide) hk)]
        · rw [Dict.get_set_ne (by decide), Dict.get_set_ne (by decide), hunset] at happlied
          exact hraw back id hdtype hshape (by simp [flag, happlied])
  · rw [if_neg hcodec]
    refine ⟨⟨_, rfl⟩, fun k hk => rfl, fun back device id hdtype hshape hdevice happlied => ?_⟩
    exact hraw back id hdtype hshape (by simp [hcodec])

/-! ### One buffer -/

theorem listedItems_eq_map (items : List (Meta dt S)) :
    Value.listedItems items = items.map Value.listed := by
  induction items with
  | nil => rfl
  | cons v rest ih => rw [Value.listedItems, List.map_cons, ih]

/-- The metadata off the wire: the quantization parameters are listed, the rest is kept. -/
theorem listedMetadata_dict (metadata : List (Key × Meta dt S)) :
    ∃ back, (Value.dict metadata).listedMetadata = .dict back ∧
      (∀ k ≠ qparamsKey, Dict.get k back = Dict.get k metadata) ∧
      Dict.get qparamsKey back = (Dict.get qparamsKey metadata).map Value.listed := by
  cases hq : Dict.get (.str "quantization_params") metadata with
  | none =>
      refine ⟨metadata, by simp only [Value.listedMetadata, hq], fun k _ => rfl, ?_⟩
      rw [qparamsKey, hq]
      rfl
  | some q =>
      refine ⟨Dict.set (.str "quantization_params") q.listed metadata,
        by simp only [Value.listedMetadata, hq], fun k hk => Dict.get_set_ne hk.symm, ?_⟩
      rw [qparamsKey, hq, Dict.get_set_self]
      rfl

/-- What the metadata holds before the layers are processed. -/
structure Base (x : Tensor dt) (metadata : List (Key × Meta dt S)) : Prop where
  clean : Clean metadata
  originalDtype : Dict.get (.str "original_dtype") metadata = some (dtypeName x)
  device : ∃ device, Dict.get (.str "device") metadata = some (.str device)
  unset : ∀ k ∈ stageKeys, Dict.get k metadata = none

/-- A compressed buffer with its metadata, off the wire: it decompresses to `x`, and what
was in the metadata before is still there. -/
structure Sealed (m : Manager dt S) (start count : Nat) (x tensor : Tensor dt)
    (base metadata : List (Key × Meta dt S)) : Prop where
  bytes : ∃ bytes, tensor = .ofU8 bytes
  clean : Clean metadata
  plain : (Value.dict metadata).PlainMetadata = true
  kept : ∀ k ∉ stageKeys, Dict.get k metadata = Dict.get k base
  back : ∃ back, (Value.dict metadata).listedMetadata = .dict back ∧
    (∀ k ∉ stageKeys, Dict.get k back = Dict.get k base) ∧
    m.decompressLayers start count tensor back = some x

theorem isAuxPlaceholder_params (h : ∀ p ∈ params, IsParams p) :
    Value.isAuxPlaceholder params = false := by
  unfold Value.isAuxPlaceholder
  split
  · rename_i s v
    obtain ⟨entries, heq, -⟩ := h (.str s) List.mem_cons_self
    cases heq
  · rfl

theorem plainItems_params (h : ∀ p ∈ params, IsParams p) : Value.PlainItems params = true := by
  induction params with
  | nil => rfl
  | cons p params ih =>
      obtain ⟨-, -, hp⟩ := h p List.mem_cons_self
      rw [Value.PlainItems, hp, ih fun p hmem => h p (List.mem_cons_of_mem _ hmem)]
      rfl

variable {start count : Nat} {x tensor : Tensor dt}

theorem noTensor_shapeList (t : Tensor dt) : (shapeList t : Meta dt S).noTensor = true := by
  simp only [shapeList, Value.noTensor]
  induction t.shape with
  | nil => rfl
  | cons n shape ih => simpa [Value.noTensorItems, Value.noTensor] using ih

theorem clean_stageMetadata (h : Clean metadata) :
    Clean (m.stageMetadata layout buffer params metadata) := by
  have hlayout : Clean (Dict.set (.str "codec_layout") (.str layout.name) metadata) :=
    h.set fun _ => rfl
  simp only [stageMetadata]
  refine Clean.set (Clean.set ?_ fun _ => noTensor_shapeList buffer) fun _ => rfl
  split <;> split
  · exact ((hlayout.set fun _ => rfl).set fun _ => rfl).set fun hne => absurd rfl hne
  · exact (hlayout.set fun _ => rfl).set fun hne => absurd rfl hne
  · exact hlayout.set fun _ => rfl
  · exact hlayout

theorem clean_handleCodec (h : Clean metadata) (layerId : Nat) :
    Clean (m.handleCodecCompression buffer metadata layerId).2 := by
  unfold handleCodecCompression
  split
  · split
    · exact h.set fun _ => rfl
    · exact (h.set fun _ => rfl).set fun _ => rfl
  · exact h

/-- **One buffer, compressed and restored.** -/
theorem sealed_of_compressLayers (h : m.Exact) {two b s hd d : Nat}
    (hx : x.shape = [count, two, b, s, hd, d]) (hbase : Base x base)
    (hc : m.compressLayers layout start x base = some (tensor, metadata)) :
    m.Sealed start count x tensor base metadata := by
  unfold compressLayers at hc
  simp only [hx, List.head?_cons, Option.bind_eq_bind, Option.bind_some] at hc
  obtain ⟨⟨buffer, params⟩, hbuffer, hc⟩ := Option.bind_eq_some_iff.mp hc
  obtain ⟨rfl, rfl⟩ := Prod.mk.inj (Option.some.inj hc)
  obtain ⟨hpacked, hparams⟩ := processLayers_packed h hx hbuffer
  obtain ⟨hlayout, hcodecDtype, hshape, happlied, hquantParams⟩ :=
    @get_stageMetadata _ _ _ base m layout buffer params
  obtain ⟨hbytes, hkept, hdecode⟩ := handleCodec_spec h (start + count - 1)
    (happlied.trans (hbase.unset _ (by decide)))
  have hstage : Clean (m.stageMetadata layout buffer params base) :=
    clean_stageMetadata hbase.clean
  have hclean : Clean (m.handleCodecCompression buffer (m.stageMetadata layout buffer params base)
    (start + count - 1)).2 := clean_handleCodec hstage _
  generalize m.handleCodecCompression buffer (m.stageMetadata layout buffer params base)
    (start + count - 1) = r at hbytes hkept hdecode hclean ⊢
  -- what decompression finds, off the wire
  have hsealed : ∀ k, k ≠ .str "compressed_size" →
      Dict.get k (Dict.set (.str "compressed_size") (.int r.1.nbytes) r.2) = Dict.get k r.2 :=
    fun k hk => Dict.get_set_ne hk.symm
  obtain ⟨back, hback, hother, hq⟩ := listedMetadata_dict
    (Dict.set (.str "compressed_size") (.int r.1.nbytes) r.2)
  have hfind : ∀ k, k ≠ qparamsKey → k ≠ .str "compressed_size" → k ∉ stageKeys ∨
      k ∈ [.str "codec_layout", .str "codec_dtype", .str "codec_shape", qparamsKey] →
      Dict.get k back = Dict.get k (m.stageMetadata layout buffer params base) :=
    fun k hne hne' hk => by rw [hother k hne, hsealed k hne', hkept k hk]
  have hnew : ∀ k ∉ stageKeys, Dict.get k
      (Dict.set (.str "compressed_size") (.int r.1.nbytes) r.2) = Dict.get k base := fun k hk => by
    rw [hsealed k fun heq => hk (heq ▸ by decide), hkept k (Or.inl hk),
      get_stageMetadata_of_not_mem hk]
  have hold : ∀ k ∉ stageKeys, Dict.get k back = Dict.get k base := fun k hk =>
    (hother k fun heq => hk (heq ▸ by decide)).trans (hnew k hk)
  have hqget : Dict.get qparamsKey (Dict.set (.str "compressed_size") (.int r.1.nbytes) r.2) =
      if m.has .quantizer then some (.list params) else none := by
    rw [hsealed _ (by decide), hkept _ (Or.inr (by simp)), qparamsKey, hquantParams,
      hbase.unset _ (by decide)]
  obtain ⟨device, hdevice⟩ := hbase.device
  refine ⟨hbytes, hclean.set fun _ => rfl, ?_, hnew, back, hback, hold, ?_⟩
  · unfold Value.PlainMetadata
    rw [qparamsKey] at hqget
    by_cases hquant : m.has .quantizer = true
    · simp [hqget, hquant, Value.Plain, isAuxPlaceholder_params (hparams hquant),
        plainItems_params (hparams hquant)]
    · simp [hqget, hquant]
  · refine decompressLayers_of_packed h hx hpacked ?_ ?_ ?_ fun hquant i => ?_
    · refine hdecode back device start ?_ ?_ ?_ ?_
      · rw [hfind _ (by decide) (by decide) (Or.inr (by simp)), hcodecDtype]
      · rw [hfind _ (by decide) (by decide) (Or.inr (by simp)), hshape]
      · rw [hold _ (by decide), hdevice]
      · rw [hother _ (by decide), hsealed _ (by decide)]
    · rw [hfind _ (by decide) (by decide) (Or.inr (by simp)), hlayout]
    · rw [hold _ (by decide), hbase.originalDtype]
    · rw [qparamsKey] at hq
      rw [qparamsKey] at hqget
      rw [hqget, if_pos hquant] at hq
      simp only [paramsAt, hq, Option.map_some, Value.listed, listedItems_eq_map,
        List.getElem?_map]

/-! ### The whole payload -/

/-- The keys of what the adapter adds. -/
def extraKeys : List Key :=
  [.str "original_dtype", .str "original_shape", .str "ctrl_profile_cfg"]

/-- What the adapter adds to the metadata of a payload. -/
structure Extra (x : Tensor dt) (extra : List (Key × Meta dt S)) : Prop where
  originalDtype : Dict.get (.str "original_dtype") extra = some (dtypeName x)
  noTensor : ∀ entry ∈ extra, entry.2.noTensor = true
  keys : ∀ entry ∈ extra, entry.1 ∈ extraKeys
  nodup : (extra.map Prod.fst).Nodup

variable {extra : List (Key × Meta dt S)}

theorem get_update (h : (extra.map Prod.fst).Nodup) (k : Key) (base : List (Key × Meta dt S)) :
    Dict.get k (update base extra) = (Dict.get k extra).or (Dict.get k base) := by
  induction extra generalizing base with
  | nil => rfl
  | cons entry extra ih =>
      obtain ⟨hfresh, hrest⟩ := List.nodup_cons.mp h
      show Dict.get k (update (Dict.set entry.1 entry.2 base) extra) = _
      rw [ih hrest, Dict.get, Dict.get_set]
      split
      · rename_i hkey
        rw [Dict.get_eq_none (hkey ▸ hfresh)]
        rfl
      · rfl

theorem Extra.get_eq_none (h : Extra x extra) (hk : k ∉ extraKeys) :
    Dict.get k extra = none := by
  refine Dict.get_eq_none fun hmem => ?_
  obtain ⟨entry, hentry, rfl⟩ := List.mem_map.mp hmem
  exact hk (h.keys entry hentry)

theorem Extra.get_update_of_not_mem (h : Extra x extra) (hk : k ∉ extraKeys) :
    Dict.get k (update base extra) = Dict.get k base := by
  rw [get_update h.nodup, h.get_eq_none hk]
  rfl

/-- The metadata the layers are processed with. -/
theorem Extra.base_update (h : Extra x extra) {y : Tensor dt} (hdtype : y.dtype = x.dtype)
    (hclean : Clean base) {device : String}
    (hdevice : Dict.get (.str "device") base = some (.str device))
    (hunset : ∀ k ∈ stageKeys, k ∉ base.map Prod.fst) : Base y (update base extra) := by
  refine ⟨hclean.update h.noTensor, ?_, ⟨device, ?_⟩, fun k hk => ?_⟩
  · rw [get_update h.nodup, h.originalDtype, dtypeName, dtypeName, hdtype]
    rfl
  · rw [h.get_update_of_not_mem (by decide), hdevice]
  · have hfresh : ∀ k ∈ stageKeys, k ∉ extraKeys := by decide
    rw [h.get_update_of_not_mem (hfresh k hk), Dict.get_eq_none (hunset k hk)]

/-- A payload that the wire carries and that is restored to `x` on the other side. -/
structure Carried [DecidableEq D] (m : Manager dt S) (x : Tensor dt)
    (extra : List (Key × Meta dt S)) (c : CompressedKVData dt S) : Prop where
  consistent : c.Consistent
  namesRequest : c.NamesRequest
  plain : c.Plain
  wire : ∀ maxChunkBytes, 0 < maxChunkBytes → ∃ wire, buildWire c maxChunkBytes = some wire
  metadata : ∃ entries, c.listed.metadata = .dict entries ∧
    ∀ k ∈ [Key.str "original_shape", .str "ctrl_profile_cfg"],
      Dict.get k entries = Dict.get k extra
  restored : ∃ restored, m.decompressAllLayers c.listed = some restored ∧
    Adapter.result restored = some x

theorem exists_wireBody (bytes : List UInt8) {maxChunkBytes : Nat} (h : 0 < maxChunkBytes) :
    ∃ wired, wireBody (.ofU8 bytes : Tensor dt) maxChunkBytes = some wired := by
  unfold wireBody
  split
  · rw [if_neg (Nat.ne_of_gt h), Tensor.byteView_ofU8]
    exact ⟨_, rfl⟩
  · exact ⟨_, rfl⟩

theorem exists_sealWire {header : WireMeta dt S} (h : header.metadata.noTensor = true)
    (hchunks : ∀ v ∈ header.chunkMetadata, v.noTensor = true) (bodyChunks aux : List (Tensor dt)) :
    ∃ wire, sealWire header bodyChunks aux = some wire := by
  rw [sealWire, if_pos (by simpa [h] using hchunks)]
  exact ⟨_, rfl⟩

/-- The wire takes the clean metadata of all chunks. -/
theorem noTensor_packAll (metas : List (List (Key × Meta dt S))) (h : ∀ md ∈ metas, Clean md)
    (aux : List (Tensor dt)) :
    ∀ v ∈ (Value.packAll (metas.map .dict) aux).1, v.noTensor = true := by
  induction metas generalizing aux with
  | nil => intro v hv; cases hv
  | cons md metas ih =>
      intro v hv
      rcases List.mem_cons.mp hv with rfl | hv
      · exact (h md List.mem_cons_self).noTensor_packMetadata aux
      · exact ih (fun md hmem => h md (List.mem_cons_of_mem _ hmem)) _ v hv

variable {requestId : String} {c : CompressedKVData dt S}

theorem shape_of_rank (h : x.shape.length = 6) :
    ∃ count two b s hd d, x.shape = [count, two, b, s, hd, d] := by
  match hshape : x.shape, h with
  | [count, two, b, s, hd, d], _ => exact ⟨count, two, b, s, hd, d, rfl⟩

theorem compressAllLayers_cases (hc : m.compressAllLayers layout x requestId extra = some c) :
    ¬ (!m.enabled || m.pipeline.isEmpty) = true ∧ x.shape.length = 6 ∧
      (m.compressWhole layout x requestId extra = some c ∨
        m.chunkThresholdBytes < x.nbytes ∧
          m.compressAllLayersChunked layout x requestId extra = some c) := by
  unfold compressAllLayers at hc
  split at hc
  · cases hc
  · rename_i henabled
    split at hc
    · cases hc
    · rename_i hrank
      refine ⟨henabled, by simpa using hrank, ?_⟩
      split at hc
      · cases hc
      · split at hc
        · rename_i hlarge
          exact Or.inr ⟨hlarge, hc⟩
        · exact Or.inl hc

/-! ### Chunks of layers -/

/-- A slice of layers. -/
theorem layers_eq_some {n first last : Nat} {shape : List Nat} {chunk : Tensor dt}
    (hx : x.shape = n :: shape) (hchunk : x.layers first last = some chunk) (hlast : last ≤ n) :
    chunk.shape = (last - first) :: shape ∧ chunk.dtype = x.dtype ∧
      chunk.bytes = (x.bytes.drop (first * x.layerBytes)).take ((last - first) * x.layerBytes) := by
  rw [Tensor.layers, hx] at hchunk
  simp only [Nat.min_eq_left hlast] at hchunk
  obtain ⟨hshape, hdtype, hbytes⟩ := Tensor.ofBytes_eq_some.mp hchunk
  refine ⟨hshape, hdtype, ?_⟩
  rw [hbytes, Tensor.layerBytes, hx, List.tail_cons]

/-- One chunk. -/
theorem sealed_of_compressChunk (h : m.Exact) {two b s hd d : Nat}
    (hx : x.shape = [count, two, b, s, hd, d]) (hextra : Extra x extra) {index numChunks : Nat}
    (hc : m.compressChunk layout x requestId extra count numChunks index =
      some (tensor, metadata)) :
    ∃ chunk, x.layers (index * m.chunkSize) (m.endLayer count (index * m.chunkSize)) =
        some chunk ∧
      m.Sealed (index * m.chunkSize)
        (m.endLayer count (index * m.chunkSize) - index * m.chunkSize) chunk tensor
        (update (m.chunkMeta chunk requestId (index * m.chunkSize)
          (m.endLayer count (index * m.chunkSize) - index * m.chunkSize) index numChunks) extra)
        metadata := by
  obtain ⟨chunk, hchunk, hlayers⟩ := Option.bind_eq_some_iff.mp hc
  obtain ⟨hshape, hdtype, -⟩ := layers_eq_some hx hchunk (Nat.min_le_right _ _)
  refine ⟨chunk, hchunk, sealed_of_compressLayers h hshape (hextra.base_update hdtype ?_ rfl ?_)
    hlayers⟩
  · refine ⟨?_, fun entry hmem _ => ?_⟩
    · show ([.str "request_id", .str "original_dtype", .str "device", .str "start_layer_id",
        .str "num_layers", .str "chunk_index", .str "total_chunks"] : List Key).Nodup
      decide
    · simp only [chunkMeta, List.mem_cons, List.not_mem_nil, or_false] at hmem
      rcases hmem with rfl | rfl | rfl | rfl | rfl | rfl | rfl <;> rfl
  · show ∀ k ∈ stageKeys, k ∉ ([.str "request_id", .str "original_dtype", .str "device",
      .str "start_layer_id", .str "num_layers", .str "chunk_index", .str "total_chunks"] : List Key)
    decide

/-- The layers of the first chunks. -/
theorem sum_chunkLayers (numLayers numChunks : Nat) :
    ((List.range numChunks).map fun index =>
      m.endLayer numLayers (index * m.chunkSize) - index * m.chunkSize).sum =
      min (numChunks * m.chunkSize) numLayers := by
  induction numChunks with
  | zero => simp
  | succ numChunks ih =>
      rw [List.range_succ, List.map_append, List.sum_append, ih, List.map_singleton,
        List.sum_singleton, endLayer, Nat.succ_mul]
      omega

/-- The bytes of a chunk: the last one may be shorter. -/
theorem bytes_chunk {shape : List Nat} (hx : x.shape = count :: shape) (index : Nat) :
    (x.bytes.drop (index * m.chunkSize * x.layerBytes)).take
        ((m.endLayer count (index * m.chunkSize) - index * m.chunkSize) * x.layerBytes) =
      (x.bytes.drop (index * (m.chunkSize * x.layerBytes))).take
        (m.chunkSize * x.layerBytes) := by
  rw [Nat.mul_assoc]
  by_cases hfull : index * m.chunkSize + m.chunkSize ≤ count
  · rw [endLayer, Nat.min_eq_left hfull, Nat.add_sub_cancel_left]
  · have hrest : (x.bytes.drop (index * (m.chunkSize * x.layerBytes))).length =
        (count - index * m.chunkSize) * x.layerBytes := by
      rw [List.length_drop, Tensor.length_bytes_layers hx, Nat.sub_mul, Nat.mul_assoc]
    rw [endLayer, Nat.min_eq_right (by omega), List.take_of_length_le (Nat.le_of_eq hrest),
      List.take_of_length_le]
    rw [hrest]
    exact Nat.mul_le_mul_right _ (by omega)

theorem le_numChunks_mul (hchunk : m.chunkSize ≠ 0) (n : Nat) :
    n ≤ (n + m.chunkSize - 1) / m.chunkSize * m.chunkSize := by
  have hdiv := Nat.div_add_mod (n + m.chunkSize - 1) m.chunkSize
  have hmod := Nat.mod_lt (n + m.chunkSize - 1) (Nat.pos_of_ne_zero hchunk)
  rw [Nat.mul_comm] at hdiv
  omega

variable [DecidableEq D]

/-- **The chunks put together.** -/
theorem cat_chunks {shape : List Nat} (hx : x.shape = count :: shape) {parts : List (Tensor dt)}
    {numChunks : Nat} (hcover : count ≤ numChunks * m.chunkSize) (hne : parts ≠ [])
    (hlength : parts.length = numChunks)
    (hparts : ∀ index < numChunks, x.layers (index * m.chunkSize)
      (m.endLayer count (index * m.chunkSize)) = parts[index]?) :
    Tensor.cat parts = some x := by
  have hpart : ∀ index part, parts[index]? = some part →
      part.shape = (m.endLayer count (index * m.chunkSize) - index * m.chunkSize) :: shape ∧
      part.dtype = x.dtype ∧ part.bytes = (x.bytes.drop (index * (m.chunkSize * x.layerBytes))).take
        (m.chunkSize * x.layerBytes) := by
    intro index part hi
    have hlt : index < numChunks := hlength ▸ (List.getElem?_eq_some_iff.mp hi).1
    obtain ⟨hshape, hdtype, hbytes⟩ :=
      layers_eq_some hx ((hparts index hlt).trans hi) (Nat.min_le_right _ _)
    exact ⟨hshape, hdtype, hbytes.trans (bytes_chunk hx index)⟩
  have hsizes : parts.mapM (·.shape.head?) = some ((List.range numChunks).map fun index =>
      m.endLayer count (index * m.chunkSize) - index * m.chunkSize) := by
    refine mapM_eq_some.mpr ⟨by simp [hlength], fun i => ?_⟩
    rw [List.getElem?_map]
    cases hi : parts[i]? with
    | none =>
        have hge := List.getElem?_eq_none_iff.mp hi
        rw [List.getElem?_eq_none (by simpa [← hlength] using hge)]
        rfl
    | some part =>
        have hlt : i < numChunks := hlength ▸ (List.getElem?_eq_some_iff.mp hi).1
        rw [List.getElem?_range hlt, Option.bind_some, (hpart i part hi).1]
        rfl
  have hbytes : parts.flatMap (·.bytes) = x.bytes := by
    have hmap : parts.map (·.bytes) = (List.range numChunks).map fun index =>
        (x.bytes.drop (index * (m.chunkSize * x.layerBytes))).take
          (m.chunkSize * x.layerBytes) := by
      refine List.ext_getElem? fun i => ?_
      rw [List.getElem?_map, List.getElem?_map]
      cases hi : parts[i]? with
      | none =>
          have hge := List.getElem?_eq_none_iff.mp hi
          rw [List.getElem?_eq_none (by simpa [← hlength] using hge)]
          rfl
      | some part =>
          have hlt : i < numChunks := hlength ▸ (List.getElem?_eq_some_iff.mp hi).1
          rw [List.getElem?_range hlt, Option.map_some, Option.map_some, (hpart i part hi).2.2]
    rw [List.flatMap_def, hmap, flatten_slices, List.take_of_length_le]
    rw [Tensor.length_bytes_layers hx, ← Nat.mul_assoc]
    exact Nat.mul_le_mul_right _ hcover
  have hall : ∀ part ∈ parts, part.shape.tail = shape ∧ part.dtype = x.dtype := by
    intro part hmem
    obtain ⟨i, hi⟩ := List.mem_iff_getElem?.mp hmem
    exact ⟨by rw [(hpart i part hi).1, List.tail_cons], (hpart i part hi).2.1⟩
  cases parts with
  | nil => exact absurd rfl hne
  | cons part parts =>
      obtain ⟨htail, hdtype⟩ := hall part List.mem_cons_self
      rw [Tensor.cat, if_pos, hsizes, Option.bind_eq_bind, Option.bind_some, sum_chunkLayers,
        Nat.min_eq_right hcover, hbytes, htail, hdtype]
      · exact Tensor.ofBytes_eq_some.mpr ⟨hx, rfl, rfl⟩
      · simp only [List.all_eq_true, decide_eq_true_eq]
        intro u hu
        obtain ⟨hutail, hudtype⟩ := hall u (List.mem_cons_of_mem _ hu)
        exact ⟨hutail.trans htail.symm, hudtype.trans hdtype.symm⟩

/-! ### The two paths -/

/-- The single-batch path. -/
theorem carried_whole (h : m.Exact) (henabled : ¬ (!m.enabled || m.pipeline.isEmpty) = true)
    (hextra : Extra x extra) (hrank : x.shape.length = 6)
    (hc : m.compressWhole layout x requestId extra = some c) : m.Carried x extra c := by
  obtain ⟨count, two, b, s, hd, d, hx⟩ := shape_of_rank hrank
  unfold compressWhole at hc
  simp only [hx, List.head?_cons, Option.bind_eq_bind, Option.bind_some] at hc
  obtain ⟨⟨tensor, metadata⟩, hlayers, hc⟩ := Option.bind_eq_some_iff.mp hc
  obtain rfl := Option.some.inj hc
  have hkeys : (m.payloadMetadata x requestId count).map Prod.fst = [.str "request_id",
    .str "original_dtype", .str "original_size", .str "device", .str "start_layer_id",
    .str "num_layers"] := rfl
  have hclean : Clean (m.payloadMetadata x requestId count) := by
    refine ⟨by rw [hkeys]; decide, fun entry hmem _ => ?_⟩
    simp only [payloadMetadata, List.mem_cons, List.not_mem_nil, or_false] at hmem
    rcases hmem with rfl | rfl | rfl | rfl | rfl | rfl <;> rfl
  have hbase : Base x (update (m.payloadMetadata x requestId count) extra) :=
    hextra.base_update rfl hclean rfl (by rw [hkeys]; decide)
  obtain ⟨⟨bytes, rfl⟩, hsealed, hplain, hkept, back, hback, hkeptBack, hrestore⟩ :=
    sealed_of_compressLayers h hx hbase hlayers
  refine ⟨⟨rfl, rfl⟩, ⟨metadata, rfl, ?_⟩, ⟨hplain, fun _ hnone => by cases hnone⟩,
    fun maxChunkBytes hmax => ?_, ⟨back, hback, fun k hk => ?_⟩, ⟨.whole x, ?_, rfl⟩⟩
  · rw [hkept _ (by decide), hextra.get_update_of_not_mem (by decide)]
    rfl
  · obtain ⟨wired, hwired⟩ := @exists_wireBody _ dt bytes _ hmax
    simp only [buildWire, Bool.false_eq_true, if_false, hwired, Option.bind_some]
    refine exists_sealWire (hsealed.noTensor_packMetadata _) ?_ _ _
    intro v hv
    cases hv
  · have hstage : ∀ k ∈ [Key.str "original_shape", .str "ctrl_profile_cfg"], k ∉ stageKeys ∧
        k ∉ (m.payloadMetadata x requestId count).map Prod.fst := by
      rw [hkeys]
      decide
    rw [hkeptBack k (hstage k hk).1, get_update hextra.nodup, Dict.get_eq_none (hstage k hk).2,
      Option.or_none]
  · have hcount : (Dict.get (.str "num_layers") back).bind natOf = some count := by
      rw [hkeptBack _ (by decide), hextra.get_update_of_not_mem (by decide)]
      exact @natOf_int _ S dt count
    simp only [decompressAllLayers, CompressedKVData.listed, if_neg henabled, Bool.false_eq_true,
      if_false, hback, hcount, Option.bind_eq_bind, Option.bind_some, hrestore]
    rfl

/-- The chunked path. -/
theorem carried_chunked (h : m.Exact) (henabled : ¬ (!m.enabled || m.pipeline.isEmpty) = true)
    (hextra : Extra x extra) (hrank : x.shape.length = 6) (hlarge : 0 < x.nbytes)
    (hc : m.compressAllLayersChunked layout x requestId extra = some c) : m.Carried x extra c := by
  obtain ⟨count, two, b, s, hd, d, hx⟩ := shape_of_rank hrank
  unfold compressAllLayersChunked at hc
  simp only [hx, List.head?_cons, Option.bind_eq_bind, Option.bind_some] at hc
  split at hc
  · cases hc
  rename_i hsize
  obtain ⟨outs, houts, hc⟩ := Option.bind_eq_some_iff.mp hc
  obtain rfl := Option.some.inj hc
  have hcover := le_numChunks_mul hsize count
  generalize (count + m.chunkSize - 1) / m.chunkSize = numChunks at houts hcover
  obtain ⟨hlength, houts⟩ := mapM_range_eq_some.mp houts
  have hsealed : ∀ i out, outs[i]? = some out → ∃ chunk,
      x.layers (i * m.chunkSize) (m.endLayer count (i * m.chunkSize)) = some chunk ∧
      m.Sealed (i * m.chunkSize) (m.endLayer count (i * m.chunkSize) - i * m.chunkSize) chunk
        out.1 (update (m.chunkMeta chunk requestId (i * m.chunkSize)
          (m.endLayer count (i * m.chunkSize) - i * m.chunkSize) i numChunks) extra) out.2 := by
    intro i out hi
    have hlt : i < numChunks := hlength ▸ (List.getElem?_eq_some_iff.mp hi).1
    exact sealed_of_compressChunk h hx hextra ((houts i hlt).trans hi)
  have hmem : ∀ out ∈ outs, Clean out.2 ∧ (Value.dict out.2).PlainMetadata = true := by
    intro out hout
    obtain ⟨i, hi⟩ := List.mem_iff_getElem?.mp hout
    obtain ⟨chunk, -, hsealed⟩ := hsealed i out hi
    exact ⟨hsealed.clean, hsealed.plain⟩
  -- the chunks that are restored
  obtain ⟨parts, hparts⟩ := exists_mapM_range fun i (hi : i < numChunks) => by
    obtain ⟨chunk, hchunk, -⟩ := hsealed i _ (List.getElem?_eq_getElem (hlength ▸ hi))
    exact ⟨chunk, hchunk⟩
  obtain ⟨hlengthParts, hparts⟩ := mapM_range_eq_some.mp hparts
  have hrestore : (outs.map fun out => (out.1, (Value.dict out.2).listedMetadata)).mapM
      (fun pair => m.decompressChunk pair.1 pair.2) = some parts := by
    refine mapM_eq_some.mpr ⟨by simp [hlength, hlengthParts], fun i => ?_⟩
    rw [List.getElem?_map]
    cases hi : outs[i]? with
    | none =>
        have hge := List.getElem?_eq_none_iff.mp hi
        rw [List.getElem?_eq_none (by omega)]
        rfl
    | some out =>
        have hlt : i < numChunks := hlength ▸ (List.getElem?_eq_some_iff.mp hi).1
        obtain ⟨chunk, hchunk, hseal⟩ := hsealed i out hi
        obtain ⟨back, hback, hkept, hdecompress⟩ := hseal.back
        have hget : ∀ k ∉ stageKeys, k ∉ extraKeys → Dict.get k back = Dict.get k
            (m.chunkMeta chunk requestId (i * m.chunkSize)
              (m.endLayer count (i * m.chunkSize) - i * m.chunkSize) i numChunks) :=
          fun k hk hk' => (hkept k hk).trans (hextra.get_update_of_not_mem hk')
        have hstart : Dict.get (.str "start_layer_id") back =
            some (.int (i * m.chunkSize : Nat)) := hget _ (by decide) (by decide)
        have hcount : Dict.get (.str "num_layers") back =
            some (.int (m.endLayer count (i * m.chunkSize) - i * m.chunkSize : Nat)) :=
          hget _ (by decide) (by decide)
        rw [Option.map_some, Option.bind_some, ← hparts i hlt, hchunk, hback]
        simp only [decompressChunk, hstart, hcount, Option.elim_some, natOf_int,
          Option.bind_eq_bind, Option.bind_some, hdecompress]
  have hcount : 0 < count := by
    refine Nat.pos_of_ne_zero fun hzero => ?_
    rw [Tensor.nbytes, hx, hzero] at hlarge
    simp at hlarge
  have hne : 0 < numChunks := by
    refine Nat.pos_of_ne_zero fun hzero => ?_
    rw [hzero, Nat.zero_mul] at hcover
    omega
  have hcat : Tensor.cat parts = some x :=
    cat_chunks hx hcover (List.ne_nil_of_length_pos (hlengthParts ▸ hne)) hlengthParts hparts
  have hkeys : (chunkedMetadata x requestId count numChunks : List (Key × Meta dt S)).map
    Prod.fst = [.str "request_id", .str "original_size", .str "num_layers", .str "is_chunked",
      .str "num_chunks"] := rfl
  have hclean : Clean (update (chunkedMetadata x requestId count numChunks) extra) := by
    refine Clean.update ⟨by rw [hkeys]; decide, fun entry hentry _ => ?_⟩ hextra.noTensor
    simp only [chunkedMetadata, List.mem_cons, List.not_mem_nil, or_false] at hentry
    rcases hentry with rfl | rfl | rfl | rfl | rfl <;> rfl
  have hunset : Dict.get (.str "quantization_params")
      (update (chunkedMetadata x requestId count numChunks) extra) = none := by
    rw [hextra.get_update_of_not_mem (by decide)]
    exact Dict.get_eq_none (by rw [hkeys]; decide)
  have hlisted : (Value.dict (update (chunkedMetadata x requestId count numChunks)
      extra)).listedMetadata = .dict (update (chunkedMetadata x requestId count numChunks)
        extra) := by
    simp only [Value.listedMetadata, hunset]
  obtain ⟨out, outs, rfl⟩ := List.exists_cons_of_length_pos (hlength ▸ hne)
  refine ⟨by simp [CompressedKVData.Consistent], ⟨_, rfl, ?_⟩, ⟨?_, ?_⟩, fun maxChunkBytes _ => ?_,
    ⟨_, hlisted, fun k hk => ?_⟩, ⟨.chunks parts, ?_, hcat⟩⟩
  · rw [hextra.get_update_of_not_mem (by decide)]
    rfl
  · simp only [Value.PlainMetadata, hunset]
  · intro chunkMetadata heq v hv
    obtain rfl := Option.some.inj heq
    obtain ⟨out, hout, rfl⟩ := List.mem_map.mp hv
    exact (hmem out hout).2
  · have hchunks := noTensor_packAll ((out :: outs).map (·.2)) (by
      intro md hmd
      obtain ⟨out, hout, rfl⟩ := List.mem_map.mp hmd
      exact (hmem out hout).1)
    rw [List.map_map] at hchunks
    exact exists_sealWire (hclean.noTensor_packMetadata _) (hchunks _) _ _
  · have hfresh : ∀ k ∈ [Key.str "original_shape", .str "ctrl_profile_cfg"],
        k ∉ (chunkedMetadata x requestId count numChunks : List (Key × Meta dt S)).map
          Prod.fst := by
      rw [hkeys]
      decide
    rw [get_update hextra.nodup, Dict.get_eq_none (hfresh k hk), Option.or_none]
  · have hzip : ((out :: outs).map (·.1)).zip (((out :: outs).map (Value.dict ·.2)).map
        Value.listedMetadata) =
        (out :: outs).map fun out => (out.1, (Value.dict out.2).listedMetadata) := by
      rw [List.map_map, List.zip_map']
      rfl
    rw [← hzip] at hrestore
    simp only [List.map_cons] at hrestore
    simp only [decompressAllLayers, CompressedKVData.listed, if_neg henabled, if_true,
      Option.map_some, List.map_cons, List.length_map, Nat.le_refl, hrestore,
      Option.bind_eq_bind, Option.bind_some]
    rfl

end Manager

/-! ### The adapter round trip -/

namespace Adapter

/-- The components of every manager the adapter may use are exact. -/
def Exact (a : Adapter dt S) : Prop :=
  match a.mode with
  | .fixed manager => manager.Exact
  | .controller managerOf => ∀ cfg, (managerOf cfg).Exact

theorem view_back {x y : Tensor dt} {shape : List Nat} (h : x.view shape = some y) :
    y.view x.shape = some x := by
  obtain ⟨-, hdtype, hbytes⟩ := Tensor.ofBytes_eq_some.mp h
  exact Tensor.ofBytes_eq_some.mpr ⟨rfl, hdtype.symm, hbytes.symm⟩

theorem stacked6d_spec {a : Adapter dt S} {x y : Tensor dt} (h : a.stacked6d x = some y) :
    y.dtype = x.dtype ∧ y.view x.shape = some x := by
  unfold stacked6d at h
  split at h
  · obtain rfl := Option.some.inj h
    exact ⟨rfl, Tensor.ofBytes_bytes x⟩
  · exact ⟨(Tensor.ofBytes_eq_some.mp h).2.1, view_back h⟩
  · cases h

theorem viewBack_of_shape (a : Adapter dt S) {x y : Tensor dt} (h : y.view x.shape = some x)
    {metadata : List (Key × Meta dt S)}
    (hshape : Dict.get (.str "original_shape") metadata = some (Manager.shapeList x)) :
    a.viewBack metadata y = some x := by
  have hback : Manager.shapeOf (Manager.shapeList x : Meta dt S) = some x.shape :=
    Manager.shapeOf_shapeList
  rw [Manager.shapeList] at hback hshape
  simp only [viewBack, hshape, hback, Option.bind_some, h]

/-- What the adapter adds to the metadata. -/
theorem extra_metadata {x stacked : Tensor dt} (hdtype : stacked.dtype = x.dtype)
    {rest : List (Key × Meta dt S)} (hrest : rest = [] ∨
      ∃ cfg : ProfileConfig dt S, rest = [(.str "ctrl_profile_cfg", .dict cfg.entries)]) :
    Manager.Extra stacked ((.str "original_dtype", Manager.dtypeName x) ::
      (.str "original_shape", Manager.shapeList x) :: rest) := by
  have hname : (Manager.dtypeName x : Meta dt S) = Manager.dtypeName stacked := by
    rw [Manager.dtypeName, Manager.dtypeName, hdtype]
  have hshape : (Manager.shapeList x : Meta dt S).noTensor = true :=
    Manager.noTensor_shapeList x
  rcases hrest with rfl | ⟨cfg, rfl⟩
  · refine ⟨congrArg some hname, ?_, ?_, ?_⟩
    · simp only [List.forall_mem_cons]
      exact ⟨rfl, hshape, fun entry hmem => absurd hmem List.not_mem_nil⟩
    · simp [Manager.extraKeys]
    · simp
  · refine ⟨congrArg some hname, ?_, ?_, ?_⟩
    · simp only [List.forall_mem_cons]
      exact ⟨rfl, hshape, cfg.noTensor, fun entry hmem => absurd hmem List.not_mem_nil⟩
    · simp [Manager.extraKeys]
    · simp

variable [DecidableEq D]

theorem decompress_of_carried {a : Adapter dt S} {m : Manager dt S} {x stacked : Tensor dt}
    {extra : List (Key × Meta dt S)} {c : CompressedKVData dt S} (h : m.Carried stacked extra c)
    (hview : stacked.view x.shape = some x)
    (hshape : Dict.get (.str "original_shape") extra = some (Manager.shapeList x))
    (hmanager : ∀ metadata : List (Key × Meta dt S),
      Dict.get (.str "ctrl_profile_cfg") metadata = Dict.get (.str "ctrl_profile_cfg") extra →
      a.managerFor metadata = some m) : a.decompress c.listed = some x := by
  obtain ⟨entries, hentries, hkept⟩ := h.metadata
  obtain ⟨restored, hrestored, hresult⟩ := h.restored
  have hfor := hmanager entries (hkept _ (by simp))
  have hback := a.viewBack_of_shape hview ((hkept _ (by simp)).trans hshape)
  simp only [decompress, hentries, hfor, hrestored, hresult, hback, Option.bind_eq_bind,
    Option.bind_some]

/-- A compressed payload is carried. -/
theorem carried_of_compress {m : Manager dt S} (h : m.Exact) {layout : CodecLayout}
    {x : Tensor dt} {requestId : String} {extra : List (Key × Meta dt S)}
    {c : CompressedKVData dt S} (hextra : Manager.Extra x extra)
    (hc : m.compressAllLayers layout x requestId extra = some c) : m.Carried x extra c := by
  obtain ⟨henabled, hrank, hwhole | ⟨hlarge, hchunked⟩⟩ := Manager.compressAllLayers_cases hc
  · exact Manager.carried_whole h henabled hextra hrank hwhole
  · exact Manager.carried_chunked h henabled hextra hrank (Nat.lt_of_le_of_lt (Nat.zero_le _) hlarge)
      hchunked

/-- **The adapter round trip.** A tensor that `compress` gives a result for comes back from
`decompress` on the other side of the wire, with its shape and dtype. This holds on both
paths, for every chunk size, codec layout and size of the wire's byte chunks, whichever
chunks the codec failed on. -/
theorem decompress_compress (a : Adapter dt S) (h : a.Exact) {layout : CodecLayout}
    {profile : Option (ProfileConfig dt S)} {x : Tensor dt} {requestId : String}
    {c : CompressedKVData dt S} (hc : a.compress layout profile x requestId = some c)
    (strOf : Meta dt S → String) {maxChunkBytes : Nat} (hmax : 0 < maxChunkBytes) :
    ∃ wire restored, buildWire c maxChunkBytes = some wire ∧
      restoreFromWire strOf wire = some restored ∧ a.decompress restored = some x := by
  have hwired : ∀ {m : Manager dt S} {stacked : Tensor dt} {extra : List (Key × Meta dt S)},
      m.Carried stacked extra c → a.decompress c.listed = some x →
      ∃ wire restored, buildWire c maxChunkBytes = some wire ∧
        restoreFromWire strOf wire = some restored ∧ a.decompress restored = some x := by
    intro m stacked extra hcarried hback
    obtain ⟨wire, hwire⟩ := hcarried.wire maxChunkBytes hmax
    exact ⟨wire, c.listed, hwire, restoreFromWire_eq_listed strOf hwire hcarried.consistent
      hcarried.namesRequest hcarried.plain, hback⟩
  obtain ⟨stacked, hstacked, hc⟩ := Option.bind_eq_some_iff.mp hc
  obtain ⟨hdtype, hview⟩ := stacked6d_spec hstacked
  cases hmode : a.mode with
  | fixed manager =>
      rw [Exact, hmode] at h
      rw [hmode] at hc
      have hcarried := carried_of_compress h (extra_metadata hdtype (Or.inl rfl)) hc
      refine hwired hcarried (decompress_of_carried hcarried hview rfl fun metadata _ => ?_)
      rw [managerFor, hmode]
  | controller managerOf =>
      rw [Exact, hmode] at h
      rw [hmode] at hc
      obtain ⟨cfg, hcfg, hc⟩ := Option.bind_eq_some_iff.mp hc
      have hcarried := carried_of_compress (h _)
        (extra_metadata hdtype (Or.inr ⟨cfg, rfl⟩)) hc
      refine hwired hcarried (decompress_of_carried hcarried hview rfl fun metadata heq => ?_)
      have hget : Dict.get (.str "ctrl_profile_cfg") metadata = some (.dict cfg.entries) := heq
      rw [managerFor, hmode]
      simp only [hget]

/-- Layers are reversed and numbered, and the codec runs out of memory at layer 1. -/
def sampleManager : Manager .sample Unit where
  pipeline := [.transformer, .quantizer, .codec]
  chunkThresholdBytes := 0
  chunkSize := 2
  device := "cuda:0"
  bfloat16 := .float32
  cast _ t := t
  transform _ t := some ⟨t.shape, t.dtype, t.bytes.reverse, by simpa using t.sized⟩
  inverse _ t := some ⟨t.shape, t.dtype, t.bytes.reverse, by simpa using t.sized⟩
  quantize id t := some (t, .dict [(.str "layer", .int id)])
  supportsOutBuffer := false
  quantizeOut _ _ := none
  dequantize id t params :=
    match params with
    | .dict [(_, .int n)] => if n = id then some t else none
    | _ => none
  encode id t := if id = 1 then .error "OutOfMemoryError" else .ok t.bytes
  decode _ t name shape _ :=
    (DTypes.sample.byName name).bind fun dtype => Tensor.ofBytes shape dtype t.bytes

theorem sampleManager_exact : sampleManager.Exact where
  cast_self t := rfl
  shape_transform h := by
    obtain rfl := Option.some.inj h
    rfl
  dtype_transform h h' hdtype := by
    obtain rfl := Option.some.inj h
    obtain rfl := Option.some.inj h'
    exact hdtype
  inverse_transform {id x y} h := by
    obtain rfl := Option.some.inj h
    exact congrArg some (Tensor.ext rfl rfl x.bytes.reverse_reverse)
  shape_quantize h := by
    obtain ⟨rfl, -⟩ := Prod.mk.inj (Option.some.inj h)
    rfl
  dtype_quantize h h' hdtype := by
    obtain ⟨rfl, -⟩ := Prod.mk.inj (Option.some.inj h)
    obtain ⟨rfl, -⟩ := Prod.mk.inj (Option.some.inj h')
    exact hdtype
  isParams_quantize h := by
    obtain ⟨-, rfl⟩ := Prod.mk.inj (Option.some.inj h)
    exact ⟨_, rfl, rfl⟩
  dequantize_quantize h := by
    obtain ⟨rfl, rfl⟩ := Prod.mk.inj (Option.some.inj h)
    exact if_pos rfl
  shape_quantizeOut h := nomatch h
  dtype_quantizeOut h := nomatch h
  isParams_quantizeOut h := nomatch h
  dequantize_quantizeOut h := nomatch h
  decode_encode {id t bytes} h id' device := by
    simp only [sampleManager] at h ⊢
    split at h
    · cases h
    · obtain rfl := Except.ok.inj h
      rw [DTypes.sample.byName_name]
      exact Tensor.ofBytes_bytes t

/-- Three layers of two bytes, `[L,2,T,H*D]`. -/
def sampleTensor : Tensor .sample := ⟨[3, 2, 1, 1], .uint8, [1, 2, 3, 4, 5, 6], rfl⟩

/-- Two chunks, the second with one layer; the codec fails on the first. -/
theorem decompress_compress_chunked :
    ∃ c wire restored,
      compress ⟨1, 1, .fixed sampleManager⟩ .permuted none sampleTensor "r" = some c ∧
      (c.chunks.map (·.length)) = some 2 ∧
      buildWire c 4 = some wire ∧ restoreFromWire (fun _ => "") wire = some restored ∧
      decompress ⟨1, 1, .fixed sampleManager⟩ restored = some sampleTensor := by
  obtain ⟨c, hc⟩ := Option.isSome_iff_exists.mp (show
    (compress ⟨1, 1, .fixed sampleManager⟩ .permuted none sampleTensor "r").isSome by decide)
  have hsome : some c = _ := hc.symm
  obtain ⟨wire, restored, hwire, hrestored, hback⟩ :=
    decompress_compress ⟨1, 1, .fixed sampleManager⟩ sampleManager_exact hc (fun _ => "")
      (show 0 < 4 by decide)
  refine ⟨c, wire, restored, hc, ?_, hwire, hrestored, hback⟩
  exact congrArg (fun c : Option _ => c.bind fun c => c.chunks.map (·.length)) hsome

end Adapter

end KVServe.Compression

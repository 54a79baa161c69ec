import KVServe.Compression.BitPack
import KVServe.Compression.Progress
import KVServe.Lib.Int32

/-!
# KVServe.Compression.BitPackIndices

The index arithmetic of the `BitPackCodec` kernels in 32 bits. `byte * 8` and `i * BITS` are eight
times as large as what they index. They are computed for all 1024 lanes of a program, before any
mask, and leave the range **beyond 2^31 bits of symbols** in whole programs, which the first chunk
of a long context has.
-/

namespace KVServe.Compression

/-! ### Index expressions -/

namespace BitPack

variable {N BITS program lane : Nat}

/-- The index expressions of a lane of `_pack`. The masks come later: a lane past the end of the
payload computes them too. -/
def packIndices (BITS BLOCK program lane : Nat) : List Nat :=
  let byte := program * BLOCK + lane
  let first := byte * 8 / BITS
  let offset := byte * 8 % BITS
  [program * BLOCK, byte, byte * 8, first, offset, 16 + byte] ++
    (List.range' 1 ((7 + BITS - 1) / BITS)).flatMap fun j =>
      [j * BITS, j * BITS - offset, first + j]

/-- The index expressions of a lane of `_unpack`, past the end of the symbols too. -/
def unpackIndices (BITS BLOCK program lane : Nat) : List Nat :=
  let i := program * BLOCK + lane
  let byte := i * BITS / 8
  let offset := i * BITS % 8
  [program * BLOCK, i, i * BITS, byte, offset, offset + BITS, 16 + byte, byte + 1, 16 + byte + 1]

/-- No index expression of the two kernels overflows. -/
def IndicesFit (N BITS : Nat) : Prop :=
  (∀ program < grid (payloadBytes N BITS), ∀ lane < 1024,
    ∀ e ∈ packIndices BITS 1024 program lane, Fits e) ∧
  ∀ program < grid N, ∀ lane < 1024, ∀ e ∈ unpackIndices BITS 1024 program lane, Fits e

theorem le_grid (n : Nat) : n ≤ 1024 * grid n := by
  rw [grid]
  omega

theorem grid_mono {m n : Nat} (h : m ≤ n) : grid m ≤ grid n := by
  rw [grid, grid]
  omega

/-- The lanes of a launch. -/
theorem lane_lt {n : Nat} (hprogram : program < grid n) (hlane : lane < 1024) :
    program * 1024 + lane < 1024 * grid n := by
  omega

/-- The programs of `_pack` have no more bits than those of `_unpack`, up to a whole program. -/
theorem grid_payloadBytes_le (h : 1024 * grid N * BITS ≤ 2 ^ 31) :
    1024 * grid (payloadBytes N BITS) * 8 ≤ 2 ^ 31 := by
  have hbits : N * BITS ≤ 1024 * (grid N * BITS) := by
    rw [← Nat.mul_assoc]
    exact Nat.mul_le_mul_right BITS (le_grid N)
  rw [Nat.mul_assoc] at h
  rw [grid, payloadBytes]
  omega

theorem packIndices_fit (hBITS : 0 < BITS ∧ BITS ≤ 8) (h : 1024 * grid N * BITS ≤ 2 ^ 31)
    (hprogram : program < grid (payloadBytes N BITS)) (hlane : lane < 1024) :
    ∀ e ∈ packIndices BITS 1024 program lane, Fits e := by
  have hgrid := grid_payloadBytes_le h
  have hbyte := lane_lt hprogram hlane
  have hfirst : (program * 1024 + lane) * 8 / BITS ≤ (program * 1024 + lane) * 8 :=
    Nat.div_le_self _ _
  have hoffset : (program * 1024 + lane) * 8 % BITS < BITS := Nat.mod_lt _ hBITS.1
  have hstep : ∀ j ∈ List.range' 1 ((7 + BITS - 1) / BITS), j ≤ 7 ∧ j * BITS ≤ 7 + BITS := by
    intro j hj
    have hle : j ≤ (7 + BITS - 1) / BITS := by
      have := List.mem_range'_1.mp hj
      omega
    have hmul := (Nat.le_div_iff_mul_le hBITS.1).mp hle
    have hjle : j ≤ 7 := by
      by_contra hlt
      have := Nat.mul_le_mul_right BITS (Nat.not_le.mp hlt)
      omega
    exact ⟨hjle, by omega⟩
  intro e he
  rw [fits_natCast]
  have hstart : program * 1024 ≤ program * 1024 + lane := Nat.le_add_right _ lane
  simp only [packIndices, List.mem_append, List.mem_cons, List.not_mem_nil, or_false,
    List.mem_flatMap] at he
  generalize program * 1024 = start at *
  generalize start + lane = byte at *
  generalize 1024 * grid (payloadBytes N BITS) = lanes at hgrid hbyte
  rcases he with he | ⟨j, hj, he⟩
  · rcases he with rfl | rfl | rfl | rfl | rfl | rfl <;> omega
  · have hj := hstep j hj
    rcases he with rfl | rfl | rfl <;> omega

theorem unpackIndices_fit (hBITS : 0 < BITS ∧ BITS ≤ 8) (h : 1024 * grid N * BITS ≤ 2 ^ 31)
    (hprogram : program < grid N) (hlane : lane < 1024) :
    ∀ e ∈ unpackIndices BITS 1024 program lane, Fits e := by
  have hi := lane_lt hprogram hlane
  have hgrid : 1024 * grid N ≤ 1024 * grid N * BITS := Nat.le_mul_of_pos_right _ hBITS.1
  have hnext : (program * 1024 + lane + 1) * BITS ≤ 1024 * grid N * BITS :=
    Nat.mul_le_mul_right BITS hi
  rw [Nat.add_one_mul] at hnext
  intro e he
  rw [fits_natCast]
  have hstart : program * 1024 ≤ program * 1024 + lane := Nat.le_add_right _ lane
  simp only [unpackIndices, List.mem_cons, List.not_mem_nil, or_false] at he
  generalize program * 1024 = start at *
  generalize start + lane = i at *
  generalize 1024 * grid N * BITS = total at *
  rcases he with rfl | rfl | rfl | rfl | rfl | rfl | rfl | rfl | rfl <;> omega

/-- **No index overflows** up to 2^31 bits of symbols in whole programs, and beyond them `i * BITS`
does in the last lane. -/
theorem indicesFit_iff (hBITS : 0 < BITS ∧ BITS ≤ 8) :
    IndicesFit N BITS ↔ 1024 * grid N * BITS ≤ 2 ^ 31 := by
  constructor
  · rintro ⟨-, hunpack⟩
    by_contra hlt
    have hpos : 0 < grid N := by
      rw [grid]
      omega
    have hmem : ((grid N - 1) * 1024 + 1023) * BITS ∈ unpackIndices BITS 1024 (grid N - 1) 1023 := by
      simp [unpackIndices]
    have hfits := fits_natCast.mp (hunpack _ (Nat.sub_lt hpos Nat.one_pos) 1023 (by omega) _ hmem)
    -- the index of the last lane is one below a multiple of 1024
    have hlast : ((grid N - 1) * 1024 + 1023) * BITS + BITS = 1024 * (grid N * BITS) := by
      rw [← Nat.add_one_mul, ← Nat.mul_assoc]
      congr 1
      omega
    rw [Nat.mul_assoc] at hlt
    omega
  · intro h
    exact ⟨fun program hprogram lane hlane => packIndices_fit hBITS h hprogram hlane,
      fun program hprogram lane hlane => unpackIndices_fit hBITS h hprogram hlane⟩

/-- 715827872 symbols of 3 bits are 2^31 - 32 bits, but not in whole programs. -/
example : 715827872 * 3 ≤ 2 ^ 31 ∧ ¬ IndicesFit 715827872 3 := by
  refine ⟨by decide, ?_⟩
  rw [indicesFit_iff (by decide)]
  decide

end BitPack

/-! ### What the codec gets -/

namespace Manager

open BitPack

variable {D S : Type} {dt : DTypes D} {m : Manager dt S} {layout : CodecLayout}
  {start count two b s hd d bits : Nat} {x buffer : Tensor dt}

/-- The buffer of some layers. -/
def HandsOverLayers (m : Manager dt S) (layout : CodecLayout) (start : Nat) (x buffer : Tensor dt) :
    Prop :=
  ∃ count params, x.shape.head? = some count ∧
    m.processLayers layout start count x = some (buffer, params)

/-- A buffer that `compress_all_layers` calls the codec with. -/
def HandsOver (m : Manager dt S) (layout : CodecLayout) (x buffer : Tensor dt) : Prop :=
  m.enabled = true ∧ m.has .codec = true ∧ m.minCompressSize ≤ x.nbytes ∧
    if m.chunkThresholdBytes < x.nbytes then
      ∃ numLayers index chunk, x.shape.head? = some numLayers ∧
        index < (numLayers + m.chunkSize - 1) / m.chunkSize ∧
        x.layers (index * m.chunkSize) (m.endLayer numLayers (index * m.chunkSize)) = some chunk ∧
        m.HandsOverLayers layout (index * m.chunkSize) chunk buffer
    else m.HandsOverLayers layout 0 x buffer

/-- The layers of the first of them, and the most any of them has. -/
def codecLayers (m : Manager dt S) (x : Tensor dt) (count : Nat) : Nat :=
  if m.chunkThresholdBytes < x.nbytes then min m.chunkSize count else count

/-- The elements of a buffer are those of its layers. -/
theorem exists_handsOverLayers (h : m.Regular) (hx : x.shape = [count, two, b, s, hd, d])
    (hcount : 0 < count) (hserves : m.Serves start count x) :
    ∃ buffer, m.HandsOverLayers layout start x buffer ∧
      buffer.shape.prod = count * (two * b * s * hd * d) := by
  obtain ⟨⟨buffer, params⟩, hout, hshape⟩ :=
    @exists_processLayers _ _ _ m layout start count x h _ _ _ _ _ hx hcount hserves
  refine ⟨buffer, ⟨count, params, by rw [hx]; rfl, hout⟩, ?_⟩
  rw [hshape]
  cases layout with
  | native =>
      simp only [packedShape, List.prod_cons, List.prod_nil]
      ring
  | permuted =>
      simp only [packedShape, List.prod_cons, List.prod_nil]
      ring

theorem HandsOverLayers.unique (h : m.HandsOverLayers layout start x buffer) {buffer' : Tensor dt}
    (h' : m.HandsOverLayers layout start x buffer') : buffer = buffer' := by
  obtain ⟨count, params, hcount, hout⟩ := h
  obtain ⟨count', params', hcount', hout'⟩ := h'
  obtain rfl := Option.some.inj (hcount.symm.trans hcount')
  exact (Prod.mk.inj (Option.some.inj (hout.symm.trans hout'))).1

section Cache

variable (h : m.Regular) (hx : x.shape = [count, two, b, s, hd, d]) (hcount : 0 < count)
  (hserves : m.Serves 0 count x) (hchunk : 0 < m.chunkSize)

include h hx hcount hserves hchunk

omit hcount in
/-- A chunk, and its buffer. -/
theorem exists_chunk {index : Nat} (hindex : index * m.chunkSize < count) :
    ∃ chunk buffer, x.layers (index * m.chunkSize) (m.endLayer count (index * m.chunkSize)) =
        some chunk ∧ m.HandsOverLayers layout (index * m.chunkSize) chunk buffer ∧
      buffer.shape.prod = (m.endLayer count (index * m.chunkSize) - index * m.chunkSize) *
        (two * b * s * hd * d) := by
  have hlast : m.endLayer count (index * m.chunkSize) ≤ count := Nat.min_le_right _ _
  have hlt : index * m.chunkSize < m.endLayer count (index * m.chunkSize) :=
    Nat.lt_min.mpr ⟨Nat.lt_add_of_pos_right hchunk, hindex⟩
  obtain ⟨chunk, hslice⟩ := Tensor.exists_slice hx (Nat.le_of_lt hlt) hlast
  obtain ⟨hshape, -, -⟩ := layers_eq_some hx hslice hlast
  obtain ⟨buffer, hbuffer, hprod⟩ := @exists_handsOverLayers _ _ _ m layout _ _ _ _ _ _ _ _ h
    hshape (Nat.sub_pos_of_lt hlt) (hserves.chunk hx hlast hslice)
  exact ⟨chunk, buffer, hslice, hbuffer, hprod⟩

/-- **The first buffer**. -/
theorem exists_handsOver (henabled : m.enabled = true) (hcodec : m.has .codec = true)
    (hmin : m.minCompressSize ≤ x.nbytes) : ∃ buffer, m.HandsOver layout x buffer ∧
      buffer.shape.prod = m.codecLayers x count * (two * b * s * hd * d) := by
  unfold HandsOver codecLayers
  split
  · have hindex : 0 * m.chunkSize < count := by rwa [Nat.zero_mul]
    obtain ⟨chunk, buffer, hslice, hbuffer, hprod⟩ :=
      @exists_chunk _ _ _ m layout _ _ _ _ _ _ _ h hx hserves hchunk 0 hindex
    have hnumChunks : 0 < (count + m.chunkSize - 1) / m.chunkSize := Nat.div_pos (by omega) hchunk
    refine ⟨buffer, ⟨henabled, hcodec, hmin, count, 0, chunk, by rw [hx]; rfl, hnumChunks, hslice,
      hbuffer⟩, ?_⟩
    rw [hprod, endLayer, Nat.zero_mul, Nat.zero_add, Nat.sub_zero]
  · obtain ⟨buffer, hbuffer, hprod⟩ := exists_handsOverLayers h hx hcount hserves
    exact ⟨buffer, ⟨henabled, hcodec, hmin, hbuffer⟩, hprod⟩

/-- **No buffer is larger.** -/
theorem HandsOver.prod_le (hbuffer : m.HandsOver layout x buffer) :
    buffer.shape.prod ≤ m.codecLayers x count * (two * b * s * hd * d) := by
  obtain ⟨-, -, -, hbuffer⟩ := hbuffer
  unfold codecLayers
  split at hbuffer
  · next hlarge =>
      obtain ⟨numLayers, index, chunk, hhead, hindex, hslice, hlayers⟩ := hbuffer
      obtain rfl : count = numLayers := by
        rw [hx] at hhead
        exact Option.some.inj hhead
      obtain ⟨chunk', buffer', hslice', hlayers', hprod⟩ :=
        @exists_chunk _ _ _ m layout _ _ _ _ _ _ _ h hx hserves hchunk index (start_lt hindex)
      obtain rfl := Option.some.inj (hslice.symm.trans hslice')
      rw [hlayers.unique hlayers', hprod, if_pos hlarge, endLayer]
      refine Nat.mul_le_mul_right _ (le_min ?_ ?_)
      · omega
      · omega
  · next hsmall =>
      obtain ⟨buffer', hbuffer', hprod⟩ := @exists_handsOverLayers _ _ _ m layout 0 _ _ _ _ _ _ _ h hx
        hcount hserves
      rw [hbuffer.unique hbuffer', hprod, if_neg hsmall]

/-- **The kernels stay in 32 bits** on all buffers of a cache iff its first one, rounded up to
whole programs, has at most 2^31 bits of symbols. -/
theorem codec_indices_fit_iff (henabled : m.enabled = true) (hcodec : m.has .codec = true)
    (hmin : m.minCompressSize ≤ x.nbytes) (hbits : 0 < bits ∧ bits ≤ 8) :
    (∀ buffer, m.HandsOver layout x buffer → IndicesFit buffer.shape.prod bits) ↔
      1024 * grid (m.codecLayers x count * (two * b * s * hd * d)) * bits ≤ 2 ^ 31 := by
  constructor
  · intro hfit
    obtain ⟨buffer, hbuffer, hprod⟩ := @exists_handsOver _ _ _ m layout _ _ _ _ _ _ _ h hx hcount
      hserves hchunk henabled hcodec hmin
    rw [← hprod]
    exact (indicesFit_iff hbits).mp (hfit buffer hbuffer)
  · intro hle buffer hbuffer
    have hgrid := grid_mono (hbuffer.prod_le h hx hcount hserves hchunk)
    exact (indicesFit_iff hbits).mpr
      ((Nat.mul_le_mul_right bits (Nat.mul_le_mul_left 1024 hgrid)).trans hle)

end Cache

/-! ### A long context -/

/-- Every element becomes the symbol zero. -/
def zeroQuantizer : Manager .sample Unit where
  pipeline := [.quantizer, .codec]
  device := "cuda:0"
  bfloat16 := .float32
  cast _ t := t
  transform _ _ := none
  inverse _ _ := none
  quantize _ t := some (⟨t.shape, .uint8, List.replicate t.shape.prod 0, by
    rw [List.length_replicate]
    exact (Nat.mul_one _).symm⟩, .dict [])
  supportsOutBuffer := false
  quantizeOut _ _ := none
  dequantize _ _ _ := none
  encode _ t := .ok t.bytes
  decode _ _ _ _ _ := none

theorem zeroQuantizer_regular : zeroQuantizer.Regular where
  cast_self _ := rfl
  shape_transform h := nomatch h
  dtype_transform h := nomatch h
  shape_quantize h := by
    obtain ⟨rfl, -⟩ := Prod.mk.inj (Option.some.inj h)
    rfl
  dtype_quantize h h' _ := by
    obtain ⟨rfl, -⟩ := Prod.mk.inj (Option.some.inj h)
    obtain ⟨rfl, -⟩ := Prod.mk.inj (Option.some.inj h')
    rfl
  shape_quantizeOut h := nomatch h
  dtype_quantizeOut h := nomatch h

/-- Eight layers of eight heads of 128 elements, of which each token has its keys and values. -/
def cacheOf (blocks : Nat) : Tensor .sample :=
  ⟨[8, 2, blocks, 16, 8, 128], .float32,
    List.replicate ([8, 2, blocks, 16, 8, 128].prod * 4) 0, List.length_replicate⟩

theorem zeroQuantizer_serves (blocks : Nat) : zeroQuantizer.Serves 0 8 (cacheOf blocks) where
  direct hdirect := by cases hdirect
  loop _ i hi := by
    obtain ⟨t, ht⟩ := Tensor.exists_layer (t := cacheOf blocks) rfl hi
    rw [ht]
    exact ⟨_, rfl⟩

theorem codecLayers_cacheOf (blocks : Nat) : zeroQuantizer.codecLayers (cacheOf blocks) 8 = 8 := by
  unfold codecLayers
  split
  · exact Nat.min_self 8
  · rfl

/-- A hundred tokens. -/
theorem codec_indices_fit_short :
    1024 * grid (zeroQuantizer.codecLayers (cacheOf 7) 8 * (2 * 7 * 16 * 8 * 128)) * 8 ≤ 2 ^ 31 ∧
      ∀ buffer, zeroQuantizer.HandsOver .native (cacheOf 7) buffer →
        IndicesFit buffer.shape.prod 8 := by
  have hle : 1024 * grid (zeroQuantizer.codecLayers (cacheOf 7) 8 * (2 * 7 * 16 * 8 * 128)) * 8 ≤
      2 ^ 31 := by
    rw [codecLayers_cacheOf]
    decide
  exact ⟨hle, (@codec_indices_fit_iff _ _ _ zeroQuantizer .native 8 2 7 16 8 128 8 (cacheOf 7)
    zeroQuantizer_regular rfl (by decide) (zeroQuantizer_serves 7) (by decide) rfl rfl
    (Nat.zero_le _) (by decide)).mpr hle⟩

/-- **A chunk of 16400 tokens**: a symbol is one byte, and `byte * 8` is negative for the bytes
from 2^28 on. -/
theorem long_chunk_overflows :
    int32 (2 ^ 28 * 8) = -2 ^ 31 ∧
      ¬ ∀ buffer, zeroQuantizer.HandsOver .native (cacheOf 1025) buffer →
        IndicesFit buffer.shape.prod 8 := by
  refine ⟨by decide, fun hfit => ?_⟩
  obtain ⟨buffer, hbuffer, hprod⟩ := @exists_handsOver _ _ _ zeroQuantizer .native 8 2 1025 16 8 128
    (cacheOf 1025) zeroQuantizer_regular rfl (by decide) (zeroQuantizer_serves 1025) (by decide) rfl
    rfl (Nat.zero_le _)
  have hle := (indicesFit_iff (by decide)).mp (hfit buffer hbuffer)
  rw [hprod, codecLayers_cacheOf] at hle
  exact absurd hle (by decide)

end Manager

end KVServe.Compression

import KVServe.Runtime.KernelCells

/-!
# KVServe.Runtime.KernelQuantize

**The quantizing kernels agree with the Python quantizer.** Loops, shuffles and shared memory reduce
each channel or token to the minimum and the maximum of its elements, the scalar steps round where
the Python operations round, and a section stores what `_quantize` stores for it.
-/

namespace KVServe.Runtime

/-! ### Reductions -/

section Reductions

variable {F : Type} {le : F → F → Prop} {op : F → F → F} {x init : F} {tokens columns : Nat}
  {value : Nat → Nat → F}

/-- The lanes of a warp that have the same channel. -/
theorem sameBut_channel {u t : Nat} :
    Meets.SameBut [3, 4] u t ↔ u % 8 = t % 8 ∧ u / 32 = t / 32 :=
  @Meets.sameBut_iff [3, 4] 3 5 u t fun i => by simp; omega

/-- The lanes of a warp. -/
theorem sameBut_warp {u t : Nat} : Meets.SameBut [4, 3, 2, 1, 0] u t ↔ u / 32 = t / 32 := by
  rw [@Meets.sameBut_iff [4, 3, 2, 1, 0] 0 5 u t fun i => by simp; omega]
  simp [Nat.mod_one]

/-- **A channel is reduced over all tokens.** -/
theorem channelReduce_iff (h : Meets le op) {c : Nat} (hc : c < kChannelTile) :
    le x (channelReduce op init tokens value c) ↔ le x init ∧ ∀ t < tokens, le x (value c t) := by
  have hlane : ∀ u, le x (channelLane op init tokens value u) ↔
      le x init ∧ ∀ t ∈ strided (u / 8) tokens 32, le x (value (u % 8) t) := fun u => h.foldl
  have hwarp : ∀ thread, le x (shuffles op [8, 16] (channelLane op init tokens value) thread) ↔
      ∀ u, Meets.SameBut [3, 4] u thread → le x (channelLane op init tokens value u) :=
    fun thread => @Meets.butterflies _ le op x h [3, 4] _ thread
  have hc : c < 8 := hc
  have hall : le x (channelReduce op init tokens value c) ↔ ∀ warp < 8,
      le x (shuffles op [8, 16] (channelLane op init tokens value) (warp * 32 + c)) := by
    refine h.foldl.trans
      ⟨fun ⟨hfirst, hrest⟩ warp hlt => ?_, fun hwarps => ⟨?_, fun warp hmem => ?_⟩⟩
    · rcases Nat.eq_zero_or_pos warp with rfl | hpos
      · rwa [Nat.zero_mul, Nat.zero_add]
      · exact hrest warp (List.mem_range'_1.mpr ⟨hpos, hlt⟩)
    · have hfirst := hwarps 0 (by decide)
      rwa [Nat.zero_mul, Nat.zero_add] at hfirst
    · exact hwarps warp (List.mem_range'_1.mp hmem).2
  simp only [hall, hwarp, hlane, sameBut_channel]
  constructor
  · intro hx
    refine ⟨(hx 0 (by decide) c (by omega)).1, fun t ht => ?_⟩
    -- token `t` belongs to lane `t % 32` of the channel
    have hu := (hx (t % 32 / 4) (by omega) (t % 32 * 8 + c) (by omega)).2 t
    have hmod : (t % 32 * 8 + c) % 8 = c := by omega
    rw [hmod] at hu
    exact hu ((mem_strided (by decide)).mpr ⟨ht, t / 32, by omega⟩)
  · rintro ⟨hinit, hvalues⟩ warp - u ⟨hmod, -⟩
    refine ⟨hinit, fun t ht => ?_⟩
    have hu : u % 8 = c := by omega
    rw [hu]
    exact hvalues t ((mem_strided (by decide)).mp ht).1

/-- **A token is reduced over all columns.** -/
theorem tokenReduce_iff (h : Meets le op) {thread : Nat} :
    le x (tokenReduce op init columns value thread) ↔
      le x init ∧ ∀ c < columns, le x (value (thread / kWarpSize) c) := by
  let lane : Nat → F := fun u => (strided (u % 32) columns 32).foldl
    (fun acc c => op acc (value (u / 32) c)) init
  have hlane : ∀ u, le x (lane u) ↔
      le x init ∧ ∀ c ∈ strided (u % 32) columns 32, le x (value (u / 32) c) := fun u => h.foldl
  have hwarp : le x (tokenReduce op init columns value thread) ↔
      ∀ u, Meets.SameBut [4, 3, 2, 1, 0] u thread → le x (lane u) :=
    @Meets.butterflies _ le op x h [4, 3, 2, 1, 0] lane thread
  simp only [hwarp, hlane, sameBut_warp]
  show _ ↔ le x init ∧ ∀ c < columns, le x (value (thread / 32) c)
  constructor
  · intro hx
    refine ⟨(hx thread rfl).1, fun c hc => ?_⟩
    have hu := (hx (thread / 32 * 32 + c % 32) (by omega)).2 c
    have hdiv : (thread / 32 * 32 + c % 32) / 32 = thread / 32 := by omega
    have hmod : (thread / 32 * 32 + c % 32) % 32 = c % 32 := by omega
    rw [hdiv, hmod] at hu
    exact hu ((mem_strided (by decide)).mpr ⟨hc, c / 32, by omega⟩)
  · rintro ⟨hinit, hvalues⟩ u hu
    refine ⟨hinit, fun c hc => ?_⟩
    rw [hu]
    exact hvalues c ((mem_strided (by decide)).mp hc).1

end Reductions

/-! ### Scalar steps -/

namespace Arith

variable {ar : Arith} {cells : List Cell} {v : ar.F} {levels : Nat}

/-- A number with the lower bounds of some elements is their minimum. -/
theorem rn_eq_amin (h : ∀ x, x ≤ v ↔ x ≤ ar.posInf ∧ ∀ c ∈ cells, x ≤ ar.toF32 c) :
    ar.rn v = ar.amin cells := by
  rw [amin]
  congr 1
  refine eq_of_forall_le_iff fun x => ?_
  rw [h]
  cases hmin : (cells.map ar.toF32).min? with
  | none =>
      rw [List.min?_eq_none_iff, List.map_eq_nil_iff] at hmin
      simp [hmin]
  | some m =>
      obtain ⟨hmem, hle⟩ := List.min?_eq_some_iff.mp hmin
      obtain ⟨c, hc, rfl⟩ := List.mem_map.mp hmem
      refine ⟨fun hx => hx.2 c hc, fun hx => ⟨le_trans hx (ar.le_posInf c), fun c' hc' => ?_⟩⟩
      exact le_trans hx (hle _ (List.mem_map_of_mem hc'))

/-- A number with their upper bounds is their maximum. -/
theorem rn_eq_amax (h : ∀ x, v ≤ x ↔ ar.negInf ≤ x ∧ ∀ c ∈ cells, ar.toF32 c ≤ x) :
    ar.rn v = ar.amax cells := by
  rw [amax]
  congr 1
  refine eq_of_forall_ge_iff fun x => ?_
  rw [h]
  cases hmax : (cells.map ar.toF32).max? with
  | none =>
      rw [List.max?_eq_none_iff, List.map_eq_nil_iff] at hmax
      simp [hmax]
  | some m =>
      obtain ⟨hmem, hle⟩ := List.max?_eq_some_iff.mp hmax
      obtain ⟨c, hc, rfl⟩ := List.mem_map.mp hmem
      refine ⟨fun hx => hx.2 c hc, fun hx => ⟨le_trans (ar.negInf_le c) hx, fun c' hc' => ?_⟩⟩
      exact le_trans (hle _ (List.mem_map_of_mem hc')) hx

/-- The parameters of the elements of a group. -/
def paramsOf (ar : Arith) (levels : Nat) (cells : List Cell) : QuantParams :=
  let scale := ar.scaleOf levels (ar.amax cells) (ar.amin cells)
  ⟨ar.amin cells, ar.amax cells, scale, ar.reciprocal scale⟩

/-- **`quant_params`** clamps, divides and inverts as the Python operations do. -/
theorem quantParams_eq {mn mx : ar.F} (hmin : ar.rn mn = ar.amin cells)
    (hmax : ar.rn mx = ar.amax cells) : ar.quantParams mn mx levels = ar.paramsOf levels cells := by
  have hclamp : ∀ raw : Cell, (if ar.toF32 raw < ar.tiny then ar.toF32 (ar.rn ar.tiny)
      else ar.toF32 raw) = ar.toF32 (ar.rn (max (ar.toF32 raw) ar.tiny)) := by
    intro raw
    split
    · next hlt => rw [max_eq_right (le_of_lt hlt)]
    · next hle => rw [max_eq_left (not_lt.mp hle), ar.rn_toF32]
  simp only [quantParams, paramsOf, scaleOf, reciprocal, hmin, hmax, hclamp]

/-- Elements are exact where the kernel does not round. -/
theorem toF32_rn_ofNat {k : Nat} (h : k ≤ 256) : ar.toF32 (ar.rn (ar.ofNat k)) = ar.ofNat k := by
  obtain ⟨c, hc⟩ := ar.exact_ofNat k h
  rw [← hc, ar.rn_toF32]

/-- **`quant_value`** is the symbol that is copied to the stream. -/
theorem quantValue_eq (hlevels : levels ≤ 256) (value minimum inverse : Cell) :
    ar.quantValue value minimum inverse levels =
      ar.toU8 (ar.toF32 (ar.quantized levels value minimum inverse)) := by
  obtain ⟨rounded, hrounded⟩ := ar.exact_rint (ar.rn (ar.mul
    (ar.toF32 (ar.rn (ar.sub (ar.toF32 value) (ar.toF32 minimum)))) (ar.toF32 inverse)))
  have hrn : ar.toF32 (ar.rn (ar.toF32 rounded)) = ar.toF32 rounded := by rw [ar.rn_toF32]
  simp only [quantValue, quantized, ← hrounded, ar.rn_toF32]
  congr 1
  have hlow : (if ar.toF32 rounded < ar.ofNat 0 then ar.ofNat 0 else ar.toF32 rounded) =
      max (ar.toF32 rounded) (ar.ofNat 0) := by
    split
    · next hlt => rw [max_eq_right (le_of_lt hlt)]
    · next hle => rw [max_eq_left (not_lt.mp hle)]
  have hhigh : ∀ q : ar.F, (if ar.ofNat (levels - 1) < q then ar.ofNat (levels - 1) else q) =
      min q (ar.ofNat (levels - 1)) := by
    intro q
    split
    · next hlt => rw [min_eq_right (le_of_lt hlt)]
    · next hle => rw [min_eq_left (not_lt.mp hle)]
  rw [hlow, hhigh]
  -- whichever of the three is taken is an element
  rcases min_choice (max (ar.toF32 rounded) (ar.ofNat 0)) (ar.ofNat (levels - 1)) with h | h
  · rw [h]
    rcases max_choice (ar.toF32 rounded) (ar.ofNat 0) with h | h
    · rw [h, hrn]
    · rw [h, toF32_rn_ofNat (by omega)]
  · rw [h, toF32_rn_ofNat (by omega)]

/-- The dequantizing kernels round after each operation but the first, which is exact. -/
theorem dequantValue_eq (symbol : UInt8) (minimum scale : Cell) :
    ar.dequantValue symbol minimum scale = ar.dequantized symbol minimum scale := by
  have hsymbol : symbol.toNat ≤ 256 := Nat.le_of_lt symbol.toNat_lt
  simp only [dequantValue, dequantized, toF32_rn_ofNat hsymbol]

end Arith

/-! ### Elements of a section -/

/-- The element of column `c` of token `t` in blocks of `tokens` tokens. -/
def elementOf (tokens headSize t c : Nat) : Index :=
  (t / tokens, t % tokens, c / headSize, c % headSize)

theorem elementOf_inside {n tokens headCount headSize t c : Nat} (ht : t < n * tokens)
    (hc : c < headCount * headSize) :
    (elementOf tokens headSize t c).Inside (n, tokens, headCount, headSize) := by
  have htokens : 0 < tokens := Nat.pos_of_ne_zero fun h => by simp [h] at ht
  have hsize : 0 < headSize := Nat.pos_of_ne_zero fun h => by simp [h] at hc
  exact ⟨Nat.div_lt_of_lt_mul (by rwa [Nat.mul_comm]), Nat.mod_lt _ htokens,
    Nat.div_lt_of_lt_mul (by rwa [Nat.mul_comm]), Nat.mod_lt _ hsize⟩

/-- Every element is one. -/
theorem exists_elementOf {n tokens headCount headSize : Nat} {x : Index}
    (hx : x.Inside (n, tokens, headCount, headSize)) :
    ∃ t < n * tokens, ∃ c < headCount * headSize, x = elementOf tokens headSize t c := by
  refine ⟨x.1 * tokens + x.2.1, position_lt hx.1 hx.2.1, x.2.2.1 * headSize + x.2.2.2,
    position_lt hx.2.2.1 hx.2.2.2, ?_⟩
  rw [elementOf, position_div hx.2.1, position_mod hx.2.1, position_div hx.2.2.2,
    position_mod hx.2.2.2]

namespace Pipeline

variable {pl : Pipeline} {part : LayerPartLayout} {s : QuantSection} {n t c : Nat} {m : Mem}
  {d : Device}

/-- The elements of a section in the first buffer. -/
def sectionSource (pl : Pipeline) (part : LayerPartLayout) (n : Nat) (s : QuantSection) : View :=
  (pl.viewsOf part n).canonicalA.narrow2 s.headStart s.headCount

/-- The symbols of a layer part. -/
def u8Layer (pl : Pipeline) (part : LayerPartLayout) (n : Nat) : View :=
  .contiguous (pl.u8Span part n).start 1 (pl.canonicalShape part n)

/-- The symbols of a section. -/
def sectionOutput (pl : Pipeline) (part : LayerPartLayout) (n : Nat) (s : QuantSection) : View :=
  (pl.u8Layer part n).narrow2 s.headStart s.headCount

/-- The position of an element of a section among those of its layer part. -/
def elementPosition (part : LayerPartLayout) (s : QuantSection) (t c : Nat) : Nat :=
  t * part.numHeads * part.headSize + s.headStart * part.headSize + c

theorem flat_elementOf : Index.flat (pl.canonicalShape part n)
    (t / pl.kernelTokens part, t % pl.kernelTokens part, s.headStart + c / part.headSize,
      c % part.headSize) = elementPosition part s t c := by
  simp only [Index.flat, canonicalShape]
  rw [Nat.div_add_mod', elementPosition]
  calc (t * part.numHeads + (s.headStart + c / part.headSize)) * part.headSize + c % part.headSize
      = t * part.numHeads * part.headSize + s.headStart * part.headSize +
          (c / part.headSize * part.headSize + c % part.headSize) := by ring
    _ = t * part.numHeads * part.headSize + s.headStart * part.headSize + c := by
        rw [Nat.div_add_mod']

theorem sectionSource_addr : (pl.sectionSource part n s).addr
    (elementOf (pl.kernelTokens part) part.headSize t c) =
      (pl.spanA part n).start + elementPosition part s t c * 2 := by
  rw [sectionSource, View.narrow2_addr, ← @flat_elementOf pl part s n]
  exact View.contiguous_addr

theorem sectionOutput_addr : (pl.sectionOutput part n s).addr
    (elementOf (pl.kernelTokens part) part.headSize t c) =
      (pl.u8Span part n).start + elementPosition part s t c := by
  rw [sectionOutput, View.narrow2_addr, ← @flat_elementOf pl part s n]
  refine View.contiguous_addr.trans ?_
  rw [Nat.mul_one]
  rfl

/-- The elements with an entry of the reductions. -/
def sectionCells (pl : Pipeline) (part : LayerPartLayout) (n : Nat) (s : QuantSection) (m : Mem)
    (key : Index) : List Cell :=
  ((Index.all (pl.sectionSource part n s).shape).filter (auxKey s.axis · = key)).map
    ((pl.sectionSource part n s).cell m)

theorem forall_sectionCells {key : Index} {P : Cell → Prop} :
    (∀ c ∈ pl.sectionCells part n s m key, P c) ↔ ∀ t < n * pl.kernelTokens part,
      ∀ c < s.headCount * part.headSize,
        auxKey s.axis (elementOf (pl.kernelTokens part) part.headSize t c) = key →
          P (m.cell ((pl.spanA part n).start + elementPosition part s t c * 2)) := by
  simp only [sectionCells, List.forall_mem_map, List.mem_filter, Index.mem_all, decide_eq_true_eq,
    and_imp]
  constructor
  · intro h t ht c hc hkey
    rw [← sectionSource_addr]
    exact h _ (elementOf_inside ht hc) hkey
  · intro h x hx hkey
    obtain ⟨t, ht, c, hc, rfl⟩ := @exists_elementOf n (pl.kernelTokens part) s.headCount
      part.headSize x hx
    rw [View.cell, sectionSource_addr]
    exact h t ht c hc hkey

/-- The entry of a column. -/
def columnKey (part : LayerPartLayout) (c : Nat) : Index := (0, 0, c / part.headSize, c % part.headSize)

/-- The entry of a token. -/
def tokenKey (pl : Pipeline) (part : LayerPartLayout) (t : Nat) : Index :=
  (t / pl.kernelTokens part, t % pl.kernelTokens part, 0, 0)

theorem auxKey_channel {tokens c' : Nat} :
    auxKey .channel (elementOf tokens part.headSize t c) = columnKey part c' ↔ c = c' := by
  constructor
  · intro h
    simp only [auxKey_eq, elementOf, columnKey, Prod.mk.injEq, true_and] at h
    rw [← Nat.div_add_mod' c part.headSize, h.1, h.2, Nat.div_add_mod']
  · rintro rfl
    rfl

theorem auxKey_token {headSize t' : Nat} :
    auxKey .token (elementOf (pl.kernelTokens part) headSize t c) = pl.tokenKey part t' ↔
      t = t' := by
  constructor
  · intro h
    simp only [auxKey_eq, elementOf, tokenKey, Prod.mk.injEq, and_true] at h
    rw [← Nat.div_add_mod' t (pl.kernelTokens part), h.1, h.2, Nat.div_add_mod']
  · rintro rfl
    rfl

/-- The element of a column of a token in memory. -/
def elementAt (pl : Pipeline) (part : LayerPartLayout) (n : Nat) (s : QuantSection) (m : Mem)
    (t c : Nat) : Cell := m.cell ((pl.spanA part n).start + elementPosition part s t c * 2)

theorem forall_channelCells {P : Cell → Prop} (haxis : s.axis = .channel)
    (hc : c < s.headCount * part.headSize) :
    (∀ x ∈ pl.sectionCells part n s m (columnKey part c), P x) ↔
      ∀ t < n * pl.kernelTokens part, P (pl.elementAt part n s m t c) := by
  rw [forall_sectionCells, haxis]
  simp only [auxKey_channel]
  exact ⟨fun h t ht => h t ht c hc rfl, fun h t ht c' _ heq => heq ▸ h t ht⟩

theorem forall_tokenCells {P : Cell → Prop} (haxis : s.axis = .token)
    (ht : t < n * pl.kernelTokens part) :
    (∀ x ∈ pl.sectionCells part n s m (pl.tokenKey part t), P x) ↔
      ∀ c < s.headCount * part.headSize, P (pl.elementAt part n s m t c) := by
  rw [forall_sectionCells, haxis]
  simp only [auxKey_token]
  exact ⟨fun h c hc => h t ht c hc rfl, fun h t' _ c hc heq => heq ▸ h c hc⟩

/-- The parameters of a section. -/
def sectionParams (pl : Pipeline) (part : LayerPartLayout) (n : Nat) (s : QuantSection) (m : Mem)
    (key : Index) : QuantParams := pl.ar.paramsOf s.numLevels (pl.sectionCells part n s m key)

/-- **The parameters of a channel.** -/
theorem quantParams_channel (haxis : s.axis = .channel) (hc : c < s.headCount * part.headSize)
    {value : Nat → Nat → pl.ar.F} {lane : Nat} (hlane : lane < kChannelTile)
    (hvalue : ∀ t, value lane t = pl.ar.toF32 (pl.elementAt part n s m t c)) :
    pl.ar.quantParams (channelReduce min pl.ar.posInf (n * pl.kernelTokens part) value lane)
        (channelReduce max pl.ar.negInf (n * pl.kernelTokens part) value lane) s.numLevels =
      pl.sectionParams part n s m (columnKey part c) := by
  refine Arith.quantParams_eq (Arith.rn_eq_amin fun x => ?_) (Arith.rn_eq_amax fun x => ?_)
  · rw [channelReduce_iff meets_min hlane, forall_channelCells haxis hc]
    simp only [hvalue]
  · rw [forall_channelCells haxis hc]
    refine (channelReduce_iff meets_max hlane).trans ?_
    simp only [hvalue]

/-- **The parameters of a token.** -/
theorem quantParams_token (haxis : s.axis = .token) (ht : t < n * pl.kernelTokens part)
    {value : Nat → Nat → pl.ar.F} {thread : Nat}
    (hvalue : ∀ c, value (thread / kWarpSize) c = pl.ar.toF32 (pl.elementAt part n s m t c)) :
    pl.ar.quantParams (tokenReduce min pl.ar.posInf (s.headCount * part.headSize) value thread)
        (tokenReduce max pl.ar.negInf (s.headCount * part.headSize) value thread) s.numLevels =
      pl.sectionParams part n s m (pl.tokenKey part t) := by
  refine Arith.quantParams_eq (Arith.rn_eq_amin fun x => ?_) (Arith.rn_eq_amax fun x => ?_)
  · rw [tokenReduce_iff meets_min, forall_tokenCells haxis ht]
    simp only [hvalue]
  · rw [forall_tokenCells haxis ht]
    refine (tokenReduce_iff meets_max).trans ?_
    simp only [hvalue]

/-! ### Rows of the auxiliary buffer -/

theorem columnKey_inside (hc : c < s.headCount * part.headSize) :
    (columnKey part c).Inside (1, 1, s.headCount, part.headSize) := by
  have hsize : 0 < part.headSize := Nat.pos_of_ne_zero fun h => by simp [h] at hc
  exact ⟨Nat.one_pos, Nat.one_pos, Nat.div_lt_of_lt_mul (by rwa [Nat.mul_comm]),
    Nat.mod_lt _ hsize⟩

theorem flat_columnKey : Index.flat (1, 1, s.headCount, part.headSize) (columnKey part c) = c := by
  simp only [Index.flat, columnKey, Nat.zero_mul, Nat.zero_add]
  exact Nat.div_add_mod' c part.headSize

theorem exists_columnKey {key : Index} (h : key.Inside (1, 1, s.headCount, part.headSize)) :
    ∃ c < s.headCount * part.headSize, key = columnKey part c := by
  refine ⟨key.2.2.1 * part.headSize + key.2.2.2, position_lt h.2.2.1 h.2.2.2, ?_⟩
  have h0 : key.1 = 0 := Nat.lt_one_iff.mp h.1
  have h1 : key.2.1 = 0 := Nat.lt_one_iff.mp h.2.1
  rw [columnKey, position_div h.2.2.2, position_mod h.2.2.2]
  exact Prod.ext h0 (Prod.ext h1 rfl)

theorem tokenKey_inside (ht : t < n * pl.kernelTokens part) :
    (pl.tokenKey part t).Inside (n, pl.kernelTokens part, 1, 1) := by
  have htokens : 0 < pl.kernelTokens part := Nat.pos_of_ne_zero fun h => by simp [h] at ht
  exact ⟨Nat.div_lt_of_lt_mul (by rwa [Nat.mul_comm]), Nat.mod_lt _ htokens, Nat.one_pos,
    Nat.one_pos⟩

theorem flat_tokenKey :
    Index.flat (n, pl.kernelTokens part, 1, 1) (pl.tokenKey part t) = t := by
  simp only [Index.flat, tokenKey, Nat.mul_one, Nat.add_zero]
  exact Nat.div_add_mod' t (pl.kernelTokens part)

theorem exists_tokenKey {key : Index} (h : key.Inside (n, pl.kernelTokens part, 1, 1)) :
    ∃ t < n * pl.kernelTokens part, key = pl.tokenKey part t := by
  refine ⟨key.1 * pl.kernelTokens part + key.2.1, position_lt h.1 h.2.1, ?_⟩
  have h2 : key.2.2.1 = 0 := Nat.lt_one_iff.mp h.2.2.1
  have h3 : key.2.2.2 = 0 := Nat.lt_one_iff.mp h.2.2.2
  rw [tokenKey, position_div h.2.1, position_mod h.2.1]
  exact Prod.ext rfl (Prod.ext rfl (Prod.ext h2 h3))

/-- The rows that the arrays of a section are. -/
def auxRows (a : AuxArrays) (shape : Index) (params : Index → QuantParams) :
    List (View × (Index → Cell)) :=
  [(.contiguous a.auxMin.offset 2 shape, fun key => (params key).minimum),
    (.contiguous a.tmpMax.offset 2 shape, fun key => (params key).maximum),
    (.contiguous a.auxScale.offset 2 shape, fun key => (params key).scale),
    (.contiguous a.tmpInv.offset 2 shape, fun key => (params key).inverse)]

/-- Rows stored one after the other. -/
def storeRows (rows : List (View × (Index → Cell))) (m : Mem) : Mem :=
  rows.foldl (fun m row => row.1.storeCells row.2 m) m

/-- No two rows meet. -/
def RowsApart (rows : List (View × (Index → Cell))) : Prop :=
  rows.Pairwise fun u v => ∀ a, ¬ (u.1.Covers 2 a ∧ v.1.Covers 2 a)

variable {a : AuxArrays} {shape : Index} {params : Index → QuantParams}

theorem rows_separated : ∀ row ∈ auxRows a shape params, row.1.Separated 2 := by
  intro row hrow
  simp only [auxRows, List.mem_cons, List.not_mem_nil, or_false] at hrow
  rcases hrow with rfl | rfl | rfl | rfl <;> exact View.contiguous_separated

/-- What is stored in the rows is read from them. -/
theorem cell_storeRows (hapart : RowsApart (auxRows a shape params)) {key : Index}
    (hkey : key.Inside shape) :
    (View.contiguous a.auxMin.offset 2 shape).cell (storeRows (auxRows a shape params) m) key =
        (params key).minimum ∧
      (View.contiguous a.auxScale.offset 2 shape).cell (storeRows (auxRows a shape params) m) key =
        (params key).scale ∧
      (View.contiguous a.tmpInv.offset 2 shape).cell (storeRows (auxRows a shape params) m) key =
        (params key).inverse := by
  have hcells := (View.foldl_storeCells (g := Prod.snd) rows_separated hapart m).1
  simp only [auxRows, List.mem_cons, List.not_mem_nil, or_false, forall_eq_or_imp, forall_eq]
    at hcells
  exact ⟨hcells.1 key hkey, hcells.2.2.1 key hkey, hcells.2.2.2 key hkey⟩

/-- One launch stores all rows. -/
theorem storeElements_rows {ws : List (Nat × Cell)} (hapart : RowsApart (auxRows a shape params))
    (hws : ∀ w, w ∈ ws ↔ ∃ key, Index.Inside key shape ∧
      w ∈ a.stores (Index.flat shape key) (params key)) :
    m.storeElements ws = storeRows (auxRows a shape params) m := by
  refine View.storeElements_eq_foldl rows_separated hapart fun w => ?_
  rw [hws]
  have hshape : ∀ base, (View.contiguous base 2 shape).shape = shape := fun _ => rfl
  simp only [auxRows, AuxArrays.stores, List.mem_cons, List.not_mem_nil, or_false, exists_eq_or_imp,
    exists_eq_left, View.contiguous_addr, hshape, ← exists_or, ← and_or_left]

/-! ### Kernels of a section -/

/-- The shape of the rows of a section. -/
def sectionShape (pl : Pipeline) (part : LayerPartLayout) (n : Nat) (s : QuantSection) : Index :=
  auxShape s.axis (n, pl.kernelTokens part) s.headCount part.headSize

/-- The symbol of an element of a section. -/
def sectionSymbol (pl : Pipeline) (part : LayerPartLayout) (n : Nat) (s : QuantSection) (m : Mem)
    (x : Index) : UInt8 :=
  let p := pl.sectionParams part n s m (auxKey s.axis x)
  pl.ar.toU8 (pl.ar.toF32
    (pl.ar.quantized s.numLevels ((pl.sectionSource part n s).cell m x) p.minimum p.inverse))

/-- What a section stores. -/
def quantizedSection (pl : Pipeline) (part : LayerPartLayout) (n : Nat) (s : QuantSection)
    (a : AuxArrays) (d : Device) : Device :=
  Function.update
    (Function.update d .aux (storeRows (auxRows a (pl.sectionShape part n s)
      (pl.sectionParams part n s (d .arenaA))) (d .aux)))
    .arenaB ((pl.sectionOutput part n s).store 1
      (fun x _ => pl.sectionSymbol part n s (d .arenaA) x) (d .arenaB))

theorem sectionSymbol_elementOf (hlevels : s.numLevels ≤ 256) {key : Index}
    (hkey : auxKey s.axis (elementOf (pl.kernelTokens part) part.headSize t c) = key) :
    pl.sectionSymbol part n s m (elementOf (pl.kernelTokens part) part.headSize t c) =
      pl.ar.quantValue (pl.elementAt part n s m t c) (pl.sectionParams part n s m key).minimum
        (pl.sectionParams part n s m key).inverse s.numLevels := by
  rw [Arith.quantValue_eq hlevels, sectionSymbol, hkey, View.cell, sectionSource_addr, elementAt]

theorem sectionOutput_separated (h : s.headStart + s.headCount ≤ part.numHeads) :
    (pl.sectionOutput part n s).Separated 1 :=
  (View.narrow2Part h).separated View.contiguous_separated

/-- **`quantize_channel_kernel`** stores what the section stores. -/
theorem quantizeChannelKernel_eq (haxis : s.axis = .channel) (hlevels : s.numLevels ≤ 256)
    (hheads : s.headStart + s.headCount ≤ part.numHeads) (haux : a.auxMin.tensor = .aux)
    (hapart : RowsApart (auxRows a (pl.sectionShape part n s)
      (pl.sectionParams part n s (d .arenaA)))) :
    pl.quantizeChannelKernel ⟨.arenaA, (pl.spanA part n).start⟩
        ⟨.arenaB, (pl.u8Span part n).start⟩ a (n * pl.kernelTokens part) part.numHeads s.headStart
        s.headCount part.headSize s.numLevels d = pl.quantizedSection part n s a d := by
  have hposition : ∀ column t, (t * part.numHeads + (s.headStart + column / part.headSize)) *
      part.headSize + column % part.headSize = elementPosition part s t column := by
    intro column t
    conv_rhs => rw [elementPosition, ← Nat.div_add_mod' column part.headSize]
    ring
  have hcell : ∀ t c, d.cell ⟨.arenaA, (pl.spanA part n).start⟩ (elementPosition part s t c) =
      pl.elementAt part n s (d .arenaA) t c := fun _ _ => rfl
  have hshape : pl.sectionShape part n s = (1, 1, s.headCount, part.headSize) := by
    rw [sectionShape, haxis]
    rfl
  rw [quantizeChannelKernel, quantizedSection]
  simp only [hposition, hcell, Device.storeBytes, Device.store, haux]
  rw [Function.update_of_ne (by decide : Tensor.arenaB ≠ Tensor.aux)]
  have hparams : ∀ block lane, lane < kChannelTile →
      block * kChannelTile + lane < s.headCount * part.headSize →
      pl.ar.quantParams
        (channelReduce min pl.ar.posInf (n * pl.kernelTokens part) (fun c t => pl.ar.toF32
          (pl.elementAt part n s (d .arenaA) t (block * kChannelTile + c))) lane)
        (channelReduce max pl.ar.negInf (n * pl.kernelTokens part) (fun c t => pl.ar.toF32
          (pl.elementAt part n s (d .arenaA) t (block * kChannelTile + c))) lane) s.numLevels =
      pl.sectionParams part n s (d .arenaA) (columnKey part (block * kChannelTile + lane)) :=
    fun block lane hlane hc => quantParams_channel haxis hc hlane fun _ => rfl
  refine congrArg₂ (Function.update · Tensor.arenaB ·) (congrArg (Function.update d .aux) ?_) ?_
  · refine storeElements_rows hapart fun w => ?_
    rw [hshape]
    simp only [List.mem_flatMap, List.mem_range]
    constructor
    · rintro ⟨block, -, lane, hlane, hw⟩
      split at hw
      · next hc =>
          refine ⟨_, columnKey_inside hc, ?_⟩
          rwa [flat_columnKey, ← hparams block lane hlane hc]
      · cases hw
    · rintro ⟨key, hkey, hw⟩
      obtain ⟨c, hc, rfl⟩ := exists_columnKey hkey
      have hlane := Nat.mod_lt c (show 0 < kChannelTile by decide)
      have hsplit : c / kChannelTile * kChannelTile + c % kChannelTile = c := Nat.div_add_mod' _ _
      refine ⟨c / kChannelTile, div_lt_ceilDiv (by decide) hc, c % kChannelTile, hlane, ?_⟩
      rw [flat_columnKey] at hw
      rwa [hsplit, if_pos hc, hparams _ _ hlane (by rwa [hsplit]), hsplit]
  · refine View.stored_eq_store (sectionOutput_separated hheads) fun w => ?_
    rw [List.mem_flatMap]
    constructor
    · rintro ⟨⟨block, thread⟩, -, hw⟩
      dsimp only at hw
      split at hw
      · next hc =>
          obtain ⟨t, ht, rfl⟩ := List.mem_map.mp hw
          have ht := ((mem_strided (by decide)).mp ht).1
          have hlane := Nat.mod_lt thread (show 0 < kChannelTile by decide)
          refine ⟨elementOf _ _ _ _, elementOf_inside ht hc, ?_⟩
          have hkey : auxKey s.axis (elementOf (pl.kernelTokens part) part.headSize t
              (block * kChannelTile + thread % kChannelTile)) =
              columnKey part (block * kChannelTile + thread % kChannelTile) := by
            rw [haxis, auxKey_channel]
          rw [hparams block _ hlane hc]
          exact Prod.ext sectionOutput_addr.symm (sectionSymbol_elementOf hlevels hkey).symm
      · cases hw
    · rintro ⟨x, hx, rfl⟩
      obtain ⟨t, ht, c, hc, rfl⟩ := @exists_elementOf n (pl.kernelTokens part) s.headCount
        part.headSize x hx
      have hlane := Nat.mod_lt c (show 0 < kChannelTile by decide)
      have hsplit : c / kChannelTile * kChannelTile + c % kChannelTile = c := Nat.div_add_mod' _ _
      -- thread of token `t % 32` and channel `c % 8`
      refine ⟨(c / kChannelTile, t % 32 * kChannelTile + c % kChannelTile),
        mem_threads.mpr ⟨div_lt_ceilDiv (by decide) hc, ?_⟩, ?_⟩
      · have := Nat.mod_lt t (show 0 < 32 by decide)
        simp only [kThreads, kChannelTile] at hlane ⊢
        omega
      · have hmod : (t % 32 * kChannelTile + c % kChannelTile) % kChannelTile =
            c % kChannelTile := position_mod hlane
        have hdiv : (t % 32 * kChannelTile + c % kChannelTile) / kChannelTile = t % 32 :=
          position_div hlane
        have hkey : auxKey s.axis (elementOf (pl.kernelTokens part) part.headSize t c) =
            columnKey part c := by
          rw [haxis, auxKey_channel]
        dsimp only
        rw [hmod, hdiv, hsplit, if_pos hc]
        refine List.mem_map.mpr ⟨t, (mem_strided (by decide)).mpr ⟨ht, t / 32, ?_⟩, ?_⟩
        · exact (Nat.mod_add_div t 32).symm
        · rw [hparams _ _ hlane (by rwa [hsplit]), hsplit]
          exact Prod.ext sectionOutput_addr.symm (sectionSymbol_elementOf hlevels hkey).symm

/-- Lane `lane` of the warp of a token. -/
theorem exists_warp {tokens t lane : Nat} (ht : t < tokens) (hlane : lane < kWarpSize) :
    ∃ x ∈ threads (ceilDiv tokens kTokensPerBlock),
      x.1 * kTokensPerBlock + x.2 / kWarpSize = t ∧ x.2 % kWarpSize = lane := by
  have hpos : 0 < kTokensPerBlock := by decide
  have hwarp := Nat.mod_lt t hpos
  refine ⟨(t / kTokensPerBlock, t % kTokensPerBlock * kWarpSize + lane),
    mem_threads.mpr ⟨div_lt_ceilDiv hpos ht, ?_⟩, ?_, position_mod hlane⟩
  · simp only [kTokensPerBlock, kThreads, kWarpSize] at *
    omega
  · rw [position_div hlane, Nat.div_add_mod']

/-- **`quantize_token_kernel`** stores what the section stores. -/
theorem quantizeTokenKernel_eq (haxis : s.axis = .token) (hlevels : s.numLevels ≤ 256)
    (hheads : s.headStart + s.headCount ≤ part.numHeads) (haux : a.auxMin.tensor = .aux)
    (hapart : RowsApart (auxRows a (pl.sectionShape part n s)
      (pl.sectionParams part n s (d .arenaA)))) :
    pl.quantizeTokenKernel ⟨.arenaA, (pl.spanA part n).start⟩
        ⟨.arenaB, (pl.u8Span part n).start⟩ a (n * pl.kernelTokens part) part.numHeads s.headStart
        s.headCount part.headSize s.numLevels d = pl.quantizedSection part n s a d := by
  have hposition : ∀ t c, t * part.numHeads * part.headSize + s.headStart * part.headSize + c =
      elementPosition part s t c := fun _ _ => rfl
  have hcell : ∀ t c, d.cell ⟨.arenaA, (pl.spanA part n).start⟩ (elementPosition part s t c) =
      pl.elementAt part n s (d .arenaA) t c := fun _ _ => rfl
  have hshape : pl.sectionShape part n s = (n, pl.kernelTokens part, 1, 1) := by
    rw [sectionShape, haxis]
    rfl
  rw [quantizeTokenKernel, quantizedSection]
  simp only [hposition, hcell, Device.storeBytes, Device.store, haux]
  rw [Function.update_of_ne (by decide : Tensor.arenaB ≠ Tensor.aux)]
  have hparams : ∀ block thread,
      block * kTokensPerBlock + thread / kWarpSize < n * pl.kernelTokens part →
      pl.ar.quantParams
        (tokenReduce min pl.ar.posInf (s.headCount * part.headSize) (fun warp c => pl.ar.toF32
          (pl.elementAt part n s (d .arenaA) (block * kTokensPerBlock + warp) c)) thread)
        (tokenReduce max pl.ar.negInf (s.headCount * part.headSize) (fun warp c => pl.ar.toF32
          (pl.elementAt part n s (d .arenaA) (block * kTokensPerBlock + warp) c)) thread)
        s.numLevels =
      pl.sectionParams part n s (d .arenaA)
        (pl.tokenKey part (block * kTokensPerBlock + thread / kWarpSize)) :=
    fun block thread ht => quantParams_token haxis ht fun _ => rfl
  refine congrArg₂ (Function.update · Tensor.arenaB ·) (congrArg (Function.update d .aux) ?_) ?_
  · refine storeElements_rows hapart fun w => ?_
    rw [hshape, List.mem_flatMap]
    constructor
    · rintro ⟨⟨block, thread⟩, -, hw⟩
      dsimp only at hw
      split at hw
      · next ht =>
          refine ⟨_, tokenKey_inside ht.1, ?_⟩
          rwa [flat_tokenKey, ← hparams block thread ht.1]
      · cases hw
    · rintro ⟨key, hkey, hw⟩
      obtain ⟨t, ht, rfl⟩ := exists_tokenKey hkey
      obtain ⟨x, hx, rfl, hlane⟩ := exists_warp ht (show 0 < kWarpSize by decide)
      refine ⟨x, hx, ?_⟩
      rw [flat_tokenKey] at hw
      rwa [if_pos ⟨ht, hlane⟩, hparams _ _ ht]
  · refine View.stored_eq_store (sectionOutput_separated hheads) fun w => ?_
    rw [List.mem_flatMap]
    constructor
    · rintro ⟨⟨block, thread⟩, -, hw⟩
      dsimp only at hw
      split at hw
      · next ht =>
          obtain ⟨c, hc, rfl⟩ := List.mem_map.mp hw
          have hc := ((mem_strided (by decide)).mp hc).1
          refine ⟨elementOf _ _ _ _, elementOf_inside ht hc, ?_⟩
          have hkey : auxKey s.axis (elementOf (pl.kernelTokens part) part.headSize
              (block * kTokensPerBlock + thread / kWarpSize) c) =
              pl.tokenKey part (block * kTokensPerBlock + thread / kWarpSize) := by
            rw [haxis, auxKey_token]
          rw [hparams block thread ht]
          exact Prod.ext sectionOutput_addr.symm (sectionSymbol_elementOf hlevels hkey).symm
      · cases hw
    · rintro ⟨x, hx, rfl⟩
      obtain ⟨t, ht, c, hc, rfl⟩ := @exists_elementOf n (pl.kernelTokens part) s.headCount
        part.headSize x hx
      -- lane `c % 32` of the warp of token `t`
      obtain ⟨x, hthread, rfl, hlane⟩ := exists_warp ht (Nat.mod_lt c (by decide))
      refine ⟨x, hthread, ?_⟩
      have hkey : auxKey s.axis (elementOf (pl.kernelTokens part) part.headSize
          (x.1 * kTokensPerBlock + x.2 / kWarpSize) c) =
          pl.tokenKey part (x.1 * kTokensPerBlock + x.2 / kWarpSize) := by
        rw [haxis, auxKey_token]
      rw [if_pos ht, hlane]
      refine List.mem_map.mpr ⟨c, (mem_strided (by decide)).mpr ⟨hc, c / kWarpSize, ?_⟩, ?_⟩
      · exact (Nat.mod_add_div c kWarpSize).symm
      · rw [hparams _ _ ht]
        exact Prod.ext sectionOutput_addr.symm (sectionSymbol_elementOf hlevels hkey).symm

/-! ### `_quantize` -/

variable {slot : Slot} {kv : KV} {maxBlocks : Nat}

/-- The arrays of a section in the auxiliary buffer. -/
def sectionArrays (pl : Pipeline) (s : QuantSection) : AuxArrays where
  auxMin := ⟨.aux, s.auxMinOffset⟩
  auxScale := ⟨.aux, s.auxScaleOffset⟩
  tmpMax := ⟨.aux, s.auxMinOffset + pl.layout.auxArenaBytes / 2⟩
  tmpInv := ⟨.aux, s.auxScaleOffset + pl.layout.auxArenaBytes / 2⟩

/-- The operations of `_quantize` on the auxiliary buffer store the four rows. -/
theorem quantizeRows_eq {cells : Index → List Cell} {levels : Nat} {aux : Mem}
    (hapart : RowsApart (auxRows a shape fun key => pl.ar.paramsOf levels (cells key))) :
    let minimum := View.contiguous a.auxMin.offset 2 shape
    let maximum := View.contiguous a.tmpMax.offset 2 shape
    let scale := View.contiguous a.auxScale.offset 2 shape
    let inverse := View.contiguous a.tmpInv.offset 2 shape
    let m := minimum.storeCells (fun key => pl.ar.amin (cells key)) aux
    let m := maximum.storeCells (fun key => pl.ar.amax (cells key)) m
    let m := inverse.storeCells
      (fun key => pl.ar.scaleOf levels (maximum.cell m key) (minimum.cell m key)) m
    let m := scale.storeCells (inverse.cell m) m
    inverse.storeCells (fun key => pl.ar.reciprocal (inverse.cell m key)) m =
      storeRows (auxRows a shape fun key => pl.ar.paramsOf levels (cells key)) aux := by
  intro minimum maximum scale inverse m₁ m₂ m₃ m₄
  obtain ⟨hcells, hframe⟩ := View.foldl_storeCells (g := Prod.snd) rows_separated hapart aux
  have hsep : ∀ base, (View.contiguous base 2 shape).Separated 2 :=
    fun _ => View.contiguous_separated
  simp only [RowsApart, auxRows, List.pairwise_cons, List.mem_cons, List.not_mem_nil, or_false,
    forall_eq_or_imp, forall_eq, IsEmpty.forall_iff, implies_true, List.Pairwise.nil, and_true]
    at hapart
  obtain ⟨⟨hminmax, hminscale, hmininv⟩, ⟨hmaxscale, hmaxinv⟩, hscaleinv⟩ := hapart
  have hswap : ∀ {u v : View}, (∀ a, ¬ (u.Covers 2 a ∧ v.Covers 2 a)) →
      ∀ a, ¬ (v.Covers 2 a ∧ u.Covers 2 a) := fun h a hcov => h a hcov.symm
  let scaleCell := fun key => pl.ar.scaleOf levels (pl.ar.amax (cells key)) (pl.ar.amin (cells key))
  have hmax₂ : ∀ key, Index.Inside key shape → maximum.cell m₂ key = pl.ar.amax (cells key) :=
    fun key hkey => View.cell_storeCells (hsep _) hkey
  have hmin₂ : ∀ key, Index.Inside key shape → minimum.cell m₂ key = pl.ar.amin (cells key) :=
    fun key hkey => (View.cell_storeCells_apart hminmax hkey).trans
      (View.cell_storeCells (hsep _) hkey)
  have hscale₃ : ∀ key, Index.Inside key shape → inverse.cell m₃ key = scaleCell key := by
    intro key hkey
    refine (View.cell_storeCells (hsep _) hkey).trans ?_
    rw [hmax₂ key hkey, hmin₂ key hkey]
  have hinverse₄ : ∀ key, Index.Inside key shape → inverse.cell m₄ key = scaleCell key :=
    fun key hkey => (View.cell_storeCells_apart (hswap hscaleinv) hkey).trans (hscale₃ key hkey)
  refine @View.ext_cells _ _ _ (auxRows a shape fun key => pl.ar.paramsOf levels (cells key))
    Prod.fst (fun row hrow key hkey => ?_) fun b hb => ?_
  · rw [storeRows, hcells row hrow key hkey]
    simp only [auxRows, List.mem_cons, List.not_mem_nil, or_false] at hrow
    rcases hrow with rfl | rfl | rfl | rfl
    · refine (View.cell_storeCells_apart hmininv hkey).trans ?_
      refine (View.cell_storeCells_apart hminscale hkey).trans ?_
      exact (View.cell_storeCells_apart hmininv hkey).trans (hmin₂ key hkey)
    · refine (View.cell_storeCells_apart hmaxinv hkey).trans ?_
      refine (View.cell_storeCells_apart hmaxscale hkey).trans ?_
      exact (View.cell_storeCells_apart hmaxinv hkey).trans (hmax₂ key hkey)
    · refine (View.cell_storeCells_apart hscaleinv hkey).trans ?_
      exact (View.cell_storeCells (hsep _) hkey).trans (hscale₃ key hkey)
    · refine (View.cell_storeCells (hsep _) hkey).trans ?_
      rw [hinverse₄ key hkey]
      rfl
  · rw [storeRows, hframe b hb]
    simp only [auxRows, List.mem_cons, List.not_mem_nil, or_false, forall_eq_or_imp, forall_eq]
      at hb
    obtain ⟨hmin, hmax, hscale, hinverse⟩ := hb
    refine (View.storeCells_frame hinverse).trans ?_
    refine (View.storeCells_frame hscale).trans ?_
    refine (View.storeCells_frame hinverse).trans ?_
    exact (View.storeCells_frame hmax).trans (View.storeCells_frame hmin)

theorem fill_empty (start : Nat) (f : Nat → UInt8) : m.fill ⟨start, 0⟩ f = m := by
  funext b
  exact Mem.fill_frame (by simp only [Span.stop]; omega)

/-- The first buffer after a section, whose elements are quantized in place. -/
def quantizedArena (pl : Pipeline) (part : LayerPartLayout) (n : Nat) (s : QuantSection) (m : Mem) :
    Mem :=
  (pl.sectionSource part n s).storeCells (fun x =>
    let p := pl.sectionParams part n s m (auxKey s.axis x)
    pl.ar.quantized s.numLevels ((pl.sectionSource part n s).cell m x) p.minimum p.inverse) m

/-- **A section of `_quantize`** stores the same rows and symbols. -/
theorem quantizeSection_eq (hheads : s.headStart + s.headCount ≤ part.numHeads)
    (hfit : ∀ offset ∈ [s.auxMinOffset, s.auxScaleOffset],
      offset + (pl.sectionShape part n s).numel * 2 ≤ pl.layout.auxArenaBytes / 2)
    (haux : pl.layout.auxArenaBytes ≤ slot.aux.size)
    (hapart : RowsApart (auxRows (pl.sectionArrays s) (pl.sectionShape part n s)
      (pl.sectionParams part n s slot.arenaA.mem))) :
    pl.quantizeSection part (n * pl.kernelTokens part) (n * pl.kernelTokens part)
        (pl.viewsOf part n).canonicalA (pl.u8Layer part n) slot s =
      some (((slot.setAux (storeRows (auxRows (pl.sectionArrays s) (pl.sectionShape part n s)
        (pl.sectionParams part n s slot.arenaA.mem)) slot.aux.mem)).setA
          (pl.quantizedArena part n s slot.arenaA.mem)).setB
            ((pl.sectionOutput part n s).store 1
              (fun x _ => pl.sectionSymbol part n s slot.arenaA.mem x) slot.arenaB.mem)) := by
  have hsource : (pl.sectionSource part n s).Separated 2 :=
    (View.narrow2Part hheads).separated View.contiguous_separated
  let aux := storeRows (auxRows (pl.sectionArrays s) (pl.sectionShape part n s)
    (pl.sectionParams part n s slot.arenaA.mem)) slot.aux.mem
  have hrows : _ = aux := @quantizeRows_eq pl (pl.sectionArrays s) (pl.sectionShape part n s)
    (pl.sectionCells part n s slot.arenaA.mem) s.numLevels slot.aux.mem hapart
  have hclear : (if s.axis = .token then
      zeroAuxRows s.auxScaleOffset (n * pl.kernelTokens part) (n * pl.kernelTokens part)
        (zeroAuxRows s.auxMinOffset (n * pl.kernelTokens part) (n * pl.kernelTokens part)
          slot.aux.mem) else slot.aux.mem) = slot.aux.mem := by
    simp only [zeroAuxRows, Nat.sub_self, Nat.zero_mul, fill_empty, ite_self]
  have hviews : ∀ offset ∈ [s.auxMinOffset, s.auxScaleOffset], ∀ temporary,
      pl.auxView slot offset (auxShape s.axis ((pl.viewsOf part n).canonicalA.shape.1,
        (pl.viewsOf part n).canonicalA.shape.2.1) s.headCount part.headSize) temporary =
      some (.contiguous (if temporary then offset + pl.layout.auxArenaBytes / 2 else offset) 2
        (pl.sectionShape part n s)) :=
    fun offset ho temporary => auxView_eq (hfit offset ho) haux temporary
  have hmin := hviews s.auxMinOffset List.mem_cons_self
  have hscale := hviews s.auxScaleOffset (List.mem_cons_of_mem _ List.mem_cons_self)
  simp only [quantizeSection, hclear, hmin, hscale, bind, Option.bind, pure, if_true,
    Bool.false_eq_true, if_false]
  -- the elements read the rows when all of them are stored
  let minimum := View.contiguous s.auxMinOffset 2 (pl.sectionShape part n s)
  let inverse := View.contiguous (s.auxScaleOffset + pl.layout.auxArenaBytes / 2) 2
    (pl.sectionShape part n s)
  let key := broadcastIndex (pl.sectionShape part n s)
  let arena := fun aux => (pl.sectionSource part n s).storeCells (fun x =>
    pl.ar.quantized s.numLevels ((pl.sectionSource part n s).cell slot.arenaA.mem x)
      (minimum.cell aux (key x)) (inverse.cell aux (key x))) slot.arenaA.mem
  refine (congrArg (fun aux => some (((slot.setAux aux).setA (arena aux)).setB
    ((pl.sectionOutput part n s).store 1 (fun x _ => pl.ar.toU8 (pl.ar.toF32
      ((pl.sectionSource part n s).cell (arena aux) x))) slot.arenaB.mem))) hrows).trans ?_
  have harena : arena aux = pl.quantizedArena part n s slot.arenaA.mem := by
    refine View.storeCells_congr fun x hx => ?_
    have hkey : (auxKey s.axis x).Inside (pl.sectionShape part n s) := auxKey_inside hx s.axis
    obtain ⟨hminimum, -, hinverse⟩ := cell_storeRows (m := slot.aux.mem) hapart hkey
    have hread : key x = auxKey s.axis x := broadcastIndex_auxShape hx s.axis
    dsimp only
    rw [hread, ← hminimum, ← hinverse]
    rfl
  rw [harena]
  refine congrArg some (congrArg (Slot.setB _) (View.store_congr fun x hx => ?_))
  have hcell : (pl.sectionSource part n s).cell (pl.quantizedArena part n s slot.arenaA.mem) x = _ :=
    View.cell_storeCells hsource hx
  rw [hcell]
  rfl

end Pipeline

end KVServe.Runtime

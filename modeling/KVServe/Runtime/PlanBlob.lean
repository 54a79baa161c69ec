import KVServe.Lib.Stores
import KVServe.Runtime.Pipeline

/-!
# KVServe.Runtime.PlanBlob

The **metadata of an execution plan**: `build_meta` of `cpp_backend.py` packs the plan of one K/V
part into a flat `int64` tensor, and `load_part` and `load_section` of `kvs_compress.cu` read it
back. The two sides share nothing but the numbers of the fields.

A word of the tensor is an integer or a device pointer. A pointer names a tensor and an offset
into its storage, so that no arithmetic leads from one tensor to another.
-/

namespace KVServe.Runtime

/-! ### Words -/

/-- The tensors on the device that a plan points into. -/
inductive Tensor
  | arenaA
  | arenaB
  | aux
  | rawTail
  | cache (layerName : String)
  | signs (layerName : String) (kvPart : KVPart)
  | headOrder (layerName : String)
  deriving DecidableEq, Repr

/-- A device pointer. -/
structure Ptr where
  tensor : Tensor
  offset : Nat
  deriving DecidableEq, Repr

/-- The pointer `n` bytes on. -/
def Ptr.add (p : Ptr) (n : Nat) : Ptr := { p with offset := p.offset + n }

/-- A word of the metadata. -/
inductive Word
  | int (i : Int)
  | ptr (p : Ptr)
  deriving DecidableEq, Repr

namespace Word

/-- `reinterpret_cast`; `none` is the null pointer. -/
def toPtr : Word → Option Ptr
  | .int _ => none
  | .ptr p => some p

/-- `reinterpret_cast` to a pointer that is never null. -/
def pointer : Word → Ptr
  | .int _ => ⟨.arenaA, 0⟩
  | .ptr p => p

/-- A word that is used as an `int64_t`, which no plan makes negative. -/
def toInt64 : Word → Nat
  | .int i => i.toNat
  | .ptr _ => 0

/-- `static_cast<int>`. -/
def toInt32 : Word → Nat
  | .int i => (i.bmod (2 ^ 32)).toNat
  | .ptr _ => 0

@[simp] theorem toPtr_ptr (p : Ptr) : (ptr p).toPtr = some p := rfl

@[simp] theorem pointer_ptr (p : Ptr) : (ptr p).pointer = p := rfl

@[simp] theorem toPtr_int (i : Int) : (int i).toPtr = none := rfl

@[simp] theorem toInt64_int (n : Nat) : (int n).toInt64 = n := rfl

/-- Numbers of an `int` survive the cast. -/
theorem toInt32_int {n : Nat} (h : n < 2 ^ 31) : (int n).toInt32 = n := by
  rw [toInt32, Int.bmod_eq_of_le (by omega) (by omega), Int.toNat_natCast]

end Word

/-! ### Packing -/

/-- `KVS_META_HEADER_FIELDS` -/
def kvsMetaHeaderFields : Nat := 7

/-- `KVS_PART_FIELDS` -/
def kvsPartFields : Nat := 19

/-- `KVS_SECTION_FIELDS` -/
def kvsSectionFields : Nat := 6

/-- `_AXIS_CODES` -/
def axisCode : QuantAxis → Nat
  | .channel => 0
  | .token => 1
  | .tensor => 2

namespace Pipeline

variable (pl : Pipeline)

/-- The position of the row of a layer part. -/
def partRow (index : Nat) : Nat := kvsMetaHeaderFields + kvsPartFields * index

/-- The position of the row of a section, in the metadata of `numParts` layer parts. -/
def sectionRow (numParts sectionIndex : Nat) : Nat :=
  kvsMetaHeaderFields + kvsPartFields * numParts + kvsSectionFields * sectionIndex

/-- The stores to the header. -/
def headerStores (numParts : Nat) : List (Nat × Word) :=
  [(0, .int numParts), (1, .ptr ⟨.arenaA, 0⟩), (2, .ptr ⟨.arenaB, 0⟩), (3, .ptr ⟨.aux, 0⟩),
    (4, .ptr ⟨.rawTail, 0⟩), (5, .int pl.layout.u8Base), (6, .int pl.layout.auxArenaBytes)]

/-- The stores to the row of a layer part. Without a transformer there are no signs, and a head
order that moves no head is left out. -/
def partStores (row sectionIndex : Nat) (part : LayerPartLayout) : List (Nat × Word) :=
  let cache := pl.cachePart part
  [(row + 0, .ptr ⟨.cache part.layerName, cache.base⟩),
    (row + 1, .int cache.stride.1),
    (row + 2, .int cache.stride.2.1),
    (row + 3, .int cache.stride.2.2.1),
    (row + 4, if pl.stages.contains .transformer then .ptr ⟨.signs part.layerName part.kvPart, 0⟩
      else .int 0),
    (row + 5, if pl.identityOrder part.layerName then .int 0
      else .ptr ⟨.headOrder part.layerName, 0⟩),
    (row + 6, .int part.numHeads),
    (row + 7, .int part.headSize),
    (row + 8, .int (part.blockSize / pl.blocksPerLogical : Nat)),
    (row + 9, .int part.rawOffset),
    (row + 10, .int (pl.layout.scratchStride + part.rawOffset : Nat)),
    (row + 11, .int part.u8Offset),
    (row + 12, .int part.rawBytes),
    (row + 13, .int (pl.stages.contains .transformer).toNat),
    (row + 14, .int (pl.stages.contains .quantizer).toNat),
    (row + 15, .int part.sections.length),
    (row + 16, .int sectionIndex),
    (row + 17, .int part.blockSize),
    (row + 18, .int pl.blocksPerLogical)]

/-- The stores to the row of a section. -/
def sectionStores (row : Nat) (s : QuantSection) : List (Nat × Word) :=
  [(row + 0, .int s.headStart), (row + 1, .int s.headCount), (row + 2, .int s.numLevels),
    (row + 3, .int (axisCode s.axis)), (row + 4, .int s.auxMinOffset),
    (row + 5, .int s.auxScaleOffset)]

/-- The inner loop of `build_meta`. -/
def sectionLoop (numParts : Nat) : (sectionIndex : Nat) → List QuantSection → List (Nat × Word)
  | _, [] => []
  | sectionIndex, s :: rest => sectionStores (sectionRow numParts sectionIndex) s ++
      sectionLoop numParts (sectionIndex + 1) rest

/-- The loop of `build_meta` over the layer parts. -/
def partLoop (numParts : Nat) :
    (index sectionIndex : Nat) → List LayerPartLayout → List (Nat × Word)
  | _, _, [] => []
  | index, sectionIndex, part :: rest =>
      pl.partStores (partRow index) sectionIndex part ++
        sectionLoop numParts sectionIndex part.sections ++
        partLoop numParts (index + 1) (sectionIndex + part.sections.length) rest

/-- `build_meta`, over a tensor of zeros. -/
def buildMeta (kvPart : KVPart) : Nat → Word :=
  let parts := pl.layout.parts kvPart
  stored (fun _ => .int 0) (pl.headerStores parts.length ++ pl.partLoop parts.length 0 0 parts)

end Pipeline

/-! ### Loading -/

/-- `SectionDesc`. -/
structure SectionDesc where
  headStart : Nat
  headCount : Nat
  numLevels : Nat
  axis : Nat
  auxMinOffset : Nat
  auxScaleOffset : Nat
  deriving DecidableEq, Repr

/-- `PartDesc`; `sections` is the position of the first row of its sections. -/
structure PartDesc where
  cacheBase : Ptr
  blockStride : Nat
  headStride : Nat
  tokenStride : Nat
  signs : Option Ptr
  headOrder : Option Ptr
  numHeads : Nat
  headSize : Nat
  kernelTokens : Nat
  rawOffset : Nat
  scratchOffset : Nat
  u8Offset : Nat
  rawBytes : Nat
  usesTransformer : Nat
  quantized : Nat
  numSections : Nat
  sections : Nat
  blockSize : Nat
  blocksPerLogical : Nat
  deriving DecidableEq, Repr

/-- `load_part`. -/
def loadPart (words : Nat → Word) (row sectionBase : Nat) : PartDesc where
  cacheBase := (words (row + 0)).pointer
  blockStride := (words (row + 1)).toInt64
  headStride := (words (row + 2)).toInt64
  tokenStride := (words (row + 3)).toInt64
  signs := (words (row + 4)).toPtr
  headOrder := (words (row + 5)).toPtr
  numHeads := (words (row + 6)).toInt32
  headSize := (words (row + 7)).toInt32
  kernelTokens := (words (row + 8)).toInt32
  rawOffset := (words (row + 9)).toInt64
  scratchOffset := (words (row + 10)).toInt64
  u8Offset := (words (row + 11)).toInt64
  rawBytes := (words (row + 12)).toInt64
  usesTransformer := (words (row + 13)).toInt32
  quantized := (words (row + 14)).toInt32
  numSections := (words (row + 15)).toInt32
  sections := sectionBase + (words (row + 16)).toInt64 * kvsSectionFields
  blockSize := (words (row + 17)).toInt32
  blocksPerLogical := (words (row + 18)).toInt32

/-- `load_section`. -/
def loadSection (words : Nat → Word) (row : Nat) : SectionDesc where
  headStart := (words (row + 0)).toInt32
  headCount := (words (row + 1)).toInt32
  numLevels := (words (row + 2)).toInt32
  axis := (words (row + 3)).toInt32
  auxMinOffset := (words (row + 4)).toInt64
  auxScaleOffset := (words (row + 5)).toInt64

/-! ### Reading back -/

namespace Pipeline

variable {pl : Pipeline} {numParts index sectionIndex : Nat} {parts : List LayerPartLayout}
  {part : LayerPartLayout} {s : QuantSection}

theorem keys_sectionLoop {sections : List QuantSection} :
    (sectionLoop numParts sectionIndex sections).map Prod.fst =
      List.range' (sectionRow numParts sectionIndex) (kvsSectionFields * sections.length) := by
  induction sections generalizing sectionIndex with
  | nil => rfl
  | cons s rest ih =>
      have hrow : sectionRow numParts (sectionIndex + 1) =
          sectionRow numParts sectionIndex + 1 * kvsSectionFields := by
        simp only [sectionRow, Nat.mul_succ, Nat.one_mul, Nat.add_assoc]
      have hlength : kvsSectionFields * (s :: rest).length =
          kvsSectionFields + kvsSectionFields * rest.length := by
        rw [List.length_cons, Nat.mul_succ, Nat.add_comm]
      rw [sectionLoop, List.map_append, ih, hrow, hlength, ← List.range'_append]
      rfl

/-- The stores of the loop go to the rows of its layer parts and of their sections. -/
theorem keys_partLoop {a : Nat}
    (h : a ∈ (pl.partLoop numParts index sectionIndex parts).map Prod.fst) :
    (partRow index ≤ a ∧ a < partRow (index + parts.length)) ∨
      sectionRow numParts sectionIndex ≤ a := by
  induction parts generalizing index sectionIndex with
  | nil => exact absurd h List.not_mem_nil
  | cons part rest ih =>
      rw [partLoop, List.map_append, List.map_append, List.mem_append, List.mem_append] at h
      simp only [partRow, sectionRow, kvsPartFields, kvsSectionFields, List.length_cons] at ih ⊢
      rcases h with (h | h) | h
      · have h : a ∈ List.range' (partRow index) 19 := h
        rw [List.mem_range'_1, partRow, kvsPartFields] at h
        omega
      · rw [keys_sectionLoop, List.mem_range'_1, sectionRow, kvsPartFields,
          kvsSectionFields] at h
        omega
      · have h := ih h
        omega

/-- **No word is stored twice.** -/
theorem nodup_partLoop (hle : index + parts.length ≤ numParts) :
    ((pl.partLoop numParts index sectionIndex parts).map Prod.fst).Nodup := by
  induction parts generalizing index sectionIndex with
  | nil => exact List.nodup_nil
  | cons part rest ih =>
      rw [List.length_cons] at hle
      rw [partLoop, List.map_append, List.map_append, keys_sectionLoop, List.nodup_append,
        List.nodup_append]
      have hrow : ((pl.partStores (partRow index) sectionIndex part).map Prod.fst) =
          List.range' (partRow index) 19 := rfl
      rw [hrow]
      refine ⟨⟨List.nodup_range', List.nodup_range', ?_⟩, ih (by omega), ?_⟩
      · intro a ha b hb
        rw [List.mem_range'_1] at ha hb
        simp only [partRow, sectionRow, kvsPartFields] at ha hb
        omega
      · intro a ha b hb
        have hb := keys_partLoop hb
        rw [List.mem_append, List.mem_range'_1, List.mem_range'_1] at ha
        simp only [partRow, sectionRow, kvsPartFields, kvsSectionFields] at ha hb
        omega

theorem nodup_buildMeta {kvPart : KVPart} :
    ((pl.headerStores (pl.layout.parts kvPart).length ++
      pl.partLoop (pl.layout.parts kvPart).length 0 0 (pl.layout.parts kvPart)).map
        Prod.fst).Nodup := by
  rw [List.map_append, List.nodup_append]
  refine ⟨@List.nodup_range' 0 7 1 Nat.one_pos, nodup_partLoop (by rw [Nat.zero_add]), ?_⟩
  intro a ha b hb
  have ha : a ∈ List.range' 0 7 := ha
  have hb := keys_partLoop hb
  rw [List.mem_range'_1] at ha
  simp only [partRow, sectionRow, kvsMetaHeaderFields] at hb
  omega

/-- The number of sections of some layer parts. -/
def sectionCount (parts : List LayerPartLayout) : Nat := (parts.map (·.sections.length)).sum

/-- The rows of a layer part are among the stores of the loop. -/
theorem mem_partLoop {k : Nat} (hk : parts[k]? = some part) {w : Nat × Word}
    (hw : w ∈ pl.partStores (partRow (index + k)) (sectionIndex + sectionCount (parts.take k))
        part ++
      sectionLoop numParts (sectionIndex + sectionCount (parts.take k)) part.sections) :
    w ∈ pl.partLoop numParts index sectionIndex parts := by
  induction parts generalizing index sectionIndex k with
  | nil => cases hk
  | cons head rest ih =>
      rw [partLoop, List.mem_append]
      cases k with
      | zero =>
          obtain rfl : head = part := Option.some.inj hk
          exact Or.inl hw
      | succ k =>
          refine Or.inr (ih hk ?_)
          have hcount : sectionIndex + sectionCount ((head :: rest).take (k + 1)) =
              sectionIndex + head.sections.length + sectionCount (rest.take k) := by
            rw [sectionCount, List.take_succ_cons, List.map_cons, List.sum_cons, ← Nat.add_assoc]
            rfl
          rw [hcount, ← Nat.add_assoc, Nat.add_right_comm] at hw
          exact hw

/-- So are the rows of its sections. -/
theorem mem_sectionLoop {sections : List QuantSection} {i : Nat} (hi : sections[i]? = some s)
    {w : Nat × Word} (hw : w ∈ sectionStores (sectionRow numParts (sectionIndex + i)) s) :
    w ∈ sectionLoop numParts sectionIndex sections := by
  induction sections generalizing sectionIndex i with
  | nil => cases hi
  | cons head rest ih =>
      rw [sectionLoop, List.mem_append]
      cases i with
      | zero =>
          obtain rfl : head = s := Option.some.inj hi
          exact Or.inl hw
      | succ i =>
          refine Or.inr (ih hi ?_)
          rwa [← Nat.add_assoc, Nat.add_right_comm] at hw

/-- What `build_meta` was given of a layer part. -/
def partDesc (pl : Pipeline) (numParts sectionIndex : Nat) (part : LayerPartLayout) :
    PartDesc where
  cacheBase := ⟨.cache part.layerName, (pl.cachePart part).base⟩
  blockStride := (pl.cachePart part).stride.1
  headStride := (pl.cachePart part).stride.2.1
  tokenStride := (pl.cachePart part).stride.2.2.1
  signs := if pl.stages.contains .transformer then some ⟨.signs part.layerName part.kvPart, 0⟩
    else none
  headOrder := if pl.identityOrder part.layerName then none
    else some ⟨.headOrder part.layerName, 0⟩
  numHeads := part.numHeads
  headSize := part.headSize
  kernelTokens := pl.kernelTokens part
  rawOffset := part.rawOffset
  scratchOffset := pl.layout.scratchStride + part.rawOffset
  u8Offset := part.u8Offset
  rawBytes := part.rawBytes
  usesTransformer := (pl.stages.contains .transformer).toNat
  quantized := (pl.stages.contains .quantizer).toNat
  numSections := part.sections.length
  sections := sectionRow numParts sectionIndex
  blockSize := part.blockSize
  blocksPerLogical := pl.blocksPerLogical

/-- What it was given of a section. -/
def sectionDesc (s : QuantSection) : SectionDesc where
  headStart := s.headStart
  headCount := s.headCount
  numLevels := s.numLevels
  axis := axisCode s.axis
  auxMinOffset := s.auxMinOffset
  auxScaleOffset := s.auxScaleOffset

/-- The numbers that the other side casts to `int` fit one. -/
structure FitsInt (pl : Pipeline) (part : LayerPartLayout) : Prop where
  numHeads : part.numHeads < 2 ^ 31
  headSize : part.headSize < 2 ^ 31
  blockSize : part.blockSize < 2 ^ 31
  blocksPerLogical : pl.blocksPerLogical < 2 ^ 31
  numSections : part.sections.length < 2 ^ 31
  sections : ∀ s ∈ part.sections, s.headStart < 2 ^ 31 ∧ s.headCount < 2 ^ 31 ∧
    s.numLevels < 2 ^ 31

/-- **The metadata is read back as it was packed.** -/
theorem load_buildMeta {kvPart : KVPart} {k : Nat}
    (hk : (pl.layout.parts kvPart)[k]? = some part) (hfits : FitsInt pl part) :
    let numParts := (pl.layout.parts kvPart).length
    let desc := loadPart (pl.buildMeta kvPart) (partRow k) (sectionRow numParts 0)
    desc = pl.partDesc numParts (sectionCount ((pl.layout.parts kvPart).take k)) part ∧
      ∀ i s, part.sections[i]? = some s →
        loadSection (pl.buildMeta kvPart) (desc.sections + i * kvsSectionFields) =
          sectionDesc s := by
  intro numParts desc
  let before := sectionCount ((pl.layout.parts kvPart).take k)
  have hword : ∀ w ∈ pl.partStores (partRow k) before part ++
      sectionLoop numParts before part.sections, pl.buildMeta kvPart w.1 = w.2 := by
    intro w hw
    refine stored_of_mem nodup_buildMeta (List.mem_append_right _ ?_)
    refine mem_partLoop hk ?_
    rwa [Nat.zero_add, Nat.zero_add]
  have hrow : ∀ w ∈ pl.partStores (partRow k) before part, pl.buildMeta kvPart w.1 = w.2 :=
    fun w hw => hword w (List.mem_append_left _ hw)
  have hdesc : desc = pl.partDesc numParts before part := by
    simp only [partStores, List.forall_mem_cons] at hrow
    obtain ⟨h0, h1, h2, h3, h4, h5, h6, h7, h8, h9, h10, h11, h12, h13, h14, h15, h16, h17, h18,
      -⟩ := hrow
    have hbool : ∀ b : Bool, b.toNat < 2 ^ 31 := fun b => by cases b <;> decide
    have htokens : part.blockSize / pl.blocksPerLogical < 2 ^ 31 :=
      Nat.lt_of_le_of_lt (Nat.div_le_self _ _) hfits.blockSize
    simp only [desc, loadPart, partDesc, h0, h1, h2, h3, h4, h5, h6, h7, h8, h9, h10, h11, h12,
      h13, h14, h15, h16, h17, h18, Word.pointer_ptr, Word.toInt64_int,
      Word.toInt32_int hfits.numHeads, Word.toInt32_int hfits.headSize,
      Word.toInt32_int hfits.blockSize, Word.toInt32_int hfits.blocksPerLogical,
      Word.toInt32_int hfits.numSections, Word.toInt32_int htokens, Word.toInt32_int (hbool _)]
    congr 1
    · split <;> rfl
    · split <;> rfl
    · rw [sectionRow, Nat.mul_zero, Nat.add_zero, Nat.mul_comm before]
      rfl
  refine ⟨hdesc, fun i s hi => ?_⟩
  have hpos : desc.sections + i * kvsSectionFields = sectionRow numParts (before + i) := by
    rw [hdesc]
    simp only [partDesc, sectionRow]
    rw [Nat.mul_add, Nat.mul_comm i, Nat.add_assoc]
  have hstores : ∀ w ∈ sectionStores (sectionRow numParts (before + i)) s,
      pl.buildMeta kvPart w.1 = w.2 :=
    fun w hw => hword w (List.mem_append_right _ (mem_sectionLoop hi hw))
  simp only [sectionStores, List.forall_mem_cons] at hstores
  obtain ⟨h0, h1, h2, h3, h4, h5, -⟩ := hstores
  obtain ⟨hstart, hcount, hlevels⟩ := hfits.sections s (List.mem_of_getElem? hi)
  have haxis : axisCode s.axis < 2 ^ 31 := by cases s.axis <;> decide
  simp only [hpos, loadSection, sectionDesc, h0, h1, h2, h3, h4, h5, Word.toInt64_int,
    Word.toInt32_int hstart, Word.toInt32_int hcount, Word.toInt32_int hlevels,
    Word.toInt32_int haxis]

end Pipeline

end KVServe.Runtime

import KVServe.Lib.Elements
import KVServe.Lib.Quantization
import KVServe.Runtime.Tail

/-!
# KVServe.Runtime.ExactQuantizer

`_quantize` and `_dequantize` in exact arithmetic: the elements of the raw scratch and of the
auxiliary buffer are numbers of an ordered field, at half their byte offsets. Offsets, shapes,
the order of the sections and the places that are overwritten are those of the source.
-/

namespace KVServe.Runtime

variable {K : Type} [Field K] [LinearOrder K] [FloorRing K]

/-- The buffers of a slot that the quantizer uses, with their sizes in bytes. -/
structure ExactSlot (K : Type) where
  sizeA : Nat
  sizeB : Nat
  sizeAux : Nat
  /-- The elements of arena A. -/
  arenaA : Nat → K
  /-- The bytes of arena B. -/
  arenaB : Nat → UInt8
  /-- The elements of the auxiliary buffer. -/
  aux : Nat → K

/-- `clamp_(min=1e-5)`. -/
def clampMin : K := 1 / 100000

/-- `buffer[start : start + nbytes].view(dtype).view(shape)` of a buffer of `size` bytes: torch
refuses an odd offset. -/
def elementView (size start : Nat) (shape : Index) : Option View :=
  if start % 2 = 0 ∧ start + shape.numel * 2 ≤ size then
    some (.contiguous (start / 2) 1 shape)
  else none

/-- `torch.amin` of some elements. A section has heads and a body has blocks, so none that is
read is the minimum of no elements. -/
def aminOf (values : List K) : K := values.min?.getD 0

/-- `torch.amax`. -/
def amaxOf (values : List K) : K := values.max?.getD 0

/-- `output.copy_(source)` of numbers to bytes. -/
def toByte (value : K) : UInt8 := UInt8.ofNat ⌊value⌋.toNat

namespace Pipeline

variable (pl : Pipeline)

/-- `_layer_views`, as far as the quantizer needs it: `canonical_a`. -/
def exactCanonicalA (slot : ExactSlot K) (part : LayerPartLayout) (physicalBlocks : Nat) :
    Option View := do
  let shape := (physicalBlocks, pl.kernelTokens part, part.numHeads, part.headSize)
  let canonicalA ← elementView slot.sizeA part.rawOffset shape
  let _ ← elementView slot.sizeA (pl.layout.scratchStride + part.rawOffset) shape
  return canonicalA

/-- `u8_layer`. -/
def exactU8Layer (slot : ExactSlot K) (part : LayerPartLayout) (physicalBlocks : Nat) :
    Option View :=
  let s := pl.u8Span part physicalBlocks
  if s.Within slot.sizeB then
    some (.contiguous s.start 1
      (physicalBlocks, pl.kernelTokens part, part.numHeads, part.headSize))
  else none

/-- `_aux_view`. -/
def exactAuxView (slot : ExactSlot K) (offset : Nat) (shape : Index) (temporary : Bool := false) :
    Option View :=
  elementView slot.sizeAux (if temporary then offset + pl.layout.auxArenaBytes / 2 else offset)
    shape

/-- `_aux_view(…)[valid_tokens:].zero_()` for the rows of a token section. -/
def zeroRows (offset capacity validTokens : Nat) (aux : Nat → K) (a : Nat) : K :=
  if offset / 2 + validTokens ≤ a ∧ a < offset / 2 + capacity then 0 else aux a

/-- `source.sub_(minimum).mul_(inverse_scale).round_().clamp_(0, num_levels - 1)`. -/
def exactSymbol (levels : Nat) (value minimum inverse : K) : K :=
  min (max (roundHalfEven ((value - minimum) * inverse) : K) 0) ((levels - 1 : Nat) : K)

/-- The operations on the rows of a section, from the extrema of its groups. -/
def reduceRows (minimum scale maximum inverse : View) (lowest highest : Index → K) (levels : Nat)
    (aux : Nat → K) : Nat → K :=
  let aux := minimum.put lowest aux
  let aux := maximum.put highest aux
  -- `inverse_scale.copy_(maximum).sub_(minimum).clamp_(min=1e-5)`
  let aux := inverse.put (maximum.get aux) aux
  let aux := inverse.put (fun key => inverse.get aux key - minimum.get aux key) aux
  let aux := inverse.put (fun key => max (inverse.get aux key) clampMin) aux
  let aux := inverse.put (fun key => inverse.get aux key / ((levels - 1 : Nat) : K)) aux
  let aux := scale.put (inverse.get aux) aux
  inverse.put (fun key => 1 / inverse.get aux key) aux

/-- The elements of a group. -/
def groupValues {α : Type} (source : View) (axis : QuantAxis) (arenaA : Nat → α) (key : Index) :
    List α :=
  ((Index.all source.shape).filter (auxKey axis · = key)).map (source.get arenaA)

/-- The symbols replace the elements of the source. -/
def symbolize (source minimum inverse : View) (s : QuantSection) (aux arenaA : Nat → K) : Nat → K :=
  source.put (fun x => exactSymbol s.numLevels (source.get arenaA x)
    (minimum.get aux (auxKey s.axis x)) (inverse.get aux (auxKey s.axis x))) arenaA

/-- One pass of the loop over the sections in `_quantize`. -/
def exactQuantizeSection (part : LayerPartLayout) (capacity validTokens : Nat)
    (validA validU8 : View) (slot : ExactSlot K) (s : QuantSection) : Option (ExactSlot K) := do
  let source := validA.narrow2 s.headStart s.headCount
  let output := validU8.narrow2 s.headStart s.headCount
  let shape := auxShape s.axis (validA.shape.1, validA.shape.2.1) s.headCount part.headSize
  let aux := if s.axis = .token then
      zeroRows s.auxScaleOffset capacity validTokens
        (zeroRows s.auxMinOffset capacity validTokens slot.aux)
    else slot.aux
  let minimum ← pl.exactAuxView slot s.auxMinOffset shape
  let scale ← pl.exactAuxView slot s.auxScaleOffset shape
  let maximum ← pl.exactAuxView slot s.auxMinOffset shape true
  let inverse ← pl.exactAuxView slot s.auxScaleOffset shape true
  let group := groupValues source s.axis slot.arenaA
  let aux := reduceRows minimum scale maximum inverse (fun key => aminOf (group key))
    (fun key => amaxOf (group key)) s.numLevels aux
  let arenaA := symbolize source minimum inverse s aux slot.arenaA
  let arenaB := output.put (fun x => toByte (source.get arenaA x)) slot.arenaB
  return { slot with arenaA, arenaB, aux }

/-- `_quantize`. -/
def exactQuantize (slot : ExactSlot K) (part : LayerPartLayout) (physicalBlocks validTokens : Nat) :
    Option (ExactSlot K) := do
  let canonicalA ← pl.exactCanonicalA slot part physicalBlocks
  let u8Layer ← pl.exactU8Layer slot part physicalBlocks
  part.sections.foldlM (pl.exactQuantizeSection part (physicalBlocks * pl.kernelTokens part)
    validTokens (validRows canonicalA validTokens) (validRows u8Layer validTokens)) slot

/-- One pass of the loop over the sections in `_dequantize`. -/
def exactDequantizeSection (part : LayerPartLayout) (validA validU8 : View) (slot : ExactSlot K)
    (s : QuantSection) : Option (ExactSlot K) := do
  let source := validU8.narrow2 s.headStart s.headCount
  let output := validA.narrow2 s.headStart s.headCount
  let shape := auxShape s.axis (validA.shape.1, validA.shape.2.1) s.headCount part.headSize
  let minimum ← pl.exactAuxView slot s.auxMinOffset shape
  let scale ← pl.exactAuxView slot s.auxScaleOffset shape
  let arenaA := output.put (fun x => ((source.get slot.arenaB x).toNat : K) *
    scale.get slot.aux (auxKey s.axis x) + minimum.get slot.aux (auxKey s.axis x)) slot.arenaA
  return { slot with arenaA }

/-- `_dequantize`. -/
def exactDequantize (slot : ExactSlot K) (part : LayerPartLayout)
    (physicalBlocks validTokens : Nat) : Option (ExactSlot K) := do
  let canonicalA ← pl.exactCanonicalA slot part physicalBlocks
  let u8Layer ← pl.exactU8Layer slot part physicalBlocks
  part.sections.foldlM (pl.exactDequantizeSection part (validRows canonicalA validTokens)
    (validRows u8Layer validTokens)) slot

end Pipeline

end KVServe.Runtime

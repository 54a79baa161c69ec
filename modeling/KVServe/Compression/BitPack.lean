import KVServe.Compression.Manager
import KVServe.Lib.BitStream
import KVServe.Lib.Strided

/-!
# KVServe.Compression.BitPack

`BitPackCodec` with its two kernels, in exact index arithmetic. A program of a kernel is what its
lanes store; a lane that reads outside the tensor faults. **The payload is the bit stream of the
symbols**, and decoding cuts it again.
-/

namespace KVServe.Compression

variable {D S : Type} {dt : DTypes D}

/-! ### Errors -/

/-- What `encode` and `decode` raise, and what the kernels assert. -/
inductive BitPackError
  | bitpackBits
  | requiresUint8
  | requiresCuda
  | restoresUint8
  | negativeShape
  | otherDevice
  | payloadLength
  | exceedsBits
  | invalidHeader
  | illegalAccess
  deriving DecidableEq, Repr

/-! ### Kernels -/

namespace BitPack

/-- `_HEADER_BYTES`. -/
def headerBytes : Nat := 16

/-- `_MAGIC`: "KBP", format version 1. -/
def magic : Nat := 0x0150424B

/-- `tl.load(source + i, mask, 0).to(tl.uint32)`. -/
def load (source : List UInt8) (i : Nat) (mask : Bool) : Except BitPackError Nat :=
  if mask then
    match source[i]? with
    | some v => .ok v.toNat
    | none => .error .illegalAccess
  else .ok 0

/-- `tl.device_assert`. -/
def deviceAssert (cond : Bool) (error : BitPackError) : Except BitPackError Unit :=
  if cond then .ok () else .error error

/-- A byte of the header. -/
def header (N BITS h : Nat) : Nat :=
  if h < 4 then (magic >>> (h % 4 * 8)) &&& 255
  else if h = 4 then BITS
  else if 8 ≤ h then ((N % 2 ^ 64) >>> (h % 8 * 8)) &&& 255
  else 0

/-- The loop of `_pack` over `tl.static_range`. -/
def packLoop (source : List UInt8) (N BITS byte : Nat) : List Nat → Nat → Except BitPackError Nat
  | [], packed => .ok packed
  | j :: rest, packed => do
      let size := (N * BITS + 7) / 8
      let first := byte * 8 / BITS
      let offset := byte * 8 % BITS
      let shift := j * BITS - offset
      let value ← load source (first + j) (byte < size && first + j < N && shift < 8)
      deviceAssert (value < 1 <<< BITS) .exceedsBits
      packLoop source N BITS byte rest (packed ||| (value <<< shift) % 2 ^ 32)

/-- A lane of `_pack`: what it stores. -/
def packLane (source : List UInt8) (N BITS byte : Nat) : Except BitPackError (List (Nat × UInt8)) := do
  let size := (N * BITS + 7) / 8
  let first := byte * 8 / BITS
  let offset := byte * 8 % BITS
  let value ← load source first (byte < size && first < N)
  deviceAssert (value < 1 <<< BITS) .exceedsBits
  let packed ← packLoop source N BITS byte (List.range' 1 ((7 + BITS - 1) / BITS)) (value >>> offset)
  return if byte < size then [(16 + byte, UInt8.ofNat packed)] else []

/-- `_pack`. -/
def pack (source : List UInt8) (N BITS BLOCK program : Nat) :
    Except BitPackError (List (Nat × UInt8)) := do
  let lanes ← (List.range BLOCK).mapM fun lane => packLane source N BITS (program * BLOCK + lane)
  return lanes.flatten ++
    if program = 0 then (List.range 16).map fun h => (h, UInt8.ofNat (header N BITS h)) else []

/-- The header test of `_unpack`. -/
def checkHeader (source : List UInt8) (N BITS : Nat) : List Nat → Except BitPackError Unit
  | [] => .ok ()
  | h :: rest => do
      let actual ← load source h true
      deviceAssert (actual = header N BITS h) .invalidHeader
      checkHeader source N BITS rest

/-- A lane of `_unpack`. -/
def unpackLane (source : List UInt8) (N BITS i : Nat) :
    Except BitPackError (List (Nat × UInt8)) := do
  let size := (N * BITS + 7) / 8
  let byte := i * BITS / 8
  let offset := i * BITS % 8
  let lo ← load source (16 + byte) (i < N && byte < size)
  let hi ← load source (16 + byte + 1) (i < N && byte + 1 < size && 8 < offset + BITS)
  let value := ((lo ||| (hi <<< 8) % 2 ^ 32) >>> offset) &&& (1 <<< BITS - 1)
  return if i < N then [(i, UInt8.ofNat value)] else []

/-- `_unpack`. -/
def unpack (source : List UInt8) (N BITS BLOCK program : Nat) :
    Except BitPackError (List (Nat × UInt8)) := do
  if program = 0 then checkHeader source N BITS (List.range 16)
  let lanes ← (List.range BLOCK).mapM fun lane => unpackLane source N BITS (program * BLOCK + lane)
  return lanes.flatten

/-- `kernel[(grid,)]`: the stores of all programs. -/
def launch (grid : Nat) (kernel : Nat → Except BitPackError (List (Nat × UInt8))) :
    Except BitPackError (List (Nat × UInt8)) := do
  let programs ← (List.range grid).mapM kernel
  return programs.flatten

/-- `max(1, triton.cdiv(n, 1024))`. -/
def grid (n : Nat) : Nat := max 1 ((n + 1023) / 1024)

/-- The bytes of a payload after the header. -/
def payloadBytes (count bits : Nat) : Nat := (count * bits + 7) / 8

/-- The stores of `encode`. -/
def encodeStores (bits : Nat) (source : List UInt8) : Except BitPackError (List (Nat × UInt8)) :=
  launch (grid (payloadBytes source.length bits)) (pack source source.length bits 1024)

/-- The stores of `decode`. -/
def decodeStores (bits count : Nat) (source : List UInt8) :
    Except BitPackError (List (Nat × UInt8)) :=
  launch (grid count) (unpack source count bits 1024)

end BitPack

/-! ### The codec -/

/-- `torch.device`. -/
structure Device where
  type : String
  index : Option Nat := none
  deriving DecidableEq, Repr

/-- `BitPackCodec`. -/
structure BitPackCodec where
  bitpackBits : Nat := 8
  lower : 1 ≤ bitpackBits := by decide
  upper : bitpackBits ≤ 8 := by decide

namespace BitPackCodec

open BitPack

variable (c : BitPackCodec)

/-- `_width`; `none` is a missing keyword. -/
def width (bitpackBits : Option (Meta dt S)) : Except BitPackError Nat :=
  match bitpackBits with
  | none => .ok c.bitpackBits
  | some (.int n) => if 1 ≤ n ∧ n ≤ 8 then .ok n.toNat else .error .bitpackBits
  | some _ => .error .bitpackBits

/-- `_check_tensor`. -/
def checkTensor [DecidableEq D] (tensor : Tensor dt) (device : Device) : Except BitPackError Unit :=
  if tensor.dtype ≠ dt.uint8 then .error .requiresUint8
  else if device.type ≠ "cuda" then .error .requiresCuda
  else .ok ()

/-- `encode`: the payload over memory that is not initialized. -/
def encode [DecidableEq D] (bitpackBits : Option (Meta dt S)) (tensor : Tensor dt)
    (device : Device) (empty : Mem) : Except BitPackError (List UInt8) := do
  let bits ← c.width bitpackBits
  checkTensor tensor device
  let stores ← encodeStores bits tensor.bytes
  return (List.range (headerBytes + payloadBytes tensor.bytes.length bits)).map (empty.store stores)

/-- `decode`. -/
def decode [DecidableEq D] (bitpackBits : Option (Meta dt S)) (compressedData : Tensor dt)
    (dataDevice : Device) (originalDtype : String) (originalShape : List Int) (device : Device)
    (empty : Mem) : Except BitPackError (Tensor dt) := do
  let bits ← c.width bitpackBits
  checkTensor compressedData dataDevice
  if originalDtype ≠ "uint8" ∧ originalDtype ≠ "torch.uint8" then .error .restoresUint8
  else if originalShape.any (· < 0) then .error .negativeShape
  else if device.type ≠ "cuda" ∨ (device.index ≠ none ∧ device.index ≠ dataDevice.index) then
    .error .otherDevice
  else
    let count := (originalShape.map Int.toNat).prod
    if compressedData.shape.prod ≠ headerBytes + payloadBytes count bits then .error .payloadLength
    else do
      let stores ← decodeStores bits count compressedData.bytes
      return ⟨originalShape.map Int.toNat, dt.uint8, (List.range count).map (empty.store stores), by
        rw [List.length_map, List.length_range, dt.elementSize_uint8, Nat.mul_one]⟩

end BitPackCodec

end KVServe.Compression

import KVServe.Transport.Budget
import Mathlib.Logic.Function.Basic

/-!
# KVServe.Transport.Payload

The **messages of the NCCL transport**: `PUT` and `PUT_BUNDLE` with their tensor
specs, the acknowledgements, the payloads a consumer allocates for them and the
three ways `nccl_transport.py` counts their bytes.

`torch` and the NCCL wrapper of vLLM are outside the repository; `Torch` is what
the transport uses of them. A lookup that raises is `none`.
-/

namespace KVServe.Transport

/-- What the transport uses of `torch` and of `ncclDataTypeEnum`. -/
structure Torch (D : Type) where
  /-- `str(dtype).replace("torch.", "")`. -/
  name : D → String
  /-- `getattr(torch, name)`. -/
  byName : String → Option D
  elementSize : D → Nat
  /-- `ncclDataTypeEnum.from_torch`. -/
  ncclType : D → Option Nat
  byName_name : ∀ d, byName (name d) = some d

/-- `_tensor_spec`. -/
structure TensorSpec where
  shape : List Nat
  dtype : String
  deriving DecidableEq, Repr

/-- A tensor on the device, by shape and dtype. -/
structure DeviceTensor (D : Type) where
  shape : List Nat
  dtype : D
  deriving DecidableEq, Repr

def DeviceTensor.numel {D : Type} (t : DeviceTensor D) : Nat := t.shape.prod

/-- `_NCCL_ACK_OK`, `_NCCL_ACK_OOM` and `_NCCL_ACK_RETRY`. -/
inductive Ack
  | ok
  | oom
  | retry
  deriving DecidableEq, Repr

/-- A `PUT` or `PUT_BUNDLE` message. -/
inductive Put
  | tensor (requestId : RequestId) (layerNames : List String) (spec : TensorSpec)
  | bundle (requestId : RequestId) (layerNames : List String) («meta» : String)
      (bodySpecs auxSpecs : List TensorSpec)
  deriving DecidableEq, Repr

namespace Put

def requestId : Put → RequestId
  | tensor requestId .. => requestId
  | bundle requestId .. => requestId

def layerNames : Put → List String
  | tensor _ layerNames _ => layerNames
  | bundle _ layerNames .. => layerNames

end Put

/-- What a consumer holds for a message: one tensor, or a bundle. -/
inductive Payload (τ : Type)
  | tensor (t : τ)
  | bundle («meta» : String) (bodyChunks auxTensors : List τ)
  deriving DecidableEq, Repr

namespace Payload

variable {τ υ : Type}

/-- The tensors in the order they travel. -/
def tensors : Payload τ → List τ
  | tensor t => [t]
  | bundle _ bodyChunks auxTensors => bodyChunks ++ auxTensors

def map (f : τ → υ) : Payload τ → Payload υ
  | tensor t => .tensor (f t)
  | bundle «meta» bodyChunks auxTensors => .bundle «meta» (bodyChunks.map f) (auxTensors.map f)

/-- The tensors of a payload that go over NCCL: a bundle skips the empty ones. -/
def onStream {D : Type} : Payload (DeviceTensor D) → List (DeviceTensor D)
  | .tensor t => [t]
  | .bundle _ bodyChunks auxTensors => (bodyChunks ++ auxTensors).filter (·.numel ≠ 0)

end Payload

namespace Torch

variable {D : Type} (torch : Torch D)

/-- `_spec_nbytes`. -/
def specNbytes (spec : TensorSpec) : Option Nat :=
  (torch.byName spec.dtype).map fun dtype => spec.shape.prod * torch.elementSize dtype

/-- `payload_bytes` of the listener: the sum over the specs of the message. -/
def putNbytes : Put → Option Nat
  | .tensor _ _ spec => torch.specNbytes spec
  | .bundle _ _ _ bodySpecs auxSpecs =>
      ((bodySpecs ++ auxSpecs).mapM torch.specNbytes).map List.sum

/-- `_allocate_from_spec`. -/
def allocateFromSpec (spec : TensorSpec) : Option (DeviceTensor D) :=
  (torch.byName spec.dtype).map fun dtype => { shape := spec.shape, dtype }

/-- The buffers of a message. -/
def allocate : Put → Option (Payload (DeviceTensor D))
  | .tensor _ _ spec => (torch.allocateFromSpec spec).map .tensor
  | .bundle _ _ «meta» bodySpecs auxSpecs => do
      let bodyChunks ← bodySpecs.mapM torch.allocateFromSpec
      let auxTensors ← auxSpecs.mapM torch.allocateFromSpec
      return .bundle «meta» bodyChunks auxTensors

/-- `_tensor_nbytes`. -/
def tensorNbytes (t : DeviceTensor D) : Nat := t.numel * torch.elementSize t.dtype

/-- `_payload_nbytes`. -/
def payloadNbytes (payload : Payload (DeviceTensor D)) : Nat :=
  (payload.tensors.map torch.tensorNbytes).sum

/-- `tensor.numel()` with its NCCL type: one `ncclSend` or `ncclRecv`. -/
def call? (t : DeviceTensor D) : Option (Nat × Nat) := (torch.ncclType t.dtype).map (t.numel, ·)

/-- The calls made for some tensors, up to the first one `from_torch` refuses, and
whether there was none. -/
def calls : List (DeviceTensor D) → List (Nat × Nat) × Bool
  | [] => ([], true)
  | t :: rest =>
      match torch.call? t with
      | none => ([], false)
      | some call => (call :: (calls rest).1, (calls rest).2)

variable {torch}

theorem mapM_allocateFromSpec {specs : List TensorSpec} {ts : List (DeviceTensor D)}
    (h : specs.mapM torch.allocateFromSpec = some ts) :
    specs.mapM torch.specNbytes = some (ts.map torch.tensorNbytes) := by
  induction specs generalizing ts with
  | nil =>
      obtain rfl : [] = ts := by simpa using h
      rfl
  | cons spec specs ih =>
      rw [List.mapM_cons] at h ⊢
      cases hd : torch.byName spec.dtype with
      | none => simp [allocateFromSpec, hd] at h
      | some dtype =>
          cases hrest : specs.mapM torch.allocateFromSpec with
          | none => simp [allocateFromSpec, hd, hrest] at h
          | some rest =>
              simp only [allocateFromSpec, hd, hrest, Option.map_some, Option.bind_eq_bind,
                Option.bind_some, Option.pure_def, Option.some.injEq] at h
              subst h
              simp [specNbytes, hd, ih hrest, tensorNbytes, DeviceTensor.numel]

/-- **The three byte counts agree**: what the listener reserves for a message is what
the connector counts on the tensors allocated for it. -/
theorem putNbytes_allocate {put : Put} {payload : Payload (DeviceTensor D)}
    (h : torch.allocate put = some payload) :
    torch.putNbytes put = some (torch.payloadNbytes payload) := by
  cases put with
  | tensor requestId layerNames spec =>
      obtain ⟨t, ht, rfl⟩ := Option.map_eq_some_iff.mp h
      obtain ⟨dtype, hd, rfl⟩ := Option.map_eq_some_iff.mp ht
      simp [putNbytes, specNbytes, hd, payloadNbytes, Payload.tensors, tensorNbytes,
        DeviceTensor.numel]
  | bundle requestId layerNames «meta» bodySpecs auxSpecs =>
      simp only [allocate, Option.bind_eq_bind, Option.bind_eq_some_iff, Option.pure_def,
        Option.some.injEq] at h
      obtain ⟨body, hbody, aux, haux, rfl⟩ := h
      simp only [putNbytes, List.mapM_append, mapM_allocateFromSpec hbody,
        mapM_allocateFromSpec haux, Option.bind_eq_bind, Option.bind_some, Option.pure_def,
        Option.map_some, payloadNbytes, Payload.tensors, List.map_append]

end Torch

/-- Two dtypes, one of which NCCL does not know. -/
inductive SampleDType
  | float16
  | bool
  deriving DecidableEq, Repr

/-- What `torch` and `ncclDataTypeEnum` say about them. -/
def Torch.sample : Torch SampleDType where
  name
    | .float16 => "float16"
    | .bool => "bool"
  byName name := if name = "float16" then some .float16 else if name = "bool" then some .bool else none
  elementSize
    | .float16 => 2
    | .bool => 1
  ncclType
    | .float16 => some 6
    | .bool => none
  byName_name d := by cases d <;> rfl

end KVServe.Transport

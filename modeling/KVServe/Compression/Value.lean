import Mathlib

/-!
# KVServe.Compression.Value

The **Python values** the compression code of `kvserve_v1` handles: tensors as
contiguous bytes with a shape and a dtype, and the nestings of dicts, lists,
tuples and scalars that its metadata is made of.

A dict is the list of its entries in insertion order; `Dict.set` overwrites an
entry in its place or appends one. `torch` is outside the repository: `DTypes` is
what this code uses of its dtypes.
-/

namespace KVServe.Compression

/-- What the compression code uses of `torch.dtype`. -/
structure DTypes (D : Type) where
  /-- `str(dtype).replace("torch.", "")`. -/
  name : D → String
  /-- `getattr(torch, name)`. -/
  byName : String → Option D
  elementSize : D → Nat
  uint8 : D
  byName_name : ∀ d, byName (name d) = some d
  elementSize_pos : ∀ d, 0 < elementSize d
  elementSize_uint8 : elementSize uint8 = 1

/-- Two dtypes of different sizes. -/
inductive SampleDType
  | uint8
  | float32
  deriving DecidableEq, Repr

/-- What `torch` says about them. -/
def DTypes.sample : DTypes SampleDType where
  name
    | .uint8 => "uint8"
    | .float32 => "float32"
  byName name :=
    if name = "uint8" then some .uint8 else if name = "float32" then some .float32 else none
  elementSize
    | .uint8 => 1
    | .float32 => 4
  uint8 := .uint8
  byName_name d := by cases d <;> rfl
  elementSize_pos d := by cases d <;> decide
  elementSize_uint8 := rfl

/-- A tensor, by its elements' bytes in row-major order. -/
structure Tensor {D : Type} (dt : DTypes D) where
  shape : List Nat
  dtype : D
  bytes : List UInt8
  sized : bytes.length = shape.prod * dt.elementSize dtype

/-- `_tensor_spec`. -/
structure TensorSpec where
  shape : List Nat
  dtype : String
  deriving DecidableEq, Repr

namespace Tensor

variable {D : Type} {dt : DTypes D}

instance [DecidableEq D] : DecidableEq (Tensor dt) := fun t u =>
  decidable_of_iff (t.shape = u.shape ∧ t.dtype = u.dtype ∧ t.bytes = u.bytes) (by
    constructor
    · rintro ⟨hshape, hdtype, hbytes⟩
      cases t
      cases u
      subst hshape hdtype hbytes
      rfl
    · rintro rfl
      exact ⟨rfl, rfl, rfl⟩)

/-- `numel() * element_size()`. -/
def nbytes (t : Tensor dt) : Nat := t.shape.prod * dt.elementSize t.dtype

/-- `_tensor_spec`. -/
def spec (t : Tensor dt) : TensorSpec := { shape := t.shape, dtype := dt.name t.dtype }

/-- `.view(torch.uint8).flatten()`: a zero-dimensional tensor can only be viewed with
its own element size. -/
def byteView (t : Tensor dt) : Option (List UInt8) :=
  if t.shape = [] ∧ dt.elementSize t.dtype ≠ 1 then none else some t.bytes

/-- `.view(dtype).reshape(shape)` of a byte vector. -/
def ofBytes (shape : List Nat) (dtype : D) (bytes : List UInt8) : Option (Tensor dt) :=
  if h : bytes.length = shape.prod * dt.elementSize dtype then some ⟨shape, dtype, bytes, h⟩
  else none

/-- A byte vector. -/
def ofU8 (bytes : List UInt8) : Tensor dt :=
  ⟨[bytes.length], dt.uint8, bytes, by simp [dt.elementSize_uint8]⟩

theorem length_bytes (t : Tensor dt) : t.bytes.length = t.nbytes := t.sized

@[simp] theorem ofBytes_bytes (t : Tensor dt) :
    ofBytes t.shape t.dtype t.bytes = some t := by
  rw [ofBytes, dif_pos t.sized]

@[simp] theorem byteView_ofU8 (bytes : List UInt8) :
    (ofU8 bytes : Tensor dt).byteView = some bytes := by
  simp [byteView, ofU8]

end Tensor

/-! ### Nested values -/

/-- A dict key. -/
inductive Key
  | str (s : String)
  | int (n : Int)
  deriving DecidableEq, Repr

/-- A Python value over tensors `T`; `S` are the scalars other than `None`,
booleans, strings and integers. -/
inductive Value (T S : Type)
  /-- `None`. -/
  | null
  | bool (b : Bool)
  | scalar (x : S)
  | str (s : String)
  | int (n : Int)
  | tensor (t : T)
  | list (items : List (Value T S))
  | tuple (items : List (Value T S))
  | dict (entries : List (Key × Value T S))

/-! ### Dicts -/

namespace Dict

variable {α : Type} {k k' : Key} {x y : α} {entries : List (Key × α)}

/-- `d.get(k)`. -/
def get (k : Key) : List (Key × α) → Option α
  | [] => none
  | entry :: rest => if entry.1 = k then some entry.2 else get k rest

/-- `d[k] = x`. -/
def set (k : Key) (x : α) : List (Key × α) → List (Key × α)
  | [] => [(k, x)]
  | entry :: rest => if entry.1 = k then (k, x) :: rest else entry :: set k x rest

@[simp] theorem get_set_self : get k (set k x entries) = some x := by
  induction entries with
  | nil => simp [set, get]
  | cons entry rest ih =>
      rw [set]
      split
      · simp [get]
      · rename_i hne
        rw [get, if_neg hne, ih]

theorem get_set_ne (h : k' ≠ k) : get k (set k' x entries) = get k entries := by
  induction entries with
  | nil => simp [set, get, h]
  | cons entry rest ih =>
      rw [set]
      split
      · rename_i hkey
        rw [get, if_neg h, get, if_neg (hkey ▸ h)]
      · rw [get, get, ih]

theorem get_set : get k (set k' x entries) = if k' = k then some x else get k entries := by
  split
  · rename_i h
    rw [h, get_set_self]
  · rename_i h
    exact get_set_ne h

@[simp] theorem set_set : set k y (set k x entries) = set k y entries := by
  induction entries with
  | nil => simp [set]
  | cons entry rest ih =>
      rw [set]
      split
      · rename_i hkey
        rw [set, if_pos rfl, set, if_pos hkey]
      · rename_i hne
        rw [set, if_neg hne, ih, set, if_neg hne]

theorem ne_of_get_eq_none (h : get k entries = none) {entry : Key × α} (hmem : entry ∈ entries) :
    entry.1 ≠ k := by
  induction entries with
  | nil => cases hmem
  | cons head rest ih =>
      rw [get] at h
      split at h
      · cases h
      · rename_i hne
        rcases List.mem_cons.mp hmem with rfl | hmem
        · exact hne
        · exact ih h hmem

theorem key_mem_of_get (h : get k entries = some x) : k ∈ entries.map Prod.fst := by
  by_contra hmem
  induction entries with
  | nil => cases h
  | cons entry rest ih =>
      simp only [List.map_cons, List.mem_cons, not_or] at hmem
      rw [get, if_neg (Ne.symm hmem.1)] at h
      exact ih h hmem.2

theorem get_eq_none (h : k ∉ entries.map Prod.fst) : get k entries = none := by
  cases hget : get k entries with
  | none => rfl
  | some x => exact absurd (key_mem_of_get hget) h

theorem keys_set : (set k x entries).map Prod.fst =
    if k ∈ entries.map Prod.fst then entries.map Prod.fst
    else entries.map Prod.fst ++ [k] := by
  induction entries with
  | nil => simp [set]
  | cons entry rest ih =>
      rw [set]
      by_cases hkey : entry.1 = k
      · simp [hkey]
      · rw [if_neg hkey, List.map_cons, ih]
        by_cases hmem : k ∈ rest.map Prod.fst
        · simp [hmem]
        · have hne : ¬ k = entry.1 := fun heq => hkey heq.symm
          simp only [hmem, if_false, List.map_cons, List.mem_cons, hne, or_self,
            List.cons_append]

theorem nodup_set (h : (entries.map Prod.fst).Nodup) :
    ((set k x entries).map Prod.fst).Nodup := by
  rw [keys_set]
  split
  · exact h
  · rename_i hmem
    exact List.nodup_append.mpr ⟨h, by simp, fun a ha b hb heq => by
      rw [List.mem_singleton.mp hb] at heq
      exact hmem (heq ▸ ha)⟩

theorem mem_set {entry : Key × α} (h : (entries.map Prod.fst).Nodup)
    (hmem : entry ∈ set k x entries) : entry = (k, x) ∨ (entry ∈ entries ∧ entry.1 ≠ k) := by
  induction entries with
  | nil => exact Or.inl (List.mem_singleton.mp hmem)
  | cons head rest ih =>
      obtain ⟨hhead, hrest⟩ := List.nodup_cons.mp h
      rw [set] at hmem
      split at hmem
      · rename_i hkey
        rcases List.mem_cons.mp hmem with rfl | hmem
        · exact Or.inl rfl
        · refine Or.inr ⟨List.mem_cons_of_mem _ hmem, fun heq => hhead ?_⟩
          rw [hkey, ← heq]
          exact List.mem_map_of_mem hmem
      · rename_i hkey
        rcases List.mem_cons.mp hmem with rfl | hmem
        · exact Or.inr ⟨List.mem_cons_self, hkey⟩
        · refine (ih hrest hmem).imp_right fun hother => ?_
          exact ⟨List.mem_cons_of_mem _ hother.1, hother.2⟩

end Dict

end KVServe.Compression

import Mathlib.Tactic.Ring
import KVServe.Compression.Manager

/-!
# KVServe.Compression.RoundTrip

**Decompression undoes compression.** The components are only asked to be exact layer
by layer (`Manager.Exact`); that the layers, their parameters and the codec layout are
put together again in the right order is what is proved here.

A buffer is determined by its layers (`Tensor.ext_layers`), and the bulk transposition
acts on each of them as the transposition of a layer does
(`Tensor.layer_nativeToPermuted`). With these, both packing loops have the same
description: `Manager.Packed` says that the buffer, brought to the native layout, holds
in every layer something that restores to that layer of the input.
-/

namespace KVServe.Compression

variable {D S : Type} {dt : DTypes D}

/-! ### Tensors by layers -/

namespace Tensor

variable {t u y : Tensor dt} {n i : Nat} {shape : List Nat} {dtype : D} {bytes : List UInt8}

theorem ext (hshape : t.shape = u.shape) (hdtype : t.dtype = u.dtype)
    (hbytes : t.bytes = u.bytes) : t = u := by
  cases t
  cases u
  simp only at hshape hdtype hbytes
  subst hshape hdtype hbytes
  rfl

theorem ofBytes_eq_some :
    ofBytes shape dtype bytes = some t ↔
      t.shape = shape ∧ t.dtype = dtype ∧ t.bytes = bytes := by
  constructor
  · intro h
    unfold ofBytes at h
    split at h
    · obtain rfl := Option.some.inj h
      exact ⟨rfl, rfl, rfl⟩
    · cases h
  · rintro ⟨rfl, rfl, rfl⟩
    exact ofBytes_bytes t

/-- The bytes of one entry along the first dimension. -/
def layerBytes (t : Tensor dt) : Nat := t.shape.tail.prod * t.itemsize

theorem length_bytes_layers (h : t.shape = n :: shape) : t.bytes.length = n * t.layerBytes := by
  rw [t.sized, h, layerBytes, h, List.prod_cons, List.tail_cons, Nat.mul_assoc]
  rfl

theorem layer_eq_some (h : t.shape = n :: shape) :
    t.layer i = some y ↔
      i < n ∧ y.shape = shape ∧ y.dtype = t.dtype ∧ y.bytes = block t.layerBytes t.bytes i := by
  rw [layer, layerBytes, h]
  simp only [List.tail_cons]
  split
  · rename_i hi
    rw [ofBytes_eq_some]
    simp [hi]
  · rename_i hi
    simp [hi]

theorem exists_layer (h : t.shape = n :: shape) (hi : i < n) : ∃ y, t.layer i = some y := by
  have hlength : (block t.layerBytes t.bytes i).length = shape.prod * dt.elementSize t.dtype := by
    rw [length_block_of_lt (length_bytes_layers h) hi, layerBytes, h]
    rfl
  exact ⟨⟨shape, t.dtype, _, hlength⟩, (layer_eq_some h).mpr ⟨hi, rfl, rfl, rfl⟩⟩

/-- **A tensor is determined by its layers.** -/
theorem ext_layers (ht : t.shape = n :: shape) (hu : u.shape = n :: shape)
    (hdtype : t.dtype = u.dtype) (hlayer : ∀ i < n, t.layer i = u.layer i) : t = u := by
  have hbytes : t.layerBytes = u.layerBytes := by
    rw [layerBytes, layerBytes, ht, hu, itemsize, itemsize, hdtype]
  refine ext (ht.trans hu.symm) hdtype ?_
  rw [← ofBlocks_block (length_bytes_layers ht), ← ofBlocks_block (length_bytes_layers hu)]
  refine ofBlocks_congr fun i hi => ?_
  obtain ⟨y, hy⟩ := exists_layer ht hi
  rw [← ((layer_eq_some ht).mp hy).2.2.2, ← ((layer_eq_some hu).mp (hlayer i hi ▸ hy)).2.2.2]

/-- A stack of layers of one shape and dtype. -/
theorem exists_stack {parts : List (Tensor dt)}
    (h : ∀ part ∈ parts, part.shape = shape ∧ part.dtype = dtype) :
    ∃ t, stack shape dtype parts = some t ∧ t.shape = parts.length :: shape ∧
      t.dtype = dtype ∧ ∀ i, t.layer i = parts[i]? := by
  have hpart : ∀ i < parts.length,
      ((parts[i]?.map (·.bytes)).getD []).length = shape.prod * dt.elementSize dtype := by
    intro i hi
    have hmem := h _ (List.getElem_mem hi)
    rw [List.getElem?_eq_getElem hi, Option.map_some, Option.getD_some, sized, hmem.1, hmem.2]
  have hlength : (parts.flatMap (·.bytes)).length =
      (parts.length :: shape).prod * dt.elementSize dtype := by
    rw [flatMap_eq_ofBlocks, length_ofBlocks hpart, List.prod_cons, Nat.mul_assoc]
  refine ⟨⟨_, _, _, hlength⟩, ofBytes_eq_some.mpr ⟨rfl, rfl, rfl⟩, rfl, rfl, fun i => ?_⟩
  by_cases hi : i < parts.length
  · have hmem := h _ (List.getElem_mem hi)
    rw [List.getElem?_eq_getElem hi]
    refine (layer_eq_some rfl).mpr ⟨hi, hmem.1, hmem.2, ?_⟩
    simp only [layerBytes, itemsize, List.tail_cons]
    rw [flatMap_eq_ofBlocks, block_ofBlocks hpart hi, List.getElem?_eq_getElem hi]
    rfl
  · rw [List.getElem?_eq_none (Nat.le_of_not_lt hi), layer]
    exact if_neg hi

/-- Stacking the layers of a tensor. -/
theorem stack_layers {parts : List (Tensor dt)} (ht : t.shape = parts.length :: shape)
    (hparts : ∀ i part, parts[i]? = some part → t.layer i = some part)
    (hu : stack shape t.dtype parts = some u) : u = t := by
  obtain ⟨t', ht', hshape, hdtype, hlayer⟩ := @exists_stack _ dt shape t.dtype parts (by
    intro part hmem
    obtain ⟨i, hi⟩ := List.mem_iff_getElem?.mp hmem
    obtain ⟨-, hshape, hdtype, -⟩ := (layer_eq_some ht).mp (hparts i part hi)
    exact ⟨hshape, hdtype⟩)
  obtain rfl : t' = u := Option.some.inj (ht'.symm.trans hu)
  refine ext_layers hshape ht hdtype fun i hi => ?_
  rw [hlayer i, List.getElem?_eq_getElem hi, hparts i _ (List.getElem?_eq_getElem hi)]

/-- A tensor is the stack of its layers. -/
theorem exists_layers (ht : t.shape = n :: shape) :
    ∃ parts, parts.length = n ∧ (∀ i < n, parts[i]? = t.layer i) ∧
      stack shape t.dtype parts = some t := by
  obtain ⟨parts, hparts⟩ := exists_mapM_range fun _ hi => exists_layer ht hi
  obtain ⟨hlength, hlayer⟩ := mapM_range_eq_some.mp hparts
  have hlayer' : ∀ i part, parts[i]? = some part → t.layer i = some part := fun i part hi =>
    (hlayer i (hlength ▸ (List.getElem?_eq_some_iff.mp hi).1)).trans hi
  obtain ⟨u, hu, -⟩ := @exists_stack _ dt shape t.dtype parts (by
    intro part hmem
    obtain ⟨i, hi⟩ := List.mem_iff_getElem?.mp hmem
    obtain ⟨-, hshape, hdtype, -⟩ := (layer_eq_some ht).mp (hlayer' i part hi)
    exact ⟨hshape, hdtype⟩)
  refine ⟨parts, hlength, fun i hi => (hlayer i hi).symm, ?_⟩
  rw [hu, stack_layers (hlength ▸ ht) hlayer' hu]

/-! ### The codec layout -/

variable {l two b s h d : Nat}

theorem length_bytes_native (hshape : t.shape = [l, two, b, s, h, d]) :
    t.bytes.length = l * two * (b * s * h * (d * t.itemsize)) := by
  rw [t.sized, hshape, itemsize]
  simp only [List.prod_cons, List.prod_nil]
  ring

theorem exists_nativeToPermuted (hshape : t.shape = [l, two, b, s, h, d]) :
    ∃ u, t.nativeToPermuted = some u := by
  have hlength : (transposeEach (l * two) (b * s) h (d * t.itemsize) t.bytes).length =
      [l, two, h, b, s, d].prod * dt.elementSize t.dtype := by
    rw [length_transposeEach (length_bytes_native hshape), itemsize]
    simp only [List.prod_cons, List.prod_nil]
    ring
  rw [nativeToPermuted, hshape]
  exact ⟨⟨_, _, _, hlength⟩, ofBytes_eq_some.mpr ⟨rfl, rfl, rfl⟩⟩

theorem nativeToPermuted_eq_some (hshape : t.shape = [l, two, b, s, h, d]) :
    t.nativeToPermuted = some u ↔ u.shape = [l, two, h, b, s, d] ∧ u.dtype = t.dtype ∧
      u.bytes = transposeEach (l * two) (b * s) h (d * t.itemsize) t.bytes := by
  rw [nativeToPermuted, hshape]
  exact ofBytes_eq_some

/-- **The bulk transposition back.** -/
theorem permutedToNative_nativeToPermuted (hshape : t.shape = [l, two, b, s, h, d])
    (hu : t.nativeToPermuted = some u) : u.permutedToNative = some t := by
  obtain ⟨hshape', hdtype, hbytes⟩ := (nativeToPermuted_eq_some hshape).mp hu
  rw [permutedToNative, hshape']
  refine ofBytes_eq_some.mpr ⟨hshape, hdtype.symm, ?_⟩
  rw [hbytes, itemsize, hdtype]
  exact (transposeEach_transposeEach (length_bytes_native hshape)).symm

/-- **The bulk transposition, layer by layer.** -/
theorem layer_nativeToPermuted (hshape : t.shape = [l, two, b, s, h, d])
    (hu : t.nativeToPermuted = some u) (hy : t.layer i = some y) :
    u.layer i = y.layerToPermuted := by
  obtain ⟨hshape', hdtype, hbytes⟩ := (nativeToPermuted_eq_some hshape).mp hu
  obtain ⟨hi, hyshape, hydtype, hybytes⟩ := (layer_eq_some hshape).mp hy
  have hwidth : t.layerBytes = two * (b * s * h * (d * t.itemsize)) := by
    rw [layerBytes, hshape]
    simp only [List.tail_cons, List.prod_cons, List.prod_nil]
    ring
  have hwidth' : u.layerBytes = two * (h * (b * s) * (d * t.itemsize)) := by
    rw [layerBytes, hshape', itemsize, hdtype]
    simp only [List.tail_cons, List.prod_cons, List.prod_nil, itemsize]
    ring
  have hlayers : ∀ i < l, (block t.layerBytes t.bytes i).length =
      two * (b * s * h * (d * t.itemsize)) := fun i hi =>
    (length_block_of_lt (length_bytes_layers hshape) hi).trans hwidth
  have hblock : block u.layerBytes u.bytes i =
      transposeEach two (b * s) h (d * y.itemsize) y.bytes := by
    rw [hbytes, ← ofBlocks_block (length_bytes_layers hshape), transposeEach_ofBlocks hlayers,
      hwidth', block_ofBlocks (fun i hi => length_transposeEach (hlayers i hi)) hi,
      ← hybytes, itemsize, itemsize, hydtype]
  rw [layerToPermuted, hyshape]
  obtain ⟨z, hz⟩ := exists_layer hshape' hi
  obtain ⟨-, hzshape, hzdtype, hzbytes⟩ := (layer_eq_some hshape').mp hz
  rw [hz]
  refine (ofBytes_eq_some.mpr ⟨hzshape, ?_, ?_⟩).symm
  · rw [hzdtype, hdtype, hydtype]
  · rw [hzbytes, hblock]

end Tensor

/-! ### Exact components -/

namespace Manager

/-- A value `quantize` may return as parameters: a dict in which nothing looks like a
placeholder of the wire format. -/
def IsParams (params : Meta dt S) : Prop := ∃ entries, params = .dict entries ∧ params.Plain = true

/-- The components are exact. They keep the shape of a layer, as their interface says, and
the dtype they give a layer depends on its dtype only. Parameters reach `dequantize` as they
come off the wire, with tuples turned into lists. -/
structure Exact (m : Manager dt S) : Prop where
  cast_self : ∀ t, m.cast t.dtype t = t
  shape_transform : ∀ {id x y}, m.transform id x = some y → y.shape = x.shape
  dtype_transform : ∀ {id id' x x' y y'}, m.transform id x = some y →
    m.transform id' x' = some y' → x.dtype = x'.dtype → y.dtype = y'.dtype
  inverse_transform : ∀ {id x y}, m.transform id x = some y → m.inverse id y = some x
  shape_quantize : ∀ {id x q p}, m.quantize id x = some (q, p) → q.shape = x.shape
  dtype_quantize : ∀ {id id' x x' q q' p p'}, m.quantize id x = some (q, p) →
    m.quantize id' x' = some (q', p') → x.dtype = x'.dtype → q.dtype = q'.dtype
  isParams_quantize : ∀ {id x q p}, m.quantize id x = some (q, p) → IsParams p
  dequantize_quantize : ∀ {id x q p}, m.quantize id x = some (q, p) →
    m.dequantize id q p.listed = some x
  shape_quantizeOut : ∀ {id x q p}, m.quantizeOut id x = some (q, p) → q.shape = x.shape
  dtype_quantizeOut : ∀ {id x q p}, m.quantizeOut id x = some (q, p) → q.dtype = dt.uint8
  isParams_quantizeOut : ∀ {id x q p}, m.quantizeOut id x = some (q, p) → IsParams p
  dequantize_quantizeOut : ∀ {id x q p}, m.quantizeOut id x = some (q, p) →
    m.dequantize id q p.listed = some x
  decode_encode : ∀ {id t bytes}, m.encode id t = .ok bytes → ∀ id' device,
    m.decode id' (.ofU8 bytes) (dt.name t.dtype) t.shape device = some t

/-- What of it concerns shapes and dtypes on the way in. -/
structure Regular (m : Manager dt S) : Prop where
  cast_self : ∀ t, m.cast t.dtype t = t
  shape_transform : ∀ {id x y}, m.transform id x = some y → y.shape = x.shape
  dtype_transform : ∀ {id id' x x' y y'}, m.transform id x = some y →
    m.transform id' x' = some y' → x.dtype = x'.dtype → y.dtype = y'.dtype
  shape_quantize : ∀ {id x q p}, m.quantize id x = some (q, p) → q.shape = x.shape
  dtype_quantize : ∀ {id id' x x' q q' p p'}, m.quantize id x = some (q, p) →
    m.quantize id' x' = some (q', p') → x.dtype = x'.dtype → q.dtype = q'.dtype
  shape_quantizeOut : ∀ {id x q p}, m.quantizeOut id x = some (q, p) → q.shape = x.shape
  dtype_quantizeOut : ∀ {id x q p}, m.quantizeOut id x = some (q, p) → q.dtype = dt.uint8

theorem Exact.regular {m : Manager dt S} (h : m.Exact) : m.Regular where
  cast_self := h.cast_self
  shape_transform := h.shape_transform
  dtype_transform := h.dtype_transform
  shape_quantize := h.shape_quantize
  dtype_quantize := h.dtype_quantize
  shape_quantizeOut := h.shape_quantizeOut
  dtype_quantizeOut := h.dtype_quantizeOut

variable {m : Manager dt S} {layout : CodecLayout} {start count : Nat} {x buffer : Tensor dt}
  {params : List (Meta dt S)}

theorem IsParams.listed {params : Meta dt S} (h : IsParams params) :
    ∃ entries, params.listed = .dict entries := by
  obtain ⟨entries, rfl, -⟩ := h
  exact ⟨_, rfl⟩

/-- Without a quantizer the parameters are not read. -/
theorem restoreLayer_of_not_quantizer (hquant : ¬ m.has .quantizer = true) {id : Nat}
    {q : Tensor dt} {params : Option (Meta dt S)} :
    m.restoreLayer id q params = m.inverseLayer id q := by
  unfold restoreLayer dequantizeLayer
  rw [if_neg hquant, Option.bind_some]

theorem restoreLayer_of_params (hquant : m.has .quantizer = true) {id : Nat} {q y : Tensor dt}
    {p : Meta dt S} (hp : IsParams p) (hy : m.dequantize id q p.listed = some y) :
    m.restoreLayer id q (some p.listed) = m.inverseLayer id y := by
  obtain ⟨entries, hentries⟩ := hp.listed
  rw [hentries] at hy ⊢
  unfold restoreLayer dequantizeLayer
  simp only [if_pos hquant, hy, Option.bind_some]

/-- What a processed layer needs to be restored. -/
theorem processLayer_spec (h : m.Exact) {id : Nat} {x q : Tensor dt} {ps : List (Meta dt S)}
    (hq : m.processLayer id x = some (q, ps)) :
    q.shape = x.shape ∧ (m.has .quantizer = true → ∃ p, ps = [p] ∧ IsParams p) ∧
      m.restoreLayer id q (ps.head?.map Value.listed) = some x := by
  obtain ⟨y, hy, hq⟩ := Option.bind_eq_some_iff.mp hq
  have hback : y.shape = x.shape ∧ m.inverseLayer id y = some x := by
    unfold transformLayer at hy
    unfold inverseLayer
    split at hy
    · rename_i ht
      exact ⟨h.shape_transform hy, by rw [if_pos ht]; exact h.inverse_transform hy⟩
    · rename_i ht
      obtain rfl := Option.some.inj hy
      exact ⟨rfl, if_neg ht⟩
  unfold quantizeLayer at hq
  split at hq
  · rename_i hquant
    obtain ⟨⟨q', p⟩, hp, heq⟩ := Option.map_eq_some_iff.mp hq
    obtain ⟨rfl, rfl⟩ := Prod.mk.inj heq
    refine ⟨(h.shape_quantize hp).trans hback.1, fun _ => ⟨p, rfl, h.isParams_quantize hp⟩, ?_⟩
    exact (restoreLayer_of_params hquant (h.isParams_quantize hp)
      (h.dequantize_quantize hp)).trans hback.2
  · rename_i hquant
    obtain ⟨rfl, rfl⟩ := Prod.mk.inj (Option.some.inj hq)
    exact ⟨hback.1, fun hquant' => absurd hquant' hquant,
      (restoreLayer_of_not_quantizer hquant).trans hback.2⟩

/-- A processed layer has the shape of the layer. -/
theorem Regular.shape_processLayer (h : m.Regular) {id : Nat} {x q : Tensor dt}
    {ps : List (Meta dt S)} (hq : m.processLayer id x = some (q, ps)) : q.shape = x.shape := by
  obtain ⟨y, hy, hq⟩ := Option.bind_eq_some_iff.mp hq
  have hshape : y.shape = x.shape := by
    unfold transformLayer at hy
    split at hy
    · exact h.shape_transform hy
    · rw [Option.some.inj hy]
  unfold quantizeLayer at hq
  split at hq
  · obtain ⟨⟨q', p⟩, hp, heq⟩ := Option.map_eq_some_iff.mp hq
    obtain ⟨rfl, -⟩ := Prod.mk.inj heq
    exact (h.shape_quantize hp).trans hshape
  · obtain ⟨rfl, -⟩ := Prod.mk.inj (Option.some.inj hq)
    exact hshape

/-- All processed layers have one dtype. -/
theorem Regular.dtype_processLayer (h : m.Regular) {id id' : Nat} {x x' q q' : Tensor dt}
    {ps ps' : List (Meta dt S)} (hq : m.processLayer id x = some (q, ps))
    (hq' : m.processLayer id' x' = some (q', ps')) (hdtype : x.dtype = x'.dtype) :
    q.dtype = q'.dtype := by
  obtain ⟨y, hy, hq⟩ := Option.bind_eq_some_iff.mp hq
  obtain ⟨y', hy', hq'⟩ := Option.bind_eq_some_iff.mp hq'
  have hmid : y.dtype = y'.dtype := by
    unfold transformLayer at hy hy'
    split at hy
    · rename_i ht
      rw [if_pos ht] at hy'
      exact h.dtype_transform hy hy' hdtype
    · rename_i ht
      rw [if_neg ht] at hy'
      rw [← Option.some.inj hy, ← Option.some.inj hy', hdtype]
  unfold quantizeLayer at hq hq'
  split at hq
  · rename_i hquant
    rw [if_pos hquant] at hq'
    obtain ⟨r, hr, heq⟩ := Option.map_eq_some_iff.mp hq
    obtain ⟨r', hr', heq'⟩ := Option.map_eq_some_iff.mp hq'
    obtain ⟨rfl, -⟩ := Prod.mk.inj heq
    obtain ⟨rfl, -⟩ := Prod.mk.inj heq'
    exact h.dtype_quantize hr hr' hmid
  · rename_i hquant
    rw [if_neg hquant] at hq'
    obtain ⟨rfl, -⟩ := Prod.mk.inj (Option.some.inj hq)
    obtain ⟨rfl, -⟩ := Prod.mk.inj (Option.some.inj hq')
    exact hmid

/-! ### Packing -/

/-- The buffer holds the native tensor in the codec layout. -/
def InLayout (native buffer : Tensor dt) : CodecLayout → Prop
  | .native => buffer = native
  | .permuted => native.nativeToPermuted = some buffer

/-- The layers of `x`, numbered from `start` on, can be restored from a buffer in the codec
layout and from parameters. -/
def Packed (m : Manager dt S) (layout : CodecLayout) (start count : Nat) (x buffer : Tensor dt)
    (params : List (Meta dt S)) : Prop :=
  ∃ native : Tensor dt, native.shape = x.shape ∧ InLayout native buffer layout ∧
    ∀ i < count, ∃ q y, native.layer i = some q ∧ x.layer i = some y ∧
      m.restoreLayer (start + i) q (params[i]?.map Value.listed) = some y

theorem packLayer_native (h : m.Exact) {first q part : Tensor dt} (hdtype : q.dtype = first.dtype)
    (hpart : m.packLayer .native first q = some part) : part = q := by
  simp only [packLayer, copyInto] at hpart
  split at hpart
  · rw [← Option.some.inj hpart, ← hdtype, h.cast_self]
  · cases hpart

theorem packLayer_permuted (h : m.Exact) {first q part : Tensor dt}
    (hdtype : q.dtype = first.dtype) (hpart : m.packLayer .permuted first q = some part) :
    q.layerToPermuted = some part := by
  obtain ⟨dest, -, hpart⟩ := Option.bind_eq_some_iff.mp hpart
  obtain ⟨p, hp, hpart⟩ := Option.bind_eq_some_iff.mp hpart
  unfold copyInto at hpart
  split at hpart
  · have hdtype' : p.dtype = q.dtype := by
      unfold Tensor.layerToPermuted at hp
      split at hp
      · exact (Tensor.ofBytes_eq_some.mp hp).2.1
      · cases hp
    rw [hp, ← Option.some.inj hpart, ← hdtype, ← hdtype', h.cast_self]
  · cases hpart

/-- The parameters the layer loop collects, one for each layer. -/
theorem flatMap_params {outs : List (Tensor dt × List (Meta dt S))}
    (h : ∀ out ∈ outs, ∃ p, out.2 = [p]) (i : Nat) :
    (outs.flatMap (·.2))[i]? = outs[i]?.bind (·.2.head?) := by
  induction outs generalizing i with
  | nil => rfl
  | cons out outs ih =>
      obtain ⟨p, hp⟩ := h out List.mem_cons_self
      rw [List.flatMap_cons, hp, List.singleton_append]
      cases i with
      | zero => simp [hp]
      | succ i =>
          simpa using ih (fun out hout => h out (List.mem_cons_of_mem _ hout)) i

/-- Packing the layers one by one packs the whole. -/
theorem stack_packLayer (h : m.Exact) {l two b s hd d : Nat} {native first firstPart : Tensor dt}
    {parts : List (Tensor dt)} (hnative : native.shape = [l, two, b, s, hd, d])
    (hdtype : native.dtype = first.dtype) (hlength : parts.length = l)
    (hparts : ∀ i part, parts[i]? = some part → ∃ q, native.layer i = some q ∧
      m.packLayer layout first q = some part)
    (hfirst : parts.head? = some firstPart)
    (hstack : Tensor.stack firstPart.shape first.dtype parts = some buffer) :
    InLayout native buffer layout := by
  have hlayerDtype : ∀ {i q}, native.layer i = some q → q.dtype = first.dtype := fun hq =>
    ((Tensor.layer_eq_some hnative).mp hq).2.2.1.trans hdtype
  have hzero : parts[0]? = some firstPart := List.head?_eq_getElem? ▸ hfirst
  cases layout with
  | native =>
      have hlayers : ∀ i part, parts[i]? = some part → native.layer i = some part := by
        intro i part hi
        obtain ⟨q, hq, hpart⟩ := hparts i part hi
        rw [packLayer_native h (hlayerDtype hq) hpart, hq]
      have hshape := ((Tensor.layer_eq_some hnative).mp (hlayers 0 _ hzero)).2.1
      rw [hshape, ← hdtype] at hstack
      exact Tensor.stack_layers (hlength ▸ hnative) hlayers hstack
  | permuted =>
      obtain ⟨u, hu⟩ := Tensor.exists_nativeToPermuted hnative
      obtain ⟨hushape, hudtype, -⟩ := (Tensor.nativeToPermuted_eq_some hnative).mp hu
      have hlayers : ∀ i part, parts[i]? = some part → u.layer i = some part := by
        intro i part hi
        obtain ⟨q, hq, hpart⟩ := hparts i part hi
        rw [Tensor.layer_nativeToPermuted hnative hu hq,
          packLayer_permuted h (hlayerDtype hq) hpart]
      have hshape := ((Tensor.layer_eq_some hushape).mp (hlayers 0 _ hzero)).2.1
      rw [hshape, ← hdtype, ← hudtype] at hstack
      show native.nativeToPermuted = some buffer
      rw [Tensor.stack_layers (hlength ▸ hushape) hlayers hstack, hu]

/-- The layer loop. -/
theorem packed_loop (h : m.Exact) {two b s hd d : Nat}
    (hx : x.shape = [count, two, b, s, hd, d]) (hdirect : m.useDirectQuant = false)
    (hbuffer : m.processLayers layout start count x = some (buffer, params)) :
    m.Packed layout start count x buffer params ∧
      (m.has .quantizer = true → ∀ p ∈ params, IsParams p) := by
  rw [processLayers, hdirect, if_neg Bool.false_ne_true] at hbuffer
  obtain ⟨outs, houts, hbuffer⟩ := Option.bind_eq_some_iff.mp hbuffer
  obtain ⟨first, hfirst, hbuffer⟩ := Option.bind_eq_some_iff.mp hbuffer
  obtain ⟨parts, hparts, hbuffer⟩ := Option.bind_eq_some_iff.mp hbuffer
  obtain ⟨firstPart, hfirstPart, hbuffer⟩ := Option.bind_eq_some_iff.mp hbuffer
  obtain ⟨buffer', hstack, hbuffer⟩ := Option.bind_eq_some_iff.mp hbuffer
  obtain ⟨rfl, rfl⟩ := Prod.mk.inj (Option.some.inj hbuffer)
  obtain ⟨hlength, houts⟩ := mapM_range_eq_some.mp houts
  obtain ⟨hlengthParts, hparts⟩ := mapM_eq_some.mp hparts
  -- every entry is a processed layer
  have hout : ∀ i out, outs[i]? = some out → ∃ y, x.layer i = some y ∧
      m.processLayer (start + i) y = some out := by
    intro i out hi
    have hlt : i < count := hlength ▸ (List.getElem?_eq_some_iff.mp hi).1
    obtain ⟨y, hy⟩ := Tensor.exists_layer hx hlt
    refine ⟨y, hy, ?_⟩
    rw [← hi, ← houts i hlt, hy]
    rfl
  have hparams : m.has .quantizer = true → ∀ out ∈ outs, ∃ p, out.2 = [p] ∧ IsParams p := by
    intro hquant out hmem
    obtain ⟨i, hi⟩ := List.mem_iff_getElem?.mp hmem
    obtain ⟨y, hy, hpass⟩ := hout i out hi
    exact (processLayer_spec h hpass).2.1 hquant
  -- the buffer in the native layout
  obtain ⟨native, -, hnshape, hndtype, hnlayer⟩ := @Tensor.exists_stack _ dt [two, b, s, hd, d]
    first.1.dtype (outs.map (·.1)) (by
      intro part hpart
      obtain ⟨out, hmem, rfl⟩ := List.mem_map.mp hpart
      obtain ⟨i, hi⟩ := List.mem_iff_getElem?.mp hmem
      obtain ⟨y, hy, hpass⟩ := hout i out hi
      obtain ⟨y', hy', hpass'⟩ := hout 0 first (List.head?_eq_getElem? ▸ hfirst)
      obtain ⟨-, hyshape, hydtype, -⟩ := (Tensor.layer_eq_some hx).mp hy
      obtain ⟨-, -, hydtype', -⟩ := (Tensor.layer_eq_some hx).mp hy'
      exact ⟨(processLayer_spec h hpass).1.trans hyshape,
        h.regular.dtype_processLayer hpass hpass' (hydtype.trans hydtype'.symm)⟩)
  rw [List.length_map, hlength] at hnshape
  have hnlayer' : ∀ i out, outs[i]? = some out → native.layer i = some out.1 := by
    intro i out hi
    rw [hnlayer, List.getElem?_map, hi]
    rfl
  refine ⟨⟨native, hnshape.trans hx.symm, ?_, fun i hi => ?_⟩, fun hquant p hp => ?_⟩
  · refine stack_packLayer h hnshape hndtype (hlengthParts.trans hlength) ?_ hfirstPart hstack
    intro i part hi
    obtain ⟨out, hout, hpart⟩ := Option.bind_eq_some_iff.mp ((hparts i).trans hi)
    exact ⟨out.1, hnlayer' i out hout, hpart⟩
  · obtain ⟨out, hi'⟩ : ∃ out, outs[i]? = some out :=
      ⟨_, List.getElem?_eq_getElem (hlength ▸ hi)⟩
    obtain ⟨y, hy, hpass⟩ := hout i out hi'
    refine ⟨out.1, y, hnlayer' i out hi', hy, ?_⟩
    have hback := (processLayer_spec h hpass).2.2
    by_cases hquant : m.has .quantizer = true
    · rw [flatMap_params fun out hmem => (hparams hquant out hmem).imp fun p hp => hp.1, hi']
      exact hback
    · rw [restoreLayer_of_not_quantizer hquant] at hback ⊢
      exact hback
  · obtain ⟨out, hmem, hp⟩ := List.mem_flatMap.mp hp
    obtain ⟨p', hp', hisParams⟩ := hparams hquant out hmem
    rw [hp', List.mem_singleton] at hp
    exact hp ▸ hisParams

/-- The direct path. -/
theorem packed_direct (h : m.Exact) {two b s hd d : Nat}
    (hx : x.shape = [count, two, b, s, hd, d]) (hdirect : m.useDirectQuant = true)
    (hbuffer : m.processLayers layout start count x = some (buffer, params)) :
    m.Packed layout start count x buffer params ∧ ∀ p ∈ params, IsParams p := by
  rw [processLayers, if_pos hdirect] at hbuffer
  obtain ⟨⟨native, params'⟩, hnative, hbuffer⟩ := Option.bind_eq_some_iff.mp hbuffer
  obtain ⟨outs, houts, hnative⟩ := Option.bind_eq_some_iff.mp hnative
  obtain ⟨native', hstack, hnative⟩ := Option.bind_eq_some_iff.mp hnative
  obtain ⟨rfl, rfl⟩ := Prod.mk.inj (Option.some.inj hnative)
  obtain ⟨hlength, houts⟩ := mapM_range_eq_some.mp houts
  obtain ⟨hquant, htrans⟩ : m.has .quantizer = true ∧ ¬ m.has .transformer = true := by
    simp only [useDirectQuant, Bool.and_eq_true] at hdirect
    exact ⟨hdirect.1.1, by simpa using hdirect.1.2⟩
  have hout : ∀ i out, outs[i]? = some out → ∃ y, x.layer i = some y ∧
      m.quantizeOut (start + i) y = some out := by
    intro i out hi
    have hlt : i < count := hlength ▸ (List.getElem?_eq_some_iff.mp hi).1
    obtain ⟨y, hy⟩ := Tensor.exists_layer hx hlt
    refine ⟨y, hy, ?_⟩
    rw [← hi, ← houts i hlt, hy]
    rfl
  obtain ⟨stacked, hstacked, hnshape, hndtype, hnlayer⟩ := @Tensor.exists_stack _ dt
    [two, b, s, hd, d] dt.uint8 (outs.map (·.1)) (by
      intro part hpart
      obtain ⟨out, hmem, rfl⟩ := List.mem_map.mp hpart
      obtain ⟨i, hi⟩ := List.mem_iff_getElem?.mp hmem
      obtain ⟨y, hy, hpass⟩ := hout i out hi
      exact ⟨(h.shape_quantizeOut hpass).trans ((Tensor.layer_eq_some hx).mp hy).2.1,
        h.dtype_quantizeOut hpass⟩)
  rw [hx, List.tail_cons] at hstack
  obtain rfl : stacked = native' := Option.some.inj (hstacked.symm.trans hstack)
  rw [List.length_map, hlength] at hnshape
  have hlayers : ∀ i < count, ∃ q y, stacked.layer i = some q ∧ x.layer i = some y ∧
      m.restoreLayer (start + i) q ((outs.map (·.2))[i]?.map Value.listed) = some y := by
    intro i hi
    obtain ⟨out, hi'⟩ : ∃ out, outs[i]? = some out :=
      ⟨_, List.getElem?_eq_getElem (hlength ▸ hi)⟩
    obtain ⟨y, hy, hpass⟩ := hout i out hi'
    refine ⟨out.1, y, by rw [hnlayer, List.getElem?_map, hi']; rfl, hy, ?_⟩
    rw [List.getElem?_map, hi']
    refine (restoreLayer_of_params hquant (h.isParams_quantizeOut hpass)
      (h.dequantize_quantizeOut hpass)).trans ?_
    exact if_neg htrans
  have hparams : ∀ p ∈ outs.map (·.2), IsParams p := by
    intro p hp
    obtain ⟨out, hmem, rfl⟩ := List.mem_map.mp hp
    obtain ⟨i, hi⟩ := List.mem_iff_getElem?.mp hmem
    obtain ⟨y, hy, hpass⟩ := hout i out hi
    exact h.isParams_quantizeOut hpass
  cases layout with
  | native =>
      obtain ⟨rfl, rfl⟩ := Prod.mk.inj (Option.some.inj hbuffer)
      exact ⟨⟨stacked, hnshape.trans hx.symm, rfl, hlayers⟩, hparams⟩
  | permuted =>
      obtain ⟨permuted, hpermuted, hbuffer⟩ := Option.bind_eq_some_iff.mp hbuffer
      obtain ⟨rfl, rfl⟩ := Prod.mk.inj (Option.some.inj hbuffer)
      exact ⟨⟨stacked, hnshape.trans hx.symm, hpermuted, hlayers⟩, hparams⟩

/-- **Both packing paths keep what the layers are restored from.** -/
theorem processLayers_packed (h : m.Exact) {two b s hd d : Nat}
    (hx : x.shape = [count, two, b, s, hd, d])
    (hbuffer : m.processLayers layout start count x = some (buffer, params)) :
    m.Packed layout start count x buffer params ∧
      (m.has .quantizer = true → ∀ p ∈ params, IsParams p) := by
  cases hdirect : m.useDirectQuant with
  | false => exact packed_loop h hx hdirect hbuffer
  | true =>
      obtain ⟨hpacked, hparams⟩ := packed_direct h hx hdirect hbuffer
      exact ⟨hpacked, fun _ => hparams⟩

/-! ### Restoring -/

theorem toNative_of_inLayout {native : Tensor dt} {l two b s hd d : Nat}
    (hshape : native.shape = [l, two, b, s, hd, d]) (h : InLayout native buffer layout) :
    toNative layout.name buffer = some native := by
  cases layout with
  | native =>
      obtain rfl : buffer = native := h
      rfl
  | permuted => exact Tensor.permutedToNative_nativeToPermuted hshape h

/-- **A packed buffer is restored**, whatever it was packed with. -/
theorem decompressLayers_of_packed (h : m.Exact) {two b s hd d : Nat}
    (hx : x.shape = [count, two, b, s, hd, d])
    (hpacked : m.Packed layout start count x buffer params) {t : Tensor dt}
    {metadata : List (Key × Meta dt S)}
    (hcodec : m.handleCodecDecompression t metadata start = some buffer)
    (hlayout : Dict.get (.str "codec_layout") metadata = some (.str layout.name))
    (hdtype : Dict.get (.str "original_dtype") metadata = some (dtypeName x))
    (hparams : m.has .quantizer = true →
      ∀ i, paramsAt metadata i = params[i]?.map Value.listed) :
    m.decompressLayers start count t metadata = some x := by
  obtain ⟨native, hshape, hinLayout, hrestore⟩ := hpacked
  obtain ⟨parts, hlength, hparts, hstack⟩ := Tensor.exists_layers hx
  have hnative := toNative_of_inLayout (hshape.trans hx) hinLayout
  have htarget : m.targetDtype metadata = some x.dtype := by
    simp [targetDtype, hdtype, dtypeName, textOf, dt.byName_name]
  have hpass : (List.range count).mapM (fun i => do
      let q ← native.layer i
      let y ← m.restoreLayer (start + i) q (paramsAt metadata i)
      m.copyInto native.shape.tail x.dtype y) = some parts := by
    refine mapM_range_eq_some.mpr ⟨hlength, fun i hi => ?_⟩
    obtain ⟨q, y, hq, hy, hback⟩ := hrestore i hi
    have hback' : m.restoreLayer (start + i) q (paramsAt metadata i) = some y := by
      by_cases hquant : m.has .quantizer = true
      · rw [hparams hquant i, hback]
      · rw [restoreLayer_of_not_quantizer hquant] at hback ⊢
        exact hback
    obtain ⟨-, hyshape, hydtype, -⟩ := (Tensor.layer_eq_some hx).mp hy
    have hcopy : m.copyInto native.shape.tail x.dtype y = some y := by
      rw [copyInto, if_pos (by rw [hyshape, hshape, hx, List.tail_cons]), ← hydtype, h.cast_self]
    simp only [hq, hback', hcopy, Option.bind_eq_bind, Option.bind_some, hparts i hi, hy]
  have htail : native.shape.tail = [two, b, s, hd, d] := by rw [hshape, hx, List.tail_cons]
  simp only [htail, Option.bind_eq_bind] at hpass
  simp only [decompressLayers, hcodec, hlayout, textOf, Option.elim_some, hnative, htarget, hpass,
    Option.bind_eq_bind, Option.bind_some, htail, hstack]

end Manager

end KVServe.Compression

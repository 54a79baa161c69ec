import Mathlib.Data.List.Nodup
import Mathlib.Data.List.GetD
import Mathlib.Data.Nat.Basic

/-!
# KVServe.Connector.BlockCopies

`extract_kv_from_layer_by_blocks` and `inject_kv_into_layer_by_blocks`: the blocks of a
request are cut out of a layer of the paged KV buffer and put into another one. Which of
the first two dimensions counts blocks is told by which one is two.
-/

namespace KVServe.Connector

/-! ### Tensors -/

/-- One of the first two dimensions. -/
inductive Axis
  | zero
  | one
  deriving DecidableEq, Repr

def Axis.other : Axis → Axis
  | .zero => .one
  | .one => .zero

/-- A tensor by its first two dimensions; an element is all that the other dimensions hold. -/
structure BlockTensor (β : Type) where
  dim0 : Nat
  dim1 : Nat
  entry : Nat → Nat → β

namespace BlockTensor

variable {β : Type}

/-- The tensor of `n` times `m` elements whose dimension `axis` has size `n`. -/
def ofAxis (axis : Axis) (n m : Nat) (f : Nat → Nat → β) : BlockTensor β :=
  match axis with
  | .zero => ⟨n, m, f⟩
  | .one => ⟨m, n, fun j i => f i j⟩

def size (t : BlockTensor β) : Axis → Nat
  | .zero => t.dim0
  | .one => t.dim1

/-- The element at `i` along `axis` and `j` along the other dimension. -/
def get (t : BlockTensor β) (axis : Axis) (i j : Nat) : β :=
  match axis with
  | .zero => t.entry i j
  | .one => t.entry j i

variable {axis : Axis} {n m : Nat} {f : Nat → Nat → β} {i j : Nat}

@[simp] theorem size_ofAxis : (ofAxis axis n m f).size axis = n := by cases axis <;> rfl

@[simp] theorem size_other_ofAxis : (ofAxis axis n m f).size axis.other = m := by
  cases axis <;> rfl

@[simp] theorem get_ofAxis : (ofAxis axis n m f).get axis i j = f i j := by cases axis <;> rfl

theorem get_ofAxis_ne {other : Axis} (h : axis ≠ other) :
    (ofAxis axis n m f).get other i j = f j i := by
  cases axis <;> cases other <;> first | rfl | exact absurd rfl h

theorem size_ofAxis_eq (other : Axis) :
    (ofAxis axis n m f).size other = if axis = other then n else m := by
  cases axis <;> cases other <;> rfl

theorem size_other_ofAxis_eq (other : Axis) :
    (ofAxis axis n m f).size other.other = if axis = other then m else n := by
  cases axis <;> cases other <;> rfl

/-- The same shape and the same elements. -/
structure Same (t u : BlockTensor β) : Prop where
  dim0 : t.dim0 = u.dim0
  dim1 : t.dim1 = u.dim1
  elements : ∀ i < t.dim0, ∀ j < t.dim1, t.entry i j = u.entry i j

theorem same_ofAxis {g : Nat → Nat → β} (h : ∀ i < n, ∀ j < m, f i j = g i j) :
    (ofAxis axis n m f).Same (ofAxis axis n m g) := by
  cases axis with
  | zero => exact ⟨rfl, rfl, h⟩
  | one => exact ⟨rfl, rfl, fun j hj i hi => h i hi j hj⟩

/-- `t[idx]` and `t[:, idx]`. -/
def select (t : BlockTensor β) (axis : Axis) (idx : List Nat) : Option (BlockTensor β) :=
  if ∀ i ∈ idx, i < t.size axis then
    some (ofAxis axis idx.length (t.size axis.other) fun i j => t.get axis (idx.getD i 0) j)
  else none

/-- A dimension of size `n` is broadcast to size `m`. -/
def Expands (n m : Nat) : Prop := n = m ∨ n = 1

instance : Decidable (Expands n m) := inferInstanceAs (Decidable (_ ∨ _))

/-- `t[idx] = payload` and `t[:, idx] = payload`, for distinct indices. -/
def assign (t : BlockTensor β) (axis : Axis) (idx : List Nat) (payload : BlockTensor β) :
    Option (BlockTensor β) :=
  if (∀ i ∈ idx, i < t.size axis) ∧ Expands (payload.size axis) idx.length ∧
      Expands (payload.size axis.other) (t.size axis.other) then
    some (ofAxis axis (t.size axis) (t.size axis.other) fun i j =>
      if i ∈ idx then
        payload.get axis (if payload.size axis = 1 then 0 else idx.idxOf i)
          (if payload.size axis.other = 1 then 0 else j)
      else t.get axis i j)
  else none

variable {t u payload : BlockTensor β} {idx : List Nat}

/-- What an assignment does: the selected elements are those of the payload, no other changes. -/
theorem assign_some (h : t.assign axis idx payload = some u) (hnd : idx.Nodup) :
    Expands (payload.size axis) idx.length ∧
      Expands (payload.size axis.other) (t.size axis.other) ∧
      u.size axis = t.size axis ∧ u.size axis.other = t.size axis.other ∧
      (∀ k < idx.length, ∀ j, u.get axis (idx.getD k 0) j =
        payload.get axis (if payload.size axis = 1 then 0 else k)
          (if payload.size axis.other = 1 then 0 else j)) ∧
      ∀ i, i ∉ idx → ∀ j, u.get axis i j = t.get axis i j := by
  rw [assign] at h
  split at h
  · next hfits =>
      cases h
      refine ⟨hfits.2.1, hfits.2.2, size_ofAxis, size_other_ofAxis, fun k hk j => ?_,
        fun i hi j => ?_⟩
      · rw [get_ofAxis, List.getD_eq_getElem _ _ hk, if_pos (List.getElem_mem hk),
          List.Nodup.idxOf_getElem hnd]
      · rw [get_ofAxis, if_neg hi]
  · cases h

theorem exists_assign (hlt : ∀ i ∈ idx, i < t.size axis)
    (hsize : Expands (payload.size axis) idx.length)
    (hother : Expands (payload.size axis.other) (t.size axis.other)) :
    ∃ u, t.assign axis idx payload = some u :=
  ⟨_, if_pos ⟨hlt, hsize, hother⟩⟩

end BlockTensor

open BlockTensor

/-! ### Extraction and injection -/

section Functions

variable {β : Type}

def extractKvFromLayerByBlocks (kvLayer : BlockTensor β) (blockIds : List Nat) :
    Option (BlockTensor β) :=
  if blockIds = [] then
    if kvLayer.dim0 = 2 then kvLayer.select .one [] else kvLayer.select .zero []
  else if kvLayer.dim0 = 2 then kvLayer.select .one blockIds
  else if kvLayer.dim1 = 2 then kvLayer.select .zero blockIds
  else none

def injectKvIntoLayerByBlocks (kvCacheLayer kvData : BlockTensor β) (blockIds : List Nat) :
    Option (BlockTensor β) :=
  if blockIds = [] then some kvCacheLayer
  else if kvCacheLayer.dim0 = 2 then
    let numBlocks := kvData.dim1
    if blockIds.length = numBlocks then kvCacheLayer.assign .one blockIds kvData
    else kvCacheLayer.assign .one (blockIds.take numBlocks) kvData
  else if kvCacheLayer.dim1 = 2 then
    let numBlocks := kvData.dim0
    if blockIds.length = numBlocks then kvCacheLayer.assign .zero blockIds kvData
    else kvCacheLayer.assign .zero (blockIds.take numBlocks) kvData
  else none

end Functions

/-! ### Layers -/

/-- `[2, num_blocks, ...]` and `[num_blocks, 2, ...]`. -/
inductive KVLayout
  | flashAttention
  | mla
  deriving DecidableEq, Repr

/-- The dimension that counts blocks. -/
def KVLayout.blockAxis : KVLayout → Axis
  | .flashAttention => .one
  | .mla => .zero

variable {β : Type}

/-- The layer of a cache with `numBlocks` blocks; `content` of a block and of 0 for the keys
or 1 for the values. -/
def layerOf (layout : KVLayout) (numBlocks : Nat) (content : Nat → Nat → β) : BlockTensor β :=
  ofAxis layout.blockAxis numBlocks 2 content

/-- What the docstring promises of the blocks of a request: they arrive as far as both sides
have them, no other block changes, and the same blocks can be taken out again. -/
def Injects (β : Type) (layout : KVLayout) (producerBlocks consumerBlocks payloadIds destIds : Nat) :
    Prop :=
  ∀ (source dest : Nat → Nat → β) (idsP idsD : List Nat), idsP.length = payloadIds →
    idsD.length = destIds → (∀ b ∈ idsP, b < producerBlocks) → (∀ b ∈ idsD, b < consumerBlocks) →
    idsD.Nodup →
    ∃ payload layer,
      extractKvFromLayerByBlocks (layerOf layout producerBlocks source) idsP = some payload ∧
      injectKvIntoLayerByBlocks (layerOf layout consumerBlocks dest) payload idsD = some layer ∧
      (∀ i < min payloadIds destIds, ∀ part < 2,
        layer.get layout.blockAxis (idsD.getD i 0) part = source (idsP.getD i 0) part) ∧
      (∀ b < consumerBlocks, b ∉ idsD.take payloadIds → ∀ part < 2,
        layer.get layout.blockAxis b part = dest b part) ∧
      (payloadIds = destIds → ∃ again, extractKvFromLayerByBlocks layer idsD = some again ∧
        again.Same payload)

/-! ### The dimension the code takes -/

/-- The dimension along which the code looks for blocks. -/
def testedAxis (t : BlockTensor β) : Option Axis :=
  if t.dim0 = 2 then some .one else if t.dim1 = 2 then some .zero else none

section Tested

variable {t payload : BlockTensor β} {axis : Axis} {ids : List Nat}

theorem extract_eq (h : testedAxis t = some axis) :
    extractKvFromLayerByBlocks t ids = t.select axis ids := by
  unfold testedAxis at h
  unfold extractKvFromLayerByBlocks
  by_cases hnil : ids = []
  · subst hnil
    rw [if_pos rfl]
    split at h
    · next hflash =>
        cases h
        rw [if_pos hflash]
    · next hflash =>
        split at h
        · cases h
          rw [if_neg hflash]
        · cases h
  · rw [if_neg hnil]
    split at h
    · next hflash =>
        cases h
        rw [if_pos hflash]
    · next hflash =>
        split at h
        · next hmla =>
            cases h
            rw [if_neg hflash, if_pos hmla]
        · cases h

theorem inject_eq (h : testedAxis t = some axis) (hne : ids ≠ []) :
    injectKvIntoLayerByBlocks t payload ids =
      t.assign axis (ids.take (payload.size axis)) payload := by
  have htake : ∀ n, (if ids.length = n then t.assign axis ids payload
      else t.assign axis (ids.take n) payload) = t.assign axis (ids.take n) payload := by
    intro n
    split
    · next hlen => rw [List.take_of_length_le (Nat.le_of_eq hlen)]
    · rfl
  unfold testedAxis at h
  rw [injectKvIntoLayerByBlocks, if_neg hne]
  split at h
  · next hflash =>
      cases h
      rw [if_pos hflash]
      exact htake _
  · next hflash =>
      split at h
      · next hmla =>
          cases h
          rw [if_neg hflash, if_pos hmla]
          exact htake _
      · cases h

end Tested

/-- A layer of two blocks in the MLA layout is taken for one of FlashAttention. -/
def KVLayout.tested (layout : KVLayout) (numBlocks : Nat) : Axis :=
  match layout with
  | .flashAttention => .one
  | .mla => if numBlocks = 2 then .one else .zero

theorem testedAxis_layerOf (layout : KVLayout) (numBlocks : Nat) (content : Nat → Nat → β) :
    testedAxis (layerOf layout numBlocks content) = some (layout.tested numBlocks) := by
  cases layout with
  | flashAttention => rfl
  | mla =>
      simp only [testedAxis, layerOf, ofAxis, KVLayout.blockAxis, KVLayout.tested, if_true]
      split <;> rfl

/-- The content as the code sees it. -/
def KVLayout.seen (layout : KVLayout) (numBlocks : Nat) (content : Nat → Nat → β) (i j : Nat) : β :=
  if layout.tested numBlocks = layout.blockAxis then content i j else content j i

section Seen

variable {layout : KVLayout} {numBlocks : Nat} {content : Nat → Nat → β} {i j : Nat}

theorem tested_ne (h : layout.tested numBlocks ≠ layout.blockAxis) :
    layout = .mla ∧ numBlocks = 2 ∧ layout.tested numBlocks = .one := by
  cases layout with
  | flashAttention => exact absurd rfl h
  | mla =>
      simp only [KVLayout.tested, KVLayout.blockAxis] at h ⊢
      split at h
      · next htwo => exact ⟨trivial, htwo, if_pos htwo⟩
      · exact absurd rfl h

theorem size_layerOf :
    (layerOf layout numBlocks content).size (layout.tested numBlocks) = numBlocks := by
  by_cases h : layout.tested numBlocks = layout.blockAxis
  · rw [h, layerOf, size_ofAxis]
  · obtain ⟨rfl, rfl, -⟩ := tested_ne h
    rfl

theorem size_other_layerOf :
    (layerOf layout numBlocks content).size (layout.tested numBlocks).other = 2 := by
  by_cases h : layout.tested numBlocks = layout.blockAxis
  · rw [h, layerOf, size_other_ofAxis]
  · obtain ⟨rfl, rfl, -⟩ := tested_ne h
    rfl

theorem get_layerOf : (layerOf layout numBlocks content).get (layout.tested numBlocks) i j =
    layout.seen numBlocks content i j := by
  rw [KVLayout.seen]
  split
  · next h => rw [h, layerOf, get_ofAxis]
  · next h =>
      obtain ⟨rfl, rfl, -⟩ := tested_ne h
      rfl

/-- Extraction never fails. -/
theorem extract_layerOf {ids : List Nat} (hids : ∀ b ∈ ids, b < numBlocks) :
    extractKvFromLayerByBlocks (layerOf layout numBlocks content) ids =
      some (ofAxis (layout.tested numBlocks) ids.length 2 fun i j =>
        layout.seen numBlocks content (ids.getD i 0) j) := by
  rw [extract_eq (testedAxis_layerOf layout numBlocks content), select, size_layerOf,
    if_pos hids, size_other_layerOf]
  simp only [get_layerOf]

end Seen

/-! ### Injection -/

section Inject

variable {layout : KVLayout} {producerBlocks consumerBlocks n m : Nat}
  {source dest : Nat → Nat → β} {idsP idsD : List Nat}

/-- What arrives when both sides are seen along the same dimension. -/
theorem exists_inject {g : Nat → Nat → β} {payloadIds : Nat} (hne : idsD ≠ [])
    (hlt : ∀ b ∈ idsD, b < consumerBlocks) (hnd : idsD.Nodup) (hle : payloadIds ≤ idsD.length) :
    ∃ layer, injectKvIntoLayerByBlocks (layerOf layout consumerBlocks dest)
        (ofAxis (layout.tested consumerBlocks) payloadIds 2 g) idsD = some layer ∧
      testedAxis layer = some (layout.tested consumerBlocks) ∧
      layer.size (layout.tested consumerBlocks) = consumerBlocks ∧
      layer.size (layout.tested consumerBlocks).other = 2 ∧
      (∀ k < payloadIds, ∀ j, layer.get (layout.tested consumerBlocks) (idsD.getD k 0) j = g k j) ∧
      ∀ i, i ∉ idsD.take payloadIds → ∀ j, layer.get (layout.tested consumerBlocks) i j =
        layout.seen consumerBlocks dest i j := by
  have hlength : (idsD.take payloadIds).length = payloadIds := by
    rw [List.length_take, Nat.min_eq_left hle]
  obtain ⟨layer, hassign⟩ := @exists_assign β (layout.tested consumerBlocks)
    (layerOf layout consumerBlocks dest) (ofAxis (layout.tested consumerBlocks) payloadIds 2 g)
    (idsD.take payloadIds)
    (fun b hb => by rw [size_layerOf]; exact hlt b (List.mem_of_mem_take hb))
    (by rw [size_ofAxis, hlength]; exact .inl rfl)
    (by rw [size_other_ofAxis, size_other_layerOf]; exact .inl rfl)
  obtain ⟨-, -, hsize, hother, hat, hframe⟩ :=
    assign_some hassign (hnd.sublist (List.take_sublist _ _))
  rw [size_layerOf] at hsize
  rw [size_other_layerOf] at hother
  refine ⟨layer, ?_, ?_, hsize, hother, fun k hk j => ?_, fun i hi j => ?_⟩
  · rw [inject_eq (testedAxis_layerOf layout consumerBlocks dest) hne, size_ofAxis, hassign]
  · -- the shape has not changed, so the test has the same result
    have htest := testedAxis_layerOf layout consumerBlocks dest
    have hdims : layer.dim0 = (layerOf layout consumerBlocks dest).dim0 ∧
        layer.dim1 = (layerOf layout consumerBlocks dest).dim1 := by
      have hsize' := hsize.trans (@size_layerOf β layout consumerBlocks dest).symm
      have hother' := hother.trans (@size_other_layerOf β layout consumerBlocks dest).symm
      generalize layout.tested consumerBlocks = axis at hsize' hother'
      cases axis with
      | zero => exact ⟨hsize', hother'⟩
      | one => exact ⟨hother', hsize'⟩
    rw [testedAxis, hdims.1, hdims.2]
    exact htest
  · have hget := hat k (hlength.symm ▸ hk) j
    rw [List.getD_eq_getElem _ _ (hlength.symm ▸ hk), List.getElem_take, size_ofAxis,
      size_other_ofAxis, get_ofAxis, if_neg (by decide : ¬ (2 = 1))] at hget
    rw [List.getD_eq_getElem _ _ (Nat.lt_of_lt_of_le hk hle), hget]
    split
    · next hone =>
        have hzero : k = 0 := by omega
        rw [hzero]
    · rfl
  · rw [hframe i hi j, get_layerOf]

end Inject

/-! ### When the docstring holds -/

section Injects

variable {layout : KVLayout} {producerBlocks consumerBlocks payloadIds destIds : Nat}

/-- Without ids nothing is injected, and extracting nothing twice gives the same when both
sides are seen alike. -/
theorem injects_without_ids
    (h : payloadIds = 0 → layout.tested producerBlocks = layout.tested consumerBlocks) :
    Injects β layout producerBlocks consumerBlocks payloadIds 0 := by
  rintro source dest idsP idsD rfl hlength hP hD -
  obtain rfl := List.length_eq_zero_iff.mp hlength
  refine ⟨_, _, extract_layerOf hP, rfl, fun i hi => absurd hi (by simp),
    fun b _ _ part _ => ?_, fun hempty => ?_⟩
  · rw [layerOf, get_ofAxis]
  · refine ⟨_, extract_layerOf hD, ?_⟩
    rw [h hempty, hempty]
    exact same_ofAxis fun i hi => absurd hi (Nat.not_lt_zero i)

/-- Where the code looks for the blocks in the right dimension, the overlap arrives. -/
theorem injects_of_tested (hproducer : layout.tested producerBlocks = layout.blockAxis)
    (hconsumer : layout.tested consumerBlocks = layout.blockAxis)
    (hpos : 0 < destIds) (hle : payloadIds ≤ destIds) :
    Injects β layout producerBlocks consumerBlocks payloadIds destIds := by
  rintro source dest idsP idsD rfl rfl hP hD hnd
  have hseenP : ∀ i j, layout.seen producerBlocks source i j = source i j :=
    fun i j => if_pos hproducer
  have hseenD : ∀ i j, layout.seen consumerBlocks dest i j = dest i j := fun i j => if_pos hconsumer
  have hextract := @extract_layerOf β layout producerBlocks source idsP hP
  rw [hproducer, ← hconsumer] at hextract
  simp only [hseenP] at hextract
  obtain ⟨layer, hinject, htest, hsize, hother, hat, hframe⟩ := @exists_inject β layout
    consumerBlocks dest idsD (fun i j => source (idsP.getD i 0) j) idsP.length
    (List.length_pos_iff.mp hpos) hD hnd hle
  refine ⟨_, layer, hextract, hinject, fun i hi part _ => ?_, fun b _ hb part _ => ?_, ?_⟩
  · rw [← hconsumer]
    exact hat i (Nat.lt_of_lt_of_le hi (Nat.min_le_left _ _)) part
  · rw [← hconsumer, hframe b hb part, hseenD]
  · intro heq
    have hagain := @extract_eq β layer _ idsD htest
    rw [select, hsize, if_pos hD, hother, ← heq] at hagain
    exact ⟨_, hagain, same_ofAxis fun i hi j _ => hat i hi j⟩

/-- Nothing is written where nothing was extracted and both sides are seen alike. -/
theorem injects_nothing (h : layout.tested producerBlocks = layout.tested consumerBlocks)
    (hpos : 0 < destIds) : Injects β layout producerBlocks consumerBlocks 0 destIds := by
  rintro source dest idsP idsD hlength rfl hP hD hnd
  obtain rfl := List.length_eq_zero_iff.mp hlength
  have hextract := @extract_layerOf β layout producerBlocks source [] hP
  rw [h] at hextract
  obtain ⟨layer, hinject, -, -, -, -, hframe⟩ := @exists_inject β layout
    consumerBlocks dest idsD (fun i j => layout.seen producerBlocks source ([].getD i 0) j) 0
    (List.length_pos_iff.mp hpos) hD hnd (Nat.zero_le _)
  refine ⟨_, layer, hextract, hinject, fun i hi => absurd hi (by simp), fun b _ _ part _ => ?_,
    fun heq => absurd heq.symm (Nat.pos_iff_ne_zero.mp hpos)⟩
  simp only [List.take_zero, List.not_mem_nil, not_false_eq_true, forall_true_left] at hframe
  -- all elements are kept, so those of the block are
  by_cases hsame : layout.tested consumerBlocks = layout.blockAxis
  · rw [← hsame, hframe, KVLayout.seen, if_pos hsame]
  · obtain ⟨rfl, -, hone⟩ := tested_ne hsame
    have hget := hframe part b
    rw [hone, KVLayout.seen, if_neg hsame] at hget
    exact hget

/-- Two empty selections have the same shape only along the same dimension. -/
theorem axis_eq_of_same {axis axis' : Axis} {f g : Nat → Nat → β}
    (h : (ofAxis axis 0 2 f).Same (ofAxis axis' 0 2 g)) : axis = axis' := by
  cases axis with
  | zero =>
      cases axis' with
      | zero => rfl
      | one => exact nomatch h.dim0
  | one =>
      cases axis' with
      | zero => exact nomatch h.dim0
      | one => rfl

/-- Keys `x` and values `y` of a block 0: along a wrong dimension the code reads keys only. -/
theorem get_keys_values {x y : β} {n : Nat}
    (h : ¬ (layout.tested producerBlocks = layout.blockAxis ∧
      layout.tested consumerBlocks = layout.blockAxis)) (j : Nat) :
    (ofAxis (layout.tested producerBlocks) n 2 fun _ j =>
      layout.seen producerBlocks (fun _ part => if part = 0 then x else y) 0 j).get
        (layout.tested consumerBlocks) 0 j = x := by
  by_cases hagree : layout.tested producerBlocks = layout.tested consumerBlocks
  · have hne : layout.tested producerBlocks ≠ layout.blockAxis :=
      fun heq => h ⟨heq, hagree.symm.trans heq⟩
    rw [← hagree, get_ofAxis, KVLayout.seen, if_neg hne, if_pos rfl]
  · rw [get_ofAxis_ne hagree, KVLayout.seen]
    split <;> exact if_pos rfl

/-- The docstring promises too much for all other numbers of blocks: more blocks than ids do
not fit, and along the wrong dimension keys and values are taken for blocks. -/
theorem tested_of_injects [Nontrivial β] (hids : 0 < payloadIds → 0 < producerBlocks)
    (hdest : destIds ≤ consumerBlocks)
    (h : Injects β layout producerBlocks consumerBlocks payloadIds destIds) :
    (payloadIds = 0 → layout.tested producerBlocks = layout.tested consumerBlocks) ∧
      (0 < payloadIds → 0 < destIds → payloadIds ≤ destIds ∧
        layout.tested producerBlocks = layout.blockAxis ∧
        layout.tested consumerBlocks = layout.blockAxis) := by
  obtain ⟨x, y, hxy⟩ := exists_pair_ne β
  -- keys `x` and values `y` go to the last blocks of a cache of `x`s
  let idsD := (List.range destIds).map (consumerBlocks - 1 - ·)
  have hlengthD : idsD.length = destIds := by rw [List.length_map, List.length_range]
  have hfirst : 0 < destIds → idsD.getD 0 0 = consumerBlocks - 1 := by
    intro hpos
    rw [List.getD_eq_getElem _ _ (hlengthD.symm ▸ hpos), List.getElem_map, List.getElem_range,
      Nat.sub_zero]
  have hzero : ∀ i, (List.replicate payloadIds 0).getD i 0 = 0 := by
    intro i
    rw [List.getD_eq_getElem?_getD, List.getElem?_replicate]
    split <;> rfl
  have hltD : ∀ b ∈ idsD, b < consumerBlocks := by
    intro b hb
    obtain ⟨i, hi, rfl⟩ := List.mem_map.mp hb
    have hi := List.mem_range.mp hi
    omega
  obtain ⟨payload, layer, hextract, hinject, hat, -, hagain⟩ :=
    h (fun _ part => if part = 0 then x else y) (fun _ _ => x) (List.replicate payloadIds 0) idsD
      List.length_replicate hlengthD
      (fun b hb => by
        obtain ⟨hne, rfl⟩ := List.mem_replicate.mp hb
        exact hids (Nat.pos_of_ne_zero hne))
      hltD
      (List.nodup_range.map_on fun i hi j hj heq => by
        have hi := List.mem_range.mp hi
        have hj := List.mem_range.mp hj
        omega)
  have hltP : ∀ b ∈ List.replicate payloadIds 0, b < producerBlocks := by
    intro b hb
    obtain ⟨hne, rfl⟩ := List.mem_replicate.mp hb
    exact hids (Nat.pos_of_ne_zero hne)
  rw [extract_layerOf hltP, List.length_replicate] at hextract
  simp only [hzero] at hextract
  cases hextract
  by_cases hnone : destIds = 0
  · refine ⟨fun hempty => ?_, fun _ hpos => absurd hnone (Nat.pos_iff_ne_zero.mp hpos)⟩
    have hnil : idsD = [] := List.length_eq_zero_iff.mp (hlengthD.trans hnone)
    rw [hnil] at hinject hagain
    cases hinject
    obtain ⟨again, htwice, hsame⟩ := hagain (hempty.trans hnone.symm)
    rw [extract_layerOf (fun b hb => absurd hb List.not_mem_nil)] at htwice
    cases htwice
    rw [hempty] at hsame
    exact (axis_eq_of_same hsame).symm
  · have hpos := Nat.pos_of_ne_zero hnone
    have hne : idsD ≠ [] := List.length_pos_iff.mp (hlengthD.symm ▸ hpos)
    rw [inject_eq (testedAxis_layerOf layout consumerBlocks _) hne] at hinject
    have hnd : idsD.Nodup := List.nodup_range.map_on fun i hi j hj heq => by
      have hi := List.mem_range.mp hi
      have hj := List.mem_range.mp hj
      omega
    obtain ⟨hsize, hother, -, -, hget, -⟩ :=
      assign_some hinject (hnd.sublist (List.take_sublist _ _))
    rw [size_other_layerOf, size_other_ofAxis_eq] at hother
    rw [size_ofAxis_eq] at hsize hget
    rw [List.length_take, hlengthD] at hsize hget
    have hwrong : 0 < payloadIds → ¬ (layout.tested producerBlocks = layout.blockAxis ∧
        layout.tested consumerBlocks = layout.blockAxis) → False := by
      intro hsome hwrong
      -- the values of the first block are written with keys
      have htaken : 0 < min (if layout.tested producerBlocks = layout.tested consumerBlocks then
          payloadIds else 2) destIds := by
        split <;> omega
      have hwritten := hget 0 htaken 1
      rw [ite_self, get_keys_values hwrong] at hwritten
      have htake : ∀ n, 0 < n → (idsD.take n).getD 0 0 = idsD.getD 0 0 := by
        intro n hn
        rw [List.getD_eq_getElem?_getD, List.getElem?_take, if_pos hn, ← List.getD_eq_getElem?_getD]
      rw [htake _ (Nat.lt_of_lt_of_le htaken (Nat.min_le_left _ _)), hfirst hpos] at hwritten
      have hkept := hat 0 (by omega) 1 (by omega)
      rw [hfirst hpos] at hkept
      refine hxy (hwritten.symm.trans (Eq.trans ?_ hkept))
      by_cases hconsumer : layout.tested consumerBlocks = layout.blockAxis
      · rw [hconsumer]
      · obtain ⟨rfl, rfl, hone⟩ := tested_ne hconsumer
        rw [hone]
        rfl
    by_cases hagree : layout.tested producerBlocks = layout.tested consumerBlocks
    · rw [if_pos hagree] at hsize
      refine ⟨fun _ => hagree, fun hsome _ => ⟨?_, ?_⟩⟩
      · rcases hsize with heq | heq <;> omega
      · by_contra hnot
        exact hwrong hsome hnot
    · rw [if_neg hagree] at hother
      have hsome : 0 < payloadIds := by
        rcases hother with heq | heq <;> omega
      refine ⟨fun hempty => absurd hempty (Nat.pos_iff_ne_zero.mp hsome), fun _ _ => ?_⟩
      exact absurd (fun hboth => hagree (hboth.1.trans hboth.2.symm)) (hwrong hsome)

theorem tested_eq_blockAxis {numBlocks : Nat} :
    layout.tested numBlocks = layout.blockAxis ↔ (layout = .mla → numBlocks ≠ 2) := by
  cases layout with
  | flashAttention => exact ⟨fun _ h => (nomatch h), fun _ => rfl⟩
  | mla =>
      simp only [KVLayout.tested, KVLayout.blockAxis, true_imp_iff]
      split
      · next htwo => exact ⟨fun h => (nomatch h), fun h => absurd htwo h⟩
      · next htwo => exact ⟨fun _ => htwo, fun _ => rfl⟩

theorem tested_eq_tested : layout.tested producerBlocks = layout.tested consumerBlocks ↔
    (layout = .mla → (producerBlocks = 2 ↔ consumerBlocks = 2)) := by
  cases layout with
  | flashAttention => exact ⟨fun _ h => (nomatch h), fun _ => rfl⟩
  | mla =>
      simp only [KVLayout.tested, true_imp_iff]
      by_cases hp : producerBlocks = 2 <;> by_cases hc : consumerBlocks = 2 <;> simp [hp, hc]

/-- **The blocks of a request are injected as the docstring says exactly when there are no
more payload blocks than ids, and no cache in the MLA layout has two blocks.** Without ids
nothing can go wrong, and without payload blocks both caches have to be seen alike. -/
theorem injects_iff [Nontrivial β] (hids : 0 < payloadIds → 0 < producerBlocks)
    (hdest : destIds ≤ consumerBlocks) :
    Injects β layout producerBlocks consumerBlocks payloadIds destIds ↔
      (payloadIds = 0 → layout = .mla → (producerBlocks = 2 ↔ consumerBlocks = 2)) ∧
      (0 < payloadIds → 0 < destIds → payloadIds ≤ destIds ∧
        (layout = .mla → producerBlocks ≠ 2 ∧ consumerBlocks ≠ 2)) := by
  have hboth : (layout = .mla → producerBlocks ≠ 2 ∧ consumerBlocks ≠ 2) ↔
      layout.tested producerBlocks = layout.blockAxis ∧
        layout.tested consumerBlocks = layout.blockAxis := by
    rw [tested_eq_blockAxis, tested_eq_blockAxis, imp_and]
  rw [hboth, ← tested_eq_tested]
  refine ⟨tested_of_injects hids hdest, fun h => ?_⟩
  rcases Nat.eq_zero_or_pos destIds with rfl | hpos
  · exact injects_without_ids h.1
  · rcases Nat.eq_zero_or_pos payloadIds with rfl | hsome
    · exact injects_nothing (h.1 rfl) hpos
    · obtain ⟨hle, hproducer, hconsumer⟩ := h.2 hsome hpos
      exact injects_of_tested hproducer hconsumer hpos hle

end Injects

theorem injects_two_of_three :
    Injects Nat .flashAttention 2 5 2 3 ↔
      (2 = 0 → KVLayout.flashAttention = .mla → (2 = 2 ↔ 5 = 2)) ∧
      (0 < 2 → 0 < 3 → 2 ≤ 3 ∧ (KVLayout.flashAttention = .mla → 2 ≠ 2 ∧ 5 ≠ 2)) :=
  injects_iff (by decide) (by decide)

/-- Two payload blocks and one id: the assignment raises. One payload block for a cache of two
blocks in the MLA layout is broadcast to both. -/
theorem injection_raises :
    injectKvIntoLayerByBlocks (layerOf .flashAttention 4 fun _ _ => 0)
        (layerOf .flashAttention 2 fun b part => 10 * b + part) [3] = none ∧
      ¬ Injects Nat .flashAttention 2 4 2 1 ∧ ¬ Injects Nat .mla 3 2 1 2 := by
  refine ⟨by decide, fun h => ?_, fun h => ?_⟩
  · have hall := ((injects_iff (by decide) (by decide)).mp h).2 (by decide) (by decide)
    exact absurd hall.1 (by decide)
  · have hall := ((injects_iff (by decide) (by decide)).mp h).2 (by decide) (by decide)
    exact absurd rfl (hall.2 rfl).2

end KVServe.Connector

import KVServe.Compression.Adapter
import Mathlib.Data.List.Lex
import Mathlib.Data.List.Sort
import Mathlib.Data.String.Basic
import Mathlib.Tactic.IntervalCases

/-!
# KVServe.Compression.LayerIds

Which `layer_id` a layer gets. `wait_for_save` stacks the layers of a request in the order
of `sorted(layer_kv.keys())`, and the compression manager numbers the stacked layers from
zero, chunk by chunk. The names are strings, so `10` stands before `2`.
-/

namespace KVServe.Compression

variable {D S : Type} {dt : DTypes D}

/-! ### The order of the stack -/

/-- `sorted(layer_kv.keys())`: strings compare by code points. -/
def sortedNames {α : Type} (layerKv : List (String × α)) : List String :=
  (layerKv.map Prod.fst).insertionSort (· ≤ ·)

/-- `torch.stack([layer_kv[n] for n in layer_names], dim=0)`. -/
def stackLayers (shape : List Nat) (dtype : D) (layerKv : List (String × Tensor dt)) :
    Option (Tensor dt) := do
  let parts ← (sortedNames layerKv).mapM fun name => layerKv.lookup name
  Tensor.stack shape dtype parts

namespace Manager

/-- The calls `compress_all_layers` makes to its components: the `layer_id` and the layer
of each, in the single-batch path or chunk by chunk. `LayerCalls` shows that these are the
calls of its loops. -/
def layerCalls (m : Manager dt S) (x : Tensor dt) : List (Nat × Option (Tensor dt)) :=
  let numLayers := x.shape.headD 0
  if m.chunkThresholdBytes < x.nbytes then
    (List.range ((numLayers + m.chunkSize - 1) / m.chunkSize)).flatMap fun index =>
      let start := index * m.chunkSize
      let chunk := x.layers start (m.endLayer numLayers start)
      (List.range (m.endLayer numLayers start - start)).map fun i =>
        (start + i, chunk.bind (·.layer i))
  else (List.range numLayers).map fun i => (i, x.layer i)

end Manager

/-- A layer is registered under a name of the form `stem.<n>.suffix`. -/
def layerName (stem suffix : String) (n : Nat) : String :=
  stem ++ "." ++ toString n ++ "." ++ suffix

/-! ### Calls -/

namespace Tensor

variable {x chunk : Tensor dt} {n first last i : Nat} {shape : List Nat}

theorem exists_slice (hx : x.shape = n :: shape) (hle : first ≤ last) (hlast : last ≤ n) :
    ∃ chunk, x.layers first last = some chunk := by
  have hlen : ((x.bytes.drop (first * (shape.prod * x.itemsize))).take
      ((last - first) * (shape.prod * x.itemsize))).length =
      ((last - first) :: shape).prod * dt.elementSize x.dtype := by
    rw [List.length_take, List.length_drop, x.sized, hx, List.prod_cons, List.prod_cons,
      Nat.mul_assoc, Nat.mul_assoc]
    show min _ (n * (shape.prod * x.itemsize) - first * (shape.prod * x.itemsize)) = _
    rw [← Nat.sub_mul]
    exact Nat.min_eq_left (Nat.mul_le_mul_right _ (by omega))
  rw [layers, hx]
  simp only [Nat.min_eq_left hlast]
  exact ⟨_, dif_pos hlen⟩

/-- A layer of a slice is a layer of the tensor. -/
theorem layer_layers (hx : x.shape = n :: shape) (hlast : last ≤ n)
    (hchunk : x.layers first last = some chunk) (hi : i < last - first) :
    chunk.layer i = x.layer (first + i) := by
  obtain ⟨hshape, hdtype, hbytes⟩ := Manager.layers_eq_some hx hchunk hlast
  obtain ⟨y, hy⟩ := exists_layer (i := first + i) hx (by omega)
  obtain ⟨-, hyshape, hydtype, hybytes⟩ := (layer_eq_some hx).mp hy
  have hwidth : chunk.layerBytes = x.layerBytes := by
    rw [layerBytes, layerBytes, hshape, hx, itemsize, itemsize, hdtype, List.tail_cons,
      List.tail_cons]
  rw [hy]
  refine (layer_eq_some hshape).mpr ⟨hi, hyshape, hydtype.trans hdtype.symm, ?_⟩
  rw [hybytes, hwidth, hbytes, block, block, List.drop_take, List.drop_drop, List.take_take,
    ← Nat.add_mul, ← Nat.sub_mul]
  congr 1
  refine (Nat.min_eq_left ?_).symm
  exact Nat.le_mul_of_pos_left _ (by omega)

end Tensor

namespace Manager

variable {m : Manager dt S} {x : Tensor dt} {n : Nat} {shape : List Nat}

/-- The layers of the chunks, one chunk after the other. -/
theorem flatMap_chunks {α : Type} (hchunk : 0 < m.chunkSize) (f : Nat → α) (numChunks : Nat) :
    ((List.range numChunks).flatMap fun index =>
      (List.range (m.endLayer n (index * m.chunkSize) - index * m.chunkSize)).map fun i =>
        f (index * m.chunkSize + i)) = (List.range (min (numChunks * m.chunkSize) n)).map f := by
  induction numChunks with
  | zero => simp
  | succ numChunks ih =>
      rw [List.range_succ, List.flatMap_append, ih, List.flatMap_singleton, endLayer, Nat.succ_mul]
      rcases Nat.le_total (numChunks * m.chunkSize) n with hfull | hdone
      · have hsplit : min (numChunks * m.chunkSize + m.chunkSize) n = numChunks * m.chunkSize +
            (min (numChunks * m.chunkSize + m.chunkSize) n - numChunks * m.chunkSize) := by omega
        generalize min (numChunks * m.chunkSize + m.chunkSize) n - numChunks * m.chunkSize = k
          at hsplit
        rw [Nat.min_eq_left hfull, hsplit, List.range_add, List.map_append, List.map_map]
        rfl
      · have hnone : min (numChunks * m.chunkSize + m.chunkSize) n - numChunks * m.chunkSize = 0 :=
          by omega
        rw [hnone, Nat.min_eq_right hdone, Nat.min_eq_right (by omega)]
        exact List.append_nil _

/-- **A layer gets the number of its place in the stack**, whatever the path. -/
theorem layerCalls_eq (hchunk : 0 < m.chunkSize) (hx : x.shape = n :: shape) :
    m.layerCalls x = (List.range n).map fun i => (i, x.layer i) := by
  simp only [layerCalls, hx, List.headD_cons]
  split
  · have hcover : min ((n + m.chunkSize - 1) / m.chunkSize * m.chunkSize) n = n :=
      Nat.min_eq_right (le_numChunks_mul (Nat.pos_iff_ne_zero.mp hchunk) n)
    refine Eq.trans ?_ ((flatMap_chunks hchunk (fun i => (i, x.layer i)) _).trans
      (by rw [hcover]))
    refine List.flatMap_congr fun index _ => List.map_congr_left fun i hi => ?_
    have hlast : m.endLayer n (index * m.chunkSize) ≤ n := Nat.min_le_right _ _
    have hi := List.mem_range.mp hi
    obtain ⟨chunk, hchunk⟩ : ∃ chunk, x.layers (index * m.chunkSize)
        (m.endLayer n (index * m.chunkSize)) = some chunk :=
      Tensor.exists_slice hx (by omega) hlast
    rw [hchunk, Option.bind_some, Tensor.layer_layers hx hlast hchunk hi]
  · rfl

end Manager

/-! ### Order of the names -/

theorem append_lt_append {stem l l' : List Char} : stem ++ l < stem ++ l' ↔ l < l' := by
  induction stem with
  | nil => rfl
  | cons c stem ih =>
      rw [List.cons_append, List.cons_append, List.cons_lt_cons_iff]
      simp [ih]

/-- Names are compared by what follows the common stem. -/
theorem layerName_lt {stem suffix : String} {a b : Nat} :
    layerName stem suffix a < layerName stem suffix b ↔
      (toString a).toList ++ '.' :: suffix.toList < (toString b).toList ++ '.' :: suffix.toList := by
  have hname : ∀ n, (layerName stem suffix n).toList =
      (stem.toList ++ ['.']) ++ ((toString n).toList ++ '.' :: suffix.toList) := by
    intro n
    simp [layerName, String.toList_append]
  rw [String.lt_iff_toList_lt, hname, hname, append_lt_append]

theorem toList_digit {n : Nat} (h : n < 10) : (toString n).toList = [n.digitChar] := by
  interval_cases n <;> rfl

/-- Names of one digit stand in the order of their numbers. -/
theorem layerName_lt_of_lt (stem suffix : String) {a b : Nat} (hlt : a < b) (hb : b < 10) :
    layerName stem suffix a < layerName stem suffix b := by
  rw [layerName_lt, toList_digit (Nat.lt_trans hlt hb), toList_digit hb, List.singleton_append,
    List.singleton_append, List.cons_lt_cons_iff]
  left
  interval_cases b <;> interval_cases a <;> decide

/-- The tenth layer stands before the second. -/
theorem layerName_ten_lt_two (stem suffix : String) :
    layerName stem suffix 10 < layerName stem suffix 2 := by
  rw [layerName_lt]
  exact List.Lex.rel (by decide)

theorem layerName_injective (stem suffix : String) : Function.Injective (layerName stem suffix) := by
  intro a b h
  have hlist := congrArg String.toList h
  simp only [layerName, String.toList_append, List.append_assoc] at hlist
  have hdigits := List.append_cancel_right
    (List.append_cancel_left (List.append_cancel_left hlist))
  simp only [Nat.toString_eq_repr, Nat.toList_repr] at hdigits
  rw [← @Nat.ofDigitChars_ten_toDigits a, hdigits, Nat.ofDigitChars_ten_toDigits]

/-! ### The layers of a request -/

section Registered

variable {α : Type} {stem suffix : String} {L : Nat} {order : List Nat}

/-- The buffers of a request: the layers in any order of registration. -/
def registered (stem suffix : String) (order : List Nat) (data : Nat → α) : List (String × α) :=
  order.map fun n => (layerName stem suffix n, data n)

theorem lookup_registered (data : Nat → α) {n : Nat} (h : n ∈ order) :
    (registered stem suffix order data).lookup (layerName stem suffix n) = some (data n) := by
  induction order with
  | nil => exact absurd h List.not_mem_nil
  | cons k order ih =>
      rw [registered, List.map_cons, List.lookup_cons]
      by_cases hk : layerName stem suffix n = layerName stem suffix k
      · obtain rfl := layerName_injective stem suffix hk
        simp
      · have hn : n ∈ order := by
          rcases List.mem_cons.mp h with rfl | hn
          · exact absurd rfl hk
          · exact hn
        rw [beq_false_of_ne hk]
        exact ih hn

theorem sortedNames_registered (data : Nat → α) : sortedNames (registered stem suffix order data) =
    (order.map (layerName stem suffix)).insertionSort (· ≤ ·) := by
  rw [sortedNames, registered, List.map_map]
  rfl

/-- The stacked names are those of the layers. -/
theorem perm_sortedNames (stem suffix : String) (data : Nat → α)
    (horder : order.Perm (List.range L)) :
    (sortedNames (registered stem suffix order data)).Perm
      ((List.range L).map (layerName stem suffix)) := by
  rw [sortedNames_registered]
  exact (List.perm_insertionSort _ _).trans (horder.map _)

/-- Up to ten layers are stacked in the order of their numbers. -/
theorem sortedNames_eq_range (data : Nat → α) (horder : order.Perm (List.range L)) (hL : L ≤ 10) :
    sortedNames (registered stem suffix order data) =
      (List.range L).map (layerName stem suffix) := by
  refine (perm_sortedNames stem suffix data horder).eq_of_sortedLE ?_ ?_
  · exact List.sortedLE_insertionSort
  · refine List.Pairwise.sortedLE (List.pairwise_map.mpr ?_)
    refine List.pairwise_lt_range.imp_of_mem fun {a b} _ hb hlt => ?_
    exact le_of_lt (layerName_lt_of_lt stem suffix hlt (by
      have := List.mem_range.mp hb
      omega))

/-- More than ten layers are not. -/
theorem sortedNames_ne_range (stem suffix : String) (order : List Nat) (data : Nat → α)
    (hL : 10 < L) :
    sortedNames (registered stem suffix order data) ≠
      (List.range L).map (layerName stem suffix) := by
  intro heq
  have hsorted : ((List.range L).map (layerName stem suffix)).SortedLE := by
    rw [← heq]
    exact List.sortedLE_insertionSort
  have hpair := List.pairwise_map.mp hsorted.pairwise
  have hle := (List.pairwise_iff_getElem.mp hpair) 2 10 (by simp; omega) (by simp; omega) (by decide)
  rw [List.getElem_range, List.getElem_range] at hle
  exact absurd (layerName_ten_lt_two stem suffix) (not_lt.mpr hle)

end Registered

/-! ### Layer identity -/

section Identity

variable {stem suffix : String} {L : Nat} {order : List Nat} {shape : List Nat} {dtype : D}

/-- The stack of a request: at each place the layer whose name stands there. -/
theorem exists_stackLayers (horder : order.Perm (List.range L)) {data : Nat → Tensor dt}
    (hdata : ∀ n, (data n).shape = shape ∧ (data n).dtype = dtype) :
    ∃ x, stackLayers shape dtype (registered stem suffix order data) = some x ∧
      x.shape = L :: shape ∧
      ∀ i < L, ∃ n, (sortedNames (registered stem suffix order data))[i]? =
        some (layerName stem suffix n) ∧ x.layer i = some (data n) := by
  have hperm := perm_sortedNames stem suffix data horder
  have hlength : (sortedNames (registered stem suffix order data)).length = L := by
    rw [hperm.length_eq, List.length_map, List.length_range]
  have hname : ∀ i < L, ∃ n, (sortedNames (registered stem suffix order data))[i]? =
      some (layerName stem suffix n) ∧
      (registered stem suffix order data).lookup (layerName stem suffix n) = some (data n) := by
    intro i hi
    have hget := List.getElem?_eq_getElem (hlength ▸ hi)
    obtain ⟨n, hn, heq⟩ := List.mem_map.mp (hperm.mem_iff.mp (List.mem_of_getElem? hget))
    exact ⟨n, by rw [hget, heq], lookup_registered data (horder.mem_iff.mpr hn)⟩
  let names := sortedNames (registered stem suffix order data)
  let find := fun name => (registered stem suffix order data).lookup name
  obtain ⟨parts, hparts⟩ := @exists_mapM_range L _ (fun i => names[i]?.bind find) fun i hi => by
    obtain ⟨n, hn, hlookup⟩ := hname i hi
    exact ⟨data n, by rw [hn, Option.bind_some]; exact hlookup⟩
  obtain ⟨hlen, hget⟩ := mapM_range_eq_some.mp hparts
  have hmap : names.mapM find = some parts := by
    refine mapM_eq_some.mpr ⟨hlen.trans hlength.symm, fun i => ?_⟩
    by_cases hi : i < L
    · exact hget i hi
    · rw [List.getElem?_eq_none (Nat.le_of_not_lt (hlength.symm ▸ hi)),
        List.getElem?_eq_none (Nat.le_of_not_lt (hlen.symm ▸ hi))]
      rfl
  have hpart : ∀ i < L, ∃ n, names[i]? = some (layerName stem suffix n) ∧
      parts[i]? = some (data n) := by
    intro i hi
    obtain ⟨n, hn, hlookup⟩ := hname i hi
    refine ⟨n, hn, (hget i hi).symm.trans ?_⟩
    rw [hn, Option.bind_some]
    exact hlookup
  obtain ⟨x, hx, hshape, -, hlayer⟩ := @Tensor.exists_stack _ dt shape dtype parts (by
    intro part hmem
    obtain ⟨i, hi⟩ := List.mem_iff_getElem?.mp hmem
    obtain ⟨n, -, hn⟩ := hpart i (hlen ▸ (List.getElem?_eq_some_iff.mp hi).1)
    obtain rfl := Option.some.inj (hi.symm.trans hn)
    exact hdata n)
  refine ⟨x, ?_, by rw [hshape, hlen], fun i hi => ?_⟩
  · simp only [stackLayers, bind, Option.bind, hmap, names, find]
    exact hx
  · obtain ⟨n, hn, hget⟩ := hpart i hi
    exact ⟨n, hn, (hlayer i).trans hget⟩

/-- Two layers of one shape that differ. -/
theorem exists_ne (hshape : 0 < shape.prod) (dtype : D) : ∃ t u : Tensor dt,
    (t.shape = shape ∧ t.dtype = dtype) ∧ (u.shape = shape ∧ u.dtype = dtype) ∧ t ≠ u := by
  have hpos : 0 < shape.prod * dt.elementSize dtype :=
    Nat.mul_pos hshape (dt.elementSize_pos dtype)
  let fill := fun byte : UInt8 =>
    (⟨shape, dtype, List.replicate _ byte, List.length_replicate⟩ : Tensor dt)
  refine ⟨fill 0, fill 1, ⟨rfl, rfl⟩, ⟨rfl, rfl⟩, fun heq => ?_⟩
  have hbytes : List.replicate (shape.prod * dt.elementSize dtype) (0 : UInt8) =
      List.replicate (shape.prod * dt.elementSize dtype) 1 := congrArg Tensor.bytes heq
  exact absurd ((List.replicate_inj.mp hbytes).2.resolve_left (Nat.pos_iff_ne_zero.mp hpos))
    (by decide)

/-- Some layer of more than ten is called with the number of another. -/
theorem exists_misnumbered (m : Manager dt S) (hchunk : 0 < m.chunkSize) (stem suffix : String)
    (horder : order.Perm (List.range L)) (hshape : 0 < shape.prod) (dtype : D) (hL : 10 < L) :
    ∃ data : Nat → Tensor dt, (∀ n, (data n).shape = shape ∧ (data n).dtype = dtype) ∧
      ∃ x, stackLayers shape dtype (registered stem suffix order data) = some x ∧
        m.layerCalls x ≠ (List.range L).map fun n => (n, some (data n)) := by
  obtain ⟨t, u, ht, hu, hne⟩ := @exists_ne D dt shape hshape dtype
  by_contra hnone
  refine sortedNames_ne_range stem suffix order (fun _ => t) hL (List.ext_getElem? fun i => ?_)
  have hlen := (perm_sortedNames stem suffix (fun _ => t) horder).length_eq
  rw [List.length_map, List.length_range] at hlen
  by_cases hi : i < L
  · -- one layer differs from the others: it is called at its own place, so its name stands there
    let data := fun k => if k = i then t else u
    have hdata : ∀ n, (data n).shape = shape ∧ (data n).dtype = dtype := by
      intro n
      simp only [data]
      split
      · exact ht
      · exact hu
    obtain ⟨x, hx, hxshape, hlayer⟩ := @exists_stackLayers D dt stem suffix L order shape dtype
      horder data hdata
    have heq : m.layerCalls x = (List.range L).map fun n => (n, some (data n)) := by
      by_contra hne
      exact hnone ⟨data, hdata, x, hx, hne⟩
    rw [Manager.layerCalls_eq hchunk hxshape] at heq
    obtain ⟨n, hn, hget⟩ := hlayer i hi
    have hentry := congrArg (·[i]?) heq
    simp only [List.getElem?_map, List.getElem?_range hi, Option.map_some, Option.some.injEq,
      Prod.mk.injEq, true_and, hget] at hentry
    rw [sortedNames_registered] at hn ⊢
    rw [hn, List.getElem?_map, List.getElem?_range hi, Option.map_some]
    by_cases hni : n = i
    · rw [hni]
    · simp only [data, if_neg hni, if_true] at hentry
      exact absurd hentry.symm hne
  · rw [List.getElem?_eq_none (by omega), List.getElem?_eq_none (by simpa using hi)]

/-- **Every layer gets its own number iff there are at most ten.** -/
theorem layers_identified_iff (m : Manager dt S) (hchunk : 0 < m.chunkSize)
    (stem suffix : String) (horder : order.Perm (List.range L)) (hshape : 0 < shape.prod)
    (dtype : D) :
    (∀ data : Nat → Tensor dt, (∀ n, (data n).shape = shape ∧ (data n).dtype = dtype) →
      ∃ x, stackLayers shape dtype (registered stem suffix order data) = some x ∧
        m.layerCalls x = (List.range L).map fun n => (n, some (data n))) ↔ L ≤ 10 := by
  constructor
  · intro h
    by_contra hL
    obtain ⟨data, hdata, x, hx, hne⟩ := exists_misnumbered m hchunk stem suffix horder hshape
      dtype (Nat.lt_of_not_le hL)
    obtain ⟨x', hx', heq⟩ := h data hdata
    obtain rfl := Option.some.inj (hx.symm.trans hx')
    exact hne heq
  · intro hL data hdata
    obtain ⟨x, hx, hxshape, hlayer⟩ := @exists_stackLayers D dt stem suffix L order shape dtype
      horder data hdata
    refine ⟨x, hx, (Manager.layerCalls_eq hchunk hxshape).trans ?_⟩
    refine List.map_congr_left fun i hi => ?_
    have hi := List.mem_range.mp hi
    obtain ⟨n, hn, hget⟩ := hlayer i hi
    rw [sortedNames_eq_range data horder hL, List.getElem?_map, List.getElem?_range hi] at hn
    rw [hget, layerName_injective stem suffix (Option.some.inj hn)]

/-- Three layers of two bytes, registered last to first, in chunks of two. -/
theorem layers_identified_three :
    (∀ data : Nat → Tensor .sample, (∀ n, (data n).shape = [2, 1, 1, 1, 1] ∧
        (data n).dtype = .uint8) →
      ∃ x, stackLayers [2, 1, 1, 1, 1] .uint8
          (registered "model.layers" "self_attn" [2, 1, 0] data) = some x ∧
        Adapter.sampleManager.layerCalls x =
          (List.range 3).map fun n => (n, some (data n))) ↔ 3 ≤ 10 :=
  layers_identified_iff Adapter.sampleManager (by decide) "model.layers" "self_attn" (by decide)
    (by decide) .uint8

/-- Eleven layers of two bytes, registered first to last. -/
theorem eleven_layers_misnumbered :
    ∃ data : Nat → Tensor .sample,
      (∀ n, (data n).shape = [2, 1, 1, 1, 1] ∧ (data n).dtype = .uint8) ∧
      ∃ x, stackLayers [2, 1, 1, 1, 1] .uint8
          (registered "model.layers" "self_attn" (List.range 11) data) = some x ∧
        Adapter.sampleManager.layerCalls x ≠
          (List.range 11).map fun n => (n, some (data n)) :=
  exists_misnumbered Adapter.sampleManager (by decide) "model.layers" "self_attn"
    (List.Perm.refl _) (by decide) .uint8 (by decide)

end Identity

end KVServe.Compression

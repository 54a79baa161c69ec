import KVServe.Compression.Value

/-!
# KVServe.Compression.Wire

The **GPU-resident wire format** of a compressed payload: `build_wire` takes the
tensors out of the quantization parameters and leaves their numbers behind,
coalesces them into one byte vector with a layout table, and splits a large body
into byte chunks; `restore_from_wire` undoes it.

`none` is an exception. The traversal that numbers the tensors is one accumulator
shared by the metadata and the metadata of all chunks, so what a value packs to
depends on the tensors taken out before it. `unpackQparams_pack` is stated for any
table that starts with the tensors taken out so far, which is what lets the parts be
put together.

Two things are lost: a tuple inside the quantization parameters reads back as a list
(`Value.listed`), and a pair that looks like a placeholder reads back as a tensor
(`Value.Plain` excludes it).
-/

namespace KVServe.Compression

/-! ### Quantization parameters -/

/-- `_AUX_PLACEHOLDER`. -/
def auxPlaceholder : String := "__kvserve_aux_tensor__"

namespace Value

variable {T S : Type}

mutual
/-- `_pack_qparams`: the packed value and the tensors taken out so far. -/
def packQparams : Value T S → List T → Value T S × List T
  | .tensor t, aux => (.list [.str auxPlaceholder, .int aux.length], aux ++ [t])
  | .dict entries, aux => (.dict (packEntries entries aux).1, (packEntries entries aux).2)
  | .list items, aux => (.list (packItems items aux).1, (packItems items aux).2)
  | .tuple items, aux => (.list (packItems items aux).1, (packItems items aux).2)
  | .null, aux => (.null, aux)
  | .bool b, aux => (.bool b, aux)
  | .scalar x, aux => (.scalar x, aux)
  | .str s, aux => (.str s, aux)
  | .int n, aux => (.int n, aux)

def packItems : List (Value T S) → List T → List (Value T S) × List T
  | [], aux => ([], aux)
  | v :: rest, aux =>
      ((packQparams v aux).1 :: (packItems rest (packQparams v aux).2).1,
        (packItems rest (packQparams v aux).2).2)

def packEntries : List (Key × Value T S) → List T → List (Key × Value T S) × List T
  | [], aux => ([], aux)
  | (k, v) :: rest, aux =>
      ((k, (packQparams v aux).1) :: (packEntries rest (packQparams v aux).2).1,
        (packEntries rest (packQparams v aux).2).2)
end

/-- `_is_aux_placeholder` for a list of these items. -/
def isAuxPlaceholder : List (Value T S) → Bool
  | [.str s, _] => s = auxPlaceholder
  | _ => false

/-- `int(obj[1])`. An index that is not an integer does not come from `_pack_qparams`. -/
def auxIndex : List (Value T S) → Option Int
  | [_, .int n] => some n
  | _ => none

/-- `aux_tensors[n]`: a negative index counts from the end. -/
def auxTensor (aux : List T) (n : Int) : Option T :=
  if 0 ≤ n then aux[n.toNat]? else if -n ≤ aux.length then aux[(aux.length + n).toNat]? else none

mutual
/-- `_unpack_qparams`. -/
def unpackQparams (aux : List T) : Value T S → Option (Value T S)
  | .list items =>
      if isAuxPlaceholder items then ((auxIndex items).bind (auxTensor aux)).map .tensor
      else (unpackItems aux items).map .list
  | .dict entries => (unpackEntries aux entries).map .dict
  | .tuple items => some (.tuple items)
  | .tensor t => some (.tensor t)
  | .null => some .null
  | .bool b => some (.bool b)
  | .scalar x => some (.scalar x)
  | .str s => some (.str s)
  | .int n => some (.int n)

def unpackItems (aux : List T) : List (Value T S) → Option (List (Value T S))
  | [] => some []
  | v :: rest => do
      let v ← unpackQparams aux v
      let rest ← unpackItems aux rest
      return v :: rest

def unpackEntries (aux : List T) : List (Key × Value T S) → Option (List (Key × Value T S))
  | [] => some []
  | (k, v) :: rest => do
      let v ← unpackQparams aux v
      let rest ← unpackEntries aux rest
      return (k, v) :: rest
end

mutual
/-- `_assert_no_tensor`. -/
def noTensor : Value T S → Bool
  | .tensor _ => false
  | .dict entries => noTensorEntries entries
  | .list items => noTensorItems items
  | .tuple items => noTensorItems items
  | .null | .bool _ | .scalar _ | .str _ | .int _ => true

def noTensorItems : List (Value T S) → Bool
  | [] => true
  | v :: rest => noTensor v && noTensorItems rest

def noTensorEntries : List (Key × Value T S) → Bool
  | [] => true
  | (_, v) :: rest => noTensor v && noTensorEntries rest
end

/-! ### What is kept -/

mutual
/-- The value with its tuples turned into lists. -/
def listed : Value T S → Value T S
  | .dict entries => .dict (listedEntries entries)
  | .list items => .list (listedItems items)
  | .tuple items => .list (listedItems items)
  | .tensor t => .tensor t
  | .null => .null
  | .bool b => .bool b
  | .scalar x => .scalar x
  | .str s => .str s
  | .int n => .int n

def listedItems : List (Value T S) → List (Value T S)
  | [] => []
  | v :: rest => listed v :: listedItems rest

def listedEntries : List (Key × Value T S) → List (Key × Value T S)
  | [] => []
  | (k, v) :: rest => (k, listed v) :: listedEntries rest
end

mutual
/-- No list or tuple in the value looks like a placeholder. -/
def Plain : Value T S → Bool
  | .dict entries => PlainEntries entries
  | .list items => !isAuxPlaceholder items && PlainItems items
  | .tuple items => !isAuxPlaceholder items && PlainItems items
  | .tensor _ | .null | .bool _ | .scalar _ | .str _ | .int _ => true

def PlainItems : List (Value T S) → Bool
  | [] => true
  | v :: rest => Plain v && PlainItems rest

def PlainEntries : List (Key × Value T S) → Bool
  | [] => true
  | (_, v) :: rest => Plain v && PlainEntries rest
end

/-- A value in a packed position is the placeholder string only if it was before. -/
theorem packQparams_str {v : Value T S} {aux : List T} {s : String}
    (h : (packQparams v aux).1 = .str s) : v = .str s := by
  cases v <;> simp_all [packQparams]

/-- Packing makes no list look like a placeholder. -/
theorem isAuxPlaceholder_packItems {items : List (Value T S)} (aux : List T)
    (h : isAuxPlaceholder items = false) : isAuxPlaceholder (packItems items aux).1 = false := by
  match items, h with
  | [], _ => rfl
  | [v], _ => simp [packItems, isAuxPlaceholder]
  | [v, w], h =>
      simp only [packItems]
      unfold isAuxPlaceholder
      split
      · rename_i s x heq
        simp only [List.cons.injEq, and_true] at heq
        obtain rfl := packQparams_str heq.1
        exact h
      · rfl
  | v :: w :: x :: rest, _ => simp [packItems, isAuxPlaceholder]

mutual
/-- **Packing takes the tensors out and unpacking puts them back**, whatever else the
table holds. -/
theorem unpackQparams_pack (v : Value T S) (aux : List T) (h : v.Plain = true) :
    ∃ own, (v.packQparams aux).2 = aux ++ own ∧
      ∀ more, unpackQparams (aux ++ own ++ more) (v.packQparams aux).1 = some v.listed := by
  match v with
  | .tensor t =>
      refine ⟨[t], rfl, fun more => ?_⟩
      simp [packQparams, unpackQparams, isAuxPlaceholder, auxIndex, auxTensor, listed]
  | .dict entries =>
      obtain ⟨own, hown, hunpack⟩ := unpackEntries_pack entries aux (by simpa [Plain] using h)
      refine ⟨own, hown, fun more => ?_⟩
      rw [packQparams, unpackQparams, hunpack more]
      rfl
  | .list items =>
      obtain ⟨hplain, hitems⟩ : isAuxPlaceholder items = false ∧ PlainItems items = true := by
        simpa [Plain] using h
      obtain ⟨own, hown, hunpack⟩ := unpackItems_pack items aux hitems
      refine ⟨own, hown, fun more => ?_⟩
      rw [packQparams, unpackQparams, isAuxPlaceholder_packItems aux hplain, hunpack more]
      rfl
  | .tuple items =>
      obtain ⟨hplain, hitems⟩ : isAuxPlaceholder items = false ∧ PlainItems items = true := by
        simpa [Plain] using h
      obtain ⟨own, hown, hunpack⟩ := unpackItems_pack items aux hitems
      refine ⟨own, hown, fun more => ?_⟩
      rw [packQparams, unpackQparams, isAuxPlaceholder_packItems aux hplain, hunpack more]
      rfl
  | .null => exact ⟨[], by simp [packQparams], fun more => rfl⟩
  | .bool b => exact ⟨[], by simp [packQparams], fun more => rfl⟩
  | .scalar x => exact ⟨[], by simp [packQparams], fun more => rfl⟩
  | .str s => exact ⟨[], by simp [packQparams], fun more => rfl⟩
  | .int n => exact ⟨[], by simp [packQparams], fun more => rfl⟩

theorem unpackItems_pack (items : List (Value T S)) (aux : List T)
    (h : PlainItems items = true) :
    ∃ own, (packItems items aux).2 = aux ++ own ∧
      ∀ more, unpackItems (aux ++ own ++ more) (packItems items aux).1 =
        some (listedItems items) := by
  match items with
  | [] => exact ⟨[], by simp [packItems], fun more => rfl⟩
  | v :: rest =>
      obtain ⟨hv, hrest⟩ : v.Plain = true ∧ PlainItems rest = true := by
        simpa [PlainItems] using h
      obtain ⟨own, hown, hunpack⟩ := unpackQparams_pack v aux hv
      obtain ⟨own', hown', hunpack'⟩ := unpackItems_pack rest (v.packQparams aux).2 hrest
      refine ⟨own ++ own', by rw [packItems, hown', hown, List.append_assoc], fun more => ?_⟩
      have hfirst := hunpack (own' ++ more)
      have hothers := hunpack' more
      rw [hown] at hothers
      simp only [List.append_assoc] at hfirst hothers ⊢
      simp only [packItems, unpackItems, hfirst, hown, hothers, listedItems, Option.bind_eq_bind,
        Option.bind_some, Option.pure_def]

theorem unpackEntries_pack (entries : List (Key × Value T S)) (aux : List T)
    (h : PlainEntries entries = true) :
    ∃ own, (packEntries entries aux).2 = aux ++ own ∧
      ∀ more, unpackEntries (aux ++ own ++ more) (packEntries entries aux).1 =
        some (listedEntries entries) := by
  match entries with
  | [] => exact ⟨[], by simp [packEntries], fun more => rfl⟩
  | (k, v) :: rest =>
      obtain ⟨hv, hrest⟩ : v.Plain = true ∧ PlainEntries rest = true := by
        simpa [PlainEntries] using h
      obtain ⟨own, hown, hunpack⟩ := unpackQparams_pack v aux hv
      obtain ⟨own', hown', hunpack'⟩ := unpackEntries_pack rest (v.packQparams aux).2 hrest
      refine ⟨own ++ own', by rw [packEntries, hown', hown, List.append_assoc], fun more => ?_⟩
      have hfirst := hunpack (own' ++ more)
      have hothers := hunpack' more
      rw [hown] at hothers
      simp only [List.append_assoc] at hfirst hothers ⊢
      simp only [packEntries, unpackEntries, hfirst, hown, hothers, listedEntries,
        Option.bind_eq_bind, Option.bind_some, Option.pure_def]
end

mutual
/-- No tensor is left in what has been packed. -/
theorem noTensor_packQparams (v : Value T S) (aux : List T) :
    (packQparams v aux).1.noTensor = true := by
  match v with
  | .tensor t => simp [packQparams, noTensor, noTensorItems]
  | .dict entries =>
      simp only [packQparams, noTensor]
      exact noTensor_packEntries entries aux
  | .list items | .tuple items =>
      simp only [packQparams, noTensor]
      exact noTensor_packItems items aux
  | .null | .bool b | .scalar x | .str s | .int n => rfl

theorem noTensor_packItems (items : List (Value T S)) (aux : List T) :
    noTensorItems (packItems items aux).1 = true := by
  match items with
  | [] => rfl
  | v :: rest =>
      simp only [packItems, noTensorItems, Bool.and_eq_true]
      exact ⟨noTensor_packQparams v aux, noTensor_packItems rest _⟩

theorem noTensor_packEntries (entries : List (Key × Value T S)) (aux : List T) :
    noTensorEntries (packEntries entries aux).1 = true := by
  match entries with
  | [] => rfl
  | (k, v) :: rest =>
      simp only [packEntries, noTensorEntries, Bool.and_eq_true]
      exact ⟨noTensor_packQparams v aux, noTensor_packEntries rest _⟩
end

theorem noTensorEntries_of_forall {entries : List (Key × Value T S)}
    (h : ∀ entry ∈ entries, entry.2.noTensor = true) : noTensorEntries entries = true := by
  induction entries with
  | nil => rfl
  | cons entry rest ih =>
      rw [noTensorEntries, h entry List.mem_cons_self,
        ih fun entry hmem => h entry (List.mem_cons_of_mem _ hmem)]
      rfl

/-! ### Metadata -/

/-- `_pack_metadata`. -/
def packMetadata : Value T S → List T → Value T S × List T
  | .dict entries, aux =>
      match Dict.get (.str "quantization_params") entries with
      | some q =>
          (.dict (Dict.set (.str "quantization_params") (q.packQparams aux).1 entries),
            (q.packQparams aux).2)
      | none => (.dict entries, aux)
  | v, aux => (v, aux)

/-- `_unpack_metadata`. -/
def unpackMetadata (aux : List T) : Value T S → Option (Value T S)
  | .dict entries =>
      match Dict.get (.str "quantization_params") entries with
      | some q => (q.unpackQparams aux).map fun q =>
          .dict (Dict.set (.str "quantization_params") q entries)
      | none => some (.dict entries)
  | v => some v

/-- The metadata with the tuples of its quantization parameters turned into lists. -/
def listedMetadata : Value T S → Value T S
  | .dict entries =>
      match Dict.get (.str "quantization_params") entries with
      | some q => .dict (Dict.set (.str "quantization_params") q.listed entries)
      | none => .dict entries
  | v => v

/-- No placeholder in the quantization parameters. -/
def PlainMetadata : Value T S → Bool
  | .dict entries =>
      match Dict.get (.str "quantization_params") entries with
      | some q => q.Plain
      | none => true
  | _ => true

theorem unpackMetadata_pack (v : Value T S) (aux : List T) (h : v.PlainMetadata = true) :
    ∃ own, (v.packMetadata aux).2 = aux ++ own ∧
      ∀ more, unpackMetadata (aux ++ own ++ more) (v.packMetadata aux).1 =
        some v.listedMetadata := by
  cases v with
  | dict entries =>
      cases hq : Dict.get (.str "quantization_params") entries with
      | none =>
          refine ⟨[], by simp [packMetadata, hq], fun more => ?_⟩
          simp only [packMetadata, hq, unpackMetadata, listedMetadata]
      | some q =>
          obtain ⟨own, hown, hunpack⟩ :=
            unpackQparams_pack q aux (by simpa [PlainMetadata, hq] using h)
          refine ⟨own, by simpa [packMetadata, hq] using hown, fun more => ?_⟩
          simp only [packMetadata, hq, unpackMetadata, listedMetadata, Dict.get_set_self,
            hunpack more, Option.map_some, Dict.set_set]
  | _ => exact ⟨[], by simp [packMetadata], fun more => rfl⟩

/-- The list comprehension over `chunk_metadata`, with the shared accumulator. -/
def packAll : List (Value T S) → List T → List (Value T S) × List T
  | [], aux => ([], aux)
  | v :: rest, aux =>
      ((v.packMetadata aux).1 :: (packAll rest (v.packMetadata aux).2).1,
        (packAll rest (v.packMetadata aux).2).2)

theorem unpackMetadata_packAll (vs : List (Value T S)) (aux : List T)
    (h : ∀ v ∈ vs, v.PlainMetadata = true) :
    ∃ own, (packAll vs aux).2 = aux ++ own ∧
      ∀ more, (packAll vs aux).1.mapM (unpackMetadata (aux ++ own ++ more)) =
        some (vs.map listedMetadata) := by
  induction vs generalizing aux with
  | nil => exact ⟨[], by simp [packAll], fun more => rfl⟩
  | cons v rest ih =>
      obtain ⟨own, hown, hunpack⟩ := unpackMetadata_pack v aux (h v List.mem_cons_self)
      obtain ⟨own', hown', hunpack'⟩ := ih (v.packMetadata aux).2 fun w hw =>
        h w (List.mem_cons_of_mem _ hw)
      refine ⟨own ++ own', by rw [packAll, hown', hown, List.append_assoc], fun more => ?_⟩
      have hfirst := hunpack (own' ++ more)
      have hothers := hunpack' more
      rw [hown] at hothers
      simp only [List.append_assoc] at hfirst hothers ⊢
      simp only [packAll, List.mapM_cons, hfirst, hown, hothers, Option.bind_eq_bind,
        Option.bind_some, Option.pure_def, List.map_cons]

end Value

/-! ### Auxiliary tensors -/

/-- An entry of the layout table. -/
structure AuxSpec where
  storage : Nat
  offset : Nat
  nbytes : Nat
  shape : List Nat
  dtype : String
  deriving DecidableEq, Repr

/-- `meta["aux_layout"]`. -/
structure AuxLayout where
  mode : String
  tensors : List AuxSpec
  deriving DecidableEq, Repr

variable {D S : Type} {dt : DTypes D}

/-- `(-offset) % itemsize`. -/
def padding (offset itemsize : Nat) : Nat := (-(offset : Int) % (itemsize : Int)).toNat

/-- The loop of `_coalesce_aux_tensors` from an offset on. -/
def coalesceFrom : Nat → List (Tensor dt) → List UInt8 × List AuxSpec
  | _, [] => ([], [])
  | offset, t :: rest =>
      let pad := padding offset (dt.elementSize t.dtype)
      let others := coalesceFrom (offset + pad + t.nbytes) rest
      (List.replicate pad 0 ++ t.bytes ++ others.1,
        { storage := 0, offset := offset + pad, nbytes := t.nbytes, shape := t.shape,
          dtype := dt.name t.dtype } :: others.2)

/-- `_coalesce_aux_tensors`: what is put on the wire, and the layout table if there is one. -/
def coalesceAuxTensors (aux : List (Tensor dt)) : List (Tensor dt) × Option AuxLayout :=
  if aux.length ≤ 1 then (aux, none)
  else
    ([.ofU8 (coalesceFrom 0 aux).1],
      some { mode := "coalesced_bytes", tensors := (coalesceFrom 0 aux).2 })

/-- One tensor of `_expand_aux_tensors`. A view starts at a multiple of its element size. -/
def expandOne (storage : List UInt8) (spec : AuxSpec) : Option (Tensor dt) :=
  if spec.storage ≠ 0 then none
  else do
    let dtype ← dt.byName spec.dtype
    if spec.offset % dt.elementSize dtype ≠ 0 then none
    else Tensor.ofBytes spec.shape dtype ((storage.drop spec.offset).take spec.nbytes)

/-- `_expand_aux_tensors`. -/
def expandAuxTensors (wireAux : List (Tensor dt)) : Option AuxLayout → Option (List (Tensor dt))
  | none => some wireAux
  | some layout =>
      if layout.mode ≠ "coalesced_bytes" then none
      else
        match wireAux with
        | [] => some []
        | first :: _ => do
            let storage ← first.byteView
            layout.tensors.mapM (expandOne storage)

theorem dvd_add_padding (offset : Nat) {itemsize : Nat} (h : 0 < itemsize) :
    itemsize ∣ offset + padding offset itemsize := by
  have hpos : (itemsize : Int) ≠ 0 := by omega
  have hcast : ((padding offset itemsize : Nat) : Int) = -(offset : Int) % (itemsize : Int) :=
    Int.toNat_of_nonneg (Int.emod_nonneg _ hpos)
  have hdvd : (itemsize : Int) ∣ ((offset + padding offset itemsize : Nat) : Int) := by
    rw [Int.natCast_add, hcast]
    refine Int.dvd_of_emod_eq_zero ?_
    rw [Int.add_emod_emod, Int.add_right_neg, Int.zero_emod]
  exact Int.natCast_dvd_natCast.mp hdvd

/-- Every recorded offset fits its dtype. -/
theorem coalesceFrom_aligned (offset : Nat) (aux : List (Tensor dt)) :
    ∀ spec ∈ (coalesceFrom offset aux).2, ∃ d, dt.byName spec.dtype = some d ∧
      dt.elementSize d ∣ spec.offset := by
  induction aux generalizing offset with
  | nil => intro spec hmem; cases hmem
  | cons t rest ih =>
      intro spec hmem
      rcases List.mem_cons.mp hmem with rfl | hmem
      · exact ⟨t.dtype, dt.byName_name _, dvd_add_padding offset (dt.elementSize_pos _)⟩
      · exact ih _ spec hmem

/-- **The layout table finds every tensor**, in a storage that holds the coalesced bytes
after `before`. -/
theorem mapM_expandOne (before : List UInt8) (aux : List (Tensor dt)) :
    (coalesceFrom before.length aux).2.mapM
      (expandOne (before ++ (coalesceFrom before.length aux).1)) = some aux := by
  induction aux generalizing before with
  | nil => rfl
  | cons t rest ih =>
      simp only [coalesceFrom, List.mapM_cons]
      generalize hpad : padding before.length (dt.elementSize t.dtype) = pad
      generalize hothers : (coalesceFrom (before.length + pad + t.nbytes) rest) = others
      have hslice : ((before ++ (List.replicate pad 0 ++ t.bytes ++ others.1)).drop
          (before.length + pad)).take t.nbytes = t.bytes := by
        have hsplit : before ++ (List.replicate pad 0 ++ t.bytes ++ others.1) =
            (before ++ List.replicate pad 0) ++ (t.bytes ++ others.1) := by
          simp only [List.append_assoc]
        rw [hsplit, List.drop_left' (by simp), List.take_left' t.length_bytes]
      have haligned : (before.length + pad) % dt.elementSize t.dtype = 0 := by
        rw [← hpad]
        exact Nat.mod_eq_zero_of_dvd (dvd_add_padding _ (dt.elementSize_pos _))
      have hfirst : expandOne (before ++ (List.replicate pad 0 ++ t.bytes ++ others.1))
          { storage := 0, offset := before.length + pad, nbytes := t.nbytes, shape := t.shape,
            dtype := dt.name t.dtype } = some t := by
        simp only [expandOne, dt.byName_name, haligned, hslice, ne_eq, not_true, if_false,
          Option.bind_eq_bind, Option.bind_some, Tensor.ofBytes_bytes]
      have hrest := ih (before ++ (List.replicate pad 0 ++ t.bytes))
      have hlength : (before ++ (List.replicate pad 0 ++ t.bytes)).length =
          before.length + pad + t.nbytes := by
        simp only [List.length_append, List.length_replicate, t.length_bytes, Nat.add_assoc]
      rw [hlength, hothers, List.append_assoc] at hrest
      simp only [hfirst, hrest, Option.bind_eq_bind, Option.bind_some, Option.pure_def]

theorem expandAuxTensors_coalesce (aux : List (Tensor dt)) :
    expandAuxTensors (coalesceAuxTensors aux).1 (coalesceAuxTensors aux).2 = some aux := by
  unfold coalesceAuxTensors
  split
  · rfl
  · simpa [expandAuxTensors] using mapM_expandOne [] aux

/-! ### The body -/

/-- `_split_tensor_bytes`: slices of `range(0, n, max_chunk_bytes)`. -/
def splitBytes (maxChunkBytes : Nat) (bytes : List UInt8) : List (List UInt8) :=
  (List.range ((bytes.length + maxChunkBytes - 1) / maxChunkBytes)).map fun k =>
    (bytes.drop (k * maxChunkBytes)).take maxChunkBytes

theorem flatten_slices (m n : Nat) (bytes : List UInt8) :
    ((List.range n).map fun k => (bytes.drop (k * m)).take m).flatten = bytes.take (n * m) := by
  induction n with
  | zero => simp
  | succ n ih =>
      rw [List.range_succ, List.map_append, List.flatten_append, ih, Nat.succ_mul]
      simp [List.take_add]

theorem flatten_splitBytes {maxChunkBytes : Nat} (h : 0 < maxChunkBytes) (bytes : List UInt8) :
    (splitBytes maxChunkBytes bytes).flatten = bytes := by
  rw [splitBytes, flatten_slices]
  refine List.take_of_length_le ?_
  have hdiv := Nat.div_add_mod (bytes.length + maxChunkBytes - 1) maxChunkBytes
  have hmod := Nat.mod_lt (bytes.length + maxChunkBytes - 1) h
  rw [Nat.mul_comm] at hdiv
  omega

theorem length_of_mem_splitBytes {maxChunkBytes : Nat} {bytes chunk : List UInt8}
    (h : chunk ∈ splitBytes maxChunkBytes bytes) : chunk.length ≤ maxChunkBytes := by
  obtain ⟨k, -, rfl⟩ := List.mem_map.mp h
  rw [List.length_take]
  exact Nat.min_le_left _ _

/-! ### Payloads -/

/-- A Python value over tensors. -/
abbrev Meta (dt : DTypes D) (S : Type) := Value (Tensor dt) S

/-- `CompressedKVData`. -/
structure CompressedKVData (dt : DTypes D) (S : Type) where
  requestId : String
  layerId : Int
  compressedTensor : Option (Tensor dt) := none
  metadata : Meta dt S
  originalSize : Int := 0
  compressedSize : Int := 0
  isChunked : Bool := false
  chunks : Option (List (Tensor dt)) := none
  chunkMetadata : Option (List (Meta dt S)) := none

inductive BodyMode
  | managerChunks
  | single
  | byteChunks
  deriving DecidableEq, Repr

/-- `CompressedWire.meta`. -/
structure WireMeta (dt : DTypes D) (S : Type) where
  isChunked : Bool
  layerId : Int
  originalSize : Int
  compressedSize : Int
  metadata : Meta dt S
  chunkMetadata : List (Meta dt S) := []
  bodyMode : BodyMode
  bodySpec : Option TensorSpec := none
  auxLayout : Option AuxLayout := none

structure CompressedWire (dt : DTypes D) (S : Type) where
  header : WireMeta dt S
  bodyChunks : List (Tensor dt)
  auxTensors : List (Tensor dt)

/-- The end of `build_wire`: the auxiliary tensors are coalesced, and none may be left in
the metadata. -/
def sealWire (header : WireMeta dt S) (bodyChunks aux : List (Tensor dt)) :
    Option (CompressedWire dt S) :=
  if header.metadata.noTensor && header.chunkMetadata.all Value.noTensor then
    some
      { header := { header with auxLayout := (coalesceAuxTensors aux).2 }
        bodyChunks
        auxTensors := (coalesceAuxTensors aux).1 }
  else none

/-- The body of a payload that is not chunked. -/
def wireBody (body : Tensor dt) (maxChunkBytes : Nat) : Option (BodyMode × List (Tensor dt)) :=
  if maxChunkBytes < body.nbytes then
    if maxChunkBytes = 0 then none
    else body.byteView.map fun bytes =>
      (.byteChunks, (splitBytes maxChunkBytes bytes).map Tensor.ofU8)
  else some (.single, [body])

/-- `build_wire`. -/
def buildWire (c : CompressedKVData dt S) (maxChunkBytes : Nat) : Option (CompressedWire dt S) :=
  if c.isChunked then
    match c.chunks, c.chunkMetadata with
    | some (chunk :: chunks), some (chunkMeta :: chunkMetadata) =>
        let first := c.metadata.packMetadata []
        let others := Value.packAll (chunkMeta :: chunkMetadata) first.2
        sealWire
          { isChunked := true, layerId := c.layerId, originalSize := c.originalSize
            compressedSize := c.compressedSize, metadata := first.1, chunkMetadata := others.1
            bodyMode := .managerChunks }
          (chunk :: chunks) others.2
    | _, _ => none
  else
    match c.compressedTensor with
    | some body => (wireBody body maxChunkBytes).bind fun wired =>
        let packed := c.metadata.packMetadata []
        sealWire
          { isChunked := false, layerId := c.layerId, originalSize := c.originalSize
            compressedSize := c.compressedSize, metadata := packed.1, bodyMode := wired.1
            bodySpec := some body.spec }
          wired.2 packed.2
    | none => none

/-- `str(v)`; `strOf` is its result for values that are not strings. -/
def pyStr (strOf : Meta dt S → String) : Meta dt S → String
  | .str s => s
  | v => strOf v

/-- The request id named by the metadata. -/
def requestIdOf (strOf : Meta dt S → String) : Meta dt S → String
  | .dict entries => ((Dict.get (.str "request_id") entries).map (pyStr strOf)).getD "unknown"
  | _ => "unknown"

/-- `_restore_tensor_from_bytes`. -/
def restoreTensorFromBytes (bytes : List UInt8) (spec : TensorSpec) : Option (Tensor dt) :=
  (dt.byName spec.dtype).bind fun dtype => Tensor.ofBytes spec.shape dtype bytes

/-- The body of `restore_from_wire`. -/
def restoreBody (wire : CompressedWire dt S) : Option (Tensor dt) :=
  match wire.header.bodyMode with
  | .byteChunks => do
      let parts ← wire.bodyChunks.mapM Tensor.byteView
      let spec ← wire.header.bodySpec
      restoreTensorFromBytes parts.flatten spec
  | _ => wire.bodyChunks.head?

/-- `restore_from_wire`. -/
def restoreFromWire (strOf : Meta dt S → String) (wire : CompressedWire dt S) :
    Option (CompressedKVData dt S) := do
  let aux ← expandAuxTensors wire.auxTensors wire.header.auxLayout
  let metadata ← wire.header.metadata.unpackMetadata aux
  if wire.header.isChunked then
    let chunkMetadata ← wire.header.chunkMetadata.mapM (Value.unpackMetadata aux)
    return {
      requestId := requestIdOf strOf metadata, layerId := wire.header.layerId, metadata
      originalSize := wire.header.originalSize, compressedSize := wire.header.compressedSize
      isChunked := true, chunks := some wire.bodyChunks, chunkMetadata := some chunkMetadata }
  else
    let body ← restoreBody wire
    return {
      requestId := requestIdOf strOf metadata, layerId := wire.header.layerId
      compressedTensor := some body, metadata
      originalSize := wire.header.originalSize, compressedSize := wire.header.compressedSize }

/-! ### The round trip -/

namespace CompressedKVData

/-- A payload has chunks or one tensor, not both. -/
def Consistent (c : CompressedKVData dt S) : Prop :=
  if c.isChunked then c.compressedTensor = none else c.chunks = none ∧ c.chunkMetadata = none

/-- The metadata holds the request id. -/
def NamesRequest (c : CompressedKVData dt S) : Prop :=
  ∃ entries, c.metadata = .dict entries ∧
    Dict.get (.str "request_id") entries = some (.str c.requestId)

/-- No placeholder in any quantization parameters. -/
def Plain (c : CompressedKVData dt S) : Prop :=
  c.metadata.PlainMetadata = true ∧
    ∀ chunkMetadata, c.chunkMetadata = some chunkMetadata →
      ∀ v ∈ chunkMetadata, v.PlainMetadata = true

/-- The payload with the tuples of its quantization parameters turned into lists. -/
def listed (c : CompressedKVData dt S) : CompressedKVData dt S :=
  { c with
    metadata := c.metadata.listedMetadata
    chunkMetadata := c.chunkMetadata.map (·.map Value.listedMetadata) }

/-- The request id is read back. -/
theorem NamesRequest.readBack {c : CompressedKVData dt S} (h : c.NamesRequest)
    (strOf : Meta dt S → String) : requestIdOf strOf c.metadata.listedMetadata = c.requestId := by
  obtain ⟨entries, hmetadata, hid⟩ := h
  have hget : requestIdOf strOf (.dict entries) = c.requestId := by
    simp [Compression.requestIdOf, hid, pyStr]
  rw [hmetadata, Value.listedMetadata]
  cases Dict.get (.str "quantization_params") entries with
  | none => exact hget
  | some q =>
      simp only [Compression.requestIdOf] at hget ⊢
      rw [Dict.get_set_ne (by decide)]
      exact hget

end CompressedKVData

theorem sealWire_some {header : WireMeta dt S} {bodyChunks aux : List (Tensor dt)}
    {wire : CompressedWire dt S} (h : sealWire header bodyChunks aux = some wire) :
    wire = {
      header := { header with auxLayout := (coalesceAuxTensors aux).2 }
      bodyChunks
      auxTensors := (coalesceAuxTensors aux).1 } := by
  unfold sealWire at h
  split at h
  · exact (Option.some.inj h).symm
  · cases h

theorem mapM_byteView_ofU8 (parts : List (List UInt8)) :
    (parts.map (Tensor.ofU8 : List UInt8 → Tensor dt)).mapM Tensor.byteView = some parts := by
  induction parts with
  | nil => rfl
  | cons part parts ih =>
      rw [List.map_cons, List.mapM_cons, Tensor.byteView_ofU8, ih]
      rfl

/-- The body of a payload survives being split. -/
theorem restoreBody_wireBody {body : Tensor dt} {maxChunkBytes : Nat}
    {wired : BodyMode × List (Tensor dt)} (h : wireBody body maxChunkBytes = some wired)
    (wire : CompressedWire dt S) (hmode : wire.header.bodyMode = wired.1)
    (hspec : wire.header.bodySpec = some body.spec) (hchunks : wire.bodyChunks = wired.2) :
    restoreBody wire = some body ∧ ∀ chunk ∈ wired.2, chunk.nbytes ≤ maxChunkBytes := by
  unfold wireBody at h
  split at h
  · split at h
    · cases h
    · rename_i hpos
      obtain ⟨bytes, hview, rfl⟩ := Option.map_eq_some_iff.mp h
      obtain rfl : body.bytes = bytes := by
        unfold Tensor.byteView at hview
        split at hview
        · cases hview
        · exact Option.some.inj hview
      refine ⟨?_, fun chunk hmem => ?_⟩
      · simp only [restoreBody, hmode, hspec, hchunks, mapM_byteView_ofU8, Option.bind_eq_bind,
          Option.bind_some, flatten_splitBytes (Nat.pos_of_ne_zero hpos), restoreTensorFromBytes,
          Tensor.spec, dt.byName_name, Tensor.ofBytes_bytes]
      · obtain ⟨part, hpart, rfl⟩ := List.mem_map.mp hmem
        rw [← Tensor.length_bytes]
        exact length_of_mem_splitBytes hpart
  · rename_i hle
    obtain rfl := Option.some.inj h
    refine ⟨by simp [restoreBody, hmode, hchunks], fun chunk hmem => ?_⟩
    rw [List.mem_singleton.mp hmem]
    omega

theorem buildWire_chunked {c : CompressedKVData dt S} {maxChunkBytes : Nat}
    {wire : CompressedWire dt S} (h : buildWire c maxChunkBytes = some wire)
    (hchunked : c.isChunked = true) :
    ∃ chunks chunkMetadata, c.chunks = some chunks ∧ c.chunkMetadata = some chunkMetadata ∧
      sealWire
        { isChunked := true, layerId := c.layerId, originalSize := c.originalSize
          compressedSize := c.compressedSize, metadata := (c.metadata.packMetadata []).1
          chunkMetadata := (Value.packAll chunkMetadata (c.metadata.packMetadata []).2).1
          bodyMode := .managerChunks }
        chunks (Value.packAll chunkMetadata (c.metadata.packMetadata []).2).2 = some wire := by
  unfold buildWire at h
  rw [if_pos hchunked] at h
  split at h
  · rename_i hchunks hmetadata
    exact ⟨_, _, hchunks, hmetadata, h⟩
  · cases h

theorem buildWire_whole {c : CompressedKVData dt S} {maxChunkBytes : Nat}
    {wire : CompressedWire dt S} (h : buildWire c maxChunkBytes = some wire)
    (hchunked : c.isChunked = false) :
    ∃ body wired, c.compressedTensor = some body ∧ wireBody body maxChunkBytes = some wired ∧
      sealWire
        { isChunked := false, layerId := c.layerId, originalSize := c.originalSize
          compressedSize := c.compressedSize, metadata := (c.metadata.packMetadata []).1
          bodyMode := wired.1, bodySpec := some body.spec }
        wired.2 (c.metadata.packMetadata []).2 = some wire := by
  unfold buildWire at h
  rw [if_neg (by simp [hchunked])] at h
  split at h
  · rename_i body hbody
    obtain ⟨wired, hwired, hseal⟩ := Option.bind_eq_some_iff.mp h
    exact ⟨body, wired, hbody, hwired, hseal⟩
  · cases h

/-- What `build_wire` accepts, `restore_from_wire` gives back. -/
theorem restoreFromWire_eq_listed (strOf : Meta dt S → String) {c : CompressedKVData dt S}
    {maxChunkBytes : Nat} {wire : CompressedWire dt S} (h : buildWire c maxChunkBytes = some wire)
    (hconsistent : c.Consistent) (hrequest : c.NamesRequest) (hplain : c.Plain) :
    restoreFromWire strOf wire = some c.listed := by
  obtain ⟨own, hown, hunpack⟩ := Value.unpackMetadata_pack c.metadata [] hplain.1
  have hid := hrequest.readBack strOf
  cases hchunked : c.isChunked with
  | true =>
      obtain ⟨chunks, chunkMetadata, hchunks, hmetadata, hseal⟩ := buildWire_chunked h hchunked
      obtain ⟨own', hown', hunpack'⟩ := Value.unpackMetadata_packAll chunkMetadata
        (c.metadata.packMetadata []).2 (hplain.2 _ hmetadata)
      have hbody : c.compressedTensor = none := by
        simpa [CompressedKVData.Consistent, hchunked] using hconsistent
      obtain rfl := sealWire_some hseal
      have hfirst := hunpack own'
      have hothers := hunpack' []
      have haux : (Value.packAll chunkMetadata (c.metadata.packMetadata []).2).2 =
          own ++ own' := by
        rw [hown', hown, List.nil_append]
      simp only [hown, List.nil_append, List.append_nil] at hfirst hothers haux
      simp only [restoreFromWire, expandAuxTensors_coalesce, hown, List.nil_append, haux,
        Option.bind_eq_bind, Option.bind_some, hfirst, hothers, if_true, Option.pure_def, hid,
        CompressedKVData.listed, hchunked, hbody, hchunks, hmetadata, Option.map_some]
  | false =>
      obtain ⟨body, wired, hbody, hwired, hseal⟩ := buildWire_whole h hchunked
      obtain ⟨hchunks, hmetadata⟩ : c.chunks = none ∧ c.chunkMetadata = none := by
        simpa [CompressedKVData.Consistent, hchunked] using hconsistent
      have hwire := sealWire_some hseal
      obtain ⟨hrestored, -⟩ :=
        restoreBody_wireBody hwired wire (by rw [hwire]) (by rw [hwire]) (by rw [hwire])
      subst hwire
      have hfirst := hunpack []
      rw [List.append_nil, ← hown] at hfirst
      simp only [restoreFromWire, expandAuxTensors_coalesce, Option.bind_eq_bind,
        Option.bind_some, hfirst, Bool.false_eq_true, if_false, hrestored, Option.pure_def, hid,
        CompressedKVData.listed, hchunked, hbody, hchunks, hmetadata, Option.map_none]

/-- Every tensor of the layout table starts at a multiple of its element size. -/
theorem sealWire_aligned {header : WireMeta dt S} {bodyChunks aux : List (Tensor dt)}
    {wire : CompressedWire dt S} (h : sealWire header bodyChunks aux = some wire) :
    ∀ layout, wire.header.auxLayout = some layout → ∀ spec ∈ layout.tensors,
      ∃ d, dt.byName spec.dtype = some d ∧ dt.elementSize d ∣ spec.offset := by
  intro layout hlayout
  rw [sealWire_some h] at hlayout
  simp only [coalesceAuxTensors] at hlayout
  split at hlayout
  · cases hlayout
  · obtain rfl := Option.some.inj hlayout
    exact coalesceFrom_aligned 0 aux

/-- **The wire round trip.** What `build_wire` accepts, `restore_from_wire` gives back: the
body, every auxiliary tensor at its own place and the chunks with their metadata in order.
The byte chunks of a split body keep to the limit, and every tensor of the layout table
starts at a multiple of its element size. -/
theorem restoreFromWire_buildWire (strOf : Meta dt S → String) {c : CompressedKVData dt S}
    {maxChunkBytes : Nat} {wire : CompressedWire dt S} (h : buildWire c maxChunkBytes = some wire)
    (hconsistent : c.Consistent) (hrequest : c.NamesRequest) (hplain : c.Plain) :
    restoreFromWire strOf wire = some c.listed ∧
      (c.isChunked = false → ∀ chunk ∈ wire.bodyChunks, chunk.nbytes ≤ maxChunkBytes) ∧
      ∀ layout, wire.header.auxLayout = some layout → ∀ spec ∈ layout.tensors,
        ∃ d, dt.byName spec.dtype = some d ∧ dt.elementSize d ∣ spec.offset := by
  refine ⟨restoreFromWire_eq_listed strOf h hconsistent hrequest hplain, fun hchunked => ?_, ?_⟩
  · obtain ⟨body, wired, hbody, hwired, hseal⟩ := buildWire_whole h hchunked
    have hwire := sealWire_some hseal
    obtain ⟨-, hsizes⟩ :=
      restoreBody_wireBody hwired wire (by rw [hwire]) (by rw [hwire]) (by rw [hwire])
    rw [hwire]
    exact hsizes
  · cases hchunked : c.isChunked with
    | true =>
        obtain ⟨chunks, chunkMetadata, -, -, hseal⟩ := buildWire_chunked h hchunked
        exact sealWire_aligned hseal
    | false =>
        obtain ⟨body, wired, -, -, hseal⟩ := buildWire_whole h hchunked
        exact sealWire_aligned hseal

/-- A body of three bytes, with a vector of one byte, an empty vector and a scalar of four
bytes among its quantization parameters. -/
def samplePayload : CompressedKVData .sample Unit where
  requestId := "r"
  layerId := 1
  compressedTensor := some (.ofU8 [1, 2, 3])
  metadata := .dict [(.str "request_id", .str "r"), (.str "quantization_params", .list [
    .dict [(.str "scale", .tensor (.ofU8 [9])), (.str "none", .tensor (.ofU8 []))],
    .tuple [.int 7, .tensor ⟨[], .float32, [5, 6, 7, 8], rfl⟩]])]

/-- The body is split in two, the scalar is aligned, and all of it comes back. -/
theorem restoreFromWire_buildWire_split :
    ∃ wire, buildWire samplePayload 2 = some wire ∧ wire.bodyChunks.length = 2 ∧
      wire.auxTensors.map (·.bytes) = [[9, 0, 0, 0, 5, 6, 7, 8]] ∧
      restoreFromWire (fun _ => "") wire = some samplePayload.listed := by
  obtain ⟨wire, hwire⟩ := Option.isSome_iff_exists.mp
    (show (buildWire samplePayload 2).isSome by decide)
  have hsome : some wire = _ := hwire.symm
  refine ⟨wire, hwire, ?_, ?_, (restoreFromWire_buildWire _ hwire ?_ ?_ ?_).1⟩
  · exact congrArg (fun w : Option _ => (w.map (·.bodyChunks.length)).getD 0) hsome
  · exact congrArg (fun w : Option _ => (w.map (·.auxTensors.map (·.bytes))).getD []) hsome
  · exact ⟨rfl, rfl⟩
  · exact ⟨_, rfl, rfl⟩
  · exact ⟨rfl, fun chunkMetadata h => by cases h⟩

end KVServe.Compression

import KVServe.Compression.BitPack
import KVServe.Compression.RoundTrip

/-!
# KVServe.Compression.BitPackPayload

The round trip of `BitPackCodec`. Both kernels are reduced to what their lanes store: a lane of
`_pack` a byte of the bit stream of the symbols, a lane of `_unpack` a symbol of the bit stream of
the payload.
-/

namespace KVServe.Compression

namespace BitPack

open BitStream

variable {source : List UInt8} {N BITS byte i s t : Nat}

/-! ### Lanes -/

/-- A symbol, or zero behind the last one. -/
def symbol (source : List UInt8) (i : Nat) : Nat := (source.getD i 0).toNat

/-- What a masked load yields. -/
def masked (source : List UInt8) (i : Nat) (mask : Bool) : Nat := if mask then symbol source i else 0

theorem symbol_of_le (h : source.length ≤ i) : symbol source i = 0 := by
  rw [symbol, List.getD_eq_default _ _ h]
  rfl

theorem symbol_lt (h : ∀ v ∈ source, v.toNat < 2 ^ BITS) (i : Nat) : symbol source i < 2 ^ BITS := by
  rcases Nat.lt_or_ge i source.length with hi | hi
  · rw [symbol, List.getD_eq_getElem _ _ hi]
    exact h _ (List.getElem_mem hi)
  · rw [symbol_of_le hi]
    exact Nat.two_pow_pos BITS

theorem masked_lt (h : ∀ v ∈ source, v.toNat < 2 ^ BITS) (i : Nat) (mask : Bool) :
    masked source i mask < 2 ^ BITS := by
  rw [masked]
  split
  · exact symbol_lt h i
  · exact Nat.two_pow_pos BITS

/-- A masked load does not leave the tensor. -/
theorem load_eq {mask : Bool} (h : mask = true → i < source.length) :
    load source i mask = .ok (masked source i mask) := by
  cases mask with
  | false => rfl
  | true =>
      have hi := h rfl
      rw [load, if_pos rfl, List.getElem?_eq_getElem hi, masked, if_pos rfl, symbol,
        List.getD_eq_getElem _ _ hi]

/-- The symbol a byte begins in. -/
def headSymbol (source : List UInt8) (N BITS byte : Nat) : Nat :=
  masked source (byte * 8 / BITS) (byte < (N * BITS + 7) / 8 && byte * 8 / BITS < N)

/-- The `j`-th one behind it, unless it begins behind the byte. -/
def tailSymbol (source : List UInt8) (N BITS byte j : Nat) : Nat :=
  masked source (byte * 8 / BITS + j) (byte < (N * BITS + 7) / 8 && byte * 8 / BITS + j < N &&
    j * BITS - byte * 8 % BITS < 8)

/-- What `_pack` puts together from there. -/
def gathered (source : List UInt8) (N BITS byte : Nat) (js : List Nat) (packed : Nat) : Nat :=
  js.foldl (fun packed j => packed |||
    (tailSymbol source N BITS byte j <<< (j * BITS - byte * 8 % BITS)) % 2 ^ 32) packed

/-- The byte that is stored. -/
def packed (source : List UInt8) (N BITS byte : Nat) : Nat :=
  gathered source N BITS byte (List.range' 1 ((7 + BITS - 1) / BITS))
    (headSymbol source N BITS byte >>> (byte * 8 % BITS))

section Pack

variable (hN : N = source.length) (h : ∀ v ∈ source, v.toNat < 2 ^ BITS)

include hN h

theorem packLoop_eq (js : List Nat) (acc : Nat) :
    packLoop source N BITS byte js acc = .ok (gathered source N BITS byte js acc) := by
  induction js generalizing acc with
  | nil => rfl
  | cons j js ih =>
      have hload : load source (byte * 8 / BITS + j) (byte < (N * BITS + 7) / 8 &&
          byte * 8 / BITS + j < N && j * BITS - byte * 8 % BITS < 8) =
          .ok (tailSymbol source N BITS byte j) := by
        refine load_eq fun hmask => ?_
        simp only [Bool.and_eq_true, decide_eq_true_eq] at hmask
        exact hN ▸ hmask.1.2
      have hlt : tailSymbol source N BITS byte j < 2 ^ BITS := masked_lt h _ _
      rw [packLoop]
      simp only [hload, deviceAssert, Nat.one_shiftLeft, bind, Except.bind, hlt, decide_true, if_true]
      exact ih _

/-- **A lane of `_pack`.** -/
theorem packLane_eq : packLane source N BITS byte = .ok (if byte < (N * BITS + 7) / 8 then
    [(16 + byte, UInt8.ofNat (packed source N BITS byte))] else []) := by
  have hload : load source (byte * 8 / BITS)
      (byte < (N * BITS + 7) / 8 && byte * 8 / BITS < N) = .ok (headSymbol source N BITS byte) := by
    refine load_eq fun hmask => ?_
    simp only [Bool.and_eq_true, decide_eq_true_eq] at hmask
    exact hN ▸ hmask.2
  have hlt : headSymbol source N BITS byte < 2 ^ BITS := masked_lt h _ _
  rw [packLane]
  simp only [hload, deviceAssert, Nat.one_shiftLeft, bind, Except.bind, hlt, decide_true, if_true,
    packLoop_eq hN h]
  rfl

/-- **The byte of a lane** is a byte of the stream of the symbols. -/
theorem testBit_packed (hBITS : 0 < BITS) (hbyte : byte < (N * BITS + 7) / 8) (ht : t < 8) :
    (packed source N BITS byte).testBit t = bit BITS (symbol source) (byte * 8 + t) := by
  have hmasked : ∀ i (mask : Bool), (mask = false → N ≤ i) → masked source i mask = symbol source i := by
    intro i mask hmask
    cases mask with
    | true => rfl
    | false => exact (symbol_of_le (hN ▸ hmask rfl)).symm
  have hposition : byte * 8 + t = byte * 8 / BITS * BITS + byte * 8 % BITS + t := by
    rw [Nat.div_add_mod' (byte * 8) BITS]
  have hhead : headSymbol source N BITS byte = symbol source (byte * 8 / BITS) :=
    hmasked _ _ (by simp [hbyte])
  rw [hposition, ← bit_gather (symbol_lt h) (Nat.mod_lt _ hBITS) ht, packed, gathered,
    testBit_foldl, Nat.testBit_shiftRight, hhead]
  congr 1
  refine List.any_congr rfl fun j => ?_
  rw [Nat.testBit_mod_two_pow, Nat.testBit_shiftLeft, decide_eq_true (Nat.lt_trans ht (by omega)),
    Bool.true_and]
  by_cases hle : j * BITS - byte * 8 % BITS ≤ t
  · have htail : tailSymbol source N BITS byte j = symbol source (byte * 8 / BITS + j) := by
      refine hmasked _ _ fun hmask => ?_
      simp only [Bool.and_eq_false_iff, decide_eq_false_iff_not] at hmask
      omega
    rw [htail]
  · simp [hle]

end Pack

/-! ### Back -/

/-- The byte a symbol begins in. -/
def lowByte (source : List UInt8) (N BITS i : Nat) : Nat :=
  masked source (16 + i * BITS / 8) (i < N && i * BITS / 8 < (N * BITS + 7) / 8)

/-- The next one, if the symbol reaches it. -/
def highByte (source : List UInt8) (N BITS i : Nat) : Nat :=
  masked source (16 + i * BITS / 8 + 1) (i < N && i * BITS / 8 + 1 < (N * BITS + 7) / 8 &&
    8 < i * BITS % 8 + BITS)

/-- The symbol that is stored. -/
def unpacked (source : List UInt8) (N BITS i : Nat) : Nat :=
  ((lowByte source N BITS i ||| (highByte source N BITS i <<< 8) % 2 ^ 32) >>> (i * BITS % 8)) &&&
    (1 <<< BITS - 1)

section Unpack

variable (hlength : source.length = 16 + (N * BITS + 7) / 8)

include hlength

/-- **A lane of `_unpack`** stays inside the payload. -/
theorem unpackLane_eq : unpackLane source N BITS i =
    .ok (if i < N then [(i, UInt8.ofNat (unpacked source N BITS i))] else []) := by
  have hlo : load source (16 + i * BITS / 8) (i < N && i * BITS / 8 < (N * BITS + 7) / 8) =
      .ok (lowByte source N BITS i) := by
    refine load_eq fun hmask => ?_
    simp only [Bool.and_eq_true, decide_eq_true_eq] at hmask
    omega
  have hhi : load source (16 + i * BITS / 8 + 1) (i < N &&
      i * BITS / 8 + 1 < (N * BITS + 7) / 8 && 8 < i * BITS % 8 + BITS) =
      .ok (highByte source N BITS i) := by
    refine load_eq fun hmask => ?_
    simp only [Bool.and_eq_true, decide_eq_true_eq] at hmask
    omega
  rw [unpackLane]
  simp only [hlo, hhi, bind, Except.bind]
  rfl

omit hlength in
/-- **The symbol of a lane** is a symbol of the stream of the payload. -/
theorem testBit_unpacked (hBITS : BITS ≤ 8) (hi : i < N) (hs : s < BITS) :
    (unpacked source N BITS i).testBit s =
      bit 8 (fun b => symbol source (16 + b)) (i * BITS + s) := by
  have hbytes : ∀ v ∈ source, v.toNat < 2 ^ 8 := fun v _ => v.toNat_lt
  have hnext : (i + 1) * BITS ≤ N * BITS := Nat.mul_le_mul_right BITS hi
  rw [Nat.add_one_mul] at hnext
  have hlow : lowByte source N BITS i = symbol source (16 + i * BITS / 8) := by
    have hmask : i * BITS / 8 < (N * BITS + 7) / 8 := by omega
    rw [lowByte, masked, if_pos (by simp [hi, hmask])]
  have hhigh : 8 ≤ i * BITS % 8 + s →
      highByte source N BITS i = symbol source (16 + (i * BITS / 8 + 1)) := by
    intro hge
    have hreach : 8 < i * BITS % 8 + BITS := by omega
    have hmask : i * BITS / 8 + 1 < (N * BITS + 7) / 8 := by omega
    rw [highByte, masked, if_pos (by simp [hi, hreach, hmask]), Nat.add_assoc]
  have hshift : (highByte source N BITS i <<< 8) % 2 ^ 32 = highByte source N BITS i <<< 8 := by
    have hlt : highByte source N BITS i < 2 ^ 8 := masked_lt hbytes _ _
    rw [Nat.shiftLeft_eq]
    exact Nat.mod_eq_of_lt (by omega)
  rw [unpacked, hlow, hshift, Nat.testBit_and, Nat.one_shiftLeft, Nat.testBit_two_pow_sub_one,
    decide_eq_true hs, Bool.and_true]
  exact testBit_window (fun b => symbol_lt hbytes (16 + b)) hBITS hs hhigh

end Unpack

theorem unpacked_lt : unpacked source N BITS i < 2 ^ BITS := by
  rw [unpacked, Nat.one_shiftLeft, Nat.and_two_pow_sub_one_eq_mod]
  exact Nat.mod_lt _ (Nat.two_pow_pos BITS)

/-! ### Programs -/

/-- The lanes of all programs, of which the first `n` store something. -/
theorem flatMap_lanes {α : Type} (f : Nat → α) (n : Nat) :
    ((List.range (grid n)).flatMap fun program => (List.range 1024).flatMap fun lane =>
      if program * 1024 + lane < n then [f (program * 1024 + lane)] else []) =
      (List.range n).map f := by
  have hgrid : n ≤ grid n * 1024 := by
    rw [grid]
    omega
  have hflat : ((List.range (grid n)).flatMap fun program => (List.range 1024).flatMap fun lane =>
      if program * 1024 + lane < n then [f (program * 1024 + lane)] else []) =
      (List.range (grid n * 1024)).flatMap fun i => if i < n then [f i] else [] := by
    rw [← List.map_id (List.range (grid n * 1024)), ← flatMap_range_mul id, List.flatMap_assoc]
    simp only [List.flatMap_map, id]
  obtain ⟨k, hk⟩ := Nat.exists_eq_add_of_le hgrid
  have hstored : ((List.range n).flatMap fun i => if i < n then [f i] else []) =
      (List.range n).map f := by
    rw [List.map_eq_flatMap]
    refine List.flatMap_congr fun i hi => ?_
    rw [if_pos (List.mem_range.mp hi)]
  have hmasked : (((List.range k).map (n + ·)).flatMap fun i => if i < n then [f i] else []) = [] := by
    rw [List.flatMap_eq_nil_iff]
    intro i hi
    obtain ⟨j, -, rfl⟩ := List.mem_map.mp hi
    rw [if_neg (Nat.not_lt.mpr (Nat.le_add_right n j))]
  rw [hflat, hk, List.range_add, List.flatMap_append, hstored, hmasked, List.append_nil]

/-- What program 0 stores besides. -/
def headerStores (N BITS : Nat) : List (Nat × UInt8) :=
  (List.range 16).map fun h => (h, UInt8.ofNat (header N BITS h))

/-- What the lanes of `_pack` store. -/
def payloadStores (source : List UInt8) (N BITS : Nat) : List (Nat × UInt8) :=
  (List.range (payloadBytes N BITS)).map fun byte =>
    (16 + byte, UInt8.ofNat (packed source N BITS byte))

theorem pack_eq (hN : N = source.length) (h : ∀ v ∈ source, v.toNat < 2 ^ BITS) (program : Nat) :
    pack source N BITS 1024 program = .ok (((List.range 1024).flatMap fun lane =>
        if program * 1024 + lane < payloadBytes N BITS then
          [(16 + (program * 1024 + lane), UInt8.ofNat (packed source N BITS (program * 1024 + lane)))]
        else []) ++ if program = 0 then headerStores N BITS else []) := by
  rw [pack, mapM_eq_ok_map fun lane _ => packLane_eq hN h]
  rfl

/-- **The stores of `encode`**, in some order. -/
theorem exists_encodeStores (h : ∀ v ∈ source, v.toNat < 2 ^ BITS) :
    ∃ stores, encodeStores BITS source = .ok stores ∧
      stores.Perm (payloadStores source source.length BITS ++ headerStores source.length BITS) := by
  have hprograms := @mapM_eq_ok_map _ _ _ _ _ (List.range (grid (payloadBytes source.length BITS)))
    fun program _ => pack_eq rfl h program
  refine ⟨_, by rw [encodeStores, launch, hprograms]; rfl, ?_⟩
  rw [← List.flatMap_def]
  refine (List.flatMap_append_perm _ _ _).symm.trans ?_
  have hheader : ((List.range (grid (payloadBytes source.length BITS))).flatMap fun program =>
      if program = 0 then headerStores source.length BITS else []) =
      headerStores source.length BITS := by
    obtain ⟨k, hk⟩ : ∃ k, grid (payloadBytes source.length BITS) = k + 1 :=
      Nat.exists_eq_succ_of_ne_zero (by rw [grid]; omega)
    rw [hk, List.range_succ_eq_map, List.flatMap_cons, if_pos rfl, List.flatMap_map]
    simp
  rw [hheader, flatMap_lanes fun byte => (16 + byte, UInt8.ofNat (packed source _ BITS byte))]
  exact List.Perm.refl _

/-- **Every address of the payload** is stored to once. -/
theorem addresses_perm {stores : List (Nat × UInt8)}
    (h : stores.Perm (payloadStores source N BITS ++ headerStores N BITS)) :
    (stores.map Prod.fst).Perm (List.range (16 + payloadBytes N BITS)) := by
  refine (h.map Prod.fst).trans ?_
  rw [List.map_append, List.range_add, payloadStores, headerStores, List.map_map, List.map_map]
  have hheader : (List.range 16).map (Prod.fst ∘ fun h => (h, UInt8.ofNat (header N BITS h))) =
      List.range 16 := List.map_id _
  rw [hheader]
  exact List.perm_append_comm


/-! ### Payloads -/

/-- The payload of a sequence of symbols. -/
structure PayloadOf (source : List UInt8) (BITS : Nat) (payload : List UInt8) : Prop where
  length : payload.length = 16 + payloadBytes source.length BITS
  header : ∀ h < 16, symbol payload h = header source.length BITS h
  body : ∀ byte < payloadBytes source.length BITS, ∀ s < 8,
    (symbol payload (16 + byte)).testBit s = bit BITS (symbol source) (byte * 8 + s)

theorem header_lt (hBITS : BITS ≤ 8) (h : Nat) : header N BITS h < 256 := by
  have hmask : ∀ x : Nat, x &&& 255 < 256 := fun x => Nat.lt_succ_of_le Nat.and_le_right
  unfold header
  split
  · exact hmask _
  · split
    · omega
    · split
      · exact hmask _
      · omega

theorem symbol_map_range (m : Mem) {n a : Nat} (ha : a < n) :
    symbol ((List.range n).map m) a = (m a).toNat := by
  rw [symbol, List.getD_eq_getElem _ _ (by simpa using ha), List.getElem_map, List.getElem_range]

/-- **What `encode` has stored** is the payload of its symbols. -/
theorem payloadOf_stores (h : ∀ v ∈ source, v.toNat < 2 ^ BITS) (hBITS : 0 < BITS ∧ BITS ≤ 8)
    (empty : Mem) {stores : List (Nat × UInt8)}
    (hstores : stores.Perm (payloadStores source source.length BITS ++
      headerStores source.length BITS)) :
    PayloadOf source BITS
      ((List.range (16 + payloadBytes source.length BITS)).map (empty.store stores)) := by
  have hnodup : (stores.map Prod.fst).Nodup :=
    (addresses_perm hstores).nodup_iff.mpr List.nodup_range
  have hat : ∀ w ∈ payloadStores source source.length BITS ++ headerStores source.length BITS,
      empty.store stores w.1 = w.2 := fun w hw =>
    Mem.store_of_mem hnodup (hstores.mem_iff.mpr hw)
  refine ⟨by simp, fun k hk => ?_, fun byte hbyte s hs => ?_⟩
  · have hmem : (k, UInt8.ofNat (BitPack.header source.length BITS k)) ∈
        headerStores source.length BITS :=
      List.mem_map.mpr ⟨k, List.mem_range.mpr hk, rfl⟩
    rw [symbol_map_range _ (by omega), hat _ (List.mem_append_right _ hmem), UInt8.toNat_ofNat',
      Nat.mod_eq_of_lt (header_lt hBITS.2 k)]
  · have hmem : (16 + byte, UInt8.ofNat (packed source source.length BITS byte)) ∈
        payloadStores source source.length BITS :=
      List.mem_map.mpr ⟨byte, List.mem_range.mpr hbyte, rfl⟩
    rw [symbol_map_range _ (by omega), hat _ (List.mem_append_left _ hmem), UInt8.toNat_ofNat',
      Nat.testBit_mod_two_pow (j := 8), decide_eq_true hs, Bool.true_and,
      testBit_packed rfl h hBITS.1 hbyte hs]

namespace PayloadOf

variable {payload source' : List UInt8} {BITS' : Nat}

/-- **A symbol that is cut out** of the payload is the one that was put in. -/
theorem unpacked_eq (hp : PayloadOf source BITS payload) (h : ∀ v ∈ source, v.toNat < 2 ^ BITS)
    (hBITS : BITS ≤ 8) (hi : i < source.length) :
    unpacked payload source.length BITS i = symbol source i := by
  refine eq_of_bits unpacked_lt (symbol_lt h i) fun s hs => ?_
  have hnext : (i + 1) * BITS ≤ source.length * BITS := Nat.mul_le_mul_right BITS hi
  rw [Nat.add_one_mul] at hnext
  rw [testBit_unpacked hBITS hi hs, ← bit_mul_add hs i]
  have hbyte : (i * BITS + s) / 8 < payloadBytes source.length BITS := by
    rw [payloadBytes]
    omega
  rw [bit, hp.body _ hbyte _ (Nat.mod_lt _ (by omega)), Nat.div_add_mod']

/-- The symbols, by the payload alone. -/
theorem bytes_eq (hp : PayloadOf source BITS payload) (h : ∀ v ∈ source, v.toNat < 2 ^ BITS)
    (hBITS : BITS ≤ 8) : source =
      (List.range source.length).map fun i => UInt8.ofNat (unpacked payload source.length BITS i) := by
  apply List.ext_getElem
  · simp
  · intro i hi _
    rw [List.getElem_map, List.getElem_range, hp.unpacked_eq h hBITS hi, symbol,
      List.getD_eq_getElem _ _ hi, UInt8.ofNat_toNat]

/-- The number of symbols, as far as the header has it. -/
theorem count_mod (hp : PayloadOf source BITS payload) (hp' : PayloadOf source' BITS' payload) :
    source.length % 2 ^ 64 = source'.length % 2 ^ 64 := by
  have hlt : ∀ n : Nat, n % 2 ^ 64 < 2 ^ 64 := fun n => Nat.mod_lt _ (Nat.two_pow_pos 64)
  refine eq_of_bits (hlt _) (hlt _) fun s hs => ?_
  have hbyte : 8 + s / 8 < 16 := by omega
  have hheader : ∀ n b, (BitPack.header n b (8 + s / 8)).testBit (s % 8) = (n % 2 ^ 64).testBit s := by
    intro n b
    have hmod : (8 + s / 8) % 8 * 8 = s / 8 * 8 := by omega
    have hsum : s / 8 * 8 + s % 8 = s := Nat.div_add_mod' s 8
    have hbit : (255 : Nat).testBit (s % 8) = true := by
      rw [show (255 : Nat) = 2 ^ 8 - 1 from rfl, Nat.testBit_two_pow_sub_one]
      simp [Nat.mod_lt]
    rw [BitPack.header, if_neg (by omega), if_neg (by omega), if_pos (by omega), Nat.testBit_and,
      Nat.testBit_shiftRight, hmod, hsum, hbit, Bool.and_true]
  have heq := (hp.header _ hbyte).symm.trans (hp'.header _ hbyte)
  rw [← hheader _ BITS, ← hheader _ BITS', heq]

/-- **A payload has one width and one sequence of symbols.** -/
theorem unique (hp : PayloadOf source BITS payload) (h : ∀ v ∈ source, v.toNat < 2 ^ BITS)
    (hBITS : 0 < BITS ∧ BITS ≤ 8) (hp' : PayloadOf source' BITS' payload)
    (h' : ∀ v ∈ source', v.toNat < 2 ^ BITS') : BITS' = BITS ∧ source' = source := by
  have hwidth : BITS' = BITS := (hp'.header 4 (by omega)).symm.trans (hp.header 4 (by omega))
  subst hwidth
  have hlength := hp.length.symm.trans hp'.length
  simp only [payloadBytes] at hlength
  have hmod := hp.count_mod hp'
  -- eight symbols more have at least a byte more
  have hnear : ∀ n m : Nat, (n * BITS' + 7) / 8 = (m * BITS' + 7) / 8 → m < n + 8 := by
    intro n m heq
    by_contra hge
    have hle : (n + 8) * BITS' ≤ m * BITS' := Nat.mul_le_mul_right BITS' (Nat.not_lt.mp hge)
    rw [Nat.add_mul] at hle
    omega
  have hcount : source'.length = source.length := by
    have hlt := hnear source.length source'.length (by omega)
    have hgt := hnear source'.length source.length (by omega)
    omega
  refine ⟨rfl, ?_⟩
  rw [hp.bytes_eq h hBITS.2, hp'.bytes_eq h' hBITS.2, hcount]

/-- The header of a payload passes. -/
theorem checkHeader_eq (hp : PayloadOf source BITS payload) (hs : List Nat) (h : ∀ k ∈ hs, k < 16) :
    checkHeader payload source.length BITS hs = .ok () := by
  induction hs with
  | nil => rfl
  | cons k hs ih =>
      have hk := h k List.mem_cons_self
      have hload : load payload k true = .ok (symbol payload k) := load_eq fun _ => by
        rw [hp.length]
        omega
      rw [checkHeader]
      simp only [hload, bind, Except.bind, deviceAssert, hp.header k hk, decide_true, if_true]
      exact ih fun k' hk' => h k' (List.mem_cons_of_mem k hk')

/-- **The stores of `decode`**: the symbols, each at its place. -/
theorem decodeStores_eq (hp : PayloadOf source BITS payload)
    (h : ∀ v ∈ source, v.toNat < 2 ^ BITS) (hBITS : BITS ≤ 8) :
    decodeStores BITS source.length payload =
      .ok ((List.range source.length).map fun i => (i, source.getD i 0)) := by
  have hlanes : ∀ program, unpack payload source.length BITS 1024 program =
      .ok ((List.range 1024).flatMap fun lane => if program * 1024 + lane < source.length then
        [(program * 1024 + lane,
          UInt8.ofNat (unpacked payload source.length BITS (program * 1024 + lane)))] else []) := by
    intro program
    have hmap := mapM_eq_ok_map (l := List.range 1024) fun lane _ =>
      @unpackLane_eq payload source.length BITS (program * 1024 + lane) hp.length
    have hcheck := hp.checkHeader_eq (List.range 16) fun k hk => List.mem_range.mp hk
    rw [unpack, hcheck, hmap]
    split <;> rfl
  rw [decodeStores, launch, mapM_eq_ok_map fun program _ => hlanes program]
  refine congrArg Except.ok ?_
  rw [← List.flatMap_def,
    flatMap_lanes fun i => (i, UInt8.ofNat (unpacked payload source.length BITS i))]
  refine List.map_congr_left fun i hi => ?_
  rw [hp.unpacked_eq h hBITS (List.mem_range.mp hi), symbol, UInt8.ofNat_toNat]

end PayloadOf

end BitPack

/-! ### The codec -/

namespace BitPackCodec

open BitPack

variable {D S : Type} [DecidableEq D] {dt : DTypes D} {c c' : BitPackCodec}
  {bitpackBits bitpackBits' : Option (Meta dt S)} {tensor tensor' : Tensor dt}
  {device device' : Device} {bits bits' : Nat} {payload : List UInt8}

/-- What `encode` takes: symbols of the width, on a CUDA device. -/
structure Takes (c : BitPackCodec) (bitpackBits : Option (Meta dt S)) (tensor : Tensor dt)
    (device : Device) (bits : Nat) : Prop where
  width : c.width bitpackBits = .ok bits
  uint8 : tensor.dtype = dt.uint8
  cuda : device.type = "cuda"
  symbols : ∀ v ∈ tensor.bytes, v.toNat < 2 ^ bits

omit [DecidableEq D] in
theorem width_bounds (h : c.width bitpackBits = .ok bits) : 0 < bits ∧ bits ≤ 8 := by
  unfold width at h
  split at h
  · obtain rfl := Except.ok.inj h
    exact ⟨c.lower, c.upper⟩
  · split at h
    · obtain rfl := Except.ok.inj h
      omega
    · cases h
  · cases h

theorem checkTensor_eq (huint8 : tensor.dtype = dt.uint8) (hcuda : device.type = "cuda") :
    checkTensor tensor device = .ok () := by
  rw [checkTensor, if_neg (not_not_intro huint8), if_neg (not_not_intro hcuda)]

/-- `encode` returns the payload of its symbols. -/
theorem encode_payloadOf (h : c.Takes bitpackBits tensor device bits) {empty : Mem}
    (hencode : c.encode bitpackBits tensor device empty = .ok payload) :
    PayloadOf tensor.bytes bits payload := by
  obtain ⟨stores, hstores, hperm⟩ := exists_encodeStores h.symbols
  rw [encode] at hencode
  simp only [h.width, checkTensor_eq h.uint8 h.cuda, hstores, bind, Except.bind] at hencode
  obtain rfl := Except.ok.inj hencode
  exact payloadOf_stores h.symbols (width_bounds h.width) empty hperm

/-- The symbols are stored back. -/
theorem store_symbols (empty : Mem) (source : List UInt8) :
    (List.range source.length).map
      (empty.store ((List.range source.length).map fun i => (i, source.getD i 0))) = source := by
  apply List.ext_getElem
  · simp
  · intro i hi _
    have hi : i < source.length := by simpa using hi
    have hnodup : (((List.range source.length).map fun i => (i, source.getD i 0)).map
        Prod.fst).Nodup := by
      rw [List.map_map]
      exact (List.map_id _).symm ▸ List.nodup_range
    have hmem : (i, source.getD i 0) ∈ (List.range source.length).map fun i => (i, source.getD i 0) :=
      List.mem_map.mpr ⟨i, List.mem_range.mpr hi, rfl⟩
    rw [List.getElem_map, List.getElem_range, Mem.store_of_mem hnodup hmem,
      List.getD_eq_getElem _ _ hi]

/-- **Decoding** a payload with the shape of its symbols. -/
theorem decode_payloadOf (hp : PayloadOf tensor.bytes bits payload)
    (h : c.Takes bitpackBits tensor device bits) (hwidth : c'.width bitpackBits' = .ok bits)
    (hcuda : device'.type = "cuda") (hindex : device'.index = none ∨ device'.index = device.index)
    (empty : Mem) : c'.decode bitpackBits' (.ofU8 payload : Tensor dt) device "uint8"
      (tensor.shape.map Int.ofNat) device' empty = .ok tensor := by
  have hcount : ((tensor.shape.map Int.ofNat).map Int.toNat) = tensor.shape := by
    rw [List.map_map]
    exact List.map_id _
  have hlength : tensor.shape.prod = tensor.bytes.length := by
    rw [tensor.sized, h.uint8, dt.elementSize_uint8, Nat.mul_one]
  have hshape : (tensor.shape.map Int.ofNat).any (· < 0) = false := by
    rw [List.any_map, List.any_eq_false]
    intro n _
    simp
  have hdevice : ¬ (device'.type ≠ "cuda" ∨
      (device'.index ≠ none ∧ device'.index ≠ device.index)) := by
    rcases hindex with hindex | hindex <;> simp [hcuda, hindex]
  have hsize : ¬ (Tensor.ofU8 payload : Tensor dt).shape.prod ≠
      headerBytes + payloadBytes tensor.shape.prod bits := by
    rw [not_not, hlength]
    show [payload.length].prod = _
    rw [List.prod_singleton, hp.length]
    rfl
  have hcheck : checkTensor (.ofU8 payload : Tensor dt) device = .ok () := checkTensor_eq rfl h.cuda
  have hstores : decodeStores bits tensor.shape.prod (Tensor.ofU8 payload : Tensor dt).bytes =
      .ok ((List.range tensor.bytes.length).map fun i => (i, tensor.bytes.getD i 0)) := by
    rw [hlength]
    exact hp.decodeStores_eq h.symbols (width_bounds h.width).2
  rw [decode]
  simp only [hwidth, hcheck, hcount, bind, Except.bind]
  rw [if_neg (by decide), if_neg (by simp [hshape]), if_neg hdevice, if_neg hsize]
  simp only [hstores]
  refine congrArg Except.ok (Tensor.ext (t := ⟨_, _, _, _⟩) rfl h.uint8.symm ?_)
  show (List.range tensor.shape.prod).map _ = _
  rw [hlength]
  exact store_symbols empty tensor.bytes

/-- **A payload of any other length** is rejected. -/
theorem decode_rejects (hwidth : c.width bitpackBits = .ok bits) {data : Tensor dt}
    {originalDtype : String} {originalShape : List Int} {empty : Mem}
    (hlength : data.shape.prod ≠
      headerBytes + payloadBytes (originalShape.map Int.toNat).prod bits) :
    ∃ e, c.decode bitpackBits data device originalDtype originalShape device' empty = .error e := by
  rw [decode]
  simp only [hwidth, bind, Except.bind]
  cases checkTensor data device with
  | error e => exact ⟨e, rfl⟩
  | ok u =>
      dsimp only
      split
      · exact ⟨_, rfl⟩
      · split
        · exact ⟨_, rfl⟩
        · split <;> exact ⟨_, rfl⟩

/-- **The round trip**: every address of the payload is written once, with a byte of the bit stream
of the symbols; decoding gives them back; another width or other symbols have another payload; a
payload of any other length is rejected. -/
theorem encode_decode (h : c.Takes bitpackBits tensor device bits) (empty : Mem) :
    ∃ stores payload, encodeStores bits tensor.bytes = .ok stores ∧
      c.encode bitpackBits tensor device empty = .ok payload ∧
      payload.length = 16 + (tensor.bytes.length * bits + 7) / 8 ∧
      (∀ address, (stores.map Prod.fst).count address =
        if address < 16 + (tensor.bytes.length * bits + 7) / 8 then 1 else 0) ∧
      (∀ byte < (tensor.bytes.length * bits + 7) / 8, ∀ s < 8,
        (symbol payload (16 + byte)).testBit s =
          BitStream.bit bits (symbol tensor.bytes) (byte * 8 + s)) ∧
      (∀ (c' : BitPackCodec) (bitpackBits' : Option (Meta dt S)) (device' : Device) (empty' : Mem),
        c'.width bitpackBits' = .ok bits → device'.type = "cuda" →
        device'.index = none ∨ device'.index = device.index →
        c'.decode bitpackBits' (.ofU8 payload) device "uint8" (tensor.shape.map Int.ofNat) device'
          empty' = .ok tensor) ∧
      (∀ (c' : BitPackCodec) (bitpackBits' : Option (Meta dt S)) (tensor' : Tensor dt)
        (device' : Device) (bits' : Nat) (empty' : Mem),
        c'.Takes bitpackBits' tensor' device' bits' →
        c'.encode bitpackBits' tensor' device' empty' = .ok payload →
        bits' = bits ∧ tensor'.bytes = tensor.bytes) ∧
      ∀ (data : Tensor dt) (originalShape : List Int),
        data.shape.prod ≠ 16 + ((originalShape.map Int.toNat).prod * bits + 7) / 8 →
        ∀ (dataDevice device' : Device) (originalDtype : String) (empty' : Mem), ∃ e,
          c.decode bitpackBits data dataDevice originalDtype originalShape device' empty' =
            .error e := by
  obtain ⟨stores, hstores, hperm⟩ := exists_encodeStores h.symbols
  have hbounds := width_bounds h.width
  have hp := payloadOf_stores h.symbols hbounds empty hperm
  refine ⟨stores, _, hstores, ?_, hp.length, ?_, hp.body, ?_, ?_, ?_⟩
  · rw [encode]
    simp only [h.width, checkTensor_eq h.uint8 h.cuda, hstores, bind, Except.bind]
    rfl
  · intro address
    rw [(addresses_perm hperm).count_eq, List.nodup_range.count]
    simp only [List.mem_range, payloadBytes]
  · intro c' bitpackBits' device' empty' hwidth hcuda hindex
    exact decode_payloadOf hp h hwidth hcuda hindex empty'
  · intro c' bitpackBits' tensor' device' bits' empty' h' hencode'
    exact hp.unique h.symbols hbounds (encode_payloadOf h' hencode') h'.symbols
  · intro data originalShape hlength dataDevice device' originalDtype empty'
    exact decode_rejects h.width hlength

/-- Five symbols of three bits. -/
def fiveSymbols : Tensor DTypes.sample := .ofU8 [5, 1, 7, 0, 3]

/-- Fifteen bits of payload. -/
theorem encode_decode_fiveSymbols :
    ∃ payload, (BitPackCodec.mk 3).encode (none : Option (Meta DTypes.sample Unit)) fiveSymbols
        ⟨"cuda", some 0⟩ (fun _ => 255) = .ok payload ∧ payload.length = 18 ∧
      (BitPackCodec.mk 3).decode (none : Option (Meta DTypes.sample Unit)) (.ofU8 payload)
        ⟨"cuda", some 0⟩ "uint8" [5] ⟨"cuda", none⟩ (fun _ => 0) = .ok fiveSymbols := by
  obtain ⟨stores, payload, -, hencode, hlength, -, -, hdecode, -⟩ :=
    @encode_decode _ Unit _ DTypes.sample (BitPackCodec.mk 3) none fiveSymbols ⟨"cuda", some 0⟩ 3
      ⟨rfl, rfl, rfl, by decide +kernel⟩ fun _ => 255
  exact ⟨payload, hencode, hlength, hdecode _ none _ (fun _ => 0) rfl rfl (Or.inl rfl)⟩

end BitPackCodec

end KVServe.Compression

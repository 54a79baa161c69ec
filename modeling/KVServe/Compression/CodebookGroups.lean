import KVServe.Compression.CenteredCodebook
import KVServe.Lib.Blocks

/-!
# KVServe.Compression.CodebookGroups

Which metadata an element is dequantized with. `_quantize` is launched on tiles of tokens and
dimensions and `_dequantize` on a flat index; **both address the entry of the group** that the
element was reduced in, as long as a part has at most 2^31 elements. A lane behind them has a
negative index that its mask lets through.
-/

namespace KVServe.Compression.CenteredCodebook

variable {F : Type}

namespace Launch

variable {l : Launch F} {token head d : Nat}

/-- What the two launches have in common: a tile of the keys is a group of tokens, and a tile of
the values has all dimensions. -/
structure Tiled (l : Launch F) : Prop where
  blockT : 0 < l.BT
  blockD : 0 < l.BD
  dvdT : l.BT ∣ 2 ^ 31
  dvdD : l.D ≤ 2 ^ 31 → l.BD ∣ 2 ^ 31
  keys : l.CHANNEL = true → l.BT = l.GROUP ∧ l.NG = cdiv l.T l.GROUP
  values : l.CHANNEL = false → l.D ≤ l.BD

/-- The size of `mean` and of `scale`. -/
def metaSize (l : Launch F) : Nat := if l.CHANNEL then l.H * l.NG * l.D else l.H * l.T

/-! ### Places -/

theorem lt_cdiv {n b i : Nat} (hb : 0 < b) (hi : i < n) : i / b < cdiv n b := by
  rw [cdiv, Nat.div_lt_iff_lt_mul hb]
  have hle := Nat.lt_div_mul_add (a := n + b - 1) hb
  omega

/-- A block of the grid begins inside. -/
theorem mul_lt_of_lt_cdiv {n b p : Nat} (hb : 0 < b) (hp : p < cdiv n b) : p * b < n := by
  have hle := (Nat.le_div_iff_mul_le hb).mp hp
  rw [Nat.succ_mul] at hle
  omega

theorem cdiv_le {n b : Nat} (hb : 0 < b) : cdiv n b ≤ n := by
  cases n with
  | zero => exact (Nat.div_eq_of_lt (by omega)).le
  | succ n =>
      rw [cdiv, Nat.add_right_comm, Nat.add_sub_cancel, Nat.add_div_right n hb]
      exact Nat.succ_le_succ (Nat.div_le_self n b)

/-- The place of an element in a part. -/
def flat (l : Launch F) (token head d : Nat) : Nat := (token * l.H + head) * l.D + d

theorem flat_lt (htoken : token < l.T) (hhead : head < l.H) (hd : d < l.D) :
    l.flat token head d < l.N :=
  mul_add_lt (mul_add_lt htoken hhead) hd

/-- The place is taken apart again. -/
theorem flat_digits (hhead : head < l.H) (hd : d < l.D) :
    l.flat token head d % l.D = d ∧ l.flat token head d / l.D % l.H = head ∧
      l.flat token head d / (l.H * l.D) = token := by
  have hD := Nat.zero_lt_of_lt hd
  have hH := Nat.zero_lt_of_lt hhead
  have hdiv : ((token * l.H + head) * l.D + d) / l.D = token * l.H + head := by
    rw [Nat.mul_comm, Nat.mul_add_div hD, Nat.div_eq_of_lt hd, Nat.add_zero]
  refine ⟨?_, ?_, ?_⟩
  · rw [flat, Nat.mul_add_mod', Nat.mod_eq_of_lt hd]
  · rw [flat, hdiv, Nat.mul_add_mod', Nat.mod_eq_of_lt hhead]
  · rw [flat, Nat.mul_comm l.H, ← Nat.div_div_eq_div_mul, hdiv, Nat.mul_comm, Nat.mul_add_div hH,
      Nat.div_eq_of_lt hhead, Nat.add_zero]

/-- Every place has an element. -/
theorem exists_flat {i : Nat} (hi : i < l.N) :
    ∃ token < l.T, ∃ head < l.H, ∃ d < l.D, i = l.flat token head d := by
  rw [N] at hi
  have hD : 0 < l.D := Nat.pos_of_ne_zero fun h => by simp [h] at hi
  have hH : 0 < l.H := Nat.pos_of_ne_zero fun h => by simp [h] at hi
  refine ⟨i / l.D / l.H, ?_, i / l.D % l.H, Nat.mod_lt _ hH, i % l.D, Nat.mod_lt _ hD, ?_⟩
  · rw [Nat.div_lt_iff_lt_mul hH, Nat.div_lt_iff_lt_mul hD]
    exact hi
  · rw [flat, Nat.div_add_mod', Nat.div_add_mod']

/-- The place of an entry in the metadata. -/
def entryPlace (l : Launch F) (token head d : Nat) : Nat :=
  if l.CHANNEL then (head * l.NG + token / l.GROUP) * l.D + d else head * l.T + token

/-- There are no more entries than elements. -/
theorem Tiled.metaSize_le (h : l.Tiled) (hD : 0 < l.D) : l.metaSize ≤ l.N := by
  unfold metaSize N
  split
  · next hchannel =>
      obtain ⟨hgroup, hNG⟩ := h.keys hchannel
      have hle : l.NG ≤ l.T := by
        rw [hNG, ← hgroup]
        exact cdiv_le h.blockT
      rw [Nat.mul_comm l.T]
      exact Nat.mul_le_mul_right l.D (Nat.mul_le_mul_left l.H hle)
  · rw [Nat.mul_comm l.T]
    exact Nat.le_mul_of_pos_right _ hD

theorem entryPlace_lt (h : l.Tiled) (htoken : token < l.T) (hhead : head < l.H) (hd : d < l.D) :
    l.entryPlace token head d < l.metaSize := by
  unfold entryPlace metaSize
  split
  · next hchannel =>
      obtain ⟨hgroup, hNG⟩ := h.keys hchannel
      have hp : token / l.GROUP < l.NG := by
        rw [hNG, ← hgroup]
        exact lt_cdiv h.blockT htoken
      exact mul_add_lt (mul_add_lt hhead hp) hd
  · exact mul_add_lt hhead htoken

/-! ### Indices -/

theorem mem_programs {program : Nat × Nat × Nat} : program ∈ l.programs ↔
    program.1 < cdiv l.T l.BT ∧ program.2.1 < l.H ∧ program.2.2 < cdiv l.D l.BD := by
  obtain ⟨p, head, q⟩ := program
  simp [programs]

/-- A lane of a launch over at most 2^31 elements. -/
theorem index_natCast {n BLOCK program lane : Nat} (hn : n ≤ 2 ^ 31) (hdvd : BLOCK ∣ 2 ^ 31)
    (hprogram : program < cdiv n BLOCK) (hlane : lane < BLOCK) :
    index program BLOCK lane = ((program * BLOCK + lane : Nat) : Int) := by
  obtain ⟨c, hc⟩ := hdvd
  have hBLOCK := Nat.zero_lt_of_lt hlane
  have hstart := (mul_lt_of_lt_cdiv hBLOCK hprogram).trans_le hn
  rw [hc, Nat.mul_comm BLOCK] at hstart
  have hlt := mul_add_lt (Nat.lt_of_mul_lt_mul_right hstart) hlane
  rw [Nat.mul_comm c, ← hc] at hlt
  exact add32_mul32_natCast hlt

section Small

variable (h : l.Tiled) (hN : l.N ≤ 2 ^ 31)

include hN

theorem T_le (hH : 0 < l.H) (hD : 0 < l.D) : l.T ≤ 2 ^ 31 :=
  ((Nat.le_mul_of_pos_right l.T hH).trans (Nat.le_mul_of_pos_right _ hD)).trans hN

theorem D_le (hT : 0 < l.T) (hH : 0 < l.H) : l.D ≤ 2 ^ 31 :=
  (Nat.le_mul_of_pos_left l.D (Nat.mul_pos hT hH)).trans hN

/-- **The offset of an element** is its place. -/
theorem offset_natCast (htoken : token < l.T) (hhead : head < l.H) (hd : d < l.D) :
    l.offset token head d = (l.flat token head d : Nat) := by
  have hlt := (flat_lt htoken hhead hd).trans_le hN
  have hrow : token * l.H + head < 2 ^ 31 :=
    (Nat.le_mul_of_pos_right _ (Nat.zero_lt_of_lt hd)).trans_lt
      ((Nat.le_add_right _ d).trans_lt hlt)
  rw [offset, add32_mul32_natCast hrow, add32_mul32_natCast hlt, flat]

include h

/-- **The index of an entry** is its place. -/
theorem entry_natCast (htoken : token < l.T) (hhead : head < l.H) (hd : d < l.D) :
    (if l.CHANNEL then
      add32 (mul32 (add32 (mul32 head l.NG) ((token / l.GROUP : Nat) : Int)) l.D) d
    else add32 (mul32 head l.T) token) = ((l.entryPlace token head d : Nat) : Int) := by
  have hlt := ((entryPlace_lt h htoken hhead hd).trans_le
    (h.metaSize_le (Nat.zero_lt_of_lt hd))).trans_le hN
  unfold entryPlace at hlt ⊢
  split
  · next hchannel =>
      rw [if_pos hchannel] at hlt
      have hrow : head * l.NG + token / l.GROUP < 2 ^ 31 :=
        (Nat.le_mul_of_pos_right _ (Nat.zero_lt_of_lt hd)).trans_lt
          ((Nat.le_add_right _ d).trans_lt hlt)
      rw [add32_mul32_natCast hrow, add32_mul32_natCast hlt]
  · next hchannel =>
      rw [if_neg hchannel] at hlt
      exact add32_mul32_natCast hlt

theorem metaIndex_natCast (htoken : token < l.T) (hhead : head < l.H) (hd : d < l.D) :
    l.metaIndex (l.flat token head d : Nat) = ((l.entryPlace token head d : Nat) : Int) := by
  obtain ⟨hd', hhead', htoken'⟩ := @flat_digits F l token head d hhead hd
  rw [← entry_natCast h hN htoken hhead hd, metaIndex]
  simp only [← Int.ofNat_tdiv, ← Int.ofNat_tmod, hd', hhead', htoken']

variable {program : Nat × Nat × Nat}

/-- The tokens of a tile. -/
theorem tokenIndex (hprogram : program ∈ l.programs) {i : Nat} (hi : i < l.BT) :
    index program.1 l.BT i = ((program.1 * l.BT + i : Nat) : Int) := by
  obtain ⟨hp, hhead, hq⟩ := mem_programs.mp hprogram
  have hD := Nat.zero_lt_of_lt (mul_lt_of_lt_cdiv h.blockD hq)
  exact index_natCast (T_le hN (Nat.zero_lt_of_lt hhead) hD) h.dvdT hp hi

/-- The dimensions of a tile. -/
theorem dimIndex (hprogram : program ∈ l.programs) {j : Nat} (hj : j < l.BD) :
    index program.2.2 l.BD j = ((program.2.2 * l.BD + j : Nat) : Int) := by
  obtain ⟨hp, hhead, hq⟩ := mem_programs.mp hprogram
  have hT := Nat.zero_lt_of_lt (mul_lt_of_lt_cdiv h.blockT hp)
  have hD := D_le hN hT (Nat.zero_lt_of_lt hhead)
  exact index_natCast hD (h.dvdD hD) hq hj

end Small

/-- The program of the tile of an element. -/
theorem Tiled.program_mem (h : l.Tiled) (htoken : token < l.T) (hhead : head < l.H) (hd : d < l.D) :
    (token / l.BT, head, d / l.BD) ∈ l.programs :=
  mem_programs.mpr ⟨lt_cdiv h.blockT htoken, hhead, lt_cdiv h.blockD hd⟩

/-- The values have one tile of dimensions. -/
theorem Tiled.tile_eq_zero (h : l.Tiled) (hchannel : l.CHANNEL = false) {q : Nat}
    (hq : q < cdiv l.D l.BD) : q = 0 := by
  have hle := h.values hchannel
  have hone : cdiv l.D l.BD ≤ 1 := by
    rw [cdiv, Nat.div_le_iff_le_mul_add_pred h.blockD]
    omega
  omega

/-! ### Lanes -/

/-- No lane has an index from 2^31 on. -/
theorem lane_lt {i : Int} (hi : i ∈ l.lanes) : i < 2 ^ 31 := by
  obtain ⟨program, -, hi⟩ := List.mem_flatMap.mp hi
  obtain ⟨lane, -, rfl⟩ := List.mem_map.mp hi
  rw [index, add32]
  exact int32_lt _

theorem exists_lane (hN : l.N ≤ 2 ^ 31) {i : Int} (hi : i ∈ l.lanes) : ∃ n : Nat, i = n := by
  obtain ⟨program, hprogram, hi⟩ := List.mem_flatMap.mp hi
  obtain ⟨lane, hlane, rfl⟩ := List.mem_map.mp hi
  exact ⟨_, index_natCast hN ⟨2 ^ 21, rfl⟩ (List.mem_range.mp hprogram)
    (List.mem_range.mp hlane)⟩

/-- Every place has a lane. -/
theorem mem_lanes (hN : l.N ≤ 2 ^ 31) {n : Nat} (hn : n < l.N) : (n : Int) ∈ l.lanes := by
  have hprogram : n / 1024 < cdiv l.N 1024 := lt_cdiv (by decide) hn
  have hlane : n % 1024 < 1024 := Nat.mod_lt n (by decide)
  refine List.mem_flatMap.mpr ⟨n / 1024, List.mem_range.mpr hprogram,
    List.mem_map.mpr ⟨n % 1024, List.mem_range.mpr hlane, ?_⟩⟩
  rw [index_natCast hN ⟨2 ^ 21, rfl⟩ hprogram hlane, Nat.div_add_mod']

section Groups

variable [Field F] [LinearOrder F] {X : Int → F} {Q : Int → Nat} {M : Int → F × F}

/-! ### Groups -/

/-- An element of a tile that may reach over the end. -/
def cell (l : Launch F) (X : Int → F) (token head d : Nat) : F × Bool :=
  if token < l.T ∧ d < l.D then (X (l.flat token head d), true) else (0, false)

/-- The elements that are reduced together with an element. -/
def group (l : Launch F) (X : Int → F) (token head d : Nat) : List (F × Bool) :=
  if l.CHANNEL then
    (List.range l.GROUP).map fun lane => l.cell X (token / l.GROUP * l.GROUP + lane) head d
  else (List.range l.BD).map fun lane => l.cell X token head lane

/-- How many of them there are. -/
def groupCount (l : Launch F) (token : Nat) : Nat :=
  if l.CHANNEL then min l.GROUP (l.T - token / l.GROUP * l.GROUP) else l.D

/-- The metadata of an element: the mean and the scale of its group. -/
def groupStats (l : Launch F) (X : Int → F) (token head d : Nat) : F × F :=
  l.stats (l.group X token head d) (l.groupCount token)

omit [LinearOrder F] in
/-- An element is in its group. -/
theorem mem_group (h : l.Tiled) (htoken : token < l.T) (hd : d < l.D) :
    (X (l.flat token head d), true) ∈ l.group X token head d := by
  have hcell : l.cell X token head d = (X (l.flat token head d), true) := if_pos ⟨htoken, hd⟩
  unfold group
  split
  · next hchannel =>
      have hgroup : 0 < l.GROUP := (h.keys hchannel).1 ▸ h.blockT
      refine List.mem_map.mpr ⟨token % l.GROUP, List.mem_range.mpr (Nat.mod_lt _ hgroup), ?_⟩
      rw [Nat.div_add_mod', hcell]
  · next hchannel =>
      have hvalues := h.values (Bool.eq_false_iff.mpr hchannel)
      exact List.mem_map.mpr ⟨d, List.mem_range.mpr (hd.trans_le hvalues), hcell⟩

section Small

variable (h : l.Tiled) (hN : l.N ≤ 2 ^ 31)

include hN

omit [LinearOrder F] in
theorem element_natCast (hhead : head < l.H) : l.element X head token d = l.cell X token head d := by
  unfold element cell
  simp only [Int.ofNat_lt]
  split
  · next hmask => rw [offset_natCast hN hmask.1 hhead hmask.2]
  · rfl

include h

/-- A tile of the keys. -/
theorem keyStats_eq {p : Nat} (hp : p < cdiv l.T l.BT) (hhead : head < l.H) (hD : 0 < l.D) :
    l.keyStats X p head d = l.stats ((List.range l.BT).map fun lane =>
      l.cell X (p * l.BT + lane) head d) ((min l.BT (l.T - p * l.BT) : Nat) : Int) := by
  have hT := T_le hN (Nat.zero_lt_of_lt hhead) hD
  have hstart := mul_lt_of_lt_cdiv h.blockT hp
  have hlanes : ((List.range l.BT).map fun lane => l.element X head (index p l.BT lane) d) =
      (List.range l.BT).map fun lane => l.cell X (p * l.BT + lane) head d := by
    refine List.map_congr_left fun lane hlane => ?_
    rw [index_natCast hT h.dvdT hp (List.mem_range.mp hlane), element_natCast hN hhead]
  have hcount : min (l.BT : Int) (l.T - mul32 p l.BT) = ((min l.BT (l.T - p * l.BT) : Nat) : Int) := by
    rw [mul32_natCast (hstart.trans_le hT)]
    omega
  rw [keyStats, hlanes, hcount]

/-- A row of the values. -/
theorem valueStats_eq (htoken : token < l.T) (hhead : head < l.H) (hD : 0 < l.D) : l.valueStats X 0 head token =
      l.stats ((List.range l.BD).map fun lane => l.cell X token head lane) l.D := by
  have hDle := D_le hN (Nat.zero_lt_of_lt htoken) (Nat.zero_lt_of_lt hhead)
  have hlanes : ((List.range l.BD).map fun lane => l.element X head token (index 0 l.BD lane)) =
      (List.range l.BD).map fun lane => l.cell X token head lane := by
    refine List.map_congr_left fun lane hlane => ?_
    have hzero : 0 < cdiv l.D l.BD := Nat.zero_lt_of_lt (lt_cdiv h.blockD hD)
    rw [index_natCast hDle (h.dvdD hDle) hzero (List.mem_range.mp hlane), Nat.zero_mul,
      Nat.zero_add, element_natCast hN hhead]
  rw [valueStats, hlanes]

theorem groupStats_keys (hchannel : l.CHANNEL = true) (htoken : token < l.T) (hhead : head < l.H)
    (hD : 0 < l.D) : l.groupStats X token head d = l.keyStats X (token / l.GROUP) head d := by
  have hgroup := (h.keys hchannel).1
  have hp : token / l.GROUP < cdiv l.T l.BT := hgroup ▸ lt_cdiv h.blockT htoken
  rw [keyStats_eq h hN hp hhead hD]
  simp only [groupStats, group, groupCount, hchannel, if_true, hgroup]

theorem groupStats_values (hchannel : l.CHANNEL = false) (htoken : token < l.T)
    (hhead : head < l.H) (hD : 0 < l.D) :
    l.groupStats X token head d = l.valueStats X 0 head token := by
  rw [valueStats_eq h hN htoken hhead hD]
  simp only [groupStats, group, groupCount, hchannel, Bool.false_eq_true, if_false]

/-- The tile of an element computes the metadata of its group. -/
theorem tileStats_eq {program : Nat × Nat × Nat} (hprogram : program ∈ l.programs)
    (htoken : token < l.T) (hd : d < l.D)
    (htile : l.CHANNEL = true → program.1 = token / l.GROUP) :
    l.tileStats X program token d = l.groupStats X token program.2.1 d := by
  obtain ⟨-, hhead, hq⟩ := mem_programs.mp hprogram
  have hD := Nat.zero_lt_of_lt hd
  unfold tileStats
  cases hchannel : l.CHANNEL with
  | true =>
      rw [groupStats_keys h hN hchannel htoken hhead hD, if_pos rfl, htile hchannel]
  | false =>
      rw [groupStats_values h hN hchannel htoken hhead hD, if_neg Bool.false_ne_true,
        h.tile_eq_zero hchannel hq]

/-! ### Metadata -/

/-- **The stores of the metadata**: the entry of a group, in its place. -/
theorem mem_metaStores {w : Int × (F × F)} (hw : w ∈ l.programs.flatMap (l.metaStores X)) :
    ∃ token < l.T, ∃ head < l.H, ∃ d < l.D,
      w = (((l.entryPlace token head d : Nat) : Int), l.groupStats X token head d) := by
  obtain ⟨program, hprogram, hw⟩ := List.mem_flatMap.mp hw
  obtain ⟨hp, hhead, hq⟩ := mem_programs.mp hprogram
  have hD := Nat.zero_lt_of_lt (mul_lt_of_lt_cdiv h.blockD hq)
  unfold metaStores at hw
  cases hchannel : l.CHANNEL with
  | true =>
      rw [if_pos hchannel] at hw
      obtain ⟨j, hj, hw⟩ := List.mem_flatMap.mp hw
      rw [dimIndex h hN hprogram (List.mem_range.mp hj)] at hw
      dsimp only at hw
      split at hw
      · next hd =>
          have hd := Int.ofNat_lt.mp hd
          obtain rfl := List.mem_singleton.mp hw
          -- the first token of the tile
          have hgroup := (h.keys hchannel).1
          have htoken := mul_lt_of_lt_cdiv h.blockT hp
          have htile : program.1 * l.BT / l.GROUP = program.1 := by
            rw [hgroup, Nat.mul_div_cancel _ (hgroup ▸ h.blockT)]
          refine ⟨program.1 * l.BT, htoken, program.2.1, hhead, _, hd, ?_⟩
          rw [← entry_natCast h hN htoken hhead hd, groupStats_keys h hN hchannel htoken hhead hD,
            htile, if_pos hchannel, tileStats, if_pos hchannel]
      · cases hw
  | false =>
      have hne : ¬ l.CHANNEL = true := by rw [hchannel]; exact Bool.false_ne_true
      rw [if_neg hne] at hw
      obtain ⟨i, hi, hw⟩ := List.mem_flatMap.mp hw
      rw [tokenIndex h hN hprogram (List.mem_range.mp hi)] at hw
      dsimp only at hw
      split at hw
      · next htoken =>
          have htoken := Int.ofNat_lt.mp htoken
          obtain rfl := List.mem_singleton.mp hw
          refine ⟨_, htoken, program.2.1, hhead, 0, hD, ?_⟩
          rw [← entry_natCast h hN htoken hhead hD,
            groupStats_values h hN hchannel htoken hhead hD, if_neg hne, tileStats, if_neg hne,
            h.tile_eq_zero hchannel hq]
      · cases hw

/-- An entry belongs to one group. -/
theorem groupStats_congr {token' head' d' : Nat} (htoken : token < l.T) (hhead : head < l.H)
    (hd : d < l.D) (htoken' : token' < l.T) (hd' : d' < l.D)
    (heq : l.entryPlace token' head' d' = l.entryPlace token head d) :
    l.groupStats X token' head' d' = l.groupStats X token head d := by
  have hD := Nat.zero_lt_of_lt hd
  unfold entryPlace at heq
  cases hchannel : l.CHANNEL with
  | true =>
      obtain ⟨hgroup, hNG⟩ := h.keys hchannel
      have htile : ∀ {t}, t < l.T → t / l.GROUP < l.NG := fun ht => by
        rw [hNG, ← hgroup]
        exact lt_cdiv h.blockT ht
      rw [if_pos hchannel, if_pos hchannel] at heq
      obtain ⟨hrow, rfl⟩ := mul_add_inj hd' hd heq
      obtain ⟨rfl, hp⟩ := mul_add_inj (htile htoken') (htile htoken) hrow
      rw [groupStats_keys h hN hchannel htoken hhead hD,
        groupStats_keys h hN hchannel htoken' hhead hD, hp]
  | false =>
      have hne : ¬ l.CHANNEL = true := by rw [hchannel]; exact Bool.false_ne_true
      rw [if_neg hne, if_neg hne] at heq
      obtain ⟨rfl, rfl⟩ := mul_add_inj htoken' htoken heq
      rw [groupStats_values h hN hchannel htoken hhead hD,
        groupStats_values h hN hchannel htoken hhead hD]

/-- Every entry is stored. -/
theorem exists_metaStore (htoken : token < l.T) (hhead : head < l.H) (hd : d < l.D) :
    ∃ w ∈ l.programs.flatMap (l.metaStores X), w.1 = ((l.entryPlace token head d : Nat) : Int) := by
  have hprogram := h.program_mem htoken hhead hd
  have hentry := entry_natCast h hN htoken hhead hd
  cases hchannel : l.CHANNEL with
  | true =>
      refine ⟨(((l.entryPlace token head d : Nat) : Int),
        l.tileStats X (token / l.BT, head, d / l.BD) 0 d),
        List.mem_flatMap.mpr ⟨_, hprogram, ?_⟩, rfl⟩
      rw [metaStores, if_pos hchannel]
      have hj : d % l.BD < l.BD := Nat.mod_lt _ h.blockD
      refine List.mem_flatMap.mpr ⟨d % l.BD, List.mem_range.mpr hj, ?_⟩
      rw [dimIndex h hN hprogram hj]
      simp only [Nat.div_add_mod', Int.ofNat_lt, if_pos hd, List.mem_singleton]
      rw [← hentry, if_pos hchannel, (h.keys hchannel).1]
  | false =>
      have hne : ¬ l.CHANNEL = true := by rw [hchannel]; exact Bool.false_ne_true
      refine ⟨(((l.entryPlace token head d : Nat) : Int),
        l.tileStats X (token / l.BT, head, d / l.BD) token 0),
        List.mem_flatMap.mpr ⟨_, hprogram, ?_⟩, rfl⟩
      rw [metaStores, if_neg hne]
      have hi : token % l.BT < l.BT := Nat.mod_lt _ h.blockT
      refine List.mem_flatMap.mpr ⟨token % l.BT, List.mem_range.mpr hi, ?_⟩
      rw [tokenIndex h hN hprogram hi]
      simp only [Nat.div_add_mod', Int.ofNat_lt, if_pos htoken, List.mem_singleton]
      rw [← hentry, if_neg hne]

/-- **The entry an element is dequantized with** is the one of its group. -/
theorem meta_stored (htoken : token < l.T) (hhead : head < l.H) (hd : d < l.D) :
    (l.quantize X Q M).2 (l.metaIndex (l.flat token head d)) = l.groupStats X token head d := by
  rw [metaIndex_natCast h hN htoken hhead hd]
  refine stored_eq (fun w hw haddress => ?_) (Or.inr (exists_metaStore h hN htoken hhead hd))
  obtain ⟨token', htoken', head', -, d', hd', rfl⟩ := mem_metaStores h hN hw
  exact groupStats_congr h hN htoken hhead hd htoken' hd' (Int.ofNat.inj haddress)

/-! ### Symbols -/

/-- **The symbol of an element**: its residual in its group, by the scale of its group. -/
theorem symbol_stored (htoken : token < l.T) (hhead : head < l.H) (hd : d < l.D) :
    (l.quantize X Q M).1 (l.flat token head d) =
      l.bin (l.groupStats X token head d).2
        (X (l.flat token head d) - (l.groupStats X token head d).1) := by
  have hcell : l.cell X token head d = (X (l.flat token head d), true) := if_pos ⟨htoken, hd⟩
  refine stored_eq (fun w hw haddress => ?_) (Or.inr ?_)
  · obtain ⟨program, hprogram, hw⟩ := List.mem_flatMap.mp hw
    obtain ⟨i, hi, hw⟩ := List.mem_flatMap.mp hw
    obtain ⟨j, hj, hw⟩ := List.mem_flatMap.mp hw
    have hi := List.mem_range.mp hi
    have hhead' := (mem_programs.mp hprogram).2.1
    rw [tokenIndex h hN hprogram hi, dimIndex h hN hprogram (List.mem_range.mp hj)] at hw
    simp only [Int.ofNat_lt] at hw
    split at hw
    · next hmask =>
        obtain rfl := List.mem_singleton.mp hw
        rw [offset_natCast hN hmask.1 hhead' hmask.2] at haddress
        have haddress := Int.ofNat.inj haddress
        obtain ⟨hrow, rfl⟩ := mul_add_inj hmask.2 hd haddress
        obtain ⟨rfl, rfl⟩ := mul_add_inj hhead' hhead hrow
        have htile : l.CHANNEL = true → program.1 = (program.1 * l.BT + i) / l.GROUP := by
          intro hchannel
          rw [← (h.keys hchannel).1, Nat.mul_comm, Nat.mul_add_div h.blockT, Nat.div_eq_of_lt hi,
            Nat.add_zero]
        simp only [tileStats_eq h hN hprogram htoken hd htile, element_natCast hN hhead, hcell,
          residual, if_true]
    · cases hw
  · have hprogram := h.program_mem htoken hhead hd
    have hi : token % l.BT < l.BT := Nat.mod_lt _ h.blockT
    have hj : d % l.BD < l.BD := Nat.mod_lt _ h.blockD
    let stats := l.tileStats X (token / l.BT, head, d / l.BD) token d
    refine ⟨(_, l.bin stats.2 (residual stats.1 (l.element X head token d))),
      List.mem_flatMap.mpr ⟨_, hprogram, List.mem_flatMap.mpr ⟨_, List.mem_range.mpr hi,
        List.mem_flatMap.mpr ⟨_, List.mem_range.mpr hj, ?_⟩⟩⟩, rfl⟩
    rw [tokenIndex h hN hprogram hi, dimIndex h hN hprogram hj]
    simp only [Nat.div_add_mod', Int.ofNat_lt, if_pos (And.intro htoken hd), List.mem_singleton]
    rw [offset_natCast hN htoken hhead hd]

end Small

theorem bin_lt (hbits : 1 ≤ l.BITS ∧ l.BITS ≤ 4) (hbounds : Ascending l.B (2 ^ l.BITS - 1))
    (scale residual : F) : l.bin scale residual < 2 ^ l.BITS :=
  bucketize_lt hbits hbounds

/-- **Every symbol** that is stored is one of the codebook. -/
theorem symbolStores_lt (hbits : 1 ≤ l.BITS ∧ l.BITS ≤ 4)
    (hbounds : Ascending l.B (2 ^ l.BITS - 1)) {w : Int × Nat}
    (hw : w ∈ l.programs.flatMap (l.symbolStores X)) : w.2 < 2 ^ l.BITS := by
  obtain ⟨program, -, hw⟩ := List.mem_flatMap.mp hw
  obtain ⟨i, -, hw⟩ := List.mem_flatMap.mp hw
  obtain ⟨j, -, hw⟩ := List.mem_flatMap.mp hw
  dsimp only at hw
  split at hw
  · rw [List.mem_singleton.mp hw]
    exact bin_lt hbits hbounds _ _
  · cases hw

/-! ### Soundness -/

/-- What an element is dequantized to. -/
def restored (l : Launch F) (X : Int → F) (i : Nat) : F :=
  let stats := l.groupStats X (i / (l.H * l.D)) (i / l.D % l.H) (i % l.D)
  l.C (l.bin stats.2 (X i - stats.1)) * stats.2 + stats.1

/-- **No lane finds an invalid symbol**, and every element is restored with the metadata of its
group. -/
theorem dequantize_quantize (h : l.Tiled) (hN : l.N ≤ 2 ^ 31) (hbits : 1 ≤ l.BITS ∧ l.BITS ≤ 4)
    (hbounds : Ascending l.B (2 ^ l.BITS - 1)) (Y : Int → F) :
    ∃ output, l.dequantize (l.quantize X Q M).1 (l.quantize X Q M).2 Y = .ok output ∧
      ∀ i < l.N, output i = l.restored X i := by
  have hlane : ∀ i ∈ l.lanes, l.dequantizeLane (l.quantize X Q M).1 (l.quantize X Q M).2 i =
      .ok (if i < l.N then [(i, l.restored X i.toNat)] else []) := by
    intro i hi
    obtain ⟨n, rfl⟩ := exists_lane hN hi
    simp only [dequantizeLane, Int.ofNat_lt, Int.toNat_natCast]
    split
    · next hn =>
        obtain ⟨token, htoken, head, hhead, d, hd, rfl⟩ := exists_flat hn
        obtain ⟨hd', hhead', htoken'⟩ := @flat_digits F l token head d hhead hd
        rw [symbol_stored h hN htoken hhead hd, meta_stored h hN htoken hhead hd,
          if_pos (bin_lt hbits hbounds _ _)]
        simp only [restored, hd', hhead', htoken']
    · rfl
  refine ⟨_, by rw [dequantize, mapM_eq_ok_map hlane]; rfl, fun i hi => ?_⟩
  refine stored_eq (fun w hw haddress => ?_) (Or.inr ?_)
  · obtain ⟨stores, hstores, hw⟩ := List.mem_flatten.mp hw
    obtain ⟨j, -, rfl⟩ := List.mem_map.mp hstores
    split at hw
    · obtain rfl := List.mem_singleton.mp hw
      obtain rfl : j = i := haddress
      rw [Int.toNat_natCast]
    · cases hw
  · refine ⟨(i, l.restored X i), List.mem_flatten.mpr ⟨[((i : Int), l.restored X i)],
      List.mem_map.mpr ⟨i, mem_lanes hN hi, ?_⟩, List.mem_singleton_self _⟩, rfl⟩
    rw [if_pos (Int.ofNat_lt.mpr hi), Int.toNat_natCast]

/-- **The metadata is sound**: no kernel is outside of it, and every element has a lane that reads
the entry that was stored for the group of the element. -/
structure MetaSound (l : Launch F) (size : Nat) (X : Int → F) (Q : Int → Nat) (M : Int → F × F) :
    Prop where
  stores : ∀ w ∈ l.programs.flatMap (l.metaStores X), 0 ≤ w.1 ∧ w.1 < size
  reads : ∀ i ∈ l.lanes, i < l.N → 0 ≤ l.metaIndex i ∧ l.metaIndex i < size
  entries : ∀ token < l.T, ∀ head < l.H, ∀ d < l.D, (l.flat token head d : Int) ∈ l.lanes ∧
    (l.quantize X Q M).2 (l.metaIndex (l.flat token head d)) = l.groupStats X token head d ∧
    (X (l.flat token head d), true) ∈ l.group X token head d

/-- **The metadata is sound up to 2^31 elements.** Behind them an element has no lane. -/
theorem metaSound_iff (h : l.Tiled) : l.MetaSound l.metaSize X Q M ↔ l.N ≤ 2 ^ 31 := by
  constructor
  · intro hsound
    by_contra hN
    obtain ⟨token, htoken, head, hhead, d, hd, heq⟩ := exists_flat (Nat.lt_of_not_le hN)
    have hlt := lane_lt (hsound.entries token htoken head hhead d hd).1
    rw [← heq] at hlt
    exact absurd hlt (by decide)
  · intro hN
    refine ⟨fun w hw => ?_, fun i hi hlt => ?_, fun token htoken head hhead d hd => ?_⟩
    · obtain ⟨token, htoken, head, hhead, d, hd, rfl⟩ := mem_metaStores h hN hw
      exact ⟨Int.natCast_nonneg _, Int.ofNat_lt.mpr (entryPlace_lt h htoken hhead hd)⟩
    · obtain ⟨n, rfl⟩ := exists_lane hN hi
      obtain ⟨token, htoken, head, hhead, d, hd, rfl⟩ := exists_flat (Int.ofNat_lt.mp hlt)
      rw [metaIndex_natCast h hN htoken hhead hd]
      exact ⟨Int.natCast_nonneg _, Int.ofNat_lt.mpr (entryPlace_lt h htoken hhead hd)⟩
    · exact ⟨mem_lanes hN (flat_lt htoken hhead hd), meta_stored h hN htoken hhead hd,
        mem_group h htoken hd⟩

end Groups

end Launch

/-! ### The launches of a part -/

section Parts

variable [Field F] [LinearOrder F] {rounding : Rounding F} {centers bounds : Nat → Nat → F}
  {cfg : Settings F} {shape : Shape} {part : Part}

/-- The bits of a part. -/
def Settings.bits (cfg : Settings F) : Part → Nat
  | .keys => cfg.keyBits.toNat
  | .values => cfg.valueBits.toNat

/-- What `_settings` lets through has one to four bits, and groups of a power of two. -/
theorem Settings.check_ok (h : cfg.check = .ok ()) :
    (0 < cfg.groupSize.toNat ∧ cfg.groupSize.toNat ∣ 2 ^ 31) ∧
      ∀ part, 1 ≤ cfg.bits part ∧ cfg.bits part ≤ 4 := by
  unfold Settings.check at h
  split at h
  · cases h
  · next hbits =>
      split at h
      · cases h
      · next hgroup =>
          have hgroup := not_not.mp hgroup
          simp only [List.mem_cons, List.not_mem_nil, or_false] at hgroup
          refine ⟨?_, fun part => ?_⟩
          · rcases hgroup with hgroup | hgroup | hgroup | hgroup | hgroup <;> rw [hgroup] <;> decide
          · cases part with
            | keys =>
                show 1 ≤ cfg.keyBits.toNat ∧ cfg.keyBits.toNat ≤ 4
                omega
            | values =>
                show 1 ≤ cfg.valueBits.toNat ∧ cfg.valueBits.toNat ≤ 4
                omega

omit [Field F] [LinearOrder F] in
theorem launch_bits : (launch rounding centers bounds cfg shape part).BITS = cfg.bits part := by
  cases part <;> rfl

omit [Field F] [LinearOrder F] in
/-- **The launches of a part** are tiled. -/
theorem launch_tiled (hgroup : 0 < cfg.groupSize.toNat ∧ cfg.groupSize.toNat ∣ 2 ^ 31) :
    (launch rounding centers bounds cfg shape part).Tiled := by
  cases part with
  | keys =>
      exact
        { blockT := hgroup.1
          blockD := Nat.succ_pos 31
          dvdT := hgroup.2
          dvdD := fun _ => by
            show 32 ∣ 2 ^ 31
            decide
          keys := fun _ => ⟨rfl, rfl⟩
          values := fun h => nomatch h }
  | values =>
      exact
        { blockT := Nat.succ_pos 15
          blockD := Nat.two_pow_pos _
          dvdT := by
            show 16 ∣ 2 ^ 31
            decide
          dvdD := fun h => Nat.pow_dvd_pow 2 ((Nat.clog_le_iff_le_pow (Nat.lt_succ_self 1)).mpr h)
          keys := fun h => nomatch h
          values := fun _ => Nat.le_pow_clog (Nat.lt_succ_self 1) shape.dim }

omit [Field F] [LinearOrder F] in
/-- The metadata has the allocated shape. -/
theorem launch_metaSize : (launch rounding centers bounds cfg shape part).metaSize =
    (metaShape cfg shape part).prod := by
  cases part with
  | keys => simp [launch, Launch.metaSize, metaShape, Nat.mul_assoc]
  | values => simp [launch, Launch.metaSize, metaShape]

/-- **A part is restored** from its symbols and its metadata. -/
theorem dequantizePart_quantizePart {l : Launch F}
    (hl : launch rounding centers bounds cfg shape part = l) (htiled : l.Tiled)
    (hN : shape.total * shape.heads * shape.dim ≤ 2 ^ 31) (hbits : 1 ≤ l.BITS ∧ l.BITS ≤ 4)
    (hbounds : Ascending l.B (2 ^ l.BITS - 1)) (X : Int → F) (Q : Int → Nat) (M : Int → F × F)
    (Y : Int → F) :
    ∃ output, dequantizePart l cfg shape part (quantizePart l cfg shape part X Q M).1
        (quantizePart l cfg shape part X Q M).2 Y = .ok output ∧
      ∀ i < shape.total * shape.heads * shape.dim, output i = l.restored X i := by
  have hsize : l.N = shape.total * shape.heads * shape.dim := by rw [← hl]; rfl
  unfold dequantizePart quantizePart
  by_cases hempty : shape.total * shape.heads = 0
  · simp [hempty]
  · simp only [if_neg hempty, ne_eq, not_true_eq_false, if_false]
    obtain ⟨output, houtput, hrestored⟩ := Launch.dequantize_quantize (X := X) (Q := Q) (M := M)
      htiled (hsize ▸ hN) hbits hbounds Y
    exact ⟨output, houtput, fun i hi => hrestored i (hsize ▸ hi)⟩

/-- **The centered codebook**: the search counts the thresholds below the value, and every symbol
is one of the codebook. No kernel is outside the metadata, and every element is dequantized with
the entry that was stored for the group it was reduced in, exactly if a part has at most 2^31
elements; then it is restored from its symbol and this entry. -/
theorem codebook_sound_iff (hcfg : cfg.check = .ok ())
    (hbounds : Ascending (bounds (cfg.bits part)) (2 ^ cfg.bits part - 1)) (X : Int → F)
    (Q : Int → Nat) (M : Int → F × F) :
    let l := launch rounding centers bounds cfg shape part
    let size := shape.total * shape.heads * shape.dim
    (∀ (bits : Nat) (thresholds : Nat → F) (x : F), 1 ≤ bits ∧ bits ≤ 4 →
      Ascending thresholds (2 ^ bits - 1) →
        bucketize x thresholds bits =
            ((List.range (2 ^ bits - 1)).countP fun i => thresholds i < x) ∧
          bucketize x thresholds bits < 2 ^ bits) ∧
      (∀ w ∈ l.programs.flatMap (l.symbolStores X), w.2 < 2 ^ cfg.bits part) ∧
      (l.MetaSound (metaShape cfg shape part).prod X Q M ↔ size ≤ 2 ^ 31) ∧
      (size ≤ 2 ^ 31 →
        (∀ token < shape.total, ∀ head < shape.heads, ∀ d < shape.dim,
          (l.quantize X Q M).1 (l.flat token head d) =
            l.bin (l.groupStats X token head d).2
              (X (l.flat token head d) - (l.groupStats X token head d).1)) ∧
        ∀ Y, ∃ output,
          dequantizePart l cfg shape part (quantizePart l cfg shape part X Q M).1
            (quantizePart l cfg shape part X Q M).2 Y = .ok output ∧
          ∀ i < size, output i = l.restored X i) := by
  intro l size
  obtain ⟨hgroup, hbits⟩ := Settings.check_ok hcfg
  have htiled : l.Tiled := launch_tiled hgroup
  have hsize : l.N = size := rfl
  have hBITS : l.BITS = cfg.bits part := launch_bits
  have hB : l.B = bounds (cfg.bits part) := by cases part <;> rfl
  have hbits : 1 ≤ l.BITS ∧ l.BITS ≤ 4 := hBITS ▸ hbits part
  rw [← hB, ← hBITS] at hbounds
  refine ⟨?_, ?_, ?_, fun hN => ⟨?_, dequantizePart_quantizePart rfl htiled hN hbits hbounds X Q M⟩⟩
  · intro bits thresholds x hbits hthresholds
    exact ⟨bucketize_eq hbits hthresholds, bucketize_lt hbits hthresholds⟩
  · intro w hw
    rw [← hBITS]
    exact Launch.symbolStores_lt hbits hbounds hw
  · have hmeta : l.metaSize = (metaShape cfg shape part).prod := launch_metaSize
    rw [← hmeta, ← hsize]
    exact Launch.metaSound_iff htiled
  · intro token htoken head hhead d hd
    exact Launch.symbol_stored htiled hN htoken hhead hd

/-- Groups of sixteen tokens and two centers. -/
def sixteens : Settings ℚ := { scaleAlpha := 1, groupSize := 16, keyBits := 1 }

/-- The launches for the integers as thresholds, without rounding. -/
def exactLaunch (shape : Shape) (part : Part) : Launch ℚ :=
  launch ⟨id, id, id, 1 / 100⟩ (fun _ q => (q : ℚ) - 1 / 2) (fun _ i => (i : ℚ)) sixteens shape part

/-- Two heads of three channels over forty tokens: three groups, the last one of eight tokens. The
last element has the last of 18 entries. -/
theorem codebook_sound_two_heads :
    let l := exactLaunch ⟨5, 8, 2, 3⟩ .keys
    let X : Int → ℚ := fun i => i
    l.metaSize = 18 ∧ l.metaIndex (l.flat 0 0 0) = 0 ∧ l.metaIndex (l.flat 16 1 0) = 12 ∧
      l.metaIndex (l.flat 39 1 2) = 17 ∧ l.groupCount 39 = 8 ∧
      l.MetaSound 18 X (fun _ => 0) fun _ => (0, 0) := by
  intro l X
  refine ⟨by decide, by decide, by decide, by decide, by decide, ?_⟩
  exact (@codebook_sound_iff ℚ _ _ ⟨id, id, id, 1 / 100⟩ (fun _ q => (q : ℚ) - 1 / 2)
    (fun _ i => (i : ℚ)) sixteens ⟨5, 8, 2, 3⟩ .keys (by decide +kernel)
    (fun i j hij _ => Nat.cast_le.mpr hij) X (fun _ => 0) fun _ => (0, 0)).2.2.1.mpr (by decide)

/-- **A part of 2^31 + 16384 elements**: the lane of the element 2^31 has the index -2^31, which
passes the mask, and reads the metadata two million entries before its first one. -/
theorem long_part_unsound :
    let l := exactLaunch ⟨131073, 16, 8, 128⟩ .keys
    sixteens.check = .ok () ∧ Launch.index (2 ^ 21) 1024 0 = -2 ^ 31 ∧
      Launch.index (2 ^ 21) 1024 0 < l.N ∧ l.metaIndex (Launch.index (2 ^ 21) 1024 0) < -2 ^ 20 ∧
      ∀ X Q M, ¬ l.MetaSound l.metaSize X Q M := by
  intro l
  have htiled : l.Tiled := launch_tiled (by decide)
  refine ⟨by decide +kernel, by decide, by decide, by decide, fun X Q M hsound => ?_⟩
  exact absurd ((Launch.metaSound_iff htiled).mp hsound) (by decide)

end Parts

end KVServe.Compression.CenteredCodebook

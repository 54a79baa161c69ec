import KVServe.Engine.Chunks
import KVServe.Lib.Blocks
import Mathlib.Algebra.BigOperators.Group.List.Basic
import Mathlib.Tactic.Linarith
import Mathlib.Tactic.Ring

/-!
# KVServe.Engine.Windows

The **chunk windows divide the transferred suffix**. Both peers cut the blocks behind a
prefix hit into windows and clamp the valid tokens to each of them. Every block is in one
window of each `kv_part`, and only the last block of the last window can be partial.
-/

namespace KVServe.Engine

open KVServe.Session

/-! ### Dictionaries built by a loop -/

/-- The entry of a key in a dictionary with one entry for each key of another one. -/
theorem lookup_mapM {f : Nat × Nat → Except String (Nat × Int)}
    (hkey : ∀ p r, f p = .ok r → r.1 = p.1) {l : List (Nat × Nat)} {out : TokenCounts}
    (h : l.mapM f = .ok out) (hnodup : (l.map Prod.fst).Nodup) {p : Nat × Nat} (hp : p ∈ l) :
    ∃ v, f p = .ok (p.1, v) ∧ out.lookup p.1 = some v := by
  induction mapM_eq_ok.mp h with
  | nil => exact absurd hp List.not_mem_nil
  | @cons q r l out hq hl ih =>
      obtain ⟨hnot, hnodup⟩ := List.nodup_cons.mp hnodup
      obtain ⟨key, v⟩ := r
      obtain rfl : key = q.1 := hkey q _ hq
      rcases List.mem_cons.mp hp with rfl | hp
      · exact ⟨v, hq, by rw [List.lookup_cons, beq_self_eq_true]⟩
      · obtain ⟨w, hw, hlookup⟩ := ih (mapM_eq_ok.mpr hl) hnodup hp
        have hne : (p.1 == q.1) = false := by
          rw [beq_eq_false_iff_ne]
          exact fun heq => hnot (heq ▸ List.mem_map_of_mem hp)
        exact ⟨w, hw, by rw [List.lookup_cons, hne]; exact hlookup⟩

/-! ### Windows -/

variable {n lbc c i kvPart : Nat}

theorem totalChunks_eq : compressionTotalChunks n lbc = 2 * ((n + lbc - 1) / lbc) :=
  Nat.mul_comm _ _

/-- The windows before the total start inside the blocks. -/
theorem lt_totalChunks_iff (hlbc : 1 ≤ lbc) :
    c < compressionTotalChunks n lbc ↔ c / 2 * lbc < n := by
  rw [totalChunks_eq]
  have hhalf : c < 2 * ((n + lbc - 1) / lbc) ↔ c / 2 + 1 ≤ (n + lbc - 1) / lbc := by omega
  rw [hhalf, Nat.le_div_iff_mul_le hlbc, Nat.succ_mul]
  omega

/-- A window is not empty and ends inside the blocks. -/
theorem window_bounds (hlbc : 1 ≤ lbc) (hc : c < compressionTotalChunks n lbc) :
    0 < (compressionChunkWindow c n lbc).count ∧
      ((compressionChunkWindow c n lbc).logicalStart : Int) +
        (compressionChunkWindow c n lbc).count ≤ n := by
  have hstart := (lt_totalChunks_iff hlbc).mp hc
  simp only [compressionChunkWindow]
  omega

/-- **Every block is in one window of each part.** -/
theorem existsUnique_window (hlbc : 1 ≤ lbc) (hi : i < n) (hpart : kvPart < 2) :
    ∃! c, c < compressionTotalChunks n lbc ∧ (compressionChunkWindow c n lbc).kvPart = kvPart ∧
      (compressionChunkWindow c n lbc).logicalStart ≤ i ∧
      (i : Int) < (compressionChunkWindow c n lbc).logicalStart +
        (compressionChunkWindow c n lbc).count := by
  have hdiv := Nat.div_add_mod i lbc
  have hmod := Nat.mod_lt i hlbc
  rw [Nat.mul_comm] at hdiv
  have hhalf : (2 * (i / lbc) + kvPart) / 2 = i / lbc := by omega
  refine ⟨2 * (i / lbc) + kvPart, ⟨?_, ?_, ?_, ?_⟩, ?_⟩
  · rw [lt_totalChunks_iff hlbc, hhalf]
    omega
  · simp only [compressionChunkWindow]
    omega
  · simp only [compressionChunkWindow, hhalf]
    omega
  · simp only [compressionChunkWindow, hhalf]
    omega
  · rintro c ⟨hc, hpart', hstart, hstop⟩
    simp only [compressionChunkWindow] at hpart' hstart hstop
    -- the window of a block is the quotient of its index
    have hquot : c / 2 = i / lbc := by
      refine (Nat.div_eq_of_lt_le hstart ?_).symm
      rw [Nat.succ_mul]
      omega
    omega

/-! ### Tokens -/

/-- The valid tokens of one group in a window. -/
def windowTokens (valid : Int) (blockSize : Nat) (window : ChunkWindow) : Int :=
  min (valid - (window.logicalStart : Int) * blockSize) (window.count * blockSize)

variable {numTokens blockSize : Nat} {valid : Int}

/-- `S` valid tokens fill all of `n` blocks but a part of the last one. -/
def FillsBlocks (n blockSize : Nat) (valid : Int) : Prop :=
  ((n : Int) - 1) * blockSize < valid ∧ valid ≤ (n : Int) * blockSize

/-- The suffix fills its blocks. -/
theorem suffix_fillsBlocks (hB : 1 ≤ blockSize) :
    FillsBlocks n blockSize
      ((numTokens : Int) - (((numTokens + blockSize - 1) / blockSize : Nat) - (n : Int)) * blockSize) := by
  have hle := Nat.div_mul_le_self (numTokens + blockSize - 1) blockSize
  have hlt := Nat.lt_div_mul_add (a := numTokens + blockSize - 1) hB
  generalize (numTokens + blockSize - 1) / blockSize = full at *
  have hcast : ((full * blockSize : Nat) : Int) = (full : Int) * blockSize := Nat.cast_mul _ _
  constructor
  · rw [sub_mul, sub_mul, one_mul]
    omega
  · rw [sub_mul]
    omega

/-- The window behind `start` blocks starts before the valid tokens end. -/
theorem FillsBlocks.lt {start : Nat} (h : FillsBlocks n blockSize valid) (hstart : start < n) :
    (start : Int) * blockSize < valid := by
  refine lt_of_le_of_lt (mul_le_mul_of_nonneg_right ?_ (Nat.cast_nonneg _)) h.1
  omega

theorem FillsBlocks.le_of_le {stop : Nat} (h : FillsBlocks n blockSize valid) (hstop : n ≤ stop) :
    valid ≤ (stop : Int) * blockSize :=
  h.2.trans (mul_le_mul_of_nonneg_right (by omega) (Nat.cast_nonneg _))

/-- In the last window all that is left is valid. -/
theorem windowTokens_last (h : FillsBlocks n blockSize valid)
    (hlast : (n : Int) - (c / 2 * lbc : Nat) ≤ lbc) :
    windowTokens valid blockSize (compressionChunkWindow c n lbc) =
      valid - ((c / 2 * lbc : Nat) : Int) * blockSize := by
  simp only [windowTokens, compressionChunkWindow]
  rw [min_eq_right hlast, min_eq_left]
  have := h.2
  rw [sub_mul]
  omega

/-- Every other window is full. -/
theorem windowTokens_full (h : FillsBlocks n blockSize valid)
    (hfull : (lbc : Int) < n - (c / 2 * lbc : Nat)) :
    windowTokens valid blockSize (compressionChunkWindow c n lbc) = lbc * blockSize ∧
      ((c / 2 * lbc : Nat) : Int) * blockSize + lbc * blockSize < valid := by
  have hlt : ((c / 2 * lbc : Nat) : Int) * blockSize + lbc * blockSize < valid := by
    refine lt_of_le_of_lt ?_ h.1
    rw [← add_mul]
    exact mul_le_mul_of_nonneg_right (by omega) (Nat.cast_nonneg _)
  refine ⟨?_, hlt⟩
  simp only [windowTokens, compressionChunkWindow]
  rw [min_eq_left hfull.le, min_eq_right]
  omega

/-- **A window has less than a block of unused tokens,** and none if blocks follow it. -/
theorem windowTokens_bounds (hlbc : 1 ≤ lbc) (hB : 1 ≤ blockSize)
    (hvalid : FillsBlocks n blockSize valid) :
    let window := compressionChunkWindow c n lbc
    (window.count - 1) * blockSize < windowTokens valid blockSize window ∧
      windowTokens valid blockSize window ≤ window.count * blockSize ∧
      (c + 2 < compressionTotalChunks n lbc →
        windowTokens valid blockSize window = window.count * blockSize) := by
  intro window
  obtain ⟨hlo, hhi⟩ := hvalid
  have hwindow : window.count = min (lbc : Int) (n - (c / 2 * lbc : Nat)) := rfl
  rcases le_or_gt ((n : Int) - (c / 2 * lbc : Nat)) lbc with hlast | hfull
  · rw [windowTokens_last ⟨hlo, hhi⟩ hlast, hwindow, min_eq_right hlast]
    rw [sub_mul, one_mul] at hlo
    refine ⟨?_, ?_, fun hnext => ?_⟩
    · rw [sub_mul, sub_mul, one_mul]
      omega
    · rw [sub_mul]
      omega
    · -- the window behind it would start inside the blocks
      have hstart := (lt_totalChunks_iff hlbc).mp hnext
      rw [show (c + 2) / 2 = c / 2 + 1 by omega, Nat.succ_mul] at hstart
      omega
  · rw [(windowTokens_full ⟨hlo, hhi⟩ hfull).1, hwindow, min_eq_left hfull.le]
    refine ⟨?_, le_refl _, fun _ => rfl⟩
    rw [sub_mul, one_mul]
    omega

/-- **The windows of a part have all tokens of the suffix.** -/
theorem sum_windowTokens (hlbc : 1 ≤ lbc) (hvalid : FillsBlocks n blockSize valid)
    (hpart : kvPart < 2) (hn : 0 < n) :
    (((List.range (compressionTotalChunks n lbc)).filter fun c =>
      (compressionChunkWindow c n lbc).kvPart = kvPart).map fun c =>
        windowTokens valid blockSize (compressionChunkWindow c n lbc)).sum = valid := by
  -- the first `m` windows have all tokens up to their end
  have hprefix : ∀ m ≤ (n + lbc - 1) / lbc,
      (((List.range (2 * m)).filter fun c =>
        (compressionChunkWindow c n lbc).kvPart = kvPart).map fun c =>
          windowTokens valid blockSize (compressionChunkWindow c n lbc)).sum =
        min valid (((m * lbc : Nat) : Int) * blockSize) := by
    intro m
    induction m with
    | zero =>
        intro _
        have := hvalid.lt hn
        simp only [Nat.mul_zero, List.range_zero, List.filter_nil, List.map_nil, List.sum_nil,
          Nat.cast_zero, zero_mul] at this ⊢
        omega
    | succ m ih =>
        intro hm
        have hhalf : (2 * m + kvPart) / 2 = m := by omega
        have hstart : m * lbc < n := by
          rw [← hhalf, ← lt_totalChunks_iff hlbc, totalChunks_eq]
          omega
        have hlast : ((List.range (2 * (m + 1))).filter fun c =>
            (compressionChunkWindow c n lbc).kvPart = kvPart) =
              ((List.range (2 * m)).filter fun c =>
                (compressionChunkWindow c n lbc).kvPart = kvPart) ++ [2 * m + kvPart] := by
          have hkey : 2 * m % 2 = 0 := by omega
          have hvalue : (2 * m + 1) % 2 = 1 := by omega
          rw [show 2 * (m + 1) = 2 * m + 1 + 1 by omega, List.range_succ, List.range_succ]
          obtain rfl | rfl : kvPart = 0 ∨ kvPart = 1 := by omega
          · simp [compressionChunkWindow, hkey, hvalue]
          · simp [compressionChunkWindow, hkey, hvalue]
        have hstop : (((m + 1) * lbc : Nat) : Int) * blockSize =
            ((m * lbc : Nat) : Int) * blockSize + lbc * blockSize := by
          rw [Nat.succ_mul, Nat.cast_add, add_mul]
        have hlt := hvalid.lt hstart
        rw [hlast, List.map_append, List.sum_append, ih (by omega), List.map_singleton,
          List.sum_singleton, min_eq_right hlt.le, hstop]
        rcases le_or_gt ((n : Int) - (m * lbc : Nat)) lbc with hend | hfull
        · rw [windowTokens_last hvalid (by rwa [hhalf]), hhalf, ← hstop,
            min_eq_left (hvalid.le_of_le (by rw [Nat.succ_mul]; omega))]
          omega
        · obtain ⟨htokens, hmore⟩ := @windowTokens_full n lbc (2 * m + kvPart) blockSize valid hvalid
            (by rwa [hhalf])
          rw [hhalf] at hmore
          rw [htokens, min_eq_right hmore.le]
  rw [totalChunks_eq, hprefix _ (le_refl _), min_eq_left]
  have hcover := Nat.lt_div_mul_add (a := n + lbc - 1) hlbc
  exact hvalid.le_of_le (by omega)

/-! ### The dictionaries of a session -/

variable {blockIds : BlockIds} {blockSizes : List (Nat × Nat)} {group : Nat} {ids : List Nat}
  {counts : TokenCounts}

/-- Every group has an entry, which is its suffix if the group has blocks. -/
theorem suffixTokenCounts_lookup (hkeys : (blockSizes.map Prod.fst).Nodup)
    (hgroup : (group, blockSize) ∈ blockSizes)
    (h : suffixTokenCounts numTokens blockIds blockSizes = .ok counts) :
    ∃ v, counts.lookup group = some v ∧ ∀ ids, blockIds[group]? = some ids →
      v = if ids.length = 0 then 0 else (numTokens : Int) -
        (((numTokens + blockSize - 1) / blockSize : Nat) - (ids.length : Int)) * blockSize := by
  obtain ⟨v, hv, hlookup⟩ := lookup_mapM (fun p r hr => by
    obtain ⟨key, size⟩ := p
    dsimp only at hr
    split at hr
    · exact congrArg Prod.fst (Except.ok.inj hr).symm
    · split at hr
      · exact congrArg Prod.fst (Except.ok.inj hr).symm
      · cases hr) h hkeys hgroup
  refine ⟨v, hlookup, fun ids hids => ?_⟩
  have hne : blockIds ≠ [] := fun hnil => by simp [hnil] at hids
  dsimp only at hv
  rw [if_neg hne, hids] at hv
  exact (Prod.mk.inj (Except.ok.inj hv)).2.symm

/-- Cutting a window never misses a group. -/
theorem exists_chunkTokenCounts (hkeys : (blockSizes.map Prod.fst).Nodup) (window : ChunkWindow)
    (h : suffixTokenCounts numTokens blockIds blockSizes = .ok counts) :
    ∃ chunkCounts, chunkTokenCounts counts blockSizes window = .ok chunkCounts := by
  refine exists_mapM fun p hp => ?_
  obtain ⟨v, hlookup, -⟩ := suffixTokenCounts_lookup hkeys hp h
  dsimp only
  rw [hlookup]
  exact ⟨_, rfl⟩

theorem chunkTokenCounts_lookup {window : ChunkWindow} {chunkCounts : TokenCounts}
    (hkeys : (blockSizes.map Prod.fst).Nodup) (hgroup : (group, blockSize) ∈ blockSizes)
    (hvalid : counts.lookup group = some valid)
    (h : chunkTokenCounts counts blockSizes window = .ok chunkCounts) :
    chunkCounts.lookup group = some (windowTokens valid blockSize window) := by
  obtain ⟨v, hv, hlookup⟩ := lookup_mapM (fun p r hr => by
    obtain ⟨key, size⟩ := p
    dsimp only at hr
    split at hr
    · cases hr
    · exact congrArg Prod.fst (Except.ok.inj hr).symm) h hkeys hgroup
  dsimp only at hv
  rw [hvalid] at hv
  rw [hlookup, ← (Prod.mk.inj (Except.ok.inj hv)).2, windowTokens]

/-- **The chunks of a session.** The windows of a transferred suffix have every block once
in each part, and the tokens that both peers give a window fill its blocks, short of a part
of the last block of the last window. -/
theorem chunks_divide {lbc : Nat} (hkeys : (blockSizes.map Prod.fst).Nodup)
    (hgroup : (group, blockSize) ∈ blockSizes) (hB : 1 ≤ blockSize) (hlbc : 1 ≤ lbc)
    (hids : blockIds[group]? = some ids)
    (hvalid : suffixTokenCounts numTokens blockIds blockSizes = .ok counts) :
    let total := compressionTotalChunks ids.length lbc
    let window := fun c => compressionChunkWindow c ids.length lbc
    (∀ i < ids.length, ∀ kvPart < 2, ∃! c, c < total ∧ (window c).kvPart = kvPart ∧
      (window c).logicalStart ≤ i ∧ (i : Int) < (window c).logicalStart + (window c).count) ∧
    (∀ c < total, 0 < (window c).count ∧
      ((window c).logicalStart : Int) + (window c).count ≤ ids.length) ∧
    ∃ tokens : Nat → Int,
      (∀ c < total, ∃ chunkCounts,
        chunkTokenCounts counts blockSizes (window c) = .ok chunkCounts ∧
        chunkCounts.lookup group = some (tokens c) ∧
        ((window c).count - 1) * blockSize < tokens c ∧ tokens c ≤ (window c).count * blockSize ∧
        (c + 2 < total → tokens c = (window c).count * blockSize)) ∧
      ∀ kvPart < 2, counts.lookup group = some
        (((List.range total).filter fun c => (window c).kvPart = kvPart).map tokens).sum := by
  intro total window
  obtain ⟨v, hlookup, hsuffix⟩ := suffixTokenCounts_lookup hkeys hgroup hvalid
  have hv := hsuffix ids hids
  refine ⟨fun i hi kvPart hpart => existsUnique_window hlbc hi hpart,
    fun c hc => window_bounds hlbc hc, fun c => windowTokens v blockSize (window c), fun c hc => ?_,
    fun kvPart hpart => hlookup.trans (congrArg some ?_)⟩
  · have hpos : 0 < ids.length :=
      Nat.lt_of_le_of_lt (Nat.zero_le _) ((lt_totalChunks_iff hlbc).mp hc)
    rw [if_neg (by omega)] at hv
    obtain ⟨chunkCounts, hchunk⟩ := exists_chunkTokenCounts hkeys (window c) hvalid
    exact ⟨chunkCounts, hchunk, chunkTokenCounts_lookup hkeys hgroup hlookup hchunk,
      windowTokens_bounds hlbc hB (hv ▸ suffix_fillsBlocks hB)⟩
  · rcases Nat.eq_zero_or_pos ids.length with hzero | hpos
    · have htotal : total = 0 := by
        rw [show total = compressionTotalChunks ids.length lbc from rfl, hzero, totalChunks_eq]
        have := Nat.div_eq_of_lt (show 0 + lbc - 1 < lbc by omega)
        omega
      rw [hv, if_pos hzero, htotal]
      rfl
    · rw [if_neg (by omega)] at hv
      exact (sum_windowTokens hlbc (hv ▸ suffix_fillsBlocks hB) hpart hpos).symm

/-- Five blocks of four tokens, of which the last has two, in windows of two blocks. -/
theorem chunks_divide_partial :
    let total := compressionTotalChunks 5 2
    let window := fun c => compressionChunkWindow c 5 2
    (∀ i < 5, ∀ kvPart < 2, ∃! c, c < total ∧ (window c).kvPart = kvPart ∧
      (window c).logicalStart ≤ i ∧ (i : Int) < (window c).logicalStart + (window c).count) ∧
    (∀ c < total, 0 < (window c).count ∧
      ((window c).logicalStart : Int) + (window c).count ≤ (5 : Nat)) ∧
    ∃ tokens : Nat → Int,
      (∀ c < total, ∃ chunkCounts,
        chunkTokenCounts [(0, 18)] [(0, 4)] (window c) = .ok chunkCounts ∧
        chunkCounts.lookup 0 = some (tokens c) ∧
        ((window c).count - 1) * (4 : Nat) < tokens c ∧ tokens c ≤ (window c).count * (4 : Nat) ∧
        (c + 2 < total → tokens c = (window c).count * (4 : Nat))) ∧
      ∀ kvPart < 2, ([(0, 18)] : TokenCounts).lookup 0 = some
        (((List.range total).filter fun c => (window c).kvPart = kvPart).map tokens).sum :=
  @chunks_divide 26 4 [[7, 8, 9, 10, 11]] [(0, 4)] 0 [7, 8, 9, 10, 11] [(0, 18)] 2 (by decide)
    (by decide) (by decide) (by decide) rfl rfl

end KVServe.Engine

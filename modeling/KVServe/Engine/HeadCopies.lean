import KVServe.Engine.Regions
import KVServe.Lib.Blocks
import Mathlib.Data.List.Count
import Mathlib.Data.List.Nodup
import Mathlib.Tactic.Linarith
import Mathlib.Tactic.Ring

/-!
# KVServe.Engine.HeadCopies

**Copies between tensor parallel sizes.** A rank holds the KV heads of its share, or one
replicated head. The producer ranks that a consumer rank is paired with restore its block,
with one exception: a replicated producer sends one head only, so **a consumer rank with
several heads keeps all but its first one unwritten**.
-/

namespace KVServe.Engine

open KVServe.Session

/-- The number of KV heads that a rank of `tpSize` ranks holds. -/
def rankHeads (totalHeads tpSize : Nat) : Nat := max 1 (totalHeads / tpSize)

/-- The first head of a rank. -/
def firstHead (totalHeads tpSize rank : Nat) : Nat := rank * totalHeads / tpSize

/-- A tensor parallel size that vLLM admits: the heads are shared out evenly, or every rank
holds one of them. -/
def Shares (totalHeads tpSize : Nat) : Prop := tpSize ∣ totalHeads ∨ totalHeads ∣ tpSize

/-- What the producer ranks of a consumer rank copy into one block of a region with
`headBytes` bytes a head, as `_build_transfer_params_sync` plans it. -/
def senderCopies (totalHeads producers consumers rank headBytes : Nat) :
    Except String (List (Nat × TransferPlan)) := do
  let ranks ← handshakeTargetRanks rank consumers producers
  let plans ← ranks.mapM fun producer =>
    (producer, ·) <$> computeSenderTransferPlan producer producers rank consumers
      (rankHeads totalHeads producers * headBytes) (rankHeads totalHeads consumers * headBytes)
      (decide (totalHeads < producers))
  return plans.filter (·.2.shouldTransfer)

/-- A copy writes a byte of the destination block. -/
def TransferPlan.Writes (plan : TransferPlan) (byte : Nat) : Prop :=
  plan.dstRegionOffset ≤ byte ∧ byte < plan.dstRegionOffset + plan.transferLen

instance (plan : TransferPlan) (byte : Nat) : Decidable (plan.Writes byte) :=
  inferInstanceAs (Decidable (_ ∧ _))

/-- The block of a consumer rank is restored: every byte is written once, each with the
same byte of the same global head, and no copy leaves its blocks. -/
structure Restored (totalHeads producers consumers rank headBytes : Nat)
    (copies : List (Nat × TransferPlan)) : Prop where
  once : ∀ byte < rankHeads totalHeads consumers * headBytes,
    copies.countP (fun copy => copy.2.Writes byte) = 1
  heads : ∀ copy ∈ copies, ∀ k < copy.2.transferLen,
    firstHead totalHeads producers copy.1 + (copy.2.srcRegionOffset + k) / headBytes =
        firstHead totalHeads consumers rank + (copy.2.dstRegionOffset + k) / headBytes ∧
      (copy.2.srcRegionOffset + k) % headBytes = (copy.2.dstRegionOffset + k) % headBytes
  inside : ∀ copy ∈ copies,
    copy.2.srcRegionOffset + copy.2.transferLen ≤ rankHeads totalHeads producers * headBytes ∧
      copy.2.dstRegionOffset + copy.2.transferLen ≤ rankHeads totalHeads consumers * headBytes

variable {H P D d c k m a : Nat}

/-! ### Heads of a rank -/

theorem rankHeads_of_share (hP : 0 < P) (ha : 0 < a) : rankHeads (P * a) P = a := by
  rw [rankHeads, Nat.mul_div_cancel_left a hP]
  omega

theorem rankHeads_of_replica (hP : H ≤ P) : rankHeads H P = 1 := by
  rw [rankHeads]
  rcases Nat.lt_or_eq_of_le hP with hlt | rfl
  · rw [Nat.div_eq_of_lt hlt]
    rfl
  · rcases Nat.eq_zero_or_pos H with rfl | hpos
    · rfl
    · rw [Nat.div_self hpos]
      rfl

theorem firstHead_of_share (hP : 0 < P) : firstHead (P * a) P d = d * a := by
  rw [firstHead, Nat.mul_left_comm, Nat.mul_div_cancel_left _ hP]

theorem firstHead_of_replica (hH : 0 < H) : firstHead H (H * m) d = d / m := by
  rw [firstHead, Nat.mul_comm, Nat.mul_div_mul_left _ _ hH]

theorem Shares.dvd_heads {T : Nat} (h : Shares H T) (hT : 0 < T) (hle : T ≤ H) : T ∣ H := by
  rcases h with h | h
  · exact h
  · rw [Nat.le_antisymm hle (Nat.le_of_dvd hT h)]

theorem Shares.dvd_size {T : Nat} (h : Shares H T) (hH : 0 < H) (hle : H ≤ T) : H ∣ T := by
  rcases h with h | h
  · rw [Nat.le_antisymm hle (Nat.le_of_dvd hH h)]
  · exact h

/-! ### Pairs of ranks -/

theorem getTpRatio_larger (hD : 0 < D) (hk : 0 < k) : getTpRatio (D * k) D = .ok k := by
  rw [getTpRatio, if_pos (Nat.le_mul_of_pos_right D hk), if_neg (by omega),
    if_neg (by simp [Nat.mul_mod_right]), Nat.mul_div_cancel_left k hD]

theorem getTpRatio_smaller (hP : 0 < P) (hk : 2 ≤ k) : getTpRatio P (P * k) = .ok (-k) := by
  have hlt : P < P * k := by nlinarith
  rw [getTpRatio, if_neg (by omega), if_neg (by omega), if_neg (by simp [Nat.mul_mod_right]),
    Nat.mul_div_cancel_left k hP]

theorem handshake_larger (hD : 0 < D) (hk : 2 ≤ k) :
    handshakeTargetRanks d D (D * k) = .ok ((List.range k).map (d * k + ·)) := by
  have hlt : D < D * k := by nlinarith
  rw [handshakeTargetRanks, if_neg (by omega), if_neg (by omega), Nat.mul_div_cancel_left k hD]

theorem handshake_smaller (hP : 0 < P) (hk : 0 < k) :
    handshakeTargetRanks d (P * k) P = .ok [d / k] := by
  rw [handshakeTargetRanks, if_pos (Nat.le_mul_of_pos_right P hk), if_neg (by omega),
    Nat.mul_div_cancel_left k hP]

/-- The copies, from the plan of every paired rank. -/
theorem senderCopies_eq {ranks : List Nat} (plan : Nat → TransferPlan)
    (hranks : handshakeTargetRanks d D P = .ok ranks)
    (hplan : ∀ p ∈ ranks, computeSenderTransferPlan p P d D (rankHeads H P * c)
      (rankHeads H D * c) (decide (H < P)) = .ok (plan p)) :
    senderCopies H P D d c =
      .ok ((ranks.map fun p => (p, plan p)).filter (·.2.shouldTransfer)) := by
  have hplans := mapM_eq_ok_map (g := fun p => (p, plan p)) (f := fun producer =>
    (producer, ·) <$> computeSenderTransferPlan producer P d D (rankHeads H P * c)
      (rankHeads H D * c) (decide (H < P))) (l := ranks)
    fun p hp => by rw [hplan p hp]; rfl
  rw [senderCopies, hranks]
  simp only [bind, Except.bind, hplans]
  rfl

/-- Equal sizes: every rank copies whole blocks. -/
theorem senderCopies_equal (hP : 0 < P) :
    senderCopies H P P d c = .ok [(d, ⟨true, 0, 0, rankHeads H P * c⟩)] := by
  have hratio : getTpRatio P P = .ok 1 := by simpa using getTpRatio_larger hP Nat.one_pos
  have hranks : handshakeTargetRanks d P P = .ok [d] := by
    simpa using handshake_smaller (d := d) hP Nat.one_pos
  rw [senderCopies_eq (fun _ => ⟨true, 0, 0, rankHeads H P * c⟩) hranks fun p _ => by
    rw [computeSenderTransferPlan, hratio]
    rfl]
  rfl

/-- Replicated producers: one of them copies its block. -/
theorem senderCopies_replicas (hD : 0 < D) (hk : 2 ≤ k) (hH : H < D * k) :
    senderCopies H (D * k) D d c =
      .ok [(d * k, ⟨true, 0, 0, rankHeads H (D * k) * c⟩)] := by
  rw [senderCopies_eq (fun p => ⟨p % k == 0, 0, 0, rankHeads H (D * k) * c⟩)
    (handshake_larger hD hk) fun p _ => by
      rw [computeSenderTransferPlan, getTpRatio_larger hD (by omega), decide_eq_true hH]
      dsimp only
      rw [if_neg (by omega), ratioTransferPlan, if_pos (by omega), if_pos rfl, Int.toNat_natCast]]
  obtain ⟨j, rfl⟩ : ∃ j, k = j + 1 := ⟨k - 1, by omega⟩
  -- of the ranks `d * k + i` only the first one sends
  have hfirst : (List.range (j + 1)).filter (fun i => (d * (j + 1) + i) % (j + 1) == 0) = [0] := by
    rw [List.range_succ_eq_map, List.filter_cons_of_pos (by simp), List.filter_eq_nil_iff.mpr]
    intro i hi
    obtain ⟨x, hx, rfl⟩ := List.mem_map.mp hi
    have hlt : x.succ < j + 1 := Nat.succ_lt_succ (List.mem_range.mp hx)
    simp [Nat.add_mod, Nat.mod_eq_of_lt hlt]
  rw [List.map_map, List.filter_map]
  refine congrArg (fun l => Except.ok (List.map _ l)) hfirst |>.trans ?_
  simp

/-- Shared producers: each writes its share of the larger block. -/
theorem senderCopies_shares (hD : 0 < D) (hk : 2 ≤ k) (hH : D * k ≤ H) :
    senderCopies H (D * k) D d c = .ok ((List.range k).map fun i =>
      (d * k + i, ⟨true, 0, i * (rankHeads H (D * k) * c), rankHeads H (D * k) * c⟩)) := by
  rw [senderCopies_eq (fun p =>
      ⟨true, 0, p % k * (rankHeads H (D * k) * c), rankHeads H (D * k) * c⟩)
    (handshake_larger hD hk) fun p _ => by
      rw [computeSenderTransferPlan, getTpRatio_larger hD (by omega),
        decide_eq_false (Nat.not_lt.mpr hH)]
      dsimp only
      rw [if_neg (by omega), ratioTransferPlan, if_pos (by omega), if_neg (by decide),
        Int.toNat_natCast]]
  rw [List.filter_eq_self.mpr, List.map_map]
  · refine congrArg Except.ok (List.map_congr_left fun i hi => ?_)
    have hlt : i < k := List.mem_range.mp hi
    simp [Nat.add_mod, Nat.mod_eq_of_lt hlt]
  · intro copy hcopy
    obtain ⟨p, -, rfl⟩ := List.mem_map.mp hcopy
    rfl

/-- Larger consumer sizes: the rank that holds the heads copies a part of its block, or
all of it if it is a replica. -/
theorem senderCopies_smaller (hP : 0 < P) (hk : 2 ≤ k) :
    senderCopies H P (P * k) d c =
      .ok [(d / k, if H < P then ⟨true, 0, 0, rankHeads H P * c⟩
        else ⟨true, d % k * (rankHeads H (P * k) * c), 0, rankHeads H (P * k) * c⟩)] := by
  rw [senderCopies_eq (fun _ => if H < P then ⟨true, 0, 0, rankHeads H P * c⟩
    else ⟨true, d % k * (rankHeads H (P * k) * c), 0, rankHeads H (P * k) * c⟩)
    (handshake_smaller hP (by omega)) fun p _ => by
      rw [computeSenderTransferPlan, getTpRatio_smaller hP hk]
      dsimp only
      rw [if_neg (by omega), ratioTransferPlan, if_neg (by omega), neg_neg, Int.toNat_natCast]
      by_cases hH : H < P
      · rw [if_pos hH, if_pos (decide_eq_true hH)]
      · rw [if_neg hH, if_neg (by simpa using hH)]]
  rw [List.filter_eq_self.mpr]
  · rfl
  · intro copy hcopy
    obtain rfl := List.mem_singleton.mp hcopy
    by_cases hH : H < P
    · rw [if_pos hH]
    · rw [if_neg hH]

/-! ### Restored blocks -/

/-- A block that is copied as one piece from a rank with the same first head. -/
theorem restored_single {p src len : Nat} (hsrc : src + len ≤ rankHeads H P * c)
    (hlen : len = rankHeads H D * c)
    (hheads : ∀ j < len, firstHead H P p + (src + j) / c = firstHead H D d + j / c ∧
      (src + j) % c = j % c) : Restored H P D d c [(p, ⟨true, src, 0, len⟩)] where
  once byte hbyte := by
    rw [List.countP_singleton, if_pos]
    exact decide_eq_true ⟨Nat.zero_le _, by simpa [hlen] using hbyte⟩
  heads copy hcopy j hj := by
    obtain rfl := List.mem_singleton.mp hcopy
    simpa using hheads j hj
  inside copy hcopy := by
    obtain rfl := List.mem_singleton.mp hcopy
    exact ⟨hsrc, by simp [hlen]⟩

/-- A block of several heads of which only the first one is copied. -/
theorem not_restored_single {p src : Nat} (hheads : 2 ≤ rankHeads H D) (hc : 0 < c) :
    ¬ Restored H P D d c [(p, ⟨true, src, 0, c⟩)] := by
  intro hrestored
  have hbyte : c < rankHeads H D * c := by nlinarith
  have hone := hrestored.once c hbyte
  rw [List.countP_singleton, if_neg] at hone
  · cases hone
  · simp [TransferPlan.Writes]

/-- The shares of `k` ranks one after the other. -/
theorem restored_shares (hD : 0 < D) (hk : 0 < k) (ha : 0 < a) :
    Restored (D * k * a) (D * k) D d c ((List.range k).map fun i =>
      (d * k + i, ⟨true, 0, i * (a * c), a * c⟩)) := by
  have hDk : 0 < D * k := Nat.mul_pos hD hk
  have hlocal : rankHeads (D * k * a) (D * k) = a := rankHeads_of_share hDk ha
  have hremote : rankHeads (D * k * a) D = k * a := by
    rw [Nat.mul_assoc]
    exact rankHeads_of_share hD (Nat.mul_pos hk ha)
  refine ⟨fun byte hbyte => ?_, fun copy hcopy j hj => ?_, fun copy hcopy => ?_⟩
  · -- the share of a byte is the quotient by the length of a share
    rw [hremote, Nat.mul_assoc] at hbyte
    have hpos : 0 < a * c := Nat.pos_of_ne_zero fun h => by simp [h] at hbyte
    have hquot : byte / (a * c) < k := (Nat.div_lt_iff_lt_mul hpos).mpr hbyte
    have hwrites : ∀ i, (⟨true, 0, i * (a * c), a * c⟩ : TransferPlan).Writes byte ↔
        i = byte / (a * c) := by
      intro i
      rw [eq_comm, Nat.div_eq_iff hpos, TransferPlan.Writes]
      dsimp only
      omega
    rw [List.countP_map]
    have hcount : (List.range k).countP ((fun copy : Nat × TransferPlan =>
        decide (copy.2.Writes byte)) ∘ fun i => (d * k + i, ⟨true, 0, i * (a * c), a * c⟩)) =
        (List.range k).count (byte / (a * c)) := by
      rw [List.count]
      exact List.countP_congr fun i _ => by simp [hwrites i]
    rw [hcount]
    exact List.count_eq_one_of_mem List.nodup_range (List.mem_range.mpr hquot)
  · obtain ⟨i, hi, rfl⟩ := List.mem_map.mp hcopy
    have hc : 0 < c := Nat.pos_of_ne_zero fun h => by simp [h] at hj
    dsimp only at hj ⊢
    have hbyte : i * (a * c) + j = j + c * (i * a) := by ring
    rw [firstHead_of_share hDk, Nat.mul_assoc D, firstHead_of_share hD, Nat.zero_add, hbyte,
      Nat.add_mul_div_left _ _ hc, Nat.add_mul_mod_self_left]
    exact ⟨by ring, rfl⟩
  · obtain ⟨i, hi, rfl⟩ := List.mem_map.mp hcopy
    dsimp only
    rw [hlocal, hremote, Nat.zero_add, ← Nat.succ_mul, Nat.mul_assoc k]
    exact ⟨le_refl _, Nat.mul_le_mul_right _ (List.mem_range.mp hi)⟩

/-! ### The length check -/

/-- A producer that is not replicated is checked against the ratio, region by region. -/
theorem lengths_of_valid {localRegions remoteRegions : List TransferRegion} {ratio : Int}
    {index : Nat} {localRegion remoteRegion : TransferRegion} (hratio : getTpRatio P D = .ok ratio)
    (hvalid : validateAsymmetricRegionLengths localRegions remoteRegions P D false = .ok none)
    (hl : localRegions[index]? = some localRegion)
    (hr : remoteRegions[index]? = some remoteRegion) :
    regionLengthError ratio index localRegion remoteRegion = none := by
  rw [validateAsymmetricRegionLengths] at hvalid
  split at hvalid
  · cases hvalid
  · rw [if_neg (by decide), hratio] at hvalid
    have hnone := List.findSome?_eq_none_iff.mp (Except.ok.inj hvalid)
    refine hnone ((localRegion, remoteRegion), index) (List.mk_mem_zipIdx_iff_getElem?.mpr ?_)
    exact List.getElem?_zip_eq_some.mpr ⟨hl, hr⟩

/-! ### All pairs of sizes -/

/-- The region lengths of a rank: its heads, `c` bytes each. -/
def HasHeads (totalHeads tpSize : Nat) (headBytes : List Nat) (regions : List TransferRegion) :
    Prop :=
  regions.map TransferRegion.kvBlockLen = headBytes.map (rankHeads totalHeads tpSize * ·)

theorem HasHeads.exists_region {T i : Nat} {headBytes : List Nat} {regions : List TransferRegion}
    (h : HasHeads H T headBytes regions) (hi : headBytes[i]? = some c) :
    ∃ region, regions[i]? = some region ∧ region.kvBlockLen = rankHeads H T * c := by
  have hget : (regions.map TransferRegion.kvBlockLen)[i]? = some (rankHeads H T * c) := by
    rw [h, List.getElem?_map, hi]
    rfl
  rw [List.getElem?_map] at hget
  exact Option.map_eq_some_iff.mp hget

/-- Fewer consumer ranks, replicated producers: the consumer rank must hold one head. -/
theorem replicas_restored_iff (hH : 0 < H) (hD : 0 < D) (hk : 2 ≤ k) (hP : H < D * k)
    (hPs : Shares H (D * k)) (hDs : Shares H D) :
    (∃ copies, senderCopies H (D * k) D d c = .ok copies ∧ Restored H (D * k) D d c copies) ↔
      ¬ D < H ∨ c = 0 := by
  have hlocal : rankHeads H (D * k) = 1 := rankHeads_of_replica hP.le
  rw [senderCopies_replicas hD hk hP, hlocal, Nat.one_mul]
  constructor
  · rintro ⟨copies, hcopies, hrestored⟩
    obtain rfl := Except.ok.inj hcopies
    by_contra hno
    obtain ⟨hlt, hc⟩ := not_or.mp hno
    rw [not_not] at hlt
    -- fewer ranks than heads: every rank holds at least two of them
    obtain ⟨a, rfl⟩ := hDs.dvd_heads hD hlt.le
    have ha : 1 < a := Nat.lt_of_mul_lt_mul_left (a := D) (by rwa [Nat.mul_one])
    exact not_restored_single (by rwa [rankHeads_of_share hD (by omega)])
      (Nat.pos_of_ne_zero hc) hrestored
  · intro hcond
    refine ⟨_, rfl, restored_single (by rw [hlocal]; omega) ?_ fun j hj => ?_⟩
    · rcases hcond with hge | rfl
      · rw [rankHeads_of_replica (Nat.le_of_not_lt hge), Nat.one_mul]
      · rfl
    · have hge : H ≤ D := hcond.elim Nat.le_of_not_lt fun h => by omega
      obtain ⟨n, rfl⟩ := hDs.dvd_size hH hge
      rw [Nat.mul_assoc H, firstHead_of_replica hH, firstHead_of_replica hH, Nat.zero_add,
        Nat.mul_div_mul_right _ _ (by omega)]
      exact ⟨rfl, rfl⟩

/-- More consumer ranks: the one producer rank has all heads of the consumer rank. -/
theorem smaller_restored (hH : 0 < H) (hP : 0 < P) (hk : 2 ≤ k) (hPs : Shares H P)
    (hDs : Shares H (P * k))
    (hlengths : P ≤ H → rankHeads H P * c = rankHeads H (P * k) * c * k) :
    ∃ copies, senderCopies H P (P * k) d c = .ok copies ∧ Restored H P (P * k) d c copies := by
  have hPk : 0 < P * k := Nat.mul_pos hP (by omega)
  refine ⟨_, senderCopies_smaller hP hk, ?_⟩
  split
  · -- replicas on both sides
    rename_i hlt
    have hle : P ≤ P * k := Nat.le_mul_of_pos_right P (by omega)
    obtain ⟨m, rfl⟩ := hPs.dvd_size hH hlt.le
    refine restored_single (by omega) ?_ fun j _ => ?_
    · rw [rankHeads_of_replica hlt.le, rankHeads_of_replica (by omega)]
    · rw [Nat.mul_assoc H, firstHead_of_replica hH, firstHead_of_replica hH, Nat.zero_add,
        Nat.div_div_eq_div_mul, Nat.mul_comm k]
      exact ⟨rfl, rfl⟩
  · rename_i hge
    have hlen := hlengths (Nat.le_of_not_lt hge)
    have hmod : d % k < k := Nat.mod_lt _ (by omega)
    refine restored_single ?_ rfl fun j hj => ?_
    · rw [hlen, ← Nat.succ_mul, Nat.mul_comm (_ * c) k]
      exact Nat.mul_le_mul_right _ hmod
    · have hc : 0 < c := Nat.pos_of_ne_zero fun h => by simp [h] at hj
      obtain ⟨a, rfl⟩ := hPs.dvd_heads hP (Nat.le_of_not_lt hge)
      have ha : 0 < a := Nat.pos_of_mul_pos_left hH
      obtain ⟨b, hb⟩ : ∃ b, rankHeads (P * a) (P * k) = b := ⟨_, rfl⟩
      rw [hb, rankHeads_of_share hP ha] at hlen
      have hab : a = k * b := Nat.eq_of_mul_eq_mul_right hc (by rw [hlen]; ring)
      have hbyte : d % k * (b * c) + j = j + c * (d % k * b) := by ring
      have hsum : d = k * (d / k) + d % k := (Nat.div_add_mod d k).symm
      rw [hb, hbyte, firstHead_of_share hP, Nat.add_mul_div_left _ _ hc, Nat.add_mul_mod_self_left,
        hab, ← Nat.mul_assoc P, firstHead_of_share hPk]
      refine ⟨?_, rfl⟩
      calc d / k * (k * b) + (j / c + d % k * b) = (k * (d / k) + d % k) * b + j / c := by ring
        _ = d * b + j / c := by rw [← hsum]

/-- **Which blocks a consumer rank gets restored.** For sizes that vLLM admits and regions
that pass the length check, the copies of the paired producer ranks restore the block of a
consumer rank unless the producer ranks hold replicas and the consumer rank several heads. -/
theorem blocks_restored_iff {headBytes : List Nat} {localRegions remoteRegions : List TransferRegion}
    (hH : 0 < H) (hP : 0 < P) (hD : 0 < D) (hratio : P ∣ D ∨ D ∣ P) (hPs : Shares H P)
    (hDs : Shares H D) (hlocal : HasHeads H P headBytes localRegions)
    (hremote : HasHeads H D headBytes remoteRegions)
    (hvalid : validateAsymmetricRegionLengths localRegions remoteRegions P D (decide (H < P)) =
      .ok none) (hc : c ∈ headBytes) :
    (∃ copies, senderCopies H P D d c = .ok copies ∧ Restored H P D d c copies) ↔
      ¬ (D < H ∧ H < P) ∨ c = 0 := by
  rcases Nat.lt_trichotomy P D with hlt | rfl | hlt
  · -- more consumer ranks
    obtain ⟨k, rfl⟩ := hratio.resolve_right fun h => absurd (Nat.le_of_dvd hP h) (by omega)
    have hk : 2 ≤ k := Nat.lt_of_mul_lt_mul_left (a := P) (by rwa [Nat.mul_one])
    refine iff_of_true (smaller_restored hH hP hk hPs hDs fun hle => ?_) (.inl (by omega))
    rw [decide_eq_false (Nat.not_lt.mpr hle)] at hvalid
    obtain ⟨index, hindex⟩ := List.getElem?_of_mem hc
    obtain ⟨localRegion, hl, hlen⟩ := hlocal.exists_region hindex
    obtain ⟨remoteRegion, hr, hlen'⟩ := hremote.exists_region hindex
    have hnone := lengths_of_valid (getTpRatio_smaller hP hk) hvalid hl hr
    rw [regionLengthError, if_neg (by omega), if_neg (by omega), hlen, hlen', neg_neg] at hnone
    by_contra hne
    rw [if_pos (by exact_mod_cast hne)] at hnone
    cases hnone
  · -- equal sizes
    refine iff_of_true ⟨_, senderCopies_equal hP, restored_single (by omega) rfl fun j _ => ?_⟩
      (.inl (by omega))
    rw [Nat.zero_add]
    exact ⟨rfl, rfl⟩
  · -- more producer ranks
    obtain ⟨k, rfl⟩ := hratio.resolve_left fun h => absurd (Nat.le_of_dvd hD h) (by omega)
    have hk : 2 ≤ k := Nat.lt_of_mul_lt_mul_left (a := D) (by rwa [Nat.mul_one])
    rcases Nat.lt_or_ge H (D * k) with hrep | hshare
    · rw [replicas_restored_iff hH hD hk hrep hPs hDs]
      exact or_congr_left (by omega)
    · obtain ⟨a, rfl⟩ := hPs.dvd_heads hP hshare
      have ha : 0 < a := Nat.pos_of_mul_pos_left hH
      refine iff_of_true ⟨_, senderCopies_shares hD hk hshare, ?_⟩ (.inl (by omega))
      rw [rankHeads_of_share hP ha]
      exact restored_shares hD (by omega) ha

/-- Two heads, four replicated producers, one consumer: the second head is not written. -/
theorem blocks_not_restored :
    let regions : List TransferRegion := [⟨"a", 0, 0, 8, 8, 0⟩]
    let remoteRegions : List TransferRegion := [⟨"a", 0, 0, 16, 16, 0⟩]
    HasHeads 2 4 [8] regions ∧ HasHeads 2 1 [8] remoteRegions ∧
      validateAsymmetricRegionLengths regions remoteRegions 4 1 true = .ok none ∧
      senderCopies 2 4 1 0 8 = .ok [(0, ⟨true, 0, 0, 8⟩)] ∧
      ¬ Restored 2 4 1 0 8 [(0, ⟨true, 0, 0, 8⟩)] := by
  refine ⟨rfl, rfl, by decide, by decide, ?_⟩
  exact not_restored_single (by decide) (by decide)

/-- Eight heads, four on each producer and two on each consumer. -/
theorem blocks_restored_iff_sharded :
    (∃ copies, senderCopies 8 2 4 3 16 = .ok copies ∧ Restored 8 2 4 3 16 copies) ↔
      ¬ (4 < 8 ∧ 8 < 2) ∨ 16 = 0 :=
  @blocks_restored_iff 8 2 4 3 16 [16] [⟨"a", 0, 0, 64, 64, 0⟩] [⟨"a", 0, 0, 32, 32, 0⟩]
    (by decide) (by decide) (by decide) (by decide) (.inl (by decide)) (.inl (by decide))
    rfl rfl (by decide) (by decide)

end KVServe.Engine

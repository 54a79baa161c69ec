import KVServe.Engine.Transfer
import Mathlib

/-!
# KVServe.Engine.Batches

The **batches of `_send_blocks`**. The greedy inner loop stops at a descriptor count and at
a byte sum, but never before its first descriptor, so the batches divide the list whatever
the lengths are. The engine is called for them in order, up to the first code that is not
zero.
-/

namespace KVServe.Engine

open KVServe.Session

/-- The limits of one call: so many descriptors, and so many bytes unless there is one
descriptor only. -/
structure WithinLimits (batch : List Descriptor) : Prop where
  nonempty : batch ≠ []
  count : batch.length ≤ rawTransferMaxDescriptors
  bytes : (batch.map Descriptor.length).sum ≤ (rawTransferMaxBytes : Int) ∨ batch.length = 1

/-- A batch that has a descriptor takes another one only if the limits allow it. -/
theorem fillBatch_limits {count : Nat} {bytes : Int} {ds batch remaining : List Descriptor}
    (h : fillBatch count bytes ds = .ok (batch, remaining)) (hcount : 0 < count) :
    (count ≤ rawTransferMaxDescriptors → count + batch.length ≤ rawTransferMaxDescriptors) ∧
      (batch = [] ∨ bytes + (batch.map Descriptor.length).sum ≤ (rawTransferMaxBytes : Int)) := by
  induction ds generalizing count bytes batch with
  | nil =>
      obtain ⟨rfl, -⟩ := Prod.mk.inj (Except.ok.inj h)
      exact ⟨id, .inl rfl⟩
  | cons d rest ih =>
      rw [fillBatch] at h
      split at h
      · cases h
      · split at h
        · obtain ⟨rfl, -⟩ := Prod.mk.inj (Except.ok.inj h)
          exact ⟨id, .inl rfl⟩
        · rename_i hlimits
          split at h
          · rename_i hfill
            obtain ⟨rfl, rfl⟩ := Prod.mk.inj (Except.ok.inj h)
            obtain ⟨hlength, hbytes⟩ := ih hfill (Nat.succ_pos _)
            rw [not_or, not_and] at hlimits
            refine ⟨fun _ => ?_, .inr ?_⟩
            · rw [List.length_cons]
              omega
            · rw [List.map_cons, List.sum_cons]
              rcases hbytes with rfl | hbytes
              · simp only [List.map_nil, List.sum_nil]
                omega
              · omega
          · cases h

/-- **A batch keeps the limits.** Its first descriptor is taken whatever its length. -/
theorem fillBatch_withinLimits {d : Descriptor} {rest batch remaining : List Descriptor}
    (h : fillBatch 0 0 (d :: rest) = .ok (batch, remaining)) : WithinLimits batch := by
  have hne := fillBatch_ne_nil h
  rw [fillBatch] at h
  split at h
  · cases h
  · rw [if_neg (by simp [rawTransferMaxDescriptors])] at h
    split at h
    · rename_i hfill
      obtain ⟨rfl, rfl⟩ := Prod.mk.inj (Except.ok.inj h)
      obtain ⟨hlength, hbytes⟩ := fillBatch_limits hfill (Nat.succ_pos _)
      refine ⟨hne, ?_, ?_⟩
      · have := hlength (by decide)
        rw [List.length_cons]
        omega
      · rcases hbytes with rfl | hbytes
        · exact .inr rfl
        · refine .inl ?_
          rw [List.map_cons, List.sum_cons]
          omega
    · cases h

/-- The planned batches divide the list and keep the limits. -/
theorem planBatches_spec {ds : List Descriptor} (h : ∀ d ∈ ds, 0 ≤ d.length) :
    (planBatches ds).flatten = ds ∧ ∀ batch ∈ planBatches ds, WithinLimits batch := by
  refine ⟨(@sendLoop_spec (fun _ => 0) 0 ds h).1, ?_⟩
  induction hn : ds.length using Nat.strong_induction_on generalizing ds with
  | _ n ih =>
      subst hn
      cases ds with
      | nil =>
          rw [planBatches, sendLoop]
          exact fun batch hbatch => absurd hbatch List.not_mem_nil
      | cons d rest =>
          obtain ⟨batch, remaining, hfill⟩ := fillBatch_ok h
          have hrest : ∀ d' ∈ remaining, 0 ≤ d'.length := fun d' hd' =>
            h d' (fillBatch_append hfill ▸ List.mem_append_right batch hd')
          rw [planBatches_cons hfill]
          exact List.forall_mem_cons.mpr ⟨fillBatch_withinLimits hfill,
            ih _ (fillBatch_progress hfill) hrest rfl⟩

/-- **The first code that is not zero ends the loop.** -/
theorem sendLoop_first {codes : Nat → Int} {made k : Nat} {ds : List Descriptor}
    (h : ∀ d ∈ ds, 0 ≤ d.length) (hk : k < (planBatches ds).length)
    (hzero : ∀ i < k, codes (made + i) = 0) (hcode : codes (made + k) ≠ 0) :
    (sendLoop codes made ds).calls = ((planBatches ds).take k).map (⟨·, 0⟩) ++
        [⟨(planBatches ds)[k], codes (made + k)⟩] ∧
      (sendLoop codes made ds).ret = .ok (codes (made + k)) := by
  induction k generalizing made ds with
  | zero =>
      cases ds with
      | nil => simp [planBatches, sendLoop] at hk
      | cons d rest =>
          obtain ⟨batch, remaining, hfill⟩ := fillBatch_ok h
          simp only [planBatches_cons hfill, sendLoop_cons hfill]
          rw [if_pos (by simpa using hcode)]
          exact ⟨rfl, rfl⟩
  | succ k ih =>
      cases ds with
      | nil => simp [planBatches, sendLoop] at hk
      | cons d rest =>
          obtain ⟨batch, remaining, hfill⟩ := fillBatch_ok h
          have hrest : ∀ d' ∈ remaining, 0 ≤ d'.length := fun d' hd' =>
            h d' (fillBatch_append hfill ▸ List.mem_append_right batch hd')
          have hfirst : codes made = 0 := hzero 0 (Nat.succ_pos k)
          have hshift : made + 1 + k = made + (k + 1) := by omega
          simp only [planBatches_cons hfill, List.length_cons] at hk ⊢
          obtain ⟨hcalls, hret⟩ := @ih (made + 1) remaining hrest (by omega)
            (fun i hi => by
              rw [show made + 1 + i = made + (i + 1) by omega]
              exact hzero (i + 1) (by omega))
            (by rwa [hshift])
          rw [hshift] at hcalls hret
          rw [sendLoop_cons hfill, if_neg (by simpa using hfirst)]
          refine ⟨?_, hret⟩
          rw [hcalls, hfirst]
          rfl

/-- The descriptors of the three lists. -/
theorem zipped_fields {srcPtrs dstPtrs : List Nat} {lengths : List Int}
    (hsrc : srcPtrs.length = dstPtrs.length) (hdst : dstPtrs.length = lengths.length)
    (hlengths : ∀ length ∈ lengths, 0 ≤ length) :
    let ds := (srcPtrs.zip dstPtrs).zipWith (fun (src, dst) length => Descriptor.mk src dst length)
      lengths
    ds.map Descriptor.src = srcPtrs ∧ ds.map Descriptor.dst = dstPtrs ∧
      ds.map Descriptor.length = lengths ∧ ∀ d ∈ ds, 0 ≤ d.length := by
  induction srcPtrs generalizing dstPtrs lengths with
  | nil =>
      obtain rfl := List.length_eq_zero_iff.mp hsrc.symm
      obtain rfl := List.length_eq_zero_iff.mp hdst.symm
      simp
  | cons src srcPtrs ih =>
      obtain ⟨dst, dstPtrs, rfl⟩ := List.exists_cons_of_length_eq_add_one hsrc.symm
      obtain ⟨length, lengths, rfl⟩ := List.exists_cons_of_length_eq_add_one hdst.symm
      obtain ⟨hsrcs, hdsts, hlens, hnonneg⟩ := ih (Nat.succ.inj hsrc) (Nat.succ.inj hdst)
        fun length' hlength => hlengths length' (List.mem_cons_of_mem length hlength)
      refine ⟨congrArg (src :: ·) hsrcs, congrArg (dst :: ·) hdsts, congrArg (length :: ·) hlens, ?_⟩
      exact List.forall_mem_cons.mpr ⟨hlengths length List.mem_cons_self, hnonneg⟩

/-- **`_send_blocks` hands every descriptor over once and in order.** The batches depend on
the descriptors only; the return codes say how many of them are handed over. -/
theorem sendBlocks_batches {srcPtrs dstPtrs : List Nat} {lengths : List Int}
    (hsrc : srcPtrs.length = dstPtrs.length) (hdst : dstPtrs.length = lengths.length)
    (hlengths : ∀ length ∈ lengths, 0 ≤ length) :
    ∃ batches : List (List Descriptor),
      batches.flatten.map Descriptor.src = srcPtrs ∧
      batches.flatten.map Descriptor.dst = dstPtrs ∧
      batches.flatten.map Descriptor.length = lengths ∧
      (∀ batch ∈ batches, WithinLimits batch) ∧
      ∀ codes : Nat → Int,
        ((∀ i < batches.length, codes i = 0) →
          (sendBlocks codes srcPtrs dstPtrs lengths).calls = batches.map (⟨·, 0⟩) ∧
            (sendBlocks codes srcPtrs dstPtrs lengths).ret = .ok 0) ∧
        ∀ k (hk : k < batches.length), (∀ i < k, codes i = 0) → codes k ≠ 0 →
          (sendBlocks codes srcPtrs dstPtrs lengths).calls =
              (batches.take k).map (⟨·, 0⟩) ++ [⟨batches[k], codes k⟩] ∧
            (sendBlocks codes srcPtrs dstPtrs lengths).ret = .ok (codes k) := by
  obtain ⟨hsrcs, hdsts, hlens, hnonneg⟩ := zipped_fields hsrc hdst hlengths
  obtain ⟨hflat, hlimits⟩ := planBatches_spec hnonneg
  refine ⟨planBatches _, by rw [hflat, hsrcs], by rw [hflat, hdsts], by rw [hflat, hlens], hlimits,
    fun codes => ?_⟩
  rw [sendBlocks, if_pos ⟨hsrc, hdst⟩]
  refine ⟨fun hall => (sendLoop_spec hnonneg).2.1 fun i hi => ?_, fun k hk hzero hcode => ?_⟩
  · rw [Nat.zero_add]
    exact hall i hi
  · have hfirst := @sendLoop_first codes 0 k _ hnonneg hk (fun i hi => by
      rw [Nat.zero_add]
      exact hzero i hi) (by rwa [Nat.zero_add])
    rwa [Nat.zero_add] at hfirst

/-- A batch that ends at the byte limit, an oversized descriptor and an empty one. -/
theorem sendBlocks_batches_oversized : ∃ batches : List (List Descriptor),
    batches.flatten.map Descriptor.src = [1, 2, 3] ∧
    batches.flatten.map Descriptor.dst = [4, 5, 6] ∧
    batches.flatten.map Descriptor.length = [64, 2 ^ 27, 0] ∧
    (∀ batch ∈ batches, WithinLimits batch) ∧
    ∀ codes : Nat → Int,
      ((∀ i < batches.length, codes i = 0) →
        (sendBlocks codes [1, 2, 3] [4, 5, 6] [64, 2 ^ 27, 0]).calls = batches.map (⟨·, 0⟩) ∧
          (sendBlocks codes [1, 2, 3] [4, 5, 6] [64, 2 ^ 27, 0]).ret = .ok 0) ∧
      ∀ k (hk : k < batches.length), (∀ i < k, codes i = 0) → codes k ≠ 0 →
        (sendBlocks codes [1, 2, 3] [4, 5, 6] [64, 2 ^ 27, 0]).calls =
            (batches.take k).map (⟨·, 0⟩) ++ [⟨batches[k], codes k⟩] ∧
          (sendBlocks codes [1, 2, 3] [4, 5, 6] [64, 2 ^ 27, 0]).ret = .ok (codes k) :=
  sendBlocks_batches rfl rfl (by decide)

end KVServe.Engine

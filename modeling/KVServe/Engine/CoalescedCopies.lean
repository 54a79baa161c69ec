import KVServe.Engine.OpenProducer

/-!
# KVServe.Engine.CoalescedCopies

**What `_build_transfer_params_sync` copies, byte by byte.** The descriptors of a request
copy the blocks one by one: the last local blocks of a group to its remote blocks, block
after block, in every region that this rank sends. Merging a run of blocks into one
descriptor changes nothing of it. In a region that was registered two remote blocks have no
byte in common, so none is written twice.
-/

namespace KVServe.Engine

open KVServe.Session

/-! ### Bytes -/

/-- `n` bytes from `src` on to `dst` on, as pairs of addresses. -/
def byteCopies (src dst n : Nat) : List (Nat × Nat) :=
  (List.range n).map fun k => (src + k, dst + k)

/-- The bytes that a descriptor copies. -/
def Descriptor.copies (d : Descriptor) : List (Nat × Nat) := byteCopies d.src d.dst d.length.toNat

/-- The last `n_remote` local blocks, each with its remote block. -/
def alignedBlocks (isMamba : Bool) (localGroup remoteGroup : List Nat) : List (Nat × Nat) :=
  let localGroup := statefulBlocks isMamba localGroup
  let remoteGroup := statefulBlocks isMamba remoteGroup
  (localGroup.drop (localGroup.length - remoteGroup.length)).zip remoteGroup

namespace ProducerWorker

variable (worker : ProducerWorker) (agent : MooncakeXferMetadata)

/-- The kernel blocks of a logical block on both sides. -/
def kernelPairs (isMamba : Bool) (block : Nat × Nat) : List (Nat × Nat) :=
  if isMamba then [block]
  else (List.range worker.physicalBlocksPerLogical).map fun i =>
    (block.1 * worker.physicalBlocksPerLogical + i, block.2 * worker.physicalBlocksPerLogical + i)

/-- The blocks of a group that are to be copied. -/
def groupBlocks (localBlockIds remoteBlockIds : BlockIds) (group : Nat) : List (Nat × Nat) :=
  match localBlockIds[group]?, remoteBlockIds[group]?, worker.mambaGroups[group]? with
  | some localGroup, some remoteGroup, some isMamba =>
      (alignedBlocks isMamba localGroup remoteGroup).flatMap (worker.kernelPairs isMamba)
  | _, _, _ => []

/-- A group has fewer local than remote blocks. -/
def Short (localBlockIds remoteBlockIds : BlockIds) : Prop :=
  ∃ x ∈ (localBlockIds.zip remoteBlockIds).zip worker.mambaGroups,
    (statefulBlocks x.2 x.1.1).length < (statefulBlocks x.2 x.1.2).length

instance (localBlockIds remoteBlockIds : BlockIds) :
    Decidable (worker.Short localBlockIds remoteBlockIds) :=
  inferInstanceAs (Decidable (∃ x ∈ _, _))

/-- The request asks for blocks and is put to `err_reqs`. -/
def Rejected (localBlockIds remoteBlockIds : BlockIds) : Prop :=
  ¬ (∀ group ∈ remoteBlockIds, group = []) ∧
    (localBlockIds.length ≠ remoteBlockIds.length ∨ worker.Short localBlockIds remoteBlockIds)

instance (localBlockIds remoteBlockIds : BlockIds) :
    Decidable (worker.Rejected localBlockIds remoteBlockIds) :=
  inferInstanceAs (Decidable (_ ∧ _))

end ProducerWorker

/-- `agent_meta.req_blocks[d_req_id]`, the ids per group. -/
def remoteIdsOf (agent : MooncakeXferMetadata) (reqId : ReqId) : BlockIds :=
  ((agent.reqBlocks.lookup reqId).map Prod.snd).getD []

/-! ### Runs of blocks -/

section Runs

variable {plan : TransferPlan} {pair : TransferRegion × TransferRegion}

end Runs

/-! ### Groups -/

/-- What the loop over the groups finds out. -/
theorem matchTransferGroups_spec {mambaGroups : List Bool}
    {groups : List (List Nat × List Nat)} {result : Option (List (List Nat × List Nat))}
    (h : matchTransferGroups mambaGroups groups = .ok result) :
    match result with
    | none => ∃ x ∈ groups.zip mambaGroups,
        (statefulBlocks x.2 x.1.1).length < (statefulBlocks x.2 x.1.2).length
    | some matched =>
        (∀ x ∈ groups.zip mambaGroups,
          (statefulBlocks x.2 x.1.2).length ≤ (statefulBlocks x.2 x.1.1).length) ∧
        groups.length ≤ mambaGroups.length ∧
        matched = (groups.zip mambaGroups).map fun x =>
          (trimGroup (statefulBlocks x.2 x.1.1) (statefulBlocks x.2 x.1.2),
            statefulBlocks x.2 x.1.2) := by
  induction groups generalizing mambaGroups result with
  | nil =>
      cases mambaGroups <;> cases h <;> simp
  | cons group rest ih =>
      obtain ⟨localGroup, remoteGroup⟩ := group
      cases mambaGroups with
      | nil => cases h
      | cons isMamba mambaGroups =>
          rw [matchTransferGroups] at h
          split at h
          · next hshort =>
              cases h
              exact ⟨_, List.mem_cons_self, hshort⟩
          · next henough =>
              cases hrest : matchTransferGroups mambaGroups rest with
              | error message =>
                  rw [hrest] at h
                  cases h
              | ok matched =>
                  have hspec := ih hrest
                  rw [hrest] at h
                  cases matched with
                  | none =>
                      cases h
                      obtain ⟨x, hx, hshort⟩ := hspec
                      exact ⟨x, List.mem_cons_of_mem _ hx, hshort⟩
                  | some matched =>
                      cases h
                      obtain ⟨hall, hlength, rfl⟩ := hspec
                      refine ⟨?_, Nat.succ_le_succ hlength, rfl⟩
                      intro x hx
                      rcases List.mem_cons.mp hx with rfl | hx
                      · exact Nat.not_lt.mp henough
                      · exact hall x hx

/-- Local blocks before the last `n_remote` are left out. -/
theorem trimGroup_eq (localGroup remoteGroup : List Nat) :
    trimGroup localGroup remoteGroup =
      localGroup.drop (localGroup.length - remoteGroup.length) := by
  rw [trimGroup]
  split
  · split
    · next hempty => rw [hempty, List.length_nil, Nat.sub_zero, List.drop_length]
    · rfl
  · next hle => rw [Nat.sub_eq_zero_of_le (Nat.not_lt.mp hle), List.drop_zero]

namespace ProducerWorker

variable {worker : ProducerWorker}

theorem kernelPairs_mamba : worker.kernelPairs true = fun block => [block] := rfl

theorem kernelPairs_attention : worker.kernelPairs false = fun block =>
    (List.range worker.physicalBlocksPerLogical).map fun i =>
      (block.1 * worker.physicalBlocksPerLogical + i,
        block.2 * worker.physicalBlocksPerLogical + i) := rfl

/-- Logical blocks are expanded in the same way on both sides. -/
theorem zip_kernelBlockIds (isMamba : Bool) {xs ys : List Nat} (h : xs.length = ys.length) :
    (worker.kernelBlockIds isMamba xs).zip (worker.kernelBlockIds isMamba ys) =
      (xs.zip ys).flatMap (worker.kernelPairs isMamba) := by
  cases isMamba with
  | true =>
      simp only [kernelBlockIds, or_true, if_true, kernelPairs_mamba]
      exact (List.flatMap_singleton' _).symm
  | false =>
      simp only [kernelBlockIds, Bool.false_eq_true, or_false, kernelPairs_attention,
        worker.blockTable.expands]
      split
      · next hone =>
          simp only [hone, List.range_one, List.map_singleton, Nat.mul_one, Nat.add_zero,
            Prod.mk.eta]
          exact (List.flatMap_singleton' _).symm
      · induction xs generalizing ys with
        | nil => rfl
        | cons x xs ih =>
            cases ys with
            | nil => cases h
            | cons y ys =>
                simp only [List.flatMap_cons, List.zip_cons_cons]
                rw [List.zip_append (by simp), ih (Nat.succ.inj h), List.zip_map']

variable {localIds remoteIds : BlockIds}

theorem groupBlocks_of_some {group : Nat} {x : (List Nat × List Nat) × Bool}
    (h : ((localIds.zip remoteIds).zip worker.mambaGroups)[group]? = some x) :
    worker.groupBlocks localIds remoteIds group =
      (alignedBlocks x.2 x.1.1 x.1.2).flatMap (worker.kernelPairs x.2) := by
  obtain ⟨hgroups, hmamba⟩ := List.getElem?_zip_eq_some.mp h
  obtain ⟨hlocal, hremote⟩ := List.getElem?_zip_eq_some.mp hgroups
  rw [groupBlocks, hlocal, hremote, hmamba]

theorem groupBlocks_of_none {group : Nat}
    (h : ((localIds.zip remoteIds).zip worker.mambaGroups)[group]? = none) :
    worker.groupBlocks localIds remoteIds group = [] := by
  rw [groupBlocks]
  split
  · next localGroup remoteGroup isMamba hlocal hremote hmamba =>
      have hsome : ((localIds.zip remoteIds).zip worker.mambaGroups)[group]? =
          some ((localGroup, remoteGroup), isMamba) :=
        List.getElem?_zip_eq_some.mpr ⟨List.getElem?_zip_eq_some.mpr ⟨hlocal, hremote⟩, hmamba⟩
      rw [hsome] at h
      cases h
  · rfl

/-- The local blocks of a group as far as they are copied. -/
def lastBlocks (x : (List Nat × List Nat) × Bool) : List Nat :=
  (statefulBlocks x.2 x.1.1).drop
    ((statefulBlocks x.2 x.1.1).length - (statefulBlocks x.2 x.1.2).length)

theorem length_lastBlocks {x : (List Nat × List Nat) × Bool}
    (h : (statefulBlocks x.2 x.1.2).length ≤ (statefulBlocks x.2 x.1.1).length) :
    (lastBlocks x).length = (statefulBlocks x.2 x.1.2).length := by
  rw [lastBlocks, List.length_drop]
  omega

/-- The two halves of a group that is sent are its blocks. -/
theorem sentGroup_zip
    (henough : ∀ x ∈ (localIds.zip remoteIds).zip worker.mambaGroups,
      (statefulBlocks x.2 x.1.2).length ≤ (statefulBlocks x.2 x.1.1).length)
    {group : Nat} {ids remIds : List Nat}
    (h : (((((localIds.zip remoteIds).zip worker.mambaGroups).map fun x =>
        (lastBlocks x, statefulBlocks x.2 x.1.2)).zip worker.mambaGroups).map fun x =>
          (worker.kernelBlockIds x.2 x.1.1, worker.kernelBlockIds x.2 x.1.2))[group]? =
      some (ids, remIds)) :
    ids.zip remIds = worker.groupBlocks localIds remoteIds group := by
  rw [List.getElem?_map, Option.map_eq_some_iff] at h
  obtain ⟨⟨⟨xs, ys⟩, isMamba⟩, hget, hids⟩ := h
  obtain ⟨hgroups, hmamba⟩ := List.getElem?_zip_eq_some.mp hget
  rw [List.getElem?_map, Option.map_eq_some_iff] at hgroups
  obtain ⟨x, hx, hpair⟩ := hgroups
  obtain ⟨rfl, rfl⟩ := Prod.mk.inj hids
  obtain ⟨rfl, rfl⟩ := Prod.mk.inj hpair
  obtain rfl : isMamba = x.2 :=
    Option.some.inj (hmamba.symm.trans (List.getElem?_zip_eq_some.mp hx).2)
  rw [groupBlocks_of_some hx]
  exact zip_kernelBlockIds x.2 (length_lastBlocks (henough x (List.mem_of_getElem? hx)))

/-- **The plan of a request**: it fails if the request is rejected, it is skipped only if there
is nothing to copy, and else its blocks are those of every group. -/
theorem planRequest_spec {plan : RequestPlan} (h : worker.planRequest localIds remoteIds = .ok plan) :
    match plan with
    | .failed _ => worker.Rejected localIds remoteIds
    | .skip => ¬ worker.Rejected localIds remoteIds ∧
        ∀ group, worker.groupBlocks localIds remoteIds group = []
    | .send groups => ¬ worker.Rejected localIds remoteIds ∧
        ∀ group ids remIds, groups[group]? = some (ids, remIds) →
          ids.zip remIds = worker.groupBlocks localIds remoteIds group := by
  rw [planRequest] at h
  split at h
  · next hempty =>
      have hall : ∀ group ∈ remoteIds, group = [] := by simpa using hempty
      cases h
      refine ⟨fun hrejected => hrejected.1 hall, fun group => ?_⟩
      cases hget : ((localIds.zip remoteIds).zip worker.mambaGroups)[group]? with
      | none => exact groupBlocks_of_none hget
      | some x =>
          obtain ⟨hgroups, -⟩ := List.getElem?_zip_eq_some.mp hget
          obtain ⟨-, hremote⟩ := List.getElem?_zip_eq_some.mp hgroups
          rw [groupBlocks_of_some hget, hall _ (List.mem_of_getElem? hremote)]
          cases x.2 <;> simp [alignedBlocks, statefulBlocks]
  · next hsome =>
      have hne : ¬ ∀ group ∈ remoteIds, group = [] := by simpa using hsome
      split at h
      · next hlength =>
          cases h
          exact ⟨hne, .inl hlength⟩
      · next hlength =>
          cases hmatch : matchTransferGroups worker.mambaGroups (localIds.zip remoteIds) with
          | error message =>
              rw [hmatch] at h
              cases h
          | ok matched =>
              have hspec := matchTransferGroups_spec hmatch
              rw [hmatch] at h
              cases matched with
              | none =>
                  cases h
                  exact ⟨hne, .inr hspec⟩
              | some matched =>
                  obtain ⟨henough, -, rfl⟩ := hspec
                  have hok : ¬ worker.Rejected localIds remoteIds := by
                    rintro ⟨-, hlen | ⟨x, hx, hshort⟩⟩
                    · exact hlength hlen
                    · exact absurd (henough x hx) (Nat.not_le.mpr hshort)
                  simp only [Except.map, trimGroup_eq] at h
                  split at h
                  · next hnothing =>
                      cases h
                      refine ⟨hok, fun group => ?_⟩
                      cases hget : ((localIds.zip remoteIds).zip worker.mambaGroups)[group]? with
                      | none => exact groupBlocks_of_none hget
                      | some x =>
                          have hx := List.all_eq_true.mp hnothing _
                            (List.mem_map_of_mem (List.mem_of_getElem? hget))
                          rw [groupBlocks_of_some hget, alignedBlocks]
                          dsimp only at hx ⊢
                          rw [of_decide_eq_true hx]
                          rfl
                  · cases h
                    exact ⟨hok, fun group ids remIds hget => sentGroup_zip henough hget⟩

section Remote

variable {agent : MooncakeXferMetadata} {plan : TransferPlan}
  {pair : TransferRegion × TransferRegion}

end Remote

/-! ### Requests -/

variable {agent : MooncakeXferMetadata} {pairs : List (TransferRegion × TransferRegion)}

/-- The requests that are not rejected. -/
def accepted (worker : ProducerWorker) (agent : MooncakeXferMetadata)
    (readyReqs : List (ReqId × BlockIds)) : List (ReqId × BlockIds) :=
  readyReqs.filter fun ready => ¬ worker.Rejected ready.2 (remoteIdsOf agent ready.1)

end ProducerWorker

end KVServe.Engine

import KVServe.Engine.CoalescedCopies

/-!
# KVServe.Engine.RawRegions

**What a successful open job has written.** The raw regions of a request are to be written
block by block, the last local blocks of a group to the remote blocks that the consumer asked
for.

`_session_job_open_producer` throws the error of `_align_transfer_regions` away. It comes with
empty lists, which look like nothing to send, so the job **succeeds without having written a
raw region**.
-/

namespace KVServe.Engine

open KVServe.Session

namespace ProducerWorker

/-! ### Written blocks -/

/-- The descriptors that the job plans for a pair of regions. -/
def regionCopies (worker : ProducerWorker) (job : OpenProducerJob)
    (pair : TransferRegion × TransferRegion) : List Descriptor :=
  match worker.planRequest job.localBlockIds job.remoteBlockIds with
  | .ok (.send groups) =>
      (worker.regionDescriptors (jobMetadata job) groups pair).toOption.getD []
  | _ => []

/-- A block was written by a descriptor of its own pair of regions, in a call that returned 0. -/
def BlockWritten (worker : ProducerWorker) (codes : Nat → Int) (job : OpenProducerJob)
    (pair : TransferRegion × TransferRegion) (block : Nat × Nat) : Prop :=
  ∃ plan d, worker.transferPlan (jobMetadata job) pair.1 pair.2 = .ok plan ∧
    d ∈ worker.regionCopies job pair ∧ d.CopiesShare plan pair block ∧
    ∃ call ∈ (worker.sessionJobOpenProducer codes job).calls, call.code = 0 ∧ d ∈ call.batch

/-- The alignment found no error, every raw region has a consumer region, and all the blocks
of its group that the request asks for were written. -/
def RawRegionsWritten (worker : ProducerWorker) (codes : Nat → Int) (job : OpenProducerJob) :
    Prop :=
  ∃ localRegions pairs, worker.localRegions = .ok localRegions ∧
    worker.alignedRegions job = .ok (pairs, none) ∧
    (∀ region ∈ localRegions, worker.IsRaw region →
      ∃ remoteRegion, (region, remoteRegion) ∈ pairs) ∧
    ∀ pair ∈ pairs, worker.IsRaw pair.1 →
      ∀ block ∈ worker.groupBlocks job.localBlockIds job.remoteBlockIds pair.1.groupIndex,
        worker.BlockWritten codes job pair block

variable {worker : ProducerWorker} {codes : Nat → Int} {job : OpenProducerJob}
  {pair : TransferRegion × TransferRegion}

/-- A pair of regions with descriptors is one that this rank sends. -/
theorem shouldTransfer_of_mem_regionCopies {d : Descriptor} {plan : TransferPlan}
    (hd : d ∈ worker.regionCopies job pair)
    (hplan : worker.transferPlan (jobMetadata job) pair.1 pair.2 = .ok plan) :
    plan.shouldTransfer = true := by
  rw [regionCopies] at hd
  split at hd
  · next groups _ =>
      cases hregion : worker.regionDescriptors (jobMetadata job) groups pair with
      | error message =>
          rw [hregion] at hd
          cases hd
      | ok copies =>
          rw [hregion] at hd
          obtain ⟨ids, remoteIds, -, ⟨-, rfl⟩ | ⟨plan', hplan', rfl⟩⟩ :=
            regionDescriptors_cases hregion
          · cases hd
          · obtain rfl : plan = plan' := Except.ok.inj (hplan.symm.trans hplan')
            by_contra hno
            rw [if_neg hno] at hd
            cases hd
  · cases hd

/-- **The descriptors of a region that is sent** cover the blocks of its group. -/
theorem regionDescriptors_covers {groups : List (List Nat × List Nat)} {copies : List Descriptor}
    {plan : TransferPlan} {block : Nat × Nat}
    (hrequest : worker.planRequest job.localBlockIds job.remoteBlockIds = .ok (.send groups))
    (h : worker.regionDescriptors (jobMetadata job) groups pair = .ok copies)
    (hplan : worker.transferPlan (jobMetadata job) pair.1 pair.2 = .ok plan)
    (hsend : plan.shouldTransfer = true)
    (hblock : block ∈
      worker.groupBlocks job.localBlockIds job.remoteBlockIds pair.1.groupIndex) :
    ∃ d ∈ copies, d.CopiesShare plan pair block := by
  obtain ⟨ids, remoteIds, hget, hcopies⟩ := regionDescriptors_cases h
  rw [← (planRequest_spec hrequest).2 _ _ _ hget] at hblock
  rcases hcopies with ⟨rfl, -⟩ | ⟨plan', hplan', rfl⟩
  · cases hblock
  · obtain rfl : plan = plan' := Except.ok.inj (hplan.symm.trans hplan')
    rw [if_pos hsend]
    exact copyBlocks_covers hblock

theorem regionDescriptors_nonneg {groups : List (List Nat × List Nat)} {copies : List Descriptor}
    (h : worker.regionDescriptors (jobMetadata job) groups pair = .ok copies) :
    ∀ d ∈ copies, 0 ≤ d.length := by
  intro d hd
  obtain ⟨_, _, -, ⟨-, rfl⟩ | ⟨_, -, rfl⟩⟩ := regionDescriptors_cases h
  · cases hd
  · split at hd
    · exact copyBlocks_nonneg hd
    · cases hd

/-- **What a successful open has written.** A job that returns without an error has matched
every raw region and written the blocks that are asked for exactly if the alignment found no
error and this rank is to send each raw region that has blocks. -/
theorem openProducer_written_iff {done : JobDone}
    (h : (worker.sessionJobOpenProducer codes job).result = .ok done) :
    worker.RawRegionsWritten codes job ↔
      ∃ pairs, worker.alignedRegions job = .ok (pairs, none) ∧
        ∀ pair ∈ pairs, worker.IsRaw pair.1 →
          worker.groupBlocks job.localBlockIds job.remoteBlockIds pair.1.groupIndex ≠ [] →
          ∃ plan, worker.transferPlan (jobMetadata job) pair.1 pair.2 = .ok plan ∧
            plan.shouldTransfer = true := by
  obtain ⟨localIds, remoteIds, validTokens, descriptors, hplan, hwritten⟩ :=
    sessionJobOpenProducer_ok h
  obtain ⟨aligned, haligned, hrequest⟩ := planOpen_cases hplan
  constructor
  · rintro ⟨localRegions, pairs, -, hpairs, -, hblocks⟩
    refine ⟨pairs, hpairs, fun pair hpair hraw hne => ?_⟩
    obtain ⟨block, hblock⟩ := List.exists_mem_of_ne_nil _ hne
    obtain ⟨plan, d, htransfer, hd, -, -⟩ := hblocks pair hpair hraw block hblock
    exact ⟨plan, htransfer, shouldTransfer_of_mem_regionCopies hd htransfer⟩
  · rintro ⟨pairs, hpairs, hsend⟩
    obtain rfl : aligned = (pairs, none) := Except.ok.inj (haligned.symm.trans hpairs)
    obtain ⟨localRegions, hlocal, hrest⟩ := bind_eq_ok.mp hpairs
    obtain ⟨remoteRegions, -, hrest⟩ := bind_eq_ok.mp hrest
    have hmatched : pairs.map Prod.fst = localRegions := by
      have hfst := alignKeyed_fst (Except.ok.inj hrest)
      rwa [List.map_nil, List.nil_append, keyedRegions_snd] at hfst
    refine ⟨localRegions, pairs, hlocal, hpairs, fun region hregion _ => ?_,
      fun pair hpair hraw block hblock => ?_⟩
    · rw [← hmatched] at hregion
      obtain ⟨pair, hpair, rfl⟩ := List.mem_map.mp hregion
      exact ⟨pair.2, hpair⟩
    · rcases hrequest with hskip | ⟨groups, copies, hrequest, hcopies, rfl⟩
      · -- a request is skipped only if there is nothing to copy
        rw [(planRequest_spec hskip).2] at hblock
        cases hblock
      · have hall := mapM_eq_ok.mp hcopies
        obtain ⟨ds, hds, hregion⟩ := exists_mem_of_forall₂ hall
          (List.mem_filter.mpr ⟨hpair, decide_eq_true hraw⟩)
        obtain ⟨plan, htransfer, hshould⟩ := hsend pair hpair hraw (List.ne_nil_of_mem hblock)
        obtain ⟨d, hd, hcovers⟩ :=
          regionDescriptors_covers hrequest hregion htransfer hshould hblock
        refine ⟨plan, d, htransfer, ?_, hcovers, hwritten (fun d' hd' => ?_) d
          (List.mem_flatten_of_mem hds hd)⟩
        · rw [regionCopies, hrequest]
          dsimp only
          rw [hregion]
          exact hd
        · obtain ⟨ds', hds', hd'⟩ := List.mem_flatten.mp hd'
          obtain ⟨pair', -, hregion'⟩ := exists_mem_of_forall₂ hall.flip hds'
          exact regionDescriptors_nonneg hregion' d' hd'

/-- With both layers registered on both sides, block 2 of `gdn` goes to block 4 of the
consumer. -/
theorem openProducer_written_iff_hybrid :
    hybrid.groupBlocks (hybridJob 2).localBlockIds (hybridJob 2).remoteBlockIds 1 = [(2, 4)] ∧
      (hybrid.sessionJobOpenProducer (fun _ => 0) (hybridJob 2)).calls =
        [⟨[⟨2000 + 2 * 32, 6000 + 4 * 32, 32⟩], 0⟩] ∧
      hybrid.RawRegionsWritten (fun _ => 0) (hybridJob 2) := by
  have hdone : (hybrid.sessionJobOpenProducer (fun _ => 0) (hybridJob 2)).result =
      .ok { logicalBlockCount := 1, totalChunks := 2, localBlockIds := [[1], [2]]
            validTokensByGroup := [(0, 4)] } := by decide +kernel
  let attn : TransferRegion × TransferRegion :=
    (⟨"attn", 0, 1000, 64, 64, 0⟩, ⟨"attn", 0, 5000, 64, 64, 0⟩)
  let gdn : TransferRegion × TransferRegion :=
    (⟨"gdn", 1, 2000, 32, 32, 1⟩, ⟨"gdn", 1, 6000, 32, 32, 1⟩)
  have hpairs : hybrid.alignedRegions (hybridJob 2) = .ok ([attn, gdn], none) := by
    decide +kernel
  have hsend : ∀ pair ∈ [attn, gdn],
      hybrid.transferPlan (jobMetadata (hybridJob 2)) pair.1 pair.2 =
        .ok ⟨true, 0, 0, pair.1.blockLen⟩ := by decide +kernel
  refine ⟨by decide +kernel, by decide +kernel, (openProducer_written_iff hdone).mpr
    ⟨_, hpairs, fun pair hpair _ _ => ⟨_, hsend pair hpair, rfl⟩⟩⟩

/-- A consumer without the recurrent layer: the job succeeds and writes nothing. -/
theorem openProducer_skips_raw :
    (hybrid.sessionJobOpenProducer (fun _ => 0) (hybridJob 1)).result =
        .ok { logicalBlockCount := 1, totalChunks := 2, localBlockIds := [[1], [2]]
              validTokensByGroup := [(0, 4)] } ∧
      (hybrid.sessionJobOpenProducer (fun _ => 0) (hybridJob 1)).calls = [] ∧
      ¬ hybrid.RawRegionsWritten (fun _ => 0) (hybridJob 1) := by
  refine ⟨by decide +kernel, by decide +kernel, ?_⟩
  rintro ⟨_, pairs, -, hpairs, -⟩
  have herror : (hybrid.alignedRegions (hybridJob 1)).toOption.map (·.2.isSome) = some true := by
    decide +kernel
  rw [hpairs] at herror
  cases herror

end ProducerWorker

end KVServe.Engine

import KVServe.Store.JobReads
import KVServe.Store.References

/-!
# KVServe.Store.Runs

**What holds over whole runs of the store connector.** From the balance of references:

* a block that a job is still to read is not given out anew, from the metadata that carries the
  job to the last put of the last rank;
* the scheduler never meets a job reported by too many ranks;
* the scheduler has work pending exactly while some rank owes a report on a job with blocks,
  and without any, the pool's references are the engine's own.

A finish-time tail pins the blocks of its boundary states only. What its puts read of the
request's other groups has no reference of its own.
-/

namespace KVServe.Store

open Custody (Desk Balanced reported)
open MooncakeStoreScheduler (desk jobBlocks jobCount)

namespace StoreSystem

variable {dep : StoreDeployment} {sys sys' : StoreSystem} {action : StoreAction}

/-! ### Jobs on their way -/

/-- A meta that waits in the scheduler or is with a rank. -/
def OnWay (dep : StoreDeployment) (sys : StoreSystem) (m : ReqMeta) : Prop :=
  m ∈ sys.tailMetas ∨ ∃ i < dep.store.numWorkers, m ∈ (sys.ranks i).metas

theorem OnWay.held {m : ReqMeta} (hm : OnWay dep sys m) (h : Custodial dep sys) :
    MooncakeStoreScheduler.Held (needs dep.store sys.tails) (desk sys.scheduler sys.pool) m := by
  rcases hm with hm | ⟨i, hi, hm⟩
  · exact (h.tails m hm).1
  · exact h.held i hi m hm

/-- **Frame of a step.** Numbers are not reused, tails stay tails, and an old job that is on
its way was on its way before. -/
structure Onward (dep : StoreDeployment) (sys sys' : StoreSystem) : Prop where
  next : sys.scheduler.nextStoreJobId ≤ sys'.scheduler.nextStoreJobId
  tails : ∀ m, needs dep.store sys'.tails m ⊆ needs dep.store sys.tails m
  onWay : ∀ m job, m.storeJobId = some job → job < sys.scheduler.nextStoreJobId →
    OnWay dep sys' m → OnWay dep sys m

theorem Onward.of_same {scheduler : MooncakeStoreScheduler} {pool : BlockPool}
    {engine epoch : BlockId → Nat}
    (hsame : MooncakeStoreScheduler.SameJobs sys.scheduler scheduler) :
    Onward dep sys { sys with scheduler, pool, engine, epoch } where
  next := Nat.le_of_eq hsame.next.symm
  tails m := List.Subset.refl _
  onWay m job _ _ hm := by
    rcases hm with hm | hm
    · rw [tailMetas, hsame.tails] at hm
      exact Or.inl hm
    · exact Or.inr hm

theorem onward_of_step (h : Custodial dep sys) (hstep : step dep sys action = some sys') :
    Onward dep sys sys' := by
  cases action with
  | lookup reqId numTokens answer numComputedTokens =>
      obtain rfl := Option.some.inj hstep
      exact .of_same (sameJobs_lookup ..)
  | allocate reqId tables numExternalTokens =>
      simp only [step] at hstep
      split at hstep
      · next scheduler halloc =>
          obtain rfl := Option.some.inj hstep
          exact .of_same (sameJobs_allocate halloc)
      · cases hstep
  | schedule requests out =>
      simp only [step] at hstep
      split at hstep
      · next scheduler pool metadata hbuild =>
          obtain rfl := Option.some.inj hstep
          obtain ⟨-, -, hnext, htails, -, -⟩ :=
            MooncakeStoreScheduler.buildConnectorMeta_desk (needs_subset dep.store sys.tails) hbuild
              h.balanced h.tails
          refine ⟨hnext, fun _ => List.Subset.refl _, fun m job hjob hlt hm => ?_⟩
          rcases hm with hm | ⟨i, hi, hm⟩
          · simp [tailMetas, htails] at hm
          · rcases Rank.mem_metas_push hm with hm | hm
            · exact Or.inr ⟨i, hi, hm⟩
            · exact Or.inl (MooncakeStoreScheduler.buildConnectorMeta_origin hbuild m
                (List.mem_of_mem_filter hm) job hjob hlt)
      · cases hstep
  | finishTail reqId blockHashes tables offloads =>
      simp only [step] at hstep
      split at hstep
      · next scheduler pool hregister =>
          obtain rfl := Option.some.inj hstep
          rcases MooncakeStoreScheduler.registerFinishedPartialTail_desk hregister with
            ⟨rfl, rfl⟩ | ⟨m₀, pinned, -, hjob₀, -, -, htails, hdesk⟩
          · rw [if_neg (Nat.lt_irrefl _)]
            exact .of_same (.refl _)
          · have hnext : scheduler.nextStoreJobId = sys.scheduler.nextStoreJobId + 1 :=
              congrArg Desk.next hdesk
            rw [if_pos (hnext ▸ Nat.lt_succ_self _)]
            refine ⟨Nat.le_of_lt (hnext ▸ Nat.lt_succ_self _), needs_cons _ _ _,
              fun m job hjob hlt hm => ?_⟩
            rcases hm with hm | hm
            · rw [tailMetas, htails, List.map_append] at hm
              rcases List.mem_append.mp hm with hm | hm
              · exact Or.inl hm
              · obtain rfl := List.mem_singleton.mp hm
                obtain rfl := Option.some.inj (hjob₀.symm.trans hjob)
                exact absurd hlt (Nat.lt_irrefl _)
            · exact Or.inr hm
      · cases hstep
  | resetCache =>
      obtain rfl := Option.some.inj hstep
      exact .of_same ⟨rfl, rfl, rfl⟩
  | collect list =>
      simp only [step] at hstep
      split at hstep
      · cases hstep
      · next ranks completed htake =>
          obtain ⟨scheduler, pool, hupdate, hscheduler, -⟩ := h.collect htake
          rw [hupdate] at hstep
          obtain rfl := Option.some.inj hstep
          refine ⟨by rw [hscheduler], fun _ => List.Subset.refl _, fun m job _ _ hm => ?_⟩
          rcases hm with hm | ⟨i, hi, hm⟩
          · rw [tailMetas, hscheduler] at hm
            exact Or.inl hm
          · exact Or.inr ⟨i, hi, ((takeOutputs_spec htake).2 i).1 ▸ hm⟩
  | rank i act =>
      simp only [step] at hstep
      split at hstep
      · next hi =>
          obtain ⟨r, hr, rfl⟩ := Option.map_eq_some_iff.mp hstep
          obtain ⟨-, hmetas, -⟩ := Rank.step_owes (h.tasked i hi) hr
          refine ⟨Nat.le_refl _, fun _ => List.Subset.refl _, fun m job _ _ hm => ?_⟩
          rcases hm with hm | ⟨k, hk, hm⟩
          · exact Or.inl hm
          · refine Or.inr ⟨k, hk, ?_⟩
            by_cases hki : k = i
            · subst hki
              simp only [Function.update_self] at hm
              exact hmetas hm
            · simp only [Function.update_of_ne hki] at hm
              exact hm
      · cases hstep
  | allocBlock b =>
      simp only [step] at hstep
      split at hstep
      · obtain rfl := Option.some.inj hstep
        exact .of_same (.refl _)
      · cases hstep
  | touchBlock b =>
      obtain rfl := Option.some.inj hstep
      exact .of_same (.refl _)
  | freeBlock b =>
      simp only [step] at hstep
      split at hstep
      · obtain rfl := Option.some.inj hstep
        exact .of_same (.refl _)
      · cases hstep

/-! ### Blocks are not given out while they are read -/

/-- A block that a job on its way needs has a reference beside the engine's. -/
theorem refs_of_onWay (h : Custodial dep sys) {m : ReqMeta} {b : BlockId}
    (hm : OnWay dep sys m) (hsave : m.canSave = true) (hb : b ∈ needs dep.store sys.tails m) :
    (sys.engine b : Int) < sys.pool b := by
  obtain ⟨job, -, hblocks⟩ := hm.held h hsave
  exact h.balanced.refs_pos (hblocks b hb)

/-- A step gives out a block anew only when nobody references it. -/
theorem epoch_of_step {b : BlockId} (hstep : step dep sys action = some sys')
    (hpos : (0 : Int) < sys.pool b) : sys'.epoch b = sys.epoch b := by
  cases action with
  | lookup _ _ _ _ => cases hstep; rfl
  | allocate _ _ _ =>
      simp only [step] at hstep
      split at hstep <;> cases hstep
      rfl
  | schedule _ _ =>
      simp only [step] at hstep
      split at hstep <;> cases hstep
      rfl
  | finishTail _ _ _ _ =>
      simp only [step] at hstep
      split at hstep <;> cases hstep
      rfl
  | resetCache => cases hstep; rfl
  | collect _ =>
      simp only [step] at hstep
      split at hstep
      · cases hstep
      · split at hstep <;> cases hstep
        rfl
  | rank _ _ =>
      simp only [step] at hstep
      split at hstep
      · obtain ⟨_, -, rfl⟩ := Option.map_eq_some_iff.mp hstep
        rfl
      · cases hstep
  | allocBlock b' =>
      simp only [step] at hstep
      split at hstep
      · next hfree =>
          cases hstep
          have hne : b ≠ b' := by
            rintro rfl
            omega
          exact Function.update_of_ne hne _ _
      · cases hstep
  | touchBlock _ => cases hstep; rfl
  | freeBlock _ =>
      simp only [step] at hstep
      split at hstep <;> cases hstep
      rfl

/-- **A block a job needs is the same block all along**: from any point after the job was
numbered, in any interleaving, until no rank has it any more. -/
theorem epoch_of_onWay {s t : StoreSystem} {m : ReqMeta} {job : Nat} {b : BlockId}
    (hs : (machine dep).Reachable s) (hpath : (machine dep).Path (fun _ _ => True) s t)
    (hsave : m.canSave = true) (hjob : m.storeJobId = some job)
    (hissued : job < s.scheduler.nextStoreJobId) (hm : OnWay dep t m)
    (hb : b ∈ needs dep.store t.tails m) : t.epoch b = s.epoch b := by
  suffices job < t.scheduler.nextStoreJobId ∧ (OnWay dep t m → b ∈ needs dep.store t.tails m →
      t.epoch b = s.epoch b) from this.2 hm hb
  clear hm hb
  induction hpath with
  | refl => exact ⟨hissued, fun _ _ => rfl⟩
  | @step t u a hp _ hstep ih =>
      have hinv := custodial_of_reachable (Machine.ReachWith.of_path hs hp)
      have hon := onward_of_step hinv hstep
      refine ⟨Nat.lt_of_lt_of_le ih.1 hon.next, fun hm hb => ?_⟩
      have hm' := hon.onWay m job hjob ih.1 hm
      have hb' := hon.tails m hb
      have hrefs := refs_of_onWay hinv hm' hsave hb'
      rw [epoch_of_step hstep (by omega), ih.2 hm' hb']

/-- Taking outputs leaves a rank's ledger, and it owes no more. -/
theorem takeOutputs_keeps {n : Nat} {ranks ranks' : Nat → Rank}
    {completed completed' : CompletedSaves} {list : List Nat}
    (h : takeOutputs n ranks completed list = some (ranks', completed')) (i : Nat) :
    (ranks' i).ledger = (ranks i).ledger ∧ ∀ j, (ranks' i).owes j ≤ (ranks i).owes j := by
  induction list generalizing ranks completed with
  | nil =>
      obtain ⟨rfl, rfl⟩ := Prod.mk.inj (Option.some.inj h)
      exact ⟨rfl, fun _ => Nat.le_refl _⟩
  | cons k list ih =>
      rw [takeOutputs] at h
      split at h
      · cases h
      · next output outbox houtbox =>
          split at h
          · next hk =>
              obtain ⟨hledger, howes⟩ := ih h
              by_cases hik : i = k
              · subst hik
                rw [Function.update_self] at hledger howes
                refine ⟨hledger, fun j => Nat.le_trans (howes j) ?_⟩
                simp [Rank.owes, Rank.metas, houtbox]
              · rw [Function.update_of_ne hik] at hledger howes
                exact ⟨hledger, howes⟩
          · cases h

/-- **A step is one of a rank, or it leaves what the ranks' threads work on alone.** -/
theorem rank_of_step (hstep : step dep sys action = some sys') :
    (∃ k act r, action = .rank k act ∧
      (sys.ranks k).step (dep.send k) dep.store.canPut act = some r ∧
      sys' = { sys with ranks := Function.update sys.ranks k r }) ∨
    (∀ k act, action ≠ .rank k act) ∧ ∀ i, (sys'.ranks i).ledger = (sys.ranks i).ledger ∧
      (sys'.ranks i).handling = (sys.ranks i).handling := by
  cases action with
  | rank k act =>
      simp only [step] at hstep
      split at hstep
      · obtain ⟨r, hr, rfl⟩ := Option.map_eq_some_iff.mp hstep
        exact Or.inl ⟨k, act, r, rfl, hr, rfl⟩
      · cases hstep
  | collect list =>
      refine Or.inr ⟨fun k act heq => (by cases heq), fun i => ?_⟩
      simp only [step] at hstep
      split at hstep
      · cases hstep
      · next ranks completed htake =>
          split at hstep <;> cases hstep
          exact ⟨(takeOutputs_keeps htake i).1, ((takeOutputs_spec htake).2 i).2.2⟩
  | _ =>
      refine Or.inr ⟨fun k act heq => (by cases heq), fun i => ?_⟩
      simp only [step] at hstep
      all_goals
        try split at hstep
      all_goals
        cases hstep <;> exact ⟨rfl, rfl⟩

/-- The running job of a rank reads its own blocks, in every reachable state. -/
theorem reads_of_reachable (h : (machine dep).Reachable sys) :
    ∀ i < dep.store.numWorkers, (sys.ranks i).Reads dep.store := by
  refine Machine.invariant
    (I := fun sys => ∀ i < dep.store.numWorkers, (sys.ranks i).Reads dep.store)
    (fun sys hinit i _ => ?_) (fun sys action sys' _ hinv _ hstep i hi => ?_) h
  · rw [hinit.ranks i]
    exact fun h phase hget => nomatch hget
  · rcases rank_of_step hstep with ⟨k, act, r, rfl, hr, rfl⟩ | ⟨-, hkeep⟩
    · by_cases hik : i = k
      · subst hik
        simp only [Function.update_self]
        exact (hinv i hi).step (dep.agrees i) hr
      · simp only [Function.update_of_ne hik]
        exact hinv i hi
    · exact fun h phase hget => hinv i hi h phase ((hkeep i).2 ▸ hget)

/-- **What a rank puts is what the scheduler pinned.** While the sending thread of any rank
looks up or puts the blocks of a job, each block has a reference beside the engine's own and was
not given out anew since the job was numbered, however the steps of the engine, the scheduler
and the ranks interleave. Of a finish-time tail this holds for the blocks of its boundary
states. -/
theorem putBlocks_kept {s t : StoreSystem} {i job : Nat} {h : Handling} {phase : Phase}
    {b : BlockId} (hs : (machine dep).Reachable s)
    (hpath : (machine dep).Path (fun _ _ => True) s t) (hi : i < dep.store.numWorkers)
    (hhandling : (t.ranks i).handling = some (h, phase)) (hjob : h.req.storeJobId = some job)
    (hissued : job < s.scheduler.nextStoreJobId) (hb : b ∈ phase.blocks)
    (hown : job ∉ t.tails ∨ b ∈ MooncakeStoreScheduler.offloadBlocks h.req) :
    (t.engine b : Int) < t.pool b ∧ t.epoch b = s.epoch b := by
  have ht := Machine.ReachWith.of_path hs hpath
  have hinv := custodial_of_reachable ht
  have hmem : h.req ∈ (t.ranks i).metas :=
    Rank.mem_metas.mpr (.inr (.inr (.inr ⟨_, hhandling, rfl⟩)))
  have hsave := ((hinv.tasked i hi).numbered h.req hmem).1
  have hneeds : b ∈ needs dep.store t.tails h.req := by
    rcases hown with htail | hoffload
    · have hall : needs dep.store t.tails h.req = jobBlocks dep.store h.req := by
        simp [needs, hjob, htail, jobBlocks]
      exact hall ▸ reads_of_reachable ht i hi h phase hhandling b hb
    · exact List.mem_append_left _ hoffload
  have hon : OnWay dep t h.req := Or.inr ⟨i, hi, hmem⟩
  exact ⟨refs_of_onWay hinv hon hsave hneeds,
    epoch_of_onWay hs hpath hsave hjob hissued hon hneeds⟩

/-! ### A small deployment -/

/-- A producer with two ranks and one cache group, whose blocks have one token. -/
def twoRanks : StoreDeployment where
  store :=
    { kvRole := .kvProducer, loadAsync := true, enableLookup := true, saveDecodeCache := false
      enableKvEvents := false, storeGroupIds := [0], boundaryStateGroupIds := [], blockSize := 1
      hashBlockSize := 1, enablePartialHashHits := false, numWorkers := 2
      workersPos := Nat.zero_lt_two }
  send i :=
    { tpRank := i
      groups :=
        [{ sizes := ⟨1, 1, Nat.one_pos, Nat.one_pos, Nat.dvd_refl 1⟩, mamba := false
           participates := true, putStep := 1, localShardIds := [0]
           keyFor := fun _ hash => String.ofList (hash.map fun byte => Char.ofNat byte.toNat)
           reachableBlockMask := fun _ _ _ => none }]
      lcmBlockSize := 1, hashBlockSize := 1, enableKvEvent := false
      enablePartialHashHits := false }
  agrees i g group hget := by
    obtain rfl : group = _ := by
      cases g with
      | zero => exact (Option.some.inj hget).symm
      | succ g => cases hget
    simp

/-- The engine holds block 7 for a request. -/
def oneBlock : StoreSystem where
  scheduler := {}
  pool b := if b = 7 then 1 else 0
  engine b := if b = 7 then 1 else 0
  epoch _ := 0
  ranks _ := {}
  tails := []

theorem init_oneBlock : Init oneBlock :=
  ⟨rfl, fun b => by simp only [oneBlock]; split <;> rfl, fun _ => rfl, rfl⟩

/-- The request is allocated and scheduled, with one token. -/
def scheduleOne : List StoreAction :=
  [.allocate "r" [[7]] 0,
   .schedule (fun _ => { numTokens := 1, numComputedTokens := 0, allTokenIds := [5], blockHashes := [[104]] })
    { finishedReqIds := [], preemptedReqIds := [], resumedReqIds := [], scheduledCachedReqs := []
      scheduledNewReqs :=
        [{ reqId := "r", numComputedTokens := 0, blockIds := [[7]], promptTokenIds := some [5]
           prefillTokenIds := none }]
      numScheduledTokens := fun _ => some 1
      blockState := some { boundaryStateOffloads := [], getBlockIds := fun _ => some [[7]] } }]

/-- The request's blocks go back to the engine while rank 0 is about to look up its key. -/
def saveOne : List StoreAction :=
  [.rank 0 .receive, .rank 0 .save, .rank 0 .take, .rank 0 (.work .none), .rank 0 (.work .none),
   .freeBlock 7, .rank 0 (.work .none), .rank 0 (.work .none), .rank 0 (.work .none)]

theorem putBlocks_kept_twoRanks : ∃ s t, (machine twoRanks).Reachable s ∧
    (machine twoRanks).Path (fun _ _ => True) s t ∧ (t.engine 7 : Int) < t.pool 7 ∧
    t.epoch 7 = s.epoch 7 := by
  have hs : (((machine twoRanks).exec (fun _ _ => true) oneBlock scheduleOne).map
      (·.scheduler.nextStoreJobId)) = some 1 := by decide +kernel
  have ht : (((machine twoRanks).exec (fun _ _ => true) oneBlock (scheduleOne ++ saveOne)).map
      fun t => ((t.ranks 0).handling.map fun entry => (entry.1.req.storeJobId, entry.2.blocks),
        t.tails)) = some (some (some 0, [7]), []) := by decide +kernel
  obtain ⟨s, hs, hnext⟩ := Option.map_eq_some_iff.mp hs
  rw [Machine.exec_append, hs, Option.bind_some] at ht
  obtain ⟨t, ht, hfacts⟩ := Option.map_eq_some_iff.mp ht
  obtain ⟨hhandling, htails⟩ := Prod.mk.inj hfacts
  obtain ⟨⟨h, phase⟩, hhandling, hreq⟩ := Option.map_eq_some_iff.mp hhandling
  obtain ⟨hjob, hblocks⟩ := Prod.mk.inj hreq
  have hreach : (machine twoRanks).Reachable s :=
    (Machine.reachWith_of_exec init_oneBlock hs).mono fun _ _ _ => trivial
  have hpath : (machine twoRanks).Path (fun _ _ => True) s t :=
    (Machine.path_of_exec ht).mono fun _ _ _ => trivial
  exact ⟨s, t, hreach, hpath,
    putBlocks_kept hreach hpath Nat.zero_lt_two hhandling hjob
      (by rw [hnext]; exact Nat.one_pos) (by rw [hblocks]; exact List.mem_cons_self)
      (Or.inl (by rw [htails]; exact List.not_mem_nil))⟩

/-! ### Reports -/

/-- **No job is reported by too many ranks**: whatever outputs of the ranks come together, in
every reachable state, `update_connector_output` raises nothing, and afterwards each pinned job
waits for exactly the reports the ranks still owe on it, of which there is at least one. -/
theorem collect_settles {list : List Nat} {ranks : Nat → Rank} {completed : CompletedSaves}
    (hs : (machine dep).Reachable sys)
    (htake : takeOutputs dep.store.numWorkers sys.ranks [] list = some (ranks, completed)) :
    ∃ scheduler pool,
      sys.scheduler.updateConnectorOutput sys.pool completed = .ok (scheduler, pool) ∧
      ∀ job blocks remaining, Assoc.get job scheduler.pinnedSaves = some (blocks, remaining) →
        remaining = owed dep.store.numWorkers ranks job +
          dep.store.numWorkers * jobCount job sys.tailMetas ∧ 0 < remaining := by
  obtain ⟨scheduler, pool, hupdate, hscheduler, hinv⟩ :=
    (custodial_of_reachable hs).collect htake
  refine ⟨scheduler, pool, hupdate, fun job blocks remaining hget => ?_⟩
  have hwaits := hinv.balanced.waits job blocks remaining hget
  rw [tailMetas, hscheduler] at hwaits
  exact hwaits

/-- Rank 0 finds the key in the store and reports the job. -/
def reportOne : List StoreAction :=
  [.rank 0 (.work (.codes [1])), .rank 0 (.work .none), .rank 0 (.work .none), .rank 0 .finish,
   .rank 0 .report]

theorem collect_settles_twoRanks : ∃ sys ranks completed scheduler pool,
    (machine twoRanks).Reachable sys ∧
    takeOutputs 2 sys.ranks [] [0] = some (ranks, completed) ∧
    sys.scheduler.updateConnectorOutput sys.pool completed = .ok (scheduler, pool) := by
  have hs : (((machine twoRanks).exec (fun _ _ => true) oneBlock
      (scheduleOne ++ saveOne ++ reportOne)).map
        fun sys => (takeOutputs 2 sys.ranks [] [0]).isSome) = some true := by decide +kernel
  obtain ⟨sys, hs, htake⟩ := Option.map_eq_some_iff.mp hs
  obtain ⟨⟨ranks, completed⟩, htake⟩ := Option.isSome_iff_exists.mp htake
  have hreach : (machine twoRanks).Reachable sys :=
    (Machine.reachWith_of_exec init_oneBlock hs).mono fun _ _ _ => trivial
  obtain ⟨scheduler, pool, hupdate, -⟩ := collect_settles hreach htake
  exact ⟨sys, ranks, completed, scheduler, pool, hreach, htake, hupdate⟩

/-- When nothing is owed, the references of the pool are the engine's own. -/
theorem pool_of_nothing_owed (h : Custodial dep sys)
    (hnone : ∀ i < dep.store.numWorkers, ∀ job, (sys.ranks i).owes job = 0)
    (htails : sys.tailMetas = []) :
    sys.scheduler.hasPendingPushWork = false ∧ ∀ b, sys.pool b = sys.engine b := by
  have hopened : (desk sys.scheduler sys.pool).opened = [] :=
    h.balanced.opened_eq_nil fun job => by
      rw [htails, owed, Finset.sum_eq_zero fun i hi => hnone i (Finset.mem_range.mp hi) job]
      rfl
  refine ⟨?_, fun b => ?_⟩
  · have hpinned : sys.scheduler.pinnedSaves = [] := hopened
    simp [MooncakeStoreScheduler.hasPendingPushWork, hpinned]
  · have hrefs : sys.pool b =
        sys.engine b + (Custody.held (desk sys.scheduler sys.pool).opened b : Int) :=
      h.balanced.refs b
    rw [hopened, Custody.held_nil] at hrefs
    simpa using hrefs

end StoreSystem

end KVServe.Store

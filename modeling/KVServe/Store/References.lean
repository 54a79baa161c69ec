import KVServe.Store.SchedulerJobs
import KVServe.Store.System
import Mathlib.Algebra.BigOperators.Group.Finset.Basic
import Mathlib.Algebra.BigOperators.Intervals
import Mathlib.Algebra.Group.Action.Defs

/-!
# KVServe.Store.References

**The references of store jobs over whole runs.** What a rank still owes on a job is counted
over everything that is on its way: metadata, jobs to add, the queue, the running job, and the
reports not yet collected. A step of a rank moves a job along and owes what it owed before;
only collecting an output takes something off.

The invariant is the balance of the scheduler's desk against the sum over the ranks. From it:
every block of an unfinished job keeps a reference, so the engine cannot give it out anew;
no job is ever reported by too many ranks; and once the ranks have nothing left, the only
references on the pool are the engine's.
-/

namespace KVServe.Store

open Session (ReqId)
open Custody (Desk Balanced reported)
open MooncakeStoreScheduler (desk carries jobCount Held jobBlocks offloadBlocks tableBlocks)

/-! ### Reports -/

namespace CompletedSaves

theorem reported_set (job n : Nat) (j : Nat) (completed : CompletedSaves) :
    reported j (Assoc.set job ((Assoc.get job completed).getD 0 + n) completed) =
      reported j completed + if j = job then n else 0 := by
  induction completed with
  | nil => simp [Assoc.set, Assoc.get]
  | cons entry completed ih =>
      by_cases h : entry.1 = job
      · by_cases hj : j = job <;> simp [Assoc.set, Assoc.get, h, hj]
        omega
      · simp only [Assoc.set, Assoc.get, if_neg h, Custody.reported_cons, ih]
        omega

/-- What a rank adds to its report. -/
theorem reported_add (completed : CompletedSaves) (job n j : Nat) :
    reported j (completed.add job n) = reported j completed + if j = job then n else 0 :=
  reported_set job n j completed

/-- **Aggregating reports adds them up.** -/
theorem reported_aggregate (completed other : CompletedSaves) (j : Nat) :
    reported j (completed.aggregate other) = reported j completed + reported j other := by
  induction other generalizing completed with
  | nil => rfl
  | cons entry other ih =>
      rw [aggregate, List.foldl_cons, ← aggregate, ih, reported_add, Custody.reported_cons]
      omega

end CompletedSaves

/-! ### What a rank owes -/

namespace Rank

variable {cfg : SendConfig} {canPut : Bool} {r r' : Rank} {action : RankAction} {j : Nat}

/-- The reports on a job that this rank has yet to bring back. -/
def owes (j : Nat) (r : Rank) : Nat :=
  jobCount j r.metas + reported j r.ledger.completedSaves + (r.outbox.map (reported j)).sum

theorem mem_metas {m : ReqMeta} : m ∈ r.metas ↔
    (∃ message ∈ r.inbox, m ∈ message.metadata.saves) ∨ m ∈ r.saving ∨
      m ∈ r.ledger.requestQueue ∨ ∃ entry ∈ r.handling, entry.1.req = m := by
  simp [metas, List.mem_flatMap]

/-- The jobs of a rank: numbered, and only where ranks take them up. -/
structure Tasked (canPut : Bool) (r : Rank) : Prop where
  numbered : ∀ m ∈ r.metas, m.canSave = true ∧ m.storeJobId.isSome = true
  wanted : canPut = false → ∀ message ∈ r.inbox, message.metadata.saves = []

theorem close_keeps (r : Rank) (closing : Closing) : (r.close closing).metas = r.metas ∧
    (r.close closing).ledger.completedSaves = r.ledger.completedSaves ∧
    (r.close closing).outbox = r.outbox ∧ (r.close closing).inbox = r.inbox := by
  cases closing with
  | preempted reqId => exact ⟨rfl, rfl, rfl, rfl⟩
  | ended reqId =>
      simp only [close]
      split <;> exact ⟨rfl, rfl, rfl, rfl⟩

/-- **A step of a rank moves its jobs along**: it owes what it owed, and has no new job. -/
theorem step_owes (ht : Tasked canPut r) (hstep : r.step cfg canPut action = some r') :
    (∀ j, owes j r' = owes j r) ∧ r'.metas ⊆ r.metas ∧ r'.inbox ⊆ r.inbox := by
  cases stepped_of_step hstep with
  | receive message inbox _ hinbox hsaving hclosing =>
      refine ⟨fun j => ?_, fun m hm => ?_, ?_⟩
      · simp [owes, metas, hinbox, hsaving, List.flatMap_cons]
        omega
      · simpa [metas, hinbox, hsaving, or_comm, or_left_comm, or_assoc] using hm
      · simp [hinbox]
  | ignore message inbox hput hinbox =>
      have hnone := ht.wanted hput message (hinbox ▸ List.mem_cons_self)
      refine ⟨fun j => ?_, fun m hm => ?_, ?_⟩
      · simp [owes, metas, hinbox, hnone, List.flatMap_cons]
      · simpa [metas, hinbox, hnone] using hm
      · simp [hinbox]
  | save m saving ledger hsaving hadd =>
      obtain ⟨job, -, rfl⟩ := Ledger.addRequest_ok hadd
      refine ⟨fun j => ?_, fun m' hm' => ?_, List.Subset.refl _⟩
      · simp [owes, metas, hsaving]
        omega
      · simp only [metas, hsaving, List.mem_append, List.mem_cons, List.not_mem_nil,
          or_false] at hm' ⊢
        tauto
  | close closing rest hsaving hclosing =>
      obtain ⟨hmetas, hcompleted, houtbox, hinbox⟩ := close_keeps { r with closing := rest } closing
      refine ⟨fun j => ?_, ?_, ?_⟩
      · simp only [owes, hmetas, hcompleted, houtbox]
        rfl
      · exact hmetas ▸ List.Subset.refl _
      · rw [hinbox]
        exact List.Subset.refl _
  | report _ =>
      refine ⟨fun j => ?_, List.Subset.refl _, List.Subset.refl _⟩
      simp [owes, metas, Ledger.takeCompletedSaves]
      omega
  | take m queue hhandling hqueue =>
      refine ⟨fun j => ?_, fun m' hm' => ?_, List.Subset.refl _⟩
      · simp [owes, metas, hhandling, hqueue]
        omega
      · simp only [metas, hhandling, hqueue, Option.toList_some, Option.toList_none, List.map_cons,
          List.map_nil, List.mem_append, List.mem_cons, List.not_mem_nil, or_false] at hm' ⊢
        tauto
  | work answer h h' phase phase' ledger hhandling hhandle =>
      obtain ⟨hframe, hreq⟩ := SendConfig.handle_frame hhandle
      have hmetas : ({ r with ledger, handling := some (h', phase') } : Rank).metas = r.metas := by
        simp [metas, hframe.queue, hhandling, hreq]
      refine ⟨fun j => ?_, hmetas ▸ List.Subset.refl _, List.Subset.refl _⟩
      simp only [owes, hmetas, hframe.completed]
  | finish h ledger hhandling hfinish =>
      obtain ⟨job, hjob, hqueue, hcompleted⟩ := Ledger.finishStoreJob_ok hfinish
      refine ⟨fun j => ?_, fun m' hm' => ?_, List.Subset.refl _⟩
      · have hsave := (ht.numbered h.req (mem_metas.mpr (.inr (.inr (.inr
          ⟨_, hhandling, rfl⟩))))).1
        have hcarries : carries j h.req = decide (j = job) := by
          simp [carries, hsave, hjob, eq_comm]
        simp [owes, metas, hhandling, hqueue, hcompleted, CompletedSaves.reported_add, hcarries]
        omega
      · simp only [metas, hhandling, hqueue, Option.toList_none, List.map_nil,
          List.append_nil] at hm' ⊢
        exact List.mem_append_left _ hm'

/-- Metadata that is sent to a rank. -/
theorem owes_push (r : Rank) (message : StepMessage) (j : Nat) :
    owes j { r with inbox := r.inbox ++ [message] } =
      owes j r + jobCount j message.metadata.saves := by
  simp [owes, metas]
  omega

theorem mem_metas_push {message : StepMessage} {m : ReqMeta}
    (h : m ∈ ({ r with inbox := r.inbox ++ [message] } : Rank).metas) :
    m ∈ r.metas ∨ m ∈ message.metadata.saves := by
  rw [mem_metas] at h ⊢
  rcases h with ⟨message', hmem, hm⟩ | h
  · rcases List.mem_append.mp hmem with hmem | hmem
    · exact Or.inl (Or.inl ⟨message', hmem, hm⟩)
    · exact Or.inr (List.mem_singleton.mp hmem ▸ hm)
  · exact Or.inl (Or.inr h)

theorem Tasked.step (ht : Tasked canPut r) (hstep : r.step cfg canPut action = some r') :
    Tasked canPut r' := by
  obtain ⟨-, hmetas, hinbox⟩ := step_owes ht hstep
  exact ⟨fun m hm => ht.numbered m (hmetas hm),
    fun hput message hmem => ht.wanted hput message (hinbox hmem)⟩

end Rank

/-! ### The invariant -/

namespace StoreSystem

variable {dep : StoreDeployment} {sys sys' : StoreSystem} {action : StoreAction} {j : Nat}

/-- The finish-time tails that wait for the next metadata. -/
def tailMetas (sys : StoreSystem) : List ReqMeta :=
  sys.scheduler.finishedPartialTailMetas.map Prod.snd

/-- The blocks a job has a reference on: those of its boundary states and, unless it is a
finish-time tail, those of its request's tables. -/
def needs (cfg : StoreConfig) (tails : List Nat) (m : ReqMeta) : List BlockId :=
  offloadBlocks m ++ if m.storeJobId.any (· ∈ tails) then [] else tableBlocks cfg m

theorem needs_subset (cfg : StoreConfig) (tails : List Nat) (m : ReqMeta) :
    needs cfg tails m ⊆ jobBlocks cfg m := by
  intro b hb
  rcases List.mem_append.mp hb with hb | hb
  · exact List.mem_append_left _ hb
  · split at hb
    · cases hb
    · exact List.mem_append_right _ hb

/-- A job known as a tail needs no more than before. -/
theorem needs_cons (cfg : StoreConfig) (tails : List Nat) (job : Nat) (m : ReqMeta) :
    needs cfg (job :: tails) m ⊆ needs cfg tails m := by
  cases hjob : m.storeJobId with
  | none => simp [needs, hjob]
  | some j =>
      by_cases hmem : j ∈ tails
      · simp [needs, hjob, hmem]
      · by_cases heq : j = job <;> simp [needs, hjob, hmem, heq]

/-- What the ranks owe on a job together. -/
def owed (n : Nat) (ranks : Nat → Rank) (j : Nat) : Nat := ∑ i ∈ Finset.range n, (ranks i).owes j

/-- One rank's share of a sum over the ranks. -/
theorem sum_update {n i : Nat} (hi : i < n) (g : Rank → Nat) (ranks : Nat → Rank) (r : Rank) :
    (∑ k ∈ Finset.range n, g (Function.update ranks i r k)) + g (ranks i) =
      (∑ k ∈ Finset.range n, g (ranks k)) + g r := by
  have hmem : i ∈ Finset.range n := Finset.mem_range.mpr hi
  have hothers : ∑ k ∈ (Finset.range n).erase i, g (Function.update ranks i r k) =
      ∑ k ∈ (Finset.range n).erase i, g (ranks k) :=
    Finset.sum_congr rfl fun k hk => by rw [Function.update_of_ne (Finset.ne_of_mem_erase hk)]
  rw [← Finset.add_sum_erase _ _ hmem, hothers, Function.update_self,
    ← Finset.add_sum_erase _ (fun k => g (ranks k)) hmem]
  omega

/-- One rank's share of what all of them owe. -/
theorem owed_update {n i : Nat} (hi : i < n) (ranks : Nat → Rank) (r : Rank) (j : Nat) :
    owed n (Function.update ranks i r) j + (ranks i).owes j = owed n ranks j + r.owes j :=
  sum_update hi (Rank.owes j) ranks r

theorem owes_le_owed {n i : Nat} (hi : i < n) (ranks : Nat → Rank) (j : Nat) :
    (ranks i).owes j ≤ owed n ranks j := by
  rw [owed, ← Finset.add_sum_erase _ _ (Finset.mem_range.mpr hi)]
  exact Nat.le_add_right _ _

/-- A job on its way is owed. -/
theorem owed_pos {n i : Nat} (hi : i < n) {ranks : Nat → Rank} {m : ReqMeta}
    (hm : m ∈ (ranks i).metas) (hcarries : carries j m = true) : 0 < owed n ranks j := by
  refine Nat.lt_of_lt_of_le ?_ (owes_le_owed hi ranks j)
  have hcount : 0 < jobCount j (ranks i).metas := List.countP_pos_iff.mpr ⟨m, hm, hcarries⟩
  rw [Rank.owes]
  omega

/-- **The invariant.** The scheduler's desk is in balance with what the ranks owe and will owe
on the tails that wait; every job on its way holds its blocks. -/
structure Custodial (dep : StoreDeployment) (sys : StoreSystem) : Prop where
  balanced : Balanced (desk sys.scheduler sys.pool) sys.engine fun j =>
    owed dep.store.numWorkers sys.ranks j + dep.store.numWorkers * jobCount j sys.tailMetas
  tails : ∀ m ∈ sys.tailMetas,
    Held (needs dep.store sys.tails) (desk sys.scheduler sys.pool) m ∧ dep.store.canPut = true
  held : ∀ i < dep.store.numWorkers, ∀ m ∈ (sys.ranks i).metas,
    Held (needs dep.store sys.tails) (desk sys.scheduler sys.pool) m
  tasked : ∀ i < dep.store.numWorkers, (sys.ranks i).Tasked dep.store.canPut

theorem Held.needs_mono {needs needs' : ReqMeta → List BlockId} {d : Desk BlockId} {m : ReqMeta}
    (h : Held needs d m) (hsub : needs' m ⊆ needs m) : Held needs' d m := fun hsave => by
  obtain ⟨job, hjob, hblocks⟩ := h hsave
  exact ⟨job, hjob, fun b hb => hblocks b (hsub hb)⟩

/-- A job that a rank still owes a report on keeps its blocks. -/
theorem Held.settled {needs : ReqMeta → List BlockId} {d d' : Desk BlockId} {m : ReqMeta}
    {owed : Nat → Nat} (h : Held needs d m)
    (hkeep : ∀ j b, 0 < owed j → d.Holds j b → d'.Holds j b)
    (howed : ∀ job, carries job m = true → 0 < owed job) : Held needs d' m := fun hsave => by
  obtain ⟨job, hjob, hblocks⟩ := h hsave
  have hcarries : carries job m = true := by simp [carries, hsave, hjob]
  exact ⟨job, hjob, fun b hb => hkeep job b (howed job hcarries) (hblocks b hb)⟩

/-- A step that changes no job of the scheduler. -/
theorem Custodial.sameJobs {scheduler : MooncakeStoreScheduler} (h : Custodial dep sys)
    (hsame : MooncakeStoreScheduler.SameJobs sys.scheduler scheduler) :
    Custodial dep { sys with scheduler } := by
  have hdesk : desk scheduler sys.pool = desk sys.scheduler sys.pool := by
    simp only [desk, hsame.next, hsame.pinned]
  have htails : tailMetas { sys with scheduler } = sys.tailMetas := by
    simp only [tailMetas, hsame.tails]
  exact ⟨by rw [hdesk, htails]; exact h.balanced, by rw [hdesk, htails]; exact h.tails,
    by rw [hdesk]; exact h.held, h.tasked⟩

/-- What the engine does with references of its own. -/
theorem Custodial.setRefs {pool : BlockPool} {engine epoch : BlockId → Nat}
    (h : Custodial dep sys) (hrefs : ∀ b, pool b - sys.pool b = (engine b : Int) - sys.engine b) :
    Custodial dep { sys with pool, engine, epoch } where
  balanced := h.balanced.setRefs hrefs
  tails := h.tails
  held := h.held
  tasked := h.tasked

/-- The saves of a step's metadata are what its requests carry. -/
theorem jobCount_saves (metadata : MooncakeStoreConnectorMetadata) (j : Nat) :
    jobCount j metadata.saves = jobCount j metadata.requests := by
  rw [jobCount, MooncakeStoreConnectorMetadata.saves, List.countP_filter, jobCount]
  exact List.countP_congr fun m _ => by simpa [carries] using fun hsave _ => hsave

/-- **A step of the engine** sends new jobs, with a ticket for each that reads a block. -/
theorem Custodial.schedule {requests : ReqId → Request} {out : SchedulerOutput}
    (h : Custodial dep sys) (hstep : step dep sys (.schedule requests out) = some sys') :
    Custodial dep sys' := by
  simp only [step] at hstep
  split at hstep
  · next scheduler pool metadata hbuild =>
      obtain rfl := Option.some.inj hstep
      obtain ⟨hbal, hkeep, -, htails, hheld, hwanted⟩ :=
        MooncakeStoreScheduler.buildConnectorMeta_desk (needs_subset dep.store sys.tails) hbuild
          h.balanced h.tails
      refine ⟨?_, ?_, fun i hi m hm => ?_,
        fun i hi => ⟨fun m hm => ?_, fun hput message hmem => ?_⟩⟩
      · convert hbal using 2 with j
        simp only [owed, Rank.owes_push, jobCount_saves, Finset.sum_add_distrib, Finset.sum_const,
          Finset.card_range, smul_eq_mul, tailMetas, htails, List.map_nil,
          MooncakeStoreScheduler.jobCount_nil, Nat.mul_zero, Nat.add_zero]
      · simp [tailMetas, htails]
      · rcases Rank.mem_metas_push hm with hm | hm
        · exact (h.held i hi m hm).mono hkeep
        · exact hheld m (List.mem_of_mem_filter hm)
      · rcases Rank.mem_metas_push hm with hm | hm
        · exact (h.tasked i hi).numbered m hm
        · have hsave : m.canSave = true := List.of_mem_filter hm
          obtain ⟨job, hjob, -⟩ := hheld m (List.mem_of_mem_filter hm) hsave
          exact ⟨hsave, by rw [hjob]; rfl⟩
      · rcases List.mem_append.mp hmem with hmem | hmem
        · exact (h.tasked i hi).wanted hput message hmem
        · obtain rfl := List.mem_singleton.mp hmem
          refine List.filter_eq_nil_iff.mpr fun m hm hsave => ?_
          rw [hwanted m hm hsave] at hput
          cases hput
  · cases hstep

/-- **A finish-time tail** holds the blocks of its boundary states. -/
theorem Custodial.finishTail {reqId : ReqId} {blockHashes : List BlockHash}
    {tables : List (List BlockId)} {offloads : List BoundaryOffload} (h : Custodial dep sys)
    (hstep : step dep sys (.finishTail reqId blockHashes tables offloads) = some sys') :
    Custodial dep sys' := by
  simp only [step] at hstep
  split at hstep
  · next scheduler pool hregister =>
      obtain rfl := Option.some.inj hstep
      rcases MooncakeStoreScheduler.registerFinishedPartialTail_desk hregister with
        ⟨rfl, rfl⟩ | ⟨m, pinned, hsave, hjob, hpinned, hput, htails, hdesk⟩
      · rw [if_neg (Nat.lt_irrefl _)]
        exact h
      · have hnext : scheduler.nextStoreJobId = sys.scheduler.nextStoreJobId + 1 :=
          congrArg Desk.next hdesk
        rw [if_pos (hnext ▸ Nat.lt_succ_self _)]
        have hkeep : ∀ m', Held (needs dep.store sys.tails) (desk sys.scheduler sys.pool) m' →
            Held (needs dep.store (sys.scheduler.nextStoreJobId :: sys.tails))
              (desk scheduler pool) m' := fun m' hm' =>
          Held.needs_mono (hm'.mono fun j b hb => hdesk ▸ h.balanced.holds_issue hb)
            (needs_cons _ _ _ _)
        refine ⟨?_, fun m' hm' => ?_, fun i hi m' hm' => hkeep m' (h.held i hi m' hm'), h.tasked⟩
        · have hzero := (h.balanced.fresh _ (Nat.le_refl _)).2
          show Balanced (desk scheduler pool) _ _
          rw [hdesk]
          have hissue : Balanced ((desk sys.scheduler sys.pool).issue pinned dep.store.numWorkers)
              _ _ := h.balanced.issue dep.store.workersPos
          convert hissue using 1
          funext j
          have hcarries : carries j m = decide (j = sys.scheduler.nextStoreJobId) := by
            simp [carries, hsave, hjob, eq_comm]
          simp only [tailMetas, htails, List.map_append, List.map_cons, List.map_nil,
            MooncakeStoreScheduler.jobCount_append, MooncakeStoreScheduler.jobCount_cons,
            MooncakeStoreScheduler.jobCount_nil, hcarries, decide_eq_true_eq]
          by_cases hj : j = sys.scheduler.nextStoreJobId
          · subst hj
            have hz : owed dep.store.numWorkers sys.ranks sys.scheduler.nextStoreJobId +
                dep.store.numWorkers * jobCount sys.scheduler.nextStoreJobId sys.tailMetas = 0 :=
              hzero
            rw [tailMetas] at hz
            rw [MooncakeStoreScheduler.desk_next, Function.update_self, if_pos rfl, Nat.add_zero,
              Nat.mul_add, Nat.mul_one]
            omega
          · rw [MooncakeStoreScheduler.desk_next, if_neg hj, Nat.add_zero,
              Function.update_of_ne hj]
        · simp only [tailMetas, htails, List.map_append, List.map_cons, List.map_nil] at hm'
          rcases List.mem_append.mp hm' with hm' | hm'
          · exact ⟨hkeep m' (h.tails m' hm').1, hput⟩
          · obtain rfl := List.mem_singleton.mp hm'
            refine ⟨fun _ => ⟨_, hjob, fun b hb => ?_⟩, hput⟩
            -- of the tables' blocks a tail has none pinned
            have hneeds : needs dep.store (sys.scheduler.nextStoreJobId :: sys.tails) m' =
                offloadBlocks m' := by simp [needs, hjob]
            rw [hneeds] at hb
            exact hdesk ▸ Desk.holds_issue_self (hpinned b hb)
  · cases hstep

/-- Taking outputs takes what they report off what is owed, and changes nothing else. -/
theorem takeOutputs_spec {n : Nat} {ranks ranks' : Nat → Rank}
    {completed completed' : CompletedSaves} {list : List Nat}
    (h : takeOutputs n ranks completed list = some (ranks', completed')) :
    (∀ j, owed n ranks j + reported j completed = owed n ranks' j + reported j completed') ∧
      ∀ i, (ranks' i).metas = (ranks i).metas ∧ (ranks' i).inbox = (ranks i).inbox ∧
        (ranks' i).handling = (ranks i).handling := by
  induction list generalizing ranks completed with
  | nil =>
      obtain ⟨rfl, rfl⟩ := Prod.mk.inj (Option.some.inj h)
      exact ⟨fun _ => rfl, fun _ => ⟨rfl, rfl, rfl⟩⟩
  | cons i list ih =>
      rw [takeOutputs] at h
      split at h
      · cases h
      · next output outbox houtbox =>
          split at h
          · next hi =>
              obtain ⟨howed, hsame⟩ := ih h
              refine ⟨fun j => ?_, fun k => ?_⟩
              · have hupdate := owed_update hi ranks { ranks i with outbox } j
                have hsplit : (ranks i).owes j = ({ ranks i with outbox } : Rank).owes j +
                    reported j output := by
                  simp [Rank.owes, Rank.metas, houtbox]
                  omega
                have hrest := howed j
                rw [CompletedSaves.reported_aggregate] at hrest
                omega
              · rw [(hsame k).1, (hsame k).2.1, (hsame k).2.2]
                by_cases hk : k = i
                · subst hk
                  rw [Function.update_self]
                  exact ⟨rfl, rfl, rfl⟩
                · rw [Function.update_of_ne hk]
                  exact ⟨rfl, rfl, rfl⟩
          · cases h

/-- **Collecting outputs** never raises, and settles what they report. -/
theorem Custodial.collect {list : List Nat} {ranks : Nat → Rank} {completed : CompletedSaves}
    (h : Custodial dep sys)
    (htake : takeOutputs dep.store.numWorkers sys.ranks [] list = some (ranks, completed)) :
    ∃ scheduler pool,
      sys.scheduler.updateConnectorOutput sys.pool completed = .ok (scheduler, pool) ∧
      scheduler = { sys.scheduler with pinnedSaves := scheduler.pinnedSaves } ∧
      Custodial dep { sys with scheduler, pool, ranks } := by
  obtain ⟨howed, hsame⟩ := takeOutputs_spec htake
  have hreported : ∀ j, owed dep.store.numWorkers sys.ranks j +
      dep.store.numWorkers * jobCount j sys.tailMetas =
      owed dep.store.numWorkers ranks j + dep.store.numWorkers * jobCount j sys.tailMetas +
        reported j completed := by
    intro j
    have hj := howed j
    rw [Custody.reported_nil] at hj
    omega
  obtain ⟨scheduler, pool, hupdate, hbal, hscheduler, hkeep⟩ :=
    MooncakeStoreScheduler.updateConnectorOutput_desk h.balanced hreported
  have htails : tailMetas { sys with scheduler, pool, ranks } = sys.tailMetas := by
    rw [tailMetas, hscheduler, tailMetas]
  refine ⟨scheduler, pool, hupdate, hscheduler, by rw [htails]; exact hbal, fun m hm => ?_,
    fun i hi m hm => ?_, fun i hi => ⟨fun m hm => ?_, fun hput message hmem => ?_⟩⟩
  · rw [htails] at hm
    refine ⟨Held.settled (h.tails m hm).1 hkeep fun job hcarries => ?_, (h.tails m hm).2⟩
    have hcount : 0 < jobCount job sys.tailMetas := List.countP_pos_iff.mpr ⟨m, hm, hcarries⟩
    exact Nat.lt_of_lt_of_le (Nat.mul_pos dep.store.workersPos hcount) (Nat.le_add_left _ _)
  · refine Held.settled (h.held i hi m ((hsame i).1 ▸ hm)) hkeep fun job hcarries => ?_
    exact Nat.lt_of_lt_of_le (owed_pos hi hm hcarries) (Nat.le_add_right _ _)
  · exact (h.tasked i hi).numbered m ((hsame i).1 ▸ hm)
  · exact (h.tasked i hi).wanted hput message ((hsame i).2.1 ▸ hmem)

/-- **A step of a rank** leaves what is owed. -/
theorem Custodial.rank {i : Nat} {act : RankAction} (h : Custodial dep sys)
    (hstep : step dep sys (.rank i act) = some sys') : Custodial dep sys' := by
  simp only [step] at hstep
  split at hstep
  · next hi =>
      obtain ⟨r, hr, rfl⟩ := Option.map_eq_some_iff.mp hstep
      obtain ⟨howes, hmetas, -⟩ := Rank.step_owes (h.tasked i hi) hr
      have howed : ∀ j, owed dep.store.numWorkers (Function.update sys.ranks i r) j =
          owed dep.store.numWorkers sys.ranks j := fun j => by
        have hupdate := owed_update hi sys.ranks r j
        rw [howes j] at hupdate
        omega
      refine ⟨?_, h.tails, fun k hk m hm => ?_, fun k hk => ?_⟩
      · have hbal := h.balanced
        simp only [← howed] at hbal
        exact hbal
      · by_cases hki : k = i
        · subst hki
          simp only [Function.update_self] at hm
          exact h.held k hk m (hmetas hm)
        · simp only [Function.update_of_ne hki] at hm
          exact h.held k hk m hm
      · by_cases hki : k = i
        · subst hki
          simp only [Function.update_self]
          exact (h.tasked k hk).step hr
        · simp only [Function.update_of_ne hki]
          exact h.tasked k hk
  · cases hstep

theorem sameJobs_lookup (cfg : StoreConfig) (s : MooncakeStoreScheduler) (reqId : ReqId)
    (numTokens : Nat) (answer : Option MooncakeLookupResult) (numComputedTokens : Nat) :
    MooncakeStoreScheduler.SameJobs s
      (s.getNumNewMatchedTokens cfg reqId numTokens answer numComputedTokens).1 := by
  simp only [MooncakeStoreScheduler.getNumNewMatchedTokens]
  split
  · exact .refl s
  · split
    · exact .refl s
    · split
      · exact .refl s
      · exact ⟨rfl, rfl, rfl⟩

theorem sameJobs_allocate {cfg : StoreConfig} {s s' : MooncakeStoreScheduler} {reqId : ReqId}
    {tables : List (List BlockId)} {n : Nat}
    (h : s.updateStateAfterAlloc cfg reqId tables n = .ok s') :
    MooncakeStoreScheduler.SameJobs s s' := by
  simp only [MooncakeStoreScheduler.updateStateAfterAlloc, bind_eq_ok] at h
  obtain ⟨_, -, h⟩ := h
  split at h
  · cases h
    exact ⟨rfl, rfl, rfl⟩
  · split at h
    · cases h
      exact ⟨rfl, rfl, rfl⟩
    · obtain ⟨_, -, hret⟩ := bind_eq_ok.mp h
      cases hret
      exact ⟨rfl, rfl, rfl⟩

/-- **Every step keeps the invariant.** -/
theorem Custodial.step (h : Custodial dep sys) (hstep : step dep sys action = some sys') :
    Custodial dep sys' := by
  cases action with
  | lookup reqId numTokens answer numComputedTokens =>
      obtain rfl := Option.some.inj hstep
      exact h.sameJobs (sameJobs_lookup ..)
  | allocate reqId tables numExternalTokens =>
      simp only [StoreSystem.step] at hstep
      split at hstep
      · next scheduler halloc =>
          obtain rfl := Option.some.inj hstep
          exact h.sameJobs (sameJobs_allocate halloc)
      · cases hstep
  | schedule requests out => exact h.schedule hstep
  | finishTail reqId blockHashes tables offloads => exact h.finishTail hstep
  | resetCache =>
      obtain rfl := Option.some.inj hstep
      exact h.sameJobs ⟨rfl, rfl, rfl⟩
  | collect list =>
      simp only [StoreSystem.step] at hstep
      split at hstep
      · cases hstep
      · next ranks completed htake =>
          obtain ⟨scheduler, pool, hupdate, -, hnew⟩ := h.collect htake
          rw [hupdate] at hstep
          obtain rfl := Option.some.inj hstep
          exact hnew
  | rank i act => exact h.rank hstep
  | allocBlock b =>
      simp only [StoreSystem.step] at hstep
      split at hstep
      · obtain rfl := Option.some.inj hstep
        exact h.setRefs fun b' => by
          by_cases hb : b' = b
          · simp [hb]
          · simp [hb, Ne.symm hb]
      · cases hstep
  | touchBlock b =>
      obtain rfl := Option.some.inj hstep
      exact h.setRefs fun b' => by
        by_cases hb : b' = b
        · simp [hb]
        · simp [hb, Ne.symm hb]
  | freeBlock b =>
      simp only [StoreSystem.step] at hstep
      split at hstep
      · next hpos =>
          obtain rfl := Option.some.inj hstep
          exact h.setRefs fun b' => by
            by_cases hb : b' = b
            · subst hb
              simp
              omega
            · simp [hb, Ne.symm hb]
      · cases hstep

theorem Custodial.init (h : Init sys) : Custodial dep sys where
  balanced :=
    { nodup := by simp [desk, h.scheduler]
      fresh := fun j _ => by
        simp [desk, h.scheduler, Assoc.get, owed, h.ranks, Rank.owes, Rank.metas, tailMetas]
      waits := fun j resources remaining hget => by
        simp [desk, h.scheduler, Assoc.get] at hget
      refs := fun b => by
        simp [desk, h.scheduler, h.pool b] }
  tails m hm := by simp [tailMetas, h.scheduler] at hm
  held i hi m hm := by simp [h.ranks, Rank.metas] at hm
  tasked i hi := ⟨fun m hm => by simp [h.ranks, Rank.metas] at hm, fun _ => by simp [h.ranks]⟩

theorem custodial_of_reachable (h : (machine dep).Reachable sys) : Custodial dep sys :=
  Machine.invariant (fun _ => Custodial.init) (fun _ _ _ _ hinv _ hstep => hinv.step hstep) h

end StoreSystem

end KVServe.Store

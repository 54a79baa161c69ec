import KVServe.Lib.History
import KVServe.Store.Runs

/-!
# KVServe.Store.ResumeOffset

**The resume offset of a rank.** `_saved_offset` says how far a request is saved by position,
and the next job of the request starts there. The offset outlives the job that set it; a request
may be closed while a job of it is still running, and come back under its id.

What an offset stands for is a chain of jobs: each was given to the rank for the request since
the request was last closed, each started where the one before it ended, and the store has
acknowledged every key of each. To say so the machine gets a history: what each rank was given,
and which keys the store acknowledged to it.

The argument rests on two facts. The numbers of jobs are not reused, so that a job of a closed
request is never taken for a live one. And while a job is live nobody else moves the offset it
started from.
-/

namespace KVServe.Store

open Session (ReqId)
open MooncakeStoreScheduler (jobCount carries)

/-! ### Every job is at one place of a rank -/

namespace MooncakeStoreScheduler

variable {cfg : StoreConfig} {s s' : MooncakeStoreScheduler} {pool pool' : BlockPool}
  {requests : ReqId → Request} {out : SchedulerOutput} {state done : Referencing} {m : ReqMeta}

/-- One referenced meta gets at most the number that is due. -/
theorem Referenced.count (h : Referenced cfg state m done) (j : Nat) (rest : List ReqMeta) :
    jobCount j (done.requests ++ rest) ≤ jobCount j (state.requests ++ m :: rest) +
      if state.scheduler.nextStoreJobId ≤ j ∧ j < done.scheduler.nextStoreJobId then 1 else 0 := by
  have hnumber : ∀ requests, m.canSave = true → m.storeJobId = none →
      requests = state.requests ++
        [{ m with storeJobId := some state.scheduler.nextStoreJobId }] →
      done.scheduler.nextStoreJobId = state.scheduler.nextStoreJobId + 1 →
      jobCount j (requests ++ rest) ≤ jobCount j (state.requests ++ m :: rest) +
        if state.scheduler.nextStoreJobId ≤ j ∧ j < done.scheduler.nextStoreJobId then 1
        else 0 := by
    rintro _ hsave hnone rfl hnext
    rw [jobCount_number hsave hnone, hnext]
    split_ifs <;> omega
  cases h with
  | idle _ => simp
  | pinned _ _ _ => simp
  | empty _ hsave hnone _ hrequests hdesk _ =>
      rw [hrequests]
      exact hnumber _ hsave hnone rfl (congrArg Custody.Desk.next hdesk)
  | fresh _ hsave hnone hrequests hdesk _ =>
      rw [hrequests]
      exact hnumber _ hsave hnone rfl (congrArg Custody.Desk.next hdesk)

/-- **The jobs of a step's metadata**: the tails that waited, and each new number at most once. -/
theorem buildConnectorMeta_count {sent : MooncakeStoreConnectorMetadata}
    (h : buildConnectorMeta cfg requests out s pool = .ok (s', pool', sent)) (j : Nat) :
    jobCount j sent.requests ≤ jobCount j (s.finishedPartialTailMetas.map Prod.snd) +
      if s.nextStoreJobId ≤ j then 1 else 0 := by
  simp only [buildConnectorMeta, bind_eq_ok] at h
  obtain ⟨building, hbuild, metas, hmetas, done, hdone, hret⟩ := h
  cases hret
  have hcur := (built_buildRequests hbuild).addOffloads.applyCurrent hmetas
  have hsame : SameJobs s (addOffloads cfg requests out building).1 := hcur.same
  rw [hsame.tails] at hdone
  have hzero : jobCount j metas = 0 :=
    List.countP_eq_zero.mpr fun m hm => by simp [carries, hcur.unnumbered m hm]
  have hall := foldlM_invariant
    (P := fun rest state => s.nextStoreJobId ≤ state.scheduler.nextStoreJobId ∧
      jobCount j (state.requests ++ rest) ≤ jobCount j (s.finishedPartialTailMetas.map Prod.snd) +
        if s.nextStoreJobId ≤ j ∧ j < state.scheduler.nextStoreJobId then 1 else 0)
    (fun m rest state state' hP hstep => by
      have href := referenced_of_ok hstep
      have hnext := href.next_le
      have hcount := href.count j rest
      refine ⟨Nat.le_trans hP.1 hnext, Nat.le_trans hcount ?_⟩
      have hbefore := hP.2
      split_ifs at hbefore ⊢ <;> omega)
    hdone ⟨Nat.le_of_eq hsame.next.symm, by simp [hzero]⟩
  have hend := hall.2
  rw [List.append_nil] at hend
  refine Nat.le_trans hend ?_
  split_ifs <;> omega

end MooncakeStoreScheduler

namespace StoreSystem

variable {dep : StoreDeployment} {sys sys' : StoreSystem} {action : StoreAction}

/-- A job is at one place of each rank, or waits as a tail. -/
def Unique (dep : StoreDeployment) (sys : StoreSystem) : Prop :=
  ∀ i < dep.store.numWorkers, ∀ j, (sys.ranks i).owes j + jobCount j sys.tailMetas ≤ 1

/-- A number that is still due is nowhere. -/
theorem Custodial.unused (h : Custodial dep sys) {i j : Nat} (hi : i < dep.store.numWorkers)
    (hj : sys.scheduler.nextStoreJobId ≤ j) :
    (sys.ranks i).owes j = 0 ∧ jobCount j sys.tailMetas = 0 := by
  have hzero := (h.balanced.fresh j hj).2
  have howes := owes_le_owed hi sys.ranks j
  have hmul : dep.store.numWorkers * jobCount j sys.tailMetas = 0 := by omega
  exact ⟨by omega, (Nat.mul_eq_zero.mp hmul).resolve_left (Nat.ne_of_gt dep.store.workersPos)⟩

theorem Unique.of_le (h : Unique dep sys)
    (howes : ∀ i < dep.store.numWorkers, ∀ j, (sys'.ranks i).owes j ≤ (sys.ranks i).owes j)
    (htails : sys'.tailMetas = sys.tailMetas) : Unique dep sys' := by
  intro i hi j
  have hone := h i hi j
  have hle := howes i hi j
  rw [htails]
  omega

theorem tailMetas_of_same {scheduler : MooncakeStoreScheduler}
    (hsame : MooncakeStoreScheduler.SameJobs sys.scheduler scheduler) :
    tailMetas { sys with scheduler } = sys.tailMetas := by
  rw [tailMetas, hsame.tails, tailMetas]

/-- **No step doubles a job.** -/
theorem Unique.step (hinv : Custodial dep sys) (h : Unique dep sys)
    (hstep : step dep sys action = some sys') : Unique dep sys' := by
  have hkeep : ∀ {t : StoreSystem}, t.ranks = sys.ranks → t.tailMetas = sys.tailMetas →
      Unique dep t := fun hranks htails =>
    h.of_le (fun i _ j => by rw [hranks]) htails
  cases action with
  | lookup reqId numTokens answer numComputedTokens =>
      obtain rfl := Option.some.inj hstep
      exact hkeep rfl (tailMetas_of_same (sameJobs_lookup ..))
  | allocate reqId tables numExternalTokens =>
      simp only [StoreSystem.step] at hstep
      split at hstep
      · next scheduler halloc =>
          obtain rfl := Option.some.inj hstep
          exact hkeep rfl (tailMetas_of_same (sameJobs_allocate halloc))
      · cases hstep
  | schedule requests out =>
      simp only [StoreSystem.step] at hstep
      split at hstep
      · next scheduler pool metadata hbuild =>
          obtain rfl := Option.some.inj hstep
          obtain ⟨-, -, -, htails, -, -⟩ :=
            MooncakeStoreScheduler.buildConnectorMeta_desk (needs_subset dep.store sys.tails)
              hbuild hinv.balanced hinv.tails
          intro i hi j
          have hcount := MooncakeStoreScheduler.buildConnectorMeta_count hbuild j
          have hone := h i hi j
          rw [Rank.owes_push, jobCount_saves]
          rw [tailMetas] at hone
          simp only [tailMetas, htails, List.map_nil, MooncakeStoreScheduler.jobCount_nil]
          by_cases hj : sys.scheduler.nextStoreJobId ≤ j
          · obtain ⟨howes, hnone⟩ := hinv.unused hi hj
            rw [tailMetas] at hnone
            rw [if_pos hj] at hcount
            omega
          · rw [if_neg hj] at hcount
            omega
      · cases hstep
  | finishTail reqId blockHashes tables offloads =>
      simp only [StoreSystem.step] at hstep
      split at hstep
      · next scheduler pool hregister =>
          obtain rfl := Option.some.inj hstep
          rcases MooncakeStoreScheduler.registerFinishedPartialTail_desk hregister with
            ⟨rfl, rfl⟩ | ⟨m, pinned, -, hjob, -, -, htails, -⟩
          · exact hkeep rfl rfl
          · intro i hi j
            have hone := h i hi j
            rw [tailMetas] at hone
            simp only [tailMetas, htails, List.map_append, List.map_cons, List.map_nil,
              MooncakeStoreScheduler.jobCount_append, MooncakeStoreScheduler.jobCount_cons,
              MooncakeStoreScheduler.jobCount_nil]
            split
            · next hcarries =>
                have hj : sys.scheduler.nextStoreJobId = j := by
                  simpa [carries, hjob] using (Bool.and_eq_true_iff.mp hcarries).2
                obtain ⟨howes, hnone⟩ := hinv.unused hi (Nat.le_of_eq hj)
                rw [tailMetas] at hnone
                omega
            · omega
      · cases hstep
  | resetCache =>
      obtain rfl := Option.some.inj hstep
      exact hkeep rfl rfl
  | collect list =>
      simp only [StoreSystem.step] at hstep
      split at hstep
      · cases hstep
      · next ranks completed htake =>
          obtain ⟨scheduler, pool, hupdate, hscheduler, -⟩ := hinv.collect htake
          rw [hupdate] at hstep
          obtain rfl := Option.some.inj hstep
          refine h.of_le (fun i _ => (takeOutputs_keeps htake i).2) ?_
          rw [tailMetas, hscheduler, tailMetas]
  | rank i act =>
      simp only [StoreSystem.step] at hstep
      split at hstep
      · next hi =>
          obtain ⟨r, hr, rfl⟩ := Option.map_eq_some_iff.mp hstep
          refine h.of_le (fun k hk j => ?_) rfl
          by_cases hki : k = i
          · subst hki
            simp only [Function.update_self]
            exact Nat.le_of_eq ((Rank.step_owes (hinv.tasked k hk) hr).1 j)
          · simp only [Function.update_of_ne hki]
            exact Nat.le_refl _
      · cases hstep
  | allocBlock b =>
      simp only [StoreSystem.step] at hstep
      split at hstep
      · obtain rfl := Option.some.inj hstep
        exact hkeep rfl rfl
      · cases hstep
  | touchBlock b =>
      obtain rfl := Option.some.inj hstep
      exact hkeep rfl rfl
  | freeBlock b =>
      simp only [StoreSystem.step] at hstep
      split at hstep
      · obtain rfl := Option.some.inj hstep
        exact hkeep rfl rfl
      · cases hstep

theorem unique_of_reachable (h : (machine dep).Reachable sys) : Unique dep sys := by
  refine Machine.invariant (I := Unique dep) ?_ ?_ h
  · intro s hinit i _ j
    simp [hinit.ranks, Rank.owes, Rank.metas, tailMetas, hinit.scheduler]
  · intro s a t hs hinv _ hstep
    exact hinv.step (custodial_of_reachable hs) hstep

end StoreSystem

/-! ### What a rank was given and was told -/

/-- The keys that a step finds or puts in the store. -/
def Phase.acks : Phase → Answer → List String
  | .tailExists puts, .codes codes => (SendConfig.withStatus (· = 1) puts codes).map (·.key)
  | .tailPut puts, .codes codes => (SendConfig.withStatus (0 ≤ ·) puts codes).map (·.key)
  | .saveExists _ items, .codes codes => (SendConfig.withStatus (· = 1) items codes).map (·.key)
  | .savePut _ _ missing, .codes codes =>
      (SendConfig.withStatus (0 ≤ ·) missing codes).map (·.key)
  | _, _ => []

/-- The save a phase is at: its start, its items, and those not acknowledged yet. -/
def Phase.saving : Phase → Option (Nat × List SaveItem × List SaveItem)
  | .saveExists saveStart items => some (saveStart, items, items)
  | .savePut saveStart items missing => some (saveStart, items, missing)
  | .stored saveStart items _ _ => some (saveStart, items, [])
  | _ => none

/-- The request whose entries the next step of `_close_ended_store_requests` deletes. -/
def Rank.closes (r : Rank) : Option ReqId :=
  match r.closing with
  | [] => none
  | .preempted reqId :: _ => some reqId
  | .ended reqId :: _ =>
      if (Assoc.get reqId r.ledger.storedRequests).getD [] ≠ [] then none else some reqId

/-- The history of a rank. -/
structure RankHistory where
  /-- The keys the store acknowledged. -/
  acked : List String := []
  /-- The jobs of a request since it was last closed. -/
  given : List ReqMeta := []

namespace RankHistory

/-- A request is closed. -/
def forget (hist : RankHistory) (reqId : ReqId) : RankHistory :=
  { hist with given := hist.given.filter (·.reqId ≠ reqId) }

/-- What a step of a rank adds. -/
def note (hist : RankHistory) (r : Rank) : RankAction → RankHistory
  | .save => { hist with given := r.saving.head?.toList ++ hist.given }
  | .close => r.closes.elim hist hist.forget
  | .work answer =>
      { hist with acked := (r.handling.elim [] fun entry => entry.2.acks answer) ++ hist.acked }
  | _ => hist

end RankHistory

/-- **The rank has saved a request up to an offset**: by jobs that follow one another, each
given for the request since it was last closed, and with every key acknowledged. -/
inductive SendConfig.Covered (cfg : SendConfig) (hist : RankHistory) (reqId : ReqId) : Nat → Prop
  | none : Covered cfg hist reqId 0
  | job {start : Nat} {m : ReqMeta} {items : List SaveItem} :
      Covered cfg hist reqId start → m ∈ hist.given → m.reqId = reqId →
      cfg.saveItems m (cfg.tokenLen m) start = .ok items →
      (∀ item ∈ items, item.key ∈ hist.acked) → Covered cfg hist reqId (cfg.tokenLen m)

/-! ### One step of a job -/

namespace SendConfig

variable {cfg : SendConfig} {hist hist' : RankHistory} {ledger ledger' : Ledger}
  {h h' : Handling} {phase phase' : Phase} {answer : Answer} {reqId : ReqId}

theorem Covered.mono {n : Nat} (h : cfg.Covered hist reqId n) (hacked : hist.acked ⊆ hist'.acked)
    (hgiven : ∀ m ∈ hist.given, m.reqId = reqId → m ∈ hist'.given) :
    cfg.Covered hist' reqId n := by
  induction h with
  | none => exact .none
  | job _ hm hreq hitems hkeys ih =>
      exact .job ih (hgiven _ hm hreq) hreq hitems fun item hitem => hacked (hkeys item hitem)

/-- Each item has a status. -/
theorem mem_withStatus {α : Type} {p q : Int → Bool} (hpq : ∀ code, p code = true ∨ q code = true)
    {items : List α} {codes : List Int} (hlen : codes.length = items.length) {item : α}
    (hitem : item ∈ items) : item ∈ withStatus p items codes ∨ item ∈ withStatus q items codes := by
  obtain ⟨n, hn, rfl⟩ := List.mem_iff_getElem.mp hitem
  have hcode : n < codes.length := hlen ▸ hn
  have hzip : (items[n], codes[n]) ∈ items.zip codes :=
    List.mem_iff_getElem.mpr ⟨n, by simp [hn, hcode], by simp⟩
  rcases hpq codes[n] with hp | hq
  · exact Or.inl (List.mem_map.mpr ⟨_, List.mem_filter.mpr ⟨hzip, hp⟩, rfl⟩)
  · exact Or.inr (List.mem_map.mpr ⟨_, List.mem_filter.mpr ⟨hzip, hq⟩, rfl⟩)

/-- **What a step does to a save.** It begins at the offset the ledger has, and what leaves the
list of items to acknowledge was acknowledged. -/
theorem handle_saving (hstep : cfg.handle ledger h phase answer = some (ledger', h', phase'))
    {start : Nat} {items left' : List SaveItem}
    (hsaving : phase'.saving = some (start, items, left')) :
    (start = ledger.offset h.req.reqId ∧
      cfg.saveItems h.req (cfg.tokenLen h.req) start = .ok items ∧ left' = items) ∨
    ∃ left, phase.saving = some (start, items, left) ∧
      ∀ item ∈ left, item ∈ left' ∨ item.key ∈ phase.acks answer := by
  cases phase with
  | offloaded =>
      left
      cases answer <;> simp only [handle] at hstep
      · split at hstep
        · cases hstep
          cases hsaving
        · split at hstep
          · cases hstep
            cases hsaving
          · next hitems =>
              cases hstep
              cases hsaving
              exact ⟨rfl, hitems, rfl⟩
          · next hitems =>
              cases hstep
              cases hsaving
              exact ⟨rfl, hitems, rfl⟩
      · cases hstep
      · cases hstep
        cases hsaving
  | saveExists saveStart all =>
      right
      cases answer <;> simp only [handle] at hstep
      · cases hstep
      · next codes =>
          split at hstep
          · cases hstep
          · next hlen =>
              have hacks : ∀ item ∈ all, item ∈ withStatus (· ≠ 1) all codes ∨
                  item.key ∈ (Phase.saveExists saveStart all).acks (.codes codes) :=
                fun item hitem => (mem_withStatus (fun code => by simp [em']) (not_not.mp hlen)
                  hitem).imp_right fun hmem => List.mem_map_of_mem hmem
              split at hstep
              · next hnone =>
                  cases hstep
                  cases hsaving
                  exact ⟨_, rfl, fun item hitem => Or.inr
                    ((hacks item hitem).resolve_left (hnone ▸ List.not_mem_nil))⟩
              · cases hstep
                cases hsaving
                exact ⟨_, rfl, hacks⟩
      · cases hstep
        cases hsaving
  | savePut saveStart all missing =>
      right
      cases answer <;> simp only [handle] at hstep
      · cases hstep
      · next codes =>
          split at hstep
          · cases hstep
          · next hlen =>
              split at hstep
              · split at hstep <;> cases hstep <;> cases hsaving
              · next hput =>
                  cases hstep
                  cases hsaving
                  refine ⟨missing, rfl, fun item hitem => Or.inr ?_⟩
                  have hstatus := mem_withStatus (p := (· < 0)) (q := (0 ≤ ·))
                    (fun code => by simp [lt_or_ge]) (not_not.mp hlen) hitem
                  rcases hstatus with hfailed | hdone
                  · obtain ⟨entry, hentry, -⟩ := List.mem_map.mp hfailed
                    obtain ⟨hzip, hneg⟩ := List.mem_filter.mp hentry
                    exact absurd (List.any_eq_true.mpr ⟨entry.2, (List.of_mem_zip hzip).2, hneg⟩)
                      hput
                  · exact List.mem_map_of_mem hdone
      · cases hstep
        cases hsaving
  | _ =>
      cases answer <;> simp only [handle] at hstep
      all_goals
        repeat' split at hstep
      all_goals
        cases hstep <;> cases hsaving

/-- **Only `_record_saved` moves the offset**, and only for a job that is live. -/
theorem handle_savedOffset
    (hstep : cfg.handle ledger h phase answer = some (ledger', h', phase')) :
    ledger'.savedOffset = ledger.savedOffset ∨
    ∃ start items, phase.saving = some (start, items, []) ∧ phase'.saving = none ∧
      ledger.isLive h.req = true ∧
      ledger'.savedOffset = Assoc.set h.req.reqId (cfg.tokenLen h.req) ledger.savedOffset := by
  cases phase with
  | stored saveStart items put events =>
      cases answer <;> simp only [handle] at hstep
      · cases hstep
        rw [Ledger.recordSaved]
        split
        · next hlive => exact Or.inr ⟨saveStart, items, rfl, by split <;> rfl, hlive, rfl⟩
        · exact Or.inl rfl
      · cases hstep
      · cases hstep
        exact Or.inl rfl
  | leaving =>
      cases answer <;> simp only [handle] at hstep
      · cases hstep
        left
        split
        · simp only [Ledger.updateRetryTokenIds]
          split
          · rfl
          · split
            · rfl
            · split <;> rfl
        · rfl
      · cases hstep
      · cases hstep
  | _ =>
      left
      cases answer <;> simp only [handle] at hstep
      all_goals
        repeat' split at hstep
      all_goals
        cases hstep <;> rfl

end SendConfig

/-! ### Live jobs -/

namespace Ledger

variable {ledger ledger' : Ledger} {m m' : ReqMeta} {job : Nat} {reqId : ReqId}

/-- A job of another number is live as before. -/
theorem isLive_add (hjob : m'.storeJobId ≠ some job) :
    ({ ledger with
      storedRequests := Assoc.set m.reqId
        (job :: (Assoc.get m.reqId ledger.storedRequests).getD []) ledger.storedRequests
      requestQueue := ledger.requestQueue ++ [m] } : Ledger).isLive m' = ledger.isLive m' := by
  cases hm' : m'.storeJobId with
  | none => simp [isLive, hm']
  | some job' =>
      have hne : job' ≠ job := fun heq => hjob (heq ▸ hm')
      simp only [isLive, hm', Option.any_some, holds, Assoc.get_set]
      split
      · next hreq => simp [hreq, hne]
      · rfl

theorem isLive_deleteFinished : (ledger.deleteFinished reqId).isLive m =
    (decide (m.reqId ≠ reqId) && ledger.isLive m) := by
  cases hjob : m.storeJobId with
  | none => simp [isLive, hjob]
  | some job =>
      by_cases hreq : m.reqId = reqId
      · simp [isLive, hjob, holds, deleteFinished, hreq, Assoc.get_erase]
      · simp [isLive, hjob, holds, deleteFinished, hreq, Assoc.get_erase]

/-- Finishing a job makes no job live, and leaves the offsets alone. -/
theorem finishStoreJob_live (h : ledger.finishStoreJob m = .ok ledger') :
    ledger'.savedOffset = ledger.savedOffset ∧
      ∀ m', ledger'.isLive m' = true → ledger.isLive m' = true := by
  rw [finishStoreJob] at h
  split at h
  · cases h
  · next job _ =>
      obtain rfl := Except.ok.inj h
      refine ⟨rfl, fun m' hlive => ?_⟩
      obtain ⟨job', hjob', hholds⟩ := (Option.any_eq_true _ _).mp hlive
      refine (Option.any_eq_true _ _).mpr ⟨job', hjob', ?_⟩
      revert hholds
      simp only [holds]
      split
      · next live hget =>
          rw [Assoc.get_set]
          split
          · next hreq =>
              rw [hreq, hget]
              simp only [Option.getD_some, List.contains_iff_mem, List.mem_filter]
              exact fun hmem => hmem.1
          · exact id
      · exact id

end Ledger

/-! ### The invariant of a rank -/

/-- The offsets of a rank are covered, and so will be the one its job is about to record. -/
structure Ledgered (cfg : SendConfig) (hist : RankHistory) (ledger : Ledger)
    (handling : Option (Handling × Phase)) : Prop where
  covered : ∀ reqId n, Assoc.get reqId ledger.savedOffset = some n → cfg.Covered hist reqId n
  queued : ∀ m ∈ ledger.requestQueue, ledger.isLive m = true → m ∈ hist.given
  handled : ∀ h phase, handling = some (h, phase) → ledger.isLive h.req = true →
    h.req ∈ hist.given
  saving : ∀ h phase start items left, handling = some (h, phase) →
    phase.saving = some (start, items, left) →
    cfg.saveItems h.req (cfg.tokenLen h.req) start = .ok items ∧
      (∀ item ∈ items, item ∈ left ∨ item.key ∈ hist.acked) ∧
      (ledger.isLive h.req = true → ledger.offset h.req.reqId = start)

namespace Ledgered

variable {cfg : SendConfig} {canPut : Bool} {hist : RankHistory} {ledger ledger' : Ledger}
  {handling : Option (Handling × Phase)} {r r' : Rank} {action : RankAction} {reqId : ReqId}

theorem init : Ledgered cfg hist {} none := by
  refine ⟨fun _ _ hget => ?_, fun _ hm => ?_, fun _ _ hget => ?_, fun _ _ _ _ _ hget => ?_⟩
  · cases hget
  · cases hm
  · cases hget
  · cases hget

/-- The offset the ledger has is covered, be it recorded or not. -/
theorem offset (h : Ledgered cfg hist ledger handling) (reqId : ReqId) :
    cfg.Covered hist reqId (ledger.offset reqId) := by
  rw [Ledger.offset]
  cases hget : Assoc.get reqId ledger.savedOffset with
  | none => exact .none
  | some n => exact h.covered reqId n hget

/-- Closing a request. -/
theorem delete (h : Ledgered cfg hist ledger handling) :
    Ledgered cfg (hist.forget reqId) (ledger.deleteFinished reqId) handling where
  covered reqId' n hget := by
    by_cases hreq : reqId' = reqId
    · subst hreq
      rw [Ledger.deleteFinished, Assoc.get_erase, if_pos rfl] at hget
      cases hget
    · rw [Ledger.deleteFinished, Assoc.get_erase, if_neg hreq] at hget
      refine (h.covered reqId' n hget).mono (List.Subset.refl _) fun m hm hm' => ?_
      exact List.mem_filter.mpr ⟨hm, by simpa [hm'] using hreq⟩
  queued m hm hlive := by
    rw [Ledger.isLive_deleteFinished, Bool.and_eq_true] at hlive
    exact List.mem_filter.mpr ⟨h.queued m hm hlive.2, hlive.1⟩
  handled h' phase hhandling hlive := by
    rw [Ledger.isLive_deleteFinished, Bool.and_eq_true] at hlive
    exact List.mem_filter.mpr ⟨h.handled h' phase hhandling hlive.2, hlive.1⟩
  saving h' phase start items left hhandling hsaving := by
    obtain ⟨hitems, hacked, hstart⟩ := h.saving h' phase start items left hhandling hsaving
    refine ⟨hitems, hacked, fun hlive => ?_⟩
    rw [Ledger.isLive_deleteFinished, Bool.and_eq_true] at hlive
    rw [Ledger.offset, Ledger.deleteFinished, Assoc.get_erase,
      if_neg (of_decide_eq_true hlive.1)]
    exact hstart hlive.2

/-- A new job of a number that no other job of the rank has. -/
theorem add {m : ReqMeta} {job : Nat} (h : Ledgered cfg hist ledger handling)
    (hqueue : ∀ m' ∈ ledger.requestQueue, m'.storeJobId ≠ some job)
    (hhandling : ∀ h' phase, handling = some (h', phase) → h'.req.storeJobId ≠ some job) :
    Ledgered cfg { hist with given := m :: hist.given } { ledger with
      storedRequests := Assoc.set m.reqId
        (job :: (Assoc.get m.reqId ledger.storedRequests).getD []) ledger.storedRequests
      requestQueue := ledger.requestQueue ++ [m] } handling where
  covered reqId n hget :=
    (h.covered reqId n hget).mono (List.Subset.refl _) fun _ hm _ => List.mem_cons_of_mem _ hm
  queued m' hm' hlive := by
    rcases List.mem_append.mp hm' with hm' | hm'
    · rw [Ledger.isLive_add (hqueue m' hm')] at hlive
      exact List.mem_cons_of_mem _ (h.queued m' hm' hlive)
    · exact List.mem_singleton.mp hm' ▸ List.mem_cons_self
  handled h' phase hget hlive := by
    rw [Ledger.isLive_add (hhandling h' phase hget)] at hlive
    exact List.mem_cons_of_mem _ (h.handled h' phase hget hlive)
  saving h' phase start items left hget hsaving := by
    obtain ⟨hitems, hacked, hstart⟩ := h.saving h' phase start items left hget hsaving
    refine ⟨hitems, hacked, fun hlive => ?_⟩
    rw [Ledger.isLive_add (hhandling h' phase hget)] at hlive
    exact hstart hlive

/-- A step of the running job. -/
theorem work {h h' : Handling} {phase phase' : Phase} {answer : Answer}
    (hled : Ledgered cfg hist ledger (some (h, phase)))
    (hstep : cfg.handle ledger h phase answer = some (ledger', h', phase')) :
    Ledgered cfg { hist with acked := phase.acks answer ++ hist.acked } ledger'
      (some (h', phase')) := by
  obtain ⟨hframe, hreq⟩ := SendConfig.handle_frame hstep
  have hgrow : ∀ {reqId n}, cfg.Covered hist reqId n →
      cfg.Covered { hist with acked := phase.acks answer ++ hist.acked } reqId n :=
    fun hcov => hcov.mono (List.subset_append_right _ _) fun _ hm _ => hm
  have hoffset := SendConfig.handle_savedOffset hstep
  refine ⟨fun reqId n hget => ?_, fun m hm hlive => ?_, fun h₁ phase₁ hget hlive => ?_,
    fun h₁ phase₁ start items left hget hsaving => ?_⟩
  · rcases hoffset with hsame | ⟨start, items, hsaving, -, hlive, hset⟩
    · exact hgrow (hled.covered reqId n (hsame ▸ hget))
    · rw [hset, Assoc.get_set] at hget
      split at hget
      · next hthis =>
          obtain rfl := Option.some.inj hget
          obtain ⟨hitems, hacked, hstart⟩ := hled.saving h phase start items [] rfl hsaving
          refine hgrow (.job (hstart hlive ▸ hthis ▸ hled.offset h.req.reqId)
            (hled.handled h phase rfl hlive) hthis.symm hitems fun item hitem => ?_)
          exact (hacked item hitem).resolve_left List.not_mem_nil
      · exact hgrow (hled.covered reqId n hget)
  · rw [hframe.queue] at hm
    rw [hframe.isLive] at hlive
    exact hled.queued m hm hlive
  · cases hget
    rw [hframe.isLive, hreq] at hlive
    exact hreq ▸ hled.handled h phase rfl hlive
  · cases hget
    rw [hframe.isLive, hreq]
    -- a job that is at a save did not record it in this step
    have hsame : ledger'.savedOffset = ledger.savedOffset := by
      rcases hoffset with hsame | ⟨_, _, -, hnone, -⟩
      · exact hsame
      · rw [hnone] at hsaving
        cases hsaving
    have hkeep : ledger'.offset h.req.reqId = ledger.offset h.req.reqId := by
      rw [Ledger.offset, hsame, Ledger.offset]
    rw [hkeep]
    rcases SendConfig.handle_saving hstep hsaving with ⟨rfl, hitems, rfl⟩ | ⟨left₀, hbefore, hleft⟩
    · exact ⟨hitems, fun item hitem => Or.inl hitem, fun _ => rfl⟩
    · obtain ⟨hitems, hacked, hstart⟩ := hled.saving h phase start items left₀ rfl hbefore
      refine ⟨hitems, fun item hitem => ?_, hstart⟩
      rcases hacked item hitem with hitem | hitem
      · exact (hleft item hitem).imp_right (List.mem_append_left _)
      · exact Or.inr (List.mem_append_right _ hitem)

/-- **Every step of a rank** keeps its offsets covered. -/
theorem step (hone : ∀ j, r.owes j ≤ 1) (ht : r.Tasked canPut)
    (h : Ledgered cfg hist r.ledger r.handling) (hstep : r.step cfg canPut action = some r') :
    Ledgered cfg (hist.note r action) r'.ledger r'.handling := by
  cases Rank.stepped_of_step hstep with
  | receive message inbox _ _ _ _ => exact h
  | ignore message inbox _ _ => exact h
  | save m saving ledger hsaving hadd =>
      obtain ⟨job, hjob, rfl⟩ := Ledger.addRequest_ok hadd
      have hcarries : ∀ m' ∈ r.metas, m'.storeJobId = some job → carries job m' = true :=
        fun m' hm' hjob' => by simp [carries, (ht.numbered m' hm').1, hjob']
      have hm : carries job m = true := hcarries m
        (Rank.mem_metas.mpr (.inr (.inl (hsaving ▸ List.mem_cons_self)))) hjob
      have hcount := hone job
      simp only [Rank.owes, Rank.metas, hsaving, MooncakeStoreScheduler.jobCount_append,
        MooncakeStoreScheduler.jobCount_cons, hm, if_true] at hcount
      rw [RankHistory.note, hsaving]
      refine h.add (fun m' hm' hjob' => ?_) (fun h' phase hget hjob' => ?_)
      · have hpos : 0 < jobCount job r.ledger.requestQueue := List.countP_pos_iff.mpr
          ⟨m', hm', hcarries m' (Rank.mem_metas.mpr (.inr (.inr (.inl hm')))) hjob'⟩
        omega
      · have hpos : 0 < jobCount job (r.handling.toList.map fun entry => entry.1.req) :=
          List.countP_pos_iff.mpr ⟨h'.req, by simp [hget], hcarries h'.req
            (Rank.mem_metas.mpr (.inr (.inr (.inr ⟨_, hget, rfl⟩)))) hjob'⟩
        omega
  | close closing rest _ hclosing =>
      rw [RankHistory.note, Rank.closes, hclosing]
      cases closing with
      | preempted reqId => exact h.delete
      | ended reqId =>
          simp only [Rank.close]
          split
          · exact h
          · exact h.delete
  | report _ => exact ⟨h.covered, h.queued, h.handled, h.saving⟩
  | take m queue hhandling hqueue =>
      have hqueued := h.queued
      rw [hqueue] at hqueued
      refine ⟨h.covered, fun m' hm' => hqueued m' (List.mem_cons_of_mem _ hm'),
        fun h' phase hget => ?_, fun h' phase start items left hget hsaving => ?_⟩
      · cases hget
        exact hqueued m List.mem_cons_self
      · cases hget
        cases hsaving
  | work answer h₀ h' phase phase' ledger hhandling hhandle =>
      rw [hhandling] at h
      rw [RankHistory.note, hhandling]
      exact h.work hhandle
  | finish h₀ ledger hhandling hfinish =>
      obtain ⟨-, -, hqueue, -⟩ := Ledger.finishStoreJob_ok hfinish
      obtain ⟨hoffset, hlives⟩ := Ledger.finishStoreJob_live hfinish
      refine ⟨fun reqId n hget => ?_, fun m hm hlive => ?_, fun h' phase hget => ?_,
        fun h' phase start items left hget => ?_⟩
      · exact h.covered reqId n (hoffset ▸ hget)
      · exact h.queued m (hqueue ▸ hm) (hlives m hlive)
      · cases hget
      · cases hget

end Ledgered

/-! ### Every run -/

namespace StoreSystem

variable {dep : StoreDeployment} {sys sys' : StoreSystem} {action : StoreAction}

/-- The histories of the ranks. -/
def note (sys : StoreSystem) : StoreAction → (Nat → RankHistory) → Nat → RankHistory
  | .rank i action, hist => Function.update hist i ((hist i).note (sys.ranks i) action)
  | _, hist => hist

theorem note_of_ne {hist : Nat → RankHistory} (hrank : ∀ i act, action ≠ .rank i act) :
    note sys action hist = hist := by
  cases action with
  | rank i act => exact absurd rfl (hrank i act)
  | _ => rfl

/-- The machine of a deployment with the histories of its ranks. -/
def historyMachine (dep : StoreDeployment) : Machine (StoreSystem × (Nat → RankHistory)) StoreAction :=
  (machine dep).withHistory (fun _ => {}) note

/-- The ledgers of all ranks, in every reachable state. -/
theorem ledgered_of_reachable {hist : Nat → RankHistory}
    (h : (historyMachine dep).Reachable (sys, hist)) : ∀ i < dep.store.numWorkers,
      Ledgered (dep.send i) (hist i) (sys.ranks i).ledger (sys.ranks i).handling := by
  refine (Machine.invariant_withHistory (I := fun sys hist => ∀ i < dep.store.numWorkers,
    Ledgered (dep.send i) (hist i) (sys.ranks i).ledger (sys.ranks i).handling) ?_ ?_ h).2
  · intro s hinit i _
    rw [hinit.ranks i]
    exact .init
  · intro s hist action t hs hinv hstep i hi
    rcases rank_of_step hstep with ⟨k, act, r, rfl, hr, rfl⟩ | ⟨hother, hkeep⟩
    · by_cases hik : i = k
      · subst hik
        have hone : ∀ j, (s.ranks i).owes j ≤ 1 := fun j =>
          Nat.le_trans (Nat.le_add_right _ _) (unique_of_reachable hs i hi j)
        simp only [note, Function.update_self]
        exact (hinv i hi).step hone ((custodial_of_reachable hs).tasked i hi) hr
      · simp only [note, Function.update_of_ne hik]
        exact hinv i hi
    · rw [(hkeep i).1, (hkeep i).2, note_of_ne hother]
      exact hinv i hi

/-- **The resume offset is what was saved.** In every run of the connector, however the main and
the sending threads interleave, whatever the store answers and whichever requests are closed and
come back: where a rank would resume a request, the store has acknowledged all before it, to jobs
that the rank was given since the request was last closed. -/
theorem savedOffset_covered {hist : Nat → RankHistory} {i n : Nat} {reqId : ReqId}
    (h : (historyMachine dep).Reachable (sys, hist)) (hi : i < dep.store.numWorkers)
    (hget : Assoc.get reqId (sys.ranks i).ledger.savedOffset = some n) :
    (dep.send i).Covered (hist i) reqId n :=
  (ledgered_of_reachable h i hi).covered reqId n hget

theorem savedOffset_covered_twoRanks : ∃ sys hist,
    (historyMachine twoRanks).Reachable (sys, hist) ∧
    Assoc.get "r" (sys.ranks 0).ledger.savedOffset = some 1 ∧
    (twoRanks.send 0).Covered (hist 0) "r" 1 := by
  have hs : (((machine twoRanks).exec (fun _ _ => true) oneBlock
      (scheduleOne ++ saveOne ++ reportOne)).map
        fun sys => Assoc.get "r" (sys.ranks 0).ledger.savedOffset) = some (some 1) := by
    decide +kernel
  obtain ⟨sys, hs, hget⟩ := Option.map_eq_some_iff.mp hs
  have hreach : (machine twoRanks).Reachable sys :=
    (Machine.reachWith_of_exec init_oneBlock hs).mono fun _ _ _ => trivial
  obtain ⟨hist, hhist⟩ := Machine.exists_withHistory hreach
  exact ⟨sys, hist, hhist, hget, savedOffset_covered hhist Nat.zero_lt_two hget⟩

end StoreSystem

end KVServe.Store

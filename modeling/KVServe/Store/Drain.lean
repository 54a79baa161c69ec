import KVServe.Store.Runs

/-!
# KVServe.Store.Drain

**The references come back.** Once the engine schedules nothing more, the ranks can only move
their jobs along and the executor can only collect reports. Each such step lowers a measure: a
job weighs less the farther it is, and a message weighs as much as what it may become. So a
run of such steps ends, and where it cannot go on every report is in.
-/

namespace KVServe.Store

open Session (ReqId)
open MooncakeStoreScheduler (desk jobCount)

/-! ### The way of a job -/

/-- How far a job in a phase is from its report. -/
def Phase.toGo : Phase → Nat
  | .begun => 17
  | .live => 16
  | .resumed => 15
  | .admitted => 14
  | .tailExists _ => 13
  | .tailPut _ => 12
  | .tailPressed => 5
  | .tailStored => 11
  | .offloaded => 10
  | .saveExists _ _ => 9
  | .savePut _ _ _ => 8
  | .pressed _ => 6
  | .stored _ _ _ _ => 7
  | .recorded _ => 6
  | .announcing _ => 5
  | .leaving => 4
  | .reporting => 3

namespace SendConfig

variable {cfg : SendConfig} {ledger ledger' : Ledger} {h h' : Handling} {phase phase' : Phase}
  {answer : Answer}

/-- A step of `_handle_request` brings the job closer to its report. -/
theorem handle_toGo (hstep : cfg.handle ledger h phase answer = some (ledger', h', phase')) :
    phase'.toGo < phase.toGo := by
  cases phase <;> cases answer <;> simp only [handle] at hstep
  all_goals
    repeat' split at hstep
  all_goals
    first
    | (cases hstep; done)
    | (cases hstep; simp [Phase.toGo])

/-- A job that has not left `_handle_request` can always make a step: at worst an exception
sends it to the `finally`. -/
theorem exists_handle (hphase : phase ≠ .reporting) :
    ∃ answer, (cfg.handle ledger h phase answer).isSome = true := by
  cases phase with
  | reporting => exact absurd rfl hphase
  | leaving => exact ⟨.none, rfl⟩
  | _ => exact ⟨.raised, rfl⟩

end SendConfig

/-! ### The measure -/

namespace Rank

variable {cfg : SendConfig} {canPut : Bool} {r r' : Rank} {action : RankAction}
  {ids : List ReqId}

/-- The ended requests that a rank can ever come to close are among `ids`. -/
structure Within (ids : List ReqId) (r : Rank) : Prop where
  inbox : ∀ message ∈ r.inbox, message.finishedReqIds ⊆ ids
  waiting : r.finishedStoreReq ⊆ ids
  closing : ∀ reqId, .ended reqId ∈ r.closing → reqId ∈ ids

/-- What a message may become. -/
def messageLoad (k : Nat) (message : StepMessage) : Nat :=
  1 + 20 * message.metadata.saves.length + message.metadata.preemptedReqIds.length + k

/-- The measure of a rank, when at most `k` ended requests can come up. -/
def load (k : Nat) (r : Rank) : Nat :=
  (r.inbox.map (messageLoad k)).sum + 19 * r.saving.length + r.closing.length +
    18 * r.ledger.requestQueue.length + (r.handling.map fun entry => entry.2.toGo).getD 0 +
    2 * r.ledger.completedSaves.length + r.outbox.length

theorem length_fromKeys_le {items : List ReqId} (h : items ⊆ ids) :
    (fromKeys items).length ≤ ids.length := by
  have hnodup : (fromKeys items).Nodup := by
    rw [fromKeys, List.nodup_reverse]
    exact List.nodup_dedup _
  exact (hnodup.subperm fun x hx => h (mem_fromKeys.mp hx)).length_le

theorem length_add_le (completed : CompletedSaves) (job n : Nat) :
    (completed.add job n).length ≤ completed.length + 1 := by
  rw [CompletedSaves.add]
  generalize (Assoc.get job completed).getD 0 + n = v
  induction completed with
  | nil => simp [Assoc.set]
  | cons entry completed ih =>
      rw [Assoc.set]
      split
      · simp
      · simpa using ih

theorem Within.step (hw : Within ids r) (hstep : r.step cfg canPut action = some r') :
    Within ids r' := by
  cases stepped_of_step hstep with
  | receive message inbox _ hinbox _ _ =>
      refine ⟨fun m hm => hw.inbox m (hinbox ▸ List.mem_cons_of_mem _ hm), hw.waiting,
        fun reqId hmem => ?_⟩
      rcases List.mem_append.mp hmem with hmem | hmem
      · simp at hmem
      · obtain ⟨id, hid, heq⟩ := List.mem_map.mp hmem
        obtain rfl : id = reqId := by simpa using heq
        rcases List.mem_append.mp (mem_fromKeys.mp hid) with hid | hid
        · exact hw.inbox message (hinbox ▸ List.mem_cons_self) hid
        · exact hw.waiting hid
  | ignore message inbox _ hinbox =>
      exact ⟨fun m hm => hw.inbox m (hinbox ▸ List.mem_cons_of_mem _ hm), hw.waiting, hw.closing⟩
  | save _ _ _ _ _ => exact ⟨hw.inbox, hw.waiting, hw.closing⟩
  | close closing rest _ hclosing =>
      have hrest : ∀ reqId, .ended reqId ∈ rest → reqId ∈ ids := fun reqId hmem =>
        hw.closing reqId (hclosing ▸ List.mem_cons_of_mem _ hmem)
      cases closing with
      | preempted reqId => exact ⟨hw.inbox, hw.waiting, hrest⟩
      | ended reqId =>
          have hid : reqId ∈ ids := hw.closing reqId (hclosing ▸ List.mem_cons_self)
          simp only [Rank.close]
          split
          · refine ⟨hw.inbox, fun id hmem => ?_, hrest⟩
            rcases List.mem_append.mp (mem_fromKeys.mp hmem) with hmem | hmem
            · exact hw.waiting hmem
            · exact List.mem_singleton.mp hmem ▸ hid
          · exact ⟨hw.inbox, fun id hmem => hw.waiting (List.mem_of_mem_filter hmem), hrest⟩
  | report _ => exact ⟨hw.inbox, hw.waiting, hw.closing⟩
  | take _ _ _ _ => exact ⟨hw.inbox, hw.waiting, hw.closing⟩
  | work _ _ _ _ _ _ _ _ => exact ⟨hw.inbox, hw.waiting, hw.closing⟩
  | finish _ _ _ _ => exact ⟨hw.inbox, hw.waiting, hw.closing⟩

/-- **A step of a rank lowers its measure.** -/
theorem load_step (hw : Within ids r) (hstep : r.step cfg canPut action = some r') :
    r'.load ids.length < r.load ids.length := by
  cases stepped_of_step hstep with
  | receive message inbox _ hinbox hsaving hclosing =>
      have hids : (fromKeys (message.finishedReqIds ++ r.finishedStoreReq)).length ≤ ids.length :=
        length_fromKeys_le (List.append_subset.mpr
          ⟨hw.inbox message (hinbox ▸ List.mem_cons_self), hw.waiting⟩)
      simp only [load, hinbox, hsaving, hclosing, List.map_cons, List.sum_cons, messageLoad,
        List.length_append, List.length_map, List.length_nil]
      omega
  | ignore message inbox _ hinbox =>
      simp only [load, hinbox, List.map_cons, List.sum_cons, messageLoad]
      omega
  | save m saving ledger hsaving hadd =>
      obtain ⟨job, -, rfl⟩ := Ledger.addRequest_ok hadd
      simp only [load, hsaving, List.length_cons, List.length_append, List.length_nil]
      omega
  | close closing rest _ hclosing =>
      cases closing with
      | preempted reqId =>
          simp only [load, Rank.close, Ledger.deleteFinished, hclosing, List.length_cons]
          omega
      | ended reqId =>
          simp only [Rank.close]
          split
          all_goals
            simp only [load, Ledger.deleteFinished, hclosing, List.length_cons]
            omega
  | report hne =>
      have hpos := List.length_pos_iff.mpr hne
      simp only [load, Ledger.takeCompletedSaves, List.length_append, List.length_nil,
        List.length_cons]
      omega
  | take m queue hhandling hqueue =>
      simp only [load, hhandling, hqueue, List.length_cons, Option.map_some, Option.map_none,
        Option.getD_some, Option.getD_none, Phase.toGo]
      omega
  | work answer h h' phase phase' ledger hhandling hhandle =>
      have hlt := SendConfig.handle_toGo hhandle
      have hframe := (SendConfig.handle_frame hhandle).1
      simp only [load, hhandling, hframe.queue, hframe.completed, Option.map_some,
        Option.getD_some]
      omega
  | finish h ledger hhandling hfinish =>
      obtain ⟨job, -, hqueue, hcompleted⟩ := Ledger.finishStoreJob_ok hfinish
      have hle := length_add_le r.ledger.completedSaves job 1
      simp only [load, hhandling, hqueue, hcompleted, Option.map_some, Option.map_none,
        Option.getD_some, Option.getD_none, Phase.toGo]
      omega

/-- **A rank that can make no step has nothing to do**: what it still owes is in its outbox. -/
theorem owes_of_stuck (ht : Tasked canPut r) (hstuck : ∀ action, r.step cfg canPut action = none)
    (houtbox : r.outbox = []) (j : Nat) : r.owes j = 0 := by
  have hhandling : r.handling = none := by
    cases hhandling : r.handling with
    | none => rfl
    | some entry =>
        obtain ⟨h, phase⟩ := entry
        exfalso
        by_cases hphase : phase = .reporting
        · subst hphase
          obtain ⟨job, hjob⟩ := Option.isSome_iff_exists.mp
            (ht.numbered h.req (mem_metas.mpr (.inr (.inr (.inr ⟨_, hhandling, rfl⟩))))).2
          have hfinish := hstuck .finish
          simp only [step, hhandling, Ledger.finishStoreJob, hjob] at hfinish
          cases hfinish
        · have hexists : ∃ answer, (cfg.handle r.ledger h phase answer).isSome = true :=
            SendConfig.exists_handle hphase
          obtain ⟨answer, hsome⟩ := hexists
          have hwork := hstuck (.work answer)
          simp only [step, hhandling, Option.map_eq_none_iff] at hwork
          rw [hwork] at hsome
          cases hsome
  have hqueue : r.ledger.requestQueue = [] := by
    cases hqueue : r.ledger.requestQueue with
    | nil => rfl
    | cons m queue =>
        have htake := hstuck .take
        simp only [step, hhandling, hqueue] at htake
        cases htake
  have hsaving : r.saving = [] := by
    cases hsaving : r.saving with
    | nil => rfl
    | cons m saving =>
        obtain ⟨job, hjob⟩ := Option.isSome_iff_exists.mp
          (ht.numbered m (mem_metas.mpr (.inr (.inl (hsaving ▸ List.mem_cons_self))))).2
        have hsave := hstuck .save
        simp only [step, hsaving, Ledger.addRequest, hjob] at hsave
        cases hsave
  have hclosing : r.closing = [] := by
    cases hclosing : r.closing with
    | nil => rfl
    | cons closing rest =>
        have hclose := hstuck .close
        simp only [step, hsaving, hclosing] at hclose
        cases hclose
  have hinbox : r.inbox = [] := by
    cases hinbox : r.inbox with
    | nil => rfl
    | cons message inbox =>
        have hreceive := hstuck .receive
        simp only [step, hinbox, hsaving, hclosing] at hreceive
        split at hreceive <;> cases hreceive
  have hcompleted : r.ledger.completedSaves = [] := by
    cases hcompleted : r.ledger.completedSaves with
    | nil => rfl
    | cons entry completed =>
        have hreport := hstuck .report
        simp only [step, hcompleted] at hreport
        cases hreport
  simp [owes, metas, hinbox, hsaving, hqueue, hhandling, hcompleted, houtbox]

end Rank

/-! ### The system -/

namespace StoreAction

/-- A step of a rank, or one that collects something. -/
def Drains : StoreAction → Prop
  | .rank _ _ => True
  | .collect list => list ≠ []
  | _ => False

end StoreAction

namespace StoreSystem

variable {dep : StoreDeployment} {sys sys' : StoreSystem} {action : StoreAction}
  {ids : List ReqId}

/-- The measure of the system. -/
def load (dep : StoreDeployment) (k : Nat) (sys : StoreSystem) : Nat :=
  ∑ i ∈ Finset.range dep.store.numWorkers, (sys.ranks i).load k

/-- What a run that only drains keeps. -/
structure Draining (dep : StoreDeployment) (ids : List ReqId) (engine : BlockId → Nat)
    (sys : StoreSystem) : Prop where
  custodial : Custodial dep sys
  tails : sys.tailMetas = []
  engine : sys.engine = engine
  within : ∀ i < dep.store.numWorkers, (sys.ranks i).Within ids

/-- Taking outputs lowers the measure. -/
theorem load_takeOutputs {n k : Nat} {ranks ranks' : Nat → Rank}
    {completed completed' : CompletedSaves} {list : List Nat}
    (h : takeOutputs n ranks completed list = some (ranks', completed')) :
    (∑ i ∈ Finset.range n, (ranks' i).load k) + list.length =
        ∑ i ∈ Finset.range n, (ranks i).load k ∧
      ∀ i ids, (ranks i).Within ids → (ranks' i).Within ids := by
  induction list generalizing ranks completed with
  | nil =>
      obtain ⟨rfl, rfl⟩ := Prod.mk.inj (Option.some.inj h)
      exact ⟨rfl, fun _ _ => id⟩
  | cons i list ih =>
      rw [takeOutputs] at h
      split at h
      · cases h
      · next output outbox houtbox =>
          split at h
          · next hi =>
              obtain ⟨hload, hwithin⟩ := ih h
              have hupdate := sum_update hi (Rank.load k) ranks { ranks i with outbox }
              have hless : (ranks i).load k = ({ ranks i with outbox } : Rank).load k + 1 := by
                simp only [Rank.load, houtbox, List.length_cons]
                omega
              refine ⟨by rw [List.length_cons]; omega, fun j ids hj => hwithin j ids ?_⟩
              by_cases hji : j = i
              · subst hji
                rw [Function.update_self]
                exact ⟨hj.inbox, hj.waiting, hj.closing⟩
              · rw [Function.update_of_ne hji]
                exact hj
          · cases h

theorem Draining.step {engine : BlockId → Nat} (h : Draining dep ids engine sys)
    (hkind : action.Drains) (hstep : step dep sys action = some sys') :
    Draining dep ids engine sys' ∧ load dep ids.length sys' < load dep ids.length sys := by
  have hcustodial := h.custodial.step hstep
  cases action with
  | rank i act =>
      simp only [StoreSystem.step] at hstep
      split at hstep
      · next hi =>
          obtain ⟨r, hr, rfl⟩ := Option.map_eq_some_iff.mp hstep
          have hlt := Rank.load_step (h.within i hi) hr
          have hupdate := sum_update hi (Rank.load ids.length) sys.ranks r
          refine ⟨⟨hcustodial, h.tails, h.engine, fun k hk => ?_⟩, by simp only [load]; omega⟩
          by_cases hki : k = i
          · subst hki
            simp only [Function.update_self]
            exact (h.within k hk).step hr
          · simp only [Function.update_of_ne hki]
            exact h.within k hk
      · cases hstep
  | collect list =>
      simp only [StoreSystem.step] at hstep
      split at hstep
      · cases hstep
      · next ranks completed htake =>
          obtain ⟨scheduler, pool, hupdate, hscheduler, -⟩ := h.custodial.collect htake
          rw [hupdate] at hstep
          obtain rfl := Option.some.inj hstep
          obtain ⟨hload, hwithin⟩ := load_takeOutputs (k := ids.length) htake
          have hpos := List.length_pos_iff.mpr hkind
          refine ⟨⟨hcustodial, ?_, h.engine, fun i hi => hwithin i ids (h.within i hi)⟩, by
            simp only [load]
            omega⟩
          rw [tailMetas, hscheduler]
          exact h.tails
  | _ => exact absurd hkind id

/-- Where no step of this kind is enabled, nothing is owed. -/
theorem Draining.owes_of_stuck {engine : BlockId → Nat} (h : Draining dep ids engine sys)
    (hstuck : ∀ action : StoreAction, action.Drains → StoreSystem.step dep sys action = none) :
    ∀ i < dep.store.numWorkers, ∀ job, (sys.ranks i).owes job = 0 := by
  intro i hi job
  have hrank : ∀ act, (sys.ranks i).step (dep.send i) dep.store.canPut act = none := by
    intro act
    have hact := hstuck (.rank i act) trivial
    simpa only [StoreSystem.step, if_pos hi, Option.map_eq_none_iff] using hact
  refine Rank.owes_of_stuck (h.custodial.tasked i hi) hrank ?_ job
  · cases houtbox : (sys.ranks i).outbox with
    | nil => rfl
    | cons output outbox =>
        exfalso
        have htake : takeOutputs dep.store.numWorkers sys.ranks [] [i] =
            some (Function.update sys.ranks i { sys.ranks i with outbox },
              CompletedSaves.aggregate [] output) := by
          simp only [takeOutputs, houtbox, if_pos hi]
        obtain ⟨scheduler, pool, hupdate, -⟩ := h.custodial.collect htake
        have hcollect := hstuck (.collect [i]) (List.cons_ne_nil _ _)
        simp only [StoreSystem.step, htake, hupdate] at hcollect
        cases hcollect

/-- The ended requests a rank can come to close. -/
def endedIds (r : Rank) : List ReqId :=
  r.inbox.flatMap StepMessage.finishedReqIds ++ r.finishedStoreReq ++
    r.closing.filterMap fun closing =>
      match closing with
      | .ended reqId => some reqId
      | .preempted _ => none

theorem exists_within (n : Nat) (ranks : Nat → Rank) : ∃ ids, ∀ i < n, (ranks i).Within ids := by
  refine ⟨(List.range n).flatMap fun i => endedIds (ranks i), fun i hi => ?_⟩
  have hall : ∀ reqId ∈ endedIds (ranks i),
      reqId ∈ (List.range n).flatMap fun i => endedIds (ranks i) :=
    fun reqId hid => List.mem_flatMap.mpr ⟨i, List.mem_range.mpr hi, hid⟩
  refine ⟨fun message hmem reqId hid => hall reqId ?_, fun reqId hid => hall reqId ?_,
    fun reqId hmem => hall reqId ?_⟩
  · exact List.mem_append_left _
      (List.mem_append_left _ (List.mem_flatMap.mpr ⟨message, hmem, hid⟩))
  · exact List.mem_append_left _ (List.mem_append_right _ hid)
  · exact List.mem_append_right _ (List.mem_filterMap.mpr ⟨_, hmem, rfl⟩)

/-- **The references come back.** From a reachable state in which no finish-time tail waits, a
run of steps of the ranks and of collected outputs has bounded length, whatever the store
answers and however the steps interleave; and where such a run cannot go on, no store job is
pending and every reference left on the block pool is one the engine held at its start. -/
theorem drain {s : StoreSystem} (hs : (machine dep).Reachable s) (htails : s.tailMetas = []) :
    ∃ n, ∀ (actions : List StoreAction) (t : StoreSystem), (∀ action ∈ actions, action.Drains) →
      (machine dep).exec (fun _ _ => true) s actions = some t →
      actions.length ≤ n ∧
      ((∀ action : StoreAction, action.Drains → step dep t action = none) →
        t.scheduler.hasPendingPushWork = false ∧ ∀ b, t.pool b = s.engine b) := by
  obtain ⟨ids, hids⟩ := exists_within dep.store.numWorkers s.ranks
  have hstart : Draining dep ids s.engine s := ⟨custodial_of_reachable hs, htails, rfl, hids⟩
  refine ⟨load dep ids.length s, fun actions t hactions hexec => ?_⟩
  obtain ⟨hend, hle⟩ := Machine.exec_length (fun _ _ _ hI hkind hstep => hI.step hkind hstep)
    hstart hactions hexec
  refine ⟨Nat.le_trans (Nat.le_add_right _ _) hle, fun hstuck => ?_⟩
  obtain ⟨hpending, hpool⟩ :=
    pool_of_nothing_owed hend.custodial (hend.owes_of_stuck hstuck) hend.tails
  exact ⟨hpending, fun b => by rw [hpool b, hend.engine]⟩

theorem drain_twoRanks : ∃ s n, (machine twoRanks).Reachable s ∧
    s.scheduler.hasPendingPushWork = true ∧
    ∀ (actions : List StoreAction) (t : StoreSystem), (∀ action ∈ actions, action.Drains) →
      (machine twoRanks).exec (fun _ _ => true) s actions = some t → actions.length ≤ n := by
  have hs : (((machine twoRanks).exec (fun _ _ => true) oneBlock scheduleOne).map
      fun s => (s.tailMetas, s.scheduler.hasPendingPushWork)) = some ([], true) := by
    decide +kernel
  obtain ⟨s, hs, hfacts⟩ := Option.map_eq_some_iff.mp hs
  obtain ⟨htails, hpending⟩ := Prod.mk.inj hfacts
  have hreach : (machine twoRanks).Reachable s :=
    (Machine.reachWith_of_exec init_oneBlock hs).mono fun _ _ _ => trivial
  obtain ⟨n, hn⟩ := drain hreach htails
  exact ⟨s, n, hreach, hpending, fun actions t hactions hexec => (hn actions t hactions hexec).1⟩

end StoreSystem

end KVServe.Store

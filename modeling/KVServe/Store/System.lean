import KVServe.Lib.Transition
import KVServe.Store.Scheduler
import KVServe.Store.Sending

/-!
# KVServe.Store.System

The **store connector as one machine**: the scheduler, the block pool it shares with the
engine, and the ranks, each with a main thread and a sending thread.

* A step of the engine sends the scheduler's metadata to every rank.
* A rank's main thread takes it up (`wait_for_save`, then `get_finished`) and hands the jobs
  its thread is done with to the executor.
* The executor brings outputs of the ranks back to the scheduler, in any grouping; the outputs
  of one rank stay in their order.
* Between any two of these the engine takes and drops references of its own. A block nobody
  references is free, and only a free block is given out and written anew.
-/

namespace KVServe.Store

open Session (ReqId)

/-! ### A rank -/

/-- What a step sends to every rank. -/
structure StepMessage where
  metadata : MooncakeStoreConnectorMetadata
  finishedReqIds : List ReqId
  deriving DecidableEq, Repr

/-- A request that `_close_ended_store_requests` comes to. -/
inductive Closing
  | preempted (reqId : ReqId)
  | ended (reqId : ReqId)
  deriving DecidableEq, Repr

/-- A rank of the worker. -/
structure Rank where
  ledger : Ledger := {}
  /-- The job of the sending thread. -/
  handling : Option (Handling × Phase) := none
  /-- Metadata on its way, oldest first. -/
  inbox : List StepMessage := []
  /-- What `wait_for_save` still has to add. -/
  saving : List ReqMeta := []
  /-- What `_close_ended_store_requests` still has to close. -/
  closing : List Closing := []
  finishedStoreReq : List ReqId := []
  /-- Outputs on their way, oldest first. -/
  outbox : List CompletedSaves := []
  deriving DecidableEq, Repr

inductive RankAction
  /-- The main thread takes up the metadata of a step. -/
  | receive
  /-- One `add_request` of `wait_for_save`. -/
  | save
  /-- One request of `_close_ended_store_requests`. -/
  | close
  /-- `build_connector_worker_meta`. -/
  | report
  /-- The sending thread takes the next job. -/
  | take
  /-- One step of `_handle_request`. -/
  | work (answer : Answer)
  /-- `finish_store_job`. -/
  | finish
  deriving DecidableEq, Repr

namespace Rank

/-- One request of `_close_ended_store_requests`. The jobs of an ended request are looked up
and its entry deleted in one step: in between only the main thread itself could add a job. -/
def close (r : Rank) : Closing → Rank
  | .preempted reqId => { r with ledger := r.ledger.deleteFinished reqId }
  | .ended reqId =>
      if (Assoc.get reqId r.ledger.storedRequests).getD [] ≠ [] then
        { r with finishedStoreReq := fromKeys (r.finishedStoreReq ++ [reqId]) }
      else
        { r with
          finishedStoreReq := r.finishedStoreReq.filter (· ≠ reqId)
          ledger := r.ledger.deleteFinished reqId }

/-- One step of a rank; `none` when it is not enabled. A rank that never puts takes up no
job. -/
def step (cfg : SendConfig) (canPut : Bool) (r : Rank) : RankAction → Option Rank
  | .receive =>
      match r.inbox, r.saving, r.closing with
      | message :: inbox, [], [] =>
          if canPut then
            some { r with
              inbox
              saving := message.metadata.saves
              closing :=
                message.metadata.preemptedReqIds.map .preempted ++
                  (fromKeys (message.finishedReqIds ++ r.finishedStoreReq)).map .ended }
          else some { r with inbox }
      | _, _, _ => none
  | .save =>
      match r.saving with
      | [] => none
      | m :: saving =>
          match r.ledger.addRequest m with
          | .ok ledger => some { r with ledger, saving }
          | .error _ => none
  | .close =>
      match r.saving, r.closing with
      | [], closing :: rest => some ({ r with closing := rest }.close closing)
      | _, _ => none
  | .report =>
      match r.ledger.completedSaves with
      | [] => none
      | completed =>
          some { r with ledger := r.ledger.takeCompletedSaves, outbox := r.outbox ++ [completed] }
  | .take =>
      match r.handling, r.ledger.requestQueue with
      | none, m :: queue =>
          some { r with
            ledger := { r.ledger with requestQueue := queue }
            handling := some
              ({ req := m, eventTokenIds := m.tokenIds, tokenIdsStart := m.tokenIdsStart }, .begun) }
      | _, _ => none
  | .work answer =>
      match r.handling with
      | none => none
      | some (h, phase) =>
          (cfg.handle r.ledger h phase answer).map fun done =>
            { r with ledger := done.1, handling := some done.2 }
  | .finish =>
      match r.handling with
      | some (h, .reporting) =>
          match r.ledger.finishStoreJob h.req with
          | .ok ledger => some { r with ledger, handling := none }
          | .error _ => none
      | _ => none

/-- What the steps of a rank can do. -/
inductive Stepped (cfg : SendConfig) (canPut : Bool) (r : Rank) : RankAction → Rank → Prop
  | receive (message : StepMessage) (inbox : List StepMessage) :
      canPut = true → r.inbox = message :: inbox → r.saving = [] → r.closing = [] →
      Stepped cfg canPut r .receive { r with
        inbox
        saving := message.metadata.saves
        closing :=
          message.metadata.preemptedReqIds.map .preempted ++
            (fromKeys (message.finishedReqIds ++ r.finishedStoreReq)).map .ended }
  | ignore (message : StepMessage) (inbox : List StepMessage) :
      canPut = false → r.inbox = message :: inbox →
      Stepped cfg canPut r .receive { r with inbox }
  | save (m : ReqMeta) (saving : List ReqMeta) (ledger : Ledger) :
      r.saving = m :: saving → r.ledger.addRequest m = .ok ledger →
      Stepped cfg canPut r .save { r with ledger, saving }
  | close (closing : Closing) (rest : List Closing) :
      r.saving = [] → r.closing = closing :: rest →
      Stepped cfg canPut r .close ({ r with closing := rest }.close closing)
  | report : r.ledger.completedSaves ≠ [] →
      Stepped cfg canPut r .report { r with
        ledger := r.ledger.takeCompletedSaves
        outbox := r.outbox ++ [r.ledger.completedSaves] }
  | take (m : ReqMeta) (queue : List ReqMeta) :
      r.handling = none → r.ledger.requestQueue = m :: queue →
      Stepped cfg canPut r .take { r with
        ledger := { r.ledger with requestQueue := queue }
        handling := some
          ({ req := m, eventTokenIds := m.tokenIds, tokenIdsStart := m.tokenIdsStart }, .begun) }
  | work (answer : Answer) (h h' : Handling) (phase phase' : Phase) (ledger : Ledger) :
      r.handling = some (h, phase) →
      cfg.handle r.ledger h phase answer = some (ledger, h', phase') →
      Stepped cfg canPut r (.work answer) { r with ledger, handling := some (h', phase') }
  | finish (h : Handling) (ledger : Ledger) :
      r.handling = some (h, .reporting) → r.ledger.finishStoreJob h.req = .ok ledger →
      Stepped cfg canPut r .finish { r with ledger, handling := none }

theorem stepped_of_step {cfg : SendConfig} {canPut : Bool} {r r' : Rank} {action : RankAction}
    (hstep : r.step cfg canPut action = some r') : Stepped cfg canPut r action r' := by
  cases action with
  | receive =>
      simp only [step] at hstep
      split at hstep
      · next message inbox hinbox hsaving hclosing =>
          split at hstep
          · next hput =>
              cases hstep
              exact .receive message inbox hput hinbox hsaving hclosing
          · next hput =>
              cases hstep
              exact .ignore message inbox (by simpa using hput) hinbox
      · cases hstep
  | save =>
      simp only [step] at hstep
      split at hstep
      · cases hstep
      · next m saving hsaving =>
          split at hstep
          · next ledger hadd =>
              cases hstep
              exact .save m saving ledger hsaving hadd
          · cases hstep
  | close =>
      simp only [step] at hstep
      split at hstep
      · next closing rest hsaving hclosing =>
          cases hstep
          exact .close closing rest hsaving hclosing
      · cases hstep
  | report =>
      simp only [step] at hstep
      split at hstep
      · cases hstep
      · next hne =>
          cases hstep
          exact .report hne
  | take =>
      simp only [step] at hstep
      split at hstep
      · next m queue hhandling hqueue =>
          cases hstep
          exact .take m queue hhandling hqueue
      · cases hstep
  | work answer =>
      simp only [step] at hstep
      split at hstep
      · cases hstep
      · next h phase hhandling =>
          obtain ⟨⟨ledger, h', phase'⟩, hhandle, rfl⟩ := Option.map_eq_some_iff.mp hstep
          exact .work answer h h' phase phase' ledger hhandling hhandle
  | finish =>
      simp only [step] at hstep
      split at hstep
      · next h hhandling =>
          split at hstep
          · next ledger hfinish =>
              cases hstep
              exact .finish h ledger hhandling hfinish
          · cases hstep
      · cases hstep

/-- The metas of jobs this rank has not finished, wherever they are. -/
def metas (r : Rank) : List ReqMeta :=
  r.inbox.flatMap (fun message => message.metadata.saves) ++ r.saving ++ r.ledger.requestQueue ++
    r.handling.toList.map fun entry => entry.1.req

end Rank

/-! ### The system -/

/-- The scheduler and a rank know the same groups as Mamba groups. -/
def Agrees (store : StoreConfig) (send : SendConfig) : Prop :=
  ∀ g group, send.groups[g]? = some group →
    (group.mamba = true ↔ g ∈ store.boundaryStateGroupIds)

/-- The configuration of a deployment. -/
structure StoreDeployment where
  store : StoreConfig
  /-- The sending thread of each rank. -/
  send : Nat → SendConfig
  agrees : ∀ i, Agrees store (send i)

/-- The state of the connector and its surroundings. -/
structure StoreSystem where
  scheduler : MooncakeStoreScheduler
  pool : BlockPool
  /-- The references the engine holds itself. -/
  engine : BlockId → Nat
  /-- How often a block was given out anew. -/
  epoch : BlockId → Nat
  ranks : Nat → Rank
  /-- The jobs that were registered at the finish of their request. -/
  tails : List Nat

inductive StoreAction
  /-- `get_num_new_matched_tokens`, with the answer of the lookup. -/
  | lookup (reqId : ReqId) (numTokens : Nat) (answer : Option MooncakeLookupResult)
      (numComputedTokens : Nat)
  /-- `update_state_after_alloc`. -/
  | allocate (reqId : ReqId) (tables : List (List BlockId)) (numExternalTokens : Nat)
  /-- `build_connector_meta`, and its metadata to every rank. -/
  | schedule (requests : ReqId → Request) (out : SchedulerOutput)
  /-- `register_finished_partial_tail`. -/
  | finishTail (reqId : ReqId) (blockHashes : List BlockHash) (tables : List (List BlockId))
      (offloads : List BoundaryOffload)
  /-- `reset_cache`: the load specs are dropped. -/
  | resetCache
  /-- `update_connector_output` with the next output of each listed rank. -/
  | collect (ranks : List Nat)
  | rank (i : Nat) (action : RankAction)
  /-- The engine takes a free block and writes it anew. -/
  | allocBlock (b : BlockId)
  /-- The engine references a block for a request that shares it. -/
  | touchBlock (b : BlockId)
  /-- The engine drops a reference. -/
  | freeBlock (b : BlockId)

namespace StoreSystem

variable (dep : StoreDeployment)

/-- `MooncakeStoreWorkerMetadata.aggregate` over the next outputs of some ranks. -/
def takeOutputs (numWorkers : Nat) (ranks : Nat → Rank) (completed : CompletedSaves) :
    List Nat → Option ((Nat → Rank) × CompletedSaves)
  | [] => some (ranks, completed)
  | i :: rest =>
      match (ranks i).outbox with
      | [] => none
      | output :: outbox =>
          if i < numWorkers then
            takeOutputs numWorkers (Function.update ranks i { ranks i with outbox })
              (completed.aggregate output) rest
          else none

/-- One step of the system; `none` when it is not enabled or the connector raises. -/
def step (sys : StoreSystem) : StoreAction → Option StoreSystem
  | .lookup reqId numTokens answer numComputedTokens =>
      some { sys with
        scheduler := (sys.scheduler.getNumNewMatchedTokens dep.store reqId numTokens answer
          numComputedTokens).1 }
  | .allocate reqId tables numExternalTokens =>
      match sys.scheduler.updateStateAfterAlloc dep.store reqId tables numExternalTokens with
      | .ok scheduler => some { sys with scheduler }
      | .error _ => none
  | .schedule requests out =>
      match sys.scheduler.buildConnectorMeta dep.store requests out sys.pool with
      | .ok (scheduler, pool, metadata) =>
          some { sys with
            scheduler, pool
            ranks := fun i => { sys.ranks i with
              inbox := (sys.ranks i).inbox ++ [⟨metadata, out.finishedReqIds⟩] } }
      | .error _ => none
  | .finishTail reqId blockHashes tables offloads =>
      match sys.scheduler.registerFinishedPartialTail dep.store sys.pool reqId blockHashes tables
          offloads with
      | .ok (scheduler, pool) =>
          some { sys with
            scheduler, pool
            tails :=
              if sys.scheduler.nextStoreJobId < scheduler.nextStoreJobId then
                sys.scheduler.nextStoreJobId :: sys.tails
              else sys.tails }
      | .error _ => none
  | .resetCache => some { sys with scheduler := { sys.scheduler with loadSpecs := [] } }
  | .collect ranks =>
      match takeOutputs dep.store.numWorkers sys.ranks [] ranks with
      | none => none
      | some (ranks, completed) =>
          match sys.scheduler.updateConnectorOutput sys.pool completed with
          | .ok (scheduler, pool) => some { sys with scheduler, pool, ranks }
          | .error _ => none
  | .rank i action =>
      if i < dep.store.numWorkers then
        ((sys.ranks i).step (dep.send i) dep.store.canPut action).map fun r =>
          { sys with ranks := Function.update sys.ranks i r }
      else none
  | .allocBlock b =>
      if sys.pool b = 0 then
        some { sys with
          pool := sys.pool.touch [b]
          engine := Function.update sys.engine b (sys.engine b + 1)
          epoch := Function.update sys.epoch b (sys.epoch b + 1) }
      else none
  | .touchBlock b =>
      some { sys with
        pool := sys.pool.touch [b]
        engine := Function.update sys.engine b (sys.engine b + 1) }
  | .freeBlock b =>
      if 0 < sys.engine b then
        some { sys with
          pool := sys.pool.freeBlocks [b]
          engine := Function.update sys.engine b (sys.engine b - 1) }
      else none

/-- Nothing saved yet; the engine may hold blocks already. -/
structure Init (sys : StoreSystem) : Prop where
  scheduler : sys.scheduler = {}
  pool : ∀ b, sys.pool b = sys.engine b
  ranks : ∀ i, sys.ranks i = {}
  tails : sys.tails = []

/-- The machine of a deployment. -/
def machine : Machine StoreSystem StoreAction where
  init := Init
  step := step dep

end StoreSystem

end KVServe.Store

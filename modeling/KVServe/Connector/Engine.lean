import KVServe.Connector.Scheduler
import KVServe.Lib.Transition

/-!
# KVServe.Connector.Engine

**The two engines and their connectors.** vLLM's scheduler is modelled by what it
promises the connector: a waiting or preempted request is admitted with the prefix-cache
hit the scheduler found, the connector is asked for its external tokens and told about
its blocks, and the request is in the output of the same step, among the new requests or
marked as resumed among the cached ones. Running and resumed requests stand in
`scheduled_cached_reqs` in any order. A preempted request has lost its computed tokens.

`emitted` is the history of all metadata entries `build_connector_meta` returned: the
transfers of a producer, the loads of a consumer.
-/

namespace KVServe.Connector

/-- The id under which a request is transferred. -/
def Request.resolvedId (request : Request) : String := request.routedId.getD request.requestId

/-- The request as it was added, before any output. -/
def Request.added (request : Request) : Request := { request with outputTokenIds := [] }

/-- Where the scheduler has a request. -/
inductive Phase
  | waiting
  | running
  | preempted
  | finished
  | aborted
  deriving DecidableEq, Repr

/-- A request the scheduler knows. -/
structure Tracked where
  request : Request
  phase : Phase := .waiting
  /-- `num_computed_tokens`. -/
  computed : Nat := 0
  deriving DecidableEq, Repr

/-- A waiting or preempted request is given blocks. -/
structure Admission where
  request : Request
  /-- The tokens the prefix cache holds. -/
  numComputed : Nat
  blockIds : List Nat
  deriving DecidableEq, Repr

/-- A row of `scheduled_cached_reqs`. -/
inductive CachedEntry
  | running (reqId : String) (newBlockIds : Option (List Nat))
  | resumed (admission : Admission)
  deriving DecidableEq, Repr

namespace CachedEntry

def reqId : CachedEntry → String
  | .running id _ => id
  | .resumed a => a.request.requestId

def admission? : CachedEntry → Option Admission
  | .running _ _ => none
  | .resumed a => some a

end CachedEntry

/-- A scheduler and its connector. -/
structure Engine where
  connector : CompressedKVConnector
  requests : String → Option Tracked := fun _ => none
  /-- The transfer ids of the requests added so far. -/
  issued : List String := []
  emitted : List ReqMeta := []

/-- One step of an engine. -/
inductive Action
  | add (request : Request)
  | schedule (news : List Admission) (cached : List CachedEntry) (scheduled : String → Nat)
  | preempt (id : String)
  | finish (id : String)
  | abort (id : String)

namespace Engine

/-- The request may be admitted from this phase. -/
def admits (e : Engine) (phase : Phase) (a : Admission) : Bool :=
  match e.requests a.request.requestId with
  | some t =>
      t.phase = phase ∧ t.request = a.request.added ∧
        a.numComputed ≤ a.request.promptTokenIds.length
  | none => false

def isRunning (e : Engine) (id : String) : Bool :=
  match e.requests id with
  | some t => t.phase = .running
  | none => false

/-- The row may be scheduled. -/
def runs (e : Engine) : CachedEntry → Bool
  | .running id _ => e.isRunning id
  | .resumed a => e.admits .preempted a

/-- The external tokens of an admitted request. -/
def external (e : Engine) (a : Admission) : Nat :=
  e.connector.getNumNewMatchedTokens a.request a.numComputed

/-- The calls for an admitted request. -/
def alloc (c : CompressedKVConnector) (a : Admission) : CompressedKVConnector :=
  c.updateStateAfterAlloc a.request a.blockIds (c.getNumNewMatchedTokens a.request a.numComputed)

def newReq (e : Engine) (a : Admission) : NewReq :=
  { reqId := a.request.requestId, promptTokenIds := a.request.promptTokenIds
    blockIds := a.blockIds, numComputedTokens := a.numComputed + e.external a }

def computedOf (e : Engine) (id : String) : Nat := ((e.requests id).map (·.computed)).getD 0

def cachedReq (e : Engine) : CachedEntry → CachedReq
  | .running id newBlockIds =>
      { reqId := id, numComputedTokens := e.computedOf id, newBlockIds }
  | .resumed a =>
      { reqId := a.request.requestId, numComputedTokens := a.numComputed + e.external a
        newBlockIds := some a.blockIds }

def output (e : Engine) (news : List Admission) (cached : List CachedEntry)
    (scheduled : String → Nat) : SchedulerOutput :=
  { scheduledNewReqs := news.map e.newReq
    scheduledCachedReqs := cached.map e.cachedReq
    resumedReqIds := (cached.filterMap CachedEntry.admission?).map (·.request.requestId)
    numScheduledTokens := fun id => some (scheduled id) }

/-- The requests admitted in a step. -/
def admissions (news : List Admission) (cached : List CachedEntry) : List Admission :=
  news ++ cached.filterMap CachedEntry.admission?

/-- A request after the step it was scheduled in. -/
def advance (e : Engine) (news : List Admission) (cached : List CachedEntry)
    (scheduled : String → Nat) (id : String) (t : Tracked) : Tracked :=
  match (admissions news cached).find? (·.request.requestId = id) with
  | some a =>
      { t with phase := .running, computed := a.numComputed + e.external a + scheduled id }
  | none =>
      if id ∈ cached.map CachedEntry.reqId then { t with computed := t.computed + scheduled id }
      else t

/-- The ids a step schedules. -/
def ids (news : List Admission) (cached : List CachedEntry) : List String :=
  news.map (·.request.requestId) ++ cached.map CachedEntry.reqId

/-- `schedule()`: admissions, then `build_connector_meta`. -/
def schedule (e : Engine) (news : List Admission) (cached : List CachedEntry)
    (scheduled : String → Nat) : Option Engine :=
  if (ids news cached).Nodup ∧ news.all (e.admits .waiting) ∧ cached.all e.runs then do
    let c := (admissions news cached).foldl alloc e.connector
    let (c, metas) ← c.buildConnectorMeta (e.output news cached scheduled)
    return { e with
      connector := c
      requests := fun id => (e.requests id).map (e.advance news cached scheduled id)
      emitted := e.emitted ++ metas }
  else none

/-- The request with another phase. -/
def setTracked (e : Engine) (t : Tracked) : Engine :=
  { e with requests := Function.update e.requests t.request.requestId (some t) }

/-- A request leaves the scheduler. -/
def leave (e : Engine) (id : String) (t : Tracked) (phase : Phase) : Engine :=
  { e.setTracked { t with phase } with connector := e.connector.requestFinished id }

def step (e : Engine) : Action → Option Engine
  | .add request =>
      if e.requests request.requestId = none ∧ request.resolvedId ∉ e.issued ∧
          request.outputTokenIds = [] then
        some { e.setTracked { request } with issued := request.resolvedId :: e.issued }
      else none
  | .schedule news cached scheduled => e.schedule news cached scheduled
  | .preempt id =>
      match e.requests id with
      | some t =>
          if t.phase = .running then
            some (e.setTracked { t with phase := .preempted, computed := 0 })
          else none
      | none => none
  | .finish id =>
      -- an output token needs the whole prompt
      match e.requests id with
      | some t =>
          if t.phase = .running ∧ t.request.promptTokenIds.length ≤ t.computed then
            some (e.leave id t .finished)
          else none
      | none => none
  | .abort id =>
      match e.requests id with
      | some t =>
          if t.phase = .waiting ∨ t.phase = .running ∨ t.phase = .preempted then
            some (e.leave id t .aborted)
          else none
      | none => none

/-- How often a transfer id was emitted. -/
def emissions (e : Engine) (transferId : String) : Nat :=
  e.emitted.countP (·.transferId = transferId)

/-- The request with this transfer id has finished. -/
def Finished (e : Engine) (transferId : String) : Prop :=
  ∃ id t, e.requests id = some t ∧ t.request.resolvedId = transferId ∧ t.phase = .finished

end Engine

/-! ### The pair -/

/-- A prefill engine and a decode engine. -/
structure Pair where
  producer : Engine
  consumer : Engine

inductive PairAction
  | producer (a : Action)
  | consumer (a : Action)

namespace Pair

/-- The transfers of the producer. -/
def transfers (p : Pair) (transferId : String) : Nat := p.producer.emissions transferId

/-- The loads of the consumer. -/
def loads (p : Pair) (transferId : String) : Nat := p.consumer.emissions transferId

def step (p : Pair) : PairAction → Option Pair
  | .producer a => (p.producer.step a).map fun e => { p with producer := e }
  | .consumer a => (p.consumer.step a).map fun e => { p with consumer := e }

/-- Two fresh engines. -/
def Initial (p : Pair) : Prop :=
  ∃ blockSize blockSize',
    p = { producer := { connector := { isProducer := true, blockSize } }
          consumer := { connector := { isProducer := false, blockSize := blockSize' } } }

def machine : Machine Pair PairAction where
  init := Initial
  step := step

end Pair

end KVServe.Connector

import KVServe.Session.Protocol
import Mathlib.Logic.Function.Basic

/-!
# KVServe.Session.Book

The **session and accounting tables** of a producer helper (`_SessionService`
of `session_process.py`): `_send_meta`, `_closed`, `_producer_sessions`, the
`_SendState` counters and the functions that only touch these.

Python objects that are shared by reference (`_SendState`, `_ProducerSession`)
live in append-only lists and are named by index; the dictionaries over them
are partial functions. `claims`, `finished`, `announcements` and the fields
`opener` and `encoded` of a session are history: no definition reads them to
decide anything.
-/

namespace KVServe.Session

/-- `_ABORT_TIMEOUT_S`. -/
def abortTimeout : Nat := 480

/-- `_PENDING_REQ_EXPIRY_S`. -/
def pendingReqExpiry : Nat := abortTimeout + 60

/-! ### State -/

/-- `_SendState`. An empty `p_req_id` is "not announced yet"; `expireTime = none`
is the initial `inf`. -/
structure SendState where
  transferId : TransferId
  pReqId : ReqId := ""
  localBlockIds : BlockIds := []
  numTokens : Option Nat := none
  ready : Bool := false
  expireTime : Option Nat := none
  needSend : Nat := 0
  sent : Nat := 0
  sending : Int := 0
  deriving DecidableEq, Repr

inductive SessionState
  | active
  | complete
  | failed
  | cancelled
  deriving DecidableEq, Repr

namespace SessionState

/-- The `{session.state}` of an error message. -/
def name : SessionState → String
  | active => "ACTIVE"
  | complete => "COMPLETE"
  | failed => "FAILED"
  | cancelled => "CANCELLED"

/-- `session.state in ("CANCELLED", "FAILED")`. -/
def dead : SessionState → Bool
  | failed | cancelled => true
  | active | complete => false

end SessionState

/-- `_ProducerSession`. -/
structure ProducerSession where
  identity : Identity
  transferId : TransferId
  dReqId : ReqId
  nonce : Nonce
  remoteSession : String × Nat
  localBlockIds : BlockIds
  validTokensByGroup : List (Nat × Nat)
  logicalBlockCount : Nat
  totalChunks : Nat
  completedChunks : Nat := 0
  inflightChunks : Int := 0
  state : SessionState := .active
  /-- The `_SendState` the session was claimed on. -/
  sendState : Nat
  /-- History: the open handler that created the session. -/
  opener : Nat
  /-- History: the chunks whose encode job was answered without error. -/
  encoded : List Nat := []
  deriving DecidableEq, Repr

namespace ProducerSession

def key (session : ProducerSession) : SessionKey :=
  (session.identity, session.transferId, session.dReqId)

def operationKey (session : ProducerSession) : OperationKey :=
  (session.transferId, session.dReqId, session.nonce)

end ProducerSession

/-- The session and accounting tables of a producer helper. -/
structure Book where
  /-- Every `_SendState` ever created. -/
  states : List SendState := []
  sendMeta : TransferId → Option Nat := fun _ => none
  closed : OperationKey → Option Nat := fun _ => none
  /-- Every `_ProducerSession` ever created. -/
  sessions : List ProducerSession := []
  producerSessions : SessionKey → Option Nat := fun _ => none
  finalEvents : List FinalEvent := []
  /-- History: announcements applied. -/
  announcements : List ProducerAnnouncement := []
  /-- History: `sending += 1`, as (open task, `_SendState`). -/
  claims : List (Nat × Nat) := []
  /-- History: `_finish_send_meta`, by the claim it ends. -/
  finished : List Nat := []

/-! ### Sessions and send accounting -/

namespace Book

def modifySession (b : Book) (ref : Nat) (f : ProducerSession → ProducerSession) : Book :=
  { b with sessions := b.sessions.modify ref f }

def setSessionState (b : Book) (ref : Nat) (state : SessionState) : Book :=
  b.modifySession ref fun x => { x with state }

/-- `session.inflight_chunks += n`. -/
def addInflight (b : Book) (ref : Nat) (n : Int) : Book :=
  b.modifySession ref fun x => { x with inflightChunks := x.inflightChunks + n }

/-- `session.completed_chunks += 1`. -/
def countChunk (b : Book) (ref chunkId : Nat) : Book :=
  b.modifySession ref fun x =>
    { x with
      completedChunks := x.completedChunks + 1
      encoded := x.encoded ++ [chunkId] }

def modifyState (b : Book) (ref : Nat) (f : SendState → SendState) : Book :=
  { b with states := b.states.modify ref f }

/-- Is the session the one filed under its key? -/
def registered (b : Book) (ref : Nat) : Bool :=
  match b.sessions[ref]? with
  | some session => b.producerSessions session.key = some ref
  | none => false

/-- `state.ready`: the block table has been announced. -/
def isReady (b : Book) (ref : Nat) : Bool := (b.states[ref]?.map SendState.ready).getD false

/-- `_send_meta.pop(transfer_id, None)`. -/
def popSend (b : Book) (transferId : TransferId) : Book :=
  { b with sendMeta := Function.update b.sendMeta transferId none }

/-- `_to_engine(FinalEvent(...))`. -/
def emit (b : Book) (kind : FinalKind) (reqId : ReqId) : Book :=
  { b with finalEvents := b.finalEvents ++ [⟨kind, reqId⟩] }

/-- `_closed[key] = time.monotonic() + _PENDING_REQ_EXPIRY_S`. -/
def close (b : Book) (now : Nat) (key : OperationKey) : Book :=
  { b with closed := Function.update b.closed key (some (now + pendingReqExpiry)) }

/-- `_send_meta.pop(state.transfer_id)` with its `FinalEvent`, once the count is reached. -/
def releaseSend (b : Book) (ref : Nat) : Book :=
  match b.states[ref]? with
  | none => b
  | some m =>
      if m.sent = m.needSend ∧ (b.sendMeta m.transferId).isSome then
        (b.popSend m.transferId).emit .sending m.pReqId
      else b

/-- `state.sending -= 1; state.sent += 1`. -/
def countSent (b : Book) (claim ref : Nat) : Book :=
  { b.modifyState ref fun m => { m with sending := m.sending - 1, sent := m.sent + 1 } with
    finished := b.finished ++ [claim] }

/-- `_finish_send_meta`. -/
def finishSendMeta (b : Book) (claim ref : Nat) : Book :=
  (b.countSent claim ref).releaseSend ref

/-- `_producer_sessions.pop(key, None)`. -/
def popSession (b : Book) (key : SessionKey) : Book :=
  { b with producerSessions := Function.update b.producerSessions key none }

/-- `_complete_producer_session`. The `pop` happens whatever it returns. -/
def completeProducerSession (b : Book) (now ref : Nat) : Book :=
  match b.sessions[ref]? with
  | none => b
  | some session =>
      if b.producerSessions session.key = some ref then
        (((b.popSession session.key).setSessionState ref .complete).close now
          session.operationKey).finishSendMeta session.opener session.sendState
      else b.popSession session.key

/-- `_discard_producer_session`. -/
def discardProducerSession (b : Book) (ref : Nat) : Book :=
  match b.sessions[ref]? with
  | none => b
  | some session =>
      if b.producerSessions session.key = some ref then
        if session.state.dead then
          (b.popSession session.key).finishSendMeta session.opener session.sendState
        else
          (b.popSession session.key).modifyState session.sendState fun m =>
            { m with sending := m.sending - 1 }
      else b.popSession session.key

/-- File a new session. -/
def addSession (b : Book) (session : ProducerSession) : Book :=
  { b with
    sessions := b.sessions ++ [session]
    producerSessions := Function.update b.producerSessions session.key (some b.sessions.length) }

/-- `session.inflight_chunks` drops to zero on a dead session: discard it. -/
def discardIfIdle (b : Book) (ref : Nat) : Book :=
  match b.sessions[ref]? with
  | some session =>
      if session.inflightChunks = 0 ∧ session.state.dead then b.discardProducerSession ref else b
  | none => b

/-- `state.sending += 1` and `need_send` from the first opener. -/
def claim (b : Book) (tid ref targets : Nat) : Book :=
  let b := b.modifyState ref fun m =>
    { m with
      sending := m.sending + 1
      needSend := if m.needSend = 0 then targets else m.needSend }
  { b with claims := b.claims ++ [(tid, ref)] }

/-- Drop a placeholder that was never announced. -/
def dropPlaceholder (b : Book) (transferId : TransferId) (ref : Nat) (isNew : Bool) : Book :=
  match b.states[ref]? with
  | some m =>
      if isNew ∧ b.sendMeta transferId = some ref ∧ m.ready = false ∧ m.pReqId = "" ∧
          m.sending = 0 then
        b.popSend transferId
      else b
  | none => b

/-- The clean-up of a failed open: give the claim back, drop the placeholder. -/
def openFailed (b : Book) (tid : Nat) (transferId : TransferId) (ref : Nat)
    (isNew claimed : Bool) : Book :=
  (if claimed then b.finishSendMeta tid ref else b).dropPlaceholder transferId ref isNew

/-- Complete an active session whose last chunk is counted. -/
def completeIfDone (b : Book) (now ref : Nat) : Book :=
  match b.sessions[ref]? with
  | some session =>
      if session.state = SessionState.active ∧ session.completedChunks = session.totalChunks then
        b.completeProducerSession now ref
      else b
  | none => b

/-- A chunk was encoded and written: count it, complete the session with the last one. -/
def chunkEncoded (b : Book) (now ref chunkId : Nat) : Book :=
  (b.countChunk ref chunkId).completeIfDone now ref

/-- The session an abort applies to: the one under the sender's own key, else
any filed session with the same operation key. -/
def findSession (b : Book) (identity : Identity) (request : CompressionAbort) : Option Nat :=
  match b.producerSessions (identity, request.transferId, request.dReqId) with
  | some ref => some ref
  | none =>
      (List.range b.sessions.length).find? fun ref =>
        b.registered ref &&
          match b.sessions[ref]? with
          | some session => session.operationKey = request.operationKey
          | none => false

/-- `session is not None and session.nonce == request.nonce`. -/
def sameNonce (b : Book) (request : CompressionAbort) (found : Option Nat) : Option Nat :=
  found.bind fun ref =>
    if (b.sessions[ref]?.map ProducerSession.nonce) = some request.nonce then some ref else none

/-- Mark one session cancelled and discard it unless a chunk is in flight. -/
def cancelSession (b : Book) (ref : Nat) : Book :=
  (b.setSessionState ref .cancelled).discardIfIdle ref

/-- One step of the final sweep of an abort over `_producer_sessions`. -/
def cancelMatching (key : OperationKey) (b : Book) (ref : Nat) : Book :=
  match b.sessions[ref]? with
  | some session =>
      if b.registered ref ∧ session.operationKey = key then b.cancelSession ref else b
  | none => b

/-- The final sweep of an abort. -/
def cancelAll (b : Book) (key : OperationKey) : Book :=
  (List.range b.sessions.length).foldl (cancelMatching key) b

/-- What an announcement writes into a `_SendState`. -/
def fillState (now : Nat) (announcement : ProducerAnnouncement) (m : SendState) : SendState :=
  { m with
    pReqId := announcement.pReqId
    localBlockIds := announcement.localBlockIds
    numTokens := announcement.numTokens
    expireTime := some (now + abortTimeout)
    ready := true }

/-- `_send_meta[transfer_id] = _SendState(...)`. -/
def addState (b : Book) (m : SendState) : Book :=
  { b with
    states := b.states ++ [m]
    sendMeta := Function.update b.sendMeta m.transferId (some b.states.length) }

/-- One announcement of `_apply_producer_metadata`. -/
def applyAnnouncement (now : Nat) (b : Book) (announcement : ProducerAnnouncement) : Book :=
  let b := { b with announcements := b.announcements ++ [announcement] }
  match b.sendMeta announcement.transferId with
  | some ref => b.modifyState ref (fillState now announcement)
  | none => b.addState (fillState now announcement { transferId := announcement.transferId })

/-- One publication of `_apply_producer_metadata`. -/
def applyPublish (b : Book) (published : ProducerPublish) : Book :=
  match b.sendMeta published.transferId with
  | some ref =>
      b.modifyState ref fun m => if m.pReqId = "" then { m with pReqId := published.pReqId } else m
  | none => b.addState { transferId := published.transferId, pReqId := published.pReqId }

/-- `_apply_producer_metadata`. -/
def applyProducerMetadata (b : Book) (now : Nat) (message : ProducerMetadata) : Book :=
  let b := message.announced.foldl (applyAnnouncement now) b
  let b := message.published.foldl applyPublish b
  message.dropped.foldl popSend b

/-- One entry of the loop of `_sweep_sends`. -/
def sweepState (now : Nat) (b : Book) (ref : Nat) : Book :=
  match b.states[ref]? with
  | none => b
  | some m =>
      if b.sendMeta m.transferId = some ref ∧ m.pReqId ≠ "" ∧
          (m.expireTime.any fun expiry => decide (expiry < now)) ∧ m.sending = 0 then
        (b.emit .sendingExpired m.pReqId).popSend m.transferId
      else b

/-- One round of `_sweep_sends`. -/
def sweepSends (b : Book) (now : Nat) : Book :=
  (List.range b.states.length).foldl (sweepState now) b

end Book

end KVServe.Session

import KVServe.Lib.Channel
import KVServe.Session.ConsumerTalk
import KVServe.Session.ProducerAbort
import KVServe.Session.ProducerConduct

/-!
# KVServe.Session.System

**One producer helper and one consumer helper** that both run
`session_process.py`, with a reliable FIFO socket for each consumer session. A
step is a step of one of the two helpers, whose messages join the channels, or
the arrival of the oldest message of one socket. Which of these happens next is
left open.

`SystemInv` carries the conversation: what the producer has received is what the
session of that socket has said so far, and what a session holds was really
answered. From it, the requests that arrive are the well-behaved ones of
`Producer.Conduct`, so the accounting of the producer holds on every run of the
system.
-/

namespace KVServe.Session

/-- A producer helper, a consumer helper and the messages on their way, oldest first. -/
structure System where
  producer : Producer
  consumer : Consumer
  up : List (Identity × CompressionRequest) := []
  down : List (Identity × CompressionResponse) := []

namespace System

inductive Action
  /-- A step of the producer other than the arrival of a request. -/
  | producer (a : Producer.Action)
  /-- A step of the consumer other than the arrival of a reply. -/
  | consumer (a : Consumer.Action)
  /-- The oldest request of a socket arrives at the router. -/
  | deliverUp (identity : Identity)
  /-- The oldest reply on the socket of a session arrives. -/
  | deliverDown (sid : Nat)
  deriving DecidableEq

/-- Does the action bring a message in? -/
def isRecv : Producer.Action → Bool
  | .recv .. => true
  | _ => false

def isDeliver : Consumer.Action → Bool
  | .deliver .. => true
  | _ => false

/-- The step function. The socket of a session exists once it has started. -/
def step (s : System) : Action → Option System
  | .producer a =>
      if isRecv a then none
      else (s.producer.step a).map fun p =>
        { s with producer := p, down := s.down ++ p.replies.drop s.producer.replies.length }
  | .consumer a =>
      if isDeliver a then none
      else (s.consumer.step a).map fun c =>
        { s with consumer := c, up := s.up ++ c.sent.drop s.consumer.sent.length }
  | .deliverUp identity =>
      (takeFirst identity s.up).bind fun taken =>
        (s.producer.step (.recv identity taken.1)).map fun p =>
          { s with producer := p, up := taken.2 }
  | .deliverDown sid =>
      match s.consumer.sessions[sid]? with
      | none => none
      | some σ =>
          if σ.pos = .created then none
          else
            (takeFirst σ.identity s.down).bind fun taken =>
              (s.consumer.step (.deliver sid taken.1)).map fun c =>
                { s with consumer := c, down := taken.2 }

end System

/-- Two helpers started with their configurations. -/
def systemMachine (producer consumer : InitMessage) : Machine System System.Action where
  init s := s = { producer := Producer.start producer, consumer := Consumer.start consumer }
  step := System.step

/-! ### What a step of one helper adds -/

namespace Producer

variable {s s' : Producer} {a : Action}

/-- Replies are only ever added. -/
theorem step_sends (hstep : s.step a = some s') : ∃ new, s'.replies = s.replies ++ new := by
  rcases step_replies hstep with heq | ⟨tid, rfl⟩ | ⟨tid, rfl⟩
  · exact ⟨[], by rw [heq, List.append_nil]⟩
  · obtain ⟨task, -, ⟨-, rfl⟩ | ⟨-, hruns⟩⟩ := run_cases hstep
    · exact ⟨[], by rw [runCancelled_replies, List.append_nil]⟩
    · rcases hruns.answers with heq | ⟨⟨response, heq, -⟩, -⟩
      · exact ⟨[], by rw [heq, List.append_nil]⟩
      · exact ⟨_, heq⟩
  · obtain ⟨task, -, -, hruns⟩ := timeout_cases hstep
    rcases hruns.answers with heq | ⟨⟨response, heq, -⟩, -⟩
    · exact ⟨[], by rw [heq, List.append_nil]⟩
    · exact ⟨_, heq⟩

/-- Only an arriving request is received. -/
theorem step_received (hstep : s.step a = some s') (ha : System.isRecv a = false) :
    s'.received = s.received := by
  cases a with
  | recv => cases ha
  | run tid =>
      obtain ⟨task, -, ⟨-, rfl⟩ | ⟨-, hruns⟩⟩ := run_cases hstep
      · exact (runCancelled_frame task).received
      · exact hruns.frame.received
  | timeout tid =>
      obtain ⟨task, -, -, hruns⟩ := timeout_cases hstep
      exact hruns.frame.received
  | _ =>
      simp only [step] at hstep
      (try split at hstep) <;> cases hstep
      rfl

/-- A request that arrives is filed or, once the helper is stopping, dropped. -/
theorem recv_received {identity : Identity} {request : CompressionRequest}
    (hstep : s.step (.recv identity request) = some s') :
    (s'.received = s.received ++ [(identity, request)] ∨ s'.received = s.received) ∧
      s'.replies = s.replies := by
  simp only [step] at hstep
  split at hstep
  · obtain rfl := Option.some.inj hstep
    unfold dispatchProducer
    split
    · exact ⟨Or.inr rfl, rfl⟩
    · exact ⟨Or.inl rfl, rfl⟩
  · cases hstep

end Producer

namespace Consumer

variable {s s' : Consumer} {a : Action}

theorem step_init (hstep : s.step a = some s') : s'.init = s.init := by
  cases step_cases hstep <;> rfl

/-- A step says what one session hands to the loop. -/
theorem step_sent (hstep : s.step a = some s') :
    (s'.sent = s.sent ∧ (∀ {sid : Nat} {σ' : ConsumerSession}, s'.sessions[sid]? = some σ' →
        (∃ σ, s.sessions[sid]? = some σ ∧ (σ' = σ ∨ σ' = { σ with cancelRequested := true })) ∨
          ∃ request rid, σ' = { request, rid }) ∧
        ∀ {sid : Nat} {σ : ConsumerSession}, s.sessions[sid]? = some σ →
          ∃ σ', s'.sessions[sid]? = some σ' ∧ σ'.identity = σ.identity) ∨
      ∃ (sid : Nat) (σ : ConsumerSession) (turn : Turn), s.sessions[sid]? = some σ ∧
        s'.sessions = s.sessions.modify sid (fun _ => turn.session) ∧
        s'.sent = s.sent ++ turn.sends.map (fun message => (turn.session.identity, message)) ∧
        (s.Moves sid σ a turn ∨ ∃ chunkId slot fails, σ.issue = .running chunkId ∧
          turn = σ.issueChunk s.init chunkId slot fails) := by
  cases step_cases hstep with
  | starts =>
      refine Or.inl ⟨rfl, fun hσ' => ?_, fun {sid σ} hσ => ⟨σ, ?_, rfl⟩⟩
      · rcases getElem?_startSessions hσ' with hσ | ⟨-, rfl⟩
        · exact Or.inl ⟨_, hσ, Or.inl rfl⟩
        · exact Or.inr ⟨_, _, rfl⟩
      · rw [startSessions, List.getElem?_append_left (List.getElem?_eq_some_iff.mp hσ).1]
        exact hσ
  | session hσ hmove => exact Or.inr ⟨_, _, _, hσ, rfl, rfl, Or.inl hmove⟩
  | issue hσ hissue =>
      exact Or.inr ⟨_, _, _, hσ, rfl, rfl, Or.inr ⟨_, _, _, hissue, rfl⟩⟩
  | shutdown =>
      refine Or.inl ⟨rfl, fun hσ' => ?_, fun {sid σ} hσ => ?_⟩
      · simp only [Consumer.shutdown, List.getElem?_map, Option.map_eq_some_iff] at hσ'
        obtain ⟨σ, hσ, rfl⟩ := hσ'
        refine Or.inl ⟨σ, hσ, ?_⟩
        split
        · exact Or.inl rfl
        · exact Or.inr rfl
      · simp only [Consumer.shutdown, List.getElem?_map, hσ, Option.map_some]
        refine ⟨_, rfl, ?_⟩
        split <;> rfl
  | _ =>
      exact Or.inl ⟨rfl, fun hσ' => Or.inl ⟨_, hσ', Or.inl rfl⟩, fun hσ => ⟨_, hσ, rfl⟩⟩

/-- A session that was never started. -/
def Blank (σ : ConsumerSession) : Prop :=
  σ = { request := σ.request, rid := σ.rid, cancelRequested := σ.cancelRequested, pos := σ.pos } ∧
    (σ.pos = .created ∨ σ.pos.isEnded = true)

/-- What the sessions of a consumer have been told and have said. `R` is the set of
messages sent to each socket. -/
structure Voices (R : Identity → CompressionResponse → Prop) (s : Consumer) : Prop where
  tasks : s.TaskBook
  talk : ∀ {sid : Nat} {σ : ConsumerSession}, s.sessions[sid]? = some σ → σ.Talk (R σ.identity)
  blank : ∀ {sid : Nat} {σ : ConsumerSession}, s.sessions[sid]? = some σ → σ.identity = "" →
    Blank σ
  nonce : ∀ {sid : Nat} {σ : ConsumerSession}, s.sessions[sid]? = some σ → σ.identity ≠ "" →
    σ.nonce ≠ ""
  script : ∀ {sid : Nat} {σ : ConsumerSession}, s.sessions[sid]? = some σ → σ.identity ≠ "" →
    σ.Script s.init (onChannel σ.identity s.sent)
  named : ∀ identity, onChannel identity s.sent ≠ [] → identity ≠ "" ∧
    ∃ (sid : Nat) (σ : ConsumerSession), s.sessions[sid]? = some σ ∧ σ.identity = identity

theorem start_voices (R : Identity → CompressionResponse → Prop) (init : InitMessage) :
    Voices R (start init) where
  tasks := start_taskBook init
  talk hσ := by simp [start] at hσ
  blank hσ := by simp [start] at hσ
  nonce hσ := by simp [start] at hσ
  script hσ := by simp [start] at hσ
  named identity hne := absurd rfl hne

variable {R : Identity → CompressionResponse → Prop} {sid : Nat} {σ : ConsumerSession} {turn : Turn}

/-- Nothing but its end happens to a session that was never started. -/
theorem Moves.blank (h : s.Moves sid σ a turn) (hblank : Blank σ)
    (ha : ∀ nonce identity, a ≠ .start sid nonce identity)
    (hdeliver : ∀ response, a = .deliver sid response → σ.pos ≠ .created) :
    Blank turn.session ∧ turn.sends = [] := by
  obtain ⟨heq, hpos⟩ := hblank
  cases h with
  | start => exact absurd rfl (ha _ _)
  | resume _ hturn =>
      obtain ⟨hcreated, hended⟩ := hturn.live
      rcases hpos with hpos | hpos
      · exact absurd hpos hcreated
      · rw [hended] at hpos; cases hpos
  | cancel _ hturn =>
      cases hturn with
      | unstarted =>
          refine ⟨⟨?_, Or.inr rfl⟩, rfl⟩
          unfold ConsumerSession.uncancelled
          rw [heq]
          rfl
      | body hcreated _ hended =>
          rcases hpos with hpos | hpos
          · exact absurd hpos hcreated
          · rw [hended] at hpos; cases hpos
      | gather hgather =>
          rcases hpos with hpos | hpos <;> rw [hgather] at hpos <;> cases hpos
      | skips hfinally =>
          rcases hpos with hpos | hpos
          · rw [hpos] at hfinally; cases hfinally
          · cases hp : σ.pos <;> rw [hp] at hfinally hpos <;>
              first
              | (cases hpos; done)
              | cases hfinally
      | skipsGather hgather =>
          rcases hpos with hpos | hpos <;> rw [hgather] at hpos <;> cases hpos
  | startRecv hσ' => rw [heq] at hσ'; cases hσ'
  | @callbacks task _ hσ' =>
      rw [heq] at hσ'
      cases task <;> cases hσ'
  | startDecode hturn => rw [heq] at hturn; cases hturn
  | finishDecode hturn => rw [heq] at hturn; cases hturn
  | decodeTimeout hσ' => rw [heq] at hσ'; cases hσ'
  | drainTimeout hdrain => rcases hpos with hpos | hpos <;> rw [hdrain] at hpos <;> cases hpos
  | deliver response =>
      have hended : σ.pos.isEnded = true := hpos.resolve_left (hdeliver response rfl)
      rw [ConsumerSession.arrive, if_pos hended]
      exact ⟨⟨heq, Or.inr hended⟩, rfl⟩
  | expireRecv hσ' => rw [heq] at hσ'; cases hσ'

/-- Only the cancellation flag of a session changes. -/
theorem talk_cancelRequested {R : CompressionResponse → Prop} (h : σ.Talk R) :
    { σ with cancelRequested := true }.Talk R :=
  ⟨⟨h.inbox, h.recvTask, h.total, h.issue, h.grants, h.distinct, h.accepted, h.acked⟩, h.opening,
    h.aborting, h.early, fun hpos => by
      have heq := h.created hpos
      rw [heq]⟩

/-- The session that moves, by whether this is its start. -/
theorem Voices.script_turn (h : Voices R s) (hσ : s.sessions[sid]? = some σ)
    (hcases : s.Moves sid σ a turn ∨ ∃ chunkId slot fails, σ.issue = .running chunkId ∧
      turn = σ.issueChunk s.init chunkId slot fails)
    (hdeliver : ∀ response, a = .deliver sid response → σ.pos ≠ .created) :
    (turn.session.identity = "" → Blank turn.session ∧ turn.sends = []) ∧
      (turn.session.identity ≠ "" → turn.session.nonce ≠ "" ∧
        turn.session.Script s.init (onChannel turn.session.identity s.sent ++ turn.sends)) ∧
      (σ.identity ≠ "" → turn.session.identity = σ.identity) := by
  rcases hcases with hmove | ⟨chunkId, slot, fails, hissue, rfl⟩
  · by_cases hstart : ∃ nonce identity, a = .start sid nonce identity
    · obtain ⟨nonce, identity, rfl⟩ := hstart
      cases hmove with
      | start hunused hpos =>
          obtain ⟨hnonce, hidentity, hfresh⟩ := unused_spec hunused
          have hnames : (σ.start s.init nonce identity).session.identity = identity ∧
              (σ.start s.init nonce identity).session.nonce = nonce ∧
              (σ.start s.init nonce identity).session.request = σ.request ∧
              (σ.start s.init nonce identity).session.grants = σ.grants := by
            unfold ConsumerSession.start ConsumerSession.callRecv
            dsimp only
            split <;> exact ⟨rfl, rfl, rfl, rfl⟩
          obtain ⟨h₁, h₂, h₃, h₄⟩ := hnames
          rw [h₁, h₂]
          refine ⟨fun hempty => absurd hempty hidentity, fun _ => ⟨hnonce, [], ?_, ?_, ?_⟩,
            fun hne => absurd (h.tasks.created hσ hpos).2 hne⟩
          · have hnone : onChannel identity s.sent = [] := by
              by_contra hne
              obtain ⟨-, j, τ, hτ, heq⟩ := h.named identity hne
              exact (hfresh hτ).2 heq
            rw [hnone, h₂, h₃]
            rfl
          · intro m hm
            cases hm
          · exact List.nil_sublist _
    · have ha : ∀ nonce identity, a ≠ .start sid nonce identity :=
        fun nonce identity heq => hstart ⟨nonce, identity, heq⟩
      obtain ⟨hnonce, hidentity, -⟩ := hmove.sameNames ha
      rw [hidentity, hnonce]
      exact ⟨fun hempty => hmove.blank (h.blank hσ hempty) ha hdeliver, fun hne =>
        ⟨h.nonce hσ hne, (h.script hσ hne).speaks hmove.follows.request hnonce (hmove.speaks ha)⟩,
        fun _ => rfl⟩
  · have hnames : (σ.issueChunk s.init chunkId slot fails).session.identity = σ.identity ∧
        (σ.issueChunk s.init chunkId slot fails).session.nonce = σ.nonce := by
      unfold ConsumerSession.issueChunk
      dsimp only
      split <;> exact ⟨rfl, rfl⟩
    rw [hnames.1, hnames.2]
    refine ⟨fun hempty => ?_, fun hne => ⟨h.nonce hσ hne, (h.script hσ hne).issueChunk⟩,
      fun _ => rfl⟩
    rw [(h.blank hσ hempty).1] at hissue
    cases hissue

/-- **A step of the consumer**, whose incoming message, if any, was sent to it. -/
theorem Voices.step (h : Voices R s) (hstep : s.step a = some s')
    (hdeliver : ∀ {sid : Nat} {σ : ConsumerSession} {response : CompressionResponse},
      a = .deliver sid response → s.sessions[sid]? = some σ →
      R σ.identity response ∧ σ.pos ≠ .created) : Voices R s' := by
  have htasks := h.tasks.step hstep
  rcases step_sent hstep with ⟨hsent, hsessions, hkept⟩ | ⟨sid, σ, turn, hσ, hsessions, hsent, hcases⟩
  · refine ⟨htasks, fun hσ' => ?_, fun hσ' hempty => ?_, fun hσ' hne => ?_, fun hσ' hne => ?_,
      fun identity hne => ?_⟩
    · rcases hsessions hσ' with ⟨σ, hσ, rfl | rfl⟩ | ⟨request, rid, rfl⟩
      · exact h.talk hσ
      · exact talk_cancelRequested (h.talk hσ)
      · exact ConsumerSession.talk_new request rid
    · rcases hsessions hσ' with ⟨σ, hσ, rfl | rfl⟩ | ⟨request, rid, rfl⟩
      · exact h.blank hσ hempty
      · obtain ⟨heq, hpos⟩ := h.blank hσ hempty
        refine ⟨?_, hpos⟩
        rw [heq]
      · exact ⟨rfl, Or.inl rfl⟩
    · rcases hsessions hσ' with ⟨σ, hσ, rfl | rfl⟩ | ⟨request, rid, rfl⟩
      · exact h.nonce hσ hne
      · exact h.nonce (σ := σ) hσ hne
      · exact absurd rfl hne
    · rw [hsent, step_init hstep]
      rcases hsessions hσ' with ⟨σ, hσ, rfl | rfl⟩ | ⟨request, rid, rfl⟩
      · exact h.script hσ hne
      · exact (h.script (σ := σ) hσ hne).of_eq rfl rfl rfl
      · exact absurd rfl hne
    · rw [hsent] at hne
      obtain ⟨hname, sid, σ, hσ, heq⟩ := h.named identity hne
      obtain ⟨σ', hσ', hid⟩ := hkept hσ
      exact ⟨hname, sid, σ', hσ', hid.trans heq⟩
  · obtain ⟨hblank, hscript, hkeep⟩ := h.script_turn hσ hcases fun response heq =>
      (hdeliver heq hσ).2
    have htalk : turn.session.Talk (R turn.session.identity) := by
      rcases hcases with hmove | ⟨chunkId, slot, fails, hissue, rfl⟩
      · exact hmove.talk (h.talk hσ) fun response heq => hdeliver heq hσ
      · have hid : (σ.issueChunk s.init chunkId slot fails).session.identity = σ.identity := by
          unfold ConsumerSession.issueChunk
          dsimp only
          split <;> rfl
        rw [hid]
        exact (h.talk hσ).issueChunk hissue
    have hget {j : Nat} {τ : ConsumerSession} (hτ : s'.sessions[j]? = some τ) :
        (j = sid ∧ τ = turn.session) ∨ (j ≠ sid ∧ s.sessions[j]? = some τ) := by
      rw [hsessions] at hτ
      rcases getElem?_modify_some hτ with ⟨rfl, -, -, rfl⟩ | ⟨hne, hτ⟩
      · exact Or.inl ⟨rfl, rfl⟩
      · exact Or.inr ⟨Ne.symm hne, hτ⟩
    have hself : s'.sessions[sid]? = some turn.session := by
      rw [hsessions]
      exact getElem?_modify_self hσ _
    refine ⟨htasks, fun hτ => ?_, fun hτ hempty => ?_, fun hτ hne => ?_, fun {j τ} hτ hne => ?_,
      fun identity hne => ?_⟩
    · rcases hget hτ with ⟨-, rfl⟩ | ⟨-, hτ⟩
      · exact htalk
      · exact h.talk hτ
    · rcases hget hτ with ⟨-, rfl⟩ | ⟨-, hτ⟩
      · exact (hblank hempty).1
      · exact h.blank hτ hempty
    · rcases hget hτ with ⟨-, rfl⟩ | ⟨-, hτ⟩
      · exact (hscript hne).1
      · exact h.nonce hτ hne
    · rw [hsent, step_init hstep, onChannel_append]
      rcases hget hτ with ⟨-, rfl⟩ | ⟨hj, hτ₀⟩
      · rw [onChannel_map_self]
        exact (hscript hne).2
      · have hother : turn.session.identity ≠ τ.identity := fun heq =>
          hj (htasks.identities hτ hself heq.symm hne)
        rw [onChannel_map_ne hother, List.append_nil]
        exact h.script hτ₀ hne
    · rw [hsent, onChannel_append] at hne
      by_cases hold : onChannel identity s.sent = []
      · rw [hold, List.nil_append] at hne
        have hid : turn.session.identity = identity := by
          by_contra hid
          exact hne (onChannel_map_ne hid _)
        refine ⟨fun hempty => ?_, sid, _, hself, hid⟩
        rw [(hblank (hid.trans hempty)).2] at hne
        exact hne rfl
      · obtain ⟨hname, j, τ, hτ, heq⟩ := h.named identity hold
        by_cases hj : j = sid
        · subst hj
          obtain rfl := Option.some.inj (hσ.symm.trans hτ)
          exact ⟨hname, j, _, hself, (hkeep (heq ▸ hname)).trans heq⟩
        · refine ⟨hname, j, τ, ?_, heq⟩
          rw [hsessions]
          exact (getElem?_modify_ne (Ne.symm hj) _).trans hτ

end Consumer

/-! ### The conversation -/

namespace System

variable {s s' : System} {a : Action}

/-- What the producer has answered on each socket. -/
def answered (s : System) (identity : Identity) (response : CompressionResponse) : Prop :=
  (identity, response) ∈ s.producer.replies

/-- The state of the conversation between the two helpers. -/
structure SystemInv (s : System) : Prop where
  conduct : s.producer.ConductInv
  voices : s.consumer.Voices s.answered
  down : s.down ⊆ s.producer.replies
  /-- What the producer has received on a socket is what was sent, in order, short
  of what is still on its way and of what a stopping helper has dropped. -/
  fifo : ∀ identity, ∃ gone, onChannel identity s.consumer.sent = gone ++ onChannel identity s.up ∧
    (onChannel identity s.producer.received).Sublist gone

/-- A message received was sent by the session of its socket. -/
theorem SystemInv.sender (h : SystemInv s) {identity : Identity} {request : CompressionRequest}
    (hmem : (identity, request) ∈ s.producer.received) :
    ∃ (sid : Nat) (σ : ConsumerSession), s.consumer.sessions[sid]? = some σ ∧
      σ.identity = identity ∧ σ.identity ≠ "" ∧
      request ∈ onChannel identity s.consumer.sent := by
  obtain ⟨gone, hsent, hsub⟩ := h.fifo identity
  have hgone : request ∈ gone := hsub.subset (mem_onChannel.mpr hmem)
  have hin : request ∈ onChannel identity s.consumer.sent := by
    rw [hsent]
    exact List.mem_append_left _ hgone
  obtain ⟨hname, sid, σ, hσ, heq⟩ :=
    h.voices.named identity (List.ne_nil_of_mem hin)
  exact ⟨sid, σ, hσ, heq, heq ▸ hname, hin⟩

/-- Whatever a session sends carries its own key. -/
theorem script_key {init : InitMessage} {messages : List CompressionRequest} {σ : ConsumerSession}
    (h : σ.Script init messages) {request : CompressionRequest} (hmem : request ∈ messages) :
    request.operationKey? = some σ.operationKey := by
  obtain ⟨rest, rfl, hkeys, -⟩ := h
  rcases List.mem_cons.mp hmem with rfl | hmem
  · rfl
  · rcases hkeys request hmem with ⟨pull, rfl, hkey⟩ | ⟨abort, rfl, hkey⟩
    · exact congrArg some hkey
    · exact congrArg some hkey

/-- An open is the first message of its socket. -/
theorem script_open {init : InitMessage} {gone later : List CompressionRequest}
    {σ : ConsumerSession} {request : CompressionSessionOpen}
    (h : σ.Script init (gone ++ .sessionOpen request :: later)) :
    gone = [] ∧ request = ConsumerSession.openRequest init σ.request σ.nonce := by
  obtain ⟨rest, heq, hkeys, -⟩ := h
  cases gone with
  | nil =>
      obtain ⟨hreq, -⟩ := List.cons.inj heq
      exact ⟨rfl, CompressionRequest.sessionOpen.inj hreq⟩
  | cons m gone =>
      obtain ⟨-, hrest⟩ := List.cons.inj heq
      have hmem : CompressionRequest.sessionOpen request ∈ rest := by
        rw [← hrest]
        exact List.mem_append_right _ List.mem_cons_self
      rcases hkeys _ hmem with ⟨pull, hpull, -⟩ | ⟨abort, habort, -⟩
      · cases hpull
      · cases habort

/-- A pull is for a granted chunk that was not pulled before. -/
theorem script_pull {init : InitMessage} {gone later : List CompressionRequest}
    {σ : ConsumerSession} {request : CompressionChunkPull} (hdistinct : (σ.grants.map (·.1)).Nodup)
    (h : σ.Script init (gone ++ .chunkPull request :: later)) :
    (∃ grant ∈ σ.grants, request = σ.pull init grant.1 grant.2) ∧
      ∀ other, .chunkPull other ∈ gone → other.chunkId ≠ request.chunkId := by
  obtain ⟨rest, heq, hkeys, hpulls⟩ := h
  cases gone with
  | nil => cases heq
  | cons m gone =>
      obtain ⟨rfl, rfl⟩ := List.cons.inj heq
      change ((gone ++ .chunkPull request :: later).filterMap _).Sublist _ at hpulls
      rw [List.filterMap_append, List.filterMap_cons] at hpulls
      constructor
      · have hmem := hpulls.subset (List.mem_append_right _ List.mem_cons_self)
        obtain ⟨grant, hgrant, heq⟩ := List.mem_map.mp hmem
        exact ⟨grant, hgrant, heq.symm⟩
      · intro other hother heq
        have hin : other ∈ gone.filterMap ConsumerSession.pull? := by
          rcases List.mem_cons.mp hother with hopen | hother
          · cases hopen
          · exact List.mem_filterMap.mpr ⟨_, hother, rfl⟩
        -- The chunks of the pulls are those of the grants, which are distinct.
        have hnodup := ((hpulls.map (·.chunkId)).nodup (by
          rw [List.map_map]
          exact hdistinct))
        rw [List.map_append, List.nodup_append] at hnodup
        exact hnodup.2.2 _ (List.mem_map_of_mem hin) _ (List.mem_cons_self) heq

/-- **The requests that arrive are well-behaved.** -/
theorem SystemInv.conducts (h : SystemInv s) {identity : Identity} {request : CompressionRequest}
    {rest : List (Identity × CompressionRequest)}
    (htake : takeFirst identity s.up = some (request, rest)) :
    s.producer.Conduct (.recv identity request) := by
  obtain ⟨gone, hsent, hsub⟩ := h.fifo identity
  rw [(takeFirst_spec htake).1] at hsent
  obtain ⟨hname, sid, σ, hσ, rfl⟩ := h.voices.named identity (by rw [hsent]; simp)
  have hscript := h.voices.script hσ hname
  cases request with
  | sessionOpen request =>
      have hscript' := hscript
      rw [hsent] at hscript'
      obtain ⟨rfl, rfl⟩ := script_open hscript'
      have hnone : ∀ entry ∈ s.producer.received, entry.1 ≠ σ.identity := by
        rintro ⟨peer, m⟩ hmem rfl
        exact List.not_mem_nil (hsub.subset (mem_onChannel.mpr hmem))
      refine ⟨rfl, hnone, fun entry hmem hkey => ?_⟩
      obtain ⟨peer, m⟩ := entry
      obtain ⟨j, τ, hτ, rfl, hτname, hin⟩ := h.sender hmem
      have hτkey := script_key (h.voices.script hτ hτname) hin
      have hnonce : τ.nonce = σ.nonce :=
        congrArg (fun key : OperationKey => key.2.2) (Option.some.inj (hτkey.symm.trans hkey))
      obtain rfl := h.voices.tasks.nonces hτ hσ hnonce (h.voices.nonce hτ hτname)
      obtain rfl := Option.some.inj (hσ.symm.trans hτ)
      exact hnone _ hmem rfl
  | chunkPull request =>
      have htalk := h.voices.talk hσ
      have hscript' := hscript
      rw [hsent] at hscript'
      obtain ⟨⟨grant, hgrant, rfl⟩, hfresh⟩ := script_pull htalk.distinct hscript'
      have hbelow := htalk.grants grant hgrant
      obtain ⟨opened, hopened, htotal⟩ := htalk.total (by omega)
      refine ⟨⟨opened, hopened, htotal ▸ hbelow⟩, ?_, fun other hmem => ?_⟩
      · -- The session the producer answered for was opened by this socket.
        obtain ⟨i, x, hx, hidentity, -⟩ := h.conduct.opened hopened (by omega)
        obtain ⟨u, open', hu, hcoro, hui, -⟩ := (h.conduct.session hx).opener
        have hmem := h.conduct.mem_received hu
        rw [hui, hidentity, hcoro] at hmem
        refine ⟨open', hmem, ?_⟩
        obtain ⟨gone', hsent', hsub'⟩ := h.fifo σ.identity
        have hin : CompressionRequest.sessionOpen open' ∈ onChannel σ.identity s.consumer.sent := by
          rw [hsent']
          exact List.mem_append_left _ (hsub'.subset (mem_onChannel.mpr hmem))
        exact script_key hscript hin
      · exact hfresh other (hsub.subset (mem_onChannel.mpr hmem))
  | abort request => trivial

/-- **The opens that arrive carry one request**: `SingleOpen` is kept by the consumer helper. -/
theorem SystemInv.singleOpen (h : SystemInv s) {identity : Identity} {request : CompressionRequest}
    {rest : List (Identity × CompressionRequest)}
    (htake : takeFirst identity s.up = some (request, rest)) :
    Producer.SingleOpen (.recv identity request) := by
  rintro peer opened hrecv
  obtain ⟨rfl, rfl⟩ := Producer.Action.recv.inj hrecv
  obtain ⟨gone, hsent, -⟩ := h.fifo identity
  rw [(takeFirst_spec htake).1] at hsent
  obtain ⟨hname, sid, σ, hσ, rfl⟩ := h.voices.named identity (by rw [hsent]; simp)
  have hscript := h.voices.script hσ hname
  rw [hsent] at hscript
  obtain ⟨-, rfl⟩ := script_open hscript
  exact Nat.le_refl 1

theorem drop_append_of_eq {α : Type} {l l' new : List α} (h : l' = l ++ new) :
    l'.drop l.length = new := by
  rw [h, List.drop_left]

/-- **One step of the system keeps the conversation.** -/
theorem SystemInv.step (h : SystemInv s) (hstep : s.step a = some s') : SystemInv s' := by
  cases a with
  | producer a =>
      simp only [System.step] at hstep
      split at hstep
      · cases hstep
      · rename_i ha
        obtain ⟨p, hp, rfl⟩ := Option.map_eq_some_iff.mp hstep
        obtain ⟨new, hnew⟩ := Producer.step_sends hp
        have ha' : isRecv a = false := by simpa using ha
        have hconduct : s.producer.Conduct a := by
          cases a <;> trivial
        refine ⟨h.conduct.step hconduct hp, ⟨h.voices.tasks, fun hσ => ?_, h.voices.blank,
          h.voices.nonce, h.voices.script, h.voices.named⟩, ?_, fun identity => ?_⟩
        · refine (h.voices.talk hσ).mono fun m hm => ?_
          change (_, m) ∈ p.replies
          rw [hnew]
          exact List.mem_append_left _ hm
        · dsimp only
          rw [drop_append_of_eq hnew, hnew]
          exact List.append_subset.mpr ⟨List.Subset.trans h.down (List.subset_append_left _ _),
            List.subset_append_right _ _⟩
        · dsimp only
          rw [Producer.step_received hp ha']
          exact h.fifo identity
  | consumer a =>
      simp only [System.step] at hstep
      split at hstep
      · cases hstep
      · rename_i ha
        obtain ⟨c, hc, rfl⟩ := Option.map_eq_some_iff.mp hstep
        refine ⟨h.conduct, h.voices.step hc fun heq _ => ?_, h.down, fun identity => ?_⟩
        · rw [heq] at ha
          exact absurd rfl ha
        · obtain ⟨new, hnew⟩ : ∃ new, c.sent = s.consumer.sent ++ new := by
            rcases Consumer.step_sent hc with ⟨hsent, -⟩ | ⟨sid, σ, turn, -, -, hsent, -⟩
            · exact ⟨[], by rw [hsent, List.append_nil]⟩
            · exact ⟨_, hsent⟩
          obtain ⟨gone, hgone, hsub⟩ := h.fifo identity
          refine ⟨gone, ?_, hsub⟩
          dsimp only
          rw [drop_append_of_eq hnew, hnew, onChannel_append, onChannel_append, hgone,
            List.append_assoc]
  | deliverUp identity =>
      obtain ⟨⟨request, rest⟩, htake, hmap⟩ := Option.bind_eq_some_iff.mp hstep
      obtain ⟨p, hp, rfl⟩ := Option.map_eq_some_iff.mp hmap
      obtain ⟨hreceived, hreplies⟩ := Producer.recv_received hp
      obtain ⟨hself, hother⟩ := takeFirst_spec htake
      refine ⟨h.conduct.step (h.conducts htake) hp, ?_, ?_, fun peer => ?_⟩
      · have hanswered : ({ s with producer := p, up := rest } : System).answered = s.answered := by
          funext peer m
          simp only [answered, hreplies]
        rw [hanswered]
        exact h.voices
      · dsimp only
        rw [hreplies]
        exact h.down
      · obtain ⟨gone, hgone, hsub⟩ := h.fifo peer
        dsimp only
        by_cases hpeer : peer = identity
        · subst hpeer
          refine ⟨gone ++ [request], by rw [hgone, hself, List.append_assoc]; rfl, ?_⟩
          rcases hreceived with heq | heq <;> rw [heq]
          · rw [onChannel_append, onChannel_cons_self, onChannel_nil]
            exact hsub.append (List.Sublist.refl _)
          · exact hsub.trans (List.sublist_append_left _ _)
        · refine ⟨gone, by rw [hother peer hpeer]; exact hgone, ?_⟩
          rcases hreceived with heq | heq <;> rw [heq]
          · rw [onChannel_append, onChannel_cons_ne (Ne.symm hpeer), onChannel_nil, List.append_nil]
            exact hsub
          · exact hsub
  | deliverDown sid =>
      simp only [System.step] at hstep
      split at hstep
      · cases hstep
      · rename_i σ hσ
        split at hstep
        · cases hstep
        · rename_i hlive
          obtain ⟨⟨response, rest⟩, htake, hmap⟩ := Option.bind_eq_some_iff.mp hstep
          obtain ⟨c, hc, rfl⟩ := Option.map_eq_some_iff.mp hmap
          obtain ⟨hmem, hrest⟩ := takeFirst_subset htake
          refine ⟨h.conduct, h.voices.step hc fun heq hσ' => ?_, List.Subset.trans hrest h.down,
            fun identity => ?_⟩
          · obtain ⟨rfl, rfl⟩ := Consumer.Action.deliver.inj heq
            obtain rfl := Option.some.inj (hσ.symm.trans hσ')
            exact ⟨h.down hmem, hlive⟩
          · dsimp only
            obtain ⟨σ₀, σ', hσ₀, -, rfl⟩ := Consumer.onSession_cases hc
            simpa [Consumer.apply] using h.fifo identity

theorem start_systemInv (pinit cinit : InitMessage) :
    SystemInv { producer := Producer.start pinit, consumer := Consumer.start cinit } where
  conduct := Producer.start_conductInv pinit
  voices := Consumer.start_voices _ cinit
  down := List.Subset.refl _
  fifo _ := ⟨[], rfl, List.Sublist.refl _⟩

theorem reachable_systemInv {pinit cinit : InitMessage} {ok : System → Action → Prop}
    (h : (systemMachine pinit cinit).ReachWith ok s) : SystemInv s := by
  refine Machine.invariant ?_ ?_ h
  · rintro s rfl
    exact start_systemInv pinit cinit
  · intro s a s' _ hs _ hstep
    exact hs.step hstep

end System

/-! ### The accounts of the producer -/

namespace Producer

/-- The claim is in progress: its session is filed, or its open handler waits for the engine. -/
def InProgress (p : Producer) (claim : Nat × Nat) : Prop :=
  (∃ (i : Nat) (x : ProducerSession), p.book.sessions[i]? = some x ∧ x.opener = claim.1 ∧
    p.book.registered i = true) ∨
  ∃ task request isNew job, p.tasks[claim.1]? = some task ∧
    task.coro = .sessionOpen request (.waitJob claim.2 isNew job)

/-- How a claim ended: its session has left the table, or its open failed without one. -/
def GivenBack (p : Producer) (tid : Nat) : Prop :=
  (∃ (i : Nat) (x : ProducerSession), p.book.sessions[i]? = some x ∧ x.opener = tid ∧
    p.book.registered i = false ∧ x.state ≠ .active) ∨
  NoSession p.book tid ∧ ∃ task request, p.tasks[tid]? = some task ∧
    task.coro = .sessionOpen request .done

/-- The open handler was cancelled by the shutdown while its job was pending. -/
def CutOff (p : Producer) (tid : Nat) : Prop :=
  p.routerOpen = false ∧ NoSession p.book tid ∧ ∃ task request, p.tasks[tid]? = some task ∧
    task.coro = .sessionOpen request .done

/-- **The send accounting of a producer helper.** -/
structure Accounted (p : Producer) : Prop where
  complete : ∀ {i : Nat} {x : ProducerSession}, p.book.sessions[i]? = some x →
    x.state = .complete → ∀ c < x.totalChunks, c ∈ x.encoded
  /-- No claim is made twice and none is finished twice. -/
  claims : (p.book.claims.map (·.1)).Nodup
  finished : p.book.finished.Nodup
  ended : ∀ tid ∈ p.book.finished, tid ∈ p.book.claims.map (·.1) ∧ p.GivenBack tid
  accounted : ∀ claim ∈ p.book.claims,
    claim.1 ∈ p.book.finished ∨ p.InProgress claim ∨ p.CutOff claim.1
  sending : ∀ {ref : Nat} {m : SendState}, p.book.states[ref]? = some m →
    m.sending = p.book.unfinished ref

variable {s : Producer}

/-- A claim is made by an open handler in or after `waitJob`. -/
theorem ConductInv.claimer (hinv : ConductInv s) {claim : Nat × Nat} (hclaim : claim ∈ s.book.claims) :
    ∃ task request, s.tasks[claim.1]? = some task ∧
      ((∃ isNew job, task.coro = .sessionOpen request (.waitJob claim.2 isNew job)) ∨
        task.coro = .sessionOpen request .done) := by
  obtain ⟨task, request, htask, hreq⟩ := hinv.claims claim hclaim
  have hwf := hinv.task htask
  refine ⟨task, request, htask, ?_⟩
  cases hcoro : task.coro with
  | sessionOpen request' pos =>
      rw [hcoro] at hwf hreq
      obtain rfl := CompressionRequest.sessionOpen.inj hreq
      cases pos with
      | created => exact absurd (List.mem_map_of_mem hclaim) hwf.2.1
      | waitReady => exact absurd (List.mem_map_of_mem hclaim) hwf.2.1
      | waitJob ref isNew job =>
          obtain rfl : ref = claim.2 := hinv.ledger.send.claim_unique hwf.2.1 hclaim
          exact Or.inl ⟨isNew, job, rfl⟩
      | done => exact Or.inr rfl
  | chunkPull => rw [hcoro] at hreq; cases hreq
  | abort => rw [hcoro] at hreq; cases hreq

theorem ConductInv.givenBack (hinv : ConductInv s) {tid : Nat} (hfin : tid ∈ s.book.finished) :
    s.GivenBack tid := by
  by_cases hno : NoSession s.book tid
  · obtain ⟨claim, hclaim, rfl⟩ := List.mem_map.mp (hinv.ledger.send.known tid hfin)
    obtain ⟨task, request, htask, ⟨isNew, job, hcoro⟩ | hcoro⟩ := hinv.claimer hclaim
    · have hwf := hinv.task htask
      rw [hcoro] at hwf
      exact absurd hfin hwf.2.2.1
    · exact Or.inr ⟨hno, task, request, htask, hcoro⟩
  · simp only [NoSession] at hno
    push Not at hno
    obtain ⟨i, x, hx, rfl⟩ := hno
    have hwf := hinv.ledger.sess.session hx
    have hreg : s.book.registered i = false := by
      by_contra hreg
      exact hwf.filed.mp (by simpa using hreg) hfin
    refine Or.inl ⟨i, x, hx, rfl, hreg, fun hactive => ?_⟩
    rw [hwf.active hactive] at hreg
    cases hreg

theorem ConductInv.accounted (hinv : ConductInv s) : s.Accounted where
  complete hx hstate _ hc := by
    have hwf := hinv.ledger.sess.session hx
    refine (hinv.session hx).all_encoded ?_ hc
    rw [← hwf.counted]
    exact (hwf.complete hstate).2
  claims := hinv.ledger.send.claims
  finished := hinv.ledger.send.finished
  ended tid hfin := ⟨hinv.ledger.send.known tid hfin, hinv.givenBack hfin⟩
  accounted claim hclaim := by
    by_cases hfin : claim.1 ∈ s.book.finished
    · exact Or.inl hfin
    refine Or.inr ?_
    by_cases hno : NoSession s.book claim.1
    · obtain ⟨task, request, htask, ⟨isNew, job, hcoro⟩ | hcoro⟩ := hinv.claimer hclaim
      · exact Or.inl (Or.inr ⟨task, request, isNew, job, htask, hcoro⟩)
      · rcases hinv.held claim hclaim with h | ⟨i, x, hx, hopener⟩ | ⟨u, req, isNew, job, hu, huc⟩ | h
        · exact absurd h hfin
        · exact absurd hopener (hno i x hx)
        · obtain rfl := Option.some.inj (htask.symm.trans hu)
          rw [hcoro] at huc
          cases huc
        · exact Or.inr ⟨h, hno, task, request, htask, hcoro⟩
    · simp only [NoSession] at hno
      push Not at hno
      obtain ⟨i, x, hx, hopener⟩ := hno
      refine Or.inl (Or.inl ⟨i, x, hx, hopener, ?_⟩)
      exact (hinv.ledger.sess.session hx).filed.mpr (hopener ▸ hfin)
  sending := hinv.ledger.send.sending

end Producer

/-- **Every claim is accounted for in every run**: a session completes with all its chunks
encoded, a claim is finished at most once and in one of the three ways, and until then
its session is filed or its handler waits, unless the shutdown has cut the handler off. -/
theorem producer_accounted (pinit cinit : InitMessage) {s : System}
    (h : (systemMachine pinit cinit).Reachable s) : s.producer.Accounted :=
  (System.reachable_systemInv h).conduct.accounted

namespace System

/-- The state two helpers with one slot each start in. -/
def startSolo : System :=
  { producer := Producer.start (.solo [⟨0, 0, 0⟩]), consumer := Consumer.start (.solo [⟨0, 0, 0⟩]) }

/-- A consumer opens a session for an announced transfer, and its handler submits the open job. -/
def openSession : List Action :=
  [.producer (.metadataUpdate { announced := [{ pReqId := "p", transferId := "t", localBlockIds := [] }] }),
   .consumer (.consumerMetadata
     [{ dReqId := "d", transferId := "t", localBlockIds := [[1]], numTokens := none }]),
   .consumer (.ensureRemoteAgent 0 (some [(0, [(0, "addr")])])), .consumer (.start 0 "n" "i"),
   .deliverUp "i", .producer (.run 0)]

/-- The session has one chunk, which is pulled and encoded. -/
def pullChunk : List Action :=
  [.producer (.jobDone 1 { logicalBlockCount := 1, totalChunks := 1 }), .producer (.run 0),
   .deliverDown 0, .consumer (.resume 0), .consumer (.issue 0 false), .deliverUp "i",
   .producer (.run 1), .producer (.jobDone 2 {}), .producer (.run 1)]

/-- The helper is shut down while the open job is pending. -/
def cutOff : List Action := [.producer .stop, .producer .shutdown, .producer (.run 0)]

end System

/-- A session of one chunk that completes: its claim is finished once. -/
theorem producer_accounted_complete :
    ∃ s : System, (systemMachine (.solo [⟨0, 0, 0⟩]) (.solo [⟨0, 0, 0⟩])).exec (fun _ _ => true)
        System.startSolo (System.openSession ++ System.pullChunk) = some s ∧
      s.producer.book.sessions.map (·.state) = [.complete] ∧
      s.producer.book.finished = [0] ∧ s.producer.Accounted := by
  let s := ((systemMachine (.solo [⟨0, 0, 0⟩]) (.solo [⟨0, 0, 0⟩])).exec (fun _ _ => true)
    System.startSolo (System.openSession ++ System.pullChunk)).get (by decide)
  have hexec : (systemMachine (.solo [⟨0, 0, 0⟩]) (.solo [⟨0, 0, 0⟩])).exec (fun _ _ => true)
      System.startSolo (System.openSession ++ System.pullChunk) = some s := (Option.some_get _).symm
  have hreach : (systemMachine (.solo [⟨0, 0, 0⟩]) (.solo [⟨0, 0, 0⟩])).Reachable s :=
    (Machine.reachWith_of_exec (p := fun _ _ => true) rfl hexec).mono fun _ _ _ => trivial
  exact ⟨s, hexec, by decide, by decide, producer_accounted _ _ hreach⟩

/-- An open handler that is cancelled by the shutdown never gives its claim back:
`except Exception` does not catch the `CancelledError`. -/
theorem producer_claim_cut_off :
    ¬ ∀ (pinit cinit : InitMessage) (s : System), (systemMachine pinit cinit).Reachable s →
      ∀ claim ∈ s.producer.book.claims,
        claim.1 ∈ s.producer.book.finished ∨ s.producer.InProgress claim := by
  intro hall
  let s := ((systemMachine (.solo [⟨0, 0, 0⟩]) (.solo [⟨0, 0, 0⟩])).exec (fun _ _ => true)
    System.startSolo (System.openSession ++ System.cutOff)).get (by decide)
  have hreach : (systemMachine (.solo [⟨0, 0, 0⟩]) (.solo [⟨0, 0, 0⟩])).Reachable s :=
    (Machine.reachWith_of_exec (p := fun _ _ => true) rfl (Option.some_get _).symm).mono
      fun _ _ _ => trivial
  have hclaims : (0, 0) ∈ s.producer.book.claims := by decide
  have hsessions : s.producer.book.sessions = [] := by decide
  have hdone : s.producer.tasks[0]?.map (·.coro.isDone) = some true := by decide
  rcases hall _ _ s hreach _ hclaims with hfin | ⟨i, x, hx, -⟩ | ⟨task, request, isNew, job, htask, hcoro⟩
  · have hnone : s.producer.book.finished = [] := by decide
    rw [hnone] at hfin
    cases hfin
  · rw [hsessions] at hx
    cases hx
  · rw [htask, Option.map_some, hcoro] at hdone
    cases hdone

end KVServe.Session

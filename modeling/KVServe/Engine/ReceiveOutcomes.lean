import KVServe.Engine.Receive

/-!
# KVServe.Engine.ReceiveOutcomes

**How the transfer of a call ends**, from its session: it has succeeded if the session is
complete with every chunk written back, and it has failed otherwise, whatever the call reports.

What a call reports is its outcome: `_finish_compression_receive` is called without `failed`
only when the loop over the chunks is through, and with it only when the session is not
complete.
-/

namespace KVServe.Engine

open KVServe.Session hiding ConsumerSession

/-- The loop over the chunks is through, and a task is still to be stopped. -/
def ReceiveAt.Stopping : ReceiveAt → Prop
  | .stopIssuer none => True
  | .stopRecv => True
  | _ => False

namespace Receive

/-! ### Outcomes -/

/-- The state of the session, with its completed and its total chunks. -/
def outcome (r : Receive) : Option (ReceiveState × Nat × Nat) :=
  r.session.map fun x => (x.state, x.completedChunks, x.totalChunks)

/-- The transfer has succeeded. -/
def Succeeded (r : Receive) : Prop :=
  ∃ completed total, r.outcome = some (.complete, completed, total) ∧ total ≤ completed

/-- The session is not complete. -/
def Unfinished (r : Receive) : Prop := ∀ completed total, r.outcome ≠ some (.complete, completed, total)

/-- Every chunk was written back. -/
def Written (r : Receive) : Prop :=
  ∃ state completed total, r.outcome = some (state, completed, total) ∧ total ≤ completed

/-- A call that has not reported. -/
structure Open (r : Receive) : Prop where
  unfinished : r.Unfinished
  written : r.pos.Stopping → r.Written

/-- A call inside the `try` block, before the end of its loop. -/
structure Running (r : Receive) : Prop where
  unfinished : r.Unfinished
  notStopping : ¬ r.pos.Stopping

/-- The reports of a call are its outcome. -/
structure Judged (r : Receive) : Prop where
  unreported : r.finishes = [] → r.Open
  failed : true ∈ r.finishes → r.Unfinished
  succeeded : false ∈ r.finishes → r.Succeeded

end Receive

/-- What a turn reports is the outcome. -/
def ReceiveTurn.Decides (turn : ReceiveTurn) : Prop :=
  match turn.finish with
  | none => turn.call.Open
  | some true => turn.call.Unfinished
  | some false => turn.call.Succeeded

namespace Receive

variable {r r' : Receive} {turn : ReceiveTurn} {config : ReceiverConfig} {pullMeta : PullReqMeta}

theorem Succeeded.not_unfinished (h : r.Succeeded) : ¬ r.Unfinished := by
  obtain ⟨completed, total, heq, -⟩ := h
  exact fun hun => hun completed total heq

theorem Running.open (h : r.Running) : r.Open := ⟨h.unfinished, fun hpos => absurd hpos h.notStopping⟩

/-- Everything but the position depends on the outcome. -/
theorem Unfinished.of_same (h : r.Unfinished) (hsame : r'.outcome = r.outcome) : r'.Unfinished := by
  rw [Unfinished, hsame]
  exact h

theorem Running.of_same (h : r.Running) (hsame : r'.outcome = r.outcome) (hpos : r'.pos = r.pos) :
    r'.Running :=
  ⟨h.unfinished.of_same hsame, by rw [hpos]; exact h.notStopping⟩

theorem Judged.of_same (h : r.Judged) (hsame : r'.outcome = r.outcome) (hpos : r'.pos = r.pos)
    (hfinishes : r'.finishes = r.finishes) : r'.Judged := by
  constructor
  · rw [hfinishes]
    intro hnone
    refine ⟨(h.unreported hnone).unfinished.of_same hsame, ?_⟩
    rw [hpos, Written, hsame]
    exact (h.unreported hnone).written
  · rw [hfinishes]
    exact fun hmem => (h.failed hmem).of_same hsame
  · rw [hfinishes, Succeeded, hsame]
    exact h.succeeded

/-- A call that ends with an exception has reported nothing. -/
theorem Open.raise (h : r.Open) (message : String) :
    ({ r with pos := .ended (.raised message) } : Receive).Open := ⟨h.unfinished, nofun⟩

/-! ### Updates that keep the outcome -/

theorem outcome_mapSession {f : ReceiveSession → ReceiveSession}
    (h : ∀ x, (f x).state = x.state ∧ (f x).completedChunks = x.completedChunks ∧
      (f x).totalChunks = x.totalChunks) : (r.mapSession f).outcome = r.outcome := by
  rw [outcome, outcome, mapSession, Option.map_map]
  refine congrArg (Option.map · r.session) (funext fun x => ?_)
  obtain ⟨hstate, hcompleted, htotal⟩ := h x
  simp only [Function.comp_apply, hstate, hcompleted, htotal]

@[simp]
theorem outcome_setSlot (slot : Nat) (value : ReceiveSlot) :
    (r.setSlot slot value).outcome = r.outcome := outcome_mapSession fun _ => ⟨rfl, rfl, rfl⟩

@[simp]
theorem outcome_setSlotState (slot : Nat) (state : ReceiveSlotState) :
    (r.setSlotState slot state).outcome = r.outcome := outcome_mapSession fun _ => ⟨rfl, rfl, rfl⟩

/-- One more chunk is written back. -/
theorem Unfinished.count (h : r.Unfinished) :
    (r.mapSession fun x => { x with completedChunks := x.completedChunks + 1 }).Unfinished := by
  intro completed total heq
  rw [outcome, mapSession, Option.map_map, Option.map_eq_some_iff] at heq
  obtain ⟨x, hx, heq⟩ := heq
  refine h x.completedChunks total ?_
  rw [outcome, hx, Option.map_some]
  obtain ⟨hstate, heq⟩ := Prod.mk.inj heq
  exact congrArg some (Prod.ext hstate (Prod.ext rfl (Prod.mk.inj heq).2))

/-- A reply keeps the outcome. -/
theorem acceptReply_outcome (response : CompressionResponse) :
    (r.acceptReply config pullMeta response).1.outcome = r.outcome := by
  unfold acceptReply
  split
  · rfl
  · split
    · split
      · rfl
      · simp only
        split
        · rfl
        · rw [outcome_setSlotState]
          rfl
    · rfl

theorem takeReply_outcome {result : Except String DecodeCall}
    {answer : Except String CompressionResponse}
    (h : r.takeReply config pullMeta answer = (r', result)) : r'.outcome = r.outcome := by
  cases answer with
  | error message =>
      obtain ⟨rfl, -⟩ := Prod.mk.inj h
      rfl
  | ok response =>
      have hsame := @acceptReply_outcome r config pullMeta response
      rw [show r.acceptReply config pullMeta response = (r', result) from h] at hsame
      exact hsame

/-! ### The end of a call -/

theorem decides_drainSlots (h : r.Unfinished) (slots : List Nat) : (r.drainSlots slots).Decides := by
  cases slots with
  | nil => exact h
  | cons slot slots => exact ⟨h, nofun⟩

theorem decides_afterWritebacks (h : r.Unfinished) : r.afterWritebacks.Decides := by
  unfold afterWritebacks
  split
  · exact h
  · exact decides_drainSlots h _

theorem decides_afterRecv (h : r.Unfinished) : r.afterRecv.Decides := by
  unfold afterRecv
  simp only
  split
  · exact decides_afterWritebacks h
  · exact ⟨h, nofun⟩

theorem decides_cleanup (h : r.Unfinished) : r.cleanup.Decides := by
  unfold cleanup
  split
  · exact decides_afterRecv h
  · exact ⟨h, nofun⟩

/-- The session is marked as failed before the abort. -/
theorem decides_sendAbort (h : r.Unfinished) (message : String) :
    (r.sendAbort pullMeta message).Decides := by
  unfold sendAbort
  split
  · exact h
  · exact ⟨nofun, nofun⟩

/-- **Only a call with every chunk written back completes.** -/
theorem decides_complete (h : r.Written) : r.complete.Decides := by
  obtain ⟨state, completed, total, heq, hle⟩ := h
  obtain ⟨x, hx, hcounts⟩ := Option.map_eq_some_iff.mp heq
  refine ⟨completed, total, ?_, hle⟩
  show ((r.session.map fun x => { x with state := .complete }).map _) = _
  rw [hx]
  exact congrArg (fun counts => some (ReceiveState.complete, counts)) (Prod.mk.inj hcounts).2

theorem decides_afterIssuer (h : r.Unfinished) {failure : Option String}
    (hwritten : failure = none → r.Written) : (r.afterIssuer pullMeta failure).Decides := by
  cases failure with
  | some message => exact decides_sendAbort h message
  | none =>
      unfold afterIssuer
      simp only
      split
      · exact decides_complete (hwritten rfl)
      · exact ⟨h, fun _ => hwritten rfl⟩

theorem decides_enterStop (h : r.Unfinished) {failure : Option String}
    (hwritten : failure = none → r.Written) : (r.enterStop pullMeta failure).Decides := by
  have hstop : (ReceiveAt.stopIssuer failure).Stopping → r.Written := by
    cases failure with
    | some message => exact nofun
    | none => exact fun _ => hwritten rfl
  unfold enterStop
  split
  · exact decides_afterIssuer h hwritten
  · exact ⟨h, hstop⟩
  · exact ⟨h, hstop⟩

/-- An exception inside the `try` block. -/
theorem decides_raise (h : r.Unfinished) (message : String) :
    (r.enterStop pullMeta (some message)).Decides := decides_enterStop h nofun

/-! ### The body -/

theorem decides_loopHead (h : r.Running) : (r.loopHead pullMeta).Decides := by
  unfold loopHead
  split
  · exact h.open
  · next session hsession =>
      split
      · exact ⟨h.unfinished, nofun⟩
      · next hnot =>
          refine decides_enterStop h.unfinished fun _ => ?_
          exact ⟨session.state, session.completedChunks, session.totalChunks,
            by rw [outcome, hsession]; rfl, Nat.not_lt.mp hnot⟩

theorem decides_start (h : r.Running) (nonce : Nonce) (sent : Except String Unit) :
    (r.start config pullMeta nonce sent).Decides := by
  have hplanned : ∀ completed total : Nat,
      some (ReceiveState.planned, 0, 0) ≠ some (.complete, completed, total) := by simp
  unfold start
  simp only
  split
  · refine decides_raise ?_ _
    exact h.unfinished
  · split
    · refine decides_raise ?_ _
      exact hplanned
    · exact ⟨hplanned, nofun⟩

theorem decides_opened (h : r.Running) (answer : Except String CompressionResponse) :
    (r.opened config pullMeta answer).Decides := by
  unfold opened
  split
  · exact decides_raise h.unfinished _
  · split
    · exact decides_raise h.unfinished _
    · split
      · exact decides_loopHead ⟨by simp [Unfinished, outcome], h.notStopping⟩
      · exact decides_raise h.unfinished _

theorem decides_takeDone (h : r.Running) (puts : List Nat) (done : List DoneTask) :
    (r.takeDone config pullMeta puts done).Decides := by
  induction done generalizing r puts with
  | nil => exact decides_loopHead h
  | cons task rest ih =>
      cases task with
      | issueTask =>
          rw [takeDone]
          split
          · exact @decides_raise r pullMeta h.unfinished _
          · refine ih ?_ puts
            exact h.of_same rfl rfl
      | recvTask =>
          rw [takeDone]
          split
          · split
            · next r' message hreply =>
                have hsame := takeReply_outcome hreply
                exact @decides_raise r' pullMeta (h.unfinished.of_same hsame) message
            · next r' call hreply =>
                have hsame := takeReply_outcome hreply
                exact ⟨h.unfinished.of_same hsame, nofun⟩
          · exact ih h puts
      | writeback i =>
          rw [takeDone]
          split
          · exact ih h puts
          · simp only
            split
            · refine @decides_raise _ pullMeta ?_ _
              exact h.unfinished
            · refine ih ⟨Unfinished.count ?_, ?_⟩ _
              · exact h.unfinished.of_same (outcome_setSlot _ _)
              · exact h.notStopping

theorem decides_decoded (h : r.Running) (call : DecodeCall) (rest : List DoneTask)
    (answer : Except String Unit) : (r.decoded config pullMeta call rest answer).Decides := by
  cases answer with
  | error message => exact decides_raise h.unfinished message
  | ok _ =>
      refine decides_takeDone ?_ [] rest
      exact h.of_same (outcome_setSlotState call.slotId .writeback) rfl

theorem decides_slotDrained (h : r.Unfinished) (slots : List Nat) (answer : Except String Unit) :
    (r.slotDrained slots answer).Decides := by
  cases answer with
  | error message => exact h
  | ok _ =>
      cases slots with
      | nil => exact decides_drainSlots h []
      | cons slot rest =>
          refine @decides_drainSlots (r.setSlot slot {}) ?_ rest
          exact h.of_same (outcome_setSlot slot {})

theorem decides_resume (h : r.Open) (hresume : r.resume pullMeta = some turn) : turn.Decides := by
  unfold resume at hresume
  split at hresume
  · next failure hpos =>
      obtain rfl := Option.some.inj hresume
      refine @decides_afterIssuer { r with issue := .absent } pullMeta h.unfinished failure ?_
      rintro rfl
      exact h.written (by rw [hpos]; trivial)
  · next hpos =>
      obtain rfl := Option.some.inj hresume
      exact @decides_complete { r with recvTask := .absent } (h.written (by rw [hpos]; trivial))
  · obtain rfl := Option.some.inj hresume
    exact decides_afterRecv h.unfinished
  · split at hresume
    · obtain rfl := Option.some.inj hresume
      exact decides_afterWritebacks h.unfinished
    · cases hresume
  · cases hresume

/-- The issue task leaves the outcome and the position. -/
theorem issueChunk_same (chunkId slot : Nat) (sent : Except String Unit) :
    (r.issueChunk config pullMeta chunkId slot sent).finish = none ∧
      (r.issueChunk config pullMeta chunkId slot sent).call.pos = r.pos ∧
      (r.issueChunk config pullMeta chunkId slot sent).call.outcome = r.outcome := by
  cases sent with
  | error message => exact ⟨rfl, rfl, outcome_setSlot slot _⟩
  | ok _ => exact ⟨rfl, rfl, outcome_setSlot slot _⟩

/-- A call after a turn. -/
theorem judged_of_decides (h : turn.Decides)
    (hreport : turn.finish = none ∧ turn.call.finishes = [] ∨
      ∃ failed, turn.finish = some failed ∧ turn.call.finishes = [failed]) : turn.call.Judged := by
  unfold ReceiveTurn.Decides at h
  rcases hreport with ⟨hfinish, hnone⟩ | ⟨failed, hfinish, hone⟩
  · rw [hfinish] at h
    exact ⟨fun _ => h, by simp [hnone], by simp [hnone]⟩
  · rw [hfinish] at h
    cases failed with
    | true => exact ⟨by simp [hone], fun _ => h, by simp [hone]⟩
    | false => exact ⟨by simp [hone], by simp [hone], fun _ => h⟩

end Receive

end KVServe.Engine

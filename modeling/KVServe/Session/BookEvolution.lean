import KVServe.Lib.ListHeap
import KVServe.Session.Book

/-!
# KVServe.Session.BookEvolution

How the tables of a producer helper can change between two `await`s, short of
filing a new session (`Book.Evolves`): a session keeps who it is for, never
becomes active again, and is only ever taken out of `_producer_sessions`; a
`_closed` entry is only ever renewed. Every function of `KVServe.Session.Book`
but `addSession` evolves the book, and evolutions compose.
-/

namespace KVServe.Session

/-- `y` is the session `x` later on: only its progress has changed, and it has
not become active again. -/
structure SameSession (x y : ProducerSession) : Prop where
  same : y = { x with
    completedChunks := y.completedChunks, inflightChunks := y.inflightChunks
    state := y.state, encoded := y.encoded }
  inactive : y.state = .active → x.state = .active

namespace SameSession

variable {x y z : ProducerSession}

theorem refl (x : ProducerSession) : SameSession x x := ⟨rfl, id⟩

theorem trans (hxy : SameSession x y) (hyz : SameSession y z) : SameSession x z := by
  refine ⟨?_, fun h => hxy.inactive (hyz.inactive h)⟩
  rw [hyz.same, hxy.same]

theorem key (h : SameSession x y) : y.key = x.key := by rw [h.same]; rfl

theorem operationKey (h : SameSession x y) : y.operationKey = x.operationKey := by rw [h.same]; rfl

theorem opener (h : SameSession x y) : y.opener = x.opener := by rw [h.same]

theorem sendState (h : SameSession x y) : y.sendState = x.sendState := by rw [h.same]

theorem totalChunks (h : SameSession x y) : y.totalChunks = x.totalChunks := by rw [h.same]

end SameSession

namespace Book

variable {now : Nat} {b b' b'' : Book}

/-- The book changes without a new session being filed. -/
structure Evolves (now : Nat) (b b' : Book) : Prop where
  length : b'.sessions.length = b.sessions.length
  sessions : ∀ {ref : Nat} {y : ProducerSession}, b'.sessions[ref]? = some y →
    ∃ x, b.sessions[ref]? = some x ∧ SameSession x y
  filed : ∀ {key : SessionKey} {ref : Nat}, b'.producerSessions key = some ref →
    b.producerSessions key = some ref
  closed : ∀ key, b'.closed key = b.closed key ∨ b'.closed key = some (now + pendingReqExpiry)

namespace Evolves

theorem refl (b : Book) : Evolves now b b where
  length := rfl
  sessions h := ⟨_, h, .refl _⟩
  filed h := h
  closed _ := Or.inl rfl

theorem trans {c : Book} (h₁ : Evolves now b c) (h₂ : Evolves now c b') : Evolves now b b' where
  length := h₂.length.trans h₁.length
  sessions h := by
    obtain ⟨y, hy, hyz⟩ := h₂.sessions h
    obtain ⟨x, hx, hxy⟩ := h₁.sessions hy
    exact ⟨x, hx, hxy.trans hyz⟩
  filed h := h₁.filed (h₂.filed h)
  closed key := by
    rcases h₂.closed key with h | h
    · rw [h]; exact h₁.closed key
    · exact Or.inr h

/-- Changes outside the session tables. -/
theorem of_eq (hs : b'.sessions = b.sessions) (hp : b'.producerSessions = b.producerSessions)
    (hc : b'.closed = b.closed) : Evolves now b b' where
  length := by rw [hs]
  sessions h := ⟨_, by rw [← hs]; exact h, .refl _⟩
  filed h := by rw [← hp]; exact h
  closed key := Or.inl (by rw [hc])

/-- Later sessions keep their key, so a filed session stays filed under its own. -/
theorem sessions_of_some (h : Evolves now b b') {ref : Nat} {x : ProducerSession}
    (hx : b.sessions[ref]? = some x) : ∃ y, b'.sessions[ref]? = some y ∧ SameSession x y := by
  obtain ⟨hlt, -⟩ := List.getElem?_eq_some_iff.mp hx
  cases hy : b'.sessions[ref]? with
  | none =>
      rw [List.getElem?_eq_none_iff, h.length] at hy
      omega
  | some y =>
      obtain ⟨x', hx', hsame⟩ := h.sessions hy
      obtain rfl : x = x' := Option.some.inj (hx.symm.trans hx')
      exact ⟨y, rfl, hsame⟩

end Evolves

theorem modifySession_evolves (b : Book) (ref : Nat) (f : ProducerSession → ProducerSession)
    (hf : ∀ x, SameSession x (f x)) : Evolves now b (b.modifySession ref f) where
  length := by simp [modifySession]
  sessions h := by
    rcases getElem?_modify_some h with ⟨rfl, x, hx, rfl⟩ | ⟨-, hx⟩
    · exact ⟨x, hx, hf x⟩
    · exact ⟨_, hx, .refl _⟩
  filed h := h
  closed _ := Or.inl rfl

theorem setSessionState_evolves (b : Book) (ref : Nat) {state : SessionState}
    (h : state ≠ .active) : Evolves now b (b.setSessionState ref state) :=
  modifySession_evolves b ref _ fun _ => ⟨rfl, fun h' => absurd h' h⟩

theorem addInflight_evolves (b : Book) (ref : Nat) (n : Int) :
    Evolves now b (b.addInflight ref n) :=
  modifySession_evolves b ref _ fun _ => ⟨rfl, id⟩

theorem countChunk_evolves (b : Book) (ref chunkId : Nat) :
    Evolves now b (b.countChunk ref chunkId) :=
  modifySession_evolves b ref _ fun _ => ⟨rfl, id⟩

theorem modifyState_evolves (b : Book) (ref : Nat) (f : SendState → SendState) :
    Evolves now b (b.modifyState ref f) := .of_eq rfl rfl rfl

theorem popSession_evolves (b : Book) (key : SessionKey) : Evolves now b (b.popSession key) where
  length := rfl
  sessions h := ⟨_, h, .refl _⟩
  filed {key' ref} h := by
    by_cases hk : key' = key
    · subst hk; simp [popSession] at h
    · simpa [popSession, hk] using h
  closed _ := Or.inl rfl

theorem close_evolves (b : Book) (key : OperationKey) : Evolves now b (b.close now key) where
  length := rfl
  sessions h := ⟨_, h, .refl _⟩
  filed h := h
  closed key' := by
    by_cases hk : key' = key
    · exact Or.inr (by rw [hk]; exact Function.update_self ..)
    · exact Or.inl (Function.update_of_ne hk ..)

theorem releaseSend_evolves (b : Book) (ref : Nat) : Evolves now b (b.releaseSend ref) := by
  unfold releaseSend
  split
  · exact .refl b
  · split
    · exact .of_eq rfl rfl rfl
    · exact .refl b

theorem finishSendMeta_evolves (b : Book) (claim ref : Nat) :
    Evolves now b (b.finishSendMeta claim ref) :=
  .trans (c := b.countSent claim ref) (.of_eq rfl rfl rfl) (releaseSend_evolves _ ref)

theorem claim_evolves (b : Book) (tid ref targets : Nat) :
    Evolves now b (b.claim tid ref targets) := .of_eq rfl rfl rfl

theorem addState_evolves (b : Book) (m : SendState) : Evolves now b (b.addState m) :=
  .of_eq rfl rfl rfl

theorem dropPlaceholder_evolves (b : Book) (transferId : TransferId) (ref : Nat) (isNew : Bool) :
    Evolves now b (b.dropPlaceholder transferId ref isNew) := by
  unfold dropPlaceholder
  split
  · split
    · exact .of_eq rfl rfl rfl
    · exact .refl b
  · exact .refl b

theorem openFailed_evolves (b : Book) (tid : Nat) (transferId : TransferId) (ref : Nat)
    (isNew claimed : Bool) : Evolves now b (b.openFailed tid transferId ref isNew claimed) := by
  cases claimed
  · exact dropPlaceholder_evolves b transferId ref isNew
  · exact (finishSendMeta_evolves b tid ref).trans (dropPlaceholder_evolves _ transferId ref isNew)

theorem completeProducerSession_evolves (b : Book) (ref : Nat) :
    Evolves now b (b.completeProducerSession now ref) := by
  unfold completeProducerSession
  split
  · exact .refl b
  · split
    · exact (popSession_evolves b _).trans ((setSessionState_evolves _ ref (by decide)).trans
        ((close_evolves _ _).trans (finishSendMeta_evolves _ _ _)))
    · exact popSession_evolves b _

theorem discardProducerSession_evolves (b : Book) (ref : Nat) :
    Evolves now b (b.discardProducerSession ref) := by
  unfold discardProducerSession
  split
  · exact .refl b
  · split
    · split
      · exact (popSession_evolves b _).trans (finishSendMeta_evolves _ _ _)
      · exact (popSession_evolves b _).trans (modifyState_evolves _ _ _)
    · exact popSession_evolves b _

theorem discardIfIdle_evolves (b : Book) (ref : Nat) : Evolves now b (b.discardIfIdle ref) := by
  unfold discardIfIdle
  split
  · split
    · exact discardProducerSession_evolves b ref
    · exact .refl b
  · exact .refl b

theorem completeIfDone_evolves (b : Book) (ref : Nat) :
    Evolves now b (b.completeIfDone now ref) := by
  unfold completeIfDone
  split
  · split
    · exact completeProducerSession_evolves b ref
    · exact .refl b
  · exact .refl b

theorem chunkEncoded_evolves (b : Book) (ref chunkId : Nat) :
    Evolves now b (b.chunkEncoded now ref chunkId) :=
  (countChunk_evolves b ref chunkId).trans (completeIfDone_evolves _ ref)

theorem cancelSession_evolves (b : Book) (ref : Nat) : Evolves now b (b.cancelSession ref) :=
  (setSessionState_evolves b ref (by decide)).trans (discardIfIdle_evolves _ ref)

theorem cancelMatching_evolves (key : OperationKey) (b : Book) (ref : Nat) :
    Evolves now b (cancelMatching key b ref) := by
  unfold cancelMatching
  split
  · split
    · exact cancelSession_evolves b ref
    · exact .refl b
  · exact .refl b

/-! ### Whole messages and sweeps -/

/-- What each step of a fold keeps, the fold keeps. -/
theorem foldl_keeps {α : Type} {P : Book → Prop} {step : Book → α → Book}
    (hstep : ∀ b x, P b → P (step b x)) (l : List α) (h : P b) : P (l.foldl step b) :=
  List.foldlRecOn l step h fun b hb x _ => hstep b x hb

/-- What each entry of the engine's metadata keeps, the message keeps. -/
theorem applyProducerMetadata_keeps {P : Book → Prop}
    (hannounced : ∀ b a, P b → P (applyAnnouncement now b a))
    (hpublished : ∀ b a, P b → P (applyPublish b a))
    (hdropped : ∀ (b : Book) (transferId : TransferId), P b → P (b.popSend transferId))
    (message : ProducerMetadata) (h : P b) : P (b.applyProducerMetadata now message) :=
  foldl_keeps hdropped _ (foldl_keeps hpublished _ (foldl_keeps hannounced _ h))

theorem cancelMatches_evolves (b : Book) (key : OperationKey) (refs : List Nat) :
    Evolves now b (refs.foldl (cancelMatching key) b) :=
  foldl_keeps (P := Evolves now b) (fun _ ref h => h.trans (cancelMatching_evolves key _ ref)) refs
    (.refl b)

theorem cancelAll_evolves (b : Book) (key : OperationKey) : Evolves now b (b.cancelAll key) :=
  cancelMatches_evolves b key _

theorem sweepState_evolves (b : Book) (ref : Nat) : Evolves now b (sweepState now b ref) := by
  unfold sweepState
  split
  · exact .refl b
  · split
    · exact .of_eq rfl rfl rfl
    · exact .refl b

theorem sweepSends_evolves (b : Book) : Evolves now b (b.sweepSends now) :=
  foldl_keeps (P := Evolves now b) (fun _ ref h => h.trans (sweepState_evolves _ ref)) _ (.refl b)

theorem applyProducerMetadata_evolves (b : Book) (message : ProducerMetadata) :
    Evolves now b (b.applyProducerMetadata now message) := by
  refine applyProducerMetadata_keeps (P := Evolves now b) (fun c a h => h.trans ?_)
    (fun c a h => h.trans ?_) (fun c _ h => h.trans (.of_eq rfl rfl rfl)) message (.refl b)
  · unfold applyAnnouncement
    dsimp only
    split <;> exact .of_eq rfl rfl rfl
  · unfold applyPublish
    split <;> exact .of_eq rfl rfl rfl

/-! ### Filed sessions -/

/-- Every entry of `_producer_sessions` is a session under its own key. -/
def FiledWf (b : Book) : Prop :=
  ∀ {key : SessionKey} {ref : Nat}, b.producerSessions key = some ref →
    ∃ session, b.sessions[ref]? = some session ∧ session.key = key

theorem Evolves.filedWf (h : Evolves now b b') (hwf : b.FiledWf) : b'.FiledWf := by
  intro key ref hfiled
  obtain ⟨x, hx, hkey⟩ := hwf (h.filed hfiled)
  obtain ⟨y, hy, hsame⟩ := h.sessions_of_some hx
  exact ⟨y, hy, hsame.key.trans hkey⟩

theorem addSession_filedWf (hwf : b.FiledWf) (session : ProducerSession) :
    (b.addSession session).FiledWf := by
  intro key ref hfiled
  by_cases hk : key = session.key
  · subst hk
    obtain rfl : b.sessions.length = ref := by simpa [addSession] using hfiled
    exact ⟨session, by simp [addSession], rfl⟩
  · obtain ⟨x, hx, hkey⟩ := hwf (by simpa [addSession, hk] using hfiled)
    exact ⟨x, getElem?_append_of_some hx session, hkey⟩

/-- No filed session of an operation key is active. -/
def NoActive (b : Book) (key : OperationKey) : Prop :=
  ∀ {skey : SessionKey} {ref : Nat} {session : ProducerSession},
    b.producerSessions skey = some ref → b.sessions[ref]? = some session →
    session.operationKey = key → session.state ≠ .active

theorem Evolves.noActive {key : OperationKey} (h : Evolves now b b') (hb : b.NoActive key) :
    b'.NoActive key := by
  intro skey ref y hfiled hy hkey hactive
  obtain ⟨x, hx, hsame⟩ := h.sessions hy
  exact hb (h.filed hfiled) hx (hsame.operationKey ▸ hkey) (hsame.inactive hactive)

/-- A session filed for another key does not count. -/
theorem addSession_noActive {key : OperationKey} {session : ProducerSession}
    (hb : b.NoActive key) (hkey : session.operationKey ≠ key) :
    (b.addSession session).NoActive key := by
  intro skey ref y hskey hy hykey
  rcases getElem?_append_some hy with hold | ⟨-, rfl⟩
  · by_cases hk : skey = session.key
    · subst hk
      obtain rfl : b.sessions.length = ref := by simpa [addSession] using hskey
      simp at hold
    · exact hb (by simpa [addSession, hk] using hskey) hold hykey
  · exact absurd hykey hkey

/-- One step of the sweep leaves its own session inactive. -/
theorem cancelMatching_inactive {key : OperationKey} {ref : Nat} {y : ProducerSession}
    (hreg : b.registered ref = true) (hy : (cancelMatching key b ref).sessions[ref]? = some y)
    (hkey : y.operationKey = key) : y.state ≠ .active := by
  obtain ⟨x, hx, hsame⟩ := (@cancelMatching_evolves 0 key b ref).sessions hy
  have hcancel : cancelMatching key b ref = b.cancelSession ref := by
    unfold cancelMatching
    rw [hx]
    exact if_pos ⟨hreg, hsame.operationKey ▸ hkey⟩
  rw [hcancel, cancelSession] at hy
  obtain ⟨z, hz, hsame'⟩ := (@discardIfIdle_evolves 0 _ ref).sessions hy
  rw [setSessionState, modifySession, getElem?_modify_self hx] at hz
  obtain rfl := Option.some.inj hz
  intro hactive
  cases hsame'.inactive hactive

/-- **The final sweep of an abort leaves no session of its key active.** -/
theorem cancelAll_noActive (hwf : b.FiledWf) (key : OperationKey) :
    (b.cancelAll key).NoActive key := by
  -- Over a prefix of the sweep: sessions already visited are inactive.
  have hfold : ∀ (refs : List Nat) (c : Book), c.FiledWf →
      ∀ {skey : SessionKey} {ref : Nat} {y : ProducerSession}, ref ∈ refs →
        (refs.foldl (cancelMatching key) c).producerSessions skey = some ref →
        (refs.foldl (cancelMatching key) c).sessions[ref]? = some y →
        y.operationKey = key → y.state ≠ .active := by
    intro refs
    induction refs with
    | nil => intro c _ skey ref y hmem; simp at hmem
    | cons r refs ih =>
        intro c hc skey ref y hmem hfiled hy hkey
        have hstep := @cancelMatching_evolves 0 key c r
        have hrest := @cancelMatches_evolves 0 (cancelMatching key c r) key refs
        by_cases hrefs : ref ∈ refs
        · exact ih _ (hstep.filedWf hc) hrefs hfiled hy hkey
        · obtain rfl : ref = r := by simpa [hrefs] using hmem
          obtain ⟨x, hx, hsame⟩ := hrest.sessions hy
          have hreg : c.registered ref = true := by
            obtain ⟨z, hz, hzkey⟩ := hc (hstep.filed (hrest.filed hfiled))
            rw [registered, hz]
            simpa [hzkey] using hstep.filed (hrest.filed hfiled)
          intro hactive
          exact cancelMatching_inactive hreg hx (hsame.operationKey ▸ hkey)
            (hsame.inactive hactive)
  intro skey ref y hfiled hy hkey
  have hlt : ref < b.sessions.length := by
    obtain ⟨hlt, -⟩ := List.getElem?_eq_some_iff.mp hy
    rwa [(@cancelAll_evolves 0 b key).length] at hlt
  exact hfold _ b hwf (List.mem_range.mpr hlt) hfiled hy hkey

end Book

end KVServe.Session

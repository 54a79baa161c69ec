import KVServe.Session.BookClaims

/-!
# KVServe.Session.BookRelease

The **release of the producer's blocks**: when the helper emits a `FinalEvent`,
and for which `_SendState`.

`ReleaseInv n` is the account of a helper that at most `n` peers open a session
with, for each transfer, and whose engine announces a transfer once. Each state
that has had its event (`ReleasedAt`) is out of `_send_meta`, all its claims are
finished, and it cannot be claimed again: the `n` peers have all claimed it, or
its deadline has passed.
-/

namespace KVServe.Session

namespace Book

variable {n now : Nat} {b b' : Book} {ref tid : Nat} {m m' : SendState}

/-- The claims on a `_SendState`. -/
def claimsOn (b : Book) (ref : Nat) : Nat := b.claims.countP fun claim => claim.2 == ref

/-- A claim is finished or it is not. -/
theorem unfinished_add_finishedOn (b : Book) (ref : Nat) :
    b.unfinished ref + b.finishedOn ref = b.claimsOn ref := by
  unfold unfinished finishedOn claimsOn
  induction b.claims with
  | nil => rfl
  | cons claim claims ih =>
      simp only [List.countP_cons]
      by_cases href : claim.2 == ref <;> by_cases hfin : b.finished.contains claim.1 <;>
        simp only [href, hfin, Bool.not_true, Bool.not_false, Bool.and_true, Bool.and_false,
          if_true, Bool.false_eq_true, if_false] <;> omega

/-- A claim on a state without unfinished claims is finished. -/
theorem mem_finished (hzero : b.unfinished ref = 0) (hclaim : (tid, ref) ∈ b.claims) :
    tid ∈ b.finished := by
  have hnot := List.countP_eq_zero.mp hzero _ hclaim
  simpa using hnot

/-- The final event of a state has been emitted. -/
structure ReleasedAt (n now : Nat) (b : Book) (kind : FinalKind) (ref : Nat) (m : SendState) :
    Prop where
  state : b.states[ref]? = some m
  ready : m.ready = true
  gone : b.sendMeta m.transferId ≠ some ref
  finished : b.unfinished ref = 0
  /-- Every peer has claimed it, or its deadline has passed. -/
  last : b.claimsOn ref = n ∨
    kind = .sendingExpired ∧ ∃ expiry, m.expireTime = some expiry ∧ expiry < now

/-- The account of the announced transfers and their final events. -/
structure ReleaseInv (n now : Nat) (b : Book) : Prop where
  reqIds : (b.announcements.map (·.pReqId)).Nodup
  transferIds : (b.announcements.map (·.transferId)).Nodup
  named : ∀ announcement ∈ b.announcements, announcement.pReqId ≠ ""
  /-- A ready state has been announced. -/
  announced : ∀ {ref : Nat} {m : SendState}, b.states[ref]? = some m → m.ready = true →
    ∃ announcement ∈ b.announcements,
      announcement.pReqId = m.pReqId ∧ announcement.transferId = m.transferId
  /-- A transfer has one ready state. -/
  single : ∀ {i j : Nat} {m m' : SendState}, b.states[i]? = some m → b.states[j]? = some m' →
    m.ready = true → m'.ready = true → m.transferId = m'.transferId → i = j
  expires : ∀ {ref : Nat} {m : SendState}, b.states[ref]? = some m → m.expireTime.isSome →
    m.ready = true
  needs : ∀ {ref : Nat} {m : SendState}, b.states[ref]? = some m → m.needSend = 0 ∨ m.needSend = n
  filed : ∀ {transferId : TransferId} {ref : Nat}, b.sendMeta transferId = some ref →
    ∃ m, b.states[ref]? = some m ∧ m.transferId = transferId
  claimed : ∀ {tid ref : Nat}, (tid, ref) ∈ b.claims →
    ∃ m, b.states[ref]? = some m ∧ m.ready = true ∧ m.needSend = n
  few : ∀ ref, b.claimsOn ref ≤ n
  event : ∀ e ∈ b.finalEvents, ∃ ref m, ReleasedAt n now b e.kind ref m ∧ m.pReqId = e.reqId
  once : (b.finalEvents.map (·.reqId)).Nodup

/-- The engine announces transfers that it has not announced before. -/
def Fresh (b : Book) (announced : List ProducerAnnouncement) : Prop :=
  ((b.announcements ++ announced).map (·.pReqId)).Nodup ∧
    ((b.announcements ++ announced).map (·.transferId)).Nodup ∧
      ∀ announcement ∈ announced, announcement.pReqId ≠ ""

/-- What an operation other than a claim or an announcement leaves of a `_SendState`. -/
structure Keeps (m m' : SendState) : Prop where
  transferId : m'.transferId = m.transferId
  ready : m'.ready = m.ready
  expireTime : m'.expireTime = m.expireTime
  needSend : m'.needSend = m.needSend
  pReqId : m.ready = true → m'.pReqId = m.pReqId

theorem Keeps.refl (m : SendState) : Keeps m m := ⟨rfl, rfl, rfl, rfl, fun _ => rfl⟩

namespace ReleaseInv

/-- Two ready states of one request are one state. -/
theorem same_ref (h : ReleaseInv n now b) {i j : Nat} (hi : b.states[i]? = some m)
    (hj : b.states[j]? = some m') (hready : m.ready = true) (hready' : m'.ready = true)
    (hreq : m.pReqId = m'.pReqId) : i = j := by
  obtain ⟨a, ha, hareq, hatransfer⟩ := h.announced hi hready
  obtain ⟨a', ha', hareq', hatransfer'⟩ := h.announced hj hready'
  obtain rfl : a = a' :=
    List.inj_on_of_nodup_map h.reqIds ha ha' (by rw [hareq, hareq', hreq])
  exact h.single hi hj hready hready' (hatransfer.symm.trans hatransfer')

/-- Time passes. -/
theorem mono (h : ReleaseInv n now b) {now' : Nat} (hle : now ≤ now') : ReleaseInv n now' b := by
  refine ⟨h.reqIds, h.transferIds, h.named, h.announced, h.single, h.expires, h.needs, h.filed,
    h.claimed, h.few, fun e he => ?_, h.once⟩
  obtain ⟨ref, m, hreleased, hreq⟩ := h.event e he
  refine ⟨ref, m, ⟨hreleased.state, hreleased.ready, hreleased.gone, hreleased.finished, ?_⟩, hreq⟩
  rcases hreleased.last with hall | ⟨hkind, expiry, hexpiry, hlt⟩
  · exact Or.inl hall
  · exact Or.inr ⟨hkind, expiry, hexpiry, by omega⟩

/-- An operation that claims nothing, announces nothing and emits nothing. -/
theorem of_keeps (h : ReleaseInv n now b)
    (hold : ∀ {ref : Nat} {m : SendState}, b.states[ref]? = some m →
      ∃ m', b'.states[ref]? = some m' ∧ Keeps m m')
    (hnew : ∀ {ref : Nat} {m' : SendState}, b'.states[ref]? = some m' →
      (∃ m, b.states[ref]? = some m ∧ Keeps m m') ∨
        (m'.ready = false ∧ m'.expireTime = none ∧ m'.needSend = 0))
    (hfiled : ∀ {transferId : TransferId} {ref : Nat}, b'.sendMeta transferId = some ref →
      b.sendMeta transferId = some ref ∨
        (b.states.length ≤ ref ∧ ∃ m', b'.states[ref]? = some m' ∧ m'.transferId = transferId))
    (hclaims : b'.claims = b.claims) (hfinished : b.finished ⊆ b'.finished)
    (hannouncements : b'.announcements = b.announcements)
    (hevents : b'.finalEvents = b.finalEvents) : ReleaseInv n now b' := by
  have hready : ∀ {ref : Nat} {m' : SendState}, b'.states[ref]? = some m' → m'.ready = true →
      ∃ m, b.states[ref]? = some m ∧ m.ready = true ∧ Keeps m m' := by
    intro ref m' hm' hready
    rcases hnew hm' with ⟨m, hm, hkeeps⟩ | ⟨hno, -, -⟩
    · exact ⟨m, hm, hkeeps.ready.symm.trans hready, hkeeps⟩
    · rw [hno] at hready
      cases hready
  have hon : ∀ ref, b'.claimsOn ref = b.claimsOn ref := fun ref => by
    rw [claimsOn, claimsOn, hclaims]
  refine ⟨by rw [hannouncements]; exact h.reqIds, by rw [hannouncements]; exact h.transferIds,
    by rw [hannouncements]; exact h.named, fun hm' hr => ?_, fun hi hj hri hrj heq => ?_,
    fun hm' hexpire => ?_, fun hm' => ?_, fun hf => ?_, fun hclaim => ?_, fun ref => ?_,
    fun e he => ?_, by rw [hevents]; exact h.once⟩
  · obtain ⟨m, hm, hr, hkeeps⟩ := hready hm' hr
    rw [hannouncements, hkeeps.pReqId hr, hkeeps.transferId]
    exact h.announced hm hr
  · obtain ⟨m₁, hm₁, hr₁, hkeeps₁⟩ := hready hi hri
    obtain ⟨m₂, hm₂, hr₂, hkeeps₂⟩ := hready hj hrj
    rw [hkeeps₁.transferId, hkeeps₂.transferId] at heq
    exact h.single hm₁ hm₂ hr₁ hr₂ heq
  · rcases hnew hm' with ⟨m, hm, hkeeps⟩ | ⟨-, hno, -⟩
    · rw [hkeeps.ready]
      exact h.expires hm (hkeeps.expireTime ▸ hexpire)
    · rw [hno] at hexpire
      cases hexpire
  · rcases hnew hm' with ⟨m, hm, hkeeps⟩ | ⟨-, -, hno⟩
    · rw [hkeeps.needSend]
      exact h.needs hm
    · exact Or.inl hno
  · rcases hfiled hf with hf | ⟨-, hm'⟩
    · obtain ⟨m, hm, rfl⟩ := h.filed hf
      obtain ⟨m', hm', hkeeps⟩ := hold hm
      exact ⟨m', hm', hkeeps.transferId⟩
    · exact hm'
  · obtain ⟨m, hm, hr, hneed⟩ := h.claimed (hclaims ▸ hclaim)
    obtain ⟨m', hm', hkeeps⟩ := hold hm
    exact ⟨m', hm', hkeeps.ready.trans hr, hkeeps.needSend.trans hneed⟩
  · rw [hon]
    exact h.few ref
  · obtain ⟨ref, m, hreleased, hreq⟩ := h.event e (hevents ▸ he)
    obtain ⟨m', hm', hkeeps⟩ := hold hreleased.state
    refine ⟨ref, m', ⟨hm', hkeeps.ready.trans hreleased.ready, fun hf => ?_, ?_, ?_⟩,
      (hkeeps.pReqId hreleased.ready).trans hreq⟩
    · rcases hfiled hf with hf | ⟨hle, -⟩
      · exact hreleased.gone (hkeeps.transferId ▸ hf)
      · have := (List.getElem?_eq_some_iff.mp hreleased.state).1
        omega
    · refine List.countP_eq_zero.mpr fun claim hclaim hopen => ?_
      rw [hclaims] at hclaim
      simp only [Bool.and_eq_true, beq_iff_eq, Bool.not_eq_eq_eq_not, Bool.not_true,
        List.contains_eq_mem, decide_eq_false_iff_not] at hopen
      obtain ⟨rfl, hopen⟩ := hopen
      exact hopen (hfinished (mem_finished hreleased.finished hclaim))
    · rw [hon, hkeeps.expireTime]
      exact hreleased.last

/-- An operation on the sessions. -/
theorem of_eq (h : ReleaseInv n now b) (hstates : b'.states = b.states)
    (hmeta : b'.sendMeta = b.sendMeta) (hclaims : b'.claims = b.claims)
    (hfinished : b'.finished = b.finished) (hannouncements : b'.announcements = b.announcements)
    (hevents : b'.finalEvents = b.finalEvents) : ReleaseInv n now b' :=
  h.of_keeps (fun hm => ⟨_, hstates ▸ hm, .refl _⟩) (fun hm => Or.inl ⟨_, hstates ▸ hm, .refl _⟩)
    (fun hf => Or.inl (hmeta ▸ hf)) hclaims (by rw [hfinished]; exact fun _ hmem => hmem)
    hannouncements hevents

/-- A `_SendState` changes in its counters, or has no request yet. -/
theorem modifyState (h : ReleaseInv n now b) {f : SendState → SendState}
    (hf : ∀ m, b.states[ref]? = some m → Keeps m (f m)) {finished : List Nat}
    (hfinished : b.finished ⊆ finished) :
    ReleaseInv n now { b.modifyState ref f with finished } := by
  refine h.of_keeps (fun {i m} hm => ?_) (fun {i m'} hm' => Or.inl ?_) Or.inl rfl hfinished rfl rfl
  · by_cases hi : ref = i
    · subst hi
      exact ⟨f m, getElem?_modify_self hm f, hf m hm⟩
    · exact ⟨m, (getElem?_modify_ne hi f).trans hm, .refl m⟩
  · rcases getElem?_modify_some hm' with ⟨rfl, m, hm, rfl⟩ | ⟨-, hm⟩
    · exact ⟨m, hm, hf m hm⟩
    · exact ⟨m', hm, .refl m'⟩

/-- A new state that is not announced. -/
theorem addState (h : ReleaseInv n now b) (hready : m.ready = false) (hexpire : m.expireTime = none)
    (hneed : m.needSend = 0) : ReleaseInv n now (b.addState m) := by
  refine h.of_keeps (fun {i m₀} hm => ⟨m₀, ?_, .refl m₀⟩) (fun {i m'} hm' => ?_)
    (fun {transferId i} hf => ?_) rfl (fun _ hmem => hmem) rfl rfl
  · exact (List.getElem?_append_left (List.getElem?_eq_some_iff.mp hm).1).trans hm
  · rcases getElem?_append_some hm' with hm | ⟨-, rfl⟩
    · exact Or.inl ⟨m', hm, .refl m'⟩
    · exact Or.inr ⟨hready, hexpire, hneed⟩
  · simp only [Book.addState, Function.update_apply] at hf
    split at hf
    · rename_i heq
      obtain rfl := Option.some.inj hf
      exact Or.inr ⟨le_rfl, m, by simp [Book.addState], heq.symm⟩
    · exact Or.inl hf

theorem popSend (h : ReleaseInv n now b) (transferId : TransferId) :
    ReleaseInv n now (b.popSend transferId) := by
  refine h.of_keeps (fun hm => ⟨_, hm, .refl _⟩) (fun hm => Or.inl ⟨_, hm, .refl _⟩)
    (fun {other i} hf => Or.inl ?_) rfl (fun _ hmem => hmem) rfl rfl
  simp only [Book.popSend, Function.update_apply] at hf
  split at hf
  · cases hf
  · exact hf

/-- A peer claims a state that has not had its event. -/
theorem claim (h : ReleaseInv n now b) (hm : b.states[ref]? = some m) (hready : m.ready = true)
    (hfew : b.claimsOn ref < n) (hlive : ∀ e ∈ b.finalEvents, e.reqId ≠ m.pReqId) :
    ReleaseInv n now (b.claim tid ref n) := by
  have hold : ∀ {i : Nat} {x : SendState}, b.states[i]? = some x →
      ∃ x', (b.claim tid ref n).states[i]? = some x' ∧ x'.transferId = x.transferId ∧
        x'.ready = x.ready ∧ x'.expireTime = x.expireTime ∧ x'.pReqId = x.pReqId ∧
        (i = ref ∨ x'.needSend = x.needSend) := by
    intro i x hx
    by_cases hi : ref = i
    · subst hi
      exact ⟨_, getElem?_modify_self hx _, rfl, rfl, rfl, rfl, Or.inl rfl⟩
    · exact ⟨x, (getElem?_modify_ne hi _).trans hx, rfl, rfl, rfl, rfl, Or.inr rfl⟩
  have hnew : ∀ {i : Nat} {x' : SendState}, (b.claim tid ref n).states[i]? = some x' →
      ∃ x, b.states[i]? = some x ∧ x'.transferId = x.transferId ∧ x'.ready = x.ready ∧
        x'.expireTime = x.expireTime ∧ x'.pReqId = x.pReqId ∧
        (x'.needSend = 0 ∨ x'.needSend = n) ∧ (i = ref → x'.needSend = n) := by
    intro i x' hx'
    rcases getElem?_modify_some hx' with ⟨rfl, x, hx, rfl⟩ | ⟨hne, hx⟩
    · have hneed : (if x.needSend = 0 then n else x.needSend) = n := by
        rcases h.needs hx with hzero | hn
        · rw [if_pos hzero]
        · split
          · rfl
          · exact hn
      exact ⟨x, hx, rfl, rfl, rfl, rfl, Or.inr hneed, fun _ => hneed⟩
    · exact ⟨x', hx, rfl, rfl, rfl, rfl, h.needs hx, fun heq => absurd heq.symm hne⟩
  have hon : ∀ i, (b.claim tid ref n).claimsOn i = b.claimsOn i + if ref = i then 1 else 0 := by
    intro i
    simp [claimsOn, Book.claim, Book.modifyState, List.countP_append, List.countP_cons]
  refine ⟨h.reqIds, h.transferIds, h.named, fun hx' hr => ?_, fun hi hj hri hrj heq => ?_,
    fun hx' hexpire => ?_, fun hx' => ?_, fun hf => ?_, fun hclaim => ?_, fun i => ?_,
    fun e he => ?_, h.once⟩
  · obtain ⟨x, hx, htransfer, hready', -, hreq, -⟩ := hnew hx'
    rw [htransfer, hreq]
    exact h.announced hx (hready'.symm.trans hr)
  · obtain ⟨x₁, hx₁, htransfer₁, hready₁, -⟩ := hnew hi
    obtain ⟨x₂, hx₂, htransfer₂, hready₂, -⟩ := hnew hj
    rw [htransfer₁, htransfer₂] at heq
    exact h.single hx₁ hx₂ (hready₁.symm.trans hri) (hready₂.symm.trans hrj) heq
  · obtain ⟨x, hx, -, hready', hexpire', -⟩ := hnew hx'
    rw [hready']
    exact h.expires hx (hexpire' ▸ hexpire)
  · obtain ⟨x, hx, -, -, -, -, hneeds, -⟩ := hnew hx'
    exact hneeds
  · obtain ⟨x, hx, rfl⟩ := h.filed hf
    obtain ⟨x', hx', htransfer, -⟩ := hold hx
    exact ⟨x', hx', htransfer⟩
  · rcases List.mem_append.mp hclaim with hclaim | hclaim
    · obtain ⟨x, hx, hr, hneed⟩ := h.claimed hclaim
      obtain ⟨x', hx', -, hready', -⟩ := hold hx
      obtain ⟨y, hy, -, -, -, -, hneeds, hself⟩ := hnew hx'
      refine ⟨x', hx', hready'.trans hr, ?_⟩
      obtain ⟨x'', hx'', -, -, -, -, hcase⟩ := hold hx
      obtain rfl := Option.some.inj (hx'.symm.trans hx'')
      rcases hcase with rfl | hsame
      · exact hself rfl
      · exact hsame.trans hneed
    · obtain ⟨-, rfl⟩ := Prod.mk.inj (List.mem_singleton.mp hclaim)
      obtain ⟨x', hx', -, hready', -⟩ := hold hm
      obtain ⟨y, hy, -, -, -, -, -, hself⟩ := hnew hx'
      exact ⟨x', hx', hready'.trans hready, hself rfl⟩
  · rw [hon]
    split
    · rename_i heq
      subst heq
      omega
    · exact h.few i
  · obtain ⟨i, x, hreleased, hreq⟩ := h.event e he
    have hne : i ≠ ref := fun heq => by
      subst heq
      obtain rfl := Option.some.inj (hm.symm.trans hreleased.state)
      exact hlive e he hreq.symm
    obtain ⟨x', hx', htransfer, hready', hexpire, hreq', -⟩ := hold hreleased.state
    refine ⟨i, x', ⟨hx', hready'.trans hreleased.ready, ?_, ?_, ?_⟩, hreq'.trans hreq⟩
    · rw [htransfer]
      exact hreleased.gone
    · have hcount : (b.claim tid ref n).unfinished i = b.unfinished i := by
        simp [unfinished, Book.claim, Book.modifyState, List.countP_append, Ne.symm hne]
      rw [hcount]
      exact hreleased.finished
    · rw [hon, if_neg (Ne.symm hne), hexpire]
      exact hreleased.last

/-- The event of a state whose claims are all finished. -/
theorem emit (h : ReleaseInv n now b) (kind : FinalKind) (hm : b.states[ref]? = some m)
    (hready : m.ready = true) (hzero : b.unfinished ref = 0)
    (hlast : b.claimsOn ref = n ∨
      kind = .sendingExpired ∧ ∃ expiry, m.expireTime = some expiry ∧ expiry < now)
    (hlive : ∀ e ∈ b.finalEvents, e.reqId ≠ m.pReqId) :
    ReleaseInv n now ((b.popSend m.transferId).emit kind m.pReqId) := by
  have hpop := h.popSend m.transferId
  refine ⟨hpop.reqIds, hpop.transferIds, hpop.named, hpop.announced, hpop.single, hpop.expires,
    hpop.needs, hpop.filed, hpop.claimed, hpop.few, fun e he => ?_, ?_⟩
  · rcases List.mem_append.mp he with he | he
    · obtain ⟨i, x, hreleased, hreq⟩ := hpop.event e he
      exact ⟨i, x, ⟨hreleased.state, hreleased.ready, hreleased.gone, hreleased.finished,
        hreleased.last⟩, hreq⟩
    · rw [List.mem_singleton.mp he]
      refine ⟨ref, m, ⟨hm, hready, ?_, hzero, hlast⟩, rfl⟩
      simp [Book.emit, Book.popSend]
  · show (List.map FinalEvent.reqId (b.finalEvents ++ [(⟨kind, m.pReqId⟩ : FinalEvent)])).Nodup
    rw [List.map_append, List.nodup_append]
    refine ⟨h.once, List.nodup_singleton _, fun reqId hreqId other hother heq => ?_⟩
    obtain ⟨e, he, rfl⟩ := List.mem_map.mp hreqId
    rw [List.map_singleton, List.mem_singleton] at hother
    exact hlive e he (heq.trans hother)

/-- `_finish_send_meta`, by a claim that is not finished. -/
theorem finishSendMeta (h : ReleaseInv n now b) (hsend : SendInv b) {claim : Nat}
    (hclaim : (claim, ref) ∈ b.claims) (hopen : claim ∉ b.finished) :
    ReleaseInv n now (b.finishSendMeta claim ref) := by
  have hcount : ReleaseInv n now (b.countSent claim ref) :=
    h.modifyState (f := fun m => { m with sending := m.sending - 1, sent := m.sent + 1 })
      (fun m _ => ⟨rfl, rfl, rfl, rfl, fun _ => rfl⟩) fun _ hmem => List.mem_append_left _ hmem
  have hsend' := hsend.countSent hclaim hopen
  unfold Book.finishSendMeta Book.releaseSend
  split
  · exact hcount
  · rename_i m hm
    split
    · rename_i hreached
      obtain ⟨m₀, hm₀, hready, hneed⟩ := @ReleaseInv.claimed _ _ _ hcount claim ref hclaim
      obtain rfl := Option.some.inj (hm.symm.trans hm₀)
      -- all `n` peers have claimed the state, and all claims are finished
      have hsum := unfinished_add_finishedOn (b.countSent claim ref) ref
      have hsent : m.sent = _ := hsend'.sent hm
      have hfew := hcount.few ref
      refine hcount.emit .sending hm hready (by omega) (Or.inl (by omega)) fun e he hreq => ?_
      obtain ⟨i, x, hreleased, hreqx⟩ := h.event e he
      obtain ⟨y, hy, hreadyy, -⟩ := h.claimed hclaim
      obtain ⟨y', hy', hkeeps⟩ : ∃ y', (b.countSent claim ref).states[ref]? = some y' ∧
          y'.pReqId = y.pReqId := ⟨_, getElem?_modify_self hy _, rfl⟩
      obtain rfl := Option.some.inj (hm.symm.trans hy')
      have href : i = ref := h.same_ref hreleased.state hy hreleased.ready hreadyy
        (hreqx.trans (hreq.trans hkeeps))
      subst href
      exact hopen (mem_finished hreleased.finished hclaim)
    · exact hcount

/-- One entry of the sweep. -/
theorem sweepState (h : ReleaseInv n now b) (hsend : SendInv b) :
    ReleaseInv n now (Book.sweepState now b ref) := by
  unfold Book.sweepState
  split
  · exact h
  · rename_i m hm
    split
    · rename_i hexpired
      obtain ⟨hfiled, -, hexpire, hsending⟩ := hexpired
      obtain ⟨expiry, hexpiry, hlt⟩ : ∃ expiry, m.expireTime = some expiry ∧ expiry < now := by
        cases hexpiry : m.expireTime with
        | none => rw [hexpiry] at hexpire; cases hexpire
        | some expiry =>
            rw [hexpiry] at hexpire
            exact ⟨expiry, rfl, of_decide_eq_true hexpire⟩
      have hready := h.expires hm (by rw [hexpiry]; rfl)
      have hzero := hsend.sending hm
      refine h.emit .sendingExpired hm hready (by omega) (Or.inr ⟨rfl, expiry, hexpiry, hlt⟩)
        fun e he hreq => ?_
      obtain ⟨i, x, hreleased, hreqx⟩ := h.event e he
      obtain rfl := h.same_ref hreleased.state hm hreleased.ready hready (hreqx.trans hreq)
      obtain rfl := Option.some.inj (hm.symm.trans hreleased.state)
      exact hreleased.gone hfiled
    · exact h

/-- An announcement fills the state `ref`, which was not announced before. -/
theorem fill (h : ReleaseInv n now b) {a : ProducerAnnouncement}
    (hreqId : a.pReqId ∉ b.announcements.map (·.pReqId))
    (htransferId : a.transferId ∉ b.announcements.map (·.transferId)) (hnamed : a.pReqId ≠ "")
    (hreq : m.pReqId = a.pReqId) (htransfer : m.transferId = a.transferId)
    (hready : m.ready = true) (hneed : m.needSend = 0 ∨ m.needSend = n)
    (hunready : ∀ m₀, b.states[ref]? = some m₀ → m₀.ready = false)
    (hself : b'.states[ref]? = some m) (hother : ∀ i ≠ ref, b'.states[i]? = b.states[i]?)
    (hfiled : ∀ {transferId : TransferId} {i : Nat}, b'.sendMeta transferId = some i →
      b.sendMeta transferId = some i ∧ (i = ref → transferId = a.transferId) ∨
        i = ref ∧ transferId = a.transferId)
    (hclaims : b'.claims = b.claims) (hfinished : b'.finished = b.finished)
    (hannouncements : b'.announcements = b.announcements ++ [a])
    (hevents : b'.finalEvents = b.finalEvents) : ReleaseInv n now b' := by
  have hne : ∀ {i : Nat} {x : SendState}, b.states[i]? = some x → x.ready = true → i ≠ ref := by
    rintro i x hx hr rfl
    rw [hunready x hx] at hr
    cases hr
  have hcases : ∀ {i : Nat} {x : SendState}, b'.states[i]? = some x →
      i = ref ∧ x = m ∨ i ≠ ref ∧ b.states[i]? = some x := by
    intro i x hx
    by_cases hi : i = ref
    · subst hi
      exact Or.inl ⟨rfl, Option.some.inj (hx.symm.trans hself)⟩
    · exact Or.inr ⟨hi, (hother i hi).symm.trans hx⟩
  have hfresh : ∀ {i : Nat} {x : SendState}, b.states[i]? = some x → x.ready = true →
      x.transferId ≠ a.transferId := by
    intro i x hx hr heq
    obtain ⟨a', ha', -, htransfer'⟩ := h.announced hx hr
    exact htransferId (List.mem_map.mpr ⟨a', ha', htransfer'.trans heq⟩)
  have hon : ∀ i, b'.claimsOn i = b.claimsOn i := fun i => by rw [claimsOn, claimsOn, hclaims]
  refine ⟨?_, ?_, fun a' ha' => ?_, fun hx hr => ?_, fun hi hj hri hrj heq => ?_,
    fun hx hexpire => ?_, fun hx => ?_, fun {transferId i} hf => ?_, fun hclaim => ?_, fun i => ?_,
    fun e he => ?_, by rw [hevents]; exact h.once⟩
  · rw [hannouncements, List.map_append]
    refine List.nodup_append.mpr ⟨h.reqIds, List.nodup_singleton _, fun x hx y hy heq => ?_⟩
    rw [heq, List.mem_singleton.mp hy] at hx
    exact hreqId hx
  · rw [hannouncements, List.map_append]
    refine List.nodup_append.mpr ⟨h.transferIds, List.nodup_singleton _, fun x hx y hy heq => ?_⟩
    rw [heq, List.mem_singleton.mp hy] at hx
    exact htransferId hx
  · rw [hannouncements] at ha'
    rcases List.mem_append.mp ha' with ha' | ha'
    · exact h.named a' ha'
    · rw [List.mem_singleton.mp ha']
      exact hnamed
  · rw [hannouncements]
    rcases hcases hx with ⟨-, rfl⟩ | ⟨-, hx⟩
    · exact ⟨a, List.mem_append_right _ (List.mem_singleton_self a), hreq.symm, htransfer.symm⟩
    · obtain ⟨a', ha', hids⟩ := h.announced hx hr
      exact ⟨a', List.mem_append_left _ ha', hids⟩
  · rcases hcases hi with ⟨rfl, rfl⟩ | ⟨-, hx₁⟩ <;> rcases hcases hj with ⟨rfl, rfl⟩ | ⟨-, hx₂⟩
    · rfl
    · exact absurd (heq.symm.trans htransfer) (hfresh hx₂ hrj)
    · exact absurd (heq.trans htransfer) (hfresh hx₁ hri)
    · exact h.single hx₁ hx₂ hri hrj heq
  · rcases hcases hx with ⟨-, rfl⟩ | ⟨-, hx⟩
    · exact hready
    · exact h.expires hx hexpire
  · rcases hcases hx with ⟨-, rfl⟩ | ⟨-, hx⟩
    · exact hneed
    · exact h.needs hx
  · rcases hfiled hf with ⟨hf, hself'⟩ | ⟨rfl, rfl⟩
    · by_cases hi : i = ref
      · subst hi
        exact ⟨m, hself, htransfer.trans (hself' rfl).symm⟩
      · rw [hother i hi]
        exact h.filed hf
    · exact ⟨m, hself, htransfer⟩
  · obtain ⟨x, hx, hr, hneed'⟩ := h.claimed (hclaims ▸ hclaim)
    exact ⟨x, (hother _ (hne hx hr)).trans hx, hr, hneed'⟩
  · rw [hon]
    exact h.few i
  · obtain ⟨i, x, hreleased, hreqx⟩ := h.event e (hevents ▸ he)
    have hi := hne hreleased.state hreleased.ready
    refine ⟨i, x, ⟨(hother i hi).trans hreleased.state, hreleased.ready, fun hf => ?_, ?_, ?_⟩, hreqx⟩
    · rcases hfiled hf with ⟨hf, -⟩ | ⟨heq, -⟩
      · exact hreleased.gone hf
      · exact hi heq
    · rw [unfinished, hclaims, hfinished]
      exact hreleased.finished
    · rw [hon]
      exact hreleased.last

/-- One announcement. -/
theorem applyAnnouncement (h : ReleaseInv n now b) {a : ProducerAnnouncement}
    (hreqId : a.pReqId ∉ b.announcements.map (·.pReqId))
    (htransferId : a.transferId ∉ b.announcements.map (·.transferId)) (hnamed : a.pReqId ≠ "") :
    ReleaseInv n now (Book.applyAnnouncement now b a) := by
  unfold Book.applyAnnouncement
  dsimp only
  split
  · rename_i ref hf
    obtain ⟨m, hm, htransfer⟩ := h.filed hf
    have hneed : m.needSend = 0 ∨ m.needSend = n := h.needs hm
    refine @fill n now b _ ref (fillState now a m) h a hreqId htransferId hnamed rfl htransfer rfl
      hneed (fun m₀ hm₀ => ?_) (getElem?_modify_self hm _)
      (fun i hi => getElem?_modify_ne (Ne.symm hi) _)
      (fun {transferId i} hf' => Or.inl ⟨hf', fun hi => ?_⟩) rfl rfl rfl rfl
    · obtain rfl := Option.some.inj (hm.symm.trans hm₀)
      cases hready : m.ready with
      | false => rfl
      | true =>
          obtain ⟨a', ha', -, htransfer'⟩ := h.announced hm hready
          exact absurd (List.mem_map.mpr ⟨a', ha', htransfer'.trans htransfer⟩) htransferId
    · obtain ⟨x, hx, rfl⟩ := h.filed hf'
      subst hi
      obtain rfl := Option.some.inj (hm.symm.trans hx)
      exact htransfer
  · refine @fill n now b _ b.states.length (fillState now a { transferId := a.transferId }) h a
      hreqId htransferId hnamed rfl rfl rfl (Or.inl rfl) (fun m₀ hm₀ => ?_)
      (by simp [Book.addState]) (fun i hi => ?_) (fun {transferId i} hf' => ?_)
      rfl rfl rfl rfl
    · simp at hm₀
    · simp only [Book.addState, List.getElem?_append]
      split
      · rfl
      · rw [List.getElem?_eq_none (by simp; omega), List.getElem?_eq_none (by omega)]
    · simp only [Book.addState, fillState, Function.update_apply] at hf'
      split at hf'
      · rename_i heq
        exact Or.inr ⟨(Option.some.inj hf').symm, heq⟩
      · refine Or.inl ⟨hf', fun hi => ?_⟩
        obtain ⟨x, hx, -⟩ := h.filed hf'
        have := (List.getElem?_eq_some_iff.mp hx).1
        omega

/-! ### The operations of the handlers -/

theorem retire (h : ReleaseInv n now b) (hl : Ledger b) {x : ProducerSession}
    (hx : b.sessions[ref]? = some x) (hreg : b.producerSessions x.key = some ref)
    (hstates : b'.states = b.states) (hmeta : b'.sendMeta = b.sendMeta)
    (hclaims : b'.claims = b.claims) (hfinished : b'.finished = b.finished)
    (hannouncements : b'.announcements = b.announcements) (hevents : b'.finalEvents = b.finalEvents) :
    ReleaseInv n now (b'.finishSendMeta x.opener x.sendState) := by
  have hwf := hl.sess.session hx
  refine (h.of_eq hstates hmeta hclaims hfinished hannouncements hevents).finishSendMeta
    (hl.send.of_eq hclaims hfinished hstates) (hclaims ▸ hwf.claimed) ?_
  rw [hfinished]
  exact hwf.filed.mp ((registered_iff hx).mpr hreg)

theorem completeProducerSession (h : ReleaseInv n now b) (hl : Ledger b) {clock : Nat} :
    ReleaseInv n now (b.completeProducerSession clock ref) := by
  unfold Book.completeProducerSession
  split
  · exact h
  · rename_i x hx
    split
    · rename_i hreg
      exact h.retire hl hx hreg rfl rfl rfl rfl rfl rfl
    · exact h.of_eq rfl rfl rfl rfl rfl rfl

theorem discardProducerSession (h : ReleaseInv n now b) (hl : Ledger b) :
    ReleaseInv n now (b.discardProducerSession ref) := by
  unfold Book.discardProducerSession
  split
  · exact h
  · rename_i x hx
    split
    · rename_i hreg
      split
      · exact h.retire hl hx hreg rfl rfl rfl rfl rfl rfl
      · have hpop : ReleaseInv n now (b.popSession x.key) := h.of_eq rfl rfl rfl rfl rfl rfl
        exact hpop.modifyState (f := fun m => { m with sending := m.sending - 1 })
          (fun m _ => ⟨rfl, rfl, rfl, rfl, fun _ => rfl⟩) fun _ hmem => hmem
    · exact h.of_eq rfl rfl rfl rfl rfl rfl

theorem discardIfIdle (h : ReleaseInv n now b) (hl : Ledger b) :
    ReleaseInv n now (b.discardIfIdle ref) := by
  unfold Book.discardIfIdle
  split
  · split
    · exact h.discardProducerSession hl
    · exact h
  · exact h

theorem completeIfDone (h : ReleaseInv n now b) (hl : Ledger b) {clock : Nat} :
    ReleaseInv n now (b.completeIfDone clock ref) := by
  unfold Book.completeIfDone
  split
  · split
    · exact h.completeProducerSession hl
    · exact h
  · exact h

theorem cancelSession (h : ReleaseInv n now b) (hl : Ledger b) :
    ReleaseInv n now (b.cancelSession ref) := by
  have hset : ReleaseInv n now (b.setSessionState ref .cancelled) := h.of_eq rfl rfl rfl rfl rfl rfl
  exact hset.discardIfIdle (hl.setDead rfl)

theorem cancelMatching (h : ReleaseInv n now b) (hl : Ledger b) (key : OperationKey) :
    ReleaseInv n now (Book.cancelMatching key b ref) := by
  unfold Book.cancelMatching
  split
  · split
    · exact h.cancelSession hl
    · exact h
  · exact h

theorem cancelAll (h : ReleaseInv n now b) (hl : Ledger b) (key : OperationKey) :
    ReleaseInv n now (b.cancelAll key) :=
  (foldl_keeps (P := fun c => ReleaseInv n now c ∧ Ledger c)
    (fun _ _ h => ⟨h.1.cancelMatching h.2 key, h.2.cancelMatching key⟩) _ ⟨h, hl⟩).1

theorem dropPlaceholder (h : ReleaseInv n now b) {transferId : TransferId} {isNew : Bool} :
    ReleaseInv n now (b.dropPlaceholder transferId ref isNew) := by
  unfold Book.dropPlaceholder
  split
  · split
    · exact h.popSend transferId
    · exact h
  · exact h

theorem openFailed (h : ReleaseInv n now b) (hsend : SendInv b) {transferId : TransferId}
    {isNew claimed : Bool}
    (hclaim : claimed = true → (tid, ref) ∈ b.claims ∧ tid ∉ b.finished) :
    ReleaseInv n now (b.openFailed tid transferId ref isNew claimed) := by
  cases claimed with
  | false => exact h.dropPlaceholder
  | true => exact (h.finishSendMeta hsend (hclaim rfl).1 (hclaim rfl).2).dropPlaceholder

theorem sweepSends (h : ReleaseInv n now b) (hl : Ledger b) :
    ReleaseInv n now (b.sweepSends now) :=
  (foldl_keeps (P := fun c => ReleaseInv n now c ∧ Ledger c)
    (fun _ _ h => ⟨h.1.sweepState h.2.send, h.2.sweepState⟩) _ ⟨h, hl⟩).1

theorem applyProducerMetadata (h : ReleaseInv n now b) {message : ProducerMetadata}
    (hfresh : Fresh b message.announced) :
    ReleaseInv n now (b.applyProducerMetadata now message) := by
  have hann : ∀ (l : List ProducerAnnouncement) {b : Book}, ReleaseInv n now b → Fresh b l →
      ReleaseInv n now (l.foldl (Book.applyAnnouncement now) b) := by
    intro l
    induction l with
    | nil => exact fun h _ => h
    | cons a l ih =>
        intro b h hfresh
        obtain ⟨hreqIds, htransferIds, hnamed⟩ := hfresh
        have hsplit : b.announcements ++ a :: l = (b.announcements ++ [a]) ++ l := by simp
        have hannouncements : (Book.applyAnnouncement now b a).announcements =
            b.announcements ++ [a] := by
          unfold Book.applyAnnouncement
          dsimp only
          split <;> rfl
        refine ih (h.applyAnnouncement ?_ ?_ (hnamed a List.mem_cons_self)) ⟨?_, ?_, fun a' ha' =>
          hnamed a' (List.mem_cons_of_mem _ ha')⟩
        · rw [hsplit, List.map_append, List.map_append] at hreqIds
          intro hmem
          exact (List.nodup_append.mp (List.nodup_append.mp hreqIds).1).2.2 _ hmem _
            (List.mem_singleton_self _) rfl
        · rw [hsplit, List.map_append, List.map_append] at htransferIds
          intro hmem
          exact (List.nodup_append.mp (List.nodup_append.mp htransferIds).1).2.2 _ hmem _
            (List.mem_singleton_self _) rfl
        · rw [hannouncements, ← hsplit]
          exact hreqIds
        · rw [hannouncements, ← hsplit]
          exact htransferIds
  have hpub : ∀ (l : List ProducerPublish) {b : Book}, ReleaseInv n now b →
      ReleaseInv n now (l.foldl applyPublish b) := by
    intro l
    induction l with
    | nil => exact fun h => h
    | cons published l ih =>
        intro b h
        refine ih ?_
        unfold applyPublish
        split
        · refine h.modifyState (fun m hm => ?_) fun _ hmem => hmem
          -- the request of an announced state stays
          refine ⟨by split <;> rfl, by split <;> rfl, by split <;> rfl, by split <;> rfl,
            fun hready => ?_⟩
          obtain ⟨a, ha, hreq, -⟩ := h.announced hm hready
          rw [if_neg (hreq ▸ h.named a ha)]
        · exact h.addState rfl rfl rfl
  have hdrop : ∀ (l : List TransferId) {b : Book}, ReleaseInv n now b →
      ReleaseInv n now (l.foldl Book.popSend b) := by
    intro l
    induction l with
    | nil => exact fun h => h
    | cons transferId l ih => exact fun h => ih (h.popSend transferId)
  exact hdrop _ (hpub _ (hann _ h hfresh))

end ReleaseInv

/-! ### Deadlines -/

/-- What becomes of a `_SendState`: it keeps its transfer, and gets its deadline
when it is announced. -/
structure Ages (now : Nat) (b b' : Book) : Prop where
  states : ∀ {ref : Nat} {m : SendState}, b.states[ref]? = some m →
    ∃ m', b'.states[ref]? = some m' ∧ m'.transferId = m.transferId ∧
      (m'.ready = true → m'.expireTime = some (now + abortTimeout) ∨
        (m.ready = true ∧ m'.expireTime = m.expireTime))

namespace Ages

theorem of_eq (h : b'.states = b.states) : Ages now b b' :=
  ⟨fun {_ m} hm => ⟨m, h ▸ hm, rfl, fun hready => Or.inr ⟨hready, rfl⟩⟩⟩

theorem refl (b : Book) : Ages now b b := .of_eq rfl

theorem trans {c : Book} (h₁ : Ages now b c) (h₂ : Ages now c b') : Ages now b b' := by
  refine ⟨fun hm => ?_⟩
  obtain ⟨x, hx, hxt, hxr⟩ := h₁.states hm
  obtain ⟨y, hy, hyt, hyr⟩ := h₂.states hx
  refine ⟨y, hy, hyt.trans hxt, fun hready => ?_⟩
  rcases hyr hready with hnow | ⟨hready', hsame⟩
  · exact Or.inl hnow
  · rw [hsame]
    exact hxr hready'

theorem modifyState {i : Nat} {f : SendState → SendState}
    (hstates : b'.states = b.states.modify i f)
    (htransfer : ∀ m, (f m).transferId = m.transferId)
    (hf : ∀ m, (f m).ready = true → (f m).expireTime = some (now + abortTimeout) ∨
      (m.ready = true ∧ (f m).expireTime = m.expireTime)) : Ages now b b' := by
  refine ⟨fun {j m} hm => ?_⟩
  rw [hstates]
  by_cases hi : i = j
  · subst hi
    exact ⟨f m, getElem?_modify_self hm f, htransfer m, hf m⟩
  · exact ⟨m, (getElem?_modify_ne hi f).trans hm, rfl, fun hready => Or.inr ⟨hready, rfl⟩⟩

theorem addState : Ages now b (b.addState m) :=
  ⟨fun {_ x} hx => ⟨x, (List.getElem?_append_left (List.getElem?_eq_some_iff.mp hx).1).trans hx,
    rfl, fun hready => Or.inr ⟨hready, rfl⟩⟩⟩

theorem releaseSend : Ages now b (b.releaseSend ref) := by
  unfold Book.releaseSend
  split
  · exact .refl b
  · split
    · exact .of_eq rfl
    · exact .refl b

theorem finishSendMeta (h : b'.states = b.states) : Ages now b (b'.finishSendMeta tid ref) := by
  refine .trans (c := b'.countSent tid ref) (modifyState (i := ref)
    (f := fun m => { m with sending := m.sending - 1, sent := m.sent + 1 }) ?_ (fun _ => rfl)
    fun _ hready => Or.inr ⟨hready, rfl⟩) releaseSend
  rw [← h]
  rfl

theorem claim : Ages now b (b.claim tid ref n) :=
  modifyState (i := ref) (f := fun m =>
    { m with sending := m.sending + 1, needSend := if m.needSend = 0 then n else m.needSend })
    rfl (fun _ => rfl) fun _ hready => Or.inr ⟨hready, rfl⟩

theorem completeProducerSession {clock : Nat} :
    Ages now b (b.completeProducerSession clock ref) := by
  unfold Book.completeProducerSession
  split
  · exact .refl b
  · split
    · exact finishSendMeta rfl
    · exact .of_eq rfl

theorem discardProducerSession : Ages now b (b.discardProducerSession ref) := by
  unfold Book.discardProducerSession
  split
  · exact .refl b
  · rename_i x _
    split
    · split
      · exact finishSendMeta rfl
      · exact modifyState (i := x.sendState) (f := fun m => { m with sending := m.sending - 1 })
          rfl (fun _ => rfl) fun _ hready => Or.inr ⟨hready, rfl⟩
    · exact .of_eq rfl

theorem discardIfIdle : Ages now b (b.discardIfIdle ref) := by
  unfold Book.discardIfIdle
  split
  · split
    · exact discardProducerSession
    · exact .refl b
  · exact .refl b

theorem completeIfDone {clock : Nat} : Ages now b (b.completeIfDone clock ref) := by
  unfold Book.completeIfDone
  split
  · split
    · exact completeProducerSession
    · exact .refl b
  · exact .refl b

theorem cancelSession : Ages now b (b.cancelSession ref) :=
  .trans (c := b.setSessionState ref .cancelled) (.of_eq rfl) discardIfIdle

theorem cancelAll (key : OperationKey) : Ages now b (b.cancelAll key) := by
  refine foldl_keeps (P := Ages now b) (fun c ref h => h.trans ?_) _ (.refl b)
  unfold Book.cancelMatching
  split
  · split
    · exact cancelSession
    · exact .refl c
  · exact .refl c

theorem dropPlaceholder {transferId : TransferId} {isNew : Bool} :
    Ages now b (b.dropPlaceholder transferId ref isNew) := by
  unfold Book.dropPlaceholder
  split
  · split
    · exact .of_eq rfl
    · exact .refl b
  · exact .refl b

theorem openFailed {transferId : TransferId} {isNew claimed : Bool} :
    Ages now b (b.openFailed tid transferId ref isNew claimed) := by
  cases claimed with
  | false => exact dropPlaceholder
  | true => exact (finishSendMeta rfl).trans dropPlaceholder

theorem sweepSends {clock : Nat} : Ages now b (b.sweepSends clock) := by
  refine foldl_keeps (P := Ages now b) (fun c ref h => h.trans ?_) _ (.refl b)
  unfold Book.sweepState
  split
  · exact .refl c
  · split
    · exact .of_eq rfl
    · exact .refl c

theorem applyProducerMetadata (message : ProducerMetadata) :
    Ages now b (b.applyProducerMetadata now message) := by
  refine applyProducerMetadata_keeps (P := Ages now b) (fun c a h => h.trans ?_)
    (fun c a h => h.trans ?_) (fun c _ h => h.trans (.of_eq rfl)) message (.refl b)
  · have hbook : Ages now c { c with announcements := c.announcements ++ [a] } := .of_eq rfl
    unfold Book.applyAnnouncement
    dsimp only
    split
    · exact hbook.trans (modifyState (f := fillState now a) rfl (fun _ => rfl) fun _ _ => Or.inl rfl)
    · exact hbook.trans addState
  · unfold Book.applyPublish
    split
    · refine modifyState (f := fun m => if m.pReqId = "" then { m with pReqId := a.pReqId } else m)
        rfl (fun m => by split <;> rfl) fun m hready => Or.inr ?_
      split at hready <;> exact ⟨hready, by split <;> rfl⟩
    · exact addState

end Ages

end Book

end KVServe.Session

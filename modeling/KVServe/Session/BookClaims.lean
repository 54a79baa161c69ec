import KVServe.Session.BookEvolution

/-!
# KVServe.Session.BookClaims

The **send accounting**: who has claimed a send target and not given it back.

An open handler claims (`sending += 1`); the claim is given back once, when its
open fails, its session completes or its dead session is discarded. `claims` and
`finished` record this, and `SendInv` ties the counters of `_SendState` to them.
`SessInv` says which claims the sessions hold: a session is filed exactly as
long as its claim is not finished.
-/

namespace KVServe.Session

namespace Book

variable {now : Nat} {b b' : Book} {ref tid : Nat}

/-- The claims on a `_SendState` that are not finished. -/
def unfinished (b : Book) (ref : Nat) : Nat :=
  b.claims.countP fun claim => claim.2 == ref && !b.finished.contains claim.1

/-- The finished claims on a `_SendState`. -/
def finishedOn (b : Book) (ref : Nat) : Nat :=
  b.claims.countP fun claim => claim.2 == ref && b.finished.contains claim.1

/-- The counters of every `_SendState` agree with the history. -/
structure SendInv (b : Book) : Prop where
  claims : (b.claims.map (·.1)).Nodup
  finished : b.finished.Nodup
  known : ∀ tid ∈ b.finished, tid ∈ b.claims.map (·.1)
  target : ∀ {tid ref : Nat}, (tid, ref) ∈ b.claims → ref < b.states.length
  sending : ∀ {ref : Nat} {m : SendState}, b.states[ref]? = some m → m.sending = b.unfinished ref
  sent : ∀ {ref : Nat} {m : SendState}, b.states[ref]? = some m → m.sent = b.finishedOn ref

/-- A claim names its `_SendState`. -/
theorem SendInv.claim_unique (h : SendInv b) {ref ref' : Nat} (h₁ : (tid, ref) ∈ b.claims)
    (h₂ : (tid, ref') ∈ b.claims) : ref = ref' :=
  congrArg Prod.snd (List.inj_on_of_nodup_map h.claims h₁ h₂ rfl)

/-- Changes to the states that keep their counters. -/
theorem SendInv.of_states (h : SendInv b) (hclaims : b'.claims = b.claims)
    (hfinished : b'.finished = b.finished) (hlength : b.states.length ≤ b'.states.length)
    (hstates : ∀ {ref : Nat} {m : SendState}, b'.states[ref]? = some m →
      (∃ m₀, b.states[ref]? = some m₀ ∧ m.sending = m₀.sending ∧ m.sent = m₀.sent) ∨
        (b.states.length ≤ ref ∧ m.sending = 0 ∧ m.sent = 0)) : SendInv b' := by
  have hnone {ref : Nat} (hle : b.states.length ≤ ref) (p : Nat × Nat → Bool)
      (hp : ∀ claim, p claim = true → claim.2 = ref) : b.claims.countP p = 0 := by
    refine List.countP_eq_zero.mpr fun claim hmem hclaim => ?_
    have := h.target hmem
    rw [hp claim hclaim] at this
    omega
  refine ⟨by rw [hclaims]; exact h.claims, by rw [hfinished]; exact h.finished,
    by rw [hclaims, hfinished]; exact h.known, fun hmem => ?_, fun hm => ?_, fun hm => ?_⟩
  · exact lt_of_lt_of_le (h.target (hclaims ▸ hmem)) hlength
  · rw [unfinished, hclaims, hfinished]
    rcases hstates hm with ⟨m₀, hm₀, hsending, -⟩ | ⟨hle, hsending, -⟩
    · rw [hsending]; exact h.sending hm₀
    · rw [hsending, hnone hle _ fun claim hclaim => by simp_all]
      rfl
  · rw [finishedOn, hclaims, hfinished]
    rcases hstates hm with ⟨m₀, hm₀, -, hsent⟩ | ⟨hle, -, hsent⟩
    · rw [hsent]; exact h.sent hm₀
    · rw [hsent, hnone hle _ fun claim hclaim => by simp_all]

theorem SendInv.of_eq (h : SendInv b) (hclaims : b'.claims = b.claims)
    (hfinished : b'.finished = b.finished) (hstates : b'.states = b.states) : SendInv b' :=
  h.of_states hclaims hfinished (by rw [hstates]) fun hm =>
    Or.inl ⟨_, hstates ▸ hm, rfl, rfl⟩

theorem SendInv.modifyState (h : SendInv b) {f : SendState → SendState}
    (hsending : ∀ m, (f m).sending = m.sending) (hsent : ∀ m, (f m).sent = m.sent) :
    SendInv (b.modifyState ref f) := by
  refine h.of_states rfl rfl (by simp [Book.modifyState]) fun hm => Or.inl ?_
  rcases getElem?_modify_some hm with ⟨rfl, m₀, hm₀, rfl⟩ | ⟨-, hm₀⟩
  · exact ⟨m₀, hm₀, hsending m₀, hsent m₀⟩
  · exact ⟨_, hm₀, rfl, rfl⟩

theorem SendInv.addState (h : SendInv b) {m : SendState} (hsending : m.sending = 0)
    (hsent : m.sent = 0) : SendInv (b.addState m) := by
  refine h.of_states rfl rfl (by simp [Book.addState]) fun hm => ?_
  rcases getElem?_append_some hm with hm₀ | ⟨rfl, rfl⟩
  · exact Or.inl ⟨_, hm₀, rfl, rfl⟩
  · exact Or.inr ⟨le_rfl, hsending, hsent⟩

/-- `sending += 1`, by a handler that has not claimed before. -/
theorem SendInv.claim (h : SendInv b) {targets : Nat} (htid : tid ∉ b.claims.map (·.1))
    (href : ref < b.states.length) : SendInv (b.claim tid ref targets) := by
  have hfresh : tid ∉ b.finished := fun hmem => htid (h.known tid hmem)
  refine ⟨?_, h.finished, fun tid' hmem => ?_, fun hmem => ?_, fun {r m} hm => ?_, fun {r m} hm => ?_⟩
  · simpa [Book.claim, Book.modifyState, List.nodup_append] using
      ⟨h.claims, fun a x hmem heq => htid (heq ▸ List.mem_map_of_mem hmem)⟩
  · simpa [Book.claim, Book.modifyState] using Or.inl (by simpa using h.known tid' hmem)
  · simp only [Book.claim, Book.modifyState, List.length_modify]
    rcases List.mem_append.mp hmem with hmem | hmem
    · exact h.target hmem
    · obtain ⟨-, rfl⟩ := Prod.mk.inj (List.mem_singleton.mp hmem)
      exact href
  · have hcount : (b.claim tid ref targets).unfinished r =
        b.unfinished r + if ref = r then 1 else 0 := by
      change (b.claims ++ [(tid, ref)]).countP (fun claim =>
        claim.2 == r && !b.finished.contains claim.1) = _
      rw [List.countP_append, unfinished]
      simp [List.countP_cons, hfresh]
    rw [hcount]
    rcases getElem?_modify_some hm with ⟨rfl, m₀, hm₀, rfl⟩ | ⟨hne, hm₀⟩
    · rw [if_pos rfl, Int.natCast_add, ← h.sending hm₀]
      rfl
    · rw [if_neg hne]
      exact h.sending hm₀
  · have hcount : (b.claim tid ref targets).finishedOn r = b.finishedOn r := by
      change (b.claims ++ [(tid, ref)]).countP (fun claim =>
        claim.2 == r && b.finished.contains claim.1) = _
      rw [List.countP_append, finishedOn]
      simp [hfresh]
    rw [hcount]
    rcases getElem?_modify_some hm with ⟨rfl, m₀, hm₀, rfl⟩ | ⟨-, hm₀⟩
    · exact h.sent (m := m₀) hm₀
    · exact h.sent hm₀

/-- One claim is one entry of the list. -/
theorem SendInv.countP_claim (h : SendInv b) {claim : Nat} (hclaim : (claim, ref) ∈ b.claims)
    (r : Nat) : (b.claims.countP fun c => c.2 == r && c.1 == claim) = if r = ref then 1 else 0 := by
  have hcount : (b.claims.countP fun c => c.2 == r && c.1 == claim) =
      b.claims.count (claim, r) := by
    refine List.countP_congr fun c _ => ?_
    simp [Prod.ext_iff, and_comm]
  rw [hcount]
  by_cases hr : r = ref
  · subst hr
    rw [if_pos rfl]
    exact List.count_eq_one_of_mem (List.Nodup.of_map _ h.claims) hclaim
  · rw [if_neg hr]
    exact List.count_eq_zero.mpr fun hmem => hr (h.claim_unique hmem hclaim)

/-- `sending -= 1; sent += 1`, for a claim that is not finished. -/
theorem SendInv.countSent (h : SendInv b) {claim : Nat} (hclaim : (claim, ref) ∈ b.claims)
    (hopen : claim ∉ b.finished) : SendInv (b.countSent claim ref) := by
  -- The claims that leave one count and enter the other are this one.
  have hsplit (r : Nat) : b.unfinished r = (b.countSent claim ref).unfinished r +
      (if r = ref then 1 else 0) := by
    rw [unfinished, List.countP_eq_countP_filter_add _ _ fun c => c.1 == claim, List.countP_filter,
      List.countP_filter, ← h.countP_claim hclaim r, Nat.add_comm]
    refine congrArg₂ (· + ·) (List.countP_congr fun c _ => ?_) (List.countP_congr fun c _ => ?_)
    · simp [Book.countSent, Book.modifyState, and_assoc]
    · simp only [Bool.and_eq_true, beq_iff_eq, Bool.not_eq_eq_eq_not, Bool.not_true,
        List.contains_eq_mem, decide_eq_false_iff_not]
      constructor
      · rintro ⟨⟨hr, -⟩, hc⟩; exact ⟨hr, hc⟩
      · rintro ⟨hr, hc⟩; exact ⟨⟨hr, hc ▸ hopen⟩, hc⟩
  have hmove (r : Nat) : (b.countSent claim ref).finishedOn r =
      b.finishedOn r + (if r = ref then 1 else 0) := by
    rw [finishedOn, List.countP_eq_countP_filter_add _ _ fun c => c.1 == claim, List.countP_filter,
      List.countP_filter, ← h.countP_claim hclaim r, Nat.add_comm]
    refine congrArg₂ (· + ·) (List.countP_congr fun c _ => ?_) (List.countP_congr fun c _ => ?_)
    · simp only [Book.countSent, Book.modifyState, Bool.and_eq_true, beq_iff_eq,
        List.contains_eq_mem, decide_eq_true_eq, List.mem_append, List.mem_singleton,
        Bool.not_eq_eq_eq_not, Bool.not_true, beq_eq_false_iff_ne]
      constructor
      · rintro ⟨⟨hr, hmem | heq⟩, hne⟩
        · exact ⟨hr, hmem⟩
        · exact absurd heq hne
      · rintro ⟨hr, hmem⟩
        exact ⟨⟨hr, Or.inl hmem⟩, fun heq => hopen (heq ▸ hmem)⟩
    · simp only [Book.countSent, Book.modifyState, Bool.and_eq_true, beq_iff_eq,
        List.contains_eq_mem, decide_eq_true_eq, List.mem_append, List.mem_singleton]
      exact ⟨fun ⟨⟨hr, _⟩, hc⟩ => ⟨hr, hc⟩, fun ⟨hr, hc⟩ => ⟨⟨hr, Or.inr hc⟩, hc⟩⟩
  refine ⟨h.claims, ?_, ?_, fun hmem => ?_, fun {r m} hm => ?_, fun {r m} hm => ?_⟩
  · exact List.nodup_append.mpr ⟨h.finished, List.nodup_singleton _, fun a ha b hb heq =>
      hopen ((List.mem_singleton.mp hb) ▸ heq ▸ ha)⟩
  · intro tid hmem
    rcases List.mem_append.mp hmem with hmem | hmem
    · exact h.known tid hmem
    · rw [List.mem_singleton.mp hmem]
      exact List.mem_map_of_mem hclaim
  · simpa [Book.countSent, Book.modifyState] using h.target hmem
  · have hr := hsplit r
    rcases getElem?_modify_some hm with ⟨rfl, m₀, hm₀, rfl⟩ | ⟨hne, hm₀⟩
    · have hold := h.sending hm₀
      simp only [if_true] at hr
      dsimp only
      omega
    · have hold := h.sending hm₀
      rw [if_neg (Ne.symm hne)] at hr
      omega
  · have hr := hmove r
    rcases getElem?_modify_some hm with ⟨rfl, m₀, hm₀, rfl⟩ | ⟨hne, hm₀⟩
    · have hold := h.sent hm₀
      simp only [if_true] at hr
      dsimp only
      omega
    · have hold := h.sent hm₀
      rw [if_neg (Ne.symm hne)] at hr
      omega

theorem SendInv.releaseSend (h : SendInv b) : SendInv (b.releaseSend ref) := by
  unfold Book.releaseSend
  split
  · exact h
  · split
    · exact h.of_eq rfl rfl rfl
    · exact h

theorem SendInv.finishSendMeta (h : SendInv b) {claim : Nat} (hclaim : (claim, ref) ∈ b.claims)
    (hopen : claim ∉ b.finished) : SendInv (b.finishSendMeta claim ref) :=
  (h.countSent hclaim hopen).releaseSend

/-! ### Sessions and their claims -/

/-- What a session is, with respect to its claim. -/
structure SessionWf (b : Book) (ref : Nat) (x : ProducerSession) : Prop where
  claimed : (x.opener, x.sendState) ∈ b.claims
  /-- It is filed as long as its claim is not finished. -/
  filed : b.registered ref = true ↔ x.opener ∉ b.finished
  active : x.state = .active → b.registered ref = true
  complete : x.state = .complete → b.registered ref = false ∧ x.totalChunks ≤ x.completedChunks
  counted : x.completedChunks = x.encoded.length

/-- The sessions of a helper whose peers open one session each. -/
structure SessInv (b : Book) : Prop where
  filed : b.FiledWf
  opener : ∀ {i j : Nat} {x y : ProducerSession}, b.sessions[i]? = some x →
    b.sessions[j]? = some y → x.opener = y.opener → i = j
  key : ∀ {i j : Nat} {x y : ProducerSession}, b.sessions[i]? = some x →
    b.sessions[j]? = some y → x.key = y.key → i = j
  session : ∀ {i : Nat} {x : ProducerSession}, b.sessions[i]? = some x → b.SessionWf i x

theorem registered_iff {x : ProducerSession} (hx : b.sessions[ref]? = some x) :
    b.registered ref = true ↔ b.producerSessions x.key = some ref := by
  simp [registered, hx]

/-- Changes outside the sessions, short of finishing a claim of one of them. -/
theorem SessInv.of_eq (h : SessInv b) (hsessions : b'.sessions = b.sessions)
    (hfiled : b'.producerSessions = b.producerSessions) (hclaims : b.claims ⊆ b'.claims)
    (hfinished : ∀ {i : Nat} {x : ProducerSession}, b.sessions[i]? = some x →
      (x.opener ∈ b'.finished ↔ x.opener ∈ b.finished)) : SessInv b' := by
  have hreg (i : Nat) : b'.registered i = b.registered i := by
    rw [registered, registered, hsessions, hfiled]
  refine ⟨fun hf => ?_, by rw [hsessions]; exact h.opener, by rw [hsessions]; exact h.key,
    fun {i x} hx => ?_⟩
  · rw [hsessions]
    exact h.filed (hfiled ▸ hf)
  · rw [hsessions] at hx
    have hold := h.session hx
    refine ⟨hclaims hold.claimed, ?_, ?_, ?_, hold.counted⟩
    · rw [hreg, hold.filed, hfinished hx]
    · rw [hreg]; exact hold.active
    · rw [hreg]; exact hold.complete

/-- A session makes progress without leaving `_producer_sessions`. -/
theorem SessInv.modifySession (h : SessInv b) {f : ProducerSession → ProducerSession}
    (hsame : ∀ x, SameSession x (f x))
    (hcomplete : ∀ x, b.sessions[ref]? = some x → (f x).state = .complete →
      x.state = .complete ∧ x.completedChunks ≤ (f x).completedChunks)
    (hcounted : ∀ x, x.completedChunks = x.encoded.length →
      (f x).completedChunks = (f x).encoded.length) : SessInv (b.modifySession ref f) := by
  have hev := @modifySession_evolves 0 b ref f hsame
  have hreg (i : Nat) : (b.modifySession ref f).registered i = b.registered i := by
    unfold registered
    cases hx : (b.modifySession ref f).sessions[i]? with
    | none =>
        rw [List.getElem?_eq_none_iff, hev.length] at hx
        rw [List.getElem?_eq_none_iff.mpr hx]
    | some y =>
        obtain ⟨x, hx', hxy⟩ := hev.sessions hx
        simp [hx', hxy.key, Book.modifySession]
  refine ⟨hev.filedWf h.filed, ?_, ?_, fun {i y} hy => ?_⟩
  · intro i j x y hx hy heq
    obtain ⟨x₀, hx₀, hxx⟩ := hev.sessions hx
    obtain ⟨y₀, hy₀, hyy⟩ := hev.sessions hy
    exact h.opener hx₀ hy₀ (hxx.opener.symm.trans (heq.trans hyy.opener))
  · intro i j x y hx hy heq
    obtain ⟨x₀, hx₀, hxx⟩ := hev.sessions hx
    obtain ⟨y₀, hy₀, hyy⟩ := hev.sessions hy
    exact h.key hx₀ hy₀ (hxx.key.symm.trans (heq.trans hyy.key))
  · obtain ⟨x, hx, hsame'⟩ := hev.sessions hy
    have hold := h.session hx
    refine ⟨?_, ?_, fun hactive => ?_, fun hdone => ?_, ?_⟩
    · rw [hsame'.opener, hsame'.sendState]; exact hold.claimed
    · rw [hreg, hold.filed, hsame'.opener]; rfl
    · rw [hreg]
      exact hold.active (hsame'.inactive hactive)
    · rw [hreg]
      rcases getElem?_modify_some hy with ⟨rfl, x', hx', rfl⟩ | ⟨-, hx'⟩
      · obtain rfl := Option.some.inj (hx.symm.trans hx')
        obtain ⟨hstate, hle⟩ := hcomplete x hx hdone
        obtain ⟨hno, htotal⟩ := hold.complete hstate
        exact ⟨hno, by rw [hsame'.totalChunks]; exact htotal.trans hle⟩
      · obtain rfl := Option.some.inj (hx.symm.trans hx')
        exact hold.complete hdone
    · rcases getElem?_modify_some hy with ⟨rfl, x', hx', rfl⟩ | ⟨-, hx'⟩
      · obtain rfl := Option.some.inj (hx.symm.trans hx')
        exact hcounted x hold.counted
      · obtain rfl := Option.some.inj (hx.symm.trans hx')
        exact hold.counted

/-- A filed session is taken out for good and its claim finished. -/
theorem SessInv.retire (h : SessInv b) {x : ProducerSession} {state : SessionState}
    (hx : b.sessions[ref]? = some x) (hreg : b.registered ref = true) (hstate : state ≠ .active)
    (hcomplete : state = .complete → x.totalChunks ≤ x.completedChunks)
    (hsessions : b'.sessions = (b.setSessionState ref state).sessions)
    (hfiled : b'.producerSessions = Function.update b.producerSessions x.key none)
    (hclaims : b'.claims = b.claims) (hfinished : b'.finished = b.finished ++ [x.opener]) :
    SessInv b' := by
  have hev : Evolves 0 b (b.setSessionState ref state) := setSessionState_evolves b ref hstate
  have hget {i : Nat} {y : ProducerSession} (hy : b'.sessions[i]? = some y) :
      (i = ref ∧ y = { x with state }) ∨ (i ≠ ref ∧ b.sessions[i]? = some y) := by
    rw [hsessions] at hy
    rcases getElem?_modify_some hy with ⟨rfl, x', hx', rfl⟩ | ⟨hne, hy'⟩
    · obtain rfl := Option.some.inj (hx.symm.trans hx')
      exact Or.inl ⟨rfl, rfl⟩
    · exact Or.inr ⟨Ne.symm hne, hy'⟩
  have hself : b'.registered ref = false := by
    unfold registered
    rw [hsessions, setSessionState, Book.modifySession, getElem?_modify_self hx]
    simp [hfiled, ProducerSession.key]
  have hother {i : Nat} {y : ProducerSession} (hi : i ≠ ref) (hy : b.sessions[i]? = some y) :
      b'.registered i = b.registered i := by
    have hkey : y.key ≠ x.key := fun heq => hi (h.key hy hx heq)
    have hy' : b'.sessions[i]? = some y := by
      rw [hsessions]
      exact (getElem?_modify_ne (Ne.symm hi) _).trans hy
    rw [registered, registered, hy, hy', hfiled]
    simp [Function.update_of_ne hkey]
  have hlive := (h.session hx).filed.mp hreg
  refine ⟨?_, ?_, ?_, fun {i y} hy => ?_⟩
  · intro key i hf
    rw [hfiled] at hf
    have hkey : key ≠ x.key := by
      rintro rfl
      simp at hf
    obtain ⟨y, hy, hyk⟩ := h.filed (by simpa [Function.update_of_ne hkey] using hf)
    obtain ⟨z, hz, hsame⟩ := hev.sessions_of_some hy
    exact ⟨z, hsessions ▸ hz, hsame.key.trans hyk⟩
  · intro i j y z hy hz heq
    rw [hsessions] at hy hz
    obtain ⟨y₀, hy₀, hyy⟩ := hev.sessions hy
    obtain ⟨z₀, hz₀, hzz⟩ := hev.sessions hz
    exact h.opener hy₀ hz₀ (hyy.opener.symm.trans (heq.trans hzz.opener))
  · intro i j y z hy hz heq
    rw [hsessions] at hy hz
    obtain ⟨y₀, hy₀, hyy⟩ := hev.sessions hy
    obtain ⟨z₀, hz₀, hzz⟩ := hev.sessions hz
    exact h.key hy₀ hz₀ (hyy.key.symm.trans (heq.trans hzz.key))
  · rcases hget hy with ⟨rfl, rfl⟩ | ⟨hi, hold⟩
    · have hwf := h.session hx
      refine ⟨hclaims ▸ hwf.claimed, ?_, fun hact => absurd hact hstate, fun hdone => ?_, hwf.counted⟩
      · rw [hself, hfinished]
        simp
      · exact ⟨hself, hcomplete hdone⟩
    · have hwf := h.session hold
      refine ⟨hclaims ▸ hwf.claimed, ?_, ?_, ?_, hwf.counted⟩
      · rw [hother hi hold, hfinished, hwf.filed, List.mem_append, List.mem_singleton]
        have hne : y.opener ≠ x.opener := fun heq => hi (h.opener hold hx heq)
        simp [hne]
      · rw [hother hi hold]; exact hwf.active
      · rw [hother hi hold]; exact hwf.complete

/-- A new session takes over the claim of its open handler. -/
theorem SessInv.addSession (h : SessInv b) {x : ProducerSession}
    (hclaim : (x.opener, x.sendState) ∈ b.claims) (hopen : x.opener ∉ b.finished)
    (hopener : ∀ {i : Nat} {y : ProducerSession}, b.sessions[i]? = some y → y.opener ≠ x.opener)
    (hkey : ∀ {i : Nat} {y : ProducerSession}, b.sessions[i]? = some y → y.key ≠ x.key)
    (hstate : x.state = .active) (hcounted : x.completedChunks = x.encoded.length) :
    SessInv (b.addSession x) := by
  have hlength : (b.addSession x).sessions[b.sessions.length]? = some x := by
    simp [Book.addSession]
  have hold {i : Nat} {y : ProducerSession} (hy : b.sessions[i]? = some y) :
      (b.addSession x).registered i = b.registered i := by
    have hy' : (b.addSession x).sessions[i]? = some y := getElem?_append_of_some hy x
    rw [registered, registered, hy, hy']
    simp [Book.addSession, Function.update_of_ne (hkey hy)]
  have hnew : (b.addSession x).registered b.sessions.length = true := by
    rw [registered_iff hlength]
    simp [Book.addSession]
  refine ⟨addSession_filedWf h.filed x, ?_, ?_, fun {i y} hy => ?_⟩
  · intro i j y z hy hz heq
    rcases getElem?_append_some hy with hy₀ | ⟨hi, rfl⟩
    · rcases getElem?_append_some hz with hz₀ | ⟨-, rfl⟩
      · exact h.opener hy₀ hz₀ heq
      · exact absurd heq (hopener hy₀)
    · rcases getElem?_append_some hz with hz₀ | ⟨hj, -⟩
      · exact absurd heq.symm (hopener hz₀)
      · rw [hi, hj]
  · intro i j y z hy hz heq
    rcases getElem?_append_some hy with hy₀ | ⟨hi, rfl⟩
    · rcases getElem?_append_some hz with hz₀ | ⟨-, rfl⟩
      · exact h.key hy₀ hz₀ heq
      · exact absurd heq (hkey hy₀)
    · rcases getElem?_append_some hz with hz₀ | ⟨hj, -⟩
      · exact absurd heq.symm (hkey hz₀)
      · rw [hi, hj]
  · rcases getElem?_append_some hy with hy | ⟨rfl, rfl⟩
    · have hwf := h.session hy
      refine ⟨hwf.claimed, ?_, ?_, ?_, hwf.counted⟩
      · rw [hold hy]; exact hwf.filed
      · rw [hold hy]; exact hwf.active
      · rw [hold hy]; exact hwf.complete
    · refine ⟨hclaim, ⟨fun _ => hopen, fun _ => hnew⟩, fun _ => hnew, fun hdone => ?_, hcounted⟩
      rw [hstate] at hdone
      cases hdone

/-- What `_finish_send_meta` leaves alone. -/
theorem finishSendMeta_fields (b : Book) (claim ref : Nat) :
    (b.finishSendMeta claim ref).sessions = b.sessions ∧
      (b.finishSendMeta claim ref).producerSessions = b.producerSessions ∧
      (b.finishSendMeta claim ref).claims = b.claims ∧
      (b.finishSendMeta claim ref).finished = b.finished ++ [claim] := by
  unfold finishSendMeta releaseSend
  split
  · exact ⟨rfl, rfl, rfl, rfl⟩
  · split <;> exact ⟨rfl, rfl, rfl, rfl⟩

theorem dropPlaceholder_fields (b : Book) (transferId : TransferId) (ref : Nat) (isNew : Bool) :
    (b.dropPlaceholder transferId ref isNew).claims = b.claims ∧
      (b.dropPlaceholder transferId ref isNew).finished = b.finished := by
  unfold dropPlaceholder
  split
  · split <;> exact ⟨rfl, rfl⟩
  · exact ⟨rfl, rfl⟩

/-- A failed open makes no claim, and finishes the one it made before. -/
theorem openFailed_fields (b : Book) (tid : Nat) (transferId : TransferId) (ref : Nat)
    (isNew claimed : Bool) :
    (b.openFailed tid transferId ref isNew claimed).claims = b.claims ∧
      (claimed = true → tid ∈ (b.openFailed tid transferId ref isNew claimed).finished) := by
  unfold openFailed
  obtain ⟨h₁, h₂⟩ := dropPlaceholder_fields (if claimed then b.finishSendMeta tid ref else b)
    transferId ref isNew
  obtain ⟨-, -, h₃, h₄⟩ := finishSendMeta_fields b tid ref
  rw [h₁, h₂]
  cases claimed
  · exact ⟨rfl, fun h => by cases h⟩
  · refine ⟨h₃, fun _ => ?_⟩
    rw [if_pos rfl, h₄]
    exact List.mem_append_right _ (List.mem_singleton_self _)

/-! ### The ledger -/

/-- The accounting of a helper is in order. -/
structure Ledger (b : Book) : Prop where
  send : SendInv b
  sess : SessInv b

namespace Ledger

/-- Changes outside the accounting. -/
theorem of_eq (h : Ledger b) (hstates : b'.states = b.states) (hsessions : b'.sessions = b.sessions)
    (hfiled : b'.producerSessions = b.producerSessions) (hclaims : b'.claims = b.claims)
    (hfinished : b'.finished = b.finished) : Ledger b' :=
  ⟨h.send.of_eq hclaims hfinished hstates,
    h.sess.of_eq hsessions hfiled (by rw [hclaims]; exact List.Subset.refl _)
      fun _ => by rw [hfinished]⟩

/-- A session makes progress without completing. -/
theorem modifySession (h : Ledger b) {f : ProducerSession → ProducerSession}
    (hsame : ∀ x, SameSession x (f x))
    (hcomplete : ∀ x, (f x).state = .complete →
      x.state = .complete ∧ x.completedChunks ≤ (f x).completedChunks)
    (hcounted : ∀ x, x.completedChunks = x.encoded.length →
      (f x).completedChunks = (f x).encoded.length) : Ledger (b.modifySession ref f) :=
  ⟨h.send.of_eq rfl rfl rfl, h.sess.modifySession hsame (fun x _ => hcomplete x) hcounted⟩

theorem setDead (h : Ledger b) {state : SessionState} (hdead : state.dead = true) :
    Ledger (b.setSessionState ref state) := by
  refine h.modifySession (fun x => ⟨rfl, fun hact => ?_⟩) (fun x hdone => ?_) fun _ => id
  · rw [show state = .active from hact] at hdead; cases hdead
  · rw [show state = .complete from hdone] at hdead; cases hdead

theorem addInflight (h : Ledger b) (n : Int) : Ledger (b.addInflight ref n) :=
  h.modifySession (fun _ => ⟨rfl, id⟩) (fun _ hdone => ⟨hdone, le_rfl⟩) fun _ => id

theorem countChunk (h : Ledger b) (chunkId : Nat) : Ledger (b.countChunk ref chunkId) :=
  h.modifySession (fun _ => ⟨rfl, id⟩) (fun _ hdone => ⟨hdone, Nat.le_succ _⟩)
    fun _ hcounted => by simp [hcounted]

/-- The key of a session that is not filed is free. -/
theorem key_free (h : Ledger b) {x : ProducerSession} (hx : b.sessions[ref]? = some x)
    (hreg : ¬ b.producerSessions x.key = some ref) : b.popSession x.key = b := by
  have hnone : b.producerSessions x.key = none := by
    cases hf : b.producerSessions x.key with
    | none => rfl
    | some i =>
        obtain ⟨y, hy, hkey⟩ := h.sess.filed hf
        obtain rfl : i = ref := h.sess.key hy hx hkey
        exact absurd hf hreg
  have hupdate : Function.update b.producerSessions x.key none = b.producerSessions := by
    rw [← hnone]
    exact Function.update_eq_self ..
  rw [popSession, hupdate]

/-- A session is taken out with its claim. -/
theorem retire (h : Ledger b) {x : ProducerSession} {state : SessionState}
    (hx : b.sessions[ref]? = some x) (hreg : b.producerSessions x.key = some ref)
    (hstate : state ≠ .active) (hcomplete : state = .complete → x.totalChunks ≤ x.completedChunks)
    (hstates : b'.states = b.states) (hsessions : b'.sessions = (b.setSessionState ref state).sessions)
    (hfiled : b'.producerSessions = Function.update b.producerSessions x.key none)
    (hclaims : b'.claims = b.claims) (hfinished : b'.finished = b.finished) :
    Ledger (b'.finishSendMeta x.opener x.sendState) := by
  have hreg' := (registered_iff hx).mpr hreg
  have hwf := h.sess.session hx
  obtain ⟨h₁, h₂, h₃, h₄⟩ := finishSendMeta_fields b' x.opener x.sendState
  refine ⟨(h.send.of_eq hclaims hfinished hstates).finishSendMeta (hclaims ▸ hwf.claimed) ?_, ?_⟩
  · rw [hfinished]
    exact hwf.filed.mp hreg'
  · exact h.sess.retire hx hreg' hstate hcomplete (h₁.trans hsessions) (h₂.trans hfiled)
      (h₃.trans hclaims) (h₄.trans (by rw [hfinished]))

theorem completeProducerSession (h : Ledger b)
    (hdone : ∀ x, b.sessions[ref]? = some x → x.totalChunks ≤ x.completedChunks) :
    Ledger (b.completeProducerSession now ref) := by
  unfold Book.completeProducerSession
  split
  · exact h
  · rename_i x hx
    split
    · rename_i hreg
      refine h.retire hx hreg (show SessionState.complete ≠ .active by decide) (fun _ => hdone x hx) ?_ ?_ ?_ ?_ ?_
        <;> rfl
    · rename_i hreg
      rw [h.key_free hx hreg]
      exact h

theorem discardProducerSession (h : Ledger b)
    (hdead : ∀ x, b.sessions[ref]? = some x → x.state.dead = true) :
    Ledger (b.discardProducerSession ref) := by
  unfold Book.discardProducerSession
  split
  · exact h
  · rename_i x hx
    split
    · rename_i hreg
      rw [if_pos (hdead x hx)]
      refine @retire _ _ _ h _ x.state hx hreg ?_ ?_ rfl ?_ rfl rfl rfl
      · intro hact
        have := hdead x hx
        rw [hact] at this
        cases this
      · intro hdone
        have := hdead x hx
        rw [hdone] at this
        cases this
      · -- The state of the session stays what it is.
        refine List.ext_getElem? fun i => ?_
        by_cases hi : ref = i
        · subst hi
          rw [setSessionState, Book.modifySession, getElem?_modify_self hx]
          exact hx
        · exact (getElem?_modify_ne hi _).symm
    · rename_i hreg
      rw [h.key_free hx hreg]
      exact h

theorem discardIfIdle (h : Ledger b) : Ledger (b.discardIfIdle ref) := by
  unfold Book.discardIfIdle
  split
  · rename_i x hx
    split
    · rename_i hidle
      refine h.discardProducerSession fun y hy => ?_
      obtain rfl := Option.some.inj (hx.symm.trans hy)
      exact hidle.2
    · exact h
  · exact h

theorem completeIfDone (h : Ledger b) : Ledger (b.completeIfDone now ref) := by
  unfold Book.completeIfDone
  split
  · rename_i x hx
    split
    · rename_i hdone
      refine h.completeProducerSession fun y hy => ?_
      obtain rfl := Option.some.inj (hx.symm.trans hy)
      exact hdone.2.ge
    · exact h
  · exact h

theorem chunkEncoded (h : Ledger b) (chunkId : Nat) : Ledger (b.chunkEncoded now ref chunkId) :=
  (h.countChunk chunkId).completeIfDone

theorem cancelSession (h : Ledger b) : Ledger (b.cancelSession ref) :=
  (h.setDead rfl).discardIfIdle

theorem cancelMatching (h : Ledger b) (key : OperationKey) : Ledger (Book.cancelMatching key b ref) := by
  unfold Book.cancelMatching
  split
  · split
    · exact h.cancelSession
    · exact h
  · exact h

theorem cancelAll (h : Ledger b) (key : OperationKey) : Ledger (b.cancelAll key) :=
  foldl_keeps (P := Ledger) (fun _ _ h => h.cancelMatching key) _ h

theorem addState (h : Ledger b) {m : SendState} (hsending : m.sending = 0) (hsent : m.sent = 0) :
    Ledger (b.addState m) :=
  ⟨h.send.addState hsending hsent, h.sess.of_eq rfl rfl (List.Subset.refl _) fun _ => Iff.rfl⟩

theorem modifyState (h : Ledger b) {f : SendState → SendState}
    (hsending : ∀ m, (f m).sending = m.sending) (hsent : ∀ m, (f m).sent = m.sent) :
    Ledger (b.modifyState ref f) :=
  ⟨h.send.modifyState hsending hsent, h.sess.of_eq rfl rfl (List.Subset.refl _) fun _ => Iff.rfl⟩

theorem claim (h : Ledger b) {targets : Nat} (htid : tid ∉ b.claims.map (·.1))
    (href : ref < b.states.length) : Ledger (b.claim tid ref targets) :=
  ⟨h.send.claim htid href,
    h.sess.of_eq rfl rfl (List.subset_append_left _ _) fun _ => Iff.rfl⟩

/-- A new session takes over the claim of its open handler. -/
theorem addSession (h : Ledger b) {x : ProducerSession}
    (hclaim : (x.opener, x.sendState) ∈ b.claims) (hopen : x.opener ∉ b.finished)
    (hopener : ∀ {i : Nat} {y : ProducerSession}, b.sessions[i]? = some y → y.opener ≠ x.opener)
    (hkey : ∀ {i : Nat} {y : ProducerSession}, b.sessions[i]? = some y → y.key ≠ x.key)
    (hstate : x.state = .active) (hcounted : x.completedChunks = x.encoded.length) :
    Ledger (b.addSession x) :=
  ⟨h.send.of_eq rfl rfl rfl, h.sess.addSession hclaim hopen hopener hkey hstate hcounted⟩

theorem dropPlaceholder (h : Ledger b) {transferId : TransferId} {isNew : Bool} :
    Ledger (b.dropPlaceholder transferId ref isNew) := by
  unfold Book.dropPlaceholder
  split
  · split
    · exact h.of_eq rfl rfl rfl rfl rfl
    · exact h
  · exact h

/-- An open fails after its claim; no session has taken the claim over. -/
theorem openFailed (h : Ledger b) {transferId : TransferId} {isNew claimed : Bool}
    (hclaim : claimed = true → (tid, ref) ∈ b.claims ∧ tid ∉ b.finished ∧
      ∀ {i : Nat} {x : ProducerSession}, b.sessions[i]? = some x → x.opener ≠ tid) :
    Ledger (b.openFailed tid transferId ref isNew claimed) := by
  cases claimed with
  | false => exact h.dropPlaceholder
  | true =>
      obtain ⟨hmem, hopen, hno⟩ := hclaim rfl
      refine dropPlaceholder ⟨h.send.finishSendMeta hmem hopen, ?_⟩
      obtain ⟨h₁, h₂, h₃, h₄⟩ := finishSendMeta_fields b tid ref
      refine h.sess.of_eq h₁ h₂ (by rw [h₃]; exact List.Subset.refl _) fun hx => ?_
      rw [h₄, List.mem_append, List.mem_singleton]
      simp [hno hx]

theorem sweepState (h : Ledger b) : Ledger (Book.sweepState now b ref) := by
  unfold Book.sweepState
  split
  · exact h
  · split
    · exact h.of_eq rfl rfl rfl rfl rfl
    · exact h

theorem sweepSends (h : Ledger b) : Ledger (b.sweepSends now) :=
  foldl_keeps (P := Ledger) (fun _ _ h => h.sweepState) _ h

theorem applyProducerMetadata (h : Ledger b) (message : ProducerMetadata) :
    Ledger (b.applyProducerMetadata now message) := by
  refine applyProducerMetadata_keeps (P := Ledger) (fun b a h => ?_) (fun b a h => ?_)
    (fun b _ h => h.of_eq rfl rfl rfl rfl rfl) message h
  · have hbook : Ledger { b with announcements := b.announcements ++ [a] } :=
      h.of_eq rfl rfl rfl rfl rfl
    unfold applyAnnouncement
    dsimp only
    split
    · exact hbook.modifyState (fun _ => rfl) fun _ => rfl
    · exact hbook.addState rfl rfl
  · unfold applyPublish
    split
    · exact h.modifyState (fun m => by split <;> rfl) fun m => by split <;> rfl
    · exact h.addState rfl rfl

end Ledger

/-! ### What a step adds -/

/-- A step on behalf of the handler `owner`, if any: it makes claims only for the
handler, finishes its claim or that of a session, and counts no chunk. -/
structure Accounts (owner : Option Nat) (b b' : Book) : Prop where
  length : b'.sessions.length = b.sessions.length
  sessions : ∀ {i : Nat} {x : ProducerSession}, b.sessions[i]? = some x →
    ∃ y, b'.sessions[i]? = some y ∧ SameSession x y ∧ y.encoded = x.encoded
  claims : b.claims ⊆ b'.claims
  claimed : ∀ claim ∈ b'.claims, claim ∈ b.claims ∨ owner = some claim.1
  finished : b.finished ⊆ b'.finished
  ended : ∀ claim ∈ b'.finished, claim ∈ b.finished ∨ owner = some claim ∨
    ∃ (i : Nat) (x : ProducerSession), b.sessions[i]? = some x ∧ x.opener = claim

namespace Accounts

variable {owner : Option Nat} {b'' : Book}

theorem of_eq (hsessions : b'.sessions = b.sessions) (hclaims : b'.claims = b.claims)
    (hfinished : b'.finished = b.finished) : Accounts owner b b' where
  length := by rw [hsessions]
  sessions hx := ⟨_, hsessions ▸ hx, .refl _, rfl⟩
  claims := by rw [hclaims]; exact List.Subset.refl _
  claimed _ hmem := Or.inl (hclaims ▸ hmem)
  finished := by rw [hfinished]; exact List.Subset.refl _
  ended _ hmem := Or.inl (hfinished ▸ hmem)

theorem refl (b : Book) : Accounts owner b b := .of_eq rfl rfl rfl

/-- A step on behalf of nobody. -/
theorem weaken (h : Accounts none b b') : Accounts owner b b' where
  length := h.length
  sessions := h.sessions
  claims := h.claims
  claimed claim hmem := (h.claimed claim hmem).imp_right fun hown => by cases hown
  finished := h.finished
  ended claim hmem := (h.ended claim hmem).imp_right fun hend => by
    rcases hend with hown | hses
    · cases hown
    · exact Or.inr hses

/-- Sessions of the later book are those of the earlier one. -/
theorem session (h : Accounts owner b b') {i : Nat} {y : ProducerSession}
    (hy : b'.sessions[i]? = some y) :
    ∃ x, b.sessions[i]? = some x ∧ SameSession x y ∧ y.encoded = x.encoded := by
  have hlt : i < b.sessions.length := h.length ▸ (List.getElem?_eq_some_iff.mp hy).1
  have hx := List.getElem?_eq_getElem hlt
  obtain ⟨y', hy', hsame, hencoded⟩ := h.sessions hx
  obtain rfl := Option.some.inj (hy.symm.trans hy')
  exact ⟨_, hx, hsame, hencoded⟩

theorem trans {c : Book} (h₁ : Accounts owner b c) (h₂ : Accounts owner c b') :
    Accounts owner b b' where
  length := h₂.length.trans h₁.length
  sessions hx := by
    obtain ⟨y, hy, hxy, henc⟩ := h₁.sessions hx
    obtain ⟨z, hz, hyz, henc'⟩ := h₂.sessions hy
    exact ⟨z, hz, hxy.trans hyz, henc'.trans henc⟩
  claims := List.Subset.trans h₁.claims h₂.claims
  claimed claim hmem := by
    rcases h₂.claimed claim hmem with hmem | howner
    · exact h₁.claimed claim hmem
    · exact Or.inr howner
  finished := List.Subset.trans h₁.finished h₂.finished
  ended claim hmem := by
    rcases h₂.ended claim hmem with hmem | howner | ⟨i, y, hy, hopener⟩
    · exact h₁.ended claim hmem
    · exact Or.inr (Or.inl howner)
    · obtain ⟨x, hx, hsame, -⟩ := h₁.session hy
      exact Or.inr (Or.inr ⟨i, x, hx, hsame.opener.symm.trans hopener⟩)

theorem modifySession {f : ProducerSession → ProducerSession} (hsame : ∀ x, SameSession x (f x))
    (hencoded : ∀ x, (f x).encoded = x.encoded) : Accounts owner b (b.modifySession ref f) where
  length := by simp [Book.modifySession]
  sessions {i x} hx := by
    by_cases hi : ref = i
    · subst hi
      exact ⟨f x, getElem?_modify_self hx f, hsame x, hencoded x⟩
    · exact ⟨x, (getElem?_modify_ne hi f).trans hx, .refl x, rfl⟩
  claims := List.Subset.refl _
  claimed _ := Or.inl
  finished := List.Subset.refl _
  ended _ := Or.inl

theorem setSessionState {state : SessionState} (hstate : state ≠ .active) :
    Accounts owner b (b.setSessionState ref state) :=
  modifySession (fun _ => ⟨rfl, fun hact => absurd hact hstate⟩) fun _ => rfl

theorem addInflight (n : Int) : Accounts owner b (b.addInflight ref n) :=
  modifySession (fun _ => ⟨rfl, id⟩) fun _ => rfl

/-- `_finish_send_meta`, for the handler's own claim or that of a session. -/
theorem finishSendMeta {claim : Nat} (howned : owner = some claim ∨
    ∃ (i : Nat) (x : ProducerSession), b.sessions[i]? = some x ∧ x.opener = claim) :
    Accounts owner b (b.finishSendMeta claim ref) := by
  obtain ⟨h₁, -, h₃, h₄⟩ := finishSendMeta_fields b claim ref
  refine ⟨by rw [h₁], fun hx => ⟨_, h₁ ▸ hx, .refl _, rfl⟩, by rw [h₃]; exact List.Subset.refl _,
    fun _ hmem => Or.inl (h₃ ▸ hmem), by rw [h₄]; exact List.subset_append_left _ _,
    fun c hmem => ?_⟩
  rw [h₄] at hmem
  rcases List.mem_append.mp hmem with hmem | hmem
  · exact Or.inl hmem
  · rw [List.mem_singleton.mp hmem]
    exact Or.inr howned

theorem claim {targets : Nat} : Accounts (some tid) b (b.claim tid ref targets) where
  length := rfl
  sessions hx := ⟨_, hx, .refl _, rfl⟩
  claims := List.subset_append_left _ _
  claimed c hmem := by
    rcases List.mem_append.mp hmem with hmem | hmem
    · exact Or.inl hmem
    · rw [List.mem_singleton.mp hmem]
      exact Or.inr rfl
  finished := List.Subset.refl _
  ended _ := Or.inl

theorem dropPlaceholder {transferId : TransferId} {isNew : Bool} :
    Accounts owner b (b.dropPlaceholder transferId ref isNew) := by
  unfold Book.dropPlaceholder
  split
  · split
    · exact .of_eq rfl rfl rfl
    · exact .refl b
  · exact .refl b

theorem openFailed {transferId : TransferId} {isNew claimed : Bool} :
    Accounts (some tid) b (b.openFailed tid transferId ref isNew claimed) := by
  cases claimed
  · exact dropPlaceholder
  · exact (finishSendMeta (Or.inl rfl)).trans dropPlaceholder

theorem completeProducerSession : Accounts owner b (b.completeProducerSession now ref) := by
  unfold Book.completeProducerSession
  split
  · exact .refl b
  · rename_i x hx
    split
    · have hpop : Accounts owner b (b.popSession x.key) := .of_eq rfl rfl rfl
      refine (hpop.trans (@setSessionState _ ref _ .complete (by decide))).trans ?_
      refine .trans (c := ((b.popSession x.key).setSessionState ref .complete).close now
        x.operationKey) (.of_eq rfl rfl rfl)
        (finishSendMeta (Or.inr ⟨ref, { x with state := .complete }, ?_, rfl⟩))
      exact getElem?_modify_self hx _
    · exact .of_eq rfl rfl rfl

theorem discardProducerSession (hdead : ∀ x, b.sessions[ref]? = some x → x.state.dead = true) :
    Accounts owner b (b.discardProducerSession ref) := by
  unfold Book.discardProducerSession
  split
  · exact .refl b
  · rename_i x hx
    split
    · rw [if_pos (hdead x hx)]
      exact .trans (c := b.popSession x.key) (.of_eq rfl rfl rfl)
        (finishSendMeta (Or.inr ⟨ref, x, hx, rfl⟩))
    · exact .of_eq rfl rfl rfl

theorem discardIfIdle : Accounts owner b (b.discardIfIdle ref) := by
  unfold Book.discardIfIdle
  split
  · rename_i x hx
    split
    · rename_i hidle
      refine discardProducerSession fun y hy => ?_
      obtain rfl := Option.some.inj (hx.symm.trans hy)
      exact hidle.2
    · exact .refl b
  · exact .refl b

theorem completeIfDone : Accounts owner b (b.completeIfDone now ref) := by
  unfold Book.completeIfDone
  split
  · split
    · exact completeProducerSession
    · exact .refl b
  · exact .refl b

theorem cancelSession : Accounts owner b (b.cancelSession ref) :=
  (setSessionState (by decide)).trans discardIfIdle

theorem cancelMatching (key : OperationKey) : Accounts owner b (Book.cancelMatching key b ref) := by
  unfold Book.cancelMatching
  split
  · split
    · exact cancelSession
    · exact .refl b
  · exact .refl b

theorem cancelAll (key : OperationKey) : Accounts owner b (b.cancelAll key) :=
  foldl_keeps (P := Accounts owner b) (fun _ _ h => h.trans (cancelMatching key)) _ (.refl b)

theorem sweepSends : Accounts owner b (b.sweepSends now) := by
  refine foldl_keeps (P := Accounts owner b) (fun c ref h => h.trans ?_) _ (.refl b)
  unfold sweepState
  split
  · exact .refl c
  · split
    · exact .of_eq rfl rfl rfl
    · exact .refl c

theorem applyProducerMetadata (message : ProducerMetadata) :
    Accounts owner b (b.applyProducerMetadata now message) := by
  refine applyProducerMetadata_keeps (P := Accounts owner b) (fun c a h => h.trans ?_)
    (fun c a h => h.trans ?_) (fun c _ h => h.trans (.of_eq rfl rfl rfl)) message (.refl b)
  · unfold applyAnnouncement
    dsimp only
    split <;> exact .of_eq rfl rfl rfl
  · unfold applyPublish
    split <;> exact .of_eq rfl rfl rfl

end Accounts

end Book

end KVServe.Session

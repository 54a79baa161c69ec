import KVServe.Transport.Receiver

/-!
# KVServe.Transport.ReceiverCredits

**What happens to an admitted payload.** `Filed` holds in every run: wherever a
payload is, it carries the serial number, the request id and the byte count it
was admitted with, and `payload_nbytes` of its buffers is that count.

`CreditInv` is the conservation of credits: the reserved bytes are those of the
payloads on their way from the listener to the connector, and every admission is
either on its way or released once. It needs every exception of the listener to
be the `OutOfMemoryError` of an allocation, and none to strike the completion
thread after a payload is published (`Clean`): the handler at the end of
`_listen_loop` gives no credit back and answers nothing, and the handler of
`_recv_completion_loop` releases a payload that the connector will release again.
-/

namespace KVServe.Transport

variable {D : Type}

/-! ### Payloads on their way -/

/-- The credit a payload holds: its serial number and byte count. -/
def Arrival.credit (a : Arrival D) : Nat × Nat := (a.serial, a.payloadBytes)

/-- The payload the listener has acknowledged. -/
def ListenAt.arrivals : ListenAt D → List (Arrival D)
  | .acked a => [a]
  | _ => []

/-- The payload whose buffers are still to be allocated. -/
def ListenAt.admission : ListenAt D → List (Nat × Nat)
  | .admitted admission => [(admission.serial, admission.payloadBytes)]
  | _ => []

/-- A message that is read and not answered. -/
def ListenAt.owes : ListenAt D → Nat
  | .read _ | .admitted _ | .rejecting _ => 1
  | .idle | .marking _ | .acked _ => 0

/-- The payload the connector is injecting. -/
def LoadAt.arrivals : LoadAt D → List (Arrival D)
  | .injecting _ payload _ => payload.toList
  | _ => []

namespace Receiver

variable {torch : Torch D} {s s' : Receiver D} {a : Action}

/-- The payloads in a dictionary of queues; failure markers hold none. -/
def payloads (l : List (RequestId × Option (Arrival D))) : List (Arrival D) := l.filterMap (·.2)

/-- Every payload that has its buffers and is not released: being received,
published, buffered by the connector or being injected. -/
def arrivals (s : Receiver D) : List (Arrival D) :=
  s.listen.arrivals ++ s.completions ++ payloads s.received ++ payloads s.workerReceivedKv ++
    s.load.arrivals

/-- The credits of the admitted payloads on their way. -/
def live (s : Receiver D) : List (Nat × Nat) :=
  s.listen.admission ++ s.arrivals.map Arrival.credit

/-- A payload carries what it was admitted with, and its buffers have that size. -/
def ArrivalOk (torch : Torch D) (admissions : List (RequestId × Nat)) (a : Arrival D) : Prop :=
  admissions[a.serial]? = some (a.requestId, a.payloadBytes) ∧
    torch.payloadNbytes a.payload = a.payloadBytes

/-- The payloads of a consumer are filed under their own request ids. -/
structure Filed (torch : Torch D) (s : Receiver D) : Prop where
  arrival : ∀ a ∈ s.arrivals, ArrivalOk torch s.admissions a
  recording : ∀ a, s.completing = .recording a → ArrivalOk torch s.admissions a
  admitted : ∀ admission, s.listen = .admitted admission →
    s.admissions[admission.serial]? = some (admission.put.requestId, admission.payloadBytes) ∧
      torch.putNbytes admission.put = some admission.payloadBytes
  keyed : ∀ requestId a, (requestId, some a) ∈ s.received ++ s.workerReceivedKv →
    a.requestId = requestId
  injecting : ∀ request a pending, s.load = .injecting request (some a) pending →
    a.requestId = request.transferId

@[simp] theorem payloads_append (l l' : List (RequestId × Option (Arrival D))) :
    payloads (l ++ l') = payloads l ++ payloads l' := List.filterMap_append

theorem mem_arrivals {a : Arrival D} : a ∈ s.arrivals ↔
    a ∈ s.listen.arrivals ∨ a ∈ s.completions ∨ a ∈ payloads s.received ∨
      a ∈ payloads s.workerReceivedKv ∨ a ∈ s.load.arrivals := by
  simp [arrivals]

theorem ArrivalOk.append {admissions : List (RequestId × Nat)} {a : Arrival D}
    (h : ArrivalOk torch admissions a) (entry : RequestId × Nat) :
    ArrivalOk torch (admissions ++ [entry]) a := by
  refine ⟨?_, h.2⟩
  rw [List.getElem?_append_left (List.getElem?_eq_some_iff.mp h.1).1]
  exact h.1

/-- What a step does to the payloads on their way. -/
inductive Flows (s s' : Receiver D) : Prop
  | moves (hperm : s'.live.Perm s.live) (hadmissions : s'.admissions = s.admissions)
      (hreleases : s'.releases = s.releases)
      (hreserved : s'.budget.reservedBytes = s.budget.reservedBytes)
  | admits {requestId : RequestId} {payloadBytes : Nat}
      (hperm : s'.live.Perm ((s.admissions.length, payloadBytes) :: s.live))
      (hadmissions : s'.admissions = s.admissions ++ [(requestId, payloadBytes)])
      (hreleases : s'.releases = s.releases)
      (hreserved : s'.budget.reservedBytes = s.budget.reservedBytes + payloadBytes)
  | releases {serial payloadBytes : Nat} (hperm : s.live.Perm ((serial, payloadBytes) :: s'.live))
      (hadmissions : s'.admissions = s.admissions)
      (hreleases : s'.releases = s.releases ++ [(serial, payloadBytes)])
      (hreserved : s'.budget.reservedBytes = s.budget.reservedBytes - payloadBytes)

/-- The step raises nothing outside the handlers that give the credit back. -/
def Clean : Action → Prop
  | .raise | .recordRaises => False
  | _ => True

/-- The credits by where the payloads are. -/
theorem count_live (s : Receiver D) (x : Nat × Nat) : s.live.count x =
    s.listen.admission.count x + (s.listen.arrivals.map Arrival.credit).count x +
      (s.completions.map Arrival.credit).count x +
      ((payloads s.received).map Arrival.credit).count x +
      ((payloads s.workerReceivedKv).map Arrival.credit).count x +
      (s.load.arrivals.map Arrival.credit).count x := by
  simp only [live, arrivals, List.map_append, List.count_append]
  omega

/-- What a drained queue holds is buffered by the connector. -/
theorem count_payloads_append (l l' : List (RequestId × Option (Arrival D))) (x : Nat × Nat) :
    ((payloads (l ++ l')).map Arrival.credit).count x =
      ((payloads l).map Arrival.credit).count x + ((payloads l').map Arrival.credit).count x := by
  simp

/-- Taking an entry off a queue takes its payload off. -/
theorem count_takeFirst {key : RequestId} {l rest : List (RequestId × Option (Arrival D))}
    {payload : Option (Arrival D)} (h : takeFirst key l = some (payload, rest)) (x : Nat × Nat) :
    ((payloads l).map Arrival.credit).count x =
      (payload.toList.map Arrival.credit).count x +
        ((payloads rest).map Arrival.credit).count x := by
  have hperm : (payloads l).Perm (payload.toList ++ payloads rest) := by
    have := (takeFirst_perm h).filterMap fun entry : RequestId × Option (Arrival D) => entry.2
    cases payload <;> simpa [payloads] using this
  rw [(hperm.map Arrival.credit).count_eq, List.map_append, List.count_append]

/-- **Every clean step moves, admits or releases payloads.** -/
theorem Steps.flows (h : Steps torch s a s') (hclean : Clean a) (hfiled : Filed torch s) :
    Flows s s' := by
  -- A step that only moves payloads is checked credit by credit.
  have hmoves {t : Receiver D} (hcount : ∀ x, t.live.count x = s.live.count x)
      (hadmissions : t.admissions = s.admissions) (hreleases : t.releases = s.releases)
      (hreserved : t.budget.reservedBytes = s.budget.reservedBytes) : Flows s t :=
    .moves (List.perm_iff_count.mpr hcount) hadmissions hreleases hreserved
  cases h with
  | init hlisten => exact hmoves (fun x => rfl) rfl rfl rfl
  | reads hlisten =>
      refine hmoves (fun x => ?_) rfl rfl rfl
      simp only [count_live, hlisten, ListenAt.arrivals, ListenAt.admission]
  | early hlisten =>
      refine hmoves (fun x => ?_) rfl rfl rfl
      simp only [count_live, hlisten, ListenAt.arrivals, ListenAt.admission]
  | retries hlisten =>
      refine hmoves (fun x => ?_) rfl rfl rfl
      simp only [count_live, hlisten, reply, ListenAt.arrivals, ListenAt.admission]
  | admits hlisten hbytes hbudget =>
      refine .admits (List.perm_iff_count.mpr fun x => ?_) rfl rfl
        (Budget.reserveReceived_cases hbudget).1
      simp only [count_live, List.count_cons, hlisten, ListenAt.arrivals, ListenAt.admission,
        List.count_nil]
      omega
  | allocates hlisten hpayload =>
      refine hmoves (fun x => ?_) rfl rfl rfl
      simp only [count_live, hlisten, reply, ListenAt.arrivals, ListenAt.admission, List.map_cons,
        List.map_nil, Arrival.credit, arrival, List.count_nil]
      omega
  | outOfMemory hlisten =>
      refine .releases (List.perm_iff_count.mpr fun x => ?_) rfl rfl
        (Budget.releaseReceived_reserved _ _ _)
      simp only [count_live, List.count_cons, hlisten, release, ListenAt.arrivals,
        ListenAt.admission, List.count_nil]
      omega
  | rejects hlisten =>
      refine hmoves (fun x => ?_) rfl rfl rfl
      simp only [count_live, hlisten, reply, ListenAt.arrivals, ListenAt.admission]
  | marks hlisten =>
      refine hmoves (fun x => ?_) rfl rfl rfl
      simp only [count_live, hlisten, markFailed, ListenAt.arrivals, ListenAt.admission,
        count_payloads_append]
      rfl
  | receives hlisten =>
      refine hmoves (fun x => ?_) rfl rfl rfl
      simp only [count_live, hlisten, ListenAt.arrivals, ListenAt.admission, List.map_append,
        List.count_append, List.map_nil, List.count_nil]
      omega
  | raises => exact absurd hclean id
  | @publishes a rest hcompletions =>
      refine hmoves (fun x => ?_) rfl rfl rfl
      have hone : ((payloads [(a.requestId, some a)]).map Arrival.credit).count x =
          [a.credit].count x := rfl
      simp only [count_live, hcompletions, count_payloads_append, hone, List.map_cons,
        List.count_cons, List.count_nil]
      omega
  | records => exact hmoves (fun x => rfl) rfl rfl rfl
  | recordRaises => exact absurd hclean id
  | @receiveRaises a rest hcompletions =>
      refine .releases (List.perm_iff_count.mpr fun x => ?_) rfl rfl
        (Budget.releaseReceived_reserved _ _ _)
      simp only [count_live, List.count_cons, hcompletions, release, List.map_cons, Arrival.credit]
      omega
  | marksReceive =>
      refine hmoves (fun x => ?_) rfl rfl rfl
      simp only [count_live, markFailed, count_payloads_append]
      rfl
  | begins hload =>
      refine hmoves (fun x => ?_) rfl rfl rfl
      simp only [count_live, hload, drain, count_payloads_append, LoadAt.arrivals]
      simp only [payloads, List.filterMap_nil, List.map_nil, List.count_nil]
      omega
  | expects hload =>
      refine hmoves (fun x => ?_) rfl rfl rfl
      simp only [count_live, hload, LoadAt.arrivals]
  | polls =>
      refine hmoves (fun x => ?_) rfl rfl rfl
      simp only [count_live, drain, count_payloads_append]
      simp only [payloads, List.filterMap_nil, List.map_nil, List.count_nil]
      omega
  | @takes pending request payload rest hload hmem htake =>
      refine hmoves (fun x => ?_) rfl rfl rfl
      have htaken := count_takeFirst htake x
      simp only [drain, count_payloads_append] at htaken
      simp only [count_live, hload, drain, LoadAt.arrivals]
      simp only [payloads, List.filterMap_nil, List.map_nil, List.count_nil] at htaken ⊢
      omega
  | expires hload =>
      refine hmoves (fun x => ?_) rfl rfl rfl
      simp only [count_live, hload, drain, count_payloads_append, LoadAt.arrivals]
      simp only [payloads, List.filterMap_nil, List.map_nil, List.count_nil]
      omega
  | @injects ok request payload pending hload =>
      have hdone : (if ok && payload.isSome then LoadAt.loading pending else .idle :
          LoadAt D).arrivals = [] := by split <;> rfl
      cases payload with
      | none =>
          refine hmoves (fun x => ?_) rfl rfl rfl
          simp only [count_live, hload, releasePayload, hdone]
          rfl
      | some a =>
          have hsize := (hfiled.arrival a (mem_arrivals.mpr (by simp [hload, LoadAt.arrivals]))).2
          refine @Flows.releases _ _ _ a.serial a.payloadBytes
            (List.perm_iff_count.mpr fun x => ?_) rfl (by simp [releasePayload, release, hsize])
            (by simp [releasePayload, release, hsize])
          have hheld : (LoadAt.injecting request (some a) pending).arrivals = [a] := rfl
          simp only [count_live, List.count_cons, hload, releasePayload, release, hdone, hheld,
            List.map_cons, List.map_nil, List.count_nil, Arrival.credit]
          omega
  | ends hload =>
      refine hmoves (fun x => ?_) rfl rfl rfl
      simp only [count_live, hload, LoadAt.arrivals]

/-! ### Payloads keep what they were admitted with -/

/-- A payload on its way was on its way before, or has just got its buffers. -/
theorem Steps.arrivals (h : Steps torch s a s') {x : Arrival D} (hx : x ∈ s'.arrivals) :
    x ∈ s.arrivals ∨ ∃ admission payload, s.listen = .admitted admission ∧
      torch.allocate admission.put = some payload ∧ x = arrival admission payload := by
  rw [mem_arrivals] at hx
  cases h with
  | @allocates admission payload hlisten hpayload =>
      rcases hx with hx | hx
      · exact Or.inr ⟨admission, payload, hlisten, hpayload, List.mem_singleton.mp hx⟩
      · exact Or.inl (mem_arrivals.mpr (Or.inr hx))
  | @takes pending request payload rest hload hmem htake =>
      refine Or.inl (mem_arrivals.mpr ?_)
      have hperm := takeFirst_perm htake
      have hin (hx : x ∈ payloads ((request.transferId, payload) :: rest)) :
          x ∈ payloads s.workerReceivedKv ∨ x ∈ payloads s.received := by
        have := (hperm.filterMap (·.2)).symm.subset hx
        simpa [drain, payloads] using this
      have hcons : payloads ((request.transferId, payload) :: rest) =
          payload.toList ++ payloads rest := by cases payload <;> rfl
      rw [hcons] at hin
      simp only [drain, LoadAt.arrivals, payloads, List.filterMap_nil, List.not_mem_nil,
        false_or] at hx
      rcases hx with hx | hx | hx | hx
      · exact Or.inl hx
      · exact Or.inr (Or.inl hx)
      · rcases hin (List.mem_append_right _ hx) with hx | hx
        · exact Or.inr (Or.inr (Or.inr (Or.inl hx)))
        · exact Or.inr (Or.inr (Or.inl hx))
      · rcases hin (List.mem_append_left _ hx) with hx | hx
        · exact Or.inr (Or.inr (Or.inr (Or.inl hx)))
        · exact Or.inr (Or.inr (Or.inl hx))
  | @injects ok request payload pending hload =>
      refine Or.inl (mem_arrivals.mpr ?_)
      have hsame : (s.releasePayload torch request.transferId payload).listen = s.listen ∧
          (s.releasePayload torch request.transferId payload).completions = s.completions ∧
          (s.releasePayload torch request.transferId payload).received = s.received ∧
          (s.releasePayload torch request.transferId payload).workerReceivedKv =
            s.workerReceivedKv := by
        cases payload <;> exact ⟨rfl, rfl, rfl, rfl⟩
      have hdone : (if ok && payload.isSome then LoadAt.loading pending else .idle :
          LoadAt D).arrivals = [] := by split <;> rfl
      simp only [hsame, hdone, List.not_mem_nil, or_false] at hx
      grind
  | _ =>
      refine Or.inl (mem_arrivals.mpr ?_)
      simp_all [drain, reply, release, markFailed, ListenAt.arrivals, LoadAt.arrivals, payloads]
      try grind

theorem Steps.admissions (h : Steps torch s a s') :
    s'.admissions = s.admissions ∨ ∃ entry, s'.admissions = s.admissions ++ [entry] := by
  cases h with
  | admits => exact Or.inr ⟨_, rfl⟩
  | @injects ok request payload => cases payload <;> exact Or.inl rfl
  | _ => exact Or.inl rfl

theorem ArrivalOk.step (h : Steps torch s a s') {x : Arrival D}
    (hx : ArrivalOk torch s.admissions x) : ArrivalOk torch s'.admissions x := by
  rcases h.admissions with heq | ⟨entry, heq⟩ <;> rw [heq]
  · exact hx
  · exact hx.append entry

/-- An entry of a queue was there before, is a failure marker or was just published. -/
theorem Steps.queued (h : Steps torch s a s') {requestId : RequestId} {x : Arrival D}
    (hx : (requestId, some x) ∈ s'.received ++ s'.workerReceivedKv) :
    (requestId, some x) ∈ s.received ++ s.workerReceivedKv ∨ requestId = x.requestId := by
  cases h with
  | takes hload hmem htake =>
      refine Or.inl ?_
      have := (takeFirst_subset htake).2 (by simpa [drain] using hx)
      simpa [drain, or_comm] using this
  | @injects ok request payload => cases payload <;> exact Or.inl hx
  | _ =>
      simp [drain, reply, release, markFailed] at hx ⊢
      try grind

theorem Filed.step (h : Filed torch s) (hsteps : Steps torch s a s') : Filed torch s' where
  arrival x hx := by
    rcases hsteps.arrivals hx with hold | ⟨admission, payload, hlisten, hpayload, rfl⟩
    · exact (h.arrival x hold).step hsteps
    · obtain ⟨hentry, hbytes⟩ := h.admitted admission hlisten
      refine ArrivalOk.step hsteps ⟨hentry, ?_⟩
      exact Option.some.inj ((Torch.putNbytes_allocate hpayload).symm.trans hbytes)
  recording x hx := by
    have hold : x ∈ s.arrivals ∨ s.completing = .recording x := by
      cases hsteps with
      | @publishes y rest hcompletions =>
          obtain rfl := CompletionAt.recording.inj hx
          exact Or.inl (mem_arrivals.mpr (Or.inr (Or.inl (by rw [hcompletions]; simp))))
      | @injects ok request payload => cases payload <;> exact Or.inr hx
      | records => cases hx
      | recordRaises => cases hx
      | receiveRaises => cases hx
      | marksReceive => cases hx
      | _ => exact Or.inr hx
    rcases hold with hold | hold
    · exact (h.arrival x hold).step hsteps
    · exact (h.recording x hold).step hsteps
  admitted admission hlisten := by
    cases hsteps with
    | admits hread hbytes =>
        obtain rfl := ListenAt.admitted.inj hlisten
        exact ⟨List.getElem?_concat_length, hbytes⟩
    | @injects ok request payload => cases payload <;> exact h.admitted admission hlisten
    | init => exact h.admitted admission hlisten
    | publishes => exact h.admitted admission hlisten
    | records => exact h.admitted admission hlisten
    | recordRaises => exact h.admitted admission hlisten
    | receiveRaises => exact h.admitted admission hlisten
    | marksReceive => exact h.admitted admission hlisten
    | begins => exact h.admitted admission hlisten
    | expects => exact h.admitted admission hlisten
    | polls => exact h.admitted admission hlisten
    | takes => exact h.admitted admission hlisten
    | expires => exact h.admitted admission hlisten
    | ends => exact h.admitted admission hlisten
    | _ => cases hlisten
  keyed requestId x hx := by
    rcases hsteps.queued hx with hold | heq
    · exact h.keyed requestId x hold
    · exact heq.symm
  injecting request x pending hload := by
    cases hsteps with
    | takes _ _ htake =>
        obtain ⟨rfl, rfl, -⟩ := LoadAt.injecting.inj hload
        refine h.keyed _ x ?_
        simpa [drain, or_comm] using (takeFirst_subset htake).1
    | @injects ok request payload =>
        dsimp only at hload
        split at hload <;> cases hload
    | begins => cases hload
    | expects => cases hload
    | expires => cases hload
    | ends => cases hload
    | _ => exact h.injecting request x pending hload

/-! ### Conservation -/

/-- **The receiver credits are conserved.** -/
structure Conserved (torch : Torch D) (s : Receiver D) : Prop where
  /-- The reserved bytes are those of the payloads on their way. -/
  reserved : s.budget.reservedBytes = (s.live.map (·.2)).sum
  /-- A payload has the size it was reserved with. -/
  sizes : ∀ x ∈ s.arrivals, torch.payloadNbytes x.payload = x.payloadBytes
  /-- Every admission is on its way or released, once. -/
  once : (s.live.map (·.1) ++ s.releases.map (·.1)).Perm (List.range s.admissions.length)
  /-- It is released with the bytes it was reserved with. -/
  bytes : ∀ credit ∈ s.live ++ s.releases, ∃ requestId,
    s.admissions[credit.1]? = some (requestId, credit.2)
  /-- Every message is answered once. -/
  replies : s.puts = s.replies.length + s.listen.owes

theorem Conserved.flows (h : Conserved torch s) (hflows : Flows s s')
    (hsizes : ∀ x ∈ s'.arrivals, torch.payloadNbytes x.payload = x.payloadBytes)
    (hreplies : s'.puts = s'.replies.length + s'.listen.owes) : Conserved torch s' := by
  cases hflows with
  | moves hperm hadmissions hreleases hreserved =>
      refine ⟨?_, hsizes, ?_, fun credit hmem => ?_, hreplies⟩
      · rw [hreserved, h.reserved, (hperm.map _).sum_eq]
      · rw [hadmissions, hreleases]
        exact (List.Perm.append_right _ (hperm.map _)).trans h.once
      · rw [hreleases] at hmem
        rw [hadmissions]
        exact h.bytes credit ((List.Perm.append_right _ hperm).subset hmem)
  | @admits requestId payloadBytes hperm hadmissions hreleases hreserved =>
      refine ⟨?_, hsizes, ?_, fun credit hmem => ?_, hreplies⟩
      · rw [hreserved, h.reserved, (hperm.map _).sum_eq, List.map_cons, List.sum_cons, Nat.add_comm]
      · rw [hadmissions, hreleases, List.length_append, List.length_singleton, List.range_succ]
        refine (List.Perm.append_right _ (hperm.map _)).trans ?_
        rw [List.map_cons, List.cons_append]
        exact (h.once.cons _).trans (List.perm_append_singleton _ _).symm
      · rw [hreleases] at hmem
        rw [hadmissions]
        have hmem := (List.Perm.append_right _ hperm).subset hmem
        rcases List.mem_cons.mp hmem with rfl | hmem
        · exact ⟨requestId, List.getElem?_concat_length⟩
        · obtain ⟨rid, hrid⟩ := h.bytes credit hmem
          refine ⟨rid, ?_⟩
          rw [List.getElem?_append_left (List.getElem?_eq_some_iff.mp hrid).1]
          exact hrid
  | @releases serial payloadBytes hperm hadmissions hreleases hreserved =>
      have hmove : (s'.live ++ s'.releases).Perm (s.live ++ s.releases) := by
        rw [hreleases, ← List.append_assoc]
        refine (List.perm_append_singleton _ _).trans ?_
        rw [← List.cons_append]
        exact List.Perm.append_right _ hperm.symm
      refine ⟨?_, hsizes, ?_, fun credit hmem => ?_, hreplies⟩
      · rw [hreserved, h.reserved, (hperm.map _).sum_eq, List.map_cons, List.sum_cons,
          Nat.add_sub_cancel_left]
      · rw [hadmissions, ← List.map_append]
        refine (hmove.map _).trans ?_
        rw [List.map_append]
        exact h.once
      · rw [hadmissions]
        exact h.bytes credit (hmove.subset hmem)

/-- A clean step answers a message at most once, when it stops owing the answer. -/
theorem Steps.replies (h : Steps torch s a s') (hclean : Clean a) :
    s'.puts + s.replies.length + s.listen.owes =
      s.puts + s'.replies.length + s'.listen.owes := by
  cases h with
  | raises => exact absurd hclean id
  | recordRaises => exact absurd hclean id
  | @injects ok request payload => cases payload <;> rfl
  | init => rfl
  | publishes => rfl
  | records => rfl
  | receiveRaises => rfl
  | marksReceive => rfl
  | begins => rfl
  | expects => rfl
  | polls => rfl
  | takes => rfl
  | expires => rfl
  | ends => rfl
  | _ =>
      simp_all [reply, release, markFailed, ListenAt.owes]
      try omega

/-- **One clean step keeps the credits.** -/
theorem Conserved.step (h : Conserved torch s) (hfiled : Filed torch s) (hclean : Clean a)
    (hsteps : Steps torch s a s') : Conserved torch s' := by
  refine h.flows (hsteps.flows hclean hfiled) (fun x hx => ?_) ?_
  · exact ((hfiled.step hsteps).arrival x hx).2
  · have hstep := hsteps.replies hclean
    have hold := h.replies
    omega

theorem reachable_filed {recvBufferSize : Int} {ok : Receiver D → Action → Prop}
    (h : (receiverMachine torch recvBufferSize).ReachWith ok s) : Filed torch s := by
  refine Machine.invariant ?_ ?_ h
  · rintro s rfl
    refine ⟨fun x hx => ?_, fun x hx => ?_, fun x hx => ?_, fun _ x hx => ?_, fun _ x _ hx => ?_⟩ <;>
      cases hx
  · intro s a s' _ hs _ hstep
    exact hs.step (step_cases hstep)

end Receiver

/-- **Receiver credits are conserved** in every run in which the listener raises
nothing but the `OutOfMemoryError` of an allocation and the completion thread
nothing after it has published a payload. -/
theorem receiver_credits_conserved {D : Type} {torch : Torch D} {recvBufferSize : Int}
    {s : Receiver D}
    (h : (receiverMachine torch recvBufferSize).ReachWith (fun _ a => Receiver.Clean a) s) :
    s.Conserved torch := by
  refine Machine.invariant (I := fun s => s.Conserved torch) ?_ ?_ h
  · rintro s rfl
    exact ⟨rfl, fun x hx => (by cases hx), List.Perm.refl _, fun x hx => (by cases hx), rfl⟩
  · intro s a s' hreach hs hclean hstep
    exact hs.step (Receiver.reachable_filed hreach) hclean (Receiver.step_cases hstep)

/-! ### Runs -/

namespace Receiver

instance : DecidablePred Clean
  | .raise => isFalse id
  | .recordRaises => isFalse id
  | .init | .message _ | .reserve | .allocate | .allocateOom | .rejectOom | .markRejected
  | .receive | .publish | .recorded | .receiveRaises | .markReceive | .beginLoad _
  | .setExpected | .poll | .expire | .inject _ | .endLoad => isTrue trivial

/-- A payload is accepted. -/
def acceptOne (dtype : String) : List Action :=
  [.init, .message (.tensor "r" ["layer"] { shape := [4], dtype }), .reserve, .allocate]

/-- It is received, published and injected. -/
def injectOne : List Action :=
  [.receive, .publish, .recorded, .beginLoad [⟨"q", "r"⟩], .setExpected, .poll, .inject true,
   .endLoad]

end Receiver

open Receiver in
/-- A payload that goes all the way is released once, with its eight bytes. -/
theorem receiver_credits_conserved_injected :
    ∃ s : Receiver SampleDType, (receiverMachine .sample 100).exec (fun _ a => decide (Clean a))
        { budget := .ofSize 100 } (acceptOne "float16" ++ injectOne) = some s ∧
      s.budget.reservedBytes = 0 ∧ s.releases = [(0, 8)] ∧ s.Conserved .sample := by
  obtain ⟨s, hrun⟩ := Option.isSome_iff_exists.mp (show ((receiverMachine .sample 100).exec
    (fun _ a => decide (Clean a)) { budget := .ofSize 100 }
    (acceptOne "float16" ++ injectOne)).isSome by decide)
  have hs : some s = _ := hrun.symm
  refine ⟨s, hrun, ?_, ?_, receiver_credits_conserved
    ((Machine.reachWith_of_exec rfl hrun).mono fun _ _ h => of_decide_eq_true h)⟩
  · exact congrArg (fun t : Option _ => (t.map (·.budget.reservedBytes)).getD 0) hs
  · exact congrArg (fun t : Option _ => (t.map (·.releases)).getD []) hs

open Receiver in
/-- A dtype NCCL does not know: `from_torch` raises after the acknowledgement, and the
reserved bytes are never given back. -/
theorem receiver_credits_leak :
    ¬ ∀ (D : Type) (torch : Torch D) (recvBufferSize : Int) (s : Receiver D),
      (receiverMachine torch recvBufferSize).Reachable s → s.Conserved torch := by
  intro hall
  let s := ((receiverMachine .sample 100).exec (fun _ _ => true) { budget := .ofSize 100 }
    (acceptOne "bool" ++ [.raise])).get (by decide)
  have hreach : (receiverMachine .sample 100).Reachable s :=
    (Machine.reachWith_of_exec (p := fun _ _ => true) rfl (Option.some_get _).symm).mono
      fun _ _ _ => trivial
  have hreserved : s.budget.reservedBytes = 4 := by decide
  have hlive : s.live = [] := by decide
  have h := (hall _ _ _ s hreach).reserved
  rw [hreserved, hlive] at h
  exact absurd h (by decide)

end KVServe.Transport

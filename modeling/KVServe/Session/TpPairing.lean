import KVServe.Session.ProducerRelease

/-!
# KVServe.Session.TpPairing

**TP ranks pair with each other.** Both sides evaluate `handshake_target_ranks` with their
arguments swapped: they name the same pairs, each once and in range, and the consumer TP ranks
that open a session with a producer worker are as many as its `need_send`.
-/

namespace KVServe.Session

/-! ### Target ranks -/

section Targets

variable {a b tp tp' : Nat}

/-- The targets of a rank are ranks, each of them once. -/
theorem handshakeTargetRanks_spec (htp : 0 < tp) (htp' : 0 < tp') (hdvd : tp ∣ tp' ∨ tp' ∣ tp)
    (ha : a < tp) : ∃ ranks, handshakeTargetRanks a tp tp' = .ok ranks ∧ ranks.Nodup ∧
      ∀ b ∈ ranks, b < tp' := by
  unfold handshakeTargetRanks
  by_cases hle : tp' ≤ tp
  · rw [if_pos hle, if_neg (by omega)]
    refine ⟨_, rfl, List.nodup_singleton _, fun b hb => ?_⟩
    obtain rfl := List.mem_singleton.mp hb
    have hdvd : tp' ∣ tp := by
      rcases hdvd with hdvd | hdvd
      · rw [Nat.le_antisymm hle (Nat.le_of_dvd htp' hdvd)]
      · exact hdvd
    rw [Nat.div_lt_iff_lt_mul (Nat.div_pos hle htp'), Nat.mul_div_cancel' hdvd]
    exact ha
  · rw [if_neg hle, if_neg (by omega)]
    refine ⟨_, rfl, List.Nodup.map (fun i j h => Nat.add_left_cancel h) List.nodup_range,
      fun b hb => ?_⟩
    obtain ⟨index, hindex, rfl⟩ := List.mem_map.mp hb
    have hindex := List.mem_range.mp hindex
    have hdvd : tp ∣ tp' := by
      rcases hdvd with hdvd | hdvd
      · exact hdvd
      · exact absurd (Nat.le_of_dvd htp hdvd) hle
    calc a * (tp' / tp) + index < (a + 1) * (tp' / tp) := by rw [Nat.succ_mul]; omega
      _ ≤ tp * (tp' / tp) := Nat.mul_le_mul_right _ ha
      _ = tp' := Nat.mul_div_cancel' hdvd

end Targets

namespace Topology

variable {T : Topology} {addr : Worker → String} {base : InitMessage} {p q d : Nat}

theorem targets_spec (T : Topology) (hp : p < T.producerTp) :
    ∃ ranks, handshakeTargetRanks p T.producerTp T.consumerTp = .ok ranks ∧ ranks.Nodup ∧
      ∀ b ∈ ranks, b < T.consumerTp :=
  handshakeTargetRanks_spec T.producerTp_pos T.consumerTp_pos T.divides hp

theorem targets'_spec (T : Topology) (hd : d < T.consumerTp) :
    ∃ ranks, handshakeTargetRanks d T.consumerTp T.producerTp = .ok ranks ∧ ranks.Nodup ∧
      ∀ b ∈ ranks, b < T.producerTp :=
  handshakeTargetRanks_spec T.consumerTp_pos T.producerTp_pos T.divides.symm hd

/-! ### The ranks that open a session -/

/-- The PP rank of a paired TP rank that opens a session with any producer worker: the same one
where both sides have as many, or all of them. -/
def ppRankFor (T : Topology) (q : Nat) : Nat := if T.consumerPp = T.producerPp then q else 0

/-- The addresses of one producer TP rank that a consumer worker opens. -/
def openedAddrs (init : InitMessage) (ppToAddr : List (Nat × String)) : List String :=
  match ppToAddr.lookup init.ppRank with
  | some addr =>
      if init.ppSize = ppToAddr.length then [addr]
      else (ppToAddr.insertionSort (·.1 ≤ ·.1)).map (·.2)
  | none => (ppToAddr.insertionSort (·.1 ≤ ·.1)).map (·.2)

theorem handshakeWorkerAddrs_eq {init : InitMessage} {agents : Agents} {ranks : List Nat}
    {table : Nat → List (Nat × String)}
    (hranks : handshakeTargetRanks init.tpRank init.tpSize agents.length = .ok ranks)
    (htable : ∀ rank ∈ ranks, agents.lookup rank = some (table rank)) :
    handshakeWorkerAddrs init agents =
      .ok (ranks.map fun rank => openedAddrs init (table rank)).flatten := by
  unfold handshakeWorkerAddrs
  refine bind_eq_ok.mpr ⟨_, hranks, bind_eq_ok.mpr ⟨_, mapM_eq_ok_map fun rank hrank => ?_, rfl⟩⟩
  simp only [htable rank hrank, openedAddrs]
  cases (table rank).lookup init.ppRank with
  | none => rfl
  | some addr =>
      show (if init.ppSize = (table rank).length then Except.ok [addr] else .ok _) = .ok (ite _ _ _)
      split <;> rfl

/-- A paired TP rank opens a session. -/
theorem opens_of_mem {ranks : List Nat} (hd : d < T.consumerTp) (hq : q < T.producerPp)
    (hranks : handshakeTargetRanks d T.consumerTp T.producerTp = .ok ranks) (hp : p ∈ ranks) :
    T.Opens addr base (d, T.ppRankFor q) p q := by
  have hpp : T.ppRankFor q < T.consumerPp := by
    unfold ppRankFor
    split
    · next hsame => rwa [hsame]
    · exact T.consumerPp_pos
  let table := fun tpRank => (List.range T.producerPp).map fun ppRank => (ppRank, addr (tpRank, ppRank))
  obtain ⟨ranks', hranks', -, hlt⟩ := T.targets'_spec hd
  obtain rfl := Except.ok.inj (hranks'.symm.trans hranks)
  have htable : ∀ rank ∈ ranks', (T.agents addr).lookup rank = some (table rank) := by
    intro rank hrank
    rw [agents, lookup_range_map, if_pos (hlt rank hrank)]
  have hsize : (T.agents addr).length = T.producerTp := by
    rw [agents, List.length_map, List.length_range]
  have haddrs := @handshakeWorkerAddrs_eq (T.consumerInit base (d, T.ppRankFor q)) _ _ _
    (by rw [hsize]; exact hranks) htable
  have hall : addr (p, q) ∈ ((table p).insertionSort (·.1 ≤ ·.1)).map (·.2) :=
    List.mem_map.mpr ⟨(q, addr (p, q)), (List.mem_insertionSort _).mpr
      (List.mem_map.mpr ⟨q, List.mem_range.mpr hq, rfl⟩), rfl⟩
  have hopened : addr (p, q) ∈
      openedAddrs (T.consumerInit base (d, T.ppRankFor q)) (table p) := by
    have hsize : (table p).length = T.producerPp := by rw [List.length_map, List.length_range]
    unfold openedAddrs
    rw [hsize, lookup_range_map]
    show addr (p, q) ∈ match if T.ppRankFor q < T.producerPp then
        some (addr (p, T.ppRankFor q)) else none with
      | some a => if T.consumerPp = T.producerPp then [a] else _
      | none => _
    by_cases hsame : T.consumerPp = T.producerPp
    · rw [show T.ppRankFor q = q from if_pos hsame, if_pos hq]
      simp [hsame]
    · split
      · rwa [if_neg hsame]
      · exact hall
  refine ⟨hd, hpp, ?_⟩
  rw [haddrs]
  exact List.mem_flatten.mpr ⟨_, List.mem_map_of_mem hp, hopened⟩

/-- A consumer TP rank with a worker that opens a session is paired. -/
theorem mem_of_opens {ranks : List Nat} {pp : Nat} (haddr : Function.Injective addr)
    (hranks : handshakeTargetRanks d T.consumerTp T.producerTp = .ok ranks)
    (hopens : T.Opens addr base (d, pp) p q) : p ∈ ranks := by
  obtain ⟨hd, -, hopens⟩ := hopens
  have hsize : (T.agents addr).length = T.producerTp := by
    rw [agents, List.length_map, List.length_range]
  obtain ⟨ranks', hranks', -, hlt⟩ := T.targets'_spec hd
  obtain rfl := Except.ok.inj (hranks'.symm.trans hranks)
  have htable : ∀ rank ∈ ranks', (T.agents addr).lookup rank = some
      ((List.range T.producerPp).map fun ppRank => (ppRank, addr (rank, ppRank))) := by
    intro rank hrank
    rw [agents, lookup_range_map, if_pos (hlt rank hrank)]
  rw [@handshakeWorkerAddrs_eq (T.consumerInit base (d, pp)) _ _ _
    (by rw [hsize]; exact hranks) htable] at hopens
  obtain ⟨list, hlist, hmem⟩ := List.mem_flatten.mp hopens
  obtain ⟨rank, hrank, rfl⟩ := List.mem_map.mp hlist
  suffices hworker : ∃ ppRank, addr (p, q) = addr (rank, ppRank) by
    obtain ⟨ppRank, heq⟩ := hworker
    rwa [(Prod.mk.inj (haddr heq)).1]
  have hsorted : ∀ {x}, x ∈ (((List.range T.producerPp).map fun ppRank =>
      (ppRank, addr (rank, ppRank))).insertionSort (·.1 ≤ ·.1)).map (·.2) →
      ∃ ppRank, x = addr (rank, ppRank) := by
    intro x hx
    obtain ⟨entry, hentry, rfl⟩ := List.mem_map.mp hx
    obtain ⟨ppRank, -, rfl⟩ := List.mem_map.mp ((List.mem_insertionSort _).mp hentry)
    exact ⟨ppRank, rfl⟩
  unfold openedAddrs at hmem
  split at hmem
  · next a ha =>
      split at hmem
      · rw [lookup_range_map] at ha
        split at ha
        · obtain rfl := Option.some.inj ha
          exact ⟨_, List.mem_singleton.mp hmem⟩
        · cases ha
      · exact hsorted hmem
  · exact hsorted hmem

/-- The consumer TP ranks with a worker that opens a session with a producer worker. -/
def openers (T : Topology) (addr : Worker → String) (base : InitMessage) (p q : Nat) : List Nat :=
  (List.range T.consumerTp).filter fun d =>
    (List.range T.consumerPp).any fun pp => T.Opens addr base (d, pp) p q

/-- **TP pairing is symmetric**, and a producer worker waits for as many sessions as there are
consumer ranks that open one. -/
theorem pairing_symmetric (T : Topology) (addr : Worker → String)
    (haddr : Function.Injective addr) (base : InitMessage) (p q : Nat) (hp : p < T.producerTp)
    (hq : q < T.producerPp) :
    ∃ ranks, handshakeTargetRanks p T.producerTp T.consumerTp = .ok ranks ∧ ranks.Nodup ∧
      (∀ d ∈ ranks, d < T.consumerTp) ∧
      (∀ d < T.consumerTp, ∃ ranks', handshakeTargetRanks d T.consumerTp T.producerTp =
        .ok ranks' ∧ ranks'.Nodup ∧ (∀ p' ∈ ranks', p' < T.producerTp) ∧
          (d ∈ ranks ↔ p ∈ ranks')) ∧
      (T.openers addr base p q).length = T.needSend (p, q) := by
  obtain ⟨ranks, hranks, hnodup, hlt⟩ := T.targets_spec hp
  have hpairs : ∀ d < T.consumerTp, ∃ ranks', handshakeTargetRanks d T.consumerTp T.producerTp =
      .ok ranks' ∧ ranks'.Nodup ∧ (∀ p' ∈ ranks', p' < T.producerTp) ∧
        (d ∈ ranks ↔ p ∈ ranks') := by
    intro d hd
    obtain ⟨ranks', hranks', hnodup', hlt'⟩ := T.targets'_spec hd
    refine ⟨ranks', hranks', hnodup', hlt', fun hmem => ?_, fun hmem => ?_⟩
    · obtain ⟨r, hr, hpr⟩ :=
        mem_handshakeTargetRanks hranks hmem T.producerTp_pos T.consumerTp_pos
      obtain rfl := Except.ok.inj (hr.symm.trans hranks')
      exact hpr
    · obtain ⟨r, hr, hdr⟩ :=
        mem_handshakeTargetRanks hranks' hmem T.consumerTp_pos T.producerTp_pos
      obtain rfl := Except.ok.inj (hr.symm.trans hranks)
      exact hdr
  have hopeners : ∀ d, d ∈ T.openers addr base p q ↔ d ∈ ranks := by
    intro d
    rw [openers, List.mem_filter, List.mem_range, List.any_eq_true]
    constructor
    · rintro ⟨hd, pp, -, hopens⟩
      obtain ⟨ranks', hranks', -, -, hiff⟩ := hpairs d hd
      exact hiff.mpr (mem_of_opens haddr hranks' (of_decide_eq_true hopens))
    · intro hmem
      have hd := hlt d hmem
      obtain ⟨ranks', hranks', -, -, hiff⟩ := hpairs d hd
      have hopens : T.Opens addr base (d, T.ppRankFor q) p q :=
        opens_of_mem hd hq hranks' (hiff.mp hmem)
      exact ⟨hd, T.ppRankFor q, List.mem_range.mpr hopens.2.1, decide_eq_true hopens⟩
  refine ⟨ranks, hranks, hnodup, hlt, hpairs, ?_⟩
  have hperm : (T.openers addr base p q).Perm ranks :=
    (List.perm_ext_iff_of_nodup (List.nodup_range.filter _) hnodup).mpr hopeners
  rw [hperm.length_eq, needSend, hranks]

theorem fourRanks_pos : 0 < 4 := by decide

/-- Two producer TP ranks and four consumer TP ranks, each with two PP ranks. -/
def twoToFour : Topology where
  producerTp := 2
  producerPp := 2
  consumerTp := 4
  consumerPp := 2
  producerTp_pos := Nat.two_pos
  producerPp_pos := Nat.two_pos
  consumerTp_pos := fourRanks_pos
  consumerPp_pos := Nat.two_pos
  divides := Or.inl (by decide)

/-- The second of the two ranks waits for the last two of the four. -/
theorem pairing_symmetric_twoToFour :
    handshakeTargetRanks 1 2 4 = .ok [2, 3] ∧ handshakeTargetRanks 3 4 2 = .ok [1] ∧
      (twoToFour.openers workerAddr (.solo []) 1 0).length = twoToFour.needSend (1, 0) := by
  obtain ⟨_, -, -, -, -, hlength⟩ := pairing_symmetric twoToFour workerAddr
    workerAddr_injective (.solo []) 1 0 (by decide) (by decide)
  exact ⟨by decide, by decide, hlength⟩

end Topology

end KVServe.Session

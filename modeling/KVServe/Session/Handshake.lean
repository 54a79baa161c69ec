import KVServe.Lib.Blocks
import KVServe.Session.Consumer
import Mathlib.Data.List.Perm.Subperm

/-!
# KVServe.Session.Handshake

**Who opens a session with a producer worker.** Both sides have TP × PP workers;
a consumer worker `(tp, pp)` opens a session with every address that
`_handshake_worker_addrs` yields. A producer helper counts its openers by TP
ranks alone (`need_send`), so the count is right as long as each of these TP
ranks has one PP rank that opens (`Topology.OnePpRank`).
-/

namespace KVServe.Session

/-- The worker grids of the two sides. -/
structure Topology where
  producerTp : Nat
  producerPp : Nat
  consumerTp : Nat
  consumerPp : Nat
  producerTp_pos : 0 < producerTp
  producerPp_pos : 0 < producerPp
  consumerTp_pos : 0 < consumerTp
  consumerPp_pos : 0 < consumerPp
  divides : producerTp ∣ consumerTp ∨ consumerTp ∣ producerTp

/-- A worker, by its TP and PP rank. -/
abbrev Worker := Nat × Nat

namespace Topology

variable {T : Topology} {addr : Worker → String} {base : InitMessage} {w : Worker} {p q : Nat}

/-- The workers the producer has registered at its bootstrap server. -/
def agents (T : Topology) (addr : Worker → String) : Agents :=
  (List.range T.producerTp).map fun tpRank =>
    (tpRank, (List.range T.producerPp).map fun ppRank => (ppRank, addr (tpRank, ppRank)))

/-- The `InitMessage` of a consumer worker. -/
def consumerInit (T : Topology) (base : InitMessage) (w : Worker) : InitMessage :=
  { base with tpRank := w.1, tpSize := T.consumerTp, ppRank := w.2, ppSize := T.consumerPp }

/-- The consumer worker `w` opens a session with the producer worker `(p, q)`. -/
def Opens (T : Topology) (addr : Worker → String) (base : InitMessage) (w : Worker) (p q : Nat) :
    Prop :=
  w.1 < T.consumerTp ∧ w.2 < T.consumerPp ∧
    match handshakeWorkerAddrs (T.consumerInit base w) (T.agents addr) with
    | .ok addrs => addr (p, q) ∈ addrs
    | .error _ => False

instance (T : Topology) (addr : Worker → String) (base : InitMessage) (w : Worker) (p q : Nat) :
    Decidable (T.Opens addr base w p q) := by
  unfold Opens
  split <;> infer_instance

/-- Each consumer TP rank that pairs with a producer worker has one PP rank that does. -/
def OnePpRank (T : Topology) : Prop := T.consumerPp = 1 ∨ T.consumerPp = T.producerPp

instance (T : Topology) : Decidable T.OnePpRank := by
  unfold OnePpRank
  infer_instance

/-! ### Pairing is symmetric -/

/-- The TP ranks pair with each other. -/
theorem mem_handshakeTargetRanks {a b tp tp' : Nat} {ranks : List Nat}
    (hranks : handshakeTargetRanks a tp tp' = .ok ranks) (hb : b ∈ ranks) (htp : 0 < tp)
    (htp' : 0 < tp') : ∃ ranks', handshakeTargetRanks b tp' tp = .ok ranks' ∧ a ∈ ranks' := by
  unfold handshakeTargetRanks at hranks ⊢
  by_cases hle : tp' ≤ tp
  · rw [if_pos hle, if_neg (by omega)] at hranks
    obtain rfl := Except.ok.inj hranks
    obtain rfl := List.mem_singleton.mp hb
    have hratio : 0 < tp / tp' := Nat.div_pos hle htp'
    by_cases heq : tp ≤ tp'
    · obtain rfl : tp = tp' := by omega
      refine ⟨_, by rw [if_pos le_rfl, if_neg (by omega)], ?_⟩
      simp [Nat.div_self htp]
    · refine ⟨_, by rw [if_neg heq, if_neg (by omega)], List.mem_map.mpr ⟨a % (tp / tp'), ?_, ?_⟩⟩
      · exact List.mem_range.mpr (Nat.mod_lt _ hratio)
      · exact Nat.div_add_mod' a (tp / tp')
  · rw [if_neg hle, if_neg (by omega)] at hranks
    obtain rfl := Except.ok.inj hranks
    obtain ⟨index, hindex, rfl⟩ := List.mem_map.mp hb
    have hlt : index < tp' / tp := List.mem_range.mp hindex
    refine ⟨_, by rw [if_pos (by omega), if_neg (by omega)], ?_⟩
    have hdiv : (a * (tp' / tp) + index) / (tp' / tp) = a := by
      rw [Nat.mul_comm, Nat.mul_add_div (by omega), Nat.div_eq_of_lt hlt, Nat.add_zero]
    rw [hdiv]
    exact List.mem_singleton_self a

/-! ### The workers of one producer worker -/

/-- A registry by rank. -/
theorem lookup_range_map {α : Type} (f : Nat → α) (n rank : Nat) :
    ((List.range n).map fun i => (i, f i)).lookup rank = if rank < n then some (f rank) else none := by
  induction n with
  | zero => rfl
  | succ n ih =>
      rw [List.range_succ, List.map_append, List.lookup_append, ih]
      by_cases hlt : rank < n
      · rw [if_pos hlt, if_pos (by omega)]
        rfl
      · rw [if_neg hlt]
        by_cases heq : rank = n
        · subst heq
          simp
        · rw [if_neg (by omega)]
          simp [heq]

/-- **A consumer worker that opens a session** is on a TP rank that pairs with the producer
worker, and its PP rank follows from that of the producer worker. -/
theorem Opens.ranks (h : T.Opens addr base w p q) (haddr : Function.Injective addr)
    (hone : T.OnePpRank) :
    (∃ ranks, handshakeTargetRanks w.1 T.consumerTp T.producerTp = .ok ranks ∧ p ∈ ranks) ∧
      w.2 = if T.consumerPp = 1 then 0 else q := by
  obtain ⟨-, hpp, h⟩ := h
  split at h
  · rename_i addrs haddrs
    unfold handshakeWorkerAddrs at haddrs
    obtain ⟨ranks, hranks, haddrs⟩ := bind_eq_ok.mp haddrs
    obtain ⟨lists, hlists, haddrs⟩ := bind_eq_ok.mp haddrs
    obtain rfl := Except.ok.inj haddrs
    obtain ⟨list, hlist, hmem⟩ := List.mem_flatten.mp h
    obtain ⟨rank, hrank, hstep⟩ := exists_mem_of_forall₂ (mapM_eq_ok.mp hlists).flip hlist
    have hsize : (T.agents addr).length = T.producerTp := by
      rw [agents, List.length_map, List.length_range]
    rw [show (T.consumerInit base w).tpRank = w.1 from rfl,
      show (T.consumerInit base w).tpSize = T.consumerTp from rfl, hsize] at hranks
    simp only [agents, lookup_range_map] at hstep
    split at hstep
    · cases hstep
    · rename_i ppToAddr hfound
      split at hfound
      · obtain rfl := Option.some.inj hfound
        -- the addresses of one TP rank of the producer
        have hlists : ∃ ppRank, (p, q) = (rank, ppRank) ∧
            (T.consumerPp = T.producerPp → ppRank = w.2) := by
          have hall : ∀ {x}, x ∈ (((List.range T.producerPp).map fun ppRank =>
              (ppRank, addr (rank, ppRank))).insertionSort (·.1 ≤ ·.1)).map (·.2) →
              ∃ ppRank < T.producerPp, x = addr (rank, ppRank) := by
            intro x hx
            obtain ⟨entry, hentry, rfl⟩ := List.mem_map.mp hx
            rw [List.mem_insertionSort] at hentry
            obtain ⟨ppRank, hppRank, rfl⟩ := List.mem_map.mp hentry
            exact ⟨ppRank, List.mem_range.mp hppRank, rfl⟩
          simp only [lookup_range_map, List.length_map, List.length_range, consumerInit] at hstep
          split at hstep
          · rename_i found hlookup
            split at hlookup
            · obtain rfl := Option.some.inj hlookup
              split at hstep
              · obtain rfl := Except.ok.inj hstep
                exact ⟨w.2, haddr (List.mem_singleton.mp hmem), fun _ => rfl⟩
              · rename_i hne
                obtain rfl := Except.ok.inj hstep
                obtain ⟨ppRank, -, heq⟩ := hall hmem
                exact ⟨ppRank, haddr heq, fun hsame => absurd hsame hne⟩
            · cases hlookup
          · rename_i hlookup
            split at hlookup
            · cases hlookup
            · rename_i hle
              obtain rfl := Except.ok.inj hstep
              obtain ⟨ppRank, -, heq⟩ := hall hmem
              exact ⟨ppRank, haddr heq, fun hsame => by omega⟩
        obtain ⟨ppRank, heq, hpp⟩ := hlists
        obtain ⟨rfl, rfl⟩ := Prod.mk.inj heq
        refine ⟨⟨ranks, hranks, hrank⟩, ?_⟩
        rcases hone with hsingle | hsame
        · rw [if_pos hsingle]
          omega
        · split
          · omega
          · exact (hpp hsame).symm
      · cases hfound
  · exact h.elim

/-- **At most `need_send` workers open a session** with a producer worker. -/
theorem length_openers_le (haddr : Function.Injective addr) (hone : T.OnePpRank)
    {ranks : List Nat} (hranks : handshakeTargetRanks p T.producerTp T.consumerTp = .ok ranks)
    {workers : List Worker} (hnodup : workers.Nodup)
    (hopens : ∀ w ∈ workers, T.Opens addr base w p q) : workers.length ≤ ranks.length := by
  have hinj : (workers.map (·.1)).Nodup := by
    refine List.Nodup.map_on (fun w hw w' hw' heq => Prod.ext heq ?_) hnodup
    rw [((hopens w hw).ranks haddr hone).2, ((hopens w' hw').ranks haddr hone).2]
  have hsubset : workers.map (·.1) ⊆ ranks := by
    intro tpRank htpRank
    obtain ⟨w, hw, rfl⟩ := List.mem_map.mp htpRank
    obtain ⟨⟨targets, htargets, hp⟩, -⟩ := (hopens w hw).ranks haddr hone
    obtain ⟨ranks', hranks', hmem⟩ :=
      mem_handshakeTargetRanks htargets hp T.consumerTp_pos T.producerTp_pos
    obtain rfl := Except.ok.inj (hranks.symm.trans hranks')
    exact hmem
  have hle := (List.subperm_of_subset hinj hsubset).length_le
  rwa [List.length_map] at hle

end Topology

end KVServe.Session

import KVServe.Lib.FreeList
import KVServe.Lib.Transition
import KVServe.Runtime.Layout
import Mathlib.Data.Prod.Lex
import Mathlib.Order.Lattice

/-!
# KVServe.Runtime.Workspace

`FixedWorkspaceAllocator` hands out ranges of one buffer to nvCOMP, best fit first, and
merges the free ranges on every release. A range of zero bytes is handed out at the start
of a free range; **released inside another range it stays on the free list** and keeps
`release` from joining the ranges around it.
-/

namespace KVServe.Runtime

/-! ### The allocator -/

/-- `FixedWorkspaceAllocator`: the size of the buffer and the free list. A `Span` is a pair
`(offset, length)`. -/
structure FixedWorkspaceAllocator where
  numel : Nat
  free : List Span
  deriving DecidableEq, Repr

namespace FixedWorkspaceAllocator

/-- `__init__`. -/
def init (numel : Nat) : FixedWorkspaceAllocator := ⟨numel, [⟨0, numel⟩]⟩

/-- The tuples `(length, index, offset)` of the free ranges that hold `size` bytes. -/
def candidates (free : List Span) (size : Nat) : List (ℕ ×ₗ ℕ ×ₗ ℕ) :=
  (free.zipIdx.filter fun p => size ≤ p.1.size).map fun p =>
    toLex (p.1.size, toLex (p.2, p.1.start))

/-- The free list after `size` bytes of the range at `index` are taken. -/
def take (free : List Span) (size length index offset : Nat) : List Span :=
  if length > size then free.eraseIdx index ++ [⟨offset + size, length - size⟩]
  else free.eraseIdx index

/-- `__call__`. `none` stands for the error of `min` on an empty list. -/
def call (allocator : FixedWorkspaceAllocator) (nbytes : Nat) :
    Option (Span × FixedWorkspaceAllocator) :=
  let size := roundUp nbytes alignment
  (candidates allocator.free size).min?.map fun chosen =>
    let length := (ofLex chosen).1
    let index := (ofLex (ofLex chosen).2).1
    let offset := (ofLex (ofLex chosen).2).2
    (⟨offset, size⟩, { allocator with free := take allocator.free size length index offset })

/-- `release`. -/
def release (allocator : FixedWorkspaceAllocator) (range : Span) : FixedWorkspaceAllocator :=
  { allocator with free := coalesce ((allocator.free ++ [range]).insertionSort Span.Before) }

variable {allocator after : FixedWorkspaceAllocator} {nbytes : Nat} {range : Span}

/-- A request takes the front of a free range that is long enough. -/
theorem call_some (h : allocator.call nbytes = some (range, after)) :
    ∃ chosen rest, allocator.free.Perm (chosen :: rest) ∧
      roundUp nbytes alignment ≤ chosen.size ∧ range = ⟨chosen.start, roundUp nbytes alignment⟩ ∧
      after.numel = allocator.numel ∧
      after.free = if chosen.size > roundUp nbytes alignment then
        rest ++ [⟨chosen.start + roundUp nbytes alignment,
          chosen.size - roundUp nbytes alignment⟩] else rest := by
  obtain ⟨tuple, hmin, heq⟩ := Option.map_eq_some_iff.mp h
  obtain ⟨⟨chosen, index⟩, hmem, rfl⟩ := List.mem_map.mp (List.min?_mem hmin)
  obtain ⟨hindex, hsize⟩ := List.mem_filter.mp hmem
  have hget : allocator.free[index]? = some chosen := List.mk_mem_zipIdx_iff_getElem?.mp hindex
  cases heq
  refine ⟨chosen, allocator.free.eraseIdx index, ?_, of_decide_eq_true hsize, rfl, rfl, rfl⟩
  obtain ⟨hlt, rfl⟩ := List.getElem?_eq_some_iff.mp hget
  exact (List.getElem_cons_eraseIdx_perm hlt).symm

/-- A request fails when every free range is too short. -/
theorem call_eq_none : allocator.call nbytes = none ↔
    ∀ range ∈ allocator.free, range.size < roundUp nbytes alignment := by
  rw [call, Option.map_eq_none_iff, List.min?_eq_none_iff, candidates, List.map_eq_nil_iff,
    List.filter_eq_nil_iff]
  constructor
  · intro h range hrange
    obtain ⟨index, hindex⟩ := List.getElem?_of_mem hrange
    exact Nat.lt_of_not_le fun hle =>
      h ⟨range, index⟩ (List.mk_mem_zipIdx_iff_getElem?.mpr hindex) (decide_eq_true hle)
  · intro h p hp hle
    exact Nat.not_le.mpr (h p.1 (List.fst_mem_of_mem_zipIdx hp)) (of_decide_eq_true hle)

/-- A release sorts the free ranges with the new one and merges them. -/
theorem release_free (allocator : FixedWorkspaceAllocator) (range : Span) :
    ∃ first rest, (first :: rest).Perm (range :: allocator.free) ∧
      (first :: rest).Pairwise Span.Before ∧
      (allocator.release range).free = mergeFrom first rest := by
  have hperm := List.perm_insertionSort Span.Before (allocator.free ++ [range])
  have hsorted := List.pairwise_insertionSort Span.Before (allocator.free ++ [range])
  obtain ⟨first, rest, heq⟩ := List.exists_cons_of_ne_nil
    (fun hnil => by simpa [hnil] using hperm.length_eq :
      (allocator.free ++ [range]).insertionSort Span.Before ≠ [])
  refine ⟨first, rest, heq ▸ hperm.trans List.perm_append_comm, heq ▸ hsorted, ?_⟩
  rw [release, heq, coalesce_cons]

end FixedWorkspaceAllocator

/-! ### Allocations in use -/

/-- An allocator with the ranges of its live `_PoolAllocation` objects, the oldest first. -/
structure Workspace where
  allocator : FixedWorkspaceAllocator
  live : List Span
  deriving DecidableEq, Repr

/-- What nvCOMP does: ask for bytes, or give the `index`-th live allocation back. -/
inductive WorkspaceOp
  | request (nbytes : Nat)
  | drop (index : Nat)
  deriving DecidableEq, Repr

namespace Workspace

/-- A new allocator, no allocations. -/
def init (numel : Nat) : Workspace := ⟨.init numel, []⟩

/-- A request that raises leaves everything as it was; only live allocations are dropped. -/
def step (w : Workspace) : WorkspaceOp → Option Workspace
  | .request nbytes =>
      match w.allocator.call nbytes with
      | some (range, allocator) => some ⟨allocator, w.live ++ [range]⟩
      | none => some w
  | .drop index =>
      w.live[index]?.map fun range => ⟨w.allocator.release range, w.live.eraseIdx index⟩

/-- The allocator of a buffer of `numel` bytes under any sequence of operations. -/
def machine (numel : Nat) : Machine Workspace WorkspaceOp where
  init w := w = init numel
  step := step

/-- The free ranges and the live allocations. -/
def ranges (w : Workspace) : List Span := w.allocator.free ++ w.live

/-- Live allocations of positive size are disjoint, aligned and inside the buffer. -/
def LiveApart (numel : Nat) (w : Workspace) : Prop :=
  (w.live.Pairwise fun s t => 0 < s.size → 0 < t.size → s.Disjoint t) ∧
    ∀ s ∈ w.live, 0 < s.size → s.Within numel ∧ alignment ∣ s.start

/-- No free range ends where another one starts. -/
def Merged (w : Workspace) : Prop :=
  w.allocator.free.Pairwise fun s t => s.stop ≠ t.start ∧ t.stop ≠ s.start

/-- After `range` is given back, no free range of zero bytes lies inside another one. -/
def Settles (w : Workspace) (range : Span) : Prop :=
  ∀ z ∈ range :: w.allocator.free, z.size = 0 →
    ∀ s ∈ range :: w.allocator.free, ¬ s.Straddles z

instance (w : Workspace) (range : Span) : Decidable (w.Settles range) :=
  inferInstanceAs (Decidable (∀ _ ∈ _, _))

/-- The steps that leave no range of zero bytes inside another free range. -/
def Settled (w : Workspace) : WorkspaceOp → Prop
  | .request _ => True
  | .drop index => ∀ range, w.live[index]? = some range → w.Settles range

instance (w : Workspace) (op : WorkspaceOp) : Decidable (w.Settled op) :=
  match op with
  | .request _ => inferInstanceAs (Decidable True)
  | .drop index => inferInstanceAs (Decidable (∀ range ∈ w.live[index]?, w.Settles range))

variable {w w' : Workspace} {n index nbytes : Nat} {range : Span}

/-! ### Partition of the buffer -/

/-- The buffer is divided into free and live ranges. -/
structure Divided (n : Nat) (w : Workspace) : Prop where
  numel : w.allocator.numel = n
  partition : Partition n alignment w.ranges

theorem init_divided (h : alignment ∣ n) : (init n).Divided n := ⟨rfl, .whole h⟩

theorem request_divided {allocator : FixedWorkspaceAllocator} (h : w.Divided n)
    (hcall : w.allocator.call nbytes = some (range, allocator)) :
    Divided n ⟨allocator, w.live ++ [range]⟩ := by
  obtain ⟨chosen, rest, hperm, hle, rfl, hnumel, hfree⟩ :=
    FixedWorkspaceAllocator.call_some hcall
  refine ⟨hnumel.trans h.numel, ?_⟩
  have hpart : Partition n alignment (chosen :: (rest ++ w.live)) :=
    h.partition.perm (hperm.append_right _)
  rw [ranges, hfree]
  split
  · have hcut := hpart.split (t := ⟨chosen.start, roundUp nbytes alignment⟩)
      (u := ⟨chosen.start + roundUp nbytes alignment,
        chosen.size - roundUp nbytes alignment⟩) rfl rfl
      (by simp only [Span.stop]; omega) dvd_roundUp
    refine hcut.perm ?_
    grind
  · have hwhole : chosen = ⟨chosen.start, roundUp nbytes alignment⟩ := by
      rw [show roundUp nbytes alignment = chosen.size by omega]
    rw [← hwhole]
    refine hpart.perm ?_
    grind

theorem drop_perm (hget : w.live[index]? = some range) :
    w.live.Perm (range :: w.live.eraseIdx index) := by
  obtain ⟨hlt, rfl⟩ := List.getElem?_eq_some_iff.mp hget
  exact (List.getElem_cons_eraseIdx_perm hlt).symm

/-- Giving a range back and merging keeps the partition. -/
theorem drop_divided (h : w.Divided n) (hget : w.live[index]? = some range) :
    Divided n ⟨w.allocator.release range, w.live.eraseIdx index⟩ := by
  refine ⟨h.numel, ?_⟩
  obtain ⟨first, rest, hperm, -, hfree⟩ := w.allocator.release_free range
  rw [ranges, hfree]
  refine Partition.merge (h.partition.perm ?_)
  have hlive := drop_perm hget
  rw [ranges]
  grind

/-- What a step does to the buffer. -/
theorem step_cases {op : WorkspaceOp} (h : w.step op = some w') :
    (∃ nbytes, op = .request nbytes ∧ w.allocator.call nbytes = none ∧ w' = w) ∨
    (∃ nbytes range allocator, op = .request nbytes ∧
      w.allocator.call nbytes = some (range, allocator) ∧ w' = ⟨allocator, w.live ++ [range]⟩) ∨
    (∃ index range, op = .drop index ∧ w.live[index]? = some range ∧
      w' = ⟨w.allocator.release range, w.live.eraseIdx index⟩) := by
  cases op with
  | request nbytes =>
      rw [step] at h
      cases hcall : w.allocator.call nbytes with
      | none =>
          rw [hcall] at h
          exact .inl ⟨nbytes, rfl, hcall, (Option.some.inj h).symm⟩
      | some result =>
          rw [hcall] at h
          exact .inr (.inl ⟨nbytes, result.1, result.2, rfl, hcall, (Option.some.inj h).symm⟩)
  | drop index =>
      obtain ⟨range, hget, rfl⟩ := Option.map_eq_some_iff.mp h
      exact .inr (.inr ⟨index, range, rfl, hget, rfl⟩)

theorem step_divided {op : WorkspaceOp} (h : w.Divided n) (hstep : w.step op = some w') :
    w'.Divided n := by
  obtain ⟨_, -, -, rfl⟩ | ⟨_, _, _, -, hcall, rfl⟩ | ⟨_, _, -, hget, rfl⟩ := step_cases hstep
  · exact h
  · exact request_divided h hcall
  · exact drop_divided h hget

/-- **Every run divides the buffer.** -/
theorem reachWith_divided {ok : Workspace → WorkspaceOp → Prop} (hn : alignment ∣ n)
    (h : (machine n).ReachWith ok w) : w.Divided n := by
  refine Machine.invariant (I := Divided n) ?_ (fun _ _ _ _ hw _ => step_divided hw) h
  rintro _ rfl
  exact init_divided hn

theorem Divided.liveApart (h : w.Divided n) : w.LiveApart n := by
  constructor
  · exact (List.pairwise_append.mp h.partition.tile.pairwise).2.1
  · intro s hs _
    have hmem : s ∈ w.ranges := List.mem_append_right _ hs
    exact ⟨h.partition.within s hmem, (h.partition.aligned s hmem).1⟩

/-! ### Merging on release -/

/-- The free ranges and the range given back, none of which starts inside another one. -/
theorem Divided.pairwise_disjoint (h : w.Divided n) (hget : w.live[index]? = some range)
    (hsettles : w.Settles range) : (range :: w.allocator.free).Pairwise Span.Disjoint := by
  have htile : Tile n ((range :: w.allocator.free) ++ w.live.eraseIdx index) := by
    refine h.partition.tile.perm ?_
    have hlive := drop_perm hget
    rw [ranges]
    grind
  have hpos := (List.pairwise_append.mp htile.pairwise).1
  refine hpos.imp_of_mem fun {s t} hs ht hdisj => ?_
  rcases Nat.eq_zero_or_pos s.size with hzero | hspos
  · have := hsettles s hs hzero t ht
    simp only [Span.Straddles, Span.Disjoint, Span.stop] at *
    omega
  · rcases Nat.eq_zero_or_pos t.size with hzero | htpos
    · have := hsettles t ht hzero s hs
      simp only [Span.Straddles, Span.Disjoint, Span.stop] at *
      omega
    · exact hdisj hspos htpos

/-- **A settled release leaves gaps between the free ranges.** -/
theorem drop_apart (h : w.Divided n) (hget : w.live[index]? = some range)
    (hsettles : w.Settles range) :
    (w.allocator.release range).free.Pairwise fun s t => s.stop < t.start := by
  obtain ⟨first, rest, hperm, hsorted, hfree⟩ := w.allocator.release_free range
  rw [hfree]
  refine mergeFrom_apart ?_
  have hdisj : (first :: rest).Pairwise Span.Disjoint :=
    (h.pairwise_disjoint hget hsettles).perm hperm.symm Span.Disjoint.symm
  exact (hdisj.and hsorted).imp fun hst => hst.1.stop_le hst.2

/-- If nothing is live after a release, the free list is the whole buffer exactly when the
release settles. -/
theorem drop_last (h : w.Divided n) (hget : w.live[index]? = some range)
    (hlast : w.live.eraseIdx index = []) :
    (w.allocator.release range).free = [⟨0, n⟩] ↔ w.Settles range := by
  obtain ⟨first, rest, hperm, hsorted, hfree⟩ := w.allocator.release_free range
  constructor
  · intro hwhole z hz _ s hs hstraddles
    have hfollow := mergeFrom_single (hfree.symm.trans hwhole)
    have hclear : ∀ ⦃s⦄, s ∈ first :: rest → ∀ ⦃z⦄, z ∈ first :: rest → ¬ s.Straddles z := by
      refine List.Pairwise.forall_of_forall_of_flip (fun s _ h => Nat.lt_irrefl _ h.1)
        (hfollow.imp fun hle h => ?_) (hfollow.imp fun hle h => ?_)
      all_goals
        simp only [Span.Straddles, Span.stop] at *
        omega
    exact hclear (hperm.mem_iff.mpr hs) (hperm.mem_iff.mpr hz) hstraddles
  · intro hsettles
    have hdiv := drop_divided h hget
    have hpart : Partition n alignment (w.allocator.release range).free := by
      have := hdiv.partition
      rwa [ranges, hlast, List.append_nil] at this
    refine eq_whole (drop_apart h hget hsettles) ?_ hpart.within fun b hb =>
      hpart.tile.exists_holds hb
    rw [hfree]
    exact mergeFrom_ne_nil _ _

theorem call_whole {allocator : FixedWorkspaceAllocator} (hn : alignment ∣ n)
    (hfree : allocator.free = [⟨0, n⟩]) : (allocator.call n).isSome := by
  rw [Option.isSome_iff_ne_none, ne_eq, FixedWorkspaceAllocator.call_eq_none, hfree]
  intro hshort
  have hlt := hshort ⟨0, n⟩ (List.mem_singleton_self _)
  rw [roundUp_of_dvd alignment_pos hn] at hlt
  exact Nat.lt_irrefl _ hlt

/-- In a run whose releases settle, an allocator without live allocations is as new. -/
theorem reachWith_whole (hn : alignment ∣ n) (h : (machine n).ReachWith Settled w)
    (hlive : w.live = []) : w.allocator.free = [⟨0, n⟩] := by
  refine @Machine.invariant _ _ (machine n) Settled
    (fun w => w.live = [] → w.allocator.free = [⟨0, n⟩]) ?_ ?_ w h hlive
  · rintro _ rfl _
    rfl
  · intro w op w' hw ih hok hstep hlast
    have hdiv := reachWith_divided hn hw
    obtain ⟨_, -, -, rfl⟩ | ⟨_, _, _, -, -, rfl⟩ | ⟨_, _, rfl, hget, rfl⟩ := step_cases hstep
    · exact ih hlast
    · exact absurd hlast (by simp)
    · exact (drop_last hdiv hget hlast).mpr (hok _ hget)

/-- **The buffer is always divided into free and live ranges.** The free list is merged
after every release that leaves no range of zero bytes inside another free range, and in
a run of such releases the buffer comes back whole. -/
theorem allocator_divides (hn : alignment ∣ n) :
    (∀ w, (machine n).Reachable w → w.LiveApart n ∧ Tile n w.ranges) ∧
    (∀ w, (machine n).ReachWith Settled w → w.live = [] →
      w.allocator.free = [⟨0, n⟩] ∧ (w.allocator.call n).isSome) ∧
    ∀ w index w', (machine n).Reachable w → w.step (.drop index) = some w' →
      (w.Settled (.drop index) → w'.Merged) ∧
      (w'.live = [] → (w'.allocator.free = [⟨0, n⟩] ↔ w.Settled (.drop index))) := by
  refine ⟨fun w hw => ?_, fun w hw hlive => ?_, fun w index w' hw hstep => ?_⟩
  · have hdiv := reachWith_divided hn hw
    exact ⟨hdiv.liveApart, hdiv.partition.tile⟩
  · have hfree := reachWith_whole hn hw hlive
    exact ⟨hfree, call_whole hn hfree⟩
  · have hdiv := reachWith_divided hn hw
    obtain ⟨range, hget, rfl⟩ := Option.map_eq_some_iff.mp hstep
    have hsettled : w.Settled (.drop index) ↔ w.Settles range :=
      ⟨fun h => h range hget, fun h r hr => Option.some.inj (hget.symm.trans hr) ▸ h⟩
    rw [hsettled]
    refine ⟨fun hok => (drop_apart hdiv hget hok).imp fun {s t} hgap => ?_, fun hlast => ?_⟩
    · simp only [Span.stop] at *
      omega
    · exact drop_last hdiv hget hlast

/-- Of three allocations the one of zero bytes is given back first. -/
theorem allocator_divides_kilobyte : ∃ w w' : Workspace,
    (machine 1024).exec (fun w op => decide (w.Settled op)) (init 1024)
        [.request 256, .request 0, .request 512] = some w ∧
      w.live = [⟨0, 256⟩, ⟨256, 0⟩, ⟨256, 512⟩] ∧ w.LiveApart 1024 ∧ Tile 1024 w.ranges ∧
      (machine 1024).exec (fun w op => decide (w.Settled op)) w [.drop 1, .drop 0, .drop 0] =
        some w' ∧
      w'.live = [] ∧ w'.allocator.free = [⟨0, 1024⟩] ∧ (w'.allocator.call 1024).isSome := by
  obtain ⟨hdivides, hwhole, -⟩ := allocator_divides (n := 1024) (by decide)
  let w : Workspace := ⟨⟨1024, [⟨768, 256⟩]⟩, [⟨0, 256⟩, ⟨256, 0⟩, ⟨256, 512⟩]⟩
  let w' : Workspace := ⟨⟨1024, [⟨0, 1024⟩]⟩, []⟩
  have hfill : (machine 1024).exec (fun w op => decide (w.Settled op)) (init 1024)
      [.request 256, .request 0, .request 512] = some w := by decide +kernel
  have hdrain : (machine 1024).exec (fun w op => decide (w.Settled op)) w
      [.drop 1, .drop 0, .drop 0] = some w' := by decide +kernel
  have hreach := Machine.reachWith_of_exec (M := machine 1024) rfl hfill
  obtain ⟨hapart, htile⟩ := hdivides w (hreach.mono fun _ _ _ => trivial)
  obtain ⟨hfree, hcall⟩ := hwhole w' ((hreach.of_path (Machine.path_of_exec hdrain)).mono
    fun _ _ h => of_decide_eq_true h) rfl
  exact ⟨w, w', hfill, rfl, hapart, htile, hdrain, rfl, hfree, hcall⟩

/-- An allocation of zero bytes is given back after the range before it and the range
behind it were merged. -/
def splitTrace : List WorkspaceOp :=
  [.request 256, .request 0, .request 256, .request 256, .drop 0, .drop 1, .drop 0, .drop 0]

/-- Everything is given back and half of the buffer is the longest free range. -/
theorem allocator_stays_split : ∃ w, (machine 1024).Reachable w ∧ w.live = [] ∧
    w.allocator.free = [⟨0, 512⟩, ⟨256, 0⟩, ⟨512, 512⟩] ∧ ¬ w.Merged ∧
    w.allocator.call 1024 = none := by
  have hexec : (machine 1024).exec (fun _ _ => true) (init 1024) splitTrace =
      some ⟨⟨1024, [⟨0, 512⟩, ⟨256, 0⟩, ⟨512, 512⟩]⟩, []⟩ := by decide +kernel
  refine ⟨_, (Machine.reachWith_of_exec rfl hexec).mono fun _ _ _ => trivial, rfl, rfl, ?_, ?_⟩
  · intro hmerged
    have h := List.pairwise_cons.mp hmerged
    exact (h.1 ⟨512, 512⟩ (by simp)).1 rfl
  · rw [FixedWorkspaceAllocator.call_eq_none]
    decide

end Workspace

end KVServe.Runtime

import KVServe.Lib.Span
import Mathlib.Data.List.Sort

/-!
# KVServe.Lib.FreeList

**Free ranges of a buffer.** The ranges of a list `Tile` a buffer when every position of
it lies in exactly one of them. Merging a sorted list in one pass joins every range that
ends where the next one starts. If no range starts inside another, the pass leaves a gap
between any two ranges; a range of size zero inside another one stays and hides a
neighbour from the pass.
-/

namespace KVServe

namespace Span

/-- The order of ranges as pairs: by start, then by size. -/
def Before (s t : Span) : Prop := s.start < t.start ∨ s.start = t.start ∧ s.size ≤ t.size

instance : DecidableRel Before := fun _ _ => inferInstanceAs (Decidable (_ ∨ _))

instance : Std.Total Before where
  total s t := by unfold Before; omega

instance : IsTrans Span Before where
  trans s t u := by unfold Before; omega

/-- A position of the range. -/
def Holds (s : Span) (b : Nat) : Prop := s.start ≤ b ∧ b < s.stop

instance (s : Span) (b : Nat) : Decidable (s.Holds b) := inferInstanceAs (Decidable (_ ∧ _))

/-- The range has positions before and after the start of `z`. -/
def Straddles (s z : Span) : Prop := s.start < z.start ∧ z.start < s.stop

instance (s z : Span) : Decidable (s.Straddles z) := inferInstanceAs (Decidable (_ ∧ _))

/-- Two ranges leave a gap between them. -/
def Apart (s t : Span) : Prop := s.stop < t.start ∨ t.stop < s.start

instance (s t : Span) : Decidable (s.Apart t) := inferInstanceAs (Decidable (_ ∨ _))

theorem Apart.symm {s t : Span} (h : s.Apart t) : t.Apart s := Or.symm h

instance : Std.Symm Apart := ⟨fun _ _ => Apart.symm⟩

/-- The range from the start of one range over both. -/
def join (s t : Span) : Span := ⟨s.start, s.size + t.size⟩

@[simp] theorem join_start (s t : Span) : (s.join t).start = s.start := rfl

@[simp] theorem join_size (s t : Span) : (s.join t).size = s.size + t.size := rfl

theorem join_stop {s t : Span} (h : s.stop = t.start) : (s.join t).stop = t.stop := by
  simp only [stop, join] at *
  omega

/-- Disjoint ranges in the order of pairs follow one another. -/
theorem Disjoint.stop_le {s t : Span} (h : s.Disjoint t) (hle : s.Before t) :
    s.stop ≤ t.start := by
  simp only [Disjoint, Before, stop] at *
  omega

end Span

/-! ### Positions -/

/-- The number of ranges that have a position. -/
def cover (spans : List Span) (b : Nat) : Nat := spans.countP fun s => s.Holds b

@[simp] theorem cover_nil (b : Nat) : cover [] b = 0 := rfl

theorem cover_cons (s : Span) (spans : List Span) (b : Nat) :
    cover (s :: spans) b = cover spans b + if s.Holds b then 1 else 0 := by
  simp [cover, List.countP_cons]

@[simp] theorem cover_append (spans spans' : List Span) (b : Nat) :
    cover (spans ++ spans') b = cover spans b + cover spans' b := by
  simp [cover, List.countP_append]

theorem cover_perm {spans spans' : List Span} (h : spans.Perm spans') (b : Nat) :
    cover spans b = cover spans' b := h.countP_eq _

/-- A range cut in two has the same positions. -/
theorem cover_split {s t u : Span} (hs : t.start = s.start) (ht : t.stop = u.start)
    (hu : u.stop = s.stop) (b : Nat) : cover [s] b = cover [t, u] b := by
  have htu : t.start ≤ t.stop := Nat.le_add_right _ _
  have huu : u.start ≤ u.stop := Nat.le_add_right _ _
  simp only [cover_cons, cover_nil]
  by_cases hb : b < u.start
  · have hu' : ¬ u.Holds b := fun h => absurd h.1 (by omega)
    rw [if_neg hu']
    exact congrArg (0 + ·) (if_congr (by simp only [Span.Holds]; omega) rfl rfl)
  · have ht' : ¬ t.Holds b := fun h => absurd h.2 (by omega)
    rw [if_neg ht']
    exact congrArg (0 + ·) (if_congr (by simp only [Span.Holds]; omega) rfl rfl)

/-- Every position below `n` lies in exactly one range, every other one in none. -/
def Tile (n : Nat) (spans : List Span) : Prop := ∀ b, cover spans b = if b < n then 1 else 0

namespace Tile

variable {n : Nat} {spans spans' : List Span}

theorem perm (h : Tile n spans) (hperm : spans.Perm spans') : Tile n spans' := fun b => by
  rw [← cover_perm hperm b, h b]

theorem of_cover (h : Tile n spans) (heq : ∀ b, cover spans' b = cover spans b) :
    Tile n spans' := fun b => by rw [heq b, h b]

theorem exists_holds (h : Tile n spans) {b : Nat} (hb : b < n) : ∃ s ∈ spans, s.Holds b := by
  have hone := h b
  rw [if_pos hb] at hone
  obtain ⟨s, hs, hholds⟩ := List.countP_pos_iff.mp (by rw [← cover, hone]; exact Nat.one_pos)
  exact ⟨s, hs, of_decide_eq_true hholds⟩

/-- **Ranges with positions are disjoint.** -/
theorem pairwise (h : Tile n spans) :
    spans.Pairwise fun s t => 0 < s.size → 0 < t.size → s.Disjoint t := by
  have hle : ∀ b, cover spans b ≤ 1 := fun b => by rw [h b]; split <;> omega
  clear h
  induction spans with
  | nil => exact .nil
  | cons s spans ih =>
      have hcons : ∀ b, cover spans b + (if s.Holds b then 1 else 0) ≤ 1 := fun b => by
        rw [← cover_cons]
        exact hle b
      refine .cons (fun t ht hs ht' => ?_) (ih fun b => by have := hcons b; omega)
      by_contra hmeet
      -- the later of the two starts lies in both ranges
      have hb : s.Holds (max s.start t.start) ∧ t.Holds (max s.start t.start) := by
        simp only [Span.Disjoint, Span.Holds, Span.stop] at *
        omega
      have hpos : 0 < cover spans (max s.start t.start) :=
        List.countP_pos_iff.mpr ⟨t, ht, decide_eq_true hb.2⟩
      have := hcons (max s.start t.start)
      rw [if_pos hb.1] at this
      omega

end Tile

/-! ### Merging -/

/-- The next range of a sorted list, joined to the last one where that ends at its start. -/
def mergeNext (merged : List Span) (current : Span) : List Span :=
  match merged.getLast? with
  | some previous =>
      if previous.stop = current.start then merged.dropLast ++ [previous.join current]
      else merged ++ [current]
  | none => merged ++ [current]

/-- One pass over a sorted list. -/
def coalesce (spans : List Span) : List Span := spans.foldl mergeNext []

/-- The pass behind a last range `previous`. -/
def mergeFrom (previous : Span) : List Span → List Span
  | [] => [previous]
  | current :: rest =>
      if previous.stop = current.start then mergeFrom (previous.join current) rest
      else previous :: mergeFrom current rest

theorem foldl_mergeNext (merged rest : List Span) (previous : Span) :
    rest.foldl mergeNext (merged ++ [previous]) = merged ++ mergeFrom previous rest := by
  induction rest generalizing merged previous with
  | nil => rfl
  | cons current rest ih =>
      rw [List.foldl_cons, mergeNext, List.getLast?_concat, mergeFrom]
      dsimp only
      split
      · rw [List.dropLast_concat, ih]
      · rw [ih, List.append_assoc]
        rfl

theorem coalesce_cons (s : Span) (rest : List Span) : coalesce (s :: rest) = mergeFrom s rest :=
  foldl_mergeNext [] rest s

/-- What joining keeps, the pass keeps. -/
theorem mergeFrom_forall {p : Span → Prop}
    (hjoin : ∀ s t, p s → p t → s.stop = t.start → p (s.join t)) {previous : Span}
    {rest : List Span} (h : ∀ s ∈ previous :: rest, p s) : ∀ s ∈ mergeFrom previous rest, p s := by
  induction rest generalizing previous with
  | nil => exact h
  | cons current rest ih =>
      obtain ⟨hprev, hcur, hrest⟩ : p previous ∧ p current ∧ ∀ s ∈ rest, p s := by simpa using h
      rw [mergeFrom]
      split
      · rename_i heq
        exact ih (List.forall_mem_cons.mpr ⟨hjoin _ _ hprev hcur heq, hrest⟩)
      · exact List.forall_mem_cons.mpr ⟨hprev, ih (List.forall_mem_cons.mpr ⟨hcur, hrest⟩)⟩

theorem cover_mergeFrom (previous : Span) (rest : List Span) (b : Nat) :
    cover (mergeFrom previous rest) b = cover (previous :: rest) b := by
  induction rest generalizing previous with
  | nil => rfl
  | cons current rest ih =>
      rw [mergeFrom]
      split
      · rename_i heq
        have hsplit := @cover_split (previous.join current) previous current rfl heq
          (Span.join_stop heq).symm b
        rw [ih, cover_cons _ rest, cover_cons _ (current :: rest), cover_cons _ rest]
        simp only [cover_cons, cover_nil] at hsplit
        omega
      · rw [cover_cons, ih, cover_cons previous]

theorem sum_mergeFrom (previous : Span) (rest : List Span) :
    ((mergeFrom previous rest).map Span.size).sum = ((previous :: rest).map Span.size).sum := by
  induction rest generalizing previous with
  | nil => rfl
  | cons current rest ih =>
      rw [mergeFrom]
      split
      · rw [ih]
        simp [Nat.add_assoc]
      · rw [List.map_cons, List.sum_cons, ih]
        rfl

theorem mergeFrom_ne_nil (previous : Span) (rest : List Span) : mergeFrom previous rest ≠ [] := by
  induction rest generalizing previous with
  | nil => exact List.cons_ne_nil _ _
  | cons current rest ih =>
      rw [mergeFrom]
      split
      · exact ih _
      · exact List.cons_ne_nil _ _

/-- **Ranges that follow one another come out with gaps between them.** -/
theorem mergeFrom_apart {previous : Span} {rest : List Span}
    (h : (previous :: rest).Pairwise fun s t => s.stop ≤ t.start) :
    (mergeFrom previous rest).Pairwise fun s t => s.stop < t.start := by
  induction rest generalizing previous with
  | nil => exact List.pairwise_singleton _ _
  | cons current rest ih =>
      obtain ⟨hprev, htail⟩ := List.pairwise_cons.mp h
      obtain ⟨hcur, hrest⟩ := List.pairwise_cons.mp htail
      rw [mergeFrom]
      split
      · rename_i heq
        refine ih (.cons (fun t ht => ?_) hrest)
        rw [Span.join_stop heq]
        exact hcur t ht
      · rename_i hne
        refine .cons (fun t ht => ?_) (ih htail)
        have hfirst : previous.stop < current.start :=
          Nat.lt_of_le_of_ne (hprev current List.mem_cons_self) hne
        refine mergeFrom_forall (p := fun t => previous.stop < t.start)
          (fun s _ hs _ _ => hs) ?_ t ht
        refine List.forall_mem_cons.mpr ⟨hfirst, fun s hs => ?_⟩
        have hle : current.start ≤ current.stop := Nat.le_add_right _ _
        exact Nat.lt_of_lt_of_le hfirst (Nat.le_trans hle (hcur s hs))

/-- Only ranges that follow one another come out as a single range. -/
theorem mergeFrom_single {previous e : Span} {rest : List Span}
    (h : mergeFrom previous rest = [e]) :
    (previous :: rest).Pairwise fun s t => s.stop ≤ t.start := by
  induction rest generalizing previous with
  | nil => exact List.pairwise_singleton _ _
  | cons current rest ih =>
      rw [mergeFrom] at h
      split at h
      · rename_i heq
        obtain ⟨hjoin, hrest⟩ := List.pairwise_cons.mp (ih h)
        rw [Span.join_stop heq] at hjoin
        refine .cons (fun t ht => ?_) (.cons hjoin hrest)
        rcases List.mem_cons.mp ht with rfl | ht
        · exact Nat.le_of_eq heq
        · have hle : current.start ≤ current.stop := Nat.le_add_right _ _
          exact Nat.le_trans (Nat.le_trans (Nat.le_of_eq heq) hle) (hjoin t ht)
      · cases mergeFrom_ne_nil current rest (List.cons.inj h).2

/-! ### Partitions -/

/-- The ranges divide a buffer of `n` bytes, in units of `a`. -/
structure Partition (n a : Nat) (spans : List Span) : Prop where
  tile : Tile n spans
  within : ∀ s ∈ spans, s.Within n
  aligned : ∀ s ∈ spans, a ∣ s.start ∧ a ∣ s.size
  bytes : (spans.map Span.size).sum = n

namespace Partition

variable {n a : Nat} {spans spans' : List Span} {s t u : Span}

theorem whole (h : a ∣ n) : Partition n a [⟨0, n⟩] where
  tile b := by simp [cover_cons, Span.Holds, Span.stop]
  within := by simp [Span.Within, Span.stop]
  aligned := by simpa using h
  bytes := by simp

theorem perm (h : Partition n a spans) (hperm : spans.Perm spans') : Partition n a spans' where
  tile := h.tile.perm hperm
  within s hs := h.within s (hperm.mem_iff.mpr hs)
  aligned s hs := h.aligned s (hperm.mem_iff.mpr hs)
  bytes := by rw [← (hperm.map _).sum_eq, h.bytes]

/-- A range may be cut in two. -/
theorem split (h : Partition n a (s :: spans)) (hs : t.start = s.start) (ht : t.stop = u.start)
    (hu : u.stop = s.stop) (ha : a ∣ t.size) : Partition n a (t :: u :: spans) where
  tile := h.tile.of_cover fun b => by
    have := cover_split hs ht hu b
    simp only [cover_cons, cover_nil] at this ⊢
    omega
  within := by
    have hle : u.stop ≤ n := by
      rw [hu]
      exact h.within s List.mem_cons_self
    have htu : t.stop ≤ u.stop := by
      rw [ht]
      exact Nat.le_add_right _ _
    refine List.forall_mem_cons.mpr ⟨Nat.le_trans htu hle, ?_⟩
    exact List.forall_mem_cons.mpr ⟨hle, fun r hr => h.within r (List.mem_cons_of_mem _ hr)⟩
  aligned := by
    obtain ⟨hstart, hsize⟩ := h.aligned s List.mem_cons_self
    have husize : u.size = s.size - t.size := by
      simp only [Span.stop] at *
      omega
    refine List.forall_mem_cons.mpr ⟨⟨hs ▸ hstart, ha⟩, List.forall_mem_cons.mpr ⟨⟨?_, ?_⟩, ?_⟩⟩
    · rw [← ht, Span.stop, hs]
      exact Nat.dvd_add hstart ha
    · rw [husize]
      exact Nat.dvd_sub hsize ha
    · exact fun r hr => h.aligned r (List.mem_cons_of_mem _ hr)
  bytes := by
    have := h.bytes
    simp only [List.map_cons, List.sum_cons, Span.stop] at *
    omega

/-- Merging keeps a partition. -/
theorem merge {previous : Span} {rest : List Span}
    (h : Partition n a ((previous :: rest) ++ spans)) :
    Partition n a (mergeFrom previous rest ++ spans) := by
  obtain ⟨htile, hwithin, haligned, hbytes⟩ := h
  rw [List.forall_mem_append] at hwithin haligned
  refine ⟨htile.of_cover fun b => ?_, List.forall_mem_append.mpr ⟨?_, hwithin.2⟩,
    List.forall_mem_append.mpr ⟨?_, haligned.2⟩, ?_⟩
  · rw [cover_append, cover_append, cover_mergeFrom]
  · refine mergeFrom_forall (fun s t _ ht heq => ?_) hwithin.1
    rw [Span.Within, Span.join_stop heq]
    exact ht
  · exact mergeFrom_forall (fun s t hs ht _ => ⟨hs.1, Nat.dvd_add hs.2 ht.2⟩) haligned.1
  · rw [← hbytes, List.map_append, List.sum_append, List.map_append, List.sum_append,
      sum_mergeFrom]

end Partition

/-- Ranges with gaps between them that have all positions of the buffer are one range. -/
theorem eq_whole {n : Nat} {spans : List Span}
    (hgap : spans.Pairwise fun s t => s.stop < t.start) (hne : spans ≠ [])
    (hwithin : ∀ s ∈ spans, s.Within n) (hall : ∀ b < n, ∃ s ∈ spans, s.Holds b) :
    spans = [⟨0, n⟩] := by
  obtain ⟨s, rest, rfl⟩ := List.exists_cons_of_ne_nil hne
  obtain ⟨hs, -⟩ := List.pairwise_cons.mp hgap
  have hle : s.stop ≤ n := hwithin s List.mem_cons_self
  -- no range but the first has a position up to its end
  have hholds : ∀ b < n, b ≤ s.stop → s.Holds b := by
    intro b hb hstop
    obtain ⟨t, ht, hholds⟩ := hall b hb
    rcases List.mem_cons.mp ht with rfl | ht
    · exact hholds
    · exact absurd hholds.1 (Nat.not_le.mpr (Nat.lt_of_le_of_lt hstop (hs t ht)))
  have hstop : s.stop = n := by
    refine Nat.le_antisymm hle (Nat.le_of_not_lt fun hlt => ?_)
    exact Nat.lt_irrefl _ (hholds s.stop hlt (Nat.le_refl _)).2
  have hstart : s.start = 0 := by
    rcases Nat.eq_zero_or_pos n with hn | hn
    · exact Nat.le_zero.mp (Nat.le_trans (Nat.le_add_right _ _) (hn ▸ hle))
    · exact Nat.le_zero.mp (hholds 0 hn (Nat.zero_le _)).1
  have hrest : rest = [] := by
    refine List.eq_nil_iff_forall_not_mem.mpr fun t ht => ?_
    have hbeyond := hs t ht
    have hin : t.start + t.size ≤ n := hwithin t (List.mem_cons_of_mem _ ht)
    omega
  obtain ⟨start, size⟩ := s
  obtain rfl : start = 0 := hstart
  obtain rfl : size = n := by simpa [Span.stop] using hstop
  rw [hrest]

end KVServe

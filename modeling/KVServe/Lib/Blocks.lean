import Mathlib.Data.List.Basic
import Mathlib.Data.List.Forall2
import Mathlib.Data.List.Induction

/-!
# KVServe.Lib.Blocks

**Flat buffers of equal blocks.** `block w l i` is the `i`-th run of `w` entries of a
list and `ofBlocks n f` the list of the blocks `f 0, …, f (n - 1)`. They are inverse to
each other, blocks of blocks are blocks, and the transposition of a matrix of blocks is
undone by the transposition back. A loop over a range that may fail (`mapM`) gives one
result for every index.
-/

namespace KVServe

variable {α : Type} {w n k i j : Nat} {l : List α} {f g : Nat → List α}

/-- The `i`-th block of width `w`. -/
def block (w : Nat) (l : List α) (i : Nat) : List α := (l.drop (i * w)).take w

/-- The list of some blocks. -/
def ofBlocks (n : Nat) (f : Nat → List α) : List α := (List.range n).flatMap f

@[simp] theorem ofBlocks_zero : ofBlocks 0 f = [] := rfl

theorem ofBlocks_succ : ofBlocks (n + 1) f = ofBlocks n f ++ f n := by
  simp [ofBlocks, List.range_succ]

theorem ofBlocks_congr (h : ∀ i < n, f i = g i) : ofBlocks n f = ofBlocks n g :=
  List.flatMap_congr fun i hi => h i (List.mem_range.mp hi)

theorem length_ofBlocks (h : ∀ i < n, (f i).length = w) : (ofBlocks n f).length = n * w := by
  induction n with
  | zero => simp
  | succ n ih =>
      rw [ofBlocks_succ, List.length_append, ih fun i hi => h i (Nat.lt_succ_of_lt hi),
        h n (Nat.lt_succ_self n), Nat.succ_mul]

theorem length_block (h : (i + 1) * w ≤ l.length) : (block w l i).length = w := by
  rw [Nat.succ_mul] at h
  rw [block, List.length_take, List.length_drop]
  omega

/-- A block of a list with `n` of them has full width. -/
theorem length_block_of_lt (h : l.length = n * w) (hi : i < n) : (block w l i).length = w :=
  length_block (h ▸ Nat.mul_le_mul_right w hi)

/-- **The blocks of a list of blocks.** -/
theorem block_ofBlocks (h : ∀ i < n, (f i).length = w) (hi : i < n) :
    block w (ofBlocks n f) i = f i := by
  induction n with
  | zero => omega
  | succ n ih =>
      have hlength : (ofBlocks n f).length = n * w :=
        length_ofBlocks fun i hi => h i (Nat.lt_succ_of_lt hi)
      rw [ofBlocks_succ]
      rcases Nat.lt_succ_iff_lt_or_eq.mp hi with hlt | rfl
      · have hroom : i * w + w ≤ n * w := by
          rw [← Nat.succ_mul]
          exact Nat.mul_le_mul_right w hlt
        rw [← ih (fun i hi => h i (Nat.lt_succ_of_lt hi)) hlt, block, block,
          List.drop_append_of_le_length (by omega),
          List.take_append_of_le_length (by rw [List.length_drop]; omega)]
      · rw [block, List.drop_left' hlength, List.take_of_length_le (Nat.le_of_eq (h i hi))]

/-- **A list is the list of its blocks.** -/
theorem ofBlocks_block (h : l.length = n * w) : ofBlocks n (block w l) = l := by
  induction n generalizing l with
  | zero =>
      rw [Nat.zero_mul, List.length_eq_zero_iff] at h
      simp [h]
  | succ n ih =>
      have hlength : (l.take (n * w)).length = n * w := by
        rw [List.length_take, h, Nat.succ_mul]
        omega
      have hfirst : ∀ i < n, block w l i = block w (l.take (n * w)) i := by
        intro i hi
        have hroom : i * w + w ≤ n * w := by
          rw [← Nat.succ_mul]
          exact Nat.mul_le_mul_right w hi
        rw [block, block, List.drop_take, List.take_take]
        congr 1
        omega
      have hlast : block w l n = l.drop (n * w) := by
        refine List.take_of_length_le ?_
        rw [List.length_drop, h, Nat.succ_mul]
        omega
      rw [ofBlocks_succ, ofBlocks_congr hfirst, ih hlength, hlast, List.take_append_drop]

/-- A block of a block. -/
theorem block_block (hj : j < k) : block w (block (k * w) l i) j = block w l (i * k + j) := by
  have hroom : j * w + w ≤ k * w := by
    rw [← Nat.succ_mul]
    exact Nat.mul_le_mul_right w hj
  rw [block, block, block, List.drop_take, List.take_take, List.drop_drop, Nat.add_mul,
    Nat.mul_assoc]
  congr 1
  omega

/-- Blocks of blocks, in one list. -/
theorem ofBlocks_mul (n k : Nat) (f : Nat → List α) :
    ofBlocks (n * k) f = ofBlocks n fun i => ofBlocks k fun j => f (i * k + j) := by
  induction n with
  | zero => simp
  | succ n ih =>
      have hrange (m : Nat) : ofBlocks (n * k + m) f =
          ofBlocks (n * k) f ++ ofBlocks m fun j => f (n * k + j) := by
        induction m with
        | zero => simp
        | succ m ihm => rw [← Nat.add_assoc, ofBlocks_succ, ihm, ofBlocks_succ, List.append_assoc]
      rw [Nat.succ_mul, hrange, ih, ofBlocks_succ]

/-- The concatenated images of a list's entries. -/
theorem flatMap_eq_ofBlocks {β : Type} (f : β → List α) (l : List β) :
    l.flatMap f = ofBlocks l.length fun i => (l[i]?.map f).getD [] := by
  induction l using List.reverseRecOn with
  | nil => rfl
  | append_singleton l x ih =>
      rw [List.flatMap_append, List.length_append, List.length_singleton, ofBlocks_succ, ih]
      congr 1
      · refine ofBlocks_congr fun i hi => ?_
        rw [List.getElem?_append_left hi]
      · simp

/-! ### Loops -/

/-- A loop succeeds iff every pass does. -/
theorem mapM_eq_some {β γ : Type} {f : β → Option γ} {l : List β} {r : List γ} :
    l.mapM f = some r ↔ r.length = l.length ∧ ∀ i : Nat, l[i]?.bind f = r[i]? := by
  induction l generalizing r with
  | nil =>
      refine ⟨fun h => ?_, fun h => ?_⟩
      · obtain rfl := Option.some.inj h
        simp
      · rw [List.length_eq_zero_iff.mp h.1]
        rfl
  | cons x l ih =>
      rw [List.mapM_cons]
      constructor
      · intro h
        obtain ⟨y, hy, h⟩ := Option.bind_eq_some_iff.mp h
        obtain ⟨rest, hrest, h⟩ := Option.bind_eq_some_iff.mp h
        obtain rfl : y :: rest = r := Option.some.inj h
        obtain ⟨hlength, hevery⟩ := ih.mp hrest
        refine ⟨by simp [hlength], fun i => ?_⟩
        cases i with
        | zero => simpa using hy
        | succ i => simpa using hevery i
      · rintro ⟨hlength, hevery⟩
        cases r with
        | nil => simp at hlength
        | cons y rest =>
            have hy : f x = some y := by simpa using hevery 0
            have hrest : l.mapM f = some rest :=
              ih.mpr ⟨by simpa using hlength, fun i => by simpa using hevery (i + 1)⟩
            simp [hy, hrest]

theorem mapM_range_eq_some {β : Type} {f : Nat → Option β} {l : List β} :
    (List.range n).mapM f = some l ↔ l.length = n ∧ ∀ i < n, f i = l[i]? := by
  rw [mapM_eq_some, List.length_range]
  refine and_congr_right fun hlength => ⟨fun h i hi => ?_, fun h i => ?_⟩
  · rw [← h i, List.getElem?_range hi, Option.bind_some]
  · by_cases hi : i < n
    · rw [List.getElem?_range hi, Option.bind_some, h i hi]
    · rw [List.getElem?_eq_none (by simpa using hi), List.getElem?_eq_none (by omega)]
      rfl

theorem exists_mapM_some {β γ : Type} {f : β → Option γ} {l : List β}
    (h : ∀ x ∈ l, ∃ y, f x = some y) : ∃ r, l.mapM f = some r := by
  induction l with
  | nil => exact ⟨[], rfl⟩
  | cons x l ih =>
      obtain ⟨y, hy⟩ := h x List.mem_cons_self
      obtain ⟨r, hr⟩ := ih fun x hx => h x (List.mem_cons_of_mem _ hx)
      exact ⟨y :: r, by rw [List.mapM_cons, hy, hr]; rfl⟩

/-- A fold in `Option` returns when every pass does; `I` is kept of the state and of what is
still to come. -/
theorem exists_foldlM {β γ : Type} {f : γ → β → Option γ} (I : List β → γ → Prop)
    (hstep : ∀ x l s, I (x :: l) s → ∃ s', f s x = some s' ∧ I l s') {l : List β} {s : γ}
    (h : I l s) : ∃ r, l.foldlM f s = some r ∧ I [] r := by
  induction l generalizing s with
  | nil => exact ⟨s, rfl, h⟩
  | cons x l ih =>
      obtain ⟨s', hs', h'⟩ := hstep x l s h
      obtain ⟨r, hr, hI⟩ := ih h'
      exact ⟨r, by rw [List.foldlM_cons, hs']; exact hr, hI⟩

/-- A fold in `Option` over a list and the loop over its positions keep step; `R` relates the two
states and what is still to come. -/
theorem exists_foldlM_range {β γ δ : Type} {f : γ → β → Option γ} {g : δ → Nat → δ} {l : List β}
    (R : List β → γ → δ → Prop)
    (hstep : ∀ i x rest s t, l[i]? = some x → R (x :: rest) s t →
      ∃ s', f s x = some s' ∧ R rest s' (g t i)) {s : γ} {t : δ} (h : R l s t) :
    ∃ r, l.foldlM f s = some r ∧ R [] r ((List.range l.length).foldl g t) := by
  have hrest : ∀ k rest s t, l.drop k = rest → R rest s t →
      ∃ r, rest.foldlM f s = some r ∧ R [] r ((List.range' k rest.length).foldl g t) := by
    intro k rest
    induction rest generalizing k with
    | nil => exact fun s t _ h => ⟨s, rfl, h⟩
    | cons x rest ih =>
        intro s t hdrop h
        have hx : l[k]? = some x := by
          rw [← Nat.add_zero k, ← List.getElem?_drop, hdrop, List.getElem?_cons_zero]
        have hdrop' : l.drop (k + 1) = rest := by
          rw [← List.drop_drop, hdrop, List.drop_succ_cons, List.drop_zero]
        obtain ⟨s', hs', h'⟩ := hstep k x rest s t hx h
        obtain ⟨r, hr, hR⟩ := ih (k + 1) s' (g t k) hdrop' h'
        refine ⟨r, by rw [List.foldlM_cons, hs']; exact hr, ?_⟩
        rwa [List.length_cons, List.range'_succ, List.foldl_cons]
  rw [List.range_eq_range']
  exact hrest 0 l s t List.drop_zero h

theorem mapM_range_congr {β : Type} {f g : Nat → Option β} (h : ∀ i < n, f i = g i) :
    (List.range n).mapM f = (List.range n).mapM g := by
  refine Option.ext fun l => ?_
  rw [mapM_range_eq_some, mapM_range_eq_some]
  exact and_congr_right fun _ => forall₂_congr fun i hi => by rw [h i hi]

theorem exists_mapM_range {β : Type} {f : Nat → Option β} (h : ∀ i < n, ∃ y, f i = some y) :
    ∃ l, (List.range n).mapM f = some l := by
  induction n with
  | zero => exact ⟨[], rfl⟩
  | succ n ih =>
      obtain ⟨l, hl⟩ := ih fun i hi => h i (Nat.lt_succ_of_lt hi)
      obtain ⟨y, hy⟩ := h n (Nat.lt_succ_self n)
      exact ⟨l ++ [y], by simp [List.range_succ, hl, hy]⟩

theorem bind_eq_ok {α β ε : Type} {x : Except ε α} {f : α → Except ε β} {r : β} :
    x >>= f = .ok r ↔ ∃ y, x = .ok y ∧ f y = .ok r := by
  cases x with
  | error e => exact iff_of_false (fun h => by cases h) fun ⟨_, h, _⟩ => by cases h
  | ok y => exact ⟨fun h => ⟨y, rfl, h⟩, fun ⟨_, hy, hr⟩ => by cases hy; exact hr⟩

/-- A loop that may raise returns iff no pass raises. -/
theorem mapM_eq_ok {α β ε : Type} {f : α → Except ε β} {l : List α} {r : List β} :
    l.mapM f = .ok r ↔ List.Forall₂ (fun x y => f x = .ok y) l r := by
  induction l generalizing r with
  | nil =>
      rw [List.mapM_nil, List.forall₂_nil_left_iff]
      exact ⟨fun h => (Except.ok.inj h).symm, fun h => h ▸ rfl⟩
  | cons x l ih =>
      rw [List.mapM_cons, List.forall₂_cons_left_iff, bind_eq_ok]
      refine exists_congr fun y => ?_
      rw [bind_eq_ok]
      constructor
      · rintro ⟨hx, rest, hl, hr⟩
        exact ⟨rest, hx, ih.mp hl, (Except.ok.inj hr).symm⟩
      · rintro ⟨rest, hx, hl, rfl⟩
        exact ⟨hx, rest, ih.mpr hl, rfl⟩

theorem exists_mem_of_forall₂ {α β : Type} {p : α → β → Prop} {l : List α} {r : List β}
    (h : List.Forall₂ p l r) {x : α} (hx : x ∈ l) : ∃ y ∈ r, p x y := by
  induction h with
  | nil => exact absurd hx List.not_mem_nil
  | @cons x' y l r hxy _ ih =>
      rcases List.mem_cons.mp hx with rfl | hx
      · exact ⟨y, List.mem_cons_self, hxy⟩
      · obtain ⟨y', hy', hp⟩ := ih hx
        exact ⟨y', List.mem_cons_of_mem _ hy', hp⟩

/-- A loop that never raises returns. -/
theorem exists_mapM {α β ε : Type} {f : α → Except ε β} {l : List α}
    (h : ∀ x ∈ l, ∃ y, f x = .ok y) : ∃ r, l.mapM f = .ok r := by
  induction l with
  | nil => exact ⟨[], rfl⟩
  | cons x l ih =>
      obtain ⟨y, hy⟩ := h x List.mem_cons_self
      obtain ⟨r, hr⟩ := ih fun x' hx' => h x' (List.mem_cons_of_mem x hx')
      exact ⟨y :: r, by rw [List.mapM_cons, hy, hr]; rfl⟩

theorem mapM_eq_ok_map {α β ε : Type} {f : α → Except ε β} {g : α → β} {l : List α}
    (h : ∀ x ∈ l, f x = .ok (g x)) : l.mapM f = .ok (l.map g) := by
  rw [mapM_eq_ok, List.forall₂_map_right_iff, List.forall₂_same]
  exact h

/-- **The invariant of a loop that may raise**, over the items still to come. -/
theorem foldlM_invariant {α β ε : Type} {f : β → α → Except ε β} {P : List α → β → Prop}
    (hstep : ∀ x rest y y', P (x :: rest) y → f y x = .ok y' → P rest y')
    {l : List α} {y r : β} (h : l.foldlM f y = .ok r) (hP : P l y) : P [] r := by
  induction l generalizing y with
  | nil => exact Except.ok.inj h ▸ hP
  | cons x l ih =>
      rw [List.foldlM_cons, bind_eq_ok] at h
      obtain ⟨y', hy', hr⟩ := h
      exact ih hr (hstep x l y y' hP hy')

/-- Two nested loops over a range and the single one. -/
theorem flatMap_range_mul {α : Type} (f : Nat → α) (a b : Nat) :
    ((List.range a).flatMap fun i => (List.range b).map fun j => f (i * b + j)) =
      (List.range (a * b)).map f := by
  induction a with
  | zero => simp
  | succ a ih =>
      rw [List.range_succ, List.flatMap_append, ih, Nat.succ_mul, List.range_add, List.map_append]
      simp

/-! ### Transposition -/

/-- The transposed matrix: `a` rows of `b` blocks become `b` rows of `a` blocks. -/
def transpose (a b w : Nat) (l : List α) : List α :=
  ofBlocks b fun j => ofBlocks a fun i => block w l (i * b + j)

variable {a b : Nat}

theorem mul_add_lt (hi : i < a) (hj : j < b) : i * b + j < a * b :=
  calc i * b + j < i * b + b := Nat.add_lt_add_left hj _
    _ = (i + 1) * b := (Nat.succ_mul i b).symm
    _ ≤ a * b := Nat.mul_le_mul_right b hi

/-- The digits of an index. -/
theorem mul_add_inj {n i i' j j' : Nat} (hj : j < n) (hj' : j' < n)
    (h : i * n + j = i' * n + j') : i = i' ∧ j = j' := by
  have hmod := congrArg (· % n) h
  simp only [Nat.mul_add_mod', Nat.mod_eq_of_lt hj, Nat.mod_eq_of_lt hj'] at hmod
  subst hmod
  have hpos : 0 < n := Nat.zero_lt_of_lt hj
  exact ⟨Nat.eq_of_mul_eq_mul_right hpos (Nat.add_right_cancel h), rfl⟩

theorem length_transpose (h : l.length = a * b * w) : (transpose a b w l).length = b * a * w := by
  have hrow : ∀ j < b, (ofBlocks a fun i => block w l (i * b + j)).length = a * w := fun j hj =>
    length_ofBlocks fun i hi => length_block_of_lt h (mul_add_lt hi hj)
  rw [transpose, length_ofBlocks hrow, Nat.mul_assoc]

/-- **Transposing back gives the matrix back.** -/
theorem transpose_transpose (h : l.length = a * b * w) :
    transpose b a w (transpose a b w l) = l := by
  have hrow : ∀ j < b, (ofBlocks a fun i => block w l (i * b + j)).length = a * w := fun j hj =>
    length_ofBlocks fun i hi => length_block_of_lt h (mul_add_lt hi hj)
  have hentry : ∀ i < a, ∀ j < b, block w (transpose a b w l) (j * a + i) = block w l (i * b + j) := by
    intro i hi j hj
    rw [← block_block hi, transpose, block_ofBlocks hrow hj,
      block_ofBlocks (fun i hi => length_block_of_lt h (mul_add_lt hi hj)) hi]
  calc transpose b a w (transpose a b w l)
      = ofBlocks a fun i => ofBlocks b fun j => block w l (i * b + j) :=
        ofBlocks_congr fun i hi => ofBlocks_congr fun j hj => hentry i hi j hj
    _ = ofBlocks (a * b) (block w l) := (ofBlocks_mul a b _).symm
    _ = l := ofBlocks_block h

/-- Transpose each of `n` matrices. -/
def transposeEach (n a b w : Nat) (l : List α) : List α :=
  ofBlocks n fun i => transpose a b w (block (a * b * w) l i)

theorem length_transposeEach (h : l.length = n * (a * b * w)) :
    (transposeEach n a b w l).length = n * (b * a * w) :=
  length_ofBlocks fun _ hi => length_transpose (length_block_of_lt h hi)

theorem transposeEach_transposeEach (h : l.length = n * (a * b * w)) :
    transposeEach n b a w (transposeEach n a b w l) = l := by
  have hblock : ∀ i < n, transpose b a w (block (b * a * w) (transposeEach n a b w l) i) =
      block (a * b * w) l i := by
    intro i hi
    rw [transposeEach, block_ofBlocks (fun i hi => length_transpose (length_block_of_lt h hi)) hi,
      transpose_transpose (length_block_of_lt h hi)]
  rw [transposeEach, ofBlocks_congr hblock, ofBlocks_block h]

/-- Transposing the matrices of several lists at once. -/
theorem transposeEach_ofBlocks (h : ∀ i < n, (f i).length = k * (a * b * w)) :
    transposeEach (n * k) a b w (ofBlocks n f) = ofBlocks n fun i => transposeEach k a b w (f i) := by
  rw [transposeEach, ofBlocks_mul]
  refine ofBlocks_congr fun i hi => ofBlocks_congr fun j hj => ?_
  rw [← block_block hj, block_ofBlocks h hi]

end KVServe

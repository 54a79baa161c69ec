import KVServe.Lib.Span
import Mathlib.Data.List.Nodup
import Mathlib.Data.List.Range
import Mathlib.Tactic.Ring

/-!
# KVServe.Lib.Strided

**Four-dimensional strided views of byte storage.** An `Index` is a position in a box, a
`View` gives each position of its box a byte address. Writing through a view whose
elements do not overlap puts every element at its address (`View.store_at`) and leaves
all other bytes alone (`View.store_frame`); views of contiguous storage, their
permutations and their parts have no overlapping elements.
-/

namespace KVServe

/-! ### Storage -/

abbrev Mem := Nat → UInt8

namespace Mem

variable {m : Mem} {ws : List (Nat × UInt8)} {a : Nat}

/-- Bytes written one after the other. -/
def store (m : Mem) (ws : List (Nat × UInt8)) : Mem :=
  ws.foldl (fun m w => Function.update m w.1 w.2) m

theorem store_of_notMem (h : a ∉ ws.map Prod.fst) : m.store ws a = m a := by
  induction ws generalizing m with
  | nil => rfl
  | cons w ws ih =>
      simp only [List.map_cons, List.mem_cons, not_or] at h
      rw [store, List.foldl_cons]
      exact (ih h.2).trans (Function.update_of_ne h.1 _ _)

theorem store_of_mem (hnd : (ws.map Prod.fst).Nodup) {w : Nat × UInt8} (h : w ∈ ws) :
    m.store ws w.1 = w.2 := by
  induction ws generalizing m with
  | nil => exact absurd h List.not_mem_nil
  | cons v ws ih =>
      rw [List.map_cons, List.nodup_cons] at hnd
      rcases List.mem_cons.mp h with rfl | h
      · exact (store_of_notMem hnd.1).trans (Function.update_self _ _ _)
      · exact ih hnd.2 h

/-- Bytes `f 0, f 1, …` written to a range. -/
def fill (m : Mem) (s : Span) (f : Nat → UInt8) : Mem := fun a =>
  if s.start ≤ a ∧ a < s.stop then f (a - s.start) else m a

theorem fill_at {s : Span} {f : Nat → UInt8} {k : Nat} (h : k < s.size) :
    m.fill s f (s.start + k) = f k := by
  have hin : s.start ≤ s.start + k ∧ s.start + k < s.stop := by
    rw [Span.stop]
    omega
  rw [fill, if_pos hin, Nat.add_sub_cancel_left]

theorem fill_frame {s : Span} {f : Nat → UInt8} (h : a < s.start ∨ s.stop ≤ a) :
    m.fill s f a = m a := if_neg (by omega)

end Mem

/-! ### Positions -/

/-- A position in a four-dimensional box, or the box itself. -/
abbrev Index := Nat × Nat × Nat × Nat

namespace Index

variable {x y shape : Index} {n : Nat}

/-- The position lies in the box. -/
def Inside (x shape : Index) : Prop :=
  x.1 < shape.1 ∧ x.2.1 < shape.2.1 ∧ x.2.2.1 < shape.2.2.1 ∧ x.2.2.2 < shape.2.2.2

instance : Decidable (Inside x shape) := inferInstanceAs (Decidable (_ ∧ _ ∧ _ ∧ _))

def numel (shape : Index) : Nat := shape.1 * shape.2.1 * shape.2.2.1 * shape.2.2.2

/-- The row-major number of a position. -/
def flat (shape x : Index) : Nat :=
  ((x.1 * shape.2.1 + x.2.1) * shape.2.2.1 + x.2.2.1) * shape.2.2.2 + x.2.2.2

/-- The position with a row-major number. -/
def unflat (shape : Index) (n : Nat) : Index :=
  (n / shape.2.2.2 / shape.2.2.1 / shape.2.1, n / shape.2.2.2 / shape.2.2.1 % shape.2.1,
    n / shape.2.2.2 % shape.2.2.1, n % shape.2.2.2)

/-- The positions of a box in row-major order. -/
def all (shape : Index) : List Index := (List.range (numel shape)).map (unflat shape)

private theorem digit_lt {a b q r : Nat} (ha : a < q) (hb : b < r) : a * r + b < q * r := by
  have := Nat.mul_le_mul_right r ha
  rw [Nat.succ_mul] at this
  omega

theorem flat_lt (h : x.Inside shape) : flat shape x < numel shape := by
  obtain ⟨h0, h1, h2, h3⟩ := h
  exact digit_lt (digit_lt (digit_lt h0 h1) h2) h3

private theorem div_digit {a b r : Nat} (hb : b < r) : (a * r + b) / r = a := by
  rw [Nat.mul_comm, Nat.mul_add_div (by omega), Nat.div_eq_of_lt hb, Nat.add_zero]

private theorem mod_digit {a b r : Nat} (hb : b < r) : (a * r + b) % r = b := by
  rw [Nat.mul_comm, Nat.mul_add_mod, Nat.mod_eq_of_lt hb]

theorem unflat_flat (h : x.Inside shape) : unflat shape (flat shape x) = x := by
  obtain ⟨_, h1, h2, h3⟩ := h
  simp only [unflat, flat, div_digit h3, mod_digit h3, div_digit h2, mod_digit h2, div_digit h1,
    mod_digit h1]

theorem flat_unflat (n : Nat) : flat shape (unflat shape n) = n := by
  simp only [unflat, flat]
  rw [Nat.div_add_mod', Nat.div_add_mod', Nat.div_add_mod']

theorem unflat_inside (h : n < numel shape) : (unflat shape n).Inside shape := by
  have hpos : 0 < numel shape := Nat.lt_of_le_of_lt (Nat.zero_le n) h
  have h3 : 0 < shape.2.2.2 := Nat.pos_of_mul_pos_left hpos
  have hpos2 := Nat.pos_of_mul_pos_right hpos
  have h2 : 0 < shape.2.2.1 := Nat.pos_of_mul_pos_left hpos2
  have h1 : 0 < shape.2.1 := Nat.pos_of_mul_pos_left (Nat.pos_of_mul_pos_right hpos2)
  refine ⟨?_, Nat.mod_lt _ h1, Nat.mod_lt _ h2, Nat.mod_lt _ h3⟩
  show n / shape.2.2.2 / shape.2.2.1 / shape.2.1 < shape.1
  rw [Nat.div_lt_iff_lt_mul h1, Nat.div_lt_iff_lt_mul h2, Nat.div_lt_iff_lt_mul h3]
  exact h

theorem flat_injective (hx : x.Inside shape) (hy : y.Inside shape)
    (h : flat shape x = flat shape y) : x = y := by
  rw [← unflat_flat hx, h, unflat_flat hy]

@[simp] theorem mem_all : x ∈ all shape ↔ x.Inside shape := by
  simp only [all, List.mem_map, List.mem_range]
  constructor
  · rintro ⟨n, hn, rfl⟩
    exact unflat_inside hn
  · exact fun h => ⟨flat shape x, flat_lt h, unflat_flat h⟩

theorem nodup_all : (all shape).Nodup := by
  refine List.Nodup.map_on ?_ List.nodup_range
  intro n _ m _ h
  rw [← @flat_unflat shape n, h, flat_unflat]

/-- Axes one and two exchanged. -/
def swap (x : Index) : Index := (x.1, x.2.2.1, x.2.1, x.2.2.2)

@[simp] theorem swap_swap : x.swap.swap = x := rfl

theorem swap_inside : x.swap.Inside shape.swap ↔ x.Inside shape := by
  simp only [Inside, swap]
  tauto

end Index

/-! ### Views -/

/-- The element at `x` starts at `base + x · stride`, in bytes. -/
structure View where
  base : Nat
  shape : Index
  stride : Index

namespace View

variable {v : View} {w : Nat} {x y : Index} {m : Mem} {a : Nat}

def addr (v : View) (x : Index) : Nat :=
  v.base + x.1 * v.stride.1 + x.2.1 * v.stride.2.1 + x.2.2.1 * v.stride.2.2.1 +
    x.2.2.2 * v.stride.2.2.2

/-- Elements of `w` bytes at different positions do not overlap. -/
def Separated (v : View) (w : Nat) : Prop :=
  ∀ x y, x.Inside v.shape → y.Inside v.shape → x ≠ y →
    v.addr x + w ≤ v.addr y ∨ v.addr y + w ≤ v.addr x

/-- The byte belongs to an element of the view. -/
def Covers (v : View) (w : Nat) (a : Nat) : Prop :=
  ∃ x, x.Inside v.shape ∧ v.addr x ≤ a ∧ a < v.addr x + w

/-- The bytes that `store` writes. -/
def writes (v : View) (w : Nat) (f : Index → Nat → UInt8) : List (Nat × UInt8) :=
  (Index.all v.shape).flatMap fun x => (List.range w).map fun b => (v.addr x + b, f x b)

/-- The elements `f x` of `w` bytes, written through the view in row-major order. -/
def store (v : View) (w : Nat) (f : Index → Nat → UInt8) (m : Mem) : Mem :=
  m.store (v.writes w f)

theorem nodup_writes (h : v.Separated w) {f : Index → Nat → UInt8} :
    ((v.writes w f).map Prod.fst).Nodup := by
  rw [writes, List.map_flatMap, List.nodup_flatMap]
  constructor
  · intro x _
    rw [List.map_map]
    exact List.nodup_range.map fun b c hbc => Nat.add_left_cancel hbc
  · refine Index.nodup_all.imp_of_mem fun {x y} hx hy hne => ?_
    rw [Index.mem_all] at hx hy
    intro a hax hay
    simp only [List.map_map, List.mem_map, List.mem_range, Function.comp_apply] at hax hay
    obtain ⟨b, hb, rfl⟩ := hax
    obtain ⟨c, hc, hbc⟩ := hay
    rcases h x y hx hy hne with hle | hle <;> omega

/-- **What is written is read back.** -/
theorem store_at (h : v.Separated w) {f : Index → Nat → UInt8} (hx : x.Inside v.shape) {b : Nat}
    (hb : b < w) : v.store w f m (v.addr x + b) = f x b := by
  refine Mem.store_of_mem (w := (v.addr x + b, f x b)) (nodup_writes h) ?_
  exact List.mem_flatMap.mpr ⟨x, Index.mem_all.mpr hx, List.mem_map.mpr
    ⟨b, List.mem_range.mpr hb, rfl⟩⟩

/-- **Bytes outside the view stay.** -/
theorem store_frame {f : Index → Nat → UInt8} (h : ¬ v.Covers w a) : v.store w f m a = m a := by
  refine Mem.store_of_notMem fun ha => h ?_
  obtain ⟨⟨_, _⟩, hmem, rfl⟩ := List.mem_map.mp ha
  obtain ⟨x, hx, hmem⟩ := List.mem_flatMap.mp hmem
  obtain ⟨b, hb, heq⟩ := List.mem_map.mp hmem
  obtain ⟨rfl, rfl⟩ := Prod.mk.inj heq
  have := List.mem_range.mp hb
  exact ⟨x, Index.mem_all.mp hx, Nat.le_add_right _ _, by omega⟩

/-! ### Kinds of views -/

/-- Row-major elements of `w` bytes from `base` on. -/
def contiguous (base w : Nat) (shape : Index) : View where
  base := base
  shape := shape
  stride := (shape.2.1 * shape.2.2.1 * shape.2.2.2 * w, shape.2.2.1 * shape.2.2.2 * w,
    shape.2.2.2 * w, w)

/-- `permute(0, 2, 1, 3)`. -/
def swap (v : View) : View := { v with shape := v.shape.swap, stride := v.stride.swap }

/-- `narrow(0, start, count)`. -/
def narrow0 (v : View) (start count : Nat) : View where
  base := v.base + start * v.stride.1
  shape := (count, v.shape.2)
  stride := v.stride

/-- `narrow(2, start, count)`. -/
def narrow2 (v : View) (start count : Nat) : View where
  base := v.base + start * v.stride.2.2.1
  shape := (v.shape.1, v.shape.2.1, count, v.shape.2.2.2)
  stride := v.stride

/-- `narrow(3, start, count)`. -/
def narrow3 (v : View) (start count : Nat) : View where
  base := v.base + start * v.stride.2.2.2
  shape := (v.shape.1, v.shape.2.1, v.shape.2.2.1, count)
  stride := v.stride

variable {base : Nat} {shape : Index}

theorem contiguous_addr : (contiguous base w shape).addr x = base + Index.flat shape x * w := by
  simp only [addr, contiguous, Index.flat]
  ring

theorem contiguous_separated : (contiguous base w shape).Separated w := by
  intro x y hx hy hne
  rw [contiguous_addr, contiguous_addr]
  have hflat : Index.flat shape x ≠ Index.flat shape y := fun h =>
    hne (Index.flat_injective hx hy h)
  rcases Nat.lt_or_gt_of_ne hflat with hlt | hlt
  · have := Nat.mul_le_mul_right w hlt
    rw [Nat.succ_mul] at this
    omega
  · have := Nat.mul_le_mul_right w hlt
    rw [Nat.succ_mul] at this
    omega

/-- The bytes of contiguous elements. -/
def span (base w : Nat) (shape : Index) : Span := ⟨base, Index.numel shape * w⟩

theorem contiguous_covers (h : (contiguous base w shape).Covers w a) :
    (span base w shape).start ≤ a ∧ a < (span base w shape).stop := by
  obtain ⟨x, hx, hle, hlt⟩ := h
  rw [contiguous_addr] at hle hlt
  have hflat : Index.flat shape x + 1 ≤ Index.numel shape := Index.flat_lt hx
  have := Nat.mul_le_mul_right w hflat
  rw [Nat.succ_mul] at this
  simp only [span, Span.stop]
  omega

@[simp] theorem swap_addr : v.swap.addr x = v.addr x.swap := by
  simp only [addr, swap, Index.swap]
  omega

theorem swap_separated (h : v.Separated w) : v.swap.Separated w := by
  intro x y hx hy hne
  rw [swap_addr, swap_addr]
  refine h _ _ (Index.swap_inside.mp hx) (Index.swap_inside.mp hy) fun heq => hne ?_
  rw [← Index.swap_swap (x := x), heq, Index.swap_swap]

/-- A part of a view: positions of the part are positions of the view. -/
structure Part (u v : View) where
  emb : Index → Index
  inside : ∀ x, x.Inside u.shape → (emb x).Inside v.shape
  injective : ∀ x y, emb x = emb y → x = y
  addr_eq : ∀ x, u.addr x = v.addr (emb x)

theorem Part.separated {u v : View} (p : Part u v) (h : v.Separated w) : u.Separated w := by
  intro x y hx hy hne
  rw [p.addr_eq, p.addr_eq]
  exact h _ _ (p.inside x hx) (p.inside y hy) fun heq => hne (p.injective x y heq)

theorem Part.covers {u v : View} (p : Part u v) (h : u.Covers w a) : v.Covers w a := by
  obtain ⟨x, hx, hle, hlt⟩ := h
  rw [p.addr_eq] at hle hlt
  exact ⟨p.emb x, p.inside x hx, hle, hlt⟩

/-- Parts without a common position have no common byte. -/
theorem Part.disjoint {u u' v : View} (p : Part u v) (q : Part u' v) (h : v.Separated w)
    (hne : ∀ x y, x.Inside u.shape → y.Inside u'.shape → p.emb x ≠ q.emb y) :
    ¬ (u.Covers w a ∧ u'.Covers w a) := by
  rintro ⟨⟨x, hx, hxle, hxlt⟩, y, hy, hyle, hylt⟩
  rw [p.addr_eq] at hxle hxlt
  rw [q.addr_eq] at hyle hylt
  rcases h _ _ (p.inside x hx) (q.inside y hy) (hne x y hx hy) with hle | hle <;> omega

theorem narrow0_addr {start count : Nat} :
    (v.narrow0 start count).addr x = v.addr (start + x.1, x.2) := by
  simp only [addr, narrow0]
  ring

theorem narrow2_addr {start count : Nat} :
    (v.narrow2 start count).addr x = v.addr (x.1, x.2.1, start + x.2.2.1, x.2.2.2) := by
  simp only [addr, narrow2]
  ring

theorem narrow3_addr {start count : Nat} :
    (v.narrow3 start count).addr x = v.addr (x.1, x.2.1, x.2.2.1, start + x.2.2.2) := by
  simp only [addr, narrow3]
  ring

/-- `narrow(3, …)` inside the last axis. -/
def narrow3Part {start count : Nat} (h : start + count ≤ v.shape.2.2.2) :
    Part (v.narrow3 start count) v where
  emb x := (x.1, x.2.1, x.2.2.1, start + x.2.2.2)
  inside x hx := ⟨hx.1, hx.2.1, hx.2.2.1, by
    have : x.2.2.2 < count := hx.2.2.2
    show start + x.2.2.2 < v.shape.2.2.2
    omega⟩
  injective x y hxy := by
    simp only [Prod.mk.injEq, Nat.add_left_cancel_iff] at hxy
    obtain ⟨h0, h1, h2, h3⟩ := hxy
    exact Prod.ext h0 (Prod.ext h1 (Prod.ext h2 h3))
  addr_eq _ := narrow3_addr

/-- `narrow(2, …)` inside its axis. -/
def narrow2Part {start count : Nat} (h : start + count ≤ v.shape.2.2.1) :
    Part (v.narrow2 start count) v where
  emb x := (x.1, x.2.1, start + x.2.2.1, x.2.2.2)
  inside x hx := ⟨hx.1, hx.2.1, by
    have : x.2.2.1 < count := hx.2.2.1
    show start + x.2.2.1 < v.shape.2.2.1
    omega, hx.2.2.2⟩
  injective x y hxy := by
    simp only [Prod.mk.injEq, Nat.add_left_cancel_iff] at hxy
    obtain ⟨h0, h1, h2, h3⟩ := hxy
    exact Prod.ext h0 (Prod.ext h1 (Prod.ext h2 h3))
  addr_eq _ := narrow2_addr

/-- `narrow(0, …)` inside its axis. -/
def narrow0Part {start count : Nat} (h : start + count ≤ v.shape.1) :
    Part (v.narrow0 start count) v where
  emb x := (start + x.1, x.2)
  inside x hx := ⟨by
    have : x.1 < count := hx.1
    show start + x.1 < v.shape.1
    omega, hx.2⟩
  injective x y hxy := by
    simp only [Prod.mk.injEq, Nat.add_left_cancel_iff] at hxy
    exact Prod.ext hxy.1 hxy.2
  addr_eq _ := narrow0_addr

def Part.trans {u v t : View} (p : Part u v) (q : Part v t) : Part u t where
  emb x := q.emb (p.emb x)
  inside x hx := q.inside _ (p.inside x hx)
  injective x y hxy := p.injective x y (q.injective _ _ hxy)
  addr_eq x := (p.addr_eq x).trans (q.addr_eq _)

end View

/-! ### Elements of two bytes -/

/-- The two bytes of an element. -/
abbrev Cell := UInt8 × UInt8

/-- The two bytes at an address. -/
def Mem.cell (m : Mem) (a : Nat) : Cell := (m a, m (a + 1))

theorem Mem.cell_congr {m m' : Mem} {a : Nat} (h0 : m a = m' a) (h1 : m (a + 1) = m' (a + 1)) :
    m.cell a = m'.cell a := Prod.ext h0 h1

namespace View

variable {v : View} {x : Index} {m : Mem} {a : Nat} {f : Index → Cell}

/-- The element at a position. -/
def cell (v : View) (m : Mem) (x : Index) : Cell := m.cell (v.addr x)

/-- The elements `f x`, written through the view. -/
def storeCells (v : View) (f : Index → Cell) (m : Mem) : Mem :=
  v.store 2 (fun x b => if b = 0 then (f x).1 else (f x).2) m

theorem cell_storeCells (h : v.Separated 2) (hx : x.Inside v.shape) :
    v.cell (v.storeCells f m) x = f x :=
  Prod.ext (store_at h hx (b := 0) (by decide)) (store_at h hx (b := 1) (by decide))

theorem storeCells_frame (h : ¬ v.Covers 2 a) : v.storeCells f m a = m a := store_frame h

theorem cell_storeCells_frame {u : View} {y : Index} (h0 : ¬ v.Covers 2 (u.addr y))
    (h1 : ¬ v.Covers 2 (u.addr y + 1)) : u.cell (v.storeCells f m) y = u.cell m y :=
  Mem.cell_congr (storeCells_frame h0) (storeCells_frame h1)

/-- **Stores through views that do not meet.** Each element is read back from the view it
was written through, and bytes outside all of them stay. -/
theorem foldl_storeCells {ι : Type} {l : List ι} {view : ι → View} {g : ι → Index → Cell}
    (hsep : ∀ i ∈ l, (view i).Separated 2)
    (hdis : l.Pairwise fun i j => ∀ a, ¬ ((view i).Covers 2 a ∧ (view j).Covers 2 a)) (m : Mem) :
    (∀ i ∈ l, ∀ x, x.Inside (view i).shape →
      (view i).cell (l.foldl (fun m i => (view i).storeCells (g i) m) m) x = g i x) ∧
    ∀ a, (∀ i ∈ l, ¬ (view i).Covers 2 a) →
      l.foldl (fun m i => (view i).storeCells (g i) m) m a = m a := by
  induction l generalizing m with
  | nil => exact ⟨fun i hi => absurd hi List.not_mem_nil, fun _ _ => rfl⟩
  | cons i l ih =>
      obtain ⟨hhead, htail⟩ := List.pairwise_cons.mp hdis
      obtain ⟨hat, hframe⟩ := ih (fun j hj => hsep j (List.mem_cons_of_mem _ hj)) htail
        ((view i).storeCells (g i) m)
      refine ⟨fun j hj x hx => ?_, fun a ha => ?_⟩
      · rcases List.mem_cons.mp hj with rfl | hj
        · -- the later views leave the element of this one alone
          have hstay : ∀ b < 2, ∀ k ∈ l, ¬ (view k).Covers 2 ((view j).addr x + b) :=
            fun b hb k hk hcov => hhead k hk _ ⟨⟨x, hx, Nat.le_add_right _ _, by omega⟩, hcov⟩
          refine (Mem.cell_congr (hframe _ ?_) (hframe _ ?_)).trans
            (cell_storeCells (hsep j List.mem_cons_self) hx)
          · exact hstay 0 (by decide)
          · exact hstay 1 (by decide)
        · exact hat j hj x hx
      · exact (hframe a fun j hj => ha j (List.mem_cons_of_mem _ hj)).trans
          (storeCells_frame (ha i List.mem_cons_self))

end View

end KVServe

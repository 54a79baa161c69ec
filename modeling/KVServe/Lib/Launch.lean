import KVServe.Lib.Stores
import KVServe.Lib.Strided

/-!
# KVServe.Lib.Launch

**The stores of a launch through views.** The threads of a launch store in no order; where their
stores are those of some views that do not meet, the launch is the same as writing the views one
after the other.
-/

namespace KVServe

/-- Elements of two bytes stored one after the other. -/
def Mem.storeElements (m : Mem) (ws : List (Nat × Cell)) : Mem :=
  stored m (ws.flatMap fun w => [(w.1, w.2.1), (w.1 + 1, w.2.2)])

/-- Only the bytes of the range are written. -/
theorem Mem.fill_congr {m : Mem} {s : Span} {f g : Nat → UInt8} (h : ∀ k < s.size, f k = g k) :
    m.fill s f = m.fill s g := by
  funext a
  by_cases hin : s.start ≤ a ∧ a < s.stop
  · rw [Mem.fill, Mem.fill, if_pos hin, if_pos hin]
    rw [Span.stop] at hin
    exact h _ (by omega)
  · rw [Mem.fill, Mem.fill, if_neg hin, if_neg hin]

namespace View

variable {v : View} {m m' : Mem} {x : Index} {f g : Index → Cell} {ws : List (Nat × Cell)}

/-- A byte of an element is its first or its second one. -/
theorem covers_two {a : Nat} (h : v.Covers 2 a) :
    ∃ x, x.Inside v.shape ∧ (a = v.addr x ∨ a = v.addr x + 1) := by
  obtain ⟨x, hx, hle, hlt⟩ := h
  exact ⟨x, hx, by omega⟩

/-- A view that does not meet the one written keeps its elements. -/
theorem cell_storeCells_apart {u : View} (h : ∀ a, ¬ (u.Covers 2 a ∧ v.Covers 2 a))
    (hx : x.Inside u.shape) : u.cell (v.storeCells f m) x = u.cell m x := by
  refine cell_storeCells_frame (fun hcov => h _ ⟨⟨x, hx, Nat.le_refl _, by omega⟩, hcov⟩)
    fun hcov => h _ ⟨⟨x, hx, Nat.le_succ _, by omega⟩, hcov⟩

/-- Memory is given by the elements of some views and the bytes outside of them. -/
theorem ext_cells {ι : Type} {l : List ι} {view : ι → View}
    (hcells : ∀ i ∈ l, ∀ x, x.Inside (view i).shape → (view i).cell m x = (view i).cell m' x)
    (hframe : ∀ a, (∀ i ∈ l, ¬ (view i).Covers 2 a) → m a = m' a) : m = m' := by
  funext a
  by_cases h : ∃ i ∈ l, (view i).Covers 2 a
  · obtain ⟨i, hi, hcov⟩ := h
    obtain ⟨x, hx, rfl | rfl⟩ := covers_two hcov
    · exact congrArg Prod.fst (hcells i hi x hx)
    · exact congrArg Prod.snd (hcells i hi x hx)
  · exact hframe a fun i hi hcov => h ⟨i, hi, hcov⟩

/-- Only the elements inside are written. -/
theorem store_congr {w : Nat} {f g : Index → Nat → UInt8}
    (h : ∀ x, x.Inside v.shape → f x = g x) : v.store w f m = v.store w g m := by
  rw [store, store]
  congr 1
  rw [writes, writes]
  refine List.flatMap_congr fun x hx => ?_
  rw [h x (Index.mem_all.mp hx)]

theorem storeCells_congr (h : ∀ x, x.Inside v.shape → f x = g x) :
    v.storeCells f m = v.storeCells g m :=
  store_congr fun x hx => by rw [h x hx]

theorem foldl_storeCells_congr {ι : Type} {l : List ι} {view : ι → View} {f g : ι → Index → Cell}
    (h : ∀ i ∈ l, ∀ x, x.Inside (view i).shape → f i x = g i x) :
    l.foldl (fun m i => (view i).storeCells (f i) m) m =
      l.foldl (fun m i => (view i).storeCells (g i) m) m := by
  induction l generalizing m with
  | nil => rfl
  | cons i l ih =>
      rw [List.foldl_cons, List.foldl_cons, storeCells_congr (h i List.mem_cons_self)]
      exact ih fun j hj => h j (List.mem_cons_of_mem _ hj)

/-- **A launch writes views**, if its stores are their elements. -/
theorem storeElements_eq_foldl {ι : Type} {l : List ι} {view : ι → View} {f : ι → Index → Cell}
    (hsep : ∀ i ∈ l, (view i).Separated 2)
    (hdis : l.Pairwise fun i j => ∀ a, ¬ ((view i).Covers 2 a ∧ (view j).Covers 2 a))
    (hws : ∀ w, w ∈ ws ↔ ∃ i ∈ l, ∃ x, x.Inside (view i).shape ∧ w = ((view i).addr x, f i x)) :
    m.storeElements ws = l.foldl (fun m i => (view i).storeCells (f i) m) m := by
  obtain ⟨hcell, hframe⟩ := @foldl_storeCells ι l view f hsep hdis m
  -- the store that reaches an address, and what the views hold there
  have hstore : ∀ b ∈ ws.flatMap fun w => [(w.1, w.2.1), (w.1 + 1, w.2.2)],
      (∃ i ∈ l, (view i).Covers 2 b.1) ∧
        l.foldl (fun m i => (view i).storeCells (f i) m) m b.1 = b.2 := by
    intro b hb
    obtain ⟨w, hw, hb⟩ := List.mem_flatMap.mp hb
    obtain ⟨i, hi, x, hx, rfl⟩ := (hws w).mp hw
    have hval := hcell i hi x hx
    rcases List.mem_cons.mp hb with rfl | hb
    · exact ⟨⟨i, hi, x, hx, Nat.le_refl _, by omega⟩, congrArg Prod.fst hval⟩
    · obtain rfl := List.mem_singleton.mp hb
      exact ⟨⟨i, hi, x, hx, Nat.le_succ _, by simp only; omega⟩, congrArg Prod.snd hval⟩
  funext a
  refine stored_eq (fun b hb ha => ?_) ?_
  · rw [← ha]
    exact (hstore b hb).2.symm
  · by_cases h : ∃ i ∈ l, (view i).Covers 2 a
    · obtain ⟨i, hi, hcov⟩ := h
      obtain ⟨x, hx, ha⟩ := covers_two hcov
      have hw : ((view i).addr x, f i x) ∈ ws := (hws _).mpr ⟨i, hi, x, hx, rfl⟩
      refine Or.inr ?_
      rcases ha with rfl | rfl
      · exact ⟨_, List.mem_flatMap.mpr ⟨_, hw, List.mem_cons_self⟩, rfl⟩
      · exact ⟨_, List.mem_flatMap.mpr ⟨_, hw, List.mem_cons_of_mem _ List.mem_cons_self⟩, rfl⟩
    · exact Or.inl (hframe a fun i hi hcov => h ⟨i, hi, hcov⟩).symm

/-- A launch with one store for each element of a view. -/
theorem storeElements_eq (hsep : v.Separated 2)
    (hws : ∀ w, w ∈ ws ↔ ∃ x, x.Inside v.shape ∧ w = (v.addr x, f x)) :
    m.storeElements ws = v.storeCells f m := by
  refine @storeElements_eq_foldl m ws Unit [()] (fun _ => v) (fun _ => f) (fun _ _ => hsep)
    (List.pairwise_singleton _ _) fun w => ?_
  rw [hws]
  simp

/-- The same for elements of one byte. -/
theorem stored_eq_store {f : Index → UInt8} {ws : List (Nat × UInt8)} (hsep : v.Separated 1)
    (hws : ∀ w, w ∈ ws ↔ ∃ x, x.Inside v.shape ∧ w = (v.addr x, f x)) :
    stored m ws = v.store 1 (fun x _ => f x) m := by
  funext a
  by_cases h : v.Covers 1 a
  · obtain ⟨x, hx, hle, hlt⟩ := h
    obtain rfl : a = v.addr x := by omega
    have hat : v.store 1 (fun x _ => f x) m (v.addr x) = f x :=
      store_at hsep hx (b := 0) Nat.one_pos
    rw [hat]
    refine stored_eq (fun w hw ha => ?_) (Or.inr ⟨_, (hws _).mpr ⟨x, hx, rfl⟩, rfl⟩)
    obtain ⟨y, hy, rfl⟩ := (hws w).mp hw
    have hxy : y = x := by
      by_contra hne
      have := hsep y x hy hx hne
      simp only at ha
      omega
    rw [hxy]
  · rw [store_frame h]
    refine stored_eq (fun w hw ha => ?_) (Or.inl rfl)
    obtain ⟨y, hy, rfl⟩ := (hws w).mp hw
    exact absurd ⟨y, hy, Nat.le_of_eq ha, by simp only at ha; omega⟩ h

end View

end KVServe

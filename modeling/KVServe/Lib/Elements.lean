import KVServe.Lib.Strided

/-!
# KVServe.Lib.Elements

**Strided views of storage that is counted in elements**, of any type. An element that was
written through a view is read back through it, and elements outside the view stay; parts of
contiguous storage that stand apart do not touch each other.
-/

namespace KVServe.View

variable {α : Type} {v u : View} {x y : Index} {m : Nat → α} {f : Index → α} {a : Nat}

/-- The element at a position. -/
def get (v : View) (m : Nat → α) (x : Index) : α := m (v.addr x)

/-- The elements `f x`, written through the view in row-major order. -/
def put (v : View) (f : Index → α) (m : Nat → α) : Nat → α :=
  (Index.all v.shape).foldl (fun m x => Function.update m (v.addr x) (f x)) m

theorem covers_one : v.Covers 1 a ↔ ∃ x, x.Inside v.shape ∧ v.addr x = a := by
  constructor
  · rintro ⟨x, hx, hle, hlt⟩
    exact ⟨x, hx, by omega⟩
  · rintro ⟨x, hx, rfl⟩
    exact ⟨x, hx, Nat.le_refl _, Nat.lt_succ_self _⟩

private theorem foldl_update_frame {l : List Index} (h : ∀ x ∈ l, v.addr x ≠ a) :
    l.foldl (fun m x => Function.update m (v.addr x) (f x)) m a = m a := by
  induction l generalizing m with
  | nil => rfl
  | cons x l ih =>
      rw [List.foldl_cons, ih fun y hy => h y (List.mem_cons_of_mem _ hy),
        Function.update_of_ne (h x List.mem_cons_self).symm]

private theorem foldl_update_at {l : List Index} (hnd : l.Nodup)
    (hinj : ∀ y ∈ l, v.addr y = v.addr x → y = x) (hx : x ∈ l) :
    l.foldl (fun m x => Function.update m (v.addr x) (f x)) m (v.addr x) = f x := by
  induction l generalizing m with
  | nil => exact absurd hx List.not_mem_nil
  | cons z l ih =>
      obtain ⟨hz, hnd⟩ := List.nodup_cons.mp hnd
      rw [List.foldl_cons]
      rcases List.mem_cons.mp hx with rfl | hx
      · rw [foldl_update_frame, Function.update_self]
        intro y hy heq
        rw [hinj y (List.mem_cons_of_mem _ hy) heq] at hy
        exact hz hy
      · exact ih hnd (fun y hy => hinj y (List.mem_cons_of_mem _ hy)) hx

/-- **What is written is read back.** -/
theorem get_put (h : v.Separated 1) (hx : x.Inside v.shape) : v.get (v.put f m) x = f x := by
  refine foldl_update_at Index.nodup_all (fun y hy heq => ?_) (Index.mem_all.mpr hx)
  by_contra hne
  rcases h y x (Index.mem_all.mp hy) hx hne with hle | hle <;> omega

/-- **Elements outside the view stay.** -/
theorem put_frame (h : ¬ v.Covers 1 a) : v.put f m a = m a :=
  foldl_update_frame fun x hx heq => h (covers_one.mpr ⟨x, Index.mem_all.mp hx, heq⟩)

/-- No element of one view is one of the other. -/
def Apart (v u : View) : Prop := ∀ a, ¬ (v.Covers 1 a ∧ u.Covers 1 a)

theorem Apart.symm (h : v.Apart u) : u.Apart v := fun a hc => h a hc.symm

theorem covers_addr (hx : x.Inside v.shape) : v.Covers 1 (v.addr x) :=
  covers_one.mpr ⟨x, hx, rfl⟩

theorem get_put_apart (h : v.Apart u) (hy : y.Inside u.shape) : u.get (v.put f m) y = u.get m y :=
  put_frame fun hc => h _ ⟨hc, covers_addr hy⟩

/-- Contiguous ranges that do not meet. -/
theorem contiguous_apart {base base' : Nat} {shape shape' : Index}
    (h : base + shape.numel ≤ base' ∨ base' + shape'.numel ≤ base) :
    (contiguous base 1 shape).Apart (contiguous base' 1 shape') := by
  rintro a ⟨hv, hu⟩
  have hv := contiguous_covers hv
  have hu := contiguous_covers hu
  simp only [span, Span.stop, Nat.mul_one] at hv hu
  omega

/-- Parts of one view without a common position. -/
theorem Part.apart {t : View} (p : Part u v) (q : Part t v) (h : v.Separated 1)
    (hne : ∀ x y, x.Inside u.shape → y.Inside t.shape → p.emb x ≠ q.emb y) : u.Apart t :=
  fun _ => p.disjoint q h hne

end KVServe.View

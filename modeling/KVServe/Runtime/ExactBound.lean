import KVServe.Runtime.ExactQuantizer
import Mathlib.Algebra.Field.Rat
import Mathlib.Data.Rat.Floor
import Mathlib.Tactic.NormNum

/-!
# KVServe.Runtime.ExactBound

**The error bound of the runtime quantizer.** A section leaves the minimum and the scale of
every group in its rows of the auxiliary buffer and the symbols of its heads in the stream,
and touches nothing of another section; so after the last section all of them are there, and
reading them back meets each element within half of the scale of its own group.
-/

namespace KVServe.Runtime

/-! ### Reductions -/

section Reductions

variable {K : Type} [Field K] [LinearOrder K] {values : List K} {v : K}

theorem aminOf_le (h : v ∈ values) : aminOf values ≤ v := by
  have hmin := List.min?_eq_some_min (List.ne_nil_of_mem h)
  rw [aminOf, hmin]
  exact (List.min?_eq_some_iff.mp hmin).2 _ h

theorem le_amaxOf (h : v ∈ values) : v ≤ amaxOf values := by
  have hmax := List.max?_eq_some_max (List.ne_nil_of_mem h)
  rw [amaxOf, hmax]
  exact (List.max?_eq_some_iff.mp hmax).2 _ h

end Reductions

variable {K : Type} [Field K] [LinearOrder K] [IsStrictOrderedRing K]

theorem clampMin_pos : (0 : K) < clampMin := by
  rw [clampMin]
  norm_num

variable [FloorRing K]

/-! ### Symbols -/

namespace Pipeline

/-- The clamped number is the symbol. -/
theorem exactSymbol_eq (levels : Nat) (x lo scale : K) :
    exactSymbol levels x lo (1 / scale) = symbolOf scale lo (levels - 1) x := by
  rw [exactSymbol, symbolOf, mul_one_div]
  generalize roundHalfEven ((x - lo) / scale) = r
  have hcast : ((max 0 (min r (levels - 1 : Nat))).toNat : K) =
      ((max 0 (min r (levels - 1 : Nat)) : Int) : K) := by
    rw [← Int.cast_natCast, Int.toNat_of_nonneg (le_max_left _ _)]
  rw [hcast]
  push_cast
  rw [max_comm (r : K) 0, max_min_distrib_left, max_eq_right (Nat.cast_nonneg (levels - 1))]

/-- A symbol of at most `256` levels is a byte. -/
theorem toByte_symbolOf {levels : Nat} (h : levels ≤ 256) {n : Nat} (hn : n ≤ levels - 1) :
    (toByte (n : K)).toNat = n := by
  rw [toByte, Int.floor_natCast, Int.toNat_natCast, UInt8.toNat_ofNat_of_lt']
  show n < 256
  omega

/-! ### One section -/

section Section

variable {pl : Pipeline} {part : LayerPartLayout} {n : Nat} {slot : ExactSlot K} {s t : QuantSection}

/-- The shape of some kernel blocks of a layer part. -/
def bodyShape (pl : Pipeline) (part : LayerPartLayout) (n : Nat) : Index :=
  (n, pl.kernelTokens part, part.numHeads, part.headSize)

/-- `canonical_a` in elements. -/
def elementsA (pl : Pipeline) (part : LayerPartLayout) (n : Nat) : View :=
  .contiguous (part.rawOffset / 2) 1 (pl.bodyShape part n)

/-- `u8_layer`. -/
def symbolsB (pl : Pipeline) (part : LayerPartLayout) (n : Nat) : View :=
  .contiguous (pl.u8Span part n).start 1 (pl.bodyShape part n)

/-- The shape of the rows of a section. -/
def rowShape (pl : Pipeline) (part : LayerPartLayout) (n : Nat) (s : QuantSection) : Index :=
  auxShape s.axis (n, pl.kernelTokens part) s.headCount part.headSize

/-- The row of a section at an offset, in one of the halves of the auxiliary buffer. -/
def row (pl : Pipeline) (part : LayerPartLayout) (n : Nat) (s : QuantSection) (offset : Nat)
    (temporary : Bool) : View :=
  .contiguous ((if temporary then offset + pl.layout.auxArenaBytes / 2 else offset) / 2) 1
    (pl.rowShape part n s)

/-- The four rows of a section. -/
def rows (pl : Pipeline) (part : LayerPartLayout) (n : Nat) (s : QuantSection) : List View :=
  [pl.row part n s s.auxMinOffset false, pl.row part n s s.auxScaleOffset false,
    pl.row part n s s.auxMinOffset true, pl.row part n s s.auxScaleOffset true]

/-- What the loop needs of a section: its views exist and do not meet. -/
structure SectionRoom (pl : Pipeline) (part : LayerPartLayout) (n : Nat) (slot : ExactSlot K)
    (s : QuantSection) : Prop where
  heads : s.headStart + s.headCount ≤ part.numHeads
  levels : 2 ≤ s.numLevels ∧ s.numLevels ≤ 256
  view : ∀ offset ∈ [s.auxMinOffset, s.auxScaleOffset], ∀ temporary,
    pl.exactAuxView slot offset (pl.rowShape part n s) temporary =
      some (pl.row part n s offset temporary)
  apart : (pl.rows part n s).Pairwise View.Apart

/-- The elements of the heads of a section. -/
def sourceOf (pl : Pipeline) (part : LayerPartLayout) (n : Nat) (s : QuantSection) : View :=
  (pl.elementsA part n).narrow2 s.headStart s.headCount

/-- The symbols of the heads of a section. -/
def outputOf (pl : Pipeline) (part : LayerPartLayout) (n : Nat) (s : QuantSection) : View :=
  (pl.symbolsB part n).narrow2 s.headStart s.headCount

/-- The group of a key, in the source of a section. -/
def groupOf {α : Type} (pl : Pipeline) (part : LayerPartLayout) (n : Nat) (s : QuantSection)
    (arenaA : Nat → α) (key : Index) : List α :=
  groupValues (pl.sourceOf part n s) s.axis arenaA key

/-- The minimum of a group. -/
def groupMin (pl : Pipeline) (part : LayerPartLayout) (n : Nat) (s : QuantSection)
    (arenaA : Nat → K) (key : Index) : K := aminOf (pl.groupOf part n s arenaA key)

/-- The scale of a group. -/
def groupScale (pl : Pipeline) (part : LayerPartLayout) (n : Nat) (s : QuantSection)
    (arenaA : Nat → K) (key : Index) : K :=
  scaleOf clampMin (pl.groupMin part n s arenaA key) (amaxOf (pl.groupOf part n s arenaA key))
    (s.numLevels - 1)

/-- The symbol of an element. -/
def groupSymbol (pl : Pipeline) (part : LayerPartLayout) (n : Nat) (s : QuantSection)
    (arenaA : Nat → K) (x : Index) : Nat :=
  symbolOf (pl.groupScale part n s arenaA (auxKey s.axis x))
    (pl.groupMin part n s arenaA (auxKey s.axis x)) (s.numLevels - 1)
    ((pl.sourceOf part n s).get arenaA x)

/-- The section has been quantized: its rows and its symbols are those of `arenaA`. -/
structure Stored (pl : Pipeline) (part : LayerPartLayout) (n : Nat) (arenaA : Nat → K)
    (slot : ExactSlot K) (s : QuantSection) : Prop where
  minimum : ∀ key : Index, key.Inside (pl.rowShape part n s) →
    (pl.row part n s s.auxMinOffset false).get slot.aux key = pl.groupMin part n s arenaA key
  scale : ∀ key : Index, key.Inside (pl.rowShape part n s) →
    (pl.row part n s s.auxScaleOffset false).get slot.aux key = pl.groupScale part n s arenaA key
  symbols : ∀ x : Index, x.Inside (pl.sourceOf part n s).shape →
    ((pl.outputOf part n s).get slot.arenaB x).toNat =
      pl.groupSymbol part n s arenaA x

/-- What a section leaves alone. -/
structure Untouched (pl : Pipeline) (part : LayerPartLayout) (n : Nat) (s : QuantSection)
    (slot slot' : ExactSlot K) : Prop where
  sizes : slot'.sizeA = slot.sizeA ∧ slot'.sizeB = slot.sizeB ∧ slot'.sizeAux = slot.sizeAux
  aux : ∀ a, (∀ v ∈ pl.rows part n s, ¬ v.Covers 1 a) → slot'.aux a = slot.aux a
  arenaA : ∀ a, ¬ (pl.sourceOf part n s).Covers 1 a →
    slot'.arenaA a = slot.arenaA a
  arenaB : ∀ a, ¬ (pl.outputOf part n s).Covers 1 a →
    slot'.arenaB a = slot.arenaB a

theorem zeroRows_full {F : Type} [Field F] (offset count : Nat) (aux : Nat → F) :
    zeroRows offset count count aux = aux := by
  funext a
  exact if_neg (by omega)

theorem auxKey_inside {x shape : Index} (hx : x.Inside shape) (axis : QuantAxis) :
    (auxKey axis x).Inside (auxShape axis (shape.1, shape.2.1) shape.2.2.1 shape.2.2.2) := by
  obtain ⟨h0, h1, h2, h3⟩ := hx
  cases axis with
  | channel => exact ⟨Nat.one_pos, Nat.one_pos, h2, h3⟩
  | token => exact ⟨h0, h1, Nat.one_pos, Nat.one_pos⟩
  | tensor => exact ⟨Nat.one_pos, Nat.one_pos, Nat.one_pos, Nat.one_pos⟩

/-- An element is in its group. -/
theorem mem_groupOf {α : Type} {arenaA : Nat → α} {x : Index}
    (hx : x.Inside (pl.sourceOf part n s).shape) :
    (pl.sourceOf part n s).get arenaA x ∈
      pl.groupOf part n s arenaA (auxKey s.axis x) :=
  List.mem_map_of_mem (List.mem_filter.mpr ⟨Index.mem_all.mpr hx, decide_eq_true rfl⟩)

/-- Nothing but the four rows is written, and in the end they hold the minimum, the scale and
the inverse of the scale. -/
theorem reduceRows_spec {F : Type} [Field F] [LinearOrder F]
    {minimum scale maximum inverse : View} (lo hi : Index → F) (levels : Nat)
    (hsep : minimum.Separated 1 ∧ scale.Separated 1 ∧ maximum.Separated 1 ∧ inverse.Separated 1)
    (hapart : [minimum, scale, maximum, inverse].Pairwise View.Apart) (aux : Nat → F) :
    let aux' := reduceRows minimum scale maximum inverse lo hi levels aux
    (∀ key : Index, key.Inside minimum.shape → key.Inside scale.shape →
      key.Inside maximum.shape → key.Inside inverse.shape →
      minimum.get aux' key = lo key ∧
        scale.get aux' key = scaleOf clampMin (lo key) (hi key) (levels - 1) ∧
        inverse.get aux' key = 1 / scaleOf clampMin (lo key) (hi key) (levels - 1)) ∧
    ∀ a, (∀ v ∈ [minimum, scale, maximum, inverse], ¬ v.Covers 1 a) → aux' a = aux a := by
  obtain ⟨hmin, hscale, hmax, hinv⟩ := hsep
  simp only [List.pairwise_cons, List.mem_cons, List.not_mem_nil, or_false, forall_eq_or_imp,
    forall_eq] at hapart
  obtain ⟨⟨hms, hmM, hmi⟩, ⟨hsM, hsi⟩, hMi, -⟩ := hapart
  refine ⟨fun key hkmin hkscale hkmax hkinv => ?_, fun a ha => ?_⟩
  · simp only [reduceRows, View.get_put hinv hkinv, View.get_put hscale hkscale, View.get_put hmax hkmax,
      View.get_put hmin hkmin, View.get_put_apart hmi.symm hkmin, View.get_put_apart hms.symm hkmin,
      View.get_put_apart hmM.symm hkmin, View.get_put_apart hsi.symm hkscale,
      View.get_put_apart hsi hkinv]
    exact ⟨trivial, rfl, rfl⟩
  · simp only [List.mem_cons, List.not_mem_nil, or_false, forall_eq_or_imp, forall_eq] at ha
    obtain ⟨h0, h1, h2, h3⟩ := ha
    simp only [reduceRows, View.put_frame h0, View.put_frame h1, View.put_frame h2, View.put_frame h3]

theorem row_separated (offset : Nat) (temporary : Bool) :
    (pl.row part n s offset temporary).Separated 1 := View.contiguous_separated

theorem sourceOf_separated (h : s.headStart + s.headCount ≤ part.numHeads) :
    (pl.sourceOf part n s).Separated 1 :=
  (View.narrow2Part h).separated View.contiguous_separated

theorem outputOf_separated (h : s.headStart + s.headCount ≤ part.numHeads) :
    (pl.outputOf part n s).Separated 1 :=
  (View.narrow2Part h).separated View.contiguous_separated

/-- A symbol is within the levels of its section. -/
theorem groupSymbol_le (h : SectionRoom pl part n slot s) {arenaA : Nat → K} {x : Index}
    (hx : x.Inside (pl.sourceOf part n s).shape) :
    pl.groupSymbol part n s arenaA x ≤ s.numLevels - 1 :=
  symbolOf_le clampMin_pos (Nat.sub_pos_of_lt h.levels.1) (Nat.le_refl _)
    (aminOf_le (mem_groupOf hx)) (le_amaxOf (mem_groupOf hx))

/-- **A section** stores its rows and its symbols, and nothing else. -/
theorem exactQuantizeSection_spec (h : SectionRoom pl part n slot s) (count : Nat) :
    ∃ slot', pl.exactQuantizeSection part count count (pl.elementsA part n) (pl.symbolsB part n)
        slot s = some slot' ∧
      Stored pl part n slot.arenaA slot' s ∧ Untouched pl part n s slot slot' := by
  have hmin := h.view s.auxMinOffset List.mem_cons_self false
  have hscale := h.view s.auxScaleOffset (List.mem_cons_of_mem _ List.mem_cons_self) false
  have hmax := h.view s.auxMinOffset List.mem_cons_self true
  have hinv := h.view s.auxScaleOffset (List.mem_cons_of_mem _ List.mem_cons_self) true
  obtain ⟨hrows, hframe⟩ := reduceRows_spec (pl.groupMin part n s slot.arenaA)
    (fun key => amaxOf (pl.groupOf part n s slot.arenaA key)) s.numLevels
    ⟨row_separated _ _, row_separated _ _, row_separated _ _, row_separated _ _⟩ h.apart slot.aux
  generalize haux : reduceRows (pl.row part n s s.auxMinOffset false)
    (pl.row part n s s.auxScaleOffset false) (pl.row part n s s.auxMinOffset true)
    (pl.row part n s s.auxScaleOffset true) (pl.groupMin part n s slot.arenaA)
    (fun key => amaxOf (pl.groupOf part n s slot.arenaA key)) s.numLevels slot.aux = aux
    at hrows hframe
  let arenaA := symbolize (pl.sourceOf part n s) (pl.row part n s s.auxMinOffset false)
    (pl.row part n s s.auxScaleOffset true) s aux slot.arenaA
  let arenaB := (pl.outputOf part n s).put
    (fun x => toByte ((pl.sourceOf part n s).get arenaA x)) slot.arenaB
  refine ⟨{ slot with arenaA, arenaB, aux }, ?_, ⟨?_, ?_, ?_⟩, ⟨⟨rfl, rfl, rfl⟩, hframe, ?_, ?_⟩⟩
  · have hshape : auxShape s.axis ((pl.elementsA part n).shape.1, (pl.elementsA part n).shape.2.1)
        s.headCount part.headSize = pl.rowShape part n s := rfl
    simp only [exactQuantizeSection, zeroRows_full, ite_self, hshape, hmin, hscale, hmax, hinv,
      Option.bind_eq_bind, Option.bind_some, Option.pure_def]
    subst haux
    rfl
  · intro key hkey
    exact (hrows key hkey hkey hkey hkey).1
  · intro key hkey
    exact (hrows key hkey hkey hkey hkey).2.1
  · intro x hx
    have hkey : (auxKey s.axis x).Inside (pl.rowShape part n s) := auxKey_inside hx s.axis
    obtain ⟨hlow, -, hinverse⟩ := hrows _ hkey hkey hkey hkey
    show ((pl.outputOf part n s).get arenaB x).toNat = _
    have hsymbol : (pl.sourceOf part n s).get arenaA x = pl.groupSymbol part n s slot.arenaA x := by
      refine (View.get_put (sourceOf_separated h.heads) hx).trans ?_
      rw [hlow, hinverse, exactSymbol_eq]
      rfl
    rw [View.get_put (outputOf_separated h.heads) hx, hsymbol,
      toByte_symbolOf h.levels.2 (groupSymbol_le h hx)]
  · exact fun a ha => View.put_frame ha
  · exact fun a ha => View.put_frame ha

/-! ### All sections -/

/-- Two sections share neither heads nor rows. -/
structure SectionsApart (pl : Pipeline) (part : LayerPartLayout) (n : Nat) (s t : QuantSection) :
    Prop where
  source : (pl.sourceOf part n s).Apart (pl.sourceOf part n t)
  output : (pl.outputOf part n s).Apart (pl.outputOf part n t)
  rows : ∀ v ∈ pl.rows part n s, ∀ u ∈ pl.rows part n t, v.Apart u

theorem SectionsApart.symm (h : SectionsApart pl part n s t) : SectionsApart pl part n t s :=
  ⟨h.source.symm, h.output.symm, fun u hu v hv => (h.rows v hv u hu).symm⟩

theorem SectionRoom.congr {F : Type} {slot slot' : ExactSlot F} (h : SectionRoom pl part n slot s)
    (hsize : slot'.sizeAux = slot.sizeAux) : SectionRoom pl part n slot' s where
  heads := h.heads
  levels := h.levels
  view := by
    intro offset ho temporary
    rw [← h.view offset ho temporary, exactAuxView, exactAuxView, hsize]
  apart := h.apart

omit [IsStrictOrderedRing K] in
/-- Only the elements of the source count. -/
theorem Stored.congr {arenaA arenaA' : Nat → K}
    (heq : ∀ x : Index, x.Inside (pl.sourceOf part n s).shape →
      (pl.sourceOf part n s).get arenaA x = (pl.sourceOf part n s).get arenaA' x)
    (h : Stored pl part n arenaA slot s) : Stored pl part n arenaA' slot s := by
  have hgroup : pl.groupOf part n s arenaA = pl.groupOf part n s arenaA' := by
    funext key
    refine List.map_congr_left fun x hx => heq x ?_
    exact Index.mem_all.mp (List.mem_of_mem_filter hx)
  have hmin : pl.groupMin part n s arenaA = pl.groupMin part n s arenaA' := by
    funext key
    rw [groupMin, groupMin, hgroup]
  have hscale : pl.groupScale part n s arenaA = pl.groupScale part n s arenaA' := by
    funext key
    rw [groupScale, groupScale, hgroup, hmin]
  refine ⟨hmin ▸ h.minimum, hscale ▸ h.scale, fun x hx => ?_⟩
  rw [h.symbols x hx, groupSymbol, groupSymbol, hmin, hscale, heq x hx]

omit [IsStrictOrderedRing K] in
/-- A section that is stored stays stored when another one is quantized. -/
theorem Stored.frame {arenaA : Nat → K} {slot' : ExactSlot K}
    (h : Stored pl part n arenaA slot t) (hapart : SectionsApart pl part n s t)
    (hframe : Untouched pl part n s slot slot') : Stored pl part n arenaA slot' t := by
  have hrow : ∀ u ∈ pl.rows part n t, ∀ key : Index, key.Inside u.shape →
      u.get slot'.aux key = u.get slot.aux key := fun u hu key hkey =>
    hframe.aux _ fun v hv hc => hapart.rows v hv u hu _ ⟨hc, View.covers_addr hkey⟩
  refine ⟨fun key hkey => ?_, fun key hkey => ?_, fun x hx => ?_⟩
  · rw [hrow _ List.mem_cons_self key hkey]
    exact h.minimum key hkey
  · rw [hrow _ (List.mem_cons_of_mem _ List.mem_cons_self) key hkey]
    exact h.scale key hkey
  · rw [← h.symbols x hx]
    refine congrArg UInt8.toNat (hframe.arenaB _ fun hc => ?_)
    exact hapart.output _ ⟨hc, View.covers_addr hx⟩

/-- **The loop over the sections** stores all of them. -/
theorem foldlM_quantize {l : List QuantSection} {arenaA : Nat → K} (count : Nat)
    (hroom : ∀ s ∈ l, SectionRoom pl part n slot s)
    (hapart : l.Pairwise (SectionsApart pl part n))
    (hsource : ∀ s ∈ l, ∀ x : Index, x.Inside (pl.sourceOf part n s).shape →
      (pl.sourceOf part n s).get slot.arenaA x = (pl.sourceOf part n s).get arenaA x) :
    ∃ slot', l.foldlM (pl.exactQuantizeSection part count count (pl.elementsA part n)
        (pl.symbolsB part n)) slot = some slot' ∧
      (slot'.sizeA = slot.sizeA ∧ slot'.sizeB = slot.sizeB ∧ slot'.sizeAux = slot.sizeAux) ∧
      (∀ s ∈ l, Stored pl part n arenaA slot' s) ∧
      ∀ t, (∀ s ∈ l, SectionsApart pl part n s t) → Stored pl part n arenaA slot t →
        Stored pl part n arenaA slot' t := by
  induction l generalizing slot with
  | nil =>
      exact ⟨slot, rfl, ⟨rfl, rfl, rfl⟩, fun s hs => absurd hs List.not_mem_nil, fun _ _ h => h⟩
  | cons s l ih =>
      obtain ⟨hfirst, hrest⟩ := List.pairwise_cons.mp hapart
      obtain ⟨next, hnext, hstored, hframe⟩ :=
        exactQuantizeSection_spec (hroom s List.mem_cons_self) count
      have hstored := hstored.congr (hsource s List.mem_cons_self)
      -- the later sections still find their elements
      have hlater : ∀ t ∈ l, ∀ x : Index, x.Inside (pl.sourceOf part n t).shape →
          (pl.sourceOf part n t).get next.arenaA x = (pl.sourceOf part n t).get arenaA x := by
        intro t ht x hx
        rw [← hsource t (List.mem_cons_of_mem _ ht) x hx]
        exact hframe.arenaA _ fun hc => (hfirst t ht).source _ ⟨hc, View.covers_addr hx⟩
      obtain ⟨slot', hslot', hsizes, hall, hkeep⟩ := ih
        (fun t ht => (hroom t (List.mem_cons_of_mem _ ht)).congr hframe.sizes.2.2) hrest hlater
      refine ⟨slot', ?_, ?_, ?_, ?_⟩
      · rw [List.foldlM_cons, hnext]
        exact hslot'
      · obtain ⟨hA, hB, haux⟩ := hframe.sizes
        exact ⟨hsizes.1.trans hA, hsizes.2.1.trans hB, hsizes.2.2.trans haux⟩
      · intro t ht
        rcases List.mem_cons.mp ht with rfl | ht
        · exact hkeep t (fun s' hs' => (hfirst s' hs').symm) hstored
        · exact hall t ht
      · intro t hst ht
        exact hkeep t (fun s' hs' => hst s' (List.mem_cons_of_mem _ hs'))
          (ht.frame (hst s List.mem_cons_self) hframe)

/-! ### Reading back -/

/-- What `_dequantize` makes of the symbol at a position. -/
def readBack (pl : Pipeline) (part : LayerPartLayout) (n : Nat) (slot : ExactSlot K)
    (s : QuantSection) (x : Index) : K :=
  (((pl.outputOf part n s).get slot.arenaB x).toNat : K) *
      (pl.row part n s s.auxScaleOffset false).get slot.aux (auxKey s.axis x) +
    (pl.row part n s s.auxMinOffset false).get slot.aux (auxKey s.axis x)

theorem exactDequantizeSection_spec {F : Type} [Field F] {slot : ExactSlot F}
    (h : SectionRoom pl part n slot s) :
    ∃ arenaA, pl.exactDequantizeSection part (pl.elementsA part n) (pl.symbolsB part n) slot s =
        some { slot with arenaA } ∧
      (∀ x : Index, x.Inside (pl.sourceOf part n s).shape →
        (pl.sourceOf part n s).get arenaA x = pl.readBack part n slot s x) ∧
      ∀ a, ¬ (pl.sourceOf part n s).Covers 1 a → arenaA a = slot.arenaA a := by
  have hmin := h.view s.auxMinOffset List.mem_cons_self false
  have hscale := h.view s.auxScaleOffset (List.mem_cons_of_mem _ List.mem_cons_self) false
  have hshape : auxShape s.axis ((pl.elementsA part n).shape.1, (pl.elementsA part n).shape.2.1)
      s.headCount part.headSize = pl.rowShape part n s := rfl
  refine ⟨(pl.sourceOf part n s).put (pl.readBack part n slot s) slot.arenaA, ?_, ?_, ?_⟩
  · simp only [exactDequantizeSection, hshape, hmin, hscale, Option.bind_eq_bind, Option.bind_some,
      Option.pure_def]
    rfl
  · exact fun x hx => View.get_put (sourceOf_separated h.heads) hx
  · exact fun a ha => View.put_frame ha

/-- The loop over the sections reads all of them back. -/
theorem foldlM_dequantize {F : Type} [Field F] {slot : ExactSlot F} {l : List QuantSection}
    (hroom : ∀ s ∈ l, SectionRoom pl part n slot s)
    (hapart : l.Pairwise (SectionsApart pl part n)) :
    ∃ arenaA, l.foldlM (pl.exactDequantizeSection part (pl.elementsA part n)
        (pl.symbolsB part n)) slot = some { slot with arenaA } ∧
      (∀ s ∈ l, ∀ x : Index, x.Inside (pl.sourceOf part n s).shape →
        (pl.sourceOf part n s).get arenaA x = pl.readBack part n slot s x) ∧
      ∀ a, (∀ s ∈ l, ¬ (pl.sourceOf part n s).Covers 1 a) → arenaA a = slot.arenaA a := by
  induction l generalizing slot with
  | nil => exact ⟨slot.arenaA, rfl, fun s hs => absurd hs List.not_mem_nil, fun _ _ => rfl⟩
  | cons s l ih =>
      obtain ⟨hfirst, hrest⟩ := List.pairwise_cons.mp hapart
      obtain ⟨next, hnext, hread, hframe⟩ :=
        exactDequantizeSection_spec (hroom s List.mem_cons_self)
      obtain ⟨arenaA, harena, hall, hkeep⟩ := @ih { slot with arenaA := next }
        (fun t ht => (hroom t (List.mem_cons_of_mem _ ht)).congr rfl) hrest
      refine ⟨arenaA, ?_, ?_, ?_⟩
      · rw [List.foldlM_cons, hnext]
        exact harena
      · intro t ht x hx
        rcases List.mem_cons.mp ht with rfl | ht
        · rw [← hread x hx]
          exact hkeep _ fun s' hs' hc => (hfirst s' hs').source _ ⟨View.covers_addr hx, hc⟩
        · exact hall t ht x hx
      · intro a ha
        rw [hkeep a fun t ht => ha t (List.mem_cons_of_mem _ ht)]
        exact hframe a (ha s List.mem_cons_self)

/-- **A stored symbol is read back within half of the scale of its group.** -/
theorem abs_readBack_sub_le {arenaA : Nat → K} (hroom : SectionRoom pl part n slot s)
    (h : Stored pl part n arenaA slot s) {x : Index}
    (hx : x.Inside (pl.sourceOf part n s).shape) :
    |pl.readBack part n slot s x - (pl.sourceOf part n s).get arenaA x| ≤
      (pl.row part n s s.auxScaleOffset false).get slot.aux (auxKey s.axis x) / 2 := by
  have hkey : (auxKey s.axis x).Inside (pl.rowShape part n s) := auxKey_inside hx s.axis
  have hm : 0 < s.numLevels - 1 := Nat.sub_pos_of_lt hroom.levels.1
  rw [readBack, h.scale _ hkey, h.minimum _ hkey, h.symbols x hx]
  exact abs_symbolOf_mul_add_sub_le clampMin_pos hm (Nat.le_refl _) (aminOf_le (mem_groupOf hx))
    (le_amaxOf (mem_groupOf hx))

end Section

end Pipeline

end KVServe.Runtime

import KVServe.Compression.LayerCalls

/-!
# KVServe.Compression.Lossy

**Compression with components that lose precision.** A layer that goes through the transformer
and the quantizer and back is another layer of the same shape and dtype. On these layers the
same components are exact, so a tensor travels as the stack of its restored layers does: what
compression makes of one is what it makes of the other, and decompression cannot tell them
apart.
-/

namespace KVServe.Compression

variable {D S : Type} {dt : DTypes D}

namespace Manager

/-! ### Trips -/

/-- What a layer is on its way through the components and back. -/
structure Trip (dt : DTypes D) (S : Type) where
  transformed : Tensor dt
  quantized : Tensor dt
  params : Meta dt S
  dequantized : Tensor dt
  restored : Tensor dt

/-- A layer through a pipeline with a quantizer, and back. Parameters are dequantized with as
they come off the wire. -/
def trip (m : Manager dt S) (layerId : Nat) (t : Tensor dt) : Option (Trip dt S) :=
  if m.useDirectQuant then do
    let (q, p) ← m.quantizeOut layerId t
    let y ← m.dequantize layerId q p.listed
    return ⟨t, q, p, y, y⟩
  else do
    let y ← m.transformLayer layerId t
    let (q, p) ← m.quantize layerId y
    let z ← m.dequantize layerId q p.listed
    let back ← m.inverseLayer layerId z
    return ⟨y, q, p, z, back⟩

/-- The components keep the shape of a layer and restore its dtype; the dtype they give a layer
depends on its dtype only. Only the codec has to be exact. -/
structure Lossy (m : Manager dt S) : Prop where
  quantizes : m.has .quantizer = true
  cast_self : ∀ t, m.cast t.dtype t = t
  shape_transform : ∀ {id x y}, m.transform id x = some y → y.shape = x.shape
  dtype_transform : ∀ {id id' x x' y y'}, m.transform id x = some y →
    m.transform id' x' = some y' → x.dtype = x'.dtype → y.dtype = y'.dtype
  inverse_transform : ∀ {id x y z back}, m.transform id x = some y → z.dtype = y.dtype →
    m.inverse id z = some back → back.shape = z.shape ∧ back.dtype = x.dtype
  shape_quantize : ∀ {id x q p}, m.quantize id x = some (q, p) → q.shape = x.shape
  dtype_quantize : ∀ {id id' x x' q q' p p'}, m.quantize id x = some (q, p) →
    m.quantize id' x' = some (q', p') → x.dtype = x'.dtype → q.dtype = q'.dtype
  isParams_quantize : ∀ {id x q p}, m.quantize id x = some (q, p) → IsParams p
  dequantize_quantize : ∀ {id x q p y}, m.quantize id x = some (q, p) →
    m.dequantize id q p.listed = some y → y.shape = x.shape ∧ y.dtype = x.dtype
  shape_quantizeOut : ∀ {id x q p}, m.quantizeOut id x = some (q, p) → q.shape = x.shape
  dtype_quantizeOut : ∀ {id x q p}, m.quantizeOut id x = some (q, p) → q.dtype = dt.uint8
  isParams_quantizeOut : ∀ {id x q p}, m.quantizeOut id x = some (q, p) → IsParams p
  dequantize_quantizeOut : ∀ {id x q p y}, m.quantizeOut id x = some (q, p) →
    m.dequantize id q p.listed = some y → y.shape = x.shape ∧ y.dtype = x.dtype
  decode_encode : ∀ {id t bytes}, m.encode id t = .ok bytes → ∀ id' device,
    m.decode id' (.ofU8 bytes) (dt.name t.dtype) t.shape device = some t

variable {m : Manager dt S} {id : Nat} {t : Tensor dt} {r : Trip dt S}

theorem trip_direct (hdirect : m.useDirectQuant = true) : m.trip id t = some r ↔
    r.transformed = t ∧ m.quantizeOut id t = some (r.quantized, r.params) ∧
      m.dequantize id r.quantized r.params.listed = some r.dequantized ∧
      r.restored = r.dequantized := by
  rw [trip, if_pos hdirect]
  constructor
  · intro h
    obtain ⟨⟨q, p⟩, hq, h⟩ := Option.bind_eq_some_iff.mp h
    obtain ⟨y, hy, h⟩ := Option.bind_eq_some_iff.mp h
    cases h
    exact ⟨rfl, hq, hy, rfl⟩
  · rintro ⟨hx, hq, hy, hback⟩
    obtain ⟨x, q, p, y, back⟩ := r
    obtain rfl : x = t := hx
    obtain rfl : back = y := hback
    simp only [hq, hy, Option.bind_eq_bind, Option.bind_some, Option.pure_def]

theorem trip_loop (hdirect : m.useDirectQuant = false) : m.trip id t = some r ↔
    m.transformLayer id t = some r.transformed ∧
      m.quantize id r.transformed = some (r.quantized, r.params) ∧
      m.dequantize id r.quantized r.params.listed = some r.dequantized ∧
      m.inverseLayer id r.dequantized = some r.restored := by
  rw [trip, hdirect, if_neg Bool.false_ne_true]
  constructor
  · intro h
    obtain ⟨y, hy, h⟩ := Option.bind_eq_some_iff.mp h
    obtain ⟨⟨q, p⟩, hq, h⟩ := Option.bind_eq_some_iff.mp h
    obtain ⟨z, hz, h⟩ := Option.bind_eq_some_iff.mp h
    obtain ⟨back, hback, h⟩ := Option.bind_eq_some_iff.mp h
    cases h
    exact ⟨hy, hq, hz, hback⟩
  · rintro ⟨hy, hq, hz, hback⟩
    simp only [hy, hq, hz, hback, Option.bind_eq_bind, Option.bind_some, Option.pure_def]

/-- **A trip keeps shape and dtype.** -/
structure Trip.Keeps (m : Manager dt S) (id : Nat) (t : Tensor dt) (r : Trip dt S) : Prop where
  shape : r.restored.shape = t.shape
  dtype : r.restored.dtype = t.dtype
  shape_dequantized : r.dequantized.shape = t.shape
  shape_quantized : r.quantized.shape = t.shape
  isParams : IsParams r.params

theorem Lossy.keeps (h : m.Lossy) (hr : m.trip id t = some r) : r.Keeps m id t := by
  cases hdirect : m.useDirectQuant with
  | true =>
      obtain ⟨-, hq, hy, hback⟩ := (trip_direct hdirect).mp hr
      obtain ⟨hshape, hdtype⟩ := h.dequantize_quantizeOut hq hy
      exact ⟨hback ▸ hshape, hback ▸ hdtype, hshape, h.shape_quantizeOut hq,
        h.isParams_quantizeOut hq⟩
  | false =>
      obtain ⟨hy, hq, hz, hback⟩ := (trip_loop hdirect).mp hr
      obtain ⟨hshape, hdtype⟩ := h.dequantize_quantize hq hz
      have hshapeY : r.transformed.shape = t.shape := by
        unfold transformLayer at hy
        split at hy
        · exact h.shape_transform hy
        · rw [← Option.some.inj hy]
      have hrestored : r.restored.shape = r.dequantized.shape ∧ r.restored.dtype = t.dtype := by
        unfold transformLayer at hy
        unfold inverseLayer at hback
        split at hy
        · rename_i ht
          rw [if_pos ht] at hback
          exact h.inverse_transform hy hdtype hback
        · rename_i ht
          rw [if_neg ht] at hback
          rw [← Option.some.inj hback, Option.some.inj hy]
          exact ⟨rfl, hdtype⟩
      exact ⟨hrestored.1.trans (hshape.trans hshapeY), hrestored.2, hshape.trans hshapeY,
        (h.shape_quantize hq).trans hshapeY, h.isParams_quantize hq⟩

/-- The dtypes on the way depend on that of the layer. -/
theorem Lossy.dtype_trip (h : m.Lossy) (hdirect : m.useDirectQuant = false) {id' : Nat}
    {t' : Tensor dt} {r' : Trip dt S} (hr : m.trip id t = some r) (hr' : m.trip id' t' = some r')
    (hdtype : t.dtype = t'.dtype) :
    r.dequantized.dtype = r'.dequantized.dtype ∧ r.quantized.dtype = r'.quantized.dtype := by
  obtain ⟨hy, hq, hz, -⟩ := (trip_loop hdirect).mp hr
  obtain ⟨hy', hq', hz', -⟩ := (trip_loop hdirect).mp hr'
  have hmid : r.transformed.dtype = r'.transformed.dtype := by
    unfold transformLayer at hy hy'
    split at hy
    · rename_i ht
      rw [if_pos ht] at hy'
      exact h.dtype_transform hy hy' hdtype
    · rename_i ht
      rw [if_neg ht] at hy'
      rw [← Option.some.inj hy, ← Option.some.inj hy', hdtype]
  refine ⟨?_, h.dtype_quantize hq hq' hmid⟩
  rw [(h.dequantize_quantize hq hz).2, (h.dequantize_quantize hq' hz').2, hmid]

/-! ### The components on restored layers -/

section OnTrips

variable [DecidableEq D]

/-- The trip of a layer whose tensor at some stop is given. -/
def way (trips : Nat → Option (Trip dt S)) (use : Bool) (stop : Trip dt S → Tensor dt) (id : Nat)
    (z : Tensor dt) : Option (Trip dt S) :=
  (trips id).bind fun r => if use = true ∧ z = stop r then some r else none

/-- The manager on the restored layers of some trips: forwards its components go the ways of
these trips, backwards they are what they are. -/
def onTrips (m : Manager dt S) (trips : Nat → Option (Trip dt S)) : Manager dt S :=
  let loop := !m.useDirectQuant
  let stored := fun r : Trip dt S => (r.quantized, r.params)
  m.withComponents
    (fun id z => (way trips (loop && m.has .transformer) Trip.restored id z).map Trip.dequantized)
    (fun id z => (way trips loop Trip.dequantized id z).map stored)
    (fun id z => (way trips m.useDirectQuant Trip.restored id z).map stored)

variable {trips : Nat → Option (Trip dt S)} {use : Bool} {stop : Trip dt S → Tensor dt}
  {z : Tensor dt}

theorem way_eq_some :
    way trips use stop id z = some r ↔ trips id = some r ∧ use = true ∧ z = stop r := by
  rw [way, Option.bind_eq_some_iff]
  constructor
  · rintro ⟨r', hr', h⟩
    split at h
    · rename_i huse
      cases h
      exact ⟨hr', huse⟩
    · cases h
  · rintro ⟨hr, huse⟩
    exact ⟨r, hr, if_pos huse⟩

theorem exists_way {α : Type} {f : Trip dt S → α} {y : α}
    (h : (way trips use stop id z).map f = some y) :
    ∃ r, trips id = some r ∧ use = true ∧ z = stop r ∧ f r = y := by
  obtain ⟨r, hr, hy⟩ := Option.map_eq_some_iff.mp h
  obtain ⟨htrip, huse, hz⟩ := way_eq_some.mp hr
  exact ⟨r, htrip, huse, hz, hy⟩

/-- **On the restored layers the components are exact.** -/
theorem onTrips_exact (h : m.Lossy) {shape : List Nat} {dtype : D} {layers : Nat → Option (Tensor dt)}
    (hlayers : ∀ {id t}, layers id = some t → t.shape = shape ∧ t.dtype = dtype) :
    (m.onTrips fun id => (layers id).bind (m.trip id)).Exact := by
  have htrip : ∀ {id r}, (layers id).bind (m.trip id) = some r → ∃ t, layers id = some t ∧
      m.trip id t = some r ∧ r.Keeps m id t := by
    intro id r hr
    obtain ⟨t, ht, hr⟩ := Option.bind_eq_some_iff.mp hr
    exact ⟨t, ht, hr, h.keeps hr⟩
  have hdtypes : ∀ {id id' t t' r r'}, m.useDirectQuant = false → layers id = some t →
      layers id' = some t' → m.trip id t = some r → m.trip id' t' = some r' →
      r.dequantized.dtype = r'.dequantized.dtype ∧ r.quantized.dtype = r'.quantized.dtype := by
    intro id id' t t' r r' hdirect ht ht' hr hr'
    exact h.dtype_trip hdirect hr hr' ((hlayers ht).2.trans (hlayers ht').2.symm)
  constructor
  case cast_self => exact h.cast_self
  case decode_encode => exact h.decode_encode
  case shape_transform =>
    intro id x y hy
    obtain ⟨r, hr, -, rfl, rfl⟩ := exists_way hy
    obtain ⟨t, -, -, hkeeps⟩ := htrip hr
    exact hkeeps.shape_dequantized.trans hkeeps.shape.symm
  case dtype_transform =>
    intro id id' x x' y y' hy hy' _
    obtain ⟨r, hr, huse, rfl, rfl⟩ := exists_way hy
    obtain ⟨r', hr', -, rfl, rfl⟩ := exists_way hy'
    obtain ⟨t, ht, hr, -⟩ := htrip hr
    obtain ⟨t', ht', hr', -⟩ := htrip hr'
    simp only [Bool.and_eq_true, Bool.not_eq_true'] at huse
    exact (hdtypes huse.1 ht ht' hr hr').1
  case inverse_transform =>
    intro id x y hy
    obtain ⟨r, hr, huse, rfl, rfl⟩ := exists_way hy
    obtain ⟨t, -, hr, -⟩ := htrip hr
    simp only [Bool.and_eq_true, Bool.not_eq_true'] at huse
    have hback := ((trip_loop huse.1).mp hr).2.2.2
    rw [inverseLayer, if_pos huse.2] at hback
    exact hback
  case shape_quantize =>
    intro id x q p hq
    obtain ⟨r, hr, -, rfl, hstored⟩ := exists_way hq
    cases hstored
    obtain ⟨t, -, -, hkeeps⟩ := htrip hr
    exact hkeeps.shape_quantized.trans hkeeps.shape_dequantized.symm
  case dtype_quantize =>
    intro id id' x x' q q' p p' hq hq' _
    obtain ⟨r, hr, huse, rfl, hstored⟩ := exists_way hq
    obtain ⟨r', hr', -, rfl, hstored'⟩ := exists_way hq'
    cases hstored
    cases hstored'
    obtain ⟨t, ht, hr, -⟩ := htrip hr
    obtain ⟨t', ht', hr', -⟩ := htrip hr'
    exact (hdtypes (by simpa using huse) ht ht' hr hr').2
  case isParams_quantize =>
    intro id x q p hq
    obtain ⟨r, hr, -, rfl, hstored⟩ := exists_way hq
    cases hstored
    obtain ⟨t, -, -, hkeeps⟩ := htrip hr
    exact hkeeps.isParams
  case dequantize_quantize =>
    intro id x q p hq
    obtain ⟨r, hr, huse, rfl, hstored⟩ := exists_way hq
    cases hstored
    obtain ⟨t, -, hr, -⟩ := htrip hr
    exact ((trip_loop (by simpa using huse)).mp hr).2.2.1
  case shape_quantizeOut =>
    intro id x q p hq
    obtain ⟨r, hr, -, rfl, hstored⟩ := exists_way hq
    cases hstored
    obtain ⟨t, -, -, hkeeps⟩ := htrip hr
    exact hkeeps.shape_quantized.trans hkeeps.shape.symm
  case dtype_quantizeOut =>
    intro id x q p hq
    obtain ⟨r, hr, huse, rfl, hstored⟩ := exists_way hq
    cases hstored
    obtain ⟨t, -, hr, -⟩ := htrip hr
    exact h.dtype_quantizeOut ((trip_direct huse).mp hr).2.1
  case isParams_quantizeOut =>
    intro id x q p hq
    obtain ⟨r, hr, -, rfl, hstored⟩ := exists_way hq
    cases hstored
    obtain ⟨t, -, -, hkeeps⟩ := htrip hr
    exact hkeeps.isParams
  case dequantize_quantizeOut =>
    intro id x q p hq
    obtain ⟨r, hr, huse, rfl, hstored⟩ := exists_way hq
    cases hstored
    obtain ⟨t, -, hr, -⟩ := htrip hr
    obtain ⟨-, -, hback, heq⟩ := (trip_direct huse).mp hr
    rw [heq]
    exact hback

/-! ### Compression cannot tell them apart -/

variable {count : Nat} {x x' : Tensor dt} {layout : CodecLayout}

/-- The layers of `x'` are those of `x` after their trips. -/
structure Restores (m : Manager dt S) (trips : Nat → Option (Trip dt S)) (count : Nat)
    (x x' : Tensor dt) : Prop where
  shape : x'.shape = x.shape
  dtype : x'.dtype = x.dtype
  layer : ∀ i < count, ∃ t r, x.layer i = some t ∧ m.trip i t = some r ∧ trips i = some r ∧
    x'.layer i = some r.restored

/-- On its trip a restored layer leaves what the layer itself has left. -/
theorem quantizeOut_onTrips (hdirect : m.useDirectQuant = true) (hr : m.trip id t = some r)
    (htrips : trips id = some r) :
    (m.onTrips trips).quantizeOut id r.restored = m.quantizeOut id t := by
  obtain ⟨-, hq, -, -⟩ := (trip_direct hdirect).mp hr
  have hway : way trips m.useDirectQuant Trip.restored id r.restored = some r :=
    way_eq_some.mpr ⟨htrips, hdirect, rfl⟩
  rw [hq]
  exact congrArg (Option.map fun r : Trip dt S => (r.quantized, r.params)) hway

theorem processLayer_onTrips (hq : m.has .quantizer = true) (hdirect : m.useDirectQuant = false)
    (hr : m.trip id t = some r) (htrips : trips id = some r) :
    (m.onTrips trips).processLayer id r.restored = m.processLayer id t := by
  obtain ⟨hy, hstored, -, hback⟩ := (trip_loop hdirect).mp hr
  have hloop : (!m.useDirectQuant) = true := by rw [hdirect]; rfl
  have hquantize : (m.onTrips trips).quantize id r.dequantized = some (r.quantized, r.params) :=
    congrArg (Option.map fun r : Trip dt S => (r.quantized, r.params))
      (way_eq_some.mpr ⟨htrips, hloop, rfl⟩ :
        way trips (!m.useDirectQuant) Trip.dequantized id r.dequantized = some r)
  have htransform : (m.onTrips trips).transformLayer id r.restored = some r.dequantized := by
    show (if m.has .transformer = true then _ else _) = _
    split
    · rename_i ht
      have hway : way trips (!m.useDirectQuant && m.has .transformer) Trip.restored id r.restored =
          some r := way_eq_some.mpr ⟨htrips, by rw [hloop, ht]; rfl, rfl⟩
      exact congrArg (Option.map Trip.dequantized) hway
    · rename_i ht
      rw [inverseLayer, if_neg ht] at hback
      exact hback.symm
  have hhas : (m.onTrips trips).has .quantizer = true := hq
  rw [processLayer, processLayer, htransform, hy, Option.bind_some, Option.bind_some, quantizeLayer,
    quantizeLayer, if_pos hhas, if_pos hq, hquantize, hstored]

/-- **The calls on the restored layers** have the answers of those on the layers. -/
theorem Restores.sameAnswers (hq : m.has .quantizer = true)
    (hres : Restores m trips count x x') : SameAnswers m (m.onTrips trips) 0 count x x' := by
  refine ⟨hres.shape, hres.dtype, fun i hi => ?_⟩
  have hsame : (m.onTrips trips).useDirectQuant = m.useDirectQuant := rfl
  obtain ⟨t, r, ht, hr, htrips, ht'⟩ := hres.layer i hi
  rw [ht, ht', Nat.zero_add]
  cases hdirect : m.useDirectQuant with
  | true =>
      rw [answer_direct hdirect, answer_direct (hsame.trans hdirect), Option.bind_some,
        Option.bind_some, quantizeOut_onTrips hdirect hr htrips]
  | false =>
      rw [answer_loop hdirect, answer_loop (hsame.trans hdirect), Option.bind_some,
        Option.bind_some, processLayer_onTrips hq hdirect hr htrips]

variable {requestId : String} {extra : List (Key × Meta dt S)}

/-- **The whole payload.** -/
theorem compressAllLayers_onTrips (hq : m.has .quantizer = true)
    (hres : Restores m trips count x x') {shape : List Nat} (hx : x.shape = count :: shape) :
    (m.onTrips trips).compressAllLayers layout x' requestId extra =
      m.compressAllLayers layout x requestId extra :=
  SameAnswers.compressAllLayers (hres.sameAnswers hq) hx

/-! ### The restored tensor -/

/-- **A tensor with lossy components travels as the stack of its restored layers.** Where the
components serve every layer, there and back, compression succeeds, the wire carries the payload
and decompression gives the restored layers. -/
theorem Lossy.carried (h : m.Lossy) {two b s hd d : Nat} (hx : x.shape = [count, two, b, s, hd, d])
    (hcount : 0 < count) (htrips : ∀ i < count, ∃ r, (x.layer i).bind (m.trip i) = some r)
    (henabled : m.enabled = true) (hmin : m.minCompressSize ≤ x.nbytes) (hchunk : 0 < m.chunkSize)
    (requestId : String) (hextra : Extra x extra) :
    ∃ c x', m.compressAllLayers layout x requestId extra = some c ∧ m.Carried x' extra c ∧
      x'.shape = x.shape ∧ x'.dtype = x.dtype ∧
      ∀ i < count, ∃ r, (x.layer i).bind (m.trip i) = some r ∧ x'.layer i = some r.restored := by
  let trips := fun id => (x.layer id).bind (m.trip id)
  have hlayers : ∀ {id t}, x.layer id = some t → t.shape = [two, b, s, hd, d] ∧ t.dtype = x.dtype :=
    fun ht => ⟨((Tensor.layer_eq_some hx).mp ht).2.1, ((Tensor.layer_eq_some hx).mp ht).2.2.1⟩
  have hexact : (m.onTrips trips).Exact := onTrips_exact h hlayers
  -- the stack of the restored layers
  obtain ⟨rs, hrs⟩ := exists_mapM_range htrips
  obtain ⟨hlength, hget⟩ := mapM_range_eq_some.mp hrs
  have hr : ∀ i < count, ∃ t r, x.layer i = some t ∧ m.trip i t = some r ∧ rs[i]? = some r := by
    intro i hi
    obtain ⟨r, hr⟩ := htrips i hi
    obtain ⟨t, ht, htrip⟩ := Option.bind_eq_some_iff.mp hr
    exact ⟨t, r, ht, htrip, (hget i hi).symm.trans hr⟩
  obtain ⟨x', -, hshape, hdtype, hlayer⟩ := @Tensor.exists_stack _ dt [two, b, s, hd, d] x.dtype
    (rs.map (·.restored)) fun part hpart => by
      obtain ⟨r, hmem, rfl⟩ := List.mem_map.mp hpart
      obtain ⟨i, hi⟩ := List.mem_iff_getElem?.mp hmem
      obtain ⟨t, r', ht, htrip, hr'⟩ := hr i (hlength ▸ (List.getElem?_eq_some_iff.mp hi).1)
      obtain rfl := Option.some.inj (hr'.symm.trans hi)
      have hkeeps := h.keeps htrip
      exact ⟨hkeeps.shape.trans (hlayers ht).1, hkeeps.dtype.trans (hlayers ht).2⟩
  rw [List.length_map, hlength] at hshape
  have hres : Restores m trips count x x' := by
    refine ⟨hshape.trans hx.symm, hdtype, fun i hi => ?_⟩
    obtain ⟨t, r, ht, htrip, hri⟩ := hr i hi
    refine ⟨t, r, ht, htrip, ?_, ?_⟩
    · show (x.layer i).bind (m.trip i) = some r
      rw [ht, Option.bind_some, htrip]
    · rw [hlayer, List.getElem?_map, hri, Option.map_some]
  have hserves : (m.onTrips trips).Serves 0 count x' := by
    refine ⟨fun hdirect i hi => ?_, fun hdirect i hi => ?_⟩
    · have hdirect : m.useDirectQuant = true := hdirect
      obtain ⟨t, r, ht, htrip, htrips, ht'⟩ := hres.layer i hi
      rw [ht', Nat.zero_add, Option.bind_some, quantizeOut_onTrips hdirect htrip htrips]
      exact ⟨_, ((trip_direct hdirect).mp htrip).2.1⟩
    · have hdirect : m.useDirectQuant = false := hdirect
      obtain ⟨t, r, ht, htrip, htrips, ht'⟩ := hres.layer i hi
      obtain ⟨hy, hq, -, -⟩ := (trip_loop hdirect).mp htrip
      rw [ht', Nat.zero_add, Option.bind_some, processLayer_onTrips h.quantizes hdirect htrip htrips,
        processLayer, hy, Option.bind_some, quantizeLayer, if_pos h.quantizes, hq]
      exact ⟨_, rfl⟩
  have hpipeline : m.pipeline ≠ [] := by
    intro hnil
    have := h.quantizes
    rw [has, hnil] at this
    simp at this
  have hanswers := hres.sameAnswers h.quantizes
  have hextra' : Extra x' extra :=
    ⟨hextra.originalDtype.trans (by rw [hanswers.dtypeName]), hextra.noTensor, hextra.keys,
      hextra.nodup⟩
  obtain ⟨c, hc⟩ : ∃ c, (m.onTrips trips).compressAllLayers layout x' requestId extra = some c :=
    exists_compressAllLayers hexact.regular hshape hcount hserves henabled hpipeline
      (hanswers.nbytes.symm ▸ hmin) hchunk requestId extra
  obtain ⟨hconsistent, hnames, hplain, hwire, hmetadata, hrestored⟩ :=
    Adapter.carried_of_compress hexact hextra' hc
  rw [compressAllLayers_onTrips h.quantizes hres hx] at hc
  refine ⟨c, x', hc, ⟨hconsistent, hnames, hplain, hwire, hmetadata, hrestored⟩, hres.shape,
    hdtype, fun i hi => ?_⟩
  obtain ⟨t, r, ht, htrip, -, ht'⟩ := hres.layer i hi
  exact ⟨r, by rw [ht, Option.bind_some, htrip], ht'⟩

end OnTrips

end Manager

end KVServe.Compression

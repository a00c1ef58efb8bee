import V3C.Codec.Traverse
import V3C.Segmenter.PatchDepth

/-! The near map of a component: its depths are those of points of the component, and there is a
pixel, with its block, for each of them. -/
namespace V3C.SegmentedPatch
open Codec

variable {settings : DepthSettings} {projectionMode : ℕ} {isAdditionalProjectionPlane : Bool}
  {component visited : List SegmentPoint} {patch patch' : SegmentedPatch}

/-- The box of a component has its points, and the maps have a cell for every pixel of it. -/
structure Boxed (settings : DepthSettings) (projectionMode : ℕ) (isAdditionalProjectionPlane : Bool)
    (component : List SegmentPoint) (patch : SegmentedPatch) : Prop where
  mode : patch.projectionMode = projectionMode
  additional : patch.isAdditionalProjectionPlane = isAdditionalProjectionPlane
  tangent : ∀ point ∈ component, point.tangent - patch.u1 < patch.sizeU
  bitangent : ∀ point ∈ component, point.bitangent - patch.v1 < patch.sizeV
  sizeU_le : patch.sizeU ≤ 32768
  sizeV_le : patch.sizeV ≤ 32768
  depth0 : patch.depth0.length = patch.sizeU * patch.sizeV
  depth0PccIdx : patch.depth0PccIdx.length = patch.sizeU * patch.sizeV
  depthEOM : patch.depthEOM = if settings.useEnhancedOccupancyMapCode then
    List.replicate (patch.sizeU * patch.sizeV) 0 else []

/-- The pixels that have a depth have it from a point, and lie in a block. -/
structure NearMap (settings : DepthSettings) (projectionMode : ℕ)
    (isAdditionalProjectionPlane : Bool) (component visited : List SegmentPoint)
    (sizeU0 sizeV0 : ℕ) (patch : SegmentedPatch) : Prop
    extends Boxed settings projectionMode isAdditionalProjectionPlane component patch where
  point : ∀ p d, patch.depth0[p]? = some d → d ≠ infiniteDepth →
    ∃ point ∈ visited, patch.pixel point = p ∧ (point.normal : ℤ) = d ∧
      patch.depth0PccIdx[p]? = some point.index
  blockU : ∀ p d, patch.depth0[p]? = some d → d ≠ infiniteDepth →
    p % patch.sizeU / settings.occupancyResolution < sizeU0
  blockV : ∀ p d, patch.depth0[p]? = some d → d ≠ infiniteDepth →
    p / patch.sizeU / settings.occupancyResolution < sizeV0
  le : ∀ d ∈ patch.depth0, d ≤ infiniteDepth

theorem exists_allocate (settings : DepthSettings) (projectionMode : ℕ)
    (isAdditionalProjectionPlane : Bool) (hcomponent : component ≠ []) :
    ∃ patch, allocate settings projectionMode isAdditionalProjectionPlane component = some patch ∧
      patch.NearMap settings projectionMode isAdditionalProjectionPlane component []
        (patch.sizeU0 + 1) (patch.sizeV0 + 1) ∧
      (∀ point ∈ component, patch.u1 ≤ point.tangent ∧ patch.v1 ≤ point.bitangent) ∧
      patch.d1 = (if projectionMode = 0 then infiniteDepth.toNat else 0) ∧
      (∀ d ∈ patch.depth0, d = infiniteDepth) := by
  have hmin : ∀ f : SegmentPoint → ℕ, (∀ point, f point < 32768) →
      ∃ m, (component.map f).min? = some m ∧
        (∀ point ∈ component, m ≤ f point ∧
          f point - m < 1 + ((component.map f).foldl max 0 - m)) ∧
        1 + ((component.map f).foldl max 0 - m) ≤ 32768 := by
    intro f hf
    have hlt : (component.map f).foldl max 0 < 32768 := by
      apply foldl_max_lt (by omega)
      intro x hx
      obtain ⟨point, -, rfl⟩ := List.mem_map.mp hx
      exact hf point
    cases hm : (component.map f).min? with
    | none => exact absurd (List.map_eq_nil_iff.mp (List.min?_eq_none_iff.mp hm)) hcomponent
    | some m =>
      refine ⟨m, rfl, ?_, by omega⟩
      intro point hpoint
      have hmem : f point ∈ component.map f := List.mem_map_of_mem hpoint
      have hle : m ≤ f point := (List.min?_eq_some_iff.mp hm).2 _ hmem
      have hmax : f point ≤ (component.map f).foldl max 0 := le_foldl_max (Or.inr hmem)
      omega
  obtain ⟨minU, hminU, hu, hsizeU⟩ := hmin SegmentPoint.tangent SegmentPoint.tangent_lt
  obtain ⟨minV, hminV, hv, hsizeV⟩ := hmin SegmentPoint.bitangent SegmentPoint.bitangent_lt
  have hrun : ∃ patch, allocate settings projectionMode isAdditionalProjectionPlane component =
      some patch := by
    unfold allocate
    rw [hminU, Option.bind_eq_bind, Option.bind_some, hminV]
    exact ⟨_, rfl⟩
  obtain ⟨patch, hpatch⟩ := hrun
  refine ⟨patch, hpatch, ?_⟩
  unfold allocate at hpatch
  rw [hminU, Option.bind_eq_bind, Option.bind_some, hminV, Option.bind_some] at hpatch
  obtain rfl := Option.some.inj hpatch
  refine ⟨?_, ?_, rfl, ?_⟩
  · have hnone : ∀ (n p : ℕ) (d : ℤ), (List.replicate n infiniteDepth)[p]? = some d →
        d = infiniteDepth := by
      intro n p d hd
      exact List.eq_of_mem_replicate (List.mem_of_getElem? hd)
    constructor
    · constructor
      · rfl
      · rfl
      · exact fun point hpoint => (hu point hpoint).2
      · exact fun point hpoint => (hv point hpoint).2
      · exact hsizeU
      · exact hsizeV
      · exact List.length_replicate
      · exact List.length_replicate
      · rfl
    · exact fun p d hd hne => absurd (hnone _ p d hd) hne
    · exact fun p d hd hne => absurd (hnone _ p d hd) hne
    · exact fun p d hd hne => absurd (hnone _ p d hd) hne
    · exact fun d hd => (List.eq_of_mem_replicate hd).le
  · exact fun point hpoint => ⟨(hu point hpoint).1, (hv point hpoint).1⟩
  · exact fun d hd => List.eq_of_mem_replicate hd

/-- The pixel of a point of the component. -/
theorem Boxed.pixel_lt
    (h : patch.Boxed settings projectionMode isAdditionalProjectionPlane component)
    {point : SegmentPoint} (hpoint : point ∈ component) :
    patch.pixel point < patch.sizeU * patch.sizeV :=
  V3C.pixel_lt (h.tangent point hpoint) (h.bitangent point hpoint)

theorem Boxed.pixel_mod
    (h : patch.Boxed settings projectionMode isAdditionalProjectionPlane component)
    {point : SegmentPoint} (hpoint : point ∈ component) :
    patch.pixel point % patch.sizeU = point.tangent - patch.u1 := by
  have hlt := h.tangent point hpoint
  unfold pixel
  rw [Nat.mul_comm, Nat.mul_add_mod, Nat.mod_eq_of_lt hlt]

theorem Boxed.pixel_div
    (h : patch.Boxed settings projectionMode isAdditionalProjectionPlane component)
    {point : SegmentPoint} (hpoint : point ∈ component) :
    patch.pixel point / patch.sizeU = point.bitangent - patch.v1 := by
  have hlt := h.tangent point hpoint
  unfold pixel
  rw [Nat.mul_comm, Nat.mul_add_div (by omega), Nat.div_eq_of_lt hlt, Nat.add_zero]

/-- The depths of a point are not negative, so that `d1` is defined. -/
theorem exists_nextD1 (patch : SegmentedPatch) (hlevel : 0 < settings.minLevel) (d : ℕ) :
    ∃ d1, patch.nextD1 settings d = some d1 := by
  unfold nextD1
  rw [if_neg (by omega)]
  by_cases hmode : patch.projectionMode = 0
  · rw [if_pos hmode]
    exact ⟨_, rfl⟩
  · rw [if_neg hmode]
    dsimp only
    have hlow : (0 : ℤ) ≤ max (toInt16 patch.d1) d := le_max_of_le_right (Int.natCast_nonneg d)
    have hdiv : -max (toInt16 patch.d1) (d : ℤ) / settings.minLevel ≤ 0 :=
      Int.ediv_nonpos_of_nonpos_of_neg (by omega) (by omega)
    rw [if_neg (by omega)]
    exact ⟨_, rfl⟩

/-- What a point does to the near map. -/
theorem addNear_cases {point : SegmentPoint} {depth : ℤ}
    (hdepth : patch.depth0[patch.pixel point]? = some depth)
    (hlength : patch.depth0PccIdx.length = patch.depth0.length) (hlevel : 0 < settings.minLevel) :
    (patch.isValidPoint depth point.normal = false ∧ addNear settings patch point = some patch) ∨
    (patch.isValidPoint depth point.normal = true ∧ ∃ d1,
      patch.nextD1 settings point.normal = some d1 ∧
      addNear settings patch point = some { patch with
        d1
        depth0 := patch.depth0.set (patch.pixel point) point.normal
        depth0PccIdx := patch.depth0PccIdx.set (patch.pixel point) point.index
        sizeU0 := max patch.sizeU0 ((point.tangent - patch.u1) / settings.occupancyResolution)
        sizeV0 := max patch.sizeV0
          ((point.bitangent - patch.v1) / settings.occupancyResolution) }) := by
  have hlt : patch.pixel point < patch.depth0.length := (List.getElem?_eq_some_iff.mp hdepth).1
  unfold addNear
  dsimp only
  rw [hdepth, Option.bind_eq_bind, Option.bind_some]
  cases hvalid : patch.isValidPoint depth point.normal with
  | false => exact Or.inl ⟨rfl, rfl⟩
  | true =>
    obtain ⟨d1, hd1⟩ := exists_nextD1 patch hlevel point.normal
    refine Or.inr ⟨rfl, d1, hd1, ?_⟩
    have hset : Cells.setAt patch.depth0 (patch.pixel point) (point.normal : ℤ) =
        some (patch.depth0.set (patch.pixel point) point.normal) := if_pos hlt
    have hset' : Cells.setAt patch.depth0PccIdx (patch.pixel point) point.index =
        some (patch.depth0PccIdx.set (patch.pixel point) point.index) := if_pos (hlength ▸ hlt)
    rw [if_pos rfl, hset, Option.bind_eq_bind, Option.bind_some, hset', Option.bind_eq_bind,
      Option.bind_some, hd1]
    rfl

theorem NearMap.addNear
    (h : patch.NearMap settings projectionMode isAdditionalProjectionPlane component visited
      (patch.sizeU0 + 1) (patch.sizeV0 + 1))
    (hlevel : 0 < settings.minLevel) {point : SegmentPoint} (hpoint : point ∈ component) :
    ∃ patch', patch.addNear settings point = some patch' ∧
      patch'.NearMap settings projectionMode isAdditionalProjectionPlane component
        (visited ++ [point]) (patch'.sizeU0 + 1) (patch'.sizeV0 + 1) := by
  have hlt : patch.pixel point < patch.depth0.length := by
    rw [h.depth0]
    exact h.pixel_lt hpoint
  have hdepth := List.getElem?_eq_getElem hlt
  have hlength : patch.depth0PccIdx.length = patch.depth0.length := by
    rw [h.depth0PccIdx, h.depth0]
  rcases addNear_cases hdepth hlength hlevel with ⟨-, hkeep⟩ | ⟨-, d1, -, hput⟩
  · refine ⟨patch, hkeep, { h with point := ?_ }⟩
    intro p d hd hne
    obtain ⟨q, hq, hrest⟩ := h.point p d hd hne
    exact ⟨q, List.mem_append_left _ hq, hrest⟩
  · refine ⟨_, hput, ?_⟩
    have hself : ∀ (p : ℕ) (d : ℤ), p = patch.pixel point →
        (patch.depth0.set (patch.pixel point) (point.normal : ℤ))[p]? = some d →
          (point.normal : ℤ) = d := by
      intro p d hp hd
      rw [hp, List.getElem?_set_self hlt] at hd
      exact Option.some.inj hd
    have hother : ∀ (p : ℕ) (d : ℤ), p ≠ patch.pixel point →
        (patch.depth0.set (patch.pixel point) (point.normal : ℤ))[p]? = some d →
          patch.depth0[p]? = some d := by
      intro p d hp hd
      rwa [List.getElem?_set_ne (Ne.symm hp)] at hd
    constructor
    · constructor
      · exact h.mode
      · exact h.additional
      · exact h.tangent
      · exact h.bitangent
      · exact h.sizeU_le
      · exact h.sizeV_le
      · exact List.length_set.trans h.depth0
      · exact List.length_set.trans h.depth0PccIdx
      · exact h.depthEOM
    · intro p d hd hne
      by_cases hp : p = patch.pixel point
      · refine ⟨point, List.mem_append_right _ List.mem_cons_self, hp.symm, hself p d hp hd, ?_⟩
        rw [hp]
        exact List.getElem?_set_self (hlength ▸ hlt)
      · obtain ⟨q, hq, hpixel, hnormal, hindex⟩ := h.point p d (hother p d hp hd) hne
        refine ⟨q, List.mem_append_left _ hq, hpixel, hnormal, ?_⟩
        rwa [← List.getElem?_set_ne (Ne.symm hp)] at hindex
    · intro p d hd hne
      dsimp only
      by_cases hp : p = patch.pixel point
      · rw [hp, h.pixel_mod hpoint]
        omega
      · have := h.blockU p d (hother p d hp hd) hne
        omega
    · intro p d hd hne
      dsimp only
      by_cases hp : p = patch.pixel point
      · rw [hp, h.pixel_div hpoint]
        omega
      · have := h.blockV p d (hother p d hp hd) hne
        omega
    · intro d hd
      rcases List.mem_or_eq_of_mem_set hd with hmem | heq
      · exact h.le d hmem
      · have := point.normal_lt
        unfold infiniteDepth
        omega

/-- The filter takes depths of pixels away that it has visited. -/
structure Filtered (settings : DepthSettings) (peakPerBlock : List ℤ) (patch : SegmentedPatch)
    (visited : List ℕ) (patch' : SegmentedPatch) : Prop where
  same : patch' = { patch with depth0 := patch'.depth0, depth0PccIdx := patch'.depth0PccIdx }
  length0 : patch'.depth0.length = patch.depth0.length
  lengthIdx : patch'.depth0PccIdx.length = patch.depth0PccIdx.length
  rest : ∀ p, p ∉ visited → patch'.depth0[p]? = patch.depth0[p]?
  depth : ∀ p ∈ visited, ∀ d, patch.depth0[p]? = some d → d ≠ infiniteDepth →
    ∃ peak, peakPerBlock[patch.block settings p]? = some peak ∧
      patch'.depth0[p]? = some (if patch.isFiltered settings peak d then infiniteDepth else d)
  index : ∀ (p : ℕ) (d : ℤ), patch'.depth0[p]? = some d → d ≠ infiniteDepth →
    patch.depth0[p]? = some d ∧ patch'.depth0PccIdx[p]? = patch.depth0PccIdx[p]?

theorem NearMap.block_lt {sizeU0 sizeV0 : ℕ}
    (h : patch.NearMap settings projectionMode isAdditionalProjectionPlane component visited
      sizeU0 sizeV0) (hsize : patch.sizeU0 = sizeU0) {p : ℕ} {d : ℤ}
    (hd : patch.depth0[p]? = some d) (hne : d ≠ infiniteDepth) :
    patch.block settings p < sizeU0 * sizeV0 := by
  unfold block
  rw [hsize]
  exact V3C.pixel_lt (h.blockU p d hd hne) (h.blockV p d hd hne)

/-- The peaks of the blocks are found. -/
theorem NearMap.exists_peaks {sizeU0 sizeV0 : ℕ}
    (h : patch.NearMap settings projectionMode isAdditionalProjectionPlane component visited
      sizeU0 sizeV0) (hsize : patch.sizeU0 = sizeU0) (start : ℤ) :
    ∃ peaks, (List.range (patch.sizeV * patch.sizeU)).foldlM (patch.addPeak settings)
        (List.replicate (sizeU0 * sizeV0) start) = some peaks ∧
      peaks.length = sizeU0 * sizeV0 := by
  refine Codec.exists_foldlM (P := fun _ (peaks : List ℤ) => peaks.length = sizeU0 * sizeV0)
    ?_ List.length_replicate
  intro done p peaks hstart hlength
  have hp : p < patch.sizeU * patch.sizeV := by
    have hmem := hstart.subset (List.mem_append_right done List.mem_cons_self)
    rw [Nat.mul_comm]
    exact List.mem_range.mp hmem
  have hbound : p < patch.depth0.length := by rwa [h.depth0]
  have hdepth := List.getElem?_eq_getElem hbound
  generalize patch.depth0[p] = d at hdepth
  unfold addPeak
  rw [hdepth, Option.bind_eq_bind, Option.bind_some]
  by_cases hd : d = infiniteDepth
  · rw [if_pos hd]
    exact ⟨peaks, rfl, hlength⟩
  · have hblock : patch.block settings p < peaks.length := by
      rw [hlength]
      exact h.block_lt hsize hdepth hd
    rw [if_neg hd, List.getElem?_eq_getElem hblock, Option.bind_some]
    refine ⟨_, if_pos hblock, ?_⟩
    rw [List.length_set, hlength]

/-- What the filter does to a pixel. -/
theorem Filtered.step {sizeU0 sizeV0 : ℕ} {peaks : List ℤ} {done : List ℕ} {p : ℕ}
    (hnear : patch.NearMap settings projectionMode isAdditionalProjectionPlane component visited
      sizeU0 sizeV0) (hsize : patch.sizeU0 = sizeU0) (hpeaks : peaks.length = sizeU0 * sizeV0)
    (h : patch.Filtered settings peaks done patch') (hp : p < patch.sizeU * patch.sizeV)
    (hnot : p ∉ done) :
    ∃ next, filterDepth settings peaks patch' p = some next ∧
      patch.Filtered settings peaks (done ++ [p]) next := by
  have hbound : p < patch'.depth0.length := by
    rw [h.length0, hnear.depth0]
    exact hp
  have hbound' : p < patch'.depth0PccIdx.length := by
    rw [h.lengthIdx, hnear.depth0PccIdx]
    exact hp
  have hdepth := List.getElem?_eq_getElem hbound
  generalize patch'.depth0[p] = d at hdepth
  have hold : patch.depth0[p]? = some d := (h.rest p hnot).symm.trans hdepth
  have hrest : ∀ q, q ∉ done ++ [p] → q ∉ done ∧ q ≠ p := by
    intro q hq
    rw [List.mem_append, List.mem_singleton, not_or] at hq
    exact hq
  have hblock : patch'.block settings p = patch.block settings p := by rw [h.same]; rfl
  have hfilter : ∀ peak, patch'.isFiltered settings peak d = patch.isFiltered settings peak d := by
    intro peak
    rw [h.same]
    rfl
  unfold filterDepth
  rw [hdepth, Option.bind_eq_bind, Option.bind_some]
  by_cases hd : d = infiniteDepth
  · rw [if_pos hd]
    refine ⟨patch', rfl, { h with rest := ?_, depth := ?_ }⟩
    · exact fun q hq => h.rest q (hrest q hq).1
    · intro q hq e he hne
      rcases List.mem_append.mp hq with hq | hq
      · exact h.depth q hq e he hne
      · rw [List.mem_singleton.mp hq, hold] at he
        exact absurd ((Option.some.inj he).symm.trans hd) hne
  · have hlt : patch.block settings p < peaks.length := by
      rw [hpeaks]
      exact hnear.block_lt hsize hold hd
    have hpeak := List.getElem?_eq_getElem hlt
    generalize peaks[patch.block settings p] = peak at hpeak
    rw [if_neg hd, hblock, hpeak, Option.bind_some, hfilter]
    cases hcase : patch.isFiltered settings peak d with
    | false =>
      rw [if_neg Bool.false_ne_true]
      refine ⟨patch', rfl, { h with rest := ?_, depth := ?_ }⟩
      · exact fun q hq => h.rest q (hrest q hq).1
      · intro q hq e he hne
        rcases List.mem_append.mp hq with hq | hq
        · exact h.depth q hq e he hne
        · rw [List.mem_singleton.mp hq] at he ⊢
          obtain rfl := Option.some.inj (hold.symm.trans he)
          refine ⟨peak, hpeak, ?_⟩
          rw [hcase, hdepth]
          rfl
    | true =>
      have hset : Cells.setAt patch'.depth0 p infiniteDepth =
          some (patch'.depth0.set p infiniteDepth) := if_pos hbound
      have hset' : Cells.setAt patch'.depth0PccIdx p infiniteNumber =
          some (patch'.depth0PccIdx.set p infiniteNumber) := if_pos hbound'
      rw [if_pos rfl, hset, Option.bind_eq_bind, Option.bind_some, hset']
      refine ⟨_, rfl, ?_⟩
      constructor
      · dsimp only
        rw [h.same]
      · exact List.length_set.trans h.length0
      · exact List.length_set.trans h.lengthIdx
      · intro q hq
        obtain ⟨hq, hne⟩ := hrest q hq
        dsimp only
        rw [List.getElem?_set_ne (Ne.symm hne)]
        exact h.rest q hq
      · intro q hq e he hne
        dsimp only
        by_cases hqp : q = p
        · rw [hqp] at he ⊢
          obtain rfl := Option.some.inj (hold.symm.trans he)
          refine ⟨peak, hpeak, ?_⟩
          rw [hcase, List.getElem?_set_self hbound]
          rfl
        · rw [List.getElem?_set_ne (Ne.symm hqp)]
          rcases List.mem_append.mp hq with hq | hq
          · exact h.depth q hq e he hne
          · exact absurd (List.mem_singleton.mp hq) hqp
      · intro q e he hne
        dsimp only at he ⊢
        by_cases hqp : q = p
        · rw [hqp, List.getElem?_set_self hbound] at he
          exact absurd (Option.some.inj he).symm hne
        · rw [List.getElem?_set_ne (Ne.symm hqp)] at he ⊢
          exact h.index q e he hne

/-- The near map that is left: its depths are those of points, in blocks of the patch. -/
structure NearDepths (settings : DepthSettings) (projectionMode : ℕ)
    (isAdditionalProjectionPlane : Bool) (component : List SegmentPoint)
    (patch : SegmentedPatch) : Prop
    extends Boxed settings projectionMode isAdditionalProjectionPlane component patch where
  point : ∀ p d, patch.depth0[p]? = some d → d ≠ infiniteDepth →
    ∃ point ∈ component, patch.pixel point = p ∧ (point.normal : ℤ) = d ∧
      patch.depth0PccIdx[p]? = some point.index
  block_lt : ∀ p d, patch.depth0[p]? = some d → d ≠ infiniteDepth →
    patch.block settings p < patch.occupancy.length
  le : ∀ d ∈ patch.depth0, d ≤ infiniteDepth

/-- The stages of the near map, of which none fails. -/
structure NearStages (settings : DepthSettings) (projectionMode : ℕ)
    (isAdditionalProjectionPlane : Bool) (component : List SegmentPoint)
    (start raw : SegmentedPatch) (peaks : List ℤ) (near : SegmentedPatch) : Prop where
  allocate : allocate settings projectionMode isAdditionalProjectionPlane component = some start
  d1 : start.d1 = if projectionMode = 0 then infiniteDepth.toNat else 0
  infinite : ∀ d ∈ start.depth0, d = infiniteDepth
  points : component.foldlM (SegmentedPatch.addNear settings) start = some raw
  nearMap : raw.NearMap settings projectionMode isAdditionalProjectionPlane component component
    (raw.sizeU0 + 1) (raw.sizeV0 + 1)
  peakPerBlock : (List.range (raw.sizeV * raw.sizeU)).foldlM (raw.allocOccupancy.addPeak settings)
    (List.replicate ((raw.sizeU0 + 1) * (raw.sizeV0 + 1))
      (if projectionMode = 0 then infiniteDepth else 0)) = some peaks
  filtered : raw.allocOccupancy.Filtered settings peaks (List.range (raw.sizeV * raw.sizeU)) near
  nearDepths : nearDepths settings projectionMode isAdditionalProjectionPlane component = some near

theorem NearMap.allocOccupancy {sizeU0 sizeV0 : ℕ}
    (h : patch.NearMap settings projectionMode isAdditionalProjectionPlane component visited
      sizeU0 sizeV0) :
    patch.allocOccupancy.NearMap settings projectionMode isAdditionalProjectionPlane component
      visited sizeU0 sizeV0 :=
  { h with }

/-- The near map of a component is found. -/
theorem exists_nearStages (projectionMode : ℕ) (isAdditionalProjectionPlane : Bool)
    (hcomponent : component ≠ []) (hlevel : 0 < settings.minLevel) :
    ∃ start raw peaks near, NearStages settings projectionMode isAdditionalProjectionPlane component
      start raw peaks near := by
  obtain ⟨start, hallocate, hstart, -, hd1, hinfinite⟩ :=
    exists_allocate settings projectionMode isAdditionalProjectionPlane hcomponent
  have hstep : ∀ (visited : List SegmentPoint) (point : SegmentPoint) (patch : SegmentedPatch),
      visited ++ [point] <+: component →
      patch.NearMap settings projectionMode isAdditionalProjectionPlane component visited
        (patch.sizeU0 + 1) (patch.sizeV0 + 1) →
      ∃ patch', patch.addNear settings point = some patch' ∧
        patch'.NearMap settings projectionMode isAdditionalProjectionPlane component
          (visited ++ [point]) (patch'.sizeU0 + 1) (patch'.sizeV0 + 1) := by
    intro visited point patch hstart h
    exact h.addNear hlevel (hstart.subset (List.mem_append_right visited List.mem_cons_self))
  obtain ⟨raw, hraw, hnear⟩ := Codec.exists_foldlM (P := fun visited (patch : SegmentedPatch) =>
    patch.NearMap settings projectionMode isAdditionalProjectionPlane component visited
      (patch.sizeU0 + 1) (patch.sizeV0 + 1)) hstep hstart
  obtain ⟨peaks, hpeaks, hlength⟩ := hnear.allocOccupancy.exists_peaks rfl
    (if projectionMode = 0 then infiniteDepth else 0)
  have hfilter : ∀ (done : List ℕ) (p : ℕ) (patch' : SegmentedPatch),
      done ++ [p] <+: List.range (raw.sizeV * raw.sizeU) →
      raw.allocOccupancy.Filtered settings peaks done patch' →
      ∃ next, patch'.filterDepth settings peaks p = some next ∧
        raw.allocOccupancy.Filtered settings peaks (done ++ [p]) next := by
    intro done p patch' hstart h
    obtain ⟨hmem, hnot⟩ := Codec.mem_and_notMem_of_prefix hstart List.nodup_range
    refine h.step hnear.allocOccupancy rfl hlength ?_ hnot
    exact Nat.lt_of_lt_of_eq (List.mem_range.mp hmem) (Nat.mul_comm _ _)
  have hfirst : raw.allocOccupancy.Filtered settings peaks [] raw.allocOccupancy := by
    constructor
    · rfl
    · rfl
    · rfl
    · exact fun _ _ => rfl
    · exact fun p hp => absurd hp List.not_mem_nil
    · exact fun _ _ hd _ => ⟨hd, rfl⟩
  obtain ⟨near, hrun, hfiltered⟩ := Codec.exists_foldlM (P := fun done (patch' : SegmentedPatch) =>
    raw.allocOccupancy.Filtered settings peaks done patch') hfilter hfirst
  refine ⟨start, raw, peaks, near, hallocate, hd1, hinfinite, hraw, hnear, hpeaks, hfiltered, ?_⟩
  unfold nearDepths
  rw [hallocate, Option.bind_eq_bind, Option.bind_some, hraw, Option.bind_eq_bind,
    Option.bind_some]
  dsimp only
  have hpeaks' : (List.range (raw.allocOccupancy.sizeV * raw.allocOccupancy.sizeU)).foldlM
      (raw.allocOccupancy.addPeak settings)
      (List.replicate (raw.allocOccupancy.sizeU0 * raw.allocOccupancy.sizeV0)
        (if projectionMode = 0 then infiniteDepth else 0)) = some peaks := hpeaks
  rw [hpeaks']
  exact hrun

theorem NearStages.near {start raw near : SegmentedPatch} {peaks : List ℤ}
    (h : NearStages settings projectionMode isAdditionalProjectionPlane component start raw peaks
      near) :
    near.NearDepths settings projectionMode isAdditionalProjectionPlane component := by
  have hmap := h.nearMap.allocOccupancy
  have hsame := h.filtered.same
  have hle : ∀ d ∈ near.depth0, d ≤ infiniteDepth := by
    intro d hd
    by_cases hne : d = infiniteDepth
    · rw [hne]
    · obtain ⟨p, hp⟩ := List.mem_iff_getElem?.mp hd
      exact hmap.le d (List.mem_of_getElem? (h.filtered.index p d hp hne).1)
  constructor
  · constructor
    · rw [hsame]
      exact hmap.mode
    · rw [hsame]
      exact hmap.additional
    · rw [hsame]
      exact hmap.tangent
    · rw [hsame]
      exact hmap.bitangent
    · rw [hsame]
      exact hmap.sizeU_le
    · rw [hsame]
      exact hmap.sizeV_le
    · rw [h.filtered.length0, hsame]
      exact hmap.depth0
    · rw [h.filtered.lengthIdx, hsame]
      exact hmap.depth0PccIdx
    · rw [hsame]
      exact hmap.depthEOM
  · intro p d hd hne
    obtain ⟨hold, hindex⟩ := h.filtered.index p d hd hne
    obtain ⟨point, hpoint, hpixel, hnormal, hidx⟩ := hmap.point p d hold hne
    refine ⟨point, hpoint, ?_, hnormal, hindex.trans hidx⟩
    rw [hsame]
    exact hpixel
  · intro p d hd hne
    obtain ⟨hold, -⟩ := h.filtered.index p d hd hne
    have hlength : (List.replicate ((raw.sizeU0 + 1) * (raw.sizeV0 + 1)) false).length =
        (raw.sizeU0 + 1) * (raw.sizeV0 + 1) := List.length_replicate
    have hlt := hmap.block_lt rfl hold hne
    rw [hsame]
    exact Nat.lt_of_lt_of_eq hlt hlength.symm
  · exact hle

end V3C.SegmentedPatch

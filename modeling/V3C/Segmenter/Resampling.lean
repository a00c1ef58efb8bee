import V3C.Segmenter.NearMap

/-! What the resampling of a patch stores, adds to the cloud and counts. -/
namespace V3C

variable {settings : DepthSettings} {near maps : SegmentedPatch}

namespace SegmentedPatch

/-- The maps of a patch: the near map is kept, and there is a far depth and a code for its
pixels. -/
structure Maps (settings : DepthSettings) (near maps : SegmentedPatch) : Prop where
  same : maps = { near with depth1 := maps.depth1, depthEOM := maps.depthEOM }
  depth1 : settings.EOMSingleLayerMode = false → maps.depth1.length = near.depth0.length
  depthEOM : maps.depthEOM.length = near.depthEOM.length

theorem addCode_eq_some {patch patch' : SegmentedPatch} {p : ℕ} {shift : ℤ}
    (h : patch.addCode p shift = some patch') :
    ∃ code bit, patch.depthEOM[p]? = some code ∧ shiftCode shift = some bit ∧
      patch' = { patch with depthEOM := patch.depthEOM.set p (code ||| bit) } := by
  unfold addCode at h
  obtain ⟨code, hcode, h⟩ := Option.bind_eq_some_iff.mp h
  obtain ⟨bit, hbit, h⟩ := Option.bind_eq_some_iff.mp h
  obtain ⟨depthEOM, hset, h⟩ := Option.bind_eq_some_iff.mp h
  refine ⟨code, bit, hcode, hbit, ?_⟩
  have hlt := (List.getElem?_eq_some_iff.mp hcode).1
  obtain rfl : patch.depthEOM.set p (code ||| bit) = depthEOM :=
    Option.some.inj ((if_pos hlt).symm.trans hset)
  exact (Option.some.inj h).symm

theorem Maps.addCode {patch patch' : SegmentedPatch} {p : ℕ} {shift : ℤ}
    (h : near.Maps settings patch) (hcode : patch.addCode p shift = some patch') :
    near.Maps settings patch' := by
  obtain ⟨code, bit, -, -, rfl⟩ := addCode_eq_some hcode
  constructor
  · dsimp only
    rw [h.same]
  · exact h.depth1
  · exact List.length_set.trans h.depthEOM

theorem Maps.addSingleLayer {thickness : ℤ} {point : SegmentPoint} {patch patch' : SegmentedPatch}
    (h : near.Maps settings patch) (hadd : patch.addSingleLayer settings thickness point =
      some patch') : near.Maps settings patch' := by
  unfold SegmentedPatch.addSingleLayer at hadd
  obtain ⟨depth0, -, hadd⟩ := Option.bind_eq_some_iff.mp hadd
  cases hshift : patch.singleLayerShift settings thickness depth0 point with
  | none =>
    rw [hshift] at hadd
    obtain rfl := Option.some.inj hadd
    exact h
  | some shift =>
    rw [hshift] at hadd
    exact h.addCode hadd

theorem Maps.extendFar {p : ℕ} {d : ℤ} {patch patch' : SegmentedPatch}
    (h : near.Maps settings patch) (hextend : patch.extendFar p d = some patch') :
    near.Maps settings patch' := by
  unfold SegmentedPatch.extendFar at hextend
  obtain ⟨far, -, hextend⟩ := Option.bind_eq_some_iff.mp hextend
  split_ifs at hextend
  · obtain ⟨depth1, hset, hextend⟩ := Option.bind_eq_some_iff.mp hextend
    obtain rfl := Option.some.inj hextend
    constructor
    · dsimp only
      rw [h.same]
    · exact fun hsingle => (Cells.length_setAt hset).trans (h.depth1 hsingle)
    · exact h.depthEOM
  · obtain rfl := Option.some.inj hextend
    exact h

theorem Maps.addFar {thickness : ℤ} {colors : List PCCColor3B} {point : SegmentPoint}
    {patch patch' : SegmentedPatch} (h : near.Maps settings patch)
    (hadd : patch.addFar settings thickness colors point = some patch') :
    near.Maps settings patch' := by
  unfold SegmentedPatch.addFar at hadd
  obtain ⟨depth0, -, hadd⟩ := Option.bind_eq_some_iff.mp hadd
  obtain ⟨delta, -, hadd⟩ := Option.bind_eq_some_iff.mp hadd
  cases delta with
  | none =>
    obtain rfl := Option.some.inj hadd
    exact h
  | some deltaD =>
    obtain ⟨extended, hextend, hadd⟩ := Option.bind_eq_some_iff.mp hadd
    have hfar := h.extendFar hextend
    split_ifs at hadd
    · exact hfar.addCode hadd
    · obtain rfl := Option.some.inj hadd
      exact hfar

theorem Maps.of_farDepths {surface : SegmentedPatch → List SegmentPoint → ℤ}
    {colors : List PCCColor3B} {component : List SegmentPoint}
    (h : near.farDepths settings surface colors component = some maps) :
    near.Maps settings maps := by
  unfold farDepths at h
  cases hsingle : settings.EOMSingleLayerMode with
  | true =>
    have hstart : near.Maps settings near :=
      ⟨rfl, fun hfalse => absurd (hsingle.symm.trans hfalse) nofun, rfl⟩
    rw [hsingle, if_pos rfl] at h
    dsimp only at h
    generalize toInt16 _ = thickness at h
    by_cases hthick : 0 < thickness
    · rw [if_pos hthick] at h
      refine Codec.inv_of_foldlM (P := fun _ patch => near.Maps settings patch) h hstart ?_
      exact fun _ _ _ _ _ hmaps hadd => hmaps.addSingleLayer hadd
    · rw [if_neg hthick] at h
      obtain rfl := Option.some.inj h
      exact hstart
  | false =>
    have hstart : near.Maps settings { near with depth1 := near.depth0 } :=
      ⟨rfl, fun _ => rfl, rfl⟩
    rw [hsingle, if_neg Bool.false_ne_true] at h
    dsimp only at h
    generalize toInt16 _ = thickness at h
    by_cases hthick : 0 < thickness
    · rw [if_pos hthick] at h
      refine Codec.inv_of_foldlM (P := fun _ patch => near.Maps settings patch) h hstart ?_
      exact fun _ _ _ _ _ hmaps hadd => hmaps.addFar hadd
    · rw [if_neg hthick] at h
      obtain rfl := Option.some.inj h
      exact hstart

theorem Maps.length (h : near.Maps settings maps)
    (hnear : near.depth0.length = near.sizeU * near.sizeV) :
    maps.depth0.length = maps.sizeU * maps.sizeV := by
  rw [h.same]
  exact hnear

/-- Near maps are made for components with points only. -/
theorem nearDepths_of_eq_some {projectionMode : ℕ} {isAdditionalProjectionPlane : Bool}
    {component : List SegmentPoint} (hlevel : 0 < settings.minLevel)
    (hnear : nearDepths settings projectionMode isAdditionalProjectionPlane component =
      some near) : near.NearDepths settings projectionMode isAdditionalProjectionPlane component := by
  have hcomponent : component ≠ [] := by
    intro hnil
    rw [hnil] at hnear
    cases hnear
  obtain ⟨start, raw, peaks, found, hstages⟩ := exists_nearStages projectionMode
    isAdditionalProjectionPlane hcomponent hlevel
  obtain rfl := Option.some.inj (hstages.nearDepths.symm.trans hnear)
  exact hstages.near

theorem exists_near_of_patchMaps {surface : SegmentedPatch → List SegmentPoint → ℤ}
    {colors : List PCCColor3B} {projectionMode : ℕ} {isAdditionalProjectionPlane : Bool}
    {component : List SegmentPoint} (hlevel : 0 < settings.minLevel)
    (h : patchMaps settings surface colors projectionMode isAdditionalProjectionPlane component =
      some maps) :
    ∃ near, nearDepths settings projectionMode isAdditionalProjectionPlane component = some near ∧
      near.farDepths settings surface colors component = some maps ∧
      near.NearDepths settings projectionMode isAdditionalProjectionPlane component := by
  unfold patchMaps at h
  obtain ⟨near, hnear, hfar⟩ := Option.bind_eq_some_iff.mp h
  exact ⟨near, hnear, hfar, nearDepths_of_eq_some hlevel hnear⟩

/-- The pixels that have a depth. -/
def isOccupied (maps : SegmentedPatch) (p : ℕ) : Bool :=
  maps.depth0.getD p infiniteDepth < infiniteDepth

def codeAt (settings : DepthSettings) (maps : SegmentedPatch) (p : ℕ) : BitVec 16 :=
  if settings.useEnhancedOccupancyMapCode then maps.depthEOM.getD p 0 else 0

/-- The points of the code of a pixel. -/
def deltasAt (settings : DepthSettings) (maps : SegmentedPatch) (p : ℕ) : List ℕ :=
  (eomDeltas settings (maps.codeAt settings p)).getD []

/-- The pixels whose far depth is not the near depth. -/
def isFar (maps : SegmentedPatch) (p : ℕ) : Bool :=
  maps.isOccupied p && maps.depth0.getD p infiniteDepth != maps.depth1.getD p infiniteDepth

end SegmentedPatch

namespace Resampling

open SegmentedPatch

/-- A depth that is stored for one of the visited pixels. -/
def StoredIn (settings : DepthSettings) (maps : SegmentedPatch) (visited : List ℕ) (d : ℤ) : Prop :=
  ∃ p ∈ visited, ∃ depth0, maps.depth0[p]? = some depth0 ∧ depth0 < infiniteDepth ∧
    (d = storedDepth maps depth0 ∨ settings.EOMSingleLayerMode = false ∧
      ∃ depth1, maps.depth1[p]? = some depth1 ∧ d = storedDepth maps depth1)

/-- What is resampled after the visited pixels. -/
structure Resampled (settings : DepthSettings) (maps : SegmentedPatch) (visited : List ℕ)
    (s : Resampling) : Prop where
  same : s.patch = { maps with
    sizeD := s.patch.sizeD
    depth0 := s.patch.depth0
    depth1 := s.patch.depth1
    occupancy := s.patch.occupancy }
  length0 : s.patch.depth0.length = maps.depth0.length
  length1 : s.patch.depth1.length = maps.depth1.length
  lengthOccupancy : s.patch.occupancy.length = maps.occupancy.length
  rest0 : ∀ p, p ∉ visited → s.patch.depth0[p]? = maps.depth0[p]?
  rest1 : ∀ p, p ∉ visited → s.patch.depth1[p]? = maps.depth1[p]?
  stored0 : ∀ p ∈ visited, ∀ d, maps.depth0[p]? = some d → d < infiniteDepth →
    s.patch.depth0[p]? = some (storedDepth maps d)
  stored1 : settings.EOMSingleLayerMode = false → ∀ p ∈ visited, maps.isOccupied p = true →
    ∀ d, maps.depth1[p]? = some d → s.patch.depth1[p]? = some (storedDepth maps d)
  sizeD_le : ∀ d, StoredIn settings maps visited d → toSizeT d ≤ s.patch.sizeD
  sizeD_mem : s.patch.sizeD = 0 ∨ ∃ d, StoredIn settings maps visited d ∧
    toSizeT d = s.patch.sizeD
  points : ∀ p ∈ visited, ∀ d, maps.depth0[p]? = some d → d < infiniteDepth →
    ResampledPoint.mk d (p % maps.sizeU + maps.u1) (p / maps.sizeU + maps.v1) ∈ s.resampled
  d1Count : s.d1CountPerPatch =
    if settings.EOMSingleLayerMode then 0 else visited.countP maps.isFar
  eomCount : s.eomCountPerPatch = ((visited.filter maps.isOccupied).map fun p =>
    (maps.deltasAt settings p).length).sum

def pixelPoint (patch : SegmentedPatch) (p : ℕ) (normal : ℤ) : ResampledPoint :=
  ⟨normal, p % patch.sizeU + patch.u1, p / patch.sizeU + patch.v1⟩

/-- What the resampling does to a pixel with a depth. -/
theorem addPixel_eq {s : Resampling} {p : ℕ} {depth0 : ℤ} {code : BitVec 16} {deltas : List ℕ}
    (hdepth0 : s.patch.depth0[p]? = some depth0) (hlt : depth0 < infiniteDepth)
    (hblock : s.patch.block settings p < s.patch.occupancy.length)
    (hcode : s.patch.readCode settings p = some code)
    (hdeltas : eomDeltas settings code = some deltas)
    (hsingle : settings.EOMSingleLayerMode = true) :
    addPixel settings s p = some
      { s with
        patch := { s.patch with
          occupancy := s.patch.occupancy.set (s.patch.block settings p) true
          depth0 := s.patch.depth0.set p (storedDepth s.patch depth0)
          sizeD := max s.patch.sizeD (toSizeT (storedDepth s.patch depth0)) }
        resampled := s.resampled ++ pixelPoint s.patch p depth0 ::
          (deltas.map fun i : ℕ => depth0 + s.patch.projectionDirectionType * (i + 1)).map
            (pixelPoint s.patch p)
        d0CountPerPatch := s.d0CountPerPatch + 1
        eomCountPerPatch := s.eomCountPerPatch + deltas.length } := by
  have hset : Cells.setAt s.patch.occupancy (s.patch.block settings p) true =
      some (s.patch.occupancy.set (s.patch.block settings p) true) := if_pos hblock
  have hset0 : ∀ d : ℤ, Cells.setAt s.patch.depth0 p d = some (s.patch.depth0.set p d) :=
    fun d => if_pos (List.getElem?_eq_some_iff.mp hdepth0).1
  have hcode' : readCode settings { s.patch with
      occupancy := s.patch.occupancy.set (s.patch.block settings p) true } p = some code := hcode
  unfold addPixel
  rw [hdepth0, Option.bind_eq_bind, Option.bind_some, if_pos hlt, hset, Option.bind_eq_bind,
    Option.bind_some]
  dsimp only
  rw [hcode', Option.bind_eq_bind, Option.bind_some, hdeltas, Option.bind_eq_bind,
    Option.bind_some, hsingle, if_pos rfl]
  unfold adjustDepth0
  dsimp only
  rw [hset0]
  simp only [Option.bind_eq_bind, Option.bind_some, List.length_map]
  rfl

/-- The same where there is a far map. -/
theorem addPixel_eq_far {s : Resampling} {p : ℕ} {depth0 depth1 : ℤ} {code : BitVec 16}
    {deltas : List ℕ} (hdepth0 : s.patch.depth0[p]? = some depth0) (hlt : depth0 < infiniteDepth)
    (hblock : s.patch.block settings p < s.patch.occupancy.length)
    (hcode : s.patch.readCode settings p = some code)
    (hdeltas : eomDeltas settings code = some deltas)
    (hsingle : settings.EOMSingleLayerMode = false)
    (hdepth1 : s.patch.depth1[p]? = some depth1) :
    ∃ resampled, addPixel settings s p = some
      { s with
        patch := { s.patch with
          occupancy := s.patch.occupancy.set (s.patch.block settings p) true
          depth0 := s.patch.depth0.set p (storedDepth s.patch depth0)
          depth1 := s.patch.depth1.set p (storedDepth s.patch depth1)
          sizeD := max (max s.patch.sizeD (toSizeT (storedDepth s.patch depth0)))
            (toSizeT (storedDepth s.patch depth1)) }
        resampled := s.resampled ++ pixelPoint s.patch p depth0 :: resampled
        d0CountPerPatch := s.d0CountPerPatch + 1
        d1CountPerPatch := s.d1CountPerPatch + if depth0 ≠ depth1 then 1 else 0
        eomCountPerPatch := s.eomCountPerPatch + deltas.length } := by
  have hset : Cells.setAt s.patch.occupancy (s.patch.block settings p) true =
      some (s.patch.occupancy.set (s.patch.block settings p) true) := if_pos hblock
  have hset0 : ∀ d : ℤ, Cells.setAt s.patch.depth0 p d = some (s.patch.depth0.set p d) :=
    fun d => if_pos (List.getElem?_eq_some_iff.mp hdepth0).1
  have hset1 : ∀ d : ℤ, Cells.setAt s.patch.depth1 p d = some (s.patch.depth1.set p d) :=
    fun d => if_pos (List.getElem?_eq_some_iff.mp hdepth1).1
  have hcode' : readCode settings { s.patch with
      occupancy := s.patch.occupancy.set (s.patch.block settings p) true } p = some code := hcode
  unfold addPixel
  rw [hdepth0, Option.bind_eq_bind, Option.bind_some, if_pos hlt, hset, Option.bind_eq_bind,
    Option.bind_some]
  dsimp only
  rw [hcode', Option.bind_eq_bind, Option.bind_some, hdeltas, Option.bind_eq_bind,
    Option.bind_some, hsingle, if_neg Bool.false_ne_true, hdepth1, Option.bind_eq_bind,
    Option.bind_some]
  unfold adjustDepth0
  dsimp only
  rw [hset0]
  simp only [Option.bind_eq_bind, Option.bind_some, List.length_map, List.append_assoc,
    List.cons_append]
  unfold adjustDepth1
  dsimp only
  rw [hset1]
  exact ⟨_, rfl⟩

/-- What the resampling reads of a pixel. -/
theorem addPixel_eq_some {s s' : Resampling} {p : ℕ} (h : addPixel settings s p = some s') :
    ∃ depth0, s.patch.depth0[p]? = some depth0 ∧
      (¬depth0 < infiniteDepth ∧ s' = s ∨ depth0 < infiniteDepth ∧
        s.patch.block settings p < s.patch.occupancy.length ∧
        (∃ code deltas, s.patch.readCode settings p = some code ∧
          eomDeltas settings code = some deltas) ∧
        (settings.EOMSingleLayerMode = false → ∃ depth1, s.patch.depth1[p]? = some depth1)) := by
  unfold addPixel at h
  obtain ⟨depth0, hdepth0, h⟩ := Option.bind_eq_some_iff.mp h
  refine ⟨depth0, hdepth0, ?_⟩
  by_cases hlt : depth0 < infiniteDepth
  · rw [if_pos hlt] at h
    obtain ⟨occupancy, hset, h⟩ := Option.bind_eq_some_iff.mp h
    obtain ⟨code, hcode, h⟩ := Option.bind_eq_some_iff.mp h
    obtain ⟨deltas, hdeltas, h⟩ := Option.bind_eq_some_iff.mp h
    refine Or.inr ⟨hlt, ?_, ⟨code, deltas, hcode, hdeltas⟩, ?_⟩
    · unfold Cells.setAt at hset
      split_ifs at hset with hblock
      exact hblock
    · intro hsingle
      dsimp only at h
      rw [hsingle, if_neg Bool.false_ne_true] at h
      obtain ⟨depth1, hdepth1, -⟩ := Option.bind_eq_some_iff.mp h
      exact ⟨depth1, hdepth1⟩
  · rw [if_neg hlt] at h
    exact Or.inl ⟨hlt, (Option.some.inj h).symm⟩

theorem storedIn_append {visited : List ℕ} {p : ℕ} {d : ℤ} :
    StoredIn settings maps (visited ++ [p]) d ↔
      StoredIn settings maps visited d ∨ StoredIn settings maps [p] d := by
  unfold StoredIn
  constructor
  · intro h
    obtain ⟨q, hq, hrest⟩ := h
    rcases List.mem_append.mp hq with hq | hq
    · exact Or.inl ⟨q, hq, hrest⟩
    · exact Or.inr ⟨q, hq, hrest⟩
  · intro h
    rcases h with ⟨q, hq, hrest⟩ | ⟨q, hq, hrest⟩
    · exact ⟨q, List.mem_append_left _ hq, hrest⟩
    · exact ⟨q, List.mem_append_right _ hq, hrest⟩

theorem isOccupied_eq {p : ℕ} {depth0 : ℤ} (hdepth0 : maps.depth0[p]? = some depth0) :
    maps.isOccupied p = decide (depth0 < infiniteDepth) := by
  unfold isOccupied
  rw [List.getD_eq_getElem?_getD, hdepth0, Option.getD_some]

theorem isFar_eq {p : ℕ} {depth0 depth1 : ℤ} (hdepth0 : maps.depth0[p]? = some depth0)
    (hlt : depth0 < infiniteDepth) (hdepth1 : maps.depth1[p]? = some depth1) :
    maps.isFar p = (depth0 != depth1) := by
  unfold isFar
  rw [isOccupied_eq hdepth0, decide_eq_true hlt, List.getD_eq_getElem?_getD, hdepth0,
    List.getD_eq_getElem?_getD, hdepth1, Option.getD_some, Option.getD_some, Bool.true_and]

section Step

variable {visited : List ℕ} {s s' : Resampling} {p : ℕ} {depth0 : ℤ}

/-- A pixel without a depth adds nothing. -/
theorem Resampled.skip (h : Resampled settings maps visited s)
    (hdepth0 : maps.depth0[p]? = some depth0) (hlt : ¬depth0 < infiniteDepth) :
    Resampled settings maps (visited ++ [p]) s := by
  have hfree : maps.isOccupied p = false := by
    rw [isOccupied_eq hdepth0, decide_eq_false hlt]
  have hnone : ∀ d, ¬StoredIn settings maps [p] d := by
    intro d hd
    obtain ⟨q, hq, e, he, helt, -⟩ := hd
    rw [List.mem_singleton.mp hq, hdepth0] at he
    rw [← Option.some.inj he] at helt
    exact hlt helt
  have hstored : ∀ d, StoredIn settings maps (visited ++ [p]) d ↔ StoredIn settings maps visited d := by
    intro d
    rw [storedIn_append, or_iff_left (hnone d)]
  have hmem : ∀ q ∈ visited ++ [p], q ∈ visited ∨ q = p := by
    intro q hq
    exact (List.mem_append.mp hq).imp_right List.mem_singleton.mp
  constructor
  · exact h.same
  · exact h.length0
  · exact h.length1
  · exact h.lengthOccupancy
  · exact fun q hq => h.rest0 q fun hin => hq (List.mem_append_left _ hin)
  · exact fun q hq => h.rest1 q fun hin => hq (List.mem_append_left _ hin)
  · intro q hq d hd hdlt
    rcases hmem q hq with hq | rfl
    · exact h.stored0 q hq d hd hdlt
    · exact absurd (Option.some.inj (hdepth0.symm.trans hd) ▸ hdlt) hlt
  · intro hsingle q hq hocc d hd
    rcases hmem q hq with hq | rfl
    · exact h.stored1 hsingle q hq hocc d hd
    · rw [hfree] at hocc
      cases hocc
  · exact fun d hd => h.sizeD_le d ((hstored d).mp hd)
  · rcases h.sizeD_mem with hzero | ⟨d, hd, heq⟩
    · exact Or.inl hzero
    · exact Or.inr ⟨d, (hstored d).mpr hd, heq⟩
  · intro q hq d hd hdlt
    rcases hmem q hq with hq | rfl
    · exact h.points q hq d hd hdlt
    · exact absurd (Option.some.inj (hdepth0.symm.trans hd) ▸ hdlt) hlt
  · have hfar : maps.isFar p = false := by
      unfold isFar
      rw [hfree, Bool.false_and]
    rw [h.d1Count, List.countP_append, List.countP_singleton, hfar]
    rfl
  · rw [h.eomCount, List.filter_append, List.filter_singleton, hfree, Bool.cond_false,
      List.append_nil]

/-- What a pixel with a depth adds. -/
structure Added (settings : DepthSettings) (maps : SegmentedPatch) (p : ℕ) (depth0 : ℤ)
    (s s' : Resampling) : Prop where
  same : s'.patch = { s.patch with
    sizeD := s'.patch.sizeD
    depth0 := s'.patch.depth0
    depth1 := s'.patch.depth1
    occupancy := s'.patch.occupancy }
  near : s'.patch.depth0 = s.patch.depth0.set p (storedDepth maps depth0)
  lengthOccupancy : s'.patch.occupancy.length = s.patch.occupancy.length
  resampled : ∃ rest, s'.resampled = s.resampled ++ pixelPoint maps p depth0 :: rest
  eomCount : s'.eomCountPerPatch = s.eomCountPerPatch + (maps.deltasAt settings p).length
  far : settings.EOMSingleLayerMode = true ∧ s'.patch.depth1 = s.patch.depth1 ∧
      s'.patch.sizeD = max s.patch.sizeD (toSizeT (storedDepth maps depth0)) ∧
      s'.d1CountPerPatch = s.d1CountPerPatch ∨
    settings.EOMSingleLayerMode = false ∧ ∃ depth1, maps.depth1[p]? = some depth1 ∧
      s'.patch.depth1 = s.patch.depth1.set p (storedDepth maps depth1) ∧
      s'.patch.sizeD = max (max s.patch.sizeD (toSizeT (storedDepth maps depth0)))
        (toSizeT (storedDepth maps depth1)) ∧
      s'.d1CountPerPatch = s.d1CountPerPatch + if depth0 ≠ depth1 then 1 else 0

section Added

variable (hadded : Added settings maps p depth0 s s')

include hadded

theorem Added.depth0_of_ne {q : ℕ} (hq : q ≠ p) : s'.patch.depth0[q]? = s.patch.depth0[q]? := by
  rw [hadded.near, List.getElem?_set_ne (Ne.symm hq)]

theorem Added.depth1_of_ne {q : ℕ} (hq : q ≠ p) : s'.patch.depth1[q]? = s.patch.depth1[q]? := by
  rcases hadded.far with ⟨-, hdepth1, -⟩ | ⟨-, depth1, -, hdepth1, -⟩
  · rw [hdepth1]
  · rw [hdepth1, List.getElem?_set_ne (Ne.symm hq)]

theorem Added.depth1_self (hsingle : settings.EOMSingleLayerMode = false)
    (hlength : s.patch.depth1.length = maps.depth1.length) {depth1 : ℤ}
    (hdepth1 : maps.depth1[p]? = some depth1) :
    s'.patch.depth1[p]? = some (storedDepth maps depth1) := by
  rcases hadded.far with ⟨htrue, -⟩ | ⟨-, far, hfar, hset, -⟩
  · exact absurd (htrue.symm.trans hsingle) nofun
  · have hbound : p < s.patch.depth1.length := by
      rw [hlength]
      exact (List.getElem?_eq_some_iff.mp hdepth1).1
    rw [hset, List.getElem?_set_self hbound, Option.some.inj (hfar.symm.trans hdepth1)]

/-- The size grows to that of every depth that is stored for the pixel. -/
theorem Added.le_sizeD (hdepth0 : maps.depth0[p]? = some depth0) {d : ℤ}
    (hd : StoredIn settings maps [p] d) : toSizeT d ≤ s'.patch.sizeD := by
  obtain ⟨q, hq, e, he, -, hcases⟩ := hd
  rw [List.mem_singleton.mp hq] at he hcases
  obtain rfl := Option.some.inj (hdepth0.symm.trans he)
  rcases hadded.far with ⟨hsingle, -, hsize, -⟩ | ⟨hsingle, depth1, hdepth1, -, hsize, -⟩
  · rcases hcases with rfl | ⟨hfalse, -⟩
    · omega
    · exact absurd (hsingle.symm.trans hfalse) nofun
  · rcases hcases with rfl | ⟨-, e1, he1, rfl⟩
    · omega
    · obtain rfl := Option.some.inj (hdepth1.symm.trans he1)
      omega

omit hadded in
/-- The larger one of two sizes of stored depths is one too. -/
theorem max_sizeD_mem {P : ℤ → Prop} {a b : ℕ} (ha : a = 0 ∨ ∃ d, P d ∧ toSizeT d = a)
    (hb : ∃ d, P d ∧ toSizeT d = b) : max a b = 0 ∨ ∃ d, P d ∧ toSizeT d = max a b := by
  rcases Nat.le_total a b with hle | hle
  · rw [Nat.max_eq_right hle]
    exact Or.inr hb
  · rw [Nat.max_eq_left hle]
    exact ha

/-- The size stays that of a stored depth. -/
theorem Added.sizeD_mem (hdepth0 : maps.depth0[p]? = some depth0) (hlt : depth0 < infiniteDepth)
    (hold : s.patch.sizeD = 0 ∨
      ∃ d, StoredIn settings maps visited d ∧ toSizeT d = s.patch.sizeD) :
    s'.patch.sizeD = 0 ∨
      ∃ d, StoredIn settings maps (visited ++ [p]) d ∧ toSizeT d = s'.patch.sizeD := by
  have hprevious : s.patch.sizeD = 0 ∨
      ∃ d, StoredIn settings maps (visited ++ [p]) d ∧ toSizeT d = s.patch.sizeD :=
    hold.imp_right fun ⟨d, hd, heq⟩ => ⟨d, storedIn_append.mpr (Or.inl hd), heq⟩
  have hnear : StoredIn settings maps (visited ++ [p]) (storedDepth maps depth0) :=
    storedIn_append.mpr (Or.inr ⟨p, List.mem_singleton_self p, depth0, hdepth0, hlt, Or.inl rfl⟩)
  rcases hadded.far with ⟨-, -, hsize, -⟩ | ⟨hsingle, depth1, hdepth1, -, hsize, -⟩
  · rw [hsize]
    exact max_sizeD_mem hprevious ⟨_, hnear, rfl⟩
  · have hfar : StoredIn settings maps (visited ++ [p]) (storedDepth maps depth1) :=
      storedIn_append.mpr (Or.inr ⟨p, List.mem_singleton_self p, depth0, hdepth0, hlt,
        Or.inr ⟨hsingle, depth1, hdepth1, rfl⟩⟩)
    rw [hsize]
    exact max_sizeD_mem (max_sizeD_mem hprevious ⟨_, hnear, rfl⟩) ⟨_, hfar, rfl⟩

theorem Resampled.added (h : Resampled settings maps visited s) (hp : p ∉ visited)
    (hdepth0 : maps.depth0[p]? = some depth0) (hlt : depth0 < infiniteDepth) :
    Resampled settings maps (visited ++ [p]) s' := by
  have hbound : p < s.patch.depth0.length := by
    rw [h.length0]
    exact (List.getElem?_eq_some_iff.mp hdepth0).1
  have hmem : ∀ q ∈ visited ++ [p], q ∈ visited ∨ q = p := by
    intro q hq
    exact (List.mem_append.mp hq).imp_right List.mem_singleton.mp
  have hnot : ∀ q, q ∉ visited ++ [p] → q ∉ visited ∧ q ≠ p := by
    intro q hq
    rwa [List.mem_append, List.mem_singleton, not_or] at hq
  have hne : ∀ q ∈ visited, q ≠ p := by
    intro q hq heq
    rw [← heq] at hp
    exact hp hq
  constructor
  · rw [hadded.same, h.same]
  · rw [hadded.near, List.length_set, h.length0]
  · rcases hadded.far with ⟨-, hdepth1, -⟩ | ⟨-, depth1, -, hdepth1, -⟩
    · rw [hdepth1, h.length1]
    · rw [hdepth1, List.length_set, h.length1]
  · rw [hadded.lengthOccupancy, h.lengthOccupancy]
  · intro q hq
    rw [hadded.depth0_of_ne (hnot q hq).2, h.rest0 q (hnot q hq).1]
  · intro q hq
    rw [hadded.depth1_of_ne (hnot q hq).2, h.rest1 q (hnot q hq).1]
  · intro q hq d hd hdlt
    rcases hmem q hq with hq | rfl
    · rw [hadded.depth0_of_ne (hne q hq), h.stored0 q hq d hd hdlt]
    · rw [hadded.near, List.getElem?_set_self hbound, Option.some.inj (hdepth0.symm.trans hd)]
  · intro hsingle q hq hocc d hd
    rcases hmem q hq with hq | rfl
    · rw [hadded.depth1_of_ne (hne q hq), h.stored1 hsingle q hq hocc d hd]
    · exact hadded.depth1_self hsingle h.length1 hd
  · intro d hd
    rcases storedIn_append.mp hd with hd | hd
    · have hle := h.sizeD_le d hd
      rcases hadded.far with ⟨-, -, hsize, -⟩ | ⟨-, depth1, -, -, hsize, -⟩ <;> omega
    · exact hadded.le_sizeD hdepth0 hd
  · exact hadded.sizeD_mem hdepth0 hlt h.sizeD_mem
  · intro q hq d hd hdlt
    obtain ⟨rest, hrest⟩ := hadded.resampled
    rw [hrest]
    rcases hmem q hq with hq | rfl
    · exact List.mem_append_left _ (h.points q hq d hd hdlt)
    · rw [← Option.some.inj (hdepth0.symm.trans hd)]
      exact List.mem_append_right _ List.mem_cons_self
  · rcases hadded.far with ⟨hsingle, -, -, hcount⟩ | ⟨hsingle, depth1, hdepth1, -, -, hcount⟩
    · rw [hcount, h.d1Count, hsingle]
      rfl
    · rw [hcount, h.d1Count, hsingle, if_neg Bool.false_ne_true, if_neg Bool.false_ne_true,
        List.countP_append, List.countP_singleton, isFar_eq hdepth0 hlt hdepth1]
      congr 1
      by_cases heq : depth0 = depth1
      · simp [heq]
      · simp [heq]
  · rw [hadded.eomCount, h.eomCount, List.filter_append, List.filter_singleton,
      isOccupied_eq hdepth0, decide_eq_true hlt, Bool.cond_true, List.map_append, List.sum_append,
      List.map_singleton, List.sum_singleton]

end Added

/-- A pixel that can be read is resampled. -/
theorem Resampled.exists_added (h : Resampled settings maps visited s) (hp : p ∉ visited)
    (hdepth0 : maps.depth0[p]? = some depth0) (hlt : depth0 < infiniteDepth)
    (hblock : maps.block settings p < maps.occupancy.length) {code : BitVec 16} {deltas : List ℕ}
    (hcode : maps.readCode settings p = some code)
    (hdeltas : eomDeltas settings code = some deltas)
    (hfar : settings.EOMSingleLayerMode = false → ∃ depth1, maps.depth1[p]? = some depth1) :
    ∃ s', addPixel settings s p = some s' ∧ Added settings maps p depth0 s s' := by
  have hsame := h.same
  have hblockEq : s.patch.block settings p = maps.block settings p := by rw [hsame]; rfl
  have hread : s.patch.depth0[p]? = some depth0 := (h.rest0 p hp).trans hdepth0
  have hblock' : s.patch.block settings p < s.patch.occupancy.length := by
    rw [hblockEq, h.lengthOccupancy]
    exact hblock
  have hcode' : s.patch.readCode settings p = some code := by
    rw [hsame]
    exact hcode
  have hstored : ∀ d, storedDepth s.patch d = storedDepth maps d := by
    intro d
    rw [hsame]
    rfl
  have hpoint : pixelPoint s.patch p depth0 = pixelPoint maps p depth0 := by
    rw [hsame]
    rfl
  have hcount : deltas = maps.deltasAt settings p := by
    have hcodeAt : maps.codeAt settings p = code := by
      unfold readCode at hcode
      unfold codeAt
      split_ifs at hcode ⊢
      · rw [List.getD_eq_getElem?_getD, hcode, Option.getD_some]
      · exact Option.some.inj hcode
    unfold deltasAt
    rw [hcodeAt, hdeltas, Option.getD_some]
  cases hsingle : settings.EOMSingleLayerMode with
  | true =>
    refine ⟨_, addPixel_eq hread hlt hblock' hcode' hdeltas hsingle, ?_⟩
    constructor
    · rfl
    · dsimp only
      rw [hstored]
    · exact List.length_set
    · dsimp only
      rw [hpoint]
      exact ⟨_, rfl⟩
    · dsimp only
      rw [hcount]
    · dsimp only
      rw [hstored]
      exact Or.inl ⟨hsingle, rfl, rfl, rfl⟩
  | false =>
    obtain ⟨depth1, hdepth1⟩ := hfar hsingle
    have hread1 : s.patch.depth1[p]? = some depth1 := (h.rest1 p hp).trans hdepth1
    obtain ⟨resampled, hadd⟩ := addPixel_eq_far hread hlt hblock' hcode' hdeltas hsingle hread1
    refine ⟨_, hadd, ?_⟩
    constructor
    · rfl
    · dsimp only
      rw [hstored]
    · exact List.length_set
    · dsimp only
      rw [hpoint]
      exact ⟨_, rfl⟩
    · dsimp only
      rw [hcount]
    · dsimp only
      rw [hstored, hstored]
      exact Or.inr ⟨hsingle, depth1, hdepth1, rfl, rfl, rfl⟩

end Step

theorem Resampled.start (settings : DepthSettings) (maps : SegmentedPatch) :
    Resampled settings maps [] { patch := { maps with sizeD := 0 } } where
  same := rfl
  length0 := rfl
  length1 := rfl
  lengthOccupancy := rfl
  rest0 _ _ := rfl
  rest1 _ _ := rfl
  stored0 p hp := absurd hp List.not_mem_nil
  stored1 _ p hp := absurd hp List.not_mem_nil
  sizeD_le d hd := by
    obtain ⟨p, hp, -⟩ := hd
    exact absurd hp List.not_mem_nil
  sizeD_mem := Or.inl rfl
  points p hp := absurd hp List.not_mem_nil
  d1Count := by
    rw [List.countP_nil]
    split_ifs <;> rfl
  eomCount := rfl

/-- What a patch is after it has been resampled. -/
theorem Resampled.of_resampledPointcloud {s : Resampling}
    (h : resampledPointcloud settings maps = some s) :
    Resampled settings maps (List.range (maps.sizeV * maps.sizeU)) s := by
  refine Codec.inv_of_foldlM_prefix (P := fun visited (s : Resampling) =>
    Resampled settings maps visited s) h (Resampled.start settings maps) ?_
  intro visited p s s' hstart hs hadd
  have hp := (Codec.mem_and_notMem_of_prefix hstart List.nodup_range).2
  obtain ⟨depth0, hread, hcases⟩ := addPixel_eq_some hadd
  have hdepth0 : maps.depth0[p]? = some depth0 := (hs.rest0 p hp).symm.trans hread
  rcases hcases with ⟨hlt, rfl⟩ | ⟨hlt, hblock, ⟨code, deltas, hcode, hdeltas⟩, hfar⟩
  · exact hs.skip hdepth0 hlt
  · have hblock' : maps.block settings p < maps.occupancy.length := by
      rw [hs.lengthOccupancy, hs.same] at hblock
      exact hblock
    have hcode' : maps.readCode settings p = some code := by
      rw [hs.same] at hcode
      exact hcode
    have hfar' : settings.EOMSingleLayerMode = false → ∃ depth1,
        maps.depth1[p]? = some depth1 := by
      intro hsingle
      obtain ⟨depth1, hdepth1⟩ := hfar hsingle
      exact ⟨depth1, (hs.rest1 p hp).symm.trans hdepth1⟩
    obtain ⟨next, hnext, hadded⟩ := hs.exists_added hp hdepth0 hlt hblock' hcode' hdeltas hfar'
    obtain rfl := Option.some.inj (hnext.symm.trans hadd)
    exact hs.added hadded hp hdepth0 hlt

/-- Maps whose pixels can be read are resampled. -/
theorem exists_resampledPointcloud
    (hlength : maps.depth0.length = maps.sizeU * maps.sizeV)
    (hread : ∀ p d, maps.depth0[p]? = some d → d < infiniteDepth →
      maps.block settings p < maps.occupancy.length ∧
      (∃ code deltas, maps.readCode settings p = some code ∧
        eomDeltas settings code = some deltas) ∧
      (settings.EOMSingleLayerMode = false → ∃ depth1, maps.depth1[p]? = some depth1)) :
    ∃ s, resampledPointcloud settings maps = some s ∧
      Resampled settings maps (List.range (maps.sizeV * maps.sizeU)) s := by
  have hstep : ∀ (visited : List ℕ) (p : ℕ) (s : Resampling),
      visited ++ [p] <+: List.range (maps.sizeV * maps.sizeU) →
      Resampled settings maps visited s →
      ∃ s', addPixel settings s p = some s' ∧ Resampled settings maps (visited ++ [p]) s' := by
    intro visited p s hstart hs
    obtain ⟨hmem, hp⟩ := Codec.mem_and_notMem_of_prefix hstart List.nodup_range
    have hbound : p < maps.depth0.length := by
      rw [hlength, Nat.mul_comm]
      exact List.mem_range.mp hmem
    have hdepth0 := List.getElem?_eq_getElem hbound
    generalize maps.depth0[p] = depth0 at hdepth0
    by_cases hlt : depth0 < infiniteDepth
    · obtain ⟨hblock, ⟨code, deltas, hcode, hdeltas⟩, hfar⟩ := hread p depth0 hdepth0 hlt
      obtain ⟨s', hadd, hadded⟩ := hs.exists_added hp hdepth0 hlt hblock hcode hdeltas hfar
      exact ⟨s', hadd, hs.added hadded hp hdepth0 hlt⟩
    · refine ⟨s, ?_, hs.skip hdepth0 hlt⟩
      unfold addPixel
      rw [hs.rest0 p hp, hdepth0, Option.bind_eq_bind, Option.bind_some, if_neg hlt]
  exact Codec.exists_foldlM (P := fun visited (s : Resampling) =>
    Resampled settings maps visited s) hstep (Resampled.start settings maps)

end Resampling

end V3C

import V3C.Reconstruction.GeometryLossless
import V3C.Segmenter.Resampling

/-! From the resampled cloud of the segmenter to the points of the decoder, where there are two
maps and no EOM codes. -/
namespace V3C
open Codec

variable {settings : DepthSettings} {maps : SegmentedPatch}

/-- The near and the far point of a pixel with a depth. -/
def SegmentedPatch.pointsAt (maps : SegmentedPatch) (p : ℕ) : List ResampledPoint :=
  match maps.depth0[p]?, maps.depth1[p]? with
  | some depth0, some depth1 =>
    if depth0 < infiniteDepth then [Resampling.pixelPoint maps p depth0,
      Resampling.pixelPoint maps p depth1] else []
  | _, _ => []

namespace Resampling

open SegmentedPatch

/-- The patch and the cloud after the visited pixels. -/
structure Plain (maps : SegmentedPatch) (visited : List ℕ) (s : Resampling) : Prop where
  same : s.patch = { maps with
    sizeD := s.patch.sizeD
    depth0 := s.patch.depth0
    depth1 := s.patch.depth1
    occupancy := s.patch.occupancy }
  depth0 : ∀ p, s.patch.depth0[p]? = (maps.depth0[p]?).map fun d =>
    if p ∈ visited ∧ d < infiniteDepth then storedDepth maps d else d
  depth1 : ∀ p, s.patch.depth1[p]? = (maps.depth1[p]?).map fun d =>
    if p ∈ visited ∧ maps.isOccupied p = true then storedDepth maps d else d
  resampled : s.resampled = visited.flatMap maps.pointsAt

/-- A pixel without codes. -/
theorem addPixel_plain {s s' : Resampling} {p : ℕ}
    (hcodes : settings.useEnhancedOccupancyMapCode = false) (h : addPixel settings s p = some s') :
    ∃ depth0, s.patch.depth0[p]? = some depth0 ∧
      (¬depth0 < infiniteDepth ∧ s' = s ∨ depth0 < infiniteDepth ∧
        ∃ depth1, s.patch.depth1[p]? = some depth1 ∧
          s'.patch = { s.patch with
            sizeD := s'.patch.sizeD
            depth0 := s.patch.depth0.set p (storedDepth s.patch depth0)
            depth1 := s.patch.depth1.set p (storedDepth s.patch depth1)
            occupancy := s'.patch.occupancy } ∧
          s'.resampled = s.resampled ++
            [pixelPoint s.patch p depth0, pixelPoint s.patch p depth1]) := by
  unfold addPixel at h
  obtain ⟨depth0, hdepth0, h⟩ := Option.bind_eq_some_iff.mp h
  refine ⟨depth0, hdepth0, ?_⟩
  by_cases hlt : depth0 < infiniteDepth
  · rw [if_pos hlt] at h
    obtain ⟨occupancy, -, h⟩ := Option.bind_eq_some_iff.mp h
    obtain ⟨code, -, h⟩ := Option.bind_eq_some_iff.mp h
    obtain ⟨deltas, hdeltas, h⟩ := Option.bind_eq_some_iff.mp h
    have hsingle : settings.EOMSingleLayerMode = false := by
      unfold DepthSettings.EOMSingleLayerMode
      rw [hcodes, Bool.false_and]
    have hnoDeltas : deltas = [] := by
      unfold eomDeltas at hdeltas
      rw [if_neg (by simp [hcodes])] at hdeltas
      exact (Option.some.inj hdeltas).symm
    subst hnoDeltas
    dsimp only at h
    rw [hsingle, if_neg Bool.false_ne_true] at h
    obtain ⟨depth1, hdepth1, h⟩ := Option.bind_eq_some_iff.mp h
    obtain ⟨patch0, hpatch0, h⟩ := Option.bind_eq_some_iff.mp h
    obtain ⟨patch1, hpatch1, h⟩ := Option.bind_eq_some_iff.mp h
    obtain ⟨near, hnear, hpatch0⟩ := Option.bind_eq_some_iff.mp hpatch0
    obtain ⟨far, hfar, hpatch1⟩ := Option.bind_eq_some_iff.mp hpatch1
    obtain rfl := Option.some.inj hpatch0
    obtain rfl := Option.some.inj hpatch1
    obtain rfl : s.patch.depth0.set p (storedDepth s.patch depth0) = near :=
      Option.some.inj ((if_pos (List.getElem?_eq_some_iff.mp hdepth0).1).symm.trans hnear)
    obtain rfl : s.patch.depth1.set p (storedDepth s.patch depth1) = far :=
      Option.some.inj ((if_pos (List.getElem?_eq_some_iff.mp hdepth1).1).symm.trans hfar)
    obtain rfl := Option.some.inj h
    refine Or.inr ⟨hlt, depth1, hdepth1, rfl, ?_⟩
    simp [hcodes, pixelPoint]
  · rw [if_neg hlt] at h
    exact Or.inl ⟨hlt, (Option.some.inj h).symm⟩

theorem plain_of_resampledPointcloud {s : Resampling}
    (hcodes : settings.useEnhancedOccupancyMapCode = false)
    (h : resampledPointcloud settings maps = some s) :
    Plain maps (List.range (maps.sizeV * maps.sizeU)) s := by
  refine inv_of_foldlM_prefix (P := fun visited (s : Resampling) => Plain maps visited s) h
    ⟨rfl, fun p => by simp, fun p => by simp, rfl⟩ ?_
  intro visited p s s' hvisited hs hadd
  obtain ⟨-, hp⟩ := mem_and_notMem_of_prefix hvisited List.nodup_range
  obtain ⟨depth0, hdepth0, hcases⟩ := addPixel_plain hcodes hadd
  have hnear : maps.depth0[p]? = some depth0 := by
    have hread := hs.depth0 p
    rw [hdepth0] at hread
    obtain ⟨d, hd, hsame⟩ := Option.map_eq_some_iff.mp hread.symm
    rw [hd, ← hsame, if_neg fun hvisited => hp hvisited.1]
  have hoccupied : maps.isOccupied p = true ↔ depth0 < infiniteDepth := by
    unfold isOccupied
    rw [List.getD_eq_getElem?_getD, hnear, Option.getD_some, decide_eq_true_iff]
  have hkeep : ∀ q, q ≠ p → (q ∈ visited ++ [p] ↔ q ∈ visited) := by
    intro q hq
    simp [hq]
  rcases hcases with ⟨hinfinite, rfl⟩ | ⟨hlt, depth1, hdepth1, hpatch, hresampled⟩
  · refine ⟨hs.same, fun q => ?_, fun q => ?_, ?_⟩
    · rw [hs.depth0 q]
      apply Option.map_congr
      intro d hd
      by_cases hq : q = p
      · subst hq
        obtain rfl := Option.some.inj (hnear.symm.trans hd)
        rw [if_neg fun h => hinfinite h.2, if_neg fun h => hinfinite h.2]
      · simp only [hkeep q hq]
    · rw [hs.depth1 q]
      apply Option.map_congr
      intro d _
      by_cases hq : q = p
      · subst hq
        rw [if_neg fun h => hinfinite (hoccupied.mp h.2),
          if_neg fun h => hinfinite (hoccupied.mp h.2)]
      · simp only [hkeep q hq]
    · have hpoints : maps.pointsAt p = [] := by
        unfold pointsAt
        rw [hnear]
        cases maps.depth1[p]? with
        | none => rfl
        | some depth1 => exact if_neg hinfinite
      rw [hs.resampled, List.flatMap_append, List.flatMap_singleton, hpoints, List.append_nil]
  · have hfar : maps.depth1[p]? = some depth1 := by
      have hread := hs.depth1 p
      rw [hdepth1] at hread
      obtain ⟨d, hd, hsame⟩ := Option.map_eq_some_iff.mp hread.symm
      rw [hd, ← hsame, if_neg fun hvisited => hp hvisited.1]
    have hstored : ∀ d, storedDepth s.patch d = storedDepth maps d := by
      intro d
      rw [hs.same]
      rfl
    have hpoint : ∀ d, pixelPoint s.patch p d = pixelPoint maps p d := by
      intro d
      rw [hs.same]
      rfl
    refine ⟨?_, fun q => ?_, fun q => ?_, ?_⟩
    · rw [hpatch, hs.same]
    · rw [hpatch]
      dsimp only
      by_cases hq : q = p
      · subst hq
        rw [List.getElem?_set_self (List.getElem?_eq_some_iff.mp hdepth0).1, hnear, Option.map_some,
          if_pos ⟨by simp, hlt⟩, hstored]
      · rw [List.getElem?_set_ne (Ne.symm hq), hs.depth0 q]
        simp only [hkeep q hq]
    · rw [hpatch]
      dsimp only
      by_cases hq : q = p
      · subst hq
        rw [List.getElem?_set_self (List.getElem?_eq_some_iff.mp hdepth1).1, hfar, Option.map_some,
          if_pos ⟨by simp, hoccupied.mpr hlt⟩, hstored]
      · rw [List.getElem?_set_ne (Ne.symm hq), hs.depth1 q]
        simp only [hkeep q hq]
    · have hpoints : maps.pointsAt p = [pixelPoint maps p depth0, pixelPoint maps p depth1] := by
        unfold pointsAt
        rw [hnear, hfar]
        exact if_pos hlt
      rw [hresampled, hs.resampled, List.flatMap_append, List.flatMap_singleton, hpoints, hpoint,
        hpoint]

end Resampling

namespace SegmentedPatch

theorem depth1_mem_of_farDepths {near : SegmentedPatch}
    {surface : SegmentedPatch → List SegmentPoint → ℤ} {colors : List PCCColor3B}
    {component : List SegmentPoint} (hsingle : settings.EOMSingleLayerMode = false)
    (hnear : ∀ d ∈ near.depth0, 0 ≤ d ∧ d < 32768)
    (h : near.farDepths settings surface colors component = some maps) :
    ∀ d ∈ maps.depth1, 0 ≤ d ∧ d < 32768 := by
  unfold farDepths at h
  rw [hsingle, if_neg Bool.false_ne_true] at h
  dsimp only at h
  generalize toInt16 _ = thickness at h
  by_cases hthick : 0 < thickness
  · rw [if_pos hthick] at h
    refine inv_of_foldlM (P := fun _ patch => ∀ d ∈ patch.depth1, 0 ≤ d ∧ d < 32768) h hnear ?_
    intro visited point patch patch' _ hpatch hadd
    unfold addFar at hadd
    obtain ⟨depth0, -, hadd⟩ := Option.bind_eq_some_iff.mp hadd
    obtain ⟨delta, -, hadd⟩ := Option.bind_eq_some_iff.mp hadd
    cases delta with
    | none =>
      obtain rfl := Option.some.inj hadd
      exact hpatch
    | some deltaD =>
      obtain ⟨extended, hextend, hadd⟩ := Option.bind_eq_some_iff.mp hadd
      have hextended : ∀ d ∈ extended.depth1, 0 ≤ d ∧ d < 32768 := by
        unfold extendFar at hextend
        obtain ⟨far, -, hextend⟩ := Option.bind_eq_some_iff.mp hextend
        split_ifs at hextend
        · obtain ⟨depth1, hset, hextend⟩ := Option.bind_eq_some_iff.mp hextend
          obtain rfl := Option.some.inj hextend
          unfold Cells.setAt at hset
          split_ifs at hset
          obtain rfl := Option.some.inj hset
          intro d hd
          rcases List.mem_or_eq_of_mem_set hd with hmem | rfl
          · exact hpatch d hmem
          · have := point.normal_lt
            omega
        · obtain rfl := Option.some.inj hextend
          exact hpatch
      split_ifs at hadd
      · obtain ⟨code, bit, -, -, rfl⟩ := addCode_eq_some hadd
        exact hextended
      · obtain rfl := Option.some.inj hadd
        exact hextended
  · rw [if_neg hthick] at h
    obtain rfl := Option.some.inj h
    exact hnear

theorem NearDepths.depth0_mem {near : SegmentedPatch} {projectionMode : ℕ}
    {isAdditionalProjectionPlane : Bool} {component : List SegmentPoint}
    (h : near.NearDepths settings projectionMode isAdditionalProjectionPlane component) :
    ∀ d ∈ near.depth0, 0 ≤ d ∧ d < 32768 := by
  intro d hd
  by_cases hinfinite : d = infiniteDepth
  · rw [hinfinite]
    decide
  · obtain ⟨p, hp⟩ := List.getElem?_of_mem hd
    obtain ⟨point, -, -, hnormal, -⟩ := h.point p d hp hinfinite
    have := point.normal_lt
    omega

end SegmentedPatch

def DepthPatch.placePoint (patch : DepthPatch) (point : ResampledPoint) : Option PCCPoint3D := do
  let point0 ← (default : PCCPoint3D).setAxis patch.normalAxis point.normal
  let point0 ← point0.setAxis patch.tangentAxis point.tangent
  point0.setAxis patch.bitangentAxis point.bitangent

/-- The patch that `segmentPatches` registers for a component, at its place in a tile, with the
points that it adds to the resampled cloud. -/
structure Registered (settings : DepthSettings)
    (getPatchSurfaceThickness : SegmentedPatch → List SegmentPoint → ℤ)
    (colors : List PCCColor3B) (patch : DepthPatch) (component : List SegmentPoint)
    (cloud : List ResampledPoint) : Prop where
  exists_segmented : ∃ segmented, registerPatch settings getPatchSurfaceThickness colors
      patch.projectionMode false component = some (segmented, cloud) ∧
    (patch.u1 = segmented.u1 ∧ patch.v1 = segmented.v1 ∧ patch.d1 = segmented.d1) ∧
    (patch.sizeU = segmented.sizeU ∧ patch.sizeV = segmented.sizeV) ∧
    patch.depth 0 = segmented.depth0 ∧ patch.depth 1 = segmented.depth1
  mode : patch.projectionMode ≤ 1
  levelOfDetail : patch.levelOfDetailX = 1 ∧ patch.levelOfDetailY = 1
  axis : patch.axisOfAdditionalPlane = 0

/-- The decoder adds to `d1` what the segmenter has stored, where that is a depth. -/
theorem DepthPatch.generateNormalCoordinate_storedDepth {patch : DepthPatch} {d : ℤ}
    (hmode : patch.projectionMode ≤ 1) (hsame : patch.projectionMode = maps.projectionMode)
    (hd1 : patch.d1 = maps.d1) (hbound : patch.d1 < 32768) (hd : 0 ≤ d ∧ d < 32768)
    (hstored : 0 ≤ Resampling.storedDepth maps d) :
    (patch.generateNormalCoordinate (Resampling.storedDepth maps d).toNat : ℤ) = d := by
  unfold Resampling.storedDepth SegmentedPatch.projectionDirectionType at hstored ⊢
  rw [← hsame, ← hd1, toInt16_of_lt (n := (patch.d1 : ℤ)) (by omega) (by omega)] at hstored ⊢
  unfold CanvasPatch.generateNormalCoordinate
  rcases Nat.le_one_iff_eq_zero_or_eq_one.mp hmode with hzero | hone
  · rw [hzero] at hstored ⊢
    rw [if_pos rfl]
    simp only [Nat.cast_zero, mul_zero, zero_add, one_mul] at hstored ⊢
    rw [toInt16_of_lt (by omega) (by omega)] at hstored ⊢
    omega
  · rw [hone] at hstored ⊢
    rw [if_neg one_ne_zero]
    simp only [Nat.cast_one, mul_one, show (-2 + 1 : ℤ) = -1 from rfl, neg_one_mul,
      neg_sub] at hstored ⊢
    rw [toInt16_of_lt (by omega) (by omega)] at hstored ⊢
    omega

/-- The maps that a patch and its part of the resampled cloud are made of. -/
structure FromMaps (maps : SegmentedPatch) (patch : DepthPatch) (cloud : List ResampledPoint) :
    Prop where
  mode : patch.projectionMode = maps.projectionMode
  u1 : patch.u1 = maps.u1
  v1 : patch.v1 = maps.v1
  d1 : patch.d1 = maps.d1
  sizeU : patch.sizeU = maps.sizeU
  sizeV : patch.sizeV = maps.sizeV
  depth0 : ∀ p < maps.sizeV * maps.sizeU, (patch.depth 0)[p]? = (maps.depth0[p]?).map fun d =>
    if d < infiniteDepth then Resampling.storedDepth maps d else d
  depth1 : ∀ p < maps.sizeV * maps.sizeU, (patch.depth 1)[p]? = (maps.depth1[p]?).map fun d =>
    if maps.isOccupied p = true then Resampling.storedDepth maps d else d
  range0 : ∀ d ∈ maps.depth0, 0 ≤ d ∧ d < 32768
  range1 : ∀ d ∈ maps.depth1, 0 ≤ d ∧ d < 32768
  cloud_eq : cloud = (List.range (maps.sizeV * maps.sizeU)).flatMap maps.pointsAt

section

variable {getPatchSurfaceThickness : SegmentedPatch → List SegmentPoint → ℤ}
  {colors : List PCCColor3B} {patch : DepthPatch} {component : List SegmentPoint}
  {cloud : List ResampledPoint} {resolution bits : ℕ}

theorem Registered.exists_fromMaps
    (h : Registered settings getPatchSurfaceThickness colors patch component cloud)
    (hlevel : 0 < settings.minLevel) (hcodes : settings.useEnhancedOccupancyMapCode = false) :
    ∃ maps, FromMaps maps patch cloud := by
  obtain ⟨segmented, hregister, ⟨hu1, hv1, hd1⟩, ⟨hsizeU, hsizeV⟩, hdepth0, hdepth1⟩ :=
    h.exists_segmented
  unfold registerPatch at hregister
  obtain ⟨maps, hmaps, hregister⟩ := Option.bind_eq_some_iff.mp hregister
  obtain ⟨s, hs, hregister⟩ := Option.bind_eq_some_iff.mp hregister
  obtain ⟨quantized, hquantize, hregister⟩ := Option.bind_eq_some_iff.mp hregister
  obtain ⟨hsegmented, hcloud⟩ := Prod.mk.inj (Option.some.inj hregister)
  obtain ⟨near, -, hfar, hnear⟩ := SegmentedPatch.exists_near_of_patchMaps hlevel hmaps
  have hsingle : settings.EOMSingleLayerMode = false := by
    unfold DepthSettings.EOMSingleLayerMode
    rw [hcodes, Bool.false_and]
  have hmapsNear := SegmentedPatch.Maps.of_farDepths hfar
  have hrange0 := hnear.depth0_mem
  have hplain := Resampling.plain_of_resampledPointcloud hcodes hs
  -- the last stages change the depth range and the counts only
  obtain ⟨sizeD, sizeDPixel, rfl⟩ : ∃ sizeD sizeDPixel,
      quantized = { s.patch with sizeD, sizeDPixel } := by
    unfold SegmentedPatch.quantizeSizeD at hquantize
    dsimp only at hquantize
    split at hquantize
    · cases hquantize
    · exact ⟨_, _, (Option.some.inj hquantize).symm⟩
  obtain rfl := hsegmented
  obtain rfl := hcloud
  have hin : ∀ p < maps.sizeV * maps.sizeU, p ∈ List.range (maps.sizeV * maps.sizeU) :=
    fun p hp => List.mem_range.mpr hp
  have hsame : s.patch.u1 = maps.u1 ∧ s.patch.v1 = maps.v1 ∧ s.patch.d1 = maps.d1 ∧
      s.patch.sizeU = maps.sizeU ∧ s.patch.sizeV = maps.sizeV := by
    rw [hplain.same]
    exact ⟨rfl, rfl, rfl, rfl, rfl⟩
  refine ⟨maps, ?_, hu1.trans hsame.1, hv1.trans hsame.2.1, hd1.trans hsame.2.2.1,
    hsizeU.trans hsame.2.2.2.1, hsizeV.trans hsame.2.2.2.2, fun p hp => ?_, fun p hp => ?_, ?_,
    SegmentedPatch.depth1_mem_of_farDepths hsingle hrange0 hfar, hplain.resampled⟩
  · exact hnear.mode.symm.trans (congrArg SegmentedPatch.projectionMode hmapsNear.same).symm
  · have hnearMap := hplain.depth0 p
    simp only [hin p hp, true_and] at hnearMap
    rw [hdepth0]
    exact hnearMap
  · have hfarMap := hplain.depth1 p
    simp only [hin p hp, true_and] at hfarMap
    rw [hdepth1]
    exact hfarMap
  · rw [hmapsNear.same]
    exact hrange0

/-- A stored depth generates the point that it was stored for. -/
theorem FromMaps.generatePoint_eq (h : FromMaps maps patch cloud)
    (hcoded : patch.Coded resolution bits) (hmode : patch.projectionMode ≤ 1)
    (hlevel : patch.levelOfDetailX = 1 ∧ patch.levelOfDetailY = 1) {u v : ℕ}
    (hu : u < patch.sizeU) (hv : v < patch.sizeV) {d : ℤ} (hd : 0 ≤ d ∧ d < 32768)
    (hstored : 0 ≤ Resampling.storedDepth maps d) :
    patch.generatePoint u v (Resampling.storedDepth maps d).toNat =
      patch.placePoint (Resampling.pixelPoint maps (v * patch.sizeU + u) d) := by
  have hbound := hcoded.normal
  have hbits := Nat.two_pow_pos bits
  have hnormal := DepthPatch.generateNormalCoordinate_storedDepth hmode h.mode h.d1 (by omega) hd
    hstored
  have htangent := hcoded.tangent u (hu.trans_le hcoded.columns)
  have hbitangent := hcoded.bitangent v (hv.trans_le hcoded.rows)
  have hmod : (v * patch.sizeU + u) % maps.sizeU = u := by
    rw [← h.sizeU, Nat.mul_comm, Nat.mul_add_mod, Nat.mod_eq_of_lt hu]
  have hdiv : (v * patch.sizeU + u) / maps.sizeU = v := by
    rw [← h.sizeU, Nat.mul_comm, Nat.mul_add_div (by omega), Nat.div_eq_of_lt hu, Nat.add_zero]
  unfold CanvasPatch.generatePoint DepthPatch.placePoint PCCCodec.int16OfDouble
    Resampling.pixelPoint
  dsimp only
  rw [if_pos (by omega), if_pos htangent, if_pos hbitangent, hnormal, hmod, hdiv, hlevel.1,
    hlevel.2, ← h.u1, ← h.v1, Nat.mul_one, Nat.mul_one]
  rfl

theorem FromMaps.storedDepth_lt (h : FromMaps maps patch cloud)
    (hcoded : patch.Coded resolution bits) (hmode : patch.projectionMode ≤ 1) {d : ℤ}
    (hlow : 0 ≤ d) (hfinite : d < infiniteDepth) :
    Resampling.storedDepth maps d < infiniteDepth := by
  have hbound := hcoded.normal
  have hbits : 2 ^ 1 ≤ 2 ^ bits := Nat.pow_le_pow_right (by decide) hcoded.bits_pos
  unfold Resampling.storedDepth SegmentedPatch.projectionDirectionType
  unfold infiniteDepth at hfinite ⊢
  rw [← h.mode, ← h.d1, toInt16_of_lt (n := (patch.d1 : ℤ)) (by omega) (by omega)]
  rcases Nat.le_one_iff_eq_zero_or_eq_one.mp hmode with hzero | hone
  · rw [hzero, toInt16_of_lt (by omega) (by omega)]
    omega
  · rw [hone, toInt16_of_lt (by omega) (by omega)]
    omega

/-- A step has the points that the segmenter resampled for its pixel. -/
theorem FromMaps.depthPoints_eq (h : FromMaps maps patch cloud)
    (hregistered : Registered settings getPatchSurfaceThickness colors patch component cloud)
    (hcoded : patch.Coded resolution bits) {params : GeometryParameters}
    (htwoMaps : params.mapCountMinus1 ≠ 0) (hduplicates : params.removeDuplicatePoints = false)
    (inverseRotate : ℕ → PCCPoint3D → PCCPoint3D) {i u v : ℕ} (hu : u < patch.sizeU)
    (hv : v < patch.sizeV) :
    GeometryTile.depthPoints params inverseRotate ((patch, i), (u, v)) =
      (maps.pointsAt (v * patch.sizeU + u)).mapM patch.placePoint := by
  have hlt : v * patch.sizeU + u < maps.sizeV * maps.sizeU := by
    rw [← h.sizeU, ← h.sizeV, Nat.mul_comm patch.sizeV]
    exact pixel_lt hu hv
  obtain ⟨stored0, hstored0⟩ := hcoded.exists_depth 0 hu hv
  obtain ⟨stored1, hstored1⟩ := hcoded.exists_depth 1 hu hv
  obtain ⟨d0, hd0, hsame0⟩ := Option.map_eq_some_iff.mp ((h.depth0 _ hlt).symm.trans hstored0)
  obtain ⟨d1, hd1, hsame1⟩ := Option.map_eq_some_iff.mp ((h.depth1 _ hlt).symm.trans hstored1)
  have hrange0 := h.range0 d0 (List.mem_of_getElem? hd0)
  have hrange1 := h.range1 d1 (List.mem_of_getElem? hd1)
  unfold GeometryTile.depthPoints SegmentedPatch.pointsAt
  dsimp only
  rw [hstored0, Option.bind_eq_bind, Option.bind_some, hd0, hd1]
  dsimp only
  by_cases hfinite : d0 < infiniteDepth
  · have hoccupied : maps.isOccupied (v * patch.sizeU + u) = true := by
      unfold SegmentedPatch.isOccupied
      rw [List.getD_eq_getElem?_getD, hd0, Option.getD_some, decide_eq_true_iff]
      exact hfinite
    rw [if_pos hfinite] at hsame0
    rw [if_pos hoccupied] at hsame1
    subst hsame0 hsame1
    have hlt0 := h.storedDepth_lt hcoded hregistered.mode hrange0.1 hfinite
    have hlt1 := (hcoded.both (u, v) _ _ hstored0 hstored1).mp hlt0
    have hnonneg0 := (hcoded.bounded 0 _ (List.mem_of_getElem? hstored0) hlt0).1
    have hnonneg1 := (hcoded.bounded 1 _ (List.mem_of_getElem? hstored1) hlt1).1
    have hmaps : params.maps = [0, 1] := if_neg htwoMaps
    have hpoint0 := h.generatePoint_eq hcoded hregistered.mode hregistered.levelOfDetail hu hv
      hrange0 hnonneg0
    have hpoint1 := h.generatePoint_eq hcoded hregistered.mode hregistered.levelOfDetail hu hv
      hrange1 hnonneg1
    rw [if_pos hlt0, if_pos hfinite, hmaps]
    unfold DepthPatch.pixelPoints
    simp only [List.mapM_cons, List.mapM_nil, hstored0, hstored1, Option.map_some, hpoint0, hpoint1,
      Option.bind_eq_bind, Option.bind_some, Option.pure_def]
    cases patch.placePoint (Resampling.pixelPoint maps (v * patch.sizeU + u) d0) with
    | none => rfl
    | some point0 =>
      cases patch.placePoint (Resampling.pixelPoint maps (v * patch.sizeU + u) d1) with
      | none => rfl
      | some point1 => simp [hduplicates, hregistered.axis]
  · rw [if_neg hfinite] at hsame0
    rw [if_neg hfinite, if_neg (hsame0 ▸ hfinite)]
    rfl

theorem mapM_flatMap {α β γ : Type} (g : β → Option γ) (f : α → List β) (l : List α) :
    (l.flatMap f).mapM g = (l.mapM fun a => (f a).mapM g).map List.flatten := by
  induction l with
  | nil => rfl
  | cons a l ih =>
    rw [List.flatMap_cons, List.mapM_append, List.mapM_cons, ih]
    cases (f a).mapM g with
    | none => rfl
    | some bs => cases l.mapM fun a => (f a).mapM g <;> rfl

/-- The steps of a patch have its part of the resampled cloud. -/
theorem FromMaps.mapM_depthPoints (h : FromMaps maps patch cloud)
    (hregistered : Registered settings getPatchSurfaceThickness colors patch component cloud)
    (hcoded : patch.Coded resolution bits) {params : GeometryParameters}
    (htwoMaps : params.mapCountMinus1 ≠ 0) (hduplicates : params.removeDuplicatePoints = false)
    (inverseRotate : ℕ → PCCPoint3D → PCCPoint3D) (i : ℕ) :
    (((grid patch.sizeU patch.sizeV).map fun pixel => ((patch, i), pixel)).mapM
        (GeometryTile.depthPoints params inverseRotate)).map List.flatten =
      cloud.mapM patch.placePoint := by
  rw [h.cloud_eq, mapM_flatMap, List.mapM_map, grid_eq_map, List.mapM_map, ← h.sizeU, ← h.sizeV]
  congr 1
  apply mapM_congr_of_mem
  intro p hp
  have hlt := List.mem_range.mp hp
  have hpos : 0 < patch.sizeU := Nat.pos_of_ne_zero fun hzero => by simp [hzero] at hlt
  have hpoints := h.depthPoints_eq hregistered hcoded htwoMaps hduplicates inverseRotate (i := i)
    (Nat.mod_lt p hpos) (Nat.div_lt_of_lt_mul (Nat.mul_comm _ _ ▸ hlt))
  rw [Nat.div_add_mod'] at hpoints
  exact hpoints

end

theorem map_mapM {α β γ : Type} (f : α → Option β) (h : β → γ) (l : List α) :
    (l.mapM f).map (List.map h) = l.mapM fun a => (f a).map h := by
  induction l with
  | nil => rfl
  | cons a l ih =>
    rw [List.mapM_cons, List.mapM_cons, ← ih]
    cases f a with
    | none => rfl
    | some b => cases l.mapM f <;> rfl

/-- A frame whose patches are registered by the segmenter, with two maps and without EOM codes. -/
structure SegmentedGeometry extends CodedGeometry where
  settings : DepthSettings
  getPatchSurfaceThickness : SegmentedPatch → List SegmentPoint → ℤ
  colors : List PCCColor3B
  level : 0 < settings.minLevel
  codes : settings.useEnhancedOccupancyMapCode = false
  twoMaps : params.mapCountMinus1 ≠ 0
  duplicates : params.removeDuplicatePoints = false
  components : GeometryTile → List (List SegmentPoint × List ResampledPoint)
  registered : ∀ tile ∈ tiles, List.Forall₂ (fun patch component =>
    Registered settings getPatchSurfaceThickness colors patch component.1 component.2)
      tile.patches (components tile)

namespace SegmentedGeometry

variable (frame : SegmentedGeometry)

/-- The points that the segmenter added to the resampled cloud for the patches of a tile. -/
def resampledPoints (tile : GeometryTile) : Option (List PCCPoint3D) := do
  let points ← (tile.patches.zip (frame.components tile)).mapM fun registered =>
    registered.2.2.mapM registered.1.placePoint
  some points.flatten

/-- The steps of the patches have their parts of the resampled cloud. -/
theorem mapM_patches (inverseRotate : ℕ → PCCPoint3D → PCCPoint3D) {bits start : ℕ}
    {patches : List DepthPatch} {components : List (List SegmentPoint × List ResampledPoint)}
    (hregistered : List.Forall₂ (fun patch component =>
      Registered frame.settings frame.getPatchSurfaceThickness frame.colors patch
        (Prod.fst component) (Prod.snd component)) patches components)
    (hcoded : ∀ patch ∈ patches, patch.Coded frame.params.occupancyResolution bits) :
    ((patches.zipIdx start).mapM fun patch =>
        (((grid patch.1.sizeU patch.1.sizeV).map fun pixel => (patch, pixel)).mapM
          (GeometryTile.depthPoints frame.params inverseRotate)).map List.flatten) =
      (patches.zip components).mapM fun registered =>
        registered.2.2.mapM registered.1.placePoint := by
  induction hregistered generalizing start with
  | nil => rfl
  | @cons patch component patches components hpatch _ ih =>
    obtain ⟨maps, hmaps⟩ := hpatch.exists_fromMaps frame.level frame.codes
    rw [List.zipIdx_cons, List.zip_cons_cons, List.mapM_cons, List.mapM_cons,
      hmaps.mapM_depthPoints hpatch (hcoded patch List.mem_cons_self) frame.twoMaps
        frame.duplicates inverseRotate start,
      ih fun later hlater => hcoded later (List.mem_cons_of_mem patch hlater)]

/-- The points that the patches of a tile stand for are those of the resampled cloud, in order. -/
theorem points_eq_resampledPoints (inverseRotate : ℕ → PCCPoint3D → PCCPoint3D)
    {tile : GeometryTile} (htile : tile ∈ frame.tiles) :
    tile.points frame.params inverseRotate = frame.resampledPoints tile := by
  have hcoded := (frame.placed tile htile).coded
  have hsteps := @mapM_patches frame inverseRotate _ 0 _ _ (frame.registered tile htile)
    fun patch hpatch => (hcoded.patches patch hpatch).1
  unfold GeometryTile.points resampledPoints PCCEncoder.depthSteps
  rw [mapM_flatMap, ← hsteps, ← map_mapM]
  cases (tile.patches.zipIdx 0).mapM fun patch =>
      ((grid patch.1.sizeU patch.1.sizeV).map fun pixel => (patch, pixel)).mapM
        (GeometryTile.depthPoints frame.params inverseRotate) with
  | none => rfl
  | some points => exact congrArg some List.flatten_flatten

/-- The decoder has the resampled cloud of the segmenter back: from the occupancy video and the
pictures of both maps it generates in every tile the points that the segmenter resampled for the
patches of the tile, and no others if the precision is one. -/
theorem regularPoints_perm_resampledPoints (inverseRotate : ℕ → PCCPoint3D → PCCPoint3D) :
    ∃ occupancyMap video images,
      PCCEncoder.generateOccupancyMap frame.toGeometryFrame = some occupancyMap ∧
      PCCEncoder.generateOccupancyMapVideo frame.params frame.width frame.height occupancyMap =
        some video ∧
      frame.params.maps.mapM (PCCEncoder.generateIntraImage frame.toGeometryFrame) =
        some images ∧
      ∀ frames, List.Forall₂ (Padded frame.toCodedGeometry occupancyMap) images frames →
        ∀ tile ∈ frame.tiles, ∃ entries resampled added,
          PCCCodec.regularPoints frame.params inverseRotate tile video frames = some entries ∧
          frame.resampledPoints tile = some resampled ∧
          (entries.map Prod.fst).Perm (resampled ++ added) ∧
          (frame.params.occupancyPrecision = 1 → added = []) := by
  obtain ⟨occupancyMap, video, images, hrun, hvideo, himages, hmap, hshown⟩ :=
    frame.exists_pictures
  refine ⟨occupancyMap, video, images, hrun, hvideo, himages, fun frames hframes tile htile => ?_⟩
  rw [← frame.points_eq_resampledPoints inverseRotate htile]
  exact CodedGeometry.exists_regularPoints hmap hshown inverseRotate htile himages hframes

end SegmentedGeometry

/-- Settings with units of four and no EOM codes. -/
def unitsOf4 : DepthSettings where
  mapCountMinus1 := 1
  useEnhancedOccupancyMapCode := false
  useSurfaceSeparation := false
  EOMFixBitCount := 2
  surfaceThickness := 4
  maxAllowedDepth := 255
  minLevel := 4
  occupancyResolution := 2
  geometryBitDepth2D := 8
  geometryBitDepth3D := 10

def nearPoint (index : ℕ) (normal tangent bitangent : Fin 16) : SegmentPoint where
  index := index
  normal := normal
  tangent := tangent
  bitangent := bitangent
  normal_lt := by omega
  tangent_lt := by omega
  bitangent_lt := by omega

/-- Two points on one line of sight, and two beside them. -/
def cornerComponent : List SegmentPoint :=
  [nearPoint 0 5 3 2, nearPoint 1 7 3 2, nearPoint 2 6 4 2, nearPoint 3 9 3 3]

def nearCloud : List ResampledPoint :=
  [⟨5, 3, 2⟩, ⟨7, 3, 2⟩, ⟨6, 4, 2⟩, ⟨6, 4, 2⟩, ⟨9, 3, 3⟩, ⟨9, 3, 3⟩]

def farCloud : List ResampledPoint :=
  [⟨7, 3, 2⟩, ⟨5, 3, 2⟩, ⟨6, 4, 2⟩, ⟨6, 4, 2⟩, ⟨9, 3, 3⟩, ⟨9, 3, 3⟩]

/-- What `segmentPatches` registers for the component from one side. -/
def registerCorner (projectionMode : ℕ) : Option (SegmentedPatch × List ResampledPoint) :=
  registerPatch unitsOf4 (fun _ _ => 4) (List.replicate 4 default) projectionMode false
    cornerComponent

theorem blockPatch_registered {place : PatchPlacement} {projectionMode d1 : ℕ}
    {near far : List ℤ} {cloud : List ResampledPoint} (hmode : projectionMode ≤ 1)
    (hbox : (registerCorner projectionMode).map (fun registered => (registered.1.u1,
      registered.1.v1, registered.1.d1, registered.1.sizeU, registered.1.sizeV)) =
        some (3, 2, d1, 2, 2))
    (hdepth : (registerCorner projectionMode).map (fun registered => (registered.1.depth0,
      registered.1.depth1, registered.2)) = some (near, far, cloud)) :
    Registered unitsOf4 (fun _ _ => 4) (List.replicate 4 default)
      (blockPatch place projectionMode d1 near far) cornerComponent cloud where
  exists_segmented := by
    obtain ⟨⟨segmented, resampled⟩, hrun, hsame⟩ := Option.map_eq_some_iff.mp hdepth
    rw [hrun, Option.map_some, Option.some.injEq] at hbox
    simp only [Prod.mk.injEq] at hbox hsame
    obtain ⟨hu1, hv1, hd1, hsizeU, hsizeV⟩ := hbox
    obtain ⟨hdepth0, hdepth1, rfl⟩ := hsame
    exact ⟨segmented, hrun, ⟨hu1.symm, hv1.symm, hd1.symm⟩, ⟨hsizeU.symm, hsizeV.symm⟩,
      hdepth0.symm, hdepth1.symm⟩
  mode := hmode
  levelOfDetail := ⟨rfl, rfl⟩
  axis := rfl

theorem nearPatch_registered (place : PatchPlacement) :
    Registered unitsOf4 (fun _ _ => 4) (List.replicate 4 default) (nearPatch place)
      cornerComponent nearCloud :=
  blockPatch_registered (by decide) (by decide +kernel) (by decide +kernel)

theorem farPatch_registered (place : PatchPlacement) :
    Registered unitsOf4 (fun _ _ => 4) (List.replicate 4 default) (farPatch place)
      cornerComponent farCloud :=
  blockPatch_registered (by decide) (by decide +kernel) (by decide +kernel)

/-- The tiles of `tilePair`, with the patches that the segmenter registers for the component, seen
from both sides. -/
def segmentedTiles : SegmentedGeometry where
  toCodedGeometry := codedTiles 1 1 false (by decide)
  settings := unitsOf4
  getPatchSurfaceThickness := fun _ _ => 4
  colors := List.replicate 4 default
  level := by decide
  codes := rfl
  twoMaps := by decide
  duplicates := rfl
  components := fun tile =>
    if tile.leftTopX = 0 then [(cornerComponent, nearCloud), (cornerComponent, farCloud)]
    else [(cornerComponent, nearCloud)]
  registered := by
    intro tile htile
    rcases List.mem_pair.mp htile with rfl | rfl
    · exact .cons (nearPatch_registered _) (.cons (farPatch_registered _) .nil)
    · exact .cons (nearPatch_registered _) .nil

/-- From padded pictures the decoder has the resampled points of the tile at the edge back. -/
theorem regularPoints_segmentedTiles :
    ∃ occupancyMap video images entries,
      PCCEncoder.generateOccupancyMap tilePair = some occupancyMap ∧
      PCCEncoder.generateOccupancyMapVideo segmentedTiles.params 8 4 occupancyMap = some video ∧
      [0, 1].mapM (PCCEncoder.generateIntraImage tilePair) = some images ∧
      PCCCodec.regularPoints segmentedTiles.params (fun _ point => point) edgeTile video
        (images.map (padGrey occupancyMap)) = some entries ∧
      (entries.map Prod.fst).Perm (nearCloud.map fun point =>
        ⟨point.normal, point.bitangent, point.tangent⟩) := by
  obtain ⟨occupancyMap, video, images, hmap, hvideo, himages, hpoints⟩ :=
    segmentedTiles.regularPoints_perm_resampledPoints fun _ point => point
  obtain rfl := Option.some.inj (generateOccupancyMap_tilePair.symm.trans hmap)
  obtain ⟨entries, resampled, added, hrun, hresampled, hperm, hone⟩ :=
    hpoints _ (padGrey_forall₂ _ rfl himages) edgeTile (List.mem_cons_of_mem _ List.mem_cons_self)
  refine ⟨tilePairMap, video, images, entries, hmap, hvideo, himages, hrun, ?_⟩
  rw [hone rfl, List.append_nil] at hperm
  have hcloud : segmentedTiles.resampledPoints edgeTile = some (nearCloud.map fun point =>
      ⟨point.normal, point.bitangent, point.tangent⟩) := rfl
  obtain rfl := Option.some.inj (hresampled.symm.trans hcloud)
  exact hperm

end V3C

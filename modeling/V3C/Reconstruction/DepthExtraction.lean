import V3C.Packing.AuxiliaryPlacement
import V3C.Reconstruction.CanvasMapping

/-! The depth map of a patch, copied from the geometry picture block by block. -/
namespace V3C
open Cells

/-- The value of an `int32_t` expression, which may not overflow. -/
def checkInt32 (n : ℤ) : Option ℤ := if -2 ^ 31 ≤ n ∧ n < 2 ^ 31 then some n else none

/-- The conversion of a `size_t` expression to `int32_t`. -/
def sizeToInt32 (n : ℤ) : ℤ := toInt32 (toSizeT n)

namespace CanvasPatch

/-- `x + width * y`. -/
def sampleIndex (width : ℕ) (x y : ℤ) : Option ℤ := do
  let row ← checkInt32 (width * y)
  checkInt32 (x + row)

/-- The index into the geometry picture that the loops of an orientation reach for a pixel. -/
def geometryIndex (patch : CanvasPatch) (width u v : ℕ) : Option ℤ :=
  let x0 := sizeToInt32 (patch.u0 * patch.occupancyResolution)
  let y0 := sizeToInt32 (patch.v0 * patch.occupancyResolution)
  let sizeU : ℤ := patch.sizeU0 * patch.occupancyResolution
  let sizeV : ℤ := patch.sizeV0 * patch.occupancyResolution
  match patch.patchOrientation with
  | .default => do
    let row ← checkInt32 ((v + y0) * width)
    let y ← checkInt32 (row + x0)
    checkInt32 (u + y)
  | .swap => do
    let row ← checkInt32 (width * y0)
    let x ← checkInt32 (v + x0 + row)
    -- the running offset of the row
    let y ← checkInt32 (u * width)
    checkInt32 (x + y)
  | .rot90 => sampleIndex width (sizeToInt32 (sizeV - 1 - v + x0)) (u + y0)
  | .rot180 =>
    sampleIndex width (sizeToInt32 (sizeU - 1 - u + x0)) (sizeToInt32 (sizeV - 1 - v + y0))
  | .rot270 => sampleIndex width (v + x0) (sizeToInt32 (sizeU - 1 - u + y0))
  | .mirror => sampleIndex width (sizeToInt32 (sizeU - 1 - u) + x0) (v + y0)
  | .mrot90 =>
    sampleIndex width (sizeToInt32 (sizeV - 1 - v) + x0) (sizeToInt32 (sizeU - 1 - u) + y0)
  | .mrot180 => sampleIndex width (u + x0) (sizeToInt32 (sizeV - 1 - v + y0))
  | .mrot270 => sampleIndex width (v + x0) (u + y0)
  | .other _ => none

/-- One sample of the copy, where `depth` is the pointer into the depth map. -/
def copyDepth (patch : CanvasPatch) (geometryVideo : List ℕ) (width depthMapWidth depth u v : ℕ)
    (depthMap : List ℤ) : Option (List ℤ) := do
  let index ← patch.geometryIndex width u v
  let sample ← if index < 0 then none else geometryVideo[index.toNat]?
  setAt depthMap (depth + v * depthMapWidth + u) (toInt16 sample)

/-- `PCCPatch::setDepthFromGeometryVideo`. -/
def setDepthFromGeometryVideo (patch : CanvasPatch) (geometryVideo : List ℕ) (u2 v2 width : ℕ)
    (occupancyPrecision depthMapWidth depth : ℕ) (depthMap : List ℤ) : Option (List ℤ) :=
  (grid occupancyPrecision occupancyPrecision).foldlM (fun depthMap block =>
    patch.copyDepth geometryVideo width depthMapWidth depth (u2 + block.1) (v2 + block.2) depthMap)
    depthMap

/-- The depth map that `setLocalData` gives a patch: its pixels with a border on each side. -/
structure DepthMapOf (patch : CanvasPatch) (border depthMapWidth depth : ℕ) (depthMap : List ℤ) :
    Prop where
  width_eq : depthMapWidth = patch.width + 2 * border
  width_lt : depthMapWidth < 2 ^ 15
  length_eq : depthMap.length = depthMapWidth * (patch.height + 2 * border)
  depth_eq : depth = border + depthMapWidth * border

/-- A geometry picture; its samples are counted in an `int32_t`. -/
structure GeometryPicture (geometryVideo : List ℕ) (width height : ℕ) : Prop where
  length_eq : geometryVideo.length = width * height
  samples_lt : width * height < 2 ^ 31

/-- The block gets the samples at the canvas pixels of its own, and nothing else changes. -/
def CopiesBlock (patch : CanvasPatch) (geometryVideo : List ℕ) (width height : ℕ) (u2 v2 : ℕ)
    (occupancyPrecision depthMapWidth depth : ℕ) (before after : List ℤ) : Prop :=
  (∀ i < occupancyPrecision, ∀ j < occupancyPrecision, ∃ x y sample,
    patch.patch2Canvas patch.occupancyResolution (u2 + i) (v2 + j) width height = some (x, y) ∧
      geometryVideo[y * width + x]? = some sample ∧
      after[depth + (v2 + j) * depthMapWidth + (u2 + i)]? = some (toInt16 sample)) ∧
  ∀ k, (∀ i < occupancyPrecision, ∀ j < occupancyPrecision,
    k ≠ depth + (v2 + j) * depthMapWidth + (u2 + i)) → after[k]? = before[k]?

section Index

variable {limit : ℕ}

theorem checkInt32_eq (hlimit : limit ≤ 2 ^ 31) {n : ℤ} {m : ℕ} (h : n = m) (hm : m < limit) :
    checkInt32 n = some n := by
  unfold checkInt32
  rw [if_pos (by omega)]

theorem sizeToInt32_eq (hlimit : limit ≤ 2 ^ 31) {n : ℤ} {m : ℕ} (h : n = m) (hm : m < limit) :
    sizeToInt32 n = m := by
  unfold sizeToInt32
  rw [toSizeT_eq h (by omega), toInt32_of_lt (by omega)]

theorem sampleIndex_eq (hlimit : limit ≤ 2 ^ 31) {width a b : ℕ} {x y : ℤ} (hx : x = a)
    (hy : y = b) (h : a + width * b < limit) :
    sampleIndex width x y = some ((a + width * b : ℕ) : ℤ) := by
  subst hx hy
  have hrow : checkInt32 ((width : ℤ) * b) = some ((width : ℤ) * b) :=
    checkInt32_eq hlimit (m := width * b) (by push_cast; rfl) (by omega)
  unfold sampleIndex
  rw [hrow, Option.bind_eq_bind, Option.bind_some,
    checkInt32_eq hlimit (m := a + width * b) (by push_cast; rfl) h]
  push_cast
  rfl

/-- A coordinate counted from the far side, with the corner added before or after the conversion. -/
theorem reflect_eq (hlimit : limit ≤ 2 ^ 31) {size pixel offset : ℕ} (hpixel : pixel < size)
    (h : offset + (size - 1 - pixel) < limit) :
    sizeToInt32 ((size : ℤ) - 1 - pixel + offset) = (offset + (size - 1 - pixel) : ℕ) ∧
      sizeToInt32 ((size : ℤ) - 1 - pixel) + offset = (offset + (size - 1 - pixel) : ℕ) := by
  have hsize : sizeToInt32 ((size : ℤ) - 1 - pixel) = (size - 1 - pixel : ℕ) :=
    sizeToInt32_eq hlimit (by omega) (by omega)
  constructor
  · exact sizeToInt32_eq hlimit (by omega) h
  · rw [hsize, Nat.cast_add, add_comm]

theorem default_index (hlimit : limit ≤ 2 ^ 31) {width left top u v : ℕ}
    (h : left + u + width * (top + v) < limit) :
    (do
      let row ← checkInt32 (((v : ℤ) + top) * width)
      let y ← checkInt32 (row + left)
      checkInt32 (u + y)) = some ((left + u + width * (top + v) : ℕ) : ℤ) := by
  have hrowEq : ((v : ℤ) + top) * width = (width * (top + v) : ℕ) := by
    push_cast
    ring
  have hrow := checkInt32_eq hlimit hrowEq (by omega)
  have hy := checkInt32_eq hlimit
    (show ((v : ℤ) + top) * width + left = (width * (top + v) + left : ℕ) by
      rw [hrowEq]; push_cast; rfl) (by omega)
  have hlastEq : (u : ℤ) + (((v : ℤ) + top) * width + left) =
      (left + u + width * (top + v) : ℕ) := by
    rw [hrowEq]
    push_cast
    ring
  rw [hrow, Option.bind_eq_bind, Option.bind_some, hy, Option.bind_some,
    checkInt32_eq hlimit hlastEq h, hlastEq]

theorem swap_index (hlimit : limit ≤ 2 ^ 31) {width left top u v : ℕ}
    (h : left + v + width * (top + u) < limit) :
    (do
      let row ← checkInt32 ((width : ℤ) * top)
      let x ← checkInt32 (v + left + row)
      let y ← checkInt32 (u * width)
      checkInt32 (x + y)) = some ((left + v + width * (top + u) : ℕ) : ℤ) := by
  rw [Nat.mul_add] at h
  have hrow := checkInt32_eq hlimit (Nat.cast_mul width top).symm (by omega)
  have hx := checkInt32_eq hlimit
    (show (v : ℤ) + left + width * top = (v + left + width * top : ℕ) by push_cast; rfl)
    (by omega)
  have hy := checkInt32_eq hlimit
    (show (u : ℤ) * width = (width * u : ℕ) by push_cast; ring) (by omega)
  have hlastEq : (v : ℤ) + left + width * top + u * width =
      (left + v + (width * top + width * u) : ℕ) := by
    push_cast
    ring
  rw [hrow, Option.bind_eq_bind, Option.bind_some, hx, Option.bind_some, hy, Option.bind_some,
    checkInt32_eq hlimit hlastEq h, hlastEq, Nat.mul_add]

/-- Each loop of the source reaches the canvas pixel of the patch pixel. -/
theorem geometryIndex_eq (hlimit : limit ≤ 2 ^ 31) {patch : CanvasPatch} {width height u v : ℕ}
    (h : patch.OnCanvas width height) (hsamples : width * height ≤ limit) (hu : u < patch.width)
    (hv : v < patch.height) :
    patch.geometryIndex width u v =
      some ((patch.u0 * patch.occupancyResolution +
          (patch.patchOrientation.place patch.width patch.height u v).1 +
        width * (patch.v0 * patch.occupancyResolution +
          (patch.patchOrientation.place patch.width patch.height u v).2) : ℕ) : ℤ) := by
  have hplace := patch.patchOrientation.place_lt hu hv
  have hcolumns := h.columns
  have hrows := h.rows
  have horiented := h.oriented
  have hindex := pixel_lt
    (show patch.u0 * patch.occupancyResolution +
      (patch.patchOrientation.place patch.width patch.height u v).1 < width by omega)
    (show patch.v0 * patch.occupancyResolution +
      (patch.patchOrientation.place patch.width patch.height u v).2 < height by omega)
  have hwidth : width ≤ width * height := Nat.le_mul_of_pos_right _ (by omega)
  have hheight : height ≤ width * height := Nat.le_mul_of_pos_left _ (by omega)
  have hbelow : patch.v0 * patch.occupancyResolution +
      (patch.patchOrientation.place patch.width patch.height u v).2 < limit := by omega
  rw [Nat.mul_comm _ width, Nat.add_comm] at hindex
  replace hindex := hindex.trans_le hsamples
  obtain ⟨left, hleft⟩ : ∃ n, patch.u0 * patch.occupancyResolution = n := ⟨_, rfl⟩
  obtain ⟨top, htop⟩ : ∃ n, patch.v0 * patch.occupancyResolution = n := ⟨_, rfl⟩
  obtain ⟨sizeU, hsizeU⟩ : ∃ n, patch.width = n := ⟨_, rfl⟩
  obtain ⟨sizeV, hsizeV⟩ : ∃ n, patch.height = n := ⟨_, rfl⟩
  have hleft' : (patch.u0 : ℤ) * patch.occupancyResolution = left := by exact_mod_cast hleft
  have htop' : (patch.v0 : ℤ) * patch.occupancyResolution = top := by exact_mod_cast htop
  have hsizeU' : (patch.sizeU0 : ℤ) * patch.occupancyResolution = sizeU := by
    exact_mod_cast hsizeU
  have hsizeV' : (patch.sizeV0 : ℤ) * patch.occupancyResolution = sizeV := by
    exact_mod_cast hsizeV
  have hx0 : sizeToInt32 left = left := sizeToInt32_eq hlimit rfl (by omega)
  have hy0 : sizeToInt32 top = top := sizeToInt32_eq hlimit rfl (by omega)
  rw [hleft, htop, hsizeU, hsizeV] at hindex ⊢
  rw [htop, hsizeU, hsizeV] at hbelow
  rw [hsizeU] at hu
  rw [hsizeV] at hv
  unfold geometryIndex
  rw [hleft', htop', hsizeU', hsizeV', hx0, hy0]
  clear hcolumns hrows hplace hwidth hheight hx0 hy0 hleft' htop' hsizeU' hsizeV'
  cases horientation : patch.patchOrientation with
  | other value => exact absurd horientation (horiented value)
  | default =>
    rw [horientation] at hindex
    exact default_index hlimit hindex
  | swap =>
    rw [horientation] at hindex
    exact swap_index hlimit hindex
  | rot90 =>
    rw [horientation] at hindex
    simp only [PatchOrientation.place] at hindex ⊢
    exact sampleIndex_eq hlimit (reflect_eq hlimit hv (by omega)).1 (by omega) hindex
  | rot180 =>
    rw [horientation] at hindex hbelow
    simp only [PatchOrientation.place] at hindex hbelow ⊢
    exact sampleIndex_eq hlimit (reflect_eq hlimit hu (by omega)).1 (reflect_eq hlimit hv (by omega)).1 hindex
  | rot270 =>
    rw [horientation] at hindex hbelow
    simp only [PatchOrientation.place] at hindex hbelow ⊢
    exact sampleIndex_eq hlimit (by omega) (reflect_eq hlimit hu (by omega)).1 hindex
  | mirror =>
    rw [horientation] at hindex
    simp only [PatchOrientation.place] at hindex ⊢
    exact sampleIndex_eq hlimit (reflect_eq hlimit hu (by omega)).2 (by omega) hindex
  | mrot90 =>
    rw [horientation] at hindex hbelow
    simp only [PatchOrientation.place] at hindex hbelow ⊢
    exact sampleIndex_eq hlimit (reflect_eq hlimit hv (by omega)).2 (reflect_eq hlimit hu (by omega)).2 hindex
  | mrot180 =>
    rw [horientation] at hindex hbelow
    simp only [PatchOrientation.place] at hindex hbelow ⊢
    exact sampleIndex_eq hlimit (by omega) (reflect_eq hlimit hv (by omega)).1 hindex
  | mrot270 =>
    rw [horientation] at hindex
    simp only [PatchOrientation.place] at hindex ⊢
    exact sampleIndex_eq hlimit (by omega) (by omega) hindex

end Index

/-! The copy of a block. -/

section Copy

variable {patch : CanvasPatch} {geometryVideo : List ℕ} {width height u2 v2 occupancyPrecision
  border depthMapWidth depth : ℕ} {depthMap : List ℤ}

/-- The place of a pixel of the patch in its depth map. -/
theorem DepthMapOf.index_lt (h : patch.DepthMapOf border depthMapWidth depth depthMap) {u v : ℕ}
    (hu : u < patch.width) (hv : v < patch.height) :
    depth + v * depthMapWidth + u < depthMap.length := by
  have hwidth := h.width_eq
  have hin := pixel_lt (show border + u < depthMapWidth by omega)
    (show border + v < patch.height + 2 * border by omega)
  rw [h.length_eq, h.depth_eq]
  calc border + depthMapWidth * border + v * depthMapWidth + u
      = (border + v) * depthMapWidth + (border + u) := by ring
    _ < _ := hin

theorem DepthMapOf.index_inj (h : patch.DepthMapOf border depthMapWidth depth depthMap)
    {u v u' v' : ℕ} (hu : u < patch.width) (hu' : u' < patch.width)
    (heq : depth + v * depthMapWidth + u = depth + v' * depthMapWidth + u') : u = u' ∧ v = v' := by
  have hwidth := h.width_eq
  have hsame := pixel_inj (show u < depthMapWidth by omega) (show u' < depthMapWidth by omega)
    (show v * depthMapWidth + u = v' * depthMapWidth + u' by omega)
  exact Prod.mk.inj hsame

/-- The sample at the canvas pixel of a pixel of the patch. -/
def sampleAt (patch : CanvasPatch) (geometryVideo : List ℕ) (width height u v : ℕ) : ℕ :=
  match patch.patch2Canvas patch.occupancyResolution u v width height with
  | some (x, y) => geometryVideo.getD (y * width + x) 0
  | none => 0

theorem getElem?_place (h : patch.OnCanvas width height)
    (hpicture : GeometryPicture geometryVideo width height) {u v : ℕ} (hu : u < patch.width)
    (hv : v < patch.height) :
    geometryVideo[(patch.v0 * patch.occupancyResolution +
        (patch.patchOrientation.place patch.width patch.height u v).2) * width +
        (patch.u0 * patch.occupancyResolution +
          (patch.patchOrientation.place patch.width patch.height u v).1)]? =
      some (patch.sampleAt geometryVideo width height u v) := by
  have hplace := patch.patchOrientation.place_lt hu hv
  have hcolumns := h.columns
  have hrows := h.rows
  have hindex := pixel_lt
    (show patch.u0 * patch.occupancyResolution +
      (patch.patchOrientation.place patch.width patch.height u v).1 < width by omega)
    (show patch.v0 * patch.occupancyResolution +
      (patch.patchOrientation.place patch.width patch.height u v).2 < height by omega)
  rw [← hpicture.length_eq] at hindex
  unfold sampleAt
  rw [patch2Canvas_eq_place h hu hv]
  dsimp only
  rw [List.getD_eq_getElem?_getD, List.getElem?_eq_getElem hindex]
  rfl

theorem exists_sample (h : patch.OnCanvas width height)
    (hpicture : GeometryPicture geometryVideo width height) {u v : ℕ} (hu : u < patch.width)
    (hv : v < patch.height) :
    ∃ x y, patch.patch2Canvas patch.occupancyResolution u v width height = some (x, y) ∧
      geometryVideo[y * width + x]? = some (patch.sampleAt geometryVideo width height u v) :=
  ⟨_, _, patch2Canvas_eq_place h hu hv, getElem?_place h hpicture hu hv⟩

/-- One step of the loops stores that sample. -/
theorem copyDepth_eq (h : patch.OnCanvas width height)
    (hpicture : GeometryPicture geometryVideo width height) {u v : ℕ} (hu : u < patch.width)
    (hv : v < patch.height) (depthMap : List ℤ) :
    patch.copyDepth geometryVideo width depthMapWidth depth u v depthMap =
      setAt depthMap (depth + v * depthMapWidth + u)
        (toInt16 (patch.sampleAt geometryVideo width height u v)) := by
  have hgeometry := geometryIndex_eq le_rfl h hpicture.samples_lt.le hu hv
  rw [Nat.add_comm, Nat.mul_comm width] at hgeometry
  unfold copyDepth
  rw [hgeometry, Option.bind_eq_bind, Option.bind_some]
  dsimp only
  rw [if_neg (by omega), Int.toNat_natCast, getElem?_place h hpicture hu hv]
  rfl

/-- For every orientation the block of the depth map gets the samples of its canvas pixels. -/
theorem exists_setDepthFromGeometryVideo (h : patch.OnCanvas width height)
    (hpicture : GeometryPicture geometryVideo width height)
    (hmap : patch.DepthMapOf border depthMapWidth depth depthMap)
    (hu2 : u2 + occupancyPrecision ≤ patch.width) (hv2 : v2 + occupancyPrecision ≤ patch.height) :
    ∃ after, patch.setDepthFromGeometryVideo geometryVideo u2 v2 width occupancyPrecision
        depthMapWidth depth depthMap = some after ∧
      patch.CopiesBlock geometryVideo width height u2 v2 occupancyPrecision depthMapWidth depth
        depthMap after := by
  have hpixel {b : ℕ × ℕ} (hb : b ∈ grid occupancyPrecision occupancyPrecision) :
      u2 + b.1 < patch.width ∧ v2 + b.2 < patch.height := by
    obtain ⟨hi, hj⟩ := mem_grid.mp hb
    omega
  let entry (b : ℕ × ℕ) : ℕ × ℤ := (depth + (v2 + b.2) * depthMapWidth + (u2 + b.1),
    toInt16 (patch.sampleAt geometryVideo width height (u2 + b.1) (v2 + b.2)))
  have hrun : patch.setDepthFromGeometryVideo geometryVideo u2 v2 width occupancyPrecision
      depthMapWidth depth depthMap =
      writeAll setAt ((grid occupancyPrecision occupancyPrecision).map entry) depthMap := by
    apply foldlM_eq_writeAll
    intro b hb depthMap
    simp only [entry]
    exact copyDepth_eq h hpicture (hpixel hb).1 (hpixel hb).2 depthMap
  have hcells : ∀ e ∈ (grid occupancyPrecision occupancyPrecision).map entry,
      (depthMap[e.1]?).isSome := by
    intro e he
    obtain ⟨b, hb, rfl⟩ := List.mem_map.mp he
    have hlt := hmap.index_lt (hpixel hb).1 (hpixel hb).2
    simp only [entry, List.getElem?_eq_getElem hlt, Option.isSome_some]
  obtain ⟨after, hafter⟩ := lawful_setAt.exists_writeAll hcells
  have hnodup : (((grid occupancyPrecision occupancyPrecision).map entry).map Prod.fst).Nodup := by
    rw [List.map_map]
    refine List.Nodup.map_on (fun b hb c hc heq => ?_) (nodup_grid _ _)
    have hplace : depth + (v2 + b.2) * depthMapWidth + (u2 + b.1) =
        depth + (v2 + c.2) * depthMapWidth + (u2 + c.1) := by
      simpa only [Function.comp_apply, entry] using heq
    have hsame := hmap.index_inj (hpixel hb).1 (hpixel hc).1 hplace
    exact Prod.ext (Nat.add_left_cancel hsame.1) (Nat.add_left_cancel hsame.2)
  refine ⟨after, hrun.trans hafter, ?_, ?_⟩
  · intro i hi j hj
    have hb : (i, j) ∈ grid occupancyPrecision occupancyPrecision := mem_grid.mpr ⟨hi, hj⟩
    obtain ⟨x, y, hcanvas, hsample⟩ := exists_sample h hpicture (hpixel hb).1 (hpixel hb).2
    have hstored := lawful_setAt.get_of_mem hafter hnodup (List.mem_map_of_mem hb)
    simp only [entry] at hstored
    exact ⟨x, y, _, hcanvas, hsample, hstored⟩
  · intro k hk
    apply lawful_setAt.get_of_not_mem hafter
    rw [List.map_map]
    intro hmem
    obtain ⟨b, hb, hplace⟩ := List.mem_map.mp hmem
    have hk := hk b.1 (mem_grid.mp hb).1 b.2 (mem_grid.mp hb).2
    apply hk
    simpa only [Function.comp_apply, entry] using hplace.symm

/-- A patch turned by 90 degrees in a picture of two rows of blocks. -/
theorem exists_setDepthFromGeometryVideo_rot90 :
    let patch : CanvasPatch :=
      { u0 := 1, v0 := 0, sizeU0 := 2, sizeV0 := 1, patchOrientation := .rot90
        occupancyResolution := 4 }
    ∃ after, patch.setDepthFromGeometryVideo (List.range 64) 4 2 8 2 24 200
        (List.replicate 480 0) = some after ∧
      patch.CopiesBlock (List.range 64) 8 8 4 2 2 24 200 (List.replicate 480 0) after :=
  have hmap : CanvasPatch.DepthMapOf
      { u0 := 1, v0 := 0, sizeU0 := 2, sizeV0 := 1, patchOrientation := .rot90
        occupancyResolution := 4 } 8 24 200 (List.replicate 480 0) :=
    ⟨by decide, by decide, List.length_replicate, by decide⟩
  exists_setDepthFromGeometryVideo ⟨nofun, by decide, by decide, by decide, by decide⟩
    ⟨by decide, by decide⟩ hmap (by decide) (by decide)

end Copy

end CanvasPatch

end V3C

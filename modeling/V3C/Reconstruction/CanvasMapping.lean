import V3C.Packing.CanvasRectangle
import V3C.Reconstruction.GeneratePointCloud

/-! From a pixel of the canvas back to the point of the patch. -/
namespace V3C

/-- `point[axis] = value` for one of the three axes. -/
def PCCPoint3D.setAxis (point : PCCPoint3D) (axis : ℕ) (value : ℤ) : Option PCCPoint3D :=
  match axis with
  | 0 => some { point with x := value }
  | 1 => some { point with y := value }
  | 2 => some { point with z := value }
  | _ => none

/-- The members of a patch that place its points. -/
structure CanvasPatch extends PatchPlacement where
  occupancyResolution : ℕ
  u1 : ℕ := 0
  v1 : ℕ := 0
  d1 : ℕ := 0
  levelOfDetailX : ℕ := 1
  levelOfDetailY : ℕ := 1
  normalAxis : ℕ := 0
  tangentAxis : ℕ := 2
  bitangentAxis : ℕ := 1
  projectionMode : ℕ := 0

namespace CanvasPatch

/-- `generateNormalCoordinate`. A `double` holds the values that an `int16_t` has exactly. -/
def generateNormalCoordinate (patch : CanvasPatch) (depth : ℕ) : ℕ :=
  if patch.projectionMode = 0 then depth + patch.d1 else patch.d1 - depth

def generatePoint (patch : CanvasPatch) (u v depth : ℕ) : Option PCCPoint3D := do
  let normal ← PCCCodec.int16OfDouble (patch.generateNormalCoordinate depth)
  let point0 ← (default : PCCPoint3D).setAxis patch.normalAxis normal
  let tangent ← PCCCodec.int16OfDouble (u * patch.levelOfDetailX + patch.u1)
  let point0 ← point0.setAxis patch.tangentAxis tangent
  let bitangent ← PCCCodec.int16OfDouble (v * patch.levelOfDetailY + patch.v1)
  point0.setAxis patch.bitangentAxis bitangent

/-- `u` and `v` of a pixel of the canvas, as `canvasTo3D` finds them. -/
def patchPosition (patch : CanvasPatch) (x y : ℕ) : Option (ℕ × ℕ) :=
  let left : ℤ := patch.u0 * patch.occupancyResolution
  let top : ℤ := patch.v0 * patch.occupancyResolution
  let width : ℤ := patch.sizeU0 * patch.occupancyResolution
  let height : ℤ := patch.sizeV0 * patch.occupancyResolution
  match patch.patchOrientation with
  | .default => some (toSizeT (x - left), toSizeT (y - top))
  | .rot90 => some (toSizeT (y - top), toSizeT (height - 1 - (x - left)))
  | .rot180 => some (toSizeT (width - 1 - (x - left)), toSizeT (height - 1 - (y - top)))
  | .rot270 => some (toSizeT (width - 1 - (y - top)), toSizeT (x - left))
  | .mirror => some (toSizeT (width - 1 - (x - left)), toSizeT (y - top))
  | .mrot90 => some (toSizeT (width - 1 - (y - top)), toSizeT (height - 1 - (x - left)))
  | .mrot180 => some (toSizeT (x - left), toSizeT (height - 1 - (y - top)))
  | .mrot270 => some (toSizeT (y - top), toSizeT (x - left))
  | .swap => some (toSizeT (y - top), toSizeT (x - left))
  | .other _ => none

/-- `PCCPatch::canvasTo3D`. -/
def canvasTo3D (patch : CanvasPatch) (x y depth : ℕ) : Option PCCPoint3D := do
  let (u, v) ← patch.patchPosition x y
  let normal ← PCCCodec.int16OfDouble (patch.generateNormalCoordinate depth)
  let point0 ← (default : PCCPoint3D).setAxis patch.normalAxis normal
  let tangent ← PCCCodec.int16OfDouble (u * patch.levelOfDetailX + patch.u1)
  let point0 ← point0.setAxis patch.tangentAxis tangent
  let bitangent ← PCCCodec.int16OfDouble (v * patch.levelOfDetailY + patch.v1)
  point0.setAxis patch.bitangentAxis bitangent

/-- The sides of the patch in pixels. -/
def width (patch : CanvasPatch) : ℕ := patch.sizeU0 * patch.occupancyResolution

def height (patch : CanvasPatch) : ℕ := patch.sizeV0 * patch.occupancyResolution

/-- The rectangle of the patch on the canvas. -/
def InRectangle (patch : CanvasPatch) (x y : ℕ) : Prop :=
  let sides := patch.patchOrientation.sides patch.width patch.height
  patch.u0 * patch.occupancyResolution ≤ x ∧ x < patch.u0 * patch.occupancyResolution + sides.1 ∧
    patch.v0 * patch.occupancyResolution ≤ y ∧ y < patch.v0 * patch.occupancyResolution + sides.2

/-- The canvas holds the rectangle; `patch2Canvas` leaves the program on a pixel beyond it. -/
structure OnCanvas (patch : CanvasPatch) (canvasStride canvasHeight : ℕ) : Prop where
  oriented : patch.Oriented
  columns : patch.u0 * patch.occupancyResolution +
    (patch.patchOrientation.sides patch.width patch.height).1 ≤ canvasStride
  rows : patch.v0 * patch.occupancyResolution +
    (patch.patchOrientation.sides patch.width patch.height).2 ≤ canvasHeight
  stride_lt : canvasStride < 2 ^ 64
  height_lt : canvasHeight < 2 ^ 64

/-- The index of a block of the canvas, where an `int` holds it. -/
def blockIndex (canvasStrideBlk : ℕ) (block : ℕ × ℕ) : Option ℤ :=
  if block.1 + canvasStrideBlk * block.2 < 2 ^ 31 then
    some (block.1 + canvasStrideBlk * block.2 : ℕ)
  else none

/-- The tables of the orientations describe one and the same turn of the rectangle. -/
structure MapsRectangle (patch : CanvasPatch) (canvasStride canvasHeight : ℕ) : Prop where
  /-- A pixel goes to the canvas and back to the point generated from it. -/
  inverse : ∀ u v, u < patch.width → v < patch.height →
    ∃ x y, patch.patch2Canvas patch.occupancyResolution u v canvasStride canvasHeight =
        some (x, y) ∧
      ∀ depth, patch.canvasTo3D x y depth = patch.generatePoint u v depth
  injective : ∀ u v u' v', u < patch.width → v < patch.height → u' < patch.width →
    v' < patch.height →
    patch.patch2Canvas patch.occupancyResolution u v canvasStride canvasHeight =
      patch.patch2Canvas patch.occupancyResolution u' v' canvasStride canvasHeight →
    u = u' ∧ v = v'
  image : ∀ x y, (∃ u v, u < patch.width ∧ v < patch.height ∧
    patch.patch2Canvas patch.occupancyResolution u v canvasStride canvasHeight = some (x, y)) ↔
      patch.InRectangle x y
  block : ∀ u v x y, u < patch.width → v < patch.height →
    patch.patch2Canvas patch.occupancyResolution u v canvasStride canvasHeight = some (x, y) →
    patch.blockPosition (u / patch.occupancyResolution : ℕ) (v / patch.occupancyResolution : ℕ) =
        some (x / patch.occupancyResolution, y / patch.occupancyResolution) ∧
      patch.patchBlock2CanvasBlock (u / patch.occupancyResolution : ℕ)
          (v / patch.occupancyResolution : ℕ) (canvasStride / patch.occupancyResolution)
          (canvasHeight / patch.occupancyResolution) =
        blockIndex (canvasStride / patch.occupancyResolution)
          (x / patch.occupancyResolution, y / patch.occupancyResolution)

section OnCanvas

variable {patch : CanvasPatch} {canvasStride canvasHeight u v : ℕ}

theorem patch2Canvas_eq_place (h : patch.OnCanvas canvasStride canvasHeight) (hu : u < patch.width)
    (hv : v < patch.height) :
    patch.patch2Canvas patch.occupancyResolution u v canvasStride canvasHeight =
      some (patch.u0 * patch.occupancyResolution +
          (patch.patchOrientation.place patch.width patch.height u v).1,
        patch.v0 * patch.occupancyResolution +
          (patch.patchOrientation.place patch.width patch.height u v).2) := by
  have hplace := patch.patchOrientation.place_lt hu hv
  have hcolumns := h.columns
  have hrows := h.rows
  have hstride := h.stride_lt
  have hheight := h.height_lt
  have hposition := PatchPlacement.pixelPosition_eq_place h.oriented hu hv
    (hcolumns.trans hstride.le) (hrows.trans hheight.le)
  unfold PatchPlacement.patch2Canvas
  rw [hposition, Option.bind_eq_bind, Option.bind_some]
  exact if_neg (by unfold width height at *; omega)

/-- `canvasTo3D` finds the pixel that lies at a place of the rectangle. -/
theorem patchPosition_place (h : patch.Oriented) (hu : u < patch.width) (hv : v < patch.height)
    (hwidth : patch.width ≤ 2 ^ 64) (hheight : patch.height ≤ 2 ^ 64) :
    patch.patchPosition
        (patch.u0 * patch.occupancyResolution +
          (patch.patchOrientation.place patch.width patch.height u v).1)
        (patch.v0 * patch.occupancyResolution +
          (patch.patchOrientation.place patch.width patch.height u v).2) = some (u, v) := by
  unfold patchPosition
  unfold width height at *
  simp only [← Nat.cast_mul]
  generalize patch.u0 * patch.occupancyResolution = left
  generalize patch.v0 * patch.occupancyResolution = top
  generalize patch.sizeU0 * patch.occupancyResolution = width at hu hwidth ⊢
  generalize patch.sizeV0 * patch.occupancyResolution = height at hv hheight ⊢
  cases horientation : patch.patchOrientation with
  | other value => exact absurd horientation (h value)
  | _ =>
    simp only [PatchOrientation.place, Option.some.injEq, Prod.mk.injEq]
    constructor <;> apply toSizeT_eq <;> omega

theorem OnCanvas.sides_le (h : patch.OnCanvas canvasStride canvasHeight) :
    patch.width ≤ 2 ^ 64 ∧ patch.height ≤ 2 ^ 64 := by
  have hcolumns := h.columns
  have hrows := h.rows
  have hstride := h.stride_lt
  have hheight := h.height_lt
  cases horientation : patch.patchOrientation <;> rw [horientation] at hcolumns hrows <;>
    simp only [PatchOrientation.sides] at hcolumns hrows <;> omega

theorem canvasTo3D_place (h : patch.OnCanvas canvasStride canvasHeight) (hu : u < patch.width)
    (hv : v < patch.height) (depth : ℕ) :
    patch.canvasTo3D
        (patch.u0 * patch.occupancyResolution +
          (patch.patchOrientation.place patch.width patch.height u v).1)
        (patch.v0 * patch.occupancyResolution +
          (patch.patchOrientation.place patch.width patch.height u v).2) depth =
      patch.generatePoint u v depth := by
  unfold canvasTo3D
  rw [patchPosition_place h.oriented hu hv h.sides_le.1 h.sides_le.2]
  rfl

/-- The pixels of the canvas that the patch reaches are those of its rectangle. -/
theorem inRectangle_iff (x y : ℕ) :
    patch.InRectangle x y ↔ ∃ u v, u < patch.width ∧ v < patch.height ∧
      patch.u0 * patch.occupancyResolution +
          (patch.patchOrientation.place patch.width patch.height u v).1 = x ∧
        patch.v0 * patch.occupancyResolution +
          (patch.patchOrientation.place patch.width patch.height u v).2 = y := by
  constructor
  · rintro ⟨hleft, hright, htop, hbottom⟩
    have hx := Nat.sub_lt_left_of_lt_add hleft hright
    have hy := Nat.sub_lt_left_of_lt_add htop hbottom
    obtain ⟨u, hu, v, hv, hplace⟩ := patch.patchOrientation.exists_place hx hy
    refine ⟨u, v, hu, hv, ?_⟩
    rw [hplace]
    exact ⟨Nat.add_sub_cancel' hleft, Nat.add_sub_cancel' htop⟩
  · rintro ⟨u, v, hu, hv, rfl, rfl⟩
    obtain ⟨ha, hb⟩ := patch.patchOrientation.place_lt hu hv
    exact ⟨Nat.le_add_right _ _, Nat.add_lt_add_left ha _, Nat.le_add_right _ _,
      Nat.add_lt_add_left hb _⟩

theorem resolution_pos_of_lt (hu : u < patch.width) : 0 < patch.occupancyResolution :=
  Nat.pos_of_mul_pos_left (Nat.zero_lt_of_lt hu)

theorem block_lt (hu : u < patch.width) : u / patch.occupancyResolution < patch.sizeU0 :=
  Nat.div_lt_of_lt_mul (by rw [Nat.mul_comm]; exact hu)

theorem OnCanvas.blocks_le (h : patch.OnCanvas canvasStride canvasHeight)
    (hpos : 0 < patch.occupancyResolution) :
    patch.u0 + (patch.patchOrientation.sides patch.sizeU0 patch.sizeV0).1 ≤
        canvasStride / patch.occupancyResolution ∧
      patch.v0 + (patch.patchOrientation.sides patch.sizeU0 patch.sizeV0).2 ≤
        canvasHeight / patch.occupancyResolution := by
  have hcolumns := h.columns
  have hrows := h.rows
  have hsides := patch.patchOrientation.sides_mul patch.sizeU0 patch.sizeV0
    patch.occupancyResolution
  unfold width height at hcolumns hrows
  rw [hsides, ← Nat.add_mul] at hcolumns hrows
  exact ⟨(Nat.le_div_iff_mul_le hpos).mpr hcolumns, (Nat.le_div_iff_mul_le hpos).mpr hrows⟩

theorem patchBlock2CanvasBlock_place (h : patch.OnCanvas canvasStride canvasHeight)
    (hu : u < patch.width) (hv : v < patch.height) :
    patch.blockPosition (u / patch.occupancyResolution : ℕ) (v / patch.occupancyResolution : ℕ) =
        some ((patch.u0 * patch.occupancyResolution +
            (patch.patchOrientation.place patch.width patch.height u v).1) /
              patch.occupancyResolution,
          (patch.v0 * patch.occupancyResolution +
            (patch.patchOrientation.place patch.width patch.height u v).2) /
              patch.occupancyResolution) ∧
      (patch.u0 * patch.occupancyResolution +
          (patch.patchOrientation.place patch.width patch.height u v).1) /
            patch.occupancyResolution < canvasStride / patch.occupancyResolution ∧
      (patch.v0 * patch.occupancyResolution +
          (patch.patchOrientation.place patch.width patch.height u v).2) /
            patch.occupancyResolution < canvasHeight / patch.occupancyResolution := by
  have hpos := resolution_pos_of_lt hu
  have hublk := block_lt hu
  have hvblk : v / patch.occupancyResolution < patch.sizeV0 :=
    Nat.div_lt_of_lt_mul (by rw [Nat.mul_comm]; exact hv)
  obtain ⟨hcolumns, hrows⟩ := h.blocks_le hpos
  have hstride := (Nat.div_le_self canvasStride patch.occupancyResolution).trans h.stride_lt.le
  have hheight := (Nat.div_le_self canvasHeight patch.occupancyResolution).trans h.height_lt.le
  have hdiv := patch.patchOrientation.place_div hu hv
  have hdivX := congrArg Prod.fst hdiv
  have hdivY := congrArg Prod.snd hdiv
  dsimp only at hdivX hdivY
  obtain ⟨ha, hb⟩ := patch.patchOrientation.place_lt hublk hvblk
  have hblock := PatchPlacement.blockPosition_eq_place h.oriented hublk hvblk
    (hcolumns.trans hstride) (hrows.trans hheight)
  unfold width height
  rw [Nat.mul_comm patch.u0, Nat.mul_comm patch.v0, Nat.mul_add_div hpos, Nat.mul_add_div hpos,
    hdivX, hdivY]
  exact ⟨hblock, by omega, by omega⟩

/-- On every canvas that holds the patch the four tables agree. -/
theorem mapsRectangle (h : patch.OnCanvas canvasStride canvasHeight) :
    patch.MapsRectangle canvasStride canvasHeight where
  inverse u v hu hv := ⟨_, _, patch2Canvas_eq_place h hu hv, canvasTo3D_place h hu hv⟩
  injective u v u' v' hu hv hu' hv' heq := by
    rw [patch2Canvas_eq_place h hu hv, patch2Canvas_eq_place h hu' hv'] at heq
    obtain ⟨hx, hy⟩ := Prod.mk.inj (Option.some.inj heq)
    exact patch.patchOrientation.place_inj hu hv hu' hv'
      (Prod.ext (Nat.add_left_cancel hx) (Nat.add_left_cancel hy))
  image x y := by
    rw [inRectangle_iff]
    constructor
    · rintro ⟨u, v, hu, hv, hpixel⟩
      rw [patch2Canvas_eq_place h hu hv] at hpixel
      obtain ⟨hx, hy⟩ := Prod.mk.inj (Option.some.inj hpixel)
      exact ⟨u, v, hu, hv, hx, hy⟩
    · rintro ⟨u, v, hu, hv, rfl, rfl⟩
      exact ⟨u, v, hu, hv, patch2Canvas_eq_place h hu hv⟩
  block u v x y hu hv hpixel := by
    rw [patch2Canvas_eq_place h hu hv] at hpixel
    obtain ⟨rfl, rfl⟩ := Prod.mk.inj (Option.some.inj hpixel)
    obtain ⟨hblock, hx, hy⟩ := patchBlock2CanvasBlock_place h hu hv
    refine ⟨hblock, ?_⟩
    unfold PatchPlacement.patchBlock2CanvasBlock
    rw [hblock]
    dsimp only
    rw [if_neg (not_le.mpr hx), if_neg (not_le.mpr hy)]
    rfl

/-- A patch of two by one blocks of four pixels, turned and mirrored. -/
theorem mapsRectangle_mrot90 :
    CanvasPatch.MapsRectangle
      { u0 := 1, v0 := 2, sizeU0 := 2, sizeV0 := 1, patchOrientation := .mrot90
        occupancyResolution := 4 } 16 16 :=
  mapsRectangle ⟨nofun, by decide, by decide, by decide, by decide⟩

end OnCanvas

end CanvasPatch

end V3C

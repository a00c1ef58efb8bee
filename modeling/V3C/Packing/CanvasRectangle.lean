import V3C.Packing.BlockToPatch

/-! The rectangle of a patch on its canvas, turned by the orientation of the patch. -/
namespace V3C

namespace PatchOrientation

/-- The sides of a turned rectangle. -/
def sides (orientation : PatchOrientation) (width height : ℕ) : ℕ × ℕ :=
  match orientation with
  | .default | .rot180 | .mirror | .mrot180 | .other _ => (width, height)
  | .rot90 | .rot270 | .mrot90 | .mrot270 | .swap => (height, width)

/-- Where a point of a rectangle lies in the turned one. -/
def place (orientation : PatchOrientation) (width height u v : ℕ) : ℕ × ℕ :=
  match orientation with
  | .default | .other _ => (u, v)
  | .rot90 => (height - 1 - v, u)
  | .rot180 => (width - 1 - u, height - 1 - v)
  | .rot270 => (v, width - 1 - u)
  | .mirror => (width - 1 - u, v)
  | .mrot90 => (height - 1 - v, width - 1 - u)
  | .mrot180 => (u, height - 1 - v)
  | .mrot270 | .swap => (v, u)

variable (orientation : PatchOrientation) {width height u v u' v' : ℕ}

theorem place_lt (hu : u < width) (hv : v < height) :
    (orientation.place width height u v).1 < (orientation.sides width height).1 ∧
      (orientation.place width height u v).2 < (orientation.sides width height).2 := by
  cases orientation <;> simp only [place, sides] <;> omega

theorem place_inj (hu : u < width) (hv : v < height) (hu' : u' < width) (hv' : v' < height)
    (h : orientation.place width height u v = orientation.place width height u' v') :
    u = u' ∧ v = v' := by
  cases orientation <;> simp only [place, Prod.mk.injEq] at h <;> omega

/-- Every point of the turned rectangle is the place of one. -/
theorem exists_place {a b : ℕ} (ha : a < (orientation.sides width height).1)
    (hb : b < (orientation.sides width height).2) :
    ∃ u < width, ∃ v < height, orientation.place width height u v = (a, b) := by
  cases orientation with
  | default | other _ => exact ⟨a, ha, b, hb, rfl⟩
  | rot90 =>
    simp only [sides] at ha hb
    refine ⟨b, hb, height - 1 - a, by omega, Prod.ext ?_ rfl⟩
    simp only [place]
    omega
  | rot180 =>
    simp only [sides] at ha hb
    refine ⟨width - 1 - a, by omega, height - 1 - b, by omega, Prod.ext ?_ ?_⟩ <;>
    · simp only [place]
      omega
  | rot270 =>
    simp only [sides] at ha hb
    refine ⟨width - 1 - b, by omega, a, ha, Prod.ext rfl ?_⟩
    simp only [place]
    omega
  | mirror =>
    simp only [sides] at ha hb
    refine ⟨width - 1 - a, by omega, b, hb, Prod.ext ?_ rfl⟩
    simp only [place]
    omega
  | mrot90 =>
    simp only [sides] at ha hb
    refine ⟨width - 1 - b, by omega, height - 1 - a, by omega, Prod.ext ?_ ?_⟩ <;>
    · simp only [place]
      omega
  | mrot180 =>
    simp only [sides] at ha hb
    refine ⟨a, ha, height - 1 - b, by omega, Prod.ext rfl ?_⟩
    simp only [place]
    omega
  | mrot270 | swap => exact ⟨b, hb, a, ha, rfl⟩

/-- From the far side, blocks are counted as points are. -/
theorem reflect_div {size resolution u : ℕ} (hu : u < size * resolution) :
    (size * resolution - 1 - u) / resolution = size - 1 - u / resolution := by
  have hpos : 0 < resolution := Nat.pos_of_mul_pos_left (Nat.zero_lt_of_lt hu)
  have hdiv := Nat.div_add_mod u resolution
  have hmod := Nat.mod_lt u hpos
  have hblock : u / resolution < size := Nat.div_lt_of_lt_mul (by rwa [Nat.mul_comm] at hu)
  obtain ⟨rest, rfl⟩ : ∃ rest, size = u / resolution + 1 + rest :=
    ⟨size - (u / resolution + 1), by omega⟩
  have hsize : (u / resolution + 1 + rest) * resolution =
      resolution * (u / resolution) + resolution + resolution * rest := by ring
  have hplace : (u / resolution + 1 + rest) * resolution - 1 - u =
      resolution * rest + (resolution - 1 - u % resolution) := by
    rw [hsize]
    omega
  rw [hplace, Nat.mul_add_div hpos, Nat.div_eq_of_lt (by omega)]
  omega

/-- The block of a turned point is the turned block of the point. -/
theorem place_div {resolution : ℕ} (hu : u < width * resolution) (hv : v < height * resolution) :
    ((orientation.place (width * resolution) (height * resolution) u v).1 / resolution,
      (orientation.place (width * resolution) (height * resolution) u v).2 / resolution) =
      orientation.place width height (u / resolution) (v / resolution) := by
  cases orientation <;> simp only [place, reflect_div hu, reflect_div hv]

theorem sides_mul (width height resolution : ℕ) :
    orientation.sides (width * resolution) (height * resolution) =
      ((orientation.sides width height).1 * resolution,
        (orientation.sides width height).2 * resolution) := by
  cases orientation <;> rfl

end PatchOrientation

theorem toSizeT_eq {z : ℤ} {n : ℕ} (h : z = n) (hlt : n < 2 ^ 64) : toSizeT z = n := by
  rw [h, toSizeT_of_lt (Int.natCast_nonneg n) (by omega), Int.toNat_natCast]

namespace PatchPlacement

variable {patch : PatchPlacement}

/-- One of the nine orientations. -/
def Oriented (patch : PatchPlacement) : Prop := ∀ value, patch.patchOrientation ≠ .other value

/-- A pixel of the patch lies at its place behind the corner of the patch. -/
theorem pixelPosition_eq_place (horiented : patch.Oriented) {resolution u v : ℕ}
    (hu : u < patch.sizeU0 * resolution) (hv : v < patch.sizeV0 * resolution)
    (hx : patch.u0 * resolution + (patch.patchOrientation.sides (patch.sizeU0 * resolution)
      (patch.sizeV0 * resolution)).1 ≤ 2 ^ 64)
    (hy : patch.v0 * resolution + (patch.patchOrientation.sides (patch.sizeU0 * resolution)
      (patch.sizeV0 * resolution)).2 ≤ 2 ^ 64) :
    patch.pixelPosition resolution u v =
      some (patch.u0 * resolution + (patch.patchOrientation.place (patch.sizeU0 * resolution)
          (patch.sizeV0 * resolution) u v).1,
        patch.v0 * resolution + (patch.patchOrientation.place (patch.sizeU0 * resolution)
          (patch.sizeV0 * resolution) u v).2) := by
  unfold pixelPosition
  simp only [← Nat.cast_mul]
  generalize patch.u0 * resolution = left at hx ⊢
  generalize patch.v0 * resolution = top at hy ⊢
  generalize patch.sizeU0 * resolution = width at hu hx hy ⊢
  generalize patch.sizeV0 * resolution = height at hv hx hy ⊢
  cases horientation : patch.patchOrientation with
  | other value => exact absurd horientation (horiented value)
  | _ =>
    rw [horientation] at hx hy
    simp only [PatchOrientation.sides] at hx hy
    simp only [PatchOrientation.place, Option.some.injEq, Prod.mk.injEq]
    constructor <;> apply toSizeT_eq <;> omega

/-- The same for the blocks of the patch. -/
theorem blockPosition_eq_place (horiented : patch.Oriented) {u v : ℕ}
    (hu : u < patch.sizeU0) (hv : v < patch.sizeV0)
    (hx : patch.u0 + (patch.patchOrientation.sides patch.sizeU0 patch.sizeV0).1 ≤ 2 ^ 64)
    (hy : patch.v0 + (patch.patchOrientation.sides patch.sizeU0 patch.sizeV0).2 ≤ 2 ^ 64) :
    patch.blockPosition u v =
      some (patch.u0 + (patch.patchOrientation.place patch.sizeU0 patch.sizeV0 u v).1,
        patch.v0 + (patch.patchOrientation.place patch.sizeU0 patch.sizeV0 u v).2) := by
  unfold blockPosition
  cases horientation : patch.patchOrientation with
  | other value => exact absurd horientation (horiented value)
  | _ =>
    rw [horientation] at hx hy
    simp only [PatchOrientation.sides] at hx hy
    simp only [PatchOrientation.place, Option.some.injEq, Prod.mk.injEq]
    constructor <;> apply toSizeT_eq <;> omega

end PatchPlacement

end V3C

import V3C.Packing.CanvasRectangle
import V3C.Packing.PackingSoundness

/-! Where a patch fits together with the blocks around it that the safeguard asks for. -/
namespace V3C

namespace PatchOrientation

/-- `place` for points that may lie off the rectangle. -/
def placeInt (orientation : PatchOrientation) (width height : ℕ) (u v : ℤ) : ℤ × ℤ :=
  match orientation with
  | .default | .other _ => (u, v)
  | .rot90 => (height - 1 - v, u)
  | .rot180 => (width - 1 - u, height - 1 - v)
  | .rot270 => (v, width - 1 - u)
  | .mirror => (width - 1 - u, v)
  | .mrot90 => (height - 1 - v, width - 1 - u)
  | .mrot180 => (u, height - 1 - v)
  | .mrot270 | .swap => (v, u)

variable (orientation : PatchOrientation) {width height u v safeguard : ℕ} {a b deltaX deltaY : ℤ}

/-- The rectangle with a margin of the safeguard on every side. -/
theorem placeInt_mem (hu : u < width) (hv : v < height) (hX : -(safeguard : ℤ) ≤ deltaX)
    (hX' : deltaX ≤ safeguard) (hY : -(safeguard : ℤ) ≤ deltaY) (hY' : deltaY ≤ safeguard) :
    (-(safeguard : ℤ) ≤ (orientation.placeInt width height (u + deltaX) (v + deltaY)).1 ∧
      (orientation.placeInt width height (u + deltaX) (v + deltaY)).1 <
        (orientation.sides width height).1 + safeguard) ∧
    -(safeguard : ℤ) ≤ (orientation.placeInt width height (u + deltaX) (v + deltaY)).2 ∧
      (orientation.placeInt width height (u + deltaX) (v + deltaY)).2 <
        (orientation.sides width height).2 + safeguard := by
  cases orientation <;> simp only [placeInt, sides] <;> omega

theorem exists_delta {n : ℕ} (hn : 0 < n) (ha : -(safeguard : ℤ) ≤ a) (ha' : a < n + safeguard) :
    ∃ i < n, ∃ delta : ℤ, -(safeguard : ℤ) ≤ delta ∧ delta ≤ safeguard ∧ (i : ℤ) + delta = a := by
  rcases lt_or_ge a 0 with hneg | hpos
  · exact ⟨0, hn, a, ha, by omega, by omega⟩
  · rcases lt_or_ge a n with hlt | hge
    · exact ⟨a.toNat, by omega, 0, by omega, by omega, by omega⟩
    · exact ⟨n - 1, by omega, a - (n - 1 : ℕ), by omega, by omega, by omega⟩

/-- Every point of the rectangle with its margin is reached. -/
theorem exists_placeInt (hwidth : 0 < width) (hheight : 0 < height)
    (ha : -(safeguard : ℤ) ≤ a) (ha' : a < (orientation.sides width height).1 + safeguard)
    (hb : -(safeguard : ℤ) ≤ b) (hb' : b < (orientation.sides width height).2 + safeguard) :
    ∃ u < width, ∃ v < height, ∃ deltaX deltaY : ℤ,
      (-(safeguard : ℤ) ≤ deltaX ∧ deltaX ≤ safeguard) ∧
      (-(safeguard : ℤ) ≤ deltaY ∧ deltaY ≤ safeguard) ∧
      orientation.placeInt width height (u + deltaX) (v + deltaY) = (a, b) := by
  have hreach (x y : ℤ) (hx : -(safeguard : ℤ) ≤ x) (hx' : x < width + safeguard)
      (hy : -(safeguard : ℤ) ≤ y) (hy' : y < height + safeguard)
      (hplace : orientation.placeInt width height x y = (a, b)) :
      ∃ u < width, ∃ v < height, ∃ deltaX deltaY : ℤ,
        (-(safeguard : ℤ) ≤ deltaX ∧ deltaX ≤ safeguard) ∧
        (-(safeguard : ℤ) ≤ deltaY ∧ deltaY ≤ safeguard) ∧
        orientation.placeInt width height (u + deltaX) (v + deltaY) = (a, b) := by
    obtain ⟨u, hu, deltaX, hX, hX', hxsum⟩ := exists_delta hwidth hx hx'
    obtain ⟨v, hv, deltaY, hY, hY', hysum⟩ := exists_delta hheight hy hy'
    exact ⟨u, hu, v, hv, deltaX, deltaY, ⟨hX, hX'⟩, ⟨hY, hY'⟩, by rw [hxsum, hysum, hplace]⟩
  cases orientation with
  | default | other _ =>
    simp only [sides] at ha' hb'
    exact hreach a b ha ha' hb hb' rfl
  | rot90 =>
    simp only [sides] at ha' hb'
    refine hreach b (height - 1 - a) hb hb' (by omega) (by omega) (Prod.ext ?_ rfl)
    simp only [placeInt]
    omega
  | rot180 =>
    simp only [sides] at ha' hb'
    refine hreach (width - 1 - a) (height - 1 - b) (by omega) (by omega) (by omega) (by omega)
      (Prod.ext ?_ ?_) <;>
    · simp only [placeInt]
      omega
  | rot270 =>
    simp only [sides] at ha' hb'
    refine hreach (width - 1 - b) a (by omega) (by omega) ha ha' (Prod.ext rfl ?_)
    simp only [placeInt]
    omega
  | mirror =>
    simp only [sides] at ha' hb'
    refine hreach (width - 1 - a) b (by omega) (by omega) hb hb' (Prod.ext ?_ rfl)
    simp only [placeInt]
    omega
  | mrot90 =>
    simp only [sides] at ha' hb'
    refine hreach (width - 1 - b) (height - 1 - a) (by omega) (by omega) (by omega) (by omega)
      (Prod.ext ?_ ?_) <;>
    · simp only [placeInt]
      omega
  | mrot180 =>
    simp only [sides] at ha' hb'
    refine hreach a (height - 1 - b) ha ha' (by omega) (by omega) (Prod.ext rfl ?_)
    simp only [placeInt]
    omega
  | mrot270 | swap =>
    simp only [sides] at ha' hb'
    exact hreach b a hb hb' ha ha' rfl

end PatchOrientation

/-- A run of integers that stays below a limit in `size_t` does not wrap round. -/
theorem interval_of_toSizeT {first count margin limit : ℕ} (hfirst : first < 2 ^ 64)
    (hcount : 0 < count) (hlimit : limit < 2 ^ 64)
    (h : ∀ a : ℤ, -(margin : ℤ) ≤ a → a < count + margin → toSizeT (first + a) < limit) :
    margin ≤ first ∧ first + count + margin ≤ limit := by
  have hup : ∀ k : ℕ, k < count + margin → first + k < limit := by
    intro k
    induction k with
    | zero =>
      intro _
      have hzero := h 0 (by omega) (by omega)
      rwa [toSizeT_eq (Int.add_zero _) hfirst] at hzero
    | succ k ih =>
      intro hk
      have hnext := h (k + 1 : ℕ) (by omega) (by omega)
      rwa [toSizeT_eq (n := first + (k + 1)) (by push_cast; rfl) (by have := ih (by omega); omega)]
        at hnext
  have hdown : ∀ k ≤ margin, k ≤ first := by
    intro k
    induction k with
    | zero => exact fun _ => Nat.zero_le first
    | succ k ih =>
      intro hk
      by_contra hlt
      have hbefore := h (-(k + 1 : ℕ)) (by omega) (by omega)
      have hfirst : (first : ℤ) + -(k + 1 : ℕ) = -1 := by
        have := ih (by omega)
        omega
      rw [hfirst] at hbefore
      have hwrap : toSizeT (-1) = 2 ^ 64 - 1 := by decide
      omega
  have hlast := hup (count + margin - 1) (by omega)
  exact ⟨hdown margin (Nat.le_refl margin), by omega⟩

namespace PackingPatch

variable {patch : PackingPatch} {canvas : BlockCanvas} {bPrecedence : Bool} {safeguard : ℕ}

theorem mem_deltas {delta : ℤ} :
    delta ∈ deltas safeguard ↔ -(safeguard : ℤ) ≤ delta ∧ delta ≤ safeguard := by
  unfold deltas
  rw [List.mem_map]
  constructor
  · rintro ⟨i, hi, rfl⟩
    rw [List.mem_range] at hi
    omega
  · rintro ⟨hlow, hhigh⟩
    exact ⟨(delta + safeguard).toNat, List.mem_range.mpr (by omega), by omega⟩

theorem blockPosition_eq_placeInt (horiented : patch.Oriented) (u v : ℤ) :
    patch.blockPosition u v = some
      (toSizeT (patch.u0 + (patch.patchOrientation.placeInt patch.sizeU0 patch.sizeV0 u v).1),
        toSizeT (patch.v0 + (patch.patchOrientation.placeInt patch.sizeU0 patch.sizeV0 u v).2)) := by
  unfold PatchPlacement.blockPosition
  cases horientation : patch.patchOrientation with
  | other value => exact absurd horientation (horiented value)
  | _ => simp only [PatchOrientation.placeInt, add_comm]

theorem checkFitPatchCanvas_eq_true_iff :
    patch.checkFitPatchCanvas canvas bPrecedence safeguard = some true ↔
      ∀ u < patch.sizeU0, ∀ v < patch.sizeV0, ∀ deltaX deltaY : ℤ,
        (-(safeguard : ℤ) ≤ deltaX ∧ deltaX ≤ safeguard) →
        (-(safeguard : ℤ) ≤ deltaY ∧ deltaY ≤ safeguard) →
        patch.blockFits canvas bPrecedence (u, v) deltaX deltaY = some true := by
  unfold checkFitPatchCanvas PatchPlacement.blocks
  rw [Codec.allM_eq_some_true]
  constructor
  · intro h u hu v hv deltaX deltaY hX hY
    have hblock := h (u, v) (mem_grid.mpr ⟨hu, hv⟩)
    have hrow := Codec.allM_eq_some_true.mp hblock deltaY (mem_deltas.mpr hY)
    exact Codec.allM_eq_some_true.mp hrow deltaX (mem_deltas.mpr hX)
  · rintro h ⟨u, v⟩ hblock
    obtain ⟨hu, hv⟩ := mem_grid.mp hblock
    apply Codec.allM_eq_some_true.mpr
    intro deltaY hY
    apply Codec.allM_eq_some_true.mpr
    intro deltaX hX
    exact h u hu v hv deltaX deltaY (mem_deltas.mp hX) (mem_deltas.mp hY)

/-- A position that passes one check lies on the canvas. -/
theorem position_of_blockFits {block : ℕ × ℕ} {deltaX deltaY : ℤ}
    (h : patch.blockFits canvas bPrecedence block deltaX deltaY = some true) :
    ∃ x y, patch.blockPosition (block.1 + deltaX) (block.2 + deltaY) = some (x, y) ∧
      x < canvas.stride ∧ y < canvas.height ∧ x + canvas.stride * y < 2 ^ 31 := by
  obtain ⟨pos, hpos, h⟩ := Option.bind_eq_some_iff.mp h
  unfold PatchPlacement.patchBlock2CanvasBlock at hpos
  split at hpos
  · obtain rfl : -1 = pos := Option.some.inj hpos
    simp at h
  · rename_i x y hblock
    split_ifs at hpos with hx hy hint
    · obtain rfl : -1 = pos := Option.some.inj hpos
      simp at h
    · obtain rfl : -1 = pos := Option.some.inj hpos
      simp at h
    · exact ⟨x, y, hblock, by omega, by omega, hint⟩

theorem sides_pos (hsizeU : 0 < patch.sizeU0) (hsizeV : 0 < patch.sizeV0) :
    0 < (patch.patchOrientation.sides patch.sizeU0 patch.sizeV0).1 ∧
      0 < (patch.patchOrientation.sides patch.sizeU0 patch.sizeV0).2 := by
  cases patch.patchOrientation <;> exact ⟨by assumption, by assumption⟩

/-- The points of a patch that fits, and of the safeguard around it, lie on the canvas. -/
theorem point_of_fits (horiented : patch.Oriented) (hsizeU : 0 < patch.sizeU0)
    (hsizeV : 0 < patch.sizeV0)
    (h : patch.checkFitPatchCanvas canvas bPrecedence safeguard = some true) {a b : ℤ}
    (ha : -(safeguard : ℤ) ≤ a)
    (ha' : a < (patch.patchOrientation.sides patch.sizeU0 patch.sizeV0).1 + safeguard)
    (hb : -(safeguard : ℤ) ≤ b)
    (hb' : b < (patch.patchOrientation.sides patch.sizeU0 patch.sizeV0).2 + safeguard) :
    toSizeT (patch.u0 + a) < min canvas.stride (2 ^ 31) ∧
      toSizeT (patch.v0 + b) < min canvas.height (2 ^ 31) := by
  obtain ⟨u, hu, v, hv, deltaX, deltaY, hX, hY, hplace⟩ :=
    patch.patchOrientation.exists_placeInt hsizeU hsizeV ha ha' hb hb'
  have hfits := checkFitPatchCanvas_eq_true_iff.mp h u hu v hv deltaX deltaY hX hY
  obtain ⟨x, y, hblock, hx, hy, hint⟩ := position_of_blockFits hfits
  rw [blockPosition_eq_placeInt horiented, hplace] at hblock
  obtain ⟨rfl, rfl⟩ := Prod.mk.inj (Option.some.inj hblock)
  have hrow : toSizeT (patch.v0 + b) ≤ canvas.stride * toSizeT (patch.v0 + b) :=
    Nat.le_mul_of_pos_left _ (by omega)
  dsimp only at hx hy hint
  exact ⟨lt_min hx (by omega), lt_min hy (by omega)⟩

/-- A patch that fits lies in the width of the canvas with the safeguard beside it. -/
theorem columns_of_fits (horiented : patch.Oriented) (hu0 : patch.u0 < 2 ^ 64)
    (hsizeU : 0 < patch.sizeU0) (hsizeV : 0 < patch.sizeV0)
    (h : patch.checkFitPatchCanvas canvas bPrecedence safeguard = some true) :
    safeguard ≤ patch.u0 ∧
      patch.u0 + (patch.patchOrientation.sides patch.sizeU0 patch.sizeV0).1 + safeguard ≤
        min canvas.stride (2 ^ 31) := by
  have hsides := patch.sides_pos hsizeU hsizeV
  apply interval_of_toSizeT hu0 hsides.1 (by omega)
  intro a ha ha'
  exact (point_of_fits horiented hsizeU hsizeV h ha ha' (b := 0) (by omega) (by omega)).1

/-- A patch that fits lies on the canvas with the safeguard around it. -/
theorem range_of_fits (horiented : patch.Oriented) (hu0 : patch.u0 < 2 ^ 64)
    (hv0 : patch.v0 < 2 ^ 64) (hsizeU : 0 < patch.sizeU0) (hsizeV : 0 < patch.sizeV0)
    (h : patch.checkFitPatchCanvas canvas bPrecedence safeguard = some true) :
    (safeguard ≤ patch.u0 ∧
      patch.u0 + (patch.patchOrientation.sides patch.sizeU0 patch.sizeV0).1 + safeguard ≤
        min canvas.stride (2 ^ 31)) ∧
    safeguard ≤ patch.v0 ∧
      patch.v0 + (patch.patchOrientation.sides patch.sizeU0 patch.sizeV0).2 + safeguard ≤
        min canvas.height (2 ^ 31) := by
  refine ⟨columns_of_fits horiented hu0 hsizeU hsizeV h, ?_⟩
  have hsides := patch.sides_pos hsizeU hsizeV
  apply interval_of_toSizeT hv0 hsides.2 (by omega)
  intro b hb hb'
  exact (point_of_fits horiented hsizeU hsizeV h (a := 0) (by omega) (by omega) hb hb').2

end PackingPatch

end V3C

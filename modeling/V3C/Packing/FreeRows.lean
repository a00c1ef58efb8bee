import V3C.Packing.GuardedRectangle

/-! The rows that a doubling adds to a canvas are free, and a patch fits below the rows that are
taken, as far as it fits in the width. -/
namespace V3C
open Codec

namespace BlockCanvas

/-- The rows that a doubling adds are free. -/
theorem Marked.of_doubled {canvas : BlockCanvas} {x y : ℕ} (h : canvas.doubled.Marked x y) :
    canvas.Marked x y := by
  unfold Marked BlockCanvas.doubled at h
  unfold Marked
  rw [List.getElem?_append] at h
  split_ifs at h
  · exact h
  · rw [List.getElem?_replicate] at h
    split_ifs at h
    cases h

end BlockCanvas

namespace PackingPatch

variable {patch : PackingPatch} {canvas : BlockCanvas} {bPrecedence : Bool} {safeguard : ℕ}

theorem exists_occupancy (hknows : patch.occupancy.length = patch.sizeU0 * patch.sizeV0)
    {u v : ℕ} (hu : u < patch.sizeU0) (hv : v < patch.sizeV0) :
    ∃ b, patch.occupancy[u + patch.sizeU0 * v]? = some b := by
  have hlt : u + patch.sizeU0 * v < patch.occupancy.length := by
    have hpixel := pixel_lt hu hv
    rw [hknows]
    rwa [Nat.mul_comm v, Nat.add_comm] at hpixel
  exact ⟨_, List.getElem?_eq_getElem hlt⟩

theorem block_lt {x y : ℕ} (hx : x < canvas.stride) (hy : y < canvas.height) :
    x + canvas.stride * y < canvas.stride * canvas.height := by
  have hpixel := pixel_lt hx hy
  rwa [Nat.mul_comm y, Nat.add_comm] at hpixel

/-- A check on a canvas whose positions are of type `int`. -/
theorem exists_blockFits (hknows : patch.occupancy.length = patch.sizeU0 * patch.sizeV0)
    (hint : canvas.stride * canvas.height ≤ 2 ^ 31) {u v : ℕ} (hu : u < patch.sizeU0)
    (hv : v < patch.sizeV0) (deltaX deltaY : ℤ) :
    ∃ b, patch.blockFits canvas bPrecedence (u, v) deltaX deltaY = some b := by
  have hpos : ∃ pos, patch.patchBlock2CanvasBlock (u + deltaX) (v + deltaY) canvas.stride
      canvas.height = some pos ∧ pos < canvas.blocks.length := by
    unfold PatchPlacement.patchBlock2CanvasBlock
    cases patch.blockPosition (u + deltaX) (v + deltaY) with
    | none => exact ⟨-1, rfl, by omega⟩
    | some pos =>
      obtain ⟨x, y⟩ := pos
      dsimp only
      split_ifs with hx hy hlt
      · exact ⟨-1, rfl, by omega⟩
      · exact ⟨-1, rfl, by omega⟩
      · have hblock := block_lt (Nat.lt_of_not_le hx) (Nat.lt_of_not_le hy)
        refine ⟨_, rfl, ?_⟩
        rw [canvas.length_blocks]
        omega
      · have hblock := block_lt (Nat.lt_of_not_le hx) (Nat.lt_of_not_le hy)
        omega
  obtain ⟨pos, hpos, hlt⟩ := hpos
  obtain ⟨occupied, hoccupied⟩ := exists_occupancy hknows hu hv
  unfold blockFits
  rw [hpos]
  dsimp only [Option.bind_eq_bind, Option.bind_some]
  by_cases hneg : pos < 0
  · rw [if_pos hneg]
    exact ⟨false, rfl⟩
  · have hin : pos.toNat < canvas.blocks.length := by omega
    rw [if_neg hneg, List.getElem?_eq_getElem hin, hoccupied]
    cases bPrecedence with
    | false => exact ⟨_, rfl⟩
    | true =>
      cases canvas.blocks[pos.toNat] with
      | false => exact ⟨_, rfl⟩
      | true => exact ⟨_, rfl⟩

theorem exists_checkFitPatchCanvas (hknows : patch.occupancy.length = patch.sizeU0 * patch.sizeV0)
    (hint : canvas.stride * canvas.height ≤ 2 ^ 31) (safeguard : ℤ) :
    ∃ b, patch.checkFitPatchCanvas canvas bPrecedence safeguard = some b := by
  apply exists_allM
  rintro ⟨u, v⟩ hblock
  obtain ⟨hu, hv⟩ := mem_grid.mp hblock
  apply exists_allM
  intro deltaY _
  apply exists_allM
  intro deltaX _
  exact exists_blockFits hknows hint hu hv deltaX deltaY

/-- A position on the canvas that is free, or that the patch leaves to others. -/
theorem blockFits_of_free (hknows : patch.occupancy.length = patch.sizeU0 * patch.sizeV0)
    {u v x y : ℕ} {deltaX deltaY : ℤ} (hu : u < patch.sizeU0) (hv : v < patch.sizeV0)
    (hpos : patch.blockPosition (u + deltaX) (v + deltaY) = some (x, y))
    (hx : x < canvas.stride) (hy : y < canvas.height)
    (hint : x + canvas.stride * y < 2 ^ 31)
    (hfree : canvas.Marked x y →
      bPrecedence = true ∧ patch.occupancy[u + patch.sizeU0 * v]? = some false) :
    patch.blockFits canvas bPrecedence (u, v) deltaX deltaY = some true := by
  have hlt : x + canvas.stride * y < canvas.blocks.length := by
    rw [canvas.length_blocks]
    exact block_lt hx hy
  obtain ⟨occupied, hoccupied⟩ := exists_occupancy hknows hu hv
  unfold BlockCanvas.Marked at hfree
  unfold blockFits
  rw [patchBlock2CanvasBlock_eq hpos hx hy hint]
  dsimp only [Option.bind_eq_bind, Option.bind_some]
  rw [if_neg (not_lt.mpr (Int.natCast_nonneg _)), Int.toNat_natCast,
    List.getElem?_eq_getElem hlt, hoccupied]
  rw [List.getElem?_eq_getElem hlt, hoccupied] at hfree
  cases hblock : canvas.blocks[x + canvas.stride * y] with
  | false => cases bPrecedence <;> rfl
  | true =>
    obtain ⟨hprecedence, hempty⟩ := hfree (by rw [hblock])
    rw [Option.some.injEq] at hempty
    rw [hprecedence, hempty]
    rfl

theorem checkFitPatchCanvas_below (hknows : patch.occupancy.length = patch.sizeU0 * patch.sizeV0)
    (horiented : patch.Oriented) {top : ℕ} (hfree : ∀ x y, canvas.Marked x y → y < top)
    (hint : canvas.stride * canvas.height ≤ 2 ^ 31) (hu0 : patch.u0 = safeguard)
    (hv0 : patch.v0 = top + safeguard)
    (hcolumns : (patch.patchOrientation.sides patch.sizeU0 patch.sizeV0).1 + 2 * safeguard ≤
      canvas.stride)
    (hrows : top + (patch.patchOrientation.sides patch.sizeU0 patch.sizeV0).2 + 2 * safeguard ≤
      canvas.height)
    (hsmall : canvas.stride < 2 ^ 64 ∧ canvas.height < 2 ^ 64) :
    patch.checkFitPatchCanvas canvas bPrecedence safeguard = some true := by
  apply checkFitPatchCanvas_eq_true_iff.mpr
  intro u hu v hv deltaX deltaY hX hY
  obtain ⟨⟨ha, ha'⟩, hb, hb'⟩ :=
    patch.patchOrientation.placeInt_mem hu hv hX.1 hX.2 hY.1 hY.2
  have hpos := blockPosition_eq_placeInt horiented (u + deltaX) (v + deltaY)
  generalize patch.patchOrientation.placeInt patch.sizeU0 patch.sizeV0 (u + deltaX)
    (v + deltaY) = place at ha ha' hb hb' hpos
  rw [toSizeT_of_lt (by omega) (by omega), toSizeT_of_lt (by omega) (by omega)] at hpos
  have hx : (patch.u0 + place.1).toNat < canvas.stride := by omega
  have hy : (patch.v0 + place.2).toNat < canvas.height := by omega
  apply blockFits_of_free hknows hu hv hpos hx hy
  · exact (block_lt hx hy).trans_le hint
  · intro hmarked
    have hrow := hfree _ _ hmarked
    omega

end PackingPatch

end V3C

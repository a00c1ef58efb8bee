import V3C.Packing.FreeRows
import V3C.Packing.WideCanvas

/-! The packing of a tile comes to an end if each patch has an orientation that fits in the width
of the canvas: every doubling of the canvas adds rows that are free. -/
namespace V3C
open Codec

theorem grid_rows (width height : ℕ) :
    (grid width height).Pairwise fun a b => a.2 ≤ b.2 := by
  unfold grid
  rw [List.pairwise_flatMap]
  constructor
  · intro y _
    rw [List.pairwise_map]
    exact List.pairwise_of_forall fun _ _ => Nat.le_refl y
  · apply List.pairwise_lt_range.imp
    intro y y' hlt a ha b hb
    simp only [List.mem_map] at ha hb
    grind

namespace BlockCanvas

/-- The blocks from a row on are free, and the canvas is no higher than a limit. -/
structure HasRoom (canvas : BlockCanvas) (stride top limit : ℕ) : Prop where
  stride_eq : canvas.stride = stride
  height_pos : 0 < canvas.height
  height_le : canvas.height ≤ limit
  below : ∀ x y, canvas.Marked x y → y < top

variable {canvas : BlockCanvas} {stride top limit : ℕ}

theorem HasRoom.mono (h : canvas.HasRoom stride top limit) {top' : ℕ} (hle : top ≤ top') :
    canvas.HasRoom stride top' limit :=
  { h with below := fun x y hmarked => (h.below x y hmarked).trans_le hle }

theorem HasRoom.doubled (h : canvas.HasRoom stride top limit) (hle : canvas.height * 2 ≤ limit) :
    canvas.doubled.HasRoom stride top limit where
  stride_eq := h.stride_eq
  height_pos := by
    have hpos := h.height_pos
    rw [height_doubled]
    omega
  height_le := hle
  below x y hmarked := h.below x y hmarked.of_doubled

/-- A block above the free rows gets a value. -/
theorem HasRoom.set (h : canvas.HasRoom stride top limit) {x y : ℕ} (hx : x < canvas.stride)
    (hy : y < top) (value : Bool) :
    (canvas.set (x + canvas.stride * y) value).HasRoom stride top limit where
  stride_eq := h.stride_eq
  height_pos := h.height_pos
  height_le := h.height_le
  below x' y' hmarked := by
    by_cases heq : x + canvas.stride * y = x' + canvas.stride * y'
    · by_contra hle
      have hrow : canvas.stride * (y + 1) ≤ canvas.stride * y' :=
        Nat.mul_le_mul_left canvas.stride (by omega)
      rw [Nat.mul_succ] at hrow
      omega
    · exact h.below x' y' ((List.getElem?_set_ne heq).symm.trans hmarked)

theorem HasRoom.size_le (h : canvas.HasRoom stride top limit) (hint : stride * limit ≤ 2 ^ 31) :
    canvas.stride * canvas.height ≤ 2 ^ 31 := by
  rw [h.stride_eq]
  exact (Nat.mul_le_mul_left stride h.height_le).trans hint

theorem HasRoom.small (h : canvas.HasRoom stride top limit) (hint : stride * limit ≤ 2 ^ 31)
    (hstride : 0 < stride) : canvas.stride < 2 ^ 64 ∧ canvas.height < 2 ^ 64 := by
  have hsize := h.size_le hint
  have hheight : canvas.height ≤ canvas.stride * canvas.height :=
    Nat.le_mul_of_pos_left _ (h.stride_eq ▸ hstride)
  have hwidth : canvas.stride ≤ canvas.stride * canvas.height :=
    Nat.le_mul_of_pos_right _ h.height_pos
  omega

theorem hasRoom_empty {height : ℕ} (hheight : 0 < height) (hle : height ≤ limit) :
    (empty stride height).HasRoom stride 0 limit where
  stride_eq := rfl
  height_pos := hheight
  height_le := hle
  below x y hmarked := by
    unfold Marked BlockCanvas.empty at hmarked
    rw [List.getElem?_replicate] at hmarked
    split_ifs at hmarked
    cases hmarked

end BlockCanvas

namespace PackingPatch

variable {patch : PackingPatch} {canvas : BlockCanvas} {lowDelay : Bool} {stride top limit : ℕ}

variable (lowDelay) in
theorem exists_markBlock (hknows : patch.occupancy.length = patch.sizeU0 * patch.sizeV0)
    (hroom : canvas.HasRoom stride top limit) {block : ℕ × ℕ} (hblock : block ∈ patch.blocks)
    (hon : OnCanvas patch.toPatchPlacement canvas.stride canvas.height block.1 block.2)
    (hrows : ∀ x y, Covers patch.toPatchPlacement x y → y < top) :
    ∃ canvas', patch.markBlock lowDelay canvas block = some canvas' ∧
      canvas'.height = canvas.height ∧ canvas'.HasRoom stride top limit := by
  obtain ⟨hu, hv⟩ := mem_grid.mp hblock
  obtain ⟨x, y, hpos, hx, hy, hint⟩ := hon
  have hrow := hrows x y ⟨block.1, hu, block.2, hv, hpos⟩
  have hlt : x + canvas.stride * y < canvas.blocks.length := by
    rw [canvas.length_blocks]
    exact block_lt hx hy
  obtain ⟨occupied, hoccupied⟩ := exists_occupancy hknows hu hv
  rw [Nat.add_comm, Nat.mul_comm] at hoccupied
  unfold markBlock
  rw [patchBlock2CanvasBlock_eq hpos hx hy hint]
  dsimp only [Option.bind_eq_bind, Option.bind_some]
  rw [if_neg (not_lt.mpr (Int.natCast_nonneg _)), Int.toNat_natCast,
    List.getElem?_eq_getElem hlt, hoccupied]
  cases lowDelay with
  | true => exact ⟨_, rfl, rfl, hroom.set hx hrow true⟩
  | false => exact ⟨_, rfl, rfl, hroom.set hx hrow _⟩

variable (lowDelay) in
/-- A placed patch is marked on the canvas, and the rows below it stay free. -/
theorem exists_markBlocks (hknows : patch.occupancy.length = patch.sizeU0 * patch.sizeV0)
    (hroom : canvas.HasRoom stride top limit)
    (hon : ∀ u < patch.sizeU0, ∀ v < patch.sizeV0,
      OnCanvas patch.toPatchPlacement canvas.stride canvas.height u v)
    (hrows : ∀ x y, Covers patch.toPatchPlacement x y → y < top) :
    ∃ canvas', patch.markBlocks lowDelay canvas = some canvas' ∧
      canvas'.HasRoom stride top limit := by
  have hstep (visited : List (ℕ × ℕ)) (block : ℕ × ℕ) (marked : BlockCanvas)
      (hvisited : visited ++ [block] <+: patch.blocks)
      (hmarked : marked.height = canvas.height ∧ marked.HasRoom stride top limit) :
      ∃ canvas', patch.markBlock lowDelay marked block = some canvas' ∧
        canvas'.height = canvas.height ∧ canvas'.HasRoom stride top limit := by
    have hblock : block ∈ patch.blocks :=
      hvisited.subset (List.mem_append_right visited List.mem_cons_self)
    obtain ⟨hu, hv⟩ := mem_grid.mp hblock
    have hblockOn := hon block.1 hu block.2 hv
    rw [← hmarked.1, hroom.stride_eq, ← hmarked.2.stride_eq] at hblockOn
    obtain ⟨canvas', hmark, hheight, hroom'⟩ :=
      exists_markBlock lowDelay hknows hmarked.2 hblock hblockOn hrows
    exact ⟨canvas', hmark, hheight.trans hmarked.1, hroom'⟩
  obtain ⟨canvas', hmarked, -, hroom'⟩ := exists_foldlM hstep ⟨rfl, hroom⟩
  exact ⟨canvas', hmarked, hroom'⟩

end PackingPatch

namespace PCCEncoder

/-- Of places in the order of their rows, the first that fits is no lower than any that fits. -/
theorem exists_firstFit {fits : Attempt → Option Bool} {attempts : List Attempt}
    (hchecks : ∀ attempt ∈ attempts, ∃ b, fits attempt = some b)
    (hordered : attempts.Pairwise fun a b => a.1.v0 ≤ b.1.v0) :
    ∃ found, firstFit fits attempts = some found ∧
      ∀ attempt ∈ attempts, fits attempt = some true →
        ∃ place, found = some place ∧ place.v0 ≤ attempt.1.v0 := by
  induction attempts with
  | nil => exact ⟨none, rfl, by simp⟩
  | cons first attempts ih =>
    obtain ⟨hfirst, hordered⟩ := List.pairwise_cons.mp hordered
    obtain ⟨b, hb⟩ := hchecks first List.mem_cons_self
    obtain ⟨found, hfound, hbest⟩ :=
      ih (fun attempt hmem => hchecks attempt (List.mem_cons_of_mem first hmem)) hordered
    unfold firstFit
    rw [hb, Option.bind_eq_bind, Option.bind_some]
    cases b with
    | true =>
      refine ⟨some first.1, by simp, fun attempt hmem _ => ⟨first.1, rfl, ?_⟩⟩
      rcases List.mem_cons.mp hmem with rfl | hmem
      · exact Nat.le_refl _
      · exact hfirst attempt hmem
    | false =>
      refine ⟨found, by simpa using hfound, fun attempt hmem hfits => ?_⟩
      rcases List.mem_cons.mp hmem with rfl | hmem
      · rw [hb] at hfits
        cases hfits
      · exact hbest attempt hmem hfits

/-- The places that a loop tries on canvases of a width: every check has a result, and on a canvas
of enough rows one of them, no lower than a row, is free. -/
structure Findable (patch : PackingPatch) (lowDelay : Bool) (attempts : ℕ → ℕ → List Attempt)
    (stride top limit row need : ℕ) : Prop where
  ordered : ∀ height, (attempts stride height).Pairwise fun a b => a.1.v0 ≤ b.1.v0
  checks : ∀ canvas : BlockCanvas, canvas.HasRoom stride top limit →
    ∀ attempt ∈ attempts stride canvas.height,
      ∃ b, { patch with toPatchPlacement := attempt.1 }.checkFitPatchCanvas canvas lowDelay
        attempt.2 = some b
  fits : ∀ canvas : BlockCanvas, canvas.HasRoom stride top limit → need ≤ canvas.height →
    ∃ attempt ∈ attempts stride canvas.height, attempt.1.v0 = row ∧
      { patch with toPatchPlacement := attempt.1 }.checkFitPatchCanvas canvas lowDelay
        attempt.2 = some true

/-- The passes end: the canvas has enough rows, or the patch fits on a smaller one. -/
theorem Findable.exists_findLocation {patch : PackingPatch} {lowDelay : Bool}
    {attempts : ℕ → ℕ → List Attempt} {stride top limit row need : ℕ}
    (hfind : Findable patch lowDelay attempts stride top limit row need)
    (hneed : need * 2 ≤ limit) {canvas : BlockCanvas} (hroom : canvas.HasRoom stride top limit) :
    ∃ passes place canvas',
      (∀ fuel ≥ passes, findLocation patch lowDelay attempts fuel canvas =
        some (place, canvas')) ∧
      canvas'.HasRoom stride top limit ∧ (canvas'.height ≤ need ∨ place.v0 ≤ row) := by
  obtain ⟨missing, hmissing⟩ : ∃ missing, need - canvas.height ≤ missing := ⟨_, Nat.le_refl _⟩
  induction missing generalizing canvas with
  | zero =>
    obtain ⟨found, hfound, hbest⟩ := exists_firstFit (hfind.checks canvas hroom)
      (hfind.ordered canvas.height)
    obtain ⟨attempt, hmem, hrow, hfits⟩ := hfind.fits canvas hroom (by omega)
    obtain ⟨place, rfl, hplace⟩ := hbest attempt hmem hfits
    refine ⟨1, place, canvas, fun fuel hfuel => ?_, hroom, Or.inr (hrow ▸ hplace)⟩
    obtain ⟨rest, rfl⟩ := Nat.exists_eq_add_of_le' hfuel
    unfold findLocation
    rw [hroom.stride_eq, hfound]
    rfl
  | succ missing ih =>
    obtain ⟨found, hfound, hbest⟩ := exists_firstFit (hfind.checks canvas hroom)
      (hfind.ordered canvas.height)
    by_cases hheight : need ≤ canvas.height
    · exact ih hroom (by omega)
    cases found with
    | some place =>
      refine ⟨1, place, canvas, fun fuel hfuel => ?_, hroom, Or.inl (by omega)⟩
      obtain ⟨rest, rfl⟩ := Nat.exists_eq_add_of_le' hfuel
      unfold findLocation
      rw [hroom.stride_eq, hfound]
      rfl
    | none =>
      have hpos := hroom.height_pos
      obtain ⟨passes, place, canvas', hrun, hroom', hlow⟩ :=
        ih (hroom.doubled (by omega)) (by rw [BlockCanvas.height_doubled]; omega)
      refine ⟨passes + 1, place, canvas', fun fuel hfuel => ?_, hroom', hlow⟩
      obtain ⟨rest, rfl⟩ := Nat.exists_eq_add_of_le' (Nat.le_trans (Nat.le_add_left 1 _) hfuel)
      unfold findLocation
      rw [hroom.stride_eq, hfound]
      exact hrun rest (by omega)

/-- The patch at a place. -/
def placedAt (patch : PackingPatch) (u v : ℕ) (orientation : PatchOrientation) : PackingPatch :=
  { patch with u0 := u, v0 := v, patchOrientation := orientation }

/-- What the encoder knows of a patch before it packs it. -/
structure Sized (patch : PackingPatch) : Prop where
  occupancy : patch.occupancy.length = patch.sizeU0 * patch.sizeV0
  sizeU0 : 0 < patch.sizeU0
  sizeV0 : 0 < patch.sizeV0

/-- One of the orientations that are tried fits in the width, with the safeguard on both sides. -/
def FitsWidth (params : PackingParams) (packingStrategy : ℤ) (safeguard width : ℕ)
    (patch : PackingPatch) : Prop :=
  ∃ orientation ∈ orientations params packingStrategy patch,
    (orientation.sides patch.sizeU0 patch.sizeV0).1 + 2 * safeguard ≤ width

instance (params : PackingParams) (packingStrategy : ℤ) (safeguard width : ℕ)
    (patch : PackingPatch) : Decidable (FitsWidth params packingStrategy safeguard width patch) :=
  inferInstanceAs (Decidable (∃ orientation ∈ _, _))

/-- The rows that a patch can take, with the safeguard. -/
def rowsOf (safeguard : ℕ) (patch : PackingPatch) : ℕ :=
  max patch.sizeU0 patch.sizeV0 + 2 * safeguard

section

variable {params : PackingParams} {packingStrategy : ℤ} {safeguard : ℕ} {patch : PackingPatch}

theorem mem_bestEffort {width height : ℕ} {attempt : Attempt} :
    attempt ∈ bestEffort params packingStrategy safeguard patch width height ↔
      ∃ u < width, ∃ v < height, ∃ orientation ∈ orientations params packingStrategy patch,
        attempt = ((placedAt patch u v orientation).toPatchPlacement, (safeguard : ℤ)) := by
  unfold bestEffort
  simp only [List.mem_flatMap, List.mem_map, Prod.exists, mem_grid, eq_comm, placedAt]
  grind

theorem bestEffort_ordered (width height : ℕ) :
    (bestEffort params packingStrategy safeguard patch width height).Pairwise
      fun a b => a.1.v0 ≤ b.1.v0 := by
  unfold bestEffort
  rw [List.pairwise_flatMap]
  constructor
  · intro place _
    rw [List.pairwise_map]
    exact List.pairwise_of_forall fun _ _ => Nat.le_refl _
  · apply (grid_rows width height).imp
    intro place place' hle a ha b hb
    simp only [List.mem_map] at ha hb
    grind

theorem orientations_oriented {orientation : PatchOrientation}
    (h : orientation ∈ orientations params packingStrategy patch) (value : ℕ) :
    orientation ≠ .other value := by
  rintro rfl
  unfold orientations at h
  dsimp only at h
  split_ifs at h <;> simp [g_orientationHorizontal, g_orientationVertical] at h

theorem rows_eq_sides {patch : PatchPlacement} (horiented : patch.Oriented) :
    (if patch.isPatchDimensionSwitched then patch.sizeU0 else patch.sizeV0) =
      (patch.patchOrientation.sides patch.sizeU0 patch.sizeV0).2 := by
  unfold PatchPlacement.isPatchDimensionSwitched
  cases horientation : patch.patchOrientation with
  | other value => exact absurd horientation (horiented value)
  | _ => rfl

theorem sides_le_max (orientation : PatchOrientation) (width height : ℕ) :
    (orientation.sides width height).2 ≤ max width height := by
  cases orientation <;> simp [PatchOrientation.sides]

/-- A patch that fits in the width is found a place. -/
theorem findable_bestEffort (hsized : Sized patch) {stride top limit : ℕ}
    (hint : stride * limit ≤ 2 ^ 31) (hwidth : FitsWidth params packingStrategy safeguard stride patch) :
    Findable patch params.lowDelayEncoding
      (bestEffort params packingStrategy safeguard patch) stride top limit (top + safeguard)
      (top + rowsOf safeguard patch) where
  ordered := bestEffort_ordered stride
  checks canvas hroom attempt hattempt := by
    obtain ⟨u, -, v, -, orientation, -, rfl⟩ := mem_bestEffort.mp hattempt
    exact @PackingPatch.exists_checkFitPatchCanvas (placedAt patch u v orientation) canvas _
      hsized.occupancy (hroom.size_le hint) safeguard
  fits canvas hroom hneed := by
    obtain ⟨orientation, horientation, hcolumns⟩ := hwidth
    have hrows := sides_le_max orientation patch.sizeU0 patch.sizeV0
    unfold rowsOf at hneed
    have hsizeU := hsized.sizeU0
    have hsizeV := hsized.sizeV0
    have hsides : 0 < (orientation.sides patch.sizeU0 patch.sizeV0).1 := by
      cases orientation <;> assumption
    have hsmall := hroom.small hint (by omega)
    refine ⟨_, mem_bestEffort.mpr ⟨safeguard, by omega, top + safeguard, by omega, orientation,
      horientation, rfl⟩, rfl, ?_⟩
    exact @PackingPatch.checkFitPatchCanvas_below
      (placedAt patch safeguard (top + safeguard) orientation) canvas _ safeguard hsized.occupancy
      (orientations_oriented horientation) top hroom.below
      (hroom.size_le hint) rfl rfl (hroom.stride_eq ▸ hcolumns)
      (by dsimp only [placedAt]; omega) hsmall

/-- A run of the body of the loop. -/
theorem packPatch_eq {fuel : ℕ} {attempts : PackingPatch → ℕ → ℕ → List Attempt}
    {place : PatchPlacement} {canvas canvas' : BlockCanvas} {s : PackingState}
    (hfind : findLocation patch params.lowDelayEncoding (attempts patch) fuel s.occupancyMap =
      some (place, canvas))
    (hmark : { patch with toPatchPlacement := place }.markBlocks params.lowDelayEncoding canvas =
      some canvas') :
    packPatch fuel params attempts patch s = some ({ patch with toPatchPlacement := place },
      { occupancyMap := canvas'
        width := max s.width ((place.u0 +
          if place.isPatchDimensionSwitched then place.sizeV0 else place.sizeU0) *
            params.occupancyResolution)
        height := max s.height ((place.v0 +
          if place.isPatchDimensionSwitched then place.sizeU0 else place.sizeV0) *
            params.occupancyResolution)
        maxOccupancyRow := max s.maxOccupancyRow (place.v0 +
          if place.isPatchDimensionSwitched then place.sizeU0 else place.sizeV0) }) := by
  unfold packPatch
  rw [hfind]
  dsimp only [Option.bind_eq_bind, Option.bind_some]
  rw [hmark]
  rfl

/-- One pass over the patches comes to an end, no lower than the rows that its patch can take. -/
theorem exists_packPatch (hsized : Sized patch) {stride top limit : ℕ}
    (hint : stride * limit ≤ 2 ^ 31) (hneed : (top + rowsOf safeguard patch) * 2 ≤ limit)
    (hwidth : FitsWidth params packingStrategy safeguard stride patch) {s : PackingState}
    (hroom : s.occupancyMap.HasRoom stride top limit) (hrow : s.maxOccupancyRow ≤ top) :
    ∃ passes placed s', (∀ fuel ≥ passes, packPatch fuel params
        (bestEffort params packingStrategy safeguard) patch s = some (placed, s')) ∧
      s'.occupancyMap.HasRoom stride (top + rowsOf safeguard patch) limit ∧
      s'.maxOccupancyRow ≤ top + rowsOf safeguard patch := by
  have hfind := @findable_bestEffort params packingStrategy safeguard patch hsized stride top limit
    hint hwidth
  obtain ⟨passes, place, canvas, hrun, hroom', hlow⟩ := hfind.exists_findLocation hneed hroom
  obtain ⟨-, guard, hmem, hcheck⟩ := findLocation_spec (hrun passes (Nat.le_refl passes))
  obtain ⟨u, hu, v, hv, orientation, horientation, hattempt⟩ := mem_bestEffort.mp hmem
  obtain ⟨rfl, rfl⟩ := Prod.mk.inj hattempt
  have hsizeU := hsized.sizeU0
  have hsizeV := hsized.sizeV0
  have horiented : (placedAt patch u v orientation).Oriented := orientations_oriented horientation
  have hbottom : v + (orientation.sides patch.sizeU0 patch.sizeV0).2 ≤
      top + rowsOf safeguard patch := by
    have hsides := sides_le_max orientation patch.sizeU0 patch.sizeV0
    have hsmall := hroom'.small hint (by rw [← hroom'.stride_eq]; omega)
    unfold rowsOf at hlow ⊢
    rcases hlow with hlow | hlow
    · have hrange := (PackingPatch.range_of_fits horiented (by dsimp only [placedAt]; omega)
        (by dsimp only [placedAt]; omega) hsizeU hsizeV hcheck).2
      dsimp only [placedAt] at hrange
      omega
    · dsimp only [placedAt] at hlow
      omega
  have hcovered (x y : ℕ) (h : PackingPatch.Covers
      (placedAt patch u v orientation).toPatchPlacement x y) :
      y < top + rowsOf safeguard patch := by
    have hrow := h.within.2
    rw [rows_eq_sides horiented] at hrow
    exact hrow.trans hbottom
  have hon (u' : ℕ) (hu' : u' < patch.sizeU0) (v' : ℕ) (hv' : v' < patch.sizeV0) :=
    (PackingPatch.onCanvas_freeAt_of_checkFitPatchCanvas (Int.natCast_nonneg safeguard) hcheck
      hu' hv').1
  obtain ⟨canvas', hmark, hmarked⟩ :=
    @PackingPatch.exists_markBlocks (placedAt patch u v orientation) canvas params.lowDelayEncoding
      stride (top + rowsOf safeguard patch) limit hsized.occupancy
      (hroom'.mono (Nat.le_add_right _ _)) hon hcovered
  have hsides := rows_eq_sides horiented
  exact ⟨passes, _, _, fun fuel hfuel => packPatch_eq (hrun fuel hfuel) hmark, hmarked,
    max_le (hrow.trans (Nat.le_add_right _ _)) (hsides ▸ hbottom)⟩

/-- The loop over the patches comes to an end. -/
theorem exists_packPatches {patches : List PackingPatch} (hsized : ∀ patch ∈ patches, Sized patch)
    {stride top limit : ℕ} (hint : stride * limit ≤ 2 ^ 31)
    (hneed : (top + (patches.map (rowsOf safeguard)).sum) * 2 ≤ limit)
    (hwidth : ∀ patch ∈ patches, FitsWidth params packingStrategy safeguard stride patch)
    {s : PackingState} (hroom : s.occupancyMap.HasRoom stride top limit)
    (hrow : s.maxOccupancyRow ≤ top) :
    ∃ passes placed s', (∀ fuel ≥ passes, packPatches fuel params
        (bestEffort params packingStrategy safeguard) patches s = some (placed, s')) ∧
      s'.occupancyMap.HasRoom stride (top + (patches.map (rowsOf safeguard)).sum) limit ∧
      s'.maxOccupancyRow ≤ top + (patches.map (rowsOf safeguard)).sum := by
  induction patches generalizing top s with
  | nil => exact ⟨0, [], s, fun _ _ => rfl, hroom, hrow⟩
  | cons patch patches ih =>
    rw [List.forall_mem_cons] at hsized hwidth
    rw [List.map_cons, List.sum_cons, ← Nat.add_assoc] at hneed ⊢
    obtain ⟨passes, placed, s₁, hfirst, hroom₁, hrow₁⟩ :=
      exists_packPatch hsized.1 hint (by omega) hwidth.1 hroom hrow
    obtain ⟨passes', rest, s₂, hrest, hroom₂, hrow₂⟩ :=
      ih hsized.2 hneed hwidth.2 hroom₁ hrow₁
    refine ⟨max passes passes', placed :: rest, s₂, fun fuel hfuel => ?_, hroom₂, hrow₂⟩
    unfold packPatches
    rw [hfirst fuel (le_of_max_le_left hfuel)]
    dsimp only [Option.bind_eq_bind, Option.bind_some]
    rw [hrest fuel (le_of_max_le_right hfuel)]
    rfl

def rawRows (params : PackingParams) (stride : ℕ) (raw : PCCRawPointsPatch) : ℕ :=
  ((sizeRawPointsPatch params stride raw).map (·.sizeV0)).getD 0

theorem ceilQuotient_eq {a b : ℕ} (hb : 0 < b) : ceilQuotient a b = some ((a + b - 1) / b) :=
  if_neg hb.ne'

theorem ceil_le_iff {a b c : ℕ} (hb : 0 < b) : (a + b - 1) / b ≤ c ↔ a ≤ c * b := by
  rw [← Nat.lt_succ_iff, Nat.div_lt_iff_lt_mul hb, Nat.succ_mul]
  omega

theorem ceil_pos {a b : ℕ} (ha : 0 < a) (hb : 0 < b) : 0 < (a + b - 1) / b :=
  Nat.div_pos (by omega) hb

theorem exists_sizeRawPointsPatch (hresolution : 0 < params.occupancyResolution) {stride : ℕ}
    (hstride : 0 < stride) {raw : PCCRawPointsPatch} (hpoints : 0 < raw.numberOfRawPoints) :
    ∃ sized, sizeRawPointsPatch params stride raw = some sized ∧ 0 < sized.sizeU0 ∧
      sized.sizeU0 ≤ stride ∧ 0 < sized.sizeV0 ∧
      sized.occupancy.length = sized.sizeU0 * sized.sizeV0 := by
  have hblock := Nat.mul_pos hresolution hresolution
  have hblocks := ceil_pos (show 0 < raw.numberOfRawPoints * 3 by omega) hblock
  have hrows := ceil_pos hblocks hstride
  have hcolumns := ceil_pos hblocks hrows
  unfold sizeRawPointsPatch
  dsimp only [Option.bind_eq_bind]
  rw [ceilQuotient_eq hblock, Option.bind_some, ceilQuotient_eq hstride, Option.bind_some,
    ceilQuotient_eq hrows, Option.bind_some]
  refine ⟨_, rfl, hcolumns, ?_, hrows, ?_⟩
  · rw [ceil_le_iff hrows]
    exact ((ceil_le_iff hstride).mp (Nat.le_refl _)).trans_eq (Nat.mul_comm _ _)
  · simp [rawOccupancy]

theorem mem_rawPlaces {maxOccupancyRow width height : ℕ} {attempt : Attempt} :
    attempt ∈ rawPlaces maxOccupancyRow patch width height ↔
      ∃ u ≤ width, ∃ v ≤ height, maxOccupancyRow ≤ v ∧
        attempt = ((placedAt patch u v .default).toPatchPlacement, (0 : ℤ)) := by
  unfold rawPlaces
  simp only [List.mem_map, List.mem_filter, Prod.exists, mem_grid, Nat.lt_succ_iff,
    eq_comm, placedAt]
  grind

theorem rawPlaces_ordered (maxOccupancyRow width height : ℕ) :
    (rawPlaces maxOccupancyRow patch width height).Pairwise fun a b => a.1.v0 ≤ b.1.v0 := by
  unfold rawPlaces
  rw [List.pairwise_map]
  exact (grid_rows _ _).filter _

theorem findable_rawPlaces (hsized : Sized patch) {lowDelay : Bool} {stride top limit : ℕ}
    (hint : stride * limit ≤ 2 ^ 31) (hwidth : patch.sizeU0 ≤ stride) {maxOccupancyRow : ℕ}
    (hrow : maxOccupancyRow ≤ top) :
    Findable patch lowDelay (rawPlaces maxOccupancyRow patch) stride top limit top
      (top + patch.sizeV0) where
  ordered := rawPlaces_ordered maxOccupancyRow stride
  checks canvas hroom attempt hattempt := by
    obtain ⟨u, -, v, -, -, rfl⟩ := mem_rawPlaces.mp hattempt
    exact @PackingPatch.exists_checkFitPatchCanvas (placedAt patch u v .default) canvas _
      hsized.occupancy (hroom.size_le hint) 0
  fits canvas hroom hneed := by
    have hsizeU := hsized.sizeU0
    have hsmall := hroom.small hint (by omega)
    refine ⟨_, mem_rawPlaces.mpr ⟨0, Nat.zero_le _, top, by omega, hrow, rfl⟩, rfl, ?_⟩
    exact @PackingPatch.checkFitPatchCanvas_below (placedAt patch 0 top .default) canvas _ 0
      hsized.occupancy (by simp [PatchPlacement.Oriented, placedAt]) top hroom.below
      (hroom.size_le hint) rfl rfl (hroom.stride_eq ▸ hwidth) hneed hsmall

/-- A raw patch goes below all others. -/
theorem exists_packRawPoints (hresolution : 0 < params.occupancyResolution)
    {stride top limit : ℕ} (hstride : 0 < stride) (hint : stride * limit ≤ 2 ^ 31)
    {raw : PCCRawPointsPatch} (hpoints : 0 < raw.numberOfRawPoints)
    (hneed : (top + rawRows params stride raw) * 2 ≤ limit) {maxOccupancyRow : ℕ}
    (hrow : maxOccupancyRow ≤ top) {canvas : BlockCanvas} (hroom : canvas.HasRoom stride top limit)
    (height : ℕ) :
    ∃ passes placed canvas' height', (∀ fuel ≥ passes,
        packRawPoints fuel params maxOccupancyRow raw canvas height =
          some (placed, canvas', height')) ∧
      canvas'.HasRoom stride (top + rawRows params stride raw) limit := by
  obtain ⟨sized, hsize, hsizeU, hwidth, hsizeV, hoccupancy⟩ :=
    exists_sizeRawPointsPatch hresolution hstride hpoints
  have hrows : rawRows params stride raw = sized.sizeV0 := by rw [rawRows, hsize]; rfl
  rw [hrows] at hneed ⊢
  set patch : PackingPatch := {
    sizeU0 := sized.sizeU0, sizeV0 := sized.sizeV0, sizeU := sized.sizeU, sizeV := sized.sizeV
    occupancy := sized.occupancy } with hpatch
  have hfind : Findable patch params.lowDelayEncoding (rawPlaces maxOccupancyRow patch) stride top
      limit top (top + sized.sizeV0) :=
    findable_rawPlaces ⟨hoccupancy, hsizeU, hsizeV⟩ hint hwidth hrow
  obtain ⟨passes, place, canvas₁, hrun, hroom₁, hlow⟩ := hfind.exists_findLocation hneed hroom
  obtain ⟨-, guard, hmem, hcheck⟩ := findLocation_spec (hrun passes (Nat.le_refl passes))
  obtain ⟨u, -, v, -, -, hattempt⟩ := mem_rawPlaces.mp hmem
  obtain ⟨rfl, rfl⟩ := Prod.mk.inj hattempt
  have hon (u' : ℕ) (hu' : u' < sized.sizeU0) (v' : ℕ) (hv' : v' < sized.sizeV0) :=
    (PackingPatch.onCanvas_freeAt_of_checkFitPatchCanvas (Int.le_refl 0) hcheck hu' hv').1
  have hcovered (x y : ℕ) (h : PackingPatch.Covers (placedAt patch u v .default).toPatchPlacement
      x y) : y < top + sized.sizeV0 := by
    have hbottom : y + 1 ≤ v + sized.sizeV0 := h.within.2
    obtain ⟨u', hu', v', hv', hpos⟩ := h
    obtain ⟨x', y', hpos', -, hy, -⟩ := hon u' hu' v' hv'
    obtain ⟨-, rfl⟩ : x' = x ∧ y' = y := by simpa using hpos'.symm.trans hpos
    dsimp only [placedAt] at hlow
    omega
  obtain ⟨canvas', hmark, hmarked⟩ :=
    @PackingPatch.exists_markBlocks (placedAt patch u v .default) canvas₁ params.lowDelayEncoding
      stride (top + sized.sizeV0) limit hoccupancy (hroom₁.mono (Nat.le_add_right _ _)) hon hcovered
  refine ⟨passes, { sized with u0 := u, v0 := v }, canvas',
    if sized.sizeV0 = 0 then height
    else max height ((v + sized.sizeV0) * params.occupancyResolution),
    fun fuel hfuel => ?_, hmarked⟩
  unfold packRawPoints
  rw [hroom.stride_eq, hsize]
  dsimp only [Option.bind_eq_bind, Option.bind_some]
  rw [hrun fuel hfuel, Option.bind_some]
  exact Option.bind_eq_some_iff.mpr ⟨canvas', hmark, rfl⟩

/-- The loop over the raw patches comes to an end. -/
theorem exists_packRawPointsPatch (hresolution : 0 < params.occupancyResolution)
    {stride top limit : ℕ} (hstride : 0 < stride) (hint : stride * limit ≤ 2 ^ 31)
    {raws : List PCCRawPointsPatch} (hpoints : ∀ raw ∈ raws, 0 < raw.numberOfRawPoints)
    (hneed : (top + (raws.map (rawRows params stride)).sum) * 2 ≤ limit) {maxOccupancyRow : ℕ}
    (hrow : maxOccupancyRow ≤ top) {canvas : BlockCanvas} (hroom : canvas.HasRoom stride top limit)
    (height : ℕ) :
    ∃ passes placed, ∀ fuel ≥ passes,
      packRawPointsPatch fuel params maxOccupancyRow raws canvas height = some placed := by
  induction raws generalizing top canvas height with
  | nil => exact ⟨0, ([], height), fun _ _ => rfl⟩
  | cons raw raws ih =>
    rw [List.forall_mem_cons] at hpoints
    rw [List.map_cons, List.sum_cons, ← Nat.add_assoc] at hneed
    obtain ⟨passes, first, canvas', height', hfirst, hroom'⟩ :=
      exists_packRawPoints hresolution hstride hint hpoints.1 (by omega) hrow hroom height
    obtain ⟨passes', rest, hrest⟩ := ih hpoints.2 hneed (by omega) hroom' height'
    refine ⟨max passes passes', (first :: rest.1, rest.2), fun fuel hfuel => ?_⟩
    unfold packRawPointsPatch
    rw [hfirst fuel (le_of_max_le_left hfuel)]
    dsimp only [Option.bind_eq_bind, Option.bind_some]
    rw [hrest fuel (le_of_max_le_right hfuel)]
    rfl

theorem exists_packEOMAttributePointsPatch (hresolution : 0 < params.occupancyResolution)
    {stride : ℕ} (hstride : 0 < stride) (eomPatches : List PCCEomPatch) (lastHeight : ℕ) :
    ∃ placed, packEOMAttributePointsPatch params stride eomPatches lastHeight = some placed := by
  induction eomPatches generalizing lastHeight with
  | nil => exact ⟨_, rfl⟩
  | cons eomPatch eomPatches ih =>
    unfold packEOMAttributePointsPatch
    dsimp only [Option.bind_eq_bind]
    rw [ceilQuotient_eq (Nat.mul_pos hresolution hresolution), Option.bind_some,
      ceilQuotient_eq hstride, Option.bind_some]
    obtain ⟨rest, hrest⟩ := ih _
    rw [hrest]
    exact ⟨_, rfl⟩

end

/-- The raw patches that share the video with the others. -/
def rawPatches (tile : PackingTile) : List PCCRawPointsPatch :=
  if tile.useRawPointsSeparateVideo then [] else tile.rawPointsPatches

/-- A tile with patches, on a canvas that stays within the range of an `int` when it grows as far
as the patches need. -/
structure PackableTile (params : PackingParams) (presetWidth safeguard : ℕ)
    extends PackingTile where
  exists_patch : patches ≠ []
  sized : ∀ patch ∈ patches, Sized patch
  resolution : 0 < params.occupancyResolution
  tilesHor : toSizeT params.numTilesHor ≠ 0
  points : ∀ raw ∈ rawPatches toPackingTile, 0 < raw.numberOfRawPoints
  inRange : ∀ first ∈ patches, ∀ height,
    canvasHeight params first (canvasWidth params presetWidth patches) = some height →
    canvasWidth params presetWidth patches *
      max height (((patches.map (rowsOf safeguard)).sum +
        ((rawPatches toPackingTile).map
          (rawRows params (canvasWidth params presetWidth patches))).sum) * 2) ≤ 2 ^ 31

theorem default_mem_orientations (params : PackingParams) (packingStrategy : ℤ)
    (patch : PackingPatch) : .default ∈ orientations params packingStrategy patch := by
  unfold orientations
  dsimp only
  split_ifs <;> simp [g_orientationHorizontal, g_orientationVertical]

/-- Without a safeguard every canvas is wide enough for its patches. -/
theorem fitsWidth_of_mem {params : PackingParams} {packingStrategy : ℤ} {presetWidth : ℕ}
    {patches : List PackingPatch} {patch : PackingPatch} (hpatch : patch ∈ patches) :
    FitsWidth params packingStrategy 0 (canvasWidth params presetWidth patches) patch := by
  have hwidth := (canvasWidth_le_iff.mp (Nat.le_refl
    (canvasWidth params presetWidth patches))).2 patch hpatch
  exact ⟨.default, default_mem_orientations params packingStrategy patch,
    (Nat.le_succ patch.sizeU0).trans hwidth⟩

theorem canvasWidth_perm {params : PackingParams} {presetWidth : ℕ}
    {patches patches' : List PackingPatch} (h : patches.Perm patches') :
    canvasWidth params presetWidth patches = canvasWidth params presetWidth patches' := by
  apply le_antisymm
  · obtain ⟨hpreset, hsizes⟩ := canvasWidth_le_iff.mp (Nat.le_refl
      (canvasWidth params presetWidth patches'))
    exact canvasWidth_le_iff.mpr ⟨hpreset, fun patch hpatch => hsizes patch (h.mem_iff.mp hpatch)⟩
  · obtain ⟨hpreset, hsizes⟩ := canvasWidth_le_iff.mp (Nat.le_refl
      (canvasWidth params presetWidth patches))
    exact canvasWidth_le_iff.mpr ⟨hpreset, fun patch hpatch => hsizes patch (h.mem_iff.mpr hpatch)⟩

theorem exists_packPointPatches {params : PackingParams}
    (hresolution : 0 < params.occupancyResolution) {stride top limit : ℕ} (hstride : 0 < stride)
    (hint : stride * limit ≤ 2 ^ 31) (tile : PackingTile)
    (hpoints : ∀ raw ∈ rawPatches tile, 0 < raw.numberOfRawPoints)
    (hneed : (top + ((rawPatches tile).map (rawRows params stride)).sum) * 2 ≤ limit)
    {maxOccupancyRow : ℕ} (hrow : maxOccupancyRow ≤ top) {canvas : BlockCanvas}
    (hroom : canvas.HasRoom stride top limit) :
    ∃ passes tile', ∀ fuel ≥ passes,
      packPointPatches fuel params maxOccupancyRow canvas tile = some tile' := by
  obtain ⟨passes, raws, hraws⟩ : ∃ passes raws, ∀ fuel ≥ passes,
      (if tile.rawPointsPatches ≠ [] ∧ ¬tile.useRawPointsSeparateVideo then
        packRawPointsPatch fuel params maxOccupancyRow tile.rawPointsPatches canvas tile.height
      else some (tile.rawPointsPatches, tile.height)) = some raws := by
    split_ifs with hraw
    · unfold rawPatches at hpoints hneed
      rw [if_neg hraw.2] at hpoints hneed
      exact exists_packRawPointsPatch hresolution hstride hint hpoints hneed hrow hroom tile.height
    · exact ⟨0, _, fun _ _ => rfl⟩
  obtain ⟨eoms, heoms⟩ : ∃ eoms,
      (if params.enhancedOccupancyMapCode ∧ ¬tile.useRawPointsSeparateVideo then
        packEOMAttributePointsPatch params canvas.stride tile.eomPatches raws.2
      else some (tile.eomPatches, raws.2)) = some eoms := by
    split_ifs
    · exact exists_packEOMAttributePointsPatch hresolution (hroom.stride_eq ▸ hstride) _ _
    · exact ⟨_, rfl⟩
  refine ⟨passes, { tile with
    rawPointsPatches := raws.1, eomPatches := eoms.1, height := eoms.2 }, fun fuel hfuel => ?_⟩
  unfold packPointPatches
  dsimp only [Option.bind_eq_bind]
  rw [hraws fuel hfuel, Option.bind_some, heoms, Option.bind_some]

theorem fitsWidth_of_packPatches {fuel : ℕ} {params : PackingParams} {packingStrategy : ℤ}
    {safeguard : ℕ} {patches placed : List PackingPatch} (hsized : ∀ patch ∈ patches, Sized patch)
    {s s' : PackingState} (hstride : s.occupancyMap.stride ≤ 2 ^ 31)
    (h : packPatches fuel params (bestEffort params packingStrategy safeguard) patches s =
      some (placed, s')) :
    ∀ patch ∈ patches, FitsWidth params packingStrategy safeguard s.occupancyMap.stride patch := by
  induction patches generalizing placed s s' with
  | nil => simp
  | cons patch patches ih =>
    rw [List.forall_mem_cons] at hsized ⊢
    obtain ⟨⟨first, s₁⟩, hfirst, h⟩ := Option.bind_eq_some_iff.mp h
    obtain ⟨⟨rest, s₂⟩, hrest, -⟩ := Option.bind_eq_some_iff.mp h
    obtain ⟨hext, -⟩ := packPatch_spec
      (bestEffort_guarded params packingStrategy (Int.natCast_nonneg safeguard)) hfirst
    have hstride₁ := hext.occupancyMap.stride
    constructor
    · obtain ⟨⟨place, canvas⟩, hfind, -⟩ := Option.bind_eq_some_iff.mp hfirst
      obtain ⟨hextends, guard, hmem, hcheck⟩ := findLocation_spec hfind
      obtain ⟨u, hu, v, -, orientation, horientation, hattempt⟩ := mem_bestEffort.mp hmem
      obtain ⟨rfl, rfl⟩ := Prod.mk.inj hattempt
      have hcolumns := @PackingPatch.columns_of_fits (placedAt patch u v orientation) canvas _
        safeguard (orientations_oriented horientation)
        (hu.trans_le (by rw [hextends.stride]; omega)) hsized.1.sizeU0 hsized.1.sizeV0 hcheck
      rw [hextends.stride] at hcolumns
      dsimp only [placedAt] at hcolumns
      exact ⟨orientation, horientation, by omega⟩
    · rw [← hstride₁]
      exact ih hsized.2 (hstride₁ ▸ hstride) hrest

/-- The packing of a tile comes to an end if and only if each patch has an orientation in which it
fits in the width of the canvas, with the safeguard on both sides. -/
theorem PackableTile.packFlexible_ends_iff {params : PackingParams} {presetWidth safeguard : ℕ}
    (tile : PackableTile params presetWidth safeguard) (lt : StdSort PackingPatch.lt)
    (gt : StdSort PackingPatch.gt) (packingStrategy : ℤ) (presetHeight : ℕ) :
    (∃ fuel tile', packFlexible fuel params lt gt packingStrategy presetWidth presetHeight
        safeguard tile.toPackingTile = some tile') ↔
      ∀ patch ∈ tile.patches, FitsWidth params packingStrategy safeguard
        (canvasWidth params presetWidth tile.patches) patch := by
  have hperm := sortPatches_perm lt gt packingStrategy tile.patches
  have hresolution := tile.resolution
  obtain ⟨first, rest, hsort⟩ : ∃ first rest,
      sortPatches lt gt packingStrategy tile.patches = first :: rest := by
    cases hsorted : sortPatches lt gt packingStrategy tile.patches with
    | nil => exact absurd (List.nil_perm.mp (hsorted ▸ hperm)) tile.exists_patch
    | cons first rest => exact ⟨first, rest, rfl⟩
  rw [hsort] at hperm
  have hfirst : first ∈ tile.patches := hperm.mem_iff.mp List.mem_cons_self
  have hwidth := @canvasWidth_perm params presetWidth _ _ hperm
  obtain ⟨height, hheight, hpos⟩ : ∃ height, canvasHeight params first
      (canvasWidth params presetWidth (first :: rest)) = some height ∧ 0 < height := by
    unfold canvasHeight
    have hsizeU := (tile.sized first hfirst).sizeU0
    simp only [if_neg tile.tilesHor]
    refine ⟨_, rfl, ?_⟩
    split_ifs <;> omega
  have hint := tile.inRange first hfirst height (hwidth ▸ hheight)
  have hsum : ((first :: rest).map (rowsOf safeguard)).sum =
      (tile.patches.map (rowsOf safeguard)).sum := (hperm.map _).sum_eq
  have hsized : ∀ patch ∈ first :: rest, Sized patch := fun patch hpatch =>
    tile.sized patch (hperm.mem_iff.mp hpatch)
  have hcolumns : 0 < canvasWidth params presetWidth tile.patches :=
    Nat.lt_of_lt_of_le (Nat.succ_pos _) ((canvasWidth_le_iff.mp (Nat.le_refl _)).2 first hfirst)
  constructor
  · rintro ⟨fuel, tile', h⟩ patch hpatch
    unfold packFlexible at h
    simp only [hsort, if_neg hresolution.ne', hheight, Option.bind_eq_bind, Option.bind_some] at h
    obtain ⟨⟨placed, s⟩, hpack, -⟩ := Option.bind_eq_some_iff.mp h
    rw [← hwidth]
    refine fitsWidth_of_packPatches hsized ?_ hpack patch (hperm.mem_iff.mpr hpatch)
    rw [BlockCanvas.stride_empty, hwidth]
    exact (Nat.le_mul_of_pos_right _ (hpos.trans_le (Nat.le_max_left _ _))).trans hint
  · intro hfits
    have hroom := @BlockCanvas.hasRoom_empty (canvasWidth params presetWidth (first :: rest)) _
      height hpos (Nat.le_max_left height (((tile.patches.map (rowsOf safeguard)).sum +
        ((rawPatches tile.toPackingTile).map
          (rawRows params (canvasWidth params presetWidth tile.patches))).sum) * 2))
    have hloop := @exists_packPatches params packingStrategy safeguard (first :: rest) hsized
      (canvasWidth params presetWidth (first :: rest)) 0 _ (hwidth ▸ hint) (by omega) (by
        intro patch hpatch
        rw [hwidth]
        exact hfits patch (hperm.mem_iff.mp hpatch))
      ⟨.empty (canvasWidth params presetWidth (first :: rest)) height, tile.width,
        height * params.occupancyResolution, 0⟩ hroom (Nat.le_refl 0)
    obtain ⟨passes, placed, s, hrun, hroom', hrow⟩ := hloop
    rw [hwidth] at hroom'
    obtain ⟨passes', tile', hpoints⟩ := exists_packPointPatches hresolution hcolumns hint
      { tile.toPackingTile with numMatchedPatches := 0, patches := placed, height := s.height }
      tile.points (by rw [hsum, Nat.zero_add]; exact Nat.le_max_right _ _) hrow hroom'
    refine ⟨max passes passes', tile', ?_⟩
    rw [packFlexible_eq hsort hresolution.ne' hheight (hrun _ (Nat.le_max_left _ _))]
    exact hpoints _ (Nat.le_max_right _ _)

/-- One block, with a safeguard that its canvas is too narrow for. -/
def narrowTile : PackableTile (rowParams 16) 0 1 where
  width := 0
  height := 0
  patches := [{ sizeU0 := 1, sizeV0 := 1, occupancy := [true] }]
  exists_patch := List.cons_ne_nil _ _
  sized := by
    rw [List.forall_mem_singleton]
    exact ⟨rfl, Nat.one_pos, Nat.one_pos⟩
  resolution := by decide
  tilesHor := by decide
  points := by simp [rawPatches]
  inRange first hfirst height hheight := by
    obtain rfl := List.mem_singleton.mp hfirst
    obtain rfl := Option.some.inj hheight
    decide

example : ∀ patch ∈ narrowTile.patches, ¬FitsWidth (rowParams 16) 1 1
    (canvasWidth (rowParams 16) 0 narrowTile.patches) patch := by decide

/-- Two patches and a raw patch, with a safeguard that a preset width of six blocks has room
for. -/
def wideTile : PackableTile (rowParams 16) 96 1 where
  width := 0
  height := 0
  patches := [
    { sizeU0 := 2, sizeV0 := 1, occupancy := [true, false] },
    { sizeU0 := 1, sizeV0 := 3, occupancy := [true, true, true] }]
  rawPointsPatches := [{ numberOfRawPoints := 5 }]
  exists_patch := List.cons_ne_nil _ _
  sized := by
    intro patch hpatch
    rcases List.mem_pair.mp hpatch with rfl | rfl
    all_goals exact ⟨rfl, by decide, by decide⟩
  resolution := by decide
  tilesHor := by decide
  points := by
    intro raw hraw
    obtain rfl := List.mem_singleton.mp hraw
    decide
  inRange first hfirst height hheight := by
    rcases List.mem_pair.mp hfirst with rfl | rfl
    all_goals
      obtain rfl := Option.some.inj hheight
      decide

example : ∀ patch ∈ wideTile.patches, FitsWidth (rowParams 16) 1 1
    (canvasWidth (rowParams 16) 96 wideTile.patches) patch := by decide

end PCCEncoder

end V3C

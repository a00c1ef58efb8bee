import Mathlib.Data.List.Sort
import V3C.Packing.PackingSoundness

/-! Bars in the first row of a canvas: a canvas wider than its tile takes a patch beyond the
tile. -/
namespace V3C
open PCCEncoder

/-- The first blocks of the canvas are occupied, and no others. -/
def BlockCanvas.Filled (canvas : BlockCanvas) (count : ℕ) : Prop :=
  ∀ i < canvas.blocks.length, canvas.blocks[i]? = some (decide (i < count))

theorem BlockCanvas.filled_empty (stride height : ℕ) : (empty stride height).Filled 0 := by
  intro i hi
  rw [empty, List.length_replicate] at hi
  rw [empty, List.getElem?_replicate_of_lt hi]
  rfl

theorem BlockCanvas.Filled.set {canvas : BlockCanvas} {count : ℕ} (h : canvas.Filled count) :
    (canvas.set count true).Filled (count + 1) := by
  intro i hi
  rw [BlockCanvas.set, List.length_set] at hi
  by_cases heq : count = i
  · subst heq
    rw [BlockCanvas.set, List.getElem?_set_self hi, decide_eq_true (by omega)]
  · rw [BlockCanvas.set, List.getElem?_set_ne heq, h i hi]
    congr 1
    rw [decide_eq_decide]
    omega

/-- A patch of one row whose blocks are all occupied, in a column of the first row. -/
def bar (occupancyResolution index length u0 : ℕ) : PackingPatch where
  u0 := u0
  sizeU0 := length
  sizeV0 := 1
  index := index
  sizeU := length * occupancyResolution
  sizeV := occupancyResolution
  occupancy := List.replicate length true

section

variable (occupancyResolution index length : ℕ) {u0 count : ℕ} {canvas : BlockCanvas}

theorem bar_blockPosition {i : ℕ} (hint : i + u0 < 2 ^ 31) :
    (bar occupancyResolution index length u0).blockPosition i (0 : ℕ) = some (i + u0, 0) := by
  simp only [bar, PatchPlacement.blockPosition, Option.some.injEq, Prod.mk.injEq]
  unfold toSizeT
  omega

theorem bar_patchBlock2CanvasBlock {i : ℕ} (hint : i + u0 < 2 ^ 31) (hx : i + u0 < canvas.stride)
    (hheight : 0 < canvas.height) :
    (bar occupancyResolution index length u0).patchBlock2CanvasBlock i (0 : ℕ) canvas.stride
      canvas.height = some ((i + u0 : ℕ) : ℤ) := by
  rw [PackingPatch.patchBlock2CanvasBlock_eq (bar_blockPosition _ _ _ hint) hx hheight (by omega),
    Nat.mul_zero, Nat.add_zero]

theorem bar_blockFits (hcanvas : canvas.Filled count) {i : ℕ} (hint : i + u0 < 2 ^ 31)
    (hx : i + u0 < canvas.stride) (hheight : 0 < canvas.height) :
    (bar occupancyResolution index length u0).blockFits canvas false (i, 0) 0 0 =
      some (decide (count ≤ i + u0)) := by
  have hlength : i + u0 < canvas.blocks.length := by
    rw [canvas.length_blocks]
    exact hx.trans_le (Nat.le_mul_of_pos_right _ hheight)
  unfold PackingPatch.blockFits
  simp only [Int.add_zero]
  rw [bar_patchBlock2CanvasBlock _ _ _ hint hx hheight]
  simp only [Option.bind_eq_bind, Option.bind_some]
  rw [if_neg (not_lt.mpr (Int.natCast_nonneg _)), Int.toNat_natCast, hcanvas _ hlength]
  simp only [Bool.false_eq_true, ↓reduceIte, Option.bind_some, Option.some.injEq]
  rw [← decide_not, decide_eq_decide]
  exact not_lt

theorem bar_fits (hcanvas : canvas.Filled count) (hcount : count ≤ u0)
    (hint : u0 + length ≤ 2 ^ 31) (hx : u0 + length ≤ canvas.stride)
    (hheight : 0 < canvas.height) :
    (bar occupancyResolution index length u0).checkFitPatchCanvas canvas false 0 = some true := by
  apply Codec.allM_eq_some_true.mpr
  rintro ⟨i, j⟩ hblock
  obtain ⟨hi, hj⟩ : i < length ∧ j < 1 := mem_grid.mp hblock
  obtain rfl : j = 0 := by omega
  apply Codec.allM_eq_some_true.mpr
  intro deltaY hdeltaY
  obtain rfl : deltaY = 0 := by simpa [PackingPatch.deltas] using hdeltaY
  apply Codec.allM_eq_some_true.mpr
  intro deltaX hdeltaX
  obtain rfl : deltaX = 0 := by simpa [PackingPatch.deltas] using hdeltaX
  rw [bar_blockFits _ _ _ hcanvas (by omega) (by omega) hheight, decide_eq_true (by omega)]

theorem bar_not_fits (hcanvas : canvas.Filled count) (hlength : 0 < length) (hcount : u0 < count)
    (hint : u0 < 2 ^ 31) (hx : u0 < canvas.stride) (hheight : 0 < canvas.height) :
    (bar occupancyResolution index length u0).checkFitPatchCanvas canvas false 0 =
      some false := by
  have hblocks : ∃ rest, (bar occupancyResolution index length u0).blocks = (0, 0) :: rest := by
    obtain ⟨n, rfl⟩ : ∃ n, length = n + 1 := ⟨length - 1, by omega⟩
    simp [PatchPlacement.blocks, grid, bar, List.range_succ_eq_map]
  obtain ⟨rest, hblocks⟩ := hblocks
  have hdeltas : PackingPatch.deltas 0 = [0] := rfl
  have hhead : (bar occupancyResolution index length u0).blockFits canvas false (0, 0) 0 0 =
      some false := by
    rw [bar_blockFits _ _ _ hcanvas (by omega) (by omega) hheight, decide_eq_false (by omega)]
  unfold PackingPatch.checkFitPatchCanvas
  rw [hblocks, List.allM_cons, hdeltas]
  simp [hhead]

/-- The canvas with the bar in its first row. -/
theorem bar_markBlocks (hcanvas : canvas.Filled u0) (hint : u0 + length ≤ 2 ^ 31)
    (hx : u0 + length ≤ canvas.stride) (hheight : 0 < canvas.height) :
    ∃ canvas', (bar occupancyResolution index length u0).markBlocks false canvas = some canvas' ∧
      canvas'.Filled (u0 + length) ∧ canvas'.stride = canvas.stride ∧
      canvas'.height = canvas.height := by
  have hrun : ∀ n ≤ length, ∃ canvas',
      ((List.range n).map fun x => (x, 0)).foldlM
        ((bar occupancyResolution index length u0).markBlock false) canvas = some canvas' ∧
      canvas'.Filled (u0 + n) ∧ canvas'.stride = canvas.stride ∧
      canvas'.height = canvas.height := by
    intro n
    induction n with
    | zero => exact fun _ => ⟨canvas, rfl, hcanvas, rfl, rfl⟩
    | succ n ih =>
      intro hn
      obtain ⟨next, hfold, hfilled, hstride, hrows⟩ := ih (by omega)
      have hcoord : n + u0 < next.blocks.length := by
        rw [next.length_blocks, hstride, hrows]
        exact (show n + u0 < canvas.stride by omega).trans_le (Nat.le_mul_of_pos_right _ hheight)
      refine ⟨next.set (u0 + n) true, ?_, hfilled.set, hstride, hrows⟩
      rw [List.range_succ, List.map_append, List.foldlM_append, hfold]
      simp only [List.map_cons, List.map_nil, List.foldlM_cons, List.foldlM_nil,
        Option.bind_eq_bind, Option.bind_some]
      unfold PackingPatch.markBlock
      rw [bar_patchBlock2CanvasBlock _ _ _ (by omega) (by omega) (by omega)]
      simp only [Option.bind_eq_bind, Option.bind_some]
      rw [if_neg (not_lt.mpr (Int.natCast_nonneg _)), Int.toNat_natCast, hfilled _ hcoord]
      have hoccupancy : (bar occupancyResolution index length u0).occupancy[
          0 * (bar occupancyResolution index length u0).sizeU0 + n]? = some true := by
        rw [Nat.zero_mul, Nat.zero_add]
        exact List.getElem?_replicate_of_lt (by omega)
      rw [hoccupancy, Nat.add_comm u0]
      simp
  have hblocks : (bar occupancyResolution index length u0).blocks =
      (List.range length).map fun x => (x, 0) := by
    simp [PatchPlacement.blocks, grid, bar]
  unfold PackingPatch.markBlocks
  rw [hblocks]
  exact hrun length (Nat.le_refl _)

theorem firstFit_append {fits : Attempt → Option Bool} {before after : List Attempt}
    {attempt : Attempt} (hbefore : ∀ a ∈ before, fits a = some false)
    (hattempt : fits attempt = some true) :
    firstFit fits (before ++ attempt :: after) = some (some attempt.1) := by
  induction before with
  | nil => simp [firstFit, hattempt]
  | cons a before ih =>
    have hrest := ih fun b hb => hbefore b (List.mem_cons_of_mem a hb)
    rw [List.cons_append, firstFit, hbefore a List.mem_cons_self]
    simpa using hrest

/-- An encoder with one tile column and without a least height of the tile. -/
def rowParams (occupancyResolution : ℕ) : PackingParams where
  occupancyResolution := occupancyResolution
  lowDelayEncoding := false
  useEightOrientations := false
  numTilesHor := 1
  tileHeightOfWidth := fun _ => 0
  minimumImageWidth := 0
  enhancedOccupancyMapCode := false
  useRawPointsSeparateVideo := false

/-- A bar takes the first free column of the row. -/
theorem bar_findLocation (fuel : ℕ) (hcanvas : canvas.Filled count) (hlength : 0 < length)
    (hint : count + length ≤ 2 ^ 31) (hx : count + length ≤ canvas.stride)
    (hheight : 0 < canvas.height) :
    findLocation (bar occupancyResolution index length 0) false
      (bestEffort (rowParams occupancyResolution) 0 0 (bar occupancyResolution index length 0))
      (fuel + 1) canvas =
        some ((bar occupancyResolution index length count).toPatchPlacement, canvas) := by
  have hattempts : ∃ after, bestEffort (rowParams occupancyResolution) 0 0
      (bar occupancyResolution index length 0) canvas.stride canvas.height =
      (List.range count).map (fun u =>
        ((bar occupancyResolution index length u).toPatchPlacement, (0 : ℤ))) ++
      ((bar occupancyResolution index length count).toPatchPlacement, 0) :: after := by
    obtain ⟨rows, hrows⟩ : ∃ rows, canvas.height = rows + 1 := ⟨canvas.height - 1, by omega⟩
    obtain ⟨columns, hcolumns⟩ : ∃ columns, canvas.stride = count + (columns + 1) :=
      ⟨canvas.stride - count - 1, by omega⟩
    apply Exists.intro
    rw [bestEffort, grid, hrows, hcolumns, List.range_succ_eq_map (n := rows), List.flatMap_cons,
      List.range_add, List.range_succ_eq_map (n := columns)]
    simp only [orientations, ↓reduceIte, List.map_cons, List.map_nil, List.map_append,
      List.flatMap_append, List.flatMap_cons, List.append_assoc, List.cons_append,
      List.nil_append, Nat.add_zero, List.flatMap_map]
    rw [← List.map_eq_flatMap]
    rfl
  obtain ⟨after, hattempts⟩ := hattempts
  have hfirst : firstFit (fun attempt =>
      { bar occupancyResolution index length 0 with
        toPatchPlacement := attempt.1 }.checkFitPatchCanvas canvas false attempt.2)
      (bestEffort (rowParams occupancyResolution) 0 0 (bar occupancyResolution index length 0)
        canvas.stride canvas.height) =
      some (some (bar occupancyResolution index length count).toPatchPlacement) := by
    rw [hattempts]
    apply firstFit_append
    · intro attempt hattempt
      obtain ⟨u, hu, rfl⟩ := List.mem_map.mp hattempt
      have hu := List.mem_range.mp hu
      exact bar_not_fits _ _ _ hcanvas hlength hu (by omega) (by omega) hheight
    · exact bar_fits _ _ _ hcanvas (Nat.le_refl _) hint hx hheight
  unfold findLocation
  rw [hfirst]
  rfl

end

/-- Bars of the given lengths, numbered from an index. -/
def bars (occupancyResolution : ℕ) : ℕ → List ℕ → List PackingPatch
  | _, [] => []
  | index, length :: lengths =>
    bar occupancyResolution index length 0 :: bars occupancyResolution (index + 1) lengths

/-- Bars that fit into the first row cover it from the first free column on. -/
theorem packPatches_bars (occupancyResolution fuel : ℕ) {lengths : List ℕ}
    (hlengths : ∀ length ∈ lengths, 0 < length) (index count : ℕ) (s : PackingState)
    (hcanvas : s.occupancyMap.Filled count) (hint : count + lengths.sum ≤ 2 ^ 31)
    (hx : count + lengths.sum ≤ s.occupancyMap.stride) (hheight : 0 < s.occupancyMap.height) :
    ∃ placed s', packPatches (fuel + 1) (rowParams occupancyResolution)
      (bestEffort (rowParams occupancyResolution) 0 0) (bars occupancyResolution index lengths) s =
        some (placed, s') ∧
      ∀ x, count ≤ x → x < count + lengths.sum →
        ∃ patch ∈ placed, PackingPatch.Covers patch.toPatchPlacement x 0 := by
  induction lengths generalizing index count s with
  | nil => exact ⟨[], s, rfl, fun x hlow hhigh => by simp at hhigh; omega⟩
  | cons length lengths ih =>
    rw [List.sum_cons] at hint hx
    have hlength := hlengths length List.mem_cons_self
    have hfind := bar_findLocation occupancyResolution index length fuel hcanvas hlength (by omega)
      (by omega) hheight
    obtain ⟨canvas', hmark, hfilled, hstride, hrows⟩ :=
      bar_markBlocks occupancyResolution index length hcanvas (by omega) (by omega) hheight
    have hfirst : ∃ s₁, packPatch (fuel + 1) (rowParams occupancyResolution)
        (bestEffort (rowParams occupancyResolution) 0 0) (bar occupancyResolution index length 0)
        s = some (bar occupancyResolution index length count, s₁) ∧ s₁.occupancyMap = canvas' := by
      unfold packPatch
      apply Exists.intro
      constructor
      · rw [show (rowParams occupancyResolution).lowDelayEncoding = false from rfl, hfind]
        change ((bar occupancyResolution index length count).markBlocks false _ >>= _) = _
        rw [hmark]
        rfl
      · rfl
    obtain ⟨s₁, hfirst, hs₁⟩ := hfirst
    obtain ⟨placed, s', hrest, hcover⟩ := ih
      (fun l hl => hlengths l (List.mem_cons_of_mem length hl)) (index + 1) (count + length) s₁
      (hs₁ ▸ hfilled) (by omega) (by rw [hs₁, hstride]; omega) (by rw [hs₁, hrows]; omega)
    refine ⟨bar occupancyResolution index length count :: placed, s', ?_, ?_⟩
    · rw [bars, packPatches, hfirst]
      simp only [Option.bind_eq_bind, Option.bind_some]
      rw [hrest]
      rfl
    · intro x hlow hhigh
      rw [List.sum_cons] at hhigh
      by_cases hxin : x < count + length
      · refine ⟨_, List.mem_cons_self, x - count, ?_, 0, ?_, ?_⟩
        · exact (show x - count < length by omega)
        · exact Nat.one_pos
        · have hpos := bar_blockPosition occupancyResolution index length
            (show x - count + count < 2 ^ 31 by omega)
          rwa [Nat.sub_add_cancel hlow] at hpos
      · obtain ⟨patch, hmem, hcovers⟩ := hcover x (by omega) (by omega)
        exact ⟨patch, List.mem_cons_of_mem _ hmem, hcovers⟩

theorem mem_bars {occupancyResolution index : ℕ} {lengths : List ℕ} {patch : PackingPatch}
    (h : patch ∈ bars occupancyResolution index lengths) :
    index ≤ patch.index ∧ patch.sizeV = occupancyResolution ∧
      ∃ length ∈ lengths, patch.sizeU0 = length ∧ patch.sizeU = length * occupancyResolution := by
  induction lengths generalizing index with
  | nil => cases h
  | cons length lengths ih =>
    rcases List.mem_cons.mp h with rfl | h
    · exact ⟨Nat.le_refl _, rfl, length, List.mem_cons_self, rfl, rfl⟩
    · obtain ⟨hindex, hsizeV, l, hl, hsize⟩ := ih h
      exact ⟨by omega, hsizeV, l, List.mem_cons_of_mem length hl, hsize⟩

/-- Bars in order of their lengths are sorted. -/
theorem bars_pairwise (occupancyResolution index : ℕ) {lengths : List ℕ}
    (h : lengths.Pairwise fun a b => b ≤ a) :
    (bars occupancyResolution index lengths).Pairwise PackingPatch.lt := by
  induction lengths generalizing index with
  | nil => exact List.Pairwise.nil
  | cons length lengths ih =>
    obtain ⟨hfirst, hrest⟩ := List.pairwise_cons.mp h
    apply List.Pairwise.cons _ (ih (index + 1) hrest)
    intro patch hpatch
    obtain ⟨hindex, hsizeV, l, hl, -, hsizeU⟩ := mem_bars hpatch
    have hle := Nat.mul_le_mul_right occupancyResolution (hfirst l hl)
    unfold PackingPatch.lt
    rw [hsizeV, hsizeU, if_neg (not_not.mpr (show (bar occupancyResolution index length 0).sizeV =
      occupancyResolution from rfl))]
    by_cases hsize : length * occupancyResolution = l * occupancyResolution
    · exact (if_neg (not_not.mpr hsize)).mpr hindex
    · exact (if_pos hsize).mpr (lt_of_le_of_ne hle (Ne.symm hsize))

theorem PackingPatch.lt_asymm {a b : PackingPatch} (h : a.lt b) : ¬b.lt a := by
  unfold PackingPatch.lt at h ⊢
  split_ifs at h ⊢ <;> omega

/-- A list in strict order is sorted already. -/
theorem sort_of_pairwise (lt : StdSort PackingPatch.lt) {patches : List PackingPatch}
    (hpair : patches.Pairwise PackingPatch.lt) : lt.sort patches = patches := by
  have htotal := List.Pairwise.forall_of_forall_of_flip (R := fun a b : PackingPatch =>
    ¬a.lt b → ¬b.lt a → a = b) (fun _ _ _ _ => rfl)
    (hpair.imp fun hlt hnot _ => absurd hlt hnot) (hpair.imp fun hlt _ hnot => absurd hlt hnot)
  refine List.Perm.eq_of_pairwise ?_ (lt.ordered _)
    (hpair.imp fun hlt => PackingPatch.lt_asymm hlt) (lt.perm _)
  intro a b ha hb hab hba
  exact htotal ((lt.perm _).mem_iff.mp ha) hb hba hab

/-- A tile of a given width with bars to pack. -/
def barTile (occupancyResolution width : ℕ) (lengths : List ℕ) : PackingTile where
  width := width
  height := 0
  patches := bars occupancyResolution 0 lengths

/-- Bars that fit into the first row of the canvas cover it. -/
theorem exists_packFlexible_bars (lt : StdSort PackingPatch.lt) (gt : StdSort PackingPatch.gt)
    {occupancyResolution : ℕ} (width presetWidth presetHeight length : ℕ) (lengths : List ℕ)
    (hresolution : 0 < occupancyResolution) (hlengths : ∀ l ∈ length :: lengths, 0 < l)
    (hsorted : (length :: lengths).Pairwise fun a b => b ≤ a)
    (hint : (length :: lengths).sum ≤ 2 ^ 31)
    (hcanvas : (length :: lengths).sum ≤ max (presetWidth / occupancyResolution) (length + 1)) :
    ∃ tile', packFlexible 1 (rowParams occupancyResolution) lt gt 0 presetWidth presetHeight 0
      (barTile occupancyResolution width (length :: lengths)) = some tile' ∧
      ∀ x < (length :: lengths).sum,
        ∃ patch ∈ tile'.patches, PackingPatch.Covers patch.toPatchPlacement x 0 ∧
          tile'.width = width := by
  have hlength := hlengths length List.mem_cons_self
  set params := rowParams occupancyResolution with hparams
  set patches := bars occupancyResolution 0 (length :: lengths) with hpatches
  have hstride : max (presetWidth / occupancyResolution) (length + 1) ≤
      canvasWidth params presetWidth patches := by
    obtain ⟨hpreset, hsizes⟩ := canvasWidth_le_iff.mp (Nat.le_refl
      (canvasWidth params presetWidth patches))
    exact max_le hpreset (hsizes _ List.mem_cons_self)
  have hheight : canvasHeight params (bar occupancyResolution 0 length 0)
      (canvasWidth params presetWidth patches) = some (max length 1) := by
    have hnum : toSizeT params.numTilesHor = 1 := rfl
    have hzero : toSizeT 0 = 0 := rfl
    unfold canvasHeight
    simp only [hnum, Nat.one_ne_zero, ↓reduceIte]
    rw [show ∀ w, params.tileHeightOfWidth w = 0 from fun _ => rfl, hzero,
      if_pos (Nat.zero_le _)]
    rfl
  obtain ⟨placed, s', hpack, hcover⟩ := packPatches_bars occupancyResolution 0 hlengths 0 0
    { occupancyMap := .empty (canvasWidth params presetWidth patches) (max length 1)
      width := width, height := max length 1 * occupancyResolution, maxOccupancyRow := 0 }
    (BlockCanvas.filled_empty _ _) (by omega) (by
      simp only [BlockCanvas.stride_empty]
      omega) (by simp)
  have hrun : packFlexible 1 params lt gt 0 presetWidth presetHeight 0
      (barTile occupancyResolution width (length :: lengths)) =
      some { barTile occupancyResolution width (length :: lengths) with
        patches := placed, height := s'.height } := by
    have hsort : sortPatches lt gt 0 patches = patches :=
      (if_pos rfl).trans (sort_of_pairwise lt (bars_pairwise occupancyResolution 0 hsorted))
    exact packFlexible_eq hsort hresolution.ne' hheight hpack
  exact ⟨_, hrun, fun x hx => by
    obtain ⟨patch, hpatch, hcovers⟩ := hcover x (Nat.zero_le x) (by omega)
    exact ⟨patch, hpatch, hcovers, rfl⟩⟩

/-- Bars that reach beyond the tile in the first row of the canvas. -/
theorem packFlexible_bars (lt : StdSort PackingPatch.lt) (gt : StdSort PackingPatch.gt)
    {occupancyResolution : ℕ} (width presetWidth presetHeight length : ℕ) (lengths : List ℕ)
    (hresolution : 0 < occupancyResolution) (hlengths : ∀ l ∈ length :: lengths, 0 < l)
    (hsorted : (length :: lengths).Pairwise fun a b => b ≤ a)
    (hint : (length :: lengths).sum ≤ 2 ^ 31)
    (hcanvas : (length :: lengths).sum ≤ max (presetWidth / occupancyResolution) (length + 1))
    (hwide : width < (length :: lengths).sum * occupancyResolution) :
    ∃ tile', packFlexible 1 (rowParams occupancyResolution) lt gt 0 presetWidth presetHeight 0
      (barTile occupancyResolution width (length :: lengths)) = some tile' ∧
      ¬PackedSoundly (rowParams occupancyResolution) tile' := by
  have hlength := hlengths length List.mem_cons_self
  obtain ⟨tile', hrun, hcover⟩ := exists_packFlexible_bars lt gt width presetWidth presetHeight
    length lengths hresolution hlengths hsorted hint hcanvas
  refine ⟨tile', hrun, ?_⟩
  intro hsound
  have hlast : (length :: lengths).sum - 1 + 1 = (length :: lengths).sum := by
    rw [List.sum_cons]
    omega
  obtain ⟨patch, hpatch, hcovers, hwidth⟩ := hcover ((length :: lengths).sum - 1) (by omega)
  have hinside := (hsound.inside patch hpatch _ 0 hcovers).1
  rw [hlast, hwidth] at hinside
  exact absurd hinside (not_le.mpr hwide)

/-- A tile that holds the canvas, as far as positions on it are an `int`, holds the patches of
`packFlexible`. -/
theorem packFlexible_sound {fuel : ℕ} {params : PackingParams} {lt : StdSort PackingPatch.lt}
    {gt : StdSort PackingPatch.gt} {packingStrategy : ℤ} {presetWidth presetHeight : ℕ}
    {safeguard : ℤ} {tile tile' : PackingTile} (hsafeguard : 0 ≤ safeguard)
    (h : packFlexible fuel params lt gt packingStrategy presetWidth presetHeight safeguard tile =
      some tile')
    (hcanvas : min (canvasWidth params presetWidth tile.patches) (2 ^ 31) *
      params.occupancyResolution ≤ tile.width) : PackedSoundly params tile' := by
  obtain ⟨hclear, hwidth, hinside⟩ := packFlexible_spec hsafeguard h
  refine packedSoundly_of_clear ?_ hclear
  intro patch hpatch x y hcovers
  obtain ⟨hx, -, hy⟩ := hinside patch hpatch x y hcovers
  rw [hwidth (List.ne_nil_of_mem hpatch)]
  exact ⟨(Nat.mul_le_mul_right _ hx).trans hcanvas, hy⟩

/-- The merge sort is a `std::sort` for the complement of a total preorder. -/
def StdSort.ofMergeSort {α : Type} (lt : α → α → Prop) [DecidableRel lt]
    (htrans : ∀ a b c, ¬lt b a → ¬lt c b → ¬lt c a) (htotal : ∀ a b, ¬lt b a ∨ ¬lt a b) :
    StdSort lt where
  sort l := l.mergeSort fun a b => !decide (lt b a)
  perm l := List.mergeSort_perm l _
  ordered l := by
    have h : (l.mergeSort fun a b => !decide (lt b a)).Pairwise fun a b => !decide (lt b a) :=
      List.pairwise_mergeSort (by simpa using htrans) (by simpa using htotal) l
    simpa using h

def mergeSortLt : StdSort PackingPatch.lt := .ofMergeSort _
  (by
    intro a b c
    unfold PackingPatch.lt
    split_ifs <;> omega)
  (by
    intro a b
    unfold PackingPatch.lt
    split_ifs <;> omega)

/-- The greater side decides, then the smaller one, then the index. -/
theorem gt_iff (lhs rhs : PackingPatch) :
    lhs.gt rhs ↔ max rhs.sizeU0 rhs.sizeV0 < max lhs.sizeU0 lhs.sizeV0 ∨
      max rhs.sizeU0 rhs.sizeV0 = max lhs.sizeU0 lhs.sizeV0 ∧
        (min rhs.sizeU0 rhs.sizeV0 < min lhs.sizeU0 lhs.sizeV0 ∨
          min rhs.sizeU0 rhs.sizeV0 = min lhs.sizeU0 lhs.sizeV0 ∧ lhs.index < rhs.index) := by
  have hmax (p : PackingPatch) :
      (if p.sizeU0 > p.sizeV0 then p.sizeU0 else p.sizeV0) = max p.sizeU0 p.sizeV0 := by
    split_ifs <;> omega
  have hmin (p : PackingPatch) :
      (if p.sizeU0 > p.sizeV0 then p.sizeV0 else p.sizeU0) = min p.sizeU0 p.sizeV0 := by
    split_ifs <;> omega
  unfold PackingPatch.gt
  simp only [hmax, hmin]
  generalize max lhs.sizeU0 lhs.sizeV0 = lhsMax
  generalize min lhs.sizeU0 lhs.sizeV0 = lhsMin
  generalize max rhs.sizeU0 rhs.sizeV0 = rhsMax
  generalize min rhs.sizeU0 rhs.sizeV0 = rhsMin
  split_ifs <;> omega

theorem not_gt_trans (a b c : PackingPatch) : ¬b.gt a → ¬c.gt b → ¬c.gt a := by
  simp only [gt_iff]
  generalize max a.sizeU0 a.sizeV0 = aMax
  generalize max b.sizeU0 b.sizeV0 = bMax
  generalize max c.sizeU0 c.sizeV0 = cMax
  generalize min a.sizeU0 a.sizeV0 = aMin
  generalize min b.sizeU0 b.sizeV0 = bMin
  generalize min c.sizeU0 c.sizeV0 = cMin
  omega

theorem not_gt_total (a b : PackingPatch) : ¬b.gt a ∨ ¬a.gt b := by
  simp only [gt_iff]
  generalize max a.sizeU0 a.sizeV0 = aMax
  generalize max b.sizeU0 b.sizeV0 = bMax
  omega

def mergeSortGt : StdSort PackingPatch.gt := .ofMergeSort _ not_gt_trans not_gt_total

variable (lt : StdSort PackingPatch.lt) (gt : StdSort PackingPatch.gt)

/-- The packers are sound on all patches up to a width if and only if the tile holds the canvas
of such patches, as far as its positions are an `int`. -/
theorem packsSoundly_iff {occupancyResolution width presetWidth bound : ℕ} (hbound : 0 < bound) :
    (∀ fuel params packingStrategy presetHeight safeguard, 0 ≤ safeguard →
      params.occupancyResolution = occupancyResolution →
      ∀ tile tile' : PackingTile, tile.width = width →
      (∀ patch ∈ tile.patches, patch.sizeU0 ≤ bound) →
        (packFlexible fuel params lt gt packingStrategy presetWidth presetHeight safeguard tile =
          some tile' → PackedSoundly params tile') ∧
        ∀ iou prevPatches,
          spatialConsistencyPackFlexible fuel params lt gt packingStrategy presetWidth
            presetHeight safeguard iou prevPatches tile = some tile' →
          PackedSoundly params tile') ↔
      min (max (presetWidth / occupancyResolution) (bound + 1)) (2 ^ 31) * occupancyResolution ≤
        width := by
  constructor
  · intro hsound
    by_contra hwide
    have hresolution : 0 < occupancyResolution := by
      by_contra hzero
      obtain rfl : occupancyResolution = 0 := by omega
      exact hwide (Nat.zero_le _)
    generalize hlimit : 2 ^ 31 = limit at hwide
    have hlimitPos : 1 < limit := by omega
    -- the column where the tile ends, and the bars that reach it
    have hcolumn : width / occupancyResolution <
        min (max (presetWidth / occupancyResolution) (bound + 1)) limit :=
      (Nat.div_lt_iff_lt_mul hresolution).mpr (not_le.mp hwide)
    set column := width / occupancyResolution with hcolumnDef
    set length := min bound (limit - 1) with hlength
    set lengths := List.replicate (column + 1 - length) 1 with hlengths
    have hpos : 0 < length := by omega
    have hsum : (length :: lengths).sum = length + (column + 1 - length) := by
      simp [hlengths]
    have hmem : ∀ l ∈ lengths, l = 1 := fun l hl => List.eq_of_mem_replicate hl
    obtain ⟨tile', hrun, hnot⟩ := packFlexible_bars lt gt width presetWidth 0 length lengths
      hresolution
      (by
        intro l hl
        rcases List.mem_cons.mp hl with rfl | hl
        · exact hpos
        · rw [hmem l hl]
          exact Nat.one_pos)
      (by
        apply List.Pairwise.cons
        · intro l hl
          rw [hmem l hl]
          exact hpos
        · exact List.pairwise_replicate.mpr (Or.inr (Nat.le_refl 1)))
      (by omega)
      (by omega)
      (by
        have hlt : width < (column + 1) * occupancyResolution :=
          Nat.lt_mul_of_div_lt (Nat.lt_succ_self _) hresolution
        exact hlt.trans_le (Nat.mul_le_mul_right _ (by omega)))
    refine hnot ((hsound 1 _ 0 0 0 (Int.le_refl 0) rfl _ tile' rfl ?_).1 hrun)
    intro patch hpatch
    obtain ⟨-, -, l, hl, hsize, -⟩ := mem_bars hpatch
    rw [hsize]
    rcases List.mem_cons.mp hl with rfl | hl
    · omega
    · rw [hmem l hl]
      exact hbound
  · intro hcanvas fuel params packingStrategy presetHeight safeguard hsafeguard hresolution tile
      tile' hwidth hbounds
    constructor
    · intro hrun
      apply packFlexible_sound hsafeguard hrun
      rw [hresolution, hwidth]
      refine (Nat.mul_le_mul_right _ (min_le_min_right _ ?_)).trans hcanvas
      rw [canvasWidth_le_iff, hresolution]
      refine ⟨Nat.le_max_left _ _, fun patch hpatch => ?_⟩
      exact (Nat.succ_le_succ (hbounds patch hpatch)).trans (Nat.le_max_right _ _)
    · intro iou prevPatches hrun
      exact spatialConsistencyPackFlexible_sound hsafeguard hrun

/-- A tile of two block columns holds two patches of one. -/
theorem packsSoundly_twoColumns :
    ∃ tile', packFlexible 1 (rowParams 16) mergeSortLt mergeSortGt 0 32 0 0
      (barTile 16 32 [1, 1]) = some tile' ∧ PackedSoundly (rowParams 16) tile' := by
  obtain ⟨tile', hrun, -⟩ := exists_packFlexible_bars mergeSortLt mergeSortGt 32 32 0 1 [1]
    (show 0 < 16 by decide) (by decide) (by simp) (by decide) (by decide)
  have hfits : min (max (32 / 16) (1 + 1)) (2 ^ 31) * 16 ≤ 32 := by decide
  have hsound := (packsSoundly_iff mergeSortLt mergeSortGt Nat.one_pos).mpr hfits 1
    (rowParams 16) 0 0 0 (Int.le_refl 0) rfl (barTile 16 32 [1, 1]) tile' rfl
  exact ⟨tile', hrun, (hsound (by decide)).1 hrun⟩

/-- Two patches of one block each in a tile of one block column, with the preset width of the
tile: the second goes beside the first. -/
theorem not_packsSoundly_twoBlocks :
    ∃ tile', packFlexible 1 (rowParams 16) mergeSortLt mergeSortGt 0 16 0 0
      (barTile 16 16 [1, 1]) = some tile' ∧ ¬PackedSoundly (rowParams 16) tile' :=
  packFlexible_bars mergeSortLt mergeSortGt 16 16 0 1 [1] (by decide) (by decide) (by simp)
    (by decide) (by decide) (by decide)

end V3C

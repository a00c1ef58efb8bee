import V3C.Codec.Traverse
import V3C.Packing.PackFlexible

/-! The patches of a frame are moved into one tile for each region, and the indices of their
matches with them. -/
namespace V3C

/-- A packed patch, with the region that it comes from. -/
structure RegionPatch extends PackingPatch where
  roiIndex : ℕ
  occupancyResolution : ℕ := 16
  indexInFrame : ℕ := 0
  tileIndex : ℕ := 0
  deriving DecidableEq

structure RegionTile where
  frameIndex : ℕ
  tileIndex : ℕ
  width : ℕ
  height : ℕ
  leftTopXInFrame : ℕ
  leftTopYInFrame : ℕ
  patches : List RegionPatch
  deriving DecidableEq

structure RegionParams where
  occupancyResolution : ℕ
  packingStrategy : ℕ
  constrainedPack : Bool
  numROIs : ℕ
  /-- `rawPointsPatch_ || lossyRawPointsPatch_` -/
  rawPoints : Bool

/-- A frame behind its packer, which claims the partitions of the image that it puts a patch into
for the region of the patch. -/
structure RegionFrame where
  width : ℕ
  height : ℕ
  patches : List RegionPatch
  claimed : List ℤ
  claims : patches ≠ [] → ∃ roiIndex ∈ claimed, 0 ≤ roiIndex

namespace RegionPatch

def patchImageWidthInBlock (patch : RegionPatch) : ℕ :=
  if patch.isPatchDimensionSwitched then patch.sizeV0 else patch.sizeU0

def patchImageHeightInBlock (patch : RegionPatch) : ℕ :=
  if patch.isPatchDimensionSwitched then patch.sizeU0 else patch.sizeV0

end RegionPatch

/-- A tile while the loop goes over the patches of the frame. -/
structure RegionFilling where
  patches : List RegionPatch := []
  tileLeftXinBlock : ℕ
  tileLeftYinBlock : ℕ
  tileWidth : ℕ := 0
  tileHeight : ℕ := 0

def RegionFilling.push (tileIdx : ℕ) (filling : RegionFilling) (patch : RegionPatch) (pi : ℕ) :
    RegionFilling where
  patches := filling.patches ++ [{ patch with indexInFrame := pi, tileIndex := tileIdx }]
  tileLeftXinBlock := min filling.tileLeftXinBlock patch.u0
  tileLeftYinBlock := min filling.tileLeftYinBlock patch.v0
  tileWidth := max filling.tileWidth
    ((patch.u0 + patch.patchImageWidthInBlock) * patch.occupancyResolution % 2 ^ 64)
  tileHeight := max filling.tileHeight
    ((patch.v0 + patch.patchImageHeightInBlock) * patch.occupancyResolution % 2 ^ 64)

namespace PCCEncoder

/-- A tile for each region, and one for the raw points of several regions. -/
def numMaxTilePerFrame (params : RegionParams) : ℕ :=
  if params.rawPoints ∧ 1 < params.numROIs then params.numROIs + 1 else params.numROIs

/-- Only the packers of other strategies than the first make the map, and only of patches. -/
def partitionToTileMap (params : RegionParams) (frame : RegionFrame) : List ℤ :=
  if params.packingStrategy = 0 ∨ frame.patches = [] then [] else frame.claimed

/-- An empty map has no greatest element. -/
def numTiles (params : RegionParams) (frame : RegionFrame) : Option ℕ :=
  (partitionToTileMap params frame).max?.map fun roiIndex => (roiIndex + 1).toNat

def fillRegion (frame : RegionFrame) (tileIdx : ℕ) : RegionFilling :=
  frame.patches.zipIdx.foldl (fun filling patch =>
      if patch.1.roiIndex = tileIdx then filling.push tileIdx patch.1 patch.2 else filling)
    { tileLeftXinBlock := frame.width, tileLeftYinBlock := frame.height }

/-- One patch of the loop for the patch that overlaps most with one of the previous frame. -/
def betterMatch (iou : RegionPatch → RegionPatch → ℚ) (previous : RegionPatch)
    (best : ℚ × Option ℕ) (candidate : RegionPatch × ℕ) : ℚ × Option ℕ :=
  if previous.viewId = candidate.1.viewId ∧ candidate.1.bestMatchIdx = -1 ∧
      (previous.lodScaleX = candidate.1.lodScaleX ∧ previous.lodScaleY = candidate.1.lodScaleY) ∧
      previous.roiIndex = candidate.1.roiIndex ∧ best.1 < iou previous candidate.1 then
    (iou previous candidate.1, some candidate.2)
  else best

def bestRegionMatch (iou : RegionPatch → RegionPatch → ℚ) (previous : RegionPatch)
    (patches : List RegionPatch) : ℚ × Option ℕ :=
  patches.zipIdx.foldl (betterMatch iou previous) (0, none)

/-- One pass of the loop over the patches of the previous frame. -/
def matchRegionPatch (iou : RegionPatch → RegionPatch → ℚ)
    (s : List RegionPatch × List RegionPatch) (previous : RegionPatch × ℕ) :
    List RegionPatch × List RegionPatch :=
  let best := bestRegionMatch iou previous.1 s.1
  match best.2.bind fun bestIdx => s.1[bestIdx]?.map fun patch => (bestIdx, patch) with
  | some (bestIdx, patch) =>
    if thresholdIOU < best.1 then
      let patch := { patch with bestMatchIdx := previous.2 }
      (s.1.set bestIdx patch, s.2 ++ [patch])
    else s
  | none => s

/-- The order that the packers of several tiles put the sorted patches of a frame into. -/
def matchRegions (iou : RegionPatch → RegionPatch → ℚ) (prevPatches patches : List RegionPatch) :
    List RegionPatch :=
  let (patches, matchedPatches) := prevPatches.zipIdx.foldl (matchRegionPatch iou) (patches, [])
  matchedPatches ++ patches.filter fun patch => patch.bestMatchIdx = -1

/-- The tile of a region, with its corner at the least coordinates of its patches. A tile without
patches gets sizes that wrap. -/
def regionTile (params : RegionParams) (frameIdx : ℕ) (frame : RegionFrame) (tileIdx : ℕ) :
    RegionTile :=
  let filling := fillRegion frame tileIdx
  let leftTopXInFrame := filling.tileLeftXinBlock * params.occupancyResolution % 2 ^ 64
  let leftTopYInFrame := filling.tileLeftYinBlock * params.occupancyResolution % 2 ^ 64
  { frameIndex := frameIdx
    tileIndex := tileIdx
    width := (filling.tileWidth + 2 ^ 64 - leftTopXInFrame) % 2 ^ 64
    height := (filling.tileHeight + 2 ^ 64 - leftTopYInFrame) % 2 ^ 64
    leftTopXInFrame
    leftTopYInFrame
    patches := filling.patches.map fun patch => { patch with
      u0 := patch.u0 - filling.tileLeftXinBlock, v0 := patch.v0 - filling.tileLeftYinBlock } }

/-- The loop over the patches of the previous tile goes on behind a hit, with the new value. -/
def remapIndex (prevPatches : List RegionPatch) (bestMatchIdx : ℤ) : ℤ :=
  prevPatches.zipIdx.foldl (fun bestMatchIdx prev =>
    if prev.1.indexInFrame = toSizeT bestMatchIdx then toInt32 prev.2 else bestMatchIdx)
    bestMatchIdx

def remapMatch (prevPatches : List RegionPatch) (patch : RegionPatch) : RegionPatch :=
  if patch.bestMatchIdx = -1 then patch
  else { patch with bestMatchIdx := remapIndex prevPatches patch.bestMatchIdx }

/-- The tile of a region, whose matches are in the tile before it. -/
def remappedTile (params : RegionParams) (frameIdx : ℕ) (prevTiles : List RegionTile)
    (frame : RegionFrame) (tileIdx : ℕ) : Option RegionTile :=
  let tile := regionTile params frameIdx frame tileIdx
  if frameIdx ≠ 0 ∧ params.constrainedPack then do
    let prevTile ← prevTiles[tileIdx]?
    some { tile with patches := tile.patches.map (remapMatch prevTile.patches) }
  else some tile

/-- The tiles of all frames. A number of tiles that was not configured ends the program. The EOM
patches and the raw points, which are put into the tiles afterwards, are left out. -/
def generateTiles (params : RegionParams) :
    ℕ → List RegionTile → List RegionFrame → Option (Except ℕ (List (List RegionTile)))
  | _, _, [] => some (.ok [])
  | frameIdx, prevTiles, frame :: frames => do
    let numTiles ← numTiles params frame
    if numMaxTilePerFrame params ≠ numTiles + (if params.rawPoints then 1 else 0) then
      some (.error 14)
    else
      let tiles ← (List.range numTiles).mapM (remappedTile params frameIdx prevTiles frame)
      let rest ← generateTiles params (frameIdx + 1) tiles frames
      some (rest.map (tiles :: ·))

def generateTilesFromImage (params : RegionParams) (frames : List RegionFrame) :
    Option (Except ℕ (List (List RegionTile))) :=
  generateTiles params 0 [] frames

/-! ### The indices of a tile -/

/-- Of increasing positions, one that a value hits is replaced by its place; the loop then finds
no other one, as the positions behind are greater than their places. -/
theorem foldl_remap (positions : List ℕ) : ∀ (start : ℕ) (value : ℤ),
    (∀ position ∈ positions, start ≤ position) → positions.Pairwise (· < ·) → 0 ≤ value →
    value < 2 ^ 31 →
    (positions.zipIdx start).foldl (fun value position =>
      if position.1 = toSizeT value then toInt32 position.2 else value) value =
        if value.toNat ∈ positions then ((start + positions.idxOf value.toNat : ℕ) : ℤ)
        else value := by
  induction positions with
  | nil => exact fun _ _ _ _ _ _ => rfl
  | cons position positions ih =>
    intro start value hstart hincreasing hlow hhigh
    obtain ⟨hgreater, hincreasing⟩ := List.pairwise_cons.mp hincreasing
    obtain ⟨hfirst, hothers⟩ := List.forall_mem_cons.mp hstart
    have hnext : ∀ other ∈ positions, start + 1 ≤ other := fun other hother =>
      hfirst.trans_lt (hgreater other hother)
    rw [List.zipIdx_cons, List.foldl_cons, toSizeT_of_lt hlow (by omega)]
    by_cases hhit : position = value.toNat
    · -- the value is now the place, which no position behind it is
      have hvalue : toInt32 start = start := toInt32_of_lt (by omega)
      have hmiss : start ∉ positions := fun hmem => Nat.lt_irrefl _ (hnext start hmem)
      rw [if_pos hhit, hvalue, ih (start + 1) start hnext hincreasing (by omega) (by omega),
        Int.toNat_natCast, if_neg hmiss, ← hhit, if_pos List.mem_cons_self, List.idxOf_cons_self,
        Nat.add_zero]
    · rw [if_neg hhit, ih (start + 1) value hnext hincreasing hlow hhigh]
      have hmem : value.toNat ∈ position :: positions ↔ value.toNat ∈ positions :=
        List.mem_cons.trans (or_iff_right (Ne.symm hhit))
      simp only [hmem]
      split_ifs
      · rw [List.idxOf_cons_ne _ hhit]
        push_cast
        omega
      · rfl

/-! ### The patches of a region -/

/-- The patches of a region, with their positions in the frame. -/
def regionPatches (patches : List RegionPatch) (tileIdx : ℕ) : List (RegionPatch × ℕ) :=
  patches.zipIdx.filter fun patch => patch.1.roiIndex = tileIdx

section

variable {patches : List RegionPatch} {tileIdx : ℕ}

theorem mem_regionPatches {patch : RegionPatch} {pi : ℕ} :
    (patch, pi) ∈ regionPatches patches tileIdx ↔
      patches[pi]? = some patch ∧ patch.roiIndex = tileIdx := by
  unfold regionPatches
  rw [List.mem_filter, List.mem_zipIdx_iff_getElem?, decide_eq_true_iff]

theorem positions_increasing :
    ((regionPatches patches tileIdx).map Prod.snd).Pairwise (· < ·) := by
  have hsublist : ((regionPatches patches tileIdx).map Prod.snd).Sublist
      (patches.zipIdx.map Prod.snd) := List.filter_sublist.map _
  apply List.Pairwise.sublist hsublist
  rw [List.zipIdx_map_snd]
  exact List.pairwise_lt_range'

theorem push_patches (l : List (RegionPatch × ℕ)) : ∀ filling : RegionFilling,
    (l.foldl (fun filling patch => filling.push tileIdx patch.1 patch.2) filling).patches =
      filling.patches ++ l.map fun patch =>
        { patch.1 with indexInFrame := patch.2, tileIndex := tileIdx } := by
  induction l with
  | nil => exact fun filling => (List.append_nil _).symm
  | cons patch l ih =>
    intro filling
    rw [List.foldl_cons, ih, RegionFilling.push, List.append_assoc]
    rfl

/-- The corner of a tile is at no coordinate above those of its patches. -/
theorem push_corner (l : List (RegionPatch × ℕ)) : ∀ filling : RegionFilling,
    let filled := l.foldl (fun filling patch => filling.push tileIdx patch.1 patch.2) filling
    (filled.tileLeftXinBlock ≤ filling.tileLeftXinBlock ∧
      filled.tileLeftYinBlock ≤ filling.tileLeftYinBlock) ∧
      ∀ patch ∈ l, filled.tileLeftXinBlock ≤ patch.1.u0 ∧ filled.tileLeftYinBlock ≤ patch.1.v0 := by
  induction l with
  | nil => exact fun filling => ⟨⟨Nat.le_refl _, Nat.le_refl _⟩, fun _ h => nomatch h⟩
  | cons patch l ih =>
    intro filling
    obtain ⟨⟨hx, hy⟩, hall⟩ := ih (filling.push tileIdx patch.1 patch.2)
    refine ⟨⟨hx.trans (Nat.min_le_left _ _), hy.trans (Nat.min_le_left _ _)⟩, ?_⟩
    exact List.forall_mem_cons.mpr
      ⟨⟨hx.trans (Nat.min_le_right _ _), hy.trans (Nat.min_le_right _ _)⟩, hall⟩

end

theorem fillRegion_eq (frame : RegionFrame) (tileIdx : ℕ) : fillRegion frame tileIdx =
    (regionPatches frame.patches tileIdx).foldl
      (fun filling patch => filling.push tileIdx patch.1 patch.2)
      { tileLeftXinBlock := frame.width, tileLeftYinBlock := frame.height } := by
  unfold fillRegion regionPatches
  rw [List.foldl_filter]
  simp only [decide_eq_true_eq]

/-- A patch of a region in its tile. -/
def movedPatch (frame : RegionFrame) (tileIdx : ℕ) (patch : RegionPatch × ℕ) : RegionPatch :=
  { patch.1 with
    indexInFrame := patch.2
    tileIndex := tileIdx
    u0 := patch.1.u0 - (fillRegion frame tileIdx).tileLeftXinBlock
    v0 := patch.1.v0 - (fillRegion frame tileIdx).tileLeftYinBlock }

section

variable {params : RegionParams} {frame : RegionFrame} {frameIdx tileIdx : ℕ}

theorem regionTile_patches : (regionTile params frameIdx frame tileIdx).patches =
    (regionPatches frame.patches tileIdx).map (movedPatch frame tileIdx) := by
  unfold regionTile
  simp only [fillRegion_eq frame tileIdx, push_patches, List.nil_append, List.map_map]
  unfold movedPatch
  rw [fillRegion_eq frame tileIdx]
  rfl

theorem corner_le {patch : RegionPatch × ℕ} (h : patch ∈ regionPatches frame.patches tileIdx) :
    (fillRegion frame tileIdx).tileLeftXinBlock ≤ patch.1.u0 ∧
      (fillRegion frame tileIdx).tileLeftYinBlock ≤ patch.1.v0 := by
  rw [fillRegion_eq]
  exact (push_corner _ _).2 patch h

end

/-! ### The patches in their tiles -/

/-- The patch at a place of the tiles. -/
def patchAt (tiles : List RegionTile) (place : ℕ × ℕ) : Option RegionPatch :=
  tiles[place.1]?.bind fun tile => tile.patches[place.2]?

/-- Everything of a patch that does not depend on where it is. -/
def content (patch : RegionPatch) : RegionPatch :=
  { patch with u0 := 0, v0 := 0, indexInFrame := 0, tileIndex := 0, bestMatchIdx := -1 }

/-- A patch of a tile covers what a patch of the frame covers. -/
structure KeepsPatch (params : RegionParams) (tile : RegionTile) (patch moved : RegionPatch) :
    Prop where
  tileIndex : moved.tileIndex = tile.tileIndex
  content : content moved = content patch
  column : (tile.leftTopXInFrame + moved.u0 * params.occupancyResolution) % 2 ^ 64 =
    patch.u0 * params.occupancyResolution % 2 ^ 64
  row : (tile.leftTopYInFrame + moved.v0 * params.occupancyResolution) % 2 ^ 64 =
    patch.v0 * params.occupancyResolution % 2 ^ 64

/-- The index of a match in the tile before, for the one in the frame before. -/
def RemapsTo (prevTiles : List RegionTile) (tileIdx : ℕ) (bestMatchIdx remapped : ℤ) : Prop :=
  if bestMatchIdx = -1 then remapped = -1
  else ∃ (k : ℕ) (previous : RegionPatch), remapped = k ∧
    patchAt prevTiles (tileIdx, k) = some previous ∧ (previous.indexInFrame : ℤ) = bestMatchIdx

/-- Each patch of a frame is in one tile, and its match in the same tile of the frame before. -/
structure FrameRemapped (params : RegionParams) (prevTiles : List RegionTile)
    (frame : RegionFrame) (tiles : List RegionTile) : Prop where
  length : tiles.length = params.numROIs
  exactlyOne : ∀ pi < frame.patches.length, ∃! place : ℕ × ℕ,
    ∃ moved, patchAt tiles place = some moved ∧ moved.indexInFrame = pi
  keeps : ∀ (tileIdx k : ℕ) (tile : RegionTile) (moved : RegionPatch),
    tiles[tileIdx]? = some tile → tile.patches[k]? = some moved →
    ∃ patch, frame.patches[moved.indexInFrame]? = some patch ∧ patch.roiIndex = tileIdx ∧
      KeepsPatch params tile patch moved ∧
      RemapsTo prevTiles tileIdx patch.bestMatchIdx moved.bestMatchIdx

/-- The tiles of each frame, one frame after the other. -/
def Remapped (params : RegionParams) :
    List RegionTile → List RegionFrame → List (List RegionTile) → Prop
  | _, [], [] => True
  | prevTiles, frame :: frames, tiles :: rest =>
    FrameRemapped params prevTiles frame tiles ∧ Remapped params tiles frames rest
  | _, _, _ => False

/-- A match is a patch of the same region in the frame before, and there is none without a
constrained packing. -/
def MatchedPatch (params : RegionParams) (prevPatches : List RegionPatch) (patch : RegionPatch) :
    Prop :=
  patch.bestMatchIdx = -1 ∨
    params.constrainedPack = true ∧ 0 ≤ patch.bestMatchIdx ∧ patch.bestMatchIdx < 2 ^ 31 ∧
      ∃ previous, prevPatches[patch.bestMatchIdx.toNat]? = some previous ∧
        previous.roiIndex = patch.roiIndex

def MatchedTo (params : RegionParams) (prevPatches : List RegionPatch) (frame : RegionFrame) :
    Prop :=
  ∀ patch ∈ frame.patches, MatchedPatch params prevPatches patch

def MatchedFrames (params : RegionParams) : List RegionPatch → List RegionFrame → Prop
  | _, [] => True
  | prevPatches, frame :: frames =>
    MatchedTo params prevPatches frame ∧ MatchedFrames params frame.patches frames

/-- The tiles that the patches of a frame were moved into. -/
def Tiled (params : RegionParams) (patches : List RegionPatch) (tiles : List RegionTile) : Prop :=
  ∀ tileIdx < params.numROIs, ∃ tile, tiles[tileIdx]? = some tile ∧
    tile.patches.map RegionPatch.indexInFrame = (regionPatches patches tileIdx).map Prod.snd

section

variable {params : RegionParams} {frame : RegionFrame} {frameIdx tileIdx : ℕ}
  {prevPatches : List RegionPatch} {prevTiles : List RegionTile}

theorem keepsPatch_moved {tile : RegionTile} {patch : RegionPatch × ℕ} (index : ℤ)
    (hpatch : patch ∈ regionPatches frame.patches tileIdx) (hindex : tile.tileIndex = tileIdx)
    (hx : tile.leftTopXInFrame = (regionTile params frameIdx frame tileIdx).leftTopXInFrame)
    (hy : tile.leftTopYInFrame = (regionTile params frameIdx frame tileIdx).leftTopYInFrame) :
    KeepsPatch params tile patch.1
      { movedPatch frame tileIdx patch with bestMatchIdx := index } where
  tileIndex := hindex.symm
  content := rfl
  column := by
    rw [hx, regionTile, movedPatch, Nat.mod_add_mod, ← Nat.add_mul,
      Nat.add_sub_cancel' (corner_le hpatch).1]
  row := by
    rw [hy, regionTile, movedPatch, Nat.mod_add_mod, ← Nat.add_mul,
      Nat.add_sub_cancel' (corner_le hpatch).2]

/-- The loop finds the patch of the tile that had the index in the frame. -/
theorem remapIndex_tile {tile : RegionTile} {previous : RegionPatch} {bestMatchIdx : ℤ}
    (htile : tile.patches.map RegionPatch.indexInFrame =
      (regionPatches prevPatches tileIdx).map Prod.snd)
    (hlow : 0 ≤ bestMatchIdx) (hhigh : bestMatchIdx < 2 ^ 31)
    (hprevious : prevPatches[bestMatchIdx.toNat]? = some previous)
    (hregion : previous.roiIndex = tileIdx) :
    ∃ (k : ℕ) (moved : RegionPatch), remapIndex tile.patches bestMatchIdx = k ∧
      tile.patches[k]? = some moved ∧ (moved.indexInFrame : ℤ) = bestMatchIdx := by
  set positions := tile.patches.map RegionPatch.indexInFrame with hpositions
  have hmem : bestMatchIdx.toNat ∈ positions := by
    rw [htile]
    exact List.mem_map_of_mem (mem_regionPatches.mpr ⟨hprevious, hregion⟩)
  have hremap :
      remapIndex tile.patches bestMatchIdx = (positions.idxOf bestMatchIdx.toNat : ℕ) := by
    have hloop := foldl_remap positions 0 bestMatchIdx (fun _ _ => Nat.zero_le _)
      (htile ▸ positions_increasing) hlow hhigh
    rw [if_pos hmem, Nat.zero_add, hpositions, List.zipIdx_map, List.foldl_map] at hloop
    exact hloop
  have hplace : positions[positions.idxOf bestMatchIdx.toNat]? = some bestMatchIdx.toNat :=
    List.getElem?_idxOf hmem
  rw [hpositions, List.getElem?_map, ← hpositions] at hplace
  obtain ⟨moved, hmoved, hindex⟩ := Option.map_eq_some_iff.mp hplace
  refine ⟨_, moved, hremap, hmoved, ?_⟩
  rw [hindex, Int.toNat_of_nonneg hlow]

/-- A tile in which every patch has the place of its match. -/
structure RemappedTile (params : RegionParams) (frameIdx : ℕ) (prevTiles : List RegionTile)
    (frame : RegionFrame) (tileIdx : ℕ) (tile : RegionTile) (index : ℤ → ℤ) : Prop where
  tileIndex : tile.tileIndex = tileIdx
  column : tile.leftTopXInFrame = (regionTile params frameIdx frame tileIdx).leftTopXInFrame
  row : tile.leftTopYInFrame = (regionTile params frameIdx frame tileIdx).leftTopYInFrame
  patches : tile.patches = (regionPatches frame.patches tileIdx).map fun patch =>
    { movedPatch frame tileIdx patch with bestMatchIdx := index patch.1.bestMatchIdx }
  remaps : ∀ patch ∈ regionPatches frame.patches tileIdx,
    RemapsTo prevTiles tileIdx patch.1.bestMatchIdx (index patch.1.bestMatchIdx)

theorem exists_remappedTile (hfirst : frameIdx = 0 → prevPatches = [])
    (htiled : frameIdx ≠ 0 → Tiled params prevPatches prevTiles)
    (hmatched : MatchedTo params prevPatches frame) (htile : tileIdx < params.numROIs) :
    ∃ tile index, remappedTile params frameIdx prevTiles frame tileIdx = some tile ∧
      RemappedTile params frameIdx prevTiles frame tileIdx tile index := by
  by_cases hremap : frameIdx ≠ 0 ∧ params.constrainedPack = true
  · obtain ⟨prevTile, hprevTile, hpositions⟩ := htiled hremap.1 tileIdx htile
    let tile := regionTile params frameIdx frame tileIdx
    refine ⟨{ tile with patches := tile.patches.map (remapMatch prevTile.patches) },
      fun best => if best = -1 then best else remapIndex prevTile.patches best, ?_, rfl, rfl, rfl,
      ?_, ?_⟩
    · unfold remappedTile
      rw [if_pos hremap, hprevTile]
      rfl
    · change (regionTile params frameIdx frame tileIdx).patches.map _ = _
      rw [regionTile_patches, List.map_map]
      apply List.map_congr_left
      intro patch _
      change remapMatch prevTile.patches (movedPatch frame tileIdx patch) = _
      unfold remapMatch movedPatch
      split_ifs <;> rfl
    · intro patch hpatch
      obtain ⟨hposition, hregion⟩ := mem_regionPatches.mp hpatch
      unfold RemapsTo
      split_ifs with hnone
      · exact hnone
      · obtain hnone' | ⟨-, hlow, hhigh, previous, hprevious, hsame⟩ :=
          hmatched patch.1 (List.mem_of_getElem? hposition)
        · exact absurd hnone' hnone
        · obtain ⟨k, moved, hk, hmoved, hindex⟩ :=
            remapIndex_tile hpositions hlow hhigh hprevious (hsame.trans hregion)
          refine ⟨k, moved, hk, ?_, hindex⟩
          rw [patchAt, hprevTile, Option.bind_some]
          exact hmoved
  · -- no patch has a match, in the first frame as there is none before
    refine ⟨_, id, if_neg hremap, rfl, rfl, rfl, regionTile_patches, ?_⟩
    intro patch hpatch
    obtain ⟨hposition, -⟩ := mem_regionPatches.mp hpatch
    unfold RemapsTo
    obtain hnone | ⟨hconstrained, -, -, previous, hprevious, -⟩ :=
      hmatched patch.1 (List.mem_of_getElem? hposition)
    · rw [if_pos hnone]
      exact hnone
    · have hzero : frameIdx = 0 := not_not.mp fun h => hremap ⟨h, hconstrained⟩
      rw [hfirst hzero] at hprevious
      cases hprevious

/-- The tiles of a frame, for the tiles of the one before. -/
structure RemappedTiles (params : RegionParams) (frameIdx : ℕ) (prevTiles : List RegionTile)
    (frame : RegionFrame) (tiles : List RegionTile) : Prop where
  length : tiles.length = params.numROIs
  remapped : ∀ (tileIdx : ℕ) (tile : RegionTile), tiles[tileIdx]? = some tile →
    ∃ index, RemappedTile params frameIdx prevTiles frame tileIdx tile index

theorem exists_remappedTiles (hfirst : frameIdx = 0 → prevPatches = [])
    (htiled : frameIdx ≠ 0 → Tiled params prevPatches prevTiles)
    (hmatched : MatchedTo params prevPatches frame) :
    ∃ tiles, (List.range params.numROIs).mapM (remappedTile params frameIdx prevTiles frame) =
      some tiles ∧ RemappedTiles params frameIdx prevTiles frame tiles := by
  have hall : ∀ tileIdx ∈ List.range params.numROIs, ∃ tile,
      remappedTile params frameIdx prevTiles frame tileIdx = some tile := by
    intro tileIdx htileIdx
    obtain ⟨tile, -, htile, -⟩ :=
      exists_remappedTile hfirst htiled hmatched (List.mem_range.mp htileIdx)
    exact ⟨tile, htile⟩
  obtain ⟨tiles, htiles⟩ := Codec.exists_mapM_eq_some hall
  refine ⟨tiles, htiles, ?_, ?_⟩
  · rw [Codec.length_of_mapM_eq_some htiles, List.length_range]
  · intro tileIdx tile htile
    rw [Codec.getElem?_of_mapM_eq_some htiles] at htile
    obtain ⟨same, hsame, htile⟩ := Option.bind_eq_some_iff.mp htile
    obtain ⟨hlt, heq⟩ := List.getElem?_eq_some_iff.mp hsame
    rw [List.length_range] at hlt
    obtain rfl := (List.getElem_range _).symm.trans heq
    obtain ⟨tile', index, htile', hremapped⟩ := exists_remappedTile hfirst htiled hmatched hlt
    obtain rfl := Option.some.inj (htile.symm.trans htile')
    exact ⟨index, hremapped⟩

theorem RemappedTile.positions {tile : RegionTile} {index : ℤ → ℤ}
    (h : RemappedTile params frameIdx prevTiles frame tileIdx tile index) :
    tile.patches.map RegionPatch.indexInFrame =
      (regionPatches frame.patches tileIdx).map Prod.snd := by
  rw [h.patches, List.map_map]
  rfl

theorem RemappedTiles.tiled {tiles : List RegionTile}
    (h : RemappedTiles params frameIdx prevTiles frame tiles) :
    Tiled params frame.patches tiles := by
  intro tileIdx htileIdx
  have hlt : tileIdx < tiles.length := h.length ▸ htileIdx
  obtain ⟨index, htile⟩ := h.remapped tileIdx tiles[tileIdx] (List.getElem?_eq_getElem hlt)
  exact ⟨tiles[tileIdx], List.getElem?_eq_getElem hlt, htile.positions⟩

/-- A patch of a tile is one of the frame, at the index that it has. -/
theorem RemappedTiles.keeps {tiles : List RegionTile} {tile : RegionTile} {moved : RegionPatch}
    {k : ℕ} (h : RemappedTiles params frameIdx prevTiles frame tiles)
    (htile : tiles[tileIdx]? = some tile) (hmoved : tile.patches[k]? = some moved) :
    ∃ patch, frame.patches[moved.indexInFrame]? = some patch ∧ patch.roiIndex = tileIdx ∧
      KeepsPatch params tile patch moved ∧
      RemapsTo prevTiles tileIdx patch.bestMatchIdx moved.bestMatchIdx := by
  obtain ⟨index, hremapped⟩ := h.remapped tileIdx tile htile
  rw [hremapped.patches, List.getElem?_map] at hmoved
  obtain ⟨⟨patch, pi⟩, hpatch, rfl⟩ := Option.map_eq_some_iff.mp hmoved
  have hmem := List.mem_of_getElem? hpatch
  obtain ⟨hposition, hregion⟩ := mem_regionPatches.mp hmem
  exact ⟨patch, hposition, hregion,
    keepsPatch_moved _ hmem hremapped.tileIndex hremapped.column hremapped.row,
    hremapped.remaps _ hmem⟩

/-- The positions of a region increase, so that a patch has one place in the tile of its region,
and it has none in another tile. -/
theorem RemappedTiles.exactlyOne {tiles : List RegionTile} {pi : ℕ}
    (h : RemappedTiles params frameIdx prevTiles frame tiles) (hpi : pi < frame.patches.length)
    (hregion : frame.patches[pi].roiIndex < params.numROIs) : ∃! place : ℕ × ℕ,
      ∃ moved, patchAt tiles place = some moved ∧ moved.indexInFrame = pi := by
  obtain ⟨tile, htile, hpositions⟩ := h.tiled _ hregion
  have hmem : pi ∈ tile.patches.map RegionPatch.indexInFrame := by
    rw [hpositions]
    exact List.mem_map_of_mem
      (mem_regionPatches.mpr ⟨List.getElem?_eq_getElem hpi, rfl⟩)
  have hnodup : (tile.patches.map RegionPatch.indexInFrame).Nodup := by
    rw [hpositions]
    exact positions_increasing.imp Nat.ne_of_lt
  obtain ⟨k, hk⟩ := List.mem_iff_getElem?.mp hmem
  obtain ⟨moved, hmoved, hindex⟩ := Option.map_eq_some_iff.mp (List.getElem?_map.symm.trans hk)
  refine ⟨(frame.patches[pi].roiIndex, k), ⟨moved, ?_, hindex⟩, ?_⟩
  · rw [patchAt, htile]
    exact hmoved
  · rintro ⟨tileIdx', k'⟩ ⟨moved', hplace, hindex'⟩
    obtain ⟨tile', htile', hmoved'⟩ := Option.bind_eq_some_iff.mp hplace
    obtain ⟨patch, hposition, hregion', -⟩ := h.keeps htile' hmoved'
    rw [hindex', List.getElem?_eq_getElem hpi] at hposition
    obtain rfl := Option.some.inj hposition
    obtain rfl := hregion'
    obtain rfl := Option.some.inj (htile.symm.trans htile')
    have hk' : (tile.patches.map RegionPatch.indexInFrame)[k']? = some pi := by
      rw [List.getElem?_map, hmoved', Option.map_some, hindex']
    have hlt : k' < (tile.patches.map RegionPatch.indexInFrame).length :=
      (List.getElem?_eq_some_iff.mp hk').1
    rw [(List.getElem?_inj hlt hnodup).mp (hk'.trans hk.symm)]

theorem RemappedTiles.frameRemapped {tiles : List RegionTile}
    (h : RemappedTiles params frameIdx prevTiles frame tiles)
    (hregions : ∀ patch ∈ frame.patches, patch.roiIndex < params.numROIs) :
    FrameRemapped params prevTiles frame tiles where
  length := h.length
  exactlyOne _ hpi := h.exactlyOne hpi (hregions _ (List.getElem_mem hpi))
  keeps _ _ _ _ htile hmoved := h.keeps htile hmoved

theorem numTiles_eq_none :
    numTiles params frame = none ↔ params.packingStrategy = 0 ∨ frame.patches = [] := by
  unfold numTiles partitionToTileMap
  rw [Option.map_eq_none_iff, List.max?_eq_none_iff]
  split_ifs with h
  · exact iff_of_true rfl h
  · refine iff_of_false ?_ h
    obtain ⟨roiIndex, hclaimed, -⟩ := frame.claims (not_or.mp h).2
    exact List.ne_nil_of_mem hclaimed

theorem numTiles_pos {count : ℕ} (h : numTiles params frame = some count) : 0 < count := by
  have hpacked := numTiles_eq_none.not.mp (h ▸ Option.some_ne_none count)
  unfold numTiles partitionToTileMap at h
  rw [if_neg hpacked] at h
  obtain ⟨most, hmost, rfl⟩ := Option.map_eq_some_iff.mp h
  obtain ⟨roiIndex, hclaimed, hpos⟩ := frame.claims (not_or.mp hpacked).2
  have hle : roiIndex ≤ most := (List.max?_eq_some_iff.mp hmost).2 roiIndex hclaimed
  omega

/-- The guard lets only the tiles of all regions pass. -/
theorem eq_numROIs {count : ℕ} (h : numTiles params frame = some count)
    (hconfigured : numMaxTilePerFrame params = count + (if params.rawPoints then 1 else 0)) :
    count = params.numROIs := by
  have hpos := numTiles_pos h
  unfold numMaxTilePerFrame at hconfigured
  by_cases hraw : params.rawPoints = true
  · simp only [hraw, true_and, ↓reduceIte] at hconfigured
    split_ifs at hconfigured <;> omega
  · rw [if_neg (fun h => hraw h.1), if_neg hraw] at hconfigured
    exact hconfigured.symm

end

/-! ### The run -/

/-- The tiles that the program goes on with, if it does not end itself. -/
def Delivers (property : List (List RegionTile) → Prop) :
    Option (Except ℕ (List (List RegionTile))) → Prop
  | none => False
  | some (.error _) => True
  | some (.ok tiles) => property tiles

/-- Every frame has a map, up to one whose number of tiles was not configured. -/
def MapsPresent (params : RegionParams) : List RegionFrame → Prop
  | [] => True
  | frame :: frames => params.packingStrategy ≠ 0 ∧ frame.patches ≠ [] ∧ ∀ count,
    numTiles params frame = some count →
    numMaxTilePerFrame params = count + (if params.rawPoints then 1 else 0) →
      MapsPresent params frames

theorem delivers_generateTiles_iff {params : RegionParams} (frames : List RegionFrame) :
    ∀ {frameIdx : ℕ} {prevPatches : List RegionPatch} {prevTiles : List RegionTile},
      (frameIdx = 0 → prevPatches = []) →
      (frameIdx ≠ 0 → Tiled params prevPatches prevTiles) →
      (∀ frame ∈ frames, ∀ patch ∈ frame.patches, patch.roiIndex < params.numROIs) →
      MatchedFrames params prevPatches frames →
      (Delivers (Remapped params prevTiles frames)
          (generateTiles params frameIdx prevTiles frames) ↔
        MapsPresent params frames) := by
  induction frames with
  | nil => exact fun _ _ _ _ => Iff.rfl
  | cons frame frames ih =>
    intro frameIdx prevPatches prevTiles hfirst htiled hregions hmatched
    obtain ⟨hregion, hregions⟩ := List.forall_mem_cons.mp hregions
    obtain ⟨hmatch, hmatched⟩ := hmatched
    unfold generateTiles MapsPresent
    cases hnumTiles : numTiles params frame with
    | none =>
      have hempty := numTiles_eq_none.mp hnumTiles
      exact iff_of_false id fun h => hempty.elim h.1 h.2.1
    | some count =>
      obtain ⟨hstrategy, hpatches⟩ := not_or.mp
        (numTiles_eq_none.not.mp (hnumTiles ▸ Option.some_ne_none count))
      rw [Option.bind_eq_bind, Option.bind_some]
      by_cases hconfigured :
        numMaxTilePerFrame params = count + (if params.rawPoints then 1 else 0)
      · have hcount := eq_numROIs hnumTiles hconfigured
        obtain ⟨tiles, htiles, hremapped⟩ := exists_remappedTiles hfirst htiled hmatch
        have hrest : Delivers (Remapped params tiles frames)
            (generateTiles params (frameIdx + 1) tiles frames) ↔ MapsPresent params frames :=
          ih (fun h => absurd h (Nat.succ_ne_zero frameIdx)) (fun _ => hremapped.tiled) hregions
            hmatched
        have hnext : (∀ count', some count = some count' → numMaxTilePerFrame params =
            count' + (if params.rawPoints then 1 else 0) → MapsPresent params frames) ↔
              MapsPresent params frames :=
          ⟨fun h => h count rfl hconfigured, fun h _ _ _ => h⟩
        rw [if_neg (not_not.mpr hconfigured), hnext, ← hrest, hcount, htiles, Option.bind_eq_bind,
          Option.bind_some]
        cases generateTiles params (frameIdx + 1) tiles frames with
        | none => exact iff_of_false id fun h => h.2.2
        | some outcome =>
          cases outcome with
          | error code => exact iff_of_true trivial ⟨hstrategy, hpatches, trivial⟩
          | ok rest =>
            exact ⟨fun h => ⟨hstrategy, hpatches, h.2⟩,
              fun h => ⟨hremapped.frameRemapped hregion, h.2.2⟩⟩
      · rw [if_pos hconfigured]
        exact iff_of_true trivial ⟨hstrategy, hpatches,
          fun _ h hconfigured' => absurd (Option.some.inj h ▸ hconfigured') hconfigured⟩

/-- The patches of all frames are remapped if and only if every frame has a map: the packers of
the first strategy make none, and the others none without patches. -/
theorem remapped_iff (params : RegionParams) (frames : List RegionFrame)
    (hregions : ∀ frame ∈ frames, ∀ patch ∈ frame.patches, patch.roiIndex < params.numROIs)
    (hmatched : MatchedFrames params [] frames) :
    Delivers (Remapped params [] frames) (generateTilesFromImage params frames) ↔
      MapsPresent params frames :=
  delivers_generateTiles_iff frames (fun _ => rfl) (fun h => absurd rfl h) hregions hmatched

/-- A patch of two by two blocks in the first row. -/
def rowOfRegion (roiIndex u0 : ℕ) (bestMatchIdx : ℤ) : RegionPatch :=
  { u0, v0 := 0, sizeU0 := 2, sizeV0 := 2, bestMatchIdx, roiIndex }

theorem two_regions_claim : ∃ roiIndex ∈ [(0 : ℤ), 1], 0 ≤ roiIndex :=
  ⟨0, List.mem_cons_self, Int.le_refl 0⟩

/-- A frame of two regions, which claim a partition each. -/
def twoRegions (patches : List RegionPatch) : RegionFrame where
  width := 256
  height := 128
  patches := patches
  claimed := [0, 1]
  claims _ := two_regions_claim

/-- The regions take turns, and each has matches at both of its patches of the first frame. -/
def alternatingFrames : List RegionFrame :=
  [twoRegions [rowOfRegion 1 8 (-1), rowOfRegion 0 0 (-1), rowOfRegion 1 10 (-1),
      rowOfRegion 0 2 (-1)],
    twoRegions [rowOfRegion 1 8 0, rowOfRegion 0 0 1, rowOfRegion 1 10 2, rowOfRegion 0 2 3,
      rowOfRegion 0 4 (-1)]]

theorem alternatingFrames_matched :
    MatchedFrames ⟨16, 1, true, 2, false⟩ [] alternatingFrames := by
  refine ⟨?_, ?_, trivial⟩
  · intro patch hpatch
    left
    revert patch
    decide
  · have hmatch (roiIndex u0 u0' k : ℕ) (hk : k < 4)
        (h : [rowOfRegion 1 8 (-1), rowOfRegion 0 0 (-1), rowOfRegion 1 10 (-1),
          rowOfRegion 0 2 (-1)][k]? = some (rowOfRegion roiIndex u0' (-1))) :
        MatchedPatch ⟨16, 1, true, 2, false⟩ [rowOfRegion 1 8 (-1), rowOfRegion 0 0 (-1),
          rowOfRegion 1 10 (-1), rowOfRegion 0 2 (-1)] (rowOfRegion roiIndex u0 k) :=
      Or.inr ⟨rfl, Int.natCast_nonneg k, by change (k : ℤ) < 2 ^ 31; omega, _, h, rfl⟩
    intro patch hpatch
    simp only [twoRegions, List.mem_cons, List.not_mem_nil, or_false] at hpatch
    obtain rfl | rfl | rfl | rfl | rfl := hpatch
    · exact hmatch 1 8 8 0 (by decide) rfl
    · exact hmatch 0 0 0 1 (by decide) rfl
    · exact hmatch 1 10 10 2 (by decide) rfl
    · exact hmatch 0 2 2 3 (by decide) rfl
    · exact Or.inl rfl

/-- The matches at positions 0 to 3 of the frame are at the first and the second patch of either
tile. -/
theorem remapped_alternatingFrames :
    Delivers (Remapped ⟨16, 1, true, 2, false⟩ [] alternatingFrames)
      (generateTilesFromImage ⟨16, 1, true, 2, false⟩ alternatingFrames) := by
  refine (remapped_iff ⟨16, 1, true, 2, false⟩ alternatingFrames (by decide)
    alternatingFrames_matched).mpr ?_
  exact ⟨by decide, by decide, fun _ _ _ => ⟨by decide, by decide, fun _ _ _ => trivial⟩⟩

/-- With the first packing strategy the greatest region is read from an empty map. -/
theorem not_remapped : ¬∀ (params : RegionParams) (frames : List RegionFrame),
    (∀ frame ∈ frames, ∀ patch ∈ frame.patches, patch.roiIndex < params.numROIs) →
    MatchedFrames params [] frames →
    Delivers (Remapped params [] frames) (generateTilesFromImage params frames) := by
  intro h
  have hframe := h ⟨16, 0, true, 2, false⟩ [twoRegions [rowOfRegion 0 0 (-1), rowOfRegion 1 2 (-1)]]
    (by decide) ⟨by rintro patch hpatch; left; revert patch; decide, trivial⟩
  exact hframe

/-! ### The matches of the packers -/

section

variable {iou : RegionPatch → RegionPatch → ℚ} {previous : RegionPatch}

/-- The best match is of the same region. -/
theorem roiIndex_bestRegionMatch {patch : RegionPatch} {patches : List RegionPatch} {bestIdx : ℕ}
    (h : (bestRegionMatch iou previous patches).2 = some bestIdx)
    (hpatch : patches[bestIdx]? = some patch) : previous.roiIndex = patch.roiIndex := by
  have hfold : ∀ (l : List (RegionPatch × ℕ)) (best : ℚ × Option ℕ),
      (∀ candidate ∈ l, patches[candidate.2]? = some candidate.1) →
      (∀ cId ∈ best.2, ∀ candidate, patches[cId]? = some candidate →
        previous.roiIndex = candidate.roiIndex) →
      ∀ cId ∈ (l.foldl (betterMatch iou previous) best).2,
        ∀ candidate, patches[cId]? = some candidate → previous.roiIndex = candidate.roiIndex := by
    intro l
    induction l with
    | nil => exact fun best _ hbest => hbest
    | cons candidate l ih =>
      intro best hl hbest
      obtain ⟨hcandidate, hl⟩ := List.forall_mem_cons.mp hl
      apply ih _ hl
      unfold betterMatch
      split_ifs with hbetter
      · rintro _ ⟨⟩ other hother
        obtain rfl := Option.some.inj (hcandidate.symm.trans hother)
        exact hbetter.2.2.2.1
      · exact hbest
  exact hfold patches.zipIdx (0, none)
    (fun candidate hcandidate => List.mem_zipIdx_iff_getElem?.mp hcandidate)
    (fun _ hnone => nomatch hnone) bestIdx h patch hpatch

/-- What one pass can do: nothing, or a match with a patch of the same region. -/
theorem matchRegionPatch_cases (s : List RegionPatch × List RegionPatch) (id : ℕ) :
    matchRegionPatch iou s (previous, id) = s ∨
      ∃ (bestIdx : ℕ) (patch : RegionPatch), s.1[bestIdx]? = some patch ∧
        previous.roiIndex = patch.roiIndex ∧ matchRegionPatch iou s (previous, id) =
          (s.1.set bestIdx { patch with bestMatchIdx := id },
            s.2 ++ [{ patch with bestMatchIdx := id }]) := by
  unfold matchRegionPatch
  dsimp only
  split
  · next bestIdx patch hbest =>
    obtain ⟨bestIdx', hbestIdx, hmap⟩ := Option.bind_eq_some_iff.mp hbest
    obtain ⟨patch', hpatch, heq⟩ := Option.map_eq_some_iff.mp hmap
    obtain ⟨rfl, rfl⟩ := Prod.mk.inj heq
    split_ifs
    · exact Or.inr ⟨bestIdx', patch', hpatch, roiIndex_bestRegionMatch hbestIdx hpatch, rfl⟩
    · exact Or.inl rfl
  · exact Or.inl rfl

/-- The matches that the packers make are as the tiles need them. -/
theorem matched_matchRegions {params : RegionParams} {prevPatches patches : List RegionPatch}
    (hconstrained : params.constrainedPack = true) (hlength : prevPatches.length ≤ 2 ^ 31) :
    ∀ patch ∈ matchRegions iou prevPatches patches, MatchedPatch params prevPatches patch := by
  have hfold : ∀ (l : List (RegionPatch × ℕ)) (s : List RegionPatch × List RegionPatch),
      (∀ previous ∈ l, prevPatches[previous.2]? = some previous.1) →
      (∀ patch ∈ s.2, MatchedPatch params prevPatches patch) →
      ∀ patch ∈ (l.foldl (matchRegionPatch iou) s).2, MatchedPatch params prevPatches patch := by
    intro l
    induction l with
    | nil => exact fun s _ hs => hs
    | cons previous l ih =>
      intro s hl hs
      obtain ⟨hprevious, hl⟩ := List.forall_mem_cons.mp hl
      apply ih _ hl
      obtain hsame | ⟨bestIdx, patch, -, hregion, hmatch⟩ := matchRegionPatch_cases s previous.2
      · rw [hsame]
        exact hs
      · rw [hmatch]
        intro other hother
        obtain hother | hother := List.mem_append.mp hother
        · exact hs other hother
        · obtain rfl := List.mem_singleton.mp hother
          have hlt : previous.2 < prevPatches.length :=
            (List.getElem?_eq_some_iff.mp hprevious).1
          have hint : (previous.2 : ℤ) < 2 ^ 31 := by exact_mod_cast hlt.trans_le hlength
          exact Or.inr ⟨hconstrained, Int.natCast_nonneg _, hint, previous.1, hprevious, hregion⟩
  intro patch hpatch
  obtain hmatched | hunmatched := List.mem_append.mp hpatch
  · exact hfold prevPatches.zipIdx (patches, [])
      (fun previous hprevious => List.mem_zipIdx_iff_getElem?.mp hprevious)
      (fun _ hnone => nomatch hnone) patch hmatched
  · exact Or.inl (of_decide_eq_true (List.mem_filter.mp hunmatched).2)

end

end PCCEncoder

end V3C

import V3C.Reconstruction.PatchPixels

/-! The blocks of the tiles in the whole frame. -/
namespace V3C
open Codec

/-- The tiles have no place in common. -/
def DifferentialTile.Apart (tile other : DifferentialTile) : Prop :=
  tile.leftTopXInFrame + tile.width ≤ other.leftTopXInFrame ∨
    other.leftTopXInFrame + other.width ≤ tile.leftTopXInFrame ∨
    tile.leftTopYInFrame + tile.height ≤ other.leftTopYInFrame ∨
    other.leftTopYInFrame + other.height ≤ tile.leftTopYInFrame

/-- The tile lies in the frame, from a block of the frame on, and holds its patches. -/
structure DifferentialTile.Placed (frame : DifferentialFrame) (tile : DifferentialTile) :
    Prop where
  alignedX : frame.occupancyResolution ∣ tile.leftTopXInFrame
  alignedY : frame.occupancyResolution ∣ tile.leftTopYInFrame
  right : tile.leftTopXInFrame + tile.width ≤ frame.width
  bottom : tile.leftTopYInFrame + tile.height ≤ frame.height
  patches : ∀ patch ∈ tile.patches,
    InTile tile.area frame.occupancyResolution patch.toPatchPlacement ∧ patch.Sized
  map : tile.occupancyMap.length = tile.width * tile.height

/-- The tiles lie side by side in the frame. A frame of one tile is that tile, and with raw points
the last of several tiles is theirs. -/
structure DifferentialFrame.Laid (frame : DifferentialFrame) : Prop where
  resolution : 0 < frame.occupancyResolution
  precision : 0 < frame.occupancyPrecision
  tiles : ∀ tile ∈ frame.tiles, tile.Placed frame
  apart : frame.tiles.Pairwise DifferentialTile.Apart
  single : ∀ tile, frame.tiles = [tile] →
    tile.leftTopXInFrame = 0 ∧ tile.leftTopYInFrame = 0 ∧ tile.width = frame.width ∧
      tile.height = frame.height
  raw : frame.rawPointsPatch = true → frame.tiles.length ≠ 1 → ∀ tile,
    frame.tiles.getLast? = some tile → tile.patches = []
  blocks : frame.width / frame.occupancyResolution *
    (frame.height / frame.occupancyResolution) ≤ 2 ^ 31
  map : frame.occupancyMap.length = frame.width * frame.height
  fullMap : frame.fullOccupancyMap.length = frame.width * frame.height

theorem length_generateBlockToPatch {area : TileArea} {resolution precision : ℕ}
    {image : ℕ → ℕ → ℕ} {patches : List PatchPlacement} {blockToPatch : List ℕ}
    (h : PCCCodec.generateBlockToPatchFromOccupancyMapVideo area resolution precision image
      patches = some blockToPatch) :
    blockToPatch.length = area.width / resolution * (area.height / resolution) := by
  have hblock : ∀ (patch : PatchPlacement) (i : ℕ) (table table' : List ℕ) (block : ℕ × ℕ),
      PCCCodec.assignBlock area resolution precision image patch i table block = some table' →
      table'.length = table.length := by
    intro patch i table table' block hassign
    obtain ⟨blockIndex, -, hassign⟩ := Option.bind_eq_some_iff.mp hassign
    obtain ⟨n, -, hassign⟩ := Option.bind_eq_some_iff.mp hassign
    split_ifs at hassign
    · obtain rfl := Option.some.inj hassign
      exact List.length_set
    · obtain rfl := Option.some.inj hassign
      rfl
  have hfold : ∀ {α : Type} (f : List ℕ → α → Option (List ℕ)) (steps : List α),
      (∀ table table' step, f table step = some table' → table'.length = table.length) →
      ∀ table table', steps.foldlM f table = some table' → table'.length = table.length := by
    intro α f steps hf
    induction steps with
    | nil =>
      intro table table' hrun
      obtain rfl : table = table' := Option.some.inj hrun
      rfl
    | cons step steps ih =>
      intro table table' hrun
      obtain ⟨next, hnext, hrun⟩ := Option.bind_eq_some_iff.mp (List.foldlM_cons.symm.trans hrun)
      exact (ih next table' hrun).trans (hf table next step hnext)
  unfold PCCCodec.generateBlockToPatchFromOccupancyMapVideo at h
  split_ifs at h
  refine (hfold _ _ ?_ _ _ h).trans List.length_replicate
  intro table table' patch hpatch
  exact hfold _ _ (fun t t' block => hblock patch.1 patch.2 t t' block) table table' hpatch

section

variable {frame : DifferentialFrame}

def DifferentialFrame.patchTiles (frame : DifferentialFrame) : List DifferentialTile :=
  if frame.rawPointsPatch = true ∧ frame.tiles.length ≠ 1 then frame.tiles.dropLast
  else frame.tiles

def DifferentialTile.patchesInFrame (resolution : ℕ) (tile : DifferentialTile) :
    List PatchPlacement :=
  tile.patches.map fun patch => patch.toPatchPlacement.shift
    (tile.leftTopXInFrame / resolution) (tile.leftTopYInFrame / resolution)

theorem replaceFrameContext_eq (hlaid : frame.Laid) :
    PCCEncoder.replaceFrameContext frame.occupancyResolution frame.rawPointsPatch frame.tiles =
      frame.patchTiles.flatMap
        (DifferentialTile.patchesInFrame frame.occupancyResolution) := by
  unfold DifferentialFrame.patchTiles
  by_cases hsingle : ∃ tile, frame.tiles = [tile]
  · obtain ⟨tile, htile⟩ := hsingle
    obtain ⟨hx, hy, -, -⟩ := hlaid.single tile htile
    rw [htile, if_neg (by simp)]
    simp only [PCCEncoder.replaceFrameContext, List.flatMap_cons, List.flatMap_nil,
      List.append_nil, DifferentialTile.patchesInFrame, hx, hy, Nat.zero_div]
    rfl
  · have hlength : frame.tiles.length ≠ 1 := fun h => hsingle (List.length_eq_one_iff.mp h)
    have hif : (if frame.rawPointsPatch = true ∧ frame.tiles.length ≠ 1 then
        frame.tiles.dropLast else frame.tiles) =
        if frame.rawPointsPatch then frame.tiles.dropLast else frame.tiles := by
      simp only [hlength, ne_eq, not_false_eq_true, and_true]
    rw [hif]
    unfold PCCEncoder.replaceFrameContext
    split
    · rename_i tile htile
      exact absurd ⟨tile, htile⟩ hsingle
    · rfl

/-- A tile with patches gives them to the whole frame. -/
theorem mem_patchTiles (hlaid : frame.Laid) {tile : DifferentialTile} (htile : tile ∈ frame.tiles)
    (hpatches : tile.patches ≠ []) : tile ∈ frame.patchTiles := by
  unfold DifferentialFrame.patchTiles
  split_ifs with hraw
  · have hne : frame.tiles ≠ [] := List.ne_nil_of_mem htile
    rw [← List.dropLast_append_getLast hne] at htile
    rcases List.mem_append.mp htile with hmem | hmem
    · exact hmem
    · have hlast := hlaid.raw hraw.1 hraw.2 (frame.tiles.getLast hne)
        (List.getLast?_eq_some_getLast hne)
      rw [List.mem_singleton.mp hmem] at hpatches
      exact absurd hlast hpatches
  · exact htile

theorem patchTiles_sublist (frame : DifferentialFrame) :
    frame.patchTiles.Sublist frame.tiles := by
  unfold DifferentialFrame.patchTiles
  split_ifs
  · exact List.dropLast_sublist _
  · exact List.Sublist.refl _

theorem DifferentialTile.Placed.block {tile : DifferentialTile} (h : tile.Placed frame) {x y : ℕ}
    (hx : (x + 1) * frame.occupancyResolution ≤ tile.width)
    (hy : (y + 1) * frame.occupancyResolution ≤ tile.height) :
    (x + tile.leftTopXInFrame / frame.occupancyResolution) * frame.occupancyResolution =
        x * frame.occupancyResolution + tile.leftTopXInFrame ∧
      (y + tile.leftTopYInFrame / frame.occupancyResolution) * frame.occupancyResolution =
        y * frame.occupancyResolution + tile.leftTopYInFrame ∧
      (x + tile.leftTopXInFrame / frame.occupancyResolution + 1) * frame.occupancyResolution ≤
        frame.width ∧
      (y + tile.leftTopYInFrame / frame.occupancyResolution + 1) * frame.occupancyResolution ≤
        frame.height := by
  have hcornerX := Nat.div_mul_cancel h.alignedX
  have hcornerY := Nat.div_mul_cancel h.alignedY
  have hright := h.right
  have hbottom := h.bottom
  rw [Nat.succ_mul] at hx hy
  refine ⟨?_, ?_, ?_, ?_⟩
  · rw [Nat.add_mul, hcornerX]
  · rw [Nat.add_mul, hcornerY]
  · rw [Nat.succ_mul, Nat.add_mul, hcornerX]
    omega
  · rw [Nat.succ_mul, Nat.add_mul, hcornerY]
    omega

theorem DifferentialTile.Placed.blockPosition (hresolution : 0 < frame.occupancyResolution)
    {tile : DifferentialTile} (h : tile.Placed frame) {patch : ProjectedPatch}
    (hpatch : patch ∈ tile.patches) {u v : ℕ} (hu : u < patch.sizeU0) (hv : v < patch.sizeV0) :
    ∃ x y, patch.blockPosition u v = some (x, y) ∧
      (x + 1) * frame.occupancyResolution ≤ tile.width ∧
      (y + 1) * frame.occupancyResolution ≤ tile.height ∧
      (patch.toPatchPlacement.shift (tile.leftTopXInFrame / frame.occupancyResolution)
          (tile.leftTopYInFrame / frame.occupancyResolution)).blockPosition u v =
        some (x + tile.leftTopXInFrame / frame.occupancyResolution,
          y + tile.leftTopYInFrame / frame.occupancyResolution) := by
  obtain ⟨x, y, hpos, hx, hy, -⟩ := (h.patches patch hpatch).1 u hu v hv
  obtain ⟨-, -, hxin, hyin⟩ := h.block hx hy
  have hle : ∀ n, n ≤ n * frame.occupancyResolution := fun n => Nat.le_mul_of_pos_right n hresolution
  refine ⟨x, y, hpos, hx, hy, PatchPlacement.blockPosition_shift hpos ?_ ?_⟩
  · have := (hle _).trans hxin
    have := frame.width_lt
    omega
  · have := (hle _).trans hyin
    have := frame.height_lt
    omega

/-- A patch of a tile covers a block of the frame where it covers it in the tile. -/
theorem covers_shift_iff (hresolution : 0 < frame.occupancyResolution) {tile : DifferentialTile}
    (h : tile.Placed frame) {patch : ProjectedPatch} (hpatch : patch ∈ tile.patches) {X Y : ℕ} :
    PackingPatch.Covers (patch.toPatchPlacement.shift
        (tile.leftTopXInFrame / frame.occupancyResolution)
        (tile.leftTopYInFrame / frame.occupancyResolution)) X Y ↔
      ∃ x y, PackingPatch.Covers patch.toPatchPlacement x y ∧
        (x + 1) * frame.occupancyResolution ≤ tile.width ∧
        (y + 1) * frame.occupancyResolution ≤ tile.height ∧
        X = x + tile.leftTopXInFrame / frame.occupancyResolution ∧
        Y = y + tile.leftTopYInFrame / frame.occupancyResolution := by
  constructor
  · rintro ⟨u, hu, v, hv, hpos⟩
    obtain ⟨x, y, hpos', hx, hy, hshift⟩ := h.blockPosition hresolution hpatch hu hv
    obtain ⟨rfl, rfl⟩ := Prod.mk.inj (Option.some.inj (hshift.symm.trans hpos))
    exact ⟨x, y, ⟨u, hu, v, hv, hpos'⟩, hx, hy, rfl, rfl⟩
  · rintro ⟨x, y, ⟨u, hu, v, hv, hpos⟩, hx, hy, rfl, rfl⟩
    obtain ⟨x', y', hpos', -, -, hshift⟩ := h.blockPosition hresolution hpatch hu hv
    obtain ⟨rfl, rfl⟩ := Prod.mk.inj (Option.some.inj (hpos.symm.trans hpos'))
    exact ⟨u, hu, v, hv, hshift⟩

theorem DifferentialTile.Apart.block {tile other : DifferentialTile} (hapart : tile.Apart other)
    (hresolution : 0 < frame.occupancyResolution)
    (h : tile.Placed frame) (hother : other.Placed frame) {x y x' y' : ℕ}
    (hx : (x + 1) * frame.occupancyResolution ≤ tile.width)
    (hy : (y + 1) * frame.occupancyResolution ≤ tile.height)
    (hx' : (x' + 1) * frame.occupancyResolution ≤ other.width)
    (hy' : (y' + 1) * frame.occupancyResolution ≤ other.height)
    (hsameX : x + tile.leftTopXInFrame / frame.occupancyResolution =
      x' + other.leftTopXInFrame / frame.occupancyResolution)
    (hsameY : y + tile.leftTopYInFrame / frame.occupancyResolution =
      y' + other.leftTopYInFrame / frame.occupancyResolution) : False := by
  obtain ⟨hblockX, hblockY, -, -⟩ := h.block hx hy
  obtain ⟨hblockX', hblockY', -, -⟩ := hother.block hx' hy'
  rw [hsameX] at hblockX
  rw [hsameY] at hblockY
  rw [Nat.succ_mul] at hx hy hx' hy'
  unfold DifferentialTile.Apart at hapart
  omega

/-- All patches of the frame lie in it. -/
theorem inTile_titleFrame (hlaid : frame.Laid) :
    ∀ patch ∈ frame.patchTiles.flatMap
        (DifferentialTile.patchesInFrame frame.occupancyResolution),
      InTile frame.area frame.occupancyResolution patch ∧ patch.Sized := by
  intro place hplace
  obtain ⟨tile, htile, hplace⟩ := List.mem_flatMap.mp hplace
  obtain ⟨patch, hpatch, rfl⟩ := List.mem_map.mp hplace
  have hplaced := hlaid.tiles tile ((patchTiles_sublist frame).subset htile)
  refine ⟨fun u hu v hv => ?_, (hplaced.patches patch hpatch).2⟩
  obtain ⟨x, y, -, hx, hy, hshift⟩ := hplaced.blockPosition hlaid.resolution hpatch hu hv
  obtain ⟨-, -, hxin, hyin⟩ := hplaced.block hx hy
  refine ⟨_, _, hshift, hxin, hyin, ?_⟩
  have hxlt := PCCCodec.lt_div_of_succ_mul_le hlaid.resolution hxin
  have hylt := PCCCodec.lt_div_of_succ_mul_le hlaid.resolution hyin
  rw [Nat.add_comm, Nat.mul_comm]
  exact (pixel_lt hxlt hylt).trans_le hlaid.blocks

/-- What the tables of a tile and of the frame hold. -/
structure Tables (frame : DifferentialFrame) (tile : DifferentialTile)
    (blockToPatch titleBlockToPatch : List ℕ) : Prop where
  tile : PCCCodec.HoldsLast tile.area frame.occupancyResolution frame.occupancyPrecision
    frame.occupancyVideo (tile.patches.map ProjectedPatch.toPatchPlacement) blockToPatch
  title : PCCCodec.HoldsLast frame.area frame.occupancyResolution frame.occupancyPrecision
    frame.occupancyVideo (frame.patchTiles.flatMap
      (DifferentialTile.patchesInFrame frame.occupancyResolution)) titleBlockToPatch

/-- A block that a patch has in its tile is one that the patch has in the frame. -/
theorem owner_in_frame (hlaid : frame.Laid) {tile : DifferentialTile}
    (htile : tile ∈ frame.tiles) {blockToPatch titleBlockToPatch : List ℕ}
    (htables : Tables frame tile blockToPatch titleBlockToPatch) {patch : ProjectedPatch} {i : ℕ}
    (hpatch : tile.patches[i]? = some patch) {x y : ℕ}
    (hx : (x + 1) * frame.occupancyResolution ≤ tile.width)
    (hy : (y + 1) * frame.occupancyResolution ≤ tile.height)
    (howner : blockToPatch[x + tile.width / frame.occupancyResolution * y]? = some (i + 1)) :
    ∃ n, (frame.patchTiles.flatMap
        (DifferentialTile.patchesInFrame frame.occupancyResolution))[n]? =
        some (patch.toPatchPlacement.shift (tile.leftTopXInFrame / frame.occupancyResolution)
          (tile.leftTopYInFrame / frame.occupancyResolution)) ∧
      titleBlockToPatch[(x + tile.leftTopXInFrame / frame.occupancyResolution) +
          frame.width / frame.occupancyResolution *
            (y + tile.leftTopYInFrame / frame.occupancyResolution)]? = some (n + 1) := by
  have hresolution := hlaid.resolution
  have hplaced := hlaid.tiles tile htile
  have hmem := List.mem_of_getElem? hpatch
  obtain ⟨hblockX, hblockY, hxin, hyin⟩ := hplaced.block hx hy
  obtain ⟨hlit, ⟨place, hplace, hcovers⟩, hlater⟩ := (htables.tile x
    (PCCCodec.lt_div_of_succ_mul_le hresolution hx) y
    (PCCCodec.lt_div_of_succ_mul_le hresolution hy) i).mp howner
  obtain rfl : patch.toPatchPlacement = place := by
    rw [List.getElem?_map, hpatch] at hplace
    exact Option.some.inj hplace
  obtain ⟨before, after, hsplit⟩ := List.append_of_mem
    (mem_patchTiles hlaid htile (List.ne_nil_of_mem hmem))
  have hpairwise := hlaid.apart.sublist (patchTiles_sublist frame)
  rw [hsplit] at hpairwise
  have hafter := (List.pairwise_cons.mp (List.pairwise_append.mp hpairwise).2.1).1
  set first := (before.flatMap (DifferentialTile.patchesInFrame frame.occupancyResolution)).length
    with hfirst
  -- the patches of the frame, at and behind those of the tile
  have hlist : ∀ j, first ≤ j → (frame.patchTiles.flatMap
      (DifferentialTile.patchesInFrame frame.occupancyResolution))[j]? =
      (tile.patchesInFrame frame.occupancyResolution ++
        after.flatMap (DifferentialTile.patchesInFrame frame.occupancyResolution))[j - first]? := by
    intro j hj
    rw [hsplit, List.flatMap_append, List.getElem?_append_right (hfirst ▸ hj), ← hfirst]
    rfl
  have hlength : (tile.patchesInFrame frame.occupancyResolution).length = tile.patches.length :=
    List.length_map _
  have hi := (List.getElem?_eq_some_iff.mp hpatch).1
  have hat : (frame.patchTiles.flatMap
      (DifferentialTile.patchesInFrame frame.occupancyResolution))[first + i]? =
      some (patch.toPatchPlacement.shift (tile.leftTopXInFrame / frame.occupancyResolution)
        (tile.leftTopYInFrame / frame.occupancyResolution)) := by
    rw [hlist _ (by omega), Nat.add_sub_cancel_left, List.getElem?_append_left (by omega)]
    unfold DifferentialTile.patchesInFrame
    rw [List.getElem?_map, hpatch]
    rfl
  refine ⟨first + i, hat, ?_⟩
  apply (htables.title _ (PCCCodec.lt_div_of_succ_mul_le hresolution hxin) _
    (PCCCodec.lt_div_of_succ_mul_le hresolution hyin) _).mpr
  refine ⟨?_, ⟨_, hat, (covers_shift_iff hresolution hplaced hmem).mpr
    ⟨x, y, hcovers, hx, hy, rfl, rfl⟩⟩, ?_⟩
  · obtain ⟨a, ha, b, hb, hsample⟩ := hlit
    refine ⟨a, ha, b, hb, ?_⟩
    have hplaceX : (x + tile.leftTopXInFrame / frame.occupancyResolution) *
        frame.occupancyResolution + a + 0 =
        x * frame.occupancyResolution + a + tile.leftTopXInFrame := by omega
    have hplaceY : (y + tile.leftTopYInFrame / frame.occupancyResolution) *
        frame.occupancyResolution + b + 0 =
        y * frame.occupancyResolution + b + tile.leftTopYInFrame := by omega
    dsimp only [DifferentialFrame.area]
    rw [hplaceX, hplaceY]
    exact hsample
  · intro j other hj hother hcoversOther
    rw [hlist j (by omega)] at hother
    by_cases hjlt : j - first < tile.patches.length
    · rw [List.getElem?_append_left (by omega)] at hother
      unfold DifferentialTile.patchesInFrame at hother
      rw [List.getElem?_map] at hother
      obtain ⟨later, hlaterPatch, rfl⟩ := Option.map_eq_some_iff.mp hother
      obtain ⟨x', y', hcovers', -, -, hxeq, hyeq⟩ := (covers_shift_iff hresolution hplaced
        (List.mem_of_getElem? hlaterPatch)).mp hcoversOther
      obtain rfl : x = x' := Nat.add_right_cancel hxeq
      obtain rfl : y = y' := Nat.add_right_cancel hyeq
      refine hlater (j - first) later.toPatchPlacement (by omega) ?_ hcovers'
      rw [List.getElem?_map, hlaterPatch]
      rfl
    · rw [List.getElem?_append_right (by omega)] at hother
      obtain ⟨otherTile, hotherTile, hmemOther⟩ :=
        List.mem_flatMap.mp (List.mem_of_getElem? hother)
      obtain ⟨later, hlaterPatch, rfl⟩ := List.mem_map.mp hmemOther
      have hin : otherTile ∈ frame.tiles := by
        apply (patchTiles_sublist frame).subset
        rw [hsplit]
        simp [hotherTile]
      have hplacedOther := hlaid.tiles otherTile hin
      obtain ⟨x', y', -, hx', hy', hxeq, hyeq⟩ := (covers_shift_iff hresolution hplacedOther
        hlaterPatch).mp hcoversOther
      exact (hafter otherTile hotherTile).block hresolution hplaced hplacedOther hx hy hx' hy'
        hxeq hyeq

/-- A pixel that the decoder reaches in a tile is one that the predictor reaches in the frame,
where the full occupancy map has it. -/
theorem reached_in_frame (hlaid : frame.Laid) {tile : DifferentialTile}
    (htile : tile ∈ frame.tiles) {blockToPatch titleBlockToPatch : List ℕ}
    (htables : Tables frame tile blockToPatch titleBlockToPatch) {pixel : PatchPixel}
    (hpixel : Reached tile.area frame.occupancyResolution blockToPatch tile.occupancyMap
      (tile.patches.map ProjectedPatch.toPatchPlacement) pixel) {occupancy : ℕ}
    (hfull : frame.fullOccupancyMap[(pixel.y + tile.leftTopYInFrame) * frame.width +
      (pixel.x + tile.leftTopXInFrame)]? = some occupancy) (hoccupied : occupancy ≠ 0) :
    ∃ reached, Reached frame.area frame.occupancyResolution titleBlockToPatch
        frame.fullOccupancyMap (frame.patchTiles.flatMap
          (DifferentialTile.patchesInFrame frame.occupancyResolution)) reached ∧
      (reached.x, reached.y) =
        (pixel.x + tile.leftTopXInFrame, pixel.y + tile.leftTopYInFrame) := by
  obtain ⟨hplace, hu0, hv0, hu1, hv1, hpos, hturn, howner, -, -⟩ := hpixel
  rw [List.getElem?_map] at hplace
  obtain ⟨patch, hpatch, rfl⟩ := Option.map_eq_some_iff.mp hplace
  have hplaced := hlaid.tiles tile htile
  have hmem := List.mem_of_getElem? hpatch
  obtain ⟨x, y, hpos', hx, hy, hshift⟩ :=
    hplaced.blockPosition hlaid.resolution hmem hu0 hv0
  obtain ⟨rfl, rfl⟩ := Prod.mk.inj (Option.some.inj (hpos.symm.trans hpos'))
  obtain ⟨hblockX, hblockY, -, -⟩ := hplaced.block hx hy
  obtain ⟨n, hn, hnowner⟩ := owner_in_frame hlaid htile htables hpatch hx hy howner
  refine ⟨_, ⟨hn, hu0, hv0, hu1, hv1, hshift, hturn, hnowner, ?_, hoccupied⟩, ?_⟩
  · rw [hblockX, hblockY, ← hfull]
    dsimp only [DifferentialFrame.area]
    congr 2
    · congr 1
      omega
    · omega
  · dsimp only
    rw [hblockX, hblockY]
    congr 1 <;> omega

end

end V3C

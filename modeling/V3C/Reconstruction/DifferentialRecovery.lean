import V3C.Reconstruction.DifferentialFrame
import V3C.Store.Cells

/-! When the decoder recovers the second map from its differences to the first. -/
namespace V3C
open Codec

theorem PCCImageGeometry.lawful :
    Cells.Lawful PCCImageGeometry.getValue PCCImageGeometry.setValue where
  put_isSome := by
    intro image pixel value
    unfold setValue getValue
    split_ifs <;> rfl
  get_put_self := by
    intro image image' pixel value h
    unfold setValue at h
    split_ifs at h with hin
    obtain rfl := Option.some.inj h
    simp [getValue, hin]
  get_put_ne := by
    intro image image' pixel pixel' value h hne
    unfold setValue at h
    split_ifs at h with hin
    obtain rfl := Option.some.inj h
    simp [getValue, Function.update_of_ne hne]

namespace PCCImageGeometry

variable {image image' : PCCImageGeometry} {pixel : ℕ × ℕ}

theorem getValue_eq (h : pixel.1 < image.width ∧ pixel.2 < image.height) :
    image.getValue pixel = some (image.channel pixel) := if_pos h

end PCCImageGeometry

/-- The steps of the predictor, as replacements of the values at their places. -/
theorem PCCEncoder.foldlM_predictGeometryPixel (rawPointsPatch : Bool)
    (reference image : PCCImageGeometry) (pixels : List PatchPixel) :
    pixels.foldlM (predictGeometryPixel rawPointsPatch reference) image =
      Cells.modifyAll PCCImageGeometry.getValue PCCImageGeometry.setValue
        (fun place value1 => (reference.getValue place).map fun value0 =>
          predictDepth rawPointsPatch value0 value1)
        (pixels.map fun pixel => (pixel.x, pixel.y)) image := by
  unfold Cells.modifyAll
  rw [List.foldlM_map]
  congr 1
  funext s pixel
  unfold predictGeometryPixel
  cases s.getValue (pixel.x, pixel.y) with
  | none => rfl
  | some value1 =>
    simp only [Option.bind_eq_bind, Option.bind_some]
    cases reference.getValue (pixel.x, pixel.y) with
    | none => rfl
    | some value0 => rfl

/-- The greatest difference that the predictor stores as it is. -/
def admittedDifference (rawPointsPatch : Bool) : ℕ := if rawPointsPatch then 255 else 9

theorem PCCEncoder.predictDepth_eq_iff {rawPointsPatch : Bool} {value0 value1 : UInt16}
    (hle : value0.toNat ≤ value1.toNat) :
    (predictDepth rawPointsPatch value0 value1).toNat = value1.toNat - value0.toNat ↔
      value1.toNat - value0.toNat ≤ admittedDifference rawPointsPatch := by
  have hdelta : ((value1.toNat : ℤ) - value0.toNat).natAbs = value1.toNat - value0.toNat := by
    omega
  unfold predictDepth admittedDifference
  simp only [hdelta, UInt8.toNat_toUInt16, Nat.toUInt8, UInt8.toNat_ofNat']
  cases rawPointsPatch with
  | true =>
    simp only [Bool.not_true, Bool.false_and, Bool.false_eq_true, if_false, if_true]
    omega
  | false =>
    simp only [Bool.not_false, Bool.true_and, decide_eq_true_eq, Bool.false_eq_true, if_false]
    split_ifs with hlarge <;> omega

/-- The second point of a pixel stands where the far depth puts it exactly if the stored value
is the difference. -/
theorem EomPatch.generatePoints_eq_iff {patch : EomPatch} {near far value : ℕ} (hle : near ≤ far)
    (hfar : patch.projectionMode ≠ 0 → far ≤ patch.d1) :
    PCCCodec.generatePoints patch near value =
        [patch.generateNormalCoordinate near, patch.generateNormalCoordinate far] ↔
      value = far - near := by
  unfold PCCCodec.generatePoints EomPatch.generateNormalCoordinate
  simp only [List.cons.injEq, true_and, and_true]
  by_cases hmode : patch.projectionMode = 0
  · simp only [if_pos hmode]
    omega
  · have hd1 := hfar hmode
    simp only [if_neg hmode]
    split_ifs <;> omega

/-- A pixel that is reached lies on the canvas and is occupied. -/
theorem Reached.spec {area : TileArea} {resolution : ℕ} {blockToPatch occupancyMap : List ℕ}
    {patches : List PatchPlacement} {pixel : PatchPixel}
    (h : Reached area resolution blockToPatch occupancyMap patches pixel)
    (hin : ∀ patch ∈ patches, InTile area resolution patch) :
    (pixel.x < area.width ∧ pixel.y < area.height) ∧
      (∃ patch, patches[pixel.patchIndex]? = some patch) ∧
      ∃ occupancy, occupancyMap[pixel.y * area.width + pixel.x]? = some occupancy ∧
        occupancy ≠ 0 := by
  cases h with
  | @mk patch i u0 v0 u1 v1 x y a b occupancy hpatch hu0 hv0 hu1 hv1 hpos hturn howner
      hoccupancy hoccupied =>
    obtain ⟨x', y', hpos', hx, hy, -⟩ := hin patch (List.mem_of_getElem? hpatch) u0 hu0 v0 hv0
    obtain ⟨rfl, rfl⟩ := Prod.mk.inj (Option.some.inj (hpos.symm.trans hpos'))
    obtain ⟨ha, hb⟩ := patch.patchOrientation.turn_lt hu1 hv1
    rw [hturn] at ha hb
    exact ⟨⟨PCCCodec.add_lt_of_succ_mul_le ha hx, PCCCodec.add_lt_of_succ_mul_le hb hy⟩,
      ⟨patch, hpatch⟩, occupancy, hoccupancy, hoccupied⟩

namespace DifferentialTile

/-- Where a pixel of the tile lies in the frame. -/
def place (tile : DifferentialTile) (pixel : PatchPixel) : ℕ × ℕ :=
  (pixel.x + tile.leftTopXInFrame, pixel.y + tile.leftTopYInFrame)

end DifferentialTile

/-- A frame with two maps of geometry, of which the second is nowhere nearer than the first. -/
structure DifferentialGeometry extends DifferentialFrame where
  laid : toDifferentialFrame.Laid
  near : PCCImageGeometry
  far : PCCImageGeometry
  nearSize : near.width = width ∧ near.height = height
  farSize : far.width = width ∧ far.height = height
  ordered : ∀ tile ∈ tiles, ∀ pixels, toDifferentialFrame.tilePixels tile = some pixels →
    ∀ pixel ∈ pixels, ∀ patch, tile.patches[pixel.patchIndex]? = some patch →
      (near.channel (tile.place pixel)).toNat ≤ (far.channel (tile.place pixel)).toNat ∧
        (patch.projectionMode ≠ 0 → (far.channel (tile.place pixel)).toNat ≤ patch.d1)

namespace DifferentialGeometry

variable (frame : DifferentialGeometry)

/-- The predictor finds the place occupied. -/
def Occupied (place : ℕ × ℕ) : Prop :=
  ∃ occupancy, frame.fullOccupancyMap[place.2 * frame.width + place.1]? = some occupancy ∧
    occupancy ≠ 0

/-- The depths of a place that come back: where the predictor finds it occupied those whose
difference it stores as it is, and elsewhere those without a first depth to add. -/
def Admits (place : ℕ × ℕ) : Prop :=
  (frame.Occupied place → (frame.far.channel place).toNat - (frame.near.channel place).toNat ≤
    admittedDifference frame.rawPointsPatch) ∧
  (¬frame.Occupied place → (frame.near.channel place).toNat = 0)

/-- The picture of the differences exists, and with it the decoder generates at every pixel of
every tile the points of both depths. -/
def RecoversFar : Prop :=
  ∃ title difference, frame.toDifferentialFrame.titleFrame = some title ∧
    PCCEncoder.predictGeometryFrame frame.occupancyResolution frame.rawPointsPatch title
      frame.near frame.far = some difference ∧
    ∀ tile ∈ frame.tiles, ∃ pixels,
      frame.toDifferentialFrame.tilePixels tile = some pixels ∧
      ∀ pixel ∈ pixels, ∃ patch, tile.patches[pixel.patchIndex]? = some patch ∧
        PCCCodec.pointsOfPixel tile frame.near difference pixel =
          some [patch.generateNormalCoordinate (frame.near.channel (tile.place pixel)).toNat,
            patch.generateNormalCoordinate (frame.far.channel (tile.place pixel)).toNat]

/-- The tables of the whole frame and of its tiles, and the pixels of both. -/
theorem exists_tables :
    ∃ title pixels, frame.toDifferentialFrame.titleFrame = some title ∧
      V3C.patchPixels frame.occupancyResolution frame.width frame.height title.blockToPatch
        title.fullOccupancyMap title.patches = some pixels ∧
      (∀ pixel, pixel ∈ pixels ↔ Reached frame.area frame.occupancyResolution title.blockToPatch
        frame.fullOccupancyMap (frame.patchTiles.flatMap
          (DifferentialTile.patchesInFrame frame.occupancyResolution)) pixel) ∧
      (pixels.map fun pixel => (pixel.x, pixel.y)).Nodup ∧
      ∀ tile ∈ frame.tiles, ∃ blockToPatch tilePixels,
        Tables frame.toDifferentialFrame tile blockToPatch title.blockToPatch ∧
        frame.toDifferentialFrame.tilePixels tile = some tilePixels ∧
        ∀ pixel, pixel ∈ tilePixels ↔ Reached tile.area frame.occupancyResolution blockToPatch
          tile.occupancyMap (tile.patches.map ProjectedPatch.toPatchPlacement) pixel := by
  have hresolution := frame.laid.resolution
  have hprecision := frame.laid.precision
  have hin := inTile_titleFrame frame.laid
  obtain ⟨titleTable, htitle, htitleHolds⟩ :=
    @PCCCodec.generateBlockToPatch_spec _ _ _ frame.occupancyVideo hresolution hprecision _
      fun patch hpatch => (hin patch hpatch).1
  obtain ⟨pixels, hpixels, hreached, hnodup⟩ := exists_patchPixels hresolution hin
    (length_generateBlockToPatch htitle) frame.laid.fullMap
  refine ⟨⟨frame.patchTiles.flatMap
      (DifferentialTile.patchesInFrame frame.occupancyResolution), titleTable, frame.occupancyMap,
    frame.fullOccupancyMap⟩, pixels, ?_, ?_, hreached, hnodup, fun tile htile => ?_⟩
  · unfold DifferentialFrame.titleFrame
    rw [replaceFrameContext_eq frame.laid]
    dsimp only
    rw [htitle]
    rfl
  · exact hpixels
  · have hplaced := frame.laid.tiles tile htile
    have hall : ∀ patch ∈ tile.patches.map ProjectedPatch.toPatchPlacement,
        InTile tile.area frame.occupancyResolution patch ∧ patch.Sized := by
      intro place hplace
      obtain ⟨patch, hpatch, rfl⟩ := List.mem_map.mp hplace
      exact hplaced.patches patch hpatch
    obtain ⟨table, htable, hholds⟩ :=
      @PCCCodec.generateBlockToPatch_spec _ _ _ frame.occupancyVideo hresolution hprecision _
        fun patch hpatch => (hall patch hpatch).1
    obtain ⟨tilePixels, htilePixels, htileReached, -⟩ := exists_patchPixels hresolution hall
      (length_generateBlockToPatch htable) hplaced.map
    refine ⟨table, tilePixels, ⟨hholds, htitleHolds⟩, ?_, htileReached⟩
    unfold DifferentialFrame.tilePixels
    dsimp only
    rw [htable]
    exact htilePixels

/-- The picture of the differences: the places that the predictor finds occupied in blocks of
patches have the differences, and the others the second depths. -/
theorem exists_difference :
    ∃ title difference, frame.toDifferentialFrame.titleFrame = some title ∧
      PCCEncoder.predictGeometryFrame frame.occupancyResolution frame.rawPointsPatch title
        frame.near frame.far = some difference ∧
      ∀ tile ∈ frame.tiles, ∃ pixels,
        frame.toDifferentialFrame.tilePixels tile = some pixels ∧
        ∀ pixel ∈ pixels, (∃ patch, tile.patches[pixel.patchIndex]? = some patch) ∧
          frame.near.getValue (tile.place pixel) =
            some (frame.near.channel (tile.place pixel)) ∧
          (frame.Occupied (tile.place pixel) → difference.getValue (tile.place pixel) =
            some (PCCEncoder.predictDepth frame.rawPointsPatch
              (frame.near.channel (tile.place pixel)) (frame.far.channel (tile.place pixel)))) ∧
          (¬frame.Occupied (tile.place pixel) → difference.getValue (tile.place pixel) =
            some (frame.far.channel (tile.place pixel))) := by
  obtain ⟨title, pixels, htitle, hpixels, hreached, hnodup, htiles⟩ := frame.exists_tables
  -- a place that the predictor reaches lies in the frame and is occupied
  have hkey : ∀ pixel ∈ pixels, (pixel.x < frame.width ∧ pixel.y < frame.height) ∧
      frame.Occupied (pixel.x, pixel.y) := by
    intro pixel hpixel
    obtain ⟨hlt, -, hoccupied⟩ := ((hreached pixel).mp hpixel).spec
      fun patch hpatch => (inTile_titleFrame frame.laid patch hpatch).1
    exact ⟨hlt, hoccupied⟩
  have hin : ∀ place : ℕ × ℕ, place.1 < frame.width ∧ place.2 < frame.height →
      frame.near.getValue place = some (frame.near.channel place) ∧
        frame.far.getValue place = some (frame.far.channel place) := by
    intro place hplace
    constructor
    · apply PCCImageGeometry.getValue_eq
      rw [frame.nearSize.1, frame.nearSize.2]
      exact hplace
    · apply PCCImageGeometry.getValue_eq
      rw [frame.farSize.1, frame.farSize.2]
      exact hplace
  obtain ⟨difference, hdifference, hnew, hold⟩ :=
    PCCImageGeometry.lawful.exists_modifyAll (s := frame.far)
      (f := fun place value1 => (frame.near.getValue place).map fun value0 =>
        PCCEncoder.predictDepth frame.rawPointsPatch value0 value1) hnodup (by
        intro place hplace
        obtain ⟨pixel, hpixel, rfl⟩ := List.mem_map.mp hplace
        obtain ⟨hnear, hfar⟩ := hin (pixel.x, pixel.y) (hkey pixel hpixel).1
        refine ⟨_, PCCEncoder.predictDepth frame.rawPointsPatch
          (frame.near.channel (pixel.x, pixel.y)) (frame.far.channel (pixel.x, pixel.y)),
          hfar, ?_⟩
        rw [hnear]
        rfl)
  refine ⟨title, difference, htitle, ?_, fun tile htile => ?_⟩
  · unfold PCCEncoder.predictGeometryFrame
    have hresolution := frame.laid.resolution
    have hsame : ¬(frame.occupancyResolution = 0 ∨ frame.near.width ≠ frame.far.width ∨
        frame.near.height ≠ frame.far.height) := by
      rw [frame.nearSize.1, frame.nearSize.2, frame.farSize.1, frame.farSize.2]
      omega
    rw [if_neg hsame, frame.nearSize.1, frame.nearSize.2, hpixels, Option.bind_eq_bind,
      Option.bind_some, PCCEncoder.foldlM_predictGeometryPixel, hdifference]
  · obtain ⟨blockToPatch, tilePixels, htables, htilePixels, htileReached⟩ := htiles tile htile
    refine ⟨tilePixels, htilePixels, fun pixel hpixel => ?_⟩
    have hplaced := frame.laid.tiles tile htile
    have hreachedPixel := (htileReached pixel).mp hpixel
    have hall : ∀ patch ∈ tile.patches.map ProjectedPatch.toPatchPlacement,
        InTile tile.area frame.occupancyResolution patch := by
      intro place hplace
      obtain ⟨patch, hpatch, rfl⟩ := List.mem_map.mp hplace
      exact (hplaced.patches patch hpatch).1
    obtain ⟨⟨hx, hy⟩, ⟨placement, hplacement⟩, -⟩ := hreachedPixel.spec hall
    have hinFrame : (tile.place pixel).1 < frame.width ∧ (tile.place pixel).2 < frame.height := by
      have hright := hplaced.right
      have hbottom := hplaced.bottom
      dsimp only [DifferentialTile.area, DifferentialTile.place] at hx hy ⊢
      omega
    obtain ⟨hnear, hfar⟩ := hin _ hinFrame
    refine ⟨?_, hnear, fun hoccupied => ?_, fun hfree => ?_⟩
    · rw [List.getElem?_map] at hplacement
      obtain ⟨patch, hpatch, -⟩ := Option.map_eq_some_iff.mp hplacement
      exact ⟨patch, hpatch⟩
    · obtain ⟨occupancy, hoccupancy, hne⟩ := hoccupied
      obtain ⟨reached, hreachedFrame, hplace⟩ := reached_in_frame frame.laid htile htables
        hreachedPixel hoccupancy hne
      have hmem : tile.place pixel ∈ pixels.map fun pixel => (pixel.x, pixel.y) :=
        List.mem_map.mpr ⟨reached, (hreached reached).mpr hreachedFrame, hplace⟩
      rw [hnew _ hmem, hfar, hnear]
      rfl
    · rw [hold, hfar]
      intro hmem
      obtain ⟨reached, hmem, hplace⟩ := List.mem_map.mp hmem
      have hoccupied := (hkey reached hmem).2
      rw [hplace] at hoccupied
      exact hfree hoccupied

end DifferentialGeometry

/-- A tile of four by four pixels, all of which its occupancy map has. -/
def squareTile (leftTopX : ℕ) (patches : List ProjectedPatch) : DifferentialTile where
  frameIndex := 0
  leftTopXInFrame := leftTopX
  leftTopYInFrame := 0
  useRawPointsSeparateVideo := false
  pointToPixel := []
  totalNumberOfRegularPoints := 0
  totalNumberOfEOMPoints := 0
  totalNumberOfRawPoints := 0
  width := 4
  height := 4
  width_lt := by decide
  height_lt := by decide
  patches := patches
  occupancyMap := List.replicate 16 1

def leftTile : DifferentialTile := squareTile 0
  [{ u0 := 0, v0 := 0, sizeU0 := 2, sizeV0 := 1, projectionMode := 0, d1 := 30 },
    { u0 := 1, v0 := 1, sizeU0 := 1, sizeV0 := 1, projectionMode := 1, d1 := 90 }]

/-- The patch of the second tile is turned. -/
def rightTile : DifferentialTile := squareTile 4
  [{ u0 := 1, v0 := 0, sizeU0 := 2, sizeV0 := 1, patchOrientation := .swap
     projectionMode := 1, d1 := 70 }]

/-- Two tiles side by side. The frame's own map misses the tenth pixel, which shares its precision
block with others. -/
def sideBySide : DifferentialFrame where
  width := 8
  height := 4
  width_lt := by decide
  height_lt := by decide
  tiles := [leftTile, rightTile]
  rawPointsPatch := false
  occupancyResolution := 2
  occupancyPrecision := 2
  occupancyVideo := fun _ _ => 1
  occupancyMap := (List.range 32).map fun i => if i = 9 then 0 else 1
  fullOccupancyMap := (List.range 32).map fun i => if i = 9 then 0 else 1

theorem mem_sideBySide {tile : DifferentialTile} (h : tile ∈ sideBySide.tiles) :
    tile = leftTile ∨ tile = rightTile := by
  simpa [sideBySide] using h

theorem sideBySide_laid : sideBySide.Laid where
  resolution := by decide
  precision := by decide
  tiles := by
    intro tile htile
    rcases mem_sideBySide htile with rfl | rfl
    · refine ⟨by decide, by decide, by decide, by decide, ?_, rfl⟩
      intro patch hpatch
      have hpatches : patch = leftTile.patches[0] ∨ patch = leftTile.patches[1] := by
        simpa [leftTile, squareTile] using hpatch
      rcases hpatches with rfl | rfl
      · refine ⟨?_, by decide, by decide⟩
        intro u hu v hv
        obtain rfl : v = 0 := Nat.lt_one_iff.mp hv
        change u < 2 at hu
        interval_cases u
        · exact ⟨0, 0, by decide, by decide, by decide, by decide⟩
        · exact ⟨1, 0, by decide, by decide, by decide, by decide⟩
      · refine ⟨?_, by decide, by decide⟩
        intro u hu v hv
        obtain rfl : v = 0 := Nat.lt_one_iff.mp hv
        obtain rfl : u = 0 := Nat.lt_one_iff.mp hu
        exact ⟨1, 1, by decide, by decide, by decide, by decide⟩
    · refine ⟨by decide, by decide, by decide, by decide, ?_, rfl⟩
      intro patch hpatch
      obtain rfl : patch = rightTile.patches[0] := by
        simpa [rightTile, squareTile] using hpatch
      refine ⟨?_, by decide, by decide⟩
      intro u hu v hv
      obtain rfl : v = 0 := Nat.lt_one_iff.mp hv
      change u < 2 at hu
      interval_cases u
      · exact ⟨1, 0, by decide, by decide, by decide, by decide⟩
      · exact ⟨1, 1, by decide, by decide, by decide, by decide⟩
  apart := List.pairwise_pair.mpr (Or.inl (by decide))
  single := by
    intro tile htile
    simp [sideBySide] at htile
  raw := by
    intro hraw
    cases hraw
  blocks := by decide
  map := by decide
  fullMap := by decide

/-- The second depth lies behind the first by a step more in every column of a tile. -/
def slopeFar (step : ℕ) (place : ℕ × ℕ) : UInt16 :=
  UInt16.ofNat ((if place = (1, 1) then 0 else 20) + step * (place.1 % 4))

theorem toNat_slopeFar {step : ℕ} (hstep : step ≤ 15) (place : ℕ × ℕ) :
    (slopeFar step place).toNat = (if place = (1, 1) then 0 else 20) + step * (place.1 % 4) ∧
      (slopeFar step place).toNat ≤ 65 := by
  have hcolumn : place.1 % 4 ≤ 3 := Nat.le_of_lt_succ (Nat.mod_lt _ (by decide))
  have hle : step * (place.1 % 4) ≤ 15 * 3 := Nat.mul_le_mul hstep hcolumn
  have hvalue : (slopeFar step place).toNat =
      (if place = (1, 1) then 0 else 20) + step * (place.1 % 4) := by
    unfold slopeFar
    rw [UInt16.toNat_ofNat', Nat.mod_eq_of_lt]
    split_ifs <;> omega
  refine ⟨hvalue, ?_⟩
  rw [hvalue]
  split_ifs <;> omega

def slopes (step : ℕ) (hstep : step ≤ 15) : DifferentialGeometry where
  toDifferentialFrame := sideBySide
  laid := sideBySide_laid
  near :=
    { width := 8
      height := 4
      channel := fun place => if place = (1, 1) then 0 else 20 }
  far :=
    { width := 8
      height := 4
      channel := slopeFar step }
  nearSize := ⟨rfl, rfl⟩
  farSize := ⟨rfl, rfl⟩
  ordered := by
    intro tile htile pixels hpixels pixel hpixel patch hpatch
    obtain ⟨hvalue, hle⟩ := toNat_slopeFar hstep (tile.place pixel)
    constructor
    · rw [hvalue]
      dsimp only
      split_ifs with hmissed
      · exact Nat.zero_le _
      · exact Nat.le_add_right _ _
    · intro hmode
      refine hle.trans ?_
      have hmem := List.mem_of_getElem? hpatch
      rcases mem_sideBySide htile with rfl | rfl
      · have hpatches : patch = leftTile.patches[0] ∨ patch = leftTile.patches[1] := by
          simpa [leftTile, squareTile] using hmem
        rcases hpatches with rfl | rfl
        · exact absurd rfl hmode
        · decide
      · obtain rfl : patch = rightTile.patches[0] := by
          simpa [rightTile, squareTile] using hmem
        decide

theorem slopes_occupied_iff {step : ℕ} {hstep : step ≤ 15} {place : ℕ × ℕ} (hx : place.1 < 8)
    (hy : place.2 < 4) : (slopes step hstep).Occupied place ↔ place ≠ (1, 1) := by
  have hlt : place.2 * 8 + place.1 < 32 := by omega
  have hget : sideBySide.fullOccupancyMap[place.2 * 8 + place.1]? =
      some (if place.2 * 8 + place.1 = 9 then 0 else 1) := by
    unfold sideBySide
    rw [List.getElem?_map, List.getElem?_range hlt, Option.map_some]
  have hplace : place.2 * 8 + place.1 = 9 ↔ place = (1, 1) := by
    rw [Prod.ext_iff]
    dsimp only
    omega
  change (∃ occupancy, sideBySide.fullOccupancyMap[place.2 * 8 + place.1]? = some occupancy ∧
    occupancy ≠ 0) ↔ _
  rw [hget]
  simp only [Option.some.injEq, exists_eq_left', hplace]
  split_ifs with h <;> simp [h]

theorem exists_tilePixels_sideBySide : ∀ tile ∈ sideBySide.tiles,
    ∃ pixels, sideBySide.tilePixels tile = some pixels ∧
      (∀ pixel ∈ pixels, pixel.x < 4 ∧ pixel.y < 4) ∧
      ∃ pixel ∈ pixels, pixel.x = 3 ∧ pixel.y = 2 := by
  intro tile htile
  rcases mem_sideBySide htile with rfl | rfl
  · exact ⟨_, rfl, by decide, by decide⟩
  · exact ⟨_, rfl, by decide, by decide⟩

/-- The last column of a tile has the greatest differences, of three steps. -/
theorem slopes_admits_iff {step : ℕ} (hstep : step ≤ 15) :
    (∀ tile ∈ (slopes step hstep).tiles, ∀ pixels,
      (slopes step hstep).toDifferentialFrame.tilePixels tile = some pixels →
        ∀ pixel ∈ pixels, (slopes step hstep).Admits (tile.place pixel)) ↔ step ≤ 3 := by
  constructor
  · intro hadmits
    have htile : leftTile ∈ sideBySide.tiles := List.mem_cons_self
    obtain ⟨pixels, hpixels, -, pixel, hpixel, hx, hy⟩ :=
      exists_tilePixels_sideBySide leftTile htile
    have hplace : leftTile.place pixel = (3, 2) := Prod.ext hx hy
    have hdifference := (hadmits leftTile htile pixels hpixels pixel hpixel).1
    rw [hplace] at hdifference
    have hle := hdifference ((slopes_occupied_iff (by decide) (by decide)).mpr (by decide))
    change (slopeFar step (3, 2)).toNat - 20 ≤ 9 at hle
    rw [(toNat_slopeFar hstep _).1, if_neg (by decide)] at hle
    change 20 + step * 3 - 20 ≤ 9 at hle
    omega
  · intro hle tile htile pixels hpixels pixel hpixel
    obtain ⟨pixels', hpixels', hbounds, -⟩ := exists_tilePixels_sideBySide tile htile
    obtain rfl := Option.some.inj (hpixels'.symm.trans hpixels)
    obtain ⟨hx, hy⟩ := hbounds pixel hpixel
    have hin : (tile.place pixel).1 < 8 ∧ (tile.place pixel).2 < 4 := by
      rcases mem_sideBySide htile with rfl | rfl
      · exact ⟨by change pixel.x + 0 < 8; omega, hy⟩
      · exact ⟨by change pixel.x + 4 < 8; omega, hy⟩
    have hoccupied : (slopes step hstep).Occupied (tile.place pixel) ↔
        tile.place pixel ≠ (1, 1) := slopes_occupied_iff hin.1 hin.2
    refine ⟨fun h => ?_, fun h => ?_⟩
    · have hne := hoccupied.mp h
      have hcolumn : (tile.place pixel).1 % 4 ≤ 3 := Nat.le_of_lt_succ (Nat.mod_lt _ (by decide))
      have hmul : step * ((tile.place pixel).1 % 4) ≤ 3 * 3 := Nat.mul_le_mul hle hcolumn
      change (slopeFar step (tile.place pixel)).toNat -
        (if tile.place pixel = (1, 1) then (0 : UInt16) else 20).toNat ≤ 9
      rw [(toNat_slopeFar hstep _).1, if_neg hne, if_neg hne]
      change 20 + _ - 20 ≤ 9
      omega
    · have heq : tile.place pixel = (1, 1) := by
        by_contra hne
        exact h (hoccupied.mpr hne)
      change (if tile.place pixel = (1, 1) then (0 : UInt16) else 20).toNat = 0
      rw [if_pos heq]
      rfl

end V3C

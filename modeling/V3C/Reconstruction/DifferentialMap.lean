import V3C.Packing.AuxiliaryTransfer
import V3C.Packing.BlockToPatch
import V3C.Reconstruction.ColorPointCloud

/-! The second map as a difference to the first: the predictor of the encoder, which runs over
whole frames, and the points and colours of the decoder, tile after tile. -/
namespace V3C

/-- A patch on its canvas, with the members that give its points their normal coordinate. -/
structure ProjectedPatch extends PatchPlacement, EomPatch

/-- A tile with its patches and its occupancy map. -/
structure DifferentialTile extends ColoringTile where
  width : ℕ
  height : ℕ
  width_lt : width < 2 ^ 64
  height_lt : height < 2 ^ 64
  patches : List ProjectedPatch
  occupancyMap : List ℕ

def DifferentialTile.area (tile : DifferentialTile) : TileArea where
  leftTopX := tile.leftTopXInFrame
  leftTopY := tile.leftTopYInFrame
  width := tile.width
  height := tile.height
  width_lt := tile.width_lt
  height_lt := tile.height_lt

structure PatchPixel where
  patchIndex : ℕ
  u : ℕ
  v : ℕ
  x : ℕ
  y : ℕ

/-- The steps of the loops over the patches, their blocks and the pixels of these. -/
def patchSteps (occupancyResolution : ℕ) (patches : List PatchPlacement) :
    List ((PatchPlacement × ℕ) × (ℕ × ℕ) × (ℕ × ℕ)) :=
  patches.zipIdx.flatMap fun patch =>
    patch.1.blocks.flatMap fun block =>
      (grid occupancyResolution occupancyResolution).map fun pixel => (patch, block, pixel)

section

variable (occupancyResolution width height : ℕ) (blockToPatch occupancyMap : List ℕ)

/-- A step goes on to its pixel in a block of the patch, where the pixel is occupied. -/
def patchPixel (step : (PatchPlacement × ℕ) × (ℕ × ℕ) × (ℕ × ℕ)) : Option (Option PatchPixel) := do
  let ((patch, patchIndex), (u0, v0), (u1, v1)) := step
  let blockIndex ← patch.patchBlock2CanvasBlock u0 v0 (width / occupancyResolution)
    (height / occupancyResolution)
  let owner ← if blockIndex < 0 then none else blockToPatch[blockIndex.toNat]?
  if owner = patchIndex + 1 then do
    let u := u0 * occupancyResolution + u1
    let v := v0 * occupancyResolution + v1
    let (x, y) ← patch.patch2Canvas occupancyResolution u v width height
    let occupancy ← occupancyMap[y * width + x]?
    some (if occupancy ≠ 0 then some ⟨patchIndex, u, v, x, y⟩ else none)
  else some none

def patchPixels (patches : List PatchPlacement) : Option (List PatchPixel) := do
  let pixels ← (patchSteps occupancyResolution patches).mapM
    (patchPixel occupancyResolution width height blockToPatch occupancyMap)
  some (pixels.filterMap id)

end

theorem PCCCodec.colorAt_eq (image : PCCImageAttribute) (pixel : ℕ × ℕ) :
    PCCCodec.colorAt image pixel =
      if image.Inside pixel then some fun c => image.channels c pixel else none := by
  have hget : ∀ c : Fin 3, image.getValue c pixel =
      if image.Inside pixel then some (image.channels c pixel) else none := fun _ => rfl
  unfold PCCCodec.colorAt
  simp only [hget]
  split_ifs
  · simp only [Option.bind_eq_bind, Option.bind_some, Option.some.injEq]
    funext c
    match c with
    | 0 => rfl
    | 1 => rfl
    | 2 => rfl
  · rfl

namespace PCCEncoder

/-- The patches of all tiles in the frame, where it has more than one tile. -/
def replaceFrameContext (occupancyResolution : ℕ) (rawPointsPatch : Bool)
    (tiles : List DifferentialTile) : List PatchPlacement :=
  match tiles with
  | [tile] => tile.patches.map ProjectedPatch.toPatchPlacement
  | _ =>
    (if rawPointsPatch then tiles.dropLast else tiles).flatMap fun tile =>
      tile.patches.map fun patch =>
        { patch.toPatchPlacement with
          u0 := patch.u0 + tile.leftTopXInFrame / occupancyResolution
          v0 := patch.v0 + tile.leftTopYInFrame / occupancyResolution }

/-- The difference of the depths, which has eight bits. -/
def predictDepth (rawPointsPatch : Bool) (value0 value1 : UInt16) : UInt16 :=
  let delta := ((value1.toNat : ℤ) - value0.toNat).natAbs
  let delta := if !rawPointsPatch && decide (delta > 9) then 9 else delta
  delta.toUInt8.toUInt16

def predictGeometryPixel (rawPointsPatch : Bool) (reference image : PCCImageGeometry)
    (pixel : PatchPixel) : Option PCCImageGeometry := do
  let value1 ← image.getValue (pixel.x, pixel.y)
  let value0 ← reference.getValue (pixel.x, pixel.y)
  image.setValue (pixel.x, pixel.y) (predictDepth rawPointsPatch value0 value1)

/-- The members of the whole frame that the predictors read. -/
structure TitleFrame where
  patches : List PatchPlacement
  blockToPatch : List ℕ
  occupancyMap : List ℕ
  fullOccupancyMap : List ℕ

/-- The frame has the size of its pictures. -/
def predictGeometryFrame (occupancyResolution : ℕ) (rawPointsPatch : Bool) (frame : TitleFrame)
    (reference image : PCCImageGeometry) : Option PCCImageGeometry :=
  if occupancyResolution = 0 ∨ reference.width ≠ image.width ∨ reference.height ≠ image.height
  then none
  else do
    let pixels ← V3C.patchPixels occupancyResolution reference.width reference.height
      frame.blockToPatch frame.fullOccupancyMap frame.patches
    pixels.foldlM (predictGeometryPixel rawPointsPatch reference) image

/-- The difference of the values of a component, around 128. -/
def predictValue (value0 : ℤ) (value1 : UInt16) : UInt16 :=
  let delta := toInt16 (toInt16 value1.toNat - value0)
  let delta := if delta < -128 then -128 else if delta > 127 then 127 else delta
  let delta := delta + 128
  (toUInt8 (if delta < 0 then 0 else if delta > 255 then 255 else delta)).toUInt16

/-- The three samples of a pixel. -/
def setColor (image : PCCImageAttribute) (pixel : ℕ × ℕ) (color : PCCColor16bit) :
    Option PCCImageAttribute := do
  let image ← image.setValue 0 pixel (color 0)
  let image ← image.setValue 1 pixel (color 1)
  image.setValue 2 pixel (color 2)

theorem setColor_eq (image : PCCImageAttribute) (pixel : ℕ × ℕ) (color : PCCColor16bit) :
    setColor image pixel color =
      if image.Inside pixel then
        some { image with channels := fun c => Function.update (image.channels c) pixel (color c) }
      else none := by
  by_cases h : image.Inside pixel
  · have hset : ∀ (channels : Fin 3 → ℕ × ℕ → UInt16) (c : Fin 3) (value : UInt16),
        PCCImageAttribute.setValue { image with channels := channels } c pixel value =
          some { image with
            channels := Function.update channels c (Function.update (channels c) pixel value) } :=
      fun _ _ _ => if_pos h
    rw [if_pos h]
    unfold setColor
    rw [show image = { image with channels := image.channels } from rfl]
    simp only [hset, Option.bind_eq_bind, Option.bind_some]
    congr 2
    funext c
    match c with
    | 0 => simp
    | 1 => simp
    | 2 => simp
  · have hset : image.setValue 0 pixel (color 0) = none := if_neg h
    rw [if_neg h]
    unfold setColor
    rw [hset]
    rfl

/-- The conversion of 16-bit YUV to 8-bit RGB, in floating point. -/
abbrev ColorConversion := PCCColor16bit → Fin 3 → UInt8

def predictAttributePixel (convert : ColorConversion) (occupancyMap : List ℕ)
    (reference : AttributeFrame) (image : PCCImageAttribute) (pixel : ℕ × ℕ) :
    Option PCCImageAttribute := do
  let occupancy ← occupancyMap[pixel.2 * reference.width + pixel.1]?
  if occupancy ≠ 0 then do
    let value0 ← PCCCodec.colorAt reference.toPCCImageAttribute pixel
    let value1 ← PCCCodec.colorAt image pixel
    let referenceColor : Fin 3 → ℤ :=
      if reference.deprecatedColorFormat = 0 then fun c => toInt16 (value0 c).toNat
      else fun c => (convert value0 c).toNat
    setColor image pixel fun c => predictValue (referenceColor c) (value1 c)
  else setColor image pixel fun _ => 128

def predictAttributeFrame (convert : ColorConversion) (frame : TitleFrame)
    (reference : AttributeFrame) (image : PCCImageAttribute) : Option PCCImageAttribute :=
  if reference.width ≠ image.width ∨ reference.height ≠ image.height then none
  else
    (grid reference.width reference.height).foldlM
      (predictAttributePixel convert frame.occupancyMap reference) image

end PCCEncoder

namespace PCCCodec

/-- The normal coordinates of the points of a pixel, of two maps the second of which is a
difference. The points agree in their other coordinates. -/
def generatePoints (patch : EomPatch) (value0 value1 : ℕ) : List ℤ :=
  let point0 := patch.generateNormalCoordinate value0
  [point0, if patch.projectionMode = 0 then point0 + value1 else point0 - value1]

/-- The points of a pixel of a tile, which are read where the tile lies in the frame. -/
def pointsOfPixel (tile : DifferentialTile) (frame0 frame1 : PCCImageGeometry)
    (pixel : PatchPixel) : Option (List ℤ) := do
  let patch ← tile.patches[pixel.patchIndex]?
  let position := (pixel.x + tile.leftTopXInFrame, pixel.y + tile.leftTopYInFrame)
  let value0 ← frame0.getValue position
  let value1 ← frame1.getValue position
  some (generatePoints patch.toEomPatch value0.toNat value1.toNat)

/-- The entries of `pointToPixel` for the points of a pixel. -/
def locationsOfPixel (removeDuplicatePoints : Bool) (pixel : PatchPixel) (points : List ℤ) :
    List (ℕ × ℕ × ℕ) :=
  points.zipIdx.filterMap fun (point, i) =>
    if !removeDuplicatePoints || decide (i = 0) || decide (some point ≠ points[0]?) then
      some (pixel.x, pixel.y, i)
    else none

end PCCCodec

/-- A frame of several tiles, with the occupancy video that encoder and decoder have and with the
occupancy maps that the encoder keeps for the whole frame. -/
structure DifferentialFrame where
  width : ℕ
  height : ℕ
  width_lt : width < 2 ^ 64
  height_lt : height < 2 ^ 64
  tiles : List DifferentialTile
  rawPointsPatch : Bool
  occupancyResolution : ℕ
  occupancyPrecision : ℕ
  occupancyVideo : ℕ → ℕ → ℕ
  occupancyMap : List ℕ
  fullOccupancyMap : List ℕ

namespace DifferentialFrame

variable (frame : DifferentialFrame)

def area : TileArea where
  leftTopX := 0
  leftTopY := 0
  width := frame.width
  height := frame.height
  width_lt := frame.width_lt
  height_lt := frame.height_lt

/-- The whole frame as the encoder has it before it predicts. -/
def titleFrame : Option PCCEncoder.TitleFrame := do
  let patches := PCCEncoder.replaceFrameContext frame.occupancyResolution frame.rawPointsPatch
    frame.tiles
  let blockToPatch ← PCCCodec.generateBlockToPatchFromOccupancyMapVideo frame.area
    frame.occupancyResolution frame.occupancyPrecision frame.occupancyVideo patches
  some ⟨patches, blockToPatch, frame.occupancyMap, frame.fullOccupancyMap⟩

/-- The pixels of a tile that the decoder generates points for. -/
def tilePixels (tile : DifferentialTile) : Option (List PatchPixel) := do
  let patches := tile.patches.map ProjectedPatch.toPatchPlacement
  let blockToPatch ← PCCCodec.generateBlockToPatchFromOccupancyMapVideo tile.area
    frame.occupancyResolution frame.occupancyPrecision frame.occupancyVideo patches
  V3C.patchPixels frame.occupancyResolution tile.width tile.height blockToPatch tile.occupancyMap
    patches

end DifferentialFrame

end V3C

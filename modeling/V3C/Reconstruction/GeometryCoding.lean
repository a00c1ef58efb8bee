import V3C.Reconstruction.CanvasMapping
import V3C.Reconstruction.DifferentialMap
import V3C.Video.OccupancyDownscaling

/-! The geometry of a frame: the occupancy maps and the pictures that the encoder makes of the
depths of the patches, and the regular points that the decoder makes of them. -/
namespace V3C
open Cells

instance neZero_two : NeZero 2 := ⟨Nat.succ_ne_zero 1⟩

structure DepthPatch extends CanvasPatch where
  sizeU : ℕ
  sizeV : ℕ
  depth : Fin 2 → List ℤ
  axisOfAdditionalPlane : ℕ := 0

def DepthPatch.getDepth (patch : DepthPatch) (mapIndex : Fin 2) (pixel : ℕ × ℕ) : Option ℤ :=
  (patch.depth mapIndex)[pixel.2 * patch.sizeU + pixel.1]?

structure GeometryTile extends TileArea where
  patches : List DepthPatch
  geometry2dBitdepth : ℕ

def GeometryTile.placements (tile : GeometryTile) : List PatchPlacement :=
  tile.patches.map fun patch => patch.toPatchPlacement

structure GeometryFrame where
  width : ℕ
  height : ℕ
  tiles : List GeometryTile

/-- The settings that the points of a pixel depend on. -/
structure GeometryParameters where
  occupancyResolution : ℕ
  occupancyPrecision : ℕ
  offsetLossyOM : ℕ := 0
  mapCountMinus1 : ℕ
  removeDuplicatePoints : Bool

/-- The maps whose pictures the decoder reads. -/
def GeometryParameters.maps (params : GeometryParameters) : List (Fin 2) :=
  if params.mapCountMinus1 = 0 then [0] else [0, 1]

namespace PCCEncoder

/-- The steps of the loops over the patches and their pixels. -/
def depthSteps (tile : GeometryTile) : List ((DepthPatch × ℕ) × ℕ × ℕ) :=
  tile.patches.zipIdx.flatMap fun patch =>
    (grid patch.1.sizeU patch.1.sizeV).map fun pixel => (patch, pixel)

/-- A step goes on to the place of its pixel where this has a depth. -/
def depthPixel (tile : GeometryTile) (mapIndex : Fin 2) (step : (DepthPatch × ℕ) × ℕ × ℕ) :
    Option (Option (PatchPixel × ℤ)) := do
  let ((patch, patchIndex), (u, v)) := step
  let d ← patch.getDepth mapIndex (u, v)
  if d < infiniteDepth then do
    let (x, y) ← patch.patch2Canvas patch.occupancyResolution u v tile.width tile.height
    some (some (⟨patchIndex, u, v, x, y⟩, d))
  else some none

def depthPixels (tile : GeometryTile) (mapIndex : Fin 2) : Option (List (PatchPixel × ℤ)) := do
  let pixels ← (depthSteps tile).mapM (depthPixel tile mapIndex)
  some (pixels.filterMap id)

def generateTileOccupancyMap (tile : GeometryTile) : Option (List ℕ) := do
  let pixels ← depthPixels tile 0
  writeAll setAt (pixels.map fun pixel => (pixel.1.x + tile.width * pixel.1.y, 1))
    (List.replicate (tile.width * tile.height) 0)

def copyPixel (frame : GeometryFrame) (tile : GeometryTile) (tileMap occupancyMap : List ℕ)
    (pixel : ℕ × ℕ) : Option (List ℕ) := do
  let occupancy ← tileMap[pixel.2 * tile.width + pixel.1]?
  setAt occupancyMap
    ((pixel.2 + tile.leftTopY) * frame.width + (pixel.1 + tile.leftTopX)) occupancy

/-- The occupancy map of the whole frame, to which those of the tiles are copied. -/
def generateOccupancyMap (frame : GeometryFrame) : Option (List ℕ) :=
  frame.tiles.foldlM (fun occupancyMap tile => do
    let tileMap ← generateTileOccupancyMap tile
    (grid tile.width tile.height).foldlM (copyPixel frame tile tileMap) occupancyMap)
    (List.replicate (frame.width * frame.height) 0)

/-- `isFull` after the loops over a block of the precision. -/
def isFull (precision imageWidth : ℕ) (occupancyMap : List ℕ) (corner : ℕ × ℕ) : Option Bool :=
  (grid precision precision).foldlM (fun isFull pixel =>
    if isFull then some true
    else do
      let occupancy ← occupancyMap[(corner.2 + pixel.2) * imageWidth + corner.1 + pixel.1]?
      some (decide (0 < occupancy))) false

/-- The sample of a block of the precision, which has eight bits. -/
def occupancySample (offsetLossyOM : ℕ) (isFull : Bool) : UInt8 :=
  if isFull then if offsetLossyOM > 0 then offsetLossyOM.toUInt8 else 1 else 0

/-- The samples of a block of patches. -/
def fillOccupancyBlock (params : GeometryParameters) (imageWidth : ℕ) (occupancyMap : List ℕ)
    (video : PCCImageOccupancyMap) (block : ℕ × ℕ) : Option PCCImageOccupancyMap := do
  let blockSize0 := params.occupancyResolution / params.occupancyPrecision
  let block0 ← (grid blockSize0 blockSize0).mapM fun pixel => do
    let isFull ← isFull params.occupancyPrecision imageWidth occupancyMap
      (block.1 * params.occupancyResolution + pixel.1 * params.occupancyPrecision,
        block.2 * params.occupancyResolution + pixel.2 * params.occupancyPrecision)
    some ((block.1 * blockSize0 + pixel.1, block.2 * blockSize0 + pixel.2),
      occupancySample params.offsetLossyOM isFull)
  writeAll PCCImageOccupancyMap.setValue block0 video

/-- The picture of the occupancy video of a frame, without EOM codes. -/
def generateOccupancyMapVideo (params : GeometryParameters) (imageWidth imageHeight : ℕ)
    (occupancyMap : List ℕ) : Option PCCImageOccupancyMap :=
  if params.occupancyResolution = 0 ∨ params.occupancyPrecision = 0 then none
  else
    (grid (imageWidth / params.occupancyResolution)
      (imageHeight / params.occupancyResolution)).foldlM
      (fillOccupancyBlock params imageWidth occupancyMap)
      (.resize (imageWidth / params.occupancyPrecision) (imageHeight / params.occupancyPrecision))

/-- The depths of a tile in a picture. The program exits on a depth with too many bits. -/
def addTileDepths (mapIndex : Fin 2) (image : PCCImageGeometry) (tile : GeometryTile) :
    Option PCCImageGeometry := do
  let pixels ← depthPixels tile mapIndex
  let image ← writeAll PCCImageGeometry.setValue (pixels.map fun pixel =>
    ((pixel.1.x + tile.leftTopX, pixel.1.y + tile.leftTopY), (toUInt16 pixel.2).toUInt16)) image
  let maxDepth := (pixels.map fun pixel => toSizeT pixel.2).foldl max 0
  if maxDepth ≥ 2 ^ tile.geometry2dBitdepth then none else some image

/-- The picture of a map, where the raw points have a video of their own. -/
def generateIntraImage (frame : GeometryFrame) (mapIndex : Fin 2) : Option PCCImageGeometry :=
  frame.tiles.foldlM (addTileDepths mapIndex) (.resize frame.width frame.height)

end PCCEncoder

def DepthPatch.pixelPoints (removeDuplicatePoints : Bool)
    (inverseRotate : ℕ → PCCPoint3D → PCCPoint3D) (patch : DepthPatch) (u v : ℕ)
    (depths : List ℕ) : Option (List (PCCPoint3D × ℕ)) := do
  let createdPoints ← depths.mapM (patch.generatePoint u v)
  some (createdPoints.zipIdx.filterMap fun (point, i) =>
    if !removeDuplicatePoints || decide (i = 0) || decide (some point ≠ createdPoints[0]?) then
      some (if patch.axisOfAdditionalPlane = 0 then point
        else inverseRotate patch.axisOfAdditionalPlane point, i)
    else none)

namespace PCCCodec

/-- The occupancy map of a tile, upscaled from the video. -/
def upscaleOccupancy (occupancyPrecision : ℕ) (area : TileArea) (video : PCCImageOccupancyMap) :
    Option (List ℕ) :=
  if occupancyPrecision = 0 then none
  else
    (grid area.width area.height).mapM fun (u, v) =>
      (video.getValue (area.leftTopX / occupancyPrecision + u / occupancyPrecision,
        area.leftTopY / occupancyPrecision + v / occupancyPrecision)).map UInt8.toNat

/-- The points of a pixel, with its entries of `pointToPixel`. -/
def addPixel (params : GeometryParameters) (inverseRotate : ℕ → PCCPoint3D → PCCPoint3D)
    (tile : GeometryTile) (frames : List PCCImageGeometry) (pixel : PatchPixel) :
    Option (List (PCCPoint3D × ℕ × ℕ × ℕ)) := do
  let patch ← tile.patches[pixel.patchIndex]?
  let depths ← frames.mapM fun frame =>
    (frame.getValue (pixel.x + tile.leftTopX, pixel.y + tile.leftTopY)).map UInt16.toNat
  let points ← patch.pixelPoints params.removeDuplicatePoints inverseRotate pixel.u pixel.v depths
  some (points.map fun (point, i) => (point, pixel.x, pixel.y, i))

/-- The regular points of a tile, from the pictures of its maps; the depths are absolute. -/
def regularPoints (params : GeometryParameters) (inverseRotate : ℕ → PCCPoint3D → PCCPoint3D)
    (tile : GeometryTile) (video : PCCImageOccupancyMap) (frames : List PCCImageGeometry) :
    Option (List (PCCPoint3D × ℕ × ℕ × ℕ)) := do
  let blockToPatch ← generateBlockToPatchFromOccupancyMapVideo tile.toTileArea
    params.occupancyResolution params.occupancyPrecision
    (fun x y => (video.channel (x, y)).toNat) tile.placements
  let occupancyMap ← upscaleOccupancy params.occupancyPrecision tile.toTileArea video
  let pixels ← V3C.patchPixels params.occupancyResolution tile.width tile.height blockToPatch
    occupancyMap tile.placements
  let points ← pixels.mapM (addPixel params inverseRotate tile frames)
  some points.flatten

end PCCCodec

end V3C

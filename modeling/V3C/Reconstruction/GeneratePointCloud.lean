import V3C.Packing.AuxiliaryTransfer
import V3C.Reconstruction.EnhancedOccupancyMap

/-! The points of a tile after those of its patches: EOM points and raw points, in the order in
which the decoder adds them. -/
namespace V3C

/-- The coordinates have type `int16_t`. -/
structure PCCPoint3D where
  x : ℤ
  y : ℤ
  z : ℤ
  deriving DecidableEq, Inhabited

/-- The luma plane of a picture of the geometry video. -/
structure PCCImageGeometry where
  width : ℕ
  height : ℕ
  channel : ℕ × ℕ → UInt16

namespace PCCImageGeometry

/-- A new picture, with all samples zero. -/
def resize (width height : ℕ) : PCCImageGeometry where
  width := width
  height := height
  channel := fun _ => 0

def setValue (image : PCCImageGeometry) (pixel : ℕ × ℕ) (value : UInt16) :
    Option PCCImageGeometry :=
  if pixel.1 < image.width ∧ pixel.2 < image.height then
    some { image with channel := Function.update image.channel pixel value }
  else none

def getValue (image : PCCImageGeometry) (pixel : ℕ × ℕ) : Option UInt16 :=
  if pixel.1 < image.width ∧ pixel.2 < image.height then some (image.channel pixel) else none

end PCCImageGeometry

/-- A point with its colour and with its entry of `pointToPixel`: the pixel in the tile and the
map. -/
structure PointEntry where
  point : PCCPoint3D
  color : PCCColor3B
  location : ℕ × ℕ × ℕ

structure GeneratePointCloudParameters where
  occupancyResolution : ℕ
  enhancedOccupancyMapCode : Bool
  useAdditionalPointsPatch : Bool
  bDecoder : Bool
  patchPrecedenceOrderFlag : Bool

structure PointCloudTile where
  leftTopXInFrame : ℕ
  leftTopYInFrame : ℕ
  width : ℕ
  useRawPointsSeparateVideo : Bool
  totalPatchCount : ℕ
  eomPatches : List PCCEomPatch
  rawPointsPatches : List PCCRawPointsPatch
  totalNumberOfRawPoints : ℕ

/-- What the loops over the patches leave: the regular points and the EOM points of each patch. -/
structure PatchPoints where
  regular : List PointEntry
  eomPointsPerPatch : List (List PCCPoint3D)

structure GeneratedTile where
  entries : List PointEntry
  totalNumberOfRegularPoints : ℕ
  totalNumberOfEOMPoints : ℕ
  totalNumberOfRawPoints : ℕ

namespace PCCCodec

def eomPatchPoints (params : GeneratePointCloudParameters) (tile : PointCloudTile)
    (eomPointsPerPatch : List (List PCCPoint3D)) (eomPatch : PCCEomPatch) :
    Option (List PCCPoint3D) := do
  let members ← eomPatch.memberPatches.mapM fun (member : ℕ) =>
    eomPointsPerPatch[
      if params.bDecoder && params.patchPrecedenceOrderFlag then
        toSizeT (tile.totalPatchCount - member - 1)
      else member]?
  some members.flatten

/-- The points of an EOM patch fill its blocks one after the other. -/
def eomEntries (params : GeneratePointCloudParameters) (tile : PointCloudTile)
    (eomPointsPerPatch : List (List PCCPoint3D)) (eomPatch : PCCEomPatch) :
    Option (List PointEntry) := do
  let points ← eomPatchPoints params tile eomPointsPerPatch eomPatch
  let blockSize := params.occupancyResolution * params.occupancyResolution
  let blockToPatchWidth := tile.width / params.occupancyResolution
  let u0Eom := if tile.useRawPointsSeparateVideo then 0
    else eomPatch.u0 * params.occupancyResolution
  let v0Eom := if tile.useRawPointsSeparateVideo then 0
    else eomPatch.v0 * params.occupancyResolution
  if points ≠ [] ∧ blockToPatchWidth = 0 then none
  else
    some (points.zipIdx.map fun (point, totalPointCount) =>
      let currBlock := totalPointCount / blockSize
      let nPixelInCurrentBlockCount := totalPointCount - currBlock * blockSize
      { point
        color := default
        location :=
          (currBlock % blockToPatchWidth * params.occupancyResolution +
              nPixelInCurrentBlockCount % params.occupancyResolution + u0Eom,
            currBlock / blockToPatchWidth * params.occupancyResolution +
              nPixelInCurrentBlockCount / params.occupancyResolution + v0Eom,
            0) })

/-- The conversion of a `double` to `int16_t`, which is not defined out of range. -/
def int16OfDouble (n : ℕ) : Option ℤ := if n < 2 ^ 15 then some n else none

/-- The coordinate that a pixel of a raw patch holds: the planes of `x`, of `y` and of `z`. -/
def readRawCoordinate (raw : PCCRawPointsPatch) (rawPoints : List PCCPoint3D)
    (numRawPointsAdded value : ℕ) : Option (List PCCPoint3D) :=
  let numRawPoints := raw.numberOfRawPoints
  if numRawPointsAdded < numRawPoints then do
    let x ← int16OfDouble (value + raw.u1)
    some (rawPoints.modify numRawPointsAdded fun point => { point with x })
  else if numRawPointsAdded < 2 * numRawPoints then do
    let y ← int16OfDouble (value + raw.v1)
    some (rawPoints.modify (numRawPointsAdded - numRawPoints) fun point => { point with y })
  else do
    let z ← int16OfDouble (value + raw.d1)
    some (rawPoints.modify (numRawPointsAdded - 2 * numRawPoints) fun point => { point with z })

/-- The points of a raw patch, whose pixels are read from the corner of the tile on. -/
def readRawPoints (tile : PointCloudTile) (frameRawPoint : PCCImageGeometry)
    (raw : PCCRawPointsPatch) : Option (List PCCPoint3D) :=
  let u0 := raw.u0 * raw.occupancyResolution
  let v0 := raw.v0 * raw.occupancyResolution
  (grid raw.sizeU raw.sizeV).zipIdx.foldlM (fun rawPoints ((u, v), numRawPointsAdded) =>
    if numRawPointsAdded < 3 * raw.numberOfRawPoints then do
      let value ← frameRawPoint.getValue
        (tile.leftTopXInFrame + u0 + u, tile.leftTopYInFrame + v0 + v)
      readRawCoordinate raw rawPoints numRawPointsAdded value.toNat
    else some rawPoints) (List.replicate raw.numberOfRawPoints ⟨0, 0, 0⟩)

def rawEntries (tile : PointCloudTile) (frameRawPoint : PCCImageGeometry)
    (raw : PCCRawPointsPatch) : Option (List PointEntry) := do
  let raw := rawPatchSizes raw
  let rawPoints ← readRawPoints tile frameRawPoint raw
  let pixels := (grid raw.sizeU raw.sizeV).take raw.numberOfRawPoints
  some ((pixels.zip rawPoints).map fun ((u, v), point) =>
    { point
      color := ⟨0, 255, 255⟩
      location :=
        (raw.u0 * raw.occupancyResolution + u, raw.v0 * raw.occupancyResolution + v, 0) })

/-- The raw points are read from `frame0` or, in a separate video, from its picture. -/
def generatePointCloud (params : GeneratePointCloudParameters) (tile : PointCloudTile)
    (frameRawPoint : PCCImageGeometry) (patchPoints : PatchPoints) : Option GeneratedTile := do
  let eom :=
    if params.enhancedOccupancyMapCode then
      tile.eomPatches.mapM (eomEntries params tile patchPoints.eomPointsPerPatch)
    else some []
  let eom ← eom
  let raw :=
    if params.useAdditionalPointsPatch then
      tile.rawPointsPatches.mapM (rawEntries tile frameRawPoint)
    else some []
  let raw ← raw
  some {
    entries := patchPoints.regular ++ eom.flatten ++ raw.flatten
    totalNumberOfRegularPoints := patchPoints.regular.length
    totalNumberOfEOMPoints :=
      if params.enhancedOccupancyMapCode then (tile.eomPatches.map PCCEomPatch.eomCount).sum
      else 0
    totalNumberOfRawPoints :=
      if params.useAdditionalPointsPatch then tile.totalNumberOfRawPoints else 0 }

end PCCCodec

end V3C

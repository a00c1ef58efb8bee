import Mathlib.Data.Fin.VecNotation
import Mathlib.Data.UInt
import V3C.Reconstruction.GeneratePointCloud

/-! The colours of the points of a frame, tile after tile. -/
namespace V3C

abbrev PCCColor16bit := Fin 3 → UInt16

/-- A picture of an attribute video. -/
structure AttributeFrame extends PCCImageAttribute where
  deprecatedColorFormat : ℕ

/-- The attribute videos of the first and of the second map. -/
structure AttributeVideos where
  videoAttribute : List AttributeFrame
  videoAttributeFrame1 : List AttributeFrame

structure ColoringParams where
  mapCountMinus1 : ℕ
  singleMapPixelInterleaving : Bool
  /-- The member of the parameters. -/
  multipleStreams_ : Bool
  /-- The argument of the call. -/
  multipleStreams : Bool
  attributeCount : ℕ

/-- The members of a tile that colouring reads. -/
structure ColoringTile where
  frameIndex : ℕ
  leftTopXInFrame : ℕ
  leftTopYInFrame : ℕ
  useRawPointsSeparateVideo : Bool
  pointToPixel : List (ℕ × ℕ × ℕ)
  totalNumberOfRegularPoints : ℕ
  totalNumberOfEOMPoints : ℕ
  totalNumberOfRawPoints : ℕ

/-- The members of a point set that colouring reads. -/
structure ColoringPointSet3 where
  positions : List PCCPoint3D
  colors : List PCCColor3B
  colors16bit : List PCCColor16bit

namespace ColoringPointSet3

def fillColor (reconstruct : ColoringPointSet3) (color : PCCColor3B) : ColoringPointSet3 :=
  { reconstruct with colors := List.replicate reconstruct.positions.length color }

/-- The 16-bit colours of new points are zero. -/
def appendPointSet (reconstruct : ColoringPointSet3) (entries : List PointEntry) : ColoringPointSet3 where
  positions := reconstruct.positions ++ entries.map PointEntry.point
  colors := reconstruct.colors ++ entries.map PointEntry.color
  colors16bit := reconstruct.colors16bit ++ List.replicate entries.length 0

end ColoringPointSet3

/-- `transferColorWeight`: from points with their colours, the colour of each target point. -/
abbrev ColorTransfer := List (PCCPoint3D × PCCColor16bit) → List PCCPoint3D → ℕ → PCCColor16bit

namespace PCCCodec

/-- The three samples of a pixel. -/
def colorAt (image : PCCImageAttribute) (pixel : ℕ × ℕ) : Option PCCColor16bit := do
  let y ← image.getValue 0 pixel
  let u ← image.getValue 1 pixel
  let v ← image.getValue 2 pixel
  some ![y, u, v]

/-- The sample of the second map, which is a difference if it is not absolute. -/
def reconstructValue (numBits : ℕ) (absolute : Bool) (value0 value1 : UInt16) : UInt16 :=
  if absolute then value1
  else
    let offset : ℤ := 2 ^ (numBits - 1)
    let maxValue : ℤ := 2 ^ numBits - 1
    let newValue : ℤ := value1.toNat - offset
    let clipped := if newValue < -offset then -offset
      else if newValue > offset - 1 then offset - 1
      else newValue
    let newValue := clipped + value0.toNat
    if newValue < 0 then 0
    else if newValue > maxValue then maxValue.toNat.toUInt16
    else newValue.toNat.toUInt16

/-- The colour that the loop gives to a point with its own sample. A point without one is left
to the transfer. -/
def sampleColor (params : ColoringParams) (absoluteT1List : List Bool) (videos : AttributeVideos)
    (tile : ColoringTile) (location : ℕ × ℕ × ℕ) : Option (Option PCCColor16bit) :=
  let mapCount := params.mapCountMinus1 + 1
  let shift := if params.multipleStreams_ then tile.frameIndex else tile.frameIndex * mapCount
  let x := tile.leftTopXInFrame + location.1
  let y := tile.leftTopYInFrame + location.2.1
  let f := location.2.2
  if params.singleMapPixelInterleaving then
    if (f = 0 ∧ (x + y) % 2 = 0) ∨ (f = 1 ∧ (x + y) % 2 = 1) then do
      let image ← videos.videoAttribute[shift]?
      let color ← colorAt image.toPCCImageAttribute (x, y)
      some (some color)
    else some none
  else if params.multipleStreams then
    if f = 0 then do
      let image ← videos.videoAttribute[tile.frameIndex]?
      let color ← colorAt image.toPCCImageAttribute (x, y)
      some (some color)
    else do
      let image0 ← videos.videoAttribute[tile.frameIndex]?
      let image1 ← videos.videoAttributeFrame1[tile.frameIndex]?
      let value0 ← colorAt image0.toPCCImageAttribute (x, y)
      let value1 ← colorAt image1.toPCCImageAttribute (x, y)
      let absolute ← absoluteT1List[f]?
      let numBits := if image0.deprecatedColorFormat = 0 then 8 else 16
      some (some fun c => reconstructValue numBits absolute (value0 c) (value1 c))
  else if f < mapCount then do
    let image ← videos.videoAttribute[shift + f]?
    let color ← colorAt image.toPCCImageAttribute (x, y)
    some (some color)
  else some none

/-- What the loop over the points changes. -/
structure Coloring where
  color16bit : List PCCColor16bit
  source : List (PCCPoint3D × PCCColor16bit)
  target : List PCCPoint3D
  targetIndex : List ℕ

def setColor16bit (color16bit : List PCCColor16bit) (index : ℕ) (color : PCCColor16bit) :
    Option (List PCCColor16bit) :=
  if index < color16bit.length then some (color16bit.set index color) else none

/-- Point `i` of the frame. -/
def colorPoint (params : ColoringParams) (absoluteT1List : List Bool) (videos : AttributeVideos)
    (tile : ColoringTile) (positions : List PCCPoint3D) (accTilePointCount : ℕ) (s : Coloring)
    (i : ℕ) : Option Coloring := do
  let location ← tile.pointToPixel[i - accTilePointCount]?
  let sample ← sampleColor params absoluteT1List videos tile location
  let position ← positions[i]?
  match sample with
  | some color => do
    let color16bit ← setColor16bit s.color16bit i color
    some { s with color16bit, source := s.source ++ [(position, color)] }
  | none =>
    some { s with target := s.target ++ [position], targetIndex := s.targetIndex ++ [i] }

/-- The colours of the target points are set where they stand in the frame. -/
def transferColors (transferColorWeight : ColorTransfer) (s : Coloring) :
    Option (List PCCColor16bit) :=
  s.targetIndex.zipIdx.foldlM (fun color16bit (index, i) =>
    setColor16bit color16bit index (transferColorWeight s.source s.target i)) s.color16bit

/-- The attributes of the auxiliary video, from index `pointCount` on. -/
def colorAuxPoints (attributes : List PCCColor3B) (pointCount : ℕ)
    (color16bit : List PCCColor16bit) : Option (List PCCColor16bit) :=
  attributes.zipIdx.foldlM (fun color16bit (color, k) =>
    setColor16bit color16bit (pointCount + k) (PCCImageAttribute.component color)) color16bit

def pointCount (tile : ColoringTile) : ℕ :=
  if tile.useRawPointsSeparateVideo then tile.totalNumberOfRegularPoints
  else tile.totalNumberOfRegularPoints +
    (tile.totalNumberOfRawPoints + tile.totalNumberOfEOMPoints)

/-- The 16-bit colours of the frame after a tile. -/
def colorTile (transferColorWeight : ColorTransfer) (params : ColoringParams)
    (absoluteT1List : List Bool) (videos : AttributeVideos) (tile : ColoringTile)
    (attributes : AuxAttributes) (accTilePointCount : ℕ) (positions : List PCCPoint3D)
    (color16bit : List PCCColor16bit) : Option (List PCCColor16bit) := do
  let s ← (List.range' accTilePointCount (pointCount tile)).foldlM
    (colorPoint params absoluteT1List videos tile positions accTilePointCount)
    { color16bit, source := [], target := [], targetIndex := [] }
  let color16bit ← transferColors transferColorWeight s
  if tile.useRawPointsSeparateVideo then
    colorAuxPoints (attributes.eomAttribute ++ attributes.rawPointsAttribute) (pointCount tile)
      color16bit
  else some color16bit

/-- The coloured points and the number of points up to the end of the tile. -/
def colorPointCloud (transferColorWeight : ColorTransfer) (params : ColoringParams)
    (absoluteT1List : List Bool) (videos : AttributeVideos) (tile : ColoringTile)
    (attributes : AuxAttributes) (accTilePointCount : ℕ) (reconstruct : ColoringPointSet3) :
    Option (ColoringPointSet3 × ℕ) :=
  if reconstruct.positions.length = 0 then some (reconstruct, accTilePointCount)
  else do
    let reconstruct := reconstruct.fillColor ⟨0, 0, 0⟩
    let colored :=
      if params.attributeCount = 0 then some (reconstruct.fillColor ⟨127, 127, 127⟩)
      else do
        let colors16bit ← colorTile transferColorWeight params absoluteT1List videos tile
          attributes accTilePointCount reconstruct.positions reconstruct.colors16bit
        some { reconstruct with colors16bit }
    let reconstruct ← colored
    some (reconstruct, accTilePointCount + tile.totalNumberOfRegularPoints +
      tile.totalNumberOfEOMPoints + tile.totalNumberOfRawPoints)

end PCCCodec

structure PointTile extends ColoringTile where
  entries : List PointEntry

/-- A tile with what the auxiliary video holds for it. -/
structure DecodedTile extends PointTile where
  attributes : AuxAttributes

/-- The points of a frame and, for each attribute, the number of those that are coloured. -/
structure DecodedFrame where
  reconstruct : ColoringPointSet3
  accTilePointCount : List ℕ

/-- What the points of a tile are generated from. -/
structure TileInput extends PointCloudTile where
  frameIndex : ℕ
  frameRawPoint : PCCImageGeometry
  patchPoints : PatchPoints

namespace PCCDecoder

/-- The tile after `generatePointCloud`. -/
def generateTile (params : GeneratePointCloudParameters) (input : TileInput) :
    Option PointTile := do
  let generated ← PCCCodec.generatePointCloud params input.toPointCloudTile input.frameRawPoint
    input.patchPoints
  some {
    frameIndex := input.frameIndex
    leftTopXInFrame := input.leftTopXInFrame
    leftTopYInFrame := input.leftTopYInFrame
    useRawPointsSeparateVideo := input.useRawPointsSeparateVideo
    pointToPixel := generated.entries.map PointEntry.location
    totalNumberOfRegularPoints := generated.totalNumberOfRegularPoints
    totalNumberOfEOMPoints := generated.totalNumberOfEOMPoints
    totalNumberOfRawPoints := generated.totalNumberOfRawPoints
    entries := generated.entries }

def colorAttribute (transferColorWeight : ColorTransfer) (params : ColoringParams)
    (absoluteT1List : List (List Bool)) (videos : AttributeVideos) (tile : DecodedTile)
    (frame : DecodedFrame) (attIdx : ℕ) : Option DecodedFrame := do
  let absolute ← absoluteT1List[attIdx]?
  let acc ← frame.accTilePointCount[attIdx]?
  let (reconstruct, updatedPointCount) ← PCCCodec.colorPointCloud transferColorWeight params
    absolute videos tile.toColoringTile tile.attributes acc frame.reconstruct
  some ⟨reconstruct, frame.accTilePointCount.set attIdx updatedPointCount⟩

/-- A tile is appended to the frame and coloured with each attribute. -/
def reconstructTile (transferColorWeight : ColorTransfer) (params : ColoringParams)
    (absoluteT1List : List (List Bool)) (videos : AttributeVideos) (frame : DecodedFrame)
    (tile : DecodedTile) : Option DecodedFrame :=
  (List.range params.attributeCount).foldlM
    (colorAttribute transferColorWeight params absoluteT1List videos tile)
    { frame with reconstruct := frame.reconstruct.appendPointSet tile.entries }

/-- The tiles of a frame in their order. -/
def reconstructFrame (transferColorWeight : ColorTransfer) (params : ColoringParams)
    (absoluteT1List : List (List Bool)) (videos : AttributeVideos) (tiles : List DecodedTile) :
    Option DecodedFrame :=
  tiles.foldlM (reconstructTile transferColorWeight params absoluteT1List videos)
    { reconstruct := ⟨[], [], []⟩
      accTilePointCount := List.replicate params.attributeCount 0 }

end PCCDecoder

end V3C

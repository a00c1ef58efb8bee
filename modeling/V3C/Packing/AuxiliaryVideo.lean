import V3C.Store.Cells
import V3C.Packing.PackFlexible

/-! The attributes of raw and EOM points in the pictures of the auxiliary video. -/
namespace V3C

structure PCCColor3B where
  r : UInt8
  g : UInt8
  b : UInt8
  deriving DecidableEq, Inhabited

/-- A picture of three planes of one size. -/
structure PCCImageAttribute where
  width : ℕ
  height : ℕ
  channels : Fin 3 → ℕ × ℕ → UInt16

namespace PCCImageAttribute

/-- A new picture, with all samples zero. -/
def resize (width height : ℕ) : PCCImageAttribute where
  width := width
  height := height
  channels := fun _ _ => 0

def setValue (image : PCCImageAttribute) (channelIndex : Fin 3) (pixel : ℕ × ℕ) (value : UInt16) :
    Option PCCImageAttribute :=
  if pixel.1 < image.width ∧ pixel.2 < image.height then
    some { image with
      channels := Function.update image.channels channelIndex
        (Function.update (image.channels channelIndex) pixel value) }
  else none

def getValue (image : PCCImageAttribute) (channelIndex : Fin 3) (pixel : ℕ × ℕ) : Option UInt16 :=
  if pixel.1 < image.width ∧ pixel.2 < image.height then some (image.channels channelIndex pixel)
  else none

/-- The three planes of a pixel are written with the components of a colour. -/
def setColor (image : PCCImageAttribute) (pixel : ℕ × ℕ) (color : PCCColor3B) :
    Option PCCImageAttribute := do
  let image ← image.setValue 0 pixel color.r.toUInt16
  let image ← image.setValue 1 pixel color.g.toUInt16
  image.setValue 2 pixel color.b.toUInt16

def getColor (image : PCCImageAttribute) (pixel : ℕ × ℕ) : Option PCCColor3B := do
  let r ← image.getValue 0 pixel
  let g ← image.getValue 1 pixel
  let b ← image.getValue 2 pixel
  some ⟨r.toUInt8, g.toUInt8, b.toUInt8⟩

end PCCImageAttribute

/-- The patches of a tile whose points are in the auxiliary video. -/
structure AuxTile where
  rawPointsPatches : List PCCRawPointsPatch
  eomPatches : List PCCEomPatch
  totalNumberOfRawPoints : ℕ
  totalNumberOfEOMPoints : ℕ

structure AuxFrame where
  auxVideoWidth : ℕ
  auxTileHeight : List ℕ
  auxTileLeftTopY : List ℕ
  tiles : List AuxTile

def AuxFrame.auxVideoHeight (frame : AuxFrame) : ℕ := frame.auxTileHeight.sum

/-- The attributes of the points of a tile. -/
structure AuxAttributes where
  rawPointsAttribute : List PCCColor3B
  eomAttribute : List PCCColor3B
  deriving DecidableEq

/-- `std::vector::resize` -/
def resizeTo {α : Type} [Inhabited α] (xs : List α) (n : ℕ) : List α :=
  xs.take n ++ List.replicate (n - xs.length) default

/-- The pixels that the loops over a raw patch reach before its last point. -/
def PCCRawPointsPatch.pixels (raw : PCCRawPointsPatch) (leftTopY : ℕ) : List (ℕ × ℕ) :=
  ((grid raw.sizeU raw.sizeV).take raw.numberOfRawPoints).map fun (u, v) =>
    (raw.u0 * raw.occupancyResolution + u, raw.v0 * raw.occupancyResolution + v + leftTopY)

namespace PCCEomPatch

/-- The pixel of point `k`, where the patch starts in a row and the blocks in a row are counted. -/
def pixel (eomPatch : PCCEomPatch) (startX startY widthInBlock leftTopY k
    nPixelInCurrentBlockCount : ℕ) : ℕ × ℕ :=
  let nBlock := k / (eomPatch.occupancyResolution * eomPatch.occupancyResolution)
  (startX + nBlock % widthInBlock * eomPatch.occupancyResolution +
      nPixelInCurrentBlockCount % eomPatch.occupancyResolution,
    startY + nBlock / widthInBlock * eomPatch.occupancyResolution +
      nPixelInCurrentBlockCount / eomPatch.occupancyResolution + leftTopY)

/-- The loop over the points that are left, with the count of the pixels of its block. -/
def pixelsFrom (eomPatch : PCCEomPatch) (startX startY widthInBlock leftTopY : ℕ) :
    ℕ → ℕ → ℕ → List (ℕ × ℕ) × ℕ
  | 0, _, nPixelInCurrentBlockCount => ([], nPixelInCurrentBlockCount)
  | left + 1, k, nPixelInCurrentBlockCount =>
    let blockSize := eomPatch.occupancyResolution * eomPatch.occupancyResolution
    let next := if nPixelInCurrentBlockCount + 1 ≥ blockSize then 0
      else nPixelInCurrentBlockCount + 1
    let (pixels, last) := pixelsFrom eomPatch startX startY widthInBlock leftTopY left (k + 1) next
    (eomPatch.pixel startX startY widthInBlock leftTopY k nPixelInCurrentBlockCount :: pixels, last)

/-- The pixels of an EOM patch. The resolution places the patch, its own cuts it into blocks. -/
def pixels (eomPatch : PCCEomPatch) (resolution width leftTopY nPixelInCurrentBlockCount : ℕ) :
    Option (List (ℕ × ℕ) × ℕ) :=
  if eomPatch.occupancyResolution = 0 then none
  else
    let widthInBlock := width / eomPatch.occupancyResolution
    if widthInBlock = 0 ∧ eomPatch.eomCount ≠ 0 then none
    else some (eomPatch.pixelsFrom (eomPatch.u0 * resolution) (eomPatch.v0 * resolution)
      widthInBlock leftTopY eomPatch.eomCount 0 nPixelInCurrentBlockCount)

end PCCEomPatch

namespace PCCEncoder

/-- The patches of a tile, placed on a canvas as wide as the video, and the height that they
take. -/
def placeAuxiliaryTile (fuel : ℕ) (params : PackingParams) (maxWidth : ℕ) (tile : AuxTile) :
    Option (AuxTile × ℕ) :=
  if params.occupancyResolution = 0 then none
  else do
    let auxPointsOccupancySizeU := maxWidth / params.occupancyResolution
    let (rawPointsPatches, height) ← packRawPointsPatch fuel params 0 tile.rawPointsPatches
      (.empty auxPointsOccupancySizeU 1) 0
    let (eomPatches, height) ← packEOMAttributePointsPatch params auxPointsOccupancySizeU
      tile.eomPatches height
    some ({ tile with rawPointsPatches := rawPointsPatches, eomPatches := eomPatches },
      (height + 63) / 64 * 64)

/-- The tile of a frame gets the height if it had less. -/
def placeTileOfFrame (fuel : ℕ) (params : PackingParams) (maxWidth tileIdx : ℕ)
    (frame : AuxFrame) : Option AuxFrame := do
  let tile ← frame.tiles[tileIdx]?
  let (tile, auxPointsTileHeight) ← placeAuxiliaryTile fuel params maxWidth tile
  let auxTileHeight ← frame.auxTileHeight[tileIdx]?
  some { frame with
    tiles := frame.tiles.set tileIdx tile
    auxTileHeight := frame.auxTileHeight.set tileIdx (max auxTileHeight auxPointsTileHeight) }

/-- The tile below another one. -/
def placeBelow (frame : AuxFrame) (ti : ℕ) : Option AuxFrame := do
  let auxTileLeftTopY ← frame.auxTileLeftTopY[ti - 1]?
  let auxTileHeight ← frame.auxTileHeight[ti - 1]?
  if ti < frame.auxTileLeftTopY.length then
    some { frame with
      auxTileLeftTopY := frame.auxTileLeftTopY.set ti (auxTileLeftTopY + auxTileHeight) }
  else none

/-- The tiles of a frame one below the other. -/
def placeLeftTops (frame : AuxFrame) : Option AuxFrame :=
  if frame.auxTileLeftTopY = [] then none
  else (List.range' 1 (frame.auxTileHeight.length - 1)).foldlM placeBelow
    { frame with auxTileLeftTopY := frame.auxTileLeftTopY.set 0 0 }

def modifyFrame (f : AuxFrame → Option AuxFrame) (context : List AuxFrame) (frameIdx : ℕ) :
    Option (List AuxFrame) := do
  let frame ← context[frameIdx]?
  let frame ← f frame
  some (context.set frameIdx frame)

/-- The frames of a segment, the second index exclusive. -/
def placeSegment (fuel : ℕ) (params : PackingParams) (tileSegmentationType : ℤ) (maxWidth : ℕ)
    (context : List AuxFrame) (segment : ℕ × ℕ) : Option (List AuxFrame) := do
  let frames := List.range' segment.1 (segment.2 - segment.1)
  let numTiles :=
    if tileSegmentationType = 0 then some 1
    else context[segment.1]?.map fun frame => frame.tiles.length
  let numTilesInSeg ← numTiles
  let context ← (List.range numTilesInSeg).foldlM (fun context tileIdx =>
    frames.foldlM (modifyFrame (placeTileOfFrame fuel params maxWidth tileIdx)) context) context
  frames.foldlM (modifyFrame placeLeftTops) context

def segments (tileSegmentationType : ℤ) (framesInAFPS : List (ℕ × ℕ)) (numFrames : ℕ) :
    List (ℕ × ℕ) :=
  if tileSegmentationType = 1 then framesInAFPS.map fun (first, last) => (first, last + 1)
  else [(0, numFrames)]

/-- The canvases of all frames are as wide as the video of the first. -/
def placeAuxiliaryPointsTiles (fuel : ℕ) (params : PackingParams) (tileSegmentationType : ℤ)
    (framesInAFPS : List (ℕ × ℕ)) (context : List AuxFrame) : Option (List AuxFrame) := do
  let first ← context[0]?
  (segments tileSegmentationType framesInAFPS context.length).foldlM
    (placeSegment fuel params tileSegmentationType first.auxVideoWidth) context

/-- The attributes from an offset on, each at its pixel. -/
def writePixels (attributes : List PCCColor3B) (offset : ℕ) (pixels : List (ℕ × ℕ))
    (image : PCCImageAttribute) : Option PCCImageAttribute :=
  pixels.zipIdx.foldlM (fun image (pixel, k) => do
    let color ← attributes[k + offset]?
    image.setColor pixel color) image

def writeRawPatches (rawAttributes : List PCCColor3B) (leftTopY : ℕ) :
    List PCCRawPointsPatch → ℕ → PCCImageAttribute → Option (PCCImageAttribute × ℕ)
  | [], rawPatchOffset, image => some (image, rawPatchOffset)
  | raw :: raws, rawPatchOffset, image => do
    let image ← writePixels rawAttributes rawPatchOffset (raw.pixels leftTopY) image
    writeRawPatches rawAttributes leftTopY raws (rawPatchOffset + raw.numberOfRawPoints) image

def writeEomPatches (params : PackingParams) (eomAttributes : List PCCColor3B)
    (width leftTopY : ℕ) :
    List PCCEomPatch → ℕ → ℕ → PCCImageAttribute → Option PCCImageAttribute
  | [], _, _, image => some image
  | eomPatch :: eomPatches, eomPatchOffset, nPixelInCurrentBlockCount, image => do
    let (pixels, next) ← eomPatch.pixels params.occupancyResolution width leftTopY
      nPixelInCurrentBlockCount
    let image ← writePixels eomAttributes eomPatchOffset pixels image
    writeEomPatches params eomAttributes width leftTopY eomPatches
      (eomPatchOffset + eomPatch.eomCount) next image

/-- An offset other than the number of points breaks an assertion. -/
def generateRawPointsAttributeImage (params : PackingParams) (frame : AuxFrame) (tileIndex : ℕ)
    (tile : AuxTile) (attributes : AuxAttributes) (image : PCCImageAttribute) :
    Option PCCImageAttribute := do
  let raw :=
    if tile.totalNumberOfRawPoints ≠ 0 then
      if params.occupancyResolution = 0 then none
      else do
        let leftTopY ← frame.auxTileLeftTopY[tileIndex]?
        let (image, rawPatchOffset) ← writeRawPatches attributes.rawPointsAttribute leftTopY
          tile.rawPointsPatches 0 image
        if rawPatchOffset = tile.totalNumberOfRawPoints then some image else none
    else some image
  let image ← raw
  if tile.totalNumberOfEOMPoints ≠ 0 then do
    let leftTopY ← frame.auxTileLeftTopY[tileIndex]?
    writeEomPatches params attributes.eomAttribute frame.auxVideoWidth leftTopY tile.eomPatches 0 0
      image
  else some image

/-- The tiles of a frame from an index on. -/
def generateRawPointsAttributeImages (params : PackingParams) (frame : AuxFrame) :
    ℕ → List (AuxTile × AuxAttributes) → PCCImageAttribute → Option PCCImageAttribute
  | _, [], image => some image
  | tileIndex, (tile, attributes) :: tiles, image => do
    let image ← generateRawPointsAttributeImage params frame tileIndex tile attributes image
    generateRawPointsAttributeImages params frame (tileIndex + 1) tiles image

def auxWidthMax (context : List AuxFrame) : ℕ :=
  context.foldl (fun widthMax frame => max widthMax frame.auxVideoWidth) 0

def auxHeightMax (context : List AuxFrame) : ℕ :=
  context.foldl (fun heightMax frame => max heightMax frame.auxVideoHeight) 0

/-- The pictures of all frames have the size of the largest. -/
def generateRawPointsAttributeVideo (params : PackingParams) (context : List AuxFrame)
    (attributes : List (List AuxAttributes)) : Option (List PCCImageAttribute) :=
  (context.zip attributes).mapM fun (frame, attributes) =>
    generateRawPointsAttributeImages params frame 0 (frame.tiles.zip attributes)
      (.resize (auxWidthMax context) (auxHeightMax context))

end PCCEncoder

namespace PCCCodec

/-- The attributes from an offset on, each from its pixel. -/
def readPixels (image : PCCImageAttribute) (offset : ℕ) (pixels : List (ℕ × ℕ))
    (attributes : List PCCColor3B) : Option (List PCCColor3B) :=
  pixels.zipIdx.foldlM (fun attributes (pixel, k) => do
    let color ← image.getColor pixel
    if k + offset < attributes.length then some (attributes.set (k + offset) color)
    else none) attributes

def rawPatchSizes (raw : PCCRawPointsPatch) : PCCRawPointsPatch :=
  { raw with
    sizeV := raw.sizeV0 * raw.occupancyResolution
    sizeU := raw.sizeU0 * raw.occupancyResolution }

def readRawPatches (image : PCCImageAttribute) (leftTopY : ℕ) :
    List PCCRawPointsPatch → ℕ → List PCCColor3B → Option (List PCCColor3B × ℕ)
  | [], rawPatchOffset, rawAttributes => some (rawAttributes, rawPatchOffset)
  | raw :: raws, rawPatchOffset, rawAttributes => do
    let rawAttributes ← readPixels image rawPatchOffset ((rawPatchSizes raw).pixels leftTopY)
      rawAttributes
    readRawPatches image leftTopY raws (rawPatchOffset + raw.numberOfRawPoints) rawAttributes

def readEomPatches (image : PCCImageAttribute) (leftTopY : ℕ) :
    List PCCEomPatch → ℕ → ℕ → List PCCColor3B → Option (List PCCColor3B)
  | [], _, _, eomAttributes => some eomAttributes
  | eomPatch :: eomPatches, eomPatchOffset, nPixelInCurrentBlockCount, eomAttributes => do
    let (pixels, next) ← eomPatch.pixels eomPatch.occupancyResolution image.width leftTopY
      nPixelInCurrentBlockCount
    let eomAttributes ← readPixels image eomPatchOffset pixels eomAttributes
    readEomPatches image leftTopY eomPatches (eomPatchOffset + eomPatch.eomCount) next
      eomAttributes

/-- The attributes of one tile, over those that it had before. -/
def generateRawPointsAttributefromVideo (image : PCCImageAttribute) (frame : AuxFrame)
    (tileIndex : ℕ) (tile : AuxTile) (before : AuxAttributes) : Option AuxAttributes := do
  let rawAttributes := resizeTo before.rawPointsAttribute tile.totalNumberOfRawPoints
  let eomAttributes := resizeTo before.eomAttribute tile.totalNumberOfEOMPoints
  let raw :=
    if tile.totalNumberOfRawPoints ≠ 0 then do
      let leftTopY ← frame.auxTileLeftTopY[tileIndex]?
      let (rawAttributes, rawPatchOffset) ← readRawPatches image leftTopY tile.rawPointsPatches 0
        rawAttributes
      if rawPatchOffset = tile.totalNumberOfRawPoints then some rawAttributes else none
    else some rawAttributes
  let rawAttributes ← raw
  let eom :=
    if tile.totalNumberOfEOMPoints ≠ 0 then do
      let leftTopY ← frame.auxTileLeftTopY[tileIndex]?
      readEomPatches image leftTopY tile.eomPatches 0 0 eomAttributes
    else some eomAttributes
  let eomAttributes ← eom
  some ⟨rawAttributes, eomAttributes⟩

/-- The tiles of a frame from an index on. -/
def generateRawPointsAttributesfromVideo (image : PCCImageAttribute) (frame : AuxFrame) :
    ℕ → List (AuxTile × AuxAttributes) → Option (List AuxAttributes)
  | _, [] => some []
  | tileIndex, (tile, before) :: tiles => do
    let attributes ← generateRawPointsAttributefromVideo image frame tileIndex tile before
    let rest ← generateRawPointsAttributesfromVideo image frame (tileIndex + 1) tiles
    some (attributes :: rest)

/-- The frames one after the other, each from its picture. -/
def generateRawPointsAttributes (context : List AuxFrame) (before : List (List AuxAttributes))
    (video : List PCCImageAttribute) : Option (List (List AuxAttributes)) :=
  (video.zip (context.zip before)).mapM fun (image, frame, before) =>
    generateRawPointsAttributesfromVideo image frame 0 (frame.tiles.zip before)

end PCCCodec

end V3C

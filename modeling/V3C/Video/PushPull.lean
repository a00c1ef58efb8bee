import V3C.Number.WeightedMean
import V3C.Reconstruction.DifferentialMap
import V3C.Video.PCCImage

/-! The push-pull filling of a picture: its background takes colours from a pyramid of pictures of
half the size. -/
namespace V3C
open Cells

/-- A picture with its occupancy map, row by row. -/
structure PushPullLevel where
  image : PCCImageAttribute
  occupancyMap : List ℕ

namespace PCCEncoder

/-- A division by zero has no outcome. -/
def mean4w (p1 w1 p2 w2 p3 w3 p4 w4 : ℕ) : Option ℕ :=
  if w1 + w2 + w3 + w4 = 0 then none
  else some ((p1 * w1 + p2 * w2 + p3 * w3 + p4 * w4) / (w1 + w2 + w3 + w4))

/-- The mean of each channel of four colours with their weights. -/
def meanColor (a b c d : PCCColor16bit × ℕ) : Option PCCColor16bit :=
  forChannels fun cc => (mean4w (a.1 cc).toNat a.2 (b.1 cc).toNat b.2 (c.1 cc).toNat c.2
    (d.1 cc).toNat d.2).map UInt16.ofNat

/-- A value that is kept in an `unsigned char`. -/
def toByteColor (color : PCCColor16bit) : PCCColor16bit :=
  fun cc => UInt16.ofNat ((color cc).toNat % 256)

section Mip

variable (level : PushPullLevel)

def pixelWeight (pixel : ℕ × ℕ) : Option ℕ := do
  let occupancy ← level.occupancyMap[pixel.1 + level.image.width * pixel.2]?
  some (if occupancy = 0 then 0 else 255)

def pixelColor (pixel : ℕ × ℕ) : Option PCCColor16bit :=
  (PCCCodec.colorAt level.image pixel).map toByteColor

/-- The weight of a pixel next to the first one; there is none outside of the picture. -/
def nextWeight (pixel : ℕ × ℕ) : Option ℕ :=
  if level.image.width ≤ pixel.1 ∨ level.image.height ≤ pixel.2 then some 0
  else pixelWeight level pixel

def nextColor (pixel : ℕ × ℕ) : Option PCCColor16bit :=
  if level.image.width ≤ pixel.1 ∨ level.image.height ≤ pixel.2 then some 0
  else pixelColor level pixel

/-- A pixel of the mipmap takes the mean of the occupied pixels that it covers. -/
def pushPullMipPixel (mip : PushPullLevel) (pixel : ℕ × ℕ) : Option PushPullLevel := do
  let xUp := 2 * pixel.1
  let yUp := 2 * pixel.2
  let w1 ← pixelWeight level (xUp, yUp)
  let w2 ← nextWeight level (xUp + 1, yUp)
  let w3 ← nextWeight level (xUp, yUp + 1)
  let w4 ← nextWeight level (xUp + 1, yUp + 1)
  if 0 < w1 + w2 + w3 + w4 then do
    let val1 ← pixelColor level (xUp, yUp)
    let val2 ← nextColor level (xUp + 1, yUp)
    let val3 ← nextColor level (xUp, yUp + 1)
    let val4 ← nextColor level (xUp + 1, yUp + 1)
    let newVal ← meanColor (val1, w1) (val2, w2) (val3, w3) (val4, w4)
    let image ← setColor mip.image pixel newVal
    let occupancyMap ← setAt mip.occupancyMap (pixel.1 + mip.image.width * pixel.2) 1
    some { image, occupancyMap }
  else some mip

def pushPullMip : Option PushPullLevel :=
  let newWidth := (level.image.width + 1) / 2
  let newHeight := (level.image.height + 1) / 2
  (grid newWidth newHeight).foldlM (pushPullMipPixel level)
    { image := PCCImageAttribute.resize newWidth newHeight
      occupancyMap := List.replicate (newWidth * newHeight) 0 }

end Mip

/-- The neighbour of a coordinate on the side of the mipmap that the finer coordinate is on. -/
def fillNeighbor (up size : ℕ) : Option ℕ :=
  let pos := up / 2
  if up % 2 = 0 then if 0 < pos then some (pos - 1) else none
  else if pos + 1 < size then some (pos + 1) else none

/-- A pixel of the mipmap with its weight. A pixel that is not there has the weight zero. -/
def fillColor (mip : PCCImageAttribute) (weight : ℕ) :
    Option ℕ → Option ℕ → Option (PCCColor16bit × ℕ)
  | some x, some y => (PCCCodec.colorAt mip (x, y)).map fun color => (color, weight)
  | _, _ => some (0, 0)

/-- An unoccupied pixel is interpolated from the four nearest pixels of the mipmap. -/
def pushPullFillPixel (mip : PCCImageAttribute) (occupancyMap : List ℕ)
    (image : PCCImageAttribute) (pixel : ℕ × ℕ) : Option PCCImageAttribute := do
  let occupancy ← occupancyMap[pixel.1 + image.width * pixel.2]?
  if occupancy = 0 then do
    let x := pixel.1 / 2
    let y := pixel.2 / 2
    let xSide := fillNeighbor pixel.1 mip.width
    let ySide := fillNeighbor pixel.2 mip.height
    let val ← fillColor mip 144 (some x) (some y)
    let valSide ← fillColor mip 48 xSide (some y)
    let valUpDown ← fillColor mip 48 (some x) ySide
    let valDiagonal ← fillColor mip 16 xSide ySide
    let newVal ← meanColor val valSide valUpDown valDiagonal
    setColor image pixel newVal
  else some image

/-- An unoccupied pixel takes the mean of its eight neighbours, a border pixel also of itself. -/
def smoothPixel (image : PCCImageAttribute) (occupancyMap : List ℕ) (tmpImage : PCCImageAttribute)
    (pixel : ℕ × ℕ) : Option PCCImageAttribute := do
  let occupancy ← occupancyMap[pixel.1 + image.width * pixel.2]?
  if occupancy = 0 then do
    let x := pixel.1
    let y := pixel.2
    let x1 := if 0 < x then x - 1 else x
    let y1 := if 0 < y then y - 1 else y
    let x2 := if x < image.width - 1 then x + 1 else x
    let y2 := if y < image.height - 1 then y + 1 else y
    let colors ← [(x1, y1), (x2, y1), (x1, y2), (x2, y2), (x1, y), (x2, y), (x, y1), (x, y2)].mapM
      (PCCCodec.colorAt image)
    setColor tmpImage pixel fun c =>
      UInt16.ofNat (((colors.map fun color => (color c).toNat).sum + 4) / 8)
  else some tmpImage

/-- The passes; the picture that was read is written in the next one. -/
def smoothPasses (occupancyMap : List ℕ) : ℕ → PCCImageAttribute → PCCImageAttribute →
    Option PCCImageAttribute
  | 0, image, _ => some image
  | n + 1, image, tmpImage => do
    let next ← (grid image.width image.height).foldlM (smoothPixel image occupancyMap) tmpImage
    smoothPasses occupancyMap n next image

/-- A mipmap of another size breaks an assertion. -/
def pushPullFill (level : PushPullLevel) (mip : PCCImageAttribute) (numIters : ℕ) :
    Option PCCImageAttribute :=
  if (level.image.width + 1) / 2 = mip.width ∧ (level.image.height + 1) / 2 = mip.height then do
    let image ← (grid level.image.width level.image.height).foldlM
      (pushPullFillPixel mip level.occupancyMap) level.image
    smoothPasses level.occupancyMap numIters image image
  else none

/-- The pull phase: the mipmaps of a level, until a side has at most four pixels. -/
def pullMips : ℕ → PushPullLevel → Option (List PushPullLevel)
  | 0, _ => none
  | fuel + 1, level => do
    let mip ← pushPullMip level
    if mip.image.width ≤ 4 ∨ mip.image.height ≤ 4 then some [mip]
    else do
      let mips ← pullMips fuel mip
      some (mip :: mips)

/-- The push phase, from the coarsest level on: the filled picture of a level, and the number of
passes for the next one. -/
def pushMips (level : PushPullLevel) : List PushPullLevel → Option (PCCImageAttribute × ℕ)
  | [] => some (level.image, 4)
  | mip :: mips => do
    let (filled, numIters) ← pushMips mip mips
    let image ← pushPullFill level filled numIters
    some (image, min (numIters + 1) 16)

def dilateSmoothedPushPull (fuel : ℕ) (level : PushPullLevel) : Option PCCImageAttribute := do
  let mips ← pullMips fuel level
  let (image, _) ← pushMips level mips
  some image

end PCCEncoder

end V3C

import V3C.Codec.Traverse
import V3C.Packing.AuxiliaryPlacement
import V3C.Reconstruction.DifferentialMap

/-! The padding of a picture: the samples of the occupied pixels of a block spread over it, one wave
of pixels after the other. -/
namespace V3C
open Cells

structure DilationParams where
  occupancyResolution : ℕ
  enhancedOccupancyMapCode : Bool

/-- A picture with the stamps of its pixels, the copy of the occupancy map. -/
structure DilationState where
  image : PCCImageAttribute
  occupancyMapTemp : List ℕ

/-- The state inside a block. At most four samples are added up at a pixel, so that an `int32_t`
holds them. -/
structure DilationBlock extends DilationState where
  values : ℕ × ℕ → Fin 3 → ℕ
  count : ℕ × ℕ → ℕ
  nonZeroPixelCount : ℕ

namespace PCCEncoder

def neighbors : List (ℤ × ℤ) := [(0, -1), (-1, 0), (1, 0), (0, 1)]

section Block

-- the resolution and the corner of a block
variable (params : DilationParams) (u0 v0 : ℕ)

def countOccupied (state : DilationState) : Option ℕ :=
  (grid params.occupancyResolution params.occupancyResolution).foldlM
    (fun nonZeroPixelCount pixel => do
      let occupancy ←
        state.occupancyMapTemp[(v0 + pixel.2) * state.image.width + (u0 + pixel.1)]?
      let occupied := if params.enhancedOccupancyMapCode then decide (0 < occupancy)
        else decide (occupancy = 1)
      some (nonZeroPixelCount + occupied.toNat)) 0

/-- A pixel of the front gives its samples to a neighbour in the block that has none. -/
def spreadTo (pixel : ℕ × ℕ) (block : DilationBlock) (neighbor : ℤ × ℤ) : Option DilationBlock :=
  let x1 : ℤ := (u0 + pixel.1 : ℕ) + neighbor.1
  let y1 : ℤ := (v0 + pixel.2 : ℕ) + neighbor.2
  if (u0 ≤ x1 ∧ x1 < u0 + params.occupancyResolution) ∧
      v0 ≤ y1 ∧ y1 < v0 + params.occupancyResolution then do
    let occupancy ← block.occupancyMapTemp[(y1 * block.image.width + x1).toNat]?
    if occupancy = 0 then do
      let color ← PCCCodec.colorAt block.image (u0 + pixel.1, v0 + pixel.2)
      let target := ((pixel.1 + neighbor.1).toNat, (pixel.2 + neighbor.2).toNat)
      some { block with
        values := Function.update block.values target fun c =>
          block.values target c + (color c).toNat
        count := Function.update block.count target (block.count target + 1) }
    else some block
  else some block

def spread (iteration : ℕ) (block : DilationBlock) (pixel : ℕ × ℕ) : Option DilationBlock := do
  let occupancy ← block.occupancyMapTemp[(v0 + pixel.2) * block.image.width + (u0 + pixel.1)]?
  if occupancy = iteration then neighbors.foldlM (spreadTo params u0 v0 pixel) block
  else some block

/-- A pixel that got samples takes their rounded mean. -/
def settle (iteration : ℕ) (block : DilationBlock) (pixel : ℕ × ℕ) : Option DilationBlock :=
  let c := block.count pixel
  if c ≠ 0 then do
    let occupancyMapTemp ← setAt block.occupancyMapTemp
      ((v0 + pixel.2) * block.image.width + (u0 + pixel.1)) (iteration + 1)
    let image ← setColor block.image (u0 + pixel.1, v0 + pixel.2) fun k =>
      UInt16.ofNat ((block.values pixel k + c / 2) / c)
    some { image, occupancyMapTemp
           values := Function.update block.values pixel 0
           count := Function.update block.count pixel 0
           nonZeroPixelCount := block.nonZeroPixelCount + 1 }
  else some block

def wave (iteration : ℕ) (block : DilationBlock) : Option DilationBlock := do
  let pixels := grid params.occupancyResolution params.occupancyResolution
  let block ← pixels.foldlM (spread params u0 v0 iteration) block
  pixels.foldlM (settle u0 v0 iteration) block

/-- The `while` loop. -/
def waves : ℕ → ℕ → DilationBlock → Option DilationBlock
  | 0, _, _ => none
  | fuel + 1, iteration, block =>
    if block.nonZeroPixelCount < params.occupancyResolution * params.occupancyResolution then do
      let block ← wave params u0 v0 iteration block
      waves fuel (iteration + 1) block
    else some block

/-- Every pixel of the block takes the colour that `source` finds for it. -/
def copyBlock (source : PCCImageAttribute → ℕ × ℕ → Option PCCColor16bit)
    (image : PCCImageAttribute) : Option PCCImageAttribute :=
  (grid params.occupancyResolution params.occupancyResolution).foldlM
    (fun image pixel => do
      let color ← source image (u0 + pixel.1, v0 + pixel.2)
      setColor image (u0 + pixel.1, v0 + pixel.2) color) image

end Block

/-- A block without occupied pixels repeats the reference, or the column to its left or the row
above it. -/
def fillBlock (params : DilationParams) (reference : Option PCCImageAttribute) (block : ℕ × ℕ)
    (image : PCCImageAttribute) : Option PCCImageAttribute :=
  let u0 := block.1 * params.occupancyResolution
  let v0 := block.2 * params.occupancyResolution
  match reference with
  | some reference => copyBlock params u0 v0 (fun _ pixel => PCCCodec.colorAt reference pixel) image
  | none =>
    if 0 < block.1 then
      copyBlock params u0 v0 (fun image pixel => PCCCodec.colorAt image (pixel.1 - 1, pixel.2)) image
    else if 0 < block.2 then
      copyBlock params u0 v0 (fun image pixel => PCCCodec.colorAt image (pixel.1, pixel.2 - 1)) image
    else some image

def dilateBlock (fuel : ℕ) (params : DilationParams) (reference : Option PCCImageAttribute)
    (state : DilationState) (block : ℕ × ℕ) : Option DilationState := do
  let u0 := block.1 * params.occupancyResolution
  let v0 := block.2 * params.occupancyResolution
  let nonZeroPixelCount ← countOccupied params u0 v0 state
  if nonZeroPixelCount = 0 then do
    let image ← fillBlock params reference block state.image
    some { state with image }
  else do
    let block ← waves params u0 v0 fuel 1
      { state with values := fun _ _ => 0, count := fun _ => 0, nonZeroPixelCount }
    some block.toDilationState

/-- `PCCEncoder::dilate`, with fuel for each block. The arrays of a block have 64 rows. -/
def dilate (fuel : ℕ) (params : DilationParams) (occupancyMap : List ℕ) (image : PCCImageAttribute)
    (reference : Option PCCImageAttribute) : Option PCCImageAttribute :=
  if params.occupancyResolution = 0 ∨ 64 < params.occupancyResolution then none
  else do
    let state ← (grid (image.width / params.occupancyResolution)
      (image.height / params.occupancyResolution)).foldlM (dilateBlock fuel params reference)
      ⟨image, occupancyMap⟩
    some state.image

end PCCEncoder

end V3C

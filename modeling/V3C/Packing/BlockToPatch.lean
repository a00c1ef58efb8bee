import V3C.Packing.PackFlexible

/-! The patch of each block of a tile, from the occupancy video. -/
namespace V3C

/-- A tile in its frame. The sizes have type `size_t`. -/
structure TileArea where
  leftTopX : ℕ
  leftTopY : ℕ
  width : ℕ
  height : ℕ
  width_lt : width < 2 ^ 64
  height_lt : height < 2 ^ 64

namespace PatchPlacement

/-- `x` and `y` of a pixel. -/
def pixelPosition (patch : PatchPlacement) (occupancyResolution u v : ℕ) : Option (ℕ × ℕ) :=
  let left : ℤ := patch.u0 * occupancyResolution
  let top : ℤ := patch.v0 * occupancyResolution
  let width : ℤ := patch.sizeU0 * occupancyResolution
  let height : ℤ := patch.sizeV0 * occupancyResolution
  match patch.patchOrientation with
  | .default => some (toSizeT (u + left), toSizeT (v + top))
  | .rot90 => some (toSizeT (height - 1 - v + left), toSizeT (u + top))
  | .rot180 => some (toSizeT (width - 1 - u + left), toSizeT (height - 1 - v + top))
  | .rot270 => some (toSizeT (v + left), toSizeT (width - 1 - u + top))
  | .mirror => some (toSizeT (width - 1 - u + left), toSizeT (v + top))
  | .mrot90 => some (toSizeT (height - 1 - v + left), toSizeT (width - 1 - u + top))
  | .mrot180 => some (toSizeT (u + left), toSizeT (height - 1 - v + top))
  | .mrot270 => some (toSizeT (v + left), toSizeT (u + top))
  | .swap => some (toSizeT (v + left), toSizeT (u + top))
  | .other _ => none

/-- The program exits on a pixel off the canvas. -/
def patch2Canvas (patch : PatchPlacement) (occupancyResolution u v canvasStride canvasHeight : ℕ) :
    Option (ℕ × ℕ) := do
  let (x, y) ← patch.pixelPosition occupancyResolution u v
  if x ≥ canvasStride ∨ y ≥ canvasHeight then none else some (x, y)

end PatchPlacement

section

variable (area : TileArea) (occupancyResolution occupancyPrecision : ℕ)
  (occupancyMapImage : ℕ → ℕ → ℕ)

namespace PCCCodec

/-- The number of occupied samples of a block of a patch. -/
def nonZeroPixel (patch : PatchPlacement) (block : ℕ × ℕ) : Option ℕ := do
  if occupancyPrecision = 0 then none
  else
    let samples ← (grid occupancyResolution occupancyResolution).mapM fun (u1, v1) => do
      let (x, y) ← patch.patch2Canvas occupancyResolution (block.1 * occupancyResolution + u1)
        (block.2 * occupancyResolution + v1) area.width area.height
      some (occupancyMapImage ((x + area.leftTopX) / occupancyPrecision)
        ((y + area.leftTopY) / occupancyPrecision))
    some (samples.countP fun sample => sample != 0)

def assignBlock (patch : PatchPlacement) (patchIndex : ℕ) (blockToPatch : List ℕ)
    (block : ℕ × ℕ) : Option (List ℕ) := do
  let blockIndex ← patch.patchBlock2CanvasBlock block.1 block.2
    (area.width / occupancyResolution) (area.height / occupancyResolution)
  let nonZero ← nonZeroPixel area occupancyResolution occupancyPrecision occupancyMapImage patch
    block
  if nonZero > 0 then
    if blockIndex < 0 then none
    else some (blockToPatch.set blockIndex.toNat (patchIndex + 1))
  else some blockToPatch

def assignPatch (blockToPatch : List ℕ) (patch : PatchPlacement × ℕ) : Option (List ℕ) :=
  patch.1.blocks.foldlM (assignBlock area occupancyResolution occupancyPrecision
    occupancyMapImage patch.1 patch.2) blockToPatch

def generateBlockToPatchFromOccupancyMapVideo (patches : List PatchPlacement) :
    Option (List ℕ) :=
  if occupancyResolution = 0 then none
  else
    patches.zipIdx.foldlM (assignPatch area occupancyResolution occupancyPrecision
      occupancyMapImage)
      (List.replicate (area.width / occupancyResolution * (area.height / occupancyResolution)) 0)

end PCCCodec

end

namespace PCCEncoder

def reverseOrderPatchList (prevPatchCount : ℕ) (patches : List PackingPatch) :
    List PackingPatch :=
  patches.reverse.map fun patch =>
    if patch.bestMatchIdx = -1 then patch
    else { patch with bestMatchIdx := prevPatchCount - patch.bestMatchIdx - 1 }

def transmittedPatches (patchPrecedenceOrderFlag : Bool) (prevPatchCount : ℕ)
    (patches : List PackingPatch) : List PackingPatch :=
  if patchPrecedenceOrderFlag then reverseOrderPatchList prevPatchCount patches else patches

end PCCEncoder

end V3C

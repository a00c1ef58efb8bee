import V3C.Reconstruction.DepthExtraction
import V3C.Reconstruction.NeighborDepth

/-! The filter of the patch borders: each patch gets a local map with a margin, its border points go
to the patches nearby, and passes over the local map take pixels off the border. -/
namespace V3C
open Cells

/-- A read at an index of type `int`. -/
def intAt {α : Type} (l : List α) (i : ℤ) : Option α := if i < 0 then none else l[i.toNat]?

/-- `point[axis]`. -/
def PCCPoint3D.axis (point : PCCPoint3D) (axis : ℕ) : Option ℤ :=
  match axis with
  | 0 => some point.x
  | 1 => some point.y
  | 2 => some point.z
  | _ => none

structure PCCInt16Box3D where
  min : PCCPoint3D
  max : PCCPoint3D

namespace PCCInt16Box3D

/-- The box before the first point is added. -/
def empty : PCCInt16Box3D := ⟨⟨32767, 32767, 32767⟩, ⟨-32768, -32768, -32768⟩⟩

def add (box : PCCInt16Box3D) (point : PCCPoint3D) : PCCInt16Box3D where
  min := ⟨Min.min box.min.x point.x, Min.min box.min.y point.y, Min.min box.min.z point.z⟩
  max := ⟨Max.max box.max.x point.x, Max.max box.max.y point.y, Max.max box.max.z point.z⟩

def contains (box : PCCInt16Box3D) (point : PCCPoint3D) : Bool :=
  !decide (point.x < box.min.x ∨ point.x > box.max.x ∨ point.y < box.min.y ∨ point.y > box.max.y ∨
    point.z < box.min.z ∨ point.z > box.max.z)

def intersects (box other : PCCInt16Box3D) : Bool :=
  decide (box.max.x ≥ other.min.x ∧ box.min.x ≤ other.max.x ∧ box.max.y ≥ other.min.y ∧
    box.min.y ≤ other.max.y ∧ box.max.z ≥ other.min.z ∧ box.min.z ≤ other.max.z)

/-- `boundingBox.min_ -= PCCPoint3D( 8 )` and `boundingBox.max_ += PCCPoint3D( 8 )`. -/
def widened (box : PCCInt16Box3D) : PCCInt16Box3D where
  min := ⟨toInt16 (box.min.x - 8), toInt16 (box.min.y - 8), toInt16 (box.min.z - 8)⟩
  max := ⟨toInt16 (box.max.x + 8), toInt16 (box.max.y + 8), toInt16 (box.max.z + 8)⟩

end PCCInt16Box3D

/-- A patch with the data that the filter keeps in it. -/
structure LocalPatch extends CanvasPatch where
  indexCopy : ℕ
  border : ℕ
  depthMapWidth : ℕ
  depthMapHeight : ℕ
  depthMap : List ℤ
  occupancyMap : List ℕ
  boundingBox : PCCInt16Box3D := .empty
  borderPoints : List PCCPoint3D := []
  neighboringPatches : List ℕ := []

/-- The pictures that the filter reads, with the sizes that it takes them to have. -/
structure FilterInput where
  occupancyMapVideo : List ℕ
  geometryVideo : List ℕ
  blockToPatch : List ℕ
  width : ℕ
  height : ℕ
  occupancyPrecision : ℕ
  threshold : ℕ

/-- A side of the local map, an `int16_t`. A map with a negative one is not allocated. -/
def localSide (side border : ℕ) : Option ℕ :=
  if toInt16 (side + 2 * border : ℕ) < 0 then none
  else some (toInt16 (side + 2 * border : ℕ)).toNat

section LocalData

variable (input : FilterInput) (patch : CanvasPatch) (border depthMapWidth : ℕ)

/-- A square of the occupancy picture, copied to the local maps of the patch if it is occupied. -/
def setLocalCell (block : ℕ × ℕ) (maps : List ℤ × List ℕ) (cell : ℕ × ℕ) :
    Option (List ℤ × List ℕ) := do
  let precision := input.occupancyPrecision
  let shiftPrecision := if precision = 1 then 0 else if precision = 2 then 1
    else if precision = 4 then 2 else 3
  let u2 := block.1 * patch.occupancyResolution + cell.1 * precision
  let v2 := block.2 * patch.occupancyResolution + cell.2 * precision
  let (x, y) ← patch.patch2Canvas patch.occupancyResolution u2 v2 input.width input.height
  let occupied ← input.occupancyMapVideo[
    (y >>> shiftPrecision) * (input.width / precision) + (x >>> shiftPrecision)]?
  if occupied > input.threshold then do
    let start := border + depthMapWidth * border
    let depthMap ← patch.setDepthFromGeometryVideo input.geometryVideo u2 v2 input.width precision
      depthMapWidth start maps.1
    let occupancyMap ← (grid precision precision).foldlM (fun ocm pixel =>
      setAt ocm (start + (v2 + pixel.2) * depthMapWidth + (u2 + pixel.1)) 1) maps.2
    some (depthMap, occupancyMap)
  else some maps

def setLocalBlock (patchIndex : ℕ) (maps : List ℤ × List ℕ) (block : ℕ × ℕ) :
    Option (List ℤ × List ℕ) := do
  let blockIndex ← patch.patchBlock2CanvasBlock block.1 block.2
    (input.width / patch.occupancyResolution) (input.height / patch.occupancyResolution)
  let owner ← intAt input.blockToPatch blockIndex
  let count := patch.occupancyResolution / input.occupancyPrecision
  if owner = patchIndex + 1 then
    (grid count count).foldlM (setLocalCell input patch border depthMapWidth block) maps
  else some maps

end LocalData

/-- The local maps of a patch, whose maps are empty before. -/
def CanvasPatch.setLocalData (patch : CanvasPatch) (input : FilterInput) (patchIndex : ℕ) :
    Option LocalPatch := do
  let border := if input.occupancyPrecision ≥ 8 then 16 else 8
  let depthMapWidth ← localSide patch.width border
  let depthMapHeight ← localSide patch.height border
  let size := depthMapWidth * depthMapHeight
  let (depthMap, occupancyMap) ← patch.blocks.foldlM
    (setLocalBlock input patch border depthMapWidth patchIndex)
    (List.replicate size 0, List.replicate size 0)
  some { patch with
    indexCopy := patchIndex, border, depthMapWidth, depthMapHeight, depthMap, occupancyMap }

/-- The pixels around a pixel of a local map that make it a border point where they are empty. -/
def borderPixels (c w : ℕ) : List ℕ :=
  [c - 1, c + 1, c - w, c + w, c - 2, c + 2, c - 2 * w, c + 2 * w, c + w - 1, c + w + 1, c - w - 1,
    c - w + 1]

namespace LocalPatch

variable (patch : LocalPatch)

def isBorderPixel (c : ℕ) : Option Bool := do
  let occupied ← patch.occupancyMap[c]?
  if occupied = 0 then some false
  else (borderPixels c patch.depthMapWidth).anyM fun i =>
    (patch.occupancyMap[i]?).map fun occupied => occupied == 0

def addBorderPoint (patch : LocalPatch) (pixel : ℕ × ℕ) : Option LocalPatch := do
  let border := patch.border
  let c := border + border * patch.depthMapWidth + pixel.2 * (patch.width + 2 * border) + pixel.1
  if ← patch.isBorderPixel c then do
    let depth ← patch.depthMap[border + (pixel.2 + border) * patch.depthMapWidth + pixel.1]?
    let point ← patch.generatePoint pixel.1 pixel.2 (toUInt16 depth)
    some { patch with
      borderPoints := patch.borderPoints ++ [point], boundingBox := patch.boundingBox.add point }
  else some patch

def generateBorderPoints3D : Option LocalPatch :=
  (grid patch.width patch.height).foldlM addBorderPoint
    { patch with boundingBox := .empty, borderPoints := [] }

/-- The patches nearby. -/
def neighbors (patches : List LocalPatch) : List ℕ :=
  (patches.filter fun other => patch.indexCopy ≠ other.indexCopy ∧
    patch.boundingBox.intersects other.boundingBox).map indexCopy

end LocalPatch

/-- The loops of `patchBorderFiltering` before the filter. -/
def preparePatches (input : FilterInput) (patches : List CanvasPatch) :
    Option (List LocalPatch) := do
  let locals ← patches.zipIdx.mapM fun (patch, patchIndex) => do
    let patch ← patch.setLocalData input patchIndex
    patch.generateBorderPoints3D
  some (locals.map fun patch => { patch with neighboringPatches := patch.neighbors locals })

def g_orientation : List ℕ := [
  0, 0, 6, 0, 0, 0, 0, 6, 4, 0, 0, 5, 0, 0, 0, 5, 0, 0, 0, 0, 0, 0, 7, 7, 0, 0, 0, 0, 0, 0, 0, 6,
  0, 0, 0, 0, 0, 0, 0, 0, 0, 4, 0, 5, 0, 0, 0, 5, 0, 0, 0, 0, 0, 0, 7, 0, 0, 0, 0, 0, 0, 0, 0, 5,
  2, 0, 0, 0, 0, 0, 0, 0, 0, 0, 0, 0, 0, 0, 0, 0, 0, 0, 0, 0, 0, 0, 0, 0, 0, 0, 0, 0, 0, 0, 0, 0,
  0, 0, 0, 0, 0, 0, 0, 0, 3, 3, 0, 4, 3, 0, 0, 5, 0, 0, 0, 0, 0, 0, 0, 0, 0, 0, 0, 0, 0, 0, 0, 0,
  0, 0, 0, 0, 0, 0, 0, 0, 0, 0, 0, 5, 0, 0, 0, 0, 0, 0, 0, 0, 0, 0, 7, 7, 0, 0, 0, 0, 0, 0, 0, 7,
  0, 0, 0, 0, 0, 0, 0, 0, 0, 0, 0, 0, 0, 0, 0, 0, 0, 0, 0, 0, 0, 0, 0, 0, 0, 0, 0, 0, 0, 0, 0, 6,
  0, 0, 0, 0, 0, 0, 0, 0, 0, 0, 0, 0, 0, 0, 0, 0, 1, 1, 0, 0, 1, 0, 0, 7, 0, 0, 0, 0, 0, 0, 0, 0,
  2, 0, 0, 0, 0, 0, 0, 0, 3, 3, 0, 3, 0, 0, 0, 4, 1, 0, 0, 0, 1, 0, 1, 0, 2, 3, 0, 0, 1, 2, 0, 0]

def g_dilate : List (ℤ × ℤ) :=
  [(1, 0), (1, 1), (0, 1), (-1, 1), (-1, 0), (-1, -1), (0, -1), (1, -1)]


/-- The sums of distances, taken in single precision. -/
structure DistanceSums (φ : Type) where
  zero : φ
  /-- `sum += sqrt( n )` -/
  addSqrt : φ → ℤ → φ
  /-- `lhs >= rhs` -/
  ge : φ → φ → Bool

namespace LocalPatch

variable (patch : LocalPatch)

def generateDepth (point : PCCPoint3D) : Option ℤ := do
  let normal ← point.axis patch.normalAxis
  some (toInt16 (if patch.projectionMode = 0 then normal - patch.d1 else patch.d1 - normal))

/-- The depth of a border point of another patch, kept where it is the nearest. -/
def takeNeighbor (threshold : ℤ) (neighborDepth : List ℤ) (point : PCCPoint3D) :
    Option (List ℤ) :=
  if patch.boundingBox.widened.contains point then do
    let d ← patch.generateDepth point
    let v ← point.axis patch.bitangentAxis
    let u ← point.axis patch.tangentAxis
    let shift := (-(patch.v1 : ℤ) + patch.border) * patch.depthMapWidth - patch.u1 + patch.border
    let c := shift + v * patch.depthMapWidth + u
    let depth ← intAt patch.depthMap c
    if |d - depth| ≤ threshold then do
      let nearest ← intAt neighborDepth c
      if |d - depth| < |nearest - depth| then setAt neighborDepth c.toNat d else some neighborDepth
    else some neighborDepth
  else some neighborDepth

/-- The depths of the border points of the patches nearby; where there is none it is undefined. -/
def neighborDepths (patches : List LocalPatch) (threshold : ℤ) : Option (List ℤ) :=
  patch.neighboringPatches.foldlM (fun neighborDepth i => do
      let other ← patches[i]?
      other.borderPoints.foldlM (patch.takeNeighbor threshold) neighborDepth)
    (List.replicate (patch.depthMapWidth * patch.depthMapHeight) 32767)

section Window

variable {φ : Type} (sums : DistanceSums φ) (filterSize : ℤ) (neighborDepth : List ℤ) (c : ℕ)
  (dX dY : ℤ × ℤ)

/-- The number of border points in the window and the sums of their distances to the pixel off the
border and to the pixel. -/
def windowSums : Option (ℕ × φ × φ) := do
  let shiftX := dX.1 + dX.2 * patch.depthMapWidth
  let shiftY := dY.1 + dY.2 * patch.depthMapWidth
  let dE ← intAt patch.depthMap (c - shiftX)
  let dP ← patch.depthMap[c]?
  let window := (intRange (-filterSize) filterSize).flatMap fun dx =>
    (intRange (-(filterSize / 2)) (filterSize / 2)).map fun dy => (dx, dy)
  window.foldlM (fun (count, sumE, sumP) (dx, dy) => do
      let depth ← intAt neighborDepth (c + dx * shiftX + dy * shiftY)
      let du := dx * dX.1 + dy * dY.1
      let dv := dx * dX.2 + dy * dY.2
      if depth ≠ 32767 then
        some (count + 1,
          sums.addSqrt sumE (Int.bmod ((du + dX.1) * (du + dX.1) + (dv + dX.2) * (dv + dX.2) +
            (depth - dE) * (depth - dE)) (2 ^ 32)),
          sums.addSqrt sumP (Int.bmod (du * du + dv * dv + (depth - dP) * (depth - dP)) (2 ^ 32)))
      else some (count, sumE, sumP))
    (0, sums.zero, sums.zero)

end Window

/-- `ORIENTATION( src, c, depthMapWidth_ )` -/
def orientationOf (src : List ℕ) (c w : ℕ) : Option ℕ := do
  let tl ← src[c - w - 1]?
  let t ← src[c - w]?
  let tr ← src[c - w + 1]?
  let l ← src[c - 1]?
  let r ← src[c + 1]?
  let bl ← src[c + w - 1]?
  let b ← src[c + w]?
  let br ← src[c + w + 1]?
  g_orientation[tl <<< 7 ||| t <<< 6 ||| tr <<< 5 ||| l <<< 4 ||| r <<< 3 ||| bl <<< 2 |||
    b <<< 1 ||| br]?

section Passes

variable {φ : Type} (sums : DistanceSums φ) (filterSize : ℤ) (neighborDepth : List ℤ)

/-- The value of a pixel after a pass. -/
def filterPixel (src : List ℕ) (c : ℕ) : Option ℕ := do
  let w := patch.depthMapWidth
  let occupied ← src[c]?
  if occupied = 0 then some 0
  else do
    let l ← src[c - 1]?
    let r ← src[c + 1]?
    let t ← src[c - w]?
    let b ← src[c + w]?
    let numNeighbor := l + r + t + b
    if numNeighbor = 0 then some 0
    else if numNeighbor = 4 then some 1
    else do
      let orX ← orientationOf src c w
      let orY := (orX + 2) % 8
      let dX ← g_dilate[orX]?
      let dY ← g_dilate[orY]?
      let (count, sumE, sumP) ← patch.windowSums sums filterSize neighborDepth c dX dY
      some (if count = 0 ∨ sums.ge sumE sumP = true then 1 else 0)

/-- The place of a pixel in the local maps. -/
def pixelIndex (pixel : ℕ × ℕ) : ℕ :=
  patch.border * patch.depthMapWidth + patch.border +
    pixel.2 * ((toInt16 patch.width).toNat + 2 * patch.border) + pixel.1

/-- A pass over the pixels of the patch. -/
def filterPass (src dst : List ℕ) : Option (List ℕ) :=
  (grid (toInt16 patch.width).toNat (toInt16 patch.height).toNat).foldlM (fun dst pixel => do
      let occupied ← patch.filterPixel sums filterSize neighborDepth src (patch.pixelIndex pixel)
      setAt dst (patch.pixelIndex pixel) occupied)
    dst

/-- The passes, from the occupancy map to the new one and back. -/
def filterPasses (passesCount : ℕ) : Option (List ℕ × List ℕ) :=
  (List.range passesCount).foldlM (fun (occupancyMap, newOccupancyMap) iter =>
      if iter % 2 = 0 then do
        let newOccupancyMap ← patch.filterPass sums filterSize neighborDepth occupancyMap
          newOccupancyMap
        some (occupancyMap, newOccupancyMap)
      else do
        let occupancyMap ← patch.filterPass sums filterSize neighborDepth newOccupancyMap
          occupancyMap
        some (occupancyMap, newOccupancyMap))
    (patch.occupancyMap, List.replicate (patch.depthMapWidth * patch.depthMapHeight) 0)

end Passes

/-- The occupancy map of a patch after the filter. -/
def filtering {φ : Type} (sums : DistanceSums φ) (passesCount : ℕ) (filterSize log2Threshold : ℤ)
    (patches : List LocalPatch) : Option (List ℕ) := do
  let neighborDepth ← patch.neighborDepths patches (toInt16 (log2Threshold * log2Threshold))
  let (occupancyMap, newOccupancyMap) ←
    patch.filterPasses sums filterSize neighborDepth passesCount
  some (if passesCount % 2 = 1 then newOccupancyMap else occupancyMap)

end LocalPatch

/-- The filter of the patches in an order. -/
def filterInOrder {φ : Type} (sums : DistanceSums φ) (passesCount : ℕ)
    (filterSize log2Threshold : ℤ) (order : List ℕ) (patches : List LocalPatch) :
    Option (List LocalPatch) :=
  order.foldlM (fun patches i => do
      let patch ← patches[i]?
      let occupancyMap ← patch.filtering sums passesCount filterSize log2Threshold patches
      setAt patches i { patch with occupancyMap })
    patches

def patchBorderFiltering {φ : Type} (sums : DistanceSums φ) (input : FilterInput)
    (passesCount : ℕ) (filterSize log2Threshold : ℤ) (patches : List CanvasPatch) :
    Option (List LocalPatch) := do
  let locals ← preparePatches input patches
  filterInOrder sums passesCount filterSize log2Threshold (List.range locals.length) locals

end V3C

import V3C.Codec.Traverse
import V3C.Common.Integer
import V3C.Reconstruction.GeneratePointCloud

/-! The smoothing of a point cloud over a grid: the cells that the boundary points mark, the
centroids of the marked cells, and the eight cells that a boundary point is filtered with. -/
namespace V3C

/-- A point of the reconstructed cloud, with what the smoothing reads of it. -/
structure SmoothingPoint where
  point : PCCPoint3D
  boundaryPointType : ℕ
  partition : ℕ
  pointPatchIndex : ℕ × ℕ
  color16bit : ℕ × ℕ × ℕ

/-- A grid of `w` cells along each axis, and the bound of the coordinates that are smoothed. -/
structure SmoothingGrid where
  gridSize : ℕ
  w : ℕ
  bound : ℤ

def PCCPoint3D.map (f : ℤ → ℤ) (P : PCCPoint3D) : PCCPoint3D := ⟨f P.x, f P.y, f P.z⟩

def PCCPoint3D.All (p : ℤ → Prop) (P : PCCPoint3D) : Prop := p P.x ∧ p P.y ∧ p P.z

instance (p : ℤ → Prop) [DecidablePred p] (P : PCCPoint3D) : Decidable (P.All p) :=
  inferInstanceAs (Decidable (_ ∧ _ ∧ _))

/-- The index of a cell in a grid of `w` cells along each axis. -/
def cellId (w : ℕ) (cell : PCCPoint3D) : ℤ := cell.x + cell.y * w + cell.z * w * w

/-- The eight cells above a corner, in the order of the pass that marks them. -/
def markedOctet (Q : PCCPoint3D) : List PCCPoint3D :=
  [0, 1].flatMap fun ix => [0, 1].flatMap fun iy => [0, 1].map fun iz =>
    ⟨Q.x + ix, Q.y + iy, Q.z + iz⟩

/-- The eight cells above a corner, in the order of the filter. -/
def readOctet (S : PCCPoint3D) : List PCCPoint3D :=
  [0, 1].flatMap fun dz => [0, 1].flatMap fun dy => [0, 1].map fun dx =>
    ⟨S.x + dx, S.y + dy, S.z + dz⟩

namespace SmoothingGrid

variable (grid : SmoothingGrid)

def disth : ℕ := max (grid.gridSize / 2) 1

/-- The points near the border are not smoothed. -/
def Skips (P : PCCPoint3D) : Prop :=
  P.x < grid.disth ∨ P.y < grid.disth ∨ P.z < grid.disth ∨ grid.bound ≤ P.x + grid.disth ∨
    grid.bound ≤ P.y + grid.disth ∨ grid.bound ≤ P.z + grid.disth

instance (P : PCCPoint3D) : Decidable (grid.Skips P) :=
  inferInstanceAs (Decidable (_ ∨ _ ∨ _ ∨ _ ∨ _ ∨ _))

/-- The boundary points that are smoothed. -/
def Reads (p : SmoothingPoint) : Prop := p.boundaryPointType = 1 ∧ ¬grid.Skips p.point

instance (p : SmoothingPoint) : Decidable (grid.Reads p) := inferInstanceAs (Decidable (_ ∧ _))

def cell (P : PCCPoint3D) : PCCPoint3D := P.map fun a => a / grid.gridSize

/-- The lower corner `Q` of the cells that a boundary point marks. -/
def markedCorner (P : PCCPoint3D) : PCCPoint3D := P.map fun a =>
  a / grid.gridSize + if a % grid.gridSize < (grid.gridSize / 2 : ℕ) then -1 else 0

/-- The lower corner `S` of the cells that a boundary point is filtered with. -/
def readCorner (P : PCCPoint3D) : PCCPoint3D := P.map fun a =>
  a / grid.gridSize +
    if a - a / grid.gridSize * grid.gridSize < (grid.gridSize / 2 : ℕ) then -1 else 0

/-- The weight `W` of the upper cells along an axis. -/
def upperWeight (a s : ℤ) : ℤ := (a - s * grid.gridSize - (grid.gridSize / 2 : ℕ)) * 2 + 1

/-- The weights of the lower and of the upper cells along an axis. -/
def axisWeights (a s : ℤ) : List ℤ :=
  [2 * grid.gridSize - grid.upperWeight a s, grid.upperWeight a s]

/-- The weights of the eight cells, in the order of the filter. -/
def weights (P : PCCPoint3D) : List ℤ :=
  let S := grid.readCorner P
  (grid.axisWeights P.z S.z).flatMap fun c => (grid.axisWeights P.y S.y).flatMap fun b =>
    (grid.axisWeights P.x S.x).map fun a => a * b * c

end SmoothingGrid

/-- The numbers of the marked cells, by the index of the cell. A cell that is not marked has the
number -1 in the source. -/
structure BoundaryCells where
  cellIndex : List (Option ℕ)
  numBoundaryCells : ℕ

def BoundaryCells.entry (cells : BoundaryCells) (cellId : ℤ) : Option (Option ℕ) :=
  if cellId < 0 then none else cells.cellIndex[cellId.toNat]?

def BoundaryCells.mark (cells : BoundaryCells) (cellId : ℤ) : Option BoundaryCells :=
  match cells.entry cellId with
  | none => none
  | some (some _) => some cells
  | some none => some
      { cellIndex := cells.cellIndex.set cellId.toNat (some cells.numBoundaryCells)
        numBoundaryCells := cells.numBoundaryCells + 1 }

/-- The indices that the first pass computes, in the order of its loops. -/
def SmoothingGrid.markedIds (grid : SmoothingGrid) (points : List SmoothingPoint) : List ℤ :=
  points.flatMap fun p =>
    if grid.Reads p then (markedOctet (grid.markedCorner p.point)).map (cellId grid.w) else []

/-- The first pass. -/
def SmoothingGrid.markBoundaryCells (grid : SmoothingGrid) (points : List SmoothingPoint) :
    Option BoundaryCells :=
  (grid.markedIds points).foldlM BoundaryCells.mark
    { cellIndex := List.replicate (grid.w * grid.w * grid.w) none, numBoundaryCells := 0 }

/-- The points of a marked cell. The count is a `uint16_t`, the centre is the sum of the values
since the count was zero, and `lum` has the values of all points. -/
structure GridCell (ι α : Type) where
  count : ℕ
  partition : Option ι
  doSmooth : Bool
  center : List α
  lum : List α

section Centroids

variable {ι α : Type} [DecidableEq ι]

def GridCell.empty : GridCell ι α := ⟨0, none, false, [], []⟩

/-- `addGridCentroid` and `addGridColorCentroid`. -/
def GridCell.addGridCentroid (cell : GridCell ι α) (partition : ι) (value : α) : GridCell ι α :=
  if cell.count = 0 then
    { count := 1, partition := some partition, doSmooth := false, center := [value]
      lum := cell.lum ++ [value] }
  else
    { cell with
      count := (cell.count + 1) % 65536
      doSmooth := cell.doSmooth || decide (cell.partition ≠ some partition)
      center := cell.center ++ [value]
      lum := cell.lum ++ [value] }

def addToCell (cells : BoundaryCells) (cellId : ℤ) (partition : ι) (value : α)
    (counts : List (GridCell ι α)) : Option (List (GridCell ι α)) :=
  match cells.entry cellId with
  | none => none
  | some none => some counts
  | some (some index) => (counts[index]?).map fun cell =>
      counts.set index (cell.addGridCentroid partition value)

omit [DecidableEq ι] in
/-- The eight cells that a boundary point is filtered with, with their indices. -/
def eightCells (cells : BoundaryCells) (counts : List (GridCell ι α)) (w : ℕ) (S : PCCPoint3D) :
    Option (List (ℤ × GridCell ι α)) :=
  (readOctet S).mapM fun cell => do
    let index ← (cells.entry (cellId w cell)).join
    let near ← counts[index]?
    some (cellId w cell, near)

omit [DecidableEq ι] in
def otherClusterPointCount (near : List (ℤ × GridCell ι α)) : Bool :=
  near.any fun near => near.2.doSmooth && decide (near.2.count ≠ 0)

end Centroids

/-- The largest coordinate of the bounding box. -/
def maxSize : List SmoothingPoint → ℤ
  | [] => 0
  | first :: points =>
    let max_ : PCCPoint3D := points.foldl
      (fun max_ p => ⟨max max_.x p.point.x, max max_.y p.point.y, max max_.z p.point.z⟩) first.point
    max (max max_.x max_.y) max_.z

def gridWidth (gridSize : ℕ) (points : List SmoothingPoint) : ℕ :=
  ((maxSize points + gridSize - 1) / gridSize).toNat

def geometryGrid (gridSize w : ℕ) : SmoothingGrid :=
  { gridSize, w, bound := (gridSize * w : ℕ) }

/-- The sum and the division of the centres of the cells is in floating point: the parameter gives
the new position of a point that is moved. -/
abbrev MovePoint := PCCPoint3D → List (Option (GridCell ℕ PCCPoint3D)) → List ℤ → ℤ →
  Option PCCPoint3D

/-- `gridFiltering`, and what is done with the centroid. -/
def gridFiltering (move : MovePoint) (cells : BoundaryCells)
    (counts : List (GridCell ℕ PCCPoint3D)) (gridSize gridWidth : ℕ) (p : SmoothingPoint) :
    Option SmoothingPoint := do
  let grid := geometryGrid gridSize gridWidth
  let near ← eightCells cells counts gridWidth (grid.readCorner p.point)
  if otherClusterPointCount near then
    let centroid3 := near.zipIdx.map fun near =>
      if near.2 = 0 ∨ near.1.1 < ((gridWidth * gridWidth * gridWidth : ℕ) : ℤ) then some near.1.2
      else none
    let weights := grid.weights p.point
    let count := (List.zipWith (fun weight near => weight * (near.2.count : ℤ)) weights near).sum
    match move p.point centroid3 weights (count / (2 * gridSize) ^ 3) with
    | some point => some { p with point, boundaryPointType := 3 }
    | none => some p
  else some p

/-- A step changes the point that it reads only. -/
def smoothPointCloudGrid (move : MovePoint) (gridSize gridWidth : ℕ) (cells : BoundaryCells)
    (counts : List (GridCell ℕ PCCPoint3D)) (points : List SmoothingPoint) :
    Option (List SmoothingPoint) :=
  points.mapM fun p =>
    if (geometryGrid gridSize gridWidth).Reads p then
      gridFiltering move cells counts (toUInt8 gridSize) gridWidth p
    else some p

/-- The grid smoothing of `smoothPointCloudPostprocess`. -/
def smoothPointCloudPostprocess (move : MovePoint) (gridSize : ℕ) (points : List SmoothingPoint) :
    Option (List SmoothingPoint) :=
  if points = [] then some points
  else do
    let w := gridWidth gridSize points
    let grid := geometryGrid gridSize w
    let cells ← grid.markBoundaryCells points
    let counts ← points.foldlM
      (fun counts p =>
        if grid.Skips p.point then some counts
        else addToCell cells (cellId w (grid.cell p.point)) (p.partition + 1) p.point counts)
      (List.replicate cells.numBoundaryCells GridCell.empty)
    smoothPointCloudGrid move gridSize (toUInt16 w) cells counts points

/-- The grid of the colour smoothing. -/
def colorGrid (gridSize geometryBitDepth3D : ℕ) : SmoothingGrid :=
  { gridSize, w := 2 ^ geometryBitDepth3D / gridSize, bound := (2 ^ geometryBitDepth3D : ℕ) }

/-- The floating-point part of `gridFilteringColor`, which gives the new colour of a point. -/
abbrev Recolor := (ℕ × ℕ × ℕ) → List (GridCell (ℕ × ℕ) (ℕ × ℕ × ℕ)) → List ℤ → ℕ × ℕ × ℕ

/-- `gridFilteringColor`, and what is done with the centroid. -/
def gridFilteringColor (recolor : Recolor) (cells : BoundaryCells)
    (counts : List (GridCell (ℕ × ℕ) (ℕ × ℕ × ℕ))) (gridSize geometryBitDepth3D : ℕ)
    (p : SmoothingPoint) : Option SmoothingPoint :=
  if gridSize = 0 then none
  else do
    let grid := colorGrid gridSize geometryBitDepth3D
    let near ← eightCells cells counts grid.w (grid.readCorner p.point)
    if otherClusterPointCount near then
      some { p with
        color16bit := recolor p.color16bit (near.map Prod.snd) (grid.weights p.point) }
    else some p

def smoothPointCloudColorLC (recolor : Recolor) (gridSize geometryBitDepth3D : ℕ)
    (cells : BoundaryCells) (counts : List (GridCell (ℕ × ℕ) (ℕ × ℕ × ℕ)))
    (points : List SmoothingPoint) : Option (List SmoothingPoint) :=
  points.mapM fun p =>
    if (colorGrid gridSize geometryBitDepth3D).Reads p then
      gridFilteringColor recolor cells counts (toUInt8 gridSize) geometryBitDepth3D p
    else some p

def colorSmoothing (recolor : Recolor) (gridSize geometryBitDepth3D : ℕ)
    (points : List SmoothingPoint) : Option (List SmoothingPoint) := do
  let grid := colorGrid gridSize geometryBitDepth3D
  let cells ← grid.markBoundaryCells points
  let counts ← points.foldlM
    (fun counts p =>
      if (cells.cellIndex.length : ℤ) ≤ cellId grid.w (grid.cell p.point) then some counts
      else addToCell cells (cellId grid.w (grid.cell p.point))
        (p.pointPatchIndex.1, p.pointPatchIndex.2 + 1) p.color16bit counts)
    (List.replicate cells.numBoundaryCells GridCell.empty)
  smoothPointCloudColorLC recolor gridSize geometryBitDepth3D cells counts points

end V3C

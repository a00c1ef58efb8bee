import V3C.Reconstruction.GridSafety

/-! The clouds of the geometry and of the colour smoothing, and the points for which the smoothing
uses the cells of its grid safely. -/
namespace V3C

/-- A cloud for the geometry smoothing: the size of a cell is two more than seven bits. -/
structure GeometryCloud where
  gridSize : ℕ
  gridSize_mem : 2 ≤ gridSize ∧ gridSize ≤ 129
  points : List SmoothingPoint
  points_ne : points ≠ []
  nonneg : ∀ p ∈ points, p.point.All fun a => 0 ≤ a
  w_lt : gridWidth gridSize points ^ 3 < 2 ^ 31

def GeometryCloud.grid (cloud : GeometryCloud) : SmoothingGrid :=
  geometryGrid cloud.gridSize (gridWidth cloud.gridSize cloud.points)

/-- The grid that `gridFiltering` gets. -/
def GeometryCloud.readGrid (cloud : GeometryCloud) : SmoothingGrid :=
  geometryGrid (toUInt8 cloud.gridSize) (toUInt16 (gridWidth cloud.gridSize cloud.points))

/-- The geometry smoothing of a cloud uses its cells safely. -/
structure GeometryCloud.Safe (cloud : GeometryCloud) : Prop where
  grid : cloud.grid.Safe cloud.readGrid cloud.points fun p => ¬cloud.grid.Skips p.point
  returns : ∀ move, ∃ result,
    smoothPointCloudPostprocess move cloud.gridSize cloud.points = some result

/-- A cloud for the colour smoothing, with the precision of the occupancy map. -/
structure ColorCloud where
  gridSize : ℕ
  gridSize_pos : 0 < gridSize
  geometryBitDepth3D : ℕ
  points : List SmoothingPoint
  nonneg : ∀ p ∈ points, p.point.All fun a => 0 ≤ a
  w_lt : (2 ^ geometryBitDepth3D / gridSize) ^ 3 < 2 ^ 31

def ColorCloud.grid (cloud : ColorCloud) : SmoothingGrid :=
  colorGrid cloud.gridSize cloud.geometryBitDepth3D

/-- The grid that `gridFilteringColor` has. -/
def ColorCloud.readGrid (cloud : ColorCloud) : SmoothingGrid :=
  colorGrid (toUInt8 cloud.gridSize) cloud.geometryBitDepth3D

/-- The colour smoothing of a cloud uses its cells safely. -/
structure ColorCloud.Safe (cloud : ColorCloud) : Prop where
  grid : cloud.grid.Safe cloud.readGrid cloud.points fun _ => True
  returns : ∀ recolor, ∃ result,
    colorSmoothing recolor cloud.gridSize cloud.geometryBitDepth3D cloud.points = some result

namespace GeometryCloud

variable (cloud : GeometryCloud)

theorem toUInt16_gridWidth :
    toUInt16 (gridWidth cloud.gridSize cloud.points) = gridWidth cloud.gridSize cloud.points := by
  apply toUInt16_of_lt
  have hcube := cloud.w_lt
  by_contra hlarge
  have hpow := Nat.pow_le_pow_left (not_lt.mp hlarge) 3
  omega

theorem readGrid_eq : cloud.readGrid = cloud.grid := by
  have hsize := cloud.gridSize_mem
  unfold readGrid grid
  rw [toUInt16_gridWidth, toUInt8_of_lt (by omega)]

theorem inGrid_cell {p : SmoothingPoint} (hp : p ∈ cloud.points) (h : ¬cloud.grid.Skips p.point) :
    InGrid cloud.grid.w (cloud.grid.cell p.point) := by
  have hsize := cloud.gridSize_mem
  have hg : 0 < cloud.grid.gridSize := by
    show 0 < cloud.gridSize
    omega
  rw [SmoothingGrid.cell_inGrid_iff hg (cloud.nonneg p hp)]
  apply PCCPoint3D.All.imp _ (SmoothingGrid.all_of_not_skips h)
  intro a ha
  have hbound : cloud.grid.bound = (cloud.grid.gridSize * cloud.grid.w : ℕ) := rfl
  rw [hbound] at ha
  omega

omit cloud in
theorem exists_gridFiltering {move : MovePoint} {cells : BoundaryCells}
    {counts : List (GridCell ℕ PCCPoint3D)} {gridSize w : ℕ} {p : SmoothingPoint}
    (hlength : counts.length = cells.numBoundaryCells)
    (hmarked : ∀ cell ∈ readOctet ((geometryGrid gridSize w).readCorner p.point),
      cells.Marked (cellId w cell)) :
    ∃ result, gridFiltering move cells counts gridSize w p = some result := by
  obtain ⟨near, hnear⟩ := exists_eightCells hlength hmarked
  unfold gridFiltering
  dsimp only
  rw [hnear, Option.bind_eq_bind, Option.bind_some]
  split_ifs
  · split
    · exact ⟨_, rfl⟩
    · exact ⟨_, rfl⟩
  · exact ⟨p, rfl⟩

/-- A boundary point that is smoothed is half a cell below the end of the grid, but for one
coordinate of the last cells when the size of a cell is odd. -/
theorem belowEnd_iff {P : PCCPoint3D} (h : ¬cloud.grid.Skips P) :
    cloud.grid.BelowEnd P ↔ P.All fun a => cloud.gridSize % 2 = 0 ∨
      a ≠ (cloud.gridSize * cloud.grid.w : ℕ) - ((cloud.gridSize + 1) / 2 : ℕ) := by
  have hborder := SmoothingGrid.all_of_not_skips h
  have hdisth : cloud.grid.disth = cloud.gridSize / 2 := by
    have hsize := cloud.gridSize_mem
    show max (cloud.gridSize / 2) 1 = cloud.gridSize / 2
    omega
  have hbound : cloud.grid.bound = (cloud.gridSize * cloud.grid.w : ℕ) := rfl
  rw [hdisth, hbound] at hborder
  show P.All (fun a => a + ((cloud.gridSize + 1) / 2 : ℕ) <
    (cloud.gridSize * cloud.grid.w : ℕ)) ↔ _
  generalize cloud.gridSize * cloud.grid.w = m at hborder
  constructor
  · intro hend
    apply PCCPoint3D.All.imp _ (hborder.and hend)
    intro a ha
    omega
  · intro hodd
    apply PCCPoint3D.All.imp _ (hborder.and hodd)
    intro a ha
    omega

theorem returns_of_belowEnd
    (hend : ∀ p ∈ cloud.points, cloud.grid.Reads p → cloud.grid.BelowEnd p.point) (move : MovePoint) :
    ∃ result, smoothPointCloudPostprocess move cloud.gridSize cloud.points = some result := by
  have hsize := cloud.gridSize_mem
  have hg : 0 < cloud.grid.gridSize := by
    show 0 < cloud.gridSize
    omega
  obtain ⟨cells, hcells, hlength, hnumbered, hmarked⟩ :=
    SmoothingGrid.exists_markBoundaryCells hg hend
  let step := fun counts (p : SmoothingPoint) =>
    if cloud.grid.Skips p.point then some counts
    else addToCell cells (cellId cloud.grid.w (cloud.grid.cell p.point)) (p.partition + 1)
      p.point counts
  have hstep : ∀ p ∈ cloud.points, ∀ counts, counts.length = cells.numBoundaryCells →
      ∃ counts', step counts p = some counts' ∧ counts'.length = cells.numBoundaryCells := by
    intro p hp counts hcounts
    dsimp only [step]
    split_ifs with hskips
    · exact ⟨counts, rfl, hcounts⟩
    · have hdenotes := denotes_iff.mpr (inGrid_cell cloud hp hskips)
      apply exists_addToCell ⟨hdenotes.nonneg, ?_⟩ hnumbered hcounts
      rw [hlength]
      exact hdenotes.lt
  obtain ⟨counts, hcounts, hcountsLength⟩ := @SmoothingGrid.exists_centroids cloud.points _ _
    cells (List.replicate cells.numBoundaryCells GridCell.empty) step List.length_replicate hstep
  unfold smoothPointCloudPostprocess
  rw [if_neg cloud.points_ne]
  dsimp only
  show ∃ result, (cloud.grid.markBoundaryCells cloud.points >>= _) = some result
  rw [hcells, Option.bind_eq_bind, Option.bind_some]
  show ∃ result, (cloud.points.foldlM (fun counts p =>
    if cloud.grid.Skips p.point then some counts
    else addToCell cells (cellId cloud.grid.w (cloud.grid.cell p.point)) (p.partition + 1)
      p.point counts) _ >>= _) = some result
  rw [hcounts, Option.bind_eq_bind, Option.bind_some, toUInt16_gridWidth]
  apply Codec.exists_mapM_eq_some
  intro p hp
  split_ifs with hreads
  · rw [toUInt8_of_lt (by omega)]
    apply exists_gridFiltering hcountsLength
    intro cell hcell
    apply hmarked p hp hreads
    apply SmoothingGrid.mem_markedOctet_of_read
    rw [SmoothingGrid.markedCorner_eq, ← SmoothingGrid.readCorner_eq]
    exact hcell
  · exact ⟨p, rfl⟩

theorem safe_iff_belowEnd :
    cloud.Safe ↔ ∀ p ∈ cloud.points, cloud.grid.Reads p → cloud.grid.BelowEnd p.point := by
  have hsize := cloud.gridSize_mem
  have hg : 0 < cloud.grid.gridSize := by
    show 0 < cloud.gridSize
    omega
  constructor
  · intro hsafe p hp hreads
    exact SmoothingGrid.belowEnd_of_denotes hg hreads (hsafe.grid.marked p hp hreads)
  · intro hend
    refine ⟨?_, returns_of_belowEnd cloud hend⟩
    apply SmoothingGrid.safe_of_belowEnd hg hend
    · intro p hp hreads
      exact cloud.readGrid_eq
    · intro p hp hskips
      exact inGrid_cell cloud hp hskips

end GeometryCloud

namespace ColorCloud

variable (cloud : ColorCloud)

theorem exists_gridFilteringColor {recolor : Recolor} {cells : BoundaryCells}
    {counts : List (GridCell (ℕ × ℕ) (ℕ × ℕ × ℕ))} {p : SmoothingPoint}
    (hlength : counts.length = cells.numBoundaryCells)
    (hmarked : ∀ cell ∈ readOctet (cloud.grid.readCorner p.point),
      cells.Marked (cellId cloud.grid.w cell)) :
    ∃ result, gridFilteringColor recolor cells counts cloud.gridSize cloud.geometryBitDepth3D p =
      some result := by
  obtain ⟨near, hnear⟩ := exists_eightCells hlength hmarked
  unfold gridFilteringColor
  rw [if_neg cloud.gridSize_pos.ne']
  dsimp only
  show ∃ result, (eightCells cells counts cloud.grid.w (cloud.grid.readCorner p.point) >>= _) =
    some result
  rw [hnear, Option.bind_eq_bind, Option.bind_some]
  split_ifs
  · exact ⟨_, rfl⟩
  · exact ⟨p, rfl⟩

/-- The points of a cloud that the colour smoothing reads its cells for. -/
def Confined : Prop := ∀ p ∈ cloud.points,
  (p.point.All fun a => a < (cloud.gridSize * cloud.grid.w : ℕ)) ∧
    (cloud.grid.Reads p → cloud.gridSize < 256 ∧ cloud.grid.BelowEnd p.point)

variable {cloud}

theorem Confined.inGrid (h : cloud.Confined) {p : SmoothingPoint} (hp : p ∈ cloud.points) :
    InGrid cloud.grid.w (cloud.grid.cell p.point) :=
  (SmoothingGrid.cell_inGrid_iff cloud.gridSize_pos (cloud.nonneg p hp)).mpr (h p hp).1

theorem Confined.returns (h : cloud.Confined) (recolor : Recolor) :
    ∃ result, colorSmoothing recolor cloud.gridSize cloud.geometryBitDepth3D cloud.points =
      some result := by
  obtain ⟨cells, hcells, hlength, hnumbered, hmarked⟩ :=
    SmoothingGrid.exists_markBoundaryCells cloud.gridSize_pos
      (fun p hp hreads => ((h p hp).2 hreads).2)
  let step := fun counts (p : SmoothingPoint) =>
    if (cells.cellIndex.length : ℤ) ≤ cellId cloud.grid.w (cloud.grid.cell p.point) then
      some counts
    else addToCell cells (cellId cloud.grid.w (cloud.grid.cell p.point))
      (p.pointPatchIndex.1, p.pointPatchIndex.2 + 1) p.color16bit counts
  have hstep : ∀ p ∈ cloud.points, ∀ counts, counts.length = cells.numBoundaryCells →
      ∃ counts', step counts p = some counts' ∧ counts'.length = cells.numBoundaryCells := by
    intro p hp counts hcounts
    have hdenotes := denotes_iff.mpr (h.inGrid hp)
    dsimp only [step]
    split_ifs with hguard
    · exact ⟨counts, rfl, hcounts⟩
    · exact exists_addToCell ⟨hdenotes.nonneg, not_le.mp hguard⟩ hnumbered hcounts
  obtain ⟨counts, hcounts, hcountsLength⟩ := @SmoothingGrid.exists_centroids cloud.points _ _
    cells (List.replicate cells.numBoundaryCells GridCell.empty) step List.length_replicate hstep
  unfold colorSmoothing
  dsimp only
  show ∃ result, (cloud.grid.markBoundaryCells cloud.points >>= _) = some result
  rw [hcells, Option.bind_eq_bind, Option.bind_some]
  show ∃ result, (cloud.points.foldlM (fun counts p =>
    if (cells.cellIndex.length : ℤ) ≤ cellId cloud.grid.w (cloud.grid.cell p.point) then
      some counts
    else addToCell cells (cellId cloud.grid.w (cloud.grid.cell p.point))
      (p.pointPatchIndex.1, p.pointPatchIndex.2 + 1) p.color16bit counts) _ >>= _) = some result
  rw [hcounts, Option.bind_eq_bind, Option.bind_some]
  apply Codec.exists_mapM_eq_some
  intro p hp
  split_ifs with hreads
  · rw [toUInt8_of_lt ((h p hp).2 hreads).1]
    apply exists_gridFilteringColor cloud hcountsLength
    intro cell hcell
    apply hmarked p hp hreads
    apply SmoothingGrid.mem_markedOctet_of_read
    rw [SmoothingGrid.markedCorner_eq, ← SmoothingGrid.readCorner_eq]
    exact hcell
  · exact ⟨p, rfl⟩

/-- The weights are those of a cell only when `uint8_t` holds the size of a cell. -/
theorem gridSize_lt_of_weights {p : SmoothingPoint}
    (h : (cloud.readGrid.weights p.point).sum = (2 * cloud.grid.gridSize) ^ 3) :
    cloud.gridSize < 256 := by
  rw [SmoothingGrid.weights_sum] at h
  have hsize : (2 * (toUInt8 cloud.gridSize : ℤ)) ^ 3 = (2 * (cloud.gridSize : ℤ)) ^ 3 := h
  have heq := (pow_left_inj₀ (by positivity) (by positivity) (by decide)).mp hsize
  unfold toUInt8 at heq
  omega

theorem safe_iff_confined : cloud.Safe ↔ cloud.Confined := by
  constructor
  · intro hsafe p hp
    constructor
    · exact (SmoothingGrid.cell_inGrid_iff cloud.gridSize_pos (cloud.nonneg p hp)).mp
        (hsafe.grid.centroid p hp trivial).inGrid
    · intro hreads
      exact ⟨gridSize_lt_of_weights (hsafe.grid.weights_sum p hp hreads),
        SmoothingGrid.belowEnd_of_denotes cloud.gridSize_pos hreads
          (hsafe.grid.marked p hp hreads)⟩
  · intro h
    refine ⟨?_, h.returns⟩
    apply SmoothingGrid.safe_of_belowEnd cloud.gridSize_pos
    · exact fun p hp hreads => ((h p hp).2 hreads).2
    · intro p hp hreads
      unfold readGrid grid
      rw [toUInt8_of_lt ((h p hp).2 hreads).1]
    · exact fun p hp _ => h.inGrid hp

/-- Two patches that meet in a grid of four cells a side, in steps of four. -/
def meetingPatches : ColorCloud where
  gridSize := 4
  gridSize_pos := by decide
  geometryBitDepth3D := 4
  points := [⟨⟨5, 6, 7⟩, 1, 0, (0, 0), (100, 120, 140)⟩, ⟨⟨6, 6, 7⟩, 1, 1, (0, 1), (10, 20, 30)⟩,
    ⟨⟨13, 2, 9⟩, 0, 1, (0, 1), (11, 21, 31)⟩]
  nonneg := by decide
  w_lt := by decide

theorem meetingPatches_safe : meetingPatches.Safe := by
  rw [safe_iff_confined]
  unfold Confined
  decide

end ColorCloud

/-- The geometry smoothing is safe unless the size of a cell is odd and a boundary point is in the
middle of the last cells; the colour smoothing is safe where the points are in the grid and the
boundary points are half a cell below its end. -/
theorem gridSmoothing_safe_iff (cloud : GeometryCloud) (colorCloud : ColorCloud) :
    (cloud.Safe ↔ ∀ p ∈ cloud.points, cloud.grid.Reads p →
      p.point.All fun a => cloud.gridSize % 2 = 0 ∨
        a ≠ (cloud.gridSize * cloud.grid.w : ℕ) - ((cloud.gridSize + 1) / 2 : ℕ)) ∧
    (colorCloud.Safe ↔ colorCloud.Confined) := by
  constructor
  · rw [GeometryCloud.safe_iff_belowEnd]
    apply forall₂_congr
    intro p hp
    apply forall_congr'
    intro hreads
    exact cloud.belowEnd_iff hreads.2
  · exact ColorCloud.safe_iff_confined

/-- A boundary point in the middle of the last cells of a grid of odd cells. -/
def oddCells : GeometryCloud where
  gridSize := 3
  gridSize_mem := by decide
  points := [⟨⟨4, 4, 4⟩, 1, 0, (0, 0), (0, 0, 0)⟩]
  points_ne := by decide
  nonneg := by decide
  w_lt := by decide

theorem not_safe_oddCells : ¬oddCells.Safe := by
  intro h
  have hreads : oddCells.grid.Reads ⟨⟨4, 4, 4⟩, 1, 0, (0, 0), (0, 0, 0)⟩ := by decide
  have hdenotes := h.grid.marked _ List.mem_cons_self hreads ⟨2, 2, 2⟩ (by decide)
  exact absurd hdenotes.lt (by decide)

end V3C

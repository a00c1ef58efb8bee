import V3C.Reconstruction.GridSmoothing

/-! The indices of the cells in the smoothing over a grid: which cell an index denotes, the cells
that are marked when a boundary point is filtered, and the weights of the filter. -/
namespace V3C

section Axis

variable {g w a : ℤ}

/-- The lower of the two cells along an axis. -/
def lowerCoordinate (g a : ℤ) : ℤ := a / g + if a % g < g / 2 then -1 else 0

theorem lt_of_quotient {k s : ℤ} (hg : 0 < g) (hs : 0 ≤ s) (hlt : s < g) :
    k < w ↔ g * k + s < g * w := by
  constructor
  · intro h
    have hmul : g * (k + 1) ≤ g * w := mul_le_mul_of_nonneg_left (by omega) hg.le
    rw [mul_add, mul_one] at hmul
    omega
  · intro h
    by_contra hle
    have hmul : g * w ≤ g * k := mul_le_mul_of_nonneg_left (by omega) hg.le
    omega

/-- The upper of the two cells is in the grid when the coordinate is half a cell below its end. -/
theorem upper_lt_iff (hg : 0 < g) :
    lowerCoordinate g a + 1 < w ↔ a + (g + 1) / 2 < g * w := by
  have hdiv := Int.mul_ediv_add_emod a g
  have hlow := Int.emod_nonneg a hg.ne'
  have hhigh := Int.emod_lt_of_pos a hg
  unfold lowerCoordinate
  split_ifs with h
  · rw [lt_of_quotient (s := a % g + (g + 1) / 2) hg (by omega) (by omega)]
    rw [← add_assoc, show a / g + -1 + 1 = a / g by ring, hdiv]
  · rw [lt_of_quotient (s := a % g + (g + 1) / 2 - g) hg (by omega) (by omega)]
    have heq : g * (a / g + 0 + 1) = g * (a / g) + g := by ring
    rw [heq]
    constructor
    · intro hlt
      omega
    · intro hlt
      omega

theorem lowerCoordinate_nonneg (hg : 0 < g) (ha : 0 ≤ a) (h : g / 2 ≤ a) :
    0 ≤ lowerCoordinate g a := by
  have hquotient := Int.ediv_nonneg ha hg.le
  unfold lowerCoordinate
  split_ifs with hlow
  · have hpos : a / g ≠ 0 := by
      intro hzero
      have hdiv := Int.mul_ediv_add_emod a g
      rw [hzero, mul_zero, zero_add] at hdiv
      omega
    omega
  · omega

/-- The distance of a coordinate from the middle of the lower cell is at most a cell. -/
theorem weight_mem (hg : 0 < g) :
    0 ≤ (a - lowerCoordinate g a * g - g / 2) * 2 + 1 ∧
      (a - lowerCoordinate g a * g - g / 2) * 2 + 1 ≤ 2 * g := by
  have hdiv := Int.mul_ediv_add_emod a g
  have hlow := Int.emod_nonneg a hg.ne'
  have hhigh := Int.emod_lt_of_pos a hg
  unfold lowerCoordinate
  split_ifs with h
  · rw [show (a / g + -1) * g = g * (a / g) - g by ring]
    constructor
    · omega
    · omega
  · rw [show (a / g + 0) * g = g * (a / g) by ring]
    constructor
    · omega
    · omega

end Axis

theorem PCCPoint3D.All.and {p q : ℤ → Prop} {P : PCCPoint3D} (hp : P.All p) (hq : P.All q) :
    P.All fun a => p a ∧ q a := ⟨⟨hp.1, hq.1⟩, ⟨hp.2.1, hq.2.1⟩, ⟨hp.2.2, hq.2.2⟩⟩

theorem PCCPoint3D.All.imp {p q : ℤ → Prop} {P : PCCPoint3D} (h : ∀ a, p a → q a)
    (hp : P.All p) : P.All q := ⟨h _ hp.1, h _ hp.2.1, h _ hp.2.2⟩

theorem PCCPoint3D.all_map {p : ℤ → Prop} {f : ℤ → ℤ} {P : PCCPoint3D} :
    (P.map f).All p ↔ P.All fun a => p (f a) := Iff.rfl

/-- A cell of a grid of `w` cells along each axis. -/
def InGrid (w : ℕ) (cell : PCCPoint3D) : Prop := cell.All fun a => 0 ≤ a ∧ a < w

/-- The index of a cell is in range, and is the index of no other cell. -/
structure Denotes (w : ℕ) (cell : PCCPoint3D) : Prop where
  inGrid : InGrid w cell
  nonneg : 0 ≤ cellId w cell
  lt : cellId w cell < (w ^ 3 : ℕ)
  unique : ∀ cell', InGrid w cell' → cellId w cell' = cellId w cell → cell' = cell

theorem digits_lt {w : ℕ} {x y : ℤ} (hx : 0 ≤ x ∧ x < w) (hy : 0 ≤ y) {m : ℤ} (hlt : y < m) :
    0 ≤ x + y * w ∧ x + y * w < m * w := by
  have hnonneg : 0 ≤ y * w := by positivity
  have hmul : (y + 1) * w ≤ m * w := mul_le_mul_of_nonneg_right (by omega) (by omega)
  rw [add_mul, one_mul] at hmul
  omega

theorem digits_inj {w : ℕ} {x x' y y' : ℤ} (hx : 0 ≤ x ∧ x < w) (hx' : 0 ≤ x' ∧ x' < w)
    (h : x + y * w = x' + y' * w) : x = x' ∧ y = y' := by
  have hw : (w : ℤ) ≠ 0 := by omega
  have hmod : ∀ {x y : ℤ}, 0 ≤ x ∧ x < w → (x + y * w) % w = x := by
    intro x y hx
    rw [Int.add_mul_emod_self_right, Int.emod_eq_of_lt hx.1 hx.2]
  have heq : x = x' := by
    rw [← hmod (y := y) hx, h, hmod hx']
  refine ⟨heq, ?_⟩
  rw [heq] at h
  exact mul_right_cancel₀ hw (by omega)

theorem cellId_eq (w : ℕ) (cell : PCCPoint3D) :
    cellId w cell = cell.x + (cell.y + cell.z * w) * w := by
  unfold cellId
  ring

theorem denotes_iff {w : ℕ} {cell : PCCPoint3D} : Denotes w cell ↔ InGrid w cell := by
  constructor
  · exact Denotes.inGrid
  · intro h
    have hyz := digits_lt h.2.1 h.2.2.1 h.2.2.2
    have hrange := digits_lt h.1 hyz.1 hyz.2
    rw [← cellId_eq] at hrange
    refine ⟨h, hrange.1, ?_, ?_⟩
    · have hcube : ((w ^ 3 : ℕ) : ℤ) = w * w * w := by
        push_cast
        ring
      rw [hcube]
      exact hrange.2
    · intro cell' hcell' heq
      rw [cellId_eq, cellId_eq] at heq
      have hfirst := digits_inj hcell'.1 h.1 heq
      have hsecond := digits_inj hcell'.2.1 h.2.1 hfirst.2
      cases cell'
      cases cell
      exact PCCPoint3D.mk.injEq .. ▸ ⟨hfirst.1, hsecond.1, hsecond.2⟩

theorem mem_octet {S cell : PCCPoint3D} {octet : List PCCPoint3D}
    (hoctet : octet = markedOctet S ∨ octet = readOctet S) :
    cell ∈ octet ↔ ∃ i ∈ [(0 : ℤ), 1], ∃ j ∈ [(0 : ℤ), 1], ∃ k ∈ [(0 : ℤ), 1],
      (⟨S.x + i, S.y + j, S.z + k⟩ : PCCPoint3D) = cell := by
  rcases hoctet with rfl | rfl
  · unfold markedOctet
    simp only [List.mem_flatMap, List.mem_map]
  · unfold readOctet
    simp only [List.mem_flatMap, List.mem_map]
    constructor
    · intro h
      obtain ⟨k, hk, j, hj, i, hi, heq⟩ := h
      exact ⟨i, hi, j, hj, k, hk, heq⟩
    · intro h
      obtain ⟨i, hi, j, hj, k, hk, heq⟩ := h
      exact ⟨k, hk, j, hj, i, hi, heq⟩

/-- The eight cells above a corner are in a grid when the lower and the upper corner are. -/
theorem forall_octet {w : ℕ} {S : PCCPoint3D} {octet : List PCCPoint3D}
    (hoctet : octet = markedOctet S ∨ octet = readOctet S) :
    (∀ cell ∈ octet, InGrid w cell) ↔ S.All fun a => 0 ≤ a ∧ a + 1 < w := by
  have hzero : (0 : ℤ) ∈ [(0 : ℤ), 1] := by decide
  have hone : (1 : ℤ) ∈ [(0 : ℤ), 1] := by decide
  unfold InGrid PCCPoint3D.All
  constructor
  · intro h
    have hlow := h _ ((mem_octet hoctet).mpr ⟨0, hzero, 0, hzero, 0, hzero, rfl⟩)
    have hhigh := h _ ((mem_octet hoctet).mpr ⟨1, hone, 1, hone, 1, hone, rfl⟩)
    dsimp only at hlow hhigh
    omega
  · intro h cell hcell
    obtain ⟨i, hi, j, hj, k, hk, rfl⟩ := (mem_octet hoctet).mp hcell
    rw [List.mem_cons, List.mem_singleton] at hi hj hk
    dsimp only
    omega

namespace SmoothingGrid

variable {grid : SmoothingGrid}

theorem markedCorner_eq (P : PCCPoint3D) :
    grid.markedCorner P = P.map (lowerCoordinate grid.gridSize) := rfl

theorem readCorner_eq (P : PCCPoint3D) :
    grid.readCorner P = P.map (lowerCoordinate grid.gridSize) := by
  have hmod : ∀ a : ℤ, a - a / grid.gridSize * grid.gridSize = a % grid.gridSize := by
    intro a
    have hdiv := Int.mul_ediv_add_emod a grid.gridSize
    rw [mul_comm]
    omega
  unfold readCorner
  simp only [hmod]
  rfl

theorem all_of_not_skips {P : PCCPoint3D} (h : ¬grid.Skips P) :
    P.All fun a => grid.disth ≤ a ∧ a + grid.disth < grid.bound := by
  unfold Skips at h
  unfold PCCPoint3D.All
  omega

theorem half_le_disth (grid : SmoothingGrid) : (grid.gridSize : ℤ) / 2 ≤ grid.disth := by
  unfold disth
  omega

/-- The cells of a boundary point that is smoothed are in the grid when each of its coordinates is
half a cell below the end of the grid. -/
theorem octet_inGrid_iff (hg : 0 < grid.gridSize) {P : PCCPoint3D} (h : ¬grid.Skips P)
    {octet : List PCCPoint3D}
    (hoctet : octet = markedOctet (grid.markedCorner P) ∨
      octet = readOctet (grid.readCorner P)) :
    (∀ cell ∈ octet, InGrid grid.w cell) ↔
      P.All fun a => a + ((grid.gridSize + 1) / 2 : ℕ) < (grid.gridSize * grid.w : ℕ) := by
  have hborder := all_of_not_skips h
  have hhalf := half_le_disth grid
  rw [readCorner_eq, markedCorner_eq] at hoctet
  rw [forall_octet hoctet, PCCPoint3D.all_map]
  have hcast : ((grid.gridSize * grid.w : ℕ) : ℤ) = grid.gridSize * grid.w := by push_cast; rfl
  have hcast' : (((grid.gridSize + 1) / 2 : ℕ) : ℤ) = (grid.gridSize + 1) / 2 := by push_cast; rfl
  constructor
  · intro hgrid
    apply PCCPoint3D.All.imp _ hgrid
    intro a ha
    rw [hcast, hcast']
    exact (upper_lt_iff (by omega)).mp ha.2
  · intro hend
    apply PCCPoint3D.All.imp _ (hborder.and hend)
    intro a ha
    rw [hcast, hcast'] at ha
    exact ⟨lowerCoordinate_nonneg (by omega) (by omega) (by omega),
      (upper_lt_iff (by omega)).mpr ha.2⟩

theorem axisWeights_mem (hg : 0 < grid.gridSize) {a weight : ℤ}
    (h : weight ∈ grid.axisWeights a (lowerCoordinate grid.gridSize a)) : 0 ≤ weight := by
  have hmem := weight_mem (a := a) (g := grid.gridSize) (by omega)
  unfold axisWeights upperWeight at h
  rw [List.mem_cons, List.mem_singleton, Int.natCast_ediv, Nat.cast_two] at h
  omega

/-- The weights of the filter are not negative. -/
theorem weights_nonneg (hg : 0 < grid.gridSize) {P : PCCPoint3D} {weight : ℤ}
    (h : weight ∈ grid.weights P) : 0 ≤ weight := by
  unfold weights at h
  rw [readCorner_eq] at h
  obtain ⟨c, hc, h⟩ := List.mem_flatMap.mp h
  obtain ⟨b, hb, h⟩ := List.mem_flatMap.mp h
  obtain ⟨a, ha, rfl⟩ := List.mem_map.mp h
  have hproduct := mul_nonneg (axisWeights_mem hg ha) (axisWeights_mem hg hb)
  exact mul_nonneg hproduct (axisWeights_mem hg hc)

/-- The weights of the filter sum to the cube of twice the size of a cell. -/
theorem weights_sum (grid : SmoothingGrid) (P : PCCPoint3D) :
    (grid.weights P).sum = (2 * grid.gridSize) ^ 3 := by
  unfold weights axisWeights
  dsimp only
  generalize grid.upperWeight P.x _ = x
  generalize grid.upperWeight P.y _ = y
  generalize grid.upperWeight P.z _ = z
  simp only [List.flatMap_cons, List.flatMap_nil, List.map_cons, List.map_nil, List.append_nil,
    List.cons_append, List.nil_append, List.sum_cons, List.sum_nil]
  ring

end SmoothingGrid

def BoundaryCells.Marked (cells : BoundaryCells) (cellId : ℤ) : Prop :=
  ∃ number, cells.entry cellId = some (some number) ∧ number < cells.numBoundaryCells

namespace BoundaryCells

variable {cells cells' : BoundaryCells}

theorem entry_of_nonneg {id : ℤ} (h : 0 ≤ id) :
    cells.entry id = cells.cellIndex[id.toNat]? := if_neg (by omega)

theorem entry_of_lt {id : ℤ} (hlow : 0 ≤ id) (hhigh : id < cells.cellIndex.length) :
    ∃ number, cells.entry id = some number := by
  have hlt : id.toNat < cells.cellIndex.length := by omega
  rw [entry_of_nonneg hlow]
  exact ⟨_, List.getElem?_eq_getElem hlt⟩

/-- The numbers of the marked cells are below the number of marked cells. -/
def Numbered (cells : BoundaryCells) : Prop :=
  ∀ id number, cells.entry id = some (some number) → number < cells.numBoundaryCells

/-- A cell in the grid is marked, and the cells that were marked stay marked. -/
theorem exists_mark {id : ℤ} (hlow : 0 ≤ id) (hhigh : id < cells.cellIndex.length)
    (hnumbered : cells.Numbered) :
    ∃ cells', cells.mark id = some cells' ∧ cells'.cellIndex.length = cells.cellIndex.length ∧
      cells'.Numbered ∧ cells'.Marked id ∧ ∀ id', cells.Marked id' → cells'.Marked id' := by
  obtain ⟨number, hentry⟩ := entry_of_lt hlow hhigh
  unfold mark
  rw [hentry]
  cases number with
  | some number =>
    exact ⟨cells, rfl, rfl, hnumbered, ⟨number, hentry, hnumbered id number hentry⟩,
      fun _ h => h⟩
  | none =>
    have hset : ∀ id', id' ≠ id → BoundaryCells.entry
        ⟨cells.cellIndex.set id.toNat (some cells.numBoundaryCells), cells.numBoundaryCells + 1⟩
        id' = cells.entry id' := by
      intro id' hne
      unfold entry
      split_ifs with hneg
      · rfl
      · exact List.getElem?_set_ne (by omega)
    have hself : BoundaryCells.entry
        ⟨cells.cellIndex.set id.toNat (some cells.numBoundaryCells), cells.numBoundaryCells + 1⟩
        id = some (some cells.numBoundaryCells) := by
      rw [entry_of_nonneg hlow]
      exact List.getElem?_set_self (by omega)
    refine ⟨_, rfl, List.length_set, ?_, ⟨_, hself, Nat.lt_succ_self _⟩, ?_⟩
    · intro id' number h
      by_cases heq : id' = id
      · rw [heq, hself] at h
        obtain rfl : cells.numBoundaryCells = number := by simpa using h
        exact Nat.lt_succ_self _
      · rw [hset id' heq] at h
        exact Nat.lt_succ_of_lt (hnumbered id' number h)
    · intro id' h
      obtain ⟨number, hnumber, hlt⟩ := h
      have hne : id' ≠ id := by
        rintro rfl
        rw [hentry] at hnumber
        cases hnumber
      exact ⟨number, (hset id' hne).trans hnumber, Nat.lt_succ_of_lt hlt⟩

/-- The first pass marks every cell whose index it computes, when these are in range. -/
theorem exists_foldlM_mark {ids : List ℤ} {length : ℕ}
    (hids : ∀ id ∈ ids, 0 ≤ id ∧ id < length) :
    ∃ cells, ids.foldlM mark ⟨List.replicate length none, 0⟩ = some cells ∧
      cells.cellIndex.length = length ∧ cells.Numbered ∧ ∀ id ∈ ids, cells.Marked id := by
  have hstart : BoundaryCells.Numbered ⟨List.replicate length none, 0⟩ := by
    intro id number h
    unfold entry at h
    split_ifs at h
    rw [List.getElem?_replicate] at h
    split_ifs at h
    cases h
  let P := fun (visited : List ℤ) (cells : BoundaryCells) => cells.cellIndex.length = length ∧
    cells.Numbered ∧ ∀ id ∈ visited, cells.Marked id
  have hstep : ∀ visited id cells, visited ++ [id] <+: ids → P visited cells →
      ∃ cells', mark cells id = some cells' ∧ P (visited ++ [id]) cells' := by
    intro visited id cells hstart hinv
    obtain ⟨hlength, hnumbered, hvisited⟩ := hinv
    have hid := hids id
      (hstart.subset (List.mem_append_right visited List.mem_cons_self))
    obtain ⟨cells', hmark, hlength', hnumbered', hself, hkeeps⟩ :=
      exists_mark hid.1 (by omega) hnumbered
    refine ⟨cells', hmark, hlength'.trans hlength, hnumbered', ?_⟩
    intro id' hid'
    rcases List.mem_append.mp hid' with hold | hnew
    · exact hkeeps id' (hvisited id' hold)
    · rw [List.mem_singleton.mp hnew]
      exact hself
  exact Codec.exists_foldlM hstep
    ⟨List.length_replicate, hstart, fun id hid => absurd hid List.not_mem_nil⟩

end BoundaryCells

section Centroids

variable {ι α : Type} {cells : BoundaryCells} {counts : List (GridCell ι α)}

/-- A point is added to its cell when the index of the cell is in range. -/
theorem exists_addToCell [DecidableEq ι] {id : ℤ} {partition : ι} {value : α}
    (hid : 0 ≤ id ∧ id < cells.cellIndex.length) (hnumbered : cells.Numbered)
    (hlength : counts.length = cells.numBoundaryCells) :
    ∃ counts', addToCell cells id partition value counts = some counts' ∧
      counts'.length = cells.numBoundaryCells := by
  obtain ⟨number, hentry⟩ := BoundaryCells.entry_of_lt hid.1 hid.2
  unfold addToCell
  rw [hentry]
  cases number with
  | none => exact ⟨counts, rfl, hlength⟩
  | some number =>
    have hlt : number < counts.length := hlength ▸ hnumbered id number hentry
    dsimp only
    rw [List.getElem?_eq_getElem hlt]
    exact ⟨_, rfl, List.length_set.trans hlength⟩

/-- The filter reads marked cells only. -/
theorem exists_eightCells {w : ℕ} {S : PCCPoint3D} (hlength : counts.length = cells.numBoundaryCells)
    (hmarked : ∀ cell ∈ readOctet S, cells.Marked (cellId w cell)) :
    ∃ near, eightCells cells counts w S = some near := by
  apply Codec.exists_mapM_eq_some
  intro cell hcell
  obtain ⟨number, hentry, hnumber⟩ := hmarked cell hcell
  have hlt : number < counts.length := hlength.symm ▸ hnumber
  refine ⟨(cellId w cell, counts[number]), ?_⟩
  rw [hentry, Option.join_some, Option.bind_eq_bind, Option.bind_some,
    List.getElem?_eq_getElem hlt]
  rfl

end Centroids

/-- Every index of a cell denotes the cell that it is meant to, the cells that the filter reads are
marked, and its weights are those of a cell: `readGrid` is the grid as the filter has it, and
`adds` are the points whose cells get their centroids. -/
structure SmoothingGrid.Safe (grid readGrid : SmoothingGrid) (points : List SmoothingPoint)
    (adds : SmoothingPoint → Prop) : Prop where
  marked : ∀ p ∈ points, grid.Reads p → ∀ cell ∈ markedOctet (grid.markedCorner p.point),
    Denotes grid.w cell
  centroid : ∀ p ∈ points, adds p → Denotes grid.w (grid.cell p.point)
  read : ∀ p ∈ points, grid.Reads p → ∀ cell ∈ readOctet (readGrid.readCorner p.point),
    Denotes readGrid.w cell
  allocated : ∃ cells, grid.markBoundaryCells points = some cells ∧
    ∀ p ∈ points, grid.Reads p → ∀ cell ∈ readOctet (readGrid.readCorner p.point),
      cells.Marked (cellId readGrid.w cell)
  weights_nonneg : ∀ p ∈ points, grid.Reads p → ∀ weight ∈ readGrid.weights p.point, 0 ≤ weight
  weights_sum : ∀ p ∈ points, grid.Reads p →
    (readGrid.weights p.point).sum = (2 * grid.gridSize) ^ 3

/-- The coordinates of a point are half a cell below the end of the grid. -/
def SmoothingGrid.BelowEnd (grid : SmoothingGrid) (P : PCCPoint3D) : Prop :=
  P.All fun a => a + ((grid.gridSize + 1) / 2 : ℕ) < (grid.gridSize * grid.w : ℕ)

instance (grid : SmoothingGrid) (P : PCCPoint3D) : Decidable (grid.BelowEnd P) :=
  inferInstanceAs (Decidable (P.All _))

namespace SmoothingGrid

variable {grid readGrid : SmoothingGrid} {points : List SmoothingPoint}
  {adds : SmoothingPoint → Prop}

theorem cell_inGrid_iff (hg : 0 < grid.gridSize) {P : PCCPoint3D} (hP : P.All fun a => 0 ≤ a) :
    InGrid grid.w (grid.cell P) ↔ P.All fun a => a < (grid.gridSize * grid.w : ℕ) := by
  have hpos : (0 : ℤ) < grid.gridSize := by omega
  have hcast : ((grid.gridSize * grid.w : ℕ) : ℤ) = grid.w * grid.gridSize := by
    push_cast
    ring
  unfold InGrid cell
  rw [PCCPoint3D.all_map, hcast]
  constructor
  · intro h
    apply PCCPoint3D.All.imp _ h
    intro a ha
    exact (Int.ediv_lt_iff_lt_mul hpos).mp ha.2
  · intro h
    apply PCCPoint3D.All.imp _ (hP.and h)
    intro a ha
    exact ⟨Int.ediv_nonneg ha.1 hpos.le, (Int.ediv_lt_iff_lt_mul hpos).mpr ha.2⟩

theorem belowEnd_of_denotes (hg : 0 < grid.gridSize) {p : SmoothingPoint} (hp : grid.Reads p)
    (h : ∀ cell ∈ markedOctet (grid.markedCorner p.point), Denotes grid.w cell) :
    grid.BelowEnd p.point :=
  (octet_inGrid_iff hg hp.2 (.inl rfl)).mp fun cell hcell => (h cell hcell).inGrid

/-- The first pass returns where the cells of the boundary points are in the grid. -/
theorem exists_markBoundaryCells (hg : 0 < grid.gridSize)
    (hend : ∀ p ∈ points, grid.Reads p → grid.BelowEnd p.point) :
    ∃ cells, grid.markBoundaryCells points = some cells ∧
      cells.cellIndex.length = grid.w ^ 3 ∧ cells.Numbered ∧
      ∀ p ∈ points, grid.Reads p → ∀ cell ∈ markedOctet (grid.markedCorner p.point),
        cells.Marked (cellId grid.w cell) := by
  have hids : ∀ id ∈ grid.markedIds points, 0 ≤ id ∧ id < (grid.w ^ 3 : ℕ) := by
    intro id hid
    obtain ⟨p, hp, hid⟩ := List.mem_flatMap.mp hid
    split_ifs at hid with hreads
    · obtain ⟨cell, hcell, rfl⟩ := List.mem_map.mp hid
      have hdenotes := denotes_iff.mpr
        ((octet_inGrid_iff hg hreads.2 (.inl rfl)).mpr (hend p hp hreads) cell hcell)
      exact ⟨hdenotes.nonneg, hdenotes.lt⟩
    · cases hid
  obtain ⟨cells, hrun, hlength, hnumbered, hmarked⟩ := BoundaryCells.exists_foldlM_mark hids
  have hcube : grid.w * grid.w * grid.w = grid.w ^ 3 := by ring
  refine ⟨cells, ?_, hlength, hnumbered, ?_⟩
  · unfold markBoundaryCells
    rw [hcube]
    exact hrun
  · intro p hp hreads cell hcell
    apply hmarked
    refine List.mem_flatMap.mpr ⟨p, hp, ?_⟩
    rw [if_pos hreads]
    exact List.mem_map_of_mem hcell

theorem mem_markedOctet_of_read {S cell : PCCPoint3D} (h : cell ∈ readOctet S) :
    cell ∈ markedOctet S :=
  (mem_octet (.inl rfl)).mpr ((mem_octet (.inr rfl)).mp h)

/-- What the passes use is safe where the boundary points are below the end of the grid. -/
theorem safe_of_belowEnd (hg : 0 < grid.gridSize)
    (hend : ∀ p ∈ points, grid.Reads p → grid.BelowEnd p.point)
    (hread : ∀ p ∈ points, grid.Reads p → readGrid = grid)
    (hcentroid : ∀ p ∈ points, adds p → InGrid grid.w (grid.cell p.point)) :
    grid.Safe readGrid points adds where
  marked p hp hreads cell hcell := denotes_iff.mpr
    ((octet_inGrid_iff hg hreads.2 (.inl rfl)).mpr (hend p hp hreads) cell hcell)
  centroid p hp hadds := denotes_iff.mpr (hcentroid p hp hadds)
  read p hp hreads cell hcell := by
    rw [hread p hp hreads] at hcell ⊢
    exact denotes_iff.mpr
      ((octet_inGrid_iff hg hreads.2 (.inr rfl)).mpr (hend p hp hreads) cell hcell)
  allocated := by
    obtain ⟨cells, hrun, -, -, hmarked⟩ := exists_markBoundaryCells hg hend
    refine ⟨cells, hrun, ?_⟩
    intro p hp hreads cell hcell
    rw [hread p hp hreads] at hcell ⊢
    rw [readCorner_eq, ← markedCorner_eq] at hcell
    exact hmarked p hp hreads cell (mem_markedOctet_of_read hcell)
  weights_nonneg p hp hreads weight hweight := by
    rw [hread p hp hreads] at hweight
    exact weights_nonneg hg hweight
  weights_sum p hp hreads := by
    rw [hread p hp hreads]
    exact weights_sum grid p.point

/-- The second pass returns, and keeps the number of cells. -/
theorem exists_centroids {ι α : Type} {cells : BoundaryCells} {counts : List (GridCell ι α)}
    {step : List (GridCell ι α) → SmoothingPoint → Option (List (GridCell ι α))}
    (hlength : counts.length = cells.numBoundaryCells)
    (hstep : ∀ p ∈ points, ∀ counts : List (GridCell ι α),
      counts.length = cells.numBoundaryCells → ∃ counts', step counts p = some counts' ∧
        counts'.length = cells.numBoundaryCells) :
    ∃ counts', points.foldlM step counts = some counts' ∧
      counts'.length = cells.numBoundaryCells :=
  Codec.exists_foldlM
    (P := fun _ (counts : List (GridCell ι α)) => counts.length = cells.numBoundaryCells)
    (fun visited p counts hstart hinv => hstep p
      (hstart.subset (List.mem_append_right visited List.mem_cons_self)) counts hinv) hlength

end SmoothingGrid

end V3C

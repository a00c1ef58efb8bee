import Mathlib.Algebra.Order.BigOperators.Group.List
import Mathlib.Logic.Relation
import V3C.Codec.Traverse
import V3C.Segmenter.VoxelGrid

/-! The voxels of the grid-based refinement of the segmentation: their keys, their counters, their
classes and the weights of their neighbourhoods. -/
namespace V3C

inductive VoxEdge
  | NO_EDGE
  | INDIRECT_EDGE
  | M_DIRECT_EDGE
  | S_DIRECT_EDGE
  deriving DecidableEq

/-- `AttributeOfGridCell`. The class has no value before `setNumOfTotalPoints`. -/
structure AttributeOfGridCell where
  scoreSmooth : List ℕ
  voxEdge : VoxEdge := .NO_EDGE
  updateFlag : Bool := true
  totalPoints : ℕ := 0
  voxPpi : ℕ := 0

/-- `PointIndicesOfGridCell::getPointCount`, a `uint8_t`. -/
def getPointCount (pointIndices : List ℕ) : ℕ := pointIndices.length % 2 ^ 8

namespace AttributeOfGridCell

def setNumOfTotalPoints (vox : AttributeOfGridCell) (pointCount : ℕ) :
    AttributeOfGridCell :=
  { vox with
    totalPoints := pointCount
    voxEdge := if pointCount = 1 then .S_DIRECT_EDGE else .M_DIRECT_EDGE }

/-- The first voxel classification. -/
def updateVoxelTypeWithScores (vox : AttributeOfGridCell) : AttributeOfGridCell :=
  if vox.updateFlag then
    let uniformityIdx := vox.scoreSmooth.length - vox.scoreSmooth.count 0
    { vox with
      voxEdge :=
        if vox.voxEdge ≠ .S_DIRECT_EDGE then
          if uniformityIdx = 1 then .NO_EDGE else .M_DIRECT_EDGE
        else vox.voxEdge
      voxPpi := vox.scoreSmooth.idxOf (vox.scoreSmooth.foldl max 0) % 2 ^ 8
      updateFlag := false }
  else vox

/-- `++scores[partitions[j]]`, a `uint16_t`. -/
def countScore (partitions scores : List ℕ) (j : ℕ) : Option (List ℕ) := do
  let label ← partitions[j]?
  let score ← scores[label]?
  some (scores.set label ((score + 1) % 2 ^ 16))

def updateScores (vox : AttributeOfGridCell) (pointIndices partitions : List ℕ) :
    Option AttributeOfGridCell := do
  let scoreSmooth ← pointIndices.foldlM (countScore partitions)
    (List.replicate vox.scoreSmooth.length 0)
  some ({ vox with scoreSmooth }).updateVoxelTypeWithScores

def updateEdge (vox : AttributeOfGridCell) (voxEdge : VoxEdge) : AttributeOfGridCell :=
  { vox with voxEdge }

def setUpdatedFlag (vox : AttributeOfGridCell) : AttributeOfGridCell :=
  { vox with updateFlag := true }

/-- What the iterations do with a voxel: an indirect edge is made of a voxel without edge only. -/
inductive Updates (pointIndices : List ℕ) : AttributeOfGridCell → AttributeOfGridCell → Prop
  | indirect {vox : AttributeOfGridCell} (h : vox.voxEdge = .NO_EDGE) :
      Updates pointIndices vox (vox.updateEdge .INDIRECT_EDGE)
  | flag (vox : AttributeOfGridCell) :
      Updates pointIndices vox vox.setUpdatedFlag
  | scores {vox vox' : AttributeOfGridCell} {partitions : List ℕ}
      (h : vox.updateScores pointIndices partitions = some vox') :
      Updates pointIndices vox vox'

end AttributeOfGridCell

/-- The largest coordinate, which begins with that of the first point. -/
def geoMax : List PCCPoint3D → Option ℤ
  | [] => none
  | pos :: pointCloud =>
    some ((pos :: pointCloud).foldl (fun m p => max (max (max m p.x) p.y) p.z) pos.x)

/-- The loop for `geoRange`. -/
def doublings : ℕ → ℕ → ℕ → ℕ
  | 0, _, geoRange => geoRange
  | fuel + 1, i, geoRange =>
    if i ≠ 0 then doublings fuel (i / 2) (geoRange * 2 % 2 ^ 64) else geoRange

/-- The shift of the keys, for a largest coordinate and the size of a voxel. -/
def gridDimShift (geoMax : ℤ) (voxDim : ℕ) : ℕ :=
  halvings 64 (doublings 64 (toSizeT (geoMax - 1)) 1 / 2 ^ voxDimShift voxDim)

/-- The voxels before the iterations. The weights are `lambda` divided by a number of points. -/
structure GridVoxels (D : Type) where
  gridCenters : List PCCPoint3D
  pointIndicesOfVox : List (List ℕ)
  attributeOfVox : List AttributeOfGridCell
  adj : List (List ℕ)
  adjDEV : List (List ℕ)
  weights : List D

/-- The points and the attribute of the voxel of a center. -/
def gridVoxel (shift orientationCount : ℕ) (grid : Voxels) (partition : List ℕ)
    (center : PCCPoint3D) : Option (List ℕ × AttributeOfGridCell) := do
  let positions ← grid (voxelKey shift center)
  let pointIndices := positions.map (· % 2 ^ 32)
  let vox : AttributeOfGridCell := { scoreSmooth := List.replicate orientationCount 0 }
  let vox ← (vox.setNumOfTotalPoints (getPointCount pointIndices)).updateScores
    pointIndices partition
  some (pointIndices, vox)

/-- The loop over the neighbours of a voxel: those that it visits, and the sum of their points. -/
def visitNeighbors (pointIndicesOfVox : List (List ℕ)) (maxNNCount : ℕ) :
    ℕ → List ℕ → Option (List ℕ × ℕ)
  | nnPointCount, [] => some ([], nnPointCount)
  | nnPointCount, j :: adj => do
    let pointIndices ← pointIndicesOfVox[j]?
    let nnPointCount := nnPointCount + getPointCount pointIndices
    if nnPointCount ≥ maxNNCount then some ([j], nnPointCount)
    else do
      let (visited, total) ← visitNeighbors pointIndicesOfVox maxNNCount nnPointCount adj
      some (j :: visited, total)

/-- A neighbour that may become an indirect edge. -/
def isNear (voxDim : ℕ) (p q : PCCPoint3D) : Bool :=
  let idvSearchRange := if voxDim ≥ 4 then 1 else 2
  (p.x - q.x).natAbs ≤ idvSearchRange && (p.y - q.y).natAbs ≤ idvSearchRange &&
    (p.z - q.z).natAbs ≤ idvSearchRange

/-- The voxels, from the points and attribute of each and the neighbours that are visited. -/
def GridVoxels.ofVisited {D : Type} (divideLambda : ℕ → D) (voxDim : ℕ)
    (gridCenters : List PCCPoint3D) (voxels : List (List ℕ × AttributeOfGridCell))
    (visited : List (List ℕ × ℕ)) : GridVoxels D where
  gridCenters := gridCenters
  pointIndicesOfVox := voxels.map Prod.fst
  attributeOfVox := voxels.map Prod.snd
  adj := visited.map Prod.fst
  adjDEV := (gridCenters.zip visited).map fun (p, neighbors) =>
    neighbors.1.filter fun j => isNear voxDim p (gridCenters.getD j default)
  weights := visited.map fun neighbors => divideLambda neighbors.2

/-- The search of the kd-tree: the points within a radius of a point. -/
abbrev RadiusSearch := List PCCPoint3D → PCCPoint3D → ℕ → List ℕ

/-- `refineSegmentationGridBased` up to the iterations. -/
def gridVoxels {D : Type} (searchRadius : RadiusSearch) (divideLambda : ℕ → D)
    (orientationCount maxNNCount voxDim radius : ℕ) (pointCloud : List PCCPoint3D)
    (partition : List ℕ) : Option (GridVoxels D) := do
  let geoMax ← geoMax pointCloud
  let shift := gridDimShift geoMax voxDim
  if 64 ≤ 2 * shift then none
  else do
    let groups := Grouping.groupAll (subToInd shift) (pointCloud.map (cellOf voxDim))
    let gridCenters := groups.centers.map pointOfCell
    let voxels ← gridCenters.mapM (gridVoxel shift orientationCount groups.positions partition)
    let pointIndicesOfVox := voxels.map Prod.fst
    let visited ← gridCenters.mapM fun p =>
      visitNeighbors pointIndicesOfVox maxNNCount 0
        (searchRadius gridCenters p (radius / 2 ^ voxDimShift voxDim))
    some (.ofVisited divideLambda voxDim gridCenters voxels visited)

def distance2 (p q : PCCPoint3D) : ℤ := (p.x - q.x) ^ 2 + (p.y - q.y) ^ 2 + (p.z - q.z) ^ 2

/-- The search finds points that are nearer than the radius, and the point itself if it is. -/
structure RadiusSearch.Sound (searchRadius : RadiusSearch) : Prop where
  near : ∀ points p radius, ∀ j ∈ searchRadius points p radius,
    ∃ q, points[j]? = some q ∧ distance2 p q < radius
  self : ∀ points p radius, p ∈ points → 0 < radius → searchRadius points p radius ≠ []

/-- A cell on the upper border of the grid, and the cell that the carry of its coordinate makes:
`dim` is the number of values that a coordinate has in the key. -/
def CarriesInto (dim : ℕ) (cell cell' : ℕ × ℕ × ℕ) : Prop :=
  cell.1 = dim ∧ cell'.1 = 0 ∧ cell'.2.1 = cell.2.1 + 1 ∧ cell'.2.2 = cell.2.2 ∨
  cell'.1 = cell.1 ∧ cell.2.1 = dim ∧ cell'.2.1 = 0 ∧ cell'.2.2 = cell.2.2 + 1 ∨
  cell.1 = dim ∧ cell'.1 = 0 ∧ cell'.2.1 + dim = cell.2.1 + 1 ∧ cell'.2.2 = cell.2.2 + 1

instance (dim : ℕ) (cell cell' : ℕ × ℕ × ℕ) : Decidable (CarriesInto dim cell cell') :=
  inferInstanceAs (Decidable (_ ∨ _ ∨ _))

/-- No carry makes the cell of a point that of another. -/
def NoCarry (voxDim shift : ℕ) (pointCloud : List PCCPoint3D) : Prop :=
  ∀ pos ∈ pointCloud, ∀ pos' ∈ pointCloud,
    ¬ CarriesInto (2 ^ shift) (cellOf voxDim pos) (cellOf voxDim pos')

def pointsInCell (voxDim : ℕ) (pointCloud : List PCCPoint3D) (pos : PCCPoint3D) : ℕ :=
  pointCloud.countP fun pos' => gridCell voxDim pos' = gridCell voxDim pos

/-- The keys tell the cells apart, and the counters, classes and weights are exact. -/
structure ExactGrid {D : Type} (divideLambda : ℕ → D) (voxDim shift : ℕ)
    (pointCloud : List PCCPoint3D) (grid : GridVoxels D) : Prop where
  injective : ∀ pos ∈ pointCloud, ∀ pos' ∈ pointCloud,
    subToInd shift (cellOf voxDim pos) = subToInd shift (cellOf voxDim pos') →
    gridCell voxDim pos = gridCell voxDim pos'
  counts : ∀ pointIndices ∈ grid.pointIndicesOfVox,
    getPointCount pointIndices = pointIndices.length
  single : ∀ (v : ℕ) pointIndices vox vox', grid.pointIndicesOfVox[v]? = some pointIndices →
    grid.attributeOfVox[v]? = some vox →
    Relation.ReflTransGen (AttributeOfGridCell.Updates pointIndices) vox vox' →
    (vox'.voxEdge = .S_DIRECT_EDGE ↔ pointIndices.length = 1)
  weights : ∀ (v : ℕ) adj, grid.adj[v]? = some adj → ∃ total : ℕ, 0 < total ∧
    total = (adj.map fun j => (grid.pointIndicesOfVox.getD j []).length).sum ∧
    grid.weights[v]? = some (divideLambda total)

/-- The voxels of the refinement exist and are exact. -/
def RefinesExactly {D : Type} (searchRadius : RadiusSearch) (divideLambda : ℕ → D)
    (orientationCount maxNNCount voxDim radius : ℕ) (pointCloud : List PCCPoint3D)
    (partition : List ℕ) : Prop :=
  ∃ largest grid, geoMax pointCloud = some largest ∧
    gridVoxels searchRadius divideLambda orientationCount maxNNCount voxDim radius pointCloud
      partition = some grid ∧
    ExactGrid divideLambda voxDim (gridDimShift largest voxDim) pointCloud grid

/-! The shift of the keys. -/

theorem doublings_eq {m : ℕ} {fuel i e : ℕ} (hlow : m ≠ 0 → 2 ^ (m - 1) ≤ i) (hhigh : i < 2 ^ m)
    (hfuel : m ≤ fuel) (he : e + m < 64) : doublings fuel i (2 ^ e) = 2 ^ (e + m) := by
  induction m generalizing fuel i e with
  | zero =>
    obtain rfl : i = 0 := by omega
    cases fuel with
    | zero => rfl
    | succ fuel => rfl
  | succ m ih =>
    obtain ⟨fuel, rfl⟩ := Nat.exists_eq_succ_of_ne_zero (show fuel ≠ 0 by omega)
    have hlow' : 2 ^ m ≤ i := hlow (Nat.succ_ne_zero m)
    have hpos := Nat.two_pow_pos m
    have hdouble : 2 ^ e * 2 % 2 ^ 64 = 2 ^ (e + 1) := by
      rw [← Nat.pow_succ]
      exact Nat.mod_eq_of_lt (Nat.pow_lt_pow_right Nat.one_lt_two (by omega))
    unfold doublings
    rw [if_pos (by omega), hdouble, ih _ _ (by omega) (by omega)]
    · congr 1
      omega
    · intro hne
      obtain ⟨j, rfl⟩ := Nat.exists_eq_succ_of_ne_zero hne
      rw [Nat.pow_succ] at hlow'
      rw [Nat.succ_sub_one]
      omega
    · rw [Nat.pow_succ] at hhigh
      omega

theorem gridDimShift_eq {k : ℕ} (hlt : k < 64) {largest : ℕ} (hlow : 2 ≤ largest)
    (hhigh : largest < 2 ^ 15) :
    ∃ m ≤ 15, largest ≤ 2 ^ m ∧ gridDimShift largest (2 ^ k) = m - k := by
  have hne : largest - 1 ≠ 0 := by omega
  have hlog := Nat.pow_log_le_self 2 hne
  have hlog' := Nat.lt_pow_succ_log_self Nat.one_lt_two (largest - 1)
  have hj : Nat.log 2 (largest - 1) < 15 := Nat.log_lt_of_lt_pow hne (by omega)
  generalize Nat.log 2 (largest - 1) = j at hlog hlog' hj
  rw [Nat.succ_eq_add_one] at hlog'
  have hconvert : toSizeT ((largest : ℤ) - 1) = largest - 1 := by
    rw [toSizeT_of_lt (by omega) (by omega)]
    omega
  have hrange : doublings 64 (largest - 1) (2 ^ 0) = 2 ^ (0 + (j + 1)) :=
    doublings_eq (fun _ => by rw [Nat.add_sub_cancel]; exact hlog) hlog' (by omega) (by omega)
  rw [Nat.pow_zero, Nat.zero_add] at hrange
  refine ⟨j + 1, hj, by omega, ?_⟩
  unfold gridDimShift voxDimShift
  rw [hconvert, hrange, halvings_two_pow hlt]
  by_cases hk : k ≤ j + 1
  · rw [Nat.pow_div hk Nat.two_pos, halvings_two_pow (by omega)]
  · have hzero : 2 ^ (j + 1) / 2 ^ k = 0 :=
      Nat.div_eq_of_lt (Nat.pow_lt_pow_right Nat.one_lt_two (by omega))
    rw [hzero, Nat.sub_eq_zero_of_le (by omega)]
    rfl

/-- A coordinate of a cell goes up to the number of cells, which is one more than the key has. -/
theorem cell_le_dim {k m n : ℕ} (hn : n ≤ 2 ^ m) : (n + 2 ^ k / 2) / 2 ^ k ≤ 2 ^ (m - k) := by
  have hk := Nat.two_pow_pos k
  have hhalf : 2 ^ k / 2 < 2 ^ k := Nat.div_lt_self hk Nat.one_lt_two
  have hpow : 2 ^ m ≤ 2 ^ (m - k) * 2 ^ k := by
    rw [← Nat.pow_add]
    exact Nat.pow_le_pow_right Nat.two_pos (by omega)
  apply Nat.le_of_lt_succ
  rw [Nat.div_lt_iff_lt_mul hk, Nat.succ_mul]
  omega

/-- The bounds of the cells for the shift of the keys. -/
structure CellInGrid (shift : ℕ) (cell : ℕ × ℕ × ℕ) : Prop where
  x_le : cell.1 ≤ 2 ^ shift
  y_le : cell.2.1 ≤ 2 ^ shift
  z_le : cell.2.2 ≤ 2 ^ shift

theorem geoMax_spec {pointCloud : List PCCPoint3D} {largest : ℤ}
    (h : geoMax pointCloud = some largest) :
    ∀ pos ∈ pointCloud, pos.x ≤ largest ∧ pos.y ≤ largest ∧ pos.z ≤ largest := by
  have hfold : ∀ (points : List PCCPoint3D) (m : ℤ),
      m ≤ points.foldl (fun m p => max (max (max m p.x) p.y) p.z) m ∧
      ∀ pos ∈ points, pos.x ≤ points.foldl (fun m p => max (max (max m p.x) p.y) p.z) m ∧
        pos.y ≤ points.foldl (fun m p => max (max (max m p.x) p.y) p.z) m ∧
        pos.z ≤ points.foldl (fun m p => max (max (max m p.x) p.y) p.z) m := by
    intro points
    induction points with
    | nil => exact fun m => ⟨le_rfl, nofun⟩
    | cons p points ih =>
      intro m
      rw [List.foldl_cons]
      obtain ⟨hstart, hrest⟩ := ih (max (max (max m p.x) p.y) p.z)
      refine ⟨by omega, ?_⟩
      intro pos hpos
      rcases List.mem_cons.mp hpos with rfl | hpos
      · omega
      · exact hrest pos hpos
  cases pointCloud with
  | nil => cases h
  | cons p points =>
    obtain rfl := Option.some.inj h
    exact (hfold (p :: points) p.x).2

theorem geoMax_lt {pointCloud : List PCCPoint3D} {largest bound : ℤ}
    (h : geoMax pointCloud = some largest)
    (hbound : ∀ pos ∈ pointCloud, pos.x < bound ∧ pos.y < bound ∧ pos.z < bound) :
    largest < bound := by
  have hfold : ∀ (points : List PCCPoint3D) (m : ℤ), m < bound →
      (∀ pos ∈ points, pos.x < bound ∧ pos.y < bound ∧ pos.z < bound) →
      points.foldl (fun m p => max (max (max m p.x) p.y) p.z) m < bound := by
    intro points
    induction points with
    | nil => exact fun m hm _ => hm
    | cons p points ih =>
      intro m hm hpoints
      have hp := hpoints p List.mem_cons_self
      rw [List.foldl_cons]
      apply ih
      · omega
      · exact fun pos hpos => hpoints pos (List.mem_cons_of_mem p hpos)
  cases pointCloud with
  | nil => cases h
  | cons p points =>
    obtain rfl := Option.some.inj h
    exact hfold (p :: points) p.x (hbound p List.mem_cons_self).1 hbound

section Cloud

variable {k : ℕ} {pointCloud : List PCCPoint3D} {largest : ℤ}

/-- The bounds of all cells: the shift is small, and the cells are in the grid or on its border. -/
theorem cellInGrid (hlt : k < 64) (hcloud : ∀ pos ∈ pointCloud, pos.InCube 15)
    (hmax : geoMax pointCloud = some largest) (hlow : 2 ≤ largest) (hhigh : largest < 2 ^ 15) :
    gridDimShift largest (2 ^ k) ≤ 15 ∧ ∀ pos ∈ pointCloud,
      CellInGrid (gridDimShift largest (2 ^ k)) (cellOf (2 ^ k) pos) := by
  obtain ⟨n, rfl⟩ := Int.eq_ofNat_of_zero_le (show 0 ≤ largest by omega)
  obtain ⟨m, hm, hle, hshift⟩ := gridDimShift_eq hlt (show 2 ≤ n by omega) (by omega)
  rw [hshift]
  refine ⟨by omega, ?_⟩
  intro pos hpos
  have hcoordinate : ∀ c : ℤ, 0 ≤ c → c ≤ (n : ℤ) → cellCoordinate (2 ^ k) c ≤ 2 ^ (m - k) := by
    intro c hc hcn
    obtain ⟨c, rfl⟩ := Int.eq_ofNat_of_zero_le hc
    rw [cellCoordinate_natCast hlt (by omega)]
    exact cell_le_dim (by omega)
  have hbounds := geoMax_spec hmax pos hpos
  have hnonneg := hcloud pos hpos
  constructor
  · exact hcoordinate pos.x hnonneg.x_nonneg hbounds.1
  · exact hcoordinate pos.y hnonneg.y_nonneg hbounds.2.1
  · exact hcoordinate pos.z hnonneg.z_nonneg hbounds.2.2

end Cloud

/-! Keys that agree. -/

/-- Digits of which the first may be one too large. -/
theorem digits_eq {dim a a' b b' : ℕ} (hpos : 0 < dim) (ha : a ≤ dim) (ha' : a' ≤ dim)
    (h : a + b * dim = a' + b' * dim) :
    a = a' ∧ b = b' ∨ a = dim ∧ a' = 0 ∧ b' = b + 1 ∨ a = 0 ∧ a' = dim ∧ b = b' + 1 := by
  rcases Nat.lt_trichotomy b b' with hlt | rfl | hlt
  · obtain ⟨d, rfl⟩ := Nat.exists_eq_add_of_lt hlt
    have hexpand : (b + d + 1) * dim = b * dim + d * dim + dim := by ring
    rw [hexpand] at h
    have hd : d * dim = 0 := by omega
    have hzero : d = 0 := (Nat.mul_eq_zero.mp hd).resolve_right hpos.ne'
    omega
  · omega
  · obtain ⟨d, rfl⟩ := Nat.exists_eq_add_of_lt hlt
    have hexpand : (b' + d + 1) * dim = b' * dim + d * dim + dim := by ring
    rw [hexpand] at h
    have hd : d * dim = 0 := by omega
    have hzero : d = 0 := (Nat.mul_eq_zero.mp hd).resolve_right hpos.ne'
    omega

/-- What a carry from the first digit makes of the others. -/
theorem carry_rest {dim x x' y y' z z' : ℕ} (hlast : x = dim) (hfirst : x' = 0)
    (hy : y ≤ dim) (hy' : y' ≤ dim) (hz' : z' ≤ dim) (h : y' + z' * dim = y + z * dim + 1) :
    x = dim ∧ x' = 0 ∧ y' = y + 1 ∧ z' = z ∨
    x' = x ∧ y = dim ∧ y' = 0 ∧ z' = z + 1 ∨
    x = dim ∧ x' = 0 ∧ y' + dim = y + 1 ∧ z' = z + 1 := by
  rcases Nat.lt_trichotomy z z' with hlt | rfl | hlt
  · obtain ⟨d, rfl⟩ := Nat.exists_eq_add_of_lt hlt
    have hexpand : (z + d + 1) * dim = z * dim + d * dim + dim := by ring
    rw [hexpand] at h
    have hd : d * dim ≤ 1 := by omega
    have hzero : d = 0 := by
      by_contra hne
      have hle : dim ≤ d * dim := Nat.le_mul_of_pos_left _ (Nat.pos_of_ne_zero hne)
      omega
    rw [hzero] at h ⊢
    omega
  · omega
  · obtain ⟨d, rfl⟩ := Nat.exists_eq_add_of_lt hlt
    have hexpand : (z' + d + 1) * dim = z' * dim + d * dim + dim := by ring
    rw [hexpand] at h
    omega

section Keys

variable {shift : ℕ} {cell cell' : ℕ × ℕ × ℕ}

theorem subToInd_of_inGrid (hshift : shift ≤ 15) (h : CellInGrid shift cell) :
    subToInd shift cell = cell.1 + (cell.2.1 + cell.2.2 * 2 ^ shift) * 2 ^ shift := by
  have hdim : 2 ^ shift ≤ 2 ^ 15 := Nat.pow_le_pow_right Nat.two_pos hshift
  have hy : cell.2.1 * 2 ^ shift ≤ 2 ^ 15 * 2 ^ 15 := Nat.mul_le_mul (h.y_le.trans hdim) hdim
  have hz : cell.2.2 * (2 ^ shift * 2 ^ shift) ≤ 2 ^ 15 * (2 ^ 15 * 2 ^ 15) :=
    Nat.mul_le_mul (h.z_le.trans hdim) (Nat.mul_le_mul hdim hdim)
  have hx := h.x_le.trans hdim
  unfold subToInd
  rw [Nat.two_mul, Nat.pow_add, Nat.mod_eq_of_lt (by omega), Nat.add_mul, Nat.mul_assoc,
    Nat.add_assoc]

theorem CarriesInto.key_eq (hshift : shift ≤ 15) (h : CellInGrid shift cell)
    (h' : CellInGrid shift cell') (hcarry : CarriesInto (2 ^ shift) cell cell') :
    subToInd shift cell = subToInd shift cell' := by
  rw [subToInd_of_inGrid hshift h, subToInd_of_inGrid hshift h']
  rcases hcarry with ⟨hx, hx', hy, hz⟩ | ⟨hx, hy, hy', hz⟩ | ⟨hx, hx', hy, hz⟩
  · rw [hx, hx', hy, hz]
    ring
  · rw [hx, hy, hy', hz]
    ring
  · have hsum : 2 ^ shift + (cell.2.1 + cell.2.2 * 2 ^ shift) * 2 ^ shift =
        (cell.2.1 + 1 + cell.2.2 * 2 ^ shift) * 2 ^ shift := by ring
    rw [hx, hx', hz, hsum, ← hy]
    ring

theorem CarriesInto.ne {dim : ℕ} (hcarry : CarriesInto dim cell cell') : cell ≠ cell' := by
  rintro rfl
  unfold CarriesInto at hcarry
  omega

/-- Keys agree for one cell, and for a carry. -/
theorem eq_or_carries (hshift : shift ≤ 15) (h : CellInGrid shift cell)
    (h' : CellInGrid shift cell') (hkey : subToInd shift cell = subToInd shift cell') :
    cell = cell' ∨ CarriesInto (2 ^ shift) cell cell' ∨ CarriesInto (2 ^ shift) cell' cell := by
  rw [subToInd_of_inGrid hshift h, subToInd_of_inGrid hshift h'] at hkey
  obtain ⟨x, y, z⟩ := cell
  obtain ⟨x', y', z'⟩ := cell'
  obtain ⟨hx, hy, hz⟩ := h
  obtain ⟨hx', hy', hz'⟩ := h'
  have hpos := Nat.two_pow_pos shift
  unfold CarriesInto
  generalize 2 ^ shift = dim at *
  dsimp only at *
  rcases digits_eq hpos hx hx' hkey with ⟨heq, hrest⟩ | ⟨hlast, hfirst, hrest⟩ |
    ⟨hfirst, hlast, hrest⟩
  · rcases digits_eq hpos hy hy' hrest with ⟨hy, hz⟩ | hcarry | hcarry
    · exact Or.inl (Prod.ext heq (Prod.ext hy hz))
    · exact Or.inr (Or.inl (Or.inr (Or.inl ⟨heq.symm, hcarry⟩)))
    · exact Or.inr (Or.inr (Or.inr (Or.inl ⟨heq, hcarry.2.1, hcarry.1, hcarry.2.2⟩)))
  · right
    left
    exact carry_rest hlast hfirst hy hy' hz' hrest
  · right
    right
    exact carry_rest hlast hfirst hy' hy hz hrest

end Keys

/-! The classes of the voxels. -/

namespace AttributeOfGridCell

variable {vox vox' : AttributeOfGridCell} {pointIndices partitions : List ℕ}

theorem updateVoxelTypeWithScores_single :
    vox.updateVoxelTypeWithScores.voxEdge = .S_DIRECT_EDGE ↔ vox.voxEdge = .S_DIRECT_EDGE := by
  unfold updateVoxelTypeWithScores
  by_cases hflag : vox.updateFlag = true
  · rw [if_pos hflag]
    by_cases hedge : vox.voxEdge = .S_DIRECT_EDGE
    · simp [hedge]
    · simp only [ne_eq, hedge, not_false_eq_true, if_true, iff_false]
      split_ifs
      · exact nofun
      · exact nofun
  · rw [if_neg hflag]

theorem updateScores_single (h : vox.updateScores pointIndices partitions = some vox') :
    vox'.voxEdge = .S_DIRECT_EDGE ↔ vox.voxEdge = .S_DIRECT_EDGE := by
  obtain ⟨scores, -, h⟩ := Option.bind_eq_some_iff.mp h
  obtain rfl := Option.some.inj h
  exact updateVoxelTypeWithScores_single

theorem Updates.single (h : Updates pointIndices vox vox') :
    vox'.voxEdge = .S_DIRECT_EDGE ↔ vox.voxEdge = .S_DIRECT_EDGE := by
  cases h with
  | indirect h =>
    rw [h]
    exact ⟨nofun, nofun⟩
  | flag => exact Iff.rfl
  | scores h => exact updateScores_single h

/-- No iteration makes or removes the edge of a single point. -/
theorem single_of_updates (h : Relation.ReflTransGen (Updates pointIndices) vox vox') :
    vox'.voxEdge = .S_DIRECT_EDGE ↔ vox.voxEdge = .S_DIRECT_EDGE := by
  induction h with
  | refl => exact Iff.rfl
  | tail _ hstep ih => exact hstep.single.trans ih

theorem setNumOfTotalPoints_single (vox : AttributeOfGridCell) (pointCount : ℕ) :
    (vox.setNumOfTotalPoints pointCount).voxEdge = .S_DIRECT_EDGE ↔ pointCount = 1 := by
  unfold setNumOfTotalPoints
  dsimp only
  split_ifs with hone
  · exact ⟨fun _ => hone, fun _ => rfl⟩
  · exact ⟨nofun, fun h => absurd h hone⟩

theorem exists_countScore {n : ℕ} {scores : List ℕ} {j : ℕ} (hj : j < partitions.length)
    (hlabels : ∀ label ∈ partitions, label < n) (hscores : scores.length = n) :
    ∃ scores', countScore partitions scores j = some scores' ∧ scores'.length = n := by
  have hlabel := List.getElem?_eq_getElem hj
  have hlt := hlabels _ (List.getElem_mem hj)
  rw [← hscores] at hlt
  have hscore := List.getElem?_eq_getElem hlt
  unfold countScore
  rw [hlabel, Option.bind_eq_bind, Option.bind_some, hscore]
  refine ⟨_, rfl, ?_⟩
  rw [List.length_set, hscores]

theorem exists_updateScores (hindices : ∀ j ∈ pointIndices, j < partitions.length)
    (hlabels : ∀ label ∈ partitions, label < vox.scoreSmooth.length) :
    ∃ vox', vox.updateScores pointIndices partitions = some vox' := by
  have hfold : ∃ scores, pointIndices.foldlM (countScore partitions)
        (List.replicate vox.scoreSmooth.length 0) = some scores ∧
      scores.length = vox.scoreSmooth.length := by
    refine Codec.exists_foldlM
      (P := fun _ (scores : List ℕ) => scores.length = vox.scoreSmooth.length) ?_ ?_
    · intro visited j scores hstart hlength
      apply exists_countScore _ hlabels hlength
      exact hindices j (hstart.subset (List.mem_append_right _ List.mem_cons_self))
    · exact List.length_replicate
  obtain ⟨scores, hscores, -⟩ := hfold
  unfold updateScores
  rw [hscores]
  exact ⟨_, rfl⟩

end AttributeOfGridCell

/-! The voxels before the iterations. -/

/-- The sum of what the voxels report. -/
def reportedPoints (pointIndicesOfVox : List (List ℕ)) (adj : List ℕ) : ℕ :=
  (adj.map fun j => getPointCount (pointIndicesOfVox.getD j [])).sum

theorem visitNeighbors_spec {pointIndicesOfVox : List (List ℕ)} (maxNNCount nnPointCount : ℕ)
    {adj : List ℕ} (hadj : ∀ j ∈ adj, j < pointIndicesOfVox.length) :
    ∃ visited, visitNeighbors pointIndicesOfVox maxNNCount nnPointCount adj =
        some (visited, nnPointCount + reportedPoints pointIndicesOfVox visited) ∧
      visited <+: adj ∧ (adj ≠ [] → visited ≠ []) := by
  induction adj generalizing nnPointCount with
  | nil => exact ⟨[], rfl, List.prefix_rfl, fun h => absurd rfl h⟩
  | cons j adj ih =>
    have hlt := hadj j List.mem_cons_self
    have hj := List.getElem?_eq_getElem hlt
    have hgetD : pointIndicesOfVox.getD j [] = pointIndicesOfVox[j] := by
      rw [List.getD_eq_getElem?_getD, hj, Option.getD_some]
    unfold visitNeighbors
    rw [hj, Option.bind_eq_bind, Option.bind_some]
    by_cases hlast : nnPointCount + getPointCount pointIndicesOfVox[j] ≥ maxNNCount
    · refine ⟨[j], ?_, List.prefix_append [j] adj, fun _ => List.cons_ne_nil _ _⟩
      rw [if_pos hlast]
      unfold reportedPoints
      rw [List.map_singleton, List.sum_singleton, hgetD]
    · obtain ⟨visited, hvisit, hstart, -⟩ :=
        ih (nnPointCount + getPointCount pointIndicesOfVox[j])
          fun i hi => hadj i (List.mem_cons_of_mem j hi)
      refine ⟨j :: visited, ?_, ?_, fun _ => List.cons_ne_nil _ _⟩
      · rw [if_neg hlast, hvisit]
        unfold reportedPoints
        rw [List.map_cons, List.sum_cons, hgetD, ← Nat.add_assoc]
        rfl
      · exact (List.prefix_cons_inj j).mpr hstart

/-- The labels of the points. -/
structure Labelled (orientationCount : ℕ) (pointCloud : List PCCPoint3D) (partition : List ℕ) :
    Prop where
  length : partition.length = pointCloud.length
  lt : ∀ label ∈ partition, label < orientationCount

/-- What the voxels are made of. -/
structure GridOf {D : Type} (searchRadius : RadiusSearch) (divideLambda : ℕ → D)
    (voxDim radius shift : ℕ) (pointCloud : List PCCPoint3D) (grid : GridVoxels D) : Prop where
  points : ∀ pointIndices ∈ grid.pointIndicesOfVox, ∃ pos ∈ pointCloud, pointIndices.length =
    pointCloud.countP fun pos' => subToInd shift (cellOf voxDim pos') =
      subToInd shift (cellOf voxDim pos)
  voxel : ∀ pos ∈ pointCloud, ∃ pointIndices ∈ grid.pointIndicesOfVox, pointIndices.length =
    pointCloud.countP fun pos' => subToInd shift (cellOf voxDim pos') =
      subToInd shift (cellOf voxDim pos)
  single : ∀ (v : ℕ) pointIndices vox, grid.pointIndicesOfVox[v]? = some pointIndices →
    grid.attributeOfVox[v]? = some vox →
    (vox.voxEdge = .S_DIRECT_EDGE ↔ getPointCount pointIndices = 1)
  lengths : grid.adj.length = grid.pointIndicesOfVox.length
  weights : ∀ (v : ℕ) adj, grid.adj[v]? = some adj →
    grid.weights[v]? = some (divideLambda (reportedPoints grid.pointIndicesOfVox adj)) ∧
    (∀ j ∈ adj, j < grid.pointIndicesOfVox.length) ∧ ∃ p ∈ grid.gridCenters,
      adj <+: searchRadius grid.gridCenters p (radius / 2 ^ voxDimShift voxDim) ∧
      (searchRadius grid.gridCenters p (radius / 2 ^ voxDimShift voxDim) ≠ [] → adj ≠ [])

theorem gridVoxel_spec {shift orientationCount : ℕ} {grid : Voxels} {partition positions : List ℕ}
    {center : PCCPoint3D} (hlabels : ∀ label ∈ partition, label < orientationCount)
    (hgrid : grid (voxelKey shift center) = some positions)
    (hpositions : ∀ n ∈ positions, n < partition.length) :
    ∃ vox, gridVoxel shift orientationCount grid partition center =
        some (positions.map (· % 2 ^ 32), vox) ∧
      (vox.voxEdge = .S_DIRECT_EDGE ↔ getPointCount (positions.map (· % 2 ^ 32)) = 1) := by
  have hindices : ∀ j ∈ positions.map (· % 2 ^ 32), j < partition.length := by
    intro j hj
    obtain ⟨n, hn, rfl⟩ := List.mem_map.mp hj
    exact (Nat.mod_le _ _).trans_lt (hpositions n hn)
  let vox : AttributeOfGridCell := { scoreSmooth := List.replicate orientationCount 0 }
  have hscores : ∀ label ∈ partition,
      label < (vox.setNumOfTotalPoints
        (getPointCount (positions.map (· % 2 ^ 32)))).scoreSmooth.length := by
    intro label hlabel
    change label < (List.replicate orientationCount 0).length
    rw [List.length_replicate]
    exact hlabels label hlabel
  obtain ⟨vox', hvox'⟩ := AttributeOfGridCell.exists_updateScores hindices hscores
  refine ⟨vox', ?_, ?_⟩
  · unfold gridVoxel
    rw [hgrid, Option.bind_eq_bind, Option.bind_some]
    dsimp only
    rw [hvox']
    rfl
  · exact (AttributeOfGridCell.updateScores_single hvox').trans
      (AttributeOfGridCell.setNumOfTotalPoints_single _ _)

section GridOf

variable {D : Type} {searchRadius : RadiusSearch} (divideLambda : ℕ → D)
  {orientationCount : ℕ} (maxNNCount : ℕ) {k : ℕ} (radius : ℕ) {pointCloud : List PCCPoint3D} {partition : List ℕ}
  {largest : ℤ}

def pointIndicesOfCell (k shift : ℕ) (pointCloud : List PCCPoint3D) (cell : ℕ × ℕ × ℕ) : List ℕ :=
  (Grouping.positionsOf (subToInd shift) (pointCloud.map (cellOf (2 ^ k)))
    (subToInd shift cell)).map (· % 2 ^ 32)

theorem length_pointIndicesOfCell (k shift : ℕ) (pointCloud : List PCCPoint3D)
    (cell : ℕ × ℕ × ℕ) : (pointIndicesOfCell k shift pointCloud cell).length =
      pointCloud.countP fun pos => subToInd shift (cellOf (2 ^ k) pos) = subToInd shift cell := by
  unfold pointIndicesOfCell
  rw [List.length_map, Grouping.length_positionsOf, List.countP_map]
  rfl

/-- The points and attributes of the voxels, in the order of their centers. -/
structure VoxelsAt (k shift : ℕ) (pointCloud : List PCCPoint3D) (centers : List (ℕ × ℕ × ℕ))
    (voxels : List (List ℕ × AttributeOfGridCell)) : Prop where
  length : voxels.length = centers.length
  entry : ∀ (v : ℕ) cell, centers[v]? = some cell →
    ∃ vox, voxels[v]? = some (pointIndicesOfCell k shift pointCloud cell, vox) ∧
      (vox.voxEdge = .S_DIRECT_EDGE ↔
        getPointCount (pointIndicesOfCell k shift pointCloud cell) = 1)

section Centers

variable {shift : ℕ} {groups : Grouping.Groups (ℕ × ℕ × ℕ) ℕ}
  {voxels : List (List ℕ × AttributeOfGridCell)}
  (hholds : groups.Holds (subToInd shift) (pointCloud.map (cellOf (2 ^ k))))

include hholds

theorem exists_voxelsAt (hlt : k < 64) (hcloud : ∀ pos ∈ pointCloud, pos.InCube 15)
    (hlabelled : Labelled orientationCount pointCloud partition) :
    ∃ voxels, (groups.centers.map pointOfCell).mapM
        (gridVoxel shift orientationCount groups.positions partition) = some voxels ∧
      VoxelsAt k shift pointCloud groups.centers voxels := by
  have hfits := centers_fit hlt hcloud hholds
  have hvoxel : ∀ cell ∈ groups.centers, ∃ vox,
      gridVoxel shift orientationCount groups.positions partition (pointOfCell cell) =
        some (pointIndicesOfCell k shift pointCloud cell, vox) ∧
      (vox.voxEdge = .S_DIRECT_EDGE ↔
        getPointCount (pointIndicesOfCell k shift pointCloud cell) = 1) := by
    intro cell hcell
    apply gridVoxel_spec hlabelled.lt
    · rw [voxelKey_pointOfCell (hfits cell hcell)]
      exact hholds.positions_of_mem (hholds.mem cell hcell)
    · intro n hn
      obtain ⟨cell', hcell', -⟩ := Grouping.mem_positionsOf.mp hn
      have hlength := (List.getElem?_eq_some_iff.mp hcell').1
      rw [List.length_map] at hlength
      rw [hlabelled.length]
      exact hlength
  have hdefined : ∀ p ∈ groups.centers.map pointOfCell,
      ∃ b, gridVoxel shift orientationCount groups.positions partition p = some b := by
    intro p hp
    obtain ⟨cell, hcell, rfl⟩ := List.mem_map.mp hp
    obtain ⟨vox, hvox, -⟩ := hvoxel cell hcell
    exact ⟨_, hvox⟩
  obtain ⟨voxels, hmap⟩ := Codec.exists_mapM_eq_some hdefined
  refine ⟨voxels, hmap, ?_, ?_⟩
  · rw [Codec.length_of_mapM_eq_some hmap, List.length_map]
  · intro v cell hv
    obtain ⟨vox, hvox, hsingle⟩ := hvoxel cell (List.mem_of_getElem? hv)
    refine ⟨vox, ?_, hsingle⟩
    rw [Codec.getElem?_of_mapM_eq_some hmap, List.getElem?_map, hv]
    exact hvox

omit hholds in
theorem VoxelsAt.exists_center (h : VoxelsAt k shift pointCloud groups.centers voxels) {v : ℕ}
    {pointIndices : List ℕ} {vox : AttributeOfGridCell}
    (hv : voxels[v]? = some (pointIndices, vox)) : ∃ cell ∈ groups.centers,
      pointIndices = pointIndicesOfCell k shift pointCloud cell ∧
      (vox.voxEdge = .S_DIRECT_EDGE ↔ getPointCount pointIndices = 1) := by
  have hcenter : v < groups.centers.length :=
    h.length ▸ (List.getElem?_eq_some_iff.mp hv).1
  obtain ⟨vox', hvox', hsingle⟩ := h.entry v _ (List.getElem?_eq_getElem hcenter)
  obtain ⟨rfl, rfl⟩ := Prod.mk.inj (Option.some.inj (hvox'.symm.trans hv))
  exact ⟨_, List.getElem_mem hcenter, rfl, hsingle⟩

/-- Every point has a voxel with all the points of its cell. -/
theorem VoxelsAt.exists_voxel (h : VoxelsAt k shift pointCloud groups.centers voxels)
    {pos : PCCPoint3D} (hpos : pos ∈ pointCloud) :
    ∃ pointIndices ∈ voxels.map Prod.fst, pointIndices.length =
      pointCloud.countP fun pos' => subToInd shift (cellOf (2 ^ k) pos') =
        subToInd shift (cellOf (2 ^ k) pos) := by
  obtain ⟨cell, hcell, hkey⟩ := hholds.exists_center _ (List.mem_map_of_mem hpos)
  obtain ⟨v, hv⟩ := List.mem_iff_getElem?.mp hcell
  obtain ⟨vox, hvox, -⟩ := h.entry v cell hv
  refine ⟨_, List.mem_map_of_mem (List.mem_of_getElem? hvox), ?_⟩
  rw [length_pointIndicesOfCell, hkey]

end Centers

/-- The neighbours that are visited are some of those that the search finds, from the first one
on. -/
theorem exists_visited {centers : List PCCPoint3D} {pointIndicesOfVox : List (List ℕ)}
    (hlength : pointIndicesOfVox.length = centers.length) (hsearch : searchRadius.Sound) :
    ∃ visited, (centers.mapM fun p => visitNeighbors pointIndicesOfVox maxNNCount 0
        (searchRadius centers p radius)) = some visited ∧
      visited.length = centers.length ∧
      ∀ (v : ℕ) adj total, visited[v]? = some (adj, total) →
        total = reportedPoints pointIndicesOfVox adj ∧
        (∀ j ∈ adj, j < pointIndicesOfVox.length) ∧ ∃ p ∈ centers,
          adj <+: searchRadius centers p radius ∧
          (searchRadius centers p radius ≠ [] → adj ≠ []) := by
  have hneighbor : ∀ p, ∀ j ∈ searchRadius centers p radius, j < pointIndicesOfVox.length := by
    intro p j hj
    obtain ⟨q, hq, -⟩ := hsearch.near _ _ _ j hj
    rw [hlength]
    exact (List.getElem?_eq_some_iff.mp hq).1
  have hdefined : ∀ p ∈ centers, ∃ b, visitNeighbors pointIndicesOfVox maxNNCount 0
      (searchRadius centers p radius) = some b := by
    intro p _
    obtain ⟨visited, hvisit, -⟩ := visitNeighbors_spec maxNNCount 0 (hneighbor p)
    exact ⟨_, hvisit⟩
  obtain ⟨visited, hvisit⟩ := Codec.exists_mapM_eq_some hdefined
  refine ⟨visited, hvisit, Codec.length_of_mapM_eq_some hvisit, ?_⟩
  intro v adj total hv
  rw [Codec.getElem?_of_mapM_eq_some hvisit] at hv
  obtain ⟨p, hp, hrun⟩ := Option.bind_eq_some_iff.mp hv
  obtain ⟨seen, hseen, hstart, hne⟩ := visitNeighbors_spec maxNNCount 0 (hneighbor p)
  obtain ⟨rfl, rfl⟩ := Prod.mk.inj (Option.some.inj (hseen.symm.trans hrun))
  refine ⟨Nat.zero_add _, fun j hj => hneighbor p j (hstart.subset hj), p,
    List.mem_of_getElem? hp, hstart, hne⟩

theorem exists_gridVoxels (hlt : k < 64) (hcloud : ∀ pos ∈ pointCloud, pos.InCube 15)
    (hlabelled : Labelled orientationCount pointCloud partition) (hsearch : searchRadius.Sound)
    (hmax : geoMax pointCloud = some largest)
    (hshift : gridDimShift largest (2 ^ k) ≤ 15) :
    ∃ grid, gridVoxels searchRadius divideLambda orientationCount maxNNCount (2 ^ k) radius
        pointCloud partition = some grid ∧
      GridOf searchRadius divideLambda (2 ^ k) radius (gridDimShift largest (2 ^ k)) pointCloud
        grid := by
  generalize hs : gridDimShift largest (2 ^ k) = shift at *
  let groups := Grouping.groupAll (subToInd shift) (pointCloud.map (cellOf (2 ^ k)))
  have hholds : groups.Holds (subToInd shift) (pointCloud.map (cellOf (2 ^ k))) :=
    Grouping.groupAll_holds _ _
  obtain ⟨voxels, hmap, hvoxels⟩ := exists_voxelsAt hholds hlt hcloud hlabelled
  have hlength : (voxels.map Prod.fst).length = (groups.centers.map pointOfCell).length := by
    rw [List.length_map, List.length_map, hvoxels.length]
  obtain ⟨visited, hvisit, hvisitedLength, hvisited⟩ := exists_visited maxNNCount
    (radius / 2 ^ voxDimShift (2 ^ k)) hlength hsearch
  refine ⟨.ofVisited divideLambda (2 ^ k) (groups.centers.map pointOfCell) voxels visited, ?_, ?_⟩
  · unfold gridVoxels
    rw [hmax, Option.bind_eq_bind, Option.bind_some]
    dsimp only
    rw [hs, if_neg (by omega), hmap, Option.bind_eq_bind, Option.bind_some, hvisit]
    rfl
  · constructor
    · intro pointIndices hmem
      obtain ⟨⟨pointIndices, vox⟩, hvoxel, rfl⟩ := List.mem_map.mp hmem
      obtain ⟨v, hv⟩ := List.mem_iff_getElem?.mp hvoxel
      obtain ⟨cell, hcell, rfl, -⟩ := hvoxels.exists_center hv
      obtain ⟨pos, hpos, rfl⟩ := List.mem_map.mp (hholds.mem cell hcell)
      exact ⟨pos, hpos, length_pointIndicesOfCell k shift pointCloud _⟩
    · exact fun pos hpos => hvoxels.exists_voxel hholds hpos
    · intro v pointIndices vox hindices hvox
      change (voxels.map Prod.fst)[v]? = some pointIndices at hindices
      change (voxels.map Prod.snd)[v]? = some vox at hvox
      rw [List.getElem?_map] at hindices hvox
      obtain ⟨⟨pointIndices, vox'⟩, hv, rfl⟩ := Option.map_eq_some_iff.mp hindices
      rw [hv] at hvox
      obtain rfl := Option.some.inj hvox
      obtain ⟨cell, -, -, hsingle⟩ := hvoxels.exists_center hv
      exact hsingle
    · change (visited.map Prod.fst).length = (voxels.map Prod.fst).length
      rw [List.length_map, hvisitedLength, hlength]
    · intro v adj hadj
      change (visited.map Prod.fst)[v]? = some adj at hadj
      rw [List.getElem?_map] at hadj
      obtain ⟨⟨adj, total⟩, hv, rfl⟩ := Option.map_eq_some_iff.mp hadj
      obtain ⟨htotal, hneighbors, hsearched⟩ := hvisited v adj total hv
      refine ⟨?_, hneighbors, hsearched⟩
      change (visited.map fun neighbors => divideLambda neighbors.2)[v]? = _
      rw [List.getElem?_map, hv, Option.map_some, htotal]
      rfl

theorem injective_iff (hlt : k < 64) (hcloud : ∀ pos ∈ pointCloud, pos.InCube 15) {shift : ℕ}
    (hshift : shift ≤ 15) (hcells : ∀ pos ∈ pointCloud, CellInGrid shift (cellOf (2 ^ k) pos)) :
    (∀ pos ∈ pointCloud, ∀ pos' ∈ pointCloud,
      subToInd shift (cellOf (2 ^ k) pos) = subToInd shift (cellOf (2 ^ k) pos') →
      gridCell (2 ^ k) pos = gridCell (2 ^ k) pos') ↔ NoCarry (2 ^ k) shift pointCloud := by
  constructor
  · intro hinjective pos hpos pos' hpos' hcarry
    have hkey := hcarry.key_eq hshift (hcells pos hpos) (hcells pos' hpos')
    have hcell := hinjective pos hpos pos' hpos' hkey
    exact hcarry.ne ((gridCell_eq_iff hlt (hcloud pos hpos) (hcloud pos' hpos')).mp hcell)
  · intro hcarry pos hpos pos' hpos' hkey
    rw [gridCell_eq_iff hlt (hcloud pos hpos) (hcloud pos' hpos')]
    rcases eq_or_carries hshift (hcells pos hpos) (hcells pos' hpos') hkey with heq | hup | hdown
    · exact heq
    · exact absurd hup (hcarry pos hpos pos' hpos')
    · exact absurd hdown (hcarry pos' hpos' pos hpos)

/-- Without carries, the points of a key are those of a cell. -/
theorem NoCarry.countP_eq {shift : ℕ} (h : NoCarry (2 ^ k) shift pointCloud) (hlt : k < 64)
    (hcloud : ∀ pos ∈ pointCloud, pos.InCube 15) (hshift : shift ≤ 15)
    (hcells : ∀ pos ∈ pointCloud, CellInGrid shift (cellOf (2 ^ k) pos)) {pos : PCCPoint3D}
    (hpos : pos ∈ pointCloud) :
    (pointCloud.countP fun pos' =>
        subToInd shift (cellOf (2 ^ k) pos') = subToInd shift (cellOf (2 ^ k) pos)) =
      pointsInCell (2 ^ k) pointCloud pos := by
  have hinjective := (injective_iff hlt hcloud hshift hcells).mpr h
  apply List.countP_congr
  intro pos' hpos'
  rw [decide_eq_true_iff, decide_eq_true_iff]
  constructor
  · exact hinjective pos' hpos' pos hpos
  · intro hcell
    rw [(gridCell_eq_iff hlt (hcloud pos' hpos') (hcloud pos hpos)).mp hcell]

theorem getPointCount_eq_iff {pointIndices : List ℕ} :
    getPointCount pointIndices = pointIndices.length ↔ pointIndices.length < 256 := by
  unfold getPointCount
  omega

/-- What the voxels report is what they have, if no counter overflows. -/
theorem reportedPoints_eq {pointIndicesOfVox : List (List ℕ)} {adj : List ℕ}
    (hcounts : ∀ is ∈ pointIndicesOfVox, getPointCount is = is.length)
    (hadj : ∀ j ∈ adj, j < pointIndicesOfVox.length) :
    reportedPoints pointIndicesOfVox adj =
      (adj.map fun j => (pointIndicesOfVox.getD j []).length).sum := by
  unfold reportedPoints
  congr 1
  apply List.map_congr_left
  intro j hj
  apply hcounts
  rw [List.getD_eq_getElem?_getD, List.getElem?_eq_getElem (hadj j hj), Option.getD_some]
  exact List.getElem_mem _

theorem distance2_nonneg (p q : PCCPoint3D) : 0 ≤ distance2 p q := by
  unfold distance2
  positivity

/-- The keys, counters, classes and weights are exact if and only if no carry makes the cell of a
point that of another, no cell has 256 points, and the radius is at least the size of a voxel. -/
theorem refinesExactly_iff (hlt : k < 64) (hcloud : ∀ pos ∈ pointCloud, pos.InCube 15)
    (hlabelled : Labelled orientationCount pointCloud partition) (hsearch : searchRadius.Sound)
    (hmax : geoMax pointCloud = some largest) (hlarge : 2 ≤ largest) :
    RefinesExactly searchRadius divideLambda orientationCount maxNNCount (2 ^ k) radius pointCloud
        partition ↔
      NoCarry (2 ^ k) (gridDimShift largest (2 ^ k)) pointCloud ∧
      (∀ pos ∈ pointCloud, pointsInCell (2 ^ k) pointCloud pos < 256) ∧ 2 ^ k ≤ radius := by
  have hlargest : largest < 2 ^ 15 := geoMax_lt hmax fun pos hpos =>
    ⟨(hcloud pos hpos).x_lt16, (hcloud pos hpos).y_lt16, (hcloud pos hpos).z_lt16⟩
  obtain ⟨hshift, hcells⟩ := cellInGrid hlt hcloud hmax hlarge hlargest
  obtain ⟨grid, hgrid, hof⟩ := exists_gridVoxels divideLambda maxNNCount radius hlt hcloud hlabelled hsearch hmax hshift
  have hvoxShift : voxDimShift (2 ^ k) = k := halvings_two_pow hlt
  constructor
  · intro hexact
    obtain ⟨largest', grid', hmax', hgrid', hexact⟩ := hexact
    obtain rfl := Option.some.inj (hmax.symm.trans hmax')
    obtain rfl := Option.some.inj (hgrid.symm.trans hgrid')
    have hcarry := (injective_iff hlt hcloud hshift hcells).mp hexact.injective
    refine ⟨hcarry, ?_, ?_⟩
    · intro pos hpos
      obtain ⟨is, his, hlength⟩ := hof.voxel pos hpos
      rw [← hcarry.countP_eq hlt hcloud hshift hcells hpos, ← hlength]
      exact getPointCount_eq_iff.mp (hexact.counts is his)
    · have hpoint : ∃ pos, pos ∈ pointCloud := by
        cases pointCloud with
        | nil => cases hmax
        | cons pos points => exact ⟨pos, List.mem_cons_self⟩
      obtain ⟨pos, hpos⟩ := hpoint
      obtain ⟨is, his, -⟩ := hof.voxel pos hpos
      have hadj : 0 < grid.adj.length := by
        rw [hof.lengths]
        exact List.length_pos_of_mem his
      have hfirst := List.getElem?_eq_getElem hadj
      obtain ⟨total, hpositive, htotal, -⟩ := hexact.weights 0 _ hfirst
      obtain ⟨-, -, p, hp, hstart, -⟩ := hof.weights 0 _ hfirst
      rw [hvoxShift] at hstart
      have hne : grid.adj[0] ≠ [] := by
        intro hnil
        rw [hnil] at htotal
        rw [htotal] at hpositive
        exact absurd hpositive (Nat.lt_irrefl 0)
      obtain ⟨j, hj⟩ := List.exists_mem_of_ne_nil _ hne
      obtain ⟨q, -, hnear⟩ := hsearch.near _ _ _ j (hstart.subset hj)
      have hzero := distance2_nonneg p q
      have hdiv : radius / 2 ^ k ≠ 0 := by
        intro hdiv
        rw [hdiv] at hnear
        omega
      exact (Nat.div_ne_zero_iff.mp hdiv).2
  · intro hcondition
    obtain ⟨hcarry, hfew, hradius⟩ := hcondition
    have hcounts : ∀ is ∈ grid.pointIndicesOfVox, getPointCount is = is.length := by
      intro is his
      obtain ⟨pos, hpos, hlength⟩ := hof.points is his
      rw [getPointCount_eq_iff, hlength, hcarry.countP_eq hlt hcloud hshift hcells hpos]
      exact hfew pos hpos
    have hpositive : ∀ is ∈ grid.pointIndicesOfVox, 0 < is.length := by
      intro is his
      obtain ⟨pos, hpos, hlength⟩ := hof.points is his
      rw [hlength]
      exact List.countP_pos_iff.mpr ⟨pos, hpos, decide_eq_true rfl⟩
    refine ⟨largest, grid, hmax, hgrid, ?_⟩
    constructor
    · exact (injective_iff hlt hcloud hshift hcells).mpr hcarry
    · exact hcounts
    · intro v is vox vox' his hvox hupdates
      rw [AttributeOfGridCell.single_of_updates hupdates, hof.single v is vox his hvox,
        hcounts is (List.mem_of_getElem? his)]
    · intro v adj hadj
      obtain ⟨hweight, hin, p, hp, -, hne⟩ := hof.weights v adj hadj
      rw [reportedPoints_eq hcounts hin] at hweight
      refine ⟨_, ?_, rfl, hweight⟩
      have hself := hsearch.self grid.gridCenters p (radius / 2 ^ k) hp
        (Nat.div_pos hradius (Nat.two_pow_pos k))
      rw [hvoxShift] at hne
      obtain ⟨j, hj⟩ := List.exists_mem_of_ne_nil _ (hne hself)
      have hjlt := hin j hj
      have hlength : 0 < (grid.pointIndicesOfVox.getD j []).length := by
        apply hpositive
        rw [List.getD_eq_getElem?_getD, List.getElem?_eq_getElem hjlt, Option.getD_some]
        exact List.getElem_mem _
      exact hlength.trans_le (List.single_le_sum (fun _ _ => Nat.zero_le _) _
        (List.mem_map_of_mem hj))

end GridOf

/-- The search by distance, and by index for points of one distance. -/
def nearestInRadius : RadiusSearch := fun points p radius =>
  (((List.range points.length).filter fun j =>
      distance2 p (points.getD j default) < radius).mergeSort fun i j =>
    distance2 p (points.getD i default) < distance2 p (points.getD j default) ||
      distance2 p (points.getD i default) == distance2 p (points.getD j default) && i ≤ j).take 32767

theorem nearestInRadius_sound : nearestInRadius.Sound where
  near points p radius j hj := by
    have hfound := List.mem_mergeSort.mp (List.mem_of_mem_take hj)
    obtain ⟨hrange, hnear⟩ := List.mem_filter.mp hfound
    have hpoint := List.getElem?_eq_getElem (List.mem_range.mp hrange)
    refine ⟨_, hpoint, ?_⟩
    rw [decide_eq_true_iff, List.getD_eq_getElem?_getD, hpoint, Option.getD_some] at hnear
    exact hnear
  self points p radius hp hradius := by
    obtain ⟨j, hj⟩ := List.mem_iff_getElem?.mp hp
    have hself : distance2 p p < (radius : ℤ) := by
      unfold distance2
      rw [sub_self, sub_self, sub_self]
      simpa using hradius
    intro hnil
    unfold nearestInRadius at hnil
    rw [List.take_eq_nil_iff] at hnil
    have hempty := congrArg List.length (hnil.resolve_left (by decide))
    rw [List.length_mergeSort] at hempty
    apply List.ne_nil_of_mem _ (List.length_eq_zero_iff.mp hempty)
    · exact j
    · rw [List.mem_filter, List.mem_range, decide_eq_true_iff, List.getD_eq_getElem?_getD, hj]
      exact ⟨(List.getElem?_eq_some_iff.mp hj).1, hself⟩

/-- A cloud in three voxels. -/
theorem refinesExactly_corner :
    RefinesExactly nearestInRadius id 6 384 (2 ^ 1) 128 [⟨0, 0, 0⟩, ⟨1, 0, 0⟩, ⟨5, 5, 5⟩]
      [0, 0, 1] := by
  have hcloud : ∀ pos ∈ [(⟨0, 0, 0⟩ : PCCPoint3D), ⟨1, 0, 0⟩, ⟨5, 5, 5⟩], pos.InCube 15 := by
    intro pos hmem
    simp only [List.mem_cons, List.not_mem_nil, or_false] at hmem
    rcases hmem with rfl | rfl | rfl
    all_goals
      constructor
      all_goals decide
  apply (refinesExactly_iff id 384 128 (by decide) hcloud ⟨rfl, by decide⟩ nearestInRadius_sound
    (show geoMax _ = some 5 by decide) (by decide)).mpr
  refine ⟨?_, by decide +kernel, by decide⟩
  unfold NoCarry
  decide +kernel

/-- A point on the upper border has the key of a point of another cell. -/
theorem not_refinesExactly_of_carry :
    ¬ RefinesExactly nearestInRadius id 6 384 (2 ^ 1) 128 [⟨7, 0, 0⟩, ⟨0, 1, 0⟩] [0, 0] := by
  intro hexact
  obtain ⟨largest, grid, hmax, -, hexact⟩ := hexact
  obtain rfl : (7 : ℤ) = largest := by
    have hseven : geoMax [⟨7, 0, 0⟩, ⟨0, 1, 0⟩] = some 7 := by decide
    exact Option.some.inj (hseven.symm.trans hmax)
  have hcell := hexact.injective ⟨7, 0, 0⟩ (by decide) ⟨0, 1, 0⟩ (by decide) (by decide +kernel)
  exact absurd hcell (by decide +kernel)

end V3C

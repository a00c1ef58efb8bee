import Mathlib.Data.Int.ModEq
import V3C.Reconstruction.GeneratePointCloud
import V3C.Store.Cells
import V3C.Store.Grouping

/-! Points that are put into the cells of a grid for the segmentation, and the labels of the cells
that are given back to the points. -/
namespace V3C

/-- The number of halvings of a `size_t` until it is at most one. -/
def halvings : ℕ → ℕ → ℕ
  | 0, _ => 0
  | fuel + 1, i => if i > 1 then halvings fuel (i / 2) + 1 else 0

/-- The loop for `voxDimShift`. -/
def voxDimShift (voxDim : ℕ) : ℕ := halvings 64 voxDim

def cellCoordinate (voxDim : ℕ) (c : ℤ) : ℕ :=
  (toSizeT c + voxDim / 2) % 2 ^ 64 / 2 ^ voxDimShift voxDim

def cellOf (voxDim : ℕ) (pos : PCCPoint3D) : ℕ × ℕ × ℕ :=
  (cellCoordinate voxDim pos.x, cellCoordinate voxDim pos.y, cellCoordinate voxDim pos.z)

/-- `subToInd`, with the shift of the second coordinate. -/
def subToInd (shift : ℕ) (cell : ℕ × ℕ × ℕ) : ℕ :=
  (cell.1 + cell.2.1 * 2 ^ shift + cell.2.2 * 2 ^ (2 * shift)) % 2 ^ 64

/-- The point for a cell: its coordinates are converted to `int16_t`. -/
def pointOfCell (cell : ℕ × ℕ × ℕ) : PCCPoint3D where
  x := Int.bmod cell.1 (2 ^ 16)
  y := Int.bmod cell.2.1 (2 ^ 16)
  z := Int.bmod cell.2.2 (2 ^ 16)

def voxelKey (shift : ℕ) (pos : PCCPoint3D) : ℕ :=
  subToInd shift (toSizeT pos.x, toSizeT pos.y, toSizeT pos.z)

abbrev Voxels := ℕ → Option (List ℕ)

/-- `convertPointsToVoxels`: the cloud of voxels, and the points of each voxel. A shift by 64 is
not defined. -/
def convertPointsToVoxels (source : List PCCPoint3D) (geoBits voxDim : ℕ) :
    Option (List PCCPoint3D × Voxels) :=
  if source ≠ [] ∧ 64 ≤ 2 * geoBits then none
  else
    let groups := Grouping.groupAll (subToInd geoBits) (source.map (cellOf voxDim))
    some (groups.centers.map pointOfCell, groups.positions)

section Assign

variable {α : Type}

/-- The loop over the cloud of voxels from index `i` on, for the labels or for the normals. -/
def assignVoxels (geoBits : ℕ) (voxels : Voxels) (values : List α) :
    ℕ → List PCCPoint3D → List α → Option (List α)
  | _, [], out => some out
  | i, pos :: sourceVox, out => do
    let value ← values[i]?
    let indices := (voxels (voxelKey geoBits pos)).getD []
    let out ← Cells.writeAll Cells.setAt (indices.map fun index => (index, value)) out
    assignVoxels geoBits voxels values (i + 1) sourceVox out

/-- `applyVoxelsDataToPoints`. The labels and normals of the points are zero before. -/
def applyVoxelsDataToPoints (pointCount geoBits : ℕ) (voxels : Voxels)
    (sourceVox : List PCCPoint3D) (zero : α) (normals : List α) (partitions : List ℕ) :
    Option (List ℕ × List α) := do
  let partitionsTmp ←
    assignVoxels geoBits voxels partitions 0 sourceVox (List.replicate pointCount 0)
  let normalsTmp ←
    assignVoxels geoBits voxels normals 0 sourceVox (List.replicate pointCount zero)
  some (partitionsTmp, normalsTmp)

end Assign

/-- The cell of a point: half a voxel is added to each coordinate, and the sum is divided. -/
def gridCell (voxDim : ℕ) (pos : PCCPoint3D) : ℤ × ℤ × ℤ :=
  ((pos.x + voxDim / 2) / voxDim, (pos.y + voxDim / 2) / voxDim, (pos.z + voxDim / 2) / voxDim)

/-- The voxels that the points are put into. -/
structure VoxelsOf (geoBits voxDim : ℕ) (source sourceVox : List PCCPoint3D) (voxels : Voxels) :
    Prop where
  exists_voxel : ∀ n < source.length, ∃! p, ∃ indices, voxels p = some indices ∧ n ∈ indices
  once : ∀ p indices, voxels p = some indices →
    indices ≠ [] ∧ indices.Nodup ∧ ∀ n ∈ indices, n < source.length
  share : ∀ (n m : ℕ) pos pos', source[n]? = some pos → source[m]? = some pos' →
    ((∃ p indices, voxels p = some indices ∧ n ∈ indices ∧ m ∈ indices) ↔
      gridCell voxDim pos = gridCell voxDim pos')
  center : ∀ p, (voxels p).isSome ↔ ∃ d ∈ sourceVox, voxelKey geoBits d = p
  nodup : (sourceVox.map (voxelKey geoBits)).Nodup

/-- Every point gets what its voxel has. -/
def AppliesVoxels {α : Type} (zero : α) (geoBits : ℕ) (source sourceVox : List PCCPoint3D)
    (voxels : Voxels) : Prop :=
  ∀ (normals : List α) (partitions : List ℕ), normals.length = sourceVox.length →
    partitions.length = sourceVox.length →
    ∃ normals' partitions', applyVoxelsDataToPoints source.length geoBits voxels sourceVox zero
        normals partitions = some (partitions', normals') ∧
      ∀ n < source.length, ∃ (v : ℕ) (d : PCCPoint3D) (indices : List ℕ),
        sourceVox[v]? = some d ∧ voxels (voxelKey geoBits d) = some indices ∧ n ∈ indices ∧
        partitions'[n]? = partitions[v]? ∧ normals'[n]? = normals[v]?

/-- The points are put into voxels, one for each cell, and get what their voxels have. -/
def MapsPoints {α : Type} (zero : α) (geoBits voxDim : ℕ) (source : List PCCPoint3D) : Prop :=
  ∃ sourceVox voxels, convertPointsToVoxels source geoBits voxDim = some (sourceVox, voxels) ∧
    VoxelsOf geoBits voxDim source sourceVox voxels ∧
    AppliesVoxels zero geoBits source sourceVox voxels

/-- A point with coordinates of the given number of bits, which are also values of `int16_t`. -/
structure PCCPoint3D.InCube (geoBits : ℕ) (pos : PCCPoint3D) : Prop where
  x_nonneg : 0 ≤ pos.x
  y_nonneg : 0 ≤ pos.y
  z_nonneg : 0 ≤ pos.z
  x_lt : pos.x < 2 ^ geoBits
  y_lt : pos.y < 2 ^ geoBits
  z_lt : pos.z < 2 ^ geoBits
  x_lt16 : pos.x < 2 ^ 15
  y_lt16 : pos.y < 2 ^ 15
  z_lt16 : pos.z < 2 ^ 15

/-- The keys of 64 bits hold the cells: no two points in one column have cells whose third
coordinates differ by a multiple of what the key can hold. -/
def KeysHold (geoBits voxDim : ℕ) (source : List PCCPoint3D) : Prop :=
  source = [] ∨ geoBits < 32 ∧ ∀ pos ∈ source, ∀ pos' ∈ source,
    (gridCell voxDim pos).1 = (gridCell voxDim pos').1 →
    (gridCell voxDim pos).2.1 = (gridCell voxDim pos').2.1 →
    (2 ^ (64 - 2 * geoBits) ∣ (gridCell voxDim pos).2.2 - (gridCell voxDim pos').2.2) →
    (gridCell voxDim pos).2.2 = (gridCell voxDim pos').2.2

/-! The cell of a point. -/

theorem halvings_two_pow {k fuel : ℕ} (h : k < fuel) : halvings fuel (2 ^ k) = k := by
  induction fuel generalizing k with
  | zero => omega
  | succ fuel ih =>
    unfold halvings
    cases k with
    | zero => exact if_neg (by decide)
    | succ k =>
      rw [if_pos (Nat.one_lt_two_pow (Nat.succ_ne_zero k)), Nat.pow_succ,
        Nat.mul_div_cancel _ Nat.two_pos, ih (by omega)]

section Cell

variable {k : ℕ}

theorem half_two_pow (hpos : 1 ≤ k) : 2 ^ k / 2 = 2 ^ (k - 1) := by
  obtain ⟨j, rfl⟩ := Nat.exists_eq_add_of_le hpos
  rw [Nat.add_comm, Nat.pow_succ, Nat.mul_div_cancel _ Nat.two_pos, Nat.add_sub_cancel]

theorem cellCoordinate_natCast (hlt : k < 64) {n : ℕ} (hn : n < 2 ^ 15) :
    cellCoordinate (2 ^ k) n = (n + 2 ^ k / 2) / 2 ^ k := by
  have hhalf : 2 ^ k / 2 ≤ 2 ^ 62 := by
    have hle : 2 ^ k ≤ 2 ^ 63 := Nat.pow_le_pow_right Nat.two_pos (by omega)
    omega
  have hconvert : toSizeT (n : ℤ) = n := by
    rw [toSizeT_of_lt (Int.natCast_nonneg n) (by omega), Int.toNat_natCast]
  unfold cellCoordinate voxDimShift
  rw [hconvert, halvings_two_pow hlt, Nat.mod_eq_of_lt (by omega)]

/-- A cell is no further from the origin than its points. -/
theorem cell_le (n : ℕ) : (n + 2 ^ k / 2) / 2 ^ k ≤ n := by
  by_cases hpos : 1 ≤ k
  · have hpow : 2 ^ k = 2 ^ (k - 1) * 2 := by
      rw [← Nat.pow_succ, Nat.succ_eq_add_one, Nat.sub_add_cancel hpos]
    have hdiv : n / 2 ^ (k - 1) ≤ n := Nat.div_le_self _ _
    rw [half_two_pow hpos, hpow, ← Nat.div_div_eq_div_mul,
      Nat.add_div_right _ (Nat.two_pow_pos (k - 1))]
    by_cases hzero : n = 0
    · rw [hzero, Nat.zero_div]
    · omega
  · obtain rfl : k = 0 := by omega
    exact (Nat.div_one _).le

/-- A coordinate of a cell that keys and points hold. -/
structure CellBounds (geoBits n : ℕ) : Prop where
  lt : n < 2 ^ geoBits
  lt16 : n < 2 ^ 15

theorem cellCoordinate_cast (hlt : k < 64) {c : ℤ} (hc : 0 ≤ c) (h16 : c < 2 ^ 15) :
    (cellCoordinate (2 ^ k) c : ℤ) = (c + ((2 ^ k : ℕ) : ℤ) / 2) / (2 ^ k : ℕ) := by
  obtain ⟨n, rfl⟩ := Int.eq_ofNat_of_zero_le hc
  rw [cellCoordinate_natCast hlt (show n < 2 ^ 15 by omega)]
  push_cast
  rfl

theorem cellCoordinate_bounds (hlt : k < 64) {geoBits : ℕ} {c : ℤ} (hc : 0 ≤ c)
    (hbits : c < 2 ^ geoBits) (h16 : c < 2 ^ 15) :
    CellBounds geoBits (cellCoordinate (2 ^ k) c) := by
  obtain ⟨n, rfl⟩ := Int.eq_ofNat_of_zero_le hc
  have hn : n < 2 ^ 15 := by omega
  have hnbits : n < 2 ^ geoBits := by exact_mod_cast hbits
  have hle := cell_le (k := k) n
  rw [cellCoordinate_natCast hlt hn]
  exact ⟨hle.trans_lt hnbits, hle.trans_lt hn⟩

end Cell

/-- A cell that keys and points hold. -/
structure CellFits (geoBits : ℕ) (cell : ℕ × ℕ × ℕ) : Prop where
  x : CellBounds geoBits cell.1
  y : CellBounds geoBits cell.2.1
  z : CellBounds geoBits cell.2.2

section Point

variable {k geoBits : ℕ} {pos pos' : PCCPoint3D}

theorem cellOf_fits (hlt : k < 64) (h : pos.InCube geoBits) :
    CellFits geoBits (cellOf (2 ^ k) pos) where
  x := cellCoordinate_bounds hlt h.x_nonneg h.x_lt h.x_lt16
  y := cellCoordinate_bounds hlt h.y_nonneg h.y_lt h.y_lt16
  z := cellCoordinate_bounds hlt h.z_nonneg h.z_lt h.z_lt16

theorem gridCell_eq (hlt : k < 64) (h : pos.InCube geoBits) :
    gridCell (2 ^ k) pos = (((cellOf (2 ^ k) pos).1 : ℤ), ((cellOf (2 ^ k) pos).2.1 : ℤ),
      ((cellOf (2 ^ k) pos).2.2 : ℤ)) := by
  unfold gridCell cellOf
  rw [cellCoordinate_cast hlt h.x_nonneg h.x_lt16, cellCoordinate_cast hlt h.y_nonneg h.y_lt16,
    cellCoordinate_cast hlt h.z_nonneg h.z_lt16]

theorem gridCell_eq_iff (hlt : k < 64) (h : pos.InCube geoBits)
    (h' : pos'.InCube geoBits) :
    gridCell (2 ^ k) pos = gridCell (2 ^ k) pos' ↔ cellOf (2 ^ k) pos = cellOf (2 ^ k) pos' := by
  rw [gridCell_eq hlt h, gridCell_eq hlt h']
  simp only [Prod.ext_iff, Int.natCast_inj]

end Point

/-! The keys of the cells. -/

theorem subToInd_eq {shift : ℕ} (hshift : shift < 32) {cell : ℕ × ℕ × ℕ}
    (hx : cell.1 < 2 ^ shift) (hy : cell.2.1 < 2 ^ shift) :
    subToInd shift cell = cell.2.1 * 2 ^ shift + cell.1 +
      2 ^ (2 * shift) * (cell.2.2 % 2 ^ (64 - 2 * shift)) := by
  have hpow : 2 ^ 64 = 2 ^ (2 * shift) * 2 ^ (64 - 2 * shift) := by
    rw [← Nat.pow_add]
    congr 1
    omega
  have hlow : cell.2.1 * 2 ^ shift + cell.1 < 2 ^ (2 * shift) := by
    rw [Nat.two_mul, Nat.pow_add]
    exact pixel_lt hx hy
  unfold subToInd
  rw [hpow, Nat.mod_mul, Nat.add_comm cell.1, Nat.add_mul_mod_self_right,
    Nat.mod_eq_of_lt hlow, Nat.add_mul_div_right _ _ (Nat.two_pow_pos _), Nat.div_eq_of_lt hlow,
    Nat.zero_add]

theorem subToInd_eq_iff {shift : ℕ} (hshift : shift < 32) {cell cell' : ℕ × ℕ × ℕ}
    (hx : cell.1 < 2 ^ shift) (hy : cell.2.1 < 2 ^ shift) (hx' : cell'.1 < 2 ^ shift)
    (hy' : cell'.2.1 < 2 ^ shift) :
    subToInd shift cell = subToInd shift cell' ↔ cell.1 = cell'.1 ∧ cell.2.1 = cell'.2.1 ∧
      cell.2.2 % 2 ^ (64 - 2 * shift) = cell'.2.2 % 2 ^ (64 - 2 * shift) := by
  have hlow : cell.2.1 * 2 ^ shift + cell.1 < 2 ^ (2 * shift) := by
    rw [Nat.two_mul, Nat.pow_add]
    exact pixel_lt hx hy
  have hlow' : cell'.2.1 * 2 ^ shift + cell'.1 < 2 ^ (2 * shift) := by
    rw [Nat.two_mul, Nat.pow_add]
    exact pixel_lt hx' hy'
  rw [subToInd_eq hshift hx hy, subToInd_eq hshift hx' hy']
  constructor
  · intro h
    have hmod := congrArg (· % 2 ^ (2 * shift)) h
    have hdiv := congrArg (· / 2 ^ (2 * shift)) h
    simp only [Nat.add_mul_mod_self_left, Nat.mod_eq_of_lt hlow, Nat.mod_eq_of_lt hlow'] at hmod
    simp only [Nat.add_mul_div_left _ _ (Nat.two_pow_pos _), Nat.div_eq_of_lt hlow,
      Nat.div_eq_of_lt hlow', Nat.zero_add] at hdiv
    obtain ⟨h1, h2⟩ := Prod.mk.inj (pixel_inj hx hx' hmod)
    exact ⟨h1, h2, hdiv⟩
  · intro h
    rw [h.1, h.2.1, h.2.2]

theorem voxelKey_pointOfCell {geoBits : ℕ} {cell : ℕ × ℕ × ℕ} (h : CellFits geoBits cell)
    (shift : ℕ) : voxelKey shift (pointOfCell cell) = subToInd shift cell := by
  have hconvert : ∀ n : ℕ, n < 2 ^ 15 → toSizeT (Int.bmod n (2 ^ 16)) = n := by
    intro n hn
    rw [Int.bmod_eq_of_le (by omega) (by omega), toSizeT_of_lt (Int.natCast_nonneg n) (by omega),
      Int.toNat_natCast]
  unfold voxelKey pointOfCell
  rw [hconvert _ h.x.lt16, hconvert _ h.y.lt16, hconvert _ h.z.lt16]

/-! The labels that the points get. -/

/-- The loop gives each position the value of its group, and leaves the others. -/
theorem assignVoxels_spec {α : Type} {geoBits : ℕ} {voxels : Voxels} (values : List α)
    {cells : List (ℕ × ℕ × ℕ)} (i : ℕ) (sourceVox : List PCCPoint3D) (out : List α)
    (hvalues : i + sourceVox.length ≤ values.length) (hlength : out.length = cells.length)
    (hgroups : ∀ d ∈ sourceVox, voxels (voxelKey geoBits d) =
      some (Grouping.positionsOf (subToInd geoBits) cells (voxelKey geoBits d)))
    (hnodup : (sourceVox.map (voxelKey geoBits)).Nodup) :
    ∃ out', assignVoxels geoBits voxels values i sourceVox out = some out' ∧
      out'.length = out.length ∧ ∀ (n : ℕ) cell, cells[n]? = some cell →
        (∀ (j : ℕ) d, sourceVox[j]? = some d → voxelKey geoBits d = subToInd geoBits cell →
          out'[n]? = values[i + j]?) ∧
        ((∀ d ∈ sourceVox, voxelKey geoBits d ≠ subToInd geoBits cell) → out'[n]? = out[n]?) := by
  induction sourceVox generalizing i out with
  | nil => exact ⟨out, rfl, rfl, fun n cell _ => ⟨nofun, fun _ => rfl⟩⟩
  | cons d sourceVox ih =>
    rw [List.length_cons] at hvalues
    rw [List.map_cons, List.nodup_cons] at hnodup
    obtain ⟨value, hvalue⟩ : ∃ value, values[i]? = some value :=
      ⟨_, List.getElem?_eq_getElem (show i < values.length by omega)⟩
    let is := Grouping.positionsOf (subToInd geoBits) cells (voxelKey geoBits d)
    let entries := is.map fun index => (index, value)
    have hkeys : entries.map Prod.fst = is := by
      rw [List.map_map]
      exact List.map_id _
    have hin : ∀ entry ∈ entries, (out[entry.1]?).isSome := by
      intro entry hentry
      obtain ⟨n, hn, rfl⟩ := List.mem_map.mp hentry
      obtain ⟨cell, hcell, -⟩ := Grouping.mem_positionsOf.mp hn
      have hlt := (List.getElem?_eq_some_iff.mp hcell).1
      rw [List.getElem?_eq_getElem (show n < out.length by omega)]
      rfl
    obtain ⟨out₁, hout₁⟩ := Cells.lawful_setAt.exists_writeAll hin
    have hlength₁ : out₁.length = out.length := Cells.length_writeAll_setAt hout₁
    obtain ⟨out', hout', hlength', hspec⟩ := ih (i + 1) out₁ (by omega) (hlength₁.trans hlength)
      (fun e he => hgroups e (List.mem_cons_of_mem d he)) hnodup.2
    refine ⟨out', ?_, hlength'.trans hlength₁, ?_⟩
    · unfold assignVoxels
      rw [hvalue, Option.bind_eq_bind, Option.bind_some, hgroups d List.mem_cons_self]
      dsimp only [Option.getD_some]
      rw [hout₁]
      exact hout'
    · intro n cell hcell
      obtain ⟨hlater, hother⟩ := hspec n cell hcell
      constructor
      · intro j e he hkey
        cases j with
        | zero =>
          obtain rfl := Option.some.inj he
          have hnone : ∀ e ∈ sourceVox, voxelKey geoBits e ≠ subToInd geoBits cell := by
            intro e he heq
            exact hnodup.1 (List.mem_map.mpr ⟨e, he, heq.trans hkey.symm⟩)
          have hmem : (n, value) ∈ entries :=
            List.mem_map.mpr ⟨n, Grouping.mem_positionsOf.mpr ⟨cell, hcell, hkey.symm⟩, rfl⟩
          have hset := Cells.lawful_setAt.get_of_mem hout₁
            (by rw [hkeys]; exact Grouping.nodup_positionsOf _ _ _) hmem
          rw [hother hnone, Nat.add_zero, hvalue]
          exact hset
        | succ j =>
          rw [hlater j e he hkey]
          congr 1
          omega
      · intro hne
        have hnot : n ∉ entries.map Prod.fst := by
          intro hmem
          rw [hkeys] at hmem
          obtain ⟨cell', hcell', hkey⟩ := Grouping.mem_positionsOf.mp hmem
          obtain rfl := Option.some.inj (hcell.symm.trans hcell')
          exact hne d List.mem_cons_self hkey.symm
        rw [hother fun e he => hne e (List.mem_cons_of_mem d he)]
        exact Cells.lawful_setAt.get_of_not_mem hout₁ hnot

section MapsPoints

variable {k geoBits : ℕ} {source : List PCCPoint3D}

/-- Points have one key exactly if their cells agree as far as the key holds them. -/
theorem key_eq_iff (hlt : k < 64) (hbits : geoBits < 32) {pos pos' : PCCPoint3D}
    (h : pos.InCube geoBits) (h' : pos'.InCube geoBits) :
    subToInd geoBits (cellOf (2 ^ k) pos) = subToInd geoBits (cellOf (2 ^ k) pos') ↔
      (gridCell (2 ^ k) pos).1 = (gridCell (2 ^ k) pos').1 ∧
      (gridCell (2 ^ k) pos).2.1 = (gridCell (2 ^ k) pos').2.1 ∧
      2 ^ (64 - 2 * geoBits) ∣ (gridCell (2 ^ k) pos).2.2 - (gridCell (2 ^ k) pos').2.2 := by
  have hfits := cellOf_fits hlt h
  have hfits' := cellOf_fits hlt h'
  rw [subToInd_eq_iff hbits hfits.x.lt hfits.y.lt hfits'.x.lt hfits'.y.lt,
    gridCell_eq hlt h, gridCell_eq hlt h']
  simp only [Int.natCast_inj]
  have hdvd := Nat.modEq_iff_dvd (n := 2 ^ (64 - 2 * geoBits)) (a := (cellOf (2 ^ k) pos').2.2)
    (b := (cellOf (2 ^ k) pos).2.2)
  rw [Nat.cast_pow, Nat.cast_ofNat] at hdvd
  rw [← hdvd]
  constructor
  · intro heq
    exact ⟨heq.1, heq.2.1, heq.2.2.symm⟩
  · intro heq
    exact ⟨heq.1, heq.2.1, heq.2.2.symm⟩

/-- Points of one key have one cell. -/
theorem KeysHold.key_eq_iff (h : KeysHold geoBits (2 ^ k) source) (hlt : k < 64)
    (hsource : ∀ pos ∈ source, pos.InCube geoBits) {pos pos' : PCCPoint3D} (hmem : pos ∈ source)
    (hmem' : pos' ∈ source) :
    subToInd geoBits (cellOf (2 ^ k) pos) = subToInd geoBits (cellOf (2 ^ k) pos') ↔
      gridCell (2 ^ k) pos = gridCell (2 ^ k) pos' := by
  rcases h with rfl | ⟨hbits, hz⟩
  · exact absurd hmem List.not_mem_nil
  · rw [V3C.key_eq_iff hlt hbits (hsource pos hmem) (hsource pos' hmem')]
    constructor
    · intro heq
      exact Prod.ext heq.1 (Prod.ext heq.2.1
        (hz pos hmem pos' hmem' heq.1 heq.2.1 heq.2.2))
    · intro heq
      rw [heq]
      exact ⟨rfl, rfl, by simp⟩

theorem convertPointsToVoxels_eq_some (h : source = [] ∨ geoBits < 32) (voxDim : ℕ) :
    convertPointsToVoxels source geoBits voxDim =
      some ((Grouping.groupAll (subToInd geoBits)
          (source.map (cellOf voxDim))).centers.map pointOfCell,
        (Grouping.groupAll (subToInd geoBits) (source.map (cellOf voxDim))).positions) := by
  unfold convertPointsToVoxels
  rw [if_neg]
  intro hundefined
  rcases h with rfl | hbits
  · exact hundefined.1 rfl
  · omega

variable {groups : Grouping.Groups (ℕ × ℕ × ℕ) ℕ}

theorem centers_fit (hlt : k < 64) (hsource : ∀ pos ∈ source, pos.InCube geoBits) {shift : ℕ}
    (h : groups.Holds (subToInd shift) (source.map (cellOf (2 ^ k)))) :
    ∀ cell ∈ groups.centers, CellFits geoBits cell := by
  intro cell hcell
  obtain ⟨pos, hmem, rfl⟩ := List.mem_map.mp (h.mem cell hcell)
  exact cellOf_fits hlt (hsource pos hmem)

theorem voxelKeys_eq (hfits : ∀ cell ∈ groups.centers, CellFits geoBits cell) :
    (groups.centers.map pointOfCell).map (voxelKey geoBits) =
      groups.centers.map (subToInd geoBits) := by
  rw [List.map_map]
  apply List.map_congr_left
  intro cell hcell
  rw [Function.comp_apply, voxelKey_pointOfCell (hfits cell hcell)]

/-- A point is in the voxel of its key. -/
theorem mem_voxel_iff (h : groups.Holds (subToInd geoBits) (source.map (cellOf (2 ^ k)))) {n : ℕ}
    {pos : PCCPoint3D} (hn : source[n]? = some pos) {p : ℕ} :
    (∃ indices, groups.positions p = some indices ∧ n ∈ indices) ↔
      p = subToInd geoBits (cellOf (2 ^ k) pos) := by
  have hcell : (source.map (cellOf (2 ^ k)))[n]? = some (cellOf (2 ^ k) pos) := by
    rw [List.getElem?_map, hn, Option.map_some]
  constructor
  · intro hin
    obtain ⟨indices, hindices, hmem⟩ := hin
    rw [h.eq_of_some hindices, Grouping.mem_positionsOf] at hmem
    obtain ⟨cell, hcell', hkey⟩ := hmem
    obtain rfl := Option.some.inj (hcell.symm.trans hcell')
    exact hkey.symm
  · intro hp
    rw [hp]
    refine ⟨_, h.positions_of_mem (List.mem_of_getElem? hcell), ?_⟩
    exact Grouping.mem_positionsOf.mpr ⟨_, hcell, rfl⟩

theorem KeysHold.voxelsOf (hkeys : KeysHold geoBits (2 ^ k) source) (hlt : k < 64)
    (hsource : ∀ pos ∈ source, pos.InCube geoBits)
    (h : groups.Holds (subToInd geoBits) (source.map (cellOf (2 ^ k)))) :
    VoxelsOf geoBits (2 ^ k) source (groups.centers.map pointOfCell) groups.positions := by
  have hfits := centers_fit hlt hsource h
  constructor
  · intro n hn
    have hpoint := List.getElem?_eq_getElem hn
    refine ⟨_, (mem_voxel_iff h hpoint).mpr rfl, ?_⟩
    intro p hp
    exact (mem_voxel_iff h hpoint).mp hp
  · intro p indices hp
    have heq := h.eq_of_some hp
    refine ⟨?_, ?_, ?_⟩
    · intro hnil
      rw [h.positions, if_pos (heq.symm.trans hnil)] at hp
      cases hp
    · rw [heq]
      exact Grouping.nodup_positionsOf _ _ _
    · intro n hn
      rw [heq, Grouping.mem_positionsOf] at hn
      obtain ⟨cell, hcell, -⟩ := hn
      have hlength := (List.getElem?_eq_some_iff.mp hcell).1
      rwa [List.length_map] at hlength
  · intro n m pos pos' hn hm
    rw [← hkeys.key_eq_iff hlt hsource (List.mem_of_getElem? hn) (List.mem_of_getElem? hm)]
    constructor
    · intro hshare
      obtain ⟨p, indices, hp, hin, hin'⟩ := hshare
      rw [← (mem_voxel_iff h hn).mp ⟨indices, hp, hin⟩, (mem_voxel_iff h hm).mp ⟨indices, hp, hin'⟩]
    · intro hkey
      obtain ⟨indices, hp, hin⟩ := (mem_voxel_iff h hn).mpr rfl
      obtain ⟨indices', hp', hin'⟩ := (mem_voxel_iff h hm).mpr hkey
      obtain rfl := Option.some.inj (hp.symm.trans hp')
      exact ⟨_, indices, hp, hin, hin'⟩
  · intro p
    rw [h.isSome_iff]
    constructor
    · intro hcenter
      obtain ⟨cell, hcell, hkey⟩ := hcenter
      exact ⟨_, List.mem_map_of_mem hcell, (voxelKey_pointOfCell (hfits cell hcell) _).trans hkey⟩
    · intro hcenter
      obtain ⟨d, hd, hkey⟩ := hcenter
      obtain ⟨cell, hcell, rfl⟩ := List.mem_map.mp hd
      exact ⟨cell, hcell, (voxelKey_pointOfCell (hfits cell hcell) _).symm.trans hkey⟩
  · rw [voxelKeys_eq hfits]
    exact h.nodup

theorem appliesVoxels {α : Type} (zero : α) (hlt : k < 64)
    (hsource : ∀ pos ∈ source, pos.InCube geoBits)
    (h : groups.Holds (subToInd geoBits) (source.map (cellOf (2 ^ k)))) :
    AppliesVoxels zero geoBits source (groups.centers.map pointOfCell) groups.positions := by
  have hfits := centers_fit hlt hsource h
  have hgroups : ∀ d ∈ groups.centers.map pointOfCell, groups.positions (voxelKey geoBits d) =
      some (Grouping.positionsOf (subToInd geoBits) (source.map (cellOf (2 ^ k)))
        (voxelKey geoBits d)) := by
    intro d hd
    obtain ⟨cell, hcell, rfl⟩ := List.mem_map.mp hd
    rw [voxelKey_pointOfCell (hfits cell hcell)]
    exact h.positions_of_mem (h.mem cell hcell)
  have hnodup : ((groups.centers.map pointOfCell).map (voxelKey geoBits)).Nodup := by
    rw [voxelKeys_eq hfits]
    exact h.nodup
  intro normals partitions hnormals hpartitions
  have hzeros : (List.replicate source.length 0).length =
      (source.map (cellOf (2 ^ k))).length := by
    rw [List.length_replicate, List.length_map]
  have hzeros' : (List.replicate source.length zero).length =
      (source.map (cellOf (2 ^ k))).length := by
    rw [List.length_replicate, List.length_map]
  obtain ⟨partitions', hassign, -, hspec⟩ := assignVoxels_spec partitions 0
    (groups.centers.map pointOfCell) (List.replicate source.length 0) (by omega) hzeros hgroups hnodup
  obtain ⟨normals', hassign', -, hspec'⟩ := assignVoxels_spec normals 0
    (groups.centers.map pointOfCell) (List.replicate source.length zero) (by omega) hzeros' hgroups hnodup
  refine ⟨normals', partitions', ?_, ?_⟩
  · unfold applyVoxelsDataToPoints
    rw [hassign, Option.bind_eq_bind, Option.bind_some, hassign']
    rfl
  · intro n hn
    have hpoint := List.getElem?_eq_getElem hn
    generalize source[n] = pos at hpoint
    have hcell : (source.map (cellOf (2 ^ k)))[n]? = some (cellOf (2 ^ k) pos) := by
      rw [List.getElem?_map, hpoint, Option.map_some]
    obtain ⟨cell, hcenter, hkey⟩ := h.exists_center _ (List.mem_of_getElem? hcell)
    obtain ⟨v, hv⟩ := List.mem_iff_getElem?.mp hcenter
    have hd : (groups.centers.map pointOfCell)[v]? = some (pointOfCell cell) := by
      rw [List.getElem?_map, hv, Option.map_some]
    have hsame := (voxelKey_pointOfCell (hfits cell hcenter) geoBits).trans hkey
    obtain ⟨indices, hindices, hin⟩ := (mem_voxel_iff h hpoint).mpr rfl
    refine ⟨v, pointOfCell cell, indices, hd, ?_, hin, ?_, ?_⟩
    · rw [hsame]
      exact hindices
    · rw [(hspec n _ hcell).1 v _ hd hsame, Nat.zero_add]
    · rw [(hspec' n _ hcell).1 v _ hd hsame, Nat.zero_add]

/-- The points are mapped to voxels and back exactly if the keys hold the cells. -/
theorem mapsPoints_iff {α : Type} (zero : α) (hlt : k < 64)
    (hsource : ∀ pos ∈ source, pos.InCube geoBits) :
    MapsPoints zero geoBits (2 ^ k) source ↔ KeysHold geoBits (2 ^ k) source := by
  have hholds := Grouping.groupAll_holds (subToInd geoBits) (source.map (cellOf (2 ^ k)))
  constructor
  · intro hmaps
    obtain ⟨sourceVox, voxels, hconvert, hvoxels, -⟩ := hmaps
    by_cases hnil : source = []
    · exact Or.inl hnil
    · have hbits : geoBits < 32 := by
        unfold convertPointsToVoxels at hconvert
        split_ifs at hconvert with hundefined
        have hdefined : ¬ 64 ≤ 2 * geoBits := fun h => hundefined ⟨hnil, h⟩
        omega
      rw [convertPointsToVoxels_eq_some (Or.inr hbits)] at hconvert
      obtain ⟨rfl, rfl⟩ := Prod.mk.inj (Option.some.inj hconvert)
      refine Or.inr ⟨hbits, ?_⟩
      intro pos hmem pos' hmem' hx hy hz
      obtain ⟨n, hn⟩ := List.mem_iff_getElem?.mp hmem
      obtain ⟨m, hm⟩ := List.mem_iff_getElem?.mp hmem'
      have hkey := (key_eq_iff hlt hbits (hsource pos hmem) (hsource pos' hmem')).mpr
        ⟨hx, hy, hz⟩
      obtain ⟨indices, hp, hin⟩ := (mem_voxel_iff hholds hn).mpr rfl
      obtain ⟨indices', hp', hin'⟩ := (mem_voxel_iff hholds hm).mpr hkey
      obtain rfl := Option.some.inj (hp.symm.trans hp')
      have hcells := (hvoxels.share n m pos pos' hn hm).mp ⟨_, indices, hp, hin, hin'⟩
      rw [hcells]
  · intro hkeys
    refine ⟨_, _, convertPointsToVoxels_eq_some (hkeys.imp_right And.left) (2 ^ k), ?_, ?_⟩
    · exact hkeys.voxelsOf hlt hsource hholds
    · exact appliesVoxels zero hlt hsource hholds

/-- Two points that have keys for 25 bits, and are in one voxel. -/
theorem not_mapsPoints_of_wideKey : ¬ MapsPoints 0 25 2 [⟨0, 0, 0⟩, ⟨0, 0, 32767⟩] := by
  intro hmaps
  obtain ⟨sourceVox, voxels, hconvert, hvoxels, -⟩ := hmaps
  have hvoxel : ((convertPointsToVoxels [⟨0, 0, 0⟩, ⟨0, 0, 32767⟩] 25 2).bind fun r => r.2 0) =
      some [0, 1] := by decide +kernel
  rw [hconvert, Option.bind_some] at hvoxel
  have hcells := (hvoxels.share 0 1 _ _ rfl rfl).mp
    ⟨0, [0, 1], hvoxel, List.mem_cons_self, List.mem_cons_of_mem _ List.mem_cons_self⟩
  exact absurd hcells (by decide +kernel)

/-- Keys of up to 24 bits for a coordinate hold all cells. -/
theorem keysHold_of_le (hlt : k < 64) (hsource : ∀ pos ∈ source, pos.InCube geoBits)
    (hbits : geoBits ≤ 24) : KeysHold geoBits (2 ^ k) source := by
  refine Or.inr ⟨by omega, ?_⟩
  intro pos hmem pos' hmem' _ _ hz
  have hcell := (cellOf_fits hlt (hsource pos hmem)).z.lt16
  have hcell' := (cellOf_fits hlt (hsource pos' hmem')).z.lt16
  rw [gridCell_eq hlt (hsource pos hmem), gridCell_eq hlt (hsource pos' hmem')] at hz ⊢
  dsimp only at hz ⊢
  have hpow : (2 : ℤ) ^ 16 ≤ 2 ^ (64 - 2 * geoBits) :=
    pow_le_pow_right₀ (by decide) (by omega)
  have hzero := Int.eq_zero_of_abs_lt_dvd hz (by
    rw [abs_lt]
    constructor
    · omega
    · omega)
  omega

/-- Points at both ends of the range, and two points of one voxel. -/
theorem mapsPoints_corners :
    MapsPoints 0 10 (2 ^ 1) [⟨0, 0, 0⟩, ⟨1023, 0, 1023⟩, ⟨1, 0, 0⟩, ⟨2, 0, 0⟩] := by
  have hsource : ∀ pos ∈ [(⟨0, 0, 0⟩ : PCCPoint3D), ⟨1023, 0, 1023⟩, ⟨1, 0, 0⟩, ⟨2, 0, 0⟩],
      pos.InCube 10 := by
    intro pos hmem
    simp only [List.mem_cons, List.not_mem_nil, or_false] at hmem
    rcases hmem with rfl | rfl | rfl | rfl
    all_goals
      constructor
      all_goals decide
  exact (mapsPoints_iff 0 (by decide) hsource).mpr
    (keysHold_of_le (by decide) hsource (by decide))

end MapsPoints

end V3C

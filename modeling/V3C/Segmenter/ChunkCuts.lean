import V3C.Codec.Traverse
import V3C.Reconstruction.GeneratePointCloud

/-! The chunks of a region of interest: the ranges of the cuts along each axis, and the points that
are assigned to the chunks. -/
namespace V3C

/-- `round` of a quotient, half away from zero. -/
def roundHalfAway (a : ℤ) (n : ℕ) : ℤ :=
  if 0 ≤ a then (2 * a + n) / (2 * n) else -((2 * -a + n) / (2 * n))

/-- A range of coordinates, both ends included. -/
structure Range where
  first : ℤ
  second : ℤ

def Range.Contains (range : Range) (n : ℤ) : Prop := range.first ≤ n ∧ n ≤ range.second

instance (range : Range) (n : ℤ) : Decidable (range.Contains n) :=
  inferInstanceAs (Decidable (range.first ≤ n ∧ n ≤ range.second))

/-- The ranges of the cuts along an axis, for the cut size `delta / numCuts`. -/
def cutRanges (delta : ℤ) (numCuts : ℕ) (shift : ℤ) : List Range :=
  (List.range numCuts).map fun i : ℕ =>
    { first := roundHalfAway (i * delta) numCuts + shift
      second := roundHalfAway ((i + 1) * delta - numCuts) numCuts + shift }

structure ChunkBox where
  rangeX : Range
  rangeY : Range
  rangeZ : Range

def ChunkBox.FullyContains (box : ChunkBox) (point : PCCPoint3D) : Prop :=
  box.rangeX.Contains point.x ∧ box.rangeY.Contains point.y ∧ box.rangeZ.Contains point.z

instance (box : ChunkBox) (point : PCCPoint3D) : Decidable (box.FullyContains point) :=
  inferInstanceAs (Decidable (_ ∧ _ ∧ _))

/-- A region has a point on each axis. -/
structure Region extends ChunkBox where
  x_le : rangeX.first ≤ rangeX.second
  y_le : rangeY.first ≤ rangeY.second
  z_le : rangeZ.first ≤ rangeZ.second

/-- The numbers of cuts along the axes. -/
structure CutsPerAxis where
  x : ℕ
  y : ℕ
  z : ℕ
  x_pos : 0 < x
  y_pos : 0 < y
  z_pos : 0 < z

def Range.delta (range : Range) : ℤ := range.second - range.first + 1

def chunkBoxes (region : Region) (numCuts : CutsPerAxis) : List ChunkBox :=
  (cutRanges region.rangeX.delta numCuts.x region.rangeX.first).flatMap fun rangeX =>
    (cutRanges region.rangeY.delta numCuts.y region.rangeY.first).flatMap fun rangeY =>
      (cutRanges region.rangeZ.delta numCuts.z region.rangeZ.first).map fun rangeZ =>
        { rangeX, rangeY, rangeZ }

def pointsIndexChunks (chunks : List ChunkBox) (points : List PCCPoint3D) : List (List ℕ) :=
  chunks.map fun box => (List.range points.length).filter fun i =>
    (points[i]?).any fun point => decide (box.FullyContains point)

/-- The chunks partition the region, so that each of its points is assigned to one of them. -/
structure PartitionsRegion (region : Region) (numCuts : CutsPerAxis) : Prop where
  disjoint : (chunkBoxes region numCuts).Pairwise fun box box' => ∀ point,
    ¬(box.FullyContains point ∧ box'.FullyContains point)
  covers : ∀ point, region.FullyContains point →
    ∃ box ∈ chunkBoxes region numCuts, box.FullyContains point
  assigned : ∀ (points : List PCCPoint3D) (i : ℕ) (point : PCCPoint3D), points[i]? = some point →
    region.FullyContains point → ∃! j : ℕ, ∃ indices,
      (pointsIndexChunks (chunkBoxes region numCuts) points)[j]? = some indices ∧ i ∈ indices

section Axis

variable {delta : ℤ} {n i : ℕ}

/-- The first coordinate after the cuts before `i`. -/
def cutBound (delta : ℤ) (n i : ℕ) : ℤ := roundHalfAway (i * delta) n

theorem cutBound_eq (hdelta : 0 < delta) : cutBound delta n i = (2 * (i * delta) + n) / (2 * n) :=
  if_pos (by positivity)

theorem cutBound_zero (hn : 0 < n) : cutBound delta n 0 = 0 := by
  unfold cutBound roundHalfAway
  rw [Nat.cast_zero, zero_mul, if_pos (le_refl 0), mul_zero, zero_add]
  exact Int.ediv_eq_zero_of_lt (by omega) (by omega)

theorem cutBound_last (hdelta : 0 < delta) (hn : 0 < n) : cutBound delta n n = delta := by
  rw [cutBound_eq hdelta, show 2 * ((n : ℤ) * delta) + n = n + 2 * n * delta by ring,
    Int.add_mul_ediv_left _ _ (by omega), Int.ediv_eq_zero_of_lt (by omega) (by omega), zero_add]

theorem cutBound_mono (hdelta : 0 < delta) {j : ℕ} (h : i ≤ j) :
    cutBound delta n i ≤ cutBound delta n j := by
  rw [cutBound_eq hdelta, cutBound_eq hdelta]
  rcases Nat.eq_zero_or_pos n with rfl | hn
  · rw [Nat.cast_zero, mul_zero, Int.ediv_zero, Int.ediv_zero]
  · have hmul : (i : ℤ) * delta ≤ j * delta := mul_le_mul_of_nonneg_right (by omega) hdelta.le
    exact Int.ediv_le_ediv (by omega) (by omega)

/-- A range ends before the next one begins, and leaves a coordinate out where the bound between
them is a half. -/
theorem cutLast_eq (hdelta : 0 < delta) (hn : 0 < n) :
    roundHalfAway ((i + 1) * delta - n) n =
      if 2 * (((i + 1 : ℕ) : ℤ) * delta) = n then -1 else cutBound delta n (i + 1) - 1 := by
  rw [cutBound_eq hdelta]
  have hpos : 0 < ((i + 1 : ℕ) : ℤ) * delta := by positivity
  have hcast : ((i : ℤ) + 1) * delta = ((i + 1 : ℕ) : ℤ) * delta := by push_cast; ring
  rw [hcast]
  generalize ((i + 1 : ℕ) : ℤ) * delta = y at hpos
  unfold roundHalfAway
  have hunit : (0 : ℤ) < 2 * n := by omega
  by_cases hlarge : 0 ≤ y - n
  · rw [if_pos hlarge, if_neg (by omega), show 2 * (y - (n : ℤ)) + n = 2 * y + n + 2 * n * -1 by ring,
      Int.add_mul_ediv_left _ _ hunit.ne']
    rfl
  · rw [if_neg hlarge]
    have hquotient : ∀ a k : ℤ, k * (2 * n) ≤ a → a < (k + 1) * (2 * n) → a / (2 * n) = k := by
      intro a k hle hlt
      apply le_antisymm
      · exact Int.lt_add_one_iff.mp (Int.ediv_lt_of_lt_mul hunit hlt)
      · exact Int.le_ediv_of_mul_le hunit hle
    rcases lt_trichotomy (2 * y) n with hless | heq | hmore
    · rw [if_neg hless.ne, hquotient _ 1 (by omega) (by omega), hquotient _ 0 (by omega) (by omega)]
      rfl
    · rw [if_pos heq, hquotient _ 1 (by omega) (by omega)]
    · rw [if_neg hmore.ne', hquotient _ 0 (by omega) (by omega),
        hquotient _ 1 (by omega) (by omega)]
      rfl

/-- The bound after a range that leaves a coordinate out. -/
theorem cutBound_of_half (hdelta : 0 < delta) (hn : 0 < n)
    (h : 2 * (((i + 1 : ℕ) : ℤ) * delta) = n) : cutBound delta n (i + 1) = 1 := by
  rw [cutBound_eq hdelta, h, ← two_mul]
  exact Int.ediv_self (by omega)

/-- The coordinates of a range, counted from the start of the axis. -/
theorem mem_cutRanges {shift x : ℤ} {range : Range} :
    range ∈ cutRanges delta n shift ∧ range.Contains x ↔
      ∃ i < n, range = ⟨cutBound delta n i + shift,
        roundHalfAway ((i + 1) * delta - n) n + shift⟩ ∧
      cutBound delta n i ≤ x - shift ∧ x - shift ≤ roundHalfAway ((i + 1) * delta - n) n := by
  unfold cutRanges
  constructor
  · intro h
    obtain ⟨hmem, hcontains⟩ := h
    obtain ⟨i, hi, rfl⟩ := List.mem_map.mp hmem
    have hlow := hcontains.1
    have hhigh := hcontains.2
    unfold cutBound
    dsimp only at hlow hhigh
    exact ⟨i, List.mem_range.mp hi, rfl, by omega, by omega⟩
  · intro h
    obtain ⟨i, hi, rfl, hlow, hhigh⟩ := h
    refine ⟨List.mem_map.mpr ⟨i, List.mem_range.mpr hi, rfl⟩, ?_, ?_⟩
    · dsimp only
      omega
    · dsimp only
      omega

theorem cutLast_lt (hdelta : 0 < delta) (hn : 0 < n) :
    roundHalfAway ((i + 1) * delta - n) n < cutBound delta n (i + 1) := by
  rw [cutLast_eq hdelta hn]
  split_ifs with h
  · rw [cutBound_of_half hdelta hn h]
    decide
  · omega

/-- No coordinate is in two ranges. -/
theorem cutRanges_pairwise (hdelta : 0 < delta) (hn : 0 < n) (shift : ℤ) :
    (cutRanges delta n shift).Pairwise fun range range' =>
      ∀ x, ¬(range.Contains x ∧ range'.Contains x) := by
  unfold cutRanges
  rw [List.pairwise_map]
  apply List.pairwise_lt_range.imp
  intro i j hij x h
  obtain ⟨⟨-, hhigh⟩, ⟨hlow, -⟩⟩ := h
  dsimp only at hhigh hlow
  have hlast := cutLast_lt (i := i) hdelta hn
  have hnext := cutBound_mono (n := n) hdelta (Nat.succ_le_of_lt hij)
  unfold cutBound at hlast hnext
  rw [Nat.succ_eq_add_one] at hnext
  omega

/-- Every coordinate of the axis is in a range, unless a bound between two cuts is one half. -/
theorem cutRanges_cover_iff (hdelta : 0 < delta) (hn : 0 < n) (shift : ℤ) :
    (∀ x, shift ≤ x → x < shift + delta → ∃ range ∈ cutRanges delta n shift, range.Contains x) ↔
      ¬2 * delta ∣ n := by
  constructor
  · intro hcover hdvd
    obtain ⟨m, hm⟩ := hdvd
    have hmpos : 0 < m := by
      by_contra hle
      have hneg : 2 * delta * m ≤ 0 := mul_nonpos_of_nonneg_of_nonpos (by omega) (by omega)
      omega
    obtain ⟨range, hmem, hcontains⟩ := hcover shift (le_refl shift) (by omega)
    obtain ⟨j, hj, -, hlow, hhigh⟩ := mem_cutRanges.mp ⟨hmem, hcontains⟩
    obtain ⟨i, hi⟩ : ∃ i : ℕ, m = ((i + 1 : ℕ) : ℤ) := ⟨(m - 1).toNat, by omega⟩
    have hhalf : 2 * (((i + 1 : ℕ) : ℤ) * delta) = n := by
      rw [hm, hi]
      ring
    have hbound := cutBound_of_half hdelta hn hhalf
    rw [sub_self] at hlow hhigh
    by_cases hij : j ≤ i
    · -- the ranges up to the half end below zero
      rw [cutLast_eq hdelta hn] at hhigh
      split_ifs at hhigh with hcase
      · omega
      · have hmul : ((j + 1 : ℕ) : ℤ) * delta ≤ ((i + 1 : ℕ) : ℤ) * delta :=
          mul_le_mul_of_nonneg_right (by omega) hdelta.le
        have hpos : 0 < ((j + 1 : ℕ) : ℤ) * delta := by positivity
        have hzero : cutBound delta n (j + 1) = 0 := by
          rw [cutBound_eq hdelta]
          exact Int.ediv_eq_zero_of_lt (by omega) (by omega)
        omega
    · have hmono := cutBound_mono (n := n) hdelta (by omega : i + 1 ≤ j)
      omega
  · intro hdvd x hlow hhigh
    have hexists : ∃ i : ℕ, x - shift < cutBound delta n (i + 1) := by
      refine ⟨n - 1, ?_⟩
      rw [Nat.sub_add_cancel hn, cutBound_last hdelta hn]
      omega
    have hfirst : ∀ i, (∀ j < i, ¬x - shift < cutBound delta n (j + 1)) →
        cutBound delta n i ≤ x - shift := by
      intro i hleast
      cases i with
      | zero =>
        rw [cutBound_zero hn]
        omega
      | succ i => exact not_lt.mp (hleast i (Nat.lt_succ_self i))
    have hlt : Nat.find hexists < n := by
      have hle : Nat.find hexists ≤ n - 1 := by
        apply Nat.find_min'
        rw [Nat.sub_add_cancel hn, cutBound_last hdelta hn]
        omega
      omega
    have hspec := Nat.find_spec hexists
    have hbelow := hfirst (Nat.find hexists) fun j hj => Nat.find_min hexists hj
    generalize Nat.find hexists = i at hlt hspec hbelow
    have hnot : 2 * (((i + 1 : ℕ) : ℤ) * delta) ≠ n := by
      intro hhalf
      apply hdvd
      refine ⟨((i + 1 : ℕ) : ℤ), ?_⟩
      rw [← hhalf]
      ring
    have hrange := mem_cutRanges.mpr ⟨i, hlt, rfl, hbelow, by
      rw [cutLast_eq hdelta hn, if_neg hnot]
      omega⟩
    exact ⟨_, hrange.1, hrange.2⟩

end Axis

variable {region : Region} {numCuts : CutsPerAxis}

theorem Range.delta_pos {range : Range} (h : range.first ≤ range.second) : 0 < range.delta := by
  unfold Range.delta
  omega

theorem Range.contains_iff {range : Range} {x : ℤ} :
    range.Contains x ↔ range.first ≤ x ∧ x < range.first + range.delta := by
  unfold Range.Contains Range.delta
  omega

theorem mem_chunkBoxes {box : ChunkBox} :
    box ∈ chunkBoxes region numCuts ↔
      box.rangeX ∈ cutRanges region.rangeX.delta numCuts.x region.rangeX.first ∧
      box.rangeY ∈ cutRanges region.rangeY.delta numCuts.y region.rangeY.first ∧
      box.rangeZ ∈ cutRanges region.rangeZ.delta numCuts.z region.rangeZ.first := by
  unfold chunkBoxes
  constructor
  · intro h
    obtain ⟨rangeX, hx, h⟩ := List.mem_flatMap.mp h
    obtain ⟨rangeY, hy, h⟩ := List.mem_flatMap.mp h
    obtain ⟨rangeZ, hz, rfl⟩ := List.mem_map.mp h
    exact ⟨hx, hy, hz⟩
  · intro h
    exact List.mem_flatMap.mpr ⟨box.rangeX, h.1, List.mem_flatMap.mpr ⟨box.rangeY, h.2.1,
      List.mem_map.mpr ⟨box.rangeZ, h.2.2, rfl⟩⟩⟩

/-- No point is in two chunks. -/
theorem chunkBoxes_pairwise (region : Region) (numCuts : CutsPerAxis) :
    (chunkBoxes region numCuts).Pairwise fun box box' => ∀ point,
      ¬(box.FullyContains point ∧ box'.FullyContains point) := by
  unfold chunkBoxes
  rw [List.pairwise_flatMap]
  constructor
  · intro rangeX _
    rw [List.pairwise_flatMap]
    constructor
    · intro rangeY _
      rw [List.pairwise_map]
      apply (cutRanges_pairwise (Range.delta_pos region.z_le) numCuts.z_pos _).imp
      intro range range' hz point h
      exact hz point.z ⟨h.1.2.2, h.2.2.2⟩
    · apply (cutRanges_pairwise (Range.delta_pos region.y_le) numCuts.y_pos _).imp
      intro range range' hy box hbox box' hbox' point h
      obtain ⟨rangeZ, -, rfl⟩ := List.mem_map.mp hbox
      obtain ⟨rangeZ', -, rfl⟩ := List.mem_map.mp hbox'
      exact hy point.y ⟨h.1.2.1, h.2.2.1⟩
  · apply (cutRanges_pairwise (Range.delta_pos region.x_le) numCuts.x_pos _).imp
    intro range range' hx box hbox box' hbox' point h
    obtain ⟨rangeY, -, hbox⟩ := List.mem_flatMap.mp hbox
    obtain ⟨rangeZ, -, rfl⟩ := List.mem_map.mp hbox
    obtain ⟨rangeY', -, hbox'⟩ := List.mem_flatMap.mp hbox'
    obtain ⟨rangeZ', -, rfl⟩ := List.mem_map.mp hbox'
    exact hx point.x ⟨h.1.1, h.2.1⟩

theorem mem_indices {box : ChunkBox} {points : List PCCPoint3D} {i : ℕ} {point : PCCPoint3D}
    (hpoint : points[i]? = some point) :
    i ∈ ((List.range points.length).filter fun i =>
      (points[i]?).any fun point => decide (box.FullyContains point)) ↔ box.FullyContains point := by
  have hlt := (List.getElem?_eq_some_iff.mp hpoint).1
  rw [List.mem_filter, hpoint, Option.any_some, decide_eq_true_eq, List.mem_range]
  exact and_iff_right hlt

/-- The chunks partition a region unless twice its extent along an axis divides the number of cuts
along that axis. -/
theorem partitionsRegion_iff (region : Region) (numCuts : CutsPerAxis) :
    PartitionsRegion region numCuts ↔
      ¬2 * region.rangeX.delta ∣ numCuts.x ∧ ¬2 * region.rangeY.delta ∣ numCuts.y ∧
        ¬2 * region.rangeZ.delta ∣ numCuts.z := by
  have hx := cutRanges_cover_iff (Range.delta_pos region.x_le) numCuts.x_pos region.rangeX.first
  have hy := cutRanges_cover_iff (Range.delta_pos region.y_le) numCuts.y_pos region.rangeY.first
  have hz := cutRanges_cover_iff (Range.delta_pos region.z_le) numCuts.z_pos region.rangeZ.first
  rw [← hx, ← hy, ← hz]
  have hfirstX : region.rangeX.Contains region.rangeX.first := ⟨le_refl _, region.x_le⟩
  have hfirstY : region.rangeY.Contains region.rangeY.first := ⟨le_refl _, region.y_le⟩
  have hfirstZ : region.rangeZ.Contains region.rangeZ.first := ⟨le_refl _, region.z_le⟩
  constructor
  · intro h
    refine ⟨?_, ?_, ?_⟩
    · intro x hlow hhigh
      obtain ⟨box, hbox, hcontains⟩ := h.covers ⟨x, region.rangeY.first, region.rangeZ.first⟩
        ⟨Range.contains_iff.mpr ⟨hlow, hhigh⟩, hfirstY, hfirstZ⟩
      exact ⟨box.rangeX, (mem_chunkBoxes.mp hbox).1, hcontains.1⟩
    · intro y hlow hhigh
      obtain ⟨box, hbox, hcontains⟩ := h.covers ⟨region.rangeX.first, y, region.rangeZ.first⟩
        ⟨hfirstX, Range.contains_iff.mpr ⟨hlow, hhigh⟩, hfirstZ⟩
      exact ⟨box.rangeY, (mem_chunkBoxes.mp hbox).2.1, hcontains.2.1⟩
    · intro z hlow hhigh
      obtain ⟨box, hbox, hcontains⟩ := h.covers ⟨region.rangeX.first, region.rangeY.first, z⟩
        ⟨hfirstX, hfirstY, Range.contains_iff.mpr ⟨hlow, hhigh⟩⟩
      exact ⟨box.rangeZ, (mem_chunkBoxes.mp hbox).2.2, hcontains.2.2⟩
  · intro h
    obtain ⟨hx, hy, hz⟩ := h
    have hcovers : ∀ point, region.FullyContains point →
        ∃ box ∈ chunkBoxes region numCuts, box.FullyContains point := by
      intro point hpoint
      obtain ⟨hpx, hpy, hpz⟩ := hpoint
      rw [Range.contains_iff] at hpx hpy hpz
      obtain ⟨rangeX, hmemX, hcontainsX⟩ := hx point.x hpx.1 hpx.2
      obtain ⟨rangeY, hmemY, hcontainsY⟩ := hy point.y hpy.1 hpy.2
      obtain ⟨rangeZ, hmemZ, hcontainsZ⟩ := hz point.z hpz.1 hpz.2
      exact ⟨⟨rangeX, rangeY, rangeZ⟩, mem_chunkBoxes.mpr ⟨hmemX, hmemY, hmemZ⟩, hcontainsX,
        hcontainsY, hcontainsZ⟩
    refine ⟨chunkBoxes_pairwise region numCuts, hcovers, ?_⟩
    intro points i point hpoint hcontains
    apply Codec.existsUnique_getElem?
    · unfold pointsIndexChunks
      rw [List.pairwise_map]
      apply (chunkBoxes_pairwise region numCuts).imp
      intro box box' hdisjoint hboth
      rw [mem_indices hpoint, mem_indices hpoint] at hboth
      exact hdisjoint point hboth
    · obtain ⟨box, hbox, hin⟩ := hcovers point hcontains
      refine ⟨_, List.mem_map_of_mem hbox, ?_⟩
      rw [mem_indices hpoint]
      exact hin

/-- A region of one point, cut in two along an axis. -/
def onePoint : Region where
  rangeX := ⟨5, 5⟩
  rangeY := ⟨5, 5⟩
  rangeZ := ⟨5, 5⟩
  x_le := by decide
  y_le := by decide
  z_le := by decide

theorem not_partitionsRegion_onePoint :
    ¬PartitionsRegion onePoint ⟨2, 1, 1, by decide, by decide, by decide⟩ := by
  intro h
  obtain ⟨box, hbox, hcontains⟩ := h.covers ⟨5, 5, 5⟩ (by decide)
  have hnone : ∀ box ∈ chunkBoxes onePoint ⟨2, 1, 1, by decide, by decide, by decide⟩,
      ¬box.FullyContains ⟨5, 5, 5⟩ := by decide
  exact hnone box hbox hcontains

end V3C

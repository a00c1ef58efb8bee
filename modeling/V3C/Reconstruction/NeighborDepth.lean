import V3C.Codec.Traverse
import V3C.Packing.CanvasRectangle
import V3C.Reconstruction.GeneratePointCloud

/-! The depth that a pixel takes from its neighbours, for point local reconstruction. -/
namespace V3C

/-- The values of an `int` that a loop runs through, the last one included. -/
def intRange (first last : ℤ) : List ℤ :=
  (List.range (last + 1 - first).toNat).map fun i : ℕ => first + i

theorem mem_intRange {first last a : ℤ} : a ∈ intRange first last ↔ first ≤ a ∧ a ≤ last := by
  unfold intRange
  rw [List.mem_map]
  constructor
  · rintro ⟨i, hi, rfl⟩
    rw [List.mem_range] at hi
    omega
  · intro h
    exact ⟨(a - first).toNat, List.mem_range.mpr (by omega), by omega⟩

namespace PCCCodec

/-- The pixels of the search window, column by column. -/
def searchWindow (frame : PCCImageGeometry) (xOrg yOrg neighboring : ℕ) : List (ℤ × ℤ) :=
  let x0 := max 0 ((xOrg : ℤ) - neighboring)
  let x1 := min ((xOrg : ℤ) + neighboring) (toInt32 frame.width)
  let y0 := max 0 ((yOrg : ℤ) - neighboring)
  let y1 := min ((yOrg : ℤ) + neighboring) (toInt32 frame.height)
  (intRange x0 x1).flatMap fun x => (intRange y0 y1).map fun y => (x, y)

/-- One neighbour. -/
def neighborStep (frame : PCCImageGeometry) (patch : EomPatch) (dOrg threshold deltaMax : ℤ)
    (pixel : ℤ × ℤ) : Option ℤ := do
  let value ← frame.getValue (toSizeT pixel.1, toSizeT pixel.2)
  let delta := patch.generateNormalCoordinate value.toNat - dOrg
  if patch.projectionMode = 0 then
    some (if delta ≤ threshold ∧ deltaMax < delta then delta else deltaMax)
  else some (if -threshold ≤ delta ∧ delta < deltaMax then delta else deltaMax)

def getDeltaNeighbors (frame : PCCImageGeometry) (patch : EomPatch)
    (xOrg yOrg neighboring : ℕ) (threshold : ℤ) : Option ℤ := do
  let value ← frame.getValue (xOrg, yOrg)
  let dOrg := patch.generateNormalCoordinate value.toNat
  let deltaMax ← (searchWindow frame xOrg yOrg neighboring).foldlM
    (neighborStep frame patch dOrg threshold) 0
  some (if deltaMax = 0 then deltaMax
    else if patch.projectionMode = 0 then deltaMax - 1 else deltaMax + 1)

end PCCCodec

section

variable {frame : PCCImageGeometry} {patch : EomPatch} {x y neighboring : ℕ} {threshold : ℤ}

/-- A pixel of the picture at most a number of columns and rows away. -/
structure IsNeighbor (frame : PCCImageGeometry) (x y neighboring : ℕ) (p : ℕ × ℕ) : Prop where
  inside : p.1 < frame.width ∧ p.2 < frame.height
  column : p.1 ≤ x + neighboring ∧ x ≤ p.1 + neighboring
  row : p.2 ≤ y + neighboring ∧ y ≤ p.2 + neighboring

/-- A difference of normal coordinates, counted away from the projection plane. -/
def EomPatch.away (patch : EomPatch) (delta : ℤ) : ℤ :=
  if patch.projectionMode = 0 then delta else -delta

/-- How far a neighbour lies behind the pixel. -/
def depthBehind (frame : PCCImageGeometry) (patch : EomPatch) (x y : ℕ) (p : ℕ × ℕ) : ℤ :=
  patch.away (patch.generateNormalCoordinate (frame.channel p).toNat -
    patch.generateNormalCoordinate (frame.channel (x, y)).toNat)

/-- A neighbour behind the pixel by no more than the threshold. -/
structure Admissible (frame : PCCImageGeometry) (patch : EomPatch) (x y neighboring : ℕ)
    (threshold : ℤ) (p : ℕ × ℕ) : Prop where
  neighbor : IsNeighbor frame x y neighboring p
  behind : 0 < depthBehind frame patch x y p
  near : depthBehind frame patch x y p ≤ threshold

/-- The search returns, and stays within the threshold and just before the admissible neighbour
that lies furthest behind. -/
def FindsNeighborDepth (frame : PCCImageGeometry) (patch : EomPatch) (x y neighboring : ℕ)
    (threshold : ℤ) : Prop :=
  ∃ d, PCCCodec.getDeltaNeighbors frame patch x y neighboring threshold = some d ∧
    (if patch.projectionMode = 0 then 0 ≤ d ∧ d < threshold else -threshold < d ∧ d ≤ 0) ∧
    ((∀ p, ¬Admissible frame patch x y neighboring threshold p) ∧ d = 0 ∨
      ∃ p, Admissible frame patch x y neighboring threshold p ∧
        (∀ q, Admissible frame patch x y neighboring threshold q →
          depthBehind frame patch x y q ≤ depthBehind frame patch x y p) ∧
        |d| = depthBehind frame patch x y p - 1)

theorem mem_searchWindow (hwidth : frame.width < 2 ^ 31) (hheight : frame.height < 2 ^ 31)
    {a b : ℤ} : (a, b) ∈ PCCCodec.searchWindow frame x y neighboring ↔
      ((0 ≤ a ∧ (x : ℤ) - neighboring ≤ a) ∧ a ≤ x + neighboring ∧ a ≤ frame.width) ∧
        (0 ≤ b ∧ (y : ℤ) - neighboring ≤ b) ∧ b ≤ y + neighboring ∧ b ≤ frame.height := by
  unfold PCCCodec.searchWindow
  simp only [toInt32_of_lt hwidth, toInt32_of_lt hheight, List.mem_flatMap, List.mem_map,
    mem_intRange, Prod.mk.injEq, max_le_iff, le_min_iff]
  constructor
  · rintro ⟨_, ha, _, hb, rfl, rfl⟩
    exact ⟨ha, hb⟩
  · rintro ⟨ha, hb⟩
    exact ⟨a, ha, b, hb, rfl, rfl⟩

theorem EomPatch.away_away (patch : EomPatch) (delta : ℤ) :
    patch.away (patch.away delta) = delta := by
  unfold EomPatch.away
  split_ifs
  · rfl
  · exact Int.neg_neg delta

/-- What the loop over the window has found: nothing, or the visited neighbour that lies furthest
behind. -/
structure FurthestOf (frame : PCCImageGeometry) (patch : EomPatch) (x y : ℕ) (threshold : ℤ)
    (visited : List (ℤ × ℤ)) (behind : ℤ) : Prop where
  found : behind = 0 ∨ ∃ p : ℕ × ℕ, ((p.1 : ℤ), (p.2 : ℤ)) ∈ visited ∧
    0 < depthBehind frame patch x y p ∧ depthBehind frame patch x y p ≤ threshold ∧
    behind = depthBehind frame patch x y p
  furthest : ∀ p : ℕ × ℕ, ((p.1 : ℤ), (p.2 : ℤ)) ∈ visited →
    depthBehind frame patch x y p ≤ threshold → depthBehind frame patch x y p ≤ behind

theorem FurthestOf.nonneg {visited : List (ℤ × ℤ)} {behind : ℤ}
    (h : FurthestOf frame patch x y threshold visited behind) : 0 ≤ behind := by
  rcases h.found with hzero | ⟨p, -, hpos, -, hbehind⟩
  · exact hzero.ge
  · omega

namespace PCCCodec

/-- A neighbour in the picture. -/
theorem neighborStep_eq {dOrg deltaMax : ℤ} {p : ℕ × ℕ}
    (hdOrg : dOrg = patch.generateNormalCoordinate (frame.channel (x, y)).toNat)
    (hinside : p.1 < frame.width ∧ p.2 < frame.height) (hsmall : frame.width < 2 ^ 31)
    (hsmall' : frame.height < 2 ^ 31) :
    neighborStep frame patch dOrg threshold deltaMax ((p.1 : ℤ), (p.2 : ℤ)) =
      some (if depthBehind frame patch x y p ≤ threshold ∧
          patch.away deltaMax < depthBehind frame patch x y p then
        patch.away (depthBehind frame patch x y p) else deltaMax) := by
  have hvalue : frame.getValue (toSizeT p.1, toSizeT p.2) = some (frame.channel p) := by
    rw [toSizeT_eq rfl (by omega), toSizeT_eq rfl (by omega)]
    exact if_pos hinside
  unfold neighborStep
  rw [hvalue, Option.bind_eq_bind, Option.bind_some, hdOrg]
  unfold depthBehind
  rw [EomPatch.away_away]
  unfold EomPatch.away
  generalize patch.generateNormalCoordinate (frame.channel p).toNat -
    patch.generateNormalCoordinate (frame.channel (x, y)).toNat = delta
  dsimp only
  split_ifs <;> first | rfl | omega

theorem neighborStep_eq_none {dOrg deltaMax : ℤ} {pixel : ℤ × ℤ}
    (h : frame.getValue (toSizeT pixel.1, toSizeT pixel.2) = none) :
    neighborStep frame patch dOrg threshold deltaMax pixel = none := by
  unfold neighborStep
  rw [h]
  rfl

end PCCCodec

/-- One more neighbour of the picture. -/
theorem FurthestOf.step {visited : List (ℤ × ℤ)} {behind : ℤ} {p : ℕ × ℕ}
    (h : FurthestOf frame patch x y threshold visited behind) :
    FurthestOf frame patch x y threshold (visited ++ [((p.1 : ℤ), (p.2 : ℤ))])
      (if depthBehind frame patch x y p ≤ threshold ∧ behind < depthBehind frame patch x y p then
        depthBehind frame patch x y p else behind) := by
  have hnonneg := h.nonneg
  have hlast : ∀ q : ℕ × ℕ, ((q.1 : ℤ), (q.2 : ℤ)) ∈ visited ++ [((p.1 : ℤ), (p.2 : ℤ))] →
      ((q.1 : ℤ), (q.2 : ℤ)) ∈ visited ∨ q = p := by
    intro q hq
    rcases List.mem_append.mp hq with hq | hq
    · exact Or.inl hq
    · obtain ⟨hx, hy⟩ := Prod.mk.inj (List.mem_singleton.mp hq)
      exact Or.inr (Prod.ext (Int.ofNat_inj.mp hx) (Int.ofNat_inj.mp hy))
  by_cases hnew : depthBehind frame patch x y p ≤ threshold ∧ behind < depthBehind frame patch x y p
  · rw [if_pos hnew]
    constructor
    · exact Or.inr ⟨p, List.mem_append_right _ List.mem_cons_self, by omega, hnew.1, rfl⟩
    · intro q hq hle
      rcases hlast q hq with hq | rfl
      · exact (h.furthest q hq hle).trans hnew.2.le
      · exact le_refl _
  · rw [if_neg hnew]
    constructor
    · rcases h.found with hzero | ⟨q, hq, hpos, hle, hbehind⟩
      · exact Or.inl hzero
      · exact Or.inr ⟨q, List.mem_append_left _ hq, hpos, hle, hbehind⟩
    · intro q hq hle
      rcases hlast q hq with hq | rfl
      · exact h.furthest q hq hle
      · exact not_lt.mp fun hlt => hnew ⟨hle, hlt⟩

/-- The loop over a window in the picture. -/
theorem exists_furthest (patch : EomPatch) (threshold : ℤ) (hx : x + neighboring < frame.width)
    (hy : y + neighboring < frame.height) (hwidth : frame.width < 2 ^ 31) (hheight : frame.height < 2 ^ 31) :
    ∃ behind, (PCCCodec.searchWindow frame x y neighboring).foldlM
        (PCCCodec.neighborStep frame patch
          (patch.generateNormalCoordinate (frame.channel (x, y)).toNat) threshold) 0 =
        some (patch.away behind) ∧
      FurthestOf frame patch x y threshold (PCCCodec.searchWindow frame x y neighboring) behind := by
  have hzero : patch.away 0 = 0 := by
    unfold EomPatch.away
    split_ifs <;> rfl
  have hloop : ∃ last, (PCCCodec.searchWindow frame x y neighboring).foldlM
        (PCCCodec.neighborStep frame patch
          (patch.generateNormalCoordinate (frame.channel (x, y)).toNat) threshold) 0 = some last ∧
      FurthestOf frame patch x y threshold (PCCCodec.searchWindow frame x y neighboring)
        (patch.away last) := by
    refine Codec.exists_foldlM (P := fun visited (deltaMax : ℤ) =>
      FurthestOf frame patch x y threshold visited (patch.away deltaMax)) ?_
      ⟨Or.inl hzero, fun p hp => by cases hp⟩
    rintro visited ⟨a, b⟩ deltaMax hvisited hfurthest
    have hmem : (a, b) ∈ PCCCodec.searchWindow frame x y neighboring :=
      hvisited.subset (List.mem_append_right visited List.mem_cons_self)
    obtain ⟨⟨⟨ha, -⟩, ha', -⟩, ⟨hb, -⟩, hb', -⟩ := (mem_searchWindow hwidth hheight).mp hmem
    obtain ⟨i, rfl⟩ := Int.eq_ofNat_of_zero_le ha
    obtain ⟨j, rfl⟩ := Int.eq_ofNat_of_zero_le hb
    have hstep := hfurthest.step (p := (i, j))
    refine ⟨_, PCCCodec.neighborStep_eq (p := (i, j)) rfl (by dsimp only; omega) hwidth hheight, ?_⟩
    rwa [apply_ite patch.away, EomPatch.away_away]
  obtain ⟨last, hrun, hlast⟩ := hloop
  exact ⟨patch.away last, by rw [EomPatch.away_away]; exact hrun, hlast⟩

/-- The window reaches past the right or lower border of a picture that ends within it. -/
theorem exists_outside (hx : x < frame.width) (hy : y < frame.height)
    (hwidth : frame.width < 2 ^ 31) (hheight : frame.height < 2 ^ 31)
    (hout : ¬(x + neighboring < frame.width ∧ y + neighboring < frame.height)) :
    ∃ pixel ∈ PCCCodec.searchWindow frame x y neighboring,
      frame.getValue (toSizeT pixel.1, toSizeT pixel.2) = none := by
  by_cases hcolumn : x + neighboring < frame.width
  · refine ⟨((x : ℤ), (frame.height : ℤ)), ?_, ?_⟩
    · apply (mem_searchWindow hwidth hheight).mpr
      omega
    · rw [toSizeT_eq rfl (show x < 2 ^ 64 by omega),
        toSizeT_eq rfl (show frame.height < 2 ^ 64 by omega)]
      exact if_neg fun h => absurd h.2 (Nat.lt_irrefl _)
  · refine ⟨((frame.width : ℤ), (y : ℤ)), ?_, ?_⟩
    · apply (mem_searchWindow hwidth hheight).mpr
      omega
    · rw [toSizeT_eq rfl (show frame.width < 2 ^ 64 by omega),
        toSizeT_eq rfl (show y < 2 ^ 64 by omega)]
      exact if_neg fun h => absurd h.1 (Nat.lt_irrefl _)

/-- The search finds the depth unless its window reaches the right or lower border, where it takes
in one column or row too many. -/
theorem findsNeighborDepth_iff (patch : EomPatch) (hx : x < frame.width) (hy : y < frame.height)
    (hwidth : frame.width < 2 ^ 31) (hheight : frame.height < 2 ^ 31) (hthreshold : 0 < threshold) :
    FindsNeighborDepth frame patch x y neighboring threshold ↔
      x + neighboring < frame.width ∧ y + neighboring < frame.height := by
  have hvalue : frame.getValue (x, y) = some (frame.channel (x, y)) := if_pos ⟨hx, hy⟩
  constructor
  · rintro ⟨d, hd, -⟩
    by_contra hout
    obtain ⟨pixel, hpixel, hnone⟩ := exists_outside hx hy hwidth hheight hout
    unfold PCCCodec.getDeltaNeighbors at hd
    rw [hvalue, Option.bind_eq_bind, Option.bind_some] at hd
    obtain ⟨deltaMax, hrun, -⟩ := Option.bind_eq_some_iff.mp hd
    obtain ⟨before, after, hstep⟩ := Codec.exists_of_foldlM_eq_some hrun hpixel
    rw [PCCCodec.neighborStep_eq_none hnone] at hstep
    cases hstep
  · rintro ⟨hxin, hyin⟩
    obtain ⟨behind, hrun, hfurthest⟩ :=
      exists_furthest patch threshold hxin hyin hwidth hheight
    have hmem : ∀ p : ℕ × ℕ, ((p.1 : ℤ), (p.2 : ℤ)) ∈
        PCCCodec.searchWindow frame x y neighboring ↔ IsNeighbor frame x y neighboring p := by
      intro p
      rw [mem_searchWindow hwidth hheight]
      constructor
      · intro h
        exact ⟨by omega, by omega, by omega⟩
      · rintro ⟨hinside, hcolumn, hrow⟩
        omega
    have hnonneg := hfurthest.nonneg
    have hresult : PCCCodec.getDeltaNeighbors frame patch x y neighboring threshold =
        some (patch.away (if behind = 0 then 0 else behind - 1)) := by
      unfold PCCCodec.getDeltaNeighbors
      rw [hvalue, Option.bind_eq_bind, Option.bind_some]
      dsimp only
      rw [hrun, Option.bind_eq_bind, Option.bind_some, Option.some.injEq]
      unfold EomPatch.away
      split_ifs <;> omega
    refine ⟨_, hresult, ?_, ?_⟩
    · have hle : behind ≤ threshold := by
        rcases hfurthest.found with hzero | ⟨p, -, -, hle, hbehind⟩
        · omega
        · omega
      unfold EomPatch.away
      split_ifs <;> omega
    · rcases hfurthest.found with hzero | ⟨p, hp, hpos, hle, hbehind⟩
      · left
        constructor
        · intro p hadmissible
          have := hfurthest.furthest p ((hmem p).mpr hadmissible.neighbor) hadmissible.near
          have := hadmissible.behind
          omega
        · rw [if_pos hzero]
          unfold EomPatch.away
          split_ifs <;> rfl
      · right
        refine ⟨p, ⟨(hmem p).mp hp, hpos, hle⟩, fun q hq => ?_, ?_⟩
        · rw [← hbehind]
          exact hfurthest.furthest q ((hmem q).mpr hq.neighbor) hq.near
        · have habs : |patch.away (behind - 1)| = |behind - 1| := by
            unfold EomPatch.away
            split_ifs
            · rfl
            · exact abs_neg (behind - 1)
          rw [if_neg (by omega), habs, ← hbehind, abs_of_nonneg (by omega)]

/-- A picture of one column less than the window would need. -/
theorem findsNeighborDepth_inside :
    FindsNeighborDepth ⟨3, 3, fun p => UInt16.ofNat p.1⟩ ⟨0, 0⟩ 1 1 1 4 :=
  (findsNeighborDepth_iff ⟨0, 0⟩ (by decide) (by decide) (by decide) (by decide)
    (by decide)).mpr (by decide)

/-- The last pixel of a row, with a window of one pixel to each side. -/
theorem not_findsNeighborDepth_border :
    ¬FindsNeighborDepth ⟨3, 3, fun p => UInt16.ofNat p.1⟩ ⟨0, 0⟩ 2 1 1 4 := by
  rintro ⟨d, hd, -⟩
  have hnone : PCCCodec.getDeltaNeighbors ⟨3, 3, fun p => UInt16.ofNat p.1⟩ ⟨0, 0⟩ 2 1 1 4 =
      none := by decide
  rw [hnone] at hd
  cases hd

end

end V3C

import V3C.Order.Comparator
import V3C.Patch.PCCPatch

/-! The comparisons that patches and connected components are sorted by. -/
namespace V3C
open Comparator

/-- A patch of the encoder, with its index and its size for the depth. -/
structure EncoderPatch extends PCCPatch where
  index : UInt64 := 0
  sizeU : UInt64 := 0
  sizeV : UInt64 := 0
  deriving DecidableEq

namespace EncoderPatch

def gt (lhs rhs : EncoderPatch) : Bool :=
  let (maxDim, minDim) :=
    if lhs.sizeU0 > lhs.sizeV0 then (lhs.sizeU0, lhs.sizeV0) else (lhs.sizeV0, lhs.sizeU0)
  let (rhsMaxDim, rhsMinDim) :=
    if rhs.sizeU0 > rhs.sizeV0 then (rhs.sizeU0, rhs.sizeV0) else (rhs.sizeV0, rhs.sizeU0)
  if maxDim ≠ rhsMaxDim then maxDim > rhsMaxDim
  else if minDim ≠ rhsMinDim then minDim > rhsMinDim
  else lhs.index < rhs.index

/-- `operator<` -/
def less (lhs rhs : EncoderPatch) : Bool :=
  if lhs.sizeV ≠ rhs.sizeV then lhs.sizeV > rhs.sizeV
  else if lhs.sizeU ≠ rhs.sizeU then lhs.sizeU > rhs.sizeU
  else lhs.index < rhs.index

def smallerRefFirst (lhs rhs : EncoderPatch) : Bool :=
  if lhs.bestMatchIdx = -1 ∧ rhs.bestMatchIdx = -1 then lhs.gt rhs
  else if lhs.bestMatchIdx = -1 ∨ rhs.bestMatchIdx = -1 then
    if lhs.bestMatchIdx ≠ -1 then true else false
  else if lhs.bestMatchIdx = rhs.bestMatchIdx then lhs.refAtlasFrameIdx < rhs.refAtlasFrameIdx
  else lhs.bestMatchIdx < rhs.bestMatchIdx

/-- The larger dimension, then the smaller one, both in decreasing order, then the index. -/
def gtKey (patch : EncoderPatch) : List ℤ :=
  [-(max patch.sizeU0.toNat patch.sizeV0.toNat : ℕ),
    -(min patch.sizeU0.toNat patch.sizeV0.toNat : ℕ), patch.index.toNat]

def lessKey (patch : EncoderPatch) : List ℤ :=
  [-(patch.sizeV.toNat : ℤ), -(patch.sizeU.toNat : ℤ), patch.index.toNat]

/-- Patches with a match are in the order of their matches, before those without one. -/
def smallerRefFirstKey (patch : EncoderPatch) : List ℤ :=
  if patch.bestMatchIdx = -1 then 1 :: patch.gtKey
  else [0, patch.bestMatchIdx.toInt, patch.refAtlasFrameIdx.toNat]

/-- Two values are compared in decreasing order, then a third one in increasing order. -/
theorem cascade_iff {a b c a' b' c' : UInt64} :
    (if a ≠ a' then decide (a > a') else if b ≠ b' then decide (b > b') else decide (c < c')) =
        true ↔
      [-(a.toNat : ℤ), -(b.toNat : ℤ), (c.toNat : ℤ)] <
        [-(a'.toNat : ℤ), -(b'.toNat : ℤ), (c'.toNat : ℤ)] := by
  have heq : ∀ x y : UInt64, x = y ↔ x.toNat = y.toNat := fun x y => UInt64.toNat_inj.symm
  simp only [List.cons_lt_cons_iff, List.not_lt_nil, and_false, or_false]
  split_ifs with ha hb
  · rw [decide_eq_true_iff, gt_iff_lt, UInt64.lt_iff_toNat_lt]
    rw [ne_eq, heq] at ha
    omega
  · rw [decide_eq_true_iff, gt_iff_lt, UInt64.lt_iff_toNat_lt]
    rw [ne_eq, heq] at hb
    rw [ne_eq, not_not, heq] at ha
    omega
  · rw [decide_eq_true_iff, UInt64.lt_iff_toNat_lt]
    rw [ne_eq, not_not, heq] at ha hb
    omega

theorem less_iff (lhs rhs : EncoderPatch) :
    lhs.less rhs = true ↔ lhs.lessKey < rhs.lessKey := cascade_iff

theorem gtKey_eq (patch : EncoderPatch) :
    patch.gtKey = if patch.sizeU0 > patch.sizeV0 then
      [-(patch.sizeU0.toNat : ℤ), -(patch.sizeV0.toNat : ℤ), (patch.index.toNat : ℤ)]
    else [-(patch.sizeV0.toNat : ℤ), -(patch.sizeU0.toNat : ℤ), (patch.index.toNat : ℤ)] := by
  unfold gtKey
  split_ifs with h
  · rw [gt_iff_lt, UInt64.lt_iff_toNat_lt] at h
    rw [max_eq_left h.le, min_eq_right h.le]
  · rw [gt_iff_lt, UInt64.lt_iff_toNat_lt, not_lt] at h
    rw [max_eq_right h, min_eq_left h]

theorem gt_iff (lhs rhs : EncoderPatch) : lhs.gt rhs = true ↔ lhs.gtKey < rhs.gtKey := by
  rw [gtKey_eq, gtKey_eq]
  unfold gt
  by_cases hl : lhs.sizeU0 > lhs.sizeV0
  · rw [if_pos hl, if_pos hl]
    by_cases hr : rhs.sizeU0 > rhs.sizeV0
    · rw [if_pos hr, if_pos hr]
      exact cascade_iff
    · rw [if_neg hr, if_neg hr]
      exact cascade_iff
  · rw [if_neg hl, if_neg hl]
    by_cases hr : rhs.sizeU0 > rhs.sizeV0
    · rw [if_pos hr, if_pos hr]
      exact cascade_iff
    · rw [if_neg hr, if_neg hr]
      exact cascade_iff

theorem smallerRefFirst_iff (lhs rhs : EncoderPatch) :
    lhs.smallerRefFirst rhs = true ↔ lhs.smallerRefFirstKey < rhs.smallerRefFirstKey := by
  unfold smallerRefFirst smallerRefFirstKey
  by_cases hl : lhs.bestMatchIdx = -1
  · rw [if_pos hl]
    by_cases hr : rhs.bestMatchIdx = -1
    · rw [if_pos ⟨hl, hr⟩, if_pos hr, gt_iff, List.cons_lt_cons_iff]
      constructor
      · exact fun h => .inr ⟨rfl, h⟩
      · intro h
        exact (h.resolve_left (lt_irrefl _)).2
    · rw [if_neg fun h => hr h.2, if_pos (.inl hl), if_neg (not_not.mpr hl), if_neg hr,
        List.cons_lt_cons_iff]
      constructor
      · exact fun h => absurd h Bool.false_ne_true
      · intro h
        rcases h with h | h
        · exact absurd h (by decide)
        · exact absurd h.1 (by decide)
  · rw [if_neg fun h => hl h.1, if_neg hl]
    by_cases hr : rhs.bestMatchIdx = -1
    · rw [if_pos (.inr hr), if_pos hl, if_pos hr, List.cons_lt_cons_iff]
      exact iff_of_true rfl (.inl (by decide))
    · rw [if_neg fun h => h.elim hl hr, if_neg hr]
      simp only [List.cons_lt_cons_iff, and_false, or_false, lt_irrefl, false_or, true_and]
      have hinj : lhs.bestMatchIdx = rhs.bestMatchIdx ↔
          lhs.bestMatchIdx.toInt = rhs.bestMatchIdx.toInt := Int32.toInt_inj.symm
      split_ifs with heq
      · rw [hinj] at heq
        rw [decide_eq_true_iff, UInt64.lt_iff_toNat_lt]
        omega
      · rw [hinj] at heq
        rw [decide_eq_true_iff, Int32.lt_iff_toInt_lt]
        omega

end EncoderPatch

/-- The comparison of the components before their patches are made. -/
def componentSizeCompare (a b : List ℕ) : Bool := a.length ≥ b.length

/-- A component does not come before itself. -/
theorem sorts_componentSizeCompare_iff (components : List (List ℕ)) :
    Sorts componentSizeCompare components ↔ components = [] := by
  constructor
  · intro h
    cases components with
    | nil => rfl
    | cons component components =>
      have hirrefl := h.irrefl component List.mem_cons_self
      exact absurd (decide_eq_true (le_refl component.length)) (by
        rw [Bool.not_eq_true]
        exact hirrefl)
  · intro h
    subst h
    refine ⟨nofun, nofun, nofun, ?_⟩
    intro l l' hl hl' _ _
    rw [hl.eq_nil, hl'.eq_nil]
    exact .nil

/-- What the comparisons have to be for the patches and components that are sorted. -/
def ComparatorsSort (patches : List EncoderPatch) (components : List (List ℕ)) : Prop :=
  Sorts EncoderPatch.gt patches ∧ Sorts EncoderPatch.less patches ∧
    Sorts EncoderPatch.smallerRefFirst patches ∧ Sorts componentSizeCompare components

/-- Patches can be sorted by all comparisons, and components by theirs only when there are none. -/
theorem comparatorsSort_iff (patches : List EncoderPatch) (components : List (List ℕ)) :
    ComparatorsSort patches components ↔ components = [] := by
  unfold ComparatorsSort
  rw [sorts_componentSizeCompare_iff]
  constructor
  · exact fun h => h.2.2.2
  · intro h
    exact ⟨sorts_of_key EncoderPatch.gt_iff patches, sorts_of_key EncoderPatch.less_iff patches,
      sorts_of_key EncoderPatch.smallerRefFirst_iff patches, h⟩

/-- Two components of one point. -/
theorem not_comparatorsSort_components : ¬ComparatorsSort [] [[0], [1]] := by
  intro h
  have hirrefl := h.2.2.2.irrefl [0] List.mem_cons_self
  exact absurd hirrefl (by decide)

end V3C

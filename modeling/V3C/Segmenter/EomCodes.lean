import V3C.Segmenter.Resampling

/-! The EOM codes of a patch: the bits of a pixel, the amounts of the shifts and the EOM count. -/
namespace V3C

open SegmentedPatch Resampling

/-- Settings with EOM codes of at most sixteen bits and without surface separation. -/
structure EomSettings (settings : DepthSettings) : Prop where
  useEnhancedOccupancyMapCode : settings.useEnhancedOccupancyMapCode = true
  useSurfaceSeparation : settings.useSurfaceSeparation = false
  surfaceThickness_le : settings.surfaceThickness ≤ 16
  EOMFixBitCount_le : settings.EOMFixBitCount ≤ 16
  minLevel_pos : 0 < settings.minLevel

variable {settings : DepthSettings} {colors : List PCCColor3B} {component : List SegmentPoint}
  {near maps : SegmentedPatch} {surface : SegmentedPatch → List SegmentPoint → ℤ}

namespace SegmentedPatch

/-- The colour of a point is similar to that of the near point of its pixel. -/
def SimilarAt (colors : List PCCColor3B) (near : SegmentedPatch) (point : SegmentPoint) : Prop :=
  ∃ idx colorD0 colorD1candidate, near.depth0PccIdx[near.pixel point]? = some idx ∧
    colors[idx]? = some colorD0 ∧ colors[point.index]? = some colorD1candidate ∧
    colorSimilarity colorD1candidate colorD0 128 = true

/-- An admissible point of a pixel, at a distance behind its near depth. -/
def PointBehind (settings : DepthSettings) (colors : List PCCColor3B)
    (component : List SegmentPoint) (near : SegmentedPatch) (p : ℕ) (depth0 : ℤ)
    (distance : ℕ) : Prop :=
  ∃ point ∈ component, near.pixel point = p ∧
    near.projectionDirectionType * (point.normal - depth0) = distance ∧
    if settings.multipleMaps then distance ≤ settings.surfaceThickness ∧ near.SimilarAt colors point
    else distance ≤ settings.EOMFixBitCount

/-- The amount by which the code of a point is shifted, if it has a code. -/
def eomShift (settings : DepthSettings) (colors : List PCCColor3B) (near : SegmentedPatch)
    (point : SegmentPoint) : Option ℤ := do
  let depth0 ← near.depth0[near.pixel point]?
  if 0 < settings.surfaceThickness then
    if settings.EOMSingleLayerMode then
      near.singleLayerShift settings settings.surfaceThickness depth0 point
    else
      (near.farDelta settings.surfaceThickness colors depth0 point).bind fun deltaD =>
        deltaD.map (· - 1)
  else none

end SegmentedPatch

def codeBits (code : BitVec 16) : ℕ := (List.range 16).countP code.getLsbD

/-- The codes of a component and its EOM count. -/
def EomExact (settings : DepthSettings)
    (surface : SegmentedPatch → List SegmentPoint → ℤ) (colors : List PCCColor3B)
    (component : List SegmentPoint) (near : SegmentedPatch) : Prop :=
  ∃ maps s, near.farDepths settings surface colors component = some maps ∧
    resampledPointcloud settings maps = some s ∧
    (∀ point ∈ component, ∀ n, near.eomShift settings colors point = some n → 0 ≤ n ∧ n ≤ 15) ∧
    (∀ p d, near.depth0[p]? = some d → d < infiniteDepth →
      ∃ code, maps.depthEOM[p]? = some code ∧ ∀ i < 16, code.getLsbD i = true ↔
        near.PointBehind settings colors component p d (i + 1)) ∧
    ((s.patch.setCounts settings s).eomCount : ℤ) =
      (((List.range (maps.sizeV * maps.sizeU)).filter maps.isOccupied).map fun p =>
        codeBits (maps.codeAt settings p)).sum -
      if settings.multipleMaps then
        ((List.range (maps.sizeV * maps.sizeU)).countP maps.isFar : ℤ) else 0

namespace EomSettings

variable (h : EomSettings settings)
include h

theorem singleLayer_eq : settings.EOMSingleLayerMode = !settings.multipleMaps := by
  unfold DepthSettings.EOMSingleLayerMode DepthSettings.multipleMaps
  rw [h.useEnhancedOccupancyMapCode, Bool.true_and]
  by_cases hmap : settings.mapCountMinus1 = 0
  · rw [hmap]
    rfl
  · rw [beq_false_of_ne hmap, decide_eq_true (Nat.pos_of_ne_zero hmap)]
    rfl

theorem thickness_eq (patch : SegmentedPatch) :
    toInt16 (if settings.useSurfaceSeparation then surface patch component
      else settings.surfaceThickness) = settings.surfaceThickness := by
  have hle := h.surfaceThickness_le
  rw [h.useSurfaceSeparation, if_neg Bool.false_ne_true]
  exact toInt16_of_lt (by omega) (by omega)

end EomSettings

/-- The bits that are read are all the bits of a code, where it has no others. -/
theorem length_filter_signExtend {code : BitVec 16} {count : ℕ} (hcount : count ≤ 16)
    (h : ∀ i, count ≤ i → i < 16 → code.getLsbD i = false) :
    ((List.range count).filter fun i => (code.signExtend 32).getLsbD i).length =
      codeBits code := by
  obtain ⟨rest, hrest⟩ := Nat.exists_eq_add_of_le hcount
  have hlow : (List.range count).filter (fun i => (code.signExtend 32).getLsbD i) =
      (List.range count).filter code.getLsbD := by
    apply List.filter_congr
    intro i hi
    have hlt := List.mem_range.mp hi
    rw [BitVec.getLsbD_signExtend, if_pos (by omega), decide_eq_true (by omega), Bool.true_and]
  have hhigh : ((List.range rest).map (count + ·)).countP code.getLsbD = 0 := by
    rw [List.countP_eq_zero]
    intro i hi
    obtain ⟨j, hj, rfl⟩ := List.mem_map.mp hi
    have hlt := List.mem_range.mp hj
    rw [h (count + j) (Nat.le_add_right count j) (by omega)]
    exact Bool.false_ne_true
  have hrange : List.range 16 = List.range count ++ (List.range rest).map (count + ·) :=
    (congrArg List.range hrest).trans List.range_add
  unfold codeBits
  rw [hlow, hrange, List.countP_append, hhigh, Nat.add_zero, List.countP_eq_length_filter]

/-- The points that are resampled for a code. -/
theorem length_eomDeltas (hsettings : EomSettings settings) {code : BitVec 16} {count : ℕ}
    (hcount : count = if settings.multipleMaps then settings.surfaceThickness
      else settings.EOMFixBitCount)
    (h : ∀ i, count ≤ i → i < 16 → code.getLsbD i = false) :
    ∃ deltas, eomDeltas settings code = some deltas ∧ deltas.length = codeBits code := by
  have hle : count ≤ 16 := by
    rw [hcount]
    split_ifs
    · exact hsettings.surfaceThickness_le
    · exact hsettings.EOMFixBitCount_le
  unfold eomDeltas
  by_cases hcode : code = 0
  · refine ⟨[], if_neg fun h => h.2 hcode, ?_⟩
    rw [hcode]
    rfl
  · rw [if_pos ⟨hsettings.useEnhancedOccupancyMapCode, hcode⟩, ← hcount]
    dsimp only
    rw [if_pos (by omega)]
    exact ⟨_, rfl, length_filter_signExtend hle h⟩

/-- A bit that is added to a code. -/
theorem getLsbD_or_shiftCode {code bit : BitVec 16} {n : ℤ} {i : ℕ}
    (hbit : shiftCode n = some bit) (hi : i < 16) :
    (code ||| bit).getLsbD i = true ↔ code.getLsbD i = true ∨ (i : ℤ) = n := by
  unfold shiftCode at hbit
  split_ifs at hbit with hrange
  obtain rfl := Option.some.inj hbit
  rw [BitVec.getLsbD_or, BitVec.getLsbD_ofNat, Nat.testBit_two_pow, decide_eq_true hi,
    Bool.true_and, Bool.or_eq_true, decide_eq_true_eq]
  apply or_congr_right
  omega

/-- The cases of the mode with one map: a point behind the near depth within the bit count. -/
theorem singleLayerShift_eq_some (hsettings : EomSettings settings) (thickness : ℤ)
    (point : SegmentPoint) {depth0 : ℤ} (hmode : near.projectionMode = 0 ∨ near.projectionMode = 1)
    (hlow : 0 ≤ depth0) (hhigh : depth0 < infiniteDepth) (n : ℤ) :
    near.singleLayerShift settings thickness depth0 point = some n ↔
      near.projectionDirectionType * (point.normal - depth0) = n + 1 ∧ 0 ≤ n ∧
        n + 1 ≤ settings.EOMFixBitCount := by
  have hle := hsettings.EOMFixBitCount_le
  have hnormal := point.normal_lt
  have hfix : toInt16 settings.EOMFixBitCount = settings.EOMFixBitCount :=
    toInt16_of_lt (by omega) (by omega)
  have hdir : near.projectionDirectionType = 1 ∨ near.projectionDirectionType = -1 := by
    unfold projectionDirectionType
    rcases hmode with h | h <;> rw [h] <;> decide
  unfold infiniteDepth at hhigh
  have habs : |depth0 - point.normal| < 32768 := by
    rw [abs_lt]
    omega
  have hdiff : toInt16 |depth0 - point.normal| = |depth0 - point.normal| :=
    toInt16_of_lt (by have := abs_nonneg (depth0 - point.normal); omega) habs
  unfold singleLayerShift
  dsimp only
  rw [hsettings.useSurfaceSeparation, if_neg Bool.false_ne_true, hfix, hdiff]
  unfold infiniteDepth toUInt16
  have hcases := abs_cases (depth0 - (point.normal : ℤ))
  generalize |depth0 - (point.normal : ℤ)| = diff at *
  rcases hdir with h | h <;> rw [h] <;> split_ifs with hif
  all_goals first
    | rw [Option.some.injEq]; omega
    | exact ⟨nofun, fun hn => absurd hn (by omega)⟩

section Codes

variable {projectionMode : ℕ} {isAdditionalProjectionPlane : Bool} {visited : List SegmentPoint}

theorem SegmentedPatch.NearDepths.nonneg
    (h : near.NearDepths settings projectionMode isAdditionalProjectionPlane component)
    {p : ℕ} {d : ℤ} (hd : near.depth0[p]? = some d) (hlt : d < infiniteDepth) : 0 ≤ d := by
  obtain ⟨point, -, -, hnormal, -⟩ := h.point p d hd hlt.ne
  omega

/-- Without codes no point is behind a near depth, for the points that have been visited. -/
structure Coded (settings : DepthSettings) (colors : List PCCColor3B)
    (visited : List SegmentPoint) (near patch : SegmentedPatch) : Prop where
  maps : near.Maps settings patch
  codes : ∀ p d, near.depth0[p]? = some d → d < infiniteDepth →
    ∃ code, patch.depthEOM[p]? = some code ∧ ∀ i < 16, code.getLsbD i = true ↔
      near.PointBehind settings colors visited p d (i + 1)

/-- The codes before there are points. -/
theorem EomSettings.zero_codes (hsettings : EomSettings settings)
    (hnear : near.NearDepths settings projectionMode isAdditionalProjectionPlane component)
    {p : ℕ} {d : ℤ} (hd : near.depth0[p]? = some d) : near.depthEOM[p]? = some 0#16 := by
  have hlt := (List.getElem?_eq_some_iff.mp hd).1
  rw [hnear.depthEOM, hsettings.useEnhancedOccupancyMapCode, if_pos rfl,
    List.getElem?_replicate, if_pos (by rwa [← hnear.depth0])]
  rfl

theorem Coded.start (colors : List PCCColor3B) (hsettings : EomSettings settings)
    (hnear : near.NearDepths settings projectionMode isAdditionalProjectionPlane component)
    {patch : SegmentedPatch} (hmaps : near.Maps settings patch)
    (hcodes : patch.depthEOM = near.depthEOM) : Coded settings colors [] near patch where
  maps := hmaps
  codes p d hd _ := by
    refine ⟨0#16, ?_, ?_⟩
    · rw [hcodes]
      exact hsettings.zero_codes hnear hd
    · intro i _
      rw [BitVec.getLsbD_zero]
      refine ⟨nofun, fun h => ?_⟩
      obtain ⟨point, hpoint, -⟩ := h
      exact absurd hpoint List.not_mem_nil

theorem pointBehind_append {p : ℕ} {d : ℤ} {distance : ℕ} {point : SegmentPoint} :
    near.PointBehind settings colors (visited ++ [point]) p d distance ↔
      near.PointBehind settings colors visited p d distance ∨
        near.PointBehind settings colors [point] p d distance := by
  unfold PointBehind
  constructor
  · intro h
    obtain ⟨q, hq, hrest⟩ := h
    rcases List.mem_append.mp hq with hq | hq
    · exact Or.inl ⟨q, hq, hrest⟩
    · exact Or.inr ⟨q, hq, hrest⟩
  · intro h
    rcases h with ⟨q, hq, hrest⟩ | ⟨q, hq, hrest⟩
    · exact ⟨q, List.mem_append_left _ hq, hrest⟩
    · exact ⟨q, List.mem_append_right _ hq, hrest⟩

/-- A point is visited in the mode with one map. -/
theorem Coded.addSingleLayer (hsettings : EomSettings settings)
    (hsingle : settings.multipleMaps = false)
    (hmode : near.projectionMode = 0 ∨ near.projectionMode = 1)
    (hnear : near.NearDepths settings projectionMode isAdditionalProjectionPlane component)
    {patch : SegmentedPatch} (h : Coded settings colors visited near patch)
    {point : SegmentPoint} (hpoint : point ∈ component) (thickness : ℤ) :
    ∃ patch', patch.addSingleLayer settings thickness point = some patch' ∧
      Coded settings colors (visited ++ [point]) near patch' := by
  have hsame := h.maps.same
  have hpixel : patch.pixel point = near.pixel point := by rw [hsame]; rfl
  have hdepth0 : patch.depth0 = near.depth0 := by rw [hsame]
  have hbound : near.pixel point < near.depth0.length := by
    rw [hnear.depth0]
    exact hnear.pixel_lt hpoint
  have hd := List.getElem?_eq_getElem hbound
  generalize near.depth0[near.pixel point] = depth at hd
  have hshift : patch.singleLayerShift settings thickness depth point =
      near.singleLayerShift settings thickness depth point := by rw [hsame]; rfl
  have hbehind : ∀ p d i, near.depth0[p]? = some d → d < infiniteDepth →
      (near.PointBehind settings colors [point] p d (i + 1) ↔
        p = near.pixel point ∧ near.singleLayerShift settings thickness d point = some (i : ℤ)) := by
    intro p d i hd hlt
    have hiff := singleLayerShift_eq_some hsettings thickness point hmode
      (hnear.nonneg hd hlt) hlt i
    rw [hiff]
    unfold PointBehind
    simp only [hsingle, Bool.false_eq_true, if_false]
    constructor
    · intro h
      obtain ⟨q, hq, hp, hdistance, hle⟩ := h
      rw [List.mem_singleton.mp hq] at hp hdistance
      refine ⟨hp.symm, ?_, by omega, by omega⟩
      rw [hdistance]
      push_cast
      rfl
    · intro h
      obtain ⟨rfl, hdistance, -, hle⟩ := h
      refine ⟨point, List.mem_singleton_self point, rfl, ?_, by omega⟩
      rw [hdistance]
      push_cast
      rfl
  unfold SegmentedPatch.addSingleLayer
  rw [hpixel, hdepth0, hd, Option.bind_eq_bind, Option.bind_some, hshift]
  cases hcase : near.singleLayerShift settings thickness depth point with
  | none =>
    refine ⟨patch, rfl, h.maps, ?_⟩
    intro p d hp hlt
    obtain ⟨code, hcode, hbits⟩ := h.codes p d hp hlt
    refine ⟨code, hcode, ?_⟩
    intro i hi
    rw [hbits i hi, pointBehind_append, hbehind p d i hp hlt]
    refine (or_iff_left ?_).symm
    intro hno
    obtain ⟨rfl, hsome⟩ := hno
    obtain rfl := Option.some.inj (hd.symm.trans hp)
    rw [hcase] at hsome
    cases hsome
  | some n =>
    have hlt : depth < infiniteDepth := by
      by_contra hge
      unfold singleLayerShift at hcase
      dsimp only at hcase
      rw [if_neg fun hcond => hge hcond.1] at hcase
      cases hcase
    have hrange := (singleLayerShift_eq_some hsettings _ point hmode (hnear.nonneg hd hlt) hlt n).mp hcase
    obtain ⟨code, hcode, hbits⟩ := h.codes _ _ hd hlt
    have hfix := hsettings.EOMFixBitCount_le
    obtain ⟨bit, hbit⟩ : ∃ bit, shiftCode n = some bit := ⟨_, if_pos ⟨hrange.2.1, by omega⟩⟩
    have hset : Cells.setAt patch.depthEOM (near.pixel point) (code ||| bit) =
        some (patch.depthEOM.set (near.pixel point) (code ||| bit)) :=
      if_pos (List.getElem?_eq_some_iff.mp hcode).1
    have hadd : patch.addCode (near.pixel point) n = some
        { patch with depthEOM := patch.depthEOM.set (near.pixel point) (code ||| bit) } := by
      unfold addCode
      rw [hcode, Option.bind_eq_bind, Option.bind_some, hbit, Option.bind_eq_bind,
        Option.bind_some, hset]
      rfl
    refine ⟨_, hadd, h.maps.addCode hadd, ?_⟩
    intro p d hp hlt
    by_cases hpp : p = near.pixel point
    · subst hpp
      obtain rfl := Option.some.inj (hd.symm.trans hp)
      refine ⟨code ||| bit, List.getElem?_set_self (List.getElem?_eq_some_iff.mp hcode).1, ?_⟩
      intro i hi
      rw [getLsbD_or_shiftCode hbit hi, hbits i hi, pointBehind_append,
        hbehind _ _ i hp hlt, hcase]
      apply or_congr_right
      constructor
      · intro heq
        exact ⟨rfl, congrArg some heq.symm⟩
      · intro heq
        exact (Option.some.inj heq.2).symm
    · obtain ⟨old, hold, holdBits⟩ := h.codes p d hp hlt
      refine ⟨old, (List.getElem?_set_ne (Ne.symm hpp)).trans hold, ?_⟩
      intro i hi
      rw [holdBits i hi, pointBehind_append, hbehind p d i hp hlt]
      exact (or_iff_left fun hno => hpp hno.1).symm

theorem codeBits_le (code : BitVec 16) : codeBits code ≤ 16 := by
  have h : codeBits code ≤ (List.range 16).length := List.countP_le_length
  rwa [List.length_range] at h

theorem sum_le_mul {l : List ℕ} {f : ℕ → ℕ} {bound : ℕ} (h : ∀ p ∈ l, f p ≤ bound) :
    (l.map f).sum ≤ l.length * bound := by
  induction l with
  | nil => exact Nat.zero_le _
  | cons p l ih =>
    have hhead := h p List.mem_cons_self
    have htail := ih fun q hq => h q (List.mem_cons_of_mem p hq)
    rw [List.map_cons, List.sum_cons, List.length_cons, Nat.succ_mul]
    omega

/-- The codes of the points make the EOM count. -/
theorem Coded.exists_resampled (hsettings : EomSettings settings)
    (hnear : near.NearDepths settings projectionMode isAdditionalProjectionPlane component)
    (h : Coded settings colors component near maps)
    (hfar : settings.multipleMaps = true → maps.depth1 = maps.depth0) :
    ∃ s, resampledPointcloud settings maps = some s ∧
      ((s.patch.setCounts settings s).eomCount : ℤ) =
        (((List.range (maps.sizeV * maps.sizeU)).filter maps.isOccupied).map fun p =>
          codeBits (maps.codeAt settings p)).sum -
        if settings.multipleMaps then
          ((List.range (maps.sizeV * maps.sizeU)).countP maps.isFar : ℤ) else 0 := by
  have hsame := h.maps.same
  have hdepth0 : maps.depth0 = near.depth0 := by rw [hsame]
  have hlength := h.maps.length hnear.depth0
  have hcode : ∀ p d, maps.depth0[p]? = some d → d < infiniteDepth →
      maps.depthEOM[p]? = some (maps.codeAt settings p) ∧ ∃ deltas,
        eomDeltas settings (maps.codeAt settings p) = some deltas ∧
        deltas.length = codeBits (maps.codeAt settings p) := by
    intro p d hd hlt
    rw [hdepth0] at hd
    obtain ⟨code, hread, hbits⟩ := h.codes p d hd hlt
    have hcodeAt : maps.codeAt settings p = code := by
      unfold codeAt
      rw [hsettings.useEnhancedOccupancyMapCode, if_pos rfl, List.getD_eq_getElem?_getD, hread,
        Option.getD_some]
    rw [hcodeAt]
    refine ⟨hread, length_eomDeltas hsettings rfl ?_⟩
    intro i hcount hi
    rw [Bool.eq_false_iff]
    intro hbit
    obtain ⟨point, -, -, -, hle⟩ := (hbits i hi).mp hbit
    split_ifs at hle hcount
    · exact absurd hle.1 (by omega)
    · omega
  obtain ⟨s, hrun, hresampled⟩ := exists_resampledPointcloud hlength fun p d hd hlt => by
    obtain ⟨hread, deltas, hdeltas, -⟩ := hcode p d hd hlt
    refine ⟨?_, ⟨maps.codeAt settings p, deltas, ?_, hdeltas⟩, ?_⟩
    · have hblock := hnear.block_lt p d (hdepth0 ▸ hd) hlt.ne
      rw [hsame]
      exact hblock
    · unfold readCode
      rw [hsettings.useEnhancedOccupancyMapCode, if_pos rfl, hread]
    · intro hsingle
      have hbound : p < maps.depth1.length := by
        rw [h.maps.depth1 hsingle, ← hdepth0]
        exact (List.getElem?_eq_some_iff.mp hd).1
      exact ⟨_, List.getElem?_eq_getElem hbound⟩
  refine ⟨s, hrun, ?_⟩
  have heom : s.eomCountPerPatch = (((List.range (maps.sizeV * maps.sizeU)).filter
      maps.isOccupied).map fun p => codeBits (maps.codeAt settings p)).sum := by
    rw [hresampled.eomCount]
    congr 1
    apply List.map_congr_left
    intro p hp
    obtain ⟨hmem, hocc⟩ := List.mem_filter.mp hp
    have hbound : p < maps.depth0.length := by
      rw [hlength, Nat.mul_comm]
      exact List.mem_range.mp hmem
    have hd := List.getElem?_eq_getElem hbound
    rw [isOccupied_eq hd, decide_eq_true_eq] at hocc
    obtain ⟨-, deltas, hdeltas, hcount⟩ := hcode p _ hd hocc
    unfold deltasAt
    rw [hdeltas, Option.getD_some, hcount]
  have hnone : settings.multipleMaps = true → (List.range (maps.sizeV * maps.sizeU)).countP
      maps.isFar = 0 := by
    intro hmaps
    rw [List.countP_eq_zero]
    intro p _
    unfold isFar
    rw [hfar hmaps, bne_self_eq_false, Bool.and_false]
    exact Bool.false_ne_true
  have hd1 : (if settings.EOMSingleLayerMode then 0 else s.d1CountPerPatch) = 0 := by
    rw [hresampled.d1Count, hsettings.singleLayer_eq]
    cases hmaps : settings.multipleMaps with
    | false => rfl
    | true => exact hnone hmaps
  have hsmall : s.eomCountPerPatch < 2 ^ 64 := by
    have hsum : s.eomCountPerPatch ≤ _ := heom.le.trans
      (sum_le_mul fun p _ => codeBits_le (maps.codeAt settings p))
    have hfilter : ((List.range (maps.sizeV * maps.sizeU)).filter maps.isOccupied).length ≤
        maps.sizeV * maps.sizeU := by
      have hle := List.length_filter_le maps.isOccupied (List.range (maps.sizeV * maps.sizeU))
      rwa [List.length_range] at hle
    have hsize : maps.sizeV * maps.sizeU ≤ 32768 * 32768 := by
      rw [hsame]
      exact Nat.mul_le_mul hnear.sizeV_le hnear.sizeU_le
    omega
  have hzero : (if settings.multipleMaps then
      ((List.range (maps.sizeV * maps.sizeU)).countP maps.isFar : ℤ) else 0) = 0 := by
    cases hmaps : settings.multipleMaps with
    | false => rfl
    | true => rw [if_pos rfl, hnone hmaps]; rfl
  unfold setCounts
  dsimp only
  rw [hsettings.useEnhancedOccupancyMapCode, if_pos rfl, hd1, hzero, ← heom, Nat.cast_zero,
    sub_zero, toSizeT_of_lt (Int.natCast_nonneg _) (by exact_mod_cast hsmall),
    Int.toNat_natCast]

/-- With one map and a positive thickness the codes are those of the points. -/
theorem exists_coded_singleLayer (hsettings : EomSettings settings)
    (hsingle : settings.multipleMaps = false) (hthick : 0 < settings.surfaceThickness)
    (hmode : near.projectionMode = 0 ∨ near.projectionMode = 1)
    (hnear : near.NearDepths settings projectionMode isAdditionalProjectionPlane component) :
    ∃ maps, near.farDepths settings surface colors component = some maps ∧
      Coded settings colors component near maps := by
  have hlayer : settings.EOMSingleLayerMode = true := by rw [hsettings.singleLayer_eq, hsingle]; rfl
  have hmapsStart : near.Maps settings near :=
    ⟨rfl, fun hfalse => absurd (hlayer.symm.trans hfalse) nofun, rfl⟩
  have hstep : ∀ (visited : List SegmentPoint) (point : SegmentPoint) (patch : SegmentedPatch),
      visited ++ [point] <+: component → Coded settings colors visited near patch →
      ∃ patch', patch.addSingleLayer settings settings.surfaceThickness point = some patch' ∧
        Coded settings colors (visited ++ [point]) near patch' := by
    intro visited point patch hstart h
    exact h.addSingleLayer hsettings hsingle hmode hnear
      (hstart.subset (List.mem_append_right visited List.mem_cons_self)) _
  obtain ⟨maps, hrun, hcoded⟩ := Codec.exists_foldlM (P := fun visited (patch : SegmentedPatch) =>
    Coded settings colors visited near patch) hstep (Coded.start colors hsettings hnear hmapsStart rfl)
  refine ⟨maps, ?_, hcoded⟩
  unfold farDepths
  dsimp only
  rw [hlayer, if_pos rfl, hsettings.thickness_eq, if_pos (by omega)]
  exact hrun

variable (near surface colors component) in
/-- Without a thickness there are no codes. -/
theorem farDepths_of_thickness (hsettings : EomSettings settings)
    (hthick : settings.surfaceThickness = 0) :
    ∃ maps, near.farDepths settings surface colors component = some maps ∧
      near.Maps settings maps ∧ maps.depthEOM = near.depthEOM ∧
      (settings.multipleMaps = true → maps.depth1 = maps.depth0) := by
  have hzero : ¬(0 : ℤ) < settings.surfaceThickness := by omega
  cases hsingle : settings.multipleMaps with
  | false =>
    have hlayer : settings.EOMSingleLayerMode = true := by
      rw [hsettings.singleLayer_eq, hsingle]
      rfl
    refine ⟨near, ?_, ⟨rfl, fun hfalse => absurd (hlayer.symm.trans hfalse) nofun, rfl⟩, rfl, nofun⟩
    unfold farDepths
    dsimp only
    rw [hlayer, if_pos rfl, hsettings.thickness_eq, if_neg hzero]
  | true =>
    have hlayer : settings.EOMSingleLayerMode = false := by
      rw [hsettings.singleLayer_eq, hsingle]
      rfl
    refine ⟨{ near with depth1 := near.depth0 }, ?_, ⟨rfl, fun _ => rfl, rfl⟩, rfl, fun _ => rfl⟩
    unfold farDepths
    dsimp only
    rw [hlayer, if_neg Bool.false_ne_true, hsettings.thickness_eq, if_neg hzero]

/-- Without near depths there are no codes. -/
theorem farDepths_of_infinite (hsettings : EomSettings settings)
    (hmaps : settings.multipleMaps = true) (hthick : 0 < settings.surfaceThickness)
    (hnear : near.NearDepths settings projectionMode isAdditionalProjectionPlane component)
    (hinfinite : ∀ d ∈ near.depth0, d = infiniteDepth) :
    near.farDepths settings surface colors component =
      some { near with depth1 := near.depth0 } := by
  have hlayer : settings.EOMSingleLayerMode = false := by rw [hsettings.singleLayer_eq, hmaps]; rfl
  have hstep : ∀ (visited : List SegmentPoint) (point : SegmentPoint) (patch : SegmentedPatch),
      visited ++ [point] <+: component → patch = { near with depth1 := near.depth0 } →
      ∃ patch', patch.addFar settings settings.surfaceThickness colors point = some patch' ∧
        patch' = { near with depth1 := near.depth0 } := by
    intro visited point patch hstart hpatch
    have hpoint := hstart.subset (List.mem_append_right visited List.mem_cons_self)
    have hbound : near.pixel point < near.depth0.length := by
      rw [hnear.depth0]
      exact hnear.pixel_lt hpoint
    have hd := List.getElem?_eq_getElem hbound
    have hinf := hinfinite _ (List.getElem_mem hbound)
    rw [hinf] at hd
    refine ⟨patch, ?_, hpatch⟩
    have hread : patch.depth0[patch.pixel point]? = some infiniteDepth := by
      rw [hpatch]
      exact hd
    unfold addFar farDelta
    dsimp only
    rw [hread, Option.bind_eq_bind, Option.bind_some, if_neg (lt_irrefl _)]
    rfl
  obtain ⟨maps, hrun, hfinal⟩ := Codec.exists_foldlM
    (P := fun _ (patch : SegmentedPatch) => patch = { near with depth1 := near.depth0 }) hstep rfl
  rw [hfinal] at hrun
  unfold farDepths
  dsimp only
  rw [hlayer, if_neg Bool.false_ne_true, hsettings.thickness_eq, if_pos (by omega)]
  exact hrun

theorem colorSimilarity_self (color : PCCColor3B) : colorSimilarity color color 128 = true := by
  unfold colorSimilarity
  simp

/-- The near point of a pixel is one of the points for the far map, and has no code. -/
theorem farDepths_eq_none (hsettings : EomSettings settings)
    (hmaps : settings.multipleMaps = true) (hthick : 0 < settings.surfaceThickness)
    (hnear : near.NearDepths settings projectionMode isAdditionalProjectionPlane component)
    (hcolors : ∀ point ∈ component, point.index < colors.length) {d : ℤ}
    (hmem : d ∈ near.depth0) (hne : d ≠ infiniteDepth) :
    near.farDepths settings surface colors component = none := by
  have hlayer : settings.EOMSingleLayerMode = false := by rw [hsettings.singleLayer_eq, hmaps]; rfl
  obtain ⟨p, hp⟩ := List.mem_iff_getElem?.mp hmem
  have hlt : d < infiniteDepth := lt_of_le_of_ne (hnear.le d hmem) hne
  obtain ⟨point, hpoint, hpixel, hnormal, hindex⟩ := hnear.point p d hp hne
  unfold farDepths
  dsimp only
  rw [hlayer, if_neg Bool.false_ne_true, hsettings.thickness_eq, if_pos (by omega),
    Option.eq_none_iff_forall_ne_some]
  intro final hrun
  have hinv : near.Maps settings final ∧ point ∉ component := by
    refine Codec.inv_of_foldlM (P := fun visited (patch : SegmentedPatch) =>
      near.Maps settings patch ∧ point ∉ visited) hrun ?_ ?_
    · exact ⟨⟨rfl, fun _ => rfl, rfl⟩, List.not_mem_nil⟩
    · intro visited q patch patch' _ h hadd
      refine ⟨h.1.addFar hadd, ?_⟩
      intro hin
      rcases List.mem_append.mp hin with hin | hin
      · exact h.2 hin
      · obtain rfl := List.mem_singleton.mp hin
        have hsame := h.1.same
        have hpixel' : patch.pixel point = p := by
          rw [hsame]
          exact hpixel
        have hread : patch.depth0[p]? = some d := by
          rw [hsame]
          exact hp
        have hreadIdx : patch.depth0PccIdx[p]? = some point.index := by
          rw [hsame]
          exact hindex
        have hcolor := List.getElem?_eq_getElem (hcolors point hpoint)
        have hzero : toInt16 (patch.projectionDirectionType * (point.normal - d)) = 0 := by
          rw [hnormal, sub_self, mul_zero]
          rfl
        have hdelta : patch.farDelta settings.surfaceThickness colors d point = some (some 0) := by
          unfold farDelta
          have hle := hsettings.surfaceThickness_le
          have hthick16 : toInt16 (settings.surfaceThickness : ℤ) = settings.surfaceThickness :=
            toInt16_of_lt (by omega) (by omega)
          dsimp only
          rw [hzero, if_pos hlt, hpixel', hreadIdx, Option.bind_eq_bind, Option.bind_some, hcolor,
            Option.bind_eq_bind, Option.bind_some, Option.bind_some, hthick16, if_pos ⟨by omega, le_refl 0, colorSimilarity_self _⟩]
        unfold addFar at hadd
        dsimp only at hadd
        rw [hpixel', hread, Option.bind_eq_bind, Option.bind_some, hdelta, Option.bind_eq_bind,
          Option.bind_some] at hadd
        dsimp only at hadd
        obtain ⟨extended, -, hadd⟩ := Option.bind_eq_some_iff.mp hadd
        rw [hsettings.useEnhancedOccupancyMapCode, if_pos rfl] at hadd
        obtain ⟨-, bit, -, hbit, -⟩ := addCode_eq_some hadd
        cases hbit
  exact hinv.2 hpoint

/-- Codes of no point, where no point is behind a near depth. -/
theorem coded_of_none (hsettings : EomSettings settings)
    (hnear : NearDepths settings projectionMode isAdditionalProjectionPlane component near)
    (hnone : ∀ p d distance, near.depth0[p]? = some d → d < infiniteDepth → 0 < distance →
      ¬near.PointBehind settings colors component p d distance)
    {patch : SegmentedPatch} (hmaps : near.Maps settings patch)
    (hcodes : patch.depthEOM = near.depthEOM) : Coded settings colors component near patch := by
  refine ⟨hmaps, ?_⟩
  intro p d hd hlt
  obtain ⟨code, hcode, hbits⟩ := (Coded.start colors hsettings hnear hmaps hcodes).codes p d hd hlt
  refine ⟨code, hcode, ?_⟩
  intro i hi
  rw [hbits i hi]
  constructor
  · intro h
    obtain ⟨point, hpoint, -⟩ := h
    exact absurd hpoint List.not_mem_nil
  · exact fun h => absurd h (hnone p d (i + 1) hd hlt (Nat.succ_pos i))

section OneMap

variable (hsettings : EomSettings settings) (hmaps : settings.multipleMaps = false)
  (hmode : near.projectionMode = 0 ∨ near.projectionMode = 1)
  (hnear : NearDepths settings projectionMode isAdditionalProjectionPlane component near)

include hsettings hmaps hnear

include hmode in
theorem eomShift_oneMap {point : SegmentPoint} {n : ℤ}
    (hn : near.eomShift settings colors point = some n) : 0 ≤ n ∧ n ≤ 15 := by
  have hfix := hsettings.EOMFixBitCount_le
  have hlayer : settings.EOMSingleLayerMode = true := by
    rw [hsettings.singleLayer_eq, hmaps]
    rfl
  unfold eomShift at hn
  obtain ⟨depth0, hdepth0, hn⟩ := Option.bind_eq_some_iff.mp hn
  split_ifs at hn
  have hlt : depth0 < infiniteDepth := by
    by_contra hge
    unfold singleLayerShift at hn
    dsimp only at hn
    rw [if_neg fun hcond => hge hcond.1] at hn
    cases hn
  have hrange := (singleLayerShift_eq_some hsettings _ point hmode (hnear.nonneg hdepth0 hlt) hlt
    n).mp hn
  omega

/-- Without a thickness the far pass has no code for a point that is behind a near depth. -/
theorem not_pointBehind_of_exact (hzero : settings.surfaceThickness = 0)
    (hexact : EomExact settings surface colors component near) {p : ℕ} {d : ℤ} {distance : ℕ}
    (hd : near.depth0[p]? = some d) (hlt : d < infiniteDepth) (hpos : 0 < distance) :
    ¬near.PointBehind settings colors component p d distance := by
  intro hbehind
  obtain ⟨maps, s, hfar, -, -, hcodes, -⟩ := hexact
  obtain ⟨maps', hfar', -, hcodesEq, -⟩ :=
    farDepths_of_thickness colors component near surface hsettings hzero
  obtain rfl := Option.some.inj (hfar.symm.trans hfar')
  obtain ⟨code, hcode, hbits⟩ := hcodes p d hd hlt
  rw [hcodesEq, hsettings.zero_codes hnear hd] at hcode
  obtain rfl := Option.some.inj hcode
  have hle : distance ≤ settings.EOMFixBitCount := by
    obtain ⟨point, -, -, -, hle⟩ := hbehind
    rwa [hmaps, if_neg Bool.false_ne_true] at hle
  have hfix := hsettings.EOMFixBitCount_le
  obtain ⟨i, rfl⟩ := Nat.exists_eq_add_of_le' hpos
  have hbit := (hbits i (by omega)).mpr hbehind
  rw [BitVec.getLsbD_zero] at hbit
  cases hbit

include hmode

theorem eomExact_oneMap_iff : EomExact settings surface colors component near ↔
    0 < settings.surfaceThickness ∨
      ∀ p d distance, near.depth0[p]? = some d → d < infiniteDepth → 0 < distance →
        ¬near.PointBehind settings colors component p d distance := by
  constructor
  · intro hexact
    rcases Nat.eq_zero_or_pos settings.surfaceThickness with hzero | hpos
    · exact Or.inr fun p d distance =>
        not_pointBehind_of_exact hsettings hmaps hnear hzero hexact
    · exact Or.inl hpos
  · intro hcond
    have hcoded : ∃ maps, near.farDepths settings surface colors component = some maps ∧
        Coded settings colors component near maps := by
      rcases Nat.eq_zero_or_pos settings.surfaceThickness with hzero | hpos
      · have hnone := hcond.resolve_left (by omega)
        obtain ⟨maps, hfar, hmapsEq, hcodesEq, -⟩ :=
          farDepths_of_thickness colors component near surface hsettings hzero
        exact ⟨maps, hfar, coded_of_none hsettings hnear hnone hmapsEq hcodesEq⟩
      · exact exists_coded_singleLayer hsettings hmaps hpos hmode hnear
    obtain ⟨maps, hfar, hcoded⟩ := hcoded
    obtain ⟨s, hs, hcount⟩ := hcoded.exists_resampled hsettings hnear
      fun htrue => absurd (htrue.symm.trans hmaps) nofun
    exact ⟨maps, s, hfar, hs, fun point _ n => eomShift_oneMap hsettings hmaps hmode hnear,
      hcoded.codes, hcount⟩

end OneMap

section TwoMaps

variable (hsettings : EomSettings settings) (hmaps : settings.multipleMaps = true)

include hsettings hmaps

theorem eomShift_twoMaps
    (hcond : settings.surfaceThickness = 0 ∨ ∀ d ∈ near.depth0, d = infiniteDepth)
    {point : SegmentPoint} {n : ℤ} (hn : near.eomShift settings colors point = some n) :
    0 ≤ n ∧ n ≤ 15 := by
  have hlayer : settings.EOMSingleLayerMode = false := by
    rw [hsettings.singleLayer_eq, hmaps]
    rfl
  unfold eomShift at hn
  obtain ⟨depth0, hdepth0, hn⟩ := Option.bind_eq_some_iff.mp hn
  rw [hlayer, if_neg Bool.false_ne_true] at hn
  split_ifs at hn with hpos
  have hinf := hcond.resolve_left (by omega) depth0 (List.mem_of_getElem? hdepth0)
  unfold farDelta at hn
  dsimp only at hn
  rw [hinf, if_neg (lt_irrefl _)] at hn
  cases hn

omit hsettings in
theorem not_pointBehind_twoMaps
    (hcond : settings.surfaceThickness = 0 ∨ ∀ d ∈ near.depth0, d = infiniteDepth)
    {p : ℕ} {d : ℤ} {distance : ℕ} (hd : near.depth0[p]? = some d) (hlt : d < infiniteDepth)
    (hpos : 0 < distance) : ¬near.PointBehind settings colors component p d distance := by
  intro hbehind
  obtain ⟨point, -, -, -, hle⟩ := hbehind
  rw [hmaps, if_pos rfl] at hle
  rcases hcond with hzero | hinfinite
  · omega
  · exact hlt.ne (hinfinite d (List.mem_of_getElem? hd))

theorem eomExact_twoMaps_iff
    (hcolors : ∀ point ∈ component, point.index < colors.length)
    (hnear : NearDepths settings projectionMode isAdditionalProjectionPlane component near) :
    EomExact settings surface colors component near ↔
      settings.surfaceThickness = 0 ∨ ∀ d ∈ near.depth0, d = infiniteDepth := by
  constructor
  · intro hexact
    rcases Nat.eq_zero_or_pos settings.surfaceThickness with hzero | hpos
    · exact Or.inl hzero
    · right
      intro d hd
      by_contra hne
      obtain ⟨maps, s, hfar, -⟩ := hexact
      rw [farDepths_eq_none hsettings hmaps hpos hnear hcolors hd hne] at hfar
      cases hfar
  · intro hcond
    have hfound : ∃ maps, near.farDepths settings surface colors component = some maps ∧
        near.Maps settings maps ∧ maps.depthEOM = near.depthEOM ∧
        maps.depth1 = maps.depth0 := by
      rcases Nat.eq_zero_or_pos settings.surfaceThickness with hzero | hpos
      · obtain ⟨maps, hfar, hmapsEq, hcodes, hdepth1⟩ :=
          farDepths_of_thickness colors component near surface hsettings hzero
        exact ⟨maps, hfar, hmapsEq, hcodes, hdepth1 hmaps⟩
      · have hinfinite := hcond.resolve_left (by omega)
        exact ⟨_, farDepths_of_infinite hsettings hmaps hpos hnear hinfinite,
          ⟨rfl, fun _ => rfl, rfl⟩, rfl, rfl⟩
    obtain ⟨maps, hfar, hmapsEq, hcodes, hdepth1⟩ := hfound
    have hcoded : Coded settings colors component near maps := coded_of_none hsettings hnear
      (fun p d distance => not_pointBehind_twoMaps hmaps hcond) hmapsEq hcodes
    obtain ⟨s, hs, hcount⟩ := hcoded.exists_resampled hsettings hnear fun _ => hdepth1
    exact ⟨maps, s, hfar, hs, fun point _ n => eomShift_twoMaps hsettings hmaps hcond,
      hcoded.codes, hcount⟩

end TwoMaps

/-- The codes, the shifts and the EOM count are right with one map where there is a thickness or no
point has a code, and with two maps where there is no thickness or no near depth. -/
theorem eomExact_iff (hsettings : EomSettings settings)
    (hmode : projectionMode = 0 ∨ projectionMode = 1)
    (hcolors : ∀ point ∈ component, point.index < colors.length)
    (hrun : nearDepths settings projectionMode isAdditionalProjectionPlane component = some near) :
    EomExact settings surface colors component near ↔
      if settings.multipleMaps then
        settings.surfaceThickness = 0 ∨ ∀ d ∈ near.depth0, d = infiniteDepth
      else 0 < settings.surfaceThickness ∨
        ∀ p d distance, near.depth0[p]? = some d → d < infiniteDepth → 0 < distance →
          ¬near.PointBehind settings colors component p d distance := by
  have hnear := nearDepths_of_eq_some hsettings.minLevel_pos hrun
  have hmode' : near.projectionMode = 0 ∨ near.projectionMode = 1 := by rwa [hnear.mode]
  cases hmaps : settings.multipleMaps with
  | false =>
    rw [if_neg Bool.false_ne_true]
    exact eomExact_oneMap_iff hsettings hmaps hmode' hnear
  | true =>
    rw [if_pos rfl]
    exact eomExact_twoMaps_iff hsettings hmaps hcolors hnear

end Codes

/-- Settings with EOM codes for one map or for two maps. -/
def withCodes (mapCountMinus1 : ℕ) : DepthSettings where
  mapCountMinus1 := mapCountMinus1
  useEnhancedOccupancyMapCode := true
  useSurfaceSeparation := false
  EOMFixBitCount := 2
  surfaceThickness := 4
  maxAllowedDepth := 255
  minLevel := 64
  occupancyResolution := 16
  geometryBitDepth2D := 8
  geometryBitDepth3D := 10

theorem eomSettings_withCodes (mapCountMinus1 : ℕ) : EomSettings (withCodes mapCountMinus1) where
  useEnhancedOccupancyMapCode := rfl
  useSurfaceSeparation := rfl
  surfaceThickness_le := show 4 ≤ 16 by decide
  EOMFixBitCount_le := show 2 ≤ 16 by decide
  minLevel_pos := show 0 < 64 by decide

/-- Two points of one pixel. -/
def onePixel : List SegmentPoint :=
  [{ index := 0, normal := 5, tangent := 7, bitangent := 9 },
    { index := 1, normal := 7, tangent := 7, bitangent := 9 }]

theorem eomExact_onePixel :
    ∃ near, nearDepths (withCodes 0) 0 false onePixel = some near ∧
      EomExact (withCodes 0) (fun _ _ => 4) [default, default] onePixel near := by
  have hrun : (nearDepths (withCodes 0) 0 false onePixel).isSome = true := by decide +kernel
  obtain ⟨near, hnear⟩ := Option.isSome_iff_exists.mp hrun
  have hcolors : ∀ point ∈ onePixel, point.index < [(default : PCCColor3B), default].length := by
    decide
  refine ⟨near, hnear, (eomExact_iff (eomSettings_withCodes 0) (Or.inl rfl) hcolors hnear).mpr ?_⟩
  exact Or.inl (show 0 < 4 by decide)

/-- With two maps the near point itself is shifted by minus one. -/
theorem not_eomExact_onePixel :
    ∃ near, nearDepths (withCodes 1) 0 false onePixel = some near ∧
      ¬EomExact (withCodes 1) (fun _ _ => 4) [default, default] onePixel near := by
  have hrun : (nearDepths (withCodes 1) 0 false onePixel).isSome = true := by decide +kernel
  have hfar : ((nearDepths (withCodes 1) 0 false onePixel).bind
      (farDepths (withCodes 1) (fun _ _ => 4) [default, default] onePixel)).isNone = true := by
    decide +kernel
  obtain ⟨near, hnear⟩ := Option.isSome_iff_exists.mp hrun
  refine ⟨near, hnear, ?_⟩
  rw [hnear, Option.bind_some] at hfar
  intro hexact
  obtain ⟨maps, s, hmaps, -⟩ := hexact
  rw [hmaps] at hfar
  cases hfar

end V3C

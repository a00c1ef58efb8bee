import Mathlib.Data.List.Nodup
import V3C.Reconstruction.EnhancedOccupancyMap

/-! The loss of the enhanced occupancy map: the samples of eight bits hold the smaller values
only. -/
namespace V3C

/-- The distances that the bits of a code stand for, with that of the near point. -/
def codeDistances (code : ℕ) : Set ℕ := {k | k = 0 ∨ ∃ i, code.testBit i ∧ k = i + 1}

theorem succ_mem_codeDistances {code i : ℕ} : i + 1 ∈ codeDistances code ↔ code.testBit i := by
  simp [codeDistances]

theorem codeDistances_injective : Function.Injective codeDistances := by
  intro a b h
  apply Nat.eq_of_testBit_eq
  intro i
  have hi := Set.ext_iff.mp h (i + 1)
  rw [succ_mem_codeDistances, succ_mem_codeDistances] at hi
  exact Bool.eq_iff_iff.mpr hi

namespace PixelPoints

def all (points : PixelPoints) : List ℤ := points.reconstruct ++ points.eomPointsPerPatch

end PixelPoints

namespace PCCCodec

section AddEomPoint

variable (params : EomParameters) (patch : EomPatch) (point0 : ℤ) (eomCode d1pos : ℕ)

theorem addEomPoint_all (points : PixelPoints) (i : ℕ) :
    (addEomPoint params patch point0 eomCode d1pos points i).all.Perm
      (points.all ++ if eomCode.testBit i then [patch.behind point0 (i + 1)] else []) := by
  unfold addEomPoint PixelPoints.all
  split_ifs
  · have hswap : ([patch.behind point0 (i + 1)] ++ points.eomPointsPerPatch).Perm
        (points.eomPointsPerPatch ++ [patch.behind point0 (i + 1)]) := List.perm_append_comm
    have hcomm := hswap.append_left points.reconstruct
    simpa using hcomm
  · simp
  · simp

/-- Whichever list a bit adds its point to, each set bit adds one. -/
theorem foldl_addEomPoint_all (positions : List ℕ) (points : PixelPoints) :
    (positions.foldl (addEomPoint params patch point0 eomCode d1pos) points).all.Perm
      (points.all ++ (positions.filter eomCode.testBit).map fun i =>
        patch.behind point0 (i + 1)) := by
  induction positions generalizing points with
  | nil => simp
  | cons i rest ih =>
    rw [List.foldl_cons]
    have hstep := addEomPoint_all params patch point0 eomCode d1pos points i
    have hrest := (ih _).trans (hstep.append_right _)
    by_cases hi : eomCode.testBit i
    · simpa [hi] using hrest
    · simpa [hi] using hrest

end AddEomPoint

theorem mem_map_behind_iff (patch : EomPatch) (near : ℤ) (eomCode : ℕ) (z : ℤ) :
    z ∈ near :: ((List.range 10).filter eomCode.testBit).map (fun i => patch.behind near (i + 1)) ↔
      ∃ k ∈ codeDistances (eomCode % 2 ^ 10), z = patch.behind near k := by
  have hmem (i : ℕ) : i ∈ (List.range 10).filter eomCode.testBit ↔
      (eomCode % 2 ^ 10).testBit i := by
    rw [List.mem_filter, List.mem_range, Nat.testBit_mod_two_pow]
    simp
  rw [List.mem_cons, List.mem_map]
  constructor
  · rintro (rfl | ⟨i, hi, rfl⟩)
    · exact ⟨0, Or.inl rfl, (patch.behind_zero z).symm⟩
    · exact ⟨i + 1, succ_mem_codeDistances.mpr ((hmem i).mp hi), rfl⟩
  · rintro ⟨k, rfl | ⟨i, hi, rfl⟩, rfl⟩
    · exact Or.inl (patch.behind_zero near)
    · exact Or.inr ⟨i, (hmem i).mpr hi, rfl⟩

theorem nodup_map_behind (patch : EomPatch) (near : ℤ) (eomCode : ℕ) :
    (near ::
      ((List.range 10).filter eomCode.testBit).map fun i => patch.behind near (i + 1)).Nodup := by
  rw [List.nodup_cons]
  constructor
  · rw [List.mem_map]
    rintro ⟨i, -, hi⟩
    have hzero := patch.behind_zero near
    have := (patch.behind_inj near).mp (hi.trans hzero.symm)
    omega
  · apply List.Nodup.map
    · intro i j h
      have := (patch.behind_inj near).mp h
      omega
    · exact List.nodup_range.filter _

/-- The points of an occupied pixel. A code of zero adds the near point again where the
duplicates are kept. -/
theorem generatePointCloudPixel_all (params : EomParameters) (patch : EomPatch)
    {occupancy frame0 frame1 eomCode d1pos : ℕ} (hocc : occupancy ≠ 0)
    (hcode : eomCodeOfPixel params occupancy frame0 frame1 = some (eomCode, d1pos)) :
    ∃ points, generatePointCloudPixel params patch occupancy frame0 frame1 = some points ∧
      points.all.Perm
        (patch.generateNormalCoordinate frame0 ::
          ((List.range 10).filter eomCode.testBit).map (fun i =>
            patch.behind (patch.generateNormalCoordinate frame0) (i + 1)) ++
          if eomCode = 0 ∧ params.removeDuplicatePoints = false then
            [patch.generateNormalCoordinate frame0] else []) := by
  unfold generatePointCloudPixel
  rw [if_neg hocc, hcode]
  by_cases hzero : eomCode = 0
  · subst hzero
    refine ⟨_, by simp only [Option.bind_eq_bind, Option.bind_some, ↓reduceIte]; rfl, ?_⟩
    cases params.removeDuplicatePoints <;> simp [PixelPoints.all]
  · refine ⟨_, by simp only [Option.bind_eq_bind, Option.bind_some, if_neg hzero]; rfl, ?_⟩
    have hfold := foldl_addEomPoint_all params patch (patch.generateNormalCoordinate frame0)
      eomCode
      ((List.range 10).foldl (fun d1pos i => if eomCode.testBit i then i else d1pos) d1pos)
      (List.range 10)
      { reconstruct := [patch.generateNormalCoordinate frame0], eomPointsPerPatch := [] }
    simpa [hzero, PixelPoints.all] using hfold

theorem standAt_iff (params : EomParameters) (patch : EomPatch) (points : PixelPoints)
    (near : ℤ) (eomCode : ℕ) (distances : Set ℕ)
    (hall : points.all.Perm
      (near ::
        ((List.range 10).filter eomCode.testBit).map (fun i => patch.behind near (i + 1)) ++
        if eomCode = 0 ∧ params.removeDuplicatePoints = false then [near] else [])) :
    points.StandAt patch near distances ↔
      (params.removeDuplicatePoints = true ∨ eomCode ≠ 0) ∧
        codeDistances (eomCode % 2 ^ 10) = distances := by
  by_cases hdup : eomCode = 0 ∧ params.removeDuplicatePoints = false
  · rw [if_pos hdup] at hall
    have hnot : ¬points.all.Nodup := by
      rw [hall.nodup_iff]
      simp
    constructor
    · intro h
      exact absurd h.1 hnot
    · rintro ⟨hkept | hcode, -⟩
      · rw [hkept] at hdup
        exact absurd hdup.2 (by decide)
      · exact absurd hdup.1 hcode
  · rw [if_neg hdup, List.append_nil] at hall
    have hkept : params.removeDuplicatePoints = true ∨ eomCode ≠ 0 := by
      by_cases h : eomCode = 0
      · exact Or.inl (by simpa [h] using hdup)
      · exact Or.inr h
    have hnodup : points.all.Nodup := hall.nodup_iff.mpr (nodup_map_behind patch near eomCode)
    have hmem (z : ℤ) : z ∈ points.all ↔
        ∃ k ∈ codeDistances (eomCode % 2 ^ 10), z = patch.behind near k :=
      hall.mem_iff.trans (mem_map_behind_iff patch near eomCode z)
    constructor
    · intro h
      refine ⟨hkept, Set.ext fun k => ?_⟩
      have hk := (hmem (patch.behind near k)).symm.trans (h.2 (patch.behind near k))
      simpa [EomPatch.behind_inj] using hk
    · rintro ⟨-, rfl⟩
      exact ⟨hnodup, hmem⟩

end PCCCodec

/-- A pixel is coded without loss when its sample is not zero and the decoder has its code. -/
theorem eomLossless_iff_code {params : EomParameters} {patch : EomPatch} {pixel : EomPixel}
    {occupancy eomCode d1pos recorded : ℕ}
    (hmodify : PCCEncoder.modifyOccupancyMapEOM params 1 pixel.d0 pixel.d1
      (toInt16 pixel.eomCode) = some occupancy)
    (hcode : PCCCodec.eomCodeOfPixel params (PCCEncoder.occupancyMapVideoSample occupancy) pixel.d0
      (if params.absoluteD1 then pixel.d1 else pixel.d1 - pixel.d0) = some (eomCode, d1pos))
    (hrecorded : pixel.distances params = codeDistances recorded) :
    EomLossless params patch pixel ↔
      PCCEncoder.occupancyMapVideoSample occupancy ≠ 0 ∧
      (params.removeDuplicatePoints = true ∨ eomCode ≠ 0) ∧ eomCode % 2 ^ 10 = recorded := by
  have hpoints (points : PixelPoints) (hall) := PCCCodec.standAt_iff params patch points
    (patch.generateNormalCoordinate pixel.d0) eomCode (pixel.distances params) hall
  rw [hrecorded, codeDistances_injective.eq_iff] at hpoints
  constructor
  · rintro ⟨occupancy', hmodify', hocc, points, hgenerate, hstand⟩
    obtain rfl := Option.some.inj (hmodify.symm.trans hmodify')
    obtain ⟨points', hgenerate', hall⟩ :=
      PCCCodec.generatePointCloudPixel_all params patch hocc hcode
    obtain rfl := Option.some.inj (hgenerate.symm.trans hgenerate')
    rw [hrecorded] at hstand
    exact ⟨hocc, (hpoints points hall).mp hstand⟩
  · rintro ⟨hocc, hcodes⟩
    obtain ⟨points, hgenerate, hall⟩ :=
      PCCCodec.generatePointCloudPixel_all params patch hocc hcode
    refine ⟨occupancy, hmodify, hocc, points, hgenerate, ?_⟩
    rw [hrecorded]
    exact (hpoints points hall).mpr hcodes

section Arithmetic

/-- The upper half of sixteen bits is negative. -/
theorem toInt16_of_ge {n : ℤ} (hlow : 32768 ≤ n) (hhigh : n < 65536) :
    toInt16 n = n - 65536 := by
  unfold toInt16 Int.bmod
  dsimp only
  split_ifs <;> omega

/-- A mask of at most sixteen bits does not see the conversion to `int16_t`. -/
theorem toInt16_emod_two_pow {n bits : ℕ} (hbits : bits ≤ 16) :
    toInt16 n % 2 ^ bits = (n % 2 ^ bits : ℕ) := by
  have hdvd : (2 ^ bits : ℤ) ∣ 65536 := by
    have h := pow_dvd_pow (2 : ℤ) hbits
    norm_num at h
    exact h
  have hcongr : toInt16 n % 65536 = n % 65536 := Int.bmod_emod
  rw [← Int.emod_emod_of_dvd _ hdvd, hcongr, Int.emod_emod_of_dvd _ hdvd]
  push_cast
  rfl

theorem occupancyMapVideoSample_of_lt {symbol : ℕ} (h : symbol < 256) :
    PCCEncoder.occupancyMapVideoSample symbol = symbol := by
  unfold PCCEncoder.occupancyMapVideoSample toUInt8
  split_ifs <;> omega

end Arithmetic

section TwoMaps

variable {params : EomParameters} {pixel : EomPixel}

/-- The value is the complement of the code, in as many bits as there are depths between. -/
theorem modifyOccupancyMapEOM_twoMaps (hmaps : params.mapCountMinus1 ≠ 0)
    (hrec : pixel.Recorded params) :
    PCCEncoder.modifyOccupancyMapEOM params 1 pixel.d0 pixel.d1 (toInt16 pixel.eomCode) =
      some (2 ^ (pixel.d1 - pixel.d0 - 1) -
        pixel.eomCode % 2 ^ (pixel.d1 - pixel.d0 - 1)) := by
  obtain ⟨hnear, hfar⟩ := hrec
  rw [if_neg hmaps] at hfar
  have hdiff : toSizeT (pixel.d1 - pixel.d0) = pixel.d1 - pixel.d0 := by
    rw [toSizeT_of_lt (by omega) (by omega)]
    omega
  have hbits : toUInt16 (pixel.d1 - pixel.d0 - 1) = pixel.d1 - pixel.d0 - 1 ∨
      pixel.d1 = pixel.d0 := by
    unfold toUInt16
    omega
  unfold PCCEncoder.modifyOccupancyMapEOM
  rw [if_neg hmaps, hdiff]
  by_cases hbetween : 1 < pixel.d1 - pixel.d0
  · have hb := hbits.resolve_right (by omega)
    set b := pixel.d1 - pixel.d0 - 1 with hbdef
    have hpow : 2 ^ b ≤ 2 ^ 9 := Nat.pow_le_pow_right (by decide) (by omega)
    have hmod : pixel.eomCode % 2 ^ b < 2 ^ b := Nat.mod_lt _ (by positivity)
    rw [if_pos ⟨hnear, rfl, hbetween⟩]
    simp only [hb]
    rw [toInt16_emod_two_pow (by omega), toUInt16_of_lt (by omega)]
    have hsymbol : (2 ^ b - 1 - (pixel.eomCode % 2 ^ b : ℕ) : ℤ) =
        (2 ^ b - 1 - pixel.eomCode % 2 ^ b : ℕ) := by
      push_cast [show pixel.eomCode % 2 ^ b ≤ 2 ^ b - 1 by omega, show 1 ≤ 2 ^ b by omega]
      rfl
    rw [hsymbol, if_pos (by omega), toUInt16_of_lt (by omega)]
    congr 1
    omega
  · rw [if_neg (by omega)]
    have hnone : pixel.d1 - pixel.d0 - 1 = 0 := by omega
    simp [hnone, Nat.mod_one]

/-- The difference of the two maps, as the decoder takes it. -/
theorem eomDiff_eq (hmaps : params.mapCountMinus1 ≠ 0) (hrec : pixel.Recorded params) :
    (if params.absoluteD1 then
        toInt16 (toInt16 (if params.absoluteD1 then pixel.d1 else pixel.d1 - pixel.d0 : ℕ) -
          toInt16 pixel.d0)
      else toInt16 (if params.absoluteD1 then pixel.d1 else pixel.d1 - pixel.d0 : ℕ)) =
      (pixel.d1 - pixel.d0 : ℕ) := by
  obtain ⟨hnear, hfar⟩ := hrec
  rw [if_neg hmaps] at hfar
  unfold infiniteDepth at hnear
  cases params.absoluteD1 with
  | true =>
    simp only [↓reduceIte]
    rw [toInt16_of_lt (n := pixel.d1) (by omega) (by omega),
      toInt16_of_lt (n := pixel.d0) (by omega) (by omega), toInt16_of_lt (by omega) (by omega)]
    omega
  | false =>
    simp only [Bool.false_eq_true, ↓reduceIte]
    rw [toInt16_of_lt (by omega) (by omega)]

/-- The code that the decoder finds behind a sample. -/
def twoMapsCode (diff sample : ℕ) : ℕ :=
  if diff = 0 then 0
  else if diff = 1 then 1
  else toUInt16 (toUInt16 (2 ^ (diff - 1) - sample) ||| 2 ^ (diff - 1) : ℕ)

theorem eomCodeOfPixel_twoMaps (hmaps : params.mapCountMinus1 ≠ 0)
    (hrec : pixel.Recorded params) (sample : ℕ) :
    ∃ d1pos, PCCCodec.eomCodeOfPixel params sample pixel.d0
        (if params.absoluteD1 then pixel.d1 else pixel.d1 - pixel.d0) =
      some (twoMapsCode (pixel.d1 - pixel.d0) sample, d1pos) := by
  have hdiff := eomDiff_eq hmaps hrec
  obtain ⟨hnear, hfar⟩ := hrec
  rw [if_neg hmaps] at hfar
  unfold PCCCodec.eomCodeOfPixel twoMapsCode
  rw [if_pos (by omega)]
  simp only [hdiff]
  have hbound : pixel.d1 - pixel.d0 ≤ 10 := by omega
  generalize pixel.d1 - pixel.d0 = diff at hbound
  rw [if_neg (by omega)]
  by_cases h0 : diff = 0
  · exact ⟨0, by simp [h0]⟩
  · by_cases h1 : diff = 1
    · exact ⟨1, by simp [h1]⟩
    · have hbits : toUInt16 ((diff : ℤ) - 1) = diff - 1 := by
        unfold toUInt16
        omega
      refine ⟨diff - 1, ?_⟩
      rw [if_neg (by omega), if_neg (by omega), if_neg h0, if_neg h1, hbits, if_pos (by omega)]

/-- The code that two maps record: the far depth is its last bit. -/
theorem distances_twoMaps (hmaps : params.mapCountMinus1 ≠ 0) :
    pixel.distances params =
      codeDistances (if pixel.d1 - pixel.d0 = 0 then 0
        else pixel.eomCode % 2 ^ (pixel.d1 - pixel.d0 - 1) ||| 2 ^ (pixel.d1 - pixel.d0 - 1)) := by
  unfold EomPixel.distances
  rw [if_neg hmaps]
  generalize pixel.d1 - pixel.d0 = diff
  ext k
  by_cases h0 : diff = 0
  · simp [h0, codeDistances]
  · rw [if_neg h0]
    simp only [codeDistances, Set.mem_ofPred_eq, Nat.testBit_or, Nat.testBit_mod_two_pow,
      Nat.testBit_two_pow, Bool.or_eq_true, Bool.and_eq_true, decide_eq_true_eq]
    constructor
    · rintro (hk | hk | ⟨i, hi, hbit, hk⟩)
      · exact Or.inl hk
      · exact Or.inr ⟨diff - 1, Or.inr rfl, by omega⟩
      · exact Or.inr ⟨i, Or.inl ⟨hi, hbit⟩, hk⟩
    · rintro (hk | ⟨i, ⟨hi, hbit⟩ | rfl, hk⟩)
      · exact Or.inl hk
      · exact Or.inr (Or.inr ⟨i, hi, hbit, hk⟩)
      · exact Or.inr (Or.inl (by omega))

theorem twoMapsCode_ne_zero {diff sample : ℕ} (hdiff : diff ≤ 10) (h0 : diff ≠ 0) :
    twoMapsCode diff sample ≠ 0 := by
  unfold twoMapsCode
  rw [if_neg h0]
  split_ifs with h1
  · decide
  · have hpow : 2 ^ (diff - 1) ≤ 2 ^ 9 := Nat.pow_le_pow_right (by decide) (by omega)
    have hsymbol : toUInt16 (2 ^ (diff - 1) - sample) < 2 ^ 16 := by
      unfold toUInt16
      omega
    have hlt := Nat.or_lt_two_pow hsymbol (y := 2 ^ (diff - 1)) (by omega)
    have hle : 2 ^ (diff - 1) ≤ toUInt16 (2 ^ (diff - 1) - sample) ||| 2 ^ (diff - 1) :=
      Nat.right_le_or
    have hpos : 0 < 2 ^ (diff - 1) := by positivity
    rw [toUInt16_of_lt (by omega)]
    omega

/-- The last bit marks the far depth, so the bits below it are told apart. -/
theorem twoMapsCode_of_le {diff sample : ℕ} (hdiff : diff ≤ 10) (h2 : 2 ≤ diff)
    (hpos : 0 < sample) (hsample : sample ≤ 2 ^ (diff - 1)) :
    twoMapsCode diff sample % 2 ^ 10 = 2 ^ (diff - 1) - sample ||| 2 ^ (diff - 1) := by
  have hpow : 2 ^ (diff - 1) ≤ 2 ^ 9 := Nat.pow_le_pow_right (by decide) (by omega)
  have hcast : (2 ^ (diff - 1) - sample : ℤ) = (2 ^ (diff - 1) - sample : ℕ) := by
    push_cast [hsample]
    rfl
  have hlt := Nat.or_lt_two_pow (x := 2 ^ (diff - 1) - sample) (y := 2 ^ (diff - 1))
    (n := 10) (by omega) (by omega)
  unfold twoMapsCode
  rw [if_neg (by omega), if_neg (by omega), hcast,
    toUInt16_of_lt (n := 2 ^ (diff - 1) - sample) (by omega), toUInt16_of_lt (by omega)]
  exact Nat.mod_eq_of_lt hlt

theorem or_two_pow_inj {b x y : ℕ} (hx : x < 2 ^ b) (hy : y < 2 ^ b) :
    x ||| 2 ^ b = y ||| 2 ^ b ↔ x = y := by
  have hsum {z : ℕ} (hz : z < 2 ^ b) : z ||| 2 ^ b = 2 ^ b + z := by
    have h := Nat.two_pow_add_eq_or_of_lt hz 1
    rw [mul_one, Nat.or_comm] at h
    exact h.symm
  rw [hsum hx, hsum hy]
  omega

theorem twoMapsCode_eq_iff {diff code : ℕ} (hdiff : diff ≤ 10) :
    (PCCEncoder.occupancyMapVideoSample (2 ^ (diff - 1) - code % 2 ^ (diff - 1)) ≠ 0 ∧
      twoMapsCode diff (PCCEncoder.occupancyMapVideoSample
        (2 ^ (diff - 1) - code % 2 ^ (diff - 1))) % 2 ^ 10 =
        if diff = 0 then 0 else code % 2 ^ (diff - 1) ||| 2 ^ (diff - 1)) ↔
      2 ^ (diff - 1) < 256 + code % 2 ^ (diff - 1) := by
  by_cases h2 : diff < 2
  · interval_cases diff
    · simp [Nat.mod_one, twoMapsCode, PCCEncoder.occupancyMapVideoSample, toUInt8]
    · simp [Nat.mod_one, twoMapsCode, PCCEncoder.occupancyMapVideoSample, toUInt8]
  · have hpow : 2 ^ (diff - 1) ≤ 2 ^ 9 := Nat.pow_le_pow_right (by decide) (by omega)
    have hmod : code % 2 ^ (diff - 1) < 2 ^ (diff - 1) := Nat.mod_lt _ (by positivity)
    rw [if_neg (by omega)]
    generalize hc : code % 2 ^ (diff - 1) = e at hmod
    by_cases hsmall : 2 ^ (diff - 1) < 256 + e
    · rw [occupancyMapVideoSample_of_lt (by omega),
        twoMapsCode_of_le hdiff (by omega) (by omega) (by omega)]
      have hback : 2 ^ (diff - 1) - (2 ^ (diff - 1) - e) = e := by omega
      rw [hback]
      constructor
      · intro _
        exact hsmall
      · intro _
        exact ⟨by omega, rfl⟩
    · -- Only eight or nine depths between leave a value that the sample cannot hold.
      have hrange : diff = 9 ∨ diff = 10 := by
        by_contra hother
        have : 2 ^ (diff - 1) ≤ 2 ^ 7 := Nat.pow_le_pow_right (by decide) (by omega)
        omega
      have hwrap : PCCEncoder.occupancyMapVideoSample (2 ^ (diff - 1) - e) =
          (2 ^ (diff - 1) - e) % 256 := by
        unfold PCCEncoder.occupancyMapVideoSample toUInt8
        split_ifs <;> omega
      rw [hwrap]
      constructor
      · rintro ⟨hne, hcode⟩
        rw [twoMapsCode_of_le hdiff (by omega) (by omega) (by omega),
          or_two_pow_inj (by omega) hmod] at hcode
        obtain rfl | rfl := hrange <;> omega
      · intro h
        exact absurd h hsmall

theorem eomLossless_twoMaps_iff (patch : EomPatch) (hmaps : params.mapCountMinus1 ≠ 0)
    (hrec : pixel.Recorded params) :
    EomLossless params patch pixel ↔
      2 ^ (pixel.d1 - pixel.d0 - 1) < 256 + pixel.eomCode % 2 ^ (pixel.d1 - pixel.d0 - 1) ∧
        (params.removeDuplicatePoints = true ∨ pixel.d1 - pixel.d0 ≠ 0) := by
  obtain ⟨d1pos, hcode⟩ := eomCodeOfPixel_twoMaps hmaps hrec
    (PCCEncoder.occupancyMapVideoSample (2 ^ (pixel.d1 - pixel.d0 - 1) -
      pixel.eomCode % 2 ^ (pixel.d1 - pixel.d0 - 1)))
  rw [eomLossless_iff_code (modifyOccupancyMapEOM_twoMaps hmaps hrec) hcode
    (distances_twoMaps hmaps)]
  have hbound : pixel.d1 - pixel.d0 ≤ 10 := by
    have hfar := hrec.2
    rw [if_neg hmaps] at hfar
    omega
  rw [← twoMapsCode_eq_iff hbound]
  have hzero (sample : ℕ) : twoMapsCode (pixel.d1 - pixel.d0) sample ≠ 0 ↔
      pixel.d1 - pixel.d0 ≠ 0 := by
    constructor
    · intro h h0
      exact h (by rw [h0]; rfl)
    · exact twoMapsCode_ne_zero hbound
  rw [hzero]
  tauto

end TwoMaps

section OneMap

variable {params : EomParameters} {pixel : EomPixel}

/-- The value of an occupied pixel. A code of sixteen bits is negative from `2 ^ 15` on, and
below it the symbol is. -/
def oneMapOccupancy (fixBitCount code : ℕ) : ℕ :=
  if fixBitCount = 16 ∧ code < 32768 then 1 else 2 ^ fixBitCount - code

theorem modifyOccupancyMapEOM_oneMap (hmaps : params.mapCountMinus1 = 0)
    (hrec : pixel.Recorded params) :
    PCCEncoder.modifyOccupancyMapEOM params 1 pixel.d0 pixel.d1 (toInt16 pixel.eomCode) =
      some (oneMapOccupancy params.EOMFixBitCount pixel.eomCode) := by
  obtain ⟨hnear, hcode⟩ := hrec
  rw [if_pos hmaps] at hcode
  obtain ⟨hone, hsixteen, hlt⟩ := hcode
  unfold PCCEncoder.modifyOccupancyMapEOM oneMapOccupancy
  rw [if_pos hmaps, if_pos ⟨hnear, rfl⟩, if_pos (by omega)]
  by_cases h16 : params.EOMFixBitCount = 16
  · rw [h16] at hlt ⊢
    have hones : toInt16 (2 ^ 16 - 1) = -1 := by decide
    rw [hones]
    by_cases hneg : pixel.eomCode < 32768
    · rw [toInt16_of_lt (n := pixel.eomCode) (by omega) (by omega),
        toInt16_of_lt (by omega) (by omega), if_pos ⟨rfl, hneg⟩]
      dsimp only
      rw [if_pos (by omega)]
      rfl
    · rw [toInt16_of_ge (n := pixel.eomCode) (by omega) (by omega),
        toInt16_of_lt (by omega) (by omega), if_neg (by omega)]
      dsimp only
      rw [if_neg (by omega)]
      congr 1
      omega
  · have hpow : 2 ^ params.EOMFixBitCount ≤ 2 ^ 15 := Nat.pow_le_pow_right (by decide) (by omega)
    have hcast : (2 ^ params.EOMFixBitCount : ℤ) = (2 ^ params.EOMFixBitCount : ℕ) := by
      push_cast
      rfl
    simp only [hcast]
    rw [toInt16_of_lt (n := pixel.eomCode) (by omega) (by omega),
      toInt16_of_lt (n := (2 ^ params.EOMFixBitCount : ℕ) - 1) (by omega) (by omega),
      toInt16_of_lt (by omega) (by omega), if_neg (by omega), if_neg (by omega)]
    congr 1
    omega

theorem eomCodeOfPixel_oneMap (hmaps : params.mapCountMinus1 = 0)
    (hrec : pixel.Recorded params) (sample frame0 frame1 : ℕ) :
    PCCCodec.eomCodeOfPixel params sample frame0 frame1 =
      some (toUInt16 (2 ^ params.EOMFixBitCount - sample), 0) := by
  have hcode := hrec.2
  rw [if_pos hmaps] at hcode
  unfold PCCCodec.eomCodeOfPixel
  rw [if_neg (by omega), if_pos (by omega)]

theorem distances_oneMap (hmaps : params.mapCountMinus1 = 0) (hrec : pixel.Recorded params) :
    pixel.distances params = codeDistances pixel.eomCode := by
  have hcode := hrec.2
  rw [if_pos hmaps] at hcode
  have hbits : pixel.eomCode = pixel.eomCode % 2 ^ params.EOMFixBitCount :=
    (Nat.mod_eq_of_lt hcode.2.2).symm
  unfold EomPixel.distances
  rw [if_pos hmaps, hbits]
  ext k
  simp [codeDistances, and_assoc]

/-- Beyond ten bits only a code survives that the value, cut to 1023 or to 1, happens to give
back. -/
theorem oneMapCode_eq_iff {n code : ℕ} (hone : 1 ≤ n) (hsixteen : n ≤ 16) (hcode : code < 2 ^ n) :
    (PCCEncoder.occupancyMapVideoSample (oneMapOccupancy n code) ≠ 0 ∧
      toUInt16 (2 ^ n - PCCEncoder.occupancyMapVideoSample (oneMapOccupancy n code)) % 2 ^ 10 =
        code) ↔
      (n ≤ 10 ∧ 2 ^ n < 256 + code) ∨ (10 < n ∧ n < 16 ∧ code = 769) ∨
        (n = 16 ∧ code = 1023) := by
  unfold oneMapOccupancy PCCEncoder.occupancyMapVideoSample toUInt8 toUInt16
  interval_cases n <;> norm_num at hcode ⊢ <;> split_ifs <;> omega

theorem eomLossless_oneMap_iff (patch : EomPatch) (hmaps : params.mapCountMinus1 = 0)
    (hrec : pixel.Recorded params) :
    EomLossless params patch pixel ↔
      ((params.EOMFixBitCount ≤ 10 ∧ 2 ^ params.EOMFixBitCount < 256 + pixel.eomCode) ∨
        (10 < params.EOMFixBitCount ∧ params.EOMFixBitCount < 16 ∧ pixel.eomCode = 769) ∨
        (params.EOMFixBitCount = 16 ∧ pixel.eomCode = 1023)) ∧
      (params.removeDuplicatePoints = true ∨ pixel.eomCode ≠ 0) := by
  rw [eomLossless_iff_code (modifyOccupancyMapEOM_oneMap hmaps hrec)
    (eomCodeOfPixel_oneMap hmaps hrec _ _ _) (distances_oneMap hmaps hrec)]
  have hcode := hrec.2
  rw [if_pos hmaps] at hcode
  obtain ⟨hone, hsixteen, hlt⟩ := hcode
  have hiff := oneMapCode_eq_iff hone hsixteen hlt
  rw [← hiff]
  generalize hsample : PCCEncoder.occupancyMapVideoSample
    (oneMapOccupancy params.EOMFixBitCount pixel.eomCode) = sample at hiff ⊢
  constructor
  · rintro ⟨hne, hdup, hback⟩
    refine ⟨⟨hne, hback⟩, ?_⟩
    by_cases h0 : pixel.eomCode = 0
    · -- The decoder has the code zero as well, so the near point is not added again.
      have hsmall : params.EOMFixBitCount ≤ 10 ∧ 2 ^ params.EOMFixBitCount < 256 := by
        have := hiff.mp ⟨hne, hback⟩
        omega
      have hfull : sample = 2 ^ params.EOMFixBitCount := by
        rw [← hsample, h0, oneMapOccupancy, if_neg (by omega), Nat.sub_zero]
        exact occupancyMapVideoSample_of_lt hsmall.2
      refine hdup.imp_right fun hcode => absurd ?_ hcode
      rw [hfull]
      simp [toUInt16]
    · exact Or.inr h0
  · rintro ⟨⟨hne, hback⟩, hdup⟩
    refine ⟨hne, hdup.imp_right fun h0 hzero => h0 ?_, hback⟩
    rw [hzero] at hback
    exact hback.symm

end OneMap

/-- The pixels that the samples of eight bits code without loss. With more than ten bits in one
map only the code that the cut values give back is left. -/
def EomPixel.FitsSample (pixel : EomPixel) (params : EomParameters) : Prop :=
  if params.mapCountMinus1 = 0 then
    ((params.EOMFixBitCount ≤ 10 ∧ 2 ^ params.EOMFixBitCount < 256 + pixel.eomCode) ∨
      (10 < params.EOMFixBitCount ∧ params.EOMFixBitCount < 16 ∧ pixel.eomCode = 769) ∨
      (params.EOMFixBitCount = 16 ∧ pixel.eomCode = 1023)) ∧
    (params.removeDuplicatePoints = true ∨ pixel.eomCode ≠ 0)
  else
    2 ^ (pixel.d1 - pixel.d0 - 1) < 256 + pixel.eomCode % 2 ^ (pixel.d1 - pixel.d0 - 1) ∧
    (params.removeDuplicatePoints = true ∨ pixel.d1 - pixel.d0 ≠ 0)

instance (pixel : EomPixel) (params : EomParameters) : Decidable (pixel.FitsSample params) :=
  inferInstanceAs (Decidable (ite _ _ _))

theorem eomLossless_iff (params : EomParameters) (patch : EomPatch) (pixel : EomPixel)
    (hrec : pixel.Recorded params) :
    EomLossless params patch pixel ↔ pixel.FitsSample params := by
  unfold EomPixel.FitsSample
  split_ifs with hmaps
  · exact eomLossless_oneMap_iff patch hmaps hrec
  · exact eomLossless_twoMaps_iff patch hmaps hrec

/-- Two maps four apart, with one of the depths between. -/
theorem eomLossless_three_between :
    EomLossless
      { mapCountMinus1 := 1, EOMFixBitCount := 2, absoluteD1 := true, removeDuplicatePoints := true }
      { projectionMode := 0, d1 := 20 } { d0 := 7, d1 := 11, eomCode := 10 } :=
  (eomLossless_iff _ _ _ (by decide)).mpr (by decide)

/-- Nothing lies between two maps that are nine apart: the value is 256, the sample zero. -/
theorem not_eomLossless_eight_between :
    ¬EomLossless
      { mapCountMinus1 := 1, EOMFixBitCount := 2, absoluteD1 := true, removeDuplicatePoints := true }
      { projectionMode := 0, d1 := 20 } { d0 := 7, d1 := 16, eomCode := 256 } := by
  rintro ⟨occupancy, hmodify, hoccupied, -⟩
  have hvalue : PCCEncoder.modifyOccupancyMapEOM
      { mapCountMinus1 := 1, EOMFixBitCount := 2, absoluteD1 := true,
        removeDuplicatePoints := true } 1 (7 : ℕ) (16 : ℕ) (toInt16 (256 : ℕ)) = some 256 := by
    decide
  obtain rfl := Option.some.inj (hmodify.symm.trans hvalue)
  exact hoccupied (by decide)

end V3C

import V3C.Patch.PatchFrameDataStructure
import Mathlib.Algebra.Order.Ring.Abs
import Mathlib.Data.List.Forall2

/-! When the decoder's patches are those the encoder stored, over the frames of a tile. -/
namespace V3C
open PCCEncoder

def roundUpToQuantizer (log2Quantizer pixels : ℕ) : ℕ :=
  (pixels + 2 ^ log2Quantizer - 1) / 2 ^ log2Quantizer * 2 ^ log2Quantizer

/-- The decoded patch is the stored one, with the pixel sizes rounded up to the quantizer
where sizes are quantized. -/
structure Reproduces (params : PatchParameters) (asps : AtlasSequenceParameterSetRbsp)
    (stored decoded : PCCPatch) : Prop where
  u0 : decoded.u0 = stored.u0
  v0 : decoded.v0 = stored.v0
  sizeU0 : decoded.sizeU0 = stored.sizeU0
  sizeV0 : decoded.sizeV0 = stored.sizeV0
  size2DXInPixel : asps.patchSizeQuantizerPresentFlag = true → decoded.size2DXInPixel =
    .ofNat (roundUpToQuantizer params.log2QuantizerSizeX stored.size2DXInPixel.toNat)
  size2DYInPixel : asps.patchSizeQuantizerPresentFlag = true → decoded.size2DYInPixel =
    .ofNat (roundUpToQuantizer params.log2QuantizerSizeY stored.size2DYInPixel.toNat)
  u1 : decoded.u1 = stored.u1
  v1 : decoded.v1 = stored.v1
  d1 : decoded.d1 = stored.d1
  sizeD : decoded.sizeD = stored.sizeD
  patchOrientation : decoded.patchOrientation = stored.patchOrientation
  viewId : decoded.viewId = stored.viewId
  levelOfDetailX : decoded.levelOfDetailX = stored.levelOfDetailX
  levelOfDetailY : decoded.levelOfDetailY = stored.levelOfDetailY

/-- Every patch of every frame comes back from the decoder. -/
def PatchesReproduced (params : PatchParameters) (asps : AtlasSequenceParameterSetRbsp)
    (afps : AtlasFrameParameterSetRbsp) (tiles : List PCCEncoder.TileInput) : Prop :=
  ∃ stored decoded, reconstructPatches params asps afps tiles = some (stored, decoded) ∧
    List.Forall₂ (List.Forall₂ (Reproduces params asps)) stored decoded

/-- The depth shift, measured from the far end of the range in projection mode 1. -/
def depthOffset (asps : AtlasSequenceParameterSetRbsp) (patch : PCCPatch) : UInt64 :=
  if patch.projectionMode = 0 then patch.d1
  else .ofNat (2 ^ (asps.geometry3dBitdepthMinus1 + 1)) - patch.d1

/-- The depths of a patch that the encoder may give to the loop. -/
structure AlignedPatch (params : PatchParameters) (asps : AtlasSequenceParameterSetRbsp)
    (patch : PCCPatch) : Prop where
  hasView : patch.HasView
  d1 : 2 ^ params.log2MinLevel ∣ (depthOffset asps patch).toNat
  sizeD : patch.bestMatchIdx = g_invalidPatchIndex →
    patch.sizeD = 0 ∨ 2 ^ params.log2MinLevel ∣ patch.sizeD.toNat + 1

/-- The shifts of both sides are within the types they are made in. -/
structure ParametersFit (params : PatchParameters) (asps : AtlasSequenceParameterSetRbsp) :
    Prop where
  minLevel : params.log2MinLevel < 63
  quantizerSizeX : params.log2QuantizerSizeX < 31
  quantizerSizeY : params.log2QuantizerSizeY < 31
  packingBlockSize : asps.log2PatchPackingBlockSize < 31
  geometryBitDepth3D : asps.geometry3dBitdepthMinus1 + 1 < 64

/-- The levels of detail that an intra data unit transmits. -/
def LodFits (afps : AtlasFrameParameterSetRbsp) (lodX lodY : UInt64) : Prop :=
  if afps.lodModeEnableFlag then
    0 < lodX.toNat ∧ lodX.toNat ≤ 256 ∧ 0 < lodY.toNat ∧
      lodY.toNat ≤ if 1 < lodX.toNat then 256 else 257
  else lodX = 1 ∧ lodY = 1

def IntraSizeFits (asps : AtlasSequenceParameterSetRbsp) (log2Quantizer : ℕ)
    (pixels size : UInt64) : Prop :=
  if asps.patchSizeQuantizerPresentFlag then
    (pixels.toNat = 0 → log2Quantizer = 0) ∧
      roundUpToQuantizer log2Quantizer pixels.toNat < 2 ^ 63 ∧
      PCCDecoder.sizeInBlocks asps (.ofNat (roundUpToQuantizer log2Quantizer pixels.toNat)) =
        some size
  else size.toNat ≠ 2 ^ 63

structure IntraFits (params : PatchParameters) (asps : AtlasSequenceParameterSetRbsp)
    (afps : AtlasFrameParameterSetRbsp) (patch : PCCPatch) : Prop where
  lod : LodFits afps patch.levelOfDetailX patch.levelOfDetailY
  offset_lt : (depthOffset asps patch).toNat / 2 ^ params.log2MinLevel < 2 ^ 31
  sizeD_lt : patch.sizeD.toNat + 1 < 2 ^ 64
  sizeX : IntraSizeFits asps params.log2QuantizerSizeX patch.size2DXInPixel patch.sizeU0
  sizeY : IntraSizeFits asps params.log2QuantizerSizeY patch.size2DYInPixel patch.sizeV0

def InterSizeFits (asps : AtlasSequenceParameterSetRbsp) (log2Quantizer : ℕ)
    (pixels size refPixels : UInt64) : Prop :=
  asps.patchSizeQuantizerPresentFlag = true →
    (2 ^ log2Quantizer ∣ pixels.toNat ↔ 2 ^ log2Quantizer ∣ refPixels.toNat) ∧
      |((pixels.toNat / 2 ^ log2Quantizer : ℕ) : ℤ) -
        (refPixels.toNat / 2 ^ log2Quantizer : ℕ)| < 2 ^ 31 ∧
      PCCDecoder.sizeInBlocks asps (.ofNat (roundUpToQuantizer log2Quantizer pixels.toNat)) =
        some size

/-- A difference of depths in steps of `minLevel`, and what the steps make of it. -/
def rangeSteps (minLevel diff : ℤ) : ℤ := if diff = 0 then 0 else (diff + 1).tdiv minLevel

def rangeDelta (minLevel diff : ℤ) : ℤ :=
  if rangeSteps minLevel diff = 0 then 0 else rangeSteps minLevel diff * minLevel - 1

/-- The encoder's clamp to `geometryBitDepth2D` bits does not take effect. -/
structure InterDepthFits (params : PatchParameters) (asps : AtlasSequenceParameterSetRbsp)
    (sizeDPixel refSizeD : UInt64) : Prop where
  geometryBitDepth2D : asps.geometry2dBitdepthMinus1 + 1 < 31
  sizeDPixel_lt : sizeDPixel.toNat < 2 ^ 62
  refSizeD_lt : refSizeD.toNat < 2 ^ 62
  no_clamp : (refSizeD.toNat : ℤ) +
    rangeDelta (2 ^ params.log2MinLevel) (sizeDPixel.toNat - refSizeD.toNat) <
      2 ^ (asps.geometry2dBitdepthMinus1 + 1)

structure InterFits (params : PatchParameters) (asps : AtlasSequenceParameterSetRbsp)
    (patch refPatch : PCCPatch) : Prop where
  viewId : patch.viewId = refPatch.viewId
  patchOrientation : patch.patchOrientation = refPatch.patchOrientation
  levelOfDetailX : patch.levelOfDetailX = refPatch.levelOfDetailX
  levelOfDetailY : patch.levelOfDetailY = refPatch.levelOfDetailY
  depth : InterDepthFits params asps patch.sizeDPixel refPatch.sizeD
  sizeX : InterSizeFits asps params.log2QuantizerSizeX patch.size2DXInPixel patch.sizeU0
    refPatch.size2DXInPixel
  sizeY : InterSizeFits asps params.log2QuantizerSizeY patch.size2DYInPixel patch.sizeV0
    refPatch.size2DYInPixel

/-- An inter patch has a reference among the earlier frames. -/
def PatchFits (params : PatchParameters) (asps : AtlasSequenceParameterSetRbsp)
    (afps : AtlasFrameParameterSetRbsp) (earlier : List (List PCCPatch))
    (refAFOCList : List ℤ) (patch : PCCPatch) : Prop :=
  if patch.bestMatchIdx = g_invalidPatchIndex then IntraFits params asps afps patch
  else ∃ refPatch,
    referencePatch earlier refAFOCList patch.refAtlasFrameIdx patch.bestMatchIdx =
      some refPatch ∧ InterFits params asps patch refPatch

/-- Each frame fits the patches that the encoder stored for the frames before it. -/
def FramesFit (params : PatchParameters) (asps : AtlasSequenceParameterSetRbsp)
    (afps : AtlasFrameParameterSetRbsp) : List (List PCCPatch) → List PCCEncoder.TileInput → Prop
  | _, [] => True
  | earlier, tile :: tiles =>
    (∀ patch ∈ codedPatches earlier.length tile.patches,
      PatchFits params asps afps earlier tile.refAFOCList patch) ∧
    ∀ patches layer,
      createPatchFrameDataStructure params asps afps earlier tile = some (patches, layer) →
      FramesFit params asps afps (earlier ++ [patches]) tiles

/-! Sizes. -/

theorem roundUpToQuantizer_eq (n pixels : ℕ) :
    roundUpToQuantizer n pixels =
      pixels / 2 ^ n * 2 ^ n + if 2 ^ n ∣ pixels then 0 else 2 ^ n := by
  have hpos := Nat.two_pow_pos n
  have hdiv := Nat.div_add_mod' pixels (2 ^ n)
  have hmod := Nat.mod_lt pixels hpos
  unfold roundUpToQuantizer
  split_ifs with h
  · have hzero : pixels % 2 ^ n = 0 := Nat.mod_eq_zero_of_dvd h
    have : (pixels + 2 ^ n - 1) / 2 ^ n = pixels / 2 ^ n := by
      rw [Nat.div_eq_iff hpos]
      omega
    rw [this, add_zero]
  · have hne : pixels % 2 ^ n ≠ 0 := fun hzero => h (Nat.dvd_of_mod_eq_zero hzero)
    have : (pixels + 2 ^ n - 1) / 2 ^ n = pixels / 2 ^ n + 1 := by
      rw [Nat.div_eq_iff hpos]
      rw [Nat.add_mul]
      omega
    rw [this, Nat.add_mul, one_mul]

theorem toNat_ofInt_two_pow {n : ℕ} (h : n < 31) :
    (UInt64.ofInt (2 ^ n)).toNat = 2 ^ n := by
  have hcast : ((2 : ℤ) ^ n) = ((2 ^ n : ℕ) : ℤ) := by push_cast; rfl
  rw [hcast, ofInt_natCast, toNat_ofNat_two_pow (by omega)]

/-- A size of at least one pixel is rounded up by one division. -/
theorem roundUpToQuantizer_of_pos {n pixels : ℕ} (h : 0 < pixels) :
    roundUpToQuantizer n pixels = ((pixels - 1) / 2 ^ n + 1) * 2 ^ n := by
  have hpos := Nat.two_pow_pos n
  have hsum : pixels + 2 ^ n - 1 = pixels - 1 + 2 ^ n := by omega
  rw [roundUpToQuantizer, hsum, Nat.add_div_right _ hpos]

/-- The number of quantizer steps that the decoder gets from an intra data unit. -/
theorem intraSteps_eq {n : ℕ} {pixels : UInt64} (hn : n < 31)
    (hzero : pixels.toNat = 0 → n = 0)
    (hlt : roundUpToQuantizer n pixels.toNat < 2 ^ 63) :
    toInt64 ((pixels - 1) / .ofInt (2 ^ n)) + 1 =
      ((pixels.toNat + 2 ^ n - 1) / 2 ^ n : ℕ) := by
  have hpos := Nat.two_pow_pos n
  by_cases hpixels : pixels.toNat = 0
  · -- no pixels leave the largest `size_t`, which is -1 as an `int64_t`
    have hn0 := hzero hpixels
    have hpixels0 : pixels = 0 := UInt64.toNat_inj.mp hpixels
    subst hn0
    subst hpixels0
    decide
  · have hle : (1 : UInt64) ≤ pixels := by
      rw [UInt64.le_iff_toNat_le]
      exact Nat.one_le_iff_ne_zero.mpr hpixels
    have hquot : ((pixels - 1) / .ofInt (2 ^ n)).toNat = (pixels.toNat - 1) / 2 ^ n := by
      rw [UInt64.toNat_div, toNat_ofInt_two_pow hn, UInt64.toNat_sub_of_le _ _ hle]
      rfl
    have hround := roundUpToQuantizer_of_pos (n := n) (Nat.pos_of_ne_zero hpixels)
    have hmul := Nat.le_mul_of_pos_right ((pixels.toNat - 1) / 2 ^ n + 1) hpos
    have hsum : pixels.toNat + 2 ^ n - 1 = pixels.toNat - 1 + 2 ^ n := by omega
    rw [toInt64_of_lt (by omega), hquot, hsum, Nat.add_div_right _ hpos]
    rfl

theorem intraSize_intraSizeMinus1 {asps : AtlasSequenceParameterSetRbsp} {n : ℕ}
    {pixels size : UInt64} (hn : n < 31) (h : IntraSizeFits asps n pixels size) :
    ∃ pixels', PCCDecoder.intraSize asps (2 ^ n)
        (intraSizeMinus1 asps (2 ^ n) pixels size).toNat = some (pixels', size) ∧
      (asps.patchSizeQuantizerPresentFlag = true →
        pixels' = .ofNat (roundUpToQuantizer n pixels.toNat)) := by
  unfold PCCDecoder.intraSize intraSizeMinus1
  unfold IntraSizeFits at h
  by_cases hflag : asps.patchSizeQuantizerPresentFlag = true
  · rw [if_pos hflag] at h
    have hround := h.2.1
    have hsize := h.2.2
    have hsteps := intraSteps_eq hn h.1 hround
    have hpos := Nat.two_pow_pos n
    unfold roundUpToQuantizer at *
    generalize (pixels.toNat + 2 ^ n - 1) / 2 ^ n = steps at *
    have hle := Nat.le_mul_of_pos_right steps hpos
    have hmul : (steps : ℤ) * 2 ^ n = (steps * 2 ^ n : ℕ) := by
      push_cast
      rfl
    refine ⟨.ofNat (steps * 2 ^ n), ?_, fun _ => rfl⟩
    simp only [hflag, if_true, UInt64.ofNat_toNat, hsteps, Option.bind_eq_bind]
    rw [checkInt64_eq_some (by omega) (by omega), Option.bind_some, hmul,
      checkInt64_eq_some (by omega) (by omega), Option.bind_some, ofInt_natCast, hsize]
    rfl
  · rw [if_neg hflag] at h
    have hmem := toInt64_mem (size - 1)
    have hlt : toInt64 (size - 1) + 1 < 2 ^ 63 := by
      have hne : toInt64 (size - 1) ≠ 2 ^ 63 - 1 := by
        intro heq
        apply h
        have hback := ofInt_toInt64 (size - 1)
        rw [heq] at hback
        have hsize : size = .ofInt (2 ^ 63 - 1) + 1 := by
          rw [hback, UInt64.sub_add_cancel]
        rw [hsize]
        decide
      omega
    refine ⟨0, ?_, fun hflag' => absurd hflag' hflag⟩
    simp only [hflag, Bool.false_eq_true, if_false, UInt64.ofNat_toNat, Option.bind_eq_bind]
    rw [checkInt64_eq_some (by omega) hlt, Option.bind_some, UInt64.ofInt_add, ofInt_toInt64,
      UInt64.ofInt_one, UInt64.sub_add_cancel]
    rfl

theorem interSize_interDeltaSize {asps : AtlasSequenceParameterSetRbsp} {n : ℕ}
    {pixels size refPixels refPixels' : UInt64} (refSize : UInt64) (hn : n < 31)
    (href : asps.patchSizeQuantizerPresentFlag = true →
      refPixels' = .ofNat (roundUpToQuantizer n refPixels.toNat))
    (h : InterSizeFits asps n pixels size refPixels) :
    ∃ pixels', PCCDecoder.interSize asps (2 ^ n)
        (interDeltaSize asps (2 ^ n) pixels size refPixels refSize) refPixels' refSize =
          some (pixels', size) ∧
      (asps.patchSizeQuantizerPresentFlag = true →
        pixels' = .ofNat (roundUpToQuantizer n pixels.toNat)) := by
  unfold PCCDecoder.interSize interDeltaSize
  by_cases hflag : asps.patchSizeQuantizerPresentFlag = true
  · have hdvd := (h hflag).1
    have habs := (h hflag).2.1
    have hsize := (h hflag).2.2
    have hquot : ∀ x : UInt64, (x / .ofInt (2 ^ n)).toNat = x.toNat / 2 ^ n := fun x => by
      rw [UInt64.toNat_div, toNat_ofInt_two_pow hn]
    have hdelta : toInt32 (pixels / .ofInt (2 ^ n) - refPixels / .ofInt (2 ^ n)).toNat =
        ((pixels.toNat / 2 ^ n : ℕ) : ℤ) - (refPixels.toNat / 2 ^ n : ℕ) := by
      rw [toInt32_toNat_sub (by rw [hquot, hquot]; exact habs), hquot, hquot]
    have hround : (roundUpToQuantizer n refPixels.toNat : ℤ) +
        (((pixels.toNat / 2 ^ n : ℕ) : ℤ) - (refPixels.toNat / 2 ^ n : ℕ)) * 2 ^ n =
          (roundUpToQuantizer n pixels.toNat : ℕ) := by
      rw [roundUpToQuantizer_eq, roundUpToQuantizer_eq, if_congr hdvd rfl rfl]
      push_cast
      ring
    generalize ((pixels.toNat / 2 ^ n : ℕ) : ℤ) - (refPixels.toNat / 2 ^ n : ℕ) = delta at *
    have hpow : (2 : ℤ) ^ n ≤ 2 ^ 30 := by gcongr <;> omega
    have hmul : |delta * 2 ^ n| ≤ 2 ^ 31 * 2 ^ 30 := by
      rw [abs_mul, abs_of_pos (a := (2 : ℤ) ^ n) (by positivity)]
      gcongr
    have hbounds := abs_le.mp hmul
    have hpixels : refPixels' + .ofInt (delta * 2 ^ n) =
        .ofNat (roundUpToQuantizer n pixels.toNat) := by
      rw [href hflag, ← ofInt_natCast, ← ofInt_natCast, ← UInt64.ofInt_add, hround]
    refine ⟨.ofNat (roundUpToQuantizer n pixels.toNat), ?_, fun _ => rfl⟩
    simp only [hflag, if_true, hdelta, Option.bind_eq_bind]
    rw [checkInt64_eq_some (by linarith) (by linarith), Option.bind_some, hpixels, hsize]
    rfl
  · refine ⟨0, ?_, fun hflag' => absurd hflag' hflag⟩
    simp only [hflag, Bool.false_eq_true, if_false, ofInt_toInt64, UInt64.sub_add_cancel]
    rfl

/-! Depths. -/

/-- The stored patches of an earlier frame, with what the decoder has for them. -/
structure Matched (params : PatchParameters) (asps : AtlasSequenceParameterSetRbsp)
    (stored decoded : PCCPatch) : Prop where
  reproduces : Reproduces params asps stored decoded
  hasView : stored.HasView
  d1 : 2 ^ params.log2MinLevel ∣ (depthOffset asps stored).toNat

theorem minLevel_dvd_size {n : ℕ} (h : n < 63) :
    (UInt64.ofNat (2 ^ n)).toNat ∣ 2 ^ 64 := by
  rw [toNat_ofNat_two_pow (by omega)]
  exact Nat.pow_dvd_pow 2 (by omega)

/-- The offset of an intra patch gives its distance back, which fits in `int`. -/
theorem ofInt_toInt32_div_mul {n : ℕ} {offset : UInt64} (hn : n < 63)
    (hdvd : 2 ^ n ∣ offset.toNat) (hlt : offset.toNat / 2 ^ n < 2 ^ 31) :
    UInt64.ofInt (toInt32 (offset / .ofNat (2 ^ n)).toNat) * .ofNat (2 ^ n) = offset := by
  have hpow := toNat_ofNat_two_pow (n := n) (by omega)
  have hquot : (offset / .ofNat (2 ^ n)).toNat < 2 ^ 31 := by
    rw [UInt64.toNat_div, hpow]
    exact hlt
  rw [toInt32_of_lt hquot, ofInt_natCast, UInt64.ofNat_toNat]
  apply div_mul_of_dvd
  rwa [hpow]

/-- The two sides measure the difference of an inter patch from different ends, at the same
distance modulo `minLevel`. -/
theorem interOffset_eq {n : ℕ} {d r far near : UInt64} (hn : n < 63)
    (hd : 2 ^ n ∣ (far - d).toNat) (hr : 2 ^ n ∣ (far - r).toNat) :
    far - ((near - d) / .ofNat (2 ^ n) - (near - r) / .ofNat (2 ^ n) +
      (far - r) / .ofNat (2 ^ n)) * .ofNat (2 ^ n) = d := by
  have hpow := toNat_ofNat_two_pow (n := n) (by omega)
  have hsize := minLevel_dvd_size hn
  generalize UInt64.ofNat (2 ^ n) = m at *
  rw [← hpow] at hd hr
  have hmod := sub_mod_eq_of_dvd near hsize hd hr
  have hfar := div_mul_of_dvd hr
  have hnear := div_mul_eq_sub_mod (near - d) m
  have hnear' := div_mul_eq_sub_mod (near - r) m
  rw [hmod] at hnear
  grind

/-! The difference of depths. -/

/-- Division towards zero leaves no more than the dividend. -/
theorem tdiv_mul_bounds (a : ℤ) {m : ℤ} (hm : 0 < m) :
    (a ≤ 0 → a ≤ a.tdiv m * m ∧ a.tdiv m * m ≤ 0) ∧
      (0 ≤ a → 0 ≤ a.tdiv m * m ∧ a.tdiv m * m ≤ a) := by
  have hsum := Int.tdiv_mul_add_tmod a m
  constructor
  · intro ha
    have hmod := Int.tmod_nonneg m (a := -a) (by omega)
    have hquot := Int.tdiv_nonneg (a := -a) (by omega) hm.le
    rw [Int.neg_tmod] at hmod
    rw [Int.neg_tdiv] at hquot
    have := mul_nonneg hquot hm.le
    constructor <;> linarith
  · intro ha
    have hmod := Int.tmod_nonneg m ha
    have := mul_nonneg (Int.tdiv_nonneg ha hm.le) hm.le
    constructor <;> linarith

theorem rangeSteps_mul_bounds (diff : ℤ) {m : ℤ} (hm : 0 < m) :
    (diff ≤ 0 → diff ≤ rangeSteps m diff * m) ∧ (0 ≤ diff → 0 ≤ rangeSteps m diff * m) ∧
      |rangeSteps m diff * m| ≤ |diff + 1| := by
  have hbounds := tdiv_mul_bounds (diff + 1) hm
  unfold rangeSteps
  split_ifs with h
  · simp [h]
  · refine ⟨?_, ?_, ?_⟩
    · intro hdiff
      have := (hbounds.1 (by omega)).1
      omega
    · intro hdiff
      exact (hbounds.2 (by omega)).1
    · rcases le_or_gt (diff + 1) 0 with hneg | hpos
      · rw [abs_of_nonpos hneg, abs_of_nonpos (hbounds.1 hneg).2]
        linarith [(hbounds.1 hneg).1]
      · rw [abs_of_pos hpos, abs_of_nonneg (hbounds.2 hpos.le).1]
        exact (hbounds.2 hpos.le).2

/-- A depth stays non-negative, so that the encoder's clamp at zero has no effect. -/
theorem rangeDelta_nonneg {m r diff : ℤ} (hm : 0 < m) (hr : 0 ≤ r) (hdiff : -r ≤ diff) :
    0 ≤ r + rangeDelta m diff := by
  have hbounds := tdiv_mul_bounds (diff + 1) hm
  unfold rangeDelta
  split_ifs with h
  · omega
  · have hzero : diff ≠ 0 := fun hzero => h (if_pos hzero)
    rw [rangeSteps, if_neg hzero] at h ⊢
    rcases le_or_gt (diff + 1) 0 with hneg | hpos
    · have := (hbounds.1 hneg).1
      linarith
    · have hmul : (diff + 1).tdiv m * m ≠ 0 := mul_ne_zero h hm.ne'
      have := (hbounds.2 hpos.le).1
      omega

theorem interQuantDD_eq {m : UInt64} {sizeDPixel refSizeD : UInt64}
    (hpixel : sizeDPixel.toNat < 2 ^ 62) (href : refSizeD.toNat < 2 ^ 62) :
    interQuantDD m sizeDPixel refSizeD =
      some (rangeSteps (toInt64 m) (sizeDPixel.toNat - refSizeD.toNat)) := by
  unfold interQuantDD rangeSteps
  rw [toInt64_of_lt (by omega), toInt64_of_lt (by omega),
    checkInt64_eq_some (by omega) (by omega), Option.bind_eq_bind, Option.bind_some]
  split_ifs with h
  · rfl
  · rw [checkInt64_eq_some (by omega) (by omega)]
    rfl

theorem toInt64_two_pow {n : ℕ} (h : n < 63) : toInt64 (.ofNat (2 ^ n)) = 2 ^ n := by
  have hpow := toNat_ofNat_two_pow (n := n) (by omega)
  have hlt : 2 ^ n < 2 ^ 63 := Nat.pow_lt_pow_right (by decide) h
  rw [toInt64_of_lt (by omega), hpow]
  push_cast
  rfl

theorem ofNat_two_pow (n : ℕ) : UInt64.ofNat (2 ^ n) = .ofInt (2 ^ n) := by
  rw [← ofInt_natCast]
  push_cast
  rfl

/-- The encoder's clamp has no effect on a depth that fits. -/
theorem interSizeD_eq {asps : AtlasSequenceParameterSetRbsp} {n : ℕ} {refSizeD : UInt64}
    {diff : ℤ} (hn : n < 63) (hdepth : asps.geometry2dBitdepthMinus1 + 1 < 31)
    (habs : |diff + 1| ≤ 2 ^ 62)
    (hnonneg : 0 ≤ (refSizeD.toNat : ℤ) + rangeDelta (2 ^ n) diff)
    (hno : (refSizeD.toNat : ℤ) + rangeDelta (2 ^ n) diff <
      2 ^ (asps.geometry2dBitdepthMinus1 + 1)) :
    interSizeD asps (.ofNat (2 ^ n)) refSizeD (rangeSteps (2 ^ n) diff) =
      some (refSizeD + .ofInt (rangeDelta (2 ^ n) diff)) := by
  have hdelta : interDeltaDD (.ofNat (2 ^ n)) (rangeSteps (2 ^ n) diff) =
      some (rangeDelta (2 ^ n) diff) := by
    have hbounds := abs_le.mp ((rangeSteps_mul_bounds diff (m := 2 ^ n)
      (by positivity)).2.2.trans habs)
    unfold interDeltaDD rangeDelta
    split_ifs with h
    · rfl
    · rw [toInt64_two_pow hn, checkInt64_eq_some (by linarith) (by linarith),
        Option.bind_some, checkInt64_eq_some (by linarith) (by linarith)]
  have hpow : (2 : ℤ) ^ (asps.geometry2dBitdepthMinus1 + 1) ≤ 2 ^ 30 := by gcongr <;> omega
  have hsum : refSizeD + .ofInt (rangeDelta (2 ^ n) diff) =
      .ofInt (refSizeD.toNat + rangeDelta (2 ^ n) diff) := by
    rw [UInt64.ofInt_add, ofInt_natCast, UInt64.ofNat_toNat]
  have hvalue : toInt64 (refSizeD + .ofInt (rangeDelta (2 ^ n) diff)) =
      refSizeD.toNat + rangeDelta (2 ^ n) diff := by
    have hnat : (refSizeD + .ofInt (rangeDelta (2 ^ n) diff)).toNat =
        ((refSizeD.toNat : ℤ) + rangeDelta (2 ^ n) diff).toNat := by
      rw [hsum, toNat_ofInt, Int.emod_eq_of_lt hnonneg (by linarith)]
    rw [toInt64_of_lt (by omega), hnat, Int.toNat_of_nonneg hnonneg]
  unfold interSizeD
  rw [hdelta, Option.bind_eq_bind, Option.bind_some, shiftInt_eq_some hdepth,
    Option.bind_some, hvalue, max_eq_left hnonneg,
    min_eq_left (by omega), hsum]
  rfl

/-- What the decoder adds is the same. -/
theorem decodedDelta_eq {n : ℕ} (diff : ℤ) :
    UInt64.ofInt (if rangeSteps (2 ^ n) diff = 0 then 0
      else toInt64 (.ofInt (rangeSteps (2 ^ n) diff) * .ofNat (2 ^ n) - 1)) =
        .ofInt (rangeDelta (2 ^ n) diff) := by
  unfold rangeDelta
  split_ifs with h
  · rfl
  · rw [ofInt_toInt64, ofNat_two_pow, Int.sub_eq_add_neg, UInt64.ofInt_add, UInt64.ofInt_mul,
      UInt64.ofInt_neg_one, UInt64.sub_eq_add_neg]

/-! One patch. -/

/-- What both sides compute from parameters that fit. -/
def PCCEncoder.PatchParameters.locals (params : PatchParameters) : PatchLocals :=
  ⟨.ofNat (2 ^ params.log2MinLevel), 2 ^ params.log2QuantizerSizeX,
    2 ^ params.log2QuantizerSizeY⟩

theorem encoderLocals_eq {params : PatchParameters} {asps : AtlasSequenceParameterSetRbsp}
    (h : ParametersFit params asps) (type : PCCTileType) :
    patchLocals params { createTileHeader params with type := type } = some params.locals := by
  have hlevel : params.log2MinLevel % 256 = params.log2MinLevel :=
    Nat.mod_eq_of_lt (by have := h.minLevel; omega)
  simp only [patchLocals, createTileHeader, hlevel, powInt64, h.minLevel, if_true,
    shiftInt_eq_some h.quantizerSizeX, shiftInt_eq_some h.quantizerSizeY, Option.bind_eq_bind,
    Option.bind_some]
  rfl

theorem decoderLocals_eq {params : PatchParameters} {asps : AtlasSequenceParameterSetRbsp}
    (h : ParametersFit params asps) {ath : AtlasTileHeader}
    (hlevel : ath.posMinDQuantizer = params.log2MinLevel % 256)
    (hx : ath.patchSizeXinfoQuantizer = params.log2QuantizerSizeX % 256)
    (hy : ath.patchSizeYinfoQuantizer = params.log2QuantizerSizeY % 256) :
    PCCDecoder.patchLocals asps ath = some params.locals := by
  have hlevel' := h.minLevel
  have hx' := h.quantizerSizeX
  have hy' := h.quantizerSizeY
  rw [Nat.mod_eq_of_lt (by omega)] at hlevel hx hy
  simp only [PCCDecoder.patchLocals, hlevel, hx, hy, shiftInt_eq_some h.packingBlockSize,
    shiftInt_eq_some hx', shiftInt_eq_some hy', Option.bind_eq_bind, Option.bind_some]
  rw [shiftSizeT_eq_some (by omega), Option.bind_some]
  rfl

/-- A difference of at most eight bits gives its minuend back. -/
theorem ofNat_sub_mod_add {x d : UInt64} (hle : d.toNat ≤ x.toNat)
    (hlt : x.toNat - d.toNat < 256) :
    UInt64.ofNat ((x - d).toNat % 256 + d.toNat) = x := by
  have hsub : (x - d).toNat = x.toNat - d.toNat :=
    UInt64.toNat_sub_of_le _ _ (UInt64.le_iff_toNat_le.mpr hle)
  rw [hsub, Nat.mod_eq_of_lt hlt, Nat.sub_add_cancel hle, UInt64.ofNat_toNat]

theorem lodScales_lodSyntax {afps : AtlasFrameParameterSetRbsp} {lodX lodY : UInt64}
    (h : LodFits afps lodX lodY) {pdu : PatchDataUnit}
    (hpdu : lodSyntax afps lodX lodY =
      (pdu.lodEnableFlag, pdu.lodScaleXMinus1, pdu.lodScaleYIdc)) :
    PCCDecoder.lodScales pdu = (lodX, lodY) := by
  have hone : (1 : UInt64).toNat = 1 := rfl
  have htwo : (2 : UInt64).toNat = 2 := rfl
  unfold LodFits at h
  unfold lodSyntax at hpdu
  unfold PCCDecoder.lodScales
  by_cases hmode : afps.lodModeEnableFlag = true
  · rw [if_pos hmode] at h hpdu
    by_cases henable : 1 < lodX ∨ 1 < lodY
    · rw [if_pos henable] at hpdu
      simp only [Prod.mk.injEq] at hpdu
      have hx : UInt64.ofNat (pdu.lodScaleXMinus1 + 1) = lodX := by
        rw [← hpdu.2.1]
        exact ofNat_sub_mod_add (d := 1) (by omega) (by omega)
      simp only [← hpdu.1, if_true, hx, Prod.mk.injEq, true_and]
      rw [← hpdu.2.2]
      by_cases hx1 : 1 < lodX
      · have hbound := h.2.2.2
        have hx1' : 1 < lodX.toNat := UInt64.lt_iff_toNat_lt.mp hx1
        rw [if_pos hx1'] at hbound
        rw [if_pos hx1, if_pos hx1]
        exact ofNat_sub_mod_add (d := 1) (by omega) (by omega)
      · have hbound := h.2.2.2
        have hy1 := UInt64.lt_iff_toNat_lt.mp (henable.resolve_left hx1)
        have hx1' : ¬1 < lodX.toNat := fun hlt => hx1 (UInt64.lt_iff_toNat_lt.mpr hlt)
        rw [if_neg hx1'] at hbound
        rw [if_neg hx1, if_neg hx1]
        exact ofNat_sub_mod_add (d := 2) (by omega) (by omega)
    · rw [if_neg henable] at hpdu
      have hx : ¬1 < lodX.toNat := fun hlt => henable (.inl (UInt64.lt_iff_toNat_lt.mpr hlt))
      have hy : ¬1 < lodY.toNat := fun hlt => henable (.inr (UInt64.lt_iff_toNat_lt.mpr hlt))
      have hx1 : lodX = 1 := UInt64.toNat_inj.mp (by omega)
      have hy1 : lodY = 1 := UInt64.toNat_inj.mp (by omega)
      simp only [Prod.mk.injEq] at hpdu
      rw [← hpdu.1, hx1, hy1]
      rfl
  · rw [if_neg hmode] at h hpdu
    simp only [Prod.mk.injEq] at hpdu
    rw [← hpdu.1, h.1, h.2]
    rfl

theorem intraRangeD_eq {n : ℕ} {sizeD : UInt64} (hn : n < 63)
    (haligned : sizeD = 0 ∨ 2 ^ n ∣ sizeD.toNat + 1) (hlt : sizeD.toNat + 1 < 2 ^ 64)
    {quantDD : UInt64}
    (hquant : quantDD = if sizeD = 0 then 0 else (sizeD + 1) / .ofNat (2 ^ n)) :
    (if quantDD.toNat = 0 then 0 else quantDD * .ofNat (2 ^ n) - 1) = sizeD := by
  by_cases hzero : sizeD = 0
  · rw [if_pos hzero] at hquant
    rw [hquant, hzero]
    rfl
  · rw [if_neg hzero] at hquant
    have hpow := toNat_ofNat_two_pow (n := n) (by omega)
    have hdvd := haligned.resolve_left hzero
    have hsum : (sizeD + 1).toNat = sizeD.toNat + 1 := by
      rw [UInt64.toNat_add]
      exact Nat.mod_eq_of_lt hlt
    have hne : quantDD.toNat ≠ 0 := by
      rw [hquant, UInt64.toNat_div, hsum, hpow]
      have := Nat.div_pos (Nat.le_of_dvd (by omega) hdvd) (Nat.two_pow_pos n)
      omega
    have hmul : quantDD * .ofNat (2 ^ n) = sizeD + 1 := by
      rw [hquant]
      apply div_mul_of_dvd
      rwa [hpow, hsum]
    rw [if_neg hne, hmul, UInt64.add_sub_cancel]

/-- The offset of an intra patch is a quotient of `depthOffset`. -/
theorem intraOffset_eq {params : PatchParameters} {asps : AtlasSequenceParameterSetRbsp}
    {patch : PCCPatch} (hn : params.log2MinLevel < 63)
    (hdvd : 2 ^ params.log2MinLevel ∣ (depthOffset asps patch).toNat)
    (hlt : (depthOffset asps patch).toNat / 2 ^ params.log2MinLevel < 2 ^ 31)
    {offsetD max3DCoordinate : UInt64}
    (hmax : max3DCoordinate = .ofNat (2 ^ (asps.geometry3dBitdepthMinus1 + 1)))
    (hoffset : offsetD = if patch.projectionMode = 0 then
      patch.d1 / .ofNat (2 ^ params.log2MinLevel)
      else (max3DCoordinate - patch.d1) / .ofNat (2 ^ params.log2MinLevel)) :
    (if patch.projectionMode = 0 then
      .ofInt (toInt32 offsetD.toNat) * .ofNat (2 ^ params.log2MinLevel)
      else max3DCoordinate -
        .ofInt (toInt32 offsetD.toNat) * .ofNat (2 ^ params.log2MinLevel)) = patch.d1 := by
  have hback := ofInt_toInt32_div_mul hn hdvd hlt
  unfold depthOffset at hback
  rw [← hmax] at hback
  by_cases hmode : patch.projectionMode = 0
  · rw [if_pos hmode] at hback hoffset ⊢
    rw [hoffset, hback]
  · rw [if_neg hmode] at hback hoffset ⊢
    rw [hoffset, hback]
    grind

theorem intraPatch_matched {params : PatchParameters} {asps : AtlasSequenceParameterSetRbsp}
    {afps : AtlasFrameParameterSetRbsp} {patch : PCCPatch} (hparams : ParametersFit params asps)
    (haligned : AlignedPatch params asps patch)
    (hintra : patch.bestMatchIdx = g_invalidPatchIndex)
    (hfits : IntraFits params asps afps patch) :
    ∃ pdu, intraPatchDataUnit asps afps params.locals patch = some pdu ∧
      ∃ decoded, PCCDecoder.intraPatch asps params.locals pdu = some decoded ∧
        Matched params asps patch decoded := by
  obtain ⟨pixelsX, hsizeX, hpixelsX⟩ :=
    intraSize_intraSizeMinus1 hparams.quantizerSizeX hfits.sizeX
  obtain ⟨pixelsY, hsizeY, hpixelsY⟩ :=
    intraSize_intraSizeMinus1 hparams.quantizerSizeY hfits.sizeY
  have hmax := shiftSizeT_eq_some hparams.geometryBitDepth3D
  have hoffset := intraOffset_eq hparams.minLevel haligned.d1 hfits.offset_lt rfl rfl
  have hrange := intraRangeD_eq hparams.minLevel (haligned.sizeD hintra) hfits.sizeD_lt rfl
  unfold intraPatchDataUnit
  rw [hmax]
  refine ⟨_, rfl, ?_⟩
  unfold PCCDecoder.intraPatch
  simp only [PatchParameters.locals, hsizeX, hsizeY, hmax, UInt64.ofNat_toNat,
    PCCPatch.setViewId_of_hasView haligned.hasView, Option.bind_eq_bind, Option.bind_some]
  refine ⟨_, rfl, ?_, haligned.hasView, haligned.d1⟩
  exact {
    u0 := rfl
    v0 := rfl
    sizeU0 := rfl
    sizeV0 := rfl
    size2DXInPixel := hpixelsX
    size2DYInPixel := hpixelsY
    u1 := rfl
    v1 := rfl
    d1 := hoffset
    sizeD := hrange
    patchOrientation := rfl
    viewId := rfl
    levelOfDetailX := congrArg Prod.fst (lodScales_lodSyntax hfits.lod rfl)
    levelOfDetailY := congrArg Prod.snd (lodScales_lodSyntax hfits.lod rfl) }

theorem projectionMode_eq {patch other : PCCPatch} (h : patch.HasView) (hother : other.HasView)
    (hview : patch.viewId = other.viewId) : patch.projectionMode = other.projectionMode := by
  have hset := PCCPatch.setViewId_of_hasView h other
  rw [hview] at hset
  have hsome := hother.symm.trans hset
  exact (congrArg PCCPatch.projectionMode (Option.some.inj hsome)).symm

theorem interOffset_matched {params : PatchParameters} {asps : AtlasSequenceParameterSetRbsp}
    {patch refPatch : PCCPatch} (hn : params.log2MinLevel < 63)
    (hmode : patch.projectionMode = refPatch.projectionMode)
    (hpatch : 2 ^ params.log2MinLevel ∣ (depthOffset asps patch).toNat)
    (href : 2 ^ params.log2MinLevel ∣ (depthOffset asps refPatch).toNat)
    {m offsetD far : UInt64} (near : UInt64) (hm : m = .ofNat (2 ^ params.log2MinLevel))
    (hfar : far = .ofNat (2 ^ (asps.geometry3dBitdepthMinus1 + 1)))
    (hoffset : offsetD = if patch.projectionMode = 0 then patch.d1 / m - refPatch.d1 / m
      else (near - patch.d1) / m - (near - refPatch.d1) / m) :
    (if patch.projectionMode = 0 then (offsetD + refPatch.d1 / m) * m
      else far - (offsetD + (far - refPatch.d1) / m) * m) = patch.d1 := by
  unfold depthOffset at hpatch href
  rw [← hmode] at href
  by_cases hzero : patch.projectionMode = 0
  · rw [if_pos hzero] at hpatch hoffset ⊢
    rw [hoffset, UInt64.sub_add_cancel]
    apply div_mul_of_dvd
    rw [hm, toNat_ofNat_two_pow (by omega)]
    exact hpatch
  · rw [if_neg hzero] at hpatch href hoffset ⊢
    rw [← hfar] at hpatch href
    rw [hoffset, hm]
    exact interOffset_eq hn hpatch href

theorem interPatch_matched {params : PatchParameters} {asps : AtlasSequenceParameterSetRbsp}
    {patch refPatch decodedRef : PCCPatch} (hparams : ParametersFit params asps)
    (haligned : AlignedPatch params asps patch) (href : Matched params asps refPatch decodedRef)
    (hfits : InterFits params asps patch refPatch) (predIndex : ℤ) :
    ∃ ipdu, interPatchDataUnit asps params.locals patch refPatch predIndex = some ipdu ∧
      ipdu.refIndex = toInt64 patch.refAtlasFrameIdx ∧
      ipdu.refPatchIndex = patch.bestMatchIdx.toInt - predIndex ∧
      ∃ sizeD, interSizeD asps params.locals.minLevel refPatch.sizeD ipdu.pos3dRangeD =
          some sizeD ∧
        ∃ decoded, PCCDecoder.interPatch asps params.locals ipdu decodedRef patch.bestMatchIdx =
            some decoded ∧
          Matched params asps { patch with sizeD := sizeD } decoded := by
  have hrefs := href.reproduces
  have hdepth := hfits.depth
  have hmode := projectionMode_eq haligned.hasView href.hasView hfits.viewId
  have hview := PCCPatch.setViewId_of_hasView haligned.hasView
  have hmax := shiftSizeT_eq_some hparams.geometryBitDepth3D
  have hquant := interQuantDD_eq (m := params.locals.minLevel) hdepth.sizeDPixel_lt
    hdepth.refSizeD_lt
  change _ = some (rangeSteps (toInt64 (.ofNat (2 ^ params.log2MinLevel))) _) at hquant
  rw [toInt64_two_pow hparams.minLevel] at hquant
  have hpos : (0 : ℤ) < 2 ^ params.log2MinLevel := by positivity
  have hpixel := hdepth.sizeDPixel_lt
  have hrefSize := hdepth.refSizeD_lt
  have hsizeD := interSizeD_eq hparams.minLevel hdepth.geometryBitDepth2D
    (abs_le.mpr ⟨by omega, by omega⟩)
    (rangeDelta_nonneg hpos (by omega) (by omega)) hdepth.no_clamp
  obtain ⟨pixelsX, hsizeX, hpixelsX⟩ := interSize_interDeltaSize refPatch.sizeU0
    hparams.quantizerSizeX hrefs.size2DXInPixel hfits.sizeX
  obtain ⟨pixelsY, hsizeY, hpixelsY⟩ := interSize_interDeltaSize refPatch.sizeV0
    hparams.quantizerSizeY hrefs.size2DYInPixel hfits.sizeY
  have hoffset := interOffset_matched hparams.minLevel hmode haligned.d1 href.d1
    (.ofNat (asps.geometry3dBitdepthMinus1 + 1)) rfl rfl rfl
  unfold interPatchDataUnit
  rw [hquant]
  refine ⟨_, rfl, rfl, rfl, _, hsizeD, ?_⟩
  unfold PCCDecoder.interPatch
  simp only [PatchParameters.locals, hrefs.sizeU0, hrefs.sizeV0, hsizeX, hsizeY, hmax,
    hrefs.viewId, ← hfits.viewId, hview, Option.bind_eq_bind, Option.bind_some, ofInt_toInt64,
    hrefs.u0, hrefs.v0, hrefs.u1, hrefs.v1, hrefs.d1, UInt64.sub_add_cancel]
  refine ⟨_, rfl, ?_, haligned.hasView.setSizeD _, haligned.d1⟩
  exact {
    u0 := rfl
    v0 := rfl
    sizeU0 := rfl
    sizeV0 := rfl
    size2DXInPixel := hpixelsX
    size2DYInPixel := hpixelsY
    u1 := rfl
    v1 := rfl
    d1 := hoffset
    sizeD := congrArg₂ (· + ·) hrefs.sizeD (decodedDelta_eq _)
    patchOrientation := hrefs.patchOrientation.trans hfits.patchOrientation.symm
    viewId := rfl
    levelOfDetailX := hrefs.levelOfDetailX.trans hfits.levelOfDetailX.symm
    levelOfDetailY := hrefs.levelOfDetailY.trans hfits.levelOfDetailY.symm }

/-! One frame. -/

theorem getElem?_of_forall₂ {α β : Type} {R : α → β → Prop} {as : List α} {bs : List β}
    (h : List.Forall₂ R as bs) {i : ℕ} {a : α} (ha : as[i]? = some a) :
    ∃ b, bs[i]? = some b ∧ R a b := by
  induction h generalizing i with
  | nil => cases ha
  | cons hab _ ih =>
    cases i with
    | zero =>
      cases ha
      exact ⟨_, rfl, hab⟩
    | succ i => exact ih ha

/-- A reference that the encoder finds is matched by the one the decoder finds. -/
theorem referencePatch_matched {R : PCCPatch → PCCPatch → Prop}
    {earlier decoded : List (List PCCPatch)}
    (hframes : List.Forall₂ (List.Forall₂ R) earlier decoded) (later : List (List PCCPatch))
    {refAFOCList : List ℤ} {refAtlasFrameIdx : UInt64} {bestMatchIdx : Int32}
    {refPatch : PCCPatch}
    (href : referencePatch earlier refAFOCList refAtlasFrameIdx bestMatchIdx = some refPatch) :
    ∃ decodedRef, referencePatch (decoded ++ later) refAFOCList refAtlasFrameIdx bestMatchIdx =
      some decodedRef ∧ R refPatch decodedRef := by
  unfold referencePatch at href ⊢
  simp only [Option.bind_eq_bind, Option.bind_eq_some_iff] at href
  obtain ⟨refPOC, hPOC, patches, hpatches, hpatch⟩ := href
  obtain ⟨patches', hpatches', hmatch⟩ := getElem?_of_forall₂ hframes hpatches
  split_ifs at hpatch with hindex
  obtain ⟨decodedRef, hdecodedRef, hR⟩ := getElem?_of_forall₂ hmatch hpatch
  refine ⟨decodedRef, ?_, hR⟩
  have happend : (decoded ++ later)[toSizeT refPOC]? = some patches' := by
    rw [List.getElem?_append_left (List.getElem?_eq_some_iff.mp hpatches').1, hpatches']
  simp only [hPOC, happend, Option.bind_eq_bind, Option.bind_some, if_pos hindex, hdecodedRef]

/-- The two loops go through a tile together, with one `predIndex`. -/
theorem patches_matched {params : PatchParameters} {asps : AtlasSequenceParameterSetRbsp}
    {afps : AtlasFrameParameterSetRbsp} (hparams : ParametersFit params asps)
    {earlier decoded : List (List PCCPatch)}
    (hframes : List.Forall₂ (List.Forall₂ (Matched params asps)) earlier decoded)
    (later : List (List PCCPatch)) (refAFOCList : List ℤ) {type : PCCTileType}
    (patches : List PCCPatch)
    (htype : type = .pTile ∨ type = .iTile ∧
      ∀ patch ∈ patches, patch.bestMatchIdx = g_invalidPatchIndex)
    (haligned : ∀ patch ∈ patches, AlignedPatch params asps patch)
    (hfits : ∀ patch ∈ patches, PatchFits params asps afps earlier refAFOCList patch)
    (predIndex : ℤ) :
    ∃ coded, encodePatches asps afps params.locals type earlier refAFOCList predIndex patches =
        some coded ∧
      ∃ decodedPatches, PCCDecoder.decodePatches asps params.locals type (decoded ++ later)
          refAFOCList predIndex (coded.map Prod.snd ++ [{ patchMode := 14 }]) =
            some decodedPatches ∧
        List.Forall₂ (Matched params asps) (coded.map Prod.fst) decodedPatches := by
  induction patches generalizing predIndex with
  | nil =>
    refine ⟨[], rfl, [], ?_, .nil⟩
    rcases htype with rfl | ⟨rfl, -⟩ <;> rfl
  | cons patch patches ih =>
    have htype' : type = .pTile ∨ type = .iTile ∧
        ∀ patch ∈ patches, patch.bestMatchIdx = g_invalidPatchIndex :=
      htype.imp_right fun h => ⟨h.1, fun p hp => h.2 p (List.mem_cons_of_mem _ hp)⟩
    have hih := ih htype' (fun p hp => haligned p (List.mem_cons_of_mem _ hp))
      fun p hp => hfits p (List.mem_cons_of_mem _ hp)
    have hpatch := haligned patch List.mem_cons_self
    have hfit := hfits patch List.mem_cons_self
    unfold PatchFits at hfit
    by_cases hbest : patch.bestMatchIdx = g_invalidPatchIndex
    · rw [if_pos hbest] at hfit
      obtain ⟨pdu, hpdu, first, hfirst, hmatched⟩ :=
        intraPatch_matched hparams hpatch hbest hfit
      obtain ⟨coded, hcoded, rest, hrest, hall⟩ := hih predIndex
      have hmode : getPatchType type (if type = .iTile then I_INTRA else P_INTRA) =
          .intraPatch := by
        rcases htype with rfl | ⟨rfl, -⟩ <;> rfl
      rw [encodePatches, if_neg (not_not.mpr hbest), hpdu, hcoded]
      refine ⟨_, rfl, first :: rest, ?_, .cons hmatched hall⟩
      simp only [List.map_cons, List.cons_append, PCCDecoder.decodePatches, hmode, hfirst, hrest]
      rfl
    · rw [if_neg hbest] at hfit
      obtain ⟨refPatch, href, hinter⟩ := hfit
      obtain ⟨decodedRef, hdecodedRef, hmatchedRef⟩ :=
        referencePatch_matched hframes later href
      obtain ⟨ipdu, hipdu, hrefIndex, hrefPatchIndex, sizeD, hsizeD, first, hfirst, hmatched⟩ :=
        interPatch_matched hparams hpatch hmatchedRef hinter predIndex
      obtain ⟨coded, hcoded, rest, hrest, hall⟩ := hih (predIndex + (ipdu.refPatchIndex + 1))
      have hp : type = .pTile := htype.resolve_right fun h => hbest (h.2 patch List.mem_cons_self)
      subst hp
      have hback : Int32.ofInt (ipdu.refPatchIndex + predIndex) = patch.bestMatchIdx := by
        rw [hrefPatchIndex, sub_add_cancel, Int32.ofInt_toInt]
      have hmode : getPatchType .pTile P_INTER = .interPatch := rfl
      rw [encodePatches, if_pos hbest, href]
      simp only [Option.bind_eq_bind, Option.bind_some, hipdu, hsizeD, hcoded]
      refine ⟨_, rfl, first :: rest, ?_, .cons hmatched hall⟩
      simp only [List.map_cons, List.cons_append, PCCDecoder.decodePatches, hmode, hrefIndex,
        ofInt_toInt64, hback, hdecodedRef, hfirst, hrest, Option.bind_eq_bind, Option.bind_some]
      rfl

theorem tileType_cases (frameIndex : ℕ) (patches : List PCCPatch) :
    tileType frameIndex patches = .pTile ∨ tileType frameIndex patches = .iTile ∧
      ∀ patch ∈ codedPatches frameIndex patches, patch.bestMatchIdx = g_invalidPatchIndex := by
  by_cases htype : tileType frameIndex patches = .iTile
  · right
    refine ⟨htype, fun patch hpatch => ?_⟩
    rw [codedPatches, if_pos htype, List.mem_map] at hpatch
    obtain ⟨_, _, rfl⟩ := hpatch
    rfl
  · left
    unfold tileType at htype ⊢
    split_ifs at htype ⊢ with h
    · rfl
    · exact absurd rfl htype

theorem frame_matched {params : PatchParameters} {asps : AtlasSequenceParameterSetRbsp}
    {afps : AtlasFrameParameterSetRbsp} (hparams : ParametersFit params asps)
    {earlier decoded : List (List PCCPatch)}
    (hframes : List.Forall₂ (List.Forall₂ (Matched params asps)) earlier decoded)
    (later : List (List PCCPatch)) {tile : PCCEncoder.TileInput} (hlt : earlier.length < 256)
    (haligned : ∀ patch ∈ codedPatches earlier.length tile.patches,
      AlignedPatch params asps patch)
    (hfits : ∀ patch ∈ codedPatches earlier.length tile.patches,
      PatchFits params asps afps earlier tile.refAFOCList patch) :
    ∃ patches layer,
      createPatchFrameDataStructure params asps afps earlier tile = some (patches, layer) ∧
      ∃ decodedPatches,
        PCCDecoder.createPatchFrameDataStructure asps (decoded ++ [] :: later) tile.refAFOCList
          { layer with header := { layer.header with frameIndex := earlier.length % 256 } } =
            some (decoded ++ decodedPatches :: later) ∧
        List.Forall₂ (Matched params asps) patches decodedPatches := by
  have hlength := hframes.length_eq
  obtain ⟨coded, hcoded, decodedPatches, hdecoded, hall⟩ := patches_matched hparams hframes
    ([] :: later) tile.refAFOCList _ (tileType_cases earlier.length tile.patches) haligned hfits 0
  have hlocals := encoderLocals_eq hparams (tileType earlier.length tile.patches)
  have hend : (if tileType earlier.length tile.patches = .iTile then I_END else P_END) = 14 := by
    split_ifs <;> rfl
  unfold createPatchFrameDataStructure
  simp only [hlocals, hcoded, hend, Option.bind_eq_bind, Option.bind_some]
  refine ⟨_, _, rfl, decodedPatches, ?_, hall⟩
  have hdlocals : PCCDecoder.patchLocals asps { createTileHeader params with
      type := tileType earlier.length tile.patches
      frameIndex := earlier.length } = some params.locals :=
    decoderLocals_eq hparams rfl rfl rfl
  have hframe : (decoded ++ [] :: later)[earlier.length]? = some [] := by
    rw [hlength, List.getElem?_append_right le_rfl, Nat.sub_self]
    rfl
  have hset : (decoded ++ [] :: later).set earlier.length decodedPatches =
      decoded ++ decodedPatches :: later := by
    rw [hlength, List.set_append_right _ _ le_rfl, Nat.sub_self]
    rfl
  unfold PCCDecoder.createPatchFrameDataStructure
  simp only [Nat.mod_eq_of_lt hlt, hdlocals, hdecoded, hframe, Option.bind_eq_bind,
    Option.bind_some, List.nil_append, hset]
  rfl

/-! The frames of a tile. -/

/-- The encoder's patches are aligned in every frame, as they are coded there. -/
def FramesAligned (params : PatchParameters) (asps : AtlasSequenceParameterSetRbsp) :
    ℕ → List PCCEncoder.TileInput → Prop
  | _, [] => True
  | frameIndex, tile :: tiles =>
    (∀ patch ∈ codedPatches frameIndex tile.patches, AlignedPatch params asps patch) ∧
      FramesAligned params asps (frameIndex + 1) tiles

theorem frames_matched {params : PatchParameters} {asps : AtlasSequenceParameterSetRbsp}
    {afps : AtlasFrameParameterSetRbsp} (hparams : ParametersFit params asps)
    (tiles : List PCCEncoder.TileInput) {earlier decoded : List (List PCCPatch)}
    (hframes : List.Forall₂ (List.Forall₂ (Matched params asps)) earlier decoded)
    (hle : earlier.length + tiles.length ≤ 256)
    (haligned : FramesAligned params asps earlier.length tiles)
    (hfits : FramesFit params asps afps earlier tiles) :
    ∃ stored layers, encodeFrames params asps afps earlier tiles = some (stored, layers) ∧
      ∃ context, PCCDecoder.decodeFrames asps earlier.length
          (decoded ++ List.replicate tiles.length [])
          (layers.zip (tiles.map (·.refAFOCList))) = some context ∧
        List.Forall₂ (List.Forall₂ (Matched params asps)) stored context := by
  induction tiles generalizing earlier decoded with
  | nil =>
    refine ⟨earlier, [], rfl, decoded, ?_, hframes⟩
    rw [List.length_nil, List.replicate_zero, List.append_nil]
    rfl
  | cons tile tiles ih =>
    rw [List.length_cons] at hle
    obtain ⟨patches, layer, hencode, decodedPatches, hdecode, hall⟩ := frame_matched hparams
      hframes (List.replicate tiles.length []) (by omega) haligned.1 hfits.1
    have hlength : (earlier ++ [patches]).length = earlier.length + 1 := by simp
    have hnext : List.Forall₂ (List.Forall₂ (Matched params asps)) (earlier ++ [patches])
        (decoded ++ [decodedPatches]) := List.rel_append hframes (.cons hall .nil)
    have hih := ih hnext (by omega) (by rw [hlength]; exact haligned.2)
      (hfits.2 patches layer hencode)
    obtain ⟨stored, layers, hstored, context, hcontext, hmatched⟩ := hih
    rw [hlength, List.append_assoc, List.singleton_append] at hcontext
    rw [encodeFrames, hencode]
    simp only [Option.bind_eq_bind, Option.bind_some, hstored]
    refine ⟨_, _, rfl, context, ?_, hmatched⟩
    rw [List.map_cons, List.zip_cons_cons, List.length_cons, List.replicate_succ,
      PCCDecoder.decodeFrames, hdecode]
    exact hcontext

/-- The patches of a tile come back in every frame when, in addition to the alignment, the
levels of detail of an intra patch can be signalled, an inter patch has the view, the
orientation and the levels of detail of its reference and a depth that is not clamped, the
sizes agree with the pixel sizes in quantizer steps, and there are at most 256 frames. -/
theorem patchesReproduced_of_fit {params : PatchParameters}
    {asps : AtlasSequenceParameterSetRbsp} {afps : AtlasFrameParameterSetRbsp}
    {tiles : List PCCEncoder.TileInput} (haligned : FramesAligned params asps 0 tiles)
    (hparams : ParametersFit params asps) (hle : tiles.length ≤ 256)
    (hfits : FramesFit params asps afps [] tiles) :
    PatchesReproduced params asps afps tiles := by
  obtain ⟨stored, layers, hstored, context, hcontext, hmatched⟩ :=
    frames_matched hparams tiles .nil (by simpa using hle) haligned hfits
  rw [List.nil_append, List.length_nil] at hcontext
  refine ⟨stored, context, ?_, ?_⟩
  · simp only [reconstructPatches, hstored, hcontext, Option.bind_eq_bind, Option.bind_some]
    rfl
  · exact hmatched.imp fun _ _ hpatches => hpatches.imp fun _ _ hpatch => hpatch.reproduces

/-- A patch seen from the far side of an 11-bit space, and its successor in the next frame. -/
def intraExample : PCCPatch where
  u1 := 100
  v1 := 50
  d1 := 896
  sizeD := 191
  sizeDPixel := 140
  u0 := 3
  v0 := 4
  sizeU0 := 2
  sizeV0 := 3
  size2DXInPixel := 32
  size2DYInPixel := 48
  projectionMode := 1
  tangentAxis := 2
  bitangentAxis := 1
  viewId := 3

def interExample : PCCPatch :=
  { intraExample with u1 := 90, d1 := 832, sizeDPixel := 200, u0 := 1, bestMatchIdx := 0 }

def aspsExample : AtlasSequenceParameterSetRbsp where
  geometry2dBitdepthMinus1 := 7
  geometry3dBitdepthMinus1 := 9
  log2PatchPackingBlockSize := 4
  patchSizeQuantizerPresentFlag := true

theorem patchesReproduced_of_fit_two_frames :
    PatchesReproduced {} aspsExample {} [⟨[], [intraExample]⟩, ⟨[0], [interExample]⟩] := by
  have hintra : AlignedPatch {} aspsExample intraExample :=
    ⟨by decide +kernel, by decide +kernel, fun _ => .inr (by decide +kernel)⟩
  have hinter : AlignedPatch {} aspsExample interExample :=
    ⟨by decide +kernel, by decide +kernel, fun h => absurd h (by decide)⟩
  have hfirst : codedPatches 0 [intraExample] = [intraExample] := by decide +kernel
  have hsecond : codedPatches 1 [interExample] = [interExample] := by decide +kernel
  have hstored : (createPatchFrameDataStructure {} aspsExample {} []
      ⟨[], [intraExample]⟩).map Prod.fst = some [intraExample] := by decide +kernel
  apply patchesReproduced_of_fit
  · refine ⟨?_, ?_, trivial⟩
    · change ∀ patch ∈ codedPatches 0 [intraExample], _
      rw [hfirst]
      simpa using hintra
    · change ∀ patch ∈ codedPatches 1 [interExample], _
      rw [hsecond]
      simpa using hinter
  · constructor <;> decide
  · decide
  · refine ⟨?_, fun patches layer hlayer => ⟨?_, fun _ _ _ => trivial⟩⟩
    · change ∀ patch ∈ codedPatches 0 [intraExample], _
      rw [hfirst, List.forall_mem_singleton, PatchFits, if_pos (by decide)]
      exact ⟨⟨rfl, rfl⟩, by decide +kernel, by decide +kernel, ⟨by decide, by decide +kernel,
        by decide +kernel⟩, ⟨by decide, by decide +kernel, by decide +kernel⟩⟩
    · have hpatches : patches = [intraExample] := by
        rw [hlayer] at hstored
        exact Option.some.inj hstored
      subst hpatches
      change ∀ patch ∈ codedPatches 1 [interExample], _
      rw [hsecond, List.forall_mem_singleton, PatchFits, if_neg (by decide)]
      refine ⟨intraExample, by decide +kernel, rfl, rfl, rfl, rfl, ?_, ?_, ?_⟩
      · exact ⟨by decide, by decide, by decide, by decide +kernel⟩
      · exact fun _ => ⟨by decide, by decide, by decide +kernel⟩
      · exact fun _ => ⟨by decide, by decide, by decide +kernel⟩

/-- A level of detail that the encoder has no flag for comes back as 1. -/
theorem not_patchesReproduced_lod :
    FramesAligned {} aspsExample 0 [⟨[], [{ intraExample with levelOfDetailX := 2 }]⟩] ∧
      ¬PatchesReproduced {} aspsExample {}
        [⟨[], [{ intraExample with levelOfDetailX := 2 }]⟩] := by
  constructor
  · refine ⟨?_, trivial⟩
    change ∀ patch ∈ codedPatches 0 [{ intraExample with levelOfDetailX := 2 }], _
    have hcoded : codedPatches 0 [{ intraExample with levelOfDetailX := 2 }] =
        [{ intraExample with levelOfDetailX := 2 }] := by decide +kernel
    rw [hcoded, List.forall_mem_singleton]
    exact ⟨by decide +kernel, by decide +kernel, fun _ => .inr (by decide +kernel)⟩
  · rintro ⟨stored, decoded, hrun, hall⟩
    have heval : reconstructPatches {} aspsExample {}
        [⟨[], [{ intraExample with levelOfDetailX := 2 }]⟩] =
          some ([[{ intraExample with levelOfDetailX := 2 }]],
            [[{ intraExample with sizeDPixel := 0 }]]) := by decide +kernel
    rw [heval] at hrun
    cases hrun
    have hlod := (List.forall₂_cons.mp (List.forall₂_cons.mp hall).1).1.levelOfDetailX
    exact absurd hlod (by decide)

end V3C

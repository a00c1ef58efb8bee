import V3C.Bitstream.SyntaxElementRoundTrip
import V3C.Syntax.PlrRoundTrip

/-! The serialization of VUI parameters against their parsing. -/
namespace Codec

variable {α β : Type}

/-- Where `w` has an outcome, `r` reads `x` back from its bits and stops where `w` stopped. -/
def ReadsBack (w : Writer Unit) (r : Reader α) (x : α) : Prop :=
  ∀ p bs, w p = some ((), bs) → ∀ rest, r ⟨p, bs ++ rest⟩ = some (x, ⟨advance p bs.length, rest⟩)

theorem RoundTrip.readsBack {w : Writer Unit} {r : Reader α} {x : α} (h : RoundTrip w r x) :
    ReadsBack w r x :=
  fun _ _ hw => h.read_of_write hw

namespace ReadsBack

theorem bind {w w' : Writer Unit} {r : Reader α} {s : α → Reader β} {x : α} {y : β}
    (h : ReadsBack w r x) (h' : ReadsBack w' (s x) y) :
    ReadsBack (w >>= fun _ => w') (r >>= s) y := by
  intro p ds hrun rest
  obtain ⟨⟨⟩, bs, cs, hw, hw', rfl⟩ := Writer.bind_run_eq_some.mp hrun
  apply Reader.bind_run_eq_some.mpr
  refine ⟨x, ⟨advance p bs.length, cs ++ rest⟩, ?_, ?_⟩
  · rw [List.append_assoc, h p bs hw]
  · rw [h' _ cs hw', advance_advance, List.length_append]

theorem last {w : Writer Unit} {r : Reader α} {x : α} {f : α → β} {y : β} (h : ReadsBack w r x)
    (hy : f x = y) : ReadsBack w (r >>= fun a => Pure.pure (f a)) y := by
  intro p bs hw rest
  exact Reader.bind_run_eq_some.mpr ⟨x, _, h p bs hw rest, by rw [hy, Reader.pure_run]⟩

theorem when_default {c : Bool} {w : Writer Unit} {r : Reader α} {x d : α}
    (h : c = true → ReadsBack w r x) :
    ReadsBack (Writer.when c w) (Reader.whenElse c r d) (if c then x else d) := by
  cases c with
  | true => exact h rfl
  | false => exact (RoundTrip.pure d).readsBack

end ReadsBack

/-- A serializer and a parser that agree on a value at one phase. -/
def RoundTripAt (p : Phase) (w : Writer Unit) (r : Reader α) (x : α) : Prop :=
  ∃ bs, w p = some ((), bs) ∧ ∀ rest, r ⟨p, bs ++ rest⟩ = some (x, ⟨advance p bs.length, rest⟩)

namespace RoundTripAt

variable {p : Phase} {r : Reader α}

/-- Behind a part that comes back, what is left has to come back. -/
theorem tail {w w' : Writer Unit} {s : α → Reader β} {x : α} {y : β}
    (hboth : RoundTripAt p (w >>= fun _ => w') (r >>= s) y) (h : ReadsBack w r x) :
    ∃ p', RoundTripAt p' w' (s x) y := by
  obtain ⟨bs, hw, hr⟩ := hboth
  obtain ⟨⟨⟩, cs, ds, hcs, hds, rfl⟩ := Writer.bind_run_eq_some.mp hw
  refine ⟨advance p cs.length, ds, hds, fun rest => ?_⟩
  have hread := hr rest
  rw [List.append_assoc] at hread
  obtain ⟨x', c, hx', hs⟩ := Reader.bind_run_eq_some.mp hread
  rw [h p cs hcs] at hx'
  obtain ⟨rfl, rfl⟩ := Prod.mk.inj (Option.some.inj hx')
  rw [hs, advance_advance, List.length_append]

/-- The same behind a flag. -/
theorem tail_flag {b : Bool} {w : Writer Unit} {s : Bool → Reader β} {y : β}
    (hboth : RoundTripAt p (V3C.writeFlag b >>= fun _ => w) (V3C.readFlag >>= s) y) :
    ∃ p', RoundTripAt p' w (s b) y :=
  hboth.tail (RoundTrip.flag b).readsBack

theorem ensures {w : Writer Unit} {x : α} {P : α → Prop} (h : RoundTripAt p w r x)
    (hr : r.Ensures P) : P x := by
  obtain ⟨bs, -, hread⟩ := h
  exact hr _ _ _ (hread [])

/-- A parser that takes nothing leaves nothing to be written. -/
theorem eq_nil_of_pure {w : Writer Unit} {x y : α} (h : RoundTripAt p w (Pure.pure x) y) :
    w p = some ((), []) := by
  obtain ⟨bs, hw, hread⟩ := h
  have hcursor := (Prod.mk.inj (Option.some.inj (hread []))).2
  have hrest : bs ++ [] = [] := congrArg Cursor.rest hcursor
  rw [List.append_nil] at hrest
  rw [hw, hrest]

end RoundTripAt

end Codec

namespace V3C
open Codec

namespace PCCBitstreamWriter

def hrdSubLayerParameters (hlsp : HrdSubLayerParameters) (cabCnt : ℕ) : Writer Unit :=
  Writer.forEach (List.range (cabCnt + 1)) fun i => do
    let bitRateValueMinus1 ← Writer.ofOption hlsp.bitRateValueMinus1[i]?
    writeUvlc bitRateValueMinus1
    let cabSizeValueMinus1 ← Writer.ofOption hlsp.cabSizeValueMinus1[i]?
    writeUvlc cabSizeValueMinus1
    let cbrFlag ← Writer.ofOption hlsp.cbrFlag[i]?
    writeFlag cbrFlag

/-- The iteration of `hrdParameters` for one sub-layer. -/
def hrdSubLayer (hp : HrdParameters) (i : ℕ) : Writer Unit := do
  let fixedAtlasRateGeneralFlag ← Writer.ofOption hp.fixedAtlasRateGeneralFlag[i]?
  writeFlag fixedAtlasRateGeneralFlag
  let fixedAtlasRateWithinCasFlag ← Writer.ofOption hp.fixedAtlasRateWithinCasFlag[i]?
  Writer.when (!fixedAtlasRateGeneralFlag) (writeFlag fixedAtlasRateWithinCasFlag)
  let elementalDurationInTcMinus1 ← Writer.ofOption hp.elementalDurationInTcMinus1[i]?
  let lowDelayFlag ← Writer.ofOption hp.lowDelayFlag[i]?
  writeFlag (if fixedAtlasRateWithinCasFlag then elementalDurationInTcMinus1 else lowDelayFlag)
  let cabCntMinus1 ← Writer.ofOption hp.cabCntMinus1[i]?
  Writer.when (!lowDelayFlag) (write cabCntMinus1 1)
  Writer.when hp.nalParametersPresentFlag do
    let hlsp ← Writer.ofOption hp.nalSubLayerParameters[i]?
    hrdSubLayerParameters hlsp cabCntMinus1
  Writer.when hp.aclParametersPresentFlag do
    let hlsp ← Writer.ofOption hp.aclSubLayerParameters[i]?
    hrdSubLayerParameters hlsp cabCntMinus1

def hrdParameters (hp : HrdParameters) : Writer Unit := do
  writeFlag hp.nalParametersPresentFlag
  writeFlag hp.aclParametersPresentFlag
  Writer.when (hp.nalParametersPresentFlag || hp.aclParametersPresentFlag) do
    write hp.bitRateScale 4
    write hp.cabSizeScale 4
  Writer.forEach (List.range (hp.maxNumSubLayersMinus1 + 1)) (hrdSubLayer hp)

def maxCodedVideoResolution (mcvr : MaxCodedVideoResolution) : Writer Unit := do
  writeFlag mcvr.occupancyResolutionPresentFlag
  writeFlag mcvr.geometryResolutionPresentFlag
  writeFlag mcvr.attributeResolutionPresentFlag
  Writer.when mcvr.occupancyResolutionPresentFlag do
    writeUvlc mcvr.occupancyWidth
    writeUvlc mcvr.occupancyHeight
  Writer.when mcvr.geometryResolutionPresentFlag do
    writeUvlc mcvr.geometryWidth
    writeUvlc mcvr.geometryHeight
  Writer.when mcvr.attributeResolutionPresentFlag do
    writeUvlc mcvr.attributeWidth
    writeUvlc mcvr.attributeHeight

def coordinateSystemParameters (csp : CoordinateSystemParameters) : Writer Unit := do
  write csp.forwardAxis 2
  write csp.deltaLeftAxis 1
  write csp.forwardSign 1
  write csp.leftSign 1
  write csp.upSign 1

def vuiTiming (vp : VUIParameters) : Writer Unit := do
  write vp.numUnitsInTick 32
  write vp.timeScale 32
  writeFlag vp.pocProportionalToTimingFlag
  Writer.when vp.pocProportionalToTimingFlag (writeUvlc vp.numTicksPocDiffOneMinus1)
  writeFlag vp.hrdParametersPresentFlag
  Writer.when vp.hrdParametersPresentFlag (hrdParameters vp.hrdParameters)

def vuiTileRestrictions (vp : VUIParameters) : Writer Unit := do
  writeFlag vp.fixedAtlasTileStructureFlag
  writeFlag vp.fixedVideoTileStructureFlag
  writeUvlc vp.constrainedTilesAcrossV3cComponentsIdc
  writeUvlc vp.maxNumTilesPerAtlasMinus1

def vuiDisplayBox (vp : VUIParameters) : Writer Unit := do
  Writer.forEach (List.range 3) fun d => do
    let origin ← Writer.ofOption vp.displayBoxOrigin[d]?
    writeUvlc origin
    let size ← Writer.ofOption vp.displayBoxSize[d]?
    writeUvlc size
  writeFlag vp.anchorPointPresentFlag
  Writer.when vp.anchorPointPresentFlag (Writer.forEach (List.range 3) fun d => do
    let anchor ← Writer.ofOption vp.anchorPoint[d]?
    writeUvlc anchor)

/-- Unlike the reader, the writer has the flag of the maximum coded video resolution. -/
def vuiParameters (vp : VUIParameters) : Writer Unit := do
  writeFlag vp.timingInfoPresentFlag
  Writer.when vp.timingInfoPresentFlag (vuiTiming vp)
  writeFlag vp.tileRestrictionsPresentFlag
  Writer.when vp.tileRestrictionsPresentFlag (vuiTileRestrictions vp)
  writeFlag vp.maxCodedVideoResolutionPresentFlag
  Writer.when vp.maxCodedVideoResolutionPresentFlag
    (maxCodedVideoResolution vp.maxCodedVideoResolution)
  writeFlag vp.coordinateSystemParametersPresentFlag
  Writer.when vp.coordinateSystemParametersPresentFlag
    (coordinateSystemParameters vp.coordinateSystemParameters)
  writeFlag vp.unitInMetresFlag
  writeFlag vp.displayBoxInfoPresentFlag
  Writer.when vp.displayBoxInfoPresentFlag (vuiDisplayBox vp)

end PCCBitstreamWriter

/-- What is coded of a sub-layer with a number of entries. -/
structure HrdSubLayerParameters.Restored (cabCnt : ℕ) (hlsp got : HrdSubLayerParameters) :
    Prop where
  bitRate : ∀ k ≤ cabCnt, got.bitRateValueMinus1[k]? = hlsp.bitRateValueMinus1[k]?
  cabSize : ∀ k ≤ cabCnt, got.cabSizeValueMinus1[k]? = hlsp.cabSizeValueMinus1[k]?
  cbr : ∀ k ≤ cabCnt, got.cbrFlag[k]? = hlsp.cbrFlag[k]?

/-- Every field of the HRD parameters that is coded has come back. -/
structure HrdParameters.Restored (hp got : HrdParameters) : Prop where
  nal : got.nalParametersPresentFlag = hp.nalParametersPresentFlag
  acl : got.aclParametersPresentFlag = hp.aclParametersPresentFlag
  scales : (hp.nalParametersPresentFlag || hp.aclParametersPresentFlag) = true →
    got.bitRateScale = hp.bitRateScale ∧ got.cabSizeScale = hp.cabSizeScale
  general : ∀ i ≤ hp.maxNumSubLayersMinus1,
    got.fixedAtlasRateGeneralFlag[i]? = hp.fixedAtlasRateGeneralFlag[i]?
  withinCas : ∀ i ≤ hp.maxNumSubLayersMinus1, hp.fixedAtlasRateGeneralFlag[i]? = some false →
    got.fixedAtlasRateWithinCasFlag[i]? = hp.fixedAtlasRateWithinCasFlag[i]?
  duration : ∀ i ≤ hp.maxNumSubLayersMinus1, hp.fixedAtlasRateWithinCasFlag[i]? = some true →
    got.elementalDurationInTcMinus1[i]? = hp.elementalDurationInTcMinus1[i]?
  lowDelay : ∀ i ≤ hp.maxNumSubLayersMinus1, hp.fixedAtlasRateWithinCasFlag[i]? = some false →
    got.lowDelayFlag[i]? = hp.lowDelayFlag[i]?
  cabCnt : ∀ i ≤ hp.maxNumSubLayersMinus1, hp.lowDelayFlag[i]? = some false →
    got.cabCntMinus1[i]? = hp.cabCntMinus1[i]?
  nalSubLayer : hp.nalParametersPresentFlag = true → ∀ (i : ℕ) (cabCnt : ℕ) (hlsp),
    hp.cabCntMinus1[i]? = some cabCnt → hp.nalSubLayerParameters[i]? = some hlsp →
      ∃ layer, got.nalSubLayerParameters[i]? = some layer ∧ hlsp.Restored cabCnt layer
  aclSubLayer : hp.aclParametersPresentFlag = true → ∀ (i : ℕ) (cabCnt : ℕ) (hlsp),
    hp.cabCntMinus1[i]? = some cabCnt → hp.aclSubLayerParameters[i]? = some hlsp →
      ∃ layer, got.aclSubLayerParameters[i]? = some layer ∧ hlsp.Restored cabCnt layer

namespace VUIParameters

/-- Every field that is coded has come back. -/
structure Restored (vp got : VUIParameters) : Prop where
  timing : got.timingInfoPresentFlag = vp.timingInfoPresentFlag
  units : vp.timingInfoPresentFlag = true →
    got.numUnitsInTick = vp.numUnitsInTick ∧ got.timeScale = vp.timeScale ∧
      got.pocProportionalToTimingFlag = vp.pocProportionalToTimingFlag
  ticks : vp.timingInfoPresentFlag = true → vp.pocProportionalToTimingFlag = true →
    got.numTicksPocDiffOneMinus1 = vp.numTicksPocDiffOneMinus1
  hrd : vp.timingInfoPresentFlag = true →
    got.hrdParametersPresentFlag = vp.hrdParametersPresentFlag
  hrdParameters : vp.timingInfoPresentFlag = true → vp.hrdParametersPresentFlag = true →
    vp.hrdParameters.Restored got.hrdParameters
  tileRestrictions : got.tileRestrictionsPresentFlag = vp.tileRestrictionsPresentFlag
  tiles : vp.tileRestrictionsPresentFlag = true →
    got.fixedAtlasTileStructureFlag = vp.fixedAtlasTileStructureFlag ∧
    got.fixedVideoTileStructureFlag = vp.fixedVideoTileStructureFlag ∧
    got.constrainedTilesAcrossV3cComponentsIdc = vp.constrainedTilesAcrossV3cComponentsIdc ∧
    got.maxNumTilesPerAtlasMinus1 = vp.maxNumTilesPerAtlasMinus1
  resolution : got.maxCodedVideoResolutionPresentFlag = vp.maxCodedVideoResolutionPresentFlag
  maxCodedVideoResolution : vp.maxCodedVideoResolutionPresentFlag = true →
    got.maxCodedVideoResolution = vp.maxCodedVideoResolution
  coordinates :
    got.coordinateSystemParametersPresentFlag = vp.coordinateSystemParametersPresentFlag
  coordinateSystemParameters : vp.coordinateSystemParametersPresentFlag = true →
    got.coordinateSystemParameters = vp.coordinateSystemParameters
  metres : got.unitInMetresFlag = vp.unitInMetresFlag
  displayBox : got.displayBoxInfoPresentFlag = vp.displayBoxInfoPresentFlag
  box : vp.displayBoxInfoPresentFlag = true →
    got.displayBoxOrigin = vp.displayBoxOrigin ∧ got.displayBoxSize = vp.displayBoxSize ∧
      got.anchorPointPresentFlag = vp.anchorPointPresentFlag
  anchor : vp.displayBoxInfoPresentFlag = true → vp.anchorPointPresentFlag = true →
    got.anchorPoint = vp.anchorPoint

/-- The parameters come back, and the reader stops where the writer did. -/
def RoundTrips (vp : VUIParameters) : Prop :=
  ∃ got, RoundTrip (PCCBitstreamWriter.vuiParameters vp) PCCBitstreamReader.vuiParameters got ∧
    vp.Restored got

/-- The members that the writer takes as 32-bit values before the flag of the resolution. -/
structure InRange (vp : VUIParameters) : Prop where
  numUnitsInTick_lt : vp.numUnitsInTick < 2 ^ 32
  timeScale_lt : vp.timeScale < 2 ^ 32
  numTicks_lt : vp.numTicksPocDiffOneMinus1 < 2 ^ 32
  constrainedTiles_lt : vp.constrainedTilesAcrossV3cComponentsIdc < 2 ^ 32
  maxNumTiles_lt : vp.maxNumTilesPerAtlasMinus1 < 2 ^ 32

/-- What the reader has of the timing information when it is past it. -/
def timingReceived (vp : VUIParameters) : VUIParameters where
  timingInfoPresentFlag := true
  numUnitsInTick := vp.numUnitsInTick
  timeScale := vp.timeScale
  pocProportionalToTimingFlag := vp.pocProportionalToTimingFlag
  numTicksPocDiffOneMinus1 :=
    if vp.pocProportionalToTimingFlag then vp.numTicksPocDiffOneMinus1 else 0

/-- What the reader adds to `got` of the tile restrictions. -/
def tilesReceived (vp got : VUIParameters) : VUIParameters :=
  { got with
    tileRestrictionsPresentFlag := true
    fixedAtlasTileStructureFlag := vp.fixedAtlasTileStructureFlag
    fixedVideoTileStructureFlag := vp.fixedVideoTileStructureFlag
    constrainedTilesAcrossV3cComponentsIdc := vp.constrainedTilesAcrossV3cComponentsIdc
    maxNumTilesPerAtlasMinus1 := vp.maxNumTilesPerAtlasMinus1 }

theorem uvlc_readsBack {value : ℕ} (h : value < 2 ^ 32) :
    ReadsBack (writeUvlc value) readUvlc value := by
  by_cases hmax : value + 1 < 2 ^ 32
  · exact (RoundTrip.uvlc hmax).readsBack
  · intro p bs hw
    have hvalue : value = 2 ^ 32 - 1 := by omega
    have hnone : writeUvlc value p = none := by
      rw [hvalue]
      exact SyntaxElement.writeUvlc_max
        (show ¬ (2 ^ 32 - 1 : UInt32).toNat ≠ 2 ^ 32 - 1 by decide) p
    rw [hnone] at hw
    cases hw

theorem timing_readsBack {vp : VUIParameters} (h : vp.InRange)
    (hhrd : vp.hrdParametersPresentFlag = false) :
    ReadsBack (PCCBitstreamWriter.vuiTiming vp) (PCCBitstreamReader.vuiTiming {})
      vp.timingReceived := by
  unfold PCCBitstreamWriter.vuiTiming PCCBitstreamReader.vuiTiming
  rw [hhrd]
  apply (RoundTrip.write h.numUnitsInTick_lt (by decide)).readsBack.bind
  apply (RoundTrip.write h.timeScale_lt (by decide)).readsBack.bind
  apply (RoundTrip.flag vp.pocProportionalToTimingFlag).readsBack.bind
  apply (ReadsBack.when_default fun _ => uvlc_readsBack h.numTicks_lt).bind
  apply (RoundTrip.flag false).readsBack.bind
  exact (RoundTrip.pure _).readsBack

theorem tiles_readsBack {vp : VUIParameters} (h : vp.InRange) (got : VUIParameters) :
    ReadsBack (PCCBitstreamWriter.vuiTileRestrictions vp)
      (PCCBitstreamReader.vuiTileRestrictions got) (vp.tilesReceived got) := by
  unfold PCCBitstreamWriter.vuiTileRestrictions PCCBitstreamReader.vuiTileRestrictions
  apply (RoundTrip.flag vp.fixedAtlasTileStructureFlag).readsBack.bind
  apply (RoundTrip.flag vp.fixedVideoTileStructureFlag).readsBack.bind
  apply (uvlc_readsBack h.constrainedTiles_lt).bind
  exact (uvlc_readsBack h.maxNumTiles_lt).last rfl

/-- What the reader gives has no HRD parameters and no resolution. -/
structure Given (got : VUIParameters) : Prop where
  noHrd : got.hrdParametersPresentFlag = false
  noResolution : got.maxCodedVideoResolutionPresentFlag = false

theorem hrdParameters_ensures (P : HrdParameters → Prop) :
    Reader.Ensures PCCBitstreamReader.hrdParameters P := by
  unfold PCCBitstreamReader.hrdParameters
  iterate 5
    apply Reader.Ensures.bind
    intro _
  intro c a c' hrun
  cases hrun

theorem vuiTiming_given : Reader.Ensures (PCCBitstreamReader.vuiTiming {}) Given := by
  unfold PCCBitstreamReader.vuiTiming
  iterate 5
    apply Reader.Ensures.bind
    intro _
  rename_i present
  cases present with
  | true =>
    have hfail := hrdParameters_ensures fun _ => False
    exact hfail.then_bind fun _ hfalse => hfalse.elim
  | false => exact Reader.Ensures.pure ⟨rfl, rfl⟩

theorem vuiTileRestrictions_given {vp : VUIParameters} (h : vp.Given) :
    Reader.Ensures (PCCBitstreamReader.vuiTileRestrictions vp) Given := by
  unfold PCCBitstreamReader.vuiTileRestrictions
  iterate 4
    apply Reader.Ensures.bind
    intro _
  exact Reader.Ensures.pure ⟨h.noHrd, h.noResolution⟩

/-- What follows the resolution does not change what has been read before it. -/
theorem vuiDisplayBox_ensures {P : VUIParameters → Prop} {vp : VUIParameters}
    (hP : ∀ origin size present anchor, P { vp with
      displayBoxInfoPresentFlag := true, displayBoxOrigin := origin, displayBoxSize := size
      anchorPointPresentFlag := present, anchorPoint := anchor }) :
    Reader.Ensures (PCCBitstreamReader.vuiDisplayBox vp) P := by
  unfold PCCBitstreamReader.vuiDisplayBox
  iterate 3
    apply Reader.Ensures.bind
    intro _
  exact Reader.Ensures.pure (hP _ _ _ _)

theorem vuiParameters_given : Reader.Ensures PCCBitstreamReader.vuiParameters Given := by
  unfold PCCBitstreamReader.vuiParameters
  apply Reader.Ensures.bind
  intro timing
  have hdefault : Given {} := ⟨rfl, rfl⟩
  refine Reader.Ensures.then_bind (Reader.Ensures.whenElse vuiTiming_given hdefault)
    fun vp hvp => ?_
  apply Reader.Ensures.bind
  intro tiles
  refine Reader.Ensures.then_bind
    (Reader.Ensures.whenElse (vuiTileRestrictions_given hvp) hvp) fun vp hvp => ?_
  iterate 4
    apply Reader.Ensures.bind
    intro _
  apply Reader.Ensures.whenElse
  · exact vuiDisplayBox_ensures fun _ _ _ _ => ⟨hvp.noHrd, hvp.noResolution⟩
  · exact ⟨hvp.noHrd, hvp.noResolution⟩

/-- The reader from the flag of the coordinate system on. -/
def afterTiles (vp : VUIParameters) : Reader VUIParameters := do
  let coordinateSystemParametersPresentFlag ← readFlag
  let coordinateSystemParameters ← Reader.whenElse coordinateSystemParametersPresentFlag
    PCCBitstreamReader.coordinateSystemParameters {}
  let unitInMetresFlag ← readFlag
  let vp := { vp with
    coordinateSystemParametersPresentFlag, coordinateSystemParameters, unitInMetresFlag }
  let displayBoxInfoPresentFlag ← readFlag
  Reader.whenElse displayBoxInfoPresentFlag (PCCBitstreamReader.vuiDisplayBox vp) vp

/-- Without a resolution the writer is one flag ahead of the reader: each flag comes back as the
one in front of it, and the last one is left over. -/
theorem not_roundTripAt_afterTiles {vp start got : VUIParameters} {p : Phase}
    (hcoordinates :
      got.coordinateSystemParametersPresentFlag = vp.coordinateSystemParametersPresentFlag)
    (hmetres : got.unitInMetresFlag = vp.unitInMetresFlag) :
    ¬ RoundTripAt p
      (do
        writeFlag false
        writeFlag vp.coordinateSystemParametersPresentFlag
        Writer.when vp.coordinateSystemParametersPresentFlag
          (PCCBitstreamWriter.coordinateSystemParameters vp.coordinateSystemParameters)
        writeFlag vp.unitInMetresFlag
        writeFlag vp.displayBoxInfoPresentFlag
        Writer.when vp.displayBoxInfoPresentFlag (PCCBitstreamWriter.vuiDisplayBox vp))
      (afterTiles start) got := by
  intro h
  unfold afterTiles at h
  obtain ⟨p₁, h₁⟩ := h.tail_flag
  have hfirst : vp.coordinateSystemParametersPresentFlag = false := by
    rw [← hcoordinates]
    refine h₁.ensures (P := fun got => got.coordinateSystemParametersPresentFlag = false) ?_
    iterate 3
      apply Reader.Ensures.bind
      intro _
    apply Reader.Ensures.whenElse
    · exact vuiDisplayBox_ensures fun _ _ _ _ => rfl
    · rfl
  rw [hfirst, Reader.whenElse_false, pure_bind, Writer.when_false, pure_bind] at h₁
  obtain ⟨p₂, h₂⟩ := h₁.tail_flag
  have hsecond : vp.unitInMetresFlag = false := by
    rw [← hmetres]
    refine h₂.ensures (P := fun got => got.unitInMetresFlag = false) ?_
    apply Reader.Ensures.bind
    intro _
    apply Reader.Ensures.whenElse
    · exact vuiDisplayBox_ensures fun _ _ _ _ => rfl
    · rfl
  rw [hsecond] at h₂
  obtain ⟨p₃, h₃⟩ := h₂.tail_flag
  rw [Reader.whenElse_false] at h₃
  have hnil := h₃.eq_nil_of_pure
  obtain ⟨⟨⟩, bs, cs, hflag, -, happend⟩ := Writer.bind_run_eq_some.mp hnil
  have hlength := Writer.Sized.flag _ _ _ hflag
  rw [(List.append_eq_nil_iff.mp happend.symm).1] at hlength
  cases hlength

/-- Not one set of VUI parameters comes back: the reader has no flag for the maximum coded video
resolution. -/
theorem not_roundTrips {vp : VUIParameters} (h : vp.InRange) : ¬ vp.RoundTrips := by
  rintro ⟨got, hround, hrestored⟩
  obtain ⟨bs, hwrite, hread⟩ := hround 0
  have hat : RoundTripAt 0 (PCCBitstreamWriter.vuiParameters vp)
      PCCBitstreamReader.vuiParameters got := ⟨bs, hwrite, hread⟩
  have hgiven := hat.ensures vuiParameters_given
  have hresolution : vp.maxCodedVideoResolutionPresentFlag = false := by
    rw [← hrestored.resolution, hgiven.noResolution]
  have htiming : ReadsBack (Writer.when vp.timingInfoPresentFlag (PCCBitstreamWriter.vuiTiming vp))
      (Reader.whenElse vp.timingInfoPresentFlag (PCCBitstreamReader.vuiTiming {}) {})
      (if vp.timingInfoPresentFlag then vp.timingReceived else {}) := by
    apply ReadsBack.when_default
    intro hpresent
    apply timing_readsBack h
    rw [← hrestored.hrd hpresent, hgiven.noHrd]
  unfold PCCBitstreamWriter.vuiParameters PCCBitstreamReader.vuiParameters at hat
  obtain ⟨p₁, h₁⟩ := hat.tail_flag
  obtain ⟨p₂, h₂⟩ := h₁.tail htiming
  obtain ⟨p₃, h₃⟩ := h₂.tail_flag
  obtain ⟨p₄, h₄⟩ := h₃.tail (ReadsBack.when_default fun _ => tiles_readsBack h _)
  rw [hresolution, Writer.when_false, pure_bind] at h₄
  exact not_roundTripAt_afterTiles hrestored.coordinates hrestored.metres h₄

/-- Timing information with its ticks, and a display box. -/
theorem not_roundTrips_timing :
    ¬ RoundTrips { timingInfoPresentFlag := true, pocProportionalToTimingFlag := true,
                   numTicksPocDiffOneMinus1 := 3, displayBoxInfoPresentFlag := true } := by
  apply not_roundTrips
  constructor <;> decide

/-- With no section present the writer has six bits and the reader takes five. -/
theorem not_roundTrips_empty : ¬ RoundTrips {} := by
  rintro ⟨got, hround, -⟩
  obtain ⟨bs, hwrite, hread⟩ := hround 0
  have hbits : (PCCBitstreamWriter.vuiParameters {} 0).map Prod.snd =
      some (List.replicate 6 false) := by decide +kernel
  have hleft : (PCCBitstreamReader.vuiParameters ⟨0, List.replicate 6 false⟩).map (·.2.rest) =
      some [false] := by decide +kernel
  rw [hwrite] at hbits
  have hbs : bs = List.replicate 6 false := Option.some.inj hbits
  have hrest := hread []
  rw [hbs, List.append_nil] at hrest
  rw [hrest] at hleft
  cases hleft

end VUIParameters

end V3C

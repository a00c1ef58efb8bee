import V3C.Syntax.HighLevelSyntax

/-! The parsing of atlas sequence and frame parameter sets. A call of a setter converts
its argument to the type of the member. -/
namespace V3C
open Codec


namespace PCCBitstreamReader

def readUvlc8 : Reader ℕ := do
  let code ← readUvlc
  pure (code % 2 ^ 8)

def readUvlc16 : Reader ℕ := do
  let code ← readUvlc
  pure (code % 2 ^ 16)

/-- `rbspTrailingBits` and `byteAlignment`: a bit, and all up to the next whole byte. -/
def rbspTrailingBits : Reader Unit := do
  let _ ← read 1
  let p ← Reader.phase
  let _ ← Reader.take ((8 - p.val) % 8)
  pure ()

/-- One entry of `refListStruct`. -/
def refListEntry (longTermRefAtlasFramesFlag : Bool) (log2MaxAtlasFrameOrderCntLsbMinus4 : ℕ) :
    Reader RefListEntry := do
  let stRefAtlasFrameFlag ← Reader.whenElse longTermRefAtlasFramesFlag readFlag true
  if stRefAtlasFrameFlag then do
    let absDeltaAfocSt ← readUvlc8
    let strafEntrySignFlag ← Reader.whenElse (0 < absDeltaAfocSt) readFlag true
    pure { absDeltaAfocSt, strafEntrySignFlag, stRefAtlasFrameFlag }
  else do
    let afocLsbLt ← read ((log2MaxAtlasFrameOrderCntLsbMinus4 + 4) % 2 ^ 8)
    pure { afocLsbLt := afocLsbLt % 2 ^ 8, stRefAtlasFrameFlag }

def refListStruct (longTermRefAtlasFramesFlag : Bool) (log2MaxAtlasFrameOrderCntLsbMinus4 : ℕ) :
    Reader RefListStruct := do
  let numRefEntries ← readUvlc8
  let entries ← Reader.repeatFrom 0 numRefEntries fun _ =>
    refListEntry longTermRefAtlasFramesFlag log2MaxAtlasFrameOrderCntLsbMinus4
  pure { entries }

def plrMode : Reader PLRMode := do
  let interpolateFlag ← readFlag
  let fillingFlag ← readFlag
  let minimumDepth ← read 2
  let neighbourMinus1 ← read 2
  pure { interpolateFlag, fillingFlag, minimumDepth, neighbourMinus1 }

/-- `allocate` makes room for one mode more than the loop reads. -/
def plrInformationMap : Reader PLRInformation := do
  let mapEnabledFlag ← readFlag
  if mapEnabledFlag then do
    let numberOfModesMinus1 ← read 4
    let modes ← Reader.repeatFrom 0 numberOfModesMinus1 fun _ => plrMode
    let blockThresholdPerPatchMinus1 ← read 6
    pure { mapEnabledFlag, numberOfModesMinus1, modes := modes ++ [{}],
           blockThresholdPerPatchMinus1 }
  else pure {}

def plrInformation (mapCountMinus1 : ℕ) : Reader (List PLRInformation) :=
  Reader.repeatFrom 0 (mapCountMinus1 + 1) fun _ => plrInformationMap

/-- The loop over the sub-layers starts by a store into a vector that is empty. -/
def hrdParameters : Reader HrdParameters := do
  let nalParametersPresentFlag ← readFlag
  let aclParametersPresentFlag ← readFlag
  let _ ← Reader.whenElse (nalParametersPresentFlag || aclParametersPresentFlag) (read 4) 0
  let _ ← Reader.whenElse (nalParametersPresentFlag || aclParametersPresentFlag) (read 4) 0
  let _ ← readFlag
  Reader.fail

def coordinateSystemParameters : Reader CoordinateSystemParameters := do
  let forwardAxis ← read 2
  let deltaLeftAxis ← read 1
  let forwardSign ← read 1
  let leftSign ← read 1
  let upSign ← read 1
  pure { forwardAxis, deltaLeftAxis, forwardSign, leftSign, upSign }

def vuiTiming (vp : VUIParameters) : Reader VUIParameters := do
  let numUnitsInTick ← read 32
  let timeScale ← read 32
  let pocProportionalToTimingFlag ← readFlag
  let numTicksPocDiffOneMinus1 ← Reader.whenElse pocProportionalToTimingFlag readUvlc 0
  let hrdParametersPresentFlag ← readFlag
  let hrdParameters ← Reader.whenElse hrdParametersPresentFlag hrdParameters {}
  pure { vp with
    timingInfoPresentFlag := true
    numUnitsInTick, timeScale, pocProportionalToTimingFlag, numTicksPocDiffOneMinus1
    hrdParametersPresentFlag, hrdParameters }

def vuiTileRestrictions (vp : VUIParameters) : Reader VUIParameters := do
  let fixedAtlasTileStructureFlag ← readFlag
  let fixedVideoTileStructureFlag ← readFlag
  let constrainedTilesAcrossV3cComponentsIdc ← readUvlc
  let maxNumTilesPerAtlasMinus1 ← readUvlc
  pure { vp with
    tileRestrictionsPresentFlag := true
    fixedAtlasTileStructureFlag, fixedVideoTileStructureFlag
    constrainedTilesAcrossV3cComponentsIdc, maxNumTilesPerAtlasMinus1 }

/-- A 32-bit value in a `float`: 24 significant bits, a tie to the even neighbour. -/
def toFloat (n : ℕ) : ℕ :=
  let ulp := 2 ^ (Nat.log2 n - 23)
  let down := n / ulp
  if ulp < 2 * (n % ulp) ∨ ulp = 2 * (n % ulp) ∧ down % 2 = 1 then (down + 1) * ulp
  else down * ulp

def vuiDisplayBox (vp : VUIParameters) : Reader VUIParameters := do
  let box ← Reader.repeatFrom 0 3 fun _ => do
    let origin ← readUvlc
    let size ← readUvlc
    pure (origin, size)
  let anchorPointPresentFlag ← readFlag
  let anchorPoint ← Reader.whenElse anchorPointPresentFlag
    (Reader.repeatFrom 0 3 fun _ => do pure (toFloat (← readUvlc))) vp.anchorPoint
  pure { vp with
    displayBoxInfoPresentFlag := true
    displayBoxOrigin := box.map Prod.fst
    displayBoxSize := box.map Prod.snd
    anchorPointPresentFlag, anchorPoint }

def vuiParameters : Reader VUIParameters := do
  let timingInfoPresentFlag ← readFlag
  let vp ← Reader.whenElse timingInfoPresentFlag (vuiTiming {}) {}
  let tileRestrictionsPresentFlag ← readFlag
  let vp ← Reader.whenElse tileRestrictionsPresentFlag (vuiTileRestrictions vp) vp
  let coordinateSystemParametersPresentFlag ← readFlag
  let coordinateSystemParameters ←
    Reader.whenElse coordinateSystemParametersPresentFlag coordinateSystemParameters {}
  let unitInMetresFlag ← readFlag
  let vp := { vp with
    coordinateSystemParametersPresentFlag, coordinateSystemParameters, unitInMetresFlag }
  let displayBoxInfoPresentFlag ← readFlag
  Reader.whenElse displayBoxInfoPresentFlag (vuiDisplayBox vp) vp

def aspsVpccExtension (thickness : Bool) : Reader AspsVpccExtension := do
  let removeDuplicatePointEnableFlag ← readFlag
  let surfaceThicknessMinus1 ← Reader.whenElse thickness (read 7) 0
  pure { removeDuplicatePointEnableFlag, surfaceThicknessMinus1 }

/-- `moreRbspData` is always false, so no extension data follows the extension bits. -/
def atlasSequenceParameterSetRbsp : Reader AtlasSequenceParameterSetRbsp := do
  let atlasSequenceParameterSetId ← readUvlc8
  let frameWidth ← readUvlc16
  let frameHeight ← readUvlc16
  let geometry3dBitdepthMinus1 ← read 5
  let geometry2dBitdepthMinus1 ← read 5
  let log2MaxAtlasFrameOrderCntLsbMinus4 ← readUvlc8
  let maxDecAtlasFrameBufferingMinus1 ← readUvlc8
  let longTermRefAtlasFramesFlag ← readFlag
  let numRefAtlasFrameListsInAsps ← readUvlc8
  let refListStruct ← Reader.repeatFrom 0 numRefAtlasFrameListsInAsps fun _ =>
    refListStruct longTermRefAtlasFramesFlag log2MaxAtlasFrameOrderCntLsbMinus4
  let useEightOrientationsFlag ← readFlag
  let extendedProjectionEnabledFlag ← readFlag
  let maxNumberProjectionsMinus1 ← Reader.whenElse extendedProjectionEnabledFlag readUvlc 5
  let normalAxisLimitsQuantizationEnabledFlag ← readFlag
  let normalAxisMaxDeltaValueEnabledFlag ← readFlag
  let patchPrecedenceOrderFlag ← readFlag
  let log2PatchPackingBlockSize ← read 3
  let patchSizeQuantizerPresentFlag ← readFlag
  let mapCountMinus1 ← read 4
  let pixelDeinterleavingFlag ← readFlag
  let pixelDeinterleavingMapFlag ← Reader.whenElse pixelDeinterleavingFlag
    (Reader.repeatFrom 0 (mapCountMinus1 + 1) fun _ => readFlag) []
  let rawPatchEnabledFlag ← readFlag
  let eomPatchEnabledFlag ← readFlag
  let eomFixBitCountMinus1 ←
    Reader.whenElse (eomPatchEnabledFlag && mapCountMinus1 == 0) (read 4) 0
  let auxiliaryVideoEnabledFlag ←
    Reader.whenElse (rawPatchEnabledFlag || eomPatchEnabledFlag) readFlag false
  let plrEnabledFlag ← readFlag
  let plrInformation ← Reader.whenElse plrEnabledFlag (plrInformation mapCountMinus1) []
  let vuiParametersPresentFlag ← readFlag
  let vuiParameters ← Reader.whenElse vuiParametersPresentFlag vuiParameters {}
  let extensionFlag ← readFlag
  let vpccExtensionFlag ← Reader.whenElse extensionFlag readFlag false
  let extension7Bits ← Reader.whenElse extensionFlag (read 7) 0
  let aspsVpccExtension ← Reader.whenElse vpccExtensionFlag
    (aspsVpccExtension (pixelDeinterleavingFlag || plrEnabledFlag)) {}
  rbspTrailingBits
  pure {
    atlasSequenceParameterSetId, frameWidth, frameHeight, geometry2dBitdepthMinus1
    geometry3dBitdepthMinus1, log2MaxAtlasFrameOrderCntLsbMinus4
    maxDecAtlasFrameBufferingMinus1, longTermRefAtlasFramesFlag, numRefAtlasFrameListsInAsps
    refListStruct, useEightOrientationsFlag, extendedProjectionEnabledFlag
    maxNumberProjectionsMinus1, normalAxisLimitsQuantizationEnabledFlag
    normalAxisMaxDeltaValueEnabledFlag, patchPrecedenceOrderFlag, log2PatchPackingBlockSize
    patchSizeQuantizerPresentFlag, mapCountMinus1, pixelDeinterleavingFlag
    pixelDeinterleavingMapFlag, eomPatchEnabledFlag, eomFixBitCountMinus1
    rawPatchEnabledFlag, auxiliaryVideoEnabledFlag, plrEnabledFlag, plrInformation
    vuiParametersPresentFlag, extensionFlag, vpccExtensionFlag, extension7Bits, vuiParameters
    aspsVpccExtension }

end PCCBitstreamReader

end V3C

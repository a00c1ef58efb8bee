import V3C.Syntax.HighLevelSyntax

/-! The serialization of atlas tile data units. -/
namespace V3C
open Codec

/-- The tile header and the parameter sets that the ids of the header stand for. -/
structure TileContext where
  ath : AtlasTileHeader
  afps : AtlasFrameParameterSetRbsp
  asps : AtlasSequenceParameterSetRbsp

/-- `uint8_t( ceilLog2( numberOfModesMinus1 ) )`: 255 for zero. -/
def PLRInformation.bitCountMode (plri : PLRInformation) : ℕ :=
  toUInt8 (ceilLog2 plri.numberOfModesMinus1)

/-- The blocks of a patch are worth a flag of their own only when there are enough. -/
def PLRInformation.signalsLevel (plri : PLRInformation) (plrd : PLRData) : Bool :=
  plri.blockThresholdPerPatchMinus1 + 1 < plrd.blockCount

namespace TileContext

/-- The context of a header in a high level syntax. -/
def ofSyntax (syntax' : PCCAtlasHighLevelSyntax) (ath : AtlasTileHeader) : Option TileContext := do
  let afps ← syntax'.getAtlasFrameParameterSet ath.atlasFrameParameterSetId
  let asps ← syntax'.getAtlasSequenceParameterSet afps.atlasSequenceParameterSetId
  pure { ath, afps, asps }

variable (ctx : TileContext)

def bitCountUV : ℕ := toUInt8 (ctx.asps.geometry3dBitdepthMinus1 + 1)

def bitCountD : ℕ := toUInt8 (ctx.asps.geometry3dBitdepthMinus1 - ctx.ath.posMinDQuantizer + 1)

def bitCountForMaxDepth : ℕ :=
  toUInt8 (min (ctx.asps.geometry2dBitdepthMinus1 : ℤ) ctx.asps.geometry3dBitdepthMinus1 + 1 -
    ctx.ath.posDeltaMaxDQuantizer)

def bitCountProjection : ℕ :=
  toUInt8 (ceilLog2 ((ctx.asps.maxNumberProjectionsMinus1 + 1) % 2 ^ 32))

def bitCountOrientation : ℕ := if ctx.asps.useEightOrientationsFlag then 3 else 1

def bitCountRaw : ℕ := toUInt8 (ctx.ath.raw3dOffsetAxisBitCountMinus1 + 1)

def getNumRefIdxActive : Option ℕ :=
  if ctx.ath.type = .pTile ∨ ctx.ath.type = .skipTile then
    if ctx.ath.numRefIdxActiveOverrideFlag then some (ctx.ath.numRefIdxActiveMinus1 + 1)
    else (PCCAtlasHighLevelSyntax.getRefList ctx.asps ctx.ath).map fun refList =>
      min refList.numRefEntries (ctx.afps.numRefIdxDefaultActiveMinus1 + 1)
  else some 0

/-- Whether the tile has rows in the auxiliary video. -/
def auxiliaryVideo : Option Bool := do
  let afti := ctx.afps.atlasFrameTileInformation
  let tileIdToIndex ← afti.tileId[ctx.ath.id]?
  let height ← afti.getAuxiliaryVideoTileRowHeight tileIdToIndex
  pure (height != 0)

/-- The point local reconstruction information of the maps. -/
def plrMaps : Option (List PLRInformation) :=
  if ctx.asps.mapCountMinus1 < ctx.asps.plrInformation.length then
    some (ctx.asps.plrInformation.take (ctx.asps.mapCountMinus1 + 1))
  else none

end TileContext

namespace PCCBitstreamWriter
variable (ctx : TileContext)

def plrBlock (plrd : PLRData) (bitCountMode i : ℕ) : Writer Unit := do
  let present ← Writer.ofOption plrd.blockPresentFlag[i]?
  writeFlag present
  Writer.when present do
    let mode ← Writer.ofOption plrd.blockModeMinus1[i]?
    write mode bitCountMode

/-- The iteration of `plrData` for one map. -/
def plrMap (plrd : PLRData) (plri : PLRInformation) : Writer Unit :=
  Writer.when plri.mapEnabledFlag do
    Writer.when (plri.signalsLevel plrd) (writeFlag plrd.levelFlag)
    if plrd.levelFlag = false then
      Writer.forEach (List.range plrd.blockCount) (plrBlock plrd plri.bitCountMode)
    else do
      writeFlag plrd.presentFlag
      Writer.when plrd.presentFlag (write plrd.modeMinus1 plri.bitCountMode)

def plrData (plrd : PLRData) : Writer Unit := do
  let maps ← Writer.ofOption ctx.plrMaps
  Writer.forEach maps (plrMap plrd)

def patchDataUnit (pdu : PatchDataUnit) : Writer Unit := do
  writeUvlc pdu.pos2dX
  writeUvlc pdu.pos2dY
  writeUvlc pdu.size2dXMinus1
  writeUvlc pdu.size2dYMinus1
  write pdu.pos3dOffsetU ctx.bitCountUV
  write pdu.pos3dOffsetV ctx.bitCountUV
  write pdu.pos3dOffsetD ctx.bitCountD
  Writer.when ctx.asps.normalAxisMaxDeltaValueEnabledFlag
    (write pdu.pos3dRangeD ctx.bitCountForMaxDepth)
  write pdu.projectionId ctx.bitCountProjection
  write pdu.orientationIndex ctx.bitCountOrientation
  Writer.when ctx.afps.lodModeEnableFlag do
    writeFlag pdu.lodEnableFlag
    Writer.when pdu.lodEnableFlag do
      writeUvlc pdu.lodScaleXMinus1
      writeUvlc pdu.lodScaleYIdc
  Writer.when ctx.asps.plrEnabledFlag (plrData ctx pdu.plrData)

/-- `overridePlrFlag` is set by the override of the 2D parameters only. -/
def mergePatchDataUnit (mpdu : MergePatchDataUnit) : Writer Unit := do
  let numRefIdxActive ← Writer.ofOption ctx.getNumRefIdxActive
  Writer.when (1 < numRefIdxActive) (writeUvlc (mpdu.refIndex % 2 ^ 32).toNat)
  writeFlag mpdu.override2dParamsFlag
  if mpdu.override2dParamsFlag = true then do
    writeSvlc mpdu.pos2dX
    writeSvlc mpdu.pos2dY
    writeSvlc mpdu.delta2dSizeX
    writeSvlc mpdu.delta2dSizeY
    Writer.when ctx.asps.plrEnabledFlag (plrData ctx mpdu.plrData)
  else do
    writeFlag mpdu.override3dParamsFlag
    Writer.when mpdu.override3dParamsFlag do
      writeSvlc mpdu.pos3dOffsetU
      writeSvlc mpdu.pos3dOffsetV
      writeSvlc mpdu.pos3dOffsetD
      Writer.when ctx.asps.normalAxisMaxDeltaValueEnabledFlag (writeSvlc mpdu.pos3dRangeD)
      Writer.when ctx.asps.plrEnabledFlag (writeFlag mpdu.overridePlrFlag)

def interPatchDataUnit (ipdu : InterPatchDataUnit) : Writer Unit := do
  let numRefIdxActive ← Writer.ofOption ctx.getNumRefIdxActive
  Writer.when (1 < numRefIdxActive) (writeUvlc (ipdu.refIndex % 2 ^ 32).toNat)
  writeSvlc ipdu.refPatchIndex
  writeSvlc ipdu.pos2dX
  writeSvlc ipdu.pos2dY
  writeSvlc ipdu.delta2dSizeX
  writeSvlc ipdu.delta2dSizeY
  writeSvlc ipdu.pos3dOffsetU
  writeSvlc ipdu.pos3dOffsetV
  writeSvlc ipdu.pos3dOffsetD
  Writer.when ctx.asps.normalAxisMaxDeltaValueEnabledFlag (writeSvlc ipdu.pos3dRangeD)
  Writer.when ctx.asps.plrEnabledFlag (plrData ctx ipdu.plrData)

def rawPatchDataUnit (rpdu : RawPatchDataUnit) : Writer Unit := do
  let auxiliaryVideo ← Writer.ofOption ctx.auxiliaryVideo
  Writer.when auxiliaryVideo (writeFlag rpdu.patchInAuxiliaryVideoFlag)
  writeUvlc rpdu.pos2dX
  writeUvlc rpdu.pos2dY
  writeUvlc rpdu.size2dXMinus1
  writeUvlc rpdu.size2dYMinus1
  write rpdu.pos3dOffsetU ctx.bitCountRaw
  write rpdu.pos3dOffsetV ctx.bitCountRaw
  write rpdu.pos3dOffsetD ctx.bitCountRaw
  writeUvlc rpdu.rawPointsMinus1

def eomPatchDataUnit (epdu : EOMPatchDataUnit) : Writer Unit := do
  let auxiliaryVideo ← Writer.ofOption ctx.auxiliaryVideo
  Writer.when auxiliaryVideo (writeFlag epdu.patchInAuxiliaryVideoFlag)
  writeUvlc epdu.pos2dX
  writeUvlc epdu.pos2dY
  writeUvlc epdu.size2dXMinus1
  writeUvlc epdu.size2dYMinus1
  writeUvlc epdu.patchCountMinus1
  Writer.forEach (List.range (epdu.patchCountMinus1 + 1)) fun i => do
    let (associatedPatchesIdx, points) ← Writer.ofOption epdu.patches[i]?
    writeUvlc associatedPatchesIdx
    writeUvlc points

/-- A mode that the tile type does not have carries no data. -/
def patchInformationData (pid : PatchInformationData) : Writer Unit :=
  match ctx.ath.type with
  | .pTile =>
    if pid.patchMode = P_SKIP then pure ()
    else if pid.patchMode = P_MERGE then mergePatchDataUnit ctx pid.mergePatchDataUnit
    else if pid.patchMode = P_INTRA then patchDataUnit ctx pid.patchDataUnit
    else if pid.patchMode = P_INTER then interPatchDataUnit ctx pid.interPatchDataUnit
    else if pid.patchMode = P_RAW then rawPatchDataUnit ctx pid.rawPatchDataUnit
    else if pid.patchMode = P_EOM then eomPatchDataUnit ctx pid.eomPatchDataUnit
    else pure ()
  | .iTile =>
    if pid.patchMode = I_INTRA then patchDataUnit ctx pid.patchDataUnit
    else if pid.patchMode = I_RAW then rawPatchDataUnit ctx pid.rawPatchDataUnit
    else if pid.patchMode = I_EOM then eomPatchDataUnit ctx pid.eomPatchDataUnit
    else pure ()
  | _ => pure ()

def atlasTileDataUnit (atdu : AtlasTileDataUnit) : Writer Unit :=
  if ctx.ath.type = .skipTile then pure ()
  else
    Writer.forEach atdu.patchInformationData fun pid => do
      writeUvlc pid.patchMode
      patchInformationData ctx pid

end PCCBitstreamWriter

end V3C

import V3C.Syntax.TileHeaderReader
import V3C.Syntax.V3CParameterSet

/-! The serialization of tile headers and reference list structures. -/
namespace V3C
open Codec

/-- The number of long-term entries of a reference list. -/
def RefListStruct.numLtrAtlasFrmEntries (rls : RefListStruct) : ℕ :=
  (rls.entries.filter fun e => !e.stRefAtlasFrameFlag).length

namespace PCCBitstreamWriter

/-- The iteration of `refListStruct` for one entry. -/
def refListEntry (longTermRefAtlasFramesFlag : Bool) (log2MaxAtlasFrameOrderCntLsbMinus4 : ℕ)
    (entry : RefListEntry) : Writer Unit := do
  Writer.when longTermRefAtlasFramesFlag (writeFlag entry.stRefAtlasFrameFlag)
  if entry.stRefAtlasFrameFlag then do
    writeUvlc entry.absDeltaAfocSt
    Writer.when (0 < entry.absDeltaAfocSt) (writeFlag entry.strafEntrySignFlag)
  else write entry.afocLsbLt ((log2MaxAtlasFrameOrderCntLsbMinus4 + 4) % 2 ^ 8)

def refListStruct (longTermRefAtlasFramesFlag : Bool) (log2MaxAtlasFrameOrderCntLsbMinus4 : ℕ)
    (rls : RefListStruct) : Writer Unit := do
  writeUvlc rls.numRefEntries
  Writer.forEach rls.entries
    (refListEntry longTermRefAtlasFramesFlag log2MaxAtlasFrameOrderCntLsbMinus4)

def tileHeaderId (afti : AtlasFrameTileInformation) (id : ℕ) : Writer Unit :=
  if afti.signalledTileIdFlag then write id ((afti.signalledTileIdLengthMinus1 + 1) % 2 ^ 8)
  else if afti.numTilesInAtlasFrameMinus1 ≠ 0 then
    write id (toUInt8 (ceilLog2 ((afti.numTilesInAtlasFrameMinus1 + 1) % 2 ^ 32)))
  else pure ()

def tileHeaderRefList (asps : AtlasSequenceParameterSetRbsp) (ath : AtlasTileHeader) :
    Writer Unit := do
  Writer.when (0 < asps.numRefAtlasFrameListsInAsps) (writeFlag ath.refAtlasFrameListSpsFlag)
  if ath.refAtlasFrameListSpsFlag then
    Writer.when (1 < asps.numRefAtlasFrameListsInAsps)
      (write ath.refAtlasFrameListIdx (toUInt8 (ceilLog2 asps.numRefAtlasFrameListsInAsps)))
  else
    refListStruct asps.longTermRefAtlasFramesFlag asps.log2MaxAtlasFrameOrderCntLsbMinus4
      ath.refListStruct

/-- The iteration for long-term entry `j`. -/
def additionalAfocLsb (afps : AtlasFrameParameterSetRbsp) (ath : AtlasTileHeader) (j : ℕ) :
    Writer Unit := do
  let present ← Writer.ofOption ath.additionalAfocLsbPresentFlag[j]?
  writeFlag present
  Writer.when present do
    let value ← Writer.ofOption ath.additionalAfocLsbVal[j]?
    write value afps.additionalLtAfocLsbLen

/-- The fields of a tile header that a skip tile leaves out. -/
def tileHeaderQuantizers (asps : AtlasSequenceParameterSetRbsp)
    (afps : AtlasFrameParameterSetRbsp) (refList : RefListStruct) (ath : AtlasTileHeader) :
    Writer Unit := do
  Writer.when asps.normalAxisLimitsQuantizationEnabledFlag (write ath.posMinDQuantizer 5)
  Writer.when (asps.normalAxisLimitsQuantizationEnabledFlag &&
    asps.normalAxisMaxDeltaValueEnabledFlag) (write ath.posDeltaMaxDQuantizer 5)
  Writer.when asps.patchSizeQuantizerPresentFlag (write ath.patchSizeXinfoQuantizer 3)
  Writer.when asps.patchSizeQuantizerPresentFlag (write ath.patchSizeYinfoQuantizer 3)
  Writer.when afps.raw3dOffsetBitCountExplicitModeFlag
    (write ath.raw3dOffsetAxisBitCountMinus1
      (toUInt8 (floorLog2 (asps.geometry3dBitdepthMinus1 + 1))))
  let overridable := decide (ath.type = .pTile ∧ 1 < refList.numRefEntries)
  Writer.when overridable (writeFlag ath.numRefIdxActiveOverrideFlag)
  Writer.when (overridable && ath.numRefIdxActiveOverrideFlag) (writeUvlc ath.numRefIdxActiveMinus1)

/-- `atlasTileHeader` behind the two ids. -/
def atlasTileHeaderBody (ath : AtlasTileHeader) (afps : AtlasFrameParameterSetRbsp)
    (asps : AtlasSequenceParameterSetRbsp) : Writer Unit := do
  tileHeaderId afps.atlasFrameTileInformation ath.id
  writeUvlc ath.type.toNat
  Writer.when afps.outputFlagPresentFlag (writeFlag ath.atlasOutputFlag)
  write ath.atlasFrmOrderCntLsb ((asps.log2MaxAtlasFrameOrderCntLsbMinus4 + 4) % 2 ^ 8)
  tileHeaderRefList asps ath
  let refList ← Writer.ofOption (PCCAtlasHighLevelSyntax.getRefList asps ath)
  Writer.forEach (List.range refList.numLtrAtlasFrmEntries) (additionalAfocLsb afps ath)
  Writer.when (ath.type ≠ .skipTile) (tileHeaderQuantizers asps afps refList ath)
  byteAlignment

def atlasTileHeader (sets : ActiveSets) (ath : AtlasTileHeader) (nalUnitType : ℕ) :
    Writer Unit := do
  let afps ← Writer.ofOption (sets.afps ath.atlasFrameParameterSetId)
  let asps ← Writer.ofOption (sets.asps afps.atlasSequenceParameterSetId)
  Writer.when (isIrap nalUnitType) (writeFlag ath.noOutputOfPriorAtlasFramesFlag)
  writeUvlc ath.atlasFrameParameterSetId
  writeUvlc ath.atlasAdaptationParameterSetId
  atlasTileHeaderBody ath afps asps

end PCCBitstreamWriter

end V3C

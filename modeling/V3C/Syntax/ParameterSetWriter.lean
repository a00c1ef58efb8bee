import V3C.Syntax.TileHeaderWriter
import V3C.Syntax.VuiParameters

/-! The serialization of atlas sequence and frame parameter sets. -/
namespace V3C
open Codec

namespace PCCBitstreamWriter

def plrMode (mode : PLRMode) : Writer Unit := do
  writeFlag mode.interpolateFlag
  writeFlag mode.fillingFlag
  write mode.minimumDepth 2
  write mode.neighbourMinus1 2

/-- The loop goes up to `numberOfModesMinus1`, which is one mode less than there are. -/
def plrInformationMap (plri : PLRInformation) : Writer Unit := do
  writeFlag plri.mapEnabledFlag
  Writer.when plri.mapEnabledFlag do
    write plri.numberOfModesMinus1 4
    Writer.forEach (List.range plri.numberOfModesMinus1) fun i => do
      let mode ← Writer.ofOption plri.modes[i]?
      plrMode mode
    write plri.blockThresholdPerPatchMinus1 6

def plrInformation (asps : AtlasSequenceParameterSetRbsp) : Writer Unit :=
  Writer.forEach (List.range (asps.mapCountMinus1 + 1)) fun j => do
    let plri ← Writer.ofOption asps.plrInformation[j]?
    plrInformationMap plri

def aspsVpccExtension (asps : AtlasSequenceParameterSetRbsp) (ext : AspsVpccExtension) :
    Writer Unit := do
  writeFlag ext.removeDuplicatePointEnableFlag
  Writer.when (asps.pixelDeinterleavingFlag || asps.plrEnabledFlag)
    (write ext.surfaceThicknessMinus1 7)

/-- `moreRbspData` is always false, so no extension data follows the extension bits. -/
def atlasSequenceParameterSetRbsp (asps : AtlasSequenceParameterSetRbsp) : Writer Unit := do
  writeUvlc asps.atlasSequenceParameterSetId
  writeUvlc asps.frameWidth
  writeUvlc asps.frameHeight
  write asps.geometry3dBitdepthMinus1 5
  write asps.geometry2dBitdepthMinus1 5
  writeUvlc asps.log2MaxAtlasFrameOrderCntLsbMinus4
  writeUvlc asps.maxDecAtlasFrameBufferingMinus1
  writeFlag asps.longTermRefAtlasFramesFlag
  writeUvlc asps.numRefAtlasFrameListsInAsps
  Writer.forEach (List.range asps.numRefAtlasFrameListsInAsps) fun i => do
    let refList ← Writer.ofOption asps.refListStruct[i]?
    refListStruct asps.longTermRefAtlasFramesFlag asps.log2MaxAtlasFrameOrderCntLsbMinus4 refList
  writeFlag asps.useEightOrientationsFlag
  writeFlag asps.extendedProjectionEnabledFlag
  Writer.when asps.extendedProjectionEnabledFlag (writeUvlc asps.maxNumberProjectionsMinus1)
  writeFlag asps.normalAxisLimitsQuantizationEnabledFlag
  writeFlag asps.normalAxisMaxDeltaValueEnabledFlag
  writeFlag asps.patchPrecedenceOrderFlag
  write asps.log2PatchPackingBlockSize 3
  writeFlag asps.patchSizeQuantizerPresentFlag
  write asps.mapCountMinus1 4
  writeFlag asps.pixelDeinterleavingFlag
  Writer.when asps.pixelDeinterleavingFlag
    (Writer.forEach (List.range (asps.mapCountMinus1 + 1)) fun i => do
      let flag ← Writer.ofOption asps.pixelDeinterleavingMapFlag[i]?
      writeFlag flag)
  writeFlag asps.rawPatchEnabledFlag
  writeFlag asps.eomPatchEnabledFlag
  Writer.when (asps.eomPatchEnabledFlag && asps.mapCountMinus1 == 0)
    (write asps.eomFixBitCountMinus1 4)
  Writer.when (asps.rawPatchEnabledFlag || asps.eomPatchEnabledFlag)
    (writeFlag asps.auxiliaryVideoEnabledFlag)
  writeFlag asps.plrEnabledFlag
  Writer.when asps.plrEnabledFlag (plrInformation asps)
  writeFlag asps.vuiParametersPresentFlag
  Writer.when asps.vuiParametersPresentFlag (vuiParameters asps.vuiParameters)
  writeFlag asps.extensionFlag
  Writer.when asps.extensionFlag do
    writeFlag asps.vpccExtensionFlag
    write asps.extension7Bits 7
  Writer.when asps.vpccExtensionFlag (aspsVpccExtension asps asps.aspsVpccExtension)
  byteAlignment

/-- A size of a partition per iteration, `n` of them. -/
def partitionSizes (sizes : List ℕ) (n : ℕ) : Writer Unit :=
  Writer.forEach (List.range n) fun i => do
    let size ← Writer.ofOption sizes[i]?
    writeUvlc size

/-- The iteration for a tile that is made of partitions. -/
def signalledTile (afti : AtlasFrameTileInformation) (i : ℕ) : Writer Unit := do
  let topLeft ← Writer.ofOption afti.topLeftPartitionIdx[i]?
  write topLeft (toUInt8 (ceilLog2 (PCCBitstreamReader.numPartitions afti)))
  let column ← Writer.ofOption afti.bottomRightPartitionColumnOffset[i]?
  writeUvlc column
  let row ← Writer.ofOption afti.bottomRightPartitionRowOffset[i]?
  writeUvlc row

/-- The widths and heights of the partitions: the first ones, or all but the last ones. -/
def partitionSpacing (afti : AtlasFrameTileInformation) : Writer Unit :=
  if afti.uniformPartitionSpacingFlag then do
    let width ← Writer.ofOption afti.partitionColumnWidthMinus1[0]?
    writeUvlc width
    let height ← Writer.ofOption afti.partitionRowHeightMinus1[0]?
    writeUvlc height
  else do
    writeUvlc afti.numPartitionColumnsMinus1
    writeUvlc afti.numPartitionRowsMinus1
    partitionSizes afti.partitionColumnWidthMinus1 afti.numPartitionColumnsMinus1
    partitionSizes afti.partitionRowHeightMinus1 afti.numPartitionRowsMinus1

/-- The branch of `atlasFrameTileInformation` for more than one tile. -/
def tilePartitions (afti : AtlasFrameTileInformation) : Writer Unit := do
  writeFlag afti.uniformPartitionSpacingFlag
  partitionSpacing afti
  write afti.singlePartitionPerTileFlag 1
  Writer.when (afti.singlePartitionPerTileFlag == 0) do
    writeUvlc afti.numTilesInAtlasFrameMinus1
    Writer.forEach (List.range (afti.numTilesInAtlasFrameMinus1 + 1)) (signalledTile afti)

def auxiliaryVideoTiles (afti : AtlasFrameTileInformation) : Writer Unit := do
  writeUvlc afti.auxiliaryVideoTileRowWidthMinus1
  Writer.forEach (List.range (afti.numTilesInAtlasFrameMinus1 + 1)) fun i => do
    let height ← Writer.ofOption (afti.getAuxiliaryVideoTileRowHeight i)
    writeUvlc height

def signalledTileIds (afti : AtlasFrameTileInformation) : Writer Unit := do
  writeUvlc afti.signalledTileIdLengthMinus1
  Writer.forEach (List.range (afti.numTilesInAtlasFrameMinus1 + 1)) fun i => do
    let id ← Writer.ofOption afti.tileId[i]?
    write id ((afti.signalledTileIdLengthMinus1 + 1) % 2 ^ 8)

def atlasFrameTileInformation (afti : AtlasFrameTileInformation)
    (asps : AtlasSequenceParameterSetRbsp) : Writer Unit := do
  writeFlag afti.singleTileInAtlasFrameFlag
  Writer.when (!afti.singleTileInAtlasFrameFlag) (tilePartitions afti)
  Writer.when asps.auxiliaryVideoEnabledFlag (auxiliaryVideoTiles afti)
  writeFlag afti.signalledTileIdFlag
  Writer.when afti.signalledTileIdFlag (signalledTileIds afti)

def atlasFrameParameterSetRbsp (afps : AtlasFrameParameterSetRbsp)
    (sets : ℕ → Option AtlasSequenceParameterSetRbsp) : Writer Unit := do
  writeUvlc afps.atlasFrameParameterSetId
  writeUvlc afps.atlasSequenceParameterSetId
  let asps ← Writer.ofOption (sets afps.atlasSequenceParameterSetId)
  atlasFrameTileInformation afps.atlasFrameTileInformation asps
  writeFlag afps.outputFlagPresentFlag
  writeUvlc afps.numRefIdxDefaultActiveMinus1
  writeUvlc afps.additionalLtAfocLsbLen
  writeFlag afps.lodModeEnableFlag
  writeFlag afps.raw3dOffsetBitCountExplicitModeFlag
  writeFlag afps.extensionFlag
  Writer.when afps.extensionFlag (write afps.extension8Bits 8)
  byteAlignment

end PCCBitstreamWriter

end V3C

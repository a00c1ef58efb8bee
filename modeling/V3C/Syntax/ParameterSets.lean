import V3C.Bitstream.Fields
import V3C.Common.Integer

/-! Atlas sequence and frame parameter sets. Default values are those of the
constructors; a vector that `allocate` keeps in step with a count is a list. -/
namespace V3C

structure RefListEntry where
  absDeltaAfocSt : ℕ := 0
  afocLsbLt : ℕ := 0
  stRefAtlasFrameFlag : Bool := false
  strafEntrySignFlag : Bool := false

structure RefListStruct where
  entries : List RefListEntry := []

def RefListStruct.numRefEntries (rls : RefListStruct) : ℕ := rls.entries.length

structure PLRMode where
  interpolateFlag : Bool := false
  fillingFlag : Bool := false
  minimumDepth : ℕ := 0
  neighbourMinus1 : ℕ := 0

structure PLRInformation where
  mapEnabledFlag : Bool := false
  numberOfModesMinus1 : ℕ := 0
  modes : List PLRMode := []
  blockThresholdPerPatchMinus1 : ℕ := 0

structure HrdSubLayerParameters where
  bitRateValueMinus1 : List ℕ := []
  cabSizeValueMinus1 : List ℕ := []
  cbrFlag : List Bool := []

/-- The constructor resizes every vector to `maxNumSubLayersMinus1_`, which is zero. -/
structure HrdParameters where
  maxNumSubLayersMinus1 : ℕ := 0
  nalParametersPresentFlag : Bool := false
  aclParametersPresentFlag : Bool := false
  bitRateScale : ℕ := 0
  cabSizeScale : ℕ := 0
  fixedAtlasRateGeneralFlag : List Bool := []
  fixedAtlasRateWithinCasFlag : List Bool := []
  elementalDurationInTcMinus1 : List Bool := []
  lowDelayFlag : List Bool := []
  cabCntMinus1 : List ℕ := []
  nalSubLayerParameters : List HrdSubLayerParameters := []
  aclSubLayerParameters : List HrdSubLayerParameters := []

structure MaxCodedVideoResolution where
  occupancyResolutionPresentFlag : Bool := false
  geometryResolutionPresentFlag : Bool := false
  attributeResolutionPresentFlag : Bool := false
  occupancyWidth : ℕ := 0
  occupancyHeight : ℕ := 0
  geometryWidth : ℕ := 0
  geometryHeight : ℕ := 0
  attributeWidth : ℕ := 0
  attributeHeight : ℕ := 0

structure CoordinateSystemParameters where
  forwardAxis : ℕ := 0
  deltaLeftAxis : ℕ := 0
  forwardSign : ℕ := 0
  leftSign : ℕ := 0
  upSign : ℕ := 0

/-- `anchorPoint` holds the floats converted to `uint32_t`, as they are written. -/
structure VUIParameters where
  timingInfoPresentFlag : Bool := false
  numUnitsInTick : ℕ := 1001
  timeScale : ℕ := 60000
  pocProportionalToTimingFlag : Bool := false
  numTicksPocDiffOneMinus1 : ℕ := 0
  hrdParametersPresentFlag : Bool := false
  tileRestrictionsPresentFlag : Bool := false
  fixedAtlasTileStructureFlag : Bool := false
  fixedVideoTileStructureFlag : Bool := false
  constrainedTilesAcrossV3cComponentsIdc : ℕ := 0
  maxNumTilesPerAtlasMinus1 : ℕ := 0
  maxCodedVideoResolutionPresentFlag : Bool := false
  coordinateSystemParametersPresentFlag : Bool := false
  unitInMetresFlag : Bool := false
  displayBoxInfoPresentFlag : Bool := false
  displayBoxOrigin : List ℕ := [0, 0, 0]
  displayBoxSize : List ℕ := [0, 0, 0]
  anchorPointPresentFlag : Bool := false
  anchorPoint : List ℕ := [0, 0, 0]
  hrdParameters : HrdParameters := {}
  coordinateSystemParameters : CoordinateSystemParameters := {}
  maxCodedVideoResolution : MaxCodedVideoResolution := {}

structure AspsVpccExtension where
  removeDuplicatePointEnableFlag : Bool := false
  surfaceThicknessMinus1 : ℕ := 0

structure AtlasSequenceParameterSetRbsp where
  atlasSequenceParameterSetId : ℕ := 0
  frameWidth : ℕ := 0
  frameHeight : ℕ := 0
  geometry2dBitdepthMinus1 : ℕ := 0
  geometry3dBitdepthMinus1 : ℕ := 0
  log2MaxAtlasFrameOrderCntLsbMinus4 : ℕ := 4
  maxDecAtlasFrameBufferingMinus1 : ℕ := 0
  longTermRefAtlasFramesFlag : Bool := false
  numRefAtlasFrameListsInAsps : ℕ := 0
  refListStruct : List RefListStruct := []
  useEightOrientationsFlag : Bool := false
  extendedProjectionEnabledFlag : Bool := false
  maxNumberProjectionsMinus1 : ℕ := 5
  normalAxisLimitsQuantizationEnabledFlag : Bool := true
  normalAxisMaxDeltaValueEnabledFlag : Bool := false
  patchPrecedenceOrderFlag : Bool := false
  log2PatchPackingBlockSize : ℕ := 0
  patchSizeQuantizerPresentFlag : Bool := false
  mapCountMinus1 : ℕ := 0
  pixelDeinterleavingFlag : Bool := false
  pixelDeinterleavingMapFlag : List Bool := []
  eomPatchEnabledFlag : Bool := false
  eomFixBitCountMinus1 : ℕ := 0
  rawPatchEnabledFlag : Bool := false
  auxiliaryVideoEnabledFlag : Bool := false
  plrEnabledFlag : Bool := false
  plrInformation : List PLRInformation := []
  vuiParametersPresentFlag : Bool := false
  extensionFlag : Bool := false
  vpccExtensionFlag : Bool := false
  extension7Bits : ℕ := 0
  vuiParameters : VUIParameters := {}
  aspsVpccExtension : AspsVpccExtension := {}

structure AtlasFrameTileInformation where
  singleTileInAtlasFrameFlag : Bool := false
  uniformPartitionSpacingFlag : Bool := true
  numPartitionColumnsMinus1 : ℕ := 0
  numPartitionRowsMinus1 : ℕ := 0
  singlePartitionPerTileFlag : ℕ := 0
  numTilesInAtlasFrameMinus1 : ℕ := 0
  signalledTileIdFlag : Bool := false
  signalledTileIdLengthMinus1 : ℕ := 0
  partitionColumnWidthMinus1 : List ℕ := [0]
  partitionRowHeightMinus1 : List ℕ := [0]
  topLeftPartitionIdx : List ℕ := [0]
  bottomRightPartitionColumnOffset : List ℕ := [0]
  bottomRightPartitionRowOffset : List ℕ := [0]
  tileId : List ℕ := [0]
  auxiliaryVideoTileRowWidthMinus1 : ℕ := 0
  auxiliaryVideoTileRowHeight : List ℕ := []

/-- `getAuxiliaryVideoTileRowHeight`: zero without heights, out of bounds past the last. -/
def AtlasFrameTileInformation.getAuxiliaryVideoTileRowHeight (afti : AtlasFrameTileInformation)
    (index : ℕ) : Option ℕ :=
  if afti.auxiliaryVideoTileRowHeight.length = 0 then some 0
  else afti.auxiliaryVideoTileRowHeight[index]?

structure AtlasFrameParameterSetRbsp where
  atlasFrameParameterSetId : ℕ := 0
  atlasSequenceParameterSetId : ℕ := 0
  atlasFrameTileInformation : AtlasFrameTileInformation := {}
  outputFlagPresentFlag : Bool := false
  numRefIdxDefaultActiveMinus1 : ℕ := 0
  additionalLtAfocLsbLen : ℕ := 0
  lodModeEnableFlag : Bool := false
  raw3dOffsetBitCountExplicitModeFlag : Bool := false
  extensionFlag : Bool := false
  extension8Bits : ℕ := 0

end V3C

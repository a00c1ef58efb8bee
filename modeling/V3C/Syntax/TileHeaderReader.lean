import V3C.Syntax.ParameterSetReader

/-! The parsing of what refers to parameter sets: atlas frame parameter sets and tile
headers. Which set an id stands for is a parameter. -/
namespace V3C
open Codec

/-- What the ids stand for. -/
structure ActiveSets where
  asps : ℕ → Option AtlasSequenceParameterSetRbsp
  afps : ℕ → Option AtlasFrameParameterSetRbsp

namespace PCCBitstreamReader

/-- `ceil( size / ( ( minus1 + 1 ) * 64.0 ) ) - 1`. A negative value has no conversion to
`uint32_t`. -/
def numPartitionsMinus1 (size minus1 : ℕ) : Option ℕ :=
  if size = 0 then none else some ((size - 1) / ((minus1 + 1) * 64))

/-- `resize( std::max( 1, n ), 0 )`. -/
def resizePartitions (sizes : List ℕ) (n : ℕ) : List ℕ :=
  (sizes ++ List.replicate (max 1 n) 0).take (max 1 n)

def uniformPartitions (asps : AtlasSequenceParameterSetRbsp) (afti : AtlasFrameTileInformation) :
    Reader AtlasFrameTileInformation := do
  let width ← readUvlc
  let height ← readUvlc
  let columns ← Reader.ofOption (numPartitionsMinus1 asps.frameWidth width)
  let rows ← Reader.ofOption (numPartitionsMinus1 asps.frameHeight height)
  pure { afti with
    numPartitionColumnsMinus1 := columns
    numPartitionRowsMinus1 := rows
    partitionColumnWidthMinus1 := resizePartitions [width] columns
    partitionRowHeightMinus1 := resizePartitions [height] rows }

/-- The loops leave the one element that `resize` keeps when they have no iteration. -/
def explicitPartitions (afti : AtlasFrameTileInformation) : Reader AtlasFrameTileInformation := do
  let columns ← readUvlc
  let rows ← readUvlc
  let widths ← Reader.repeatFrom 0 columns fun _ => readUvlc
  let heights ← Reader.repeatFrom 0 rows fun _ => readUvlc
  pure { afti with
    numPartitionColumnsMinus1 := columns
    numPartitionRowsMinus1 := rows
    partitionColumnWidthMinus1 := resizePartitions widths columns
    partitionRowHeightMinus1 := resizePartitions heights rows }

/-- The number of partitions, in a `uint32_t`. -/
def numPartitions (afti : AtlasFrameTileInformation) : ℕ :=
  (afti.numPartitionColumnsMinus1 + 1) * (afti.numPartitionRowsMinus1 + 1) % 2 ^ 32

def signalledTiles (afti : AtlasFrameTileInformation) : Reader AtlasFrameTileInformation := do
  let numTilesInAtlasFrameMinus1 ← readUvlc
  let tiles ← Reader.repeatFrom 0 (numTilesInAtlasFrameMinus1 + 1) fun _ => do
    let topLeft ← read (toUInt8 (ceilLog2 (numPartitions afti)))
    let column ← readUvlc
    let row ← readUvlc
    pure (topLeft, column, row)
  pure { afti with
    numTilesInAtlasFrameMinus1
    topLeftPartitionIdx := tiles.map fun (topLeft, _, _) => topLeft
    bottomRightPartitionColumnOffset := tiles.map fun (_, column, _) => column
    bottomRightPartitionRowOffset := tiles.map fun (_, _, row) => row }

def partitionTiles (afti : AtlasFrameTileInformation) : AtlasFrameTileInformation :=
  let numTilesInAtlasFrameMinus1 := (numPartitions afti + 2 ^ 32 - 1) % 2 ^ 32
  { afti with
    numTilesInAtlasFrameMinus1
    topLeftPartitionIdx := List.range (numTilesInAtlasFrameMinus1 + 1)
    bottomRightPartitionColumnOffset := List.replicate (numTilesInAtlasFrameMinus1 + 1) 0
    bottomRightPartitionRowOffset := List.replicate (numTilesInAtlasFrameMinus1 + 1) 0 }

/-- The branch of `atlasFrameTileInformation` for more than one tile. -/
def tilePartitions (asps : AtlasSequenceParameterSetRbsp) : Reader AtlasFrameTileInformation := do
  let uniformPartitionSpacingFlag ← readFlag
  let afti ←
    if uniformPartitionSpacingFlag then
      uniformPartitions asps { uniformPartitionSpacingFlag }
    else explicitPartitions { uniformPartitionSpacingFlag }
  let singlePartitionPerTileFlag ← read 1
  let afti := { afti with singlePartitionPerTileFlag }
  if singlePartitionPerTileFlag = 0 then signalledTiles afti else pure (partitionTiles afti)

def atlasFrameTileInformation (asps : AtlasSequenceParameterSetRbsp) :
    Reader AtlasFrameTileInformation := do
  let singleTileInAtlasFrameFlag ← readFlag
  let afti ← Reader.whenElse (!singleTileInAtlasFrameFlag) (tilePartitions asps) {}
  let tiles := afti.numTilesInAtlasFrameMinus1 + 1
  let width ← Reader.whenElse asps.auxiliaryVideoEnabledFlag readUvlc 0
  let heights ← Reader.whenElse asps.auxiliaryVideoEnabledFlag
    (Reader.repeatFrom 0 tiles fun _ => readUvlc) []
  let signalledTileIdFlag ← readFlag
  let length ← Reader.whenElse signalledTileIdFlag readUvlc 0
  let ids ← Reader.whenElse signalledTileIdFlag
    (Reader.repeatFrom 0 tiles fun _ => read ((length + 1) % 2 ^ 8)) (List.range tiles)
  pure { afti with
    singleTileInAtlasFrameFlag
    auxiliaryVideoTileRowWidthMinus1 := width
    auxiliaryVideoTileRowHeight := heights
    signalledTileIdFlag
    signalledTileIdLengthMinus1 := length
    tileId := ids }

/-- The rest of `atlasFrameParameterSetRbsp`, behind the two ids. -/
def atlasFrameParameterSetBody (atlasFrameParameterSetId atlasSequenceParameterSetId : ℕ)
    (asps : AtlasSequenceParameterSetRbsp) : Reader AtlasFrameParameterSetRbsp := do
  let atlasFrameTileInformation ← atlasFrameTileInformation asps
  let outputFlagPresentFlag ← readFlag
  let numRefIdxDefaultActiveMinus1 ← readUvlc8
  let additionalLtAfocLsbLen ← readUvlc8
  let lodModeEnableFlag ← readFlag
  let raw3dOffsetBitCountExplicitModeFlag ← readFlag
  let extensionFlag ← readFlag
  let extension8Bits ← Reader.whenElse extensionFlag (read 8) 0
  rbspTrailingBits
  pure {
    atlasFrameParameterSetId, atlasSequenceParameterSetId, atlasFrameTileInformation
    outputFlagPresentFlag, numRefIdxDefaultActiveMinus1, additionalLtAfocLsbLen
    lodModeEnableFlag, raw3dOffsetBitCountExplicitModeFlag, extensionFlag, extension8Bits }

def atlasFrameParameterSetRbsp (sets : ActiveSets) :
    Reader (AtlasFrameParameterSetRbsp × AtlasSequenceParameterSetRbsp) := do
  let atlasFrameParameterSetId ← readUvlc8
  let atlasSequenceParameterSetId ← readUvlc8
  let asps ← Reader.ofOption (sets.asps atlasSequenceParameterSetId)
  let afps ← atlasFrameParameterSetBody atlasFrameParameterSetId atlasSequenceParameterSetId asps
  pure (afps, asps)

/-- The id of a tile, whose bits depend on the tiles of the frame. -/
def tileHeaderId (afti : AtlasFrameTileInformation) : Reader ℕ :=
  if afti.signalledTileIdFlag then read ((afti.signalledTileIdLengthMinus1 + 1) % 2 ^ 8)
  else if afti.numTilesInAtlasFrameMinus1 ≠ 0 then
    read (toUInt8 (ceilLog2 ((afti.numTilesInAtlasFrameMinus1 + 1) % 2 ^ 32)))
  else pure 0

/-- The reference list of a tile header and its index, `none` for a list of its own. -/
def tileHeaderRefList (asps : AtlasSequenceParameterSetRbsp) :
    Reader (Option ℕ × RefListStruct) := do
  let spsFlag ← Reader.whenElse (0 < asps.numRefAtlasFrameListsInAsps) readFlag false
  if spsFlag then do
    let idx ← Reader.whenElse (1 < asps.numRefAtlasFrameListsInAsps)
      (read (toUInt8 (ceilLog2 asps.numRefAtlasFrameListsInAsps))) 0
    let refList ← Reader.ofOption asps.refListStruct[idx % 2 ^ 8]?
    pure (some (idx % 2 ^ 8), refList)
  else do
    let refList ←
      refListStruct asps.longTermRefAtlasFramesFlag asps.log2MaxAtlasFrameOrderCntLsbMinus4
    pure (none, refList)

/-- The vectors of a tile header hold one entry. -/
def additionalAfocLsb (afps : AtlasFrameParameterSetRbsp) (refList : RefListStruct) :
    Reader (List Bool × List ℕ) := do
  let numLtrAtlasFrmEntries := (refList.entries.filter fun e => !e.stRefAtlasFrameFlag).length
  let entries ← Reader.repeatFrom 0 numLtrAtlasFrmEntries fun j => do
    let present ← readFlag
    let _ ← Reader.ofOption (if j = 0 then some () else none)
    let value ← Reader.whenElse present (read afps.additionalLtAfocLsbLen) 0
    pure (present, value % 2 ^ 8)
  if entries = [] then pure ([false], [0])
  else pure (entries.map Prod.fst, entries.map Prod.snd)

/-- `std::max( 0, geometry3d - geometry2d ) - 1`, as a `uint8_t`. -/
def raw3dOffsetBitCountMinus1 (asps : AtlasSequenceParameterSetRbsp) : ℕ :=
  toUInt8 (max 0 (asps.geometry3dBitdepthMinus1 - asps.geometry2dBitdepthMinus1 : ℤ) - 1)

/-- The fields of a tile header that a skip tile leaves out. -/
def tileHeaderQuantizers (asps : AtlasSequenceParameterSetRbsp)
    (afps : AtlasFrameParameterSetRbsp) (refList : RefListStruct) (ath : AtlasTileHeader) :
    Reader AtlasTileHeader := do
  let posMinDQuantizer ←
    Reader.whenElse asps.normalAxisLimitsQuantizationEnabledFlag (read 5) 0
  let posDeltaMaxDQuantizer ← Reader.whenElse (asps.normalAxisLimitsQuantizationEnabledFlag &&
    asps.normalAxisMaxDeltaValueEnabledFlag) (read 5) 0
  let patchSizeXinfoQuantizer ← Reader.whenElse asps.patchSizeQuantizerPresentFlag (read 3) 0
  let patchSizeYinfoQuantizer ← Reader.whenElse asps.patchSizeQuantizerPresentFlag (read 3) 0
  let raw3dOffsetAxisBitCountMinus1 ←
    Reader.whenElse afps.raw3dOffsetBitCountExplicitModeFlag
      (read (toUInt8 (floorLog2 (asps.geometry3dBitdepthMinus1 + 1))))
      (raw3dOffsetBitCountMinus1 asps)
  let overridable := decide (ath.type = .pTile ∧ 1 < refList.numRefEntries)
  let numRefIdxActiveOverrideFlag ← Reader.whenElse overridable readFlag false
  let numRefIdxActiveMinus1 ← Reader.whenElse numRefIdxActiveOverrideFlag readUvlc8 0
  pure { ath with
    posMinDQuantizer, posDeltaMaxDQuantizer, patchSizeXinfoQuantizer, patchSizeYinfoQuantizer
    raw3dOffsetAxisBitCountMinus1, numRefIdxActiveOverrideFlag, numRefIdxActiveMinus1 }

/-- The rest of `atlasTileHeader`, behind the two ids. -/
def atlasTileHeaderBody (ath : AtlasTileHeader) (afps : AtlasFrameParameterSetRbsp)
    (asps : AtlasSequenceParameterSetRbsp) : Reader AtlasTileHeader := do
  let id ← tileHeaderId afps.atlasFrameTileInformation
  let type ← readUvlc
  let atlasOutputFlag ← Reader.whenElse afps.outputFlagPresentFlag readFlag false
  let atlasFrmOrderCntLsb ← read ((asps.log2MaxAtlasFrameOrderCntLsbMinus4 + 4) % 2 ^ 8)
  let (idx, refList) ← tileHeaderRefList asps
  let (additionalAfocLsbPresentFlag, additionalAfocLsbVal) ← additionalAfocLsb afps refList
  let ath := { ath with
    id
    type := PCCTileType.ofNat type
    atlasOutputFlag, atlasFrmOrderCntLsb
    refAtlasFrameListSpsFlag := idx.isSome
    refAtlasFrameListIdx := idx.getD 0
    refListStruct := refList
    additionalAfocLsbPresentFlag, additionalAfocLsbVal }
  let ath ← Reader.whenElse (ath.type ≠ .skipTile) (tileHeaderQuantizers asps afps refList ath) ath
  rbspTrailingBits
  pure ath

/-- The tile header, and the parameter sets it was parsed with. -/
def atlasTileHeader (sets : ActiveSets) (nalUnitType : ℕ) :
    Reader (AtlasTileHeader × AtlasFrameParameterSetRbsp × AtlasSequenceParameterSetRbsp) := do
  let noOutputOfPriorAtlasFramesFlag ← Reader.whenElse (isIrap nalUnitType) readFlag false
  let atlasFrameParameterSetId ← readUvlc8
  let atlasAdaptationParameterSetId ← readUvlc8
  let afps ← Reader.ofOption (sets.afps atlasFrameParameterSetId)
  let asps ← Reader.ofOption (sets.asps afps.atlasSequenceParameterSetId)
  let tileNaluTypeInfo :=
    if nalUnitType = NAL_TRAIL_R then 1 else if nalUnitType = NAL_TRAIL_N then 2 else 0
  let ath : AtlasTileHeader := {
    noOutputOfPriorAtlasFramesFlag, atlasFrameParameterSetId, atlasAdaptationParameterSetId
    tileNaluTypeInfo }
  let ath ← atlasTileHeaderBody ath afps asps
  pure (ath, afps, asps)

end PCCBitstreamReader

end V3C

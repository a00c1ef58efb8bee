import V3C.Syntax.ParameterSetReader
import V3C.Syntax.V3CParameterSet

/-! The parsing of the V3C parameter set. Several setters take a `bool`, which keeps of a
number only whether it is zero. -/
namespace V3C
open Codec

/-- The conversion of a number to `bool`, and back to a number. -/
def viaBool (n : ℕ) : ℕ := if n = 0 then 0 else 1

namespace PCCBitstreamReader

def profileToolsetConstraintsInformation : Reader ProfileToolsetConstraintsInformation := do
  let oneFrameOnlyFlag ← readFlag
  let eomContraintFlag ← readFlag
  let maxMapCountMinus1 ← read 4
  let maxAtlasCountMinus1 ← read 4
  let multipleMapStreamsConstraintFlag ← readFlag
  let plrConstraintFlag ← readFlag
  let attributeMaxDimensionMinus1 ← read 6
  let attributeMaxDimensionPartitionsMinus1 ← read 6
  let noEightOrientationsConstraintFlag ← readFlag
  let no45DegreeProjectionPatchConstraintFlag ← readFlag
  let _ ← read 6
  let numReservedConstraintBytes ← read 8
  let reservedConstraintByte ← Reader.repeatFrom 0 (viaBool numReservedConstraintBytes) fun _ => do
    let byte ← read 8
    pure (viaBool byte)
  pure {
    oneFrameOnlyFlag, eomContraintFlag
    maxMapCountMinus1 := viaBool maxMapCountMinus1
    maxAtlasCountMinus1 := viaBool maxAtlasCountMinus1
    multipleMapStreamsConstraintFlag, plrConstraintFlag
    attributeMaxDimensionMinus1 := viaBool attributeMaxDimensionMinus1
    attributeMaxDimensionPartitionsMinus1 := viaBool attributeMaxDimensionPartitionsMinus1
    noEightOrientationsConstraintFlag, no45DegreeProjectionPatchConstraintFlag
    reservedConstraintByte }

def profileTierLevel : Reader ProfileTierLevel := do
  let tierFlag ← readFlag
  let profileCodecGroupIdc ← read 7
  let profileToolsetIdc ← read 8
  let profileReconstructionIdc ← read 8
  let _ ← read 16
  let _ ← read 16
  let levelIdc ← read 8
  let numSubProfiles ← read 6
  let extendedSubProfileFlag ← readFlag
  let subProfileIdc ← Reader.repeatFrom 0 numSubProfiles fun _ => do
    let idc ← read (if extendedSubProfileFlag then 64 else 32)
    pure (idc % 2 ^ 8)
  let toolConstraintsPresentFlag ← readFlag
  let profileToolsetConstraintsInformation ←
    Reader.whenElse toolConstraintsPresentFlag profileToolsetConstraintsInformation {}
  pure {
    tierFlag, profileCodecGroupIdc, profileToolsetIdc, profileReconstructionIdc, levelIdc
    extendedSubProfileFlag, toolConstraintsPresentFlag, subProfileIdc
    profileToolsetConstraintsInformation }

def occupancyInformation : Reader OccupancyInformation := do
  let occupancyCodecId ← read 8
  let lossyOccupancyCompressionThreshold ← read 8
  let occupancy2DBitdepthMinus1 ← read 5
  let occupancyMSBAlignFlag ← readFlag
  pure {
    occupancyCodecId, lossyOccupancyCompressionThreshold, occupancy2DBitdepthMinus1
    occupancyMSBAlignFlag }

def geometryInformation (auxiliary : Bool) : Reader GeometryInformation := do
  let geometryCodecId ← read 8
  let geometry2dBitdepthMinus1 ← read 5
  let geometryMSBAlignFlag ← readFlag
  let geometry3dCoordinatesBitdepthMinus1 ← read 5
  let auxiliaryGeometryCodecId ← Reader.whenElse auxiliary (read 8) 0
  pure {
    geometryCodecId, geometry2dBitdepthMinus1, geometryMSBAlignFlag
    geometry3dCoordinatesBitdepthMinus1, auxiliaryGeometryCodecId }

/-- The loop over the partitions with `n` of them left before the last, which has what
remains. -/
def attributePartitions : ℕ → ℤ → Reader (List ℕ)
  | 0, remainingDimensions => pure [toUInt8 remainingDimensions]
  | n + 1, remainingDimensions => do
    let channels ← Reader.whenElse ((n + 1 : ℕ) ≠ remainingDimensions) readUvlc8 0
    let rest ← attributePartitions n (remainingDimensions - (channels + 1))
    pure (channels :: rest)

def vpsAttribute (auxiliary : Bool) (mapCountMinus1 : ℕ) : Reader Attribute := do
  let attributeTypeId ← read 4
  let attributeCodecId ← read 8
  let auxiliaryAttributeCodecId ← Reader.whenElse auxiliary (read 8) 0
  let attributeMapAbsoluteCodingPersistenceFlag ←
    Reader.whenElse (0 < mapCountMinus1) readFlag true
  let attributeDimensionMinus1 ← read 6
  let (attributeDimensionPartitionsMinus1, attributePartitionChannelsMinus1) ←
    Reader.whenElse (0 < attributeDimensionMinus1) (do
      let k ← read 6
      let channels ← attributePartitions k attributeDimensionMinus1
      pure (k, channels)) (0, [])
  let attribute2dBitdepthMinus1 ← read 5
  let attributeMSBAlignFlag ← readFlag
  pure {
    attributeTypeId, attributeCodecId, auxiliaryAttributeCodecId
    attributeMapAbsoluteCodingPersistenceFlag, attributeDimensionMinus1
    attributeDimensionPartitionsMinus1, attributePartitionChannelsMinus1
    attribute2dBitdepthMinus1, attributeMSBAlignFlag }

def attributeInformation (auxiliary : Bool) (mapCountMinus1 : ℕ) : Reader (List Attribute) := do
  let attributeCount ← read 7
  Reader.repeatFrom 0 attributeCount fun _ => vpsAttribute auxiliary mapCountMinus1

/-- One map but the first: its flag and its predictor difference. -/
def vpsMap (multipleMapStreamsPresentFlag : Bool) : Reader (Bool × ℕ) := do
  let absolute ← Reader.whenElse multipleMapStreamsPresentFlag readFlag true
  let diff ← Reader.whenElse (!absolute) readUvlc 0
  pure (absolute, viaBool diff)

/-- An atlas. The first one is coded by its own flag and count. -/
def vpsAtlas (first : Option VpsAtlas) : Reader VpsAtlas := do
  let atlasId ← read 6
  let frameWidth ← readUvlc16
  let frameHeight ← readUvlc16
  let mapCountMinus1 ← read 4
  let multipleMapStreamsPresentFlag ← Reader.whenElse (0 < mapCountMinus1) readFlag false
  let maps ← Reader.repeatFrom 0 mapCountMinus1 fun _ => vpsMap multipleMapStreamsPresentFlag
  let auxiliaryVideoPresentFlag ← readFlag
  let occupancyVideoPresentFlag ← readFlag
  let geometryVideoPresentFlag ← readFlag
  let attributeVideoPresentFlag ← readFlag
  let auxiliary := (first.map VpsAtlas.auxiliaryVideoPresentFlag).getD auxiliaryVideoPresentFlag
  let mapCount := (first.map VpsAtlas.mapCountMinus1).getD mapCountMinus1
  let occupancyInformation ←
    Reader.whenElse occupancyVideoPresentFlag occupancyInformation {}
  let geometryInformation ←
    Reader.whenElse geometryVideoPresentFlag (geometryInformation auxiliary) {}
  let attributeInformation ←
    Reader.whenElse attributeVideoPresentFlag (attributeInformation auxiliary mapCount) []
  pure {
    atlasId, frameWidth, frameHeight, mapCountMinus1, multipleMapStreamsPresentFlag
    mapAbsoluteCodingEnableFlag := true :: maps.map Prod.fst
    mapPredictorIndexDiff := 0 :: maps.map Prod.snd
    auxiliaryVideoPresentFlag, occupancyVideoPresentFlag, geometryVideoPresentFlag
    attributeVideoPresentFlag, occupancyInformation, geometryInformation, attributeInformation }

def vpsExtension : Reader (ℕ × List ℕ) := do
  let extensionLengthMinus1 ← readUvlc
  let extensionDataByte ← Reader.repeatFrom 0 (extensionLengthMinus1 + 1) fun _ => read 8
  pure (extensionLengthMinus1, extensionDataByte)

def v3cParameterSet : Reader V3CParameterSet := do
  let profileTierLevel ← profileTierLevel
  let v3cParameterSetId ← read 4
  let _ ← read 8
  let atlasCountMinus1 ← read 6
  let first ← vpsAtlas none
  let others ← Reader.repeatFrom 1 atlasCountMinus1 fun _ => vpsAtlas (some first)
  let extensionPresentFlag ← readFlag
  let extension8Bits ← Reader.whenElse extensionPresentFlag (read 8) 0
  let (extensionLengthMinus1, extensionDataByte) ←
    Reader.whenElse (extension8Bits != 0) vpsExtension (0, [])
  rbspTrailingBits
  pure {
    profileTierLevel, v3cParameterSetId
    atlases := first :: others
    extensionPresentFlag, extension8Bits, extensionLengthMinus1, extensionDataByte }

end PCCBitstreamReader

end V3C

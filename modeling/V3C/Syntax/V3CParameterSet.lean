import V3C.Bitstream.Fields
import V3C.Common.Integer

/-! The V3C parameter set and its serialization. Default values are those of the
constructors; vectors that `allocateAtlas`, `allocateMap` and `allocate` keep in step with
one count are one list. -/
namespace V3C
open Codec

structure ProfileToolsetConstraintsInformation where
  oneFrameOnlyFlag : Bool := false
  eomContraintFlag : Bool := false
  maxMapCountMinus1 : ℕ := 1
  maxAtlasCountMinus1 : ℕ := 0
  multipleMapStreamsConstraintFlag : Bool := false
  plrConstraintFlag : Bool := false
  attributeMaxDimensionMinus1 : ℕ := 2
  attributeMaxDimensionPartitionsMinus1 : ℕ := 0
  noEightOrientationsConstraintFlag : Bool := true
  no45DegreeProjectionPatchConstraintFlag : Bool := true
  reservedConstraintByte : List ℕ := []
  deriving DecidableEq, Repr

structure ProfileTierLevel where
  tierFlag : Bool := false
  profileCodecGroupIdc : ℕ := 0
  profileToolsetIdc : ℕ := 0
  profileReconstructionIdc : ℕ := 0
  levelIdc : ℕ := 0
  extendedSubProfileFlag : Bool := false
  toolConstraintsPresentFlag : Bool := false
  subProfileIdc : List ℕ := []
  profileToolsetConstraintsInformation : ProfileToolsetConstraintsInformation := {}
  deriving DecidableEq, Repr

structure OccupancyInformation where
  occupancyCodecId : ℕ := 0
  lossyOccupancyCompressionThreshold : ℕ := 0
  occupancy2DBitdepthMinus1 : ℕ := 10
  occupancyMSBAlignFlag : Bool := false
  deriving DecidableEq, Repr

structure GeometryInformation where
  geometryCodecId : ℕ := 0
  geometry2dBitdepthMinus1 : ℕ := 10
  geometryMSBAlignFlag : Bool := false
  geometry3dCoordinatesBitdepthMinus1 : ℕ := 9
  auxiliaryGeometryCodecId : ℕ := 0
  deriving DecidableEq, Repr

structure Attribute where
  attributeTypeId : ℕ := 0
  attributeCodecId : ℕ := 0
  auxiliaryAttributeCodecId : ℕ := 0
  attributeMapAbsoluteCodingPersistenceFlag : Bool := false
  attributeDimensionMinus1 : ℕ := 0
  attributeDimensionPartitionsMinus1 : ℕ := 0
  attributePartitionChannelsMinus1 : List ℕ := []
  attribute2dBitdepthMinus1 : ℕ := 0
  attributeMSBAlignFlag : Bool := false
  deriving DecidableEq, Repr

/-- What a parameter set says of one atlas. -/
structure VpsAtlas where
  atlasId : ℕ := 0
  frameWidth : ℕ := 1
  frameHeight : ℕ := 0
  mapCountMinus1 : ℕ := 0
  multipleMapStreamsPresentFlag : Bool := false
  mapAbsoluteCodingEnableFlag : List Bool := []
  mapPredictorIndexDiff : List ℕ := []
  auxiliaryVideoPresentFlag : Bool := false
  occupancyVideoPresentFlag : Bool := false
  geometryVideoPresentFlag : Bool := false
  attributeVideoPresentFlag : Bool := false
  occupancyInformation : OccupancyInformation := {}
  geometryInformation : GeometryInformation := {}
  attributeInformation : List Attribute := []
  deriving DecidableEq, Repr

structure V3CParameterSet where
  profileTierLevel : ProfileTierLevel := {}
  v3cParameterSetId : ℕ := 0
  atlases : List VpsAtlas := []
  extensionPresentFlag : Bool := false
  extension8Bits : ℕ := 0
  extensionLengthMinus1 : ℕ := 0
  extensionDataByte : List ℕ := []
  deriving DecidableEq, Repr

namespace V3CParameterSet

/-- The auxiliary flag of the atlas of index zero, which every atlas is coded by. -/
def auxiliaryOfFirst (vps : V3CParameterSet) : Option Bool :=
  vps.atlases[0]?.map VpsAtlas.auxiliaryVideoPresentFlag

def mapCountOfFirst (vps : V3CParameterSet) : Option ℕ :=
  vps.atlases[0]?.map VpsAtlas.mapCountMinus1

end V3CParameterSet

namespace PCCBitstreamWriter

/-- A one bit, and zeros up to the next whole byte. -/
def byteAlignment : Writer Unit := do
  write 1 1
  Writer.putAt fun p => List.replicate ((8 - p.val) % 8) false

def profileToolsetConstraintsInformation (ptci : ProfileToolsetConstraintsInformation) :
    Writer Unit := do
  writeFlag ptci.oneFrameOnlyFlag
  writeFlag ptci.eomContraintFlag
  write ptci.maxMapCountMinus1 4
  write ptci.maxAtlasCountMinus1 4
  writeFlag ptci.multipleMapStreamsConstraintFlag
  writeFlag ptci.plrConstraintFlag
  write ptci.attributeMaxDimensionMinus1 6
  write ptci.attributeMaxDimensionPartitionsMinus1 6
  writeFlag ptci.noEightOrientationsConstraintFlag
  writeFlag ptci.no45DegreeProjectionPatchConstraintFlag
  write 0 6
  write ptci.reservedConstraintByte.length 8
  Writer.forEach ptci.reservedConstraintByte fun byte => write byte 8

def profileTierLevel (ptl : ProfileTierLevel) : Writer Unit := do
  writeFlag ptl.tierFlag
  write ptl.profileCodecGroupIdc 7
  write ptl.profileToolsetIdc 8
  write ptl.profileReconstructionIdc 8
  write 0 16
  write 0xFFFF 16
  write ptl.levelIdc 8
  write ptl.subProfileIdc.length 6
  writeFlag ptl.extendedSubProfileFlag
  Writer.forEach ptl.subProfileIdc fun idc =>
    write idc (if ptl.extendedSubProfileFlag then 64 else 32)
  writeFlag ptl.toolConstraintsPresentFlag
  Writer.when ptl.toolConstraintsPresentFlag
    (profileToolsetConstraintsInformation ptl.profileToolsetConstraintsInformation)

def occupancyInformation (oi : OccupancyInformation) : Writer Unit := do
  write oi.occupancyCodecId 8
  write oi.lossyOccupancyCompressionThreshold 8
  write oi.occupancy2DBitdepthMinus1 5
  writeFlag oi.occupancyMSBAlignFlag

def geometryInformation (gi : GeometryInformation) (auxiliary : Bool) : Writer Unit := do
  write gi.geometryCodecId 8
  write gi.geometry2dBitdepthMinus1 5
  writeFlag gi.geometryMSBAlignFlag
  write gi.geometry3dCoordinatesBitdepthMinus1 5
  Writer.when auxiliary (write gi.auxiliaryGeometryCodecId 8)

/-- The loop over the partitions but the last, with `n` of them left. A channel count that the
vector does not have is zero. -/
def attributePartitions : ℕ → List ℕ → ℤ → Writer Unit
  | 0, _, _ => pure ()
  | n + 1, channels, remainingDimensions => do
    Writer.when ((n + 1 : ℕ) ≠ remainingDimensions) (writeUvlc (channels.headD 0))
    attributePartitions n channels.tail (remainingDimensions - (channels.headD 0 + 1))

def vpsAttribute (auxiliary : Bool) (mapCountMinus1 : ℕ) (ai : Attribute) : Writer Unit := do
  write ai.attributeTypeId 4
  write ai.attributeCodecId 8
  Writer.when auxiliary (write ai.auxiliaryAttributeCodecId 8)
  Writer.when (0 < mapCountMinus1) (writeFlag ai.attributeMapAbsoluteCodingPersistenceFlag)
  write ai.attributeDimensionMinus1 6
  Writer.when (0 < ai.attributeDimensionMinus1) do
    write ai.attributeDimensionPartitionsMinus1 6
    attributePartitions ai.attributeDimensionPartitionsMinus1 ai.attributePartitionChannelsMinus1
      ai.attributeDimensionMinus1
  write ai.attribute2dBitdepthMinus1 5
  writeFlag ai.attributeMSBAlignFlag

def attributeInformation (attributes : List Attribute) (auxiliary : Bool) (mapCountMinus1 : ℕ) :
    Writer Unit := do
  write attributes.length 7
  Writer.forEach attributes (vpsAttribute auxiliary mapCountMinus1)

/-- One map but the first. -/
def vpsMap (atlas : VpsAtlas) (i : ℕ) : Writer Unit := do
  let absolute ← Writer.ofOption atlas.mapAbsoluteCodingEnableFlag[i]?
  Writer.when atlas.multipleMapStreamsPresentFlag (writeFlag absolute)
  Writer.when (!absolute) do
    let diff ← Writer.ofOption atlas.mapPredictorIndexDiff[i]?
    writeUvlc diff

def vpsAtlas (auxiliary : Bool) (mapCountMinus1 : ℕ) (atlas : VpsAtlas) : Writer Unit := do
  write atlas.atlasId 6
  writeUvlc atlas.frameWidth
  writeUvlc atlas.frameHeight
  write atlas.mapCountMinus1 4
  Writer.when (0 < atlas.mapCountMinus1) (writeFlag atlas.multipleMapStreamsPresentFlag)
  Writer.forEach (List.range atlas.mapCountMinus1) fun i => vpsMap atlas (i + 1)
  writeFlag atlas.auxiliaryVideoPresentFlag
  writeFlag atlas.occupancyVideoPresentFlag
  writeFlag atlas.geometryVideoPresentFlag
  writeFlag atlas.attributeVideoPresentFlag
  Writer.when atlas.occupancyVideoPresentFlag (occupancyInformation atlas.occupancyInformation)
  Writer.when atlas.geometryVideoPresentFlag
    (geometryInformation atlas.geometryInformation auxiliary)
  Writer.when atlas.attributeVideoPresentFlag
    (attributeInformation atlas.attributeInformation auxiliary mapCountMinus1)

def vpsExtension (vps : V3CParameterSet) : Writer Unit := do
  writeUvlc vps.extensionLengthMinus1
  Writer.forEach (List.range (vps.extensionLengthMinus1 + 1)) fun i => do
    let byte ← Writer.ofOption vps.extensionDataByte[i]?
    write byte 8

def v3cParameterSet (vps : V3CParameterSet) : Writer Unit := do
  profileTierLevel vps.profileTierLevel
  write vps.v3cParameterSetId 4
  write 0 8
  write (vps.atlases.length - 1) 6
  let auxiliary ← Writer.ofOption vps.auxiliaryOfFirst
  let mapCountMinus1 ← Writer.ofOption vps.mapCountOfFirst
  Writer.forEach vps.atlases (vpsAtlas auxiliary mapCountMinus1)
  writeFlag vps.extensionPresentFlag
  Writer.when vps.extensionPresentFlag (write vps.extension8Bits 8)
  Writer.when (vps.extension8Bits != 0) (vpsExtension vps)
  byteAlignment

end PCCBitstreamWriter

end V3C

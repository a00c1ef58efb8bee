import V3C.Container.SampleStream
import V3C.Syntax.V3CParameterSetReader

/-! V3C units: their headers, and the streams that the video sub-bitstreams are written from
and read to. The atlas sub-bitstream of a unit is a byte string to these functions; how it is
coded is a parameter. -/
namespace V3C
open Codec

/-- The values of `V3CUnitType`. -/
def V3C_VPS : ℕ := 0
def V3C_AD : ℕ := 1
def V3C_OVD : ℕ := 2
def V3C_GVD : ℕ := 3
def V3C_AVD : ℕ := 4

/-- A type of a unit whose header selects an atlas. -/
def SelectsAtlas (v3cUnitType : ℕ) : Prop :=
  v3cUnitType = V3C_AVD ∨ v3cUnitType = V3C_GVD ∨ v3cUnitType = V3C_OVD ∨ v3cUnitType = V3C_AD

instance (v3cUnitType : ℕ) : Decidable (SelectsAtlas v3cUnitType) :=
  inferInstanceAs (Decidable (_ ∨ _))

def MAX_NUM_ATTR_PARTITIONS : ℕ := 64

/-- The values of `PCCVideoType` that the others are offsets from. -/
def VIDEO_OCCUPANCY : ℕ := 0
def VIDEO_GEOMETRY : ℕ := 1
def VIDEO_GEOMETRY_D0 : ℕ := 2
def VIDEO_GEOMETRY_RAW : ℕ := VIDEO_GEOMETRY_D0 + 16
def VIDEO_ATTRIBUTE : ℕ := VIDEO_GEOMETRY_RAW + 1
def VIDEO_ATTRIBUTE_T0 : ℕ := VIDEO_ATTRIBUTE + 1
def VIDEO_ATTRIBUTE_RAW : ℕ := VIDEO_ATTRIBUTE_T0 + 16 * MAX_NUM_ATTR_PARTITIONS
def NUM_VIDEO_TYPE : ℕ := VIDEO_ATTRIBUTE_RAW + MAX_NUM_ATTR_PARTITIONS

structure V3CUnitHeader where
  v3cParameterSetId : ℕ := 0
  atlasId : ℕ := 0
  attributeIndex : ℕ := 0
  attributeDimensionIndex : ℕ := 0
  mapIndex : ℕ := 0
  auxiliaryVideoFlag : Bool := false
  deriving DecidableEq, Repr

structure PCCVideoBitstream where
  type : ℕ
  data : List UInt8
  deriving DecidableEq, Repr

/-- How the atlas data of one atlas, of type `A`, is written and read. Reading starts from the
data that the atlas already has. -/
structure AtlasCodec (A : Type) where
  initial : A
  atlasSubStream : A → Option (List UInt8)
  readAtlasSubStream : A → List UInt8 → Option A
  /-- The flag of the sequence parameter set of index zero. -/
  rawPatchEnabledFlag : A → Option Bool

/-- Atlas data that is its own code. -/
def verbatim : AtlasCodec (List UInt8) where
  initial := []
  atlasSubStream bytes := some bytes
  readAtlasSubStream _ bytes := some bytes
  rawPatchEnabledFlag _ := some false

structure AtlasSyntax (A : Type) where
  videoBitstream : List PCCVideoBitstream := []
  atlas : A

namespace AtlasSyntax

variable {A : Type}

def createVideoBitstream (hls : AtlasSyntax A) (type : ℕ) (data : List UInt8) : AtlasSyntax A :=
  { hls with videoBitstream := hls.videoBitstream ++ [{ type, data }] }

/-- The first stream of the type. -/
def getVideoBitstream (hls : AtlasSyntax A) (type : ℕ) : Option (List UInt8) :=
  (hls.videoBitstream.find? fun stream => stream.type = type).map PCCVideoBitstream.data

end AtlasSyntax

/-- No constructor sets `activeVPS_`. -/
structure PCCHighLevelSyntax (A : Type) where
  vpccParameterSets : List V3CParameterSet := []
  activeVPS : Option ℕ := none
  atlasHLS : List (AtlasSyntax A) := []
  atlasIndex : ℕ := 0

namespace PCCHighLevelSyntax

variable {A : Type}

def getVps (syntax' : PCCHighLevelSyntax A) : Option V3CParameterSet := do
  let activeVPS ← syntax'.activeVPS
  syntax'.vpccParameterSets.find? fun vps => vps.v3cParameterSetId = activeVPS

def getAtlasHighLevelSyntax (syntax' : PCCHighLevelSyntax A) : Option (AtlasSyntax A) :=
  syntax'.atlasHLS[syntax'.atlasIndex]?

/-- `atlasHLS_.resize( size )`. -/
def allocateAtlasHLS (initial : A) (syntax' : PCCHighLevelSyntax A) (size : ℕ) :
    PCCHighLevelSyntax A :=
  { syntax' with
    atlasHLS :=
      syntax'.atlasHLS.take size ++
        List.replicate (size - syntax'.atlasHLS.length) { atlas := initial }
    atlasIndex := 0 }

/-- A stream of an atlas. -/
def video (syntax' : PCCHighLevelSyntax A) (atlasIndex type : ℕ) : Option (List UInt8) := do
  let hls ← syntax'.atlasHLS[atlasIndex]?
  hls.getVideoBitstream type

end PCCHighLevelSyntax

def VpsAtlas.mapStreams (atlas : VpsAtlas) : Bool :=
  0 < atlas.mapCountMinus1 && atlas.multipleMapStreamsPresentFlag

/-- The stream that the offsets of both `videoSubStream` functions give for a unit, by the
flags of the atlas of the given index. An attribute of an atlas without attributes has none. -/
def videoStreamType (vps : V3CParameterSet) (atlasIndex v3cUnitType : ℕ) (vuh : V3CUnitHeader) :
    Option (Option ℕ) :=
  if v3cUnitType = V3C_OVD then some (some VIDEO_OCCUPANCY)
  else if v3cUnitType = V3C_GVD then
    if vuh.auxiliaryVideoFlag then some (some VIDEO_GEOMETRY_RAW)
    else do
      let atlas ← vps.atlases[atlasIndex]?
      pure (some (if atlas.mapStreams then VIDEO_GEOMETRY_D0 + vuh.mapIndex else VIDEO_GEOMETRY))
  else do
    let atlas ← vps.atlases[atlasIndex]?
    if 0 < atlas.attributeInformation.length then
      pure (some (
        if vuh.auxiliaryVideoFlag then VIDEO_ATTRIBUTE_RAW + vuh.attributeDimensionIndex
        else if atlas.mapStreams then
          VIDEO_ATTRIBUTE_T0 + vuh.mapIndex * MAX_NUM_ATTR_PARTITIONS +
            vuh.attributeDimensionIndex
        else VIDEO_ATTRIBUTE + vuh.attributeDimensionIndex))
    else pure none

namespace PCCBitstreamWriter

variable {A : Type} (codec : AtlasCodec A)

/-- Writes the stream of the current atlas, by the flags of the atlas of the unit. -/
def videoSubStream (syntax' : PCCHighLevelSyntax A) (v3cUnitType : ℕ) (vuh : V3CUnitHeader) :
    Option (List UInt8) := do
  let vps ← syntax'.getVps
  let type ← videoStreamType vps vuh.atlasId v3cUnitType vuh
  match type with
  | none => pure []
  | some type => do
    let hls ← syntax'.getAtlasHighLevelSyntax
    hls.getVideoBitstream type

def v3cUnitHeader (v3cUnitType : ℕ) (vuh : V3CUnitHeader) : Writer Unit := do
  write v3cUnitType 5
  Writer.when (SelectsAtlas v3cUnitType) do
    write vuh.v3cParameterSetId 4
    write vuh.atlasId 6
  if v3cUnitType = V3C_AVD then do
    write vuh.attributeIndex 7
    write vuh.attributeDimensionIndex 5
    write vuh.mapIndex 4
    writeFlag vuh.auxiliaryVideoFlag
  else if v3cUnitType = V3C_GVD then do
    write vuh.mapIndex 4
    writeFlag vuh.auxiliaryVideoFlag
    write 0 12
  else if v3cUnitType = V3C_OVD ∨ v3cUnitType = V3C_AD then write 0 17
  else write 0 27

/-- The streams of a unit are whole bytes behind a header of four. -/
def v3cUnitPayload (syntax' : PCCHighLevelSyntax A) (v3cUnitType : ℕ) (vuh : V3CUnitHeader) :
    Writer Unit :=
  if v3cUnitType = V3C_VPS then do
    let vps ← Writer.ofOption syntax'.getVps
    v3cParameterSet vps
  else if v3cUnitType = V3C_AD then do
    let hls ← Writer.ofOption syntax'.getAtlasHighLevelSyntax
    let bytes ← Writer.ofOption (codec.atlasSubStream hls.atlas)
    Writer.put (bitsOfBytes bytes)
  else if v3cUnitType = V3C_OVD ∨ v3cUnitType = V3C_GVD ∨ v3cUnitType = V3C_AVD then do
    let bytes ← Writer.ofOption (videoSubStream syntax' v3cUnitType vuh)
    Writer.put (bitsOfBytes bytes)
  else pure ()

def v3cUnit (syntax' : PCCHighLevelSyntax A) (v3cUnitType : ℕ) (vuh : V3CUnitHeader) :
    Option V3CUnit := do
  let ((), bits) ← (do
    v3cUnitHeader v3cUnitType vuh
    v3cUnitPayload codec syntax' v3cUnitType vuh : Writer Unit) 0
  pure { type := v3cUnitType, size := bits.length / 8, data := bytesOfBits bits }

/-- The headers of one component: a unit for each stream of its maps, and one for its raw
points. -/
def componentHeaders (atlas : VpsAtlas) (raw : Bool) (vuh : V3CUnitHeader) :
    List V3CUnitHeader :=
  (if atlas.mapStreams then
    (List.range (atlas.mapCountMinus1 + 1)).map fun mapIdx =>
      { vuh with mapIndex := mapIdx, auxiliaryVideoFlag := false }
  else [{ vuh with mapIndex := 0, auxiliaryVideoFlag := false }]) ++
  if raw && atlas.auxiliaryVideoPresentFlag then
    [{ vuh with mapIndex := 0, auxiliaryVideoFlag := true }]
  else []

/-- The attributes of an atlas and the partitions of each. -/
def attributeHeaders (atlas : VpsAtlas) (raw : Bool) (vuh : V3CUnitHeader) :
    List V3CUnitHeader :=
  atlas.attributeInformation.zipIdx.flatMap fun (ai, attIdx) =>
    (List.range (ai.attributeDimensionPartitionsMinus1 + 1)).flatMap fun attDim =>
      componentHeaders atlas raw
        { vuh with attributeIndex := attIdx, attributeDimensionIndex := attDim }

/-- The units of the video components of one atlas, in the order of `encode`. -/
def videoHeaders (atlas : VpsAtlas) (raw : Bool) (vuh : V3CUnitHeader) :
    List (ℕ × V3CUnitHeader) :=
  (V3C_OVD, vuh) ::
    (componentHeaders atlas raw vuh).map (V3C_GVD, ·) ++
    (attributeHeaders atlas raw vuh).map (V3C_AVD, ·)

def unitHeaders (vps : V3CParameterSet) (raw : Bool) : List (ℕ × V3CUnitHeader) :=
  (V3C_VPS, {}) :: vps.atlases.zipIdx.flatMap fun (atlas, atlasIdx) =>
    let vuh := { v3cParameterSetId := vps.v3cParameterSetId, atlasId := atlasIdx }
    (V3C_AD, vuh) :: videoHeaders atlas raw vuh

/-- The raw flag is that of the current atlas for every atlas. -/
def encode (syntax' : PCCHighLevelSyntax A) : Option (List V3CUnit) := do
  let vps ← syntax'.getVps
  let hls ← syntax'.getAtlasHighLevelSyntax
  let raw ← codec.rawPatchEnabledFlag hls.atlas
  (unitHeaders vps raw).mapM fun (v3cUnitType, vuh) => v3cUnit codec syntax' v3cUnitType vuh

end PCCBitstreamWriter

namespace PCCBitstreamReader

variable {A : Type} (codec : AtlasCodec A)

/-- The type and the header. The elements that the type does not have keep their defaults. -/
def v3cUnitHeader : Reader (ℕ × V3CUnitHeader) := do
  let v3cUnitType ← read 5
  let (v3cParameterSetId, atlasId) ←
    Reader.whenElse (SelectsAtlas v3cUnitType) (do
      let v3cParameterSetId ← read 4
      let atlasId ← read 6
      pure (v3cParameterSetId, atlasId)) (0, 0)
  if v3cUnitType = V3C_AVD then do
    let attributeIndex ← read 7
    let attributeDimensionIndex ← read 5
    let mapIndex ← read 4
    let auxiliaryVideoFlag ← readFlag
    pure (v3cUnitType, {
      v3cParameterSetId, atlasId, attributeIndex, attributeDimensionIndex, mapIndex
      auxiliaryVideoFlag })
  else if v3cUnitType = V3C_GVD then do
    let mapIndex ← read 4
    let auxiliaryVideoFlag ← readFlag
    let _ ← read 12
    pure (v3cUnitType, { v3cParameterSetId, atlasId, mapIndex, auxiliaryVideoFlag })
  else if v3cUnitType = V3C_OVD ∨ v3cUnitType = V3C_AD then do
    let _ ← read 17
    pure (v3cUnitType, { v3cParameterSetId, atlasId })
  else do
    let _ ← read 27
    pure (v3cUnitType, { v3cParameterSetId, atlasId })

/-- Every unit but those of parameter sets and of reserved types selects its parameter set and
its atlas. -/
def selectAtlas (syntax' : PCCHighLevelSyntax A) (v3cUnitType : ℕ) (vuh : V3CUnitHeader) :
    PCCHighLevelSyntax A :=
  if SelectsAtlas v3cUnitType then
    { syntax' with activeVPS := some vuh.v3cParameterSetId, atlasIndex := vuh.atlasId }
  else syntax'

/-- Replaces the current atlas. -/
def setAtlas (syntax' : PCCHighLevelSyntax A) (hls : AtlasSyntax A) : PCCHighLevelSyntax A :=
  { syntax' with atlasHLS := syntax'.atlasHLS.set syntax'.atlasIndex hls }

/-- The stream of a unit, by the flags of the atlas of index zero. No parameter set is looked
up for an occupancy map and for raw geometry. -/
def streamTypeOfUnit (syntax' : PCCHighLevelSyntax A) (v3cUnitType : ℕ) (vuh : V3CUnitHeader) :
    Option (Option ℕ) :=
  if v3cUnitType = V3C_OVD then some (some VIDEO_OCCUPANCY)
  else if v3cUnitType = V3C_GVD ∧ vuh.auxiliaryVideoFlag = true then
    some (some VIDEO_GEOMETRY_RAW)
  else do
    let vps ← syntax'.getVps
    videoStreamType vps 0 v3cUnitType vuh

/-- Reads to a new stream of the current atlas. -/
def videoSubStream (syntax' : PCCHighLevelSyntax A) (v3cUnitType : ℕ) (vuh : V3CUnitHeader)
    (payload : List UInt8) : Option (PCCHighLevelSyntax A) := do
  let type ← streamTypeOfUnit syntax' v3cUnitType vuh
  match type with
  | none => pure syntax'
  | some type => do
    let hls ← syntax'.getAtlasHighLevelSyntax
    pure (setAtlas syntax' (hls.createVideoBitstream type payload))

/-- The parameter set is added, and the atlases are allocated, before anything is read by it. -/
def addV3CParameterSet (syntax' : PCCHighLevelSyntax A) (vps : V3CParameterSet) :
    PCCHighLevelSyntax A :=
  { syntax' with vpccParameterSets := syntax'.vpccParameterSets ++ [vps] }.allocateAtlasHLS
    codec.initial vps.atlases.length

/-- The payload of a unit of the given size, behind its header. -/
def v3cUnitPayload (syntax' : PCCHighLevelSyntax A) (v3cUnitType : ℕ) (vuh : V3CUnitHeader)
    (v3cUnitSize : ℕ) (c : Cursor) : Option (PCCHighLevelSyntax A) :=
  if v3cUnitType = V3C_VPS then do
    let (vps, _) ← v3cParameterSet c
    pure (addV3CParameterSet codec syntax' vps)
  else if v3cUnitType = V3C_AD then do
    let hls ← syntax'.getAtlasHighLevelSyntax
    let atlas ← codec.readAtlasSubStream hls.atlas (bytesOfBits c.rest)
    pure (setAtlas syntax' { hls with atlas })
  else if v3cUnitType = V3C_OVD ∨ v3cUnitType = V3C_GVD ∨ v3cUnitType = V3C_AVD then do
    let (bits, _) ← Reader.take (8 * (v3cUnitSize - 4)) c
    videoSubStream syntax' v3cUnitType vuh (bytesOfBits bits)
  else some syntax'

/-- The type of a unit and the syntax after it. -/
def v3cUnit (syntax' : PCCHighLevelSyntax A) (unit : V3CUnit) :
    Option (ℕ × PCCHighLevelSyntax A) := do
  let ((v3cUnitType, vuh), c) ← v3cUnitHeader ⟨0, bitsOfBytes unit.data⟩
  let syntax' ←
    v3cUnitPayload codec (selectAtlas syntax' v3cUnitType vuh) v3cUnitType vuh unit.size c
  pure (v3cUnitType, syntax')

/-- The loop of `decode`: the syntax at the end of the group, and the units that are left. The
unit of a second parameter set is read, but stays where it is. -/
def decodeLoop : ℕ → PCCHighLevelSyntax A → List V3CUnit →
    Option (PCCHighLevelSyntax A × List V3CUnit)
  | _, syntax', [] => some (syntax', [])
  | numVPS, syntax', unit :: rest => do
    let (v3cUnitType, syntax') ← v3cUnit codec syntax' unit
    if v3cUnitType = V3C_VPS then
      if 1 < numVPS + 1 then some (syntax', unit :: rest)
      else decodeLoop (numVPS + 1) syntax' rest
    else decodeLoop numVPS syntax' rest

def decode (syntax' : PCCHighLevelSyntax A) (units : List V3CUnit) :
    Option (PCCHighLevelSyntax A × List V3CUnit) := decodeLoop codec 0 syntax' units

end PCCBitstreamReader

end V3C

import V3C.Atlas.AtlasSubStream
import V3C.Bitstream.SyntaxElements
import V3C.Syntax.ParameterSetWriter

/-! The payloads of SEI messages. A reader is told the size of a payload by the message, and a
writer by the object, where only an earlier pass of a writer can have left it. -/
namespace V3C
open Codec

def FILLER_PAYLOAD : ℕ := 2
def USER_DATAREGISTERED_ITUTT35 : ℕ := 3
def USER_DATA_UNREGISTERED : ℕ := 4
def COMPONENT_CODEC_MAPPING : ℕ := 11
def OCCUPANCY_SYNTHESIS : ℕ := 65
def GEOMETRY_SMOOTHING : ℕ := 66
def RESERVED_SEI_MESSAGE : ℕ := 68

structure SEIUserDataRegisteredItuTT35 where
  countryCode : ℕ := 0
  countryCodeExtensionByte : ℕ := 0
  payloadByte : List ℕ := []

structure SEIUserDataUnregistered where
  uuidIsoIec11578 : List ℕ
  userDataPayloadByte : List ℕ := []

/-- The four-character code of a codec is at the position of its id. -/
structure SEIComponentCodecMapping where
  componentCodecCancelFlag : Bool := false
  codecMappingsCountMinus1 : ℕ := 0
  codecId : List ℕ := []
  codec4cc : List (List UInt8) := []

structure InstanceUpdate (P : Type) where
  instanceCancelFlag : Bool := false
  methodType : ℕ := 0
  parameters : P

/-- Updates of instances, each at the position of its index. All vectors have the size of the
number of updates. -/
structure InstanceUpdates (P : Type) where
  persistenceFlag : Bool := false
  resetFlag : Bool := false
  instanceIndex : List ℕ := []
  instances : List (InstanceUpdate P) := []

structure OccupancySynthesisParameters where
  pbfLog2ThresholdMinus1 : ℕ := 0
  pbfPassesCountMinus1 : ℕ := 0
  pbfFilterSizeMinus1 : ℕ := 0
deriving DecidableEq

structure GeometrySmoothingParameters where
  filterEomPointsFlag : Bool := false
  gridSizeMinus2 : ℕ := 0
  threshold : ℕ := 0
deriving DecidableEq

abbrev SEIOccupancySynthesis : Type := InstanceUpdates OccupancySynthesisParameters

abbrev SEIGeometrySmoothing : Type := InstanceUpdates GeometrySmoothingParameters

/-- What a message holds. `addSei` leaves a null pointer for a filler payload. The payloads that
are listed last are coded by a parameter. -/
inductive SeiContent (M : Type)
  | fillerPayload
  | userDataRegisteredItuTT35 (sei : SEIUserDataRegisteredItuTT35)
  | userDataUnregistered (sei : SEIUserDataUnregistered)
  | componentCodecMapping (sei : SEIComponentCodecMapping)
  | occupancySynthesis (sei : SEIOccupancySynthesis)
  | geometrySmoothing (sei : SEIGeometrySmoothing)
  | reservedSeiMessage (payloadByte : List ℕ)
  | other (content : M)

/-- A message. Its payload size is that of the last time that it has been written. -/
structure SEI (M : Type) where
  payloadSize : ℕ := 0
  content : SeiContent M

/-- The payload types whose size is a matter of their own syntax, apart from those above: how one
is read behind the messages of its list, and how it is written among those of its tile. -/
structure SeiSyntax (M : Type) where
  payloadType : M → ℕ
  read : List (SEI M) → ℕ → ℕ → Reader M
  write : PCCSEI (SEI M) → ℕ → M → Writer Unit
  payloadType_read : ∀ seis nalUnitType type,
    (read seis nalUnitType type).Ensures fun content => payloadType content = type

/-- No message is of the remaining payload types. -/
def noOtherMessages : SeiSyntax Empty where
  payloadType := nofun
  read _ _ _ := Reader.fail
  write _ _ := nofun
  payloadType_read _ _ _ _ _ _ h := nomatch h

variable {M : Type}

/-- `getPayloadType`, of an object. -/
def SeiContent.payloadType (others : SeiSyntax M) : SeiContent M → Option ℕ
  | .fillerPayload => none
  | .userDataRegisteredItuTT35 _ => some USER_DATAREGISTERED_ITUTT35
  | .userDataUnregistered _ => some USER_DATA_UNREGISTERED
  | .componentCodecMapping _ => some COMPONENT_CODEC_MAPPING
  | .occupancySynthesis _ => some OCCUPANCY_SYNTHESIS
  | .geometrySmoothing _ => some GEOMETRY_SMOOTHING
  | .reservedSeiMessage _ => some RESERVED_SEI_MESSAGE
  | .other content => some (others.payloadType content)

/-- `payloadSize -= n`. A difference that wraps is larger than any vector. -/
def reducedSize (payloadSize n : ℕ) : Option ℕ :=
  if n ≤ payloadSize then some (payloadSize - n) else none

namespace PCCBitstreamReader

def readBytes (n : ℕ) : Reader (List ℕ) := Reader.repeatFrom 0 n fun _ => read 8

def userDataRegisteredItuTT35 (payloadSize : ℕ) : Reader SEIUserDataRegisteredItuTT35 := do
  let countryCode ← read 8
  let payloadSize ← Reader.ofOption (reducedSize payloadSize 1)
  if countryCode = 0xFF then do
    let countryCodeExtensionByte ← read 8
    let payloadSize ← Reader.ofOption (reducedSize payloadSize 1)
    let payloadByte ← readBytes payloadSize
    pure { countryCode, countryCodeExtensionByte, payloadByte }
  else do
    let payloadByte ← readBytes payloadSize
    pure { countryCode, payloadByte }

def userDataUnregistered (payloadSize : ℕ) : Reader SEIUserDataUnregistered := do
  let uuidIsoIec11578 ← readBytes 16
  let payloadSize ← Reader.ofOption (reducedSize payloadSize 16)
  let userDataPayloadByte ← readBytes payloadSize
  pure { uuidIsoIec11578, userDataPayloadByte }

/-- The loop over `n` entries of a table, each behind its position. -/
def indexedEntries {E : Type} (entry : E → Reader E) : ℕ → List E → Reader (List ℕ × List E)
  | 0, table => pure ([], table)
  | n + 1, table => do
    let k ← read 8
    let old ← Reader.ofOption table[k]?
    let new ← entry old
    let (indices, table) ← indexedEntries entry n (table.set k new)
    pure (k :: indices, table)

def componentCodecMapping : Reader SEIComponentCodecMapping := do
  let componentCodecCancelFlag ← readFlag
  if componentCodecCancelFlag then pure { componentCodecCancelFlag }
  else do
    let codecMappingsCountMinus1 ← read 8
    let (codecId, codec4cc) ← indexedEntries (fun _ => readString) (codecMappingsCountMinus1 + 1)
      (List.replicate 256 [])
    pure { componentCodecCancelFlag, codecMappingsCountMinus1, codecId, codec4cc }

/-- The iteration for an instance, in both messages about instances. -/
def instanceUpdate {P : Type} (parameters : Reader P) (old : InstanceUpdate P) :
    Reader (InstanceUpdate P) := do
  let instanceCancelFlag ← readFlag
  if instanceCancelFlag then pure { old with instanceCancelFlag }
  else do
    let methodType ← readUvlc
    let methodType := toUInt8 methodType
    if methodType = 1 then do
      let parameters ← parameters
      pure { instanceCancelFlag, methodType, parameters }
    else pure { old with instanceCancelFlag, methodType }

def instanceUpdates {P : Type} (initial : P) (parameters : Reader P) :
    Reader (InstanceUpdates P) := do
  let persistenceFlag ← readFlag
  let resetFlag ← readFlag
  let instancesUpdated ← read 8
  let (instanceIndex, instances) ← indexedEntries (instanceUpdate parameters) instancesUpdated
    (List.replicate instancesUpdated { parameters := initial })
  pure { persistenceFlag, resetFlag, instanceIndex, instances }

def occupancySynthesis : Reader SEIOccupancySynthesis :=
  instanceUpdates {} do
    let pbfLog2ThresholdMinus1 ← read 2
    let pbfPassesCountMinus1 ← read 2
    let pbfFilterSizeMinus1 ← read 3
    pure { pbfLog2ThresholdMinus1, pbfPassesCountMinus1, pbfFilterSizeMinus1 }

def geometrySmoothing : Reader SEIGeometrySmoothing :=
  instanceUpdates {} do
    let filterEomPointsFlag ← readFlag
    let gridSizeMinus2 ← read 7
    let threshold ← read 8
    pure { filterEomPointsFlag, gridSizeMinus2, threshold }

/-- Behind the header of a suffix message, the object of another class is taken for a reserved
message. -/
def prefixPayload (nalUnitType : ℕ) (payload : Reader (SeiContent M)) : Reader (SeiContent M) :=
  if IsPrefixSei nalUnitType then payload else Reader.fail

/-- `moreDataInPayload` is whether the position is inside a byte. -/
def payloadAlignment : Reader Unit := do
  let p ← Reader.phase
  if p = 0 then pure () else rbspTrailingBits

def seiContent (others : SeiSyntax M) (seis : List (SEI M))
    (nalUnitType payloadType payloadSize : ℕ) : Reader (SeiContent M) :=
  if payloadType = FILLER_PAYLOAD then do
    let _ ← readBytes payloadSize
    pure .fillerPayload
  else if payloadType = USER_DATAREGISTERED_ITUTT35 then do
    let sei ← userDataRegisteredItuTT35 payloadSize
    pure (.userDataRegisteredItuTT35 sei)
  else if payloadType = USER_DATA_UNREGISTERED then do
    let sei ← userDataUnregistered payloadSize
    pure (.userDataUnregistered sei)
  else if payloadType = RESERVED_SEI_MESSAGE then do
    let payloadByte ← readBytes payloadSize
    pure (.reservedSeiMessage payloadByte)
  else if payloadType = COMPONENT_CODEC_MAPPING then prefixPayload nalUnitType do
    let sei ← componentCodecMapping
    pure (.componentCodecMapping sei)
  else if payloadType = OCCUPANCY_SYNTHESIS then prefixPayload nalUnitType do
    let sei ← occupancySynthesis
    pure (.occupancySynthesis sei)
  else if payloadType = GEOMETRY_SMOOTHING then prefixPayload nalUnitType do
    let sei ← geometrySmoothing
    pure (.geometrySmoothing sei)
  else do
    let content ← others.read seis nalUnitType payloadType
    pure (.other content)

/-- No reader sets the payload size of a message. -/
def seiPayload (others : SeiSyntax M) : SeiPayloadReader (SEI M) :=
  fun seis nalUnitType payloadType payloadSize => do
    let content ← seiContent others seis nalUnitType payloadType payloadSize
    payloadAlignment
    pure { content }

end PCCBitstreamReader

namespace PCCBitstreamWriter

def writeBytes (bytes : List ℕ) : Writer Unit := Writer.forEach bytes fun byte => write byte 8

/-- The loop over `n` elements of a vector. Behind its end there are none. -/
def writeElements (bytes : List ℕ) (n : ℕ) : Writer Unit :=
  if n ≤ bytes.length then writeBytes (bytes.take n) else Writer.fail

/-- The payload size is counted down, but the loop is over the vector. -/
def userDataRegisteredItuTT35 (sei : SEIUserDataRegisteredItuTT35) : Writer Unit := do
  write sei.countryCode 8
  Writer.when (sei.countryCode = 0xFF) (write sei.countryCodeExtensionByte 8)
  writeBytes sei.payloadByte

def userDataUnregistered (payloadSize : ℕ) (sei : SEIUserDataUnregistered) : Writer Unit := do
  writeElements sei.uuidIsoIec11578 16
  let payloadSize ← Writer.ofOption (reducedSize payloadSize 16)
  writeElements sei.userDataPayloadByte payloadSize

/-- The loop over positions of a table. -/
def indexedEntries {E : Type} (entry : E → Writer Unit) (table : List E) (indices : List ℕ) :
    Writer Unit :=
  Writer.forEach indices fun k => do
    write k 8
    let element ← Writer.ofOption table[k]?
    entry element

/-- `allocate` gives the vectors their sizes once more. -/
def componentCodecMapping (sei : SEIComponentCodecMapping) : Writer Unit := do
  writeFlag sei.componentCodecCancelFlag
  Writer.when (!sei.componentCodecCancelFlag) do
    write sei.codecMappingsCountMinus1 8
    indexedEntries writeString (sei.codec4cc.takeD 256 [])
      (sei.codecId.takeD (sei.codecMappingsCountMinus1 + 1) 0)

def instanceUpdate {P : Type} (parameters : P → Writer Unit) (update : InstanceUpdate P) :
    Writer Unit := do
  writeFlag update.instanceCancelFlag
  Writer.when (!update.instanceCancelFlag) do
    writeUvlc update.methodType
    Writer.when (update.methodType = 1) (parameters update.parameters)

def instanceUpdates {P : Type} (parameters : P → Writer Unit) (sei : InstanceUpdates P) :
    Writer Unit := do
  writeFlag sei.persistenceFlag
  writeFlag sei.resetFlag
  write sei.instanceIndex.length 8
  indexedEntries (instanceUpdate parameters) sei.instances sei.instanceIndex

def occupancySynthesis (sei : SEIOccupancySynthesis) : Writer Unit :=
  instanceUpdates (fun parameters => do
    write parameters.pbfLog2ThresholdMinus1 2
    write parameters.pbfPassesCountMinus1 2
    write parameters.pbfFilterSizeMinus1 3) sei

def geometrySmoothing (sei : SEIGeometrySmoothing) : Writer Unit :=
  instanceUpdates (fun parameters => do
    writeFlag parameters.filterEomPointsFlag
    write parameters.gridSizeMinus2 7
    write parameters.threshold 8) sei

def prefixPayload (nalUnitType : ℕ) (payload : Writer Unit) : Writer Unit :=
  if IsPrefixSei nalUnitType then payload else Writer.fail

def payloadAlignment : Writer Unit := fun p =>
  if p = 0 then some ((), []) else byteAlignment p

/-- What `seiPayload` writes of a message. Of a null pointer there is nothing to write. -/
def seiContent (others : SeiSyntax M) (messages : PCCSEI (SEI M)) (nalUnitType : ℕ)
    (sei : SEI M) : Writer Unit :=
  match sei.content with
  | .fillerPayload => Writer.fail
  | .userDataRegisteredItuTT35 content => userDataRegisteredItuTT35 content
  | .userDataUnregistered content => userDataUnregistered sei.payloadSize content
  | .componentCodecMapping content => prefixPayload nalUnitType (componentCodecMapping content)
  | .occupancySynthesis content => prefixPayload nalUnitType (occupancySynthesis content)
  | .geometrySmoothing content => prefixPayload nalUnitType (geometrySmoothing content)
  | .reservedSeiMessage payloadByte => writeElements payloadByte sei.payloadSize
  | .other content => others.write messages nalUnitType content

def seiPayload (others : SeiSyntax M) (messages : PCCSEI (SEI M)) (nalUnitType : ℕ)
    (sei : SEI M) : Writer Unit := do
  seiContent others messages nalUnitType sei
  payloadAlignment

/-- The message behind `setPayloadSize`: its payload has been written into a stream of its own. -/
def measuredSei (others : SeiSyntax M) (messages : PCCSEI (SEI M)) (nalUnitType : ℕ)
    (sei : SEI M) : Option (SEI M) :=
  (seiPayload others messages nalUnitType sei 0).map fun run =>
    { sei with payloadSize := run.2.length / 8 }

end PCCBitstreamWriter

end V3C

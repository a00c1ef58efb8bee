import V3C.Atlas.SeiPayload
import V3C.Container.SampleStream
import V3C.Syntax.TileHeaderWriter
import V3C.Syntax.ParameterSetWriter

/-! How an atlas sub-bitstream is written: a first pass measures every NAL unit, and a second one
writes each behind its size. -/
namespace V3C
open Codec

variable {M : Type}

def NalPayload.type : NalPayload M → ℕ
  | .asps _ => NAL_ASPS
  | .afps _ => NAL_AFPS
  | .tileLayer nalUnitType _ => nalUnitType
  | .sei nalUnitType _ => nalUnitType
  | .unsupported nalUnitType => nalUnitType

/-- A NAL unit that is about to be written, with the messages of its tile layer. -/
abbrev OutgoingUnit (M : Type) : Type := NalPayload M × PCCSEI M

namespace PCCBitstreamWriter

/-- `for ( ; value >= 0xff; value -= 0xff ) write( 0xff, 8 ); write( value, 8 );` -/
def ffCoded (value : ℕ) : Writer Unit :=
  if 0xff ≤ value then do
    write 0xff 8
    ffCoded (value - 0xff)
  else write value 8
termination_by value

/-- The payload is written twice, the second time behind its size. The size goes through an
`int32_t`. -/
def seiMessage (others : SeiSyntax M) (messages : PCCSEI (SEI M)) (nalUnitType : ℕ)
    (sei : SEI M) : Writer Unit := do
  let payloadType ← Writer.ofOption (sei.content.payloadType others)
  ffCoded payloadType
  let sei ← Writer.ofOption (measuredSei others messages nalUnitType sei)
  if sei.payloadSize < 2 ^ 31 then do
    ffCoded sei.payloadSize
    seiPayload others messages nalUnitType sei
  else Writer.fail

def atlasTileLayerRbsp (sets : ActiveSets) (atgl : AtlasTileLayerRbsp) (nalUnitType : ℕ) :
    Writer Unit := do
  atlasTileHeader sets atgl.header nalUnitType
  let afps ← Writer.ofOption (sets.afps atgl.header.atlasFrameParameterSetId)
  let asps ← Writer.ofOption (sets.asps afps.atlasSequenceParameterSetId)
  atlasTileDataUnit { ath := atgl.header, afps, asps } atgl.dataUnit
  byteAlignment

/-- What is behind the header of a NAL unit. -/
def nalPayload (others : SeiSyntax M) (sets : ActiveSets) (messages : PCCSEI (SEI M)) :
    NalPayload (SEI M) → Writer Unit
  | .asps set => atlasSequenceParameterSetRbsp set
  | .afps set => atlasFrameParameterSetRbsp set sets.asps
  | .tileLayer nalUnitType layer => atlasTileLayerRbsp sets layer nalUnitType
  | .sei nalUnitType sei => seiMessage others messages nalUnitType sei
  | .unsupported _ => pure ()

def nalHeaderSize : ℕ := 2

/-- A unit as the first pass writes it, where all tile layers have one type. -/
def measured : NalPayload M → NalPayload M
  | .tileLayer _ layer => .tileLayer NAL_SKIP_R layer
  | payload => payload

/-- The sizes of the units, `uint32_t` values, from what the first pass adds to its stream. -/
def unitSizes (others : SeiSyntax M) (sets : ActiveSets) :
    ℕ → List (OutgoingUnit (SEI M)) → Option (List ℕ)
  | _, [] => some []
  | position, unit :: units => do
    let run ← nalPayload others sets unit.2 (measured unit.1) (advance 0 position)
    let next := position + run.2.length
    let sizes ← unitSizes others sets next units
    some ((next / 8 - position / 8 + nalHeaderSize) % 2 ^ 32 :: sizes)

/-- A unit behind a pass over it, which leaves the payload size in a message. -/
def passed (others : SeiSyntax M) : OutgoingUnit (SEI M) → Option (OutgoingUnit (SEI M))
  | (.sei nalUnitType sei, messages) =>
    (measuredSei others messages nalUnitType sei).map fun sei => (.sei nalUnitType sei, messages)
  | unit => some unit

def nalUnitHeader (nalUnitType : ℕ) : Writer Unit := do
  write 0 1
  write nalUnitType 6
  write 0 6
  write 1 3

def sampleStreamNalUnit (others : SeiSyntax M) (sets : ActiveSets)
    (sizePrecisionBytesMinus1 : ℕ) (unit : OutgoingUnit (SEI M) × ℕ) : Writer Unit := do
  write unit.2 (8 * (sizePrecisionBytesMinus1 + 1) % 2 ^ 8)
  nalUnitHeader unit.1.1.type
  nalPayload others sets unit.1.2 unit.1.1

/-- The NAL units in their order. -/
def outgoingUnits (data : AtlasData M) : List (OutgoingUnit M) :=
  data.atlasSequenceParameterSet.map (fun set => (.asps set, { seiPrefix := [] })) ++
    data.atlasFrameParameterSet.map (fun set => (.afps set, { seiPrefix := [] })) ++
    data.atlasTileLayer.zipIdx.flatMap fun layer =>
      (tileLayerUnits layer.1 layer.2).map fun payload => (payload, layer.1.sei)

/-- The largest size decides how many bytes a size has. -/
def sizePrecisionBytesMinus1 (sizes : List ℕ) : ℕ :=
  sizePrecision ((sizes.foldl max 0 + 1) % 2 ^ 32) - 1

def atlasSubStream (others : SeiSyntax M) (data : AtlasData (SEI M)) : Writer Unit := do
  let sets := data.highLevelSyntax.byPosition
  let units := outgoingUnits data
  let sizes ← Writer.ofOption (unitSizes others sets 0 units)
  let units ← Writer.ofOption (units.mapM (passed others))
  write (sizePrecisionBytesMinus1 sizes) 3
  write 0 5
  Writer.forEach (units.zip sizes)
    (sampleStreamNalUnit others sets (sizePrecisionBytesMinus1 sizes))

end PCCBitstreamWriter

end V3C

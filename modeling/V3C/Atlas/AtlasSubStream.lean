import V3C.Syntax.ParameterSetActivation
import V3C.Syntax.TileDataUnitReader

/-! Atlas sub-bitstreams: the NAL units that the reader takes apart, and those that the writer
makes of what has been read. The reader of the payloads of SEI messages is a parameter here. -/
namespace V3C
open Codec

def NAL_PREFIX_NSEI : ℕ := 43
def NAL_SUFFIX_NSEI : ℕ := 44
def NAL_PREFIX_ESEI : ℕ := 45
def NAL_SUFFIX_ESEI : ℕ := 46

/-- The types of tile layers that both sides list. -/
def IsTileLayer (nalUnitType : ℕ) : Prop := nalUnitType ≤ NAL_SKIP_R ∨ nalUnitType = NAL_IDR_N_LP

def IsPrefixSei (nalUnitType : ℕ) : Prop :=
  nalUnitType = NAL_PREFIX_ESEI ∨ nalUnitType = NAL_PREFIX_NSEI

def IsSuffixSei (nalUnitType : ℕ) : Prop :=
  nalUnitType = NAL_SUFFIX_ESEI ∨ nalUnitType = NAL_SUFFIX_NSEI

instance (nalUnitType : ℕ) : Decidable (IsTileLayer nalUnitType) :=
  inferInstanceAs (Decidable (_ ∨ _))

instance (nalUnitType : ℕ) : Decidable (IsPrefixSei nalUnitType) :=
  inferInstanceAs (Decidable (_ ∨ _))

instance (nalUnitType : ℕ) : Decidable (IsSuffixSei nalUnitType) :=
  inferInstanceAs (Decidable (_ ∨ _))

/-- The messages of a tile layer. -/
structure PCCSEI (M : Type) where
  seiPrefix : List M := []
  seiSuffix : List M := []

structure AtlasTileLayer (M : Type) where
  rbsp : AtlasTileLayerRbsp
  sei : PCCSEI M := {}

/-- What has been read of one atlas. -/
structure AtlasData (M : Type) where
  atlasSequenceParameterSet : List AtlasSequenceParameterSetRbsp := []
  atlasFrameParameterSet : List AtlasFrameParameterSetRbsp := []
  atlasTileLayer : List (AtlasTileLayer M) := []

/-- The payload of an SEI message of a NAL unit type, payload type and payload size, read
behind the messages that its list already has. -/
abbrev SeiPayloadReader (M : Type) : Type := List M → ℕ → ℕ → ℕ → Reader M

/-- One NAL unit as it has been read, or as it is about to be written. -/
inductive NalPayload (M : Type)
  | asps (set : AtlasSequenceParameterSetRbsp)
  | afps (set : AtlasFrameParameterSetRbsp)
  | tileLayer (nalUnitType : ℕ) (layer : AtlasTileLayerRbsp)
  | sei (nalUnitType : ℕ) (message : M)
  | unsupported (nalUnitType : ℕ)

variable {M : Type}

namespace AtlasData

def highLevelSyntax (data : AtlasData M) : PCCAtlasHighLevelSyntax where
  atlasSequenceParameterSet := data.atlasSequenceParameterSet
  atlasFrameParameterSet := data.atlasFrameParameterSet
  atlasTileLayer := data.atlasTileLayer.map AtlasTileLayer.rbsp

end AtlasData

/-- The state of the reader between two NAL units. Prefix messages wait for their tile. -/
structure SubStreamState (M : Type) where
  data : AtlasData M := {}
  prefixSEI : List M := []
  tile : TileState := {}

namespace SubStreamState

/-- `getAtlasTileLayerList().back()`. -/
def lastTileLayer (state : SubStreamState M) : Option (AtlasTileLayer M) :=
  state.data.atlasTileLayer.getLast?

/-- What the reader keeps of a NAL unit. A suffix message without a tile has no list. -/
def receive (state : SubStreamState M) : NalPayload M → Option (SubStreamState M)
  | .asps set => some { state with data := { state.data with
      atlasSequenceParameterSet := state.data.atlasSequenceParameterSet ++ [set] } }
  | .afps set => some { state with data := { state.data with
      atlasFrameParameterSet := state.data.atlasFrameParameterSet ++ [set] } }
  | .tileLayer _ layer => some { state with
      data := { state.data with
        atlasTileLayer := state.data.atlasTileLayer ++
          [{ rbsp := layer, sei := { seiPrefix := state.prefixSEI } }] }
      prefixSEI := [] }
  | .sei nalUnitType message =>
    if IsPrefixSei nalUnitType then
      some { state with prefixSEI := state.prefixSEI ++ [message] }
    else do
      let last ← state.lastTileLayer
      let last := { last with sei := { last.sei with
        seiSuffix := last.sei.seiSuffix ++ [message] } }
      pure { state with data := { state.data with
        atlasTileLayer := state.data.atlasTileLayer.dropLast ++ [last] } }
  | .unsupported _ => some state

end SubStreamState

namespace PCCBitstreamReader

/-- `do { byte = read( 8 ); value += byte; } while ( byte == 0xff )`, for an `int32_t`. Every
iteration takes bits, so it ends within as many iterations as there are bits. -/
def ffLoop : ℕ → ℕ → Reader ℕ
  | 0, _ => Reader.fail
  | fuel + 1, value => do
    let byte ← read 8
    if 2 ^ 31 ≤ value + byte then Reader.fail
    else if byte = 0xff then ffLoop fuel (value + byte)
    else pure (value + byte)

def ffCoded : Reader ℕ := do
  let fuel ← Reader.remaining
  ffLoop fuel 0

/-- Reads a message behind the messages of its list. -/
def seiMessage (seiPayload : SeiPayloadReader M) (seis : List M) (nalUnitType : ℕ) :
    Reader M := do
  let payloadType ← ffCoded
  let payloadSize ← ffCoded
  seiPayload seis nalUnitType payloadType payloadSize

def atlasTileLayerRbsp (syntax' : PCCAtlasHighLevelSyntax) (tile : TileState)
    (nalUnitType : ℕ) : Reader (AtlasTileLayerRbsp × TileState) := do
  let tileOrder := syntax'.atlasTileLayer.length
  let (ath, afps, asps) ← atlasTileHeader syntax'.byPosition nalUnitType
  let (patchInformationData, tile) ←
    atlasTileDataUnit { ath, afps, asps } { layers := syntax'.atlasTileLayer, tileOrder } tile
  rbspTrailingBits
  pure ({ header := ath, dataUnit := { tileOrder, patchInformationData }, tileOrder }, tile)

/-- What is behind the header of a NAL unit, and the members of the reader behind it. -/
def nalPayload (seiPayload : SeiPayloadReader M) (state : SubStreamState M)
    (nalUnitType : ℕ) : Reader (NalPayload M × TileState) :=
  if nalUnitType = NAL_ASPS then do
    let set ← atlasSequenceParameterSetRbsp
    pure (.asps set, state.tile)
  else if nalUnitType = NAL_AFPS then do
    let (set, _) ← atlasFrameParameterSetRbsp state.data.highLevelSyntax.byPosition
    pure (.afps set, state.tile)
  else if IsTileLayer nalUnitType then do
    let (layer, tile) ← atlasTileLayerRbsp state.data.highLevelSyntax state.tile nalUnitType
    pure (.tileLayer nalUnitType layer, tile)
  else if IsPrefixSei nalUnitType then do
    let message ← seiMessage seiPayload state.prefixSEI nalUnitType
    pure (.sei nalUnitType message, state.tile)
  else if IsSuffixSei nalUnitType then do
    let last ← Reader.ofOption state.lastTileLayer
    let message ← seiMessage seiPayload last.sei.seiSuffix nalUnitType
    pure (.sei nalUnitType message, state.tile)
  else pure (.unsupported nalUnitType, state.tile)

def sampleStreamNalUnit (seiPayload : SeiPayloadReader M) (sizePrecisionBytesMinus1 : ℕ)
    (state : SubStreamState M) : Reader (NalPayload M × SubStreamState M) := do
  let size ← read (8 * (sizePrecisionBytesMinus1 + 1) % 2 ^ 8)
  let nalu ← nalUnitHeader size
  let (payload, tile) ← nalPayload seiPayload state nalu.type
  let state ← Reader.ofOption ({ state with tile }.receive payload)
  pure (payload, state)

/-- The loop of `atlasSubStream`, which ends with the bytes. Every NAL unit takes bits. -/
def nalUnitLoop (seiPayload : SeiPayloadReader M) (sizePrecisionBytesMinus1 : ℕ) :
    ℕ → SubStreamState M → Reader (List (NalPayload M) × SubStreamState M)
  | 0, state => do
    let remaining ← Reader.remaining
    if remaining = 0 then pure ([], state) else Reader.fail
  | fuel + 1, state => do
    let remaining ← Reader.remaining
    if remaining = 0 then pure ([], state)
    else do
      let (payload, state) ← sampleStreamNalUnit seiPayload sizePrecisionBytesMinus1 state
      let (payloads, state) ← nalUnitLoop seiPayload sizePrecisionBytesMinus1 fuel state
      pure (payload :: payloads, state)

/-- The NAL units of a sub-bitstream and the state at its end. -/
def atlasSubStream (seiPayload : SeiPayloadReader M) (tile : TileState) :
    Reader (List (NalPayload M) × SubStreamState M) := do
  let sizePrecisionBytesMinus1 ← read 3
  let _ ← read 5
  let fuel ← Reader.remaining
  nalUnitLoop seiPayload sizePrecisionBytesMinus1 fuel { tile }

end PCCBitstreamReader

namespace PCCBitstreamWriter

/-- The type of the NAL unit of a tile layer. -/
def naluType (atgh : AtlasTileHeader) : ℕ :=
  if atgh.tileNaluTypeInfo = 1 then NAL_TRAIL_R
  else if atgh.tileNaluTypeInfo = 2 then NAL_TRAIL_N
  else NAL_IDR_N_LP

def tileLayerUnits (layer : AtlasTileLayer M) (atglIndex : ℕ) : List (NalPayload M) :=
  layer.sei.seiPrefix.map (.sei NAL_PREFIX_ESEI) ++
    [.tileLayer (naluType layer.rbsp.header) { layer.rbsp with
      dataUnit := { layer.rbsp.dataUnit with tileOrder := atglIndex } }] ++
    layer.sei.seiSuffix.map (.sei NAL_SUFFIX_ESEI)

/-- The NAL units of the second pass of `atlasSubStream`, in its order. -/
def nalUnits (data : AtlasData M) : List (NalPayload M) :=
  data.atlasSequenceParameterSet.map .asps ++ data.atlasFrameParameterSet.map .afps ++
    data.atlasTileLayer.zipIdx.flatMap fun (layer, atglIndex) => tileLayerUnits layer atglIndex

end PCCBitstreamWriter

end V3C

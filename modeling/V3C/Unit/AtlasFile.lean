import Mathlib.Data.List.Forall2
import Mathlib.Tactic.Choose
import V3C.Atlas.AtlasSubStreamRoundTrip
import V3C.Unit.CompressedFile

/-! Compressed files whose atlases are coded by their own sub-bitstreams. -/
namespace V3C
open Codec

variable {M : Type} (others : SeiSyntax M)

/-- `atlasSubStream` into the atlas that the context already has. -/
def PCCBitstreamReader.atlasSubStreamInto (data : AtlasData (SEI M)) :
    Reader (List (NalPayload (SEI M)) × SubStreamState (SEI M)) := do
  let sizePrecisionBytesMinus1 ← read 3
  let _ ← read 5
  let fuel ← Reader.remaining
  nalUnitLoop (seiPayload others) sizePrecisionBytesMinus1 fuel { data }

/-- The atlas sub-bitstreams of a file. Every group is read by a new reader. -/
def atlasCodec : AtlasCodec (AtlasData (SEI M)) where
  initial := {}
  atlasSubStream data := (PCCBitstreamWriter.atlasSubStream others data 0).map fun run =>
    bytesOfBits run.2
  readAtlasSubStream data bytes :=
    (PCCBitstreamReader.atlasSubStreamInto others data ⟨0, bitsOfBytes bytes⟩).map fun run =>
      run.1.2.data
  rawPatchEnabledFlag data :=
    data.atlasSequenceParameterSet.head?.map AtlasSequenceParameterSetRbsp.rawPatchEnabledFlag

/-- What the encoder holds of one group: an atlas that can be coded, a parameter set of one atlas
with a stream for each of its components, and the bytes of every component. -/
structure AtlasGroup where
  coded : CodedAtlas others
  newReader : coded.tile = {}
  first : AtlasSequenceParameterSetRbsp
  firstSet : coded.data.atlasSequenceParameterSet.head? = some first
  context : PCCHighLevelSyntax (AtlasData (SEI M))
  vps : V3CParameterSet
  atlas : VpsAtlas
  vpsCoded : vps.Coded
  short : vps.profileTierLevel.NoLongIdc
  oneAtlas : vps.atlases = [atlas]
  oneStream : atlas.OneStreamEach
  active : context.getVps = some vps
  atlases : context.atlasHLS.map AtlasSyntax.atlas = [coded.data]
  index : context.atlasIndex = 0
  held : ∀ c ∈ PCCBitstreamWriter.videoHeaders atlas first.rawPatchEnabledFlag
    { v3cParameterSetId := vps.v3cParameterSetId }, ∃ bytes, context.component vps c = some bytes

variable {others}

/-- The bytes of an atlas whose units come back to a new reader. -/
theorem Delivered.exists_bytes {data data' : AtlasData (SEI M)} {payloads : List (NalPayload (SEI M))}
    {tile' : TileState} (h : Delivered others data.highLevelSyntax.byPosition { tile := {} }
      (PCCBitstreamWriter.outgoingUnits data) payloads { data := data', tile := tile' })
    (hsmall : ∀ sizes, PCCBitstreamWriter.unitSizes others data.highLevelSyntax.byPosition 0
      (PCCBitstreamWriter.outgoingUnits data) = some sizes → ∀ size ∈ sizes,
        PCCBitstreamWriter.nalHeaderSize ≤ size ∧ size + 1 < 2 ^ 32) :
    ∃ bytes, (atlasCodec others).atlasSubStream data = some bytes ∧
      (atlasCodec others).readAtlasSubStream (atlasCodec others).initial bytes = some data' := by
  obtain ⟨bits, hwrite, hwhole, hread⟩ := h.exists_stream hsmall
  refine ⟨bytesOfBits bits, ?_, ?_⟩
  · simp only [atlasCodec, hwrite, Option.map_some]
  · have hinto : PCCBitstreamReader.atlasSubStreamInto others (atlasCodec others).initial =
        PCCBitstreamReader.atlasSubStream (PCCBitstreamReader.seiPayload others) {} := rfl
    change (PCCBitstreamReader.atlasSubStreamInto others (atlasCodec others).initial
      ⟨0, bitsOfBytes (bytesOfBits bits)⟩).map _ = _
    rw [hinto, bitsOfBytes_bytesOfBits hwhole, hread]
    rfl

theorem CodedAtlas.exists_bytes (coded : CodedAtlas others) (htile : coded.tile = {}) :
    ∃ bytes, (atlasCodec others).atlasSubStream coded.data = some bytes ∧
      (atlasCodec others).readAtlasSubStream (atlasCodec others).initial bytes =
        some coded.data.received := by
  obtain ⟨tile', hdelivered⟩ := coded.delivered
  rw [htile] at hdelivered
  exact hdelivered.exists_bytes coded.sizes_lt

namespace AtlasGroup

/-- What a decoder has of the group: the parameter set, the sets, tile layers and messages of the
atlas as they are received, and the bytes of every video component. -/
structure Restored (group : AtlasGroup others) (context : PCCHighLevelSyntax (AtlasData (SEI M))) :
    Prop where
  getVps : context.getVps = some group.vps.received
  atlases : context.atlasHLS.map AtlasSyntax.atlas = [group.coded.data.received]
  index : context.atlasIndex = 0
  component : ∀ c ∈ PCCBitstreamWriter.videoHeaders group.atlas group.first.rawPatchEnabledFlag
      { v3cParameterSetId := group.vps.v3cParameterSetId },
    context.component group.vps.received c = group.context.component group.vps c

/-- The group with the bytes of its atlas. -/
def codedGroup (group : AtlasGroup others) {bytes : List UInt8}
    (hwritten : (atlasCodec others).atlasSubStream group.coded.data = some bytes)
    (hread : (atlasCodec others).readAtlasSubStream (atlasCodec others).initial bytes =
      some group.coded.data.received) : CodedGroup (atlasCodec others) where
  context := group.context
  vps := group.vps
  atlas := group.atlas
  data := group.coded.data
  bytes
  received := group.coded.data.received
  raw := group.first.rawPatchEnabledFlag
  coded := group.vpsCoded
  short := group.short
  oneAtlas := group.oneAtlas
  oneStream := group.oneStream
  active := group.active
  atlases := group.atlases
  index := group.index
  written := hwritten
  read := hread
  flag := by simp only [atlasCodec, group.firstSet, Option.map_some]
  held := group.held

theorem exists_codedGroup (group : AtlasGroup others) :
    ∃ codedGroup : CodedGroup (atlasCodec others), codedGroup.context = group.context ∧
      ∀ context, codedGroup.Restored context → group.Restored context := by
  obtain ⟨bytes, hwritten, hread⟩ := group.coded.exists_bytes group.newReader
  refine ⟨group.codedGroup hwritten hread, rfl, fun context hrestored => ?_⟩
  exact {
    getVps := hrestored.getVps
    atlases := hrestored.atlases
    index := hrestored.index
    component := hrestored.component }

end AtlasGroup

/-- The atlas of two skip tiles and three messages, in a group of one map with an attribute. -/
def skipTilesGroup : AtlasGroup noOtherMessages where
  coded := codedSkipTiles
  newReader := rfl
  first := plrSet [{ fillingFlag := true }, {}]
  firstSet := rfl
  context := holding (atlasCodec noOtherMessages) oneMapSet [skipTiles] fun _ =>
    [0, 0, 0, 2, 1, 1]
  vps := oneMapSet
  atlas := oneMap
  vpsCoded := oneMapSet_inRange.coded oneMapSet_restorable
  short := oneMapSet_noLongIdc
  oneAtlas := oneMapSet_atlases
  oneStream := oneMap_oneStreamEach
  active := getVps_holding
  atlases := atlases_holding rfl
  index := rfl
  held _ hc := ⟨_, component_holding hc⟩

end V3C

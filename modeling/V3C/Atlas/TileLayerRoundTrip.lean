import V3C.Atlas.AtlasSubStreamWriter
import V3C.Syntax.FrameParameterSetExact
import V3C.Syntax.TileDataUnitRoundTrip
import V3C.Syntax.TileHeaderRoundTrip

/-! A tile layer is read back with the parameter sets that the reader has. The reader derives part
of a frame parameter set, but no element of a tile layer depends on that part. -/
namespace V3C
open Codec

def AtlasFrameParameterSetRbsp.received (asps : AtlasSequenceParameterSetRbsp)
    (afps : AtlasFrameParameterSetRbsp) : AtlasFrameParameterSetRbsp :=
  { afps with atlasFrameTileInformation := afps.atlasFrameTileInformation.received asps }

def TileContext.received (ctx : TileContext) : TileContext where
  ath := ctx.ath.received
  afps := ctx.afps.received ctx.asps
  asps := ctx.asps

def AtlasTileLayerRbsp.received (layer : AtlasTileLayerRbsp) (tileOrder : ℕ) :
    AtlasTileLayerRbsp where
  header := layer.header.received
  dataUnit :=
    { tileOrder
      patchInformationData :=
        layer.dataUnit.patchInformationData.dropLast.map (·.ofMode layer.header.type) }
  tileOrder := tileOrder

structure TileContext.Resolves (ctx : TileContext) (sets : ActiveSets) : Prop where
  afps : sets.afps ctx.ath.atlasFrameParameterSetId = some ctx.afps
  asps : sets.asps ctx.afps.atlasSequenceParameterSetId = some ctx.asps

/-- A tile layer that can be coded behind others, of which the last with patches has the given
index: its header, and a list of patches with an end. -/
structure TileContext.Codes (ctx : TileContext) (before : List AtlasTileLayerRbsp)
    (prevFrameIndex : ℤ) (layer : AtlasTileLayerRbsp) : Prop where
  header_eq : layer.header = ctx.ath
  header : ctx.ath.Coded (PCCBitstreamWriter.naluType ctx.ath) ctx.received.afps ctx.asps
  oneLongTerm : ctx.ath.refListStruct.numLtrAtlasFrmEntries ≤ 1
  rawBits : ctx.ath.type ≠ .skipTile → ctx.ath.RawBitsFit ctx.afps ctx.asps
  auxiliary : ctx.received.auxiliaryVideo = ctx.auxiliaryVideo
  patches : ∃ pids last, layer.dataUnit.patchInformationData = pids ++ [last] ∧
    last.patchMode = P_END ∧ (∀ pid ∈ pids, pid.Coded ctx.received ∧
      ¬pid.LosesPlrData ctx.received) ∧
    BlockSizesFit ctx.received ⟨before, before.length⟩ [] { prevFrameIndex } pids

def AtlasTileLayerRbsp.nextFrameIndex (layer : AtlasTileLayerRbsp) (tileOrder : ℕ)
    (prevFrameIndex : ℤ) : ℤ :=
  if layer.header.type = .skipTile then prevFrameIndex else toInt tileOrder

section

variable {ctx : TileContext}

/-- The writer does not depend on what the reader derives. -/
theorem atlasTileDataUnit_received (h : ctx.received.auxiliaryVideo = ctx.auxiliaryVideo)
    (atdu : AtlasTileDataUnit) :
    PCCBitstreamWriter.atlasTileDataUnit ctx.received atdu =
      PCCBitstreamWriter.atlasTileDataUnit ctx atdu := by
  have hraw : PCCBitstreamWriter.rawPatchDataUnit ctx.received =
      PCCBitstreamWriter.rawPatchDataUnit ctx := by
    funext rpdu
    unfold PCCBitstreamWriter.rawPatchDataUnit
    rw [h]
    rfl
  have heom : PCCBitstreamWriter.eomPatchDataUnit ctx.received =
      PCCBitstreamWriter.eomPatchDataUnit ctx := by
    funext epdu
    unfold PCCBitstreamWriter.eomPatchDataUnit
    rw [h]
  have hpatch : PCCBitstreamWriter.patchInformationData ctx.received =
      PCCBitstreamWriter.patchInformationData ctx := by
    funext pid
    unfold PCCBitstreamWriter.patchInformationData
    rw [hraw, heom]
    rfl
  unfold PCCBitstreamWriter.atlasTileDataUnit
  rw [hpatch]
  rfl

theorem atlasTileHeader_received {sets sets' : ActiveSets} (hresolves : ctx.Resolves sets)
    (hresolves' : ctx.received.Resolves sets') (nalUnitType : ℕ) :
    PCCBitstreamWriter.atlasTileHeader sets ctx.ath nalUnitType =
      PCCBitstreamWriter.atlasTileHeader sets' ctx.ath nalUnitType := by
  have hafps : sets'.afps ctx.ath.atlasFrameParameterSetId = some ctx.received.afps :=
    hresolves'.afps
  have hasps : sets'.asps ctx.received.afps.atlasSequenceParameterSetId = some ctx.asps :=
    hresolves'.asps
  unfold PCCBitstreamWriter.atlasTileHeader
  rw [hresolves.afps, hafps, Writer.ofOption_some, Writer.ofOption_some, pure_bind, pure_bind,
    hresolves.asps, hasps]
  rfl

/-- What a parsed data unit leaves of the state. -/
theorem prevFrameIndex_of_atlasTileDataUnit {history : TileHistory} {state state' : TileState}
    {pids : List PatchInformationData} {c c' : Cursor}
    (h : PCCBitstreamReader.atlasTileDataUnit ctx history state c = some ((pids, state'), c')) :
    state'.prevFrameIndex =
      if ctx.ath.type = .skipTile then state.prevFrameIndex else toInt history.tileOrder := by
  unfold PCCBitstreamReader.atlasTileDataUnit at h
  split_ifs at h ⊢
  · obtain ⟨hpair, -⟩ := Prod.mk.inj (Option.some.inj h)
    rw [(Prod.mk.inj hpair).2]
  · obtain ⟨fuel, c₁, -, h⟩ := Reader.bind_run_eq_some.mp h
    obtain ⟨loop, c₂, -, h⟩ := Reader.bind_run_eq_some.mp h
    obtain ⟨hpair, -⟩ := Prod.mk.inj (Option.some.inj h)
    rw [← (Prod.mk.inj hpair).2]

variable {before : List AtlasTileLayerRbsp} {layer : AtlasTileLayerRbsp} {sets sets' : ActiveSets}

theorem TileContext.Codes.header_roundTrip {prevFrameIndex : ℤ}
    (h : ctx.Codes before prevFrameIndex layer) (hresolves : ctx.Resolves sets)
    (hresolves' : ctx.received.Resolves sets') :
    RoundTrip (PCCBitstreamWriter.atlasTileHeader sets layer.header
        (PCCBitstreamWriter.naluType layer.header))
      (PCCBitstreamReader.atlasTileHeader sets' (PCCBitstreamWriter.naluType layer.header))
      (ctx.received.ath, ctx.received.afps, ctx.asps) := by
  rw [h.header_eq, atlasTileHeader_received hresolves hresolves']
  exact h.header.roundTrip hresolves'.afps hresolves'.asps h.oneLongTerm h.rawBits

theorem TileContext.Codes.header_total {prevFrameIndex : ℤ}
    (h : ctx.Codes before prevFrameIndex layer) (hresolves : ctx.Resolves sets)
    (hresolves' : ctx.received.Resolves sets') (nalUnitType : ℕ) :
    Writer.Total (PCCBitstreamWriter.atlasTileHeader sets layer.header nalUnitType) := by
  have hafps : sets'.afps ctx.ath.atlasFrameParameterSetId = some ctx.received.afps :=
    hresolves'.afps
  have hasps : sets'.asps ctx.received.afps.atlasSequenceParameterSetId = some ctx.asps :=
    hresolves'.asps
  rw [h.header_eq, atlasTileHeader_received hresolves hresolves']
  unfold PCCBitstreamWriter.atlasTileHeader
  rw [hafps, Writer.ofOption_some, pure_bind, hasps, Writer.ofOption_some, pure_bind]
  apply Writer.Total.bind
  · cases isIrap nalUnitType
    · exact (RoundTrip.pure ()).total
    · exact (RoundTrip.flag ctx.ath.noOutputOfPriorAtlasFramesFlag).total
  · exact (roundTrip_uvlc8 h.header.afpsId_lt).total.bind
      ((roundTrip_uvlc8 h.header.aapsId_lt).total.bind
        (h.header.body_roundTrip h.oneLongTerm h.rawBits).total)

theorem TileContext.Codes.dataUnit_roundTrip {tile : TileState}
    (h : ctx.Codes before tile.prevFrameIndex layer) :
    ∃ tile' : TileState, RoundTrip (PCCBitstreamWriter.atlasTileDataUnit ctx layer.dataUnit)
        (PCCBitstreamReader.atlasTileDataUnit ctx.received ⟨before, before.length⟩ tile)
        ((layer.received before.length).dataUnit.patchInformationData, tile') ∧
      tile'.prevFrameIndex = layer.nextFrameIndex before.length tile.prevFrameIndex := by
  obtain ⟨pids, last, hlist, hlast, hpids, hsizes⟩ := h.patches
  obtain ⟨tile', hround⟩ := tileDataUnitRoundTrips_of_fit hlast (fun pid hpid => (hpids pid hpid).1)
    hsizes fun pid hpid => (hpids pid hpid).2
  have hunit : layer.dataUnit = { layer.dataUnit with patchInformationData := pids ++ [last] } := by
    rw [← hlist]
  have hpatches : (layer.received before.length).dataUnit.patchInformationData =
      pids.map (·.ofMode ctx.received.ath.type) := by
    unfold AtlasTileLayerRbsp.received
    dsimp only
    rw [hlist, List.dropLast_concat, h.header_eq]
    rfl
  refine ⟨tile', ?_, ?_⟩
  · rw [← atlasTileDataUnit_received h.auxiliary, hunit, hpatches]
    exact hround
  · obtain ⟨bs, -, hread⟩ := hround 0
    rw [prevFrameIndex_of_atlasTileDataUnit (hread []), AtlasTileLayerRbsp.nextFrameIndex,
      h.header_eq]
    rfl

end

end V3C

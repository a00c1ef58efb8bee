import V3C.Atlas.NalUnitRoundTrip
import V3C.Codec.Traverse
import V3C.Syntax.SequenceParameterSetExact

/-! Writing an atlas sub-bitstream and reading it. Every parameter set, tile layer and message is
back in its place, and nothing of the bits is left. -/
namespace V3C
open Codec

variable {M : Type} {others : SeiSyntax M}

/-! ### What the reader has of an atlas -/

namespace AtlasData

/-- A frame parameter set behind all sequence parameter sets. -/
def receivedFrameSet (data : AtlasData M) (set : AtlasFrameParameterSetRbsp) :
    AtlasFrameParameterSetRbsp :=
  (data.atlasSequenceParameterSet[set.atlasSequenceParameterSetId]?.map set.received).getD set

def received (data : AtlasData M) : AtlasData M where
  atlasSequenceParameterSet := data.atlasSequenceParameterSet
  atlasFrameParameterSet := data.atlasFrameParameterSet.map data.receivedFrameSet
  atlasTileLayer := data.atlasTileLayer.zipIdx.map fun layer =>
    { layer.1 with rbsp := layer.1.rbsp.received layer.2 }

end AtlasData

structure AtlasTileLayer.Codes (others : SeiSyntax M) (sets : ActiveSets)
    (before : List AtlasTileLayerRbsp) (prevFrameIndex : ℤ) (layer : AtlasTileLayer (SEI M)) :
    Prop where
  rbsp : ∃ ctx : TileContext, ctx.Resolves sets ∧ ctx.Codes before prevFrameIndex layer.rbsp
  seiPrefix : ∀ sei ∈ layer.sei.seiPrefix, sei.Coded others layer.sei NAL_PREFIX_ESEI
  seiSuffix : ∀ sei ∈ layer.sei.seiSuffix, sei.Coded others layer.sei NAL_SUFFIX_ESEI

def TileLayersCoded (others : SeiSyntax M) (sets : ActiveSets) :
    List AtlasTileLayerRbsp → ℤ → List (AtlasTileLayer (SEI M)) → Prop
  | _, _, [] => True
  | before, prevFrameIndex, layer :: layers =>
    layer.Codes others sets before prevFrameIndex ∧
      TileLayersCoded others sets (before ++ [layer.rbsp.received before.length])
        (layer.rbsp.nextFrameIndex before.length prevFrameIndex) layers

/-- An atlas that can be coded, and the members of the reader before its first tile. Every set is
at the position of its id, and the sizes that the first pass measures are 32-bit values. -/
structure CodedAtlas (others : SeiSyntax M) where
  data : AtlasData (SEI M)
  tile : TileState
  sequenceSets : ∀ set ∈ data.atlasSequenceParameterSet, set.InRange ∧ set.Restorable
  frameSets : ∀ set ∈ data.atlasFrameParameterSet, ∃ asps,
    data.atlasSequenceParameterSet[set.atlasSequenceParameterSetId]? = some asps ∧
      set.InRange asps ∧ set.Restorable
  tileLayers : TileLayersCoded others data.highLevelSyntax.byPosition [] tile.prevFrameIndex
    data.atlasTileLayer
  sizes_lt : ∀ sizes, PCCBitstreamWriter.unitSizes others data.highLevelSyntax.byPosition 0
    (PCCBitstreamWriter.outgoingUnits data) = some sizes → ∀ size ∈ sizes,
      PCCBitstreamWriter.nalHeaderSize ≤ size ∧ size + 1 < 2 ^ 32

/-! ### Parameter sets -/

section

variable {sets : ActiveSets}

theorem ComesBack.asps {state : SubStreamState (SEI M)} {set : AtlasSequenceParameterSetRbsp}
    (hset : set.InRange) (hrestorable : set.Restorable) (messages : PCCSEI (SEI M)) :
    ComesBack others sets state (.asps set, messages) (.asps set) { state with
      data := { state.data with
        atlasSequenceParameterSet := state.data.atlasSequenceParameterSet ++ [set] } } where
  measured := (hset.roundTrip hrestorable).total
  passed := ⟨_, rfl, {
    roundTrip := ⟨state.tile, (hset.roundTrip hrestorable).last rfl, rfl⟩
    aligned := set.writer_aligned
    type_lt := by simp [NalPayload.type, NAL_ASPS] }⟩

theorem delivered_asps (list : List AtlasSequenceParameterSetRbsp) {state : SubStreamState (SEI M)}
    (h : ∀ set ∈ list, set.InRange ∧ set.Restorable) :
    Delivered others sets state (list.map fun set => (.asps set, { seiPrefix := [] }))
      (list.map .asps) { state with data := { state.data with
        atlasSequenceParameterSet := state.data.atlasSequenceParameterSet ++ list } } := by
  induction list generalizing state with
  | nil =>
    rw [List.append_nil]
    exact .nil state
  | cons set list ih =>
    have hset := h set List.mem_cons_self
    have hrest := @ih { state with data := { state.data with
      atlasSequenceParameterSet := state.data.atlasSequenceParameterSet ++ [set] } }
      fun other hother => h other (List.mem_cons_of_mem set hother)
    simp only [List.append_assoc, List.singleton_append] at hrest
    exact .cons (.asps hset.1 hset.2 _) hrest

theorem ComesBack.afps {state : SubStreamState (SEI M)} {data : AtlasData (SEI M)}
    {asps : AtlasSequenceParameterSetRbsp} {set : AtlasFrameParameterSetRbsp}
    (hsets : state.data.atlasSequenceParameterSet = data.atlasSequenceParameterSet)
    (hasps : asps.InRange)
    (hactive : data.atlasSequenceParameterSet[set.atlasSequenceParameterSetId]? = some asps)
    (hset : set.InRange asps) (hrestorable : set.Restorable) (messages : PCCSEI (SEI M)) :
    ComesBack others data.highLevelSyntax.byPosition state (.afps set, messages)
      (.afps (data.receivedFrameSet set)) { state with data := { state.data with
        atlasFrameParameterSet :=
          state.data.atlasFrameParameterSet ++ [data.receivedFrameSet set] } } := by
  have hreceived : data.receivedFrameSet set = set.received asps := by
    unfold AtlasData.receivedFrameSet
    rw [hactive]
    rfl
  have hwriter : data.highLevelSyntax.byPosition.asps set.atlasSequenceParameterSetId =
      some asps := hactive
  have hreader : state.data.highLevelSyntax.byPosition.asps set.atlasSequenceParameterSetId =
      some asps := by
    rw [← hactive, ← hsets]
    rfl
  have hsame : PCCBitstreamWriter.atlasFrameParameterSetRbsp set
      data.highLevelSyntax.byPosition.asps =
        PCCBitstreamWriter.atlasFrameParameterSetRbsp set
          state.data.highLevelSyntax.byPosition.asps := by
    unfold PCCBitstreamWriter.atlasFrameParameterSetRbsp
    rw [hwriter, hreader]
  rw [hreceived]
  have hround := hset.roundTrip hasps hreader hrestorable
  rw [← hsame] at hround
  exact {
    measured := hround.total
    passed := ⟨_, rfl, {
      roundTrip := ⟨state.tile, hround.last rfl, rfl⟩
      aligned := set.writer_aligned data.highLevelSyntax.byPosition
      type_lt := by simp [NalPayload.type, NAL_AFPS] }⟩ }

theorem delivered_afps (coded : CodedAtlas others) (list : List AtlasFrameParameterSetRbsp)
    (hlist : ∀ set ∈ list, set ∈ coded.data.atlasFrameParameterSet) {state : SubStreamState (SEI M)}
    (hsets : state.data.atlasSequenceParameterSet = coded.data.atlasSequenceParameterSet) :
    Delivered others coded.data.highLevelSyntax.byPosition state
      (list.map fun set => (.afps set, { seiPrefix := [] }))
      ((list.map coded.data.receivedFrameSet).map .afps) { state with data := { state.data with
        atlasFrameParameterSet := state.data.atlasFrameParameterSet ++
          list.map coded.data.receivedFrameSet } } := by
  induction list generalizing state with
  | nil =>
    simp only [List.map_nil, List.append_nil]
    exact .nil state
  | cons set list ih =>
    obtain ⟨asps, hactive, hset, hrestorable⟩ :=
      coded.frameSets set (hlist set List.mem_cons_self)
    have hasps := (coded.sequenceSets asps (List.mem_of_getElem? hactive)).1
    have hrest := @ih (fun other hother => hlist other (List.mem_cons_of_mem set hother))
      { state with data := { state.data with atlasFrameParameterSet :=
        state.data.atlasFrameParameterSet ++ [coded.data.receivedFrameSet set] } } hsets
    simp only [List.append_assoc, List.singleton_append] at hrest
    exact .cons (.afps hsets hasps hactive hset hrestorable _) hrest

/-! ### Tile layers and their messages -/

theorem ComesBack.seiPrefix {state : SubStreamState (SEI M)} {messages : PCCSEI (SEI M)}
    {sei : SEI M} (h : sei.Coded others messages NAL_PREFIX_ESEI) :
    ComesBack others sets state (.sei NAL_PREFIX_ESEI sei, messages) (.sei NAL_PREFIX_ESEI sei)
      { state with prefixSEI := state.prefixSEI ++ [sei] } := by
  obtain ⟨passed, hpassed, hround, htotal⟩ := h.exists_passed state.prefixSEI
  refine ⟨htotal, (.sei NAL_PREFIX_ESEI passed, messages), ?_, ⟨state.tile, ?_, rfl⟩,
    seiMessage_aligned passed, ?_⟩
  · rw [PCCBitstreamWriter.passed, hpassed, Option.map_some]
  · exact hround.last rfl
  · simp [NalPayload.type, NAL_PREFIX_ESEI]

theorem delivered_seiPrefix {messages : PCCSEI (SEI M)} (list : List (SEI M))
    {state : SubStreamState (SEI M)}
    (h : ∀ sei ∈ list, sei.Coded others messages NAL_PREFIX_ESEI) :
    Delivered others sets state (list.map fun sei => (.sei NAL_PREFIX_ESEI sei, messages))
      (list.map (.sei NAL_PREFIX_ESEI)) { state with prefixSEI := state.prefixSEI ++ list } := by
  induction list generalizing state with
  | nil =>
    rw [List.append_nil]
    exact .nil state
  | cons sei list ih =>
    have hrest := @ih { state with prefixSEI := state.prefixSEI ++ [sei] }
      fun other hother => h other (List.mem_cons_of_mem sei hother)
    simp only [List.append_assoc, List.singleton_append] at hrest
    exact .cons (.seiPrefix (h sei List.mem_cons_self)) hrest

/-- The state behind a tile layer, which takes the waiting messages with it. -/
def SubStreamState.withLayer (state : SubStreamState (SEI M)) (layer : AtlasTileLayerRbsp)
    (seiSuffix : List (SEI M)) : SubStreamState (SEI M) where
  data := { state.data with atlasTileLayer := state.data.atlasTileLayer ++
    [{ rbsp := layer, sei := { seiPrefix := state.prefixSEI, seiSuffix } }] }
  tile := state.tile

theorem ComesBack.seiSuffix {state : SubStreamState (SEI M)} {layer : AtlasTileLayerRbsp}
    {messages : PCCSEI (SEI M)} {before : List (SEI M)} {sei : SEI M}
    (h : sei.Coded others messages NAL_SUFFIX_ESEI) :
    ComesBack others sets (state.withLayer layer before) (.sei NAL_SUFFIX_ESEI sei, messages)
      (.sei NAL_SUFFIX_ESEI sei) (state.withLayer layer (before ++ [sei])) := by
  have hlast : (state.withLayer layer before).lastTileLayer =
      some { rbsp := layer, sei := { seiPrefix := state.prefixSEI, seiSuffix := before } } := by
    simp [SubStreamState.lastTileLayer, SubStreamState.withLayer]
  obtain ⟨passed, hpassed, hround, htotal⟩ := h.exists_passed before
  refine ⟨htotal, (.sei NAL_SUFFIX_ESEI passed, messages), ?_, ⟨state.tile, ?_, ?_⟩,
    seiMessage_aligned passed, ?_⟩
  · rw [PCCBitstreamWriter.passed, hpassed, Option.map_some]
  · change RoundTrip _ (do
      let last ← Reader.ofOption (state.withLayer layer before).lastTileLayer
      let message ← PCCBitstreamReader.seiMessage (PCCBitstreamReader.seiPayload others)
        last.sei.seiSuffix NAL_SUFFIX_ESEI
      pure (NalPayload.sei NAL_SUFFIX_ESEI message, state.tile)) _
    rw [hlast, Reader.ofOption_some, pure_bind]
    exact hround.last rfl
  · simp [SubStreamState.receive, SubStreamState.lastTileLayer, SubStreamState.withLayer,
      IsPrefixSei, NAL_SUFFIX_ESEI, NAL_PREFIX_ESEI, NAL_PREFIX_NSEI]
  · simp [NalPayload.type, NAL_SUFFIX_ESEI]

theorem delivered_seiSuffix {layer : AtlasTileLayerRbsp} {messages : PCCSEI (SEI M)}
    (list : List (SEI M)) {before : List (SEI M)} {state : SubStreamState (SEI M)}
    (h : ∀ sei ∈ list, sei.Coded others messages NAL_SUFFIX_ESEI) :
    Delivered others sets (state.withLayer layer before)
      (list.map fun sei => (.sei NAL_SUFFIX_ESEI sei, messages))
      (list.map (.sei NAL_SUFFIX_ESEI)) (state.withLayer layer (before ++ list)) := by
  induction list generalizing before with
  | nil =>
    rw [List.append_nil]
    exact .nil _
  | cons sei list ih =>
    have hrest := @ih (before ++ [sei]) fun other hother => h other (List.mem_cons_of_mem sei hother)
    simp only [List.append_assoc, List.singleton_append] at hrest
    exact .cons (.seiSuffix (h sei List.mem_cons_self)) hrest

/-- The units of tile layers have one of three types. -/
theorem naluType_mem (atgh : AtlasTileHeader) :
    PCCBitstreamWriter.naluType atgh ∈ [NAL_TRAIL_R, NAL_TRAIL_N, NAL_IDR_N_LP] := by
  unfold PCCBitstreamWriter.naluType
  split_ifs <;> simp

theorem atlasTileLayerRbsp_roundTrip {sets' : PCCAtlasHighLevelSyntax} {ctx : TileContext}
    {layer : AtlasTileLayerRbsp} {tile : TileState} (hresolves : ctx.Resolves sets)
    (hresolves' : ctx.received.Resolves sets'.byPosition)
    (h : ctx.Codes sets'.atlasTileLayer tile.prevFrameIndex layer) :
    ∃ tile' : TileState, RoundTrip
        (PCCBitstreamWriter.atlasTileLayerRbsp sets layer
          (PCCBitstreamWriter.naluType layer.header))
        (PCCBitstreamReader.atlasTileLayerRbsp sets' tile
          (PCCBitstreamWriter.naluType layer.header))
        (layer.received sets'.atlasTileLayer.length, tile') ∧
      tile'.prevFrameIndex =
        layer.nextFrameIndex sets'.atlasTileLayer.length tile.prevFrameIndex := by
  obtain ⟨tile', hunit, htile'⟩ := h.dataUnit_roundTrip
  refine ⟨tile', ?_, htile'⟩
  unfold PCCBitstreamWriter.atlasTileLayerRbsp PCCBitstreamReader.atlasTileLayerRbsp
  apply (h.header_roundTrip hresolves hresolves').bind
  rw [h.header_eq, hresolves.afps, Writer.ofOption_some, pure_bind, hresolves.asps,
    Writer.ofOption_some, pure_bind]
  apply hunit.bind
  apply byteAlignment_roundTrip.last
  unfold AtlasTileLayerRbsp.received
  rw [h.header_eq]
  rfl

/-- The writer numbers the tile layers, which no element depends on. -/
theorem TileContext.Codes.numbered {ctx : TileContext} {before : List AtlasTileLayerRbsp}
    {prevFrameIndex : ℤ} {layer : AtlasTileLayerRbsp} (h : ctx.Codes before prevFrameIndex layer)
    (tileOrder : ℕ) :
    ctx.Codes before prevFrameIndex
      { layer with dataUnit := { layer.dataUnit with tileOrder } } where
  header_eq := h.header_eq
  header := h.header
  oneLongTerm := h.oneLongTerm
  rawBits := h.rawBits
  auxiliary := h.auxiliary
  patches := h.patches

theorem ComesBack.tileLayer {state : SubStreamState (SEI M)} {ctx : TileContext}
    {layer : AtlasTileLayerRbsp} (hresolves : ctx.Resolves sets)
    (hresolves' : ctx.received.Resolves state.data.highLevelSyntax.byPosition)
    (h : ctx.Codes state.data.highLevelSyntax.atlasTileLayer state.tile.prevFrameIndex layer)
    (messages : PCCSEI (SEI M)) :
    ∃ tile' : TileState, ComesBack others sets state
        (.tileLayer (PCCBitstreamWriter.naluType layer.header) layer, messages)
        (.tileLayer (PCCBitstreamWriter.naluType layer.header)
          (layer.received state.data.atlasTileLayer.length))
        ({ state with tile := tile' }.withLayer
          (layer.received state.data.atlasTileLayer.length) []) ∧
      tile'.prevFrameIndex =
        layer.nextFrameIndex state.data.atlasTileLayer.length state.tile.prevFrameIndex := by
  have hlength : state.data.highLevelSyntax.atlasTileLayer.length =
      state.data.atlasTileLayer.length := by
    simp [AtlasData.highLevelSyntax]
  obtain ⟨tile', hround, htile'⟩ := atlasTileLayerRbsp_roundTrip hresolves hresolves' h
  rw [hlength] at hround htile'
  have htype := naluType_mem layer.header
  generalize PCCBitstreamWriter.naluType layer.header = nalUnitType at *
  have hkinds : nalUnitType ≠ NAL_ASPS ∧ nalUnitType ≠ NAL_AFPS ∧ IsTileLayer nalUnitType ∧
      nalUnitType < 2 ^ 6 := by
    simp only [List.mem_cons, List.not_mem_nil, or_false] at htype
    unfold IsTileLayer
    unfold NAL_TRAIL_R NAL_TRAIL_N NAL_IDR_N_LP at *
    unfold NAL_ASPS NAL_AFPS NAL_SKIP_R
    omega
  obtain ⟨hasps, hafps, hlayer, hlt⟩ := hkinds
  refine ⟨tile', ⟨?_, _, rfl, ⟨tile', ?_, rfl⟩, ?_, hlt⟩, htile'⟩
  rotate_left
  · unfold PCCBitstreamWriter.nalPayload PCCBitstreamReader.nalPayload NalPayload.type
    dsimp only
    rw [if_neg hasps, if_neg hafps, if_pos hlayer]
    exact hround.last rfl
  · unfold PCCBitstreamWriter.nalPayload PCCBitstreamWriter.atlasTileLayerRbsp
    dsimp only
    iterate 4
      apply Writer.Aligned.bind
      intro _
    exact PCCBitstreamWriter.byteAlignment_aligned
  · unfold PCCBitstreamWriter.nalPayload PCCBitstreamWriter.measured
      PCCBitstreamWriter.atlasTileLayerRbsp
    dsimp only
    have hheader := h.header_total hresolves hresolves' NAL_SKIP_R
    obtain ⟨last, hunit, -⟩ := h.dataUnit_roundTrip
    rw [h.header_eq] at hheader ⊢
    rw [hresolves.afps, Writer.ofOption_some, pure_bind, hresolves.asps, Writer.ofOption_some,
      pure_bind]
    exact hheader.bind (hunit.total.bind byteAlignment_roundTrip.total)

/-- The sets of the reader stand behind the ids wherever those of the writer do. -/
def Follows (sets' sets : ActiveSets) : Prop :=
  ∀ ctx : TileContext, ctx.Resolves sets → ctx.received.Resolves sets'

def SubStreamState.withTileLayer (state : SubStreamState (SEI M)) (layer : AtlasTileLayer (SEI M))
    (tile : TileState) : SubStreamState (SEI M) where
  data := { state.data with atlasTileLayer := state.data.atlasTileLayer ++
    [{ layer with rbsp := layer.rbsp.received state.data.atlasTileLayer.length }] }
  tile := tile

theorem AtlasTileLayer.Codes.delivered {state : SubStreamState (SEI M)} {layer : AtlasTileLayer (SEI M)}
    (hwaiting : state.prefixSEI = []) (hfollows : Follows state.data.highLevelSyntax.byPosition sets)
    (h : layer.Codes others sets state.data.highLevelSyntax.atlasTileLayer
      state.tile.prevFrameIndex) :
    ∃ tile' : TileState, Delivered others sets state
        ((PCCBitstreamWriter.tileLayerUnits layer state.data.atlasTileLayer.length).map
          fun payload => (payload, layer.sei))
        (PCCBitstreamWriter.tileLayerUnits
          { layer with rbsp := layer.rbsp.received state.data.atlasTileLayer.length }
          state.data.atlasTileLayer.length)
        (state.withTileLayer layer tile') ∧
      tile'.prevFrameIndex =
        layer.rbsp.nextFrameIndex state.data.atlasTileLayer.length state.tile.prevFrameIndex := by
  obtain ⟨ctx, hresolves, hcodes⟩ := h.rbsp
  have hmessages : Delivered others sets state _ _ _ :=
    delivered_seiPrefix layer.sei.seiPrefix h.seiPrefix
  rw [hwaiting, List.nil_append] at hmessages
  obtain ⟨tile', hlayer, htile'⟩ :=
    @ComesBack.tileLayer M others sets { state with prefixSEI := layer.sei.seiPrefix } ctx _ hresolves
      (hfollows ctx hresolves) (hcodes.numbered state.data.atlasTileLayer.length) layer.sei
  have hsuffix := @delivered_seiSuffix M others sets
    (layer.rbsp.received state.data.atlasTileLayer.length) layer.sei layer.sei.seiSuffix []
    { state with prefixSEI := layer.sei.seiPrefix, tile := tile' } h.seiSuffix
  refine ⟨tile', ?_, htile'⟩
  have hall := (hmessages.append (.single hlayer)).append hsuffix
  unfold PCCBitstreamWriter.tileLayerUnits
  simp only [List.map_append, List.map_map, List.map_cons, List.map_nil, Function.comp_def]
  exact hall

theorem TileLayersCoded.delivered (layers : List (AtlasTileLayer (SEI M))) :
    ∀ {state : SubStreamState (SEI M)}, state.prefixSEI = [] →
      Follows state.data.highLevelSyntax.byPosition sets →
      TileLayersCoded others sets state.data.highLevelSyntax.atlasTileLayer
        state.tile.prevFrameIndex layers →
      ∃ tile' : TileState, Delivered others sets state
        ((layers.zipIdx state.data.atlasTileLayer.length).flatMap fun layer =>
          (PCCBitstreamWriter.tileLayerUnits layer.1 layer.2).map
            fun payload => (payload, layer.1.sei))
        ((layers.zipIdx state.data.atlasTileLayer.length).flatMap fun layer =>
          PCCBitstreamWriter.tileLayerUnits
            { layer.1 with rbsp := layer.1.rbsp.received layer.2 } layer.2)
        { data := { state.data with atlasTileLayer := state.data.atlasTileLayer ++
            (layers.zipIdx state.data.atlasTileLayer.length).map fun layer =>
              { layer.1 with rbsp := layer.1.rbsp.received layer.2 } }
          tile := tile' } := by
  induction layers with
  | nil =>
    intro state hfront _ _
    refine ⟨state.tile, ?_⟩
    have hstate : ({ data := state.data, tile := state.tile } : SubStreamState (SEI M)) = state := by
      rw [← hfront]
    simp only [List.zipIdx_nil, List.flatMap_nil, List.map_nil, List.append_nil]
    rw [hstate]
    exact .nil state
  | cons layer layers ih =>
    intro state hfront hfollows hcoded
    obtain ⟨tile', hfirst, htile'⟩ := hcoded.1.delivered hfront hfollows
    have hlength : (state.withTileLayer layer tile').data.atlasTileLayer.length =
        state.data.atlasTileLayer.length + 1 := by
      simp [SubStreamState.withTileLayer]
    have hbefore : state.data.highLevelSyntax.atlasTileLayer.length =
        state.data.atlasTileLayer.length := by
      simp [AtlasData.highLevelSyntax]
    have hrest := hcoded.2
    rw [hbefore, ← htile'] at hrest
    obtain ⟨last, hothers⟩ := @ih (state.withTileLayer layer tile') rfl hfollows (by
      have hlayers : (state.withTileLayer layer tile').data.highLevelSyntax.atlasTileLayer =
          state.data.highLevelSyntax.atlasTileLayer ++
            [layer.rbsp.received state.data.atlasTileLayer.length] := by
        simp [SubStreamState.withTileLayer, AtlasData.highLevelSyntax]
      rw [hlayers]
      exact hrest)
    rw [hlength] at hothers
    refine ⟨last, ?_⟩
    have hall := hfirst.append hothers
    simp only [List.zipIdx_cons, List.flatMap_cons, List.map_cons]
    simp only [SubStreamState.withTileLayer, List.append_assoc, List.singleton_append] at hall
    exact hall

/-! ### The two passes -/

/-- The first pass has a size for every unit. -/
theorem Delivered.exists_unitSizes {state state' : SubStreamState (SEI M)} {units : List (OutgoingUnit (SEI M))}
    {payloads : List (NalPayload (SEI M))} (h : Delivered others sets state units payloads state') :
    ∀ position, ∃ sizes, PCCBitstreamWriter.unitSizes others sets position units = some sizes ∧
      sizes.length = units.length := by
  induction h with
  | nil => exact fun _ => ⟨[], rfl, rfl⟩
  | cons hunit _ ih =>
    intro position
    obtain ⟨bs, hrun⟩ := hunit.measured (advance 0 position)
    obtain ⟨sizes, hsizes, hlength⟩ := ih (position + bs.length)
    refine ⟨((position + bs.length) / 8 - position / 8 + PCCBitstreamWriter.nalHeaderSize) %
      2 ^ 32 :: sizes, ?_, by rw [List.length_cons, List.length_cons, hlength]⟩
    unfold PCCBitstreamWriter.unitSizes
    rw [hrun, Option.bind_eq_bind, Option.bind_some]
    dsimp only
    rw [hsizes, Option.bind_eq_bind, Option.bind_some]

end

/-- The precision that the writer takes has room for every size. -/
theorem sizePrecisionBytesMinus1_spec {sizes : List ℕ} (h : ∀ size ∈ sizes, size + 1 < 2 ^ 32) :
    PCCBitstreamWriter.sizePrecisionBytesMinus1 sizes ≤ 3 ∧ ∀ size ∈ sizes,
      size < 2 ^ (8 * (PCCBitstreamWriter.sizePrecisionBytesMinus1 sizes + 1)) := by
  have hmax : sizes.foldl max 0 < 2 ^ 32 - 1 :=
    foldl_max_lt (by decide) fun size hsize => Nat.lt_sub_of_add_lt (h size hsize)
  have hmod : (sizes.foldl max 0 + 1) % 2 ^ 32 = sizes.foldl max 0 + 1 := by omega
  have hpos := sizePrecision_pos (sizes.foldl max 0 + 1)
  have hfour : sizePrecision (sizes.foldl max 0 + 1) ≤ 4 := by
    apply (sizePrecision_le_iff (by decide) (by omega)).mpr
    rw [show (256 : ℕ) ^ 4 = 2 ^ 32 by decide]
    omega
  have hroom := (sizePrecision_le_iff hpos (by omega)).mp le_rfl
  unfold PCCBitstreamWriter.sizePrecisionBytesMinus1
  rw [hmod]
  refine ⟨by omega, fun size hsize => ?_⟩
  rw [Nat.sub_add_cancel hpos, pow_mul]
  calc size < sizes.foldl max 0 + 1 := Nat.lt_succ_of_le (le_foldl_max (Or.inr hsize))
    _ ≤ (2 ^ 8) ^ sizePrecision (sizes.foldl max 0 + 1) := hroom

/-- The stream of an atlas whose units come back: the precision, and the units behind it. -/
theorem Delivered.exists_stream {data : AtlasData (SEI M)} {tile : TileState}
    {payloads : List (NalPayload (SEI M))} {state' : SubStreamState (SEI M)}
    (h : Delivered others data.highLevelSyntax.byPosition { tile }
      (PCCBitstreamWriter.outgoingUnits data) payloads state')
    (hsmall : ∀ sizes, PCCBitstreamWriter.unitSizes others data.highLevelSyntax.byPosition 0
      (PCCBitstreamWriter.outgoingUnits data) = some sizes → ∀ size ∈ sizes,
        PCCBitstreamWriter.nalHeaderSize ≤ size ∧ size + 1 < 2 ^ 32) :
    ∃ bs, PCCBitstreamWriter.atlasSubStream others data 0 = some ((), bs) ∧ 8 ∣ bs.length ∧
      PCCBitstreamReader.atlasSubStream (PCCBitstreamReader.seiPayload others) tile ⟨0, bs⟩ =
        some ((payloads, state'), ⟨0, []⟩) := by
  obtain ⟨sizes, hsizes, hlength⟩ := h.exists_unitSizes 0
  have hsmall := hsmall sizes hsizes
  obtain ⟨hthree, hroom⟩ := sizePrecisionBytesMinus1_spec fun size hsize => (hsmall size hsize).2
  obtain ⟨passes, units, hpasses, hunits, ⟨k, hk⟩, hloop⟩ := h.exists_bits hlength
    fun size hsize => ⟨(hsmall size hsize).1, hthree, hroom size hsize⟩
  set precision := PCCBitstreamWriter.sizePrecisionBytesMinus1 sizes
  obtain ⟨first, hfirst, hreadFirst⟩ :=
    RoundTrip.write (show precision < 2 ^ 3 by omega) (show 3 ≤ 32 by decide) 0
  obtain ⟨zeros, hzeros, hreadZeros⟩ :=
    RoundTrip.write (show 0 < 2 ^ 5 by decide) (show 5 ≤ 32 by decide) (advance 0 first.length)
  have hthreeBits := Writer.Sized.write precision 3 0 first hfirst
  have hfiveBits := Writer.Sized.write 0 5 _ zeros hzeros
  have hphase : advance (advance 0 first.length) zeros.length = 0 := by
    rw [hthreeBits, hfiveBits]
    rfl
  refine ⟨first ++ (zeros ++ units), ?_, ?_, ?_⟩
  · unfold PCCBitstreamWriter.atlasSubStream
    rw [hsizes, Writer.ofOption_some, pure_bind, hpasses, Writer.ofOption_some, pure_bind]
    refine Writer.bind_run_eq_some.mpr ⟨(), first, _, hfirst, ?_, rfl⟩
    refine Writer.bind_run_eq_some.mpr ⟨(), zeros, units, hzeros, ?_, rfl⟩
    rw [hphase]
    exact hunits
  · rw [List.length_append, List.length_append, hthreeBits, hfiveBits, hk]
    omega
  · unfold PCCBitstreamReader.atlasSubStream
    refine Reader.bind_run_eq_some.mpr ⟨_, _, hreadFirst (zeros ++ units), ?_⟩
    refine Reader.bind_run_eq_some.mpr ⟨_, _, hreadZeros units, ?_⟩
    refine Reader.bind_run_eq_some.mpr ⟨_, _, rfl, ?_⟩
    rw [hphase]
    exact hloop _ le_rfl

namespace CodedAtlas

variable (coded : CodedAtlas others)

/-- The sets that the reader has behind the parameter sets. -/
theorem follows {state : SubStreamState (SEI M)}
    (hasps : state.data.atlasSequenceParameterSet = coded.data.atlasSequenceParameterSet)
    (hafps : state.data.atlasFrameParameterSet = coded.data.received.atlasFrameParameterSet) :
    Follows state.data.highLevelSyntax.byPosition coded.data.highLevelSyntax.byPosition := by
  intro ctx hctx
  have hactive : coded.data.atlasSequenceParameterSet[ctx.afps.atlasSequenceParameterSetId]? =
      some ctx.asps := hctx.asps
  have hset : coded.data.atlasFrameParameterSet[ctx.ath.atlasFrameParameterSetId]? =
      some ctx.afps := hctx.afps
  constructor
  · change state.data.atlasFrameParameterSet[ctx.ath.atlasFrameParameterSetId]? = _
    rw [hafps]
    unfold AtlasData.received
    rw [List.getElem?_map, hset]
    simp [AtlasData.receivedFrameSet, hactive, TileContext.received]
  · change state.data.atlasSequenceParameterSet[ctx.afps.atlasSequenceParameterSetId]? = _
    rw [hasps]
    exact hactive

/-- The units of what the reader has of the tile layers. -/
theorem nalUnits_received (data : AtlasData (SEI M)) :
    PCCBitstreamWriter.nalUnits data.received =
      data.atlasSequenceParameterSet.map .asps ++
        (data.atlasFrameParameterSet.map data.receivedFrameSet).map .afps ++
        data.atlasTileLayer.zipIdx.flatMap fun layer => PCCBitstreamWriter.tileLayerUnits
          { layer.1 with rbsp := layer.1.rbsp.received layer.2 } layer.2 := by
  have hlayers : ∀ (layers : List (AtlasTileLayer (SEI M))) (n : ℕ),
      (((layers.zipIdx n).map fun layer =>
        { layer.1 with rbsp := layer.1.rbsp.received layer.2 }).zipIdx n).flatMap
          (fun layer => PCCBitstreamWriter.tileLayerUnits layer.1 layer.2) =
        (layers.zipIdx n).flatMap fun layer => PCCBitstreamWriter.tileLayerUnits
          { layer.1 with rbsp := layer.1.rbsp.received layer.2 } layer.2 := by
    intro layers
    induction layers with
    | nil => exact fun _ => rfl
    | cons layer layers ih =>
      intro n
      simp only [List.zipIdx_cons, List.map_cons, List.flatMap_cons, ih]
  unfold PCCBitstreamWriter.nalUnits AtlasData.received
  dsimp only
  rw [hlayers]

/-- All units come back, one behind the other. -/
theorem delivered : ∃ tile' : TileState,
    Delivered others coded.data.highLevelSyntax.byPosition { tile := coded.tile }
      (PCCBitstreamWriter.outgoingUnits coded.data)
      (PCCBitstreamWriter.nalUnits coded.data.received)
      { data := coded.data.received, tile := tile' } := by
  have hasps := @delivered_asps M others coded.data.highLevelSyntax.byPosition
    coded.data.atlasSequenceParameterSet { tile := coded.tile } coded.sequenceSets
  have hafps := delivered_afps coded coded.data.atlasFrameParameterSet (fun _ hset => hset)
    (show ({ data := { atlasSequenceParameterSet := coded.data.atlasSequenceParameterSet }
             tile := coded.tile } : SubStreamState (SEI M)).data.atlasSequenceParameterSet =
      coded.data.atlasSequenceParameterSet from rfl)
  have hsets := hasps.append hafps
  simp only [List.nil_append] at hsets
  obtain ⟨tile', hlayers⟩ := @TileLayersCoded.delivered M others _ coded.data.atlasTileLayer
    { data := { coded.data.received with atlasTileLayer := [] }, tile := coded.tile }
    rfl (coded.follows rfl rfl) coded.tileLayers
  refine ⟨tile', ?_⟩
  rw [nalUnits_received]
  exact hsets.append hlayers

end CodedAtlas

/-- The only patch of a skip tile is the end of the list. -/
def skipTileLayer : AtlasTileLayerRbsp where
  header := { type := .skipTile }
  dataUnit := { tileOrder := 0, patchInformationData := [{ patchMode := P_END }] }

def skipTileContext : TileContext where
  ath := skipTileLayer.header
  afps := fourTiles
  asps := plrSet [{ fillingFlag := true }, {}]

theorem skipTileLayer_codes (before : List AtlasTileLayerRbsp) (prevFrameIndex : ℤ) :
    skipTileContext.Codes before prevFrameIndex skipTileLayer where
  header_eq := rfl
  header := {
    nalu := rfl
    noOutput_default := fun _ => rfl
    afpsId_lt := Nat.two_pow_pos _
    aapsId_lt := Nat.two_pow_pos _
    id := by
      unfold AtlasFrameTileInformation.CodesId
      rw [if_neg (show ¬skipTileContext.received.afps.atlasFrameTileInformation.signalledTileIdFlag
        from nofun)]
      exact ⟨show 3 + 1 < 2 ^ 32 by decide, Nat.zero_le _⟩
    type_lt := show 2 + 1 < 2 ^ 32 by decide
    type_eq := rfl
    output_default := fun _ => rfl
    width_le := show 4 + 4 ≤ 32 by decide
    lsb_lt := Nat.two_pow_pos _
    refList := ⟨Nat.two_pow_pos _, fun _ => rfl, nofun, fun _ => ⟨rfl, Nat.two_pow_pos _, nofun⟩⟩
    afocLsb := ⟨fun _ => ⟨rfl, rfl⟩, fun hone => absurd hone (by decide)⟩
    quantizers := fun hskip => absurd rfl hskip
    skipped := fun _ => ⟨rfl, rfl, rfl, rfl, rfl, rfl, rfl⟩ }
  oneLongTerm := Nat.zero_le _
  rawBits := fun hskip => absurd rfl hskip
  auxiliary := rfl
  patches := ⟨[], { patchMode := P_END }, rfl, rfl, fun _ hpid => absurd hpid List.not_mem_nil,
    trivial⟩

/-- One instance is smoothed in a grid of cells of eight. -/
def smoothedInstance : SEIGeometrySmoothing where
  persistenceFlag := true
  instanceIndex := [0]
  instances := [{ methodType := 1, parameters := { gridSizeMinus2 := 6, threshold := 64 } }]

def registeredBytes : SEIUserDataRegisteredItuTT35 where
  countryCode := 0xFF
  countryCodeExtensionByte := 1
  payloadByte := [7, 0, 255]

/-- The codec with the id 1 has the code `hev1`. -/
def hevcMapping : SEIComponentCodecMapping where
  codecId := [1]
  codec4cc := (List.replicate 256 []).set 1 [104, 101, 118, 49]

/-- Two tiles, each behind a message, and a third message behind the first tile. -/
def skipTiles : AtlasData (SEI Empty) where
  atlasSequenceParameterSet := [plrSet [{ fillingFlag := true }, {}]]
  atlasFrameParameterSet := [fourTiles]
  atlasTileLayer := [
    { rbsp := skipTileLayer
      sei := {
        seiPrefix := [{ content := .geometrySmoothing smoothedInstance }]
        seiSuffix := [{ content := .userDataRegisteredItuTT35 registeredBytes }] } },
    { rbsp := skipTileLayer
      sei := { seiPrefix := [{ content := .componentCodecMapping hevcMapping }] } }]

theorem smoothedInstance_coded :
    smoothedInstance.Coded {} GeometrySmoothingParameters.Coded where
  length_lt := by decide
  length_eq := rfl
  index_lt := by decide
  update update hupdate := by
    obtain rfl := List.mem_singleton.mp hupdate
    exact ⟨nofun, by decide, fun h => absurd rfl h, ⟨by decide, by decide⟩⟩
  noUpdate k hk hnot := by
    obtain rfl : k = 0 := Nat.lt_one_iff.mp hk
    exact absurd (List.mem_singleton_self 0) hnot

theorem registeredBytes_coded : registeredBytes.Coded where
  countryCode_lt := by decide
  extension_lt := by decide
  noExtension h := absurd rfl h
  byte_lt := by decide

theorem hevcMapping_coded : hevcMapping.Coded where
  canceled := nofun
  count_lt := by decide
  codecId _ := ⟨rfl, by decide⟩
  codec4cc _ := by
    refine ⟨by rw [hevcMapping, List.length_set, List.length_replicate], fun code hcode => ?_,
      fun k hk hnot => ?_⟩
    · rcases List.mem_or_eq_of_mem_set hcode with hmem | rfl
      · rw [List.eq_of_mem_replicate hmem]
        exact List.not_mem_nil
      · decide
    · have hne : 1 ≠ k := fun h => hnot (h ▸ List.mem_singleton_self 1)
      change ((List.replicate 256 []).set 1 [104, 101, 118, 49])[k]? = some []
      rw [List.getElem?_set_ne hne, List.getElem?_replicate, if_pos hk]

theorem unitSizes_skipTiles :
    PCCBitstreamWriter.unitSizes noOtherMessages skipTiles.highLevelSyntax.byPosition 0
      (PCCBitstreamWriter.outgoingUnits skipTiles) = some [13, 4, 9, 6, 9, 12, 6] := by
  decide +kernel

/-- Writing and reading two skip tiles gives them back. -/
def codedSkipTiles : CodedAtlas noOtherMessages where
  data := skipTiles
  tile := {}
  sequenceSets set hset := by
    obtain rfl := List.mem_singleton.mp hset
    refine ⟨plrSet_inRange (by decide) (by decide) ?_, ?_⟩
    · intro mode hmode
      rcases List.mem_pair.mp hmode with rfl | rfl
      all_goals exact ⟨by decide, by decide⟩
    · exact {
        plr := by
          intro plri hplri
          obtain rfl := List.mem_singleton.mp hplri
          exact ⟨fun _ => rfl, nofun⟩
        noPlr := nofun
        lists := nofun
        projections := fun _ => rfl
        noInterleaving := fun _ => rfl
        noEomFix := fun _ => rfl
        noAuxiliary := fun _ => rfl
        noExtension := fun _ => ⟨rfl, rfl⟩
        noVpcc := fun _ => rfl
        noThickness := fun _ => rfl }
  frameSets set hset := by
    obtain rfl := List.mem_singleton.mp hset
    exact ⟨_, rfl, fourTiles_inRange _, fourTiles_restorable⟩
  tileLayers := by
    refine ⟨⟨⟨skipTileContext, ⟨rfl, rfl⟩, skipTileLayer_codes _ _⟩, ?_, ?_⟩,
      ⟨⟨skipTileContext, ⟨rfl, rfl⟩, skipTileLayer_codes _ _⟩, ?_, nofun⟩, trivial⟩
    · intro sei hsei
      obtain rfl := List.mem_singleton.mp hsei
      exact ⟨rfl, ⟨Or.inl rfl, smoothedInstance_coded⟩, fun passed hpassed => by
        obtain rfl := Option.some.inj hpassed
        decide +kernel⟩
    · intro sei hsei
      obtain rfl := List.mem_singleton.mp hsei
      exact ⟨rfl, registeredBytes_coded, fun passed hpassed => by
        obtain rfl := Option.some.inj hpassed
        decide +kernel⟩
    · intro sei hsei
      obtain rfl := List.mem_singleton.mp hsei
      exact ⟨rfl, ⟨Or.inl rfl, hevcMapping_coded⟩, fun passed hpassed => by
        obtain rfl := Option.some.inj hpassed
        decide +kernel⟩
  sizes_lt sizes hsizes := by
    rw [unitSizes_skipTiles] at hsizes
    obtain rfl := Option.some.inj hsizes
    decide

end V3C

import Mathlib.Data.List.Forall2
import V3C.Atlas.AtlasSubStreamRoundTrip
import V3C.Syntax.TileDataUnitExact

/-! The end that the transcoder puts behind the patches of a tile. The reader drops it, and the
writer needs nothing of what the reader derives, so an atlas that has been read goes out with an
end as it has come in. -/
namespace V3C
open Codec

variable {M : Type}

namespace PCCTranscoder

def endPatch (type : PCCTileType) : PatchInformationData where
  patchMode := if type = .iTile then I_END else P_END

def addEndTile (data : AtlasData M) : AtlasData M :=
  { data with atlasTileLayer := data.atlasTileLayer.map fun atglu =>
      { atglu with rbsp := { atglu.rbsp with dataUnit := { atglu.rbsp.dataUnit with
          patchInformationData := atglu.rbsp.dataUnit.patchInformationData ++
            [endPatch atglu.rbsp.header.type] } } } }

theorem endPatch_patchMode (type : PCCTileType) : (endPatch type).patchMode = P_END := by
  unfold endPatch
  split_ifs <;> rfl

end PCCTranscoder

/-! ### What the writer needs -/

namespace AtlasFrameTileInformation

variable {asps : AtlasSequenceParameterSetRbsp} {afti got : AtlasFrameTileInformation}

theorem Restored.partitionSpacing_eq (h : afti.Restored asps got) :
    PCCBitstreamWriter.partitionSpacing got = PCCBitstreamWriter.partitionSpacing afti := by
  have hsizes : ∀ {sizes sizes' : List ℕ} {n : ℕ}, (∀ i < n, sizes[i]? = sizes'[i]?) →
      PCCBitstreamWriter.partitionSizes sizes n = PCCBitstreamWriter.partitionSizes sizes' n := by
    intro sizes sizes' n hsame
    refine Writer.forEach_congr fun i hi => ?_
    rw [hsame i (List.mem_range.mp hi)]
  unfold PCCBitstreamWriter.partitionSpacing
  have hwidths := h.widths
  have hheights := h.heights
  rw [h.uniform, h.columns, h.rows]
  cases hspacing : afti.uniformPartitionSpacingFlag with
  | true =>
    rw [hspacing] at hwidths hheights
    rw [if_pos rfl, if_pos rfl, hwidths 0 Nat.zero_lt_one, hheights 0 Nat.zero_lt_one]
  | false =>
    rw [hspacing] at hwidths hheights
    have hcolumns := hsizes (n := afti.numPartitionColumnsMinus1) hwidths
    have hrows := hsizes (n := afti.numPartitionRowsMinus1) hheights
    rw [if_neg nofun, if_neg nofun, hcolumns, hrows]

/-- What has come back is written as before. -/
theorem Restored.writer_eq (h : afti.Restored asps got) :
    PCCBitstreamWriter.atlasFrameTileInformation got asps =
      PCCBitstreamWriter.atlasFrameTileInformation afti asps := by
  have htile : ∀ i ∈ List.range (afti.numTilesInAtlasFrameMinus1 + 1),
      PCCBitstreamWriter.signalledTile got i = PCCBitstreamWriter.signalledTile afti i := by
    intro i hi
    have hle := Nat.le_of_lt_succ (List.mem_range.mp hi)
    unfold PCCBitstreamWriter.signalledTile
    rw [h.topLeft i hle, h.columnOffset i hle, h.rowOffset i hle,
      numPartitions_congr got afti h.columns h.rows]
  have hpartitions : PCCBitstreamWriter.tilePartitions got =
      PCCBitstreamWriter.tilePartitions afti := by
    unfold PCCBitstreamWriter.tilePartitions
    rw [h.partitionSpacing_eq, h.uniform, h.partition, h.tiles, Writer.forEach_congr htile]
  have hids : PCCBitstreamWriter.signalledTileIds got =
      PCCBitstreamWriter.signalledTileIds afti := by
    unfold PCCBitstreamWriter.signalledTileIds
    rw [h.idLength, h.tiles]
    refine congrArg _ (funext fun _ => Writer.forEach_congr fun i hi => ?_)
    rw [h.tileId i (Nat.le_of_lt_succ (List.mem_range.mp hi))]
  have hauxiliary : Writer.when asps.auxiliaryVideoEnabledFlag
        (PCCBitstreamWriter.auxiliaryVideoTiles got) =
      Writer.when asps.auxiliaryVideoEnabledFlag (PCCBitstreamWriter.auxiliaryVideoTiles afti) := by
    cases henabled : asps.auxiliaryVideoEnabledFlag with
    | false => rfl
    | true =>
      unfold PCCBitstreamWriter.auxiliaryVideoTiles
      rw [h.auxiliaryWidth henabled, h.tiles]
      refine congrArg _ (congrArg _ (funext fun _ => Writer.forEach_congr fun i hi => ?_))
      rw [h.auxiliaryHeight henabled i (Nat.le_of_lt_succ (List.mem_range.mp hi))]
  unfold PCCBitstreamWriter.atlasFrameTileInformation
  rw [h.single, h.signalled, hpartitions, hids, hauxiliary]

end AtlasFrameTileInformation

theorem AtlasFrameParameterSetRbsp.InRange.writer_received {asps : AtlasSequenceParameterSetRbsp}
    {afps : AtlasFrameParameterSetRbsp} (h : afps.InRange asps) (hrestorable : afps.Restorable)
    {sets : ℕ → Option AtlasSequenceParameterSetRbsp}
    (hasps : sets afps.atlasSequenceParameterSetId = some asps) :
    PCCBitstreamWriter.atlasFrameParameterSetRbsp (afps.received asps) sets =
      PCCBitstreamWriter.atlasFrameParameterSetRbsp afps sets := by
  have htiles := (h.tiles.restored_received hrestorable.tiles).writer_eq
  have hset : sets (afps.received asps).atlasSequenceParameterSetId = some asps := hasps
  unfold PCCBitstreamWriter.atlasFrameParameterSetRbsp
  rw [hset, hasps, Writer.ofOption_some, pure_bind, pure_bind]
  unfold AtlasFrameParameterSetRbsp.received
  dsimp only
  rw [htiles]

section TileLayers

variable {ctx : TileContext}

theorem writeEntry_ofMode (pid : PatchInformationData) :
    writeEntry ctx (pid.ofMode ctx.ath.type) = writeEntry ctx pid := by
  unfold writeEntry
  rw [PatchInformationData.ofMode_patchMode]
  unfold PCCBitstreamWriter.patchInformationData
  rw [PatchInformationData.ofMode_patchMode]
  unfold PatchInformationData.ofMode
  cases ctx.ath.type with
  | pTile =>
    dsimp only
    by_cases hskip : pid.patchMode = P_SKIP
    · rw [if_pos hskip, if_pos hskip]
    by_cases hmerge : pid.patchMode = P_MERGE
    · simp only [if_pos hmerge]
    by_cases hintra : pid.patchMode = P_INTRA
    · simp only [if_neg hmerge, if_pos hintra]
    by_cases hinter : pid.patchMode = P_INTER
    · simp only [if_neg hmerge, if_neg hintra, if_pos hinter]
    by_cases hraw : pid.patchMode = P_RAW
    · simp only [if_neg hmerge, if_neg hintra, if_neg hinter, if_pos hraw]
    by_cases heom : pid.patchMode = P_EOM
    · simp only [if_neg hmerge, if_neg hintra, if_neg hinter, if_neg hraw, if_pos heom]
    simp only [if_neg hskip, if_neg hmerge, if_neg hintra, if_neg hinter, if_neg hraw, if_neg heom]
  | iTile =>
    dsimp only
    by_cases hintra : pid.patchMode = I_INTRA
    · simp only [if_pos hintra]
    by_cases hraw : pid.patchMode = I_RAW
    · simp only [if_neg hintra, if_pos hraw]
    by_cases heom : pid.patchMode = I_EOM
    · simp only [if_neg hintra, if_neg hraw, if_pos heom]
    simp only [if_neg hintra, if_neg hraw, if_neg heom]
  | skipTile => rfl
  | other value => rfl

theorem writeEntry_end {last : PatchInformationData} (h : last.patchMode = P_END) :
    writeEntry ctx last = writeUvlc P_END := by
  unfold writeEntry
  rw [h, patchInformationData_end h]
  rfl

/-- The list that the reader has, behind an end, is written as the one that the bits are of. -/
theorem forEach_writeEntry {pids : List PatchInformationData} {last last' : PatchInformationData}
    (hlast : last.patchMode = P_END) (hlast' : last'.patchMode = P_END) :
    Writer.forEach (pids.map (·.ofMode ctx.ath.type) ++ [last']) (writeEntry ctx) =
      Writer.forEach (pids ++ [last]) (writeEntry ctx) := by
  induction pids with
  | nil =>
    rw [List.map_nil, List.nil_append, List.nil_append, Writer.forEach_cons, Writer.forEach_cons,
      writeEntry_end hlast, writeEntry_end hlast']
  | cons pid pids ih =>
    rw [List.map_cons, List.cons_append, List.cons_append, Writer.forEach_cons,
      Writer.forEach_cons, writeEntry_ofMode, ih]

variable {sets sets' : ActiveSets} {before : List AtlasTileLayerRbsp} {prevFrameIndex : ℤ}
  {layer : AtlasTileLayerRbsp}

theorem TileContext.Codes.atlasTileLayerRbsp_eq (h : ctx.Codes before prevFrameIndex layer)
    (hresolves : ctx.Resolves sets) (hresolves' : ctx.received.Resolves sets')
    {received : AtlasTileLayerRbsp} (hheader : received.header = layer.header.received)
    {last : PatchInformationData} (hlast : last.patchMode = P_END)
    (hpatches : received.dataUnit.patchInformationData =
      layer.dataUnit.patchInformationData.dropLast.map (·.ofMode layer.header.type) ++ [last])
    (nalUnitType : ℕ) :
    PCCBitstreamWriter.atlasTileLayerRbsp sets' received nalUnitType =
      PCCBitstreamWriter.atlasTileLayerRbsp sets layer nalUnitType := by
  obtain ⟨pids, last', hlist, hlast', -, -⟩ := h.patches
  have hafps : sets'.afps ctx.ath.atlasFrameParameterSetId = some ctx.received.afps :=
    hresolves'.afps
  have hasps : sets'.asps ctx.received.afps.atlasSequenceParameterSetId = some ctx.asps :=
    hresolves'.asps
  have hhead : PCCBitstreamWriter.atlasTileHeader sets' ctx.ath.received nalUnitType =
      PCCBitstreamWriter.atlasTileHeader sets ctx.ath nalUnitType := by
    rw [atlasTileHeader_received hresolves hresolves']
    rfl
  have hunit : PCCBitstreamWriter.atlasTileDataUnit ctx.received received.dataUnit =
      PCCBitstreamWriter.atlasTileDataUnit ctx layer.dataUnit := by
    rw [atlasTileDataUnit_received h.auxiliary]
    unfold PCCBitstreamWriter.atlasTileDataUnit
    rw [hpatches, hlist, List.dropLast_concat, h.header_eq]
    exact congrArg _ (forEach_writeEntry hlast' hlast)
  unfold PCCBitstreamWriter.atlasTileLayerRbsp
  rw [hheader, h.header_eq, hhead]
  refine congrArg _ (funext fun _ => ?_)
  have hid : ctx.ath.received.atlasFrameParameterSetId = ctx.ath.atlasFrameParameterSetId := rfl
  rw [hid, hafps, hresolves.afps, Writer.ofOption_some, Writer.ofOption_some, pure_bind, pure_bind,
    hasps, hresolves.asps, Writer.ofOption_some, pure_bind, pure_bind]
  exact congrArg (· >>= fun _ => PCCBitstreamWriter.byteAlignment) hunit

end TileLayers

/-! ### Units that are written alike -/

variable {others : SeiSyntax M} {sets sets' : ActiveSets}

/-- The bits of two units are the same in both passes. -/
structure WrittenAlike (others : SeiSyntax M) (sets sets' : ActiveSets)
    (unit unit' : OutgoingUnit (SEI M)) : Prop where
  measured :
    PCCBitstreamWriter.nalPayload others sets' unit'.2 (PCCBitstreamWriter.measured unit'.1) =
      PCCBitstreamWriter.nalPayload others sets unit.2 (PCCBitstreamWriter.measured unit.1)
  passed : ∀ {passed}, PCCBitstreamWriter.passed others unit = some passed →
    ∃ passed', PCCBitstreamWriter.passed others unit' = some passed' ∧
      passed'.1.type = passed.1.type ∧
      PCCBitstreamWriter.nalPayload others sets' passed'.2 passed'.1 =
        PCCBitstreamWriter.nalPayload others sets passed.2 passed.1

/-- No parameter set has to do with a message. -/
theorem WrittenAlike.sei (nalUnitType : ℕ) (sei : SEI M) (messages : PCCSEI (SEI M)) :
    WrittenAlike others sets sets' (.sei nalUnitType sei, messages)
      (.sei nalUnitType sei, messages) where
  measured := rfl
  passed {passed} h := by
    refine ⟨passed, h, rfl, ?_⟩
    obtain ⟨sei', -, rfl⟩ := Option.map_eq_some_iff.mp h
    rfl

theorem ComesBack.alike {state state' : SubStreamState (SEI M)}
    {unit unit' : OutgoingUnit (SEI M)} {payload : NalPayload (SEI M)}
    (h : ComesBack others sets state unit payload state')
    (halike : WrittenAlike others sets sets' unit unit') :
    ComesBack others sets' state unit' payload state' := by
  obtain ⟨passed, hpassed, hback⟩ := h.passed
  obtain ⟨passed', hpassed', htype, hwriter⟩ := halike.passed hpassed
  refine ⟨?_, passed', hpassed', ?_, ?_, ?_⟩
  · rw [halike.measured]
    exact h.measured
  · rw [hwriter, htype]
    exact hback.roundTrip
  · rw [hwriter]
    exact hback.aligned
  · rw [htype]
    exact hback.type_lt

theorem Delivered.alike {state state' : SubStreamState (SEI M)}
    {units units' : List (OutgoingUnit (SEI M))} {payloads : List (NalPayload (SEI M))}
    (h : Delivered others sets state units payloads state')
    (halike : List.Forall₂ (WrittenAlike others sets sets') units units') :
    Delivered others sets' state units' payloads state' := by
  induction h generalizing units' with
  | nil state =>
    cases halike
    exact .nil state
  | cons hunit _ ih =>
    cases halike with
    | cons hfirst hrest => exact .cons (hunit.alike hfirst) (ih hrest)

theorem unitSizes_alike {units units' : List (OutgoingUnit (SEI M))}
    (halike : List.Forall₂ (WrittenAlike others sets sets') units units') :
    ∀ position, PCCBitstreamWriter.unitSizes others sets' position units' =
      PCCBitstreamWriter.unitSizes others sets position units := by
  induction halike with
  | nil => exact fun _ => rfl
  | cons hfirst _ ih =>
    intro position
    unfold PCCBitstreamWriter.unitSizes
    simp only [hfirst.measured, ih]

/-! ### Atlases -/

theorem TileLayersCoded.exists_codes {before : List AtlasTileLayerRbsp} {prevFrameIndex : ℤ}
    {layers : List (AtlasTileLayer (SEI M))}
    (h : TileLayersCoded others sets before prevFrameIndex layers) :
    ∀ layer ∈ layers, ∃ before prevFrameIndex, layer.Codes others sets before prevFrameIndex := by
  induction layers generalizing before prevFrameIndex with
  | nil => exact fun layer hlayer => absurd hlayer List.not_mem_nil
  | cons first layers ih =>
    intro layer hlayer
    rcases List.mem_cons.mp hlayer with rfl | hlayer
    · exact ⟨before, prevFrameIndex, h.1⟩
    · exact ih h.2 layer hlayer

namespace CodedAtlas

variable (coded : CodedAtlas others)

/-- The atlas that the transcoder makes of what it has received. -/
def transcoded : AtlasData (SEI M) := PCCTranscoder.addEndTile coded.data.received

theorem follows_transcoded : Follows coded.transcoded.highLevelSyntax.byPosition
    coded.data.highLevelSyntax.byPosition := by
  let state : SubStreamState (SEI M) := { data := coded.transcoded }
  have hafps : state.data.atlasFrameParameterSet = coded.data.received.atlasFrameParameterSet :=
    rfl
  exact coded.follows rfl hafps

/-- A tile layer and its messages, as they have been read. -/
theorem tileLayerUnits_alike {layer : AtlasTileLayer (SEI M)}
    (hlayer : layer ∈ coded.data.atlasTileLayer) (n : ℕ) :
    List.Forall₂ (WrittenAlike others coded.data.highLevelSyntax.byPosition
        coded.transcoded.highLevelSyntax.byPosition)
      ((PCCBitstreamWriter.tileLayerUnits layer n).map fun payload => (payload, layer.sei))
      ((PCCBitstreamWriter.tileLayerUnits
        { layer with rbsp := { layer.rbsp.received n with dataUnit :=
          { (layer.rbsp.received n).dataUnit with patchInformationData :=
            (layer.rbsp.received n).dataUnit.patchInformationData ++
              [PCCTranscoder.endPatch layer.rbsp.header.type] } } } n).map
        fun payload => (payload, layer.sei)) := by
  obtain ⟨before, prevFrameIndex, hcodes⟩ := coded.tileLayers.exists_codes layer hlayer
  obtain ⟨ctx, hresolves, hlayerCodes⟩ := hcodes.rbsp
  have hmessages : ∀ (nalUnitType : ℕ) (list : List (SEI M)),
      List.Forall₂ (WrittenAlike others coded.data.highLevelSyntax.byPosition
        coded.transcoded.highLevelSyntax.byPosition)
        (list.map fun sei => (NalPayload.sei nalUnitType sei, layer.sei))
        (list.map fun sei => (NalPayload.sei nalUnitType sei, layer.sei)) := by
    intro nalUnitType list
    refine List.forall₂_same.mpr fun unit hunit => ?_
    obtain ⟨sei, -, rfl⟩ := List.mem_map.mp hunit
    exact .sei nalUnitType sei layer.sei
  have hrbsp := fun received => @TileContext.Codes.atlasTileLayerRbsp_eq ctx _ _ _ _ _
    (hlayerCodes.numbered n) hresolves (coded.follows_transcoded ctx hresolves) received
  unfold PCCBitstreamWriter.tileLayerUnits
  simp only [List.map_append, List.map_map, List.map_cons, List.map_nil, Function.comp_def]
  refine List.rel_append (List.rel_append (hmessages _ _) (.cons ⟨?_, ?_⟩ .nil)) (hmessages _ _)
  · exact hrbsp _ rfl (PCCTranscoder.endPatch_patchMode _) rfl NAL_SKIP_R
  · intro passed hpassed
    obtain rfl := Option.some.inj hpassed
    exact ⟨_, rfl, rfl, hrbsp _ rfl (PCCTranscoder.endPatch_patchMode _) rfl _⟩

theorem outgoingUnits_alike :
    List.Forall₂ (WrittenAlike others coded.data.highLevelSyntax.byPosition
        coded.transcoded.highLevelSyntax.byPosition)
      (PCCBitstreamWriter.outgoingUnits coded.data)
      (PCCBitstreamWriter.outgoingUnits coded.transcoded) := by
  have hlayers : ∀ (layers : List (AtlasTileLayer (SEI M))) (n : ℕ),
      (∀ layer ∈ layers, layer ∈ coded.data.atlasTileLayer) →
      List.Forall₂ (WrittenAlike others coded.data.highLevelSyntax.byPosition
          coded.transcoded.highLevelSyntax.byPosition)
        ((layers.zipIdx n).flatMap fun layer =>
          (PCCBitstreamWriter.tileLayerUnits layer.1 layer.2).map
            fun payload => (payload, layer.1.sei))
        (((PCCTranscoder.addEndTile { atlasTileLayer := (layers.zipIdx n).map fun layer =>
          { layer.1 with rbsp := layer.1.rbsp.received layer.2 } }).atlasTileLayer.zipIdx n).flatMap
            fun layer => (PCCBitstreamWriter.tileLayerUnits layer.1 layer.2).map
              fun payload => (payload, layer.1.sei)) := by
    intro layers
    induction layers with
    | nil => exact fun _ _ => .nil
    | cons layer layers ih =>
      intro n hmem
      have hrest := ih (n + 1) fun other hother => hmem other (List.mem_cons_of_mem layer hother)
      have hfirst := coded.tileLayerUnits_alike (hmem layer List.mem_cons_self) n
      simp only [PCCTranscoder.addEndTile, List.zipIdx_cons, List.map_cons, List.flatMap_cons]
        at hrest ⊢
      exact List.rel_append hfirst hrest
  unfold PCCBitstreamWriter.outgoingUnits
  refine List.rel_append (List.rel_append ?_ ?_)
    (hlayers coded.data.atlasTileLayer 0 fun _ hlayer => hlayer)
  · refine List.forall₂_same.mpr fun unit hunit => ?_
    obtain ⟨set, -, rfl⟩ := List.mem_map.mp hunit
    exact ⟨rfl, fun {passed} hpassed => ⟨passed, hpassed, rfl, by
      obtain rfl := Option.some.inj hpassed
      rfl⟩⟩
  · change List.Forall₂ _ _ ((coded.data.atlasFrameParameterSet.map
      coded.data.receivedFrameSet).map _)
    rw [List.map_map]
    refine List.forall₂_map_left_iff.mpr (List.forall₂_map_right_iff.mpr ?_)
    refine List.forall₂_same.mpr fun set hset => ?_
    obtain ⟨asps, hactive, hinRange, hrestorable⟩ := coded.frameSets set hset
    have hreceived : coded.data.receivedFrameSet set = set.received asps := by
      unfold AtlasData.receivedFrameSet
      rw [hactive]
      rfl
    have hwriter : PCCBitstreamWriter.atlasFrameParameterSetRbsp (coded.data.receivedFrameSet set)
        coded.transcoded.highLevelSyntax.byPosition.asps =
          PCCBitstreamWriter.atlasFrameParameterSetRbsp set
            coded.data.highLevelSyntax.byPosition.asps := by
      rw [hreceived]
      exact hinRange.writer_received hrestorable hactive
    refine ⟨hwriter, fun {passed} hpassed => ?_⟩
    obtain rfl := Option.some.inj hpassed
    exact ⟨_, rfl, rfl, hwriter⟩

/-- The units of the transcoded atlas come back as those of the received one. -/
theorem delivered_transcoded : ∃ tile' : TileState,
    Delivered others coded.transcoded.highLevelSyntax.byPosition { tile := coded.tile }
      (PCCBitstreamWriter.outgoingUnits coded.transcoded)
      (PCCBitstreamWriter.nalUnits coded.data.received)
      { data := coded.data.received, tile := tile' } := by
  obtain ⟨tile', hdelivered⟩ := coded.delivered
  exact ⟨tile', hdelivered.alike coded.outgoingUnits_alike⟩

theorem transcoded_sizes_lt : ∀ sizes,
    PCCBitstreamWriter.unitSizes others coded.transcoded.highLevelSyntax.byPosition 0
      (PCCBitstreamWriter.outgoingUnits coded.transcoded) = some sizes → ∀ size ∈ sizes,
        PCCBitstreamWriter.nalHeaderSize ≤ size ∧ size + 1 < 2 ^ 32 := by
  intro sizes hsizes
  rw [unitSizes_alike coded.outgoingUnits_alike] at hsizes
  exact coded.sizes_lt sizes hsizes

end CodedAtlas

end V3C

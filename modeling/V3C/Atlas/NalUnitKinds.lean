import Mathlib.Data.List.ModifyLast
import V3C.Atlas.SeiResent

/-! Which sub-bitstreams are written with the kinds of NAL units and the messages that they have
been read with. -/
namespace V3C
open Codec

variable {M : Type}

/-- A tile layer with the messages that belong to it, each under its NAL unit type. -/
structure TileUnits (M : Type) where
  nalUnitType : ℕ
  layer : AtlasTileLayerRbsp
  seiPrefix : List (ℕ × M) := []
  seiSuffix : List (ℕ × M) := []

/-- The tile layers of a sequence of NAL units, and the prefix messages behind the last one. -/
structure Grouped (M : Type) where
  tiles : List (TileUnits M) := []
  pending : List (ℕ × M) := []

/-- A prefix message belongs to the next tile layer, a suffix message to the one before. -/
def Grouped.attach (g : Grouped M) : NalPayload M → Grouped M
  | .tileLayer nalUnitType layer =>
    { tiles := g.tiles ++ [{ nalUnitType, layer, seiPrefix := g.pending }] }
  | .sei nalUnitType message =>
    if IsPrefixSei nalUnitType then { g with pending := g.pending ++ [(nalUnitType, message)] }
    else { g with
      tiles := g.tiles.modifyLast fun tile =>
        { tile with seiSuffix := tile.seiSuffix ++ [(nalUnitType, message)] } }
  | .asps _ => g
  | .afps _ => g
  | .unsupported _ => g

def group (units : List (NalPayload M)) : Grouped M := units.foldl Grouped.attach {}

/-- A tile layer with its messages as a reader has them of what is written. -/
def AtlasTileLayer.resent (others : SeiSyntax M) (layer : AtlasTileLayer (SEI M)) :
    Option (AtlasTileLayer (SEI M)) := do
  let seiPrefix ← resentAll others layer.sei NAL_PREFIX_ESEI [] layer.sei.seiPrefix
  let seiSuffix ← resentAll others layer.sei NAL_SUFFIX_ESEI [] layer.sei.seiSuffix
  pure { layer with sei := { seiPrefix, seiSuffix } }

/-- The NAL units that are written, with the messages that a reader has of them. -/
def resentUnits (others : SeiSyntax M) (data : AtlasData (SEI M)) :
    Option (List (NalPayload (SEI M))) := do
  let layers ← data.atlasTileLayer.mapM (AtlasTileLayer.resent others)
  pure (PCCBitstreamWriter.nalUnits { data with atlasTileLayer := layers })

/-- The same tile layers under the same types, each with the same messages under theirs. -/
def KeepsNalUnits (others : SeiSyntax M) (units : List (NalPayload (SEI M)))
    (data : AtlasData (SEI M)) : Prop :=
  ∃ units', resentUnits others data = some units' ∧ group units' = group units

theorem group_concat (units : List (NalPayload M)) (u : NalPayload M) :
    group (units ++ [u]) = (group units).attach u := by
  unfold group
  rw [List.foldl_append]
  rfl

section Writer

theorem foldl_attach_sets (g : Grouped M) {units : List (NalPayload M)}
    (h : ∀ u ∈ units, ∀ g : Grouped M, g.attach u = g) : units.foldl Grouped.attach g = g := by
  induction units with
  | nil => rfl
  | cons u units ih =>
    rw [List.foldl_cons, h u List.mem_cons_self]
    exact ih fun v hv => h v (List.mem_cons_of_mem u hv)

theorem foldl_attach_prefix (g : Grouped M) {t : ℕ} (ht : IsPrefixSei t) (messages : List M) :
    (messages.map (NalPayload.sei t)).foldl Grouped.attach g =
      { g with pending := g.pending ++ messages.map (t, ·) } := by
  induction messages generalizing g with
  | nil => rw [List.map_nil, List.map_nil, List.append_nil]; rfl
  | cons message messages ih =>
    rw [List.map_cons, List.foldl_cons, ih]
    simp only [Grouped.attach, if_pos ht, List.append_assoc, List.map_cons,
      List.singleton_append]

theorem foldl_attach_suffix (tiles : List (TileUnits M)) (tile : TileUnits M)
    (pending : List (ℕ × M)) {t : ℕ} (ht : ¬IsPrefixSei t) (messages : List M) :
    (messages.map (NalPayload.sei t)).foldl Grouped.attach { tiles := tiles ++ [tile], pending } =
      { tiles := tiles ++ [{ tile with seiSuffix := tile.seiSuffix ++ messages.map (t, ·) }]
        pending } := by
  induction messages generalizing tile with
  | nil => rw [List.map_nil, List.map_nil, List.append_nil]; rfl
  | cons message messages ih =>
    rw [List.map_cons, List.foldl_cons]
    simp only [Grouped.attach, if_neg ht, List.modifyLast_concat]
    rw [ih]
    simp only [List.append_assoc, List.map_cons, List.singleton_append]

def AtlasTileLayer.written (layer : AtlasTileLayer M) (atglIndex : ℕ) : TileUnits M where
  nalUnitType := PCCBitstreamWriter.naluType layer.rbsp.header
  layer := { layer.rbsp with dataUnit := { layer.rbsp.dataUnit with tileOrder := atglIndex } }
  seiPrefix := layer.sei.seiPrefix.map (NAL_PREFIX_ESEI, ·)
  seiSuffix := layer.sei.seiSuffix.map (NAL_SUFFIX_ESEI, ·)

theorem foldl_attach_tileLayerUnits (tiles : List (TileUnits M)) (layer : AtlasTileLayer M)
    (atglIndex : ℕ) :
    (PCCBitstreamWriter.tileLayerUnits layer atglIndex).foldl Grouped.attach { tiles } =
      { tiles := tiles ++ [layer.written atglIndex] } := by
  unfold PCCBitstreamWriter.tileLayerUnits
  rw [List.foldl_append, List.foldl_append, foldl_attach_prefix _ (Or.inl rfl)]
  simp only [List.foldl_cons, List.foldl_nil, Grouped.attach]
  rw [foldl_attach_suffix _ _ _ (by decide)]
  rfl

theorem foldl_attach_tileLayers (tiles : List (TileUnits M)) (layers : List (AtlasTileLayer M))
    (k : ℕ) :
    ((layers.zipIdx k).flatMap fun (layer, atglIndex) =>
        PCCBitstreamWriter.tileLayerUnits layer atglIndex).foldl Grouped.attach { tiles } =
      { tiles := tiles ++ (layers.zipIdx k).map fun (layer, atglIndex) =>
          layer.written atglIndex } := by
  induction layers generalizing tiles k with
  | nil => simp
  | cons layer layers ih =>
    rw [List.zipIdx_cons, List.flatMap_cons, List.foldl_append, foldl_attach_tileLayerUnits, ih]
    simp

/-- The tile layers of what the writer writes. -/
theorem group_nalUnits (data : AtlasData M) :
    group (PCCBitstreamWriter.nalUnits data) =
      { tiles := data.atlasTileLayer.zipIdx.map fun (layer, atglIndex) =>
          layer.written atglIndex } := by
  have hsets : (data.atlasSequenceParameterSet.map NalPayload.asps ++
      data.atlasFrameParameterSet.map NalPayload.afps).foldl Grouped.attach
        ({} : Grouped M) = {} := by
    apply foldl_attach_sets
    intro u hu g
    rcases List.mem_append.mp hu with hu | hu
    · obtain ⟨set, -, rfl⟩ := List.mem_map.mp hu
      rfl
    · obtain ⟨set, -, rfl⟩ := List.mem_map.mp hu
      rfl
  unfold group PCCBitstreamWriter.nalUnits
  rw [List.foldl_append, hsets]
  exact foldl_attach_tileLayers [] data.atlasTileLayer 0

end Writer

section Reader

/-- The type that is left of the type of a tile layer. -/
def keptType (nalUnitType : ℕ) : ℕ :=
  if nalUnitType = NAL_TRAIL_R then NAL_TRAIL_R
  else if nalUnitType = NAL_TRAIL_N then NAL_TRAIL_N
  else NAL_IDR_N_LP

/-- What the syntax holds of a tile layer and its messages. -/
def TileUnits.received (tile : TileUnits M) : AtlasTileLayer M where
  rbsp := tile.layer
  sei := { seiPrefix := tile.seiPrefix.map Prod.snd, seiSuffix := tile.seiSuffix.map Prod.snd }

/-- What is known of a NAL unit that has been read behind `count` tile layers. -/
def NalPayload.Parsed (count : ℕ) : NalPayload M → Prop
  | .tileLayer nalUnitType layer =>
    layer.dataUnit.tileOrder = count ∧
      PCCBitstreamWriter.naluType layer.header = keptType nalUnitType
  | .sei nalUnitType _ => IsPrefixSei nalUnitType ∨ IsSuffixSei nalUnitType
  | _ => True

/-- The state of the reader behind the NAL units `units`. -/
structure Reads (units : List (NalPayload M)) (state : SubStreamState M) : Prop where
  tiles : state.data.atlasTileLayer = (group units).tiles.map TileUnits.received
  pending : state.prefixSEI = (group units).pending.map Prod.snd
  order : ∀ (i : ℕ) (tile : TileUnits M), (group units).tiles[i]? = some tile → tile.layer.dataUnit.tileOrder = i
  kept : ∀ tile ∈ (group units).tiles,
    PCCBitstreamWriter.naluType tile.layer.header = keptType tile.nalUnitType
  layers : ∀ t layer, .tileLayer t layer ∈ units ↔
    ∃ tile ∈ (group units).tiles, tile.nalUnitType = t ∧ tile.layer = layer
  messages : ∀ t m, .sei t m ∈ units ↔
    (t, m) ∈ (group units).pending ∨
      ∃ tile ∈ (group units).tiles, (t, m) ∈ tile.seiPrefix ∨ (t, m) ∈ tile.seiSuffix
  prefixes : (∀ e ∈ (group units).pending, IsPrefixSei e.1) ∧
    ∀ tile ∈ (group units).tiles, ∀ e ∈ tile.seiPrefix, IsPrefixSei e.1
  suffixes : ∀ tile ∈ (group units).tiles, ∀ e ∈ tile.seiSuffix, IsSuffixSei e.1

theorem tileHeaderQuantizers_info (asps : AtlasSequenceParameterSetRbsp)
    (afps : AtlasFrameParameterSetRbsp) (refList : RefListStruct) (ath : AtlasTileHeader) :
    Reader.Ensures (PCCBitstreamReader.tileHeaderQuantizers asps afps refList ath)
      fun ath' => ath'.tileNaluTypeInfo = ath.tileNaluTypeInfo := by
  unfold PCCBitstreamReader.tileHeaderQuantizers
  iterate 7
    apply Reader.Ensures.bind
    intro _
  exact Reader.Ensures.pure rfl

theorem tileHeaderBody_info (asps : AtlasSequenceParameterSetRbsp)
    (afps : AtlasFrameParameterSetRbsp) (ath : AtlasTileHeader) :
    Reader.Ensures (PCCBitstreamReader.atlasTileHeaderBody ath afps asps)
      fun ath' => ath'.tileNaluTypeInfo = ath.tileNaluTypeInfo := by
  unfold PCCBitstreamReader.atlasTileHeaderBody
  iterate 6
    apply Reader.Ensures.bind
    intro _
  apply Reader.Ensures.then_bind
  · apply Reader.Ensures.whenElse
    · exact tileHeaderQuantizers_info asps afps _ _
    · rfl
  · intro coded hcoded
    apply Reader.Ensures.bind
    intro _
    exact Reader.Ensures.pure hcoded

/-- The header keeps two types of tile layers apart from the others. -/
theorem tileHeader_kept (sets : ActiveSets) (t : ℕ) :
    Reader.Ensures (PCCBitstreamReader.atlasTileHeader sets t)
      fun read => PCCBitstreamWriter.naluType read.1 = keptType t := by
  unfold PCCBitstreamReader.atlasTileHeader
  iterate 5
    apply Reader.Ensures.bind
    intro _
  refine Reader.Ensures.then_bind (tileHeaderBody_info _ _ _) ?_
  intro ath hinfo
  apply Reader.Ensures.pure
  unfold PCCBitstreamWriter.naluType keptType
  simp only [hinfo]
  by_cases htrailR : t = NAL_TRAIL_R
  · simp [htrailR]
  · by_cases htrailN : t = NAL_TRAIL_N
    · simp [htrailN]
      decide
    · simp [htrailR, htrailN]

/-- What the reader knows of a tile layer behind the others. -/
theorem tileLayer_parsed (syntax' : PCCAtlasHighLevelSyntax) (tile : TileState) (t : ℕ) :
    Reader.Ensures (PCCBitstreamReader.atlasTileLayerRbsp syntax' tile t)
      fun read => read.1.dataUnit.tileOrder = syntax'.atlasTileLayer.length ∧
        PCCBitstreamWriter.naluType read.1.header = keptType t := by
  unfold PCCBitstreamReader.atlasTileLayerRbsp
  refine Reader.Ensures.then_bind (tileHeader_kept _ t) ?_
  intro header hheader
  apply Reader.Ensures.bind
  intro _
  apply Reader.Ensures.bind
  intro _
  exact Reader.Ensures.pure ⟨rfl, hheader⟩

theorem nalPayload_parsed (seiPayload : SeiPayloadReader M) (state : SubStreamState M) (t : ℕ) :
    Reader.Ensures (PCCBitstreamReader.nalPayload seiPayload state t)
      fun read => read.1.Parsed state.data.atlasTileLayer.length := by
  unfold PCCBitstreamReader.nalPayload
  split_ifs with hasps hafps htile hvisited hbehind
  · exact Reader.Ensures.bind fun _ => Reader.Ensures.pure trivial
  · exact Reader.Ensures.bind fun _ => Reader.Ensures.pure trivial
  · refine Reader.Ensures.then_bind (tileLayer_parsed _ _ t) ?_
    rintro ⟨layer, tile⟩ ⟨horder, hkept⟩
    apply Reader.Ensures.pure
    refine ⟨?_, hkept⟩
    rw [horder]
    exact List.length_map _
  · exact Reader.Ensures.bind fun _ => Reader.Ensures.pure (Or.inl hvisited)
  · apply Reader.Ensures.bind
    intro _
    exact Reader.Ensures.bind fun _ => Reader.Ensures.pure (Or.inr hbehind)
  · exact Reader.Ensures.pure trivial

/-- Every message is as its reader leaves it. -/
theorem nalUnitLoop_messages {seiPayload : SeiPayloadReader M} {P : ℕ → M → Prop}
    (h : ∀ seis t, (PCCBitstreamReader.seiMessage seiPayload seis t).Ensures (P t))
    (precision fuel : ℕ) : ∀ state : SubStreamState M,
      (PCCBitstreamReader.nalUnitLoop seiPayload precision fuel state).Ensures fun run =>
        ∀ t m, .sei t m ∈ run.1 → P t m := by
  have hpayload : ∀ (state : SubStreamState M) (t : ℕ),
      (PCCBitstreamReader.nalPayload seiPayload state t).Ensures fun run =>
        ∀ t m, run.1 = .sei t m → P t m := by
    intro state t
    unfold PCCBitstreamReader.nalPayload
    split_ifs
    · refine .bind fun _ => .pure fun t' m heq => ?_
      cases heq
    · refine .bind fun _ => .pure fun t' m heq => ?_
      cases heq
    · refine .bind fun _ => .pure fun t' m heq => ?_
      cases heq
    · refine (h _ t).then_bind fun message hmessage => .pure fun t' m heq => ?_
      obtain ⟨rfl, rfl⟩ := NalPayload.sei.inj heq
      exact hmessage
    · refine .bind fun last => ?_
      refine (h _ t).then_bind fun message hmessage => .pure fun t' m heq => ?_
      obtain ⟨rfl, rfl⟩ := NalPayload.sei.inj heq
      exact hmessage
    · refine .pure fun t' m heq => ?_
      cases heq
  have hunit : ∀ state : SubStreamState M,
      (PCCBitstreamReader.sampleStreamNalUnit seiPayload precision state).Ensures fun run =>
        ∀ t m, run.1 = .sei t m → P t m := by
    intro state
    unfold PCCBitstreamReader.sampleStreamNalUnit
    refine .bind fun size => .bind fun nalu => ?_
    refine (hpayload state nalu.type).then_bind fun run hrun => ?_
    exact .bind fun _ => .pure hrun
  induction fuel with
  | zero =>
    intro state
    unfold PCCBitstreamReader.nalUnitLoop
    refine .bind fun remaining => ?_
    split_ifs
    · exact .pure fun t m hmem => absurd hmem List.not_mem_nil
    · intro c run c' hfail
      cases hfail
  | succ fuel ih =>
    intro state
    unfold PCCBitstreamReader.nalUnitLoop
    refine .bind fun remaining => ?_
    split_ifs
    · exact .pure fun t m hmem => absurd hmem List.not_mem_nil
    · refine (hunit state).then_bind fun run hrun => ?_
      refine (ih run.2).then_bind fun rest hrest => .pure fun t m hmem => ?_
      rcases List.mem_cons.mp hmem with heq | hmem
      · exact hrun t m heq.symm
      · exact hrest t m hmem

theorem Reads.start : Reads ([] : List (NalPayload M)) {} where
  tiles := rfl
  pending := rfl
  order := nofun
  kept := nofun
  layers := by simp [group]
  messages := by simp [group]
  prefixes := ⟨nofun, nofun⟩
  suffixes := nofun

namespace Reads

variable {units : List (NalPayload M)} {state state' : SubStreamState M}

theorem setTile (h : Reads units state) (tile : TileState) : Reads units { state with tile } where
  tiles := h.tiles
  pending := h.pending
  order := h.order
  kept := h.kept
  layers := h.layers
  messages := h.messages
  prefixes := h.prefixes
  suffixes := h.suffixes

/-- A NAL unit that is neither a tile layer nor a message. -/
theorem skip (h : Reads units state) {u : NalPayload M}
    (htile : ∀ t layer, u ≠ .tileLayer t layer) (hsei : ∀ t m, u ≠ .sei t m)
    (hattach : (group units).attach u = group units)
    (hdata : state'.data.atlasTileLayer = state.data.atlasTileLayer)
    (hpending : state'.prefixSEI = state.prefixSEI) : Reads (units ++ [u]) state' := by
  have hgroup : group (units ++ [u]) = group units := by rw [group_concat, hattach]
  constructor
  · rw [hgroup, hdata, h.tiles]
  · rw [hgroup, hpending, h.pending]
  · rw [hgroup]
    exact h.order
  · rw [hgroup]
    exact h.kept
  · intro t layer
    rw [hgroup, ← h.layers, List.mem_append, List.mem_singleton]
    exact or_iff_left (htile t layer).symm
  · intro t m
    rw [hgroup, ← h.messages, List.mem_append, List.mem_singleton]
    exact or_iff_left (hsei t m).symm
  · rw [hgroup]
    exact h.prefixes
  · rw [hgroup]
    exact h.suffixes

theorem tileLayer (h : Reads units state) {t : ℕ} {layer : AtlasTileLayerRbsp}
    (horder : layer.dataUnit.tileOrder = state.data.atlasTileLayer.length)
    (hkept : PCCBitstreamWriter.naluType layer.header = keptType t)
    (hreceive : state.receive (.tileLayer t layer) = some state') :
    Reads (units ++ [.tileLayer t layer]) state' := by
  obtain rfl := Option.some.inj hreceive
  have hgroup : group (units ++ [.tileLayer t layer]) =
      { tiles := (group units).tiles ++ [{
          nalUnitType := t, layer, seiPrefix := (group units).pending }] } := group_concat _ _
  constructor
  · simp [hgroup, h.tiles, h.pending, TileUnits.received]
  · rw [hgroup]
    rfl
  · intro i tile hi
    rw [hgroup, List.getElem?_append] at hi
    split_ifs at hi with hlt
    · exact h.order i tile hi
    · have hlast := List.getElem?_eq_some_iff.mp hi
      obtain ⟨hone, rfl⟩ := hlast
      rw [List.length_singleton] at hone
      simp only [List.getElem_singleton]
      rw [horder, h.tiles, List.length_map]
      omega
  · intro tile hmem
    rw [hgroup] at hmem
    rcases List.mem_append.mp hmem with hmem | hmem
    · exact h.kept tile hmem
    · obtain rfl := List.mem_singleton.mp hmem
      exact hkept
  · intro t' layer'
    rw [hgroup]
    simp only [List.mem_append, List.mem_singleton, h.layers, NalPayload.tileLayer.injEq]
    constructor
    · rintro (⟨tile, hmem, heq⟩ | ⟨rfl, rfl⟩)
      · exact ⟨tile, Or.inl hmem, heq⟩
      · exact ⟨_, Or.inr rfl, rfl, rfl⟩
    · rintro ⟨tile, hmem | rfl, htype, hlayer⟩
      · exact Or.inl ⟨tile, hmem, htype, hlayer⟩
      · exact Or.inr ⟨htype.symm, hlayer.symm⟩
  · intro t' m
    rw [hgroup]
    simp only [List.mem_append, List.mem_singleton, h.messages, reduceCtorEq, or_false,
      List.not_mem_nil, false_or]
    constructor
    · rintro (hpending | ⟨tile, hmem, hin⟩)
      · exact ⟨_, Or.inr rfl, Or.inl hpending⟩
      · exact ⟨tile, Or.inl hmem, hin⟩
    · rintro ⟨tile, hmem | rfl, hin⟩
      · exact Or.inr ⟨tile, hmem, hin⟩
      · exact Or.inl (hin.resolve_right List.not_mem_nil)
  · rw [hgroup]
    refine ⟨nofun, fun tile hmem => ?_⟩
    rcases List.mem_append.mp hmem with hmem | hmem
    · exact h.prefixes.2 tile hmem
    · obtain rfl := List.mem_singleton.mp hmem
      exact h.prefixes.1
  · intro tile hmem
    rw [hgroup] at hmem
    rcases List.mem_append.mp hmem with hmem | hmem
    · exact h.suffixes tile hmem
    · obtain rfl := List.mem_singleton.mp hmem
      nofun

theorem prefixMessage (h : Reads units state) {t : ℕ} {m : M} (ht : IsPrefixSei t)
    (hreceive : state.receive (.sei t m) = some state') : Reads (units ++ [.sei t m]) state' := by
  unfold SubStreamState.receive at hreceive
  simp only [if_pos ht] at hreceive
  obtain rfl := Option.some.inj hreceive
  have hgroup : group (units ++ [.sei t m]) =
      { group units with pending := (group units).pending ++ [(t, m)] } := by
    rw [group_concat]
    exact if_pos ht
  constructor
  · rw [hgroup]
    exact h.tiles
  · simp [hgroup, h.pending]
  · rw [hgroup]
    exact h.order
  · rw [hgroup]
    exact h.kept
  · intro t' layer
    rw [hgroup]
    simp [h.layers]
  · intro t' m'
    rw [hgroup]
    simp only [List.mem_append, List.mem_singleton, h.messages, NalPayload.sei.injEq,
      Prod.mk.injEq]
    exact or_right_comm
  · rw [hgroup]
    refine ⟨fun e he => ?_, h.prefixes.2⟩
    rcases List.mem_append.mp he with he | he
    · exact h.prefixes.1 e he
    · obtain rfl := List.mem_singleton.mp he
      exact ht
  · rw [hgroup]
    exact h.suffixes

/-- The tile that a suffix message belongs to is the last of the group. -/
theorem exists_last (h : Reads units state) {last : AtlasTileLayer M}
    (hlast : state.lastTileLayer = some last) :
    ∃ tiles tile, (group units).tiles = tiles ++ [tile] ∧
      state.data.atlasTileLayer = tiles.map TileUnits.received ++ [tile.received] ∧
      tile.received = last := by
  unfold SubStreamState.lastTileLayer at hlast
  rw [h.tiles] at hlast ⊢
  rcases List.eq_nil_or_concat' (group units).tiles with hnil | ⟨tiles, tile, htiles⟩
  · rw [hnil] at hlast
    cases hlast
  · rw [htiles, List.map_append, List.map_singleton] at hlast ⊢
    rw [List.getLast?_concat] at hlast
    exact ⟨tiles, tile, rfl, rfl, Option.some.inj hlast⟩

theorem suffixMessage (h : Reads units state) {t : ℕ} {m : M} (ht : ¬IsPrefixSei t)
    (hbehind : IsSuffixSei t) (hreceive : state.receive (.sei t m) = some state') :
    Reads (units ++ [.sei t m]) state' := by
  unfold SubStreamState.receive at hreceive
  simp only [if_neg ht] at hreceive
  obtain ⟨last, hlast, hstate⟩ := Option.bind_eq_some_iff.mp hreceive
  obtain ⟨tiles, tile, htiles, hlayers, hreceived⟩ := h.exists_last hlast
  rw [hlayers, List.dropLast_concat, ← hreceived] at hstate
  obtain rfl := Option.some.inj hstate
  have hgroup : group (units ++ [.sei t m]) =
      { tiles := tiles ++ [{ tile with seiSuffix := tile.seiSuffix ++ [(t, m)] }]
        pending := (group units).pending } := by
    rw [group_concat]
    simp only [Grouped.attach, if_neg ht, htiles, List.modifyLast_concat]
  have horder := h.order
  have hkept := h.kept
  have hunits := h.layers
  have hmessages := h.messages
  have hprefixes := h.prefixes
  have hsuffixes := h.suffixes
  rw [htiles] at horder hkept hunits hmessages hprefixes hsuffixes
  constructor
  · simp [hgroup, TileUnits.received]
  · rw [hgroup]
    exact h.pending
  · intro i tile' hi
    rw [hgroup] at hi
    rcases lt_or_ge i tiles.length with hlt | hge
    · rw [List.getElem?_append_left hlt] at hi
      apply horder i tile'
      rw [List.getElem?_append_left hlt]
      exact hi
    · rw [List.getElem?_append_right hge] at hi
      obtain ⟨hone, heq⟩ := List.getElem?_eq_some_iff.mp hi
      rw [List.getElem_singleton] at heq
      rw [← heq]
      apply horder i tile
      rw [List.getElem?_append_right hge]
      exact List.getElem?_eq_some_iff.mpr ⟨hone, List.getElem_singleton _⟩
  · intro tile' hmem
    rw [hgroup] at hmem
    rcases List.mem_append.mp hmem with hmem | hmem
    · exact hkept tile' (List.mem_append_left _ hmem)
    · obtain rfl := List.mem_singleton.mp hmem
      exact hkept tile (List.mem_append_right _ List.mem_cons_self)
  · intro t' layer
    rw [hgroup]
    simp only [List.mem_append, List.mem_singleton, hunits, reduceCtorEq, or_false]
    constructor
    · rintro ⟨tile', hmem | rfl, heq⟩
      · exact ⟨tile', Or.inl hmem, heq⟩
      · exact ⟨_, Or.inr rfl, heq⟩
    · rintro ⟨tile', hmem | rfl, heq⟩
      · exact ⟨tile', Or.inl hmem, heq⟩
      · exact ⟨tile, Or.inr rfl, heq⟩
  · intro t' m'
    rw [hgroup]
    simp only [List.mem_append, List.mem_singleton, hmessages, NalPayload.sei.injEq]
    constructor
    · rintro ((hpending | ⟨tile', hmem | rfl, hin⟩) | ⟨rfl, rfl⟩)
      · exact Or.inl hpending
      · exact Or.inr ⟨tile', Or.inl hmem, hin⟩
      · exact Or.inr ⟨_, Or.inr rfl, hin.imp_right fun hin => List.mem_append_left _ hin⟩
      · exact Or.inr ⟨_, Or.inr rfl, Or.inr (List.mem_append_right _ List.mem_cons_self)⟩
    · rintro (hpending | ⟨tile', hmem | rfl, hin⟩)
      · exact Or.inl (Or.inl hpending)
      · exact Or.inl (Or.inr ⟨tile', Or.inl hmem, hin⟩)
      · rcases hin with hin | hin
        · exact Or.inl (Or.inr ⟨tile, Or.inr rfl, Or.inl hin⟩)
        · rcases List.mem_append.mp hin with hin | hin
          · exact Or.inl (Or.inr ⟨tile, Or.inr rfl, Or.inr hin⟩)
          · exact Or.inr (Prod.mk.inj (List.mem_singleton.mp hin))
  · rw [hgroup]
    refine ⟨hprefixes.1, fun tile' hmem => ?_⟩
    rcases List.mem_append.mp hmem with hmem | hmem
    · exact hprefixes.2 tile' (List.mem_append_left _ hmem)
    · obtain rfl := List.mem_singleton.mp hmem
      exact hprefixes.2 tile (List.mem_append_right _ List.mem_cons_self)
  · intro tile' hmem e he
    rw [hgroup] at hmem
    rcases List.mem_append.mp hmem with hmem | hmem
    · exact hsuffixes tile' (List.mem_append_left _ hmem) e he
    · obtain rfl := List.mem_singleton.mp hmem
      rcases List.mem_append.mp he with he | he
      · exact hsuffixes tile (List.mem_append_right _ List.mem_cons_self) e he
      · obtain rfl := List.mem_singleton.mp he
        exact hbehind

/-- One NAL unit. -/
theorem step (h : Reads units state) {u : NalPayload M}
    (hparsed : u.Parsed state.data.atlasTileLayer.length)
    (hreceive : state.receive u = some state') : Reads (units ++ [u]) state' := by
  cases u with
  | asps set =>
    obtain rfl := Option.some.inj hreceive
    exact h.skip nofun nofun rfl rfl rfl
  | afps set =>
    obtain rfl := Option.some.inj hreceive
    exact h.skip nofun nofun rfl rfl rfl
  | tileLayer t layer => exact h.tileLayer hparsed.1 hparsed.2 hreceive
  | sei t m =>
    by_cases ht : IsPrefixSei t
    · exact h.prefixMessage ht hreceive
    · exact h.suffixMessage ht (hparsed.resolve_left ht) hreceive
  | unsupported t =>
    obtain rfl := Option.some.inj hreceive
    exact h.skip nofun nofun rfl rfl rfl

end Reads

theorem nalUnitLoop_reads {seiPayload : SeiPayloadReader M} {precision fuel : ℕ}
    {units read : List (NalPayload M)} {state state' : SubStreamState M} {c c' : Cursor}
    (h : Reads units state)
    (hloop : PCCBitstreamReader.nalUnitLoop seiPayload precision fuel state c =
      some ((read, state'), c')) : Reads (units ++ read) state' := by
  induction fuel generalizing units read state c c' with
  | zero =>
    obtain ⟨remaining, _, -, hloop⟩ := Reader.bind_run_eq_some.mp hloop
    split_ifs at hloop
    · obtain ⟨heq, -⟩ := Prod.mk.inj (Option.some.inj hloop)
      obtain ⟨rfl, rfl⟩ := Prod.mk.inj heq
      rw [List.append_nil]
      exact h
    · cases hloop
  | succ fuel ih =>
    obtain ⟨remaining, _, -, hloop⟩ := Reader.bind_run_eq_some.mp hloop
    split_ifs at hloop
    · obtain ⟨heq, -⟩ := Prod.mk.inj (Option.some.inj hloop)
      obtain ⟨rfl, rfl⟩ := Prod.mk.inj heq
      rw [List.append_nil]
      exact h
    · obtain ⟨⟨u, next⟩, _, hunit, hloop⟩ := Reader.bind_run_eq_some.mp hloop
      obtain ⟨⟨rest, last⟩, _, hrest, hloop⟩ := Reader.bind_run_eq_some.mp hloop
      obtain ⟨heq, -⟩ := Prod.mk.inj (Option.some.inj hloop)
      obtain ⟨rfl, rfl⟩ := Prod.mk.inj heq
      unfold PCCBitstreamReader.sampleStreamNalUnit at hunit
      obtain ⟨_, _, -, hunit⟩ := Reader.bind_run_eq_some.mp hunit
      obtain ⟨nalu, _, -, hunit⟩ := Reader.bind_run_eq_some.mp hunit
      obtain ⟨⟨payload, tile⟩, _, hpayload, hunit⟩ := Reader.bind_run_eq_some.mp hunit
      obtain ⟨after, _, hreceive, hunit⟩ := Reader.bind_run_eq_some.mp hunit
      obtain ⟨heq, -⟩ := Prod.mk.inj (Option.some.inj hunit)
      obtain ⟨rfl, rfl⟩ := Prod.mk.inj heq
      have hparsed := nalPayload_parsed seiPayload state nalu.type _ _ _ hpayload
      have hstep := (h.setTile tile).step hparsed (Reader.ofOption_run_eq_some.mp hreceive).1
      have hrun := ih hstep hrest
      rwa [List.append_assoc] at hrun

theorem atlasSubStream_reads {seiPayload : SeiPayloadReader M} {tile : TileState}
    {units : List (NalPayload M)} {state : SubStreamState M} {c c' : Cursor}
    (h : PCCBitstreamReader.atlasSubStream seiPayload tile c = some ((units, state), c')) :
    Reads units state := by
  obtain ⟨precision, _, -, h⟩ := Reader.bind_run_eq_some.mp h
  obtain ⟨_, _, -, h⟩ := Reader.bind_run_eq_some.mp h
  obtain ⟨fuel, _, -, h⟩ := Reader.bind_run_eq_some.mp h
  exact nalUnitLoop_reads (Reads.start.setTile tile) h

end Reader

/-- A tile layer after it has been read and written. -/
def TileUnits.rewritten (tile : TileUnits M) : TileUnits M where
  nalUnitType := keptType tile.nalUnitType
  layer := tile.layer
  seiPrefix := tile.seiPrefix.map fun e => (NAL_PREFIX_ESEI, e.2)
  seiSuffix := tile.seiSuffix.map fun e => (NAL_SUFFIX_ESEI, e.2)

def tileLayerTypes (units : List (NalPayload M)) : List ℕ :=
  units.filterMap fun
    | .tileLayer nalUnitType _ => some nalUnitType
    | _ => none

def seiTypes (units : List (NalPayload M)) : List ℕ :=
  units.filterMap fun
    | .sei nalUnitType _ => some nalUnitType
    | _ => none

theorem mem_tileLayerTypes {units : List (NalPayload M)} {t : ℕ} :
    t ∈ tileLayerTypes units ↔ ∃ layer, .tileLayer t layer ∈ units := by
  unfold tileLayerTypes
  rw [List.mem_filterMap]
  constructor
  · rintro ⟨u, hu, htype⟩
    cases u with
    | tileLayer t' layer =>
      obtain rfl := Option.some.inj htype
      exact ⟨layer, hu⟩
    | asps set => cases htype
    | afps set => cases htype
    | sei t' m => cases htype
    | unsupported t' => cases htype
  · rintro ⟨layer, hu⟩
    exact ⟨_, hu, rfl⟩

theorem mem_seiTypes {units : List (NalPayload M)} {t : ℕ} :
    t ∈ seiTypes units ↔ ∃ m, .sei t m ∈ units := by
  unfold seiTypes
  rw [List.mem_filterMap]
  constructor
  · rintro ⟨u, hu, htype⟩
    cases u with
    | sei t' m =>
      obtain rfl := Option.some.inj htype
      exact ⟨m, hu⟩
    | asps set => cases htype
    | afps set => cases htype
    | tileLayer t' layer => cases htype
    | unsupported t' => cases htype
  · rintro ⟨m, hu⟩
    exact ⟨_, hu, rfl⟩

theorem keptType_eq_iff {t : ℕ} :
    keptType t = t ↔ t = NAL_TRAIL_N ∨ t = NAL_TRAIL_R ∨ t = NAL_IDR_N_LP := by
  unfold keptType
  split_ifs with htrailR htrailN
  · exact iff_of_true htrailR.symm (Or.inr (Or.inl htrailR))
  · exact iff_of_true htrailN.symm (Or.inl htrailN)
  · constructor
    · intro h
      exact Or.inr (Or.inr h.symm)
    · rintro (h | h | h)
      · exact absurd h htrailN
      · exact absurd h htrailR
      · exact h.symm

theorem map_retype_eq_iff {messages : List (ℕ × M)} {t : ℕ} :
    (messages.map fun e => (t, e.2)) = messages ↔ ∀ e ∈ messages, e.1 = t := by
  induction messages with
  | nil => simp
  | cons e messages ih =>
    rw [List.map_cons, List.cons.injEq, ih, List.forall_mem_cons, Prod.ext_iff]
    simp only [and_true]
    exact and_congr_left' eq_comm

theorem rewritten_eq_iff {tile : TileUnits M} :
    tile.rewritten = tile ↔
      (tile.nalUnitType = NAL_TRAIL_N ∨ tile.nalUnitType = NAL_TRAIL_R ∨
        tile.nalUnitType = NAL_IDR_N_LP) ∧
      (∀ e ∈ tile.seiPrefix, e.1 = NAL_PREFIX_ESEI) ∧
      ∀ e ∈ tile.seiSuffix, e.1 = NAL_SUFFIX_ESEI := by
  rw [← keptType_eq_iff, ← map_retype_eq_iff, ← map_retype_eq_iff]
  cases tile
  simp [TileUnits.rewritten]

theorem not_isPrefixSei : ¬IsPrefixSei NAL_SUFFIX_ESEI := by decide

theorem not_isSuffixSei : ¬IsSuffixSei NAL_PREFIX_ESEI := by decide

section Kept

variable {others : SeiSyntax M} {units : List (NalPayload (SEI M))}
  {state : SubStreamState (SEI M)}

/-- Every message is carried behind those before it in its list. -/
structure TileUnits.Carried (others : SeiSyntax M) (tile : TileUnits (SEI M)) : Prop where
  seiPrefix : ∀ (i : ℕ) (e : ℕ × SEI M), tile.seiPrefix[i]? = some e →
    e.2.content.Carried others tile.received.sei NAL_PREFIX_ESEI
      ((tile.seiPrefix.map Prod.snd).take i)
  seiSuffix : ∀ (i : ℕ) (e : ℕ × SEI M), tile.seiSuffix[i]? = some e →
    e.2.content.Carried others tile.received.sei NAL_SUFFIX_ESEI
      ((tile.seiSuffix.map Prod.snd).take i)

/-- The kinds of NAL units that the syntax tells apart: three types of tile layers, and the
messages of the essential kind, each with a tile layer to belong to, and with a payload that the
writer can write. -/
structure WrittenAgain (others : SeiSyntax M) (units : List (NalPayload (SEI M))) : Prop where
  tileLayer : ∀ t ∈ tileLayerTypes units, t = NAL_TRAIL_N ∨ t = NAL_TRAIL_R ∨ t = NAL_IDR_N_LP
  sei : ∀ t ∈ seiTypes units, t = NAL_PREFIX_ESEI ∨ t = NAL_SUFFIX_ESEI
  delivered : (group units).pending = []
  carried : ∀ tile ∈ (group units).tiles, tile.Carried others

/-- A list of elements that all come back at their places. -/
theorem exists_mapM_zipIdx_iff {α β : Type} {f : α → Option β} {w : β → ℕ → α} (xs : List α) :
    ∀ k, (∃ ys, xs.mapM f = some ys ∧ ((ys.zipIdx k).map fun y => w y.1 y.2) = xs) ↔
      ∀ (i : ℕ) (x : α), xs[i]? = some x → ∃ y, f x = some y ∧ w y (k + i) = x := by
  induction xs with
  | nil => exact fun k => iff_of_true ⟨[], rfl, rfl⟩ fun i x h => nomatch h
  | cons x xs ih =>
    intro k
    constructor
    · rintro ⟨ys, hmap, hback⟩ i z hz
      rw [List.mapM_cons] at hmap
      obtain ⟨y, hy, hmap⟩ := Option.bind_eq_some_iff.mp hmap
      obtain ⟨ys', hys, hmap⟩ := Option.bind_eq_some_iff.mp hmap
      obtain rfl := Option.some.inj hmap
      rw [List.zipIdx_cons, List.map_cons] at hback
      obtain ⟨hfirst, hrest⟩ := List.cons.inj hback
      cases i with
      | zero =>
        obtain rfl := Option.some.inj hz
        exact ⟨y, hy, hfirst⟩
      | succ i =>
        rw [show k + (i + 1) = k + 1 + i by omega]
        exact (ih (k + 1)).mp ⟨ys', hys, hrest⟩ i z hz
    · intro h
      obtain ⟨y, hy, hfirst⟩ := h 0 x rfl
      obtain ⟨ys, hys, hrest⟩ := (ih (k + 1)).mpr fun i z hz => by
        rw [show k + 1 + i = k + (i + 1) by omega]
        exact h (i + 1) z hz
      refine ⟨y :: ys, ?_, ?_⟩
      · rw [List.mapM_cons, hy, hys]
        rfl
      · rw [List.zipIdx_cons, List.map_cons, hrest]
        exact congrArg (· :: xs) hfirst

/-- A tile layer that has been read is written as it was. -/
theorem resent_written_iff {tile : TileUnits (SEI M)}
    (hkept : PCCBitstreamWriter.naluType tile.layer.header = keptType tile.nalUnitType) :
    (∃ layer, tile.received.resent others = some layer ∧
        layer.written tile.layer.dataUnit.tileOrder = tile) ↔
      tile.rewritten = tile ∧
        resentAll others tile.received.sei NAL_PREFIX_ESEI [] (tile.seiPrefix.map Prod.snd) =
          some (tile.seiPrefix.map Prod.snd) ∧
        resentAll others tile.received.sei NAL_SUFFIX_ESEI [] (tile.seiSuffix.map Prod.snd) =
          some (tile.seiSuffix.map Prod.snd) := by
  have hwritten : ∀ seiPrefix seiSuffix : List (SEI M),
      AtlasTileLayer.written { tile.received with sei := { seiPrefix, seiSuffix } }
          tile.layer.dataUnit.tileOrder =
        { tile with
          nalUnitType := keptType tile.nalUnitType
          seiPrefix := seiPrefix.map (NAL_PREFIX_ESEI, ·)
          seiSuffix := seiSuffix.map (NAL_SUFFIX_ESEI, ·) } := by
    intro seiPrefix seiSuffix
    unfold AtlasTileLayer.written TileUnits.received
    rw [hkept]
  constructor
  · rintro ⟨layer, hresent, hsame⟩
    obtain ⟨seiPrefix, hfront, hresent⟩ := Option.bind_eq_some_iff.mp hresent
    obtain ⟨seiSuffix, hbehind, hresent⟩ := Option.bind_eq_some_iff.mp hresent
    obtain rfl := Option.some.inj hresent
    rw [hwritten] at hsame
    have htype : keptType tile.nalUnitType = tile.nalUnitType :=
      congrArg TileUnits.nalUnitType hsame
    have hprefixes : seiPrefix.map (NAL_PREFIX_ESEI, ·) = tile.seiPrefix :=
      congrArg TileUnits.seiPrefix hsame
    have hsuffixes : seiSuffix.map (NAL_SUFFIX_ESEI, ·) = tile.seiSuffix :=
      congrArg TileUnits.seiSuffix hsame
    have hfirst : tile.seiPrefix.map Prod.snd = seiPrefix := by
      rw [← hprefixes, List.map_map]
      exact List.map_id seiPrefix
    have hsecond : tile.seiSuffix.map Prod.snd = seiSuffix := by
      rw [← hsuffixes, List.map_map]
      exact List.map_id seiSuffix
    refine ⟨rewritten_eq_iff.mpr ⟨keptType_eq_iff.mp htype, ?_, ?_⟩, ?_, ?_⟩
    · rw [← hprefixes, List.forall_mem_map]
      exact fun _ _ => rfl
    · rw [← hsuffixes, List.forall_mem_map]
      exact fun _ _ => rfl
    · rw [hfirst]
      rw [← hfirst] at hfront ⊢
      exact hfront
    · rw [hsecond]
      rw [← hsecond] at hbehind ⊢
      exact hbehind
  · rintro ⟨hrewritten, hfront, hbehind⟩
    refine ⟨tile.received, ?_, ?_⟩
    · unfold AtlasTileLayer.resent
      rw [show tile.received.sei.seiPrefix = tile.seiPrefix.map Prod.snd from rfl,
        show tile.received.sei.seiSuffix = tile.seiSuffix.map Prod.snd from rfl, hfront, hbehind]
      rfl
    · have hsame := hwritten (tile.seiPrefix.map Prod.snd) (tile.seiSuffix.map Prod.snd)
      rw [List.map_map, List.map_map] at hsame
      exact hsame.trans hrewritten

/-- The messages of a tile that has been read, where they are of the essential kind. -/
theorem resentAll_iff_carried {messages : PCCSEI (SEI M)} {t : ℕ} {list : List (ℕ × SEI M)}
    (h : ∀ e ∈ list, e.2.payloadSize = 0 ∧ e.2.content.Received t) :
    resentAll others messages t [] (list.map Prod.snd) = some (list.map Prod.snd) ↔
      ∀ (i : ℕ) (e : ℕ × SEI M), list[i]? = some e →
        e.2.content.Carried others messages t ((list.map Prod.snd).take i) := by
  rw [resentAll_eq_iff]
  constructor
  · intro hall i e he
    obtain ⟨hsize, hreceived⟩ := h e (List.mem_of_getElem? he)
    refine (resent_eq_iff hsize hreceived).mp (hall i e.2 ?_)
    rw [List.getElem?_map, he, Option.map_some]
  · intro hall i sei hsei
    rw [List.getElem?_map] at hsei
    obtain ⟨e, he, rfl⟩ := Option.map_eq_some_iff.mp hsei
    obtain ⟨hsize, hreceived⟩ := h e (List.mem_of_getElem? he)
    exact (resent_eq_iff hsize hreceived).mpr (hall i e he)

/-- The tile layers of what is written again. -/
theorem Reads.keepsNalUnits_iff_tiles (h : Reads units state) :
    KeepsNalUnits others units state.data ↔ (group units).pending = [] ∧
      ∀ tile ∈ (group units).tiles, ∃ layer, tile.received.resent others = some layer ∧
        layer.written tile.layer.dataUnit.tileOrder = tile := by
  have hgroup : ∀ layers : List (AtlasTileLayer (SEI M)),
      group (PCCBitstreamWriter.nalUnits { state.data with atlasTileLayer := layers }) =
          group units ↔ (group units).pending = [] ∧
        (layers.zipIdx.map fun layer => layer.1.written layer.2) = (group units).tiles := by
    intro layers
    rw [group_nalUnits]
    generalize group units = g
    cases g
    rw [Grouped.mk.injEq, and_comm]
    exact and_congr_left' eq_comm
  have hkeeps : KeepsNalUnits others units state.data ↔ (group units).pending = [] ∧
      ∃ layers, (group units).tiles.mapM (fun tile => tile.received.resent others) =
          some layers ∧
        (layers.zipIdx.map fun layer => layer.1.written layer.2) = (group units).tiles := by
    unfold KeepsNalUnits resentUnits
    rw [h.tiles, List.mapM_map]
    constructor
    · rintro ⟨units', hunits, hsame⟩
      obtain ⟨layers, hlayers, hunits⟩ := Option.bind_eq_some_iff.mp hunits
      obtain rfl := Option.some.inj hunits
      exact ⟨((hgroup layers).mp hsame).1, layers, hlayers, ((hgroup layers).mp hsame).2⟩
    · rintro ⟨hpending, layers, hlayers, hsame⟩
      refine ⟨_, ?_, (hgroup layers).mpr ⟨hpending, hsame⟩⟩
      exact Option.bind_eq_some_iff.mpr ⟨layers, hlayers, rfl⟩
  rw [hkeeps, exists_mapM_zipIdx_iff (w := AtlasTileLayer.written) (group units).tiles 0]
  refine and_congr_right fun _ => ⟨fun hall tile htile => ?_, fun hall i tile htile => ?_⟩
  · obtain ⟨i, hi⟩ := List.mem_iff_getElem?.mp htile
    rw [h.order i tile hi, ← Nat.zero_add i]
    exact hall i tile hi
  · rw [Nat.zero_add, ← h.order i tile htile]
    exact hall tile (List.mem_of_getElem? htile)

theorem Reads.keeps_iff (h : Reads units state)
    (hmessages : ∀ t m, .sei t m ∈ units → m.payloadSize = 0 ∧ m.content.Received t) :
    KeepsNalUnits others units state.data ↔ WrittenAgain others units := by
  have hfront : ∀ tile ∈ (group units).tiles, ∀ e ∈ tile.seiPrefix, .sei e.1 e.2 ∈ units :=
    fun tile htile e he => (h.messages e.1 e.2).mpr (Or.inr ⟨tile, htile, Or.inl he⟩)
  have hbehind : ∀ tile ∈ (group units).tiles, ∀ e ∈ tile.seiSuffix, .sei e.1 e.2 ∈ units :=
    fun tile htile e he => (h.messages e.1 e.2).mpr (Or.inr ⟨tile, htile, Or.inr he⟩)
  have hcarried : ∀ tile ∈ (group units).tiles, tile.rewritten = tile →
      (resentAll others tile.received.sei NAL_PREFIX_ESEI [] (tile.seiPrefix.map Prod.snd) =
          some (tile.seiPrefix.map Prod.snd) ∧
        resentAll others tile.received.sei NAL_SUFFIX_ESEI [] (tile.seiSuffix.map Prod.snd) =
          some (tile.seiSuffix.map Prod.snd) ↔ tile.Carried others) := by
    intro tile htile hrewritten
    obtain ⟨-, hprefixes, hsuffixes⟩ := rewritten_eq_iff.mp hrewritten
    rw [resentAll_iff_carried fun e he =>
        hprefixes e he ▸ hmessages e.1 e.2 (hfront tile htile e he),
      resentAll_iff_carried fun e he =>
        hsuffixes e he ▸ hmessages e.1 e.2 (hbehind tile htile e he)]
    exact ⟨fun h => ⟨h.1, h.2⟩, fun h => ⟨h.1, h.2⟩⟩
  rw [h.keepsNalUnits_iff_tiles]
  constructor
  · rintro ⟨hpending, htiles⟩
    have hall := fun tile htile => (resent_written_iff (h.kept tile htile)).mp (htiles tile htile)
    refine ⟨fun t ht => ?_, fun t ht => ?_, hpending, fun tile htile => ?_⟩
    · obtain ⟨layer, hmem⟩ := mem_tileLayerTypes.mp ht
      obtain ⟨tile, htile, rfl, -⟩ := (h.layers t layer).mp hmem
      exact (rewritten_eq_iff.mp (hall tile htile).1).1
    · obtain ⟨m, hmem⟩ := mem_seiTypes.mp ht
      rcases (h.messages t m).mp hmem with hin | ⟨tile, htile, hin | hin⟩
      · rw [hpending] at hin
        cases hin
      · exact Or.inl ((rewritten_eq_iff.mp (hall tile htile).1).2.1 _ hin)
      · exact Or.inr ((rewritten_eq_iff.mp (hall tile htile).1).2.2 _ hin)
    · exact (hcarried tile htile (hall tile htile).1).mp (hall tile htile).2
  · intro hwritten
    refine ⟨hwritten.delivered, fun tile htile => ?_⟩
    have hrewritten : tile.rewritten = tile := by
      refine rewritten_eq_iff.mpr ⟨?_, fun e he => ?_, fun e he => ?_⟩
      · apply hwritten.tileLayer
        exact mem_tileLayerTypes.mpr ⟨tile.layer, (h.layers _ _).mpr ⟨tile, htile, rfl, rfl⟩⟩
      · have htype := h.prefixes.2 tile htile e he
        rcases hwritten.sei e.1 (mem_seiTypes.mpr ⟨e.2, hfront tile htile e he⟩) with heq | heq
        · exact heq
        · exact absurd (heq ▸ htype) not_isPrefixSei
      · have htype := h.suffixes tile htile e he
        rcases hwritten.sei e.1 (mem_seiTypes.mpr ⟨e.2, hbehind tile htile e he⟩) with heq | heq
        · exact absurd (heq ▸ htype) not_isSuffixSei
        · exact heq
    exact (resent_written_iff (h.kept tile htile)).mpr
      ⟨hrewritten, (hcarried tile htile hrewritten).mpr (hwritten.carried tile htile)⟩

theorem atlasSubStream_messages {tile : TileState} {c c' : Cursor}
    (h : PCCBitstreamReader.atlasSubStream (PCCBitstreamReader.seiPayload others) tile c =
      some ((units, state), c')) :
    ∀ t m, .sei t m ∈ units → m.payloadSize = 0 ∧ m.content.Received t := by
  obtain ⟨precision, _, -, h⟩ := Reader.bind_run_eq_some.mp h
  obtain ⟨_, _, -, h⟩ := Reader.bind_run_eq_some.mp h
  obtain ⟨fuel, _, -, h⟩ := Reader.bind_run_eq_some.mp h
  exact nalUnitLoop_messages (fun _ _ => seiMessage_ensures) precision fuel _ _ _ _ h

end Kept

section Streams

instance {P : Type} [DecidableEq P] {initial : P} {update : InstanceUpdate P} :
    Decidable (update.Settled initial) :=
  decidable_of_iff ((update.instanceCancelFlag = true → update.methodType = 0) ∧
      (update.methodType ≠ 1 → update.parameters = initial))
    ⟨fun h => ⟨h.1, h.2⟩, fun h => ⟨h.canceled, h.noMethod⟩⟩

/-- Without other payload types, the place of a message in its list does not matter. -/
def SeiContent.carriedAlone : SeiContent Empty → Bool
  | .fillerPayload => false
  | .userDataRegisteredItuTT35 _ => true
  | .userDataUnregistered _ => false
  | .componentCodecMapping sei => sei.payloadBytes < 2 ^ 31
  | .occupancySynthesis sei => sei.instances.all fun update => update.Settled {}
  | .geometrySmoothing sei => sei.instances.all fun update => update.Settled {}
  | .reservedSeiMessage payloadByte => payloadByte = []

theorem SeiContent.carried_of_alone {content : SeiContent Empty} (h : content.carriedAlone)
    {messages : PCCSEI (SEI Empty)} {nalUnitType : ℕ} {before : List (SEI Empty)} :
    content.Carried noOtherMessages messages nalUnitType before := by
  cases content with
  | fillerPayload => cases h
  | userDataRegisteredItuTT35 sei => trivial
  | userDataUnregistered sei => cases h
  | componentCodecMapping sei =>
    exact of_decide_eq_true (p := sei.payloadBytes < 2 ^ 31) h
  | occupancySynthesis sei =>
    exact fun update hupdate => of_decide_eq_true (List.all_eq_true.mp h update hupdate)
  | geometrySmoothing sei =>
    exact fun update hupdate => of_decide_eq_true (List.all_eq_true.mp h update hupdate)
  | reservedSeiMessage payloadByte => exact of_decide_eq_true (p := payloadByte = []) h
  | other content => nomatch content

/-- What of the messages of a tile decides whether they are written again. -/
def TileUnits.messagesCarried (tile : TileUnits (SEI Empty)) : Bool :=
  (tile.seiPrefix ++ tile.seiSuffix).all fun e => e.2.content.carriedAlone

theorem TileUnits.carried_of_messagesCarried {tile : TileUnits (SEI Empty)}
    (h : tile.messagesCarried) : tile.Carried noOtherMessages := by
  have hall := List.all_eq_true.mp h
  refine ⟨fun i e he => ?_, fun i e he => ?_⟩
  · exact SeiContent.carried_of_alone
      (hall e (List.mem_append_left _ (List.mem_of_getElem? he)))
  · exact SeiContent.carried_of_alone
      (hall e (List.mem_append_right _ (List.mem_of_getElem? he)))

/-- A sequence set and a frame set, smoothing parameters and user data in front of a tile layer of
type TRAIL_R, user data behind it, and a tile layer of type TRAIL_N with user data in front. -/
def trailSubStream : Cursor := ⟨0, bitsOfBytes
  [0, 7, 72, 1, 168, 1, 160, 0, 2, 4, 74, 1, 230, 32,
    9, 90, 1, 66, 5, 128, 64, 8, 25, 2, 6, 90, 1, 3, 2, 181, 7, 5, 2, 1, 208, 96, 31,
    6, 92, 1, 3, 2, 181, 8, 6, 90, 1, 3, 2, 181, 9, 5, 0, 1, 208, 96, 31]⟩

/-- Smoothing parameters as a non-essential message, and a tile layer of type TSA_N. -/
def tsaSubStream : Cursor := ⟨0, bitsOfBytes
  [0, 7, 72, 1, 168, 1, 160, 0, 2, 4, 74, 1, 230, 32,
    9, 86, 1, 66, 5, 128, 64, 8, 25, 2, 5, 4, 1, 208, 96, 31]⟩

private theorem types_trailSubStream :
    (PCCBitstreamReader.atlasSubStream (PCCBitstreamReader.seiPayload noOtherMessages) {}
        trailSubStream).map
      (fun run => (tileLayerTypes run.1.1, seiTypes run.1.1, (group run.1.1).pending.length,
        (group run.1.1).tiles.all TileUnits.messagesCarried)) =
      some ([1, 0], [45, 45, 46, 45], 0, true) := by
  decide +kernel

private theorem types_tsaSubStream :
    (PCCBitstreamReader.atlasSubStream (PCCBitstreamReader.seiPayload noOtherMessages) {}
        tsaSubStream).map
      (fun run => (tileLayerTypes run.1.1, seiTypes run.1.1)) = some ([2], [43]) := by
  decide +kernel

end Streams

end V3C

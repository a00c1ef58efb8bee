import V3C.Syntax.V3CParameterSetExact
import V3C.Unit.VideoRouting

/-! Which parameter sets have a stream of their own for every video component. -/
namespace V3C
open Codec

variable {A : Type}

/-- The atlas data can be written, and read into a new atlas. -/
structure AtlasCodec.Accepts (codec : AtlasCodec A) (a : A) : Prop where
  coded : ∃ bytes received, codec.atlasSubStream a = some bytes ∧
    codec.readAtlasSubStream codec.initial bytes = some received
  raw : ∃ flag, codec.rawPatchEnabledFlag a = some flag

def AtlasCodec.raw (codec : AtlasCodec A) (a : A) : Bool :=
  (codec.rawPatchEnabledFlag a).getD false

/-- The video components of one atlas, by its own flags. -/
def atlasComponents (codec : AtlasCodec A) (vps : V3CParameterSet) (atlas : VpsAtlas) (a : A)
    (atlasIdx : ℕ) : List (ℕ × V3CUnitHeader) :=
  PCCBitstreamWriter.videoHeaders atlas (codec.raw a)
    { v3cParameterSetId := vps.v3cParameterSetId, atlasId := atlasIdx }

def videoComponents (codec : AtlasCodec A) (vps : V3CParameterSet) (atlases : List A) :
    List (ℕ × V3CUnitHeader) :=
  (vps.atlases.zip atlases).zipIdx.flatMap fun ((atlas, a), atlasIdx) =>
    atlasComponents codec vps atlas a atlasIdx

/-- The atlas and the stream of a component. -/
def V3CParameterSet.slot (vps : V3CParameterSet) (c : ℕ × V3CUnitHeader) : Option (ℕ × ℕ) := do
  let atlas ← vps.atlases[c.2.atlasId]?
  pure (c.2.atlasId, atlas.streamType c.1 c.2)

/-- The bytes that are held for a component. -/
def PCCHighLevelSyntax.component (syntax' : PCCHighLevelSyntax A) (vps : V3CParameterSet)
    (c : ℕ × V3CUnitHeader) : Option (List UInt8) := do
  let (atlasIndex, type) ← vps.slot c
  syntax'.video atlasIndex type

/-- Whatever is held for the components, no two of them are held in one stream, and the
reader has for each what the writer had. -/
def RoutesVideo (codec : AtlasCodec A) (vps : V3CParameterSet) (atlases : List A) : Prop :=
  ∀ syntax' : PCCHighLevelSyntax A, syntax'.getVps = some vps →
    syntax'.atlasHLS.map AtlasSyntax.atlas = atlases → syntax'.atlasIndex < atlases.length →
    (∀ c ∈ videoComponents codec vps atlases, ∃ data, syntax'.component vps c = some data) →
    (∀ c ∈ videoComponents codec vps atlases, ∀ c' ∈ videoComponents codec vps atlases,
      vps.slot c = vps.slot c' → c = c') ∧
    ∃ units received, PCCBitstreamWriter.encode codec syntax' = some units ∧
      PCCBitstreamReader.decode codec {} units = some (received, []) ∧
      ∀ c ∈ videoComponents codec vps atlases,
        received.component vps c = syntax'.component vps c

section Headers

variable {atlas : VpsAtlas} {raw : Bool} {vuh h : V3CUnitHeader}

/-- The map and the auxiliary flag of a unit of one component. -/
def VpsAtlas.SendsMap (atlas : VpsAtlas) (mapIndex : ℕ) (auxiliary : Bool) : Prop :=
  mapIndex ≤ atlas.mapCountMinus1 ∧
    (auxiliary = true ∨ atlas.mapStreams = false → mapIndex = 0)

theorem exists_of_mem_componentHeaders
    (hmem : h ∈ PCCBitstreamWriter.componentHeaders atlas raw vuh) :
    ∃ mapIndex auxiliary, atlas.SendsMap mapIndex auxiliary ∧
      h = { vuh with mapIndex, auxiliaryVideoFlag := auxiliary } := by
  unfold PCCBitstreamWriter.componentHeaders at hmem
  rcases List.mem_append.mp hmem with hmem | hmem
  · split_ifs at hmem with hstreams
    · obtain ⟨mapIdx, hlt, rfl⟩ := List.mem_map.mp hmem
      rw [List.mem_range] at hlt
      refine ⟨mapIdx, false, ⟨by omega, ?_⟩, rfl⟩
      rintro (h | h)
      · cases h
      · rw [hstreams] at h
        cases h
    · rw [List.mem_singleton] at hmem
      exact ⟨0, false, ⟨Nat.zero_le _, fun _ => rfl⟩, hmem⟩
  · split_ifs at hmem
    · rw [List.mem_singleton] at hmem
      exact ⟨0, true, ⟨Nat.zero_le _, fun _ => rfl⟩, hmem⟩
    · cases hmem

/-- The three kinds of units of an atlas. -/
theorem exists_of_mem_videoHeaders {c : ℕ × V3CUnitHeader}
    (hmem : c ∈ PCCBitstreamWriter.videoHeaders atlas raw vuh) :
    c = (V3C_OVD, vuh) ∨
    (∃ mapIndex auxiliary, atlas.SendsMap mapIndex auxiliary ∧
      c = (V3C_GVD, { vuh with mapIndex, auxiliaryVideoFlag := auxiliary })) ∨
    ∃ i ai attDim mapIndex auxiliary, atlas.attributeInformation[i]? = some ai ∧
      attDim ≤ ai.attributeDimensionPartitionsMinus1 ∧ atlas.SendsMap mapIndex auxiliary ∧
      c = (V3C_AVD, { vuh with
        attributeIndex := i, attributeDimensionIndex := attDim, mapIndex
        auxiliaryVideoFlag := auxiliary }) := by
  unfold PCCBitstreamWriter.videoHeaders at hmem
  rcases List.mem_append.mp hmem with hmem | hmem
  · rcases List.mem_cons.mp hmem with rfl | hmem
    · exact Or.inl rfl
    · obtain ⟨h, hh, rfl⟩ := List.mem_map.mp hmem
      obtain ⟨mapIndex, auxiliary, hsends, rfl⟩ := exists_of_mem_componentHeaders hh
      exact Or.inr (Or.inl ⟨mapIndex, auxiliary, hsends, rfl⟩)
  · obtain ⟨h, hh, rfl⟩ := List.mem_map.mp hmem
    unfold PCCBitstreamWriter.attributeHeaders at hh
    obtain ⟨⟨ai, i⟩, hai, hh⟩ := List.mem_flatMap.mp hh
    obtain ⟨attDim, hdim, hh⟩ := List.mem_flatMap.mp hh
    obtain ⟨mapIndex, auxiliary, hsends, rfl⟩ := exists_of_mem_componentHeaders hh
    rw [List.mem_range] at hdim
    exact Or.inr (Or.inr ⟨i, ai, attDim, mapIndex, auxiliary, List.mem_zipIdx_iff_getElem?.mp hai,
      by omega, hsends, rfl⟩)

/-- Every partition of every attribute has a unit for its first map. -/
theorem attribute_mem_videoHeaders {i attDim : ℕ} {ai : Attribute}
    (hai : atlas.attributeInformation[i]? = some ai)
    (hdim : attDim ≤ ai.attributeDimensionPartitionsMinus1) :
    (V3C_AVD, { vuh with
        attributeIndex := i, attributeDimensionIndex := attDim, mapIndex := 0
        auxiliaryVideoFlag := false }) ∈
      PCCBitstreamWriter.videoHeaders atlas raw vuh := by
  apply List.mem_append_right
  apply List.mem_map_of_mem
  apply List.mem_flatMap.mpr
  refine ⟨(ai, i), List.mem_zipIdx_iff_getElem?.mpr hai, ?_⟩
  apply List.mem_flatMap.mpr
  refine ⟨attDim, List.mem_range.mpr (by omega), ?_⟩
  apply List.mem_append_left
  split_ifs
  · apply List.mem_map.mpr
    exact ⟨0, List.mem_range.mpr (by omega), rfl⟩
  · exact List.mem_singleton.mpr rfl

theorem occupancy_mem_videoHeaders :
    (V3C_OVD, vuh) ∈ PCCBitstreamWriter.videoHeaders atlas raw vuh :=
  List.mem_append_left _ List.mem_cons_self

theorem atlasId_of_mem_videoHeaders {c : ℕ × V3CUnitHeader}
    (hmem : c ∈ PCCBitstreamWriter.videoHeaders atlas raw vuh) :
    atlas.HasVideo c.1 ∧ c.2.v3cParameterSetId = vuh.v3cParameterSetId ∧
      c.2.atlasId = vuh.atlasId := by
  rcases exists_of_mem_videoHeaders hmem with
    rfl | ⟨_, _, -, rfl⟩ | ⟨i, ai, _, _, _, hai, -, -, rfl⟩
  · exact ⟨Or.inl rfl, rfl, rfl⟩
  · exact ⟨Or.inr (Or.inl rfl), rfl, rfl⟩
  · have hpos : 0 < atlas.attributeInformation.length := by
      have := (List.getElem?_eq_some_iff.mp hai).1
      omega
    exact ⟨Or.inr (Or.inr ⟨rfl, hpos⟩), rfl, rfl⟩

end Headers

section Streams

variable (atlas : VpsAtlas) (vuh : V3CUnitHeader)

/-! The streams of the kinds of components, as the enumeration numbers them. -/
theorem streamType_geometry :
    atlas.streamType V3C_GVD vuh =
      if vuh.auxiliaryVideoFlag then 18 else if atlas.mapStreams then 2 + vuh.mapIndex else 1 :=
  rfl

theorem streamType_attribute :
    atlas.streamType V3C_AVD vuh =
      if vuh.auxiliaryVideoFlag then 1044 + vuh.attributeDimensionIndex
      else if atlas.mapStreams then 20 + vuh.mapIndex * 64 + vuh.attributeDimensionIndex
      else 19 + vuh.attributeDimensionIndex := rfl

/-- The streams of geometry are between those of the occupancy and of the attributes. -/
theorem streamType_geometry_range (hmap : vuh.mapIndex < 16) :
    0 < atlas.streamType V3C_GVD vuh ∧ atlas.streamType V3C_GVD vuh ≤ 18 := by
  rw [streamType_geometry]
  split_ifs <;> omega

theorem lt_streamType_attribute : 18 < atlas.streamType V3C_AVD vuh := by
  rw [streamType_attribute]
  split_ifs <;> omega

end Streams

theorem geometry_streamType_injective {atlas : VpsAtlas} {vuh : V3CUnitHeader} {m m' : ℕ}
    {auxiliary auxiliary' : Bool} (hmap : atlas.mapCountMinus1 < 16)
    (hsends : atlas.SendsMap m auxiliary) (hsends' : atlas.SendsMap m' auxiliary')
    (heq : atlas.streamType V3C_GVD { vuh with mapIndex := m, auxiliaryVideoFlag := auxiliary } =
      atlas.streamType V3C_GVD { vuh with mapIndex := m', auxiliaryVideoFlag := auxiliary' }) :
    m = m' ∧ auxiliary = auxiliary' := by
  obtain ⟨hle, hzero⟩ := hsends
  obtain ⟨hle', hzero'⟩ := hsends'
  rw [streamType_geometry, streamType_geometry] at heq
  cases auxiliary <;> cases auxiliary' <;> cases hstreams : atlas.mapStreams <;>
    simp only [hstreams, if_true, Bool.false_eq_true, if_false] at heq hzero hzero' <;>
    simp at hzero hzero' ⊢ <;> omega

theorem attribute_streamType_injective {atlas : VpsAtlas} {vuh : V3CUnitHeader}
    {m m' d d' i i' : ℕ} {auxiliary auxiliary' : Bool} (hmap : atlas.mapCountMinus1 < 16)
    (hd : d < 64) (hd' : d' < 64)
    (hsends : atlas.SendsMap m auxiliary) (hsends' : atlas.SendsMap m' auxiliary')
    (heq : atlas.streamType V3C_AVD { vuh with
          attributeIndex := i, attributeDimensionIndex := d, mapIndex := m
          auxiliaryVideoFlag := auxiliary } =
      atlas.streamType V3C_AVD { vuh with
          attributeIndex := i', attributeDimensionIndex := d', mapIndex := m'
          auxiliaryVideoFlag := auxiliary' }) :
    m = m' ∧ auxiliary = auxiliary' ∧ d = d' := by
  obtain ⟨hle, hzero⟩ := hsends
  obtain ⟨hle', hzero'⟩ := hsends'
  rw [streamType_attribute, streamType_attribute] at heq
  cases auxiliary <;> cases auxiliary' <;> cases hstreams : atlas.mapStreams <;>
    simp only [hstreams, if_true, Bool.false_eq_true, if_false] at heq hzero hzero' <;>
    simp at hzero hzero' ⊢ <;> omega

/-- The atlas has a stream of its own for each of its components, and every unit a header
that the partition fits in. -/
structure VpsAtlas.OneStreamEach (atlas : VpsAtlas) : Prop where
  oneAttribute : atlas.attributeInformation.length ≤ 1
  partitions : ∀ ai ∈ atlas.attributeInformation, ai.attributeDimensionPartitionsMinus1 < 32

namespace VpsAtlas.OneStreamEach

variable {atlas : VpsAtlas} {raw : Bool} {vuh : V3CUnitHeader} {c c' : ℕ × V3CUnitHeader}

theorem partition_lt (h : atlas.OneStreamEach) {i d : ℕ} {ai : Attribute}
    (hai : atlas.attributeInformation[i]? = some ai)
    (hd : d ≤ ai.attributeDimensionPartitionsMinus1) : i = 0 ∧ d < 32 := by
  have hone := h.oneAttribute
  have hlt := (List.getElem?_eq_some_iff.mp hai).1
  have hpartitions := h.partitions ai (List.mem_of_getElem? hai)
  constructor
  · omega
  · omega

theorem streamType_injective (h : atlas.OneStreamEach) (hmap : atlas.mapCountMinus1 < 16)
    (hc : c ∈ PCCBitstreamWriter.videoHeaders atlas raw vuh)
    (hc' : c' ∈ PCCBitstreamWriter.videoHeaders atlas raw vuh)
    (heq : atlas.streamType c.1 c.2 = atlas.streamType c'.1 c'.2) : c = c' := by
  have hgeometry : ∀ {m a}, atlas.SendsMap m a →
      0 < atlas.streamType V3C_GVD { vuh with mapIndex := m, auxiliaryVideoFlag := a } ∧
      atlas.streamType V3C_GVD { vuh with mapIndex := m, auxiliaryVideoFlag := a } ≤ 18 := by
    intro m a hsends
    apply streamType_geometry_range
    exact lt_of_le_of_lt hsends.1 hmap
  have hattribute := lt_streamType_attribute atlas
  rcases exists_of_mem_videoHeaders hc with
    rfl | ⟨m, a, hsends, rfl⟩ | ⟨i, ai, d, m, a, hai, hd, hsends, rfl⟩
  · rcases exists_of_mem_videoHeaders hc' with
      rfl | ⟨m', a', hsends', rfl⟩ | ⟨i', ai', d', m', a', hai', hd', hsends', rfl⟩
    · rfl
    · exact absurd heq (hgeometry hsends').1.ne
    · exact absurd heq (Nat.zero_lt_of_lt (hattribute _)).ne
  · rcases exists_of_mem_videoHeaders hc' with
      rfl | ⟨m', a', hsends', rfl⟩ | ⟨i', ai', d', m', a', hai', hd', hsends', rfl⟩
    · exact absurd heq (hgeometry hsends).1.ne'
    · obtain ⟨rfl, rfl⟩ := geometry_streamType_injective hmap hsends hsends' heq
      rfl
    · exact absurd heq (lt_of_le_of_lt (hgeometry hsends).2 (hattribute _)).ne
  · obtain ⟨rfl, hd32⟩ := h.partition_lt hai hd
    rcases exists_of_mem_videoHeaders hc' with
      rfl | ⟨m', a', hsends', rfl⟩ | ⟨i', ai', d', m', a', hai', hd', hsends', rfl⟩
    · exact absurd heq (Nat.zero_lt_of_lt (hattribute _)).ne'
    · exact absurd heq (lt_of_le_of_lt (hgeometry hsends').2 (hattribute _)).ne'
    · obtain ⟨rfl, hd32'⟩ := h.partition_lt hai' hd'
      obtain ⟨rfl, rfl, rfl⟩ := attribute_streamType_injective hmap (by omega) (by omega)
        hsends hsends' heq
      rfl

/-- The reader reads the map and the partition that the writer wrote. -/
theorem streamType_received (h : atlas.OneStreamEach) (hmap : atlas.mapCountMinus1 < 16)
    (hc : c ∈ PCCBitstreamWriter.videoHeaders atlas raw vuh) :
    atlas.streamType c.1 (c.2.received c.1) = atlas.streamType c.1 c.2 := by
  rcases exists_of_mem_videoHeaders hc with
    rfl | ⟨m, a, hsends, rfl⟩ | ⟨i, ai, d, m, a, hai, hd, hsends, rfl⟩
  · rfl
  · have hm : m % 2 ^ 4 = m := Nat.mod_eq_of_lt (lt_of_le_of_lt hsends.1 hmap)
    have hmapIndex : (V3CUnitHeader.received { vuh with
        mapIndex := m, auxiliaryVideoFlag := a } V3C_GVD).mapIndex = m := hm
    rw [streamType_geometry, streamType_geometry, hmapIndex]
    rfl
  · have hm : m % 2 ^ 4 = m := Nat.mod_eq_of_lt (lt_of_le_of_lt hsends.1 hmap)
    have hd32 : d % 2 ^ 5 = d := Nat.mod_eq_of_lt (h.partition_lt hai hd).2
    have hmapIndex : (V3CUnitHeader.received { vuh with
        attributeIndex := i, attributeDimensionIndex := d, mapIndex := m
        auxiliaryVideoFlag := a } V3C_AVD).mapIndex = m := hm
    have hpartition : (V3CUnitHeader.received { vuh with
        attributeIndex := i, attributeDimensionIndex := d, mapIndex := m
        auxiliaryVideoFlag := a } V3C_AVD).attributeDimensionIndex = d := hd32
    rw [streamType_attribute, streamType_attribute, hmapIndex, hpartition]
    rfl

end VpsAtlas.OneStreamEach

/-- No unit is read to the stream of the partition of index 32 of the first map. -/
theorem received_ne_partition {atlas : VpsAtlas} {raw : Bool} {vuh : V3CUnitHeader}
    (h : V3CUnitHeader) {c : ℕ × V3CUnitHeader} (hc : c ∈ PCCBitstreamWriter.videoHeaders atlas raw vuh) :
    atlas.streamType c.1 (c.2.received c.1) ≠ atlas.streamType V3C_AVD { h with
      attributeDimensionIndex := 32, mapIndex := 0, auxiliaryVideoFlag := false } := by
  have hlt := lt_streamType_attribute atlas { h with
    attributeDimensionIndex := 32, mapIndex := 0, auxiliaryVideoFlag := false }
  rcases exists_of_mem_videoHeaders hc with
    rfl | ⟨m, a, hsends, rfl⟩ | ⟨i, ai, d, m, a, hai, hd, hsends, rfl⟩
  · exact (Nat.zero_lt_of_lt hlt).ne
  · have hrange := streamType_geometry_range atlas
      (V3CUnitHeader.received { vuh with mapIndex := m, auxiliaryVideoFlag := a } V3C_GVD)
      (Nat.mod_lt m (by decide))
    exact (lt_of_le_of_lt hrange.2 hlt).ne
  · have hpartition : d % 2 ^ 5 < 32 := Nat.mod_lt d (by decide)
    have hreceived : V3CUnitHeader.received { vuh with
        attributeIndex := i, attributeDimensionIndex := d, mapIndex := m
        auxiliaryVideoFlag := a } V3C_AVD = {
          v3cParameterSetId := vuh.v3cParameterSetId % 2 ^ 4, atlasId := vuh.atlasId % 2 ^ 6
          attributeIndex := i % 2 ^ 7, attributeDimensionIndex := d % 2 ^ 5
          mapIndex := m % 2 ^ 4, auxiliaryVideoFlag := a } := rfl
    rw [hreceived, streamType_attribute, streamType_attribute]
    cases a <;> cases hstreams : atlas.mapStreams <;>
      simp only [if_true, Bool.false_eq_true, if_false] <;> omega

/-- The first stream of a type is that of the only component that has the type. -/
theorem find_stream {headers : List (ℕ × V3CUnitHeader)} {type : ℕ × V3CUnitHeader → ℕ}
    {data : ℕ × V3CUnitHeader → List UInt8}
    (hinjective : ∀ c ∈ headers, ∀ c' ∈ headers, type c = type c' → c = c')
    {c : ℕ × V3CUnitHeader} (hc : c ∈ headers) :
    (headers.map fun c => { type := type c, data := data c : PCCVideoBitstream }).find?
      (fun stream => stream.type = type c) = some { type := type c, data := data c } := by
  induction headers with
  | nil => cases hc
  | cons d rest ih =>
    rw [List.map_cons, List.find?_cons]
    by_cases heq : type d = type c
    · rw [hinjective d List.mem_cons_self c hc heq]
      simp
    · simp only [heq, decide_false]
      apply ih
      · intro a ha b hb
        exact hinjective a (List.mem_cons_of_mem d ha) b (List.mem_cons_of_mem d hb)
      · rcases List.mem_cons.mp hc with rfl | hmem
        · exact absurd rfl heq
        · exact hmem

/-- The streams that the reader makes have one for each component. -/
theorem VpsAtlas.OneStreamEach.find_received {atlas : VpsAtlas} {raw : Bool}
    {vuh : V3CUnitHeader} (h : atlas.OneStreamEach) (hmap : atlas.mapCountMinus1 < 16)
    (data : ℕ × V3CUnitHeader → List UInt8) {c : ℕ × V3CUnitHeader}
    (hc : c ∈ PCCBitstreamWriter.videoHeaders atlas raw vuh) :
    ((PCCBitstreamWriter.videoHeaders atlas raw vuh).map fun c =>
        { type := atlas.streamType c.1 (c.2.received c.1)
          data := data c : PCCVideoBitstream }).find?
      (fun stream => stream.type = atlas.streamType c.1 c.2) =
        some { type := atlas.streamType c.1 c.2, data := data c } := by
  have hstreams : (PCCBitstreamWriter.videoHeaders atlas raw vuh).map (fun c =>
        { type := atlas.streamType c.1 (c.2.received c.1)
          data := data c : PCCVideoBitstream }) =
      (PCCBitstreamWriter.videoHeaders atlas raw vuh).map fun c =>
        { type := atlas.streamType c.1 c.2, data := data c } := by
    apply List.map_congr_left
    intro d hd
    rw [h.streamType_received hmap hd]
  rw [hstreams]
  apply find_stream _ hc
  intro d hd d' hd'
  exact h.streamType_injective hmap hd hd'

section Components

variable {codec : AtlasCodec A} {vps : V3CParameterSet} {atlases : List A}
  {syntax' : PCCHighLevelSyntax A} {c : ℕ × V3CUnitHeader}

theorem mem_videoComponents :
    c ∈ videoComponents codec vps atlases ↔
      ∃ i atlas a, vps.atlases[i]? = some atlas ∧ atlases[i]? = some a ∧
        c ∈ atlasComponents codec vps atlas a i := by
  unfold videoComponents
  rw [List.mem_flatMap]
  constructor
  · rintro ⟨⟨⟨atlas, a⟩, i⟩, hmem, hc⟩
    have hzip := List.mem_zipIdx_iff_getElem?.mp hmem
    rw [List.getElem?_zip_eq_some] at hzip
    exact ⟨i, atlas, a, hzip.1, hzip.2, hc⟩
  · rintro ⟨i, atlas, a, hatlas, ha, hc⟩
    refine ⟨((atlas, a), i), ?_, hc⟩
    apply List.mem_zipIdx_iff_getElem?.mpr
    rw [List.getElem?_zip_eq_some]
    exact ⟨hatlas, ha⟩

theorem slot_eq {i : ℕ} {atlas : VpsAtlas} (hatlas : vps.atlases[i]? = some atlas)
    (hc : c.2.atlasId = i) : vps.slot c = some (i, atlas.streamType c.1 c.2) := by
  unfold V3CParameterSet.slot
  rw [hc, hatlas]
  rfl

theorem component_eq {i : ℕ} {atlas : VpsAtlas} (hatlas : vps.atlases[i]? = some atlas)
    (hc : c.2.atlasId = i) :
    syntax'.component vps c = syntax'.video i (atlas.streamType c.1 c.2) := by
  unfold PCCHighLevelSyntax.component
  rw [slot_eq hatlas hc]
  rfl

/-- The writer takes the stream of its current atlas. -/
theorem videoSubStream_eq {atlas : VpsAtlas} (hactive : syntax'.getVps = some vps)
    (hatlas : vps.atlases[c.2.atlasId]? = some atlas) (htype : atlas.HasVideo c.1) :
    PCCBitstreamWriter.videoSubStream syntax' c.1 c.2 =
      syntax'.video syntax'.atlasIndex (atlas.streamType c.1 c.2) := by
  unfold PCCBitstreamWriter.videoSubStream
  rw [hactive]
  simp only [Option.bind_eq_bind, Option.bind_some, videoStreamType_eq hatlas htype]
  rfl

end Components

section OneAtlas

variable (codec : AtlasCodec A) {vps : V3CParameterSet} {atlas : VpsAtlas} {a : A}

theorem videoComponents_oneAtlas (hatlases : vps.atlases = [atlas]) :
    videoComponents codec vps [a] =
      PCCBitstreamWriter.videoHeaders atlas (codec.raw a)
        { v3cParameterSetId := vps.v3cParameterSetId } := by
  unfold videoComponents atlasComponents
  rw [hatlases]
  simp

/-- The streams that are read for a syntax with a stream for every component. -/
theorem decode_encode_components (hvps : vps.Coded) (hshort : vps.profileTierLevel.NoLongIdc)
    (hatlases : vps.atlases = [atlas]) (haccepts : codec.Accepts a)
    {syntax' : PCCHighLevelSyntax A} (hactive : syntax'.getVps = some vps)
    (hmap : syntax'.atlasHLS.map AtlasSyntax.atlas = [a]) (hindex : syntax'.atlasIndex = 0)
    (hheld : ∀ c ∈ videoComponents codec vps [a], ∃ data,
      syntax'.component vps c = some data) :
    ∃ units received, PCCBitstreamWriter.encode codec syntax' = some units ∧
      PCCBitstreamReader.decode codec {} units =
        some (receiving vps received ((videoComponents codec vps [a]).map fun c =>
          { type := atlas.streamType c.1 (c.2.received c.1)
            data := (syntax'.component vps c).getD [] }), []) := by
  obtain ⟨hls, hhls, hatlas⟩ := List.map_eq_singleton_iff.mp hmap
  have hcurrent : syntax'.getAtlasHighLevelSyntax = some hls := by
    unfold PCCHighLevelSyntax.getAtlasHighLevelSyntax
    rw [hindex, hhls]
    rfl
  obtain ⟨⟨data, received, hwrite, hread⟩, raw, hraw⟩ := haccepts
  have hrawEq : codec.raw a = raw := by
    unfold AtlasCodec.raw
    rw [hraw]
    rfl
  have hfirst : vps.atlases[0]? = some atlas := by
    rw [hatlases]
    rfl
  rw [videoComponents_oneAtlas codec hatlases, hrawEq] at hheld ⊢
  have hheaders : ∀ c ∈ PCCBitstreamWriter.videoHeaders atlas raw
        { v3cParameterSetId := vps.v3cParameterSetId },
      atlas.HasVideo c.1 ∧ c.2.v3cParameterSetId = vps.v3cParameterSetId ∧ c.2.atlasId = 0 ∧
        PCCBitstreamWriter.videoSubStream syntax' c.1 c.2 =
          some ((syntax'.component vps c).getD []) := by
    intro c hc
    obtain ⟨htype, hset, hatlasId⟩ := atlasId_of_mem_videoHeaders hc
    obtain ⟨bytes, hbytes⟩ := hheld c hc
    refine ⟨htype, hset, hatlasId, ?_⟩
    have hof : vps.atlases[c.2.atlasId]? = some atlas := by
      rw [hatlasId]
      exact hfirst
    rw [videoSubStream_eq hactive hof htype, hindex, ← component_eq hfirst hatlasId, hbytes]
    rfl
  obtain ⟨units, hencode, hdecode⟩ := decode_encode_oneAtlas codec hvps hshort hatlases hactive
    hcurrent (hatlas ▸ hwrite) hread (hatlas ▸ hraw) hheaders
  exact ⟨units, received, hencode, hdecode⟩

/-- Every component of a single atlas with a stream for each comes back. -/
theorem routesVideo_of_oneStreamEach (hvps : vps.Coded)
    (hshort : vps.profileTierLevel.NoLongIdc) (hatlases : vps.atlases = [atlas])
    (heach : atlas.OneStreamEach) (haccepts : codec.Accepts a) : RoutesVideo codec vps [a] := by
  intro syntax' hactive hmap hindex hheld
  have hzero : syntax'.atlasIndex = 0 := Nat.lt_one_iff.mp hindex
  have hfirst : vps.atlases[0]? = some atlas := by
    rw [hatlases]
    rfl
  have hcount : atlas.mapCountMinus1 < 16 :=
    (hvps.atlas atlas (List.mem_of_getElem? hfirst)).map_lt
  obtain ⟨units, received, hencode, hdecode⟩ :=
    decode_encode_components codec hvps hshort hatlases haccepts hactive hmap hzero hheld
  rw [videoComponents_oneAtlas codec hatlases] at hheld hdecode ⊢
  have hid := fun c (hc : c ∈ PCCBitstreamWriter.videoHeaders atlas (codec.raw a)
    { v3cParameterSetId := vps.v3cParameterSetId }) => (atlasId_of_mem_videoHeaders hc).2.2
  constructor
  · intro c hc c' hc' hslot
    rw [slot_eq hfirst (hid c hc), slot_eq hfirst (hid c' hc')] at hslot
    apply heach.streamType_injective hcount hc hc'
    exact (Prod.mk.inj (Option.some.inj hslot)).2
  · refine ⟨units, _, hencode, hdecode, fun c hc => ?_⟩
    obtain ⟨bytes, hbytes⟩ := hheld c hc
    rw [component_eq hfirst (hid c hc)]
    simp only [PCCHighLevelSyntax.video, receiving, AtlasSyntax.getVideoBitstream,
      List.getElem?_cons_zero, Option.bind_eq_bind, Option.bind_some,
      heach.find_received hcount _ hc, Option.map_some, hbytes, Option.getD_some]

end OneAtlas

/-- A parameter set that has an outcome has no sub-profile id of 64 bits. -/
theorem noLongIdc_of_encode {codec : AtlasCodec A} {syntax' : PCCHighLevelSyntax A}
    {vps : V3CParameterSet} (hactive : syntax'.getVps = some vps) {units : List V3CUnit}
    (h : PCCBitstreamWriter.encode codec syntax' = some units) :
    vps.profileTierLevel.NoLongIdc := by
  unfold PCCBitstreamWriter.encode at h
  rw [hactive] at h
  obtain ⟨_, ⟨⟩, h⟩ := Option.bind_eq_some_iff.mp h
  obtain ⟨hls, -, h⟩ := Option.bind_eq_some_iff.mp h
  obtain ⟨raw, -, h⟩ := Option.bind_eq_some_iff.mp h
  unfold PCCBitstreamWriter.unitHeaders at h
  rw [List.mapM_cons] at h
  obtain ⟨unit, hunit, -⟩ := Option.bind_eq_some_iff.mp h
  obtain ⟨⟨⟨⟩, bits⟩, hbits, -⟩ := Option.bind_eq_some_iff.mp hunit
  obtain ⟨⟨⟩, _, _, -, hpayload, -⟩ := Writer.bind_run_eq_some.mp hbits
  unfold PCCBitstreamWriter.v3cUnitPayload at hpayload
  rw [if_pos rfl, hactive, Writer.ofOption_some, pure_bind] at hpayload
  exact V3CParameterSet.noLongIdc_of_write hpayload

section Holding

variable (codec : AtlasCodec A) (vps : V3CParameterSet) (atlases : List A)

/-- A syntax with a stream for every component, of the same bytes throughout an atlas. -/
def holding (data : ℕ → List UInt8) : PCCHighLevelSyntax A where
  vpccParameterSets := [vps]
  activeVPS := some vps.v3cParameterSetId
  atlasHLS := (vps.atlases.zip atlases).zipIdx.map fun ((atlas, a), i) =>
    { videoBitstream := (atlasComponents codec vps atlas a i).map fun c =>
        { type := atlas.streamType c.1 c.2, data := data i }
      atlas := a }
  atlasIndex := 0

variable {codec vps atlases} {data : ℕ → List UInt8}

theorem getVps_holding : (holding codec vps atlases data).getVps = some vps := by
  simp [PCCHighLevelSyntax.getVps, holding]

theorem atlases_holding (hlen : atlases.length = vps.atlases.length) :
    (holding codec vps atlases data).atlasHLS.map AtlasSyntax.atlas = atlases := by
  apply List.ext_getElem
  · simp [holding, hlen]
  · intro i hi hi'
    simp [holding]

theorem component_holding {c : ℕ × V3CUnitHeader} (hc : c ∈ videoComponents codec vps atlases) :
    (holding codec vps atlases data).component vps c = some (data c.2.atlasId) := by
  obtain ⟨i, atlas, a, hatlas, ha, hc⟩ := mem_videoComponents.mp hc
  obtain ⟨-, -, hid⟩ := atlasId_of_mem_videoHeaders hc
  rw [component_eq hatlas hid]
  have hhls : (holding codec vps atlases data).atlasHLS[i]? = some {
      videoBitstream := (atlasComponents codec vps atlas a i).map fun c =>
        { type := atlas.streamType c.1 c.2, data := data i }
      atlas := a } := by
    have hzip : (vps.atlases.zip atlases)[i]? = some (atlas, a) :=
      List.getElem?_zip_eq_some.mpr ⟨hatlas, ha⟩
    simp [holding, hzip]
  have hsome : (((atlasComponents codec vps atlas a i).map fun c =>
      { type := atlas.streamType c.1 c.2, data := data i : PCCVideoBitstream }).find?
        fun stream => stream.type = atlas.streamType c.1 c.2).isSome := by
    rw [List.find?_isSome]
    exact ⟨_, List.mem_map_of_mem hc, by simp⟩
  obtain ⟨stream, hstream⟩ := Option.isSome_iff_exists.mp hsome
  obtain ⟨d, -, hd⟩ := List.mem_map.mp (List.mem_of_find?_eq_some hstream)
  have hdata : stream.data = data c.2.atlasId := by
    rw [← hd, hid]
  unfold PCCHighLevelSyntax.video
  rw [hhls]
  simp only [Option.bind_eq_bind, Option.bind_some, AtlasSyntax.getVideoBitstream, hstream,
    Option.map_some, hdata]

theorem current_holding {data' : ℕ → List UInt8} (h : data 0 = data' 0) :
    (holding codec vps atlases data).getAtlasHighLevelSyntax =
      (holding codec vps atlases data').getAtlasHighLevelSyntax := by
  unfold PCCHighLevelSyntax.getAtlasHighLevelSyntax holding
  cases vps.atlases.zip atlases with
  | nil => rfl
  | cons first rest => simp [h]

/-- What a syntax with a stream for every component has routed. -/
theorem RoutesVideo.holding (h : RoutesVideo codec vps atlases)
    (hlen : atlases.length = vps.atlases.length) (hpos : vps.atlases ≠ []) (data : ℕ → List UInt8) :
    (∀ c ∈ videoComponents codec vps atlases, ∀ c' ∈ videoComponents codec vps atlases,
      vps.slot c = vps.slot c' → c = c') ∧
    ∃ units received,
      PCCBitstreamWriter.encode codec (V3C.holding codec vps atlases data) = some units ∧
      PCCBitstreamReader.decode codec {} units = some (received, []) ∧
      ∀ c ∈ videoComponents codec vps atlases,
        received.component vps c = some (data c.2.atlasId) := by
  have hindex : (V3C.holding codec vps atlases data).atlasIndex < atlases.length := by
    rw [hlen]
    exact List.length_pos_of_ne_nil hpos
  obtain ⟨hinjective, units, received, hencode, hdecode, hcomponent⟩ :=
    h (V3C.holding codec vps atlases data) getVps_holding (atlases_holding hlen) hindex
      fun c hc => ⟨_, component_holding hc⟩
  refine ⟨hinjective, units, received, hencode, hdecode, fun c hc => ?_⟩
  rw [hcomponent c hc, component_holding hc]

end Holding

section Necessity

variable {codec : AtlasCodec A} {vps : V3CParameterSet} {atlases : List A}

/-- The writer sees no more of a syntax than its parameter set and its current atlas. -/
theorem encode_congr {s s' : PCCHighLevelSyntax A} (hvps : s.getVps = s'.getVps)
    (hcurrent : s.getAtlasHighLevelSyntax = s'.getAtlasHighLevelSyntax) :
    PCCBitstreamWriter.encode codec s = PCCBitstreamWriter.encode codec s' := by
  have hunit : PCCBitstreamWriter.v3cUnit codec s = PCCBitstreamWriter.v3cUnit codec s' := by
    funext v3cUnitType vuh
    unfold PCCBitstreamWriter.v3cUnit PCCBitstreamWriter.v3cUnitPayload
      PCCBitstreamWriter.videoSubStream
    rw [hvps, hcurrent]
  unfold PCCBitstreamWriter.encode
  rw [hvps, hcurrent, hunit]

/-- A second atlas is never written. -/
theorem oneAtlas_of_routesVideo (h : RoutesVideo codec vps atlases)
    (hlen : atlases.length = vps.atlases.length) (hpos : vps.atlases ≠ []) :
    vps.atlases.length = 1 := by
  by_contra hne
  have htwo : 1 < vps.atlases.length := by
    have := List.length_pos_of_ne_nil hpos
    omega
  have hsecond : ((V3C_OVD, { v3cParameterSetId := vps.v3cParameterSetId, atlasId := 1 }) :
      ℕ × V3CUnitHeader) ∈ videoComponents codec vps atlases := by
    apply mem_videoComponents.mpr
    refine ⟨1, vps.atlases[1], atlases[1], List.getElem?_eq_getElem htwo,
      List.getElem?_eq_getElem (by omega), ?_⟩
    exact occupancy_mem_videoHeaders
  obtain ⟨-, units, received, hencode, hdecode, hcomponent⟩ := h.holding hlen hpos fun _ => []
  obtain ⟨-, units', received', hencode', hdecode', hcomponent'⟩ :=
    h.holding hlen hpos fun i => if i = 0 then [] else [0]
  have hsame : PCCBitstreamWriter.encode codec (holding codec vps atlases fun _ => []) =
      PCCBitstreamWriter.encode codec
        (holding codec vps atlases fun i => if i = 0 then [] else [0]) := by
    apply encode_congr
    · rw [getVps_holding, getVps_holding]
    · exact current_holding rfl
  rw [hencode, hencode', Option.some.injEq] at hsame
  rw [hsame, hdecode', Option.some.injEq, Prod.mk.injEq] at hdecode
  have hempty := hcomponent _ hsecond
  rw [← hdecode.1, hcomponent' _ hsecond] at hempty
  cases hempty

/-- Two attributes share their streams. -/
theorem oneAttribute_of_routesVideo (h : RoutesVideo codec vps atlases)
    (hlen : atlases.length = vps.atlases.length) (hpos : vps.atlases ≠ []) {i : ℕ}
    {atlas : VpsAtlas} (hatlas : vps.atlases[i]? = some atlas) :
    atlas.attributeInformation.length ≤ 1 := by
  by_contra hne
  have hlt : i < atlases.length := by
    rw [hlen]
    exact (List.getElem?_eq_some_iff.mp hatlas).1
  have hmem : ∀ j, j < atlas.attributeInformation.length →
      ((V3C_AVD, {
          v3cParameterSetId := vps.v3cParameterSetId, atlasId := i, attributeIndex := j }) :
        ℕ × V3CUnitHeader) ∈ videoComponents codec vps atlases := by
    intro j hj
    apply mem_videoComponents.mpr
    refine ⟨i, atlas, atlases[i], hatlas, List.getElem?_eq_getElem hlt, ?_⟩
    exact attribute_mem_videoHeaders (List.getElem?_eq_getElem hj) (Nat.zero_le _)
  have hslot : ∀ j, vps.slot (V3C_AVD, {
      v3cParameterSetId := vps.v3cParameterSetId, atlasId := i, attributeIndex := j }) =
        some (i, atlas.streamType V3C_AVD {}) := by
    intro j
    rw [slot_eq hatlas rfl]
    rfl
  have heq := (h.holding hlen hpos fun _ => []).1 _ (hmem 0 (by omega)) _ (hmem 1 (by omega))
    ((hslot 0).trans (hslot 1).symm)
  have hindex := congrArg (fun c : ℕ × V3CUnitHeader => c.2.attributeIndex) heq
  exact Nat.zero_ne_one hindex

/-- A partition whose index the header has no room for is read to the stream of another. -/
theorem partitions_of_routesVideo (hvps : vps.Coded) (hshort : vps.profileTierLevel.NoLongIdc)
    {atlas : VpsAtlas} (hatlases : vps.atlases = [atlas]) {a : A} (haccepts : codec.Accepts a)
    (h : RoutesVideo codec vps [a]) {ai : Attribute} (hai : ai ∈ atlas.attributeInformation) :
    ai.attributeDimensionPartitionsMinus1 < 32 := by
  by_contra hge
  obtain ⟨j, hj⟩ := List.mem_iff_getElem?.mp hai
  have hlen : [a].length = vps.atlases.length := by
    rw [hatlases]
    rfl
  have hpos : vps.atlases ≠ [] := by
    rw [hatlases]
    exact List.cons_ne_nil _ _
  have hfirst : vps.atlases[0]? = some atlas := by
    rw [hatlases]
    rfl
  -- The component of the partition of index 32 is not in the streams that are read.
  have hmem : ((V3C_AVD, {
      v3cParameterSetId := vps.v3cParameterSetId, attributeIndex := j
      attributeDimensionIndex := 32 }) : ℕ × V3CUnitHeader) ∈ videoComponents codec vps [a] := by
    rw [videoComponents_oneAtlas codec hatlases]
    exact attribute_mem_videoHeaders hj (by omega)
  obtain ⟨-, units, received, hencode, hdecode, hcomponent⟩ := h.holding hlen hpos fun _ => []
  obtain ⟨units', atlasRead, hencode', hdecode'⟩ := decode_encode_components codec hvps hshort
    hatlases haccepts getVps_holding (atlases_holding hlen) rfl
    fun c hc => ⟨_, component_holding hc⟩
  rw [hencode, Option.some.injEq] at hencode'
  rw [← hencode', hdecode, Option.some.injEq, Prod.mk.injEq] at hdecode'
  have hheld := hcomponent _ hmem
  rw [hdecode'.1, component_eq hfirst rfl] at hheld
  simp only [PCCHighLevelSyntax.video, receiving, AtlasSyntax.getVideoBitstream,
    List.getElem?_cons_zero, Option.bind_eq_bind, Option.bind_some, Option.map_eq_some_iff]
    at hheld
  obtain ⟨stream, hfind, -⟩ := hheld
  obtain ⟨c, hc, hstream⟩ := List.mem_map.mp (List.mem_of_find?_eq_some hfind)
  have htype := List.find?_some hfind
  rw [← hstream] at htype
  rw [videoComponents_oneAtlas codec hatlases] at hc
  exact received_ne_partition
    { v3cParameterSetId := vps.v3cParameterSetId, attributeIndex := j } hc
    (of_decide_eq_true htype)

end Necessity

/-- The writer writes the units of one atlas, and neither side tells the attributes apart. -/
def V3CParameterSet.OneStreamEach (vps : V3CParameterSet) : Prop :=
  vps.profileTierLevel.NoLongIdc ∧ ∃ atlas, vps.atlases = [atlas] ∧ atlas.OneStreamEach

/-- Every video component comes back with its own bytes exactly for the parameter sets with one
atlas of at most one attribute, whose partitions fit the header. -/
theorem routesVideo_iff (codec : AtlasCodec A) {vps : V3CParameterSet} (hvps : vps.Coded)
    {atlases : List A} (hlen : atlases.length = vps.atlases.length)
    (haccepts : ∀ a ∈ atlases, codec.Accepts a) :
    RoutesVideo codec vps atlases ↔ vps.OneStreamEach := by
  constructor
  · intro h
    have hone := oneAtlas_of_routesVideo h hlen hvps.atlas_pos
    obtain ⟨atlas, hatlases⟩ := List.length_eq_one_iff.mp hone
    obtain ⟨a, rfl⟩ := List.length_eq_one_iff.mp (hlen.trans hone)
    obtain ⟨-, units, received, hencode, -⟩ := h.holding hlen hvps.atlas_pos fun _ => []
    have hshort := noLongIdc_of_encode getVps_holding hencode
    have hfirst : vps.atlases[0]? = some atlas := by
      rw [hatlases]
      rfl
    refine ⟨hshort, atlas, hatlases, ?_, ?_⟩
    · exact oneAttribute_of_routesVideo h hlen hvps.atlas_pos hfirst
    · intro ai hai
      have ha := haccepts a (List.mem_singleton.mpr rfl)
      exact partitions_of_routesVideo hvps hshort hatlases ha h hai
  · rintro ⟨hshort, atlas, hatlases, heach⟩
    have hone : atlases.length = 1 := by
      rw [hlen, hatlases]
      rfl
    obtain ⟨a, rfl⟩ := List.length_eq_one_iff.mp hone
    have ha := haccepts a (List.mem_singleton.mpr rfl)
    exact routesVideo_of_oneStreamEach codec hvps hshort hatlases heach ha

theorem verbatim_accepts (bytes : List UInt8) : verbatim.Accepts bytes :=
  ⟨⟨bytes, bytes, rfl, rfl⟩, false, rfl⟩

/-- A parameter set of one atlas with attributes of one dimension. -/
def withAttributes (count : ℕ) : V3CParameterSet where
  atlases := [{
    mapAbsoluteCodingEnableFlag := [true]
    mapPredictorIndexDiff := [0]
    attributeVideoPresentFlag := true
    attributeInformation := List.replicate count {} }]

theorem defaultProfile_coded : ({} : ProfileTierLevel).Coded where
  group_lt := by decide
  toolset_lt := by decide
  reconstruction_lt := by decide
  level_lt := by decide
  count_lt := by decide
  idc_lt := by decide
  constraints := nofun

theorem defaultAttribute_coded : ({} : Attribute).Coded where
  type_lt := by decide
  codec_lt := by decide
  auxiliary_lt := by decide
  dimension_lt := by decide
  partitions_lt := by decide
  bitdepth_lt := by decide
  oneDimension := fun _ => rfl
  channels := trivial

theorem withAttributes_coded {count : ℕ} (h : count < 2 ^ 7) : (withAttributes count).Coded where
  profile := defaultProfile_coded
  id_lt := Nat.two_pow_pos 4
  atlas_pos := List.cons_ne_nil _ _
  atlas_le := Nat.one_le_two_pow
  atlas := by
    intro atlas hatlas
    obtain rfl := List.mem_singleton.mp hatlas
    exact {
      id_lt := Nat.two_pow_pos 6
      width_lt := Nat.one_lt_two_pow (by decide)
      height_lt := Nat.two_pow_pos 16
      map_lt := Nat.two_pow_pos 4
      oneMap := fun _ => rfl
      absolute_length := rfl
      predictor_length := rfl
      predictor_le := by simp
      oneStream := by simp
      occupancy := nofun
      geometry := nofun
      attribute_lt := lt_of_eq_of_lt List.length_replicate h
      attributes := by
        intro ai hai
        obtain ⟨-, rfl⟩ := List.mem_replicate.mp hai
        exact defaultAttribute_coded
      noAttribute := nofun }
  extension_lt := Nat.two_pow_pos 8
  noExtension := fun _ => rfl
  length_lt := Nat.one_lt_two_pow (by decide)
  byte_length := fun h => absurd rfl h
  byte_lt := nofun

theorem routesVideo_oneAttribute : RoutesVideo verbatim (withAttributes 1) [[]] := by
  apply (routesVideo_iff verbatim (withAttributes_coded (by decide)) rfl
    fun a _ => verbatim_accepts a).mpr
  refine ⟨fun _ => rfl, _, rfl, ?_, ?_⟩
  · decide
  · decide

/-- Two attributes are held, and read, in the same streams. -/
theorem not_routesVideo_twoAttributes :
    (withAttributes 2).Coded ∧ verbatim.Accepts [] ∧
      ¬RoutesVideo verbatim (withAttributes 2) [[]] := by
  refine ⟨withAttributes_coded (by decide), verbatim_accepts [], fun h => ?_⟩
  have hone := oneAttribute_of_routesVideo h rfl (List.cons_ne_nil _ _) (i := 0) rfl
  exact absurd hone (by decide)

end V3C

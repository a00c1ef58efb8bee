import V3C.Syntax.V3CParameterSetRoundTrip

/-! Which V3C parameter sets come back as they are: those that the reader can give. -/
namespace Codec.Reader.Ensures

variable {α : Type} {P : α → Prop}

theorem mono {r : Reader α} {Q : α → Prop} (h : Ensures r P) (hPQ : ∀ a, P a → Q a) :
    Ensures r Q := by
  intro c a c' hrun
  exact hPQ a (h c a c' hrun)

/-- The value of an element that is coded under a flag, or its default. -/
theorem flagged {b : Bool} {r : Reader α} {d : α} (h : b = true → Ensures r P)
    (hd : b = false → P d) : Ensures (Reader.whenElse b r d) P := by
  cases b with
  | true => exact h rfl
  | false => exact Ensures.pure (hd rfl)

theorem default_of_not {b : Bool} {r : Reader α} {d : α} (h : Ensures r P) :
    Ensures (Reader.whenElse b r d) fun a => (b = true → P a) ∧ (b = false → a = d) := by
  cases b with
  | true => exact h.mono fun a ha => ⟨fun _ => ha, nofun⟩
  | false => exact Ensures.pure ⟨nofun, fun _ => rfl⟩

theorem forall_of_repeatFrom {f : ℕ → Reader α} (h : ∀ i, Ensures (f i) P) (i n : ℕ) :
    Ensures (Reader.repeatFrom i n f) fun as => as.length = n ∧ ∀ a ∈ as, P a := by
  induction n generalizing i with
  | zero => exact Ensures.pure ⟨rfl, by simp⟩
  | succ n ih =>
    refine (h i).then_bind fun a ha => (ih (i + 1)).then_bind fun as has => Ensures.pure ?_
    exact ⟨by rw [List.length_cons, has.1], List.forall_mem_cons.mpr ⟨ha, has.2⟩⟩

end Codec.Reader.Ensures

namespace V3C
open Codec

theorem viaBool_le (n : ℕ) : viaBool n ≤ 1 := by
  unfold viaBool
  split_ifs <;> omega

namespace ProfileToolsetConstraintsInformation

/-- The elements fit their bits. -/
structure InRange (ptci : ProfileToolsetConstraintsInformation) : Prop where
  map_lt : ptci.maxMapCountMinus1 < 2 ^ 4
  atlas_lt : ptci.maxAtlasCountMinus1 < 2 ^ 4
  dimension_lt : ptci.attributeMaxDimensionMinus1 < 2 ^ 6
  partitions_lt : ptci.attributeMaxDimensionPartitionsMinus1 < 2 ^ 6
  reserved_lt : ptci.reservedConstraintByte.length < 2 ^ 8
  byte_lt : ∀ byte ∈ ptci.reservedConstraintByte, byte < 2 ^ 8

/-- The setters of the numbers take a `bool`. -/
structure Restorable (ptci : ProfileToolsetConstraintsInformation) : Prop where
  map_le : ptci.maxMapCountMinus1 ≤ 1
  atlas_le : ptci.maxAtlasCountMinus1 ≤ 1
  dimension_le : ptci.attributeMaxDimensionMinus1 ≤ 1
  partitions_le : ptci.attributeMaxDimensionPartitionsMinus1 ≤ 1
  reserved_le : ptci.reservedConstraintByte.length ≤ 1
  byte_le : ∀ byte ∈ ptci.reservedConstraintByte, byte ≤ 1

theorem InRange.coded {ptci : ProfileToolsetConstraintsInformation} (h : ptci.InRange)
    (hreserved : ptci.reservedConstraintByte.length ≤ 1) : ptci.Coded :=
  ⟨h.map_lt, h.atlas_lt, h.dimension_lt, h.partitions_lt, hreserved, h.byte_lt⟩

theorem Restorable.received_eq {ptci : ProfileToolsetConstraintsInformation}
    (h : ptci.Restorable) : ptci.received = ptci := by
  have hbytes : ptci.reservedConstraintByte.map viaBool = ptci.reservedConstraintByte := by
    rw [List.map_congr_left fun byte hbyte => viaBool_of_le (h.byte_le byte hbyte), List.map_id']
  unfold received
  rw [viaBool_of_le h.map_le, viaBool_of_le h.atlas_le, viaBool_of_le h.dimension_le,
    viaBool_of_le h.partitions_le, hbytes]

theorem ensures_restorable :
    Reader.Ensures PCCBitstreamReader.profileToolsetConstraintsInformation Restorable := by
  unfold PCCBitstreamReader.profileToolsetConstraintsInformation
  iterate 12
    apply Reader.Ensures.bind
    intro _
  refine Reader.Ensures.then_bind (Reader.Ensures.forall_of_repeatFrom (P := (· ≤ 1))
    (fun _ => .bind fun byte => .pure (viaBool_le byte)) _ _) fun bytes hbytes => ?_
  apply Reader.Ensures.pure
  constructor
  · exact viaBool_le _
  · exact viaBool_le _
  · exact viaBool_le _
  · exact viaBool_le _
  · exact hbytes.1.le.trans (viaBool_le _)
  · exact hbytes.2

end ProfileToolsetConstraintsInformation

namespace ProfileTierLevel

/-- The elements fit their bits. The ids of sub-profiles are kept in bytes. -/
structure InRange (ptl : ProfileTierLevel) : Prop where
  group_lt : ptl.profileCodecGroupIdc < 2 ^ 7
  toolset_lt : ptl.profileToolsetIdc < 2 ^ 8
  reconstruction_lt : ptl.profileReconstructionIdc < 2 ^ 8
  level_lt : ptl.levelIdc < 2 ^ 8
  count_lt : ptl.subProfileIdc.length < 2 ^ 6
  idc_lt : ∀ idc ∈ ptl.subProfileIdc, idc < 2 ^ 8
  constraints : ptl.toolConstraintsPresentFlag = true →
    ptl.profileToolsetConstraintsInformation.InRange

/-- What a parameter set has that the reader gives: without the flag, the constraints are those
of the constructor. -/
structure Restorable (ptl : ProfileTierLevel) : Prop where
  constraints : ptl.toolConstraintsPresentFlag = true →
    ptl.profileToolsetConstraintsInformation.Restorable
  noConstraints : ptl.toolConstraintsPresentFlag = false →
    ptl.profileToolsetConstraintsInformation = {}

theorem InRange.coded {ptl : ProfileTierLevel} (h : ptl.InRange) (hrestorable : ptl.Restorable) :
    ptl.Coded where
  group_lt := h.group_lt
  toolset_lt := h.toolset_lt
  reconstruction_lt := h.reconstruction_lt
  level_lt := h.level_lt
  count_lt := h.count_lt
  idc_lt := h.idc_lt
  constraints hpresent :=
    (h.constraints hpresent).coded (hrestorable.constraints hpresent).reserved_le

theorem Restorable.received_eq {ptl : ProfileTierLevel} (h : ptl.Restorable) :
    ptl.received = ptl := by
  have hconstraints : (if ptl.toolConstraintsPresentFlag = true then
      ptl.profileToolsetConstraintsInformation.received else {}) =
        ptl.profileToolsetConstraintsInformation := by
    by_cases hpresent : ptl.toolConstraintsPresentFlag = true
    · rw [if_pos hpresent, (h.constraints hpresent).received_eq]
    · rw [if_neg hpresent, h.noConstraints (by simpa using hpresent)]
  unfold received
  rw [hconstraints]

theorem ensures_restorable :
    Reader.Ensures PCCBitstreamReader.profileTierLevel Restorable := by
  unfold PCCBitstreamReader.profileTierLevel
  iterate 11
    apply Reader.Ensures.bind
    intro _
  refine Reader.Ensures.then_bind (Reader.Ensures.default_of_not
    ProfileToolsetConstraintsInformation.ensures_restorable) fun constraints hconstraints => ?_
  exact Reader.Ensures.pure ⟨hconstraints.1, hconstraints.2⟩

theorem noLongIdc_of_run {ptl : ProfileTierLevel} {p : Phase} {bs : List Bool}
    (h : PCCBitstreamWriter.profileTierLevel ptl p = some ((), bs)) : ptl.NoLongIdc := by
  intro hextended
  by_contra hne
  obtain ⟨idc, rest, hidc⟩ := List.exists_cons_of_ne_nil hne
  unfold PCCBitstreamWriter.profileTierLevel at h
  iterate 9
    obtain ⟨⟨⟩, _, _, -, h, -⟩ := Writer.bind_run_eq_some.mp h
  obtain ⟨⟨⟩, _, _, hloop, -⟩ := Writer.bind_run_eq_some.mp h
  have hmem : idc ∈ ptl.subProfileIdc := hidc ▸ List.mem_cons_self
  obtain ⟨_, _, hwrite⟩ := Writer.exists_of_forEach hloop hmem
  rw [hextended, if_pos rfl] at hwrite
  cases hwrite

end ProfileTierLevel

/-- A codec id of the auxiliary video is coded if the first atlas has that video. -/
def GeometryInformation.Restorable (auxiliary : Bool) (gi : GeometryInformation) : Prop :=
  auxiliary = false → gi.auxiliaryGeometryCodecId = 0

theorem GeometryInformation.Restorable.received_eq {auxiliary : Bool} {gi : GeometryInformation}
    (h : gi.Restorable auxiliary) : gi.received auxiliary = gi := by
  have hcodec : (if auxiliary = true then gi.auxiliaryGeometryCodecId else 0) =
      gi.auxiliaryGeometryCodecId := by
    cases auxiliary with
    | true => rfl
    | false => exact (h rfl).symm
  unfold received
  rw [hcodec]

theorem GeometryInformation.ensures_restorable (auxiliary : Bool) :
    Reader.Ensures (PCCBitstreamReader.geometryInformation auxiliary) (Restorable auxiliary) := by
  unfold PCCBitstreamReader.geometryInformation
  iterate 4
    apply Reader.Ensures.bind
    intro _
  refine Reader.Ensures.then_bind (P := fun codec => auxiliary = false → codec = 0) ?_
    fun codec hcodec => .pure hcodec
  exact .flagged (fun hpresent c codec c' _ habsent => by simp [hpresent] at habsent)
    fun _ _ => rfl

namespace Attribute

/-- The elements fit their bits, and the channels of the partitions are those of the dimension.
With one dimension no channel count is stored. -/
structure InRange (ai : Attribute) : Prop where
  type_lt : ai.attributeTypeId < 2 ^ 4
  codec_lt : ai.attributeCodecId < 2 ^ 8
  auxiliary_lt : ai.auxiliaryAttributeCodecId < 2 ^ 8
  dimension_lt : ai.attributeDimensionMinus1 < 2 ^ 6
  partitions_lt : ai.attributeDimensionPartitionsMinus1 < 2 ^ 6
  bitdepth_lt : ai.attribute2dBitdepthMinus1 < 2 ^ 5
  oneDimension : ai.attributeDimensionMinus1 = 0 →
    ai.attributeDimensionPartitionsMinus1 = 0 ∧ ai.attributePartitionChannelsMinus1 = []
  partition_length : 0 < ai.attributeDimensionMinus1 →
    ai.attributePartitionChannelsMinus1.length = ai.attributeDimensionPartitionsMinus1 + 1
  channels_sum : 0 < ai.attributeDimensionMinus1 →
    (ai.attributePartitionChannelsMinus1.map (· + 1)).sum = ai.attributeDimensionMinus1 + 1

structure Restorable (auxiliary : Bool) (mapCountMinus1 : ℕ) (ai : Attribute) : Prop where
  auxiliary_eq : auxiliary = false → ai.auxiliaryAttributeCodecId = 0
  persistence : mapCountMinus1 = 0 → ai.attributeMapAbsoluteCodingPersistenceFlag = true

theorem length_le_sum_succ (channels : List ℕ) :
    channels.length ≤ (channels.map (· + 1)).sum := by
  induction channels with
  | nil => exact Nat.zero_le _
  | cons c channels ih =>
    rw [List.length_cons, List.map_cons, List.sum_cons]
    omega

/-- Channel counts that sum to the dimension are what both loops take them for. -/
theorem partitionsCoded_of_sum {n : ℕ} {channels : List ℕ} {remaining : ℤ}
    (hlength : channels.length = n + 1) (hremaining : remaining < 2 ^ 8)
    (hsum : (((channels.map (· + 1)).sum : ℕ) : ℤ) = remaining + 1) :
    PartitionsCoded n channels remaining ∧ receivedChannels n channels remaining = channels := by
  induction n generalizing channels remaining with
  | zero =>
    obtain ⟨c, rfl⟩ := List.length_eq_one_iff.mp hlength
    have hc : (c : ℤ) = remaining := by
      simp only [List.map_cons, List.map_nil, List.sum_cons, List.sum_nil] at hsum
      omega
    have hlast : toUInt8 remaining = c := by
      unfold toUInt8
      omega
    exact ⟨trivial, by rw [receivedChannels, hlast]⟩
  | succ n ih =>
    obtain ⟨c, channels, rfl⟩ := List.exists_cons_of_length_eq_add_one hlength
    have htail : channels.length = n + 1 := by simpa using hlength
    have hcount := length_le_sum_succ channels
    have htailSum : (((channels.map (· + 1)).sum : ℕ) : ℤ) = remaining - (c + 1) + 1 := by
      rw [List.map_cons, List.sum_cons] at hsum
      generalize (channels.map (· + 1)).sum = total at hsum ⊢
      omega
    have hrest : (c : ℤ) + 1 ≤ remaining := by
      generalize (channels.map (· + 1)).sum = total at hcount htailSum
      omega
    obtain ⟨hcoded, hreceived⟩ := ih htail (by omega) htailSum
    refine ⟨⟨?_, ?_, hcoded⟩, ?_⟩
    · rw [List.headD_cons]
      omega
    · intro hforced
      rw [List.headD_cons]
      omega
    · rw [receivedChannels, List.headD_cons, List.tail_cons, hreceived]

theorem InRange.partitions {ai : Attribute} (h : ai.InRange)
    (hdimension : 0 < ai.attributeDimensionMinus1) :
    PartitionsCoded ai.attributeDimensionPartitionsMinus1 ai.attributePartitionChannelsMinus1
        ai.attributeDimensionMinus1 ∧
      receivedChannels ai.attributeDimensionPartitionsMinus1 ai.attributePartitionChannelsMinus1
        ai.attributeDimensionMinus1 = ai.attributePartitionChannelsMinus1 := by
  have hlt := h.dimension_lt
  have hsum := h.channels_sum hdimension
  exact partitionsCoded_of_sum (h.partition_length hdimension) (by omega) (by omega)

theorem InRange.coded {ai : Attribute} (h : ai.InRange) : ai.Coded where
  type_lt := h.type_lt
  codec_lt := h.codec_lt
  auxiliary_lt := h.auxiliary_lt
  dimension_lt := h.dimension_lt
  partitions_lt := h.partitions_lt
  bitdepth_lt := h.bitdepth_lt
  oneDimension hzero := (h.oneDimension hzero).1
  channels := by
    by_cases hzero : ai.attributeDimensionMinus1 = 0
    · rw [(h.oneDimension hzero).1]
      trivial
    · exact (h.partitions (by omega)).1

theorem InRange.received_eq {ai : Attribute} (h : ai.InRange) {auxiliary : Bool}
    {mapCountMinus1 : ℕ} (hrestorable : ai.Restorable auxiliary mapCountMinus1) :
    ai.received auxiliary mapCountMinus1 = ai := by
  have hauxiliary : (if auxiliary = true then ai.auxiliaryAttributeCodecId else 0) =
      ai.auxiliaryAttributeCodecId := by
    cases auxiliary with
    | true => rfl
    | false => exact (hrestorable.auxiliary_eq rfl).symm
  have hpersistence : (if decide (0 < mapCountMinus1) = true then
      ai.attributeMapAbsoluteCodingPersistenceFlag else true) =
        ai.attributeMapAbsoluteCodingPersistenceFlag := by
    by_cases hpos : 0 < mapCountMinus1
    · rw [if_pos (decide_eq_true hpos)]
    · rw [if_neg (by simp [hpos]), hrestorable.persistence (by omega)]
  have hchannels : (if 0 < ai.attributeDimensionMinus1 then
      receivedChannels ai.attributeDimensionPartitionsMinus1 ai.attributePartitionChannelsMinus1
        ai.attributeDimensionMinus1 else []) = ai.attributePartitionChannelsMinus1 := by
    by_cases hpos : 0 < ai.attributeDimensionMinus1
    · rw [if_pos hpos, (h.partitions hpos).2]
    · rw [if_neg hpos, (h.oneDimension (by omega)).2]
  unfold received
  rw [hauxiliary, hpersistence, hchannels]

theorem ensures_restorable (auxiliary : Bool) (mapCountMinus1 : ℕ) :
    Reader.Ensures (PCCBitstreamReader.vpsAttribute auxiliary mapCountMinus1)
      (Restorable auxiliary mapCountMinus1) := by
  unfold PCCBitstreamReader.vpsAttribute
  refine .bind fun _ => .bind fun _ => ?_
  refine .then_bind (P := fun codec => auxiliary = false → codec = 0) ?_ fun codec hcodec => ?_
  · exact .flagged (fun hpresent c codec c' _ habsent => by simp [hpresent] at habsent)
      fun _ _ => rfl
  refine .then_bind (P := fun flag => mapCountMinus1 = 0 → flag = true) ?_ fun flag hflag => ?_
  · refine .flagged (fun hpresent c codec c' _ hzero => ?_) fun _ _ => rfl
    have hpos : 0 < mapCountMinus1 := by simpa using hpresent
    omega
  · refine .bind fun _ => .bind fun _ => .bind fun _ => .bind fun _ => .pure ?_
    exact ⟨hcodec, hflag⟩

theorem list_ensures_restorable (auxiliary : Bool) (mapCountMinus1 : ℕ) :
    Reader.Ensures (PCCBitstreamReader.attributeInformation auxiliary mapCountMinus1)
      fun attributes => ∀ ai ∈ attributes, ai.Restorable auxiliary mapCountMinus1 := by
  unfold PCCBitstreamReader.attributeInformation
  refine .bind fun count => ?_
  exact (Reader.Ensures.forall_of_repeatFrom
    (fun _ => ensures_restorable auxiliary mapCountMinus1) _ _).mono fun _ h => h.2

end Attribute

namespace VpsAtlas

/-- The elements of an atlas fit their bits, and its maps have a flag and a difference each. -/
structure InRange (atlas : VpsAtlas) : Prop where
  id_lt : atlas.atlasId < 2 ^ 6
  width_lt : atlas.frameWidth < 2 ^ 16
  height_lt : atlas.frameHeight < 2 ^ 16
  map_lt : atlas.mapCountMinus1 < 2 ^ 4
  absolute_length : atlas.mapAbsoluteCodingEnableFlag.length = atlas.mapCountMinus1 + 1
  predictor_length : atlas.mapPredictorIndexDiff.length = atlas.mapCountMinus1 + 1
  occupancy : atlas.occupancyVideoPresentFlag = true → atlas.occupancyInformation.Coded
  geometry : atlas.geometryVideoPresentFlag = true → atlas.geometryInformation.Coded
  attribute_lt : atlas.attributeInformation.length < 2 ^ 7
  attributes : ∀ ai ∈ atlas.attributeInformation, ai.InRange

/-- What an atlas has that the reader gives. The setter of a predictor difference takes a
`bool`; what is not coded has the value that the reader puts there. -/
structure Restorable (auxiliary : Bool) (mapCountMinus1 : ℕ) (atlas : VpsAtlas) : Prop where
  oneMap : atlas.mapCountMinus1 = 0 → atlas.multipleMapStreamsPresentFlag = false
  first_absolute : atlas.mapAbsoluteCodingEnableFlag[0]? = some true
  first_predictor : atlas.mapPredictorIndexDiff[0]? = some 0
  oneStream : atlas.multipleMapStreamsPresentFlag = false →
    ∀ absolute ∈ atlas.mapAbsoluteCodingEnableFlag, absolute = true
  predictor_le : ∀ diff ∈ atlas.mapPredictorIndexDiff, diff ≤ 1
  predictor_absolute : ∀ i : ℕ, atlas.mapAbsoluteCodingEnableFlag[i]? = some true →
    atlas.mapPredictorIndexDiff[i]? = some 0
  noOccupancy : atlas.occupancyVideoPresentFlag = false → atlas.occupancyInformation = {}
  geometry : atlas.geometryVideoPresentFlag = true →
    atlas.geometryInformation.Restorable auxiliary
  noGeometry : atlas.geometryVideoPresentFlag = false → atlas.geometryInformation = {}
  attributes : ∀ ai ∈ atlas.attributeInformation, ai.Restorable auxiliary mapCountMinus1
  noAttribute : atlas.attributeVideoPresentFlag = false → atlas.attributeInformation = []

variable {auxiliary : Bool} {mapCountMinus1 : ℕ} {atlas : VpsAtlas}

theorem InRange.coded (h : atlas.InRange) (hrestorable : atlas.Restorable auxiliary mapCountMinus1) :
    atlas.Coded where
  id_lt := h.id_lt
  width_lt := h.width_lt
  height_lt := h.height_lt
  map_lt := h.map_lt
  oneMap := hrestorable.oneMap
  absolute_length := h.absolute_length
  predictor_length := h.predictor_length
  predictor_le := hrestorable.predictor_le
  oneStream := hrestorable.oneStream
  occupancy := h.occupancy
  geometry := h.geometry
  attribute_lt := h.attribute_lt
  attributes ai hai := (h.attributes ai hai).coded
  noAttribute := hrestorable.noAttribute

theorem cons_map_range {α : Type} {a : α} {n : ℕ} {l : List α} {f : ℕ → α}
    (hlength : l.length = n + 1) (hfirst : l[0]? = some a)
    (hf : ∀ i < n, l[i + 1]? = some (f i)) : a :: (List.range n).map f = l := by
  obtain ⟨b, l, rfl⟩ := List.exists_cons_of_length_eq_add_one hlength
  have hrest : (List.range n).map f = l := by
    apply List.ext_getElem
    · simpa using hlength.symm
    · intro i hi hi'
      have hget := hf i (by simpa using hi)
      rw [List.getElem?_cons_succ, List.getElem?_eq_getElem hi'] at hget
      rw [List.getElem_map, List.getElem_range]
      exact (Option.some.inj hget).symm
  rw [hrest, Option.some.inj hfirst]

theorem InRange.received_eq (h : atlas.InRange)
    (hrestorable : atlas.Restorable auxiliary mapCountMinus1) :
    atlas.received auxiliary mapCountMinus1 = atlas := by
  have habsolute : true :: ((List.range atlas.mapCountMinus1).map atlas.receivedMap).map Prod.fst =
      atlas.mapAbsoluteCodingEnableFlag := by
    rw [List.map_map]
    refine cons_map_range h.absolute_length hrestorable.first_absolute fun i hi => ?_
    have hlt : i + 1 < atlas.mapAbsoluteCodingEnableFlag.length := by
      rw [h.absolute_length]
      omega
    rw [Function.comp_apply, receivedMap, List.getD_eq_getElem _ _ hlt,
      List.getElem?_eq_getElem hlt]
  have hpredictor : 0 :: ((List.range atlas.mapCountMinus1).map atlas.receivedMap).map Prod.snd =
      atlas.mapPredictorIndexDiff := by
    rw [List.map_map]
    refine cons_map_range h.predictor_length hrestorable.first_predictor fun i hi => ?_
    have hlt : i + 1 < atlas.mapPredictorIndexDiff.length := by
      rw [h.predictor_length]
      omega
    have hflag : i + 1 < atlas.mapAbsoluteCodingEnableFlag.length := by
      rw [h.absolute_length]
      omega
    have hget := hrestorable.predictor_absolute (i + 1)
    rw [List.getElem?_eq_getElem hflag] at hget
    rw [Function.comp_apply, receivedMap, List.getD_eq_getElem _ _ hlt,
      List.getD_eq_getElem _ _ hflag]
    by_cases hcoded : atlas.mapAbsoluteCodingEnableFlag[i + 1] = true
    · rw [if_pos hcoded, hget (by rw [hcoded])]
    · rw [if_neg hcoded, List.getElem?_eq_getElem hlt]
  have hoccupancy : (if atlas.occupancyVideoPresentFlag = true then atlas.occupancyInformation
      else {}) = atlas.occupancyInformation := by
    by_cases hpresent : atlas.occupancyVideoPresentFlag = true
    · rw [if_pos hpresent]
    · rw [if_neg hpresent, hrestorable.noOccupancy (by simpa using hpresent)]
  have hgeometry : (if atlas.geometryVideoPresentFlag = true then
      atlas.geometryInformation.received auxiliary else {}) = atlas.geometryInformation := by
    by_cases hpresent : atlas.geometryVideoPresentFlag = true
    · rw [if_pos hpresent, (hrestorable.geometry hpresent).received_eq]
    · rw [if_neg hpresent, hrestorable.noGeometry (by simpa using hpresent)]
  have hattributes : atlas.attributeInformation.map (Attribute.received auxiliary mapCountMinus1) =
      atlas.attributeInformation := by
    rw [List.map_congr_left fun ai hai =>
      (h.attributes ai hai).received_eq (hrestorable.attributes ai hai), List.map_id']
  unfold received
  rw [habsolute, hpredictor, hoccupancy, hgeometry, hattributes]

theorem map_ensures (multipleMapStreamsPresentFlag : Bool) :
    Reader.Ensures (PCCBitstreamReader.vpsMap multipleMapStreamsPresentFlag) fun map =>
      (multipleMapStreamsPresentFlag = false → map.1 = true) ∧ map.2 ≤ 1 ∧
        (map.1 = true → map.2 = 0) := by
  unfold PCCBitstreamReader.vpsMap
  refine .then_bind (P := fun absolute => multipleMapStreamsPresentFlag = false → absolute = true)
    ?_ fun absolute habsolute => ?_
  · exact .flagged (fun hpresent c absolute c' _ habsent => by simp [hpresent] at habsent)
      fun _ _ => rfl
  · refine .then_bind (P := fun diff => absolute = true → diff = 0) ?_ fun diff hdiff => ?_
    · exact .flagged (fun hcoded c diff c' _ hflag => by simp [hflag] at hcoded) fun _ _ => rfl
    · refine .pure ⟨habsolute, viaBool_le diff, fun hflag => ?_⟩
      rw [hdiff hflag]
      rfl

/-- Whatever atlas is read is restorable under the flag and the count that it is coded by. -/
theorem ensures_restorable (first : Option VpsAtlas) :
    Reader.Ensures (PCCBitstreamReader.vpsAtlas first) fun atlas => atlas.Restorable
      ((first.map VpsAtlas.auxiliaryVideoPresentFlag).getD atlas.auxiliaryVideoPresentFlag)
      ((first.map VpsAtlas.mapCountMinus1).getD atlas.mapCountMinus1) := by
  unfold PCCBitstreamReader.vpsAtlas
  refine .bind fun _ => .bind fun _ => .bind fun _ => .bind fun mapCount => ?_
  refine .then_bind (P := fun multiple => mapCount = 0 → multiple = false) ?_
    fun multiple hmultiple => ?_
  · refine .flagged (fun hpresent c multiple c' _ hzero => ?_) fun _ _ => rfl
    have hpos : 0 < mapCount := by simpa using hpresent
    omega
  refine .then_bind (Reader.Ensures.forall_of_repeatFrom (fun _ => map_ensures multiple) _ _)
    fun maps hmaps => ?_
  obtain ⟨-, hmaps⟩ := hmaps
  refine .bind fun auxiliaryVideo => .bind fun occupancyVideo => .bind fun geometryVideo =>
    .bind fun attributeVideo => ?_
  dsimp only
  refine .then_bind (P := fun oi => occupancyVideo = false → oi = {}) ?_ fun oi hoi => ?_
  · exact .flagged (fun hpresent c oi c' _ habsent => by simp [hpresent] at habsent)
      fun _ _ => rfl
  refine .then_bind (Reader.Ensures.default_of_not
    (GeometryInformation.ensures_restorable _)) fun gi hgi => ?_
  refine .then_bind (Reader.Ensures.default_of_not (Attribute.list_ensures_restorable _ _))
    fun attributes hattributes => .pure ?_
  constructor
  · exact hmultiple
  · rfl
  · rfl
  · intro hone absolute hmem
    rcases List.mem_cons.mp hmem with htrue | hmem
    · exact htrue
    · obtain ⟨map, hmap, hfst⟩ := List.mem_map.mp hmem
      rw [← hfst]
      exact (hmaps map hmap).1 hone
  · intro diff hmem
    rcases List.mem_cons.mp hmem with hzero | hmem
    · omega
    · obtain ⟨map, hmap, hsnd⟩ := List.mem_map.mp hmem
      rw [← hsnd]
      exact (hmaps map hmap).2.1
  · intro i hflag
    cases i with
    | zero => rfl
    | succ i =>
      simp only [List.getElem?_cons_succ, List.getElem?_map, Option.map_eq_some_iff] at hflag ⊢
      obtain ⟨map, hmap, hfst⟩ := hflag
      exact ⟨map, hmap, (hmaps map (List.mem_of_getElem? hmap)).2.2 hfst⟩
  · exact hoi
  · exact hgi.1
  · exact hgi.2
  · cases attributeVideo with
    | true => exact hattributes.1 rfl
    | false =>
      intro ai hai
      rw [hattributes.2 rfl] at hai
      cases hai
  · exact hattributes.2

end VpsAtlas

namespace V3CParameterSet

/-- The elements lie in their syntax ranges, and the channel counts of every attribute sum to
its dimension. -/
structure InRange (vps : V3CParameterSet) : Prop where
  profile : vps.profileTierLevel.InRange
  id_lt : vps.v3cParameterSetId < 2 ^ 4
  atlas_pos : vps.atlases ≠ []
  atlas_le : vps.atlases.length ≤ 2 ^ 6
  atlas : ∀ atlas ∈ vps.atlases, atlas.InRange
  extension_lt : vps.extension8Bits < 2 ^ 8
  length_lt : vps.extensionLengthMinus1 + 1 < 2 ^ 32
  byte_length : vps.extension8Bits ≠ 0 →
    vps.extensionDataByte.length = vps.extensionLengthMinus1 + 1
  byte_lt : ∀ byte ∈ vps.extensionDataByte, byte < 2 ^ 8

structure Restorable (vps : V3CParameterSet) : Prop where
  profile : vps.profileTierLevel.Restorable
  atlas : ∀ atlas ∈ vps.atlases,
    atlas.Restorable (vps.auxiliaryOfFirst.getD false) (vps.mapCountOfFirst.getD 0)
  noExtension : vps.extensionPresentFlag = false → vps.extension8Bits = 0
  noBytes : vps.extension8Bits = 0 →
    vps.extensionLengthMinus1 = 0 ∧ vps.extensionDataByte = []

variable {vps : V3CParameterSet}

theorem InRange.coded (h : vps.InRange) (hrestorable : vps.Restorable) : vps.Coded where
  profile := h.profile.coded hrestorable.profile
  id_lt := h.id_lt
  atlas_pos := h.atlas_pos
  atlas_le := h.atlas_le
  atlas atlas hmem := (h.atlas atlas hmem).coded (hrestorable.atlas atlas hmem)
  extension_lt := h.extension_lt
  noExtension := hrestorable.noExtension
  length_lt := h.length_lt
  byte_length := h.byte_length
  byte_lt := h.byte_lt

theorem InRange.received_eq (h : vps.InRange) (hrestorable : vps.Restorable) :
    vps.received = vps := by
  have hatlases : vps.atlases.map (VpsAtlas.received (vps.auxiliaryOfFirst.getD false)
      (vps.mapCountOfFirst.getD 0)) = vps.atlases := by
    rw [List.map_congr_left fun atlas hmem =>
      (h.atlas atlas hmem).received_eq (hrestorable.atlas atlas hmem), List.map_id']
  have hlength : (if (vps.extension8Bits != 0) = true then vps.extensionLengthMinus1 else 0) =
      vps.extensionLengthMinus1 := by
    by_cases hzero : vps.extension8Bits = 0
    · simp [hzero, (hrestorable.noBytes hzero).1]
    · simp [hzero]
  have hbytes : (if (vps.extension8Bits != 0) = true then vps.extensionDataByte else []) =
      vps.extensionDataByte := by
    by_cases hzero : vps.extension8Bits = 0
    · simp [hzero, (hrestorable.noBytes hzero).2]
    · simp [hzero]
  unfold received
  rw [hrestorable.profile.received_eq, hatlases, hlength, hbytes]

/-- Whatever parameter set is read is restorable. -/
theorem ensures_restorable :
    Reader.Ensures PCCBitstreamReader.v3cParameterSet Restorable := by
  unfold PCCBitstreamReader.v3cParameterSet
  refine .then_bind ProfileTierLevel.ensures_restorable fun ptl hptl => ?_
  refine .bind fun _ => .bind fun _ => .bind fun _ => ?_
  refine .then_bind (VpsAtlas.ensures_restorable none) fun first hfirst => ?_
  refine .then_bind (Reader.Ensures.forall_of_repeatFrom
    (fun _ => VpsAtlas.ensures_restorable (some first)) _ _) fun others hothers => ?_
  refine .bind fun present => ?_
  refine .then_bind (P := fun code => present = false → code = 0) ?_ fun code hcode => ?_
  · exact .flagged (fun hpresent c code c' _ habsent => by simp [hpresent] at habsent)
      fun _ _ => rfl
  refine .then_bind (P := fun bytes => code = 0 → bytes = (0, [])) ?_ fun bytes hbytes => ?_
  · exact .flagged (fun hcoded c bytes c' _ hzero => by simp [hzero] at hcoded) fun _ _ => rfl
  refine .bind fun _ => .pure ?_
  constructor
  · exact hptl
  · intro atlas hmem
    rcases List.mem_cons.mp hmem with rfl | hmem
    · exact hfirst
    · exact hothers.2 atlas hmem
  · exact hcode
  · intro hzero
    rw [hbytes hzero]
    exact ⟨rfl, rfl⟩

theorem noLongIdc_of_write {p : Phase} {bs : List Bool}
    (h : PCCBitstreamWriter.v3cParameterSet vps p = some ((), bs)) :
    vps.profileTierLevel.NoLongIdc := by
  obtain ⟨⟨⟩, _, _, hprofile, -⟩ := Writer.bind_run_eq_some.mp h
  exact ProfileTierLevel.noLongIdc_of_run hprofile

/-- A parameter set within its syntax ranges comes back as it is exactly when the setters and
the flags of the first atlas leave it as it is, and no sub-profile has an id of 64 bits. -/
theorem restored_iff (h : vps.InRange) :
    RoundTrip (PCCBitstreamWriter.v3cParameterSet vps) PCCBitstreamReader.v3cParameterSet vps ↔
      vps.Restorable ∧ vps.profileTierLevel.NoLongIdc := by
  constructor
  · intro hround
    obtain ⟨bs, hwrite, hread⟩ := hround 0
    exact ⟨ensures_restorable _ _ _ (hread []), noLongIdc_of_write hwrite⟩
  · intro hboth
    have hcoded := (h.coded hboth.1).roundTrip hboth.2
    rwa [h.received_eq hboth.1] at hcoded

def twoMaps : VpsAtlas where
  frameWidth := 1280
  frameHeight := 1344
  mapCountMinus1 := 1
  multipleMapStreamsPresentFlag := true
  mapAbsoluteCodingEnableFlag := [true, false]
  mapPredictorIndexDiff := [0, 1]
  geometryVideoPresentFlag := true
  attributeVideoPresentFlag := true
  attributeInformation := [{
    attributeDimensionMinus1 := 2
    attributeDimensionPartitionsMinus1 := 1
    attributePartitionChannelsMinus1 := [0, 1] }]

theorem twoMaps_inRange : twoMaps.InRange where
  id_lt := by decide
  width_lt := by decide
  height_lt := by decide
  map_lt := by decide
  absolute_length := rfl
  predictor_length := rfl
  occupancy := nofun
  geometry _ := by constructor <;> decide
  attribute_lt := by decide
  attributes ai hai := by
    rw [List.mem_singleton.mp hai]
    constructor <;> decide

theorem twoMaps_restorable : twoMaps.Restorable false 1 where
  oneMap := nofun
  first_absolute := rfl
  first_predictor := rfl
  oneStream := nofun
  predictor_le := by decide
  predictor_absolute i hflag := by
    match i, hflag with
    | 0, _ => rfl
    | 1, hflag => cases hflag
    | _ + 2, hflag => cases hflag
  noOccupancy _ := rfl
  geometry _ _ := rfl
  noGeometry := nofun
  attributes ai hai := by
    rw [List.mem_singleton.mp hai]
    exact ⟨fun _ => rfl, nofun⟩
  noAttribute := nofun

/-- A parameter set with the given tool constraints and one atlas. -/
def constrained (present : Bool) (ptci : ProfileToolsetConstraintsInformation) :
    V3CParameterSet where
  profileTierLevel := {
    subProfileIdc := [7]
    toolConstraintsPresentFlag := present
    profileToolsetConstraintsInformation := ptci }
  atlases := [twoMaps]

theorem constrained_inRange (present : Bool) : (constrained present {}).InRange where
  profile := by
    have hconstraints : ProfileToolsetConstraintsInformation.InRange {} := by
      constructor <;> decide
    constructor
    case constraints => exact fun _ => hconstraints
    all_goals decide +revert
  id_lt := Nat.two_pow_pos 4
  atlas_pos := List.cons_ne_nil _ _
  atlas_le := by decide +revert
  atlas atlas hmem := by
    rw [List.mem_singleton.mp hmem]
    exact twoMaps_inRange
  extension_lt := Nat.two_pow_pos 8
  length_lt := Nat.one_lt_two_pow (by decide)
  byte_length h := absurd rfl h
  byte_lt := nofun

theorem roundTrip_twoMaps :
    RoundTrip (PCCBitstreamWriter.v3cParameterSet (constrained false {}))
      PCCBitstreamReader.v3cParameterSet (constrained false {}) := by
  refine (restored_iff (constrained_inRange false)).mpr ⟨?_, nofun⟩
  constructor
  · exact ⟨nofun, fun _ => rfl⟩
  · intro atlas hmem
    rw [List.mem_singleton.mp hmem]
    exact twoMaps_restorable
  · exact fun _ => rfl
  · exact fun _ => ⟨rfl, rfl⟩

/-- The default constraints, when they are coded: a greatest dimension of 3 comes back as 2. -/
theorem not_roundTrip_defaultConstraints :
    (constrained true {}).InRange ∧
      ¬RoundTrip (PCCBitstreamWriter.v3cParameterSet (constrained true {}))
        PCCBitstreamReader.v3cParameterSet (constrained true {}) := by
  refine ⟨constrained_inRange true, fun hround => ?_⟩
  obtain ⟨bs, -, hread⟩ := hround 0
  have hrestorable := ensures_restorable _ _ _ (hread [])
  have hdimension := (hrestorable.profile.constraints rfl).dimension_le
  exact absurd hdimension (by decide)

end V3CParameterSet

end V3C

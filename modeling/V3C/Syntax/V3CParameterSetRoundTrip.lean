import V3C.Syntax.PlrRoundTrip
import V3C.Syntax.V3CParameterSetReader

/-! What the reader makes of a V3C parameter set. Elements that are not coded come back as
their defaults, and numbers that pass through a `bool` as zero or one. -/
namespace V3C
open Codec

theorem viaBool_of_le {n : ℕ} (h : n ≤ 1) : viaBool n = n := by
  unfold viaBool
  split_ifs <;> omega

theorem byteAlignment_roundTrip :
    RoundTrip PCCBitstreamWriter.byteAlignment PCCBitstreamReader.rbspTrailingBits () := by
  have hone : RoundTrip (write 1 1) (read 1) 1 := RoundTrip.write (by decide) (by decide)
  apply hone.bind
  intro p
  refine ⟨_, rfl, fun rest => ?_⟩
  have hskip := RoundTrip.put_take (List.replicate ((8 - p.val) % 8) false) p
  obtain ⟨bs, hput, htake⟩ := hskip
  obtain rfl : List.replicate ((8 - p.val) % 8) false = bs :=
    (Prod.mk.inj (Option.some.inj hput)).2
  have hrun := htake rest
  rw [List.length_replicate] at hrun ⊢
  exact Reader.bind_run_eq_some.mpr ⟨p, _, rfl, Reader.bind_run_eq_some.mpr ⟨_, _, hrun, rfl⟩⟩

theorem PCCBitstreamWriter.byteAlignment_aligned :
    Writer.Aligned PCCBitstreamWriter.byteAlignment := by
  intro p bs h
  obtain ⟨⟨⟩, cs, ds, hone, hzeros, rfl⟩ := Writer.bind_run_eq_some.mp h
  have hlength := Writer.Sized.write 1 1 p cs hone
  obtain ⟨-, rfl⟩ := Prod.mk.inj (Option.some.inj hzeros)
  rw [List.length_append, List.length_replicate, hlength, ← advance_advance]
  apply Fin.ext
  have := (advance p 1).isLt
  change ((advance p 1).val + (8 - (advance p 1).val) % 8) % 8 = 0
  omega

theorem roundTrip_uvlc16 {value : ℕ} (h : value < 2 ^ 16) :
    RoundTrip (writeUvlc value) PCCBitstreamReader.readUvlc16 value :=
  (RoundTrip.uvlc (by omega)).last (Nat.mod_eq_of_lt h)

namespace ProfileToolsetConstraintsInformation

/-- The elements fit their bits. The setter of the number of reserved bytes takes a `bool`, so
there is at most one. -/
structure Coded (ptci : ProfileToolsetConstraintsInformation) : Prop where
  map_lt : ptci.maxMapCountMinus1 < 2 ^ 4
  atlas_lt : ptci.maxAtlasCountMinus1 < 2 ^ 4
  dimension_lt : ptci.attributeMaxDimensionMinus1 < 2 ^ 6
  partitions_lt : ptci.attributeMaxDimensionPartitionsMinus1 < 2 ^ 6
  reserved_le : ptci.reservedConstraintByte.length ≤ 1
  reserved_lt : ∀ byte ∈ ptci.reservedConstraintByte, byte < 2 ^ 8

def received (ptci : ProfileToolsetConstraintsInformation) :
    ProfileToolsetConstraintsInformation :=
  { ptci with
    maxMapCountMinus1 := viaBool ptci.maxMapCountMinus1
    maxAtlasCountMinus1 := viaBool ptci.maxAtlasCountMinus1
    attributeMaxDimensionMinus1 := viaBool ptci.attributeMaxDimensionMinus1
    attributeMaxDimensionPartitionsMinus1 := viaBool ptci.attributeMaxDimensionPartitionsMinus1
    reservedConstraintByte := ptci.reservedConstraintByte.map viaBool }

theorem Coded.roundTrip {ptci : ProfileToolsetConstraintsInformation} (h : ptci.Coded) :
    RoundTrip (PCCBitstreamWriter.profileToolsetConstraintsInformation ptci)
      PCCBitstreamReader.profileToolsetConstraintsInformation ptci.received := by
  have hreserved : ptci.reservedConstraintByte.length < 2 ^ 8 := by
    have := h.reserved_le
    omega
  unfold PCCBitstreamWriter.profileToolsetConstraintsInformation
    PCCBitstreamReader.profileToolsetConstraintsInformation
  apply (RoundTrip.flag _).bind
  apply (RoundTrip.flag _).bind
  apply (RoundTrip.write h.map_lt (by decide)).bind
  apply (RoundTrip.write h.atlas_lt (by decide)).bind
  apply (RoundTrip.flag _).bind
  apply (RoundTrip.flag _).bind
  apply (RoundTrip.write h.dimension_lt (by decide)).bind
  apply (RoundTrip.write h.partitions_lt (by decide)).bind
  apply (RoundTrip.flag _).bind
  apply (RoundTrip.flag _).bind
  apply (RoundTrip.write (by decide) (by decide)).bind
  apply (RoundTrip.write hreserved (by decide)).bind
  rw [viaBool_of_le h.reserved_le]
  apply RoundTrip.last (x := ptci.reservedConstraintByte.map viaBool) _ rfl
  apply RoundTrip.forEach_repeat
  intro byte hbyte
  exact (RoundTrip.write (h.reserved_lt byte hbyte) (by decide)).map viaBool

end ProfileToolsetConstraintsInformation

namespace ProfileTierLevel

structure Coded (ptl : ProfileTierLevel) : Prop where
  group_lt : ptl.profileCodecGroupIdc < 2 ^ 7
  toolset_lt : ptl.profileToolsetIdc < 2 ^ 8
  reconstruction_lt : ptl.profileReconstructionIdc < 2 ^ 8
  level_lt : ptl.levelIdc < 2 ^ 8
  count_lt : ptl.subProfileIdc.length < 2 ^ 6
  idc_lt : ∀ idc ∈ ptl.subProfileIdc, idc < 2 ^ 8
  constraints : ptl.toolConstraintsPresentFlag = true →
    ptl.profileToolsetConstraintsInformation.Coded

/-- No sub-profile has an id of 64 bits, which no call of `write` can write. -/
def NoLongIdc (ptl : ProfileTierLevel) : Prop :=
  ptl.extendedSubProfileFlag = true → ptl.subProfileIdc = []

instance (ptl : ProfileTierLevel) : Decidable ptl.NoLongIdc :=
  inferInstanceAs (Decidable (_ = true → _ = _))

def received (ptl : ProfileTierLevel) : ProfileTierLevel :=
  { ptl with
    profileToolsetConstraintsInformation :=
      if ptl.toolConstraintsPresentFlag then ptl.profileToolsetConstraintsInformation.received
      else {} }

theorem Coded.roundTrip {ptl : ProfileTierLevel} (h : ptl.Coded) (hshort : ptl.NoLongIdc) :
    RoundTrip (PCCBitstreamWriter.profileTierLevel ptl) PCCBitstreamReader.profileTierLevel
      ptl.received := by
  unfold PCCBitstreamWriter.profileTierLevel PCCBitstreamReader.profileTierLevel
  apply (RoundTrip.flag _).bind
  apply (RoundTrip.write h.group_lt (by decide)).bind
  apply (RoundTrip.write h.toolset_lt (by decide)).bind
  apply (RoundTrip.write h.reconstruction_lt (by decide)).bind
  apply (RoundTrip.write (by decide) (by decide)).bind
  apply (RoundTrip.write (by decide) (by decide)).bind
  apply (RoundTrip.write h.level_lt (by decide)).bind
  apply (RoundTrip.write h.count_lt (by decide)).bind
  apply (RoundTrip.flag _).bind
  apply RoundTrip.bind (x := ptl.subProfileIdc)
  · apply RoundTrip.forEach_repeat_self
    intro idc hidc
    have hlt := h.idc_lt idc hidc
    have hextended : ptl.extendedSubProfileFlag = false := by
      by_contra hne
      rw [hshort (by simpa using hne)] at hidc
      exact absurd hidc List.not_mem_nil
    simp only [hextended, Bool.false_eq_true, ↓reduceIte]
    exact (RoundTrip.write (by omega) (by decide)).last (Nat.mod_eq_of_lt hlt)
  · apply (RoundTrip.flag _).bind
    apply RoundTrip.last (x := ptl.received.profileToolsetConstraintsInformation) _ rfl
    apply RoundTrip.when_whenElse
    · intro hpresent
      have hreceived : ptl.received.profileToolsetConstraintsInformation =
          ptl.profileToolsetConstraintsInformation.received := if_pos hpresent
      rw [hreceived]
      exact (h.constraints hpresent).roundTrip
    · intro habsent
      exact if_neg (by simp [habsent])

end ProfileTierLevel

structure OccupancyInformation.Coded (oi : OccupancyInformation) : Prop where
  codec_lt : oi.occupancyCodecId < 2 ^ 8
  threshold_lt : oi.lossyOccupancyCompressionThreshold < 2 ^ 8
  bitdepth_lt : oi.occupancy2DBitdepthMinus1 < 2 ^ 5

theorem OccupancyInformation.Coded.roundTrip {oi : OccupancyInformation} (h : oi.Coded) :
    RoundTrip (PCCBitstreamWriter.occupancyInformation oi)
      PCCBitstreamReader.occupancyInformation oi := by
  apply (RoundTrip.write h.codec_lt (by decide)).bind
  apply (RoundTrip.write h.threshold_lt (by decide)).bind
  apply (RoundTrip.write h.bitdepth_lt (by decide)).bind
  exact (RoundTrip.flag _).last rfl

structure GeometryInformation.Coded (gi : GeometryInformation) : Prop where
  codec_lt : gi.geometryCodecId < 2 ^ 8
  bitdepth2d_lt : gi.geometry2dBitdepthMinus1 < 2 ^ 5
  bitdepth3d_lt : gi.geometry3dCoordinatesBitdepthMinus1 < 2 ^ 5
  auxiliary_lt : gi.auxiliaryGeometryCodecId < 2 ^ 8

def GeometryInformation.received (auxiliary : Bool) (gi : GeometryInformation) :
    GeometryInformation :=
  { gi with auxiliaryGeometryCodecId := if auxiliary then gi.auxiliaryGeometryCodecId else 0 }

theorem GeometryInformation.Coded.roundTrip {gi : GeometryInformation} (h : gi.Coded)
    (auxiliary : Bool) :
    RoundTrip (PCCBitstreamWriter.geometryInformation gi auxiliary)
      (PCCBitstreamReader.geometryInformation auxiliary) (gi.received auxiliary) := by
  apply (RoundTrip.write h.codec_lt (by decide)).bind
  apply (RoundTrip.write h.bitdepth2d_lt (by decide)).bind
  apply (RoundTrip.flag _).bind
  apply (RoundTrip.write h.bitdepth3d_lt (by decide)).bind
  exact (RoundTrip.when_default fun _ => RoundTrip.write h.auxiliary_lt (by decide)).last rfl

/-- The channel counts of the partitions are what the loop takes them for: a partition has one
channel when there are as many partitions left as channels. -/
def PartitionsCoded : ℕ → List ℕ → ℤ → Prop
  | 0, _, _ => True
  | n + 1, channels, remaining =>
    channels.headD 0 < 2 ^ 8 ∧ ((n + 1 : ℕ) = remaining → channels.headD 0 = 0) ∧
      PartitionsCoded n channels.tail (remaining - (channels.headD 0 + 1))

/-- The channel counts with that of the last partition. -/
def receivedChannels : ℕ → List ℕ → ℤ → List ℕ
  | 0, _, remaining => [toUInt8 remaining]
  | n + 1, channels, remaining =>
    channels.headD 0 ::
      receivedChannels n channels.tail (remaining - (channels.headD 0 + 1))

theorem attributePartitions_roundTrip {n : ℕ} {channels : List ℕ} {remaining : ℤ}
    (h : PartitionsCoded n channels remaining) :
    RoundTrip (PCCBitstreamWriter.attributePartitions n channels remaining)
      (PCCBitstreamReader.attributePartitions n remaining)
      (receivedChannels n channels remaining) := by
  induction n generalizing channels remaining with
  | zero => exact RoundTrip.pure _
  | succ n ih =>
    obtain ⟨hlt, hlast, hrest⟩ := h
    apply RoundTrip.bind (x := channels.headD 0)
    · apply RoundTrip.when_whenElse
      · intro _
        exact roundTrip_uvlc8 hlt
      · intro heq
        exact hlast (by simpa using heq)
    · exact (ih hrest).map (channels.headD 0 :: ·)

namespace Attribute

structure Coded (ai : Attribute) : Prop where
  type_lt : ai.attributeTypeId < 2 ^ 4
  codec_lt : ai.attributeCodecId < 2 ^ 8
  auxiliary_lt : ai.auxiliaryAttributeCodecId < 2 ^ 8
  dimension_lt : ai.attributeDimensionMinus1 < 2 ^ 6
  partitions_lt : ai.attributeDimensionPartitionsMinus1 < 2 ^ 6
  bitdepth_lt : ai.attribute2dBitdepthMinus1 < 2 ^ 5
  oneDimension : ai.attributeDimensionMinus1 = 0 → ai.attributeDimensionPartitionsMinus1 = 0
  channels : PartitionsCoded ai.attributeDimensionPartitionsMinus1
    ai.attributePartitionChannelsMinus1 ai.attributeDimensionMinus1

def received (auxiliary : Bool) (mapCountMinus1 : ℕ) (ai : Attribute) : Attribute :=
  { ai with
    auxiliaryAttributeCodecId := if auxiliary then ai.auxiliaryAttributeCodecId else 0
    attributeMapAbsoluteCodingPersistenceFlag :=
      if decide (0 < mapCountMinus1) then ai.attributeMapAbsoluteCodingPersistenceFlag else true
    attributePartitionChannelsMinus1 :=
      if 0 < ai.attributeDimensionMinus1 then
        receivedChannels ai.attributeDimensionPartitionsMinus1 ai.attributePartitionChannelsMinus1
          ai.attributeDimensionMinus1
      else [] }

theorem Coded.roundTrip {ai : Attribute} (h : ai.Coded) (auxiliary : Bool) (mapCountMinus1 : ℕ) :
    RoundTrip (PCCBitstreamWriter.vpsAttribute auxiliary mapCountMinus1 ai)
      (PCCBitstreamReader.vpsAttribute auxiliary mapCountMinus1)
      (ai.received auxiliary mapCountMinus1) := by
  apply (RoundTrip.write h.type_lt (by decide)).bind
  apply (RoundTrip.write h.codec_lt (by decide)).bind
  apply (RoundTrip.when_default fun _ => RoundTrip.write h.auxiliary_lt (by decide)).bind
  apply (RoundTrip.when_default fun _ => RoundTrip.flag _).bind
  apply (RoundTrip.write h.dimension_lt (by decide)).bind
  apply RoundTrip.bind (x := (ai.attributeDimensionPartitionsMinus1,
    (ai.received auxiliary mapCountMinus1).attributePartitionChannelsMinus1))
  · apply RoundTrip.when_whenElse
    · intro hdimension
      apply (RoundTrip.write h.partitions_lt (by decide)).bind
      apply (attributePartitions_roundTrip h.channels).last
      have hpos : 0 < ai.attributeDimensionMinus1 := by simpa using hdimension
      simp [received, hpos]
    · intro hdimension
      have hzero : ai.attributeDimensionMinus1 = 0 := by simpa using hdimension
      simp [received, hzero, h.oneDimension hzero]
  · apply (RoundTrip.write h.bitdepth_lt (by decide)).bind
    exact (RoundTrip.flag _).last rfl

end Attribute

namespace VpsAtlas

/-- The elements of an atlas fit their bits. Maps that share a stream are coded absolutely, and
what the flags of the atlas leave out is not there. -/
structure Coded (atlas : VpsAtlas) : Prop where
  id_lt : atlas.atlasId < 2 ^ 6
  width_lt : atlas.frameWidth < 2 ^ 16
  height_lt : atlas.frameHeight < 2 ^ 16
  map_lt : atlas.mapCountMinus1 < 2 ^ 4
  oneMap : atlas.mapCountMinus1 = 0 → atlas.multipleMapStreamsPresentFlag = false
  absolute_length : atlas.mapAbsoluteCodingEnableFlag.length = atlas.mapCountMinus1 + 1
  predictor_length : atlas.mapPredictorIndexDiff.length = atlas.mapCountMinus1 + 1
  predictor_le : ∀ diff ∈ atlas.mapPredictorIndexDiff, diff ≤ 1
  oneStream : atlas.multipleMapStreamsPresentFlag = false →
    ∀ absolute ∈ atlas.mapAbsoluteCodingEnableFlag, absolute = true
  occupancy : atlas.occupancyVideoPresentFlag = true → atlas.occupancyInformation.Coded
  geometry : atlas.geometryVideoPresentFlag = true → atlas.geometryInformation.Coded
  attribute_lt : atlas.attributeInformation.length < 2 ^ 7
  attributes : ∀ ai ∈ atlas.attributeInformation, ai.Coded
  noAttribute : atlas.attributeVideoPresentFlag = false → atlas.attributeInformation = []

/-- The flag and the predictor difference of a map but the first. -/
def receivedMap (atlas : VpsAtlas) (i : ℕ) : Bool × ℕ :=
  (atlas.mapAbsoluteCodingEnableFlag.getD (i + 1) true,
    if atlas.mapAbsoluteCodingEnableFlag.getD (i + 1) true then 0
    else atlas.mapPredictorIndexDiff.getD (i + 1) 0)

def received (auxiliary : Bool) (mapCountMinus1 : ℕ) (atlas : VpsAtlas) : VpsAtlas :=
  { atlas with
    mapAbsoluteCodingEnableFlag :=
      true :: ((List.range atlas.mapCountMinus1).map atlas.receivedMap).map Prod.fst
    mapPredictorIndexDiff :=
      0 :: ((List.range atlas.mapCountMinus1).map atlas.receivedMap).map Prod.snd
    occupancyInformation :=
      if atlas.occupancyVideoPresentFlag then atlas.occupancyInformation else {}
    geometryInformation :=
      if atlas.geometryVideoPresentFlag then atlas.geometryInformation.received auxiliary else {}
    attributeInformation :=
      atlas.attributeInformation.map (Attribute.received auxiliary mapCountMinus1) }

theorem Coded.map_roundTrip {atlas : VpsAtlas} (h : atlas.Coded) {i : ℕ}
    (hi : i < atlas.mapCountMinus1) :
    RoundTrip (PCCBitstreamWriter.vpsMap atlas (i + 1))
      (PCCBitstreamReader.vpsMap atlas.multipleMapStreamsPresentFlag) (atlas.receivedMap i) := by
  have habsolute : i + 1 < atlas.mapAbsoluteCodingEnableFlag.length := by
    rw [h.absolute_length]
    omega
  have hpredictor : i + 1 < atlas.mapPredictorIndexDiff.length := by
    rw [h.predictor_length]
    omega
  have hdiff := h.predictor_le _ (List.getElem_mem hpredictor)
  unfold PCCBitstreamWriter.vpsMap PCCBitstreamReader.vpsMap receivedMap
  rw [List.getD_eq_getElem _ _ habsolute, List.getD_eq_getElem _ _ hpredictor,
    List.getElem?_eq_getElem habsolute, List.getElem?_eq_getElem hpredictor,
    Writer.ofOption_some, Writer.ofOption_some, pure_bind]
  simp only [pure_bind]
  apply RoundTrip.bind (x := atlas.mapAbsoluteCodingEnableFlag[i + 1])
  · apply RoundTrip.when_whenElse
    · intro _
      exact RoundTrip.flag _
    · intro hone
      exact h.oneStream hone _ (List.getElem_mem habsolute)
  · cases atlas.mapAbsoluteCodingEnableFlag[i + 1] with
    | true => exact RoundTrip.pure _
    | false =>
      apply (RoundTrip.uvlc (by omega)).last
      rw [viaBool_of_le hdiff]
      rfl

/-- The first atlas of the list gives the flag and the count that every atlas is coded by. -/
theorem Coded.roundTrip {atlas : VpsAtlas} (h : atlas.Coded) {first : Option VpsAtlas}
    {auxiliary : Bool} {mapCountMinus1 : ℕ}
    (haux : (first.map VpsAtlas.auxiliaryVideoPresentFlag).getD atlas.auxiliaryVideoPresentFlag =
      auxiliary)
    (hmap : (first.map VpsAtlas.mapCountMinus1).getD atlas.mapCountMinus1 = mapCountMinus1) :
    RoundTrip (PCCBitstreamWriter.vpsAtlas auxiliary mapCountMinus1 atlas)
      (PCCBitstreamReader.vpsAtlas first) (atlas.received auxiliary mapCountMinus1) := by
  apply (RoundTrip.write h.id_lt (by decide)).bind
  apply (roundTrip_uvlc16 h.width_lt).bind
  apply (roundTrip_uvlc16 h.height_lt).bind
  apply (RoundTrip.write h.map_lt (by decide)).bind
  apply RoundTrip.bind (x := atlas.multipleMapStreamsPresentFlag)
  · apply RoundTrip.when_whenElse
    · intro _
      exact RoundTrip.flag _
    · intro hone
      exact h.oneMap (by simpa using hone)
  apply RoundTrip.bind (x := (List.range atlas.mapCountMinus1).map atlas.receivedMap)
  · have hloop := RoundTrip.forEach_repeat (y := atlas.receivedMap)
      (List.range atlas.mapCountMinus1) 0 fun i hi => h.map_roundTrip (List.mem_range.mp hi)
    rwa [List.length_range] at hloop
  apply (RoundTrip.flag _).bind
  apply (RoundTrip.flag _).bind
  apply (RoundTrip.flag _).bind
  apply (RoundTrip.flag _).bind
  rw [haux, hmap]
  apply (RoundTrip.when_default fun hpresent => (h.occupancy hpresent).roundTrip).bind
  apply (RoundTrip.when_default fun hpresent => (h.geometry hpresent).roundTrip auxiliary).bind
  apply RoundTrip.last
    (x := atlas.attributeInformation.map (Attribute.received auxiliary mapCountMinus1)) _ rfl
  apply RoundTrip.when_whenElse
  · intro _
    apply (RoundTrip.write h.attribute_lt (by decide)).bind
    apply RoundTrip.forEach_repeat
    intro ai hai
    exact (h.attributes ai hai).roundTrip auxiliary mapCountMinus1
  · intro hnone
    rw [h.noAttribute hnone]
    rfl

end VpsAtlas

namespace V3CParameterSet

structure Coded (vps : V3CParameterSet) : Prop where
  profile : vps.profileTierLevel.Coded
  id_lt : vps.v3cParameterSetId < 2 ^ 4
  atlas_pos : vps.atlases ≠ []
  atlas_le : vps.atlases.length ≤ 2 ^ 6
  atlas : ∀ atlas ∈ vps.atlases, atlas.Coded
  extension_lt : vps.extension8Bits < 2 ^ 8
  noExtension : vps.extensionPresentFlag = false → vps.extension8Bits = 0
  length_lt : vps.extensionLengthMinus1 + 1 < 2 ^ 32
  byte_length : vps.extension8Bits ≠ 0 →
    vps.extensionDataByte.length = vps.extensionLengthMinus1 + 1
  byte_lt : ∀ byte ∈ vps.extensionDataByte, byte < 2 ^ 8

def received (vps : V3CParameterSet) : V3CParameterSet :=
  { vps with
    profileTierLevel := vps.profileTierLevel.received
    atlases := vps.atlases.map
      (VpsAtlas.received (vps.auxiliaryOfFirst.getD false) (vps.mapCountOfFirst.getD 0))
    extensionLengthMinus1 := if vps.extension8Bits != 0 then vps.extensionLengthMinus1 else 0
    extensionDataByte := if vps.extension8Bits != 0 then vps.extensionDataByte else [] }

theorem Coded.extension_roundTrip {vps : V3CParameterSet} (h : vps.Coded)
    (hextension : vps.extension8Bits ≠ 0) :
    RoundTrip (PCCBitstreamWriter.vpsExtension vps) PCCBitstreamReader.vpsExtension
      (vps.extensionLengthMinus1, vps.extensionDataByte) := by
  have hlength := h.byte_length hextension
  have hrange : (List.range (vps.extensionLengthMinus1 + 1)).map
      (fun i => vps.extensionDataByte.getD i 0) = vps.extensionDataByte := by
    apply List.ext_getElem
    · rw [List.length_map, List.length_range, hlength]
    · intro i hi hi'
      rw [List.getElem_map, List.getElem_range, List.getD_eq_getElem _ _ hi']
  apply (RoundTrip.uvlc h.length_lt).bind
  apply RoundTrip.last (x := vps.extensionDataByte) _ rfl
  have hloop := RoundTrip.forEach_repeat (r := read 8)
    (f := fun i => do
      let byte ← Writer.ofOption vps.extensionDataByte[i]?
      write byte 8)
    (y := fun i => vps.extensionDataByte.getD i 0)
    (List.range (vps.extensionLengthMinus1 + 1)) 0 (by
      intro i hi
      have hlt : i < vps.extensionDataByte.length := by
        rw [hlength]
        exact List.mem_range.mp hi
      rw [List.getElem?_eq_getElem hlt, List.getD_eq_getElem _ _ hlt, Writer.ofOption_some,
        pure_bind]
      exact RoundTrip.write (h.byte_lt _ (List.getElem_mem hlt)) (by decide))
  rwa [List.length_range, hrange] at hloop

theorem Coded.roundTrip {vps : V3CParameterSet} (h : vps.Coded)
    (hshort : vps.profileTierLevel.NoLongIdc) :
    RoundTrip (PCCBitstreamWriter.v3cParameterSet vps) PCCBitstreamReader.v3cParameterSet
      vps.received := by
  obtain ⟨first, others, hatlases⟩ := List.exists_cons_of_ne_nil h.atlas_pos
  have hlength : others.length < 2 ^ 6 := by
    have := h.atlas_le
    rw [hatlases, List.length_cons] at this
    omega
  have hfirst : first.Coded := h.atlas first (by simp [hatlases])
  unfold PCCBitstreamWriter.v3cParameterSet PCCBitstreamReader.v3cParameterSet
  have haux : vps.auxiliaryOfFirst = some first.auxiliaryVideoPresentFlag := by
    simp [auxiliaryOfFirst, hatlases]
  have hmap : vps.mapCountOfFirst = some first.mapCountMinus1 := by
    simp [mapCountOfFirst, hatlases]
  have hreceived : vps.received.atlases =
      first.received first.auxiliaryVideoPresentFlag first.mapCountMinus1 :: others.map
        (VpsAtlas.received first.auxiliaryVideoPresentFlag first.mapCountMinus1) := by
    simp [received, haux, hmap, hatlases]
  rw [haux, hmap, hatlases, Writer.ofOption_some, Writer.ofOption_some]
  simp only [pure_bind, Writer.forEach_cons, List.length_cons, Nat.add_sub_cancel, bind_assoc]
  apply (h.profile.roundTrip hshort).bind
  apply (RoundTrip.write h.id_lt (by decide)).bind
  apply (RoundTrip.write (by decide) (by decide)).bind
  apply (RoundTrip.write hlength (by decide)).bind
  apply (hfirst.roundTrip (show (none.map VpsAtlas.auxiliaryVideoPresentFlag).getD
    first.auxiliaryVideoPresentFlag = _ from rfl) rfl).bind
  apply RoundTrip.bind (x := others.map
    (VpsAtlas.received first.auxiliaryVideoPresentFlag first.mapCountMinus1))
  · apply RoundTrip.forEach_repeat
    intro atlas hatlas
    exact (h.atlas atlas (by simp [hatlases, hatlas])).roundTrip rfl rfl
  apply (RoundTrip.flag _).bind
  apply RoundTrip.bind (x := vps.extension8Bits)
  · apply RoundTrip.when_whenElse
    · intro _
      exact RoundTrip.write h.extension_lt (by decide)
    · exact h.noExtension
  apply RoundTrip.bind (x := (vps.received.extensionLengthMinus1, vps.received.extensionDataByte))
  · apply RoundTrip.when_whenElse
    · intro hextension
      have hne : vps.extension8Bits ≠ 0 := by simpa using hextension
      have hboth := h.extension_roundTrip hne
      simpa [received, hne] using hboth
    · intro hnone
      simp [received, hnone]
  apply byteAlignment_roundTrip.last
  exact congrArg (fun atlases => { vps.received with atlases := atlases }) hreceived.symm

end V3CParameterSet

end V3C

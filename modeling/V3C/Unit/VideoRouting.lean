import V3C.Syntax.V3CParameterSetRoundTrip
import V3C.Unit.VideoStreams

/-! What the reader makes of the units of the writer. -/
namespace V3C
open Codec

theorem PCCBitstreamWriter.v3cParameterSet_aligned (vps : V3CParameterSet) :
    Writer.Aligned (PCCBitstreamWriter.v3cParameterSet vps) := by
  unfold PCCBitstreamWriter.v3cParameterSet
  iterate 10
    apply Writer.Aligned.bind
    intro _
  exact PCCBitstreamWriter.byteAlignment_aligned

/-- The header without the elements that a unit of the type does not have, and without the
high bits of the others. -/
def V3CUnitHeader.received (vuh : V3CUnitHeader) (v3cUnitType : ℕ) : V3CUnitHeader :=
  if v3cUnitType = V3C_AVD then {
    v3cParameterSetId := vuh.v3cParameterSetId % 2 ^ 4
    atlasId := vuh.atlasId % 2 ^ 6
    attributeIndex := vuh.attributeIndex % 2 ^ 7
    attributeDimensionIndex := vuh.attributeDimensionIndex % 2 ^ 5
    mapIndex := vuh.mapIndex % 2 ^ 4
    auxiliaryVideoFlag := vuh.auxiliaryVideoFlag }
  else if v3cUnitType = V3C_GVD then {
    v3cParameterSetId := vuh.v3cParameterSetId % 2 ^ 4
    atlasId := vuh.atlasId % 2 ^ 6
    mapIndex := vuh.mapIndex % 2 ^ 4
    auxiliaryVideoFlag := vuh.auxiliaryVideoFlag }
  else if v3cUnitType = V3C_OVD ∨ v3cUnitType = V3C_AD then {
    v3cParameterSetId := vuh.v3cParameterSetId % 2 ^ 4
    atlasId := vuh.atlasId % 2 ^ 6 }
  else {}

theorem V3CUnitHeader.received_of_selects (vuh : V3CUnitHeader) {v3cUnitType : ℕ}
    (h : SelectsAtlas v3cUnitType) :
    (vuh.received v3cUnitType).v3cParameterSetId = vuh.v3cParameterSetId % 2 ^ 4 ∧
      (vuh.received v3cUnitType).atlasId = vuh.atlasId % 2 ^ 6 := by
  unfold V3CUnitHeader.received
  split_ifs with havd hgvd hovd
  · exact ⟨rfl, rfl⟩
  · exact ⟨rfl, rfl⟩
  · exact ⟨rfl, rfl⟩
  · rcases h with h | h | h
    · exact absurd h havd
    · exact absurd h hgvd
    · exact absurd h hovd

theorem V3CUnitHeader.received_of_not_selects (vuh : V3CUnitHeader) {v3cUnitType : ℕ}
    (h : ¬SelectsAtlas v3cUnitType) : vuh.received v3cUnitType = {} := by
  unfold V3CUnitHeader.received
  split_ifs with havd hgvd hovd
  · exact absurd (Or.inl havd) h
  · exact absurd (Or.inr (Or.inl hgvd)) h
  · exact absurd (Or.inr (Or.inr hovd)) h
  · rfl

theorem v3cUnitHeader_roundTrip (vuh : V3CUnitHeader) {v3cUnitType : ℕ}
    (htype : v3cUnitType < 2 ^ 5) :
    RoundTrip (PCCBitstreamWriter.v3cUnitHeader v3cUnitType vuh) PCCBitstreamReader.v3cUnitHeader
      (v3cUnitType, vuh.received v3cUnitType) := by
  apply (RoundTrip.write htype (by decide)).bind
  apply RoundTrip.bind (x := ((vuh.received v3cUnitType).v3cParameterSetId,
    (vuh.received v3cUnitType).atlasId))
  · apply RoundTrip.when_whenElse
    · intro hselects
      obtain ⟨hid, hatlas⟩ := vuh.received_of_selects (of_decide_eq_true hselects)
      rw [hid, hatlas]
      apply (RoundTrip.write_mod (by decide)).bind
      exact (RoundTrip.write_mod (by decide)).last rfl
    · intro hreserved
      rw [vuh.received_of_not_selects (of_decide_eq_false hreserved)]
  apply RoundTrip.ite
  · intro havd
    apply (RoundTrip.write_mod (by decide)).bind
    apply (RoundTrip.write_mod (by decide)).bind
    apply (RoundTrip.write_mod (by decide)).bind
    apply (RoundTrip.flag _).last
    simp only [V3CUnitHeader.received, if_pos havd]
  intro havd
  apply RoundTrip.ite
  · intro hgvd
    apply (RoundTrip.write_mod (by decide)).bind
    apply (RoundTrip.flag _).bind
    apply (RoundTrip.write_mod (by decide)).last
    simp only [V3CUnitHeader.received, if_neg havd, if_pos hgvd]
  intro hgvd
  apply RoundTrip.ite
  · intro hovd
    apply (RoundTrip.write_mod (by decide)).last
    simp only [V3CUnitHeader.received, if_neg havd, if_neg hgvd, if_pos hovd]
  · intro hovd
    apply (RoundTrip.write_mod (by decide)).last
    simp only [V3CUnitHeader.received, if_neg havd, if_neg hgvd, if_neg hovd]

/-- Every header has four bytes. -/
theorem v3cUnitHeader_sized (v3cUnitType : ℕ) (vuh : V3CUnitHeader) :
    Writer.Sized (PCCBitstreamWriter.v3cUnitHeader v3cUnitType vuh) 32 := by
  have hids : Writer.Sized (do
      write vuh.v3cParameterSetId 4
      write vuh.atlasId 6 : Writer Unit) 10 :=
    (Writer.Sized.write _ 4).bind (Writer.Sized.write _ 6)
  unfold PCCBitstreamWriter.v3cUnitHeader
  apply (Writer.Sized.write v3cUnitType 5).bind (n := 27)
  by_cases hselects : SelectsAtlas v3cUnitType
  · rw [decide_eq_true hselects, Writer.when_true]
    apply hids.bind (n := 17)
    split_ifs with havd hgvd hovd
    · exact (Writer.Sized.write _ 7).bind ((Writer.Sized.write _ 5).bind
        ((Writer.Sized.write _ 4).bind (Writer.Sized.flag _)))
    · exact (Writer.Sized.write _ 4).bind ((Writer.Sized.flag _).bind (Writer.Sized.write 0 12))
    · exact Writer.Sized.write 0 17
    · rcases hselects with h | h | h
      · exact absurd h havd
      · exact absurd h hgvd
      · exact absurd h hovd
  · rw [decide_eq_false hselects, Writer.when_false]
    apply Writer.Sized.pure.bind (n := 27)
    split_ifs with havd hgvd hovd
    · exact absurd (Or.inl havd) hselects
    · exact absurd (Or.inr (Or.inl hgvd)) hselects
    · exact absurd (Or.inr (Or.inr hovd)) hselects
    · exact Writer.Sized.write 0 27

section Unit

variable {A : Type} (codec : AtlasCodec A) (syntax' : PCCHighLevelSyntax A)

/-- A unit with a payload of whole bytes, and what the reader takes its payload for. -/
theorem v3cUnit_read {v3cUnitType : ℕ} (htype : v3cUnitType < 2 ^ 5) {vuh : V3CUnitHeader}
    {payload : List Bool} (hdvd : 8 ∣ payload.length)
    (hpayload : PCCBitstreamWriter.v3cUnitPayload codec syntax' v3cUnitType vuh 0 =
      some ((), payload)) :
    ∃ unit, PCCBitstreamWriter.v3cUnit codec syntax' v3cUnitType vuh = some unit ∧
      ∀ received : PCCHighLevelSyntax A,
        PCCBitstreamReader.v3cUnit codec received unit =
          (PCCBitstreamReader.v3cUnitPayload codec
            (PCCBitstreamReader.selectAtlas received v3cUnitType (vuh.received v3cUnitType))
            v3cUnitType (vuh.received v3cUnitType) (4 + payload.length / 8) ⟨0, payload⟩).map
          (v3cUnitType, ·) := by
  obtain ⟨header, hwrite, hread⟩ := v3cUnitHeader_roundTrip vuh htype 0
  have hlength := v3cUnitHeader_sized v3cUnitType vuh 0 header hwrite
  have hphase : advance 0 header.length = 0 := by
    rw [hlength]
    rfl
  have hrun : (do
      PCCBitstreamWriter.v3cUnitHeader v3cUnitType vuh
      PCCBitstreamWriter.v3cUnitPayload codec syntax' v3cUnitType vuh : Writer Unit) 0 =
        some ((), header ++ payload) := by
    apply Writer.bind_run_eq_some.mpr
    exact ⟨(), header, payload, hwrite, by rw [hphase, hpayload], rfl⟩
  have hbytes : bitsOfBytes (bytesOfBits (header ++ payload)) = header ++ payload := by
    apply bitsOfBytes_bytesOfBits
    rw [List.length_append, hlength]
    omega
  refine ⟨{ type := v3cUnitType, size := (header ++ payload).length / 8
            data := bytesOfBits (header ++ payload) }, ?_, fun received => ?_⟩
  · unfold PCCBitstreamWriter.v3cUnit
    rw [hrun]
    rfl
  · have hsize : (header ++ payload).length / 8 = 4 + payload.length / 8 := by
      rw [List.length_append, hlength]
      omega
    unfold PCCBitstreamReader.v3cUnit
    simp only [hbytes, hread payload, hphase, hsize, Option.bind_eq_bind, Option.bind_some]
    cases PCCBitstreamReader.v3cUnitPayload codec _ v3cUnitType _ _ _ <;> rfl

end Unit

/-- The stream of a unit of an atlas, with an attribute for every unit of attribute video. -/
def VpsAtlas.streamType (atlas : VpsAtlas) (v3cUnitType : ℕ) (vuh : V3CUnitHeader) : ℕ :=
  if v3cUnitType = V3C_OVD then VIDEO_OCCUPANCY
  else if v3cUnitType = V3C_GVD then
    if vuh.auxiliaryVideoFlag then VIDEO_GEOMETRY_RAW
    else if atlas.mapStreams then VIDEO_GEOMETRY_D0 + vuh.mapIndex
    else VIDEO_GEOMETRY
  else if vuh.auxiliaryVideoFlag then VIDEO_ATTRIBUTE_RAW + vuh.attributeDimensionIndex
  else if atlas.mapStreams then
    VIDEO_ATTRIBUTE_T0 + vuh.mapIndex * MAX_NUM_ATTR_PARTITIONS + vuh.attributeDimensionIndex
  else VIDEO_ATTRIBUTE + vuh.attributeDimensionIndex

/-- A type of a unit of video, which the atlas has attributes for if it is an attribute's. -/
def VpsAtlas.HasVideo (atlas : VpsAtlas) (v3cUnitType : ℕ) : Prop :=
  v3cUnitType = V3C_OVD ∨ v3cUnitType = V3C_GVD ∨
    v3cUnitType = V3C_AVD ∧ 0 < atlas.attributeInformation.length

theorem videoStreamType_eq {vps : V3CParameterSet} {atlas : VpsAtlas} {i v3cUnitType : ℕ}
    (hatlas : vps.atlases[i]? = some atlas) (htype : atlas.HasVideo v3cUnitType)
    (vuh : V3CUnitHeader) :
    videoStreamType vps i v3cUnitType vuh = some (some (atlas.streamType v3cUnitType vuh)) := by
  unfold videoStreamType VpsAtlas.streamType
  rw [hatlas]
  rcases htype with rfl | rfl | ⟨rfl, hcount⟩
  · rfl
  · cases vuh.auxiliaryVideoFlag <;> rfl
  · simp only [Option.bind_eq_bind, Option.bind_some, if_pos hcount]
    rfl

/-- The syntax of a reader that has read the parameter set and the atlas of a group. -/
def receiving {A : Type} (vps : V3CParameterSet) (a : A) (streams : List PCCVideoBitstream) :
    PCCHighLevelSyntax A where
  vpccParameterSets := [vps.received]
  activeVPS := some vps.v3cParameterSetId
  atlasHLS := [{ videoBitstream := streams, atlas := a }]
  atlasIndex := 0

theorem getVps_receiving {A : Type} (vps : V3CParameterSet) (a : A)
    (streams : List PCCVideoBitstream) :
    (receiving vps a streams).getVps = some vps.received := by
  have hid : vps.received.v3cParameterSetId = vps.v3cParameterSetId := rfl
  simp [PCCHighLevelSyntax.getVps, receiving, hid]

section OneAtlas

variable {A : Type} (codec : AtlasCodec A) {syntax' : PCCHighLevelSyntax A}
  {vps : V3CParameterSet} {atlas : VpsAtlas}

theorem received_atlas (hatlases : vps.atlases = [atlas]) :
    ∃ auxiliary mapCountMinus1,
      vps.received.atlases = [atlas.received auxiliary mapCountMinus1] := by
  unfold V3CParameterSet.received
  rw [hatlases]
  exact ⟨_, _, rfl⟩

theorem streamTypeOfUnit_receiving (hatlases : vps.atlases = [atlas]) {v3cUnitType : ℕ}
    (htype : atlas.HasVideo v3cUnitType) (vuh : V3CUnitHeader) (a : A)
    (streams : List PCCVideoBitstream) :
    PCCBitstreamReader.streamTypeOfUnit (receiving vps a streams) v3cUnitType vuh =
      some (some (atlas.streamType v3cUnitType vuh)) := by
  obtain ⟨auxiliary, mapCountMinus1, hreceived⟩ := received_atlas hatlases
  have hfirst : vps.received.atlases[0]? = some (atlas.received auxiliary mapCountMinus1) := by
    rw [hreceived]
    rfl
  have hvideo : (atlas.received auxiliary mapCountMinus1).HasVideo v3cUnitType := by
    unfold VpsAtlas.HasVideo at htype ⊢
    simpa [VpsAtlas.received] using htype
  have hstream : videoStreamType vps.received 0 v3cUnitType vuh =
      some (some (atlas.streamType v3cUnitType vuh)) := videoStreamType_eq hfirst hvideo vuh
  unfold PCCBitstreamReader.streamTypeOfUnit
  rw [getVps_receiving]
  simp only [Option.bind_eq_bind, Option.bind_some, hstream]
  split_ifs with hovd hgvd
  · rw [hovd]
    rfl
  · rw [hgvd.1, VpsAtlas.streamType, if_neg (by decide), if_pos rfl, if_pos hgvd.2]
  · rfl

theorem videoSubStream_receiving (hatlases : vps.atlases = [atlas]) {v3cUnitType : ℕ}
    (htype : atlas.HasVideo v3cUnitType) (vuh : V3CUnitHeader) (a : A)
    (streams : List PCCVideoBitstream) (bytes : List UInt8) :
    PCCBitstreamReader.videoSubStream (receiving vps a streams) v3cUnitType vuh bytes =
      some (receiving vps a (streams ++ [{
        type := atlas.streamType v3cUnitType vuh, data := bytes }])) := by
  unfold PCCBitstreamReader.videoSubStream
  rw [streamTypeOfUnit_receiving hatlases htype]
  rfl

/-- A unit of video, read after the units before it. -/
theorem video_step (hid : vps.v3cParameterSetId < 2 ^ 4) (hatlases : vps.atlases = [atlas])
    {v3cUnitType : ℕ} (htype : atlas.HasVideo v3cUnitType) {vuh : V3CUnitHeader}
    (hvps : vuh.v3cParameterSetId = vps.v3cParameterSetId) (hatlas : vuh.atlasId = 0)
    {bytes : List UInt8}
    (hbytes : PCCBitstreamWriter.videoSubStream syntax' v3cUnitType vuh = some bytes) :
    ∃ unit, PCCBitstreamWriter.v3cUnit codec syntax' v3cUnitType vuh = some unit ∧
      ∀ a streams, PCCBitstreamReader.v3cUnit codec (receiving vps a streams) unit =
        some (v3cUnitType, receiving vps a (streams ++ [{
          type := atlas.streamType v3cUnitType (vuh.received v3cUnitType), data := bytes }])) := by
  have hvideo : v3cUnitType = V3C_OVD ∨ v3cUnitType = V3C_GVD ∨ v3cUnitType = V3C_AVD :=
    htype.imp_right (Or.imp_right And.left)
  have hnotVps : v3cUnitType ≠ V3C_VPS := by
    rintro rfl
    exact absurd hvideo (by decide)
  have hnotAd : v3cUnitType ≠ V3C_AD := by
    rintro rfl
    exact absurd hvideo (by decide)
  have hlt : v3cUnitType < 2 ^ 5 := by
    rcases hvideo with rfl | rfl | rfl <;> decide
  have hselects : SelectsAtlas v3cUnitType := by
    rcases hvideo with rfl | rfl | rfl <;> decide
  have hpayload : PCCBitstreamWriter.v3cUnitPayload codec syntax' v3cUnitType vuh 0 =
      some ((), bitsOfBytes bytes) := by
    unfold PCCBitstreamWriter.v3cUnitPayload
    rw [if_neg hnotVps, if_neg hnotAd, if_pos hvideo, hbytes]
    rfl
  have hlength := length_bitsOfBytes bytes
  obtain ⟨unit, hwrite, hread⟩ := v3cUnit_read codec syntax' hlt ⟨_, hlength⟩ hpayload
  refine ⟨unit, hwrite, fun a streams => ?_⟩
  obtain ⟨hid', hatlas'⟩ := vuh.received_of_selects hselects
  have hselect : PCCBitstreamReader.selectAtlas (receiving vps a streams) v3cUnitType
      (vuh.received v3cUnitType) = receiving vps a streams := by
    unfold PCCBitstreamReader.selectAtlas
    rw [if_pos hselects, hid', hatlas', hvps, hatlas, Nat.mod_eq_of_lt hid]
    rfl
  have htake : Reader.take (8 * (4 + (bitsOfBytes bytes).length / 8 - 4))
      ⟨0, bitsOfBytes bytes⟩ =
        some (bitsOfBytes bytes, ⟨advance 0 (8 * bytes.length), []⟩) := by
    have hsize : 8 * (4 + (bitsOfBytes bytes).length / 8 - 4) = (bitsOfBytes bytes).length := by
      omega
    rw [hsize, hlength]
    unfold Reader.take
    rw [if_pos (by rw [hlength]), List.take_of_length_le (by rw [hlength]),
      List.drop_of_length_le (by rw [hlength])]
  rw [hread, hselect]
  unfold PCCBitstreamReader.v3cUnitPayload
  rw [if_neg hnotVps, if_neg hnotAd, if_pos hvideo, htake]
  simp only [Option.bind_eq_bind, Option.bind_some, bytesOfBits_bitsOfBytes,
    videoSubStream_receiving hatlases htype, Option.map_some]

/-- The units of video of a group leave a stream each. -/
theorem video_run (hid : vps.v3cParameterSetId < 2 ^ 4) (hatlases : vps.atlases = [atlas])
    {headers : List (ℕ × V3CUnitHeader)} {bytes : ℕ × V3CUnitHeader → List UInt8}
    (hheaders : ∀ c ∈ headers, atlas.HasVideo c.1 ∧
      c.2.v3cParameterSetId = vps.v3cParameterSetId ∧ c.2.atlasId = 0 ∧
      PCCBitstreamWriter.videoSubStream syntax' c.1 c.2 = some (bytes c)) :
    ∃ units,
      headers.mapM (fun (v3cUnitType, vuh) =>
        PCCBitstreamWriter.v3cUnit codec syntax' v3cUnitType vuh) = some units ∧
      ∀ a streams, PCCBitstreamReader.decodeLoop codec 1 (receiving vps a streams) units =
        some (receiving vps a (streams ++ headers.map fun c =>
          { type := atlas.streamType c.1 (c.2.received c.1), data := bytes c }), []) := by
  induction headers with
  | nil =>
    refine ⟨[], rfl, fun a streams => ?_⟩
    rw [List.map_nil, List.append_nil]
    rfl
  | cons c rest ih =>
    obtain ⟨units, hmap, hrun⟩ := ih fun d hd => hheaders d (List.mem_cons_of_mem c hd)
    obtain ⟨htype, hvps, hatlas, hbytes⟩ := hheaders c List.mem_cons_self
    obtain ⟨unit, hwrite, hread⟩ := video_step codec hid hatlases htype hvps hatlas hbytes
    refine ⟨unit :: units, ?_, fun a streams => ?_⟩
    · rw [List.mapM_cons, hmap]
      simp only [hwrite]
      rfl
    · have hnotVps : c.1 ≠ V3C_VPS := by
        intro h
        rw [h] at htype
        rcases htype with h | h | ⟨h, -⟩ <;> exact absurd h (by decide)
      rw [PCCBitstreamReader.decodeLoop, hread]
      simp only [Option.bind_eq_bind, Option.bind_some, if_neg hnotVps, hrun, List.map_cons,
        List.append_assoc, List.singleton_append]

/-- The unit of the parameter set, read by a syntax that has none yet. -/
theorem vps_step (hvps : vps.Coded) (hshort : vps.profileTierLevel.NoLongIdc)
    (hatlases : vps.atlases = [atlas]) (hactive : syntax'.getVps = some vps) :
    ∃ unit, PCCBitstreamWriter.v3cUnit codec syntax' V3C_VPS {} = some unit ∧
      PCCBitstreamReader.v3cUnit codec {} unit =
        some (V3C_VPS, {
          vpccParameterSets := [vps.received], atlasHLS := [{ atlas := codec.initial }] }) := by
  obtain ⟨payload, hwrite, hread⟩ := hvps.roundTrip hshort 0
  have haligned := PCCBitstreamWriter.v3cParameterSet_aligned vps 0 payload hwrite
  have hpayload : PCCBitstreamWriter.v3cUnitPayload codec syntax' V3C_VPS {} 0 =
      some ((), payload) := by
    unfold PCCBitstreamWriter.v3cUnitPayload
    rw [if_pos rfl, hactive, Writer.ofOption_some, pure_bind]
    exact hwrite
  obtain ⟨unit, hunit, hrun⟩ := v3cUnit_read codec syntax' (by decide)
    (Writer.dvd_of_advance_eq_zero haligned) hpayload
  refine ⟨unit, hunit, ?_⟩
  have hcount : vps.received.atlases.length = 1 := by
    obtain ⟨_, _, hreceived⟩ := received_atlas hatlases
    rw [hreceived]
    rfl
  have hrest := hread []
  rw [List.append_nil] at hrest
  rw [hrun]
  unfold PCCBitstreamReader.v3cUnitPayload
  rw [if_pos rfl, hrest]
  simp only [Option.bind_eq_bind, Option.bind_some, PCCBitstreamReader.addV3CParameterSet,
    PCCHighLevelSyntax.allocateAtlasHLS, hcount]
  rfl

/-- The unit of the atlas, which also selects the parameter set. -/
theorem ad_step (hid : vps.v3cParameterSetId < 2 ^ 4) {hls : AtlasSyntax A}
    (hcurrent : syntax'.getAtlasHighLevelSyntax = some hls) {bytes : List UInt8} {a : A}
    (hbytes : codec.atlasSubStream hls.atlas = some bytes)
    (hread : codec.readAtlasSubStream codec.initial bytes = some a) (vuh : V3CUnitHeader)
    (hvps : vuh.v3cParameterSetId = vps.v3cParameterSetId) (hatlas : vuh.atlasId = 0) :
    ∃ unit, PCCBitstreamWriter.v3cUnit codec syntax' V3C_AD vuh = some unit ∧
      PCCBitstreamReader.v3cUnit codec {
          vpccParameterSets := [vps.received], atlasHLS := [{ atlas := codec.initial }] } unit =
        some (V3C_AD, receiving vps a []) := by
  have hpayload : PCCBitstreamWriter.v3cUnitPayload codec syntax' V3C_AD vuh 0 =
      some ((), bitsOfBytes bytes) := by
    unfold PCCBitstreamWriter.v3cUnitPayload
    rw [if_neg (by decide), if_pos rfl, hcurrent, Writer.ofOption_some, pure_bind, hbytes]
    rfl
  obtain ⟨unit, hwrite, hrun⟩ :=
    v3cUnit_read codec syntax' (by decide) ⟨_, length_bitsOfBytes bytes⟩ hpayload
  refine ⟨unit, hwrite, ?_⟩
  obtain ⟨hid', hatlas'⟩ := vuh.received_of_selects (show SelectsAtlas V3C_AD by decide)
  rw [hrun]
  unfold PCCBitstreamReader.selectAtlas
  rw [if_pos (by decide), hid', hatlas', hvps, hatlas, Nat.mod_eq_of_lt hid]
  unfold PCCBitstreamReader.v3cUnitPayload
  rw [if_neg (by decide), if_pos rfl]
  simp only [bytesOfBits_bitsOfBytes]
  change ((codec.readAtlasSubStream codec.initial bytes).bind _).map _ = _
  rw [hread]
  rfl

theorem decode_encode_oneAtlas (hvps : vps.Coded) (hshort : vps.profileTierLevel.NoLongIdc)
    (hatlases : vps.atlases = [atlas]) (hactive : syntax'.getVps = some vps) {hls : AtlasSyntax A}
    (hcurrent : syntax'.getAtlasHighLevelSyntax = some hls) {data : List UInt8} {a : A}
    (hdata : codec.atlasSubStream hls.atlas = some data)
    (hread : codec.readAtlasSubStream codec.initial data = some a) {raw : Bool}
    (hraw : codec.rawPatchEnabledFlag hls.atlas = some raw)
    {bytes : ℕ × V3CUnitHeader → List UInt8}
    (hheaders : ∀ c ∈ PCCBitstreamWriter.videoHeaders atlas raw
        { v3cParameterSetId := vps.v3cParameterSetId },
      atlas.HasVideo c.1 ∧ c.2.v3cParameterSetId = vps.v3cParameterSetId ∧ c.2.atlasId = 0 ∧
        PCCBitstreamWriter.videoSubStream syntax' c.1 c.2 = some (bytes c)) :
    ∃ units, PCCBitstreamWriter.encode codec syntax' = some units ∧
      PCCBitstreamReader.decode codec {} units =
        some (receiving vps a ((PCCBitstreamWriter.videoHeaders atlas raw
          { v3cParameterSetId := vps.v3cParameterSetId }).map fun c =>
            { type := atlas.streamType c.1 (c.2.received c.1), data := bytes c }), []) := by
  have hunits : PCCBitstreamWriter.unitHeaders vps raw =
      (V3C_VPS, {}) :: (V3C_AD, { v3cParameterSetId := vps.v3cParameterSetId }) ::
        PCCBitstreamWriter.videoHeaders atlas raw
          { v3cParameterSetId := vps.v3cParameterSetId } := by
    unfold PCCBitstreamWriter.unitHeaders
    rw [hatlases]
    simp
  obtain ⟨vpsUnit, hvpsUnit, hvpsRead⟩ := vps_step codec hvps hshort hatlases hactive
  obtain ⟨adUnit, hadUnit, hadRead⟩ := ad_step codec hvps.id_lt hcurrent hdata hread
    { v3cParameterSetId := vps.v3cParameterSetId } rfl rfl
  obtain ⟨units, hmap, hrun⟩ := video_run codec hvps.id_lt hatlases hheaders
  refine ⟨vpsUnit :: adUnit :: units, ?_, ?_⟩
  · unfold PCCBitstreamWriter.encode
    rw [hactive, hcurrent]
    simp only [Option.bind_eq_bind, Option.bind_some, hraw, hunits, List.mapM_cons, hvpsUnit,
      hadUnit, hmap]
    rfl
  · unfold PCCBitstreamReader.decode
    rw [PCCBitstreamReader.decodeLoop, hvpsRead]
    simp only [Option.bind_eq_bind, Option.bind_some]
    rw [if_pos trivial, if_neg (by decide), PCCBitstreamReader.decodeLoop, hadRead]
    simp only [Option.bind_eq_bind, Option.bind_some]
    rw [if_neg (by decide), hrun, List.nil_append]

end OneAtlas

end V3C

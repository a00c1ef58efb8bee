import V3C.Codec.Traverse
import V3C.Container.SampleStreamRoundTrip
import V3C.Unit.GroupSeparation
import V3C.Unit.VideoRoutingExact

/-! Compressed files: the units of all groups of frames behind one header, and the contexts that
are made of them. -/
namespace V3C
open Codec

variable {A : Type} (codec : AtlasCodec A)

namespace PCCBitstreamWriter

/-- The calls of `encode`, which append the units of every group. -/
def encodeAll (contexts : List (PCCHighLevelSyntax A)) : Option (List V3CUnit) := do
  let groups ← contexts.mapM (encode codec)
  pure groups.flatten

def fileOfUnits (units : List V3CUnit) (forced : ℕ) : Option (List UInt8) := do
  let run ← PCCBitstreamWriter.write ⟨units, 0⟩ PCCBitstream.empty forced
  pure (run.2.1.data.take run.2.1.bytes)

def compress (forced : ℕ) (contexts : List (PCCHighLevelSyntax A)) : Option (List UInt8) := do
  let units ← encodeAll codec contexts
  fileOfUnits units forced

variable {codec} in
theorem compress_of_encodeAll {contexts : List (PCCHighLevelSyntax A)} {units : List V3CUnit}
    {forced : ℕ} (h : encodeAll codec contexts = some units) :
    compress codec forced contexts = fileOfUnits units forced := by
  unfold compress
  rw [h, Option.bind_eq_bind, Option.bind_some]

end PCCBitstreamWriter

namespace PCCBitstreamReader

def unitsOfFile (fuel : ℕ) (file : List UInt8) : Option (List V3CUnit) := do
  let run ← PCCBitstreamReader.read fuel ⟨file, 0, 0⟩ ⟨[], 0⟩
  pure run.1.v3cUnits

/-- The contexts of the groups, as the loop of the application makes them. -/
def decompress (fuel calls : ℕ) (file : List UInt8) : Option (List (PCCHighLevelSyntax A)) := do
  let units ← unitsOfFile fuel file
  let calls ← decodeAll codec calls units
  pure (calls.map Prod.fst)

end PCCBitstreamReader

section Unit

variable {codec} {syntax' : PCCHighLevelSyntax A} {v3cUnitType : ℕ} {vuh : V3CUnitHeader}
  {unit : V3CUnit}

/-- The bytes of a unit are its header, and its size counts them. -/
theorem v3cUnit_data
    (h : PCCBitstreamWriter.v3cUnit codec syntax' v3cUnitType vuh = some unit) :
    ∃ header payload, PCCBitstreamWriter.v3cUnitHeader v3cUnitType vuh 0 = some ((), header) ∧
      header.length = 32 ∧ unit.data = bytesOfBits header ++ bytesOfBits payload ∧
      unit.size = unit.data.length ∧ unit.type = v3cUnitType := by
  obtain ⟨⟨⟨⟩, bits⟩, hrun, hunit⟩ := Option.bind_eq_some_iff.mp h
  obtain ⟨⟨⟩, header, payload, hheader, -, hbits⟩ := Writer.bind_run_eq_some.mp hrun
  obtain rfl := Option.some.inj hunit
  have hlength := v3cUnitHeader_sized v3cUnitType vuh 0 header hheader
  refine ⟨header, payload, hheader, hlength, ?_, ?_, rfl⟩
  · simp only [hbits]
    exact bytesOfBits_append (by omega)
  · simp only [length_bytesOfBits]

/-- The type of a unit is in its first byte. -/
theorem ofBytes_of_v3cUnit (htype : v3cUnitType < 2 ^ 5)
    (h : PCCBitstreamWriter.v3cUnit codec syntax' v3cUnitType vuh = some unit) :
    V3CUnit.ofBytes unit.data = some unit ∧ unit.Valid := by
  obtain ⟨header, payload, hheader, hlength, hdata, hsize, hunit⟩ := v3cUnit_data h
  obtain ⟨⟨⟩, five, others, hfive, -, hfields⟩ := Writer.bind_run_eq_some.mp hheader
  have hsized := Writer.Sized.write v3cUnitType 5 0 five hfive
  obtain rfl : bitsOfNat 5 v3cUnitType = five := (Prod.mk.inj (Option.some.inj hfive)).2
  have hbytes : (bytesOfBits header).length = 4 := by
    rw [length_bytesOfBits, hlength]
  obtain ⟨b, rest, hb⟩ := List.exists_cons_of_length_pos (l := bytesOfBits header) (by omega)
  have hbits : bitsOfNat 8 b.toNat ++ bitsOfBytes rest = bitsOfNat 5 v3cUnitType ++ others := by
    rw [← bitsOfBytes_cons, ← hb, bitsOfBytes_bytesOfBits (by omega), hfields]
  have hfirst : (bitsOfNat 8 b.toNat).take 5 = bitsOfNat 5 v3cUnitType := by
    have htake := congrArg (List.take 5) hbits
    rw [List.take_append_of_le_length (by simp), List.take_left' (by simp)] at htake
    exact htake
  have hshift : b.toNat >>> 3 = v3cUnitType := by
    have hvalue := congrArg natOfBits (List.take_append_drop 5 (bitsOfNat 8 b.toNat))
    rw [natOfBits_append, hfirst, natOfBits_bitsOfNat_of_lt htype,
      natOfBits_bitsOfNat_of_lt b.toNat_lt] at hvalue
    have hlow := natOfBits_lt ((bitsOfNat 8 b.toNat).drop 5)
    rw [List.length_drop, length_bitsOfNat] at hvalue hlow
    rw [Nat.shiftRight_eq_div_pow]
    omega
  constructor
  · unfold V3CUnit.ofBytes
    rw [hdata, hb]
    simp only [List.cons_append, List.head?_cons, Option.map_some, hshift]
    cases unit
    simp_all
  · constructor
    · rw [hsize, hdata, List.length_append, hbytes]
      omega
    · exact hsize.le

theorem unitHeader_of_v3cUnit (htype : v3cUnitType < 2 ^ 5)
    (h : PCCBitstreamWriter.v3cUnit codec syntax' v3cUnitType vuh = some unit) :
    PCCBitstreamReader.unitHeader unit = some (v3cUnitType, vuh.received v3cUnitType) := by
  obtain ⟨header, payload, hheader, hlength, hdata, -, -⟩ := v3cUnit_data h
  obtain ⟨header', hwrite, hread⟩ := v3cUnitHeader_roundTrip vuh htype 0
  obtain rfl : header' = header := (Prod.mk.inj (Option.some.inj (hwrite.symm.trans hheader))).2
  unfold PCCBitstreamReader.unitHeader
  rw [hdata, bitsOfBytes_append, bitsOfBytes_bytesOfBits (by omega), hread]
  rfl

/-- Units that have their type in their first byte come back from a file. -/
theorem unitsOfFile_fileOfUnits {units : List V3CUnit} {forced : ℕ}
    (hunits : ∀ unit ∈ units, V3CUnit.ofBytes unit.data = some unit ∧ unit.Valid)
    (hfit : SizesFit (largestSize units) forced) :
    ∃ file fuel, PCCBitstreamWriter.fileOfUnits units forced = some file ∧
      PCCBitstreamReader.unitsOfFile fuel file = some units := by
  have hvalid : ∀ unit ∈ units, unit.Valid := fun unit hunit => (hunits unit hunit).2
  have hmax := maxUnitSize_eq ((largestSize_lt_iff (by positivity)).mp hfit.lt)
  have hprecision := (sizesFit_iff hfit.lt forced).mpr hfit
  rw [← hmax] at hprecision
  obtain ⟨hpos, hfour, hsize⟩ := hprecision
  change 0 < PCCBitstreamWriter.precision units forced % 32 at hpos
  change PCCBitstreamWriter.precision units forced % 32 ≤ 4 at hfour
  change _ < 256 ^ (PCCBitstreamWriter.precision units forced % 32) at hsize
  rw [hmax, largestSize_lt_iff (by positivity)] at hsize
  obtain ⟨ssvu, s, headerSize, hwrite, hdata⟩ := PCCBitstreamWriter.write_holds hvalid hfour
  obtain ⟨fuel, hfuel⟩ := (unframes_frames_iff hpos (units.map V3CUnit.bytes)).mpr (by
    intro payload hpayload
    obtain ⟨unit, hunit, rfl⟩ := List.mem_map.mp hpayload
    rw [(hvalid unit hunit).length_bytes]
    exact hsize unit hunit)
  have hmap : (units.map V3CUnit.bytes).mapM V3CUnit.ofBytes = some units := by
    have hself : ∀ unit ∈ units, V3CUnit.ofBytes unit.bytes = some (id unit) := by
      intro unit hunit
      have hof := (hunits unit hunit).1
      have hbytes := V3CUnit.ofBytes_bytes hof
      rw [(Prod.mk.inj hbytes).2]
      exact hof
    have hid := mapM_eq_some_map hself
    rw [List.map_id] at hid
    rw [List.mapM_map]
    exact hid
  have hprecision1 : (PCCBitstreamWriter.precision units forced - 1) % 8 + 1 =
      PCCBitstreamWriter.precision units forced % 32 := by
    omega
  have hread := read_frames hfour hpos hprecision1 fuel (units.map V3CUnit.bytes)
  rw [hfuel, Option.bind_some, hmap] at hread
  obtain ⟨run, hrun, hresult⟩ := Option.map_eq_some_iff.mp hread
  refine ⟨s.data.take s.bytes, fuel, ?_, ?_⟩
  · unfold PCCBitstreamWriter.fileOfUnits
    rw [hwrite]
    rfl
  · rw [hdata]
    unfold PCCBitstreamReader.unitsOfFile
    rw [hrun, Option.bind_eq_bind, Option.bind_some, hresult]
    rfl

end Unit

/-- What the encoder holds of one group: a parameter set of one atlas with a stream for each of
its components, the atlas data with its bytes and what the reader makes of them, and the bytes
of every component. -/
structure CodedGroup (codec : AtlasCodec A) where
  context : PCCHighLevelSyntax A
  vps : V3CParameterSet
  atlas : VpsAtlas
  data : A
  bytes : List UInt8
  received : A
  raw : Bool
  coded : vps.Coded
  short : vps.profileTierLevel.NoLongIdc
  oneAtlas : vps.atlases = [atlas]
  oneStream : atlas.OneStreamEach
  active : context.getVps = some vps
  atlases : context.atlasHLS.map AtlasSyntax.atlas = [data]
  index : context.atlasIndex = 0
  written : codec.atlasSubStream data = some bytes
  read : codec.readAtlasSubStream codec.initial bytes = some received
  flag : codec.rawPatchEnabledFlag data = some raw
  held : ∀ c ∈ PCCBitstreamWriter.videoHeaders atlas raw
    { v3cParameterSetId := vps.v3cParameterSetId }, ∃ bytes, context.component vps c = some bytes

namespace CodedGroup

variable {codec} (group : CodedGroup codec)

/-- The video components of the group. -/
def components : List (ℕ × V3CUnitHeader) :=
  PCCBitstreamWriter.videoHeaders group.atlas group.raw
    { v3cParameterSetId := group.vps.v3cParameterSetId }

/-- The streams that the reader makes of the components. -/
def streams : List PCCVideoBitstream :=
  group.components.map fun c =>
    { type := group.atlas.streamType c.1 (c.2.received c.1)
      data := (group.context.component group.vps c).getD [] }

/-- What a decoder has of the group: the parameter set as it is received, the atlas data that
the bytes of the atlas are read to, and the bytes of every video component. -/
structure Restored (context : PCCHighLevelSyntax A) : Prop where
  getVps : context.getVps = some group.vps.received
  atlases : context.atlasHLS.map AtlasSyntax.atlas = [group.received]
  index : context.atlasIndex = 0
  component : ∀ c ∈ group.components,
    context.component group.vps.received c = group.context.component group.vps c

theorem first_atlas : group.vps.atlases[0]? = some group.atlas := by
  rw [group.oneAtlas]
  rfl

theorem mapCountMinus1_lt : group.atlas.mapCountMinus1 < 16 :=
  (group.coded.atlas group.atlas (List.mem_of_getElem? group.first_atlas)).map_lt

theorem unitHeaders_eq :
    PCCBitstreamWriter.unitHeaders group.vps group.raw =
      (V3C_VPS, {}) :: (V3C_AD, { v3cParameterSetId := group.vps.v3cParameterSetId }) ::
        group.components := by
  unfold PCCBitstreamWriter.unitHeaders
  rw [group.oneAtlas]
  simp [components]

theorem hasVideo_of_mem {c : ℕ × V3CUnitHeader} (hc : c ∈ group.components) :
    group.atlas.HasVideo c.1 ∧ c.2.v3cParameterSetId = group.vps.v3cParameterSetId ∧
      c.2.atlasId = 0 := atlasId_of_mem_videoHeaders hc

/-- The types behind the parameter set. -/
theorem type_of_mem {c : ℕ × V3CUnitHeader}
    (hc : c ∈ (V3C_AD, { v3cParameterSetId := group.vps.v3cParameterSetId }) ::
      group.components) : V3C_VPS < c.1 ∧ c.1 < 2 ^ 5 := by
  rcases List.mem_cons.mp hc with rfl | hc
  · constructor
    · exact Nat.zero_lt_one
    · exact Nat.one_lt_two_pow (by decide)
  · obtain ⟨htype, -, -⟩ := group.hasVideo_of_mem hc
    rcases htype with h | h | ⟨h, -⟩ <;> rw [h] <;> decide

theorem type_of_mem_unitHeaders {c : ℕ × V3CUnitHeader}
    (hc : c ∈ PCCBitstreamWriter.unitHeaders group.vps group.raw) : c.1 < 2 ^ 5 := by
  rw [group.unitHeaders_eq] at hc
  rcases List.mem_cons.mp hc with rfl | hc
  · exact Nat.two_pow_pos 5
  · exact (group.type_of_mem hc).2

/-- The units of the group make the context of the reader. -/
theorem exists_encode :
    ∃ units, PCCBitstreamWriter.encode codec group.context = some units ∧
      PCCBitstreamReader.decode codec {} units =
        some (receiving group.vps group.received group.streams, []) := by
  obtain ⟨hls, hhls, hatlas⟩ := List.map_eq_singleton_iff.mp group.atlases
  have hcurrent : group.context.getAtlasHighLevelSyntax = some hls := by
    unfold PCCHighLevelSyntax.getAtlasHighLevelSyntax
    rw [group.index, hhls]
    rfl
  apply decode_encode_oneAtlas codec group.coded group.short group.oneAtlas group.active hcurrent
    (hatlas ▸ group.written) group.read (hatlas ▸ group.flag)
  intro c hc
  obtain ⟨htype, hset, hid⟩ := group.hasVideo_of_mem hc
  obtain ⟨bytes, hbytes⟩ := group.held c hc
  have hof : group.vps.atlases[c.2.atlasId]? = some group.atlas := by
    rw [hid]
    exact group.first_atlas
  refine ⟨htype, hset, hid, ?_⟩
  rw [videoSubStream_eq group.active hof htype, group.index,
    ← component_eq group.first_atlas hid, hbytes]
  rfl

/-- Every unit of the group has its type in its first byte, and only the first is the unit of a
parameter set. -/
theorem isGroup_of_encode {units : List V3CUnit}
    (hencode : PCCBitstreamWriter.encode codec group.context = some units) :
    IsGroup codec units ∧
      ∀ unit ∈ units, V3CUnit.ofBytes unit.data = some unit ∧ unit.Valid := by
  obtain ⟨units', hencode', hdecode⟩ := group.exists_encode
  obtain rfl : units' = units := Option.some.inj (hencode'.symm.trans hencode)
  obtain ⟨hls, hhls, hatlas⟩ := List.map_eq_singleton_iff.mp group.atlases
  have hcurrent : group.context.getAtlasHighLevelSyntax = some hls := by
    unfold PCCHighLevelSyntax.getAtlasHighLevelSyntax
    rw [group.index, hhls]
    rfl
  have hmap : (PCCBitstreamWriter.unitHeaders group.vps group.raw).mapM
      (fun c => PCCBitstreamWriter.v3cUnit codec group.context c.1 c.2) = some units' := by
    unfold PCCBitstreamWriter.encode at hencode
    have hraw : codec.rawPatchEnabledFlag hls.atlas = some group.raw := hatlas ▸ group.flag
    simpa [group.active, hcurrent, hraw] using hencode
  constructor
  · refine ⟨?_, _, hdecode⟩
    rw [group.unitHeaders_eq, List.mapM_cons] at hmap
    obtain ⟨first, hfirst, hmap⟩ := Option.bind_eq_some_iff.mp hmap
    obtain ⟨rest, hrest, hmap⟩ := Option.bind_eq_some_iff.mp hmap
    refine ⟨first, rest, (Option.some.inj hmap).symm, ?_, fun unit hunit => ?_⟩
    · rw [unitHeader_of_v3cUnit (by decide) hfirst]
      rfl
    · obtain ⟨c, hc, hwrite⟩ := exists_mem_of_mapM_eq_some hrest hunit
      obtain ⟨hpos, hlt⟩ := group.type_of_mem hc
      rw [unitHeader_of_v3cUnit hlt hwrite]
      intro h
      exact hpos.ne' (Option.some.inj h)
  · intro unit hunit
    obtain ⟨c, hc, hwrite⟩ := exists_mem_of_mapM_eq_some hmap hunit
    exact ofBytes_of_v3cUnit (group.type_of_mem_unitHeaders hc) hwrite

theorem component_received {c : ℕ × V3CUnitHeader} (hc : c ∈ group.components)
    (context : PCCHighLevelSyntax A) :
    context.component group.vps.received c =
      context.video 0 (group.atlas.streamType c.1 c.2) := by
  obtain ⟨auxiliary, mapCountMinus1, hreceived⟩ := received_atlas group.oneAtlas
  have hfirst : group.vps.received.atlases[0]? =
      some (group.atlas.received auxiliary mapCountMinus1) := by
    rw [hreceived]
    rfl
  rw [component_eq hfirst (group.hasVideo_of_mem hc).2.2]
  rfl

theorem restored_receiving :
    group.Restored (receiving group.vps group.received group.streams) where
  getVps := getVps_receiving _ _ _
  atlases := rfl
  index := rfl
  component := by
    intro c hc
    obtain ⟨bytes, hbytes⟩ := group.held c hc
    rw [group.component_received hc]
    simp only [PCCHighLevelSyntax.video, receiving, AtlasSyntax.getVideoBitstream,
      List.getElem?_cons_zero, Option.bind_eq_bind, Option.bind_some, streams, components,
      group.oneStream.find_received group.mapCountMinus1_lt _ hc, Option.map_some, hbytes,
      Option.getD_some]

/-- The parameter set of the following group changes nothing. -/
theorem Restored.addV3CParameterSet {group : CodedGroup codec} {next : V3CParameterSet}
    (hnext : next.atlases.length = 1) :
    group.Restored (PCCBitstreamReader.addV3CParameterSet codec
      (receiving group.vps group.received group.streams) next) := by
  have hrestored := group.restored_receiving
  have hatlases := @atlasHLS_addV3CParameterSet _
    (receiving group.vps group.received group.streams) next codec hnext
  have hid : group.vps.received.v3cParameterSetId = group.vps.v3cParameterSetId := rfl
  constructor
  · simp [PCCHighLevelSyntax.getVps, PCCBitstreamReader.addV3CParameterSet,
      PCCHighLevelSyntax.allocateAtlasHLS, receiving, hid]
  · rw [hatlases]
    exact hrestored.atlases
  · rfl
  · intro c hc
    rw [← hrestored.component c hc, group.component_received hc, group.component_received hc]
    unfold PCCHighLevelSyntax.video
    rw [hatlases]

end CodedGroup

section Groups

variable {codec} {group : CodedGroup codec} {groups : List (CodedGroup codec)}

/-- The call for a group takes the units of the group, and no more of the next one than its
parameter set. -/
theorem CodedGroup.decode_append {units : List V3CUnit}
    (hencode : PCCBitstreamWriter.encode codec group.context = some units)
    {rest : List (List V3CUnit)}
    (hrest : ∀ next ∈ rest.head?, ∃ nextGroup : CodedGroup codec,
      PCCBitstreamWriter.encode codec nextGroup.context = some next) :
    ∃ context, PCCBitstreamReader.decode codec {} (units ++ rest.flatten) =
      some (context, rest.flatten) ∧ group.Restored context := by
  obtain ⟨units', hencode', hdecode⟩ := group.exists_encode
  obtain rfl : units' = units := Option.some.inj (hencode'.symm.trans hencode)
  obtain ⟨-, -, hloop⟩ := (group.isGroup_of_encode hencode).1.decode hdecode
  rw [hloop]
  cases rest with
  | nil => exact ⟨_, rfl, group.restored_receiving⟩
  | cons next rest =>
    obtain ⟨nextGroup, hnext⟩ := hrest next rfl
    obtain ⟨next', hnext', hnextDecode⟩ := nextGroup.exists_encode
    obtain rfl : next' = next := Option.some.inj (hnext'.symm.trans hnext)
    have hisGroup := (nextGroup.isGroup_of_encode hnext).1
    obtain ⟨vps, halone, -⟩ := hisGroup.decode hnextDecode
    obtain ⟨first, others, rfl, hfirst, -⟩ := hisGroup.starts
    have hvps : PCCBitstreamReader.unitVps first = some vps := halone.parameterSet
    refine ⟨PCCBitstreamReader.addV3CParameterSet codec
      (receiving group.vps group.received group.streams) vps, ?_, ?_⟩
    · rw [List.flatten_cons, List.cons_append, PCCBitstreamReader.decodeLoop, v3cUnit_vps hfirst,
        hvps]
      rfl
    · exact CodedGroup.Restored.addV3CParameterSet halone.length.symm

theorem decodeAll_groups {units : List (List V3CUnit)}
    (hencode : List.Forall₂ (fun group units =>
      PCCBitstreamWriter.encode codec group.context = some units) groups units) :
    ∃ calls, PCCBitstreamReader.decodeAll codec groups.length units.flatten = some calls ∧
      List.Forall₂ CodedGroup.Restored groups (calls.map Prod.fst) := by
  induction hencode with
  | nil => exact ⟨[], rfl, List.Forall₂.nil⟩
  | @cons group unit groups units hfirst hencode ih =>
    obtain ⟨calls, hcalls, hrestored⟩ := ih
    have hnext : ∀ next ∈ units.head?, ∃ nextGroup : CodedGroup codec,
        PCCBitstreamWriter.encode codec nextGroup.context = some next := by
      intro next hnext
      cases hencode with
      | nil => cases hnext
      | @cons nextGroup _ _ _ hsecond _ =>
        obtain rfl := Option.some.inj hnext
        exact ⟨nextGroup, hsecond⟩
    obtain ⟨context, hdecode, hcontext⟩ := CodedGroup.decode_append hfirst hnext
    obtain ⟨first, rest, rfl, -⟩ := (group.isGroup_of_encode hfirst).1.starts
    refine ⟨(context, first :: rest) :: calls, ?_, List.Forall₂.cons hcontext hrestored⟩
    have htaken : (first :: rest ++ units.flatten).take
        ((first :: rest ++ units.flatten).length - units.flatten.length) = first :: rest := by
      rw [List.length_append, Nat.add_sub_cancel, List.take_left]
    rw [List.flatten_cons, List.cons_append, List.length_cons, PCCBitstreamReader.decodeAll,
      ← List.cons_append, hdecode]
    · simp only [Option.bind_eq_bind, Option.bind_some, hcalls, htaken]
      rfl
    · exact List.cons_ne_nil _ _

/-- The units of the groups, and what a file of them is read to. -/
theorem decompress_fileOfUnits (groups : List (CodedGroup codec)) :
    ∃ units, PCCBitstreamWriter.encodeAll codec (groups.map CodedGroup.context) = some units ∧
      ∀ forced, SizesFit (largestSize units) forced →
        ∃ file fuel contexts, PCCBitstreamWriter.fileOfUnits units forced = some file ∧
          PCCBitstreamReader.decompress codec fuel groups.length file = some contexts ∧
          List.Forall₂ CodedGroup.Restored groups contexts := by
  obtain ⟨units, hmap, hencode⟩ := exists_mapM_forall₂ (l := groups)
    (f := fun group => PCCBitstreamWriter.encode codec group.context)
    (R := fun group units => PCCBitstreamWriter.encode codec group.context = some units)
    fun group _ => by
      obtain ⟨units, hunits, -⟩ := group.exists_encode
      exact ⟨units, hunits, hunits⟩
  refine ⟨units.flatten, ?_, fun forced hfit => ?_⟩
  · unfold PCCBitstreamWriter.encodeAll
    rw [List.mapM_map]
    change (groups.mapM fun group => PCCBitstreamWriter.encode codec group.context).bind _ = _
    rw [hmap]
    rfl
  · have hunits : ∀ unit ∈ units.flatten,
        V3CUnit.ofBytes unit.data = some unit ∧ unit.Valid := by
      intro unit hunit
      obtain ⟨groupUnits, hmem, hunit⟩ := List.mem_flatten.mp hunit
      obtain ⟨group, -, hgroup⟩ := exists_mem_of_mapM_eq_some hmap hmem
      exact (group.isGroup_of_encode hgroup).2 unit hunit
    obtain ⟨file, fuel, hfile, hread⟩ := unitsOfFile_fileOfUnits hunits hfit
    obtain ⟨calls, hcalls, hrestored⟩ := decodeAll_groups hencode
    refine ⟨file, fuel, calls.map Prod.fst, hfile, ?_, hrestored⟩
    unfold PCCBitstreamReader.decompress
    rw [hread]
    simp only [Option.bind_eq_bind, Option.bind_some, hcalls]
    rfl

end Groups

section OneMap

/-- An atlas of one map with an attribute. -/
def oneMap : VpsAtlas where
  frameWidth := 1280
  frameHeight := 1344
  mapAbsoluteCodingEnableFlag := [true]
  mapPredictorIndexDiff := [0]
  attributeVideoPresentFlag := true
  attributeInformation := [{ attributeMapAbsoluteCodingPersistenceFlag := true }]

def oneMapSet : V3CParameterSet where
  atlases := [oneMap]

theorem oneMap_inRange : oneMap.InRange where
  id_lt := by decide
  width_lt := by decide
  height_lt := by decide
  map_lt := by decide
  absolute_length := rfl
  predictor_length := rfl
  occupancy := nofun
  geometry := nofun
  attribute_lt := by decide
  attributes := by
    intro ai hai
    rw [List.mem_singleton.mp hai]
    constructor <;> decide

theorem oneMap_restorable : oneMap.Restorable false 0 where
  oneMap := fun _ => rfl
  first_absolute := rfl
  first_predictor := rfl
  oneStream := by decide
  predictor_le := by decide
  predictor_absolute := by
    intro i hflag
    match i, hflag with
    | 0, _ => rfl
    | _ + 1, hflag => cases hflag
  noOccupancy := fun _ => rfl
  geometry := nofun
  noGeometry := fun _ => rfl
  attributes := by
    intro ai hai
    rw [List.mem_singleton.mp hai]
    exact ⟨fun _ => rfl, fun _ => rfl⟩
  noAttribute := nofun

theorem oneMapSet_inRange : oneMapSet.InRange where
  profile := by
    constructor
    case constraints => exact nofun
    all_goals decide
  id_lt := Nat.two_pow_pos 4
  atlas_pos := List.cons_ne_nil _ _
  atlas_le := by decide
  atlas := by
    intro atlas hmem
    rw [List.mem_singleton.mp hmem]
    exact oneMap_inRange
  extension_lt := Nat.two_pow_pos 8
  length_lt := Nat.one_lt_two_pow (by decide)
  byte_length := fun h => absurd rfl h
  byte_lt := nofun

theorem oneMapSet_restorable : oneMapSet.Restorable where
  profile := ⟨nofun, fun _ => rfl⟩
  atlas := by
    intro atlas hmem
    rw [List.mem_singleton.mp hmem]
    exact oneMap_restorable
  noExtension := fun _ => rfl
  noBytes := fun _ => ⟨rfl, rfl⟩

theorem oneMapSet_noLongIdc : oneMapSet.profileTierLevel.NoLongIdc := nofun

theorem oneMapSet_atlases : oneMapSet.atlases = [oneMap] := rfl

theorem oneMap_oneStreamEach : oneMap.OneStreamEach := ⟨by decide, by decide⟩

/-- A group whose components all have one NAL unit of two bytes. -/
def oneMapGroup : CodedGroup verbatim where
  context := holding verbatim oneMapSet [[7]] fun _ => [0, 0, 0, 2, 1, 1]
  vps := oneMapSet
  atlas := oneMap
  data := [7]
  bytes := [7]
  received := [7]
  raw := false
  coded := oneMapSet_inRange.coded oneMapSet_restorable
  short := oneMapSet_noLongIdc
  oneAtlas := oneMapSet_atlases
  oneStream := oneMap_oneStreamEach
  active := getVps_holding
  atlases := atlases_holding rfl
  index := rfl
  written := rfl
  read := rfl
  flag := rfl
  held _ hc := ⟨_, component_holding hc⟩

theorem sizesFit_of_lt {largest forced : ℕ} (h : largest < 256) (hforced : forced ≤ 4) :
    SizesFit largest forced := by
  unfold SizesFit
  rw [if_pos hforced]
  refine ⟨h.trans (by decide), fun k hk _ hpow => absurd h (Nat.not_lt.mpr ?_)⟩
  calc 256 = 256 ^ 1 := rfl
    _ ≤ 256 ^ k := Nat.pow_le_pow_right (by decide) hk
    _ = largest := hpow.symm

end OneMap

end V3C

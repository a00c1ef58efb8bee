import V3C.Atlas.AtlasSubStreamRoundTrip
import V3C.Syntax.TileHeaderBits

/-! The sizes in front of NAL units. The first pass measures all tile layers under one type, and
the header of a tile layer has a bit more under the type of an IDR frame. -/
namespace V3C
open Codec

namespace PCCBitstreamWriter

/-! ### Both passes over a unit -/

variable {M : Type} {others : SeiSyntax M} {sets : ActiveSets}

theorem atlasTileLayerRbsp_aligned (layer : AtlasTileLayerRbsp) (nalUnitType : ℕ) :
    Writer.Aligned (atlasTileLayerRbsp sets layer nalUnitType) := by
  unfold atlasTileLayerRbsp
  iterate 4
    apply Writer.Aligned.bind
    intro _
  exact byteAlignment_aligned

/-- Under two types, a tile layer differs in the bytes of its header alone. -/
theorem atlasTileLayerRbsp_lengths {layer : AtlasTileLayerRbsp} {nalUnitType nalUnitType' : ℕ}
    {bs bs' : List Bool} (h : atlasTileLayerRbsp sets layer nalUnitType 0 = some ((), bs))
    (h' : atlasTileLayerRbsp sets layer nalUnitType' 0 = some ((), bs')) :
    ∃ n, tileHeaderBits sets layer.header = some n ∧
      bs.length + 8 * (((isIrap nalUnitType').toNat + n) / 8) =
        bs'.length + 8 * (((isIrap nalUnitType).toNat + n) / 8) := by
  obtain ⟨⟨⟩, header, rest, hheader, hrest, rfl⟩ := Writer.bind_run_eq_some.mp h
  obtain ⟨⟨⟩, header', rest', hheader', hrest', rfl⟩ := Writer.bind_run_eq_some.mp h'
  obtain ⟨n, hn, hlength⟩ := atlasTileHeader_length hheader
  obtain ⟨n', hn', hlength'⟩ := atlasTileHeader_length hheader'
  obtain rfl : n = n' := Option.some.inj (hn ▸ hn')
  rw [hlength, advance_eight_mul] at hrest
  rw [hlength', advance_eight_mul] at hrest'
  obtain rfl : rest = rest' := (Prod.mk.inj (Option.some.inj (hrest ▸ hrest'))).2
  refine ⟨n, hn, ?_⟩
  rw [List.length_append, List.length_append, hlength, hlength']
  omega

theorem writeElements_sized (bytes : List ℕ) (n : ℕ) :
    Writer.Sized (writeElements bytes n) (8 * n) := by
  unfold writeElements
  split_ifs with hn
  · have htake := writeBytes_sized (bytes.take n)
    rwa [List.length_take, Nat.min_eq_left hn] at htake
  · exact fun _ _ h => nomatch h

theorem userDataUnregistered_sized (payloadSize : ℕ) (sei : SEIUserDataUnregistered) :
    Writer.Sized (userDataUnregistered payloadSize sei) (8 * payloadSize) := by
  by_cases hsize : 16 ≤ payloadSize
  · have hrest : Writer.Sized (do
        let rest ← Writer.ofOption (reducedSize payloadSize 16)
        writeElements sei.userDataPayloadByte rest) (8 * (payloadSize - 16)) := by
      unfold reducedSize
      rw [if_pos hsize, Writer.ofOption_some, pure_bind]
      exact writeElements_sized _ _
    have hall := (writeElements_sized sei.uuidIsoIec11578 16).bind hrest
    rwa [show 8 * 16 + 8 * (payloadSize - 16) = 8 * payloadSize by omega] at hall
  · intro p bs h
    obtain ⟨⟨⟩, _, _, -, h, -⟩ := Writer.bind_run_eq_some.mp h
    obtain ⟨rest, hrest, -⟩ := Writer.ofOption_bind_run_eq_some.mp h
    unfold reducedSize at hrest
    rw [if_neg hsize] at hrest
    cases hrest

section Messages

variable {messages : PCCSEI (SEI M)} {nalUnitType : ℕ} {sei passed : SEI M}

/-- A payload of the stored size leaves that size. -/
theorem passed_eq_of_sized (h : measuredSei others messages nalUnitType sei = some passed)
    (hsized : Writer.Sized (seiContent others messages nalUnitType sei) (8 * sei.payloadSize)) :
    passed = sei := by
  obtain ⟨⟨⟨⟩, bs⟩, hrun, rfl⟩ := Option.map_eq_some_iff.mp h
  obtain ⟨⟨⟩, payload, padding, hpayload, hpadding, rfl⟩ := Writer.bind_run_eq_some.mp hrun
  have hlength := hsized 0 payload hpayload
  rw [hlength, advance_eight_mul] at hpadding
  obtain ⟨-, rfl⟩ := Prod.mk.inj (Option.some.inj hpadding)
  have hsize : (payload ++ []).length / 8 = sei.payloadSize := by
    rw [List.append_nil, hlength]
    omega
  simp only [hsize]

/-- What is written of a message does not depend on whether a pass has been over it. -/
theorem seiContent_passed (h : measuredSei others messages nalUnitType sei = some passed) :
    seiContent others messages nalUnitType passed =
      seiContent others messages nalUnitType sei := by
  obtain ⟨payloadSize, content⟩ := sei
  cases content with
  | userDataUnregistered content =>
    rw [passed_eq_of_sized h (userDataUnregistered_sized payloadSize content)]
  | reservedSeiMessage payloadByte =>
    rw [passed_eq_of_sized h (writeElements_sized payloadByte payloadSize)]
  | _ =>
    obtain ⟨run, -, rfl⟩ := Option.map_eq_some_iff.mp h
    rfl

theorem seiMessage_passed (h : measuredSei others messages nalUnitType sei = some passed) :
    seiMessage others messages nalUnitType passed =
      seiMessage others messages nalUnitType sei := by
  have hpayload : seiPayload others messages nalUnitType passed =
      seiPayload others messages nalUnitType sei := by
    unfold seiPayload
    rw [seiContent_passed h]
  have hcontent : passed.content = sei.content := by
    obtain ⟨run, -, rfl⟩ := Option.map_eq_some_iff.mp h
    rfl
  have hmeasured : measuredSei others messages nalUnitType passed =
      measuredSei others messages nalUnitType sei := by
    rw [h]
    obtain ⟨run, hrun, rfl⟩ := Option.map_eq_some_iff.mp h
    unfold measuredSei
    rw [hpayload, hrun]
    rfl
  unfold seiMessage
  rw [hcontent, hmeasured]

end Messages

/-- A NAL unit of the second pass, the header in front of the payload. -/
def nalUnit (others : SeiSyntax M) (sets : ActiveSets) (unit : OutgoingUnit (SEI M)) :
    Writer Unit := do
  nalUnitHeader unit.1.type
  nalPayload others sets unit.2 unit.1

theorem nalUnitHeader_sized (nalUnitType : ℕ) : Writer.Sized (nalUnitHeader nalUnitType) 16 :=
  (Writer.Sized.write 0 1).bind ((Writer.Sized.write nalUnitType 6).bind
    ((Writer.Sized.write 0 6).bind (Writer.Sized.write 1 3)))

theorem length_nalUnit {unit : OutgoingUnit (SEI M)} {payload bs : List Bool}
    (hpayload : nalPayload others sets unit.2 unit.1 0 = some ((), payload))
    (h : nalUnit others sets unit 0 = some ((), bs)) : bs.length = payload.length + 16 := by
  obtain ⟨⟨⟩, header, payload', hheader, hpayload', rfl⟩ := Writer.bind_run_eq_some.mp h
  have hsixteen := nalUnitHeader_sized _ _ _ hheader
  rw [hsixteen] at hpayload'
  obtain rfl : payload = payload' := (Prod.mk.inj (Option.some.inj (hpayload ▸ hpayload'))).2
  rw [List.length_append, hsixteen, Nat.add_comm]

theorem exists_nalPayload {unit : OutgoingUnit (SEI M)} {bs : List Bool}
    (h : nalUnit others sets unit 0 = some ((), bs)) :
    ∃ payload, nalPayload others sets unit.2 unit.1 0 = some ((), payload) := by
  obtain ⟨⟨⟩, header, payload, hheader, hpayload, -⟩ := Writer.bind_run_eq_some.mp h
  rw [nalUnitHeader_sized _ _ _ hheader] at hpayload
  exact ⟨payload, hpayload⟩

/-- The header of a tile layer that is written as one of an IDR frame and measured as one of a
skipped frame takes a byte more than it has been measured with. -/
def Crosses (sets : ActiveSets) (nalUnitType : ℕ) (ath : AtlasTileHeader) : Prop :=
  nalUnitType = NAL_IDR_N_LP ∧ (tileHeaderBits sets ath).map (· % 8) = some 7

instance (sets : ActiveSets) (nalUnitType : ℕ) (ath : AtlasTileHeader) :
    Decidable (Crosses sets nalUnitType ath) := inferInstanceAs (Decidable (_ ∧ _))

/-- The bytes of a unit that the first pass does not find. -/
def excess (sets : ActiveSets) : NalPayload M → ℕ
  | .tileLayer nalUnitType layer => if Crosses sets nalUnitType layer.header then 1 else 0
  | _ => 0

theorem nalPayload_dvd {messages : PCCSEI (SEI M)} {payload : NalPayload (SEI M)} {bs : List Bool}
    (h : nalPayload others sets messages payload 0 = some ((), bs)) : 8 ∣ bs.length := by
  apply Writer.dvd_of_advance_eq_zero
  cases payload with
  | asps set => exact set.writer_aligned 0 bs h
  | afps set => exact set.writer_aligned sets 0 bs h
  | tileLayer nalUnitType layer => exact atlasTileLayerRbsp_aligned layer nalUnitType 0 bs h
  | sei nalUnitType sei => exact seiMessage_aligned sei 0 bs h
  | unsupported nalUnitType =>
    obtain ⟨-, rfl⟩ := Prod.mk.inj (Option.some.inj h)
    rfl

/-- The types of the tile layers among the units. -/
def NalPayload.Emitted : NalPayload M → Prop
  | .tileLayer nalUnitType _ => nalUnitType ∈ [NAL_TRAIL_R, NAL_TRAIL_N, NAL_IDR_N_LP]
  | _ => True

theorem isIrap_of_emitted {nalUnitType : ℕ}
    (h : nalUnitType ∈ [NAL_TRAIL_R, NAL_TRAIL_N, NAL_IDR_N_LP]) :
    isIrap nalUnitType = decide (nalUnitType = NAL_IDR_N_LP) := by
  simp only [List.mem_cons, List.not_mem_nil, or_false] at h
  rcases h with rfl | rfl | rfl <;> rfl

/-- The second pass over a unit against the first one. -/
theorem nalUnit_passed {unit unit' : OutgoingUnit (SEI M)} {first second : List Bool}
    (hemitted : NalPayload.Emitted unit.1) (hpassed : passed others unit = some unit')
    (hfirst : nalPayload others sets unit.2 (measured unit.1) 0 = some ((), first))
    (hsecond : nalUnit others sets unit' 0 = some ((), second)) :
    nalUnit others sets unit 0 = some ((), second) ∧
      second.length = first.length + 16 + 8 * excess sets unit.1 := by
  obtain ⟨payload, messages⟩ := unit
  cases payload with
  | asps set =>
    obtain rfl := Option.some.inj hpassed
    exact ⟨hsecond, length_nalUnit hfirst hsecond⟩
  | afps set =>
    obtain rfl := Option.some.inj hpassed
    exact ⟨hsecond, length_nalUnit hfirst hsecond⟩
  | unsupported nalUnitType =>
    obtain rfl := Option.some.inj hpassed
    exact ⟨hsecond, length_nalUnit hfirst hsecond⟩
  | sei nalUnitType sei =>
    obtain ⟨passed, hsei, rfl⟩ := Option.map_eq_some_iff.mp hpassed
    have hsame : nalUnit others sets (.sei nalUnitType passed, messages) =
        nalUnit others sets (.sei nalUnitType sei, messages) :=
      congrArg (fun message => nalUnitHeader nalUnitType >>= fun _ => message)
        (seiMessage_passed hsei)
    rw [hsame] at hsecond
    exact ⟨hsecond, length_nalUnit hfirst hsecond⟩
  | tileLayer nalUnitType layer =>
    obtain rfl := Option.some.inj hpassed
    obtain ⟨bs, hbs⟩ := exists_nalPayload hsecond
    obtain ⟨n, hn, hlengths⟩ := atlasTileLayerRbsp_lengths hbs hfirst
    have hskip : isIrap NAL_SKIP_R = false := rfl
    have hcrosses : Crosses sets nalUnitType layer.header ↔
        nalUnitType = NAL_IDR_N_LP ∧ n % 8 = 7 := by
      unfold Crosses
      rw [hn, Option.map_some, Option.some.injEq]
    refine ⟨hsecond, ?_⟩
    rw [length_nalUnit hbs hsecond]
    rw [hskip, isIrap_of_emitted hemitted] at hlengths
    change _ = _ + 8 * if Crosses sets nalUnitType layer.header then 1 else 0
    simp only [hcrosses]
    by_cases hidr : nalUnitType = NAL_IDR_N_LP
    · simp only [hidr, decide_true, Bool.toNat_true, Bool.toNat_false, true_and] at hlengths ⊢
      split_ifs <;> omega
    · simp only [hidr, decide_false, Bool.toNat_false, false_and, if_false] at hlengths ⊢
      omega

/-! ### The stream -/

end PCCBitstreamWriter

/-- A NAL unit in the stream, and the size that it has been given. -/
structure WrittenUnit where
  size : ℕ
  bits : List Bool

namespace WrittenUnit

/-- The bits of a unit behind those of its size. -/
def sized (sizePrecisionBytesMinus1 : ℕ) (nal : WrittenUnit) : List Bool :=
  bitsOfNat (8 * (sizePrecisionBytesMinus1 + 1)) nal.size ++ nal.bits

end WrittenUnit

/-- What the two passes do with a unit. -/
structure WrittenUnit.Passes (others : SeiSyntax M) (sets : ActiveSets) (unit : OutgoingUnit (SEI M))
    (nal : WrittenUnit) : Prop where
  bits : PCCBitstreamWriter.nalUnit others sets unit 0 = some ((), nal.bits)
  size : ∃ bytes, nal.size = bytes % 2 ^ 32 ∧
    nal.bits.length = 8 * (bytes + PCCBitstreamWriter.excess sets unit.1)

namespace PCCBitstreamWriter

/-- The units of the second pass, each with the size from the first one. -/
def writtenUnits (others : SeiSyntax M) (sets : ActiveSets) :
    List (OutgoingUnit (SEI M)) → List ℕ → Option (List WrittenUnit)
  | unit :: units, size :: sizes => do
    let unit ← passed others unit
    let run ← nalUnit others sets unit 0
    let nals ← writtenUnits others sets units sizes
    some (⟨size, run.2⟩ :: nals)
  | _, _ => some []

theorem eq_bitsOfNat_of_write {value n : ℕ} {p : Phase} {bs : List Bool}
    (h : write value n p = some ((), bs)) : bs = bitsOfNat n value := by
  unfold write at h
  split_ifs at h
  · exact (Prod.mk.inj (Option.some.inj h)).2.symm
  · cases h

/-- A unit behind its size, against what the first pass finds of it. -/
theorem exists_second {sizePrecisionBytesMinus1 size : ℕ} (hthree : sizePrecisionBytesMinus1 ≤ 3)
    {unit unit' : OutgoingUnit (SEI M)} {first own : List Bool}
    (hemitted : NalPayload.Emitted unit.1) (hpassed : passed others unit = some unit')
    (hfirst : nalPayload others sets unit.2 (measured unit.1) 0 = some ((), first))
    (h : sampleStreamNalUnit others sets sizePrecisionBytesMinus1 (unit', size) 0 =
      some ((), own)) :
    ∃ second, nalUnit others sets unit' 0 = some ((), second) ∧
      own = WrittenUnit.sized sizePrecisionBytesMinus1 ⟨size, second⟩ ∧
      advance 0 own.length = 0 ∧ nalUnit others sets unit 0 = some ((), second) ∧
      second.length = first.length + 16 + 8 * excess sets unit.1 := by
  obtain ⟨⟨⟩, field, second, hfield, hsecond, rfl⟩ := Writer.bind_run_eq_some.mp h
  have hwidth : 8 * (sizePrecisionBytesMinus1 + 1) % 2 ^ 8 =
      8 * (sizePrecisionBytesMinus1 + 1) := by omega
  rw [hwidth] at hfield
  have hlength := Writer.Sized.write _ _ _ _ hfield
  rw [hlength, advance_eight_mul] at hsecond
  obtain ⟨k, hk⟩ := nalPayload_dvd hfirst
  obtain ⟨hunit, hexcess⟩ := nalUnit_passed hemitted hpassed hfirst hsecond
  refine ⟨second, hsecond, ?_, ?_, hunit, hexcess⟩
  · rw [eq_bitsOfNat_of_write hfield, WrittenUnit.sized]
  · have hbytes : (field ++ second).length =
        8 * (sizePrecisionBytesMinus1 + 1 + k + 2 + excess sets unit.1) := by
      rw [List.length_append, hlength, hexcess, hk]
      ring
    rw [hbytes, advance_eight_mul]

/-- Both passes start a unit at a whole byte. -/
theorem exists_writtenUnits {sizePrecisionBytesMinus1 : ℕ} (hthree : sizePrecisionBytesMinus1 ≤ 3)
    {units units' : List (OutgoingUnit (SEI M))}
    (hemitted : ∀ unit ∈ units, NalPayload.Emitted unit.1)
    (hpassed : units.mapM (passed others) = some units') :
    ∀ {position : ℕ} {sizes : List ℕ} {bs : List Bool}, 8 ∣ position →
      unitSizes others sets position units = some sizes →
      Writer.forEach (units'.zip sizes)
        (sampleStreamNalUnit others sets sizePrecisionBytesMinus1) 0 = some ((), bs) →
      ∃ nals, writtenUnits others sets units sizes = some nals ∧
        bs = nals.flatMap (WrittenUnit.sized sizePrecisionBytesMinus1) ∧
        nals.map WrittenUnit.size = sizes ∧ List.Forall₂ (WrittenUnit.Passes others sets) units nals := by
  induction units generalizing units' with
  | nil =>
    intro position sizes bs _ hsizes hwrite
    obtain rfl := Option.some.inj hpassed
    obtain rfl := Option.some.inj hsizes
    obtain ⟨-, rfl⟩ := Prod.mk.inj (Option.some.inj hwrite)
    exact ⟨[], rfl, rfl, rfl, .nil⟩
  | cons unit units ih =>
    intro position sizes bs hposition hsizes hwrite
    rw [List.mapM_cons] at hpassed
    obtain ⟨unit', hunit', hpassed⟩ := Option.bind_eq_some_iff.mp hpassed
    obtain ⟨units', hunits', hpassed⟩ := Option.bind_eq_some_iff.mp hpassed
    obtain rfl := Option.some.inj hpassed
    obtain ⟨⟨⟨⟩, first⟩, hfirst, hsizes⟩ := Option.bind_eq_some_iff.mp hsizes
    obtain ⟨rest, hrest, hsizes⟩ := Option.bind_eq_some_iff.mp hsizes
    obtain rfl := Option.some.inj hsizes
    obtain ⟨j, rfl⟩ := hposition
    rw [advance_eight_mul] at hfirst
    obtain ⟨k, hk⟩ := nalPayload_dvd hfirst
    have hsize : ((8 * j + first.length) / 8 - 8 * j / 8 + nalHeaderSize) % 2 ^ 32 =
        (k + 2) % 2 ^ 32 := by
      rw [hk, nalHeaderSize]
      congr 1
      omega
    dsimp only at hrest hwrite ⊢
    rw [hsize] at hwrite ⊢
    obtain ⟨⟨⟩, own, others', hown, hothers, rfl⟩ := Writer.bind_run_eq_some.mp hwrite
    obtain ⟨second, hsecond, rfl, hphase, hunit, hexcess⟩ :=
      exists_second hthree (hemitted unit List.mem_cons_self) hunit' hfirst hown
    rw [hphase] at hothers
    obtain ⟨nals, hnals, rfl, hsizes, hall⟩ := ih
      (fun other hother => hemitted other (List.mem_cons_of_mem unit hother)) hunits'
      (Nat.dvd_add (Nat.dvd_mul_right 8 j) ⟨k, hk⟩) hrest hothers
    refine ⟨⟨(k + 2) % 2 ^ 32, second⟩ :: nals, ?_, rfl, ?_, .cons ⟨hunit, k + 2, rfl, ?_⟩ hall⟩
    · rw [writtenUnits, hunit', Option.bind_eq_bind, Option.bind_some, hsecond,
        Option.bind_eq_bind, Option.bind_some, hnals, Option.bind_eq_bind, Option.bind_some]
    · rw [List.map_cons, hsizes]
    · dsimp only
      rw [hexcess, hk]
      ring

theorem sizePrecisionBytesMinus1_le (sizes : List ℕ) : sizePrecisionBytesMinus1 sizes ≤ 3 := by
  have hlt : (sizes.foldl max 0 + 1) % 2 ^ 32 < 2 ^ 32 := Nat.mod_lt _ (Nat.two_pow_pos 32)
  have hfour := (sizePrecision_le_iff (show 0 < 4 by decide) hlt).mpr (by
    rw [show (256 : ℕ) ^ 4 = 2 ^ 32 by decide]
    exact hlt.le)
  unfold sizePrecisionBytesMinus1
  omega

/-- One more than the largest size of all wraps, and a single byte is left for it. -/
theorem sizePrecisionBytesMinus1_full {sizes : List ℕ} (hlt : ∀ size ∈ sizes, size < 2 ^ 32)
    (hmem : 2 ^ 32 - 1 ∈ sizes) : sizePrecisionBytesMinus1 sizes = 0 := by
  have hmax : sizes.foldl max 0 < 2 ^ 32 := foldl_max_lt (Nat.two_pow_pos 32) hlt
  have hle : 2 ^ 32 - 1 ≤ sizes.foldl max 0 := le_foldl_max (Or.inr hmem)
  have hwraps : (sizes.foldl max 0 + 1) % 2 ^ 32 = 0 := by omega
  unfold sizePrecisionBytesMinus1
  rw [hwraps]
  rfl

theorem exists_layer_of_mem {data : AtlasData (SEI M)} {nalUnitType : ℕ}
    {layer : AtlasTileLayerRbsp} {messages : PCCSEI (SEI M)}
    (h : (.tileLayer nalUnitType layer, messages) ∈ outgoingUnits data) :
    ∃ own ∈ data.atlasTileLayer, nalUnitType = naluType own.rbsp.header ∧
      layer.header = own.rbsp.header := by
  unfold outgoingUnits tileLayerUnits at h
  simp only [List.mem_append, List.mem_map, List.mem_flatMap, Prod.mk.injEq, reduceCtorEq,
    false_and, and_false, exists_false, false_or] at h
  obtain ⟨⟨own, atglIndex⟩, hown, payload, hpayload, rfl, -⟩ := h
  rcases hpayload with (⟨_, _, h⟩ | h) | ⟨_, _, h⟩
  · cases h
  · obtain ⟨rfl, rfl⟩ := NalPayload.tileLayer.inj (List.mem_singleton.mp h)
    exact ⟨own, List.fst_mem_of_mem_zipIdx hown, rfl, rfl⟩
  · cases h

theorem exists_mem_outgoingUnits {data : AtlasData (SEI M)} {own : AtlasTileLayer (SEI M)}
    (h : own ∈ data.atlasTileLayer) :
    ∃ layer messages, (.tileLayer (naluType own.rbsp.header) layer, messages) ∈
      outgoingUnits data ∧ layer.header = own.rbsp.header := by
  obtain ⟨atglIndex, hatgl⟩ := List.mem_iff_getElem?.mp h
  refine ⟨{ own.rbsp with dataUnit := { own.rbsp.dataUnit with tileOrder := atglIndex } }, own.sei,
    List.mem_append_right _ (List.mem_flatMap.mpr ⟨(own, atglIndex),
      List.mem_zipIdx_iff_getElem?.mpr hatgl, List.mem_map.mpr ⟨_, ?_, rfl⟩⟩), rfl⟩
  exact List.mem_append_left _ (List.mem_append_right _ (List.mem_singleton_self _))

theorem emitted_of_mem (data : AtlasData (SEI M)) :
    ∀ unit ∈ outgoingUnits data, NalPayload.Emitted unit.1 := by
  rintro ⟨payload, messages⟩ hunit
  cases payload with
  | tileLayer nalUnitType layer =>
    obtain ⟨own, -, rfl, -⟩ := exists_layer_of_mem hunit
    exact naluType_mem own.rbsp.header
  | _ => trivial

/-- The stream of an atlas is the precision, and behind it the units. -/
theorem exists_stream {data : AtlasData (SEI M)} {bs : List Bool}
    (h : atlasSubStream others data 0 = some ((), bs)) :
    ∃ sizes nals, unitSizes others data.highLevelSyntax.byPosition 0 (outgoingUnits data) =
        some sizes ∧
      writtenUnits others data.highLevelSyntax.byPosition (outgoingUnits data) sizes = some nals ∧
      bs = bitsOfNat 3 (sizePrecisionBytesMinus1 sizes) ++ (bitsOfNat 5 0 ++
        nals.flatMap (WrittenUnit.sized (sizePrecisionBytesMinus1 sizes))) ∧
      nals.map WrittenUnit.size = sizes ∧
      List.Forall₂ (WrittenUnit.Passes others data.highLevelSyntax.byPosition) (outgoingUnits data) nals := by
  obtain ⟨sizes, hsizes, h⟩ := Writer.ofOption_bind_run_eq_some.mp h
  obtain ⟨units, hunits, h⟩ := Writer.ofOption_bind_run_eq_some.mp h
  obtain ⟨⟨⟩, first, _, hfirst, hrest, rfl⟩ := Writer.bind_run_eq_some.mp h
  obtain ⟨⟨⟩, zeros, stream, hzeros, hstream, rfl⟩ := Writer.bind_run_eq_some.mp hrest
  have hthree := Writer.Sized.write _ _ _ _ hfirst
  have hfive := Writer.Sized.write _ _ _ _ hzeros
  have hphase : advance (advance 0 first.length) zeros.length = 0 := by
    rw [hthree, hfive]
    rfl
  rw [hphase] at hstream
  obtain ⟨nals, hnals, rfl, hmap, hall⟩ := exists_writtenUnits (sizePrecisionBytesMinus1_le sizes)
    (emitted_of_mem data) hunits (Nat.dvd_zero 8) hsizes hstream
  exact ⟨sizes, nals, hsizes, hnals, by
    rw [eq_bitsOfNat_of_write hfirst, eq_bitsOfNat_of_write hzeros], hmap, hall⟩

end PCCBitstreamWriter

/-! ### Skipping units by their sizes -/

variable {M : Type} {others : SeiSyntax M} {sets : ActiveSets}

/-- Where a reader is in front of each of the next units and behind them, when it takes the size
of a unit and goes over as many bytes. -/
def skipUnits (width : ℕ) (bs : List Bool) : ℕ → ℕ → List ℕ
  | 0, position => [position]
  | n + 1, position =>
    position :: skipUnits width bs n
      (position + width + 8 * natOfBits ((bs.drop position).take width))

/-- The boundaries of units that stand one behind the other. -/
def unitBoundaries (sizePrecisionBytesMinus1 : ℕ) : ℕ → List WrittenUnit → List ℕ
  | position, [] => [position]
  | position, nal :: nals => position :: unitBoundaries sizePrecisionBytesMinus1
      (position + (nal.sized sizePrecisionBytesMinus1).length) nals

/-- Every size field is the number of bytes of its unit and fits into the bytes that sizes have,
and a reader that goes by these fields stops at every boundary. -/
structure NalUnitsFramed (sizePrecisionBytesMinus1 : ℕ) (nals : List WrittenUnit)
    (bs : List Bool) : Prop where
  stream : bs = bitsOfNat 3 sizePrecisionBytesMinus1 ++ (bitsOfNat 5 0 ++
    nals.flatMap (WrittenUnit.sized sizePrecisionBytesMinus1))
  size_eq : ∀ nal ∈ nals, 8 * nal.size = nal.bits.length
  size_lt : ∀ nal ∈ nals, nal.size < 2 ^ (8 * (sizePrecisionBytesMinus1 + 1))
  lands : skipUnits (8 * (natOfBits (bs.take 3) + 1)) bs nals.length 8 =
    unitBoundaries sizePrecisionBytesMinus1 8 nals

open PCCBitstreamWriter

theorem skipUnits_eq {sizePrecisionBytesMinus1 : ℕ} {nals : List WrittenUnit}
    (heq : ∀ nal ∈ nals, 8 * nal.size = nal.bits.length)
    (hlt : ∀ nal ∈ nals, nal.size < 2 ^ (8 * (sizePrecisionBytesMinus1 + 1))) :
    ∀ before : List Bool, skipUnits (8 * (sizePrecisionBytesMinus1 + 1))
        (before ++ nals.flatMap (WrittenUnit.sized sizePrecisionBytesMinus1)) nals.length
        before.length =
      unitBoundaries sizePrecisionBytesMinus1 before.length nals := by
  induction nals with
  | nil => exact fun _ => rfl
  | cons nal nals ih =>
    intro before
    have hrest := ih (fun other hother => heq other (List.mem_cons_of_mem nal hother))
      (fun other hother => hlt other (List.mem_cons_of_mem nal hother))
      (before ++ nal.sized sizePrecisionBytesMinus1)
    have hfield : natOfBits (((before ++ (nal :: nals).flatMap
        (WrittenUnit.sized sizePrecisionBytesMinus1)).drop before.length).take
          (8 * (sizePrecisionBytesMinus1 + 1))) = nal.size := by
      rw [List.drop_left, List.flatMap_cons, WrittenUnit.sized, List.append_assoc,
        List.take_left' (length_bitsOfNat _ _),
        natOfBits_bitsOfNat_of_lt (hlt nal List.mem_cons_self)]
    have hnext : before.length + 8 * (sizePrecisionBytesMinus1 + 1) + 8 * nal.size =
        (before ++ nal.sized sizePrecisionBytesMinus1).length := by
      rw [heq nal List.mem_cons_self, List.length_append, WrittenUnit.sized, List.length_append,
        length_bitsOfNat, Nat.add_assoc]
    rw [List.length_cons, skipUnits, unitBoundaries, hfield, hnext, ← List.length_append,
      List.flatMap_cons, ← List.append_assoc, hrest]

/-- The framing of what both passes make of an atlas. -/
def AtlasData.Framed (others : SeiSyntax M) (data : AtlasData (SEI M)) (bs : List Bool) : Prop :=
  ∃ sizes nals, unitSizes others data.highLevelSyntax.byPosition 0 (outgoingUnits data) =
      some sizes ∧
    writtenUnits others data.highLevelSyntax.byPosition (outgoingUnits data) sizes = some nals ∧
    NalUnitsFramed (sizePrecisionBytesMinus1 sizes) nals bs

/-- No unit has as many bytes as its size and the one above it, in a `uint32_t`, can count. -/
def AtlasData.UnitsShort (others : SeiSyntax M) (data : AtlasData (SEI M)) : Prop :=
  ∀ unit ∈ outgoingUnits data, ∀ nal,
    nalUnit others data.highLevelSyntax.byPosition unit 0 = some ((), nal) →
      nal.length < 8 * (2 ^ 32 - 1)

theorem WrittenUnit.Passes.size_eq_iff {unit : OutgoingUnit (SEI M)} {nal : WrittenUnit}
    (h : WrittenUnit.Passes others sets unit nal) :
    8 * nal.size = nal.bits.length ↔ excess sets unit.1 = 0 ∧ nal.bits.length < 8 * 2 ^ 32 := by
  obtain ⟨bytes, hsize, hlength⟩ := h.size
  rw [hsize, hlength]
  constructor
  · intro heq
    have hle := Nat.mod_le bytes (2 ^ 32)
    have hlt := Nat.mod_lt bytes (Nat.two_pow_pos 32)
    omega
  · rintro ⟨hexcess, hlt⟩
    rw [hexcess, Nat.mod_eq_of_lt (by omega), Nat.add_zero]

theorem excess_eq_zero {data : AtlasData (SEI M)} {unit : OutgoingUnit (SEI M)}
    (h : ∀ layer ∈ data.atlasTileLayer, ¬Crosses sets (naluType layer.rbsp.header)
      layer.rbsp.header) (hunit : unit ∈ outgoingUnits data) : excess sets unit.1 = 0 := by
  obtain ⟨payload, messages⟩ := unit
  cases payload with
  | tileLayer nalUnitType layer =>
    obtain ⟨own, hown, rfl, hheader⟩ := exists_layer_of_mem hunit
    have hcrosses := h own hown
    rw [← hheader] at hcrosses
    exact if_neg (hheader ▸ hcrosses)
  | _ => rfl

/-- The sizes in a stream of NAL units are those of the units where no tile layer of an IDR frame
has a header that goes into another byte by its first flag, and no unit is too long. -/
theorem nalUnitsFramed_iff {data : AtlasData (SEI M)} {bs : List Bool}
    (h : atlasSubStream others data 0 = some ((), bs)) :
    data.Framed others bs ↔
      (∀ layer ∈ data.atlasTileLayer, ¬Crosses data.highLevelSyntax.byPosition
        (naluType layer.rbsp.header) layer.rbsp.header) ∧ data.UnitsShort others := by
  obtain ⟨sizes, nals, hsizes, hnals, hstream, hmap, hall⟩ := exists_stream h
  have hframed : data.Framed others bs ↔ NalUnitsFramed (sizePrecisionBytesMinus1 sizes) nals bs := by
    constructor
    · rintro ⟨sizes', nals', hsizes', hnals', hframed⟩
      obtain rfl := Option.some.inj (hsizes ▸ hsizes')
      obtain rfl := Option.some.inj (hnals ▸ hnals')
      exact hframed
    · exact fun hframed => ⟨sizes, nals, hsizes, hnals, hframed⟩
  rw [hframed]
  constructor
  · intro hframed
    have hunits : ∀ unit ∈ outgoingUnits data, ∃ nal ∈ nals,
        WrittenUnit.Passes others data.highLevelSyntax.byPosition unit nal ∧
        excess data.highLevelSyntax.byPosition unit.1 = 0 ∧ nal.bits.length < 8 * 2 ^ 32 := by
      intro unit hunit
      obtain ⟨nal, hnal, hpasses⟩ := exists_right_of_forall₂ hall hunit
      exact ⟨nal, hnal, hpasses, hpasses.size_eq_iff.mp (hframed.size_eq nal hnal)⟩
    have hlts : ∀ size ∈ sizes, size < 2 ^ 32 := by
      intro size hsize
      rw [← hmap] at hsize
      obtain ⟨nal, hnal, rfl⟩ := List.mem_map.mp hsize
      obtain ⟨unit, -, hpasses⟩ := exists_left_of_forall₂ hall hnal
      obtain ⟨bytes, hbytes, -⟩ := hpasses.size
      rw [hbytes]
      exact Nat.mod_lt _ (Nat.two_pow_pos 32)
    refine ⟨fun own hown hcrosses => ?_, fun unit hunit bits hbits => ?_⟩
    · obtain ⟨layer, messages, hmem, hheader⟩ := exists_mem_outgoingUnits hown
      obtain ⟨-, -, -, hexcess, -⟩ := hunits _ hmem
      rw [← hheader] at hcrosses
      exact absurd (hexcess.symm.trans (if_pos (hheader ▸ hcrosses))) Nat.zero_ne_one
    · obtain ⟨nal, hnal, hpasses, -, hlt⟩ := hunits unit hunit
      obtain rfl : nal.bits = bits := (Prod.mk.inj (Option.some.inj (hpasses.bits ▸ hbits))).2
      have hsize := hframed.size_eq nal hnal
      by_contra hlong
      have hmem : 2 ^ 32 - 1 ∈ sizes := by
        rw [← hmap, show 2 ^ 32 - 1 = nal.size by omega]
        exact List.mem_map_of_mem hnal
      have hfits := hframed.size_lt nal hnal
      rw [sizePrecisionBytesMinus1_full hlts hmem] at hfits
      omega
  · rintro ⟨hcrosses, hshort⟩
    have hsize : ∀ nal ∈ nals, 8 * nal.size = nal.bits.length ∧ nal.size + 1 < 2 ^ 32 := by
      intro nal hnal
      obtain ⟨unit, hunit, hpasses⟩ := exists_left_of_forall₂ hall hnal
      have hlt := hshort unit hunit nal.bits hpasses.bits
      have heq := hpasses.size_eq_iff.mpr ⟨excess_eq_zero hcrosses hunit, by omega⟩
      omega
    have hsmall : ∀ size ∈ sizes, size + 1 < 2 ^ 32 := by
      intro size hmem
      rw [← hmap] at hmem
      obtain ⟨nal, hnal, rfl⟩ := List.mem_map.mp hmem
      exact (hsize nal hnal).2
    have hfits := (sizePrecisionBytesMinus1_spec hsmall).2
    have hlt : ∀ nal ∈ nals, nal.size < 2 ^ (8 * (sizePrecisionBytesMinus1 sizes + 1)) :=
      fun nal hnal => hfits nal.size (hmap ▸ List.mem_map_of_mem hnal)
    refine ⟨hstream, fun nal hnal => (hsize nal hnal).1, hlt, ?_⟩
    have hprecision : natOfBits (bs.take 3) = sizePrecisionBytesMinus1 sizes := by
      have hthree := sizePrecisionBytesMinus1_le sizes
      rw [hstream, List.take_left' (length_bitsOfNat _ _), natOfBits_bitsOfNat_of_lt (by omega)]
    rw [hprecision, hstream, ← List.append_assoc]
    exact skipUnits_eq (fun nal hnal => (hsize nal hnal).1) hlt _

theorem unitsShort_skipTiles : skipTiles.UnitsShort noOtherMessages := by
  have hshort : ∀ unit ∈ outgoingUnits skipTiles, (nalUnit noOtherMessages
      skipTiles.highLevelSyntax.byPosition unit 0).all
        (fun run => run.2.length < 8 * (2 ^ 32 - 1)) = true := by
    decide +kernel
  intro unit hunit nal hnal
  have hunit := hshort unit hunit
  rw [hnal] at hunit
  exact of_decide_eq_true hunit

/-- Seven units, three of which are messages. -/
theorem nalUnitsFramed_skipTiles :
    ∃ bs, atlasSubStream noOtherMessages skipTiles 0 = some ((), bs) ∧
      skipTiles.Framed noOtherMessages bs := by
  have hsome : (atlasSubStream noOtherMessages skipTiles 0).isSome = true := by decide +kernel
  obtain ⟨⟨⟨⟩, bs⟩, hbs⟩ := Option.isSome_iff_exists.mp hsome
  refine ⟨bs, hbs, (nalUnitsFramed_iff hbs).mpr ⟨?_, unitsShort_skipTiles⟩⟩
  decide +kernel

/-- An order count of seven bits makes the header fifteen bits long. -/
def fifteenBits : AtlasData (SEI Empty) where
  atlasSequenceParameterSet := [{ plrSet [{ fillingFlag := true }, {}] with
    log2MaxAtlasFrameOrderCntLsbMinus4 := 3 }]
  atlasFrameParameterSet := [fourTiles]
  atlasTileLayer := [{ rbsp := skipTileLayer }]

/-- The size of the tile layer is five, and its bytes are six. -/
theorem not_nalUnitsFramed :
    ∃ bs, atlasSubStream noOtherMessages fifteenBits 0 = some ((), bs) ∧
      ¬fifteenBits.Framed noOtherMessages bs := by
  have hsome : (atlasSubStream noOtherMessages fifteenBits 0).isSome = true := by decide +kernel
  have hsizes : unitSizes noOtherMessages fifteenBits.highLevelSyntax.byPosition 0
      (outgoingUnits fifteenBits) = some [13, 4, 5] := by decide +kernel
  have hnals : (writtenUnits noOtherMessages fifteenBits.highLevelSyntax.byPosition
      (outgoingUnits fifteenBits) [13, 4, 5]).map (List.map fun nal =>
        (nal.size, nal.bits.length)) = some [(13, 104), (4, 32), (5, 48)] := by decide +kernel
  obtain ⟨⟨⟨⟩, bs⟩, hbs⟩ := Option.isSome_iff_exists.mp hsome
  refine ⟨bs, hbs, ?_⟩
  rintro ⟨sizes, nals, hsizes', hnals', hframed⟩
  obtain rfl := Option.some.inj (hsizes ▸ hsizes')
  rw [hnals', Option.map_some, Option.some.injEq] at hnals
  have hlast : (5, 48) ∈ nals.map fun nal => (nal.size, nal.bits.length) := by
    rw [hnals]
    decide
  obtain ⟨nal, hnal, hpair⟩ := List.mem_map.mp hlast
  obtain ⟨hsize, hlength⟩ := Prod.mk.inj hpair
  have heq := hframed.size_eq nal hnal
  omega

end V3C

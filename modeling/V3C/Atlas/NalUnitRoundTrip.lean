import V3C.Atlas.SeiRoundTrip
import V3C.Atlas.TileLayerRoundTrip

/-! Streams of NAL units: units that come back one by one come back from a stream, behind sizes
that the reader does not depend on. -/
namespace V3C
open Codec

/-! ### Messages -/

theorem ffLoop_roundTrip (value : ℕ) : ∀ {fuel acc : ℕ}, value / 255 < fuel →
    acc + value < 2 ^ 31 → RoundTrip (PCCBitstreamWriter.ffCoded value) (PCCBitstreamReader.ffLoop fuel acc)
      (acc + value) := by
  induction value using Nat.strong_induction_on with
  | _ value ih =>
    intro fuel acc hfuel hlt
    obtain ⟨fuel, rfl⟩ := Nat.exists_eq_succ_of_ne_zero (Nat.ne_of_gt (Nat.zero_lt_of_lt hfuel))
    unfold PCCBitstreamWriter.ffCoded PCCBitstreamReader.ffLoop
    split_ifs with hlarge
    · apply (RoundTrip.write (show 255 < 2 ^ 8 by omega) (by omega)).bind
      rw [if_neg (by omega), if_pos rfl]
      have hrest := @ih (value - 255) (by omega) fuel (acc + 255) (by omega) (by omega)
      rwa [show acc + 255 + (value - 255) = acc + value by omega] at hrest
    · apply (RoundTrip.write (show value < 2 ^ 8 by omega) (by omega)).then_pure
      rw [if_neg (by omega), if_neg (by omega)]
      exact RoundTrip.pure _

/-- A coded number has a byte for every 255 in it, and one more. -/
theorem length_ffCoded (value : ℕ) : ∀ {p : Phase} {bs : List Bool},
    PCCBitstreamWriter.ffCoded value p = some ((), bs) → value / 255 < bs.length := by
  induction value using Nat.strong_induction_on with
  | _ value ih =>
    intro p bs h
    unfold PCCBitstreamWriter.ffCoded at h
    split_ifs at h with hlarge
    · obtain ⟨⟨⟩, first, others, hfirst, hothers, rfl⟩ := Writer.bind_run_eq_some.mp h
      have hone := Writer.Sized.write 255 8 p first hfirst
      have hrest := ih (value - 255) (by omega) hothers
      rw [List.length_append]
      omega
    · have hone := Writer.Sized.write value 8 p bs h
      omega

theorem ffCoded_roundTrip {value : ℕ} (h : value < 2 ^ 31) :
    RoundTrip (PCCBitstreamWriter.ffCoded value) PCCBitstreamReader.ffCoded value := by
  have hlt : 0 + value < 2 ^ 31 := by omega
  intro p
  obtain ⟨bs, hwrite, -⟩ := @ffLoop_roundTrip value _ 0 (Nat.lt_succ_self _) hlt p
  have hlength := length_ffCoded value hwrite
  refine ⟨bs, hwrite, fun rest => ?_⟩
  have hfuel : value / 255 < (bs ++ rest).length := by
    rw [List.length_append]
    omega
  have hread := (@ffLoop_roundTrip value _ 0 hfuel hlt).read_of_write hwrite rest
  rw [Nat.zero_add] at hread
  exact Reader.bind_run_eq_some.mpr ⟨_, _, rfl, hread⟩

variable {M : Type} {others : SeiSyntax M}

/-- A message that no pass has been over, of a payload type that is written alike in all of them,
with a payload below 2^31 bytes. -/
structure SEI.Coded (others : SeiSyntax M) (messages : PCCSEI (SEI M)) (nalUnitType : ℕ)
    (sei : SEI M) : Prop where
  payloadSize : sei.payloadSize = 0
  content : sei.content.Coded nalUnitType
  small : ∀ passed, PCCBitstreamWriter.measuredSei others messages nalUnitType sei = some passed →
    passed.payloadSize < 2 ^ 31

section Messages

variable {messages : PCCSEI (SEI M)} {nalUnitType : ℕ} {before : List (SEI M)}

theorem PayloadComesBack.seiPayload_roundTrip {content : SeiContent M} {type size : ℕ}
    (h : PayloadComesBack others messages nalUnitType before content type size) :
    RoundTrip (PCCBitstreamWriter.seiPayload others messages nalUnitType ⟨0, content⟩)
      (PCCBitstreamReader.seiPayload others before nalUnitType type size) ⟨0, content⟩ := by
  unfold PCCBitstreamWriter.seiPayload PCCBitstreamReader.seiPayload
  apply h.roundTrip.bind
  exact payloadAlignment_roundTrip.last rfl

theorem PayloadComesBack.seiPayload_eq {content : SeiContent M} {type size : ℕ}
    (h : PayloadComesBack others messages nalUnitType before content type size) {payloadSize : ℕ}
    (hsize : payloadSize = 0 ∨ payloadSize = size) :
    PCCBitstreamWriter.seiPayload others messages nalUnitType ⟨payloadSize, content⟩ =
      PCCBitstreamWriter.seiPayload others messages nalUnitType ⟨0, content⟩ := by
  rcases hsize with rfl | rfl
  · rfl
  · unfold PCCBitstreamWriter.seiPayload
    rw [h.same]

/-- Both passes find the same size. -/
theorem PayloadComesBack.measuredSei_eq {content : SeiContent M} {type size : ℕ}
    (h : PayloadComesBack others messages nalUnitType before content type size) {payloadSize : ℕ}
    (hsize : payloadSize = 0 ∨ payloadSize = size) :
    PCCBitstreamWriter.measuredSei others messages nalUnitType ⟨payloadSize, content⟩ =
      some ⟨size, content⟩ := by
  obtain ⟨bs, hbs, hlength⟩ := h.measured
  unfold PCCBitstreamWriter.measuredSei
  rw [h.seiPayload_eq hsize, hbs, Option.map_some, hlength]

theorem PayloadComesBack.seiMessage_roundTrip {content : SeiContent M} {type size : ℕ}
    (h : PayloadComesBack others messages nalUnitType before content type size)
    (hsmall : size < 2 ^ 31) {payloadSize : ℕ} (hsize : payloadSize = 0 ∨ payloadSize = size) :
    RoundTrip (PCCBitstreamWriter.seiMessage others messages nalUnitType ⟨payloadSize, content⟩)
      (PCCBitstreamReader.seiMessage (PCCBitstreamReader.seiPayload others) before nalUnitType)
      ⟨0, content⟩ := by
  unfold PCCBitstreamWriter.seiMessage PCCBitstreamReader.seiMessage
  rw [h.payloadType, Writer.ofOption_some, pure_bind]
  apply (ffCoded_roundTrip h.type_lt).bind
  rw [h.measuredSei_eq hsize, Writer.ofOption_some, pure_bind, if_pos hsmall]
  apply (ffCoded_roundTrip hsmall).bind
  rw [h.seiPayload_eq (Or.inr rfl)]
  exact h.seiPayload_roundTrip

theorem seiMessage_aligned (sei : SEI M) :
    Writer.Aligned (PCCBitstreamWriter.seiMessage others messages nalUnitType sei) := by
  unfold PCCBitstreamWriter.seiMessage
  iterate 3
    apply Writer.Aligned.bind
    intro _
  split_ifs with hsmall
  · apply Writer.Aligned.bind
    intro _
    exact seiPayload_aligned _
  · exact fun _ _ h => nomatch h

/-- The first pass leaves the size of the payload in the message, and what the second one writes
of it is read back without. -/
theorem SEI.Coded.exists_passed {sei : SEI M} (h : sei.Coded others messages nalUnitType)
    (before : List (SEI M)) :
    ∃ passed, PCCBitstreamWriter.measuredSei others messages nalUnitType sei = some passed ∧
      RoundTrip (PCCBitstreamWriter.seiMessage others messages nalUnitType passed)
        (PCCBitstreamReader.seiMessage (PCCBitstreamReader.seiPayload others) before nalUnitType)
        sei ∧
      Writer.Total (PCCBitstreamWriter.seiMessage others messages nalUnitType sei) := by
  obtain ⟨payloadSize, content⟩ := sei
  obtain rfl : payloadSize = 0 := h.payloadSize
  obtain ⟨type, size, hback⟩ : ∃ type size,
      PayloadComesBack others messages nalUnitType before content type size :=
    h.content.exists_payloadComesBack
  have hfirst := hback.measuredSei_eq (Or.inl rfl)
  have hsmall : size < 2 ^ 31 := h.small ⟨size, content⟩ hfirst
  exact ⟨_, hfirst, hback.seiMessage_roundTrip hsmall (Or.inr rfl),
    (hback.seiMessage_roundTrip hsmall (Or.inl rfl)).total⟩

end Messages

/-! ### Units -/

/-- A unit as the first pass leaves it, which comes back in a state as a payload, and the state
that this leaves. -/
structure PassComesBack (others : SeiSyntax M) (sets : ActiveSets)
    (state : SubStreamState (SEI M)) (passed : OutgoingUnit (SEI M))
    (payload : NalPayload (SEI M)) (state' : SubStreamState (SEI M)) : Prop where
  roundTrip : ∃ tile, RoundTrip (PCCBitstreamWriter.nalPayload others sets passed.2 passed.1)
      (PCCBitstreamReader.nalPayload (PCCBitstreamReader.seiPayload others) state passed.1.type)
      (payload, tile) ∧
    { state with tile }.receive payload = some state'
  aligned : Writer.Aligned (PCCBitstreamWriter.nalPayload others sets passed.2 passed.1)
  type_lt : passed.1.type < 2 ^ 6

/-- A unit that comes back behind both passes. -/
structure ComesBack (others : SeiSyntax M) (sets : ActiveSets) (state : SubStreamState (SEI M))
    (unit : OutgoingUnit (SEI M)) (payload : NalPayload (SEI M))
    (state' : SubStreamState (SEI M)) : Prop where
  measured : Writer.Total
    (PCCBitstreamWriter.nalPayload others sets unit.2 (PCCBitstreamWriter.measured unit.1))
  passed : ∃ passed, PCCBitstreamWriter.passed others unit = some passed ∧
    PassComesBack others sets state passed payload state'

/-- Units that come back one after the other. -/
inductive Delivered (others : SeiSyntax M) (sets : ActiveSets) : SubStreamState (SEI M) →
    List (OutgoingUnit (SEI M)) → List (NalPayload (SEI M)) → SubStreamState (SEI M) → Prop
  | nil (state : SubStreamState (SEI M)) : Delivered others sets state [] [] state
  | cons {state state' state'' : SubStreamState (SEI M)} {unit : OutgoingUnit (SEI M)}
      {units : List (OutgoingUnit (SEI M))} {payload : NalPayload (SEI M)}
      {payloads : List (NalPayload (SEI M))}
      (hunit : ComesBack others sets state unit payload state')
      (hunits : Delivered others sets state' units payloads state'') :
      Delivered others sets state (unit :: units) (payload :: payloads) state''

section

variable {sets : ActiveSets} {state state' state'' : SubStreamState (SEI M)}

theorem Delivered.append {units units' : List (OutgoingUnit (SEI M))}
    {payloads payloads' : List (NalPayload (SEI M))}
    (h : Delivered others sets state units payloads state')
    (h' : Delivered others sets state' units' payloads' state'') :
    Delivered others sets state (units ++ units') (payloads ++ payloads') state'' := by
  induction h with
  | nil => exact h'
  | cons hunit _ ih => exact .cons hunit (ih h')

theorem Delivered.single {unit : OutgoingUnit (SEI M)} {payload : NalPayload (SEI M)}
    (h : ComesBack others sets state unit payload state') :
    Delivered others sets state [unit] [payload] state' := .cons h (.nil state')

theorem nalUnitHeader_roundTrip {nalUnitType size : ℕ} (htype : nalUnitType < 2 ^ 6)
    (hsize : 2 ≤ size) :
    RoundTrip (PCCBitstreamWriter.nalUnitHeader nalUnitType)
      (PCCBitstreamReader.nalUnitHeader size) ⟨nalUnitType, 0, 1, size⟩ := by
  unfold PCCBitstreamWriter.nalUnitHeader PCCBitstreamReader.nalUnitHeader
  rw [if_neg (by omega)]
  apply (RoundTrip.write (show 0 < 2 ^ 1 by omega) (by omega)).bind
  apply (RoundTrip.write htype (by omega)).bind
  apply (RoundTrip.write (show 0 < 2 ^ 6 by omega) (by omega)).bind
  exact (RoundTrip.write (show 1 < 2 ^ 3 by omega) (by omega)).last rfl

/-- A size that its bytes can hold. -/
structure SizeFits (sizePrecisionBytesMinus1 size : ℕ) : Prop where
  header : 2 ≤ size
  precision : sizePrecisionBytesMinus1 ≤ 3
  size_lt : size < 2 ^ (8 * (sizePrecisionBytesMinus1 + 1))

/-- A unit behind its size. -/
theorem PassComesBack.unit_roundTrip {passed : OutgoingUnit (SEI M)}
    {payload : NalPayload (SEI M)} (h : PassComesBack others sets state passed payload state')
    {sizePrecisionBytesMinus1 size : ℕ} (hsize : SizeFits sizePrecisionBytesMinus1 size) :
    RoundTrip (PCCBitstreamWriter.sampleStreamNalUnit others sets sizePrecisionBytesMinus1
        (passed, size))
      (PCCBitstreamReader.sampleStreamNalUnit (PCCBitstreamReader.seiPayload others)
        sizePrecisionBytesMinus1 state) (payload, state') := by
  obtain ⟨tile, hround, hreceive⟩ := h.roundTrip
  have hprecision := hsize.precision
  have hbits : 8 * (sizePrecisionBytesMinus1 + 1) % 2 ^ 8 =
      8 * (sizePrecisionBytesMinus1 + 1) := by omega
  unfold PCCBitstreamWriter.sampleStreamNalUnit PCCBitstreamReader.sampleStreamNalUnit
  rw [hbits]
  apply (RoundTrip.write hsize.size_lt (by omega)).bind
  apply (nalUnitHeader_roundTrip h.type_lt hsize.header).bind
  apply hround.then_pure
  dsimp only
  rw [hreceive, Reader.ofOption_some, pure_bind]
  exact RoundTrip.pure _

theorem PassComesBack.unit_aligned {passed : OutgoingUnit (SEI M)} {payload : NalPayload (SEI M)}
    (h : PassComesBack others sets state passed payload state')
    (sizePrecisionBytesMinus1 size : ℕ) :
    Writer.Aligned (PCCBitstreamWriter.sampleStreamNalUnit others sets sizePrecisionBytesMinus1
      (passed, size)) := by
  unfold PCCBitstreamWriter.sampleStreamNalUnit
  iterate 2
    apply Writer.Aligned.bind
    intro _
  exact h.aligned

/-! ### Streams of units -/

/-- The loop of the reader takes the units from their bits one by one. -/
theorem Delivered.exists_bits {units : List (OutgoingUnit (SEI M))}
    {payloads : List (NalPayload (SEI M))}
    (h : Delivered others sets state units payloads state') {sizePrecisionBytesMinus1 : ℕ}
    {sizes : List ℕ} (hlength : sizes.length = units.length)
    (hsizes : ∀ size ∈ sizes, SizeFits sizePrecisionBytesMinus1 size) :
    ∃ passes bs, units.mapM (PCCBitstreamWriter.passed others) = some passes ∧
      Writer.forEach (passes.zip sizes)
        (PCCBitstreamWriter.sampleStreamNalUnit others sets sizePrecisionBytesMinus1) 0 =
          some ((), bs) ∧
      (∃ k, bs.length = 8 * k) ∧ ∀ fuel, bs.length ≤ fuel →
        PCCBitstreamReader.nalUnitLoop (PCCBitstreamReader.seiPayload others)
            sizePrecisionBytesMinus1 fuel state ⟨0, bs⟩ =
          some ((payloads, state'), ⟨0, []⟩) := by
  induction h generalizing sizes with
  | nil state =>
    refine ⟨[], [], rfl, by simp [Writer.pure_run], ⟨0, rfl⟩, fun fuel _ => ?_⟩
    cases fuel <;> rfl
  | @cons state middle last unit units payload payloads hunit _ ih =>
    obtain ⟨size, sizes, rfl⟩ := List.exists_cons_of_length_eq_add_one hlength
    have hsize := hsizes size List.mem_cons_self
    obtain ⟨passed, hpassed, hback⟩ := hunit.passed
    obtain ⟨bs, hwrite, hread⟩ := hback.unit_roundTrip hsize 0
    have haligned := hback.unit_aligned sizePrecisionBytesMinus1 size 0 bs hwrite
    obtain ⟨passes, cs, hpasses, hwrites, ⟨k', hk'⟩, hloop⟩ := ih (by simpa using hlength)
      fun other hother => hsizes other (List.mem_cons_of_mem size hother)
    obtain ⟨k, hk⟩ := Writer.dvd_of_advance_eq_zero haligned
    have hpos : 0 < bs.length := by
      obtain ⟨⟨⟩, first, others, hfirst, -, rfl⟩ := Writer.bind_run_eq_some.mp hwrite
      have hlen := Writer.Sized.write _ _ 0 first hfirst
      have hprecision := hsize.precision
      rw [List.length_append]
      omega
    refine ⟨passed :: passes, bs ++ cs, ?_, ?_, ⟨k + k', by rw [List.length_append]; omega⟩,
      fun fuel hfuel => ?_⟩
    · simp [List.mapM_cons, hpassed, hpasses]
    · rw [List.zip_cons_cons, Writer.forEach_cons]
      exact Writer.bind_run_eq_some.mpr ⟨(), bs, cs, hwrite, by rwa [haligned], rfl⟩
    · rw [List.length_append] at hfuel
      obtain ⟨fuel, rfl⟩ := Nat.exists_eq_succ_of_ne_zero (show fuel ≠ 0 by omega)
      have hrun := hread cs
      rw [haligned] at hrun
      have hremaining : ¬(bs ++ cs).length = 0 := by
        rw [List.length_append]
        omega
      unfold PCCBitstreamReader.nalUnitLoop
      refine Reader.bind_run_eq_some.mpr ⟨_, _, rfl, ?_⟩
      rw [if_neg hremaining]
      refine Reader.bind_run_eq_some.mpr ⟨_, _, hrun, ?_⟩
      exact Reader.bind_run_eq_some.mpr ⟨_, _, hloop fuel (by omega), rfl⟩

end

end V3C

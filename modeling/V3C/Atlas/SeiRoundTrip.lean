import V3C.Atlas.AtlasSubStreamWriter
import V3C.Syntax.V3CParameterSetRoundTrip

/-! Messages that are read back. Every payload type here is written the same in both passes of the
writer. -/
namespace V3C
open Codec

variable {M : Type}

/-! ### What can be coded -/

structure SEIUserDataRegisteredItuTT35.Coded (sei : SEIUserDataRegisteredItuTT35) : Prop where
  countryCode_lt : sei.countryCode < 2 ^ 8
  extension_lt : sei.countryCodeExtensionByte < 2 ^ 8
  noExtension : sei.countryCode ≠ 0xFF → sei.countryCodeExtensionByte = 0
  byte_lt : ∀ byte ∈ sei.payloadByte, byte < 2 ^ 8

/-- A canceled mapping has no entries. Otherwise there is a code for every id, and no other. -/
structure SEIComponentCodecMapping.Coded (sei : SEIComponentCodecMapping) : Prop where
  canceled : sei.componentCodecCancelFlag = true → sei = { componentCodecCancelFlag := true }
  count_lt : sei.codecMappingsCountMinus1 < 2 ^ 8
  codecId : sei.componentCodecCancelFlag = false →
    sei.codecId.length = sei.codecMappingsCountMinus1 + 1 ∧ ∀ k ∈ sei.codecId, k < 256
  codec4cc : sei.componentCodecCancelFlag = false → sei.codec4cc.length = 256 ∧
    (∀ code ∈ sei.codec4cc, 0 ∉ code) ∧
    ∀ k < 256, k ∉ sei.codecId → sei.codec4cc[k]? = some []

structure OccupancySynthesisParameters.Coded (parameters : OccupancySynthesisParameters) :
    Prop where
  threshold_lt : parameters.pbfLog2ThresholdMinus1 < 2 ^ 2
  passes_lt : parameters.pbfPassesCountMinus1 < 2 ^ 2
  filterSize_lt : parameters.pbfFilterSizeMinus1 < 2 ^ 3

structure GeometrySmoothingParameters.Coded (parameters : GeometrySmoothingParameters) :
    Prop where
  gridSize_lt : parameters.gridSizeMinus2 < 2 ^ 7
  threshold_lt : parameters.threshold < 2 ^ 8

/-- Only the first method has parameters, and a canceled instance has no method. -/
structure InstanceUpdate.Coded {P : Type} (initial : P) (codedParameters : P → Prop)
    (update : InstanceUpdate P) : Prop where
  canceled : update.instanceCancelFlag = true → update.methodType = 0
  methodType_lt : update.methodType < 2 ^ 8
  noMethod : update.methodType ≠ 1 → update.parameters = initial
  parameters : codedParameters update.parameters

/-- Every instance has an update or is as the constructor leaves it. -/
structure InstanceUpdates.Coded {P : Type} (initial : P) (codedParameters : P → Prop)
    (sei : InstanceUpdates P) : Prop where
  length_lt : sei.instances.length < 2 ^ 8
  length_eq : sei.instances.length = sei.instanceIndex.length
  index_lt : ∀ k ∈ sei.instanceIndex, k < sei.instances.length
  update : ∀ update ∈ sei.instances, update.Coded initial codedParameters
  noUpdate : ∀ k < sei.instances.length, k ∉ sei.instanceIndex →
    sei.instances[k]? = some { parameters := initial }

/-- A message of a NAL unit type whose payload does not depend on what the last pass has left. -/
def SeiContent.Coded (nalUnitType : ℕ) : SeiContent M → Prop
  | .userDataRegisteredItuTT35 sei => sei.Coded
  | .componentCodecMapping sei => IsPrefixSei nalUnitType ∧ sei.Coded
  | .occupancySynthesis sei =>
    IsPrefixSei nalUnitType ∧ sei.Coded {} OccupancySynthesisParameters.Coded
  | .geometrySmoothing sei =>
    IsPrefixSei nalUnitType ∧ sei.Coded {} GeometrySmoothingParameters.Coded
  | .reservedSeiMessage payloadByte => payloadByte = []
  | .fillerPayload => False
  | .userDataUnregistered _ => False
  | .other _ => False

/-! ### Payloads -/

theorem bytes_roundTrip {bytes : List ℕ} (h : ∀ byte ∈ bytes, byte < 2 ^ 8) :
    RoundTrip (PCCBitstreamWriter.writeBytes bytes)
      (PCCBitstreamReader.readBytes bytes.length) bytes :=
  RoundTrip.forEach_repeat_self bytes 0 fun byte hbyte => RoundTrip.write (h byte hbyte) (by decide)

theorem writeBytes_sized (bytes : List ℕ) :
    Writer.Sized (PCCBitstreamWriter.writeBytes bytes) (8 * bytes.length) := by
  induction bytes with
  | nil => exact Writer.Sized.pure
  | cons byte bytes ih =>
    have hboth := (Writer.Sized.write byte 8).bind ih
    rwa [show 8 + 8 * bytes.length = 8 * (bytes.length + 1) by ring] at hboth

namespace SEIUserDataRegisteredItuTT35

/-- The bytes of the payload. -/
def size (sei : SEIUserDataRegisteredItuTT35) : ℕ :=
  (if sei.countryCode = 0xFF then 2 else 1) + sei.payloadByte.length

theorem sized (sei : SEIUserDataRegisteredItuTT35) :
    Writer.Sized (PCCBitstreamWriter.userDataRegisteredItuTT35 sei) (8 * sei.size) := by
  unfold PCCBitstreamWriter.userDataRegisteredItuTT35 size
  split_ifs with hextension
  · have hall := (Writer.Sized.write sei.countryCode 8).bind
      ((Writer.Sized.write sei.countryCodeExtensionByte 8).bind (writeBytes_sized sei.payloadByte))
    rw [decide_eq_true hextension, Writer.when_true]
    rwa [show 8 + (8 + 8 * sei.payloadByte.length) = 8 * (2 + sei.payloadByte.length) by ring]
      at hall
  · have hall := (Writer.Sized.write sei.countryCode 8).bind (writeBytes_sized sei.payloadByte)
    rw [decide_eq_false hextension, Writer.when_false, pure_bind]
    rwa [show 8 + 8 * sei.payloadByte.length = 8 * (1 + sei.payloadByte.length) by ring] at hall

theorem Coded.roundTrip {sei : SEIUserDataRegisteredItuTT35} (h : sei.Coded) :
    RoundTrip (PCCBitstreamWriter.userDataRegisteredItuTT35 sei)
      (PCCBitstreamReader.userDataRegisteredItuTT35 sei.size) sei := by
  unfold PCCBitstreamWriter.userDataRegisteredItuTT35
    PCCBitstreamReader.userDataRegisteredItuTT35 size reducedSize
  apply (RoundTrip.write h.countryCode_lt (by decide)).bind
  by_cases hextension : sei.countryCode = 0xFF
  · rw [decide_eq_true hextension, Writer.when_true, if_pos hextension, if_pos (by omega),
      Reader.ofOption_some, pure_bind, if_pos hextension]
    apply (RoundTrip.write h.extension_lt (by decide)).bind
    rw [if_pos (by omega), Reader.ofOption_some, pure_bind,
      show 2 + sei.payloadByte.length - 1 - 1 = sei.payloadByte.length by omega]
    exact (bytes_roundTrip h.byte_lt).last rfl
  · rw [decide_eq_false hextension, Writer.when_false, pure_bind, if_neg hextension,
      if_pos (by omega), Reader.ofOption_some, pure_bind, if_neg hextension,
      show 1 + sei.payloadByte.length - 1 = sei.payloadByte.length by omega]
    apply (bytes_roundTrip h.byte_lt).last
    rw [← h.noExtension hextension]

end SEIUserDataRegisteredItuTT35

/-- A table is read back into one that has at every position that is still to come what a new one
has there, and what the table has elsewhere. -/
theorem indexedEntries_roundTrip {E : Type} {w : E → Writer Unit} {r : E → Reader E}
    {table : List E} {initial : E}
    (hentry : ∀ entry ∈ table, ∀ old, old = initial ∨ old = entry →
      RoundTrip (w entry) (r old) entry) (indices : List ℕ) {current : List E}
    (hlength : current.length = table.length)
    (hindex : ∀ k ∈ indices, k < table.length ∧ k < 2 ^ 8)
    (hcurrent : ∀ k < table.length, current[k]? = table[k]? ∨
      current[k]? = some initial ∧ k ∈ indices) :
    RoundTrip (PCCBitstreamWriter.indexedEntries w table indices)
      (PCCBitstreamReader.indexedEntries r indices.length current) (indices, table) := by
  induction indices generalizing current with
  | nil =>
    have htable : current = table := by
      apply List.ext_getElem? fun k => ?_
      by_cases hk : k < table.length
      · exact (hcurrent k hk).resolve_right fun h => absurd h.2 List.not_mem_nil
      · rw [List.getElem?_eq_none (by omega), List.getElem?_eq_none (by omega)]
    rw [htable]
    exact RoundTrip.pure _
  | cons k indices ih =>
    obtain ⟨hlt, hbyte⟩ := hindex k List.mem_cons_self
    have hold : ∃ old, current[k]? = some old ∧ (old = initial ∨ old = table[k]) := by
      rcases hcurrent k hlt with h | ⟨h, -⟩
      · exact ⟨table[k], by rw [h, List.getElem?_eq_getElem hlt], Or.inr rfl⟩
      · exact ⟨initial, h, Or.inl rfl⟩
    obtain ⟨old, hget, hor⟩ := hold
    have hrest := @ih (current.set k table[k]) (by rw [List.length_set, hlength])
      (fun j hj => hindex j (List.mem_cons_of_mem k hj)) (fun j hj => by
        by_cases hjk : j = k
        · left
          rw [hjk, List.getElem?_set_self (by omega), List.getElem?_eq_getElem hlt]
        · rw [List.getElem?_set_ne (Ne.symm hjk)]
          refine (hcurrent j hj).imp_right fun h => ⟨h.1, ?_⟩
          exact (List.mem_cons.mp h.2).resolve_left hjk)
    unfold PCCBitstreamWriter.indexedEntries
    rw [Writer.forEach_cons, bind_assoc]
    apply (RoundTrip.write hbyte (by decide)).bind
    rw [List.getElem?_eq_getElem hlt, Writer.ofOption_some, pure_bind, hget, Reader.ofOption_some,
      pure_bind]
    apply (hentry table[k] (List.getElem_mem hlt) old hor).bind
    exact hrest.last rfl

section Instances

variable {P : Type} {initial : P} {codedParameters : P → Prop} {w : P → Writer Unit} {r : Reader P}

theorem InstanceUpdate.Coded.roundTrip {update old : InstanceUpdate P}
    (h : update.Coded initial codedParameters)
    (hparameters : codedParameters update.parameters →
      RoundTrip (w update.parameters) r update.parameters)
    (hold : old = { parameters := initial } ∨ old = update) :
    RoundTrip (PCCBitstreamWriter.instanceUpdate w update)
      (PCCBitstreamReader.instanceUpdate r old) update := by
  have hmethod : toUInt8 update.methodType = update.methodType := Nat.mod_eq_of_lt h.methodType_lt
  have huvlc : RoundTrip (writeUvlc update.methodType) readUvlc update.methodType :=
    RoundTrip.uvlc (by have := h.methodType_lt; omega)
  obtain ⟨instanceCancelFlag, methodType, parameters⟩ := update
  unfold PCCBitstreamWriter.instanceUpdate PCCBitstreamReader.instanceUpdate
  apply (RoundTrip.flag instanceCancelFlag).bind
  -- An element that is not read is what it has been before, in a new entry or in this one.
  have hnone : methodType ≠ 1 → old.parameters = parameters := by
    intro hone
    rcases hold with rfl | rfl
    · exact (h.noMethod hone).symm
    · rfl
  cases instanceCancelFlag with
  | true =>
    obtain rfl : methodType = 0 := h.canceled rfl
    have hupdate : { old with instanceCancelFlag := true } =
        ({ instanceCancelFlag := true, methodType := 0, parameters } : InstanceUpdate P) := by
      rw [← hnone Nat.zero_ne_one]
      rcases hold with rfl | rfl
      · rfl
      · rfl
    rw [if_pos rfl, hupdate]
    exact RoundTrip.pure _
  | false =>
    rw [if_neg nofun, Bool.not_false, Writer.when_true]
    by_cases hone : methodType = 1
    · apply huvlc.bind
      rw [hmethod, decide_eq_true hone, Writer.when_true, if_pos hone]
      exact (hparameters h.parameters).last rfl
    · apply huvlc.bind
      rw [hmethod, decide_eq_false hone, Writer.when_false, if_neg hone, hnone hone]
      exact RoundTrip.pure _

theorem InstanceUpdates.Coded.roundTrip {sei : InstanceUpdates P}
    (h : sei.Coded initial codedParameters)
    (hparameters : ∀ parameters, codedParameters parameters →
      RoundTrip (w parameters) r parameters) :
    RoundTrip (PCCBitstreamWriter.instanceUpdates w sei)
      (PCCBitstreamReader.instanceUpdates initial r) sei := by
  have hlt := h.length_lt
  have hcount : sei.instanceIndex.length < 2 ^ 8 := h.length_eq ▸ hlt
  unfold PCCBitstreamWriter.instanceUpdates PCCBitstreamReader.instanceUpdates
  apply (RoundTrip.flag sei.persistenceFlag).bind
  apply (RoundTrip.flag sei.resetFlag).bind
  apply (RoundTrip.write hcount (by decide)).bind
  have htable : RoundTrip
      (PCCBitstreamWriter.indexedEntries (PCCBitstreamWriter.instanceUpdate w) sei.instances
        sei.instanceIndex)
      (PCCBitstreamReader.indexedEntries (PCCBitstreamReader.instanceUpdate r)
        sei.instanceIndex.length (List.replicate sei.instanceIndex.length { parameters := initial }))
      (sei.instanceIndex, sei.instances) := by
    apply indexedEntries_roundTrip (fun update hupdate old hold =>
      (h.update update hupdate).roundTrip (hparameters update.parameters) hold)
    · rw [List.length_replicate, h.length_eq]
    · exact fun k hk => ⟨h.index_lt k hk, (h.index_lt k hk).trans hlt⟩
    · intro k hk
      have hnew : (List.replicate sei.instanceIndex.length
          ({ parameters := initial } : InstanceUpdate P))[k]? = some { parameters := initial } := by
        rw [List.getElem?_replicate, if_pos (h.length_eq ▸ hk)]
      by_cases hmem : k ∈ sei.instanceIndex
      · exact Or.inr ⟨hnew, hmem⟩
      · exact Or.inl (by rw [hnew, h.noUpdate k hk hmem])
  exact htable.last rfl

end Instances

theorem occupancySynthesis_roundTrip {sei : SEIOccupancySynthesis}
    (h : sei.Coded {} OccupancySynthesisParameters.Coded) :
    RoundTrip (PCCBitstreamWriter.occupancySynthesis sei) PCCBitstreamReader.occupancySynthesis
      sei := by
  apply h.roundTrip
  intro parameters hcoded
  apply (RoundTrip.write hcoded.threshold_lt (by decide)).bind
  apply (RoundTrip.write hcoded.passes_lt (by decide)).bind
  exact (RoundTrip.write hcoded.filterSize_lt (by decide)).last rfl

theorem geometrySmoothing_roundTrip {sei : SEIGeometrySmoothing}
    (h : sei.Coded {} GeometrySmoothingParameters.Coded) :
    RoundTrip (PCCBitstreamWriter.geometrySmoothing sei) PCCBitstreamReader.geometrySmoothing
      sei := by
  apply h.roundTrip
  intro parameters hcoded
  apply (RoundTrip.flag parameters.filterEomPointsFlag).bind
  apply (RoundTrip.write hcoded.gridSize_lt (by decide)).bind
  exact (RoundTrip.write hcoded.threshold_lt (by decide)).last rfl

theorem takeD_of_length {α : Type} {l : List α} {n : ℕ} (h : l.length = n) (d : α) :
    l.takeD n d = l := by
  induction l generalizing n with
  | nil =>
    obtain rfl : n = 0 := h.symm
    rfl
  | cons a l ih =>
    obtain rfl : n = l.length + 1 := h.symm
    rw [List.takeD_succ, List.head?_cons, Option.getD_some, List.tail_cons, ih rfl]

theorem SEIComponentCodecMapping.Coded.roundTrip {sei : SEIComponentCodecMapping}
    (h : sei.Coded) :
    RoundTrip (PCCBitstreamWriter.componentCodecMapping sei)
      PCCBitstreamReader.componentCodecMapping sei := by
  unfold PCCBitstreamWriter.componentCodecMapping PCCBitstreamReader.componentCodecMapping
  apply (RoundTrip.flag sei.componentCodecCancelFlag).bind
  by_cases hcancel : sei.componentCodecCancelFlag = true
  · rw [hcancel, if_pos rfl, Bool.not_true, Writer.when_false, h.canceled hcancel]
    exact RoundTrip.pure _
  · have hnot : sei.componentCodecCancelFlag = false := Bool.eq_false_iff.mpr hcancel
    obtain ⟨hids, hid⟩ := h.codecId hnot
    obtain ⟨hcodes, hcode, hnew⟩ := h.codec4cc hnot
    rw [hnot, if_neg nofun, Bool.not_false, Writer.when_true, takeD_of_length hcodes,
      takeD_of_length hids]
    apply (RoundTrip.write h.count_lt (by decide)).bind
    have htable := @indexedEntries_roundTrip (List UInt8) writeString (fun _ => readString)
      sei.codec4cc [] (fun code hmem _ _ => RoundTrip.string (hcode code hmem)) sei.codecId
      (List.replicate 256 []) (by rw [List.length_replicate, hcodes])
      (fun k hk => ⟨hcodes ▸ hid k hk, hid k hk⟩) (fun k hk => by
        have hfirst : (List.replicate 256 ([] : List UInt8))[k]? = some [] := by
          rw [List.getElem?_replicate, if_pos (hcodes ▸ hk)]
        by_cases hmem : k ∈ sei.codecId
        · exact Or.inr ⟨hfirst, hmem⟩
        · exact Or.inl (by rw [hfirst, hnew k (hcodes ▸ hk) hmem]))
    rw [hids] at htable
    apply htable.last
    rw [← hnot]

/-! ### Messages -/

theorem payloadAlignment_roundTrip :
    RoundTrip PCCBitstreamWriter.payloadAlignment PCCBitstreamReader.payloadAlignment () := by
  intro p
  by_cases hp : p = 0
  · subst hp
    exact ⟨[], rfl, fun rest => rfl⟩
  · obtain ⟨bs, hwrite, hread⟩ := byteAlignment_roundTrip p
    refine ⟨bs, ?_, fun rest => ?_⟩
    · unfold PCCBitstreamWriter.payloadAlignment
      rw [if_neg hp, hwrite]
    · unfold PCCBitstreamReader.payloadAlignment
      refine Reader.bind_run_eq_some.mpr ⟨p, _, rfl, ?_⟩
      rw [if_neg hp]
      exact hread rest

theorem payloadAlignment_aligned : Writer.Aligned PCCBitstreamWriter.payloadAlignment := by
  intro p bs h
  unfold PCCBitstreamWriter.payloadAlignment at h
  split_ifs at h with hp
  · obtain ⟨-, rfl⟩ := Prod.mk.inj (Option.some.inj h)
    rw [hp]
    rfl
  · exact PCCBitstreamWriter.byteAlignment_aligned p bs h

section

variable {others : SeiSyntax M} {messages : PCCSEI (SEI M)} {nalUnitType : ℕ}
  {before : List (SEI M)}

theorem seiPayload_aligned (sei : SEI M) :
    Writer.Aligned (PCCBitstreamWriter.seiPayload others messages nalUnitType sei) := by
  unfold PCCBitstreamWriter.seiPayload
  apply Writer.Aligned.bind
  intro _
  exact payloadAlignment_aligned

/-- What a content is written as, and that its bytes come back by their number. -/
structure PayloadComesBack (others : SeiSyntax M) (messages : PCCSEI (SEI M)) (nalUnitType : ℕ)
    (before : List (SEI M)) (content : SeiContent M) (type size : ℕ) : Prop where
  payloadType : content.payloadType others = some type
  type_lt : type < 2 ^ 31
  same : PCCBitstreamWriter.seiContent others messages nalUnitType ⟨size, content⟩ =
    PCCBitstreamWriter.seiContent others messages nalUnitType ⟨0, content⟩
  roundTrip : RoundTrip
    (PCCBitstreamWriter.seiContent others messages nalUnitType ⟨0, content⟩)
    (PCCBitstreamReader.seiContent others before nalUnitType type size) content
  measured : ∃ bs, PCCBitstreamWriter.seiPayload others messages nalUnitType ⟨0, content⟩ 0 =
    some ((), bs) ∧ bs.length / 8 = size

/-- A payload that is read without regard to its size. -/
theorem exists_payloadComesBack {content : SeiContent M} {type : ℕ}
    (htype : content.payloadType others = some type) (hlt : type < 2 ^ 31)
    (hsame : ∀ size, PCCBitstreamWriter.seiContent others messages nalUnitType ⟨size, content⟩ =
      PCCBitstreamWriter.seiContent others messages nalUnitType ⟨0, content⟩)
    (hround : ∀ size, RoundTrip
      (PCCBitstreamWriter.seiContent others messages nalUnitType ⟨0, content⟩)
      (PCCBitstreamReader.seiContent others before nalUnitType type size) content) :
    ∃ size, PayloadComesBack others messages nalUnitType before content type size := by
  obtain ⟨bs, hbs⟩ := ((hround 0).total.bind payloadAlignment_roundTrip.total) 0
  exact ⟨bs.length / 8, htype, hlt, hsame _, hround _, bs, hbs, rfl⟩

theorem prefixPayload_roundTrip {w : Writer Unit} {α : Type} {r : Reader α} {a : α}
    {f : α → SeiContent M} (hfront : IsPrefixSei nalUnitType) (h : RoundTrip w r a) :
    RoundTrip (PCCBitstreamWriter.prefixPayload nalUnitType w)
      (PCCBitstreamReader.prefixPayload nalUnitType (r >>= fun sei => pure (f sei))) (f a) := by
  unfold PCCBitstreamWriter.prefixPayload PCCBitstreamReader.prefixPayload
  rw [if_pos hfront, if_pos hfront]
  exact h.last rfl

theorem SEIUserDataRegisteredItuTT35.Coded.payloadComesBack {sei : SEIUserDataRegisteredItuTT35}
    (h : sei.Coded) : PayloadComesBack others messages nalUnitType before
      (.userDataRegisteredItuTT35 sei) USER_DATAREGISTERED_ITUTT35 sei.size := by
  refine ⟨rfl, by decide, rfl, h.roundTrip.last rfl, ?_⟩
  obtain ⟨bs, hbs, -⟩ := h.roundTrip 0
  have hlength := sei.sized 0 bs hbs
  refine ⟨bs, ?_, by rw [hlength]; omega⟩
  have halign : PCCBitstreamWriter.payloadAlignment (advance 0 bs.length) = some ((), []) := by
    rw [hlength, advance_eight_mul]
    rfl
  exact Writer.bind_run_eq_some.mpr ⟨(), bs, [], hbs, halign, (List.append_nil bs).symm⟩

theorem reservedSeiMessage_payloadComesBack : PayloadComesBack others messages nalUnitType before
    (.reservedSeiMessage []) RESERVED_SEI_MESSAGE 0 :=
  ⟨rfl, by decide, rfl, RoundTrip.pure _, [], rfl, rfl⟩

theorem SeiContent.Coded.exists_payloadComesBack {content : SeiContent M}
    (h : content.Coded nalUnitType) :
    ∃ type size, PayloadComesBack others messages nalUnitType before content type size := by
  cases content with
  | fillerPayload => exact h.elim
  | userDataUnregistered sei => exact h.elim
  | other content => exact h.elim
  | componentCodecMapping sei =>
    refine ⟨COMPONENT_CODEC_MAPPING, V3C.exists_payloadComesBack rfl (by decide) (fun _ => rfl)
      fun size => ?_⟩
    exact prefixPayload_roundTrip h.1 h.2.roundTrip
  | occupancySynthesis sei =>
    refine ⟨OCCUPANCY_SYNTHESIS, V3C.exists_payloadComesBack rfl (by decide) (fun _ => rfl)
      fun size => ?_⟩
    exact prefixPayload_roundTrip h.1 (occupancySynthesis_roundTrip h.2)
  | geometrySmoothing sei =>
    refine ⟨GEOMETRY_SMOOTHING, V3C.exists_payloadComesBack rfl (by decide) (fun _ => rfl)
      fun size => ?_⟩
    exact prefixPayload_roundTrip h.1 (geometrySmoothing_roundTrip h.2)
  | userDataRegisteredItuTT35 sei => exact ⟨_, _, h.payloadComesBack⟩
  | reservedSeiMessage payloadByte =>
    obtain rfl : payloadByte = [] := h
    exact ⟨_, _, reservedSeiMessage_payloadComesBack⟩

end

end V3C

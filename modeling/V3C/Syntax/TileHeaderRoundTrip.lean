import V3C.Syntax.TileHeaderWriter
import V3C.Syntax.V3CParameterSetRoundTrip

/-! Which tile headers the reader gives back. -/
namespace V3C
open Codec

/-- An entry within its syntax ranges. Elements that are not coded have their inferred values. -/
structure RefListEntry.Coded (longTermRefAtlasFramesFlag : Bool)
    (log2MaxAtlasFrameOrderCntLsbMinus4 : ℕ) (entry : RefListEntry) : Prop where
  st_of_not_longTerm : longTermRefAtlasFramesFlag = false → entry.stRefAtlasFrameFlag = true
  abs_lt : entry.absDeltaAfocSt < 2 ^ 8
  sign_of_zero : entry.stRefAtlasFrameFlag = true → entry.absDeltaAfocSt = 0 →
    entry.strafEntrySignFlag = true
  lsb_lt : entry.afocLsbLt < 2 ^ 8
  lsb_fits : entry.afocLsbLt < 2 ^ (log2MaxAtlasFrameOrderCntLsbMinus4 + 4)
  lsb_of_st : entry.stRefAtlasFrameFlag = true → entry.afocLsbLt = 0
  st_of_lt : entry.stRefAtlasFrameFlag = false →
    entry.absDeltaAfocSt = 0 ∧ entry.strafEntrySignFlag = false

structure RefListStruct.Coded (longTermRefAtlasFramesFlag : Bool)
    (log2MaxAtlasFrameOrderCntLsbMinus4 : ℕ) (rls : RefListStruct) : Prop where
  count_lt : rls.entries.length < 2 ^ 8
  entries : ∀ entry ∈ rls.entries,
    entry.Coded longTermRefAtlasFramesFlag log2MaxAtlasFrameOrderCntLsbMinus4

variable {longTermRefAtlasFramesFlag : Bool} {log2MaxAtlasFrameOrderCntLsbMinus4 : ℕ}

theorem RefListEntry.Coded.roundTrip {entry : RefListEntry}
    (h : entry.Coded longTermRefAtlasFramesFlag log2MaxAtlasFrameOrderCntLsbMinus4)
    (hwidth : log2MaxAtlasFrameOrderCntLsbMinus4 + 4 ≤ 32) :
    RoundTrip
      (PCCBitstreamWriter.refListEntry longTermRefAtlasFramesFlag
        log2MaxAtlasFrameOrderCntLsbMinus4 entry)
      (PCCBitstreamReader.refListEntry longTermRefAtlasFramesFlag
        log2MaxAtlasFrameOrderCntLsbMinus4) entry := by
  have hmod : (log2MaxAtlasFrameOrderCntLsbMinus4 + 4) % 2 ^ 8 =
      log2MaxAtlasFrameOrderCntLsbMinus4 + 4 := Nat.mod_eq_of_lt (by omega)
  unfold PCCBitstreamWriter.refListEntry PCCBitstreamReader.refListEntry
  apply RoundTrip.bind (x := entry.stRefAtlasFrameFlag)
  · exact RoundTrip.when_whenElse (fun _ => RoundTrip.flag _) h.st_of_not_longTerm
  · by_cases hst : entry.stRefAtlasFrameFlag = true
    · rw [if_pos hst, if_pos hst]
      apply (roundTrip_uvlc8 h.abs_lt).bind
      apply RoundTrip.last (x := entry.strafEntrySignFlag)
      · apply RoundTrip.when_whenElse (fun _ => RoundTrip.flag _)
        intro hzero
        apply h.sign_of_zero hst
        simpa using hzero
      · obtain ⟨abs, lsb, st, sign⟩ := entry
        obtain rfl : lsb = 0 := h.lsb_of_st hst
        obtain rfl : st = true := hst
        rfl
    · rw [if_neg hst, if_neg hst, hmod]
      apply (RoundTrip.write h.lsb_fits hwidth).last
      rw [Nat.mod_eq_of_lt h.lsb_lt]
      obtain ⟨abs, lsb, st, sign⟩ := entry
      obtain rfl : st = false := Bool.eq_false_iff.mpr hst
      obtain ⟨hzero, hsign⟩ := h.st_of_lt rfl
      obtain rfl : abs = 0 := hzero
      obtain rfl : sign = false := hsign
      rfl

theorem RefListStruct.Coded.roundTrip {rls : RefListStruct}
    (h : rls.Coded longTermRefAtlasFramesFlag log2MaxAtlasFrameOrderCntLsbMinus4)
    (hwidth : log2MaxAtlasFrameOrderCntLsbMinus4 + 4 ≤ 32) :
    RoundTrip
      (PCCBitstreamWriter.refListStruct longTermRefAtlasFramesFlag
        log2MaxAtlasFrameOrderCntLsbMinus4 rls)
      (PCCBitstreamReader.refListStruct longTermRefAtlasFramesFlag
        log2MaxAtlasFrameOrderCntLsbMinus4) rls := by
  unfold PCCBitstreamWriter.refListStruct PCCBitstreamReader.refListStruct
  apply (roundTrip_uvlc8 h.count_lt).bind
  apply RoundTrip.last (x := rls.entries) _ rfl
  apply RoundTrip.forEach_repeat_self
  intro entry hentry
  exact (h.entries entry hentry).roundTrip hwidth

/-- The id fits the bits the tiles of the frame give it. -/
def AtlasFrameTileInformation.CodesId (afti : AtlasFrameTileInformation) (id : ℕ) : Prop :=
  if afti.signalledTileIdFlag then
    afti.signalledTileIdLengthMinus1 + 1 ≤ 32 ∧ id < 2 ^ (afti.signalledTileIdLengthMinus1 + 1)
  else afti.numTilesInAtlasFrameMinus1 + 1 < 2 ^ 32 ∧ id ≤ afti.numTilesInAtlasFrameMinus1

theorem ceilLog2_bits {x : ℕ} (hx : 0 < x) (hlt : x < 2 ^ 32) :
    toUInt8 (ceilLog2 x) ≤ 32 ∧ x ≤ 2 ^ toUInt8 (ceilLog2 x) := by
  have hnonneg := ceilLog2_nonneg hx
  have hle : ceilLog2 x ≤ (32 : ℕ) := (ceilLog2_le_iff hx 32).mpr hlt.le
  have heq : toUInt8 (ceilLog2 x) = (ceilLog2 x).toNat := by
    unfold toUInt8
    omega
  rw [heq]
  refine ⟨by omega, (ceilLog2_le_iff hx _).mp ?_⟩
  omega

theorem AtlasFrameTileInformation.CodesId.roundTrip {afti : AtlasFrameTileInformation} {id : ℕ}
    (h : afti.CodesId id) :
    RoundTrip (PCCBitstreamWriter.tileHeaderId afti id) (PCCBitstreamReader.tileHeaderId afti)
      id := by
  unfold PCCBitstreamWriter.tileHeaderId PCCBitstreamReader.tileHeaderId
  unfold AtlasFrameTileInformation.CodesId at h
  by_cases hflag : afti.signalledTileIdFlag = true
  · rw [if_pos hflag] at h ⊢
    rw [if_pos hflag, Nat.mod_eq_of_lt (by omega)]
    exact RoundTrip.write h.2 h.1
  · rw [if_neg hflag] at h ⊢
    rw [if_neg hflag]
    by_cases hone : afti.numTilesInAtlasFrameMinus1 ≠ 0
    · rw [if_pos hone, if_pos hone, Nat.mod_eq_of_lt h.1]
      obtain ⟨hbits, hfit⟩ := ceilLog2_bits (x := afti.numTilesInAtlasFrameMinus1 + 1) (by omega) h.1
      exact RoundTrip.write (by omega) hbits
    · rw [if_neg hone, if_neg hone]
      obtain rfl : id = 0 := by omega
      exact RoundTrip.pure 0

namespace AtlasTileHeader

/-- The reference list of a header: one of the sequence parameter set's, or one of its own. -/
structure CodesRefList (ath : AtlasTileHeader) (asps : AtlasSequenceParameterSetRbsp) : Prop where
  lists_lt : asps.numRefAtlasFrameListsInAsps < 2 ^ 8
  flag_of_none : asps.numRefAtlasFrameListsInAsps = 0 → ath.refAtlasFrameListSpsFlag = false
  listed : ath.refAtlasFrameListSpsFlag = true →
    ath.refAtlasFrameListIdx < asps.numRefAtlasFrameListsInAsps ∧
      asps.refListStruct[ath.refAtlasFrameListIdx]? = some ath.refListStruct
  own : ath.refAtlasFrameListSpsFlag = false → ath.refAtlasFrameListIdx = 0 ∧
    ath.refListStruct.Coded asps.longTermRefAtlasFramesFlag
      asps.log2MaxAtlasFrameOrderCntLsbMinus4

/-- The index behind its flag. -/
def codedListIdx (ath : AtlasTileHeader) : Option ℕ :=
  if ath.refAtlasFrameListSpsFlag then some ath.refAtlasFrameListIdx else none

variable {ath : AtlasTileHeader} {afps : AtlasFrameParameterSetRbsp}
  {asps : AtlasSequenceParameterSetRbsp}

theorem CodesRefList.getRefList_eq (h : ath.CodesRefList asps) :
    PCCAtlasHighLevelSyntax.getRefList asps ath = some ath.refListStruct := by
  unfold PCCAtlasHighLevelSyntax.getRefList
  split_ifs with hflag
  · exact (h.listed hflag).2
  · rfl

theorem CodesRefList.roundTrip (h : ath.CodesRefList asps)
    (hwidth : asps.log2MaxAtlasFrameOrderCntLsbMinus4 + 4 ≤ 32) :
    RoundTrip (PCCBitstreamWriter.tileHeaderRefList asps ath)
      (PCCBitstreamReader.tileHeaderRefList asps) (ath.codedListIdx, ath.refListStruct) := by
  unfold PCCBitstreamWriter.tileHeaderRefList PCCBitstreamReader.tileHeaderRefList codedListIdx
  apply RoundTrip.bind (x := ath.refAtlasFrameListSpsFlag)
  · apply RoundTrip.when_whenElse (fun _ => RoundTrip.flag _)
    intro hnone
    apply h.flag_of_none
    simpa using hnone
  · by_cases hflag : ath.refAtlasFrameListSpsFlag = true
    · rw [if_pos hflag, if_pos hflag, if_pos hflag]
      obtain ⟨hidx, hlist⟩ := h.listed hflag
      have hlt := h.lists_lt
      obtain ⟨hbits, hfit⟩ :=
        ceilLog2_bits (x := asps.numRefAtlasFrameListsInAsps) (by omega) (by omega)
      have hmod : ath.refAtlasFrameListIdx % 2 ^ 8 = ath.refAtlasFrameListIdx :=
        Nat.mod_eq_of_lt (by omega)
      have hread : RoundTrip
          (Writer.when (1 < asps.numRefAtlasFrameListsInAsps)
            (write ath.refAtlasFrameListIdx (toUInt8 (ceilLog2 asps.numRefAtlasFrameListsInAsps))))
          (Reader.whenElse (1 < asps.numRefAtlasFrameListsInAsps)
            (read (toUInt8 (ceilLog2 asps.numRefAtlasFrameListsInAsps))) 0)
          ath.refAtlasFrameListIdx := by
        apply RoundTrip.when_whenElse
        · intro _
          exact RoundTrip.write (by omega) hbits
        · intro hone
          have : ¬ 1 < asps.numRefAtlasFrameListsInAsps := by simpa using hone
          omega
      apply hread.then_pure
      rw [hmod, hlist, Reader.ofOption_some, pure_bind]
      exact RoundTrip.pure _
    · rw [if_neg hflag, if_neg hflag, if_neg hflag]
      exact ((h.own (Bool.eq_false_iff.mpr hflag)).2.roundTrip hwidth).last rfl

/-- The additional low bits of the long-term entries. A header that has no such entry keeps the
one element its vectors are constructed with. -/
structure CodesAfocLsb (ath : AtlasTileHeader) (afps : AtlasFrameParameterSetRbsp) : Prop where
  none : ath.refListStruct.numLtrAtlasFrmEntries = 0 →
    ath.additionalAfocLsbPresentFlag = [false] ∧ ath.additionalAfocLsbVal = [0]
  one : ath.refListStruct.numLtrAtlasFrmEntries = 1 → ∃ present value,
    ath.additionalAfocLsbPresentFlag = [present] ∧ ath.additionalAfocLsbVal = [value] ∧
      value < 2 ^ 8 ∧ (present = false → value = 0) ∧
      (present = true → afps.additionalLtAfocLsbLen ≤ 32 ∧
        value < 2 ^ afps.additionalLtAfocLsbLen)

theorem CodesAfocLsb.roundTrip (h : ath.CodesAfocLsb afps)
    (hone : ath.refListStruct.numLtrAtlasFrmEntries ≤ 1) :
    RoundTrip
      (Writer.forEach (List.range ath.refListStruct.numLtrAtlasFrmEntries)
        (PCCBitstreamWriter.additionalAfocLsb afps ath))
      (PCCBitstreamReader.additionalAfocLsb afps ath.refListStruct)
      (ath.additionalAfocLsbPresentFlag, ath.additionalAfocLsbVal) := by
  unfold PCCBitstreamReader.additionalAfocLsb
  change RoundTrip _ (Reader.repeatFrom 0 ath.refListStruct.numLtrAtlasFrmEntries _ >>= _) _
  rcases Nat.le_one_iff_eq_zero_or_eq_one.mp hone with hcount | hcount
  · obtain ⟨hflags, hvals⟩ := h.none hcount
    rw [hcount, hflags, hvals]
    exact RoundTrip.pure _
  · obtain ⟨present, value, hflags, hvals, hlt, habsent, hpresent⟩ := h.one hcount
    have hentry : RoundTrip (PCCBitstreamWriter.additionalAfocLsb afps ath 0)
        (do
          let present ← readFlag
          let _ ← Reader.ofOption (if 0 = 0 then some () else Option.none)
          let value ← Reader.whenElse present (read afps.additionalLtAfocLsbLen) 0
          pure (present, value % 2 ^ 8)) (present, value) := by
      unfold PCCBitstreamWriter.additionalAfocLsb
      rw [hflags, hvals, List.getElem?_cons_zero, Writer.ofOption_some, pure_bind]
      apply (RoundTrip.flag present).bind
      rw [if_pos rfl, Reader.ofOption_some, pure_bind]
      apply RoundTrip.last (x := value)
      · apply RoundTrip.when_whenElse
        · intro hp
          rw [List.getElem?_cons_zero, Writer.ofOption_some, pure_bind]
          exact RoundTrip.write (hpresent hp).2 (hpresent hp).1
        · exact habsent
      · rw [Nat.mod_eq_of_lt hlt]
    rw [hcount, hflags, hvals]
    have hloop := RoundTrip.forEach_repeatFrom (y := fun _ => (present, value)) [0] 0
      (f := PCCBitstreamWriter.additionalAfocLsb afps ath)
      (g := fun j => do
        let present ← readFlag
        let _ ← Reader.ofOption (if j = 0 then some () else Option.none)
        let value ← Reader.whenElse present (read afps.additionalLtAfocLsbLen) 0
        pure (present, value % 2 ^ 8)) (by
          intro i hi
          obtain rfl : i = 0 := by simpa using hi
          exact hentry)
    apply hloop.then_pure
    exact RoundTrip.pure _

/-- The fields a skip tile leaves out, within their syntax ranges. -/
structure CodesQuantizers (ath : AtlasTileHeader) (afps : AtlasFrameParameterSetRbsp)
    (asps : AtlasSequenceParameterSetRbsp) : Prop where
  depth_lt : asps.geometry3dBitdepthMinus1 < 2 ^ 8
  minD_lt : ath.posMinDQuantizer < 2 ^ 5
  minD_default : asps.normalAxisLimitsQuantizationEnabledFlag = false → ath.posMinDQuantizer = 0
  deltaD_lt : ath.posDeltaMaxDQuantizer < 2 ^ 5
  deltaD_default : (asps.normalAxisLimitsQuantizationEnabledFlag &&
    asps.normalAxisMaxDeltaValueEnabledFlag) = false → ath.posDeltaMaxDQuantizer = 0
  sizeX_lt : ath.patchSizeXinfoQuantizer < 2 ^ 3
  sizeY_lt : ath.patchSizeYinfoQuantizer < 2 ^ 3
  size_default : asps.patchSizeQuantizerPresentFlag = false →
    ath.patchSizeXinfoQuantizer = 0 ∧ ath.patchSizeYinfoQuantizer = 0
  raw_default : afps.raw3dOffsetBitCountExplicitModeFlag = false →
    ath.raw3dOffsetAxisBitCountMinus1 = PCCBitstreamReader.raw3dOffsetBitCountMinus1 asps
  active_lt : ath.numRefIdxActiveMinus1 < 2 ^ 8
  override_default : decide (ath.type = .pTile ∧ 1 < ath.refListStruct.numRefEntries) = false →
    ath.numRefIdxActiveOverrideFlag = false
  active_default : ath.numRefIdxActiveOverrideFlag = false → ath.numRefIdxActiveMinus1 = 0

/-- An explicit number of raw offset bits has a code of `floorLog2` of the depth. -/
def RawBitsFit (ath : AtlasTileHeader) (afps : AtlasFrameParameterSetRbsp)
    (asps : AtlasSequenceParameterSetRbsp) : Prop :=
  afps.raw3dOffsetBitCountExplicitModeFlag = true →
    ath.raw3dOffsetAxisBitCountMinus1 < 2 ^ Nat.log2 (asps.geometry3dBitdepthMinus1 + 1)

instance : Decidable (ath.RawBitsFit afps asps) := inferInstanceAs (Decidable (_ = true → _))

theorem floorLog2_bits {d : ℕ} (hd : d < 2 ^ 8) :
    toUInt8 (floorLog2 (d + 1)) = Nat.log2 (d + 1) ∧ Nat.log2 (d + 1) ≤ 8 := by
  have hlog : Nat.log2 (d + 1) < 9 := (Nat.log2_lt (by omega)).mpr (by omega)
  refine ⟨?_, by omega⟩
  rw [floorLog2, if_neg (by omega), toUInt8]
  omega

/-- What the reader makes of a header whose quantizers have been read. -/
def withQuantizers (ath from' : AtlasTileHeader) : AtlasTileHeader :=
  { ath with
    posMinDQuantizer := from'.posMinDQuantizer
    posDeltaMaxDQuantizer := from'.posDeltaMaxDQuantizer
    patchSizeXinfoQuantizer := from'.patchSizeXinfoQuantizer
    patchSizeYinfoQuantizer := from'.patchSizeYinfoQuantizer
    raw3dOffsetAxisBitCountMinus1 := from'.raw3dOffsetAxisBitCountMinus1
    numRefIdxActiveOverrideFlag := from'.numRefIdxActiveOverrideFlag
    numRefIdxActiveMinus1 := from'.numRefIdxActiveMinus1 }

theorem CodesQuantizers.roundTrip (h : ath.CodesQuantizers afps asps)
    (hraw : ath.RawBitsFit afps asps) {ath' : AtlasTileHeader} (htype : ath'.type = ath.type) :
    RoundTrip (PCCBitstreamWriter.tileHeaderQuantizers asps afps ath.refListStruct ath)
      (PCCBitstreamReader.tileHeaderQuantizers asps afps ath.refListStruct ath')
      (ath'.withQuantizers ath) := by
  obtain ⟨hbits, hle⟩ := floorLog2_bits h.depth_lt
  unfold PCCBitstreamWriter.tileHeaderQuantizers PCCBitstreamReader.tileHeaderQuantizers
  rw [htype, hbits]
  apply RoundTrip.bind (x := ath.posMinDQuantizer)
  · exact RoundTrip.when_whenElse (fun _ => RoundTrip.write h.minD_lt (by decide)) h.minD_default
  apply RoundTrip.bind (x := ath.posDeltaMaxDQuantizer)
  · exact RoundTrip.when_whenElse (fun _ => RoundTrip.write h.deltaD_lt (by decide))
      h.deltaD_default
  apply RoundTrip.bind (x := ath.patchSizeXinfoQuantizer)
  · exact RoundTrip.when_whenElse (fun _ => RoundTrip.write h.sizeX_lt (by decide))
      fun hflag => (h.size_default hflag).1
  apply RoundTrip.bind (x := ath.patchSizeYinfoQuantizer)
  · exact RoundTrip.when_whenElse (fun _ => RoundTrip.write h.sizeY_lt (by decide))
      fun hflag => (h.size_default hflag).2
  apply RoundTrip.bind (x := ath.raw3dOffsetAxisBitCountMinus1)
  · exact RoundTrip.when_whenElse (fun hexp => RoundTrip.write (hraw hexp) (by omega))
      h.raw_default
  apply RoundTrip.bind (x := ath.numRefIdxActiveOverrideFlag)
  · exact RoundTrip.when_whenElse (fun _ => RoundTrip.flag _) h.override_default
  apply RoundTrip.last (x := ath.numRefIdxActiveMinus1)
  · have hand : (decide (ath.type = .pTile ∧ 1 < ath.refListStruct.numRefEntries) &&
        ath.numRefIdxActiveOverrideFlag) = ath.numRefIdxActiveOverrideFlag := by
      cases hover : decide (ath.type = .pTile ∧ 1 < ath.refListStruct.numRefEntries) with
      | true => exact Bool.true_and _
      | false => rw [h.override_default hover, Bool.false_and]
    rw [hand]
    exact RoundTrip.when_whenElse (fun _ => roundTrip_uvlc8 h.active_lt) h.active_default
  · rw [withQuantizers, htype]

structure SkipsQuantizers (ath : AtlasTileHeader) : Prop where
  minD : ath.posMinDQuantizer = 0
  deltaD : ath.posDeltaMaxDQuantizer = 0
  sizeX : ath.patchSizeXinfoQuantizer = 0
  sizeY : ath.patchSizeYinfoQuantizer = 0
  raw : ath.raw3dOffsetAxisBitCountMinus1 = 0
  override : ath.numRefIdxActiveOverrideFlag = false
  active : ath.numRefIdxActiveMinus1 = 0

/-- What a header says about the type of its NAL unit. -/
def naluTypeInfo (nalUnitType : ℕ) : ℕ :=
  if nalUnitType = NAL_TRAIL_R then 1 else if nalUnitType = NAL_TRAIL_N then 2 else 0

/-- A header within its syntax ranges, for the parameter sets its ids stand for. -/
structure Coded (ath : AtlasTileHeader) (nalUnitType : ℕ) (afps : AtlasFrameParameterSetRbsp)
    (asps : AtlasSequenceParameterSetRbsp) : Prop where
  nalu : ath.tileNaluTypeInfo = naluTypeInfo nalUnitType
  noOutput_default : isIrap nalUnitType = false → ath.noOutputOfPriorAtlasFramesFlag = false
  afpsId_lt : ath.atlasFrameParameterSetId < 2 ^ 8
  aapsId_lt : ath.atlasAdaptationParameterSetId < 2 ^ 8
  id : afps.atlasFrameTileInformation.CodesId ath.id
  type_lt : ath.type.toNat + 1 < 2 ^ 32
  type_eq : PCCTileType.ofNat ath.type.toNat = ath.type
  output_default : afps.outputFlagPresentFlag = false → ath.atlasOutputFlag = false
  width_le : asps.log2MaxAtlasFrameOrderCntLsbMinus4 + 4 ≤ 32
  lsb_lt : ath.atlasFrmOrderCntLsb < 2 ^ (asps.log2MaxAtlasFrameOrderCntLsbMinus4 + 4)
  refList : ath.CodesRefList asps
  afocLsb : ath.CodesAfocLsb afps
  quantizers : ath.type ≠ .skipTile → ath.CodesQuantizers afps asps
  skipped : ath.type = .skipTile → ath.SkipsQuantizers

/-- The header as the reader leaves it, before its frame is known. -/
def received (ath : AtlasTileHeader) : AtlasTileHeader := { ath with frameIndex := 0 }

theorem Coded.body_roundTrip {nalUnitType : ℕ} (h : ath.Coded nalUnitType afps asps)
    (hone : ath.refListStruct.numLtrAtlasFrmEntries ≤ 1)
    (hraw : ath.type ≠ .skipTile → ath.RawBitsFit afps asps) :
    RoundTrip (PCCBitstreamWriter.atlasTileHeaderBody ath afps asps)
      (PCCBitstreamReader.atlasTileHeaderBody
        { noOutputOfPriorAtlasFramesFlag := ath.noOutputOfPriorAtlasFramesFlag
          atlasFrameParameterSetId := ath.atlasFrameParameterSetId
          atlasAdaptationParameterSetId := ath.atlasAdaptationParameterSetId
          tileNaluTypeInfo := ath.tileNaluTypeInfo } afps asps) ath.received := by
  have hwidth : (asps.log2MaxAtlasFrameOrderCntLsbMinus4 + 4) % 2 ^ 8 =
      asps.log2MaxAtlasFrameOrderCntLsbMinus4 + 4 := by
    have := h.width_le
    omega
  unfold PCCBitstreamWriter.atlasTileHeaderBody PCCBitstreamReader.atlasTileHeaderBody
  rw [hwidth]
  apply h.id.roundTrip.bind
  apply (RoundTrip.uvlc h.type_lt).bind
  apply RoundTrip.bind (x := ath.atlasOutputFlag)
  · exact RoundTrip.when_whenElse (fun _ => RoundTrip.flag _) h.output_default
  apply (RoundTrip.write h.lsb_lt h.width_le).bind
  apply (h.refList.roundTrip h.width_le).bind
  rw [h.refList.getRefList_eq, Writer.ofOption_some, pure_bind]
  apply (h.afocLsb.roundTrip hone).bind
  dsimp only
  rw [h.type_eq]
  have hflag : ath.codedListIdx.isSome = ath.refAtlasFrameListSpsFlag := by
    unfold codedListIdx
    cases ath.refAtlasFrameListSpsFlag <;> rfl
  have hidx : ath.codedListIdx.getD 0 = ath.refAtlasFrameListIdx := by
    unfold codedListIdx
    cases hsps : ath.refAtlasFrameListSpsFlag with
    | true => rfl
    | false => exact (h.refList.own hsps).1.symm
  rw [hflag, hidx]
  apply RoundTrip.bind (x := ath.received)
  · by_cases hskip : ath.type = .skipTile
    · simp only [hskip, ne_eq, not_true_eq_false, decide_false, Writer.when_false,
        Reader.whenElse_false]
      obtain ⟨hminD, hdeltaD, hsizeX, hsizeY, hraw', hover, hactive⟩ := h.skipped hskip
      convert RoundTrip.pure ath.received using 1
      rw [received, hminD, hdeltaD, hsizeX, hsizeY, hraw', hover, hactive, hskip]
    · simp only [hskip, ne_eq, not_false_eq_true, decide_true, Writer.when_true,
        Reader.whenElse_true]
      exact (h.quantizers hskip).roundTrip (hraw hskip) rfl
  · exact byteAlignment_roundTrip.last rfl

theorem Coded.roundTrip {nalUnitType : ℕ} {sets : ActiveSets}
    (hafps : sets.afps ath.atlasFrameParameterSetId = some afps)
    (hasps : sets.asps afps.atlasSequenceParameterSetId = some asps)
    (h : ath.Coded nalUnitType afps asps)
    (hone : ath.refListStruct.numLtrAtlasFrmEntries ≤ 1)
    (hraw : ath.type ≠ .skipTile → ath.RawBitsFit afps asps) :
    RoundTrip (PCCBitstreamWriter.atlasTileHeader sets ath nalUnitType)
      (PCCBitstreamReader.atlasTileHeader sets nalUnitType) (ath.received, afps, asps) := by
  unfold PCCBitstreamWriter.atlasTileHeader PCCBitstreamReader.atlasTileHeader
  rw [hafps, Writer.ofOption_some, pure_bind, hasps, Writer.ofOption_some, pure_bind]
  apply RoundTrip.bind (x := ath.noOutputOfPriorAtlasFramesFlag)
  · exact RoundTrip.when_whenElse (fun _ => RoundTrip.flag _) h.noOutput_default
  apply (roundTrip_uvlc8 h.afpsId_lt).bind
  apply (roundTrip_uvlc8 h.aapsId_lt).bind
  rw [hafps, Reader.ofOption_some, pure_bind, hasps, Reader.ofOption_some, pure_bind]
  apply RoundTrip.last (x := ath.received) _ rfl
  have hbody := h.body_roundTrip hone hraw
  rwa [h.nalu] at hbody

end AtlasTileHeader

/-- A value of `n` bits is below `2 ^ n`. -/
theorem read_ensures_lt (n : ℕ) : Reader.Ensures (read n) (· < 2 ^ n) := by
  intro c v c' h
  unfold read at h
  split_ifs at h with hn
  · obtain ⟨bs, c₁, htake, hpure⟩ := Reader.bind_run_eq_some.mp h
    obtain ⟨rfl, -⟩ := Prod.mk.inj (Option.some.inj hpure)
    unfold Reader.take at htake
    split_ifs at htake with hlen
    obtain ⟨rfl, -⟩ := Prod.mk.inj (Option.some.inj htake)
    have hlt := natOfBits_lt (c.rest.take n)
    rwa [List.length_take_of_le hlen] at hlt
  · exact absurd h (by simp [Reader.fail])

namespace PCCBitstreamReader

variable {afps : AtlasFrameParameterSetRbsp} {asps : AtlasSequenceParameterSetRbsp}

/-- The second long-term entry is stored behind the end of the vectors. -/
theorem additionalAfocLsb_ensures (refList : RefListStruct) :
    Reader.Ensures (additionalAfocLsb afps refList)
      fun _ => refList.numLtrAtlasFrmEntries ≤ 1 := by
  by_cases hone : refList.numLtrAtlasFrmEntries ≤ 1
  · intro c a c' _
    exact hone
  · obtain ⟨n, hn⟩ : ∃ n, refList.numLtrAtlasFrmEntries = n + 2 :=
      ⟨refList.numLtrAtlasFrmEntries - 2, by omega⟩
    intro c a c' h
    unfold additionalAfocLsb at h
    change (Reader.repeatFrom 0 refList.numLtrAtlasFrmEntries _ >>= _) c = _ at h
    rw [hn] at h
    obtain ⟨entries, c₁, hloop, -⟩ := Reader.bind_run_eq_some.mp h
    obtain ⟨first, c₂, -, hloop⟩ := Reader.bind_run_eq_some.mp hloop
    obtain ⟨rest, c₃, hloop, -⟩ := Reader.bind_run_eq_some.mp hloop
    obtain ⟨second, c₄, hsecond, -⟩ := Reader.bind_run_eq_some.mp hloop
    obtain ⟨present, c₅, -, hsecond⟩ := Reader.bind_run_eq_some.mp hsecond
    obtain ⟨u, c₆, hnone, -⟩ := Reader.bind_run_eq_some.mp hsecond
    cases hnone

theorem tileHeaderQuantizers_ensures (hdepth : asps.geometry3dBitdepthMinus1 < 2 ^ 8)
    (refList : RefListStruct) (ath : AtlasTileHeader) :
    Reader.Ensures (tileHeaderQuantizers asps afps refList ath)
      fun r => r.RawBitsFit afps asps ∧ r.refListStruct = ath.refListStruct := by
  obtain ⟨hbits, -⟩ := AtlasTileHeader.floorLog2_bits hdepth
  unfold tileHeaderQuantizers
  rw [hbits]
  refine .bind fun _ => .bind fun _ => .bind fun _ => .bind fun _ => .then_bind
    (P := fun raw => afps.raw3dOffsetBitCountExplicitModeFlag = true →
      raw < 2 ^ Nat.log2 (asps.geometry3dBitdepthMinus1 + 1)) ?_ ?_
  · cases hexp : afps.raw3dOffsetBitCountExplicitModeFlag with
    | true =>
      intro c v c' h _
      exact read_ensures_lt _ c v c' h
    | false =>
      apply Reader.Ensures.pure
      intro habsurd
      cases habsurd
  · intro raw hraw
    refine .bind fun _ => .bind fun _ => .pure ?_
    exact ⟨hraw, rfl⟩

/-- Whatever header is read has one long-term entry at most and bits for its raw offsets. -/
theorem atlasTileHeaderBody_ensures (hdepth : asps.geometry3dBitdepthMinus1 < 2 ^ 8)
    (ath : AtlasTileHeader) :
    Reader.Ensures (atlasTileHeaderBody ath afps asps)
      fun r => r.refListStruct.numLtrAtlasFrmEntries ≤ 1 ∧
        (r.type ≠ .skipTile → r.RawBitsFit afps asps) := by
  unfold atlasTileHeaderBody
  refine .bind fun _ => .bind fun _ => .bind fun _ => .bind fun _ => .bind fun refs =>
    .then_bind (additionalAfocLsb_ensures refs.2) fun additional hone => ?_
  refine .then_bind (P := fun r => r.refListStruct.numLtrAtlasFrmEntries ≤ 1 ∧
    (r.type ≠ .skipTile → r.RawBitsFit afps asps)) ?_ ?_
  · dsimp only
    rename_i id type output lsb
    by_cases hskip : PCCTileType.ofNat type = .skipTile
    · simp only [hskip, ne_eq, not_true_eq_false, decide_false, Reader.whenElse_false]
      apply Reader.Ensures.pure
      refine ⟨hone, ?_⟩
      intro hne
      exact absurd rfl hne
    · simp only [hskip, ne_eq, not_false_eq_true, decide_true, Reader.whenElse_true]
      intro c r c' h
      obtain ⟨hraw, hlist⟩ := tileHeaderQuantizers_ensures hdepth refs.2 _ c r c' h
      rw [hlist]
      exact ⟨hone, fun _ => hraw⟩
  · intro r hr
    exact .bind fun _ => .pure hr

end PCCBitstreamReader

namespace AtlasTileHeader

variable {ath : AtlasTileHeader} {afps : AtlasFrameParameterSetRbsp}
  {asps : AtlasSequenceParameterSetRbsp}

/-- What the reader gives back it has read without a second long-term entry. -/
theorem fits_of_roundTrip {nalUnitType : ℕ} {sets : ActiveSets} {w : Writer Unit}
    (hdepth : asps.geometry3dBitdepthMinus1 < 2 ^ 8)
    (hround : RoundTrip w (PCCBitstreamReader.atlasTileHeader sets nalUnitType)
      (ath.received, afps, asps)) :
    ath.refListStruct.numLtrAtlasFrmEntries ≤ 1 ∧
      (ath.type ≠ .skipTile → ath.RawBitsFit afps asps) := by
  obtain ⟨bs, -, hread⟩ := hround 0
  have hrun := hread []
  unfold PCCBitstreamReader.atlasTileHeader at hrun
  obtain ⟨noOutput, c₁, -, hrun⟩ := Reader.bind_run_eq_some.mp hrun
  obtain ⟨afpsId, c₂, -, hrun⟩ := Reader.bind_run_eq_some.mp hrun
  obtain ⟨aapsId, c₃, -, hrun⟩ := Reader.bind_run_eq_some.mp hrun
  obtain ⟨afps', c₄, -, hrun⟩ := Reader.bind_run_eq_some.mp hrun
  obtain ⟨asps', c₅, -, hrun⟩ := Reader.bind_run_eq_some.mp hrun
  obtain ⟨r, c₆, hbody, hpure⟩ := Reader.bind_run_eq_some.mp hrun
  obtain ⟨hresult, -⟩ := Prod.mk.inj (Option.some.inj hpure)
  obtain ⟨rfl, hsets⟩ := Prod.mk.inj hresult
  obtain ⟨rfl, rfl⟩ := Prod.mk.inj hsets
  have hpost := PCCBitstreamReader.atlasTileHeaderBody_ensures hdepth _ c₅ ath.received c₆ hbody
  exact hpost

/-- A header within its syntax ranges is given back exactly when it has one long-term reference
at most and an explicit number of raw offset bits has a code. -/
theorem Coded.roundTrip_iff {nalUnitType : ℕ} {sets : ActiveSets}
    (hafps : sets.afps ath.atlasFrameParameterSetId = some afps)
    (hasps : sets.asps afps.atlasSequenceParameterSetId = some asps)
    (hdepth : asps.geometry3dBitdepthMinus1 < 2 ^ 8) (h : ath.Coded nalUnitType afps asps) :
    RoundTrip (PCCBitstreamWriter.atlasTileHeader sets ath nalUnitType)
        (PCCBitstreamReader.atlasTileHeader sets nalUnitType) (ath.received, afps, asps) ↔
      ath.refListStruct.numLtrAtlasFrmEntries ≤ 1 ∧
        (ath.type ≠ .skipTile → ath.RawBitsFit afps asps) := by
  constructor
  · exact fits_of_roundTrip hdepth
  · rintro ⟨hone, hraw⟩
    exact h.roundTrip hafps hasps hone hraw

/-- A depth of ten bits, whose logarithm is no whole number, with long-term references. -/
def tenBitAsps : AtlasSequenceParameterSetRbsp where
  geometry3dBitdepthMinus1 := 9
  geometry2dBitdepthMinus1 := 9
  longTermRefAtlasFramesFlag := true

def explicitAfps : AtlasFrameParameterSetRbsp where
  raw3dOffsetBitCountExplicitModeFlag := true
  additionalLtAfocLsbLen := 4

def tenBitSets : ActiveSets where
  asps _ := some tenBitAsps
  afps _ := some explicitAfps

/-- An I tile with raw offsets of `bits + 1` bits and long-term references. -/
def rawTile (bits : ℕ) (entries : List RefListEntry) (present : List Bool) (values : List ℕ) :
    AtlasTileHeader where
  type := .iTile
  raw3dOffsetAxisBitCountMinus1 := bits
  refListStruct := ⟨entries⟩
  additionalAfocLsbPresentFlag := present
  additionalAfocLsbVal := values

theorem rawTile_coded {bits : ℕ} {entries : List RefListEntry} {present : List Bool}
    {values : List ℕ} (hcount : entries.length < 2 ^ 8)
    (hentries : ∀ entry ∈ entries, entry.Coded true 4)
    (hafoc : (rawTile bits entries present values).CodesAfocLsb explicitAfps) :
    (rawTile bits entries present values).Coded NAL_IDR_N_LP explicitAfps tenBitAsps where
  nalu := rfl
  noOutput_default _ := rfl
  afpsId_lt := Nat.two_pow_pos _
  aapsId_lt := Nat.two_pow_pos _
  id := by simp [AtlasFrameTileInformation.CodesId, explicitAfps, rawTile]
  type_lt := by
    change 1 + 1 < 2 ^ 32
    decide
  type_eq := rfl
  output_default _ := rfl
  width_le := by decide
  lsb_lt := Nat.two_pow_pos _
  refList := {
    lists_lt := by decide
    flag_of_none := fun _ => rfl
    listed := by
      intro h
      cases h
    own := fun _ => ⟨rfl, hcount, hentries⟩ }
  afocLsb := hafoc
  quantizers _ := {
    depth_lt := by decide
    minD_lt := Nat.two_pow_pos _
    minD_default := fun _ => rfl
    deltaD_lt := Nat.two_pow_pos _
    deltaD_default := fun _ => rfl
    sizeX_lt := Nat.two_pow_pos _
    sizeY_lt := Nat.two_pow_pos _
    size_default := fun _ => ⟨rfl, rfl⟩
    raw_default := by
      intro h
      cases h
    active_lt := Nat.two_pow_pos _
    override_default := fun _ => rfl
    active_default := fun _ => rfl }
  skipped := by
    intro h
    cases h

/-- One long-term reference with additional low bits, and eight raw offset bits of ten. -/
theorem roundTrip_oneLongTerm :
    RoundTrip
      (PCCBitstreamWriter.atlasTileHeader tenBitSets (rawTile 7 [{ afocLsbLt := 200 }] [true] [9])
        NAL_IDR_N_LP)
      (PCCBitstreamReader.atlasTileHeader tenBitSets NAL_IDR_N_LP)
      ((rawTile 7 [{ afocLsbLt := 200 }] [true] [9]).received, explicitAfps, tenBitAsps) := by
  have hcoded : (rawTile 7 [{ afocLsbLt := 200 }] [true] [9]).Coded NAL_IDR_N_LP explicitAfps
      tenBitAsps := by
    apply rawTile_coded (by decide)
    · intro entry hentry
      obtain rfl := List.mem_singleton.mp hentry
      constructor <;> simp
    · constructor
      · intro h
        cases h
      · intro _
        exact ⟨true, 9, rfl, rfl, by decide, by decide, by decide⟩
  refine (Coded.roundTrip_iff rfl rfl (by decide) hcoded).mpr ⟨by decide, fun _ => ?_⟩
  decide

/-- Ten raw offset bits of ten are written in three bits, and a second long-term reference has
no place in the vectors. -/
theorem not_roundTrip_tenBits :
    (rawTile 9 [] [false] [0]).Coded NAL_IDR_N_LP explicitAfps tenBitAsps ∧
    ¬ RoundTrip
      (PCCBitstreamWriter.atlasTileHeader tenBitSets (rawTile 9 [] [false] [0]) NAL_IDR_N_LP)
      (PCCBitstreamReader.atlasTileHeader tenBitSets NAL_IDR_N_LP)
      ((rawTile 9 [] [false] [0]).received, explicitAfps, tenBitAsps) ∧
    (rawTile 0 [{}, {}] [true, true] [3, 5]).Coded NAL_IDR_N_LP explicitAfps tenBitAsps ∧
    ¬ RoundTrip
      (PCCBitstreamWriter.atlasTileHeader tenBitSets (rawTile 0 [{}, {}] [true, true] [3, 5])
        NAL_IDR_N_LP)
      (PCCBitstreamReader.atlasTileHeader tenBitSets NAL_IDR_N_LP)
      ((rawTile 0 [{}, {}] [true, true] [3, 5]).received, explicitAfps, tenBitAsps) := by
  refine ⟨?_, ?_, ?_, ?_⟩
  · apply rawTile_coded (by decide)
    · intro entry hentry
      cases hentry
    · exact ⟨fun _ => ⟨rfl, rfl⟩, fun h => absurd h (by decide)⟩
  · intro hround
    obtain ⟨-, hraw⟩ := fits_of_roundTrip (by decide) hround
    exact absurd (hraw (by decide)) (by decide)
  · apply rawTile_coded (by decide)
    · intro entry hentry
      have : entry = {} := by simpa using hentry
      subst this
      constructor <;> simp
    · exact ⟨fun h => absurd h (by decide), fun h => absurd h (by decide)⟩
  · intro hround
    obtain ⟨hone, -⟩ := fits_of_roundTrip (by decide) hround
    exact absurd hone (by decide)

end AtlasTileHeader

end V3C

import V3C.Syntax.TileHeaderWriter

/-! How many bits a tile header has. -/
namespace V3C
open Codec

/-- The bits of `writeUvlc( value )`. -/
def uvlcBits (value : ℕ) : ℕ := expGolombLength (value % 2 ^ 32)

theorem writeUvlc_sized (value : ℕ) : Writer.Sized (writeUvlc value) (uvlcBits value) := by
  intro p bs h
  by_cases hlast : value % 2 ^ 32 + 1 = 2 ^ 32
  · have hcode : (value % 2 ^ 32 + 1) % 2 ^ 32 = 0 := by rw [hlast, Nat.mod_self]
    unfold writeUvlc at h
    rw [hcode] at h
    cases h
  · have hlt : value % 2 ^ 32 + 1 < 2 ^ 32 := by omega
    have hwrap : writeUvlc value = writeUvlc (value % 2 ^ 32) := by
      unfold writeUvlc
      rw [Nat.mod_mod]
    rw [hwrap, writeUvlc_eq hlt] at h
    obtain ⟨-, rfl⟩ := Prod.mk.inj (Option.some.inj h)
    rw [List.length_append, List.length_replicate, length_bitsOfNat, uvlcBits, expGolombLength]
    omega

def refListEntryBits (longTermRefAtlasFramesFlag : Bool) (log2MaxAtlasFrameOrderCntLsbMinus4 : ℕ)
    (entry : RefListEntry) : ℕ :=
  (if longTermRefAtlasFramesFlag then 1 else 0) +
    if entry.stRefAtlasFrameFlag then
      uvlcBits entry.absDeltaAfocSt + if 0 < entry.absDeltaAfocSt then 1 else 0
    else (log2MaxAtlasFrameOrderCntLsbMinus4 + 4) % 2 ^ 8

def refListStructBits (longTermRefAtlasFramesFlag : Bool) (log2MaxAtlasFrameOrderCntLsbMinus4 : ℕ)
    (rls : RefListStruct) : ℕ :=
  uvlcBits rls.numRefEntries + (rls.entries.map
    (refListEntryBits longTermRefAtlasFramesFlag log2MaxAtlasFrameOrderCntLsbMinus4)).sum

def tileHeaderIdBits (afti : AtlasFrameTileInformation) : ℕ :=
  if afti.signalledTileIdFlag then (afti.signalledTileIdLengthMinus1 + 1) % 2 ^ 8
  else if afti.numTilesInAtlasFrameMinus1 ≠ 0 then
    toUInt8 (ceilLog2 ((afti.numTilesInAtlasFrameMinus1 + 1) % 2 ^ 32))
  else 0

def tileHeaderRefListBits (asps : AtlasSequenceParameterSetRbsp) (ath : AtlasTileHeader) : ℕ :=
  (if 0 < asps.numRefAtlasFrameListsInAsps then 1 else 0) +
    if ath.refAtlasFrameListSpsFlag then
      if 1 < asps.numRefAtlasFrameListsInAsps then
        toUInt8 (ceilLog2 asps.numRefAtlasFrameListsInAsps)
      else 0
    else refListStructBits asps.longTermRefAtlasFramesFlag asps.log2MaxAtlasFrameOrderCntLsbMinus4
      ath.refListStruct

def additionalAfocLsbBits (afps : AtlasFrameParameterSetRbsp) (ath : AtlasTileHeader) (j : ℕ) : ℕ :=
  1 + if ath.additionalAfocLsbPresentFlag[j]? = some true then afps.additionalLtAfocLsbLen else 0

def tileHeaderQuantizersBits (asps : AtlasSequenceParameterSetRbsp)
    (afps : AtlasFrameParameterSetRbsp) (refList : RefListStruct) (ath : AtlasTileHeader) : ℕ :=
  let overridable := decide (ath.type = .pTile ∧ 1 < refList.numRefEntries)
  [if asps.normalAxisLimitsQuantizationEnabledFlag then 5 else 0,
    if asps.normalAxisLimitsQuantizationEnabledFlag && asps.normalAxisMaxDeltaValueEnabledFlag
      then 5 else 0,
    if asps.patchSizeQuantizerPresentFlag then 3 else 0,
    if asps.patchSizeQuantizerPresentFlag then 3 else 0,
    if afps.raw3dOffsetBitCountExplicitModeFlag then
      toUInt8 (floorLog2 (asps.geometry3dBitdepthMinus1 + 1)) else 0,
    if overridable then 1 else 0,
    if overridable && ath.numRefIdxActiveOverrideFlag then uvlcBits ath.numRefIdxActiveMinus1
      else 0].sum

/-- The bits of the fields behind the two ids. -/
def tileHeaderBodyBits (ath : AtlasTileHeader) (afps : AtlasFrameParameterSetRbsp)
    (asps : AtlasSequenceParameterSetRbsp) (refList : RefListStruct) : ℕ :=
  [tileHeaderIdBits afps.atlasFrameTileInformation,
    uvlcBits ath.type.toNat,
    if afps.outputFlagPresentFlag then 1 else 0,
    (asps.log2MaxAtlasFrameOrderCntLsbMinus4 + 4) % 2 ^ 8,
    tileHeaderRefListBits asps ath,
    ((List.range refList.numLtrAtlasFrmEntries).map (additionalAfocLsbBits afps ath)).sum,
    if decide (ath.type ≠ .skipTile) then tileHeaderQuantizersBits asps afps refList ath
      else 0].sum

/-- The bits of the fields of a tile header, but for the flag that only random access points
have. -/
def tileHeaderBits (sets : ActiveSets) (ath : AtlasTileHeader) : Option ℕ := do
  let afps ← sets.afps ath.atlasFrameParameterSetId
  let asps ← sets.asps afps.atlasSequenceParameterSetId
  let refList ← PCCAtlasHighLevelSyntax.getRefList asps ath
  pure (uvlcBits ath.atlasFrameParameterSetId + (uvlcBits ath.atlasAdaptationParameterSetId +
    tileHeaderBodyBits ath afps asps refList))

namespace PCCBitstreamWriter

theorem byteAlignment_filled : Writer.Filled byteAlignment 0 := by
  intro p bs h
  obtain ⟨⟨⟩, first, zeros, hfirst, hzeros, rfl⟩ := Writer.bind_run_eq_some.mp h
  have hone := Writer.Sized.write 1 1 p first hfirst
  obtain ⟨-, rfl⟩ := Prod.mk.inj (Option.some.inj hzeros)
  have hp := p.isLt
  rw [List.length_append, List.length_replicate, hone]
  change 1 + (8 - (p.val + 1) % 8) % 8 = _
  omega

theorem refListEntry_sized (longTermRefAtlasFramesFlag : Bool)
    (log2MaxAtlasFrameOrderCntLsbMinus4 : ℕ) (entry : RefListEntry) :
    Writer.Sized (refListEntry longTermRefAtlasFramesFlag log2MaxAtlasFrameOrderCntLsbMinus4 entry)
      (refListEntryBits longTermRefAtlasFramesFlag log2MaxAtlasFrameOrderCntLsbMinus4 entry) := by
  unfold refListEntry refListEntryBits
  apply (Writer.Sized.flag _).when.bind
  by_cases hst : entry.stRefAtlasFrameFlag = true
  · rw [if_pos hst, if_pos hst]
    have hsign := (Writer.Sized.flag entry.strafEntrySignFlag).when
      (c := decide (0 < entry.absDeltaAfocSt))
    simp only [decide_eq_true_eq] at hsign
    exact (writeUvlc_sized entry.absDeltaAfocSt).bind hsign
  · rw [if_neg hst, if_neg hst]
    exact Writer.Sized.write _ _

theorem refListStruct_sized (longTermRefAtlasFramesFlag : Bool)
    (log2MaxAtlasFrameOrderCntLsbMinus4 : ℕ) (rls : RefListStruct) :
    Writer.Sized (refListStruct longTermRefAtlasFramesFlag log2MaxAtlasFrameOrderCntLsbMinus4 rls)
      (refListStructBits longTermRefAtlasFramesFlag log2MaxAtlasFrameOrderCntLsbMinus4 rls) :=
  (writeUvlc_sized rls.numRefEntries).bind
    (Writer.Sized.forEach fun entry _ => refListEntry_sized _ _ entry)

theorem tileHeaderId_sized (afti : AtlasFrameTileInformation) (id : ℕ) :
    Writer.Sized (tileHeaderId afti id) (tileHeaderIdBits afti) := by
  unfold tileHeaderId tileHeaderIdBits
  split_ifs
  · exact Writer.Sized.write _ _
  · exact Writer.Sized.write _ _
  · exact Writer.Sized.pure

theorem tileHeaderRefList_sized (asps : AtlasSequenceParameterSetRbsp) (ath : AtlasTileHeader) :
    Writer.Sized (tileHeaderRefList asps ath) (tileHeaderRefListBits asps ath) := by
  have hflag := (Writer.Sized.flag ath.refAtlasFrameListSpsFlag).when
    (c := decide (0 < asps.numRefAtlasFrameListsInAsps))
  have hidx := (Writer.Sized.write ath.refAtlasFrameListIdx
    (toUInt8 (ceilLog2 asps.numRefAtlasFrameListsInAsps))).when
      (c := decide (1 < asps.numRefAtlasFrameListsInAsps))
  simp only [decide_eq_true_eq] at hflag hidx
  unfold tileHeaderRefList tileHeaderRefListBits
  apply hflag.bind
  by_cases hsps : ath.refAtlasFrameListSpsFlag = true
  · rw [if_pos hsps, if_pos hsps]
    exact hidx
  · rw [if_neg hsps, if_neg hsps]
    exact refListStruct_sized _ _ _

theorem additionalAfocLsb_sized (afps : AtlasFrameParameterSetRbsp) (ath : AtlasTileHeader)
    (j : ℕ) :
    Writer.Sized (additionalAfocLsb afps ath j) (additionalAfocLsbBits afps ath j) := by
  apply Writer.Sized.ofOption_bind
  intro present hpresent
  have hvalue : Writer.Sized (do
      let value ← Writer.ofOption ath.additionalAfocLsbVal[j]?
      write value afps.additionalLtAfocLsbLen) afps.additionalLtAfocLsbLen :=
    Writer.Sized.ofOption_bind fun value _ => Writer.Sized.write value _
  have hboth := (Writer.Sized.flag present).bind (hvalue.when (c := present))
  unfold additionalAfocLsbBits
  rw [hpresent]
  simpa using hboth

theorem tileHeaderQuantizers_sized (asps : AtlasSequenceParameterSetRbsp)
    (afps : AtlasFrameParameterSetRbsp) (refList : RefListStruct) (ath : AtlasTileHeader) :
    Writer.Sized (tileHeaderQuantizers asps afps refList ath)
      (tileHeaderQuantizersBits asps afps refList ath) := by
  have hall := ((Writer.Sized.write ath.posMinDQuantizer 5).when
      (c := asps.normalAxisLimitsQuantizationEnabledFlag)).bind
    (((Writer.Sized.write ath.posDeltaMaxDQuantizer 5).when
      (c := asps.normalAxisLimitsQuantizationEnabledFlag &&
        asps.normalAxisMaxDeltaValueEnabledFlag)).bind
    (((Writer.Sized.write ath.patchSizeXinfoQuantizer 3).when
      (c := asps.patchSizeQuantizerPresentFlag)).bind
    (((Writer.Sized.write ath.patchSizeYinfoQuantizer 3).when
      (c := asps.patchSizeQuantizerPresentFlag)).bind
    (((Writer.Sized.write ath.raw3dOffsetAxisBitCountMinus1
      (toUInt8 (floorLog2 (asps.geometry3dBitdepthMinus1 + 1)))).when
      (c := afps.raw3dOffsetBitCountExplicitModeFlag)).bind
    (((Writer.Sized.flag ath.numRefIdxActiveOverrideFlag).when
      (c := decide (ath.type = .pTile ∧ 1 < refList.numRefEntries))).bind
    ((writeUvlc_sized ath.numRefIdxActiveMinus1).when
      (c := decide (ath.type = .pTile ∧ 1 < refList.numRefEntries) &&
        ath.numRefIdxActiveOverrideFlag)))))))
  unfold tileHeaderQuantizersBits
  simp only [List.sum_cons, List.sum_nil, Nat.add_zero]
  exact hall

theorem atlasTileHeaderBody_filled {ath : AtlasTileHeader} {afps : AtlasFrameParameterSetRbsp}
    {asps : AtlasSequenceParameterSetRbsp} {refList : RefListStruct}
    (hrefList : PCCAtlasHighLevelSyntax.getRefList asps ath = some refList) :
    Writer.Filled (atlasTileHeaderBody ath afps asps)
      (tileHeaderBodyBits ath afps asps refList) := by
  have hrest := (Writer.Sized.forEach fun j (_ : j ∈ List.range refList.numLtrAtlasFrmEntries) =>
      additionalAfocLsb_sized afps ath j).filled
    (((tileHeaderQuantizers_sized asps afps refList ath).when
      (c := decide (ath.type ≠ .skipTile))).filled byteAlignment_filled)
  have hall := (tileHeaderId_sized afps.atlasFrameTileInformation ath.id).filled
    ((writeUvlc_sized ath.type.toNat).filled
    (((Writer.Sized.flag ath.atlasOutputFlag).when (c := afps.outputFlagPresentFlag)).filled
    ((Writer.Sized.write ath.atlasFrmOrderCntLsb
      ((asps.log2MaxAtlasFrameOrderCntLsbMinus4 + 4) % 2 ^ 8)).filled
    ((tileHeaderRefList_sized asps ath).filled hrest))))
  unfold atlasTileHeaderBody tileHeaderBodyBits
  rw [hrefList]
  simp only [List.sum_cons, List.sum_nil, Writer.ofOption_some, pure_bind]
  exact hall

theorem exists_getRefList {ath : AtlasTileHeader} {afps : AtlasFrameParameterSetRbsp}
    {asps : AtlasSequenceParameterSetRbsp} {p : Phase} {bs : List Bool}
    (h : atlasTileHeaderBody ath afps asps p = some ((), bs)) :
    ∃ refList, PCCAtlasHighLevelSyntax.getRefList asps ath = some refList := by
  obtain ⟨⟨⟩, _, _, -, h, -⟩ := Writer.bind_run_eq_some.mp h
  obtain ⟨⟨⟩, _, _, -, h, -⟩ := Writer.bind_run_eq_some.mp h
  obtain ⟨⟨⟩, _, _, -, h, -⟩ := Writer.bind_run_eq_some.mp h
  obtain ⟨⟨⟩, _, _, -, h, -⟩ := Writer.bind_run_eq_some.mp h
  obtain ⟨⟨⟩, _, _, -, h, -⟩ := Writer.bind_run_eq_some.mp h
  obtain ⟨refList, hrefList, -⟩ := Writer.ofOption_bind_run_eq_some.mp h
  exact ⟨refList, hrefList⟩

/-- The header of a tile layer at the start of a byte, in bytes. -/
theorem atlasTileHeader_length {sets : ActiveSets} {ath : AtlasTileHeader} {nalUnitType : ℕ}
    {bs : List Bool} (h : atlasTileHeader sets ath nalUnitType 0 = some ((), bs)) :
    ∃ n, tileHeaderBits sets ath = some n ∧
      bs.length = 8 * (((isIrap nalUnitType).toNat + n) / 8 + 1) := by
  obtain ⟨afps, hafps, h⟩ := Writer.ofOption_bind_run_eq_some.mp h
  obtain ⟨asps, hasps, h⟩ := Writer.ofOption_bind_run_eq_some.mp h
  obtain ⟨refList, hrefList⟩ : ∃ refList, PCCAtlasHighLevelSyntax.getRefList asps ath =
      some refList := by
    obtain ⟨⟨⟩, _, _, -, hids, -⟩ := Writer.bind_run_eq_some.mp h
    obtain ⟨⟨⟩, _, _, -, hids, -⟩ := Writer.bind_run_eq_some.mp hids
    obtain ⟨⟨⟩, _, _, -, hbody, -⟩ := Writer.bind_run_eq_some.mp hids
    exact exists_getRefList hbody
  have hbody : Writer.Filled (atlasTileHeaderBody ath afps asps)
      (tileHeaderBodyBits ath afps asps refList) := atlasTileHeaderBody_filled hrefList
  have hall := ((Writer.Sized.flag ath.noOutputOfPriorAtlasFramesFlag).when
      (c := isIrap nalUnitType)).filled ((writeUvlc_sized ath.atlasFrameParameterSetId).filled
    ((writeUvlc_sized ath.atlasAdaptationParameterSetId).filled hbody)) 0 bs h
  refine ⟨_, by rw [tileHeaderBits, hafps, Option.bind_eq_bind, Option.bind_some, hasps,
    Option.bind_eq_bind, Option.bind_some, hrefList]; rfl, ?_⟩
  have hflag : (if isIrap nalUnitType = true then 1 else 0) = (isIrap nalUnitType).toNat := by
    cases isIrap nalUnitType <;> rfl
  rw [hflag, Fin.val_zero, Nat.zero_add] at hall
  omega

end PCCBitstreamWriter

end V3C

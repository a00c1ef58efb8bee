import V3C.Syntax.PlrRoundTrip

/-! When an atlas tile data unit is read back. Everything is coded the same way on both
sides but the point local reconstruction data of MERGE and INTER patches: the reader derives
the size of its block map, and expects it where a MERGE patch overrides it alone. -/
namespace V3C
open Codec

/-! ### Patches that can be coded -/

section Coded
variable (ctx : TileContext)

/-- A reference index is coded when there is more than one reference. -/
def RefIndexCoded (refIndex : ℤ) : Prop :=
  ∃ active, ctx.getNumRefIdxActive = some active ∧
    ∃ n : ℕ, refIndex = n ∧ FitsUe n ∧ (active ≤ 1 → n = 0)

/-- Block data is coded when the patch has it. -/
def PlrCoded (coded : Bool) (plrd : PLRData) : Prop :=
  if coded then ∃ maps, ctx.plrMaps = some maps ∧ plrd.Coded maps else plrd = {}

def RangeDCoded (pos3dRangeD : ℤ) : Prop :=
  if ctx.asps.normalAxisMaxDeltaValueEnabledFlag then FitsSe pos3dRangeD else pos3dRangeD = 0

structure PatchDataUnit.Coded (pdu : PatchDataUnit) : Prop where
  pos2dX : FitsUe pdu.pos2dX
  pos2dY : FitsUe pdu.pos2dY
  size2dXMinus1 : FitsUe pdu.size2dXMinus1
  size2dYMinus1 : FitsUe pdu.size2dYMinus1
  pos3dOffsetU : FitsU ctx.bitCountUV pdu.pos3dOffsetU
  pos3dOffsetV : FitsU ctx.bitCountUV pdu.pos3dOffsetV
  pos3dOffsetD : FitsU ctx.bitCountD pdu.pos3dOffsetD
  pos3dRangeD : if ctx.asps.normalAxisMaxDeltaValueEnabledFlag then
    FitsU ctx.bitCountForMaxDepth pdu.pos3dRangeD else pdu.pos3dRangeD = 0
  projectionId : FitsU ctx.bitCountProjection pdu.projectionId
  orientationIndex : FitsU ctx.bitCountOrientation pdu.orientationIndex
  lodEnableFlag : ctx.afps.lodModeEnableFlag = false → pdu.lodEnableFlag = false
  lodScaleXMinus1 : if pdu.lodEnableFlag then pdu.lodScaleXMinus1 < 2 ^ 8
    else pdu.lodScaleXMinus1 = 0
  lodScaleYIdc : if pdu.lodEnableFlag then pdu.lodScaleYIdc < 2 ^ 8
    else pdu.lodScaleYIdc = ctx.afps.lodModeEnableFlag.toNat
  plrData : PlrCoded ctx ctx.asps.plrEnabledFlag pdu.plrData

inductive MergePatchDataUnit.Coded : MergePatchDataUnit → Prop
  | override2d {refIndex pos2dX pos2dY delta2dSizeX delta2dSizeY : ℤ} {plrData : PLRData}
      (hrefIndex : RefIndexCoded ctx refIndex) (hx : FitsSe pos2dX) (hy : FitsSe pos2dY)
      (hsizeX : FitsSe delta2dSizeX) (hsizeY : FitsSe delta2dSizeY)
      (hplr : PlrCoded ctx ctx.asps.plrEnabledFlag plrData) :
      Coded {
        override2dParamsFlag := true, refIndex, pos2dX, pos2dY, delta2dSizeX, delta2dSizeY
        plrData }
  | override3d {refIndex pos3dOffsetU pos3dOffsetV pos3dOffsetD pos3dRangeD : ℤ}
      {overridePlrFlag : Bool} {plrData : PLRData}
      (hrefIndex : RefIndexCoded ctx refIndex) (hu : FitsSe pos3dOffsetU)
      (hv : FitsSe pos3dOffsetV) (hd : FitsSe pos3dOffsetD) (hrange : RangeDCoded ctx pos3dRangeD)
      (hoverride : ctx.asps.plrEnabledFlag = false → overridePlrFlag = false)
      (hplr : PlrCoded ctx overridePlrFlag plrData) :
      Coded {
        override3dParamsFlag := true, overridePlrFlag, refIndex, pos3dOffsetU, pos3dOffsetV
        pos3dOffsetD, pos3dRangeD, plrData }
  | inherit {refIndex : ℤ} (hrefIndex : RefIndexCoded ctx refIndex) : Coded { refIndex }

structure InterPatchDataUnit.Coded (ipdu : InterPatchDataUnit) : Prop where
  refIndex : RefIndexCoded ctx ipdu.refIndex
  refPatchIndex : FitsSe ipdu.refPatchIndex
  pos2dX : FitsSe ipdu.pos2dX
  pos2dY : FitsSe ipdu.pos2dY
  delta2dSizeX : FitsSe ipdu.delta2dSizeX
  delta2dSizeY : FitsSe ipdu.delta2dSizeY
  pos3dOffsetU : FitsSe ipdu.pos3dOffsetU
  pos3dOffsetV : FitsSe ipdu.pos3dOffsetV
  pos3dOffsetD : FitsSe ipdu.pos3dOffsetD
  pos3dRangeD : RangeDCoded ctx ipdu.pos3dRangeD
  plrData : PlrCoded ctx ctx.asps.plrEnabledFlag ipdu.plrData

/-- The flag of RAW and EOM patches is coded when the tile has rows in the auxiliary video. -/
def AuxiliaryCoded (patchInAuxiliaryVideoFlag : Bool) : Prop :=
  ∃ auxiliary, ctx.auxiliaryVideo = some auxiliary ∧
    (auxiliary = false → patchInAuxiliaryVideoFlag = false)

structure RawPatchDataUnit.Coded (rpdu : RawPatchDataUnit) : Prop where
  patchInAuxiliaryVideoFlag : AuxiliaryCoded ctx rpdu.patchInAuxiliaryVideoFlag
  pos2dX : FitsUe rpdu.pos2dX
  pos2dY : FitsUe rpdu.pos2dY
  size2dXMinus1 : FitsUe rpdu.size2dXMinus1
  size2dYMinus1 : FitsUe rpdu.size2dYMinus1
  pos3dOffsetU : FitsU ctx.bitCountRaw rpdu.pos3dOffsetU
  pos3dOffsetV : FitsU ctx.bitCountRaw rpdu.pos3dOffsetV
  pos3dOffsetD : FitsU ctx.bitCountRaw rpdu.pos3dOffsetD
  rawPointsMinus1 : FitsUe rpdu.rawPointsMinus1

structure EOMPatchDataUnit.Coded (epdu : EOMPatchDataUnit) : Prop where
  patchInAuxiliaryVideoFlag : AuxiliaryCoded ctx epdu.patchInAuxiliaryVideoFlag
  pos2dX : FitsUe epdu.pos2dX
  pos2dY : FitsUe epdu.pos2dY
  size2dXMinus1 : FitsUe epdu.size2dXMinus1
  size2dYMinus1 : FitsUe epdu.size2dYMinus1
  patchCountMinus1 : FitsUe epdu.patchCountMinus1
  length_patches : epdu.patches.length = epdu.patchCountMinus1 + 1
  patches : ∀ patch ∈ epdu.patches, FitsUe patch.1 ∧ FitsUe patch.2

/-- An entry with a mode of the tile type, whose data unit can be coded. -/
def PatchInformationData.Coded (pid : PatchInformationData) : Prop :=
  match ctx.ath.type with
  | .pTile =>
    pid.patchMode = P_SKIP ∨
    pid.patchMode = P_MERGE ∧ pid.mergePatchDataUnit.Coded ctx ∨
    pid.patchMode = P_INTRA ∧ pid.patchDataUnit.Coded ctx ∨
    pid.patchMode = P_INTER ∧ pid.interPatchDataUnit.Coded ctx ∨
    pid.patchMode = P_RAW ∧ pid.rawPatchDataUnit.Coded ctx ∨
    pid.patchMode = P_EOM ∧ pid.eomPatchDataUnit.Coded ctx
  | .iTile =>
    pid.patchMode = I_INTRA ∧ pid.patchDataUnit.Coded ctx ∨
    pid.patchMode = I_RAW ∧ pid.rawPatchDataUnit.Coded ctx ∨
    pid.patchMode = I_EOM ∧ pid.eomPatchDataUnit.Coded ctx
  | _ => False

end Coded

/-- The entry with nothing but its mode and the data unit of its mode. -/
def PatchInformationData.ofMode (pid : PatchInformationData) : PCCTileType → PatchInformationData
  | .pTile =>
    if pid.patchMode = P_MERGE then
      { patchMode := P_MERGE, mergePatchDataUnit := pid.mergePatchDataUnit }
    else if pid.patchMode = P_INTRA then
      { patchMode := P_INTRA, patchDataUnit := pid.patchDataUnit }
    else if pid.patchMode = P_INTER then
      { patchMode := P_INTER, interPatchDataUnit := pid.interPatchDataUnit }
    else if pid.patchMode = P_RAW then
      { patchMode := P_RAW, rawPatchDataUnit := pid.rawPatchDataUnit }
    else if pid.patchMode = P_EOM then
      { patchMode := P_EOM, eomPatchDataUnit := pid.eomPatchDataUnit }
    else { patchMode := pid.patchMode }
  | .iTile =>
    if pid.patchMode = I_INTRA then
      { patchMode := I_INTRA, patchDataUnit := pid.patchDataUnit }
    else if pid.patchMode = I_RAW then
      { patchMode := I_RAW, rawPatchDataUnit := pid.rawPatchDataUnit }
    else if pid.patchMode = I_EOM then
      { patchMode := I_EOM, eomPatchDataUnit := pid.eomPatchDataUnit }
    else { patchMode := pid.patchMode }
  | _ => { patchMode := pid.patchMode }

/-! ### The block maps of a tile -/

section BlockMaps
variable (ctx : TileContext)

def PatchInformationData.carriedPlrData (pid : PatchInformationData) : Option PLRData :=
  match ctx.ath.type with
  | .pTile =>
    if pid.patchMode = P_MERGE then
      if PCCBitstreamReader.mergeOverridesPlr ctx pid.mergePatchDataUnit then
        some pid.mergePatchDataUnit.plrData
      else none
    else if pid.patchMode = P_INTRA then
      if ctx.asps.plrEnabledFlag then some pid.patchDataUnit.plrData else none
    else if pid.patchMode = P_INTER then
      if ctx.asps.plrEnabledFlag then some pid.interPatchDataUnit.plrData else none
    else none
  | .iTile =>
    if pid.patchMode = I_INTRA then
      if ctx.asps.plrEnabledFlag then some pid.patchDataUnit.plrData else none
    else none
  | _ => none

/-- The block map of an intra patch has the size of the patch; that of a merge patch grows
from the one before it in the tile; that of an inter patch grows from the one it refers to. -/
def PatchInformationData.derivedSizes (pid : PatchInformationData)
    (layers : List AtlasTileLayerRbsp) (state : TileState) : Option (ℤ × ℤ) :=
  if ctx.ath.type = .pTile ∧ pid.patchMode = P_MERGE then
    some (state.prevPatchSizeU + pid.mergePatchDataUnit.delta2dSizeX,
      state.prevPatchSizeV + pid.mergePatchDataUnit.delta2dSizeY)
  else if ctx.ath.type = .pTile ∧ pid.patchMode = P_INTER then
    interPatchSizes layers state pid.interPatchDataUnit.refPatchIndex
      pid.interPatchDataUnit.delta2dSizeX pid.interPatchDataUnit.delta2dSizeY
  else some (pid.patchDataUnit.size2dXMinus1 + 1, pid.patchDataUnit.size2dYMinus1 + 1)

def PatchInformationData.SizesFit (pid : PatchInformationData)
    (layers : List AtlasTileLayerRbsp) (state : TileState) : Prop :=
  ∀ plrd, pid.carriedPlrData ctx = some plrd →
    ∃ sizeU sizeV, pid.derivedSizes ctx layers state = some (sizeU, sizeV) ∧
      plrd.blockToPatchMapWidth = toSizeT sizeU ∧ plrd.blockToPatchMapHeight = toSizeT sizeV

/-- What a patch leaves for the patches behind it: the size of its block map, and for an
inter patch the index it counts from. -/
def PatchInformationData.nextState (pid : PatchInformationData) (state : TileState) : TileState :=
  match pid.carriedPlrData ctx with
  | none => state
  | some plrd =>
    let prevPatchSizeU := toInt plrd.blockToPatchMapWidth
    let prevPatchSizeV := toInt plrd.blockToPatchMapHeight
    if ctx.ath.type = .pTile ∧ pid.patchMode = P_MERGE then
      { state with prevPatchSizeU, prevPatchSizeV }
    else if ctx.ath.type = .pTile ∧ pid.patchMode = P_INTER then
      let predPatchIndex :=
        toInt (state.predPatchIndex + (pid.interPatchDataUnit.refPatchIndex + 1))
      { state with predPatchIndex, prevPatchSizeU, prevPatchSizeV }
    else state

/-- A merge patch that overrides its block data alone, in a tile with a map to code it for:
the writer leaves the data out. -/
def PatchInformationData.LosesPlrData (pid : PatchInformationData) : Prop :=
  ctx.ath.type = .pTile ∧ pid.patchMode = P_MERGE ∧
    pid.mergePatchDataUnit.override2dParamsFlag = false ∧
    PCCBitstreamReader.mergeOverridesPlr ctx pid.mergePatchDataUnit = true ∧
    ∃ maps, ctx.plrMaps = some maps ∧ ∃ plri ∈ maps, plri.mapEnabledFlag = true

/-- Every block map of a tile has the size that what precedes it gives. -/
def BlockSizesFit (history : TileHistory) :
    List PatchInformationData → TileState → List PatchInformationData → Prop
  | _, _, [] => True
  | patches, state, pid :: pids =>
    pid.SizesFit ctx (history.during ctx.ath patches pid.patchMode) state ∧
      BlockSizesFit history (patches ++ [pid.ofMode ctx.ath.type]) (pid.nextState ctx state) pids

end BlockMaps

/-! ### One patch -/

section Patch
variable {ctx : TileContext}

/-- Block data that is coded or left out, in the size the reader allocates. -/
theorem optionalPlrData_roundTrip {coded : Bool} {plrd : PLRData} {sizeU sizeV : ℤ}
    (h : PlrCoded ctx coded plrd) (hsize : coded = true →
      plrd.blockToPatchMapWidth = toSizeT sizeU ∧ plrd.blockToPatchMapHeight = toSizeT sizeV) :
    RoundTrip (Writer.when coded (PCCBitstreamWriter.plrData ctx plrd))
      (Reader.whenElse coded (PCCBitstreamReader.plrData ctx sizeU sizeV) {}) plrd := by
  apply RoundTrip.when_whenElse
  · rintro rfl
    obtain ⟨maps, hmaps, hcoded⟩ := h
    obtain ⟨hwidth, hheight⟩ := hsize rfl
    exact plrData_roundTrip hmaps hcoded hwidth hheight
  · rintro rfl
    exact h

theorem lodParameters_roundTrip {lodModeEnableFlag lodEnableFlag : Bool} {x y : ℕ}
    (hflag : lodModeEnableFlag = false → lodEnableFlag = false)
    (hx : if lodEnableFlag then x < 2 ^ 8 else x = 0)
    (hy : if lodEnableFlag then y < 2 ^ 8 else y = lodModeEnableFlag.toNat) :
    RoundTrip (Writer.when lodModeEnableFlag do
        writeFlag lodEnableFlag
        Writer.when lodEnableFlag do
          writeUvlc x
          writeUvlc y)
      (Reader.whenElse lodModeEnableFlag PCCBitstreamReader.lodParameters (false, 0, 0))
      (lodEnableFlag, x, y) := by
  apply RoundTrip.when_whenElse
  · rintro rfl
    unfold PCCBitstreamReader.lodParameters
    apply (RoundTrip.flag lodEnableFlag).bind
    cases lodEnableFlag with
    | true => exact (roundTrip_uvlc8 hx).bind ((roundTrip_uvlc8 hy).last rfl)
    | false =>
      obtain rfl : x = 0 := hx
      obtain rfl : y = 1 := hy
      exact RoundTrip.pure _
  · rintro rfl
    obtain rfl := hflag rfl
    obtain rfl : x = 0 := hx
    obtain rfl : y = 0 := hy
    rfl

theorem patchDataUnit_roundTrip {pdu : PatchDataUnit} (h : pdu.Coded ctx)
    (hsize : ctx.asps.plrEnabledFlag = true →
      pdu.plrData.blockToPatchMapWidth = toSizeT (pdu.size2dXMinus1 + 1) ∧
        pdu.plrData.blockToPatchMapHeight = toSizeT (pdu.size2dYMinus1 + 1)) :
    RoundTrip (PCCBitstreamWriter.patchDataUnit ctx pdu) (PCCBitstreamReader.patchDataUnit ctx)
      pdu := by
  have hrange : RoundTrip (Writer.when ctx.asps.normalAxisMaxDeltaValueEnabledFlag
        (write pdu.pos3dRangeD ctx.bitCountForMaxDepth))
      (Reader.whenElse ctx.asps.normalAxisMaxDeltaValueEnabledFlag
        (read ctx.bitCountForMaxDepth) 0) pdu.pos3dRangeD := by
    have hrangeD := h.pos3dRangeD
    apply RoundTrip.when_whenElse
    · intro hflag
      rw [if_pos hflag] at hrangeD
      exact hrangeD.roundTrip
    · intro hflag
      rwa [hflag] at hrangeD
  unfold PCCBitstreamWriter.patchDataUnit PCCBitstreamReader.patchDataUnit
  apply h.pos2dX.roundTrip.bind
  apply h.pos2dY.roundTrip.bind
  apply h.size2dXMinus1.roundTrip.bind
  apply h.size2dYMinus1.roundTrip.bind
  apply h.pos3dOffsetU.roundTrip.bind
  apply h.pos3dOffsetV.roundTrip.bind
  apply h.pos3dOffsetD.roundTrip.bind
  apply hrange.bind
  apply h.projectionId.roundTrip.bind
  apply h.orientationIndex.roundTrip.bind
  apply (lodParameters_roundTrip h.lodEnableFlag h.lodScaleXMinus1 h.lodScaleYIdc).bind
  exact (optionalPlrData_roundTrip h.plrData hsize).last rfl

theorem refIndex_roundTrip {active n : ℕ} (hn : FitsUe n) (h : active ≤ 1 → n = 0) :
    RoundTrip (Writer.when (1 < active) (writeUvlc ((n : ℤ) % 2 ^ 32).toNat))
      (Reader.whenElse (1 < active) readUvlc 0) n := by
  have hcast : ((n : ℤ) % 2 ^ 32).toNat = n := by
    unfold FitsUe at hn
    omega
  rw [hcast]
  apply RoundTrip.when_whenElse
  · intro _
    exact hn.roundTrip
  · intro hactive
    exact h (not_lt.mp (of_decide_eq_false hactive))

theorem rangeD_roundTrip {pos3dRangeD : ℤ} (h : RangeDCoded ctx pos3dRangeD) :
    RoundTrip (Writer.when ctx.asps.normalAxisMaxDeltaValueEnabledFlag (writeSvlc pos3dRangeD))
      (Reader.whenElse ctx.asps.normalAxisMaxDeltaValueEnabledFlag readSvlc 0) pos3dRangeD := by
  unfold RangeDCoded at h
  apply RoundTrip.when_whenElse
  · intro hflag
    rw [if_pos hflag] at h
    exact h.roundTrip
  · intro hflag
    rwa [hflag] at h

theorem auxiliary_roundTrip {auxiliary flag : Bool} (h : auxiliary = false → flag = false) :
    RoundTrip (Writer.when auxiliary (writeFlag flag)) (Reader.whenElse auxiliary readFlag false)
      flag := by
  apply RoundTrip.when_whenElse
  · intro _
    exact RoundTrip.flag flag
  · exact h

theorem interPatchDataUnit_roundTrip {ipdu : InterPatchDataUnit} (h : ipdu.Coded ctx)
    (layers : List AtlasTileLayerRbsp) (state : TileState) (sizeU sizeV : ℤ)
    (hderived : ctx.asps.plrEnabledFlag = true →
      interPatchSizes layers state ipdu.refPatchIndex ipdu.delta2dSizeX ipdu.delta2dSizeY =
        some (sizeU, sizeV))
    (hsize : ctx.asps.plrEnabledFlag = true →
      ipdu.plrData.blockToPatchMapWidth = toSizeT sizeU ∧
        ipdu.plrData.blockToPatchMapHeight = toSizeT sizeV) :
    RoundTrip (PCCBitstreamWriter.interPatchDataUnit ctx ipdu)
      (PCCBitstreamReader.interPatchDataUnit ctx layers state)
      (ipdu, if ctx.asps.plrEnabledFlag then
        { state with
          predPatchIndex := toInt (state.predPatchIndex + (ipdu.refPatchIndex + 1))
          prevPatchSizeU := sizeU, prevPatchSizeV := sizeV } else state) := by
  obtain ⟨active, hactive, n, hn, hfits, hzero⟩ := h.refIndex
  unfold PCCBitstreamWriter.interPatchDataUnit PCCBitstreamReader.interPatchDataUnit
    PCCBitstreamReader.interParameters
  simp only [bind_assoc, pure_bind, hn]
  apply RoundTrip.ofOption hactive
  apply (refIndex_roundTrip hfits hzero).bind
  apply h.refPatchIndex.roundTrip.bind
  apply h.pos2dX.roundTrip.bind
  apply h.pos2dY.roundTrip.bind
  apply h.delta2dSizeX.roundTrip.bind
  apply h.delta2dSizeY.roundTrip.bind
  apply h.pos3dOffsetU.roundTrip.bind
  apply h.pos3dOffsetV.roundTrip.bind
  apply h.pos3dOffsetD.roundTrip.bind
  apply (rangeD_roundTrip h.pos3dRangeD).bind
  have hplr := h.plrData
  cases henabled : ctx.asps.plrEnabledFlag with
  | true =>
    rw [henabled] at hplr
    obtain ⟨maps, hmaps, hcoded⟩ := hplr
    obtain ⟨hwidth, hheight⟩ := hsize henabled
    rw [if_pos rfl, hderived henabled, Reader.ofOption_some, pure_bind]
    apply (plrData_roundTrip hmaps hcoded hwidth hheight).last
    rw [← hn]
    rfl
  | false =>
    rw [henabled] at hplr
    rw [if_neg (by simp), ← hn]
    cases ipdu
    obtain rfl : _ = ({} : PLRData) := hplr
    exact RoundTrip.pure _

theorem rawPatchDataUnit_roundTrip {rpdu : RawPatchDataUnit} (h : rpdu.Coded ctx) :
    RoundTrip (PCCBitstreamWriter.rawPatchDataUnit ctx rpdu)
      (PCCBitstreamReader.rawPatchDataUnit ctx) rpdu := by
  obtain ⟨auxiliary, hauxiliary, hflag⟩ := h.patchInAuxiliaryVideoFlag
  unfold PCCBitstreamWriter.rawPatchDataUnit PCCBitstreamReader.rawPatchDataUnit
  apply RoundTrip.ofOption hauxiliary
  apply (auxiliary_roundTrip hflag).bind
  apply h.pos2dX.roundTrip.bind
  apply h.pos2dY.roundTrip.bind
  apply h.size2dXMinus1.roundTrip.bind
  apply h.size2dYMinus1.roundTrip.bind
  apply h.pos3dOffsetU.roundTrip.bind
  apply h.pos3dOffsetV.roundTrip.bind
  apply h.pos3dOffsetD.roundTrip.bind
  exact h.rawPointsMinus1.roundTrip.last rfl

theorem eomPatchDataUnit_roundTrip {epdu : EOMPatchDataUnit} (h : epdu.Coded ctx) :
    RoundTrip (PCCBitstreamWriter.eomPatchDataUnit ctx epdu)
      (PCCBitstreamReader.eomPatchDataUnit ctx) epdu := by
  obtain ⟨auxiliary, hauxiliary, hflag⟩ := h.patchInAuxiliaryVideoFlag
  have hpatches : (List.range (epdu.patchCountMinus1 + 1)).map
      (fun i => epdu.patches[i]?.getD (0, 0)) = epdu.patches := by
    apply List.ext_getElem
    · simp [h.length_patches]
    · intro i _ hi
      simp [hi]
  have hloop := RoundTrip.forEach_repeatFrom
    (f := fun i => do
      let patch ← Writer.ofOption epdu.patches[i]?
      writeUvlc patch.1
      writeUvlc patch.2)
    (g := fun _ => do
      let associatedPatchesIdx ← readUvlc
      let points ← readUvlc
      pure (associatedPatchesIdx, points))
    (y := fun i => epdu.patches[i]?.getD (0, 0)) (List.range (epdu.patchCountMinus1 + 1)) 0 (by
      intro i hi
      rw [List.length_range, ← h.length_patches] at hi
      obtain ⟨hidx, hpoints⟩ := h.patches _ (List.getElem_mem hi)
      simp only [List.getElem_range, List.getElem?_eq_getElem hi, Option.getD_some,
        Writer.ofOption_some, pure_bind]
      exact hidx.roundTrip.bind (hpoints.roundTrip.last rfl))
  rw [List.length_range, hpatches] at hloop
  unfold PCCBitstreamWriter.eomPatchDataUnit PCCBitstreamReader.eomPatchDataUnit
  apply RoundTrip.ofOption hauxiliary
  apply (auxiliary_roundTrip hflag).bind
  apply h.pos2dX.roundTrip.bind
  apply h.pos2dY.roundTrip.bind
  apply h.size2dXMinus1.roundTrip.bind
  apply h.size2dYMinus1.roundTrip.bind
  apply h.patchCountMinus1.roundTrip.bind
  exact hloop.last rfl

/-- Without a map that codes it, block data takes no bits. -/
theorem plrData_eq_pure {maps : List PLRInformation} (plrd : PLRData)
    (hmaps : ctx.plrMaps = some maps) (h : ∀ plri ∈ maps, plri.mapEnabledFlag = false) :
    PCCBitstreamWriter.plrData ctx plrd = pure () := by
  unfold PCCBitstreamWriter.plrData
  rw [hmaps, Writer.ofOption_some, pure_bind]
  clear hmaps
  induction maps with
  | nil => rfl
  | cons plri maps ih =>
    have hskip : PCCBitstreamWriter.plrMap plrd plri = pure () := by
      unfold PCCBitstreamWriter.plrMap
      rw [h plri List.mem_cons_self, Writer.when_false]
    rw [Writer.forEach_cons, hskip, pure_bind]
    exact ih fun p hp => h p (List.mem_cons_of_mem plri hp)

/-- What a merge patch leaves behind. -/
def mergeState (ctx : TileContext) (mpdu : MergePatchDataUnit) (state : TileState) : TileState :=
  if PCCBitstreamReader.mergeOverridesPlr ctx mpdu then
    { state with
      prevPatchSizeU := toInt (state.prevPatchSizeU + mpdu.delta2dSizeX)
      prevPatchSizeV := toInt (state.prevPatchSizeV + mpdu.delta2dSizeY) }
  else state

theorem mergePatchDataUnit_roundTrip {mpdu : MergePatchDataUnit} (h : mpdu.Coded ctx)
    (state : TileState)
    (hsize : PCCBitstreamReader.mergeOverridesPlr ctx mpdu = true →
      mpdu.plrData.blockToPatchMapWidth = toSizeT (state.prevPatchSizeU + mpdu.delta2dSizeX) ∧
        mpdu.plrData.blockToPatchMapHeight = toSizeT (state.prevPatchSizeV + mpdu.delta2dSizeY))
    (hkept : mpdu.override2dParamsFlag = false →
      PCCBitstreamReader.mergeOverridesPlr ctx mpdu = true →
        ∀ maps, ctx.plrMaps = some maps → ∀ plri ∈ maps, plri.mapEnabledFlag = false) :
    RoundTrip (PCCBitstreamWriter.mergePatchDataUnit ctx mpdu)
      (PCCBitstreamReader.mergePatchDataUnit ctx state) (mpdu, mergeState ctx mpdu state) := by
  unfold PCCBitstreamWriter.mergePatchDataUnit PCCBitstreamReader.mergePatchDataUnit
    PCCBitstreamReader.mergeParameters
  simp only [bind_assoc]
  cases h with
  | override2d hrefIndex hx hy hsizeX hsizeY hplr =>
    obtain ⟨active, hactive, n, rfl, hfits, hzero⟩ := hrefIndex
    apply RoundTrip.ofOption hactive
    apply (refIndex_roundTrip hfits hzero).bind
    apply (RoundTrip.flag true).bind
    unfold PCCBitstreamReader.mergeOverride2d
    simp only [if_true, bind_assoc, pure_bind]
    apply hx.roundTrip.bind
    apply hy.roundTrip.bind
    apply hsizeX.roundTrip.bind
    apply hsizeY.roundTrip.bind
    unfold mergeState
    simp only [PCCBitstreamReader.mergeOverridesPlr, Bool.true_or, Bool.and_true] at hsize ⊢
    cases henabled : ctx.asps.plrEnabledFlag with
    | true =>
      rw [henabled] at hplr
      obtain ⟨maps, hmaps, hcoded⟩ := hplr
      obtain ⟨hwidth, hheight⟩ := hsize henabled
      exact (plrData_roundTrip hmaps hcoded hwidth hheight).last rfl
    | false =>
      rw [henabled] at hplr
      obtain rfl : _ = ({} : PLRData) := hplr
      exact RoundTrip.pure _
  | @override3d _ _ _ _ _ overridePlrFlag _ hrefIndex hu hv hd hrange hoverride hplr =>
    obtain ⟨active, hactive, n, rfl, hfits, hzero⟩ := hrefIndex
    apply RoundTrip.ofOption hactive
    apply (refIndex_roundTrip hfits hzero).bind
    apply (RoundTrip.flag false).bind
    unfold PCCBitstreamReader.mergeOverride3d
    simp only [Bool.false_eq_true, if_false, bind_assoc]
    apply (RoundTrip.flag true).bind
    simp only [Writer.when_true, Reader.whenElse_true, bind_assoc, pure_bind]
    apply hu.roundTrip.bind
    apply hv.roundTrip.bind
    apply hd.roundTrip.bind
    apply (rangeD_roundTrip hrange).bind
    apply RoundTrip.then_pure (auxiliary_roundTrip hoverride)
    unfold mergeState
    simp only [PCCBitstreamReader.mergeOverridesPlr, Bool.false_or] at hsize hkept ⊢
    cases overridePlrFlag with
    | true =>
      have henabled : ctx.asps.plrEnabledFlag = true := by
        by_contra hne
        exact absurd (hoverride (Bool.eq_false_of_not_eq_true hne)) (by simp)
      obtain ⟨maps, hmaps, hcoded⟩ := hplr
      rw [henabled] at hsize hkept ⊢
      obtain ⟨hwidth, hheight⟩ := hsize rfl
      have hread := plrData_roundTrip hmaps hcoded hwidth hheight
      rw [plrData_eq_pure _ hmaps (hkept trivial rfl maps hmaps)] at hread
      exact hread.last rfl
    | false =>
      obtain rfl : _ = ({} : PLRData) := hplr
      rw [Bool.and_false]
      exact RoundTrip.pure _
  | inherit hrefIndex =>
    obtain ⟨active, hactive, n, rfl, hfits, hzero⟩ := hrefIndex
    apply RoundTrip.ofOption hactive
    apply (refIndex_roundTrip hfits hzero).bind
    apply (RoundTrip.flag false).bind
    simp only [Bool.false_eq_true, if_false, bind_assoc]
    apply (RoundTrip.flag false).bind
    unfold mergeState
    simp only [PCCBitstreamReader.mergeOverridesPlr, Bool.or_self, Bool.and_false,
      Writer.when_false, Reader.whenElse_false, pure_bind]
    exact RoundTrip.pure _

theorem toInt_toSizeT (z : ℤ) : toInt (toSizeT z) = toInt z := by
  have hcast : ((toSizeT z : ℕ) : ℤ) = z + ((2 ^ 32 : ℕ) : ℤ) * (-(2 ^ 32) * (z / 2 ^ 64)) := by
    unfold toSizeT
    have := Int.emod_add_mul_ediv z (2 ^ 64)
    have := Int.emod_nonneg z (show (2 ^ 64 : ℤ) ≠ 0 by decide)
    push_cast
    omega
  unfold toInt
  rw [hcast, Int.add_mul_bmod_self_left]

theorem toInt_toInt (z : ℤ) : toInt (toInt z) = toInt z := Int.bmod_bmod

theorem interPatchSizes_toInt {layers : List AtlasTileLayerRbsp} {state : TileState}
    {refPatchIndex deltaX deltaY sizeU sizeV : ℤ}
    (h : interPatchSizes layers state refPatchIndex deltaX deltaY = some (sizeU, sizeV)) :
    toInt sizeU = sizeU ∧ toInt sizeV = sizeV := by
  obtain ⟨layer, -, h⟩ := Option.bind_eq_some_iff.mp h
  obtain ⟨pid, -, h⟩ := Option.bind_eq_some_iff.mp h
  obtain ⟨rfl, rfl⟩ := Prod.mk.inj (Option.some.inj h)
  exact ⟨toInt_toInt _, toInt_toInt _⟩

variable {layers : List AtlasTileLayerRbsp} {state : TileState} {pid : PatchInformationData}

theorem intraPatch_roundTrip {pdu : PatchDataUnit} (h : pdu.Coded ctx) (patchMode : ℕ)
    (hsize : ctx.asps.plrEnabledFlag = true →
      pdu.plrData.blockToPatchMapWidth = toSizeT (pdu.size2dXMinus1 + 1) ∧
        pdu.plrData.blockToPatchMapHeight = toSizeT (pdu.size2dYMinus1 + 1)) :
    RoundTrip (PCCBitstreamWriter.patchDataUnit ctx pdu)
      (PCCBitstreamReader.intraPatch ctx patchMode state)
      ({ patchMode, patchDataUnit := pdu }, state) :=
  (patchDataUnit_roundTrip h hsize).last rfl

theorem rawPatch_roundTrip {rpdu : RawPatchDataUnit} (h : rpdu.Coded ctx) (patchMode : ℕ) :
    RoundTrip (PCCBitstreamWriter.rawPatchDataUnit ctx rpdu)
      (PCCBitstreamReader.rawPatch ctx patchMode state)
      ({ patchMode, rawPatchDataUnit := rpdu }, state) :=
  (rawPatchDataUnit_roundTrip h).last rfl

theorem eomPatch_roundTrip {epdu : EOMPatchDataUnit} (h : epdu.Coded ctx) (patchMode : ℕ) :
    RoundTrip (PCCBitstreamWriter.eomPatchDataUnit ctx epdu)
      (PCCBitstreamReader.eomPatch ctx patchMode state)
      ({ patchMode, eomPatchDataUnit := epdu }, state) :=
  (eomPatchDataUnit_roundTrip h).last rfl

theorem mergePatch_roundTrip (htype : ctx.ath.type = .pTile) (hmode : pid.patchMode = P_MERGE)
    (h : pid.mergePatchDataUnit.Coded ctx) (hsizes : pid.SizesFit ctx layers state)
    (hkept : ¬ pid.LosesPlrData ctx) :
    RoundTrip (PCCBitstreamWriter.mergePatchDataUnit ctx pid.mergePatchDataUnit)
      (PCCBitstreamReader.mergePatch ctx state)
      ({ patchMode := P_MERGE, mergePatchDataUnit := pid.mergePatchDataUnit },
        pid.nextState ctx state) := by
  have hcarried : pid.carriedPlrData ctx =
      if PCCBitstreamReader.mergeOverridesPlr ctx pid.mergePatchDataUnit then
        some pid.mergePatchDataUnit.plrData else none := by
    unfold PatchInformationData.carriedPlrData
    simp only [htype, hmode, if_true]
  have hsize : PCCBitstreamReader.mergeOverridesPlr ctx pid.mergePatchDataUnit = true →
      pid.mergePatchDataUnit.plrData.blockToPatchMapWidth =
          toSizeT (state.prevPatchSizeU + pid.mergePatchDataUnit.delta2dSizeX) ∧
        pid.mergePatchDataUnit.plrData.blockToPatchMapHeight =
          toSizeT (state.prevPatchSizeV + pid.mergePatchDataUnit.delta2dSizeY) := by
    intro hover
    obtain ⟨sizeU, sizeV, hderived, hwidth, hheight⟩ :=
      hsizes _ (by rw [hcarried, if_pos hover])
    unfold PatchInformationData.derivedSizes at hderived
    rw [if_pos ⟨htype, hmode⟩] at hderived
    obtain ⟨rfl, rfl⟩ := Prod.mk.inj (Option.some.inj hderived)
    exact ⟨hwidth, hheight⟩
  have hstate : mergeState ctx pid.mergePatchDataUnit state = pid.nextState ctx state := by
    unfold mergeState PatchInformationData.nextState
    rw [hcarried]
    by_cases hover : PCCBitstreamReader.mergeOverridesPlr ctx pid.mergePatchDataUnit = true
    · obtain ⟨hwidth, hheight⟩ := hsize hover
      simp only [if_pos hover, if_pos (And.intro htype hmode), hwidth, hheight, toInt_toSizeT]
    · rw [if_neg hover, if_neg hover]
  rw [← hstate]
  have hlost : pid.mergePatchDataUnit.override2dParamsFlag = false →
      PCCBitstreamReader.mergeOverridesPlr ctx pid.mergePatchDataUnit = true →
        ∀ maps, ctx.plrMaps = some maps → ∀ plri ∈ maps, plri.mapEnabledFlag = false := by
    intro h2d hover maps hmaps plri hplri
    by_contra henabled
    exact hkept ⟨htype, hmode, h2d, hover, maps, hmaps, plri, hplri,
      Bool.eq_true_of_not_eq_false henabled⟩
  exact (mergePatchDataUnit_roundTrip h state hsize hlost).last rfl

theorem interPatch_roundTrip (htype : ctx.ath.type = .pTile) (hmode : pid.patchMode = P_INTER)
    (h : pid.interPatchDataUnit.Coded ctx) (hsizes : pid.SizesFit ctx layers state) :
    RoundTrip (PCCBitstreamWriter.interPatchDataUnit ctx pid.interPatchDataUnit)
      (PCCBitstreamReader.interPatch ctx layers state)
      ({ patchMode := P_INTER, interPatchDataUnit := pid.interPatchDataUnit },
        pid.nextState ctx state) := by
  have hcarried : pid.carriedPlrData ctx =
      if ctx.asps.plrEnabledFlag then some pid.interPatchDataUnit.plrData else none := by
    unfold PatchInformationData.carriedPlrData
    simp [htype, hmode, P_INTER, P_MERGE, P_INTRA]
  have hnotMerge : ¬ (ctx.ath.type = .pTile ∧ pid.patchMode = P_MERGE) := by
    rw [hmode]
    exact fun hboth => absurd hboth.2 (by decide)
  by_cases henabled : ctx.asps.plrEnabledFlag = true
  · obtain ⟨sizeU, sizeV, hderived, hwidth, hheight⟩ :=
      hsizes _ (by rw [hcarried, if_pos henabled])
    unfold PatchInformationData.derivedSizes at hderived
    rw [if_neg hnotMerge, if_pos ⟨htype, hmode⟩] at hderived
    obtain ⟨hsizeU, hsizeV⟩ := interPatchSizes_toInt hderived
    apply (interPatchDataUnit_roundTrip h layers state sizeU sizeV (fun _ => hderived)
      fun _ => ⟨hwidth, hheight⟩).last
    unfold PatchInformationData.nextState
    rw [hcarried]
    simp only [henabled, if_true, if_neg hnotMerge, if_pos (And.intro htype hmode), hwidth,
      hheight, toInt_toSizeT, hsizeU, hsizeV]
  · have hnever : ∀ P : Prop, ctx.asps.plrEnabledFlag = true → P := fun _ ht => absurd ht henabled
    apply (interPatchDataUnit_roundTrip h layers state 0 0 (hnever _) (hnever _)).last
    unfold PatchInformationData.nextState
    rw [hcarried]
    simp only [henabled]
    rfl

/-- An intra patch derives its sizes from its own, in either tile type. -/
theorem intraSizes (hcarried : pid.carriedPlrData ctx =
      if ctx.asps.plrEnabledFlag then some pid.patchDataUnit.plrData else none)
    (hmerge : ¬ (ctx.ath.type = .pTile ∧ pid.patchMode = P_MERGE))
    (hinter : ¬ (ctx.ath.type = .pTile ∧ pid.patchMode = P_INTER))
    (hsizes : pid.SizesFit ctx layers state) :
    pid.nextState ctx state = state ∧ (ctx.asps.plrEnabledFlag = true →
      pid.patchDataUnit.plrData.blockToPatchMapWidth =
          toSizeT (pid.patchDataUnit.size2dXMinus1 + 1) ∧
        pid.patchDataUnit.plrData.blockToPatchMapHeight =
          toSizeT (pid.patchDataUnit.size2dYMinus1 + 1)) := by
  constructor
  · unfold PatchInformationData.nextState
    rw [hcarried]
    cases ctx.asps.plrEnabledFlag with
    | true => simp only [if_true, if_neg hmerge, if_neg hinter]
    | false => rfl
  · intro henabled
    obtain ⟨sizeU, sizeV, hderived, hwidth, hheight⟩ :=
      hsizes _ (by rw [hcarried, if_pos henabled])
    unfold PatchInformationData.derivedSizes at hderived
    rw [if_neg hmerge, if_neg hinter] at hderived
    obtain ⟨rfl, rfl⟩ := Prod.mk.inj (Option.some.inj hderived)
    exact ⟨hwidth, hheight⟩

/-- An entry is read back as what its mode has of it. -/
theorem patchInformationData_roundTrip (h : pid.Coded ctx) (hsizes : pid.SizesFit ctx layers state)
    (hkept : ¬ pid.LosesPlrData ctx) :
    RoundTrip (PCCBitstreamWriter.patchInformationData ctx pid)
      (PCCBitstreamReader.patchInformationData ctx layers pid.patchMode state)
      (pid.ofMode ctx.ath.type, pid.nextState ctx state) := by
  have hcarried := @PatchInformationData.carriedPlrData.eq_def ctx pid
  have hintra := @intraSizes ctx layers state pid
  unfold PatchInformationData.Coded at h
  unfold PCCBitstreamWriter.patchInformationData PCCBitstreamReader.patchInformationData
    PatchInformationData.ofMode
  cases htype : ctx.ath.type with
  | pTile =>
    simp only [htype] at h hcarried
    rcases h with hmode | ⟨hmode, hunit⟩ | ⟨hmode, hunit⟩ | ⟨hmode, hunit⟩ | ⟨hmode, hunit⟩ |
      ⟨hmode, hunit⟩
    · have hstate : pid.nextState ctx state = state := by
        unfold PatchInformationData.nextState
        rw [hcarried]
        simp [hmode, P_SKIP, P_MERGE, P_INTRA, P_INTER]
      simp only [hmode, hstate]
      exact RoundTrip.pure _
    · have hmerge := mergePatch_roundTrip htype hmode hunit hsizes hkept
      simp only [hmode]
      exact hmerge
    · have hplr : pid.carriedPlrData ctx =
          if ctx.asps.plrEnabledFlag then some pid.patchDataUnit.plrData else none := by
        rw [hcarried]
        simp [hmode, P_MERGE, P_INTRA]
      obtain ⟨hstate, hsize⟩ := hintra hplr (by simp [hmode, P_MERGE, P_INTRA])
        (by simp [hmode, P_INTER, P_INTRA]) hsizes
      simp only [hmode, hstate]
      exact intraPatch_roundTrip hunit P_INTRA hsize
    · have hinter := interPatch_roundTrip htype hmode hunit hsizes
      simp only [hmode]
      exact hinter
    · have hstate : pid.nextState ctx state = state := by
        unfold PatchInformationData.nextState
        rw [hcarried]
        simp [hmode, P_RAW, P_MERGE, P_INTRA, P_INTER]
      simp only [hmode, hstate]
      exact rawPatch_roundTrip hunit P_RAW
    · have hstate : pid.nextState ctx state = state := by
        unfold PatchInformationData.nextState
        rw [hcarried]
        simp [hmode, P_EOM, P_MERGE, P_INTRA, P_INTER]
      simp only [hmode, hstate]
      exact eomPatch_roundTrip hunit P_EOM
  | iTile =>
    simp only [htype] at h hcarried
    rcases h with ⟨hmode, hunit⟩ | ⟨hmode, hunit⟩ | ⟨hmode, hunit⟩
    · have hplr : pid.carriedPlrData ctx =
          if ctx.asps.plrEnabledFlag then some pid.patchDataUnit.plrData else none := by
        rw [hcarried, if_pos hmode]
      obtain ⟨hstate, hsize⟩ := hintra hplr (by simp [htype]) (by simp [htype]) hsizes
      simp only [hmode, hstate]
      exact intraPatch_roundTrip hunit I_INTRA hsize
    · have hstate : pid.nextState ctx state = state := by
        unfold PatchInformationData.nextState
        rw [hcarried]
        simp [hmode, I_RAW, I_INTRA]
      simp only [hmode, hstate]
      exact rawPatch_roundTrip hunit I_RAW
    · have hstate : pid.nextState ctx state = state := by
        unfold PatchInformationData.nextState
        rw [hcarried]
        simp [hmode, I_EOM, I_INTRA]
      simp only [hmode, hstate]
      exact eomPatch_roundTrip hunit I_EOM
  | skipTile =>
    rw [htype] at h
    exact absurd h id
  | other value =>
    rw [htype] at h
    exact absurd h id

end Patch

/-! ### A whole tile -/

section Tile
variable {ctx : TileContext} {pid : PatchInformationData}

theorem PatchInformationData.Coded.patchMode_le (h : pid.Coded ctx) : pid.patchMode ≤ 5 := by
  unfold PatchInformationData.Coded at h
  cases htype : ctx.ath.type with
  | pTile =>
    simp only [htype] at h
    rcases h with hmode | ⟨hmode, -⟩ | ⟨hmode, -⟩ | ⟨hmode, -⟩ | ⟨hmode, -⟩ | ⟨hmode, -⟩ <;>
      rw [hmode] <;> decide
  | iTile =>
    simp only [htype] at h
    rcases h with ⟨hmode, -⟩ | ⟨hmode, -⟩ | ⟨hmode, -⟩ <;> rw [hmode] <;> decide
  | skipTile =>
    rw [htype] at h
    exact absurd h id
  | other value =>
    rw [htype] at h
    exact absurd h id

/-- The entry that ends a list carries nothing but its mode. -/
theorem patchInformationData_end {last : PatchInformationData} (hlast : last.patchMode = P_END) :
    PCCBitstreamWriter.patchInformationData ctx last = pure () := by
  unfold PCCBitstreamWriter.patchInformationData
  cases ctx.ath.type <;> simp only [hlast] <;> rfl

/-- An iteration writes at least a bit. -/
theorem length_uvlc_pos {value : ℕ} (h : FitsUe value) {p : Phase} {bs : List Bool}
    (hbs : writeUvlc value p = some ((), bs)) : 0 < bs.length := by
  obtain ⟨cs, hw, hr⟩ := h.roundTrip p
  obtain rfl : cs = bs := by
    rw [hw] at hbs
    exact (Prod.mk.inj (Option.some.inj hbs)).2
  by_contra hzero
  obtain rfl : cs = [] := List.length_eq_zero_iff.mp (by omega)
  exact absurd (hr []) (by simp [readUvlc, Reader.bind_run, Reader.zeros, Reader.zerosIn])

/-- The iteration of the writer's loop. -/
def writeEntry (ctx : TileContext) (pid : PatchInformationData) : Writer Unit := do
  writeUvlc pid.patchMode
  PCCBitstreamWriter.patchInformationData ctx pid

theorem patchLoop_roundTrip {history : TileHistory} {last : PatchInformationData}
    (hlast : last.patchMode = P_END) {pids patches : List PatchInformationData}
    {state : TileState} (h : ∀ pid ∈ pids, pid.Coded ctx)
    (hsizes : BlockSizesFit ctx history patches state pids)
    (hkept : ∀ pid ∈ pids, ¬ pid.LosesPlrData ctx) {fuel : ℕ} (hfuel : pids.length < fuel) :
    RoundTrip (Writer.forEach (pids ++ [last]) (writeEntry ctx))
      (PCCBitstreamReader.patchLoop ctx history fuel patches state)
      (patches ++ pids.map (·.ofMode ctx.ath.type),
        pids.foldl (fun state pid => pid.nextState ctx state) state) := by
  induction pids generalizing patches state fuel with
  | nil =>
    obtain ⟨fuel, rfl⟩ := Nat.exists_eq_succ_of_ne_zero (Nat.ne_of_gt hfuel)
    unfold PCCBitstreamReader.patchLoop
    simp only [List.nil_append, Writer.forEach_cons, Writer.forEach_nil, writeEntry, hlast,
      patchInformationData_end hlast, bind_assoc, pure_bind]
    apply (roundTrip_uvlc8 (show P_END < 2 ^ 8 by decide)).bind
    rw [if_pos (Or.inr rfl), List.map_nil, List.append_nil]
    exact RoundTrip.pure _
  | cons pid pids ih =>
    obtain ⟨fuel, rfl⟩ := Nat.exists_eq_succ_of_ne_zero (Nat.ne_of_gt (Nat.zero_lt_of_lt hfuel))
    obtain ⟨hsize, hrest⟩ := hsizes
    have hcoded := h pid List.mem_cons_self
    have hmode := hcoded.patchMode_le
    have hnotEnd : ¬ (pid.patchMode = I_END ∨ pid.patchMode = P_END) := by
      unfold I_END P_END
      omega
    unfold PCCBitstreamReader.patchLoop
    rw [List.cons_append, Writer.forEach_cons]
    simp only [writeEntry, bind_assoc]
    apply (roundTrip_uvlc8 (show pid.patchMode < 2 ^ 8 by omega)).bind
    rw [if_neg hnotEnd]
    apply (patchInformationData_roundTrip hcoded hsize (hkept pid List.mem_cons_self)).bind
    have hloop := ih (fun p hp => h p (List.mem_cons_of_mem pid hp)) hrest
      (fun p hp => hkept p (List.mem_cons_of_mem pid hp))
      (show pids.length < fuel by rw [List.length_cons] at hfuel; omega)
    rw [List.append_assoc] at hloop
    exact hloop

/-- The bits of a tile data unit with these patches and an entry that ends them are read back
as the patches. -/
def TileDataUnitRoundTrips (ctx : TileContext) (history : TileHistory) (state : TileState)
    (pids : List PatchInformationData) (last : PatchInformationData) : Prop :=
  ∃ state', RoundTrip
    (PCCBitstreamWriter.atlasTileDataUnit ctx { patchInformationData := pids ++ [last] })
    (PCCBitstreamReader.atlasTileDataUnit ctx history state)
    (pids.map (·.ofMode ctx.ath.type), state')

theorem tileDataUnitRoundTrips_of_fit {history : TileHistory} {last : PatchInformationData}
    (hlast : last.patchMode = P_END) {pids : List PatchInformationData} {state : TileState}
    (h : ∀ pid ∈ pids, pid.Coded ctx)
    (hsizes : BlockSizesFit ctx history [] { prevFrameIndex := state.prevFrameIndex } pids)
    (hkept : ∀ pid ∈ pids, ¬ pid.LosesPlrData ctx) :
    TileDataUnitRoundTrips ctx history state pids last := by
  unfold TileDataUnitRoundTrips PCCBitstreamWriter.atlasTileDataUnit
    PCCBitstreamReader.atlasTileDataUnit
  by_cases hskip : ctx.ath.type = .skipTile
  · rw [if_pos hskip, if_pos hskip]
    obtain rfl : pids = [] := by
      cases pids with
      | nil => rfl
      | cons pid pids =>
        have := h pid List.mem_cons_self
        unfold PatchInformationData.Coded at this
        rw [hskip] at this
        exact absurd this id
    exact ⟨state, RoundTrip.pure _⟩
  · rw [if_neg hskip, if_neg hskip]
    refine ⟨{ pids.foldl (fun state pid => pid.nextState ctx state)
      { prevFrameIndex := state.prevFrameIndex } with
      prevFrameIndex := toInt history.tileOrder }, fun p => ?_⟩
    obtain ⟨bs, hw, -⟩ := patchLoop_roundTrip hlast h hsizes hkept (Nat.lt_succ_self _) p
    have hlength : (pids ++ [last]).length ≤ bs.length := by
      apply Writer.length_le_of_forEach _ hw
      intro pid hpid p cs hcs
      obtain ⟨⟨⟩, ds, es, hds, -, rfl⟩ := Writer.bind_run_eq_some.mp hcs
      have hmode : pid.patchMode ≤ 14 := by
        rcases List.mem_append.mp hpid with hpid | hpid
        · have := (h pid hpid).patchMode_le
          omega
        · rw [List.mem_singleton.mp hpid, hlast]
          decide
      have := length_uvlc_pos (show pid.patchMode + 1 < 2 ^ 32 by omega) hds
      rw [List.length_append]
      omega
    refine ⟨bs, hw, fun rest => ?_⟩
    rw [List.length_append, List.length_singleton] at hlength
    obtain ⟨cs, hw', hr⟩ := patchLoop_roundTrip hlast h hsizes hkept
      (show pids.length < (bs ++ rest).length by rw [List.length_append]; omega) p
    obtain rfl : bs = cs := by
      rw [hw] at hw'
      exact (Prod.mk.inj (Option.some.inj hw')).2
    simp only [Reader.bind_run, Reader.remaining, Option.bind_some, hr rest]
    rfl

end Tile

end V3C

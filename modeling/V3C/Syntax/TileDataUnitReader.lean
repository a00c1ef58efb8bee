import V3C.Syntax.TileDataUnitWriter
import V3C.Syntax.ParameterSetReader

/-! The parsing of atlas tile data units. The sizes of the block maps of point local
reconstruction are not coded: they come from what has been parsed before. -/
namespace V3C
open Codec

/-- The `int` members of the reader that outlive a patch. -/
structure TileState where
  predPatchIndex : ℤ := 0
  prevPatchSizeU : ℤ := 0
  prevPatchSizeV : ℤ := 0
  prevFrameIndex : ℤ := 0

/-- The conversion to `int`. -/
def toInt (z : ℤ) : ℤ := Int.bmod z (2 ^ 32)

/-- The tile layers an INTER patch may refer to. The current one is among them, with the
patches parsed so far. -/
structure TileHistory where
  layers : List AtlasTileLayerRbsp
  tileOrder : ℕ

namespace TileHistory

/-- The list of tile layers while the patch behind `patches` is being parsed. -/
def during (history : TileHistory) (ath : AtlasTileHeader)
    (patches : List PatchInformationData) (patchMode : ℕ) : List AtlasTileLayerRbsp :=
  history.layers ++ [{
    header := ath
    dataUnit := {
      tileOrder := history.tileOrder
      patchInformationData := patches ++ [{ patchMode }] }
    tileOrder := history.tileOrder }]

end TileHistory

/-- The block map that an INTER patch refers to; RAW, EOM and SKIP patches have none. -/
def PatchInformationData.referencePlrData (pid : PatchInformationData) :
    PCCTileType → Option PLRData
  | .pTile =>
    if pid.patchMode = P_MERGE then some pid.mergePatchDataUnit.plrData
    else if pid.patchMode = P_INTER then some pid.interPatchDataUnit.plrData
    else if pid.patchMode = P_INTRA then some pid.patchDataUnit.plrData
    else none
  | .iTile => if pid.patchMode = I_INTRA then some pid.patchDataUnit.plrData else none
  | _ => none

/-- `sizeU` and `sizeV` of an INTER patch. -/
def interPatchSizes (layers : List AtlasTileLayerRbsp) (state : TileState)
    (refPatchIndex delta2dSizeX delta2dSizeY : ℤ) : Option (ℤ × ℤ) := do
  let atglPrev ← layers[toSizeT state.prevFrameIndex]?
  let pidPrev ←
    atglPrev.dataUnit.patchInformationData[toSizeT (refPatchIndex + state.predPatchIndex)]?
  let plrdPrev := (pidPrev.referencePlrData atglPrev.header.type).getD {}
  pure (toInt (delta2dSizeX + plrdPrev.blockToPatchMapWidth),
    toInt (delta2dSizeY + plrdPrev.blockToPatchMapHeight))

namespace PCCBitstreamReader
variable (ctx : TileContext)

def plrBlock (plrd : PLRData) (bitCountMode i : ℕ) : Reader (Bool × ℕ) := do
  let present ← readFlag
  let mode ← Reader.whenElse present (do pure ((← read bitCountMode) % 2 ^ 8))
    (plrd.blockModeMinus1[i]?.getD 0)
  pure (present, mode)

/-- The iteration of `plrData` for one map. What it does not read stays as it was. -/
def plrMap (plrd : PLRData) (plri : PLRInformation) : Reader PLRData :=
  Reader.whenElse plri.mapEnabledFlag (do
    let levelFlag ← Reader.whenElse (plri.signalsLevel plrd) readFlag true
    if levelFlag = false then do
      let blocks ← Reader.repeatFrom 0 plrd.blockCount (plrBlock plrd plri.bitCountMode)
      pure { plrd with
        levelFlag
        blockPresentFlag := blocks.map Prod.fst
        blockModeMinus1 := blocks.map Prod.snd }
    else do
      let presentFlag ← readFlag
      let modeMinus1 ← Reader.whenElse presentFlag
        (do pure ((← read plri.bitCountMode) % 2 ^ 8)) plrd.modeMinus1
      pure { plrd with levelFlag, presentFlag, modeMinus1 }) plrd

def plrMapLoop (plrd : PLRData) : List PLRInformation → Reader PLRData
  | [] => pure plrd
  | plri :: maps => do
    let plrd ← plrMap plrd plri
    plrMapLoop plrd maps

/-- `allocate` and `plrData`. -/
def plrData (width height : ℤ) : Reader PLRData := do
  let maps ← Reader.ofOption ctx.plrMaps
  plrMapLoop (PLRData.allocate width height) maps

/-- `lodEnableFlag`, `lodScaleXMinus1` and `lodScaleYIdc`. -/
def lodParameters : Reader (Bool × ℕ × ℕ) := do
  let lodEnableFlag ← readFlag
  let lodScaleXMinus1 ← Reader.whenElse lodEnableFlag readUvlc8 0
  let lodScaleYIdc ← Reader.whenElse lodEnableFlag readUvlc8 1
  pure (lodEnableFlag, lodScaleXMinus1, lodScaleYIdc)

def patchDataUnit : Reader PatchDataUnit := do
  let pos2dX ← readUvlc
  let pos2dY ← readUvlc
  let size2dXMinus1 ← readUvlc
  let size2dYMinus1 ← readUvlc
  let pos3dOffsetU ← read ctx.bitCountUV
  let pos3dOffsetV ← read ctx.bitCountUV
  let pos3dOffsetD ← read ctx.bitCountD
  let pos3dRangeD ← Reader.whenElse ctx.asps.normalAxisMaxDeltaValueEnabledFlag
    (read ctx.bitCountForMaxDepth) 0
  let projectionId ← read ctx.bitCountProjection
  let orientationIndex ← read ctx.bitCountOrientation
  let (lodEnableFlag, lodScaleXMinus1, lodScaleYIdc) ←
    Reader.whenElse ctx.afps.lodModeEnableFlag lodParameters (false, 0, 0)
  let plrData ← Reader.whenElse ctx.asps.plrEnabledFlag
    (plrData ctx (size2dXMinus1 + 1) (size2dYMinus1 + 1)) {}
  pure {
    pos2dX, pos2dY, size2dXMinus1, size2dYMinus1, pos3dOffsetU, pos3dOffsetV, pos3dOffsetD
    pos3dRangeD, projectionId, orientationIndex, lodEnableFlag, lodScaleXMinus1, lodScaleYIdc
    plrData }

/-- The branch of `mergePatchDataUnit` that overrides the 2D parameters. -/
def mergeOverride2d (refIndex : ℤ) : Reader MergePatchDataUnit := do
  let pos2dX ← readSvlc
  let pos2dY ← readSvlc
  let delta2dSizeX ← readSvlc
  let delta2dSizeY ← readSvlc
  let override2dParamsFlag := true
  pure { override2dParamsFlag, refIndex, pos2dX, pos2dY, delta2dSizeX, delta2dSizeY }

/-- The branch that overrides the 3D parameters. -/
def mergeOverride3d (refIndex : ℤ) : Reader MergePatchDataUnit := do
  let pos3dOffsetU ← readSvlc
  let pos3dOffsetV ← readSvlc
  let pos3dOffsetD ← readSvlc
  let pos3dRangeD ← Reader.whenElse ctx.asps.normalAxisMaxDeltaValueEnabledFlag readSvlc 0
  let overridePlrFlag ← Reader.whenElse ctx.asps.plrEnabledFlag readFlag false
  let override3dParamsFlag := true
  pure {
    override3dParamsFlag, overridePlrFlag, refIndex, pos3dOffsetU, pos3dOffsetV, pos3dOffsetD
    pos3dRangeD }

/-- All of a merge patch but its block map. -/
def mergeParameters : Reader MergePatchDataUnit := do
  let numRefIdxActive ← Reader.ofOption ctx.getNumRefIdxActive
  let refIndex ← Reader.whenElse (1 < numRefIdxActive) readUvlc 0
  let override2dParamsFlag ← readFlag
  if override2dParamsFlag = true then mergeOverride2d refIndex
  else do
    let override3dParamsFlag ← readFlag
    Reader.whenElse override3dParamsFlag (mergeOverride3d ctx refIndex) { refIndex }

/-- The local `overridePlrFlag` behind the parameters. -/
def mergeOverridesPlr (mpdu : MergePatchDataUnit) : Bool :=
  ctx.asps.plrEnabledFlag && (mpdu.override2dParamsFlag || mpdu.overridePlrFlag)

def mergePatchDataUnit (state : TileState) : Reader (MergePatchDataUnit × TileState) := do
  let mpdu ← mergeParameters ctx
  if mergeOverridesPlr ctx mpdu = true then do
    let sizeU := state.prevPatchSizeU + mpdu.delta2dSizeX
    let sizeV := state.prevPatchSizeV + mpdu.delta2dSizeY
    let plrData ← plrData ctx sizeU sizeV
    let prevPatchSizeU := toInt sizeU
    let prevPatchSizeV := toInt sizeV
    pure ({ mpdu with plrData }, { state with prevPatchSizeU, prevPatchSizeV })
  else pure (mpdu, state)

/-- All of an inter patch but its block map. -/
def interParameters : Reader InterPatchDataUnit := do
  let numRefIdxActive ← Reader.ofOption ctx.getNumRefIdxActive
  let refIndex ← Reader.whenElse (1 < numRefIdxActive) readUvlc 0
  let refPatchIndex ← readSvlc
  let pos2dX ← readSvlc
  let pos2dY ← readSvlc
  let delta2dSizeX ← readSvlc
  let delta2dSizeY ← readSvlc
  let pos3dOffsetU ← readSvlc
  let pos3dOffsetV ← readSvlc
  let pos3dOffsetD ← readSvlc
  let pos3dRangeD ← Reader.whenElse ctx.asps.normalAxisMaxDeltaValueEnabledFlag readSvlc 0
  let refIndex : ℤ := refIndex
  pure {
    refIndex, refPatchIndex, pos2dX, pos2dY, delta2dSizeX, delta2dSizeY, pos3dOffsetU
    pos3dOffsetV, pos3dOffsetD, pos3dRangeD }

def interPatchDataUnit (layers : List AtlasTileLayerRbsp) (state : TileState) :
    Reader (InterPatchDataUnit × TileState) := do
  let ipdu ← interParameters ctx
  if ctx.asps.plrEnabledFlag = true then do
    let (sizeU, sizeV) ← Reader.ofOption
      (interPatchSizes layers state ipdu.refPatchIndex ipdu.delta2dSizeX ipdu.delta2dSizeY)
    let plrData ← plrData ctx sizeU sizeV
    let predPatchIndex := toInt (state.predPatchIndex + (ipdu.refPatchIndex + 1))
    let prevPatchSizeU := sizeU
    let prevPatchSizeV := sizeV
    pure ({ ipdu with plrData }, { state with predPatchIndex, prevPatchSizeU, prevPatchSizeV })
  else pure (ipdu, state)

def rawPatchDataUnit : Reader RawPatchDataUnit := do
  let auxiliaryVideo ← Reader.ofOption ctx.auxiliaryVideo
  let patchInAuxiliaryVideoFlag ← Reader.whenElse auxiliaryVideo readFlag false
  let pos2dX ← readUvlc
  let pos2dY ← readUvlc
  let size2dXMinus1 ← readUvlc
  let size2dYMinus1 ← readUvlc
  let pos3dOffsetU ← read ctx.bitCountRaw
  let pos3dOffsetV ← read ctx.bitCountRaw
  let pos3dOffsetD ← read ctx.bitCountRaw
  let rawPointsMinus1 ← readUvlc
  pure {
    patchInAuxiliaryVideoFlag, pos2dX, pos2dY, size2dXMinus1, size2dYMinus1, pos3dOffsetU
    pos3dOffsetV, pos3dOffsetD, rawPointsMinus1 }

def eomPatchDataUnit : Reader EOMPatchDataUnit := do
  let auxiliaryVideo ← Reader.ofOption ctx.auxiliaryVideo
  let patchInAuxiliaryVideoFlag ← Reader.whenElse auxiliaryVideo readFlag false
  let pos2dX ← readUvlc
  let pos2dY ← readUvlc
  let size2dXMinus1 ← readUvlc
  let size2dYMinus1 ← readUvlc
  let patchCountMinus1 ← readUvlc
  let patches ← Reader.repeatFrom 0 (patchCountMinus1 + 1) fun _ => do
    let associatedPatchesIdx ← readUvlc
    let points ← readUvlc
    pure (associatedPatchesIdx, points)
  pure {
    patchInAuxiliaryVideoFlag, pos2dX, pos2dY, size2dXMinus1, size2dYMinus1, patchCountMinus1
    patches }

def mergePatch (state : TileState) : Reader (PatchInformationData × TileState) := do
  let (mergePatchDataUnit, state) ← mergePatchDataUnit ctx state
  let patchMode := P_MERGE
  pure ({ patchMode, mergePatchDataUnit }, state)

def interPatch (layers : List AtlasTileLayerRbsp) (state : TileState) :
    Reader (PatchInformationData × TileState) := do
  let (interPatchDataUnit, state) ← interPatchDataUnit ctx layers state
  let patchMode := P_INTER
  pure ({ patchMode, interPatchDataUnit }, state)

def intraPatch (patchMode : ℕ) (state : TileState) :
    Reader (PatchInformationData × TileState) := do
  let patchDataUnit ← patchDataUnit ctx
  pure ({ patchMode, patchDataUnit }, state)

def rawPatch (patchMode : ℕ) (state : TileState) :
    Reader (PatchInformationData × TileState) := do
  let rawPatchDataUnit ← rawPatchDataUnit ctx
  pure ({ patchMode, rawPatchDataUnit }, state)

def eomPatch (patchMode : ℕ) (state : TileState) :
    Reader (PatchInformationData × TileState) := do
  let eomPatchDataUnit ← eomPatchDataUnit ctx
  pure ({ patchMode, eomPatchDataUnit }, state)

/-- `patchInformationData` on the entry that `addPatchInformationData` has just made. -/
def patchInformationData (layers : List AtlasTileLayerRbsp) (patchMode : ℕ) (state : TileState) :
    Reader (PatchInformationData × TileState) :=
  match ctx.ath.type with
  | .pTile =>
    if patchMode = P_SKIP then pure ({ patchMode }, state)
    else if patchMode = P_MERGE then mergePatch ctx state
    else if patchMode = P_INTRA then intraPatch ctx patchMode state
    else if patchMode = P_INTER then interPatch ctx layers state
    else if patchMode = P_RAW then rawPatch ctx patchMode state
    else if patchMode = P_EOM then eomPatch ctx patchMode state
    else pure ({ patchMode }, state)
  | .iTile =>
    if patchMode = I_INTRA then intraPatch ctx patchMode state
    else if patchMode = I_RAW then rawPatch ctx patchMode state
    else if patchMode = I_EOM then eomPatch ctx patchMode state
    else pure ({ patchMode }, state)
  | _ => pure ({ patchMode }, state)

/-- The loop of `atlasTileDataUnit`. Every iteration takes a bit, so it ends within as many
iterations as there are bits. -/
def patchLoop (history : TileHistory) :
    ℕ → List PatchInformationData → TileState → Reader (List PatchInformationData × TileState)
  | 0, _, _ => Reader.fail
  | fuel + 1, patches, state => do
    let patchMode ← readUvlc8
    if patchMode = I_END ∨ patchMode = P_END then pure (patches, state)
    else do
      let (pid, state) ←
        patchInformationData ctx (history.during ctx.ath patches patchMode) patchMode state
      patchLoop history fuel (patches ++ [pid]) state

/-- The patches of the data unit, and what is left for the next one. -/
def atlasTileDataUnit (history : TileHistory) (state : TileState) :
    Reader (List PatchInformationData × TileState) :=
  if ctx.ath.type = .skipTile then pure ([], state)
  else do
    let fuel ← Reader.remaining
    let prevFrameIndex := state.prevFrameIndex
    let (patches, state) ← patchLoop ctx history fuel [] { prevFrameIndex }
    let prevFrameIndex := toInt history.tileOrder
    pure (patches, { state with prevFrameIndex })

end PCCBitstreamReader

end V3C

import V3C.Patch.PCCPatch
import V3C.Syntax.Tile

/-! `createPatchFrameDataStructure` of the encoder and of the decoder, for the patches of one
tile over the frames. A patch refers to a patch of the same tile of another frame. -/
namespace V3C

/-- What both sides compute before the loop over the patches. -/
structure PatchLocals where
  minLevel : UInt64
  quantizerSizeX : ℤ
  quantizerSizeY : ℤ

/-- The patch a data unit refers to, in a list of the tile's patches of every frame. -/
def referencePatch (frames : List (List PCCPatch)) (refAFOCList : List ℤ)
    (refAtlasFrameIdx : UInt64) (bestMatchIdx : Int32) : Option PCCPatch := do
  let refPOC ← refAFOCList[refAtlasFrameIdx.toNat]?
  let patches ← frames[toSizeT refPOC]?
  if 0 ≤ bestMatchIdx.toInt then patches[bestMatchIdx.toInt.toNat]? else none

namespace PCCEncoder

/-- The encoder parameters that quantize a patch. `minLevel_` is a power of two. -/
structure PatchParameters where
  log2QuantizerSizeX : ℕ := 4
  log2QuantizerSizeY : ℕ := 4
  log2MinLevel : ℕ := 6

/-- The values of a tile header that `createPatchFrameDataStructure` sets for the tile. -/
def createTileHeader (params : PatchParameters) : AtlasTileHeader where
  posMinDQuantizer := params.log2MinLevel % 256
  posDeltaMaxDQuantizer := params.log2MinLevel % 256
  patchSizeXinfoQuantizer := params.log2QuantizerSizeX % 256
  patchSizeYinfoQuantizer := params.log2QuantizerSizeY % 256

def patchLocals (params : PatchParameters) (ath : AtlasTileHeader) :
    Option PatchLocals := do
  let minLevel ← powInt64 ath.posMinDQuantizer
  let quantizerSizeX ← shiftInt params.log2QuantizerSizeX
  let quantizerSizeY ← shiftInt params.log2QuantizerSizeY
  pure ⟨minLevel, quantizerSizeX, quantizerSizeY⟩

/-- `2dSizeXMinus1` of an intra patch, and likewise for `Y`. -/
def intraSizeMinus1 (asps : AtlasSequenceParameterSetRbsp) (quantizerSize : ℤ)
    (pixels size : UInt64) : UInt64 :=
  if asps.patchSizeQuantizerPresentFlag then (pixels - 1) / .ofInt quantizerSize else size - 1

/-- `lodEnableFlag`, `lodScaleXMinus1` and `lodScaleYIdc`, the last of which is 1 in a new
data unit. -/
def lodSyntax (afps : AtlasFrameParameterSetRbsp) (lodX lodY : UInt64) : Bool × ℕ × ℕ :=
  if afps.lodModeEnableFlag then
    if 1 < lodX ∨ 1 < lodY then
      (true, (lodX - 1).toNat % 256, (lodY - if 1 < lodX then 1 else 2).toNat % 256)
    else (false, 0, 1)
  else (false, 0, 0)

def intraPatchDataUnit (asps : AtlasSequenceParameterSetRbsp)
    (afps : AtlasFrameParameterSetRbsp) (locals : PatchLocals) (patch : PCCPatch) :
    Option PatchDataUnit := do
  let lod := lodSyntax afps patch.levelOfDetailX patch.levelOfDetailY
  let max3DCoordinate ← shiftSizeT (asps.geometry3dBitdepthMinus1 + 1)
  let offsetD :=
    if patch.projectionMode = 0 then patch.d1 / locals.minLevel
    else (max3DCoordinate - patch.d1) / locals.minLevel
  let quantDD := if patch.sizeD = 0 then 0 else (patch.sizeD + 1) / locals.minLevel
  pure {
    pos2dX := patch.u0.toNat
    pos2dY := patch.v0.toNat
    size2dXMinus1 :=
      (intraSizeMinus1 asps locals.quantizerSizeX patch.size2DXInPixel patch.sizeU0).toNat
    size2dYMinus1 :=
      (intraSizeMinus1 asps locals.quantizerSizeY patch.size2DYInPixel patch.sizeV0).toNat
    pos3dOffsetU := patch.u1.toNat
    pos3dOffsetV := patch.v1.toNat
    pos3dOffsetD := offsetD.toNat
    pos3dRangeD := quantDD.toNat
    projectionId := patch.viewId.toNat
    orientationIndex := patch.patchOrientation.toNat
    lodEnableFlag := lod.1
    lodScaleXMinus1 := lod.2.1
    lodScaleYIdc := lod.2.2 }

/-- `2dDeltaSizeX` of an inter patch, and likewise for `Y`. -/
def interDeltaSize (asps : AtlasSequenceParameterSetRbsp) (quantizerSize : ℤ)
    (pixels size refPixels refSize : UInt64) : ℤ :=
  if asps.patchSizeQuantizerPresentFlag then
    toInt32 (pixels / .ofInt quantizerSize - refPixels / .ofInt quantizerSize).toNat
  else toInt64 (size - refSize)

/-- `quantDD` of an inter patch. -/
def interQuantDD (minLevel sizeDPixel refSizeD : UInt64) : Option ℤ := do
  let diffDD ← checkInt64 (toInt64 sizeDPixel - toInt64 refSizeD)
  if diffDD = 0 then pure 0
  else pure ((← checkInt64 (diffDD + 1)).tdiv (toInt64 minLevel))

def interDeltaDD (minLevel : UInt64) (quantDD : ℤ) : Option ℤ :=
  if quantDD = 0 then some 0
  else (checkInt64 (quantDD * toInt64 minLevel)).bind fun range => checkInt64 (range - 1)

/-- The depth that is stored for an inter patch. -/
def interSizeD (asps : AtlasSequenceParameterSetRbsp) (minLevel refSizeD : UInt64)
    (quantDD : ℤ) : Option UInt64 := do
  let deltaDD ← interDeltaDD minLevel quantDD
  let range ← shiftInt (asps.geometry2dBitdepthMinus1 + 1)
  pure (.ofInt (min (max (toInt64 (refSizeD + .ofInt deltaDD)) 0) (range - 1)))

/-- `predIndex` is at most one past an index of type `int32_t`. -/
def interPatchDataUnit (asps : AtlasSequenceParameterSetRbsp) (locals : PatchLocals)
    (patch refPatch : PCCPatch) (predIndex : ℤ) : Option InterPatchDataUnit := do
  let max3DCoordinate : UInt64 := .ofNat (asps.geometry3dBitdepthMinus1 + 1)
  let offsetD :=
    if patch.projectionMode = 0 then patch.d1 / locals.minLevel - refPatch.d1 / locals.minLevel
    else (max3DCoordinate - patch.d1) / locals.minLevel -
      (max3DCoordinate - refPatch.d1) / locals.minLevel
  let quantDD ← interQuantDD locals.minLevel patch.sizeDPixel refPatch.sizeD
  pure {
    refIndex := toInt64 patch.refAtlasFrameIdx
    refPatchIndex := patch.bestMatchIdx.toInt - predIndex
    pos2dX := toInt64 (patch.u0 - refPatch.u0)
    pos2dY := toInt64 (patch.v0 - refPatch.v0)
    delta2dSizeX := interDeltaSize asps locals.quantizerSizeX patch.size2DXInPixel patch.sizeU0
      refPatch.size2DXInPixel refPatch.sizeU0
    delta2dSizeY := interDeltaSize asps locals.quantizerSizeY patch.size2DYInPixel patch.sizeV0
      refPatch.size2DYInPixel refPatch.sizeV0
    pos3dOffsetU := toInt64 (patch.u1 - refPatch.u1)
    pos3dOffsetV := toInt64 (patch.v1 - refPatch.v1)
    pos3dOffsetD := toInt64 offsetD
    pos3dRangeD := quantDD }

/-- The loop over the patches: each stored patch with its entry of the data unit. -/
def encodePatches (asps : AtlasSequenceParameterSetRbsp) (afps : AtlasFrameParameterSetRbsp)
    (locals : PatchLocals) (type : PCCTileType) (earlier : List (List PCCPatch))
    (refAFOCList : List ℤ) :
    ℤ → List PCCPatch → Option (List (PCCPatch × PatchInformationData))
  | _, [] => some []
  | predIndex, patch :: patches => do
    if patch.bestMatchIdx ≠ g_invalidPatchIndex then
      let refPatch ← referencePatch earlier refAFOCList patch.refAtlasFrameIdx patch.bestMatchIdx
      let ipdu ← interPatchDataUnit asps locals patch refPatch predIndex
      let sizeD ← interSizeD asps locals.minLevel refPatch.sizeD ipdu.pos3dRangeD
      let coded ← encodePatches asps afps locals type earlier refAFOCList
        (predIndex + (ipdu.refPatchIndex + 1)) patches
      pure (({ patch with sizeD := sizeD },
        { patchMode := P_INTER, interPatchDataUnit := ipdu }) :: coded)
    else
      let pdu ← intraPatchDataUnit asps afps locals patch
      let coded ← encodePatches asps afps locals type earlier refAFOCList predIndex patches
      let patchMode := if type = .iTile then I_INTRA else P_INTRA
      pure ((patch, { patchMode := patchMode, patchDataUnit := pdu }) :: coded)

/-- The input of one frame: the tile's reference frames and its patches. -/
structure TileInput where
  refAFOCList : List ℤ
  patches : List PCCPatch

def tileType (frameIndex : ℕ) (patches : List PCCPatch) : PCCTileType :=
  if frameIndex ≠ 0 ∧ patches.any (·.bestMatchIdx ≠ g_invalidPatchIndex) then .pTile else .iTile

/-- The patches of an I tile lose their matches. -/
def codedPatches (frameIndex : ℕ) (patches : List PCCPatch) : List PCCPatch :=
  if tileType frameIndex patches = .iTile then
    patches.map fun patch => { patch with bestMatchIdx := g_invalidPatchIndex }
  else patches

/-- A reference is a patch of one of the `earlier` frames. -/
def createPatchFrameDataStructure (params : PatchParameters)
    (asps : AtlasSequenceParameterSetRbsp) (afps : AtlasFrameParameterSetRbsp)
    (earlier : List (List PCCPatch)) (tile : TileInput) :
    Option (List PCCPatch × AtlasTileLayerRbsp) := do
  let type := tileType earlier.length tile.patches
  let ath := { createTileHeader params with type := type }
  let locals ← patchLocals params ath
  let coded ← encodePatches asps afps locals type earlier tile.refAFOCList 0
    (codedPatches earlier.length tile.patches)
  let endMode := if type = .iTile then I_END else P_END
  let dataUnit : AtlasTileDataUnit := {
    patchInformationData := coded.map Prod.snd ++ [{ patchMode := endMode }] }
  pure (coded.map Prod.fst, { header := ath, dataUnit := dataUnit })

/-- The tile over all the frames: the stored patches and the tile layers. -/
def encodeFrames (params : PatchParameters) (asps : AtlasSequenceParameterSetRbsp)
    (afps : AtlasFrameParameterSetRbsp) :
    List (List PCCPatch) → List TileInput →
      Option (List (List PCCPatch) × List AtlasTileLayerRbsp)
  | earlier, [] => some (earlier, [])
  | earlier, tile :: tiles => do
    let (patches, layer) ←
      createPatchFrameDataStructure params asps afps earlier tile
    let (stored, layers) ←
      encodeFrames params asps afps (earlier ++ [patches]) tiles
    pure (stored, layer :: layers)

end PCCEncoder

/-- `PCCPatchType`. The patch mode of the end of a tile is an `errorPatch`. -/
inductive PCCPatchType
  | intraPatch
  | interPatch
  | mergePatch
  | skipPatch
  | rawPatch
  | eomPatch
  | errorPatch

def getPatchType (type : PCCTileType) (patchMode : ℕ) : PCCPatchType :=
  match type with
  | .skipTile => .skipPatch
  | .pTile =>
    if patchMode = P_SKIP then .skipPatch
    else if patchMode = P_MERGE then .mergePatch
    else if patchMode = P_INTRA then .intraPatch
    else if patchMode = P_INTER then .interPatch
    else if patchMode = P_RAW then .rawPatch
    else if patchMode = P_EOM then .eomPatch
    else .errorPatch
  | .iTile =>
    if patchMode = I_INTRA then .intraPatch
    else if patchMode = I_RAW then .rawPatch
    else if patchMode = I_EOM then .eomPatch
    else .errorPatch
  | .other _ => .errorPatch

namespace PCCDecoder

def patchLocals (asps : AtlasSequenceParameterSetRbsp) (ath : AtlasTileHeader) :
    Option PatchLocals := do
  let minLevel ← shiftSizeT ath.posMinDQuantizer
  let _ ← shiftInt asps.log2PatchPackingBlockSize
  let quantizerSizeX ← shiftInt ath.patchSizeXinfoQuantizer
  let quantizerSizeY ← shiftInt ath.patchSizeYinfoQuantizer
  pure ⟨minLevel, quantizerSizeX, quantizerSizeY⟩

/-- `ceil( double( pixels ) / packingBlockSizeD )`, which has to fit in `size_t`. -/
def sizeInBlocks (asps : AtlasSequenceParameterSetRbsp) (pixels : UInt64) : Option UInt64 :=
  let blockSize := 2 ^ asps.log2PatchPackingBlockSize
  let size := (toDouble pixels.toNat + blockSize - 1) / blockSize
  if size < 2 ^ 64 then some (.ofNat size) else none

def intraSize (asps : AtlasSequenceParameterSetRbsp) (quantizerSize : ℤ) (sizeMinus1 : ℕ) :
    Option (UInt64 × UInt64) := do
  let size ← checkInt64 (toInt64 (.ofNat sizeMinus1) + 1)
  if asps.patchSizeQuantizerPresentFlag then
    let pixels ← checkInt64 (size * quantizerSize)
    pure (.ofInt pixels, ← sizeInBlocks asps (.ofInt pixels))
  else pure (0, .ofInt size)

/-- The levels of detail of an intra patch. -/
def lodScales (pdu : PatchDataUnit) : UInt64 × UInt64 :=
  if pdu.lodEnableFlag then
    let lodX : UInt64 := .ofNat (pdu.lodScaleXMinus1 + 1)
    (lodX, .ofNat (pdu.lodScaleYIdc + if 1 < lodX then 1 else 2))
  else (1, 1)

def intraPatch (asps : AtlasSequenceParameterSetRbsp) (locals : PatchLocals)
    (pdu : PatchDataUnit) : Option PCCPatch := do
  let (size2DXInPixel, sizeU0) ← intraSize asps locals.quantizerSizeX pdu.size2dXMinus1
  let (size2DYInPixel, sizeV0) ← intraSize asps locals.quantizerSizeY pdu.size2dYMinus1
  let patch : PCCPatch := {
    u0 := .ofNat pdu.pos2dX
    v0 := .ofNat pdu.pos2dY
    u1 := .ofNat pdu.pos3dOffsetU
    v1 := .ofNat pdu.pos3dOffsetV
    levelOfDetailX := (lodScales pdu).1
    levelOfDetailY := (lodScales pdu).2
    sizeD := if pdu.pos3dRangeD = 0 then 0 else .ofNat pdu.pos3dRangeD * locals.minLevel - 1
    size2DXInPixel := size2DXInPixel
    size2DYInPixel := size2DYInPixel
    sizeU0 := sizeU0
    sizeV0 := sizeV0
    patchOrientation := .ofNat pdu.orientationIndex }
  let patch ← patch.setViewId (.ofNat pdu.projectionId)
  let max3DCoordinate ← shiftSizeT (asps.geometry3dBitdepthMinus1 + 1)
  let offsetD := UInt64.ofInt (toInt32 pdu.pos3dOffsetD) * locals.minLevel
  pure { patch with
    d1 := if patch.projectionMode = 0 then offsetD else max3DCoordinate - offsetD
    tangentAxis := if patch.normalAxis = 0 ∨ patch.normalAxis = 1 then 2 else 0
    bitangentAxis := if patch.normalAxis = 1 then 0 else 1 }

def interSize (asps : AtlasSequenceParameterSetRbsp) (quantizerSize deltaSize : ℤ)
    (refPixels refSize : UInt64) : Option (UInt64 × UInt64) := do
  if asps.patchSizeQuantizerPresentFlag then
    let deltaPixels ← checkInt64 (deltaSize * quantizerSize)
    let pixels := refPixels + .ofInt deltaPixels
    pure (pixels, ← sizeInBlocks asps pixels)
  else pure (0, .ofInt deltaSize + refSize)

def interPatch (asps : AtlasSequenceParameterSetRbsp) (locals : PatchLocals)
    (ipdu : InterPatchDataUnit) (refPatch : PCCPatch) (bestMatchIdx : Int32) :
    Option PCCPatch := do
  let (size2DXInPixel, sizeU0) ← interSize asps locals.quantizerSizeX ipdu.delta2dSizeX
    refPatch.size2DXInPixel refPatch.sizeU0
  let (size2DYInPixel, sizeV0) ← interSize asps locals.quantizerSizeY ipdu.delta2dSizeY
    refPatch.size2DYInPixel refPatch.sizeV0
  let patch : PCCPatch := {
    bestMatchIdx := bestMatchIdx
    refAtlasFrameIdx := .ofInt ipdu.refIndex
    projectionMode := refPatch.projectionMode }
  let patch ← patch.setViewId refPatch.viewId
  let max3DCoordinate ← shiftSizeT (asps.geometry3dBitdepthMinus1 + 1)
  let offsetD : UInt64 := .ofInt ipdu.pos3dOffsetD
  let deltaDD :=
    if ipdu.pos3dRangeD = 0 then 0
    else toInt64 (.ofInt ipdu.pos3dRangeD * locals.minLevel - 1)
  pure { patch with
    u0 := .ofInt ipdu.pos2dX + refPatch.u0
    v0 := .ofInt ipdu.pos2dY + refPatch.v0
    patchOrientation := refPatch.patchOrientation
    u1 := .ofInt ipdu.pos3dOffsetU + refPatch.u1
    v1 := .ofInt ipdu.pos3dOffsetV + refPatch.v1
    size2DXInPixel := size2DXInPixel
    size2DYInPixel := size2DYInPixel
    sizeU0 := sizeU0
    sizeV0 := sizeV0
    normalAxis := refPatch.normalAxis
    tangentAxis := refPatch.tangentAxis
    bitangentAxis := refPatch.bitangentAxis
    axisOfAdditionalPlane := refPatch.axisOfAdditionalPlane
    d1 :=
      if patch.projectionMode = 0 then
        (offsetD + refPatch.d1 / locals.minLevel) * locals.minLevel
      else max3DCoordinate -
        (offsetD + (max3DCoordinate - refPatch.d1) / locals.minLevel) * locals.minLevel
    sizeD := refPatch.sizeD + .ofInt deltaDD
    levelOfDetailX := refPatch.levelOfDetailX
    levelOfDetailY := refPatch.levelOfDetailY }

/-- The loop over the entries of a data unit. The encoder's loop writes no merge, skip, raw or
EOM patches. An entry of no known type is reported and skipped. -/
def decodePatches (asps : AtlasSequenceParameterSetRbsp) (locals : PatchLocals)
    (type : PCCTileType) (context : List (List PCCPatch)) (refAFOCList : List ℤ) :
    ℤ → List PatchInformationData → Option (List PCCPatch)
  | _, [] => some []
  | predIndex, pid :: pids =>
    match getPatchType type pid.patchMode with
    | .intraPatch => do
      let patch ← intraPatch asps locals pid.patchDataUnit
      let patches ← decodePatches asps locals type context refAFOCList predIndex pids
      pure (patch :: patches)
    | .interPatch => do
      let ipdu := pid.interPatchDataUnit
      let bestMatchIdx := Int32.ofInt (ipdu.refPatchIndex + predIndex)
      let refPatch ← referencePatch context refAFOCList (.ofInt ipdu.refIndex) bestMatchIdx
      let patch ← interPatch asps locals ipdu refPatch bestMatchIdx
      let patches ← decodePatches asps locals type context refAFOCList
        (predIndex + (ipdu.refPatchIndex + 1)) pids
      pure (patch :: patches)
    | .errorPatch => decodePatches asps locals type context refAFOCList predIndex pids
    | _ => none

/-- The patches are appended to those of the frame the header names. -/
def createPatchFrameDataStructure (asps : AtlasSequenceParameterSetRbsp)
    (context : List (List PCCPatch)) (refAFOCList : List ℤ) (layer : AtlasTileLayerRbsp) :
    Option (List (List PCCPatch)) := do
  let locals ← patchLocals asps layer.header
  let tile ← context[layer.header.frameIndex]?
  let patches ← decodePatches asps locals layer.header.type context refAFOCList 0
    layer.dataUnit.patchInformationData
  pure (context.set layer.header.frameIndex (tile ++ patches))

/-- The tile over all the frames. The header holds the index of the frame in eight bits. -/
def decodeFrames (asps : AtlasSequenceParameterSetRbsp) :
    ℕ → List (List PCCPatch) → List (AtlasTileLayerRbsp × List ℤ) →
      Option (List (List PCCPatch))
  | _, context, [] => some context
  | frameIndex, context, (layer, refAFOCList) :: layers => do
    let header := { layer.header with frameIndex := frameIndex % 256 }
    let context ←
      createPatchFrameDataStructure asps context refAFOCList { layer with header := header }
    decodeFrames asps (frameIndex + 1) context layers

end PCCDecoder

/-- The patches the encoder stores, and those the decoder gets from its data units. -/
def reconstructPatches (params : PCCEncoder.PatchParameters) (asps : AtlasSequenceParameterSetRbsp)
    (afps : AtlasFrameParameterSetRbsp)
    (tiles : List PCCEncoder.TileInput) :
    Option (List (List PCCPatch) × List (List PCCPatch)) := do
  let (stored, layers) ← PCCEncoder.encodeFrames params asps afps [] tiles
  let decoded ← PCCDecoder.decodeFrames asps 0 (List.replicate tiles.length [])
    (layers.zip (tiles.map (·.refAFOCList)))
  pure (stored, decoded)

end V3C

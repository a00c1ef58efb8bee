import V3C.Syntax.ParameterSets

/-! Atlas tile layers: the header, the data units of the patch modes, the data unit. -/
namespace V3C

/-- `other` stands for the values of `PCCTileType( readUvlc() )` outside the enumeration. -/
inductive PCCTileType
  | pTile
  | iTile
  | skipTile
  | other (value : ℕ)
  deriving DecidableEq

def PCCTileType.toNat : PCCTileType → ℕ
  | pTile => 0
  | iTile => 1
  | skipTile => 2
  | other value => value

def PCCTileType.ofNat : ℕ → PCCTileType
  | 0 => pTile
  | 1 => iTile
  | 2 => skipTile
  | value => other value

structure AtlasTileHeader where
  noOutputOfPriorAtlasFramesFlag : Bool := false
  frameIndex : ℕ := 0
  atlasFrameParameterSetId : ℕ := 0
  atlasAdaptationParameterSetId : ℕ := 0
  id : ℕ := 0
  type : PCCTileType := .pTile
  atlasOutputFlag : Bool := false
  atlasFrmOrderCntLsb : ℕ := 0
  refAtlasFrameListSpsFlag : Bool := false
  refAtlasFrameListIdx : ℕ := 0
  additionalAfocLsbPresentFlag : List Bool := [false]
  additionalAfocLsbVal : List ℕ := [0]
  posMinDQuantizer : ℕ := 0
  posDeltaMaxDQuantizer : ℕ := 0
  patchSizeXinfoQuantizer : ℕ := 0
  patchSizeYinfoQuantizer : ℕ := 0
  raw3dOffsetAxisBitCountMinus1 : ℕ := 0
  numRefIdxActiveOverrideFlag : Bool := false
  numRefIdxActiveMinus1 : ℕ := 0
  refListStruct : RefListStruct := {}
  tileNaluTypeInfo : ℕ := 0

/-- Point local reconstruction data, with one flag and one mode for each block. -/
structure PLRData where
  blockToPatchMapWidth : ℕ := 0
  blockToPatchMapHeight : ℕ := 0
  levelFlag : Bool := false
  presentFlag : Bool := false
  modeMinus1 : ℕ := 0
  blockPresentFlag : List Bool := []
  blockModeMinus1 : List ℕ := []
  deriving DecidableEq

/-- The product of two `size_t` values. -/
def PLRData.blockCount (plrd : PLRData) : ℕ :=
  plrd.blockToPatchMapWidth * plrd.blockToPatchMapHeight % 2 ^ 64

/-- `allocate` on fresh data: the arguments are converted to `size_t`. -/
def PLRData.allocate (width height : ℤ) : PLRData :=
  let w := (width % 2 ^ 64).toNat
  let h := (height % 2 ^ 64).toNat
  { blockToPatchMapWidth := w
    blockToPatchMapHeight := h
    blockPresentFlag := List.replicate (w * h % 2 ^ 64) false
    blockModeMinus1 := List.replicate (w * h % 2 ^ 64) 0 }

structure PatchDataUnit where
  pos2dX : ℕ := 0
  pos2dY : ℕ := 0
  size2dXMinus1 : ℕ := 0
  size2dYMinus1 : ℕ := 0
  pos3dOffsetU : ℕ := 0
  pos3dOffsetV : ℕ := 0
  pos3dOffsetD : ℕ := 0
  pos3dRangeD : ℕ := 0
  projectionId : ℕ := 0
  orientationIndex : ℕ := 0
  lodEnableFlag : Bool := false
  lodScaleXMinus1 : ℕ := 0
  lodScaleYIdc : ℕ := 1
  plrData : PLRData := {}
  deriving DecidableEq

structure MergePatchDataUnit where
  override2dParamsFlag : Bool := false
  override3dParamsFlag : Bool := false
  overridePlrFlag : Bool := false
  refIndex : ℤ := 0
  pos2dX : ℤ := 0
  pos2dY : ℤ := 0
  delta2dSizeX : ℤ := 0
  delta2dSizeY : ℤ := 0
  pos3dOffsetU : ℤ := 0
  pos3dOffsetV : ℤ := 0
  pos3dOffsetD : ℤ := 0
  pos3dRangeD : ℤ := 0
  plrData : PLRData := {}
  deriving DecidableEq

structure InterPatchDataUnit where
  refIndex : ℤ := 0
  refPatchIndex : ℤ := 0
  pos2dX : ℤ := 0
  pos2dY : ℤ := 0
  delta2dSizeX : ℤ := 0
  delta2dSizeY : ℤ := 0
  pos3dOffsetU : ℤ := 0
  pos3dOffsetV : ℤ := 0
  pos3dOffsetD : ℤ := 0
  pos3dRangeD : ℤ := 0
  plrData : PLRData := {}
  deriving DecidableEq

structure RawPatchDataUnit where
  patchInAuxiliaryVideoFlag : Bool := false
  pos2dX : ℕ := 0
  pos2dY : ℕ := 0
  size2dXMinus1 : ℕ := 0
  size2dYMinus1 : ℕ := 0
  pos3dOffsetU : ℕ := 0
  pos3dOffsetV : ℕ := 0
  pos3dOffsetD : ℕ := 0
  rawPointsMinus1 : ℕ := 0
  deriving DecidableEq

/-- `patchCountMinus1_ + 1` pairs of an associated patch index and a number of points. -/
structure EOMPatchDataUnit where
  patchInAuxiliaryVideoFlag : Bool := false
  pos2dX : ℕ := 0
  pos2dY : ℕ := 0
  size2dXMinus1 : ℕ := 0
  size2dYMinus1 : ℕ := 0
  patchCountMinus1 : ℕ := 0
  patches : List (ℕ × ℕ) := []
  deriving DecidableEq

/-- One entry of a tile data unit. Only the data unit of its mode is meaningful. -/
structure PatchInformationData where
  patchMode : ℕ
  patchDataUnit : PatchDataUnit := {}
  interPatchDataUnit : InterPatchDataUnit := {}
  mergePatchDataUnit : MergePatchDataUnit := {}
  rawPatchDataUnit : RawPatchDataUnit := {}
  eomPatchDataUnit : EOMPatchDataUnit := {}
  deriving DecidableEq

/-- `PCCPatchModePTile` and `PCCPatchModeITile`. -/
def P_SKIP : ℕ := 0
def P_MERGE : ℕ := 1
def P_INTER : ℕ := 2
def P_INTRA : ℕ := 3
def P_RAW : ℕ := 4
def P_EOM : ℕ := 5
def P_END : ℕ := 14
def I_INTRA : ℕ := 0
def I_RAW : ℕ := 1
def I_EOM : ℕ := 2
def I_END : ℕ := 14

structure AtlasTileDataUnit where
  tileOrder : ℕ := 0
  patchInformationData : List PatchInformationData := []
  deriving DecidableEq

structure AtlasTileLayerRbsp where
  header : AtlasTileHeader := {}
  dataUnit : AtlasTileDataUnit := {}
  atlasFrmOrderCntVal : ℕ := 0
  tileOrder : ℕ := 0

end V3C

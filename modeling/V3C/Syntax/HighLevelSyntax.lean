import V3C.Syntax.Tile

/-! The parameter sets and tile layers of one atlas, looked up by position. -/
namespace V3C

/-- The values of `NalUnitType` that the reader and the writer compare with. -/
def NAL_TRAIL_N : ℕ := 0
def NAL_TRAIL_R : ℕ := 1
def NAL_SKIP_R : ℕ := 11
def NAL_BLA_W_LP : ℕ := 16
def NAL_IDR_N_LP : ℕ := 23
def NAL_RSV_IRAP_ACL_29 : ℕ := 29
def NAL_ASPS : ℕ := 36
def NAL_AFPS : ℕ := 37

/-- The NAL unit types whose tile headers carry `noOutputOfPriorAtlasFramesFlag`. -/
def isIrap (nalUnitType : ℕ) : Bool :=
  NAL_BLA_W_LP ≤ nalUnitType ∧ nalUnitType ≤ NAL_RSV_IRAP_ACL_29

structure PCCAtlasHighLevelSyntax where
  atlasSequenceParameterSet : List AtlasSequenceParameterSetRbsp := []
  refAtlasFrameList : List (List ℤ) := []
  maxNumRefAtlasFrame : ℕ := 0
  atlasFrameParameterSet : List AtlasFrameParameterSetRbsp := []
  atlasTileLayer : List AtlasTileLayerRbsp := []

namespace PCCAtlasHighLevelSyntax

def getAtlasSequenceParameterSet (syntax' : PCCAtlasHighLevelSyntax) (setId : ℕ) :
    Option AtlasSequenceParameterSetRbsp :=
  syntax'.atlasSequenceParameterSet[setId]?

def getAtlasFrameParameterSet (syntax' : PCCAtlasHighLevelSyntax) (setId : ℕ) :
    Option AtlasFrameParameterSetRbsp :=
  syntax'.atlasFrameParameterSet[setId]?

def getAtlasTileLayer (syntax' : PCCAtlasHighLevelSyntax) (atglIndex : ℕ) :
    Option AtlasTileLayerRbsp :=
  syntax'.atlasTileLayer[atglIndex]?

def getRefAtlasFrame (syntax' : PCCAtlasHighLevelSyntax) (listIndex refIndex : ℕ) : Option ℤ :=
  syntax'.refAtlasFrameList[listIndex]?.bind (·[refIndex]?)

def getSizeOfRefAtlasFrameList (syntax' : PCCAtlasHighLevelSyntax) (listIndex : ℕ) : Option ℕ :=
  syntax'.refAtlasFrameList[listIndex]?.map List.length

/-- The reference list structure a tile header selects. -/
def getRefList (asps : AtlasSequenceParameterSetRbsp) (ath : AtlasTileHeader) :
    Option RefListStruct :=
  if ath.refAtlasFrameListSpsFlag then asps.refListStruct[ath.refAtlasFrameListIdx]?
  else some ath.refListStruct

def getNumRefIdxActive (syntax' : PCCAtlasHighLevelSyntax) (ath : AtlasTileHeader) :
    Option ℕ := do
  let afps ← syntax'.getAtlasFrameParameterSet ath.atlasFrameParameterSetId
  if ath.type = .pTile ∨ ath.type = .skipTile then
    if ath.numRefIdxActiveOverrideFlag then
      pure (ath.numRefIdxActiveMinus1 + 1)
    else
      let asps ← syntax'.getAtlasSequenceParameterSet afps.atlasSequenceParameterSetId
      let refList ← getRefList asps ath
      pure (min refList.numRefEntries (afps.numRefIdxDefaultActiveMinus1 + 1))
  else
    pure 0

end PCCAtlasHighLevelSyntax

end V3C

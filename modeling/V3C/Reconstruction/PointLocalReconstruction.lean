import V3C.Packing.Canvas
import V3C.Syntax.ParameterSetWriter
import V3C.Syntax.TileDataUnitReader

/-! Point local reconstruction: the table of modes and the modes of the patches, on the side
of the encoder and on that of the decoder. -/
namespace V3C
open Codec

structure PointLocalReconstructionMode where
  interpolate : Bool
  filling : Bool
  minD1 : ℕ
  neighbor : ℕ
  deriving DecidableEq

/-- A patch with its modes. The level is one when a mode stands for the whole patch. -/
structure PlrPatch extends PatchPlacement where
  pointLocalReconstructionLevel : ℕ := 0
  pointLocalReconstructionModeByPatch : ℕ := 0
  pointLocalReconstructionModeByBlock : List ℕ := []

namespace PlrPatch

def getPointLocalReconstructionMode (patch : PlrPatch) (u v : ℕ) : Option ℕ :=
  if patch.pointLocalReconstructionLevel = 1 then some patch.pointLocalReconstructionModeByPatch
  else patch.pointLocalReconstructionModeByBlock[v * patch.sizeU0 + u]?

/-- A block that the patch does not have has no place for its mode. -/
def setPointLocalReconstructionMode (patch : PlrPatch) (u v value : ℕ) : Option PlrPatch :=
  if patch.pointLocalReconstructionLevel = 1 then
    some { patch with pointLocalReconstructionModeByPatch := value }
  else if v * patch.sizeU0 + u < patch.pointLocalReconstructionModeByBlock.length then
    some { patch with
      pointLocalReconstructionModeByBlock :=
        patch.pointLocalReconstructionModeByBlock.set (v * patch.sizeU0 + u) value }
  else none

def allocOneLayerData (patch : PlrPatch) : PlrPatch :=
  { patch with
    pointLocalReconstructionLevel := 0
    pointLocalReconstructionModeByPatch := 0
    pointLocalReconstructionModeByBlock := List.replicate (patch.sizeU0 * patch.sizeV0) 0 }

end PlrPatch

namespace PCCEncoderParameters

/-- The modes of the program, of which the first is the default one. -/
def g_pointLocalReconstructionMode : List PointLocalReconstructionMode :=
  [⟨false, false, 0, 1⟩, ⟨true, false, 0, 1⟩, ⟨true, true, 0, 1⟩, ⟨true, false, 0, 2⟩,
    ⟨true, true, 0, 2⟩, ⟨false, false, 1, 1⟩, ⟨true, false, 1, 1⟩, ⟨true, true, 1, 1⟩,
    ⟨true, false, 1, 2⟩, ⟨true, true, 1, 2⟩]

/-- With point local reconstruction, the number of modes that a context has. The search of the
encoder runs over these. -/
def numPlrm (modes : List PointLocalReconstructionMode) (plrlNumberOfModes : ℕ) : ℕ :=
  max 1 (min plrlNumberOfModes modes.length)

/-- The modes that `initializeContext` adds to a context. -/
def contextModes (modes : List PointLocalReconstructionMode) (plrlNumberOfModes : ℕ) :
    Option (List PointLocalReconstructionMode) :=
  (List.range (numPlrm modes plrlNumberOfModes)).mapM fun i => modes[i]?

end PCCEncoderParameters

namespace PCCEncoder

/-- The modes that the table of the parameter set has room for, a number of eight bits more
than zero. -/
def transmittedModes (plrlNumberOfModes : ℕ) : ℕ := toUInt8 (plrlNumberOfModes - 1) + 1

/-- The modes of the context are read from the second one on. `plrlNumberOfModes_` and `patchSize_` are parameters of type `size_t`. -/
def setPointLocalReconstruction (modes : List PointLocalReconstructionMode)
    (plrlNumberOfModes patchSize : ℕ) : Option PLRInformation := do
  let numberOfModesMinus1 := toUInt8 (plrlNumberOfModes - 1)
  let transmitted ← (List.range (transmittedModes plrlNumberOfModes)).mapM fun i => do
    let mode ← modes[i + 1]?
    pure {
      interpolateFlag := mode.interpolate
      fillingFlag := mode.filling
      minimumDepth := mode.minD1
      neighbourMinus1 := toUInt8 (mode.neighbor - 1) : PLRMode }
  pure {
    mapEnabledFlag := true
    numberOfModesMinus1
    modes := transmitted
    blockThresholdPerPatchMinus1 := toUInt8 (patchSize - 1) }

/-- The level that the search of the modes gives to a patch. -/
def pointLocalReconstructionLevel (patchSize : ℕ) (patch : PatchPlacement) : ℕ :=
  if patch.sizeU0 * patch.sizeV0 = 1 ∨ patch.sizeU0 * patch.sizeV0 ≤ patchSize then 1 else 0

/-- The flag and the mode of a block. A block of another patch has no mode. -/
def plrBlock (patch : PlrPatch) (blockToPatch : List ℕ)
    (blockToPatchWidth blockToPatchHeight patchIndex u0 v0 : ℕ) : Option (Bool × ℕ) := do
  let pos ← patch.patchBlock2CanvasBlock u0 v0 blockToPatchWidth blockToPatchHeight
  let owner ← if 0 ≤ pos then blockToPatch[pos.toNat]? else none
  let mode ← patch.getPointLocalReconstructionMode u0 v0
  let occupied := decide (owner = patchIndex + 1 ∧ 0 < mode)
  pure (occupied, if occupied then toUInt8 (mode - 1) else 0)

def setPLRData (patch : PlrPatch) (blockToPatch : List ℕ)
    (blockToPatchWidth blockToPatchHeight patchIndex : ℕ) : Option PLRData :=
  let plrd := PLRData.allocate patch.sizeU0 patch.sizeV0
  if patch.pointLocalReconstructionLevel ≠ 0 then do
    let mode ← patch.getPointLocalReconstructionMode 0 0
    let presentFlag := decide (0 < mode)
    let modeMinus1 := if presentFlag then toUInt8 (mode - 1) else 0
    pure { plrd with levelFlag := true, presentFlag, modeMinus1 }
  else do
    let blocks ← (List.range (patch.sizeU0 * patch.sizeV0)).mapM fun index =>
      plrBlock patch blockToPatch blockToPatchWidth blockToPatchHeight patchIndex
        (index % patch.sizeU0) (index / patch.sizeU0)
    pure { plrd with
      blockPresentFlag := blocks.map Prod.fst
      blockModeMinus1 := blocks.map Prod.snd }

end PCCEncoder

namespace PCCDecoder

/-- The table of modes, on a context that has none. -/
def setPointLocalReconstruction (asps : AtlasSequenceParameterSetRbsp) :
    Option (List PointLocalReconstructionMode) :=
  let mode : PointLocalReconstructionMode := ⟨false, false, 0, 1⟩
  if asps.plrEnabledFlag then do
    let plri ← asps.plrInformation[0]?
    let modes ← (List.range plri.numberOfModesMinus1).mapM fun i => do
      let entry ← plri.modes[i]?
      pure {
        interpolate := entry.interpolateFlag
        filling := entry.fillingFlag
        minD1 := entry.minimumDepth
        neighbor := toUInt8 (entry.neighbourMinus1 + 1) : PointLocalReconstructionMode }
    pure (mode :: modes)
  else some [mode]

def plrBlockMode (plrd : PLRData) (index : ℕ) : Option ℕ := do
  let present ← plrd.blockPresentFlag[index]?
  if present then do
    let modeMinus1 ← plrd.blockModeMinus1[index]?
    pure (toUInt8 (modeMinus1 + 1))
  else pure 0

def setPLRData (patch : PlrPatch) (plrd : PLRData) : Option PlrPatch :=
  let patch := { patch.allocOneLayerData with
    pointLocalReconstructionLevel := plrd.levelFlag.toNat }
  if plrd.levelFlag then
    patch.setPointLocalReconstructionMode 0 0
      (if plrd.presentFlag then toUInt8 (plrd.modeMinus1 + 1) else 0)
  else
    (List.range (plrd.blockToPatchMapWidth * plrd.blockToPatchMapHeight)).foldlM
      (fun patch index => do
        let mode ← plrBlockMode plrd index
        patch.setPointLocalReconstructionMode (index % plrd.blockToPatchMapWidth)
          (index / plrd.blockToPatchMapWidth) mode) patch

end PCCDecoder

end V3C

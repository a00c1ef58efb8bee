import V3C.Packing.AuxiliaryVideo
import V3C.Reconstruction.EnhancedOccupancyMap
import V3C.Store.Cells

/-! The depths of the patch that `segmentPatches` makes of a component: the near and the far map,
the EOM codes, the resampled points and the depth range that is signalled. -/
namespace V3C

structure DepthSettings where
  mapCountMinus1 : ℕ
  useEnhancedOccupancyMapCode : Bool
  useSurfaceSeparation : Bool
  EOMFixBitCount : ℕ
  surfaceThickness : ℕ
  maxAllowedDepth : ℕ
  minLevel : ℕ
  occupancyResolution : ℕ
  geometryBitDepth2D : ℕ
  geometryBitDepth3D : ℕ

namespace DepthSettings

def multipleMaps (settings : DepthSettings) : Bool := 0 < settings.mapCountMinus1

def EOMSingleLayerMode (settings : DepthSettings) : Bool :=
  settings.useEnhancedOccupancyMapCode && settings.mapCountMinus1 == 0

end DepthSettings

/-- A point of a component in the axes of its patch, after `convert` for an additional plane.
The coordinates are those of `int16_t` that are not negative. -/
structure SegmentPoint where
  index : ℕ
  normal : ℕ
  tangent : ℕ
  bitangent : ℕ
  normal_lt : normal < 32768 := by decide
  tangent_lt : tangent < 32768 := by decide
  bitangent_lt : bitangent < 32768 := by decide

/-- A point of the resampled cloud, in the axes of the patch. -/
structure ResampledPoint where
  normal : ℤ
  tangent : ℕ
  bitangent : ℕ
  deriving DecidableEq

/-- `g_infinitenumber`. -/
def infiniteNumber : ℕ := 9223372036854775807

structure SegmentedPatch where
  projectionMode : ℕ
  isAdditionalProjectionPlane : Bool
  u1 : ℕ
  v1 : ℕ
  d1 : ℕ
  sizeU : ℕ
  sizeV : ℕ
  sizeU0 : ℕ := 0
  sizeV0 : ℕ := 0
  sizeD : ℕ := 0
  sizeDPixel : ℕ := 0
  depth0 : List ℤ
  depth0PccIdx : List ℕ
  depth1 : List ℤ := []
  depthEOM : List (BitVec 16)
  occupancy : List Bool := []
  d0Count : ℕ := 0
  eomandD1Count : ℕ := 0
  eomCount : ℕ := 0

def colorSimilarity (colorD1candidate colorD0 : PCCColor3B) (threshold : ℤ) : Bool :=
  |(colorD0.r.toNat : ℤ) - colorD1candidate.r.toNat| < threshold &&
  |(colorD0.g.toNat : ℤ) - colorD1candidate.g.toNat| < threshold &&
  |(colorD0.b.toNat : ℤ) - colorD1candidate.b.toNat| < threshold

/-- The bit that `1 << n` sets in an `int16_t`. -/
def shiftCode (n : ℤ) : Option (BitVec 16) :=
  if 0 ≤ n ∧ n < 31 then some (BitVec.ofNat 16 (2 ^ n.toNat)) else none

namespace SegmentedPatch

def projectionDirectionType (patch : SegmentedPatch) : ℤ := -2 * patch.projectionMode + 1

def pixel (patch : SegmentedPatch) (point : SegmentPoint) : ℕ :=
  (point.bitangent - patch.v1) * patch.sizeU + (point.tangent - patch.u1)

/-- The occupancy block of a pixel. -/
def block (settings : DepthSettings) (patch : SegmentedPatch) (p : ℕ) : ℕ :=
  p / patch.sizeU / settings.occupancyResolution * patch.sizeU0 +
    p % patch.sizeU / settings.occupancyResolution

/-- The patch of a component before there are depths. The box of the component begins at the
largest `double` and ends at zero. -/
def allocate (settings : DepthSettings) (projectionMode : ℕ) (isAdditionalProjectionPlane : Bool)
    (component : List SegmentPoint) : Option SegmentedPatch := do
  let minU ← (component.map SegmentPoint.tangent).min?
  let minV ← (component.map SegmentPoint.bitangent).min?
  let maxU := (component.map SegmentPoint.tangent).foldl max 0
  let maxV := (component.map SegmentPoint.bitangent).foldl max 0
  let sizeU := 1 + (maxU - minU)
  let sizeV := 1 + (maxV - minV)
  some
    { projectionMode, isAdditionalProjectionPlane, sizeU, sizeV
      u1 := minU
      v1 := minV
      d1 := if projectionMode = 0 then infiniteDepth.toNat else 0
      depth0 := List.replicate (sizeU * sizeV) infiniteDepth
      depth0PccIdx := List.replicate (sizeU * sizeV) infiniteNumber
      depthEOM := if settings.useEnhancedOccupancyMapCode then List.replicate (sizeU * sizeV) 0
        else [] }

/-- `bValidPoint`. -/
def isValidPoint (patch : SegmentedPatch) (depth d : ℤ) : Bool :=
  if patch.projectionMode = 0 then d < depth else depth = infiniteDepth || depth < d

/-- `d1` after a point with a new near depth, in units of `minLevel`. -/
def nextD1 (settings : DepthSettings) (patch : SegmentedPatch) (d : ℤ) : Option ℕ :=
  if settings.minLevel = 0 then none
  else if patch.projectionMode = 0 then
    some (toSizeT (min (toInt16 patch.d1) d) / settings.minLevel * settings.minLevel)
  else
    let level := -(-max (toInt16 patch.d1) d / settings.minLevel)
    if level < 0 then none else some (toSizeT (level * settings.minLevel))

/-- A point of the component in the near map. -/
def addNear (settings : DepthSettings) (patch : SegmentedPatch) (point : SegmentPoint) :
    Option SegmentedPatch := do
  let p := patch.pixel point
  let depth ← patch.depth0[p]?
  if patch.isValidPoint depth point.normal then do
    let depth0 ← Cells.setAt patch.depth0 p (point.normal : ℤ)
    let depth0PccIdx ← Cells.setAt patch.depth0PccIdx p point.index
    let d1 ← patch.nextD1 settings point.normal
    some { patch with
      depth0, depth0PccIdx, d1
      sizeU0 := max patch.sizeU0 ((point.tangent - patch.u1) / settings.occupancyResolution)
      sizeV0 := max patch.sizeV0 ((point.bitangent - patch.v1) / settings.occupancyResolution) }
  else some patch

/-- The blocks of a patch, whose sizes are the last indices until here. -/
def allocOccupancy (patch : SegmentedPatch) : SegmentedPatch :=
  { patch with
    sizeU0 := patch.sizeU0 + 1
    sizeV0 := patch.sizeV0 + 1
    occupancy := List.replicate ((patch.sizeU0 + 1) * (patch.sizeV0 + 1)) false }

/-- The peak of the block of a pixel. -/
def addPeak (settings : DepthSettings) (patch : SegmentedPatch) (peakPerBlock : List ℤ) (p : ℕ) :
    Option (List ℤ) := do
  let depth0 ← patch.depth0[p]?
  if depth0 = infiniteDepth then some peakPerBlock
  else do
    let peak ← peakPerBlock[patch.block settings p]?
    Cells.setAt peakPerBlock (patch.block settings p)
      (if patch.projectionMode = 0 then min peak depth0 else max peak depth0)

/-- A depth that is far from the peak of its block, or that the depth range does not reach. -/
def isFiltered (settings : DepthSettings) (patch : SegmentedPatch) (peak depth0 : ℤ) : Bool :=
  let tmp_a := toInt16 |depth0 - peak|
  let tmp_b := toInt16 (toInt16 settings.surfaceThickness + patch.projectionDirectionType * depth0)
  let tmp_c := toInt16 (patch.projectionDirectionType * patch.d1 + toInt16 settings.maxAllowedDepth)
  32 < tmp_a || tmp_c < tmp_b

def filterDepth (settings : DepthSettings) (peakPerBlock : List ℤ) (patch : SegmentedPatch)
    (p : ℕ) : Option SegmentedPatch := do
  let depth0 ← patch.depth0[p]?
  if depth0 = infiniteDepth then some patch
  else do
    let peak ← peakPerBlock[patch.block settings p]?
    if patch.isFiltered settings peak depth0 then do
      let depth0 ← Cells.setAt patch.depth0 p infiniteDepth
      let depth0PccIdx ← Cells.setAt patch.depth0PccIdx p infiniteNumber
      some { patch with depth0, depth0PccIdx }
    else some patch

/-- The near map of a component, filtered. -/
def nearDepths (settings : DepthSettings) (projectionMode : ℕ) (isAdditionalProjectionPlane : Bool)
    (component : List SegmentPoint) : Option SegmentedPatch := do
  let patch ← allocate settings projectionMode isAdditionalProjectionPlane component
  let patch ← component.foldlM (addNear settings) patch
  let patch := patch.allocOccupancy
  let pixels := List.range (patch.sizeV * patch.sizeU)
  let peakPerBlock ← pixels.foldlM (patch.addPeak settings)
    (List.replicate (patch.sizeU0 * patch.sizeV0)
      (if projectionMode = 0 then infiniteDepth else 0))
  pixels.foldlM (filterDepth settings peakPerBlock) patch

/-- The amount by which the code of a point is shifted in the mode with one map. -/
def singleLayerShift (settings : DepthSettings) (thickness : ℤ) (patch : SegmentedPatch)
    (depth0 : ℤ) (point : SegmentPoint) : Option ℤ :=
  let diff := toInt16 |depth0 - point.normal|
  let eomThickness := toInt16 (if settings.useSurfaceSeparation then
    thickness + settings.EOMFixBitCount - settings.surfaceThickness else settings.EOMFixBitCount)
  if depth0 < infiniteDepth ∧ 0 < patch.projectionDirectionType * (point.normal - depth0) ∧
      diff ≤ eomThickness then some (toUInt16 diff - 1)
  else none

def addCode (patch : SegmentedPatch) (p : ℕ) (shift : ℤ) : Option SegmentedPatch := do
  let code ← patch.depthEOM[p]?
  let bit ← shiftCode shift
  let depthEOM ← Cells.setAt patch.depthEOM p (code ||| bit)
  some { patch with depthEOM }

def addSingleLayer (settings : DepthSettings) (thickness : ℤ) (patch : SegmentedPatch)
    (point : SegmentPoint) : Option SegmentedPatch := do
  let depth0 ← patch.depth0[patch.pixel point]?
  match patch.singleLayerShift settings thickness depth0 point with
  | none => some patch
  | some shift => patch.addCode (patch.pixel point) shift

/-- The distance behind the near depth of a point that may be in the far map. -/
def farDelta (thickness : ℤ) (colors : List PCCColor3B) (patch : SegmentedPatch) (depth0 : ℤ)
    (point : SegmentPoint) : Option (Option ℤ) := do
  let deltaD := toInt16 (patch.projectionDirectionType * (point.normal - depth0))
  if depth0 < infiniteDepth then do
    let near ← patch.depth0PccIdx[patch.pixel point]?
    let colorD0 ← colors[near]?
    let colorD1candidate ← colors[point.index]?
    some (if deltaD ≤ toInt16 thickness ∧ 0 ≤ deltaD ∧
      colorSimilarity colorD1candidate colorD0 128 then some deltaD else none)
  else some none

/-- A point that is behind the far depth of its pixel becomes the far depth. -/
def extendFar (patch : SegmentedPatch) (p : ℕ) (d : ℤ) : Option SegmentedPatch := do
  let far ← patch.depth1[p]?
  if 0 < patch.projectionDirectionType * (d - far) then do
    let depth1 ← Cells.setAt patch.depth1 p d
    some { patch with depth1 }
  else some patch

def addFar (settings : DepthSettings) (thickness : ℤ) (colors : List PCCColor3B)
    (patch : SegmentedPatch) (point : SegmentPoint) : Option SegmentedPatch := do
  let p := patch.pixel point
  let depth0 ← patch.depth0[p]?
  match ← patch.farDelta thickness colors depth0 point with
  | none => some patch
  | some deltaD => do
    let patch ← patch.extendFar p point.normal
    if settings.useEnhancedOccupancyMapCode then patch.addCode p (deltaD - 1) else some patch

/-- The EOM codes, and the far map unless there is one map with codes only.
`getPatchSurfaceThickness` is the thickness that surface separation finds. -/
def farDepths (settings : DepthSettings)
    (getPatchSurfaceThickness : SegmentedPatch → List SegmentPoint → ℤ)
    (colors : List PCCColor3B) (component : List SegmentPoint) (patch : SegmentedPatch) :
    Option SegmentedPatch :=
  if settings.EOMSingleLayerMode then
    let thickness := toInt16 (if settings.useSurfaceSeparation then
      getPatchSurfaceThickness patch component else settings.surfaceThickness)
    if 0 < thickness then component.foldlM (addSingleLayer settings thickness) patch
    else some patch
  else
    let patch := { patch with depth1 := patch.depth0 }
    let thickness := toInt16 (if settings.useSurfaceSeparation then
      getPatchSurfaceThickness patch component else settings.surfaceThickness)
    if 0 < thickness then component.foldlM (addFar settings thickness colors) patch
    else some patch

/-- The code of a pixel, of which there is none without the codes. -/
def readCode (settings : DepthSettings) (patch : SegmentedPatch) (p : ℕ) : Option (BitVec 16) :=
  if settings.useEnhancedOccupancyMapCode then patch.depthEOM[p]? else some 0

/-- The points that the code of a pixel stands for. -/
def eomDeltas (settings : DepthSettings) (code : BitVec 16) : Option (List ℕ) :=
  if settings.useEnhancedOccupancyMapCode ∧ code ≠ 0 then
    let count := if settings.multipleMaps then settings.surfaceThickness
      else settings.EOMFixBitCount
    if count ≤ 31 then
      some ((List.range count).filter fun i => (code.signExtend 32).getLsbD i)
    else none
  else some []

end SegmentedPatch

/-- The patch while it is resampled, with the cloud and the counts of its points. -/
structure Resampling where
  patch : SegmentedPatch
  resampled : List ResampledPoint := []
  d0CountPerPatch : ℕ := 0
  d1CountPerPatch : ℕ := 0
  eomCountPerPatch : ℕ := 0

namespace Resampling

open SegmentedPatch

/-- A depth that is stored is the distance from `d1`. -/
def storedDepth (patch : SegmentedPatch) (depth : ℤ) : ℤ :=
  toInt16 (patch.projectionDirectionType * (depth - toInt16 patch.d1))

/-- The near depth of a pixel is stored, and `sizeD` covers it. -/
def adjustDepth0 (patch : SegmentedPatch) (p : ℕ) (depth0 : ℤ) : Option SegmentedPatch := do
  let stored := storedDepth patch depth0
  let depth0 ← Cells.setAt patch.depth0 p stored
  some { patch with depth0, sizeD := max patch.sizeD (toSizeT stored) }

/-- The same for the far depth. -/
def adjustDepth1 (patch : SegmentedPatch) (p : ℕ) (depth1 : ℤ) : Option SegmentedPatch := do
  let stored := storedDepth patch depth1
  let depth1 ← Cells.setAt patch.depth1 p stored
  some { patch with depth1, sizeD := max patch.sizeD (toSizeT stored) }

/-- The points and the depths of a pixel. -/
def addPixel (settings : DepthSettings) (s : Resampling) (p : ℕ) : Option Resampling := do
  let depth0 ← s.patch.depth0[p]?
  if depth0 < infiniteDepth then do
    let occupancy ← Cells.setAt s.patch.occupancy (s.patch.block settings p) true
    let patch := { s.patch with occupancy }
    let at' := fun normal : ℤ => ResampledPoint.mk normal (p % patch.sizeU + patch.u1)
      (p / patch.sizeU + patch.v1)
    let code ← patch.readCode settings p
    let deltas ← eomDeltas settings code
    let eom := deltas.map fun i : ℕ => depth0 + patch.projectionDirectionType * (i + 1)
    let s := { s with
      resampled := s.resampled ++ at' depth0 :: eom.map at'
      d0CountPerPatch := s.d0CountPerPatch + 1
      eomCountPerPatch := s.eomCountPerPatch + eom.length }
    if settings.EOMSingleLayerMode then do
      let patch ← adjustDepth0 patch p depth0
      some { s with patch }
    else do
      let depth1 ← patch.depth1[p]?
      let isAdded := patch.isAdditionalProjectionPlane ||
        (!settings.useEnhancedOccupancyMapCode || eom.getLastD depth0 != depth1)
      let patch ← adjustDepth0 patch p depth0
      let patch ← adjustDepth1 patch p depth1
      some { s with
        patch
        resampled := s.resampled ++ if isAdded then [at' depth1] else []
        d1CountPerPatch := s.d1CountPerPatch + if depth0 ≠ depth1 then 1 else 0 }
  else some s

end Resampling

def resampledPointcloud (settings : DepthSettings) (patch : SegmentedPatch) : Option Resampling :=
  (List.range (patch.sizeV * patch.sizeU)).foldlM (Resampling.addPixel settings)
    { patch := { patch with sizeD := 0 } }

namespace SegmentedPatch

def depthBits (settings : DepthSettings) : ℕ :=
  min settings.geometryBitDepth3D settings.geometryBitDepth2D

/-- The depth range in units of `minLevel`. A negative `bitdepthD` has no `size_t`. -/
def quantizeSizeD (settings : DepthSettings) (patch : SegmentedPatch) : Option SegmentedPatch :=
  let bits := depthBits settings
  if 31 ≤ bits ∨ settings.minLevel = 0 ∨ 2 ^ (bits + 1) ≤ settings.minLevel then none
  else
    let sizeD := min (2 ^ bits - 1) patch.sizeD
    let bitdepthD := bits - Nat.clog 2 settings.minLevel
    let maxDDplus1 := 2 ^ bitdepthD
    let quantDD := if sizeD = 0 then 0 else (sizeD - 1) / settings.minLevel + 1
    let quantDD := min quantDD (maxDDplus1 - 1)
    some { patch with
      sizeDPixel := patch.sizeD
      sizeD := if quantDD = 0 then 0 else quantDD * settings.minLevel - 1 }

def setCounts (settings : DepthSettings) (s : Resampling) (patch : SegmentedPatch) :
    SegmentedPatch :=
  let d1CountPerPatch := if settings.EOMSingleLayerMode then 0 else s.d1CountPerPatch
  { patch with
    d0Count := s.d0CountPerPatch
    eomandD1Count := s.eomCountPerPatch
    eomCount := if settings.useEnhancedOccupancyMapCode then
      toSizeT (s.eomCountPerPatch - d1CountPerPatch) else 0 }

end SegmentedPatch

def patchMaps (settings : DepthSettings)
    (getPatchSurfaceThickness : SegmentedPatch → List SegmentPoint → ℤ)
    (colors : List PCCColor3B) (projectionMode : ℕ) (isAdditionalProjectionPlane : Bool)
    (component : List SegmentPoint) : Option SegmentedPatch := do
  let near ← SegmentedPatch.nearDepths settings projectionMode isAdditionalProjectionPlane component
  near.farDepths settings getPatchSurfaceThickness colors component

/-- What `segmentPatches` registers for a component: the patch, and the points it adds to the
resampled cloud. -/
def registerPatch (settings : DepthSettings)
    (getPatchSurfaceThickness : SegmentedPatch → List SegmentPoint → ℤ)
    (colors : List PCCColor3B) (projectionMode : ℕ) (isAdditionalProjectionPlane : Bool)
    (component : List SegmentPoint) : Option (SegmentedPatch × List ResampledPoint) := do
  let maps ← patchMaps settings getPatchSurfaceThickness colors projectionMode
    isAdditionalProjectionPlane component
  let s ← resampledPointcloud settings maps
  let patch ← s.patch.quantizeSizeD settings
  some (patch.setCounts settings s, s.resampled)

end V3C

import Mathlib.Data.Rat.Floor
import V3C.Packing.FitPatch

/-! The packing of the patches of a tile one by one, each where it fits first. -/
namespace V3C

/-- `std::sort` with a comparison, which leaves equivalent elements in any order. -/
structure StdSort {α : Type} (lt : α → α → Prop) where
  sort : List α → List α
  perm : ∀ l, (sort l).Perm l
  ordered : ∀ l, (sort l).Pairwise fun a b => ¬lt b a

/-- A quotient of `size_t` values, taken in double precision and rounded up. There is none of a
division by zero. -/
def ceilQuotient (a b : ℕ) : Option ℕ := if b = 0 then none else some ((a + b - 1) / b)

structure PackingParams where
  occupancyResolution : ℕ
  lowDelayEncoding : Bool
  useEightOrientations : Bool
  numTilesHor : ℤ
  /-- `int( tileWidth * tileHeightToWidthRatio_ )` -/
  tileHeightOfWidth : ℤ → ℤ
  minimumImageWidth : ℕ
  enhancedOccupancyMapCode : Bool
  useRawPointsSeparateVideo : Bool

structure PCCRawPointsPatch where
  u1 : ℕ := 0
  v1 : ℕ := 0
  d1 : ℕ := 0
  sizeU : ℕ := 0
  sizeV : ℕ := 0
  u0 : ℕ := 0
  v0 : ℕ := 0
  isPatchInAuxVideo : Bool := false
  sizeV0 : ℕ := 0
  sizeU0 : ℕ := 0
  occupancyResolution : ℕ := 0
  occupancy : List Bool := []
  /-- The coordinates of the points, plane by plane. -/
  x : List ℕ := []
  numberOfRawPoints : ℕ := 0

structure PCCEomPatch where
  u0 : ℕ := 0
  v0 : ℕ := 0
  sizeU : ℕ := 0
  sizeV : ℕ := 0
  isPatchInAuxVideo : Bool := false
  memberPatches : List ℕ := []
  eomCount : ℕ := 0
  occupancyResolution : ℕ := 0

structure PackingTile where
  width : ℕ
  height : ℕ
  patches : List PackingPatch
  numMatchedPatches : ℕ := 0
  rawPointsPatches : List PCCRawPointsPatch := []
  useRawPointsSeparateVideo : Bool := false
  eomPatches : List PCCEomPatch := []

namespace PackingPatch

/-- The order of `operator<`. -/
def lt (lhs rhs : PackingPatch) : Prop :=
  if lhs.sizeV ≠ rhs.sizeV then lhs.sizeV > rhs.sizeV
  else if lhs.sizeU ≠ rhs.sizeU then lhs.sizeU > rhs.sizeU
  else lhs.index < rhs.index

def gt (lhs rhs : PackingPatch) : Prop :=
  let maxDim := if lhs.sizeU0 > lhs.sizeV0 then lhs.sizeU0 else lhs.sizeV0
  let minDim := if lhs.sizeU0 > lhs.sizeV0 then lhs.sizeV0 else lhs.sizeU0
  let rhsMaxDim := if rhs.sizeU0 > rhs.sizeV0 then rhs.sizeU0 else rhs.sizeV0
  let rhsMinDim := if rhs.sizeU0 > rhs.sizeV0 then rhs.sizeV0 else rhs.sizeU0
  if maxDim ≠ rhsMaxDim then maxDim > rhsMaxDim
  else if minDim ≠ rhsMinDim then minDim > rhsMinDim
  else lhs.index < rhs.index

instance (lhs rhs : PackingPatch) : Decidable (lhs.lt rhs) :=
  inferInstanceAs (Decidable (ite _ _ _))

instance (lhs rhs : PackingPatch) : Decidable (lhs.gt rhs) :=
  inferInstanceAs (Decidable (ite _ _ _))

end PackingPatch

def g_orientationVertical : List PatchOrientation :=
  [.default, .swap, .rot180, .mirror, .mrot180, .rot270, .mrot90, .rot90]

def g_orientationHorizontal : List PatchOrientation :=
  [.swap, .default, .rot270, .mrot90, .rot90, .rot180, .mirror, .mrot180]

/-- What the loop over the patches changes. -/
structure PackingState where
  occupancyMap : BlockCanvas
  width : ℕ
  height : ℕ
  maxOccupancyRow : ℕ

namespace PCCEncoder

/-- A place that a loop tries, and the safeguard it is tried with. -/
abbrev Attempt := PatchPlacement × ℤ

/-- A pass over the places, left at the first one that fits. -/
def firstFit (fits : Attempt → Option Bool) : List Attempt → Option (Option PatchPlacement)
  | [] => some none
  | attempt :: attempts => do
    if ← fits attempt then some (some attempt.1) else firstFit fits attempts

/-- The passes of `while ( !locationFound )`, each over a canvas of twice the height. -/
def findLocation (patch : PackingPatch) (lowDelayEncoding : Bool)
    (attempts : ℕ → ℕ → List Attempt) : ℕ → BlockCanvas → Option (PatchPlacement × BlockCanvas)
  | 0, _ => none
  | fuel + 1, canvas => do
    let found ← firstFit
      (fun attempt => { patch with toPatchPlacement := attempt.1 }.checkFitPatchCanvas canvas
        lowDelayEncoding attempt.2) (attempts canvas.stride canvas.height)
    match found with
    | some place => some (place, canvas)
    | none => findLocation patch lowDelayEncoding attempts fuel canvas.doubled

def orientations (params : PackingParams) (packingStrategy : ℤ) (patch : PackingPatch) :
    List PatchOrientation :=
  if packingStrategy = 0 then [.default]
  else
    let numOrientations := if params.useEightOrientations then 8 else 2
    if patch.sizeU0 > patch.sizeV0 then g_orientationHorizontal.take numOrientations
    else g_orientationVertical.take numOrientations

/-- The places of a patch that follows no other. -/
def bestEffort (params : PackingParams) (packingStrategy safeguard : ℤ) (patch : PackingPatch)
    (occupancySizeU occupancySizeV : ℕ) : List Attempt :=
  (grid occupancySizeU occupancySizeV).flatMap fun (u, v) =>
    (orientations params packingStrategy patch).map fun orientation =>
      ({ patch.toPatchPlacement with u0 := u, v0 := v, patchOrientation := orientation },
        safeguard)

/-- The places of a patch with its match in the previous frame: that of the match, and every
other in its orientation. -/
def matchedPlaces (safeguard : ℤ) (patch : PackingPatch) (previous : PatchPlacement)
    (occupancySizeU occupancySizeV : ℕ) : List Attempt :=
  let place := { patch.toPatchPlacement with
    u0 := previous.u0, v0 := previous.v0, patchOrientation := previous.patchOrientation }
  (place, 0) :: (grid (occupancySizeU + 1) (occupancySizeV + 1)).map fun (u, v) =>
    ({ place with u0 := u, v0 := v }, safeguard)

/-- The body of the loop over the patches. `packFlexible` leaves the width as it was. -/
def packPatch (fuel : ℕ) (params : PackingParams) (attempts : PackingPatch → ℕ → ℕ → List Attempt)
    (patch : PackingPatch) (s : PackingState) : Option (PackingPatch × PackingState) := do
  let (place, canvas) ← findLocation patch params.lowDelayEncoding (attempts patch) fuel
    s.occupancyMap
  let patch := { patch with toPatchPlacement := place }
  let canvas ← patch.markBlocks params.lowDelayEncoding canvas
  let sizeX := if patch.isPatchDimensionSwitched then patch.sizeV0 else patch.sizeU0
  let sizeY := if patch.isPatchDimensionSwitched then patch.sizeU0 else patch.sizeV0
  some (patch,
    { occupancyMap := canvas
      width := max s.width ((patch.u0 + sizeX) * params.occupancyResolution)
      height := max s.height ((patch.v0 + sizeY) * params.occupancyResolution)
      maxOccupancyRow := max s.maxOccupancyRow (patch.v0 + sizeY) })

def packPatches (fuel : ℕ) (params : PackingParams)
    (attempts : PackingPatch → ℕ → ℕ → List Attempt) :
    List PackingPatch → PackingState → Option (List PackingPatch × PackingState)
  | [], s => some ([], s)
  | patch :: patches, s => do
    let (placed, s) ← packPatch fuel params attempts patch s
    let (rest, s) ← packPatches fuel params attempts patches s
    some (placed :: rest, s)

/-- The occupied blocks of a raw patch whose samples fill its first pixels. -/
def rawOccupancy (raw : PCCRawPointsPatch) : List Bool :=
  (List.range (raw.sizeU0 * raw.sizeV0)).map fun p0 =>
    (grid raw.sizeU raw.sizeV).any fun (u, v) =>
      v * raw.sizeU + u < raw.numberOfRawPoints * 3 ∧
        v / raw.occupancyResolution * raw.sizeU0 + u / raw.occupancyResolution = p0

/-- The sizes that the number of points gives a raw patch, in blocks and in pixels. -/
def sizeRawPointsPatch (params : PackingParams) (occupancySizeU : ℕ) (raw : PCCRawPointsPatch) :
    Option PCCRawPointsPatch := do
  let rawPointsPatchBlocks ← ceilQuotient (raw.numberOfRawPoints * 3)
    (params.occupancyResolution * params.occupancyResolution)
  let sizeV0 ← ceilQuotient rawPointsPatchBlocks occupancySizeU
  let sizeU0 ← ceilQuotient rawPointsPatchBlocks sizeV0
  let sizeU := sizeU0 * params.occupancyResolution
  let sizeV := sizeV0 * params.occupancyResolution
  let size := sizeU * sizeV
  let raw := { raw with
    sizeU0 := sizeU0, sizeV0 := sizeV0, sizeU := sizeU, sizeV := sizeV
    x := raw.x.take size ++ List.replicate (size - raw.x.length) 32767 }
  some { raw with occupancy := rawOccupancy raw }

/-- The rows below the patches, from the left. -/
def rawPlaces (maxOccupancyRow : ℕ) (patch : PackingPatch)
    (occupancySizeU occupancySizeV : ℕ) : List Attempt :=
  ((grid (occupancySizeU + 1) (occupancySizeV + 1)).filter fun (_, v) => maxOccupancyRow ≤ v).map
    fun (u, v) =>
      ({ patch.toPatchPlacement with u0 := u, v0 := v, patchOrientation := .default }, 0)

/-- The body of the loop over the raw patches. -/
def packRawPoints (fuel : ℕ) (params : PackingParams) (maxOccupancyRow : ℕ)
    (raw : PCCRawPointsPatch) (canvas : BlockCanvas) (height : ℕ) :
    Option (PCCRawPointsPatch × BlockCanvas × ℕ) := do
  let raw ← sizeRawPointsPatch params canvas.stride raw
  let patch : PackingPatch := {
    sizeU0 := raw.sizeU0, sizeV0 := raw.sizeV0, sizeU := raw.sizeU, sizeV := raw.sizeV
    occupancy := raw.occupancy }
  let (place, canvas) ← findLocation patch params.lowDelayEncoding
    (rawPlaces maxOccupancyRow patch) fuel canvas
  let patch := { patch with toPatchPlacement := place }
  let canvas ← patch.markBlocks params.lowDelayEncoding canvas
  some ({ raw with u0 := place.u0, v0 := place.v0 }, canvas,
    if raw.sizeV0 = 0 then height
    else max height ((place.v0 + raw.sizeV0) * params.occupancyResolution))

def packRawPointsPatch (fuel : ℕ) (params : PackingParams) (maxOccupancyRow : ℕ) :
    List PCCRawPointsPatch → BlockCanvas → ℕ → Option (List PCCRawPointsPatch × ℕ)
  | [], _, height => some ([], height)
  | raw :: raws, canvas, height => do
    let (placed, canvas, height) ← packRawPoints fuel params maxOccupancyRow raw canvas height
    let (rest, height) ← packRawPointsPatch fuel params maxOccupancyRow raws canvas height
    some (placed :: rest, height)

def packEOMAttributePointsPatch (params : PackingParams) (occupancySizeU : ℕ) :
    List PCCEomPatch → ℕ → Option (List PCCEomPatch × ℕ)
  | [], lastHeight => some ([], lastHeight)
  | eomPatch :: eomPatches, lastHeight => do
    let eomPointsPatchBlocks ← ceilQuotient eomPatch.eomCount
      (params.occupancyResolution * params.occupancyResolution)
    let eomPointsPatchBlocksV ← ceilQuotient eomPointsPatchBlocks occupancySizeU
    let (rest, height) ← packEOMAttributePointsPatch params occupancySizeU eomPatches
      (lastHeight + eomPointsPatchBlocksV * params.occupancyResolution)
    some ({ eomPatch with
      isPatchInAuxVideo := params.useRawPointsSeparateVideo
      u0 := 0, v0 := lastHeight / params.occupancyResolution
      sizeU := occupancySizeU, sizeV := eomPointsPatchBlocksV } :: rest, height)

/-- The patches that share the video with those of the surface go below them. -/
def packPointPatches (fuel : ℕ) (params : PackingParams) (maxOccupancyRow : ℕ)
    (canvas : BlockCanvas) (tile : PackingTile) : Option PackingTile := do
  let raw :=
    if tile.rawPointsPatches ≠ [] ∧ ¬tile.useRawPointsSeparateVideo then
      packRawPointsPatch fuel params maxOccupancyRow tile.rawPointsPatches canvas tile.height
    else some (tile.rawPointsPatches, tile.height)
  let (rawPointsPatches, height) ← raw
  let eom :=
    if params.enhancedOccupancyMapCode ∧ ¬tile.useRawPointsSeparateVideo then
      packEOMAttributePointsPatch params canvas.stride tile.eomPatches height
    else some (tile.eomPatches, height)
  let (eomPatches, height) ← eom
  some { tile with
    rawPointsPatches := rawPointsPatches, eomPatches := eomPatches, height := height }

/-- The branch of both packers for a tile without patches. -/
def packEmptyTile (fuel : ℕ) (params : PackingParams) (presetWidth presetHeight : ℕ)
    (tile : PackingTile) : Option PackingTile :=
  match tile.rawPointsPatches with
  | [] => some tile
  | raw :: _ => do
    if tile.useRawPointsSeparateVideo then some tile
    else if params.occupancyResolution = 0 then none
    else
      let rawPointsPatchBlocks ← ceilQuotient (raw.numberOfRawPoints * 3)
        (params.occupancyResolution * params.occupancyResolution)
      let occupancySizeU :=
        (if presetWidth = 0 then params.minimumImageWidth else presetWidth) /
          params.occupancyResolution
      let rows :=
        if presetHeight = 0 then ceilQuotient rawPointsPatchBlocks occupancySizeU
        else some (presetHeight / params.occupancyResolution)
      let occupancySizeV ← rows
      let tile ← packPointPatches fuel params 0 (.empty occupancySizeU occupancySizeV) tile
      some (if tile.height = 0 then { tile with height := 64 } else tile)

def canvasWidth (params : PackingParams) (presetWidth : ℕ) (patches : List PackingPatch) : ℕ :=
  patches.foldl (fun width patch => max width (patch.sizeU0 + 1))
    (presetWidth / params.occupancyResolution)

/-- The rows that the canvas starts with. A tile height below zero becomes a large `size_t`. -/
def canvasHeight (params : PackingParams) (first : PackingPatch) (occupancySizeU : ℕ) :
    Option ℕ :=
  let occupancySizeV := max first.sizeU0 first.sizeV0
  let numTilesHor := toSizeT params.numTilesHor
  if numTilesHor = 0 then none
  else
    let tileHeight := toSizeT (params.tileHeightOfWidth (toInt32 (occupancySizeU / numTilesHor)))
    some (if occupancySizeV ≥ tileHeight then occupancySizeV else tileHeight)

variable (fuel : ℕ) (params : PackingParams) (lt : StdSort PackingPatch.lt)
  (gt : StdSort PackingPatch.gt) (packingStrategy : ℤ) (presetWidth presetHeight : ℕ)
  (safeguard : ℤ)

def sortPatches (patches : List PackingPatch) : List PackingPatch :=
  if packingStrategy = 0 then lt.sort patches else gt.sort patches

/-- The width of the tile is a local copy in the source, which no statement changes. -/
def packFlexible (tile : PackingTile) : Option PackingTile :=
  let tile := { tile with numMatchedPatches := 0 }
  match sortPatches lt gt packingStrategy tile.patches with
  | [] => packEmptyTile fuel params presetWidth presetHeight tile
  | first :: rest => do
    if params.occupancyResolution = 0 then none
    else
      let occupancySizeU := canvasWidth params presetWidth (first :: rest)
      let occupancySizeV ← canvasHeight params first occupancySizeU
      let (patches, s) ← packPatches fuel params (bestEffort params packingStrategy safeguard)
        (first :: rest)
        { occupancyMap := .empty occupancySizeU occupancySizeV
          width := tile.width
          height := occupancySizeV * params.occupancyResolution
          maxOccupancyRow := 0 }
      packPointPatches fuel params s.maxOccupancyRow s.occupancyMap
        { tile with patches := patches, height := s.height }

/-- `0.2F` -/
def thresholdIOU : ℚ := 13421773 / 67108864

/-- The patch that overlaps most with one of the previous frame, and by how much. -/
def bestMatch (iou : PackingPatch → PackingPatch → ℚ) (previous : PackingPatch)
    (patches : List PackingPatch) : ℚ × Option ℕ :=
  patches.zipIdx.foldl (fun (maxIou, bestIdx) (patch, cId) =>
    if previous.viewId = patch.viewId ∧ patch.bestMatchIdx = -1 ∧
        previous.lodScaleX = patch.lodScaleX ∧ previous.lodScaleY = patch.lodScaleY ∧
        maxIou < iou previous patch then (iou previous patch, some cId)
    else (maxIou, bestIdx)) (0, none)

/-- One pass of the loop over the patches of the previous frame. -/
def matchPatch (iou : PackingPatch → PackingPatch → ℚ)
    (s : List PackingPatch × List PackingPatch) (previous : PackingPatch × ℕ) :
    List PackingPatch × List PackingPatch :=
  let (patches, matchedPatches) := s
  match bestMatch iou previous.1 patches with
  | (maxIou, some bestIdx) =>
    match patches[bestIdx]? with
    | some patch =>
      if thresholdIOU < maxIou then
        let patch := { patch with bestMatchIdx := previous.2 }
        (patches.set bestIdx patch, matchedPatches ++ [patch])
      else s
    | none => s
  | (_, none) => s

/-- Patches with a match go first, in the order of the previous frame. -/
def matchPatches (iou : PackingPatch → PackingPatch → ℚ)
    (prevPatches patches : List PackingPatch) : List PackingPatch × List PackingPatch :=
  let (patches, matchedPatches) := prevPatches.zipIdx.foldl (matchPatch iou) (patches, [])
  (matchedPatches, patches.filter fun patch => patch.bestMatchIdx = -1)

/-- The places of a patch. A match is looked up in the previous frame. -/
def consistentPlaces (prevPatches : List PackingPatch) (patch : PackingPatch)
    (occupancySizeU occupancySizeV : ℕ) : List Attempt :=
  if patch.bestMatchIdx = -1 then
    bestEffort params packingStrategy safeguard patch occupancySizeU occupancySizeV
  else
    match prevPatches[patch.bestMatchIdx.toNat]? with
    | some previous =>
      matchedPlaces safeguard patch previous.toPatchPlacement occupancySizeU occupancySizeV
    | none => []

/-- The overlap of two patches, in single precision, is a parameter. -/
def spatialConsistencyPackFlexible (iou : PackingPatch → PackingPatch → ℚ)
    (prevPatches : List PackingPatch) (tile : PackingTile) : Option PackingTile :=
  match sortPatches lt gt packingStrategy tile.patches with
  | [] => packEmptyTile fuel params presetWidth presetHeight tile
  | first :: rest => do
    if params.occupancyResolution = 0 then none
    else
      let (matchedPatches, unmatched) := matchPatches iou prevPatches (first :: rest)
      let patches := matchedPatches ++ unmatched
      let occupancySizeU := canvasWidth params presetWidth patches
      let occupancySizeV ← canvasHeight params first occupancySizeU
      let (patches, s) ← packPatches fuel params
        (consistentPlaces params packingStrategy safeguard prevPatches) patches
        { occupancyMap := .empty occupancySizeU occupancySizeV
          width := occupancySizeU * params.occupancyResolution
          height := occupancySizeV * params.occupancyResolution
          maxOccupancyRow := 0 }
      packPointPatches fuel params s.maxOccupancyRow s.occupancyMap
        { tile with
          patches := patches, numMatchedPatches := matchedPatches.length
          width := s.width, height := s.height }

end PCCEncoder

end V3C

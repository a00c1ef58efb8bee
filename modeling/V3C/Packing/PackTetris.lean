import V3C.Packing.Horizon

/-! The packing of the patches of a tile, each where it leaves the least space above it. -/
namespace V3C

/-- What the loop over the patches changes. -/
structure TetrisState extends PackingState where
  horizon : List ℕ

namespace PCCEncoder

/-- The places that are tried, column by column. -/
def tetrisPlaces (params : PackingParams) (patch : PackingPatch)
    (occupancySizeU occupancySizeV : ℕ) : List PatchPlacement :=
  let numOrientations := if params.useEightOrientations then 8 else 2
  (List.range occupancySizeU).flatMap fun u => (List.range occupancySizeV).flatMap fun v =>
    (g_orientationVertical.take numOrientations).map fun orientation =>
      { patch.toPatchPlacement with u0 := u, v0 := v, patchOrientation := orientation }

section Patch

variable (past : ℕ → Option ℕ) (params : PackingParams) (safeguard : ℤ)

/-- One place, and the best place so far with its wasted space. -/
def tryPlace (patch : PackingPatch) (h : PatchHorizons) (horizon : List ℕ) (canvas : BlockCanvas)
    (best : Option (ℤ × PatchPlacement)) (place : PatchPlacement) :
    Option (Option (ℤ × PatchPlacement)) := do
  let patch := { patch with toPatchPlacement := place }
  if ← patch.isPatchLocationAboveHorizon past horizon h then
    if ← patch.checkFitPatchCanvas canvas params.lowDelayEncoding safeguard then do
      let wasted_space ← patch.calculateWastedSpace past horizon h
      let best_wasted_space := (best.map Prod.fst).getD (2 ^ 31 - 1)
      some (if wasted_space < best_wasted_space then some (wasted_space, place) else best)
    else some best
  else some best

/-- The passes of `while ( !locationFound )` of `packTetris`. -/
def findTetrisLocation (patch : PackingPatch) (h : PatchHorizons) (horizon : List ℕ) :
    ℕ → BlockCanvas → Option (PatchPlacement × BlockCanvas)
  | 0, _ => none
  | fuel + 1, canvas => do
    let best ← (tetrisPlaces params patch canvas.stride canvas.height).foldlM
      (tryPlace past params safeguard patch h horizon canvas) none
    match best with
    | some (_, place) => some (place, canvas)
    | none => findTetrisLocation patch h horizon fuel canvas.doubled

/-- The map and the sizes once the place of a patch is known. -/
def placePatch (patch : PackingPatch) (canvas : BlockCanvas) (s : PackingState) :
    Option PackingState := do
  let canvas ← patch.markBlocks params.lowDelayEncoding canvas
  let sizeX := if patch.isPatchDimensionSwitched then patch.sizeV0 else patch.sizeU0
  let sizeY := if patch.isPatchDimensionSwitched then patch.sizeU0 else patch.sizeV0
  some {
    occupancyMap := canvas
    width := max s.width ((patch.u0 + sizeX) * params.occupancyResolution)
    height := max s.height ((patch.v0 + sizeY) * params.occupancyResolution)
    maxOccupancyRow := max s.maxOccupancyRow (patch.v0 + sizeY) }

/-- A patch at its place: the horizon first, then the map. -/
def settlePatch (patch : PackingPatch) (h : PatchHorizons) (canvas : BlockCanvas)
    (s : TetrisState) : Option (PackingPatch × TetrisState) := do
  let horizon ← patch.updateHorizon s.horizon h
  let packed ← placePatch params patch canvas s.toPackingState
  some (patch, { packed with horizon })

def packTetrisPatch (fuel : ℕ) (patch : PackingPatch) (s : TetrisState) :
    Option (PackingPatch × TetrisState) := do
  let h ← patch.getPatchHorizons
  let (place, canvas) ← findTetrisLocation past params safeguard patch h s.horizon fuel s.occupancyMap
  settlePatch params { patch with toPatchPlacement := place } h canvas s

def packTetrisPatches (fuel : ℕ) :
    List PackingPatch → TetrisState → Option (List PackingPatch × TetrisState)
  | [], s => some ([], s)
  | patch :: patches, s => do
    let (placed, s) ← packTetrisPatch past params safeguard fuel patch s
    let (rest, s) ← packTetrisPatches fuel patches s
    some (placed :: rest, s)

/-- The canvas before the first patch. -/
def tetrisStart (presetWidth : ℕ) (first : PackingPatch) (patches : List PackingPatch) :
    TetrisState :=
  let occupancySizeU := canvasWidth params presetWidth patches
  let occupancySizeV := max first.sizeV0 first.sizeU0
  { occupancyMap := .empty occupancySizeU occupancySizeV
    width := occupancySizeU * params.occupancyResolution
    height := occupancySizeV * params.occupancyResolution
    maxOccupancyRow := 0
    horizon := List.replicate occupancySizeU 0 }

end Patch

/-- Raw patches are packed here also where they have a video of their own. -/
def packTetris (past : ℕ → Option ℕ) (fuel : ℕ) (params : PackingParams) (gt : StdSort PackingPatch.gt)
    (presetWidth : ℕ) (safeguard : ℤ) (tile : PackingTile) : Option PackingTile :=
  let tile := { tile with numMatchedPatches := 0 }
  match gt.sort tile.patches with
  | [] => some tile
  | first :: rest => do
    if params.occupancyResolution = 0 then none
    else
      let (patches, s) ← packTetrisPatches past params safeguard fuel (first :: rest)
        (tetrisStart params presetWidth first (first :: rest))
      let raw :=
        if tile.rawPointsPatches ≠ [] then
          packRawPointsPatch fuel params s.maxOccupancyRow tile.rawPointsPatches s.occupancyMap
            s.height
        else some (tile.rawPointsPatches, s.height)
      let (rawPointsPatches, height) ← raw
      let eom :=
        if params.enhancedOccupancyMapCode ∧ ¬tile.useRawPointsSeparateVideo then
          packEOMAttributePointsPatch params s.occupancyMap.stride tile.eomPatches height
        else some (tile.eomPatches, height)
      let (eomPatches, height) ← eom
      some { tile with
        patches := patches, rawPointsPatches := rawPointsPatches, eomPatches := eomPatches
        width := s.width, height := height }

end PCCEncoder

end V3C

import Mathlib.Data.List.Iterate
import V3C.Packing.PackTetris

/-! The packing of a tile that keeps matched patches close to their place in the previous frame and
packs the others above the horizon. -/
namespace V3C

/-- The next point of the spiral search. -/
def spiralStep (p : ℤ × ℤ) : ℤ × ℤ :=
  let (x, y) := p
  if |x| ≤ |y| ∧ (x ≠ y ∨ 0 ≤ x) then (x + if 0 ≤ y then 1 else -1, y)
  else (x, y + if 0 ≤ x then -1 else 1)

namespace PCCEncoder

/-- The number of points of the spiral, an `int`. -/
def spiralEnd (occupancySizeU occupancySizeV : ℕ) : ℕ :=
  (toInt32 (max occupancySizeU occupancySizeV * max occupancySizeU occupancySizeV * 4)).toNat

/-- The places around that of the match, in its orientation. -/
def spiralPlaces (safeguard : ℤ) (patch : PackingPatch) (previous : PatchPlacement)
    (occupancySizeU occupancySizeV : ℕ) : List Attempt :=
  (List.iterate spiralStep (0, 0) (spiralEnd occupancySizeU occupancySizeV)).filterMap fun (x, y) =>
    let xp := toInt32 (toSizeT (x + previous.u0))
    let yp := toInt32 (toSizeT (y + previous.v0))
    if 0 ≤ xp ∧ xp < occupancySizeU ∧ 0 ≤ yp ∧ yp < occupancySizeV then
      some ({ patch.toPatchPlacement with
        u0 := xp.toNat, v0 := yp.toNat, patchOrientation := previous.patchOrientation }, safeguard)
    else none

section Patch

variable (past : ℕ → Option ℕ) (params : PackingParams) (safeguard : ℤ)
  (prevPatches : List PackingPatch)

/-- The passes of `while ( !locationFound )` of `spatialConsistencyPackTetris`. -/
def findConsistentLocation (patch : PackingPatch) (h : PatchHorizons) (horizon : List ℕ)
    (fuel : ℕ) (canvas : BlockCanvas) : Option (PatchPlacement × BlockCanvas) :=
  if patch.bestMatchIdx = -1 then
    findTetrisLocation past params safeguard patch h horizon fuel canvas
  else
    match prevPatches[patch.bestMatchIdx.toNat]? with
    | some previous =>
      findLocation patch params.lowDelayEncoding
        (spiralPlaces safeguard patch previous.toPatchPlacement) fuel canvas
    | none => none

def packConsistentPatch (fuel : ℕ) (patch : PackingPatch) (s : TetrisState) :
    Option (PackingPatch × TetrisState) := do
  let h ← patch.getPatchHorizons
  let (place, canvas) ← findConsistentLocation past params safeguard prevPatches patch h s.horizon
    fuel s.occupancyMap
  settlePatch params { patch with toPatchPlacement := place } h canvas s

def packConsistentPatches (fuel : ℕ) :
    List PackingPatch → TetrisState → Option (List PackingPatch × TetrisState)
  | [], s => some ([], s)
  | patch :: patches, s => do
    let (placed, s) ← packConsistentPatch past params safeguard prevPatches fuel patch s
    let (rest, s) ← packConsistentPatches fuel patches s
    some (placed :: rest, s)

end Patch

def spatialConsistencyPackTetris (past : ℕ → Option ℕ) (fuel : ℕ) (params : PackingParams)
    (gt : StdSort PackingPatch.gt) (presetWidth : ℕ) (safeguard : ℤ)
    (iou : PackingPatch → PackingPatch → ℚ) (prevPatches : List PackingPatch)
    (tile : PackingTile) : Option PackingTile :=
  match gt.sort tile.patches with
  | [] => some tile
  | first :: rest => do
    if params.occupancyResolution = 0 then none
    else
      let (matchedPatches, unmatched) := matchPatches iou prevPatches (first :: rest)
      let patches := matchedPatches ++ unmatched
      let (patches, s) ← packConsistentPatches past params safeguard prevPatches fuel patches
        (tetrisStart params presetWidth first patches)
      packPointPatches fuel params s.maxOccupancyRow s.occupancyMap
        { tile with
          numMatchedPatches := matchedPatches.length, patches := patches
          width := s.width, height := s.height }

end PCCEncoder

end V3C

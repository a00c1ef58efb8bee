import V3C.Packing.CanvasRectangle
import V3C.Packing.PackFlexible
import V3C.Store.Cells

/-! The horizon of a packing: for each column of the canvas, the last occupied row. -/
namespace V3C
open Cells

/-- The distances of the first occupied blocks from the four sides of a patch that is not turned. -/
structure PatchHorizons where
  topHorizon : List ℕ
  bottomHorizon : List ℕ
  rightHorizon : List ℕ
  leftHorizon : List ℕ

namespace PackingPatch

/-- The loop over the blocks of a row or column up to an occupied one or the last. -/
def climb (occupied : ℕ → Option Bool) : ℕ → ℕ → Option ℕ
  | 0, horizon => (occupied horizon).map fun _ => horizon
  | left + 1, horizon => do
    if ← occupied horizon then some horizon else climb occupied left (horizon + 1)

def getPatchHorizons (patch : PackingPatch) : Option PatchHorizons :=
  if patch.sizeU0 = 0 ↔ patch.sizeV0 = 0 then do
    let topHorizon ← (List.range patch.sizeU0).mapM fun i =>
      climb (fun h => patch.occupancy[(patch.sizeV0 - 1 - h) * patch.sizeU0 + i]?)
        (patch.sizeV0 - 1) 0
    let bottomHorizon ← (List.range patch.sizeU0).mapM fun i =>
      climb (fun h => patch.occupancy[h * patch.sizeU0 + i]?) (patch.sizeV0 - 1) 0
    let rightHorizon ← (List.range patch.sizeV0).mapM fun i =>
      climb (fun h => patch.occupancy[i * patch.sizeU0 + (patch.sizeU0 - 1 - h)]?)
        (patch.sizeU0 - 1) 0
    let leftHorizon ← (List.range patch.sizeV0).mapM fun i =>
      climb (fun h => patch.occupancy[i * patch.sizeU0 + h]?) (patch.sizeU0 - 1) 0
    some { topHorizon, bottomHorizon, rightHorizon, leftHorizon }
  else none

/-- The columns of the turned patch. -/
def columns (patch : PackingPatch) : ℕ :=
  match patch.patchOrientation with
  | .default | .rot180 | .mirror | .mrot180 => patch.sizeU0
  | .rot90 | .rot270 | .mrot90 | .mrot270 | .swap => patch.sizeV0
  | .other _ => 0

/-- The first row of a column of the turned patch that may be occupied. -/
def firstRow (patch : PackingPatch) (h : PatchHorizons) (idx : ℕ) : Option ℕ :=
  match patch.patchOrientation with
  | .default => h.bottomHorizon[idx]?
  | .rot90 => h.leftHorizon[patch.sizeV0 - 1 - idx]?
  | .rot180 => h.topHorizon[patch.sizeU0 - 1 - idx]?
  | .rot270 => h.rightHorizon[idx]?
  | .mirror => h.bottomHorizon[patch.sizeU0 - 1 - idx]?
  | .mrot90 => h.rightHorizon[patch.sizeV0 - 1 - idx]?
  | .mrot180 => h.topHorizon[idx]?
  | .mrot270 | .swap => h.leftHorizon[idx]?
  | .other _ => none

/-- The last row of a column of the turned patch that may be occupied. -/
def lastRow (patch : PackingPatch) (h : PatchHorizons) (idx : ℕ) : Option ℕ :=
  match patch.patchOrientation with
  | .default => h.topHorizon[idx]?.map (patch.sizeV0 - 1 - ·)
  | .rot90 => h.rightHorizon[patch.sizeV0 - 1 - idx]?.map (patch.sizeU0 - 1 - ·)
  | .rot180 => h.bottomHorizon[patch.sizeU0 - 1 - idx]?.map (patch.sizeV0 - 1 - ·)
  | .rot270 => h.leftHorizon[idx]?.map (patch.sizeU0 - 1 - ·)
  | .mirror => h.topHorizon[patch.sizeU0 - 1 - idx]?.map (patch.sizeV0 - 1 - ·)
  | .mrot90 => h.leftHorizon[patch.sizeV0 - 1 - idx]?.map (patch.sizeU0 - 1 - ·)
  | .mrot180 => h.bottomHorizon[idx]?.map (patch.sizeV0 - 1 - ·)
  | .mrot270 | .swap => h.rightHorizon[idx]?.map (patch.sizeU0 - 1 - ·)
  | .other _ => none

/-- `past` is what is found past the end of the horizon, if reading there has an outcome. -/
def readHorizon (past : ℕ → Option ℕ) (horizon : List ℕ) (i : ℕ) : Option ℕ :=
  if i < horizon.length then horizon[i]? else past i

def isPatchLocationAboveHorizon (past : ℕ → Option ℕ) (patch : PackingPatch) (horizon : List ℕ)
    (h : PatchHorizons) : Option Bool :=
  (List.range patch.columns).allM fun idx => do
    let row ← patch.firstRow h idx
    let last ← readHorizon past horizon (patch.u0 + idx)
    some (decide (last ≤ patch.v0 + row))

/-- A column of the horizon, which no block of the patch lies below. -/
def raiseColumn (patch : PackingPatch) (h : PatchHorizons) (horizon : List ℕ) (idx : ℕ) :
    Option (List ℕ) := do
  let row ← patch.lastRow h idx
  let last ← horizon[patch.u0 + idx]?
  let newVal := patch.v0 + row
  if newVal > last then setAt horizon (patch.u0 + idx) newVal else some horizon

def updateHorizon (patch : PackingPatch) (horizon : List ℕ) (h : PatchHorizons) :
    Option (List ℕ) := (List.range patch.columns).foldlM (patch.raiseColumn h) horizon

/-- The blocks between the sides that are counted for one row or column: from the first, and how
many. -/
def internalRange (patch : PackingPatch) (h : PatchHorizons) (idx : ℕ) : Option (ℕ × ℕ) :=
  match patch.patchOrientation with
  | .default | .mirror => do
    let bottom ← h.bottomHorizon[idx]?
    let top ← h.topHorizon[idx]?
    some (bottom + 1, patch.sizeV0 - top - (bottom + 1))
  | .rot180 | .mrot180 => do
    let bottom ← h.bottomHorizon[idx]?
    let top ← h.topHorizon[idx]?
    some (bottom, patch.sizeV0 - top - bottom)
  | .rot270 | .mrot90 => do
    let left ← h.leftHorizon[idx]?
    let right ← h.rightHorizon[idx]?
    some (left + 1, patch.sizeU0 - right - (left + 1))
  | .rot90 => do
    let left ← h.leftHorizon[idx]?
    let right ← h.rightHorizon[idx]?
    some (left, patch.sizeU0 - right - left)
  | .mrot270 | .swap => do
    let left ← h.leftHorizon[idx]?
    let right ← h.rightHorizon[idx]?
    some (right, patch.sizeU0 - left - right)
  | .other _ => none

/-- The empty blocks inside the patch. -/
def wastedInternal (patch : PackingPatch) (h : PatchHorizons) (idx : ℕ) : Option ℕ := do
  let (first, count) ← patch.internalRange h idx
  let blocks ← (List.range' first count).mapM fun idx2 =>
    if patch.isPatchDimensionSwitched then patch.occupancy[idx * patch.sizeU0 + idx2]?
    else patch.occupancy[idx2 * patch.sizeU0 + idx]?
  some (blocks.countP (!·))

/-- The sums are taken in `size_t` and kept in an `int`. -/
def calculateWastedSpace (past : ℕ → Option ℕ) (patch : PackingPatch) (horizon : List ℕ)
    (h : PatchHorizons) : Option ℤ := do
  let external ← (List.range patch.columns).mapM fun idx => do
    let row ← patch.firstRow h idx
    let last ← readHorizon past horizon (patch.u0 + idx)
    some (((patch.v0 + row : ℕ) : ℤ) - last)
  let internal ← (List.range patch.columns).mapM (patch.wastedInternal h)
  if patch.columns = 0 then some 0
  else some (Int.bmod (100 * patch.v0 + external.sum + (internal.sum : ℕ)) (2 ^ 32))

end PackingPatch

end V3C

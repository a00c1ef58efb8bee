import V3C.Packing.Canvas

/-! Where a patch fits on a canvas of blocks. -/
namespace V3C

/-- The points of a grid, row by row. -/
def grid (width height : ℕ) : List (ℕ × ℕ) :=
  (List.range height).flatMap fun y => (List.range width).map fun x => (x, y)

@[simp] theorem mem_grid {width height x y : ℕ} :
    (x, y) ∈ grid width height ↔ x < width ∧ y < height := by
  simp [grid, and_comm]

/-- The occupied blocks of a canvas, row by row. -/
structure BlockCanvas where
  stride : ℕ
  height : ℕ
  blocks : List Bool
  length_blocks : blocks.length = stride * height

namespace BlockCanvas

def empty (stride height : ℕ) : BlockCanvas where
  stride := stride
  height := height
  blocks := List.replicate (stride * height) false
  length_blocks := List.length_replicate

/-- The canvas of twice the height. -/
def doubled (canvas : BlockCanvas) : BlockCanvas where
  stride := canvas.stride
  height := canvas.height * 2
  blocks := canvas.blocks ++ List.replicate (canvas.stride * canvas.height) false
  length_blocks := by
    rw [List.length_append, canvas.length_blocks, List.length_replicate, ← Nat.mul_assoc,
      Nat.mul_two]

def set (canvas : BlockCanvas) (coord : ℕ) (value : Bool) : BlockCanvas where
  stride := canvas.stride
  height := canvas.height
  blocks := canvas.blocks.set coord value
  length_blocks := by rw [List.length_set, canvas.length_blocks]

@[simp] theorem stride_empty (stride height : ℕ) : (empty stride height).stride = stride := rfl
@[simp] theorem height_empty (stride height : ℕ) : (empty stride height).height = height := rfl
@[simp] theorem stride_doubled (canvas : BlockCanvas) : canvas.doubled.stride = canvas.stride := rfl
@[simp] theorem height_doubled (canvas : BlockCanvas) :
    canvas.doubled.height = canvas.height * 2 := rfl
@[simp] theorem stride_set (canvas : BlockCanvas) (coord : ℕ) (value : Bool) :
    (canvas.set coord value).stride = canvas.stride := rfl
@[simp] theorem height_set (canvas : BlockCanvas) (coord : ℕ) (value : Bool) :
    (canvas.set coord value).height = canvas.height := rfl

/-- The block in a column and a row is occupied. -/
def Marked (canvas : BlockCanvas) (x y : ℕ) : Prop :=
  canvas.blocks[x + canvas.stride * y]? = some true

theorem Marked.doubled {canvas : BlockCanvas} {x y : ℕ} (h : canvas.Marked x y) :
    canvas.doubled.Marked x y := by
  unfold Marked at h ⊢
  rw [BlockCanvas.doubled, List.getElem?_append_left]
  · exact h
  · exact (List.getElem?_eq_some_iff.mp h).1

end BlockCanvas

/-- A patch on its way into the atlas. All patches have the `occupancyResolution` of the
encoder. -/
structure PackingPatch extends PatchPlacement where
  index : ℕ := 0
  sizeU : ℕ := 0
  sizeV : ℕ := 0
  u1 : ℕ := 0
  v1 : ℕ := 0
  viewId : ℕ := 0
  lodScaleX : ℕ := 1
  lodScaleY : ℕ := 1
  occupancy : List Bool := []
  bestMatchIdx : ℤ := -1
  deriving DecidableEq

namespace PatchPlacement

def isPatchDimensionSwitched (patch : PatchPlacement) : Bool :=
  match patch.patchOrientation with
  | .default | .rot180 | .mirror | .mrot180 => false
  | _ => true

/-- The blocks of the patch in its own axes. -/
def blocks (patch : PatchPlacement) : List (ℕ × ℕ) := grid patch.sizeU0 patch.sizeV0

end PatchPlacement

namespace PackingPatch

/-- The distances up to a safeguard, none if it is negative. -/
def deltas (safeguard : ℤ) : List ℤ :=
  (List.range (2 * safeguard + 1).toNat).map fun (i : ℕ) => (i : ℤ) - safeguard

/-- One check of `checkFitPatchCanvas`. -/
def blockFits (patch : PackingPatch) (canvas : BlockCanvas) (bPrecedence : Bool)
    (block : ℕ × ℕ) (deltaX deltaY : ℤ) : Option Bool := do
  let pos ← patch.patchBlock2CanvasBlock (block.1 + deltaX) (block.2 + deltaY) canvas.stride
    canvas.height
  if pos < 0 then some false
  else
    let occupied ← canvas.blocks[pos.toNat]?
    if bPrecedence then
      if occupied then (patch.occupancy[block.1 + patch.sizeU0 * block.2]?).map (!·)
      else some true
    else some !occupied

def checkFitPatchCanvas (patch : PackingPatch) (canvas : BlockCanvas) (bPrecedence : Bool)
    (safeguard : ℤ) : Option Bool :=
  patch.blocks.allM fun block =>
    (deltas safeguard).allM fun deltaY =>
      (deltas safeguard).allM fun deltaX =>
        patch.blockFits canvas bPrecedence block deltaX deltaY

/-- One block of a placed patch on the map. -/
def markBlock (patch : PackingPatch) (lowDelayEncoding : Bool) (canvas : BlockCanvas)
    (block : ℕ × ℕ) : Option BlockCanvas := do
  let coord ← patch.patchBlock2CanvasBlock block.1 block.2 canvas.stride canvas.height
  if coord < 0 then none
  else if lowDelayEncoding then some (canvas.set coord.toNat true)
  else
    let occupied ← canvas.blocks[coord.toNat]?
    let occupancy ← patch.occupancy[block.2 * patch.sizeU0 + block.1]?
    some (canvas.set coord.toNat (occupied || occupancy))

def markBlocks (patch : PackingPatch) (lowDelayEncoding : Bool) (canvas : BlockCanvas) :
    Option BlockCanvas := patch.blocks.foldlM (patch.markBlock lowDelayEncoding) canvas

/-- The patch has a block in a column and a row of the canvas: its bounding rectangle. -/
def Covers (patch : PatchPlacement) (x y : ℕ) : Prop :=
  ∃ u < patch.sizeU0, ∃ v < patch.sizeV0, patch.blockPosition u v = some (x, y)

/-- The block of the patch in a column and a row is occupied. -/
def Occupies (patch : PackingPatch) (x y : ℕ) : Prop :=
  ∃ u < patch.sizeU0, ∃ v < patch.sizeV0,
    patch.blockPosition u v = some (x, y) ∧ patch.occupancy[v * patch.sizeU0 + u]? = some true

theorem Occupies.covers {patch : PackingPatch} {x y : ℕ} (h : patch.Occupies x y) :
    Covers patch.toPatchPlacement x y :=
  let ⟨u, hu, v, hv, hpos, _⟩ := h
  ⟨u, hu, v, hv, hpos⟩

end PackingPatch

end V3C

import V3C.Common.Integer

/-! The blocks of a patch on a canvas of blocks. -/
namespace V3C

inductive PatchOrientation
  | default
  | swap
  | rot90
  | rot180
  | rot270
  | mirror
  | mrot90
  | mrot180
  | mrot270
  | other (value : ℕ)
  deriving DecidableEq

/-- The members of a patch that place its blocks, all of type `size_t`. -/
structure PatchPlacement where
  u0 : ℕ := 0
  v0 : ℕ := 0
  sizeU0 : ℕ := 0
  sizeV0 : ℕ := 0
  patchOrientation : PatchOrientation := .default
  deriving DecidableEq

namespace PatchPlacement

/-- `x` and `y` of a block, which may lie off the patch. -/
def blockPosition (patch : PatchPlacement) (uBlk vBlk : ℤ) : Option (ℕ × ℕ) :=
  match patch.patchOrientation with
  | .default => some (toSizeT (uBlk + patch.u0), toSizeT (vBlk + patch.v0))
  | .rot90 => some (toSizeT (patch.sizeV0 - 1 - vBlk + patch.u0), toSizeT (uBlk + patch.v0))
  | .rot180 =>
    some (toSizeT (patch.sizeU0 - 1 - uBlk + patch.u0),
      toSizeT (patch.sizeV0 - 1 - vBlk + patch.v0))
  | .rot270 => some (toSizeT (vBlk + patch.u0), toSizeT (patch.sizeU0 - 1 - uBlk + patch.v0))
  | .mirror => some (toSizeT (patch.sizeU0 - 1 - uBlk + patch.u0), toSizeT (vBlk + patch.v0))
  | .mrot90 =>
    some (toSizeT (patch.sizeV0 - 1 - vBlk + patch.u0),
      toSizeT (patch.sizeU0 - 1 - uBlk + patch.v0))
  | .mrot180 => some (toSizeT (uBlk + patch.u0), toSizeT (patch.sizeV0 - 1 - vBlk + patch.v0))
  | .mrot270 => some (toSizeT (vBlk + patch.u0), toSizeT (uBlk + patch.v0))
  | .swap => some (toSizeT (vBlk + patch.u0), toSizeT (uBlk + patch.v0))
  | .other _ => none

/-- The position of a block, or -1 off the canvas. There is none where it does not fit in an
`int`. -/
def patchBlock2CanvasBlock (patch : PatchPlacement) (uBlk vBlk : ℤ)
    (canvasStrideBlk canvasHeightBlk : ℕ) : Option ℤ :=
  match patch.blockPosition uBlk vBlk with
  | none => some (-1)
  | some (x, y) =>
    if canvasStrideBlk ≤ x then some (-1)
    else if canvasHeightBlk ≤ y then some (-1)
    else if x + canvasStrideBlk * y < 2 ^ 31 then some (x + canvasStrideBlk * y : ℕ)
    else none

end PatchPlacement

end V3C

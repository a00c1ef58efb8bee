import V3C.Common.Word

/-! A patch of an atlas frame. -/
namespace V3C

/-- The pixel sizes and `sizeDPixel` have no initial value in the source, and are read only
where they were set. -/
structure PCCPatch where
  u1 : UInt64 := 0
  v1 : UInt64 := 0
  d1 : UInt64 := 0
  sizeD : UInt64 := 0
  sizeDPixel : UInt64 := 0
  u0 : UInt64 := 0
  v0 : UInt64 := 0
  sizeU0 : UInt64 := 0
  sizeV0 : UInt64 := 0
  size2DXInPixel : UInt64 := 0
  size2DYInPixel : UInt64 := 0
  projectionMode : ℕ := 0
  levelOfDetailX : UInt64 := 1
  levelOfDetailY : UInt64 := 1
  normalAxis : ℕ := 0
  tangentAxis : ℕ := 0
  bitangentAxis : ℕ := 0
  axisOfAdditionalPlane : ℕ := 0
  viewId : UInt64 := 0
  bestMatchIdx : Int32 := -1
  refAtlasFrameIdx : UInt64 := 0
  patchOrientation : UInt64 := 0
  deriving DecidableEq

def g_invalidPatchIndex : Int32 := -1

namespace PCCPatch

def setAxis (patch : PCCPatch) (axisOfAdditionalPlane normalAxis tangentAxis bitangentAxis
    projectionMode : ℕ) : PCCPatch :=
  { patch with
    axisOfAdditionalPlane := axisOfAdditionalPlane
    normalAxis := normalAxis
    tangentAxis := tangentAxis
    bitangentAxis := bitangentAxis
    projectionMode := projectionMode }

/-- The arguments `setViewId` has for `setAxis`. -/
def viewAxes : ℕ → Option (ℕ × ℕ × ℕ × ℕ × ℕ)
  | 0 => some (0, 0, 2, 1, 0)
  | 1 => some (0, 1, 2, 0, 0)
  | 2 => some (0, 2, 0, 1, 0)
  | 3 => some (0, 0, 2, 1, 1)
  | 4 => some (0, 1, 2, 0, 1)
  | 5 => some (0, 2, 0, 1, 1)
  | 6 => some (1, 0, 2, 1, 0)
  | 7 => some (1, 2, 0, 1, 0)
  | 8 => some (1, 0, 2, 1, 1)
  | 9 => some (1, 2, 0, 1, 1)
  | 10 => some (2, 2, 0, 1, 0)
  | 11 => some (2, 1, 2, 0, 0)
  | 12 => some (2, 2, 0, 1, 1)
  | 13 => some (2, 1, 2, 0, 1)
  | 14 => some (3, 1, 2, 0, 0)
  | 15 => some (3, 0, 2, 1, 0)
  | 16 => some (3, 1, 2, 0, 1)
  | 17 => some (3, 0, 2, 1, 1)
  | _ => none

/-- The program exits on a view without axes. -/
def setViewId (patch : PCCPatch) (viewId : UInt64) : Option PCCPatch :=
  (viewAxes viewId.toNat).map fun (additional, normal, tangent, bitangent, mode) =>
    { patch with viewId := viewId }.setAxis additional normal tangent bitangent mode

/-- The axes and the projection mode are those of the view. -/
def HasView (patch : PCCPatch) : Prop := patch.setViewId patch.viewId = some patch

instance (patch : PCCPatch) : Decidable patch.HasView := by
  unfold HasView
  infer_instance

/-- `setViewId` gives every patch the axes it gives a patch of the same view. -/
theorem setViewId_of_hasView {patch : PCCPatch} (h : patch.HasView) (other : PCCPatch) :
    other.setViewId patch.viewId =
      some ({ other with viewId := patch.viewId }.setAxis patch.axisOfAdditionalPlane
        patch.normalAxis patch.tangentAxis patch.bitangentAxis patch.projectionMode) := by
  cases haxes : viewAxes patch.viewId.toNat with
  | none =>
    rw [HasView, setViewId, haxes] at h
    cases h
  | some axes =>
    rw [HasView, setViewId, haxes] at h
    have hpatch := Option.some.inj h
    rw [setViewId, haxes, ← hpatch]
    rfl

theorem HasView.setSizeD {patch : PCCPatch} (h : patch.HasView) (sizeD : UInt64) :
    HasView { patch with sizeD := sizeD } := setViewId_of_hasView h _

end PCCPatch

end V3C

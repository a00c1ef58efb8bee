import V3C.Codec.Traverse
import V3C.Segmenter.PatchDepth

/-! The refinement of the occupancy: blocks with few near depths lose them, first those of the
occupancy precision, then those of the occupancy resolution. -/
namespace V3C

structure RefinementSettings where
  occupancyResolution : ℕ
  occupancyPrecision : ℕ
  mapCountMinus1 : ℕ
  enhancedOccupancyMapCode : Bool

/-- There is one map, and the far depths are in the EOM codes only. -/
def RefinementSettings.EOMSingleLayerMode (settings : RefinementSettings) : Bool :=
  settings.enhancedOccupancyMapCode && settings.mapCountMinus1 == 0

namespace SegmentedPatch

/-- The pixels of a square that are in the patch, row by row. -/
def blockPixels (patch : SegmentedPatch) (side : ℕ) (corner : ℕ × ℕ) : List (ℕ × ℕ) :=
  ((grid side side).map fun pixel => (corner.1 + pixel.1, corner.2 + pixel.2)).filter fun pixel =>
    pixel.2 < patch.sizeV && pixel.1 < patch.sizeU

def countDepths (patch : SegmentedPatch) (pixels : List (ℕ × ℕ)) : Option ℕ := do
  let depths ← pixels.mapM fun pixel => patch.depth0[pixel.2 * patch.sizeU + pixel.1]?
  some (depths.countP fun depth => depth < infiniteDepth)

/-- A pixel loses its depths. -/
def removeDepths (patch : SegmentedPatch) (pixel : ℕ × ℕ) : Option SegmentedPatch := do
  let p := pixel.2 * patch.sizeU + pixel.1
  let depth0 ← Cells.setAt patch.depth0 p infiniteDepth
  let depth1 ← Cells.setAt patch.depth1 p infiniteDepth
  some { patch with depth0, depth1 }

def clearOccupancy (patch : SegmentedPatch) (block : ℕ × ℕ) : Option SegmentedPatch := do
  let occupancy ← Cells.setAt patch.occupancy (block.2 * patch.sizeU0 + block.1) false
  some { patch with occupancy }

def refinePrecisionBlock (occupancyPrecision : ℕ) (patch : SegmentedPatch) (corner : ℕ × ℕ) :
    Option SegmentedPatch := do
  let pixels := patch.blockPixels occupancyPrecision corner
  let countOccupancyMapBlock4x4 ← patch.countDepths pixels
  if countOccupancyMapBlock4x4 = 1 then pixels.foldlM removeDepths patch
  else some patch

def refineResolutionBlock (occupancyResolution : ℕ) (patch : SegmentedPatch) (block : ℕ × ℕ) :
    Option SegmentedPatch := do
  let pixels := patch.blockPixels occupancyResolution
    (block.1 * occupancyResolution, block.2 * occupancyResolution)
  let countOccupancyMapBlock16x16 ← patch.countDepths pixels
  if countOccupancyMapBlock16x16 = 0 then patch.clearOccupancy block
  else if countOccupancyMapBlock16x16 < 4 then do
    let patch ← patch.clearOccupancy block
    pixels.foldlM removeDepths patch
  else some patch

def precisionCorners (settings : RefinementSettings) (patch : SegmentedPatch) : List (ℕ × ℕ) :=
  let steps := (settings.occupancyResolution + settings.occupancyPrecision - 1) /
    settings.occupancyPrecision
  (grid patch.sizeU0 patch.sizeV0).flatMap fun block =>
    (grid steps steps).map fun step =>
      (block.1 * settings.occupancyResolution + step.1 * settings.occupancyPrecision,
        block.2 * settings.occupancyResolution + step.2 * settings.occupancyPrecision)

def refine (settings : RefinementSettings) (patch : SegmentedPatch) : Option SegmentedPatch := do
  let patch ← if 1 < settings.occupancyPrecision then
    (patch.precisionCorners settings).foldlM (refinePrecisionBlock settings.occupancyPrecision) patch
  else some patch
  (grid patch.sizeU0 patch.sizeV0).foldlM (refineResolutionBlock settings.occupancyResolution) patch

end SegmentedPatch

def PCCEncoder.refineOccupancyMap (settings : RefinementSettings) (patches : List SegmentedPatch) :
    Option (List SegmentedPatch) :=
  patches.mapM (SegmentedPatch.refine settings)

namespace SegmentedPatch

def Inside (patch : SegmentedPatch) (pixel : ℕ × ℕ) : Prop :=
  pixel.1 < patch.sizeU ∧ pixel.2 < patch.sizeV

def layer (patch : SegmentedPatch) : Fin 2 → List ℤ
  | 0 => patch.depth0
  | 1 => patch.depth1

def depthAt (patch : SegmentedPatch) (layer : Fin 2) (pixel : ℕ × ℕ) : Option ℤ :=
  (patch.layer layer)[pixel.2 * patch.sizeU + pixel.1]?

/-- Whether a pixel has a finite near depth. -/
def isFinite (patch : SegmentedPatch) (pixel : ℕ × ℕ) : Bool :=
  (patch.depthAt 0 pixel).any fun depth => depth < infiniteDepth

def blockOf (side : ℕ) (pixel : ℕ × ℕ) : ℕ × ℕ := (pixel.1 / side, pixel.2 / side)

/-- The number of finite near depths in a block. -/
def blockCount (patch : SegmentedPatch) (side : ℕ) (block : ℕ × ℕ) : ℕ :=
  (patch.blockPixels side (block.1 * side, block.2 * side)).countP patch.isFinite

theorem mem_blockPixels {patch : SegmentedPatch} {side : ℕ} (hside : 0 < side)
    {block pixel : ℕ × ℕ} :
    pixel ∈ patch.blockPixels side (block.1 * side, block.2 * side) ↔
      patch.Inside pixel ∧ blockOf side pixel = block := by
  have hblock : blockOf side pixel = block ↔ (block.1 * side ≤ pixel.1 ∧
      pixel.1 < block.1 * side + side) ∧ block.2 * side ≤ pixel.2 ∧
      pixel.2 < block.2 * side + side := by
    rw [blockOf, Prod.ext_iff, Nat.div_eq_iff hside, Nat.div_eq_iff hside]
    omega
  rw [hblock]
  unfold blockPixels Inside
  simp only [List.mem_filter, List.mem_map, Prod.exists, mem_grid, Bool.and_eq_true,
    decide_eq_true_eq]
  constructor
  · intro h
    obtain ⟨⟨x, y, hgrid, rfl⟩, hinside⟩ := h
    dsimp only at hinside ⊢
    omega
  · intro h
    refine ⟨⟨pixel.1 - block.1 * side, pixel.2 - block.2 * side, by omega, ?_⟩, by omega⟩
    apply Prod.ext
    · dsimp only
      omega
    · dsimp only
      omega

/-- What the refinement does not change: the sizes of a patch and of its arrays. -/
structure SameFrame (before after : SegmentedPatch) : Prop where
  sizeU : after.sizeU = before.sizeU
  sizeV : after.sizeV = before.sizeV
  sizeU0 : after.sizeU0 = before.sizeU0
  sizeV0 : after.sizeV0 = before.sizeV0
  length_layer : ∀ layer, (after.layer layer).length = (before.layer layer).length
  length_occupancy : after.occupancy.length = before.occupancy.length

theorem SameFrame.refl (patch : SegmentedPatch) : SameFrame patch patch :=
  ⟨rfl, rfl, rfl, rfl, fun _ => rfl, rfl⟩

theorem SameFrame.trans {before mid after : SegmentedPatch} (h : SameFrame before mid)
    (h' : SameFrame mid after) : SameFrame before after where
  sizeU := h'.sizeU.trans h.sizeU
  sizeV := h'.sizeV.trans h.sizeV
  sizeU0 := h'.sizeU0.trans h.sizeU0
  sizeV0 := h'.sizeV0.trans h.sizeV0
  length_layer layer := (h'.length_layer layer).trans (h.length_layer layer)
  length_occupancy := h'.length_occupancy.trans h.length_occupancy

theorem SameFrame.inside_iff {before after : SegmentedPatch} (h : SameFrame before after)
    (pixel : ℕ × ℕ) : after.Inside pixel ↔ before.Inside pixel := by
  unfold Inside
  rw [h.sizeU, h.sizeV]

theorem SameFrame.blockPixels {before after : SegmentedPatch} (h : SameFrame before after)
    (side : ℕ) (corner : ℕ × ℕ) :
    after.blockPixels side corner = before.blockPixels side corner := by
  unfold SegmentedPatch.blockPixels
  rw [h.sizeU, h.sizeV]

end SegmentedPatch

end V3C

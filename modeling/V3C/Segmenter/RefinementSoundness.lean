import V3C.Segmenter.RefinementRules

/-! The refinement of the occupancy keeps its promises where the patches have both layers, and
otherwise exactly where there is nothing to remove. -/
namespace V3C

namespace SegmentedPatch

def blockIndex (patch : SegmentedPatch) (block : ℕ × ℕ) : ℕ := block.2 * patch.sizeU0 + block.1

/-- A patch as the segmenter leaves it. -/
structure LeftBySegmenter (settings : RefinementSettings) (patch : SegmentedPatch) : Prop where
  near : patch.Allocated 0
  far : patch.depth1.length =
    if settings.EOMSingleLayerMode then 0 else patch.sizeU * patch.sizeV
  length_occupancy : patch.occupancy.length = patch.sizeU0 * patch.sizeV0
  block_lt : ∀ pixel, patch.Inside pixel → patch.isFinite pixel = true →
    (blockOf settings.occupancyResolution pixel).1 < patch.sizeU0 ∧
      (blockOf settings.occupancyResolution pixel).2 < patch.sizeV0
  occupied : ∀ pixel, patch.Inside pixel → patch.isFinite pixel = true →
    patch.occupancy[patch.blockIndex (blockOf settings.occupancyResolution pixel)]? = some true

/-- The number of near depths that the first rule leaves in a resolution block. -/
def leftCount (settings : RefinementSettings) (patch : SegmentedPatch) (block : ℕ × ℕ) : ℕ :=
  (patch.blockPixels settings.occupancyResolution
    (block.1 * settings.occupancyResolution, block.2 * settings.occupancyResolution)).countP
      fun pixel => patch.isFinite pixel &&
        patch.blockCount settings.occupancyPrecision
          (blockOf settings.occupancyPrecision pixel) != 1

/-- What the refinement promises of a patch. -/
structure Refined (settings : RefinementSettings) (before after : SegmentedPatch) : Prop where
  frame : SameFrame before after
  precision : ∀ block, after.blockCount settings.occupancyPrecision block = 0 ∨
    2 ≤ after.blockCount settings.occupancyPrecision block
  resolution : ∀ block, after.blockCount settings.occupancyResolution block = 0 ∨
    4 ≤ after.blockCount settings.occupancyResolution block
  occupancy : ∀ block : ℕ × ℕ, block.1 < before.sizeU0 → block.2 < before.sizeV0 →
    after.occupancy[before.blockIndex block]? =
      some (decide (0 < after.blockCount settings.occupancyResolution block))
  depths : ∀ pixel, before.Inside pixel →
    ¬(before.blockCount settings.occupancyPrecision
        (blockOf settings.occupancyPrecision pixel) = 1 ∨
      before.leftCount settings (blockOf settings.occupancyResolution pixel) < 4) →
    ∀ layer, after.depthAt layer pixel = before.depthAt layer pixel

/-- There is nothing to remove from a patch. -/
structure NothingRemoved (settings : RefinementSettings) (patch : SegmentedPatch) : Prop where
  precision : ∀ block, patch.blockCount settings.occupancyPrecision block ≠ 1
  resolution : ∀ block, patch.blockCount settings.occupancyResolution block = 0 ∨
    4 ≤ patch.blockCount settings.occupancyResolution block

end SegmentedPatch

open SegmentedPatch

/-- The patches of a tile in a mode, with block sizes that divide each other. -/
structure RefinableTile where
  settings : RefinementSettings
  patches : List SegmentedPatch
  precision_gt : 1 < settings.occupancyPrecision
  resolution_pos : 0 < settings.occupancyResolution
  precision_dvd : settings.occupancyPrecision ∣ settings.occupancyResolution
  segmented : ∀ patch ∈ patches, patch.LeftBySegmenter settings

namespace SegmentedPatch

variable {settings : RefinementSettings} {before mid after patch : SegmentedPatch}

/-- The rule for a precision block, and that for a resolution block. -/
def removesSingle (count : ℕ) : Bool := count == 1

def removesFew (count : ℕ) : Bool := 0 < count && count < 4

section Precision

variable (hprecision : 0 < settings.occupancyPrecision) {k : ℕ} (hk : 0 < k)
  (hresolution : settings.occupancyResolution = k * settings.occupancyPrecision)

include hresolution

theorem blockOf_resolution (pixel : ℕ × ℕ) :
    blockOf settings.occupancyResolution pixel =
      blockOf k (blockOf settings.occupancyPrecision pixel) := by
  unfold blockOf
  rw [hresolution, Nat.mul_comm, ← Nat.div_div_eq_div_mul, ← Nat.div_div_eq_div_mul]

include hprecision hk

/-- The corners are those of the precision blocks in the blocks of the patch. -/
theorem mem_precisionCorners {corner : ℕ × ℕ} :
    corner ∈ patch.precisionCorners settings ↔ ∃ block : ℕ × ℕ,
      corner = (block.1 * settings.occupancyPrecision, block.2 * settings.occupancyPrecision) ∧
      (blockOf k block).1 < patch.sizeU0 ∧ (blockOf k block).2 < patch.sizeV0 := by
  have hsteps : (settings.occupancyResolution + settings.occupancyPrecision - 1) /
      settings.occupancyPrecision = k := by
    rw [hresolution]
    apply Nat.div_eq_of_lt_le
    · omega
    · rw [Nat.succ_mul]
      omega
  have hcorner : ∀ block step : ℕ, block * settings.occupancyResolution +
      step * settings.occupancyPrecision = (block * k + step) * settings.occupancyPrecision := by
    intro block step
    rw [hresolution, Nat.add_mul, Nat.mul_assoc]
  unfold precisionCorners
  simp only [hsteps, hcorner, List.mem_flatMap, List.mem_map, Prod.exists, mem_grid]
  constructor
  · intro h
    obtain ⟨u0, v0, hblock, u1, v1, hstep, rfl⟩ := h
    refine ⟨u0 * k + u1, v0 * k + v1, rfl, ?_, ?_⟩
    · rw [blockOf, Nat.mul_comm, Nat.mul_add_div hk, Nat.div_eq_of_lt hstep.1]
      exact hblock.1
    · rw [blockOf, Nat.mul_comm v0, Nat.mul_add_div hk, Nat.div_eq_of_lt hstep.2]
      exact hblock.2
  · intro h
    obtain ⟨u, v, rfl, hu, hv⟩ := h
    refine ⟨u / k, v / k, ⟨hu, hv⟩, u % k, v % k, ⟨Nat.mod_lt u hk, Nat.mod_lt v hk⟩, ?_⟩
    rw [Nat.div_add_mod', Nat.div_add_mod']

/-- The first rule visits each block that has a near depth. -/
theorem exists_precisionPass (h : patch.LeftBySegmenter settings)
    (hlayers : (∀ layer, patch.Allocated layer) ∨
      ∀ block, removesSingle (patch.blockCount settings.occupancyPrecision block) = false) :
    ∃ mid, (patch.precisionCorners settings).foldlM
        (refinePrecisionBlock settings.occupancyPrecision) patch = some mid ∧
      Cleared settings.occupancyPrecision removesSingle patch mid
        ((patch.precisionCorners settings).map (blockOf settings.occupancyPrecision)) ∧
      mid.occupancy = patch.occupancy := by
  apply Codec.exists_foldlM (P := fun visited mid =>
    Cleared settings.occupancyPrecision removesSingle patch mid
      (visited.map (blockOf settings.occupancyPrecision)) ∧ mid.occupancy = patch.occupancy) _
    ⟨Cleared.start _ _ patch, rfl⟩
  intro visited corner mid hvisited hmid
  obtain ⟨hcleared, hoccupancy⟩ := hmid
  have hcorner := hvisited.subset (List.mem_append_right visited List.mem_cons_self)
  obtain ⟨block, rfl, -⟩ := (mem_precisionCorners hprecision hk hresolution).mp hcorner
  have hblock : blockOf settings.occupancyPrecision
      (block.1 * settings.occupancyPrecision, block.2 * settings.occupancyPrecision) = block := by
    rw [blockOf, Nat.mul_div_cancel _ hprecision, Nat.mul_div_cancel _ hprecision]
  obtain ⟨after, hafter, hafterCleared, hafterOccupancy⟩ := hcleared.exists_step hprecision rfl
    block (hlayers.imp id fun h => h block)
  refine ⟨after, ?_, ?_, hafterOccupancy.trans hoccupancy⟩
  · unfold refinePrecisionBlock
    dsimp only
    rw [countDepths_block hprecision (h.near.of_sameFrame hcleared.frame), Option.bind_eq_bind,
      Option.bind_some, ← hafter]
    simp only [removesSingle, beq_iff_eq]
  · rw [List.map_append, List.map_singleton, hblock]
    exact hafterCleared

/-- A precision block with one near depth is visited. -/
theorem mem_of_removesSingle (h : patch.LeftBySegmenter settings)
    (block : ℕ × ℕ)
    (hone : removesSingle (patch.blockCount settings.occupancyPrecision block) = true) :
    block ∈ (patch.precisionCorners settings).map (blockOf settings.occupancyPrecision) := by
  have hpos : 0 < patch.blockCount settings.occupancyPrecision block := by
    rw [beq_iff_eq.mp hone]
    exact Nat.one_pos
  obtain ⟨pixel, hinside, rfl, hfinite⟩ := exists_of_blockCount_pos hprecision hpos
  have hlt := h.block_lt pixel hinside hfinite
  rw [blockOf_resolution hresolution] at hlt
  have hmem : _ ∈ patch.precisionCorners settings :=
    (mem_precisionCorners hprecision hk hresolution).mpr
      ⟨blockOf settings.occupancyPrecision pixel, rfl, hlt⟩
  refine List.mem_map.mpr ⟨_, hmem, ?_⟩
  rw [blockOf, Nat.mul_div_cancel _ hprecision, Nat.mul_div_cancel _ hprecision]

end Precision

/-- The blocks that have been visited are not occupied where the second rule finds few depths. -/
def OccupancyCleared (side : ℕ) (before after : SegmentedPatch) (visited : List (ℕ × ℕ)) : Prop :=
  ∀ block : ℕ × ℕ, block.1 < before.sizeU0 → block.2 < before.sizeV0 →
    after.occupancy[before.blockIndex block]? =
      if block ∈ visited ∧ before.blockCount side block < 4 then some false
      else before.occupancy[before.blockIndex block]?

theorem OccupancyCleared.keep {side : ℕ} {visited : List (ℕ × ℕ)} {block : ℕ × ℕ}
    (h : OccupancyCleared side before mid visited) (hmany : ¬before.blockCount side block < 4)
    (hoccupancy : after.occupancy = mid.occupancy) :
    OccupancyCleared side before after (visited ++ [block]) := by
  intro other hu hv
  rw [hoccupancy, h other hu hv]
  by_cases hsame : other = block
  · simp [hsame, hmany]
  · simp [hsame]

theorem OccupancyCleared.clear {side : ℕ} {visited : List (ℕ × ℕ)} {block : ℕ × ℕ}
    (h : OccupancyCleared side before mid visited) (hfew : before.blockCount side block < 4)
    (hu : block.1 < before.sizeU0) (hlt : before.blockIndex block < mid.occupancy.length)
    (hoccupancy : after.occupancy = mid.occupancy.set (before.blockIndex block) false) :
    OccupancyCleared side before after (visited ++ [block]) := by
  intro other hotherU hotherV
  rw [hoccupancy]
  by_cases hsame : other = block
  · rw [hsame, List.getElem?_set_self hlt, if_pos ⟨by simp, hfew⟩]
  · have hne : before.blockIndex block ≠ before.blockIndex other :=
      fun hindex => hsame (pixel_inj hu hotherU hindex).symm
    rw [List.getElem?_set_ne hne, h other hotherU hotherV]
    simp [hsame]

section Resolution

variable {side : ℕ} (hside : 0 < side) (hnear : patch.Allocated 0)
  (hlength : patch.occupancy.length = patch.sizeU0 * patch.sizeV0)

include hside hnear hlength

/-- The second rule at a block: the count decides on the occupancy, and on the depths. -/
theorem exists_refineResolutionBlock {visited : List (ℕ × ℕ)} {block : ℕ × ℕ}
    (hu : block.1 < patch.sizeU0) (hv : block.2 < patch.sizeV0)
    (hlayers : (∀ layer, patch.Allocated layer) ∨
      removesFew (patch.blockCount side block) = false)
    (hcleared : Cleared side removesFew patch mid visited)
    (hoccupied : OccupancyCleared side patch mid visited) :
    ∃ after, refineResolutionBlock side mid block = some after ∧
      Cleared side removesFew patch after (visited ++ [block]) ∧
      OccupancyCleared side patch after (visited ++ [block]) := by
  have hcount := hcleared.blockCount hside block
  have hindex : block.2 * mid.sizeU0 + block.1 = patch.blockIndex block := by
    rw [hcleared.frame.sizeU0, blockIndex]
  have hlt : patch.blockIndex block < mid.occupancy.length := by
    rw [hcleared.frame.length_occupancy, hlength]
    exact pixel_lt hu hv
  have hdepths := countDepths_block hside (hnear.of_sameFrame hcleared.frame) block
  unfold refineResolutionBlock
  dsimp only
  rw [hdepths, Option.bind_eq_bind, Option.bind_some]
  by_cases hfew : patch.blockCount side block < 4
  · let cleared : SegmentedPatch :=
      { mid with occupancy := mid.occupancy.set (patch.blockIndex block) false }
    have hclear : mid.clearOccupancy block = some cleared := by
      unfold clearOccupancy
      rw [hindex, show Cells.setAt mid.occupancy _ false = some _ from if_pos hlt]
      rfl
    have hclearedFrame : Cleared side removesFew patch cleared visited := by
      refine ⟨hcleared.frame.trans ⟨rfl, rfl, rfl, rfl, fun _ => ?_, List.length_set⟩,
        fun layer pixel hpixel => ?_⟩
      · match ‹Fin 2› with
        | 0 => rfl
        | 1 => rfl
      · rw [← hcleared.depthAt layer pixel hpixel]
        match layer with
        | 0 => rfl
        | 1 => rfl
    obtain ⟨after, hafter, hafterCleared, hafterOccupancy⟩ :=
      hclearedFrame.exists_step hside rfl block hlayers
    refine ⟨after, ?_, hafterCleared, hoccupied.clear hfew hu hlt hafterOccupancy⟩
    have hsame : cleared.blockCount side block = mid.blockCount side block := rfl
    have hpixels : ∀ corner, cleared.blockPixels side corner = mid.blockPixels side corner :=
      fun _ => rfl
    rw [hsame, hpixels] at hafter
    by_cases hzero : mid.blockCount side block = 0
    · rw [hzero] at hafter
      rw [if_pos hzero, hclear]
      exact hafter
    · have hlt4 : mid.blockCount side block < 4 := by
        rw [hcount]
        split_ifs <;> omega
      have hremoves : removesFew (mid.blockCount side block) = true := by
        simp [removesFew, hlt4, Nat.pos_of_ne_zero hzero]
      rw [if_pos hremoves] at hafter
      rw [if_neg hzero, if_pos hlt4, hclear]
      exact hafter
  · have hnot : removesFew (patch.blockCount side block) = false := by
      simp [removesFew, hfew]
    rw [if_neg fun h => absurd h.2 (by simp [hnot])] at hcount
    obtain ⟨after, hafter, hafterCleared, hafterOccupancy⟩ :=
      hcleared.exists_step hside rfl block hlayers
    refine ⟨after, ?_, hafterCleared, hoccupied.keep hfew hafterOccupancy⟩
    rw [hcount, hnot] at hafter
    rw [hcount, if_neg (by omega), if_neg hfew]
    exact hafter

theorem exists_resolutionPass
    (hlayers : (∀ layer, patch.Allocated layer) ∨
      ∀ block, removesFew (patch.blockCount side block) = false) :
    ∃ after, (grid patch.sizeU0 patch.sizeV0).foldlM (refineResolutionBlock side) patch =
        some after ∧
      Cleared side removesFew patch after (grid patch.sizeU0 patch.sizeV0) ∧
      OccupancyCleared side patch after (grid patch.sizeU0 patch.sizeV0) := by
  apply Codec.exists_foldlM (P := fun visited mid =>
    Cleared side removesFew patch mid visited ∧ OccupancyCleared side patch mid visited) _
    ⟨Cleared.start _ _ patch, fun block _ _ => by simp⟩
  intro visited block mid hvisited hmid
  have hmem := hvisited.subset (List.mem_append_right visited List.mem_cons_self)
  obtain ⟨hu, hv⟩ := mem_grid.mp hmem
  exact exists_refineResolutionBlock hside hnear hlength hu hv
    (hlayers.imp id fun h => h block) hmid.1 hmid.2

end Resolution

/-- A resolution block with few near depths is visited, as it has one. -/
theorem mem_of_removesFew (hresolution : 0 < settings.occupancyResolution)
    (h : patch.LeftBySegmenter settings) (hframe : SameFrame patch mid)
    (hfinite : ∀ pixel, patch.Inside pixel → mid.isFinite pixel = true →
      patch.isFinite pixel = true) (block : ℕ × ℕ)
    (hfew : removesFew (mid.blockCount settings.occupancyResolution block) = true) :
    block ∈ grid mid.sizeU0 mid.sizeV0 := by
  have hpos : 0 < mid.blockCount settings.occupancyResolution block := by
    simp only [removesFew, Bool.and_eq_true, decide_eq_true_eq] at hfew
    exact hfew.1
  obtain ⟨pixel, hinside, rfl, hpixel⟩ := exists_of_blockCount_pos hresolution hpos
  rw [hframe.inside_iff] at hinside
  rw [hframe.sizeU0, hframe.sizeV0]
  exact mem_grid.mpr (h.block_lt pixel hinside (hfinite pixel hinside hpixel))

/-- The step of the second rule on a patch without a far layer. -/
theorem refineResolutionBlock_of_eq_some {side : ℕ} (hside : 0 < side) (hnear : patch.Allocated 0)
    (hfar : patch.depth1 = []) {occupancy : List Bool} {block : ℕ × ℕ}
    (hstep : refineResolutionBlock side { patch with occupancy } block = some after) :
    (∃ occupancy', after = { patch with occupancy := occupancy' }) ∧
      removesFew (patch.blockCount side block) = false := by
  have hallocated : Allocated { patch with occupancy } 0 := hnear
  have hcount := countDepths_block hside hallocated block
  have hclear : ∀ cleared, clearOccupancy { patch with occupancy } block = some cleared →
      ∃ occupancy', cleared = { patch with occupancy := occupancy' } := by
    intro cleared hcleared
    obtain ⟨occupancy', -, hcleared⟩ := Option.bind_eq_some_iff.mp hcleared
    exact ⟨occupancy', (Option.some.inj hcleared).symm⟩
  unfold refineResolutionBlock at hstep
  dsimp only at hstep
  rw [hcount, Option.bind_eq_bind, Option.bind_some] at hstep
  have hsame : blockCount { patch with occupancy } side block = patch.blockCount side block := rfl
  rw [hsame] at hstep
  split_ifs at hstep with hzero hfew
  · refine ⟨hclear after hstep, ?_⟩
    rw [hzero]
    rfl
  · obtain ⟨cleared, hcleared, hremove⟩ := Option.bind_eq_some_iff.mp hstep
    obtain ⟨occupancy', rfl⟩ := hclear cleared hcleared
    have hpixels : blockPixels { patch with occupancy } side (block.1 * side, block.2 * side) ≠
        [] := by
      intro hnil
      have hnone : patch.blockCount side block = 0 := by
        rw [← hsame, blockCount, hnil]
        rfl
      exact hzero hnone
    have hfar' : ({ patch with occupancy := occupancy' } : SegmentedPatch).depth1 = [] := hfar
    rw [removeAll_eq_none hfar' hpixels] at hremove
    cases hremove
  · refine ⟨⟨occupancy, (Option.some.inj hstep).symm⟩, ?_⟩
    simp [removesFew, hfew]

/-! The two passes, one after the other. -/

section Passes

variable {first second : List (ℕ × ℕ)}
  (hsingle : Cleared settings.occupancyPrecision removesSingle patch mid first)
  (hsingleAll : ∀ block,
    removesSingle (patch.blockCount settings.occupancyPrecision block) = true → block ∈ first)

include hsingle hsingleAll

theorem blockCount_firstPass (hresolution : 0 < settings.occupancyResolution) (block : ℕ × ℕ) :
    mid.blockCount settings.occupancyResolution block = patch.leftCount settings block := by
  unfold blockCount leftCount
  rw [hsingle.frame.blockPixels]
  apply List.countP_congr
  intro pixel hpixel
  rw [hsingle.isFinite_all hsingleAll ((mem_blockPixels hresolution).mp hpixel).1]
  rfl

/-- The first pass leaves something to the second one only where the segmenter has. -/
theorem layers_firstPass (hresolution : 0 < settings.occupancyResolution)
    (hlayers : (∀ layer, patch.Allocated layer) ∨ patch.NothingRemoved settings) :
    (∀ layer, mid.Allocated layer) ∨
      ∀ block, removesFew (mid.blockCount settings.occupancyResolution block) = false := by
  apply hlayers.imp
  · exact fun hall layer => (hall layer).of_sameFrame hsingle.frame
  · intro hnone block
    have hsame : mid.blockCount settings.occupancyResolution block =
        patch.blockCount settings.occupancyResolution block := by
      apply blockCount_congr hsingle.frame hresolution
      intro pixel hpixel _
      rw [hsingle.isFinite_all hsingleAll hpixel]
      simp [removesSingle, hnone.precision]
    rw [hsame]
    rcases hnone.resolution block with hzero | hmany
    · simp [removesFew, hzero]
    · simp [removesFew, hmany]

variable (hfew : Cleared settings.occupancyResolution removesFew mid after second)
  (hfewAll : ∀ block,
    removesFew (mid.blockCount settings.occupancyResolution block) = true → block ∈ second)

include hfew hfewAll

/-- The second pass takes whole precision blocks, and so it does not break what the first one has
established. -/
theorem precision_secondPass (hprecision : 0 < settings.occupancyPrecision) {k : ℕ}
    (hk : settings.occupancyResolution = k * settings.occupancyPrecision) (block : ℕ × ℕ) :
    after.blockCount settings.occupancyPrecision block = 0 ∨
      2 ≤ after.blockCount settings.occupancyPrecision block := by
  have hblock : ∀ pixel, blockOf settings.occupancyPrecision pixel = block →
      blockOf settings.occupancyResolution pixel = blockOf k block := by
    intro pixel hpixel
    rw [blockOf_resolution hk, hpixel]
  by_cases hremoved : removesFew (mid.blockCount settings.occupancyResolution
      (blockOf k block)) = true
  · left
    apply blockCount_eq_zero hfew.frame hprecision
    intro pixel hpixel hpixelBlock
    rw [hfew.isFinite_all hfewAll hpixel, hblock pixel hpixelBlock, hremoved]
    exact Bool.and_false _
  · have hsame : after.blockCount settings.occupancyPrecision block =
        mid.blockCount settings.occupancyPrecision block := by
      apply blockCount_congr hfew.frame hprecision
      intro pixel hpixel hpixelBlock
      rw [hfew.isFinite_all hfewAll hpixel, hblock pixel hpixelBlock]
      simp [hremoved]
    rw [hsame, hsingle.blockCount_all hsingleAll hprecision]
    simp only [removesSingle, beq_iff_eq]
    split_ifs <;> omega

/-- The occupancy of a block tells whether it has points left. -/
theorem occupancy_secondPass (hresolution : 0 < settings.occupancyResolution)
    (h : patch.LeftBySegmenter settings) (hmid : mid.occupancy = patch.occupancy)
    (hoccupied : OccupancyCleared settings.occupancyResolution mid after second) {block : ℕ × ℕ}
    (hu : block.1 < patch.sizeU0) (hv : block.2 < patch.sizeV0) (hmem : block ∈ second) :
    after.occupancy[patch.blockIndex block]? =
      some (decide (0 < after.blockCount settings.occupancyResolution block)) := by
  have hindex : mid.blockIndex block = patch.blockIndex block := by
    rw [blockIndex, blockIndex, hsingle.frame.sizeU0]
  have hbit := hoccupied block (by rw [hsingle.frame.sizeU0]; exact hu)
    (by rw [hsingle.frame.sizeV0]; exact hv)
  rw [hindex] at hbit
  rw [hbit, hfew.blockCount_all hfewAll hresolution]
  simp only [hmem, true_and]
  by_cases hcount : mid.blockCount settings.occupancyResolution block < 4
  · rw [if_pos hcount]
    simp only [removesFew, Bool.and_eq_true, decide_eq_true_eq]
    split_ifs with hpos
    · rfl
    · have hzero : mid.blockCount settings.occupancyResolution block = 0 := by omega
      rw [hzero]
      rfl
  · have hpos : 0 < mid.blockCount settings.occupancyResolution block := by omega
    obtain ⟨pixel, hinside, hpixelBlock, hfinite⟩ := exists_of_blockCount_pos hresolution hpos
    rw [hsingle.frame.inside_iff] at hinside
    rw [hsingle.isFinite_all hsingleAll hinside, Bool.and_eq_true] at hfinite
    have hset := h.occupied pixel hinside hfinite.1
    rw [hpixelBlock] at hset
    rw [if_neg hcount, hmid, hset]
    simp only [removesFew, Bool.and_eq_true, decide_eq_true_eq]
    rw [if_neg (fun hboth => hcount hboth.2), decide_eq_true hpos]

end Passes

section Refine

variable (hprecision : 1 < settings.occupancyPrecision)
  (hresolution : 0 < settings.occupancyResolution)
  (hdvd : settings.occupancyPrecision ∣ settings.occupancyResolution)
  (h : patch.LeftBySegmenter settings)

include hprecision hresolution hdvd h

/-- Both rules hold of what the two passes leave. -/
theorem exists_refine (hlayers : (∀ layer, patch.Allocated layer) ∨ patch.NothingRemoved settings) :
    ∃ after, patch.refine settings = some after ∧ Refined settings patch after := by
  obtain ⟨k, hk⟩ := hdvd
  rw [Nat.mul_comm] at hk
  have hprecisionPos : 0 < settings.occupancyPrecision := by omega
  have hkPos : 0 < k := Nat.pos_of_ne_zero fun hzero => by
    rw [hzero, Nat.zero_mul] at hk
    omega
  obtain ⟨mid, hmid, hsingle, hmidOccupancy⟩ := exists_precisionPass hprecisionPos hkPos hk h
    (hlayers.imp id fun hnone block => by simp [removesSingle, hnone.precision block])
  have hsingleAll := mem_of_removesSingle hprecisionPos hkPos hk h
  have hmidNear := h.near.of_sameFrame hsingle.frame
  have hmidLength : mid.occupancy.length = mid.sizeU0 * mid.sizeV0 := by
    rw [hmidOccupancy, h.length_occupancy, hsingle.frame.sizeU0, hsingle.frame.sizeV0]
  obtain ⟨after, hafter, hfew, hoccupied⟩ := exists_resolutionPass hresolution hmidNear hmidLength
    (layers_firstPass hsingle hsingleAll hresolution hlayers)
  have hfewAll := mem_of_removesFew hresolution h hsingle.frame fun pixel hpixel hfinite => by
    rw [hsingle.isFinite_all hsingleAll hpixel, Bool.and_eq_true] at hfinite
    exact hfinite.1
  refine ⟨after, ?_, ?_⟩
  · unfold refine
    rw [if_pos hprecision, hmid, Option.bind_eq_bind, Option.bind_some]
    exact hafter
  · constructor
    · exact hsingle.frame.trans hfew.frame
    · exact precision_secondPass hsingle hsingleAll hfew hfewAll hprecisionPos hk
    · intro block
      rw [hfew.blockCount_all hfewAll hresolution]
      simp only [removesFew, Bool.and_eq_true, decide_eq_true_eq]
      split_ifs <;> omega
    · intro block hu hv
      apply occupancy_secondPass hsingle hsingleAll hfew hfewAll hresolution h hmidOccupancy
        hoccupied hu hv
      rw [hsingle.frame.sizeU0, hsingle.frame.sizeV0]
      exact mem_grid.mpr ⟨hu, hv⟩
    · intro pixel hpixel hkept layer
      rw [not_or, ← blockCount_firstPass hsingle hsingleAll hresolution] at hkept
      rw [hfew.depthAt_all hfewAll layer ((hsingle.frame.inside_iff pixel).mpr hpixel),
        hsingle.depthAt_all hsingleAll layer hpixel]
      rw [if_neg (by simp [removesFew, hkept.2]), if_neg (by simp [removesSingle, hkept.1])]

omit hdvd in
/-- Without a far layer, a refinement that has an outcome has removed nothing. -/
theorem nothingRemoved_of_refine {k : ℕ} (hkPos : 0 < k)
    (hk : settings.occupancyResolution = k * settings.occupancyPrecision)
    (hfar : patch.depth1 = []) (hrun : patch.refine settings = some after) :
    patch.NothingRemoved settings := by
  have hprecisionPos : 0 < settings.occupancyPrecision := by omega
  unfold refine at hrun
  rw [if_pos hprecision] at hrun
  obtain ⟨mid, hmid, hresolutionRun⟩ := Option.bind_eq_some_iff.mp hrun
  have hnonempty : ∀ {side : ℕ} {corner : ℕ × ℕ},
      0 < (patch.blockPixels side corner).countP patch.isFinite →
        patch.blockPixels side corner ≠ [] := by
    intro side corner hpos hnil
    rw [hnil] at hpos
    exact Nat.lt_irrefl 0 hpos
  have hsingle : mid = patch ∧ ∀ corner ∈ patch.precisionCorners settings,
      patch.blockCount settings.occupancyPrecision
        (blockOf settings.occupancyPrecision corner) ≠ 1 := by
    apply Codec.inv_of_foldlM (P := fun visited mid => mid = patch ∧ ∀ corner ∈ visited,
      patch.blockCount settings.occupancyPrecision
        (blockOf settings.occupancyPrecision corner) ≠ 1) hmid ⟨rfl, by simp⟩
    intro visited corner before next hcorner hbefore hstep
    obtain ⟨rfl, hvisited⟩ := hbefore
    obtain ⟨block, rfl, -⟩ := (mem_precisionCorners hprecisionPos hkPos hk).mp hcorner
    have hblock : blockOf settings.occupancyPrecision
        (block.1 * settings.occupancyPrecision, block.2 * settings.occupancyPrecision) = block := by
      rw [blockOf, Nat.mul_div_cancel _ hprecisionPos, Nat.mul_div_cancel _ hprecisionPos]
    unfold refinePrecisionBlock at hstep
    dsimp only at hstep
    rw [countDepths_block hprecisionPos h.near, Option.bind_eq_bind, Option.bind_some] at hstep
    split_ifs at hstep with hone
    · rw [removeAll_eq_none hfar (hnonempty (by
        rw [← blockCount, hone]
        exact Nat.one_pos))] at hstep
      cases hstep
    · refine ⟨(Option.some.inj hstep).symm, ?_⟩
      intro other hother
      rcases List.mem_append.mp hother with hother | hother
      · exact hvisited other hother
      · rw [List.mem_singleton.mp hother, hblock]
        exact hone
  obtain ⟨rfl, hsingle⟩ := hsingle
  have hfew : ∀ block ∈ grid mid.sizeU0 mid.sizeV0,
      removesFew (mid.blockCount settings.occupancyResolution block) = false := by
    have hinv : (∃ occupancy, after = { mid with occupancy }) ∧
        ∀ block ∈ grid mid.sizeU0 mid.sizeV0,
          removesFew (mid.blockCount settings.occupancyResolution block) = false := by
      apply Codec.inv_of_foldlM (P := fun visited next =>
        (∃ occupancy, next = { mid with occupancy }) ∧ ∀ block ∈ visited,
          removesFew (mid.blockCount settings.occupancyResolution block) = false) hresolutionRun
        ⟨⟨mid.occupancy, rfl⟩, by simp⟩
      intro visited block before next _ hbefore hstep
      obtain ⟨⟨occupancy, rfl⟩, hvisited⟩ := hbefore
      obtain ⟨hnext, hblock⟩ := refineResolutionBlock_of_eq_some hresolution h.near hfar hstep
      refine ⟨hnext, ?_⟩
      intro other hother
      rcases List.mem_append.mp hother with hother | hother
      · exact hvisited other hother
      · rw [List.mem_singleton.mp hother]
        exact hblock
    exact hinv.2
  refine ⟨?_, ?_⟩
  · intro block hone
    have hmem := mem_of_removesSingle hprecisionPos hkPos hk h block (by simp [removesSingle, hone])
    obtain ⟨corner, hcorner, rfl⟩ := List.mem_map.mp hmem
    exact hsingle corner hcorner hone
  · intro block
    by_contra hcount
    have hremoves : removesFew (mid.blockCount settings.occupancyResolution block) = true := by
      simp only [removesFew, Bool.and_eq_true, decide_eq_true_eq]
      omega
    have hmem := mem_of_removesFew hresolution h (SameFrame.refl mid) (fun _ _ => id) block hremoves
    rw [hfew block hmem] at hremoves
    exact Bool.false_ne_true hremoves

end Refine

/-! What has been refined has nothing left to refine. -/

section Again

variable (hleft : before.LeftBySegmenter settings) (h : Refined settings before after)

include hleft h

theorem Refined.refinePrecisionBlock_eq (hprecision : 0 < settings.occupancyPrecision)
    (block : ℕ × ℕ) :
    refinePrecisionBlock settings.occupancyPrecision after
      (block.1 * settings.occupancyPrecision, block.2 * settings.occupancyPrecision) =
        some after := by
  unfold refinePrecisionBlock
  dsimp only
  rw [countDepths_block hprecision (hleft.near.of_sameFrame h.frame), Option.bind_eq_bind,
    Option.bind_some, if_neg]
  rcases h.precision block with hzero | hmany
  · rw [hzero]
    exact Nat.zero_ne_one
  · omega

theorem Refined.refineResolutionBlock_eq (hresolution : 0 < settings.occupancyResolution)
    {block : ℕ × ℕ} (hu : block.1 < before.sizeU0) (hv : block.2 < before.sizeV0) :
    refineResolutionBlock settings.occupancyResolution after block = some after := by
  unfold refineResolutionBlock
  dsimp only
  rw [countDepths_block hresolution (hleft.near.of_sameFrame h.frame), Option.bind_eq_bind,
    Option.bind_some]
  rcases h.resolution block with hzero | hmany
  · have hbit := h.occupancy block hu hv
    rw [hzero, decide_eq_false (Nat.lt_irrefl 0)] at hbit
    obtain ⟨hlt, hfalse⟩ := List.getElem?_eq_some_iff.mp hbit
    have hindex : block.2 * after.sizeU0 + block.1 = before.blockIndex block := by
      rw [h.frame.sizeU0, blockIndex]
    have hsame : after.occupancy.set (before.blockIndex block) false = after.occupancy := by
      conv_lhs => rw [← hfalse]
      exact List.set_getElem_self hlt
    rw [if_pos hzero]
    unfold clearOccupancy Cells.setAt
    rw [hindex, if_pos hlt, hsame]
    rfl
  · rw [if_neg (by omega), if_neg (by omega)]

theorem Refined.refine_eq (hprecision : 1 < settings.occupancyPrecision)
    (hresolution : 0 < settings.occupancyResolution)
    (hdvd : settings.occupancyPrecision ∣ settings.occupancyResolution) :
    after.refine settings = some after := by
  obtain ⟨k, hk⟩ := hdvd
  rw [Nat.mul_comm] at hk
  have hprecisionPos : 0 < settings.occupancyPrecision := by omega
  have hkPos : 0 < k := Nat.pos_of_ne_zero fun hzero => by
    rw [hzero, Nat.zero_mul] at hk
    omega
  obtain ⟨mid, hmid, hmidEq⟩ : ∃ mid, (after.precisionCorners settings).foldlM
      (refinePrecisionBlock settings.occupancyPrecision) after = some mid ∧ mid = after := by
    apply Codec.exists_foldlM (P := fun _ mid => mid = after) _ rfl
    intro visited corner mid hvisited hmid
    have hcorner := hvisited.subset (List.mem_append_right visited List.mem_cons_self)
    obtain ⟨block, rfl, -⟩ := (mem_precisionCorners hprecisionPos hkPos hk).mp hcorner
    rw [hmid]
    exact ⟨after, h.refinePrecisionBlock_eq hleft hprecisionPos block, rfl⟩
  obtain ⟨last, hlast, hlastEq⟩ : ∃ last, (grid after.sizeU0 after.sizeV0).foldlM
      (refineResolutionBlock settings.occupancyResolution) after = some last ∧ last = after := by
    apply Codec.exists_foldlM (P := fun _ last => last = after) _ rfl
    intro visited block last hvisited hlast
    have hmem := hvisited.subset (List.mem_append_right visited List.mem_cons_self)
    rw [h.frame.sizeU0, h.frame.sizeV0] at hmem
    obtain ⟨hu, hv⟩ := mem_grid.mp hmem
    rw [hlast]
    exact ⟨after, h.refineResolutionBlock_eq hleft hresolution hu hv, rfl⟩
  unfold refine
  rw [if_pos hprecision, hmid, hmidEq, Option.bind_eq_bind, Option.bind_some]
  exact hlast.trans (congrArg some hlastEq)

end Again

end SegmentedPatch

namespace RefinableTile

variable (tile : RefinableTile)

theorem exists_blocks : ∃ k, 0 < k ∧
    tile.settings.occupancyResolution = k * tile.settings.occupancyPrecision := by
  obtain ⟨k, hk⟩ := tile.precision_dvd
  rw [Nat.mul_comm] at hk
  refine ⟨k, Nat.pos_of_ne_zero fun hzero => ?_, hk⟩
  have hpos := tile.resolution_pos
  rw [hk, hzero, Nat.zero_mul] at hpos
  exact Nat.lt_irrefl 0 hpos

/-- The refinement of a tile ends without an access out of bounds, with all its promises. -/
def Refines : Prop :=
  ∃ after, PCCEncoder.refineOccupancyMap tile.settings tile.patches = some after ∧
    List.Forall₂ (Refined tile.settings) tile.patches after

/-- What is to remove from the patches of a tile can be removed. -/
def Clearable : Prop :=
  tile.settings.EOMSingleLayerMode = true →
    ∀ patch ∈ tile.patches, patch.NothingRemoved tile.settings

variable {tile}

theorem clearable_of_run {after : List SegmentedPatch}
    (hrun : PCCEncoder.refineOccupancyMap tile.settings tile.patches = some after) :
    tile.Clearable := by
  obtain ⟨k, hkPos, hk⟩ := tile.exists_blocks
  intro hmode patch hpatch
  obtain ⟨refined, hrefined⟩ := Codec.exists_of_mapM_eq_some hrun hpatch
  have hleft := tile.segmented patch hpatch
  have hfar : patch.depth1 = [] := by
    have hlength := hleft.far
    rw [if_pos hmode] at hlength
    exact List.length_eq_zero_iff.mp hlength
  exact nothingRemoved_of_refine tile.precision_gt tile.resolution_pos hleft hkPos hk hfar hrefined

theorem Clearable.exists_refined (h : tile.Clearable) :
    ∀ patch ∈ tile.patches, ∃ after, patch.refine tile.settings = some after ∧
      Refined tile.settings patch after := by
  intro patch hpatch
  have hleft := tile.segmented patch hpatch
  apply exists_refine tile.precision_gt tile.resolution_pos tile.precision_dvd hleft
  by_cases hmode : tile.settings.EOMSingleLayerMode = true
  · exact Or.inr (h hmode patch hpatch)
  · left
    intro layer
    match layer with
    | 0 => exact hleft.near
    | 1 =>
      have hlength := hleft.far
      rw [if_neg hmode] at hlength
      exact hlength

variable (tile)

/-- One point, in the mode with one map and EOM codes. -/
def onePoint : RefinableTile where
  settings :=
    { occupancyResolution := 2, occupancyPrecision := 2, mapCountMinus1 := 0,
      enhancedOccupancyMapCode := true }
  patches :=
    [{ projectionMode := 0, isAdditionalProjectionPlane := false, u1 := 0, v1 := 0, d1 := 0,
       sizeU := 1, sizeV := 1, sizeU0 := 1, sizeV0 := 1, depth0 := [0], depth0PccIdx := [0],
       depthEOM := [0], occupancy := [true] }]
  precision_gt := by decide
  resolution_pos := by decide
  precision_dvd := by decide
  segmented := by
    intro patch hpatch
    rw [List.mem_singleton.mp hpatch]
    have hpixel : ∀ pixel : ℕ × ℕ, pixel.1 < 1 ∧ pixel.2 < 1 → pixel = (0, 0) := by
      intro pixel h
      exact Prod.ext (Nat.lt_one_iff.mp h.1) (Nat.lt_one_iff.mp h.2)
    refine ⟨rfl, rfl, rfl, ?_, ?_⟩
    · intro pixel hinside _
      rw [hpixel pixel hinside]
      decide
    · intro pixel hinside _
      rw [hpixel pixel hinside]
      rfl

/-- A tile that has been refined is left as it is when it is refined once more. -/
theorem refineOccupancyMap_refined {after : List SegmentedPatch}
    (hrun : PCCEncoder.refineOccupancyMap tile.settings tile.patches = some after) :
    PCCEncoder.refineOccupancyMap tile.settings after = some after := by
  have hfixed : ∀ patch ∈ after, patch.refine tile.settings = some (id patch) := by
    intro patch hpatch
    obtain ⟨before, hbefore, hstep⟩ := Codec.exists_mem_of_mapM_eq_some hrun hpatch
    obtain ⟨refined, hrefined, hpair⟩ := (clearable_of_run hrun).exists_refined before hbefore
    obtain rfl := Option.some.inj (hrefined.symm.trans hstep)
    exact hpair.refine_eq (tile.segmented before hbefore) tile.precision_gt tile.resolution_pos
      tile.precision_dvd
  unfold PCCEncoder.refineOccupancyMap
  rw [Codec.mapM_eq_some_map hfixed, List.map_id]

/-- Two blocks of four pixels a side: in the first one a point stands alone in its precision block,
and the second one, which the border of the patch cuts, has two points. -/
def thinPatch : SegmentedPatch :=
  let far := infiniteDepth
  { projectionMode := 0, isAdditionalProjectionPlane := false, u1 := 0, v1 := 0, d1 := 0,
    sizeU := 6, sizeV := 2, sizeU0 := 2, sizeV0 := 1,
    depth0 := [0, far, 5, 5, 7, 7, far, far, 6, 6, far, far],
    depth1 := [1, far, 6, 7, 8, 8, far, far, 6, 8, far, far],
    depth0PccIdx := [], depthEOM := [], occupancy := [true, true] }

def thinTile : RefinableTile where
  settings :=
    { occupancyResolution := 4, occupancyPrecision := 2, mapCountMinus1 := 1,
      enhancedOccupancyMapCode := false }
  patches := [thinPatch]
  precision_gt := by decide
  resolution_pos := by decide
  precision_dvd := by decide
  segmented := by
    intro patch hpatch
    rw [List.mem_singleton.mp hpatch]
    have hblock : ∀ pixel ∈ grid 6 2, (blockOf 4 pixel).1 < 2 ∧ (blockOf 4 pixel).2 < 1 := by
      decide
    have hoccupied : ∀ pixel ∈ grid 6 2,
        thinPatch.occupancy[thinPatch.blockIndex (blockOf 4 pixel)]? = some true := by
      decide
    exact ⟨rfl, rfl, rfl, fun pixel hinside _ => hblock pixel (mem_grid.mpr hinside),
      fun pixel hinside _ => hoccupied pixel (mem_grid.mpr hinside)⟩

theorem refineOccupancyMap_refined_thinTile : ∃ after,
    PCCEncoder.refineOccupancyMap thinTile.settings thinTile.patches = some after ∧
      PCCEncoder.refineOccupancyMap thinTile.settings after = some after := by
  have hclearable : thinTile.Clearable := fun hmode => absurd hmode (by decide)
  obtain ⟨after, hrun, -⟩ := Codec.exists_mapM_forall₂ hclearable.exists_refined
  exact ⟨after, hrun, refineOccupancyMap_refined thinTile hrun⟩

end RefinableTile

end V3C

import V3C.Segmenter.OccupancyRefinement

/-! What a rule of the occupancy refinement does: the blocks whose count it rejects lose both
layers, all others keep them. -/
namespace V3C.SegmentedPatch

variable {patch before mid after : SegmentedPatch} {side : ℕ} {block : ℕ × ℕ}

/-- A layer has an entry for each pixel. -/
def Allocated (patch : SegmentedPatch) (layer : Fin 2) : Prop :=
  (patch.layer layer).length = patch.sizeU * patch.sizeV

theorem Allocated.index_lt {layer : Fin 2} (h : patch.Allocated layer) {pixel : ℕ × ℕ}
    (hpixel : patch.Inside pixel) :
    pixel.2 * patch.sizeU + pixel.1 < (patch.layer layer).length := by
  rw [h]
  exact pixel_lt hpixel.1 hpixel.2

theorem Allocated.exists_depth {layer : Fin 2} (h : patch.Allocated layer) {pixel : ℕ × ℕ}
    (hpixel : patch.Inside pixel) : ∃ depth, patch.depthAt layer pixel = some depth :=
  ⟨_, List.getElem?_eq_getElem (h.index_lt hpixel)⟩

theorem Allocated.of_sameFrame {layer : Fin 2} (h : before.Allocated layer)
    (hframe : SameFrame before after) : after.Allocated layer := by
  unfold Allocated
  rw [hframe.length_layer, hframe.sizeU, hframe.sizeV]
  exact h

theorem countDepths_eq (h : patch.Allocated 0) {pixels : List (ℕ × ℕ)}
    (hpixels : ∀ pixel ∈ pixels, patch.Inside pixel) :
    patch.countDepths pixels = some (pixels.countP patch.isFinite) := by
  have hdepths : pixels.mapM (fun pixel => patch.depth0[pixel.2 * patch.sizeU + pixel.1]?) =
      some (pixels.map fun pixel => (patch.depthAt 0 pixel).getD infiniteDepth) := by
    apply Codec.mapM_eq_some_map
    intro pixel hpixel
    obtain ⟨depth, hdepth⟩ := h.exists_depth (hpixels pixel hpixel)
    rw [hdepth]
    exact hdepth
  unfold countDepths
  rw [hdepths, Option.bind_eq_bind, Option.bind_some, List.countP_map]
  congr 1
  apply List.countP_congr
  intro pixel hpixel
  obtain ⟨depth, hdepth⟩ := h.exists_depth (hpixels pixel hpixel)
  rw [Function.comp_apply, isFinite, hdepth]
  rfl

theorem countDepths_block (hside : 0 < side) (h : patch.Allocated 0) (block : ℕ × ℕ) :
    patch.countDepths (patch.blockPixels side (block.1 * side, block.2 * side)) =
      some (patch.blockCount side block) :=
  countDepths_eq h fun _ hpixel => ((mem_blockPixels hside).mp hpixel).1

section Counts

variable (hframe : SameFrame before after) (hside : 0 < side)

include hframe hside

theorem blockCount_congr
    (h : ∀ pixel, before.Inside pixel → blockOf side pixel = block →
      after.isFinite pixel = before.isFinite pixel) :
    after.blockCount side block = before.blockCount side block := by
  unfold blockCount
  rw [hframe.blockPixels]
  apply List.countP_congr
  intro pixel hpixel
  obtain ⟨hinside, hblock⟩ := (mem_blockPixels hside).mp hpixel
  rw [h pixel hinside hblock]

theorem blockCount_eq_zero
    (h : ∀ pixel, before.Inside pixel → blockOf side pixel = block →
      after.isFinite pixel = false) : after.blockCount side block = 0 := by
  unfold blockCount
  rw [hframe.blockPixels, List.countP_eq_zero]
  intro pixel hpixel
  obtain ⟨hinside, hblock⟩ := (mem_blockPixels hside).mp hpixel
  rw [h pixel hinside hblock]
  exact Bool.false_ne_true

end Counts

/-- A block that is counted has a pixel with a finite near depth. -/
theorem exists_of_blockCount_pos (hside : 0 < side) (h : 0 < patch.blockCount side block) :
    ∃ pixel, patch.Inside pixel ∧ blockOf side pixel = block ∧ patch.isFinite pixel = true := by
  obtain ⟨pixel, hpixel, hfinite⟩ := List.countP_pos_iff.mp h
  obtain ⟨hinside, hblock⟩ := (mem_blockPixels hside).mp hpixel
  exact ⟨pixel, hinside, hblock, hfinite⟩

/-- A pixel loses its depths in both layers, and no other pixel does. -/
theorem exists_removeDepths (hlayers : ∀ layer, patch.Allocated layer) {pixel : ℕ × ℕ} (hpixel : patch.Inside pixel) :
    ∃ after, patch.removeDepths pixel = some after ∧ SameFrame patch after ∧
      after.occupancy = patch.occupancy ∧
      ∀ layer other, patch.Inside other → after.depthAt layer other =
        if other = pixel then some infiniteDepth else patch.depthAt layer other := by
  have hlt := fun layer => (hlayers layer).index_lt hpixel
  let p := pixel.2 * patch.sizeU + pixel.1
  let after : SegmentedPatch := { patch with
    depth0 := patch.depth0.set p infiniteDepth
    depth1 := patch.depth1.set p infiniteDepth }
  have hlayer : ∀ layer, after.layer layer = (patch.layer layer).set p infiniteDepth := by
    intro layer
    match layer with
    | 0 => rfl
    | 1 => rfl
  refine ⟨after, ?_, ⟨rfl, rfl, rfl, rfl, ?_, rfl⟩, rfl, ?_⟩
  · have hset0 : Cells.setAt patch.depth0 p infiniteDepth = some after.depth0 := if_pos (hlt 0)
    have hset1 : Cells.setAt patch.depth1 p infiniteDepth = some after.depth1 := if_pos (hlt 1)
    unfold removeDepths
    dsimp only
    rw [hset0, Option.bind_eq_bind, Option.bind_some, hset1]
    rfl
  · intro layer
    rw [hlayer, List.length_set]
  · intro layer other hother
    unfold depthAt
    rw [hlayer]
    split_ifs with hsame
    · rw [hsame]
      exact List.getElem?_set_self (hlt layer)
    · apply List.getElem?_set_ne
      intro hindex
      exact hsame (pixel_inj hpixel.1 hother.1 hindex).symm

/-- The pixels of a block lose their depths, and no other pixel does. -/
theorem exists_removeAll (hlayers : ∀ layer, patch.Allocated layer) {pixels : List (ℕ × ℕ)}
    (hpixels : ∀ pixel ∈ pixels, patch.Inside pixel) :
    ∃ after, pixels.foldlM removeDepths patch = some after ∧ SameFrame patch after ∧
      after.occupancy = patch.occupancy ∧
      ∀ layer other, patch.Inside other → after.depthAt layer other =
        if other ∈ pixels then some infiniteDepth else patch.depthAt layer other := by
  let Removed (visited : List (ℕ × ℕ)) (after : SegmentedPatch) : Prop :=
    SameFrame patch after ∧ after.occupancy = patch.occupancy ∧
      ∀ layer other, patch.Inside other → after.depthAt layer other =
        if other ∈ visited then some infiniteDepth else patch.depthAt layer other
  apply Codec.exists_foldlM (P := Removed) _
    ⟨SameFrame.refl patch, rfl, fun _ _ _ => (if_neg List.not_mem_nil).symm⟩
  intro visited pixel mid hvisited hremoved
  obtain ⟨hframe, hoccupancy, hdepths⟩ := hremoved
  have hpixel : patch.Inside pixel :=
    hpixels pixel (hvisited.subset (List.mem_append_right visited List.mem_cons_self))
  obtain ⟨after, hafter, hframe', hoccupancy', hdepths'⟩ :=
    exists_removeDepths (fun layer => (hlayers layer).of_sameFrame hframe)
      ((hframe.inside_iff pixel).mpr hpixel)
  refine ⟨after, hafter, hframe.trans hframe', hoccupancy'.trans hoccupancy, ?_⟩
  intro layer other hother
  rw [hdepths' layer other ((hframe.inside_iff other).mpr hother), hdepths layer other hother]
  by_cases hsame : other = pixel
  · simp [hsame]
  · simp [hsame]

/-- Without a far layer no pixel is removed. -/
theorem removeAll_eq_none (hfar : patch.depth1 = []) {pixels : List (ℕ × ℕ)} (h : pixels ≠ []) :
    pixels.foldlM removeDepths patch = none := by
  obtain ⟨pixel, rest, rfl⟩ := List.exists_cons_of_ne_nil h
  have hremove : patch.removeDepths pixel = none := by
    unfold removeDepths
    dsimp only
    rw [hfar]
    cases Cells.setAt patch.depth0 (pixel.2 * patch.sizeU + pixel.1) infiniteDepth with
    | none => rfl
    | some depth0 => rfl
  rw [List.foldlM_cons, hremove]
  rfl

/-- The blocks that were visited are cleared where a rule removes them. -/
structure Cleared (side : ℕ) (removes : ℕ → Bool) (before after : SegmentedPatch)
    (visited : List (ℕ × ℕ)) : Prop where
  frame : SameFrame before after
  depthAt : ∀ layer pixel, before.Inside pixel → after.depthAt layer pixel =
    if blockOf side pixel ∈ visited ∧ removes (before.blockCount side (blockOf side pixel)) = true
    then some infiniteDepth else before.depthAt layer pixel

section Rule

variable {removes : ℕ → Bool} {visited : List (ℕ × ℕ)}

theorem Cleared.start (side : ℕ) (removes : ℕ → Bool) (patch : SegmentedPatch) :
    Cleared side removes patch patch [] where
  frame := SameFrame.refl patch
  depthAt _ _ _ := by
    rw [if_neg]
    exact fun h => absurd h.1 List.not_mem_nil

theorem Cleared.isFinite (h : Cleared side removes before after visited) {pixel : ℕ × ℕ}
    (hpixel : before.Inside pixel) : after.isFinite pixel =
      (!decide (blockOf side pixel ∈ visited ∧
        removes (before.blockCount side (blockOf side pixel)) = true) && before.isFinite pixel) := by
  unfold SegmentedPatch.isFinite
  rw [h.depthAt 0 pixel hpixel]
  split_ifs with hcleared
  · simp [hcleared]
  · simp [hcleared]

/-- A cleared block is empty, and every other block has the depths that it had. -/
theorem Cleared.blockCount (h : Cleared side removes before after visited) (hside : 0 < side)
    (block : ℕ × ℕ) : after.blockCount side block =
      if block ∈ visited ∧ removes (before.blockCount side block) = true then 0
      else before.blockCount side block := by
  split_ifs with hcleared
  · apply blockCount_eq_zero h.frame hside
    intro pixel hpixel hblock
    rw [h.isFinite hpixel, hblock, decide_eq_true hcleared]
    rfl
  · apply blockCount_congr h.frame hside
    intro pixel hpixel hblock
    rw [h.isFinite hpixel, hblock, decide_eq_false hcleared]
    rfl

/-- The step of a rule, at a block that it may have visited before. -/
theorem Cleared.exists_step (h : Cleared side removes before mid visited) (hside : 0 < side)
    (hempty : removes 0 = false) (block : ℕ × ℕ)
    (hlayers : (∀ layer, before.Allocated layer) ∨ removes (before.blockCount side block) = false) :
    ∃ after, (if removes (mid.blockCount side block) then
        (mid.blockPixels side (block.1 * side, block.2 * side)).foldlM removeDepths mid
      else some mid) = some after ∧
      Cleared side removes before after (visited ++ [block]) ∧ after.occupancy = mid.occupancy := by
  have hcount := h.blockCount hside block
  by_cases hremoves : removes (before.blockCount side block) = true
  · by_cases hvisited : block ∈ visited
    · rw [if_pos ⟨hvisited, hremoves⟩] at hcount
      refine ⟨mid, ?_, ⟨h.frame, ?_⟩, rfl⟩
      · rw [hcount, hempty]
        rfl
      · intro layer pixel hpixel
        have hmem : blockOf side pixel ∈ visited ++ [block] ↔ blockOf side pixel ∈ visited := by
          rw [List.mem_append, List.mem_singleton]
          exact ⟨fun h => h.elim id fun hblock => hblock ▸ hvisited, Or.inl⟩
        rw [h.depthAt layer pixel hpixel]
        simp only [hmem]
    · rw [if_neg fun h => hvisited h.1] at hcount
      have hallocated : ∀ layer, mid.Allocated layer := by
        intro layer
        have hno : removes (before.blockCount side block) ≠ false := by simp [hremoves]
        exact (hlayers.resolve_right hno layer).of_sameFrame h.frame
      have hinsideAll : ∀ pixel ∈ mid.blockPixels side (block.1 * side, block.2 * side),
          mid.Inside pixel := fun pixel hpixel => ((mem_blockPixels hside).mp hpixel).1
      obtain ⟨after, hafter, hframe, hoccupancy, hdepths⟩ :=
        exists_removeAll hallocated hinsideAll
      refine ⟨after, ?_, ⟨h.frame.trans hframe, ?_⟩, hoccupancy⟩
      · rw [hcount, if_pos hremoves]
        exact hafter
      · intro layer pixel hpixel
        have hinside := (h.frame.inside_iff pixel).mpr hpixel
        rw [hdepths layer pixel hinside, h.depthAt layer pixel hpixel]
        simp only [mem_blockPixels hside, hinside, true_and, List.mem_append, List.mem_singleton]
        by_cases hblock : blockOf side pixel = block
        · simp [hblock, hremoves]
        · simp [hblock]
  · have hnot : ¬(block ∈ visited ∧ removes (before.blockCount side block) = true) :=
      fun h => hremoves h.2
    rw [if_neg hnot] at hcount
    refine ⟨mid, ?_, ⟨h.frame, ?_⟩, rfl⟩
    · rw [hcount, if_neg hremoves]
    · intro layer pixel hpixel
      rw [h.depthAt layer pixel hpixel]
      by_cases hblock : blockOf side pixel = block
      · simp [hblock, hremoves]
      · simp [hblock]

section All

variable (h : Cleared side removes before after visited)
  (hall : ∀ block, removes (before.blockCount side block) = true → block ∈ visited)

include h hall

/-- The depths after a rule that has visited every block which it removes. -/
theorem Cleared.depthAt_all (layer : Fin 2) {pixel : ℕ × ℕ} (hpixel : before.Inside pixel) :
    after.depthAt layer pixel =
      if removes (before.blockCount side (blockOf side pixel)) = true then some infiniteDepth
      else before.depthAt layer pixel := by
  rw [h.depthAt layer pixel hpixel]
  have hiff := and_iff_right_of_imp (hall (blockOf side pixel))
  simp only [hiff]

theorem Cleared.isFinite_all {pixel : ℕ × ℕ} (hpixel : before.Inside pixel) :
    after.isFinite pixel =
      (before.isFinite pixel && !removes (before.blockCount side (blockOf side pixel))) := by
  have hiff := and_iff_right_of_imp (hall (blockOf side pixel))
  rw [h.isFinite hpixel, Bool.and_comm]
  simp only [hiff, Bool.decide_eq_true]

theorem Cleared.blockCount_all (hside : 0 < side) (block : ℕ × ℕ) :
    after.blockCount side block =
      if removes (before.blockCount side block) = true then 0
      else before.blockCount side block := by
  have hiff := and_iff_right_of_imp (hall block)
  rw [h.blockCount hside]
  simp only [hiff]

end All

end Rule

end V3C.SegmentedPatch

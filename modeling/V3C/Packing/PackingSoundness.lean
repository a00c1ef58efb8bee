import V3C.Codec.Traverse
import V3C.Packing.PackFlexible

/-! Packed patches lie apart on the canvas; where the canvas is no wider than the tile, they lie
in the tile. -/
namespace V3C
open Codec

namespace PackingPatch

/-- The blocks of a placed patch that later ones may not use. -/
def Takes (lowDelayEncoding : Bool) (patch : PackingPatch) (x y : ℕ) : Prop :=
  if lowDelayEncoding then Covers patch.toPatchPlacement x y else patch.Occupies x y

/-- The blocks that have to be free for a patch. -/
def Needs (lowDelayEncoding : Bool) (patch : PackingPatch) (x y : ℕ) : Prop :=
  if lowDelayEncoding then patch.Occupies x y else Covers patch.toPatchPlacement x y

theorem Occupies.takes {patch : PackingPatch} {x y : ℕ} (h : patch.Occupies x y)
    (lowDelayEncoding : Bool) : patch.Takes lowDelayEncoding x y := by
  cases lowDelayEncoding
  · exact h
  · exact h.covers

theorem Occupies.needs {patch : PackingPatch} {x y : ℕ} (h : patch.Occupies x y)
    (lowDelayEncoding : Bool) : patch.Needs lowDelayEncoding x y := by
  cases lowDelayEncoding
  · exact h.covers
  · exact h

/-- A later patch needs no block that an earlier one takes. -/
def Clear (lowDelayEncoding : Bool) (earlier later : PackingPatch) : Prop :=
  ∀ x y, earlier.Takes lowDelayEncoding x y → ¬later.Needs lowDelayEncoding x y

/-- A block of the patch lies on the canvas. -/
def OnCanvas (patch : PatchPlacement) (stride height u v : ℕ) : Prop :=
  ∃ x y, patch.blockPosition u v = some (x, y) ∧ x < stride ∧ y < height ∧
    x + stride * y < 2 ^ 31

theorem patchBlock2CanvasBlock_eq {patch : PatchPlacement} {stride height x y : ℕ} {u v : ℤ}
    (hpos : patch.blockPosition u v = some (x, y)) (hx : x < stride) (hy : y < height)
    (hint : x + stride * y < 2 ^ 31) :
    patch.patchBlock2CanvasBlock u v stride height = some ((x + stride * y : ℕ) : ℤ) := by
  unfold PatchPlacement.patchBlock2CanvasBlock
  rw [hpos]
  simp only [if_neg (not_le.mpr hx), if_neg (not_le.mpr hy), if_pos hint]

/-- The canvas is free where the patch needs one of its blocks. -/
def FreeAt (patch : PackingPatch) (canvas : BlockCanvas) (bPrecedence : Bool) (u v : ℕ) : Prop :=
  ∀ x y, patch.blockPosition u v = some (x, y) → canvas.Marked x y →
    bPrecedence = true ∧ patch.occupancy[u + patch.sizeU0 * v]? = some false

theorem onCanvas_freeAt_of_blockFits {patch : PackingPatch} {canvas : BlockCanvas}
    {bPrecedence : Bool} {u v : ℕ}
    (h : patch.blockFits canvas bPrecedence (u, v) 0 0 = some true) :
    OnCanvas patch.toPatchPlacement canvas.stride canvas.height u v ∧
      patch.FreeAt canvas bPrecedence u v := by
  obtain ⟨pos, hpos, h⟩ := Option.bind_eq_some_iff.mp h
  simp only [Int.add_zero] at hpos
  unfold PatchPlacement.patchBlock2CanvasBlock at hpos
  split at hpos
  · obtain rfl : -1 = pos := Option.some.inj hpos
    simp at h
  · rename_i x y hblock
    split_ifs at hpos with hx hy hint
    · obtain rfl : -1 = pos := Option.some.inj hpos
      simp at h
    · obtain rfl : -1 = pos := Option.some.inj hpos
      simp at h
    · obtain rfl := Option.some.inj hpos
      refine ⟨⟨x, y, hblock, by omega, by omega, hint⟩, ?_⟩
      intro x' y' hblock' hmarked
      obtain ⟨rfl, rfl⟩ : x = x' ∧ y = y' := by simpa [hblock] using hblock'
      unfold BlockCanvas.Marked at hmarked
      rw [if_neg (not_lt.mpr (Int.natCast_nonneg _)), Int.toNat_natCast, hmarked] at h
      cases bPrecedence with
      | false => simp at h
      | true =>
        refine ⟨rfl, ?_⟩
        simpa using h

theorem zero_mem_deltas {safeguard : ℤ} (h : 0 ≤ safeguard) : 0 ∈ deltas safeguard := by
  unfold deltas
  rw [List.mem_map]
  exact ⟨safeguard.toNat, List.mem_range.mpr (by omega), by omega⟩

theorem onCanvas_freeAt_of_checkFitPatchCanvas {patch : PackingPatch} {canvas : BlockCanvas}
    {bPrecedence : Bool} {safeguard : ℤ} (hsafeguard : 0 ≤ safeguard)
    (h : patch.checkFitPatchCanvas canvas bPrecedence safeguard = some true) {u v : ℕ}
    (hu : u < patch.sizeU0) (hv : v < patch.sizeV0) :
    OnCanvas patch.toPatchPlacement canvas.stride canvas.height u v ∧
      patch.FreeAt canvas bPrecedence u v := by
  have hzero := zero_mem_deltas hsafeguard
  have hblock := allM_eq_some_true.mp h (u, v) (mem_grid.mpr ⟨hu, hv⟩)
  exact onCanvas_freeAt_of_blockFits
    (allM_eq_some_true.mp (allM_eq_some_true.mp hblock 0 hzero) 0 hzero)

/-- What a patch needs is free on a canvas where it fits. -/
theorem not_marked_of_needs {patch : PackingPatch} {canvas : BlockCanvas} {lowDelay : Bool}
    (hfree : ∀ u < patch.sizeU0, ∀ v < patch.sizeV0, patch.FreeAt canvas lowDelay u v)
    {x y : ℕ} (h : patch.Needs lowDelay x y) : ¬canvas.Marked x y := by
  intro hmarked
  cases lowDelay with
  | false =>
    obtain ⟨u, hu, v, hv, hpos⟩ := h
    exact absurd (hfree u hu v hv x y hpos hmarked).1 (by simp)
  | true =>
    obtain ⟨u, hu, v, hv, hpos, hoccupied⟩ := h
    have hempty := (hfree u hu v hv x y hpos hmarked).2
    rw [Nat.add_comm u, Nat.mul_comm, hoccupied] at hempty
    cases hempty

end PackingPatch

/-- One canvas is another with more blocks occupied and more rows. -/
structure BlockCanvas.Extends (canvas canvas' : BlockCanvas) : Prop where
  stride : canvas'.stride = canvas.stride
  height : canvas.height ≤ canvas'.height
  marked : ∀ x y, canvas.Marked x y → canvas'.Marked x y

namespace BlockCanvas

theorem Extends.refl (canvas : BlockCanvas) : canvas.Extends canvas :=
  ⟨rfl, Nat.le_refl _, fun _ _ h => h⟩

theorem Extends.trans {a b c : BlockCanvas} (hab : a.Extends b) (hbc : b.Extends c) :
    a.Extends c :=
  ⟨hbc.stride.trans hab.stride, hab.height.trans hbc.height,
    fun x y h => hbc.marked x y (hab.marked x y h)⟩

theorem extends_doubled (canvas : BlockCanvas) : canvas.Extends canvas.doubled :=
  ⟨rfl, by simp only [height_doubled]; omega, fun _ _ h => h.doubled⟩

theorem marked_set_self {canvas : BlockCanvas} {x y : ℕ} (hx : x < canvas.stride)
    (hy : y < canvas.height) : (canvas.set (x + canvas.stride * y) true).Marked x y := by
  have hlt : x + canvas.stride * y < canvas.blocks.length := by
    rw [canvas.length_blocks]
    calc x + canvas.stride * y < canvas.stride + canvas.stride * y := by omega
      _ = canvas.stride * (y + 1) := by rw [Nat.mul_succ, Nat.add_comm]
      _ ≤ canvas.stride * canvas.height := Nat.mul_le_mul_left _ hy
  exact List.getElem?_set_self hlt

/-- A block keeps its mark when another gets a value, or the same one keeps it. -/
theorem Marked.set {canvas : BlockCanvas} {x y coord : ℕ} {value : Bool}
    (h : canvas.Marked x y) (hvalue : canvas.blocks[coord]? = some true → value = true) :
    (canvas.set coord value).Marked x y := by
  unfold Marked at h ⊢
  by_cases heq : coord = x + canvas.stride * y
  · subst heq
    rw [hvalue h]
    exact List.getElem?_set_self (List.getElem?_eq_some_iff.mp h).1
  · exact (List.getElem?_set_ne heq).trans h

end BlockCanvas

namespace PackingPatch

/-- Marking one block keeps the others, and marks it where the patch takes it. -/
theorem markBlock_spec {patch : PackingPatch} {lowDelay : Bool} {canvas canvas' : BlockCanvas}
    {block : ℕ × ℕ} (h : patch.markBlock lowDelay canvas block = some canvas')
    (hon : OnCanvas patch.toPatchPlacement canvas.stride canvas.height block.1 block.2) :
    canvas.Extends canvas' ∧ canvas'.height = canvas.height ∧
      ∀ x y, patch.blockPosition block.1 block.2 = some (x, y) →
        (lowDelay = false → patch.occupancy[block.2 * patch.sizeU0 + block.1]? = some true) →
        canvas'.Marked x y := by
  obtain ⟨x, y, hpos, hx, hy, hint⟩ := hon
  obtain ⟨coord, hcoord, h⟩ := Option.bind_eq_some_iff.mp h
  rw [patchBlock2CanvasBlock_eq hpos hx hy hint] at hcoord
  obtain rfl := Option.some.inj hcoord
  rw [if_neg (not_lt.mpr (Int.natCast_nonneg _)), Int.toNat_natCast] at h
  cases lowDelay with
  | true =>
    obtain rfl : canvas.set (x + canvas.stride * y) true = canvas' := Option.some.inj h
    refine ⟨⟨rfl, Nat.le_refl _, fun _ _ hm => hm.set fun _ => rfl⟩, rfl, ?_⟩
    intro x' y' hpos' _
    obtain ⟨rfl, rfl⟩ : x = x' ∧ y = y' := by simpa [hpos] using hpos'
    exact BlockCanvas.marked_set_self hx hy
  | false =>
    obtain ⟨occupied, hoccupied, h⟩ := Option.bind_eq_some_iff.mp h
    obtain ⟨occupancy, hoccupancy, h⟩ := Option.bind_eq_some_iff.mp h
    obtain rfl := Option.some.inj h
    refine ⟨⟨rfl, Nat.le_refl _, fun _ _ hm => hm.set fun hold => ?_⟩, rfl, ?_⟩
    · rw [hoccupied] at hold
      simp [Option.some.inj hold]
    · intro x' y' hpos' hset
      obtain ⟨rfl, rfl⟩ : x = x' ∧ y = y' := by simpa [hpos] using hpos'
      rw [hset rfl] at hoccupancy
      rw [← Option.some.inj hoccupancy, Bool.or_true]
      exact BlockCanvas.marked_set_self hx hy

theorem markBlocks_spec {patch : PackingPatch} {lowDelay : Bool} {canvas canvas' : BlockCanvas}
    (h : patch.markBlocks lowDelay canvas = some canvas')
    (hon : ∀ u < patch.sizeU0, ∀ v < patch.sizeV0,
      OnCanvas patch.toPatchPlacement canvas.stride canvas.height u v) :
    canvas.Extends canvas' ∧ canvas'.height = canvas.height ∧
      ∀ x y, patch.Takes lowDelay x y → canvas'.Marked x y := by
  have hrun : ∀ (blocks : List (ℕ × ℕ)) (canvas : BlockCanvas),
      blocks.foldlM (patch.markBlock lowDelay) canvas = some canvas' →
      (∀ block ∈ blocks,
        OnCanvas patch.toPatchPlacement canvas.stride canvas.height block.1 block.2) →
      canvas.Extends canvas' ∧ canvas'.height = canvas.height ∧
        ∀ block ∈ blocks, ∀ x y, patch.blockPosition block.1 block.2 = some (x, y) →
          (lowDelay = false → patch.occupancy[block.2 * patch.sizeU0 + block.1]? = some true) →
          canvas'.Marked x y := by
    intro blocks
    induction blocks with
    | nil =>
      intro canvas h _
      obtain rfl : canvas = canvas' := Option.some.inj h
      exact ⟨.refl canvas, rfl, by simp⟩
    | cons block blocks ih =>
      intro canvas h hon
      obtain ⟨next, hnext, h⟩ := Option.bind_eq_some_iff.mp (List.foldlM_cons.symm.trans h)
      obtain ⟨hext, hheight, hmark⟩ := markBlock_spec hnext (hon block List.mem_cons_self)
      obtain ⟨hext', hheight', hmark'⟩ := ih next h fun b hb => by
        rw [hext.stride, hheight]
        exact hon b (List.mem_cons_of_mem block hb)
      refine ⟨hext.trans hext', hheight'.trans hheight, ?_⟩
      intro b hb x y hpos hset
      rcases List.mem_cons.mp hb with rfl | hb
      · exact hext'.marked x y (hmark x y hpos hset)
      · exact hmark' b hb x y hpos hset
  obtain ⟨hext, hheight, hmark⟩ := hrun patch.blocks canvas h fun block hblock =>
    have hmem := mem_grid.mp hblock
    hon block.1 hmem.1 block.2 hmem.2
  refine ⟨hext, hheight, ?_⟩
  intro x y htakes
  cases lowDelay with
  | true =>
    obtain ⟨u, hu, v, hv, hpos⟩ := htakes
    exact hmark (u, v) (mem_grid.mpr ⟨hu, hv⟩) x y hpos (by simp)
  | false =>
    obtain ⟨u, hu, v, hv, hpos, hoccupied⟩ := htakes
    exact hmark (u, v) (mem_grid.mpr ⟨hu, hv⟩) x y hpos fun _ => hoccupied

end PackingPatch

/-- Every place is tried with a distance as its safeguard. -/
def Guarded (attempts : PackingPatch → ℕ → ℕ → List PCCEncoder.Attempt) : Prop :=
  ∀ patch stride height, ∀ attempt ∈ attempts patch stride height, 0 ≤ attempt.2

namespace PCCEncoder

theorem firstFit_eq_some {fits : Attempt → Option Bool} {attempts : List Attempt}
    {place : PatchPlacement} (h : firstFit fits attempts = some (some place)) :
    ∃ safeguard, (place, safeguard) ∈ attempts ∧ fits (place, safeguard) = some true := by
  induction attempts with
  | nil => cases Option.some.inj h
  | cons attempt attempts ih =>
    obtain ⟨b, hb, h⟩ := Option.bind_eq_some_iff.mp h
    cases b with
    | true =>
      obtain rfl : attempt.1 = place := by simpa using h
      exact ⟨attempt.2, List.mem_cons_self, hb⟩
    | false =>
      obtain ⟨safeguard, hmem, hfit⟩ := ih (by simpa using h)
      exact ⟨safeguard, List.mem_cons_of_mem attempt hmem, hfit⟩

theorem findLocation_spec {patch : PackingPatch} {lowDelay : Bool}
    {attempts : ℕ → ℕ → List Attempt} {fuel : ℕ} {canvas canvas' : BlockCanvas}
    {place : PatchPlacement}
    (h : findLocation patch lowDelay attempts fuel canvas = some (place, canvas')) :
    canvas.Extends canvas' ∧ ∃ safeguard, (place, safeguard) ∈ attempts canvas'.stride canvas'.height ∧
      { patch with toPatchPlacement := place }.checkFitPatchCanvas canvas' lowDelay safeguard =
        some true := by
  induction fuel generalizing canvas with
  | zero => cases h
  | succ fuel ih =>
    obtain ⟨found, hfound, h⟩ := Option.bind_eq_some_iff.mp h
    cases found with
    | some place' =>
      obtain ⟨rfl, rfl⟩ : place' = place ∧ canvas = canvas' := by simpa using h
      exact ⟨.refl canvas, firstFit_eq_some hfound⟩
    | none =>
      obtain ⟨hext, hfit⟩ := ih h
      exact ⟨(BlockCanvas.extends_doubled canvas).trans hext, hfit⟩

/-- A placed patch lies on the canvas and below the reported sizes. -/
structure Placed (params : PackingParams) (s : PackingState) (patch : PackingPatch) : Prop where
  column : ∀ x y, PackingPatch.Covers patch.toPatchPlacement x y →
    x < min s.occupancyMap.stride (2 ^ 31)
  row : ∀ x y, PackingPatch.Covers patch.toPatchPlacement x y → y < 2 ^ 31
  left : ∀ x y, PackingPatch.Covers patch.toPatchPlacement x y →
    (x + 1) * params.occupancyResolution ≤ s.width
  below : ∀ x y, PackingPatch.Covers patch.toPatchPlacement x y →
    (y + 1) * params.occupancyResolution ≤ s.height
  marked : ∀ x y, patch.Takes params.lowDelayEncoding x y → s.occupancyMap.Marked x y

/-- What the loop over the patches keeps. -/
structure PackingState.Extends (s s' : PackingState) : Prop where
  occupancyMap : s.occupancyMap.Extends s'.occupancyMap
  width : s.width ≤ s'.width
  height : s.height ≤ s'.height

theorem Placed.extends {params : PackingParams} {s s' : PackingState} {patch : PackingPatch}
    (h : Placed params s patch) (hext : PackingState.Extends s s') : Placed params s' patch where
  column x y hcovers := by
    rw [hext.occupancyMap.stride]
    exact h.column x y hcovers
  row := h.row
  left x y hcovers := (h.left x y hcovers).trans hext.width
  below x y hcovers := (h.below x y hcovers).trans hext.height
  marked x y htakes := hext.occupancyMap.marked x y (h.marked x y htakes)

end PCCEncoder

namespace PackingPatch

theorem toSizeT_lt {n : ℤ} {k : ℕ} (hn : 0 ≤ n) (h : n < k) : toSizeT n < k := by
  unfold toSizeT
  omega

/-- A covered block lies within the sizes of the patch, which a turn switches. -/
theorem Covers.within {patch : PatchPlacement} {x y : ℕ} (h : Covers patch x y) :
    x + 1 ≤ patch.u0 + (if patch.isPatchDimensionSwitched then patch.sizeV0 else patch.sizeU0) ∧
      y + 1 ≤ patch.v0 +
        (if patch.isPatchDimensionSwitched then patch.sizeU0 else patch.sizeV0) := by
  obtain ⟨u, hu, v, hv, hpos⟩ := h
  unfold PatchPlacement.blockPosition at hpos
  unfold PatchPlacement.isPatchDimensionSwitched
  cases horientation : patch.patchOrientation with
  | other value =>
    rw [horientation] at hpos
    cases hpos
  | _ =>
    rw [horientation] at hpos
    obtain ⟨hx, hy⟩ := Prod.mk.inj (Option.some.inj hpos)
    rw [← hx, ← hy]
    simp only [Bool.false_eq_true, ↓reduceIte]
    exact ⟨toSizeT_lt (by omega) (by omega), toSizeT_lt (by omega) (by omega)⟩

end PackingPatch

namespace PCCEncoder

/-- One pass over the patches places its patch clear of the blocks that are taken. -/
theorem packPatch_spec {fuel : ℕ} {params : PackingParams}
    {attempts : PackingPatch → ℕ → ℕ → List Attempt} (hattempts : Guarded attempts)
    {patch placed : PackingPatch} {s s' : PackingState}
    (h : packPatch fuel params attempts patch s = some (placed, s')) :
    PackingState.Extends s s' ∧ Placed params s' placed ∧
      ∀ x y, s.occupancyMap.Marked x y → ¬placed.Needs params.lowDelayEncoding x y := by
  obtain ⟨⟨place, canvas⟩, hfind, h⟩ := Option.bind_eq_some_iff.mp h
  obtain ⟨canvas', hmark, h⟩ := Option.bind_eq_some_iff.mp h
  obtain ⟨rfl, rfl⟩ := Prod.mk.inj (Option.some.inj h)
  obtain ⟨hext, safeguard, hmem, hcheck⟩ := findLocation_spec hfind
  have hsafeguard := hattempts patch _ _ _ hmem
  have hfits := fun u hu v hv =>
    PackingPatch.onCanvas_freeAt_of_checkFitPatchCanvas (u := u) (v := v) hsafeguard hcheck hu hv
  obtain ⟨hext', hheight, htaken⟩ :=
    PackingPatch.markBlocks_spec hmark fun u hu v hv => (hfits u hu v hv).1
  refine ⟨⟨hext.trans hext', Nat.le_max_left _ _, Nat.le_max_left _ _⟩, ?_, ?_⟩
  · constructor
    · rintro x y ⟨u, hu, v, hv, hpos⟩
      obtain ⟨⟨x', y', hpos', hx, -, hint⟩, -⟩ := hfits u hu v hv
      obtain ⟨rfl, rfl⟩ : x' = x ∧ y' = y := by simpa [hpos'] using hpos
      simp only [hext'.stride]
      exact lt_min hx ((Nat.le_add_right _ _).trans_lt hint)
    · rintro x y ⟨u, hu, v, hv, hpos⟩
      obtain ⟨⟨x', y', hpos', hx, -, hint⟩, -⟩ := hfits u hu v hv
      obtain ⟨rfl, rfl⟩ : x' = x ∧ y' = y := by simpa [hpos'] using hpos
      exact (Nat.le_mul_of_pos_left _ (Nat.zero_lt_of_lt hx)).trans_lt
        ((Nat.le_add_left _ _).trans_lt hint)
    · intro x y hcovers
      exact (Nat.mul_le_mul_right _ hcovers.within.1).trans (Nat.le_max_right _ _)
    · intro x y hcovers
      exact (Nat.mul_le_mul_right _ hcovers.within.2).trans (Nat.le_max_right _ _)
    · exact htaken
  · intro x y hmarked hneeds
    exact PackingPatch.not_marked_of_needs (fun u hu v hv => (hfits u hu v hv).2) hneeds
      (hext.marked x y hmarked)

/-- All patches are placed on the canvas, each clear of those before it. -/
theorem packPatches_spec {fuel : ℕ} {params : PackingParams}
    {attempts : PackingPatch → ℕ → ℕ → List Attempt} (hattempts : Guarded attempts)
    {patches placed : List PackingPatch} {s s' : PackingState}
    (h : packPatches fuel params attempts patches s = some (placed, s')) :
    PackingState.Extends s s' ∧ (∀ patch ∈ placed, Placed params s' patch) ∧
      (∀ patch ∈ placed, ∀ x y, s.occupancyMap.Marked x y →
        ¬patch.Needs params.lowDelayEncoding x y) ∧
      placed.Pairwise (PackingPatch.Clear params.lowDelayEncoding) := by
  induction patches generalizing placed s with
  | nil =>
    obtain ⟨rfl, rfl⟩ := Prod.mk.inj (Option.some.inj h)
    exact ⟨⟨.refl _, Nat.le_refl _, Nat.le_refl _⟩, by simp, by simp, List.Pairwise.nil⟩
  | cons patch patches ih =>
    obtain ⟨⟨first, s₁⟩, hfirst, h⟩ := Option.bind_eq_some_iff.mp h
    obtain ⟨⟨rest, s₂⟩, hrest, h⟩ := Option.bind_eq_some_iff.mp h
    obtain ⟨rfl, rfl⟩ := Prod.mk.inj (Option.some.inj h)
    obtain ⟨hext, hplaced, hclear⟩ := packPatch_spec hattempts hfirst
    obtain ⟨hext', hplaced', hclear', hpair⟩ := ih hrest
    refine ⟨⟨hext.occupancyMap.trans hext'.occupancyMap, hext.width.trans hext'.width,
      hext.height.trans hext'.height⟩, ?_, ?_, ?_⟩
    · intro q hq
      rcases List.mem_cons.mp hq with rfl | hq
      · exact hplaced.extends hext'
      · exact hplaced' q hq
    · intro q hq x y hmarked
      rcases List.mem_cons.mp hq with rfl | hq
      · exact hclear x y hmarked
      · exact hclear' q hq x y (hext.occupancyMap.marked x y hmarked)
    · apply List.Pairwise.cons
      · intro q hq x y htakes
        exact hclear' q hq x y (hplaced.marked x y htakes)
      · exact hpair

theorem bestEffort_guarded (params : PackingParams) (packingStrategy : ℤ) {safeguard : ℤ}
    (h : 0 ≤ safeguard) : Guarded (bestEffort params packingStrategy safeguard) := by
  intro patch stride height attempt hattempt
  obtain ⟨⟨u, v⟩, -, hattempt⟩ := List.mem_flatMap.mp hattempt
  obtain ⟨orientation, -, rfl⟩ := List.mem_map.mp hattempt
  exact h

theorem consistentPlaces_guarded (params : PackingParams) (packingStrategy : ℤ)
    {safeguard : ℤ} (h : 0 ≤ safeguard) (prevPatches : List PackingPatch) :
    Guarded (consistentPlaces params packingStrategy safeguard prevPatches) := by
  intro patch stride height attempt hattempt
  unfold consistentPlaces at hattempt
  split_ifs at hattempt
  · exact bestEffort_guarded params packingStrategy h patch stride height attempt hattempt
  · split at hattempt
    · rcases List.mem_cons.mp hattempt with rfl | hattempt
      · exact Int.le_refl 0
      · obtain ⟨⟨u, v⟩, -, rfl⟩ := List.mem_map.mp hattempt
        exact h
    · cases hattempt

theorem packRawPointsPatch_height {fuel : ℕ} {params : PackingParams} {maxOccupancyRow : ℕ}
    {raws placed : List PCCRawPointsPatch} {canvas : BlockCanvas} {height height' : ℕ}
    (h : packRawPointsPatch fuel params maxOccupancyRow raws canvas height =
      some (placed, height')) : height ≤ height' := by
  induction raws generalizing placed canvas height with
  | nil =>
    obtain ⟨rfl, rfl⟩ := Prod.mk.inj (Option.some.inj h)
    exact Nat.le_refl _
  | cons raw raws ih =>
    obtain ⟨⟨first, canvas₁, height₁⟩, hfirst, h⟩ := Option.bind_eq_some_iff.mp h
    obtain ⟨⟨rest, height₂⟩, hrest, h⟩ := Option.bind_eq_some_iff.mp h
    obtain ⟨rfl, rfl⟩ := Prod.mk.inj (Option.some.inj h)
    have hstep : height ≤ height₁ := by
      obtain ⟨sized, -, h⟩ := Option.bind_eq_some_iff.mp hfirst
      obtain ⟨⟨place, found⟩, -, h⟩ := Option.bind_eq_some_iff.mp h
      obtain ⟨marked, -, h⟩ := Option.bind_eq_some_iff.mp h
      obtain ⟨-, -, rfl⟩ := by simpa using h
      split_ifs
      · exact Nat.le_refl _
      · exact Nat.le_max_left _ _
    exact hstep.trans (ih hrest)

theorem packEOMAttributePointsPatch_height {params : PackingParams} {occupancySizeU : ℕ}
    {eomPatches placed : List PCCEomPatch} {height height' : ℕ}
    (h : packEOMAttributePointsPatch params occupancySizeU eomPatches height =
      some (placed, height')) : height ≤ height' := by
  induction eomPatches generalizing placed height with
  | nil =>
    obtain ⟨rfl, rfl⟩ := Prod.mk.inj (Option.some.inj h)
    exact Nat.le_refl _
  | cons eomPatch eomPatches ih =>
    obtain ⟨blocks, -, h⟩ := Option.bind_eq_some_iff.mp h
    obtain ⟨blocksV, -, h⟩ := Option.bind_eq_some_iff.mp h
    obtain ⟨⟨rest, height₁⟩, hrest, h⟩ := Option.bind_eq_some_iff.mp h
    obtain ⟨rfl, rfl⟩ := Prod.mk.inj (Option.some.inj h)
    exact (Nat.le_add_right _ _).trans (ih hrest)

/-- The patches of points only make the tile higher. -/
theorem packPointPatches_spec {fuel : ℕ} {params : PackingParams} {maxOccupancyRow : ℕ}
    {canvas : BlockCanvas} {tile tile' : PackingTile}
    (h : packPointPatches fuel params maxOccupancyRow canvas tile = some tile') :
    tile'.patches = tile.patches ∧ tile'.width = tile.width ∧ tile.height ≤ tile'.height := by
  obtain ⟨⟨raws, height⟩, hraw, h⟩ := Option.bind_eq_some_iff.mp h
  obtain ⟨⟨eoms, height'⟩, heom, h⟩ := Option.bind_eq_some_iff.mp h
  obtain rfl := Option.some.inj h
  have hrawHeight : tile.height ≤ height := by
    split_ifs at hraw
    · exact packRawPointsPatch_height hraw
    · obtain ⟨-, rfl⟩ := Prod.mk.inj (Option.some.inj hraw)
      exact Nat.le_refl _
  have heomHeight : height ≤ height' := by
    split_ifs at heom
    · exact packEOMAttributePointsPatch_height heom
    · obtain ⟨-, rfl⟩ := Prod.mk.inj (Option.some.inj heom)
      exact Nat.le_refl _
  exact ⟨rfl, rfl, hrawHeight.trans heomHeight⟩

theorem packEmptyTile_patches {fuel : ℕ} {params : PackingParams} {presetWidth presetHeight : ℕ}
    {tile tile' : PackingTile}
    (h : packEmptyTile fuel params presetWidth presetHeight tile = some tile') :
    tile'.patches = tile.patches := by
  unfold packEmptyTile at h
  split at h
  · rw [Option.some.inj h]
  · by_cases hseparate : tile.useRawPointsSeparateVideo = true
    · rw [if_pos hseparate] at h
      rw [Option.some.inj h]
    · rw [if_neg hseparate] at h
      by_cases hresolution : params.occupancyResolution = 0
      · rw [if_pos hresolution] at h
        cases h
      rw [if_neg hresolution] at h
      obtain ⟨blocks, -, h⟩ := Option.bind_eq_some_iff.mp h
      obtain ⟨rows, -, h⟩ := Option.bind_eq_some_iff.mp h
      obtain ⟨packed, hpacked, h⟩ := Option.bind_eq_some_iff.mp h
      obtain rfl := Option.some.inj h
      rw [← (packPointPatches_spec hpacked).1]
      split_ifs <;> rfl

end PCCEncoder

/-- Every block of every patch lies in the tile, and the patches lie apart. -/
structure PackedSoundly (params : PackingParams) (tile : PackingTile) : Prop where
  inside : ∀ patch ∈ tile.patches, ∀ x y, PackingPatch.Covers patch.toPatchPlacement x y →
    (x + 1) * params.occupancyResolution ≤ tile.width ∧
      (y + 1) * params.occupancyResolution ≤ tile.height
  disjoint : tile.patches.Pairwise fun earlier later =>
    ∀ x y, earlier.Occupies x y → ¬later.Occupies x y
  laterRectangles : params.lowDelayEncoding = false →
    tile.patches.Pairwise fun earlier later =>
      ∀ x y, earlier.Occupies x y → ¬PackingPatch.Covers later.toPatchPlacement x y
  earlierRectangles : params.lowDelayEncoding = true →
    tile.patches.Pairwise fun earlier later =>
      ∀ x y, PackingPatch.Covers earlier.toPatchPlacement x y → ¬later.Occupies x y

namespace PCCEncoder

theorem packedSoundly_of_clear {params : PackingParams} {tile : PackingTile}
    (hinside : ∀ patch ∈ tile.patches, ∀ x y, PackingPatch.Covers patch.toPatchPlacement x y →
      (x + 1) * params.occupancyResolution ≤ tile.width ∧
        (y + 1) * params.occupancyResolution ≤ tile.height)
    (hclear : tile.patches.Pairwise (PackingPatch.Clear params.lowDelayEncoding)) :
    PackedSoundly params tile where
  inside := hinside
  disjoint := hclear.imp fun h x y hearlier hlater =>
    h x y (hearlier.takes _) (hlater.needs _)
  laterRectangles hlow := hclear.imp fun h x y hearlier hlater => by
    rw [hlow] at h
    exact h x y hearlier hlater
  earlierRectangles hlow := hclear.imp fun h x y hearlier hlater => by
    rw [hlow] at h
    exact h x y hearlier hlater

theorem canvasWidth_le_iff {params : PackingParams} {presetWidth n : ℕ}
    {patches : List PackingPatch} :
    canvasWidth params presetWidth patches ≤ n ↔
      presetWidth / params.occupancyResolution ≤ n ∧ ∀ patch ∈ patches, patch.sizeU0 + 1 ≤ n := by
  unfold canvasWidth
  generalize presetWidth / params.occupancyResolution = width
  induction patches generalizing width with
  | nil => simp
  | cons patch patches ih =>
    rw [List.foldl_cons, ih, max_le_iff, List.forall_mem_cons, and_assoc]

section

variable {fuel : ℕ} {params : PackingParams} {lt : StdSort PackingPatch.lt}
  {gt : StdSort PackingPatch.gt} {packingStrategy : ℤ} {presetWidth presetHeight : ℕ}
  {safeguard : ℤ}

theorem sortPatches_perm (lt : StdSort PackingPatch.lt) (gt : StdSort PackingPatch.gt)
    (packingStrategy : ℤ) (patches : List PackingPatch) :
    (sortPatches lt gt packingStrategy patches).Perm patches := by
  unfold sortPatches
  split_ifs
  · exact lt.perm patches
  · exact gt.perm patches

/-- A run of `packFlexible` on patches. -/
theorem packFlexible_eq {tile : PackingTile} {first : PackingPatch} {rest : List PackingPatch}
    (hsort : sortPatches lt gt packingStrategy tile.patches = first :: rest)
    (hresolution : params.occupancyResolution ≠ 0) {occupancySizeV : ℕ}
    (hheight : canvasHeight params first (canvasWidth params presetWidth (first :: rest)) =
      some occupancySizeV)
    {placed : List PackingPatch} {s : PackingState}
    (hpack : packPatches fuel params (bestEffort params packingStrategy safeguard)
      (first :: rest) ⟨.empty (canvasWidth params presetWidth (first :: rest)) occupancySizeV,
        tile.width, occupancySizeV * params.occupancyResolution, 0⟩ = some (placed, s)) :
    packFlexible fuel params lt gt packingStrategy presetWidth presetHeight safeguard tile =
      packPointPatches fuel params s.maxOccupancyRow s.occupancyMap
        { tile with numMatchedPatches := 0, patches := placed, height := s.height } := by
  unfold packFlexible
  simp only [hsort, if_neg hresolution, hheight, Option.bind_eq_bind, Option.bind_some]
  rw [hpack]
  rfl

/-- The patches of `packFlexible` lie apart on the canvas, and no lower than the tile. -/
theorem packFlexible_spec (hsafeguard : 0 ≤ safeguard) {tile tile' : PackingTile}
    (h : packFlexible fuel params lt gt packingStrategy presetWidth presetHeight safeguard tile =
      some tile') :
    tile'.patches.Pairwise (PackingPatch.Clear params.lowDelayEncoding) ∧
      (tile'.patches ≠ [] → tile'.width = tile.width) ∧
      ∀ patch ∈ tile'.patches, ∀ x y, PackingPatch.Covers patch.toPatchPlacement x y →
        x < min (canvasWidth params presetWidth tile.patches) (2 ^ 31) ∧ y < 2 ^ 31 ∧
          (y + 1) * params.occupancyResolution ≤ tile'.height := by
  have hperm := sortPatches_perm lt gt packingStrategy tile.patches
  unfold packFlexible at h
  dsimp only at h
  split at h
  · rename_i hsorted
    rw [hsorted] at hperm
    have hnil : tile'.patches = [] :=
      (packEmptyTile_patches h).trans (List.nil_perm.mp hperm)
    simp [hnil]
  · rename_i first rest hsorted
    rw [hsorted] at hperm
    by_cases hresolution : params.occupancyResolution = 0
    · rw [if_pos hresolution] at h
      cases h
    rw [if_neg hresolution] at h
    obtain ⟨occupancySizeV, -, h⟩ := Option.bind_eq_some_iff.mp h
    obtain ⟨⟨placed, s⟩, hpack, h⟩ := Option.bind_eq_some_iff.mp h
    obtain ⟨hext, hplaced, -, hpair⟩ := packPatches_spec (bestEffort_guarded _ _ hsafeguard) hpack
    obtain ⟨hpatches, hwidth, hheight⟩ := packPointPatches_spec h
    rw [hpatches]
    refine ⟨hpair, fun _ => hwidth, ?_⟩
    intro patch hpatch x y hcovers
    have hin := hplaced patch hpatch
    have hstride : s.occupancyMap.stride ≤ canvasWidth params presetWidth tile.patches := by
      rw [hext.occupancyMap.stride]
      obtain ⟨hpreset, hsizes⟩ := canvasWidth_le_iff.mp (Nat.le_refl
        (canvasWidth params presetWidth tile.patches))
      exact canvasWidth_le_iff.mpr ⟨hpreset, fun q hq => hsizes q (hperm.mem_iff.mp hq)⟩
    refine ⟨lt_min ?_ ?_, hin.row x y hcovers, (hin.below x y hcovers).trans hheight⟩
    · exact ((lt_min_iff.mp (hin.column x y hcovers)).1).trans_le hstride
    · exact (lt_min_iff.mp (hin.column x y hcovers)).2

/-- `spatialConsistencyPackFlexible` makes the tile as wide as its canvas. -/
theorem spatialConsistencyPackFlexible_spec (hsafeguard : 0 ≤ safeguard)
    {iou : PackingPatch → PackingPatch → ℚ} {prevPatches : List PackingPatch}
    {tile tile' : PackingTile}
    (h : spatialConsistencyPackFlexible fuel params lt gt packingStrategy presetWidth presetHeight
      safeguard iou prevPatches tile = some tile') :
    tile'.patches.Pairwise (PackingPatch.Clear params.lowDelayEncoding) ∧
      ∀ patch ∈ tile'.patches, ∀ x y, PackingPatch.Covers patch.toPatchPlacement x y →
        x < 2 ^ 31 ∧ y < 2 ^ 31 ∧ (x + 1) * params.occupancyResolution ≤ tile'.width ∧
          (y + 1) * params.occupancyResolution ≤ tile'.height := by
  have hperm := sortPatches_perm lt gt packingStrategy tile.patches
  unfold spatialConsistencyPackFlexible at h
  split at h
  · rename_i hsorted
    rw [hsorted] at hperm
    have hnil : tile'.patches = [] :=
      (packEmptyTile_patches h).trans (List.nil_perm.mp hperm)
    simp [hnil]
  · by_cases hresolution : params.occupancyResolution = 0
    · rw [if_pos hresolution] at h
      cases h
    rw [if_neg hresolution] at h
    obtain ⟨occupancySizeV, -, h⟩ := Option.bind_eq_some_iff.mp h
    obtain ⟨⟨placed, s⟩, hpack, h⟩ := Option.bind_eq_some_iff.mp h
    obtain ⟨-, hplaced, -, hpair⟩ :=
      packPatches_spec (consistentPlaces_guarded _ _ hsafeguard _) hpack
    obtain ⟨hpatches, hwidth, hheight⟩ := packPointPatches_spec h
    rw [hpatches]
    refine ⟨hpair, ?_⟩
    intro patch hpatch x y hcovers
    have hin := hplaced patch hpatch
    exact ⟨(lt_min_iff.mp (hin.column x y hcovers)).2, hin.row x y hcovers,
      hwidth ▸ hin.left x y hcovers, (hin.below x y hcovers).trans hheight⟩

theorem spatialConsistencyPackFlexible_sound (hsafeguard : 0 ≤ safeguard)
    {iou : PackingPatch → PackingPatch → ℚ} {prevPatches : List PackingPatch}
    {tile tile' : PackingTile}
    (h : spatialConsistencyPackFlexible fuel params lt gt packingStrategy presetWidth presetHeight
      safeguard iou prevPatches tile = some tile') : PackedSoundly params tile' := by
  obtain ⟨hclear, hinside⟩ := spatialConsistencyPackFlexible_spec hsafeguard h
  exact packedSoundly_of_clear
    (fun patch hpatch x y hcovers => (hinside patch hpatch x y hcovers).2.2) hclear

end

end PCCEncoder

end V3C

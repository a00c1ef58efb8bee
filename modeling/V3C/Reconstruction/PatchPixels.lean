import V3C.Packing.AuxiliaryPlacement
import V3C.Packing.BlockOwnership
import V3C.Reconstruction.DifferentialMap

/-! The pixels that the loops over the patches of a canvas reach. -/
namespace V3C
open Codec

/-- The results of a loop that belong to different elements have different images. -/
theorem nodup_map_filterMap_of_mapM {α β γ : Type} {f : α → Option (Option β)} {g : β → γ}
    {l : List α} {bs : List (Option β)} (h : l.mapM f = some bs) (hl : l.Nodup)
    (hinj : ∀ a ∈ l, ∀ a' ∈ l, ∀ b b', f a = some (some b) → f a' = some (some b') →
      g b = g b' → a = a') : ((bs.filterMap id).map g).Nodup := by
  induction l generalizing bs with
  | nil =>
    obtain rfl : [] = bs := Option.some.inj h
    exact List.nodup_nil
  | cons c l ih =>
    obtain ⟨d, hd, h⟩ := Option.bind_eq_some_iff.mp (List.mapM_cons.symm.trans h)
    obtain ⟨ds, hds, h⟩ := Option.bind_eq_some_iff.mp h
    obtain rfl : d :: ds = bs := by simpa using h
    obtain ⟨hc, hl⟩ := List.nodup_cons.mp hl
    have hrest := ih hds hl fun a ha a' ha' =>
      hinj a (List.mem_cons_of_mem c ha) a' (List.mem_cons_of_mem c ha')
    cases d with
    | none => exact hrest
    | some b =>
      have hcons : (some b :: ds).filterMap id = b :: ds.filterMap id :=
        List.filterMap_cons_some rfl
      rw [hcons, List.map_cons, List.nodup_cons]
      refine ⟨fun hmem => ?_, hrest⟩
      obtain ⟨b', hb', hsame⟩ := List.mem_map.mp hmem
      obtain ⟨b'', hb'', hid⟩ := List.mem_filterMap.mp hb'
      obtain rfl : b'' = some b' := hid
      obtain ⟨a', ha', hfa'⟩ := exists_mem_of_mapM_eq_some hds hb''
      have := hinj c List.mem_cons_self a' (List.mem_cons_of_mem c ha') b b' hd hfa' hsame.symm
      exact hc (this ▸ ha')

theorem mem_patchSteps {resolution : ℕ} {patches : List PatchPlacement} {patch : PatchPlacement}
    {i u0 v0 u1 v1 : ℕ} :
    ((patch, i), (u0, v0), (u1, v1)) ∈ patchSteps resolution patches ↔
      patches[i]? = some patch ∧ (u0 < patch.sizeU0 ∧ v0 < patch.sizeV0) ∧
        u1 < resolution ∧ v1 < resolution := by
  unfold patchSteps
  constructor
  · intro h
    obtain ⟨⟨p, j⟩, hp, h⟩ := List.mem_flatMap.mp h
    obtain ⟨⟨a, b⟩, hblock, h⟩ := List.mem_flatMap.mp h
    obtain ⟨⟨c, d⟩, hpixel, h⟩ := List.mem_map.mp h
    cases h
    exact ⟨List.mem_zipIdx_iff_getElem?.mp hp, mem_grid.mp hblock, mem_grid.mp hpixel⟩
  · rintro ⟨hp, hblock, hpixel⟩
    exact List.mem_flatMap.mpr ⟨(patch, i), List.mem_zipIdx_iff_getElem?.mpr hp,
      List.mem_flatMap.mpr ⟨(u0, v0), mem_grid.mpr hblock,
        List.mem_map.mpr ⟨(u1, v1), mem_grid.mpr hpixel, rfl⟩⟩⟩

theorem nodup_patchSteps (resolution : ℕ) (patches : List PatchPlacement) :
    (patchSteps resolution patches).Nodup := by
  have hpatches : patches.zipIdx.Nodup := by
    apply List.Nodup.of_map Prod.snd
    rw [List.zipIdx_map_snd]
    exact List.nodup_range'
  unfold patchSteps
  refine List.nodup_flatMap.mpr ⟨fun patch _ => List.nodup_flatMap.mpr ⟨fun block _ => ?_, ?_⟩, ?_⟩
  · exact (nodup_grid _ _).map fun a b h => (Prod.mk.inj (Prod.mk.inj h).2).2
  · apply (nodup_grid _ _).imp
    intro a b hne step ha hb
    obtain ⟨pixel, -, rfl⟩ := List.mem_map.mp ha
    obtain ⟨pixel', -, h⟩ := List.mem_map.mp hb
    exact hne (Prod.mk.inj (Prod.mk.inj h).2).1.symm
  · apply hpatches.imp
    intro a b hne step ha hb
    obtain ⟨block, -, ha⟩ := List.mem_flatMap.mp ha
    obtain ⟨pixel, -, rfl⟩ := List.mem_map.mp ha
    obtain ⟨block', -, hb⟩ := List.mem_flatMap.mp hb
    obtain ⟨pixel', -, h⟩ := List.mem_map.mp hb
    exact hne (Prod.mk.inj h).1.symm

/-- Values that are close do not meet in `size_t`. -/
theorem toSizeT_inj {a b : ℤ} (hlow : -2 ^ 64 < a - b) (hhigh : a - b < 2 ^ 64)
    (h : toSizeT a = toSizeT b) : a = b := by
  unfold toSizeT at h
  omega

theorem toSizeT_add {n : ℤ} {k : ℕ} (h : toSizeT n + k < 2 ^ 64) :
    toSizeT (n + k) = toSizeT n + k := by
  unfold toSizeT at h ⊢
  omega

theorem PatchOrientation.turn_inj (orientation : PatchOrientation) {resolution u v u' v' : ℕ}
    (hu : u < resolution) (hv : v < resolution) (hu' : u' < resolution) (hv' : v' < resolution)
    (h : orientation.turn resolution u v = orientation.turn resolution u' v') :
    u = u' ∧ v = v' := by
  cases orientation <;>
  · obtain ⟨h₁, h₂⟩ := Prod.mk.inj h
    omega

/-- The sizes of a patch have type `size_t`. -/
def PatchPlacement.Sized (patch : PatchPlacement) : Prop :=
  patch.sizeU0 < 2 ^ 64 ∧ patch.sizeV0 < 2 ^ 64

theorem PatchPlacement.blockPosition_inj {patch : PatchPlacement} (hsized : patch.Sized)
    {u v u' v' : ℕ} (hu : u < patch.sizeU0) (hv : v < patch.sizeV0) (hu' : u' < patch.sizeU0)
    (hv' : v' < patch.sizeV0) {position : ℕ × ℕ} (h : patch.blockPosition u v = some position)
    (h' : patch.blockPosition u' v' = some position) : u = u' ∧ v = v' := by
  obtain ⟨hsizeU, hsizeV⟩ := hsized
  have heq := h.trans h'.symm
  unfold blockPosition at heq
  cases horientation : patch.patchOrientation with
  | other value =>
    unfold blockPosition at h
    rw [horientation] at h
    cases h
  | _ =>
    rw [horientation] at heq
    obtain ⟨hx, hy⟩ := Prod.mk.inj (Option.some.inj heq)
    have hx := toSizeT_inj (by omega) (by omega) hx
    have hy := toSizeT_inj (by omega) (by omega) hy
    omega

/-- A patch that lies some blocks further on its canvas. -/
def PatchPlacement.shift (patch : PatchPlacement) (right down : ℕ) : PatchPlacement :=
  { patch with u0 := patch.u0 + right, v0 := patch.v0 + down }

theorem PatchPlacement.blockPosition_shift {patch : PatchPlacement} {u v x y right down : ℕ}
    (h : patch.blockPosition u v = some (x, y)) (hx : x + right < 2 ^ 64)
    (hy : y + down < 2 ^ 64) :
    (patch.shift right down).blockPosition u v = some (x + right, y + down) := by
  unfold blockPosition at h ⊢
  unfold shift
  dsimp only
  cases horientation : patch.patchOrientation with
  | other value =>
    rw [horientation] at h
    cases h
  | _ =>
    rw [horientation] at h
    obtain ⟨rfl, rfl⟩ := Prod.mk.inj (Option.some.inj h)
    dsimp only
    rw [← toSizeT_add hx, ← toSizeT_add hy]
    push_cast
    simp only [add_assoc]

section

variable {area : TileArea} {resolution : ℕ} {blockToPatch occupancyMap : List ℕ}
  {patches : List PatchPlacement}

/-- A pixel in a block that belongs to its patch, at an occupied place of the canvas. -/
inductive Reached (area : TileArea) (resolution : ℕ) (blockToPatch occupancyMap : List ℕ)
    (patches : List PatchPlacement) : PatchPixel → Prop
  | mk {patch : PatchPlacement} {i u0 v0 u1 v1 x y a b occupancy : ℕ}
      (hpatch : patches[i]? = some patch) (hu0 : u0 < patch.sizeU0) (hv0 : v0 < patch.sizeV0)
      (hu1 : u1 < resolution) (hv1 : v1 < resolution)
      (hpos : patch.blockPosition u0 v0 = some (x, y))
      (hturn : patch.patchOrientation.turn resolution u1 v1 = (a, b))
      (howner : blockToPatch[x + area.width / resolution * y]? = some (i + 1))
      (hoccupancy : occupancyMap[(y * resolution + b) * area.width + (x * resolution + a)]? =
        some occupancy)
      (hoccupied : occupancy ≠ 0) :
      Reached area resolution blockToPatch occupancyMap patches
        ⟨i, u0 * resolution + u1, v0 * resolution + v1, x * resolution + a, y * resolution + b⟩

theorem patchPixel_eq (hresolution : 0 < resolution) {patch : PatchPlacement}
    {i u0 v0 u1 v1 x y a b owner occupancy : ℕ}
    (hpos : patch.blockPosition u0 v0 = some (x, y)) (hx : (x + 1) * resolution ≤ area.width)
    (hy : (y + 1) * resolution ≤ area.height)
    (hint : x + area.width / resolution * y < 2 ^ 31)
    (howner : blockToPatch[x + area.width / resolution * y]? = some owner)
    (hu1 : u1 < resolution) (hv1 : v1 < resolution)
    (hturn : patch.patchOrientation.turn resolution u1 v1 = (a, b))
    (hoccupancy : occupancyMap[(y * resolution + b) * area.width + (x * resolution + a)]? =
      some occupancy) :
    patchPixel resolution area.width area.height blockToPatch occupancyMap
        ((patch, i), (u0, v0), (u1, v1)) =
      some (if owner = i + 1 ∧ occupancy ≠ 0 then
        some ⟨i, u0 * resolution + u1, v0 * resolution + v1, x * resolution + a,
          y * resolution + b⟩
      else none) := by
  have hxlt := PCCCodec.lt_div_of_succ_mul_le hresolution hx
  have hylt := PCCCodec.lt_div_of_succ_mul_le hresolution hy
  obtain ⟨ha, hb⟩ := patch.patchOrientation.turn_lt hu1 hv1
  rw [hturn] at ha hb
  have hxin := PCCCodec.add_lt_of_succ_mul_le ha hx
  have hyin := PCCCodec.add_lt_of_succ_mul_le hb hy
  unfold patchPixel
  dsimp only
  rw [PackingPatch.patchBlock2CanvasBlock_eq hpos hxlt hylt hint, Option.bind_eq_bind,
    Option.bind_some, if_neg (not_lt.mpr (Int.natCast_nonneg _)), Int.toNat_natCast, howner,
    Option.bind_eq_bind, Option.bind_some]
  by_cases howned : owner = i + 1
  · rw [if_pos howned, PCCCodec.patch2Canvas_eq hpos hu1 hv1 hturn (hxin.trans area.width_lt)
      (hyin.trans area.height_lt), if_neg (by omega), Option.bind_eq_bind, Option.bind_some,
      hoccupancy, Option.bind_some]
    by_cases hoccupied : occupancy ≠ 0
    · rw [if_pos hoccupied, if_pos ⟨howned, hoccupied⟩]
    · rw [if_neg hoccupied, if_neg fun h => hoccupied h.2]
  · rw [if_neg howned, if_neg fun h => howned h.1]

/-- The parts of a place in blocks. -/
theorem block_and_rest {x a x' a' resolution : ℕ} (ha : a < resolution) (ha' : a' < resolution)
    (h : x * resolution + a = x' * resolution + a') : x = x' ∧ a = a' := by
  have hpos : 0 < resolution := by omega
  have hdiv := congrArg (· / resolution) h
  simp only [Nat.mul_comm _ resolution, Nat.mul_add_div hpos, Nat.div_eq_of_lt ha,
    Nat.div_eq_of_lt ha', Nat.add_zero] at hdiv
  subst hdiv
  exact ⟨rfl, Nat.add_left_cancel h⟩

section Steps

variable (hresolution : 0 < resolution)
  (hin : ∀ patch ∈ patches, InTile area resolution patch ∧ patch.Sized)
  (htable : blockToPatch.length = area.width / resolution * (area.height / resolution))
  (hmap : occupancyMap.length = area.width * area.height)

include hresolution hin htable hmap

/-- Every step has an outcome, at the place of its block and of its turned pixel. -/
theorem exists_stepOutcome {step : (PatchPlacement × ℕ) × (ℕ × ℕ) × ℕ × ℕ}
    (hmem : step ∈ patchSteps resolution patches) : ∃ x y a b owner occupancy,
      step.1.1.blockPosition step.2.1.1 step.2.1.2 = some (x, y) ∧
      step.1.1.patchOrientation.turn resolution step.2.2.1 step.2.2.2 = (a, b) ∧
      blockToPatch[x + area.width / resolution * y]? = some owner ∧
      occupancyMap[(y * resolution + b) * area.width + (x * resolution + a)]? =
        some occupancy ∧
      patchPixel resolution area.width area.height blockToPatch occupancyMap step =
        some (if owner = step.1.2 + 1 ∧ occupancy ≠ 0 then
          some ⟨step.1.2, step.2.1.1 * resolution + step.2.2.1,
            step.2.1.2 * resolution + step.2.2.2, x * resolution + a, y * resolution + b⟩
        else none) := by
  obtain ⟨⟨patch, i⟩, ⟨u0, v0⟩, ⟨u1, v1⟩⟩ := step
  obtain ⟨hpatch, ⟨hu0, hv0⟩, hu1, hv1⟩ := mem_patchSteps.mp hmem
  obtain ⟨x, y, hpos, hx, hy, hint⟩ :=
    (hin patch (List.mem_of_getElem? hpatch)).1 u0 hu0 v0 hv0
  obtain ⟨ha, hb⟩ := patch.patchOrientation.turn_lt hu1 hv1
  have hxlt := PCCCodec.lt_div_of_succ_mul_le hresolution hx
  have hylt := PCCCodec.lt_div_of_succ_mul_le hresolution hy
  have howner : x + area.width / resolution * y < blockToPatch.length := by
    rw [htable, Nat.mul_comm (area.width / resolution) y, Nat.add_comm]
    exact pixel_lt hxlt hylt
  have hoccupancy := pixel_lt (PCCCodec.add_lt_of_succ_mul_le ha hx)
    (PCCCodec.add_lt_of_succ_mul_le hb hy)
  rw [← hmap] at hoccupancy
  exact ⟨x, y, _, _, _, _, hpos, rfl, List.getElem?_eq_getElem howner,
    List.getElem?_eq_getElem hoccupancy, patchPixel_eq hresolution hpos hx hy hint
      (List.getElem?_eq_getElem howner) hu1 hv1 rfl (List.getElem?_eq_getElem hoccupancy)⟩

/-- The pixels of the steps are those that the patches have in their own blocks. -/
theorem exists_step_iff_reached {pixel : PatchPixel} :
    (∃ step ∈ patchSteps resolution patches,
      patchPixel resolution area.width area.height blockToPatch occupancyMap step =
        some (some pixel)) ↔ Reached area resolution blockToPatch occupancyMap patches pixel := by
  constructor
  · rintro ⟨⟨⟨patch, i⟩, ⟨u0, v0⟩, ⟨u1, v1⟩⟩, hmem, hpixel⟩
    obtain ⟨x, y, a, b, owner, occupancy, hpos, hturn, howner, hoccupancy, hpixel'⟩ :=
      exists_stepOutcome hresolution hin htable hmap hmem
    obtain ⟨hpatch, ⟨hu0, hv0⟩, hu1, hv1⟩ := mem_patchSteps.mp hmem
    rw [hpixel'] at hpixel
    split_ifs at hpixel with hreached
    · obtain rfl := Option.some.inj (Option.some.inj hpixel)
      rw [hreached.1] at howner
      exact ⟨hpatch, hu0, hv0, hu1, hv1, hpos, hturn, howner, hoccupancy, hreached.2⟩
    · cases Option.some.inj hpixel
  · rintro ⟨hpatch, hu0, hv0, hu1, hv1, hpos, hturn, howner, hoccupancy, hoccupied⟩
    have hmem := mem_patchSteps.mpr ⟨hpatch, ⟨hu0, hv0⟩, hu1, hv1⟩
    refine ⟨_, hmem, ?_⟩
    obtain ⟨x, y, a, b, owner, occupancy, hpos', hturn', howner', hoccupancy', hpixel⟩ :=
      exists_stepOutcome hresolution hin htable hmap hmem
    obtain ⟨rfl, rfl⟩ := Prod.mk.inj (Option.some.inj (hpos.symm.trans hpos'))
    obtain ⟨rfl, rfl⟩ := Prod.mk.inj (hturn.symm.trans hturn')
    obtain rfl := Option.some.inj (howner.symm.trans howner')
    obtain rfl := Option.some.inj (hoccupancy.symm.trans hoccupancy')
    rw [hpixel, if_pos ⟨rfl, hoccupied⟩]

/-- The place has the block, the block has the patch, and the patch has the pixel. -/
theorem step_eq_of_place {step step' : (PatchPlacement × ℕ) × (ℕ × ℕ) × ℕ × ℕ}
    (hmem : step ∈ patchSteps resolution patches) (hmem' : step' ∈ patchSteps resolution patches)
    {pixel pixel' : PatchPixel}
    (hpixel : patchPixel resolution area.width area.height blockToPatch occupancyMap step =
      some (some pixel))
    (hpixel' : patchPixel resolution area.width area.height blockToPatch occupancyMap step' =
      some (some pixel'))
    (hsame : (pixel.x, pixel.y) = (pixel'.x, pixel'.y)) : step = step' := by
  obtain ⟨⟨patch, i⟩, ⟨u0, v0⟩, ⟨u1, v1⟩⟩ := step
  obtain ⟨⟨patch', i'⟩, ⟨u0', v0'⟩, ⟨u1', v1'⟩⟩ := step'
  obtain ⟨x, y, a, b, owner, occupancy, hpos, hturn, howner, -, hstep₁⟩ :=
    exists_stepOutcome hresolution hin htable hmap hmem
  obtain ⟨x', y', a', b', owner', occupancy', hpos', hturn', howner', -, hstep₂⟩ :=
    exists_stepOutcome hresolution hin htable hmap hmem'
  obtain ⟨hpatch, ⟨hu0, hv0⟩, hu1, hv1⟩ := mem_patchSteps.mp hmem
  obtain ⟨hpatch', ⟨hu0', hv0'⟩, hu1', hv1'⟩ := mem_patchSteps.mp hmem'
  rw [hstep₁] at hpixel
  rw [hstep₂] at hpixel'
  dsimp only at hpos hturn hpos' hturn' hpixel hpixel'
  obtain ⟨ha, hb⟩ := patch.patchOrientation.turn_lt hu1 hv1
  obtain ⟨ha', hb'⟩ := patch'.patchOrientation.turn_lt hu1' hv1'
  rw [hturn] at ha hb
  rw [hturn'] at ha' hb'
  split_ifs at hpixel hpixel' with hreached hreached'
  · obtain rfl := Option.some.inj (Option.some.inj hpixel)
    obtain rfl := Option.some.inj (Option.some.inj hpixel')
    obtain ⟨hx, hy⟩ := Prod.mk.inj hsame
    obtain ⟨rfl, rfl⟩ := block_and_rest ha ha' hx
    obtain ⟨rfl, rfl⟩ := block_and_rest hb hb' hy
    obtain rfl := Option.some.inj (howner.symm.trans howner')
    obtain rfl : i = i' := Nat.succ.inj (hreached.1.symm.trans hreached'.1)
    obtain rfl := Option.some.inj (hpatch.symm.trans hpatch')
    have hsized := (hin patch (List.mem_of_getElem? hpatch)).2
    obtain ⟨rfl, rfl⟩ := patch.blockPosition_inj hsized hu0 hv0 hu0' hv0' hpos hpos'
    obtain ⟨rfl, rfl⟩ :=
      patch.patchOrientation.turn_inj hu1 hv1 hu1' hv1' (hturn.trans hturn'.symm)
    rfl
  all_goals cases Option.some.inj hpixel <;> cases Option.some.inj hpixel'

/-- The loops reach the pixels that the patches have in their own blocks, each place of the
canvas at most once. -/
theorem exists_patchPixels :
    ∃ pixels, patchPixels resolution area.width area.height blockToPatch occupancyMap patches =
        some pixels ∧
      (∀ pixel, pixel ∈ pixels ↔
        Reached area resolution blockToPatch occupancyMap patches pixel) ∧
      (pixels.map fun pixel => (pixel.x, pixel.y)).Nodup := by
  have hdefined : ∀ step ∈ patchSteps resolution patches, ∃ result,
      patchPixel resolution area.width area.height blockToPatch occupancyMap step = some result := by
    intro step hmem
    obtain ⟨x, y, a, b, owner, occupancy, -, -, -, -, hpixel⟩ :=
      exists_stepOutcome hresolution hin htable hmap hmem
    exact ⟨_, hpixel⟩
  obtain ⟨results, hresults⟩ := exists_mapM_eq_some hdefined
  refine ⟨results.filterMap id, ?_, ?_, ?_⟩
  · unfold patchPixels
    rw [hresults]
    rfl
  · intro pixel
    rw [← exists_step_iff_reached hresolution hin htable hmap, List.mem_filterMap]
    constructor
    · rintro ⟨result, hresult, hid⟩
      obtain rfl : result = some pixel := hid
      exact exists_mem_of_mapM_eq_some hresults hresult
    · rintro ⟨step, hmem, hpixel⟩
      exact ⟨some pixel, mem_of_mapM_eq_some hresults hmem hpixel, rfl⟩
  · apply nodup_map_filterMap_of_mapM hresults (nodup_patchSteps _ _)
    intro step hmem step' hmem' pixel pixel' hpixel hpixel' hsame
    exact step_eq_of_place hresolution hin htable hmap hmem hmem' hpixel hpixel' hsame

end Steps

end

end V3C

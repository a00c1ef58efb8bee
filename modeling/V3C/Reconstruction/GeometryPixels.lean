import V3C.Reconstruction.DifferentialRecovery
import V3C.Reconstruction.GeometryCoding

/-! The pixels that the patches of a tile draw, each at a place of its own. -/
namespace V3C
open Cells Codec

/-- A patch whose depths and coordinates fit into what carries them. -/
structure DepthPatch.Coded (resolution bits : ℕ) (patch : DepthPatch) : Prop where
  resolution_eq : patch.occupancyResolution = resolution
  bits_pos : 0 < bits
  columns : patch.sizeU ≤ patch.sizeU0 * resolution
  rows : patch.sizeV ≤ patch.sizeV0 * resolution
  length_eq : ∀ mapIndex, (patch.depth mapIndex).length = patch.sizeU * patch.sizeV
  both : ∀ pixel d d', patch.getDepth 0 pixel = some d → patch.getDepth 1 pixel = some d' →
    (d < infiniteDepth ↔ d' < infiniteDepth)
  bounded : ∀ mapIndex, ∀ d ∈ patch.depth mapIndex, d < infiniteDepth → 0 ≤ d ∧ d < 2 ^ bits
  axes : patch.normalAxis < 3 ∧ patch.tangentAxis < 3 ∧ patch.bitangentAxis < 3
  normal : patch.d1 + 2 ^ bits ≤ 2 ^ 15
  tangent : ∀ u < patch.sizeU0 * resolution, u * patch.levelOfDetailX + patch.u1 < 2 ^ 15
  bitangent : ∀ v < patch.sizeV0 * resolution, v * patch.levelOfDetailY + patch.v1 < 2 ^ 15

def DepthPatch.HasDepth (patch : DepthPatch) (u v : ℕ) : Prop :=
  u < patch.sizeU ∧ v < patch.sizeV ∧ ∃ d, patch.getDepth 0 (u, v) = some d ∧ d < infiniteDepth

/-- The tile holds its patches, and no patch lies over a block in which an earlier one has a
depth. -/
structure GeometryTile.Coded (resolution : ℕ) (tile : GeometryTile) : Prop where
  patches : ∀ patch ∈ tile.patches, patch.Coded resolution tile.geometry2dBitdepth ∧
    InTile tile.toTileArea resolution patch.toPatchPlacement ∧ patch.toPatchPlacement.Sized
  apart : tile.patches.Pairwise fun earlier later => ∀ u v x y, earlier.HasDepth u v →
    earlier.blockPosition (u / resolution : ℕ) (v / resolution : ℕ) = some (x, y) →
      ¬PackingPatch.Covers later.toPatchPlacement x y

/-- A pixel with a depth, at its place in the tile. -/
inductive Drawn (tile : GeometryTile) (resolution : ℕ) : PatchPixel → Prop
  | mk {patch : DepthPatch} {i u v x y a b : ℕ} (hpatch : tile.patches[i]? = some patch)
      (hdepth : patch.HasDepth u v)
      (hpos : patch.blockPosition (u / resolution : ℕ) (v / resolution : ℕ) = some (x, y))
      (hturn : patch.patchOrientation.turn resolution (u % resolution) (v % resolution) = (a, b)) :
      Drawn tile resolution ⟨i, u, v, x * resolution + a, y * resolution + b⟩

section

variable {tile : GeometryTile} {resolution : ℕ}

theorem mem_depthSteps {patch : DepthPatch} {i u v : ℕ} :
    ((patch, i), (u, v)) ∈ PCCEncoder.depthSteps tile ↔
      tile.patches[i]? = some patch ∧ u < patch.sizeU ∧ v < patch.sizeV := by
  unfold PCCEncoder.depthSteps
  rw [List.mem_flatMap]
  constructor
  · intro h
    obtain ⟨⟨p, j⟩, hp, h⟩ := h
    obtain ⟨pixel, hpixel, h⟩ := List.mem_map.mp h
    cases h
    exact ⟨List.mem_zipIdx_iff_getElem?.mp hp, mem_grid.mp hpixel⟩
  · intro h
    exact ⟨(patch, i), List.mem_zipIdx_iff_getElem?.mpr h.1,
      List.mem_map.mpr ⟨(u, v), mem_grid.mpr h.2, rfl⟩⟩

theorem nodup_depthSteps (tile : GeometryTile) : (PCCEncoder.depthSteps tile).Nodup := by
  have hpatches : tile.patches.zipIdx.Nodup := by
    apply List.Nodup.of_map Prod.snd
    rw [List.zipIdx_map_snd]
    exact List.nodup_range'
  unfold PCCEncoder.depthSteps
  refine List.nodup_flatMap.mpr ⟨fun patch _ => ?_, ?_⟩
  · exact (nodup_grid _ _).map fun a b h => (Prod.mk.inj h).2
  · apply hpatches.imp
    intro a b hne step ha hb
    obtain ⟨pixel, -, rfl⟩ := List.mem_map.mp ha
    obtain ⟨pixel', -, h⟩ := List.mem_map.mp hb
    exact hne (Prod.mk.inj h).1.symm

theorem DepthPatch.Coded.exists_depth {bits : ℕ} {patch : DepthPatch}
    (h : patch.Coded resolution bits) (mapIndex : Fin 2) {u v : ℕ} (hu : u < patch.sizeU)
    (hv : v < patch.sizeV) : ∃ d, patch.getDepth mapIndex (u, v) = some d := by
  have hlt : v * patch.sizeU + u < (patch.depth mapIndex).length := by
    rw [h.length_eq]
    exact pixel_lt hu hv
  exact ⟨_, List.getElem?_eq_getElem hlt⟩

/-- The place of a pixel of a patch, inside the rectangle of one of its blocks. -/
theorem GeometryTile.Coded.exists_place (hresolution : 0 < resolution)
    (h : tile.Coded resolution) {patch : DepthPatch} (hpatch : patch ∈ tile.patches) {u v : ℕ}
    (hu : u < patch.sizeU0 * resolution) (hv : v < patch.sizeV0 * resolution) :
    ∃ x y, patch.blockPosition (u / resolution : ℕ) (v / resolution : ℕ) = some (x, y) ∧
      (x + 1) * resolution ≤ tile.width ∧ (y + 1) * resolution ≤ tile.height ∧
      ∀ a b, patch.patchOrientation.turn resolution (u % resolution) (v % resolution) = (a, b) →
        a < resolution ∧ b < resolution ∧
        patch.patch2Canvas patch.occupancyResolution u v tile.width tile.height =
          some (x * resolution + a, y * resolution + b) := by
  obtain ⟨hcoded, hin, -⟩ := h.patches patch hpatch
  obtain ⟨x, y, hpos, hx, hy, -⟩ := hin (u / resolution) (Nat.div_lt_of_lt_mul (by
    rwa [Nat.mul_comm])) (v / resolution) (Nat.div_lt_of_lt_mul (by rwa [Nat.mul_comm]))
  refine ⟨x, y, hpos, hx, hy, fun a b hturn => ?_⟩
  have hu1 := Nat.mod_lt u hresolution
  have hv1 := Nat.mod_lt v hresolution
  obtain ⟨ha, hb⟩ := patch.patchOrientation.turn_lt hu1 hv1
  rw [hturn] at ha hb
  have hxin := PCCCodec.add_lt_of_succ_mul_le ha hx
  have hyin := PCCCodec.add_lt_of_succ_mul_le hb hy
  refine ⟨ha, hb, ?_⟩
  have hplace := @PCCCodec.patch2Canvas_eq tile.toTileArea _ _ _ _ _ _ _ _ _ _ hpos hu1 hv1 hturn
    (hxin.trans tile.width_lt) (hyin.trans tile.height_lt)
  rw [Nat.div_add_mod', Nat.div_add_mod', if_neg (by omega)] at hplace
  rw [hcoded.resolution_eq]
  exact hplace

/-- The pixel that a step draws. -/
def drawnPixel (tile : GeometryTile) (step : (DepthPatch × ℕ) × ℕ × ℕ) : Option PatchPixel :=
  ((PCCEncoder.depthPixel tile 0 step).bind id).map Prod.fst

def drawnPixels (tile : GeometryTile) : List PatchPixel :=
  (PCCEncoder.depthSteps tile).filterMap (drawnPixel tile)

/-- The depth of a pixel in a map. -/
def depthOf (tile : GeometryTile) (mapIndex : Fin 2) (pixel : PatchPixel) : ℤ :=
  (tile.patches[pixel.patchIndex]?.bind fun patch =>
    patch.getDepth mapIndex (pixel.u, pixel.v)).getD 0

theorem depthOf_eq {patch : DepthPatch} {mapIndex : Fin 2} {pixel : PatchPixel} {d : ℤ}
    (hpatch : tile.patches[pixel.patchIndex]? = some patch)
    (hd : patch.getDepth mapIndex (pixel.u, pixel.v) = some d) :
    depthOf tile mapIndex pixel = d := by
  unfold depthOf
  rw [hpatch, Option.bind_some, hd]
  rfl

theorem GeometryTile.Coded.exists_step (hresolution : 0 < resolution) (h : tile.Coded resolution)
    {patch : DepthPatch} {i u v : ℕ} (hstep : ((patch, i), (u, v)) ∈ PCCEncoder.depthSteps tile) :
    ∃ x y a b, patch.blockPosition (u / resolution : ℕ) (v / resolution : ℕ) = some (x, y) ∧
      patch.patchOrientation.turn resolution (u % resolution) (v % resolution) = (a, b) ∧
      ∀ mapIndex, ∃ d, patch.getDepth mapIndex (u, v) = some d ∧
        PCCEncoder.depthPixel tile mapIndex ((patch, i), (u, v)) =
          some (if d < infiniteDepth then
            some (⟨i, u, v, x * resolution + a, y * resolution + b⟩, d) else none) := by
  obtain ⟨hpatch, hu, hv⟩ := mem_depthSteps.mp hstep
  have hmem := List.mem_of_getElem? hpatch
  have hcoded := (h.patches patch hmem).1
  obtain ⟨x, y, hpos, -, -, hplace⟩ := h.exists_place hresolution hmem
    (hu.trans_le hcoded.columns) (hv.trans_le hcoded.rows)
  refine ⟨x, y, _, _, hpos, rfl, fun mapIndex => ?_⟩
  obtain ⟨d, hd⟩ := hcoded.exists_depth mapIndex hu hv
  obtain ⟨-, -, hcanvas⟩ := hplace _ _ rfl
  refine ⟨d, hd, ?_⟩
  unfold PCCEncoder.depthPixel
  dsimp only
  rw [hd, Option.bind_eq_bind, Option.bind_some]
  split_ifs with hfinite
  · rw [hcanvas]
    rfl
  · rfl

/-- Every map draws the same pixels. -/
theorem GeometryTile.Coded.depthPixel_eq (hresolution : 0 < resolution)
    (h : tile.Coded resolution) (mapIndex : Fin 2) {step : (DepthPatch × ℕ) × ℕ × ℕ}
    (hstep : step ∈ PCCEncoder.depthSteps tile) :
    PCCEncoder.depthPixel tile mapIndex step =
      some ((drawnPixel tile step).map fun pixel => (pixel, depthOf tile mapIndex pixel)) := by
  obtain ⟨⟨patch, i⟩, u, v⟩ := step
  obtain ⟨hpatch, hu, hv⟩ := mem_depthSteps.mp hstep
  have hcoded := (h.patches patch (List.mem_of_getElem? hpatch)).1
  obtain ⟨x, y, a, b, -, -, hmaps⟩ := h.exists_step hresolution hstep
  obtain ⟨d0, hd0, hpixel0⟩ := hmaps 0
  obtain ⟨d1, hd1, -⟩ := hmaps 1
  obtain ⟨d, hd, hpixel⟩ := hmaps mapIndex
  have hboth : d < infiniteDepth ↔ d0 < infiniteDepth := by
    match mapIndex with
    | 0 => rw [Option.some.inj (hd.symm.trans hd0)]
    | 1 => rw [Option.some.inj (hd.symm.trans hd1), hcoded.both (u, v) d0 d1 hd0 hd1]
  unfold drawnPixel
  rw [hpixel, hpixel0]
  by_cases hfinite : d0 < infiniteDepth
  · rw [if_pos hfinite, if_pos (hboth.mpr hfinite)]
    simp only [Option.bind_some, id_eq, Option.map_some]
    rw [depthOf_eq hpatch hd]
  · rw [if_neg hfinite, if_neg (mt hboth.mp hfinite)]
    rfl

theorem GeometryTile.Coded.depthPixels_eq (hresolution : 0 < resolution)
    (h : tile.Coded resolution) (mapIndex : Fin 2) :
    PCCEncoder.depthPixels tile mapIndex =
      some ((drawnPixels tile).map fun pixel => (pixel, depthOf tile mapIndex pixel)) := by
  unfold PCCEncoder.depthPixels drawnPixels
  rw [mapM_eq_some_map fun step hstep => h.depthPixel_eq hresolution mapIndex hstep]
  simp only [Option.bind_eq_bind, Option.bind_some, List.filterMap_map, List.map_filterMap]
  rfl

/-- The pixel of a step has its patch and its coordinates there. -/
theorem GeometryTile.Coded.drawnPixel_spec (hresolution : 0 < resolution)
    (h : tile.Coded resolution) {patch : DepthPatch} {i u v : ℕ}
    (hstep : ((patch, i), (u, v)) ∈ PCCEncoder.depthSteps tile) :
    (∀ pixel, drawnPixel tile ((patch, i), (u, v)) = some pixel →
      Drawn tile resolution pixel ∧ pixel.patchIndex = i ∧ pixel.u = u ∧ pixel.v = v) ∧
    (patch.HasDepth u v → ∃ pixel, drawnPixel tile ((patch, i), (u, v)) = some pixel) := by
  obtain ⟨hpatch, hu, hv⟩ := mem_depthSteps.mp hstep
  obtain ⟨x, y, a, b, hpos, hturn, hmaps⟩ := h.exists_step hresolution hstep
  obtain ⟨d, hd, hpixel⟩ := hmaps 0
  unfold drawnPixel
  rw [hpixel]
  refine ⟨fun pixel hsome => ?_, fun hdepth => ?_⟩
  · split_ifs at hsome with hfinite
    · obtain rfl := Option.some.inj hsome
      exact ⟨Drawn.mk hpatch ⟨hu, hv, d, hd, hfinite⟩ hpos hturn, rfl, rfl, rfl⟩
    · cases hsome
  · obtain ⟨-, -, d', hd', hfinite⟩ := hdepth
    obtain rfl := Option.some.inj (hd.symm.trans hd')
    rw [if_pos hfinite]
    exact ⟨_, rfl⟩

/-- A place belongs to one pixel only. -/
theorem Drawn.place_inj (h : tile.Coded resolution) (hresolution : 0 < resolution)
    {pixel pixel' : PatchPixel} (hpixel : Drawn tile resolution pixel)
    (hpixel' : Drawn tile resolution pixel') (hx : pixel.x = pixel'.x)
    (hy : pixel.y = pixel'.y) : pixel = pixel' := by
  cases hpixel with
  | @mk patch i u v x y a b hpatch hdepth hpos hturn =>
  cases hpixel' with
  | @mk patch' i' u' v' x' y' a' b' hpatch' hdepth' hpos' hturn' =>
    have hmem := List.mem_of_getElem? hpatch
    have hmem' := List.mem_of_getElem? hpatch'
    obtain ⟨hcoded, -, hsized⟩ := h.patches patch hmem
    have hcoded' := (h.patches patch' hmem').1
    have hu := Nat.div_lt_of_lt_mul (Nat.mul_comm _ _ ▸ hdepth.1.trans_le hcoded.columns)
    have hv := Nat.div_lt_of_lt_mul (Nat.mul_comm _ _ ▸ hdepth.2.1.trans_le hcoded.rows)
    have hu' := Nat.div_lt_of_lt_mul (Nat.mul_comm _ _ ▸ hdepth'.1.trans_le hcoded'.columns)
    have hv' := Nat.div_lt_of_lt_mul (Nat.mul_comm _ _ ▸ hdepth'.2.1.trans_le hcoded'.rows)
    obtain ⟨ha, hb⟩ := patch.patchOrientation.turn_lt (Nat.mod_lt u hresolution)
      (Nat.mod_lt v hresolution)
    obtain ⟨ha', hb'⟩ := patch'.patchOrientation.turn_lt (Nat.mod_lt u' hresolution)
      (Nat.mod_lt v' hresolution)
    rw [hturn] at ha hb
    rw [hturn'] at ha' hb'
    obtain ⟨rfl, rfl⟩ := block_and_rest ha ha' hx
    obtain ⟨rfl, rfl⟩ := block_and_rest hb hb' hy
    obtain ⟨hi, rfl⟩ := List.getElem?_eq_some_iff.mp hpatch
    obtain ⟨hi', rfl⟩ := List.getElem?_eq_some_iff.mp hpatch'
    rcases Nat.lt_trichotomy i i' with hlt | rfl | hlt
    · exact absurd ⟨_, hu', _, hv', hpos'⟩
        (List.pairwise_iff_getElem.mp h.apart i i' hi hi' hlt u v x y hdepth hpos)
    · obtain ⟨hblockU, hblockV⟩ := PatchPlacement.blockPosition_inj hsized hu hv hu' hv' hpos hpos'
      obtain ⟨hrestU, hrestV⟩ := PatchOrientation.turn_inj _ (Nat.mod_lt u hresolution)
        (Nat.mod_lt v hresolution) (Nat.mod_lt u' hresolution) (Nat.mod_lt v' hresolution)
        (hturn.trans hturn'.symm)
      rw [← Nat.div_add_mod' u resolution, ← Nat.div_add_mod' v resolution, hblockU, hblockV,
        hrestU, hrestV, Nat.div_add_mod', Nat.div_add_mod']
    · exact absurd ⟨_, hu, _, hv, hpos⟩
        (List.pairwise_iff_getElem.mp h.apart i' i hi' hi hlt u' v' x y hdepth' hpos')

theorem mem_drawnPixels (hresolution : 0 < resolution) (h : tile.Coded resolution)
    {pixel : PatchPixel} : pixel ∈ drawnPixels tile ↔ Drawn tile resolution pixel := by
  unfold drawnPixels
  rw [List.mem_filterMap]
  constructor
  · intro hdrawn
    obtain ⟨⟨⟨patch, i⟩, u, v⟩, hstep, hpixel⟩ := hdrawn
    exact ((h.drawnPixel_spec hresolution hstep).1 pixel hpixel).1
  · intro hdrawn
    cases hdrawn with
    | @mk patch i u v x y a b hpatch hdepth hpos hturn =>
      have hstep := mem_depthSteps.mpr ⟨hpatch, hdepth.1, hdepth.2.1⟩
      obtain ⟨x', y', a', b', hpos', hturn', hmaps⟩ := h.exists_step hresolution hstep
      obtain ⟨rfl, rfl⟩ := Prod.mk.inj (Option.some.inj (hpos.symm.trans hpos'))
      obtain ⟨rfl, rfl⟩ := Prod.mk.inj (hturn.symm.trans hturn')
      obtain ⟨d, hd, hpixel⟩ := hmaps 0
      obtain ⟨-, -, d', hd', hfinite⟩ := hdepth
      obtain rfl := Option.some.inj (hd.symm.trans hd')
      refine ⟨_, hstep, ?_⟩
      unfold drawnPixel
      rw [hpixel, if_pos hfinite]
      rfl

theorem nodup_drawnPixels (hresolution : 0 < resolution) (h : tile.Coded resolution) :
    ((drawnPixels tile).map fun pixel => (pixel.x, pixel.y)).Nodup := by
  have hpixels : (drawnPixels tile).Nodup := by
    have hresults := mapM_eq_some_map fun step hstep => h.depthPixel_eq hresolution 0 hstep
    have hnodup := nodup_map_filterMap_of_mapM (g := Prod.fst) hresults (nodup_depthSteps tile) (by
      intro step hstep step' hstep' result result' hresult hresult' hsame
      obtain ⟨⟨patch, i⟩, u, v⟩ := step
      obtain ⟨⟨patch', i'⟩, u', v'⟩ := step'
      rw [h.depthPixel_eq hresolution 0 hstep] at hresult
      rw [h.depthPixel_eq hresolution 0 hstep'] at hresult'
      obtain ⟨pixel, hpixel, rfl⟩ := Option.map_eq_some_iff.mp (Option.some.inj hresult)
      obtain ⟨pixel', hpixel', rfl⟩ := Option.map_eq_some_iff.mp (Option.some.inj hresult')
      obtain rfl : pixel = pixel' := hsame
      obtain ⟨-, rfl, rfl, rfl⟩ := (h.drawnPixel_spec hresolution hstep).1 pixel hpixel
      obtain ⟨-, hi, hu, hv⟩ := (h.drawnPixel_spec hresolution hstep').1 pixel hpixel'
      obtain rfl := hi
      obtain rfl := hu
      obtain rfl := hv
      obtain rfl := Option.some.inj
        ((mem_depthSteps.mp hstep).1.symm.trans (mem_depthSteps.mp hstep').1)
      rfl)
    simp only [List.filterMap_map, List.map_filterMap, Function.comp_def, id_eq, Option.map_map,
      Option.map_id'] at hnodup
    exact hnodup
  refine hpixels.map_on fun pixel hpixel pixel' hpixel' hsame => ?_
  obtain ⟨hx, hy⟩ := Prod.mk.inj hsame
  exact Drawn.place_inj h hresolution ((mem_drawnPixels hresolution h).mp hpixel)
    ((mem_drawnPixels hresolution h).mp hpixel') hx hy

/-- What is known of a pixel with a depth: its patch, its depths and its place. -/
theorem Drawn.spec (hresolution : 0 < resolution) (h : tile.Coded resolution)
    {pixel : PatchPixel} (hdrawn : Drawn tile resolution pixel) :
    (pixel.x < tile.width ∧ pixel.y < tile.height) ∧
      (pixel.x < tile.width / resolution * resolution ∧
        pixel.y < tile.height / resolution * resolution) ∧
      ∃ patch, tile.patches[pixel.patchIndex]? = some patch ∧
        patch.Coded resolution tile.geometry2dBitdepth ∧ patch.HasDepth pixel.u pixel.v ∧
        ∀ mapIndex, patch.getDepth mapIndex (pixel.u, pixel.v) =
            some (depthOf tile mapIndex pixel) ∧
          0 ≤ depthOf tile mapIndex pixel ∧
          depthOf tile mapIndex pixel < 2 ^ tile.geometry2dBitdepth := by
  cases hdrawn with
  | @mk patch i u v x y a b hpatch hdepth hpos hturn =>
    have hmem := List.mem_of_getElem? hpatch
    have hcoded := (h.patches patch hmem).1
    obtain ⟨x', y', hpos', hx, hy, hplace⟩ := h.exists_place hresolution hmem
      (hdepth.1.trans_le hcoded.columns) (hdepth.2.1.trans_le hcoded.rows)
    obtain ⟨rfl, rfl⟩ := Prod.mk.inj (Option.some.inj (hpos.symm.trans hpos'))
    obtain ⟨ha, hb, -⟩ := hplace a b hturn
    have hxblock := PCCCodec.lt_div_of_succ_mul_le hresolution hx
    have hyblock := PCCCodec.lt_div_of_succ_mul_le hresolution hy
    refine ⟨⟨PCCCodec.add_lt_of_succ_mul_le ha hx, PCCCodec.add_lt_of_succ_mul_le hb hy⟩,
      ⟨PCCCodec.add_lt_of_succ_mul_le ha (Nat.mul_le_mul_right _ hxblock),
        PCCCodec.add_lt_of_succ_mul_le hb (Nat.mul_le_mul_right _ hyblock)⟩,
      patch, hpatch, hcoded, hdepth, fun mapIndex => ?_⟩
    obtain ⟨d, hd⟩ := hcoded.exists_depth mapIndex hdepth.1 hdepth.2.1
    have hfinite : d < infiniteDepth := by
      obtain ⟨-, -, d0, hd0, hfinite⟩ := hdepth
      match mapIndex with
      | 0 => rwa [Option.some.inj (hd.symm.trans hd0)]
      | 1 => exact (hcoded.both (u, v) d0 d hd0 hd).mp hfinite
    rw [depthOf_eq hpatch hd]
    exact ⟨hd, hcoded.bounded mapIndex d (List.mem_of_getElem? hd) hfinite⟩

end

end V3C

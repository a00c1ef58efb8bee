import Mathlib.Data.Int.ModEq
import Mathlib.Data.List.Induction
import Mathlib.Tactic.Ring
import V3C.Packing.BlockToPatch
import V3C.Packing.WideCanvas

/-! The patch that an occupied block of a tile is assigned to. -/
namespace V3C
open Codec

/-- The position that a turn gives to a point of a block. -/
def PatchOrientation.turn (orientation : PatchOrientation) (resolution u1 v1 : ℕ) : ℕ × ℕ :=
  match orientation with
  | .default | .other _ => (u1, v1)
  | .rot90 => (resolution - 1 - v1, u1)
  | .rot180 => (resolution - 1 - u1, resolution - 1 - v1)
  | .rot270 => (v1, resolution - 1 - u1)
  | .mirror => (resolution - 1 - u1, v1)
  | .mrot90 => (resolution - 1 - v1, resolution - 1 - u1)
  | .mrot180 => (u1, resolution - 1 - v1)
  | .mrot270 | .swap => (v1, u1)

theorem PatchOrientation.turn_lt (orientation : PatchOrientation) {resolution u1 v1 : ℕ}
    (hu : u1 < resolution) (hv : v1 < resolution) :
    (orientation.turn resolution u1 v1).1 < resolution ∧
      (orientation.turn resolution u1 v1).2 < resolution := by
  cases orientation <;> exact ⟨by simp only [turn]; omega, by simp only [turn]; omega⟩

/-- Every point of the turned block is the position of one. -/
theorem PatchOrientation.exists_turn (orientation : PatchOrientation) {resolution a b : ℕ}
    (ha : a < resolution) (hb : b < resolution) :
    ∃ u1 < resolution, ∃ v1 < resolution, orientation.turn resolution u1 v1 = (a, b) := by
  cases orientation with
  | default | other _ => exact ⟨a, ha, b, hb, rfl⟩
  | rot90 =>
    refine ⟨b, hb, resolution - 1 - a, by omega, Prod.ext ?_ rfl⟩
    simp only [turn]
    omega
  | rot180 =>
    refine ⟨resolution - 1 - a, by omega, resolution - 1 - b, by omega, Prod.ext ?_ ?_⟩ <;>
    · simp only [turn]
      omega
  | rot270 =>
    refine ⟨resolution - 1 - b, by omega, a, ha, Prod.ext rfl ?_⟩
    simp only [turn]
    omega
  | mirror =>
    refine ⟨resolution - 1 - a, by omega, b, hb, Prod.ext ?_ rfl⟩
    simp only [turn]
    omega
  | mrot90 =>
    refine ⟨resolution - 1 - b, by omega, resolution - 1 - a, by omega, Prod.ext ?_ ?_⟩ <;>
    · simp only [turn]
      omega
  | mrot180 =>
    refine ⟨a, ha, resolution - 1 - b, by omega, Prod.ext rfl ?_⟩
    simp only [turn]
    omega
  | mrot270 | swap => exact ⟨b, hb, a, ha, rfl⟩

/-- A pixel of a block, where the block is known in `size_t`. -/
theorem toSizeT_block {block : ℤ} {x resolution a : ℕ} (hx : toSizeT block = x)
    (hlt : x * resolution + a < 2 ^ 64) : toSizeT (block * resolution + a) = x * resolution + a := by
  have hmod : block * resolution + a ≡ ((x * resolution + a : ℕ) : ℤ) [ZMOD 2 ^ 64] := by
    have hblock : block ≡ x [ZMOD 2 ^ 64] := by
      unfold toSizeT at hx
      unfold Int.ModEq
      omega
    push_cast
    exact (hblock.mul_right _).add_right _
  unfold toSizeT
  rw [hmod, Int.emod_eq_of_lt (Int.natCast_nonneg _) (by exact_mod_cast hlt), Int.toNat_natCast]

namespace PatchPlacement

variable {patch : PatchPlacement} {resolution u v x y u1 v1 : ℕ}

/-- The pixels of a block lie in the block of the canvas, turned. -/
theorem pixelPosition_eq (hpos : patch.blockPosition u v = some (x, y)) (hu : u1 < resolution)
    (hv : v1 < resolution) {a b : ℕ}
    (hturn : patch.patchOrientation.turn resolution u1 v1 = (a, b))
    (hx : x * resolution + a < 2 ^ 64) (hy : y * resolution + b < 2 ^ 64) :
    patch.pixelPosition resolution (u * resolution + u1) (v * resolution + v1) =
      some (x * resolution + a, y * resolution + b) := by
  unfold blockPosition at hpos
  unfold pixelPosition
  cases horientation : patch.patchOrientation with
  | other value =>
    rw [horientation] at hpos
    cases hpos
  | _ =>
    rw [horientation] at hpos hturn
    obtain ⟨hposX, hposY⟩ := Prod.mk.inj (Option.some.inj hpos)
    obtain ⟨hturnX, hturnY⟩ := Prod.mk.inj hturn
    have hu' : ((resolution - 1 - u1 : ℕ) : ℤ) = resolution - 1 - u1 := by omega
    have hv' : ((resolution - 1 - v1 : ℕ) : ℤ) = resolution - 1 - v1 := by omega
    rw [← toSizeT_block hposX hx, ← toSizeT_block hposY hy, ← hturnX, ← hturnY]
    simp only [Option.some.injEq, Prod.mk.injEq]
    constructor <;>
    · apply congrArg toSizeT
      push_cast [hu', hv']
      ring

theorem pixelPosition_eq_none {uBlk vBlk : ℤ} (hpos : patch.blockPosition uBlk vBlk = none) :
    patch.pixelPosition resolution u v = none := by
  unfold blockPosition at hpos
  unfold pixelPosition
  cases horientation : patch.patchOrientation with
  | other value => rfl
  | _ =>
    rw [horientation] at hpos
    cases hpos

end PatchPlacement

/-- The tile holds all blocks of a patch, and their indices are an `int`. -/
def InTile (area : TileArea) (resolution : ℕ) (patch : PatchPlacement) : Prop :=
  ∀ u < patch.sizeU0, ∀ v < patch.sizeV0, ∃ x y, patch.blockPosition u v = some (x, y) ∧
    (x + 1) * resolution ≤ area.width ∧ (y + 1) * resolution ≤ area.height ∧
      x + area.width / resolution * y < 2 ^ 31

section

variable {area : TileArea} {resolution precision : ℕ} {image : ℕ → ℕ → ℕ}

/-- The video has an occupied sample in a block of the tile. -/
def Lit (area : TileArea) (resolution precision : ℕ) (image : ℕ → ℕ → ℕ) (x y : ℕ) : Prop :=
  ∃ a < resolution, ∃ b < resolution,
    image ((x * resolution + a + area.leftTopX) / precision)
      ((y * resolution + b + area.leftTopY) / precision) ≠ 0

namespace PCCCodec

theorem add_lt_of_succ_mul_le {x a n width : ℕ} (ha : a < n) (h : (x + 1) * n ≤ width) :
    x * n + a < width := by
  rw [Nat.succ_mul] at h
  omega

theorem patch2Canvas_eq {patch : PatchPlacement} {u v x y u1 v1 a b : ℕ}
    (hpos : patch.blockPosition u v = some (x, y)) (hu : u1 < resolution) (hv : v1 < resolution)
    (hturn : patch.patchOrientation.turn resolution u1 v1 = (a, b))
    (hx : x * resolution + a < 2 ^ 64) (hy : y * resolution + b < 2 ^ 64) :
    patch.patch2Canvas resolution (u * resolution + u1) (v * resolution + v1) area.width
      area.height =
      if x * resolution + a ≥ area.width ∨ y * resolution + b ≥ area.height then none
      else some (x * resolution + a, y * resolution + b) := by
  unfold PatchPlacement.patch2Canvas
  rw [PatchPlacement.pixelPosition_eq hpos hu hv hturn hx hy]
  rfl

/-- A block in the tile has occupied samples where the video has. -/
theorem nonZeroPixel_spec (image : ℕ → ℕ → ℕ) (hprecision : 0 < precision) {patch : PatchPlacement} {u v x y : ℕ}
    (hpos : patch.blockPosition u v = some (x, y)) (hx : (x + 1) * resolution ≤ area.width)
    (hy : (y + 1) * resolution ≤ area.height) :
    ∃ n, nonZeroPixel area resolution precision image patch (u, v) = some n ∧
      (0 < n ↔ Lit area resolution precision image x y) := by
  have hsamples : (grid resolution resolution).mapM (fun p => do
      let place ← patch.patch2Canvas resolution (u * resolution + p.1) (v * resolution + p.2)
        area.width area.height
      some (image ((place.1 + area.leftTopX) / precision)
        ((place.2 + area.leftTopY) / precision))) =
      some ((grid resolution resolution).map fun p =>
        image ((x * resolution + (patch.patchOrientation.turn resolution p.1 p.2).1 +
            area.leftTopX) / precision)
          ((y * resolution + (patch.patchOrientation.turn resolution p.1 p.2).2 +
            area.leftTopY) / precision)) := by
    apply mapM_eq_some_map
    rintro ⟨u1, v1⟩ hmem
    obtain ⟨hu, hv⟩ := mem_grid.mp hmem
    obtain ⟨ha, hb⟩ := patch.patchOrientation.turn_lt hu hv
    rcases hturn : patch.patchOrientation.turn resolution u1 v1 with ⟨a, b⟩
    rw [hturn] at ha hb
    have hxin := add_lt_of_succ_mul_le ha hx
    have hyin := add_lt_of_succ_mul_le hb hy
    dsimp only
    rw [patch2Canvas_eq hpos hu hv hturn (hxin.trans area.width_lt) (hyin.trans area.height_lt),
      if_neg (by omega)]
    rfl
  apply Exists.intro
  constructor
  · unfold nonZeroPixel
    rw [if_neg hprecision.ne']
    exact Option.bind_eq_some_iff.mpr ⟨_, hsamples, rfl⟩
  · rw [List.countP_pos_iff]
    constructor
    · rintro ⟨sample, hsample, hnonzero⟩
      obtain ⟨⟨u1, v1⟩, hmem, rfl⟩ := List.mem_map.mp hsample
      obtain ⟨hu, hv⟩ := mem_grid.mp hmem
      obtain ⟨ha, hb⟩ := patch.patchOrientation.turn_lt hu hv
      exact ⟨_, ha, _, hb, by simpa using hnonzero⟩
    · rintro ⟨a, ha, b, hb, hnonzero⟩
      obtain ⟨u1, hu, v1, hv, hturn⟩ := patch.patchOrientation.exists_turn ha hb
      refine ⟨_, List.mem_map.mpr ⟨(u1, v1), mem_grid.mpr ⟨hu, hv⟩, rfl⟩, ?_⟩
      simp only [hturn]
      simpa using hnonzero

/-- The program goes on only from a block in the tile. -/
theorem block_le_of_nonZeroPixel (hresolution : 0 < resolution) (hlt : resolution < 2 ^ 32)
    {patch : PatchPlacement} {u v x y n : ℕ} (hpos : patch.blockPosition u v = some (x, y))
    (hx : x < 2 ^ 31) (hy : y < 2 ^ 31)
    (h : nonZeroPixel area resolution precision image patch (u, v) = some n) :
    (x + 1) * resolution ≤ area.width ∧ (y + 1) * resolution ≤ area.height := by
  have hbound : ∀ z < 2 ^ 31, z * resolution + (resolution - 1) < 2 ^ 64 := by
    intro z hz
    have := Nat.mul_lt_mul'' (show z + 1 < 2 ^ 31 + 1 by omega) hlt
    rw [Nat.succ_mul] at this
    omega
  obtain ⟨u1, hu, v1, hv, hturn⟩ := patch.patchOrientation.exists_turn
    (Nat.sub_one_lt_of_lt hresolution) (Nat.sub_one_lt_of_lt hresolution)
  unfold nonZeroPixel at h
  split_ifs at h
  obtain ⟨samples, hsamples, h⟩ := Option.bind_eq_some_iff.mp h
  obtain ⟨sample, hsample⟩ := exists_of_mapM_eq_some hsamples (mem_grid.mpr ⟨hu, hv⟩)
  dsimp only at hsample
  rw [patch2Canvas_eq hpos hu hv hturn (hbound x hx) (hbound y hy)] at hsample
  split_ifs at hsample with hout
  · cases hsample
  · rw [Nat.succ_mul, Nat.succ_mul]
    omega

theorem add_mul_inj {stride x y x' y' : ℕ} (hx : x < stride) (hx' : x' < stride)
    (h : x + stride * y = x' + stride * y') : x = x' ∧ y = y' := by
  have hmod : x = x' := by
    have := congrArg (· % stride) h
    simpa [Nat.add_mul_mod_self_left, Nat.mod_eq_of_lt hx, Nat.mod_eq_of_lt hx'] using this
  subst hmod
  exact ⟨rfl, Nat.eq_of_mul_eq_mul_left (by omega) (Nat.add_left_cancel h)⟩

theorem lt_div_of_succ_mul_le (hresolution : 0 < resolution) {x width : ℕ}
    (h : (x + 1) * resolution ≤ width) : x < width / resolution :=
  (Nat.le_div_iff_mul_le hresolution).mpr h

/-- A block that the patch covers goes to the patch where the video is occupied. -/
theorem assignPatch_spec (hresolution : 0 < resolution) (hprecision : 0 < precision)
    {patch : PatchPlacement} (hpatch : InTile area resolution patch) (patchIndex : ℕ)
    (blockToPatch : List ℕ)
    (hlength : blockToPatch.length = area.width / resolution * (area.height / resolution)) :
    ∃ blockToPatch', assignPatch area resolution precision image blockToPatch
        (patch, patchIndex) = some blockToPatch' ∧
      blockToPatch'.length = area.width / resolution * (area.height / resolution) ∧
      ∀ x < area.width / resolution, ∀ y < area.height / resolution,
        (PackingPatch.Covers patch x y → Lit area resolution precision image x y →
          blockToPatch'[x + area.width / resolution * y]? = some (patchIndex + 1)) ∧
        (¬(PackingPatch.Covers patch x y ∧ Lit area resolution precision image x y) →
          blockToPatch'[x + area.width / resolution * y]? =
            blockToPatch[x + area.width / resolution * y]?) := by
  set stride := area.width / resolution with hstride
  have hrun : ∀ blocks : List (ℕ × ℕ), (∀ block ∈ blocks, block ∈ patch.blocks) →
      ∃ blockToPatch', blocks.foldlM (assignBlock area resolution precision image patch
          patchIndex) blockToPatch = some blockToPatch' ∧
        blockToPatch'.length = stride * (area.height / resolution) ∧
        ∀ x < stride, ∀ y < area.height / resolution,
          ((∃ block ∈ blocks, patch.blockPosition block.1 block.2 = some (x, y)) →
            Lit area resolution precision image x y →
            blockToPatch'[x + stride * y]? = some (patchIndex + 1)) ∧
          (¬((∃ block ∈ blocks, patch.blockPosition block.1 block.2 = some (x, y)) ∧
              Lit area resolution precision image x y) →
            blockToPatch'[x + stride * y]? = blockToPatch[x + stride * y]?) := by
    intro blocks
    induction blocks using List.reverseRecOn with
    | nil => exact fun _ => ⟨blockToPatch, rfl, hlength, fun x _ y _ => ⟨by simp, by simp⟩⟩
    | append_singleton blocks block ih =>
      intro hblocks
      obtain ⟨table, htable, hlen, hspec⟩ := ih fun b hb => hblocks b (by simp [hb])
      obtain ⟨hu, hv⟩ := mem_grid.mp (hblocks block (by simp))
      obtain ⟨x, y, hpos, hx, hy, hint⟩ := hpatch block.1 hu block.2 hv
      have hxlt : x < stride := lt_div_of_succ_mul_le hresolution hx
      have hylt := lt_div_of_succ_mul_le hresolution hy
      obtain ⟨n, hn, hlit⟩ :=
        nonZeroPixel_spec image hprecision hpos hx hy
      have hindex : x + stride * y < table.length := by
        rw [hlen]
        calc x + stride * y < stride + stride * y := by omega
          _ = stride * (y + 1) := by rw [Nat.mul_succ, Nat.add_comm]
          _ ≤ stride * (area.height / resolution) := Nat.mul_le_mul_left _ hylt
      have hassign : assignBlock area resolution precision image patch patchIndex table block =
          some (if 0 < n then table.set (x + stride * y) (patchIndex + 1) else table) := by
        unfold assignBlock
        rw [PackingPatch.patchBlock2CanvasBlock_eq hpos hxlt hylt hint]
        simp only [Option.bind_eq_bind, Option.bind_some, hn]
        rw [if_neg (not_lt.mpr (Int.natCast_nonneg _)), Int.toNat_natCast]
        split_ifs <;> rfl
      refine ⟨if 0 < n then table.set (x + stride * y) (patchIndex + 1) else table, ?_, ?_, ?_⟩
      · rw [List.foldlM_append, htable]
        simp only [Option.bind_eq_bind, Option.bind_some, List.foldlM_cons, List.foldlM_nil,
          hassign]
        rfl
      · split_ifs
        · rw [List.length_set, hlen]
        · exact hlen
      · intro x' hx' y' hy'
        obtain ⟨hset, hkeep⟩ := hspec x' hx' y' hy'
        by_cases hsame : x = x' ∧ y = y'
        · obtain ⟨rfl, rfl⟩ := hsame
          by_cases hlit' : Lit area resolution precision image x y
          · rw [if_pos (hlit.mpr hlit'), List.getElem?_set_self hindex]
            exact ⟨fun _ _ => rfl, fun hnot => absurd ⟨⟨block, by simp, hpos⟩, hlit'⟩ hnot⟩
          · rw [if_neg fun h => hlit' (hlit.mp h)]
            exact ⟨fun _ h => absurd h hlit', fun _ => hkeep fun h => hlit' h.2⟩
        · have hne : x + stride * y ≠ x' + stride * y' := fun h =>
            hsame (add_mul_inj hxlt hx' h)
          have hold : (if 0 < n then table.set (x + stride * y) (patchIndex + 1) else
              table)[x' + stride * y']? = table[x' + stride * y']? := by
            split_ifs
            · exact List.getElem?_set_ne hne
            · rfl
          have hblocks' : (∃ b ∈ blocks ++ [block], patch.blockPosition b.1 b.2 = some (x', y')) ↔
              ∃ b ∈ blocks, patch.blockPosition b.1 b.2 = some (x', y') := by
            constructor
            · rintro ⟨b, hb, hbpos⟩
              rcases List.mem_append.mp hb with hb | hb
              · exact ⟨b, hb, hbpos⟩
              · obtain rfl := List.mem_singleton.mp hb
                rw [hpos] at hbpos
                exact absurd (by simpa using hbpos) hsame
            · rintro ⟨b, hb, hbpos⟩
              exact ⟨b, List.mem_append_left _ hb, hbpos⟩
          rw [hold, hblocks']
          exact ⟨hset, hkeep⟩
  obtain ⟨table, htable, hlen, hspec⟩ := hrun patch.blocks fun _ h => h
  refine ⟨table, htable, hlen, ?_⟩
  have hcovers : ∀ x y, (∃ block ∈ patch.blocks,
      patch.blockPosition block.1 block.2 = some (x, y)) ↔ PackingPatch.Covers patch x y := by
    intro x y
    constructor
    · rintro ⟨block, hblock, hpos⟩
      obtain ⟨hu, hv⟩ := mem_grid.mp hblock
      exact ⟨block.1, hu, block.2, hv, hpos⟩
    · rintro ⟨u, hu, v, hv, hpos⟩
      exact ⟨(u, v), mem_grid.mpr ⟨hu, hv⟩, hpos⟩
  intro x hx y hy
  rw [← hcovers]
  exact hspec x hx y hy

theorem inTile_of_assignPatch (hresolution : 0 < resolution) (hlt : resolution < 2 ^ 32)
    {patch : PatchPlacement} {patchIndex : ℕ} {table table' : List ℕ}
    (hsmall : ∀ x y, PackingPatch.Covers patch x y → x < 2 ^ 31 ∧ y < 2 ^ 31)
    (h : assignPatch area resolution precision image table (patch, patchIndex) = some table') :
    InTile area resolution patch := by
  intro u hu v hv
  obtain ⟨table₁, table₂, hassign⟩ :=
    exists_of_foldlM_eq_some h (mem_grid.mpr ⟨hu, hv⟩ : (u, v) ∈ patch.blocks)
  obtain ⟨blockIndex, hindex, hassign⟩ := Option.bind_eq_some_iff.mp hassign
  obtain ⟨n, hn, -⟩ := Option.bind_eq_some_iff.mp hassign
  cases hpos : patch.blockPosition u v with
  | none =>
    unfold nonZeroPixel at hn
    split_ifs at hn
    obtain ⟨samples, hsamples, -⟩ := Option.bind_eq_some_iff.mp hn
    obtain ⟨sample, hsample⟩ := exists_of_mapM_eq_some hsamples
      (mem_grid.mpr ⟨hresolution, hresolution⟩)
    unfold PatchPlacement.patch2Canvas at hsample
    simp [PatchPlacement.pixelPosition_eq_none hpos] at hsample
  | some position =>
    obtain ⟨x, y⟩ := position
    obtain ⟨hxsmall, hysmall⟩ := hsmall x y ⟨u, hu, v, hv, hpos⟩
    obtain ⟨hx, hy⟩ := block_le_of_nonZeroPixel hresolution hlt hpos hxsmall hysmall hn
    refine ⟨x, y, rfl, hx, hy, ?_⟩
    unfold PatchPlacement.patchBlock2CanvasBlock at hindex
    rw [hpos] at hindex
    have hxlt := lt_div_of_succ_mul_le hresolution hx
    have hylt := lt_div_of_succ_mul_le hresolution hy
    simp only [if_neg (not_le.mpr hxlt), if_neg (not_le.mpr hylt)] at hindex
    split_ifs at hindex with hint
    exact hint

/-- A block holds the number of the last patch that covers it. -/
def HoldsLast (area : TileArea) (resolution precision : ℕ) (image : ℕ → ℕ → ℕ)
    (patches : List PatchPlacement) (blockToPatch : List ℕ) : Prop :=
  ∀ x < area.width / resolution, ∀ y < area.height / resolution, ∀ n,
    blockToPatch[x + area.width / resolution * y]? = some (n + 1) ↔
      Lit area resolution precision image x y ∧
        (∃ patch, patches[n]? = some patch ∧ PackingPatch.Covers patch x y) ∧
        ∀ j patch, n < j → patches[j]? = some patch → ¬PackingPatch.Covers patch x y

theorem generateBlockToPatch_spec (hresolution : 0 < resolution) (hprecision : 0 < precision)
    {patches : List PatchPlacement} (hpatches : ∀ patch ∈ patches, InTile area resolution patch) :
    ∃ blockToPatch, generateBlockToPatchFromOccupancyMapVideo area resolution precision image
        patches = some blockToPatch ∧
      HoldsLast area resolution precision image patches blockToPatch := by
  have hrun : ∃ blockToPatch, patches.zipIdx.foldlM (assignPatch area resolution precision image)
        (List.replicate (area.width / resolution * (area.height / resolution)) 0) =
        some blockToPatch ∧
      blockToPatch.length = area.width / resolution * (area.height / resolution) ∧
      HoldsLast area resolution precision image patches blockToPatch := by
    induction patches using List.reverseRecOn with
    | nil =>
      refine ⟨_, rfl, List.length_replicate, ?_⟩
      intro x hx y hy n
      constructor
      · intro h
        have hmem := List.mem_of_getElem? h
        exact absurd (List.eq_of_mem_replicate hmem) (Nat.succ_ne_zero n)
      · rintro ⟨-, ⟨patch, hpatch, -⟩, -⟩
        cases hpatch
    | append_singleton patches patch ih =>
      obtain ⟨table, htable, hlen, hlast⟩ := ih fun p hp => hpatches p (by simp [hp])
      obtain ⟨table', htable', hlen', hspec⟩ := assignPatch_spec hresolution
        hprecision (hpatches patch (by simp)) patches.length table hlen
      refine ⟨table', ?_, hlen', ?_⟩
      · rw [List.zipIdx_append, List.foldlM_append, htable]
        simpa using htable'
      · intro x hx y hy n
        obtain ⟨hset, hkeep⟩ := hspec x hx y hy
        by_cases hcover : PackingPatch.Covers patch x y ∧
            Lit area resolution precision image x y
        · rw [hset hcover.1 hcover.2]
          constructor
          · intro h
            obtain rfl : patches.length = n := by simpa using h
            refine ⟨hcover.2, ⟨patch, by simp, hcover.1⟩, ?_⟩
            intro j p hj hp
            rw [List.getElem?_eq_none (by simp; omega)] at hp
            cases hp
          · rintro ⟨-, ⟨p, hp, -⟩, hlater⟩
            have hn : n < patches.length + 1 := by
              simpa using (List.getElem?_eq_some_iff.mp hp).1
            by_cases heq : n = patches.length
            · rw [heq]
            · exact absurd hcover.1 (hlater patches.length patch (by omega) (by simp))
        · rw [hkeep hcover, hlast x hx y hy n]
          constructor
          · rintro ⟨hlit, ⟨p, hp, hpcover⟩, hlater⟩
            have hn := (List.getElem?_eq_some_iff.mp hp).1
            refine ⟨hlit, ⟨p, by rw [List.getElem?_append_left hn]; exact hp, hpcover⟩, ?_⟩
            intro j q hj hq
            by_cases hjlt : j < patches.length
            · rw [List.getElem?_append_left hjlt] at hq
              exact hlater j q hj hq
            · rw [List.getElem?_append_right (by omega)] at hq
              obtain rfl : patch = q := List.mem_singleton.mp (List.mem_of_getElem? hq) |>.symm
              exact fun hq' => hcover ⟨hq', hlit⟩
          · rintro ⟨hlit, ⟨p, hp, hpcover⟩, hlater⟩
            have hn : n < patches.length := by
              by_contra hge
              rw [List.getElem?_append_right (by omega)] at hp
              obtain rfl := List.mem_singleton.mp (List.mem_of_getElem? hp)
              exact hcover ⟨hpcover, hlit⟩
            rw [List.getElem?_append_left hn] at hp
            refine ⟨hlit, ⟨p, hp, hpcover⟩, fun j q hj hq => hlater j q hj ?_⟩
            rw [List.getElem?_append_left (List.getElem?_eq_some_iff.mp hq).1]
            exact hq
  obtain ⟨blockToPatch, htable, -, hlast⟩ := hrun
  refine ⟨blockToPatch, ?_, hlast⟩
  unfold generateBlockToPatchFromOccupancyMapVideo
  rw [if_neg hresolution.ne']
  exact htable

end PCCCodec

/-- Every occupied block of a patch is assigned to the patch. -/
def OwnsBlocks (area : TileArea) (resolution precision : ℕ) (image : ℕ → ℕ → ℕ)
    (patches : List PackingPatch) : Prop :=
  ∃ blockToPatch, PCCCodec.generateBlockToPatchFromOccupancyMapVideo area resolution precision
      image (patches.map PackingPatch.toPatchPlacement) = some blockToPatch ∧
    ∀ i patch, patches[i]? = some patch → ∀ x y, patch.Occupies x y →
      blockToPatch[x + area.width / resolution * y]? = some (i + 1)

/-- No patch of a list has a block over an occupied one of an earlier patch. -/
def LaterApart (patches : List PackingPatch) : Prop :=
  patches.Pairwise fun earlier later =>
    ∀ x y, earlier.Occupies x y → ¬PackingPatch.Covers later.toPatchPlacement x y

/-- The blocks of the patches have positions that are an `int`. -/
def SmallPositions (patches : List PackingPatch) : Prop :=
  ∀ patch ∈ patches, ∀ x y, PackingPatch.Covers patch.toPatchPlacement x y →
    x < 2 ^ 31 ∧ y < 2 ^ 31

theorem position_of_inTile (hresolution : 0 < resolution) {patch : PatchPlacement}
    (h : InTile area resolution patch) {x y : ℕ} (hcovers : PackingPatch.Covers patch x y) :
    x < area.width / resolution ∧ y < area.height / resolution := by
  obtain ⟨u, hu, v, hv, hpos⟩ := hcovers
  obtain ⟨x', y', hpos', hx, hy, -⟩ := h u hu v hv
  obtain ⟨rfl, rfl⟩ : x' = x ∧ y' = y := by simpa [hpos'] using hpos
  exact ⟨PCCCodec.lt_div_of_succ_mul_le hresolution hx,
    PCCCodec.lt_div_of_succ_mul_le hresolution hy⟩

/-- The last patch over a block gets it, so that all occupied blocks go to their owners if and
only if the tile holds the patches and no later one lies over an earlier one. -/
theorem ownsBlocks_iff (hresolution : 0 < resolution) (hlt : resolution < 2 ^ 32)
    (hprecision : 0 < precision) {patches : List PackingPatch} (hsmall : SmallPositions patches)
    (hlit : ∀ patch ∈ patches, ∀ x y, patch.Occupies x y →
      Lit area resolution precision image x y) :
    OwnsBlocks area resolution precision image patches ↔
      (∀ patch ∈ patches, InTile area resolution patch.toPatchPlacement) ∧ LaterApart patches := by
  have hinTile : ∀ table, PCCCodec.generateBlockToPatchFromOccupancyMapVideo area resolution
      precision image (patches.map PackingPatch.toPatchPlacement) = some table →
      ∀ patch ∈ patches, InTile area resolution patch.toPatchPlacement := by
    intro table htable patch hpatch
    unfold PCCCodec.generateBlockToPatchFromOccupancyMapVideo at htable
    rw [if_neg hresolution.ne'] at htable
    obtain ⟨i, hi⟩ := List.getElem?_of_mem hpatch
    have hmem : (patch.toPatchPlacement, i) ∈
        (patches.map PackingPatch.toPatchPlacement).zipIdx := by
      rw [List.mem_zipIdx_iff_getElem?, List.getElem?_map, hi]
      rfl
    obtain ⟨table₁, table₂, hassign⟩ := exists_of_foldlM_eq_some htable hmem
    exact PCCCodec.inTile_of_assignPatch hresolution hlt (hsmall patch hpatch) hassign
  have hspec : ∀ table, PCCCodec.HoldsLast area resolution precision image
      (patches.map PackingPatch.toPatchPlacement) table →
      (∀ patch ∈ patches, InTile area resolution patch.toPatchPlacement) →
      ((∀ i patch, patches[i]? = some patch → ∀ x y, patch.Occupies x y →
        table[x + area.width / resolution * y]? = some (i + 1)) ↔ LaterApart patches) := by
    intro table hlast hin
    unfold LaterApart
    rw [List.pairwise_iff_getElem]
    constructor
    · intro howns i j hi hj hij x y hoccupies hcovers
      obtain ⟨hx, hy⟩ :=
        position_of_inTile hresolution (hin _ (List.getElem_mem hi)) hoccupies.covers
      have hheld := howns i _ (List.getElem?_eq_getElem hi) x y hoccupies
      obtain ⟨-, -, hlater⟩ := (hlast x hx y hy i).mp hheld
      exact hlater j _ hij (by rw [List.getElem?_map, List.getElem?_eq_getElem hj]; rfl) hcovers
    · intro hpair i patch hi x y hoccupies
      have hmem := List.mem_of_getElem? hi
      obtain ⟨hx, hy⟩ := position_of_inTile hresolution (hin patch hmem) hoccupies.covers
      apply (hlast x hx y hy i).mpr
      refine ⟨hlit patch hmem x y hoccupies,
        ⟨_, by rw [List.getElem?_map, hi]; rfl, hoccupies.covers⟩, ?_⟩
      intro j place hij hplace hcovers
      rw [List.getElem?_map] at hplace
      obtain ⟨later, hlater, rfl⟩ := Option.map_eq_some_iff.mp hplace
      obtain ⟨hilt, rfl⟩ := List.getElem?_eq_some_iff.mp hi
      obtain ⟨hjlt, rfl⟩ := List.getElem?_eq_some_iff.mp hlater
      exact hpair i j hilt hjlt hij x y hoccupies hcovers
  constructor
  · rintro ⟨table, htable, howns⟩
    have hin := hinTile table htable
    have hpatches : ∀ patch ∈ patches.map PackingPatch.toPatchPlacement,
        InTile area resolution patch := by simpa using hin
    obtain ⟨table', htable', hlast⟩ := PCCCodec.generateBlockToPatch_spec
      hresolution hprecision hpatches
    obtain rfl : table = table' := Option.some.inj (htable.symm.trans htable')
    exact ⟨hin, (hspec table hlast hin).mp howns⟩
  · rintro ⟨hin, hapart⟩
    have hpatches : ∀ patch ∈ patches.map PackingPatch.toPatchPlacement,
        InTile area resolution patch := by simpa using hin
    obtain ⟨table, htable, hlast⟩ := PCCCodec.generateBlockToPatch_spec
      hresolution hprecision hpatches
    exact ⟨table, htable, (hspec table hlast hin).mpr hapart⟩

end

/-- The samples of the video are non-zero exactly for the precision blocks with an occupied pixel,
and every occupied block has one. -/
def ShowsOccupied (area : TileArea) (resolution precision : ℕ) (image : ℕ → ℕ → ℕ)
    (patches : List PackingPatch) : Prop :=
  ∃ pixel : ℕ → ℕ → Prop,
    (∀ i j, image i j ≠ 0 ↔ ∃ x y, pixel x y ∧ x / precision = i ∧ y / precision = j) ∧
    ∀ patch ∈ patches, ∀ x y, patch.Occupies x y → ∃ a < resolution, ∃ b < resolution,
      pixel (x * resolution + a + area.leftTopX) (y * resolution + b + area.leftTopY)

theorem ShowsOccupied.lit {area : TileArea} {resolution precision : ℕ} {image : ℕ → ℕ → ℕ}
    {patches : List PackingPatch} (h : ShowsOccupied area resolution precision image patches) :
    ∀ patch ∈ patches, ∀ x y, patch.Occupies x y → Lit area resolution precision image x y := by
  obtain ⟨pixel, himage, hblocks⟩ := h
  intro patch hpatch x y hoccupies
  obtain ⟨a, ha, b, hb, hpixel⟩ := hblocks patch hpatch x y hoccupies
  exact ⟨a, ha, b, hb, (himage _ _).mpr ⟨_, _, hpixel, rfl, rfl⟩⟩

/-- A tile that one of the packers returns. -/
inductive PackedTile (params : PackingParams) : PackingTile → Prop
  | packFlexible {fuel : ℕ} {lt : StdSort PackingPatch.lt} {gt : StdSort PackingPatch.gt}
      {packingStrategy : ℤ} {presetWidth presetHeight : ℕ} {safeguard : ℤ}
      {tile tile' : PackingTile} (hsafeguard : 0 ≤ safeguard)
      (h : PCCEncoder.packFlexible fuel params lt gt packingStrategy presetWidth presetHeight
        safeguard tile = some tile') : PackedTile params tile'
  | spatialConsistencyPackFlexible {fuel : ℕ} {lt : StdSort PackingPatch.lt}
      {gt : StdSort PackingPatch.gt} {packingStrategy : ℤ} {presetWidth presetHeight : ℕ}
      {safeguard : ℤ} {iou : PackingPatch → PackingPatch → ℚ} {prevPatches : List PackingPatch}
      {tile tile' : PackingTile} (hsafeguard : 0 ≤ safeguard)
      (h : PCCEncoder.spatialConsistencyPackFlexible fuel params lt gt packingStrategy presetWidth
        presetHeight safeguard iou prevPatches tile = some tile') : PackedTile params tile'

theorem PackedTile.spec {params : PackingParams} {tile : PackingTile}
    (h : PackedTile params tile) :
    tile.patches.Pairwise (PackingPatch.Clear params.lowDelayEncoding) ∧
      SmallPositions tile.patches := by
  cases h with
  | packFlexible hsafeguard h =>
    obtain ⟨hclear, -, hinside⟩ := PCCEncoder.packFlexible_spec hsafeguard h
    refine ⟨hclear, fun patch hpatch x y hcovers => ?_⟩
    obtain ⟨hx, hy, -⟩ := hinside patch hpatch x y hcovers
    exact ⟨(lt_min_iff.mp hx).2, hy⟩
  | spatialConsistencyPackFlexible hsafeguard h =>
    obtain ⟨hclear, hinside⟩ := PCCEncoder.spatialConsistencyPackFlexible_spec hsafeguard h
    refine ⟨hclear, fun patch hpatch x y hcovers => ?_⟩
    obtain ⟨hx, hy, -⟩ := hinside patch hpatch x y hcovers
    exact ⟨hx, hy⟩

/-- The reversed list has the places and the blocks of the patches. -/
theorem reverseOrderPatchList_eq (prevPatchCount : ℕ) (patches : List PackingPatch) :
    ∃ f : PackingPatch → PackingPatch,
      PCCEncoder.reverseOrderPatchList prevPatchCount patches = patches.reverse.map f ∧
      ∀ patch, (f patch).toPatchPlacement = patch.toPatchPlacement ∧
        (f patch).occupancy = patch.occupancy := by
  refine ⟨_, rfl, fun patch => ?_⟩
  split_ifs <;> exact ⟨rfl, rfl⟩

theorem occupies_congr {patch other : PackingPatch}
    (hplace : other.toPatchPlacement = patch.toPatchPlacement)
    (hoccupancy : other.occupancy = patch.occupancy) (x y : ℕ) :
    other.Occupies x y ↔ patch.Occupies x y := by
  unfold PackingPatch.Occupies
  rw [hplace, hoccupancy]

/-- Ownership depends only on the places and the blocks of the patches. -/
theorem ownsBlocks_map {area : TileArea} {resolution precision : ℕ} {image : ℕ → ℕ → ℕ}
    {f : PackingPatch → PackingPatch}
    (hf : ∀ patch, (f patch).toPatchPlacement = patch.toPatchPlacement ∧
      (f patch).occupancy = patch.occupancy) (patches : List PackingPatch) :
    OwnsBlocks area resolution precision image (patches.map f) ↔
      OwnsBlocks area resolution precision image patches := by
  have hmap : (patches.map f).map PackingPatch.toPatchPlacement =
      patches.map PackingPatch.toPatchPlacement := by
    rw [List.map_map]
    exact List.map_congr_left fun patch _ => (hf patch).1
  unfold OwnsBlocks
  rw [hmap]
  apply exists_congr
  intro table
  apply and_congr_right
  intro _
  constructor
  · intro h i patch hi x y hoccupies
    exact h i (f patch) (by rw [List.getElem?_map, hi]; rfl) x y
      ((occupies_congr (hf patch).1 (hf patch).2 x y).mpr hoccupies)
  · intro h i patch hi x y hoccupies
    rw [List.getElem?_map] at hi
    obtain ⟨original, horiginal, rfl⟩ := Option.map_eq_some_iff.mp hi
    exact h i original horiginal x y
      ((occupies_congr (hf original).1 (hf original).2 x y).mp hoccupies)

/-- The encoder, in the order of packing, and the decoder, in that of the bitstream, assign all
occupied blocks of packed patches to their owners if and only if the tile holds the patches, in
low delay no patch lies over an earlier one, and without it no patch lies over a later one that
the bitstream has first. -/
theorem ownsBlocks_packed_iff {params : PackingParams} {tile : PackingTile}
    (hpacked : PackedTile params tile) {area : TileArea} {precision : ℕ} {image : ℕ → ℕ → ℕ}
    (hresolution : 0 < params.occupancyResolution)
    (hlt : params.occupancyResolution < 2 ^ 32) (hprecision : 0 < precision)
    (hvideo : ShowsOccupied area params.occupancyResolution precision image tile.patches)
    (patchPrecedenceOrderFlag : Bool) (prevPatchCount : ℕ) :
    OwnsBlocks area params.occupancyResolution precision image tile.patches ∧
      OwnsBlocks area params.occupancyResolution precision image
        (PCCEncoder.transmittedPatches patchPrecedenceOrderFlag prevPatchCount tile.patches) ↔
      (∀ patch ∈ tile.patches,
        InTile area params.occupancyResolution patch.toPatchPlacement) ∧
      (params.lowDelayEncoding = true → LaterApart tile.patches) ∧
      (patchPrecedenceOrderFlag = true → params.lowDelayEncoding = false →
        LaterApart tile.patches.reverse) := by
  obtain ⟨hclear, hsmall⟩ := hpacked.spec
  have hencoder := ownsBlocks_iff hresolution hlt hprecision hsmall hvideo.lit
  have hreverse := ownsBlocks_iff hresolution hlt hprecision
    (fun patch hpatch => hsmall patch (List.mem_reverse.mp hpatch))
    (fun patch hpatch => hvideo.lit patch (List.mem_reverse.mp hpatch))
  -- what packing leaves to prove in each order
  have hlater : params.lowDelayEncoding = false → LaterApart tile.patches := fun hlow =>
    hclear.imp fun h x y hearlier hcovers => by
      rw [hlow] at h
      exact h x y hearlier hcovers
  have hearlier : params.lowDelayEncoding = true → LaterApart tile.patches.reverse := by
    intro hlow
    unfold LaterApart
    rw [List.pairwise_reverse]
    exact hclear.imp fun h x y hoccupies hcovers => by
      rw [hlow] at h
      exact h x y hcovers hoccupies
  have hdecoder : OwnsBlocks area params.occupancyResolution precision image
      (PCCEncoder.transmittedPatches patchPrecedenceOrderFlag prevPatchCount tile.patches) ↔
      (∀ patch ∈ tile.patches,
        InTile area params.occupancyResolution patch.toPatchPlacement) ∧
      LaterApart (if patchPrecedenceOrderFlag then tile.patches.reverse else tile.patches) := by
    cases patchPrecedenceOrderFlag with
    | false => exact hencoder
    | true =>
      obtain ⟨f, hlist, hf⟩ := reverseOrderPatchList_eq prevPatchCount tile.patches
      unfold PCCEncoder.transmittedPatches
      rw [if_pos rfl, if_pos rfl, hlist, ownsBlocks_map hf, hreverse]
      simp only [List.mem_reverse]
  rw [hencoder, hdecoder]
  constructor
  · rintro ⟨⟨hin, hapart⟩, -, htransmitted⟩
    refine ⟨hin, fun _ => hapart, fun hflag _ => ?_⟩
    rwa [hflag] at htransmitted
  · rintro ⟨hin, hlowApart, hflagApart⟩
    have hapart : LaterApart tile.patches := by
      by_cases hlow : params.lowDelayEncoding = true
      · exact hlowApart hlow
      · exact hlater (by simpa using hlow)
    refine ⟨⟨hin, hapart⟩, hin, ?_⟩
    cases patchPrecedenceOrderFlag with
    | false => exact hapart
    | true =>
      by_cases hlow : params.lowDelayEncoding = true
      · exact hearlier hlow
      · exact hflagApart rfl (by simpa using hlow)

/-- The encoder of the example, in low delay. -/
def holeParams : PackingParams := { rowParams 16 with lowDelayEncoding := true }

/-- Two patches of two blocks in a row: a full one, and one with a hole before its block. -/
def holeTile : PackingTile where
  width := 48
  height := 0
  patches := [
    { sizeU0 := 2, sizeV0 := 1, index := 0, sizeU := 32, sizeV := 16, occupancy := [true, true] },
    { sizeU0 := 2, sizeV0 := 1, index := 1, sizeU := 32, sizeV := 16, occupancy := [false, true] }]

/-- The hole lies over the last block of the full patch. -/
def packedHoleTile : PackingTile where
  width := 48
  height := 32
  patches := [
    { sizeU0 := 2, sizeV0 := 1, index := 0, sizeU := 32, sizeV := 16, occupancy := [true, true] },
    { u0 := 1, sizeU0 := 2, sizeV0 := 1, index := 1, sizeU := 32, sizeV := 16,
      occupancy := [false, true] }]

theorem packedTile_hole : PackedTile holeParams packedHoleTile := by
  have hsort : PCCEncoder.sortPatches mergeSortLt mergeSortGt 0 holeTile.patches =
      holeTile.patches :=
    (if_pos rfl).trans (sort_of_pairwise mergeSortLt (by decide))
  have hpack : (PCCEncoder.packPatches 1 holeParams (PCCEncoder.bestEffort holeParams 0 0)
      holeTile.patches ⟨.empty 3 2, 48, 32, 0⟩).map (fun run => (run.1, run.2.height)) =
      some (packedHoleTile.patches, 32) := by
    decide +kernel
  obtain ⟨⟨patches, s⟩, hrun, hresult⟩ := Option.map_eq_some_iff.mp hpack
  obtain ⟨hpatches, hheight⟩ := Prod.mk.inj hresult
  refine @PackedTile.packFlexible holeParams 1 mergeSortLt mergeSortGt 0 48 0 0 holeTile _
    (Int.le_refl 0) ?_
  rw [PCCEncoder.packFlexible_eq hsort (by decide) rfl hrun]
  dsimp only at hpatches hheight
  rw [hpatches, hheight]
  rfl

/-- The tile of the example at the corner of its frame. -/
def holeArea : TileArea := ⟨0, 0, 48, 32, by decide, by decide⟩

/-- The occupancy video of the example: the first row of blocks, in full. -/
def holeImage (i j : ℕ) : ℕ := if i < 3 ∧ j < 1 then 1 else 0

theorem packedHoleTile_occupies :
    ∀ patch ∈ packedHoleTile.patches, ∀ x y, patch.Occupies x y → x < 3 ∧ y < 1 := by
  intro patch hpatch x y hoccupies
  obtain ⟨u, hu, v, hv, hpos, -⟩ := hoccupies
  simp only [packedHoleTile, List.mem_cons, List.not_mem_nil, or_false] at hpatch
  rcases hpatch with rfl | rfl <;>
  · obtain ⟨rfl, rfl⟩ := Prod.mk.inj (Option.some.inj hpos)
    simp only [toSizeT] at hu hv ⊢
    omega

theorem packedHoleTile_shown :
    ShowsOccupied holeArea 16 16 holeImage packedHoleTile.patches := by
  refine ⟨fun x y => x < 48 ∧ y < 16, ?_, ?_⟩
  · intro i j
    unfold holeImage
    constructor
    · intro h
      split_ifs at h with hin
      · exact ⟨i * 16, j * 16, by omega, by omega, by omega⟩
      · exact absurd rfl h
    · rintro ⟨x, y, hin, rfl, rfl⟩
      rw [if_pos (by omega)]
      exact Nat.one_ne_zero
  · intro patch hpatch x y hoccupies
    have hin := packedHoleTile_occupies patch hpatch x y hoccupies
    exact ⟨0, by decide, 0, by decide, by simp only [holeArea]; omega⟩

theorem ownsBlocks_packedHoleTile_iff :
    OwnsBlocks holeArea 16 16 holeImage packedHoleTile.patches ∧
      OwnsBlocks holeArea 16 16 holeImage
        (PCCEncoder.transmittedPatches true 0 packedHoleTile.patches) ↔
      (∀ patch ∈ packedHoleTile.patches, InTile holeArea 16 patch.toPatchPlacement) ∧
      (true = true → LaterApart packedHoleTile.patches) ∧
      (true = true → true = false → LaterApart packedHoleTile.patches.reverse) :=
  ownsBlocks_packed_iff packedTile_hole (by decide) (by decide) (by decide) packedHoleTile_shown
    true 0

/-- The encoder assigns the block under the hole to the second patch. -/
theorem not_ownsBlocks_packedHoleTile :
    PackedTile holeParams packedHoleTile ∧
      ShowsOccupied holeArea 16 16 holeImage packedHoleTile.patches ∧
      ¬OwnsBlocks holeArea 16 16 holeImage packedHoleTile.patches := by
  refine ⟨packedTile_hole, packedHoleTile_shown, ?_⟩
  rintro ⟨table, htable, howns⟩
  have hrun : PCCCodec.generateBlockToPatchFromOccupancyMapVideo holeArea 16 16 holeImage
      (packedHoleTile.patches.map PackingPatch.toPatchPlacement) = some [1, 2, 2, 0, 0, 0] := by
    decide +kernel
  obtain rfl := Option.some.inj (hrun.symm.trans htable)
  have hheld := howns 0 _ rfl 1 0 ⟨1, by decide, 0, by decide, by decide, rfl⟩
  exact absurd hheld (by decide)

end V3C

import Mathlib.Data.Nat.ModEq
import Mathlib.Tactic.Ring
import V3C.Packing.AuxiliaryTransfer
import V3C.Packing.PackingSoundness

/-! Where the patches of a tile lie in the auxiliary video. -/
namespace V3C

theorem ceilQuotient_eq_some {a b q : ℕ} (h : ceilQuotient a b = some q) :
    0 < b ∧ a ≤ q * b ∧ (0 < a → 0 < q) := by
  unfold ceilQuotient at h
  split_ifs at h with hb
  obtain rfl := Option.some.inj h
  have hpos := Nat.pos_of_ne_zero hb
  have hdiv := Nat.div_add_mod (a + b - 1) b
  have hmod := Nat.mod_lt (a + b - 1) hpos
  refine ⟨hpos, ?_, ?_⟩
  · rw [Nat.mul_comm]
    omega
  · intro ha
    exact Nat.div_pos (by omega) hpos

/-- The points of a grid are numbered row by row. -/
theorem grid_eq_map (width height : ℕ) :
    grid width height = (List.range (height * width)).map fun i => (i % width, i / width) := by
  induction height with
  | zero => simp [grid]
  | succ height ih =>
    have hgrid : grid width (height + 1) =
        grid width height ++ (List.range width).map fun x => (x, height) := by
      unfold grid
      rw [List.range_succ, List.flatMap_append, List.flatMap_singleton]
    rw [hgrid, ih, Nat.succ_mul, List.range_add, List.map_append, List.map_map]
    congr 1
    apply List.map_congr_left
    intro x hx
    have hlt := List.mem_range.mp hx
    rw [Function.comp_apply, Nat.mul_add_mod_of_lt hlt, Nat.mul_comm,
      Nat.mul_add_div (Nat.zero_lt_of_lt hlt), Nat.div_eq_of_lt hlt, Nat.add_zero]

theorem mem_take_grid {width height n x y : ℕ} (h : (x, y) ∈ (grid width height).take n) :
    x < width ∧ y < height ∧ y * width + x < n := by
  have hmem := mem_grid.mp (List.mem_of_mem_take h)
  rw [grid_eq_map, ← List.map_take, List.take_range] at h
  obtain ⟨i, hi, hpoint⟩ := List.mem_map.mp h
  obtain ⟨rfl, rfl⟩ := Prod.mk.inj hpoint
  have hlt := List.mem_range.mp hi
  rw [Nat.mul_comm, Nat.div_add_mod]
  exact ⟨hmem.1, hmem.2, hlt.trans_le (Nat.min_le_left _ _)⟩

theorem nodup_grid (width height : ℕ) : (grid width height).Nodup := by
  rw [grid_eq_map]
  apply List.Nodup.map_on
  · intro i _ j _ h
    obtain ⟨hmod, hdiv⟩ := Prod.mk.inj h
    rw [← Nat.div_add_mod i width, ← Nat.div_add_mod j width, hmod, hdiv]
  · exact List.nodup_range

namespace PCCRawPointsPatch

/-- A raw patch as it is packed on the canvas. -/
def asPatch (raw : PCCRawPointsPatch) : PackingPatch where
  u0 := raw.u0
  v0 := raw.v0
  sizeU0 := raw.sizeU0
  sizeV0 := raw.sizeV0
  sizeU := raw.sizeU
  sizeV := raw.sizeV
  occupancy := raw.occupancy

end PCCRawPointsPatch

/-- The sizes of a raw patch go with its points. -/
structure RawSized (params : PackingParams) (raw : PCCRawPointsPatch) : Prop where
  resolution : raw.occupancyResolution = params.occupancyResolution
  sizes : PCCCodec.rawPatchSizes raw = raw
  room : raw.numberOfRawPoints * 3 ≤ raw.sizeV * raw.sizeU
  rows : 0 < raw.sizeV0
  occupancy : raw.occupancy = PCCEncoder.rawOccupancy raw

/-- A raw patch within a number of columns of blocks and above a height. -/
structure RawPlaced (params : PackingParams) (stride height : ℕ) (raw : PCCRawPointsPatch) :
    Prop extends RawSized params raw where
  right : raw.u0 + raw.sizeU0 ≤ stride
  below : (raw.v0 + raw.sizeV0) * params.occupancyResolution ≤ height

theorem RawPlaced.mono {params : PackingParams} {stride height height' : ℕ}
    {raw : PCCRawPointsPatch} (h : RawPlaced params stride height raw) (hle : height ≤ height') :
    RawPlaced params stride height' raw :=
  ⟨h.toRawSized, h.right, h.below.trans hle⟩

theorem RawSized.roomy {params : PackingParams} {raw : PCCRawPointsPatch}
    (h : RawSized params raw) : raw.Roomy :=
  (Nat.le_mul_of_pos_right _ (by omega)).trans h.room

namespace PCCEncoder

theorem sizeRawPointsPatch_spec {params : PackingParams} {occupancySizeU : ℕ}
    {raw sized : PCCRawPointsPatch} (h : sizeRawPointsPatch params occupancySizeU raw = some sized)
    (hres : raw.occupancyResolution = params.occupancyResolution) :
    RawSized params sized ∧ sized.numberOfRawPoints = raw.numberOfRawPoints := by
  obtain ⟨blocks, hblocks, h⟩ := Option.bind_eq_some_iff.mp h
  obtain ⟨sizeV0, hsizeV0, h⟩ := Option.bind_eq_some_iff.mp h
  obtain ⟨sizeU0, hsizeU0, h⟩ := Option.bind_eq_some_iff.mp h
  obtain rfl := Option.some.inj h
  refine ⟨⟨hres, ?_, ?_, (ceilQuotient_eq_some hsizeU0).1, rfl⟩, rfl⟩
  · simp only [PCCCodec.rawPatchSizes, hres]
  · have hpoints := (ceilQuotient_eq_some hblocks).2.1
    have hblock := (ceilQuotient_eq_some hsizeU0).2.1
    calc raw.numberOfRawPoints * 3
        ≤ blocks * (params.occupancyResolution * params.occupancyResolution) := hpoints
      _ ≤ sizeU0 * sizeV0 * (params.occupancyResolution * params.occupancyResolution) :=
          Nat.mul_le_mul_right _ hblock
      _ = sizeV0 * params.occupancyResolution * (sizeU0 * params.occupancyResolution) := by ring

/-- A patch in its default orientation lies on the canvas from its first column on. -/
theorem right_le_of_onCanvas (raw : PCCRawPointsPatch) {stride height : ℕ}
    (hrows : 0 < raw.sizeV0) (hu0 : raw.u0 ≤ stride) (hstride : stride < 2 ^ 64)
    (hon : ∀ u < raw.sizeU0, ∀ v < raw.sizeV0,
      PackingPatch.OnCanvas raw.asPatch.toPatchPlacement stride height u v) :
    raw.u0 + raw.sizeU0 ≤ stride := by
  have hcolumn : ∀ u < raw.sizeU0, raw.u0 + u < 2 ^ 31 ∧ raw.u0 + u < stride := by
    intro u
    induction u with
    | zero =>
      intro hu
      obtain ⟨x, y, hpos, hx, -, hint⟩ := hon 0 hu 0 hrows
      obtain ⟨hx', -⟩ := Prod.mk.inj (Option.some.inj hpos)
      rw [toSizeT_of_lt (by omega) (by simp only [PCCRawPointsPatch.asPatch]; omega)] at hx'
      simp only [PCCRawPointsPatch.asPatch] at hx'
      have := Nat.le_add_right x (stride * y)
      omega
    | succ u ih =>
      intro hu
      have hbefore := ih (by omega)
      obtain ⟨x, y, hpos, hx, -, hint⟩ := hon (u + 1) hu 0 hrows
      obtain ⟨hx', -⟩ := Prod.mk.inj (Option.some.inj hpos)
      rw [toSizeT_of_lt (by omega) (by simp only [PCCRawPointsPatch.asPatch]; omega)] at hx'
      simp only [PCCRawPointsPatch.asPatch] at hx'
      have := Nat.le_add_right x (stride * y)
      omega
  by_cases hzero : raw.sizeU0 = 0
  · omega
  · have := hcolumn (raw.sizeU0 - 1) (by omega)
    omega

/-- One pass over the raw patches places its patch clear of the blocks that are taken. -/
theorem packRawPoints_spec {fuel : ℕ} {params : PackingParams} {raw placed : PCCRawPointsPatch}
    {canvas canvas' : BlockCanvas} {height height' : ℕ}
    (h : packRawPoints fuel params 0 raw canvas height = some (placed, canvas', height'))
    (hres : raw.occupancyResolution = params.occupancyResolution)
    (hstride : canvas.stride < 2 ^ 64) :
    canvas.Extends canvas' ∧ RawPlaced params canvas.stride height' placed ∧ height ≤ height' ∧
      (params.occupancyResolution ∣ height → params.occupancyResolution ∣ height') ∧
      placed.numberOfRawPoints = raw.numberOfRawPoints ∧
      (∀ x y, placed.asPatch.Takes params.lowDelayEncoding x y → canvas'.Marked x y) ∧
      ∀ x y, canvas.Marked x y → ¬placed.asPatch.Needs params.lowDelayEncoding x y := by
  obtain ⟨sized, hsized, h⟩ := Option.bind_eq_some_iff.mp h
  obtain ⟨⟨place, found⟩, hfind, h⟩ := Option.bind_eq_some_iff.mp h
  obtain ⟨marked, hmark, h⟩ := Option.bind_eq_some_iff.mp h
  obtain ⟨hsize, hnumber⟩ := sizeRawPointsPatch_spec hsized hres
  obtain ⟨hext, safeguard, hmem, hcheck⟩ := findLocation_spec hfind
  obtain ⟨⟨u, v⟩, huv, hattempt⟩ := List.mem_map.mp hmem
  have hu : u < found.stride + 1 := (mem_grid.mp (List.mem_filter.mp huv).1).1
  rw [hext.stride] at hu
  obtain ⟨rfl, rfl⟩ := Prod.mk.inj hattempt
  rw [if_neg (Nat.ne_of_gt hsize.rows)] at h
  obtain ⟨rfl, rfl, rfl⟩ : _ ∧ _ ∧ _ := by simpa using h
  have hfits := fun a ha b hb =>
    PackingPatch.onCanvas_freeAt_of_checkFitPatchCanvas (u := a) (v := b) (Int.le_refl 0) hcheck
      ha hb
  obtain ⟨hext', -, htaken⟩ :=
    PackingPatch.markBlocks_spec hmark fun a ha b hb => (hfits a ha b hb).1
  have hright : u + sized.sizeU0 ≤ canvas.stride := by
    apply right_le_of_onCanvas { sized with u0 := u, v0 := v } hsize.rows
      (by simp only; omega) hstride
    intro a ha b hb
    rw [← hext.stride]
    exact (hfits a ha b hb).1
  refine ⟨hext.trans hext', ⟨⟨hsize.resolution, ?_, hsize.room, hsize.rows, hsize.occupancy⟩,
    hright, Nat.le_max_right _ _⟩, Nat.le_max_left _ _, ?_, hnumber, htaken, ?_⟩
  · have hsizes := hsize.sizes
    unfold PCCCodec.rawPatchSizes at hsizes ⊢
    exact congrArg (fun raw : PCCRawPointsPatch => { raw with u0 := u, v0 := v }) hsizes
  · intro hdvd
    rcases Nat.le_total height ((v + sized.sizeV0) * params.occupancyResolution) with hle | hle
    · rw [Nat.max_eq_right hle]
      exact Nat.dvd_mul_left _ _
    · rw [Nat.max_eq_left hle]
      exact hdvd
  · intro x y hmarked hneeds
    exact PackingPatch.not_marked_of_needs (fun a ha b hb => (hfits a ha b hb).2) hneeds
      (hext.marked x y hmarked)

/-- All raw patches are placed on the canvas, each clear of those before it. -/
theorem packRawPointsPatch_spec {fuel : ℕ} {params : PackingParams}
    {raws placed : List PCCRawPointsPatch} {canvas : BlockCanvas} {height height' : ℕ}
    (h : packRawPointsPatch fuel params 0 raws canvas height = some (placed, height'))
    (hres : ∀ raw ∈ raws, raw.occupancyResolution = params.occupancyResolution)
    (hstride : canvas.stride < 2 ^ 64) :
    (∀ raw ∈ placed, RawPlaced params canvas.stride height' raw) ∧ height ≤ height' ∧
      (params.occupancyResolution ∣ height → params.occupancyResolution ∣ height') ∧
      rawCount placed = rawCount raws ∧
      (∀ raw ∈ placed, ∀ x y, canvas.Marked x y →
        ¬raw.asPatch.Needs params.lowDelayEncoding x y) ∧
      placed.Pairwise fun earlier later =>
        PackingPatch.Clear params.lowDelayEncoding earlier.asPatch later.asPatch := by
  induction raws generalizing placed canvas height with
  | nil =>
    obtain ⟨rfl, rfl⟩ := Prod.mk.inj (Option.some.inj h)
    exact ⟨by simp, Nat.le_refl _, id, rfl, by simp, List.Pairwise.nil⟩
  | cons raw raws ih =>
    obtain ⟨⟨first, canvas₁, height₁⟩, hfirst, h⟩ := Option.bind_eq_some_iff.mp h
    obtain ⟨⟨rest, height₂⟩, hrest, h⟩ := Option.bind_eq_some_iff.mp h
    obtain ⟨rfl, rfl⟩ := Prod.mk.inj (Option.some.inj h)
    obtain ⟨hext, hplaced, hle, hdvd, hnumber, htaken, hclear⟩ :=
      packRawPoints_spec hfirst (hres raw List.mem_cons_self) hstride
    obtain ⟨hplaced', hle', hdvd', hnumber', hclear', hpair⟩ :=
      ih hrest (fun raw' hraw' => hres raw' (List.mem_cons_of_mem raw hraw'))
        (by rw [hext.stride]; exact hstride)
    rw [hext.stride] at hplaced'
    refine ⟨?_, hle.trans hle', fun h => hdvd' (hdvd h), ?_, ?_, ?_⟩
    · intro q hq
      rcases List.mem_cons.mp hq with rfl | hq
      · exact hplaced.mono hle'
      · exact hplaced' q hq
    · rw [rawCount_cons, rawCount_cons, hnumber, hnumber']
    · intro q hq x y hmarked
      rcases List.mem_cons.mp hq with rfl | hq
      · exact hclear x y hmarked
      · exact hclear' q hq x y (hext.marked x y hmarked)
    · apply List.Pairwise.cons
      · intro q hq x y htakes
        exact hclear' q hq x y (htaken x y htakes)
      · exact hpair

end PCCEncoder

namespace PCCRawPointsPatch

theorem mem_pixels {params : PackingParams} {raw : PCCRawPointsPatch}
    (hsized : RawSized params raw) {leftTopY x y : ℕ} (h : (x, y) ∈ raw.pixels leftTopY) :
    ∃ u v, u < raw.sizeU0 * params.occupancyResolution ∧
      v < raw.sizeV0 * params.occupancyResolution ∧ v * raw.sizeU + u < raw.numberOfRawPoints ∧
      x = raw.u0 * params.occupancyResolution + u ∧
      y = raw.v0 * params.occupancyResolution + v + leftTopY := by
  obtain ⟨⟨u, v⟩, huv, hpixel⟩ := List.mem_map.mp h
  obtain ⟨rfl, rfl⟩ := Prod.mk.inj hpixel
  obtain ⟨hu, hv, hindex⟩ := mem_take_grid huv
  have hsizeU := congrArg PCCRawPointsPatch.sizeU hsized.sizes
  have hsizeV := congrArg PCCRawPointsPatch.sizeV hsized.sizes
  simp only [PCCCodec.rawPatchSizes] at hsizeU hsizeV
  rw [← hsizeU, hsized.resolution] at hu
  rw [← hsizeV, hsized.resolution] at hv
  rw [hsized.resolution]
  exact ⟨u, v, hu, hv, hindex, rfl, rfl⟩

/-- A pixel of a raw patch lies in one of its occupied blocks. -/
theorem occupies_of_mem_pixels {params : PackingParams} {raw : PCCRawPointsPatch}
    (hsized : RawSized params raw) {leftTopY x y : ℕ} (h : (x, y) ∈ raw.pixels leftTopY) :
    raw.asPatch.Occupies (toSizeT (x / params.occupancyResolution : ℕ))
      (toSizeT ((y - leftTopY) / params.occupancyResolution : ℕ)) := by
  obtain ⟨u, v, hu, hv, hindex, rfl, rfl⟩ := mem_pixels hsized h
  have hres : 0 < params.occupancyResolution := by
    rcases Nat.eq_zero_or_pos params.occupancyResolution with hzero | hpos
    · simp [hzero] at hu
    · exact hpos
  have hu0 : u / params.occupancyResolution < raw.sizeU0 := by
    rw [Nat.div_lt_iff_lt_mul hres]
    exact hu
  have hv0 : v / params.occupancyResolution < raw.sizeV0 := by
    rw [Nat.div_lt_iff_lt_mul hres]
    exact hv
  have hblockU : (raw.u0 * params.occupancyResolution + u) / params.occupancyResolution =
      u / params.occupancyResolution + raw.u0 := by
    rw [Nat.mul_comm, Nat.mul_add_div hres, Nat.add_comm]
  have hblockV : (raw.v0 * params.occupancyResolution + v + leftTopY - leftTopY) /
      params.occupancyResolution = v / params.occupancyResolution + raw.v0 := by
    rw [Nat.add_sub_cancel, Nat.mul_comm, Nat.mul_add_div hres, Nat.add_comm]
  refine ⟨u / params.occupancyResolution, hu0, v / params.occupancyResolution, hv0, ?_, ?_⟩
  · rw [hblockU, hblockV]
    rfl
  · have hsizeU := congrArg PCCRawPointsPatch.sizeU hsized.sizes
    have hsizeV := congrArg PCCRawPointsPatch.sizeV hsized.sizes
    simp only [PCCCodec.rawPatchSizes, hsized.resolution] at hsizeU hsizeV
    have hlt : v / params.occupancyResolution * raw.sizeU0 + u / params.occupancyResolution <
        raw.sizeU0 * raw.sizeV0 := by
      calc v / params.occupancyResolution * raw.sizeU0 + u / params.occupancyResolution
          < v / params.occupancyResolution * raw.sizeU0 + raw.sizeU0 := Nat.add_lt_add_left hu0 _
        _ = (v / params.occupancyResolution + 1) * raw.sizeU0 := by rw [Nat.succ_mul]
        _ ≤ raw.sizeV0 * raw.sizeU0 := Nat.mul_le_mul_right _ hv0
        _ = raw.sizeU0 * raw.sizeV0 := Nat.mul_comm _ _
    change raw.occupancy[v / params.occupancyResolution * raw.sizeU0 +
      u / params.occupancyResolution]? = some true
    rw [hsized.occupancy]
    unfold PCCEncoder.rawOccupancy
    rw [List.getElem?_map, List.getElem?_range hlt, Option.map_some, Option.some.injEq,
      List.any_eq_true]
    refine ⟨(u, v), mem_grid.mpr ⟨hsizeU ▸ hu, hsizeV ▸ hv⟩, ?_⟩
    rw [decide_eq_true_eq, hsized.resolution]
    exact ⟨by omega, rfl⟩

theorem disjoint_pixels {params : PackingParams} {raw raw' : PCCRawPointsPatch}
    (hsized : RawSized params raw) (hsized' : RawSized params raw')
    (hclear : PackingPatch.Clear params.lowDelayEncoding raw.asPatch raw'.asPatch)
    (leftTopY : ℕ) : List.Disjoint (raw.pixels leftTopY) (raw'.pixels leftTopY) := by
  rintro ⟨x, y⟩ h h'
  exact hclear _ _ ((occupies_of_mem_pixels hsized h).takes _)
    ((occupies_of_mem_pixels hsized' h').needs _)

theorem nodup_pixels (raw : PCCRawPointsPatch) (leftTopY : ℕ) : (raw.pixels leftTopY).Nodup := by
  unfold pixels
  apply List.Nodup.map
  · rintro ⟨u, v⟩ ⟨u', v'⟩ h
    obtain ⟨hx, hy⟩ := Prod.mk.inj h
    rw [Prod.mk.injEq]
    omega
  · exact (nodup_grid _ _).sublist (List.take_sublist _ _)

end PCCRawPointsPatch

/-- The pixels of the raw patches lie in the columns and rows that the patches have. -/
theorem RawPlaced.bounds {params : PackingParams} {stride height : ℕ} {raw : PCCRawPointsPatch}
    (h : RawPlaced params stride height raw) {leftTopY x y : ℕ}
    (hmem : (x, y) ∈ raw.pixels leftTopY) :
    x < stride * params.occupancyResolution ∧ leftTopY ≤ y ∧ y < leftTopY + height := by
  obtain ⟨u, v, hu, hv, -, rfl, rfl⟩ := PCCRawPointsPatch.mem_pixels h.toRawSized hmem
  have hright := Nat.mul_le_mul_right params.occupancyResolution h.right
  have hbelow := h.below
  rw [Nat.add_mul] at hright hbelow
  omega

theorem nodup_rawPixels {params : PackingParams} {raws : List PCCRawPointsPatch}
    (hsized : ∀ raw ∈ raws, RawSized params raw)
    (hclear : raws.Pairwise fun earlier later =>
      PackingPatch.Clear params.lowDelayEncoding earlier.asPatch later.asPatch) (leftTopY : ℕ) :
    (rawPixels leftTopY raws).Nodup := by
  unfold rawPixels
  rw [List.nodup_flatMap]
  constructor
  · intro raw _
    exact raw.nodup_pixels leftTopY
  · exact hclear.imp_of_mem fun hearlier hlater h =>
      PCCRawPointsPatch.disjoint_pixels (hsized _ hearlier) (hsized _ hlater) h leftTopY

def eomBlocks (params : PackingParams) (eomPatch : PCCEomPatch) : ℕ :=
  (eomPatch.eomCount + params.occupancyResolution * params.occupancyResolution - 1) /
    (params.occupancyResolution * params.occupancyResolution)

/-- An EOM patch at the left, in rows of blocks of its own. -/
structure EomPlaced (params : PackingParams) (stride first last : ℕ) (eomPatch : PCCEomPatch) :
    Prop where
  resolution : eomPatch.occupancyResolution = params.occupancyResolution
  left : eomPatch.u0 = 0
  above : first ≤ eomPatch.v0
  below : eomPatch.v0 + eomPatch.sizeV ≤ last
  columns : 0 < stride
  room : eomBlocks params eomPatch ≤ eomPatch.sizeV * stride
  rows : 0 < eomBlocks params eomPatch → 0 < eomPatch.sizeV

namespace PCCEncoder

theorem packEOMAttributePointsPatch_spec {params : PackingParams} {stride first height : ℕ}
    {eomPatches placed : List PCCEomPatch} (hpos : params.occupancyResolution ≠ 0)
    (hres : ∀ eomPatch ∈ eomPatches,
      eomPatch.occupancyResolution = params.occupancyResolution)
    (h : packEOMAttributePointsPatch params stride eomPatches
      (first * params.occupancyResolution) = some (placed, height)) :
    ∃ last, height = last * params.occupancyResolution ∧ first ≤ last ∧
      (∀ eomPatch ∈ placed, EomPlaced params stride first last eomPatch) ∧
      eomCount placed = eomCount eomPatches ∧
      placed.Pairwise fun earlier later => earlier.v0 + earlier.sizeV ≤ later.v0 := by
  induction eomPatches generalizing placed first with
  | nil =>
    obtain ⟨rfl, rfl⟩ := Prod.mk.inj (Option.some.inj h)
    exact ⟨first, rfl, Nat.le_refl _, by simp, rfl, List.Pairwise.nil⟩
  | cons eomPatch eomPatches ih =>
    obtain ⟨blocks, hblocks, h⟩ := Option.bind_eq_some_iff.mp h
    obtain ⟨blocksV, hblocksV, h⟩ := Option.bind_eq_some_iff.mp h
    obtain ⟨⟨rest, height₁⟩, hrest, h⟩ := Option.bind_eq_some_iff.mp h
    obtain ⟨rfl, rfl⟩ := Prod.mk.inj (Option.some.inj h)
    rw [← Nat.add_mul] at hrest
    obtain ⟨last, rfl, hle, hplaced, hcount, hpair⟩ :=
      ih (fun eomPatch' h => hres eomPatch' (List.mem_cons_of_mem eomPatch h)) hrest
    have hfirst : first * params.occupancyResolution / params.occupancyResolution = first :=
      Nat.mul_div_cancel _ (Nat.pos_of_ne_zero hpos)
    have hblocksEq : blocks = eomBlocks params eomPatch := by
      unfold ceilQuotient at hblocks
      rw [if_neg (Nat.mul_ne_zero hpos hpos)] at hblocks
      exact (Option.some.inj hblocks).symm
    obtain ⟨hstride, hroom, hrows⟩ := ceilQuotient_eq_some hblocksV
    refine ⟨last, rfl, by omega, ?_, ?_, ?_⟩
    · intro q hq
      rcases List.mem_cons.mp hq with rfl | hq
      · refine ⟨hres eomPatch List.mem_cons_self, rfl, ?_, ?_, hstride, ?_, ?_⟩
        · simp only [hfirst, Nat.le_refl]
        · simp only [hfirst]
          exact hle
        · exact hblocksEq ▸ hroom
        · exact hblocksEq ▸ hrows
      · have hq := hplaced q hq
        exact ⟨hq.resolution, hq.left, by have := hq.above; omega, hq.below, hq.columns, hq.room,
          hq.rows⟩
    · rw [eomCount_cons, eomCount_cons, hcount]
    · apply List.Pairwise.cons
      · intro q hq
        simp only [hfirst]
        exact (hplaced q hq).above
      · exact hpair

end PCCEncoder

namespace EomPlaced

variable {params : PackingParams} {stride first last : ℕ} {eomPatch : PCCEomPatch}

theorem block_lt {k size : ℕ} (hsize : 0 < size) {count : ℕ} (hk : k < count) :
    k / size < (count + size - 1) / size := by
  calc k / size < k / size + 1 := Nat.lt_succ_self _
    _ = (k + size) / size := (Nat.add_div_right k hsize).symm
    _ ≤ (count + size - 1) / size := Nat.div_le_div_right (by omega)

/-- The rows of the patch have room for its blocks, if there are enough in a row. -/
theorem row_lt (h : EomPlaced params stride first last eomPatch) {widthInBlock nBlock : ℕ}
    (hfit : eomBlocks params eomPatch ≤ widthInBlock ∨ stride ≤ widthInBlock)
    (hblock : nBlock < eomBlocks params eomPatch) :
    0 < widthInBlock ∧ nBlock / widthInBlock < eomPatch.sizeV := by
  rcases hfit with hfit | hfit
  · refine ⟨by omega, ?_⟩
    rw [Nat.div_eq_of_lt (hblock.trans_le hfit)]
    exact h.rows (Nat.zero_lt_of_lt hblock)
  · have hpos := h.columns.trans_le hfit
    refine ⟨hpos, ?_⟩
    rw [Nat.div_lt_iff_lt_mul hpos]
    exact hblock.trans_le (h.room.trans (Nat.mul_le_mul_left _ hfit))

theorem bounds (h : EomPlaced params stride first last eomPatch)
    (hpos : params.occupancyResolution ≠ 0) {widthInBlock leftTopY n x y : ℕ}
    (hfit : eomBlocks params eomPatch ≤ widthInBlock ∨ stride ≤ widthInBlock)
    (hmem : (x, y) ∈ eomPatch.pixelList params.occupancyResolution widthInBlock leftTopY n) :
    x < widthInBlock * params.occupancyResolution ∧
      leftTopY + eomPatch.v0 * params.occupancyResolution ≤ y ∧
      y < leftTopY + (eomPatch.v0 + eomPatch.sizeV) * params.occupancyResolution := by
  obtain ⟨k, hk, hpixel⟩ := List.mem_map.mp hmem
  have hres := Nat.pos_of_ne_zero hpos
  have hsize := Nat.mul_pos hres hres
  simp only [PCCEomPatch.pixel, h.resolution, h.left, Nat.zero_mul, Nat.zero_add] at hpixel
  obtain ⟨rfl, rfl⟩ := Prod.mk.inj hpixel
  have hblock : k / (params.occupancyResolution * params.occupancyResolution) <
      eomBlocks params eomPatch := block_lt hsize (List.mem_range.mp hk)
  obtain ⟨hwidth, hrow⟩ := h.row_lt hfit hblock
  have hcolumn := Nat.mul_le_mul_right params.occupancyResolution (Nat.mod_lt
    (k / (params.occupancyResolution * params.occupancyResolution)) hwidth)
  have hrow' := Nat.mul_le_mul_right params.occupancyResolution hrow
  have hcount := Nat.mod_lt (n + k) hsize
  have hu := Nat.mod_lt
    ((n + k) % (params.occupancyResolution * params.occupancyResolution)) hres
  have hv : (n + k) % (params.occupancyResolution * params.occupancyResolution) /
      params.occupancyResolution < params.occupancyResolution := by
    rw [Nat.div_lt_iff_lt_mul hres]
    exact hcount
  rw [Nat.succ_mul] at hcolumn hrow'
  rw [Nat.add_mul]
  generalize (n + k) % (params.occupancyResolution * params.occupancyResolution) /
    params.occupancyResolution = v at *
  generalize k / (params.occupancyResolution * params.occupancyResolution) / widthInBlock *
    params.occupancyResolution = row at *
  omega

/-- Two points of the patch have different pixels: their blocks differ or, in one block, their
counts. -/
theorem nodup (h : EomPlaced params stride first last eomPatch)
    (hpos : params.occupancyResolution ≠ 0) (widthInBlock leftTopY n : ℕ) :
    (eomPatch.pixelList params.occupancyResolution widthInBlock leftTopY n).Nodup := by
  have hres := Nat.pos_of_ne_zero hpos
  have hsize := Nat.mul_pos hres hres
  unfold PCCEomPatch.pixelList
  apply List.Nodup.map_on _ List.nodup_range
  intro k _ k' _ hpixel
  simp only [PCCEomPatch.pixel, h.resolution] at hpixel
  obtain ⟨hx, hy⟩ := Prod.mk.inj hpixel
  generalize hs : params.occupancyResolution * params.occupancyResolution = size at *
  generalize params.occupancyResolution = r at *
  have hdigit : ∀ {a b c d : ℕ}, b < r → d < r → a * r + b = c * r + d → a = c ∧ b = d := by
    intro a b c d hb hd hsum
    have hmod := congrArg (· % r) hsum
    have hdiv := congrArg (· / r) hsum
    simp only [Nat.mul_add_mod_of_lt hb, Nat.mul_add_mod_of_lt hd] at hmod
    rw [Nat.mul_comm a, Nat.mul_comm c] at hdiv
    simp only [Nat.mul_add_div hres, Nat.div_eq_of_lt hb, Nat.div_eq_of_lt hd] at hdiv
    exact ⟨hdiv, hmod⟩
  have hrow : ∀ m, m % size / r < r := by
    intro m
    rw [Nat.div_lt_iff_lt_mul hres, hs]
    exact Nat.mod_lt m hsize
  obtain ⟨hblockMod, hcountMod⟩ := hdigit (a := k / size % widthInBlock)
    (c := k' / size % widthInBlock) (Nat.mod_lt ((n + k) % size) hres)
    (Nat.mod_lt ((n + k') % size) hres) (by omega)
  obtain ⟨hblockDiv, hcountDiv⟩ := hdigit (a := k / size / widthInBlock)
    (c := k' / size / widthInBlock) (hrow (n + k)) (hrow (n + k')) (by omega)
  have hblock : k / size = k' / size := by
    rw [← Nat.div_add_mod (k / size) widthInBlock, hblockMod, hblockDiv, Nat.div_add_mod]
  have hcount : (n + k) % size = (n + k') % size := by
    rw [← Nat.div_add_mod ((n + k) % size) r, hcountMod, hcountDiv, Nat.div_add_mod]
  have hplace : k % size = k' % size := Nat.ModEq.add_left_cancel' n hcount
  rw [← Nat.div_add_mod k size, ← Nat.div_add_mod k' size, hblock, hplace]

end EomPlaced

end V3C

import V3C.Video.PushPullMip

/-! The push-pull filling keeps what is occupied, and every other pixel is between occupied ones. -/
namespace V3C

open PushPullLevel

section Push

variable {lo hi : Fin 3 → ℕ} {level : PushPullLevel}

/-- A loop over a picture that gives every pixel that is not occupied a bounded colour. -/
theorem exists_fill {step : PCCImageAttribute → ℕ × ℕ → Option PCCImageAttribute}
    {start : PCCImageAttribute} (hwithin : level.OccupiedWithin lo hi)
    (hsize : start.SameSize level.image)
    (hstart : ∀ pixel, level.Occupied pixel → start.colorOf pixel = level.image.colorOf pixel)
    (hstep : ∀ image pixel, image.SameSize level.image → level.image.Inside pixel →
      level.Occupied pixel ∧ step image pixel = some image ∨
        ¬level.Occupied pixel ∧ ∃ color, ColorWithin lo hi color ∧
          step image pixel = PCCEncoder.setColor image pixel color) :
    ∃ image, (grid level.image.width level.image.height).foldlM step start = some image ∧
      level.FilledWithin lo hi image := by
  let Filled (visited : List (ℕ × ℕ)) (image : PCCImageAttribute) : Prop :=
    image.SameSize level.image ∧
      (∀ pixel, level.Occupied pixel → image.colorOf pixel = level.image.colorOf pixel) ∧
      ∀ pixel ∈ visited, ColorWithin lo hi (image.colorOf pixel)
  have hrun : ∃ image, (grid level.image.width level.image.height).foldlM step start = some image ∧
      Filled (grid level.image.width level.image.height) image := by
    apply Codec.exists_foldlM (P := Filled) _
      ⟨hsize, hstart, fun pixel hpixel => absurd hpixel List.not_mem_nil⟩
    intro visited pixel image hvisited hfilled
    obtain ⟨himage, hoccupied, hcolors⟩ := hfilled
    have hpixel : level.image.Inside pixel :=
      mem_grid.mp (hvisited.subset (List.mem_append_right visited List.mem_cons_self))
    rcases hstep image pixel himage hpixel with hkeep | hset
    · refine ⟨image, hkeep.2, himage, hoccupied, ?_⟩
      intro other hother
      rcases List.mem_append.mp hother with hother | hother
      · exact hcolors other hother
      · rw [List.mem_singleton.mp hother, hoccupied pixel hkeep.1]
        exact hwithin pixel hkeep.1
    · obtain ⟨hempty, color, hcolor, hset⟩ := hset
      have hinside := (himage.inside_iff pixel).mpr hpixel
      rw [PCCEncoder.setColor_of_inside hinside] at hset
      refine ⟨image.update pixel color, hset, himage, ?_, ?_⟩
      · intro other hother
        have hne : other ≠ pixel := fun h => hempty (h ▸ hother)
        rw [PCCImageAttribute.colorOf_update_ne _ _ hne]
        exact hoccupied other hother
      · intro other hother
        by_cases hsame : other = pixel
        · rw [hsame, PCCImageAttribute.colorOf_update_self]
          exact hcolor
        · rw [PCCImageAttribute.colorOf_update_ne _ _ hsame]
          apply hcolors
          rcases List.mem_append.mp hother with hother | hother
          · exact hother
          · exact absurd (List.mem_singleton.mp hother) hsame
  obtain ⟨image, himage, hsize, hoccupied, hcolors⟩ := hrun
  refine ⟨image, himage, hsize, hoccupied, ?_⟩
  intro pixel hpixel
  exact hcolors pixel (mem_grid.mpr ((hsize.inside_iff pixel).mp hpixel))

theorem fillNeighbor_lt {up size x : ℕ} (hup : up / 2 < size)
    (h : PCCEncoder.fillNeighbor up size = some x) : x < size := by
  unfold PCCEncoder.fillNeighbor at h
  dsimp only at h
  split_ifs at h with heven hbefore hafter
  · have hx := Option.some.inj h
    omega
  · have hx := Option.some.inj h
    omega

theorem fillColor_of_inside {mip : PCCImageAttribute} {x y : ℕ} (h : mip.Inside (x, y))
    (weight : ℕ) : PCCEncoder.fillColor mip weight (some x) (some y) =
      some (mip.colorOf (x, y), weight) := by
  change (PCCCodec.colorAt mip (x, y)).map (fun color => (color, weight)) = _
  rw [PCCCodec.colorAt_of_inside h]
  rfl

/-- A pixel of a bounded mipmap enters a mean with a bounded colour, or without a weight. -/
theorem exists_fillColor {mip : PCCImageAttribute}
    (hmip : ∀ pixel, mip.Inside pixel → ColorWithin lo hi (mip.colorOf pixel)) (weight : ℕ)
    {x y : Option ℕ} (hx : ∀ n, x = some n → n < mip.width)
    (hy : ∀ n, y = some n → n < mip.height) :
    ∃ entry, PCCEncoder.fillColor mip weight x y = some entry ∧
      (entry.2 ≠ 0 → ColorWithin lo hi entry.1) := by
  have habsent : ∃ entry : PCCColor16bit × ℕ, some (0, 0) = some entry ∧
      (entry.2 ≠ 0 → ColorWithin lo hi entry.1) := ⟨(0, 0), rfl, fun h => absurd rfl h⟩
  cases x with
  | none => exact habsent
  | some x =>
    cases y with
    | none => exact habsent
    | some y =>
      have hinside : mip.Inside (x, y) := ⟨hx x rfl, hy y rfl⟩
      refine ⟨(mip.colorOf (x, y), weight), ?_, fun _ => hmip _ hinside⟩
      exact fillColor_of_inside hinside weight

/-- The nearest pixel of the mipmap has a weight, so that the mean is defined. -/
theorem pushPullFillPixel_step (hhi : ∀ c, hi c < 256) (hsized : level.Sized)
    {mip : PCCImageAttribute}
    (hmip : ∀ pixel, mip.Inside pixel → ColorWithin lo hi (mip.colorOf pixel))
    (hmipWidth : (level.image.width + 1) / 2 = mip.width)
    (hmipHeight : (level.image.height + 1) / 2 = mip.height) (image : PCCImageAttribute)
    (pixel : ℕ × ℕ) (himage : image.SameSize level.image) (hpixel : level.image.Inside pixel) :
    level.Occupied pixel ∧
        PCCEncoder.pushPullFillPixel mip level.occupancyMap image pixel = some image ∨
      ¬level.Occupied pixel ∧ ∃ color, ColorWithin lo hi color ∧
        PCCEncoder.pushPullFillPixel mip level.occupancyMap image pixel =
          PCCEncoder.setColor image pixel color := by
  obtain ⟨occupancy, hoccupancy⟩ := hsized.exists_occupancy hpixel
  have hiff := occupied_iff hpixel hoccupancy
  unfold PCCEncoder.pushPullFillPixel
  rw [himage.1, hoccupancy]
  simp only [Option.bind_eq_bind, Option.bind_some]
  by_cases hzero : occupancy = 0
  · have hx : pixel.1 / 2 < mip.width := by
      have := hpixel.1
      omega
    have hy : pixel.2 / 2 < mip.height := by
      have := hpixel.2
      omega
    have hxSome : ∀ n, some (pixel.1 / 2) = some n → n < mip.width := by
      simpa using hx
    have hySome : ∀ n, some (pixel.2 / 2) = some n → n < mip.height := by
      simpa using hy
    have hxSide : ∀ n, PCCEncoder.fillNeighbor pixel.1 mip.width = some n → n < mip.width :=
      fun n => fillNeighbor_lt hx
    have hySide : ∀ n, PCCEncoder.fillNeighbor pixel.2 mip.height = some n → n < mip.height :=
      fun n => fillNeighbor_lt hy
    have hval : PCCEncoder.fillColor mip 144 (some (pixel.1 / 2)) (some (pixel.2 / 2)) =
        some (mip.colorOf (pixel.1 / 2, pixel.2 / 2), 144) := fillColor_of_inside ⟨hx, hy⟩ 144
    have hwithin := hmip (pixel.1 / 2, pixel.2 / 2) ⟨hx, hy⟩
    obtain ⟨side, hside, hsideWithin⟩ := exists_fillColor hmip 48 hxSide hySome
    obtain ⟨upDown, hupDown, hupDownWithin⟩ := exists_fillColor hmip 48 hxSome hySide
    obtain ⟨diagonal, hdiagonal, hdiagonalWithin⟩ :=
      exists_fillColor hmip 16 hxSide hySide
    have hmean : ∀ entry ∈ [(mip.colorOf (pixel.1 / 2, pixel.2 / 2), 144), side, upDown, diagonal],
        entry.2 ≠ 0 → ColorWithin lo hi entry.1 := by
      simp only [List.mem_cons, List.not_mem_nil, or_false, forall_eq_or_imp, forall_eq]
      exact ⟨fun _ => hwithin, hsideWithin, hupDownWithin, hdiagonalWithin⟩
    obtain ⟨color, hcolor, hbounds⟩ := PCCEncoder.exists_meanColor
      (fun c => (hhi c).trans (by decide)) (by dsimp only; omega) hmean
    refine Or.inr ⟨fun h => hiff.mp h hzero, color, hbounds, ?_⟩
    rw [if_pos hzero, hval, hside, hupDown, hdiagonal]
    simp only [Option.bind_some, hcolor]
  · exact Or.inl ⟨hiff.mpr hzero, if_neg hzero⟩

theorem smoothPixel_step (hhi : ∀ c, hi c < 256) (hsized : level.Sized)
    {image : PCCImageAttribute} (hfilled : level.FilledWithin lo hi image)
    (tmpImage : PCCImageAttribute) (pixel : ℕ × ℕ) (hpixel : level.image.Inside pixel) :
    level.Occupied pixel ∧
        PCCEncoder.smoothPixel image level.occupancyMap tmpImage pixel = some tmpImage ∨
      ¬level.Occupied pixel ∧ ∃ color, ColorWithin lo hi color ∧
        PCCEncoder.smoothPixel image level.occupancyMap tmpImage pixel =
          PCCEncoder.setColor tmpImage pixel color := by
  obtain ⟨occupancy, hoccupancy⟩ := hsized.exists_occupancy hpixel
  have hiff := occupied_iff hpixel hoccupancy
  unfold PCCEncoder.smoothPixel
  rw [hfilled.sameSize.1, hoccupancy]
  simp only [Option.bind_eq_bind, Option.bind_some]
  by_cases hzero : occupancy = 0
  · have hx := hpixel.1
    have hy := hpixel.2
    have hx1 : (if 0 < pixel.1 then pixel.1 - 1 else pixel.1) < image.width := by
      rw [hfilled.sameSize.1]
      split_ifs <;> omega
    have hy1 : (if 0 < pixel.2 then pixel.2 - 1 else pixel.2) < image.height := by
      rw [hfilled.sameSize.2]
      split_ifs <;> omega
    have hx2 : (if pixel.1 < level.image.width - 1 then pixel.1 + 1 else pixel.1) <
        image.width := by
      rw [hfilled.sameSize.1]
      split_ifs <;> omega
    have hy2 : (if pixel.2 < image.height - 1 then pixel.2 + 1 else pixel.2) < image.height := by
      rw [hfilled.sameSize.2]
      split_ifs <;> omega
    have hx0 : pixel.1 < image.width := by rw [hfilled.sameSize.1]; exact hx
    have hy0 : pixel.2 < image.height := by rw [hfilled.sameSize.2]; exact hy
    generalize (if 0 < pixel.1 then pixel.1 - 1 else pixel.1) = x1 at hx1 ⊢
    generalize (if 0 < pixel.2 then pixel.2 - 1 else pixel.2) = y1 at hy1 ⊢
    generalize (if pixel.1 < level.image.width - 1 then pixel.1 + 1 else pixel.1) = x2 at hx2 ⊢
    generalize (if pixel.2 < image.height - 1 then pixel.2 + 1 else pixel.2) = y2 at hy2 ⊢
    have hinside : ∀ other ∈ [(x1, y1), (x2, y1), (x1, y2), (x2, y2), (x1, pixel.2),
        (x2, pixel.2), (pixel.1, y1), (pixel.1, y2)], image.Inside other := by
      simp only [List.mem_cons, List.not_mem_nil, or_false, forall_eq_or_imp, forall_eq]
      exact ⟨⟨hx1, hy1⟩, ⟨hx2, hy1⟩, ⟨hx1, hy2⟩, ⟨hx2, hy2⟩, ⟨hx1, hy0⟩, ⟨hx2, hy0⟩, ⟨hx0, hy1⟩,
        ⟨hx0, hy2⟩⟩
    generalize hneighbors : [(x1, y1), (x2, y1), (x1, y2), (x2, y2), (x1, pixel.2),
      (x2, pixel.2), (pixel.1, y1), (pixel.1, y2)] = neighbors at hinside ⊢
    have hcolors : neighbors.mapM (PCCCodec.colorAt image) = some (neighbors.map image.colorOf) :=
      Codec.mapM_eq_some_map fun other hother => PCCCodec.colorAt_of_inside (hinside other hother)
    have hlength : (neighbors.map image.colorOf).length = 8 := by
      rw [List.length_map, ← hneighbors]
      rfl
    have hwithin : ∀ color ∈ neighbors.map image.colorOf, ColorWithin lo hi color := by
      intro color hcolor
      obtain ⟨other, hother, rfl⟩ := List.mem_map.mp hcolor
      exact hfilled.within other (hinside other hother)
    refine Or.inr ⟨fun h => hiff.mp h hzero, _,
      smoothColor_within (fun c => (hhi c).trans (by decide)) hlength hwithin, ?_⟩
    rw [if_pos hzero, hcolors, Option.bind_some]
  · exact Or.inl ⟨hiff.mpr hzero, if_neg hzero⟩

/-- Both buffers of the passes hold the occupied pixels. -/
theorem exists_smoothPasses (hhi : ∀ c, hi c < 256) (hsized : level.Sized)
    (hwithin : level.OccupiedWithin lo hi) (n : ℕ) {image tmpImage : PCCImageAttribute}
    (himage : level.FilledWithin lo hi image) (htmp : level.FilledWithin lo hi tmpImage) :
    ∃ result, PCCEncoder.smoothPasses level.occupancyMap n image tmpImage = some result ∧
      level.FilledWithin lo hi result := by
  induction n generalizing image tmpImage with
  | zero => exact ⟨image, rfl, himage⟩
  | succ n ih =>
    obtain ⟨next, hnext, hfilled⟩ := exists_fill hwithin htmp.sameSize htmp.occupied
      fun tmp pixel _ hpixel => smoothPixel_step hhi hsized himage tmp pixel hpixel
    obtain ⟨result, hresult, hresultFilled⟩ := ih hfilled himage
    refine ⟨result, ?_, hresultFilled⟩
    rw [PCCEncoder.smoothPasses, himage.sameSize.1, himage.sameSize.2, hnext,
      Option.bind_eq_bind, Option.bind_some]
    exact hresult

/-- A level is filled from a mipmap whose pixels are all bounded. -/
theorem exists_pushPullFill (hhi : ∀ c, hi c < 256) (hsized : level.Sized)
    (hwithin : level.OccupiedWithin lo hi) {mip : PCCImageAttribute}
    (hmip : ∀ pixel, mip.Inside pixel → ColorWithin lo hi (mip.colorOf pixel))
    (hmipWidth : (level.image.width + 1) / 2 = mip.width)
    (hmipHeight : (level.image.height + 1) / 2 = mip.height) (numIters : ℕ) :
    ∃ image, PCCEncoder.pushPullFill level mip numIters = some image ∧
      level.FilledWithin lo hi image := by
  obtain ⟨image, himage, hfilled⟩ := exists_fill hwithin ⟨rfl, rfl⟩ (fun _ _ => rfl)
    (pushPullFillPixel_step hhi hsized hmip hmipWidth hmipHeight)
  obtain ⟨result, hresult, hresultFilled⟩ :=
    exists_smoothPasses hhi hsized hwithin numIters hfilled hfilled
  refine ⟨result, ?_, hresultFilled⟩
  unfold PCCEncoder.pushPullFill
  rw [if_pos ⟨hmipWidth, hmipHeight⟩, himage, Option.bind_eq_bind, Option.bind_some]
  exact hresult

end Push

/-- The number of mipmaps of a picture: the sizes are halved and rounded up, until a side has at
most four pixels. -/
def mipLevels (width height : ℕ) : ℕ :=
  if (width + 1) / 2 ≤ 4 ∨ (height + 1) / 2 ≤ 4 then 1
  else mipLevels ((width + 1) / 2) ((height + 1) / 2) + 1
termination_by width

/-- The induction up the pyramid and down again. The coarsest mipmap is occupied everywhere, and
what is filled is bounded everywhere. -/
theorem exists_pyramid {lo hi : Fin 3 → ℕ} (hhi : ∀ c, hi c < 256) (n : ℕ) {level : PushPullLevel}
    (hn : level.image.width ≤ n) (hsized : level.Sized) (hwithin : level.OccupiedWithin lo hi)
    (hcovered : level.Covered (mipLevels level.image.width level.image.height)) :
    ∃ mips image numIters, (∀ fuel, n ≤ fuel → PCCEncoder.pullMips fuel level = some mips) ∧
      PCCEncoder.pushMips level mips = some (image, numIters) ∧
      level.FilledWithin lo hi image := by
  induction n generalizing level with
  | zero =>
    have := hsized.width_pos
    omega
  | succ n ih =>
    obtain ⟨mip, hpull, hmip, hmipWithin⟩ := exists_pushPullMip hsized hwithin hhi
    have hmipWidth := hmip.width_eq
    have hmipHeight := hmip.height_eq
    have hfuel : ∀ fuel, n + 1 ≤ fuel → ∃ rest, fuel = rest + 1 ∧ n ≤ rest := by
      intro fuel hle
      exact ⟨fuel - 1, by omega, by omega⟩
    rw [mipLevels, ← hmipWidth, ← hmipHeight] at hcovered
    by_cases hlast : mip.image.width ≤ 4 ∨ mip.image.height ≤ 4
    · rw [if_pos hlast] at hcovered
      have hall := hmip.covered hcovered
      have hbounded : ∀ pixel, mip.image.Inside pixel →
          ColorWithin lo hi (mip.image.colorOf pixel) := by
        intro pixel hpixel
        obtain ⟨other, hother, hx, hy⟩ := hall pixel (by simpa using hpixel.1)
          (by simpa using hpixel.2)
        rw [pow_zero, Nat.div_one] at hx hy
        have hsame : other = pixel := Prod.ext hx hy
        exact hmipWithin pixel (hsame ▸ hother)
      obtain ⟨image, himage, hfilled⟩ :=
        exists_pushPullFill hhi hsized hwithin hbounded hmipWidth.symm hmipHeight.symm 4
      refine ⟨[mip], image, 5, ?_, ?_, hfilled⟩
      · intro fuel hle
        obtain ⟨rest, rfl, -⟩ := hfuel fuel hle
        rw [PCCEncoder.pullMips, hpull, Option.bind_eq_bind, Option.bind_some, if_pos hlast]
      · unfold PCCEncoder.pushMips
        unfold PCCEncoder.pushMips
        rw [Option.bind_eq_bind, Option.bind_some]
        dsimp only
        rw [himage]
        rfl
    · rw [if_neg hlast] at hcovered
      have hle : mip.image.width ≤ n := by
        have := hsized.width_pos
        omega
      obtain ⟨mips, filled, numIters, hmips, hpush, hfilled⟩ :=
        ih hle hmip.sized hmipWithin (hmip.covered hcovered)
      obtain ⟨hsize, -, hbounded⟩ := hfilled
      obtain ⟨image, himage, hresult⟩ := exists_pushPullFill hhi hsized hwithin hbounded
        (by rw [← hmipWidth, hsize.1]) (by rw [← hmipHeight, hsize.2]) numIters
      refine ⟨mip :: mips, image, min (numIters + 1) 16, ?_, ?_, hresult⟩
      · intro fuel hle
        obtain ⟨rest, rfl, hrest⟩ := hfuel fuel hle
        rw [PCCEncoder.pullMips, hpull, Option.bind_eq_bind, Option.bind_some, if_neg hlast,
          hmips rest hrest]
        rfl
      · rw [PCCEncoder.pushMips, hpush, Option.bind_eq_bind, Option.bind_some]
        dsimp only
        rw [himage]
        rfl

/-- A picture whose samples have eight bits, and whose occupancy map has an occupied pixel in each
cell of the coarsest mipmap. -/
structure PushPullPicture extends PushPullLevel where
  width_pos : 0 < image.width
  height_pos : 0 < image.height
  length_eq : occupancyMap.length = image.width * image.height
  samples_lt : ∀ pixel, image.Inside pixel → ∀ c, (image.channels c pixel).toNat < 256
  covered : toPushPullLevel.Covered (mipLevels image.width image.height)

namespace PushPullPicture

variable (picture : PushPullPicture)

theorem sized : picture.Sized := ⟨picture.width_pos, picture.height_pos, picture.length_eq⟩

/-- The filling does not depend on the bounds that it is between. -/
theorem exists_filled : ∃ image,
    (∀ fuel, picture.image.width ≤ fuel →
      PCCEncoder.dilateSmoothedPushPull fuel picture.toPushPullLevel = some image) ∧
    ∀ lo hi : Fin 3 → ℕ, (∀ c, hi c < 256) → picture.OccupiedWithin lo hi →
      picture.FilledWithin lo hi image := by
  have hpyramid : ∀ lo hi : Fin 3 → ℕ, (∀ c, hi c < 256) → picture.OccupiedWithin lo hi →
      ∃ image, (∀ fuel, picture.image.width ≤ fuel →
        PCCEncoder.dilateSmoothedPushPull fuel picture.toPushPullLevel = some image) ∧
      picture.FilledWithin lo hi image := by
    intro lo hi hhi hwithin
    obtain ⟨mips, image, numIters, hmips, hpush, hfilled⟩ :=
      exists_pyramid hhi picture.image.width (le_refl _) picture.sized hwithin picture.covered
    refine ⟨image, ?_, hfilled⟩
    intro fuel hfuel
    unfold PCCEncoder.dilateSmoothedPushPull
    rw [hmips fuel hfuel, Option.bind_eq_bind, Option.bind_some, hpush]
    rfl
  have hbytes : picture.OccupiedWithin (fun _ => 0) (fun _ => 255) := by
    intro pixel hpixel c
    exact ⟨Nat.zero_le _, Nat.le_of_lt_succ (picture.samples_lt pixel hpixel.1 c)⟩
  obtain ⟨image, himage, -⟩ := hpyramid _ _ (fun _ => by decide) hbytes
  refine ⟨image, himage, ?_⟩
  intro lo hi hhi hwithin
  obtain ⟨other, hother, hfilled⟩ := hpyramid lo hi hhi hwithin
  have hsame := (himage _ (le_refl _)).symm.trans (hother _ (le_refl _))
  rw [Option.some.inj hsame]
  exact hfilled

/-- The filling ends, keeps the occupied pixels, and gives each other pixel in each channel a
value between two that occupied pixels have. -/
theorem dilateSmoothedPushPull_between : ∃ image,
    (∀ fuel, picture.image.width ≤ fuel →
      PCCEncoder.dilateSmoothedPushPull fuel picture.toPushPullLevel = some image) ∧
    image.SameSize picture.image ∧
    (∀ pixel, picture.Occupied pixel → image.colorOf pixel = picture.image.colorOf pixel) ∧
    ∀ pixel, picture.image.Inside pixel → ¬picture.Occupied pixel → ∀ c,
      ∃ low high, picture.Occupied low ∧ picture.Occupied high ∧
        picture.image.channels c low ≤ image.channels c pixel ∧
        image.channels c pixel ≤ picture.image.channels c high := by
  obtain ⟨image, himage, hfilled⟩ := picture.exists_filled
  have hbytes : ∀ pixel, picture.Occupied pixel → ∀ c,
      (picture.image.colorOf pixel c).toNat < 256 :=
    fun pixel hpixel => picture.samples_lt pixel hpixel.1
  have hall := hfilled (fun _ => 0) (fun _ => 255) (fun _ => by decide)
    fun pixel hpixel c => ⟨Nat.zero_le _, Nat.le_of_lt_succ (hbytes pixel hpixel c)⟩
  refine ⟨image, himage, hall.sameSize, hall.occupied, ?_⟩
  intro pixel hpixel _ c
  have hinside := (hall.sameSize.inside_iff pixel).mpr hpixel
  -- A bound that no occupied pixel reaches is one that the filling does not reach either.
  have hlow : ∃ low, picture.Occupied low ∧
      (picture.image.channels c low).toNat ≤ (image.channels c pixel).toNat := by
    by_contra h
    push Not at h
    let lo : Fin 3 → ℕ := fun cc => if cc = c then (image.channels c pixel).toNat + 1 else 0
    have hbound : picture.OccupiedWithin lo (fun _ => 255) := by
      intro other hother cc
      refine ⟨?_, Nat.le_of_lt_succ (hbytes other hother cc)⟩
      change (if cc = c then _ else 0) ≤ _
      split_ifs with hcc
      · rw [hcc]
        exact h other hother
      · exact Nat.zero_le _
    have hle := ((hfilled lo _ (fun _ => by decide) hbound).within pixel hinside c).1
    have hlo : lo c = (image.channels c pixel).toNat + 1 := if_pos rfl
    rw [hlo] at hle
    exact absurd hle (Nat.not_succ_le_self _)
  obtain ⟨low, hlowOccupied, hlowLe⟩ := hlow
  have hhigh : ∃ high, picture.Occupied high ∧
      (image.channels c pixel).toNat ≤ (picture.image.channels c high).toNat := by
    by_contra h
    push Not at h
    let hi : Fin 3 → ℕ := fun cc => if cc = c then (image.channels c pixel).toNat - 1 else 255
    have hvalue := (hall.within pixel hinside c).2
    have hpos : 0 < (image.channels c pixel).toNat :=
      Nat.zero_lt_of_lt (h low hlowOccupied)
    have hhi : ∀ cc, hi cc < 256 := by
      intro cc
      change (if cc = c then _ else 255) < 256
      split_ifs
      · change (image.channels c pixel).toNat ≤ 255 at hvalue
        omega
      · decide
    have hbound : picture.OccupiedWithin (fun _ => 0) hi := by
      intro other hother cc
      refine ⟨Nat.zero_le _, ?_⟩
      change _ ≤ if cc = c then _ else 255
      split_ifs with hcc
      · rw [hcc]
        exact Nat.le_sub_one_of_lt (h other hother)
      · exact Nat.le_of_lt_succ (hbytes other hother cc)
    have hle := ((hfilled _ hi hhi hbound).within pixel hinside c).2
    have hhiEq : hi c = (image.channels c pixel).toNat - 1 := if_pos rfl
    rw [hhiEq] at hle
    change (image.channels c pixel).toNat ≤ _ at hle
    omega
  obtain ⟨high, hhighOccupied, hhighLe⟩ := hhigh
  exact ⟨low, high, hlowOccupied, hhighOccupied, UInt16.le_iff_toNat_le.mpr hlowLe,
    UInt16.le_iff_toNat_le.mpr hhighLe⟩

end PushPullPicture

/-- A picture of nine by nine pixels, of which only those at multiples of four are occupied. It has
two mipmaps, of five by five and of three by three pixels. -/
def latticeLevel : PushPullLevel where
  image :=
    { width := 9
      height := 9
      channels := fun c pixel => UInt16.ofNat (8 * (pixel.1 + pixel.2) + c) }
  occupancyMap := (List.range 81).map fun i => if i % 9 % 4 = 0 ∧ i / 9 % 4 = 0 then 1 else 0

theorem latticeLevel_occupied {x y : ℕ} (hx : x < 3) (hy : y < 3) :
    latticeLevel.Occupied (4 * x, 4 * y) := by
  refine ⟨⟨?_, ?_⟩, 1, ?_, by decide⟩
  · change 4 * x < 9
    omega
  · change 4 * y < 9
    omega
  · have hlt : 4 * x + 9 * (4 * y) < 81 := by omega
    change latticeLevel.occupancyMap[4 * x + 9 * (4 * y)]? = some 1
    have hcolumn : (4 * x + 9 * (4 * y)) % 9 = 4 * x := by omega
    have hrow : (4 * x + 9 * (4 * y)) / 9 = 4 * y := by omega
    unfold latticeLevel
    rw [List.getElem?_map, List.getElem?_range hlt, Option.map_some, hcolumn, hrow, if_pos]
    omega

theorem latticeLevel_samples {pixel : ℕ × ℕ} (hpixel : latticeLevel.image.Inside pixel)
    (c : Fin 3) : (latticeLevel.image.channels c pixel).toNat = 8 * (pixel.1 + pixel.2) + c := by
  obtain ⟨hx, hy⟩ := hpixel
  change pixel.1 < 9 at hx
  change pixel.2 < 9 at hy
  have hsize : UInt16.size = 65536 := rfl
  exact UInt16.toNat_ofNat_of_lt' (by omega)

theorem mipLevels_nine : mipLevels 9 9 = 2 := by
  rw [mipLevels, if_neg (by decide), mipLevels, if_pos (by decide)]

def latticePicture : PushPullPicture where
  toPushPullLevel := latticeLevel
  width_pos := by decide
  height_pos := by decide
  length_eq := by decide
  samples_lt := by
    intro pixel hpixel c
    have hsamples := latticeLevel_samples hpixel c
    obtain ⟨hx, hy⟩ := hpixel
    change pixel.1 < 9 at hx
    change pixel.2 < 9 at hy
    omega
  covered := by
    change latticeLevel.Covered (mipLevels 9 9)
    rw [mipLevels_nine]
    intro cell hx hy
    change cell.1 * 4 < 9 at hx
    change cell.2 * 4 < 9 at hy
    exact ⟨_, latticeLevel_occupied (by omega : cell.1 < 3) (by omega : cell.2 < 3), by omega,
      by omega⟩

/-- Nine of the eighty-one pixels are occupied, and the filling of the others ends. -/
theorem dilateSmoothedPushPull_latticePicture :
    ∃ image, PCCEncoder.dilateSmoothedPushPull 9 latticePicture.toPushPullLevel = some image ∧
      image.channels 1 (8, 4) = 97 ∧
      ∀ c, (0 : UInt16) ≤ image.channels c (5, 7) ∧ image.channels c (5, 7) ≤ 130 := by
  obtain ⟨image, himage, -, hkept, hbetween⟩ := latticePicture.dilateSmoothedPushPull_between
  refine ⟨image, himage 9 (le_refl _), ?_, ?_⟩
  · exact congrFun (hkept (4 * 2, 4 * 1) (latticeLevel_occupied (by decide) (by decide))) 1
  · intro c
    have hempty : ¬latticePicture.Occupied (5, 7) := by
      rintro ⟨-, occ, hocc, hne⟩
      have hzero : (0 : ℕ) = occ := Option.some.inj hocc
      exact hne hzero.symm
    obtain ⟨-, high, -, hhigh, -, hle⟩ := hbetween (5, 7) ⟨by decide, by decide⟩ hempty c
    refine ⟨Nat.zero_le _, UInt16.le_trans hle ?_⟩
    have hsamples := latticeLevel_samples hhigh.1 c
    obtain ⟨hx, hy⟩ := hhigh.1
    change high.1 < 9 at hx
    change high.2 < 9 at hy
    rw [UInt16.le_iff_toNat_le]
    change (latticeLevel.image.channels c high).toNat ≤ 130
    omega

end V3C

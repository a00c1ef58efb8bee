import Mathlib.Tactic.Ring
import V3C.Codec.Traverse
import V3C.Video.PushPull

/-! The mipmaps of a push-pull filling: their occupied pixels are means of occupied pixels, and are
between the same bounds. -/
namespace V3C

/-- The colours between two bounds, channel by channel. -/
def ColorWithin (lo hi : Fin 3 → ℕ) (color : PCCColor16bit) : Prop :=
  ∀ c, lo c ≤ (color c).toNat ∧ (color c).toNat ≤ hi c

namespace PCCImageAttribute

def colorOf (image : PCCImageAttribute) (pixel : ℕ × ℕ) : PCCColor16bit :=
  fun c => image.channels c pixel

/-- Two images of one size. -/
def SameSize (image other : PCCImageAttribute) : Prop :=
  image.width = other.width ∧ image.height = other.height

/-- The image with another colour in one pixel. -/
def update (image : PCCImageAttribute) (pixel : ℕ × ℕ) (color : PCCColor16bit) :
    PCCImageAttribute :=
  { image with channels := fun c => Function.update (image.channels c) pixel (color c) }

theorem SameSize.inside_iff {image other : PCCImageAttribute} (h : image.SameSize other)
    (pixel : ℕ × ℕ) : image.Inside pixel ↔ other.Inside pixel := by
  unfold Inside
  rw [h.1, h.2]

@[simp] theorem colorOf_update_self (image : PCCImageAttribute) (pixel : ℕ × ℕ)
    (color : PCCColor16bit) : (image.update pixel color).colorOf pixel = color := by
  funext c
  exact Function.update_self _ _ _

theorem colorOf_update_ne (image : PCCImageAttribute) {pixel other : ℕ × ℕ}
    (color : PCCColor16bit) (h : other ≠ pixel) :
    (image.update pixel color).colorOf other = image.colorOf other := by
  funext c
  exact Function.update_of_ne h _ _

end PCCImageAttribute

theorem PCCCodec.colorAt_of_inside {image : PCCImageAttribute} {pixel : ℕ × ℕ}
    (h : image.Inside pixel) : PCCCodec.colorAt image pixel = some (image.colorOf pixel) := by
  rw [PCCCodec.colorAt_eq, if_pos h]
  rfl

theorem PCCEncoder.setColor_of_inside {image : PCCImageAttribute} {pixel : ℕ × ℕ}
    (h : image.Inside pixel) (color : PCCColor16bit) :
    PCCEncoder.setColor image pixel color = some (image.update pixel color) := by
  rw [PCCEncoder.setColor_eq, if_pos h]
  rfl

namespace PushPullLevel

/-- A picture with pixels, and one entry of the occupancy map for each. -/
structure Sized (level : PushPullLevel) : Prop where
  width_pos : 0 < level.image.width
  height_pos : 0 < level.image.height
  length_eq : level.occupancyMap.length = level.image.width * level.image.height

def Occupied (level : PushPullLevel) (pixel : ℕ × ℕ) : Prop :=
  level.image.Inside pixel ∧ ∃ occupancy,
    level.occupancyMap[pixel.1 + level.image.width * pixel.2]? = some occupancy ∧ occupancy ≠ 0

/-- The occupied pixels are between the bounds. -/
def OccupiedWithin (lo hi : Fin 3 → ℕ) (level : PushPullLevel) : Prop :=
  ∀ pixel, level.Occupied pixel → ColorWithin lo hi (level.image.colorOf pixel)

/-- Each cell of `2 ^ k` by `2 ^ k` pixels has an occupied pixel. -/
def Covered (k : ℕ) (level : PushPullLevel) : Prop :=
  ∀ cell : ℕ × ℕ, cell.1 * 2 ^ k < level.image.width → cell.2 * 2 ^ k < level.image.height →
    ∃ pixel, level.Occupied pixel ∧ pixel.1 / 2 ^ k = cell.1 ∧ pixel.2 / 2 ^ k = cell.2

/-- A filling of a level: the occupied pixels are as they were, and all are between the bounds. -/
structure FilledWithin (lo hi : Fin 3 → ℕ) (level : PushPullLevel) (image : PCCImageAttribute) :
    Prop where
  sameSize : image.SameSize level.image
  occupied : ∀ pixel, level.Occupied pixel → image.colorOf pixel = level.image.colorOf pixel
  within : ∀ pixel, image.Inside pixel → ColorWithin lo hi (image.colorOf pixel)

theorem Sized.exists_occupancy {level : PushPullLevel} (h : level.Sized) {pixel : ℕ × ℕ}
    (hpixel : level.image.Inside pixel) :
    ∃ occupancy, level.occupancyMap[pixel.1 + level.image.width * pixel.2]? = some occupancy := by
  have hlt : pixel.1 + level.image.width * pixel.2 < level.occupancyMap.length := by
    have hindex := pixel_lt hpixel.1 hpixel.2
    rw [h.length_eq, Nat.add_comm, Nat.mul_comm level.image.width pixel.2]
    exact hindex
  exact ⟨_, List.getElem?_eq_getElem hlt⟩

/-- Whether a pixel is occupied is what the occupancy map says of it. -/
theorem occupied_iff {level : PushPullLevel} {pixel : ℕ × ℕ} (hpixel : level.image.Inside pixel)
    {occupancy : ℕ}
    (h : level.occupancyMap[pixel.1 + level.image.width * pixel.2]? = some occupancy) :
    level.Occupied pixel ↔ occupancy ≠ 0 := by
  constructor
  · intro hoccupied
    obtain ⟨other, hother, hne⟩ := hoccupied.2
    rw [h] at hother
    rw [Option.some.inj hother]
    exact hne
  · intro hne
    exact ⟨hpixel, occupancy, h, hne⟩

end PushPullLevel

open PushPullLevel

section Mean

variable {lo hi : Fin 3 → ℕ}

theorem toByteColor_eq {color : PCCColor16bit} (h : ∀ c, (color c).toNat < 256) :
    PCCEncoder.toByteColor color = color := by
  funext c
  unfold PCCEncoder.toByteColor
  rw [Nat.mod_eq_of_lt (h c), UInt16.ofNat_toNat]

/-- The mean of four values is that of their entries. -/
theorem PCCEncoder.mean4w_eq {p1 w1 p2 w2 p3 w3 p4 w4 : ℕ} (hpos : 0 < w1 + w2 + w3 + w4) :
    PCCEncoder.mean4w p1 w1 p2 w2 p3 w3 p4 w4 =
      some (WeightedMean.mean 0 [(w1, p1), (w2, p2), (w3, p3), (w4, p4)]) := by
  have hne : w1 + w2 + w3 + w4 ≠ 0 := hpos.ne'
  have htotal : WeightedMean.total [(w1, p1), (w2, p2), (w3, p3), (w4, p4)] =
      w1 + w2 + w3 + w4 := by
    simp [WeightedMean.total, Nat.add_assoc]
  have hweighted : WeightedMean.weighted [(w1, p1), (w2, p2), (w3, p3), (w4, p4)] =
      p1 * w1 + p2 * w2 + p3 * w3 + p4 * w4 := by
    simp [WeightedMean.weighted, Nat.add_assoc, Nat.mul_comm]
  unfold PCCEncoder.mean4w WeightedMean.mean
  rw [if_neg hne, htotal, hweighted, Nat.add_zero]

/-- A mean of colours is between the bounds of those that have a weight. -/
theorem PCCEncoder.exists_meanColor (hhi : ∀ c, hi c < 65536) {a b c d : PCCColor16bit × ℕ}
    (hpos : 0 < a.2 + b.2 + c.2 + d.2)
    (h : ∀ entry ∈ [a, b, c, d], entry.2 ≠ 0 → ColorWithin lo hi entry.1) :
    ∃ color, PCCEncoder.meanColor a b c d = some color ∧ ColorWithin lo hi color := by
  let entries (cc : Fin 3) : WeightedMean.Entries :=
    [a, b, c, d].map fun entry => (entry.2, (entry.1 cc).toNat)
  have hentry : ∀ cc, ∀ entry ∈ entries cc, entry.1 ≠ 0 → lo cc ≤ entry.2 ∧ entry.2 ≤ hi cc := by
    intro cc entry hmem hne
    obtain ⟨color, hcolor, rfl⟩ := List.mem_map.mp hmem
    exact h color hcolor hne cc
  have htotal : ∀ cc, 0 < WeightedMean.total (entries cc) := by
    intro cc
    simpa [entries, WeightedMean.total, Nat.add_assoc] using hpos
  refine ⟨fun cc => UInt16.ofNat (WeightedMean.mean 0 (entries cc)), ?_, ?_⟩
  · unfold PCCEncoder.meanColor
    rw [forChannels_eq_some]
    intro cc
    rw [PCCEncoder.mean4w_eq hpos]
    rfl
  · intro cc
    have hlow := WeightedMean.le_mean 0 (htotal cc)
      fun entry hmem hne => (hentry cc entry hmem hne).1
    have hhigh := WeightedMean.mean_le (htotal cc) fun entry hmem hne =>
      (hentry cc entry hmem hne).2
    have hlt := hhi cc
    rw [UInt16.toNat_ofNat_of_lt' (hhigh.trans_lt hlt)]
    exact ⟨hlow, hhigh⟩

/-- The rounded mean of eight colours. -/
theorem smoothColor_within (hhi : ∀ c, hi c < 65536) {colors : List PCCColor16bit}
    (hlength : colors.length = 8) (h : ∀ color ∈ colors, ColorWithin lo hi color) :
    ColorWithin lo hi fun c =>
      UInt16.ofNat (((colors.map fun color => (color c).toNat).sum + 4) / 8) := by
  intro c
  let entries : WeightedMean.Entries := colors.map fun color => (1, (color c).toNat)
  have hentry : ∀ entry ∈ entries, entry.1 ≠ 0 → lo c ≤ entry.2 ∧ entry.2 ≤ hi c := by
    intro entry hmem _
    obtain ⟨color, hcolor, rfl⟩ := List.mem_map.mp hmem
    exact h color hcolor c
  have htotal : WeightedMean.total entries = 8 := by
    simp [entries, WeightedMean.total, Function.comp_def, hlength]
  have hmean : ((colors.map fun color => (color c).toNat).sum + 4) / 8 =
      WeightedMean.mean 4 entries := by
    unfold WeightedMean.mean
    rw [htotal]
    simp [entries, WeightedMean.weighted, Function.comp_def]
  have hlow := WeightedMean.le_mean 4 (by omega : 0 < WeightedMean.total entries)
    fun entry hmem hne => (hentry entry hmem hne).1
  have hhigh := WeightedMean.mean_le (by omega : 4 < WeightedMean.total entries)
    fun entry hmem hne => (hentry entry hmem hne).2
  have hlt := hhi c
  simp only [hmean]
  rw [UInt16.toNat_ofNat_of_lt' (hhigh.trans_lt hlt)]
  exact ⟨hlow, hhigh⟩

end Mean

namespace PushPullLevel

/-- The mipmap with a colour in a pixel that is occupied from now on. -/
def mark (mip : PushPullLevel) (pixel : ℕ × ℕ) (color : PCCColor16bit) : PushPullLevel where
  image := mip.image.update pixel color
  occupancyMap := mip.occupancyMap.set (pixel.1 + mip.image.width * pixel.2) 1

variable {mip : PushPullLevel} {pixel : ℕ × ℕ} {color : PCCColor16bit}

theorem Sized.mark (h : mip.Sized) : (mip.mark pixel color).Sized where
  width_pos := h.width_pos
  height_pos := h.height_pos
  length_eq := by
    rw [PushPullLevel.mark, List.length_set]
    exact h.length_eq

theorem mark_occupied_iff (h : mip.Sized) (hpixel : mip.image.Inside pixel) (other : ℕ × ℕ) :
    (mip.mark pixel color).Occupied other ↔ other = pixel ∨ mip.Occupied other := by
  have hlt : pixel.1 + mip.image.width * pixel.2 < mip.occupancyMap.length := by
    obtain ⟨occupancy, hoccupancy⟩ := h.exists_occupancy hpixel
    exact (List.getElem?_eq_some_iff.mp hoccupancy).1
  by_cases hother : other = pixel
  · have hget : (mip.mark pixel color).occupancyMap[
        pixel.1 + (mip.mark pixel color).image.width * pixel.2]? = some 1 :=
      List.getElem?_set_self hlt
    rw [hother]
    exact iff_of_true ⟨hpixel, 1, hget, Nat.one_ne_zero⟩ (Or.inl rfl)
  · have hget : mip.image.Inside other → (mip.mark pixel color).occupancyMap[
        other.1 + mip.image.width * other.2]? =
        mip.occupancyMap[other.1 + mip.image.width * other.2]? := by
      intro hinside
      apply List.getElem?_set_ne
      intro hindex
      rw [Nat.add_comm, Nat.add_comm other.1, Nat.mul_comm, Nat.mul_comm _ other.2] at hindex
      exact hother (pixel_inj hpixel.1 hinside.1 hindex).symm
    constructor
    · intro hoccupied
      obtain ⟨hinside, occupancy, hoccupancy, hne⟩ := hoccupied
      exact Or.inr ⟨hinside, occupancy, (hget hinside).symm.trans hoccupancy, hne⟩
    · intro hoccupied
      obtain ⟨hinside, occupancy, hoccupancy, hne⟩ := hoccupied.resolve_left hother
      exact ⟨hinside, occupancy, (hget hinside).trans hoccupancy, hne⟩

theorem OccupiedWithin.mark {lo hi : Fin 3 → ℕ} (h : mip.OccupiedWithin lo hi) (hsized : mip.Sized)
    (hpixel : mip.image.Inside pixel) (hcolor : ColorWithin lo hi color) :
    (mip.mark pixel color).OccupiedWithin lo hi := by
  intro other hother
  rw [mark_occupied_iff hsized hpixel] at hother
  by_cases hsame : other = pixel
  · rw [hsame, PushPullLevel.mark, PCCImageAttribute.colorOf_update_self]
    exact hcolor
  · rw [PushPullLevel.mark, PCCImageAttribute.colorOf_update_ne _ _ hsame]
    exact h other (hother.resolve_left hsame)

end PushPullLevel

section Pull

variable {lo hi : Fin 3 → ℕ} {level : PushPullLevel}

/-- A pixel of a level with the weight that it has in a mean. -/
theorem exists_pixelEntry (hsized : level.Sized) (hwithin : level.OccupiedWithin lo hi)
    (hhi : ∀ c, hi c < 256) {pixel : ℕ × ℕ} (hpixel : level.image.Inside pixel) :
    ∃ weight color, PCCEncoder.pixelWeight level pixel = some weight ∧
      PCCEncoder.pixelColor level pixel = some color ∧ (weight ≠ 0 ↔ level.Occupied pixel) ∧
      (weight ≠ 0 → ColorWithin lo hi color) := by
  obtain ⟨occupancy, hoccupancy⟩ := hsized.exists_occupancy hpixel
  have hweight : (if occupancy = 0 then 0 else 255) ≠ 0 ↔ level.Occupied pixel := by
    rw [occupied_iff hpixel hoccupancy]
    split_ifs with hzero
    · simp [hzero]
    · simp [hzero]
  refine ⟨if occupancy = 0 then 0 else 255,
    PCCEncoder.toByteColor (level.image.colorOf pixel), ?_, ?_, hweight, ?_⟩
  · unfold PCCEncoder.pixelWeight
    rw [hoccupancy]
    rfl
  · unfold PCCEncoder.pixelColor
    rw [PCCCodec.colorAt_of_inside hpixel]
    rfl
  · intro hne
    have hcolor := hwithin pixel (hweight.mp hne)
    rw [toByteColor_eq fun c => (hcolor c).2.trans_lt (hhi c)]
    exact hcolor

/-- A place that is not a pixel of the level has no weight. -/
theorem exists_nextEntry (hsized : level.Sized) (hwithin : level.OccupiedWithin lo hi)
    (hhi : ∀ c, hi c < 256) (pixel : ℕ × ℕ) :
    ∃ weight color, PCCEncoder.nextWeight level pixel = some weight ∧
      PCCEncoder.nextColor level pixel = some color ∧ (weight ≠ 0 ↔ level.Occupied pixel) ∧
      (weight ≠ 0 → ColorWithin lo hi color) := by
  unfold PCCEncoder.nextWeight PCCEncoder.nextColor
  by_cases hpixel : level.image.Inside pixel
  · have hinside : ¬(level.image.width ≤ pixel.1 ∨ level.image.height ≤ pixel.2) := by
      rw [not_or, not_le, not_le]
      exact hpixel
    rw [if_neg hinside, if_neg hinside]
    exact exists_pixelEntry hsized hwithin hhi hpixel
  · have houtside : level.image.width ≤ pixel.1 ∨ level.image.height ≤ pixel.2 := by
      by_contra h
      rw [not_or, not_le, not_le] at h
      exact hpixel h
    rw [if_pos houtside, if_pos houtside]
    refine ⟨0, 0, rfl, rfl, ?_, fun h => absurd rfl h⟩
    simpa using fun h : level.Occupied pixel => hpixel h.1

def coveredPixels (pixel : ℕ × ℕ) : List (ℕ × ℕ) :=
  [(2 * pixel.1, 2 * pixel.2), (2 * pixel.1 + 1, 2 * pixel.2), (2 * pixel.1, 2 * pixel.2 + 1),
    (2 * pixel.1 + 1, 2 * pixel.2 + 1)]

theorem mem_coveredPixels {pixel fine : ℕ × ℕ} :
    fine ∈ coveredPixels pixel ↔ fine.1 / 2 = pixel.1 ∧ fine.2 / 2 = pixel.2 := by
  simp only [coveredPixels, List.mem_cons, List.not_mem_nil, or_false, Prod.ext_iff]
  omega

/-- A pixel of the mipmap is marked exactly where it covers an occupied pixel. -/
theorem exists_pushPullMipPixel (hsized : level.Sized) (hwithin : level.OccupiedWithin lo hi)
    (hhi : ∀ c, hi c < 256) {mip : PushPullLevel} (hmip : mip.Sized) {pixel : ℕ × ℕ}
    (hpixel : mip.image.Inside pixel)
    (hfirst : level.image.Inside (2 * pixel.1, 2 * pixel.2)) :
    PCCEncoder.pushPullMipPixel level mip pixel = some mip ∧
        (∀ fine ∈ coveredPixels pixel, ¬level.Occupied fine) ∨
      ∃ color, ColorWithin lo hi color ∧
        PCCEncoder.pushPullMipPixel level mip pixel = some (mip.mark pixel color) := by
  have hentry := exists_nextEntry hsized hwithin hhi
  obtain ⟨w1, val1, hw1, hval1, hoccupied1, hwithin1⟩ :=
    exists_pixelEntry hsized hwithin hhi hfirst
  obtain ⟨w2, val2, hw2, hval2, hoccupied2, hwithin2⟩ := hentry (2 * pixel.1 + 1, 2 * pixel.2)
  obtain ⟨w3, val3, hw3, hval3, hoccupied3, hwithin3⟩ := hentry (2 * pixel.1, 2 * pixel.2 + 1)
  obtain ⟨w4, val4, hw4, hval4, hoccupied4, hwithin4⟩ :=
    hentry (2 * pixel.1 + 1, 2 * pixel.2 + 1)
  unfold PCCEncoder.pushPullMipPixel
  simp only [hw1, hw2, hw3, hw4, hval1, hval2, hval3, hval4, Option.bind_eq_bind, Option.bind_some]
  by_cases hpos : 0 < w1 + w2 + w3 + w4
  · have hmean : ∀ entry ∈ [(val1, w1), (val2, w2), (val3, w3), (val4, w4)], entry.2 ≠ 0 →
        ColorWithin lo hi entry.1 := by
      simp only [List.mem_cons, List.not_mem_nil, or_false, forall_eq_or_imp, forall_eq]
      exact ⟨hwithin1, hwithin2, hwithin3, hwithin4⟩
    obtain ⟨color, hcolor, hbounds⟩ :=
      PCCEncoder.exists_meanColor (fun c => (hhi c).trans (by decide)) hpos hmean
    obtain ⟨occupancy, hoccupancy⟩ := hmip.exists_occupancy hpixel
    have hlt := (List.getElem?_eq_some_iff.mp hoccupancy).1
    refine Or.inr ⟨color, hbounds, ?_⟩
    rw [if_pos hpos, hcolor, Option.bind_some, PCCEncoder.setColor_of_inside hpixel,
      Option.bind_some, Cells.setAt, if_pos hlt]
    rfl
  · refine Or.inl ⟨if_neg hpos, ?_⟩
    simp only [coveredPixels, List.mem_cons, List.not_mem_nil, or_false, forall_eq_or_imp,
      forall_eq, ← hoccupied1, ← hoccupied2, ← hoccupied3, ← hoccupied4]
    omega

/-- The mipmap of a level: half the size, and occupied wherever it covers an occupied pixel. -/
structure IsMip (level mip : PushPullLevel) : Prop where
  sized : mip.Sized
  width_eq : mip.image.width = (level.image.width + 1) / 2
  height_eq : mip.image.height = (level.image.height + 1) / 2
  occupied : ∀ pixel, level.Occupied pixel → mip.Occupied (pixel.1 / 2, pixel.2 / 2)

theorem exists_pushPullMip (hsized : level.Sized) (hwithin : level.OccupiedWithin lo hi)
    (hhi : ∀ c, hi c < 256) :
    ∃ mip, PCCEncoder.pushPullMip level = some mip ∧ IsMip level mip ∧
      mip.OccupiedWithin lo hi := by
  let newWidth := (level.image.width + 1) / 2
  let newHeight := (level.image.height + 1) / 2
  let Marked (visited : List (ℕ × ℕ)) (mip : PushPullLevel) : Prop :=
    mip.Sized ∧ mip.image.width = newWidth ∧ mip.image.height = newHeight ∧
      mip.OccupiedWithin lo hi ∧
      ∀ pixel ∈ visited, ∀ fine ∈ coveredPixels pixel, level.Occupied fine → mip.Occupied pixel
  have hwidth := hsized.width_pos
  have hheight := hsized.height_pos
  have hstart : Marked [] { image := PCCImageAttribute.resize newWidth newHeight
                            occupancyMap := List.replicate (newWidth * newHeight) 0 } := by
    refine ⟨⟨?_, ?_, List.length_replicate⟩, rfl, rfl, ?_, ?_⟩
    · change 0 < (level.image.width + 1) / 2
      omega
    · change 0 < (level.image.height + 1) / 2
      omega
    · intro pixel hpixel
      obtain ⟨-, occupancy, hoccupancy, hne⟩ := hpixel
      exact absurd (List.eq_of_mem_replicate (List.mem_of_getElem? hoccupancy)) hne
    · exact fun pixel hpixel => absurd hpixel List.not_mem_nil
  have hrun : ∃ mip, PCCEncoder.pushPullMip level = some mip ∧
      Marked (grid newWidth newHeight) mip := by
    apply Codec.exists_foldlM _ hstart
    intro visited pixel mip hvisited hmarked
    obtain ⟨hmip, hmipWidth, hmipHeight, hmipWithin, hmipVisited⟩ := hmarked
    have hmem : pixel ∈ grid newWidth newHeight :=
      hvisited.subset (List.mem_append_right visited List.mem_cons_self)
    have hpixel : mip.image.Inside pixel := by
      unfold PCCImageAttribute.Inside
      rw [hmipWidth, hmipHeight]
      exact mem_grid.mp hmem
    have hfirst : level.image.Inside (2 * pixel.1, 2 * pixel.2) := by
      have hx : pixel.1 < (level.image.width + 1) / 2 := (mem_grid.mp hmem).1
      have hy : pixel.2 < (level.image.height + 1) / 2 := (mem_grid.mp hmem).2
      change 2 * pixel.1 < level.image.width ∧ 2 * pixel.2 < level.image.height
      omega
    rcases exists_pushPullMipPixel hsized hwithin hhi hmip hpixel hfirst with hnone | hsome
    · refine ⟨mip, hnone.1, hmip, hmipWidth, hmipHeight, hmipWithin, ?_⟩
      intro other hother fine hfine hoccupied
      rcases List.mem_append.mp hother with hother | hother
      · exact hmipVisited other hother fine hfine hoccupied
      · rw [List.mem_singleton.mp hother] at hfine
        exact absurd hoccupied (hnone.2 fine hfine)
    · obtain ⟨color, hcolor, hstep⟩ := hsome
      refine ⟨mip.mark pixel color, hstep, hmip.mark, hmipWidth, hmipHeight,
        hmipWithin.mark hmip hpixel hcolor, ?_⟩
      intro other hother fine hfine hoccupied
      rw [mark_occupied_iff hmip hpixel]
      rcases List.mem_append.mp hother with hother | hother
      · exact Or.inr (hmipVisited other hother fine hfine hoccupied)
      · exact Or.inl (List.mem_singleton.mp hother)
  obtain ⟨mip, hmip, hmipSized, hmipWidth, hmipHeight, hmipWithin, hvisited⟩ := hrun
  refine ⟨mip, hmip, ⟨hmipSized, hmipWidth, hmipHeight, ?_⟩, hmipWithin⟩
  intro pixel hpixel
  obtain ⟨hx, hy⟩ := hpixel.1
  have hmem : (pixel.1 / 2, pixel.2 / 2) ∈ grid newWidth newHeight := by
    apply mem_grid.mpr
    change pixel.1 / 2 < (level.image.width + 1) / 2 ∧ pixel.2 / 2 < (level.image.height + 1) / 2
    omega
  exact hvisited _ hmem pixel (mem_coveredPixels.mpr ⟨rfl, rfl⟩) hpixel

/-- A mipmap is covered by cells of half the size. -/
theorem IsMip.covered {mip : PushPullLevel} (hmip : IsMip level mip) {k : ℕ}
    (h : level.Covered (k + 1)) : mip.Covered k := by
  intro cell hx hy
  have hpow : ∀ n : ℕ, n * 2 ^ (k + 1) = 2 * (n * 2 ^ k) := by
    intro n
    rw [pow_succ]
    ring
  have hdiv : ∀ n : ℕ, n / 2 ^ (k + 1) = n / 2 / 2 ^ k := by
    intro n
    rw [pow_succ, Nat.mul_comm, Nat.div_div_eq_div_mul]
  rw [hmip.width_eq] at hx
  rw [hmip.height_eq] at hy
  obtain ⟨pixel, hpixel, hcellX, hcellY⟩ := h cell (by rw [hpow]; omega) (by rw [hpow]; omega)
  rw [hdiv] at hcellX hcellY
  exact ⟨_, hmip.occupied pixel hpixel, hcellX, hcellY⟩

end Pull

end V3C

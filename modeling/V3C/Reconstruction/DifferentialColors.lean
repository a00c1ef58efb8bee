import V3C.Packing.AuxiliaryPlacement
import V3C.Video.PushPullMip

/-! The second attribute that the decoder has, from the differences of the encoder. -/
namespace V3C
open Codec

/-- A difference in eight bits. -/
def saturate (delta : ℤ) : ℤ := max (-128) (min delta 127)

theorem saturate_eq_iff {delta : ℤ} : saturate delta = delta ↔ -128 ≤ delta ∧ delta ≤ 127 := by
  unfold saturate
  omega

theorem PCCEncoder.toNat_predictValue {value0 value1 : UInt16} (h0 : value0.toNat < 256)
    (h1 : value1.toNat < 256) :
    ((predictValue (toInt16 value0.toNat) value1).toNat : ℤ) =
      saturate ((value1.toNat : ℤ) - value0.toNat) + 128 := by
  have hdelta : toInt16 (toInt16 (value1.toNat : ℤ) - toInt16 (value0.toNat : ℤ)) =
      value1.toNat - value0.toNat := by
    have hsecond : toInt16 (value1.toNat : ℤ) = value1.toNat :=
      toInt16_of_lt (by omega) (by omega)
    have hfirst : toInt16 (value0.toNat : ℤ) = value0.toNat :=
      toInt16_of_lt (by omega) (by omega)
    rw [hsecond, hfirst, toInt16_of_lt (by omega) (by omega)]
  have hbyte : ∀ n : ℤ, 0 ≤ n → n ≤ 255 → ((toUInt8 n).toUInt16.toNat : ℤ) = n := by
    intro n hlow hhigh
    unfold toUInt8
    simp only [Nat.toUInt16, UInt16.toNat_ofNat']
    omega
  have hclamp : ∀ n : ℤ, (if n < -128 then -128 else if n > 127 then 127 else n) =
      saturate n := by
    intro n
    unfold saturate
    split_ifs <;> omega
  have hrange : 0 ≤ saturate ((value1.toNat : ℤ) - value0.toNat) + 128 ∧
      saturate ((value1.toNat : ℤ) - value0.toNat) + 128 ≤ 255 := by
    unfold saturate
    omega
  unfold predictValue
  dsimp only
  rw [hdelta, hclamp, if_neg (by omega), if_neg (by omega), hbyte _ hrange.1 hrange.2]

/-- The decoder adds what the encoder subtracted; the sum needs no clipping. -/
theorem PCCCodec.toNat_reconstructValue {value0 difference : UInt16} {delta : ℤ}
    (hdifference : (difference.toNat : ℤ) = delta + 128) (hhigh : delta ≤ 127)
    (hsum : 0 ≤ (value0.toNat : ℤ) + delta) (hmax : (value0.toNat : ℤ) + delta ≤ 255) :
    ((reconstructValue 8 false value0 difference).toNat : ℤ) = value0.toNat + delta := by
  unfold reconstructValue
  dsimp only
  rw [if_neg (by decide), hdifference]
  norm_num
  have hnotLow : ¬delta < -128 := by omega
  have hnotHigh : ¬127 < delta := by omega
  rw [if_neg hnotLow, if_neg hnotHigh, if_neg (by omega), if_neg (by omega)]
  simp only [UInt16.toNat_ofNat']
  omega

/-- The attribute pictures of both maps, of eight bits. -/
structure DifferentialAttribute where
  convert : PCCEncoder.ColorConversion
  title : PCCEncoder.TitleFrame
  near : AttributeFrame
  far : PCCImageAttribute
  size : far.SameSize near.toPCCImageAttribute
  map : title.occupancyMap.length = near.width * near.height
  format : near.deprecatedColorFormat = 0
  near_lt : ∀ place c, (near.colorOf place c).toNat < 256
  far_lt : ∀ place c, (far.colorOf place c).toNat < 256

namespace DifferentialAttribute

variable (pair : DifferentialAttribute)

/-- The occupancy map of the frame has the place. -/
def Occupied (place : ℕ × ℕ) : Prop :=
  ∃ occupancy, pair.title.occupancyMap[place.2 * pair.near.width + place.1]? =
    some occupancy ∧ occupancy ≠ 0

/-- The difference of a channel, zero where the place is not occupied. -/
noncomputable def delta (place : ℕ × ℕ) (c : Fin 3) : ℤ := by
  classical
  exact if pair.Occupied place then
    (pair.far.colorOf place c).toNat - (pair.near.colorOf place c).toNat
  else 0

/-- The colours that come back: those that differ in eight bits, and where the place is not
occupied those that do not differ. -/
def Admits (place : ℕ × ℕ) : Prop :=
  (pair.Occupied place → ∀ c,
    -128 ≤ ((pair.far.colorOf place c).toNat : ℤ) - (pair.near.colorOf place c).toNat ∧
    ((pair.far.colorOf place c).toNat : ℤ) - (pair.near.colorOf place c).toNat ≤ 127) ∧
  (¬pair.Occupied place → pair.far.colorOf place = pair.near.colorOf place)

theorem predictAttributePixel_spec {image : PCCImageAttribute} {place : ℕ × ℕ}
    (hplace : pair.near.Inside place)
    (hsize : image.SameSize pair.near.toPCCImageAttribute)
    (hcolor : image.colorOf place = pair.far.colorOf place) :
    ∃ color, PCCEncoder.predictAttributePixel pair.convert pair.title.occupancyMap
        pair.near image place = some (image.update place color) ∧
      ∀ c, ((color c).toNat : ℤ) = saturate (pair.delta place c) + 128 := by
  have hinside : image.Inside place := (hsize.inside_iff place).mpr hplace
  have hlt : place.2 * pair.near.width + place.1 < pair.title.occupancyMap.length := by
    rw [pair.map]
    exact pixel_lt hplace.1 hplace.2
  have hoccupancy := List.getElem?_eq_getElem hlt
  unfold PCCEncoder.predictAttributePixel delta
  rw [hoccupancy]
  simp only [Option.bind_eq_bind, Option.bind_some]
  by_cases hzero : pair.title.occupancyMap[place.2 * pair.near.width + place.1] = 0
  · have hfree : ¬pair.Occupied place := by
      rintro ⟨occupancy, hsome, hne⟩
      obtain rfl := Option.some.inj (hoccupancy.symm.trans hsome)
      exact hne hzero
    rw [if_neg (not_not.mpr hzero), PCCEncoder.setColor_of_inside hinside]
    refine ⟨_, rfl, fun c => ?_⟩
    rw [if_neg hfree]
    decide
  · have hoccupied : pair.Occupied place := ⟨_, hoccupancy, hzero⟩
    rw [if_pos hzero, PCCCodec.colorAt_of_inside hplace, PCCCodec.colorAt_of_inside hinside]
    simp only [Option.bind_some, pair.format, if_true]
    rw [PCCEncoder.setColor_of_inside hinside]
    refine ⟨_, rfl, fun c => ?_⟩
    rw [if_pos hoccupied, hcolor]
    exact PCCEncoder.toNat_predictValue (pair.near_lt place c) (pair.far_lt place c)

/-- The picture of the differences. -/
theorem exists_difference :
    ∃ difference, PCCEncoder.predictAttributeFrame pair.convert pair.title
        pair.near pair.far = some difference ∧
      difference.SameSize pair.near.toPCCImageAttribute ∧
      ∀ place, pair.near.Inside place → ∀ c,
        ((difference.colorOf place c).toNat : ℤ) = saturate (pair.delta place c) + 128 := by
  obtain ⟨hwidth, hheight⟩ := pair.size
  let P := fun (visited : List (ℕ × ℕ)) (image : PCCImageAttribute) =>
    image.SameSize pair.near.toPCCImageAttribute ∧
      (∀ place ∈ visited, ∀ c,
        ((image.colorOf place c).toNat : ℤ) = saturate (pair.delta place c) + 128) ∧
      ∀ place, place ∉ visited → image.colorOf place = pair.far.colorOf place
  have hstep : ∀ visited place image,
      visited ++ [place] <+: grid pair.near.width pair.near.height → P visited image →
      ∃ image', PCCEncoder.predictAttributePixel pair.convert pair.title.occupancyMap pair.near
        image place = some image' ∧ P (visited ++ [place]) image' := by
    intro visited place image hvisit hP
    obtain ⟨hsize, hvisited, hrest⟩ := hP
    obtain ⟨hmem, hnew⟩ := mem_and_notMem_of_prefix hvisit (nodup_grid _ _)
    obtain ⟨color, hstep, hcolor⟩ := pair.predictAttributePixel_spec
      (mem_grid.mp hmem) hsize (hrest place hnew)
    refine ⟨image.update place color, hstep, hsize, fun other hother c => ?_,
      fun other hother => ?_⟩
    · by_cases heq : other = place
      · rw [heq, PCCImageAttribute.colorOf_update_self]
        exact hcolor c
      · rw [PCCImageAttribute.colorOf_update_ne _ _ heq]
        refine hvisited other ?_ c
        simpa [heq] using hother
    · rw [List.mem_append, List.mem_singleton, not_or] at hother
      rw [PCCImageAttribute.colorOf_update_ne _ _ hother.2]
      exact hrest other hother.1
  have hstart : P [] pair.far :=
    ⟨pair.size, fun _ h => absurd h List.not_mem_nil, fun _ _ => rfl⟩
  obtain ⟨difference, hrun, hsize, hvisited, -⟩ := exists_foldlM hstep hstart
  refine ⟨difference, ?_, hsize, fun place hplace c => hvisited place (mem_grid.mpr hplace) c⟩
  unfold PCCEncoder.predictAttributeFrame
  rw [if_neg (by omega)]
  exact hrun

/-- A point of the second map, with the videos that the decoder has of both maps. -/
structure Sample (difference : PCCImageAttribute) where
  params : ColoringParams
  absoluteT1List : List Bool
  videos : AttributeVideos
  tile : ColoringTile
  location : ℕ × ℕ × ℕ
  format : ℕ
  interleaving : params.singleMapPixelInterleaving = false
  streams : params.multipleStreams = true
  map : location.2.2 ≠ 0
  differential : absoluteT1List[location.2.2]? = some false
  first : videos.videoAttribute[tile.frameIndex]? = some pair.near
  second : videos.videoAttributeFrame1[tile.frameIndex]? = some ⟨difference, format⟩
  inside : pair.near.Inside
    (tile.leftTopXInFrame + location.1, tile.leftTopYInFrame + location.2.1)

/-- Where a point lies in the frame. -/
def Sample.place {pair : DifferentialAttribute} {difference : PCCImageAttribute}
    (sample : pair.Sample difference) : ℕ × ℕ :=
  (sample.tile.leftTopXInFrame + sample.location.1,
    sample.tile.leftTopYInFrame + sample.location.2.1)

/-- The encoder has a picture of the differences, and with it the decoder gives every point of the
second map the first colour and the saturated difference, which never wraps. That is the second
colour exactly where the difference is admitted. -/
theorem sampleColor_difference :
    ∃ difference, PCCEncoder.predictAttributeFrame pair.convert pair.title
        pair.near pair.far = some difference ∧
      ∀ sample : pair.Sample difference, ∃ color,
        PCCCodec.sampleColor sample.params sample.absoluteT1List sample.videos sample.tile
          sample.location = some (some color) ∧
        (∀ c, ((color c).toNat : ℤ) = (pair.near.colorOf sample.place c).toNat +
          saturate (pair.delta sample.place c)) ∧
        (color = pair.far.colorOf sample.place ↔ pair.Admits sample.place) := by
  obtain ⟨difference, hrun, hsize, hdifference⟩ := pair.exists_difference
  refine ⟨difference, hrun, fun sample => ?_⟩
  have hinside : difference.Inside sample.place := (hsize.inside_iff _).mpr sample.inside
  have hcolor0 : PCCCodec.colorAt pair.near.toPCCImageAttribute sample.place =
      some (pair.near.colorOf sample.place) := PCCCodec.colorAt_of_inside sample.inside
  have hcolor1 := PCCCodec.colorAt_of_inside hinside
  have hvalue : ∀ c, ((PCCCodec.reconstructValue 8 false (pair.near.colorOf sample.place c)
      (difference.colorOf sample.place c)).toNat : ℤ) =
        (pair.near.colorOf sample.place c).toNat +
          saturate (pair.delta sample.place c) := by
    intro c
    have hnear := pair.near_lt sample.place c
    have hfar := pair.far_lt sample.place c
    have hdelta : -(pair.near.colorOf sample.place c).toNat ≤ pair.delta sample.place c ∧
        pair.delta sample.place c ≤ 255 - (pair.near.colorOf sample.place c).toNat := by
      unfold delta
      split_ifs <;> omega
    apply PCCCodec.toNat_reconstructValue (hdifference sample.place sample.inside c) <;>
      unfold saturate <;> omega
  refine ⟨fun c => PCCCodec.reconstructValue 8 false (pair.near.colorOf sample.place c)
    (difference.colorOf sample.place c), ?_, hvalue, ?_⟩
  · unfold Sample.place at hcolor0 hcolor1
    unfold PCCCodec.sampleColor
    simp only [sample.interleaving, sample.streams, sample.map, sample.first, sample.second,
      sample.differential, Bool.false_eq_true, if_false, if_true, Option.bind_eq_bind,
      Option.bind_some, pair.format, hcolor0, hcolor1]
    rfl
  · rw [funext_iff]
    have hchannel : ∀ c, PCCCodec.reconstructValue 8 false
        (pair.near.colorOf sample.place c) (difference.colorOf sample.place c) =
          pair.far.colorOf sample.place c ↔
        ((pair.near.colorOf sample.place c).toNat : ℤ) +
          saturate (pair.delta sample.place c) =
            (pair.far.colorOf sample.place c).toNat := by
      intro c
      rw [← hvalue c, ← UInt16.toNat_inj]
      omega
    simp only [hchannel]
    unfold Admits delta
    by_cases hoccupied : pair.Occupied sample.place
    · simp only [hoccupied, if_true, true_implies, not_true_eq_false, false_implies, and_true]
      refine forall_congr' fun c => ?_
      rw [← saturate_eq_iff]
      omega
    · simp only [hoccupied, if_false, false_implies, true_and, not_false_eq_true, true_implies]
      rw [funext_iff]
      refine forall_congr' fun c => ?_
      rw [← UInt16.toNat_inj]
      unfold saturate
      omega

/-- Two pictures of three by two pixels, of which the place in the middle of the first row is not
occupied. From column to column the second map is brighter by a hundred. -/
def brightening : DifferentialAttribute where
  convert := fun color c => (color c).toUInt8
  title :=
    { patches := []
      blockToPatch := []
      occupancyMap := [1, 0, 1, 1, 1, 1]
      fullOccupancyMap := [1, 0, 1, 1, 1, 1] }
  near :=
    { width := 3
      height := 2
      channels := fun c _ => UInt16.ofNat (20 + c)
      deprecatedColorFormat := 0 }
  far :=
    { width := 3
      height := 2
      channels := fun c place => UInt16.ofNat (20 + c + 100 * min place.1 2) }
  size := ⟨rfl, rfl⟩
  map := rfl
  format := rfl
  near_lt := by
    intro place c
    change (UInt16.ofNat (20 + c)).toNat < 256
    rw [UInt16.toNat_ofNat']
    omega
  far_lt := by
    intro place c
    have hcolumn := Nat.min_le_right place.1 2
    change (UInt16.ofNat (20 + c + 100 * min place.1 2)).toNat < 256
    rw [UInt16.toNat_ofNat']
    refine (Nat.mod_le _ _).trans_lt ?_
    omega

/-- The decoder's point of the second map at a place of the only tile. -/
def brighteningSample (difference : PCCImageAttribute) (x y : ℕ) (hx : x < 3) (hy : y < 2) :
    brightening.Sample difference where
  params :=
    { mapCountMinus1 := 1
      singleMapPixelInterleaving := false
      multipleStreams_ := true
      multipleStreams := true
      attributeCount := 1 }
  absoluteT1List := [true, false]
  videos :=
    { videoAttribute := [brightening.near]
      videoAttributeFrame1 := [⟨difference, 0⟩] }
  tile :=
    { frameIndex := 0
      leftTopXInFrame := 0
      leftTopYInFrame := 0
      useRawPointsSeparateVideo := false
      pointToPixel := []
      totalNumberOfRegularPoints := 0
      totalNumberOfEOMPoints := 0
      totalNumberOfRawPoints := 0 }
  location := (x, y, 1)
  format := 0
  interleaving := rfl
  streams := rfl
  map := Nat.one_ne_zero
  differential := rfl
  first := rfl
  second := rfl
  inside := by
    change 0 + x < 3 ∧ 0 + y < 2
    omega

/-- The decoder has the second colours of the first two columns back, the place without occupancy
apart. In the last column they differ by two hundred, and the difference stops at 127. -/
theorem sampleColor_brightening :
    ∃ difference, PCCEncoder.predictAttributeFrame brightening.convert brightening.title
        brightening.near brightening.far = some difference ∧
      ∀ x y (hx : x < 3) (hy : y < 2), ∃ color,
        PCCCodec.sampleColor (brighteningSample difference x y hx hy).params [true, false]
          ⟨[brightening.near], [⟨difference, 0⟩]⟩ (brighteningSample difference x y hx hy).tile
          (x, y, 1) = some (some color) ∧
        (color = brightening.far.colorOf (x, y) ↔ x = 0 ∨ x = 1 ∧ y = 1) := by
  obtain ⟨difference, hrun, hsample⟩ := brightening.sampleColor_difference
  refine ⟨difference, hrun, fun x y hx hy => ?_⟩
  obtain ⟨color, hcolor, -, hback⟩ := hsample (brighteningSample difference x y hx hy)
  have hplace : (brighteningSample difference x y hx hy).place = (x, y) := by
    change (0 + x, 0 + y) = (x, y)
    rw [Nat.zero_add, Nat.zero_add]
  rw [hplace] at hback
  refine ⟨color, hcolor, hback.trans ?_⟩
  have hoccupied : brightening.Occupied (x, y) ↔ ¬(x = 1 ∧ y = 0) := by
    constructor
    · rintro ⟨occupancy, hsome, hne⟩ ⟨rfl, rfl⟩
      exact hne (Option.some.inj hsome).symm
    · intro hne
      refine ⟨1, ?_, Nat.one_ne_zero⟩
      change [1, 0, 1, 1, 1, 1][y * 3 + x]? = some 1
      interval_cases y <;> interval_cases x <;> first | rfl | exact absurd ⟨rfl, rfl⟩ hne
  unfold Admits
  rw [hoccupied]
  interval_cases y <;> interval_cases x <;> decide

end DifferentialAttribute

end V3C

import V3C.Reconstruction.ColorPointCloud

/-! The colour that each point of a frame has after the last tile. -/
namespace V3C
open Cells

namespace PCCCodec

theorem lawful_setColor16bit :
    Lawful (fun (color16bit : List PCCColor16bit) i => color16bit[i]?) setColor16bit where
  put_isSome color16bit i color := by
    unfold setColor16bit
    split_ifs with h <;> simp [h]
  get_put_self {color16bit color16bit' i color} h := by
    unfold setColor16bit at h
    split_ifs at h with hlt
    obtain rfl := Option.some.inj h
    exact List.getElem?_set_self hlt
  get_put_ne {color16bit color16bit' i i' color} h hne := by
    unfold setColor16bit at h
    split_ifs at h
    obtain rfl := Option.some.inj h
    exact List.getElem?_set_ne hne.symm

theorem length_setColor16bit {color16bit color16bit' : List PCCColor16bit} {i : ℕ}
    {color : PCCColor16bit} (h : setColor16bit color16bit i color = some color16bit') :
    color16bit'.length = color16bit.length := by
  unfold setColor16bit at h
  split_ifs at h
  obtain rfl := Option.some.inj h
  exact List.length_set

theorem length_writeAll {entries : List (ℕ × PCCColor16bit)}
    {color16bit color16bit' : List PCCColor16bit}
    (h : writeAll setColor16bit entries color16bit = some color16bit') :
    color16bit'.length = color16bit.length := by
  induction entries generalizing color16bit with
  | nil =>
    obtain rfl : color16bit = color16bit' := Option.some.inj h
    rfl
  | cons entry entries ih =>
    rw [writeAll_cons] at h
    obtain ⟨next, hnext, h⟩ := Option.bind_eq_some_iff.mp h
    exact (ih h).trans (length_setColor16bit hnext)

theorem transferColors_eq (transferColorWeight : ColorTransfer) (s : Coloring) :
    transferColors transferColorWeight s =
      writeAll setColor16bit (s.targetIndex.zipIdx.map fun (index, i) =>
        (index, transferColorWeight s.source s.target i)) s.color16bit := by
  unfold transferColors writeAll
  rw [List.foldlM_map]

theorem colorAuxPoints_eq (attributes : List PCCColor3B) (pointCount : ℕ)
    (color16bit : List PCCColor16bit) :
    colorAuxPoints attributes pointCount color16bit =
      writeAll setColor16bit (attributes.zipIdx.map fun (color, k) =>
        (pointCount + k, PCCImageAttribute.component color)) color16bit := by
  unfold colorAuxPoints writeAll
  rw [List.foldlM_map]

section

variable {params : ColoringParams} {absoluteT1List : List Bool} {videos : AttributeVideos}
  {tile : ColoringTile} {positions : List PCCPoint3D} {acc : ℕ}

/-- The points of a tile up to a number are coloured. -/
structure Painted (params : ColoringParams) (absoluteT1List : List Bool)
    (videos : AttributeVideos) (tile : ColoringTile) (acc n : ℕ)
    (before after : List PCCColor16bit) : Prop where
  length : after.length = before.length
  kept : ∀ i, i < acc ∨ acc + n ≤ i → after[i]? = before[i]?
  own : ∀ k < n, ∀ location, tile.pointToPixel[k]? = some location → ∀ color,
    sampleColor params absoluteT1List videos tile location = some (some color) →
    after[acc + k]? = some color

/-- The targets are points without an own sample. -/
def Targets (params : ColoringParams) (absoluteT1List : List Bool) (videos : AttributeVideos)
    (tile : ColoringTile) (acc n : ℕ) (s : Coloring) : Prop :=
  ∀ index ∈ s.targetIndex, ∃ k < n, index = acc + k ∧ ∃ location,
    tile.pointToPixel[k]? = some location ∧
      sampleColor params absoluteT1List videos tile location = some none

theorem colorPoint_own {s : Coloring} {k : ℕ} {location : ℕ × ℕ × ℕ} {color : PCCColor16bit}
    {position : PCCPoint3D} (hlocation : tile.pointToPixel[k]? = some location)
    (hsample : sampleColor params absoluteT1List videos tile location = some (some color))
    (hposition : positions[acc + k]? = some position) (hlt : acc + k < s.color16bit.length) :
    colorPoint params absoluteT1List videos tile positions acc s (acc + k) =
      some { s with
        color16bit := s.color16bit.set (acc + k) color
        source := s.source ++ [(position, color)] } := by
  have hset : setColor16bit s.color16bit (acc + k) color =
      some (s.color16bit.set (acc + k) color) := if_pos hlt
  unfold colorPoint
  simp only [Nat.add_sub_cancel_left, hlocation, hsample, hposition, hset, Option.bind_eq_bind,
    Option.bind_some]

theorem colorPoint_target {s : Coloring} {k : ℕ} {location : ℕ × ℕ × ℕ} {position : PCCPoint3D}
    (hlocation : tile.pointToPixel[k]? = some location)
    (hsample : sampleColor params absoluteT1List videos tile location = some none)
    (hposition : positions[acc + k]? = some position) :
    colorPoint params absoluteT1List videos tile positions acc s (acc + k) =
      some { s with
        target := s.target ++ [position]
        targetIndex := s.targetIndex ++ [acc + k] } := by
  unfold colorPoint
  simp only [Nat.add_sub_cancel_left, hlocation, hsample, hposition, Option.bind_eq_bind,
    Option.bind_some]

/-- The loop over the points gives each its own sample. -/
theorem exists_colorPoints {n : ℕ} {before : List PCCColor16bit}
    (hsamples : ∀ k < n, ∃ location, tile.pointToPixel[k]? = some location ∧
      (sampleColor params absoluteT1List videos tile location).isSome)
    (hpositions : acc + n ≤ positions.length) (hbefore : acc + n ≤ before.length) :
    ∃ s, (List.range' acc n).foldlM (colorPoint params absoluteT1List videos tile positions acc)
        { color16bit := before, source := [], target := [], targetIndex := [] } = some s ∧
      Painted params absoluteT1List videos tile acc n before s.color16bit ∧
      Targets params absoluteT1List videos tile acc n s := by
  induction n with
  | zero =>
    refine ⟨_, rfl, ⟨rfl, fun _ _ => rfl, ?_⟩, ?_⟩
    · intro k hk
      omega
    · intro index hindex
      cases hindex
  | succ n ih =>
    obtain ⟨s, hs, hpainted, htargets⟩ := ih (fun k hk => hsamples k (by omega)) (by omega)
      (by omega)
    obtain ⟨location, hlocation, hsample⟩ := hsamples n (by omega)
    obtain ⟨sample, hsample⟩ := Option.isSome_iff_exists.mp hsample
    have hposition := List.getElem?_eq_getElem (l := positions) (i := acc + n) (by omega)
    have hstep : ∀ s', colorPoint params absoluteT1List videos tile positions acc s (acc + n) =
        some s' → (List.range' acc (n + 1)).foldlM
          (colorPoint params absoluteT1List videos tile positions acc)
          { color16bit := before, source := [], target := [], targetIndex := [] } = some s' := by
      intro s' hs'
      rw [List.range'_1_concat, List.foldlM_append, hs]
      simpa using hs'
    cases sample with
    | none =>
      refine ⟨_, hstep _ (colorPoint_target hlocation hsample hposition),
        ⟨hpainted.length, ?_, ?_⟩, ?_⟩
      · intro i hi
        exact hpainted.kept i (by omega)
      · intro k hk location' hlocation' color hown
        by_cases hlt : k < n
        · exact hpainted.own k hlt location' hlocation' color hown
        · obtain rfl : k = n := by omega
          obtain rfl := Option.some.inj (hlocation.symm.trans hlocation')
          rw [hsample] at hown
          cases Option.some.inj hown
      · intro index hindex
        rcases List.mem_append.mp hindex with hindex | hindex
        · obtain ⟨k, hk, rest⟩ := htargets index hindex
          exact ⟨k, by omega, rest⟩
        · exact ⟨n, by omega, List.mem_singleton.mp hindex, location, hlocation, hsample⟩
    | some color =>
      have hlt : acc + n < s.color16bit.length := by
        rw [hpainted.length]
        omega
      refine ⟨_, hstep _ (colorPoint_own hlocation hsample hposition hlt), ⟨?_, ?_, ?_⟩, ?_⟩
      · exact List.length_set.trans hpainted.length
      · intro i hi
        dsimp only
        rw [List.getElem?_set_ne (by omega)]
        exact hpainted.kept i (by omega)
      · intro k hk location' hlocation' color' hown
        dsimp only
        by_cases hlt' : k < n
        · rw [List.getElem?_set_ne (by omega)]
          exact hpainted.own k hlt' location' hlocation' color' hown
        · obtain rfl : k = n := by omega
          obtain rfl := Option.some.inj (hlocation.symm.trans hlocation')
          rw [hsample] at hown
          obtain rfl := Option.some.inj (Option.some.inj hown)
          exact List.getElem?_set_self hlt
      · intro index hindex
        obtain ⟨k, hk, rest⟩ := htargets index hindex
        exact ⟨k, by omega, rest⟩

/-- The transfer leaves the points with an own sample as they are. -/
theorem exists_transferColors (transferColorWeight : ColorTransfer) {n : ℕ}
    {before : List PCCColor16bit} (hbefore : acc + n ≤ before.length) {s : Coloring}
    (hpainted : Painted params absoluteT1List videos tile acc n before s.color16bit)
    (htargets : Targets params absoluteT1List videos tile acc n s) :
    ∃ after, transferColors transferColorWeight s = some after ∧
      Painted params absoluteT1List videos tile acc n before after := by
  rw [transferColors_eq]
  set entries := s.targetIndex.zipIdx.map fun (index, i) =>
    (index, transferColorWeight s.source s.target i) with hentries
  have hkeys : ∀ index ∈ entries.map Prod.fst, index ∈ s.targetIndex := by
    intro index hindex
    rw [hentries, List.map_map] at hindex
    obtain ⟨⟨key, i⟩, hmem, rfl⟩ := List.mem_map.mp hindex
    exact List.fst_mem_of_mem_zipIdx hmem
  obtain ⟨after, hafter⟩ := lawful_setColor16bit.exists_writeAll
    (s := s.color16bit) (by
      intro entry hentry
      obtain ⟨k, hk, hindex, -⟩ :=
        htargets entry.1 (hkeys entry.1 (List.mem_map_of_mem hentry))
      rw [hindex, List.getElem?_eq_getElem (by rw [hpainted.length]; omega)]
      rfl)
  refine ⟨after, hafter, (length_writeAll hafter).trans hpainted.length, ?_, ?_⟩
  · intro i hi
    rw [lawful_setColor16bit.get_of_not_mem hafter, hpainted.kept i hi]
    intro hmem
    obtain ⟨k, hk, hindex, -⟩ := htargets i (hkeys i hmem)
    omega
  · intro k hk location hlocation color hown
    rw [lawful_setColor16bit.get_of_not_mem hafter, hpainted.own k hk location hlocation color hown]
    intro hmem
    obtain ⟨k', hk', hindex, location', hlocation', hnone⟩ := htargets _ (hkeys _ hmem)
    obtain rfl : k = k' := by omega
    obtain rfl := Option.some.inj (hlocation.symm.trans hlocation')
    rw [hown] at hnone
    cases Option.some.inj hnone

/-- The writes of the auxiliary attributes reach the points behind the others. -/
theorem exists_colorAuxPoints (attributes : List PCCColor3B) {n : ℕ}
    {before : List PCCColor16bit} (hbefore : n + attributes.length ≤ before.length) :
    ∃ after, colorAuxPoints attributes n before = some after ∧
      after.length = before.length ∧
      (∀ i, i < n ∨ n + attributes.length ≤ i → after[i]? = before[i]?) ∧
      ∀ k color, attributes[k]? = some color →
        after[n + k]? = some (PCCImageAttribute.component color) := by
  rw [colorAuxPoints_eq]
  set entries := attributes.zipIdx.map fun (color, k) =>
    (n + k, PCCImageAttribute.component color) with hentries
  have hkeys : entries.map Prod.fst = List.range' n attributes.length := by
    rw [hentries, List.map_map]
    apply List.ext_getElem
    · simp
    · intro i hi hi'
      simp
  obtain ⟨after, hafter⟩ := lawful_setColor16bit.exists_writeAll
    (s := before) (by
      intro entry hentry
      have hkey : entry.1 ∈ List.range' n attributes.length :=
        hkeys ▸ List.mem_map_of_mem hentry
      obtain ⟨-, hlt⟩ := List.mem_range'_1.mp hkey
      rw [List.getElem?_eq_getElem (by omega)]
      rfl)
  refine ⟨after, hafter, length_writeAll hafter, ?_, ?_⟩
  · intro i hi
    apply lawful_setColor16bit.get_of_not_mem hafter
    rw [hkeys, List.mem_range'_1]
    omega
  · intro k color hk
    have hmem : (n + k, PCCImageAttribute.component color) ∈ entries :=
      List.mem_map.mpr ⟨(color, k), List.mem_zipIdx_iff_getElem?.mpr hk, rfl⟩
    exact lawful_setColor16bit.get_of_mem hafter (hkeys ▸ List.nodup_range') hmem

end

end PCCCodec

open PCCCodec

/-- The points of a tile are the counted ones, each with its place in `pointToPixel`. -/
structure PointTile.Counted (tile : PointTile) : Prop where
  locations : tile.pointToPixel = tile.entries.map PointEntry.location
  count : tile.entries.length = tile.totalNumberOfRegularPoints + tile.totalNumberOfEOMPoints +
    tile.totalNumberOfRawPoints

/-- The pictures have the pixels of the points that are coloured from them. -/
def PointTile.Shown (params : ColoringParams) (absoluteT1List : List (List Bool))
    (videos : AttributeVideos) (tile : PointTile) : Prop :=
  ∀ absolute ∈ absoluteT1List, ∀ location ∈ tile.pointToPixel.take (pointCount tile.toColoringTile),
    (sampleColor params absolute videos tile.toColoringTile location).isSome

/-- The auxiliary video has an attribute for each of its points. -/
def DecodedTile.Supplied (tile : DecodedTile) : Prop :=
  tile.useRawPointsSeparateVideo = true →
    tile.attributes.eomAttribute.length = tile.totalNumberOfEOMPoints ∧
      tile.attributes.rawPointsAttribute.length = tile.totalNumberOfRawPoints

def PointTile.UsesAuxVideo (tile : PointTile) : Prop :=
  tile.useRawPointsSeparateVideo = true ∧
    tile.totalNumberOfEOMPoints + tile.totalNumberOfRawPoints ≠ 0

instance (tile : PointTile) : Decidable tile.UsesAuxVideo := inferInstanceAs (Decidable (_ ∧ _))

/-- Each point of a tile has the sample of its own pixel, or its own entry of the attributes of
the auxiliary video. The points of the tile start at index `first` of the frame. -/
def DecodedTile.HasOwnColors (params : ColoringParams) (absolute : List Bool)
    (videos : AttributeVideos) (tile : DecodedTile) (first : ℕ)
    (color16bit : List PCCColor16bit) : Prop :=
  (∀ k < pointCount tile.toColoringTile, ∀ location, tile.pointToPixel[k]? = some location →
    ∀ color, sampleColor params absolute videos tile.toColoringTile location =
      some (some color) → color16bit[first + k]? = some color) ∧
  (tile.useRawPointsSeparateVideo = true → ∀ k color,
    (tile.attributes.eomAttribute ++ tile.attributes.rawPointsAttribute)[k]? = some color →
    color16bit[first + pointCount tile.toColoringTile + k]? =
      some (PCCImageAttribute.component color))

/-- What colouring a tile does to the colours of the frame, the tile starting at `first`. -/
structure TileColored (params : ColoringParams) (absolute : List Bool) (videos : AttributeVideos)
    (tile : DecodedTile) (first : ℕ) (before after : List PCCColor16bit) : Prop where
  length : after.length = before.length
  kept : (tile.UsesAuxVideo → first = 0) → ∀ i < first, after[i]? = before[i]?
  own : (tile.UsesAuxVideo → first = 0) → tile.HasOwnColors params absolute videos first after
  /-- The last point of the auxiliary video is missed. -/
  missed : tile.UsesAuxVideo → first ≠ 0 →
    after[first + tile.entries.length - 1]? = before[first + tile.entries.length - 1]?

section

variable {params : ColoringParams} {absoluteT1List : List (List Bool)}
  {videos : AttributeVideos} {tile : DecodedTile} {first : ℕ}

theorem PointTile.Counted.length_eq {tile : PointTile} (hcounted : tile.Counted) :
    tile.entries.length = pointCount tile.toColoringTile +
      if tile.useRawPointsSeparateVideo then
        tile.totalNumberOfEOMPoints + tile.totalNumberOfRawPoints
      else 0 := by
  rw [hcounted.count]
  unfold pointCount
  split_ifs <;> omega

theorem exists_colorTile (transferColorWeight : ColorTransfer) {absolute : List Bool}
    (habsolute : absolute ∈ absoluteT1List) (hcounted : tile.Counted)
    (hshown : tile.Shown params absoluteT1List videos) (hsupplied : tile.Supplied)
    {positions : List PCCPoint3D} {before : List PCCColor16bit}
    (hpositions : positions.length = first + tile.entries.length)
    (hbefore : before.length = first + tile.entries.length) :
    ∃ after, colorTile transferColorWeight params absolute videos tile.toColoringTile
        tile.attributes first positions before = some after ∧
      TileColored params absolute videos tile first before after := by
  have hlength := hcounted.length_eq
  set n := pointCount tile.toColoringTile with hn
  have hle : n ≤ tile.entries.length := hlength ▸ Nat.le_add_right _ _
  have hsamples : ∀ k < n, ∃ location, tile.pointToPixel[k]? = some location ∧
      (sampleColor params absolute videos tile.toColoringTile location).isSome := by
    intro k hk
    have hlt : k < tile.pointToPixel.length := by
      rw [hcounted.locations, List.length_map]
      omega
    refine ⟨_, List.getElem?_eq_getElem hlt, hshown absolute habsolute _ ?_⟩
    exact List.mem_take_iff_getElem.mpr ⟨k, by omega, rfl⟩
  obtain ⟨s, hs, hpainted, htargets⟩ := exists_colorPoints hsamples
    (show first + n ≤ positions.length by omega) (show first + n ≤ before.length by omega)
  obtain ⟨colored, hcolored, hpainted⟩ :=
    exists_transferColors transferColorWeight (by omega) hpainted htargets
  have hrun : colorTile transferColorWeight params absolute videos tile.toColoringTile
      tile.attributes first positions before =
      if tile.useRawPointsSeparateVideo then
        colorAuxPoints (tile.attributes.eomAttribute ++ tile.attributes.rawPointsAttribute) n
          colored
      else some colored := by
    unfold colorTile
    rw [← hn, hs, Option.bind_eq_bind, Option.bind_some, hcolored]
    rfl
  by_cases haux : tile.useRawPointsSeparateVideo = true
  · obtain ⟨heom, hraw⟩ := hsupplied haux
    set attributes := tile.attributes.eomAttribute ++ tile.attributes.rawPointsAttribute
      with hattributes
    have hcount : attributes.length =
        tile.totalNumberOfEOMPoints + tile.totalNumberOfRawPoints := by
      rw [hattributes, List.length_append, heom, hraw]
    rw [if_pos haux] at hlength hrun
    obtain ⟨after, hafter, hsame, hkept, hwritten⟩ := exists_colorAuxPoints
      attributes (n := n) (by rw [hpainted.length]; omega)
    refine ⟨after, hrun.trans hafter, hsame.trans hpainted.length, ?_, ?_, ?_⟩
    · intro hfirst i hi
      by_cases huses : tile.UsesAuxVideo
      · have := hfirst huses
        omega
      · have hnone : attributes.length = 0 := by
          rw [hcount]
          exact not_ne_iff.mp fun h => huses ⟨haux, h⟩
        rw [hkept i (by omega), hpainted.kept i (Or.inl hi)]
    · intro hfirst
      by_cases huses : tile.UsesAuxVideo
      · obtain rfl := hfirst huses
        constructor
        · intro k hk location hlocation color hown
          rw [hkept _ (by omega)]
          exact hpainted.own k hk location hlocation color hown
        · intro _ k color hk
          rw [Nat.zero_add]
          exact hwritten k color hk
      · have hnone : attributes.length = 0 := by
          rw [hcount]
          exact not_ne_iff.mp fun h => huses ⟨haux, h⟩
        constructor
        · intro k hk location hlocation color hown
          rw [hkept _ (by omega)]
          exact hpainted.own k hk location hlocation color hown
        · intro _ k color hk
          rw [← hattributes, List.length_eq_zero_iff.mp hnone] at hk
          cases hk
    · intro huses hfirst
      have hsome := huses.2
      rw [hkept _ (by omega), hpainted.kept _ (by omega)]
  · have hnot : ¬tile.UsesAuxVideo := fun h => haux h.1
    rw [if_neg haux] at hrun
    refine ⟨colored, hrun, hpainted.length, ?_, ?_, fun h => absurd h hnot⟩
    · exact fun _ i hi => hpainted.kept i (Or.inl hi)
    · exact fun _ => ⟨hpainted.own, fun h => absurd h haux⟩

end

end V3C

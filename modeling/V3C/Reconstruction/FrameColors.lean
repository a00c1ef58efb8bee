import V3C.Codec.Traverse
import V3C.Reconstruction.ColorAssignment

/-! The colours of a frame whose tiles are reconstructed one after the other. -/
namespace V3C
open PCCCodec PCCDecoder Codec

theorem exists_colorPointCloud (transferColorWeight : ColorTransfer) {params : ColoringParams}
    (hattributes : params.attributeCount ≠ 0) {absoluteT1List : List (List Bool)}
    {absolute : List Bool} (habsolute : absolute ∈ absoluteT1List) {videos : AttributeVideos}
    {tile : DecodedTile} (hcounted : tile.Counted)
    (hshown : tile.Shown params absoluteT1List videos) (hsupplied : tile.Supplied) {first : ℕ}
    {reconstruct : ColoringPointSet3}
    (hpositions : reconstruct.positions.length = first + tile.entries.length)
    (hcolors : reconstruct.colors.length = first + tile.entries.length)
    (hcolors16bit : reconstruct.colors16bit.length = first + tile.entries.length) :
    ∃ after, colorPointCloud transferColorWeight params absolute videos tile.toColoringTile
        tile.attributes first reconstruct = some (after, first + tile.entries.length) ∧
      after.positions = reconstruct.positions ∧
      after.colors = List.replicate (first + tile.entries.length) ⟨0, 0, 0⟩ ∧
      TileColored params absolute videos tile first reconstruct.colors16bit
        after.colors16bit := by
  by_cases hempty : reconstruct.positions.length = 0
  · have hfirst : first = 0 := by omega
    have hentries : tile.entries.length = 0 := by omega
    have hcount := hcounted.count
    refine ⟨reconstruct, ?_, rfl, ?_, rfl, fun _ _ _ => rfl, ?_, fun _ h => absurd hfirst h⟩
    · unfold colorPointCloud
      rw [if_pos hempty, hentries, Nat.add_zero]
    · rw [hfirst, hentries] at hcolors ⊢
      exact List.length_eq_zero_iff.mp hcolors
    · intro _
      constructor
      · intro k hk
        have := hcounted.length_eq
        omega
      · intro haux k color hk
        obtain ⟨heom, hraw⟩ := hsupplied haux
        have hlt := (List.getElem?_eq_some_iff.mp hk).1
        rw [List.length_append] at hlt
        omega
  · obtain ⟨colored, hcolored, htile⟩ := exists_colorTile transferColorWeight habsolute hcounted
      hshown hsupplied hpositions hcolors16bit
    refine ⟨{ reconstruct.fillColor ⟨0, 0, 0⟩ with colors16bit := colored }, ?_, rfl, ?_, htile⟩
    · unfold colorPointCloud
      rw [if_neg hempty]
      dsimp only [ColoringPointSet3.fillColor]
      rw [if_neg hattributes, hcolored, hcounted.count]
      simp only [Option.bind_eq_bind, Option.bind_some, Nat.add_assoc]
    · rw [← hpositions]
      rfl

/-- The frame up to a tile that starts at `first`. -/
structure DecodedFrame.Even (params : ColoringParams) (frame : DecodedFrame) (first : ℕ) :
    Prop where
  positions : frame.reconstruct.positions.length = first
  colors : frame.reconstruct.colors = List.replicate first ⟨0, 0, 0⟩
  colors16bit : frame.reconstruct.colors16bit.length = first
  acc : frame.accTilePointCount = List.replicate params.attributeCount first

/-- The frame with the points of a tile, after some of the attributes. -/
structure Partly (params : ColoringParams) (absoluteT1List : List (List Bool))
    (videos : AttributeVideos) (tile : DecodedTile) (first n : ℕ) (appended : ColoringPointSet3)
    (frame : DecodedFrame) : Prop where
  positions : frame.reconstruct.positions = appended.positions
  length : frame.reconstruct.colors.length = first + tile.entries.length
  colors : 0 < n →
    frame.reconstruct.colors = List.replicate (first + tile.entries.length) ⟨0, 0, 0⟩
  acc : frame.accTilePointCount = List.replicate n (first + tile.entries.length) ++
    List.replicate (params.attributeCount - n) first
  colors16bit : frame.reconstruct.colors16bit.length = first + tile.entries.length
  kept : (tile.UsesAuxVideo → first = 0) → ∀ i < first,
    frame.reconstruct.colors16bit[i]? = appended.colors16bit[i]?
  own : 0 < n → (tile.UsesAuxVideo → first = 0) → ∀ absolute,
    absoluteT1List[n - 1]? = some absolute →
    tile.HasOwnColors params absolute videos first frame.reconstruct.colors16bit
  missed : tile.UsesAuxVideo → first ≠ 0 →
    frame.reconstruct.colors16bit[first + tile.entries.length - 1]? =
      appended.colors16bit[first + tile.entries.length - 1]?

section

variable {params : ColoringParams} {absoluteT1List : List (List Bool)}
  {videos : AttributeVideos}

theorem exists_colorAttributes (transferColorWeight : ColorTransfer)
    (hattributes : params.attributeCount ≠ 0)
    (habsolute : absoluteT1List.length = params.attributeCount) {tile : DecodedTile}
    (hcounted : tile.Counted) (hshown : tile.Shown params absoluteT1List videos)
    (hsupplied : tile.Supplied) {first n : ℕ} (hn : n ≤ params.attributeCount)
    {appended : ColoringPointSet3}
    (hpositions : appended.positions.length = first + tile.entries.length)
    (hcolors : appended.colors.length = first + tile.entries.length)
    (hcolors16bit : appended.colors16bit.length = first + tile.entries.length) :
    ∃ frame, (List.range n).foldlM
        (colorAttribute transferColorWeight params absoluteT1List videos tile)
        ⟨appended, List.replicate params.attributeCount first⟩ = some frame ∧
      Partly params absoluteT1List videos tile first n appended frame := by
  induction n with
  | zero =>
    refine ⟨_, rfl, rfl, hcolors, fun h => absurd h (Nat.lt_irrefl 0), rfl, hcolors16bit,
      fun _ _ _ => rfl, fun h => absurd h (Nat.lt_irrefl 0), fun _ _ => rfl⟩
  | succ n ih =>
    obtain ⟨frame, hframe, hpartly⟩ := ih (by omega)
    have hlist := List.getElem?_eq_getElem (l := absoluteT1List) (i := n) (by omega)
    have hacc : frame.accTilePointCount[n]? = some first := by
      rw [hpartly.acc, List.getElem?_append_right (by simp), List.length_replicate, Nat.sub_self,
        List.getElem?_replicate, if_pos (by omega)]
    obtain ⟨after, hafter, hsame, hzero, htile⟩ := exists_colorPointCloud transferColorWeight
      hattributes (List.getElem_mem (show n < absoluteT1List.length by omega)) hcounted hshown
      hsupplied (hpartly.positions ▸ hpositions) hpartly.length hpartly.colors16bit
    refine ⟨⟨after, frame.accTilePointCount.set n (first + tile.entries.length)⟩, ?_, ?_⟩
    · rw [List.range_succ, List.foldlM_append, hframe]
      simp only [Option.bind_eq_bind, Option.bind_some, List.foldlM_cons, List.foldlM_nil]
      unfold colorAttribute
      simp only [hlist, hacc, hafter, Option.bind_eq_bind, Option.bind_some]
      rfl
    · constructor
      · exact hsame.trans hpartly.positions
      · exact (congrArg List.length hzero).trans List.length_replicate
      · exact fun _ => hzero
      · dsimp only
        rw [hpartly.acc, List.set_append_right _ _ (by simp), List.length_replicate, Nat.sub_self,
          show params.attributeCount - n = params.attributeCount - (n + 1) + 1 by omega,
          List.replicate_succ, List.set_cons_zero, List.replicate_succ', List.append_assoc]
        rfl
      · exact htile.length.trans hpartly.colors16bit
      · intro hfirst i hi
        exact (htile.kept hfirst i hi).trans (hpartly.kept hfirst i hi)
      · intro _ hfirst absolute hlast
        rw [Nat.add_sub_cancel, hlist] at hlast
        obtain rfl := Option.some.inj hlast
        exact htile.own hfirst
      · intro huses hfirst
        exact (htile.missed huses hfirst).trans (hpartly.missed huses hfirst)

/-- The colours of the frame after a tile. -/
theorem exists_reconstructTile (transferColorWeight : ColorTransfer)
    (hattributes : params.attributeCount ≠ 0)
    (habsolute : absoluteT1List.length = params.attributeCount) {tile : DecodedTile}
    (hcounted : tile.Counted) (hshown : tile.Shown params absoluteT1List videos)
    (hsupplied : tile.Supplied) {first : ℕ} {frame : DecodedFrame}
    (hframe : frame.Even params first) :
    ∃ after, reconstructTile transferColorWeight params absoluteT1List videos frame tile =
        some after ∧
      after.Even params (first + tile.entries.length) ∧
      ((tile.UsesAuxVideo → first = 0) →
        (∀ i < first, after.reconstruct.colors16bit[i]? = frame.reconstruct.colors16bit[i]?) ∧
        ∀ absolute, absoluteT1List.getLast? = some absolute →
          tile.HasOwnColors params absolute videos first after.reconstruct.colors16bit) ∧
      (tile.UsesAuxVideo → first ≠ 0 →
        after.reconstruct.colors16bit[first + tile.entries.length - 1]? = some 0) := by
  have hpositions : (frame.reconstruct.appendPointSet tile.entries).positions.length =
      first + tile.entries.length := by
    simp only [ColoringPointSet3.appendPointSet, List.length_append, List.length_map, hframe.positions]
  have hcolors : (frame.reconstruct.appendPointSet tile.entries).colors.length =
      first + tile.entries.length := by
    simp only [ColoringPointSet3.appendPointSet, List.length_append, List.length_map, hframe.colors,
      List.length_replicate]
  have hcolors16bit : (frame.reconstruct.appendPointSet tile.entries).colors16bit.length =
      first + tile.entries.length := by
    simp only [ColoringPointSet3.appendPointSet, List.length_append, List.length_replicate,
      hframe.colors16bit]
  have hbefore := hframe.colors16bit
  obtain ⟨after, hafter, hpartly⟩ := exists_colorAttributes transferColorWeight hattributes
    habsolute hcounted hshown hsupplied (Nat.le_refl _) hpositions hcolors hcolors16bit
  have hpos := Nat.pos_of_ne_zero hattributes
  refine ⟨after, ?_, ⟨?_, hpartly.colors hpos, hpartly.colors16bit, ?_⟩, ?_, ?_⟩
  · unfold reconstructTile
    rw [hframe.acc]
    exact hafter
  · rw [hpartly.positions, hpositions]
  · rw [hpartly.acc, Nat.sub_self]
    exact List.append_nil _
  · intro hfirst
    constructor
    · intro i hi
      rw [hpartly.kept hfirst i hi]
      exact List.getElem?_append_left (by omega)
    · intro absolute hlast
      apply hpartly.own hpos hfirst absolute
      rw [← habsolute, ← List.getLast?_eq_getElem?]
      exact hlast
  · intro huses hfirst
    have hlength := hcounted.length_eq
    have hsome := huses.2
    rw [if_pos huses.1] at hlength
    rw [hpartly.missed huses hfirst]
    dsimp only [ColoringPointSet3.appendPointSet]
    rw [List.getElem?_append_right (by omega), List.getElem?_replicate, if_pos (by omega)]

/-- The number of points of some tiles. -/
def pointTotal (tiles : List DecodedTile) : ℕ :=
  (tiles.map fun tile => tile.entries.length).sum

@[simp] theorem pointTotal_nil : pointTotal [] = 0 := rfl

@[simp] theorem pointTotal_cons (tile : DecodedTile) (tiles : List DecodedTile) :
    pointTotal (tile :: tiles) = tile.entries.length + pointTotal tiles := by
  simp [pointTotal]

@[simp] theorem pointTotal_append (tiles tiles' : List DecodedTile) :
    pointTotal (tiles ++ tiles') = pointTotal tiles + pointTotal tiles' := by
  simp [pointTotal]

/-- What the tiles of a frame have from the decoding. -/
structure DecodedTile.Ready (params : ColoringParams) (absoluteT1List : List (List Bool))
    (videos : AttributeVideos) (tile : DecodedTile) : Prop where
  counted : tile.Counted
  shown : tile.Shown params absoluteT1List videos
  supplied : tile.Supplied

/-- No tile with points in the auxiliary video comes after a point of another tile. -/
def AuxFirst (first : ℕ) (tiles : List DecodedTile) : Prop :=
  ∀ before tile rest, tiles = before ++ tile :: rest → tile.UsesAuxVideo →
    first + pointTotal before = 0

/-- The tiles from some frame on. -/
theorem exists_reconstructTiles (transferColorWeight : ColorTransfer)
    (hattributes : params.attributeCount ≠ 0)
    (habsolute : absoluteT1List.length = params.attributeCount) {tiles : List DecodedTile}
    (hready : ∀ tile ∈ tiles, tile.Ready params absoluteT1List videos) {first : ℕ}
    {frame : DecodedFrame} (hframe : frame.Even params first) :
    ∃ after, tiles.foldlM (reconstructTile transferColorWeight params absoluteT1List videos)
        frame = some after ∧
      after.Even params (first + pointTotal tiles) ∧
      (AuxFirst first tiles → ∀ i < first,
        after.reconstruct.colors16bit[i]? = frame.reconstruct.colors16bit[i]?) := by
  induction tiles generalizing first frame with
  | nil => exact ⟨frame, rfl, hframe, fun _ _ _ => rfl⟩
  | cons tile tiles ih =>
    have htile := hready tile List.mem_cons_self
    obtain ⟨next, hnext, heven, hgood, -⟩ := exists_reconstructTile transferColorWeight
      hattributes habsolute htile.counted htile.shown htile.supplied hframe
    obtain ⟨after, hafter, heven', hkept⟩ :=
      ih (fun t ht => hready t (List.mem_cons_of_mem tile ht)) heven
    refine ⟨after, ?_, ?_, ?_⟩
    · rw [List.foldlM_cons, hnext]
      exact hafter
    · rw [pointTotal_cons, ← Nat.add_assoc]
      exact heven'
    · intro haux i hi
      have hrest : AuxFirst (first + tile.entries.length) tiles := by
        intro before t rest hsplit huses
        have := haux (tile :: before) t rest (by rw [hsplit]; rfl) huses
        rw [pointTotal_cons] at this
        omega
      have hfirst : tile.UsesAuxVideo → first = 0 := fun huses => haux [] tile tiles rfl huses
      rw [hkept hrest i (by omega)]
      exact (hgood hfirst).1 i hi

end

/-- After the last tile every point has its own colour, and no tile has changed the colour of a
point before it. -/
def ColorsAssigned (transferColorWeight : ColorTransfer) (params : ColoringParams)
    (absoluteT1List : List (List Bool)) (videos : AttributeVideos) (tiles : List DecodedTile) :
    Prop :=
  ∃ frame, reconstructFrame transferColorWeight params absoluteT1List videos tiles =
      some frame ∧
    (∀ before tile after, tiles = before ++ tile :: after →
      ∀ absolute, absoluteT1List.getLast? = some absolute →
        tile.HasOwnColors params absolute videos (pointTotal before)
          frame.reconstruct.colors16bit) ∧
    ∀ before after, tiles = before ++ after →
      ∃ earlier, reconstructFrame transferColorWeight params absoluteT1List videos before =
          some earlier ∧
        earlier.reconstruct.colors16bit =
          frame.reconstruct.colors16bit.take (pointTotal before) ∧
        earlier.reconstruct.colors = frame.reconstruct.colors.take (pointTotal before)

section

variable {params : ColoringParams} {absoluteT1List : List (List Bool)}
  {videos : AttributeVideos}

theorem even_nil : DecodedFrame.Even params
    ⟨⟨[], [], []⟩, List.replicate params.attributeCount 0⟩ 0 := ⟨rfl, rfl, rfl, rfl⟩

theorem reconstructFrame_append (transferColorWeight : ColorTransfer)
    (before after : List DecodedTile) :
    reconstructFrame transferColorWeight params absoluteT1List videos (before ++ after) =
      (reconstructFrame transferColorWeight params absoluteT1List videos before).bind fun frame =>
        after.foldlM (reconstructTile transferColorWeight params absoluteT1List videos) frame := by
  unfold reconstructFrame
  rw [List.foldlM_append]
  rfl

theorem colorsAssigned_of_auxFirst (transferColorWeight : ColorTransfer)
    (hattributes : params.attributeCount ≠ 0)
    (habsolute : absoluteT1List.length = params.attributeCount) {tiles : List DecodedTile}
    (hready : ∀ tile ∈ tiles, tile.Ready params absoluteT1List videos)
    (haux : AuxFirst 0 tiles) :
    ColorsAssigned transferColorWeight params absoluteT1List videos tiles := by
  -- the frame after the first tiles, and what the others leave of it
  have hsplit : ∀ before after, tiles = before ++ after → ∃ earlier frame,
      reconstructFrame transferColorWeight params absoluteT1List videos before = some earlier ∧
      reconstructFrame transferColorWeight params absoluteT1List videos tiles = some frame ∧
      earlier.Even params (pointTotal before) ∧ frame.Even params (pointTotal tiles) ∧
      ∀ i < pointTotal before,
        frame.reconstruct.colors16bit[i]? = earlier.reconstruct.colors16bit[i]? := by
    rintro before after rfl
    obtain ⟨earlier, hearlier, heven, -⟩ := exists_reconstructTiles transferColorWeight
      hattributes habsolute (fun t ht => hready t (List.mem_append_left after ht)) even_nil
    rw [Nat.zero_add] at heven
    obtain ⟨frame, hframe, heven', hkept⟩ := exists_reconstructTiles transferColorWeight
      hattributes habsolute (fun t ht => hready t (List.mem_append_right before ht)) heven
    refine ⟨earlier, frame, hearlier, ?_, heven, ?_, hkept ?_⟩
    · rw [reconstructFrame_append]
      exact Option.bind_eq_some_iff.mpr ⟨earlier, hearlier, hframe⟩
    · rw [pointTotal_append]
      exact heven'
    · intro middle tile rest hmiddle huses
      have := haux (before ++ middle) tile rest
        (by rw [hmiddle, List.append_assoc]) huses
      rw [pointTotal_append] at this
      omega
  obtain ⟨-, frame, -, hframe, -, -, -⟩ := hsplit [] tiles rfl
  refine ⟨frame, hframe, ?_, ?_⟩
  · intro before tile after htiles absolute hlast
    obtain ⟨earlier, final, hearlier, hfinal, heven, -, -⟩ := hsplit before (tile :: after) htiles
    have htile := hready tile (by rw [htiles]; simp)
    obtain ⟨next, hnext, -, hgood, -⟩ := exists_reconstructTile transferColorWeight hattributes
      habsolute htile.counted htile.shown htile.supplied heven
    obtain ⟨through, final', hthrough, hfinal', -, -, hkept⟩ :=
      hsplit (before ++ [tile]) after (by rw [htiles, List.append_assoc]; rfl)
    obtain rfl := Option.some.inj (hframe.symm.trans hfinal')
    have hsame : through = next := by
      rw [reconstructFrame_append, hearlier, Option.bind_some, List.foldlM_cons, hnext] at hthrough
      exact (Option.some.inj hthrough).symm
    subst hsame
    have hzero : tile.UsesAuxVideo → pointTotal before = 0 := fun huses =>
      (Nat.zero_add _).symm.trans (haux before tile after htiles huses)
    have hlength := htile.counted.length_eq
    rw [pointTotal_append, pointTotal_cons, pointTotal_nil] at hkept
    obtain ⟨hown, hauxiliary⟩ := (hgood hzero).2 absolute hlast
    constructor
    · intro k hk location hlocation color hcolor
      have hle : pointCount tile.toColoringTile ≤ tile.entries.length :=
        hlength ▸ Nat.le_add_right _ _
      rw [hkept _ (by omega)]
      exact hown k hk location hlocation color hcolor
    · intro huse k color hk
      obtain ⟨heom, hraw⟩ := htile.supplied huse
      have hlt := (List.getElem?_eq_some_iff.mp hk).1
      rw [List.length_append] at hlt
      rw [if_pos huse] at hlength
      rw [hkept _ (by omega)]
      exact hauxiliary huse k color hk
  · intro before after htiles
    obtain ⟨earlier, final, hearlier, hfinal, heven, heven', hkept⟩ := hsplit before after htiles
    obtain rfl := Option.some.inj (hframe.symm.trans hfinal)
    have hle : pointTotal before ≤ pointTotal tiles := by
      rw [htiles, pointTotal_append]
      omega
    refine ⟨earlier, hearlier, ?_, ?_⟩
    · apply List.ext_getElem?
      intro i
      rw [List.getElem?_take]
      split_ifs with hi
      · exact (hkept i hi).symm
      · exact List.getElem?_eq_none (by rw [heven.colors16bit]; omega)
    · rw [heven.colors, heven'.colors, List.take_replicate, Nat.min_eq_left hle]

/-- A tile with a point in the auxiliary video that comes after other points leaves the last
one without its colour. -/
theorem auxFirst_of_colorsAssigned (transferColorWeight : ColorTransfer)
    (hattributes : params.attributeCount ≠ 0)
    (habsolute : absoluteT1List.length = params.attributeCount) {tiles : List DecodedTile}
    (hready : ∀ tile ∈ tiles, tile.Ready params absoluteT1List videos)
    (hcolors : ∀ tile ∈ tiles, ∀ color ∈
      tile.attributes.eomAttribute ++ tile.attributes.rawPointsAttribute, color.r = 1)
    (h : ColorsAssigned transferColorWeight params absoluteT1List videos tiles) :
    AuxFirst 0 tiles := by
  intro before tile rest htiles huses
  by_contra hafter
  rw [Nat.zero_add] at hafter
  obtain ⟨frame, hframe, hown, hkept⟩ := h
  have htile := hready tile (by rw [htiles]; simp)
  obtain ⟨earlier, hearlier, heven, -⟩ := exists_reconstructTiles transferColorWeight
    hattributes habsolute
    (fun t ht => hready t (by rw [htiles]; exact List.mem_append_left _ ht)) even_nil
  rw [Nat.zero_add] at heven
  obtain ⟨next, hnext, -, -, hmissed⟩ := exists_reconstructTile transferColorWeight hattributes
    habsolute htile.counted htile.shown htile.supplied heven
  have hthrough : reconstructFrame transferColorWeight params absoluteT1List videos
      (before ++ [tile]) = some next := by
    rw [reconstructFrame_append]
    refine Option.bind_eq_some_iff.mpr ⟨earlier, hearlier, ?_⟩
    rw [List.foldlM_cons, hnext]
    rfl
  obtain ⟨through, hthrough', hsame, -⟩ :=
    hkept (before ++ [tile]) rest (by rw [htiles, List.append_assoc]; rfl)
  obtain rfl := Option.some.inj (hthrough.symm.trans hthrough')
  -- the last point of the auxiliary video
  obtain ⟨heom, hraw⟩ := htile.supplied huses.1
  set attributes := tile.attributes.eomAttribute ++ tile.attributes.rawPointsAttribute
    with hattributes'
  have hcount : attributes.length =
      tile.totalNumberOfEOMPoints + tile.totalNumberOfRawPoints := by
    rw [hattributes', List.length_append, heom, hraw]
  have hsome := huses.2
  have hlength := htile.counted.length_eq
  rw [if_pos huses.1, ← hcount] at hlength
  have hlast := List.getElem?_eq_getElem (l := attributes) (i := attributes.length - 1) (by omega)
  obtain ⟨absolute, habs⟩ : ∃ absolute, absoluteT1List.getLast? = some absolute := by
    rw [List.getLast?_eq_getElem?]
    exact ⟨_, List.getElem?_eq_getElem (by omega)⟩
  have hcolor := (hown before tile rest htiles absolute habs).2 huses.1 _ _ hlast
  have hzero := hmissed huses hafter
  rw [hsame, List.getElem?_take, pointTotal_append, pointTotal_cons, pointTotal_nil,
    if_pos (by omega),
    show pointTotal before + tile.entries.length - 1 =
      pointTotal before + pointCount tile.toColoringTile + (attributes.length - 1) by omega,
    hcolor] at hzero
  have hindex : attributes.length - 1 < attributes.length := by omega
  have hred : attributes[attributes.length - 1].r.toUInt16 = 0 :=
    congrFun (Option.some.inj hzero) 0
  rw [hcolors tile (by rw [htiles]; simp) _ (List.getElem_mem _)] at hred
  exact absurd hred (by decide)

end

/-- The points of a tile in the auxiliary video come after no others. -/
theorem auxFirst_iff_pairwise {tiles : List DecodedTile} :
    AuxFirst 0 tiles ↔
      (tiles.map DecodedTile.toPointTile).Pairwise fun earlier later =>
        later.UsesAuxVideo → earlier.entries = [] := by
  rw [List.pairwise_map]
  constructor
  · intro h
    rw [List.pairwise_iff_getElem]
    intro i j hi hj hij huses
    have hzero := h (tiles.take j) tiles[j] (tiles.drop (j + 1))
      (by rw [List.cons_getElem_drop_succ, List.take_append_drop]) huses
    have hmem : tiles[i].entries.length ∈ (tiles.take j).map fun tile => tile.entries.length :=
      List.mem_map.mpr ⟨tiles[i], List.mem_take_iff_getElem.mpr ⟨i, by omega, rfl⟩, rfl⟩
    rw [Nat.zero_add] at hzero
    exact List.length_eq_zero_iff.mp (List.sum_eq_zero_iff_forall_eq_nat.mp hzero _ hmem)
  · rintro h before tile rest rfl huses
    have hall := (List.pairwise_append.mp h).2.2
    unfold pointTotal
    rw [Nat.zero_add, List.sum_eq_zero_iff_forall_eq_nat]
    intro n hn
    obtain ⟨earlier, hearlier, rfl⟩ := List.mem_map.mp hn
    rw [hall earlier hearlier tile List.mem_cons_self huses]
    rfl

/-- The counts of the tile are those of its points: each EOM patch has as many points as its
members, and each raw patch has room for its points. -/
structure TileInput.Consistent (params : GeneratePointCloudParameters) (input : TileInput) :
    Prop where
  eom : params.enhancedOccupancyMapCode = true → ∀ eomPatch ∈ input.eomPatches, ∀ points,
    eomPatchPoints params input.toPointCloudTile input.patchPoints.eomPointsPerPatch eomPatch =
      some points → points.length = eomPatch.eomCount
  raw : params.useAdditionalPointsPatch = true →
    (∀ raw ∈ input.rawPointsPatches, (rawPatchSizes raw).Roomy) ∧
      input.totalNumberOfRawPoints =
        (input.rawPointsPatches.map PCCRawPointsPatch.numberOfRawPoints).sum

theorem length_eomEntries {params : GeneratePointCloudParameters} {tile : PointCloudTile}
    {eomPointsPerPatch : List (List PCCPoint3D)} {eomPatch : PCCEomPatch}
    {entries : List PointEntry}
    (h : eomEntries params tile eomPointsPerPatch eomPatch = some entries) :
    ∃ points, eomPatchPoints params tile eomPointsPerPatch eomPatch = some points ∧
      entries.length = points.length := by
  obtain ⟨points, hpoints, h⟩ := Option.bind_eq_some_iff.mp h
  dsimp only at h
  by_cases hwidth : points ≠ [] ∧ tile.width / params.occupancyResolution = 0
  · rw [if_pos hwidth] at h
    cases h
  · rw [if_neg hwidth] at h
    obtain rfl := Option.some.inj h
    exact ⟨points, hpoints, by rw [List.length_map, List.length_zipIdx]⟩

theorem length_readRawCoordinate {raw : PCCRawPointsPatch} {points points' : List PCCPoint3D}
    {n value : ℕ} (h : readRawCoordinate raw points n value = some points') :
    points'.length = points.length := by
  unfold readRawCoordinate at h
  dsimp only at h
  split_ifs at h <;>
  · obtain ⟨coordinate, -, h⟩ := Option.bind_eq_some_iff.mp h
    obtain rfl := Option.some.inj h
    exact List.length_modify _ _ _

theorem length_readRawPoints {tile : PointCloudTile} {image : PCCImageGeometry}
    {raw : PCCRawPointsPatch} {points : List PCCPoint3D}
    (h : readRawPoints tile image raw = some points) :
    points.length = raw.numberOfRawPoints := by
  have hrun : ∀ (pixels : List ((ℕ × ℕ) × ℕ)) (before after : List PCCPoint3D),
      pixels.foldlM (fun rawPoints entry =>
        if entry.2 < 3 * raw.numberOfRawPoints then do
          let value ← image.getValue
            (tile.leftTopXInFrame + raw.u0 * raw.occupancyResolution + entry.1.1,
              tile.leftTopYInFrame + raw.v0 * raw.occupancyResolution + entry.1.2)
          readRawCoordinate raw rawPoints entry.2 value.toNat
        else some rawPoints) before = some after → after.length = before.length := by
    intro pixels
    induction pixels with
    | nil =>
      rintro before after hafter
      obtain rfl : before = after := Option.some.inj hafter
      rfl
    | cons pixel pixels ih =>
      intro before after hafter
      rw [List.foldlM_cons] at hafter
      obtain ⟨next, hnext, hafter⟩ := Option.bind_eq_some_iff.mp hafter
      refine (ih next after hafter).trans ?_
      split_ifs at hnext
      · obtain ⟨value, -, hnext⟩ := Option.bind_eq_some_iff.mp hnext
        exact length_readRawCoordinate hnext
      · obtain rfl := Option.some.inj hnext
        rfl
  exact (hrun _ _ _ h).trans List.length_replicate

theorem length_rawEntries {tile : PointCloudTile} {image : PCCImageGeometry}
    {raw : PCCRawPointsPatch} (hroomy : (rawPatchSizes raw).Roomy) {entries : List PointEntry}
    (h : rawEntries tile image raw = some entries) : entries.length = raw.numberOfRawPoints := by
  obtain ⟨points, hpoints, h⟩ := Option.bind_eq_some_iff.mp h
  obtain rfl := Option.some.inj h
  have hlength : points.length = (rawPatchSizes raw).numberOfRawPoints :=
    length_readRawPoints hpoints
  have hroom : raw.numberOfRawPoints ≤ (rawPatchSizes raw).sizeV * (rawPatchSizes raw).sizeU :=
    hroomy
  rw [List.length_map, List.length_zip, hlength, List.length_take, length_grid,
    show (rawPatchSizes raw).numberOfRawPoints = raw.numberOfRawPoints from rfl]
  omega

theorem counted_generateTile {params : GeneratePointCloudParameters} {input : TileInput}
    (hinput : input.Consistent params) {tile : PointTile}
    (h : generateTile params input = some tile) : tile.Counted := by
  obtain ⟨generated, hgenerated, h⟩ := Option.bind_eq_some_iff.mp h
  obtain rfl := Option.some.inj h
  obtain ⟨eom, heom, hgenerated⟩ := Option.bind_eq_some_iff.mp hgenerated
  obtain ⟨raw, hraw, hgenerated⟩ := Option.bind_eq_some_iff.mp hgenerated
  obtain rfl := Option.some.inj hgenerated
  have heomLength : eom.flatten.length = if params.enhancedOccupancyMapCode then
      (input.eomPatches.map PCCEomPatch.eomCount).sum else 0 := by
    split_ifs at heom ⊢ with hflag
    · apply length_flatten_of_mapM_eq_some heom
      intro eomPatch hmem entries hentries
      obtain ⟨points, hpoints, hlength⟩ := length_eomEntries hentries
      exact hlength.trans (hinput.eom hflag eomPatch hmem points hpoints)
    · obtain rfl := Option.some.inj heom
      rfl
  have hrawLength : raw.flatten.length =
      if params.useAdditionalPointsPatch then input.totalNumberOfRawPoints else 0 := by
    split_ifs at hraw ⊢ with hflag
    · obtain ⟨hroomy, htotal⟩ := hinput.raw hflag
      rw [htotal]
      exact length_flatten_of_mapM_eq_some hraw fun raw hmem entries hentries =>
        length_rawEntries (hroomy raw hmem) hentries
    · obtain rfl := Option.some.inj hraw
      rfl
  refine ⟨rfl, ?_⟩
  simp only [List.length_append, heomLength, hrawLength]

/-- Every point of a frame gets its own colour, and keeps it while later tiles are coloured, if
and only if no tile with points in the auxiliary video comes after a tile with points. -/
theorem colorsAssigned_iff (transferColorWeight : ColorTransfer)
    {gpcParams : GeneratePointCloudParameters} {inputs : List TileInput}
    {generated : List PointTile} (hgenerated : inputs.mapM (generateTile gpcParams) = some generated)
    (hconsistent : ∀ input ∈ inputs, input.Consistent gpcParams) {params : ColoringParams}
    (hattributes : params.attributeCount ≠ 0) {absoluteT1List : List (List Bool)}
    (habsolute : absoluteT1List.length = params.attributeCount) {videos : AttributeVideos}
    (hshown : ∀ tile ∈ generated, tile.Shown params absoluteT1List videos) :
    (∀ tiles : List DecodedTile, tiles.map DecodedTile.toPointTile = generated →
      (∀ tile ∈ tiles, tile.Supplied) →
        ColorsAssigned transferColorWeight params absoluteT1List videos tiles) ↔
      generated.Pairwise fun earlier later => later.UsesAuxVideo → earlier.entries = [] := by
  have hcounted : ∀ tile ∈ generated, tile.Counted := by
    intro tile htile
    obtain ⟨input, hinput, hrun⟩ := exists_mem_of_mapM_eq_some hgenerated htile
    exact counted_generateTile (hconsistent input hinput) hrun
  have hready : ∀ tiles : List DecodedTile, tiles.map DecodedTile.toPointTile = generated →
      (∀ tile ∈ tiles, tile.Supplied) → ∀ tile ∈ tiles,
      tile.Ready params absoluteT1List videos := by
    rintro tiles rfl hsupplied tile htile
    have hmem := List.mem_map_of_mem (f := DecodedTile.toPointTile) htile
    exact ⟨hcounted _ hmem, hshown _ hmem, hsupplied tile htile⟩
  constructor
  · intro h
    -- all attributes of the auxiliary video are white
    set tiles := generated.map fun tile : PointTile =>
      ({ toPointTile := tile
         attributes :=
          ⟨List.replicate tile.totalNumberOfRawPoints ⟨1, 1, 1⟩,
            List.replicate tile.totalNumberOfEOMPoints ⟨1, 1, 1⟩⟩ } : DecodedTile) with htiles
    have hmap : tiles.map DecodedTile.toPointTile = generated := by
      rw [htiles, List.map_map]
      exact List.map_id _
    have hsupplied : ∀ tile ∈ tiles, tile.Supplied := by
      intro tile htile _
      obtain ⟨bare, -, rfl⟩ := List.mem_map.mp htile
      exact ⟨List.length_replicate, List.length_replicate⟩
    rw [← hmap, ← auxFirst_iff_pairwise]
    apply auxFirst_of_colorsAssigned transferColorWeight hattributes habsolute
      (hready tiles hmap hsupplied) ?_ (h tiles hmap hsupplied)
    intro tile htile color hcolor
    obtain ⟨bare, -, rfl⟩ := List.mem_map.mp htile
    rcases List.mem_append.mp hcolor with hcolor | hcolor <;>
    · rw [(List.mem_replicate.mp hcolor).2]
  · intro h tiles hmap hsupplied
    apply colorsAssigned_of_auxFirst transferColorWeight hattributes habsolute
      (hready tiles hmap hsupplied)
    rw [auxFirst_iff_pairwise, hmap]
    exact h

/-- The decoder of the example: one attribute of one map, raw points in the auxiliary video. -/
def auxColoringParams : ColoringParams where
  mapCountMinus1 := 0
  singleMapPixelInterleaving := false
  multipleStreams_ := false
  multipleStreams := false
  attributeCount := 1

def auxGenerationParams : GeneratePointCloudParameters where
  occupancyResolution := 1
  enhancedOccupancyMapCode := false
  useAdditionalPointsPatch := true
  bDecoder := true
  patchPrecedenceOrderFlag := false

def auxAttributeVideos : AttributeVideos := ⟨[⟨.resize 4 4, 0⟩], []⟩

/-- A tile with one regular point, at its corner. -/
def regularInput : TileInput where
  leftTopXInFrame := 0
  leftTopYInFrame := 0
  width := 4
  useRawPointsSeparateVideo := true
  totalPatchCount := 1
  eomPatches := []
  rawPointsPatches := []
  totalNumberOfRawPoints := 0
  frameIndex := 0
  frameRawPoint := .resize 4 4
  patchPoints := ⟨[⟨⟨0, 0, 0⟩, ⟨0, 0, 0⟩, (0, 0, 0)⟩], [[]]⟩

/-- A tile with one raw point, in the auxiliary video. -/
def rawInput : TileInput where
  leftTopXInFrame := 0
  leftTopYInFrame := 0
  width := 4
  useRawPointsSeparateVideo := true
  totalPatchCount := 0
  eomPatches := []
  rawPointsPatches :=
    [{ sizeU0 := 3, sizeV0 := 1, occupancyResolution := 1, numberOfRawPoints := 1 }]
  totalNumberOfRawPoints := 1
  frameIndex := 0
  frameRawPoint := .resize 4 4
  patchPoints := ⟨[], []⟩

def regularTile : PointTile where
  frameIndex := 0
  leftTopXInFrame := 0
  leftTopYInFrame := 0
  useRawPointsSeparateVideo := true
  pointToPixel := [(0, 0, 0)]
  totalNumberOfRegularPoints := 1
  totalNumberOfEOMPoints := 0
  totalNumberOfRawPoints := 0
  entries := [⟨⟨0, 0, 0⟩, ⟨0, 0, 0⟩, (0, 0, 0)⟩]

def rawTile : PointTile where
  frameIndex := 0
  leftTopXInFrame := 0
  leftTopYInFrame := 0
  useRawPointsSeparateVideo := true
  pointToPixel := [(0, 0, 0)]
  totalNumberOfRegularPoints := 0
  totalNumberOfEOMPoints := 0
  totalNumberOfRawPoints := 1
  entries := [⟨⟨0, 0, 0⟩, ⟨0, 255, 255⟩, (0, 0, 0)⟩]

theorem consistent_regularInput : regularInput.Consistent auxGenerationParams :=
  ⟨fun h => absurd h (by decide), fun _ => ⟨fun _ h => absurd h List.not_mem_nil, rfl⟩⟩

theorem consistent_rawInput : rawInput.Consistent auxGenerationParams := by
  refine ⟨fun h => absurd h (by decide), fun _ => ⟨fun raw hraw => ?_, rfl⟩⟩
  obtain rfl := List.mem_singleton.mp hraw
  exact show 1 ≤ 1 * 3 by decide

theorem shown_auxTiles : ∀ tile ∈ [rawTile, regularTile],
    tile.Shown auxColoringParams [[true]] auxAttributeVideos := by
  intro tile htile absolute habsolute location hlocation
  obtain rfl := List.mem_singleton.mp habsolute
  simp only [List.mem_cons, List.not_mem_nil, or_false] at htile
  rcases htile with rfl | rfl
  · cases hlocation
  · obtain rfl := List.mem_singleton.mp hlocation
    rfl

/-- The raw point of the example is white in the auxiliary video. -/
def whiteRawTile : DecodedTile := ⟨rawTile, ⟨[⟨1, 1, 1⟩], []⟩⟩

def plainRegularTile : DecodedTile := ⟨regularTile, ⟨[], []⟩⟩

theorem supplied_auxTiles : ∀ tile ∈ [whiteRawTile, plainRegularTile], tile.Supplied := by
  intro tile htile
  simp only [List.mem_cons, List.not_mem_nil, or_false] at htile
  rcases htile with rfl | rfl <;> exact fun _ => ⟨rfl, rfl⟩

theorem colorsAssigned_rawTile_first :
    ColorsAssigned (fun _ _ _ => 0) auxColoringParams [[true]] auxAttributeVideos
      [whiteRawTile, plainRegularTile] := by
  have hgenerated : [rawInput, regularInput].mapM (generateTile auxGenerationParams) =
      some [rawTile, regularTile] := rfl
  have hconsistent : ∀ input ∈ [rawInput, regularInput],
      input.Consistent auxGenerationParams := by
    intro input hinput
    simp only [List.mem_cons, List.not_mem_nil, or_false] at hinput
    rcases hinput with rfl | rfl
    · exact consistent_rawInput
    · exact consistent_regularInput
  refine (colorsAssigned_iff (fun _ _ _ => 0) hgenerated hconsistent (by decide) rfl
    shown_auxTiles).mpr ?_ _ rfl supplied_auxTiles
  refine List.pairwise_pair.mpr fun huses => absurd huses (by decide)

/-- A raw point of the second tile takes the place of the point of the first in the colours. -/
theorem not_colorsAssigned_regularTile_first :
    [regularInput, rawInput].mapM (generateTile auxGenerationParams) =
        some [regularTile, rawTile] ∧
      ¬ColorsAssigned (fun _ _ _ => 0) auxColoringParams [[true]] auxAttributeVideos
        [plainRegularTile, whiteRawTile] := by
  refine ⟨rfl, fun h => ?_⟩
  have hready : ∀ tile ∈ [plainRegularTile, whiteRawTile],
      tile.Ready auxColoringParams [[true]] auxAttributeVideos := by
    intro tile htile
    simp only [List.mem_cons, List.not_mem_nil, or_false] at htile
    rcases htile with rfl | rfl
    · exact ⟨⟨rfl, rfl⟩, shown_auxTiles regularTile (by simp), supplied_auxTiles _ (by simp)⟩
    · exact ⟨⟨rfl, rfl⟩, shown_auxTiles rawTile (by simp), supplied_auxTiles _ (by simp)⟩
  have hwhite : ∀ tile ∈ [plainRegularTile, whiteRawTile], ∀ color ∈
      tile.attributes.eomAttribute ++ tile.attributes.rawPointsAttribute, color.r = 1 := by
    intro tile htile color hcolor
    simp only [List.mem_cons, List.not_mem_nil, or_false] at htile
    rcases htile with rfl | rfl
    · cases hcolor
    · obtain rfl := List.mem_singleton.mp hcolor
      rfl
  have haux := auxFirst_of_colorsAssigned (fun _ _ _ => 0) (by decide) rfl hready hwhite h
  exact absurd (haux [plainRegularTile] whiteRawTile [] rfl (by decide)) (by decide)

end V3C

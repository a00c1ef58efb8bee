import V3C.Packing.AuxiliaryTiles

/-! The encoder places the tiles of all frames. -/
namespace V3C
namespace PCCEncoder

theorem length_of_foldlM {β : Type} {step : List AuxFrame → β → Option (List AuxFrame)}
    (hstep : ∀ context context' b, step context b = some context' →
      context'.length = context.length) {bs : List β} {context context' : List AuxFrame}
    (h : bs.foldlM step context = some context') : context'.length = context.length := by
  induction bs generalizing context with
  | nil =>
    obtain rfl : context = context' := Option.some.inj h
    rfl
  | cons b bs ih =>
    rw [List.foldlM_cons] at h
    obtain ⟨next, hnext, hrest⟩ := Option.bind_eq_some_iff.mp h
    exact (ih hrest).trans (hstep context next b hnext)

theorem length_of_modifyFrame {f : AuxFrame → Option AuxFrame} {context context' : List AuxFrame}
    {i : ℕ} (h : modifyFrame f context i = some context') : context'.length = context.length := by
  obtain ⟨frame, -, h⟩ := Option.bind_eq_some_iff.mp h
  obtain ⟨frame', -, h⟩ := Option.bind_eq_some_iff.mp h
  obtain rfl := Option.some.inj h
  exact List.length_set

/-- Each index of a range has its frame modified once. -/
theorem modifyFrames_spec {f : AuxFrame → Option AuxFrame} {start count : ℕ}
    {context context' : List AuxFrame}
    (h : (List.range' start count).foldlM (modifyFrame f) context = some context') (i : ℕ) :
    (start ≤ i ∧ i < start + count → ∃ frame frame', context[i]? = some frame ∧
      f frame = some frame' ∧ context'[i]? = some frame') ∧
      (¬(start ≤ i ∧ i < start + count) → context'[i]? = context[i]?) := by
  induction count generalizing start context with
  | zero =>
    obtain rfl : context = context' := Option.some.inj h
    exact ⟨fun hin => by omega, fun _ => rfl⟩
  | succ count ih =>
    rw [List.range'_succ, List.foldlM_cons] at h
    obtain ⟨next, hnext, hrest⟩ := Option.bind_eq_some_iff.mp h
    obtain ⟨frame, hframe, hnext⟩ := Option.bind_eq_some_iff.mp hnext
    obtain ⟨frame', hf, hset⟩ := Option.bind_eq_some_iff.mp hnext
    obtain rfl := Option.some.inj hset
    obtain ⟨hlt, -⟩ := List.getElem?_eq_some_iff.mp hframe
    obtain ⟨hin, hout⟩ := ih hrest
    by_cases hi : i = start
    · subst hi
      have hkept := hout (by omega)
      rw [List.getElem?_set_self hlt] at hkept
      exact ⟨fun _ => ⟨frame, frame', hframe, hf, hkept⟩, fun hnot => by omega⟩
    · rw [List.getElem?_set_ne (Ne.symm hi)] at hin hout
      exact ⟨fun h => hin (by omega), fun h => hout (by omega)⟩

/-- The tiles of one frame, one after the other. -/
def placeTiles (fuel : ℕ) (params : PackingParams) (maxWidth : ℕ) (tiles : List ℕ)
    (frame : AuxFrame) : Option AuxFrame :=
  tiles.foldlM (fun frame tileIdx => placeTileOfFrame fuel params maxWidth tileIdx frame) frame

/-- The loops over tiles and frames place the tiles of each frame of the range. -/
theorem placeFrames_spec {fuel : ℕ} {params : PackingParams} {maxWidth start count : ℕ}
    {tiles : List ℕ} {context context' : List AuxFrame}
    (h : tiles.foldlM (fun context tileIdx => (List.range' start count).foldlM
      (modifyFrame (placeTileOfFrame fuel params maxWidth tileIdx)) context) context =
        some context') (i : ℕ) :
    (start ≤ i ∧ i < start + count → ∀ frame, context[i]? = some frame →
      ∃ frame', placeTiles fuel params maxWidth tiles frame = some frame' ∧
        context'[i]? = some frame') ∧
      (¬(start ≤ i ∧ i < start + count) → context'[i]? = context[i]?) := by
  induction tiles generalizing context with
  | nil =>
    obtain rfl : context = context' := Option.some.inj h
    exact ⟨fun _ frame hframe => ⟨frame, rfl, hframe⟩, fun _ => rfl⟩
  | cons tileIdx tiles ih =>
    rw [List.foldlM_cons] at h
    obtain ⟨next, hnext, hrest⟩ := Option.bind_eq_some_iff.mp h
    obtain ⟨hin, hout⟩ := modifyFrames_spec hnext i
    obtain ⟨hin', hout'⟩ := ih hrest
    refine ⟨?_, fun hnot => (hout' hnot).trans (hout hnot)⟩
    intro hi frame hframe
    obtain ⟨found, placed, hfound, hplaced, hnextFrame⟩ := hin hi
    obtain rfl : frame = found := by simpa [hframe] using hfound
    obtain ⟨frame', hframe', hlast⟩ := hin' hi placed hnextFrame
    refine ⟨frame', ?_, hlast⟩
    unfold placeTiles at hframe' ⊢
    rw [List.foldlM_cons, hplaced]
    exact hframe'

end PCCEncoder

/-- A tile of a frame is placed within the height that it got. -/
def TileDone (fuel : ℕ) (params : PackingParams) (maxWidth : ℕ) (frame : AuxFrame) (ti : ℕ)
    (tile : AuxTile) : Prop :=
  ∃ before auxPointsTileHeight auxTileHeight, before.Valid params ∧
    PCCEncoder.placeAuxiliaryTile fuel params maxWidth before =
      some (tile, auxPointsTileHeight) ∧
    frame.auxTileHeight[ti]? = some auxTileHeight ∧ auxPointsTileHeight ≤ auxTileHeight

theorem TilePlaced.valid {params : PackingParams} {stride first last height : ℕ} {tile : AuxTile}
    (h : TilePlaced params stride first last height tile) : tile.Valid params where
  rawResolution raw hraw := (h.raws raw hraw).resolution
  eomResolution eomPatch heom := (h.eoms eomPatch heom).resolution
  totalNumberOfRawPoints := h.totalNumberOfRawPoints
  totalNumberOfEOMPoints := h.totalNumberOfEOMPoints

namespace PCCEncoder

variable {fuel : ℕ} {params : PackingParams} {maxWidth : ℕ}

/-- The members of a frame that placing its tiles keeps, and what it does to one tile. -/
theorem placeTileOfFrame_spec (hwidth : maxWidth < 2 ^ 64) {tileIdx : ℕ} {frame frame' : AuxFrame}
    (h : placeTileOfFrame fuel params maxWidth tileIdx frame = some frame')
    (hvalid : ∀ tile ∈ frame.tiles, tile.Valid params) :
    frame'.auxVideoWidth = frame.auxVideoWidth ∧
      frame'.auxTileLeftTopY = frame.auxTileLeftTopY ∧
      frame'.tiles.length = frame.tiles.length ∧
      (∀ tile ∈ frame'.tiles, tile.Valid params) ∧
      (∀ tile, frame'.tiles[tileIdx]? = some tile →
        TileDone fuel params maxWidth frame' tileIdx tile) ∧
      ∀ (ti : ℕ) (tile : AuxTile), ti ≠ tileIdx → frame'.tiles[ti]? = some tile →
        frame.tiles[ti]? = some tile ∧
          (TileDone fuel params maxWidth frame ti tile →
            TileDone fuel params maxWidth frame' ti tile) := by
  obtain ⟨before, hbefore, h⟩ := Option.bind_eq_some_iff.mp h
  obtain ⟨⟨tile, height⟩, hplace, h⟩ := Option.bind_eq_some_iff.mp h
  obtain ⟨old, hold, h⟩ := Option.bind_eq_some_iff.mp h
  obtain rfl := Option.some.inj h
  obtain ⟨hlt, -⟩ := List.getElem?_eq_some_iff.mp hbefore
  obtain ⟨hltHeight, -⟩ := List.getElem?_eq_some_iff.mp hold
  have hbeforeValid := hvalid before (List.mem_of_getElem? hbefore)
  obtain ⟨first, last, hplaced⟩ := placeAuxiliaryTile_spec hwidth hbeforeValid hplace
  refine ⟨rfl, rfl, List.length_set, ?_, ?_, ?_⟩
  · intro other hother
    rcases List.mem_or_eq_of_mem_set hother with hother | rfl
    · exact hvalid other hother
    · exact hplaced.valid
  · intro other hother
    obtain rfl : tile = other := by simpa [List.getElem?_set_self hlt] using hother
    exact ⟨before, height, max old height, hbeforeValid, hplace,
      List.getElem?_set_self hltHeight, Nat.le_max_right _ _⟩
  · intro ti other hne hother
    rw [List.getElem?_set_ne (Ne.symm hne)] at hother
    refine ⟨hother, ?_⟩
    rintro ⟨source, sourceHeight, total, hsource, hplaceSource, htotal, hle⟩
    refine ⟨source, sourceHeight, total, hsource, hplaceSource, ?_, hle⟩
    exact (List.getElem?_set_ne (Ne.symm hne)).trans htotal

theorem placeTiles_spec (hwidth : maxWidth < 2 ^ 64) {tiles : List ℕ} {frame frame' : AuxFrame}
    (h : placeTiles fuel params maxWidth tiles frame = some frame')
    (hvalid : ∀ tile ∈ frame.tiles, tile.Valid params) :
    frame'.auxVideoWidth = frame.auxVideoWidth ∧
      frame'.auxTileLeftTopY = frame.auxTileLeftTopY ∧
      frame'.tiles.length = frame.tiles.length ∧
      (∀ tile ∈ frame'.tiles, tile.Valid params) ∧
      ∀ (ti : ℕ) (tile : AuxTile), frame'.tiles[ti]? = some tile →
        (ti ∈ tiles ∨ ∀ before, frame.tiles[ti]? = some before →
          TileDone fuel params maxWidth frame ti before) →
        TileDone fuel params maxWidth frame' ti tile := by
  induction tiles generalizing frame with
  | nil =>
    obtain rfl : frame = frame' := Option.some.inj h
    refine ⟨rfl, rfl, rfl, hvalid, ?_⟩
    intro ti tile htile hdone
    rcases hdone with hmem | hdone
    · cases hmem
    · exact hdone tile htile
  | cons tileIdx tiles ih =>
    unfold placeTiles at h
    rw [List.foldlM_cons] at h
    obtain ⟨next, hnext, hrest⟩ := Option.bind_eq_some_iff.mp h
    obtain ⟨hw, htops, hlength, hvalid', hself, hother⟩ :=
      placeTileOfFrame_spec hwidth hnext hvalid
    obtain ⟨hw', htops', hlength', hvalid'', hdone'⟩ := ih hrest hvalid'
    refine ⟨hw'.trans hw, htops'.trans htops, hlength'.trans hlength, hvalid'', ?_⟩
    intro ti tile htile hdone
    apply hdone' ti tile htile
    by_cases hmem : ti ∈ tiles
    · exact Or.inl hmem
    · right
      intro before hbefore
      by_cases hti : ti = tileIdx
      · subst hti
        exact hself before hbefore
      · obtain ⟨hsame, hkeep⟩ := hother ti before hti hbefore
        apply hkeep
        rcases hdone with hin | hdone
        · exact absurd hin (by simp [hti, hmem])
        · exact hdone before hsame

/-- Each tile starts where the one above it ends. -/
theorem placeLeftTops_spec {frame frame' : AuxFrame} (h : placeLeftTops frame = some frame') :
    frame'.auxVideoWidth = frame.auxVideoWidth ∧ frame'.tiles = frame.tiles ∧
      frame'.auxTileHeight = frame.auxTileHeight ∧
      ∀ ti < frame.auxTileHeight.length,
        frame'.auxTileLeftTopY[ti]? = some (frame.auxTileHeight.take ti).sum := by
  have hrun : ∀ (count start : ℕ) (frame frame' : AuxFrame), 0 < start →
      (List.range' start count).foldlM placeBelow frame = some frame' →
      (∀ ti < start, frame.auxTileLeftTopY[ti]? = some (frame.auxTileHeight.take ti).sum) →
      frame'.auxVideoWidth = frame.auxVideoWidth ∧ frame'.tiles = frame.tiles ∧
        frame'.auxTileHeight = frame.auxTileHeight ∧
        ∀ ti < start + count,
          frame'.auxTileLeftTopY[ti]? = some (frame.auxTileHeight.take ti).sum := by
    intro count
    induction count with
    | zero =>
      intro start frame frame' _ h htops
      obtain rfl : frame = frame' := Option.some.inj h
      exact ⟨rfl, rfl, rfl, htops⟩
    | succ count ih =>
      intro start frame frame' hstart h htops
      rw [List.range'_succ, List.foldlM_cons] at h
      obtain ⟨next, hnext, hrest⟩ := Option.bind_eq_some_iff.mp h
      obtain ⟨top, htop, hnext⟩ := Option.bind_eq_some_iff.mp hnext
      obtain ⟨height, hheight, hnext⟩ := Option.bind_eq_some_iff.mp hnext
      split_ifs at hnext with hlt
      obtain rfl := Option.some.inj hnext
      have habove := htops (start - 1) (by omega)
      obtain rfl : top = (frame.auxTileHeight.take (start - 1)).sum := by
        simpa [htop] using habove
      have hsum : (frame.auxTileHeight.take start).sum =
          (frame.auxTileHeight.take (start - 1)).sum + height := by
        obtain ⟨above, rfl⟩ := Nat.exists_eq_add_one_of_ne_zero (Nat.ne_of_gt hstart)
        rw [Nat.add_sub_cancel] at hheight ⊢
        rw [List.take_add_one, List.sum_append, hheight]
        simp
      obtain ⟨hw, htiles, hheights, hall⟩ := ih (start + 1) _ frame' (by omega) hrest (by
        intro ti hti
        by_cases heq : ti = start
        · subst heq
          rw [List.getElem?_set_self hlt, hsum]
        · rw [List.getElem?_set_ne (Ne.symm heq)]
          exact htops ti (by omega))
      exact ⟨hw, htiles, hheights, fun ti hti => hall ti (by omega)⟩
  unfold placeLeftTops at h
  split_ifs at h with hnil
  obtain ⟨hw, htiles, hheights, hall⟩ := hrun _ 1 _ frame' (by omega) h (by
    intro ti hti
    obtain rfl : ti = 0 := by omega
    exact List.getElem?_set_self (List.length_pos_of_ne_nil hnil))
  exact ⟨hw, htiles, hheights, fun ti hti => hall ti (by omega)⟩

/-- Where a frame of a segment has no more tiles than the loop reaches, or was placed before, it
is placed. -/
theorem placed_of_placeTiles (hwidth : maxWidth < 2 ^ 64) {numTiles : ℕ}
    {frame middle frame' : AuxFrame}
    (hplace : placeTiles fuel params maxWidth (List.range numTiles) frame = some middle)
    (htops : placeLeftTops middle = some frame')
    (hvalid : ∀ tile ∈ frame.tiles, tile.Valid params)
    (hcover : frame.tiles.length ≤ numTiles ∨ frame.Placed fuel params maxWidth) :
    frame'.Placed fuel params maxWidth := by
  obtain ⟨-, -, hlength, -, hdone⟩ := placeTiles_spec hwidth hplace hvalid
  obtain ⟨-, htiles, hheights, hall⟩ := placeLeftTops_spec htops
  have htile : ∀ (ti : ℕ) (tile : AuxTile), frame'.tiles[ti]? = some tile →
      TileDone fuel params maxWidth frame' ti tile := by
    intro ti tile h
    rw [htiles] at h
    obtain ⟨before, height, total, hbefore, hplaced, htotal, hle⟩ := hdone ti tile h (by
      rcases hcover with hle | hplaced
      · left
        obtain ⟨hlt, -⟩ := List.getElem?_eq_some_iff.mp h
        exact List.mem_range.mpr (by omega)
      · exact Or.inr fun before hbefore => hplaced.tiles ti before hbefore)
    exact ⟨before, height, total, hbefore, hplaced, by rw [hheights]; exact htotal, hle⟩
  refine ⟨htile, ?_⟩
  intro ti hti
  obtain ⟨before, height, total, -, -, htotal, -⟩ :=
    htile ti frame'.tiles[ti] (List.getElem?_eq_getElem hti)
  rw [hheights] at htotal ⊢
  exact hall ti (List.getElem?_eq_some_iff.mp htotal).1

/-- The tiles that the loop over a segment reaches. -/
def numTilesInSeg (tileSegmentationType : ℤ) (context : List AuxFrame) (segment : ℕ × ℕ) :
    Option ℕ :=
  if tileSegmentationType = 0 then some 1
  else context[segment.1]?.map fun frame => frame.tiles.length

/-- A frame is what it was, up to the places of its patches and tiles. -/
structure SameFrame (params : PackingParams) (frame frame' : AuxFrame) : Prop where
  auxVideoWidth : frame'.auxVideoWidth = frame.auxVideoWidth
  tiles : frame'.tiles.length = frame.tiles.length
  valid : ∀ tile ∈ frame'.tiles, tile.Valid params

theorem placeSegment_spec (hwidth : maxWidth < 2 ^ 64) {tileSegmentationType : ℤ}
    {context context' : List AuxFrame} {segment : ℕ × ℕ}
    (h : placeSegment fuel params tileSegmentationType maxWidth context segment = some context')
    {i : ℕ} {frame : AuxFrame} (hframe : context[i]? = some frame)
    (hvalid : ∀ tile ∈ frame.tiles, tile.Valid params) :
    ∃ frame', context'[i]? = some frame' ∧ SameFrame params frame frame' ∧
      (frame.Placed fuel params maxWidth → frame'.Placed fuel params maxWidth) ∧
      (segment.1 ≤ i → i < segment.2 →
        (∀ numTiles, numTilesInSeg tileSegmentationType context segment = some numTiles →
          frame.tiles.length ≤ numTiles) → frame'.Placed fuel params maxWidth) := by
  obtain ⟨numTiles, hnumTiles, h⟩ := Option.bind_eq_some_iff.mp h
  obtain ⟨middle, hmiddle, h⟩ := Option.bind_eq_some_iff.mp h
  obtain ⟨hin, hout⟩ := placeFrames_spec hmiddle i
  obtain ⟨hin', hout'⟩ := modifyFrames_spec h i
  by_cases hi : segment.1 ≤ i ∧ i < segment.1 + (segment.2 - segment.1)
  · obtain ⟨placed, hplaced, hget⟩ := hin hi frame hframe
    obtain ⟨found, frame', hfound, htops, hget'⟩ := hin' hi
    obtain rfl : placed = found := by simpa [hget] using hfound
    obtain ⟨hw, -, hlength, hvalid', -⟩ := placeTiles_spec hwidth hplaced hvalid
    obtain ⟨hw', htiles, -, -⟩ := placeLeftTops_spec htops
    refine ⟨frame', hget', ⟨hw'.trans hw, by rw [htiles, hlength], by rwa [htiles]⟩, ?_, ?_⟩
    · intro hbefore
      exact placed_of_placeTiles hwidth hplaced htops hvalid (Or.inr hbefore)
    · intro _ _ hcover
      exact placed_of_placeTiles hwidth hplaced htops hvalid (Or.inl (hcover numTiles hnumTiles))
  · refine ⟨frame, ?_, ⟨rfl, rfl, hvalid⟩, id, ?_⟩
    · rw [hout' hi, hout hi, hframe]
    · intro hlow hhigh
      exact absurd ⟨hlow, by omega⟩ hi

theorem length_of_placeSegment {tileSegmentationType : ℤ} {context context' : List AuxFrame}
    {segment : ℕ × ℕ}
    (h : placeSegment fuel params tileSegmentationType maxWidth context segment =
      some context') : context'.length = context.length := by
  obtain ⟨numTiles, -, h⟩ := Option.bind_eq_some_iff.mp h
  obtain ⟨middle, hmiddle, h⟩ := Option.bind_eq_some_iff.mp h
  have hlast := length_of_foldlM (fun _ _ _ => length_of_modifyFrame) h
  have hfirst := length_of_foldlM
    (fun _ _ _ => length_of_foldlM fun _ _ _ => length_of_modifyFrame) hmiddle
  exact hlast.trans hfirst

/-- A segment reaches all tiles of a frame. -/
def Reaches (tileSegmentationType : ℤ) (context : List AuxFrame) (i : ℕ) (frame : AuxFrame)
    (segment : ℕ × ℕ) : Prop :=
  segment.1 ≤ i ∧ i < segment.2 ∧
    ∀ numTiles, numTilesInSeg tileSegmentationType context segment = some numTiles →
      frame.tiles.length ≤ numTiles

theorem placeSegments_spec (hwidth : maxWidth < 2 ^ 64) {tileSegmentationType : ℤ}
    {segments : List (ℕ × ℕ)} {context context' : List AuxFrame}
    (h : segments.foldlM (placeSegment fuel params tileSegmentationType maxWidth) context =
      some context')
    (hvalid : ∀ frame ∈ context, ∀ tile ∈ frame.tiles, tile.Valid params)
    {i : ℕ} {frame : AuxFrame} (hframe : context[i]? = some frame) :
    ∃ frame', context'[i]? = some frame' ∧ SameFrame params frame frame' ∧
      ((frame.Placed fuel params maxWidth ∨
        ∃ segment ∈ segments, Reaches tileSegmentationType context i frame segment) →
        frame'.Placed fuel params maxWidth) := by
  induction segments generalizing context frame with
  | nil =>
    obtain rfl : context = context' := Option.some.inj h
    refine ⟨frame, hframe, ⟨rfl, rfl, hvalid frame (List.mem_of_getElem? hframe)⟩, ?_⟩
    rintro (hplaced | ⟨segment, hmem, -⟩)
    · exact hplaced
    · cases hmem
  | cons segment segments ih =>
    rw [List.foldlM_cons] at h
    obtain ⟨next, hnext, hrest⟩ := Option.bind_eq_some_iff.mp h
    have hlength := length_of_placeSegment hnext
    -- a frame of the next context comes from one of this context
    have hback : ∀ (j : ℕ) (fr' : AuxFrame), next[j]? = some fr' →
        ∃ fr, context[j]? = some fr ∧ SameFrame params fr fr' := by
      intro j fr' hfr'
      have hlt : j < context.length := by
        rw [← hlength]
        exact (List.getElem?_eq_some_iff.mp hfr').1
      have hfr := List.getElem?_eq_getElem hlt
      obtain ⟨found, hfound, hsame, -⟩ :=
        placeSegment_spec hwidth hnext hfr (hvalid _ (List.mem_of_getElem? hfr))
      obtain rfl : found = fr' := by simpa [hfr'] using hfound.symm
      exact ⟨_, hfr, hsame⟩
    obtain ⟨middle, hmiddle, hsame, hkeep, hreach⟩ :=
      placeSegment_spec hwidth hnext hframe (hvalid frame (List.mem_of_getElem? hframe))
    obtain ⟨frame', hframe', hsame', hplaced'⟩ := ih hrest (by
      intro fr' hfr'
      obtain ⟨j, hj⟩ := List.mem_iff_getElem?.mp hfr'
      obtain ⟨fr, -, hfr⟩ := hback j fr' hj
      exact hfr.valid) hmiddle
    refine ⟨frame', hframe', ⟨hsame'.auxVideoWidth.trans hsame.auxVideoWidth,
      hsame'.tiles.trans hsame.tiles, hsame'.valid⟩, ?_⟩
    intro hcover
    apply hplaced'
    rcases hcover with hplaced | ⟨found, hfound, hlow, hhigh, hall⟩
    · exact Or.inl (hkeep hplaced)
    · rcases List.mem_cons.mp hfound with rfl | hfound
      · exact Or.inl (hreach hlow hhigh hall)
      · right
        refine ⟨found, hfound, hlow, hhigh, ?_⟩
        intro numTiles hnumTiles
        rw [hsame.tiles]
        apply hall
        unfold numTilesInSeg at hnumTiles ⊢
        split_ifs at hnumTiles ⊢
        · exact hnumTiles
        · obtain ⟨fr', hfr', rfl⟩ := Option.map_eq_some_iff.mp hnumTiles
          obtain ⟨fr, hfr, hsameFr⟩ := hback found.1 fr' hfr'
          rw [hfr, Option.map_some, hsameFr.tiles]

/-- The encoder places the frames whose tiles its loops reach. -/
theorem placeAuxiliaryPointsTiles_placed {tileSegmentationType : ℤ}
    {framesInAFPS : List (ℕ × ℕ)} {context context' : List AuxFrame}
    (h : placeAuxiliaryPointsTiles fuel params tileSegmentationType framesInAFPS context =
      some context')
    (hvalid : ∀ frame ∈ context, ∀ tile ∈ frame.tiles, tile.Valid params)
    (hsizeT : ∀ frame ∈ context, frame.auxVideoWidth < 2 ^ 64)
    (hreach : ∀ (i : ℕ) (frame : AuxFrame), context[i]? = some frame →
      ∃ segment ∈ segments tileSegmentationType framesInAFPS context.length,
        Reaches tileSegmentationType context i frame segment) :
    AuxiliaryPlaced fuel params context' := by
  obtain ⟨first, hfirst, h⟩ := Option.bind_eq_some_iff.mp h
  have hwidth := hsizeT first (List.mem_of_getElem? hfirst)
  have hlength := length_of_foldlM (fun _ _ _ => length_of_placeSegment) h
  have hback : ∀ (j : ℕ) (frame' : AuxFrame), context'[j]? = some frame' →
      ∃ frame, context[j]? = some frame ∧ frame'.auxVideoWidth = frame.auxVideoWidth ∧
        frame'.Placed fuel params first.auxVideoWidth := by
    intro j frame' hframe'
    have hlt : j < context.length := by
      rw [← hlength]
      exact (List.getElem?_eq_some_iff.mp hframe').1
    have hframe := List.getElem?_eq_getElem hlt
    obtain ⟨found, hfound, hsame, hplaced⟩ := placeSegments_spec hwidth h hvalid hframe
    obtain rfl : found = frame' := by simpa [hframe'] using hfound.symm
    exact ⟨_, hframe, hsame.auxVideoWidth, hplaced (Or.inr (hreach j _ hframe))⟩
  constructor
  · intro first' hfirst' frame' hframe'
    obtain ⟨j, hj⟩ := List.mem_iff_getElem?.mp hframe'
    obtain ⟨-, -, -, hplaced⟩ := hback j frame' hj
    rw [List.head?_eq_getElem?] at hfirst'
    obtain ⟨source, hsource, hsame, -⟩ := hback 0 first' hfirst'
    obtain rfl : first = source := by simpa [hfirst] using hsource
    rw [hsame]
    exact hplaced
  · intro frame' hframe'
    obtain ⟨j, hj⟩ := List.mem_iff_getElem?.mp hframe'
    obtain ⟨frame, hframe, hsame, -⟩ := hback j frame' hj
    rw [hsame]
    exact hsizeT frame (List.mem_of_getElem? hframe)

end PCCEncoder

end V3C

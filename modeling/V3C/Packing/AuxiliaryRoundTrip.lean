import V3C.Packing.AuxiliaryLayout

/-! The attributes of raw and EOM points, written to the auxiliary video and read back. -/
namespace V3C
open Cells PCCImageAttribute

/-- The attributes that the points of a tile need. -/
def AuxTile.Fits (tile : AuxTile) (attributes : AuxAttributes) : Prop :=
  attributes.rawPointsAttribute.length = tile.totalNumberOfRawPoints ∧
    attributes.eomAttribute.length = tile.totalNumberOfEOMPoints

namespace PCCEncoder

def eomPatchPixels (params : PackingParams) (width leftTopY : ℕ) :
    List PCCEomPatch → ℕ → Option (List (List (ℕ × ℕ)))
  | [], _ => some []
  | eomPatch :: eomPatches, nPixelInCurrentBlockCount => do
    let (pixels, next) ← eomPatch.pixels params.occupancyResolution width leftTopY
      nPixelInCurrentBlockCount
    let rest ← eomPatchPixels params width leftTopY eomPatches next
    some (pixels :: rest)

/-- The pixels that the writer reaches, for each patch of the tiles from an index on. -/
def patchPixels (params : PackingParams) (frame : AuxFrame) :
    ℕ → List AuxTile → Option (List (List (ℕ × ℕ)))
  | _, [] => some []
  | tileIndex, tile :: tiles => do
    let leftTopY ← frame.auxTileLeftTopY[tileIndex]?
    let eom ← eomPatchPixels params frame.auxVideoWidth leftTopY tile.eomPatches 0
    let rest ← patchPixels params frame (tileIndex + 1) tiles
    some ((tile.rawPointsPatches.map fun raw => raw.pixels leftTopY) ++ eom ++ rest)

end PCCEncoder

/-- All attributes come back from the pictures that they were written to, whatever the tiles had
before, and no two patches of a frame share a pixel. -/
structure AttributesRoundTrip (params : PackingParams) (context : List AuxFrame) : Prop where
  restored : ∀ attributes before : List (List AuxAttributes),
    List.Forall₂ (fun frame => List.Forall₂ AuxTile.Fits frame.tiles) context attributes →
    List.Forall₂ (fun frame before => before.length = frame.tiles.length) context before →
    (PCCEncoder.generateRawPointsAttributeVideo params context attributes).bind
      (PCCCodec.generateRawPointsAttributes context before) = some attributes
  unshared : ∀ frame ∈ context, ∃ patches,
    PCCEncoder.patchPixels params frame 0 frame.tiles = some patches ∧
      patches.Pairwise List.Disjoint

/-- The colours that are written to the pixels of a tile. -/
def tileEntries (params : PackingParams) (widthInBlock leftTopY : ℕ) (tile : AuxTile)
    (attributes : AuxAttributes) : List ((ℕ × ℕ) × PCCColor3B) :=
  (rawPixels leftTopY tile.rawPointsPatches).zip attributes.rawPointsAttribute ++
    (eomPixels params.occupancyResolution widthInBlock leftTopY tile.eomPatches 0).zip
      attributes.eomAttribute

/-- There are blocks in a row where an EOM patch has points. -/
def Wide (widthInBlock : ℕ) (tile : AuxTile) : Prop :=
  ∀ eomPatch ∈ tile.eomPatches, eomPatch.eomCount ≠ 0 → widthInBlock ≠ 0

section

variable {params : PackingParams} {stride first last height : ℕ} {tile : AuxTile}

theorem TilePlaced.length_rawPixels (h : TilePlaced params stride first last height tile)
    (leftTopY : ℕ) :
    (rawPixels leftTopY tile.rawPointsPatches).length = tile.totalNumberOfRawPoints := by
  rw [h.totalNumberOfRawPoints]
  exact V3C.length_rawPixels (fun raw hraw => (h.raws raw hraw).roomy) leftTopY

theorem TilePlaced.length_eomPixels (h : TilePlaced params stride first last height tile)
    (widthInBlock leftTopY : ℕ) :
    (eomPixels params.occupancyResolution widthInBlock leftTopY tile.eomPatches 0).length =
      tile.totalNumberOfEOMPoints := by
  rw [h.totalNumberOfEOMPoints, V3C.length_eomPixels]

namespace PCCEncoder

theorem generateRawPointsAttributeImage_eq (h : TilePlaced params stride first last height tile)
    {frame : AuxFrame} {tileIndex leftTopY : ℕ}
    (htop : frame.auxTileLeftTopY[tileIndex]? = some leftTopY)
    (hwide : Wide (frame.auxVideoWidth / params.occupancyResolution) tile)
    {attributes : AuxAttributes} (hfits : tile.Fits attributes) (image : PCCImageAttribute) :
    generateRawPointsAttributeImage params frame tileIndex tile attributes image =
      writeAll setColor (tileEntries params (frame.auxVideoWidth / params.occupancyResolution)
        leftTopY tile attributes) image := by
  have hraw : (if tile.totalNumberOfRawPoints ≠ 0 then
      if params.occupancyResolution = 0 then none
      else do
        let leftTopY ← frame.auxTileLeftTopY[tileIndex]?
        let written ← writeRawPatches attributes.rawPointsAttribute leftTopY
          tile.rawPointsPatches 0 image
        if written.2 = tile.totalNumberOfRawPoints then some written.1 else none
      else some image) =
      writeAll setColor
        ((rawPixels leftTopY tile.rawPointsPatches).zip attributes.rawPointsAttribute) image := by
    by_cases hzero : tile.totalNumberOfRawPoints = 0
    · have hnil : rawPixels leftTopY tile.rawPointsPatches = [] := by
        rw [← List.length_eq_zero_iff, h.length_rawPixels, hzero]
      rw [if_neg (not_not.mpr hzero), hnil]
      rfl
    · rw [if_pos hzero, if_neg h.resolution, htop]
      simp only [Option.bind_eq_bind, Option.bind_some]
      rw [writeRawPatches_eq (fun raw hraw => (h.raws raw hraw).roomy)
        (by rw [hfits.1, h.totalNumberOfRawPoints, Nat.zero_add]), List.drop_zero,
        h.totalNumberOfRawPoints]
      cases writeAll setColor ((rawPixels leftTopY tile.rawPointsPatches).zip
        attributes.rawPointsAttribute) image with
      | none => rfl
      | some image => simp
  have heom : ∀ image : PCCImageAttribute, (if tile.totalNumberOfEOMPoints ≠ 0 then do
      let leftTopY ← frame.auxTileLeftTopY[tileIndex]?
      writeEomPatches params attributes.eomAttribute frame.auxVideoWidth leftTopY tile.eomPatches 0
        0 image
      else some image) =
      writeAll setColor ((eomPixels params.occupancyResolution
        (frame.auxVideoWidth / params.occupancyResolution) leftTopY tile.eomPatches 0).zip
          attributes.eomAttribute) image := by
    intro image
    by_cases hzero : tile.totalNumberOfEOMPoints = 0
    · have hnil : eomPixels params.occupancyResolution
          (frame.auxVideoWidth / params.occupancyResolution) leftTopY tile.eomPatches 0 = [] := by
        rw [← List.length_eq_zero_iff, h.length_eomPixels, hzero]
      rw [if_neg (not_not.mpr hzero), hnil]
      rfl
    · rw [if_pos hzero, htop]
      have hwrite : writeEomPatches params attributes.eomAttribute frame.auxVideoWidth leftTopY
          tile.eomPatches 0 (0 % (params.occupancyResolution * params.occupancyResolution))
          image = _ :=
        writeEomPatches_eq h.resolution
          (fun eomPatch hin => ⟨(h.eoms eomPatch hin).resolution, hwide eomPatch hin⟩)
          (by rw [hfits.2, h.totalNumberOfEOMPoints, Nat.zero_add]) image
      rw [Nat.zero_mod, List.drop_zero] at hwrite
      exact hwrite
  unfold generateRawPointsAttributeImage tileEntries
  rw [writeAll_append]
  simp only [Option.bind_eq_bind] at hraw heom ⊢
  rw [hraw]
  congr 1
  funext image
  exact heom image

end PCCEncoder

theorem resizeTo_length {α : Type} [Inhabited α] (xs : List α) (n : ℕ) :
    (resizeTo xs n).length = n := by
  unfold resizeTo
  rw [List.length_append, List.length_take, List.length_replicate]
  omega

namespace PCCCodec

theorem generateRawPointsAttributefromVideo_eq
    (h : TilePlaced params stride first last height tile) {image : PCCImageAttribute}
    {frame : AuxFrame} {tileIndex leftTopY : ℕ}
    (htop : frame.auxTileLeftTopY[tileIndex]? = some leftTopY)
    (hwide : Wide (image.width / params.occupancyResolution) tile) (before : AuxAttributes) :
    generateRawPointsAttributefromVideo image frame tileIndex tile before =
      (readAll getColor (rawPixels leftTopY tile.rawPointsPatches) image).bind fun rawAttributes =>
        (readAll getColor (eomPixels params.occupancyResolution
          (image.width / params.occupancyResolution) leftTopY tile.eomPatches 0) image).map
            fun eomAttributes => ⟨rawAttributes, eomAttributes⟩ := by
  have hraw : ∀ rawAttributes : List PCCColor3B,
      rawAttributes.length = tile.totalNumberOfRawPoints →
      (if tile.totalNumberOfRawPoints ≠ 0 then do
        let leftTopY ← frame.auxTileLeftTopY[tileIndex]?
        let result ← readRawPatches image leftTopY tile.rawPointsPatches 0 rawAttributes
        if result.2 = tile.totalNumberOfRawPoints then some result.1 else none
      else some rawAttributes) =
      readAll getColor (rawPixels leftTopY tile.rawPointsPatches) image := by
    intro rawAttributes hlength
    by_cases hzero : tile.totalNumberOfRawPoints = 0
    · have hnil : rawPixels leftTopY tile.rawPointsPatches = [] := by
        rw [← List.length_eq_zero_iff, h.length_rawPixels, hzero]
      rw [if_neg (not_not.mpr hzero), hnil, List.length_eq_zero_iff.mp (hlength.trans hzero)]
      rfl
    · rw [if_pos hzero, htop]
      simp only [Option.bind_eq_bind, Option.bind_some]
      rw [readRawPatches_eq
        (fun raw hraw => ⟨(h.raws raw hraw).sizes, (h.raws raw hraw).roomy⟩)
        (by rw [hlength, h.totalNumberOfRawPoints, Nat.zero_add])]
      cases hcolors : readAll getColor (rawPixels leftTopY tile.rawPointsPatches) image with
      | none => rfl
      | some colors =>
        have hcount := (length_of_readAll hcolors).trans (h.length_rawPixels leftTopY)
        simp only [Option.map_some, Option.bind_some, Nat.zero_add]
        rw [if_pos h.totalNumberOfRawPoints.symm, splice_zero (hlength.trans hcount.symm)]
  have heom : ∀ eomAttributes : List PCCColor3B,
      eomAttributes.length = tile.totalNumberOfEOMPoints →
      (if tile.totalNumberOfEOMPoints ≠ 0 then do
        let leftTopY ← frame.auxTileLeftTopY[tileIndex]?
        readEomPatches image leftTopY tile.eomPatches 0 0 eomAttributes
      else some eomAttributes) =
      readAll getColor (eomPixels params.occupancyResolution
        (image.width / params.occupancyResolution) leftTopY tile.eomPatches 0) image := by
    intro eomAttributes hlength
    by_cases hzero : tile.totalNumberOfEOMPoints = 0
    · have hnil : eomPixels params.occupancyResolution
          (image.width / params.occupancyResolution) leftTopY tile.eomPatches 0 = [] := by
        rw [← List.length_eq_zero_iff, h.length_eomPixels, hzero]
      rw [if_neg (not_not.mpr hzero), hnil, List.length_eq_zero_iff.mp (hlength.trans hzero)]
      rfl
    · rw [if_pos hzero, htop]
      have hread : readEomPatches image leftTopY tile.eomPatches 0
          (0 % (params.occupancyResolution * params.occupancyResolution)) eomAttributes = _ :=
        readEomPatches_eq h.resolution
          (fun eomPatch hin => ⟨(h.eoms eomPatch hin).resolution, hwide eomPatch hin⟩)
          (by rw [hlength, h.totalNumberOfEOMPoints, Nat.zero_add])
      rw [Nat.zero_mod] at hread
      refine hread.trans ?_
      cases hcolors : readAll getColor (eomPixels params.occupancyResolution
          (image.width / params.occupancyResolution) leftTopY tile.eomPatches 0) image with
      | none => rfl
      | some colors =>
        have hcount := (length_of_readAll hcolors).trans (h.length_eomPixels _ leftTopY)
        rw [Option.map_some, splice_zero (hlength.trans hcount.symm)]
  unfold generateRawPointsAttributefromVideo
  simp only [Option.bind_eq_bind] at hraw heom ⊢
  rw [hraw _ (resizeTo_length _ _), heom _ (resizeTo_length _ _)]
  cases readAll getColor (rawPixels leftTopY tile.rawPointsPatches) image with
  | none => rfl
  | some rawAttributes =>
    cases readAll getColor (eomPixels params.occupancyResolution
      (image.width / params.occupancyResolution) leftTopY tile.eomPatches 0) image <;> rfl

end PCCCodec

end

/-- A tile of a frame is placed in the rows between its left top and that of the next one. -/
structure TileInFrame (params : PackingParams) (stride : ℕ) (frame : AuxFrame) (ti : ℕ)
    (tile : AuxTile) : Prop where
  placed : ∃ first last height, TilePlaced params stride first last height tile ∧
    (frame.auxTileHeight.take ti).sum + height ≤ (frame.auxTileHeight.take (ti + 1)).sum
  leftTop : frame.auxTileLeftTopY[ti]? = some (frame.auxTileHeight.take ti).sum

theorem AuxFrame.Placed.tileInFrame {fuel : ℕ} {params : PackingParams} {maxWidth : ℕ}
    {frame : AuxFrame} (h : frame.Placed fuel params maxWidth) (hwidth : maxWidth < 2 ^ 64)
    {ti : ℕ} {tile : AuxTile} (htile : frame.tiles[ti]? = some tile) :
    TileInFrame params (maxWidth / params.occupancyResolution) frame ti tile := by
  obtain ⟨before, auxPointsTileHeight, auxTileHeight, hvalid, hplace, hheight, hle⟩ :=
    h.tiles ti tile htile
  obtain ⟨first, last, hplaced⟩ := PCCEncoder.placeAuxiliaryTile_spec hwidth hvalid hplace
  obtain ⟨hlt, -⟩ := List.getElem?_eq_some_iff.mp htile
  refine ⟨⟨first, last, auxPointsTileHeight, hplaced, ?_⟩, h.leftTops ti hlt⟩
  rw [List.take_add_one, List.sum_append, hheight]
  simp only [Option.toList_some, List.sum_singleton]
  omega

def TilesInFrame (params : PackingParams) (stride : ℕ) (frame : AuxFrame) (ti : ℕ)
    (tiles : List AuxTile) : Prop :=
  ∀ j tile, tiles[j]? = some tile → TileInFrame params stride frame (ti + j) tile

section

variable {params : PackingParams} {stride : ℕ} {frame : AuxFrame}

theorem TilesInFrame.head {ti : ℕ} {tile : AuxTile} {tiles : List AuxTile}
    (h : TilesInFrame params stride frame ti (tile :: tiles)) :
    TileInFrame params stride frame ti tile := h 0 tile rfl

theorem TilesInFrame.tail {ti : ℕ} {tile : AuxTile} {tiles : List AuxTile}
    (h : TilesInFrame params stride frame ti (tile :: tiles)) :
    TilesInFrame params stride frame (ti + 1) tiles := by
  intro j tile' htile'
  have := h (j + 1) tile' (by rw [List.getElem?_cons_succ]; exact htile')
  rw [Nat.add_right_comm]
  exact this

end

/-- The colours that are written for the tiles of a frame from an index on. -/
def frameEntries (params : PackingParams) (frame : AuxFrame) :
    ℕ → List (AuxTile × AuxAttributes) → List ((ℕ × ℕ) × PCCColor3B)
  | _, [] => []
  | ti, (tile, attributes) :: tiles =>
    tileEntries params (frame.auxVideoWidth / params.occupancyResolution)
      (frame.auxTileHeight.take ti).sum tile attributes ++ frameEntries params frame (ti + 1) tiles

section

variable {params : PackingParams} {stride : ℕ} {frame : AuxFrame}

theorem frameEntries_cons (ti : ℕ) (tile : AuxTile) (attributes : AuxAttributes)
    (tiles : List (AuxTile × AuxAttributes)) :
    frameEntries params frame ti ((tile, attributes) :: tiles) =
      tileEntries params (frame.auxVideoWidth / params.occupancyResolution)
        (frame.auxTileHeight.take ti).sum tile attributes ++
          frameEntries params frame (ti + 1) tiles := rfl

theorem mem_frameEntries {ti : ℕ} {tiles : List (AuxTile × AuxAttributes)}
    {entry : (ℕ × ℕ) × PCCColor3B} (h : entry ∈ frameEntries params frame ti tiles) :
    ∃ j tile attributes, tiles[j]? = some (tile, attributes) ∧
      entry ∈ tileEntries params (frame.auxVideoWidth / params.occupancyResolution)
        (frame.auxTileHeight.take (ti + j)).sum tile attributes := by
  induction tiles generalizing ti with
  | nil => cases h
  | cons first tiles ih =>
    rcases List.mem_append.mp h with h | h
    · exact ⟨0, first.1, first.2, rfl, h⟩
    · obtain ⟨j, tile, attributes, htile, hentry⟩ := ih h
      refine ⟨j + 1, tile, attributes, htile, ?_⟩
      rw [Nat.add_right_comm] at hentry
      exact hentry

namespace PCCEncoder

theorem generateRawPointsAttributeImages_eq {tiles : List AuxTile}
    {attributes : List AuxAttributes} {ti : ℕ} (hin : TilesInFrame params stride frame ti tiles)
    (hfits : List.Forall₂ AuxTile.Fits tiles attributes)
    (hwide : ∀ tile ∈ tiles, Wide (frame.auxVideoWidth / params.occupancyResolution) tile)
    (image : PCCImageAttribute) :
    generateRawPointsAttributeImages params frame ti (tiles.zip attributes) image =
      writeAll setColor (frameEntries params frame ti (tiles.zip attributes)) image := by
  induction hfits generalizing ti image with
  | nil => rfl
  | cons hfirst _ ih =>
    obtain ⟨first, last, height, hplaced, -⟩ := hin.head.placed
    rw [List.zip_cons_cons, frameEntries_cons]
    unfold generateRawPointsAttributeImages
    rw [generateRawPointsAttributeImage_eq hplaced hin.head.leftTop (hwide _ List.mem_cons_self)
      hfirst, writeAll_append]
    simp only [Option.bind_eq_bind]
    congr 1
    funext image
    exact ih hin.tail (fun tile h => hwide tile (List.mem_cons_of_mem _ h)) image

theorem wide_of_writeEomPatches {attributes : List PCCColor3B} {width leftTopY : ℕ}
    {eomPatches : List PCCEomPatch} {offset n : ℕ} {image image' : PCCImageAttribute}
    (h : writeEomPatches params attributes width leftTopY eomPatches offset n image =
      some image') :
    ∀ eomPatch ∈ eomPatches, eomPatch.eomCount ≠ 0 →
      width / eomPatch.occupancyResolution ≠ 0 := by
  induction eomPatches generalizing offset n image with
  | nil => simp
  | cons first eomPatches ih =>
    obtain ⟨⟨pixels, next⟩, hpixels, hrest⟩ := Option.bind_eq_some_iff.mp h
    obtain ⟨image₁, -, hrest⟩ := Option.bind_eq_some_iff.mp hrest
    intro eomPatch hmem hcount hzero
    rcases List.mem_cons.mp hmem with rfl | hmem
    · unfold PCCEomPatch.pixels at hpixels
      split_ifs at hpixels with hres
      simp only [hzero] at hpixels
      rw [if_pos ⟨trivial, hcount⟩] at hpixels
      cases hpixels
    · exact ih hrest eomPatch hmem hcount hzero

/-- A picture is only written where an EOM patch with points has blocks in a row. -/
theorem wide_of_generateRawPointsAttributeImages {tiles : List AuxTile}
    {attributes : List AuxAttributes} {ti : ℕ} (hin : TilesInFrame params stride frame ti tiles)
    (hlength : tiles.length = attributes.length) {image image' : PCCImageAttribute}
    (h : generateRawPointsAttributeImages params frame ti (tiles.zip attributes) image =
      some image') :
    ∀ tile ∈ tiles, Wide (frame.auxVideoWidth / params.occupancyResolution) tile := by
  induction tiles generalizing ti attributes image with
  | nil => simp
  | cons tile tiles ih =>
    cases attributes with
    | nil => simp at hlength
    | cons first attributes =>
      obtain ⟨image₁, hfirst, hrest⟩ := Option.bind_eq_some_iff.mp h
      intro tile' htile'
      rcases List.mem_cons.mp htile' with rfl | htile'
      · obtain ⟨top, last, height, hplaced, -⟩ := hin.head.placed
        intro eomPatch heom hcount
        have hres := (hplaced.eoms eomPatch heom).resolution
        have htotal : tile'.totalNumberOfEOMPoints ≠ 0 := by
          rw [hplaced.totalNumberOfEOMPoints]
          intro hzero
          exact hcount (List.sum_eq_zero_iff_forall_eq_nat.mp hzero _
            (List.mem_map.mpr ⟨eomPatch, heom, rfl⟩))
        obtain ⟨image₂, -, hwrite⟩ := Option.bind_eq_some_iff.mp hfirst
        rw [if_pos htotal, hin.head.leftTop] at hwrite
        rw [← hres]
        exact wide_of_writeEomPatches hwrite eomPatch heom hcount
      · exact ih hin.tail (by simpa using hlength) hrest tile' htile'

end PCCEncoder

theorem TilePlaced.keys {first last height : ℕ} {tile : AuxTile}
    (h : TilePlaced params stride first last height tile) {attributes : AuxAttributes}
    (hfits : tile.Fits attributes) (widthInBlock leftTopY : ℕ) :
    (tileEntries params widthInBlock leftTopY tile attributes).map Prod.fst =
      tilePixels params widthInBlock leftTopY tile := by
  unfold tileEntries tilePixels
  rw [List.map_append, List.map_fst_zip (by rw [h.length_rawPixels, hfits.1]),
    List.map_fst_zip (by rw [h.length_eomPixels, hfits.2])]

theorem sum_take_le (heights : List ℕ) (n : ℕ) : (heights.take n).sum ≤ heights.sum := by
  rw [← List.sum_take_add_sum_drop heights n]
  exact Nat.le_add_right _ _

variable {widthInBlock : ℕ}

/-- The pixels of the tiles lie in the video, from the top of the first one on. -/
theorem frameEntries_bounds {tiles : List AuxTile} {attributes : List AuxAttributes} {ti : ℕ}
    (hin : TilesInFrame params stride frame ti tiles)
    (hfits : List.Forall₂ AuxTile.Fits tiles attributes)
    (hroomy : ∀ tile ∈ tiles,
      Roomy params stride (frame.auxVideoWidth / params.occupancyResolution) tile.eomPatches)
    {pixel : ℕ × ℕ} (hmem : pixel ∈ (frameEntries params frame ti (tiles.zip attributes)).map
      Prod.fst) :
    pixel.1 < max stride (frame.auxVideoWidth / params.occupancyResolution) *
        params.occupancyResolution ∧
      (frame.auxTileHeight.take ti).sum ≤ pixel.2 ∧ pixel.2 < frame.auxVideoHeight := by
  induction hfits generalizing ti with
  | nil => cases hmem
  | @cons tile attributes tiles rest hfirst _ ih =>
    obtain ⟨first, last, height, hplaced, hbelow⟩ := hin.head.placed
    have hsum : (frame.auxTileHeight.take (ti + 1)).sum ≤ frame.auxVideoHeight :=
      sum_take_le _ _
    rw [List.zip_cons_cons, frameEntries_cons, List.map_append, List.mem_append,
      hplaced.keys hfirst] at hmem
    rcases hmem with hmem | hmem
    · have hbounds := hplaced.bounds (hroomy tile List.mem_cons_self) hmem
      exact ⟨hbounds.1, hbounds.2.1, by omega⟩
    · have hbounds := ih hin.tail (fun tile' h => hroomy tile' (List.mem_cons_of_mem tile h)) hmem
      exact ⟨hbounds.1, by omega, hbounds.2.2⟩

theorem nodup_frameEntries {tiles : List AuxTile} {attributes : List AuxAttributes} {ti : ℕ}
    (hin : TilesInFrame params stride frame ti tiles)
    (hfits : List.Forall₂ AuxTile.Fits tiles attributes)
    (hroomy : ∀ tile ∈ tiles,
      Roomy params stride (frame.auxVideoWidth / params.occupancyResolution) tile.eomPatches) :
    ((frameEntries params frame ti (tiles.zip attributes)).map Prod.fst).Nodup := by
  induction hfits generalizing ti with
  | nil => exact List.nodup_nil
  | @cons tile attributes tiles rest hfirst hrest ih =>
    obtain ⟨first, last, height, hplaced, hbelow⟩ := hin.head.placed
    have htail : ∀ tile' ∈ tiles, Roomy params stride
        (frame.auxVideoWidth / params.occupancyResolution) tile'.eomPatches :=
      fun tile' h => hroomy tile' (List.mem_cons_of_mem tile h)
    rw [List.zip_cons_cons, frameEntries_cons, List.map_append, hplaced.keys hfirst,
      List.nodup_append']
    refine ⟨hplaced.nodup (hroomy tile List.mem_cons_self) _, ih hin.tail htail, ?_⟩
    intro pixel hmem hmem'
    have habove := hplaced.bounds (hroomy tile List.mem_cons_self) hmem
    have hnext := frameEntries_bounds hin.tail hrest htail hmem'
    omega

/-- The EOM pixels are those of the writer where the reader counts as many blocks in a row, or no
patch leaves its first row. -/
theorem eomPixels_congr (leftTopY n : ℕ) {widthInBlock' : ℕ} {eomPatches : List PCCEomPatch}
    (hres : params.occupancyResolution ≠ 0) (hle : widthInBlock ≤ widthInBlock')
    (hown : ∀ eomPatch ∈ eomPatches,
      eomPatch.occupancyResolution = params.occupancyResolution)
    (hfit : ∀ eomPatch ∈ eomPatches,
      eomBlocks params eomPatch ≤ widthInBlock ∨ widthInBlock = widthInBlock') :
    eomPixels params.occupancyResolution widthInBlock' leftTopY eomPatches n =
      eomPixels params.occupancyResolution widthInBlock leftTopY eomPatches n := by
  induction eomPatches generalizing n with
  | nil => rfl
  | cons eomPatch eomPatches ih =>
    rw [eomPixels_cons, eomPixels_cons,
      ih _ (fun later h => hown later (List.mem_cons_of_mem eomPatch h))
        (fun later h => hfit later (List.mem_cons_of_mem eomPatch h))]
    congr 1
    rcases hfit eomPatch List.mem_cons_self with hrow | heq
    · apply List.map_congr_left
      intro k hk
      have hblock : k / (params.occupancyResolution * params.occupancyResolution) < widthInBlock :=
        (EomPlaced.block_lt (Nat.mul_pos (Nat.pos_of_ne_zero hres) (Nat.pos_of_ne_zero hres))
          (List.mem_range.mp hk)).trans_le hrow
      have hblock' := hblock.trans_le hle
      simp only [PCCEomPatch.pixel, hown eomPatch List.mem_cons_self]
      rw [Nat.mod_eq_of_lt hblock, Nat.mod_eq_of_lt hblock', Nat.div_eq_of_lt hblock,
        Nat.div_eq_of_lt hblock']
    · rw [heq]

end

/-- What one frame needs: its writer finds pixels for all attributes and its reader gets them
back. -/
def FrameRestores (params : PackingParams) (width height : ℕ) (frame : AuxFrame)
    (attributes before : List AuxAttributes) : Prop :=
  ∃ image, PCCEncoder.generateRawPointsAttributeImages params frame 0
      (frame.tiles.zip attributes) (.resize width height) = some image ∧
    PCCCodec.generateRawPointsAttributesfromVideo image frame 0 (frame.tiles.zip before) =
      some attributes

theorem width_of_writeAll {entries : List ((ℕ × ℕ) × PCCColor3B)} {image image' : PCCImageAttribute}
    (h : writeAll setColor entries image = some image') : image'.width = image.width := by
  induction entries generalizing image with
  | nil =>
    obtain rfl : image = image' := Option.some.inj h
    rfl
  | cons entry entries ih =>
    rw [writeAll_cons] at h
    obtain ⟨image₁, hset, hrest⟩ := Option.bind_eq_some_iff.mp h
    rw [setColor_eq] at hset
    split_ifs at hset
    rw [ih hrest, ← Option.some.inj hset]

/-- Each EOM patch has its blocks in one row, or the reader counts as many blocks in a row as the
writer does. -/
def Agrees (params : PackingParams) (widthInBlock widthInBlock' : ℕ) (tile : AuxTile) : Prop :=
  ∀ eomPatch ∈ tile.eomPatches,
    eomBlocks params eomPatch ≤ widthInBlock ∨ widthInBlock = widthInBlock'

section

variable {params : PackingParams} {stride : ℕ} {frame : AuxFrame}
  {widthInBlock widthInBlock' : ℕ}

theorem Agrees.roomy {tile : AuxTile} (h : Agrees params widthInBlock widthInBlock' tile)
    (hstride : stride ≤ widthInBlock') : Roomy params stride widthInBlock tile.eomPatches := by
  intro eomPatch heom
  rcases h eomPatch heom with hrow | heq
  · exact Or.inl hrow
  · exact Or.inr (heq ▸ hstride)

theorem Agrees.wide {tile : AuxTile} {first last height : ℕ}
    (h : Agrees params widthInBlock widthInBlock' tile) (hstride : stride ≤ widthInBlock')
    (hplaced : TilePlaced params stride first last height tile) : Wide widthInBlock tile := by
  intro eomPatch heom hcount
  have hres := Nat.pos_of_ne_zero hplaced.resolution
  have hblock := EomPlaced.block_lt (Nat.mul_pos hres hres) (Nat.pos_of_ne_zero hcount)
  have hrow := (hplaced.eoms eomPatch heom).row_lt (h.roomy hstride eomPatch heom) hblock
  exact Nat.ne_of_gt hrow.1

theorem Wide.mono {tile : AuxTile} (h : Wide widthInBlock tile)
    (hle : widthInBlock ≤ widthInBlock') : Wide widthInBlock' tile := by
  intro eomPatch heom hcount
  have := h eomPatch heom hcount
  omega

/-- The reader finds what its pixels hold. -/
theorem generateRawPointsAttributesfromVideo_eq {image : PCCImageAttribute}
    (hstride : stride ≤ image.width / params.occupancyResolution)
    (hle : frame.auxVideoWidth / params.occupancyResolution ≤
      image.width / params.occupancyResolution)
    {tiles : List AuxTile} {attributes before : List AuxAttributes} {ti : ℕ}
    (hin : TilesInFrame params stride frame ti tiles)
    (hfits : List.Forall₂ AuxTile.Fits tiles attributes) (hbefore : before.length = tiles.length)
    (hagrees : ∀ tile ∈ tiles, Agrees params (frame.auxVideoWidth / params.occupancyResolution)
      (image.width / params.occupancyResolution) tile)
    (hholds : ∀ entry ∈ frameEntries params frame ti (tiles.zip attributes),
      image.getColor entry.1 = some entry.2) :
    PCCCodec.generateRawPointsAttributesfromVideo image frame ti (tiles.zip before) =
      some attributes := by
  induction hfits generalizing ti before with
  | nil => rfl
  | @cons tile attributes tiles rest hfirst _ ih =>
    cases before with
    | nil => simp at hbefore
    | cons old before =>
      obtain ⟨first, last, height, hplaced, -⟩ := hin.head.placed
      have hagree := hagrees tile List.mem_cons_self
      have hwide := (hagree.wide hstride hplaced).mono hle
      have hcongr := eomPixels_congr (frame.auxTileHeight.take ti).sum 0 hplaced.resolution hle
        (fun eomPatch h => (hplaced.eoms eomPatch h).resolution) hagree
      have hentry : ∀ entry ∈ tileEntries params
          (frame.auxVideoWidth / params.occupancyResolution) (frame.auxTileHeight.take ti).sum tile
          attributes, image.getColor entry.1 = some entry.2 :=
        fun entry h => hholds entry (List.mem_append_left _ h)
      have hraw : readAll getColor (rawPixels (frame.auxTileHeight.take ti).sum
          tile.rawPointsPatches) image = some attributes.rawPointsAttribute :=
        readAll_eq_some (by rw [hplaced.length_rawPixels, hfirst.1]) fun entry h =>
          hentry entry (List.mem_append_left _ h)
      have heom : readAll getColor (eomPixels params.occupancyResolution
          (image.width / params.occupancyResolution) (frame.auxTileHeight.take ti).sum
          tile.eomPatches 0) image = some attributes.eomAttribute := by
        rw [hcongr]
        exact readAll_eq_some (by rw [hplaced.length_eomPixels, hfirst.2]) fun entry h =>
          hentry entry (List.mem_append_right _ h)
      have hrest := ih hin.tail (by simpa using hbefore)
        (fun tile' h => hagrees tile' (List.mem_cons_of_mem tile h))
        (fun entry h => hholds entry (List.mem_append_right _ h))
      rw [List.zip_cons_cons]
      unfold PCCCodec.generateRawPointsAttributesfromVideo
      rw [PCCCodec.generateRawPointsAttributefromVideo_eq hplaced hin.head.leftTop hwide, hraw,
        heom, hrest]
      rfl

theorem frameRestores_of_agrees {width height : ℕ}
    (hin : TilesInFrame params stride frame 0 frame.tiles)
    (hstride : stride ≤ width / params.occupancyResolution) (hwidth : frame.auxVideoWidth ≤ width)
    (hheight : frame.auxVideoHeight ≤ height)
    (hagrees : ∀ tile ∈ frame.tiles,
      Agrees params (frame.auxVideoWidth / params.occupancyResolution)
        (width / params.occupancyResolution) tile)
    {attributes before : List AuxAttributes}
    (hfits : List.Forall₂ AuxTile.Fits frame.tiles attributes)
    (hbefore : before.length = frame.tiles.length) :
    FrameRestores params width height frame attributes before := by
  have hle : frame.auxVideoWidth / params.occupancyResolution ≤
      width / params.occupancyResolution := Nat.div_le_div_right hwidth
  have hroomy : ∀ tile ∈ frame.tiles, Roomy params stride
      (frame.auxVideoWidth / params.occupancyResolution) tile.eomPatches :=
    fun tile h => (hagrees tile h).roomy hstride
  have hwide : ∀ tile ∈ frame.tiles,
      Wide (frame.auxVideoWidth / params.occupancyResolution) tile := by
    intro tile htile
    obtain ⟨j, hj⟩ := List.mem_iff_getElem?.mp htile
    obtain ⟨first, last, tileHeight, hplaced, -⟩ := (hin j tile hj).placed
    exact (hagrees tile htile).wide hstride hplaced
  have hinside : ∀ entry ∈ frameEntries params frame 0 (frame.tiles.zip attributes),
      ((resize width height).getColor entry.1).isSome := by
    intro entry hentry
    have hbounds := frameEntries_bounds hin hfits hroomy
      (List.mem_map.mpr ⟨entry, hentry, rfl⟩)
    rw [getColor_isSome]
    have hcolumns : max stride (frame.auxVideoWidth / params.occupancyResolution) *
        params.occupancyResolution ≤ width :=
      (Nat.mul_le_mul_right _ (max_le hstride hle)).trans (Nat.div_mul_le_self _ _)
    exact ⟨hbounds.1.trans_le hcolumns, hbounds.2.2.trans_le hheight⟩
  obtain ⟨image, himage⟩ := lawful.exists_writeAll hinside
  have himageWidth : image.width = width := width_of_writeAll himage
  refine ⟨image, ?_, ?_⟩
  · rw [PCCEncoder.generateRawPointsAttributeImages_eq hin hfits hwide]
    exact himage
  · rw [← himageWidth] at hstride hle hagrees
    apply generateRawPointsAttributesfromVideo_eq hstride hle hin hfits hbefore hagrees
    intro entry hentry
    exact lawful.get_of_mem himage (nodup_frameEntries hin hfits hroomy) hentry

theorem eomPatchPixels_eq (leftTopY n : ℕ) {width : ℕ} {eomPatches : List PCCEomPatch}
    (hres : params.occupancyResolution ≠ 0)
    (heom : ∀ eomPatch ∈ eomPatches,
      eomPatch.occupancyResolution = params.occupancyResolution ∧
        (eomPatch.eomCount ≠ 0 → width / params.occupancyResolution ≠ 0)) :
    ∃ patches, PCCEncoder.eomPatchPixels params width leftTopY eomPatches
        (n % (params.occupancyResolution * params.occupancyResolution)) = some patches ∧
      patches.flatten = eomPixels params.occupancyResolution
        (width / params.occupancyResolution) leftTopY eomPatches n := by
  induction eomPatches generalizing n with
  | nil => exact ⟨[], rfl, rfl⟩
  | cons eomPatch eomPatches ih =>
    have hfirst := heom eomPatch List.mem_cons_self
    obtain ⟨rest, hrest, hflatten⟩ := ih (n + eomPatch.eomCount)
      fun later h => heom later (List.mem_cons_of_mem eomPatch h)
    have hpixels := PCCEomPatch.pixels_eq hfirst.1 hres params.occupancyResolution leftTopY n
      hfirst.2
    refine ⟨eomPatch.pixelList params.occupancyResolution (width / params.occupancyResolution)
      leftTopY n :: rest, ?_, ?_⟩
    · unfold PCCEncoder.eomPatchPixels
      simp only [hpixels, hrest, Option.bind_eq_bind, Option.bind_some]
    · rw [List.flatten_cons, hflatten, eomPixels_cons]

theorem patchPixels_eq {tiles : List AuxTile} {attributes : List AuxAttributes} {ti : ℕ}
    (hin : TilesInFrame params stride frame ti tiles)
    (hfits : List.Forall₂ AuxTile.Fits tiles attributes)
    (hwide : ∀ tile ∈ tiles, Wide (frame.auxVideoWidth / params.occupancyResolution) tile) :
    ∃ patches, PCCEncoder.patchPixels params frame ti tiles = some patches ∧
      patches.flatten = (frameEntries params frame ti (tiles.zip attributes)).map Prod.fst := by
  induction hfits generalizing ti with
  | nil => exact ⟨[], rfl, rfl⟩
  | @cons tile attributes tiles rest hfirst _ ih =>
    obtain ⟨first, last, height, hplaced, -⟩ := hin.head.placed
    obtain ⟨patches, hpatches, hflatten⟩ :=
      ih hin.tail fun tile' h => hwide tile' (List.mem_cons_of_mem tile h)
    obtain ⟨eom, heom, heomFlatten⟩ := eomPatchPixels_eq
      (frame.auxTileHeight.take ti).sum 0 hplaced.resolution
      fun eomPatch h => ⟨(hplaced.eoms eomPatch h).resolution,
        hwide tile List.mem_cons_self eomPatch h⟩
    rw [Nat.zero_mod] at heom
    refine ⟨(tile.rawPointsPatches.map fun raw => raw.pixels (frame.auxTileHeight.take ti).sum) ++
      eom ++ patches, ?_, ?_⟩
    · unfold PCCEncoder.patchPixels
      simp only [hin.head.leftTop, heom, hpatches, Option.bind_eq_bind, Option.bind_some]
    · rw [List.flatten_append, List.flatten_append, hflatten, heomFlatten, List.zip_cons_cons,
        frameEntries_cons, List.map_append, hplaced.keys hfirst]
      rfl

/-- Attributes of one colour for all points of a tile. -/
def plainAttributes (color : PCCColor3B) (tile : AuxTile) : AuxAttributes where
  rawPointsAttribute := List.replicate tile.totalNumberOfRawPoints color
  eomAttribute := List.replicate tile.totalNumberOfEOMPoints color

theorem fits_plainAttributes (color : PCCColor3B) (tile : AuxTile) :
    tile.Fits (plainAttributes color tile) :=
  ⟨List.length_replicate, List.length_replicate⟩

theorem forall₂_map_right {α β : Type} {R : α → β → Prop} {f : α → β} (h : ∀ a, R a (f a))
    (xs : List α) : List.Forall₂ R xs (xs.map f) := by
  rw [List.forall₂_map_right_iff]
  exact List.forall₂_same.mpr fun a _ => h a

theorem pairwise_disjoint_patchPixels
    (hin : TilesInFrame params stride frame 0 frame.tiles)
    (hroomy : ∀ tile ∈ frame.tiles,
      Roomy params stride (frame.auxVideoWidth / params.occupancyResolution) tile.eomPatches)
    (hwide : ∀ tile ∈ frame.tiles,
      Wide (frame.auxVideoWidth / params.occupancyResolution) tile) :
    ∃ patches, PCCEncoder.patchPixels params frame 0 frame.tiles = some patches ∧
      patches.Pairwise List.Disjoint := by
  have hfits := forall₂_map_right (fits_plainAttributes ⟨0, 0, 0⟩) frame.tiles
  obtain ⟨patches, hpatches, hflatten⟩ := patchPixels_eq hin hfits hwide
  refine ⟨patches, hpatches, ?_⟩
  have hnodup := nodup_frameEntries hin hfits hroomy
  rw [← hflatten, List.nodup_flatten] at hnodup
  exact hnodup.2

theorem getElem?_eomPixels (resolution widthInBlock leftTopY n : ℕ)
    (before after : List PCCEomPatch) {eomPatch : PCCEomPatch} {k : ℕ} (hk : k < eomPatch.eomCount) :
    (eomPixels resolution widthInBlock leftTopY (before ++ eomPatch :: after) n)[
        eomCount before + k]? =
      some (eomPatch.pixel (eomPatch.u0 * resolution) (eomPatch.v0 * resolution) widthInBlock
        leftTopY k ((n + eomCount before + k) %
          (eomPatch.occupancyResolution * eomPatch.occupancyResolution))) := by
  induction before generalizing n with
  | nil =>
    have hlength : k < (eomPatch.pixelList resolution widthInBlock leftTopY n).length := by
      rw [PCCEomPatch.length_pixelList]
      exact hk
    rw [List.nil_append, eomPixels_cons, show eomCount [] + k = k from Nat.zero_add k,
      List.getElem?_append_left hlength]
    unfold PCCEomPatch.pixelList
    rw [List.getElem?_map, List.getElem?_range hk]
    rfl
  | cons first before ih =>
    have hlength : (first.pixelList resolution widthInBlock leftTopY n).length ≤
        first.eomCount + eomCount before + k := by
      rw [PCCEomPatch.length_pixelList]
      omega
    rw [List.cons_append, eomPixels_cons, eomCount_cons, List.getElem?_append_right hlength,
      PCCEomPatch.length_pixelList,
      show first.eomCount + eomCount before + k - first.eomCount = eomCount before + k by omega,
      ih]
    congr 3
    omega

/-- The points of a tile in black, but for one EOM point. -/
def markedAttributes (tile : AuxTile) (index : ℕ) : AuxAttributes where
  rawPointsAttribute := List.replicate tile.totalNumberOfRawPoints ⟨0, 0, 0⟩
  eomAttribute := (List.replicate tile.totalNumberOfEOMPoints ⟨0, 0, 0⟩).set index ⟨1, 0, 0⟩

/-- The tiles of a frame in black, but for one EOM point of one tile. -/
def markedFrame (frame : AuxFrame) (j : ℕ) (tile : AuxTile) (index : ℕ) : List AuxAttributes :=
  (frame.tiles.map (plainAttributes ⟨0, 0, 0⟩)).set j (markedAttributes tile index)

theorem forall₂_set_right {α β : Type} {R : α → β → Prop} {xs : List α} {ys : List β} {a : α}
    {b : β} (h : List.Forall₂ R xs ys) {j : ℕ} (ha : xs[j]? = some a) (hb : R a b) :
    List.Forall₂ R xs (ys.set j b) := by
  induction h generalizing j with
  | nil => simp at ha
  | cons hfirst hrest ih =>
    cases j with
    | zero =>
      obtain rfl := Option.some.inj ha
      exact List.Forall₂.cons hb hrest
    | succ j => exact List.Forall₂.cons hfirst (ih ha)

theorem fits_markedFrame (index : ℕ) {j : ℕ} {tile : AuxTile} (htile : frame.tiles[j]? = some tile) :
    List.Forall₂ AuxTile.Fits frame.tiles (markedFrame frame j tile index) := by
  apply forall₂_set_right (forall₂_map_right (fits_plainAttributes ⟨0, 0, 0⟩) frame.tiles) htile
  constructor
  · exact List.length_replicate
  · exact List.length_set.trans List.length_replicate

theorem pixel_of_mem_markedFrame {j index : ℕ} {tile : AuxTile} {pixel : ℕ × ℕ}
    (htile : frame.tiles[j]? = some tile)
    (hmem : (pixel, (⟨1, 0, 0⟩ : PCCColor3B)) ∈
      frameEntries params frame 0 (frame.tiles.zip (markedFrame frame j tile index))) :
    (eomPixels params.occupancyResolution (frame.auxVideoWidth / params.occupancyResolution)
      (frame.auxTileHeight.take j).sum tile.eomPatches 0)[index]? = some pixel := by
  have hblack : (⟨1, 0, 0⟩ : PCCColor3B) ≠ ⟨0, 0, 0⟩ := by decide
  obtain ⟨i, found, attributes, hfound, hentry⟩ := mem_frameEntries hmem
  rw [Nat.zero_add] at hentry
  obtain ⟨hi, hattributes⟩ := List.getElem?_zip_eq_some.mp hfound
  by_cases hij : i = j
  · subst hij
    obtain rfl : found = tile := by simpa [htile] using hi.symm
    have hmarked : attributes = markedAttributes found index := by
      have hlength : i < (frame.tiles.map (plainAttributes ⟨0, 0, 0⟩)).length := by
        rw [List.length_map]
        exact (List.getElem?_eq_some_iff.mp htile).1
      unfold markedFrame at hattributes
      rw [List.getElem?_set_self hlength] at hattributes
      exact (Option.some.inj hattributes).symm
    subst hmarked
    rcases List.mem_append.mp hentry with hraw | heom
    · exact absurd (List.eq_of_mem_replicate (List.of_mem_zip hraw).2) hblack
    · obtain ⟨n, hn⟩ := List.mem_iff_getElem?.mp heom
      obtain ⟨hpixel, hcolor⟩ := List.getElem?_zip_eq_some.mp hn
      by_cases hindex : n = index
      · rw [← hindex]
        exact hpixel
      · have hplain : (List.replicate found.totalNumberOfEOMPoints
            (⟨0, 0, 0⟩ : PCCColor3B))[n]? = some ⟨1, 0, 0⟩ := by
          rw [← hcolor]
          exact (List.getElem?_set_ne (Ne.symm hindex)).symm
        exact absurd (List.eq_of_mem_replicate (List.mem_of_getElem? hplain)) hblack
  · have hplain : attributes = plainAttributes ⟨0, 0, 0⟩ found := by
      unfold markedFrame at hattributes
      rw [List.getElem?_set_ne (Ne.symm hij), List.getElem?_map, hi] at hattributes
      exact (Option.some.inj hattributes).symm
    subst hplain
    rcases List.mem_append.mp hentry with hraw | heom
    · exact absurd (List.eq_of_mem_replicate (List.of_mem_zip hraw).2) hblack
    · exact absurd (List.eq_of_mem_replicate (List.of_mem_zip heom).2) hblack

/-- What the reader of a frame returns for one of its tiles. -/
theorem getElem?_generateRawPointsAttributesfromVideo {image : PCCImageAttribute}
    {tiles : List AuxTile} {attributes before : List AuxAttributes} {ti : ℕ}
    (hbefore : before.length = tiles.length)
    (h : PCCCodec.generateRawPointsAttributesfromVideo image frame ti (tiles.zip before) =
      some attributes) {j : ℕ} {tile : AuxTile} (htile : tiles[j]? = some tile) :
    ∃ old found, attributes[j]? = some found ∧
      PCCCodec.generateRawPointsAttributefromVideo image frame (ti + j) tile old =
        some found := by
  induction tiles generalizing ti before attributes j with
  | nil => simp at htile
  | cons first tiles ih =>
    cases before with
    | nil => simp at hbefore
    | cons old before =>
      obtain ⟨found, hfound, htail⟩ := Option.bind_eq_some_iff.mp h
      obtain ⟨rest, hrest, hcons⟩ := Option.bind_eq_some_iff.mp htail
      obtain rfl := Option.some.inj hcons
      cases j with
      | zero =>
        obtain rfl : first = tile := Option.some.inj htile
        exact ⟨old, found, rfl, hfound⟩
      | succ j =>
        obtain ⟨old', found', hj, hread⟩ := ih (by simpa using hbefore) hrest htile
        refine ⟨old', found', hj, ?_⟩
        rw [Nat.add_right_comm ti 1 j] at hread
        exact hread

/-- A frame that restores the marked attributes has no patch on which the scans differ. -/
theorem agrees_of_frameRestores {width height : ℕ}
    (hin : TilesInFrame params stride frame 0 frame.tiles)
    (hwidth : frame.auxVideoWidth ≤ width)
    (h : ∀ attributes before, List.Forall₂ AuxTile.Fits frame.tiles attributes →
      before.length = frame.tiles.length →
      FrameRestores params width height frame attributes before) :
    ∀ tile ∈ frame.tiles, Agrees params (frame.auxVideoWidth / params.occupancyResolution)
      (width / params.occupancyResolution) tile := by
  intro tile hmem eomPatch heom
  obtain ⟨j, htile⟩ := List.mem_iff_getElem?.mp hmem
  obtain ⟨first, last, tileHeight, hplaced, -⟩ := (hin j tile htile).placed
  have htop := (hin j tile htile).leftTop
  rw [Nat.zero_add] at htop
  by_contra hdiffer
  rw [not_or, not_le] at hdiffer
  obtain ⟨hrow, hne⟩ := hdiffer
  have hres := Nat.pos_of_ne_zero hplaced.resolution
  have hsize := Nat.mul_pos hres hres
  obtain ⟨earlier, later, hsplit⟩ := List.append_of_mem heom
  -- the first point of the second row of the writer
  have hlt : frame.auxVideoWidth / params.occupancyResolution <
      width / params.occupancyResolution :=
    lt_of_le_of_ne (Nat.div_le_div_right hwidth) hne
  have hk : frame.auxVideoWidth / params.occupancyResolution *
      (params.occupancyResolution * params.occupancyResolution) < eomPatch.eomCount := by
    have := (Nat.le_div_iff_mul_le hsize).mp (Nat.succ_le_of_lt hrow)
    rw [Nat.succ_mul] at this
    omega
  have hindex : eomCount earlier + frame.auxVideoWidth / params.occupancyResolution *
      (params.occupancyResolution * params.occupancyResolution) < tile.totalNumberOfEOMPoints := by
    rw [hplaced.totalNumberOfEOMPoints, hsplit]
    simp only [eomCount, List.map_append, List.map_cons, List.sum_append, List.sum_cons]
    omega
  generalize hk' : frame.auxVideoWidth / params.occupancyResolution *
    (params.occupancyResolution * params.occupancyResolution) = k at hk hindex
  generalize hindex' : eomCount earlier + k = index at hindex
  have hfits := fits_markedFrame index htile
  obtain ⟨image, himage, hread⟩ := h _ (frame.tiles.map (plainAttributes ⟨0, 0, 0⟩)) hfits
    (List.length_map _)
  have hwide := PCCEncoder.wide_of_generateRawPointsAttributeImages hin hfits.length_eq himage
  have hnonzero := hwide tile hmem eomPatch heom (by omega)
  rw [PCCEncoder.generateRawPointsAttributeImages_eq hin hfits hwide] at himage
  have himageWidth : image.width = width := width_of_writeAll himage
  obtain ⟨old, found, hfound, hreadTile⟩ :=
    getElem?_generateRawPointsAttributesfromVideo (List.length_map _) hread htile
  rw [Nat.zero_add, PCCCodec.generateRawPointsAttributefromVideo_eq hplaced htop
    ((hwide tile hmem).mono (by rw [himageWidth]; exact hlt.le)), himageWidth] at hreadTile
  obtain ⟨rawAttributes, -, hreadTile⟩ := Option.bind_eq_some_iff.mp hreadTile
  obtain ⟨eomAttributes, heomRead, rfl⟩ := Option.map_eq_some_iff.mp hreadTile
  have heomMarked : eomAttributes[index]? = some ⟨1, 0, 0⟩ := by
    unfold markedFrame at hfound
    rw [List.getElem?_set_self (by
      rw [List.length_map]; exact (List.getElem?_eq_some_iff.mp htile).1)] at hfound
    have := congrArg AuxAttributes.eomAttribute (Option.some.inj hfound)
    simp only [markedAttributes] at this
    rw [← this]
    exact List.getElem?_set_self (by rw [List.length_replicate]; exact hindex)
  have hreader := getElem?_eomPixels params.occupancyResolution
    (width / params.occupancyResolution) (frame.auxTileHeight.take j).sum 0 earlier later hk
  have hwriter := getElem?_eomPixels params.occupancyResolution
    (frame.auxVideoWidth / params.occupancyResolution) (frame.auxTileHeight.take j).sum 0 earlier
    later hk
  rw [← hsplit, hindex'] at hreader hwriter
  have hcolor := get_of_readAll heomRead hreader
  rw [heomMarked] at hcolor
  rcases lawful.get_eq_or_mem himage _ with hkept | ⟨color, hentry, hwritten⟩
  · rw [hcolor] at hkept
    exact absurd (getColor_resize hkept.symm) (by decide)
  · rw [hcolor] at hwritten
    obtain rfl := Option.some.inj hwritten
    rw [pixel_of_mem_markedFrame htile hentry] at hwriter
    have hy := congrArg Prod.snd (Option.some.inj hwriter)
    have hblock : k / (params.occupancyResolution * params.occupancyResolution) =
        frame.auxVideoWidth / params.occupancyResolution := by
      rw [← hk', Nat.mul_div_cancel _ hsize]
    simp only [PCCEomPatch.pixel, (hplaced.eoms eomPatch heom).resolution, hblock,
      Nat.div_eq_of_lt hlt, Nat.div_self (Nat.pos_of_ne_zero hnonzero)] at hy
    omega

end

/-- Two passes over a list restore its values when they do so one by one. -/
theorem mapM_bind_mapM_eq_some_iff {α β γ δ : Type} {f : α × β → Option γ}
    {g : γ × α × δ → Option β} {xs : List α} {ys : List β} {zs : List δ}
    (hys : ys.length = xs.length) (hzs : zs.length = xs.length) :
    (((xs.zip ys).mapM f).bind fun vs => (vs.zip (xs.zip zs)).mapM g) = some ys ↔
      ∀ (i : ℕ) (x : α) (y : β) (z : δ), xs[i]? = some x → ys[i]? = some y → zs[i]? = some z →
        ∃ v, f (x, y) = some v ∧ g (v, x, z) = some y := by
  induction xs generalizing ys zs with
  | nil =>
    obtain rfl := List.length_eq_zero_iff.mp hys
    simp
  | cons x xs ih =>
    obtain ⟨y, ys, rfl⟩ := List.exists_cons_of_length_eq_add_one hys
    obtain ⟨z, zs, rfl⟩ := List.exists_cons_of_length_eq_add_one hzs
    have hrest := @ih ys zs (by simpa using hys) (by simpa using hzs)
    have hstep : ((((x, y) :: xs.zip ys).mapM f).bind fun vs =>
        (vs.zip ((x, z) :: xs.zip zs)).mapM g) = some (y :: ys) ↔
        (∃ v, f (x, y) = some v ∧ g (v, x, z) = some y) ∧
          (((xs.zip ys).mapM f).bind fun vs => (vs.zip (xs.zip zs)).mapM g) = some ys := by
      simp only [List.mapM_cons, Option.bind_eq_bind, Option.pure_def, Option.bind_eq_some_iff]
      constructor
      · rintro ⟨vs, ⟨v, hv, vs', hvs', hcons⟩, hread⟩
        obtain rfl := Option.some.inj hcons
        rw [List.zip_cons_cons, List.mapM_cons] at hread
        obtain ⟨y', hy', hread⟩ := Option.bind_eq_some_iff.mp hread
        obtain ⟨ys', hys', hread⟩ := Option.bind_eq_some_iff.mp hread
        obtain ⟨rfl, rfl⟩ := List.cons.inj (Option.some.inj hread)
        exact ⟨⟨v, hv, hy'⟩, vs', hvs', hys'⟩
      · rintro ⟨⟨v, hv, hy⟩, vs, hvs, hread⟩
        refine ⟨v :: vs, ⟨v, hv, vs, hvs, rfl⟩, ?_⟩
        rw [List.zip_cons_cons, List.mapM_cons, hy, hread]
        rfl
    rw [List.zip_cons_cons, List.zip_cons_cons, hstep, hrest]
    constructor
    · rintro ⟨hhead, htail⟩ i x' y' z' hx hy hz
      cases i with
      | zero =>
        obtain rfl := Option.some.inj hx
        obtain rfl := Option.some.inj hy
        obtain rfl := Option.some.inj hz
        exact hhead
      | succ i => exact htail i x' y' z' hx hy hz
    · intro h
      exact ⟨h 0 x y z rfl rfl rfl, fun i => h (i + 1)⟩

namespace PCCEncoder

theorem le_foldl_max (f : AuxFrame → ℕ) (context : List AuxFrame) (init : ℕ) :
    init ≤ context.foldl (fun most frame => max most (f frame)) init ∧
      ∀ frame ∈ context, f frame ≤ context.foldl (fun most frame => max most (f frame)) init := by
  induction context generalizing init with
  | nil => simp
  | cons first context ih =>
    obtain ⟨hinit, hall⟩ := ih (max init (f first))
    rw [List.foldl_cons]
    refine ⟨(Nat.le_max_left _ _).trans hinit, ?_⟩
    intro frame hframe
    rcases List.mem_cons.mp hframe with rfl | hframe
    · exact (Nat.le_max_right _ _).trans hinit
    · exact hall frame hframe

theorem auxVideoWidth_le_auxWidthMax {context : List AuxFrame} {frame : AuxFrame}
    (h : frame ∈ context) : frame.auxVideoWidth ≤ auxWidthMax context :=
  (le_foldl_max AuxFrame.auxVideoWidth context 0).2 frame h

theorem auxVideoHeight_le_auxHeightMax {context : List AuxFrame} {frame : AuxFrame}
    (h : frame ∈ context) : frame.auxVideoHeight ≤ auxHeightMax context :=
  (le_foldl_max AuxFrame.auxVideoHeight context 0).2 frame h

end PCCEncoder

theorem AuxiliaryPlaced.tilesInFrame {fuel : ℕ} {params : PackingParams}
    {first : AuxFrame} {context : List AuxFrame}
    (h : AuxiliaryPlaced fuel params (first :: context)) {frame : AuxFrame}
    (hframe : frame ∈ first :: context) :
    TilesInFrame params (first.auxVideoWidth / params.occupancyResolution) frame 0
      frame.tiles := by
  intro j tile htile
  rw [Nat.zero_add]
  exact (h.frames first rfl frame hframe).tileInFrame (h.sizeT first List.mem_cons_self) htile

/-- The attributes come back where they do in each frame. -/
theorem restored_iff_frameRestores {params : PackingParams} {context : List AuxFrame}
    {attributes before : List (List AuxAttributes)} (hlength : attributes.length = context.length)
    (hlength' : before.length = context.length) :
    (PCCEncoder.generateRawPointsAttributeVideo params context attributes).bind
        (PCCCodec.generateRawPointsAttributes context before) = some attributes ↔
      ∀ (i : ℕ) (frame : AuxFrame) (as bs : List AuxAttributes), context[i]? = some frame →
        attributes[i]? = some as → before[i]? = some bs →
          FrameRestores params (PCCEncoder.auxWidthMax context) (PCCEncoder.auxHeightMax context)
            frame as bs :=
  mapM_bind_mapM_eq_some_iff hlength hlength'

theorem forall_frameRestores {params : PackingParams} {context : List AuxFrame}
    (h : AttributesRoundTrip params context) {frame : AuxFrame} (hframe : frame ∈ context)
    {attributes before : List AuxAttributes}
    (hfits : List.Forall₂ AuxTile.Fits frame.tiles attributes)
    (hbefore : before.length = frame.tiles.length) :
    FrameRestores params (PCCEncoder.auxWidthMax context) (PCCEncoder.auxHeightMax context) frame
      attributes before := by
  obtain ⟨i, hi⟩ := List.mem_iff_getElem?.mp hframe
  obtain ⟨hlt, -⟩ := List.getElem?_eq_some_iff.mp hi
  have hplain : List.Forall₂ (fun frame => List.Forall₂ AuxTile.Fits frame.tiles) context
      (context.map fun frame => frame.tiles.map (plainAttributes ⟨0, 0, 0⟩)) :=
    forall₂_map_right (fun frame => forall₂_map_right (fits_plainAttributes ⟨0, 0, 0⟩) _) context
  have hshape : List.Forall₂
      (fun (frame : AuxFrame) (before : List AuxAttributes) => before.length = frame.tiles.length)
      context (context.map fun frame => frame.tiles.map (plainAttributes ⟨0, 0, 0⟩)) := by
    apply forall₂_map_right
    intro frame
    exact List.length_map _
  have hall := forall₂_set_right hplain hi hfits
  have hall' := forall₂_set_right hshape hi hbefore
  have hframes := (restored_iff_frameRestores hall.length_eq.symm hall'.length_eq.symm).mp
    (h.restored _ _ hall hall')
  apply hframes i frame attributes before hi
  · exact List.getElem?_set_self (by rw [List.length_map]; exact hlt)
  · exact List.getElem?_set_self (by rw [List.length_map]; exact hlt)

/-- The attributes come back exactly where, in each frame, an EOM patch has no more blocks than
fit in a row of the video of that frame, or that row has as many as that of the pictures. -/
theorem attributesRoundTrip_iff {fuel : ℕ} {params : PackingParams} {context : List AuxFrame}
    (h : AuxiliaryPlaced fuel params context) :
    AttributesRoundTrip params context ↔
      ∀ frame ∈ context, ∀ tile ∈ frame.tiles, ∀ eomPatch ∈ tile.eomPatches,
        eomBlocks params eomPatch ≤ frame.auxVideoWidth / params.occupancyResolution ∨
          frame.auxVideoWidth / params.occupancyResolution =
            PCCEncoder.auxWidthMax context / params.occupancyResolution := by
  cases context with
  | nil =>
    refine ⟨fun _ => by simp, fun _ => ⟨?_, by simp⟩⟩
    intro attributes before hfits hbefore
    obtain rfl := List.forall₂_nil_left_iff.mp hfits
    obtain rfl := List.forall₂_nil_left_iff.mp hbefore
    rfl
  | cons first context =>
    have hstride : first.auxVideoWidth / params.occupancyResolution ≤
        PCCEncoder.auxWidthMax (first :: context) / params.occupancyResolution :=
      Nat.div_le_div_right (PCCEncoder.auxVideoWidth_le_auxWidthMax List.mem_cons_self)
    constructor
    · intro hround frame hframe
      exact agrees_of_frameRestores (h.tilesInFrame hframe)
        (PCCEncoder.auxVideoWidth_le_auxWidthMax hframe)
        fun _ _ hfits hbefore => forall_frameRestores hround hframe hfits hbefore
    · intro hagrees
      constructor
      · intro attributes before hfits hbefore
        rw [restored_iff_frameRestores hfits.length_eq.symm hbefore.length_eq.symm]
        intro i frame as bs hframe has hbs
        have hmem := List.mem_of_getElem? hframe
        have hzip : (frame, as) ∈ (first :: context).zip attributes :=
          List.mem_of_getElem? (List.getElem?_zip_eq_some.mpr ⟨hframe, has⟩)
        have hzip' : (frame, bs) ∈ (first :: context).zip before :=
          List.mem_of_getElem? (List.getElem?_zip_eq_some.mpr ⟨hframe, hbs⟩)
        exact frameRestores_of_agrees (h.tilesInFrame hmem) hstride
          (PCCEncoder.auxVideoWidth_le_auxWidthMax hmem)
          (PCCEncoder.auxVideoHeight_le_auxHeightMax hmem) (hagrees frame hmem)
          (List.forall₂_zip hfits hzip) (List.forall₂_zip hbefore hzip')
      · intro frame hframe
        have hin := h.tilesInFrame hframe
        apply pairwise_disjoint_patchPixels hin
        · intro tile htile
          exact Agrees.roomy (hagrees frame hframe tile htile) hstride
        · intro tile htile
          obtain ⟨j, hj⟩ := List.mem_iff_getElem?.mp htile
          obtain ⟨top, last, height, hplaced, -⟩ := (hin j tile hj).placed
          exact Agrees.wide (hagrees frame hframe tile htile) hstride hplaced

/-- Blocks of four pixels. -/
def smallBlocks : PackingParams where
  occupancyResolution := 2
  lowDelayEncoding := false
  useEightOrientations := false
  numTilesHor := 1
  tileHeightOfWidth := id
  minimumImageWidth := 8
  enhancedOccupancyMapCode := true
  useRawPointsSeparateVideo := true

/-- A tile with one raw point and some EOM points. -/
def mixedTile (numberOfEOMPoints : ℕ) : AuxTile where
  rawPointsPatches := [{ occupancyResolution := 2, numberOfRawPoints := 1 }]
  eomPatches := [{ occupancyResolution := 2, eomCount := numberOfEOMPoints }]
  totalNumberOfRawPoints := 1
  totalNumberOfEOMPoints := numberOfEOMPoints

/-- A frame of four blocks in a row and one of two. -/
def twoFrames (numberOfEOMPoints : ℕ) : List AuxFrame :=
  [8, 4].map fun width =>
    { auxVideoWidth := width, auxTileHeight := [0], auxTileLeftTopY := [0]
      tiles := [mixedTile numberOfEOMPoints] }

def placedFrames (numberOfEOMPoints : ℕ) : List AuxFrame :=
  (PCCEncoder.placeAuxiliaryPointsTiles 4 smallBlocks 0 [] (twoFrames numberOfEOMPoints)).getD []

theorem auxiliaryPlaced_placedFrames {numberOfEOMPoints : ℕ}
    (h : (PCCEncoder.placeAuxiliaryPointsTiles 4 smallBlocks 0 []
      (twoFrames numberOfEOMPoints)).isSome) :
    AuxiliaryPlaced 4 smallBlocks (placedFrames numberOfEOMPoints) := by
  have hplace : PCCEncoder.placeAuxiliaryPointsTiles 4 smallBlocks 0 []
      (twoFrames numberOfEOMPoints) = some (placedFrames numberOfEOMPoints) := by
    obtain ⟨placed, hplaced⟩ := Option.isSome_iff_exists.mp h
    unfold placedFrames
    rw [hplaced, Option.getD_some]
  have hframe : ∀ frame ∈ twoFrames numberOfEOMPoints,
      frame.tiles = [mixedTile numberOfEOMPoints] ∧ frame.auxVideoWidth < 2 ^ 64 := by
    simp [twoFrames]
  apply PCCEncoder.placeAuxiliaryPointsTiles_placed hplace
  · intro frame hin tile htile
    rw [(hframe frame hin).1, List.mem_singleton] at htile
    subst htile
    constructor <;> simp [mixedTile, smallBlocks, rawCount, eomCount]
  · intro frame hin
    exact (hframe frame hin).2
  · intro i frame hi
    refine ⟨(0, 2), List.mem_singleton.mpr rfl, Nat.zero_le i, ?_, ?_⟩
    · exact (List.getElem?_eq_some_iff.mp hi).1
    · intro numTiles hnumTiles
      obtain rfl : 1 = numTiles := Option.some.inj hnumTiles
      rw [(hframe frame (List.mem_of_getElem? hi)).1]
      exact Nat.le_refl _

/-- Eight EOM points fill the two blocks of the second frame. -/
theorem attributesRoundTrip_placedFrames :
    AttributesRoundTrip smallBlocks (placedFrames 8) :=
  (attributesRoundTrip_iff (auxiliaryPlaced_placedFrames (by decide +kernel))).mpr
    (by decide +kernel)

/-- A ninth one is written below them and looked for to their right. -/
theorem not_attributesRoundTrip_placedFrames :
    AuxiliaryPlaced 4 smallBlocks (placedFrames 9) ∧
      ¬AttributesRoundTrip smallBlocks (placedFrames 9) := by
  refine ⟨auxiliaryPlaced_placedFrames (by decide +kernel), ?_⟩
  intro h
  have hfits := forall₂_map_right (fun frame : AuxFrame =>
    forall₂_map_right (fits_plainAttributes ⟨255, 255, 255⟩) frame.tiles) (placedFrames 9)
  have hshape : List.Forall₂
      (fun (frame : AuxFrame) (before : List AuxAttributes) => before.length = frame.tiles.length)
      (placedFrames 9)
      ((placedFrames 9).map fun frame => frame.tiles.map (plainAttributes ⟨255, 255, 255⟩)) := by
    apply forall₂_map_right
    intro frame
    exact List.length_map _
  exact absurd (h.restored _ _ hfits hshape) (by decide +kernel)

end V3C

import V3C.Packing.AuxiliaryPlacement

/-! The tiles of a frame in the auxiliary video. -/
namespace V3C

/-- The patches of a tile have the resolution of the encoder, and the numbers of points add up. -/
structure AuxTile.Valid (params : PackingParams) (tile : AuxTile) : Prop where
  rawResolution : ∀ raw ∈ tile.rawPointsPatches,
    raw.occupancyResolution = params.occupancyResolution
  eomResolution : ∀ eomPatch ∈ tile.eomPatches,
    eomPatch.occupancyResolution = params.occupancyResolution
  totalNumberOfRawPoints : tile.totalNumberOfRawPoints = rawCount tile.rawPointsPatches
  totalNumberOfEOMPoints : tile.totalNumberOfEOMPoints = eomCount tile.eomPatches

/-- The tiles of a frame are placed, on canvases of one width, one below the other. -/
structure AuxFrame.Placed (fuel : ℕ) (params : PackingParams) (maxWidth : ℕ) (frame : AuxFrame) :
    Prop where
  tiles : ∀ (ti : ℕ) (tile : AuxTile), frame.tiles[ti]? = some tile →
    ∃ before auxPointsTileHeight auxTileHeight,
    before.Valid params ∧
      PCCEncoder.placeAuxiliaryTile fuel params maxWidth before =
        some (tile, auxPointsTileHeight) ∧
      frame.auxTileHeight[ti]? = some auxTileHeight ∧ auxPointsTileHeight ≤ auxTileHeight
  leftTops : ∀ ti < frame.tiles.length,
    frame.auxTileLeftTopY[ti]? = some (frame.auxTileHeight.take ti).sum

/-- Frames whose patches are placed on canvases as wide as the video of the first one. -/
structure AuxiliaryPlaced (fuel : ℕ) (params : PackingParams) (context : List AuxFrame) :
    Prop where
  frames : ∀ first ∈ context.head?, ∀ frame ∈ context,
    frame.Placed fuel params first.auxVideoWidth
  sizeT : ∀ frame ∈ context, frame.auxVideoWidth < 2 ^ 64

/-- A tile in columns of blocks and a number of rows of pixels, its raw patches above its EOM
patches. -/
structure TilePlaced (params : PackingParams) (stride first last height : ℕ) (tile : AuxTile) :
    Prop where
  resolution : params.occupancyResolution ≠ 0
  raws : ∀ raw ∈ tile.rawPointsPatches,
    RawPlaced params stride (first * params.occupancyResolution) raw
  clear : tile.rawPointsPatches.Pairwise fun earlier later =>
    PackingPatch.Clear params.lowDelayEncoding earlier.asPatch later.asPatch
  eoms : ∀ eomPatch ∈ tile.eomPatches, EomPlaced params stride first last eomPatch
  rows : tile.eomPatches.Pairwise fun earlier later => earlier.v0 + earlier.sizeV ≤ later.v0
  first_le : first ≤ last
  last_le : last * params.occupancyResolution ≤ height
  totalNumberOfRawPoints : tile.totalNumberOfRawPoints = rawCount tile.rawPointsPatches
  totalNumberOfEOMPoints : tile.totalNumberOfEOMPoints = eomCount tile.eomPatches

namespace PCCEncoder

theorem placeAuxiliaryTile_spec {fuel : ℕ} {params : PackingParams} {maxWidth height : ℕ}
    {before tile : AuxTile} (hwidth : maxWidth < 2 ^ 64) (hvalid : before.Valid params)
    (h : placeAuxiliaryTile fuel params maxWidth before = some (tile, height)) :
    ∃ first last,
      TilePlaced params (maxWidth / params.occupancyResolution) first last height tile := by
  unfold placeAuxiliaryTile at h
  split_ifs at h with hres
  obtain ⟨⟨raws, rawHeight⟩, hraws, h⟩ := Option.bind_eq_some_iff.mp h
  obtain ⟨⟨eoms, eomHeight⟩, heoms, h⟩ := Option.bind_eq_some_iff.mp h
  obtain ⟨rfl, rfl⟩ := Prod.mk.inj (Option.some.inj h)
  have hstride : maxWidth / params.occupancyResolution < 2 ^ 64 :=
    (Nat.div_le_self _ _).trans_lt hwidth
  obtain ⟨hplaced, -, hdvd, hnumber, -, hclear⟩ :=
    packRawPointsPatch_spec hraws hvalid.rawResolution hstride
  obtain ⟨first, hfirst⟩ := hdvd (Nat.dvd_zero _)
  rw [Nat.mul_comm] at hfirst
  subst hfirst
  obtain ⟨last, rfl, hle, heomPlaced, hcount, hrows⟩ :=
    packEOMAttributePointsPatch_spec hres hvalid.eomResolution heoms
  refine ⟨first, last, hres, hplaced, hclear, heomPlaced, hrows, hle, ?_, ?_, ?_⟩
  · omega
  · rw [hvalid.totalNumberOfRawPoints, ← hnumber]
  · rw [hvalid.totalNumberOfEOMPoints, ← hcount]

end PCCEncoder

/-- The pixels of a tile, with a number of blocks in a row. -/
def tilePixels (params : PackingParams) (widthInBlock leftTopY : ℕ) (tile : AuxTile) :
    List (ℕ × ℕ) :=
  rawPixels leftTopY tile.rawPointsPatches ++
    eomPixels params.occupancyResolution widthInBlock leftTopY tile.eomPatches 0

/-- The EOM patches of a tile have room in the rows that they got. -/
def Roomy (params : PackingParams) (stride widthInBlock : ℕ) (eomPatches : List PCCEomPatch) :
    Prop :=
  ∀ eomPatch ∈ eomPatches, eomBlocks params eomPatch ≤ widthInBlock ∨ stride ≤ widthInBlock

section

variable {params : PackingParams} {stride first last height widthInBlock leftTopY : ℕ}

theorem mem_eomPixels {eomPatches : List PCCEomPatch} {resolution n : ℕ} {pixel : ℕ × ℕ}
    (h : pixel ∈ eomPixels resolution widthInBlock leftTopY eomPatches n) :
    ∃ eomPatch ∈ eomPatches, ∃ m,
      pixel ∈ eomPatch.pixelList resolution widthInBlock leftTopY m := by
  induction eomPatches generalizing n with
  | nil => cases h
  | cons eomPatch eomPatches ih =>
    rw [eomPixels_cons, List.mem_append] at h
    rcases h with h | h
    · exact ⟨eomPatch, List.mem_cons_self, n, h⟩
    · obtain ⟨found, hfound, m, hm⟩ := ih h
      exact ⟨found, List.mem_cons_of_mem eomPatch hfound, m, hm⟩

theorem nodup_eomPixels {eomPatches : List PCCEomPatch} (hpos : params.occupancyResolution ≠ 0)
    (hplaced : ∀ eomPatch ∈ eomPatches, EomPlaced params stride first last eomPatch)
    (hrows : eomPatches.Pairwise fun earlier later => earlier.v0 + earlier.sizeV ≤ later.v0)
    (hroomy : Roomy params stride widthInBlock eomPatches) (n : ℕ) :
    (eomPixels params.occupancyResolution widthInBlock leftTopY eomPatches n).Nodup := by
  induction eomPatches generalizing n with
  | nil => exact List.nodup_nil
  | cons eomPatch eomPatches ih =>
    rw [List.pairwise_cons] at hrows
    have hfirst := hplaced eomPatch List.mem_cons_self
    rw [eomPixels_cons, List.nodup_append']
    refine ⟨hfirst.nodup hpos _ _ _, ?_, ?_⟩
    · exact ih (fun later h => hplaced later (List.mem_cons_of_mem eomPatch h)) hrows.2
        (fun later h => hroomy later (List.mem_cons_of_mem eomPatch h)) _
    · rintro ⟨x, y⟩ hmem hmem'
      obtain ⟨later, hlater, m, hm⟩ := mem_eomPixels hmem'
      have habove := (hfirst.bounds hpos (hroomy eomPatch List.mem_cons_self) hmem).2.2
      have hbelow := ((hplaced later (List.mem_cons_of_mem eomPatch hlater)).bounds hpos
        (hroomy later (List.mem_cons_of_mem eomPatch hlater)) hm).2.1
      have hle := Nat.mul_le_mul_right params.occupancyResolution (hrows.1 later hlater)
      omega

namespace TilePlaced

variable {tile : AuxTile}

/-- The rows of pixels of the EOM patches. -/
theorem bounds_eom (h : TilePlaced params stride first last height tile)
    (hroomy : Roomy params stride widthInBlock tile.eomPatches) {n x y : ℕ}
    (hmem : (x, y) ∈ eomPixels params.occupancyResolution widthInBlock leftTopY tile.eomPatches
      n) :
    x < widthInBlock * params.occupancyResolution ∧
      leftTopY + first * params.occupancyResolution ≤ y ∧ y < leftTopY + height := by
  obtain ⟨eomPatch, hin, m, hm⟩ := mem_eomPixels hmem
  have hplaced := h.eoms eomPatch hin
  have hbounds := hplaced.bounds h.resolution (hroomy eomPatch hin) hm
  have habove := Nat.mul_le_mul_right params.occupancyResolution hplaced.above
  have hbelow := Nat.mul_le_mul_right params.occupancyResolution hplaced.below
  have hlast := h.last_le
  omega

theorem bounds_raw (h : TilePlaced params stride first last height tile) {x y : ℕ}
    (hmem : (x, y) ∈ rawPixels leftTopY tile.rawPointsPatches) :
    x < stride * params.occupancyResolution ∧ leftTopY ≤ y ∧
      y < leftTopY + first * params.occupancyResolution := by
  obtain ⟨raw, hraw, hpixel⟩ := List.mem_flatMap.mp hmem
  exact (h.raws raw hraw).bounds hpixel

theorem bounds (h : TilePlaced params stride first last height tile)
    (hroomy : Roomy params stride widthInBlock tile.eomPatches) {x y : ℕ}
    (hmem : (x, y) ∈ tilePixels params widthInBlock leftTopY tile) :
    x < max stride widthInBlock * params.occupancyResolution ∧ leftTopY ≤ y ∧
      y < leftTopY + height := by
  have hstride := Nat.mul_le_mul_right params.occupancyResolution
    (Nat.le_max_left stride widthInBlock)
  have hwidth := Nat.mul_le_mul_right params.occupancyResolution
    (Nat.le_max_right stride widthInBlock)
  rcases List.mem_append.mp hmem with hraw | heom
  · have hbounds := h.bounds_raw hraw
    have hfirst := Nat.mul_le_mul_right params.occupancyResolution h.first_le
    have hlast := h.last_le
    omega
  · have hbounds := h.bounds_eom hroomy heom
    omega

theorem nodup (h : TilePlaced params stride first last height tile)
    (hroomy : Roomy params stride widthInBlock tile.eomPatches) (leftTopY : ℕ) :
    (tilePixels params widthInBlock leftTopY tile).Nodup := by
  unfold tilePixels
  rw [List.nodup_append']
  refine ⟨?_, ?_, ?_⟩
  · exact nodup_rawPixels (fun raw hraw => (h.raws raw hraw).toRawSized) h.clear leftTopY
  · exact nodup_eomPixels h.resolution h.eoms h.rows hroomy 0
  · rintro ⟨x, y⟩ hraw heom
    have habove := (h.bounds_raw hraw).2.2
    have hbelow := (h.bounds_eom hroomy heom).2.1
    omega

end TilePlaced

end

end V3C

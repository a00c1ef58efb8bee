import Mathlib.Data.List.Pairwise
import V3C.Reconstruction.GeometryPixels
import V3C.Segmenter.NearMap
import V3C.Store.Rows

/-! The maps and the pictures of the encoder: what they hold at each place of the frame. -/
namespace V3C
open Cells Codec

/-- A tile in its frame, made of blocks of the frame. -/
structure GeometryTile.Placed (resolution : ℕ) (frame : GeometryFrame) (tile : GeometryTile) :
    Prop where
  alignedX : resolution ∣ tile.leftTopX
  alignedY : resolution ∣ tile.leftTopY
  wholeX : resolution ∣ tile.width
  wholeY : resolution ∣ tile.height
  right : tile.leftTopX + tile.width ≤ frame.width
  bottom : tile.leftTopY + tile.height ≤ frame.height
  coded : tile.Coded resolution

/-- The tiles have no place in common. -/
def GeometryTile.Apart (tile other : GeometryTile) : Prop :=
  tile.leftTopX + tile.width ≤ other.leftTopX ∨ other.leftTopX + other.width ≤ tile.leftTopX ∨
    tile.leftTopY + tile.height ≤ other.leftTopY ∨ other.leftTopY + other.height ≤ tile.leftTopY

/-- A frame whose tiles lie side by side and hold their patches, with settings that fit. -/
structure CodedGeometry extends GeometryFrame where
  params : GeometryParameters
  precision : 0 < params.occupancyPrecision
  divides : params.occupancyPrecision ∣ params.occupancyResolution
  resolution : 0 < params.occupancyResolution
  offset : params.offsetLossyOM < 256
  placed : ∀ tile ∈ tiles, tile.Placed params.occupancyResolution toGeometryFrame
  apart : tiles.Pairwise GeometryTile.Apart

theorem PCCImageGeometry.size_setValue {image image' : PCCImageGeometry} {place : ℕ × ℕ}
    {value : UInt16} (h : image.setValue place value = some image') :
    image'.width = image.width ∧ image'.height = image.height := by
  unfold setValue at h
  split_ifs at h
  obtain rfl := Option.some.inj h
  exact ⟨rfl, rfl⟩

theorem PCCImageOccupancyMap.size_setValue {image image' : PCCImageOccupancyMap} {place : ℕ × ℕ}
    {value : UInt8} (h : image.setValue place value = some image') :
    image'.width = image.width ∧ image'.height = image.height := by
  unfold setValue at h
  split_ifs at h
  obtain rfl := Option.some.inj h
  exact ⟨rfl, rfl⟩

section Tile

variable {tile : GeometryTile} {resolution : ℕ}

/-- The place of the tile has a pixel with a depth. -/
def GeometryTile.DrawnAt (resolution : ℕ) (tile : GeometryTile) (x y : ℕ) : Prop :=
  ∃ pixel, Drawn tile resolution pixel ∧ pixel.x = x ∧ pixel.y = y

theorem exists_generateTileOccupancyMap (hresolution : 0 < resolution)
    (h : tile.Coded resolution) :
    ∃ tileMap, PCCEncoder.generateTileOccupancyMap tile = some tileMap ∧
      ∀ x < tile.width, ∀ y < tile.height, ∃ occupancy,
        tileMap[y * tile.width + x]? = some occupancy ∧
          (occupancy ≠ 0 ↔ tile.DrawnAt resolution x y) := by
  have hin : ∀ pixel ∈ drawnPixels tile, pixel.x < tile.width ∧ pixel.y < tile.height :=
    fun pixel hpixel => (((mem_drawnPixels hresolution h).mp hpixel).spec hresolution h).1
  have hlt : ∀ {x y : ℕ}, x < tile.width → y < tile.height →
      x + tile.width * y < (List.replicate (tile.width * tile.height) 0).length := by
    intro x y hx hy
    rw [List.length_replicate, Nat.add_comm, Nat.mul_comm tile.width y]
    exact pixel_lt hx hy
  have hkeys : ((drawnPixels tile).map fun pixel => pixel.x + tile.width * pixel.y).Nodup := by
    have hplaces := (nodup_drawnPixels hresolution h)
    refine (hplaces.of_map _).map_on fun pixel hpixel pixel' hpixel' hsame => ?_
    rw [Nat.add_comm, Nat.mul_comm, Nat.add_comm pixel'.x, Nat.mul_comm _ pixel'.y] at hsame
    have hplace := pixel_inj (hin pixel hpixel).1 (hin pixel' hpixel').1 hsame
    exact List.inj_on_of_nodup_map hplaces hpixel hpixel' hplace
  have hwrite : ∃ tileMap, writeAll setAt
      ((drawnPixels tile).map fun pixel => (pixel.x + tile.width * pixel.y, 1))
      (List.replicate (tile.width * tile.height) 0) = some tileMap := by
    apply lawful_setAt.exists_writeAll
    intro entry hentry
    obtain ⟨pixel, hpixel, rfl⟩ := List.mem_map.mp hentry
    rw [List.getElem?_eq_getElem (hlt (hin pixel hpixel).1 (hin pixel hpixel).2)]
    rfl
  obtain ⟨tileMap, htileMap⟩ := hwrite
  refine ⟨tileMap, ?_, fun x hx y hy => ?_⟩
  · unfold PCCEncoder.generateTileOccupancyMap
    rw [h.depthPixels_eq hresolution 0, Option.bind_eq_bind, Option.bind_some, List.map_map]
    exact htileMap
  · rw [Nat.add_comm, Nat.mul_comm]
    by_cases hdrawn : tile.DrawnAt resolution x y
    · obtain ⟨pixel, hpixel, rfl, rfl⟩ := id hdrawn
      have hmem := List.mem_map_of_mem (f := fun pixel : PatchPixel =>
        (pixel.x + tile.width * pixel.y, 1)) ((mem_drawnPixels hresolution h).mpr hpixel)
      have hget := lawful_setAt.get_of_mem htileMap (by
        rw [List.map_map]
        exact hkeys) hmem
      exact ⟨1, hget, iff_of_true Nat.one_ne_zero hdrawn⟩
    · refine ⟨0, ?_, iff_of_false (not_not.mpr rfl) hdrawn⟩
      rw [lawful_setAt.get_of_not_mem htileMap, List.getElem?_eq_getElem (hlt hx hy),
        List.getElem_replicate]
      intro hmem
      rw [List.map_map] at hmem
      obtain ⟨pixel, hpixel, hsame⟩ := List.mem_map.mp hmem
      dsimp only [Function.comp] at hsame
      rw [Nat.add_comm, Nat.mul_comm, Nat.add_comm x, Nat.mul_comm _ y] at hsame
      obtain ⟨hsameX, hsameY⟩ := Prod.mk.inj (pixel_inj (hin pixel hpixel).1 hx hsame)
      exact hdrawn ⟨pixel, (mem_drawnPixels hresolution h).mp hpixel, hsameX, hsameY⟩

/-- The depths of a tile are in the picture at their places, and the other places are as before. -/
theorem exists_addTileDepths (hresolution : 0 < resolution) (h : tile.Coded resolution)
    (mapIndex : Fin 2) {image : PCCImageGeometry} (hright : tile.leftTopX + tile.width ≤ image.width)
    (hbottom : tile.leftTopY + tile.height ≤ image.height) :
    ∃ image', PCCEncoder.addTileDepths mapIndex image tile = some image' ∧
      (image'.width = image.width ∧ image'.height = image.height) ∧
      (∀ pixel, Drawn tile resolution pixel →
        image'.getValue (pixel.x + tile.leftTopX, pixel.y + tile.leftTopY) =
          some (toUInt16 (depthOf tile mapIndex pixel)).toUInt16) ∧
      ∀ place, (∀ pixel, Drawn tile resolution pixel →
          place ≠ (pixel.x + tile.leftTopX, pixel.y + tile.leftTopY)) →
        image'.getValue place = image.getValue place := by
  have hspec := fun (pixel : PatchPixel) (hpixel : pixel ∈ drawnPixels tile) =>
    Drawn.spec hresolution h ((mem_drawnPixels hresolution h).mp hpixel)
  have hkeys : ((drawnPixels tile).map fun pixel =>
      (pixel.x + tile.leftTopX, pixel.y + tile.leftTopY)).Nodup := by
    have hplaces := nodup_drawnPixels hresolution h
    refine (hplaces.of_map _).map_on fun pixel hpixel pixel' hpixel' hsame => ?_
    obtain ⟨hx, hy⟩ := Prod.mk.inj hsame
    exact List.inj_on_of_nodup_map hplaces hpixel hpixel'
      (Prod.ext (Nat.add_right_cancel hx) (Nat.add_right_cancel hy))
  have hwrite : ∃ image', writeAll PCCImageGeometry.setValue ((drawnPixels tile).map fun pixel =>
      ((pixel.x + tile.leftTopX, pixel.y + tile.leftTopY),
        (toUInt16 (depthOf tile mapIndex pixel)).toUInt16)) image = some image' := by
    apply PCCImageGeometry.lawful.exists_writeAll
    intro entry hentry
    obtain ⟨pixel, hpixel, rfl⟩ := List.mem_map.mp hentry
    obtain ⟨⟨hx, hy⟩, -⟩ := hspec pixel hpixel
    rw [PCCImageGeometry.getValue_eq (by dsimp only; omega)]
    rfl
  obtain ⟨image', himage'⟩ := hwrite
  refine ⟨image', ?_, ?_, ?_, ?_⟩
  · unfold PCCEncoder.addTileDepths
    rw [h.depthPixels_eq hresolution mapIndex, Option.bind_eq_bind, Option.bind_some, List.map_map,
      List.map_map]
    have hmax : ((drawnPixels tile).map fun pixel =>
        toSizeT (depthOf tile mapIndex pixel)).foldl max 0 < 2 ^ tile.geometry2dBitdepth := by
      apply foldl_max_lt (Nat.two_pow_pos _)
      intro size hsize
      obtain ⟨pixel, hpixel, rfl⟩ := List.mem_map.mp hsize
      obtain ⟨-, -, patch, -, hcoded, -, hdepths⟩ := hspec pixel hpixel
      obtain ⟨-, hlow, hhigh⟩ := hdepths mapIndex
      have hbits := hcoded.normal
      have hcast : ((2 ^ tile.geometry2dBitdepth : ℕ) : ℤ) = 2 ^ tile.geometry2dBitdepth := by
        push_cast
        rfl
      rw [toSizeT_of_lt hlow (by omega)]
      omega
    dsimp only [Function.comp_def]
    rw [himage', Option.bind_eq_bind, Option.bind_some]
    exact if_neg (not_le.mpr hmax)
  · exact inv_of_writeAll (P := fun after => after.width = image.width ∧
      after.height = image.height) himage' (fun before place value after hbefore hput => by
        obtain ⟨hwidth, hheight⟩ := PCCImageGeometry.size_setValue hput
        exact ⟨hwidth.trans hbefore.1, hheight.trans hbefore.2⟩) ⟨rfl, rfl⟩
  · intro pixel hpixel
    exact PCCImageGeometry.lawful.get_of_mem himage' (by
      rw [List.map_map]
      exact hkeys) (List.mem_map_of_mem ((mem_drawnPixels hresolution h).mpr hpixel))
  · intro place hplace
    apply PCCImageGeometry.lawful.get_of_not_mem himage'
    intro hmem
    rw [List.map_map] at hmem
    obtain ⟨pixel, hpixel, rfl⟩ := List.mem_map.mp hmem
    exact hplace pixel ((mem_drawnPixels hresolution h).mp hpixel) rfl

/-- The copy of a tile map has its values in the rectangle of the tile, and the other places are
as before. -/
theorem exists_copyPixels {frame : GeometryFrame} {tileMap occupancyMap : List ℕ}
    (htile : ∀ x < tile.width, ∀ y < tile.height, ∃ occupancy,
      tileMap[y * tile.width + x]? = some occupancy)
    (hright : tile.leftTopX + tile.width ≤ frame.width)
    (hbottom : tile.leftTopY + tile.height ≤ frame.height)
    (hlength : occupancyMap.length = frame.width * frame.height) :
    ∃ occupancyMap', (grid tile.width tile.height).foldlM
        (PCCEncoder.copyPixel frame tile tileMap) occupancyMap = some occupancyMap' ∧
      occupancyMap'.length = occupancyMap.length ∧
      (∀ x < tile.width, ∀ y < tile.height,
        occupancyMap'[(y + tile.leftTopY) * frame.width + (x + tile.leftTopX)]? =
          tileMap[y * tile.width + x]?) ∧
      ∀ X < frame.width, ∀ Y < frame.height,
        (∀ x < tile.width, ∀ y < tile.height, (X, Y) ≠ (x + tile.leftTopX, y + tile.leftTopY)) →
        occupancyMap'[Y * frame.width + X]? = occupancyMap[Y * frame.width + X]? := by
  have hin : ∀ pixel ∈ grid tile.width tile.height,
      pixel.1 + tile.leftTopX < frame.width ∧ pixel.2 + tile.leftTopY < frame.height := by
    intro pixel hpixel
    obtain ⟨hx, hy⟩ := mem_grid.mp hpixel
    omega
  have hvalue : ∀ pixel ∈ grid tile.width tile.height, ∃ occupancy,
      tileMap[pixel.2 * tile.width + pixel.1]? = some occupancy := fun pixel hpixel =>
    htile _ (mem_grid.mp hpixel).1 _ (mem_grid.mp hpixel).2
  have hplace : ∀ pixel ∈ grid tile.width tile.height,
      (pixel.2 + tile.leftTopY) * frame.width + (pixel.1 + tile.leftTopX) <
        occupancyMap.length := by
    intro pixel hpixel
    rw [hlength]
    exact pixel_lt (hin pixel hpixel).1 (hin pixel hpixel).2
  obtain ⟨occupancyMap', hrun⟩ := Rows.exists_store hvalue hplace
  have hstored := Rows.stored_of_store hrun (by
    intro pixel hpixel pixel' hpixel' hsame
    obtain ⟨hx, hy⟩ := Prod.mk.inj (pixel_inj (hin pixel hpixel).1 (hin pixel' hpixel').1 hsame)
    rw [Nat.add_right_cancel hx, Nat.add_right_cancel hy])
  refine ⟨occupancyMap', hrun, hstored.length_eq, fun x hx y hy => ?_, fun X hX Y hY hout => ?_⟩
  · exact hstored.at_place (x, y) (mem_grid.mpr ⟨hx, hy⟩)
  · apply hstored.elsewhere
    intro pixel hpixel hsame
    obtain ⟨hx, hy⟩ := mem_grid.mp hpixel
    exact hout pixel.1 hx pixel.2 hy (pixel_inj (hin pixel hpixel).1 hX hsame).symm

instance : Std.Symm GeometryTile.Apart where
  symm tile other h := by
    unfold GeometryTile.Apart at h ⊢
    omega

/-- Tiles that lie apart have no place in common. -/
theorem GeometryTile.Apart.place_ne {other : GeometryTile} (h : tile.Apart other)
    {x y x' y' : ℕ} (hx : x < tile.width) (hy : y < tile.height) (hx' : x' < other.width)
    (hy' : y' < other.height) :
    (x + tile.leftTopX, y + tile.leftTopY) ≠ (x' + other.leftTopX, y' + other.leftTopY) := by
  intro hsame
  obtain ⟨hsameX, hsameY⟩ := Prod.mk.inj hsame
  unfold GeometryTile.Apart at h
  omega

end Tile

namespace CodedGeometry

variable (frame : CodedGeometry)

/-- The place of the frame has a pixel with a depth, of one of the tiles. -/
def DrawnIn (tiles : List GeometryTile) (X Y : ℕ) : Prop :=
  ∃ tile ∈ tiles, ∃ x y, tile.DrawnAt frame.params.occupancyResolution x y ∧
    X = x + tile.leftTopX ∧ Y = y + tile.leftTopY

/-- The map is not zero exactly at the places of the pixels of some tiles. -/
def Maps (tiles : List GeometryTile) (occupancyMap : List ℕ) : Prop :=
  ∀ X < frame.width, ∀ Y < frame.height, ∃ occupancy,
    occupancyMap[Y * frame.width + X]? = some occupancy ∧
      (occupancy ≠ 0 ↔ frame.DrawnIn tiles X Y)

theorem drawnAt_lt {tile : GeometryTile} (htile : tile ∈ frame.tiles) {x y : ℕ}
    (h : tile.DrawnAt frame.params.occupancyResolution x y) :
    x < tile.width ∧ y < tile.height := by
  obtain ⟨pixel, hpixel, rfl, rfl⟩ := h
  exact (hpixel.spec frame.resolution (frame.placed tile htile).coded).1

/-- A tile lies apart from those before it. -/
theorem apart_of_prefix {visited : List GeometryTile} {tile : GeometryTile}
    (h : visited ++ [tile] <+: frame.tiles) :
    tile ∈ frame.tiles ∧ (∀ earlier ∈ visited, earlier ∈ frame.tiles) ∧
      ∀ earlier ∈ visited, earlier.Apart tile := by
  refine ⟨h.subset (by simp), fun earlier hearlier => h.subset (by simp [hearlier]), ?_⟩
  intro earlier hearlier
  exact (List.pairwise_append.mp (frame.apart.sublist h.sublist)).2.2 earlier hearlier tile
    (List.mem_singleton_self tile)

/-- A tile adds its map to that of the earlier tiles. -/
theorem exists_copyTile {visited : List GeometryTile} {tile : GeometryTile}
    {occupancyMap : List ℕ} (hvisited : visited ++ [tile] <+: frame.tiles)
    (hlength : occupancyMap.length = frame.width * frame.height)
    (hmap : frame.Maps visited occupancyMap) :
    ∃ tileMap occupancyMap', PCCEncoder.generateTileOccupancyMap tile = some tileMap ∧
      (grid tile.width tile.height).foldlM
        (PCCEncoder.copyPixel frame.toGeometryFrame tile tileMap) occupancyMap =
          some occupancyMap' ∧
      occupancyMap'.length = frame.width * frame.height ∧
      frame.Maps (visited ++ [tile]) occupancyMap' := by
  obtain ⟨htile, hmem, hapart⟩ := frame.apart_of_prefix hvisited
  have hplaced := frame.placed tile htile
  obtain ⟨tileMap, htileMap, hvalues⟩ :=
    exists_generateTileOccupancyMap frame.resolution hplaced.coded
  obtain ⟨occupancyMap', hrun, hlength', hin, hout⟩ := exists_copyPixels
    (fun x hx y hy => (hvalues x hx y hy).imp fun _ h => h.1) hplaced.right hplaced.bottom
    hlength
  refine ⟨tileMap, occupancyMap', htileMap, hrun, hlength'.trans hlength, fun X hX Y hY => ?_⟩
  have hsplit : frame.DrawnIn (visited ++ [tile]) X Y ↔ frame.DrawnIn visited X Y ∨
      ∃ x y, tile.DrawnAt frame.params.occupancyResolution x y ∧
        X = x + tile.leftTopX ∧ Y = y + tile.leftTopY := by
    simp [DrawnIn, or_and_right, exists_or]
  rw [hsplit]
  by_cases hinside : ∃ x < tile.width, ∃ y < tile.height,
      X = x + tile.leftTopX ∧ Y = y + tile.leftTopY
  · obtain ⟨x, hx, y, hy, rfl, rfl⟩ := hinside
    obtain ⟨occupancy, hoccupancy, hiff⟩ := hvalues x hx y hy
    refine ⟨occupancy, (hin x hx y hy).trans hoccupancy, hiff.trans ⟨fun hdrawn =>
      Or.inr ⟨x, y, hdrawn, rfl, rfl⟩, fun hdrawn => ?_⟩⟩
    rcases hdrawn with ⟨earlier, hearlier, x', y', hold, hX', hY'⟩ | ⟨x', y', hnew, hX', hY'⟩
    · obtain ⟨hx', hy'⟩ := frame.drawnAt_lt (hmem earlier hearlier) hold
      exact absurd (Prod.ext hX'.symm hY'.symm)
        ((hapart earlier hearlier).place_ne hx' hy' hx hy)
    · rwa [Nat.add_right_cancel hX', Nat.add_right_cancel hY']
  · obtain ⟨occupancy, hoccupancy, hiff⟩ := hmap X hX Y hY
    refine ⟨occupancy, (hout X hX Y hY fun x hx y hy hsame => ?_).trans hoccupancy,
      hiff.trans ⟨Or.inl, fun hdrawn => hdrawn.resolve_right fun hnew => ?_⟩⟩
    · obtain ⟨rfl, rfl⟩ := Prod.mk.inj hsame
      exact hinside ⟨x, hx, y, hy, rfl, rfl⟩
    · obtain ⟨x, y, hnew, rfl, rfl⟩ := hnew
      obtain ⟨hx, hy⟩ := frame.drawnAt_lt htile hnew
      exact hinside ⟨x, hx, y, hy, rfl, rfl⟩

theorem exists_generateOccupancyMap :
    ∃ occupancyMap, PCCEncoder.generateOccupancyMap frame.toGeometryFrame = some occupancyMap ∧
      frame.Maps frame.tiles occupancyMap := by
  have hloop : ∃ occupancyMap, PCCEncoder.generateOccupancyMap frame.toGeometryFrame =
      some occupancyMap ∧ occupancyMap.length = frame.width * frame.height ∧
        frame.Maps frame.tiles occupancyMap := by
    apply exists_foldlM (P := fun visited (occupancyMap : List ℕ) =>
      occupancyMap.length = frame.width * frame.height ∧ frame.Maps visited occupancyMap)
    · intro visited tile occupancyMap hvisited hP
      obtain ⟨tileMap, occupancyMap', htileMap, hcopy, hP'⟩ :=
        frame.exists_copyTile hvisited hP.1 hP.2
      refine ⟨occupancyMap', ?_, hP'⟩
      rw [htileMap, Option.bind_eq_bind, Option.bind_some]
      exact hcopy
    · refine ⟨List.length_replicate, fun X hX Y hY => ⟨0, ?_, by simp [DrawnIn]⟩⟩
      rw [List.getElem?_replicate_of_lt (pixel_lt hX hY)]
  obtain ⟨occupancyMap, hrun, -, hmap⟩ := hloop
  exact ⟨occupancyMap, hrun, hmap⟩

/-- The picture of a map has the depths of all pixels at their places. -/
theorem exists_generateIntraImage (mapIndex : Fin 2) :
    ∃ image, PCCEncoder.generateIntraImage frame.toGeometryFrame mapIndex = some image ∧
      (image.width = frame.width ∧ image.height = frame.height) ∧
      ∀ tile ∈ frame.tiles, ∀ pixel, Drawn tile frame.params.occupancyResolution pixel →
        image.getValue (pixel.x + tile.leftTopX, pixel.y + tile.leftTopY) =
          some (toUInt16 (depthOf tile mapIndex pixel)).toUInt16 :=
  exists_foldlM
    (P := fun visited (image : PCCImageGeometry) =>
      (image.width = frame.width ∧ image.height = frame.height) ∧
      ∀ tile ∈ visited, ∀ pixel, Drawn tile frame.params.occupancyResolution pixel →
        image.getValue (pixel.x + tile.leftTopX, pixel.y + tile.leftTopY) =
          some (toUInt16 (depthOf tile mapIndex pixel)).toUInt16) (by
      intro visited tile image hvisited hP
      obtain ⟨⟨hwidth, hheight⟩, hvalues⟩ := hP
      obtain ⟨htile, hmem, hapart⟩ := frame.apart_of_prefix hvisited
      have hplaced := frame.placed tile htile
      obtain ⟨image', hrun, ⟨hwidth', hheight'⟩, hin, hout⟩ := exists_addTileDepths
        frame.resolution hplaced.coded mapIndex (hwidth ▸ hplaced.right)
        (hheight ▸ hplaced.bottom)
      refine ⟨image', hrun, ⟨hwidth'.trans hwidth, hheight'.trans hheight⟩, ?_⟩
      intro other hother pixel hpixel
      rcases List.mem_append.mp hother with hearlier | hnew
      · rw [hout, hvalues other hearlier pixel hpixel]
        intro pixel' hpixel'
        obtain ⟨⟨hx, hy⟩, -⟩ := hpixel.spec frame.resolution
          (frame.placed other (hmem other hearlier)).coded
        obtain ⟨⟨hx', hy'⟩, -⟩ := hpixel'.spec frame.resolution hplaced.coded
        exact (hapart other hearlier).place_ne hx hy hx' hy'
      · obtain rfl := List.mem_singleton.mp hnew
        exact hin pixel hpixel)
    ⟨⟨rfl, rfl⟩, fun tile htile => absurd htile List.not_mem_nil⟩

/-- A precision block of the frame that has a pixel with a depth. -/
def Shown (i j : ℕ) : Prop :=
  ∃ u < frame.params.occupancyPrecision, ∃ v < frame.params.occupancyPrecision,
    frame.DrawnIn frame.tiles (i * frame.params.occupancyPrecision + u)
      (j * frame.params.occupancyPrecision + v)

variable {frame} {occupancyMap : List ℕ}

theorem occupancySample_ne_zero (isFull : Bool) :
    PCCEncoder.occupancySample frame.params.offsetLossyOM isFull ≠ 0 ↔ isFull = true := by
  have hoffset := frame.offset
  unfold PCCEncoder.occupancySample
  cases isFull with
  | false => simp
  | true =>
    simp only [if_true, iff_true]
    split_ifs with hpos
    · intro hzero
      have htoNat := congrArg UInt8.toNat hzero
      simp only [Nat.toUInt8, UInt8.toNat_ofNat'] at htoNat
      simp at htoNat
      omega
    · decide

theorem exists_isFull (hmap : frame.Maps frame.tiles occupancyMap) {i j : ℕ}
    (hi : (i + 1) * frame.params.occupancyPrecision ≤ frame.width)
    (hj : (j + 1) * frame.params.occupancyPrecision ≤ frame.height) :
    ∃ isFull, PCCEncoder.isFull frame.params.occupancyPrecision frame.width occupancyMap
        (i * frame.params.occupancyPrecision, j * frame.params.occupancyPrecision) =
          some isFull ∧ (isFull = true ↔ frame.Shown i j) := by
  have hloop : ∃ isFull, PCCEncoder.isFull frame.params.occupancyPrecision frame.width occupancyMap
      (i * frame.params.occupancyPrecision, j * frame.params.occupancyPrecision) =
        some isFull ∧ (isFull = true ↔
          ∃ pixel ∈ grid frame.params.occupancyPrecision frame.params.occupancyPrecision,
            frame.DrawnIn frame.tiles (i * frame.params.occupancyPrecision + pixel.1)
              (j * frame.params.occupancyPrecision + pixel.2)) := by
    apply exists_foldlM (P := fun (visited : List (ℕ × ℕ)) isFull => isFull = true ↔
      ∃ pixel ∈ visited, frame.DrawnIn frame.tiles
        (i * frame.params.occupancyPrecision + pixel.1)
        (j * frame.params.occupancyPrecision + pixel.2))
    · intro visited pixel isFull hvisited hP
      obtain ⟨hu, hv⟩ := mem_grid.mp (hvisited.subset (by simp) :
        pixel ∈ grid frame.params.occupancyPrecision frame.params.occupancyPrecision)
      obtain ⟨occupancy, hoccupancy, hiff⟩ := hmap _ (PCCCodec.add_lt_of_succ_mul_le hu hi) _
        (PCCCodec.add_lt_of_succ_mul_le hv hj)
      cases isFull with
      | true => exact ⟨true, if_pos rfl, by simp [or_and_right, exists_or, ← hP]⟩
      | false =>
        refine ⟨decide (0 < occupancy), ?_, ?_⟩
        · rw [if_neg Bool.false_ne_true, Nat.add_assoc _ (i * _), hoccupancy]
          rfl
        · rw [decide_eq_true_iff, Nat.pos_iff_ne_zero, hiff]
          have hnone : ¬∃ pixel ∈ visited, frame.DrawnIn frame.tiles
              (i * frame.params.occupancyPrecision + pixel.1)
              (j * frame.params.occupancyPrecision + pixel.2) :=
            fun h => Bool.false_ne_true (hP.mpr h)
          simp only [List.mem_append, List.mem_singleton, or_and_right, exists_or, hnone,
            false_or, exists_eq_left]
    · simp
  obtain ⟨isFull, hrun, hfull⟩ := hloop
  refine ⟨isFull, hrun, hfull.trans ?_⟩
  constructor
  · intro h
    obtain ⟨pixel, hpixel, hdrawn⟩ := h
    obtain ⟨hu, hv⟩ := mem_grid.mp hpixel
    exact ⟨_, hu, _, hv, hdrawn⟩
  · intro h
    obtain ⟨u, hu, v, hv, hdrawn⟩ := h
    exact ⟨(u, v), mem_grid.mpr ⟨hu, hv⟩, hdrawn⟩

/-- The blocks of the precision in a row of a block of patches. -/
def blockSize0 (frame : CodedGeometry) : ℕ :=
  frame.params.occupancyResolution / frame.params.occupancyPrecision

theorem blockSize0_mul : frame.blockSize0 * frame.params.occupancyPrecision =
    frame.params.occupancyResolution := Nat.div_mul_cancel frame.divides

theorem blockSize0_pos : 0 < frame.blockSize0 :=
  Nat.div_pos (Nat.le_of_dvd frame.resolution frame.divides) frame.precision

/-- The end of a sample in a block of patches that a side of the frame holds. -/
theorem sample_end_le {side i : ℕ}
    (h : i / frame.blockSize0 < side / frame.params.occupancyResolution) :
    (i + 1) * frame.params.occupancyPrecision ≤ side := by
  have hi : i + 1 ≤ (i / frame.blockSize0 + 1) * frame.blockSize0 := by
    have hmod := Nat.mod_lt i frame.blockSize0_pos
    have hdiv := Nat.div_add_mod' i frame.blockSize0
    rw [Nat.succ_mul]
    omega
  calc (i + 1) * frame.params.occupancyPrecision
      ≤ (i / frame.blockSize0 + 1) * frame.blockSize0 * frame.params.occupancyPrecision :=
        Nat.mul_le_mul_right _ hi
    _ = (i / frame.blockSize0 + 1) * frame.params.occupancyResolution := by
        rw [Nat.mul_assoc, blockSize0_mul]
    _ ≤ side / frame.params.occupancyResolution * frame.params.occupancyResolution :=
        Nat.mul_le_mul_right _ h
    _ ≤ side := Nat.div_mul_le_self _ _

variable (frame) in
/-- The sample of a precision block. -/
def sampleAt (occupancyMap : List ℕ) (i j : ℕ) : UInt8 :=
  PCCEncoder.occupancySample frame.params.offsetLossyOM
    ((PCCEncoder.isFull frame.params.occupancyPrecision frame.width occupancyMap
      (i * frame.params.occupancyPrecision, j * frame.params.occupancyPrecision)).getD false)

section Block

theorem mul_add_div_blockSize0 {k u : ℕ} (hu : u < frame.blockSize0) :
    (k * frame.blockSize0 + u) / frame.blockSize0 = k := by
  rw [Nat.mul_comm, Nat.mul_add_div frame.blockSize0_pos, Nat.div_eq_of_lt hu, Nat.add_zero]

/-- The samples of a block of patches, with their places. -/
def blockSamples (frame : CodedGeometry) (occupancyMap : List ℕ) (column row : ℕ) :
    List ((ℕ × ℕ) × UInt8) :=
  (grid frame.blockSize0 frame.blockSize0).map fun pixel =>
    ((column * frame.blockSize0 + pixel.1, row * frame.blockSize0 + pixel.2),
      frame.sampleAt occupancyMap (column * frame.blockSize0 + pixel.1)
        (row * frame.blockSize0 + pixel.2))

variable {column row : ℕ}

theorem mem_blockSamples {entry : (ℕ × ℕ) × UInt8} :
    entry ∈ frame.blockSamples occupancyMap column row ↔
      (entry.1.1 / frame.blockSize0, entry.1.2 / frame.blockSize0) = (column, row) ∧
        frame.sampleAt occupancyMap entry.1.1 entry.1.2 = entry.2 := by
  obtain ⟨⟨i, j⟩, sample⟩ := entry
  have hpos := frame.blockSize0_pos
  constructor
  · intro h
    obtain ⟨pixel, hpixel, hentry⟩ := List.mem_map.mp h
    obtain ⟨hu, hv⟩ := mem_grid.mp hpixel
    obtain ⟨hplace, rfl⟩ := Prod.mk.inj hentry
    obtain ⟨rfl, rfl⟩ := Prod.mk.inj hplace
    exact ⟨by rw [mul_add_div_blockSize0 hu, mul_add_div_blockSize0 hv], rfl⟩
  · intro h
    obtain ⟨hblock, hsample⟩ := h
    obtain ⟨rfl, rfl⟩ := Prod.mk.inj hblock
    refine List.mem_map.mpr ⟨(i % frame.blockSize0, j % frame.blockSize0),
      mem_grid.mpr ⟨Nat.mod_lt i hpos, Nat.mod_lt j hpos⟩, ?_⟩
    rw [Nat.div_add_mod', Nat.div_add_mod', hsample]

theorem nodup_blockSamples :
    ((frame.blockSamples occupancyMap column row).map Prod.fst).Nodup := by
  unfold blockSamples
  rw [List.map_map]
  refine (nodup_grid _ _).map fun pixel pixel' hsame => ?_
  obtain ⟨hsameX, hsameY⟩ := Prod.mk.inj hsame
  exact Prod.ext (Nat.add_left_cancel hsameX) (Nat.add_left_cancel hsameY)

variable (hmap : frame.Maps frame.tiles occupancyMap)
  (hx : column < frame.width / frame.params.occupancyResolution)
  (hy : row < frame.height / frame.params.occupancyResolution) {i j : ℕ}
  (hblock : (i / frame.blockSize0, j / frame.blockSize0) = (column, row))

include hx hy hblock

theorem lt_of_block : i < frame.width / frame.params.occupancyPrecision ∧
    j < frame.height / frame.params.occupancyPrecision := by
  obtain ⟨rfl, rfl⟩ := Prod.mk.inj hblock
  exact ⟨(Nat.le_div_iff_mul_le frame.precision).mpr (sample_end_le hx),
    (Nat.le_div_iff_mul_le frame.precision).mpr (sample_end_le hy)⟩

include hmap

theorem exists_isFull_of_block :
    ∃ isFull, PCCEncoder.isFull frame.params.occupancyPrecision frame.width occupancyMap
        (i * frame.params.occupancyPrecision, j * frame.params.occupancyPrecision) =
          some isFull ∧ (isFull = true ↔ frame.Shown i j) := by
  obtain ⟨rfl, rfl⟩ := Prod.mk.inj hblock
  exact exists_isFull hmap (sample_end_le hx) (sample_end_le hy)

theorem sampleAt_ne_zero : frame.sampleAt occupancyMap i j ≠ 0 ↔ frame.Shown i j := by
  obtain ⟨isFull, hisFull, hiff⟩ := exists_isFull_of_block hmap hx hy hblock
  unfold sampleAt
  rw [occupancySample_ne_zero, hisFull]
  exact hiff

omit hblock

theorem fillOccupancyBlock_eq (video : PCCImageOccupancyMap) :
    PCCEncoder.fillOccupancyBlock frame.params frame.width occupancyMap video (column, row) =
      writeAll PCCImageOccupancyMap.setValue (frame.blockSamples occupancyMap column row) video := by
  have hcorner : ∀ k u, k * frame.params.occupancyResolution +
      u * frame.params.occupancyPrecision =
        (k * frame.blockSize0 + u) * frame.params.occupancyPrecision := by
    intro k u
    rw [Nat.add_mul, Nat.mul_assoc, blockSize0_mul]
  have hsamples := mapM_eq_some_map (l := grid frame.blockSize0 frame.blockSize0)
    (f := fun pixel => do
      let isFull ← PCCEncoder.isFull frame.params.occupancyPrecision frame.width occupancyMap
        (column * frame.params.occupancyResolution + pixel.1 * frame.params.occupancyPrecision,
          row * frame.params.occupancyResolution + pixel.2 * frame.params.occupancyPrecision)
      some ((column * frame.blockSize0 + pixel.1, row * frame.blockSize0 + pixel.2),
        PCCEncoder.occupancySample frame.params.offsetLossyOM isFull))
    (g := fun pixel =>
      ((column * frame.blockSize0 + pixel.1, row * frame.blockSize0 + pixel.2),
        frame.sampleAt occupancyMap (column * frame.blockSize0 + pixel.1)
          (row * frame.blockSize0 + pixel.2))) (by
      intro pixel hpixel
      obtain ⟨hu, hv⟩ := mem_grid.mp hpixel
      obtain ⟨isFull, hisFull, -⟩ := exists_isFull_of_block hmap hx hy
        (Prod.ext (mul_add_div_blockSize0 hu) (mul_add_div_blockSize0 hv))
      unfold sampleAt
      rw [hcorner, hcorner, hisFull]
      rfl)
  unfold PCCEncoder.fillOccupancyBlock
  dsimp only
  unfold blockSize0 at hsamples
  rw [hsamples, Option.bind_eq_bind, Option.bind_some]
  rfl

/-- A block of patches gets its samples, and the others are as before. -/
theorem exists_fillOccupancyBlock {video : PCCImageOccupancyMap}
    (hwidth : video.width = frame.width / frame.params.occupancyPrecision)
    (hheight : video.height = frame.height / frame.params.occupancyPrecision) :
    ∃ video', PCCEncoder.fillOccupancyBlock frame.params frame.width occupancyMap video (column, row) =
        some video' ∧
      (video'.width = video.width ∧ video'.height = video.height) ∧
      (∀ i j, (i / frame.blockSize0, j / frame.blockSize0) = (column, row) →
        ∃ sample, video'.getValue (i, j) = some sample ∧ (sample ≠ 0 ↔ frame.Shown i j)) ∧
      ∀ i j, (i / frame.blockSize0, j / frame.blockSize0) ≠ (column, row) →
        video'.getValue (i, j) = video.getValue (i, j) := by
  have hwrite : ∃ video', writeAll PCCImageOccupancyMap.setValue
      (frame.blockSamples occupancyMap column row) video = some video' := by
    apply PCCImageOccupancyMap.lawful.exists_writeAll
    intro entry hentry
    have hin := lt_of_block hx hy (mem_blockSamples.mp hentry).1
    rw [← hwidth, ← hheight] at hin
    unfold PCCImageOccupancyMap.getValue
    rw [if_pos hin]
    rfl
  obtain ⟨video', hvideo'⟩ := hwrite
  refine ⟨video', (fillOccupancyBlock_eq hmap hx hy video).trans hvideo', ?_,
    fun i j hblock => ?_, fun i j hblock => ?_⟩
  · exact inv_of_writeAll (P := fun after => after.width = video.width ∧
      after.height = video.height) hvideo' (fun before place value after hbefore hput => by
        obtain ⟨hwidth, hheight⟩ := PCCImageOccupancyMap.size_setValue hput
        exact ⟨hwidth.trans hbefore.1, hheight.trans hbefore.2⟩) ⟨rfl, rfl⟩
  · have hmem : ((i, j), frame.sampleAt occupancyMap i j) ∈
        frame.blockSamples occupancyMap column row := mem_blockSamples.mpr ⟨hblock, rfl⟩
    exact ⟨_, PCCImageOccupancyMap.lawful.get_of_mem hvideo' nodup_blockSamples hmem,
      sampleAt_ne_zero hmap hx hy hblock⟩
  · apply PCCImageOccupancyMap.lawful.get_of_not_mem hvideo'
    intro hmem
    obtain ⟨entry, hentry, hplace⟩ := List.mem_map.mp hmem
    have hin := (mem_blockSamples.mp hentry).1
    rw [hplace] at hin
    exact hblock hin

end Block

/-- A pixel with a depth lies in a whole block of the frame. -/
theorem DrawnIn.block_lt {X Y : ℕ} (h : frame.DrawnIn frame.tiles X Y) :
    X / frame.params.occupancyResolution < frame.width / frame.params.occupancyResolution ∧
      Y / frame.params.occupancyResolution < frame.height / frame.params.occupancyResolution := by
  obtain ⟨tile, htile, x, y, hdrawn, rfl, rfl⟩ := h
  obtain ⟨hx, hy⟩ := frame.drawnAt_lt htile hdrawn
  have hplaced := frame.placed tile htile
  have hside : ∀ {x corner size side : ℕ}, x < size →
      frame.params.occupancyResolution ∣ corner → frame.params.occupancyResolution ∣ size →
      corner + size ≤ side →
      (x + corner) / frame.params.occupancyResolution <
        side / frame.params.occupancyResolution := by
    intro x corner size side hx hcorner hsize hle
    calc (x + corner) / frame.params.occupancyResolution
        < (corner + size) / frame.params.occupancyResolution :=
          Nat.div_lt_div_of_lt_of_dvd (dvd_add hcorner hsize) (by omega)
      _ ≤ side / frame.params.occupancyResolution := Nat.div_le_div_right hle
  exact ⟨hside hx hplaced.alignedX hplaced.wholeX hplaced.right,
    hside hy hplaced.alignedY hplaced.wholeY hplaced.bottom⟩

theorem Shown.block_lt {i j : ℕ} (h : frame.Shown i j) :
    i / frame.blockSize0 < frame.width / frame.params.occupancyResolution ∧
      j / frame.blockSize0 < frame.height / frame.params.occupancyResolution := by
  obtain ⟨u, hu, v, hv, hdrawn⟩ := h
  have hblock : ∀ {i u : ℕ}, u < frame.params.occupancyPrecision →
      (i * frame.params.occupancyPrecision + u) / frame.params.occupancyResolution =
        i / frame.blockSize0 := by
    intro i u hu
    rw [← blockSize0_mul, Nat.mul_comm frame.blockSize0, ← Nat.div_div_eq_div_mul, Nat.mul_comm i,
      Nat.mul_add_div frame.precision, Nat.div_eq_of_lt hu, Nat.add_zero]
  rw [← hblock hu, ← hblock hv]
  exact hdrawn.block_lt

/-- The video is not zero exactly for the precision blocks that have a pixel with a depth. -/
theorem exists_generateOccupancyMapVideo (hmap : frame.Maps frame.tiles occupancyMap) :
    ∃ video, PCCEncoder.generateOccupancyMapVideo frame.params frame.width frame.height
        occupancyMap = some video ∧
      (video.width = frame.width / frame.params.occupancyPrecision ∧
        video.height = frame.height / frame.params.occupancyPrecision) ∧
      ∀ i < video.width, ∀ j < video.height, video.channel (i, j) ≠ 0 ↔ frame.Shown i j := by
  let P := fun (visited : List (ℕ × ℕ)) (video : PCCImageOccupancyMap) =>
    (video.width = frame.width / frame.params.occupancyPrecision ∧
      video.height = frame.height / frame.params.occupancyPrecision) ∧
    ∀ i < video.width, ∀ j < video.height, ∃ sample, video.getValue (i, j) = some sample ∧
      (sample ≠ 0 ↔ (i / frame.blockSize0, j / frame.blockSize0) ∈ visited ∧ frame.Shown i j)
  have hstep : ∀ visited block video, visited ++ [block] <+:
      grid (frame.width / frame.params.occupancyResolution)
        (frame.height / frame.params.occupancyResolution) → P visited video →
      ∃ video', PCCEncoder.fillOccupancyBlock frame.params frame.width occupancyMap video block =
        some video' ∧ P (visited ++ [block]) video' := by
    intro visited block video hprior hP
    obtain ⟨hsize, hsamples⟩ := hP
    obtain ⟨hblock, -⟩ := mem_and_notMem_of_prefix hprior (nodup_grid _ _)
    obtain ⟨hx, hy⟩ := mem_grid.mp hblock
    obtain ⟨video', hfill, hsize', hin, hout⟩ :=
      exists_fillOccupancyBlock hmap hx hy hsize.1 hsize.2
    refine ⟨video', hfill, ⟨hsize'.1.trans hsize.1, hsize'.2.trans hsize.2⟩, ?_⟩
    intro i hi j hj
    rw [hsize'.1] at hi
    rw [hsize'.2] at hj
    by_cases hblock : (i / frame.blockSize0, j / frame.blockSize0) = block
    · obtain ⟨sample, hsample, hiff⟩ := hin i j hblock
      refine ⟨sample, hsample, hiff.trans ?_⟩
      simp [hblock]
    · rw [hout i j hblock]
      obtain ⟨sample, hsample, hiff⟩ := hsamples i hi j hj
      refine ⟨sample, hsample, hiff.trans ?_⟩
      simp [hblock]
  have hstart : P [] (.resize (frame.width / frame.params.occupancyPrecision)
      (frame.height / frame.params.occupancyPrecision)) :=
    ⟨⟨rfl, rfl⟩, fun i hi j hj => ⟨0, if_pos ⟨hi, hj⟩, by simp⟩⟩
  obtain ⟨video, hrun, hsize, hvisited⟩ := exists_foldlM hstep hstart
  refine ⟨video, ?_, hsize, fun i hi j hj => ?_⟩
  · have hresolution := frame.resolution
    have hprecision := frame.precision
    unfold PCCEncoder.generateOccupancyMapVideo
    rw [if_neg (by omega)]
    exact hrun
  · obtain ⟨sample, hsample, hiff⟩ := hvisited i hi j hj
    unfold PCCImageOccupancyMap.getValue at hsample
    rw [if_pos ⟨hi, hj⟩] at hsample
    rw [Option.some.inj hsample, hiff]
    exact and_iff_right_of_imp fun hshown => mem_grid.mpr hshown.block_lt

end CodedGeometry

end V3C

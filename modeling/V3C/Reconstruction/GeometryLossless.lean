import V3C.Reconstruction.GeometryPictures

/-! The decoder generates the points of all depths, and no others where every pixel has an
occupancy sample of its own. -/
namespace V3C
open Cells Codec

/-- The points of a step, from the depths of the patch itself. -/
def GeometryTile.depthPoints (params : GeometryParameters)
    (inverseRotate : ℕ → PCCPoint3D → PCCPoint3D) (step : (DepthPatch × ℕ) × ℕ × ℕ) :
    Option (List PCCPoint3D) := do
  let ((patch, _), (u, v)) := step
  let d ← patch.getDepth 0 (u, v)
  if d < infiniteDepth then do
    let depths ← params.maps.mapM fun mapIndex => (patch.getDepth mapIndex (u, v)).map Int.toNat
    let points ← patch.pixelPoints params.removeDuplicatePoints inverseRotate u v depths
    some (points.map Prod.fst)
  else some []

def GeometryTile.points (params : GeometryParameters)
    (inverseRotate : ℕ → PCCPoint3D → PCCPoint3D) (tile : GeometryTile) :
    Option (List PCCPoint3D) := do
  let points ← (PCCEncoder.depthSteps tile).mapM (depthPoints params inverseRotate)
  some points.flatten

theorem exists_setAxis (point : PCCPoint3D) {axis : ℕ} (haxis : axis < 3) (value : ℤ) :
    ∃ point', point.setAxis axis value = some point' := by
  unfold PCCPoint3D.setAxis
  match axis with
  | 0 | 1 | 2 => exact ⟨_, rfl⟩

theorem DepthPatch.Coded.exists_generatePoint {resolution bits : ℕ} {patch : DepthPatch}
    (h : patch.Coded resolution bits) {u v depth : ℕ} (hu : u < patch.sizeU0 * resolution)
    (hv : v < patch.sizeV0 * resolution) (hdepth : depth < 2 ^ bits) :
    ∃ point, patch.generatePoint u v depth = some point := by
  obtain ⟨hnormalAxis, htangentAxis, hbitangentAxis⟩ := h.axes
  have hbound := h.normal
  have hnormal : patch.generateNormalCoordinate depth < 2 ^ 15 := by
    unfold CanvasPatch.generateNormalCoordinate
    split_ifs <;> omega
  obtain ⟨point0, hpoint0⟩ := exists_setAxis default hnormalAxis
    (patch.generateNormalCoordinate depth)
  obtain ⟨point1, hpoint1⟩ := exists_setAxis point0 htangentAxis
    (u * patch.levelOfDetailX + patch.u1 : ℕ)
  obtain ⟨point2, hpoint2⟩ := exists_setAxis point1 hbitangentAxis
    (v * patch.levelOfDetailY + patch.v1 : ℕ)
  refine ⟨point2, ?_⟩
  unfold CanvasPatch.generatePoint PCCCodec.int16OfDouble
  rw [if_pos hnormal, if_pos (h.tangent u hu), if_pos (h.bitangent v hv)]
  simp only [Option.bind_eq_bind, Option.bind_some, hpoint0, hpoint1, hpoint2]

theorem DepthPatch.Coded.exists_pixelPoints {resolution bits : ℕ} {patch : DepthPatch}
    (h : patch.Coded resolution bits) (removeDuplicatePoints : Bool)
    (inverseRotate : ℕ → PCCPoint3D → PCCPoint3D) {u v : ℕ} {depths : List ℕ}
    (hu : u < patch.sizeU0 * resolution) (hv : v < patch.sizeV0 * resolution)
    (hdepths : ∀ depth ∈ depths, depth < 2 ^ bits) :
    ∃ points, patch.pixelPoints removeDuplicatePoints inverseRotate u v depths = some points := by
  obtain ⟨createdPoints, hcreated⟩ := exists_mapM_eq_some fun depth hdepth =>
    h.exists_generatePoint hu hv (hdepths depth hdepth)
  unfold DepthPatch.pixelPoints
  rw [hcreated]
  exact ⟨_, rfl⟩

/-- What padding may do to a picture of depths: only places without occupancy change. -/
structure Padded (frame : CodedGeometry) (occupancyMap : List ℕ)
    (image padded : PCCImageGeometry) : Prop where
  width_eq : padded.width = image.width
  height_eq : padded.height = image.height
  kept : ∀ X < frame.width, ∀ Y < frame.height, ∀ occupancy,
    occupancyMap[Y * frame.width + X]? = some occupancy → occupancy ≠ 0 →
      padded.getValue (X, Y) = image.getValue (X, Y)
  bounded : ∀ tile ∈ frame.tiles, ∀ place,
    (padded.channel place).toNat < 2 ^ tile.geometry2dBitdepth

namespace CodedGeometry

variable (frame : CodedGeometry) {video : PCCImageOccupancyMap} {tile : GeometryTile}

/-- The video has a sample for every precision block, which is not zero for those with a depth. -/
structure ShownBy (video : PCCImageOccupancyMap) : Prop where
  width_eq : video.width = frame.width / frame.params.occupancyPrecision
  height_eq : video.height = frame.height / frame.params.occupancyPrecision
  channel_ne_zero : ∀ i < video.width, ∀ j < video.height,
    video.channel (i, j) ≠ 0 ↔ frame.Shown i j

variable {frame}

/-- The sample of a place of a tile. -/
theorem ShownBy.sample (h : frame.ShownBy video) (htile : tile ∈ frame.tiles) {x y : ℕ}
    (hx : x < tile.width) (hy : y < tile.height) :
    ((x + tile.leftTopX) / frame.params.occupancyPrecision < video.width ∧
      (y + tile.leftTopY) / frame.params.occupancyPrecision < video.height) ∧
      ((video.channel ((x + tile.leftTopX) / frame.params.occupancyPrecision,
          (y + tile.leftTopY) / frame.params.occupancyPrecision)).toNat ≠ 0 ↔
        frame.Shown ((x + tile.leftTopX) / frame.params.occupancyPrecision)
          ((y + tile.leftTopY) / frame.params.occupancyPrecision)) := by
  have hplaced := frame.placed tile htile
  have hside : ∀ {x corner size side : ℕ}, x < size →
      frame.params.occupancyResolution ∣ corner → frame.params.occupancyResolution ∣ size →
      corner + size ≤ side → (x + corner) / frame.params.occupancyPrecision <
        side / frame.params.occupancyPrecision := by
    intro x corner size side hx hcorner hsize hle
    calc (x + corner) / frame.params.occupancyPrecision
        < (corner + size) / frame.params.occupancyPrecision :=
          Nat.div_lt_div_of_lt_of_dvd
            (dvd_add (frame.divides.trans hcorner) (frame.divides.trans hsize)) (by omega)
      _ ≤ side / frame.params.occupancyPrecision := Nat.div_le_div_right hle
  have hi := hside hx hplaced.alignedX hplaced.wholeX hplaced.right
  have hj := hside hy hplaced.alignedY hplaced.wholeY hplaced.bottom
  rw [← h.width_eq] at hi
  rw [← h.height_eq] at hj
  refine ⟨⟨hi, hj⟩, ?_⟩
  rw [← h.channel_ne_zero _ hi _ hj, ne_eq, ne_eq, ← UInt8.toNat_inj]
  rfl

/-- A precision block with a pixel of a tile. -/
theorem shown_of_drawn (htile : tile ∈ frame.tiles) {pixel : PatchPixel}
    (hpixel : Drawn tile frame.params.occupancyResolution pixel) :
    frame.Shown ((pixel.x + tile.leftTopX) / frame.params.occupancyPrecision)
      ((pixel.y + tile.leftTopY) / frame.params.occupancyPrecision) := by
  exact ⟨_, Nat.mod_lt (pixel.x + tile.leftTopX) frame.precision, _,
    Nat.mod_lt (pixel.y + tile.leftTopY) frame.precision, tile, htile, pixel.x, pixel.y,
    ⟨pixel, hpixel, rfl, rfl⟩, Nat.div_add_mod' _ _, Nat.div_add_mod' _ _⟩

theorem exists_upscaleOccupancy (h : frame.ShownBy video) (htile : tile ∈ frame.tiles) :
    ∃ occupancyMap, PCCCodec.upscaleOccupancy frame.params.occupancyPrecision tile.toTileArea
        video = some occupancyMap ∧
      occupancyMap.length = tile.width * tile.height ∧
      ∀ x < tile.width, ∀ y < tile.height, ∃ occupancy,
        occupancyMap[y * tile.width + x]? = some occupancy ∧
          (occupancy ≠ 0 ↔ frame.Shown ((x + tile.leftTopX) / frame.params.occupancyPrecision)
            ((y + tile.leftTopY) / frame.params.occupancyPrecision)) := by
  have hresolution := frame.resolution
  have hplaced := frame.placed tile htile
  have hcorner : ∀ {corner : ℕ} (x : ℕ), frame.params.occupancyResolution ∣ corner →
      corner / frame.params.occupancyPrecision + x / frame.params.occupancyPrecision =
        (x + corner) / frame.params.occupancyPrecision := by
    intro corner x hcorner
    rw [Nat.add_div_of_dvd_left (frame.divides.trans hcorner), Nat.add_comm]
  have hrun := mapM_eq_some_map (l := grid tile.width tile.height)
    (f := fun place => (video.getValue
      (tile.leftTopX / frame.params.occupancyPrecision +
          place.1 / frame.params.occupancyPrecision,
        tile.leftTopY / frame.params.occupancyPrecision +
          place.2 / frame.params.occupancyPrecision)).map UInt8.toNat)
    (g := fun place =>
      (video.channel ((place.1 + tile.leftTopX) / frame.params.occupancyPrecision,
        (place.2 + tile.leftTopY) / frame.params.occupancyPrecision)).toNat) (by
      intro place hmem
      obtain ⟨hx, hy⟩ := mem_grid.mp hmem
      rw [hcorner _ hplaced.alignedX, hcorner _ hplaced.alignedY]
      unfold PCCImageOccupancyMap.getValue
      rw [if_pos (h.sample htile hx hy).1]
      rfl)
  refine ⟨_, (if_neg frame.precision.ne').trans hrun, ?_,
    fun x hx y hy => ⟨_, ?_, (h.sample htile hx hy).2⟩⟩
  · rw [List.length_map, length_grid, Nat.mul_comm]
  · have hlt : y * tile.width + x < tile.height * tile.width :=
      (pixel_lt hx hy).trans_eq (Nat.mul_comm _ _)
    have hmod : (y * tile.width + x) % tile.width = x := by
      rw [Nat.mul_comm, Nat.mul_add_mod, Nat.mod_eq_of_lt hx]
    have hdiv : (y * tile.width + x) / tile.width = y := by
      rw [Nat.mul_comm, Nat.mul_add_div (by omega), Nat.div_eq_of_lt hx, Nat.add_zero]
    rw [grid_eq_map, List.map_map, List.getElem?_map, List.getElem?_range hlt]
    simp only [Option.map_some, Function.comp, hmod, hdiv]

/-- The tables of the decoder for a tile, and the pixels that it reaches: all pixels with depths,
and others only if an occupancy sample stands for several pixels. -/
theorem exists_decodedPixels (h : frame.ShownBy video) (htile : tile ∈ frame.tiles) :
    ∃ blockToPatch occupancyMap pixels,
      PCCCodec.generateBlockToPatchFromOccupancyMapVideo tile.toTileArea
        frame.params.occupancyResolution frame.params.occupancyPrecision
        (fun x y => (video.channel (x, y)).toNat) tile.placements = some blockToPatch ∧
      PCCCodec.upscaleOccupancy frame.params.occupancyPrecision tile.toTileArea video =
        some occupancyMap ∧
      V3C.patchPixels frame.params.occupancyResolution tile.width tile.height blockToPatch
        occupancyMap tile.placements = some pixels ∧
      (∀ pixel ∈ pixels, (pixel.x < tile.width ∧ pixel.y < tile.height) ∧
        ∃ patch, tile.patches[pixel.patchIndex]? = some patch ∧
          pixel.u < patch.sizeU0 * frame.params.occupancyResolution ∧
          pixel.v < patch.sizeV0 * frame.params.occupancyResolution) ∧
      (∀ pixel, Drawn tile frame.params.occupancyResolution pixel → pixel ∈ pixels) ∧
      (pixels.map fun pixel => (pixel.x, pixel.y)).Nodup ∧
      (frame.params.occupancyPrecision = 1 → ∀ pixel ∈ pixels,
        Drawn tile frame.params.occupancyResolution pixel) := by
  have hresolution := frame.resolution
  have hplaced := frame.placed tile htile
  have hpatches : ∀ patch ∈ tile.placements, InTile tile.toTileArea
      frame.params.occupancyResolution patch ∧ patch.Sized := by
    intro place hplace
    obtain ⟨patch, hpatch, rfl⟩ := List.mem_map.mp hplace
    exact (hplaced.coded.patches patch hpatch).2
  obtain ⟨blockToPatch, htable, hholds⟩ := @PCCCodec.generateBlockToPatch_spec _ _ _
    (fun x y => (video.channel (x, y)).toNat) hresolution frame.precision _
    fun patch hpatch => (hpatches patch hpatch).1
  obtain ⟨occupancyMap, hmap, hlength, hvalues⟩ := exists_upscaleOccupancy h htile
  obtain ⟨pixels, hpixels, hreached, hnodup⟩ := exists_patchPixels hresolution hpatches
    (length_generateBlockToPatch htable) hlength
  have hdrawn : ∀ pixel, Drawn tile frame.params.occupancyResolution pixel → pixel ∈ pixels := by
    intro pixel hpixel
    have hshown := shown_of_drawn htile hpixel
    apply (hreached pixel).mpr
    cases hpixel with
    | @mk patch i u v x y a b hpatch hdepth hpos hturn =>
      have hmem := List.mem_of_getElem? hpatch
      have hcoded := (hplaced.coded.patches patch hmem).1
      have hu := hdepth.1.trans_le hcoded.columns
      have hv := hdepth.2.1.trans_le hcoded.rows
      have hu0 := Nat.div_lt_of_lt_mul (Nat.mul_comm _ _ ▸ hu)
      have hv0 := Nat.div_lt_of_lt_mul (Nat.mul_comm _ _ ▸ hv)
      obtain ⟨x', y', hpos', hx, hy, hplace⟩ :=
        hplaced.coded.exists_place hresolution hmem hu hv
      obtain ⟨rfl, rfl⟩ := Prod.mk.inj (Option.some.inj (hpos.symm.trans hpos'))
      obtain ⟨ha, hb, -⟩ := hplace a b hturn
      have hxin := PCCCodec.add_lt_of_succ_mul_le ha hx
      have hyin := PCCCodec.add_lt_of_succ_mul_le hb hy
      have hplacement : tile.placements[i]? = some patch.toPatchPlacement := by
        unfold GeometryTile.placements
        rw [List.getElem?_map, hpatch]
        rfl
      have howner : blockToPatch[x + tile.width / frame.params.occupancyResolution * y]? =
          some (i + 1) := by
        refine (hholds x (PCCCodec.lt_div_of_succ_mul_le hresolution hx) y
          (PCCCodec.lt_div_of_succ_mul_le hresolution hy) i).mpr
          ⟨⟨a, ha, b, hb, (h.sample htile hxin hyin).2.mpr hshown⟩,
            ⟨_, hplacement, _, hu0, _, hv0, hpos⟩, ?_⟩
        intro j place hij hj
        unfold GeometryTile.placements at hj
        rw [List.getElem?_map] at hj
        obtain ⟨later, hlater, rfl⟩ := Option.map_eq_some_iff.mp hj
        obtain ⟨hi, rfl⟩ := List.getElem?_eq_some_iff.mp hpatch
        obtain ⟨hlt, rfl⟩ := List.getElem?_eq_some_iff.mp hlater
        exact List.pairwise_iff_getElem.mp hplaced.coded.apart i j hi hlt hij u v x y hdepth hpos
      obtain ⟨occupancy, hoccupancy, hiff⟩ := hvalues _ hxin _ hyin
      have hreach := Reached.mk hplacement hu0 hv0 (Nat.mod_lt u hresolution)
        (Nat.mod_lt v hresolution) hpos hturn howner hoccupancy (hiff.mpr hshown)
      rwa [Nat.div_add_mod', Nat.div_add_mod'] at hreach
  refine ⟨blockToPatch, occupancyMap, pixels, htable, hmap, hpixels, ?_, hdrawn, hnodup, ?_⟩
  · intro pixel hpixel
    have hreach := (hreached pixel).mp hpixel
    refine ⟨(hreach.spec fun patch hpatch => (hpatches patch hpatch).1).1, ?_⟩
    cases hreach with
    | @mk place i u0 v0 u1 v1 x y a b occupancy hplace hu0 hv0 hu1 hv1 =>
      unfold GeometryTile.placements at hplace
      rw [List.getElem?_map] at hplace
      obtain ⟨patch, hpatch, rfl⟩ := Option.map_eq_some_iff.mp hplace
      exact ⟨patch, hpatch, PCCCodec.add_lt_of_succ_mul_le hu1 (Nat.mul_le_mul_right _ hu0),
        PCCCodec.add_lt_of_succ_mul_le hv1 (Nat.mul_le_mul_right _ hv0)⟩
  · intro hone pixel hpixel
    obtain ⟨⟨hx, hy⟩, -, occupancy, hoccupancy, hne⟩ := ((hreached pixel).mp hpixel).spec
      fun patch hpatch => (hpatches patch hpatch).1
    obtain ⟨occupancy', hoccupancy', hiff⟩ := hvalues _ hx _ hy
    obtain rfl := Option.some.inj (hoccupancy.symm.trans hoccupancy')
    obtain ⟨u, hu, v, hv, other, hother, x, y, hat, hX, hY⟩ := hiff.mp hne
    rw [hone] at hu hv hX hY
    have hsameX : pixel.x + tile.leftTopX = x + other.leftTopX := by omega
    have hsameY : pixel.y + tile.leftTopY = y + other.leftTopY := by omega
    obtain ⟨hx', hy'⟩ := frame.drawnAt_lt hother hat
    have htile' : other = tile := by
      by_contra hne
      have hapart := frame.apart.forall hother htile hne
      exact hapart.place_ne hx' hy' hx hy (Prod.ext hsameX.symm hsameY.symm)
    obtain rfl := htile'
    obtain ⟨pixel', hpixel', rfl, rfl⟩ := hat
    have hsame := List.inj_on_of_nodup_map hnodup hpixel (hdrawn pixel' hpixel')
      (Prod.ext (Nat.add_right_cancel hsameX) (Nat.add_right_cancel hsameY))
    rw [hsame]
    exact hpixel'

theorem toNat_toUInt16 {d : ℤ} {bits : ℕ} (hlow : 0 ≤ d) (hhigh : d < 2 ^ bits)
    (hbits : 2 ^ bits ≤ 2 ^ 15) : (toUInt16 d).toUInt16.toNat = d.toNat := by
  have hcast : ((2 ^ bits : ℕ) : ℤ) = 2 ^ bits := by
    push_cast
    rfl
  unfold toUInt16
  simp only [Nat.toUInt16, UInt16.toNat_ofNat']
  omega

/-- The depths that the decoder reads at a place of a tile: those of the pixel that is drawn
there. -/
theorem exists_depths {occupancyMap : List ℕ} (hmap : frame.Maps frame.tiles occupancyMap)
    (htile : tile ∈ frame.tiles) {x y : ℕ} (hx : x < tile.width) (hy : y < tile.height)
    {maps : List (Fin 2)} {images frames : List PCCImageGeometry}
    (himages : maps.mapM (PCCEncoder.generateIntraImage frame.toGeometryFrame) = some images)
    (hframes : List.Forall₂ (Padded frame occupancyMap) images frames) :
    ∃ depths, (frames.mapM fun image =>
        (image.getValue (x + tile.leftTopX, y + tile.leftTopY)).map UInt16.toNat) = some depths ∧
      (∀ depth ∈ depths, depth < 2 ^ tile.geometry2dBitdepth) ∧
      ∀ pixel, Drawn tile frame.params.occupancyResolution pixel → pixel.x = x → pixel.y = y →
        depths = maps.map fun mapIndex => (depthOf tile mapIndex pixel).toNat := by
  have hplaced := frame.placed tile htile
  have hright := hplaced.right
  have hbottom := hplaced.bottom
  induction maps generalizing images frames with
  | nil =>
    obtain rfl : [] = images := Option.some.inj himages
    obtain rfl := List.forall₂_nil_left_iff.mp hframes
    exact ⟨[], rfl, fun depth hdepth => absurd hdepth List.not_mem_nil, fun _ _ _ _ => rfl⟩
  | cons mapIndex maps ih =>
    obtain ⟨image, himage, himages⟩ :=
      Option.bind_eq_some_iff.mp (List.mapM_cons.symm.trans himages)
    obtain ⟨images', himages', himages⟩ := Option.bind_eq_some_iff.mp himages
    obtain rfl : image :: images' = images := by simpa using himages
    obtain ⟨padded, frames', hpadded, hframes', rfl⟩ := List.forall₂_cons_left_iff.mp hframes
    obtain ⟨depths, hdepths, hbounds, hdrawn⟩ := ih himages' hframes'
    obtain ⟨image', himage', ⟨hwidth, hheight⟩, hvalues⟩ :=
      frame.exists_generateIntraImage mapIndex
    obtain rfl := Option.some.inj (himage.symm.trans himage')
    have hinside : padded.getValue (x + tile.leftTopX, y + tile.leftTopY) =
        some (padded.channel (x + tile.leftTopX, y + tile.leftTopY)) := by
      apply PCCImageGeometry.getValue_eq
      rw [hpadded.width_eq, hpadded.height_eq, hwidth, hheight]
      dsimp only
      omega
    refine ⟨(padded.channel (x + tile.leftTopX, y + tile.leftTopY)).toNat :: depths, ?_, ?_, ?_⟩
    · rw [List.mapM_cons, hinside, hdepths]
      rfl
    · intro depth hdepth
      rcases List.mem_cons.mp hdepth with rfl | hmem
      · exact hpadded.bounded tile htile _
      · exact hbounds depth hmem
    · intro pixel hpixel hpixelX hpixelY
      rw [List.map_cons, hdrawn pixel hpixel hpixelX hpixelY]
      congr 1
      obtain ⟨-, -, patch, -, hcoded, -, hdepth⟩ := hpixel.spec frame.resolution hplaced.coded
      obtain ⟨-, hlow, hhigh⟩ := hdepth mapIndex
      have hbits := hcoded.normal
      rw [← toNat_toUInt16 hlow hhigh (by omega)]
      apply congrArg UInt16.toNat
      obtain ⟨occupancy, hoccupancy, hiff⟩ := hmap (x + tile.leftTopX) (by omega)
        (y + tile.leftTopY) (by omega)
      have hkept := hpadded.kept _ (by omega) _ (by omega) occupancy hoccupancy
        (hiff.mpr ⟨tile, htile, x, y, ⟨pixel, hpixel, hpixelX, hpixelY⟩, rfl, rfl⟩)
      have hvalue := hvalues tile htile pixel hpixel
      rw [hpixelX, hpixelY] at hvalue
      exact Option.some.inj (hinside.symm.trans (hkept.trans hvalue))

/-- The points of a pixel of a tile, where the decoder generates them. -/
theorem exists_addPixel {occupancyMap : List ℕ} (hmap : frame.Maps frame.tiles occupancyMap)
    (inverseRotate : ℕ → PCCPoint3D → PCCPoint3D) (htile : tile ∈ frame.tiles)
    {images frames : List PCCImageGeometry}
    (himages : frame.params.maps.mapM (PCCEncoder.generateIntraImage frame.toGeometryFrame) =
      some images)
    (hframes : List.Forall₂ (Padded frame occupancyMap) images frames) {pixel : PatchPixel}
    (hin : pixel.x < tile.width ∧ pixel.y < tile.height) {patch : DepthPatch}
    (hpatch : tile.patches[pixel.patchIndex]? = some patch)
    (hu : pixel.u < patch.sizeU0 * frame.params.occupancyResolution)
    (hv : pixel.v < patch.sizeV0 * frame.params.occupancyResolution) :
    ∃ depths points,
      patch.pixelPoints frame.params.removeDuplicatePoints inverseRotate pixel.u pixel.v depths =
        some points ∧
      PCCCodec.addPixel frame.params inverseRotate tile frames pixel =
        some (points.map fun point => (point.1, pixel.x, pixel.y, point.2)) ∧
      (Drawn tile frame.params.occupancyResolution pixel →
        depths = frame.params.maps.map fun mapIndex => (depthOf tile mapIndex pixel).toNat) := by
  have hcoded := ((frame.placed tile htile).coded.patches patch (List.mem_of_getElem? hpatch)).1
  obtain ⟨depths, hdepths, hbounds, hdrawn⟩ :=
    exists_depths hmap htile hin.1 hin.2 himages hframes
  obtain ⟨points, hpoints⟩ := hcoded.exists_pixelPoints frame.params.removeDuplicatePoints
    inverseRotate hu hv hbounds
  refine ⟨depths, points, hpoints, ?_, fun hpixel => hdrawn pixel hpixel rfl rfl⟩
  unfold PCCCodec.addPixel
  rw [hpatch, Option.bind_eq_bind, Option.bind_some, hdepths, Option.bind_eq_bind,
    Option.bind_some, hpoints]
  rfl

theorem flatten_map_getD {α β γ : Type} (f : α → Option β) (h : β → List γ) (l : List α) :
    (l.map fun a => ((f a).map h).getD []).flatten = (l.filterMap f).flatMap h := by
  induction l with
  | nil => rfl
  | cons a l ih =>
    rw [List.map_cons, List.flatten_cons, ih]
    cases hfa : f a with
    | none => rw [List.filterMap_cons_none hfa, Option.map_none, Option.getD_none, List.nil_append]
    | some b =>
      rw [List.filterMap_cons_some hfa, List.flatMap_cons, Option.map_some, Option.getD_some]

/-- The points that the patches of a tile stand for are those of the pixels with depths. -/
theorem points_eq {occupancyMap : List ℕ} (hmap : frame.Maps frame.tiles occupancyMap)
    (inverseRotate : ℕ → PCCPoint3D → PCCPoint3D) (htile : tile ∈ frame.tiles)
    {images frames : List PCCImageGeometry}
    (himages : frame.params.maps.mapM (PCCEncoder.generateIntraImage frame.toGeometryFrame) =
      some images)
    (hframes : List.Forall₂ (Padded frame occupancyMap) images frames) :
    tile.points frame.params inverseRotate = some ((drawnPixels tile).flatMap fun pixel =>
      ((PCCCodec.addPixel frame.params inverseRotate tile frames pixel).getD []).map Prod.fst) := by
  have hresolution := frame.resolution
  have hplaced := frame.placed tile htile
  unfold GeometryTile.points drawnPixels
  rw [← flatten_map_getD, mapM_eq_some_map (g := fun step => ((drawnPixel tile step).map fun pixel =>
    ((PCCCodec.addPixel frame.params inverseRotate tile frames pixel).getD []).map
      Prod.fst).getD [])]
  · rfl
  intro step hstep
  obtain ⟨⟨patch, i⟩, u, v⟩ := step
  obtain ⟨hpatch, hu, hv⟩ := mem_depthSteps.mp hstep
  have hcoded := (hplaced.coded.patches patch (List.mem_of_getElem? hpatch)).1
  obtain ⟨hsome, hnone⟩ := hplaced.coded.drawnPixel_spec hresolution hstep
  obtain ⟨d, hd⟩ := hcoded.exists_depth 0 hu hv
  unfold GeometryTile.depthPoints
  dsimp only
  rw [hd, Option.bind_eq_bind, Option.bind_some]
  cases hpixel : drawnPixel tile ((patch, i), (u, v)) with
  | none =>
    have hinfinite : ¬d < infiniteDepth := by
      intro hfinite
      obtain ⟨pixel, hpixel'⟩ := hnone ⟨hu, hv, d, hd, hfinite⟩
      rw [hpixel] at hpixel'
      cases hpixel'
    rw [if_neg hinfinite]
    rfl
  | some pixel =>
    obtain ⟨hdrawn, rfl, rfl, rfl⟩ := hsome pixel hpixel
    obtain ⟨hin, -, patch', hpatch', -, hdepth, hdepths⟩ :=
      hdrawn.spec hresolution hplaced.coded
    obtain rfl := Option.some.inj (hpatch.symm.trans hpatch')
    obtain ⟨-, -, d', hd', hfinite⟩ := hdepth
    obtain rfl := Option.some.inj (hd.symm.trans hd')
    obtain ⟨depths, points, hpoints, hadd, hdepthsEq⟩ := exists_addPixel hmap inverseRotate htile
      himages hframes hin hpatch (hu.trans_le hcoded.columns) (hv.trans_le hcoded.rows)
    rw [if_pos hfinite, mapM_eq_some_map (g := fun mapIndex =>
      (depthOf tile mapIndex pixel).toNat) fun mapIndex _ => by rw [(hdepths mapIndex).1]; rfl,
      ← hdepthsEq hdrawn, Option.bind_eq_bind, Option.bind_some, hpoints, Option.map_some,
      Option.getD_some, hadd, Option.getD_some, List.map_map]
    rfl

/-- The points of a tile that the decoder generates: those of all depths, and others only if an
occupancy sample stands for several pixels. -/
theorem exists_regularPoints {occupancyMap : List ℕ} (hmap : frame.Maps frame.tiles occupancyMap)
    (hvideo : frame.ShownBy video) (inverseRotate : ℕ → PCCPoint3D → PCCPoint3D)
    (htile : tile ∈ frame.tiles) {images frames : List PCCImageGeometry}
    (himages : frame.params.maps.mapM (PCCEncoder.generateIntraImage frame.toGeometryFrame) =
      some images)
    (hframes : List.Forall₂ (Padded frame occupancyMap) images frames) :
    ∃ entries points added,
      PCCCodec.regularPoints frame.params inverseRotate tile video frames = some entries ∧
      tile.points frame.params inverseRotate = some points ∧
      (entries.map Prod.fst).Perm (points ++ added) ∧
      (frame.params.occupancyPrecision = 1 → added = []) := by
  obtain ⟨blockToPatch, tileMap, pixels, htable, hupscale, hpixels, hspec, hdrawn, hnodup, hone⟩ :=
    exists_decodedPixels hvideo htile
  have hplaced := frame.placed tile htile
  have hmem : ∀ {pixel}, pixel ∈ drawnPixels tile ↔
      Drawn tile frame.params.occupancyResolution pixel :=
    mem_drawnPixels frame.resolution hplaced.coded
  -- the pixels of the decoder are those of the encoder and some more
  have hdrawnNodup : (drawnPixels tile).Nodup :=
    (nodup_drawnPixels frame.resolution hplaced.coded).of_map
  have hsubset : drawnPixels tile ⊆ pixels := fun pixel hpixel => hdrawn pixel (hmem.mp hpixel)
  obtain ⟨drawn, hdrawnPerm, hsub⟩ := hdrawnNodup.subperm hsubset
  obtain ⟨rest, hrest⟩ := hsub.exists_perm_append
  have hpixelsPerm : pixels.Perm (drawnPixels tile ++ rest) := hrest.trans (hdrawnPerm.append_right _)
  have hentries := mapM_eq_some_map (l := pixels)
    (f := PCCCodec.addPixel frame.params inverseRotate tile frames)
    (g := fun pixel => (PCCCodec.addPixel frame.params inverseRotate tile frames pixel).getD [])
    fun pixel hpixel => by
      obtain ⟨hin, patch, hpatch, hu, hv⟩ := hspec pixel hpixel
      obtain ⟨depths, points, -, hadd, -⟩ :=
        exists_addPixel hmap inverseRotate htile himages hframes hin hpatch hu hv
      rw [hadd]
      rfl
  have hpoints : ∀ l : List PatchPixel, (l.map fun pixel =>
      (PCCCodec.addPixel frame.params inverseRotate tile frames pixel).getD []).flatten.map
        Prod.fst = l.flatMap fun pixel =>
      ((PCCCodec.addPixel frame.params inverseRotate tile frames pixel).getD []).map Prod.fst := by
    intro l
    rw [List.map_flatten, List.map_map]
    rfl
  have hrun : PCCCodec.regularPoints frame.params inverseRotate tile video frames =
      some (pixels.map fun pixel =>
        (PCCCodec.addPixel frame.params inverseRotate tile frames pixel).getD []).flatten := by
    unfold PCCCodec.regularPoints
    rw [htable, Option.bind_eq_bind, Option.bind_some, hupscale, Option.bind_eq_bind,
      Option.bind_some, hpixels, Option.bind_eq_bind, Option.bind_some, hentries]
    rfl
  refine ⟨_, _, rest.flatMap fun pixel =>
    ((PCCCodec.addPixel frame.params inverseRotate tile frames pixel).getD []).map Prod.fst,
    hrun, points_eq hmap inverseRotate htile himages hframes, ?_, fun hprecision => ?_⟩
  · rw [hpoints, ← List.flatMap_append]
    exact hpixelsPerm.flatMap_right _
  · have hle := (hnodup.of_map.subperm fun pixel hpixel =>
      hmem.mpr (hone hprecision pixel hpixel)).length_le
    rw [hpixelsPerm.length_eq, List.length_append] at hle
    rw [List.length_eq_zero_iff.mp (show rest.length = 0 by omega), List.flatMap_nil]

variable (frame)

/-- The maps and the pictures of the encoder. -/
theorem exists_pictures :
    ∃ occupancyMap video images,
      PCCEncoder.generateOccupancyMap frame.toGeometryFrame = some occupancyMap ∧
      PCCEncoder.generateOccupancyMapVideo frame.params frame.width frame.height occupancyMap =
        some video ∧
      frame.params.maps.mapM (PCCEncoder.generateIntraImage frame.toGeometryFrame) =
        some images ∧
      frame.Maps frame.tiles occupancyMap ∧ frame.ShownBy video := by
  obtain ⟨occupancyMap, hrun, hmap⟩ := frame.exists_generateOccupancyMap
  obtain ⟨video, hvideo, hsize, hchannel⟩ := exists_generateOccupancyMapVideo hmap
  obtain ⟨images, himages⟩ := exists_mapM_eq_some (l := frame.params.maps) fun mapIndex _ =>
    (frame.exists_generateIntraImage mapIndex).imp fun _ h => h.1
  exact ⟨occupancyMap, video, images, hrun, hvideo, himages, hmap, hsize.1, hsize.2, hchannel⟩

/-- The encoder has the occupancy video and the pictures of the maps, and from these, however the
places without occupancy are padded, the decoder generates in every tile the points of all its
depths, each once, and no other points if the precision is one. -/
theorem regularPoints_perm (inverseRotate : ℕ → PCCPoint3D → PCCPoint3D) :
    ∃ occupancyMap video images,
      PCCEncoder.generateOccupancyMap frame.toGeometryFrame = some occupancyMap ∧
      PCCEncoder.generateOccupancyMapVideo frame.params frame.width frame.height occupancyMap =
        some video ∧
      frame.params.maps.mapM (PCCEncoder.generateIntraImage frame.toGeometryFrame) =
        some images ∧
      ∀ frames, List.Forall₂ (Padded frame occupancyMap) images frames →
        ∀ tile ∈ frame.tiles, ∃ entries points added,
          PCCCodec.regularPoints frame.params inverseRotate tile video frames = some entries ∧
          tile.points frame.params inverseRotate = some points ∧
          (entries.map Prod.fst).Perm (points ++ added) ∧
          (frame.params.occupancyPrecision = 1 → added = []) := by
  obtain ⟨occupancyMap, video, images, hrun, hvideo, himages, hmap, hshown⟩ :=
    frame.exists_pictures
  exact ⟨occupancyMap, video, images, hrun, hvideo, himages, fun frames hframes tile htile =>
    exists_regularPoints hmap hshown inverseRotate htile himages hframes⟩

end CodedGeometry

/-- Two by two pixels in one block, whose first corner has the tangents 3 and 2. -/
def blockPatch (place : PatchPlacement) (projectionMode d1 : ℕ) (near far : List ℤ) :
    DepthPatch where
  toPatchPlacement := place
  occupancyResolution := 2
  u1 := 3
  v1 := 2
  d1 := d1
  projectionMode := projectionMode
  sizeU := 2
  sizeV := 2
  depth := ![near, far]

theorem blockPatch_coded {place : PatchPlacement} {projectionMode d1 : ℕ} {near far : List ℤ}
    (hplace : place.sizeU0 = 1 ∧ place.sizeV0 = 1) (hd1 : d1 < 2 ^ 14)
    (hlength : near.length = 4)
    (hboth : near.map (fun d => decide (d < infiniteDepth)) =
      far.map fun d => decide (d < infiniteDepth))
    (hnear : ∀ d ∈ near, d < infiniteDepth → 0 ≤ d ∧ d < 2 ^ 8)
    (hfar : ∀ d ∈ far, d < infiniteDepth → 0 ≤ d ∧ d < 2 ^ 8) :
    (blockPatch place projectionMode d1 near far).Coded 2 8 where
  resolution_eq := rfl
  bits_pos := by decide
  columns := by
    change 2 ≤ place.sizeU0 * 2
    omega
  rows := by
    change 2 ≤ place.sizeV0 * 2
    omega
  length_eq := by
    have hsame := congrArg List.length hboth
    rw [List.length_map, List.length_map] at hsame
    intro mapIndex
    match mapIndex with
    | 0 => exact hlength
    | 1 => exact hsame.symm.trans hlength
  both := by
    intro pixel d d' h h'
    have hsame := congrArg (fun l => l[pixel.2 * 2 + pixel.1]?) hboth
    change near[pixel.2 * 2 + pixel.1]? = some d at h
    change far[pixel.2 * 2 + pixel.1]? = some d' at h'
    simp only [List.getElem?_map, h, h', Option.map_some, Option.some.injEq] at hsame
    exact decide_eq_decide.mp hsame
  bounded := by
    intro mapIndex
    match mapIndex with
    | 0 => exact hnear
    | 1 => exact hfar
  axes := by
    change 0 < 3 ∧ 2 < 3 ∧ 1 < 3
    decide
  normal := by
    change d1 + 2 ^ 8 ≤ 2 ^ 15
    omega
  tangent := by
    intro u hu
    change u < place.sizeU0 * 2 at hu
    change u * 1 + 3 < 2 ^ 15
    omega
  bitangent := by
    intro v hv
    change v < place.sizeV0 * 2 at hv
    change v * 1 + 2 < 2 ^ 15
    omega

/-- The last pixel has no depth, and the first another one in the far map. -/
def nearPatch (place : PatchPlacement) : DepthPatch :=
  blockPatch place 0 4 [1, 2, 5, 32767] [3, 2, 5, 32767]

/-- The same points, seen from the other side. -/
def farPatch (place : PatchPlacement) : DepthPatch :=
  blockPatch place 1 12 [5, 6, 3, 32767] [7, 6, 3, 32767]

private theorem side_lt : 4 < 2 ^ 64 := by decide

def squareArea (leftTopX : ℕ) : TileArea where
  leftTopX := leftTopX
  leftTopY := 0
  width := 4
  height := 4
  width_lt := side_lt
  height_lt := side_lt

/-- Two patches in the diagonal blocks of a tile, of which the second is turned. -/
def cornerTile : GeometryTile where
  toTileArea := squareArea 0
  patches :=
    [nearPatch { u0 := 0, v0 := 0, sizeU0 := 1, sizeV0 := 1 },
      farPatch { u0 := 1, v0 := 1, sizeU0 := 1, sizeV0 := 1, patchOrientation := .swap }]
  geometry2dBitdepth := 8

def edgeTile : GeometryTile where
  toTileArea := squareArea 4
  patches :=
    [nearPatch { u0 := 1, v0 := 0, sizeU0 := 1, sizeV0 := 1, patchOrientation := .rot180 }]
  geometry2dBitdepth := 8

theorem covers_block_iff {place : PatchPlacement} {x y : ℕ}
    (hplace : place.sizeU0 = 1 ∧ place.sizeV0 = 1) :
    PackingPatch.Covers place x y ↔ place.blockPosition 0 0 = some (x, y) := by
  constructor
  · rintro ⟨u, hu, v, hv, hpos⟩
    obtain rfl : u = 0 := by omega
    obtain rfl : v = 0 := by omega
    exact hpos
  · intro hpos
    exact ⟨0, by omega, 0, by omega, hpos⟩

theorem inTile_block {leftTopX x y : ℕ} {place : PatchPlacement}
    (hplace : place.sizeU0 = 1 ∧ place.sizeV0 = 1) (hpos : place.blockPosition 0 0 = some (x, y))
    (hx : x < 2) (hy : y < 2) : InTile (squareArea leftTopX) 2 place := by
  intro u hu v hv
  obtain rfl : u = 0 := by omega
  obtain rfl : v = 0 := by omega
  refine ⟨x, y, hpos, ?_, ?_, ?_⟩
  · change (x + 1) * 2 ≤ 4
    omega
  · change (y + 1) * 2 ≤ 4
    omega
  · change x + 4 / 2 * y < 2 ^ 31
    omega

theorem edgeTile_coded : edgeTile.Coded 2 where
  patches := by
    intro patch hpatch
    obtain rfl := List.mem_singleton.mp hpatch
    exact ⟨blockPatch_coded ⟨rfl, rfl⟩ (by decide) rfl (by decide) (by decide) (by decide),
      inTile_block (x := 1) (y := 0) ⟨rfl, rfl⟩ rfl (by decide) (by decide), by decide, by decide⟩
  apart := List.pairwise_singleton _ _

theorem cornerTile_coded : cornerTile.Coded 2 where
  patches := by
    intro patch hpatch
    rcases List.mem_pair.mp hpatch with rfl | rfl
    · exact ⟨blockPatch_coded ⟨rfl, rfl⟩ (by decide) rfl (by decide) (by decide) (by decide),
        inTile_block (x := 0) (y := 0) ⟨rfl, rfl⟩ rfl (by decide) (by decide), by decide, by decide⟩
    · exact ⟨blockPatch_coded ⟨rfl, rfl⟩ (by decide) rfl (by decide) (by decide) (by decide),
        inTile_block (x := 1) (y := 1) ⟨rfl, rfl⟩ rfl (by decide) (by decide), by decide, by decide⟩
  apart := by
    refine List.pairwise_pair.mpr fun u v x y hdepth hpos hcovers => ?_
    have hu : u / 2 = 0 := Nat.div_eq_of_lt hdepth.1
    have hv : v / 2 = 0 := Nat.div_eq_of_lt hdepth.2.1
    rw [hu, hv] at hpos
    have hcorner : some (0, 0) = some (x, y) := hpos
    have hother : some (1, 1) = some (x, y) := (covers_block_iff ⟨rfl, rfl⟩).mp hcovers
    exact absurd (hcorner.trans hother.symm) (by decide)

/-- Two tiles side by side. -/
def tilePair : GeometryFrame where
  width := 8
  height := 4
  tiles := [cornerTile, edgeTile]

theorem tilePair_placed : ∀ tile ∈ tilePair.tiles, tile.Placed 2 tilePair := by
  intro tile htile
  rcases List.mem_pair.mp htile with rfl | rfl
  · exact ⟨by decide, by decide, by decide, by decide, by decide, by decide, cornerTile_coded⟩
  · exact ⟨by decide, by decide, by decide, by decide, by decide, by decide, edgeTile_coded⟩

def codedTiles (occupancyPrecision mapCountMinus1 : ℕ) (removeDuplicatePoints : Bool)
    (hprecision : occupancyPrecision ∣ 2) : CodedGeometry where
  toGeometryFrame := tilePair
  params :=
    { occupancyResolution := 2
      occupancyPrecision := occupancyPrecision
      mapCountMinus1 := mapCountMinus1
      removeDuplicatePoints := removeDuplicatePoints }
  precision := Nat.pos_of_dvd_of_pos hprecision Nat.two_pos
  divides := hprecision
  resolution := Nat.two_pos
  offset := Nat.succ_pos 255
  placed := tilePair_placed
  apart := List.pairwise_pair.mpr (Or.inl (by decide))

/-- Grey where there is no occupancy. -/
def padGrey (occupancyMap : List ℕ) (image : PCCImageGeometry) : PCCImageGeometry :=
  { image with
    channel := fun place =>
      if place.1 < 8 ∧ occupancyMap.getD (place.2 * 8 + place.1) 0 ≠ 0 then image.channel place
      else 128 }

/-- The occupancy map of the two tiles. -/
def tilePairMap : List ℕ :=
  [1, 1, 0, 0, 0, 0, 0, 1,
    1, 0, 0, 0, 0, 0, 1, 1,
    0, 0, 1, 1, 0, 0, 0, 0,
    0, 0, 1, 0, 0, 0, 0, 0]

theorem generateOccupancyMap_tilePair :
    PCCEncoder.generateOccupancyMap tilePair = some tilePairMap := rfl

theorem padGrey_padded (frame : CodedGeometry) (hframe : frame.toGeometryFrame = tilePair)
    {mapIndex : Fin 2} {image : PCCImageGeometry}
    (himage : PCCEncoder.generateIntraImage tilePair mapIndex = some image) :
    Padded frame tilePairMap image (padGrey tilePairMap image) where
  width_eq := rfl
  height_eq := rfl
  kept := by
    intro X hX Y hY occupancy hoccupancy hne
    rw [hframe] at hX hoccupancy
    have hplace : X < 8 ∧ tilePairMap.getD (Y * 8 + X) 0 ≠ 0 := by
      refine ⟨hX, ?_⟩
      change tilePairMap[Y * 8 + X]? = some occupancy at hoccupancy
      rw [List.getD_eq_getElem?_getD, hoccupancy]
      exact hne
    have hchannel : (padGrey tilePairMap image).channel (X, Y) = image.channel (X, Y) := if_pos hplace
    unfold PCCImageGeometry.getValue
    rw [hchannel]
    rfl
  bounded := by
    intro tile htile place
    rw [hframe] at htile
    have hbits : tile.geometry2dBitdepth = 8 := by
      rcases List.mem_pair.mp htile with rfl | rfl <;> rfl
    rw [hbits]
    have hall : ∀ i < 32, (image.channel (i % 8, i / 8)).toNat < 2 ^ 8 := by
      have hvalues : (PCCEncoder.generateIntraImage tilePair mapIndex).all (fun image =>
          (List.range 32).all fun i => decide ((image.channel (i % 8, i / 8)).toNat < 2 ^ 8)) =
            true := by
        match mapIndex with
        | 0 => rfl
        | 1 => rfl
      rw [himage] at hvalues
      simpa using hvalues
    unfold padGrey
    dsimp only
    split_ifs with hplace
    · have hlt : place.2 * 8 + place.1 < 32 := by
        by_contra hle
        refine hplace.2 ?_
        rw [List.getD_eq_getElem?_getD, List.getElem?_eq_none (Nat.le_of_not_lt hle)]
        rfl
      have hvalue := hall _ hlt
      rwa [Nat.mul_comm, Nat.mul_add_mod, Nat.mod_eq_of_lt hplace.1,
        Nat.mul_add_div (by decide), Nat.div_eq_of_lt hplace.1, Nat.add_zero] at hvalue
    · decide


theorem padGrey_forall₂ (frame : CodedGeometry) (hframe : frame.toGeometryFrame = tilePair)
    {maps : List (Fin 2)} {images : List PCCImageGeometry}
    (himages : maps.mapM (PCCEncoder.generateIntraImage tilePair) = some images) :
    List.Forall₂ (Padded frame tilePairMap) images (images.map (padGrey tilePairMap)) := by
  rw [List.forall₂_map_right_iff, List.forall₂_same]
  intro image himage
  obtain ⟨mapIndex, -, hrun⟩ := exists_mem_of_mapM_eq_some himages himage
  exact padGrey_padded frame hframe hrun

/-- From padded pictures the decoder generates the points of both patches, those of two depths
twice. -/
theorem regularPoints_codedTiles :
    ∃ occupancyMap video images entries,
      PCCEncoder.generateOccupancyMap tilePair = some occupancyMap ∧
      PCCEncoder.generateOccupancyMapVideo (codedTiles 1 1 true (by decide)).params 8 4
        occupancyMap = some video ∧
      [0, 1].mapM (PCCEncoder.generateIntraImage tilePair) = some images ∧
      PCCCodec.regularPoints (codedTiles 1 1 true (by decide)).params (fun _ point => point)
        cornerTile video (images.map (padGrey occupancyMap)) = some entries ∧
      (entries.map Prod.fst).Perm
        [⟨5, 2, 3⟩, ⟨7, 2, 3⟩, ⟨6, 2, 4⟩, ⟨9, 3, 3⟩, ⟨7, 2, 3⟩, ⟨5, 2, 3⟩, ⟨6, 2, 4⟩,
          ⟨9, 3, 3⟩] := by
  obtain ⟨occupancyMap, video, images, hmap, hvideo, himages, hpoints⟩ :=
    (codedTiles 1 1 true (by decide)).regularPoints_perm fun _ point => point
  obtain rfl := Option.some.inj (generateOccupancyMap_tilePair.symm.trans hmap)
  obtain ⟨entries, points, added, hrun, hdepths, hperm, hone⟩ :=
    hpoints _ (padGrey_forall₂ _ rfl himages) cornerTile List.mem_cons_self
  refine ⟨tilePairMap, video, images, entries, hmap, hvideo, himages, hrun, ?_⟩
  rw [hone rfl, List.append_nil] at hperm
  have hvalues : cornerTile.points (codedTiles 1 1 true (by decide)).params (fun _ point => point) =
    some [⟨5, 2, 3⟩, ⟨7, 2, 3⟩, ⟨6, 2, 4⟩, ⟨9, 3, 3⟩, ⟨7, 2, 3⟩, ⟨5, 2, 3⟩, ⟨6, 2, 4⟩,
      ⟨9, 3, 3⟩] := rfl
  obtain rfl := Option.some.inj (hdepths.symm.trans hvalues)
  exact hperm

end V3C

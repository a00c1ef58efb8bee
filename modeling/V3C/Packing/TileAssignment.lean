import V3C.Packing.WideCanvas

/-! The patches of a frame are distributed over three tiles, the largest ones first. -/
namespace V3C

/-- A patch of the segmentation, with what its tile adds to it. -/
structure SegmentPatch extends PackingPatch where
  occupancyResolution : ℕ := 16
  eomCount : ℕ := 0
  tileIndex : ℕ := 0
  frameIndex : ℕ := 0
  deriving DecidableEq

/-- Which patches of a tile have how many points between their layers. -/
structure SegmentEomPatch where
  memberPatches : List ℕ := []
  eomCountPerPatch : List ℕ := []
  eomCount : ℕ := 0
  occupancyResolution : ℕ := 0
  frameIndex : ℕ := 0
  tileIndex : ℕ := 0
  deriving DecidableEq

structure SegmentTile where
  width : ℕ
  height : ℕ
  tileIndex : ℕ
  patches : List SegmentPatch
  eomPatches : List SegmentEomPatch
  deriving DecidableEq

structure SegmentParams where
  minimumImageWidth : ℕ
  occupancyResolution : ℕ
  enhancedOccupancyMapCode : Bool

namespace SegmentPatch

def gt (lhs rhs : SegmentPatch) : Prop := lhs.toPackingPatch.gt rhs.toPackingPatch

instance (lhs rhs : SegmentPatch) : Decidable (lhs.gt rhs) :=
  inferInstanceAs (Decidable (PackingPatch.gt _ _))

/-- The larger side, in `size_t` pixels. -/
def side (patch : SegmentPatch) (occupancyResolution : ℕ) : ℕ :=
  max (patch.sizeU0 * occupancyResolution % 2 ^ 64) (patch.sizeV0 * occupancyResolution % 2 ^ 64)

end SegmentPatch

/-- A `size_t` value in double precision: 53 bits, and ties to even. -/
def inDoublePrecision (value : ℕ) : ℕ :=
  let unit := 2 ^ (Nat.log2 value - 52)
  let low := value / unit * unit
  if 2 * (value % unit) < unit ∨ 2 * (value % unit) = unit ∧ value / unit % 2 = 0 then low
  else low + unit

/-- A tile that patches are put into. -/
structure TileFilling where
  patches : List SegmentPatch := []
  height : ℕ
  eomPatch : SegmentEomPatch := {}

/-- The body of either loop, for a patch and the position that it is taken to have. -/
def TileFilling.push (params : SegmentParams) (frameIndex tileIndex : ℕ) (filling : TileFilling)
    (patchIdx : ℕ) (patch : SegmentPatch) : TileFilling where
  patches := filling.patches ++ [{ patch with tileIndex, frameIndex }]
  height := max filling.height (patch.side params.occupancyResolution)
  eomPatch :=
    if params.enhancedOccupancyMapCode then { filling.eomPatch with
      memberPatches := filling.eomPatch.memberPatches ++ [patchIdx]
      eomCountPerPatch := filling.eomPatch.eomCountPerPatch ++ [patch.eomCount]
      eomCount := (filling.eomPatch.eomCount + patch.eomCount) % 2 ^ 64 }
    else filling.eomPatch

def TileFilling.tile (params : SegmentParams) (frameIndex tileIndex width : ℕ)
    (filling : TileFilling) : SegmentTile where
  width := width
  height := filling.height
  tileIndex := tileIndex
  patches := filling.patches
  eomPatches :=
    if params.enhancedOccupancyMapCode then
      [{ filling.eomPatch with
        occupancyResolution := params.occupancyResolution, frameIndex, tileIndex }]
    else []

namespace PCCEncoder

/-- The smallest side of all patches, in blocks. -/
def minSize0 : List (List SegmentPatch) → Option ℕ
  | [] => some 0
  | patches :: frames => do
    let last ← patches.getLast?
    some ((patches :: frames).flatten.foldl
      (fun size patch => min size (min patch.sizeU0 patch.sizeV0)) (min last.sizeU0 last.sizeV0))

/-- `tile0Width` and the last value of `minimumTileWidth`. The double `0.1` is 3602879701896397 of
2^55. A difference of `size_t` values may wrap, and 2^64 is no value that comes back from double
precision. -/
def tileWidths (params : SegmentParams) (minSize0 : ℕ) : Option (ℕ × ℕ) :=
  let tenth := inDoublePrecision (inDoublePrecision params.minimumImageWidth * 3602879701896397)
  let minimumTileWidth := max ((tenth + 2 ^ 61 - 1) / 2 ^ 61 * 64)
    (minSize0 * params.occupancyResolution % 2 ^ 64)
  let difference := (params.minimumImageWidth + 2 ^ 64 - minimumTileWidth) % 2 ^ 64
  let tile0Width := (inDoublePrecision difference + 63) / 64 * 64
  if tile0Width < 2 ^ 64 then
    some (tile0Width, (params.minimumImageWidth + 2 ^ 64 - tile0Width) % 2 ^ 64)
  else none

/-- The patches of the first tile, at their positions in the list. -/
def fillTile0 (params : SegmentParams) (frameIndex : ℕ) (patches : List SegmentPatch) :
    TileFilling :=
  (patches.zipIdx).foldl
    (fun filling patch => filling.push params frameIndex 0 patch.2 patch.1) { height := 0 }

/-- Narrower than the column on the right. -/
def isNarrow (minimumTileWidth : ℕ) (patch : SegmentPatch) : Bool :=
  patch.side patch.occupancyResolution < minimumTileWidth

/-- The loop over the other patches, each behind the last one of its tile. -/
def fillTiles (params : SegmentParams) (minimumTileWidth frameIndex : ℕ)
    (fillings : TileFilling × TileFilling) (patches : List SegmentPatch) :
    TileFilling × TileFilling :=
  patches.foldl (fun fillings patch =>
    if isNarrow minimumTileWidth patch then
      (fillings.1.push params frameIndex 1 fillings.1.patches.length patch, fillings.2)
    else
      (fillings.1, fillings.2.push params frameIndex 2 fillings.2.patches.length patch)) fillings

/-- The last patch of one tile goes to another one that has none. -/
def moveLast (srcTile desTile : List SegmentPatch) :
    Option (List SegmentPatch × List SegmentPatch) := do
  let last ← srcTile.getLast?
  some (srcTile.dropLast, desTile ++ [last])

/-- The patches of the second and of the third tile, none of which is to be empty. -/
def avoidEmptyTile (tile1 tile2 : List SegmentPatch) :
    Option (List SegmentPatch × List SegmentPatch) :=
  if tile1.length = 0 ∨ tile2.length = 0 then
    if tile1.length = 0 then (moveLast tile2 tile1).map Prod.swap else moveLast tile1 tile2
  else some (tile1, tile2)

/-- The tiles of a frame, and the heights that the second and the third one leave to the next
frame. A tile without a size ends the program. -/
def segmentFrame (params : SegmentParams) (widths : ℕ × ℕ) (frameIndex : ℕ) (tileHeight : ℕ × ℕ)
    (patches : List SegmentPatch) : Option (List SegmentTile × (ℕ × ℕ)) := do
  let filling0 := fillTile0 params frameIndex (patches.take 3)
  let fillings := fillTiles params widths.2 frameIndex
    ({ height := tileHeight.1 }, { height := tileHeight.2 }) (patches.drop 3)
  let (patches1, patches2) ← avoidEmptyTile fillings.1.patches fillings.2.patches
  let tiles := [filling0.tile params frameIndex 0 widths.1,
    { fillings.1 with patches := patches1 }.tile params frameIndex 1 widths.2,
    { fillings.2 with patches := patches2 }.tile params frameIndex 2 widths.1]
  if tiles.all fun tile => tile.width ≠ 0 && tile.height ≠ 0 then
    some (tiles, (fillings.1.height, fillings.2.height))
  else none

def segmentFrames (params : SegmentParams) (widths : ℕ × ℕ) :
    ℕ → ℕ × ℕ → List (List SegmentPatch) → Option (List (List SegmentTile))
  | _, _, [] => some []
  | frameIndex, tileHeight, patches :: frames => do
    let (tiles, tileHeight) ← segmentFrame params widths frameIndex tileHeight patches
    let rest ← segmentFrames params widths (frameIndex + 1) tileHeight frames
    some (tiles :: rest)

/-- The patches are sorted in the loop that looks for the smallest side, and once more in the
loop that makes the tiles. The raw points, which have a tile of their own, are left out. -/
def generateTilesFromSegments (gt : StdSort SegmentPatch.gt) (params : SegmentParams)
    (frames : List (List SegmentPatch)) : Option (List (List SegmentTile)) := do
  let minSize0 ← minSize0 (frames.map gt.sort)
  let widths ← tileWidths params minSize0
  segmentFrames params widths 0 (0, 0) (frames.map fun patches => gt.sort (gt.sort patches))

end PCCEncoder

/-! ### What a tile has of its patches -/

namespace SegmentPatch

/-- A patch without what its tile adds to it. -/
def unplaced (patch : SegmentPatch) : SegmentPatch := { patch with tileIndex := 0, frameIndex := 0 }

end SegmentPatch

/-- The members of an EOM patch are the patches of its tile, with their counts. -/
structure SegmentEomPatch.Describes (eomPatch : SegmentEomPatch) (patches : List SegmentPatch) :
    Prop where
  members : eomPatch.memberPatches = List.range patches.length
  counts : eomPatch.eomCountPerPatch = patches.map SegmentPatch.eomCount
  total : eomPatch.eomCount = (patches.map SegmentPatch.eomCount).sum % 2 ^ 64

/-- Three tiles that share the patches of a frame. -/
structure TilesAssigned (params : SegmentParams) (patches : List SegmentPatch)
    (tiles : List SegmentTile) : Prop where
  three : tiles.length = 3
  perm : ((tiles.flatMap SegmentTile.patches).map SegmentPatch.unplaced).Perm
    (patches.map SegmentPatch.unplaced)
  nonempty : 5 ≤ patches.length → ∀ tile ∈ tiles, tile.patches ≠ []
  tileIndex : ∀ (k : ℕ) (tile : SegmentTile), tiles[k]? = some tile →
    ∀ patch ∈ tile.patches, patch.tileIndex = k
  eomPatches : ∀ tile ∈ tiles,
    tile.eomPatches.length = if params.enhancedOccupancyMapCode then 1 else 0
  describes : ∀ tile ∈ tiles, ∀ eomPatch ∈ tile.eomPatches, eomPatch.Describes tile.patches

theorem TilesAssigned.congr {params : SegmentParams} {patches patches' : List SegmentPatch}
    {tiles : List SegmentTile} (h : TilesAssigned params patches tiles)
    (hperm : patches.Perm patches') : TilesAssigned params patches' tiles where
  three := h.three
  perm := h.perm.trans (hperm.map _)
  nonempty hfive := h.nonempty (hperm.length_eq ▸ hfive)
  tileIndex := h.tileIndex
  eomPatches := h.eomPatches
  describes := h.describes

namespace TileFilling

variable {params : SegmentParams} {frameIndex tileIndex : ℕ}

/-- Patches one behind the other, each at the position that it has in the tile. -/
def extend (params : SegmentParams) (frameIndex tileIndex : ℕ) (filling : TileFilling)
    (patches : List SegmentPatch) : TileFilling :=
  patches.foldl (fun filling patch =>
    filling.push params frameIndex tileIndex filling.patches.length patch) filling

theorem extend_patches (patches : List SegmentPatch) : ∀ filling : TileFilling,
    (filling.extend params frameIndex tileIndex patches).patches =
      filling.patches ++ patches.map fun patch => { patch with tileIndex, frameIndex } := by
  induction patches with
  | nil => exact fun filling => (List.append_nil _).symm
  | cons patch patches ih =>
    intro filling
    change ((filling.push params frameIndex tileIndex filling.patches.length patch).extend params
      frameIndex tileIndex patches).patches = _
    rw [ih, push, List.append_assoc]
    rfl

theorem extend_height (patches : List SegmentPatch) : ∀ filling : TileFilling,
    (filling.extend params frameIndex tileIndex patches).height =
      (patches.map fun patch => patch.side params.occupancyResolution).foldl max filling.height := by
  induction patches with
  | nil => exact fun filling => rfl
  | cons patch patches ih => exact fun filling => ih _

/-- The EOM patch of a tile that is being filled. -/
def Described (params : SegmentParams) (filling : TileFilling) : Prop :=
  params.enhancedOccupancyMapCode = true → filling.eomPatch.Describes filling.patches

theorem Described.push {filling : TileFilling} (h : filling.Described params)
    (patch : SegmentPatch) :
    (filling.push params frameIndex tileIndex filling.patches.length patch).Described params := by
  intro henhanced
  have hbefore := h henhanced
  unfold TileFilling.push
  rw [if_pos henhanced]
  constructor
  · rw [hbefore.members, List.length_append, List.length_singleton, List.range_succ]
  · rw [hbefore.counts, List.map_append]
    rfl
  · rw [hbefore.total, List.map_append, List.sum_append, Nat.mod_add_mod]
    rfl

theorem Described.extend (patches : List SegmentPatch) : ∀ {filling : TileFilling},
    filling.Described params →
      (filling.extend params frameIndex tileIndex patches).Described params := by
  induction patches with
  | nil => exact fun h => h
  | cons patch patches ih => exact fun h => ih (h.push patch)

theorem described_empty (height : ℕ) : Described params { height } :=
  fun _ => ⟨rfl, rfl, rfl⟩

end TileFilling

namespace PCCEncoder

variable {params : SegmentParams}

theorem fillTile0_eq (frameIndex : ℕ) (patches : List SegmentPatch) :
    fillTile0 params frameIndex patches =
      TileFilling.extend params frameIndex 0 { height := 0 } patches := by
  have hall : ∀ filling : TileFilling, (patches.zipIdx filling.patches.length).foldl
      (fun filling patch => filling.push params frameIndex 0 patch.2 patch.1) filling =
        filling.extend params frameIndex 0 patches := by
    induction patches with
    | nil => exact fun filling => rfl
    | cons patch patches ih =>
      intro filling
      have hnext := ih (filling.push params frameIndex 0 filling.patches.length patch)
      rw [List.zipIdx_cons, List.foldl_cons]
      rw [TileFilling.push, List.length_append] at hnext
      exact hnext
  exact hall { height := 0 }

/-- The loop is one over the narrow patches and one over the others. -/
theorem fillTiles_eq (minimumTileWidth frameIndex : ℕ) (patches : List SegmentPatch) :
    ∀ fillings : TileFilling × TileFilling,
      fillTiles params minimumTileWidth frameIndex fillings patches =
        (fillings.1.extend params frameIndex 1 (patches.filter (isNarrow minimumTileWidth)),
          fillings.2.extend params frameIndex 2
            (patches.filter fun patch => !isNarrow minimumTileWidth patch)) := by
  induction patches with
  | nil => exact fun fillings => rfl
  | cons patch patches ih =>
    intro fillings
    unfold fillTiles at ih ⊢
    rw [List.foldl_cons, ih]
    by_cases hnarrow : isNarrow minimumTileWidth patch = true
    · rw [if_pos hnarrow, List.filter_cons_of_pos hnarrow,
        List.filter_cons_of_neg (by rw [hnarrow]; decide)]
      rfl
    · rw [if_neg hnarrow, List.filter_cons_of_neg hnarrow,
        List.filter_cons_of_pos (by rw [Bool.not_eq_true] at hnarrow; rw [hnarrow]; decide)]
      rfl

/-! ### When the patches are assigned -/

/-- The patches behind the first three, as the two columns take them. -/
def narrowPatches (widths : ℕ × ℕ) (patches : List SegmentPatch) : List SegmentPatch :=
  (patches.drop 3).filter (isNarrow widths.2)

def widePatches (widths : ℕ × ℕ) (patches : List SegmentPatch) : List SegmentPatch :=
  (patches.drop 3).filter fun patch => !isNarrow widths.2 patch

/-- The height that a tile has after patches were put into it. -/
def heightAfter (params : SegmentParams) (height : ℕ) (patches : List SegmentPatch) : ℕ :=
  (patches.map fun patch => patch.side params.occupancyResolution).foldl max height

/-- Both heights that a frame leaves to the next one. -/
def heightsAfter (params : SegmentParams) (widths tileHeight : ℕ × ℕ)
    (patches : List SegmentPatch) : ℕ × ℕ :=
  (heightAfter params tileHeight.1 (narrowPatches widths patches),
    heightAfter params tileHeight.2 (widePatches widths patches))

theorem heightAfter_pos {height : ℕ} {patches : List SegmentPatch} :
    0 < heightAfter params height patches ↔
      0 < height ∨ ∃ patch ∈ patches, 0 < patch.side params.occupancyResolution := by
  unfold heightAfter
  constructor
  · intro hpos
    by_contra hzero
    obtain ⟨hheight, hpatches⟩ := not_or.mp hzero
    have hlt : (patches.map fun patch =>
        patch.side params.occupancyResolution).foldl max height < 1 := by
      apply Codec.foldl_max_lt (Nat.lt_one_iff.mpr (Nat.eq_zero_of_not_pos hheight))
      intro side hside
      obtain ⟨patch, hpatch, rfl⟩ := List.mem_map.mp hside
      exact Nat.lt_one_iff.mpr (Nat.eq_zero_of_not_pos fun h => hpatches ⟨patch, hpatch, h⟩)
    omega
  · rintro (hheight | ⟨patch, hpatch, hside⟩)
    · exact hheight.trans_le (Codec.le_foldl_max (Or.inl rfl))
    · exact hside.trans_le (Codec.le_foldl_max (Or.inr (List.mem_map_of_mem hpatch)))

/-- The first tile gets a size, and each of the others a patch. -/
structure FrameDivided (params : SegmentParams) (widths : ℕ × ℕ) (patches : List SegmentPatch) :
    Prop where
  width0 : 0 < widths.1
  width1 : 0 < widths.2
  height0 : ∃ patch ∈ patches.take 3, 0 < patch.side params.occupancyResolution
  narrow : ∃ patch ∈ patches.drop 3, isNarrow widths.2 patch = true
  wide : ∃ patch ∈ patches.drop 3, isNarrow widths.2 patch = false

/-- The patches of a tile, with its index. -/
def inTile (frameIndex tileIndex : ℕ) (patches : List SegmentPatch) : List SegmentPatch :=
  patches.map fun patch => { patch with tileIndex, frameIndex }

/-- What the loop over the patches leaves of a tile. -/
def filled (params : SegmentParams) (frameIndex tileIndex height width : ℕ)
    (patches : List SegmentPatch) : SegmentTile :=
  (TileFilling.extend params frameIndex tileIndex { height } patches).tile params frameIndex
    tileIndex width

section

variable {widths tileHeight : ℕ × ℕ} {frameIndex tileIndex height width : ℕ}
  {patches : List SegmentPatch}

@[simp] theorem filled_patches : (filled params frameIndex tileIndex height width patches).patches =
    inTile frameIndex tileIndex patches :=
  TileFilling.extend_patches patches _

theorem filled_eomPatches :
    (filled params frameIndex tileIndex height width patches).eomPatches.length =
      if params.enhancedOccupancyMapCode then 1 else 0 := by
  unfold filled TileFilling.tile
  split_ifs <;> rfl

theorem filled_describes : ∀ eomPatch ∈
    (filled params frameIndex tileIndex height width patches).eomPatches,
    eomPatch.Describes (filled params frameIndex tileIndex height width patches).patches := by
  intro eomPatch heomPatch
  unfold filled TileFilling.tile at heomPatch
  by_cases henhanced : params.enhancedOccupancyMapCode = true
  · rw [if_pos henhanced, List.mem_singleton] at heomPatch
    have hdescribed : (TileFilling.extend params frameIndex tileIndex { height } patches).Described
        params := (TileFilling.described_empty height).extend patches
    replace hdescribed := hdescribed henhanced
    subst heomPatch
    exact ⟨hdescribed.members, hdescribed.counts, hdescribed.total⟩
  · rw [if_neg henhanced] at heomPatch
    cases heomPatch

@[simp] theorem filled_height : (filled params frameIndex tileIndex height width patches).height =
    heightAfter params height patches :=
  TileFilling.extend_height patches { height := height }

@[simp] theorem filled_width :
    (filled params frameIndex tileIndex height width patches).width = width := rfl

theorem inTile_eq_nil : inTile frameIndex tileIndex patches = [] ↔ patches = [] :=
  List.map_eq_nil_iff

theorem tileIndex_of_mem_inTile {patch : SegmentPatch}
    (h : patch ∈ inTile frameIndex tileIndex patches) : patch.tileIndex = tileIndex := by
  obtain ⟨original, -, rfl⟩ := List.mem_map.mp h
  rfl

theorem inTile_unplaced : (inTile frameIndex tileIndex patches).map SegmentPatch.unplaced =
    patches.map SegmentPatch.unplaced := by
  unfold inTile
  rw [List.map_map]
  rfl

/-- The three tiles of a frame whose columns both take patches. -/
def dividedTiles (params : SegmentParams) (widths : ℕ × ℕ) (frameIndex : ℕ) (tileHeight : ℕ × ℕ)
    (patches : List SegmentPatch) : List SegmentTile :=
  [filled params frameIndex 0 0 widths.1 (patches.take 3),
    filled params frameIndex 1 tileHeight.1 widths.2 (narrowPatches widths patches),
    filled params frameIndex 2 tileHeight.2 widths.1 (widePatches widths patches)]

theorem dividedTiles_assigned (hfirst : patches.take 3 ≠ [])
    (hnarrow : narrowPatches widths patches ≠ []) (hwide : widePatches widths patches ≠ []) :
    TilesAssigned params patches (dividedTiles params widths frameIndex tileHeight patches) where
  three := rfl
  perm := by
    have hsplit : (narrowPatches widths patches ++ widePatches widths patches).Perm
        (patches.drop 3) := List.filter_append_perm _ _
    simp only [dividedTiles, List.flatMap_cons, List.flatMap_nil, filled_patches, List.append_nil,
      List.map_append, inTile_unplaced]
    rw [← List.map_append, ← List.map_append]
    apply List.Perm.map
    have htake : (patches.take 3 ++ patches.drop 3).Perm patches := by
      rw [List.take_append_drop]
    exact (hsplit.append_left _).trans htake
  nonempty _ tile htile := by
    simp only [dividedTiles, List.mem_cons, List.not_mem_nil, or_false] at htile
    obtain rfl | rfl | rfl := htile
    · exact filled_patches ▸ inTile_eq_nil.not.mpr hfirst
    · exact filled_patches ▸ inTile_eq_nil.not.mpr hnarrow
    · exact filled_patches ▸ inTile_eq_nil.not.mpr hwide
  tileIndex k tile htile patch hpatch := by
    match k with
    | 0 | 1 | 2 =>
      simp only [dividedTiles, List.getElem?_cons_zero, List.getElem?_cons_succ,
        Option.some.injEq] at htile
      subst htile
      exact tileIndex_of_mem_inTile (filled_patches ▸ hpatch)
    | k + 3 => cases htile
  eomPatches tile htile := by
    simp only [dividedTiles, List.mem_cons, List.not_mem_nil, or_false] at htile
    obtain rfl | rfl | rfl := htile <;> exact filled_eomPatches
  describes tile htile := by
    simp only [dividedTiles, List.mem_cons, List.not_mem_nil, or_false] at htile
    obtain rfl | rfl | rfl := htile <;> exact filled_describes

/-- No tile is without a size. -/
def hasSizes (tiles : List SegmentTile) : Bool :=
  tiles.all fun tile => tile.width ≠ 0 && tile.height ≠ 0

theorem hasSizes_iff {tiles : List SegmentTile} :
    hasSizes tiles = true ↔ ∀ tile ∈ tiles, 0 < tile.width ∧ 0 < tile.height := by
  simp only [hasSizes, List.all_eq_true, Bool.and_eq_true, decide_eq_true_eq, ne_eq,
    Nat.pos_iff_ne_zero]

/-- The tiles of a frame, for the patches that the repair leaves in the columns. -/
theorem segmentFrame_eq : segmentFrame params widths frameIndex tileHeight patches =
    (avoidEmptyTile (inTile frameIndex 1 (narrowPatches widths patches))
      (inTile frameIndex 2 (widePatches widths patches))).bind fun repaired =>
        let tiles := [filled params frameIndex 0 0 widths.1 (patches.take 3),
          { filled params frameIndex 1 tileHeight.1 widths.2 (narrowPatches widths patches) with
            patches := repaired.1 },
          { filled params frameIndex 2 tileHeight.2 widths.1 (widePatches widths patches) with
            patches := repaired.2 }]
        if hasSizes tiles then some (tiles, heightsAfter params widths tileHeight patches)
        else none := by
  have hheight (tileIndex height width : ℕ) (patches : List SegmentPatch) :
      heightAfter params height patches =
        (filled params frameIndex tileIndex height width patches).height :=
    filled_height.symm
  unfold segmentFrame heightsAfter
  simp only [fillTile0_eq, fillTiles_eq, TileFilling.extend_patches]
  rw [hheight 1 tileHeight.1 widths.2, hheight 2 tileHeight.2 widths.1]
  rfl

theorem segmentFrame_left {tiles : List SegmentTile} {left : ℕ × ℕ}
    (h : segmentFrame params widths frameIndex tileHeight patches = some (tiles, left)) :
    left = heightsAfter params widths tileHeight patches := by
  rw [segmentFrame_eq] at h
  obtain ⟨repaired, -, htiles⟩ := Option.bind_eq_some_iff.mp h
  obtain ⟨-, htiles⟩ := Option.ite_none_right_eq_some.mp htiles
  exact (Prod.mk.inj (Option.some.inj htiles)).2.symm

theorem segmentFrame_divided (hnarrow : narrowPatches widths patches ≠ [])
    (hwide : widePatches widths patches ≠ []) :
    segmentFrame params widths frameIndex tileHeight patches =
      if hasSizes (dividedTiles params widths frameIndex tileHeight patches) then
        some (dividedTiles params widths frameIndex tileHeight patches,
          heightsAfter params widths tileHeight patches)
      else none := by
  have hrepair : avoidEmptyTile (inTile frameIndex 1 (narrowPatches widths patches))
      (inTile frameIndex 2 (widePatches widths patches)) =
        some (inTile frameIndex 1 (narrowPatches widths patches),
          inTile frameIndex 2 (widePatches widths patches)) := by
    apply if_neg
    rw [List.length_eq_zero_iff, List.length_eq_zero_iff, inTile_eq_nil, inTile_eq_nil]
    exact not_or.mpr ⟨hnarrow, hwide⟩
  have hnarrowTile : inTile frameIndex 1 (narrowPatches widths patches) =
      (filled params frameIndex 1 tileHeight.1 widths.2 (narrowPatches widths patches)).patches :=
    filled_patches.symm
  have hwideTile : inTile frameIndex 2 (widePatches widths patches) =
      (filled params frameIndex 2 tileHeight.2 widths.1 (widePatches widths patches)).patches :=
    filled_patches.symm
  rw [segmentFrame_eq, hrepair, hnarrowTile, hwideTile]
  rfl

theorem mem_of_moveLast {srcTile desTile srcTile' desTile' : List SegmentPatch}
    (h : moveLast srcTile desTile = some (srcTile', desTile')) :
    ∃ patch ∈ srcTile, patch ∈ desTile' := by
  obtain ⟨last, hlast, hmoved⟩ := Option.bind_eq_some_iff.mp h
  obtain ⟨-, rfl⟩ := Prod.mk.injEq .. ▸ Option.some.inj hmoved
  exact ⟨last, List.mem_of_getLast? hlast, List.mem_append_right _ List.mem_cons_self⟩

/-- The repair puts a patch of one column into the other one. -/
theorem avoidEmptyTile_moved {tile1 tile2 patches1 patches2 : List SegmentPatch}
    (hempty : tile1 = [] ∨ tile2 = [])
    (h : avoidEmptyTile tile1 tile2 = some (patches1, patches2)) :
    (∃ patch ∈ tile2, patch ∈ patches1) ∨ ∃ patch ∈ tile1, patch ∈ patches2 := by
  rw [← List.length_eq_zero_iff, ← List.length_eq_zero_iff (l := tile2)] at hempty
  unfold avoidEmptyTile at h
  rw [if_pos hempty] at h
  split_ifs at h with hfirst
  · obtain ⟨⟨src, des⟩, hmoved, hswap⟩ := Option.map_eq_some_iff.mp h
    obtain ⟨rfl, rfl⟩ := Prod.mk.injEq .. ▸ hswap
    exact Or.inl (mem_of_moveLast hmoved)
  · exact Or.inr (mem_of_moveLast h)

/-- A patch that the repair moves keeps the index of the column that it came from. -/
theorem not_assigned_of_repaired
    (h : narrowPatches widths patches = [] ∨ widePatches widths patches = [])
    {tiles : List SegmentTile} {left : ℕ × ℕ}
    (hframe : segmentFrame params widths frameIndex tileHeight patches = some (tiles, left)) :
    ¬TilesAssigned params patches tiles := by
  intro hassigned
  rw [segmentFrame_eq] at hframe
  obtain ⟨⟨patches1, patches2⟩, hrepair, htiles⟩ := Option.bind_eq_some_iff.mp hframe
  obtain ⟨-, htiles⟩ := Option.ite_none_right_eq_some.mp htiles
  obtain ⟨rfl, -⟩ := Prod.mk.injEq .. ▸ Option.some.inj htiles
  rcases avoidEmptyTile_moved (h.imp inTile_eq_nil.mpr inTile_eq_nil.mpr) hrepair with
    ⟨patch, hsrc, hdes⟩ | ⟨patch, hsrc, hdes⟩
  · have hindex : patch.tileIndex = 1 := hassigned.tileIndex 1 _ rfl patch hdes
    have hcolumn : patch.tileIndex = 2 := tileIndex_of_mem_inTile hsrc
    omega
  · have hindex : patch.tileIndex = 2 := hassigned.tileIndex 2 _ rfl patch hdes
    have hcolumn : patch.tileIndex = 1 := tileIndex_of_mem_inTile hsrc
    omega

theorem narrowPatches_ne_nil : narrowPatches widths patches ≠ [] ↔
    ∃ patch ∈ patches.drop 3, isNarrow widths.2 patch = true := by
  unfold narrowPatches
  rw [ne_eq, List.filter_eq_nil_iff]
  simp only [not_forall, not_not, exists_prop]

theorem widePatches_ne_nil : widePatches widths patches ≠ [] ↔
    ∃ patch ∈ patches.drop 3, isNarrow widths.2 patch = false := by
  unfold widePatches
  rw [ne_eq, List.filter_eq_nil_iff]
  simp only [not_forall, not_not, exists_prop, Bool.not_eq_true']

theorem hasSizes_dividedTiles :
    hasSizes (dividedTiles params widths frameIndex tileHeight patches) = true ↔
      (0 < widths.1 ∧ 0 < widths.2 ∧
        ∃ patch ∈ patches.take 3, 0 < patch.side params.occupancyResolution) ∧
      0 < (heightsAfter params widths tileHeight patches).1 ∧
      0 < (heightsAfter params widths tileHeight patches).2 := by
  have hheight0 : 0 < heightAfter params 0 (patches.take 3) ↔
      ∃ patch ∈ patches.take 3, 0 < patch.side params.occupancyResolution :=
    heightAfter_pos.trans (or_iff_right (Nat.lt_irrefl 0))
  rw [← hheight0, hasSizes_iff]
  unfold dividedTiles heightsAfter
  simp only [List.forall_mem_cons, List.not_mem_nil, false_imp_iff, implies_true, filled_height,
    filled_width, and_true]
  tauto

/-- One frame: both columns take a patch, and each tile gets a height. -/
theorem segmentFrame_assigned_iff :
    (∃ tiles left, segmentFrame params widths frameIndex tileHeight patches = some (tiles, left) ∧
      TilesAssigned params patches tiles) ↔
      FrameDivided params widths patches ∧
        0 < (heightsAfter params widths tileHeight patches).1 ∧
        0 < (heightsAfter params widths tileHeight patches).2 := by
  constructor
  · rintro ⟨tiles, left, hframe, hassigned⟩
    obtain ⟨hnarrow, hwide⟩ := not_or.mp fun h => not_assigned_of_repaired h hframe hassigned
    rw [segmentFrame_divided hnarrow hwide] at hframe
    obtain ⟨hsizes, -⟩ := Option.ite_none_right_eq_some.mp hframe
    obtain ⟨⟨hwidth0, hwidth1, hheight0⟩, hheights⟩ := hasSizes_dividedTiles.mp hsizes
    exact ⟨⟨hwidth0, hwidth1, hheight0, narrowPatches_ne_nil.mp hnarrow,
      widePatches_ne_nil.mp hwide⟩, hheights⟩
  · rintro ⟨hdivided, hheights⟩
    have hnarrow := narrowPatches_ne_nil.mpr hdivided.narrow
    have hwide := widePatches_ne_nil.mpr hdivided.wide
    obtain ⟨first, hfirst, -⟩ := hdivided.height0
    have hsizes : hasSizes (dividedTiles params widths frameIndex tileHeight patches) = true :=
      hasSizes_dividedTiles.mpr ⟨⟨hdivided.width0, hdivided.width1, hdivided.height0⟩, hheights⟩
    refine ⟨_, _, (segmentFrame_divided hnarrow hwide).trans (if_pos hsizes), ?_⟩
    exact dividedTiles_assigned (List.ne_nil_of_mem hfirst) hnarrow hwide

/-- The run: from the first frame on the columns have their heights. -/
theorem segmentFrames_assigned_iff (widths : ℕ × ℕ) (frames : List (List SegmentPatch)) :
    ∀ (frameIndex : ℕ) (tileHeight : ℕ × ℕ),
      (∃ tiles, segmentFrames params widths frameIndex tileHeight frames = some tiles ∧
        List.Forall₂ (TilesAssigned params) frames tiles) ↔
      (∀ patches ∈ frames, FrameDivided params widths patches) ∧
        ∀ patches ∈ frames.head?, 0 < (heightsAfter params widths tileHeight patches).1 ∧
          0 < (heightsAfter params widths tileHeight patches).2 := by
  induction frames with
  | nil =>
    intro frameIndex tileHeight
    exact ⟨fun _ => ⟨fun _ h => (List.not_mem_nil h).elim, fun _ h => nomatch h⟩,
      fun _ => ⟨[], rfl, .nil⟩⟩
  | cons patches frames ih =>
    intro frameIndex tileHeight
    have hnext (h : 0 < (heightsAfter params widths tileHeight patches).1 ∧
        0 < (heightsAfter params widths tileHeight patches).2) (following : List SegmentPatch) :
        0 < (heightsAfter params widths (heightsAfter params widths tileHeight patches)
          following).1 ∧
        0 < (heightsAfter params widths (heightsAfter params widths tileHeight patches)
          following).2 :=
      ⟨heightAfter_pos.mpr (Or.inl h.1), heightAfter_pos.mpr (Or.inl h.2)⟩
    constructor
    · rintro ⟨tiles, hrun, hassigned⟩
      obtain ⟨⟨first, left⟩, hframe, hrun⟩ := Option.bind_eq_some_iff.mp hrun
      obtain ⟨rest, hrest, heq⟩ := Option.bind_eq_some_iff.mp hrun
      obtain rfl := Option.some.inj heq
      obtain ⟨hfirst, hothers⟩ := List.forall₂_cons.mp hassigned
      obtain ⟨hdivided, hheights⟩ := segmentFrame_assigned_iff.mp ⟨first, left, hframe, hfirst⟩
      have hdividedRest := ((ih (frameIndex + 1) left).mp ⟨rest, hrest, hothers⟩).1
      refine ⟨List.forall_mem_cons.mpr ⟨hdivided, hdividedRest⟩, ?_⟩
      rintro _ ⟨⟩
      exact hheights
    · rintro ⟨hdivided, hheights⟩
      obtain ⟨hfirst, hothers⟩ := List.forall_mem_cons.mp hdivided
      have hheights := hheights patches rfl
      obtain ⟨tiles, left, hframe, hassigned⟩ :=
        segmentFrame_assigned_iff.mpr ⟨hfirst, hheights⟩
      have hleft : left = heightsAfter params widths tileHeight patches :=
        segmentFrame_left hframe
      subst hleft
      obtain ⟨rest, hrest, hassignedRest⟩ := (ih (frameIndex + 1) _).mpr
        ⟨hothers, fun following _ => hnext hheights following⟩
      refine ⟨tiles :: rest, ?_, .cons hassigned hassignedRest⟩
      rw [segmentFrames, hframe]
      simp only [Option.bind_eq_bind, Option.bind_some]
      rw [hrest]
      rfl

end

/-- Both columns of the first frame take a patch with a size. -/
structure ColumnsSized (params : SegmentParams) (widths : ℕ × ℕ) (patches : List SegmentPatch) :
    Prop where
  narrow : ∃ patch ∈ patches.drop 3, isNarrow widths.2 patch = true ∧
    0 < patch.side params.occupancyResolution
  wide : ∃ patch ∈ patches.drop 3, isNarrow widths.2 patch = false ∧
    0 < patch.side params.occupancyResolution

theorem columnsSized_iff {widths : ℕ × ℕ} {patches : List SegmentPatch} :
    0 < (heightsAfter params widths (0, 0) patches).1 ∧
      0 < (heightsAfter params widths (0, 0) patches).2 ↔ ColumnsSized params widths patches := by
  have hcolumn (patches : List SegmentPatch) : 0 < heightAfter params 0 patches ↔
      ∃ patch ∈ patches, 0 < patch.side params.occupancyResolution :=
    heightAfter_pos.trans (or_iff_right (Nat.lt_irrefl 0))
  unfold heightsAfter narrowPatches widePatches
  rw [hcolumn, hcolumn]
  simp only [List.mem_filter, Bool.not_eq_true', and_assoc]
  exact ⟨fun h => ⟨h.1, h.2⟩, fun h => ⟨h.narrow, h.wide⟩⟩

/-- The frames are shared among three tiles if and only if behind the three largest patches of each
there is one for either column: no patch is ever moved. -/
theorem tilesAssigned_iff (gt : StdSort SegmentPatch.gt) (params : SegmentParams)
    (frames : List (List SegmentPatch)) :
    (∃ tiles, generateTilesFromSegments gt params frames = some tiles ∧
      List.Forall₂ (TilesAssigned params) frames tiles) ↔
    ∃ size widths, minSize0 (frames.map gt.sort) = some size ∧
      tileWidths params size = some widths ∧
      (∀ patches ∈ frames, FrameDivided params widths (gt.sort (gt.sort patches))) ∧
      ∀ patches ∈ frames.head?, ColumnsSized params widths (gt.sort (gt.sort patches)) := by
  have hperm (patches : List SegmentPatch) : (gt.sort (gt.sort patches)).Perm patches :=
    (gt.perm _).trans (gt.perm _)
  have hsorted (tiles : List (List SegmentTile)) :
      List.Forall₂ (TilesAssigned params) frames tiles ↔ List.Forall₂ (TilesAssigned params)
        (frames.map fun patches => gt.sort (gt.sort patches)) tiles := by
    rw [List.forall₂_map_left_iff]
    exact ⟨.imp fun patches _ h => h.congr (hperm patches).symm,
      .imp fun patches _ h => h.congr (hperm patches)⟩
  have hframes (widths : ℕ × ℕ) :
      (∃ tiles, segmentFrames params widths 0 (0, 0)
          (frames.map fun patches => gt.sort (gt.sort patches)) = some tiles ∧
        List.Forall₂ (TilesAssigned params) frames tiles) ↔
      (∀ patches ∈ frames, FrameDivided params widths (gt.sort (gt.sort patches))) ∧
        ∀ patches ∈ frames.head?, ColumnsSized params widths (gt.sort (gt.sort patches)) := by
    simp only [hsorted, segmentFrames_assigned_iff, List.forall_mem_map, List.head?_map,
      columnsSized_iff, Option.mem_map, forall_exists_index, and_imp, forall_apply_eq_imp_iff₂]
  unfold generateTilesFromSegments
  simp only [Option.bind_eq_bind, Option.bind_eq_some_iff]
  constructor
  · rintro ⟨tiles, ⟨size, hsize, widths, hwidths, hrun⟩, hassigned⟩
    exact ⟨size, widths, hsize, hwidths, (hframes widths).mp ⟨tiles, hrun, hassigned⟩⟩
  · rintro ⟨size, widths, hsize, hwidths, hdivided⟩
    obtain ⟨tiles, hrun, hassigned⟩ := (hframes widths).mpr hdivided
    exact ⟨tiles, ⟨size, hsize, widths, hwidths, hrun⟩, hassigned⟩

/-- Five patches in their order, three of them large and the last one of two blocks. -/
def fivePatches (size0 : ℕ) : List SegmentPatch :=
  [(0, 10), (1, 10), (2, 10), (3, size0), (4, 2)].map fun (index, size0) =>
    { index, sizeU0 := size0, sizeV0 := size0, eomCount := index + 1 }

/-- Five patches of which one is wide enough for the third tile. -/
example : FrameDivided ⟨1280, 16, true⟩ (1152, 128) (fivePatches 8) ∧
    ColumnsSized ⟨1280, 16, true⟩ (1152, 128) (fivePatches 8) :=
  ⟨⟨by decide, by decide, by decide, by decide, by decide⟩, ⟨by decide, by decide⟩⟩

def mergeSortSegments : StdSort SegmentPatch.gt :=
  .ofMergeSort _ (fun a b c => not_gt_trans a.toPackingPatch b.toPackingPatch c.toPackingPatch)
    fun a b => not_gt_total a.toPackingPatch b.toPackingPatch

theorem fivePatches_sorted {size0 : ℕ} (h : size0 = 2 ∨ size0 = 8) :
    mergeSortSegments.sort (fivePatches size0) = fivePatches size0 := by
  apply List.mergeSort_of_pairwise
  obtain rfl | rfl := h <;> decide

/-- In the second frame no patch is wide enough for the third tile: the one that it gets still has
the index of the second. -/
theorem not_tilesAssigned : ¬∀ (gt : StdSort SegmentPatch.gt) (params : SegmentParams)
    (frames : List (List SegmentPatch)), (∀ patches ∈ frames, patches ≠ []) →
    ∃ tiles, generateTilesFromSegments gt params frames = some tiles ∧
      List.Forall₂ (TilesAssigned params) frames tiles := by
  intro h
  let params : SegmentParams := ⟨1280, 16, true⟩
  obtain ⟨tiles, hrun, hassigned⟩ := h mergeSortSegments params [fivePatches 8, fivePatches 2]
    (by decide)
  have hmoved : ∀ tiles, segmentFrames params (1152, 128) 0 (0, 0)
      [fivePatches 8, fivePatches 2] = some tiles →
      ∃ frame ∈ tiles[1]?, ∃ tile ∈ frame[2]?, ∃ patch ∈ tile.patches, patch.tileIndex = 1 := by
    rintro _ ⟨⟩
    exact ⟨_, rfl, _, rfl, _, List.mem_cons_self, rfl⟩
  have hsize : minSize0 [fivePatches 8, fivePatches 2] = some 2 := by decide
  have hwidths : tileWidths params 2 = some (1152, 128) := by decide
  unfold generateTilesFromSegments at hrun
  simp only [List.map_cons, List.map_nil, fivePatches_sorted (Or.inl rfl),
    fivePatches_sorted (Or.inr rfl), hsize, hwidths, Option.bind_eq_bind, Option.bind_some] at hrun
  obtain ⟨frame, hframe, tile, htile, patch, hpatch, hindex⟩ := hmoved tiles hrun
  have hsecond : TilesAssigned params (fivePatches 2) frame := by
    obtain ⟨_, _⟩ | ⟨_, _ | ⟨hsecond, _⟩⟩ := hassigned
    obtain rfl := Option.some.inj hframe
    exact hsecond
  have htwo : patch.tileIndex = 2 := hsecond.tileIndex 2 tile htile patch hpatch
  omega

end PCCEncoder

end V3C

import V3C.Syntax.TileHeaderReader

/-! The tile information that the encoder makes of the layout of a frame. -/
namespace V3C
open Codec

/-- A tile of a frame: its place, its size and the number of its patches. -/
structure TileLayout where
  leftTopXInFrame : ℕ := 0
  leftTopYInFrame : ℕ := 0
  width : ℕ := 0
  height : ℕ := 0
  numPatches : ℕ := 0

/-- What `generateAfti` takes from a frame. The separate video of raw points is a flag of the
title frame. -/
structure AtlasFrameLayout where
  numTilesInAtlasFrame : ℕ := 1
  uniformPartitionSpacing : Bool := false
  numPartitionCols : ℕ := 1
  numPartitionRows : ℕ := 1
  partitionWidth : List ℕ := [0]
  partitionHeight : List ℕ := [0]
  singlePartitionPerTile : Bool := false
  signalledTileId : Bool := false
  tiles : List TileLayout := []
  useRawPointsSeparateVideo : Bool := false
  auxVideoWidth : ℕ := 0
  auxTileHeight : List ℕ := []

/-- The setters of the vectors: a store at the end makes room, one behind it is out of bounds. -/
def setEntry (xs : List ℕ) (index value : ℕ) : Option (List ℕ) :=
  if index = xs.length then some (xs ++ [value % 2 ^ 32])
  else if index < xs.length then some (xs.set index (value % 2 ^ 32))
  else none

/-- The loop that sets `n` entries from `index` on. -/
def setEntries (value : ℕ → Option ℕ) : ℕ → ℕ → List ℕ → Option (List ℕ)
  | _, 0, xs => some xs
  | index, n + 1, xs => do
    let v ← value index
    let xs ← setEntry xs index v
    setEntries value (index + 1) n xs

/-- `size / 64 - 1`, unsigned. -/
def minus1In64 (size : ℕ) : ℕ := toSizeT (size / 64 - 1 : ℤ)

/-- The number of partitions until the sum of their sizes reaches `rest`, an `int`. -/
def partitionsUpTo : List ℕ → ℤ → Option ℕ
  | [], rest => if rest > 0 then none else some 0
  | size :: sizes, rest =>
    if rest > 0 then (partitionsUpTo sizes (toInt32 (toSizeT (rest - size)))).map (· + 1)
    else some 0

/-- The top left partition of a tile, and the offsets to its bottom right one. -/
def tilePartitionInfo (layout : AtlasFrameLayout) (tile : TileLayout) : Option (ℕ × ℕ × ℕ) :=
  if tile.numPatches = 0 ∧ layout.useRawPointsSeparateVideo then some (0, 0, 0)
  else do
    let numPartLeftX ← partitionsUpTo layout.partitionWidth (toInt32 tile.leftTopXInFrame)
    let numPartLeftY ← partitionsUpTo layout.partitionHeight (toInt32 tile.leftTopYInFrame)
    let numPartBottomX ←
      partitionsUpTo (layout.partitionWidth.drop numPartLeftX) (toInt32 tile.width)
    let numPartBottomY ←
      partitionsUpTo (layout.partitionHeight.drop numPartLeftY) (toInt32 tile.height)
    if numPartBottomX < 1 ∨ numPartBottomY < 1 then none
    else
      some (numPartLeftX + numPartLeftY * layout.numPartitionCols, numPartBottomX - 1,
        numPartBottomY - 1)

/-- The loop over the tiles. -/
def setTileInfo (layout : AtlasFrameLayout) :
    ℕ → ℕ → AtlasFrameTileInformation → Option AtlasFrameTileInformation
  | _, 0, afti => some afti
  | ti, n + 1, afti => do
    let tile ← layout.tiles[ti]?
    let (topLeft, columnOffset, rowOffset) ← tilePartitionInfo layout tile
    let topLeftPartitionIdx ← setEntry afti.topLeftPartitionIdx ti topLeft
    let bottomRightPartitionColumnOffset ←
      setEntry afti.bottomRightPartitionColumnOffset ti columnOffset
    let bottomRightPartitionRowOffset ← setEntry afti.bottomRightPartitionRowOffset ti rowOffset
    setTileInfo layout (ti + 1) n { afti with
      topLeftPartitionIdx, bottomRightPartitionColumnOffset, bottomRightPartitionRowOffset }

/-- The size of an auxiliary tile as it is stored, in units of `unit` samples. -/
def auxiliaryHeight (layout : AtlasFrameLayout) (unit ti : ℕ) : Option ℕ :=
  if layout.useRawPointsSeparateVideo then (layout.auxTileHeight[ti]?).map (· / unit) else some 0

/-- The layout of the auxiliary video. A single tile has its height in samples. -/
def setAuxiliaryVideo (layout : AtlasFrameLayout) (unit : ℕ) (afti : AtlasFrameTileInformation) :
    Option AtlasFrameTileInformation := do
  let auxiliaryVideoTileRowHeight ← setEntries (auxiliaryHeight layout unit) 0
    layout.numTilesInAtlasFrame afti.auxiliaryVideoTileRowHeight
  some { afti with
    auxiliaryVideoTileRowWidthMinus1 :=
      if layout.useRawPointsSeparateVideo then minus1In64 layout.auxVideoWidth % 2 ^ 32 else 0
    auxiliaryVideoTileRowHeight }

/-- The columns or rows: `setNumPartitionColumnsMinus1`, then the sizes of all of them. -/
def setPartitions (count : ℕ) (sizes minus1 : List ℕ) : Option (List ℕ) :=
  setEntries (fun i => (sizes[i]?).map minus1In64) 0 count
    ((minus1 ++ List.replicate (max 1 (toSizeT (count - 1) % 2 ^ 32)) 0).take
      (max 1 (toSizeT (count - 1) % 2 ^ 32)))

/-- `generateAfti` on tile information as the constructor makes it. Signalled tile ids end the
program. -/
def generateAfti (layout : AtlasFrameLayout) : Option AtlasFrameTileInformation := do
  let afti : AtlasFrameTileInformation :=
    { singleTileInAtlasFrameFlag := layout.numTilesInAtlasFrame == 1 }
  if layout.numTilesInAtlasFrame = 1 then setAuxiliaryVideo layout 1 afti
  else do
    let partitionColumnWidthMinus1 ←
      setPartitions layout.numPartitionCols layout.partitionWidth afti.partitionColumnWidthMinus1
    let partitionRowHeightMinus1 ←
      setPartitions layout.numPartitionRows layout.partitionHeight afti.partitionRowHeightMinus1
    if layout.signalledTileId then none
    else do
      let tileId ← setEntries some 0 layout.numTilesInAtlasFrame afti.tileId
      let afti ← setTileInfo layout 0 layout.numTilesInAtlasFrame { afti with
        uniformPartitionSpacingFlag := layout.uniformPartitionSpacing
        numPartitionColumnsMinus1 := toSizeT (layout.numPartitionCols - 1) % 2 ^ 32
        numPartitionRowsMinus1 := toSizeT (layout.numPartitionRows - 1) % 2 ^ 32
        partitionColumnWidthMinus1
        partitionRowHeightMinus1
        singlePartitionPerTileFlag := layout.singlePartitionPerTile.toNat
        numTilesInAtlasFrameMinus1 := toSizeT (layout.numTilesInAtlasFrame - 1) % 2 ^ 32
        signalledTileIdFlag := layout.signalledTileId
        tileId }
      setAuxiliaryVideo layout 64 afti

/-! What the setters leave. -/

theorem length_setEntry {xs ys : List ℕ} {index value : ℕ} (h : setEntry xs index value = some ys) :
    ys.length = max xs.length (index + 1) := by
  unfold setEntry at h
  split_ifs at h with hend hin
  · obtain rfl := Option.some.inj h
    rw [List.length_append, List.length_singleton, hend]
    omega
  · obtain rfl := Option.some.inj h
    rw [List.length_set]
    omega

theorem getElem?_setEntry_self {xs ys : List ℕ} {index value : ℕ}
    (h : setEntry xs index value = some ys) : ys[index]? = some (value % 2 ^ 32) := by
  unfold setEntry at h
  split_ifs at h with hend hin
  · obtain rfl := Option.some.inj h
    rw [hend, List.getElem?_concat_length]
  · obtain rfl := Option.some.inj h
    exact List.getElem?_set_self hin

theorem getElem?_setEntry_of_lt {xs ys : List ℕ} {index value k : ℕ}
    (h : setEntry xs index value = some ys) (hk : k < index) : ys[k]? = xs[k]? := by
  unfold setEntry at h
  split_ifs at h with hend hin
  · obtain rfl := Option.some.inj h
    exact List.getElem?_append_left (by omega)
  · obtain rfl := Option.some.inj h
    exact List.getElem?_set_ne (by omega)

section Entries

variable {value : ℕ → Option ℕ} {index n : ℕ} {xs ys : List ℕ}

theorem length_setEntries (h : setEntries value index n xs = some ys) (hindex : index ≤ xs.length) :
    ys.length = max xs.length (index + n) := by
  induction n generalizing index xs with
  | zero =>
    obtain rfl := Option.some.inj h
    omega
  | succ n ih =>
    obtain ⟨v, -, h⟩ := Option.bind_eq_some_iff.mp h
    obtain ⟨zs, hset, h⟩ := Option.bind_eq_some_iff.mp h
    have hlength := length_setEntry hset
    rw [ih h (by omega), hlength]
    omega

theorem getElem?_setEntries_of_lt (h : setEntries value index n xs = some ys) {k : ℕ}
    (hk : k < index) : ys[k]? = xs[k]? := by
  induction n generalizing index xs with
  | zero =>
    obtain rfl := Option.some.inj h
    rfl
  | succ n ih =>
    obtain ⟨v, -, h⟩ := Option.bind_eq_some_iff.mp h
    obtain ⟨zs, hset, h⟩ := Option.bind_eq_some_iff.mp h
    rw [ih h (by omega), getElem?_setEntry_of_lt hset hk]

theorem getElem?_setEntries (h : setEntries value index n xs = some ys) {k : ℕ}
    (hlow : index ≤ k) (hhigh : k < index + n) :
    ∃ v, value k = some v ∧ ys[k]? = some (v % 2 ^ 32) := by
  induction n generalizing index xs with
  | zero => omega
  | succ n ih =>
    obtain ⟨v, hv, h⟩ := Option.bind_eq_some_iff.mp h
    obtain ⟨zs, hset, h⟩ := Option.bind_eq_some_iff.mp h
    rcases Nat.eq_or_lt_of_le hlow with rfl | hlt
    · refine ⟨v, hv, ?_⟩
      rw [getElem?_setEntries_of_lt h (Nat.lt_succ_self index), getElem?_setEntry_self hset]
    · exact ih h hlt (by omega)

end Entries

/-- The vectors of the tiles have the given number of entries. -/
structure HasTiles (n : ℕ) (afti : AtlasFrameTileInformation) : Prop where
  topLeft : afti.topLeftPartitionIdx.length = n
  columnOffset : afti.bottomRightPartitionColumnOffset.length = n
  rowOffset : afti.bottomRightPartitionRowOffset.length = n

/-- The loop changes the vectors of the tiles only, and leaves them with an entry for each. -/
theorem setTileInfo_spec {layout : AtlasFrameLayout} {ti n : ℕ}
    {afti got : AtlasFrameTileInformation} (h : setTileInfo layout ti n afti = some got)
    (hlength : HasTiles (max 1 ti) afti) :
    HasTiles (max 1 (ti + n)) got ∧
      got = { afti with
        topLeftPartitionIdx := got.topLeftPartitionIdx
        bottomRightPartitionColumnOffset := got.bottomRightPartitionColumnOffset
        bottomRightPartitionRowOffset := got.bottomRightPartitionRowOffset } := by
  induction n generalizing ti afti with
  | zero =>
    obtain rfl := Option.some.inj h
    exact ⟨hlength, rfl⟩
  | succ n ih =>
    obtain ⟨tile, -, h⟩ := Option.bind_eq_some_iff.mp h
    obtain ⟨⟨topLeft, columnOffset, rowOffset⟩, -, h⟩ := Option.bind_eq_some_iff.mp h
    obtain ⟨xs, hxs, h⟩ := Option.bind_eq_some_iff.mp h
    obtain ⟨ys, hys, h⟩ := Option.bind_eq_some_iff.mp h
    obtain ⟨zs, hzs, h⟩ := Option.bind_eq_some_iff.mp h
    have hx : xs.length = max 1 (ti + 1) := by
      rw [length_setEntry hxs, hlength.topLeft]
      omega
    have hy : ys.length = max 1 (ti + 1) := by
      rw [length_setEntry hys, hlength.columnOffset]
      omega
    have hz : zs.length = max 1 (ti + 1) := by
      rw [length_setEntry hzs, hlength.rowOffset]
      omega
    have hrest := ih h ⟨hx, hy, hz⟩
    rwa [Nat.add_assoc, Nat.add_comm 1 n] at hrest

def AtlasFrameTileInformation.tileEntries (afti : AtlasFrameTileInformation) (k : ℕ) :
    Option (ℕ × ℕ × ℕ) := do
  let topLeft ← afti.topLeftPartitionIdx[k]?
  let columnOffset ← afti.bottomRightPartitionColumnOffset[k]?
  let rowOffset ← afti.bottomRightPartitionRowOffset[k]?
  some (topLeft, columnOffset, rowOffset)

def AtlasFrameLayout.tileEntries (layout : AtlasFrameLayout) (k : ℕ) : Option (ℕ × ℕ × ℕ) := do
  let tile ← layout.tiles[k]?
  let (topLeft, columnOffset, rowOffset) ← tilePartitionInfo layout tile
  some (topLeft % 2 ^ 32, columnOffset % 2 ^ 32, rowOffset % 2 ^ 32)

theorem setTileInfo_entries {layout : AtlasFrameLayout} {ti n : ℕ}
    {afti got : AtlasFrameTileInformation} (h : setTileInfo layout ti n afti = some got) {k : ℕ}
    (hk : k < ti + n) :
    got.tileEntries k = if ti ≤ k then layout.tileEntries k else afti.tileEntries k := by
  induction n generalizing ti afti with
  | zero =>
    obtain rfl := Option.some.inj h
    rw [if_neg (by omega)]
  | succ n ih =>
    obtain ⟨tile, htile, h⟩ := Option.bind_eq_some_iff.mp h
    obtain ⟨⟨topLeft, columnOffset, rowOffset⟩, hinfo, h⟩ := Option.bind_eq_some_iff.mp h
    obtain ⟨xs, hxs, h⟩ := Option.bind_eq_some_iff.mp h
    obtain ⟨ys, hys, h⟩ := Option.bind_eq_some_iff.mp h
    obtain ⟨zs, hzs, h⟩ := Option.bind_eq_some_iff.mp h
    rw [ih h (by omega)]
    rcases Nat.lt_trichotomy k ti with hlt | rfl | hlt
    · rw [if_neg (by omega), if_neg (by omega)]
      unfold AtlasFrameTileInformation.tileEntries
      rw [getElem?_setEntry_of_lt hxs hlt, getElem?_setEntry_of_lt hys hlt,
        getElem?_setEntry_of_lt hzs hlt]
    · rw [if_neg (by omega), if_pos le_rfl]
      unfold AtlasFrameTileInformation.tileEntries AtlasFrameLayout.tileEntries
      rw [getElem?_setEntry_self hxs, getElem?_setEntry_self hys, getElem?_setEntry_self hzs,
        htile]
      simp only [Option.bind_eq_bind, Option.bind_some, hinfo]
    · rw [if_pos (by omega), if_pos (by omega)]

/-- A frame with tiles and partitions, in numbers that their types hold. -/
structure AtlasFrameLayout.WellFormed (layout : AtlasFrameLayout) : Prop where
  tiles_pos : 0 < layout.numTilesInAtlasFrame
  tiles_lt : layout.numTilesInAtlasFrame < 2 ^ 32
  columns_pos : 0 < layout.numPartitionCols
  rows_pos : 0 < layout.numPartitionRows
  partitions_lt : layout.numPartitionCols * layout.numPartitionRows < 2 ^ 32

theorem countMinus1 {n : ℕ} (hpos : 0 < n) (hlt : n < 2 ^ 32) :
    toSizeT (n - 1 : ℤ) % 2 ^ 32 = n - 1 := by
  have hcast : ((n : ℤ) - 1) = ((n - 1 : ℕ) : ℤ) := by omega
  rw [hcast, toSizeT_of_lt (by omega) (by omega), Int.toNat_natCast, Nat.mod_eq_of_lt (by omega)]

/-- What the encoder makes of the auxiliary video. -/
structure HasAuxiliary (layout : AtlasFrameLayout) (unit : ℕ) (afti : AtlasFrameTileInformation) :
    Prop where
  width : afti.auxiliaryVideoTileRowWidthMinus1 =
    if layout.useRawPointsSeparateVideo then minus1In64 layout.auxVideoWidth % 2 ^ 32 else 0
  length : afti.auxiliaryVideoTileRowHeight.length = layout.numTilesInAtlasFrame
  heights : ∀ k < layout.numTilesInAtlasFrame, ∃ height,
    auxiliaryHeight layout unit k = some height ∧
      afti.auxiliaryVideoTileRowHeight[k]? = some (height % 2 ^ 32)

theorem setAuxiliaryVideo_spec {layout : AtlasFrameLayout} {unit : ℕ}
    {afti got : AtlasFrameTileInformation} (h : setAuxiliaryVideo layout unit afti = some got)
    (hnone : afti.auxiliaryVideoTileRowHeight = []) :
    HasAuxiliary layout unit got ∧
      got = { afti with
        auxiliaryVideoTileRowWidthMinus1 := got.auxiliaryVideoTileRowWidthMinus1
        auxiliaryVideoTileRowHeight := got.auxiliaryVideoTileRowHeight } := by
  obtain ⟨heights, hheights, h⟩ := Option.bind_eq_some_iff.mp h
  obtain rfl := Option.some.inj h
  rw [hnone] at hheights
  refine ⟨⟨rfl, ?_, fun k hk => ?_⟩, rfl⟩
  · change heights.length = layout.numTilesInAtlasFrame
    rw [length_setEntries hheights (Nat.zero_le _), List.length_nil]
    omega
  · exact getElem?_setEntries hheights (Nat.zero_le k) (by omega)

/-- Every column or row has its size. -/
theorem setPartitions_spec {count : ℕ} {sizes minus1 got : List ℕ} (hpos : 0 < count)
    (hlt : count < 2 ^ 32) (h : setPartitions count sizes minus1 = some got) :
    got.length = count ∧ ∃ size, sizes[0]? = some size ∧
      got[0]? = some (minus1In64 size % 2 ^ 32) := by
  unfold setPartitions at h
  have hlength := length_setEntries h (Nat.zero_le _)
  obtain ⟨v, hv, hfirst⟩ := getElem?_setEntries h le_rfl (by omega : 0 < 0 + count)
  obtain ⟨size, hsize, rfl⟩ := Option.map_eq_some_iff.mp hv
  refine ⟨?_, size, hsize, hfirst⟩
  rw [hlength, countMinus1 hpos hlt, List.length_take, List.length_append, List.length_replicate]
  omega

/-- The tile information of a frame with more than one tile. -/
structure GeneratedTiles (layout : AtlasFrameLayout) (afti : AtlasFrameTileInformation) : Prop where
  single : afti.singleTileInAtlasFrameFlag = false
  uniform : afti.uniformPartitionSpacingFlag = layout.uniformPartitionSpacing
  columns : afti.numPartitionColumnsMinus1 = layout.numPartitionCols - 1
  rows : afti.numPartitionRowsMinus1 = layout.numPartitionRows - 1
  partition : afti.singlePartitionPerTileFlag = layout.singlePartitionPerTile.toNat
  tiles : afti.numTilesInAtlasFrameMinus1 = layout.numTilesInAtlasFrame - 1
  signalled : afti.signalledTileIdFlag = false
  widths_length : afti.partitionColumnWidthMinus1.length = layout.numPartitionCols
  heights_length : afti.partitionRowHeightMinus1.length = layout.numPartitionRows
  width : ∃ size, layout.partitionWidth[0]? = some size ∧
    afti.partitionColumnWidthMinus1[0]? = some (minus1In64 size % 2 ^ 32)
  height : ∃ size, layout.partitionHeight[0]? = some size ∧
    afti.partitionRowHeightMinus1[0]? = some (minus1In64 size % 2 ^ 32)
  hasTiles : HasTiles layout.numTilesInAtlasFrame afti
  tileEntries : ∀ k < layout.numTilesInAtlasFrame, afti.tileEntries k = layout.tileEntries k
  auxiliary : HasAuxiliary layout 64 afti

structure GeneratedSingleTile (layout : AtlasFrameLayout) (afti : AtlasFrameTileInformation) : Prop where
  single : afti.singleTileInAtlasFrameFlag = true
  tiles : afti.numTilesInAtlasFrameMinus1 = 0
  signalled : afti.signalledTileIdFlag = false
  auxiliary : HasAuxiliary layout 1 afti

section Generated

variable {layout : AtlasFrameLayout} {afti : AtlasFrameTileInformation}

theorem generateAfti_one (hone : layout.numTilesInAtlasFrame = 1)
    (h : generateAfti layout = some afti) : GeneratedSingleTile layout afti := by
  unfold generateAfti at h
  rw [if_pos hone] at h
  obtain ⟨hauxiliary, hafti⟩ := setAuxiliaryVideo_spec h rfl
  constructor
  · rw [hafti]
    exact beq_iff_eq.mpr hone
  · rw [hafti]
  · rw [hafti]
  · exact hauxiliary

theorem generateAfti_many (hwell : layout.WellFormed) (hmany : layout.numTilesInAtlasFrame ≠ 1)
    (h : generateAfti layout = some afti) : GeneratedTiles layout afti := by
  have hcolumns : layout.numPartitionCols < 2 ^ 32 :=
    (Nat.le_mul_of_pos_right _ hwell.rows_pos).trans_lt hwell.partitions_lt
  have hrows : layout.numPartitionRows < 2 ^ 32 :=
    (Nat.le_mul_of_pos_left _ hwell.columns_pos).trans_lt hwell.partitions_lt
  have htiles := hwell.tiles_pos
  unfold generateAfti at h
  rw [if_neg hmany] at h
  obtain ⟨widths, hwidths, h⟩ := Option.bind_eq_some_iff.mp h
  obtain ⟨heights, hheights, h⟩ := Option.bind_eq_some_iff.mp h
  split_ifs at h with hsignalled
  obtain ⟨ids, -, h⟩ := Option.bind_eq_some_iff.mp h
  obtain ⟨tiled, htiled, h⟩ := Option.bind_eq_some_iff.mp h
  have hentries : ∀ k < layout.numTilesInAtlasFrame,
      tiled.tileEntries k = layout.tileEntries k := by
    intro k hk
    rw [setTileInfo_entries htiled (by omega), if_pos (Nat.zero_le k)]
  obtain ⟨hvectors, htiled⟩ := setTileInfo_spec htiled ⟨rfl, rfl, rfl⟩
  rw [Nat.zero_add, max_eq_right (by omega)] at hvectors
  obtain ⟨hauxiliary, hafti⟩ :=
    setAuxiliaryVideo_spec h (by rw [htiled])
  obtain ⟨hwidthsLength, hwidth⟩ := setPartitions_spec hwell.columns_pos hcolumns hwidths
  obtain ⟨hheightsLength, hheight⟩ := setPartitions_spec hwell.rows_pos hrows hheights
  rw [countMinus1 hwell.columns_pos hcolumns, countMinus1 hwell.rows_pos hrows,
    countMinus1 hwell.tiles_pos hwell.tiles_lt] at htiled
  exact {
    single := by
      rw [hafti, htiled]
      exact beq_eq_false_iff_ne.mpr hmany
    uniform := by rw [hafti, htiled]
    columns := by rw [hafti, htiled]
    rows := by rw [hafti, htiled]
    partition := by rw [hafti, htiled]
    tiles := by rw [hafti, htiled]
    signalled := by
      rw [hafti, htiled]
      simpa using hsignalled
    widths_length := by rwa [hafti, htiled]
    heights_length := by rwa [hafti, htiled]
    width := by rwa [hafti, htiled]
    height := by rwa [hafti, htiled]
    hasTiles := by
      rw [hafti]
      exact ⟨hvectors.topLeft, hvectors.columnOffset, hvectors.rowOffset⟩
    tileEntries := by
      rw [hafti]
      exact hentries
    auxiliary := hauxiliary }

end Generated

end V3C

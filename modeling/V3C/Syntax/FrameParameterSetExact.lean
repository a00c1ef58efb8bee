import V3C.Syntax.SequenceParameterSetExact

/-! Which atlas frame parameter sets come back. Of the vectors of the tile information, the
entries that the counts reach are compared. -/
namespace V3C
open Codec

def codedSizes (uniform : Bool) (numPartitionsMinus1 : ℕ) : ℕ :=
  if uniform then 1 else numPartitionsMinus1

/-- The sizes of the partitions of an axis, and a count that agrees with the size of the frame:
the one that the reader derives, or one that leaves a rest of the frame. -/
structure AxisAgrees (uniform : Bool) (frameSize numPartitionsMinus1 : ℕ) (minus1 : List ℕ) :
    Prop where
  coded : ∀ size ∈ minus1, size + 1 < 2 ^ 32
  ofUniform : uniform = true → ∃ first, minus1[0]? = some first ∧
    PCCBitstreamReader.numPartitionsMinus1 frameSize first = some numPartitionsMinus1
  ofExplicit : uniform = false → numPartitionsMinus1 ≤ minus1.length ∧
    ((minus1.take numPartitionsMinus1).map fun size => 64 * (size + 1)).sum < frameSize

theorem length_le_sum_sizes (sizes : List ℕ) :
    sizes.length ≤ (sizes.map fun size => 64 * (size + 1)).sum := by
  induction sizes with
  | nil => exact Nat.zero_le _
  | cons size sizes ih =>
    rw [List.length_cons, List.map_cons, List.sum_cons]
    omega

/-- There are fewer partitions than samples. -/
theorem AxisAgrees.count_lt {uniform : Bool} {frameSize numPartitionsMinus1 : ℕ}
    {minus1 : List ℕ} (h : AxisAgrees uniform frameSize numPartitionsMinus1 minus1) :
    numPartitionsMinus1 < frameSize := by
  cases uniform with
  | true =>
    obtain ⟨first, -, hcount⟩ := h.ofUniform rfl
    unfold PCCBitstreamReader.numPartitionsMinus1 at hcount
    split_ifs at hcount with hzero
    have hle := Nat.div_le_self (frameSize - 1) ((first + 1) * 64)
    have heq := Option.some.inj hcount
    omega
  | false =>
    obtain ⟨hlength, hsum⟩ := h.ofExplicit rfl
    have hle := length_le_sum_sizes (minus1.take numPartitionsMinus1)
    rw [List.length_take_of_le hlength] at hle
    exact lt_of_le_of_lt hle hsum

namespace AtlasFrameTileInformation

/-- The elements fit their bits, the vectors reach as far as the counts, and the counts of the
partitions agree with the size of the frame. -/
structure InRange (asps : AtlasSequenceParameterSetRbsp) (afti : AtlasFrameTileInformation) :
    Prop where
  columns : afti.singleTileInAtlasFrameFlag = false → AxisAgrees afti.uniformPartitionSpacingFlag
    asps.frameWidth afti.numPartitionColumnsMinus1 afti.partitionColumnWidthMinus1
  rows : afti.singleTileInAtlasFrameFlag = false → AxisAgrees afti.uniformPartitionSpacingFlag
    asps.frameHeight afti.numPartitionRowsMinus1 afti.partitionRowHeightMinus1
  partition_le : afti.singlePartitionPerTileFlag ≤ 1
  tiles_lt : afti.numTilesInAtlasFrameMinus1 + 1 < 2 ^ 32
  topLeft_length : afti.numTilesInAtlasFrameMinus1 < afti.topLeftPartitionIdx.length
  column_length : afti.numTilesInAtlasFrameMinus1 < afti.bottomRightPartitionColumnOffset.length
  row_length : afti.numTilesInAtlasFrameMinus1 < afti.bottomRightPartitionRowOffset.length
  id_length : afti.numTilesInAtlasFrameMinus1 < afti.tileId.length
  topLeft_lt : afti.singleTileInAtlasFrameFlag = false → ∀ topLeft ∈ afti.topLeftPartitionIdx,
    topLeft < (afti.numPartitionColumnsMinus1 + 1) * (afti.numPartitionRowsMinus1 + 1)
  column_lt : ∀ column ∈ afti.bottomRightPartitionColumnOffset, column + 1 < 2 ^ 32
  row_lt : ∀ row ∈ afti.bottomRightPartitionRowOffset, row + 1 < 2 ^ 32
  auxiliaryWidth_lt : afti.auxiliaryVideoTileRowWidthMinus1 + 1 < 2 ^ 32
  auxiliaryHeight : asps.auxiliaryVideoEnabledFlag = true →
    ∀ i ≤ afti.numTilesInAtlasFrameMinus1, ∃ height,
      afti.getAuxiliaryVideoTileRowHeight i = some height ∧ height + 1 < 2 ^ 32
  idLength_le : afti.signalledTileIdFlag = true → afti.signalledTileIdLengthMinus1 + 1 ≤ 32
  id_lt : afti.signalledTileIdFlag = true →
    ∀ id ∈ afti.tileId, id < 2 ^ (afti.signalledTileIdLengthMinus1 + 1)

/-- Every field has come back. With uniform spacing only the first sizes are given. -/
structure Restored (asps : AtlasSequenceParameterSetRbsp) (afti got : AtlasFrameTileInformation) :
    Prop where
  single : got.singleTileInAtlasFrameFlag = afti.singleTileInAtlasFrameFlag
  uniform : got.uniformPartitionSpacingFlag = afti.uniformPartitionSpacingFlag
  columns : got.numPartitionColumnsMinus1 = afti.numPartitionColumnsMinus1
  rows : got.numPartitionRowsMinus1 = afti.numPartitionRowsMinus1
  partition : got.singlePartitionPerTileFlag = afti.singlePartitionPerTileFlag
  tiles : got.numTilesInAtlasFrameMinus1 = afti.numTilesInAtlasFrameMinus1
  signalled : got.signalledTileIdFlag = afti.signalledTileIdFlag
  idLength : got.signalledTileIdLengthMinus1 = afti.signalledTileIdLengthMinus1
  widths : ∀ i < codedSizes afti.uniformPartitionSpacingFlag afti.numPartitionColumnsMinus1,
    got.partitionColumnWidthMinus1[i]? = afti.partitionColumnWidthMinus1[i]?
  heights : ∀ i < codedSizes afti.uniformPartitionSpacingFlag afti.numPartitionRowsMinus1,
    got.partitionRowHeightMinus1[i]? = afti.partitionRowHeightMinus1[i]?
  topLeft : ∀ i ≤ afti.numTilesInAtlasFrameMinus1,
    got.topLeftPartitionIdx[i]? = afti.topLeftPartitionIdx[i]?
  columnOffset : ∀ i ≤ afti.numTilesInAtlasFrameMinus1,
    got.bottomRightPartitionColumnOffset[i]? = afti.bottomRightPartitionColumnOffset[i]?
  rowOffset : ∀ i ≤ afti.numTilesInAtlasFrameMinus1,
    got.bottomRightPartitionRowOffset[i]? = afti.bottomRightPartitionRowOffset[i]?
  tileId : ∀ i ≤ afti.numTilesInAtlasFrameMinus1, got.tileId[i]? = afti.tileId[i]?
  auxiliaryWidth : asps.auxiliaryVideoEnabledFlag = true →
    got.auxiliaryVideoTileRowWidthMinus1 = afti.auxiliaryVideoTileRowWidthMinus1
  auxiliaryHeight : asps.auxiliaryVideoEnabledFlag = true →
    ∀ i ≤ afti.numTilesInAtlasFrameMinus1,
      got.getAuxiliaryVideoTileRowHeight i = afti.getAuxiliaryVideoTileRowHeight i

structure OneTile (afti : AtlasFrameTileInformation) : Prop where
  uniform : afti.uniformPartitionSpacingFlag = true
  columns : afti.numPartitionColumnsMinus1 = 0
  rows : afti.numPartitionRowsMinus1 = 0
  partition : afti.singlePartitionPerTileFlag = 0
  tiles : afti.numTilesInAtlasFrameMinus1 = 0
  width : afti.partitionColumnWidthMinus1[0]? = some 0
  height : afti.partitionRowHeightMinus1[0]? = some 0
  topLeft : afti.topLeftPartitionIdx[0]? = some 0
  columnOffset : afti.bottomRightPartitionColumnOffset[0]? = some 0
  rowOffset : afti.bottomRightPartitionRowOffset[0]? = some 0

structure TilePerPartition (afti : AtlasFrameTileInformation) : Prop where
  tiles : afti.numTilesInAtlasFrameMinus1 + 1 =
    (afti.numPartitionColumnsMinus1 + 1) * (afti.numPartitionRowsMinus1 + 1)
  topLeft : ∀ i ≤ afti.numTilesInAtlasFrameMinus1, afti.topLeftPartitionIdx[i]? = some i
  columnOffset : ∀ i ≤ afti.numTilesInAtlasFrameMinus1,
    afti.bottomRightPartitionColumnOffset[i]? = some 0
  rowOffset : ∀ i ≤ afti.numTilesInAtlasFrameMinus1,
    afti.bottomRightPartitionRowOffset[i]? = some 0

/-- What is not coded is what the reader derives. -/
structure Restorable (afti : AtlasFrameTileInformation) : Prop where
  oneTile : afti.singleTileInAtlasFrameFlag = true → afti.OneTile
  tilePerPartition : afti.singleTileInAtlasFrameFlag = false →
    afti.singlePartitionPerTileFlag ≠ 0 → afti.TilePerPartition
  idLength : afti.signalledTileIdFlag = false → afti.signalledTileIdLengthMinus1 = 0
  tileId : afti.signalledTileIdFlag = false →
    ∀ i ≤ afti.numTilesInAtlasFrameMinus1, afti.tileId[i]? = some i

/-- The first `n` entries of a vector that has as many. -/
def firstEntries (xs : List ℕ) (n : ℕ) : List ℕ := (List.range n).map fun i => xs.getD i 0

theorem getElem?_firstEntries {xs : List ℕ} {n i : ℕ} (hn : n ≤ xs.length) (hi : i < n) :
    (firstEntries xs n)[i]? = xs[i]? := by
  unfold firstEntries
  rw [List.getElem?_map, List.getElem?_range hi, Option.map_some,
    List.getD_eq_getElem _ _ (by omega), List.getElem?_eq_getElem (by omega)]

theorem firstEntries_eq {xs : List ℕ} {n : ℕ} {f : ℕ → ℕ} (h : ∀ i < n, xs[i]? = some (f i)) :
    firstEntries xs n = (List.range n).map f := by
  apply List.map_congr_left
  intro i hi
  rw [List.getD_eq_getElem?_getD, h i (List.mem_range.mp hi), Option.getD_some]

theorem getD_of_lt {xs : List ℕ} {i : ℕ} (hi : i < xs.length) : xs[i]? = some (xs.getD i 0) := by
  rw [List.getD_eq_getElem _ _ hi, List.getElem?_eq_getElem hi]

/-- What the reader has behind the sizes of the partitions. -/
def partitionsReceived (afti : AtlasFrameTileInformation) : AtlasFrameTileInformation where
  uniformPartitionSpacingFlag := afti.uniformPartitionSpacingFlag
  numPartitionColumnsMinus1 := afti.numPartitionColumnsMinus1
  numPartitionRowsMinus1 := afti.numPartitionRowsMinus1
  partitionColumnWidthMinus1 := PCCBitstreamReader.resizePartitions
    (afti.partitionColumnWidthMinus1.take
      (codedSizes afti.uniformPartitionSpacingFlag afti.numPartitionColumnsMinus1))
    afti.numPartitionColumnsMinus1
  partitionRowHeightMinus1 := PCCBitstreamReader.resizePartitions
    (afti.partitionRowHeightMinus1.take
      (codedSizes afti.uniformPartitionSpacingFlag afti.numPartitionRowsMinus1))
    afti.numPartitionRowsMinus1

/-- What the reader has behind the tiles. -/
def tilesReceived (afti : AtlasFrameTileInformation) : AtlasFrameTileInformation :=
  { afti.partitionsReceived with
    singlePartitionPerTileFlag := afti.singlePartitionPerTileFlag
    numTilesInAtlasFrameMinus1 := afti.numTilesInAtlasFrameMinus1
    topLeftPartitionIdx :=
      firstEntries afti.topLeftPartitionIdx (afti.numTilesInAtlasFrameMinus1 + 1)
    bottomRightPartitionColumnOffset :=
      firstEntries afti.bottomRightPartitionColumnOffset (afti.numTilesInAtlasFrameMinus1 + 1)
    bottomRightPartitionRowOffset :=
      firstEntries afti.bottomRightPartitionRowOffset (afti.numTilesInAtlasFrameMinus1 + 1) }

/-- What the reader gives. -/
def received (asps : AtlasSequenceParameterSetRbsp) (afti : AtlasFrameTileInformation) :
    AtlasFrameTileInformation :=
  { afti.tilesReceived with
    singleTileInAtlasFrameFlag := afti.singleTileInAtlasFrameFlag
    auxiliaryVideoTileRowWidthMinus1 :=
      if asps.auxiliaryVideoEnabledFlag then afti.auxiliaryVideoTileRowWidthMinus1 else 0
    auxiliaryVideoTileRowHeight :=
      if asps.auxiliaryVideoEnabledFlag then
        (List.range (afti.numTilesInAtlasFrameMinus1 + 1)).map fun i =>
          (afti.getAuxiliaryVideoTileRowHeight i).getD 0
      else []
    signalledTileIdFlag := afti.signalledTileIdFlag
    signalledTileIdLengthMinus1 := afti.signalledTileIdLengthMinus1
    tileId := firstEntries afti.tileId (afti.numTilesInAtlasFrameMinus1 + 1) }

section RoundTrip

variable {asps : AtlasSequenceParameterSetRbsp} {afti : AtlasFrameTileInformation}

theorem partitionSizes_roundTrip {sizes : List ℕ} {n : ℕ} (hlength : n ≤ sizes.length)
    (hcoded : ∀ size ∈ sizes, size + 1 < 2 ^ 32) :
    RoundTrip (PCCBitstreamWriter.partitionSizes sizes n)
      (Reader.repeatFrom 0 n fun _ => readUvlc) (sizes.take n) := by
  unfold PCCBitstreamWriter.partitionSizes
  apply RoundTrip.forEach_range 0 hlength
  intro size hsize
  exact RoundTrip.uvlc (hcoded size (List.mem_of_mem_take hsize))

theorem take_one {xs : List ℕ} {x : ℕ} (h : xs[0]? = some x) : xs.take 1 = [x] := by
  rw [List.take_add_one, h]
  rfl

theorem InRange.partitionSpacing_roundTrip (h : afti.InRange asps)
    (hframe : asps.frameWidth < 2 ^ 16 ∧ asps.frameHeight < 2 ^ 16)
    (hmany : afti.singleTileInAtlasFrameFlag = false) :
    RoundTrip (PCCBitstreamWriter.partitionSpacing afti)
      (if afti.uniformPartitionSpacingFlag then
        PCCBitstreamReader.uniformPartitions asps
          { uniformPartitionSpacingFlag := afti.uniformPartitionSpacingFlag }
      else
        PCCBitstreamReader.explicitPartitions
          { uniformPartitionSpacingFlag := afti.uniformPartitionSpacingFlag })
      afti.partitionsReceived := by
  have hcolumns := h.columns hmany
  have hrows := h.rows hmany
  have hcolumnCount := hcolumns.count_lt
  have hrowCount := hrows.count_lt
  unfold PCCBitstreamWriter.partitionSpacing partitionsReceived codedSizes
  by_cases huniform : afti.uniformPartitionSpacingFlag = true
  · obtain ⟨width, hwidth, hderivedColumns⟩ := hcolumns.ofUniform huniform
    obtain ⟨height, hheight, hderivedRows⟩ := hrows.ofUniform huniform
    simp only [if_pos huniform, take_one hwidth, take_one hheight]
    rw [hwidth, hheight, Writer.ofOption_some, Writer.ofOption_some, pure_bind, pure_bind]
    apply (RoundTrip.uvlc (hcolumns.coded width (List.mem_of_getElem? hwidth))).bind
    have hlast := RoundTrip.uvlc (hrows.coded height (List.mem_of_getElem? hheight))
    apply hlast.then_pure
    rw [hderivedColumns, hderivedRows, Reader.ofOption_some, Reader.ofOption_some, pure_bind,
      pure_bind]
    exact RoundTrip.pure _
  · have hexplicit : afti.uniformPartitionSpacingFlag = false := by simpa using huniform
    simp only [if_neg huniform]
    apply (RoundTrip.uvlc (by omega)).bind
    apply (RoundTrip.uvlc (by omega)).bind
    apply (partitionSizes_roundTrip (hcolumns.ofExplicit hexplicit).1 hcolumns.coded).bind
    exact (partitionSizes_roundTrip (hrows.ofExplicit hexplicit).1 hrows.coded).last rfl

theorem InRange.partitions_lt (h : afti.InRange asps)
    (hframe : asps.frameWidth < 2 ^ 16 ∧ asps.frameHeight < 2 ^ 16)
    (hmany : afti.singleTileInAtlasFrameFlag = false) :
    (afti.numPartitionColumnsMinus1 + 1) * (afti.numPartitionRowsMinus1 + 1) < 2 ^ 32 := by
  have hcolumns := (h.columns hmany).count_lt
  have hrows := (h.rows hmany).count_lt
  calc (afti.numPartitionColumnsMinus1 + 1) * (afti.numPartitionRowsMinus1 + 1)
      ≤ asps.frameWidth * asps.frameHeight := Nat.mul_le_mul hcolumns hrows
    _ < 2 ^ 16 * 2 ^ 16 := Nat.mul_lt_mul'' hframe.1 hframe.2

theorem InRange.signalledTile_roundTrip (h : afti.InRange asps)
    (hframe : asps.frameWidth < 2 ^ 16 ∧ asps.frameHeight < 2 ^ 16)
    (hmany : afti.singleTileInAtlasFrameFlag = false) {got : AtlasFrameTileInformation}
    (hgot : PCCBitstreamReader.numPartitions got = PCCBitstreamReader.numPartitions afti) {i : ℕ}
    (hi : i ≤ afti.numTilesInAtlasFrameMinus1) :
    RoundTrip (PCCBitstreamWriter.signalledTile afti i)
      (do
        let topLeft ← read (toUInt8 (ceilLog2 (PCCBitstreamReader.numPartitions got)))
        let column ← readUvlc
        let row ← readUvlc
        pure (topLeft, column, row))
      (afti.topLeftPartitionIdx.getD i 0, afti.bottomRightPartitionColumnOffset.getD i 0,
        afti.bottomRightPartitionRowOffset.getD i 0) := by
  have htopLeft := getD_of_lt (hi.trans_lt h.topLeft_length)
  have hcolumn := getD_of_lt (hi.trans_lt h.column_length)
  have hrow := getD_of_lt (hi.trans_lt h.row_length)
  have hpartitions := h.partitions_lt hframe hmany
  have hcount : PCCBitstreamReader.numPartitions afti =
      (afti.numPartitionColumnsMinus1 + 1) * (afti.numPartitionRowsMinus1 + 1) :=
    Nat.mod_eq_of_lt hpartitions
  have hbits := ceilLog2_bits (Nat.mul_pos (Nat.succ_pos _) (Nat.succ_pos _)) hpartitions
  have htopLeftLt := h.topLeft_lt hmany _ (List.mem_of_getElem? htopLeft)
  unfold PCCBitstreamWriter.signalledTile
  rw [htopLeft, hcolumn, hrow, hgot, hcount]
  simp only [Writer.ofOption_some, pure_bind]
  apply (RoundTrip.write (htopLeftLt.trans_le hbits.2) hbits.1).bind
  apply (RoundTrip.uvlc (h.column_lt _ (List.mem_of_getElem? hcolumn))).bind
  exact (RoundTrip.uvlc (h.row_lt _ (List.mem_of_getElem? hrow))).last rfl

theorem InRange.signalledTiles_roundTrip (h : afti.InRange asps)
    (hframe : asps.frameWidth < 2 ^ 16 ∧ asps.frameHeight < 2 ^ 16)
    (hmany : afti.singleTileInAtlasFrameFlag = false) {got : AtlasFrameTileInformation}
    (hgot : PCCBitstreamReader.numPartitions got = PCCBitstreamReader.numPartitions afti) :
    RoundTrip
      (do
        writeUvlc afti.numTilesInAtlasFrameMinus1
        Writer.forEach (List.range (afti.numTilesInAtlasFrameMinus1 + 1))
          (PCCBitstreamWriter.signalledTile afti))
      (PCCBitstreamReader.signalledTiles got)
      { got with
        numTilesInAtlasFrameMinus1 := afti.numTilesInAtlasFrameMinus1
        topLeftPartitionIdx :=
          firstEntries afti.topLeftPartitionIdx (afti.numTilesInAtlasFrameMinus1 + 1)
        bottomRightPartitionColumnOffset :=
          firstEntries afti.bottomRightPartitionColumnOffset (afti.numTilesInAtlasFrameMinus1 + 1)
        bottomRightPartitionRowOffset :=
          firstEntries afti.bottomRightPartitionRowOffset
            (afti.numTilesInAtlasFrameMinus1 + 1) } := by
  unfold PCCBitstreamReader.signalledTiles
  apply (RoundTrip.uvlc h.tiles_lt).bind
  have hloop := RoundTrip.forEach_repeat
    (List.range (afti.numTilesInAtlasFrameMinus1 + 1)) 0 fun i hi =>
      h.signalledTile_roundTrip hframe hmany hgot (Nat.le_of_lt_succ (List.mem_range.mp hi))
  rw [List.length_range] at hloop
  apply hloop.last
  unfold firstEntries
  simp only [List.map_map, Function.comp_def]

theorem InRange.partitionTiles_eq (h : afti.InRange asps)
    (hframe : asps.frameWidth < 2 ^ 16 ∧ asps.frameHeight < 2 ^ 16)
    (hmany : afti.singleTileInAtlasFrameFlag = false) (htiles : afti.TilePerPartition)
    {got : AtlasFrameTileInformation}
    (hgot : PCCBitstreamReader.numPartitions got = PCCBitstreamReader.numPartitions afti) :
    PCCBitstreamReader.partitionTiles got =
      { got with
        numTilesInAtlasFrameMinus1 := afti.numTilesInAtlasFrameMinus1
        topLeftPartitionIdx :=
          firstEntries afti.topLeftPartitionIdx (afti.numTilesInAtlasFrameMinus1 + 1)
        bottomRightPartitionColumnOffset :=
          firstEntries afti.bottomRightPartitionColumnOffset (afti.numTilesInAtlasFrameMinus1 + 1)
        bottomRightPartitionRowOffset :=
          firstEntries afti.bottomRightPartitionRowOffset
            (afti.numTilesInAtlasFrameMinus1 + 1) } := by
  have hpartitions := h.partitions_lt hframe hmany
  have hcount : PCCBitstreamReader.numPartitions got = afti.numTilesInAtlasFrameMinus1 + 1 := by
    rw [hgot, htiles.tiles]
    exact Nat.mod_eq_of_lt hpartitions
  have hlast : (PCCBitstreamReader.numPartitions got + 2 ^ 32 - 1) % 2 ^ 32 =
      afti.numTilesInAtlasFrameMinus1 := by
    have := h.tiles_lt
    rw [hcount]
    omega
  unfold PCCBitstreamReader.partitionTiles
  simp only [hlast]
  rw [firstEntries_eq fun i hi => htiles.topLeft i (Nat.le_of_lt_succ hi),
    firstEntries_eq fun i hi => htiles.columnOffset i (Nat.le_of_lt_succ hi),
    firstEntries_eq fun i hi => htiles.rowOffset i (Nat.le_of_lt_succ hi), List.map_id',
    List.map_const', List.length_range]

theorem readTilePartitions_eq (asps : AtlasSequenceParameterSetRbsp) :
    PCCBitstreamReader.tilePartitions asps =
      readFlag >>= fun uniform =>
        (if uniform then
          PCCBitstreamReader.uniformPartitions asps { uniformPartitionSpacingFlag := uniform }
        else
          PCCBitstreamReader.explicitPartitions { uniformPartitionSpacingFlag := uniform }) >>=
            fun afti => read 1 >>= fun single =>
              if single = 0 then
                PCCBitstreamReader.signalledTiles { afti with singlePartitionPerTileFlag := single }
              else
                pure (PCCBitstreamReader.partitionTiles
                  { afti with singlePartitionPerTileFlag := single }) := by
  unfold PCCBitstreamReader.tilePartitions
  congr 1
  funext uniform
  cases uniform <;> rfl

theorem InRange.tilePartitions_roundTrip (h : afti.InRange asps)
    (hframe : asps.frameWidth < 2 ^ 16 ∧ asps.frameHeight < 2 ^ 16)
    (hrestorable : afti.Restorable) (hmany : afti.singleTileInAtlasFrameFlag = false) :
    RoundTrip (PCCBitstreamWriter.tilePartitions afti) (PCCBitstreamReader.tilePartitions asps)
      afti.tilesReceived := by
  have hpartition : afti.singlePartitionPerTileFlag < 2 ^ 1 := Nat.lt_succ_of_le h.partition_le
  unfold PCCBitstreamWriter.tilePartitions
  rw [readTilePartitions_eq]
  apply (RoundTrip.flag afti.uniformPartitionSpacingFlag).bind
  apply (h.partitionSpacing_roundTrip hframe hmany).bind
  apply (RoundTrip.write hpartition (by decide)).bind
  by_cases hzero : afti.singlePartitionPerTileFlag = 0
  · rw [if_pos hzero, beq_iff_eq.mpr hzero, Writer.when_true]
    exact h.signalledTiles_roundTrip hframe hmany rfl
  · have htiles := hrestorable.tilePerPartition hmany hzero
    have hcount : PCCBitstreamReader.numPartitions
        { afti.partitionsReceived with
          singlePartitionPerTileFlag := afti.singlePartitionPerTileFlag } =
        PCCBitstreamReader.numPartitions afti := rfl
    have hderived := h.partitionTiles_eq hframe hmany htiles hcount
    rw [if_neg hzero, beq_eq_false_iff_ne.mpr hzero, Writer.when_false, hderived]
    exact RoundTrip.pure _

theorem OneTile.tilesReceived_eq (h : afti.OneTile) : afti.tilesReceived = {} := by
  have hfirst : ∀ {xs : List ℕ}, xs[0]? = some 0 →
      firstEntries xs (afti.numTilesInAtlasFrameMinus1 + 1) = [0] := by
    intro xs hxs
    rw [h.tiles]
    unfold firstEntries
    rw [List.range_one, List.map_singleton, List.getD_eq_getElem?_getD, hxs, Option.getD_some]
  unfold tilesReceived partitionsReceived
  rw [hfirst h.topLeft, hfirst h.columnOffset, hfirst h.rowOffset, h.uniform, h.columns, h.rows,
    h.partition, h.tiles]
  unfold codedSizes
  rw [if_pos rfl, take_one h.width, take_one h.height]
  rfl

theorem InRange.roundTrip (h : afti.InRange asps)
    (hframe : asps.frameWidth < 2 ^ 16 ∧ asps.frameHeight < 2 ^ 16) (hrestorable : afti.Restorable) :
    RoundTrip (PCCBitstreamWriter.atlasFrameTileInformation afti asps)
      (PCCBitstreamReader.atlasFrameTileInformation asps) (afti.received asps) := by
  unfold PCCBitstreamWriter.atlasFrameTileInformation PCCBitstreamReader.atlasFrameTileInformation
    PCCBitstreamWriter.auxiliaryVideoTiles PCCBitstreamWriter.signalledTileIds
  simp only [Writer.when_bind, bind_assoc]
  apply (RoundTrip.flag afti.singleTileInAtlasFrameFlag).bind
  apply RoundTrip.bind (x := afti.tilesReceived)
  · apply RoundTrip.when_whenElse
    · intro hmany
      exact h.tilePartitions_roundTrip hframe hrestorable (by simpa using hmany)
    · intro hsingle
      exact (hrestorable.oneTile (by simpa using hsingle)).tilesReceived_eq
  apply RoundTrip.bind (x := (afti.received asps).auxiliaryVideoTileRowWidthMinus1)
  · exact RoundTrip.when_default fun _ => RoundTrip.uvlc h.auxiliaryWidth_lt
  apply RoundTrip.bind (x := (afti.received asps).auxiliaryVideoTileRowHeight)
  · apply RoundTrip.when_default
    intro hauxiliary
    have hloop : ∀ i ∈ List.range (afti.numTilesInAtlasFrameMinus1 + 1), RoundTrip
        (Writer.ofOption (afti.getAuxiliaryVideoTileRowHeight i) >>= writeUvlc) readUvlc
        ((afti.getAuxiliaryVideoTileRowHeight i).getD 0) := by
      intro i hi
      obtain ⟨height, hheight, hcoded⟩ :=
        h.auxiliaryHeight hauxiliary i (Nat.le_of_lt_succ (List.mem_range.mp hi))
      rw [hheight, Writer.ofOption_some, pure_bind]
      exact RoundTrip.uvlc hcoded
    have hround := RoundTrip.forEach_repeat
      (List.range (afti.numTilesInAtlasFrameMinus1 + 1)) 0 hloop
    rwa [List.length_range] at hround
  apply (RoundTrip.flag afti.signalledTileIdFlag).bind
  apply RoundTrip.bind (x := afti.signalledTileIdLengthMinus1)
  · apply RoundTrip.when_whenElse
    · intro hsignalled
      have hle := h.idLength_le hsignalled
      exact RoundTrip.uvlc (by omega)
    · exact hrestorable.idLength
  apply RoundTrip.last (x := firstEntries afti.tileId (afti.numTilesInAtlasFrameMinus1 + 1)) _ rfl
  apply RoundTrip.when_whenElse
  · intro hsignalled
    have hle := h.idLength_le hsignalled
    have hloop : ∀ i ∈ List.range (afti.numTilesInAtlasFrameMinus1 + 1), RoundTrip
        (Writer.ofOption afti.tileId[i]? >>= fun id =>
          write id ((afti.signalledTileIdLengthMinus1 + 1) % 2 ^ 8))
        (read ((afti.signalledTileIdLengthMinus1 + 1) % 2 ^ 8)) (afti.tileId.getD i 0) := by
      intro i hi
      have hid := getD_of_lt ((Nat.le_of_lt_succ (List.mem_range.mp hi)).trans_lt h.id_length)
      rw [hid, Writer.ofOption_some, pure_bind, Nat.mod_eq_of_lt (by omega)]
      exact RoundTrip.write (h.id_lt hsignalled _ (List.mem_of_getElem? hid)) hle
    have hround := RoundTrip.forEach_repeat
      (List.range (afti.numTilesInAtlasFrameMinus1 + 1)) 0 hloop
    rwa [List.length_range] at hround
  · intro hnone
    rw [firstEntries_eq fun i hi => hrestorable.tileId hnone i (Nat.le_of_lt_succ hi), List.map_id']
    rfl

theorem codedSizes_le (uniform : Bool) (n : ℕ) : codedSizes uniform n ≤ max 1 n := by
  unfold codedSizes
  split_ifs <;> omega

theorem codedSizes_le_length {uniform : Bool} {frameSize n : ℕ} {minus1 : List ℕ}
    (h : AxisAgrees uniform frameSize n minus1) : codedSizes uniform n ≤ minus1.length := by
  unfold codedSizes
  cases uniform with
  | true =>
    obtain ⟨first, hfirst, -⟩ := h.ofUniform rfl
    exact (List.getElem?_eq_some_iff.mp hfirst).1
  | false => exact (h.ofExplicit rfl).1

theorem getElem?_resizePartitions {sizes : List ℕ} {n c i : ℕ} (hlength : c ≤ sizes.length)
    (hn : c ≤ max 1 n) (hi : i < c) :
    (PCCBitstreamReader.resizePartitions (sizes.take c) n)[i]? = sizes[i]? := by
  have htake : i < (sizes.take c).length := by
    rw [List.length_take_of_le hlength]
    exact hi
  unfold PCCBitstreamReader.resizePartitions
  rw [List.getElem?_take_of_lt (by omega), List.getElem?_append_left htake,
    List.getElem?_take_of_lt hi]

theorem InRange.restored_received (h : afti.InRange asps) (hrestorable : afti.Restorable) :
    afti.Restored asps (afti.received asps) := by
  have hwidths : codedSizes afti.uniformPartitionSpacingFlag afti.numPartitionColumnsMinus1 ≤
      afti.partitionColumnWidthMinus1.length := by
    cases hsingle : afti.singleTileInAtlasFrameFlag with
    | true =>
      have hone := hrestorable.oneTile hsingle
      rw [hone.uniform]
      exact (List.getElem?_eq_some_iff.mp hone.width).1
    | false => exact codedSizes_le_length (h.columns hsingle)
  have hheights : codedSizes afti.uniformPartitionSpacingFlag afti.numPartitionRowsMinus1 ≤
      afti.partitionRowHeightMinus1.length := by
    cases hsingle : afti.singleTileInAtlasFrameFlag with
    | true =>
      have hone := hrestorable.oneTile hsingle
      rw [hone.uniform]
      exact (List.getElem?_eq_some_iff.mp hone.height).1
    | false => exact codedSizes_le_length (h.rows hsingle)
  exact {
    single := rfl
    uniform := rfl
    columns := rfl
    rows := rfl
    partition := rfl
    tiles := rfl
    signalled := rfl
    idLength := rfl
    widths := fun i hi => getElem?_resizePartitions hwidths (codedSizes_le _ _) hi
    heights := fun i hi => getElem?_resizePartitions hheights (codedSizes_le _ _) hi
    topLeft := fun i hi => getElem?_firstEntries h.topLeft_length (Nat.lt_succ_of_le hi)
    columnOffset := fun i hi => getElem?_firstEntries h.column_length (Nat.lt_succ_of_le hi)
    rowOffset := fun i hi => getElem?_firstEntries h.row_length (Nat.lt_succ_of_le hi)
    tileId := fun i hi => getElem?_firstEntries h.id_length (Nat.lt_succ_of_le hi)
    auxiliaryWidth := fun hauxiliary => if_pos hauxiliary
    auxiliaryHeight := by
      intro hauxiliary i hi
      obtain ⟨height, hheight, -⟩ := h.auxiliaryHeight hauxiliary i hi
      have hlist : (afti.received asps).auxiliaryVideoTileRowHeight =
          (List.range (afti.numTilesInAtlasFrameMinus1 + 1)).map fun i =>
            (afti.getAuxiliaryVideoTileRowHeight i).getD 0 := if_pos hauxiliary
      rw [getAuxiliaryVideoTileRowHeight, hlist, List.length_map, List.length_range,
        if_neg (Nat.succ_ne_zero _), List.getElem?_map,
        List.getElem?_range (Nat.lt_succ_of_le hi), Option.map_some, hheight, Option.getD_some] }

structure DerivedTiles (got : AtlasFrameTileInformation) : Prop where
  tiles : got.numTilesInAtlasFrameMinus1 =
    (PCCBitstreamReader.numPartitions got + 2 ^ 32 - 1) % 2 ^ 32
  topLeft : got.topLeftPartitionIdx = List.range (got.numTilesInAtlasFrameMinus1 + 1)
  columnOffset : got.bottomRightPartitionColumnOffset =
    List.replicate (got.numTilesInAtlasFrameMinus1 + 1) 0
  rowOffset : got.bottomRightPartitionRowOffset =
    List.replicate (got.numTilesInAtlasFrameMinus1 + 1) 0

/-- What the reader can give. -/
structure Given (got : AtlasFrameTileInformation) : Prop where
  oneTile : got.singleTileInAtlasFrameFlag = true → got.OneTile
  derived : got.singleTileInAtlasFrameFlag = false → got.singlePartitionPerTileFlag ≠ 0 →
    got.DerivedTiles
  idLength : got.signalledTileIdFlag = false → got.signalledTileIdLengthMinus1 = 0
  tileId : got.signalledTileIdFlag = false →
    got.tileId = List.range (got.numTilesInAtlasFrameMinus1 + 1)

theorem numPartitions_congr (afti afti' : AtlasFrameTileInformation)
    (hcolumns : afti.numPartitionColumnsMinus1 = afti'.numPartitionColumnsMinus1)
    (hrows : afti.numPartitionRowsMinus1 = afti'.numPartitionRowsMinus1) :
    PCCBitstreamReader.numPartitions afti = PCCBitstreamReader.numPartitions afti' := by
  unfold PCCBitstreamReader.numPartitions
  rw [hcolumns, hrows]

/-- One tile for each of `tiles + 1` partitions. -/
def withTiles (got : AtlasFrameTileInformation) (tiles : ℕ) : AtlasFrameTileInformation :=
  { got with
    numTilesInAtlasFrameMinus1 := tiles
    topLeftPartitionIdx := List.range (tiles + 1)
    bottomRightPartitionColumnOffset := List.replicate (tiles + 1) 0
    bottomRightPartitionRowOffset := List.replicate (tiles + 1) 0 }

theorem withTiles_derived {got : AtlasFrameTileInformation} {tiles : ℕ}
    (htiles : tiles = (PCCBitstreamReader.numPartitions got + 2 ^ 32 - 1) % 2 ^ 32) :
    (got.withTiles tiles).DerivedTiles where
  tiles := htiles.trans (by rw [numPartitions_congr (got.withTiles tiles) got rfl rfl])
  topLeft := rfl
  columnOffset := rfl
  rowOffset := rfl

theorem partitionTiles_derived (got : AtlasFrameTileInformation) :
    (PCCBitstreamReader.partitionTiles got).DerivedTiles :=
  withTiles_derived rfl

theorem tilePartitions_ensures (asps : AtlasSequenceParameterSetRbsp) :
    Reader.Ensures (PCCBitstreamReader.tilePartitions asps)
      fun got => got.singlePartitionPerTileFlag ≠ 0 → got.DerivedTiles := by
  rw [readTilePartitions_eq]
  refine .bind fun uniform => .bind fun got => .bind fun single => ?_
  by_cases hzero : single = 0
  · rw [if_pos hzero]
    unfold PCCBitstreamReader.signalledTiles
    exact .bind fun _ => .bind fun _ => .pure fun hne => absurd hzero hne
  · rw [if_neg hzero]
    exact .pure fun _ => partitionTiles_derived _

theorem reader_given (asps : AtlasSequenceParameterSetRbsp) :
    Reader.Ensures (PCCBitstreamReader.atlasFrameTileInformation asps) Given := by
  unfold PCCBitstreamReader.atlasFrameTileInformation
  refine .bind fun single => ?_
  refine (Reader.Ensures.with_default (tilePartitions_ensures asps)
    fun hne => absurd rfl hne).then_bind fun afti hafti => ?_
  refine .bind fun width => .bind fun heights => .bind fun signalled => ?_
  refine (Reader.Ensures.default _ _ _).then_bind fun length hlength => ?_
  refine (Reader.Ensures.default _ _ _).then_bind fun ids hids => .pure ?_
  constructor
  · intro hsingle
    have hdefault : afti = {} := hafti.2 (by rw [show single = true from hsingle]; rfl)
    rw [hdefault]
    exact ⟨rfl, rfl, rfl, rfl, rfl, rfl, rfl, rfl, rfl, rfl⟩
  · intro _ hne
    obtain ⟨htiles, htopLeft, hcolumn, hrow⟩ := hafti.1 hne
    exact ⟨htiles, htopLeft, hcolumn, hrow⟩
  · exact hlength
  · exact hids

theorem Restored.oneTile {got : AtlasFrameTileInformation} (h : afti.Restored asps got)
    (hgot : got.OneTile) : afti.OneTile := by
  have huniform : afti.uniformPartitionSpacingFlag = true := by rw [← h.uniform, hgot.uniform]
  have hcoded : ∀ n, 0 < codedSizes afti.uniformPartitionSpacingFlag n := by
    intro n
    unfold codedSizes
    rw [if_pos huniform]
    exact Nat.one_pos
  exact {
    uniform := huniform
    columns := h.columns.symm.trans hgot.columns
    rows := h.rows.symm.trans hgot.rows
    partition := h.partition.symm.trans hgot.partition
    tiles := h.tiles.symm.trans hgot.tiles
    width := (h.widths 0 (hcoded _)).symm.trans hgot.width
    height := (h.heights 0 (hcoded _)).symm.trans hgot.height
    topLeft := (h.topLeft 0 (Nat.zero_le _)).symm.trans hgot.topLeft
    columnOffset := (h.columnOffset 0 (Nat.zero_le _)).symm.trans hgot.columnOffset
    rowOffset := (h.rowOffset 0 (Nat.zero_le _)).symm.trans hgot.rowOffset }

theorem Restored.tilePerPartition {got : AtlasFrameTileInformation} (h : afti.Restored asps got)
    (hgot : got.DerivedTiles)
    (hpartitions : (afti.numPartitionColumnsMinus1 + 1) * (afti.numPartitionRowsMinus1 + 1) <
      2 ^ 32) : afti.TilePerPartition := by
  have hcount : PCCBitstreamReader.numPartitions got =
      (afti.numPartitionColumnsMinus1 + 1) * (afti.numPartitionRowsMinus1 + 1) := by
    rw [numPartitions_congr got afti h.columns h.rows]
    exact Nat.mod_eq_of_lt hpartitions
  have hpos : 0 < (afti.numPartitionColumnsMinus1 + 1) * (afti.numPartitionRowsMinus1 + 1) :=
    Nat.mul_pos (Nat.succ_pos _) (Nat.succ_pos _)
  have htiles := hgot.tiles
  rw [hcount, h.tiles] at htiles
  exact {
    tiles := by omega
    topLeft := by
      intro i hi
      rw [← h.topLeft i hi, hgot.topLeft, h.tiles, List.getElem?_range (Nat.lt_succ_of_le hi)]
    columnOffset := by
      intro i hi
      rw [← h.columnOffset i hi, hgot.columnOffset, h.tiles,
        List.getElem?_replicate_of_lt (Nat.lt_succ_of_le hi)]
    rowOffset := by
      intro i hi
      rw [← h.rowOffset i hi, hgot.rowOffset, h.tiles,
        List.getElem?_replicate_of_lt (Nat.lt_succ_of_le hi)] }

/-- What has come back as the reader gives it can be restored. -/
theorem Restored.restorable {got : AtlasFrameTileInformation} (h : afti.Restored asps got)
    (hgot : got.Given) (hinRange : afti.InRange asps)
    (hframe : asps.frameWidth < 2 ^ 16 ∧ asps.frameHeight < 2 ^ 16) : afti.Restorable where
  oneTile hsingle := h.oneTile (hgot.oneTile (h.single.trans hsingle))
  tilePerPartition hmany hpartition := by
    apply h.tilePerPartition (hgot.derived (h.single.trans hmany) ?_)
      (hinRange.partitions_lt hframe hmany)
    rwa [h.partition]
  idLength hnone := by rw [← h.idLength, hgot.idLength (h.signalled.trans hnone)]
  tileId hnone i hi := by
    rw [← h.tileId i hi, hgot.tileId (h.signalled.trans hnone), h.tiles,
      List.getElem?_range (Nat.lt_succ_of_le hi)]

end RoundTrip

end AtlasFrameTileInformation

namespace AtlasFrameParameterSetRbsp

/-- The elements fit their bits. -/
structure InRange (asps : AtlasSequenceParameterSetRbsp) (afps : AtlasFrameParameterSetRbsp) :
    Prop where
  id_lt : afps.atlasFrameParameterSetId < 2 ^ 8
  sequenceId_lt : afps.atlasSequenceParameterSetId < 2 ^ 8
  tiles : afps.atlasFrameTileInformation.InRange asps
  active_lt : afps.numRefIdxDefaultActiveMinus1 < 2 ^ 8
  additional_lt : afps.additionalLtAfocLsbLen < 2 ^ 8
  extension_lt : afps.extension8Bits < 2 ^ 8

structure Restorable (afps : AtlasFrameParameterSetRbsp) : Prop where
  tiles : afps.atlasFrameTileInformation.Restorable
  noExtension : afps.extensionFlag = false → afps.extension8Bits = 0

/-- Every field has come back. -/
structure Restored (asps : AtlasSequenceParameterSetRbsp) (afps got : AtlasFrameParameterSetRbsp) :
    Prop where
  tiles : afps.atlasFrameTileInformation.Restored asps got.atlasFrameTileInformation
  others : got = { afps with atlasFrameTileInformation := got.atlasFrameTileInformation }

variable {sets : ActiveSets} {asps : AtlasSequenceParameterSetRbsp}
  {afps : AtlasFrameParameterSetRbsp}

/-- The set comes back, with the sequence parameter set that it refers to, up to the last bit,
which is that of a byte. -/
def RoundTrips (sets : ActiveSets) (asps : AtlasSequenceParameterSetRbsp)
    (afps : AtlasFrameParameterSetRbsp) : Prop :=
  (∃ got, RoundTrip (PCCBitstreamWriter.atlasFrameParameterSetRbsp afps sets.asps)
      (PCCBitstreamReader.atlasFrameParameterSetRbsp sets) (got, asps) ∧ afps.Restored asps got) ∧
    Writer.Aligned (PCCBitstreamWriter.atlasFrameParameterSetRbsp afps sets.asps)

theorem writer_aligned (sets : ActiveSets) (afps : AtlasFrameParameterSetRbsp) :
    Writer.Aligned (PCCBitstreamWriter.atlasFrameParameterSetRbsp afps sets.asps) := by
  unfold PCCBitstreamWriter.atlasFrameParameterSetRbsp
  iterate 11
    apply Writer.Aligned.bind
    intro _
  exact PCCBitstreamWriter.byteAlignment_aligned

theorem InRange.roundTrip (h : afps.InRange asps) (hasps : asps.InRange)
    (hset : sets.asps afps.atlasSequenceParameterSetId = some asps) (hrestorable : afps.Restorable) :
    RoundTrip (PCCBitstreamWriter.atlasFrameParameterSetRbsp afps sets.asps)
      (PCCBitstreamReader.atlasFrameParameterSetRbsp sets)
      ({ afps with atlasFrameTileInformation := afps.atlasFrameTileInformation.received asps },
        asps) := by
  unfold PCCBitstreamWriter.atlasFrameParameterSetRbsp
    PCCBitstreamReader.atlasFrameParameterSetRbsp PCCBitstreamReader.atlasFrameParameterSetBody
  apply (roundTrip_uvlc8 h.id_lt).bind
  apply (roundTrip_uvlc8 h.sequenceId_lt).bind
  apply RoundTrip.ofOption hset
  simp only [bind_assoc]
  apply (h.tiles.roundTrip ⟨hasps.width_lt, hasps.height_lt⟩ hrestorable.tiles).bind
  apply (RoundTrip.flag _).bind
  apply (roundTrip_uvlc8 h.active_lt).bind
  apply (roundTrip_uvlc8 h.additional_lt).bind
  apply (RoundTrip.flag _).bind
  apply (RoundTrip.flag _).bind
  apply (RoundTrip.flag _).bind
  apply RoundTrip.bind (x := afps.extension8Bits)
  · exact RoundTrip.when_whenElse (fun _ => RoundTrip.write h.extension_lt (by decide))
      hrestorable.noExtension
  exact byteAlignment_roundTrip.last rfl

theorem reader_given (sets : ActiveSets) :
    Reader.Ensures (PCCBitstreamReader.atlasFrameParameterSetRbsp sets) fun got =>
      got.1.atlasFrameTileInformation.Given ∧
        (got.1.extensionFlag = false → got.1.extension8Bits = 0) := by
  unfold PCCBitstreamReader.atlasFrameParameterSetRbsp
    PCCBitstreamReader.atlasFrameParameterSetBody
  simp only [bind_assoc]
  refine .bind fun id => .bind fun sequenceId => .bind fun asps => ?_
  refine (AtlasFrameTileInformation.reader_given asps).then_bind fun tiles htiles => ?_
  iterate 6
    apply Reader.Ensures.bind
    intro _
  refine (Reader.Ensures.default _ _ _).then_bind fun extension hextension => ?_
  refine .bind fun _ => ?_
  rw [pure_bind]
  exact .pure ⟨htiles, hextension⟩

theorem roundTrips_iff (h : afps.InRange asps) (hasps : asps.InRange)
    (hset : sets.asps afps.atlasSequenceParameterSetId = some asps) :
    afps.RoundTrips sets asps ↔ afps.Restorable := by
  constructor
  · rintro ⟨⟨got, hround, hrestored⟩, -⟩
    obtain ⟨bs, -, hread⟩ := hround 0
    have hgiven := reader_given sets _ _ _ (hread [])
    have hothers := hrestored.others
    have hflag : got.extensionFlag = afps.extensionFlag := by rw [hothers]
    have hextension : got.extension8Bits = afps.extension8Bits := by rw [hothers]
    constructor
    · exact hrestored.tiles.restorable hgiven.1 h.tiles ⟨hasps.width_lt, hasps.height_lt⟩
    · intro hnone
      rw [← hextension]
      exact hgiven.2 (hflag.trans hnone)
  · intro hrestorable
    refine ⟨⟨_, h.roundTrip hasps hset hrestorable, ?_⟩, writer_aligned sets afps⟩
    exact ⟨h.tiles.restored_received hrestorable.tiles, rfl⟩

end AtlasFrameParameterSetRbsp

/-- Parameter sets come back exactly if the last mode of each PLR information is the default
and the elements that are not coded have the values that the reader leaves or derives. -/
theorem parameterSets_roundTrip_iff {sets : ActiveSets} {asps : AtlasSequenceParameterSetRbsp}
    {afps : AtlasFrameParameterSetRbsp} (hasps : asps.InRange) (hafps : afps.InRange asps)
    (hset : sets.asps afps.atlasSequenceParameterSetId = some asps) :
    asps.RoundTrips ∧ afps.RoundTrips sets asps ↔ asps.Restorable ∧ afps.Restorable := by
  rw [AtlasSequenceParameterSetRbsp.roundTrips_iff hasps,
    AtlasFrameParameterSetRbsp.roundTrips_iff hafps hasps hset]

/-- A set with one map, whose PLR information has the given modes. -/
def plrSet (modes : List PLRMode) : AtlasSequenceParameterSetRbsp where
  frameWidth := 128
  frameHeight := 128
  plrEnabledFlag := true
  plrInformation :=
    [{ mapEnabledFlag := true, numberOfModesMinus1 := modes.length - 1, modes }]

theorem plrSet_inRange {modes : List PLRMode} (hpos : 0 < modes.length)
    (hle : modes.length ≤ 16) (hmodes : ∀ mode ∈ modes, mode.InRange) :
    (plrSet modes).InRange where
  id_lt := Nat.two_pow_pos _
  width_lt := show 128 < 2 ^ 16 by decide
  height_lt := show 128 < 2 ^ 16 by decide
  geometry3d_lt := Nat.two_pow_pos _
  geometry2d_lt := Nat.two_pow_pos _
  log2Max_le := show 4 + 4 ≤ 32 by decide
  buffering_lt := Nat.two_pow_pos _
  lists_lt := Nat.two_pow_pos _
  lists_length := rfl
  lists := nofun
  projections_lt := show 5 + 1 < 2 ^ 32 by decide
  blockSize_lt := Nat.two_pow_pos _
  mapCount_lt := Nat.two_pow_pos _
  interleaving_length := nofun
  eomFixBitCount_lt := Nat.two_pow_pos _
  plr_length _ := rfl
  plr plri hplri := by
    obtain rfl := List.mem_singleton.mp hplri
    refine ⟨?_, ?_, hmodes, Nat.two_pow_pos _⟩
    · change modes.length - 1 < 2 ^ 4
      omega
    · intro _
      change modes.length = modes.length - 1 + 1
      omega
  noVui := rfl
  vui := rfl
  extension_lt := Nat.two_pow_pos _
  thickness_lt := Nat.two_pow_pos _

def fourTiles : AtlasFrameParameterSetRbsp where
  atlasFrameTileInformation :=
    { numPartitionColumnsMinus1 := 1
      numPartitionRowsMinus1 := 1
      singlePartitionPerTileFlag := 1
      numTilesInAtlasFrameMinus1 := 3
      topLeftPartitionIdx := [0, 1, 2, 3]
      bottomRightPartitionColumnOffset := [0, 0, 0, 0]
      bottomRightPartitionRowOffset := [0, 0, 0, 0]
      tileId := [0, 1, 2, 3] }

theorem numPartitionsMinus1_128 : PCCBitstreamReader.numPartitionsMinus1 128 0 = some 1 := by decide

theorem fourTiles_inRange (modes : List PLRMode) : fourTiles.InRange (plrSet modes) where
  id_lt := by decide
  sequenceId_lt := by decide
  tiles := {
    columns := fun _ => ⟨by decide, fun _ => ⟨0, rfl, numPartitionsMinus1_128⟩, nofun⟩
    rows := fun _ => ⟨by decide, fun _ => ⟨0, rfl, numPartitionsMinus1_128⟩, nofun⟩
    partition_le := by decide
    tiles_lt := by decide
    topLeft_length := by decide
    column_length := by decide
    row_length := by decide
    id_length := by decide
    topLeft_lt := fun _ => by decide
    column_lt := by decide
    row_lt := by decide
    auxiliaryWidth_lt := by decide
    auxiliaryHeight := nofun
    idLength_le := nofun
    id_lt := nofun }
  active_lt := by decide
  additional_lt := by decide
  extension_lt := by decide

theorem fourTiles_restorable : fourTiles.Restorable where
  tiles := {
    oneTile := nofun
    tilePerPartition := fun _ _ => ⟨by decide, by decide, by decide, by decide⟩
    idLength := fun _ => rfl
    tileId := fun _ => by decide }
  noExtension _ := rfl

/-- Two modes, the last of which is the default. -/
theorem parameterSets_roundTrip_twoModes :
    (plrSet [{ fillingFlag := true }, {}]).RoundTrips ∧
      fourTiles.RoundTrips ⟨fun _ => some (plrSet [{ fillingFlag := true }, {}]), fun _ => none⟩
        (plrSet [{ fillingFlag := true }, {}]) := by
  have hmodes : ∀ mode ∈ [({ fillingFlag := true } : PLRMode), {}], mode.InRange := by
    intro mode hmode
    rcases List.mem_pair.mp hmode with rfl | rfl
    all_goals exact ⟨by decide, by decide⟩
  refine (parameterSets_roundTrip_iff (plrSet_inRange (by decide) (by decide) hmodes)
    (fourTiles_inRange _) rfl).mpr ⟨?_, fourTiles_restorable⟩
  exact {
    plr := by
      intro plri hplri
      obtain rfl := List.mem_singleton.mp hplri
      exact ⟨fun _ => rfl, nofun⟩
    noPlr := nofun
    lists := nofun
    projections := fun _ => rfl
    noInterleaving := fun _ => rfl
    noEomFix := fun _ => rfl
    noAuxiliary := fun _ => rfl
    noExtension := fun _ => ⟨rfl, rfl⟩
    noVpcc := fun _ => rfl
    noThickness := fun _ => rfl }

/-- The filling flag of the last of two modes is lost. -/
theorem not_roundTrips_lastMode :
    (plrSet [{}, { fillingFlag := true }]).InRange ∧
      ¬ (plrSet [{}, { fillingFlag := true }]).RoundTrips := by
  constructor
  · apply plrSet_inRange (by decide) (by decide)
    intro mode hmode
    rcases List.mem_pair.mp hmode with rfl | rfl
    all_goals exact ⟨by decide, by decide⟩
  · intro hround
    obtain ⟨bs, -, hread⟩ := hround.1 0
    have hgiven := AtlasSequenceParameterSetRbsp.ensures_restorable _ _ _ (hread [])
    have hlast := (hgiven.plr _ List.mem_cons_self).last rfl
    have hflag := congrArg (Option.map PLRMode.fillingFlag) hlast
    exact absurd hflag (by decide)

end V3C

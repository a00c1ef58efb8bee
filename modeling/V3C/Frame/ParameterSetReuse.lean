import V3C.Codec.Traverse
import V3C.Frame.GenerateAfti
import V3C.Store.Interning
import V3C.Syntax.ParameterSetWriter

/-! The reuse of atlas frame parameter sets by the encoder: a frame refers to the first set whose
tile information compares equal to its own. -/
namespace V3C
open Codec

/-- The conjunction of comparisons; those behind one that fails are not made. -/
def allOf : List (Option Bool) → Option Bool
  | [] => some true
  | c :: cs => do
    if ← c then allOf cs else some false

/-- The loop that compares `n` entries from `index` on. -/
def sameEntries (xs ys : List ℕ) : ℕ → ℕ → Option Bool
  | _, 0 => some true
  | index, n + 1 => do
    let x ← xs[index]?
    let y ← ys[index]?
    if x ≠ y then some false else sameEntries xs ys (index + 1) n

namespace AtlasFrameTileInformation

/-- The loop that compares `n` tiles from `index` on. -/
def sameTiles (afti other : AtlasFrameTileInformation) : ℕ → ℕ → Option Bool
  | _, 0 => some true
  | index, n + 1 => do
    if ← allOf [
        sameEntries afti.topLeftPartitionIdx other.topLeftPartitionIdx index 1,
        sameEntries afti.bottomRightPartitionColumnOffset other.bottomRightPartitionColumnOffset
          index 1,
        sameEntries afti.bottomRightPartitionRowOffset other.bottomRightPartitionRowOffset index 1]
    then sameTiles afti other (index + 1) n
    else some false

/-- The part of `operator==` for the sizes of the partitions. With uniform spacing the counts are
not compared. -/
def samePartitions (afti other : AtlasFrameTileInformation) : Option Bool :=
  if afti.uniformPartitionSpacingFlag then allOf [
    sameEntries afti.partitionColumnWidthMinus1 other.partitionColumnWidthMinus1 0 1,
    sameEntries afti.partitionRowHeightMinus1 other.partitionRowHeightMinus1 0 1]
  else allOf [
    some (afti.numPartitionColumnsMinus1 == other.numPartitionColumnsMinus1),
    some (afti.numPartitionRowsMinus1 == other.numPartitionRowsMinus1),
    sameEntries afti.partitionColumnWidthMinus1 other.partitionColumnWidthMinus1 0
      (afti.numPartitionColumnsMinus1 + 1),
    sameEntries afti.partitionRowHeightMinus1 other.partitionRowHeightMinus1 0
      (afti.numPartitionRowsMinus1 + 1)]

/-- The part of `operator==` for the auxiliary video. -/
def sameAuxiliary (afti other : AtlasFrameTileInformation) : Option Bool :=
  allOf [
    some (afti.auxiliaryVideoTileRowHeight.length == other.auxiliaryVideoTileRowHeight.length),
    if afti.auxiliaryVideoTileRowHeight.length = 0 then some true else allOf [
      some (afti.auxiliaryVideoTileRowWidthMinus1 == other.auxiliaryVideoTileRowWidthMinus1),
      sameEntries afti.auxiliaryVideoTileRowHeight other.auxiliaryVideoTileRowHeight 0
        ((afti.numTilesInAtlasFrameMinus1 + 1) % 2 ^ 32)]]

/-- `operator==`. Of two single tiles nothing else is compared. -/
def operatorEq (afti other : AtlasFrameTileInformation) : Option Bool :=
  if afti.singleTileInAtlasFrameFlag != other.singleTileInAtlasFrameFlag then some false
  else if afti.singleTileInAtlasFrameFlag then some true
  else allOf [
    some (afti.uniformPartitionSpacingFlag == other.uniformPartitionSpacingFlag),
    samePartitions afti other,
    some (afti.singlePartitionPerTileFlag == other.singlePartitionPerTileFlag),
    some (afti.numTilesInAtlasFrameMinus1 == other.numTilesInAtlasFrameMinus1),
    sameTiles afti other 0 ((afti.numTilesInAtlasFrameMinus1 + 1) % 2 ^ 32),
    sameAuxiliary afti other]

end AtlasFrameTileInformation

/-- The loop of `createPatchFrameDataStructure` over the frames: the tile information of the
parameter sets, and for each frame the index of its set. The first frame has set 0. -/
def selectParameterSets : List AtlasFrameTileInformation →
    Option (List AtlasFrameTileInformation × List ℕ)
  | [] => some ([], [])
  | afti :: aftis => do
    let (sets, ids) ← Interning.findOrAddAll AtlasFrameTileInformation.operatorEq [afti] aftis
    some (sets, 0 :: ids)

/-- The set of every frame has tile information with the bits of the frame's own, and no
comparison leaves a vector. -/
def ReuseSound (asps : AtlasSequenceParameterSetRbsp) (frames : List AtlasFrameLayout) : Prop :=
  ∀ aftis, frames.mapM generateAfti = some aftis →
    ∃ sets ids, selectParameterSets aftis = some (sets, ids) ∧
      ∀ (j : ℕ) afti, aftis[j]? = some afti → ∃ (id : ℕ) (selected : AtlasFrameTileInformation),
        ids[j]? = some id ∧ sets[id]? = some selected ∧
        PCCBitstreamWriter.atlasFrameTileInformation selected asps =
          PCCBitstreamWriter.atlasFrameTileInformation afti asps

namespace AtlasFrameLayout

/-- The code of the size of a partition. -/
def codedMinus1 (size : ℕ) : ℕ := minus1In64 size % 2 ^ 32

/-- What is written of the auxiliary video of a frame with one tile. -/
def auxiliaryVideo (layout : AtlasFrameLayout) : ℕ × Option ℕ :=
  if layout.useRawPointsSeparateVideo then
    (minus1In64 layout.auxVideoWidth % 2 ^ 32, (layout.auxTileHeight[0]?).map (· % 2 ^ 32))
  else (0, some 0)

/-- Two frames whose differences `operator==` sees: single tiles have one auxiliary video, and
uniform partitions of the same first sizes, with the same entries of every tile and one auxiliary
video, have indices of the same number of bits. -/
structure Distinguished (asps : AtlasSequenceParameterSetRbsp) (layout other : AtlasFrameLayout) :
    Prop where
  singleTiles : layout.numTilesInAtlasFrame = 1 → other.numTilesInAtlasFrame = 1 →
    asps.auxiliaryVideoEnabledFlag = true → layout.auxiliaryVideo = other.auxiliaryVideo
  uniform : layout.numTilesInAtlasFrame ≠ 1 →
    layout.numTilesInAtlasFrame = other.numTilesInAtlasFrame →
    layout.uniformPartitionSpacing = true → other.uniformPartitionSpacing = true →
    layout.singlePartitionPerTile = false → other.singlePartitionPerTile = false →
    (layout.partitionWidth[0]?).map codedMinus1 = (other.partitionWidth[0]?).map codedMinus1 →
    (layout.partitionHeight[0]?).map codedMinus1 = (other.partitionHeight[0]?).map codedMinus1 →
    (∀ k < layout.numTilesInAtlasFrame, layout.tileEntries k = other.tileEntries k) →
    layout.auxiliaryVideo.1 = other.auxiliaryVideo.1 →
    (∀ k < layout.numTilesInAtlasFrame, (auxiliaryHeight layout 64 k).map (· % 2 ^ 32) =
      (auxiliaryHeight other 64 k).map (· % 2 ^ 32)) →
    ceilLog2 (layout.numPartitionCols * layout.numPartitionRows) =
      ceilLog2 (other.numPartitionCols * other.numPartitionRows)

end AtlasFrameLayout

/-! What a comparison says. -/

theorem allOf_cons_defined {c : Option Bool} {cs : List (Option Bool)} (hc : ∃ b, c = some b)
    (hcs : c = some true → ∃ b, allOf cs = some b) : ∃ b, allOf (c :: cs) = some b := by
  obtain ⟨b, rfl⟩ := hc
  cases b with
  | true =>
    obtain ⟨b, hb⟩ := hcs rfl
    exact ⟨b, hb⟩
  | false => exact ⟨false, rfl⟩

theorem allOf_nil_defined : ∃ b, allOf [] = some b := ⟨true, rfl⟩

theorem allOf_eq_true {cs : List (Option Bool)} (h : allOf cs = some true) :
    ∀ c ∈ cs, c = some true := by
  induction cs with
  | nil => exact fun c hc => absurd hc List.not_mem_nil
  | cons d cs ih =>
    obtain ⟨b, rfl, h⟩ := Option.bind_eq_some_iff.mp h
    cases b with
    | true =>
      intro c hc
      rcases List.mem_cons.mp hc with rfl | hc
      · rfl
      · exact ih h c hc
    | false => cases h

section Entries

variable {xs ys : List ℕ} {index n : ℕ}

theorem sameEntries_defined (hxs : index + n ≤ xs.length) (hys : index + n ≤ ys.length) :
    ∃ b, sameEntries xs ys index n = some b := by
  induction n generalizing index with
  | zero => exact ⟨true, rfl⟩
  | succ n ih =>
    obtain ⟨b, hb⟩ := ih (show index + 1 + n ≤ xs.length by omega)
      (show index + 1 + n ≤ ys.length by omega)
    unfold sameEntries
    rw [List.getElem?_eq_getElem (show index < xs.length by omega),
      List.getElem?_eq_getElem (show index < ys.length by omega), Option.bind_eq_bind,
      Option.bind_some, Option.bind_some]
    split_ifs
    · exact ⟨false, rfl⟩
    · exact ⟨b, hb⟩

theorem sameEntries_eq_true (h : sameEntries xs ys index n = some true) {k : ℕ}
    (hlow : index ≤ k) (hhigh : k < index + n) : xs[k]? = ys[k]? := by
  induction n generalizing index with
  | zero => omega
  | succ n ih =>
    obtain ⟨x, hx, h⟩ := Option.bind_eq_some_iff.mp h
    obtain ⟨y, hy, h⟩ := Option.bind_eq_some_iff.mp h
    by_cases hxy : x = y
    · rw [if_neg (not_not.mpr hxy)] at h
      rcases Nat.eq_or_lt_of_le hlow with rfl | hlt
      · rw [hx, hy, hxy]
      · exact ih h hlt (by omega)
    · rw [if_pos hxy] at h
      cases h

end Entries

namespace AtlasFrameTileInformation

variable {afti other : AtlasFrameTileInformation}

theorem sameTiles_defined {m index n : ℕ} (hafti : HasTiles m afti) (hother : HasTiles m other)
    (hm : index + n ≤ m) : ∃ b, sameTiles afti other index n = some b := by
  induction n generalizing index with
  | zero => exact ⟨true, rfl⟩
  | succ n ih =>
    obtain ⟨b, hb⟩ := ih (show index + 1 + n ≤ m by omega)
    have htopLeft : ∃ c, sameEntries afti.topLeftPartitionIdx other.topLeftPartitionIdx index 1 =
        some c :=
      sameEntries_defined (by rw [hafti.topLeft]; omega) (by rw [hother.topLeft]; omega)
    have hcolumn : ∃ c, sameEntries afti.bottomRightPartitionColumnOffset
        other.bottomRightPartitionColumnOffset index 1 = some c :=
      sameEntries_defined (by rw [hafti.columnOffset]; omega) (by rw [hother.columnOffset]; omega)
    have hrow : ∃ c, sameEntries afti.bottomRightPartitionRowOffset
        other.bottomRightPartitionRowOffset index 1 = some c :=
      sameEntries_defined (by rw [hafti.rowOffset]; omega) (by rw [hother.rowOffset]; omega)
    obtain ⟨c, hc⟩ := allOf_cons_defined htopLeft fun _ => allOf_cons_defined hcolumn fun _ =>
      allOf_cons_defined hrow fun _ => allOf_nil_defined
    unfold sameTiles
    rw [hc, Option.bind_eq_bind, Option.bind_some]
    cases c with
    | true => exact ⟨b, hb⟩
    | false => exact ⟨false, rfl⟩

structure SameTile (afti other : AtlasFrameTileInformation) (i : ℕ) : Prop where
  topLeft : afti.topLeftPartitionIdx[i]? = other.topLeftPartitionIdx[i]?
  columnOffset :
    afti.bottomRightPartitionColumnOffset[i]? = other.bottomRightPartitionColumnOffset[i]?
  rowOffset : afti.bottomRightPartitionRowOffset[i]? = other.bottomRightPartitionRowOffset[i]?

theorem sameTiles_eq_true {index n : ℕ} (h : sameTiles afti other index n = some true) {k : ℕ}
    (hlow : index ≤ k) (hhigh : k < index + n) : SameTile afti other k := by
  induction n generalizing index with
  | zero => omega
  | succ n ih =>
    obtain ⟨c, hc, h⟩ := Option.bind_eq_some_iff.mp h
    cases c with
    | false => cases h
    | true =>
      have hall := allOf_eq_true hc
      rcases Nat.eq_or_lt_of_le hlow with rfl | hlt
      · have htopLeft := hall _ List.mem_cons_self
        have hcolumn := hall _ (List.mem_cons_of_mem _ List.mem_cons_self)
        have hrow := hall _ (List.mem_cons_of_mem _ (List.mem_cons_of_mem _ List.mem_cons_self))
        constructor
        · exact sameEntries_eq_true htopLeft le_rfl (Nat.lt_succ_self index)
        · exact sameEntries_eq_true hcolumn le_rfl (Nat.lt_succ_self index)
        · exact sameEntries_eq_true hrow le_rfl (Nat.lt_succ_self index)
      · exact ih h hlt (by omega)

section Generated

variable {layout otherLayout : AtlasFrameLayout}

theorem samePartitions_defined (hwell : layout.WellFormed) (hwell' : otherLayout.WellFormed)
    (h : GeneratedTiles layout afti) (h' : GeneratedTiles otherLayout other) :
    ∃ b, samePartitions afti other = some b := by
  have hcolumns := hwell.columns_pos
  have hcolumns' := hwell'.columns_pos
  have hrows := hwell.rows_pos
  have hrows' := hwell'.rows_pos
  unfold samePartitions
  split_ifs
  · apply allOf_cons_defined
    · apply sameEntries_defined
      · rw [h.widths_length]
        omega
      · rw [h'.widths_length]
        omega
    · intro _
      apply allOf_cons_defined _ fun _ => allOf_nil_defined
      apply sameEntries_defined
      · rw [h.heights_length]
        omega
      · rw [h'.heights_length]
        omega
  · apply allOf_cons_defined ⟨_, rfl⟩
    intro hsameColumns
    have hcolumnCount : afti.numPartitionColumnsMinus1 = other.numPartitionColumnsMinus1 :=
      beq_iff_eq.mp (Option.some.inj hsameColumns)
    rw [h.columns, h'.columns] at hcolumnCount
    apply allOf_cons_defined ⟨_, rfl⟩
    intro hsameRows
    have hrowCount : afti.numPartitionRowsMinus1 = other.numPartitionRowsMinus1 :=
      beq_iff_eq.mp (Option.some.inj hsameRows)
    rw [h.rows, h'.rows] at hrowCount
    apply allOf_cons_defined
    · apply sameEntries_defined
      · rw [h.widths_length, h.columns]
        omega
      · rw [h'.widths_length, h.columns]
        omega
    · intro _
      apply allOf_cons_defined _ fun _ => allOf_nil_defined
      apply sameEntries_defined
      · rw [h.heights_length, h.rows]
        omega
      · rw [h'.heights_length, h.rows]
        omega

theorem sameAuxiliary_defined {n : ℕ} (hn : 0 < n) (hlt : n < 2 ^ 32)
    (htiles : afti.numTilesInAtlasFrameMinus1 = n - 1)
    (h : afti.auxiliaryVideoTileRowHeight.length = n)
    (h' : other.auxiliaryVideoTileRowHeight.length = n) :
    ∃ b, sameAuxiliary afti other = some b := by
  have hloop : (afti.numTilesInAtlasFrameMinus1 + 1) % 2 ^ 32 = n := by
    rw [htiles, Nat.mod_eq_of_lt (by omega)]
    omega
  unfold sameAuxiliary
  rw [h, h', hloop, if_neg (by omega)]
  apply allOf_cons_defined ⟨_, rfl⟩
  intro _
  apply allOf_cons_defined _ fun _ => allOf_nil_defined
  apply allOf_cons_defined ⟨_, rfl⟩
  intro _
  apply allOf_cons_defined _ fun _ => allOf_nil_defined
  apply sameEntries_defined
  · omega
  · omega

/-- No comparison of the tile information of two frames leaves a vector. -/
theorem operatorEq_defined (hwell : layout.WellFormed) (hwell' : otherLayout.WellFormed)
    (h : generateAfti layout = some afti) (h' : generateAfti otherLayout = some other) :
    ∃ b, operatorEq afti other = some b := by
  unfold operatorEq
  by_cases hdiffer : (afti.singleTileInAtlasFrameFlag != other.singleTileInAtlasFrameFlag) = true
  · rw [if_pos hdiffer]
    exact ⟨false, rfl⟩
  · have hsame : afti.singleTileInAtlasFrameFlag = other.singleTileInAtlasFrameFlag := by
      simpa using hdiffer
    rw [if_neg hdiffer]
    by_cases hone : layout.numTilesInAtlasFrame = 1
    · rw [if_pos (generateAfti_one hone h).single]
      exact ⟨true, rfl⟩
    · have hmany : otherLayout.numTilesInAtlasFrame ≠ 1 := by
        intro hone'
        rw [(generateAfti_one hone' h').single, (generateAfti_many hwell hone h).single] at hsame
        cases hsame
      have hafti := generateAfti_many hwell hone h
      have hother := generateAfti_many hwell' hmany h'
      have hpos := hwell.tiles_pos
      have hpos' := hwell'.tiles_pos
      have hlt := hwell.tiles_lt
      rw [if_neg (by rw [hafti.single]; exact Bool.false_ne_true)]
      apply allOf_cons_defined ⟨_, rfl⟩
      intro _
      apply allOf_cons_defined (samePartitions_defined hwell hwell' hafti hother)
      intro _
      apply allOf_cons_defined ⟨_, rfl⟩
      intro _
      apply allOf_cons_defined ⟨_, rfl⟩
      intro htiles
      have hcount : afti.numTilesInAtlasFrameMinus1 = other.numTilesInAtlasFrameMinus1 :=
        beq_iff_eq.mp (Option.some.inj htiles)
      have hequal : otherLayout.numTilesInAtlasFrame = layout.numTilesInAtlasFrame := by
        rw [hafti.tiles, hother.tiles] at hcount
        omega
      apply allOf_cons_defined
      · apply sameTiles_defined hafti.hasTiles (hequal ▸ hother.hasTiles)
        rw [hafti.tiles, Nat.mod_eq_of_lt (by omega)]
        omega
      · intro _
        apply allOf_cons_defined _ fun _ => allOf_nil_defined
        exact sameAuxiliary_defined hpos hlt hafti.tiles hafti.auxiliary.length
          (hother.auxiliary.length.trans hequal)

end Generated

/-! What is written of tile information that compares equal. -/

theorem forEach_congr {α : Type} {f g : α → Writer Unit} {xs : List α}
    (h : ∀ x ∈ xs, f x = g x) : Writer.forEach xs f = Writer.forEach xs g := by
  induction xs with
  | nil => rfl
  | cons x xs ih =>
    rw [Writer.forEach_cons, Writer.forEach_cons, h x List.mem_cons_self,
      ih fun y hy => h y (List.mem_cons_of_mem x hy)]

variable {asps : AtlasSequenceParameterSetRbsp}

theorem writer_congr
    (hsingle : afti.singleTileInAtlasFrameFlag = other.singleTileInAtlasFrameFlag)
    (htiles : afti.singleTileInAtlasFrameFlag = false →
      PCCBitstreamWriter.tilePartitions afti = PCCBitstreamWriter.tilePartitions other)
    (hauxiliary : asps.auxiliaryVideoEnabledFlag = true →
      PCCBitstreamWriter.auxiliaryVideoTiles afti = PCCBitstreamWriter.auxiliaryVideoTiles other)
    (hsignalled : afti.signalledTileIdFlag = false)
    (hsignalled' : other.signalledTileIdFlag = false) :
    PCCBitstreamWriter.atlasFrameTileInformation afti asps =
      PCCBitstreamWriter.atlasFrameTileInformation other asps := by
  have hfirst : Writer.when (!afti.singleTileInAtlasFrameFlag)
        (PCCBitstreamWriter.tilePartitions afti) =
      Writer.when (!other.singleTileInAtlasFrameFlag)
        (PCCBitstreamWriter.tilePartitions other) := by
    rw [← hsingle]
    cases h : afti.singleTileInAtlasFrameFlag with
    | true => rw [Bool.not_true, Writer.when_false, Writer.when_false]
    | false => rw [htiles h]
  have hsecond : Writer.when asps.auxiliaryVideoEnabledFlag
        (PCCBitstreamWriter.auxiliaryVideoTiles afti) =
      Writer.when asps.auxiliaryVideoEnabledFlag
        (PCCBitstreamWriter.auxiliaryVideoTiles other) := by
    cases h : asps.auxiliaryVideoEnabledFlag with
    | true => rw [hauxiliary h]
    | false => rw [Writer.when_false, Writer.when_false]
  unfold PCCBitstreamWriter.atlasFrameTileInformation
  rw [hfirst, hsecond, hsingle, hsignalled, hsignalled', Writer.when_false, Writer.when_false]

theorem auxiliaryVideoTiles_congr
    (hwidth : afti.auxiliaryVideoTileRowWidthMinus1 = other.auxiliaryVideoTileRowWidthMinus1)
    (htiles : afti.numTilesInAtlasFrameMinus1 = other.numTilesInAtlasFrameMinus1)
    (hpos : 0 < afti.auxiliaryVideoTileRowHeight.length)
    (hpos' : 0 < other.auxiliaryVideoTileRowHeight.length)
    (hheights : ∀ i ≤ afti.numTilesInAtlasFrameMinus1,
      afti.auxiliaryVideoTileRowHeight[i]? = other.auxiliaryVideoTileRowHeight[i]?) :
    PCCBitstreamWriter.auxiliaryVideoTiles afti = PCCBitstreamWriter.auxiliaryVideoTiles other := by
  unfold PCCBitstreamWriter.auxiliaryVideoTiles
  have hloop : Writer.forEach (List.range (afti.numTilesInAtlasFrameMinus1 + 1)) (fun i =>
        Writer.ofOption (afti.getAuxiliaryVideoTileRowHeight i) >>= writeUvlc) =
      Writer.forEach (List.range (afti.numTilesInAtlasFrameMinus1 + 1)) fun i =>
        Writer.ofOption (other.getAuxiliaryVideoTileRowHeight i) >>= writeUvlc := by
    apply forEach_congr
    intro i hi
    have hheight := hheights i (Nat.le_of_lt_succ (List.mem_range.mp hi))
    unfold getAuxiliaryVideoTileRowHeight
    rw [if_neg hpos.ne', if_neg hpos'.ne', hheight]
  rw [hwidth, ← htiles]
  exact congrArg (fun w => writeUvlc other.auxiliaryVideoTileRowWidthMinus1 >>= fun _ => w) hloop

theorem auxiliaryVideo_eq {layout : AtlasFrameLayout} (h : HasAuxiliary layout 1 afti)
    (hpos : 0 < layout.numTilesInAtlasFrame) :
    layout.auxiliaryVideo =
      (afti.auxiliaryVideoTileRowWidthMinus1, afti.auxiliaryVideoTileRowHeight[0]?) := by
  obtain ⟨height, hheight, hfirst⟩ := h.heights 0 hpos
  rw [h.width, hfirst]
  unfold AtlasFrameLayout.auxiliaryVideo
  unfold auxiliaryHeight at hheight
  split_ifs at hheight ⊢ with hraw
  · obtain ⟨samples, hsamples, hdiv⟩ := Option.map_eq_some_iff.mp hheight
    have heq : samples = height := by rw [← hdiv, Nat.div_one]
    rw [hsamples, heq]
    rfl
  · obtain rfl := Option.some.inj hheight
    rfl

theorem writer_eq_of_one {layout otherLayout : AtlasFrameLayout}
    (hdistinguished : layout.Distinguished asps otherLayout)
    (hone : layout.numTilesInAtlasFrame = 1) (hone' : otherLayout.numTilesInAtlasFrame = 1)
    (h : GeneratedSingleTile layout afti) (h' : GeneratedSingleTile otherLayout other) :
    PCCBitstreamWriter.atlasFrameTileInformation other asps =
      PCCBitstreamWriter.atlasFrameTileInformation afti asps := by
  apply writer_congr
  · rw [h.single, h'.single]
  · intro hmany
    rw [h'.single] at hmany
    cases hmany
  · intro hauxiliary
    have hvideo := hdistinguished.singleTiles hone hone' hauxiliary
    rw [auxiliaryVideo_eq h.auxiliary (by omega), auxiliaryVideo_eq h'.auxiliary (by omega)]
      at hvideo
    obtain ⟨hwidth, hheight⟩ := Prod.mk.inj hvideo
    apply auxiliaryVideoTiles_congr hwidth.symm
    · rw [h.tiles, h'.tiles]
    · rw [h'.auxiliary.length, hone']
      exact Nat.one_pos
    · rw [h.auxiliary.length, hone]
      exact Nat.one_pos
    · intro i hi
      rw [h'.tiles] at hi
      obtain rfl := Nat.le_zero.mp hi
      exact hheight.symm
  · exact h'.signalled
  · exact h.signalled

theorem partitionSizes_congr {xs ys : List ℕ} {n : ℕ} (h : ∀ i < n, xs[i]? = ys[i]?) :
    PCCBitstreamWriter.partitionSizes xs n = PCCBitstreamWriter.partitionSizes ys n := by
  apply forEach_congr
  intro i hi
  rw [h i (List.mem_range.mp hi)]

theorem partitionSpacing_congr
    (huniform : afti.uniformPartitionSpacingFlag = other.uniformPartitionSpacingFlag)
    (h : samePartitions afti other = some true) :
    PCCBitstreamWriter.partitionSpacing afti = PCCBitstreamWriter.partitionSpacing other := by
  unfold PCCBitstreamWriter.partitionSpacing
  rw [← huniform]
  unfold samePartitions at h
  split_ifs at h ⊢
  · have hall := allOf_eq_true h
    have hwidth := sameEntries_eq_true (hall _ List.mem_cons_self) le_rfl Nat.one_pos
    have hheight := sameEntries_eq_true (hall _ (List.mem_cons_of_mem _ List.mem_cons_self)) le_rfl
      Nat.one_pos
    rw [hwidth, hheight]
  · have hall := allOf_eq_true h
    have hcolumns : afti.numPartitionColumnsMinus1 = other.numPartitionColumnsMinus1 :=
      beq_iff_eq.mp (Option.some.inj (hall _ (by simp)))
    have hrows : afti.numPartitionRowsMinus1 = other.numPartitionRowsMinus1 :=
      beq_iff_eq.mp (Option.some.inj (hall _ (by simp)))
    have hwidths : sameEntries afti.partitionColumnWidthMinus1 other.partitionColumnWidthMinus1 0
        (afti.numPartitionColumnsMinus1 + 1) = some true := hall _ (by simp)
    have hheights : sameEntries afti.partitionRowHeightMinus1 other.partitionRowHeightMinus1 0
        (afti.numPartitionRowsMinus1 + 1) = some true := hall _ (by simp)
    rw [← hcolumns, ← hrows]
    rw [partitionSizes_congr fun i hi => sameEntries_eq_true hwidths (Nat.zero_le i) (by omega),
      partitionSizes_congr fun i hi => sameEntries_eq_true hheights (Nat.zero_le i) (by omega)]

/-- What `operator==` has compared of two sets with more than one tile. -/
structure ComparesEqual (afti other : AtlasFrameTileInformation) : Prop where
  uniform : afti.uniformPartitionSpacingFlag = other.uniformPartitionSpacingFlag
  partitions : samePartitions afti other = some true
  partition : afti.singlePartitionPerTileFlag = other.singlePartitionPerTileFlag
  tiles : afti.numTilesInAtlasFrameMinus1 = other.numTilesInAtlasFrameMinus1
  sameTiles : sameTiles afti other 0 ((afti.numTilesInAtlasFrameMinus1 + 1) % 2 ^ 32) = some true
  auxiliary : sameAuxiliary afti other = some true

theorem operatorEq_single (h : operatorEq afti other = some true) :
    afti.singleTileInAtlasFrameFlag = other.singleTileInAtlasFrameFlag := by
  unfold operatorEq at h
  by_cases hdiffer : (afti.singleTileInAtlasFrameFlag != other.singleTileInAtlasFrameFlag) = true
  · rw [if_pos hdiffer] at h
    cases h
  · simpa using hdiffer

theorem operatorEq_many (h : operatorEq afti other = some true)
    (hmany : afti.singleTileInAtlasFrameFlag = false) : ComparesEqual afti other := by
  have hsingle := operatorEq_single h
  unfold operatorEq at h
  rw [if_neg (by simp [hsingle]), if_neg (by simp [hmany])] at h
  have hall := allOf_eq_true h
  constructor
  · exact beq_iff_eq.mp (Option.some.inj (hall _ (by simp)))
  · exact hall _ (by simp)
  · exact beq_iff_eq.mp (Option.some.inj (hall _ (by simp)))
  · exact beq_iff_eq.mp (Option.some.inj (hall _ (by simp)))
  · exact hall _ (by simp)
  · exact hall _ (by simp)

section Tiles

variable {layout otherLayout : AtlasFrameLayout}

theorem numPartitions_eq (hwell : layout.WellFormed) (h : GeneratedTiles layout afti) :
    PCCBitstreamReader.numPartitions afti =
      layout.numPartitionCols * layout.numPartitionRows := by
  unfold PCCBitstreamReader.numPartitions
  rw [h.columns, h.rows, Nat.sub_add_cancel hwell.columns_pos, Nat.sub_add_cancel hwell.rows_pos]
  exact Nat.mod_eq_of_lt hwell.partitions_lt

theorem firstWidth_eq (h : GeneratedTiles layout afti) :
    (layout.partitionWidth[0]?).map AtlasFrameLayout.codedMinus1 =
      afti.partitionColumnWidthMinus1[0]? := by
  obtain ⟨size, hsize, hfirst⟩ := h.width
  rw [hsize, hfirst, Option.map_some, AtlasFrameLayout.codedMinus1]

theorem firstHeight_eq (h : GeneratedTiles layout afti) :
    (layout.partitionHeight[0]?).map AtlasFrameLayout.codedMinus1 =
      afti.partitionRowHeightMinus1[0]? := by
  obtain ⟨size, hsize, hfirst⟩ := h.height
  rw [hsize, hfirst, Option.map_some, AtlasFrameLayout.codedMinus1]

theorem sameAuxiliary_eq_true {n : ℕ} (h : sameAuxiliary afti other = some true)
    (hn : afti.auxiliaryVideoTileRowHeight.length = n) (hpos : 0 < n)
    (hloop : (afti.numTilesInAtlasFrameMinus1 + 1) % 2 ^ 32 = n) :
    afti.auxiliaryVideoTileRowWidthMinus1 = other.auxiliaryVideoTileRowWidthMinus1 ∧
      ∀ i < n, afti.auxiliaryVideoTileRowHeight[i]? = other.auxiliaryVideoTileRowHeight[i]? := by
  unfold sameAuxiliary at h
  rw [hn, if_neg hpos.ne', hloop] at h
  have hrest := allOf_eq_true (allOf_eq_true h _ (List.mem_cons_of_mem _ List.mem_cons_self))
  constructor
  · exact beq_iff_eq.mp (Option.some.inj (hrest _ List.mem_cons_self))
  · intro i hi
    exact sameEntries_eq_true (hrest _ (List.mem_cons_of_mem _ List.mem_cons_self)) (Nat.zero_le i)
      (by omega)

theorem SameTile.tileEntries_eq {i : ℕ} (h : SameTile afti other i) :
    afti.tileEntries i = other.tileEntries i := by
  unfold tileEntries
  rw [h.topLeft, h.columnOffset, h.rowOffset]

theorem auxiliaryWidth_eq {unit : ℕ} (h : HasAuxiliary layout unit afti) :
    layout.auxiliaryVideo.1 = afti.auxiliaryVideoTileRowWidthMinus1 := by
  rw [h.width]
  unfold AtlasFrameLayout.auxiliaryVideo
  split_ifs <;> rfl

theorem auxiliaryHeight_eq {unit k : ℕ} (h : HasAuxiliary layout unit afti)
    (hk : k < layout.numTilesInAtlasFrame) :
    (auxiliaryHeight layout unit k).map (· % 2 ^ 32) = afti.auxiliaryVideoTileRowHeight[k]? := by
  obtain ⟨height, hheight, hentry⟩ := h.heights k hk
  rw [hheight, hentry, Option.map_some]

/-- The indices of partitions have as many bits in both sets. -/
theorem bits_eq (hwell : layout.WellFormed) (hwell' : otherLayout.WellFormed)
    (hdistinguished : layout.Distinguished asps otherLayout)
    (hmany : layout.numTilesInAtlasFrame ≠ 1) (h : GeneratedTiles layout afti)
    (h' : GeneratedTiles otherLayout other) (hequal : ComparesEqual afti other)
    (hnone : afti.singlePartitionPerTileFlag = 0) :
    ceilLog2 (PCCBitstreamReader.numPartitions afti) =
      ceilLog2 (PCCBitstreamReader.numPartitions other) := by
  have hpartitions := hequal.partitions
  unfold samePartitions at hpartitions
  split_ifs at hpartitions with huniform
  · rw [numPartitions_eq hwell h, numPartitions_eq hwell' h']
    have hall := allOf_eq_true hpartitions
    have htiles := hequal.tiles
    rw [h.tiles, h'.tiles] at htiles
    have hpos := hwell.tiles_pos
    have hpos' := hwell'.tiles_pos
    have hlt := hwell.tiles_lt
    have hpartition := hequal.partition
    rw [h.partition] at hnone
    rw [h.partition, h'.partition, hnone] at hpartition
    have hcount : (afti.numTilesInAtlasFrameMinus1 + 1) % 2 ^ 32 = layout.numTilesInAtlasFrame := by
      rw [h.tiles, Nat.mod_eq_of_lt (by omega)]
      omega
    obtain ⟨hwidth, hheights⟩ :=
      sameAuxiliary_eq_true hequal.auxiliary h.auxiliary.length hpos hcount
    have hsame := hequal.sameTiles
    rw [hcount] at hsame
    apply hdistinguished.uniform hmany
    · omega
    · rw [← h.uniform]
      exact huniform
    · rw [← h'.uniform, ← hequal.uniform]
      exact huniform
    · exact Bool.toNat_eq_zero.mp hnone
    · exact Bool.toNat_eq_zero.mp hpartition.symm
    · rw [firstWidth_eq h, firstWidth_eq h']
      exact sameEntries_eq_true (hall _ List.mem_cons_self) le_rfl Nat.one_pos
    · rw [firstHeight_eq h, firstHeight_eq h']
      exact sameEntries_eq_true (hall _ (List.mem_cons_of_mem _ List.mem_cons_self)) le_rfl
        Nat.one_pos
    · intro k hk
      rw [← h.tileEntries k hk, ← h'.tileEntries k (by omega)]
      exact (sameTiles_eq_true hsame (Nat.zero_le k) (by omega)).tileEntries_eq
    · rw [auxiliaryWidth_eq h.auxiliary, auxiliaryWidth_eq h'.auxiliary, hwidth]
    · intro k hk
      rw [auxiliaryHeight_eq h.auxiliary hk, auxiliaryHeight_eq h'.auxiliary (by omega),
        hheights k hk]
  · have hall := allOf_eq_true hpartitions
    have hcolumns : afti.numPartitionColumnsMinus1 = other.numPartitionColumnsMinus1 :=
      beq_iff_eq.mp (Option.some.inj (hall _ (by simp)))
    have hrows : afti.numPartitionRowsMinus1 = other.numPartitionRowsMinus1 :=
      beq_iff_eq.mp (Option.some.inj (hall _ (by simp)))
    unfold PCCBitstreamReader.numPartitions
    rw [hcolumns, hrows]

theorem tilePartitions_congr (hequal : ComparesEqual afti other)
    (hbits : afti.singlePartitionPerTileFlag = 0 →
      ceilLog2 (PCCBitstreamReader.numPartitions afti) =
        ceilLog2 (PCCBitstreamReader.numPartitions other))
    (hlt : afti.numTilesInAtlasFrameMinus1 + 1 < 2 ^ 32) :
    PCCBitstreamWriter.tilePartitions afti = PCCBitstreamWriter.tilePartitions other := by
  have hsame := hequal.sameTiles
  rw [Nat.mod_eq_of_lt hlt] at hsame
  have hsignalled : Writer.when (afti.singlePartitionPerTileFlag == 0) (do
        writeUvlc afti.numTilesInAtlasFrameMinus1
        Writer.forEach (List.range (afti.numTilesInAtlasFrameMinus1 + 1))
          (PCCBitstreamWriter.signalledTile afti)) =
      Writer.when (other.singlePartitionPerTileFlag == 0) (do
        writeUvlc other.numTilesInAtlasFrameMinus1
        Writer.forEach (List.range (other.numTilesInAtlasFrameMinus1 + 1))
          (PCCBitstreamWriter.signalledTile other)) := by
    rw [← hequal.partition, ← hequal.tiles]
    by_cases hnone : afti.singlePartitionPerTileFlag = 0
    · have hloop : Writer.forEach (List.range (afti.numTilesInAtlasFrameMinus1 + 1))
            (PCCBitstreamWriter.signalledTile afti) =
          Writer.forEach (List.range (afti.numTilesInAtlasFrameMinus1 + 1))
            (PCCBitstreamWriter.signalledTile other) := by
        apply forEach_congr
        intro i hi
        have htile := sameTiles_eq_true hsame (Nat.zero_le i)
          (by rw [Nat.zero_add]; exact List.mem_range.mp hi)
        unfold PCCBitstreamWriter.signalledTile
        rw [htile.topLeft, htile.columnOffset, htile.rowOffset, hbits hnone]
      rw [hloop]
    · rw [beq_eq_false_iff_ne.mpr hnone, Writer.when_false, Writer.when_false]
  unfold PCCBitstreamWriter.tilePartitions
  rw [partitionSpacing_congr hequal.uniform hequal.partitions, hequal.uniform, hequal.partition]
  rw [hequal.partition] at hsignalled
  rw [hsignalled]

theorem writer_eq_of_many (hwell : layout.WellFormed) (hwell' : otherLayout.WellFormed)
    (hdistinguished : layout.Distinguished asps otherLayout)
    (hmany : layout.numTilesInAtlasFrame ≠ 1) (h : GeneratedTiles layout afti)
    (h' : GeneratedTiles otherLayout other) (heq : operatorEq afti other = some true) :
    PCCBitstreamWriter.atlasFrameTileInformation other asps =
      PCCBitstreamWriter.atlasFrameTileInformation afti asps := by
  have hequal := operatorEq_many heq h.single
  have hpos := hwell.tiles_pos
  have hpos' := hwell'.tiles_pos
  have hlt := hwell.tiles_lt
  have htiles := hequal.tiles
  rw [h.tiles, h'.tiles] at htiles
  have hcount : afti.numTilesInAtlasFrameMinus1 + 1 = layout.numTilesInAtlasFrame := by
    rw [h.tiles]
    omega
  obtain ⟨hwidth, hheights⟩ := sameAuxiliary_eq_true hequal.auxiliary h.auxiliary.length hpos
    (by rw [hcount, Nat.mod_eq_of_lt hlt])
  symm
  apply writer_congr
  · rw [h.single, h'.single]
  · intro _
    apply tilePartitions_congr hequal
    · exact bits_eq hwell hwell' hdistinguished hmany h h' hequal
    · rw [hcount]
      exact hlt
  · intro _
    apply auxiliaryVideoTiles_congr hwidth hequal.tiles
    · rw [h.auxiliary.length]
      exact hpos
    · rw [h'.auxiliary.length]
      exact hpos'
    · intro i hi
      exact hheights i (by omega)
  · exact h.signalled
  · exact h'.signalled

/-- Tile information that compares equal is written in the same way. -/
theorem operatorEq_sound (hwell : layout.WellFormed) (hwell' : otherLayout.WellFormed)
    (hdistinguished : layout.Distinguished asps otherLayout)
    (h : generateAfti layout = some afti) (h' : generateAfti otherLayout = some other)
    (heq : operatorEq afti other = some true) :
    PCCBitstreamWriter.atlasFrameTileInformation other asps =
      PCCBitstreamWriter.atlasFrameTileInformation afti asps := by
  have hsingle := operatorEq_single heq
  by_cases hone : layout.numTilesInAtlasFrame = 1
  · have hafti := generateAfti_one hone h
    by_cases hone' : otherLayout.numTilesInAtlasFrame = 1
    · exact writer_eq_of_one hdistinguished hone hone' hafti (generateAfti_one hone' h')
    · rw [hafti.single, (generateAfti_many hwell' hone' h').single] at hsingle
      cases hsingle
  · have hafti := generateAfti_many hwell hone h
    by_cases hone' : otherLayout.numTilesInAtlasFrame = 1
    · rw [hafti.single, (generateAfti_one hone' h').single] at hsingle
      cases hsingle
    · exact writer_eq_of_many hwell hwell' hdistinguished hone hafti
        (generateAfti_many hwell' hone' h') heq

end Tiles

end AtlasFrameTileInformation

/-- The set of a frame has the bits of the frame's tile information if the frames with one tile
have one auxiliary video, and uniform partitions that no comparison tells apart have indices of
the same number of bits. -/
theorem reuseSound {asps : AtlasSequenceParameterSetRbsp} {frames : List AtlasFrameLayout}
    (hwell : ∀ layout ∈ frames, layout.WellFormed)
    (hdistinguished : ∀ layout ∈ frames, ∀ other ∈ frames, layout.Distinguished asps other) :
    ReuseSound asps frames := by
  intro aftis haftis
  have hgenerated : ∀ b ∈ aftis, ∃ layout ∈ frames, generateAfti layout = some b :=
    fun _ => Codec.exists_mem_of_mapM_eq_some haftis
  cases aftis with
  | nil => exact ⟨[], [], rfl, nofun⟩
  | cons afti aftis =>
    have hdefined : ∀ a b, (∃ layout ∈ frames, generateAfti layout = some a) →
        (∃ layout ∈ frames, generateAfti layout = some b) →
        ∃ c, AtlasFrameTileInformation.operatorEq a b = some c := by
      intro a b ha hb
      obtain ⟨layout, hmem, ha⟩ := ha
      obtain ⟨other, hmem', hb⟩ := hb
      exact AtlasFrameTileInformation.operatorEq_defined (hwell _ hmem) (hwell _ hmem') ha hb
    have hsound : ∀ a b, (∃ layout ∈ frames, generateAfti layout = some a) →
        (∃ layout ∈ frames, generateAfti layout = some b) →
        AtlasFrameTileInformation.operatorEq a b = some true →
        PCCBitstreamWriter.atlasFrameTileInformation b asps =
          PCCBitstreamWriter.atlasFrameTileInformation a asps := by
      intro a b ha hb heq
      obtain ⟨layout, hmem, ha⟩ := ha
      obtain ⟨other, hmem', hb⟩ := hb
      exact AtlasFrameTileInformation.operatorEq_sound (hwell _ hmem) (hwell _ hmem')
        (hdistinguished _ hmem _ hmem') ha hb heq
    have hfirst : ∀ b ∈ [afti], ∃ layout ∈ frames, generateAfti layout = some b := by
      intro b hb
      rw [List.mem_singleton.mp hb]
      exact hgenerated afti List.mem_cons_self
    obtain ⟨sets, ids, hall, hstart, hfound⟩ := Interning.findOrAddAll_sound hdefined hsound
      (fun _ _ => rfl) (fun a ha => hgenerated a (List.mem_cons_of_mem afti ha)) hfirst
    refine ⟨sets, 0 :: ids, ?_, ?_⟩
    · unfold selectParameterSets
      dsimp only
      rw [hall]
      rfl
    · intro j got hgot
      cases j with
      | zero =>
        obtain rfl := Option.some.inj hgot
        exact ⟨0, afti, rfl, Interning.getElem?_of_prefix hstart rfl, rfl⟩
      | succ j => exact hfound j got hgot

/-- Two tiles of uniform partitions, the second of which begins at the given column. -/
def twoTiles (leftTopXInFrame : ℕ) : AtlasFrameLayout where
  numTilesInAtlasFrame := 2
  uniformPartitionSpacing := true
  numPartitionCols := 3
  partitionWidth := [64, 64, 64]
  partitionHeight := [64]
  tiles := [{ width := leftTopXInFrame, height := 64, numPatches := 1 },
    { leftTopXInFrame, width := 192 - leftTopXInFrame, height := 64, numPatches := 1 }]

/-- A frame with one tile, whose raw points have a separate video. -/
def rawLayout (auxTileHeight : ℕ) : AtlasFrameLayout where
  tiles := [{}]
  useRawPointsSeparateVideo := true
  auxVideoWidth := 64
  auxTileHeight := [auxTileHeight]

theorem twoTiles_wellFormed (x : ℕ) : (twoTiles x).WellFormed where
  tiles_pos := Nat.succ_pos 1
  tiles_lt := show 2 < 2 ^ 32 by decide
  columns_pos := Nat.succ_pos 2
  rows_pos := Nat.one_pos
  partitions_lt := show 3 * 1 < 2 ^ 32 by decide

/-- Frames that differ in the width of their first tile. -/
theorem reuseSound_twoTiles :
    ([twoTiles 64, twoTiles 128].mapM generateAfti).isSome = true ∧
      ReuseSound { auxiliaryVideoEnabledFlag := true } [twoTiles 64, twoTiles 128] := by
  have htwo : ∀ layout ∈ [twoTiles 64, twoTiles 128], ∃ x, layout = twoTiles x := by
    intro layout hmem
    rcases List.mem_pair.mp hmem with h | h
    · exact ⟨64, h⟩
    · exact ⟨128, h⟩
  constructor
  · decide +kernel
  · apply reuseSound
    · intro layout hmem
      obtain ⟨x, rfl⟩ := htwo layout hmem
      exact twoTiles_wellFormed x
    · intro layout hmem other hmem'
      obtain ⟨x, rfl⟩ := htwo layout hmem
      obtain ⟨y, rfl⟩ := htwo other hmem'
      constructor
      · intro hone
        exact absurd hone (show (2 : ℕ) ≠ 1 by decide)
      · intro _ _ _ _ _ _ _ _ _ _ _
        rfl

def rawTileInformation (auxTileHeight : ℕ) : AtlasFrameTileInformation where
  singleTileInAtlasFrameFlag := true
  auxiliaryVideoTileRowWidthMinus1 := minus1In64 64 % 2 ^ 32
  auxiliaryVideoTileRowHeight := [auxTileHeight / 1 % 2 ^ 32]

/-- The second frame gets the auxiliary height of the first. -/
theorem not_reuseSound_rawTiles :
    ¬ ReuseSound { auxiliaryVideoEnabledFlag := true } [rawLayout 64, rawLayout 128] := by
  intro hsound
  obtain ⟨sets, ids, hselect, hsame⟩ :=
    hsound [rawTileInformation 64, rawTileInformation 128] rfl
  have hsets : selectParameterSets [rawTileInformation 64, rawTileInformation 128] =
      some ([rawTileInformation 64], [0, 0]) := rfl
  obtain ⟨rfl, rfl⟩ := Prod.mk.inj (Option.some.inj (hselect.symm.trans hsets))
  obtain ⟨id, selected, hid, hselected, hwriter⟩ := hsame 1 _ rfl
  obtain rfl := Option.some.inj hid
  obtain rfl := Option.some.inj hselected
  have hbits := congrArg (fun w : Writer Unit => (w 0).map Prod.snd) hwriter
  exact absurd hbits (by decide +kernel)

end V3C

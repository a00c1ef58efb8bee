import V3C.Bitstream.FieldConsumption
import V3C.Syntax.TileHeaderReader

/-! The partitions of an atlas frame, derived from its tile information. -/
namespace V3C
open Codec

/-- Positions and sizes of the partition columns and rows. -/
structure TilePartitions where
  columns : List (ℕ × ℕ)
  rows : List (ℕ × ℕ)
  deriving DecidableEq, Repr

/-- The partitions behind the first ones: `left` of them have a size, the last one gets the rest
of the frame, an unsigned difference. -/
def partitionsFrom (frameSize : ℕ) (size : ℕ → Option ℕ) : ℕ → ℕ → ℕ → Option (List (ℕ × ℕ))
  | 0, _, pos => some [(pos, toSizeT ((frameSize : ℤ) - pos))]
  | left + 1, index, pos => do
    let partitionSize ← size index
    let partitions ← partitionsFrom frameSize size left (index + 1) ((pos + partitionSize) % 2 ^ 64)
    some ((pos, partitionSize) :: partitions)

/-- The columns or the rows. The only one of a single column or row has the size of a first one. -/
def partitionsOfAxis (frameSize numPartitions : ℕ) (size : ℕ → Option ℕ) :
    Option (List (ℕ × ℕ)) :=
  if numPartitions = 0 then none
  else if numPartitions = 1 then do
    let partitionSize ← size 0
    some [(0, partitionSize)]
  else partitionsFrom frameSize size (numPartitions - 1) 0 0

/-- `64 * ( minus1 + 1 )` of an unsigned 32-bit value. -/
def partitionSizeOf (minus1 : ℕ) : ℕ := 64 * (minus1 + 1) % 2 ^ 32

/-- The size of a column or row that is not the last one. -/
def signalledSize (uniform : Bool) (minus1 : List ℕ) (index : ℕ) : Option ℕ :=
  (minus1[if uniform then 0 else index]?).map partitionSizeOf

/-- One pass of the loop of `setTilePartitionSizeAfti`. -/
def setTilePartitionSize (asps : AtlasSequenceParameterSetRbsp) (afti : AtlasFrameTileInformation) :
    Option TilePartitions := do
  let numPartitionCols := (afti.numPartitionColumnsMinus1 + 1) % 2 ^ 32
  let numPartitionRows := (afti.numPartitionRowsMinus1 + 1) % 2 ^ 32
  if afti.singleTileInAtlasFrameFlag then
    if numPartitionCols = 0 ∨ numPartitionRows = 0 then none
    else
      some {
        columns := (0, asps.frameWidth) :: List.replicate (numPartitionCols - 1) (0, 0)
        rows := (0, asps.frameHeight) :: List.replicate (numPartitionRows - 1) (0, 0) }
  else do
    let uniform := afti.uniformPartitionSpacingFlag
    let columns ← partitionsOfAxis asps.frameWidth numPartitionCols
      (signalledSize uniform afti.partitionColumnWidthMinus1)
    let rows ← partitionsOfAxis asps.frameHeight numPartitionRows
      (signalledSize uniform afti.partitionRowHeightMinus1)
    some { columns, rows }

/-- `setTilePartitionSizeAfti`. -/
def setTilePartitionSizeAfti (asps : ℕ → Option AtlasSequenceParameterSetRbsp)
    (atlasFrameParameterSetList : List AtlasFrameParameterSetRbsp) : Option (List TilePartitions) :=
  atlasFrameParameterSetList.mapM fun afps => do
    let asps ← asps afps.atlasSequenceParameterSetId
    setTilePartitionSize asps afps.atlasFrameTileInformation

/-- Positive partitions, one behind the other, that fill the frame. -/
structure AxisCovered (frameSize numPartitions : ℕ) (partitions : List (ℕ × ℕ)) : Prop where
  count : partitions.length = numPartitions
  positive : ∀ p ∈ partitions, 0 < p.2
  position : ∀ i p, partitions[i]? = some p → p.1 = ((partitions.take i).map Prod.snd).sum
  total : (partitions.map Prod.snd).sum = frameSize

/-- The partitions cover the frame. A difference that wraps is larger than any frame. -/
def CoversFrame (asps : AtlasSequenceParameterSetRbsp) (afti : AtlasFrameTileInformation) : Prop :=
  ∃ partitions, setTilePartitionSize asps afti = some partitions ∧
    AxisCovered asps.frameWidth (afti.numPartitionColumnsMinus1 + 1) partitions.columns ∧
    AxisCovered asps.frameHeight (afti.numPartitionRowsMinus1 + 1) partitions.rows

/-- The signalled sizes leave a rest of the frame, or fill it when there is one partition only. -/
def SpacingFits (uniform : Bool) (frameSize numPartitionsMinus1 : ℕ) (minus1 : List ℕ) : Prop :=
  if uniform then
    ∃ first, minus1[0]? = some first ∧
      (64 * (first + 1) < frameSize ∨ partitionSizeOf first = frameSize ∧ 0 < frameSize)
  else if numPartitionsMinus1 = 0 then frameSize = 64
  else (∀ m ∈ minus1, 0 < partitionSizeOf m) ∧ (minus1.map partitionSizeOf).sum < frameSize

/-- The condition on the tile information. -/
def PartitionsFit (asps : AtlasSequenceParameterSetRbsp) (afti : AtlasFrameTileInformation) : Prop :=
  if afti.singleTileInAtlasFrameFlag then 0 < asps.frameWidth ∧ 0 < asps.frameHeight
  else
    SpacingFits afti.uniformPartitionSpacingFlag asps.frameWidth afti.numPartitionColumnsMinus1
        afti.partitionColumnWidthMinus1 ∧
      SpacingFits afti.uniformPartitionSpacingFlag asps.frameHeight afti.numPartitionRowsMinus1
        afti.partitionRowHeightMinus1

/-! Partitions one behind the other. -/

/-- From `start` on to `stop`. -/
def Consecutive (stop : ℕ) : ℕ → List (ℕ × ℕ) → Prop
  | start, [] => start = stop
  | start, (pos, size) :: partitions => pos = start ∧ 0 < size ∧ Consecutive stop (start + size) partitions

theorem Consecutive.positive {stop start : ℕ} {partitions : List (ℕ × ℕ)}
    (h : Consecutive stop start partitions) : ∀ p ∈ partitions, 0 < p.2 := by
  induction partitions generalizing start with
  | nil => simp
  | cons p partitions ih =>
    intro q hq
    rcases List.mem_cons.mp hq with rfl | hq
    · exact h.2.1
    · exact ih h.2.2 q hq

theorem Consecutive.total {stop start : ℕ} {partitions : List (ℕ × ℕ)}
    (h : Consecutive stop start partitions) : start + (partitions.map Prod.snd).sum = stop := by
  induction partitions generalizing start with
  | nil => exact h
  | cons p partitions ih =>
    rw [List.map_cons, List.sum_cons, ← Nat.add_assoc]
    exact ih h.2.2

theorem Consecutive.position {stop start : ℕ} {partitions : List (ℕ × ℕ)}
    (h : Consecutive stop start partitions) {i : ℕ} {p : ℕ × ℕ} (hp : partitions[i]? = some p) :
    p.1 = start + ((partitions.take i).map Prod.snd).sum := by
  induction partitions generalizing start i with
  | nil => simp at hp
  | cons q partitions ih =>
    cases i with
    | zero =>
      obtain rfl : q = p := by simpa using hp
      simpa using h.1
    | succ i =>
      rw [List.take_succ_cons, List.map_cons, List.sum_cons, ← Nat.add_assoc]
      exact ih h.2.2 (by simpa using hp)

theorem Consecutive.axisCovered {frameSize : ℕ} {partitions : List (ℕ × ℕ)}
    (h : Consecutive frameSize 0 partitions) :
    AxisCovered frameSize partitions.length partitions where
  count := rfl
  positive := h.positive
  position i p hp := by rw [h.position hp, Nat.zero_add]
  total := by rw [← h.total, Nat.zero_add]

/-! The loop over the partitions. -/

section Loop

variable {frameSize : ℕ} {size : ℕ → Option ℕ}

/-- The sizes are the ones given, with one more behind them. -/
theorem exists_partitionsFrom (sizes : List ℕ) (index pos : ℕ)
    (hsizes : ∀ i s, sizes[i]? = some s → size (index + i) = some s) :
    ∃ partitions last, partitionsFrom frameSize size sizes.length index pos = some partitions ∧
      partitions.map Prod.snd = sizes ++ [last] := by
  induction sizes generalizing index pos with
  | nil => exact ⟨_, _, rfl, rfl⟩
  | cons s sizes ih =>
    obtain ⟨partitions, last, hpartitions, hmap⟩ := ih (index + 1) ((pos + s) % 2 ^ 64)
      fun i t ht => by
        rw [Nat.add_assoc, Nat.add_comm 1]
        exact hsizes (i + 1) t (by simpa using ht)
    refine ⟨(pos, s) :: partitions, last, ?_, by rw [List.map_cons, hmap]; rfl⟩
    have hfirst : size index = some s := hsizes 0 s rfl
    rw [List.length_cons, partitionsFrom, hfirst, Option.bind_eq_bind, Option.bind_some,
      hpartitions]
    rfl

/-- Sizes that leave a rest of the frame fill it together with the last partition. -/
theorem consecutive_partitionsFrom (hframe : frameSize < 2 ^ 16) (sizes : List ℕ)
    (index pos : ℕ) (hsizes : ∀ i s, sizes[i]? = some s → size (index + i) = some s)
    (hpositive : ∀ s ∈ sizes, 0 < s) (hfit : pos + sizes.sum < frameSize)
    {partitions : List (ℕ × ℕ)}
    (h : partitionsFrom frameSize size sizes.length index pos = some partitions) :
    Consecutive frameSize pos partitions := by
  induction sizes generalizing index pos partitions with
  | nil =>
    rw [List.sum_nil] at hfit
    obtain rfl := Option.some.inj h
    have hlast : toSizeT ((frameSize : ℤ) - pos) = frameSize - pos := by
      rw [toSizeT_of_lt (by omega) (by omega)]
      omega
    rw [hlast]
    refine ⟨rfl, by omega, ?_⟩
    change pos + (frameSize - pos) = frameSize
    omega
  | cons s sizes ih =>
    rw [List.sum_cons] at hfit
    have hfirst : size index = some s := hsizes 0 s rfl
    have hmod : (pos + s) % 2 ^ 64 = pos + s := Nat.mod_eq_of_lt (by omega)
    rw [List.length_cons, partitionsFrom, hfirst, Option.bind_eq_bind, Option.bind_some, hmod] at h
    obtain ⟨rest, hrest, hpair⟩ := Option.bind_eq_some_iff.mp h
    obtain rfl := Option.some.inj hpair
    refine ⟨rfl, hpositive s List.mem_cons_self, ih (index + 1) (pos + s) ?_ ?_ (by omega) hrest⟩
    · intro i t ht
      rw [Nat.add_assoc, Nat.add_comm 1]
      exact hsizes (i + 1) t (by simpa using ht)
    · exact fun t ht => hpositive t (List.mem_cons_of_mem s ht)

/-- Two or more partitions. -/
theorem covered_partitionsFrom_iff (hframe : frameSize < 2 ^ 16) (sizes : List ℕ)
    (hsizes : ∀ i s, sizes[i]? = some s → size i = some s) :
    (∃ partitions, partitionsFrom frameSize size sizes.length 0 0 = some partitions ∧
        AxisCovered frameSize (sizes.length + 1) partitions) ↔
      (∀ s ∈ sizes, 0 < s) ∧ sizes.sum < frameSize := by
  have hsizes' : ∀ i s, sizes[i]? = some s → size (0 + i) = some s := by
    intro i s hs
    rw [Nat.zero_add]
    exact hsizes i s hs
  obtain ⟨partitions, last, hpartitions, hmap⟩ := exists_partitionsFrom sizes 0 0 hsizes'
  constructor
  · rintro ⟨partitions', hpartitions', hcovered⟩
    obtain rfl := Option.some.inj (hpartitions.symm.trans hpartitions')
    have hpositive : ∀ s ∈ sizes ++ [last], 0 < s := by
      rw [← hmap]
      intro s hs
      obtain ⟨p, hp, rfl⟩ := List.mem_map.mp hs
      exact hcovered.positive p hp
    have htotal := hcovered.total
    rw [hmap, List.sum_append, List.sum_singleton] at htotal
    have hlast := hpositive last (by simp)
    exact ⟨fun s hs => hpositive s (List.mem_append_left _ hs), by omega⟩
  · rintro ⟨hpositive, hfit⟩
    have hconsecutive := consecutive_partitionsFrom hframe sizes 0 0 hsizes' hpositive
      (by rwa [Nat.zero_add]) hpartitions
    have hlength : partitions.length = sizes.length + 1 := by
      rw [← List.length_map (f := Prod.snd), hmap, List.length_append]
      rfl
    exact ⟨partitions, hpartitions, hlength ▸ hconsecutive.axisCovered⟩

theorem axisCovered_singleton (size : ℕ) :
    AxisCovered frameSize 1 [(0, size)] ↔ size = frameSize ∧ 0 < frameSize := by
  constructor
  · intro h
    have htotal := h.total
    have hpositive := h.positive (0, size) List.mem_cons_self
    rw [List.map_singleton, List.sum_singleton] at htotal
    exact ⟨htotal, htotal ▸ hpositive⟩
  · rintro ⟨rfl, hpositive⟩
    exact @Consecutive.axisCovered _ [(0, size)] ⟨rfl, hpositive, Nat.zero_add _⟩

end Loop

/-! What the parser accepts. -/

/-- The counts and sizes of one axis as they are parsed. -/
structure AxisAccepted (uniform : Bool) (frameSize numPartitionsMinus1 : ℕ) (minus1 : List ℕ) :
    Prop where
  count_lt : numPartitionsMinus1 + 1 < 2 ^ 32
  ofUniform : uniform = true → ∃ first, minus1[0]? = some first ∧ 0 < frameSize ∧
    numPartitionsMinus1 = (frameSize - 1) / ((first + 1) * 64)
  ofExplicit : uniform = false → minus1.length = max 1 numPartitionsMinus1 ∧
    (numPartitionsMinus1 = 0 → minus1 = [0])

section Axis

variable {frameSize numPartitionsMinus1 : ℕ} {minus1 : List ℕ}

abbrev AxisCoveredBy (uniform : Bool) (frameSize numPartitionsMinus1 : ℕ) (minus1 : List ℕ) : Prop :=
  ∃ partitions,
    partitionsOfAxis frameSize ((numPartitionsMinus1 + 1) % 2 ^ 32) (signalledSize uniform minus1) =
      some partitions ∧
    AxisCovered frameSize (numPartitionsMinus1 + 1) partitions

theorem axisCoveredBy_single (uniform : Bool) {first : ℕ} (hfirst : minus1[0]? = some first) :
    AxisCoveredBy uniform frameSize 0 minus1 ↔ partitionSizeOf first = frameSize ∧ 0 < frameSize := by
  have hsize : signalledSize uniform minus1 0 = some (partitionSizeOf first) := by
    unfold signalledSize
    rw [ite_self, hfirst]
    rfl
  have haxis : partitionsOfAxis frameSize ((0 + 1) % 2 ^ 32) (signalledSize uniform minus1) =
      some [(0, partitionSizeOf first)] := by
    unfold partitionsOfAxis
    rw [if_neg (by decide), if_pos (by decide), hsize]
    rfl
  unfold AxisCoveredBy
  rw [haxis, ← axisCovered_singleton]
  constructor
  · rintro ⟨partitions, hpartitions, hcovered⟩
    obtain rfl := Option.some.inj hpartitions
    exact hcovered
  · exact fun hcovered => ⟨_, rfl, hcovered⟩

theorem axisCoveredBy_many (hframe : frameSize < 2 ^ 16) (uniform : Bool)
    (hcount : numPartitionsMinus1 + 1 < 2 ^ 32) {sizes : List ℕ} (hmany : 0 < sizes.length)
    (hlength : sizes.length = numPartitionsMinus1)
    (hsizes : ∀ i s, sizes[i]? = some s → signalledSize uniform minus1 i = some s) :
    AxisCoveredBy uniform frameSize numPartitionsMinus1 minus1 ↔
      (∀ s ∈ sizes, 0 < s) ∧ sizes.sum < frameSize := by
  unfold AxisCoveredBy partitionsOfAxis
  rw [Nat.mod_eq_of_lt hcount, if_neg (Nat.succ_ne_zero _), if_neg (by omega),
    Nat.add_sub_cancel, ← hlength]
  exact covered_partitionsFrom_iff hframe sizes hsizes

theorem axisCoveredBy_uniform (hframe : frameSize < 2 ^ 16)
    (h : AxisAccepted true frameSize numPartitionsMinus1 minus1) :
    AxisCoveredBy true frameSize numPartitionsMinus1 minus1 ↔
      SpacingFits true frameSize numPartitionsMinus1 minus1 := by
  obtain ⟨first, hfirst, hpositive, hcount⟩ := h.ofUniform rfl
  have hunit : 0 < (first + 1) * 64 := by omega
  have hfits : SpacingFits true frameSize numPartitionsMinus1 minus1 ↔
      64 * (first + 1) < frameSize ∨ partitionSizeOf first = frameSize ∧ 0 < frameSize := by
    unfold SpacingFits
    rw [if_pos rfl]
    constructor
    · rintro ⟨first', hfirst', hfit⟩
      obtain rfl := Option.some.inj (hfirst.symm.trans hfirst')
      exact hfit
    · exact fun hfit => ⟨first, hfirst, hfit⟩
  rw [hfits]
  by_cases hone : numPartitionsMinus1 = 0
  · have hlt : frameSize - 1 < (first + 1) * 64 :=
      (Nat.div_eq_zero_iff_lt hunit).mp (hcount.symm.trans hone)
    subst hone
    rw [axisCoveredBy_single true hfirst, or_iff_right (by omega)]
  · have hge : (first + 1) * 64 ≤ frameSize - 1 := by
      by_contra hlt
      exact hone (hcount.trans (Nat.div_eq_of_lt (not_le.mp hlt)))
    have hsize : partitionSizeOf first = (first + 1) * 64 := by
      unfold partitionSizeOf
      omega
    have hsizes : ∀ i s, (List.replicate numPartitionsMinus1 ((first + 1) * 64))[i]? = some s →
        signalledSize true minus1 i = some s := by
      intro i s hs
      obtain ⟨-, rfl⟩ := List.getElem?_eq_some_iff.mp hs
      rw [List.getElem_replicate, signalledSize, if_pos rfl, hfirst, Option.map_some, hsize]
    have hsum : numPartitionsMinus1 * ((first + 1) * 64) ≤ frameSize - 1 := by
      rw [hcount]
      exact Nat.div_mul_le_self _ _
    rw [axisCoveredBy_many hframe true h.count_lt (by rw [List.length_replicate]; omega)
      (List.length_replicate) hsizes, List.sum_replicate_nat]
    constructor
    · exact fun _ => .inl (by omega)
    · intro _
      refine ⟨fun s hs => ?_, by omega⟩
      rw [List.eq_of_mem_replicate hs]
      exact hunit

theorem axisCoveredBy_explicit (hframe : frameSize < 2 ^ 16)
    (h : AxisAccepted false frameSize numPartitionsMinus1 minus1) :
    AxisCoveredBy false frameSize numPartitionsMinus1 minus1 ↔
      SpacingFits false frameSize numPartitionsMinus1 minus1 := by
  obtain ⟨hlength, hzero⟩ := h.ofExplicit rfl
  unfold SpacingFits
  rw [if_neg nofun]
  by_cases hone : numPartitionsMinus1 = 0
  · have hsingle : minus1[0]? = some 0 := by
      rw [hzero hone]
      rfl
    rw [if_pos hone]
    subst hone
    rw [axisCoveredBy_single false hsingle]
    have : partitionSizeOf 0 = 64 := rfl
    omega
  · have hcount : (minus1.map partitionSizeOf).length = numPartitionsMinus1 := by
      rw [List.length_map]
      omega
    have hsizes : ∀ i s, (minus1.map partitionSizeOf)[i]? = some s →
        signalledSize false minus1 i = some s := by
      intro i s hs
      rwa [List.getElem?_map] at hs
    rw [if_neg hone, axisCoveredBy_many hframe false h.count_lt (by omega) hcount hsizes,
      List.forall_mem_map]

theorem axisCoveredBy_iff (hframe : frameSize < 2 ^ 16) {uniform : Bool}
    (h : AxisAccepted uniform frameSize numPartitionsMinus1 minus1) :
    AxisCoveredBy uniform frameSize numPartitionsMinus1 minus1 ↔
      SpacingFits uniform frameSize numPartitionsMinus1 minus1 := by
  cases uniform with
  | true => exact axisCoveredBy_uniform hframe h
  | false => exact axisCoveredBy_explicit hframe h

end Axis

structure TileInformationAccepted (asps : AtlasSequenceParameterSetRbsp)
    (afti : AtlasFrameTileInformation) : Prop where
  columns : AxisAccepted afti.uniformPartitionSpacingFlag asps.frameWidth
    afti.numPartitionColumnsMinus1 afti.partitionColumnWidthMinus1
  rows : AxisAccepted afti.uniformPartitionSpacingFlag asps.frameHeight
    afti.numPartitionRowsMinus1 afti.partitionRowHeightMinus1

namespace PCCBitstreamReader

theorem readUvlc_ensures : Reader.Ensures readUvlc fun v => v + 1 < 2 ^ 32 :=
  fun _ _ _ h => (readUvlc_takes h).1

theorem repeatFrom_length {α : Type} (i n : ℕ) (f : ℕ → Reader α) :
    Reader.Ensures (Reader.repeatFrom i n f) fun as => as.length = n := by
  induction n generalizing i with
  | zero => exact .pure rfl
  | succ n ih =>
    refine .bind fun a => .then_bind (ih (i + 1)) fun as has => .pure ?_
    rw [List.length_cons, has]

theorem ofOption_ensures {α : Type} (o : Option α) :
    Reader.Ensures (Reader.ofOption o) fun a => o = some a :=
  fun _ _ _ h => (Reader.ofOption_run_eq_some.mp h).1

theorem length_resizePartitions (sizes : List ℕ) (n : ℕ) :
    (resizePartitions sizes n).length = max 1 n := by
  unfold resizePartitions
  rw [List.length_take, List.length_append, List.length_replicate]
  omega

theorem axisAccepted_uniform {frameSize first count : ℕ} (hframe : frameSize < 2 ^ 16)
    (hcount : numPartitionsMinus1 frameSize first = some count) :
    AxisAccepted true frameSize count (resizePartitions [first] count) := by
  unfold numPartitionsMinus1 at hcount
  split_ifs at hcount with hzero
  obtain rfl := Option.some.inj hcount
  have hle := Nat.div_le_self (frameSize - 1) ((first + 1) * 64)
  refine ⟨by omega, fun _ => ⟨first, ?_, by omega, rfl⟩, nofun⟩
  unfold resizePartitions
  rw [List.getElem?_take, if_pos (by omega)]
  rfl

theorem axisAccepted_explicit (frameSize : ℕ) {count : ℕ} {sizes : List ℕ}
    (hcount : count + 1 < 2 ^ 32) (hlength : sizes.length = count) :
    AxisAccepted false frameSize count (resizePartitions sizes count) := by
  refine ⟨hcount, nofun, fun _ => ⟨length_resizePartitions _ _, ?_⟩⟩
  rintro rfl
  rw [List.length_eq_zero_iff.mp hlength]
  rfl

theorem uniformPartitions_ensures {asps : AtlasSequenceParameterSetRbsp}
    (hwidth : asps.frameWidth < 2 ^ 16) (hheight : asps.frameHeight < 2 ^ 16)
    {afti : AtlasFrameTileInformation} (hflag : afti.uniformPartitionSpacingFlag = true) :
    Reader.Ensures (uniformPartitions asps afti) (TileInformationAccepted asps) := by
  refine .bind fun width => .bind fun height => .then_bind (ofOption_ensures _) fun columns hcolumns =>
    .then_bind (ofOption_ensures _) fun rows hrows => .pure ⟨?_, ?_⟩
  · change AxisAccepted afti.uniformPartitionSpacingFlag _ _ _
    rw [hflag]
    exact axisAccepted_uniform hwidth hcolumns
  · change AxisAccepted afti.uniformPartitionSpacingFlag _ _ _
    rw [hflag]
    exact axisAccepted_uniform hheight hrows

theorem explicitPartitions_ensures (asps : AtlasSequenceParameterSetRbsp)
    {afti : AtlasFrameTileInformation} (hflag : afti.uniformPartitionSpacingFlag = false) :
    Reader.Ensures (explicitPartitions afti) (TileInformationAccepted asps) := by
  refine .then_bind readUvlc_ensures fun columns hcolumns =>
    .then_bind readUvlc_ensures fun rows hrows =>
    .then_bind (repeatFrom_length _ _ _) fun widths hwidths =>
    .then_bind (repeatFrom_length _ _ _) fun heights hheights => .pure ⟨?_, ?_⟩
  · change AxisAccepted afti.uniformPartitionSpacingFlag _ _ _
    rw [hflag]
    exact axisAccepted_explicit _ hcolumns hwidths
  · change AxisAccepted afti.uniformPartitionSpacingFlag _ _ _
    rw [hflag]
    exact axisAccepted_explicit _ hrows hheights

theorem tilePartitions_ensures {asps : AtlasSequenceParameterSetRbsp}
    (hwidth : asps.frameWidth < 2 ^ 16) (hheight : asps.frameHeight < 2 ^ 16) :
    Reader.Ensures (tilePartitions asps) (TileInformationAccepted asps) := by
  have htiles (afti : AtlasFrameTileInformation) (hafti : TileInformationAccepted asps afti) :
      Reader.Ensures (do
        let singlePartitionPerTileFlag ← read 1
        let afti := { afti with singlePartitionPerTileFlag }
        if singlePartitionPerTileFlag = 0 then signalledTiles afti else pure (partitionTiles afti))
        (TileInformationAccepted asps) := by
    refine .bind fun single => ?_
    dsimp only
    split_ifs
    · exact .bind fun tiles => .bind fun entries => .pure ⟨hafti.columns, hafti.rows⟩
    · exact .pure ⟨hafti.columns, hafti.rows⟩
  refine .bind fun uniform => ?_
  cases uniform with
  | true => exact .then_bind (uniformPartitions_ensures hwidth hheight rfl) htiles
  | false => exact .then_bind (explicitPartitions_ensures asps rfl) htiles

/-- Parsed tile information has its counts and sizes from the syntax, or those of one tile. -/
theorem atlasFrameTileInformation_ensures {asps : AtlasSequenceParameterSetRbsp}
    (hwidth : asps.frameWidth < 2 ^ 16) (hheight : asps.frameHeight < 2 ^ 16) :
    Reader.Ensures (atlasFrameTileInformation asps) fun afti =>
      (afti.singleTileInAtlasFrameFlag = false → TileInformationAccepted asps afti) ∧
        (afti.singleTileInAtlasFrameFlag = true →
          afti.numPartitionColumnsMinus1 = 0 ∧ afti.numPartitionRowsMinus1 = 0) := by
  refine .bind fun single => .then_bind (P := fun afti =>
    (single = false → TileInformationAccepted asps afti) ∧
      (single = true → afti.numPartitionColumnsMinus1 = 0 ∧ afti.numPartitionRowsMinus1 = 0))
    ?_ fun afti hafti => ?_
  · cases single with
    | true => exact .pure ⟨nofun, fun _ => ⟨rfl, rfl⟩⟩
    | false => exact fun c afti c' h => ⟨fun _ => tilePartitions_ensures hwidth hheight c afti c' h, nofun⟩
  · refine .bind fun width => .bind fun heights => .bind fun signalled => .bind fun length =>
      .bind fun ids => .pure ⟨fun hsingle => ?_, fun hsingle => hafti.2 hsingle⟩
    exact ⟨(hafti.1 hsingle).columns, (hafti.1 hsingle).rows⟩

end PCCBitstreamReader

/-- The partitions of parsed tile information cover the frame exactly where the signalled sizes
fit it. -/
theorem coversFrame_iff {asps : AtlasSequenceParameterSetRbsp} {c c' : Cursor}
    {afti : AtlasFrameTileInformation}
    (hwidth : asps.frameWidth < 2 ^ 16) (hheight : asps.frameHeight < 2 ^ 16)
    (hread : PCCBitstreamReader.atlasFrameTileInformation asps c = some (afti, c')) :
    CoversFrame asps afti ↔ PartitionsFit asps afti := by
  obtain ⟨hmany, hone⟩ :=
    PCCBitstreamReader.atlasFrameTileInformation_ensures hwidth hheight c afti c' hread
  unfold CoversFrame PartitionsFit setTilePartitionSize
  dsimp only
  cases hsingle : afti.singleTileInAtlasFrameFlag with
  | true =>
    obtain ⟨hcolumns, hrows⟩ := hone hsingle
    rw [hcolumns, hrows, if_pos rfl, if_pos rfl, if_neg (by decide)]
    constructor
    · rintro ⟨partitions, hpartitions, hcovered⟩
      obtain rfl := Option.some.inj hpartitions
      exact ⟨((axisCovered_singleton _).mp hcovered.1).2, ((axisCovered_singleton _).mp hcovered.2).2⟩
    · rintro ⟨hw, hh⟩
      exact ⟨_, rfl, (axisCovered_singleton _).mpr ⟨rfl, hw⟩, (axisCovered_singleton _).mpr ⟨rfl, hh⟩⟩
  | false =>
    have haccepted := hmany hsingle
    rw [if_neg nofun, if_neg nofun, ← axisCoveredBy_iff hwidth haccepted.columns,
      ← axisCoveredBy_iff hheight haccepted.rows]
    constructor
    · rintro ⟨partitions, hpartitions, hcovered⟩
      obtain ⟨columns, hcolumns, hpartitions⟩ := Option.bind_eq_some_iff.mp hpartitions
      obtain ⟨rows, hrows, hpartitions⟩ := Option.bind_eq_some_iff.mp hpartitions
      obtain rfl := Option.some.inj hpartitions
      exact ⟨⟨columns, hcolumns, hcovered.1⟩, ⟨rows, hrows, hcovered.2⟩⟩
    · rintro ⟨⟨columns, hcolumns, hcovered⟩, ⟨rows, hrows, hcovered'⟩⟩
      exact ⟨⟨columns, rows⟩, by rw [hcolumns, Option.bind_eq_bind, Option.bind_some, hrows]; rfl,
        hcovered, hcovered'⟩

/-- Three columns of 64, 128 and 108 samples and two rows of 64 and 36, with a tile for each of
them. -/
theorem coversFrame_sixTiles :
    ∃ afti c', PCCBitstreamReader.atlasFrameTileInformation { frameWidth := 300, frameHeight := 100 }
        ⟨0, [false, false, false, true, true, false, true, false, true, false, true, false, true,
          true, false]⟩ = some (afti, c') ∧
      afti.numTilesInAtlasFrameMinus1 = 5 ∧
      CoversFrame { frameWidth := 300, frameHeight := 100 } afti := by
  have hfields : (PCCBitstreamReader.atlasFrameTileInformation
        { frameWidth := 300, frameHeight := 100 }
        ⟨0, [false, false, false, true, true, false, true, false, true, false, true, false, true,
          true, false]⟩).map (fun run => (run.1.numTilesInAtlasFrameMinus1,
            run.1.singleTileInAtlasFrameFlag, run.1.uniformPartitionSpacingFlag,
            (run.1.numPartitionColumnsMinus1, run.1.partitionColumnWidthMinus1),
            run.1.numPartitionRowsMinus1, run.1.partitionRowHeightMinus1)) =
      some (5, false, false, (2, [0, 1]), 1, [0]) := by
    rfl
  obtain ⟨⟨afti, c'⟩, hread, hfields⟩ := Option.map_eq_some_iff.mp hfields
  simp only [Prod.mk.injEq] at hfields
  obtain ⟨htiles, hsingle, huniform, ⟨hcolumns, hwidths⟩, hrows, hheights⟩ := hfields
  refine ⟨afti, c', hread, htiles, (coversFrame_iff (by decide) (by decide) hread).mpr ?_⟩
  unfold PartitionsFit SpacingFits
  rw [hsingle, huniform, hcolumns, hrows, hwidths, hheights]
  decide

/-- One uniform column of 128 samples for a frame of 100. -/
theorem not_coversFrame_oneColumn :
    ∃ afti c', PCCBitstreamReader.atlasFrameTileInformation { frameWidth := 100, frameHeight := 64 }
        ⟨0, [false, true, false, true, false, true, true, false]⟩ = some (afti, c') ∧
      ¬ CoversFrame { frameWidth := 100, frameHeight := 64 } afti := by
  refine ⟨{ singlePartitionPerTileFlag := 1, partitionColumnWidthMinus1 := [1] }, ⟨0, []⟩, by rfl, ?_⟩
  rintro ⟨partitions, hpartitions, hcolumns, -⟩
  obtain rfl := Option.some.inj hpartitions
  exact absurd hcolumns.total (by decide)

end V3C

import V3C.Codec.Traverse
import V3C.Reconstruction.PointLocalReconstruction
import V3C.Syntax.PlrRoundTrip

/-! The modes that a decoder reconstructs with, against those of the encoder. The loop of the
encoder reads one mode more than its table has, and the loops of the syntax leave this one
behind. -/
namespace V3C
open Codec

/-! ### The table of modes -/

section Table
variable {modes : List PointLocalReconstructionMode} {asps : AtlasSequenceParameterSetRbsp}

/-- A mode within the bits of its fields. -/
def PointLocalReconstructionMode.Coded (mode : PointLocalReconstructionMode) : Prop :=
  mode.minD1 < 4 ∧ 1 ≤ mode.neighbor ∧ mode.neighbor ≤ 4

instance (mode : PointLocalReconstructionMode) : Decidable mode.Coded :=
  inferInstanceAs (Decidable (_ ∧ _ ∧ _))

/-- A mode as the table of the parameter set has it. -/
def PointLocalReconstructionMode.entry (mode : PointLocalReconstructionMode) : PLRMode where
  interpolateFlag := mode.interpolate
  fillingFlag := mode.filling
  minimumDepth := mode.minD1
  neighbourMinus1 := mode.neighbor - 1

/-- The table that a parameter set has for the modes behind the default one. -/
def plriOf (modes : List PointLocalReconstructionMode) (patchSize : ℕ) : PLRInformation where
  mapEnabledFlag := true
  numberOfModesMinus1 := modes.length - 2
  modes := modes.tail.map (·.entry)
  blockThresholdPerPatchMinus1 := patchSize - 1

/-- The table as it is received: the last of its modes is the default of the vectors. -/
def receivedPlri (modes : List PointLocalReconstructionMode) (patchSize : ℕ) : PLRInformation :=
  { plriOf modes patchSize with modes := modes.tail.dropLast.map (·.entry) ++ [{}] }

theorem toUInt8_pred {n : ℕ} (hpos : 1 ≤ n) (hlt : n ≤ 256) : toUInt8 ((n : ℤ) - 1) = n - 1 := by
  unfold toUInt8
  omega

theorem toUInt8_succ {n : ℕ} (hlt : n < 255) : toUInt8 ((n : ℤ) + 1) = n + 1 := by
  unfold toUInt8
  omega

/-- The loop of the encoder reads the modes behind the default one, as many as the table of the
parameter set has room for. -/
theorem encoder_table {table : List PointLocalReconstructionMode} {plrlNumberOfModes patchSize : ℕ}
    (hin : PCCEncoder.transmittedModes plrlNumberOfModes < table.length)
    (hcoded : ∀ mode ∈ table, mode.Coded) (hpos : 1 ≤ patchSize) (hsize : patchSize ≤ 64) :
    PCCEncoder.setPointLocalReconstruction table plrlNumberOfModes patchSize =
      some (plriOf (table.take (PCCEncoder.transmittedModes plrlNumberOfModes + 1)) patchSize) := by
  have hcount : (table.take (PCCEncoder.transmittedModes plrlNumberOfModes + 1)).length - 2 =
      toUInt8 ((plrlNumberOfModes : ℤ) - 1) := by
    rw [List.length_take, Nat.min_eq_left hin]
    rfl
  have hmodes : (List.range (PCCEncoder.transmittedModes plrlNumberOfModes)).mapM (fun i => do
      let mode ← table[i + 1]?
      pure {
        interpolateFlag := mode.interpolate
        fillingFlag := mode.filling
        minimumDepth := mode.minD1
        neighbourMinus1 := toUInt8 (mode.neighbor - 1) : PLRMode }) =
      some ((table.take (PCCEncoder.transmittedModes plrlNumberOfModes + 1)).tail.map
        (·.entry)) := by
    rw [mapM_eq_some_map (g := fun i =>
      ((table[i + 1]?.map (·.entry)).getD {}))]
    · congr 1
      apply List.ext_getElem
      · simp
        omega
      · intro i hi hi'
        rw [List.length_map, List.length_range] at hi
        have hin : i + 1 < table.length := by omega
        simp [hin]
    · intro i hi
      have hin : i + 1 < table.length := by
        have := List.mem_range.mp hi
        omega
      obtain ⟨-, hlow, hhigh⟩ := hcoded _ (List.getElem_mem hin)
      simp only [List.getElem?_eq_getElem hin, Option.bind_eq_bind, Option.bind_some,
        Option.map_some, Option.getD_some]
      rw [toUInt8_pred hlow (by omega)]
      rfl
  unfold PCCEncoder.setPointLocalReconstruction plriOf
  rw [hcount]
  simp only [hmodes, toUInt8_pred hpos (show patchSize ≤ 256 by omega)]
  rfl

/-- A table that is too short is read past its end. -/
theorem encoder_table_eq_none {table : List PointLocalReconstructionMode} {plrlNumberOfModes : ℕ}
    (hout : table.length ≤ PCCEncoder.transmittedModes plrlNumberOfModes) (patchSize : ℕ) :
    PCCEncoder.setPointLocalReconstruction table plrlNumberOfModes patchSize = none := by
  have hnone : (List.range (PCCEncoder.transmittedModes plrlNumberOfModes)).mapM (fun i => do
      let mode ← table[i + 1]?
      pure {
        interpolateFlag := mode.interpolate
        fillingFlag := mode.filling
        minimumDepth := mode.minD1
        neighbourMinus1 := toUInt8 (mode.neighbor - 1) : PLRMode }) = none := by
    apply mapM_eq_none_of_mem (a := toUInt8 ((plrlNumberOfModes : ℤ) - 1))
      (List.mem_range.mpr (Nat.lt_succ_self _))
    rw [List.getElem?_eq_none (by exact hout)]
    rfl
  unfold PCCEncoder.setPointLocalReconstruction
  simp only [hnone]
  rfl

theorem plrMode_roundTrip {mode : PointLocalReconstructionMode} (h : mode.Coded) :
    RoundTrip (PCCBitstreamWriter.plrMode mode.entry) PCCBitstreamReader.plrMode mode.entry := by
  obtain ⟨hdepth, hlow, hhigh⟩ := h
  unfold PCCBitstreamWriter.plrMode PCCBitstreamReader.plrMode
  apply (RoundTrip.flag _).bind
  apply (RoundTrip.flag _).bind
  apply (RoundTrip.write (show mode.entry.minimumDepth < 2 ^ 2 from hdepth) (by decide)).bind
  have hneighbour : mode.entry.neighbourMinus1 < 2 ^ 2 := by
    change mode.neighbor - 1 < 4
    omega
  exact (RoundTrip.write hneighbour (by decide)).last rfl

theorem plrInformation_roundTrip {patchSize : ℕ} (hlength : 2 ≤ modes.length)
    (hshort : modes.length ≤ 17) (hcoded : ∀ mode ∈ modes, mode.Coded) (hsize : patchSize ≤ 64)
    (hmaps : asps.mapCountMinus1 = 0) (hplri : asps.plrInformation = [plriOf modes patchSize]) :
    RoundTrip (PCCBitstreamWriter.plrInformation asps)
      (PCCBitstreamReader.plrInformation asps.mapCountMinus1) [receivedPlri modes patchSize] := by
  have hloop : RoundTrip
      (Writer.forEach (List.range (modes.length - 2)) fun i => do
        let mode ← Writer.ofOption (modes.tail.map (·.entry))[i]?
        PCCBitstreamWriter.plrMode mode)
      (Reader.repeatFrom 0 (modes.length - 2) fun _ => PCCBitstreamReader.plrMode)
      (modes.tail.dropLast.map (·.entry)) := by
    have h := RoundTrip.forEach_repeatFrom
      (f := fun i => do
        let mode ← Writer.ofOption (modes.tail.map (·.entry))[i]?
        PCCBitstreamWriter.plrMode mode)
      (g := fun _ => PCCBitstreamReader.plrMode)
      (y := fun i => ((modes.tail.map (·.entry))[i]?).getD {})
      (List.range (modes.length - 2)) 0 (by
        intro i hi
        rw [List.length_range] at hi
        have hin : i < (modes.tail.map (·.entry)).length := by
          rw [List.length_map, List.length_tail]
          omega
        simp only [List.getElem_range, List.getElem?_eq_getElem hin, Option.getD_some,
          Writer.ofOption_some, pure_bind, List.getElem_map]
        apply plrMode_roundTrip
        exact hcoded _ (List.mem_of_mem_tail (List.getElem_mem _)))
    have hlist : (List.range (modes.length - 2)).map
        (fun i => ((modes.tail.map (·.entry))[i]?).getD {}) =
          modes.tail.dropLast.map (·.entry) := by
      apply List.ext_getElem
      · simp
        omega
      · intro i hi hi'
        rw [List.length_map, List.length_range] at hi
        have hin : i + 1 < modes.length := by omega
        simp [hin]
    rwa [hlist, List.length_range] at h
  have hmap : RoundTrip (PCCBitstreamWriter.plrInformationMap (plriOf modes patchSize))
      PCCBitstreamReader.plrInformationMap (receivedPlri modes patchSize) := by
    unfold PCCBitstreamWriter.plrInformationMap PCCBitstreamReader.plrInformationMap
    apply (RoundTrip.flag true).bind
    rw [if_pos rfl]
    have hcount : modes.length - 2 < 2 ^ 4 := by omega
    apply (RoundTrip.write hcount (by decide)).bind
    apply hloop.bind
    have hthreshold : patchSize - 1 < 2 ^ 6 := by omega
    exact (RoundTrip.write hthreshold (by decide)).last rfl
  unfold PCCBitstreamWriter.plrInformation PCCBitstreamReader.plrInformation
  rw [hmaps, hplri, show List.range (0 + 1) = [0] from rfl]
  simp only [Writer.forEach_cons, Writer.forEach_nil, List.getElem?_cons_zero,
    Writer.ofOption_some, pure_bind]
  apply hmap.bind
  exact RoundTrip.pure _

/-- The decoder has all modes but the last one. -/
theorem decoder_table {patchSize : ℕ} (hlength : 2 ≤ modes.length)
    (hdefault : modes.head? = some ⟨false, false, 0, 1⟩) (hcoded : ∀ mode ∈ modes, mode.Coded)
    (henabled : asps.plrEnabledFlag = true)
    (hplri : asps.plrInformation = [receivedPlri modes patchSize]) :
    PCCDecoder.setPointLocalReconstruction asps = some modes.dropLast := by
  have hmodes : (List.range (modes.length - 2)).mapM (fun i => do
      let entry ← (receivedPlri modes patchSize).modes[i]?
      pure {
        interpolate := entry.interpolateFlag
        filling := entry.fillingFlag
        minD1 := entry.minimumDepth
        neighbor := toUInt8 (entry.neighbourMinus1 + 1) : PointLocalReconstructionMode }) =
      some modes.tail.dropLast := by
    rw [mapM_eq_some_map (g := fun i => modes.tail.dropLast[i]?.getD ⟨false, false, 0, 1⟩)]
    · congr 1
      apply List.ext_getElem
      · simp
        omega
      · intro i hi hi'
        rw [List.getElem_map, List.getElem_range, List.getElem?_eq_getElem hi', Option.getD_some]
    · intro i hi
      have hin : i < modes.tail.dropLast.length := by
        have := List.mem_range.mp hi
        rw [List.length_dropLast, List.length_tail]
        omega
      have hmem : modes.tail.dropLast[i] ∈ modes :=
        List.mem_of_mem_tail (List.dropLast_subset _ (List.getElem_mem hin))
      obtain ⟨-, hlow, hhigh⟩ := hcoded _ hmem
      have hentry : (receivedPlri modes patchSize).modes[i]? =
          some (modes.tail.dropLast[i].entry) := by
        unfold receivedPlri
        rw [List.getElem?_append_left (by rwa [List.length_map]), List.getElem?_map,
          List.getElem?_eq_getElem hin, Option.map_some]
      rw [hentry, List.getElem?_eq_getElem hin, Option.getD_some]
      generalize modes.tail.dropLast[i] = mode at hlow hhigh
      have hneighbor : toUInt8 (((mode.neighbor - 1 : ℕ) : ℤ) + 1) = mode.neighbor := by
        rw [toUInt8_succ (by omega)]
        omega
      simp only [Option.bind_eq_bind, Option.bind_some, PointLocalReconstructionMode.entry,
        hneighbor]
      rfl
  unfold PCCDecoder.setPointLocalReconstruction
  rw [if_pos henabled, hplri]
  have hcount : (receivedPlri modes patchSize).numberOfModesMinus1 = modes.length - 2 := rfl
  simp only [Option.bind_eq_bind] at hmodes
  simp only [List.getElem?_cons_zero, Option.bind_eq_bind, Option.bind_some, hcount, hmodes]
  obtain ⟨mode, rest, rfl⟩ := List.exists_cons_of_length_pos (show 0 < modes.length by omega)
  obtain rfl := Option.some.inj hdefault
  have hrest : rest ≠ [] := by
    rintro rfl
    simp at hlength
  rw [List.dropLast_cons_of_ne_nil hrest]
  rfl

end Table

/-! ### The modes of a patch -/

/-- A patch as the search of the modes leaves it: modes of the table, for its own blocks. The
blocks of a patch are inside the block map of its frame. -/
structure PlrPatch.Searched (patch : PlrPatch) (modeCount patchSize : ℕ) (blockToPatch : List ℕ)
    (blockToPatchWidth blockToPatchHeight patchIndex : ℕ) : Prop where
  sizeU0_pos : 0 < patch.sizeU0
  sizeV0_pos : 0 < patch.sizeV0
  blocks_lt : patch.sizeU0 * patch.sizeV0 < 2 ^ 64
  level : patch.pointLocalReconstructionLevel =
    PCCEncoder.pointLocalReconstructionLevel patchSize patch.toPatchPlacement
  length : patch.pointLocalReconstructionModeByBlock.length = patch.sizeU0 * patch.sizeV0
  patchMode : patch.pointLocalReconstructionModeByPatch < modeCount
  blockMode : ∀ mode ∈ patch.pointLocalReconstructionModeByBlock, mode < modeCount
  owner : ∀ u v, u < patch.sizeU0 → v < patch.sizeV0 → ∃ pos owner : ℕ,
    patch.patchBlock2CanvasBlock u v blockToPatchWidth blockToPatchHeight = some (pos : ℤ) ∧
      blockToPatch[pos]? = some owner ∧ (owner ≠ patchIndex + 1 →
        patch.pointLocalReconstructionModeByBlock[v * patch.sizeU0 + u]? = some 0)

/-- A mode whose index has gone through `n` bits. -/
def receivedMode (n mode : ℕ) : ℕ := if 0 < mode then (mode - 1) % 2 ^ n + 1 else 0

/-- The data of a patch whose indices have gone through `n` bits. -/
def plrdOf (patch : PlrPatch) (n : ℕ) : PLRData :=
  if patch.pointLocalReconstructionLevel = 1 then
    { PLRData.allocate patch.sizeU0 patch.sizeV0 with
      levelFlag := true
      presentFlag := decide (0 < patch.pointLocalReconstructionModeByPatch)
      modeMinus1 := (patch.pointLocalReconstructionModeByPatch - 1) % 2 ^ n }
  else
    { PLRData.allocate patch.sizeU0 patch.sizeV0 with
      blockPresentFlag := patch.pointLocalReconstructionModeByBlock.map fun m => decide (0 < m)
      blockModeMinus1 :=
        patch.pointLocalReconstructionModeByBlock.map fun m => (m - 1) % 2 ^ n }

section Data
variable {patch : PlrPatch} {modeCount patchSize : ℕ} {blockToPatch : List ℕ}
  {blockToPatchWidth blockToPatchHeight patchIndex : ℕ}

theorem PlrPatch.Searched.mono (h : patch.Searched modeCount patchSize blockToPatch
    blockToPatchWidth blockToPatchHeight patchIndex) {modeCount' : ℕ} (hle : modeCount ≤ modeCount') :
    patch.Searched modeCount' patchSize blockToPatch blockToPatchWidth blockToPatchHeight
      patchIndex :=
  { h with
    patchMode := h.patchMode.trans_le hle
    blockMode := fun mode hmode => (h.blockMode mode hmode).trans_le hle }

theorem PlrPatch.Searched.level_cases (h : patch.Searched modeCount patchSize blockToPatch
    blockToPatchWidth blockToPatchHeight patchIndex) :
    patch.pointLocalReconstructionLevel = 0 ∨ patch.pointLocalReconstructionLevel = 1 := by
  rw [h.level]
  unfold PCCEncoder.pointLocalReconstructionLevel
  split_ifs
  · exact Or.inr rfl
  · exact Or.inl rfl

/-- Row and column of a block are inside the patch. -/
theorem blockIndex_lt {index w h : ℕ} (hindex : index < w * h) :
    index % w < w ∧ index / w < h := by
  have hw : 0 < w := by
    by_contra hzero
    obtain rfl : w = 0 := by omega
    omega
  exact ⟨Nat.mod_lt _ hw, Nat.div_lt_of_lt_mul hindex⟩

theorem encoder_data (hcount : modeCount ≤ 17) (h : patch.Searched modeCount patchSize
    blockToPatch blockToPatchWidth blockToPatchHeight patchIndex) :
    PCCEncoder.setPLRData patch blockToPatch blockToPatchWidth blockToPatchHeight patchIndex =
      some (plrdOf patch 8) := by
  have hbyte : ∀ m < modeCount, (m - 1) % 2 ^ 8 = m - 1 := by
    intro m hm
    exact Nat.mod_eq_of_lt (by omega)
  have hcoded : ∀ m : ℕ, m < modeCount →
      (if decide (0 < m) then toUInt8 ((m : ℤ) - 1) else 0) = (m - 1) % 2 ^ 8 := by
    intro m hm
    rw [hbyte m hm]
    by_cases hpos : 0 < m
    · rw [if_pos (decide_eq_true hpos), toUInt8_pred hpos (by omega)]
    · rw [if_neg (by simpa using hpos)]
      omega
  unfold PCCEncoder.setPLRData plrdOf
  rcases h.level_cases with hlevel | hlevel
  · have hblocks : (List.range (patch.sizeU0 * patch.sizeV0)).mapM (fun index =>
        PCCEncoder.plrBlock patch blockToPatch blockToPatchWidth blockToPatchHeight patchIndex
          (index % patch.sizeU0) (index / patch.sizeU0)) =
        some (patch.pointLocalReconstructionModeByBlock.map
          fun m => (decide (0 < m), (m - 1) % 2 ^ 8)) := by
      rw [mapM_eq_some_map (g := fun index =>
        let m := (patch.pointLocalReconstructionModeByBlock[index]?).getD 0
        (decide (0 < m), (m - 1) % 2 ^ 8))]
      · congr 1
        apply List.ext_getElem
        · simp [h.length]
        · intro i hi hi'
          rw [List.length_map] at hi'
          simp [hi']
      · intro index hindex
        have hin := List.mem_range.mp hindex
        obtain ⟨hu, hv⟩ := blockIndex_lt hin
        obtain ⟨pos, owner, hpos, howner, hother⟩ := h.owner _ _ hu hv
        have hmodeIndex : index / patch.sizeU0 * patch.sizeU0 + index % patch.sizeU0 = index := by
          rw [Nat.mul_comm]
          exact Nat.div_add_mod index patch.sizeU0
        have hlt : index < patch.pointLocalReconstructionModeByBlock.length := by
          rwa [h.length]
        have hmode := h.blockMode _ (List.getElem_mem hlt)
        unfold PCCEncoder.plrBlock PlrPatch.getPointLocalReconstructionMode
        rw [if_neg (by omega), hmodeIndex, List.getElem?_eq_getElem hlt]
        rw [hmodeIndex, List.getElem?_eq_getElem hlt] at hother
        simp only [hpos, Option.bind_eq_bind, Option.bind_some, Int.toNat_natCast,
          if_pos (Int.natCast_nonneg pos), howner, Option.getD_some]
        generalize patch.pointLocalReconstructionModeByBlock[index] = m at hmode hother
        by_cases hown : owner = patchIndex + 1
        · simp only [hown, true_and]
          rw [hcoded m hmode]
          rfl
        · obtain rfl := Option.some.inj (hother hown)
          simp only [hown, false_and]
          rfl
    rw [if_neg (by omega), if_neg (by omega)]
    simp only [hblocks, Option.bind_eq_bind, Option.bind_some, List.map_map]
    rfl
  · rw [if_pos (by omega), if_pos hlevel]
    simp only [PlrPatch.getPointLocalReconstructionMode, if_pos hlevel, Option.bind_eq_bind,
      Option.bind_some, hcoded _ h.patchMode]
    rfl

/-- The writer cuts the indices down to the bits they have. -/
theorem write_mod {n m : ℕ} (value : ℕ) (hnm : n ≤ m) :
    write (value % 2 ^ m) n = write value n := by
  unfold write
  rw [bitsOfNat_mod hnm]

theorem writer_plrMap {plri : PLRInformation} {n : ℕ} (hbits : plri.bitCountMode = n)
    (hn : n ≤ 8) :
    PCCBitstreamWriter.plrMap (plrdOf patch 8) plri =
      PCCBitstreamWriter.plrMap (plrdOf patch n) plri := by
  have hcut : ∀ value, write (value % 2 ^ 8) n = write (value % 2 ^ n) n := by
    intro value
    rw [write_mod value hn, write_mod value le_rfl]
  unfold PCCBitstreamWriter.plrMap plrdOf PLRInformation.signalsLevel PLRData.blockCount
  rw [hbits]
  by_cases hlevel : patch.pointLocalReconstructionLevel = 1
  · simp only [if_pos hlevel, hcut, Bool.true_eq_false, if_false]
  · simp only [if_neg hlevel]
    congr 1
    have hblock : PCCBitstreamWriter.plrBlock
        { PLRData.allocate patch.sizeU0 patch.sizeV0 with
          blockPresentFlag := patch.pointLocalReconstructionModeByBlock.map fun m => decide (0 < m)
          blockModeMinus1 :=
            patch.pointLocalReconstructionModeByBlock.map fun m => (m - 1) % 2 ^ 8 } n =
        PCCBitstreamWriter.plrBlock
        { PLRData.allocate patch.sizeU0 patch.sizeV0 with
          blockPresentFlag := patch.pointLocalReconstructionModeByBlock.map fun m => decide (0 < m)
          blockModeMinus1 :=
            patch.pointLocalReconstructionModeByBlock.map fun m => (m - 1) % 2 ^ n } n := by
      funext i
      unfold PCCBitstreamWriter.plrBlock
      simp only [List.getElem?_map]
      cases patch.pointLocalReconstructionModeByBlock[i]? with
      | none => rfl
      | some m => simp only [Option.map_some, Writer.ofOption_some, pure_bind, hcut]
    simp only [hblock]

theorem PlrPatch.Searched.allocate (h : patch.Searched modeCount patchSize blockToPatch
    blockToPatchWidth blockToPatchHeight patchIndex) :
    patch.sizeU0 < 2 ^ 64 ∧ patch.sizeV0 < 2 ^ 64 ∧
      PLRData.allocate patch.sizeU0 patch.sizeV0 = {
        blockToPatchMapWidth := patch.sizeU0
        blockToPatchMapHeight := patch.sizeV0
        blockPresentFlag := List.replicate (patch.sizeU0 * patch.sizeV0) false
        blockModeMinus1 := List.replicate (patch.sizeU0 * patch.sizeV0) 0 } := by
  have hu : patch.sizeU0 < 2 ^ 64 :=
    (Nat.le_mul_of_pos_right _ h.sizeV0_pos).trans_lt h.blocks_lt
  have hv : patch.sizeV0 < 2 ^ 64 :=
    (Nat.le_mul_of_pos_left _ h.sizeU0_pos).trans_lt h.blocks_lt
  refine ⟨hu, hv, ?_⟩
  rw [PLRData.allocate_natCast _ _ hu hv, Nat.mod_eq_of_lt h.blocks_lt]

/-- Data with a flag and an index for each block. -/
theorem plrdOf_blocks (h : patch.Searched modeCount patchSize blockToPatch blockToPatchWidth
    blockToPatchHeight patchIndex) (hlevel : patch.pointLocalReconstructionLevel = 0) (n : ℕ) :
    plrdOf patch n = {
      blockToPatchMapWidth := patch.sizeU0
      blockToPatchMapHeight := patch.sizeV0
      blockPresentFlag := patch.pointLocalReconstructionModeByBlock.map fun m => decide (0 < m)
      blockModeMinus1 :=
        patch.pointLocalReconstructionModeByBlock.map fun m => (m - 1) % 2 ^ n } := by
  unfold plrdOf
  rw [if_neg (by omega), h.allocate.2.2]

/-- Data with one flag and one index. -/
theorem plrdOf_patch (h : patch.Searched modeCount patchSize blockToPatch blockToPatchWidth
    blockToPatchHeight patchIndex) (hlevel : patch.pointLocalReconstructionLevel = 1) (n : ℕ) :
    plrdOf patch n = {
      blockToPatchMapWidth := patch.sizeU0
      blockToPatchMapHeight := patch.sizeV0
      levelFlag := true
      presentFlag := decide (0 < patch.pointLocalReconstructionModeByPatch)
      modeMinus1 := (patch.pointLocalReconstructionModeByPatch - 1) % 2 ^ n
      blockPresentFlag := List.replicate (patch.sizeU0 * patch.sizeV0) false
      blockModeMinus1 := List.replicate (patch.sizeU0 * patch.sizeV0) 0 } := by
  unfold plrdOf
  rw [if_pos hlevel, h.allocate.2.2]

/-- The bits of a map take the indices of a patch: there are as many as they have, or none of
its modes has an index. -/
def PlrPatch.FitsBits (patch : PlrPatch) (plri : PLRInformation) (n : ℕ) : Prop :=
  n ≤ 8 ∧ (plri.bitCountMode = n ∨
    (patch.pointLocalReconstructionLevel = 0 →
      ∀ mode ∈ patch.pointLocalReconstructionModeByBlock, mode = 0) ∧
    (patch.pointLocalReconstructionLevel = 1 → patch.pointLocalReconstructionModeByPatch = 0))

/-- An enabled map is coded. -/
theorem not_noMap {plri : PLRInformation} (henabled : plri.mapEnabledFlag = true) {P : Prop}
    (hnone : ∀ p ∈ [plri], p.mapEnabledFlag = false) : P := by
  rw [hnone plri (List.mem_singleton_self plri)] at henabled
  exact absurd henabled Bool.false_ne_true

theorem plrdOf_blocks_coded (h : patch.Searched modeCount patchSize blockToPatch
    blockToPatchWidth blockToPatchHeight patchIndex)
    (hlevel : patch.pointLocalReconstructionLevel = 0) {plri : PLRInformation}
    (hthreshold : plri.blockThresholdPerPatchMinus1 = patchSize - 1) (hpatchSize : 1 ≤ patchSize)
    (henabled : plri.mapEnabledFlag = true) {n : ℕ} (hbits : patch.FitsBits plri n) :
    (plrdOf patch n).Coded [plri] := by
  obtain ⟨hu, hv, -⟩ := h.allocate
  obtain ⟨hn, hbits⟩ := hbits
  have hpow : 2 ^ n ≤ 2 ^ 8 := Nat.pow_le_pow_right (by omega) hn
  have hcut : ∀ m, (m - 1) % 2 ^ n < 2 ^ n := fun m => Nat.mod_lt _ (Nat.two_pow_pos n)
  have hmany : patchSize < patch.sizeU0 * patch.sizeV0 := by
    have hlevelOf := h.level
    unfold PCCEncoder.pointLocalReconstructionLevel at hlevelOf
    rw [hlevel] at hlevelOf
    split_ifs at hlevelOf with hfew
    omega
  have hcount : patch.sizeU0 * patch.sizeV0 % 2 ^ 64 = patch.sizeU0 * patch.sizeV0 :=
    Nat.mod_eq_of_lt h.blocks_lt
  rw [plrdOf_blocks h hlevel]
  constructor
  · exact hu
  · exact hv
  · rw [List.length_map, h.length]
    exact hcount.symm
  · rw [List.length_map, h.length]
    exact hcount.symm
  · exact Nat.two_pow_pos 8
  · intro mode hmode
    obtain ⟨m, -, rfl⟩ := List.mem_map.mp hmode
    exact (hcut m).trans_le hpow
  · exact not_noMap henabled
  · exact fun hlevel' => absurd hlevel' Bool.false_ne_true
  · intro _
    refine ⟨rfl, rfl, fun i hpresent => ?_⟩
    rw [List.getElem?_map] at hpresent ⊢
    obtain ⟨m, hm, hpos⟩ := Option.map_eq_some_iff.mp hpresent
    obtain rfl : m = 0 := by simpa using hpos
    rw [hm]
    simp
  · intro p hp _
    obtain rfl := List.mem_singleton.mp hp
    constructor
    · intro hsignal
      unfold PLRInformation.signalsLevel PLRData.blockCount at hsignal
      rw [hthreshold] at hsignal
      have := of_decide_eq_false hsignal
      rw [hcount] at this
      omega
    · exact fun hpresent => absurd hpresent Bool.false_ne_true
    · intro i mode hpresent hmode
      rw [List.getElem?_map] at hpresent hmode
      obtain ⟨m, hm, hpos⟩ := Option.map_eq_some_iff.mp hpresent
      rw [hm] at hmode
      obtain rfl := Option.some.inj hmode
      rcases hbits with hbits | ⟨hzero, -⟩
      · rw [hbits]
        exact ⟨by omega, hcut m⟩
      · rw [hzero hlevel m (List.mem_of_getElem? hm)] at hpos
        exact absurd hpos (by decide)

theorem plrdOf_patch_coded (h : patch.Searched modeCount patchSize blockToPatch
    blockToPatchWidth blockToPatchHeight patchIndex)
    (hlevel : patch.pointLocalReconstructionLevel = 1) {plri : PLRInformation}
    (henabled : plri.mapEnabledFlag = true) {n : ℕ} (hbits : patch.FitsBits plri n) :
    (plrdOf patch n).Coded [plri] := by
  obtain ⟨hu, hv, -⟩ := h.allocate
  obtain ⟨hn, hbits⟩ := hbits
  have hpow : 2 ^ n ≤ 2 ^ 8 := Nat.pow_le_pow_right (by omega) hn
  have hcut : ∀ m, (m - 1) % 2 ^ n < 2 ^ n := fun m => Nat.mod_lt _ (Nat.two_pow_pos n)
  have hcount : patch.sizeU0 * patch.sizeV0 % 2 ^ 64 = patch.sizeU0 * patch.sizeV0 :=
    Nat.mod_eq_of_lt h.blocks_lt
  rw [plrdOf_patch h hlevel]
  constructor
  · exact hu
  · exact hv
  · rw [List.length_replicate]
    exact hcount.symm
  · rw [List.length_replicate]
    exact hcount.symm
  · exact (hcut _).trans_le hpow
  · intro mode hmode
    rw [List.eq_of_mem_replicate hmode]
    exact Nat.two_pow_pos 8
  · exact not_noMap henabled
  · intro _
    unfold PLRData.blockCount
    rw [hcount]
    refine ⟨fun hpresent => ?_, rfl, rfl⟩
    have : patch.pointLocalReconstructionModeByPatch = 0 := by simpa using hpresent
    simp [this]
  · exact fun hlevel' => absurd hlevel' (by simp)
  · intro p hp _
    obtain rfl := List.mem_singleton.mp hp
    constructor
    · exact fun _ => rfl
    · intro hpresent
      rcases hbits with hbits | ⟨-, hzero⟩
      · rw [hbits]
        exact ⟨by omega, hcut _⟩
      · have : 0 < patch.pointLocalReconstructionModeByPatch := by simpa using hpresent
        have := hzero hlevel
        omega
    · intro i mode hpresent _
      rw [List.getElem?_replicate] at hpresent
      split_ifs at hpresent
      exact absurd (Option.some.inj hpresent) Bool.false_ne_true

end Data

section Received
variable {patch : PlrPatch} {modeCount patchSize : ℕ} {blockToPatch : List ℕ}
  {blockToPatchWidth blockToPatchHeight patchIndex : ℕ}

/-- Every block of the decoder's patch has the received mode of the encoder's block. -/
theorem decoder_data (hcount : modeCount ≤ 17) (h : patch.Searched modeCount patchSize
    blockToPatch blockToPatchWidth blockToPatchHeight patchIndex) (n : ℕ) :
    ∃ patch', PCCDecoder.setPLRData { toPatchPlacement := patch.toPatchPlacement }
        (plrdOf patch n) = some patch' ∧
      ∀ u v, u < patch.sizeU0 → v < patch.sizeV0 →
        patch'.getPointLocalReconstructionMode u v =
          (patch.getPointLocalReconstructionMode u v).map (receivedMode n) := by
  have hmode : ∀ m < modeCount,
      (if decide (0 < m) then toUInt8 (((m - 1) % 2 ^ n : ℕ) + 1) else 0) = receivedMode n m := by
    intro m hm
    unfold receivedMode
    have hle := Nat.mod_le (m - 1) (2 ^ n)
    by_cases hpos : 0 < m
    · rw [if_pos (decide_eq_true hpos), if_pos hpos, toUInt8_succ (by omega)]
    · rw [if_neg (by simpa using hpos), if_neg hpos]
  unfold PCCDecoder.setPLRData
  rcases h.level_cases with hlevel | hlevel
  · rw [plrdOf_blocks h hlevel]
    obtain ⟨patch', hfold, ⟨hzero, hwidth⟩, hentries⟩ := foldlM_set_range
      (f := fun (next : PlrPatch) index => do
        let mode ← PCCDecoder.plrBlockMode (plrdOf patch n) index
        next.setPointLocalReconstructionMode (index % patch.sizeU0) (index / patch.sizeU0) mode)
      (e := PlrPatch.pointLocalReconstructionModeByBlock)
      (P := fun next => next.pointLocalReconstructionLevel = 0 ∧ next.sizeU0 = patch.sizeU0 ∧
        next.pointLocalReconstructionModeByBlock.length = patch.sizeU0 * patch.sizeV0)
      (patch.sizeU0 * patch.sizeV0) (by
        intro next index hinv hindex
        obtain ⟨hnext, hsize, hlength⟩ := hinv
        have hlt : index < patch.pointLocalReconstructionModeByBlock.length := by
          rwa [h.length]
        have hblock : PCCDecoder.plrBlockMode (plrdOf patch n) index =
            some (receivedMode n ((patch.pointLocalReconstructionModeByBlock[index]?).getD 0)) := by
          rw [plrdOf_blocks h hlevel, List.getElem?_eq_getElem hlt, Option.getD_some,
            ← hmode _ (h.blockMode _ (List.getElem_mem hlt))]
          unfold PCCDecoder.plrBlockMode
          simp only [List.getElem?_map, List.getElem?_eq_getElem hlt, Option.map_some,
            Option.bind_eq_bind, Option.bind_some]
          split_ifs <;> rfl
        have hplace : index / patch.sizeU0 * next.sizeU0 + index % patch.sizeU0 = index := by
          rw [hsize, Nat.mul_comm]
          exact Nat.div_add_mod index patch.sizeU0
        rw [hblock]
        simp only [Option.bind_eq_bind, Option.bind_some,
          PlrPatch.setPointLocalReconstructionMode, hnext, hplace]
        rw [if_neg (by omega), if_pos (by omega)]
        exact ⟨_, rfl, ⟨rfl, hsize, by rw [List.length_set, hlength]⟩, rfl⟩)
      { PlrPatch.allocOneLayerData { toPatchPlacement := patch.toPatchPlacement } with
        pointLocalReconstructionLevel := 0 }
      ⟨rfl, rfl, by simp [PlrPatch.allocOneLayerData]⟩ (by simp [PlrPatch.allocOneLayerData])
    refine ⟨patch', ?_, ?_⟩
    · rw [plrdOf_blocks h hlevel] at hfold
      exact hfold
    · intro u v hu hv
      have hindex := pixel_lt hu hv
      have hlt : v * patch.sizeU0 + u < patch.pointLocalReconstructionModeByBlock.length := by
        rwa [h.length]
      unfold PlrPatch.getPointLocalReconstructionMode
      rw [if_neg (by omega), if_neg (by omega), hentries, hwidth.1, List.getElem?_map,
        List.getElem?_range hindex, Option.map_some, List.getElem?_eq_getElem hlt,
        Option.getD_some, Option.map_some]
  · rw [plrdOf_patch h hlevel]
    refine ⟨_, rfl, fun u v hu hv => ?_⟩
    unfold PlrPatch.getPointLocalReconstructionMode
    rw [if_pos hlevel, Option.map_some, ← hmode _ h.patchMode]
    simp

end Received

/-! ### Agreement -/

section Agreement
variable {patch : PlrPatch} {modes table : List PointLocalReconstructionMode}
  {modeCount patchSize plrlNumberOfModes : ℕ} {blockToPatch : List ℕ}
  {blockToPatchWidth blockToPatchHeight patchIndex : ℕ}

/-- A context whose sequence parameter set has the given point local reconstruction tables. -/
def TileContext.withPlr (ctx : TileContext) (plrInformation : List PLRInformation) : TileContext :=
  let plrEnabledFlag := true
  { ctx with asps := { ctx.asps with plrEnabledFlag, plrInformation } }

/-- The table goes through the parameter set, the data of the patch through the tile; then
every block has the parameters that the encoder had for it. -/
def PlrTableAgrees (ctx : TileContext) (table : List PointLocalReconstructionMode)
    (plrlNumberOfModes patchSize : ℕ) (patch : PlrPatch) (blockToPatch : List ℕ)
    (blockToPatchWidth blockToPatchHeight patchIndex : ℕ) : Prop :=
  ∃ plri infos received plrd plrd' patch',
    PCCEncoder.setPointLocalReconstruction table plrlNumberOfModes patchSize = some plri ∧
    RoundTrip (PCCBitstreamWriter.plrInformation (ctx.withPlr [plri]).asps)
      (PCCBitstreamReader.plrInformation ctx.asps.mapCountMinus1) infos ∧
    PCCDecoder.setPointLocalReconstruction (ctx.withPlr infos).asps = some received ∧
    PCCEncoder.setPLRData patch blockToPatch blockToPatchWidth blockToPatchHeight patchIndex =
      some plrd ∧
    RoundTrip (PCCBitstreamWriter.plrData (ctx.withPlr [plri]) plrd)
      (PCCBitstreamReader.plrData (ctx.withPlr infos) patch.sizeU0 patch.sizeV0) plrd' ∧
    PCCDecoder.setPLRData { toPatchPlacement := patch.toPatchPlacement } plrd' = some patch' ∧
    ∀ u v, u < patch.sizeU0 → v < patch.sizeV0 → ∃ mode mode' entry,
      patch.getPointLocalReconstructionMode u v = some mode ∧ table[mode]? = some entry ∧
      patch'.getPointLocalReconstructionMode u v = some mode' ∧ received[mode']? = some entry

/-- The same with the table that the encoder's context gets from the modes of the program. -/
def PlrAgrees (ctx : TileContext) (modes : List PointLocalReconstructionMode)
    (plrlNumberOfModes patchSize : ℕ) (patch : PlrPatch) (blockToPatch : List ℕ)
    (blockToPatchWidth blockToPatchHeight patchIndex : ℕ) : Prop :=
  ∃ table, PCCEncoderParameters.contextModes modes plrlNumberOfModes = some table ∧
    PlrTableAgrees ctx table plrlNumberOfModes patchSize patch blockToPatch blockToPatchWidth
      blockToPatchHeight patchIndex

theorem withPlr_plrMaps {ctx : TileContext} (hmaps : ctx.asps.mapCountMinus1 = 0)
    (plri : PLRInformation) : (ctx.withPlr [plri]).plrMaps = some [plri] := by
  unfold TileContext.plrMaps TileContext.withPlr
  simp [hmaps]

/-- The reader's map differs from the writer's in nothing that the data depend on. -/
theorem plrData_received {ctx : TileContext} (hmaps : ctx.asps.mapCountMinus1 = 0)
    (width height : ℤ) :
    PCCBitstreamReader.plrData (ctx.withPlr [receivedPlri modes patchSize]) width height =
      PCCBitstreamReader.plrData (ctx.withPlr [plriOf modes patchSize]) width height := by
  unfold PCCBitstreamReader.plrData
  rw [withPlr_plrMaps hmaps, withPlr_plrMaps hmaps, Reader.ofOption_some, Reader.ofOption_some,
    pure_bind, pure_bind]
  rfl

theorem patchData_roundTrip {ctx : TileContext} (hmaps : ctx.asps.mapCountMinus1 = 0)
    (hsize : 1 ≤ patchSize) (h : patch.Searched modeCount patchSize blockToPatch
      blockToPatchWidth blockToPatchHeight patchIndex) {n : ℕ}
    (hbits : patch.FitsBits (plriOf modes patchSize) n)
    (hwriter : PCCBitstreamWriter.plrMap (plrdOf patch 8) (plriOf modes patchSize) =
      PCCBitstreamWriter.plrMap (plrdOf patch n) (plriOf modes patchSize)) :
    RoundTrip (PCCBitstreamWriter.plrData (ctx.withPlr [plriOf modes patchSize]) (plrdOf patch 8))
      (PCCBitstreamReader.plrData (ctx.withPlr [receivedPlri modes patchSize]) patch.sizeU0
        patch.sizeV0) (plrdOf patch n) := by
  obtain ⟨hu, hv, -⟩ := h.allocate
  have hcoded : (plrdOf patch n).Coded [plriOf modes patchSize] := by
    rcases h.level_cases with hlevel | hlevel
    · exact plrdOf_blocks_coded h hlevel rfl hsize rfl hbits
    · exact plrdOf_patch_coded h hlevel rfl hbits
  have hdata : PCCBitstreamWriter.plrData (ctx.withPlr [plriOf modes patchSize]) (plrdOf patch 8) =
      PCCBitstreamWriter.plrData (ctx.withPlr [plriOf modes patchSize]) (plrdOf patch n) := by
    unfold PCCBitstreamWriter.plrData
    rw [withPlr_plrMaps hmaps, Writer.ofOption_some, pure_bind, pure_bind]
    simp only [Writer.forEach_cons, Writer.forEach_nil, hwriter]
  have hsizes : (plrdOf patch n).blockToPatchMapWidth = toSizeT patch.sizeU0 ∧
      (plrdOf patch n).blockToPatchMapHeight = toSizeT patch.sizeV0 := by
    rw [toSizeT_of_lt (by omega) (by omega), toSizeT_of_lt (by omega) (by omega)]
    rcases h.level_cases with hlevel | hlevel
    · rw [plrdOf_blocks h hlevel]
      exact ⟨rfl, rfl⟩
    · rw [plrdOf_patch h hlevel]
      exact ⟨rfl, rfl⟩
  rw [plrData_received hmaps, hdata]
  exact plrData_roundTrip (withPlr_plrMaps hmaps _) hcoded hsizes.1 hsizes.2

/-- The bits of an index, where there are two modes or more. -/
theorem bitCountMode_eq (hlow : 3 ≤ modes.length) (hhigh : modes.length ≤ 17) :
    (plriOf modes patchSize).bitCountMode = Nat.clog 2 (modes.length - 2) ∧
      Nat.clog 2 (modes.length - 2) ≤ 4 := by
  have hpos : 0 < modes.length - 2 := by omega
  obtain ⟨n, hn⟩ := Int.eq_ofNat_of_zero_le (ceilLog2_nonneg hpos)
  have hle : ∀ k, n ≤ k ↔ modes.length - 2 ≤ 2 ^ k := by
    intro k
    rw [← ceilLog2_le_iff hpos k, hn]
    exact Int.ofNat_le.symm
  have hclog : Nat.clog 2 (modes.length - 2) = n := by
    apply Nat.le_antisymm
    · exact (Nat.clog_le_iff_le_pow Nat.one_lt_two).mpr ((hle n).mp le_rfl)
    · exact (hle _).mpr (Nat.le_pow_clog Nat.one_lt_two _)
  have hfour : n ≤ 4 := (hle 4).mpr (by omega)
  refine ⟨?_, hclog ▸ hfour⟩
  rw [hclog]
  change toUInt8 (ceilLog2 (modes.length - 2)) = n
  rw [hn]
  unfold toUInt8
  omega

/-- More bits than can be written at once leave no room for an index. -/
theorem zero_of_writer (h : patch.Searched modeCount patchSize blockToPatch blockToPatchWidth
    blockToPatchHeight patchIndex) {plri : PLRInformation} (henabled : plri.mapEnabledFlag = true)
    (hbits : 32 < plri.bitCountMode) {p : Phase} {bs : List Bool}
    (hwrite : PCCBitstreamWriter.plrMap (plrdOf patch 8) plri p = some ((), bs)) :
    (patch.pointLocalReconstructionLevel = 0 →
      ∀ mode ∈ patch.pointLocalReconstructionModeByBlock, mode = 0) ∧
    (patch.pointLocalReconstructionLevel = 1 → patch.pointLocalReconstructionModeByPatch = 0) := by
  have hfail : ∀ value p', V3C.write value plri.bitCountMode p' = none := by
    intro value p'
    unfold V3C.write
    rw [if_neg (by omega)]
    rfl
  unfold PCCBitstreamWriter.plrMap at hwrite
  rw [henabled, Writer.when_true] at hwrite
  obtain ⟨⟨⟩, cs, ds, -, hrest, -⟩ := Writer.bind_run_eq_some.mp hwrite
  constructor
  · intro hlevel mode hmode
    by_contra hne
    rw [plrdOf_blocks h hlevel, if_pos rfl] at hrest
    obtain ⟨i, hi, hget⟩ := List.getElem_of_mem hmode
    have hcount : patch.sizeU0 * patch.sizeV0 % 2 ^ 64 = patch.sizeU0 * patch.sizeV0 :=
      Nat.mod_eq_of_lt h.blocks_lt
    obtain ⟨p', es, hblock⟩ := Writer.exists_of_forEach hrest (x := i) (by
      apply List.mem_range.mpr
      unfold PLRData.blockCount
      rwa [hcount, ← h.length])
    unfold PCCBitstreamWriter.plrBlock at hblock
    simp only [List.getElem?_map, List.getElem?_eq_getElem hi, hget, Option.map_some,
      Writer.ofOption_some, pure_bind, show decide (0 < mode) = true from
        decide_eq_true (Nat.pos_of_ne_zero hne), Writer.when_true] at hblock
    obtain ⟨⟨⟩, fs, gs, -, hindex, -⟩ := Writer.bind_run_eq_some.mp hblock
    rw [hfail] at hindex
    exact absurd hindex (by simp)
  · intro hlevel
    by_contra hne
    rw [plrdOf_patch h hlevel, if_neg (by simp)] at hrest
    obtain ⟨⟨⟩, fs, gs, -, hindex, -⟩ := Writer.bind_run_eq_some.mp hrest
    simp only [show decide (0 < patch.pointLocalReconstructionModeByPatch) = true from
      decide_eq_true (Nat.pos_of_ne_zero hne), Writer.when_true] at hindex
    rw [hfail] at hindex
    exact absurd hindex (by simp)

theorem PlrPatch.Searched.mode (h : patch.Searched modeCount patchSize blockToPatch
    blockToPatchWidth blockToPatchHeight patchIndex) {u v : ℕ} (hu : u < patch.sizeU0)
    (hv : v < patch.sizeV0) :
    ∃ mode < modeCount, patch.getPointLocalReconstructionMode u v = some mode := by
  unfold PlrPatch.getPointLocalReconstructionMode
  rcases h.level_cases with hlevel | hlevel
  · have hindex : v * patch.sizeU0 + u < patch.pointLocalReconstructionModeByBlock.length := by
      rw [h.length]
      exact pixel_lt hu hv
    rw [if_neg (by omega), List.getElem?_eq_getElem hindex]
    exact ⟨_, h.blockMode _ (List.getElem_mem hindex), rfl⟩
  · rw [if_pos hlevel]
    exact ⟨_, h.patchMode, rfl⟩

/-- With bits for the indices of the patch, the reconstructions agree where the table of the
decoder has what the encoder's has. -/
theorem plrTableAgrees_iff_received {ctx : TileContext} (hmaps : ctx.asps.mapCountMinus1 = 0)
    (hin : PCCEncoder.transmittedModes plrlNumberOfModes < table.length)
    (hshort : table.length ≤ 17) (hdefault : table.head? = some ⟨false, false, 0, 1⟩)
    (hcoded : ∀ mode ∈ table, mode.Coded) (hlow : 1 ≤ patchSize) (hhigh : patchSize ≤ 64)
    (h : patch.Searched table.length patchSize blockToPatch blockToPatchWidth blockToPatchHeight
      patchIndex) {n : ℕ}
    (hmodes : modes = table.take (PCCEncoder.transmittedModes plrlNumberOfModes + 1))
    (hbits : patch.FitsBits (plriOf modes patchSize) n)
    (hwriter : PCCBitstreamWriter.plrMap (plrdOf patch 8) (plriOf modes patchSize) =
      PCCBitstreamWriter.plrMap (plrdOf patch n) (plriOf modes patchSize)) :
    PlrTableAgrees ctx table plrlNumberOfModes patchSize patch blockToPatch blockToPatchWidth
        blockToPatchHeight patchIndex ↔
      ∀ u v mode, u < patch.sizeU0 → v < patch.sizeV0 →
        patch.getPointLocalReconstructionMode u v = some mode →
          ∃ entry, table[mode]? = some entry ∧
            (table.take (PCCEncoder.transmittedModes plrlNumberOfModes))[receivedMode n mode]? =
              some entry := by
  have hone : 1 ≤ PCCEncoder.transmittedModes plrlNumberOfModes := Nat.succ_pos _
  have hlength : modes.length = PCCEncoder.transmittedModes plrlNumberOfModes + 1 := by
    rw [hmodes, List.length_take, Nat.min_eq_left hin]
  have hmodesCoded : ∀ mode ∈ modes, mode.Coded := fun mode hmode =>
    hcoded mode (List.mem_of_mem_take (hmodes ▸ hmode))
  have hhead : modes.head? = some ⟨false, false, 0, 1⟩ := by
    rw [hmodes, List.head?_take, if_neg (Nat.succ_ne_zero _)]
    exact hdefault
  have hdrop : modes.dropLast = table.take (PCCEncoder.transmittedModes plrlNumberOfModes) := by
    rw [List.dropLast_eq_take, hlength, hmodes, List.take_take, Nat.add_sub_cancel,
      Nat.min_eq_left (Nat.le_succ _)]
  have htable := encoder_table hin hcoded hlow hhigh
  rw [← hmodes] at htable
  have hplri : (ctx.withPlr [plriOf modes patchSize]).asps.plrInformation =
      [plriOf modes patchSize] := rfl
  have hinfos := plrInformation_roundTrip (by omega) (by omega) hmodesCoded hhigh
    (show (ctx.withPlr [plriOf modes patchSize]).asps.mapCountMinus1 = 0 from hmaps) hplri
  have hplri' : (ctx.withPlr [receivedPlri modes patchSize]).asps.plrInformation =
      [receivedPlri modes patchSize] := rfl
  have hreceived := decoder_table (by omega) hhead hmodesCoded rfl hplri'
  rw [hdrop] at hreceived
  have hdata := encoder_data hshort h
  have hround := patchData_roundTrip hmaps hlow h hbits hwriter
  obtain ⟨patch', hpatch', hreceivedModes⟩ := decoder_data hshort h n
  constructor
  · rintro ⟨plri, infos, received, plrd, plrd', decoded, hplri, hinfos', hreceived', hplrd,
      hround', hdecoded, hagree⟩ u v mode hu hv hmode
    obtain rfl := Option.some.inj (htable.symm.trans hplri)
    obtain rfl := hinfos.unique hinfos'
    obtain rfl := Option.some.inj (hreceived.symm.trans hreceived')
    obtain rfl := Option.some.inj (hdata.symm.trans hplrd)
    obtain rfl := hround.unique hround'
    obtain rfl := Option.some.inj (hpatch'.symm.trans hdecoded)
    obtain ⟨mode₁, mode', entry, hmode₁, hentry, hmode', hentry'⟩ := hagree u v hu hv
    obtain rfl := Option.some.inj (hmode.symm.trans hmode₁)
    rw [hreceivedModes u v hu hv, hmode] at hmode'
    obtain rfl := Option.some.inj hmode'
    exact ⟨entry, hentry, hentry'⟩
  · intro hall
    refine ⟨_, _, _, _, _, patch', htable, hinfos, hreceived, hdata, hround, hpatch', ?_⟩
    intro u v hu hv
    obtain ⟨mode, -, hmode⟩ := h.mode hu hv
    obtain ⟨entry, hentry, hentry'⟩ := hall u v mode hu hv hmode
    refine ⟨mode, receivedMode n mode, entry, hmode, hentry, ?_, hentry'⟩
    rw [hreceivedModes u v hu hv, hmode]
    rfl

/-- The decoder has the parameters of a mode: those of the default one, or those that the table of
the decoder has for the index as its bits bring it. -/
def PlrModeKept (modes : List PointLocalReconstructionMode) (transmitted mode : ℕ) : Prop :=
  mode = 0 ∨ 1 < transmitted ∧
    (mode - 1) % 2 ^ Nat.clog 2 (transmitted - 1) + 1 < transmitted ∧
    modes[(mode - 1) % 2 ^ Nat.clog 2 (transmitted - 1) + 1]? = modes[mode]?

/-- The modes whose indices the bits hold are kept. -/
theorem plrModeKept_of_lt {transmitted mode : ℕ} (h : mode < transmitted) :
    PlrModeKept modes transmitted mode := by
  rcases Nat.eq_zero_or_pos mode with hzero | hpos
  · exact Or.inl hzero
  · have hpow := Nat.le_pow_clog Nat.one_lt_two (transmitted - 1)
    have hmod : (mode - 1) % 2 ^ Nat.clog 2 (transmitted - 1) + 1 = mode := by
      rw [Nat.mod_eq_of_lt (by omega)]
      omega
    refine Or.inr ⟨by omega, ?_, ?_⟩ <;> rw [hmod]
    exact h

/-- What the decoder's table has for a received index. -/
theorem received_entry_iff {transmitted mode : ℕ} (hone : 1 < transmitted)
    (hmode : mode < table.length) :
    (∃ entry, table[mode]? = some entry ∧ (table.take transmitted)[receivedMode
        (Nat.clog 2 (transmitted - 1)) mode]? = some entry) ↔
      PlrModeKept table transmitted mode := by
  unfold PlrModeKept receivedMode
  rcases Nat.eq_zero_or_pos mode with rfl | hpos
  · rw [if_neg (Nat.lt_irrefl 0)]
    refine ⟨fun _ => Or.inl rfl, fun _ => ⟨_, List.getElem?_eq_getElem hmode, ?_⟩⟩
    rw [List.getElem?_take, if_pos (by omega), List.getElem?_eq_getElem hmode]
  · rw [if_pos hpos, List.getElem?_eq_getElem hmode, List.getElem?_take]
    generalize (mode - 1) % 2 ^ Nat.clog 2 (transmitted - 1) + 1 = received
    split_ifs with hlt
    · constructor
      · rintro ⟨entry, hentry, hreceived⟩
        exact Or.inr ⟨hone, hlt, hreceived.trans hentry.symm⟩
      · rintro (hzero | ⟨-, -, hsame⟩)
        · omega
        · exact ⟨_, rfl, hsame⟩
    · constructor
      · rintro ⟨entry, -, hnone⟩
        cases hnone
      · rintro (hzero | ⟨-, hreceived, -⟩)
        · omega
        · exact absurd hreceived hlt

/-- The only mode to transmit has an index without bits, which cannot be written. -/
theorem plrTableAgrees_iff_zero {ctx : TileContext} (hmaps : ctx.asps.mapCountMinus1 = 0)
    (hone : PCCEncoder.transmittedModes plrlNumberOfModes = 1)
    (hin : PCCEncoder.transmittedModes plrlNumberOfModes < table.length)
    (hshort : table.length ≤ 17) (hdefault : table.head? = some ⟨false, false, 0, 1⟩)
    (hcoded : ∀ mode ∈ table, mode.Coded) (hlow : 1 ≤ patchSize) (hhigh : patchSize ≤ 64)
    (h : patch.Searched table.length patchSize blockToPatch blockToPatchWidth blockToPatchHeight
      patchIndex) :
    PlrTableAgrees ctx table plrlNumberOfModes patchSize patch blockToPatch blockToPatchWidth
        blockToPatchHeight patchIndex ↔
      ∀ u v mode, u < patch.sizeU0 → v < patch.sizeV0 →
        patch.getPointLocalReconstructionMode u v = some mode → mode = 0 := by
  obtain ⟨modes, hmodes⟩ : ∃ modes, modes =
    table.take (PCCEncoder.transmittedModes plrlNumberOfModes + 1) := ⟨_, rfl⟩
  have hbits : 32 < (plriOf modes patchSize).bitCountMode := by
    change 32 < toUInt8 (ceilLog2 (modes.length - 2))
    rw [hmodes, List.length_take, Nat.min_eq_left hin, hone]
    decide
  constructor
  · rintro ⟨plri, infos, received, plrd, plrd', decoded, hplri, -, -, hplrd, hround, -⟩
    rw [encoder_table hin hcoded hlow hhigh, ← hmodes] at hplri
    obtain rfl := Option.some.inj hplri
    rw [encoder_data hshort h] at hplrd
    obtain rfl := Option.some.inj hplrd
    obtain ⟨bs, hwrite, -⟩ := hround 0
    unfold PCCBitstreamWriter.plrData at hwrite
    rw [withPlr_plrMaps hmaps, Writer.ofOption_some, pure_bind, Writer.forEach_cons] at hwrite
    obtain ⟨⟨⟩, cs, ds, hmap, -, -⟩ := Writer.bind_run_eq_some.mp hwrite
    obtain ⟨hblocks, hpatch⟩ := zero_of_writer h rfl hbits hmap
    intro u v mode hu hv hmode
    unfold PlrPatch.getPointLocalReconstructionMode at hmode
    rcases h.level_cases with hlevel | hlevel
    · rw [if_neg (by omega)] at hmode
      exact hblocks hlevel mode (List.mem_of_getElem? hmode)
    · rw [if_pos hlevel] at hmode
      rw [← Option.some.inj hmode]
      exact hpatch hlevel
  · intro hzero
    have hfits : patch.FitsBits (plriOf modes patchSize) 8 := by
      refine ⟨le_rfl, Or.inr ⟨fun hlevel mode hmode => ?_, fun hlevel => ?_⟩⟩
      · obtain ⟨i, hi, hget⟩ := List.getElem_of_mem hmode
        have hblock : i < patch.sizeU0 * patch.sizeV0 := by rwa [← h.length]
        obtain ⟨hu, hv⟩ := blockIndex_lt hblock
        apply hzero _ _ mode hu hv
        unfold PlrPatch.getPointLocalReconstructionMode
        rw [if_neg (by omega), Nat.mul_comm, Nat.div_add_mod, List.getElem?_eq_getElem hi, hget]
      · apply hzero 0 0 _ h.sizeU0_pos h.sizeV0_pos
        unfold PlrPatch.getPointLocalReconstructionMode
        rw [if_pos hlevel]
    rw [plrTableAgrees_iff_received hmaps hin hshort hdefault hcoded hlow hhigh h hmodes hfits rfl]
    intro u v mode hu hv hmode
    obtain rfl := hzero u v mode hu hv hmode
    refine ⟨⟨false, false, 0, 1⟩, ?_, ?_⟩
    · rwa [← List.head?_eq_getElem?]
    · change (table.take (PCCEncoder.transmittedModes plrlNumberOfModes))[0]? = _
      rw [List.getElem?_take, if_pos (by omega), ← List.head?_eq_getElem?]
      exact hdefault

/-- The blocks of a searched patch have modes of the table only. -/
theorem PlrPatch.Searched.forall_congr (h : patch.Searched modeCount patchSize blockToPatch
    blockToPatchWidth blockToPatchHeight patchIndex) {P Q : ℕ → Prop}
    (hPQ : ∀ mode < modeCount, P mode ↔ Q mode) :
    (∀ u v mode, u < patch.sizeU0 → v < patch.sizeV0 →
      patch.getPointLocalReconstructionMode u v = some mode → P mode) ↔
    ∀ u v mode, u < patch.sizeU0 → v < patch.sizeV0 →
      patch.getPointLocalReconstructionMode u v = some mode → Q mode := by
  refine forall₃_congr fun u v mode => forall₃_congr fun hu hv hmode => hPQ mode ?_
  obtain ⟨mode', hlt, hmode'⟩ := h.mode hu hv
  rwa [Option.some.inj (hmode.symm.trans hmode')]

/-- The reconstructions agree with a table of the encoder if and only if its loop reads no mode
past the end of it and the decoder has the parameters of every mode of the patch. -/
theorem plrTableAgrees_iff {ctx : TileContext} (hmaps : ctx.asps.mapCountMinus1 = 0)
    (hshort : table.length ≤ 17) (hdefault : table.head? = some ⟨false, false, 0, 1⟩)
    (hcoded : ∀ mode ∈ table, mode.Coded) (hlow : 1 ≤ patchSize) (hhigh : patchSize ≤ 64)
    (h : patch.Searched table.length patchSize blockToPatch blockToPatchWidth blockToPatchHeight
      patchIndex) :
    PlrTableAgrees ctx table plrlNumberOfModes patchSize patch blockToPatch blockToPatchWidth
        blockToPatchHeight patchIndex ↔
      PCCEncoder.transmittedModes plrlNumberOfModes < table.length ∧
        ∀ u v mode, u < patch.sizeU0 → v < patch.sizeV0 →
          patch.getPointLocalReconstructionMode u v = some mode →
            PlrModeKept table (PCCEncoder.transmittedModes plrlNumberOfModes) mode := by
  rcases Nat.lt_or_ge (PCCEncoder.transmittedModes plrlNumberOfModes) table.length with hin | hout
  · rw [and_iff_right hin]
    have hpos : 1 ≤ PCCEncoder.transmittedModes plrlNumberOfModes := Nat.succ_pos _
    rcases hpos.eq_or_lt with hone | hmany
    · rw [plrTableAgrees_iff_zero hmaps hone.symm hin hshort hdefault hcoded hlow hhigh h]
      apply h.forall_congr
      intro mode _
      refine ⟨Or.inl, fun hkept => ?_⟩
      rcases hkept with hzero | ⟨hlt, -⟩
      · exact hzero
      · omega
    · obtain ⟨modes, hmodes⟩ : ∃ modes, modes =
        table.take (PCCEncoder.transmittedModes plrlNumberOfModes + 1) := ⟨_, rfl⟩
      have hlength : modes.length = PCCEncoder.transmittedModes plrlNumberOfModes + 1 := by
        rw [hmodes, List.length_take, Nat.min_eq_left hin]
      have hcount : modes.length - 2 = PCCEncoder.transmittedModes plrlNumberOfModes - 1 := by
        omega
      obtain ⟨hbits, hfour⟩ : (plriOf modes patchSize).bitCountMode =
          Nat.clog 2 (modes.length - 2) ∧ Nat.clog 2 (modes.length - 2) ≤ 4 :=
        bitCountMode_eq (by omega) (by omega)
      rw [plrTableAgrees_iff_received hmaps hin hshort hdefault hcoded hlow hhigh h hmodes
        ⟨by omega, Or.inl hbits⟩ (writer_plrMap hbits (by omega)), hcount]
      exact h.forall_congr fun mode hmode => received_entry_iff hmany hmode
  · constructor
    · rintro ⟨plri, -, -, -, -, -, hplri, -⟩
      rw [encoder_table_eq_none hout] at hplri
      cases hplri
    · rintro ⟨hin, -⟩
      omega

end Agreement

/-- The modes of a context are the first ones of the program. -/
theorem contextModes_eq {modes : List PointLocalReconstructionMode} (hne : modes ≠ [])
    (plrlNumberOfModes : ℕ) :
    PCCEncoderParameters.contextModes modes plrlNumberOfModes =
        some (modes.take (PCCEncoderParameters.numPlrm modes plrlNumberOfModes)) ∧
      (modes.take (PCCEncoderParameters.numPlrm modes plrlNumberOfModes)).length =
        PCCEncoderParameters.numPlrm modes plrlNumberOfModes := by
  have hpos := List.length_pos_iff.mpr hne
  have hle : PCCEncoderParameters.numPlrm modes plrlNumberOfModes ≤ modes.length := by
    unfold PCCEncoderParameters.numPlrm
    omega
  refine ⟨?_, by rw [List.length_take, Nat.min_eq_left hle]⟩
  unfold PCCEncoderParameters.contextModes
  rw [mapM_eq_some_map (g := fun i => modes[i]?.getD ⟨false, false, 0, 1⟩)]
  · congr 1
    apply List.ext_getElem
    · rw [List.length_map, List.length_range, List.length_take, Nat.min_eq_left hle]
    · intro i hi _
      rw [List.length_map, List.length_range] at hi
      have hlt : i < modes.length := by omega
      simp [hlt]
  · intro i hi
    have hlt : i < modes.length := by
      have := List.mem_range.mp hi
      omega
    simp [hlt]

theorem plrModeKept_take_iff {modes : List PointLocalReconstructionMode}
    {count transmitted mode : ℕ} (hin : transmitted < count) (hmode : mode < count) :
    PlrModeKept (modes.take count) transmitted mode ↔ PlrModeKept modes transmitted mode := by
  unfold PlrModeKept
  refine or_congr_right (and_congr_right fun _ => and_congr_right fun hreceived => ?_)
  rw [List.getElem?_take, List.getElem?_take, if_pos (hreceived.trans hin), if_pos hmode]

/-- The modes of a patch are the ones that its encoder has reconstructed with if and only if the
loop over the transmitted modes ends before the table of the encoder does, and the decoder has the
parameters of every mode of the patch. -/
theorem plrAgrees_iff {ctx : TileContext} {modes : List PointLocalReconstructionMode} {N : ℕ}
    {patchSize : ℕ} {patch : PlrPatch} {blockToPatch : List ℕ}
    {blockToPatchWidth blockToPatchHeight patchIndex : ℕ}
    (hmaps : ctx.asps.mapCountMinus1 = 0) (hlength : modes.length ≤ 17)
    (hdefault : modes.head? = some ⟨false, false, 0, 1⟩) (hcoded : ∀ mode ∈ modes, mode.Coded)
    (hlow : 1 ≤ patchSize) (hhigh : patchSize ≤ 64)
    (h : patch.Searched (PCCEncoderParameters.numPlrm modes N) patchSize blockToPatch
      blockToPatchWidth blockToPatchHeight patchIndex) :
    PlrAgrees ctx modes N patchSize patch blockToPatch blockToPatchWidth blockToPatchHeight
        patchIndex ↔
      PCCEncoder.transmittedModes N < PCCEncoderParameters.numPlrm modes N ∧
        ∀ u v mode, u < patch.sizeU0 → v < patch.sizeV0 →
          patch.getPointLocalReconstructionMode u v = some mode →
            PlrModeKept modes (PCCEncoder.transmittedModes N) mode := by
  have hne : modes ≠ [] := by
    rintro rfl
    cases hdefault
  obtain ⟨htable, hcount⟩ := contextModes_eq hne N
  have hhead : (modes.take (PCCEncoderParameters.numPlrm modes N)).head? =
      some ⟨false, false, 0, 1⟩ := by
    have hpos : PCCEncoderParameters.numPlrm modes N ≠ 0 := by
      unfold PCCEncoderParameters.numPlrm
      omega
    rw [List.head?_take, if_neg hpos]
    exact hdefault
  have hshort : (modes.take (PCCEncoderParameters.numPlrm modes N)).length ≤ 17 := by
    rw [List.length_take]
    omega
  have hiff : PlrTableAgrees ctx (modes.take (PCCEncoderParameters.numPlrm modes N)) N patchSize
      patch blockToPatch blockToPatchWidth blockToPatchHeight patchIndex ↔ _ :=
    plrTableAgrees_iff hmaps hshort hhead
      (fun mode hmode => hcoded mode (List.mem_of_mem_take hmode)) hlow hhigh (hcount.symm ▸ h)
  rw [hcount] at hiff
  unfold PlrAgrees
  rw [htable]
  simp only [Option.some.injEq, exists_eq_left']
  rw [hiff]
  refine and_congr_right fun hin => h.forall_congr fun mode hmode => ?_
  exact plrModeKept_take_iff hin hmode

/-- A patch of a single block, with a mode of its own. -/
def oneBlockPatch (mode : ℕ) : PlrPatch where
  sizeU0 := 1
  sizeV0 := 1
  pointLocalReconstructionLevel := 1
  pointLocalReconstructionModeByPatch := mode
  pointLocalReconstructionModeByBlock := [0]

theorem oneBlockPatch_searched {modeCount mode : ℕ} (h : mode < modeCount) :
    (oneBlockPatch mode).Searched modeCount 9 [1] 1 1 0 := by
  constructor
  · exact Nat.one_pos
  · exact Nat.one_pos
  · change 1 * 1 < 2 ^ 64
    decide
  · rfl
  · rfl
  · exact h
  · intro m hm
    rw [List.mem_singleton.mp hm]
    exact Nat.zero_lt_of_lt h
  · intro u v hu hv
    obtain rfl : u = 0 := Nat.lt_one_iff.mp hu
    obtain rfl : v = 0 := Nat.lt_one_iff.mp hv
    exact ⟨0, 1, rfl, rfl, fun hother => absurd rfl hother⟩

/-- Of 262 modes that are asked for, ten are there and six have a place in eight bits: the loop
ends inside of the table. -/
theorem plrAgrees_fifth_mode :
    PlrAgrees ⟨{}, {}, {}⟩ PCCEncoderParameters.g_pointLocalReconstructionMode 262 9
      (oneBlockPatch 5) [1] 1 1 0 := by
  apply (plrAgrees_iff rfl (by decide) rfl (by decide) (by decide) (by decide)
    (oneBlockPatch_searched (by decide))).mpr
  refine ⟨by decide, fun u v mode _ _ hmode => plrModeKept_of_lt ?_⟩
  obtain rfl := Option.some.inj hmode
  decide

/-- With the six modes of the default configuration the loop reads a seventh one. -/
theorem not_plrAgrees_default :
    (oneBlockPatch 5).Searched (PCCEncoderParameters.numPlrm
        PCCEncoderParameters.g_pointLocalReconstructionMode 6) 9 [1] 1 1 0 ∧
      ¬PlrAgrees ⟨{}, {}, {}⟩ PCCEncoderParameters.g_pointLocalReconstructionMode 6 9
        (oneBlockPatch 5) [1] 1 1 0 := by
  refine ⟨oneBlockPatch_searched (by decide), ?_⟩
  rintro ⟨table, htable, plri, -, -, -, -, -, hplri, -⟩
  obtain rfl := Option.some.inj
    ((contextModes_eq (List.cons_ne_nil _ _) 6).1.symm.trans htable)
  rw [encoder_table_eq_none (by decide)] at hplri
  cases hplri

/-- Were there any mode behind the table, the decoder would have the parameters of all modes that
the search can choose: the mode that is read too many is not among those that are sent. -/
theorem plrTableAgrees_of_behind {ctx : TileContext} {modes : List PointLocalReconstructionMode}
    {N patchSize : ℕ} {patch : PlrPatch} {blockToPatch : List ℕ}
    {blockToPatchWidth blockToPatchHeight patchIndex : ℕ}
    (hmaps : ctx.asps.mapCountMinus1 = 0) (hN : 1 ≤ N) (hlength : N ≤ modes.length)
    (hshort : N ≤ 16) (hdefault : modes.head? = some ⟨false, false, 0, 1⟩)
    (hcoded : ∀ mode ∈ modes, mode.Coded) (hlow : 1 ≤ patchSize) (hhigh : patchSize ≤ 64)
    (behind : PointLocalReconstructionMode) (hbehind : behind.Coded)
    (h : patch.Searched (PCCEncoderParameters.numPlrm modes N) patchSize blockToPatch
      blockToPatchWidth blockToPatchHeight patchIndex) :
    PlrTableAgrees ctx (modes.take N ++ [behind]) N patchSize patch blockToPatch
      blockToPatchWidth blockToPatchHeight patchIndex := by
  have hcount : PCCEncoderParameters.numPlrm modes N = N := by
    unfold PCCEncoderParameters.numPlrm
    omega
  have htransmitted : PCCEncoder.transmittedModes N = N := by
    unfold PCCEncoder.transmittedModes
    rw [toUInt8_pred hN (by omega)]
    omega
  have htable : (modes.take N ++ [behind]).length = N + 1 := by
    rw [List.length_append, List.length_take, Nat.min_eq_left hlength, List.length_singleton]
  have hhead : (modes.take N ++ [behind]).head? = some ⟨false, false, 0, 1⟩ := by
    have hne : N ≠ 0 := by omega
    rw [List.head?_append, List.head?_take, if_neg hne, hdefault]
    rfl
  rw [hcount] at h
  rw [plrTableAgrees_iff hmaps (by omega) hhead ?_ hlow hhigh (htable ▸ h.mono (Nat.le_succ N)),
    htransmitted, htable]
  · refine ⟨Nat.lt_succ_self N, fun u v mode hu hv hmode => plrModeKept_of_lt ?_⟩
    obtain ⟨mode', hlt, hmode'⟩ := h.mode hu hv
    rwa [Option.some.inj (hmode.symm.trans hmode')]
  · intro mode hmode
    rcases List.mem_append.mp hmode with hmem | hmem
    · exact hcoded mode (List.mem_of_mem_take hmem)
    · rw [List.mem_singleton.mp hmem]
      exact hbehind

end V3C

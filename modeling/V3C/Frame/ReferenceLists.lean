import V3C.Codec.Traverse
import V3C.Syntax.HighLevelSyntax

/-! The reference frame lists of a tile: what the encoder puts in the parameter sets and
in the tile header, and what the decoder derives from them. -/
namespace V3C
open Codec

structure PCCFrameContext where
  frameIndex : ℕ
  refAFOCList : List ℤ := []
  numRefIdxActive : ℕ := 0
  bestRefListIndexInAsps : ℕ := 0

structure PCCEncoderParameters where
  maxNumRefAtlasFrame : ℕ
  maxNumRefAtlasList : ℕ
  constrainedPack : Bool

namespace PCCEncoderParameters

/-- `initializeContext`: every list refers to the frames 1, 2, 3, … before the current one. -/
def refAtlasFrameList (params : PCCEncoderParameters) : List (List ℤ) :=
  List.replicate params.maxNumRefAtlasList
    ((List.range params.maxNumRefAtlasFrame).map fun i => toInt32 (i + 1))

/-- The difference of entry `i` to the entry before it, as it is stored. -/
def refListEntry (refs : List ℤ) (i : ℕ) : Option RefListEntry := do
  let afocDiff ← if i = 0 then refs[i]? else do subInt (← refs[i]?) (← refs[i - 1]?)
  pure {
    absDeltaAfocSt := afocDiff.natAbs % 256
    strafEntrySignFlag := !decide (afocDiff < 0)
    stRefAtlasFrameFlag := true }

/-- `constructAspsRefListStruct`, with the number of entries stored in eight bits. -/
def constructAspsRefListStruct (params : PCCEncoderParameters) : Option (List RefListStruct) :=
  params.refAtlasFrameList.mapM fun refs => do
    let entries ← (List.range (params.maxNumRefAtlasFrame % 256)).mapM (refListEntry refs)
    pure { entries := entries }

def numRefIdxDefaultActiveMinus1 (params : PCCEncoderParameters) : ℕ :=
  if params.constrainedPack then toUInt8 (max 0 (toInt32 params.maxNumRefAtlasFrame - 1)) else 0

/-- The parameter sets an encoder starts with, as far as reference lists are concerned. -/
def initializeContext (params : PCCEncoderParameters) : Option PCCAtlasHighLevelSyntax := do
  let refLists ← params.constructAspsRefListStruct
  pure {
    refAtlasFrameList := params.refAtlasFrameList
    maxNumRefAtlasFrame := params.maxNumRefAtlasFrame
    atlasSequenceParameterSet := [{
      numRefAtlasFrameListsInAsps := params.maxNumRefAtlasList % 256
      refListStruct := refLists }]
    atlasFrameParameterSet := [{
      numRefIdxDefaultActiveMinus1 := params.numRefIdxDefaultActiveMinus1 }] }

end PCCEncoderParameters

namespace PCCFrameContext

/-- The encoder's `setRefAfocList`. -/
def setRefAfocListOfContext (tile : PCCFrameContext) (context : PCCAtlasHighLevelSyntax)
    (refListIdx : ℕ) : Option PCCFrameContext := do
  let maxRefNum ← context.getSizeOfRefAtlasFrameList refListIdx
  let refPOCs ← (List.range maxRefNum).mapM fun j => do
    subInt (toInt32 tile.frameIndex) (← context.getRefAtlasFrame refListIdx j)
  pure { tile with refAFOCList := refPOCs.filter (0 ≤ ·) }

/-- What the delta of entry `idx` is taken from. -/
def previousRefPOC (frameIndex idx : ℕ) (refAFOCList : List ℤ) : Option ℤ :=
  if idx = 0 then some (toInt32 frameIndex) else refAFOCList[idx - 1]?

/-- The loop of the decoder's `setRefAfocList` from entry `idx` on. -/
def setRefAfocListLoop (frameIndex : ℕ) :
    List RefListEntry → ℕ → List ℤ → Option (List ℤ)
  | [], _, refAFOCList => some refAFOCList
  | entry :: entries, idx, refAFOCList => do
    let deltaAfocSt : ℤ :=
      if entry.stRefAtlasFrameFlag then
        (2 * entry.strafEntrySignFlag.toNat - 1) * entry.absDeltaAfocSt
      else 0
    let refPOC ← subInt (← previousRefPOC frameIndex idx refAFOCList) deltaAfocSt
    setRefAfocListLoop frameIndex entries (idx + 1)
      (if 0 ≤ refPOC then refAFOCList ++ [refPOC] else refAFOCList)

/-- The decoder's `setRefAfocList`. -/
def setRefAfocListOfHeader (tile : PCCFrameContext) (context : PCCAtlasHighLevelSyntax)
    (ath : AtlasTileHeader) : Option PCCFrameContext := do
  let afps ← context.getAtlasFrameParameterSet ath.atlasFrameParameterSetId
  let asps ← context.getAtlasSequenceParameterSet afps.atlasSequenceParameterSetId
  let refList ← PCCAtlasHighLevelSyntax.getRefList asps ath
  let refAFOCList ← setRefAfocListLoop tile.frameIndex refList.entries 0 []
  pure { tile with refAFOCList := refAFOCList }

/-- `constructAtghRefListStruct`. The flag it sets first rules out an explicit list. -/
def constructAtghRefListStruct (tile : PCCFrameContext) (context : PCCAtlasHighLevelSyntax)
    (ath : AtlasTileHeader) : Option AtlasTileHeader := do
  let afps ← context.getAtlasFrameParameterSet ath.atlasFrameParameterSetId
  let ath := { ath with
    refAtlasFrameListSpsFlag := true
    refAtlasFrameListIdx := tile.bestRefListIndexInAsps % 256 }
  if 0 < tile.numRefIdxActive then
    let overrideFlag :=
      if afps.numRefIdxDefaultActiveMinus1 ≤ tile.refAFOCList.length then
        decide (tile.numRefIdxActive ≠ afps.numRefIdxDefaultActiveMinus1 + 1)
      else decide (tile.numRefIdxActive ≠ context.maxNumRefAtlasFrame)
    pure { ath with
      numRefIdxActiveOverrideFlag := overrideFlag
      numRefIdxActiveMinus1 :=
        if overrideFlag then (tile.numRefIdxActive - 1) % 256 else ath.numRefIdxActiveMinus1 }
  else
    pure ath

end PCCFrameContext

/-- The tile of frame `f` before its list is derived. -/
def encoderTile (params : PCCEncoderParameters) (f list : ℕ) : PCCFrameContext where
  frameIndex := f
  numRefIdxActive :=
    if f = 0 then 0 else if params.constrainedPack then min f params.maxNumRefAtlasFrame else 0
  bestRefListIndexInAsps := list

/-- Encoder and decoder derive one list for the P tile of frame `f`, and past the first
frame its header gives back the number of active references. -/
def ReferenceListsAgree (params : PCCEncoderParameters) (f list : ℕ) : Prop :=
  ∃ context tile ath tile',
    params.initializeContext = some context ∧
    (encoderTile params f list).setRefAfocListOfContext context list = some tile ∧
    tile.constructAtghRefListStruct context { type := .pTile } = some ath ∧
    PCCFrameContext.setRefAfocListOfHeader { frameIndex := f } context ath = some tile' ∧
    tile'.refAFOCList = tile.refAFOCList ∧
    (f ≠ 0 → context.getNumRefIdxActive ath = some tile.numRefIdxActive)

/-- Enough earlier frames for every entry but the last, a count of entries that fits in
eight bits or is not reached, and no overflow of `int`. -/
structure ReferenceListsFit (params : PCCEncoderParameters) (f : ℕ) : Prop where
  entries_le : ((params.maxNumRefAtlasFrame % 256 : ℕ) : ℤ) ≤ max (toInt32 f) 0 + 1
  entries_eq : min ((params.maxNumRefAtlasFrame % 256 : ℕ) : ℤ) (max (toInt32 f) 0) =
    min (params.maxNumRefAtlasFrame : ℤ) (max (toInt32 f) 0)
  list_lt : params.maxNumRefAtlasFrame < 2 ^ 31
  no_overflow : -2 ^ 31 ≤ toInt32 f - params.maxNumRefAtlasFrame
  active : f ≠ 0 → if params.constrainedPack then min f params.maxNumRefAtlasFrame < 256
    else params.maxNumRefAtlasFrame % 256 = 0

/-- The frames `F - 1, F - 2, …`, `m` of them. -/
def framesBefore (F : ℤ) (m : ℕ) : List ℤ := (List.range m).map fun j => F - (j + 1 : ℕ)

theorem framesBefore_succ (F : ℤ) (m : ℕ) :
    framesBefore F (m + 1) = framesBefore F m ++ [F - (m + 1 : ℕ)] := by
  simp [framesBefore, List.range_succ]

theorem framesBefore_getElem? (F : ℤ) {m i : ℕ} (h : i < m) :
    (framesBefore F m)[i]? = some (F - (i + 1 : ℕ)) := by
  simp [framesBefore, h]

namespace PCCEncoderParameters

/-- The entry that refers one frame further back than the entry before it. -/
def unitEntry : RefListEntry where
  absDeltaAfocSt := 1
  strafEntrySignFlag := true
  stRefAtlasFrameFlag := true

theorem refListEntry_eq {maxRef i : ℕ} (hi : i < maxRef) (hi' : i < 2 ^ 31 - 1) :
    refListEntry ((List.range maxRef).map fun i => toInt32 (i + 1)) i = some unitEntry := by
  have hget (k : ℕ) (hk : k ≤ i) :
      ((List.range maxRef).map fun i => toInt32 (i + 1))[k]? = some ((k + 1 : ℕ) : ℤ) := by
    rw [List.getElem?_map, List.getElem?_range (by omega), Option.map_some,
      toInt32_of_lt (by omega)]
  unfold refListEntry
  by_cases h0 : i = 0
  · subst h0
    simp [hget 0 le_rfl, unitEntry]
  · have hsub : subInt ((i + 1 : ℕ) : ℤ) ((i - 1 + 1 : ℕ) : ℤ) = some 1 := by
      rw [subInt_eq_some (by omega) (by omega)]
      congr 1
      omega
    simp only [if_neg h0, hget i le_rfl, hget (i - 1) (by omega), Option.bind_eq_bind,
      Option.bind_some, hsub]
    rfl

/-- Every list of the parameter set goes back one frame at each entry. -/
theorem constructAspsRefListStruct_eq (params : PCCEncoderParameters) :
    params.constructAspsRefListStruct = some (List.replicate params.maxNumRefAtlasList
      { entries := List.replicate (params.maxNumRefAtlasFrame % 256) unitEntry }) := by
  unfold constructAspsRefListStruct refAtlasFrameList
  rw [mapM_eq_some_map (g := fun _ =>
    { entries := List.replicate (params.maxNumRefAtlasFrame % 256) unitEntry })]
  · simp
  · intro refs hrefs
    obtain ⟨-, rfl⟩ := List.mem_replicate.mp hrefs
    rw [mapM_eq_some_map (g := fun _ => unitEntry)]
    · simp
    · intro i hi
      have := List.mem_range.mp hi
      exact refListEntry_eq (by omega) (by omega)

end PCCEncoderParameters

theorem framesBefore_filter (F : ℤ) (m : ℕ) :
    (framesBefore F m).filter (0 ≤ ·) = framesBefore F (min m (max F 0).toNat) := by
  induction m with
  | zero => simp [framesBefore]
  | succ m ih =>
    rw [framesBefore_succ, List.filter_append, ih]
    by_cases h : 0 ≤ F - (m + 1 : ℕ)
    · rw [show min (m + 1) (max F 0).toNat = min m (max F 0).toNat + 1 by omega,
        framesBefore_succ, List.filter_cons_of_pos (by simpa using h), List.filter_nil]
      congr 4
      omega
    · rw [show min (m + 1) (max F 0).toNat = min m (max F 0).toNat by omega,
        List.filter_cons_of_neg (by simpa using h), List.filter_nil, List.append_nil]

theorem framesBefore_length (F : ℤ) (m : ℕ) : (framesBefore F m).length = m := by
  simp [framesBefore]

namespace PCCFrameContext
open PCCEncoderParameters

/-- The body of the encoder's loop over the list `1, 2, 3, …`. -/
def encoderRefPOCs (maxRef f : ℕ) : Option (List ℤ) :=
  (List.range maxRef).mapM fun j => subInt (toInt32 f) (toInt32 (j + 1))

theorem encoderRefPOCs_eq_some {maxRef f : ℕ} (hlist : maxRef < 2 ^ 31)
    (hover : -2 ^ 31 ≤ toInt32 f - maxRef) :
    encoderRefPOCs maxRef f = some (framesBefore (toInt32 f) maxRef) := by
  have hf := toInt32_mem f
  refine mapM_eq_some_map fun j hj => ?_
  have hj := List.mem_range.mp hj
  rw [toInt32_of_lt (n := j + 1) (by omega), subInt_eq_some (by omega) (by omega)]

theorem exists_toInt32_wrap : ∃ j : ℕ, j < 2 ^ 31 ∧ toInt32 (j + 1) = -2 ^ 31 :=
  ⟨2147483647, by norm_num, by decide⟩

/-- Where the encoder's loop overflows `int`, it has no outcome; past 2 ^ 31 entries it may
wrap to a frame that has not been coded. -/
theorem encoderRefPOCs_overflow {maxRef f : ℕ} {refPOCs : List ℤ}
    (h : encoderRefPOCs maxRef f = some refPOCs)
    (hover : ¬ (maxRef < 2 ^ 31 ∧ -2 ^ 31 ≤ toInt32 f - maxRef)) :
    toInt32 f < 0 ∧ refPOCs.filter (0 ≤ ·) ≠ [] := by
  have hf := toInt32_mem f
  have hstuck (j : ℕ) (hj : j < maxRef) : subInt (toInt32 f) (toInt32 (j + 1)) ≠ none := by
    intro hnone
    have hall := mapM_eq_none_of_mem (f := fun j => subInt (toInt32 f) (toInt32 (j + 1)))
      (List.mem_range.mpr hj) hnone
    exact Option.some_ne_none refPOCs (h.symm.trans hall)
  rcases lt_or_ge maxRef (2 ^ 31) with hlist | hlist
  · obtain ⟨j, rfl⟩ : ∃ j, maxRef = j + 1 := ⟨maxRef - 1, by omega⟩
    refine absurd ?_ (hstuck j (by omega))
    rw [toInt32_of_lt (n := j + 1) (by omega), subInt, if_neg (by omega)]
  · obtain ⟨j, hj, hwrap⟩ := exists_toInt32_wrap
    rcases lt_or_ge (toInt32 f) 0 with hneg | hpos
    · have hsome : subInt (toInt32 f) (toInt32 (j + 1)) = some (toInt32 f + 2 ^ 31) := by
        rw [hwrap, subInt_eq_some (by omega) (by omega), sub_neg_eq_add]
      have hin := mem_of_mapM_eq_some h (List.mem_range.mpr (by omega)) hsome
      refine ⟨hneg, fun hnil => ?_⟩
      have := List.filter_eq_nil_iff.mp hnil _ hin
      simp only [decide_eq_true_eq] at this
      omega
    · refine absurd ?_ (hstuck j (by omega))
      rw [hwrap, subInt, if_neg (by omega)]

private theorem setRefAfocListLoop_step' {f k idx : ℕ} {refAFOCList : List ℤ} {previous : ℤ}
    (hprev : previousRefPOC f idx refAFOCList = some previous) :
    setRefAfocListLoop f (List.replicate (k + 1) unitEntry) idx refAFOCList =
      (subInt previous 1).bind fun refPOC =>
        setRefAfocListLoop f (List.replicate k unitEntry) (idx + 1)
          (if 0 ≤ refPOC then refAFOCList ++ [refPOC] else refAFOCList) := by
  have hdelta : (2 * (unitEntry.strafEntrySignFlag.toNat : ℤ) - 1) * unitEntry.absDeltaAfocSt = 1 :=
    rfl
  have hflag : unitEntry.stRefAtlasFrameFlag = true := rfl
  rw [List.replicate_succ, setRefAfocListLoop]
  simp only [hflag, if_true, hdelta, Option.bind_eq_bind, hprev, Option.bind_some]

/-- One iteration of the decoder's loop, where the entry before it is there. -/
theorem setRefAfocListLoop_step {f k idx : ℕ} {refAFOCList : List ℤ} {previous : ℤ}
    (hprev : previousRefPOC f idx refAFOCList = some previous)
    (hlow : -2 ^ 31 < previous) (hhigh : previous < 2 ^ 31) :
    setRefAfocListLoop f (List.replicate (k + 1) unitEntry) idx refAFOCList =
      setRefAfocListLoop f (List.replicate k unitEntry) (idx + 1)
        (if 0 ≤ previous - 1 then refAFOCList ++ [previous - 1] else refAFOCList) := by
  rw [setRefAfocListLoop_step' hprev, subInt_eq_some (by omega) (by omega), Option.bind_some]

/-- An iteration whose entry before it was dropped. -/
theorem setRefAfocListLoop_stuck {f k idx : ℕ} {refAFOCList : List ℤ} (hidx : idx ≠ 0)
    (hout : refAFOCList.length < idx) :
    setRefAfocListLoop f (List.replicate (k + 1) unitEntry) idx refAFOCList = none := by
  rw [List.replicate_succ, setRefAfocListLoop]
  rw [previousRefPOC, if_neg hidx, List.getElem?_eq_none (by omega)]
  rfl

/-- While an earlier frame is left the loop pushes it; the first entry without one is
dropped, and the entry after that reads past the end of the list. -/
theorem setRefAfocListLoop_unit {f k idx : ℕ} (hF : (idx : ℤ) ≤ toInt32 f) :
    setRefAfocListLoop f (List.replicate k unitEntry) idx (framesBefore (toInt32 f) idx) =
      if ((idx + k : ℕ) : ℤ) ≤ toInt32 f + 1 then
        some (framesBefore (toInt32 f) (min (idx + k) (toInt32 f).toNat))
      else none := by
  have hf := toInt32_mem f
  induction k generalizing idx with
  | zero =>
    rw [if_pos (by omega), show min (idx + 0) (toInt32 f).toNat = idx by omega]
    rfl
  | succ k ih =>
    have hprev : previousRefPOC f idx (framesBefore (toInt32 f) idx) = some (toInt32 f - idx) := by
      unfold previousRefPOC
      split_ifs with h0
      · simp [h0]
      · rw [framesBefore_getElem? _ (by omega)]
        congr 2
        omega
    rw [setRefAfocListLoop_step hprev (by omega) (by omega),
      show toInt32 f - idx - 1 = toInt32 f - (idx + 1 : ℕ) by omega]
    rcases lt_or_eq_of_le hF with hlt | heq
    · rw [if_pos (by omega), ← framesBefore_succ, ih (by omega),
        show idx + 1 + k = idx + (k + 1) by omega]
    · rw [if_neg (by omega)]
      cases k with
      | zero =>
        rw [if_pos (by omega), show min (idx + (0 + 1)) (toInt32 f).toNat = idx by omega]
        rfl
      | succ k =>
        rw [if_neg (by omega)]
        exact setRefAfocListLoop_stuck (by omega) (by rw [framesBefore_length]; omega)

theorem setRefAfocListLoop_unit_zero {f : ℕ} (n : ℕ) (hF : 0 ≤ toInt32 f) :
    setRefAfocListLoop f (List.replicate n unitEntry) 0 [] =
      if (n : ℤ) ≤ toInt32 f + 1 then
        some (framesBefore (toInt32 f) (min n (toInt32 f).toNat))
      else none := by
  have hunit : setRefAfocListLoop f (List.replicate n unitEntry) 0
      (framesBefore (toInt32 f) 0) = _ := setRefAfocListLoop_unit hF
  rw [Nat.zero_add] at hunit
  exact hunit

/-- Before the first frame nothing is pushed. -/
theorem setRefAfocListLoop_negative {f n : ℕ} {refAFOCList : List ℤ} (hF : toInt32 f < 0)
    (h : setRefAfocListLoop f (List.replicate n unitEntry) 0 [] = some refAFOCList) :
    n ≤ 1 ∧ refAFOCList = [] := by
  have hf := toInt32_mem f
  have hprev : previousRefPOC f 0 [] = some (toInt32 f) := rfl
  cases n with
  | zero => exact ⟨by omega, (Option.some.inj h).symm⟩
  | succ k =>
    rcases lt_or_ge (-2 ^ 31) (toInt32 f) with hlow | hlow
    · rw [setRefAfocListLoop_step hprev hlow hf.2, if_neg (by omega)] at h
      cases k with
      | zero =>
        rw [List.replicate_zero, setRefAfocListLoop] at h
        exact ⟨le_rfl, (Option.some.inj h).symm⟩
      | succ k =>
        rw [setRefAfocListLoop_stuck (by omega) (by simp)] at h
        simp at h
    · rw [setRefAfocListLoop_step' hprev, subInt_eq_none (by omega)] at h
      simp at h

theorem setRefAfocListLoop_negative_of_le {f n : ℕ} (hF : toInt32 f < 0) (hn : n ≤ 1)
    (hlow : -2 ^ 31 ≤ toInt32 f - n) :
    setRefAfocListLoop f (List.replicate n unitEntry) 0 [] = some [] := by
  have hf := toInt32_mem f
  have hprev : previousRefPOC f 0 [] = some (toInt32 f) := rfl
  cases n with
  | zero => rfl
  | succ k =>
    obtain rfl : k = 0 := by omega
    rw [setRefAfocListLoop_step hprev (by omega) hf.2, if_neg (by omega)]
    rfl

end PCCFrameContext

end V3C

import V3C.Frame.ReferenceLists

/-! When the decoder's reference frame list is the encoder's, and the tile header gives
back the number of active references. -/
namespace V3C
open Codec PCCFrameContext PCCEncoderParameters

/-- The context `initializeContext` sets up. -/
def PCCEncoderParameters.context (params : PCCEncoderParameters) : PCCAtlasHighLevelSyntax where
  refAtlasFrameList := params.refAtlasFrameList
  maxNumRefAtlasFrame := params.maxNumRefAtlasFrame
  atlasSequenceParameterSet := [{
    numRefAtlasFrameListsInAsps := params.maxNumRefAtlasList % 256
    refListStruct := List.replicate params.maxNumRefAtlasList
      { entries := List.replicate (params.maxNumRefAtlasFrame % 256) unitEntry } }]
  atlasFrameParameterSet := [{
    numRefIdxDefaultActiveMinus1 := params.numRefIdxDefaultActiveMinus1 }]

theorem initializeContext_eq (params : PCCEncoderParameters) :
    params.initializeContext = some params.context := by
  rw [initializeContext, constructAspsRefListStruct_eq]
  rfl

theorem setRefAfocListOfContext_eq {params : PCCEncoderParameters} {f list : ℕ}
    (hlist : list < params.maxNumRefAtlasList) :
    (encoderTile params f list).setRefAfocListOfContext params.context list =
      (encoderRefPOCs params.maxNumRefAtlasFrame f).map fun refPOCs =>
        { encoderTile params f list with refAFOCList := refPOCs.filter (0 ≤ ·) } := by
  have hget : params.context.refAtlasFrameList[list]? =
      some ((List.range params.maxNumRefAtlasFrame).map fun i => toInt32 (i + 1)) := by
    change (List.replicate _ _)[list]? = _
    rw [List.getElem?_replicate, if_pos hlist]
  have hsize : params.context.getSizeOfRefAtlasFrameList list =
      some params.maxNumRefAtlasFrame := by
    rw [PCCAtlasHighLevelSyntax.getSizeOfRefAtlasFrameList, hget]
    simp
  have hbody : ∀ j ∈ List.range params.maxNumRefAtlasFrame,
      (params.context.getRefAtlasFrame list j).bind (subInt (toInt32 f)) =
        subInt (toInt32 f) (toInt32 (j + 1)) := by
    intro j hj
    rw [PCCAtlasHighLevelSyntax.getRefAtlasFrame, hget, Option.bind_some, List.getElem?_map,
      List.getElem?_range (List.mem_range.mp hj), Option.map_some, Option.bind_some]
  simp only [setRefAfocListOfContext, hsize, Option.bind_eq_bind, Option.bind_some]
  change (List.mapM (fun j => (params.context.getRefAtlasFrame list j).bind
    (subInt (toInt32 f))) (List.range params.maxNumRefAtlasFrame)).bind _ = _
  rw [mapM_congr_of_mem hbody]
  exact Option.map_eq_bind.symm

/-- Whether the header of a tile with a list of `size` frames overrides the default. -/
def OverridesDefault (params : PCCEncoderParameters) (numRefIdxActive size : ℕ) : Prop :=
  0 < numRefIdxActive ∧
    if params.numRefIdxDefaultActiveMinus1 ≤ size then
      numRefIdxActive ≠ params.numRefIdxDefaultActiveMinus1 + 1
    else numRefIdxActive ≠ params.maxNumRefAtlasFrame

instance (params : PCCEncoderParameters) (numRefIdxActive size : ℕ) :
    Decidable (OverridesDefault params numRefIdxActive size) := by
  unfold OverridesDefault
  infer_instance

/-- The number of active references that a header gives back. -/
def activeOfHeader (params : PCCEncoderParameters) (numRefIdxActive size : ℕ) : ℕ :=
  if OverridesDefault params numRefIdxActive size then (numRefIdxActive - 1) % 256 + 1
  else min (params.maxNumRefAtlasFrame % 256) (params.numRefIdxDefaultActiveMinus1 + 1)

def tileHeader (params : PCCEncoderParameters) (numRefIdxActive size list : ℕ) :
    AtlasTileHeader where
  type := .pTile
  refAtlasFrameListSpsFlag := true
  refAtlasFrameListIdx := list % 256
  numRefIdxActiveOverrideFlag := decide (OverridesDefault params numRefIdxActive size)
  numRefIdxActiveMinus1 :=
    if OverridesDefault params numRefIdxActive size then (numRefIdxActive - 1) % 256 else 0

theorem constructAtghRefListStruct_eq (params : PCCEncoderParameters) (f list : ℕ)
    (refAFOCList : List ℤ) :
    constructAtghRefListStruct { encoderTile params f list with refAFOCList := refAFOCList }
        params.context { type := .pTile } =
      some (tileHeader params (encoderTile params f list).numRefIdxActive refAFOCList.length
        list) := by
  have hafps : params.context.getAtlasFrameParameterSet 0 =
      some { numRefIdxDefaultActiveMinus1 := params.numRefIdxDefaultActiveMinus1 } := rfl
  simp only [constructAtghRefListStruct, hafps, Option.bind_eq_bind, Option.bind_some,
    tileHeader, OverridesDefault]
  by_cases hactive : 0 < (encoderTile params f list).numRefIdxActive
  · by_cases hsize : params.numRefIdxDefaultActiveMinus1 ≤ refAFOCList.length
    · simp only [hactive, hsize, if_true, true_and, decide_eq_true_eq]
      rfl
    · simp only [hactive, hsize, if_true, if_false, true_and, decide_eq_true_eq]
      rfl
  · simp only [hactive, if_false, false_and, decide_false]
    rfl

theorem getRefList_tileHeader {params : PCCEncoderParameters} {list : ℕ}
    (hlist : list < params.maxNumRefAtlasList) (numRefIdxActive size : ℕ) :
    PCCAtlasHighLevelSyntax.getRefList
        { numRefAtlasFrameListsInAsps := params.maxNumRefAtlasList % 256
          refListStruct := List.replicate params.maxNumRefAtlasList
            { entries := List.replicate (params.maxNumRefAtlasFrame % 256) unitEntry } }
        (tileHeader params numRefIdxActive size list) =
      some { entries := List.replicate (params.maxNumRefAtlasFrame % 256) unitEntry } := by
  have hmod : list % 256 < params.maxNumRefAtlasList := lt_of_le_of_lt (Nat.mod_le _ _) hlist
  change (List.replicate _ _)[list % 256]? = _
  rw [List.getElem?_replicate, if_pos hmod]

theorem setRefAfocListOfHeader_tileHeader {params : PCCEncoderParameters} {list : ℕ}
    (hlist : list < params.maxNumRefAtlasList) (numRefIdxActive size f : ℕ) :
    (setRefAfocListOfHeader { frameIndex := f } params.context
        (tileHeader params numRefIdxActive size list)).map (·.refAFOCList) =
      setRefAfocListLoop f
        (List.replicate (params.maxNumRefAtlasFrame % 256) unitEntry) 0 [] := by
  change Option.map _ ((PCCAtlasHighLevelSyntax.getRefList _ _).bind _) = _
  rw [getRefList_tileHeader hlist]
  change Option.map _ ((setRefAfocListLoop f _ 0 []).bind _) = _
  cases setRefAfocListLoop f
    (List.replicate (params.maxNumRefAtlasFrame % 256) unitEntry) 0 [] <;> rfl

theorem getNumRefIdxActive_tileHeader {params : PCCEncoderParameters} {list : ℕ}
    (hlist : list < params.maxNumRefAtlasList) (numRefIdxActive size : ℕ) :
    params.context.getNumRefIdxActive (tileHeader params numRefIdxActive size list) =
      some (activeOfHeader params numRefIdxActive size) := by
  have hrefs := getRefList_tileHeader hlist numRefIdxActive size
  have hafps : params.context.getAtlasFrameParameterSet 0 =
      some { numRefIdxDefaultActiveMinus1 := params.numRefIdxDefaultActiveMinus1 } := rfl
  have hasps : params.context.getAtlasSequenceParameterSet 0 =
      some { numRefAtlasFrameListsInAsps := params.maxNumRefAtlasList % 256
             refListStruct := List.replicate params.maxNumRefAtlasList
              { entries := List.replicate (params.maxNumRefAtlasFrame % 256) unitEntry } } := rfl
  have hid : (tileHeader params numRefIdxActive size list).atlasFrameParameterSetId = 0 := rfl
  have htype : (tileHeader params numRefIdxActive size list).type = .pTile := rfl
  have hflag : (tileHeader params numRefIdxActive size list).numRefIdxActiveOverrideFlag =
      decide (OverridesDefault params numRefIdxActive size) := rfl
  have hminus1 : (tileHeader params numRefIdxActive size list).numRefIdxActiveMinus1 =
      if OverridesDefault params numRefIdxActive size then (numRefIdxActive - 1) % 256 else 0 := rfl
  unfold PCCAtlasHighLevelSyntax.getNumRefIdxActive activeOfHeader
  simp only [hid, hafps, hasps, htype, hrefs, hflag, hminus1, Option.bind_eq_bind,
    Option.bind_some, true_or, if_true, RefListStruct.numRefEntries, List.length_replicate,
    decide_eq_true_eq]
  split_ifs <;> rfl

private theorem activeCount_eq_iff {f maxRef size default : ℕ} {F : ℤ} (hf : f ≠ 0)
    (hframe : f < 2 ^ 31 → F = f) (hsize : (size : ℤ) = min (maxRef : ℤ) (max F 0))
    (hle : ((maxRef % 256 : ℕ) : ℤ) ≤ max F 0 + 1)
    (heq : min ((maxRef % 256 : ℕ) : ℤ) (max F 0) = min (maxRef : ℤ) (max F 0))
    (hlt : maxRef < 2 ^ 31) (hdefault : default = (maxRef - 1) % 256) :
    (if 0 < min f maxRef ∧
        (if default ≤ size then min f maxRef ≠ default + 1 else min f maxRef ≠ maxRef) then
      (min f maxRef - 1) % 256 + 1 else min (maxRef % 256) (default + 1)) = min f maxRef ↔
      min f maxRef < 256 := by
  rcases lt_or_ge maxRef 256 with hsmall | hlarge
  · -- the count of entries is stored as it is
    have hmin : min f maxRef ≤ maxRef := Nat.min_le_right f maxRef
    split_ifs <;> omega
  · -- the count is cut to eight bits, so the frames before this one are the whole list
    have hF : max F 0 ≤ (maxRef % 256 : ℕ) := by omega
    rcases lt_or_ge f maxRef with hless | hmore
    · have : F = f := hframe (by omega)
      rw [Nat.min_eq_left hless.le]
      split_ifs <;> omega
    · rw [Nat.min_eq_right hmore]
      split_ifs <;> omega

/-- For a P tile past the first frame, the header gives back the tile's active references
exactly when their number fits in eight bits, provided the lists agree. -/
theorem activeOfHeader_eq_iff {params : PCCEncoderParameters} {f size : ℕ} (hf : f ≠ 0)
    (list : ℕ)
    (hsize : (size : ℤ) = min (params.maxNumRefAtlasFrame : ℤ) (max (toInt32 f) 0))
    (hle : ((params.maxNumRefAtlasFrame % 256 : ℕ) : ℤ) ≤ max (toInt32 f) 0 + 1)
    (heq : min ((params.maxNumRefAtlasFrame % 256 : ℕ) : ℤ) (max (toInt32 f) 0) =
      min (params.maxNumRefAtlasFrame : ℤ) (max (toInt32 f) 0))
    (hlt : params.maxNumRefAtlasFrame < 2 ^ 31) :
    activeOfHeader params (encoderTile params f list).numRefIdxActive size =
        (encoderTile params f list).numRefIdxActive ↔
      if params.constrainedPack then min f params.maxNumRefAtlasFrame < 256
      else params.maxNumRefAtlasFrame % 256 = 0 := by
  have hactive : (encoderTile params f list).numRefIdxActive =
      if params.constrainedPack then min f params.maxNumRefAtlasFrame else 0 := if_neg hf
  unfold activeOfHeader OverridesDefault PCCEncoderParameters.numRefIdxDefaultActiveMinus1
  rw [hactive]
  by_cases hpack : params.constrainedPack = true
  · simp only [hpack, if_true]
    refine activeCount_eq_iff hf toInt32_of_lt hsize hle heq hlt ?_
    rw [toInt32_of_lt hlt, toUInt8]
    omega
  · simp only [hpack, Bool.false_eq_true, if_false, lt_self_iff_false, false_and]
    omega

/-- The lists of encoder and decoder, in terms of the two loops. -/
theorem referenceListsAgree_iff_loops {params : PCCEncoderParameters} {f list : ℕ}
    (hlist : list < params.maxNumRefAtlasList) :
    ReferenceListsAgree params f list ↔
      ∃ refPOCs, encoderRefPOCs params.maxNumRefAtlasFrame f = some refPOCs ∧
        setRefAfocListLoop f (List.replicate (params.maxNumRefAtlasFrame % 256) unitEntry) 0 [] =
          some (refPOCs.filter (0 ≤ ·)) ∧
        (f ≠ 0 → activeOfHeader params (encoderTile params f list).numRefIdxActive
          (refPOCs.filter (0 ≤ ·)).length = (encoderTile params f list).numRefIdxActive) := by
  constructor
  · rintro ⟨context, tile, ath, tile', hcontext, htile, hath, htile', hrefs, hactive⟩
    rw [initializeContext_eq] at hcontext
    obtain rfl := Option.some.inj hcontext
    rw [setRefAfocListOfContext_eq hlist] at htile
    obtain ⟨refPOCs, hloop, rfl⟩ := Option.map_eq_some_iff.mp htile
    rw [constructAtghRefListStruct_eq] at hath
    obtain rfl := Option.some.inj hath
    refine ⟨refPOCs, hloop, ?_, fun hf => ?_⟩
    · rw [← setRefAfocListOfHeader_tileHeader hlist, htile', Option.map_some, hrefs]
    · have := hactive hf
      rw [getNumRefIdxActive_tileHeader hlist] at this
      exact Option.some.inj this
  · rintro ⟨refPOCs, hloop, hdecoder, hactive⟩
    rw [← setRefAfocListOfHeader_tileHeader hlist
      (encoderTile params f list).numRefIdxActive (refPOCs.filter (0 ≤ ·)).length] at hdecoder
    obtain ⟨tile', htile', hrefs⟩ := Option.map_eq_some_iff.mp hdecoder
    refine ⟨params.context, { encoderTile params f list with refAFOCList := refPOCs.filter (0 ≤ ·) },
      _, tile', initializeContext_eq params, ?_, constructAtghRefListStruct_eq params f list _,
      htile', hrefs, fun hf => ?_⟩
    · rw [setRefAfocListOfContext_eq hlist, hloop, Option.map_some]
    · rw [getNumRefIdxActive_tileHeader hlist, hactive hf]

/-- What the decoder's loop gives at all, it gives with enough earlier frames. -/
theorem setRefAfocListLoop_eq_some {f n : ℕ} {refAFOCList : List ℤ}
    (h : setRefAfocListLoop f (List.replicate n unitEntry) 0 [] = some refAFOCList) :
    (n : ℤ) ≤ max (toInt32 f) 0 + 1 ∧
      refAFOCList = framesBefore (toInt32 f) (min n (max (toInt32 f) 0).toNat) := by
  rcases lt_or_ge (toInt32 f) 0 with hneg | hpos
  · obtain ⟨hn, rfl⟩ := setRefAfocListLoop_negative hneg h
    rw [max_eq_right hneg.le]
    exact ⟨by omega, by simp [framesBefore]⟩
  · rw [setRefAfocListLoop_unit_zero n hpos] at h
    split_ifs at h with hn
    · rw [max_eq_left hpos]
      exact ⟨hn, (Option.some.inj h).symm⟩

theorem setRefAfocListLoop_of_le {f n : ℕ} (hn : (n : ℤ) ≤ max (toInt32 f) 0 + 1)
    (hlow : -2 ^ 31 ≤ toInt32 f - n) :
    setRefAfocListLoop f (List.replicate n unitEntry) 0 [] =
      some (framesBefore (toInt32 f) (min n (max (toInt32 f) 0).toNat)) := by
  rcases lt_or_ge (toInt32 f) 0 with hneg | hpos
  · rw [max_eq_right hneg.le] at hn ⊢
    rw [setRefAfocListLoop_negative_of_le hneg (by omega) hlow]
    simp [framesBefore]
  · rw [max_eq_left hpos] at hn ⊢
    rw [setRefAfocListLoop_unit_zero n hpos, if_pos hn]

private theorem cast_min_toNat (m : ℕ) (F : ℤ) :
    ((min m (max F 0).toNat : ℕ) : ℤ) = min (m : ℤ) (max F 0) := by
  omega

private theorem min_toNat_eq_iff {m n : ℕ} {F : ℤ} :
    min n (max F 0).toNat = min m (max F 0).toNat ↔
      min (n : ℤ) (max F 0) = min (m : ℤ) (max F 0) := by
  omega

/-- Lists that agree meet the conditions on the number of references. -/
theorem ReferenceListsAgree.fit {params : PCCEncoderParameters} {f list : ℕ}
    (hlist : list < params.maxNumRefAtlasList) (h : ReferenceListsAgree params f list) :
    ReferenceListsFit params f := by
  obtain ⟨refPOCs, hencoder, hdecoder, hactive⟩ := (referenceListsAgree_iff_loops hlist).mp h
  obtain ⟨hle, hrefs⟩ := setRefAfocListLoop_eq_some hdecoder
  have hrange : params.maxNumRefAtlasFrame < 2 ^ 31 ∧
      -2 ^ 31 ≤ toInt32 f - params.maxNumRefAtlasFrame := by
    by_contra hover
    obtain ⟨hneg, hne⟩ := encoderRefPOCs_overflow hencoder hover
    rw [hrefs, max_eq_right hneg.le] at hne
    simp [framesBefore] at hne
  rw [encoderRefPOCs_eq_some hrange.1 hrange.2] at hencoder
  obtain rfl := Option.some.inj hencoder
  rw [framesBefore_filter] at hrefs hactive
  have hlength := congrArg List.length hrefs
  rw [framesBefore_length, framesBefore_length] at hlength
  have heq : min ((params.maxNumRefAtlasFrame % 256 : ℕ) : ℤ) (max (toInt32 f) 0) =
      min (params.maxNumRefAtlasFrame : ℤ) (max (toInt32 f) 0) :=
    min_toNat_eq_iff.mp hlength.symm
  refine ⟨hle, heq, hrange.1, hrange.2, fun hf => ?_⟩
  have := hactive hf
  rw [framesBefore_length] at this
  exact (activeOfHeader_eq_iff hf list (cast_min_toNat _ _) hle heq hrange.1).mp this

/-- The reference frame lists agree exactly when the number of references fits. -/
theorem referenceListsAgree_iff_fit (params : PCCEncoderParameters) (f list : ℕ)
    (hlist : list < params.maxNumRefAtlasList) :
    ReferenceListsAgree params f list ↔ ReferenceListsFit params f := by
  constructor
  · exact ReferenceListsAgree.fit hlist
  · intro h
    have heq := h.entries_eq
    refine (referenceListsAgree_iff_loops hlist).mpr
      ⟨_, encoderRefPOCs_eq_some h.list_lt h.no_overflow, ?_, fun hf => ?_⟩
    · have hmod : ((params.maxNumRefAtlasFrame % 256 : ℕ) : ℤ) ≤ params.maxNumRefAtlasFrame :=
        Int.ofNat_le.mpr (Nat.mod_le _ _)
      rw [framesBefore_filter, min_toNat_eq_iff.mpr heq.symm]
      exact setRefAfocListLoop_of_le h.entries_le (h.no_overflow.trans (by linarith))
    · rw [framesBefore_filter, framesBefore_length]
      exact (activeOfHeader_eq_iff hf list (cast_min_toNat _ _) h.entries_le heq h.list_lt).mpr
        (h.active hf)

/-- Eight reference frames from the twentieth frame on. -/
theorem referenceListsAgree_twenty : ReferenceListsAgree ⟨8, 1, true⟩ 20 0 := by
  apply (referenceListsAgree_iff_fit ⟨8, 1, true⟩ 20 0 (by decide)).mpr
  constructor <;> decide

/-- With three references, the second frame has one frame before it: the third entry is
taken from an entry that was not pushed. -/
theorem not_referenceListsAgree_second_frame : ¬ ReferenceListsAgree ⟨3, 1, true⟩ 1 0 := by
  intro h
  have hle := (h.fit (by decide)).entries_le
  rw [toInt32_of_lt (by decide)] at hle
  exact absurd hle (by decide)

/-- In the ranges an encoder is used in, what counts is that at most one entry has no
frame to refer to. -/
theorem ReferenceListsFit.iff_le {params : PCCEncoderParameters} {f : ℕ} (hf : f < 2 ^ 31)
    (hmax : params.maxNumRefAtlasFrame < 256) (hpack : params.constrainedPack = true) :
    ReferenceListsFit params f ↔ params.maxNumRefAtlasFrame ≤ f + 1 := by
  have hframe := toInt32_of_lt hf
  constructor
  · intro h
    have := h.entries_le
    omega
  · intro h
    refine ⟨by omega, by omega, by omega, by omega, fun _ => ?_⟩
    rw [if_pos hpack]
    omega

end V3C

import V3C.Patch.MergePatch

/-! When a merge or skip patch is its reference with the signalled overrides. -/
namespace V3C

/-- Equal up to the sizes in pixels, which are set only where a quantizer is present. -/
def PCCPatch.SameGeometry (patch other : PCCPatch) : Prop :=
  { patch with size2DXInPixel := 0, size2DYInPixel := 0, sizeDPixel := 0 } =
    { other with size2DXInPixel := 0, size2DYInPixel := 0, sizeDPixel := 0 }

namespace PCCDecoder

variable {asps : AtlasSequenceParameterSetRbsp} {locals : PatchLocals}

/-- A copy of the reference patch to which the signalled overrides are applied. -/
def expectedMergePatch (asps : AtlasSequenceParameterSetRbsp) (locals : PatchLocals)
    (mpdu : MergePatchDataUnit) (refPatch : PCCPatch) (bestMatchIdx : Int32) : Option PCCPatch := do
  let max3DCoordinate ← shiftSizeT (asps.geometry3dBitdepthMinus1 + 1)
  applyOverrides asps locals max3DCoordinate mpdu refPatch
    { refPatch with bestMatchIdx := bestMatchIdx, refAtlasFrameIdx := .ofInt mpdu.refIndex }

/-- The members that are not overridden are those of a new patch, and the depth that is does not
depend on the projection mode. -/
def OverridesComplete (asps : AtlasSequenceParameterSetRbsp) (locals : PatchLocals)
    (mpdu : MergePatchDataUnit) (refPatch : PCCPatch) : Prop :=
  (mpdu.override2dParamsFlag = false →
    refPatch.u0 = 0 ∧ refPatch.v0 = 0 ∧ refPatch.sizeU0 = 0 ∧ refPatch.sizeV0 = 0) ∧
  if mpdu.override2dParamsFlag = false ∧ mpdu.override3dParamsFlag = true then
    ∀ max3DCoordinate, shiftSizeT (asps.geometry3dBitdepthMinus1 + 1) = some max3DCoordinate →
      mergeDepth locals max3DCoordinate mpdu refPatch 0 =
        mergeDepth locals max3DCoordinate mpdu refPatch refPatch.projectionMode
  else refPatch.u1 = 0 ∧ refPatch.v1 = 0 ∧ refPatch.d1 = 0 ∧ refPatch.sizeD = 0

theorem copyProjection_eq {refPatch : PCCPatch} (hview : refPatch.HasView) (patch : PCCPatch) :
    copyProjection refPatch patch = some { patch with
      projectionMode := refPatch.projectionMode
      viewId := refPatch.viewId
      patchOrientation := refPatch.patchOrientation
      normalAxis := refPatch.normalAxis
      tangentAxis := refPatch.tangentAxis
      bitangentAxis := refPatch.bitangentAxis
      axisOfAdditionalPlane := refPatch.axisOfAdditionalPlane
      levelOfDetailX := refPatch.levelOfDetailX
      levelOfDetailY := refPatch.levelOfDetailY } := by
  unfold copyProjection
  rw [PCCPatch.setViewId_of_hasView hview]
  rfl

theorem skipPatch_sameGeometry {refPatch : PCCPatch} (hview : refPatch.HasView)
    (bestMatchIdx : Int32) :
    ∃ patch, skipPatch asps refPatch bestMatchIdx = some patch ∧
      patch.SameGeometry { refPatch with bestMatchIdx := bestMatchIdx, refAtlasFrameIdx := 0 } := by
  unfold skipPatch
  dsimp only
  rw [PCCPatch.setViewId_of_hasView hview]
  exact ⟨_, rfl, rfl⟩

/-- The members that the overrides leave are those of the new patch, not of the reference. -/
theorem mergePatch_sameGeometry_iff {mpdu : MergePatchDataUnit} {refPatch expected : PCCPatch}
    {bestMatchIdx : Int32} (hview : refPatch.HasView)
    (hexpected : expectedMergePatch asps locals mpdu refPatch bestMatchIdx = some expected) :
    ∃ patch, mergePatch asps locals mpdu refPatch bestMatchIdx = some patch ∧
      (patch.SameGeometry expected ↔ OverridesComplete asps locals mpdu refPatch) := by
  obtain ⟨max3DCoordinate, hmax, happly⟩ := Option.bind_eq_some_iff.mp hexpected
  unfold mergePatch OverridesComplete
  rw [hmax, Option.bind_eq_bind, Option.bind_some]
  unfold applyOverrides at happly ⊢
  cases h2d : mpdu.override2dParamsFlag with
  | true =>
    rw [if_pos h2d] at happly
    unfold override2d at happly ⊢
    obtain ⟨sizeX, hsizeX, happly⟩ := Option.bind_eq_some_iff.mp happly
    obtain ⟨sizeY, hsizeY, happly⟩ := Option.bind_eq_some_iff.mp happly
    obtain rfl := Option.some.inj happly
    simp only [if_true, hsizeX, hsizeY, Option.bind_eq_bind, Option.bind_some, Option.pure_def,
      copyProjection_eq hview]
    refine ⟨_, rfl, ?_⟩
    simp [PCCPatch.SameGeometry, PCCPatch.mk.injEq, eq_comm (a := (0 : UInt64))]
  | false =>
    rw [if_neg (by simp [h2d])] at happly
    cases h3d : mpdu.override3dParamsFlag with
    | true =>
      rw [if_pos h3d] at happly
      obtain rfl := Option.some.inj happly
      simp only [Bool.false_eq_true, if_false, if_true, Option.bind_eq_bind, Option.bind_some,
        copyProjection_eq hview]
      refine ⟨_, rfl, ?_⟩
      simp [PCCPatch.SameGeometry, PCCPatch.mk.injEq, eq_comm (a := (0 : UInt64)), override3d]
      tauto
    | false =>
      rw [if_neg (by simp [h3d])] at happly
      obtain rfl := Option.some.inj happly
      simp only [Bool.false_eq_true, if_false, Option.bind_eq_bind, Option.bind_some,
        copyProjection_eq hview]
      refine ⟨_, rfl, ?_⟩
      simp [PCCPatch.SameGeometry, PCCPatch.mk.injEq, eq_comm (a := (0 : UInt64))]
      tauto

/-! Every patch of the decoder has the axes of its view, so that references have them. -/

theorem axes_of_viewAxes {n : ℕ} {axes : ℕ × ℕ × ℕ × ℕ × ℕ} (h : PCCPatch.viewAxes n = some axes) :
    axes.2.2.1 = (if axes.2.1 = 0 ∨ axes.2.1 = 1 then 2 else 0) ∧
      axes.2.2.2.1 = if axes.2.1 = 1 then 0 else 1 := by
  unfold PCCPatch.viewAxes at h
  split at h <;> cases h <;> decide

theorem hasView_of_setViewId {patch after : PCCPatch} {viewId : UInt64}
    (h : patch.setViewId viewId = some after) : after.HasView ∧
      after.tangentAxis = (if after.normalAxis = 0 ∨ after.normalAxis = 1 then 2 else 0) ∧
      after.bitangentAxis = if after.normalAxis = 1 then 0 else 1 := by
  obtain ⟨⟨additional, normal, tangent, bitangent, mode⟩, haxes, rfl⟩ :=
    Option.map_eq_some_iff.mp h
  refine ⟨?_, axes_of_viewAxes haxes⟩
  unfold PCCPatch.HasView PCCPatch.setViewId
  simp only [PCCPatch.setAxis, haxes, Option.map_some]

theorem intraPatch_hasView {pdu : PatchDataUnit} {patch : PCCPatch}
    (h : intraPatch asps locals pdu = some patch) : patch.HasView := by
  obtain ⟨sizeX, -, h⟩ := Option.bind_eq_some_iff.mp h
  obtain ⟨sizeY, -, h⟩ := Option.bind_eq_some_iff.mp h
  obtain ⟨viewed, hview, h⟩ := Option.bind_eq_some_iff.mp h
  obtain ⟨max3DCoordinate, -, h⟩ := Option.bind_eq_some_iff.mp h
  obtain rfl := Option.some.inj h
  obtain ⟨hhas, htangent, hbitangent⟩ := hasView_of_setViewId hview
  rw [← htangent, ← hbitangent]
  exact PCCPatch.setViewId_of_hasView hhas _

theorem interPatch_hasView {ipdu : InterPatchDataUnit} {refPatch patch : PCCPatch}
    {bestMatchIdx : Int32} (hview : refPatch.HasView)
    (h : interPatch asps locals ipdu refPatch bestMatchIdx = some patch) : patch.HasView := by
  obtain ⟨sizeX, -, h⟩ := Option.bind_eq_some_iff.mp h
  obtain ⟨sizeY, -, h⟩ := Option.bind_eq_some_iff.mp h
  dsimp only at h
  rw [PCCPatch.setViewId_of_hasView hview, Option.bind_eq_bind, Option.bind_some] at h
  obtain ⟨max3DCoordinate, -, h⟩ := Option.bind_eq_some_iff.mp h
  obtain rfl := Option.some.inj h
  exact PCCPatch.setViewId_of_hasView hview _

theorem copyProjection_hasView {refPatch patch after : PCCPatch} (hview : refPatch.HasView)
    (h : copyProjection refPatch patch = some after) : after.HasView := by
  rw [copyProjection_eq hview] at h
  obtain rfl := Option.some.inj h
  exact PCCPatch.setViewId_of_hasView hview _

theorem skipPatch_hasView {refPatch patch : PCCPatch} {bestMatchIdx : Int32}
    (hview : refPatch.HasView) (h : skipPatch asps refPatch bestMatchIdx = some patch) :
    patch.HasView := by
  unfold skipPatch at h
  dsimp only at h
  rw [PCCPatch.setViewId_of_hasView hview] at h
  obtain rfl := Option.some.inj h
  exact PCCPatch.setViewId_of_hasView hview _

theorem hasView_of_referencePatch {frames : List (List PCCPatch)} {refAFOCList : List ℤ}
    {refAtlasFrameIdx : UInt64} {bestMatchIdx : Int32} {patch : PCCPatch}
    (hframes : ∀ patches ∈ frames, ∀ patch ∈ patches, patch.HasView)
    (h : referencePatch frames refAFOCList refAtlasFrameIdx bestMatchIdx = some patch) :
    patch.HasView := by
  obtain ⟨refPOC, -, h⟩ := Option.bind_eq_some_iff.mp h
  obtain ⟨patches, hpatches, h⟩ := Option.bind_eq_some_iff.mp h
  split_ifs at h
  exact hframes patches (List.mem_of_getElem? hpatches) patch (List.mem_of_getElem? h)

/-- One iteration of the loop. -/
theorem decodeEntry_hasView {type : PCCTileType} {context : List (List PCCPatch)}
    {refAFOCList : List ℤ} {patchIndex : ℕ} {predIndex next : ℤ} {pid : PatchInformationData}
    {patches : List PCCPatch}
    (hcontext : ∀ patches ∈ context, ∀ patch ∈ patches, patch.HasView)
    (h : decodeEntry asps locals type context refAFOCList patchIndex predIndex pid =
      some (patches, next)) : ∀ patch ∈ patches, patch.HasView := by
  have hsingle {patch other : PCCPatch} {n : ℤ} (hview : patch.HasView)
      (hrun : some ([patch], n) = some (patches, next)) (hother : other ∈ patches) :
      other.HasView := by
    rw [← (Prod.mk.inj (Option.some.inj hrun)).1, List.mem_singleton] at hother
    rwa [hother]
  intro other hother
  unfold decodeEntry at h
  cases htype : getPatchType type pid.patchMode with
  | intraPatch =>
    rw [htype] at h
    obtain ⟨patch, hpatch, h⟩ := Option.bind_eq_some_iff.mp h
    exact hsingle (intraPatch_hasView hpatch) h hother
  | interPatch =>
    rw [htype] at h
    obtain ⟨refPatch, hreference, h⟩ := Option.bind_eq_some_iff.mp h
    obtain ⟨patch, hpatch, h⟩ := Option.bind_eq_some_iff.mp h
    exact hsingle (interPatch_hasView (hasView_of_referencePatch hcontext hreference) hpatch) h hother
  | mergePatch =>
    rw [htype] at h
    obtain ⟨refPatch, hreference, h⟩ := Option.bind_eq_some_iff.mp h
    obtain ⟨patch, hpatch, h⟩ := Option.bind_eq_some_iff.mp h
    obtain ⟨max3DCoordinate, -, hpatch⟩ := Option.bind_eq_some_iff.mp hpatch
    obtain ⟨overridden, -, hpatch⟩ := Option.bind_eq_some_iff.mp hpatch
    exact hsingle (copyProjection_hasView (hasView_of_referencePatch hcontext hreference) hpatch) h
      hother
  | skipPatch =>
    rw [htype] at h
    obtain ⟨refPatch, hreference, h⟩ := Option.bind_eq_some_iff.mp h
    obtain ⟨patch, hpatch, h⟩ := Option.bind_eq_some_iff.mp h
    exact hsingle (skipPatch_hasView (hasView_of_referencePatch hcontext hreference) hpatch) h hother
  | rawPatch => rw [htype] at h; cases h; cases hother
  | eomPatch => rw [htype] at h; cases h; cases hother
  | errorPatch => rw [htype] at h; cases h; cases hother

/-- The patches of a tile whose reference frames have such patches. -/
theorem decodeEntries_hasView {type : PCCTileType} {context : List (List PCCPatch)}
    {refAFOCList : List ℤ} (hcontext : ∀ patches ∈ context, ∀ patch ∈ patches, patch.HasView)
    {pids : List PatchInformationData} {patchIndex : ℕ} {predIndex : ℤ} {patches : List PCCPatch}
    (h : decodeEntries asps locals type context refAFOCList patchIndex predIndex pids =
      some patches) : ∀ patch ∈ patches, patch.HasView := by
  induction pids generalizing patchIndex predIndex patches with
  | nil =>
    obtain rfl : [] = patches := Option.some.inj h
    intro patch hpatch
    cases hpatch
  | cons pid pids ih =>
    obtain ⟨⟨head, next⟩, hhead, h⟩ := Option.bind_eq_some_iff.mp h
    obtain ⟨rest, hrest, h⟩ := Option.bind_eq_some_iff.mp h
    obtain rfl : head ++ rest = patches := Option.some.inj h
    intro patch hpatch
    rcases List.mem_append.mp hpatch with hpatch | hpatch
    · exact decodeEntry_hasView hcontext hhead patch hpatch
    · exact ih hrest patch hpatch

/-- The next patch that refers to another one is an inter patch, which uses the predictor. -/
def NextIsInter (type : PCCTileType) : List PatchInformationData → Prop
  | [] => False
  | pid :: pids =>
    match getPatchType type pid.patchMode with
    | .interPatch => True
    | .mergePatch | .skipPatch => False
    | _ => NextIsInter type pids

section Entries

variable (asps locals) (type : PCCTileType) (context : List (List PCCPatch)) (refAFOCList : List ℤ)

/-- A patch that refers to another one is the copy of it with the overrides, and the predictor
after it, where an inter patch uses it, is one past the patch that was referred to. -/
def ReferenceKept (patchIndex : ℕ) (predIndex : ℤ) (pid : PatchInformationData)
    (later : List PatchInformationData) : Prop :=
  match getPatchType type pid.patchMode with
  | .mergePatch => ∀ refPatch expected,
    referencePatch context refAFOCList (.ofInt pid.mergePatchDataUnit.refIndex)
        (.ofInt patchIndex) = some refPatch → refPatch.HasView →
      expectedMergePatch asps locals pid.mergePatchDataUnit refPatch (.ofInt patchIndex) =
        some expected →
      ∃ patch next, decodeEntry asps locals type context refAFOCList patchIndex predIndex pid =
          some ([patch], next) ∧
        patch.SameGeometry expected ∧ (NextIsInter type later → next = patchIndex + 1)
  | .skipPatch => ∀ refPatch,
    referencePatch context refAFOCList 0 (.ofInt patchIndex) = some refPatch →
      refPatch.HasView →
      ∃ patch next, decodeEntry asps locals type context refAFOCList patchIndex predIndex pid =
          some ([patch], next) ∧
        patch.SameGeometry
          { refPatch with bestMatchIdx := .ofInt patchIndex, refAtlasFrameIdx := 0 } ∧
        (NextIsInter type later → next = patchIndex + 1)
  | .interPatch => ∀ patches next,
    decodeEntry asps locals type context refAFOCList patchIndex predIndex pid =
      some (patches, next) → next = pid.interPatchDataUnit.refPatchIndex + predIndex + 1
  | _ => True

/-- No inter patch follows a merge patch, or a skip patch unless the predictor was 1 before it,
and the members that a merge patch does not override are zero in its reference. -/
def EntryHolds (patchIndex : ℕ) (predIndex : ℤ) (pid : PatchInformationData)
    (later : List PatchInformationData) : Prop :=
  match getPatchType type pid.patchMode with
  | .mergePatch => ∀ refPatch expected,
    referencePatch context refAFOCList (.ofInt pid.mergePatchDataUnit.refIndex)
        (.ofInt patchIndex) = some refPatch → refPatch.HasView →
      expectedMergePatch asps locals pid.mergePatchDataUnit refPatch (.ofInt patchIndex) =
        some expected →
      OverridesComplete asps locals pid.mergePatchDataUnit refPatch ∧ ¬NextIsInter type later
  | .skipPatch => ∀ refPatch,
    referencePatch context refAFOCList 0 (.ofInt patchIndex) = some refPatch →
      refPatch.HasView → NextIsInter type later → predIndex = 1
  | _ => True

theorem referenceKept_iff_of_merge {patchIndex : ℕ} {predIndex : ℤ} {pid : PatchInformationData}
    {later : List PatchInformationData} (htype : getPatchType type pid.patchMode = .mergePatch) :
    ReferenceKept asps locals type context refAFOCList patchIndex predIndex pid later ↔
      EntryHolds asps locals type context refAFOCList patchIndex predIndex pid later := by
  unfold ReferenceKept EntryHolds decodeEntry
  rw [htype]
  dsimp only
  apply forall₂_congr
  intro refPatch expected
  apply forall₃_congr
  intro hreference hview hexpected
  obtain ⟨patch, hpatch, hiff⟩ := mergePatch_sameGeometry_iff hview hexpected
  rw [← hiff, hreference, Option.bind_eq_bind, Option.bind_some, hpatch]
  constructor
  · rintro ⟨patch', next, hrun, hsame, hnext⟩
    simp only [Option.bind_some, Option.pure_def, Option.some.injEq, Prod.mk.injEq,
      List.cons.injEq, and_true] at hrun
    obtain ⟨rfl, rfl⟩ := hrun
    refine ⟨hsame, fun hinter => ?_⟩
    have hsucc := hnext hinter
    omega
  · rintro ⟨hsame, hlater⟩
    exact ⟨patch, patchIndex, rfl, hsame, fun hinter => absurd hinter hlater⟩

theorem referenceKept_iff_of_skip {patchIndex : ℕ} {predIndex : ℤ} {pid : PatchInformationData}
    {later : List PatchInformationData} (htype : getPatchType type pid.patchMode = .skipPatch) :
    ReferenceKept asps locals type context refAFOCList patchIndex predIndex pid later ↔
      EntryHolds asps locals type context refAFOCList patchIndex predIndex pid later := by
  unfold ReferenceKept EntryHolds decodeEntry
  rw [htype]
  dsimp only
  apply forall_congr'
  intro refPatch
  apply forall₂_congr
  intro hreference hview
  obtain ⟨patch, hpatch, hsame⟩ := skipPatch_sameGeometry hview (.ofInt patchIndex)
  rw [hreference, Option.bind_eq_bind, Option.bind_some, hpatch]
  constructor
  · rintro ⟨patch', next, hrun, -, hnext⟩ hinter
    simp only [Option.bind_some, Option.pure_def, Option.some.injEq, Prod.mk.injEq] at hrun
    have hsucc := hnext hinter
    have hsum := hrun.2
    omega
  · intro hpred
    refine ⟨patch, predIndex + patchIndex, rfl, hsame, fun hinter => ?_⟩
    rw [hpred hinter, add_comm]

theorem referenceKept_of_inter {patchIndex : ℕ} {predIndex : ℤ} {pid : PatchInformationData}
    {later : List PatchInformationData} (htype : getPatchType type pid.patchMode = .interPatch) :
    ReferenceKept asps locals type context refAFOCList patchIndex predIndex pid later := by
  unfold ReferenceKept decodeEntry
  rw [htype]
  intro patches next hrun
  obtain ⟨refPatch, -, hrun⟩ := Option.bind_eq_some_iff.mp hrun
  obtain ⟨patch, -, hrun⟩ := Option.bind_eq_some_iff.mp hrun
  have hnext := (Prod.mk.inj (Option.some.inj hrun)).2
  omega

theorem referenceKept_iff (patchIndex : ℕ) (predIndex : ℤ) (pid : PatchInformationData)
    (later : List PatchInformationData) :
    ReferenceKept asps locals type context refAFOCList patchIndex predIndex pid later ↔
      EntryHolds asps locals type context refAFOCList patchIndex predIndex pid later := by
  cases htype : getPatchType type pid.patchMode with
  | mergePatch => exact referenceKept_iff_of_merge asps locals type context refAFOCList htype
  | skipPatch => exact referenceKept_iff_of_skip asps locals type context refAFOCList htype
  | interPatch =>
    refine iff_of_true (referenceKept_of_inter asps locals type context refAFOCList htype) ?_
    unfold EntryHolds
    rw [htype]
    trivial
  | intraPatch => unfold ReferenceKept EntryHolds; rw [htype]
  | rawPatch => unfold ReferenceKept EntryHolds; rw [htype]
  | eomPatch => unfold ReferenceKept EntryHolds; rw [htype]
  | errorPatch => unfold ReferenceKept EntryHolds; rw [htype]

end Entries

end PCCDecoder

end V3C

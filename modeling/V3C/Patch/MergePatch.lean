import V3C.Patch.PatchFrameDataStructure

/-! Merge and skip patches, which take over a patch of a reference frame. -/
namespace V3C

namespace PCCDecoder

section Entry

variable (asps : AtlasSequenceParameterSetRbsp) (locals : PatchLocals)

/-- `d1` of a merge patch for a projection mode. -/
def mergeDepth (max3DCoordinate : UInt64) (mpdu : MergePatchDataUnit) (refPatch : PCCPatch)
    (projectionMode : ℕ) : UInt64 :=
  let offsetD : UInt64 := .ofInt mpdu.pos3dOffsetD
  if projectionMode = 0 then (offsetD + refPatch.d1 / locals.minLevel) * locals.minLevel
  else max3DCoordinate -
    (offsetD + (max3DCoordinate - refPatch.d1) / locals.minLevel) * locals.minLevel

/-- The 2D parameters of a merge patch. -/
def override2d (mpdu : MergePatchDataUnit) (refPatch patch : PCCPatch) : Option PCCPatch := do
  let (size2DXInPixel, sizeU0) ← interSize asps locals.quantizerSizeX mpdu.delta2dSizeX
    refPatch.size2DXInPixel refPatch.sizeU0
  let (size2DYInPixel, sizeV0) ← interSize asps locals.quantizerSizeY mpdu.delta2dSizeY
    refPatch.size2DYInPixel refPatch.sizeV0
  pure { patch with
    u0 := .ofInt mpdu.pos2dX + refPatch.u0
    v0 := .ofInt mpdu.pos2dY + refPatch.v0
    size2DXInPixel := size2DXInPixel
    size2DYInPixel := size2DYInPixel
    sizeU0 := sizeU0
    sizeV0 := sizeV0 }

/-- The 3D parameters of a merge patch. The depth depends on the projection mode that the patch
has at this point. -/
def override3d (max3DCoordinate : UInt64) (mpdu : MergePatchDataUnit)
    (refPatch patch : PCCPatch) : PCCPatch :=
  let deltaDD :=
    if mpdu.pos3dRangeD = 0 then 0
    else toInt64 (.ofInt mpdu.pos3dRangeD * locals.minLevel - 1)
  { patch with
    u1 := .ofInt mpdu.pos3dOffsetU + refPatch.u1
    v1 := .ofInt mpdu.pos3dOffsetV + refPatch.v1
    d1 := mergeDepth locals max3DCoordinate mpdu refPatch patch.projectionMode
    sizeD := refPatch.sizeD + .ofInt deltaDD }

def applyOverrides (max3DCoordinate : UInt64) (mpdu : MergePatchDataUnit)
    (refPatch patch : PCCPatch) : Option PCCPatch :=
  if mpdu.override2dParamsFlag then override2d asps locals mpdu refPatch patch
  else if mpdu.override3dParamsFlag then
    some (override3d locals max3DCoordinate mpdu refPatch patch)
  else some patch

/-- The members that every merge patch takes from its reference, after the overrides. -/
def copyProjection (refPatch patch : PCCPatch) : Option PCCPatch := do
  let patch ← { patch with projectionMode := refPatch.projectionMode }.setViewId refPatch.viewId
  pure { patch with
    patchOrientation := refPatch.patchOrientation
    normalAxis := refPatch.normalAxis
    tangentAxis := refPatch.tangentAxis
    bitangentAxis := refPatch.bitangentAxis
    axisOfAdditionalPlane := refPatch.axisOfAdditionalPlane
    levelOfDetailX := refPatch.levelOfDetailX
    levelOfDetailY := refPatch.levelOfDetailY }

def mergePatch (mpdu : MergePatchDataUnit) (refPatch : PCCPatch) (bestMatchIdx : Int32) :
    Option PCCPatch := do
  let max3DCoordinate ← shiftSizeT (asps.geometry3dBitdepthMinus1 + 1)
  let patch ← applyOverrides asps locals max3DCoordinate mpdu refPatch
    { bestMatchIdx := bestMatchIdx, refAtlasFrameIdx := .ofInt mpdu.refIndex }
  copyProjection refPatch patch

def skipPatch (refPatch : PCCPatch) (bestMatchIdx : Int32) : Option PCCPatch := do
  let patch : PCCPatch := {
    bestMatchIdx := bestMatchIdx
    refAtlasFrameIdx := 0
    projectionMode := refPatch.projectionMode }
  let patch ← patch.setViewId refPatch.viewId
  pure { patch with
    u0 := refPatch.u0
    v0 := refPatch.v0
    patchOrientation := refPatch.patchOrientation
    u1 := refPatch.u1
    v1 := refPatch.v1
    size2DXInPixel := if asps.patchSizeQuantizerPresentFlag then refPatch.size2DXInPixel else 0
    size2DYInPixel := if asps.patchSizeQuantizerPresentFlag then refPatch.size2DYInPixel else 0
    sizeU0 := refPatch.sizeU0
    sizeV0 := refPatch.sizeV0
    normalAxis := refPatch.normalAxis
    tangentAxis := refPatch.tangentAxis
    bitangentAxis := refPatch.bitangentAxis
    axisOfAdditionalPlane := refPatch.axisOfAdditionalPlane
    d1 := refPatch.d1
    sizeD := refPatch.sizeD
    levelOfDetailX := refPatch.levelOfDetailX
    levelOfDetailY := refPatch.levelOfDetailY }

variable (type : PCCTileType) (context : List (List PCCPatch)) (refAFOCList : List ℤ)

/-- One iteration of the loop over the patches: the patches it appends and `predIndex` after it.
Raw and EOM patches go to lists of their own. -/
def decodeEntry (patchIndex : ℕ) (predIndex : ℤ) (pid : PatchInformationData) :
    Option (List PCCPatch × ℤ) :=
  match getPatchType type pid.patchMode with
  | .intraPatch => do
    let patch ← intraPatch asps locals pid.patchDataUnit
    pure ([patch], predIndex)
  | .interPatch => do
    let ipdu := pid.interPatchDataUnit
    let bestMatchIdx := Int32.ofInt (ipdu.refPatchIndex + predIndex)
    let refPatch ← referencePatch context refAFOCList (.ofInt ipdu.refIndex) bestMatchIdx
    let patch ← interPatch asps locals ipdu refPatch bestMatchIdx
    pure ([patch], predIndex + (ipdu.refPatchIndex + 1))
  | .mergePatch => do
    let mpdu := pid.mergePatchDataUnit
    let bestMatchIdx := Int32.ofInt patchIndex
    let refPatch ← referencePatch context refAFOCList (.ofInt mpdu.refIndex) bestMatchIdx
    let patch ← mergePatch asps locals mpdu refPatch bestMatchIdx
    pure ([patch], patchIndex)
  | .skipPatch => do
    let bestMatchIdx := Int32.ofInt patchIndex
    let refPatch ← referencePatch context refAFOCList 0 bestMatchIdx
    let patch ← skipPatch asps refPatch bestMatchIdx
    pure ([patch], predIndex + patchIndex)
  | _ => some ([], predIndex)

/-- The loop over all the entries of a data unit. -/
def decodeEntries : ℕ → ℤ → List PatchInformationData → Option (List PCCPatch)
  | _, _, [] => some []
  | patchIndex, predIndex, pid :: pids => do
    let (patches, next) ← decodeEntry asps locals type context refAFOCList patchIndex predIndex pid
    let rest ← decodeEntries (patchIndex + 1) next pids
    pure (patches ++ rest)

/-- A property of every entry that the loop reaches, in the state that it reaches it in, with the
entries that are left. -/
def EachEntry (P : ℕ → ℤ → PatchInformationData → List PatchInformationData → Prop) :
    ℕ → ℤ → List PatchInformationData → Prop
  | _, _, [] => True
  | patchIndex, predIndex, pid :: pids => P patchIndex predIndex pid pids ∧
    ∀ patches next, decodeEntry asps locals type context refAFOCList patchIndex predIndex pid =
      some (patches, next) → EachEntry P (patchIndex + 1) next pids

end Entry

section Entries

variable {asps : AtlasSequenceParameterSetRbsp} {locals : PatchLocals} {type : PCCTileType}
  {context : List (List PCCPatch)} {refAFOCList : List ℤ}

/-- Without merge and skip patches this is the loop over the patches that the encoder writes. -/
theorem decodeEntries_of_decodePatches {pids : List PatchInformationData} {patchIndex : ℕ}
    {predIndex : ℤ} {patches : List PCCPatch}
    (h : decodePatches asps locals type context refAFOCList predIndex pids = some patches) :
    decodeEntries asps locals type context refAFOCList patchIndex predIndex pids = some patches := by
  induction pids generalizing patchIndex predIndex patches with
  | nil => exact h
  | cons pid pids ih =>
    unfold decodePatches at h
    unfold decodeEntries decodeEntry
    cases htype : getPatchType type pid.patchMode with
    | intraPatch =>
      rw [htype] at h
      obtain ⟨patch, hpatch, h⟩ := Option.bind_eq_some_iff.mp h
      obtain ⟨rest, hrest, h⟩ := Option.bind_eq_some_iff.mp h
      simp only [hpatch, Option.bind_eq_bind, Option.bind_some, Option.pure_def,
        ih hrest]
      exact h
    | interPatch =>
      rw [htype] at h
      obtain ⟨refPatch, hreference, h⟩ := Option.bind_eq_some_iff.mp h
      obtain ⟨patch, hpatch, h⟩ := Option.bind_eq_some_iff.mp h
      obtain ⟨rest, hrest, h⟩ := Option.bind_eq_some_iff.mp h
      simp only [hreference, hpatch, Option.bind_eq_bind, Option.bind_some, Option.pure_def,
        ih hrest]
      exact h
    | errorPatch =>
      rw [htype] at h
      simp only [Option.bind_eq_bind, Option.bind_some, Option.pure_def, List.nil_append,
        ih h]
    | mergePatch => rw [htype] at h; cases h
    | skipPatch => rw [htype] at h; cases h
    | rawPatch => rw [htype] at h; cases h
    | eomPatch => rw [htype] at h; cases h

theorem EachEntry.congr {P Q : ℕ → ℤ → PatchInformationData → List PatchInformationData → Prop}
    (h : ∀ patchIndex predIndex pid later,
      P patchIndex predIndex pid later ↔ Q patchIndex predIndex pid later)
    {pids : List PatchInformationData} {patchIndex : ℕ} {predIndex : ℤ} :
    EachEntry asps locals type context refAFOCList P patchIndex predIndex pids ↔
      EachEntry asps locals type context refAFOCList Q patchIndex predIndex pids := by
  induction pids generalizing patchIndex predIndex with
  | nil => exact Iff.rfl
  | cons pid pids ih =>
    unfold EachEntry
    rw [h]
    constructor
    · rintro ⟨hentry, hlater⟩
      exact ⟨hentry, fun patches next hrun => ih.mp (hlater patches next hrun)⟩
    · rintro ⟨hentry, hlater⟩
      exact ⟨hentry, fun patches next hrun => ih.mpr (hlater patches next hrun)⟩

end Entries

end PCCDecoder

end V3C

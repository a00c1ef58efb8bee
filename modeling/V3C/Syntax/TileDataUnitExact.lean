import Mathlib.Algebra.Order.BigOperators.Group.List
import V3C.Bitstream.FieldConsumption
import V3C.Syntax.TileDataUnitRoundTrip

/-! Where atlas tile data units are not read back. What the reader returns always has the
block maps that it derives, and there is a list it does not return wherever a patch can lose
its block data. -/
namespace V3C
open Codec

/-! ### The block maps of what is read -/

section Sizes
variable {ctx : TileContext}

/-- The block map of `plrd` has the size of `old`. -/
def PLRData.SameSize (old plrd : PLRData) : Prop :=
  plrd.blockToPatchMapWidth = old.blockToPatchMapWidth ∧
    plrd.blockToPatchMapHeight = old.blockToPatchMapHeight

theorem PLRData.SameSize.refl (plrd : PLRData) : plrd.SameSize plrd := ⟨rfl, rfl⟩

theorem PLRData.SameSize.trans {a b c : PLRData} (h : a.SameSize b) (h' : b.SameSize c) :
    a.SameSize c := ⟨h'.1.trans h.1, h'.2.trans h.2⟩

namespace PCCBitstreamReader

theorem plrMap_sameSize {old plrd : PLRData} {plri : PLRInformation} {c c' : Cursor}
    (h : plrMap old plri c = some (plrd, c')) : old.SameSize plrd := by
  unfold plrMap at h
  cases hmap : plri.mapEnabledFlag with
  | false =>
    rw [hmap] at h
    obtain ⟨rfl, -⟩ := Prod.mk.inj (Option.some.inj h)
    exact PLRData.SameSize.refl _
  | true =>
    rw [hmap, Reader.whenElse_true] at h
    obtain ⟨levelFlag, c₁, -, h⟩ := Reader.bind_run_eq_some.mp h
    split_ifs at h
    · obtain ⟨blocks, c₂, -, h⟩ := Reader.bind_run_eq_some.mp h
      obtain ⟨rfl, -⟩ := Prod.mk.inj (Option.some.inj h)
      exact ⟨rfl, rfl⟩
    · obtain ⟨presentFlag, c₂, -, h⟩ := Reader.bind_run_eq_some.mp h
      obtain ⟨modeMinus1, c₃, -, h⟩ := Reader.bind_run_eq_some.mp h
      obtain ⟨rfl, -⟩ := Prod.mk.inj (Option.some.inj h)
      exact ⟨rfl, rfl⟩

theorem plrMapLoop_sameSize {maps : List PLRInformation} {old plrd : PLRData} {c c' : Cursor}
    (h : plrMapLoop old maps c = some (plrd, c')) : old.SameSize plrd := by
  induction maps generalizing old c with
  | nil =>
    obtain ⟨rfl, -⟩ := Prod.mk.inj (Option.some.inj h)
    exact PLRData.SameSize.refl _
  | cons plri maps ih =>
    obtain ⟨next, c₁, hmap, hrest⟩ := Reader.bind_run_eq_some.mp h
    exact (plrMap_sameSize hmap).trans (ih hrest)

theorem plrData_sizes {width height : ℤ} {plrd : PLRData} {c c' : Cursor}
    (h : plrData ctx width height c = some (plrd, c')) :
    plrd.blockToPatchMapWidth = toSizeT width ∧ plrd.blockToPatchMapHeight = toSizeT height := by
  obtain ⟨maps, c₁, -, hloop⟩ := Reader.bind_run_eq_some.mp h
  exact plrMapLoop_sameSize hloop

end PCCBitstreamReader

variable {pid : PatchInformationData} {layers : List AtlasTileLayerRbsp}
  {state state' : TileState} {c c' : Cursor}

/-- What every parsed entry has: the block map that is derived for it, and the state that it
leaves behind. -/
def PatchInformationData.Derived (ctx : TileContext) (layers : List AtlasTileLayerRbsp)
    (state : TileState) (pid : PatchInformationData) (state' : TileState) : Prop :=
  pid.SizesFit ctx layers state ∧ state' = pid.nextState ctx state

/-- Without block data there is nothing to derive. -/
theorem PatchInformationData.derived_of_none (h : pid.carriedPlrData ctx = none) :
    pid.Derived ctx layers state state := by
  constructor
  · intro plrd hplrd
    rw [h] at hplrd
    exact absurd hplrd (by simp)
  · unfold PatchInformationData.nextState
    rw [h]

namespace PCCBitstreamReader

theorem mergePatch_derived (htype : ctx.ath.type = .pTile)
    (h : mergePatch ctx state c = some ((pid, state'), c')) :
    pid.patchMode = P_MERGE ∧ pid.Derived ctx layers state state' := by
  obtain ⟨⟨mpdu, state₁⟩, c₁, hunit, h⟩ := Reader.bind_run_eq_some.mp h
  obtain ⟨hpair, -⟩ := Prod.mk.inj (Option.some.inj h)
  obtain ⟨rfl, rfl⟩ := Prod.mk.inj hpair
  refine ⟨rfl, ?_⟩
  have hcarried : ∀ p : PatchInformationData, p.patchMode = P_MERGE → p.carriedPlrData ctx =
      if mergeOverridesPlr ctx p.mergePatchDataUnit then some p.mergePatchDataUnit.plrData
      else none := by
    intro p hmode
    unfold PatchInformationData.carriedPlrData
    simp only [htype, hmode, if_true]
  obtain ⟨params, c₂, -, hunit⟩ := Reader.bind_run_eq_some.mp hunit
  split_ifs at hunit with hover
  · obtain ⟨plrData, c₃, hplr, hunit⟩ := Reader.bind_run_eq_some.mp hunit
    obtain ⟨hpair, -⟩ := Prod.mk.inj (Option.some.inj hunit)
    obtain ⟨rfl, rfl⟩ := Prod.mk.inj hpair
    obtain ⟨hwidth, hheight⟩ := plrData_sizes hplr
    have hsome := hcarried
      { patchMode := P_MERGE, mergePatchDataUnit := { params with plrData } } rfl
    rw [show mergeOverridesPlr ctx { params with plrData } = true from hover, if_pos rfl] at hsome
    constructor
    · intro plrd hplrd
      rw [hsome] at hplrd
      obtain rfl := Option.some.inj hplrd
      refine ⟨_, _, ?_, hwidth, hheight⟩
      unfold PatchInformationData.derivedSizes
      rw [if_pos ⟨htype, rfl⟩]
    · unfold PatchInformationData.nextState
      rw [hsome]
      simp only [if_pos (And.intro htype trivial), hwidth, hheight, toInt_toSizeT]
  · obtain ⟨hpair, -⟩ := Prod.mk.inj (Option.some.inj hunit)
    obtain ⟨rfl, rfl⟩ := Prod.mk.inj hpair
    apply PatchInformationData.derived_of_none
    rw [hcarried _ rfl]
    exact if_neg hover

theorem interPatch_derived (htype : ctx.ath.type = .pTile)
    (h : interPatch ctx layers state c = some ((pid, state'), c')) :
    pid.patchMode = P_INTER ∧ pid.Derived ctx layers state state' := by
  obtain ⟨⟨ipdu, state₁⟩, c₁, hunit, h⟩ := Reader.bind_run_eq_some.mp h
  obtain ⟨hpair, -⟩ := Prod.mk.inj (Option.some.inj h)
  obtain ⟨rfl, rfl⟩ := Prod.mk.inj hpair
  refine ⟨rfl, ?_⟩
  have hcarried : ∀ p : PatchInformationData, p.patchMode = P_INTER → p.carriedPlrData ctx =
      if ctx.asps.plrEnabledFlag then some p.interPatchDataUnit.plrData else none := by
    intro p hmode
    unfold PatchInformationData.carriedPlrData
    simp [htype, hmode, P_INTER, P_MERGE, P_INTRA]
  obtain ⟨params, c₂, -, hunit⟩ := Reader.bind_run_eq_some.mp hunit
  split_ifs at hunit with henabled
  · obtain ⟨⟨sizeU, sizeV⟩, c₃, hsizes, hunit⟩ := Reader.bind_run_eq_some.mp hunit
    obtain ⟨plrData, c₄, hplr, hunit⟩ := Reader.bind_run_eq_some.mp hunit
    obtain ⟨hpair, -⟩ := Prod.mk.inj (Option.some.inj hunit)
    obtain ⟨rfl, rfl⟩ := Prod.mk.inj hpair
    obtain ⟨hwidth, hheight⟩ := plrData_sizes hplr
    obtain ⟨hderived, -⟩ := Reader.ofOption_run_eq_some.mp hsizes
    obtain ⟨hsizeU, hsizeV⟩ := interPatchSizes_toInt hderived
    have hsome := hcarried
      { patchMode := P_INTER, interPatchDataUnit := { params with plrData } } rfl
    rw [if_pos henabled] at hsome
    have hnotMerge : ¬ (ctx.ath.type = .pTile ∧ P_INTER = P_MERGE) :=
      fun hboth => absurd hboth.2 (by decide)
    constructor
    · intro plrd hplrd
      rw [hsome] at hplrd
      obtain rfl := Option.some.inj hplrd
      refine ⟨sizeU, sizeV, ?_, hwidth, hheight⟩
      unfold PatchInformationData.derivedSizes
      rw [if_neg hnotMerge, if_pos ⟨htype, rfl⟩]
      exact hderived
    · unfold PatchInformationData.nextState
      rw [hsome]
      simp only [if_neg hnotMerge, if_pos (And.intro htype trivial), hwidth, hheight,
        toInt_toSizeT, hsizeU, hsizeV]
  · obtain ⟨hpair, -⟩ := Prod.mk.inj (Option.some.inj hunit)
    obtain ⟨rfl, rfl⟩ := Prod.mk.inj hpair
    apply PatchInformationData.derived_of_none
    rw [hcarried _ rfl]
    exact if_neg henabled

theorem intraPatch_derived {patchMode : ℕ}
    (hcarried : ∀ p : PatchInformationData, p.patchMode = patchMode → p.carriedPlrData ctx =
      if ctx.asps.plrEnabledFlag then some p.patchDataUnit.plrData else none)
    (hmerge : ¬ (ctx.ath.type = .pTile ∧ patchMode = P_MERGE))
    (hinter : ¬ (ctx.ath.type = .pTile ∧ patchMode = P_INTER))
    (h : intraPatch ctx patchMode state c = some ((pid, state'), c')) :
    pid.patchMode = patchMode ∧ pid.Derived ctx layers state state' := by
  obtain ⟨pdu, c₁, hunit, h⟩ := Reader.bind_run_eq_some.mp h
  obtain ⟨hpair, -⟩ := Prod.mk.inj (Option.some.inj h)
  obtain ⟨rfl, rfl⟩ := Prod.mk.inj hpair
  refine ⟨rfl, ?_⟩
  have hsome := hcarried { patchMode, patchDataUnit := pdu } rfl
  by_cases henabled : ctx.asps.plrEnabledFlag = true
  · rw [if_pos henabled] at hsome
    have hsizes : pdu.plrData.blockToPatchMapWidth = toSizeT (pdu.size2dXMinus1 + 1) ∧
        pdu.plrData.blockToPatchMapHeight = toSizeT (pdu.size2dYMinus1 + 1) := by
      unfold patchDataUnit at hunit
      simp only [henabled, Reader.whenElse_true] at hunit
      obtain ⟨pos2dX, _, -, hunit⟩ := Reader.bind_run_eq_some.mp hunit
      obtain ⟨pos2dY, _, -, hunit⟩ := Reader.bind_run_eq_some.mp hunit
      obtain ⟨size2dXMinus1, _, -, hunit⟩ := Reader.bind_run_eq_some.mp hunit
      obtain ⟨size2dYMinus1, _, -, hunit⟩ := Reader.bind_run_eq_some.mp hunit
      obtain ⟨pos3dOffsetU, _, -, hunit⟩ := Reader.bind_run_eq_some.mp hunit
      obtain ⟨pos3dOffsetV, _, -, hunit⟩ := Reader.bind_run_eq_some.mp hunit
      obtain ⟨pos3dOffsetD, _, -, hunit⟩ := Reader.bind_run_eq_some.mp hunit
      obtain ⟨pos3dRangeD, _, -, hunit⟩ := Reader.bind_run_eq_some.mp hunit
      obtain ⟨projectionId, _, -, hunit⟩ := Reader.bind_run_eq_some.mp hunit
      obtain ⟨orientationIndex, _, -, hunit⟩ := Reader.bind_run_eq_some.mp hunit
      obtain ⟨lod, _, -, hunit⟩ := Reader.bind_run_eq_some.mp hunit
      obtain ⟨plrData, _, hplr, hunit⟩ := Reader.bind_run_eq_some.mp hunit
      obtain ⟨rfl, -⟩ := Prod.mk.inj (Option.some.inj hunit)
      exact plrData_sizes hplr
    constructor
    · intro plrd hplrd
      rw [hsome] at hplrd
      obtain rfl := Option.some.inj hplrd
      refine ⟨_, _, ?_, hsizes.1, hsizes.2⟩
      unfold PatchInformationData.derivedSizes
      rw [if_neg hmerge, if_neg hinter]
    · unfold PatchInformationData.nextState
      rw [hsome]
      simp only [if_neg hmerge, if_neg hinter]
  · apply PatchInformationData.derived_of_none
    rw [hsome]
    exact if_neg henabled

/-- An entry that is parsed has what is derived for it. -/
theorem patchInformationData_derived {patchMode : ℕ}
    (h : patchInformationData ctx layers patchMode state c = some ((pid, state'), c')) :
    pid.patchMode = patchMode ∧ pid.Derived ctx layers state state' := by
  have hcarried := fun p => @PatchInformationData.carriedPlrData.eq_def ctx p
  have hplain : ∀ {r : PatchInformationData}, r.patchMode = patchMode →
      r.carriedPlrData ctx = none → (pid, state') = (r, state) →
        pid.patchMode = patchMode ∧ pid.Derived ctx layers state state' := by
    intro r hmode hnone hpair
    obtain ⟨rfl, rfl⟩ := Prod.mk.inj hpair
    exact ⟨hmode, PatchInformationData.derived_of_none hnone⟩
  unfold patchInformationData at h
  cases htype : ctx.ath.type with
  | pTile =>
    simp only [htype] at h hcarried
    split_ifs at h with hskip hmerge hintra hinter hraw heom
    · apply hplain rfl _ (Prod.mk.inj (Option.some.inj h)).1.symm
      rw [hcarried]
      simp [hskip, P_SKIP, P_MERGE, P_INTRA, P_INTER]
    · rw [hmerge]
      exact mergePatch_derived htype h
    · apply intraPatch_derived _ (fun hboth => hmerge hboth.2) _ h
      · intro p hp
        rw [hcarried, if_neg (by rw [hp]; exact hmerge), if_pos (by rw [hp]; exact hintra)]
      · rw [hintra]
        exact fun hboth => absurd hboth.2 (by decide)
    · rw [hinter]
      exact interPatch_derived htype h
    · obtain ⟨rpdu, c₁, -, h⟩ := Reader.bind_run_eq_some.mp h
      apply hplain rfl _ (Prod.mk.inj (Option.some.inj h)).1.symm
      rw [hcarried, if_neg hmerge, if_neg hintra, if_neg hinter]
    · obtain ⟨epdu, c₁, -, h⟩ := Reader.bind_run_eq_some.mp h
      apply hplain rfl _ (Prod.mk.inj (Option.some.inj h)).1.symm
      rw [hcarried, if_neg hmerge, if_neg hintra, if_neg hinter]
    · apply hplain rfl _ (Prod.mk.inj (Option.some.inj h)).1.symm
      rw [hcarried, if_neg hmerge, if_neg hintra, if_neg hinter]
  | iTile =>
    simp only [htype] at h hcarried
    split_ifs at h with hintra hraw heom
    · apply intraPatch_derived _ _ _ h
      · intro p hp
        rw [hcarried, if_pos (by rw [hp]; exact hintra)]
      · rw [htype]
        exact fun hboth => absurd hboth.1 (by simp)
      · rw [htype]
        exact fun hboth => absurd hboth.1 (by simp)
    · obtain ⟨rpdu, c₁, -, h⟩ := Reader.bind_run_eq_some.mp h
      apply hplain rfl _ (Prod.mk.inj (Option.some.inj h)).1.symm
      rw [hcarried, if_neg hintra]
    · obtain ⟨epdu, c₁, -, h⟩ := Reader.bind_run_eq_some.mp h
      apply hplain rfl _ (Prod.mk.inj (Option.some.inj h)).1.symm
      rw [hcarried, if_neg hintra]
    · apply hplain rfl _ (Prod.mk.inj (Option.some.inj h)).1.symm
      rw [hcarried, if_neg hintra]
  | skipTile =>
    simp only [htype] at h hcarried
    exact hplain rfl (hcarried _) (Prod.mk.inj (Option.some.inj h)).1.symm
  | other value =>
    simp only [htype] at h hcarried
    exact hplain rfl (hcarried _) (Prod.mk.inj (Option.some.inj h)).1.symm

end PCCBitstreamReader

end Sizes

/-! ### The block maps of a tile -/

section Tile
variable {ctx : TileContext} {pid : PatchInformationData}

theorem PatchInformationData.ofMode_patchMode (type : PCCTileType) :
    (pid.ofMode type).patchMode = pid.patchMode := by
  unfold PatchInformationData.ofMode
  cases type with
  | pTile =>
    simp only
    split_ifs with hmerge hintra hinter hraw heom
    · exact hmerge.symm
    · exact hintra.symm
    · exact hinter.symm
    · exact hraw.symm
    · exact heom.symm
    · rfl
  | iTile =>
    simp only
    split_ifs with hintra hraw heom
    · exact hintra.symm
    · exact hraw.symm
    · exact heom.symm
    · rfl
  | skipTile => rfl
  | other value => rfl

theorem PatchInformationData.derived_of_ofMode {layers : List AtlasTileLayerRbsp}
    {state state' : TileState} (h : (pid.ofMode ctx.ath.type).Derived ctx layers state state') :
    pid.Derived ctx layers state state' := by
  have hsame : (pid.ofMode ctx.ath.type).carriedPlrData ctx = pid.carriedPlrData ctx ∧
      (pid.carriedPlrData ctx ≠ none →
        (pid.ofMode ctx.ath.type).derivedSizes ctx layers state =
            pid.derivedSizes ctx layers state ∧
          (pid.ofMode ctx.ath.type).nextState ctx state = pid.nextState ctx state) := by
    unfold PatchInformationData.nextState PatchInformationData.derivedSizes
      PatchInformationData.carriedPlrData
    simp only [PatchInformationData.ofMode_patchMode]
    unfold PatchInformationData.ofMode
    cases htype : ctx.ath.type with
    | pTile =>
      by_cases hmerge : pid.patchMode = P_MERGE
      · simp [hmerge]
      · by_cases hintra : pid.patchMode = P_INTRA
        · simp [hintra, P_INTRA, P_MERGE, P_INTER]
        · by_cases hinter : pid.patchMode = P_INTER
          · simp [hinter, P_INTRA, P_MERGE, P_INTER]
          · simp [hmerge, hintra, hinter]
    | iTile =>
      by_cases hintra : pid.patchMode = I_INTRA
      · simp [hintra]
      · simp [hintra]
    | skipTile => simp
    | other value => simp
  obtain ⟨hcarried, hrest⟩ := hsame
  obtain ⟨hsizes, rfl⟩ := h
  constructor
  · intro plrd hplrd
    obtain ⟨sizeU, sizeV, hderived, hfit⟩ := hsizes plrd (hcarried.trans hplrd)
    obtain ⟨hsize, -⟩ := hrest (by rw [hplrd]; exact Option.some_ne_none plrd)
    exact ⟨sizeU, sizeV, hsize ▸ hderived, hfit⟩
  · cases hnone : pid.carriedPlrData ctx with
    | none =>
      unfold PatchInformationData.nextState
      rw [hcarried, hnone]
    | some plrd => exact (hrest (by rw [hnone]; exact Option.some_ne_none plrd)).2

theorem patchLoop_extends {history : TileHistory} {fuel : ℕ}
    {patches all : List PatchInformationData} {state state' : TileState} {c c' : Cursor}
    (h : PCCBitstreamReader.patchLoop ctx history fuel patches state c = some ((all, state'), c')) :
    patches <+: all := by
  induction fuel generalizing patches state c with
  | zero => exact absurd h (by simp [PCCBitstreamReader.patchLoop, Reader.fail])
  | succ fuel ih =>
    obtain ⟨patchMode, c₁, -, h⟩ := Reader.bind_run_eq_some.mp h
    split_ifs at h
    · obtain ⟨hpair, -⟩ := Prod.mk.inj (Option.some.inj h)
      obtain ⟨rfl, -⟩ := Prod.mk.inj hpair
      exact List.prefix_refl patches
    · obtain ⟨⟨entry, state₁⟩, c₂, -, h⟩ := Reader.bind_run_eq_some.mp h
      exact (List.prefix_append patches [entry]).trans (ih h)

/-- The block maps of a list that the loop returns have the sizes that it derives. -/
theorem blockSizesFit_of_patchLoop {history : TileHistory} {fuel : ℕ}
    {pids patches : List PatchInformationData} {state state' : TileState} {c c' : Cursor}
    (h : PCCBitstreamReader.patchLoop ctx history fuel patches state c =
      some ((patches ++ pids.map (·.ofMode ctx.ath.type), state'), c')) :
    BlockSizesFit ctx history patches state pids := by
  induction pids generalizing fuel patches state c with
  | nil => trivial
  | cons pid pids ih =>
    cases fuel with
    | zero => exact absurd h (by simp [PCCBitstreamReader.patchLoop, Reader.fail])
    | succ fuel =>
      obtain ⟨patchMode, c₁, -, h⟩ := Reader.bind_run_eq_some.mp h
      split_ifs at h
      · obtain ⟨hpair, -⟩ := Prod.mk.inj (Option.some.inj h)
        obtain ⟨hlist, -⟩ := Prod.mk.inj hpair
        have := congrArg List.length hlist
        rw [List.length_append, List.length_map, List.length_cons] at this
        omega
      · obtain ⟨⟨entry, state₁⟩, c₂, hentry, h⟩ := Reader.bind_run_eq_some.mp h
        have hhead : entry = pid.ofMode ctx.ath.type := by
          have hvisited := patchLoop_extends h
          rw [List.map_cons, List.prefix_append_right_inj, List.cons_prefix_cons] at hvisited
          exact hvisited.1
        obtain ⟨hmode, hderived⟩ := PCCBitstreamReader.patchInformationData_derived hentry
        rw [hhead] at hmode hderived h
        rw [PatchInformationData.ofMode_patchMode] at hmode
        rw [← hmode] at hderived
        obtain ⟨hsizes, rfl⟩ := PatchInformationData.derived_of_ofMode hderived
        refine ⟨hsizes, ?_⟩
        rw [List.map_cons, ← List.singleton_append, ← List.append_assoc] at h
        exact ih h

theorem blockSizesFit_of_roundTrips {history : TileHistory} {state : TileState}
    {pids : List PatchInformationData} {last : PatchInformationData}
    (h : TileDataUnitRoundTrips ctx history state pids last) :
    BlockSizesFit ctx history [] { prevFrameIndex := state.prevFrameIndex } pids := by
  obtain ⟨state', hround⟩ := h
  obtain ⟨bs, -, hread⟩ := hround 0
  have h := hread []
  unfold PCCBitstreamReader.atlasTileDataUnit at h
  split_ifs at h
  · obtain ⟨hpair, -⟩ := Prod.mk.inj (Option.some.inj h)
    obtain ⟨hnil, -⟩ := Prod.mk.inj hpair
    obtain rfl := List.map_eq_nil_iff.mp hnil.symm
    trivial
  · obtain ⟨fuel, c₁, -, h⟩ := Reader.bind_run_eq_some.mp h
    obtain ⟨⟨patches, state₁⟩, c₂, hloop, h⟩ := Reader.bind_run_eq_some.mp h
    obtain ⟨hpair, -⟩ := Prod.mk.inj (Option.some.inj h)
    obtain ⟨rfl, -⟩ := Prod.mk.inj hpair
    exact blockSizesFit_of_patchLoop hloop

end Tile

/-! ### A patch that loses its block data -/

section Loss
variable {ctx : TileContext}

/-- Tiles that have a patch whose block data can get lost: P tiles with a map to code it for. -/
def TileContext.LosesPlrData (ctx : TileContext) : Prop :=
  ctx.ath.type = .pTile ∧ ctx.asps.plrEnabledFlag = true ∧ ctx.getNumRefIdxActive ≠ none ∧
    ∃ maps, ctx.plrMaps = some maps ∧ ∃ plri ∈ maps, plri.mapEnabledFlag = true

theorem PatchInformationData.LosesPlrData.tile {pid : PatchInformationData} (hcoded : pid.Coded ctx)
    (h : pid.LosesPlrData ctx) : ctx.LosesPlrData := by
  obtain ⟨htype, hmode, -, hover, hmaps⟩ := h
  have henabled : ctx.asps.plrEnabledFlag = true := by
    unfold PCCBitstreamReader.mergeOverridesPlr at hover
    exact (Bool.and_eq_true_iff.mp hover).1
  have hmerge : pid.mergePatchDataUnit.Coded ctx := by
    unfold PatchInformationData.Coded at hcoded
    rw [htype] at hcoded
    simpa [hmode, P_MERGE, P_SKIP, P_INTRA, P_INTER, P_RAW, P_EOM] using hcoded
  refine ⟨htype, henabled, ?_, hmaps⟩
  have hrefIndex : ∃ refIndex, RefIndexCoded ctx refIndex := by
    generalize pid.mergePatchDataUnit = mpdu at hmerge
    cases hmerge with
    | override2d hrefIndex => exact ⟨_, hrefIndex⟩
    | override3d hrefIndex => exact ⟨_, hrefIndex⟩
    | inherit hrefIndex => exact ⟨_, hrefIndex⟩
  obtain ⟨refIndex, active, hactive, -⟩ := hrefIndex
  rw [hactive]
  exact Option.some_ne_none active

/-- A merge patch that overrides its block data alone, with an empty block map. -/
def lostPatch : PatchInformationData :=
  let plrData : PLRData := { levelFlag := true }
  let mergePatchDataUnit : MergePatchDataUnit :=
    { override3dParamsFlag := true, overridePlrFlag := true, plrData }
  { patchMode := P_MERGE, mergePatchDataUnit }

theorem lostPatch_coded (h : ctx.LosesPlrData) : lostPatch.Coded ctx := by
  obtain ⟨htype, henabled, hactive, maps, hmaps, plri, hplri, hmap⟩ := h
  obtain ⟨active, hactive⟩ := Option.ne_none_iff_exists'.mp hactive
  have hzero : FitsSe 0 := by
    constructor <;> decide
  have hdata : PLRData.Coded { levelFlag := true } maps := by
    constructor
    · decide
    · decide
    · rfl
    · rfl
    · decide
    · exact fun mode hmode => absurd hmode (List.not_mem_nil)
    · intro hnone
      exact absurd (hnone plri hplri) (by rw [hmap]; decide)
    · exact fun _ => ⟨fun _ => rfl, rfl, rfl⟩
    · exact fun hlevel => absurd hlevel (by decide)
    · intro plri' _ _
      exact ⟨fun _ => rfl, fun hpresent => absurd hpresent (by decide),
        fun i mode hpresent => absurd hpresent (by simp)⟩
  unfold PatchInformationData.Coded
  rw [htype]
  refine Or.inr (Or.inl ⟨rfl, ?_⟩)
  apply MergePatchDataUnit.Coded.override3d
  · exact ⟨active, hactive, 0, rfl, by unfold FitsUe; decide, fun _ => rfl⟩
  · exact hzero
  · exact hzero
  · exact hzero
  · unfold RangeDCoded
    split_ifs
    · exact hzero
    · rfl
  · exact fun hne => absurd henabled (by rw [hne]; decide)
  · exact ⟨maps, hmaps, hdata⟩

theorem lostPatch_sizesFit (h : ctx.LosesPlrData) (layers : List AtlasTileLayerRbsp)
    (prevFrameIndex : ℤ) : lostPatch.SizesFit ctx layers { prevFrameIndex } := by
  obtain ⟨htype, henabled, -⟩ := h
  intro plrd hplrd
  have hcarried : lostPatch.carriedPlrData ctx = some { levelFlag := true } := by
    unfold PatchInformationData.carriedPlrData
    simp [htype, lostPatch, PCCBitstreamReader.mergeOverridesPlr, henabled]
  rw [hcarried] at hplrd
  obtain rfl := Option.some.inj hplrd
  refine ⟨0, 0, ?_, rfl, rfl⟩
  unfold PatchInformationData.derivedSizes
  rw [if_pos ⟨htype, rfl⟩]
  rfl

namespace PCCBitstreamReader

theorem plrMap_takes {plrd plrd' : PLRData} {plri : PLRInformation} {c c' : Cursor}
    (h : plrMap plrd plri c = some (plrd', c')) : c.Takes c' plri.mapEnabledFlag.toNat := by
  have hmode : Reader.Forward (do pure ((← read plri.bitCountMode) % 2 ^ 8) : Reader ℕ) :=
    Reader.Forward.bind (fun _ _ _ hread => (read_takes hread).mono (Nat.zero_le _))
      fun _ => Reader.Forward.pure _
  have hflag : Reader.Forward readFlag := fun _ _ _ hread =>
    (readFlag_takes hread).mono (Nat.zero_le _)
  unfold plrMap at h
  cases hmap : plri.mapEnabledFlag with
  | false =>
    rw [hmap] at h
    obtain ⟨-, rfl⟩ := Prod.mk.inj (Option.some.inj h)
    exact Cursor.Takes.refl c
  | true =>
    rw [hmap, Reader.whenElse_true] at h
    obtain ⟨levelFlag, c₁, hlevel, h⟩ := Reader.bind_run_eq_some.mp h
    split_ifs at h with hfalse
    · have hone : c.Takes c₁ 1 := by
        cases hsignals : plri.signalsLevel plrd with
        | true =>
          rw [hsignals] at hlevel
          exact readFlag_takes hlevel
        | false =>
          rw [hsignals] at hlevel
          obtain ⟨rfl, -⟩ := Prod.mk.inj (Option.some.inj hlevel)
          exact absurd hfalse (by decide)
      have hblocks : Reader.Forward
          (Reader.repeatFrom 0 plrd.blockCount (plrBlock plrd plri.bitCountMode)) :=
        Reader.Forward.repeatFrom (fun i => hflag.bind fun present =>
          (Reader.Forward.whenElse _ hmode).bind fun mode => Reader.Forward.pure _) 0 _
      exact hone.trans ((hblocks.bind fun blocks => Reader.Forward.pure _) _ _ _ h)
    · obtain ⟨presentFlag, c₂, hpresent, h⟩ := Reader.bind_run_eq_some.mp h
      have hskip := (Reader.Forward.whenElse true hflag) _ _ _ hlevel
      have hrest := ((Reader.Forward.whenElse _ hmode).bind fun mode => Reader.Forward.pure _)
        _ _ _ h
      exact (hskip.trans (readFlag_takes hpresent)).trans hrest

theorem plrMapLoop_takes {maps : List PLRInformation} {plrd plrd' : PLRData} {c c' : Cursor}
    (h : plrMapLoop plrd maps c = some (plrd', c')) :
    c.Takes c' (maps.map (·.mapEnabledFlag.toNat)).sum := by
  induction maps generalizing plrd c with
  | nil =>
    obtain ⟨-, rfl⟩ := Prod.mk.inj (Option.some.inj h)
    exact Cursor.Takes.refl c
  | cons plri maps ih =>
    obtain ⟨next, c₁, hmap, hrest⟩ := Reader.bind_run_eq_some.mp h
    rw [List.map_cons, List.sum_cons]
    exact (plrMap_takes hmap).trans (ih hrest)

end PCCBitstreamReader

theorem lostPatch_parameters (h : ctx.LosesPlrData) :
    RoundTrip (PCCBitstreamWriter.patchInformationData ctx lostPatch)
      (PCCBitstreamReader.mergeParameters ctx)
      { override3dParamsFlag := true, overridePlrFlag := true } := by
  obtain ⟨htype, henabled, hactive, -⟩ := h
  obtain ⟨active, hactive⟩ := Option.ne_none_iff_exists'.mp hactive
  have hzero : FitsSe 0 := by
    constructor <;> decide
  have hrange : RangeDCoded ctx 0 := by
    unfold RangeDCoded
    split_ifs
    · exact hzero
    · rfl
  have hwriter : PCCBitstreamWriter.patchInformationData ctx lostPatch =
      PCCBitstreamWriter.mergePatchDataUnit ctx lostPatch.mergePatchDataUnit := by
    unfold PCCBitstreamWriter.patchInformationData
    simp only [htype]
    rfl
  rw [hwriter]
  unfold PCCBitstreamWriter.mergePatchDataUnit PCCBitstreamReader.mergeParameters lostPatch
  apply RoundTrip.ofOption hactive
  apply (refIndex_roundTrip (n := 0) (by unfold FitsUe; decide) fun _ => rfl).bind
  apply (RoundTrip.flag false).bind
  unfold PCCBitstreamReader.mergeOverride3d
  simp only [Bool.false_eq_true, if_false]
  apply (RoundTrip.flag true).bind
  simp only [Writer.when_true, Reader.whenElse_true, henabled]
  apply hzero.roundTrip.bind
  apply hzero.roundTrip.bind
  apply hzero.roundTrip.bind
  apply (rangeD_roundTrip hrange).bind
  exact (RoundTrip.flag true).last rfl

/-- The end of a list takes seven bits. -/
theorem readUvlc8_end_takes {mode : ℕ} {c c' : Cursor} (hend : mode = I_END ∨ mode = P_END)
    (h : PCCBitstreamReader.readUvlc8 c = some (mode, c')) : c.Takes c' 7 := by
  obtain ⟨value, c₁, hvalue, hpure⟩ := Reader.bind_run_eq_some.mp h
  obtain ⟨hmode, rfl⟩ := Prod.mk.inj (Option.some.inj hpure)
  have hlarge : 14 ≤ value := by
    have hcode : mode = 14 := by
      rcases hend with rfl | rfl <;> rfl
    have := Nat.mod_le value (2 ^ 8)
    omega
  have hlog : 3 ≤ Nat.log2 (value + 1) := (Nat.le_log2 (by omega)).mpr (by omega)
  exact (readUvlc_takes hvalue).2.mono (by omega)

/-- Behind its parameters, the reader takes the block data of the patch and the end. -/
theorem lostPatch_takes (h : ctx.LosesPlrData) {history : TileHistory} {fuel : ℕ}
    {state state' : TileState} {params : MergePatchDataUnit} {entry : PatchInformationData}
    {c c₁ c₂ c' : Cursor} (hmode : PCCBitstreamReader.readUvlc8 c = some (P_MERGE, c₁))
    (hparams : PCCBitstreamReader.mergeParameters ctx c₁ = some (params, c₂))
    (hover : params.overridePlrFlag = true)
    (hloop : PCCBitstreamReader.patchLoop ctx history fuel [] state c =
      some (([entry], state'), c')) : c₂.Takes c' 8 := by
  obtain ⟨htype, henabled, -, maps, hmaps, plri, hplri, hmap⟩ := h
  cases fuel with
  | zero => exact absurd hloop (by simp [PCCBitstreamReader.patchLoop, Reader.fail])
  | succ fuel =>
    unfold PCCBitstreamReader.patchLoop at hloop
    rw [Reader.bind_run_of_eq_some hmode, if_neg (by decide)] at hloop
    obtain ⟨⟨first, state₁⟩, c₃, hfirst, hloop⟩ := Reader.bind_run_eq_some.mp hloop
    have hdata : c₂.Takes c₃ 1 := by
      unfold PCCBitstreamReader.patchInformationData PCCBitstreamReader.mergePatch
        PCCBitstreamReader.mergePatchDataUnit at hfirst
      simp only [htype] at hfirst
      rw [if_neg (by decide), if_pos trivial] at hfirst
      obtain ⟨⟨mpdu, state₂⟩, c₄, hunit, hfirst⟩ := Reader.bind_run_eq_some.mp hfirst
      obtain ⟨-, rfl⟩ := Prod.mk.inj (Option.some.inj hfirst)
      rw [Reader.bind_run_of_eq_some hparams, if_pos (by
        unfold PCCBitstreamReader.mergeOverridesPlr
        rw [henabled, hover, Bool.or_true, Bool.and_true])] at hunit
      obtain ⟨plrd, c₅, hplrd, hunit⟩ := Reader.bind_run_eq_some.mp hunit
      obtain ⟨-, rfl⟩ := Prod.mk.inj (Option.some.inj hunit)
      unfold PCCBitstreamReader.plrData at hplrd
      rw [hmaps, Reader.ofOption_some, pure_bind] at hplrd
      apply (PCCBitstreamReader.plrMapLoop_takes hplrd).mono
      have hone : 1 ∈ maps.map (·.mapEnabledFlag.toNat) :=
        List.mem_map.mpr ⟨plri, hplri, by rw [hmap]; rfl⟩
      exact List.le_sum_of_mem hone
    have hend : c₃.Takes c' 7 := by
      cases fuel with
      | zero => exact absurd hloop (by simp [PCCBitstreamReader.patchLoop, Reader.fail])
      | succ fuel =>
        unfold PCCBitstreamReader.patchLoop at hloop
        obtain ⟨patchMode, c₄, hlast, hloop⟩ := Reader.bind_run_eq_some.mp hloop
        split_ifs at hloop with hstop
        · obtain ⟨-, rfl⟩ := Prod.mk.inj (Option.some.inj hloop)
          exact readUvlc8_end_takes hstop hlast
        · -- another patch would make the list longer
          obtain ⟨⟨second, state₂⟩, c₅, -, hloop⟩ := Reader.bind_run_eq_some.mp hloop
          have := List.IsPrefix.length_le (patchLoop_extends hloop)
          simp at this
    exact hdata.trans hend

/-- The reader looks for the block data of the patch in the bits that end the tile. -/
theorem not_roundTrips_lostPatch (h : ctx.LosesPlrData) (history : TileHistory)
    (state : TileState) {last : PatchInformationData} (hlast : last.patchMode = P_END) :
    ¬ TileDataUnitRoundTrips ctx history state [lostPatch] last := by
  rintro ⟨state', hround⟩
  have hnotSkip : ctx.ath.type ≠ .skipTile := by
    rw [h.1]
    decide
  obtain ⟨bs, hwrite, hread⟩ := hround 0
  have hread := hread []
  -- the writer leaves the mode, the parameters and the seven bits of the end
  unfold PCCBitstreamWriter.atlasTileDataUnit at hwrite
  rw [if_neg hnotSkip] at hwrite
  simp only [List.singleton_append, Writer.forEach_cons, Writer.forEach_nil, hlast,
    patchInformationData_end hlast, bind_assoc, pure_bind] at hwrite
  obtain ⟨⟨⟩, ms, rs, hms, hrs, rfl⟩ := Writer.bind_run_eq_some.mp hwrite
  obtain ⟨⟨⟩, ps, es, hps, hes, rfl⟩ := Writer.bind_run_eq_some.mp hrs
  have hend : es.length = 7 := by
    obtain ⟨⟨⟩, es', ns, hes', hns, rfl⟩ := Writer.bind_run_eq_some.mp hes
    obtain ⟨-, rfl⟩ := Prod.mk.inj (Option.some.inj hns)
    rw [List.append_nil, length_writeUvlc (by decide) hes']
    rfl
  -- the reader finds the parameters, and needs eight bits more
  have hmode := RoundTrip.read_of_write (roundTrip_uvlc8 (show P_MERGE < 2 ^ 8 by decide)) hms
  have hparams := RoundTrip.read_of_write (lostPatch_parameters h) hps
  unfold PCCBitstreamReader.atlasTileDataUnit at hread
  rw [if_neg hnotSkip] at hread
  obtain ⟨fuel, c₁, hfuel, hread⟩ := Reader.bind_run_eq_some.mp hread
  obtain ⟨-, rfl⟩ := Prod.mk.inj (Option.some.inj hfuel)
  obtain ⟨⟨patches, state₁⟩, c₂, hloop, hread⟩ := Reader.bind_run_eq_some.mp hread
  obtain ⟨hpair, rfl⟩ := Prod.mk.inj (Option.some.inj hread)
  obtain ⟨rfl, -⟩ := Prod.mk.inj hpair
  rw [List.append_nil] at hloop
  have htakes := lostPatch_takes h (hmode _) (hparams _) rfl hloop
  have hlength : ([] : List Bool).length + 8 ≤ es.length := htakes
  rw [List.length_nil] at hlength
  omega

end Loss

/-! ### When tiles are read back -/

/-- The lists of a tile that have a fitting block map for every patch are read back, all of
them, when no patch of the tile can lose its block data. In the other tiles those without such
a patch are. A list with other block maps never is. -/
theorem tileDataUnitRoundTrips_iff (ctx : TileContext) (history : TileHistory)
    (state : TileState) {last : PatchInformationData} (hlast : last.patchMode = P_END) :
    ((∀ pids : List PatchInformationData, (∀ pid ∈ pids, pid.Coded ctx) →
        (TileDataUnitRoundTrips ctx history state pids last ↔
          BlockSizesFit ctx history [] { prevFrameIndex := state.prevFrameIndex } pids)) ↔
      ¬ ctx.LosesPlrData) ∧
    ∀ pids : List PatchInformationData, (∀ pid ∈ pids, pid.Coded ctx) →
      (∀ pid ∈ pids, ¬ pid.LosesPlrData ctx) →
        (TileDataUnitRoundTrips ctx history state pids last ↔
          BlockSizesFit ctx history [] { prevFrameIndex := state.prevFrameIndex } pids) := by
  have hkept : ∀ pids : List PatchInformationData, (∀ pid ∈ pids, pid.Coded ctx) →
      (∀ pid ∈ pids, ¬ pid.LosesPlrData ctx) →
        (TileDataUnitRoundTrips ctx history state pids last ↔
          BlockSizesFit ctx history [] { prevFrameIndex := state.prevFrameIndex } pids) :=
    fun pids hcoded hloses => ⟨blockSizesFit_of_roundTrips,
      fun hsizes => tileDataUnitRoundTrips_of_fit hlast hcoded hsizes hloses⟩
  refine ⟨⟨fun hall hloses => ?_, fun hnever pids hcoded => ?_⟩, hkept⟩
  · have hone : ∀ pid ∈ [lostPatch], pid.Coded ctx := by
      intro pid hpid
      rw [List.mem_singleton.mp hpid]
      exact lostPatch_coded hloses
    apply not_roundTrips_lostPatch hloses history state hlast
    rw [hall [lostPatch] hone]
    exact ⟨lostPatch_sizesFit hloses _ _, trivial⟩
  · exact hkept pids hcoded fun pid hpid hpidLoses =>
      hnever (hpidLoses.tile (hcoded pid hpid))

/-- A P tile with block data for one map, whose patches have one mode to choose. -/
def lossyTile : TileContext :=
  let plri : PLRInformation := { mapEnabledFlag := true, numberOfModesMinus1 := 1 }
  let ath : AtlasTileHeader := { type := .pTile, numRefIdxActiveOverrideFlag := true }
  let asps : AtlasSequenceParameterSetRbsp :=
    { plrEnabledFlag := true, plrInformation := [plri] }
  { ath, afps := {}, asps }

def twoBlocksData : PLRData where
  blockToPatchMapWidth := 2
  blockToPatchMapHeight := 1
  blockPresentFlag := [true, false]
  blockModeMinus1 := [1, 0]

def twoBitTile : TileContext :=
  let plri : PLRInformation := { mapEnabledFlag := true, numberOfModesMinus1 := 3 }
  { lossyTile with asps := { plrEnabledFlag := true, plrInformation := [plri] } }

/-- An intra patch of two blocks, a skip patch and a raw patch of ten points. -/
def mixedPatches : List PatchInformationData :=
  let patchDataUnit : PatchDataUnit :=
    { pos2dX := 3, size2dXMinus1 := 1, pos3dOffsetU := 1, lodScaleYIdc := 0,
      plrData := twoBlocksData }
  let rawPatchDataUnit : RawPatchDataUnit := { pos2dX := 5, rawPointsMinus1 := 9 }
  [{ patchMode := P_INTRA, patchDataUnit }, { patchMode := P_SKIP },
    { patchMode := P_RAW, rawPatchDataUnit }]

theorem twoBlocksData_coded : twoBlocksData.Coded twoBitTile.asps.plrInformation where
  width_lt := by decide
  height_lt := by decide
  present_length := rfl
  mode_length := rfl
  mode_lt := by decide
  blockMode_lt := by decide
  noMap hnone := absurd (hnone _ List.mem_cons_self) (by decide)
  patch hlevel := absurd hlevel (by decide)
  blocks _ := by
    refine ⟨rfl, rfl, fun i hi => ?_⟩
    match i with
    | 0 => cases hi
    | 1 => rfl
  fits plri hplri _ := by
    rw [List.mem_singleton.mp hplri]
    refine ⟨fun hlevel => absurd hlevel (by decide), fun hpresent => absurd hpresent (by decide),
      fun i mode hi hmode => ?_⟩
    match i with
    | 0 =>
      rw [← Option.some.inj hmode]
      exact ⟨by decide, by decide⟩
    | 1 => cases hi

theorem mixedPatches_coded : ∀ pid ∈ mixedPatches, pid.Coded twoBitTile := by
  intro pid hpid
  rcases List.mem_cons.mp hpid with rfl | hpid
  · refine Or.inr (Or.inr (Or.inl ⟨rfl, ?_⟩))
    constructor
    case plrData => exact ⟨_, rfl, twoBlocksData_coded⟩
    case lodEnableFlag => exact fun _ => rfl
    case pos3dRangeD | lodScaleXMinus1 | lodScaleYIdc => exact rfl
    case pos2dX | pos2dY | size2dXMinus1 | size2dYMinus1 => unfold FitsUe; decide
    all_goals exact ⟨by decide, by decide⟩
  rcases List.mem_cons.mp hpid with rfl | hpid
  · exact Or.inl rfl
  · rw [List.mem_singleton.mp hpid]
    refine Or.inr (Or.inr (Or.inr (Or.inr (Or.inl ⟨rfl, ?_⟩))))
    constructor
    case patchInAuxiliaryVideoFlag => exact ⟨false, rfl, fun _ => rfl⟩
    case pos2dX | pos2dY | size2dXMinus1 | size2dYMinus1 | rawPointsMinus1 =>
      unfold FitsUe; decide
    all_goals exact ⟨by decide, by decide⟩

theorem tileDataUnitRoundTrips_mixed :
    TileDataUnitRoundTrips twoBitTile ⟨[], 0⟩ {} mixedPatches { patchMode := P_END } := by
  have hlast : ({ patchMode := P_END } : PatchInformationData).patchMode = P_END := rfl
  have hkept := (tileDataUnitRoundTrips_iff twoBitTile ⟨[], 0⟩ {} hlast).2 mixedPatches
  apply (hkept mixedPatches_coded _).mpr
  · refine ⟨?_, ?_, ?_, trivial⟩
    · intro plrd hplrd
      obtain rfl : twoBlocksData = plrd := Option.some.inj hplrd
      exact ⟨2, 1, rfl, rfl, rfl⟩
    · intro plrd hplrd
      cases hplrd
    · intro plrd hplrd
      cases hplrd
  · intro pid hpid hloses
    have hmode : ∀ pid ∈ mixedPatches, pid.patchMode ≠ P_MERGE := by decide
    exact hmode pid hpid hloses.2.1

theorem not_tileDataUnitRoundTrips_merge :
    lostPatch.Coded lossyTile ∧
      BlockSizesFit lossyTile ⟨[], 0⟩ [] {} [lostPatch] ∧
      ¬ TileDataUnitRoundTrips lossyTile ⟨[], 0⟩ {} [lostPatch] { patchMode := P_END } := by
  have hloses : lossyTile.LosesPlrData := by
    refine ⟨rfl, rfl, by decide, lossyTile.asps.plrInformation, rfl, ?_⟩
    exact ⟨_, List.mem_singleton_self _, rfl⟩
  exact ⟨lostPatch_coded hloses, ⟨lostPatch_sizesFit hloses _ 0, trivial⟩,
    not_roundTrips_lostPatch hloses _ _ rfl⟩

end V3C

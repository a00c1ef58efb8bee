import V3C.Syntax.ParameterSetWriter
import V3C.Syntax.V3CParameterSetExact
import V3C.Syntax.TileHeaderRoundTrip

/-! Which atlas sequence parameter sets come back as they are. -/
namespace Codec

variable {α β : Type}

namespace Writer

theorem forEach_map (g : α → β) (f : β → Writer Unit) (xs : List α) :
    forEach (xs.map g) f = forEach xs fun x => f (g x) := by
  induction xs with
  | nil => rfl
  | cons x xs ih => rw [List.map_cons, forEach_cons, ih, forEach_cons]

/-- A loop over indices that looks up an entry is a loop over the entries. -/
theorem forEach_range (xs : List α) (f : α → Writer Unit) {n : ℕ} (h : n ≤ xs.length) :
    forEach (List.range n) (fun i => ofOption xs[i]? >>= f) = forEach (xs.take n) f := by
  induction xs generalizing n with
  | nil =>
    obtain rfl : n = 0 := Nat.le_zero.mp h
    rfl
  | cons x xs ih =>
    cases n with
    | zero => rfl
    | succ n =>
      have htail := ih (Nat.le_of_succ_le_succ h)
      rw [List.range_succ_eq_map, forEach_cons, forEach_map, List.take_succ_cons, forEach_cons,
        ← htail, List.getElem?_cons_zero, ofOption_some, pure_bind]
      rfl

theorem when_bind (c : Bool) (w w' : Writer Unit) :
    when c (w >>= fun _ => w') = when c w >>= fun _ => when c w' := by
  cases c with
  | true => rfl
  | false => exact (pure_bind () fun _ => pure ()).symm

end Writer

/-- A loop over indices against a loop with one and the same parser. -/
theorem RoundTrip.forEach_range {f : α → Writer Unit} {r : Reader α} {xs : List α} {n : ℕ} (k : ℕ)
    (hlength : n ≤ xs.length) (h : ∀ x ∈ xs.take n, RoundTrip (f x) r x) :
    RoundTrip (Writer.forEach (List.range n) fun i => Writer.ofOption xs[i]? >>= f)
      (Reader.repeatFrom k n fun _ => r) (xs.take n) := by
  have hloop := RoundTrip.forEach_repeat_self (xs.take n) k h
  rw [List.length_take_of_le hlength] at hloop
  rwa [Writer.forEach_range xs f hlength]

/-- The same where the loop goes over all entries. -/
theorem RoundTrip.forEach_range_all {f : α → Writer Unit} {r : Reader α} {xs : List α} {n : ℕ}
    (k : ℕ) (hlength : xs.length = n) (h : ∀ x ∈ xs, RoundTrip (f x) r x) :
    RoundTrip (Writer.forEach (List.range n) fun i => Writer.ofOption xs[i]? >>= f)
      (Reader.repeatFrom k n fun _ => r) xs := by
  have htake : xs.take n = xs := List.take_of_length_le hlength.le
  have hloop := RoundTrip.forEach_range (f := f) (r := r) k hlength.ge
    (by rwa [htake])
  rwa [htake] at hloop

end Codec

namespace Codec.Reader.Ensures

variable {α : Type} {P : α → Prop}

/-- Whatever `r` reads under the flag, without it the value is the default. -/
theorem default (b : Bool) (r : Reader α) (d : α) :
    Ensures (Reader.whenElse b r d) fun a => b = false → a = d :=
  flagged (fun hpresent c a c' _ hnone => by simp [hpresent] at hnone) fun _ _ => rfl

theorem with_default {b : Bool} {r : Reader α} {d : α} (h : Ensures r P) (hd : P d) :
    Ensures (Reader.whenElse b r d) fun a => P a ∧ (b = false → a = d) :=
  fun c a c' hrun => ⟨whenElse h hd c a c' hrun, default b r d c a c' hrun⟩

end Codec.Reader.Ensures

namespace V3C
open Codec

/-- The elements fit their bits. -/
structure RefListEntry.InRange (log2MaxAtlasFrameOrderCntLsbMinus4 : ℕ) (entry : RefListEntry) :
    Prop where
  abs_lt : entry.absDeltaAfocSt < 2 ^ 8
  lsb_lt : entry.afocLsbLt < 2 ^ 8
  lsb_fits : entry.stRefAtlasFrameFlag = false →
    entry.afocLsbLt < 2 ^ (log2MaxAtlasFrameOrderCntLsbMinus4 + 4)

/-- Elements that are not coded have the values that the reader leaves. -/
structure RefListEntry.Restorable (longTermRefAtlasFramesFlag : Bool) (entry : RefListEntry) :
    Prop where
  st_of_not_longTerm : longTermRefAtlasFramesFlag = false → entry.stRefAtlasFrameFlag = true
  sign_of_zero : entry.stRefAtlasFrameFlag = true → entry.absDeltaAfocSt = 0 →
    entry.strafEntrySignFlag = true
  lsb_of_st : entry.stRefAtlasFrameFlag = true → entry.afocLsbLt = 0
  st_of_lt : entry.stRefAtlasFrameFlag = false →
    entry.absDeltaAfocSt = 0 ∧ entry.strafEntrySignFlag = false

theorem RefListEntry.InRange.coded {log2MaxAtlasFrameOrderCntLsbMinus4 : ℕ} {entry : RefListEntry}
    {longTermRefAtlasFramesFlag : Bool} (h : entry.InRange log2MaxAtlasFrameOrderCntLsbMinus4)
    (hrestorable : entry.Restorable longTermRefAtlasFramesFlag) :
    entry.Coded longTermRefAtlasFramesFlag log2MaxAtlasFrameOrderCntLsbMinus4 where
  st_of_not_longTerm := hrestorable.st_of_not_longTerm
  abs_lt := h.abs_lt
  sign_of_zero := hrestorable.sign_of_zero
  lsb_lt := h.lsb_lt
  lsb_fits := by
    cases hst : entry.stRefAtlasFrameFlag with
    | true =>
      rw [hrestorable.lsb_of_st hst]
      exact Nat.two_pow_pos _
    | false => exact h.lsb_fits hst
  lsb_of_st := hrestorable.lsb_of_st
  st_of_lt := hrestorable.st_of_lt

theorem RefListEntry.ensures_restorable (longTermRefAtlasFramesFlag : Bool)
    (log2MaxAtlasFrameOrderCntLsbMinus4 : ℕ) :
    Reader.Ensures (PCCBitstreamReader.refListEntry longTermRefAtlasFramesFlag
      log2MaxAtlasFrameOrderCntLsbMinus4) (Restorable longTermRefAtlasFramesFlag) := by
  unfold PCCBitstreamReader.refListEntry
  refine .then_bind (P := fun st => longTermRefAtlasFramesFlag = false → st = true) ?_ ?_
  · exact .flagged (fun hlong c st c' _ hnot => by simp [hlong] at hnot) fun _ _ => rfl
  · intro st hst
    cases st with
    | true =>
      refine .bind fun absDelta => ?_
      refine .then_bind (P := fun sign => absDelta = 0 → sign = true) ?_ fun sign hsign => ?_
      · refine .flagged (fun hpos c sign c' _ hzero => ?_) fun _ _ => rfl
        simp [hzero] at hpos
      · exact .pure ⟨fun _ => rfl, fun _ => hsign, fun _ => rfl, nofun⟩
    | false =>
      refine .bind fun lsb => .pure ?_
      exact ⟨hst, nofun, nofun, fun _ => ⟨rfl, rfl⟩⟩

structure RefListStruct.InRange (log2MaxAtlasFrameOrderCntLsbMinus4 : ℕ) (rls : RefListStruct) :
    Prop where
  count_lt : rls.entries.length < 2 ^ 8
  entries : ∀ entry ∈ rls.entries, entry.InRange log2MaxAtlasFrameOrderCntLsbMinus4

def RefListStruct.Restorable (longTermRefAtlasFramesFlag : Bool) (rls : RefListStruct) : Prop :=
  ∀ entry ∈ rls.entries, entry.Restorable longTermRefAtlasFramesFlag

theorem RefListStruct.InRange.coded {log2MaxAtlasFrameOrderCntLsbMinus4 : ℕ}
    {rls : RefListStruct} {longTermRefAtlasFramesFlag : Bool}
    (h : rls.InRange log2MaxAtlasFrameOrderCntLsbMinus4)
    (hrestorable : rls.Restorable longTermRefAtlasFramesFlag) :
    rls.Coded longTermRefAtlasFramesFlag log2MaxAtlasFrameOrderCntLsbMinus4 :=
  ⟨h.count_lt, fun entry hentry => (h.entries entry hentry).coded (hrestorable entry hentry)⟩

theorem RefListStruct.ensures_restorable (longTermRefAtlasFramesFlag : Bool)
    (log2MaxAtlasFrameOrderCntLsbMinus4 : ℕ) :
    Reader.Ensures (PCCBitstreamReader.refListStruct longTermRefAtlasFramesFlag
      log2MaxAtlasFrameOrderCntLsbMinus4) (Restorable longTermRefAtlasFramesFlag) := by
  unfold PCCBitstreamReader.refListStruct
  refine .bind fun count => ?_
  refine (Reader.Ensures.forall_of_repeatFrom (fun _ => RefListEntry.ensures_restorable
    longTermRefAtlasFramesFlag log2MaxAtlasFrameOrderCntLsbMinus4) 0 count).then_bind ?_
  exact fun entries hentries => .pure hentries.2

structure PLRMode.InRange (mode : PLRMode) : Prop where
  depth_lt : mode.minimumDepth < 2 ^ 2
  neighbour_lt : mode.neighbourMinus1 < 2 ^ 2

theorem PLRMode.InRange.roundTrip {mode : PLRMode} (h : mode.InRange) :
    RoundTrip (PCCBitstreamWriter.plrMode mode) PCCBitstreamReader.plrMode mode := by
  unfold PCCBitstreamWriter.plrMode PCCBitstreamReader.plrMode
  apply (RoundTrip.flag mode.interpolateFlag).bind
  apply (RoundTrip.flag mode.fillingFlag).bind
  apply (RoundTrip.write h.depth_lt (by decide)).bind
  exact (RoundTrip.write h.neighbour_lt (by decide)).last rfl

namespace PLRInformation

variable {plri : PLRInformation}

/-- The elements of a map that is enabled fit their bits, and it has as many modes as `allocate`
makes. -/
structure InRange (plri : PLRInformation) : Prop where
  count_lt : plri.numberOfModesMinus1 < 2 ^ 4
  modes_length : plri.mapEnabledFlag = true → plri.modes.length = plri.numberOfModesMinus1 + 1
  modes : ∀ mode ∈ plri.modes, mode.InRange
  threshold_lt : plri.blockThresholdPerPatchMinus1 < 2 ^ 6

/-- The last mode is the one that `allocate` makes, and a map that is not enabled has nothing. -/
structure Restorable (plri : PLRInformation) : Prop where
  last : plri.mapEnabledFlag = true → plri.modes[plri.numberOfModesMinus1]? = some {}
  disabled : plri.mapEnabledFlag = false → plri = {}

theorem modes_eq_of_last {modes : List PLRMode} {n : ℕ} (hlength : modes.length = n + 1)
    (hlast : modes[n]? = some {}) : modes.take n ++ [({} : PLRMode)] = modes := by
  have hget : modes.take (n + 1) = modes.take n ++ [({} : PLRMode)] := by
    rw [List.take_add_one, hlast]
    rfl
  rw [← hget, List.take_of_length_le hlength.le]

theorem InRange.roundTrip (h : plri.InRange) (hrestorable : plri.Restorable) :
    RoundTrip (PCCBitstreamWriter.plrInformationMap plri) PCCBitstreamReader.plrInformationMap
      plri := by
  unfold PCCBitstreamWriter.plrInformationMap PCCBitstreamReader.plrInformationMap
  apply (RoundTrip.flag plri.mapEnabledFlag).bind
  by_cases henabled : plri.mapEnabledFlag = true
  · have hlength := h.modes_length henabled
    have hmodes : plri.modes.take plri.numberOfModesMinus1 ++ [({} : PLRMode)] = plri.modes :=
      modes_eq_of_last hlength (hrestorable.last henabled)
    rw [if_pos henabled, henabled, Writer.when_true]
    apply (RoundTrip.write h.count_lt (by decide)).bind
    apply RoundTrip.bind (x := plri.modes.take plri.numberOfModesMinus1)
    · apply RoundTrip.forEach_range 0 (by omega)
      intro mode hmode
      exact (h.modes mode (List.mem_of_mem_take hmode)).roundTrip
    · apply (RoundTrip.write h.threshold_lt (by decide)).last
      rw [hmodes, ← henabled]
  · have hdisabled : plri.mapEnabledFlag = false := by simpa using henabled
    rw [if_neg henabled, hdisabled, Writer.when_false, ← hrestorable.disabled hdisabled]
    exact RoundTrip.pure plri

theorem ensures_restorable :
    Reader.Ensures PCCBitstreamReader.plrInformationMap Restorable := by
  unfold PCCBitstreamReader.plrInformationMap
  refine .bind fun enabled => ?_
  cases enabled with
  | true =>
    refine .bind fun count => ?_
    have hmodes := Reader.Ensures.forall_of_repeatFrom (P := fun _ : PLRMode => True)
      (f := fun _ => PCCBitstreamReader.plrMode) (fun _ _ _ _ _ => trivial) 0 count
    refine hmodes.then_bind fun modes hlength => .bind fun threshold => .pure ⟨fun _ => ?_, nofun⟩
    have hlast : (modes ++ [({} : PLRMode)])[modes.length]? = some {} := List.getElem?_concat_length
    rwa [hlength.1] at hlast
  | false => exact .pure ⟨nofun, fun _ => rfl⟩

end PLRInformation

namespace AtlasSequenceParameterSetRbsp

variable {asps : AtlasSequenceParameterSetRbsp}

/-- A set without VUI, whose elements fit their bits and whose vectors have the lengths that
the counts give them. -/
structure InRange (asps : AtlasSequenceParameterSetRbsp) : Prop where
  id_lt : asps.atlasSequenceParameterSetId < 2 ^ 8
  width_lt : asps.frameWidth < 2 ^ 16
  height_lt : asps.frameHeight < 2 ^ 16
  geometry3d_lt : asps.geometry3dBitdepthMinus1 < 2 ^ 5
  geometry2d_lt : asps.geometry2dBitdepthMinus1 < 2 ^ 5
  log2Max_le : asps.log2MaxAtlasFrameOrderCntLsbMinus4 + 4 ≤ 32
  buffering_lt : asps.maxDecAtlasFrameBufferingMinus1 < 2 ^ 8
  lists_lt : asps.numRefAtlasFrameListsInAsps < 2 ^ 8
  lists_length : asps.refListStruct.length = asps.numRefAtlasFrameListsInAsps
  lists : ∀ rls ∈ asps.refListStruct, rls.InRange asps.log2MaxAtlasFrameOrderCntLsbMinus4
  projections_lt : asps.maxNumberProjectionsMinus1 + 1 < 2 ^ 32
  blockSize_lt : asps.log2PatchPackingBlockSize < 2 ^ 3
  mapCount_lt : asps.mapCountMinus1 < 2 ^ 4
  interleaving_length : asps.pixelDeinterleavingFlag = true →
    asps.pixelDeinterleavingMapFlag.length = asps.mapCountMinus1 + 1
  eomFixBitCount_lt : asps.eomFixBitCountMinus1 < 2 ^ 4
  plr_length : asps.plrEnabledFlag = true → asps.plrInformation.length = asps.mapCountMinus1 + 1
  plr : ∀ plri ∈ asps.plrInformation, plri.InRange
  noVui : asps.vuiParametersPresentFlag = false
  vui : asps.vuiParameters = {}
  extension_lt : asps.extension7Bits < 2 ^ 7
  thickness_lt : asps.aspsVpccExtension.surfaceThicknessMinus1 < 2 ^ 7

/-- The last mode of each PLR information is the default, and what is not coded has the value
that the reader leaves. -/
structure Restorable (asps : AtlasSequenceParameterSetRbsp) : Prop where
  plr : ∀ plri ∈ asps.plrInformation, plri.Restorable
  noPlr : asps.plrEnabledFlag = false → asps.plrInformation = []
  lists : ∀ rls ∈ asps.refListStruct, rls.Restorable asps.longTermRefAtlasFramesFlag
  projections : asps.extendedProjectionEnabledFlag = false → asps.maxNumberProjectionsMinus1 = 5
  noInterleaving : asps.pixelDeinterleavingFlag = false → asps.pixelDeinterleavingMapFlag = []
  noEomFix : (asps.eomPatchEnabledFlag && asps.mapCountMinus1 == 0) = false →
    asps.eomFixBitCountMinus1 = 0
  noAuxiliary : (asps.rawPatchEnabledFlag || asps.eomPatchEnabledFlag) = false →
    asps.auxiliaryVideoEnabledFlag = false
  noExtension : asps.extensionFlag = false →
    asps.vpccExtensionFlag = false ∧ asps.extension7Bits = 0
  noVpcc : asps.vpccExtensionFlag = false → asps.aspsVpccExtension = {}
  noThickness : (asps.pixelDeinterleavingFlag || asps.plrEnabledFlag) = false →
    asps.aspsVpccExtension.surfaceThicknessMinus1 = 0

/-- The set is read back from what is written, up to the last bit, which is that of a byte. -/
def RoundTrips (asps : AtlasSequenceParameterSetRbsp) : Prop :=
  RoundTrip (PCCBitstreamWriter.atlasSequenceParameterSetRbsp asps)
      PCCBitstreamReader.atlasSequenceParameterSetRbsp asps ∧
    Writer.Aligned (PCCBitstreamWriter.atlasSequenceParameterSetRbsp asps)

theorem writer_aligned (asps : AtlasSequenceParameterSetRbsp) :
    Writer.Aligned (PCCBitstreamWriter.atlasSequenceParameterSetRbsp asps) := by
  unfold PCCBitstreamWriter.atlasSequenceParameterSetRbsp
  iterate 32
    apply Writer.Aligned.bind
    intro _
  exact PCCBitstreamWriter.byteAlignment_aligned

theorem InRange.plr_roundTrip (h : asps.InRange) (hrestorable : asps.Restorable)
    (henabled : asps.plrEnabledFlag = true) :
    RoundTrip (PCCBitstreamWriter.plrInformation asps)
      (PCCBitstreamReader.plrInformation asps.mapCountMinus1) asps.plrInformation := by
  unfold PCCBitstreamWriter.plrInformation PCCBitstreamReader.plrInformation
  apply RoundTrip.forEach_range_all 0 (h.plr_length henabled)
  intro plri hplri
  exact (h.plr plri hplri).roundTrip (hrestorable.plr plri hplri)

theorem InRange.extension_roundTrip (h : asps.InRange) (hrestorable : asps.Restorable) :
    RoundTrip (PCCBitstreamWriter.aspsVpccExtension asps asps.aspsVpccExtension)
      (PCCBitstreamReader.aspsVpccExtension (asps.pixelDeinterleavingFlag || asps.plrEnabledFlag))
      asps.aspsVpccExtension := by
  unfold PCCBitstreamWriter.aspsVpccExtension PCCBitstreamReader.aspsVpccExtension
  apply (RoundTrip.flag asps.aspsVpccExtension.removeDuplicatePointEnableFlag).bind
  have hthickness := RoundTrip.when_whenElse
    (fun _ => RoundTrip.write h.thickness_lt (by decide)) hrestorable.noThickness
  exact hthickness.last rfl

theorem InRange.lists_roundTrip (h : asps.InRange) (hrestorable : asps.Restorable) :
    RoundTrip
      (Writer.forEach (List.range asps.numRefAtlasFrameListsInAsps) fun i =>
        Writer.ofOption asps.refListStruct[i]? >>=
          PCCBitstreamWriter.refListStruct asps.longTermRefAtlasFramesFlag
            asps.log2MaxAtlasFrameOrderCntLsbMinus4)
      (Reader.repeatFrom 0 asps.numRefAtlasFrameListsInAsps fun _ =>
        PCCBitstreamReader.refListStruct asps.longTermRefAtlasFramesFlag
          asps.log2MaxAtlasFrameOrderCntLsbMinus4) asps.refListStruct := by
  apply RoundTrip.forEach_range_all 0 h.lists_length
  intro rls hrls
  exact ((h.lists rls hrls).coded (hrestorable.lists rls hrls)).roundTrip h.log2Max_le

theorem InRange.roundTrip (h : asps.InRange) (hrestorable : asps.Restorable) :
    RoundTrip (PCCBitstreamWriter.atlasSequenceParameterSetRbsp asps)
      PCCBitstreamReader.atlasSequenceParameterSetRbsp asps := by
  unfold PCCBitstreamWriter.atlasSequenceParameterSetRbsp
    PCCBitstreamReader.atlasSequenceParameterSetRbsp
  simp only [Writer.when_bind, bind_assoc]
  apply (roundTrip_uvlc8 h.id_lt).bind
  apply (roundTrip_uvlc16 h.width_lt).bind
  apply (roundTrip_uvlc16 h.height_lt).bind
  apply (RoundTrip.write h.geometry3d_lt (by decide)).bind
  apply (RoundTrip.write h.geometry2d_lt (by decide)).bind
  apply (roundTrip_uvlc8 (by have := h.log2Max_le; omega)).bind
  apply (roundTrip_uvlc8 h.buffering_lt).bind
  apply (RoundTrip.flag _).bind
  apply (roundTrip_uvlc8 h.lists_lt).bind
  apply (h.lists_roundTrip hrestorable).bind
  apply (RoundTrip.flag _).bind
  apply (RoundTrip.flag _).bind
  apply RoundTrip.bind (x := asps.maxNumberProjectionsMinus1)
  · exact RoundTrip.when_whenElse (fun _ => RoundTrip.uvlc h.projections_lt)
      hrestorable.projections
  apply (RoundTrip.flag _).bind
  apply (RoundTrip.flag _).bind
  apply (RoundTrip.flag _).bind
  apply (RoundTrip.write h.blockSize_lt (by decide)).bind
  apply (RoundTrip.flag _).bind
  apply (RoundTrip.write h.mapCount_lt (by decide)).bind
  apply (RoundTrip.flag _).bind
  apply RoundTrip.bind (x := asps.pixelDeinterleavingMapFlag)
  · apply RoundTrip.when_whenElse
    · intro hinterleaving
      exact RoundTrip.forEach_range_all 0 (h.interleaving_length hinterleaving)
        fun flag _ => RoundTrip.flag flag
    · exact hrestorable.noInterleaving
  apply (RoundTrip.flag _).bind
  apply (RoundTrip.flag _).bind
  apply RoundTrip.bind (x := asps.eomFixBitCountMinus1)
  · exact RoundTrip.when_whenElse
      (fun _ => RoundTrip.write h.eomFixBitCount_lt (by decide)) hrestorable.noEomFix
  apply RoundTrip.bind (x := asps.auxiliaryVideoEnabledFlag)
  · exact RoundTrip.when_whenElse (fun _ => RoundTrip.flag _) hrestorable.noAuxiliary
  apply (RoundTrip.flag _).bind
  apply RoundTrip.bind (x := asps.plrInformation)
  · exact RoundTrip.when_whenElse (h.plr_roundTrip hrestorable) hrestorable.noPlr
  apply (RoundTrip.flag _).bind
  apply RoundTrip.bind (x := asps.vuiParameters)
  · rw [h.noVui, h.vui]
    exact RoundTrip.pure _
  apply (RoundTrip.flag _).bind
  apply RoundTrip.bind (x := asps.vpccExtensionFlag)
  · exact RoundTrip.when_whenElse (fun _ => RoundTrip.flag _)
      fun hnone => (hrestorable.noExtension hnone).1
  apply RoundTrip.bind (x := asps.extension7Bits)
  · exact RoundTrip.when_whenElse (fun _ => RoundTrip.write h.extension_lt (by decide))
      fun hnone => (hrestorable.noExtension hnone).2
  apply RoundTrip.bind (x := asps.aspsVpccExtension)
  · exact RoundTrip.when_whenElse (fun _ => h.extension_roundTrip hrestorable) hrestorable.noVpcc
  exact byteAlignment_roundTrip.last rfl

theorem aspsVpccExtension_ensures (thickness : Bool) :
    Reader.Ensures (PCCBitstreamReader.aspsVpccExtension thickness)
      fun ext => thickness = false → ext.surfaceThicknessMinus1 = 0 := by
  unfold PCCBitstreamReader.aspsVpccExtension
  refine .bind fun flag => ?_
  refine .then_bind (P := fun surface => thickness = false → surface = 0) ?_ fun _ h => .pure h
  exact .flagged (fun hpresent c a c' _ hnone => by simp [hpresent] at hnone) fun _ _ => rfl

theorem plrInformation_ensures (mapCountMinus1 : ℕ) :
    Reader.Ensures (PCCBitstreamReader.plrInformation mapCountMinus1)
      fun plr => ∀ plri ∈ plr, plri.Restorable := by
  unfold PCCBitstreamReader.plrInformation
  exact (Reader.Ensures.forall_of_repeatFrom (fun _ => PLRInformation.ensures_restorable) _ _).mono
    fun _ h => h.2

theorem refLists_ensures (longTermRefAtlasFramesFlag : Bool)
    (log2MaxAtlasFrameOrderCntLsbMinus4 n : ℕ) :
    Reader.Ensures (Reader.repeatFrom 0 n fun _ => PCCBitstreamReader.refListStruct
        longTermRefAtlasFramesFlag log2MaxAtlasFrameOrderCntLsbMinus4)
      fun lists => ∀ rls ∈ lists, rls.Restorable longTermRefAtlasFramesFlag :=
  (Reader.Ensures.forall_of_repeatFrom (fun _ => RefListStruct.ensures_restorable _ _) _ _).mono
    fun _ h => h.2

theorem ensures_restorable :
    Reader.Ensures PCCBitstreamReader.atlasSequenceParameterSetRbsp Restorable := by
  unfold PCCBitstreamReader.atlasSequenceParameterSetRbsp
  iterate 9
    apply Reader.Ensures.bind
    intro _
  refine (refLists_ensures _ _ _).then_bind fun lists hlists => ?_
  refine .bind fun _ => .bind fun _ => ?_
  refine (Reader.Ensures.default _ _ _).then_bind fun projections hprojections => ?_
  iterate 7
    apply Reader.Ensures.bind
    intro _
  refine (Reader.Ensures.default _ _ _).then_bind fun interleaving hinterleaving => ?_
  refine .bind fun _ => .bind fun _ => ?_
  refine (Reader.Ensures.default _ _ _).then_bind fun eomFix heomFix => ?_
  refine (Reader.Ensures.default _ _ _).then_bind fun auxiliary hauxiliary => ?_
  refine .bind fun plrEnabled => ?_
  refine (Reader.Ensures.with_default (plrInformation_ensures _)
    fun _ hmem => absurd hmem List.not_mem_nil).then_bind fun plr hplr => ?_
  iterate 3
    apply Reader.Ensures.bind
    intro _
  refine (Reader.Ensures.default _ _ _).then_bind fun vpcc hvpcc => ?_
  refine (Reader.Ensures.default _ _ _).then_bind fun extension hextension => ?_
  refine (Reader.Ensures.with_default (aspsVpccExtension_ensures _)
    fun _ => rfl).then_bind fun ext hext => ?_
  refine .bind fun _ => .pure ?_
  exact {
    plr := hplr.1
    noPlr := hplr.2
    lists := hlists
    projections := hprojections
    noInterleaving := hinterleaving
    noEomFix := heomFix
    noAuxiliary := hauxiliary
    noExtension := fun hnone => ⟨hvpcc hnone, hextension hnone⟩
    noVpcc := hext.2
    noThickness := hext.1 }

/-- A set comes back exactly if the reader can give it. -/
theorem roundTrips_iff (h : asps.InRange) : asps.RoundTrips ↔ asps.Restorable := by
  constructor
  · intro hround
    obtain ⟨bs, -, hread⟩ := hround.1 0
    exact ensures_restorable _ _ _ (hread [])
  · exact fun hrestorable => ⟨h.roundTrip hrestorable, writer_aligned asps⟩

end AtlasSequenceParameterSetRbsp

end V3C

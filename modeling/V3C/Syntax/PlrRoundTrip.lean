import V3C.Syntax.TileDataUnitReader

/-! Point local reconstruction data is read back when the reader allocates its block map
in the size it was written with. -/
namespace V3C
open Codec

/-- A value of a `u(n)` element. No more than 32 bits are written at once. -/
def FitsU (n value : ℕ) : Prop := n ≤ 32 ∧ value < 2 ^ n

/-- A value of a `ue(v)` element. -/
def FitsUe (value : ℕ) : Prop := value + 1 < 2 ^ 32

/-- A value of a `se(v)` element. -/
def FitsSe (value : ℤ) : Prop := -2 ^ 31 < value ∧ value < 2 ^ 31

theorem FitsU.roundTrip {n value : ℕ} (h : FitsU n value) :
    RoundTrip (write value n) (read n) value := RoundTrip.write h.2 h.1

theorem FitsUe.roundTrip {value : ℕ} (h : FitsUe value) :
    RoundTrip (writeUvlc value) readUvlc value := RoundTrip.uvlc h

theorem FitsSe.roundTrip {value : ℤ} (h : FitsSe value) :
    RoundTrip (writeSvlc value) readSvlc value := RoundTrip.svlc h.1 h.2

theorem roundTrip_uvlc8 {value : ℕ} (h : value < 2 ^ 8) :
    RoundTrip (writeUvlc value) PCCBitstreamReader.readUvlc8 value :=
  (RoundTrip.uvlc (by omega)).last (Nat.mod_eq_of_lt h)

/-- A mode that is present is within the bits that one map has for it. -/
structure PLRData.FitsMap (plrd : PLRData) (plri : PLRInformation) : Prop where
  level : plri.signalsLevel plrd = false → plrd.levelFlag = true
  mode : plrd.presentFlag = true → FitsU plri.bitCountMode plrd.modeMinus1
  blockMode : ∀ i mode : ℕ, plrd.blockPresentFlag[i]? = some true →
    plrd.blockModeMinus1[i]? = some mode → FitsU plri.bitCountMode mode

/-- Block data of a patch as one can code it: what is not coded has its default, and what
is coded is within the bits of every map that codes it. -/
structure PLRData.Coded (plrd : PLRData) (maps : List PLRInformation) : Prop where
  width_lt : plrd.blockToPatchMapWidth < 2 ^ 64
  height_lt : plrd.blockToPatchMapHeight < 2 ^ 64
  present_length : plrd.blockPresentFlag.length = plrd.blockCount
  mode_length : plrd.blockModeMinus1.length = plrd.blockCount
  mode_lt : plrd.modeMinus1 < 2 ^ 8
  blockMode_lt : ∀ mode ∈ plrd.blockModeMinus1, mode < 2 ^ 8
  noMap : (∀ plri ∈ maps, plri.mapEnabledFlag = false) →
    plrd = PLRData.allocate plrd.blockToPatchMapWidth plrd.blockToPatchMapHeight
  patch : plrd.levelFlag = true → (plrd.presentFlag = false → plrd.modeMinus1 = 0) ∧
    plrd.blockPresentFlag = List.replicate plrd.blockCount false ∧
    plrd.blockModeMinus1 = List.replicate plrd.blockCount 0
  blocks : plrd.levelFlag = false → plrd.presentFlag = false ∧ plrd.modeMinus1 = 0 ∧
    ∀ i : ℕ, plrd.blockPresentFlag[i]? = some false → plrd.blockModeMinus1[i]? = some 0
  fits : ∀ plri ∈ maps, plri.mapEnabledFlag = true → plrd.FitsMap plri

/-- Block data before a map is read, in all that the map may leave as it is. -/
structure PLRData.Precedes (old plrd : PLRData) : Prop where
  width : old.blockToPatchMapWidth = plrd.blockToPatchMapWidth
  height : old.blockToPatchMapHeight = plrd.blockToPatchMapHeight
  patch : plrd.levelFlag = true → (plrd.presentFlag = false → old.modeMinus1 = plrd.modeMinus1) ∧
    old.blockPresentFlag = plrd.blockPresentFlag ∧ old.blockModeMinus1 = plrd.blockModeMinus1
  blocks : plrd.levelFlag = false → old.presentFlag = plrd.presentFlag ∧
    old.modeMinus1 = plrd.modeMinus1 ∧
    ∀ i : ℕ, plrd.blockPresentFlag[i]? = some false →
      old.blockModeMinus1[i]? = plrd.blockModeMinus1[i]?

namespace PLRData
variable {old plrd : PLRData} {maps : List PLRInformation}

theorem Precedes.refl (plrd : PLRData) : plrd.Precedes plrd :=
  ⟨rfl, rfl, fun _ => ⟨fun _ => rfl, rfl, rfl⟩, fun _ => ⟨rfl, rfl, fun _ _ => rfl⟩⟩

theorem Precedes.blockCount (h : old.Precedes plrd) : old.blockCount = plrd.blockCount := by
  unfold PLRData.blockCount
  rw [h.width, h.height]

theorem Precedes.signalsLevel (h : old.Precedes plrd) (plri : PLRInformation) :
    plri.signalsLevel old = plri.signalsLevel plrd := by
  unfold PLRInformation.signalsLevel
  rw [h.blockCount]

theorem allocate_natCast (w h : ℕ) (hw : w < 2 ^ 64) (hh : h < 2 ^ 64) :
    allocate w h = {
      blockToPatchMapWidth := w, blockToPatchMapHeight := h
      blockPresentFlag := List.replicate (w * h % 2 ^ 64) false
      blockModeMinus1 := List.replicate (w * h % 2 ^ 64) 0 } := by
  have hcast : ∀ n : ℕ, n < 2 ^ 64 → ((n : ℤ) % 2 ^ 64).toNat = n := by
    intro n hn
    omega
  unfold allocate
  simp only [hcast w hw, hcast h hh]

theorem Coded.precedes (h : plrd.Coded maps) :
    (allocate plrd.blockToPatchMapWidth plrd.blockToPatchMapHeight).Precedes plrd := by
  rw [allocate_natCast _ _ h.width_lt h.height_lt]
  constructor
  · rfl
  · rfl
  · intro hlevel
    obtain ⟨hmode, hpresent, hmodes⟩ := h.patch hlevel
    exact ⟨fun hp => (hmode hp).symm, hpresent.symm, hmodes.symm⟩
  · intro hlevel
    obtain ⟨hpresent, hmode, hblocks⟩ := h.blocks hlevel
    refine ⟨hpresent.symm, hmode.symm, fun i hi => ?_⟩
    have hlt : i < plrd.blockCount := by
      have := (List.getElem?_eq_some_iff.mp hi).1
      rwa [h.present_length] at this
    rw [hblocks i hi]
    exact List.getElem?_replicate_of_lt hlt

theorem block_roundTrip (hold : old.Precedes plrd) (hlevel : plrd.levelFlag = false)
    {bitCountMode i mode : ℕ} {present : Bool} (hpresent : plrd.blockPresentFlag[i]? = some present)
    (hmode : plrd.blockModeMinus1[i]? = some mode)
    (hfits : present = true → FitsU bitCountMode mode ∧ mode < 2 ^ 8) :
    RoundTrip (PCCBitstreamWriter.plrBlock plrd bitCountMode i)
      (PCCBitstreamReader.plrBlock old bitCountMode i) (present, mode) := by
  unfold PCCBitstreamWriter.plrBlock PCCBitstreamReader.plrBlock
  rw [hpresent, hmode, Writer.ofOption_some, Writer.ofOption_some, pure_bind]
  simp only [pure_bind]
  apply (RoundTrip.flag present).bind
  apply RoundTrip.last (x := mode) _ rfl
  apply RoundTrip.when_whenElse
  · intro hp
    obtain ⟨hbits, hlt⟩ := hfits hp
    exact hbits.roundTrip.last (Nat.mod_eq_of_lt hlt)
  · rintro rfl
    rw [(hold.blocks hlevel).2.2 i hpresent, hmode]
    rfl

/-- The blocks of a patch, as pairs of a flag and a mode. -/
theorem blocks_roundTrip (hold : old.Precedes plrd) (h : plrd.Coded maps)
    (hlevel : plrd.levelFlag = false) {plri : PLRInformation} (hfits : plrd.FitsMap plri) :
    RoundTrip
      (Writer.forEach (List.range plrd.blockCount)
        (PCCBitstreamWriter.plrBlock plrd plri.bitCountMode))
      (Reader.repeatFrom 0 plrd.blockCount (PCCBitstreamReader.plrBlock old plri.bitCountMode))
      (plrd.blockPresentFlag.zip plrd.blockModeMinus1) := by
  have hzip : (List.range plrd.blockCount).map
      (fun i => (plrd.blockPresentFlag[i]?.getD false, plrd.blockModeMinus1[i]?.getD 0)) =
        plrd.blockPresentFlag.zip plrd.blockModeMinus1 := by
    apply List.ext_getElem
    · simp [h.present_length, h.mode_length]
    · intro i hi hi'
      rw [List.length_map, List.length_range] at hi
      have hp : i < plrd.blockPresentFlag.length := by rwa [h.present_length]
      have hm : i < plrd.blockModeMinus1.length := by rwa [h.mode_length]
      simp [hp, hm]
  have hloop := RoundTrip.forEach_repeatFrom
    (f := PCCBitstreamWriter.plrBlock plrd plri.bitCountMode)
    (g := PCCBitstreamReader.plrBlock old plri.bitCountMode)
    (y := fun i => (plrd.blockPresentFlag[i]?.getD false, plrd.blockModeMinus1[i]?.getD 0))
    (List.range plrd.blockCount) 0 (by
      intro i hi
      rw [List.length_range] at hi
      have hp : i < plrd.blockPresentFlag.length := by rwa [h.present_length]
      have hm : i < plrd.blockModeMinus1.length := by rwa [h.mode_length]
      simp only [List.getElem_range, Nat.zero_add, List.getElem?_eq_getElem hp,
        List.getElem?_eq_getElem hm, Option.getD_some]
      apply block_roundTrip hold hlevel (List.getElem?_eq_getElem hp) (List.getElem?_eq_getElem hm)
      intro hpresent
      constructor
      · apply hfits.blockMode i
        · rw [List.getElem?_eq_getElem hp, hpresent]
        · exact List.getElem?_eq_getElem hm
      · exact h.blockMode_lt _ (List.getElem_mem hm))
  rwa [List.length_range, hzip] at hloop

/-- One map: all of the block data is coded again. -/
theorem map_roundTrip (hold : old.Precedes plrd) (h : plrd.Coded maps) {plri : PLRInformation}
    (hfits : plrd.FitsMap plri) (henabled : plri.mapEnabledFlag = true) :
    RoundTrip (PCCBitstreamWriter.plrMap plrd plri) (PCCBitstreamReader.plrMap old plri) plrd := by
  unfold PCCBitstreamWriter.plrMap PCCBitstreamReader.plrMap
  rw [henabled, Writer.when_true, Reader.whenElse_true, hold.signalsLevel, hold.blockCount]
  apply RoundTrip.bind (x := plrd.levelFlag)
  · apply RoundTrip.when_whenElse
    · intro _
      exact RoundTrip.flag plrd.levelFlag
    · exact hfits.level
  · cases hlevel : plrd.levelFlag with
    | false =>
      obtain ⟨hpresent, hmode, -⟩ := hold.blocks hlevel
      rw [if_pos rfl, if_pos rfl]
      apply (blocks_roundTrip hold h hlevel hfits).last
      have hlen : plrd.blockPresentFlag.length = plrd.blockModeMinus1.length := by
        rw [h.present_length, h.mode_length]
      rw [List.map_fst_zip hlen.le, List.map_snd_zip hlen.ge, hpresent, hmode, hold.width,
        hold.height, ← hlevel]
    | true =>
      obtain ⟨hmode, hblocks, hmodes⟩ := hold.patch hlevel
      rw [if_neg (by simp), if_neg (by simp)]
      apply (RoundTrip.flag plrd.presentFlag).bind
      have hread : RoundTrip (Writer.when plrd.presentFlag (write plrd.modeMinus1 plri.bitCountMode))
          (Reader.whenElse plrd.presentFlag (do pure ((← read plri.bitCountMode) % 2 ^ 8))
            old.modeMinus1) plrd.modeMinus1 := by
        apply RoundTrip.when_whenElse
        · intro hp
          exact (hfits.mode hp).roundTrip.last (Nat.mod_eq_of_lt h.mode_lt)
        · intro hp
          exact (hmode hp).symm
      apply hread.last
      rw [hblocks, hmodes, hold.width, hold.height, ← hlevel]

/-- All maps: the first one that is enabled gives the data, the others give it again. -/
theorem mapLoop_roundTrip (h : plrd.Coded maps) (ms : List PLRInformation)
    (hms : ∀ plri ∈ ms, plri ∈ maps) (hold : old.Precedes plrd)
    (hnone : (∀ plri ∈ ms, plri.mapEnabledFlag = false) → plrd = old) :
    RoundTrip (Writer.forEach ms (PCCBitstreamWriter.plrMap plrd))
      (PCCBitstreamReader.plrMapLoop old ms) plrd := by
  induction ms generalizing old with
  | nil =>
    rw [hnone (by simp)]
    exact RoundTrip.pure old
  | cons plri ms ih =>
    have hms' : ∀ plri ∈ ms, plri ∈ maps := fun p hp => hms p (List.mem_cons_of_mem plri hp)
    cases henabled : plri.mapEnabledFlag with
    | true =>
      have hfits := h.fits plri (hms plri List.mem_cons_self) henabled
      apply (map_roundTrip hold h hfits henabled).bind
      exact ih hms' (Precedes.refl plrd) fun _ => rfl
    | false =>
      have hskip : RoundTrip (PCCBitstreamWriter.plrMap plrd plri)
          (PCCBitstreamReader.plrMap old plri) old := by
        unfold PCCBitstreamWriter.plrMap PCCBitstreamReader.plrMap
        rw [henabled]
        exact RoundTrip.pure old
      apply hskip.bind
      apply ih hms' hold
      intro hrest
      apply hnone
      intro p hp
      rcases List.mem_cons.mp hp with rfl | hp
      · exact henabled
      · exact hrest p hp

end PLRData

/-- The block data of a patch whose map has the size that the reader allocates. -/
theorem plrData_roundTrip {ctx : TileContext} {maps : List PLRInformation} {plrd : PLRData}
    {width height : ℤ} (hmaps : ctx.plrMaps = some maps) (h : plrd.Coded maps)
    (hwidth : plrd.blockToPatchMapWidth = toSizeT width)
    (hheight : plrd.blockToPatchMapHeight = toSizeT height) :
    RoundTrip (PCCBitstreamWriter.plrData ctx plrd)
      (PCCBitstreamReader.plrData ctx width height) plrd := by
  have hcast : ∀ z : ℤ, ((toSizeT z : ℕ) : ℤ) % 2 ^ 64 = z % 2 ^ 64 := by
    intro z
    unfold toSizeT
    omega
  have hallocate : PLRData.allocate width height =
      PLRData.allocate plrd.blockToPatchMapWidth plrd.blockToPatchMapHeight := by
    rw [hwidth, hheight]
    unfold PLRData.allocate
    simp only [hcast]
  unfold PCCBitstreamWriter.plrData PCCBitstreamReader.plrData
  rw [hallocate]
  apply RoundTrip.ofOption hmaps
  exact PLRData.mapLoop_roundTrip h maps (fun _ hp => hp) h.precedes h.noMap

end V3C

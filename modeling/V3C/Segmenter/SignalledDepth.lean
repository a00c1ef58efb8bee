import V3C.Segmenter.Resampling

/-! The signalled depth range of a patch and the depths that it stores. -/
namespace V3C

open SegmentedPatch Resampling

variable {settings : DepthSettings} {near maps : SegmentedPatch} {s : Resampling}

/-- A depth that a patch stores for a pixel of its maps, in the near map or in the far map. -/
def StoresDepth (settings : DepthSettings) (maps patch : SegmentedPatch) (d : ℤ) : Prop :=
  ∃ p < maps.sizeU * maps.sizeV, maps.isOccupied p = true ∧
    (patch.depth0[p]? = some d ∨
      settings.EOMSingleLayerMode = false ∧ patch.depth1[p]? = some d)

/-- The largest depth range that the bit depth can signal. -/
def largestSizeD (settings : DepthSettings) : ℕ :=
  (2 ^ (depthBits settings - Nat.clog 2 settings.minLevel) - 1) * settings.minLevel - 1

/-- The signalled range covers the depths, or it is the largest one. -/
def CoversDepths (settings : DepthSettings) (maps patch : SegmentedPatch) : Prop :=
  (∀ d, StoresDepth settings maps patch d → d ≤ patch.sizeD) ∨ largestSizeD settings ≤ patch.sizeD

/-- The largest depth is a multiple of `minLevel` that is not among the largest ranges. -/
def EndsOnLevel (settings : DepthSettings) (maps patch : SegmentedPatch) : Prop :=
  ∃ d, StoresDepth settings maps patch d ∧
    (∀ d', StoresDepth settings maps patch d' → 0 ≤ d' ∧ d' ≤ d) ∧ 0 < d ∧
    (settings.minLevel : ℤ) ∣ d ∧ d + settings.minLevel < 2 ^ depthBits settings

theorem Resampling.Resampled.storesDepth_iff
    (h : Resampled settings maps (List.range (maps.sizeV * maps.sizeU)) s)
    (hlength : maps.depth0.length = maps.sizeU * maps.sizeV) (d : ℤ) :
    StoresDepth settings maps s.patch d ↔
      StoredIn settings maps (List.range (maps.sizeV * maps.sizeU)) d := by
  have hrange : ∀ p, p ∈ List.range (maps.sizeV * maps.sizeU) ↔ p < maps.sizeU * maps.sizeV := by
    intro p
    rw [List.mem_range, Nat.mul_comm]
  constructor
  · intro hstores
    obtain ⟨p, hp, hocc, hdepth⟩ := hstores
    have hbound : p < maps.depth0.length := by rwa [hlength]
    have hdepth0 := List.getElem?_eq_getElem hbound
    generalize maps.depth0[p] = depth0 at hdepth0
    rw [isOccupied_eq hdepth0, decide_eq_true_eq] at hocc
    refine ⟨p, (hrange p).mpr hp, depth0, hdepth0, hocc, ?_⟩
    rcases hdepth with hnear | ⟨hsingle, hfar⟩
    · rw [h.stored0 p ((hrange p).mpr hp) depth0 hdepth0 hocc] at hnear
      exact Or.inl (Option.some.inj hnear).symm
    · have hbound1 : p < maps.depth1.length := by
        rw [← h.length1]
        exact (List.getElem?_eq_some_iff.mp hfar).1
      have hdepth1 := List.getElem?_eq_getElem hbound1
      have hocc' : maps.isOccupied p = true := by rw [isOccupied_eq hdepth0, decide_eq_true hocc]
      rw [h.stored1 hsingle p ((hrange p).mpr hp) hocc' _ hdepth1] at hfar
      exact Or.inr ⟨hsingle, _, hdepth1, (Option.some.inj hfar).symm⟩
  · intro hstored
    obtain ⟨p, hp, depth0, hdepth0, hlt, hcases⟩ := hstored
    have hocc : maps.isOccupied p = true := by rw [isOccupied_eq hdepth0, decide_eq_true hlt]
    refine ⟨p, (hrange p).mp hp, hocc, ?_⟩
    rcases hcases with rfl | ⟨hsingle, depth1, hdepth1, rfl⟩
    · exact Or.inl (h.stored0 p hp depth0 hdepth0 hlt)
    · exact Or.inr ⟨hsingle, h.stored1 hsingle p hp hocc depth1 hdepth1⟩

section Quantization

variable {k bits : ℕ}

/-- The range that is signalled for a largest depth. -/
def quantizedSizeD (bits minLevel bitdepthD size : ℕ) : ℕ :=
  let sizeD := min (2 ^ bits - 1) size
  let quantDD := if sizeD = 0 then 0 else (sizeD - 1) / minLevel + 1
  let quantDD := min quantDD (2 ^ bitdepthD - 1)
  if quantDD = 0 then 0 else quantDD * minLevel - 1

/-- Rounding to units and storing the last depth of the last unit covers a depth unless it is a
multiple of the unit. -/
theorem quantizedSizeD_iff (size : ℕ) (hk : k ≤ bits) :
    size ≤ quantizedSizeD bits (2 ^ k) (bits - k) size ∨
      (2 ^ (bits - k) - 1) * 2 ^ k - 1 ≤ quantizedSizeD bits (2 ^ k) (bits - k) size ↔
    ¬(0 < size ∧ 2 ^ k ∣ size ∧ size + 2 ^ k < 2 ^ bits) := by
  have hproduct : 2 ^ (bits - k) * 2 ^ k = 2 ^ bits := by
    rw [← pow_add, Nat.sub_add_cancel hk]
  have hunit : 0 < 2 ^ k := Nat.two_pow_pos k
  have hcount : 0 < 2 ^ (bits - k) := Nat.two_pow_pos (bits - k)
  unfold quantizedSizeD
  generalize 2 ^ (bits - k) = count at hproduct hcount ⊢
  generalize 2 ^ k = unit at hproduct hunit ⊢
  generalize 2 ^ bits = total at hproduct ⊢
  by_cases hsize : size = 0
  · rw [hsize]
    exact ⟨fun _ h => absurd h.1 (Nat.lt_irrefl 0), fun _ => Or.inl (Nat.zero_le _)⟩
  by_cases htotal : total = 1
  · have hone : count = 1 := Nat.eq_one_of_mul_eq_one_right (hproduct.trans htotal)
    rw [htotal, hone]
    refine ⟨fun _ h => absurd h.2.2 (by omega), fun _ => Or.inr (by simp)⟩
  have hmul : ∀ a, a < count → (a + 1) * unit ≤ total := by
    intro a ha
    rw [← hproduct]
    exact Nat.mul_le_mul_right unit ha
  have htotalPos : 0 < total := by
    rw [← hproduct]
    exact Nat.mul_pos hcount hunit
  have hpos : 0 < min (total - 1) size := by omega
  have hle : min (total - 1) size ≤ size := Nat.min_le_right _ _
  have hclip : size ≤ total - 1 → min (total - 1) size = size := Nat.min_eq_right
  have hbelow : min (total - 1) size < total - 1 → min (total - 1) size = size := by omega
  have hlast : min (total - 1) size ≤ total - 1 := Nat.min_le_left _ _
  dsimp only
  generalize min (total - 1) size = clipped at hpos hle hclip hbelow hlast ⊢
  rw [if_neg (by omega : ¬clipped = 0)]
  have hdiv := Nat.div_add_mod (clipped - 1) unit
  have hmod := Nat.mod_lt (clipped - 1) hunit
  generalize (clipped - 1) / unit = m at hdiv ⊢
  generalize (clipped - 1) % unit = r at hdiv hmod
  have hclipped : clipped = unit * m + r + 1 := by omega
  by_cases hcap : count - 1 ≤ m + 1
  · -- the range is the largest one
    rw [Nat.min_eq_right hcap]
    constructor
    · intro _ h
      obtain ⟨-, hdvd, hlt⟩ := h
      obtain ⟨n, rfl⟩ := hdvd
      have hn : n + 1 < count := by
        by_contra hge
        have hbig : count * unit ≤ (n + 1) * unit := Nat.mul_le_mul_right unit (by omega)
        have hexpand : (n + 1) * unit = unit * n + unit := by ring
        omega
      have hwhole : clipped = unit * n := hclip (by
        have hproductLt : (n + 1) * unit < count * unit := Nat.mul_lt_mul_of_pos_right hn hunit
        have hexpand : (n + 1) * unit = unit * n + unit := by ring
        omega)
      have hm : n ≤ m := by omega
      have hunits : unit * n ≤ unit * m := Nat.mul_le_mul_left unit hm
      omega
    · intro _
      right
      split_ifs with hzero
      · rw [hzero, Nat.zero_mul]
      · exact Nat.le_refl _
  · have hm : m + 1 < count - 1 := Nat.lt_of_not_le hcap
    rw [Nat.min_eq_left hm.le, if_neg (Nat.succ_ne_zero m)]
    have hnext := hmul (m + 1) (by omega)
    have hsucc := hmul (m + 2) (by omega)
    have hexpand : (m + 1) * unit = unit * m + unit := by ring
    have hexpand' : (m + 1 + 1) * unit = unit * m + unit + unit := by ring
    have hexpand'' : (m + 2 + 1) * unit = unit * m + unit + unit + unit := by ring
    have hwhole : clipped = size := hbelow (by omega)
    have hlargest : (m + 1) * unit + unit ≤ (count - 1) * unit := by
      have hstep : (m + 1 + 1) * unit ≤ (count - 1) * unit := Nat.mul_le_mul_right unit (by omega)
      omega
    have hdvd : unit ∣ size ↔ r + 1 = unit := by
      rw [← hwhole, hclipped, Nat.add_assoc, Nat.dvd_add_right (Nat.dvd_mul_right unit m)]
      constructor
      · exact fun h => Nat.le_antisymm hmod (Nat.le_of_dvd (Nat.succ_pos r) h)
      · exact fun h => h ▸ Nat.dvd_refl _
    rw [hdvd]
    constructor
    · intro h hall
      omega
    · intro h
      left
      by_contra hlt
      exact h ⟨by omega, by omega, by omega⟩

end Quantization

/-- Units that the bit depth has are quantised, and others have no number of bits. -/
theorem quantizeSizeD_cases (patch : SegmentedPatch) {k : ℕ} (hlevel : settings.minLevel = 2 ^ k) :
    (depthBits settings < 31 ∧ k ≤ depthBits settings ∧ patch.quantizeSizeD settings = some
      { patch with
        sizeDPixel := patch.sizeD
        sizeD := quantizedSizeD (depthBits settings) (2 ^ k) (depthBits settings - k)
          patch.sizeD }) ∨
    ((31 ≤ depthBits settings ∨ depthBits settings < k) ∧
      patch.quantizeSizeD settings = none) := by
  have hpos : settings.minLevel ≠ 0 := by
    rw [hlevel]
    exact (Nat.two_pow_pos k).ne'
  have hpow : 2 ^ (depthBits settings + 1) ≤ 2 ^ k ↔ depthBits settings + 1 ≤ k :=
    Nat.pow_le_pow_iff_right (by omega)
  unfold quantizeSizeD
  dsimp only
  rw [hlevel, Nat.clog_pow 2 k (by omega)]
  by_cases hbits : 31 ≤ depthBits settings
  · rw [if_pos (Or.inl hbits)]
    exact Or.inr ⟨Or.inl hbits, rfl⟩
  · by_cases hk : depthBits settings + 1 ≤ k
    · rw [if_pos (Or.inr (Or.inr (hpow.mpr hk)))]
      exact Or.inr ⟨Or.inr hk, rfl⟩
    · have hdefined : ¬(31 ≤ depthBits settings ∨ 2 ^ k = 0 ∨
          2 ^ (depthBits settings + 1) ≤ 2 ^ k) := by
        rw [hpow]
        exact not_or.mpr ⟨hbits, not_or.mpr ⟨(Nat.two_pow_pos k).ne', hk⟩⟩
      rw [if_neg hdefined]
      exact Or.inl ⟨by omega, by omega, rfl⟩

theorem storedDepth_mem (d : ℤ) : -32768 ≤ storedDepth maps d ∧ storedDepth maps d < 32768 := by
  have hlow := Int.le_bmod (x := maps.projectionDirectionType * (d - toInt16 maps.d1)) (m := 65536)
    (by decide)
  have hhigh := Int.bmod_lt (x := maps.projectionDirectionType * (d - toInt16 maps.d1))
    (m := 65536) (by decide)
  unfold storedDepth toInt16 at *
  omega

theorem Resampling.StoredIn.mem {visited : List ℕ} {d : ℤ}
    (h : StoredIn settings maps visited d) : -32768 ≤ d ∧ d < 32768 := by
  obtain ⟨p, -, depth0, -, -, hcases⟩ := h
  rcases hcases with rfl | ⟨-, depth1, -, rfl⟩
  · exact storedDepth_mem depth0
  · exact storedDepth_mem depth1

section Range

variable {visited : List ℕ} {k : ℕ}

/-- Where no stored depth is negative, a range covers the depths if it covers the largest one. -/
theorem Resampling.Resampled.covers_iff (h : Resampled settings maps visited s)
    (hnonneg : ∀ d, StoredIn settings maps visited d → 0 ≤ d) (size : ℕ) :
    (∀ d, StoredIn settings maps visited d → d ≤ size) ↔ s.patch.sizeD ≤ size := by
  have hcast : ∀ d, StoredIn settings maps visited d → (toSizeT d : ℤ) = d := by
    intro d hd
    have hrange := hd.mem
    have hzero := hnonneg d hd
    rw [toSizeT_of_lt hzero (by omega), Int.toNat_of_nonneg hzero]
  constructor
  · intro hcovers
    rcases h.sizeD_mem with hzero | ⟨d, hd, heq⟩
    · omega
    · have hle := hcovers d hd
      have hd' := hcast d hd
      omega
  · intro hle d hd
    have hsize := h.sizeD_le d hd
    have hd' := hcast d hd
    omega

/-- The largest stored depth ends on a level. -/
theorem Resampling.Resampled.endsOnLevel_iff (h : Resampled settings maps visited s)
    (hnonneg : ∀ d, StoredIn settings maps visited d → 0 ≤ d) (level total : ℕ) :
    (∃ d, StoredIn settings maps visited d ∧
      (∀ d', StoredIn settings maps visited d' → 0 ≤ d' ∧ d' ≤ d) ∧ 0 < d ∧
      (level : ℤ) ∣ d ∧ d + level < total) ↔
    0 < s.patch.sizeD ∧ level ∣ s.patch.sizeD ∧ s.patch.sizeD + level < total := by
  have hcast : ∀ d, StoredIn settings maps visited d → (toSizeT d : ℤ) = d := by
    intro d hd
    have hrange := hd.mem
    have hzero := hnonneg d hd
    rw [toSizeT_of_lt hzero (by omega), Int.toNat_of_nonneg hzero]
  constructor
  · intro hends
    obtain ⟨d, hd, hmax, hpos, hdvd, hlt⟩ := hends
    have hle := (h.covers_iff hnonneg (toSizeT d)).mp fun d' hd' => by
      rw [hcast d hd]
      exact (hmax d' hd').2
    have hsize : toSizeT d = s.patch.sizeD := Nat.le_antisymm (h.sizeD_le d hd) hle
    have hd' := hcast d hd
    rw [← hd', Int.natCast_dvd_natCast] at hdvd
    rw [← hsize]
    exact ⟨by omega, hdvd, by omega⟩
  · intro hsize
    obtain ⟨hpos, hdvd, hlt⟩ := hsize
    rcases h.sizeD_mem with hzero | ⟨d, hd, heq⟩
    · omega
    · have hd' := hcast d hd
      refine ⟨d, hd, ?_, by omega, ?_, by omega⟩
      · intro d' hmem
        have hle := (h.covers_iff hnonneg s.patch.sizeD).mpr (Nat.le_refl _) d' hmem
        exact ⟨hnonneg d' hmem, by omega⟩
      · rw [← hd', heq]
        exact Int.natCast_dvd_natCast.mpr hdvd

end Range

section Registered

variable {surface : SegmentedPatch → List SegmentPoint → ℤ} {colors : List PCCColor3B}
  {projectionMode : ℕ} {isAdditionalProjectionPlane : Bool} {component : List SegmentPoint}

/-- The depth range that a registered patch signals covers the depths that it stores, unless the
largest of them is a multiple of `minLevel`. -/
theorem coversDepths_iff {k : ℕ} (hlevel : settings.minLevel = 2 ^ k)
    (hmaps : patchMaps settings surface colors projectionMode isAdditionalProjectionPlane
      component = some maps)
    (hs : resampledPointcloud settings maps = some s) :
    (∃ patch resampled, registerPatch settings surface colors projectionMode
        isAdditionalProjectionPlane component = some (patch, resampled) ∧
      CoversDepths settings maps patch) ↔
    depthBits settings < 31 ∧ settings.minLevel ≤ 2 ^ depthBits settings ∧
      ¬EndsOnLevel settings maps s.patch := by
  have hpos : 0 < settings.minLevel := by
    rw [hlevel]
    exact Nat.two_pow_pos k
  obtain ⟨near, -, hfar, hnear⟩ := exists_near_of_patchMaps hpos hmaps
  have hlength := (Maps.of_farDepths hfar).length hnear.depth0
  have hresampled := Resampled.of_resampledPointcloud hs
  have hstores := hresampled.storesDepth_iff hlength
  have hpow : settings.minLevel ≤ 2 ^ depthBits settings ↔ k ≤ depthBits settings := by
    rw [hlevel]
    exact Nat.pow_le_pow_iff_right (by omega)
  have hrun : registerPatch settings surface colors projectionMode isAdditionalProjectionPlane
      component = (s.patch.quantizeSizeD settings).map fun quantized =>
        (quantized.setCounts settings s, s.resampled) := by
    unfold registerPatch
    rw [hmaps, Option.bind_eq_bind, Option.bind_some, hs, Option.bind_eq_bind, Option.bind_some]
    cases s.patch.quantizeSizeD settings <;> rfl
  rw [hrun]
  rcases quantizeSizeD_cases s.patch hlevel with ⟨hbits, hk, hquant⟩ | ⟨hnone, hquant⟩
  · rw [hquant, Option.map_some, hpow]
    have hlargest : largestSizeD settings = (2 ^ (depthBits settings - k) - 1) * 2 ^ k - 1 := by
      unfold largestSizeD
      rw [hlevel, Nat.clog_pow 2 k (by omega)]
    have hiff := quantizedSizeD_iff s.patch.sizeD hk
    rw [← hlargest] at hiff
    generalize quantizedSizeD (depthBits settings) (2 ^ k) (depthBits settings - k)
      s.patch.sizeD = size at hiff ⊢
    have hcovers : CoversDepths settings maps (setCounts settings s
          { s.patch with sizeDPixel := s.patch.sizeD, sizeD := size }) ↔
        (∀ d, StoredIn settings maps (List.range (maps.sizeV * maps.sizeU)) d → d ≤ size) ∨
          largestSizeD settings ≤ size := by
      apply or_congr_left
      exact forall_congr' fun d => imp_congr_left (hstores d)
    have hends : EndsOnLevel settings maps s.patch ↔
        ∃ d, StoredIn settings maps (List.range (maps.sizeV * maps.sizeU)) d ∧
          (∀ d', StoredIn settings maps (List.range (maps.sizeV * maps.sizeU)) d' →
            0 ≤ d' ∧ d' ≤ d) ∧ 0 < d ∧ ((2 ^ k : ℕ) : ℤ) ∣ d ∧
          d + (2 ^ k : ℕ) < (2 ^ depthBits settings : ℕ) := by
      unfold EndsOnLevel
      rw [hlevel]
      simp only [hstores]
      push_cast
      rfl
    have hproperty : (∀ d, StoredIn settings maps (List.range (maps.sizeV * maps.sizeU)) d →
        d ≤ size) ∨ largestSizeD settings ≤ size ↔ ¬EndsOnLevel settings maps s.patch := by
      by_cases hnonneg : ∀ d, StoredIn settings maps (List.range (maps.sizeV * maps.sizeU)) d →
          0 ≤ d
      · rw [hends, hresampled.endsOnLevel_iff hnonneg, hresampled.covers_iff hnonneg]
        exact hiff
      · -- a negative depth is a large `size_t`
        push Not at hnonneg
        obtain ⟨d, hd, hneg⟩ := hnonneg
        have hle := hresampled.sizeD_le d hd
        have hrange := hd.mem
        have hbound : 2 ^ depthBits settings ≤ 2 ^ 31 :=
          Nat.pow_le_pow_right (by omega) hbits.le
        have hcast : toSizeT d = (2 ^ 64 + d).toNat := by
          unfold toSizeT
          omega
        have hlarge : largestSizeD settings ≤ size ∨ s.patch.sizeD ≤ size := by
          rcases hiff.mpr (by omega) with hcover | hlargest
          · exact Or.inr hcover
          · exact Or.inl hlargest
        constructor
        · intro _ h
          obtain ⟨e, -, hmax, -⟩ := hends.mp h
          have := (hmax d hd).1
          omega
        · intro _
          rcases hlarge with hlarge | hcover
          · exact Or.inr hlarge
          · left
            intro e he
            have := he.mem
            omega
    rw [← hproperty]
    constructor
    · intro h
      obtain ⟨patch, resampled, hsome, h⟩ := h
      obtain ⟨rfl, rfl⟩ := Prod.mk.inj (Option.some.inj hsome)
      exact ⟨hbits, hk, hcovers.mp h⟩
    · intro h
      exact ⟨_, _, rfl, hcovers.mpr h.2.2⟩
  · rw [hquant, Option.map_none, hpow]
    constructor
    · intro h
      obtain ⟨patch, resampled, hsome, -⟩ := h
      cases hsome
    · intro h
      omega

end Registered

/-- Settings with units of 64 and depths of eight bits. -/
def unitsOf64 : DepthSettings where
  mapCountMinus1 := 1
  useEnhancedOccupancyMapCode := false
  useSurfaceSeparation := false
  EOMFixBitCount := 2
  surfaceThickness := 4
  maxAllowedDepth := 255
  minLevel := 64
  occupancyResolution := 16
  geometryBitDepth2D := 8
  geometryBitDepth3D := 10

/-- Two points in neighbouring blocks, of which the second is deeper by some depth. -/
def twoBlocks (depth : Fin 256) : List SegmentPoint :=
  [{ index := 0, normal := 0, tangent := 0, bitangent := 0 },
    { index := 1, normal := depth, tangent := 16, bitangent := 0, normal_lt := by omega }]

theorem coversDepths_iff_twoBlocks :
    ∃ maps s, patchMaps unitsOf64 (fun _ _ => 4) [default, default] 0 false (twoBlocks 65) =
        some maps ∧ resampledPointcloud unitsOf64 maps = some s ∧
      ((∃ patch resampled, registerPatch unitsOf64 (fun _ _ => 4) [default, default] 0 false
          (twoBlocks 65) = some (patch, resampled) ∧ CoversDepths unitsOf64 maps patch) ↔
        depthBits unitsOf64 < 31 ∧ unitsOf64.minLevel ≤ 2 ^ depthBits unitsOf64 ∧
          ¬EndsOnLevel unitsOf64 maps s.patch) := by
  have hrun : ((patchMaps unitsOf64 (fun _ _ => 4) [default, default] 0 false
      (twoBlocks 65)).bind (resampledPointcloud unitsOf64)).isSome = true := by decide +kernel
  obtain ⟨s, hs⟩ := Option.isSome_iff_exists.mp hrun
  obtain ⟨maps, hmaps, hs⟩ := Option.bind_eq_some_iff.mp hs
  exact ⟨maps, s, hmaps, hs, coversDepths_iff (k := 6) rfl hmaps hs⟩

/-- A depth of 64 is not covered by the one unit that is signalled for it. -/
theorem not_coversDepths_twoBlocks :
    ∃ maps patch resampled,
      patchMaps unitsOf64 (fun _ _ => 4) [default, default] 0 false (twoBlocks 64) = some maps ∧
      registerPatch unitsOf64 (fun _ _ => 4) [default, default] 0 false (twoBlocks 64) =
        some (patch, resampled) ∧ ¬CoversDepths unitsOf64 maps patch := by
  have hmaps : (patchMaps unitsOf64 (fun _ _ => 4) [default, default] 0 false
      (twoBlocks 64)).map (fun maps => (maps.sizeU, maps.sizeV, maps.isOccupied 16)) =
        some (17, 1, true) := by decide +kernel
  have hpatch : (registerPatch unitsOf64 (fun _ _ => 4) [default, default] 0 false
      (twoBlocks 64)).map (fun registered => (registered.1.sizeD, registered.1.depth0[16]?)) =
        some (63, some 64) := by decide +kernel
  obtain ⟨maps, hmaps, hsize⟩ := Option.map_eq_some_iff.mp hmaps
  obtain ⟨⟨patch, resampled⟩, hpatch, hdepth⟩ := Option.map_eq_some_iff.mp hpatch
  simp only [Prod.mk.injEq] at hsize hdepth
  obtain ⟨hsizeU, hsizeV, hocc⟩ := hsize
  refine ⟨maps, patch, resampled, hmaps, hpatch, ?_⟩
  intro hcovers
  rcases hcovers with hcovers | hlargest
  · have hstores : StoresDepth unitsOf64 maps patch 64 :=
      ⟨16, by rw [hsizeU, hsizeV]; decide, hocc, Or.inl hdepth.2⟩
    have := hcovers 64 hstores
    omega
  · have hlarge : largestSizeD unitsOf64 = 191 := by decide +kernel
    omega

end V3C

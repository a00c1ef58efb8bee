import V3C.Reconstruction.BorderFiltering

/-! The filter of the patch borders takes pixels off, as many rows of them as it makes passes, and
does not depend on the order of the patches. -/
namespace V3C
open Cells

namespace LocalPatch

/-- A pixel of the patch, whose sides are of type `int16_t`, that is occupied in a local map. -/
def OccupiedAt (patch : LocalPatch) (occupancyMap : List ℕ) (u v : ℤ) : Prop :=
  (0 ≤ u ∧ u < toInt16 patch.width ∧ 0 ≤ v ∧ v < toInt16 patch.height) ∧
    ∃ occupied, occupancyMap[patch.pixelIndex (u.toNat, v.toNat)]? = some occupied ∧ occupied ≠ 0

/-- The pixels whose distance to every pixel that is not occupied is greater than a number. The
pixels beyond the patch are not occupied. -/
def Inner (patch : LocalPatch) (count : ℕ) (u v : ℤ) : Prop :=
  ∀ u' v', ¬patch.OccupiedAt patch.occupancyMap u' v' → (count : ℤ) < |u - u'| + |v - v'|

/-- The passes occupy nothing, and leave the pixels that are farther from the border than their
number. -/
structure Eroded (patch : LocalPatch) (passesCount : ℕ) (occupancyMap : List ℕ) : Prop where
  erodes : ∀ k : ℕ, patch.occupancyMap[k]? = some 0 → occupancyMap[k]? = some 0
  keeps : ∀ u v, patch.Inner passesCount u v → patch.OccupiedAt occupancyMap u v

/-- The local map as it is allocated and filled. -/
structure Filled (patch : LocalPatch) : Prop where
  width_eq : 0 ≤ toInt16 patch.width →
    patch.depthMapWidth = (toInt16 patch.width).toNat + 2 * patch.border
  length : patch.occupancyMap.length = patch.depthMapWidth * patch.depthMapHeight
  le_one : ∀ occupied ∈ patch.occupancyMap, occupied ≤ 1

variable {φ : Type} {sums : DistanceSums φ} {filterSize : ℤ} {neighborDepth : List ℤ}
  {patch : LocalPatch} {src dst dst' : List ℕ} {c : ℕ}

/-! ### One pass -/

theorem filterPixel_zero (h : src[c]? = some 0) :
    patch.filterPixel sums filterSize neighborDepth src c = some 0 := by
  unfold filterPixel
  rw [h]
  rfl

/-- A pixel whose four neighbours are occupied stays. -/
theorem filterPixel_one (h : src[c]? = some 1) (hleft : src[c - 1]? = some 1)
    (hright : src[c + 1]? = some 1) (htop : src[c - patch.depthMapWidth]? = some 1)
    (hbottom : src[c + patch.depthMapWidth]? = some 1) :
    patch.filterPixel sums filterSize neighborDepth src c = some 1 := by
  unfold filterPixel
  dsimp only
  rw [h, hleft, hright, htop, hbottom]
  rfl

/-- The pixels of the patch, as far as the loops of the passes reach. -/
def pixels (patch : LocalPatch) : List (ℕ × ℕ) :=
  grid (toInt16 patch.width).toNat (toInt16 patch.height).toNat

theorem filterPass_spec
    (h : patch.filterPass sums filterSize neighborDepth src dst = some dst') :
    (∀ pixel ∈ patch.pixels, dst'[patch.pixelIndex pixel]? =
      patch.filterPixel sums filterSize neighborDepth src (patch.pixelIndex pixel)) ∧
    ∀ k : ℕ, dst'[k]? = dst[k]? ∨
      dst'[k]? = patch.filterPixel sums filterSize neighborDepth src k := by
  apply Codec.inv_of_foldlM (P := fun (visited : List (ℕ × ℕ)) (next : List ℕ) =>
    (∀ pixel ∈ visited, next[patch.pixelIndex pixel]? =
      patch.filterPixel sums filterSize neighborDepth src (patch.pixelIndex pixel)) ∧
    ∀ k : ℕ, next[k]? = dst[k]? ∨
      next[k]? = patch.filterPixel sums filterSize neighborDepth src k) h
  · exact ⟨nofun, fun k => Or.inl rfl⟩
  · intro visited pixel next next' _ hinv hstep
    obtain ⟨occupied, hoccupied, hset⟩ := Option.bind_eq_some_iff.mp hstep
    unfold setAt at hset
    split_ifs at hset with hlt
    obtain rfl := Option.some.inj hset
    constructor
    · intro q hq
      by_cases heq : patch.pixelIndex pixel = patch.pixelIndex q
      · rw [← heq, List.getElem?_set_self hlt, hoccupied]
      · rw [List.getElem?_set_ne heq]
        rcases List.mem_append.mp hq with hq | hq
        · exact hinv.1 q hq
        · rw [List.mem_singleton.mp hq] at heq
          exact absurd rfl heq
    · intro k
      by_cases heq : patch.pixelIndex pixel = k
      · subst heq
        right
        rw [List.getElem?_set_self hlt, hoccupied]
      · rw [List.getElem?_set_ne heq]
        exact hinv.2 k

theorem filterPass_erodes
    (h : patch.filterPass sums filterSize neighborDepth src dst = some dst') {k : ℕ}
    (hsrc : src[k]? = some 0) (hdst : dst[k]? = some 0) : dst'[k]? = some 0 := by
  rcases (filterPass_spec h).2 k with heq | heq
  · rw [heq, hdst]
  · rw [heq, filterPixel_zero hsrc]

/-! ### The pixels away from the border -/

theorem Inner.occupied {u v : ℤ} (h : patch.Inner 0 u v) :
    patch.OccupiedAt patch.occupancyMap u v := by
  by_contra hout
  have hfar := h u v hout
  simp at hfar

theorem Inner.of_le {count count' : ℕ} (hle : count ≤ count') {u v : ℤ}
    (h : patch.Inner count' u v) : patch.Inner count u v := by
  intro u' v' hout
  have hfar := h u' v' hout
  omega

/-- A step to a neighbour is a step of the distance. -/
theorem Inner.step {count : ℕ} {u v u' v' : ℤ} (h : patch.Inner (count + 1) u v)
    (hstep : |u - u'| + |v - v'| ≤ 1) : patch.Inner count u' v' := by
  intro a b hout
  have hfar := h a b hout
  have hu := abs_sub_le u u' a
  have hv := abs_sub_le v v' b
  push_cast at hfar
  linarith

theorem mem_pixels {u v : ℕ} :
    (u, v) ∈ patch.pixels ↔ (u : ℤ) < toInt16 patch.width ∧ (v : ℤ) < toInt16 patch.height := by
  unfold pixels
  rw [mem_grid]
  omega

/-- A row of the local map is as wide as the map. -/
theorem Filled.pixelIndex_eq (h : patch.Filled) (hwidth : 0 ≤ toInt16 patch.width) (u v : ℕ) :
    patch.pixelIndex (u, v) =
      patch.border + (patch.border + v) * patch.depthMapWidth + u := by
  unfold pixelIndex
  rw [← h.width_eq hwidth]
  ring

/-- The pixels that are inner ones after a number of passes are still occupied. -/
def Keeps (patch : LocalPatch) (count : ℕ) (occupancyMap : List ℕ) : Prop :=
  ∀ u v : ℤ, patch.Inner count u v → occupancyMap[patch.pixelIndex (u.toNat, v.toNat)]? = some 1

theorem Filled.keeps_zero (h : patch.Filled) : patch.Keeps 0 patch.occupancyMap := by
  intro u v hinner
  obtain ⟨-, occupied, hread, hne⟩ := hinner.occupied
  have hle := h.le_one occupied (List.mem_of_getElem? hread)
  rw [hread]
  congr 1
  omega

theorem Keeps.pass (hfilled : patch.Filled) {count : ℕ} (h : patch.Keeps count src)
    (hpass : patch.filterPass sums filterSize neighborDepth src dst = some dst') :
    patch.Keeps (count + 1) dst' := by
  intro u v hinner
  have hat (du dv : ℤ) (hstep : |du| + |dv| ≤ 1) :
      (0 ≤ u + du ∧ u + du < toInt16 patch.width ∧
        0 ≤ v + dv ∧ v + dv < toInt16 patch.height) ∧
        src[patch.pixelIndex ((u + du).toNat, (v + dv).toNat)]? = some 1 := by
    have hnear : patch.Inner count (u + du) (v + dv) := hinner.step (by
      rw [show u - (u + du) = -du by ring, show v - (v + dv) = -dv by ring, abs_neg, abs_neg]
      exact hstep)
    exact ⟨((hnear.of_le (Nat.zero_le count)).occupied).1, h _ _ hnear⟩
  obtain ⟨hin, hhere⟩ := hat 0 0 (by decide)
  obtain ⟨hinLeft, hleft⟩ := hat (-1) 0 (by decide)
  obtain ⟨-, hright⟩ := hat 1 0 (by decide)
  obtain ⟨hinTop, htop⟩ := hat 0 (-1) (by decide)
  obtain ⟨-, hbottom⟩ := hat 0 1 (by decide)
  have hrow := hfilled.pixelIndex_eq (by omega)
  obtain ⟨a, rfl⟩ : ∃ a : ℕ, u = a := ⟨u.toNat, by omega⟩
  obtain ⟨b, rfl⟩ : ∃ b : ℕ, v = b := ⟨v.toNat, by omega⟩
  have hb : (patch.border + b) * patch.depthMapWidth =
      (patch.border + (b - 1)) * patch.depthMapWidth + patch.depthMapWidth := by
    rw [show patch.border + b = patch.border + (b - 1) + 1 by omega, Nat.succ_mul]
  have hnext : (patch.border + (b + 1)) * patch.depthMapWidth =
      (patch.border + b) * patch.depthMapWidth + patch.depthMapWidth := by
    rw [← Nat.add_assoc, Nat.succ_mul]
  rw [show ((a : ℤ) + 0).toNat = a by omega, show ((b : ℤ) + 0).toNat = b by omega,
    hrow] at hhere
  rw [show ((a : ℤ) + -1).toNat = a - 1 by omega, show ((b : ℤ) + 0).toNat = b by omega,
    hrow] at hleft
  rw [show ((a : ℤ) + 1).toNat = a + 1 by omega, show ((b : ℤ) + 0).toNat = b by omega,
    hrow] at hright
  rw [show ((a : ℤ) + 0).toNat = a by omega, show ((b : ℤ) + -1).toNat = b - 1 by omega,
    hrow] at htop
  rw [show ((a : ℤ) + 0).toNat = a by omega, show ((b : ℤ) + 1).toNat = b + 1 by omega,
    hrow, hnext] at hbottom
  rw [Int.toNat_natCast, Int.toNat_natCast,
    (filterPass_spec hpass).1 (a, b) (mem_pixels.mpr (by omega)), hrow]
  apply filterPixel_one hhere
  · rw [← hleft]
    exact congrArg (fun k => src[k]?) (by omega)
  · rw [← hright]
    exact congrArg (fun k => src[k]?) (by omega)
  · rw [← htop, hb]
    exact congrArg (fun k => src[k]?) (by omega)
  · rw [← hbottom]
    exact congrArg (fun k => src[k]?) (by omega)

/-! ### All passes -/

/-- After some passes, both maps are free where the patch is, and the last one that was written has
kept the inner pixels. -/
structure Passed (patch : LocalPatch) (count : ℕ) (maps : List ℕ × List ℕ) : Prop where
  erodes : ∀ k : ℕ, patch.occupancyMap[k]? = some 0 → maps.1[k]? = some 0 ∧ maps.2[k]? = some 0
  keeps : patch.Keeps count (if count % 2 = 0 then maps.1 else maps.2)

theorem passed_of_filterPasses (hfilled : patch.Filled) {passesCount : ℕ}
    {maps : List ℕ × List ℕ}
    (h : patch.filterPasses sums filterSize neighborDepth passesCount = some maps) :
    patch.Passed passesCount maps := by
  induction passesCount generalizing maps with
  | zero =>
    obtain rfl := Option.some.inj h
    refine ⟨fun k hk => ⟨hk, ?_⟩, hfilled.keeps_zero⟩
    have hlt := (List.getElem?_eq_some_iff.mp hk).1
    rw [hfilled.length] at hlt
    exact List.getElem?_replicate_of_lt hlt
  | succ passesCount ih =>
    unfold filterPasses at h
    rw [List.range_succ, List.foldlM_append] at h
    obtain ⟨⟨occupied, newOccupied⟩, hbefore, hlast⟩ := Option.bind_eq_some_iff.mp h
    have hpassed := ih hbefore
    have hkeeps := hpassed.keeps
    rw [List.foldlM_cons] at hlast
    obtain ⟨after, hstep, hnil⟩ := Option.bind_eq_some_iff.mp hlast
    obtain rfl : after = maps := Option.some.inj hnil
    dsimp only at hstep hkeeps
    by_cases heven : passesCount % 2 = 0
    · rw [if_pos heven] at hstep hkeeps
      obtain ⟨newOccupancyMap, hpass, hafter⟩ := Option.bind_eq_some_iff.mp hstep
      obtain rfl := Option.some.inj hafter
      constructor
      · intro k hk
        obtain ⟨hfirst, hsecond⟩ := hpassed.erodes k hk
        exact ⟨hfirst, filterPass_erodes hpass hfirst hsecond⟩
      · rw [if_neg (by omega)]
        exact hkeeps.pass hfilled hpass
    · rw [if_neg heven] at hstep hkeeps
      obtain ⟨occupancyMap, hpass, hafter⟩ := Option.bind_eq_some_iff.mp hstep
      obtain rfl := Option.some.inj hafter
      constructor
      · intro k hk
        obtain ⟨hfirst, hsecond⟩ := hpassed.erodes k hk
        exact ⟨filterPass_erodes hpass hsecond hfirst, hsecond⟩
      · rw [if_pos (by omega)]
        exact hkeeps.pass hfilled hpass

theorem eroded_of_filtering (hfilled : patch.Filled) {passesCount : ℕ} {log2Threshold : ℤ}
    {patches : List LocalPatch} {occupancyMap : List ℕ}
    (h : patch.filtering sums passesCount filterSize log2Threshold patches = some occupancyMap) :
    patch.Eroded passesCount occupancyMap := by
  obtain ⟨neighborDepth, -, h⟩ := Option.bind_eq_some_iff.mp h
  obtain ⟨maps, hpasses, hlast⟩ := Option.bind_eq_some_iff.mp h
  have hpassed := passed_of_filterPasses hfilled hpasses
  obtain rfl := Option.some.inj hlast
  constructor
  · intro k hk
    obtain ⟨hfirst, hsecond⟩ := hpassed.erodes k hk
    split_ifs
    · exact hsecond
    · exact hfirst
  · intro u v hinner
    have hkept := hpassed.keeps u v hinner
    refine ⟨((hinner.of_le (Nat.zero_le passesCount)).occupied).1, 1, ?_, Nat.one_ne_zero⟩
    rw [← hkept]
    apply congrArg (fun l : List ℕ => l[patch.pixelIndex (u.toNat, v.toNat)]?)
    split_ifs <;> first | rfl | omega

end LocalPatch

/-! ### The local maps -/

/-- A local map of a size that holds zeros and ones. -/
def IsOccupancyMap (size : ℕ) (occupancyMap : List ℕ) : Prop :=
  occupancyMap.length = size ∧ ∀ occupied ∈ occupancyMap, occupied ≤ 1

theorem IsOccupancyMap.setAt {size i : ℕ} {occupancyMap occupancyMap' : List ℕ}
    (h : IsOccupancyMap size occupancyMap) (hset : setAt occupancyMap i 1 = some occupancyMap') :
    IsOccupancyMap size occupancyMap' := by
  refine ⟨(length_setAt hset).trans h.1, fun occupied hmem => ?_⟩
  unfold Cells.setAt at hset
  split_ifs at hset
  obtain rfl := Option.some.inj hset
  rcases List.mem_or_eq_of_mem_set hmem with hmem | rfl
  · exact h.2 occupied hmem
  · exact le_rfl

section LocalData

variable {input : FilterInput} {patch : CanvasPatch} {border depthMapWidth size : ℕ}
  {maps maps' : List ℤ × List ℕ}

theorem IsOccupancyMap.setLocalCell {block cell : ℕ × ℕ} (h : IsOccupancyMap size maps.2)
    (hset : setLocalCell input patch border depthMapWidth block maps cell = some maps') :
    IsOccupancyMap size maps'.2 := by
  obtain ⟨⟨x, y⟩, -, hset⟩ := Option.bind_eq_some_iff.mp hset
  obtain ⟨occupied, -, hset⟩ := Option.bind_eq_some_iff.mp hset
  split_ifs at hset
  · obtain ⟨depthMap, -, hset⟩ := Option.bind_eq_some_iff.mp hset
    obtain ⟨occupancyMap, hocm, hset⟩ := Option.bind_eq_some_iff.mp hset
    obtain rfl := Option.some.inj hset
    exact Codec.inv_of_foldlM (P := fun _ => IsOccupancyMap size) hocm h
      fun _ _ _ _ _ hinv hstep => hinv.setAt hstep
  · obtain rfl := Option.some.inj hset
    exact h

theorem IsOccupancyMap.setLocalBlock {patchIndex : ℕ} {block : ℕ × ℕ}
    (h : IsOccupancyMap size maps.2)
    (hset : setLocalBlock input patch border depthMapWidth patchIndex maps block = some maps') :
    IsOccupancyMap size maps'.2 := by
  obtain ⟨blockIndex, -, hset⟩ := Option.bind_eq_some_iff.mp hset
  obtain ⟨owner, -, hset⟩ := Option.bind_eq_some_iff.mp hset
  dsimp only at hset
  split_ifs at hset
  · exact Codec.inv_of_foldlM (P := fun _ (maps : List ℤ × List ℕ) => IsOccupancyMap size maps.2)
      hset h fun _ _ _ _ _ hinv hstep => hinv.setLocalCell hstep
  · obtain rfl := Option.some.inj hset
    exact h

/-- Where neither side overflows, the side of the map is the side of the patch and the margins. -/
theorem localSide_eq {side border localSide' : ℕ} (h : localSide side border = some localSide')
    (hborder : border ≤ 16) (hside : 0 ≤ toInt16 side) :
    localSide' = (toInt16 side).toNat + 2 * border := by
  unfold localSide at h
  split_ifs at h with hneg
  obtain rfl := Option.some.inj h
  unfold toInt16 at hside hneg ⊢
  push_cast at hneg ⊢
  rw [Int.bmod_def] at hside hneg ⊢
  rw [Int.bmod_def]
  split_ifs at * <;> omega

theorem filled_of_setLocalData {patchIndex : ℕ} {localPatch : LocalPatch}
    (h : patch.setLocalData input patchIndex = some localPatch) : localPatch.Filled := by
  unfold CanvasPatch.setLocalData at h
  dsimp only at h
  obtain ⟨depthMapWidth, hwidth, h⟩ := Option.bind_eq_some_iff.mp h
  obtain ⟨depthMapHeight, -, h⟩ := Option.bind_eq_some_iff.mp h
  obtain ⟨⟨depthMap, occupancyMap⟩, hmaps, h⟩ := Option.bind_eq_some_iff.mp h
  obtain rfl := Option.some.inj h
  have hmap : IsOccupancyMap (depthMapWidth * depthMapHeight) occupancyMap :=
    Codec.inv_of_foldlM (P := fun _ (maps : List ℤ × List ℕ) =>
      IsOccupancyMap (depthMapWidth * depthMapHeight) maps.2) hmaps
      ⟨List.length_replicate, fun _ hmem =>
        (List.eq_of_mem_replicate hmem).le.trans (Nat.zero_le 1)⟩
      fun _ _ _ _ _ hinv hstep => hinv.setLocalBlock hstep
  exact {
    width_eq := localSide_eq hwidth (by split_ifs <;> norm_num)
    length := hmap.1
    le_one := hmap.2 }

end LocalData

namespace LocalPatch

/-- What the border points and the patches nearby are kept in does not matter. -/
theorem Filled.addBorderPoint {patch patch' : LocalPatch} {pixel : ℕ × ℕ} (h : patch.Filled)
    (hadd : patch.addBorderPoint pixel = some patch') : patch'.Filled := by
  obtain ⟨isBorder, -, hadd⟩ := Option.bind_eq_some_iff.mp hadd
  split_ifs at hadd
  · obtain ⟨depth, -, hadd⟩ := Option.bind_eq_some_iff.mp hadd
    obtain ⟨point, -, hadd⟩ := Option.bind_eq_some_iff.mp hadd
    obtain rfl := Option.some.inj hadd
    exact ⟨h.width_eq, h.length, h.le_one⟩
  · obtain rfl := Option.some.inj hadd
    exact h

theorem Filled.generateBorderPoints3D {patch patch' : LocalPatch} (h : patch.Filled)
    (hgenerate : patch.generateBorderPoints3D = some patch') : patch'.Filled :=
  Codec.inv_of_foldlM (P := fun _ => Filled) hgenerate
    ⟨h.width_eq, h.length, h.le_one⟩
    fun _ _ _ _ _ hinv hstep => hinv.addBorderPoint hstep

end LocalPatch

theorem filled_of_preparePatches {input : FilterInput} {patches : List CanvasPatch}
    {locals : List LocalPatch} (h : preparePatches input patches = some locals)
    {patch : LocalPatch} (hpatch : patch ∈ locals) : patch.Filled := by
  obtain ⟨before, hbefore, h⟩ := Option.bind_eq_some_iff.mp h
  obtain rfl := Option.some.inj h
  obtain ⟨source, hsource, rfl⟩ := List.mem_map.mp hpatch
  obtain ⟨⟨canvasPatch, patchIndex⟩, -, hlocal⟩ :=
    Codec.exists_mem_of_mapM_eq_some hbefore hsource
  obtain ⟨localPatch, hset, hgenerate⟩ := Option.bind_eq_some_iff.mp hlocal
  have hfilled := (filled_of_setLocalData hset).generateBorderPoints3D hgenerate
  exact ⟨hfilled.width_eq, hfilled.length, hfilled.le_one⟩

/-! ### The order of the patches -/

section Order

variable {φ : Type} {sums : DistanceSums φ} {passesCount : ℕ} {filterSize log2Threshold : ℤ}

/-- Of the other patches, the filter reads the border points only. -/
theorem LocalPatch.filtering_congr {patch : LocalPatch} {patches patches' : List LocalPatch}
    (h : patches.map LocalPatch.borderPoints = patches'.map LocalPatch.borderPoints) :
    patch.filtering sums passesCount filterSize log2Threshold patches =
      patch.filtering sums passesCount filterSize log2Threshold patches' := by
  have hdepths (threshold : ℤ) : patch.neighborDepths patches threshold =
      patch.neighborDepths patches' threshold := by
    unfold LocalPatch.neighborDepths
    congr 1
    funext neighborDepth i
    have hread := congrArg (fun points => points[i]?) h
    rw [List.getElem?_map, List.getElem?_map] at hread
    cases hi : patches[i]? with
    | none =>
      rw [hi, Option.map_none] at hread
      rw [Option.map_eq_none_iff.mp hread.symm]
    | some other =>
      rw [hi, Option.map_some] at hread
      obtain ⟨other', hi', hpoints⟩ := Option.map_eq_some_iff.mp hread.symm
      rw [hi', Option.bind_eq_bind, Option.bind_some, Option.bind_some, hpoints]
  unfold LocalPatch.filtering
  rw [hdepths]

/-- What the filter makes of a patch of the frame, whatever is filtered before it. -/
def LocalPatch.Filters (sums : DistanceSums φ) (passesCount : ℕ) (filterSize log2Threshold : ℤ)
    (locals : List LocalPatch) (patch filtered : LocalPatch) : Prop :=
  ∃ occupancyMap, patch.filtering sums passesCount filterSize log2Threshold locals =
    some occupancyMap ∧ filtered = { patch with occupancyMap }

variable {locals : List LocalPatch}

theorem LocalPatch.Filters.borderPoints {patch filtered : LocalPatch}
    (h : patch.Filters sums passesCount filterSize log2Threshold locals filtered) :
    filtered.borderPoints = patch.borderPoints := by
  obtain ⟨occupancyMap, -, rfl⟩ := h
  rfl

/-- A frame some of whose patches are filtered has the border points that it had. -/
theorem map_borderPoints_set {current : List LocalPatch} {i : ℕ} {patch filtered : LocalPatch}
    (hi : current[i]? = some patch) (h : filtered.borderPoints = patch.borderPoints) :
    (current.set i filtered).map LocalPatch.borderPoints =
      current.map LocalPatch.borderPoints := by
  rw [List.map_set, h]
  apply List.ext_getElem?
  intro j
  by_cases hij : i = j
  · subst hij
    have hlt := (List.getElem?_eq_some_iff.mp hi).1
    rw [List.getElem?_set_self (by rwa [List.length_map]), List.getElem?_map, hi]
    rfl
  · rw [List.getElem?_set_ne hij]

/-- The patches of the order are filtered, each as it would be first. -/
theorem filters_of_filterInOrder {order : List ℕ} (hnodup : order.Nodup)
    {current filtered : List LocalPatch}
    (hpoints : current.map LocalPatch.borderPoints = locals.map LocalPatch.borderPoints)
    (h : filterInOrder sums passesCount filterSize log2Threshold order current = some filtered) :
    ∀ i : ℕ, (i ∉ order → filtered[i]? = current[i]?) ∧
      (i ∈ order → ∃ patch patch', current[i]? = some patch ∧ filtered[i]? = some patch' ∧
        patch.Filters sums passesCount filterSize log2Threshold locals patch') := by
  induction order generalizing current with
  | nil =>
    obtain rfl := Option.some.inj h
    exact fun i => ⟨fun _ => rfl, nofun⟩
  | cons k order ih =>
    obtain ⟨next, hstep, hrest⟩ := Option.bind_eq_some_iff.mp (List.foldlM_cons.symm.trans h)
    obtain ⟨patch, hk, hstep⟩ := Option.bind_eq_some_iff.mp hstep
    obtain ⟨occupancyMap, hfiltering, hset⟩ := Option.bind_eq_some_iff.mp hstep
    unfold setAt at hset
    split_ifs at hset with hlt
    obtain rfl := Option.some.inj hset
    rw [LocalPatch.filtering_congr hpoints] at hfiltering
    obtain ⟨hnotMem, hnodup⟩ := List.nodup_cons.mp hnodup
    have hnext : patch.Filters sums passesCount filterSize log2Threshold locals
        { patch with occupancyMap } := ⟨occupancyMap, hfiltering, rfl⟩
    have hrun := ih hnodup ((map_borderPoints_set hk hnext.borderPoints).trans hpoints) hrest
    intro i
    obtain ⟨hout, hin⟩ := hrun i
    by_cases hik : k = i
    · subst hik
      refine ⟨fun hi => absurd List.mem_cons_self hi, fun _ => ⟨patch, _, hk, ?_, hnext⟩⟩
      rw [hout hnotMem, List.getElem?_set_self hlt]
    · rw [List.getElem?_set_ne hik] at hout hin
      refine ⟨fun hi => hout fun hmem => hi (List.mem_cons_of_mem k hmem), fun hi => hin ?_⟩
      rcases List.mem_cons.mp hi with rfl | hi
      · exact absurd rfl hik
      · exact hi

theorem length_of_filterInOrder {order : List ℕ} {current filtered : List LocalPatch}
    (h : filterInOrder sums passesCount filterSize log2Threshold order current = some filtered) :
    filtered.length = current.length := by
  apply Codec.inv_of_foldlM (P := fun _ (next : List LocalPatch) => next.length = current.length) h
    rfl
  intro _ i next next' _ hinv hstep
  obtain ⟨patch, -, hstep⟩ := Option.bind_eq_some_iff.mp hstep
  obtain ⟨occupancyMap, -, hset⟩ := Option.bind_eq_some_iff.mp hstep
  exact (length_setAt hset).trans hinv

/-- A filtered frame is what every order gives that visits the patches that are left. -/
theorem filterInOrder_eq_some {filtered : List LocalPatch}
    (hfilters : ∀ (i : ℕ) (patch : LocalPatch), locals[i]? = some patch →
      ∃ patch', filtered[i]? = some patch' ∧
      patch.Filters sums passesCount filterSize log2Threshold locals patch')
    {order : List ℕ} (hnodup : order.Nodup) (horder : ∀ i ∈ order, i < locals.length)
    {current : List LocalPatch}
    (hpoints : current.map LocalPatch.borderPoints = locals.map LocalPatch.borderPoints)
    (hcurrent : ∀ i : ℕ, current[i]? = if i ∈ order then locals[i]? else filtered[i]?) :
    filterInOrder sums passesCount filterSize log2Threshold order current = some filtered := by
  induction order generalizing current with
  | nil =>
    obtain rfl : current = filtered := List.ext_getElem? (by simpa using hcurrent)
    rfl
  | cons k order ih =>
    obtain ⟨hnotMem, hnodup⟩ := List.nodup_cons.mp hnodup
    obtain ⟨patch, hlocal⟩ : ∃ patch, locals[k]? = some patch :=
      ⟨_, List.getElem?_eq_getElem (horder k List.mem_cons_self)⟩
    obtain ⟨patch', hpatch', hfiltered⟩ := hfilters k patch hlocal
    have hk : current[k]? = some patch := by
      rw [hcurrent k, if_pos List.mem_cons_self, hlocal]
    have hlt := (List.getElem?_eq_some_iff.mp hk).1
    have hnext := ih hnodup (fun i hi => horder i (List.mem_cons_of_mem k hi))
      ((map_borderPoints_set hk hfiltered.borderPoints).trans hpoints) (by
        intro i
        by_cases hik : k = i
        · subst hik
          rw [List.getElem?_set_self hlt, if_neg hnotMem, hpatch']
        · rw [List.getElem?_set_ne hik, hcurrent i]
          simp only [List.mem_cons, Ne.symm hik, false_or])
    obtain ⟨occupancyMap, hfiltering, rfl⟩ := hfiltered
    rw [← LocalPatch.filtering_congr hpoints] at hfiltering
    exact List.foldlM_cons.trans (Option.bind_eq_some_iff.mpr ⟨_,
      Option.bind_eq_some_iff.mpr ⟨patch, hk,
        Option.bind_eq_some_iff.mpr ⟨occupancyMap, hfiltering, if_pos hlt⟩⟩, hnext⟩)

end Order

/-- The filter occupies nothing and keeps what is farther from the border than its passes reach,
and every order of the patches gives the same frame. -/
structure ErodedInAnyOrder {φ : Type} (sums : DistanceSums φ) (passesCount : ℕ)
    (filterSize log2Threshold : ℤ) (locals filtered : List LocalPatch) : Prop where
  length_eq : filtered.length = locals.length
  eroded : ∀ (i : ℕ) (patch patch' : LocalPatch), locals[i]? = some patch →
    filtered[i]? = some patch' → patch' = { patch with occupancyMap := patch'.occupancyMap } ∧
      patch.Eroded passesCount patch'.occupancyMap
  any_order : ∀ order : List ℕ, order.Perm (List.range locals.length) →
    filterInOrder sums passesCount filterSize log2Threshold order locals = some filtered

/-- Where every access is in range, the filter of the borders erodes, in any order of the
patches. -/
theorem patchBorderFiltering_erodes {φ : Type} (sums : DistanceSums φ) (input : FilterInput)
    (passesCount : ℕ) (filterSize log2Threshold : ℤ) (patches : List CanvasPatch)
    (filtered : List LocalPatch)
    (h : patchBorderFiltering sums input passesCount filterSize log2Threshold patches =
      some filtered) :
    ∃ locals, preparePatches input patches = some locals ∧
      ErodedInAnyOrder sums passesCount filterSize log2Threshold locals filtered := by
  obtain ⟨locals, hprepare, hfilter⟩ := Option.bind_eq_some_iff.mp h
  have hrun := filters_of_filterInOrder List.nodup_range rfl hfilter
  have hfilters (i : ℕ) (patch : LocalPatch) (hi : locals[i]? = some patch) :
      ∃ patch', filtered[i]? = some patch' ∧
        patch.Filters sums passesCount filterSize log2Threshold locals patch' := by
    have hlt := (List.getElem?_eq_some_iff.mp hi).1
    obtain ⟨source, patch', hsource, hpatch', hfilters⟩ := (hrun i).2 (List.mem_range.mpr hlt)
    obtain rfl : source = patch := Option.some.inj (hsource.symm.trans hi)
    exact ⟨patch', hpatch', hfilters⟩
  refine ⟨locals, hprepare, length_of_filterInOrder hfilter, ?_, ?_⟩
  · intro i patch patch' hi hi'
    obtain ⟨patch'', hpatch'', occupancyMap, hfiltering, rfl⟩ := hfilters i patch hi
    obtain rfl := Option.some.inj (hpatch''.symm.trans hi')
    exact ⟨rfl, LocalPatch.eroded_of_filtering
      (filled_of_preparePatches hprepare (List.mem_of_getElem? hi)) hfiltering⟩
  · intro order hperm
    apply filterInOrder_eq_some hfilters (hperm.nodup_iff.mpr List.nodup_range)
      (fun i hi => List.mem_range.mp (hperm.mem_iff.mp hi)) rfl
    intro i
    split_ifs with hmem
    · rfl
    · rw [(hrun i).1 fun hrange => hmem (hperm.mem_iff.mpr hrange)]

/-- Sums of the integer parts of the distances. -/
def integerSums : DistanceSums ℤ where
  zero := 0
  addSqrt sum n := sum + Nat.sqrt n.toNat
  ge lhs rhs := decide (lhs ≥ rhs)

/-- An occupied frame of two blocks, each a patch. -/
def occupiedFrame : FilterInput where
  occupancyMapVideo := List.replicate 32 1
  geometryVideo := List.replicate 32 0
  blockToPatch := [1, 2]
  width := 8
  height := 4
  occupancyPrecision := 1
  threshold := 0

/-- Two patches of a plane that share a column of points. -/
def overlapping : List CanvasPatch :=
  let patch : CanvasPatch := { sizeU0 := 1, sizeV0 := 1, occupancyResolution := 4 }
  [patch, { patch with u0 := 1, u1 := 3 }]

/-- Two passes leave ten of the sixteen pixels of a patch, and six of the other. -/
theorem patchBorderFiltering_erodes_overlapping :
    ∃ filtered, patchBorderFiltering integerSums occupiedFrame 2 2 4 overlapping = some filtered ∧
      filtered.map (fun patch => patch.occupancyMap.sum) = [10, 6] ∧
      ∃ locals, preparePatches occupiedFrame overlapping = some locals ∧
        ErodedInAnyOrder integerSums 2 2 4 locals filtered := by
  have hsums : (patchBorderFiltering integerSums occupiedFrame 2 2 4 overlapping).map
      (fun filtered => filtered.map fun patch => patch.occupancyMap.sum) = some [10, 6] := by
    decide +kernel
  obtain ⟨filtered, hfiltered, hsum⟩ := Option.map_eq_some_iff.mp hsums
  exact ⟨filtered, hfiltered, hsum, patchBorderFiltering_erodes _ _ _ _ _ _ filtered hfiltered⟩

end V3C

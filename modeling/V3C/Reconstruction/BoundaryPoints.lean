import V3C.Common.Integer
import Mathlib.Data.Nat.Cast.Order.Basic

/-! `PCCCodec::identifyBoundaryPoints`: the points near the border of the occupied region. -/
namespace V3C

/-- `BPflag` and the boundary point types of the reconstruction. -/
structure BoundaryMarks where
  BPflag : List ℕ
  boundaryPointTypes : List ℕ
  deriving DecidableEq, Repr

/-- `reconstruct.setBoundaryPointType( pointindex, 1 )`. -/
def BoundaryMarks.setBoundaryPointType (marks : BoundaryMarks) (pointindex : ℕ) :
    Option BoundaryMarks :=
  if pointindex < marks.boundaryPointTypes.length then
    some { marks with boundaryPointTypes := marks.boundaryPointTypes.set pointindex 1 }
  else none

/-- The first layer also sets the flag of the pixel. -/
def BoundaryMarks.mark (marks : BoundaryMarks) (pixel pointindex : ℕ) : Option BoundaryMarks :=
  if pixel < marks.BPflag.length then
    { marks with BPflag := marks.BPflag.set pixel 1 }.setBoundaryPointType pointindex
  else none

/-- `occupancyMap[y * imageWidth + x]`. A column or a row outside of the image is not read, also
where its index would be one of the vector. -/
def occupancyAt (occupancyMap : List ℕ) (imageWidth imageHeight : ℕ) (pixel : ℕ × ℕ) : Option ℕ :=
  if pixel.1 < imageWidth ∧ pixel.2 < imageHeight then
    occupancyMap[pixel.2 * imageWidth + pixel.1]?
  else none

/-- `occupancyMap[..] == 0 || occupancyMap[..] == 0`, of two pixels. -/
def eitherEmpty (occupancyMap : List ℕ) (imageWidth imageHeight : ℕ) (first second : ℕ × ℕ) :
    Option Bool := do
  let occupancy ← occupancyAt occupancyMap imageWidth imageHeight first
  if occupancy = 0 then some true
  else do
    let occupancy ← occupancyAt occupancyMap imageWidth imageHeight second
    some (decide (occupancy = 0))

/-- A pair of opposite neighbours of the first layer. -/
def testNeighbours (occupancyMap : List ℕ) (x y imageWidth imageHeight pointindex : ℕ)
    (first second : ℕ × ℕ) (marks : BoundaryMarks) : Option BoundaryMarks := do
  let empty ← eitherEmpty occupancyMap imageWidth imageHeight first second
  if empty then marks.mark (y * imageWidth + x) pointindex else some marks

/-- `reconstruct.getBoundaryPointType( pointindex ) != 1`, the last operand of each guard. -/
def unlessMarked (pointindex : ℕ) (step : BoundaryMarks → Option BoundaryMarks)
    (marks : BoundaryMarks) : Option BoundaryMarks := do
  let type ← marks.boundaryPointTypes[pointindex]?
  if type ≠ 1 then step marks else some marks

/-- A conditional without an else branch. -/
def onlyIf (guard : Prop) [Decidable guard] (step : BoundaryMarks → Option BoundaryMarks)
    (marks : BoundaryMarks) : Option BoundaryMarks :=
  if guard then step marks else some marks

def firstLayer (occupancyMap : List ℕ) (x y imageWidth imageHeight pointindex : ℕ)
    (marks : BoundaryMarks) : Option BoundaryMarks := do
  let testPair := testNeighbours occupancyMap x y imageWidth imageHeight pointindex
  let yInside := 0 < y ∧ y < toSizeT (imageHeight - 1)
  let marks ← onlyIf yInside (testPair (x, y - 1) (x, y + 1)) marks
  let marks ← onlyIf (0 < x ∧ x < toSizeT (imageWidth - 1)) (unlessMarked pointindex
    (testPair (x + 1, y) (x - 1, y))) marks
  let marks ← onlyIf (yInside ∧ 0 < x) (unlessMarked pointindex
    (testPair (x - 1, y - 1) (x - 1, y + 1))) marks
  let marks ← onlyIf (yInside ∧ x < toSizeT (imageWidth - 1)) (unlessMarked pointindex
    (testPair (x + 1, y - 1) (x + 1, y + 1))) marks
  onlyIf (y = 0 ∨ y = toSizeT (imageHeight - 1) ∨ x = 0 ∨ x = toSizeT (imageWidth - 1))
    (fun marks => marks.mark (y * imageWidth + x) pointindex) marks

/-- The offsets in the order of the two loops, `ix` in the outer one. -/
def secondLayerOffsets : List (ℤ × ℤ) :=
  ([-2, -1, 0, 1, 2] : List ℤ).flatMap fun ix => ([-2, -1, 0, 1, 2] : List ℤ).map fun iy => (ix, iy)

/-- The loops end at the first empty pixel, where `ix` and `iy` are set to 4. The sums are unsigned. -/
def searchEmpty (occupancyMap : List ℕ) (x y imageWidth imageHeight : ℕ) :
    List (ℤ × ℤ) → Option Bool
  | [] => some false
  | (ix, iy) :: offsets =>
    if (1 < |ix| ∨ 1 < |iy|) ∧ toSizeT (y + iy) < imageHeight ∧ toSizeT (x + ix) < imageWidth then do
      let neighbour ← occupancyAt occupancyMap imageWidth imageHeight
        (toSizeT (x + ix), toSizeT (y + iy))
      if neighbour = 0 then some true
      else searchEmpty occupancyMap x y imageWidth imageHeight offsets
    else searchEmpty occupancyMap x y imageWidth imageHeight offsets

def secondLayer (occupancyMap : List ℕ) (x y imageWidth imageHeight pointindex : ℕ)
    (marks : BoundaryMarks) : Option BoundaryMarks := do
  let empty ← searchEmpty occupancyMap x y imageWidth imageHeight secondLayerOffsets
  let marks ← onlyIf empty (fun marks => marks.setBoundaryPointType pointindex) marks
  onlyIf (y = 1 ∨ y = toSizeT (imageHeight - 2) ∨ x = 1 ∨ x = toSizeT (imageWidth - 2))
    (fun marks => marks.setBoundaryPointType pointindex) marks

/-- `PCCCodec::identifyBoundaryPoints`. -/
def identifyBoundaryPoints (occupancyMap : List ℕ) (x y imageWidth imageHeight pointindex : ℕ)
    (marks : BoundaryMarks) : Option BoundaryMarks := do
  let occupancy ← occupancyAt occupancyMap imageWidth imageHeight (x, y)
  let marks ← onlyIf (occupancy ≠ 0)
    (firstLayer occupancyMap x y imageWidth imageHeight pointindex) marks
  onlyIf (occupancy ≠ 0) (unlessMarked pointindex
    (secondLayer occupancyMap x y imageWidth imageHeight pointindex)) marks

/-- The loop over the points at the end of `generatePointCloud`, each with its pixel. -/
def identifyAllBoundaryPoints (occupancyMap : List ℕ) (tileWidth tileHeight : ℕ) :
    List (ℕ × ℕ) → ℕ → BoundaryMarks → Option BoundaryMarks
  | [], _, marks => some marks
  | (x, y) :: pointToPixel, i, marks => do
    let occupancy ← occupancyAt occupancyMap tileWidth tileHeight (x, y)
    let marks ← onlyIf (occupancy ≠ 0)
      (identifyBoundaryPoints occupancyMap x y tileWidth tileHeight i) marks
    identifyAllBoundaryPoints occupancyMap tileWidth tileHeight pointToPixel (i + 1) marks

/-! What the marks mean. -/

/-- A pixel that is outside of the image or is not occupied. -/
def Vacant (occupancyMap : List ℕ) (imageWidth imageHeight : ℕ) (x y : ℤ) : Prop :=
  ¬ (0 ≤ x ∧ x < imageWidth ∧ 0 ≤ y ∧ y < imageHeight) ∨
    occupancyMap[y.toNat * imageWidth + x.toNat]? = some 0

/-- Some pixel within Chebyshev distance two is vacant. -/
def NearVacant (occupancyMap : List ℕ) (imageWidth imageHeight x y : ℕ) : Prop :=
  ∃ dx dy : ℤ, |dx| ≤ 2 ∧ |dy| ≤ 2 ∧ Vacant occupancyMap imageWidth imageHeight (x + dx) (y + dy)

/-- The type of one point becomes 1 where the condition holds; the other types stay. -/
structure Marks (pointindex : ℕ) (cond : Prop) (before after : BoundaryMarks) : Prop where
  flags : after.BPflag.length = before.BPflag.length
  others : ∀ k, k ≠ pointindex → after.boundaryPointTypes[k]? = before.boundaryPointTypes[k]?
  types : after.boundaryPointTypes.length = before.boundaryPointTypes.length
  marked : after.boundaryPointTypes[pointindex]? = some 1 ↔
    before.boundaryPointTypes[pointindex]? = some 1 ∨ cond

section Marks

variable {pointindex pixel : ℕ} {before middle after : BoundaryMarks} {cond cond' : Prop}

theorem Marks.none (hcond : ¬ cond) : Marks pointindex cond before before where
  flags := rfl
  others _ _ := rfl
  types := rfl
  marked := by simp [hcond]

theorem Marks.seq (h : Marks pointindex cond before middle)
    (h' : Marks pointindex cond' middle after) : Marks pointindex (cond ∨ cond') before after where
  flags := h'.flags.trans h.flags
  others k hk := (h'.others k hk).trans (h.others k hk)
  types := h'.types.trans h.types
  marked := by rw [h'.marked, h.marked, or_assoc]

theorem Marks.congr (h : Marks pointindex cond before after) (hiff : cond ↔ cond') :
    Marks pointindex cond' before after where
  flags := h.flags
  others := h.others
  types := h.types
  marked := h.marked.trans (or_congr_right hiff)

theorem exists_setBoundaryPointType (before : BoundaryMarks)
    (hpoint : pointindex < before.boundaryPointTypes.length) :
    ∃ after, before.setBoundaryPointType pointindex = some after ∧
      Marks pointindex True before after := by
  refine ⟨_, if_pos hpoint, ?_⟩
  constructor
  · rfl
  · intro k hk
    exact List.getElem?_set_ne (Ne.symm hk)
  · exact List.length_set
  · simp [List.getElem?_set_self hpoint]

theorem exists_mark (hpixel : pixel < before.BPflag.length)
    (hpoint : pointindex < before.boundaryPointTypes.length) :
    ∃ after, before.mark pixel pointindex = some after ∧ Marks pointindex True before after := by
  unfold BoundaryMarks.mark
  rw [if_pos hpixel]
  obtain ⟨after, hafter, hmarks⟩ := exists_setBoundaryPointType
    { before with BPflag := before.BPflag.set pixel 1 } hpoint
  refine ⟨after, hafter, ?_, hmarks.others, hmarks.types, hmarks.marked⟩
  exact hmarks.flags.trans List.length_set

/-- A mark that is skipped where the point has one already adds the same condition. -/
theorem exists_unlessMarked {step : BoundaryMarks → Option BoundaryMarks}
    (hpoint : pointindex < before.boundaryPointTypes.length)
    (hstep : ∃ after, step before = some after ∧ Marks pointindex cond before after) :
    ∃ after, unlessMarked pointindex step before = some after ∧
      Marks pointindex cond before after := by
  unfold unlessMarked
  rw [List.getElem?_eq_getElem hpoint]
  by_cases hone : before.boundaryPointTypes[pointindex] = 1
  · refine ⟨before, by simp [hone], rfl, fun _ _ => rfl, rfl, ?_⟩
    simp [List.getElem?_eq_getElem hpoint, hone]
  · simpa [hone] using hstep

theorem exists_onlyIf (guard : Prop) [Decidable guard]
    (step : BoundaryMarks → Option BoundaryMarks)
    (hstep : guard → ∃ after, step before = some after ∧ Marks pointindex cond before after) :
    ∃ after, onlyIf guard step before = some after ∧
      Marks pointindex (guard ∧ cond) before after := by
  unfold onlyIf
  by_cases hguard : guard
  · obtain ⟨after, hafter, hmarks⟩ := hstep hguard
    refine ⟨after, by rw [if_pos hguard, hafter], hmarks.congr ?_⟩
    simp [hguard]
  · exact ⟨before, if_neg hguard, Marks.none fun h => hguard h.1⟩

end Marks

/-! The two layers. -/

/-- A pixel of an image whose map, a vector in memory, has one entry for each pixel. -/
structure InImage (occupancyMap : List ℕ) (imageWidth imageHeight x y : ℕ) : Prop where
  size : occupancyMap.length = imageWidth * imageHeight
  memory : occupancyMap.length < 2 ^ 62
  column : x < imageWidth
  row : y < imageHeight

section Layers

variable {occupancyMap : List ℕ} {x y imageWidth imageHeight pointindex : ℕ}
  {marks : BoundaryMarks}

theorem InImage.index_lt (h : InImage occupancyMap imageWidth imageHeight x y) {a b : ℕ}
    (ha : a < imageWidth) (hb : b < imageHeight) : b * imageWidth + a < occupancyMap.length := by
  rw [h.size]
  exact pixel_lt ha hb

theorem occupancyAt_eq {a b : ℕ} (ha : a < imageWidth) (hb : b < imageHeight) :
    occupancyAt occupancyMap imageWidth imageHeight (a, b) =
      occupancyMap[b * imageWidth + a]? :=
  if_pos ⟨ha, hb⟩

theorem InImage.bounds (h : InImage occupancyMap imageWidth imageHeight x y) :
    imageWidth < 2 ^ 62 ∧ imageHeight < 2 ^ 62 := by
  have hmemory := h.memory
  rw [h.size] at hmemory
  constructor
  · exact lt_of_le_of_lt (Nat.le_mul_of_pos_right _ (Nat.zero_lt_of_lt h.row)) hmemory
  · exact lt_of_le_of_lt (Nat.le_mul_of_pos_left _ (Nat.zero_lt_of_lt h.column)) hmemory

/-- The unsigned end of the image that the guards compare with. -/
theorem toSizeT_pred {n : ℕ} (hn : n < 2 ^ 62) (hpos : 0 < n) : toSizeT (n - 1) = n - 1 := by
  rw [toSizeT_of_lt (by omega) (by omega)]
  omega

theorem vacant_inside {a b : ℕ} (ha : a < imageWidth) (hb : b < imageHeight) :
    Vacant occupancyMap imageWidth imageHeight a b ↔
      occupancyMap[b * imageWidth + a]? = some 0 := by
  unfold Vacant
  rw [Int.toNat_natCast, Int.toNat_natCast, or_iff_right]
  omega

theorem vacant_outside {a b : ℤ} (h : a < 0 ∨ imageWidth ≤ a ∨ b < 0 ∨ imageHeight ≤ b) :
    Vacant occupancyMap imageWidth imageHeight a b := by
  left
  omega

/-- The pixel lies in the image and has no occupancy. -/
def EmptyAt (occupancyMap : List ℕ) (imageWidth imageHeight : ℕ) (pixel : ℕ × ℕ) : Prop :=
  occupancyAt occupancyMap imageWidth imageHeight pixel = some 0

theorem emptyAt_iff {a b : ℕ} (ha : a < imageWidth) (hb : b < imageHeight) :
    EmptyAt occupancyMap imageWidth imageHeight (a, b) ↔
      occupancyMap[b * imageWidth + a]? = some 0 := by
  unfold EmptyAt
  rw [occupancyAt_eq ha hb]

theorem eitherEmpty_eq (h : InImage occupancyMap imageWidth imageHeight x y) {a b a' b' : ℕ}
    (hfirst : a < imageWidth ∧ b < imageHeight) (hsecond : a' < imageWidth ∧ b' < imageHeight) :
    ∃ empty, eitherEmpty occupancyMap imageWidth imageHeight (a, b) (a', b') = some empty ∧
      (empty = true ↔ EmptyAt occupancyMap imageWidth imageHeight (a, b) ∨
        EmptyAt occupancyMap imageWidth imageHeight (a', b')) := by
  unfold eitherEmpty EmptyAt
  rw [occupancyAt_eq hfirst.1 hfirst.2, occupancyAt_eq hsecond.1 hsecond.2,
    List.getElem?_eq_getElem (h.index_lt hfirst.1 hfirst.2),
    List.getElem?_eq_getElem (h.index_lt hsecond.1 hsecond.2), Option.bind_eq_bind,
    Option.bind_some, Option.bind_some]
  split_ifs with hzero
  · exact ⟨true, rfl, by simp [hzero]⟩
  · exact ⟨_, rfl, by simp [hzero]⟩

theorem exists_testNeighbours (h : InImage occupancyMap imageWidth imageHeight x y)
    {a b a' b' : ℕ} (hfirst : a < imageWidth ∧ b < imageHeight)
    (hsecond : a' < imageWidth ∧ b' < imageHeight)
    (hpixel : y * imageWidth + x < marks.BPflag.length)
    (hpoint : pointindex < marks.boundaryPointTypes.length) :
    ∃ after, testNeighbours occupancyMap x y imageWidth imageHeight pointindex (a, b) (a', b')
        marks = some after ∧
      Marks pointindex (EmptyAt occupancyMap imageWidth imageHeight (a, b) ∨
        EmptyAt occupancyMap imageWidth imageHeight (a', b')) marks after := by
  obtain ⟨empty, hempty, hiff⟩ := eitherEmpty_eq h hfirst hsecond
  unfold testNeighbours
  rw [hempty, Option.bind_eq_bind, Option.bind_some]
  cases empty with
  | true =>
    obtain ⟨after, hafter, hmarks⟩ := exists_mark hpixel hpoint
    exact ⟨after, hafter, hmarks.congr (by simpa using hiff)⟩
  | false =>
    refine ⟨marks, rfl, Marks.none fun hcond => ?_⟩
    cases hiff.mpr hcond

/-- The five conditions under which the first layer marks the point. -/
def FirstLayerVacant (occupancyMap : List ℕ) (imageWidth imageHeight x y : ℕ) : Prop :=
  let empty (a b : ℕ) := EmptyAt occupancyMap imageWidth imageHeight (a, b)
  ((((((0 < y ∧ y < imageHeight - 1) ∧ (empty x (y - 1) ∨ empty x (y + 1))) ∨
    ((0 < x ∧ x < imageWidth - 1) ∧ (empty (x + 1) y ∨ empty (x - 1) y))) ∨
    (((0 < y ∧ y < imageHeight - 1) ∧ 0 < x) ∧ (empty (x - 1) (y - 1) ∨ empty (x - 1) (y + 1)))) ∨
    (((0 < y ∧ y < imageHeight - 1) ∧ x < imageWidth - 1) ∧
      (empty (x + 1) (y - 1) ∨ empty (x + 1) (y + 1)))) ∨
    (y = 0 ∨ y = imageHeight - 1 ∨ x = 0 ∨ x = imageWidth - 1) ∧ True)

theorem exists_firstLayer (h : InImage occupancyMap imageWidth imageHeight x y)
    (hflags : marks.BPflag.length = imageWidth * imageHeight)
    (hpoint : pointindex < marks.boundaryPointTypes.length) :
    ∃ after, firstLayer occupancyMap x y imageWidth imageHeight pointindex marks = some after ∧
      Marks pointindex (FirstLayerVacant occupancyMap imageWidth imageHeight x y) marks after := by
  have hcolumn := h.column
  have hrow := h.row
  obtain ⟨hwidth, hheight⟩ := h.bounds
  have hpixel : y * imageWidth + x < marks.BPflag.length := by
    rw [hflags, ← h.size]
    exact h.index_lt hcolumn hrow
  have hyEnd : toSizeT (imageHeight - 1) = imageHeight - 1 := toSizeT_pred hheight (by omega)
  have hxEnd : toSizeT (imageWidth - 1) = imageWidth - 1 := toSizeT_pred hwidth (by omega)
  have htest {a b a' b' : ℕ} {before : BoundaryMarks} (hfirst : a < imageWidth ∧ b < imageHeight)
      (hsecond : a' < imageWidth ∧ b' < imageHeight)
      (hsame : before.BPflag.length = marks.BPflag.length)
      (htypes : before.boundaryPointTypes.length = marks.boundaryPointTypes.length) :=
    exists_testNeighbours h hfirst hsecond (hsame ▸ hpixel) (htypes ▸ hpoint)
  unfold firstLayer
  dsimp only
  rw [hyEnd, hxEnd]
  have hfirst := exists_onlyIf (0 < y ∧ y < imageHeight - 1) _ fun hy => htest
    (show x < imageWidth ∧ y - 1 < imageHeight by omega)
    (show x < imageWidth ∧ y + 1 < imageHeight by omega) rfl rfl
  obtain ⟨s1, h1, m1⟩ := hfirst
  have hsecond := exists_onlyIf (0 < x ∧ x < imageWidth - 1) _ fun hx =>
    exists_unlessMarked (m1.types ▸ hpoint) (htest
      (show x + 1 < imageWidth ∧ y < imageHeight by omega)
      (show x - 1 < imageWidth ∧ y < imageHeight by omega) m1.flags m1.types)
  obtain ⟨s2, h2, m2⟩ := hsecond
  have m12 := m1.seq m2
  have hthird := exists_onlyIf ((0 < y ∧ y < imageHeight - 1) ∧ 0 < x) _ fun hxy =>
    exists_unlessMarked (m12.types ▸ hpoint) (htest
      (show x - 1 < imageWidth ∧ y - 1 < imageHeight by omega)
      (show x - 1 < imageWidth ∧ y + 1 < imageHeight by omega) m12.flags m12.types)
  obtain ⟨s3, h3, m3⟩ := hthird
  have m123 := m12.seq m3
  have hfourth := exists_onlyIf
    ((0 < y ∧ y < imageHeight - 1) ∧ x < imageWidth - 1) _ fun hxy =>
    exists_unlessMarked (m123.types ▸ hpoint) (htest
      (show x + 1 < imageWidth ∧ y - 1 < imageHeight by omega)
      (show x + 1 < imageWidth ∧ y + 1 < imageHeight by omega) m123.flags m123.types)
  obtain ⟨s4, h4, m4⟩ := hfourth
  have m1234 := m123.seq m4
  have hlast := exists_onlyIf
    (y = 0 ∨ y = imageHeight - 1 ∨ x = 0 ∨ x = imageWidth - 1)
    (fun marks => marks.mark (y * imageWidth + x) pointindex) fun _ =>
    exists_mark (m1234.flags ▸ hpixel) (m1234.types ▸ hpoint)
  obtain ⟨s5, h5, m5⟩ := hlast
  refine ⟨s5, ?_, m1234.seq m5⟩
  simp only [h1, h2, h3, h4, h5, bind, Option.bind_some]

/-- An unsigned sum is inside of the image where the sum of the integers is. -/
theorem toSizeT_add_lt {n size : ℕ} (hn : n < 2 ^ 62) (hsize : size < 2 ^ 62) {d : ℤ} (hd : |d| ≤ 2) :
    toSizeT (n + d) < size ↔ 0 ≤ n + d ∧ n + d < size := by
  have habs := abs_le.mp hd
  unfold toSizeT
  omega

theorem toSizeT_add_eq {n : ℕ} {d : ℤ} (hn : n < 2 ^ 62) (hd : |d| ≤ 2) (hpos : 0 ≤ n + d) :
    toSizeT (n + d) = (n + d).toNat := by
  have habs := abs_le.mp hd
  exact toSizeT_of_lt hpos (by omega)

/-- The offsets at which the second layer finds an empty pixel. -/
def FoundAt (occupancyMap : List ℕ) (imageWidth imageHeight x y : ℕ) (d : ℤ × ℤ) : Prop :=
  (1 < |d.1| ∨ 1 < |d.2|) ∧ (0 ≤ x + d.1 ∧ x + d.1 < imageWidth) ∧
    (0 ≤ y + d.2 ∧ y + d.2 < imageHeight) ∧
    Vacant occupancyMap imageWidth imageHeight (x + d.1) (y + d.2)

theorem exists_searchEmpty (h : InImage occupancyMap imageWidth imageHeight x y)
    (offsets : List (ℤ × ℤ)) (hoffsets : ∀ d ∈ offsets, |d.1| ≤ 2 ∧ |d.2| ≤ 2) :
    ∃ empty, searchEmpty occupancyMap x y imageWidth imageHeight offsets = some empty ∧
      (empty = true ↔ ∃ d ∈ offsets, FoundAt occupancyMap imageWidth imageHeight x y d) := by
  have hcolumn := h.column
  have hrow := h.row
  obtain ⟨hwidth, hheight⟩ := h.bounds
  induction offsets with
  | nil => exact ⟨false, rfl, by simp⟩
  | cons d offsets ih =>
    obtain ⟨empty, hempty, hiff⟩ := ih fun e he => hoffsets e (List.mem_cons_of_mem d he)
    obtain ⟨hx, hy⟩ := hoffsets d List.mem_cons_self
    have hxin := toSizeT_add_lt (show x < 2 ^ 62 by omega) hwidth hx
    have hyin := toSizeT_add_lt (show y < 2 ^ 62 by omega) hheight hy
    simp only [searchEmpty, hxin, hyin]
    by_cases hguard : (1 < |d.1| ∨ 1 < |d.2|) ∧ (0 ≤ (y : ℤ) + d.2 ∧ y + d.2 < imageHeight) ∧
        (0 ≤ (x : ℤ) + d.1 ∧ x + d.1 < imageWidth)
    · obtain ⟨hfar, hyIn, hxIn⟩ := hguard
      have hcolumn' : ((x : ℤ) + d.1).toNat < imageWidth := by omega
      have hrow' : ((y : ℤ) + d.2).toNat < imageHeight := by omega
      have hvacant := @vacant_inside occupancyMap imageWidth imageHeight _ _ hcolumn' hrow'
      rw [Int.toNat_of_nonneg hxIn.1, Int.toNat_of_nonneg hyIn.1,
        List.getElem?_eq_getElem (h.index_lt hcolumn' hrow')] at hvacant
      rw [if_pos ⟨hfar, hyIn, hxIn⟩, toSizeT_add_eq (by omega) hx hxIn.1,
        toSizeT_add_eq (by omega) hy hyIn.1, occupancyAt_eq hcolumn' hrow',
        List.getElem?_eq_getElem (h.index_lt hcolumn' hrow'), Option.bind_eq_bind, Option.bind_some]
      split_ifs with hzero
      · refine ⟨true, rfl, ?_⟩
        have hfound : FoundAt occupancyMap imageWidth imageHeight x y d :=
          ⟨hfar, hxIn, hyIn, hvacant.mpr (congrArg some hzero)⟩
        simp [hfound]
      · refine ⟨empty, hempty, ?_⟩
        have hnot : ¬ FoundAt occupancyMap imageWidth imageHeight x y d := fun hfound =>
          hzero (Option.some.inj (hvacant.mp hfound.2.2.2))
        simp [hnot, hiff]
    · rw [if_neg hguard]
      refine ⟨empty, hempty, ?_⟩
      have hnot : ¬ FoundAt occupancyMap imageWidth imageHeight x y d := fun hfound =>
        hguard ⟨hfound.1, hfound.2.2.1, hfound.2.1⟩
      simp [hnot, hiff]

theorem mem_secondLayerOffsets (d : ℤ × ℤ) :
    d ∈ secondLayerOffsets ↔ |d.1| ≤ 2 ∧ |d.2| ≤ 2 := by
  have hrange (n : ℤ) : n ∈ ([-2, -1, 0, 1, 2] : List ℤ) ↔ |n| ≤ 2 := by
    rw [abs_le]
    simp only [List.mem_cons, List.not_mem_nil, or_false]
    omega
  unfold secondLayerOffsets
  simp only [List.mem_flatMap, List.mem_map, hrange]
  constructor
  · rintro ⟨ix, hix, iy, hiy, rfl⟩
    exact ⟨hix, hiy⟩
  · rintro ⟨hix, hiy⟩
    exact ⟨d.1, hix, d.2, hiy, rfl⟩

/-- The conditions under which the second layer marks the point. -/
def SecondLayerVacant (occupancyMap : List ℕ) (imageWidth imageHeight x y : ℕ) : Prop :=
  ((∃ d ∈ secondLayerOffsets, FoundAt occupancyMap imageWidth imageHeight x y d) ∧ True) ∨
    (y = 1 ∨ y = toSizeT (imageHeight - 2) ∨ x = 1 ∨ x = toSizeT (imageWidth - 2)) ∧ True

theorem exists_secondLayer (h : InImage occupancyMap imageWidth imageHeight x y)
    (hpoint : pointindex < marks.boundaryPointTypes.length) :
    ∃ after, secondLayer occupancyMap x y imageWidth imageHeight pointindex marks = some after ∧
      Marks pointindex (SecondLayerVacant occupancyMap imageWidth imageHeight x y) marks after := by
  obtain ⟨empty, hempty, hiff⟩ := exists_searchEmpty h secondLayerOffsets
    fun d hd => (mem_secondLayerOffsets d).mp hd
  have hfirst := exists_onlyIf (empty = true) (fun marks => marks.setBoundaryPointType pointindex)
    fun _ => exists_setBoundaryPointType marks hpoint
  obtain ⟨s1, h1, m1⟩ := hfirst
  have hsecond := exists_onlyIf
    (y = 1 ∨ y = toSizeT (imageHeight - 2) ∨ x = 1 ∨ x = toSizeT (imageWidth - 2))
    (fun marks => marks.setBoundaryPointType pointindex)
    fun _ => exists_setBoundaryPointType s1 (m1.types ▸ hpoint)
  obtain ⟨s2, h2, m2⟩ := hsecond
  refine ⟨s2, ?_, (m1.seq m2).congr ?_⟩
  · simp only [secondLayer, hempty, h1, h2, bind, Option.bind_some]
  · rw [SecondLayerVacant, hiff]

/-! The two layers together. -/

theorem nearVacant_of_empty {a b : ℕ} (ha : a < imageWidth) (hb : b < imageHeight)
    (hempty : EmptyAt occupancyMap imageWidth imageHeight (a, b))
    (hx : |(a : ℤ) - x| ≤ 2) (hy : |(b : ℤ) - y| ≤ 2) :
    NearVacant occupancyMap imageWidth imageHeight x y := by
  refine ⟨a - x, b - y, hx, hy, ?_⟩
  rw [add_sub_cancel, add_sub_cancel]
  exact (vacant_inside ha hb).mpr ((emptyAt_iff ha hb).mp hempty)

theorem nearVacant_of_border (h : InImage occupancyMap imageWidth imageHeight x y)
    (hborder : x ≤ 1 ∨ imageWidth ≤ x + 2 ∨ y ≤ 1 ∨ imageHeight ≤ y + 2) :
    NearVacant occupancyMap imageWidth imageHeight x y := by
  have hcolumn := h.column
  have hrow := h.row
  rcases hborder with hx | hx | hy | hy
  · exact ⟨-2, 0, by decide, by decide, vacant_outside (by omega)⟩
  · exact ⟨2, 0, by decide, by decide, vacant_outside (by omega)⟩
  · exact ⟨0, -2, by decide, by decide, vacant_outside (by omega)⟩
  · exact ⟨0, 2, by decide, by decide, vacant_outside (by omega)⟩

theorem nearVacant_of_firstLayer (h : InImage occupancyMap imageWidth imageHeight x y)
    (hfirst : FirstLayerVacant occupancyMap imageWidth imageHeight x y) :
    NearVacant occupancyMap imageWidth imageHeight x y := by
  have hcolumn := h.column
  have hrow := h.row
  have hnear {a b : ℕ} (ha : x ≤ a + 1 ∧ a ≤ x + 1 ∧ a < imageWidth)
      (hb : y ≤ b + 1 ∧ b ≤ y + 1 ∧ b < imageHeight)
      (hempty : EmptyAt occupancyMap imageWidth imageHeight (a, b)) :
      NearVacant occupancyMap imageWidth imageHeight x y := by
    apply nearVacant_of_empty ha.2.2 hb.2.2 hempty <;> rw [abs_le] <;> omega
  rcases hfirst with (((⟨hg, he | he⟩ | ⟨hg, he | he⟩) | ⟨hg, he | he⟩) | ⟨hg, he | he⟩) | ⟨hg, -⟩
  all_goals first
    | exact hnear (by omega) (by omega) he
    | exact nearVacant_of_border h (by omega)

theorem nearVacant_of_secondLayer (h : InImage occupancyMap imageWidth imageHeight x y)
    (hsecond : SecondLayerVacant occupancyMap imageWidth imageHeight x y) :
    NearVacant occupancyMap imageWidth imageHeight x y := by
  have hcolumn := h.column
  have hrow := h.row
  obtain ⟨hwidth, hheight⟩ := h.bounds
  rcases hsecond with ⟨⟨d, hd, hfound⟩, -⟩ | ⟨hborder, -⟩
  · obtain ⟨hx, hy⟩ := (mem_secondLayerOffsets d).mp hd
    exact ⟨d.1, d.2, hx, hy, hfound.2.2.2⟩
  · apply nearVacant_of_border h
    unfold toSizeT at hborder
    omega

/-- Away from the border the eight neighbours are those of the four pairs. -/
theorem firstLayer_of_near (h : InImage occupancyMap imageWidth imageHeight x y)
    (hx : 0 < x ∧ x < imageWidth - 1) (hy : 0 < y ∧ y < imageHeight - 1)
    (hoccupied : occupancyMap[y * imageWidth + x]? ≠ some 0) {dx dy : ℤ} (hdx : |dx| ≤ 1)
    (hdy : |dy| ≤ 1) (hvacant : Vacant occupancyMap imageWidth imageHeight (x + dx) (y + dy)) :
    FirstLayerVacant occupancyMap imageWidth imageHeight x y := by
  have hdx' := abs_le.mp hdx
  have hdy' := abs_le.mp hdy
  have hcast (a b : ℕ) (ha : (a : ℤ) = x + dx) (hb : (b : ℤ) = y + dy) :
      EmptyAt occupancyMap imageWidth imageHeight (a, b) := by
    rw [← ha, ← hb] at hvacant
    exact (emptyAt_iff (by omega) (by omega)).mpr
      ((vacant_inside (by omega) (by omega)).mp hvacant)
  unfold FirstLayerVacant
  dsimp only
  obtain hleft | hmid | hright : dx = -1 ∨ dx = 0 ∨ dx = 1 := by omega
  · obtain hup | hsame | hdown : dy = -1 ∨ dy = 0 ∨ dy = 1 := by omega
    · have := hcast (x - 1) (y - 1) (by omega) (by omega)
      simp [hx, hy, this]
    · have := hcast (x - 1) y (by omega) (by omega)
      simp [hx, this]
    · have := hcast (x - 1) (y + 1) (by omega) (by omega)
      simp [hx, hy, this]
  · obtain hup | hsame | hdown : dy = -1 ∨ dy = 0 ∨ dy = 1 := by omega
    · have := hcast x (y - 1) (by omega) (by omega)
      simp [hy, this]
    · exact absurd ((emptyAt_iff h.column h.row).mp (hcast x y (by omega) (by omega))) hoccupied
    · have := hcast x (y + 1) (by omega) (by omega)
      simp [hy, this]
  · obtain hup | hsame | hdown : dy = -1 ∨ dy = 0 ∨ dy = 1 := by omega
    · have := hcast (x + 1) (y - 1) (by omega) (by omega)
      simp [hx, hy, this]
    · have := hcast (x + 1) y (by omega) (by omega)
      simp [hx, this]
    · have := hcast (x + 1) (y + 1) (by omega) (by omega)
      simp [hx, hy, this]

theorem layers_iff_nearVacant (h : InImage occupancyMap imageWidth imageHeight x y)
    (hoccupied : occupancyMap[y * imageWidth + x]? ≠ some 0) :
    FirstLayerVacant occupancyMap imageWidth imageHeight x y ∨
        SecondLayerVacant occupancyMap imageWidth imageHeight x y ↔
      NearVacant occupancyMap imageWidth imageHeight x y := by
  constructor
  · rintro (hfirst | hsecond)
    · exact nearVacant_of_firstLayer h hfirst
    · exact nearVacant_of_secondLayer h hsecond
  rintro ⟨dx, dy, hdx, hdy, hvacant⟩
  obtain ⟨hwidth, hheight⟩ := h.bounds
  by_cases hborder : y = 0 ∨ y = imageHeight - 1 ∨ x = 0 ∨ x = imageWidth - 1
  · exact .inl (.inr ⟨hborder, trivial⟩)
  have hcolumn := h.column
  have hrow := h.row
  by_cases hnext : |dx| ≤ 1 ∧ |dy| ≤ 1
  · exact .inl (firstLayer_of_near h (by omega) (by omega) hoccupied hnext.1 hnext.2 hvacant)
  right
  by_cases hin : (0 ≤ (x : ℤ) + dx ∧ x + dx < imageWidth) ∧ 0 ≤ (y : ℤ) + dy ∧ y + dy < imageHeight
  · -- the far pixel is one of those the loops look at
    have hfar : 1 < |dx| ∨ 1 < |dy| := by
      rw [not_and_or, not_le, not_le] at hnext
      exact hnext
    exact .inl ⟨⟨(dx, dy), (mem_secondLayerOffsets _).mpr ⟨hdx, hdy⟩, hfar, hin.1, hin.2, hvacant⟩,
      trivial⟩
  · refine .inr ⟨?_, trivial⟩
    have hdx' := abs_le.mp hdx
    have hdy' := abs_le.mp hdy
    have hyEnd : toSizeT (imageHeight - 2) = imageHeight - 2 := by
      rw [toSizeT_of_lt (by omega) (by omega)]
      omega
    have hxEnd : toSizeT (imageWidth - 2) = imageWidth - 2 := by
      rw [toSizeT_of_lt (by omega) (by omega)]
      omega
    rw [hyEnd, hxEnd]
    omega

end Layers

/-- One call on an occupied pixel. -/
theorem exists_identifyBoundaryPoints {occupancyMap : List ℕ}
    {x y imageWidth imageHeight pointindex : ℕ} {marks : BoundaryMarks}
    (h : InImage occupancyMap imageWidth imageHeight x y)
    (hoccupied : occupancyMap[y * imageWidth + x]? ≠ some 0)
    (hflags : marks.BPflag.length = imageWidth * imageHeight)
    (hpoint : pointindex < marks.boundaryPointTypes.length) :
    ∃ after, identifyBoundaryPoints occupancyMap x y imageWidth imageHeight pointindex marks =
        some after ∧
      Marks pointindex (NearVacant occupancyMap imageWidth imageHeight x y) marks after := by
  have hindex := h.index_lt h.column h.row
  have hget := List.getElem?_eq_getElem hindex
  have hread := (occupancyAt_eq h.column h.row).trans hget
  have hnonzero : occupancyMap[y * imageWidth + x] ≠ 0 := fun hzero =>
    hoccupied (hget.trans (congrArg some hzero))
  have hfirst := exists_onlyIf (occupancyMap[y * imageWidth + x] ≠ 0) _
    fun _ => exists_firstLayer h hflags hpoint
  obtain ⟨s1, h1, m1⟩ := hfirst
  have hsecond := exists_onlyIf (occupancyMap[y * imageWidth + x] ≠ 0) _
    fun _ => exists_unlessMarked (m1.types ▸ hpoint) (exists_secondLayer h (m1.types ▸ hpoint))
  obtain ⟨s2, h2, m2⟩ := hsecond
  refine ⟨s2, ?_, (m1.seq m2).congr ?_⟩
  · simp only [identifyBoundaryPoints, hread, h1, h2, bind, Option.bind_some]
  · rw [and_iff_right hnonzero, and_iff_right hnonzero, layers_iff_nearVacant h hoccupied]

/-- An occupied point without a type gets type 1 exactly where a pixel within Chebyshev distance two
is not occupied or outside of the image. The run ends, so every read is of a column and a row of the
image, and the other points keep their type. -/
theorem identifyBoundaryPoints_iff {occupancyMap : List ℕ}
    {x y imageWidth imageHeight pointindex : ℕ} {marks : BoundaryMarks}
    (h : InImage occupancyMap imageWidth imageHeight x y)
    (hoccupied : occupancyMap[y * imageWidth + x]? ≠ some 0)
    (hflags : marks.BPflag.length = imageWidth * imageHeight)
    (hpoint : marks.boundaryPointTypes[pointindex]? = some 0) :
    ∃ after, identifyBoundaryPoints occupancyMap x y imageWidth imageHeight pointindex marks =
        some after ∧
      (after.boundaryPointTypes[pointindex]? = some 1 ↔
        NearVacant occupancyMap imageWidth imageHeight x y) ∧
      ∀ k, k ≠ pointindex → after.boundaryPointTypes[k]? = marks.boundaryPointTypes[k]? := by
  obtain ⟨hlt, -⟩ := List.getElem?_eq_some_iff.mp hpoint
  obtain ⟨after, hafter, hmarks⟩ := exists_identifyBoundaryPoints h hoccupied hflags hlt
  refine ⟨after, hafter, ?_, hmarks.others⟩
  rw [hmarks.marked, hpoint, or_iff_right (by decide)]

/-- The centre of a square of seven by seven pixels, of which one, two columns further, is vacant. -/
theorem identifyBoundaryPoints_centre :
    ∃ after, identifyBoundaryPoints ((List.replicate 49 1).set 26 0) 3 3 7 7 0
        ⟨List.replicate 49 0, [0]⟩ = some after ∧ after.boundaryPointTypes[0]? = some 1 := by
  obtain ⟨after, hafter, hiff, -⟩ :=
    @identifyBoundaryPoints_iff ((List.replicate 49 1).set 26 0) 3 3 7 7 0
      ⟨List.replicate 49 0, [0]⟩ ⟨rfl, by decide, by decide, by decide⟩ (by decide) rfl rfl
  exact ⟨after, hafter, hiff.mpr ⟨2, 0, by decide, by decide, Or.inr (by decide)⟩⟩

/-- The loop calls each point once, so each of them gets its type from its own pixel. -/
theorem exists_identifyAllBoundaryPoints {occupancyMap : List ℕ} {tileWidth tileHeight : ℕ}
    (pointToPixel : List (ℕ × ℕ)) (i : ℕ) (marks : BoundaryMarks)
    (hpixels : ∀ p ∈ pointToPixel, InImage occupancyMap tileWidth tileHeight p.1 p.2)
    (hflags : marks.BPflag.length = tileWidth * tileHeight)
    (hpoints : i + pointToPixel.length ≤ marks.boundaryPointTypes.length)
    (hfresh : ∀ k, i ≤ k → marks.boundaryPointTypes[k]? ≠ some 1) :
    ∃ after, identifyAllBoundaryPoints occupancyMap tileWidth tileHeight pointToPixel i marks =
        some after ∧
      (∀ k < i, after.boundaryPointTypes[k]? = marks.boundaryPointTypes[k]?) ∧
      ∀ k p, pointToPixel[k]? = some p →
        (after.boundaryPointTypes[i + k]? = some 1 ↔
          occupancyMap[p.2 * tileWidth + p.1]? ≠ some 0 ∧
            NearVacant occupancyMap tileWidth tileHeight p.1 p.2) := by
  induction pointToPixel generalizing i marks with
  | nil => exact ⟨marks, rfl, fun _ _ => rfl, fun k p hp => absurd hp nofun⟩
  | cons p pointToPixel ih =>
    obtain ⟨x, y⟩ := p
    have hin := hpixels (x, y) List.mem_cons_self
    have hindex := hin.index_lt hin.column hin.row
    have hget := List.getElem?_eq_getElem hindex
    have hread := (occupancyAt_eq hin.column hin.row).trans hget
    have hpoint : i < marks.boundaryPointTypes.length := by
      rw [List.length_cons] at hpoints
      omega
    have hstep := exists_onlyIf (occupancyMap[y * tileWidth + x] ≠ 0) _ fun hnonzero =>
      exists_identifyBoundaryPoints hin (by rw [hget]; simpa using hnonzero) hflags hpoint
    obtain ⟨middle, hmiddle, hmarks⟩ := hstep
    obtain ⟨after, hafter, hbefore, htypes⟩ := ih (i + 1) middle
      (fun q hq => hpixels q (List.mem_cons_of_mem _ hq)) (hmarks.flags.trans hflags)
      (by rw [hmarks.types]; rw [List.length_cons] at hpoints; omega)
      (fun k hk => by rw [hmarks.others k (by omega)]; exact hfresh k (by omega))
    refine ⟨after, ?_, ?_, ?_⟩
    · simp only [identifyAllBoundaryPoints, hread, hmiddle, hafter, bind, Option.bind_some]
    · intro k hk
      rw [hbefore k (by omega), hmarks.others k (by omega)]
    · intro k q hq
      cases k with
      | zero =>
        obtain rfl : (x, y) = q := Option.some.inj hq
        rw [Nat.add_zero, hbefore i (Nat.lt_succ_self i), hmarks.marked,
          or_iff_right (hfresh i le_rfl), hget]
        simp
      | succ k =>
        have := htypes k q hq
        rwa [Nat.add_right_comm, Nat.add_assoc] at this

end V3C

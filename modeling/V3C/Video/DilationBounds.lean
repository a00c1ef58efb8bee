import Mathlib.Data.Finset.Max
import V3C.Video.DilationWaves

/-! The dilation of a whole picture. -/
namespace V3C

/-- A picture and a 0/1 occupancy map of its size, with whole blocks. -/
structure DilationInput (params : DilationParams) (occupancyMap : List ℕ)
    (image : PCCImageAttribute) (reference : Option PCCImageAttribute) : Prop where
  resolution_pos : 0 < params.occupancyResolution
  resolution_le : params.occupancyResolution ≤ 64
  width_dvd : params.occupancyResolution ∣ image.width
  height_dvd : params.occupancyResolution ∣ image.height
  length_eq : occupancyMap.length = image.width * image.height
  binary : ∀ occupancy ∈ occupancyMap, occupancy = 0 ∨ occupancy = 1
  reference_size : ∀ r ∈ reference, image.width ≤ r.width ∧ image.height ≤ r.height

/-- An occupied pixel of the picture in the block of `pixel`. -/
structure OccupiedBeside (params : DilationParams) (occupancyMap : List ℕ)
    (image : PCCImageAttribute) (pixel other : ℕ × ℕ) : Prop where
  inside : image.Inside other
  occupied : occupancyMap[other.2 * image.width + other.1]? = some 1
  column_eq : other.1 / params.occupancyResolution = pixel.1 / params.occupancyResolution
  row_eq : other.2 / params.occupancyResolution = pixel.2 / params.occupancyResolution

/-- The occupied pixels keep their values, and the others of a block with occupied pixels are
between the least and the greatest of these. -/
structure Dilated (params : DilationParams) (occupancyMap : List ℕ)
    (image after : PCCImageAttribute) : Prop where
  width_eq : after.width = image.width
  height_eq : after.height = image.height
  occupied : ∀ pixel, image.Inside pixel →
    occupancyMap[pixel.2 * image.width + pixel.1]? = some 1 →
    ∀ c, after.channels c pixel = image.channels c pixel
  unoccupied : ∀ pixel, image.Inside pixel →
    occupancyMap[pixel.2 * image.width + pixel.1]? = some 0 →
    (∃ other, OccupiedBeside params occupancyMap image pixel other) →
    ∀ c, ∃ low high, OccupiedBeside params occupancyMap image pixel low ∧
      OccupiedBeside params occupancyMap image pixel high ∧
      image.channels c low ≤ after.channels c pixel ∧
      after.channels c pixel ≤ image.channels c high

namespace PCCEncoder

variable {params : DilationParams} {u0 v0 width height : ℕ} {state : DilationState}

theorem countOccupied_eq (hblock : BlockIn params u0 v0 width height)
    (hsized : state.Sized width height) (hbinary : ∀ p, InBlock params p →
      state.stamp (u0 + p.1, v0 + p.2) = 0 ∨ state.stamp (u0 + p.1, v0 + p.2) = 1) :
    countOccupied params u0 v0 state = some (stamped params u0 v0 state) := by
  have hloop : ∃ n, countOccupied params u0 v0 state = some n ∧
      n = stamped params u0 v0 state := by
    unfold countOccupied stamped
    apply Codec.exists_foldlM (P := fun (visited : List (ℕ × ℕ)) n =>
      n = visited.countP fun p => decide (state.stamp (u0 + p.1, v0 + p.2) ≠ 0))
    · rintro visited p n hvisited rfl
      have hp : InBlock params p :=
        mem_grid.mp (Codec.mem_and_notMem_of_prefix hvisited (nodup_grid _ _)).1
      have hlt := hblock.lt hp
      have hread := hsized.getElem?_stamp (u0 + p.1, v0 + p.2) hlt.1 hlt.2
      refine ⟨_, ?_, rfl⟩
      rw [hread, Option.bind_eq_bind, Option.bind_some, List.countP_append, List.countP_singleton]
      rcases hbinary p hp with hzero | hone
      · simp [hzero]
      · simp [hone]
    · rfl
  obtain ⟨n, hrun, rfl⟩ := hloop
  exact hrun

theorem exists_copyBlock {image : PCCImageAttribute} (hwidth : image.width = width)
    (hheight : image.height = height) (hblock : BlockIn params u0 v0 width height)
    {source : PCCImageAttribute → ℕ × ℕ → Option PCCColor16bit}
    (hsource : ∀ image : PCCImageAttribute, image.width = width → image.height = height →
      ∀ p, InBlock params p → ∃ color, source image (u0 + p.1, v0 + p.2) = some color) :
    ∃ after, copyBlock params u0 v0 source image = some after ∧ after.width = width ∧
      after.height = height ∧
      ∀ q, (∀ p, InBlock params p → q ≠ (u0 + p.1, v0 + p.2)) →
        ∀ c, after.channels c q = image.channels c q := by
  apply Codec.exists_foldlM (P := fun _ (after : PCCImageAttribute) => after.width = width ∧
    after.height = height ∧ ∀ q, (∀ p, InBlock params p → q ≠ (u0 + p.1, v0 + p.2)) →
      ∀ c, after.channels c q = image.channels c q)
  · rintro visited p before hvisited ⟨hbeforeWidth, hbeforeHeight, hkept⟩
    have hp : InBlock params p :=
      mem_grid.mp (Codec.mem_and_notMem_of_prefix hvisited (nodup_grid _ _)).1
    have hlt := hblock.lt hp
    obtain ⟨color, hcolor⟩ := hsource before hbeforeWidth hbeforeHeight p hp
    have hset := setColor_eq before (u0 + p.1, v0 + p.2) color
    rw [if_pos ⟨by rw [hbeforeWidth]; exact hlt.1, by rw [hbeforeHeight]; exact hlt.2⟩] at hset
    rw [hcolor, Option.bind_eq_bind, Option.bind_some, hset]
    refine ⟨_, rfl, hbeforeWidth, hbeforeHeight, ?_⟩
    intro q hq c
    dsimp only
    rw [Function.update_of_ne (hq p hp)]
    exact hkept q hq c
  · exact ⟨hwidth, hheight, fun _ _ _ => rfl⟩

/-- A block without occupied pixels. -/
theorem exists_fillBlock {image : PCCImageAttribute} {reference : Option PCCImageAttribute}
    {block : ℕ × ℕ} (hwidth : image.width = width) (hheight : image.height = height)
    (hreference : ∀ r ∈ reference, width ≤ r.width ∧ height ≤ r.height)
    (hblock : BlockIn params (block.1 * params.occupancyResolution)
      (block.2 * params.occupancyResolution) width height) :
    ∃ after, fillBlock params reference block image = some after ∧ after.width = width ∧
      after.height = height ∧
      ∀ q, (∀ p, InBlock params p → q ≠ (block.1 * params.occupancyResolution + p.1,
        block.2 * params.occupancyResolution + p.2)) →
        ∀ c, after.channels c q = image.channels c q := by
  unfold fillBlock
  dsimp only
  cases reference with
  | some reference =>
    apply exists_copyBlock hwidth hheight hblock
    intro _ _ _ p hp
    have hlt := hblock.lt hp
    have hsize := hreference reference rfl
    exact ⟨_, (PCCCodec.colorAt_eq _ _).trans
      (if_pos ⟨hlt.1.trans_le hsize.1, hlt.2.trans_le hsize.2⟩)⟩
  | none =>
    dsimp only
    split_ifs
    · apply exists_copyBlock hwidth hheight hblock
      intro image hwidth hheight p hp
      have hlt := hblock.lt hp
      refine ⟨_, (PCCCodec.colorAt_eq _ _).trans (if_pos ⟨?_, ?_⟩)⟩ <;> dsimp only <;> omega
    · apply exists_copyBlock hwidth hheight hblock
      intro image hwidth hheight p hp
      have hlt := hblock.lt hp
      refine ⟨_, (PCCCodec.colorAt_eq _ _).trans (if_pos ⟨?_, ?_⟩)⟩ <;> dsimp only <;> omega
    · exact ⟨image, rfl, hwidth, hheight, fun _ _ _ => rfl⟩

/-- The block after it was dilated: its pixels with a stamp keep their samples, and those of the
others are between samples of these. -/
structure BlockDilated (params : DilationParams) (u0 v0 width : ℕ) (before after : DilationState) :
    Prop where
  outside : ∀ q, q.1 < width → (∀ p, InBlock params p → q ≠ (u0 + p.1, v0 + p.2)) →
    before.Same after q
  kept : ∀ p, InBlock params p → before.stamp (u0 + p.1, v0 + p.2) ≠ 0 →
    ∀ c, after.image.channels c (u0 + p.1, v0 + p.2) =
      before.image.channels c (u0 + p.1, v0 + p.2)
  between : ∀ p, InBlock params p → stamped params u0 v0 before ≠ 0 → ∀ c, ∃ low high,
    (InBlock params low ∧ before.stamp (u0 + low.1, v0 + low.2) ≠ 0) ∧
    (InBlock params high ∧ before.stamp (u0 + high.1, v0 + high.2) ≠ 0) ∧
    before.image.channels c (u0 + low.1, v0 + low.2) ≤
      after.image.channels c (u0 + p.1, v0 + p.2) ∧
    after.image.channels c (u0 + p.1, v0 + p.2) ≤
      before.image.channels c (u0 + high.1, v0 + high.2)

/-- The least and the greatest sample of the pixels with a stamp. -/
theorem exists_extremes (hsome : stamped params u0 v0 state ≠ 0) (c : Fin 3) :
    ∃ low high, (InBlock params low ∧ state.stamp (u0 + low.1, v0 + low.2) ≠ 0) ∧
      (InBlock params high ∧ state.stamp (u0 + high.1, v0 + high.2) ≠ 0) ∧
      ∀ p, InBlock params p → state.stamp (u0 + p.1, v0 + p.2) ≠ 0 →
        (state.image.channels c (u0 + low.1, v0 + low.2)).toNat ≤
            (state.image.channels c (u0 + p.1, v0 + p.2)).toNat ∧
          (state.image.channels c (u0 + p.1, v0 + p.2)).toNat ≤
            (state.image.channels c (u0 + high.1, v0 + high.2)).toNat := by
  let occupied := ((grid params.occupancyResolution params.occupancyResolution).filter fun p =>
    decide (state.stamp (u0 + p.1, v0 + p.2) ≠ 0)).toFinset
  have hmem {p : ℕ × ℕ} : p ∈ occupied ↔
      InBlock params p ∧ state.stamp (u0 + p.1, v0 + p.2) ≠ 0 := by
    rw [List.mem_toFinset, List.mem_filter, decide_eq_true_iff]
    exact and_congr_left' mem_grid
  obtain ⟨p, hp⟩ := exists_stamped hsome
  have hnonempty : occupied.Nonempty := ⟨p, hmem.mpr hp⟩
  obtain ⟨low, hlow, hleast⟩ := occupied.exists_min_image
    (fun p => (state.image.channels c (u0 + p.1, v0 + p.2)).toNat) hnonempty
  obtain ⟨high, hhigh, hgreatest⟩ := occupied.exists_max_image
    (fun p => (state.image.channels c (u0 + p.1, v0 + p.2)).toNat) hnonempty
  exact ⟨low, high, hmem.mp hlow, hmem.mp hhigh, fun q hq hstamp =>
    ⟨hleast q (hmem.mpr ⟨hq, hstamp⟩), hgreatest q (hmem.mpr ⟨hq, hstamp⟩)⟩⟩

/-- A block with occupied pixels. -/
theorem exists_waves_of_stamped {fuel : ℕ} (hblock : BlockIn params u0 v0 width height)
    (hsized : state.Sized width height) (hbinary : ∀ p, InBlock params p →
      state.stamp (u0 + p.1, v0 + p.2) = 0 ∨ state.stamp (u0 + p.1, v0 + p.2) = 1)
    (hfuel : params.occupancyResolution * params.occupancyResolution ≤ fuel)
    (hsome : stamped params u0 v0 state ≠ 0) :
    ∃ after, waves params u0 v0 fuel 1 { state with
        values := fun _ _ => 0, count := fun _ => 0
        nonZeroPixelCount := stamped params u0 v0 state } = some after ∧
      after.Sized width height ∧
      BlockDilated params u0 v0 width state after.toDilationState := by
  choose low high hlow hhigh hextreme using exists_extremes hsome
  let lo (c : Fin 3) : ℕ := (state.image.channels c (u0 + (low c).1, v0 + (low c).2)).toNat
  let hi (c : Fin 3) : ℕ := (state.image.channels c (u0 + (high c).1, v0 + (high c).2)).toNat
  have hstart : Front params u0 v0 width height lo hi state 1 { state with
      values := fun _ _ => 0, count := fun _ => 0
      nonZeroPixelCount := stamped params u0 v0 state } := by
    refine ⟨hsized, fun q _ _ => DilationState.Same.refl _ q, ?_, ?_, ?_, ?_, ?_, rfl⟩
    · intro p _ _
      exact DilationState.Same.refl _ _
    · intro p hp
      rcases hbinary p hp with hzero | hone
      · exact hzero.trans_le (Nat.zero_le 1)
      · exact hone.le
    · intro p q _ _ _ hstamp hbehind
      exact absurd (Nat.lt_one_iff.mp hbehind) hstamp
    · intro p hp hstamp c
      exact hextreme c p hp hstamp
    · intro p
      exact ⟨rfl, rfl⟩
  have hleft : params.occupancyResolution * params.occupancyResolution -
      stamped params u0 v0 state < fuel := by
    have hle := @stamped_le params u0 v0 state
    omega
  obtain ⟨after, last, hrun, hfront, hall⟩ := exists_waves Nat.one_pos hblock
    (fun c => UInt16.toNat_lt _) hstart hsome hleft
  refine ⟨after, hrun, hfront.sized, hfront.outside, fun p hp hstamp => (hfront.kept p hp hstamp).2, ?_⟩
  intro p hp _ c
  have hbounds := hfront.bounded p hp
    (stamp_ne_zero_of_stamped (hfront.counted.symm ▸ hall) hp) c
  exact ⟨low c, high c, hlow c, hhigh c, UInt16.le_iff_toNat_le.mpr hbounds.1,
    UInt16.le_iff_toNat_le.mpr hbounds.2⟩

theorem exists_dilateBlock {fuel : ℕ} {reference : Option PCCImageAttribute} {block : ℕ × ℕ}
    (hblock : BlockIn params (block.1 * params.occupancyResolution)
      (block.2 * params.occupancyResolution) width height)
    (hsized : state.Sized width height) (hbinary : ∀ p, InBlock params p →
      state.stamp (block.1 * params.occupancyResolution + p.1,
        block.2 * params.occupancyResolution + p.2) = 0 ∨
      state.stamp (block.1 * params.occupancyResolution + p.1,
        block.2 * params.occupancyResolution + p.2) = 1)
    (hfuel : params.occupancyResolution * params.occupancyResolution ≤ fuel)
    (hreference : ∀ r ∈ reference, width ≤ r.width ∧ height ≤ r.height) :
    ∃ after, dilateBlock fuel params reference state block = some after ∧
      after.Sized width height ∧
      BlockDilated params (block.1 * params.occupancyResolution)
        (block.2 * params.occupancyResolution) width state after := by
  unfold dilateBlock
  dsimp only
  rw [countOccupied_eq hblock hsized hbinary, Option.bind_eq_bind, Option.bind_some]
  split_ifs with hnone
  · obtain ⟨image, hfill, hwidth, hheight, hkept⟩ :=
      exists_fillBlock hsized.width_eq hsized.height_eq hreference hblock
    rw [hfill]
    refine ⟨_, rfl, ⟨hwidth, hheight, hsized.length_eq⟩, ?_, ?_, ?_⟩
    · intro q _ hfree
      refine ⟨?_, hkept q hfree⟩
      unfold DilationState.stamp
      rw [hwidth, hsized.width_eq]
    · intro p hp hstamp
      have hpos : 0 < stamped params (block.1 * params.occupancyResolution)
          (block.2 * params.occupancyResolution) state :=
        List.countP_pos_iff.mpr ⟨p, mem_grid.mpr hp, decide_eq_true hstamp⟩
      exact absurd hnone hpos.ne'
    · intro p _ hsome
      exact absurd hnone hsome
  · obtain ⟨after, hrun, hafter, hdilated⟩ :=
      exists_waves_of_stamped hblock hsized hbinary hfuel hnone
    rw [hrun]
    exact ⟨after.toDilationState, rfl, hafter, hdilated⟩

/-! The blocks of a picture. -/

/-- The block and the place in it of a pixel. -/
theorem pixel_eq (params : DilationParams) (q : ℕ × ℕ) :
    q = (q.1 / params.occupancyResolution * params.occupancyResolution +
        q.1 % params.occupancyResolution,
      q.2 / params.occupancyResolution * params.occupancyResolution +
        q.2 % params.occupancyResolution) :=
  Prod.ext (Nat.div_add_mod' ..).symm (Nat.div_add_mod' ..).symm

theorem blockOf_eq {block p : ℕ × ℕ} (hp : InBlock params p) :
    (block.1 * params.occupancyResolution + p.1) / params.occupancyResolution = block.1 ∧
      (block.2 * params.occupancyResolution + p.2) / params.occupancyResolution = block.2 := by
  obtain ⟨hx, hy⟩ := hp
  have hpos : 0 < params.occupancyResolution := by omega
  rw [Nat.mul_comm, Nat.mul_add_div hpos, Nat.div_eq_of_lt hx, Nat.mul_comm, Nat.mul_add_div hpos,
    Nat.div_eq_of_lt hy]
  exact ⟨rfl, rfl⟩

theorem inBlock_mod (hpos : 0 < params.occupancyResolution) (q : ℕ × ℕ) :
    InBlock params (q.1 % params.occupancyResolution, q.2 % params.occupancyResolution) :=
  ⟨Nat.mod_lt _ hpos, Nat.mod_lt _ hpos⟩

/-- The blocks cover the picture. -/
theorem blockIn_of_mem (hwidth : params.occupancyResolution ∣ width)
    (hheight : params.occupancyResolution ∣ height) {block : ℕ × ℕ}
    (hblock : block ∈ grid (width / params.occupancyResolution) (height / params.occupancyResolution)) :
    BlockIn params (block.1 * params.occupancyResolution) (block.2 * params.occupancyResolution)
      width height := by
  obtain ⟨hx, hy⟩ := mem_grid.mp hblock
  constructor
  · calc block.1 * params.occupancyResolution + params.occupancyResolution
        = (block.1 + 1) * params.occupancyResolution := (Nat.succ_mul ..).symm
      _ ≤ width / params.occupancyResolution * params.occupancyResolution :=
        Nat.mul_le_mul_right _ hx
      _ = width := Nat.div_mul_cancel hwidth
  · calc block.2 * params.occupancyResolution + params.occupancyResolution
        = (block.2 + 1) * params.occupancyResolution := (Nat.succ_mul ..).symm
      _ ≤ height / params.occupancyResolution * params.occupancyResolution :=
        Nat.mul_le_mul_right _ hy
      _ = height := Nat.div_mul_cancel hheight

def blockOf (params : DilationParams) (q : ℕ × ℕ) : ℕ × ℕ :=
  (q.1 / params.occupancyResolution, q.2 / params.occupancyResolution)

/-- A pixel of the picture in the block of `q` that has a stamp. -/
structure Beside (params : DilationParams) (width height : ℕ) (first : DilationState)
    (q other : ℕ × ℕ) : Prop where
  inside : other.1 < width ∧ other.2 < height
  block_eq : blockOf params other = blockOf params q
  stamped : first.stamp other ≠ 0

/-- The blocks that were visited are dilated, the others are as they were. -/
structure PartlyDilated (params : DilationParams) (width height : ℕ) (first : DilationState)
    (visited : List (ℕ × ℕ)) (state : DilationState) : Prop where
  sized : state.Sized width height
  untouched : ∀ q, q.1 < width → blockOf params q ∉ visited → first.Same state q
  kept : ∀ q, q.1 < width → blockOf params q ∈ visited → first.stamp q ≠ 0 →
    ∀ c, state.image.channels c q = first.image.channels c q
  between : ∀ q, q.1 < width → blockOf params q ∈ visited →
    (∃ other, Beside params width height first q other) →
    ∀ c, ∃ low high, Beside params width height first q low ∧
      Beside params width height first q high ∧
      first.image.channels c low ≤ state.image.channels c q ∧
      state.image.channels c q ≤ first.image.channels c high

theorem blockOf_place {block p : ℕ × ℕ} (hp : InBlock params p) :
    blockOf params (block.1 * params.occupancyResolution + p.1,
      block.2 * params.occupancyResolution + p.2) = block :=
  Prod.ext (blockOf_eq hp).1 (blockOf_eq hp).2

/-- One block of the loops over the picture. -/
theorem PartlyDilated.exists_dilateBlock {first : DilationState} {visited : List (ℕ × ℕ)}
    {fuel : ℕ} {reference : Option PCCImageAttribute} {block : ℕ × ℕ}
    (h : PartlyDilated params width height first visited state)
    (hpos : 0 < params.occupancyResolution)
    (hbinary : ∀ q : ℕ × ℕ, q.1 < width → q.2 < height → first.stamp q = 0 ∨ first.stamp q = 1)
    (hfuel : params.occupancyResolution * params.occupancyResolution ≤ fuel)
    (hreference : ∀ r ∈ reference, width ≤ r.width ∧ height ≤ r.height)
    (hblock : BlockIn params (block.1 * params.occupancyResolution)
      (block.2 * params.occupancyResolution) width height)
    (hnew : block ∉ visited) :
    ∃ after, dilateBlock fuel params reference state block = some after ∧
      PartlyDilated params width height first (visited ++ [block]) after := by
  have hbefore {p : ℕ × ℕ} (hp : InBlock params p) :
      first.Same state (block.1 * params.occupancyResolution + p.1,
        block.2 * params.occupancyResolution + p.2) := by
    apply h.untouched _ (hblock.lt hp).1
    rwa [blockOf_place hp]
  have hstamps {p : ℕ × ℕ} (hp : InBlock params p) := (hbefore hp).1
  obtain ⟨after, hrun, hsized, hdilated⟩ := PCCEncoder.exists_dilateBlock hblock h.sized
    (fun p hp => by
      rw [hstamps hp]
      exact hbinary _ (hblock.lt hp).1 (hblock.lt hp).2) hfuel hreference
  have houtside {q : ℕ × ℕ} (hq : q.1 < width) (hother : blockOf params q ≠ block) :
      state.Same after q := by
    apply hdilated.outside q hq
    intro p hp hplace
    rw [hplace, blockOf_place hp] at hother
    exact hother rfl
  have hbeside {q p : ℕ × ℕ} (hq : blockOf params q = block) (hp : InBlock params p)
      (hstamp : state.stamp (block.1 * params.occupancyResolution + p.1,
        block.2 * params.occupancyResolution + p.2) ≠ 0) :
      Beside params width height first q (block.1 * params.occupancyResolution + p.1,
        block.2 * params.occupancyResolution + p.2) := by
    refine ⟨hblock.lt hp, (blockOf_place hp).trans hq.symm, ?_⟩
    rwa [← hstamps hp]
  refine ⟨after, hrun, hsized, ?_, ?_, ?_⟩
  · intro q hx hq
    rw [List.mem_append, List.mem_singleton, not_or] at hq
    exact (h.untouched q hx hq.1).trans (houtside hx hq.2)
  · intro q hx hq hstamp c
    by_cases hother : blockOf params q = block
    · subst hother
      have hp := inBlock_mod hpos q
      have hplace := pixel_eq params q
      rw [hplace] at hstamp ⊢
      unfold blockOf at hbefore hdilated
      rw [hdilated.kept _ hp (by rwa [(hbefore hp).1]) c]
      exact (hbefore hp).2 c
    · rw [(houtside hx hother).2 c]
      rw [List.mem_append, List.mem_singleton] at hq
      exact h.kept q hx (hq.resolve_right hother) hstamp c
  · intro q hx hq hsome c
    by_cases hother : blockOf params q = block
    · have hsomeStamped : stamped params (block.1 * params.occupancyResolution)
          (block.2 * params.occupancyResolution) state ≠ 0 := by
        obtain ⟨other, hin, hsame, hstamp⟩ := hsome
        have hp := inBlock_mod hpos other
        have hplace := pixel_eq params other
        have hotherBlock : blockOf params other = block := hsame.trans hother
        subst hotherBlock
        unfold blockOf at hstamps ⊢
        rw [hplace, ← hstamps hp] at hstamp
        exact (List.countP_pos_iff.mpr ⟨_, mem_grid.mpr hp, decide_eq_true hstamp⟩).ne'
      have hq := inBlock_mod hpos q
      obtain ⟨low, high, hlow, hhigh, hle, hge⟩ := hdilated.between _ hq hsomeStamped c
      have hplace : (block.1 * params.occupancyResolution + q.1 % params.occupancyResolution,
          block.2 * params.occupancyResolution + q.2 % params.occupancyResolution) = q := by
        rw [← hother]
        exact (pixel_eq params q).symm
      dsimp only at hle hge
      rw [hplace] at hle hge
      rw [(hbefore hlow.1).2 c] at hle
      rw [(hbefore hhigh.1).2 c] at hge
      exact ⟨_, _, hbeside hother hlow.1 hlow.2, hbeside hother hhigh.1 hhigh.2, hle, hge⟩
    · rw [(houtside hx hother).2 c]
      rw [List.mem_append, List.mem_singleton] at hq
      exact h.between q hx (hq.resolve_right hother) hsome c

/-- The loops over the blocks of the picture. -/
theorem exists_foldlM_dilateBlock {first : DilationState} {fuel : ℕ}
    {reference : Option PCCImageAttribute} (hsized : first.Sized width height)
    (hpos : 0 < params.occupancyResolution) (hwidth : params.occupancyResolution ∣ width)
    (hheight : params.occupancyResolution ∣ height)
    (hbinary : ∀ q : ℕ × ℕ, q.1 < width → q.2 < height → first.stamp q = 0 ∨ first.stamp q = 1)
    (hfuel : params.occupancyResolution * params.occupancyResolution ≤ fuel)
    (hreference : ∀ r ∈ reference, width ≤ r.width ∧ height ≤ r.height) :
    ∃ after, (grid (width / params.occupancyResolution)
        (height / params.occupancyResolution)).foldlM (dilateBlock fuel params reference) first =
          some after ∧
      PartlyDilated params width height first (grid (width / params.occupancyResolution)
        (height / params.occupancyResolution)) after := by
  apply Codec.exists_foldlM (P := PartlyDilated params width height first)
  · intro visited block state hvisited h
    obtain ⟨hblock, hnew⟩ := Codec.mem_and_notMem_of_prefix hvisited (nodup_grid _ _)
    exact h.exists_dilateBlock hpos hbinary hfuel hreference
      (blockIn_of_mem hwidth hheight hblock) hnew
  · refine ⟨hsized, fun q _ _ => DilationState.Same.refl first q, ?_, ?_⟩
    · intro q _ hq
      exact absurd hq List.not_mem_nil
    · intro q _ hq
      exact absurd hq List.not_mem_nil

theorem blockOf_mem (hwidth : params.occupancyResolution ∣ width)
    (hheight : params.occupancyResolution ∣ height) {q : ℕ × ℕ} (hx : q.1 < width)
    (hy : q.2 < height) :
    blockOf params q ∈
      grid (width / params.occupancyResolution) (height / params.occupancyResolution) :=
  mem_grid.mpr ⟨Nat.div_lt_div_of_lt_of_dvd hwidth hx, Nat.div_lt_div_of_lt_of_dvd hheight hy⟩

end PCCEncoder

open PCCEncoder in
/-- `dilate` ends after at most as many waves as a block has pixels. -/
theorem exists_dilate {params : DilationParams} {occupancyMap : List ℕ} {image : PCCImageAttribute}
    {reference : Option PCCImageAttribute}
    (h : DilationInput params occupancyMap image reference) :
    ∃ after, dilate (params.occupancyResolution * params.occupancyResolution) params occupancyMap
        image reference = some after ∧
      Dilated params occupancyMap image after := by
  let first : DilationState := ⟨image, occupancyMap⟩
  have hsized : first.Sized image.width image.height := ⟨rfl, rfl, h.length_eq⟩
  have hstamp {q : ℕ × ℕ} (hq : image.Inside q) :
      occupancyMap[q.2 * image.width + q.1]? = some (first.stamp q) :=
    hsized.getElem?_stamp _ hq.1 hq.2
  have hbinary : ∀ q : ℕ × ℕ, q.1 < image.width → q.2 < image.height →
      first.stamp q = 0 ∨ first.stamp q = 1 := by
    intro q hx hy
    exact h.binary _ (List.mem_of_getElem? (hstamp ⟨hx, hy⟩))
  obtain ⟨after, hrun, hdilated⟩ := exists_foldlM_dilateBlock hsized h.resolution_pos h.width_dvd
    h.height_dvd hbinary le_rfl h.reference_size
  have hbeside {q other : ℕ × ℕ} (hother : Beside params image.width image.height first q other) :
      OccupiedBeside params occupancyMap image q other := by
    refine ⟨hother.inside, ?_, congrArg Prod.fst hother.block_eq, congrArg Prod.snd hother.block_eq⟩
    have hone := (hbinary other hother.inside.1 hother.inside.2).resolve_left hother.stamped
    rw [hstamp hother.inside, hone]
  have hresolution := h.resolution_pos
  refine ⟨after.image, ?_, hdilated.sized.width_eq, hdilated.sized.height_eq, ?_, ?_⟩
  · unfold dilate
    rw [if_neg (not_or.mpr ⟨hresolution.ne', not_lt.mpr h.resolution_le⟩), hrun]
    rfl
  · intro q hq hoccupied c
    apply hdilated.kept q hq.1 (blockOf_mem h.width_dvd h.height_dvd hq.1 hq.2)
    rw [hstamp hq] at hoccupied
    rw [Option.some.inj hoccupied]
    exact Nat.one_ne_zero
  · intro q hq _ hsome c
    obtain ⟨other, hother⟩ := hsome
    have hmarked : Beside params image.width image.height first q other := by
      refine ⟨hother.inside, Prod.ext hother.column_eq hother.row_eq, ?_⟩
      have hone := hother.occupied
      rw [hstamp hother.inside] at hone
      rw [Option.some.inj hone]
      exact Nat.one_ne_zero
    obtain ⟨low, high, hlow, hhigh, hle, hge⟩ := hdilated.between q hq.1
      (blockOf_mem h.width_dvd h.height_dvd hq.1 hq.2) ⟨other, hmarked⟩ c
    exact ⟨low, high, hbeside hlow, hbeside hhigh, hle, hge⟩

/-- Two blocks of four pixels, the first with one occupied pixel. -/
theorem exists_dilate_twoBlocks :
    ∃ after, PCCEncoder.dilate 4 ⟨2, false⟩ [0, 0, 0, 0, 1, 0, 0, 0] ⟨4, 2, fun _ p => p.1.toUInt16⟩
        none = some after ∧
      Dilated ⟨2, false⟩ [0, 0, 0, 0, 1, 0, 0, 0] ⟨4, 2, fun _ p => p.1.toUInt16⟩ after :=
  exists_dilate ⟨by decide, by decide, by decide, by decide, by decide, by decide, nofun⟩

end V3C

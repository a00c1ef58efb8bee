import V3C.Common.Connectivity
import V3C.Video.Dilation

/-! The waves in a block with an occupied pixel: they end, and the values stay between the values
that were there. -/
namespace V3C
open Cells Connectivity

namespace DilationState

variable {state state' : DilationState} {width height : ℕ} {pixel : ℕ × ℕ}

/-- The stamp of a pixel, zero before a wave reaches it. -/
def stamp (state : DilationState) (pixel : ℕ × ℕ) : ℕ :=
  state.occupancyMapTemp.getD (pixel.2 * state.image.width + pixel.1) 0

structure Sized (state : DilationState) (width height : ℕ) : Prop where
  width_eq : state.image.width = width
  height_eq : state.image.height = height
  length_eq : state.occupancyMapTemp.length = width * height

/-- A pixel that has the stamp and the samples that it had. -/
def Same (before after : DilationState) (pixel : ℕ × ℕ) : Prop :=
  after.stamp pixel = before.stamp pixel ∧
    ∀ c, after.image.channels c pixel = before.image.channels c pixel

theorem Same.refl (state : DilationState) (pixel : ℕ × ℕ) : state.Same state pixel :=
  ⟨rfl, fun _ => rfl⟩

theorem Same.trans {s₁ s₂ s₃ : DilationState} (h : s₁.Same s₂ pixel) (h' : s₂.Same s₃ pixel) :
    s₁.Same s₃ pixel :=
  ⟨h'.1.trans h.1, fun c => (h'.2 c).trans (h.2 c)⟩

theorem Sized.getElem?_stamp (h : state.Sized width height) (pixel : ℕ × ℕ)
    (hx : pixel.1 < width)
    (hy : pixel.2 < height) :
    state.occupancyMapTemp[pixel.2 * state.image.width + pixel.1]? = some (state.stamp pixel) := by
  have hindex := pixel_lt hx hy
  rw [← h.length_eq, ← h.width_eq] at hindex
  unfold stamp
  rw [List.getD_eq_getElem?_getD, List.getElem?_eq_getElem hindex]
  rfl

theorem Sized.colorAt_eq (h : state.Sized width height) (pixel : ℕ × ℕ)
    (hx : pixel.1 < width)
    (hy : pixel.2 < height) :
    PCCCodec.colorAt state.image pixel = some fun c => state.image.channels c pixel := by
  rw [PCCCodec.colorAt_eq, if_pos ⟨by rwa [h.width_eq], by rwa [h.height_eq]⟩]

/-- A new colour and a new stamp for one pixel. -/
theorem Sized.exists_paint (h : state.Sized width height) (pixel : ℕ × ℕ)
    (hx : pixel.1 < width)
    (hy : pixel.2 < height) (value : ℕ) (color : PCCColor16bit) :
    ∃ occupancyMapTemp image,
      setAt state.occupancyMapTemp (pixel.2 * state.image.width + pixel.1) value =
        some occupancyMapTemp ∧
      PCCEncoder.setColor state.image pixel color = some image ∧
      DilationState.Sized ⟨image, occupancyMapTemp⟩ width height ∧
      DilationState.stamp ⟨image, occupancyMapTemp⟩ pixel = value ∧
      (∀ c, image.channels c pixel = color c) ∧
      ∀ other, other.1 < width → other ≠ pixel → state.Same ⟨image, occupancyMapTemp⟩ other := by
  have hindex := pixel_lt hx hy
  rw [← h.length_eq, ← h.width_eq] at hindex
  have hcolor := PCCEncoder.setColor_eq state.image pixel color
  rw [if_pos ⟨by rwa [h.width_eq], by rwa [h.height_eq]⟩] at hcolor
  refine ⟨_, _, if_pos hindex, hcolor, ⟨h.width_eq, h.height_eq, ?_⟩, ?_, ?_, ?_⟩
  · rw [List.length_set, h.length_eq]
  · unfold stamp
    rw [List.getD_eq_getElem?_getD, List.getElem?_set_self hindex]
    rfl
  · intro c
    exact Function.update_self ..
  · intro other hother hne
    constructor
    · have hplace : pixel.2 * state.image.width + pixel.1 ≠
          other.2 * state.image.width + other.1 := by
        intro hsame
        rw [h.width_eq] at hsame
        exact hne (pixel_inj hother hx hsame.symm)
      unfold stamp
      rw [List.getD_eq_getElem?_getD, List.getElem?_set_ne hplace, ← List.getD_eq_getElem?_getD]
    · intro c
      exact Function.update_of_ne hne ..

end DilationState

namespace PCCEncoder

-- a block at `(u0, v0)` of a picture, and bounds for the samples
variable {params : DilationParams} {u0 v0 width height : ℕ} {lo hi : Fin 3 → ℕ}

def InBlock (params : DilationParams) (pixel : ℕ × ℕ) : Prop :=
  pixel.1 < params.occupancyResolution ∧ pixel.2 < params.occupancyResolution

/-- The block lies in the picture. -/
structure BlockIn (params : DilationParams) (u0 v0 width height : ℕ) : Prop where
  right_le : u0 + params.occupancyResolution ≤ width
  bottom_le : v0 + params.occupancyResolution ≤ height

theorem BlockIn.lt (h : BlockIn params u0 v0 width height) {pixel : ℕ × ℕ}
    (hpixel : InBlock params pixel) : u0 + pixel.1 < width ∧ v0 + pixel.2 < height := by
  have hright := h.right_le
  have hbottom := h.bottom_le
  obtain ⟨hx, hy⟩ := hpixel
  omega

/-! A wave reaches the neighbours of its front. -/

/-- What the samples in the sums of a block have in common, with bounds for each component. -/
structure Gathered (params : DilationParams) (u0 v0 : ℕ) (lo hi : Fin 3 → ℕ)
    (before block : DilationBlock) : Prop where
  state_eq : block.toDilationState = before.toDilationState
  nonZero_eq : block.nonZeroPixelCount = before.nonZeroPixelCount
  unstamped : ∀ q, block.count q ≠ 0 →
    InBlock params q ∧ before.stamp (u0 + q.1, v0 + q.2) = 0
  lower : ∀ q c, lo c * block.count q ≤ block.values q c
  upper : ∀ q c, block.values q c ≤ hi c * block.count q

/-- One more sample between the bounds. -/
theorem Gathered.add {before block : DilationBlock} (h : Gathered params u0 v0 lo hi before block)
    {q : ℕ × ℕ} (hq : InBlock params q) (hstamp : before.stamp (u0 + q.1, v0 + q.2) = 0)
    {color : PCCColor16bit} (hlo : ∀ c, lo c ≤ (color c).toNat) (hhi : ∀ c, (color c).toNat ≤ hi c) :
    Gathered params u0 v0 lo hi before { block with
      values := Function.update block.values q fun c => block.values q c + (color c).toNat
      count := Function.update block.count q (block.count q + 1) } where
  state_eq := h.state_eq
  nonZero_eq := h.nonZero_eq
  unstamped p hp := by
    dsimp only at hp
    by_cases hsame : p = q
    · subst hsame
      exact ⟨hq, hstamp⟩
    · rw [Function.update_of_ne hsame] at hp
      exact h.unstamped p hp
  lower p c := by
    dsimp only
    by_cases hsame : p = q
    · subst hsame
      rw [Function.update_self, Function.update_self, Nat.mul_succ]
      exact Nat.add_le_add (h.lower p c) (hlo c)
    · rw [Function.update_of_ne hsame, Function.update_of_ne hsame]
      exact h.lower p c
  upper p c := by
    dsimp only
    by_cases hsame : p = q
    · subst hsame
      rw [Function.update_self, Function.update_self, Nat.mul_succ]
      exact Nat.add_le_add (h.upper p c) (hhi c)
    · rw [Function.update_of_ne hsame, Function.update_of_ne hsame]
      exact h.upper p c

/-- The pixels of the block that have a stamp have samples between the bounds. -/
def Bounded (params : DilationParams) (u0 v0 : ℕ) (lo hi : Fin 3 → ℕ) (state : DilationState) :
    Prop :=
  ∀ p, InBlock params p → state.stamp (u0 + p.1, v0 + p.2) ≠ 0 → ∀ c,
    lo c ≤ (state.image.channels c (u0 + p.1, v0 + p.2)).toNat ∧
      (state.image.channels c (u0 + p.1, v0 + p.2)).toNat ≤ hi c

def Grows (block after : DilationBlock) : Prop := ∀ q, block.count q ≠ 0 → after.count q ≠ 0

/-- The neighbour `q` of `p` has a sum. -/
def DilatesTo (params : DilationParams) (u0 v0 : ℕ) (before block : DilationBlock) (p : ℕ × ℕ)
    (neighbor : ℤ × ℤ) : Prop :=
  ∀ q : ℕ × ℕ, InBlock params q → (q.1 : ℤ) = p.1 + neighbor.1 → (q.2 : ℤ) = p.2 + neighbor.2 →
    before.stamp (u0 + q.1, v0 + q.2) = 0 → block.count q ≠ 0

theorem exists_spreadTo {before block : DilationBlock} (hblock : BlockIn params u0 v0 width height)
    (hsized : before.Sized width height) (hbounded : Bounded params u0 v0 lo hi before.toDilationState)
    (h : Gathered params u0 v0 lo hi before block) {p : ℕ × ℕ} (hp : InBlock params p)
    (hstamp : before.stamp (u0 + p.1, v0 + p.2) ≠ 0) (neighbor : ℤ × ℤ) :
    ∃ after, spreadTo params u0 v0 p block neighbor = some after ∧
      Gathered params u0 v0 lo hi before after ∧ Grows block after ∧
      DilatesTo params u0 v0 before after p neighbor := by
  have himage : block.image = before.image := congrArg DilationState.image h.state_eq
  have hoccupancy : block.occupancyMapTemp = before.occupancyMapTemp :=
    congrArg DilationState.occupancyMapTemp h.state_eq
  unfold spreadTo
  dsimp only
  split_ifs with hin
  · obtain ⟨qx, hqx⟩ := Int.eq_ofNat_of_zero_le (show 0 ≤ (p.1 : ℤ) + neighbor.1 by omega)
    obtain ⟨qy, hqy⟩ := Int.eq_ofNat_of_zero_le (show 0 ≤ (p.2 : ℤ) + neighbor.2 by omega)
    have hq : InBlock params (qx, qy) := by
      constructor <;> dsimp only <;> omega
    have hqlt := hblock.lt hq
    have hplace : (((v0 + p.2 : ℕ) + neighbor.2) * (before.image.width : ℤ) +
        ((u0 + p.1 : ℕ) + neighbor.1)).toNat =
        (v0 + qy) * before.image.width + (u0 + qx) := by
      have hx : ((u0 + p.1 : ℕ) : ℤ) + neighbor.1 = (u0 + qx : ℕ) := by omega
      have hy : ((v0 + p.2 : ℕ) : ℤ) + neighbor.2 = (v0 + qy : ℕ) := by omega
      rw [hx, hy, ← Nat.cast_mul, ← Nat.cast_add, Int.toNat_natCast]
    have hread := hsized.getElem?_stamp (u0 + qx, v0 + qy) hqlt.1 hqlt.2
    have hcolor := hsized.colorAt_eq (u0 + p.1, v0 + p.2) (hblock.lt hp).1 (hblock.lt hp).2
    rw [himage, hoccupancy, hplace, hread, Option.bind_eq_bind, Option.bind_some, hcolor, hqx, hqy,
      Int.toNat_natCast, Int.toNat_natCast]
    split_ifs with hzero
    · refine ⟨_, rfl, ?_, ?_, ?_⟩
      · exact h.add hq hzero (fun c => (hbounded p hp hstamp c).1) fun c => (hbounded p hp hstamp c).2
      · intro q hne
        dsimp only
        by_cases hsame : q = (qx, qy)
        · rw [hsame, Function.update_self]
          omega
        · rwa [Function.update_of_ne hsame]
      · intro q _ hx hy _
        obtain rfl : q = (qx, qy) := by
          apply Prod.ext <;> dsimp only <;> omega
        dsimp only
        rw [Function.update_self]
        omega
    · refine ⟨block, rfl, h, fun q hq => hq, ?_⟩
      intro q _ hx hy hunstamped
      obtain rfl : q = (qx, qy) := by
        apply Prod.ext <;> dsimp only <;> omega
      exact absurd hunstamped hzero
  · refine ⟨block, rfl, h, fun q hq => hq, ?_⟩
    intro q hq hx hy
    obtain ⟨hqx, hqy⟩ := hq
    exact absurd (by omega) hin

theorem exists_neighbor {p q : ℕ × ℕ} (h : Adjacent p q) :
    ∃ neighbor ∈ neighbors, (q.1 : ℤ) = p.1 + neighbor.1 ∧ (q.2 : ℤ) = p.2 + neighbor.2 := by
  rcases h with ⟨hrow, hnext | hnext⟩ | ⟨hcolumn, hnext | hnext⟩
  · exact ⟨(1, 0), by decide, by dsimp only; omega⟩
  · exact ⟨(-1, 0), by decide, by dsimp only; omega⟩
  · exact ⟨(0, 1), by decide, by dsimp only; omega⟩
  · exact ⟨(0, -1), by decide, by dsimp only; omega⟩

/-- The neighbours of `p` without a stamp have a sum, if `p` is in the front. -/
def Served (params : DilationParams) (u0 v0 iteration : ℕ) (before block : DilationBlock)
    (p : ℕ × ℕ) : Prop :=
  before.stamp (u0 + p.1, v0 + p.2) = iteration → ∀ q, InBlock params q → Adjacent p q →
    before.stamp (u0 + q.1, v0 + q.2) = 0 → block.count q ≠ 0

theorem exists_spread {before block : DilationBlock} {iteration : ℕ} (hiteration : iteration ≠ 0)
    (hblock : BlockIn params u0 v0 width height) (hsized : before.Sized width height)
    (hbounded : Bounded params u0 v0 lo hi before.toDilationState)
    (h : Gathered params u0 v0 lo hi before block) {p : ℕ × ℕ} (hp : InBlock params p) :
    ∃ after, spread params u0 v0 iteration block p = some after ∧
      Gathered params u0 v0 lo hi before after ∧ Grows block after ∧
      Served params u0 v0 iteration before after p := by
  have hread := hsized.getElem?_stamp (u0 + p.1, v0 + p.2) (hblock.lt hp).1
    (hblock.lt hp).2
  have hstate := h.state_eq
  unfold spread
  rw [show block.image = before.image from congrArg DilationState.image hstate,
    show block.occupancyMapTemp = before.occupancyMapTemp from
      congrArg DilationState.occupancyMapTemp hstate, hread, Option.bind_eq_bind, Option.bind_some]
  split_ifs with hfront
  · have hloop : ∃ after, neighbors.foldlM (spreadTo params u0 v0 p) block = some after ∧
        Gathered params u0 v0 lo hi before after ∧ Grows block after ∧
        ∀ neighbor ∈ neighbors, DilatesTo params u0 v0 before after p neighbor := by
      refine Codec.exists_foldlM (P := fun visited after =>
        Gathered params u0 v0 lo hi before after ∧ Grows block after ∧
          ∀ neighbor ∈ visited, DilatesTo params u0 v0 before after p neighbor) ?_
        ⟨h, fun q hq => hq, fun neighbor hneighbor => absurd hneighbor List.not_mem_nil⟩
      rintro visited neighbor s - ⟨hgathered, hgrows, hreached⟩
      obtain ⟨after, hrun, hafter, hmore, hreaches⟩ :=
        exists_spreadTo hblock hsized hbounded hgathered hp (hfront.trans_ne hiteration) neighbor
      refine ⟨after, hrun, hafter, fun q hq => hmore q (hgrows q hq), ?_⟩
      intro other hother
      rcases List.mem_append.mp hother with hvisited | hlast
      · intro q hq hx hy hzero
        exact hmore q (hreached other hvisited q hq hx hy hzero)
      · rwa [List.mem_singleton.mp hlast]
    obtain ⟨after, hrun, hafter, hgrows, hreaches⟩ := hloop
    refine ⟨after, hrun, hafter, hgrows, ?_⟩
    intro _ q hq hadjacent hzero
    obtain ⟨neighbor, hneighbor, hx, hy⟩ := exists_neighbor hadjacent
    exact hreaches neighbor hneighbor q hq hx hy hzero
  · exact ⟨block, rfl, h, fun q hq => hq, fun hstamp => absurd hstamp hfront⟩

/-- The first half of a wave. -/
theorem exists_foldlM_spread {before : DilationBlock} {iteration : ℕ} (hiteration : iteration ≠ 0)
    (hblock : BlockIn params u0 v0 width height) (hsized : before.Sized width height)
    (hbounded : Bounded params u0 v0 lo hi before.toDilationState)
    (hcleared : ∀ q, before.count q = 0 ∧ before.values q = 0) :
    ∃ after, (grid params.occupancyResolution params.occupancyResolution).foldlM
        (spread params u0 v0 iteration) before = some after ∧
      Gathered params u0 v0 lo hi before after ∧
      ∀ p, InBlock params p → Served params u0 v0 iteration before after p := by
  have hstart : Gathered params u0 v0 lo hi before before := by
    refine ⟨rfl, rfl, fun q hq => absurd (hcleared q).1 hq, ?_, ?_⟩ <;> intro q c
    · simp [hcleared q]
    · simp [hcleared q]
  have hloop : ∃ after, (grid params.occupancyResolution params.occupancyResolution).foldlM
        (spread params u0 v0 iteration) before = some after ∧
      Gathered params u0 v0 lo hi before after ∧
      ∀ p ∈ grid params.occupancyResolution params.occupancyResolution,
        Served params u0 v0 iteration before after p := by
    refine Codec.exists_foldlM (P := fun visited after =>
      Gathered params u0 v0 lo hi before after ∧
        ∀ p ∈ visited, Served params u0 v0 iteration before after p) ?_
      ⟨hstart, fun p hp => absurd hp List.not_mem_nil⟩
    rintro visited p block hvisited ⟨hgathered, hserved⟩
    have hp : InBlock params p := mem_grid.mp (Codec.mem_and_notMem_of_prefix hvisited (nodup_grid _ _)).1
    obtain ⟨after, hrun, hafter, hgrows, hlast⟩ :=
      exists_spread hiteration hblock hsized hbounded hgathered hp
    refine ⟨after, hrun, hafter, ?_⟩
    intro other hother
    rcases List.mem_append.mp hother with hvisited | hsame
    · intro hstamp q hq hadjacent hzero
      exact hgrows q (hserved other hvisited hstamp q hq hadjacent hzero)
    · rwa [List.mem_singleton.mp hsame]
  obtain ⟨after, hrun, hafter, hserved⟩ := hloop
  exact ⟨after, hrun, hafter, fun p hp => hserved p (mem_grid.mpr hp)⟩

/-! The pixels that were reached take a stamp and a value. -/

/-- The rounded mean of samples between two bounds. -/
theorem mean_bounds {low high sum count : ℕ} (hcount : count ≠ 0) (hlow : low * count ≤ sum)
    (hhigh : sum ≤ high * count) :
    low ≤ (sum + count / 2) / count ∧ (sum + count / 2) / count ≤ high := by
  have hpos : 0 < count := by omega
  constructor
  · rw [Nat.le_div_iff_mul_le hpos]
    omega
  · rw [← Nat.lt_succ_iff, Nat.div_lt_iff_lt_mul hpos, Nat.succ_mul]
    omega

/-- What the second half has done after some pixels. -/
structure Settled (u0 v0 width iteration : ℕ) (lo hi : Fin 3 → ℕ) (before : DilationBlock)
    (visited : List (ℕ × ℕ)) (after : DilationBlock) : Prop where
  other : ∀ q, q.1 < width → (∀ p ∈ visited, before.count p ≠ 0 → q ≠ (u0 + p.1, v0 + p.2)) →
    before.Same after.toDilationState q
  taken : ∀ p ∈ visited, before.count p ≠ 0 →
    after.stamp (u0 + p.1, v0 + p.2) = iteration + 1 ∧
      ∀ c, lo c ≤ (after.image.channels c (u0 + p.1, v0 + p.2)).toNat ∧
        (after.image.channels c (u0 + p.1, v0 + p.2)).toNat ≤ hi c
  cleared : ∀ p ∈ visited, after.count p = 0 ∧ after.values p = 0
  unvisited : ∀ p, p ∉ visited → after.count p = before.count p ∧ after.values p = before.values p
  counted : after.nonZeroPixelCount =
    before.nonZeroPixelCount + visited.countP fun p => decide (before.count p ≠ 0)

theorem place_inj {p q : ℕ × ℕ} (h : (u0 + p.1, v0 + p.2) = (u0 + q.1, v0 + q.2)) : p = q := by
  obtain ⟨hx, hy⟩ := Prod.mk.inj h
  exact Prod.ext (Nat.add_left_cancel hx) (Nat.add_left_cancel hy)

theorem exists_settle {before block : DilationBlock} {iteration : ℕ} {visited : List (ℕ × ℕ)}
    (hblock : BlockIn params u0 v0 width height) (hsized : block.Sized width height)
    (hhi : ∀ c, hi c < 2 ^ 16) (hmean : ∀ p, before.count p ≠ 0 → ∀ c,
      lo c * before.count p ≤ before.values p c ∧ before.values p c ≤ hi c * before.count p)
    (hzero : ∀ p, before.count p = 0 → before.values p = 0)
    (h : Settled u0 v0 width iteration lo hi before visited block)
    (hvisitedIn : ∀ q ∈ visited, InBlock params q) {p : ℕ × ℕ} (hp : InBlock params p)
    (hnew : p ∉ visited) :
    ∃ after, settle u0 v0 iteration block p = some after ∧ after.Sized width height ∧
      Settled u0 v0 width iteration lo hi before (visited ++ [p]) after := by
  have hlt := hblock.lt hp
  obtain ⟨hcount, hvalues⟩ := h.unvisited p hnew
  unfold settle
  dsimp only
  rw [hcount, hvalues]
  split_ifs with hne
  · obtain ⟨occupancyMapTemp, image, htemp, himage, hpainted, hstamp, hcolor, hother⟩ :=
      hsized.exists_paint (u0 + p.1, v0 + p.2) hlt.1 hlt.2 (iteration + 1) fun k =>
        UInt16.ofNat ((before.values p k + before.count p / 2) / before.count p)
    rw [htemp, Option.bind_eq_bind, Option.bind_some, himage, Option.bind_eq_bind, Option.bind_some]
    refine ⟨_, rfl, hpainted, ?_, ?_, ?_, ?_, ?_⟩
    · intro q hq hfree
      have hq' : q ≠ (u0 + p.1, v0 + p.2) := hfree p (List.mem_append_right _ List.mem_cons_self) hne
      have hbefore := h.other q hq fun r hr => hfree r (List.mem_append_left _ hr)
      exact hbefore.trans (hother q hq hq')
    · intro q hq hcounted
      rcases List.mem_append.mp hq with hvisited | hlast
      · have hqp : q ≠ p := fun hsame => hnew (hsame ▸ hvisited)
        have hsame := hother (u0 + q.1, v0 + q.2)
          (hblock.lt (hvisitedIn q hvisited)).1 fun heq => hqp (place_inj heq)
        have htaken := h.taken q hvisited hcounted
        refine ⟨hsame.1.trans htaken.1, fun c => ?_⟩
        rw [hsame.2 c]
        exact htaken.2 c
      · rw [List.mem_singleton.mp hlast]
        refine ⟨hstamp, fun c => ?_⟩
        have hbounds := mean_bounds hne (hmean p hne c).1 (hmean p hne c).2
        have hvalue := hhi c
        rw [show image.channels c (u0 + p.1, v0 + p.2) = _ from hcolor c, UInt16.toNat_ofNat_of_lt' (by
          simp only [UInt16.size]
          omega)]
        exact hbounds
    · intro q hq
      dsimp only
      by_cases hsame : q = p
      · rw [hsame, Function.update_self, Function.update_self]
        exact ⟨rfl, rfl⟩
      · rw [Function.update_of_ne hsame, Function.update_of_ne hsame]
        apply h.cleared q
        rcases List.mem_append.mp hq with hvisited | hlast
        · exact hvisited
        · exact absurd (List.mem_singleton.mp hlast) hsame
    · intro q hq
      have hsame : q ≠ p := fun hsame => hq (hsame ▸ List.mem_append_right _ List.mem_cons_self)
      dsimp only
      rw [Function.update_of_ne hsame, Function.update_of_ne hsame]
      exact h.unvisited q fun hvisited => hq (List.mem_append_left _ hvisited)
    · dsimp only
      rw [h.counted, List.countP_append, List.countP_singleton, if_pos (decide_eq_true hne)]
      rfl
  · rw [not_not] at hne
    refine ⟨block, rfl, hsized, ?_, ?_, ?_, ?_, ?_⟩
    · intro q hq hfree
      exact h.other q hq fun r hr => hfree r (List.mem_append_left _ hr)
    · intro q hq hcounted
      rcases List.mem_append.mp hq with hvisited | hlast
      · exact h.taken q hvisited hcounted
      · rw [List.mem_singleton.mp hlast] at hcounted
        exact absurd hne hcounted
    · intro q hq
      rcases List.mem_append.mp hq with hvisited | hlast
      · exact h.cleared q hvisited
      · rw [List.mem_singleton.mp hlast, hcount, hvalues]
        exact ⟨hne, hzero p hne⟩
    · intro q hq
      exact h.unvisited q fun hvisited => hq (List.mem_append_left _ hvisited)
    · rw [h.counted, List.countP_append, List.countP_singleton, if_neg (by simp [hne]),
        Nat.add_zero]

/-- The second half of a wave. -/
theorem exists_foldlM_settle {before : DilationBlock} (iteration : ℕ)
    (hblock : BlockIn params u0 v0 width height) (hsized : before.Sized width height)
    (hhi : ∀ c, hi c < 2 ^ 16) (hmean : ∀ p, before.count p ≠ 0 → ∀ c,
      lo c * before.count p ≤ before.values p c ∧ before.values p c ≤ hi c * before.count p)
    (hzero : ∀ p, before.count p = 0 → before.values p = 0) :
    ∃ after, (grid params.occupancyResolution params.occupancyResolution).foldlM
        (settle u0 v0 iteration) before = some after ∧ after.Sized width height ∧
      Settled u0 v0 width iteration lo hi before
        (grid params.occupancyResolution params.occupancyResolution) after := by
  apply Codec.exists_foldlM (P := fun visited after => after.Sized width height ∧
    Settled u0 v0 width iteration lo hi before visited after)
  · rintro visited p block hvisited ⟨hblockSized, hsettled⟩
    obtain ⟨hp, hnew⟩ := Codec.mem_and_notMem_of_prefix hvisited (nodup_grid _ _)
    have hvisitedIn : ∀ q ∈ visited, InBlock params q := fun q hq =>
      mem_grid.mp (hvisited.subset (List.mem_append_left _ hq))
    exact exists_settle hblock hblockSized hhi hmean hzero hsettled hvisitedIn (mem_grid.mp hp) hnew
  · refine ⟨hsized, ?_, ?_, ?_, ?_, ?_⟩
    · intro q _ _
      exact DilationState.Same.refl _ q
    · intro p hp
      exact absurd hp List.not_mem_nil
    · intro p hp
      exact absurd hp List.not_mem_nil
    · intro p _
      exact ⟨rfl, rfl⟩
    · rfl

/-! The invariant of the waves. -/

/-- The number of pixels of the block that have a stamp. -/
def stamped (params : DilationParams) (u0 v0 : ℕ) (state : DilationState) : ℕ :=
  (grid params.occupancyResolution params.occupancyResolution).countP fun p =>
    decide (state.stamp (u0 + p.1, v0 + p.2) ≠ 0)

/-- Before a wave: all neighbours of the pixels behind the front have a stamp. -/
structure Front (params : DilationParams) (u0 v0 width height : ℕ) (lo hi : Fin 3 → ℕ)
    (first : DilationState) (iteration : ℕ) (block : DilationBlock) : Prop where
  sized : block.Sized width height
  outside : ∀ q, q.1 < width → (∀ p, InBlock params p → q ≠ (u0 + p.1, v0 + p.2)) →
    first.Same block.toDilationState q
  kept : ∀ p, InBlock params p → first.stamp (u0 + p.1, v0 + p.2) ≠ 0 →
    first.Same block.toDilationState (u0 + p.1, v0 + p.2)
  stamp_le : ∀ p, InBlock params p → block.stamp (u0 + p.1, v0 + p.2) ≤ iteration
  closed : ∀ p q, InBlock params p → InBlock params q → Adjacent p q →
    block.stamp (u0 + p.1, v0 + p.2) ≠ 0 → block.stamp (u0 + p.1, v0 + p.2) < iteration →
    block.stamp (u0 + q.1, v0 + q.2) ≠ 0
  bounded : Bounded params u0 v0 lo hi block.toDilationState
  cleared : ∀ p, block.count p = 0 ∧ block.values p = 0
  counted : block.nonZeroPixelCount = stamped params u0 v0 block.toDilationState

theorem stamped_le (state : DilationState) :
    stamped params u0 v0 state ≤ params.occupancyResolution * params.occupancyResolution := by
  have hlength := List.countP_le_length (l := grid params.occupancyResolution params.occupancyResolution)
    (p := fun p => decide (state.stamp (u0 + p.1, v0 + p.2) ≠ 0))
  rwa [length_grid] at hlength

theorem stamp_ne_zero_of_stamped {state : DilationState}
    (h : params.occupancyResolution * params.occupancyResolution ≤ stamped params u0 v0 state)
    {p : ℕ × ℕ} (hp : InBlock params p) : state.stamp (u0 + p.1, v0 + p.2) ≠ 0 := by
  have hall : stamped params u0 v0 state =
      (grid params.occupancyResolution params.occupancyResolution).length := by
    rw [length_grid]
    exact le_antisymm (stamped_le state) h
  exact of_decide_eq_true (List.countP_eq_length.mp hall p (mem_grid.mpr hp))

theorem exists_unstamped {state : DilationState}
    (h : stamped params u0 v0 state < params.occupancyResolution * params.occupancyResolution) :
    ∃ p, InBlock params p ∧ state.stamp (u0 + p.1, v0 + p.2) = 0 := by
  by_contra hnone
  push Not at hnone
  have hall : stamped params u0 v0 state =
      (grid params.occupancyResolution params.occupancyResolution).length :=
    List.countP_eq_length.mpr fun p hp => decide_eq_true (hnone p (mem_grid.mp hp))
  rw [length_grid] at hall
  omega

theorem exists_stamped {state : DilationState} (h : stamped params u0 v0 state ≠ 0) :
    ∃ p, InBlock params p ∧ state.stamp (u0 + p.1, v0 + p.2) ≠ 0 := by
  obtain ⟨p, hp, hstamp⟩ := List.countP_pos_iff.mp (Nat.pos_of_ne_zero h)
  exact ⟨p, mem_grid.mp hp, of_decide_eq_true hstamp⟩

section Wave

variable {first : DilationState} {block mid after : DilationBlock} {iteration : ℕ}

/-- The sums that the first half leaves, for the second half. -/
theorem Gathered.values_eq (h : Gathered params u0 v0 lo hi block mid) {p : ℕ × ℕ}
    (hp : mid.count p = 0) : mid.values p = 0 := by
  funext c
  have hupper := h.upper p c
  rw [hp, Nat.mul_zero] at hupper
  exact Nat.le_zero.mp hupper

/-- A pixel that was not reached stays as it was. -/
theorem Settled.same (h : Settled u0 v0 width iteration lo hi mid
      (grid params.occupancyResolution params.occupancyResolution) after)
    (hblock : BlockIn params u0 v0 width height) {p : ℕ × ℕ} (hp : InBlock params p)
    (hcount : mid.count p = 0) : mid.Same after.toDilationState (u0 + p.1, v0 + p.2) := by
  apply h.other _ (hblock.lt hp).1
  intro q _ hq hplace
  rw [place_inj hplace] at hcount
  exact hq hcount

/-- A wave adds the pixels that it reaches to those that have a stamp. -/
theorem stamped_settled (hgathered : Gathered params u0 v0 lo hi block mid)
    (h : Settled u0 v0 width iteration lo hi mid
      (grid params.occupancyResolution params.occupancyResolution) after)
    (hblock : BlockIn params u0 v0 width height) :
    stamped params u0 v0 after.toDilationState = stamped params u0 v0 block.toDilationState +
      (grid params.occupancyResolution params.occupancyResolution).countP fun p =>
        decide (mid.count p ≠ 0) := by
  apply Codec.countP_add
  intro p hp
  by_cases hcount : mid.count p = 0
  · have hsame := (h.same hblock (mem_grid.mp hp) hcount).1
    rw [hgathered.state_eq] at hsame
    simp [hsame, hcount]
  · have htaken := (h.taken p hp hcount).1
    have hunstamped := (hgathered.unstamped p hcount).2
    simp [htaken, hunstamped, hcount]

/-- One wave. While pixels without a stamp are left, it reaches one of them. -/
theorem exists_wave (hiteration : 0 < iteration) (hblock : BlockIn params u0 v0 width height)
    (hhi : ∀ c, hi c < 2 ^ 16)
    (h : Front params u0 v0 width height lo hi first iteration block) :
    ∃ after, wave params u0 v0 iteration block = some after ∧
      Front params u0 v0 width height lo hi first (iteration + 1) after ∧
      (block.nonZeroPixelCount ≠ 0 → block.nonZeroPixelCount <
          params.occupancyResolution * params.occupancyResolution →
        block.nonZeroPixelCount < after.nonZeroPixelCount) := by
  obtain ⟨mid, hspread, hgathered, hserved⟩ :=
    exists_foldlM_spread hiteration.ne' hblock h.sized h.bounded h.cleared
  have hstate := hgathered.state_eq
  have hmidSized : mid.Sized width height := by
    rw [hstate]
    exact h.sized
  obtain ⟨after, hsettle, hsized, hsettled⟩ := exists_foldlM_settle iteration hblock
    hmidSized hhi (fun p _ c => ⟨hgathered.lower p c, hgathered.upper p c⟩)
    fun p => hgathered.values_eq
  have hkept {p : ℕ × ℕ} (hp : InBlock params p) (hcount : mid.count p = 0) :
      block.Same after.toDilationState (u0 + p.1, v0 + p.2) := by
    have hsame := hsettled.same hblock hp hcount
    rwa [hstate] at hsame
  have htaken {p : ℕ × ℕ} (hp : InBlock params p) (hcount : mid.count p ≠ 0) :=
    hsettled.taken p (mem_grid.mpr hp) hcount
  refine ⟨after, ?_, ⟨hsized, ?_, ?_, ?_, ?_, ?_, ?_, ?_⟩, ?_⟩
  · unfold wave
    dsimp only
    rw [Option.bind_eq_bind, hspread, Option.bind_some]
    exact hsettle
  · intro q hq hfree
    have hsame := hsettled.other q hq fun p hp _ => hfree p (mem_grid.mp hp)
    rw [hstate] at hsame
    exact (h.outside q hq hfree).trans hsame
  · intro p hp hfirst
    have hbefore := h.kept p hp hfirst
    have hcount : mid.count p = 0 := by
      by_contra hcount
      have hunstamped := (hgathered.unstamped p hcount).2
      rw [hbefore.1] at hunstamped
      exact hfirst hunstamped
    exact hbefore.trans (hkept hp hcount)
  · intro p hp
    by_cases hcount : mid.count p = 0
    · rw [(hkept hp hcount).1]
      exact (h.stamp_le p hp).trans (Nat.le_succ iteration)
    · exact (htaken hp hcount).1.le
  · intro p q hp hq hadjacent hstamp hbehind
    have hcount : mid.count p = 0 := by
      by_contra hcount
      rw [(htaken hp hcount).1] at hbehind
      exact absurd hbehind (lt_irrefl _)
    rw [(hkept hp hcount).1] at hstamp hbehind
    by_cases hreached : mid.count q = 0
    · rw [(hkept hq hreached).1]
      -- behind the front nothing is left, and the front has served its neighbours
      rcases Nat.lt_succ_iff_lt_or_eq.mp hbehind with hlt | hfront
      · exact h.closed p q hp hq hadjacent hstamp hlt
      · intro hzero
        exact hserved p hp hfront q hq hadjacent hzero hreached
    · rw [(htaken hq hreached).1]
      exact Nat.succ_ne_zero iteration
  · intro p hp hstamp
    by_cases hcount : mid.count p = 0
    · have hsame := hkept hp hcount
      rw [hsame.1] at hstamp
      intro c
      rw [hsame.2 c]
      exact h.bounded p hp hstamp c
    · exact (htaken hp hcount).2
  · intro p
    by_cases hp : p ∈ grid params.occupancyResolution params.occupancyResolution
    · exact hsettled.cleared p hp
    · obtain ⟨hcount, hvalues⟩ := hsettled.unvisited p hp
      have hzero : mid.count p = 0 := by
        by_contra hne
        exact hp (mem_grid.mpr (hgathered.unstamped p hne).1)
      rw [hcount, hvalues]
      exact ⟨hzero, hgathered.values_eq hzero⟩
  · rw [hsettled.counted, hgathered.nonZero_eq, h.counted, stamped_settled hgathered hsettled hblock]
  · intro hsome hleft
    rw [h.counted] at hsome hleft
    obtain ⟨p, hp, hstamped⟩ := exists_stamped hsome
    obtain ⟨q, hq, hunstamped⟩ := exists_unstamped hleft
    obtain ⟨i, j, hi, hj, hadjacent, hin, hout⟩ := exists_adjacent
      (s := fun p => block.stamp (u0 + p.1, v0 + p.2) ≠ 0) hstamped (not_not.mpr hunstamped) hp hq
    rw [not_not] at hout
    have hfront : block.stamp (u0 + i.1, v0 + i.2) = iteration := by
      by_contra hne
      exact h.closed i j hi hj hadjacent hin (lt_of_le_of_ne (h.stamp_le i hi) hne) hout
    have hreached := hserved i hi hfront j hj hadjacent hout
    have hpos : 0 < (grid params.occupancyResolution params.occupancyResolution).countP fun p =>
        decide (mid.count p ≠ 0) :=
      List.countP_pos_iff.mpr ⟨j, mem_grid.mpr hj, decide_eq_true hreached⟩
    rw [hsettled.counted, hgathered.nonZero_eq]
    exact Nat.lt_add_of_pos_right hpos

/-- The `while` loop ends with a stamp on every pixel of the block. -/
theorem exists_waves {fuel : ℕ} (hiteration : 0 < iteration)
    (hblock : BlockIn params u0 v0 width height) (hhi : ∀ c, hi c < 2 ^ 16)
    (h : Front params u0 v0 width height lo hi first iteration block)
    (hsome : block.nonZeroPixelCount ≠ 0)
    (hfuel : params.occupancyResolution * params.occupancyResolution - block.nonZeroPixelCount <
      fuel) :
    ∃ after last, waves params u0 v0 fuel iteration block = some after ∧
      Front params u0 v0 width height lo hi first last after ∧
      params.occupancyResolution * params.occupancyResolution ≤ after.nonZeroPixelCount := by
  induction fuel generalizing iteration block with
  | zero => exact absurd hfuel (Nat.not_lt_zero _)
  | succ fuel ih =>
    unfold waves
    split_ifs with hleft
    · obtain ⟨next, hwave, hfront, hmore⟩ := exists_wave hiteration hblock hhi h
      have hlt := hmore hsome hleft
      rw [hwave]
      exact ih (Nat.succ_pos iteration) hfront (by omega) (by omega)
    · exact ⟨block, iteration, rfl, h, not_lt.mp hleft⟩

end Wave

end PCCEncoder

end V3C

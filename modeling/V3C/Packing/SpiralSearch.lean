import Mathlib.Tactic.Ring
import V3C.Packing.SpatialConsistencyTetris

/-! The spiral goes round the origin ring by ring and leaves out no point. -/
namespace V3C

theorem iterate_path {α : Type} {f : α → α} (path : ℕ → α) {n : ℕ}
    (h : ∀ j < n, f (path j) = path (j + 1)) : ∀ j ≤ n, f^[j] (path 0) = path j := by
  intro j
  induction j with
  | zero => exact fun _ => rfl
  | succ j ih =>
    intro hj
    rw [Function.iterate_succ_apply', ih (by omega), h j (by omega)]

section Step

variable {x y : ℤ}

theorem spiralStep_down (hlow : -x < y) (hhigh : y < x) : spiralStep (x, y) = (x, y - 1) := by
  have hside : ¬(|x| ≤ |y| ∧ (x ≠ y ∨ 0 ≤ x)) := by
    rw [not_and_or, not_le, abs_of_pos (show 0 < x by omega), abs_lt]
    exact Or.inl ⟨hlow, hhigh⟩
  unfold spiralStep
  simp only [if_neg hside, if_pos (show 0 ≤ x by omega)]
  rfl

theorem spiralStep_left (hlow : y < x) (hhigh : x ≤ -y) : spiralStep (x, y) = (x - 1, y) := by
  have hside : |x| ≤ |y| ∧ (x ≠ y ∨ 0 ≤ x) := by
    rw [abs_of_neg (show y < 0 by omega), abs_le]
    exact ⟨⟨by omega, hhigh⟩, Or.inl (by omega)⟩
  unfold spiralStep
  simp only [if_pos hside, if_neg (show ¬0 ≤ y by omega)]
  rfl

theorem spiralStep_up (hlow : x ≤ y) (hhigh : y < -x) : spiralStep (x, y) = (x, y + 1) := by
  have hside : ¬(|x| ≤ |y| ∧ (x ≠ y ∨ 0 ≤ x)) := by
    rintro ⟨habs, hcorner⟩
    rw [abs_of_neg (show x < 0 by omega)] at habs
    rcases abs_cases y with hy | hy <;> omega
  unfold spiralStep
  simp only [if_neg hside, if_neg (show ¬0 ≤ x by omega)]

theorem spiralStep_right (hlow : -y ≤ x) (hhigh : x ≤ y) : spiralStep (x, y) = (x + 1, y) := by
  have hside : |x| ≤ |y| ∧ (x ≠ y ∨ 0 ≤ x) := by
    rw [abs_of_nonneg (show 0 ≤ y by omega), abs_le]
    exact ⟨⟨hlow, hhigh⟩, by omega⟩
  unfold spiralStep
  simp only [if_pos hside, if_pos (show 0 ≤ y by omega)]

end Step

section Ring

variable {r j : ℕ}

/-- Down the right side of a ring. -/
theorem spiral_down (hj : j + 1 ≤ 2 * r) :
    spiralStep^[j] (r, r - 1) = ((r : ℤ), (r - 1 - j : ℤ)) := by
  have hpath := iterate_path (f := spiralStep) (fun j : ℕ => ((r : ℤ), (r - 1 - j : ℤ)))
    (n := 2 * r - 1) (fun i hi => by
      rw [spiralStep_down (by omega) (by omega)]
      exact Prod.ext rfl (by dsimp only; omega)) j (by omega)
  simpa using hpath

/-- Along the side below. -/
theorem spiral_left (hj : j ≤ 2 * r) :
    spiralStep^[j] (r, -r) = ((r - j : ℤ), (-r : ℤ)) := by
  have hpath := iterate_path (f := spiralStep) (fun j : ℕ => ((r - j : ℤ), (-r : ℤ)))
    (n := 2 * r) (fun i hi => by
      rw [spiralStep_left (by omega) (by omega)]
      exact Prod.ext (by dsimp only; omega) rfl) j hj
  simpa using hpath

theorem spiral_up (hj : j ≤ 2 * r) :
    spiralStep^[j] (-r, -r) = ((-r : ℤ), (-r + j : ℤ)) := by
  have hpath := iterate_path (f := spiralStep) (fun j : ℕ => ((-r : ℤ), (-r + j : ℤ)))
    (n := 2 * r) (fun i hi => by
      rw [spiralStep_up (by omega) (by omega)]
      exact Prod.ext rfl (by dsimp only; omega)) j hj
  simpa using hpath

/-- Along the side above, and one point further to the next ring. -/
theorem spiral_right (hj : j ≤ 2 * r + 1) :
    spiralStep^[j] (-r, r) = ((-r + j : ℤ), (r : ℤ)) := by
  have hpath := iterate_path (f := spiralStep) (fun j : ℕ => ((-r + j : ℤ), (r : ℤ)))
    (n := 2 * r + 1) (fun i hi => by
      rw [spiralStep_right (by omega) (by omega)]
      exact Prod.ext (by dsimp only; omega) rfl) j hj
  simpa using hpath

theorem spiral_corners (hr : 0 < r) :
    spiralStep^[2 * r - 1] (r, r - 1) = ((r : ℤ), (-r : ℤ)) ∧
      spiralStep^[2 * r + (2 * r - 1)] (r, r - 1) = ((-r : ℤ), (-r : ℤ)) ∧
      spiralStep^[2 * r + (2 * r + (2 * r - 1))] (r, r - 1) = ((-r : ℤ), (r : ℤ)) := by
  have hdown : spiralStep^[2 * r - 1] (r, r - 1) = ((r : ℤ), (-r : ℤ)) := by
    rw [spiral_down (by omega)]
    exact Prod.ext rfl (by dsimp only; omega)
  have hleft : spiralStep^[2 * r + (2 * r - 1)] (r, r - 1) = ((-r : ℤ), (-r : ℤ)) := by
    rw [Function.iterate_add_apply, hdown, spiral_left (Nat.le_refl _)]
    exact Prod.ext (by push_cast; omega) rfl
  refine ⟨hdown, hleft, ?_⟩
  rw [Function.iterate_add_apply, hleft, spiral_up (Nat.le_refl _)]
  exact Prod.ext rfl (by push_cast; omega)

/-- Every point of a ring is reached from its first point. -/
theorem exists_spiral_ring (hr : 0 < r) {x y : ℤ} (hring : max |x| |y| = r) :
    ∃ n < 8 * r, spiralStep^[n] (r, r - 1) = (x, y) := by
  obtain ⟨hdown, hleft, hup⟩ := spiral_corners hr
  have hx : |x| ≤ r := hring ▸ le_max_left _ _
  have hy : |y| ≤ r := hring ▸ le_max_right _ _
  have hside : |x| = r ∨ |y| = r := by
    rcases max_choice |x| |y| with h | h
    · exact Or.inl (h ▸ hring)
    · exact Or.inr (h ▸ hring)
  rw [abs_le] at hx hy
  by_cases hbelow : y = -r
  · refine ⟨(r - x).toNat + (2 * r - 1), by omega, ?_⟩
    rw [Function.iterate_add_apply, hdown, spiral_left (by omega), hbelow]
    exact Prod.ext (by dsimp only; omega) rfl
  by_cases habove : y = r
  · refine ⟨(x + r).toNat + (2 * r + (2 * r + (2 * r - 1))), by omega, ?_⟩
    rw [Function.iterate_add_apply, hup, spiral_right (by omega), habove]
    exact Prod.ext (by dsimp only; omega) rfl
  by_cases hleftSide : x = -r
  · refine ⟨(y + r).toNat + (2 * r + (2 * r - 1)), by omega, ?_⟩
    rw [Function.iterate_add_apply, hleft, spiral_up (by omega), hleftSide]
    exact Prod.ext rfl (by dsimp only; omega)
  · have hrightSide : x = r := by
      rcases hside with h | h
      · rcases abs_cases x with hx | hx <;> omega
      · rcases abs_cases y with hy | hy <;> omega
    refine ⟨(r - 1 - y).toNat, by omega, ?_⟩
    rw [spiral_down (by omega), hrightSide]
    exact Prod.ext rfl (by dsimp only; omega)

/-- The rings follow each other. -/
theorem spiral_ring_start (hr : 0 < r) :
    spiralStep^[(2 * r - 1) ^ 2] (0, 0) = ((r : ℤ), (r - 1 : ℤ)) := by
  obtain ⟨r, rfl⟩ : ∃ k, r = k + 1 := ⟨r - 1, by omega⟩
  induction r with
  | zero => decide
  | succ r ih =>
    have hstart := ih (by omega)
    obtain ⟨-, -, hup⟩ := spiral_corners (show 0 < r + 1 by omega)
    have hring : spiralStep^[2 * (r + 1) + 1 + (2 * (r + 1) + (2 * (r + 1) + (2 * (r + 1) - 1)))]
        (((r + 1 : ℕ) : ℤ), ((r + 1 : ℕ) : ℤ) - 1) =
        (((r + 1 + 1 : ℕ) : ℤ), ((r + 1 + 1 : ℕ) : ℤ) - 1) := by
      rw [Function.iterate_add_apply spiralStep (2 * (r + 1) + 1), hup,
        spiral_right (Nat.le_refl _)]
      exact Prod.ext (by push_cast; omega) (by push_cast; omega)
    have hcount : (2 * (r + 1 + 1) - 1) ^ 2 =
        2 * (r + 1) + 1 + (2 * (r + 1) + (2 * (r + 1) + (2 * (r + 1) - 1))) +
          (2 * (r + 1) - 1) ^ 2 := by
      have hnext : 2 * (r + 1 + 1) - 1 = 2 * r + 3 := by omega
      have hlast : 2 * (r + 1) - 1 = 2 * r + 1 := by omega
      rw [hnext, hlast]
      ring
    rw [hcount, Function.iterate_add_apply, hstart, hring]

theorem exists_spiral {x y : ℤ} (hx : |x| ≤ r) (hy : |y| ≤ r) :
    ∃ n < (2 * r + 1) ^ 2, spiralStep^[n] (0, 0) = (x, y) := by
  obtain ⟨k, hk⟩ : ∃ k : ℕ, max |x| |y| = k :=
    ⟨(max |x| |y|).toNat, (Int.toNat_of_nonneg (le_max_of_le_left (abs_nonneg x))).symm⟩
  have hle : k ≤ r := by
    have := max_le hx hy
    omega
  rcases Nat.eq_zero_or_pos k with rfl | hpos
  · have hzero : max |x| |y| ≤ 0 := hk.le
    have hx0 := abs_nonpos_iff.mp (max_le_iff.mp hzero).1
    have hy0 := abs_nonpos_iff.mp (max_le_iff.mp hzero).2
    exact ⟨0, Nat.pow_pos (by omega), Prod.ext hx0.symm hy0.symm⟩
  · obtain ⟨n, hn, hspiral⟩ := exists_spiral_ring hpos hk
    refine ⟨n + (2 * k - 1) ^ 2, ?_, ?_⟩
    · have hcount : 8 * k + (2 * k - 1) ^ 2 = (2 * k + 1) ^ 2 := by
        obtain ⟨i, rfl⟩ : ∃ i, k = i + 1 := ⟨k - 1, by omega⟩
        have hlast : 2 * (i + 1) - 1 = 2 * i + 1 := by omega
        rw [hlast]
        ring
      have hmono : (2 * k + 1) ^ 2 ≤ (2 * r + 1) ^ 2 := Nat.pow_le_pow_left (by omega) 2
      omega
    · rw [Function.iterate_add_apply, spiral_ring_start hpos, hspiral]

end Ring

end V3C

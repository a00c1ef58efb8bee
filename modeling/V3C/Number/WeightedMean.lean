import Mathlib.Algebra.BigOperators.Group.List.Basic
import Mathlib.Tactic.Linarith

/-! Weighted means of natural numbers, rounded down: what has no weight does not count. -/
namespace WeightedMean

/-- The weights with their values. -/
abbrev Entries := List (ℕ × ℕ)

def total (entries : Entries) : ℕ := (entries.map Prod.fst).sum

def weighted (entries : Entries) : ℕ := (entries.map fun entry => entry.1 * entry.2).sum

/-- A mean with an offset before it is rounded down. -/
def mean (offset : ℕ) (entries : Entries) : ℕ := (weighted entries + offset) / total entries

variable {entries : Entries} {lo hi : ℕ}

theorem total_mul_le (h : ∀ entry ∈ entries, entry.1 ≠ 0 → lo ≤ entry.2) :
    lo * total entries ≤ weighted entries := by
  induction entries with
  | nil => exact le_refl _
  | cons entry entries ih =>
    have hrest := ih fun other hother => h other (List.mem_cons_of_mem _ hother)
    have hentry : lo * entry.1 ≤ entry.1 * entry.2 := by
      rcases Nat.eq_zero_or_pos entry.1 with hzero | hpos
      · rw [hzero, Nat.mul_zero]
        exact Nat.zero_le _
      · have hle := h entry List.mem_cons_self hpos.ne'
        rw [Nat.mul_comm]
        exact Nat.mul_le_mul_left _ hle
    unfold total weighted at hrest ⊢
    rw [List.map_cons, List.map_cons, List.sum_cons, List.sum_cons, Nat.mul_add]
    exact Nat.add_le_add hentry hrest

theorem weighted_le (h : ∀ entry ∈ entries, entry.1 ≠ 0 → entry.2 ≤ hi) :
    weighted entries ≤ hi * total entries := by
  induction entries with
  | nil => exact le_refl _
  | cons entry entries ih =>
    have hrest := ih fun other hother => h other (List.mem_cons_of_mem _ hother)
    have hentry : entry.1 * entry.2 ≤ hi * entry.1 := by
      rcases Nat.eq_zero_or_pos entry.1 with hzero | hpos
      · rw [hzero, Nat.zero_mul]
        exact Nat.zero_le _
      · have hle := h entry List.mem_cons_self hpos.ne'
        rw [Nat.mul_comm hi]
        exact Nat.mul_le_mul_left _ hle
    unfold total weighted at hrest ⊢
    rw [List.map_cons, List.map_cons, List.sum_cons, List.sum_cons, Nat.mul_add]
    exact Nat.add_le_add hentry hrest

/-- A mean is not below the values that count. -/
theorem le_mean (offset : ℕ) (hpos : 0 < total entries)
    (h : ∀ entry ∈ entries, entry.1 ≠ 0 → lo ≤ entry.2) :
    lo ≤ mean offset entries := by
  unfold mean
  rw [Nat.le_div_iff_mul_le hpos]
  exact (total_mul_le h).trans (Nat.le_add_right _ _)

/-- A mean is not above the values that count, when the offset only rounds. -/
theorem mean_le {offset : ℕ} (hoffset : offset < total entries)
    (h : ∀ entry ∈ entries, entry.1 ≠ 0 → entry.2 ≤ hi) : mean offset entries ≤ hi := by
  have hle := weighted_le h
  have hpos : 0 < total entries := Nat.zero_lt_of_lt hoffset
  unfold mean
  rw [← Nat.lt_succ_iff, Nat.div_lt_iff_lt_mul hpos, Nat.succ_mul]
  exact Nat.add_lt_add_of_le_of_lt hle hoffset

end WeightedMean

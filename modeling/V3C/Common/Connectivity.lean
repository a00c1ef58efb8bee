import Mathlib.Tactic.Linarith

/-! Neighbours in a square of points. -/
namespace Connectivity

/-- Two points next to each other in a row or in a column. -/
def Adjacent (p q : ℕ × ℕ) : Prop :=
  (p.2 = q.2 ∧ (p.1 + 1 = q.1 ∨ q.1 + 1 = p.1)) ∨ p.1 = q.1 ∧ (p.2 + 1 = q.2 ∨ q.2 + 1 = p.2)

section Line

variable {s : ℕ → Prop} {a n : ℕ}

theorem exists_last (ha : s a) (hn : ¬s (a + n)) : ∃ i < a + n, s i ∧ ¬s (i + 1) := by
  induction n with
  | zero => exact absurd ha hn
  | succ n ih =>
    by_cases hprevious : s (a + n)
    · exact ⟨a + n, by omega, hprevious, hn⟩
    · obtain ⟨i, hi, hs⟩ := ih hprevious
      exact ⟨i, by omega, hs⟩

/-- Between a point in `s` and one that is not, two neighbours differ. -/
theorem exists_step {b size : ℕ} (ha : s a) (hb : ¬s b) (hasize : a < size) (hbsize : b < size) :
    ∃ i < size, ∃ j < size, (i + 1 = j ∨ j + 1 = i) ∧ s i ∧ ¬s j := by
  rcases Nat.le_total a b with hab | hba
  · have hn : ¬s (a + (b - a)) := by rwa [Nat.add_sub_cancel' hab]
    obtain ⟨i, hi, hs, hnot⟩ := exists_last ha hn
    exact ⟨i, by omega, i + 1, by omega, Or.inl rfl, hs, hnot⟩
  · have hn : ¬¬s (b + (a - b)) := by
      rw [Nat.add_sub_cancel' hba]
      exact not_not.mpr ha
    obtain ⟨j, hj, hnot, hs⟩ := exists_last (s := fun i => ¬s i) hb hn
    exact ⟨j + 1, by omega, j, by omega, Or.inr rfl, not_not.mp hs, hnot⟩

end Line

/-- A set that is neither empty nor the whole square has a point next to one outside. -/
theorem exists_adjacent {s : ℕ × ℕ → Prop} {size : ℕ} {p q : ℕ × ℕ} (hp : s p) (hq : ¬s q)
    (hpsize : p.1 < size ∧ p.2 < size) (hqsize : q.1 < size ∧ q.2 < size) :
    ∃ i j, (i.1 < size ∧ i.2 < size) ∧ (j.1 < size ∧ j.2 < size) ∧ Adjacent i j ∧
      s i ∧ ¬s j := by
  by_cases hcorner : s (q.1, p.2)
  · obtain ⟨i, hi, j, hj, hnext, hs, hnot⟩ :=
      exists_step (s := fun y => s (q.1, y)) hcorner hq hpsize.2 hqsize.2
    exact ⟨(q.1, i), (q.1, j), ⟨hqsize.1, hi⟩, ⟨hqsize.1, hj⟩, Or.inr ⟨rfl, hnext⟩, hs, hnot⟩
  · obtain ⟨i, hi, j, hj, hnext, hs, hnot⟩ :=
      exists_step (s := fun x => s (x, p.2)) hp hcorner hpsize.1 hqsize.1
    exact ⟨(i, p.2), (j, p.2), ⟨hi, hpsize.2⟩, ⟨hj, hpsize.2⟩, Or.inl ⟨rfl, hnext⟩, hs, hnot⟩

end Connectivity

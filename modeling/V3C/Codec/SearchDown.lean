import Mathlib.Data.Nat.Notation
import Mathlib.Tactic.Common

/-! A search from an index down to 1, which ends where a visit has an outcome. -/
namespace Codec

variable {β : Type}

/-- `for ( index = n; index > 0; index-- )` with a `return` in its body. -/
def searchDown (visit : ℕ → Option (Option β)) : ℕ → Option (Option β)
  | 0 => some none
  | n + 1 => do
    match ← visit (n + 1) with
    | some outcome => some (some outcome)
    | none => searchDown visit n

variable {visit : ℕ → Option (Option β)} {n : ℕ}

theorem searchDown_eq_none (h : ∀ i, 0 < i → i ≤ n → visit i = some none) :
    searchDown visit n = some none := by
  induction n with
  | zero => rfl
  | succ n ih =>
    have hrest := ih fun i hpos hi => h i hpos (by omega)
    simpa [searchDown, h (n + 1) (by omega) (Nat.le_refl _)] using hrest

/-- The outcome is that of the last index which has one. -/
theorem searchDown_eq_some {j : ℕ} {outcome : β} (hpos : 0 < j) (hj : j ≤ n)
    (houtcome : visit j = some (some outcome))
    (hafter : ∀ i, j < i → i ≤ n → visit i = some none) :
    searchDown visit n = some (some outcome) := by
  induction n with
  | zero => omega
  | succ n ih =>
    by_cases hlast : j = n + 1
    · subst hlast
      simp [searchDown, houtcome]
    · have hrest := ih (by omega) fun i hji hi => hafter i hji (by omega)
      simpa [searchDown, hafter (n + 1) (by omega) (Nat.le_refl _)] using hrest

theorem exists_of_searchDown_eq_some {outcome : β} (h : searchDown visit n = some (some outcome)) :
    ∃ i, 0 < i ∧ i ≤ n ∧ visit i = some (some outcome) := by
  induction n with
  | zero => cases h
  | succ n ih =>
    obtain ⟨visited, hvisited, h⟩ := Option.bind_eq_some_iff.mp h
    cases visited with
    | some found =>
      cases h
      exact ⟨n + 1, by omega, Nat.le_refl _, hvisited⟩
    | none =>
      obtain ⟨i, hpos, hi, houtcome⟩ := ih h
      exact ⟨i, hpos, by omega, houtcome⟩

end Codec

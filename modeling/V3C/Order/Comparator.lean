import Mathlib.Data.List.Lex
import Mathlib.Data.List.Sort

/-! Comparison functions that a sort can use on the elements of a list. -/
namespace Comparator

variable {α κ : Type}

/-- Neither element comes first. -/
def Tie (lt : α → α → Bool) (a b : α) : Prop := lt a b = false ∧ lt b a = false

/-- No element comes before one that stands before it. -/
def Sorted (lt : α → α → Bool) (l : List α) : Prop := l.Pairwise fun a b => lt b a = false

/-- The comparison is a strict weak order of the elements, and its sorted lists are the same up to
ties. -/
structure Sorts (lt : α → α → Bool) (elements : List α) : Prop where
  irrefl : ∀ a ∈ elements, lt a a = false
  trans : ∀ a ∈ elements, ∀ b ∈ elements, ∀ c ∈ elements,
    lt a b = true → lt b c = true → lt a c = true
  tie_trans : ∀ a ∈ elements, ∀ b ∈ elements, ∀ c ∈ elements,
    Tie lt a b → Tie lt b c → Tie lt a c
  unique : ∀ l l' : List α, l.Perm elements → l'.Perm elements → Sorted lt l → Sorted lt l' →
    List.Forall₂ (Tie lt) l l'

variable [LinearOrder κ] {lt : α → α → Bool} {key : α → κ}

theorem tie_iff (hkey : ∀ a b, lt a b = true ↔ key a < key b) {a b : α} :
    Tie lt a b ↔ key a = key b := by
  unfold Tie
  rw [← Bool.not_eq_true, ← Bool.not_eq_true, hkey, hkey, not_lt, not_lt]
  constructor
  · intro h
    exact le_antisymm h.2 h.1
  · intro h
    exact ⟨h.symm.le, h.le⟩

omit [LinearOrder κ] in
theorem forall₂_of_map_eq {l l' : List α} (h : l.map key = l'.map key) :
    List.Forall₂ (fun a b => key a = key b) l l' := by
  induction l generalizing l' with
  | nil =>
    rw [List.map_nil] at h
    rw [List.map_eq_nil_iff.mp h.symm]
    exact .nil
  | cons a l ih =>
    cases l' with
    | nil => exact absurd h (List.cons_ne_nil _ _)
    | cons b l' =>
      rw [List.map_cons, List.map_cons, List.cons.injEq] at h
      exact .cons h.1 (ih h.2)

/-- A comparison of keys in a linear order can be sorted by. -/
theorem sorts_of_key (hkey : ∀ a b, lt a b = true ↔ key a < key b) (elements : List α) :
    Sorts lt elements where
  irrefl a _ := by
    rw [← Bool.not_eq_true, hkey]
    exact lt_irrefl _
  trans a _ b _ c _ hab hbc := (hkey a c).mpr (((hkey a b).mp hab).trans ((hkey b c).mp hbc))
  tie_trans a _ b _ c _ hab hbc :=
    (tie_iff hkey).mpr (((tie_iff hkey).mp hab).trans ((tie_iff hkey).mp hbc))
  unique := by
    intro l l' hl hl' hsorted hsorted'
    have hmono : ∀ l : List α, Sorted lt l → (l.map key).Pairwise (· ≤ ·) := by
      intro l h
      rw [List.pairwise_map]
      apply List.Pairwise.imp _ h
      intro a b hba
      rw [← Bool.not_eq_true, hkey, not_lt] at hba
      exact hba
    have hperm : (l.map key).Perm (l'.map key) := (hl.trans hl'.symm).map key
    have heq := hperm.eq_of_pairwise (fun a b _ _ => le_antisymm) (hmono l hsorted)
      (hmono l' hsorted')
    apply List.Forall₂.imp _ (forall₂_of_map_eq heq)
    intro a b hab
    exact (tie_iff hkey).mpr hab

end Comparator

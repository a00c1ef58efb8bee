import Mathlib.Data.List.Basic
import Mathlib.Data.List.Induction

/-! Tables of keyed records in order of arrival, where a later record replaces the
earlier ones with its key. -/
namespace Keyed

variable {α κ : Type} [DecidableEq κ]

/-- The record that arrived last under a key. -/
def latest (key : α → κ) (xs : List α) (k : κ) : Option α :=
  xs.reverse.find? fun x => key x = k

theorem latest_nil (key : α → κ) (k : κ) : latest key [] k = none := rfl

theorem latest_append (key : α → κ) (xs ys : List α) (k : κ) :
    latest key (xs ++ ys) k = (latest key ys k).or (latest key xs k) := by
  unfold latest
  rw [List.reverse_append, List.find?_append]

theorem latest_concat (key : α → κ) (xs : List α) (x : α) (k : κ) :
    latest key (xs ++ [x]) k = if key x = k then some x else latest key xs k := by
  rw [latest_append]
  by_cases h : key x = k <;> simp [latest, h]

theorem key_of_latest {key : α → κ} {xs : List α} {k : κ} {x : α}
    (h : latest key xs k = some x) : key x = k := by
  have := List.find?_some h
  simpa using this

theorem mem_of_latest {key : α → κ} {xs : List α} {k : κ} {x : α}
    (h : latest key xs k = some x) : x ∈ xs := by
  have := List.mem_of_find?_eq_some h
  simpa using this

theorem exists_latest (key : α → κ) {xs : List α} {x : α} (h : x ∈ xs) :
    ∃ y, latest key xs (key x) = some y := by
  rw [← Option.isSome_iff_exists]
  unfold latest
  rw [List.find?_isSome]
  exact ⟨x, List.mem_reverse.mpr h, by simp⟩

/-- A key is in place among the positions of the table when its position holds one of
its records and no different record arrives later under it. -/
def InPlace (key : α → ℕ) (xs : List α) (k : ℕ) : Prop :=
  ∃ x, xs[k]? = some x ∧ key x = k ∧ ∀ y, latest key (xs.drop (k + 1)) k = some y → y = x

theorem inPlace_singleton {key : α → ℕ} {x : α} (h : key x = 0) : InPlace key [x] 0 := by
  refine ⟨x, rfl, h, ?_⟩
  intro y hy
  rw [List.drop_one, List.tail_cons, latest_nil] at hy
  exact absurd hy (by simp)

/-- The keys in place are those for which the position finds what the key finds. -/
theorem getElem?_eq_latest_iff {key : α → ℕ} {xs : List α} {k : ℕ} {x : α}
    (hx : latest key xs k = some x) : xs[k]? = some x ↔ InPlace key xs k := by
  have hsplit : ∀ y, xs[k]? = some y →
      latest key xs k = (latest key (xs.drop (k + 1)) k).or
        (if key y = k then some y else latest key (xs.take k) k) := by
    intro y hy
    obtain ⟨hk, rfl⟩ := List.getElem?_eq_some_iff.mp hy
    conv_lhs => rw [← List.take_append_drop (k + 1) xs, latest_append,
      List.take_succ_eq_append_getElem hk, latest_concat]
  constructor
  · intro hpos
    have hkey := key_of_latest hx
    refine ⟨x, hpos, hkey, ?_⟩
    intro y hy
    have := hsplit x hpos
    rw [hx, hy, Option.some_or, Option.some.injEq] at this
    exact this.symm
  · rintro ⟨y, hy, hkey, hlast⟩
    have hboth := hsplit y hy
    rw [if_pos hkey, hx] at hboth
    cases hdrop : latest key (xs.drop (k + 1)) k with
    | none =>
      rw [hdrop, Option.none_or] at hboth
      rw [hy, hboth]
    | some z =>
      have hzy := hlast z hdrop
      rw [hdrop, Option.some_or, hzy] at hboth
      rw [hy, hboth]

end Keyed

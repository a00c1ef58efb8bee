import Mathlib.Data.List.Basic
import Mathlib.Order.Lattice

/-! Maps as lists of entries in increasing order of their keys. -/
namespace SortedMap

variable {κ α : Type} [LinearOrder κ]

def Sorted (m : List (κ × α)) : Prop := m.Pairwise fun a b => a.1 < b.1

/-- Replaces the value of a key, which may not have one. -/
def update (k : κ) (f : Option α → α) : List (κ × α) → List (κ × α)
  | [] => [(k, f none)]
  | (k', a) :: m =>
    if k < k' then (k, f none) :: (k', a) :: m
    else if k' < k then (k', a) :: update k f m
    else (k', f (some a)) :: m

def lookup (k : κ) : List (κ × α) → Option α
  | [] => none
  | (k', a) :: m => if k = k' then some a else lookup k m

variable {k k' : κ} {f : Option α → α} {m : List (κ × α)}

theorem lookup_cons (entry : κ × α) (m : List (κ × α)) :
    lookup k (entry :: m) = if k = entry.1 then some entry.2 else lookup k m := rfl

theorem mem_of_lookup {a : α} (h : lookup k m = some a) : (k, a) ∈ m := by
  induction m with
  | nil => cases h
  | cons entry m ih =>
    rw [lookup_cons] at h
    split_ifs at h with hk
    · obtain rfl := Option.some.inj h
      rw [hk]
      exact List.mem_cons_self
    · exact List.mem_cons_of_mem _ (ih h)

theorem lookup_eq_none_of_lt (h : ∀ entry ∈ m, k < entry.1) : lookup k m = none := by
  induction m with
  | nil => rfl
  | cons entry m ih =>
    rw [lookup_cons, if_neg (h entry List.mem_cons_self).ne]
    exact ih fun entry' hentry' => h entry' (List.mem_cons_of_mem _ hentry')

theorem mem_iff_lookup (hsorted : Sorted m) {a : α} : (k, a) ∈ m ↔ lookup k m = some a := by
  constructor
  · intro h
    induction m with
    | nil => cases h
    | cons entry m ih =>
      obtain ⟨hhead, htail⟩ := List.pairwise_cons.mp hsorted
      rw [lookup_cons]
      rcases List.mem_cons.mp h with rfl | h
      · rw [if_pos rfl]
      · rw [if_neg (hhead _ h).ne']
        exact ih htail h
  · exact mem_of_lookup

/-- The entries of an updated map. -/
theorem mem_update {entry : κ × α} (h : entry ∈ update k f m) :
    entry.1 = k ∨ entry ∈ m := by
  induction m with
  | nil =>
    rw [List.mem_singleton.mp h]
    exact .inl rfl
  | cons first m ih =>
    unfold update at h
    split_ifs at h with hlt hgt
    · rcases List.mem_cons.mp h with rfl | h
      · exact .inl rfl
      · exact .inr h
    · rcases List.mem_cons.mp h with rfl | h
      · exact .inr List.mem_cons_self
      · exact (ih h).imp_right (List.mem_cons_of_mem _)
    · rcases List.mem_cons.mp h with rfl | h
      · exact .inl (le_antisymm (not_lt.mp hlt) (not_lt.mp hgt))
      · exact .inr (List.mem_cons_of_mem _ h)

theorem sorted_update (hsorted : Sorted m) : Sorted (update k f m) := by
  induction m with
  | nil => exact List.pairwise_singleton _ _
  | cons first m ih =>
    obtain ⟨hhead, htail⟩ := List.pairwise_cons.mp hsorted
    unfold update
    split_ifs with hlt hgt
    · apply List.Pairwise.cons _ hsorted
      intro entry hentry
      rcases List.mem_cons.mp hentry with rfl | hentry
      · exact hlt
      · exact hlt.trans (hhead entry hentry)
    · apply List.Pairwise.cons _ (ih htail)
      intro entry hentry
      rcases mem_update hentry with hkey | hold
      · rw [hkey]
        exact hgt
      · exact hhead entry hold
    · exact List.Pairwise.cons hhead htail

theorem lookup_update (hsorted : Sorted m) :
    lookup k' (update k f m) = if k' = k then some (f (lookup k m)) else lookup k' m := by
  induction m with
  | nil => rfl
  | cons first m ih =>
    obtain ⟨hhead, htail⟩ := List.pairwise_cons.mp hsorted
    unfold update
    by_cases hlt : k < first.1
    · have hnone : lookup k (first :: m) = none := by
        apply lookup_eq_none_of_lt
        intro entry hentry
        rcases List.mem_cons.mp hentry with rfl | hentry
        · exact hlt
        · exact hlt.trans (hhead entry hentry)
      rw [if_pos hlt, lookup_cons, hnone]
    · rw [if_neg hlt]
      by_cases hgt : first.1 < k
      · rw [if_pos hgt, lookup_cons, ih htail, lookup_cons (k := k), if_neg hgt.ne',
          lookup_cons (k := k')]
        dsimp only
        by_cases hk : k' = k
        · rw [if_pos hk, if_pos hk, hk, if_neg hgt.ne']
        · rw [if_neg hk, if_neg hk]
      · have heq : first.1 = k := le_antisymm (not_lt.mp hlt) (not_lt.mp hgt)
        rw [if_neg hgt, lookup_cons, lookup_cons, lookup_cons, if_pos heq.symm, heq]
        dsimp only
        by_cases hk : k' = k
        · rw [if_pos hk, if_pos hk]
        · rw [if_neg hk, if_neg hk, if_neg hk]

end SortedMap

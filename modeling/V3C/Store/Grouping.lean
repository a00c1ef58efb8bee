import Mathlib.Data.List.Induction
import Mathlib.Data.List.Nodup
import Mathlib.Logic.Function.Basic

/-! Items that are put into groups by a key. A group has the positions of its items, and the first
item of each group is kept in order of arrival. -/
namespace Grouping

variable {γ κ : Type} [DecidableEq κ]

/-- The positions under a key that has come, and the first items. -/
structure Groups (γ κ : Type) where
  positions : κ → Option (List ℕ) := fun _ => none
  centers : List γ := []

/-- An item at a position. -/
def Groups.insert (key : γ → κ) (groups : Groups γ κ) (c : γ) (i : ℕ) : Groups γ κ :=
  match groups.positions (key c) with
  | some is =>
    { groups with positions := Function.update groups.positions (key c) (some (is ++ [i])) }
  | none =>
    { positions := Function.update groups.positions (key c) (some [i])
      centers := groups.centers ++ [c] }

/-- Items at the positions from `i` on. -/
def Groups.insertAll (key : γ → κ) (groups : Groups γ κ) : ℕ → List γ → Groups γ κ
  | _, [] => groups
  | i, c :: cs => (groups.insert key c i).insertAll key (i + 1) cs

/-- The positions of the items with a key. -/
def positionsOf (key : γ → κ) (cs : List γ) (p : κ) : List ℕ :=
  (List.range cs.length).filter fun i => (cs[i]?).map key = some p

theorem mem_positionsOf {key : γ → κ} {cs : List γ} {p : κ} {i : ℕ} :
    i ∈ positionsOf key cs p ↔ ∃ c, cs[i]? = some c ∧ key c = p := by
  unfold positionsOf
  rw [List.mem_filter, List.mem_range, decide_eq_true_iff, Option.map_eq_some_iff]
  constructor
  · exact And.right
  · intro h
    obtain ⟨c, hc, hkey⟩ := h
    exact ⟨(List.getElem?_eq_some_iff.mp hc).1, c, hc, hkey⟩

theorem nodup_positionsOf (key : γ → κ) (cs : List γ) (p : κ) : (positionsOf key cs p).Nodup :=
  List.nodup_range.filter _

theorem positionsOf_concat (key : γ → κ) (cs : List γ) (c : γ) (p : κ) :
    positionsOf key (cs ++ [c]) p =
      positionsOf key cs p ++ if key c = p then [cs.length] else [] := by
  unfold positionsOf
  rw [List.length_append, List.length_singleton, List.range_succ, List.filter_append]
  congr 1
  · apply List.filter_congr
    intro i hi
    rw [List.getElem?_append_left (List.mem_range.mp hi)]
  · rw [List.filter_singleton, List.getElem?_concat_length, Option.map_some]
    by_cases h : key c = p
    · rw [if_pos h, h]
      simp
    · rw [if_neg h]
      simp [h]

theorem length_positionsOf (key : γ → κ) (cs : List γ) (p : κ) :
    (positionsOf key cs p).length = cs.countP fun c => key c = p := by
  induction cs using List.reverseRecOn with
  | nil => rfl
  | append_singleton cs c ih =>
    rw [positionsOf_concat, List.length_append, ih, List.countP_append, List.countP_singleton]
    by_cases h : key c = p
    · simp [h]
    · simp [h]

/-- The groups of the items that have come. -/
structure Groups.Holds (key : γ → κ) (cs : List γ) (groups : Groups γ κ) : Prop where
  positions : ∀ p, groups.positions p =
    if positionsOf key cs p = [] then none else some (positionsOf key cs p)
  nodup : (groups.centers.map key).Nodup
  mem : ∀ c ∈ groups.centers, c ∈ cs
  exists_center : ∀ c ∈ cs, ∃ d ∈ groups.centers, key d = key c

theorem Groups.Holds.nil (key : γ → κ) : ({} : Groups γ κ).Holds key [] where
  positions _ := rfl
  nodup := List.nodup_nil
  mem := nofun
  exists_center := nofun

theorem positionsOf_ne_nil {key : γ → κ} {cs : List γ} {c : γ} (hc : c ∈ cs) :
    positionsOf key cs (key c) ≠ [] := by
  obtain ⟨i, hi⟩ := List.mem_iff_getElem?.mp hc
  exact List.ne_nil_of_mem (mem_positionsOf.mpr ⟨c, hi, rfl⟩)

/-- One more item. -/
theorem Groups.Holds.insert {key : γ → κ} {cs : List γ} {groups : Groups γ κ}
    (h : groups.Holds key cs) (c : γ) :
    (groups.insert key c cs.length).Holds key (cs ++ [c]) := by
  have hupdate : ∀ p, Function.update groups.positions (key c)
        (some (positionsOf key cs (key c) ++ [cs.length])) p =
      if positionsOf key (cs ++ [c]) p = [] then none else some (positionsOf key (cs ++ [c]) p) := by
    intro p
    rw [positionsOf_concat]
    by_cases hp : key c = p
    · subst hp
      rw [Function.update_self, if_pos rfl, if_neg (by simp)]
    · rw [Function.update_of_ne (Ne.symm hp), if_neg hp, List.append_nil, h.positions]
  unfold Groups.insert
  by_cases hnil : positionsOf key cs (key c) = []
  · have hnone : groups.positions (key c) = none := by rw [h.positions, if_pos hnil]
    rw [hnone]
    rw [hnil, List.nil_append] at hupdate
    constructor
    · exact hupdate
    · rw [List.map_append, List.map_singleton]
      apply h.nodup.append (List.nodup_singleton _)
      intro p hp hlast
      rw [List.mem_singleton] at hlast
      obtain ⟨d, hd, rfl⟩ := List.mem_map.mp hp
      rw [← hlast] at hnil
      exact positionsOf_ne_nil (h.mem d hd) hnil
    · intro d hd
      rcases List.mem_append.mp hd with hold | hnew
      · exact List.mem_append_left _ (h.mem d hold)
      · exact List.mem_append_right _ hnew
    · intro d hd
      rcases List.mem_append.mp hd with hold | hnew
      · obtain ⟨e, he, hkey⟩ := h.exists_center d hold
        exact ⟨e, List.mem_append_left _ he, hkey⟩
      · rw [List.mem_singleton.mp hnew]
        exact ⟨c, List.mem_append_right _ List.mem_cons_self, rfl⟩
  · have hsome : groups.positions (key c) = some (positionsOf key cs (key c)) := by
      rw [h.positions, if_neg hnil]
    rw [hsome]
    constructor
    · exact hupdate
    · exact h.nodup
    · exact fun d hd => List.mem_append_left _ (h.mem d hd)
    · intro d hd
      rcases List.mem_append.mp hd with hold | hnew
      · exact h.exists_center d hold
      · rw [List.mem_singleton.mp hnew]
        obtain ⟨i, hi⟩ := List.exists_mem_of_ne_nil _ hnil
        obtain ⟨e, he, hkey⟩ := mem_positionsOf.mp hi
        rw [← hkey]
        exact h.exists_center e (List.mem_of_getElem? he)

theorem Groups.Holds.insertAll {key : γ → κ} {before cs : List γ} {groups : Groups γ κ}
    (h : groups.Holds key before) :
    (groups.insertAll key before.length cs).Holds key (before ++ cs) := by
  induction cs generalizing before groups with
  | nil => rwa [List.append_nil]
  | cons c cs ih =>
    have hrest := ih (h.insert c)
    rw [List.append_assoc, List.singleton_append, List.length_append, List.length_singleton]
      at hrest
    exact hrest

def groupAll (key : γ → κ) (cs : List γ) : Groups γ κ := ({} : Groups γ κ).insertAll key 0 cs

theorem groupAll_holds (key : γ → κ) (cs : List γ) : (groupAll key cs).Holds key cs :=
  (Groups.Holds.nil key).insertAll

section Holds

variable {key : γ → κ} {cs : List γ} {groups : Groups γ κ}

/-- A group has the positions of its items. -/
theorem Groups.Holds.eq_of_some (h : groups.Holds key cs) {p : κ} {is : List ℕ}
    (hp : groups.positions p = some is) : is = positionsOf key cs p := by
  rw [h.positions] at hp
  split_ifs at hp
  exact (Option.some.inj hp).symm

theorem Groups.Holds.positions_of_mem (h : groups.Holds key cs) {c : γ} (hc : c ∈ cs) :
    groups.positions (key c) = some (positionsOf key cs (key c)) := by
  rw [h.positions, if_neg (positionsOf_ne_nil hc)]

/-- The groups are those of the first items. -/
theorem Groups.Holds.isSome_iff (h : groups.Holds key cs) (p : κ) :
    (groups.positions p).isSome ↔ ∃ d ∈ groups.centers, key d = p := by
  constructor
  · intro hsome
    obtain ⟨is, his⟩ := Option.isSome_iff_exists.mp hsome
    have hne : positionsOf key cs p ≠ [] := by
      intro hnil
      rw [h.positions, if_pos hnil] at his
      cases his
    obtain ⟨i, hi⟩ := List.exists_mem_of_ne_nil _ hne
    obtain ⟨c, hc, rfl⟩ := mem_positionsOf.mp hi
    exact h.exists_center c (List.mem_of_getElem? hc)
  · intro hcenter
    obtain ⟨d, hd, rfl⟩ := hcenter
    rw [h.positions_of_mem (h.mem d hd)]
    rfl

end Holds

end Grouping

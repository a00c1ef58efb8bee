import V3C.PointSet.PCCPointSet3
import V3C.Store.Grouping

/-! The map of the points by their positions: it has each position once, in lexicographic order,
with the indices of its points. -/
namespace V3C
open SortedMap

/-- The lexicographic order of positions. -/
def PCCPoint3D.Before (P Q : PCCPoint3D) : Prop :=
  P.x < Q.x ∨ P.x = Q.x ∧ (P.y < Q.y ∨ P.y = Q.y ∧ P.z < Q.z)

namespace PositionMap

/-- The map, and the maps in it, are sorted. -/
structure Nested (map : PositionMap) : Prop where
  sorted : Sorted map
  sortedY : ∀ itX ∈ map, Sorted itX.2
  sortedZ : ∀ itX ∈ map, ∀ itY ∈ itX.2, Sorted itY.2

def find (map : PositionMap) (P : PCCPoint3D) : Option (List ℕ) :=
  (lookup P.x map).bind fun mapY => (lookup P.y mapY).bind (lookup P.z)

/-- The positions of a map with their indices, in the order of the map. -/
def entries (map : PositionMap) : List (PCCPoint3D × List ℕ) :=
  map.flatMap fun itX => itX.2.flatMap fun itY => itY.2.map fun itZ => (⟨itX.1, itY.1, itZ.1⟩, itZ.2)

theorem indexLists_eq (map : PositionMap) : map.indexLists = map.entries.map Prod.snd := by
  unfold indexLists entries
  simp only [List.map_flatMap, List.map_map]
  rfl

section Update

variable {κ α : Type} [LinearOrder κ] {k : κ} {f : Option α → α} {m : List (κ × α)}

/-- An entry of an updated map is the new one or an old one. -/
theorem eq_or_mem_of_mem_update (hsorted : Sorted m) {entry : κ × α}
    (h : entry ∈ update k f m) : entry.2 = f (lookup k m) ∨ entry ∈ m := by
  have hlookup := (mem_iff_lookup (sorted_update hsorted)).mp h
  rw [lookup_update hsorted] at hlookup
  split_ifs at hlookup with hk
  · exact .inl (Option.some.inj hlookup).symm
  · exact .inr (mem_of_lookup hlookup)

theorem lookup_getD (k' : κ) (m : Option (List (κ × α))) :
    lookup k' (m.getD []) = m.bind (lookup k') := by
  cases m <;> rfl

end Update

variable {map : PositionMap} {p : PCCPoint3D} {i : ℕ}

theorem Nested.sorted_getD (h : map.Nested) (x : ℤ) : Sorted ((lookup x map).getD []) := by
  cases hmap : lookup x map with
  | none => exact List.Pairwise.nil
  | some mapY => exact h.sortedY _ (mem_of_lookup hmap)

theorem Nested.sorted_getD_getD (h : map.Nested) (x y : ℤ) :
    Sorted ((lookup y ((lookup x map).getD [])).getD []) := by
  cases hmap : lookup x map with
  | none => exact List.Pairwise.nil
  | some mapY =>
    rw [Option.getD_some]
    cases hmapY : lookup y mapY with
    | none => exact List.Pairwise.nil
    | some mapZ => exact h.sortedZ _ (mem_of_lookup hmap) _ (mem_of_lookup hmapY)

theorem Nested.push (h : map.Nested) (p : PCCPoint3D) (i : ℕ) : (map.push p i).Nested where
  sorted := sorted_update h.sorted
  sortedY := by
    intro itX hitX
    rcases eq_or_mem_of_mem_update h.sorted hitX with hnew | hold
    · rw [hnew]
      exact sorted_update (h.sorted_getD p.x)
    · exact h.sortedY itX hold
  sortedZ := by
    intro itX hitX itY hitY
    rcases eq_or_mem_of_mem_update h.sorted hitX with hnew | hold
    · rw [hnew] at hitY
      rcases eq_or_mem_of_mem_update (h.sorted_getD p.x) hitY with hnewY | holdY
      · rw [hnewY]
        exact sorted_update (h.sorted_getD_getD p.x p.y)
      · cases hmap : lookup p.x map with
        | none =>
          rw [hmap] at holdY
          cases holdY
        | some mapY =>
          rw [hmap] at holdY
          exact h.sortedZ _ (mem_of_lookup hmap) itY holdY
    · exact h.sortedZ itX hold itY hitY

/-- An index is added at its position only. -/
theorem Nested.find_push (h : map.Nested) (P : PCCPoint3D) :
    (map.push p i).find P = if P = p then some ((map.find p).getD [] ++ [i]) else map.find P := by
  unfold find PositionMap.push
  rw [lookup_update h.sorted]
  by_cases hx : P.x = p.x
  · rw [if_pos hx, Option.bind_some, lookup_update (h.sorted_getD p.x)]
    by_cases hy : P.y = p.y
    · rw [if_pos hy, Option.bind_some, lookup_update (h.sorted_getD_getD p.x p.y)]
      simp only [lookup_getD]
      by_cases hz : P.z = p.z
      · have heq : P = p := by
          cases P
          cases p
          congr
        rw [if_pos hz, if_pos heq]
        cases lookup p.x map with
        | none => rfl
        | some mapY => rfl
      · have hne : P ≠ p := fun heq => hz (congrArg PCCPoint3D.z heq)
        rw [if_neg hz, if_neg hne, hx, hy]
        cases lookup p.x map with
        | none => rfl
        | some mapY => rfl
    · have hne : P ≠ p := fun heq => hy (congrArg PCCPoint3D.y heq)
      rw [if_neg hy, if_neg hne, lookup_getD, hx]
      cases lookup p.x map with
      | none => rfl
      | some mapY => rfl
  · have hne : P ≠ p := fun heq => hx (congrArg PCCPoint3D.x heq)
    rw [if_neg hx, if_neg hne]

theorem Nested.mem_entries (h : map.Nested) {P : PCCPoint3D} {list : List ℕ} :
    (P, list) ∈ map.entries ↔ map.find P = some list := by
  unfold entries find
  constructor
  · intro hmem
    obtain ⟨itX, hitX, hmem⟩ := List.mem_flatMap.mp hmem
    obtain ⟨itY, hitY, hmem⟩ := List.mem_flatMap.mp hmem
    obtain ⟨itZ, hitZ, heq⟩ := List.mem_map.mp hmem
    obtain ⟨rfl, rfl⟩ := Prod.mk.inj heq
    have hx := (mem_iff_lookup h.sorted).mp hitX
    have hy := (mem_iff_lookup (h.sortedY itX hitX)).mp hitY
    have hz := (mem_iff_lookup (h.sortedZ itX hitX itY hitY)).mp hitZ
    dsimp only
    rw [hx, Option.bind_some, hy, Option.bind_some, hz]
  · intro hfind
    obtain ⟨mapY, hx, hfind⟩ := Option.bind_eq_some_iff.mp hfind
    obtain ⟨mapZ, hy, hz⟩ := Option.bind_eq_some_iff.mp hfind
    exact List.mem_flatMap.mpr ⟨_, mem_of_lookup hx, List.mem_flatMap.mpr ⟨_, mem_of_lookup hy,
      List.mem_map.mpr ⟨_, mem_of_lookup hz, rfl⟩⟩⟩

/-- The positions are in lexicographic order. -/
theorem Nested.entries_pairwise (h : map.Nested) :
    map.entries.Pairwise fun entry entry' => entry.1.Before entry'.1 := by
  unfold entries
  rw [List.pairwise_flatMap]
  constructor
  · intro itX hitX
    rw [List.pairwise_flatMap]
    constructor
    · intro itY hitY
      rw [List.pairwise_map]
      apply (h.sortedZ itX hitX itY hitY).imp
      intro itZ itZ' hlt
      exact .inr ⟨rfl, .inr ⟨rfl, hlt⟩⟩
    · apply (h.sortedY itX hitX).imp
      intro itY itY' hlt entry hentry entry' hentry'
      obtain ⟨itZ, -, rfl⟩ := List.mem_map.mp hentry
      obtain ⟨itZ', -, rfl⟩ := List.mem_map.mp hentry'
      exact .inr ⟨rfl, .inl hlt⟩
  · apply h.sorted.imp
    intro itX itX' hlt entry hentry entry' hentry'
    obtain ⟨itY, -, hentry⟩ := List.mem_flatMap.mp hentry
    obtain ⟨itZ, -, rfl⟩ := List.mem_map.mp hentry
    obtain ⟨itY', -, hentry'⟩ := List.mem_flatMap.mp hentry'
    obtain ⟨itZ', -, rfl⟩ := List.mem_map.mp hentry'
    exact .inl hlt

end PositionMap

/-- The map has the positions of the points, each with the indices of its points. -/
theorem groupPositions_holds (positions : List PCCPoint3D) :
    (groupPositions positions).Nested ∧ ∀ P, (groupPositions positions).find P =
      if Grouping.positionsOf id positions P = [] then none
      else some (Grouping.positionsOf id positions P) := by
  induction positions using List.reverseRecOn with
  | nil =>
    refine ⟨⟨List.Pairwise.nil, ?_, ?_⟩, fun P => rfl⟩
    · exact fun itX hitX => absurd hitX List.not_mem_nil
    · exact fun itX hitX => absurd hitX List.not_mem_nil
  | append_singleton positions p ih =>
    obtain ⟨hnested, hfind⟩ := ih
    have hpush : groupPositions (positions ++ [p]) =
        (groupPositions positions).push p positions.length := by
      unfold groupPositions
      rw [List.zipIdx_append, List.foldl_append, Nat.zero_add]
      rfl
    rw [hpush]
    refine ⟨hnested.push p positions.length, ?_⟩
    intro P
    rw [hnested.find_push, Grouping.positionsOf_concat]
    by_cases hP : P = p
    · subst hP
      have hne : Grouping.positionsOf id positions P ++ [positions.length] ≠ [] := by simp
      rw [if_pos rfl, hfind, id_eq, if_pos rfl, if_neg hne]
      split_ifs with hnil
      · rw [hnil]
        rfl
      · rfl
    · rw [if_neg hP, hfind, id_eq, if_neg (Ne.symm hP), List.append_nil]

end V3C

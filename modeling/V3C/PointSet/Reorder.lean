import Mathlib.Data.List.GetD
import V3C.Codec.Traverse
import V3C.PointSet.PositionMap

/-! When the reordering keeps the points of a point set, and what the checksum depends on. -/
namespace V3C
open Grouping

/-- The indices of the positions of a list, in the order of the map. -/
abbrev indexLists (positions : List PCCPoint3D) : List (List ℕ) :=
  (groupPositions positions).indexLists

section Groups

variable {positions : List PCCPoint3D}

theorem mem_entries_iff {P : PCCPoint3D} {list : List ℕ} :
    (P, list) ∈ (groupPositions positions).entries ↔
      list = positionsOf id positions P ∧ list ≠ [] := by
  obtain ⟨hnested, hfind⟩ := groupPositions_holds positions
  rw [hnested.mem_entries, hfind]
  constructor
  · intro h
    split_ifs at h with hnil
    obtain rfl := Option.some.inj h
    exact ⟨rfl, hnil⟩
  · intro h
    obtain ⟨rfl, hne⟩ := h
    rw [if_neg hne]

theorem PCCPoint3D.Before.ne {P Q : PCCPoint3D} (h : P.Before Q) : P ≠ Q := by
  rintro rfl
  unfold PCCPoint3D.Before at h
  omega

theorem PCCPoint3D.Before.asymm {P Q : PCCPoint3D} (h : P.Before Q) : ¬Q.Before P := by
  unfold PCCPoint3D.Before at h ⊢
  omega

/-- The indices of the map are those of the points, each once. -/
theorem flatten_indexLists_perm (positions : List PCCPoint3D) :
    (indexLists positions).flatten.Perm (List.range positions.length) := by
  obtain ⟨hnested, -⟩ := groupPositions_holds positions
  unfold indexLists
  rw [PositionMap.indexLists_eq, List.perm_ext_iff_of_nodup _ List.nodup_range]
  · intro i
    rw [List.mem_flatten, List.mem_range]
    constructor
    · intro h
      obtain ⟨list, hlist, hi⟩ := h
      obtain ⟨entry, hentry, rfl⟩ := List.mem_map.mp hlist
      rw [(mem_entries_iff.mp hentry).1] at hi
      obtain ⟨P, hP, -⟩ := mem_positionsOf.mp hi
      exact (List.getElem?_eq_some_iff.mp hP).1
    · intro hi
      have hmem : i ∈ positionsOf id positions positions[i] :=
        mem_positionsOf.mpr ⟨positions[i], List.getElem?_eq_getElem hi, rfl⟩
      exact ⟨_, List.mem_map.mpr ⟨(positions[i], _),
        mem_entries_iff.mpr ⟨rfl, List.ne_nil_of_mem hmem⟩, rfl⟩, hmem⟩
  · rw [List.nodup_flatten]
    constructor
    · intro list hlist
      obtain ⟨entry, hentry, rfl⟩ := List.mem_map.mp hlist
      rw [(mem_entries_iff.mp hentry).1]
      exact nodup_positionsOf id positions entry.1
    · rw [List.pairwise_map]
      apply hnested.entries_pairwise.imp_of_mem
      intro entry entry' hentry hentry' hbefore i hi hi'
      rw [(mem_entries_iff.mp hentry).1] at hi
      rw [(mem_entries_iff.mp hentry').1] at hi'
      obtain ⟨P, hP, hkey⟩ := mem_positionsOf.mp hi
      obtain ⟨Q, hQ, hkey'⟩ := mem_positionsOf.mp hi'
      rw [hP] at hQ
      obtain rfl := Option.some.inj hQ
      exact hbefore.ne (hkey.symm.trans hkey')

end Groups

section SortColor

variable {points : PCCPointSet3} {list : List ℕ}

/-- The indices have colours. -/
def PCCPointSet3.Colored (points : PCCPointSet3) (list : List ℕ) : Prop :=
  ∀ i ∈ list, i < points.colors.length

theorem exists_colorLess (h : points.Colored list) {j indexMin : ℕ} (hj : j < list.length)
    (hmin : indexMin < list.length) : ∃ less, points.colorLess list j indexMin = some less := by
  have hfirst := h _ (List.getElem_mem hj)
  have hsecond := h _ (List.getElem_mem hmin)
  unfold PCCPointSet3.colorLess
  rw [List.getElem?_eq_getElem hj, List.getElem?_eq_getElem hmin, Option.bind_eq_bind,
    Option.bind_some, Option.bind_eq_bind, Option.bind_some, List.getElem?_eq_getElem hfirst,
    List.getElem?_eq_getElem hsecond]
  exact ⟨_, rfl⟩

/-- The index of the least colour is one of the list. -/
theorem exists_indexMin (h : points.Colored list) {i : ℕ} (hi : i < list.length) :
    ∃ indexMin, (List.range' (i + 1) (list.length - (i + 1))).foldlM (fun indexMin j => do
      let less ← points.colorLess list j indexMin
      some (if less then j else indexMin)) i = some indexMin ∧ indexMin < list.length := by
  apply Codec.exists_foldlM (P := fun _ (indexMin : ℕ) => indexMin < list.length)
  · intro visited j indexMin hstart hmin
    have hmem := hstart.subset (List.mem_append_right visited List.mem_cons_self)
    have hj := (List.mem_range'_1.mp hmem).2
    obtain ⟨less, hless⟩ := exists_colorLess h (by omega : j < list.length) hmin
    refine ⟨if less then j else indexMin, ?_, ?_⟩
    · rw [hless]
      rfl
    · split_ifs
      · omega
      · exact hmin
  · exact hi

/-- The sort gives the indices in another order. -/
theorem exists_sortColor (h : points.Colored list) :
    ∃ sorted, points.sortColor list = some sorted ∧ sorted.Perm list := by
  unfold PCCPointSet3.sortColor
  apply Codec.exists_foldlM (P := fun _ (sorted : List ℕ) => sorted.Perm list)
  · intro visited i sorted hstart hperm
    have hlength := hperm.length_eq
    have hi := List.mem_range.mp
      (hstart.subset (List.mem_append_right visited List.mem_cons_self))
    have hcolored : points.Colored sorted := fun i hi => h i (hperm.mem_iff.mp hi)
    obtain ⟨indexMin, hrun, hmin⟩ := exists_indexMin hcolored (by omega : i < sorted.length)
    rw [hrun, Option.bind_eq_bind, Option.bind_some]
    split_ifs with hne
    · unfold PCCPointSet3.swapEntries
      rw [List.getElem?_eq_getElem (by omega : i < sorted.length),
        List.getElem?_eq_getElem hmin]
      exact ⟨_, rfl, (List.set_set_perm (by omega) hmin).trans hperm⟩
    · exact ⟨sorted, rfl, hperm⟩
  · exact List.Perm.refl list

theorem exists_sortEqual (h : points.Colored list) :
    ∃ sorted, points.sortEqual list = some sorted ∧ sorted.Perm list := by
  unfold PCCPointSet3.sortEqual
  split_ifs
  · exact exists_sortColor h
  · exact ⟨list, rfl, List.Perm.refl list⟩

end SortColor

namespace PCCPointSet3

/-- The cloud after points with colours were added to an empty one. -/
def ofColored (withReflectances : Bool) (items : List (PCCPoint3D × PCCColor3B)) : PCCPointSet3 where
  positions := items.map Prod.fst
  colors := items.map Prod.snd
  reflectances := if withReflectances then List.replicate items.length 0 else []
  normals := []
  withNormals := false
  withColors := !items.isEmpty
  withReflectances := withReflectances

/-- The cloud after points without colours were added to an empty one. -/
def ofPlain (withReflectances : Bool) (positions : List PCCPoint3D) : PCCPointSet3 where
  positions := positions
  colors := []
  reflectances := if withReflectances then List.replicate positions.length 0 else []
  normals := []
  withNormals := false
  withColors := false
  withReflectances := withReflectances

theorem resizeTo_succ {α : Type} [Inhabited α] (xs : List α) :
    resizeTo xs (xs.length + 1) = xs ++ [default] := by
  unfold resizeTo
  rw [List.take_of_length_le (Nat.le_succ _), Nat.add_sub_cancel_left]
  rfl

theorem resizeTo_self {α : Type} [Inhabited α] (xs : List α) :
    resizeTo xs xs.length = xs := by
  unfold resizeTo
  rw [List.take_length, Nat.sub_self, List.replicate_zero, List.append_nil]

/-- The last entry of a list is set. -/
theorem set_resizeTo {α : Type} [Inhabited α] (xs : List α) (a : α) :
    (resizeTo xs (xs.length + 1)).set xs.length a = xs ++ [a] := by
  rw [resizeTo_succ, List.set_append_right _ _ (le_refl _), Nat.sub_self]
  rfl

theorem newPointcloud_eq (points : PCCPointSet3) :
    points.newPointcloud = ofPlain points.withReflectances [] ∧
      points.newPointcloud = ofColored points.withReflectances [] := by
  unfold newPointcloud
  cases points.withReflectances with
  | false => exact ⟨rfl, rfl⟩
  | true => exact ⟨rfl, rfl⟩

theorem resizeTo_replicate (n : ℕ) :
    resizeTo (List.replicate n (0 : UInt16)) (n + 1) = List.replicate (n + 1) 0 := by
  have hresize := resizeTo_succ (List.replicate n (0 : UInt16))
  rw [List.length_replicate] at hresize
  rw [hresize, List.replicate_succ']
  rfl

theorem ofColored_addPointColor (withReflectances : Bool) (items : List (PCCPoint3D × PCCColor3B))
    (P : PCCPoint3D) (color : PCCColor3B) :
    (ofColored withReflectances items).addPointColor P color =
      ofColored withReflectances (items ++ [(P, color)]) := by
  have hpositions := set_resizeTo (items.map Prod.fst) P
  have hcolors := set_resizeTo (items.map Prod.snd) color
  have htwice : resizeTo (resizeTo (items.map Prod.snd) (items.length + 1)) (items.length + 1) =
      resizeTo (items.map Prod.snd) (items.length + 1) := by
    have hlength : (resizeTo (items.map Prod.snd) (items.length + 1)).length =
        items.length + 1 := by
      have hsucc := resizeTo_succ (items.map Prod.snd)
      rw [List.length_map] at hsucc
      rw [hsucc, List.length_append, List.length_map, List.length_singleton]
    have hsame := resizeTo_self (resizeTo (items.map Prod.snd) (items.length + 1))
    rw [hlength] at hsame
    exact hsame
  rw [List.length_map] at hpositions hcolors
  have hempty : (items ++ [(P, color)]).isEmpty = false := by
    cases items <;> rfl
  unfold addPointColor resize ofColored
  simp only [List.length_map, List.map_append, List.length_append, hempty, if_true,
    Bool.false_eq_true, if_false, htwice, hpositions, hcolors]
  cases withReflectances with
  | false => rfl
  | true =>
    simp only [if_true, resizeTo_replicate]
    rfl

theorem ofPlain_addPoint (withReflectances : Bool) (positions : List PCCPoint3D) (P : PCCPoint3D) :
    (ofPlain withReflectances positions).addPoint P =
      ofPlain withReflectances (positions ++ [P]) := by
  have hpositions := set_resizeTo positions P
  unfold addPoint resize ofPlain
  simp only [hpositions, List.length_append]
  cases withReflectances with
  | false => rfl
  | true =>
    simp only [if_true, resizeTo_replicate]
    rfl

/-- A point set whose attributes are complete, without normals. -/
structure Complete (points : PCCPointSet3) : Prop where
  colors : points.colors.length = if points.withColors then points.positions.length else 0
  reflectances : points.reflectances.length =
    if points.withReflectances then points.positions.length else 0
  normals : points.normals = []
  withNormals : points.withNormals = false

/-- The position of a point, and its colour. -/
def entryAt (points : PCCPointSet3) (i : ℕ) : PCCPoint3D × PCCColor3B :=
  (points.positions.getD i default, points.colors.getD i default)

variable {points : PCCPointSet3}

theorem foldlM_addPointColor {wr : Bool} {list : List ℕ}
    (hpositions : ∀ i ∈ list, i < points.positions.length) (hcolors : points.Colored list)
    (items : List (PCCPoint3D × PCCColor3B)) :
    list.foldlM (fun newPointcloud index => do
      let position ← points.positions[index]?
      let color ← points.colors[index]?
      some (newPointcloud.addPointColor position color)) (ofColored wr items) =
      some (ofColored wr (items ++ list.map points.entryAt)) := by
  induction list generalizing items with
  | nil => rw [List.map_nil, List.append_nil, List.foldlM_nil]; rfl
  | cons i list ih =>
    have hi := hpositions i List.mem_cons_self
    have hic := hcolors i List.mem_cons_self
    have hat : points.entryAt i = (points.positions[i], points.colors[i]) := by
      unfold entryAt
      rw [List.getD_eq_getElem _ _ hi, List.getD_eq_getElem _ _ hic]
    rw [List.foldlM_cons, List.getElem?_eq_getElem hi, List.getElem?_eq_getElem hic]
    show (list.foldlM _ ((ofColored wr items).addPointColor points.positions[i] points.colors[i])) = _
    rw [ofColored_addPointColor, ih (fun j hj => hpositions j (List.mem_cons_of_mem _ hj))
      (fun j hj => hcolors j (List.mem_cons_of_mem _ hj)), List.map_cons, hat, List.append_assoc]
    rfl

theorem addPlain_eq {wr : Bool} {list : List ℕ}
    (hpositions : ∀ i ∈ list, i < points.positions.length) (added : List PCCPoint3D) :
    points.addPlain (ofPlain wr added) list =
      some (ofPlain wr (added ++ list.map fun i => (points.entryAt i).1)) := by
  unfold addPlain
  induction list generalizing added with
  | nil => rw [List.map_nil, List.append_nil, List.foldlM_nil]; rfl
  | cons i list ih =>
    have hi := hpositions i List.mem_cons_self
    have hat : (points.entryAt i).1 = points.positions[i] := by
      unfold entryAt
      rw [List.getD_eq_getElem _ _ hi]
    rw [List.foldlM_cons, List.getElem?_eq_getElem hi]
    show (list.foldlM _ ((ofPlain wr added).addPoint points.positions[i])) = _
    rw [ofPlain_addPoint, ih (fun j hj => hpositions j (List.mem_cons_of_mem _ hj)), List.map_cons,
      hat, List.append_assoc]
    rfl

/-- The loop over the positions without colours. -/
theorem foldlM_addPlain {wr : Bool} {lists : List (List ℕ)}
    (hpositions : ∀ list ∈ lists, ∀ i ∈ list, i < points.positions.length)
    (added : List PCCPoint3D) :
    lists.foldlM points.addPlain (ofPlain wr added) =
      some (ofPlain wr (added ++ lists.flatten.map fun i => (points.entryAt i).1)) := by
  induction lists generalizing added with
  | nil => rw [List.flatten_nil, List.map_nil, List.append_nil, List.foldlM_nil]; rfl
  | cons list lists ih =>
    rw [List.foldlM_cons, addPlain_eq (hpositions list List.mem_cons_self), Option.bind_eq_bind,
      Option.bind_some, ih fun list hlist => hpositions list (List.mem_cons_of_mem _ hlist),
      List.flatten_cons, List.map_append, List.append_assoc]

/-- The loop over the positions adds all points with their colours. -/
theorem exists_foldlM_addColored {wr : Bool} {lists : List (List ℕ)}
    (hpositions : ∀ list ∈ lists, ∀ i ∈ list, i < points.positions.length)
    (hcolors : ∀ list ∈ lists, points.Colored list) (items : List (PCCPoint3D × PCCColor3B)) :
    ∃ order : List ℕ, lists.foldlM (points.addColored false) (ofColored wr items) =
      some (ofColored wr (items ++ order.map points.entryAt)) ∧ order.Perm lists.flatten := by
  induction lists generalizing items with
  | nil =>
    refine ⟨[], ?_, List.Perm.refl _⟩
    rw [List.map_nil, List.append_nil, List.foldlM_nil]
    rfl
  | cons list lists ih =>
    have hcolored := hcolors list List.mem_cons_self
    obtain ⟨sorted, hsorted, hperm⟩ := exists_sortEqual hcolored
    obtain ⟨order, hrun, horder⟩ := ih
      (fun list hlist => hpositions list (List.mem_cons_of_mem _ hlist))
      (fun list hlist => hcolors list (List.mem_cons_of_mem _ hlist))
      (items ++ sorted.map points.entryAt)
    have hstep : points.addColored false (ofColored wr items) list =
        some (ofColored wr (items ++ sorted.map points.entryAt)) := by
      unfold addColored
      rw [hsorted, Option.bind_eq_bind, Option.bind_some]
      exact foldlM_addPointColor
        (fun i hi => hpositions list List.mem_cons_self i (hperm.mem_iff.mp hi))
        (fun i hi => hcolored i (hperm.mem_iff.mp hi)) items
    refine ⟨sorted ++ order, ?_, ?_⟩
    · rw [List.foldlM_cons, hstep, Option.bind_eq_bind, Option.bind_some, hrun, List.map_append,
        List.append_assoc]
    · rw [List.flatten_cons]
      exact hperm.append horder

/-- The mean colour does not depend on the order of the points. -/
theorem averageColor_perm {colors colors' : List PCCColor3B} (h : colors.Perm colors') :
    averageColor colors = averageColor colors' := by
  unfold averageColor
  rw [(h.map _).sum_eq, (h.map _).sum_eq, (h.map _).sum_eq, h.length_eq]

/-- The loop over the positions adds one point for each of them, with the mean colour. -/
theorem foldlM_addColored_drop {wr : Bool} {entries : List (PCCPoint3D × List ℕ)}
    (hentries : ∀ entry ∈ entries, entry.2 ≠ [] ∧ points.Colored entry.2 ∧
      ∀ i ∈ entry.2, points.positions[i]? = some entry.1)
    (items : List (PCCPoint3D × PCCColor3B)) :
    (entries.map Prod.snd).foldlM (points.addColored true) (ofColored wr items) =
      some (ofColored wr (items ++ entries.map fun entry =>
        (entry.1, averageColor (entry.2.map fun i => (points.entryAt i).2)))) := by
  induction entries generalizing items with
  | nil => rw [List.map_nil, List.map_nil, List.append_nil, List.foldlM_nil]; rfl
  | cons entry entries ih =>
    obtain ⟨hne, hcolored, hposition⟩ := hentries entry List.mem_cons_self
    obtain ⟨sorted, hsorted, hperm⟩ := exists_sortEqual hcolored
    have hcolors : sorted.mapM (fun index => points.colors[index]?) =
        some (sorted.map fun i => (points.entryAt i).2) := by
      apply Codec.mapM_eq_some_map
      intro i hi
      have hlt := hcolored i (hperm.mem_iff.mp hi)
      unfold entryAt
      rw [List.getElem?_eq_getElem hlt, List.getD_eq_getElem _ _ hlt]
    obtain ⟨first, rest, rfl⟩ : ∃ first rest, sorted = first :: rest := by
      cases sorted with
      | nil => exact absurd hperm.symm.eq_nil hne
      | cons first rest => exact ⟨first, rest, rfl⟩
    have hfirst := hposition first (hperm.mem_iff.mp List.mem_cons_self)
    have hstep : points.addColored true (ofColored wr items) entry.2 =
        some (ofColored wr (items ++
          [(entry.1, averageColor (entry.2.map fun i => (points.entryAt i).2))])) := by
      unfold addColored
      rw [hsorted, Option.bind_eq_bind, Option.bind_some, if_pos rfl, hcolors, Option.bind_eq_bind,
        Option.bind_some, List.getElem?_cons_zero, Option.bind_eq_bind, Option.bind_some, hfirst,
        Option.bind_eq_bind, Option.bind_some, ofColored_addPointColor,
        averageColor_perm (hperm.map _)]
    rw [List.map_cons, List.foldlM_cons, hstep, Option.bind_eq_bind, Option.bind_some,
      ih fun entry hentry => hentries entry (List.mem_cons_of_mem _ hentry), List.map_cons,
      List.append_assoc]
    rfl

end PCCPointSet3

end V3C

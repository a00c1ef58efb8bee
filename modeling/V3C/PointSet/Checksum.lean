import Mathlib.Algebra.Order.BigOperators.Group.List
import V3C.PointSet.Reorder

/-! The points of a set after the reordering, and the bytes that the checksum is computed of. -/
namespace V3C
open Grouping

/-- The positions of a list, each once, in the order of the map. -/
def keys (positions : List PCCPoint3D) : List PCCPoint3D :=
  (groupPositions positions).entries.map Prod.fst

section Keys

variable {positions positions' : List PCCPoint3D}

theorem entries_eq (positions : List PCCPoint3D) :
    (groupPositions positions).entries =
      (keys positions).map fun P => (P, positionsOf id positions P) := by
  unfold keys
  rw [List.map_map]
  have hentry : ∀ entry ∈ (groupPositions positions).entries,
      ((fun P => (P, positionsOf id positions P)) ∘ Prod.fst) entry = entry := by
    intro entry hentry
    have hlist := (mem_entries_iff.mp hentry).1
    exact Prod.ext rfl hlist.symm
  rw [List.map_congr_left hentry]
  exact (List.map_id' _).symm

theorem mem_keys {P : PCCPoint3D} : P ∈ keys positions ↔ P ∈ positions := by
  unfold keys
  rw [List.mem_map]
  constructor
  · intro h
    obtain ⟨entry, hentry, rfl⟩ := h
    obtain ⟨hlist, hne⟩ := mem_entries_iff.mp hentry
    obtain ⟨i, hi⟩ := List.exists_mem_of_ne_nil _ hne
    rw [hlist] at hi
    obtain ⟨Q, hQ, hkey⟩ := mem_positionsOf.mp hi
    rw [← hkey]
    exact List.mem_of_getElem? hQ
  · intro h
    have hne : positionsOf id positions P ≠ [] := positionsOf_ne_nil h
    exact ⟨(P, _), mem_entries_iff.mpr ⟨rfl, hne⟩, rfl⟩

theorem keys_pairwise (positions : List PCCPoint3D) :
    (keys positions).Pairwise PCCPoint3D.Before := by
  unfold keys
  rw [List.pairwise_map]
  exact (groupPositions_holds positions).1.entries_pairwise

/-- The positions in order do not depend on the order of the points. -/
theorem keys_eq_of_perm (h : positions.Perm positions') : keys positions = keys positions' := by
  have hperm : (keys positions).Perm (keys positions') := by
    rw [List.perm_ext_iff_of_nodup ((keys_pairwise positions).imp PCCPoint3D.Before.ne)
      ((keys_pairwise positions').imp PCCPoint3D.Before.ne)]
    intro P
    rw [mem_keys, mem_keys, h.mem_iff]
  apply List.Perm.eq_of_pairwise _ (keys_pairwise positions) (keys_pairwise positions') hperm
  intro P Q _ _ hPQ hQP
  exact absurd hQP hPQ.asymm

end Keys

/-- A colour that is the mean of colours, rounded down. -/
structure MeanColor (colors : List PCCColor3B) (color : PCCColor3B) : Prop where
  r : color.r.toNat = (colors.map fun color => color.r.toNat).sum / colors.length
  g : color.g.toNat = (colors.map fun color => color.g.toNat).sum / colors.length
  b : color.b.toNat = (colors.map fun color => color.b.toNat).sum / colors.length

theorem toNat_mean (colors : List PCCColor3B) (channel : PCCColor3B → UInt8) :
    (UInt8.ofNat ((colors.map fun color => (channel color).toNat).sum / colors.length)).toNat =
      (colors.map fun color => (channel color).toNat).sum / colors.length := by
  have hsum : (colors.map fun color => (channel color).toNat).sum ≤
      (colors.map fun color => (channel color).toNat).length • 255 := by
    apply List.sum_le_card_nsmul
    intro x hx
    obtain ⟨color, -, rfl⟩ := List.mem_map.mp hx
    exact Nat.le_of_lt_succ (channel color).toNat_lt
  rw [List.length_map, nsmul_eq_mul, Nat.cast_id] at hsum
  have hmean : (colors.map fun color => (channel color).toNat).sum / colors.length ≤ 255 :=
    Nat.div_le_of_le_mul hsum
  rw [UInt8.toNat_ofNat']
  exact Nat.mod_eq_of_lt (by omega)

theorem meanColor_averageColor (colors : List PCCColor3B) :
    MeanColor colors (averageColor colors) where
  r := toNat_mean colors PCCColor3B.r
  g := toNat_mean colors PCCColor3B.g
  b := toNat_mean colors PCCColor3B.b

namespace PCCPointSet3

variable {points points' : PCCPointSet3}

/-- A point with its attributes. -/
def record (points : PCCPointSet3) (i : ℕ) : PCCPoint3D × Option PCCColor3B × Option UInt16 :=
  (points.positions.getD i default, points.colors[i]?, points.reflectances[i]?)

def records (points : PCCPointSet3) : List (PCCPoint3D × Option PCCColor3B × Option UInt16) :=
  (List.range points.positions.length).map points.record

/-- The colours of the points at a position. -/
def colorsAt (points : PCCPointSet3) (P : PCCPoint3D) : List PCCColor3B :=
  (points.records.filter fun record => record.1 = P).filterMap fun record => record.2.1

/-- The reordering gives the points in another order, with their attributes. -/
def KeepsPoints (points : PCCPointSet3) : Prop :=
  ∃ new : PCCPointSet3, points.reorder = some new ∧ new.records.Perm points.records

/-- The reordering that drops duplicates gives each position once, in lexicographic order, with the
mean colour of its points. -/
def DropsDuplicates (points : PCCPointSet3) : Prop :=
  ∃ new : PCCPointSet3, points.reorderInto points.newPointcloud true = some new ∧
    new.positions.Pairwise PCCPoint3D.Before ∧
    (∀ P, P ∈ new.positions ↔ P ∈ points.positions) ∧
    (points.withColors → new.colors.length = new.positions.length ∧
      ∀ (i : ℕ) (P : PCCPoint3D), new.positions[i]? = some P →
        ∃ color, new.colors[i]? = some color ∧ MeanColor (points.colorsAt P) color)

/-- The points of another order have the same bytes. -/
def ChecksumOfPoints (points : PCCPointSet3) : Prop :=
  ∀ points' : PCCPointSet3, points'.Complete → points'.withColors = points.withColors →
    points'.withReflectances = points.withReflectances → points'.records.Perm points.records →
    ∃ bytes, points.checksumBytes true = some bytes ∧ points'.checksumBytes true = some bytes

/-- What the reordering of a point set has to do. -/
structure Reorders (points : PCCPointSet3) : Prop where
  keepsPoints : points.KeepsPoints
  dropsDuplicates : points.DropsDuplicates
  checksum : points.ChecksumOfPoints

/-! ### The three runs -/

theorem map_record_fst (points : PCCPointSet3) : points.records.map Prod.fst = points.positions := by
  unfold records
  rw [List.map_map]
  apply List.ext_getElem
  · rw [List.length_map, List.length_range]
  · intro i hi hi'
    rw [List.getElem_map, List.getElem_range]
    exact List.getD_eq_getElem _ _ hi'

theorem Complete.length_colors (h : points.Complete) (hcolors : points.withColors = true) :
    points.colors.length = points.positions.length := by
  rw [h.colors, if_pos hcolors]

theorem Complete.colors_eq_nil (h : points.Complete) (hcolors : points.withColors = false) :
    points.colors = [] := by
  have hlength := h.colors
  rw [hcolors] at hlength
  exact List.eq_nil_of_length_eq_zero hlength

theorem forall_lt_of_mem_indexLists {list : List ℕ}
    (hlist : list ∈ indexLists points.positions) {i : ℕ} (hi : i ∈ list) :
    i < points.positions.length := by
  have hmem := (flatten_indexLists_perm points.positions).mem_iff.mp
    (List.mem_flatten.mpr ⟨list, hlist, hi⟩)
  exact List.mem_range.mp hmem

/-- The colours at the indices of a position. -/
theorem map_entryAt_positionsOf (hlength : points.colors.length = points.positions.length)
    (P : PCCPoint3D) :
    (positionsOf id points.positions P).map (fun i => (points.entryAt i).2) =
      points.colorsAt P := by
  unfold colorsAt records positionsOf
  rw [List.filter_map, List.filterMap_map]
  have hfilter : (List.range points.positions.length).filter
      (fun i => (points.positions[i]?).map id = some P) =
      (List.range points.positions.length).filter
        ((fun record => decide (record.1 = P)) ∘ points.record) := by
    apply List.filter_congr
    intro i hi
    have hlt := List.mem_range.mp hi
    have hposition : (points.record i).1 = points.positions[i] :=
      List.getD_eq_getElem _ _ hlt
    have hiff : (points.positions[i]?).map id = some P ↔ (points.record i).1 = P := by
      rw [hposition, List.getElem?_eq_getElem hlt, Option.map_some, id_eq, Option.some_inj]
    exact decide_eq_decide.mpr hiff
  rw [hfilter, ← List.filterMap_eq_map]
  apply List.filterMap_congr
  intro i hi
  have hlt := List.mem_range.mp (List.mem_of_mem_filter hi)
  rw [← hlength] at hlt
  show some (points.colors.getD i default) = points.colors[i]?
  rw [List.getD_eq_getElem _ _ hlt, List.getElem?_eq_getElem hlt]

/-- The run that drops duplicates, on points with colours. -/
theorem reorderInto_true_of_colors (h : points.Complete) (hcolors : points.withColors = true) :
    points.reorderInto points.newPointcloud true =
      some (ofColored points.withReflectances ((keys points.positions).map fun P =>
        (P, averageColor (points.colorsAt P)))) := by
  have hlength := h.length_colors hcolors
  have hentries : ∀ entry ∈ (groupPositions points.positions).entries,
      entry.2 ≠ [] ∧ points.Colored entry.2 ∧
        ∀ i ∈ entry.2, points.positions[i]? = some entry.1 := by
    intro entry hentry
    obtain ⟨hlist, hne⟩ := mem_entries_iff.mp hentry
    have hposition : ∀ i ∈ entry.2, points.positions[i]? = some entry.1 := by
      intro i hi
      rw [hlist] at hi
      obtain ⟨P, hP, hkey⟩ := mem_positionsOf.mp hi
      rw [hP, ← hkey]
      rfl
    refine ⟨hne, ?_, hposition⟩
    intro i hi
    rw [hlength]
    exact (List.getElem?_eq_some_iff.mp (hposition i hi)).1
  unfold reorderInto
  dsimp only
  rw [if_pos hcolors, (newPointcloud_eq points).2, PositionMap.indexLists_eq,
    foldlM_addColored_drop hentries, entries_eq, List.map_map, List.nil_append]
  congr 2
  apply List.map_congr_left
  intro P _
  show (P, averageColor _) = _
  rw [map_entryAt_positionsOf hlength]

theorem flatMap_replicate (points : PCCPointSet3) :
    (indexLists points.positions).flatten.map (fun i => (points.entryAt i).1) =
      (keys points.positions).flatMap fun P =>
        List.replicate (points.positions.countP fun Q => Q = P) P := by
  unfold indexLists
  rw [PositionMap.indexLists_eq, entries_eq, List.map_map, List.map_flatten, List.map_map,
    List.flatMap_def]
  congr 1
  apply List.map_congr_left
  intro P _
  show (positionsOf id points.positions P).map _ = _
  have hlength := length_positionsOf id points.positions P
  simp only [id_eq] at hlength
  rw [← hlength, ← List.map_const']
  apply List.map_congr_left
  intro i hi
  obtain ⟨Q, hQ, rfl⟩ := mem_positionsOf.mp hi
  show points.positions.getD i default = Q
  rw [List.getD_eq_getElem?_getD, hQ, Option.getD_some]

/-- Without colours the run does not drop duplicates. -/
theorem reorderInto_of_not_colors (hcolors : points.withColors = false) (dropDuplicates : Bool) :
    points.reorderInto points.newPointcloud dropDuplicates =
      some (ofPlain points.withReflectances ((keys points.positions).flatMap fun P =>
        List.replicate (points.positions.countP fun Q => Q = P) P)) := by
  have hpositions : ∀ list ∈ indexLists points.positions, ∀ i ∈ list,
      i < points.positions.length := fun list hlist i hi => forall_lt_of_mem_indexLists hlist hi
  unfold reorderInto
  dsimp only
  rw [if_neg (by rw [hcolors]; exact Bool.false_ne_true), (newPointcloud_eq points).1,
    foldlM_addPlain hpositions, List.nil_append]
  congr 2
  exact flatMap_replicate points

/-- The run that keeps duplicates, on points with colours. -/
theorem exists_reorderInto_false (h : points.Complete) (hcolors : points.withColors = true) :
    ∃ order : List ℕ, points.reorderInto points.newPointcloud false =
      some (ofColored points.withReflectances (order.map points.entryAt)) ∧
      order.Perm (List.range points.positions.length) := by
  have hpositions : ∀ list ∈ indexLists points.positions, ∀ i ∈ list,
      i < points.positions.length := fun list hlist i hi => forall_lt_of_mem_indexLists hlist hi
  have hcolored : ∀ list ∈ indexLists points.positions, points.Colored list := by
    intro list hlist i hi
    rw [h.length_colors hcolors]
    exact hpositions list hlist i hi
  obtain ⟨order, hrun, hperm⟩ :=
    @exists_foldlM_addColored points points.withReflectances _ hpositions hcolored []
  refine ⟨order, ?_, hperm.trans (flatten_indexLists_perm points.positions)⟩
  unfold reorderInto
  dsimp only
  rw [if_pos hcolors, (newPointcloud_eq points).2]
  exact hrun

/-- A point without its reflectance. -/
def recordNoReflectance (points : PCCPointSet3) (i : ℕ) :
    PCCPoint3D × Option PCCColor3B × Option UInt16 :=
  (points.positions.getD i default, points.colors[i]?,
    if points.withReflectances then some 0 else none)

theorem getElem?_ite_replicate (withReflectances : Bool) {n i : ℕ} (hi : i < n) :
    (if withReflectances then List.replicate n (0 : UInt16) else [])[i]? =
      if withReflectances then some 0 else none := by
  cases withReflectances with
  | false => rfl
  | true => exact List.getElem?_replicate_of_lt hi

theorem records_swap_ofColored (wr : Bool) (items : List (PCCPoint3D × PCCColor3B)) :
    (points.swap (ofColored wr items)).records =
      items.map fun item => (item.1, some item.2, if wr then some 0 else none) := by
  unfold records
  apply List.ext_getElem
  · simp only [swap, ofColored, List.length_map, List.length_range]
  · intro i hi hi'
    rw [List.length_map] at hi'
    have hpositions : i < (items.map Prod.fst).length := by rwa [List.length_map]
    have hcolors : i < (items.map Prod.snd).length := by rwa [List.length_map]
    rw [List.getElem_map, List.getElem_map, List.getElem_range]
    simp only [record, swap, ofColored]
    rw [List.getD_eq_getElem _ _ hpositions, List.getElem?_eq_getElem hcolors,
      List.getElem_map, List.getElem_map, getElem?_ite_replicate wr hi']

theorem records_swap_ofPlain (wr : Bool) (positions : List PCCPoint3D) :
    (points.swap (ofPlain wr positions)).records =
      positions.map fun P => (P, none, if wr then some 0 else none) := by
  unfold records
  apply List.ext_getElem
  · simp only [swap, ofPlain, List.length_map, List.length_range]
  · intro i hi hi'
    rw [List.length_map] at hi'
    rw [List.getElem_map, List.getElem_map, List.getElem_range]
    simp only [record, swap, ofPlain]
    rw [List.getD_eq_getElem _ _ hi', getElem?_ite_replicate wr hi', List.getElem?_nil]

/-- The reordering gives all points, with their colours and without their reflectances. -/
theorem exists_reorder (h : points.Complete) :
    ∃ (new : PCCPointSet3) (order : List ℕ), points.reorder = some new ∧
      order.Perm (List.range points.positions.length) ∧
      new.records = order.map points.recordNoReflectance := by
  unfold reorder
  cases hcolors : points.withColors with
  | true =>
    obtain ⟨order, hrun, hperm⟩ := exists_reorderInto_false h hcolors
    refine ⟨_, order, by rw [hrun, Option.map_some], hperm, ?_⟩
    rw [records_swap_ofColored, List.map_map]
    apply List.map_congr_left
    intro i hi
    have hlt := List.mem_range.mp (hperm.mem_iff.mp hi)
    rw [← h.length_colors hcolors] at hlt
    show (points.positions.getD i default, some (points.colors.getD i default), _) = _
    rw [List.getD_eq_getElem points.colors _ hlt, ← List.getElem?_eq_getElem hlt]
    rfl
  | false =>
    refine ⟨_, (indexLists points.positions).flatten, by
      rw [reorderInto_of_not_colors hcolors, Option.map_some],
      flatten_indexLists_perm points.positions, ?_⟩
    rw [records_swap_ofPlain, ← flatMap_replicate, List.map_map]
    apply List.map_congr_left
    intro i _
    show (points.positions.getD i default, none, _) =
      (points.positions.getD i default, points.colors[i]?, _)
    rw [h.colors_eq_nil hcolors, List.getElem?_nil]

/-- The points are kept when there is no reflectance to lose. -/
theorem keepsPoints_iff (h : points.Complete) :
    points.KeepsPoints ↔ ∀ reflectance ∈ points.reflectances, reflectance = 0 := by
  obtain ⟨new, order, hrun, horder, hrecords⟩ := exists_reorder h
  have hlength := h.reflectances
  constructor
  · intro hkeeps reflectance hreflectance
    obtain ⟨new', hrun', hperm⟩ := hkeeps
    obtain rfl := Option.some.inj (hrun.symm.trans hrun')
    obtain ⟨i, hi, hget⟩ := List.mem_iff_getElem.mp hreflectance
    have hposition : i < points.positions.length := by
      split_ifs at hlength <;> omega
    have hmem : points.record i ∈ points.records :=
      List.mem_map_of_mem (List.mem_range.mpr hposition)
    rw [← hperm.mem_iff, hrecords] at hmem
    obtain ⟨j, -, hj⟩ := List.mem_map.mp hmem
    have hvalue : (if points.withReflectances then some (0 : UInt16) else none) =
        points.reflectances[i]? := congrArg (fun record => record.2.2) hj
    rw [List.getElem?_eq_getElem hi, hget] at hvalue
    split_ifs at hvalue
    exact (Option.some.inj hvalue).symm
  · intro hzero
    refine ⟨new, hrun, ?_⟩
    rw [hrecords]
    apply (horder.map _).trans
    apply List.Perm.of_eq
    apply List.map_congr_left
    intro i hi
    have hlt := List.mem_range.mp hi
    have hvalue : (if points.withReflectances then some (0 : UInt16) else none) =
        points.reflectances[i]? := by
      split_ifs at hlength ⊢ with hwith
      · have hi' : i < points.reflectances.length := by rwa [hlength]
        rw [List.getElem?_eq_getElem hi', hzero _ (List.getElem_mem hi')]
      · rw [List.eq_nil_of_length_eq_zero hlength, List.getElem?_nil]
    show (_, _, _) = (_, _, _)
    rw [hvalue]

theorem nodup_of_flatMap_replicate (h : points.positions.Nodup) :
    ((keys points.positions).flatMap fun P =>
      List.replicate (points.positions.countP fun Q => Q = P) P) = keys points.positions := by
  have hone : ∀ P ∈ keys points.positions,
      List.replicate (points.positions.countP fun Q => Q = P) P = [P] := by
    intro P hP
    have hcount : List.count P points.positions = 1 :=
      List.count_eq_one_of_mem h (mem_keys.mp hP)
    show List.replicate (List.count P points.positions) P = [P]
    rw [hcount]
    rfl
  rw [List.flatMap_def, List.map_congr_left hone]
  exact List.flatMap_singleton' _

/-- Duplicates are dropped when there are colours, or no duplicates. -/
theorem dropsDuplicates_iff (h : points.Complete) :
    points.DropsDuplicates ↔ points.withColors = true ∨ points.positions.Nodup := by
  cases hcolors : points.withColors with
  | true =>
    rw [or_iff_left_of_imp fun _ => rfl, iff_true_right rfl]
    have hpositions : (ofColored points.withReflectances ((keys points.positions).map fun P =>
        (P, averageColor (points.colorsAt P)))).positions = keys points.positions := by
      simp only [ofColored, List.map_map]
      exact List.map_id _
    refine ⟨_, reorderInto_true_of_colors h hcolors, ?_, ?_, ?_⟩
    · rw [hpositions]
      exact keys_pairwise points.positions
    · intro P
      rw [hpositions]
      exact mem_keys
    · intro _
      refine ⟨?_, ?_⟩
      · simp only [ofColored, List.length_map]
      · intro i P hP
        simp only [ofColored, List.map_map, List.getElem?_map] at hP ⊢
        obtain ⟨Q, hQ, rfl⟩ := Option.map_eq_some_iff.mp hP
        exact ⟨_, by rw [hQ]; rfl, meanColor_averageColor _⟩
  | false =>
    rw [or_iff_right Bool.false_ne_true]
    constructor
    · intro hdrops
      obtain ⟨new, hrun, hpairwise, -⟩ := hdrops
      rw [reorderInto_of_not_colors hcolors] at hrun
      obtain rfl := Option.some.inj hrun
      have hnodup := hpairwise.imp PCCPoint3D.Before.ne
      have hperm := (flatten_indexLists_perm points.positions).map fun i => (points.entryAt i).1
      rw [flatMap_replicate] at hperm
      have hpositions : (List.range points.positions.length).map (fun i => (points.entryAt i).1) =
          points.positions := by
        have hmap := map_record_fst points
        unfold records at hmap
        rw [List.map_map] at hmap
        exact hmap
      rw [hpositions] at hperm
      exact hperm.nodup_iff.mp hnodup
    · intro hnodup
      refine ⟨_, reorderInto_of_not_colors hcolors true, ?_, ?_,
        fun hwith => absurd (hwith.symm.trans hcolors) Bool.false_ne_true.symm⟩
      · rw [nodup_of_flatMap_replicate hnodup]
        exact keys_pairwise points.positions
      · intro P
        rw [nodup_of_flatMap_replicate hnodup]
        exact mem_keys

/-- The hashed bytes do not depend on the order of the points. -/
theorem checksumOfPoints (h : points.Complete) : points.ChecksumOfPoints := by
  intro points' h' hcolors' hreflectances' hperm
  have hpositions : points'.positions.Perm points.positions := by
    rw [← map_record_fst points', ← map_record_fst points]
    exact hperm.map _
  have hkeys := keys_eq_of_perm hpositions
  unfold checksumBytes
  simp only [if_true]
  cases hcolors : points.withColors with
  | true =>
    rw [hcolors] at hcolors'
    have haverage : ∀ P, averageColor (points'.colorsAt P) = averageColor (points.colorsAt P) :=
      fun P => averageColor_perm ((hperm.filter _).filterMap _)
    rw [reorderInto_true_of_colors h hcolors, reorderInto_true_of_colors h' hcolors']
    simp only [Option.map_some, hkeys, haverage, hreflectances']
    exact ⟨_, rfl, rfl⟩
  | false =>
    rw [hcolors] at hcolors'
    have hcount : ∀ P, points'.positions.countP (fun Q => Q = P) =
        points.positions.countP fun Q => Q = P := fun P => hpositions.countP_eq _
    rw [reorderInto_of_not_colors hcolors, reorderInto_of_not_colors hcolors']
    simp only [Option.map_some, hkeys, hcount, hreflectances']
    exact ⟨_, rfl, rfl⟩

end PCCPointSet3

/-- The reordering and the checksum are right when there is no reflectance to lose, and duplicates
have colours. -/
theorem reorders_iff {points : PCCPointSet3} (h : points.Complete) :
    points.Reorders ↔ (∀ reflectance ∈ points.reflectances, reflectance = 0) ∧
      (points.withColors = true ∨ points.positions.Nodup) := by
  constructor
  · intro hreorders
    exact ⟨(PCCPointSet3.keepsPoints_iff h).mp hreorders.keepsPoints,
      (PCCPointSet3.dropsDuplicates_iff h).mp hreorders.dropsDuplicates⟩
  · intro hcondition
    constructor
    · exact (PCCPointSet3.keepsPoints_iff h).mpr hcondition.1
    · exact (PCCPointSet3.dropsDuplicates_iff h).mpr hcondition.2
    · exact PCCPointSet3.checksumOfPoints h

/-- Two points of one position and different colours. -/
def coloredPair : PCCPointSet3 where
  positions := [⟨1, 2, 3⟩, ⟨1, 2, 3⟩]
  colors := [⟨10, 20, 30⟩, ⟨11, 20, 40⟩]
  reflectances := []
  normals := []
  withNormals := false
  withColors := true
  withReflectances := false

theorem reorders_coloredPair : coloredPair.Complete ∧ coloredPair.Reorders :=
  ⟨⟨rfl, rfl, rfl, rfl⟩, (reorders_iff ⟨rfl, rfl, rfl, rfl⟩).mpr
    ⟨fun _ h => absurd h List.not_mem_nil, .inl rfl⟩⟩

def reflectingPoint : PCCPointSet3 where
  positions := [⟨1, 2, 3⟩]
  colors := []
  reflectances := [5]
  normals := []
  withNormals := false
  withColors := false
  withReflectances := true

/-- The reflectance of the point is lost. -/
theorem not_reorders_reflectingPoint :
    reflectingPoint.Complete ∧ ¬reflectingPoint.Reorders := by
  refine ⟨⟨rfl, rfl, rfl, rfl⟩, ?_⟩
  intro h
  obtain ⟨new, hrun, hperm⟩ := h.keepsPoints
  have hnew : reflectingPoint.reorder = some { reflectingPoint with reflectances := [0] } := by
    decide
  rw [hnew] at hrun
  obtain rfl := Option.some.inj hrun
  revert hperm
  decide

end V3C

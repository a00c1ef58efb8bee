import V3C.Segmenter.GradientSeparation

/-! The separation of the points of high gradient loses no point: what its groups have taken from a
component is put behind another, with the label of it, or stands for itself. -/
namespace V3C

namespace GradientSeparation

variable {α : Type} [LT α] [LE α] [DecidableLT α] [DecidableLE α] {g : GradientSeparation α}
  {partition : List ℕ} {connectedComponents : List (List ℕ)}

/-! ### The components that the groups join -/

/-- The numbers of the points are those of components that have them, or zero. -/
structure Numbered (pointCount : ℕ) (components : List (List ℕ)) (numbers : List ℕ) : Prop where
  length : numbers.length = pointCount
  component : ∀ n number : ℕ, numbers[n]? = some number → number ≠ 0 →
    ∃ component, components[number - 1]? = some component ∧ n ∈ component

theorem Numbered.set {pointCount : ℕ} {components : List (List ℕ)} {numbers : List ℕ}
    (h : Numbered pointCount components numbers) {entry : List ℕ × ℕ}
    (hentry : components[entry.2]? = some entry.1) {j : ℕ} (hj : j ∈ entry.1)
    (hlt : j < numbers.length) :
    Numbered pointCount components (numbers.set j (entry.2 + 1)) where
  length := by rw [List.length_set, h.length]
  component n number hnumber hne := by
    by_cases hn : n = j
    · subst hn
      rw [List.getElem?_set_self hlt] at hnumber
      obtain rfl := Option.some.inj hnumber
      exact ⟨entry.1, hentry, hj⟩
    · rw [List.getElem?_set_ne (Ne.symm hn)] at hnumber
      exact h.component n number hnumber hne

theorem exists_patchPartition {pointCount : ℕ} {components : List (List ℕ)}
    (hpoints : ∀ i ∈ components.flatten, i < pointCount) :
    ∃ numbers, patchPartition pointCount components = some numbers ∧
      Numbered pointCount components numbers := by
  unfold patchPartition
  refine Codec.exists_foldlM (P := fun _ numbers => Numbered pointCount components numbers) ?_ ?_
  · intro visited entry numbers hvisited hnumbers
    have hentry : components[entry.2]? = some entry.1 :=
      List.mem_zipIdx_iff_getElem?.mp
        (hvisited.subset (List.mem_append_right visited List.mem_cons_self))
    refine Codec.exists_foldlM (P := fun _ numbers => Numbered pointCount components numbers) ?_
      hnumbers
    intro visited j numbers hj hnumbers
    have hin : j ∈ entry.1 := hj.subset (List.mem_append_right visited List.mem_cons_self)
    have hlt : j < numbers.length := by
      rw [hnumbers.length]
      exact hpoints j (List.mem_flatten.mpr ⟨entry.1, List.mem_of_getElem? hentry, hin⟩)
    exact ⟨_, if_pos hlt, hnumbers.set hentry hin hlt⟩
  · refine ⟨List.length_replicate, ?_⟩
    intro n number hnumber hne
    rw [List.getElem?_replicate] at hnumber
    split_ifs at hnumber
    exact absurd (Option.some.inj hnumber).symm hne

variable {numbers : List ℕ} {components : List (List ℕ)}

theorem exists_neighborComponent (hlength : numbers.length = partition.length)
    (orientation : ℕ) {neighbors : List ℕ} (hneighbors : ∀ n ∈ neighbors, n < partition.length) :
    ∃ number, neighborComponent numbers partition orientation neighbors = some number ∧
      (number ≠ 0 → ∃ n : ℕ, numbers[n]? = some number) := by
  induction neighbors with
  | nil => exact ⟨0, rfl, fun hne => absurd rfl hne⟩
  | cons n neighbors ih =>
    rw [List.forall_mem_cons] at hneighbors
    have hnumber := List.getElem?_eq_getElem (hlength ▸ hneighbors.1)
    have hlabel := List.getElem?_eq_getElem hneighbors.1
    unfold neighborComponent
    rw [hnumber, Option.bind_eq_bind, Option.bind_some, hlabel, Option.bind_some]
    split_ifs with hjoins
    · exact ⟨_, rfl, fun _ => ⟨n, hnumber⟩⟩
    · exact ih hneighbors.2

omit [LT α] [LE α] [DecidableLT α] [DecidableLE α] in
theorem exists_joinedComponent (hadj : g.adj.length = partition.length)
    (hneighbor : ∀ neighbors ∈ g.adj, ∀ n ∈ neighbors, n < partition.length)
    (hlength : numbers.length = partition.length) (orientation : ℕ) {points : List ℕ}
    (hpoints : ∀ i ∈ points, i < partition.length) :
    ∃ number, g.joinedComponent numbers partition orientation points = some number ∧
      (number ≠ 0 → ∃ n : ℕ, numbers[n]? = some number) := by
  induction points with
  | nil => exact ⟨0, rfl, fun hne => absurd rfl hne⟩
  | cons j points ih =>
    rw [List.forall_mem_cons] at hpoints
    have hj : j < g.adj.length := hadj ▸ hpoints.1
    have hneighbors := List.getElem?_eq_getElem hj
    obtain ⟨number, hnumber, hfrom⟩ := exists_neighborComponent hlength orientation
      (hneighbor _ (List.getElem_mem hj))
    unfold joinedComponent
    rw [hneighbors, Option.bind_eq_bind, Option.bind_some, hnumber, Option.bind_eq_bind,
      Option.bind_some]
    split_ifs with hne
    · exact ⟨number, rfl, hfrom⟩
    · exact ih hpoints.2

/-- A group and a component that it can join. -/
structure Assigned (partition : List ℕ) (components : List (List ℕ)) (points : List ℕ)
    (group : HighGradientGroup) : Prop where
  points_eq : group.points = points
  component : group.ccPartition ≠ 0 →
    ∃ component, components[group.ccPartition - 1]? = some component ∧ component ≠ []

omit [LE α] [DecidableLE α] in
theorem exists_assigned (hadj : g.adj.length = partition.length)
    (hneighbor : ∀ neighbors ∈ g.adj, ∀ n ∈ neighbors, n < partition.length)
    (hnumbers : Numbered partition.length components numbers) {points : List ℕ}
    (hnonempty : points ≠ []) (hpoints : ∀ i ∈ points, i < partition.length) :
    ∃ group, g.assignGroup numbers partition points = some group ∧
      Assigned partition components points group := by
  have hpos := List.length_pos_of_ne_nil hnonempty
  have hfirst := List.getElem?_eq_getElem hpos
  obtain ⟨orgPartition, horg⟩ : ∃ orgPartition, partition[points[0]]? = some orgPartition :=
    ⟨_, List.getElem?_eq_getElem (hpoints _ (List.getElem_mem hpos))⟩
  obtain ⟨number, hnumber, hfrom⟩ := exists_joinedComponent hadj hneighbor hnumbers.length
    (bestOrientation g.orientationCount g.zero (g.sumScore points)
      (skipsOrientation orgPartition) 0) hpoints
  unfold assignGroup
  rw [hfirst, Option.bind_eq_bind, Option.bind_some, horg, Option.bind_some]
  dsimp only
  rw [hnumber]
  refine ⟨_, rfl, rfl, fun hne => ?_⟩
  obtain ⟨n, hn⟩ := hfrom hne
  obtain ⟨component, hcomponent, hin⟩ := hnumbers.component n number hn hne
  exact ⟨component, hcomponent, List.ne_nil_of_mem hin⟩

/-! ### The labels -/

/-- The labels after the points of a group have got one. -/
theorem exists_relabelled (label : ℕ) (points : List ℕ) (partition : List ℕ)
    (hpoints : ∀ i ∈ points, i < partition.length) :
    ∃ partition', points.foldlM (fun partition j => Cells.setAt partition j label) partition =
        some partition' ∧ partition'.length = partition.length ∧
      (∀ n ∈ points, partition'[n]? = some label) ∧
      ∀ n ∉ points, partition'[n]? = partition[n]? := by
  induction points generalizing partition with
  | nil => exact ⟨partition, rfl, rfl, nofun, fun _ _ => rfl⟩
  | cons i points ih =>
    rw [List.forall_mem_cons] at hpoints
    obtain ⟨partition', hfold, hlength, hin, hout⟩ := ih (partition.set i label) (by
      rw [List.length_set]
      exact hpoints.2)
    have hset : Cells.setAt partition i label = some (partition.set i label) := if_pos hpoints.1
    refine ⟨partition', ?_, by rw [hlength, List.length_set], ?_, ?_⟩
    · rw [List.foldlM_cons, hset]
      exact hfold
    · intro n hn
      by_cases hlater : n ∈ points
      · exact hin n hlater
      · obtain rfl := (List.mem_cons.mp hn).resolve_right hlater
        rw [hout n hlater, List.getElem?_set_self hpoints.1]
    · intro n hn
      rw [List.mem_cons, not_or] at hn
      rw [hout n hn.2, List.getElem?_set_ne (Ne.symm hn.1)]

theorem flatten_set_append {l : List (List ℕ)} {i : ℕ} {component points : List ℕ}
    (h : l[i]? = some component) :
    (l.set i (component ++ points)).flatten.Perm (l.flatten ++ points) := by
  induction l generalizing i with
  | nil => cases h
  | cons first l ih =>
    cases i with
    | zero =>
      obtain rfl := Option.some.inj h
      rw [List.set_cons_zero, List.flatten_cons, List.flatten_cons, List.append_assoc,
        List.append_assoc]
      exact List.perm_append_comm.append_left first
    | succ i =>
      rw [List.set_cons_succ, List.flatten_cons, List.flatten_cons, List.append_assoc]
      exact (ih h).append_left first

/-- What holds when some of the groups have been put where they go. A component that was left
without points stays so. -/
structure Joined (partition : List ℕ) (components : List (List ℕ)) (points : List ℕ)
    (s : List (List ℕ) × List ℕ) : Prop where
  length : s.2.length = partition.length
  perm : s.1.flatten.Perm (components.flatten ++ points)
  label : OneLabel s.2 s.1
  component : ∀ (i : ℕ) (component : List ℕ), components[i]? = some component →
    ∃ later : List ℕ, s.1[i]? = some (component ++ later)
  nonempty : (∀ component ∈ components, component ≠ []) ↔ ∀ component ∈ s.1, component ≠ []

theorem OneLabel.congr {partition partition' : List ℕ} {components : List (List ℕ)}
    (h : OneLabel partition components)
    (heq : ∀ n ∈ components.flatten, partition'[n]? = partition[n]?) :
    OneLabel partition' components := by
  intro component hcomponent a ha b hb
  rw [heq a (List.mem_flatten.mpr ⟨component, hcomponent, ha⟩),
    heq b (List.mem_flatten.mpr ⟨component, hcomponent, hb⟩)]
  exact h component hcomponent a ha b hb

section Join

variable {points group : List ℕ} {s : List (List ℕ) × List ℕ} {partition' : List ℕ} {label : ℕ}

/-- A group is put behind a component that has points, with the label of it. -/
theorem Joined.extended (h : Joined partition components points s) {index : ℕ}
    {component : List ℕ} (hcomponent : s.1[index]? = some component) (hne : component ≠ [])
    (hlabel : ∀ n ∈ component, s.2[n]? = some label) (hlength : partition'.length = s.2.length)
    (hgroup : ∀ n ∈ group, partition'[n]? = some label)
    (hold : ∀ n ∈ s.1.flatten, partition'[n]? = s.2[n]?) :
    Joined partition components (points ++ group)
      (s.1.set index (component ++ group), partition') where
  length := hlength.trans h.length
  perm := by
    rw [← List.append_assoc]
    exact (flatten_set_append hcomponent).trans (h.perm.append_right _)
  label := by
    have hjoined (a : ℕ) (ha : a ∈ component ++ group) : partition'[a]? = some label := by
      rcases List.mem_append.mp ha with ha | ha
      · rw [hold a (List.mem_flatten.mpr ⟨_, List.mem_of_getElem? hcomponent, ha⟩), hlabel a ha]
      · exact hgroup a ha
    intro c hc a ha b hb
    rcases List.mem_or_eq_of_mem_set hc with hc | rfl
    · exact h.label.congr hold c hc a ha b hb
    · rw [hjoined a ha, hjoined b hb]
  component i c hc := by
    obtain ⟨later, hlater⟩ := h.component i c hc
    by_cases hi : index = i
    · subst hi
      obtain rfl := Option.some.inj (hcomponent.symm.trans hlater)
      refine ⟨later ++ group, ?_⟩
      rw [List.getElem?_set_self (List.getElem?_eq_some_iff.mp hcomponent).1, List.append_assoc]
    · rw [List.getElem?_set_ne hi]
      exact ⟨later, hlater⟩
  nonempty := by
    rw [h.nonempty]
    constructor
    · intro hall c hc
      rcases List.mem_or_eq_of_mem_set hc with hc | rfl
      · exact hall c hc
      · exact List.append_ne_nil_of_left_ne_nil hne group
    · intro hall c hc
      obtain ⟨i, hi⟩ := List.mem_iff_getElem?.mp hc
      by_cases heq : index = i
      · subst heq
        obtain rfl := Option.some.inj (hcomponent.symm.trans hi)
        exact hne
      · apply hall c
        apply List.mem_of_getElem? (i := i)
        rw [List.getElem?_set_ne heq, hi]

/-- A group becomes a component. -/
theorem Joined.pushed (h : Joined partition components points s) (hne : group ≠ [])
    (hlength : partition'.length = s.2.length)
    (hgroup : ∀ n ∈ group, partition'[n]? = some label)
    (hold : ∀ n ∈ s.1.flatten, partition'[n]? = s.2[n]?) :
    Joined partition components (points ++ group) (s.1 ++ [group], partition') where
  length := hlength.trans h.length
  perm := by
    rw [List.flatten_append, List.flatten_singleton, ← List.append_assoc]
    exact h.perm.append_right _
  label := by
    intro c hc a ha b hb
    rcases List.mem_append.mp hc with hc | hc
    · exact h.label.congr hold c hc a ha b hb
    · rw [List.mem_singleton.mp hc] at ha hb
      rw [hgroup a ha, hgroup b hb]
  component i c hc := by
    obtain ⟨later, hlater⟩ := h.component i c hc
    refine ⟨later, ?_⟩
    rw [List.getElem?_append_left (List.getElem?_eq_some_iff.mp hlater).1, hlater]
  nonempty := by
    rw [h.nonempty, List.forall_mem_append, List.forall_mem_singleton, and_iff_left hne]

end Join

/-- A group is put where it goes. -/
theorem Joined.step {points : List ℕ} {s : List (List ℕ) × List ℕ}
    (h : Joined partition components points s) {group : HighGradientGroup}
    (hassigned : Assigned partition components group.points group) (hnonempty : group.points ≠ [])
    (hlt : ∀ i ∈ components.flatten ++ (points ++ group.points), i < partition.length)
    (hnodup : (components.flatten ++ (points ++ group.points)).Nodup) :
    ∃ s', joinGroup s group = some s' ∧
      Joined partition components (points ++ group.points) s' := by
  rw [← List.append_assoc] at hlt hnodup
  have hpoints : ∀ i ∈ group.points, i < s.2.length := fun i hi => by
    rw [h.length]
    exact hlt i (List.mem_append_right _ hi)
  have hother (n : ℕ) (hn : n ∈ s.1.flatten) : n ∉ group.points := fun hgroup =>
    (List.nodup_append'.mp hnodup).2.2 (h.perm.subset hn) hgroup
  unfold joinGroup
  dsimp only
  by_cases hjoins : group.ccPartition ≠ 0
  · obtain ⟨component, hcomponent, hne⟩ := hassigned.component hjoins
    obtain ⟨later, hlater⟩ := h.component _ component hcomponent
    have hne' := List.append_ne_nil_of_left_ne_nil hne later
    generalize component ++ later = component at hlater hne'
    have hpos := List.length_pos_of_ne_nil hne'
    have hmem := List.mem_of_getElem? hlater
    have hin := List.getElem_mem hpos
    have hfirst : (component ++ group.points)[0]? = some component[0] := by
      rw [List.getElem?_append_left hpos, List.getElem?_eq_getElem hpos]
    generalize component[0] = first at hin hfirst
    have hfirstLt : first < s.2.length := by
      rw [h.length]
      exact hlt first (List.mem_append_left _
        (h.perm.subset (List.mem_flatten.mpr ⟨_, hmem, hin⟩)))
    have hlabel := List.getElem?_eq_getElem hfirstLt
    generalize s.2[first] = label at hlabel
    obtain ⟨partition', hfold, hlength, hgroup, hold⟩ :=
      exists_relabelled label group.points s.2 hpoints
    rw [if_pos hjoins, hlater, Option.bind_eq_bind, Option.bind_some, hfirst,
      Option.bind_eq_bind, Option.bind_some, hlabel, Option.bind_some, hfold]
    exact ⟨_, rfl, h.extended hlater hne'
      (fun n hn => (h.label component hmem n hn first hin).trans hlabel) hlength hgroup
      fun n hn => hold n (hother n hn)⟩
  · obtain ⟨partition', hfold, hlength, hgroup, hold⟩ :=
      exists_relabelled group.orientation group.points s.2 hpoints
    rw [if_neg hjoins, hfold]
    exact ⟨_, rfl, h.pushed hnonempty hlength hgroup fun n hn => hold n (hother n hn)⟩

/-- All groups are put where they go. -/
theorem exists_joined {groups : List (List ℕ)} {assigned : List HighGradientGroup}
    (hassigned : List.Forall₂ (Assigned partition components) groups assigned)
    (hnonempty : ∀ group ∈ groups, group ≠ [])
    (hlt : ∀ i ∈ components.flatten ++ groups.flatten, i < partition.length)
    (hnodup : (components.flatten ++ groups.flatten).Nodup)
    (hlabel : OneLabel partition components) :
    ∃ s, assigned.foldlM joinGroup (components, partition) = some s ∧
      Joined partition components groups.flatten s := by
  suffices hrun : ∀ (points : List ℕ) (s : List (List ℕ) × List ℕ),
      (∀ i ∈ components.flatten ++ (points ++ groups.flatten), i < partition.length) →
      (components.flatten ++ (points ++ groups.flatten)).Nodup →
      Joined partition components points s →
      ∃ s', assigned.foldlM joinGroup s = some s' ∧
        Joined partition components (points ++ groups.flatten) s' by
    refine hrun [] (components, partition) hlt hnodup ⟨rfl, ?_, hlabel, ?_, Iff.rfl⟩
    · rw [List.append_nil]
    · intro i component hcomponent
      exact ⟨[], by rw [List.append_nil]; exact hcomponent⟩
  clear hlt hnodup
  induction hassigned with
  | nil =>
    intro points s _ _ h
    refine ⟨s, rfl, ?_⟩
    rw [List.flatten_nil, List.append_nil]
    exact h
  | @cons group assigned groups rest hgroup _ ih =>
    intro points s hlt hnodup h
    rw [List.forall_mem_cons] at hnonempty
    obtain rfl := hgroup.points_eq
    rw [List.flatten_cons, ← List.append_assoc points, ← List.append_assoc] at hlt hnodup
    obtain ⟨s₁, hstep, hjoined⟩ := h.step hgroup hnonempty.1
      (fun i hi => hlt i (List.mem_append_left _ hi)) (List.nodup_append'.mp hnodup).1
    rw [List.append_assoc] at hlt hnodup
    obtain ⟨s', hrun, hjoined'⟩ := ih hnonempty.2 _ s₁ hlt hnodup hjoined
    refine ⟨s', ?_, ?_⟩
    · rw [List.foldlM_cons, hstep]
      exact hrun
    · rwa [List.flatten_cons, ← List.append_assoc]

/-- The separation preserves the points exactly where it leaves each component one of its own. -/
theorem preservesPoints_iff (hfits : g.Fits partition connectedComponents) :
    g.PreservesPoints partition connectedComponents ↔
      ∀ entry ∈ connectedComponents.zipIdx, g.KeepsPoint partition entry := by
  have hentries : (connectedComponents.zipIdx.map Prod.fst) = connectedComponents :=
    List.zipIdx_map_fst 0 connectedComponents
  have hfrom (entry : List ℕ × ℕ) (h : entry ∈ connectedComponents.zipIdx) :
      entry.1 ∈ connectedComponents := by
    rw [← hentries]
    exact List.mem_map_of_mem h
  obtain ⟨components, groups, hrun, hremoved⟩ := exists_removed (g := g) hfits.adj_length
    hfits.neighbor_lt (hentries.symm ▸ hfits.disjoint) (hentries.symm ▸ hfits.point_lt)
    fun entry h => hfits.nonempty entry.1 (hfrom entry h)
  have hperm := hremoved.perm
  rw [hentries] at hperm
  have hnodup := hperm.nodup_iff.mpr hfits.disjoint
  have hlt : ∀ i ∈ components.flatten ++ groups.flatten, i < partition.length :=
    fun i hi => hfits.point_lt i (hperm.subset hi)
  obtain ⟨numbers, hnumbers, hnumbered⟩ := @exists_patchPartition partition.length components
    fun i hi => hlt i (List.mem_append_left _ hi)
  obtain ⟨assigned, hassign, hassigned⟩ := Codec.exists_mapM_forall₂
    (R := Assigned partition components) fun group hgroup =>
    exists_assigned hfits.adj_length hfits.neighbor_lt hnumbered (hremoved.nonempty group hgroup)
      fun i hi => hlt i (List.mem_append_right _ (List.mem_flatten.mpr ⟨group, hgroup, hi⟩))
  have hlabel : OneLabel partition components := by
    intro component hcomponent a ha b hb
    obtain ⟨entry, hentry, hsub⟩ := hremoved.subset component hcomponent
    exact hfits.label entry.1 (hfrom entry hentry) a (hsub ha) b (hsub hb)
  obtain ⟨s, hjoin, hjoined⟩ := exists_joined hassigned hremoved.nonempty hlt hnodup hlabel
  have hend (fuel : ℕ) (hfuel : partition.length < fuel) :
      g.separateHighGradientPoints fuel partition connectedComponents = some s := by
    unfold separateHighGradientPoints
    rw [hrun fuel hfuel, Option.bind_eq_bind, Option.bind_some]
    dsimp only
    rw [hnumbers, Option.bind_eq_bind, Option.bind_some, hassign]
    exact hjoin
  rw [← hremoved.kept_iff, hjoined.nonempty]
  constructor
  · intro hpreserves
    obtain ⟨components', partition', hrun', -, -, hnonempty, -⟩ := hpreserves
    have hsame := (hend _ (Nat.lt_succ_self _)).symm.trans (hrun' _ (Nat.lt_succ_self _))
    rw [Option.some.inj hsame]
    exact hnonempty
  · intro hnonempty
    have hall := hjoined.perm.trans hperm
    exact ⟨s.1, s.2, hend, hall, hall.nodup_iff.mpr hfits.disjoint, hnonempty, hjoined.label⟩

/-- Scores in thousandths, of points that face one orientation each. -/
def facing (adj : List (List ℕ)) (orientation : ℕ → ℕ) (minNumHighGradientPoints : ℕ)
    (high : ℕ → Bool) : GradientSeparation ℤ where
  adj := adj
  orientationCount := 6
  zero := 0
  score i k := if orientation i = k then 1000 else 0
  sumScore points k := (points.map fun i => if orientation i = k then 1000 else 0).sum
  normalThreshold := 577
  minNumHighGradientPoints := minNumHighGradientPoints
  highGradientMap _ i := high i
  nearD0 _ _ := true

/-- A step of four points, the upper two of which face the component beside it, and a point that
faces its own plane. -/
def steps : GradientSeparation ℤ :=
  facing [[1], [0, 2], [1, 3], [2, 4], [3, 5], [4], []] (fun i => [0, 0, 1, 1, 1, 1, 2].getD i 0) 1
    fun i => i = 2 ∨ i = 3 ∨ i = 6

theorem steps_fits : steps.Fits [0, 0, 0, 0, 1, 1, 2] [[0, 1, 2, 3], [4, 5], [6]] where
  adj_length := rfl
  neighbor_lt := by decide
  point_lt := by decide
  disjoint := by decide
  nonempty := by decide
  label := by
    unfold OneLabel
    decide

theorem preservesPoints_steps :
    steps.PreservesPoints [0, 0, 0, 0, 1, 1, 2] [[0, 1, 2, 3], [4, 5], [6]] := by
  refine (preservesPoints_iff steps_fits).mpr ?_
  intro entry hentry
  simp only [List.zipIdx_cons, List.zipIdx_nil, List.mem_cons, List.not_mem_nil, or_false] at hentry
  rcases hentry with rfl | rfl | rfl
  · exact ⟨0, 0, rfl, rfl, 0, by decide, Or.inl (by decide)⟩
  · exact ⟨4, 1, rfl, rfl, 4, by decide, Or.inl (by decide)⟩
  · refine ⟨6, 2, rfl, rfl, 6, by decide, Or.inr ?_⟩
    unfold left
    rw [if_neg (fun htaken => htaken.2.1 (by decide))]
    exact ⟨List.mem_singleton_self 6, by decide⟩

example : steps.separateHighGradientPoints 8 [0, 0, 0, 0, 1, 1, 2] [[0, 1, 2, 3], [4, 5], [6]] =
    some ([[0, 1], [4, 5, 2, 3], [6]], [0, 0, 1, 1, 1, 1, 2]) := by decide

/-- All three points of a component are in one group, and the component is left empty. -/
theorem not_preservesPoints :
    ¬∀ (g : GradientSeparation ℤ) (partition : List ℕ) (connectedComponents : List (List ℕ)),
      g.Fits partition connectedComponents → g.PreservesPoints partition connectedComponents := by
  intro h
  have hfits : (facing [[1], [0, 2], [1]] (fun _ => 1) 2 fun _ => true).Fits [0, 0, 0]
      [[0, 1, 2]] :=
    ⟨rfl, by decide, by decide, by decide, by decide, by unfold OneLabel; decide⟩
  obtain ⟨components, partition', hrun, -, -, hnonempty, -⟩ := h _ _ _ hfits
  have hend : (facing [[1], [0, 2], [1]] (fun _ => 1) 2 fun _ => true).separateHighGradientPoints 4
      [0, 0, 0] [[0, 1, 2]] = some ([[], [0, 1, 2]], [1, 1, 1]) := by decide
  have hsame := hend.symm.trans (hrun 4 (by decide))
  obtain ⟨rfl, rfl⟩ := Prod.mk.inj (Option.some.inj hsame)
  exact hnonempty [] List.mem_cons_self rfl

end GradientSeparation

end V3C

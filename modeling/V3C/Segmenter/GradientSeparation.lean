import Mathlib.Data.Set.Card
import V3C.Segmenter.ConnectedComponents

/-! The separation of the points of high gradient from the connected components: they are grouped,
and each group becomes a component or joins one that it touches. -/
namespace V3C

/-- What the separation reads. The gradients, the depths and the normals of the source are values
in double precision, of which only the comparisons matter. -/
structure GradientSeparation (α : Type) where
  adj : List (List ℕ)
  orientationCount : ℕ
  zero : α
  /-- The normal of a point times an orientation. -/
  score : ℕ → ℕ → α
  /-- The sum of the normals of points times an orientation. -/
  sumScore : List ℕ → ℕ → α
  normalThreshold : α
  minNumHighGradientPoints : ℕ
  /-- The gradient in the pixel of a point, in the patch of the component of a number. -/
  highGradientMap : ℕ → ℕ → Bool
  /-- The distance of a point to the near layer of that patch is within the surface thickness. -/
  nearD0 : ℕ → ℕ → Bool

section Best

variable {α : Type} [LT α] [DecidableLT α]

/-- The loops over the orientations: the first of the highest score, if that is above zero. -/
def bestOrientation (orientationCount : ℕ) (zero : α) (score : ℕ → α) (skips : ℕ → Bool)
    (start : ℕ) : ℕ :=
  ((List.range orientationCount).foldl (fun (best : α × ℕ) k =>
    if skips k = false ∧ best.1 < score k then (score k, k) else best) (zero, start)).2

end Best

/-- The orientations of the axis of a label. -/
def skipsOrientation (orgPartition k : ℕ) : Bool :=
  if orgPartition < 6 then decide (k < 6 ∧ k % 3 = orgPartition % 3)
  else
    let sameAxis := decide (k = orgPartition ∨ k + 2 = orgPartition ∨ k = orgPartition + 2)
    if orgPartition < 10 then decide (6 ≤ k ∧ k < 10) && sameAxis
    else if orgPartition < 14 then decide (10 ≤ k ∧ k < 14) && sameAxis
    else decide (14 ≤ k) && sameAxis

def samePlane (partition orientation : ℕ) : Bool :=
  decide (partition < 6 ∧ orientation < 6 ∧ orientation % 3 = partition % 3) ||
  decide (6 ≤ partition ∧ partition < 10 ∧ 6 ≤ orientation ∧ orientation < 10 ∧
    orientation % 2 = partition % 2) ||
  decide (10 ≤ partition ∧ partition < 14 ∧ 10 ≤ orientation ∧ orientation < 14 ∧
    orientation % 2 = partition % 2) ||
  decide (14 ≤ partition ∧ 14 ≤ orientation ∧ orientation % 2 = partition % 2)

/-- A group of points of high gradient, the component that it joins, counted from one, and its
orientation. -/
structure HighGradientGroup where
  points : List ℕ
  ccPartition : ℕ
  orientation : ℕ

namespace GradientSeparation

variable {α : Type} [LT α] [LE α] [DecidableLT α] [DecidableLE α]

section Definitions

variable (g : GradientSeparation α)

/-- The candidates: points close to the near layer, or whose normal does not point to the
projection plane. -/
def isCandidate (component orgPartitionIdx idx : ℕ) : Bool :=
  g.highGradientMap component idx &&
    (g.nearD0 component idx || decide (g.score idx orgPartitionIdx ≤ g.normalThreshold))

def clusterIndex (orgPartitionIdx i : ℕ) : ℕ :=
  bestOrientation g.orientationCount g.zero (g.score i) (fun _ => false) orgPartitionIdx

/-- The flagged points that a search for an orientation admits. -/
def admits (clusterIndex n : ℕ) : Option Bool :=
  some (decide (g.normalThreshold < g.score n clusterIndex))

/-- The loop that groups the flagged points of a component. The points of a group that is too small
are flagged again. -/
def connectPoints (fuel orgPartitionIdx : ℕ) :
    List ℕ → List Bool → Option (List (List ℕ) × List Bool)
  | [], flags => some ([], flags)
  | i :: component, flags => do
    let flag ← flags[i]?
    let clusterIndex := g.clusterIndex orgPartitionIdx i
    if flag && clusterIndex != orgPartitionIdx then do
      let found ← FloodFill.fill g.adj (g.admits clusterIndex) fuel
        { flags := flags.set i false, fifo := [i], component := [i] }
      if found.component.length > g.minNumHighGradientPoints then do
        let (groups, flags) ← connectPoints fuel orgPartitionIdx component found.flags
        some (found.component :: groups, flags)
      else do
        let flags ← found.component.foldlM (fun flags j => Cells.setAt flags j true) found.flags
        connectPoints fuel orgPartitionIdx component flags
    else connectPoints fuel orgPartitionIdx component flags

/-- The groups of a component, and which of its points are removed. -/
def calculateGradient (fuel pointCount component orgPartitionIdx : ℕ)
    (connectedComponent : List ℕ) : Option (List (List ℕ) × List Bool) := do
  let flags ← connectedComponent.foldlM (fun flags idx =>
      if g.isCandidate component orgPartitionIdx idx then Cells.setAt flags idx true
      else some flags)
    (List.replicate pointCount false)
  let (groups, flags) ← g.connectPoints fuel orgPartitionIdx connectedComponent flags
  let isRemoved ← connectedComponent.mapM fun idx => do
    if ← flags[idx]? then some false else some (g.isCandidate component orgPartitionIdx idx)
  some (groups, isRemoved)

/-- The loop over the components, which removes the points of their groups. -/
def removePoints (fuel : ℕ) (partition : List ℕ) :
    List (List ℕ × ℕ) → Option (List (List ℕ) × List (List ℕ))
  | [] => some ([], [])
  | (connectedComponent, idx) :: connectedComponents => do
    let first ← connectedComponent[0]?
    let orgPartitionIdx ← partition[first]?
    let (groups, isRemoved) ←
      g.calculateGradient fuel partition.length idx orgPartitionIdx connectedComponent
    let tmpConnectedComponent :=
      ((connectedComponent.zip isRemoved).filter fun entry => !entry.2).map Prod.fst
    let (components, laterGroups) ← removePoints fuel partition connectedComponents
    some (tmpConnectedComponent :: components, groups ++ laterGroups)

/-- The component of each point, counted from one. -/
def patchPartition (pointCount : ℕ) (connectedComponents : List (List ℕ)) : Option (List ℕ) :=
  connectedComponents.zipIdx.foldlM (fun patchPartition (connectedComponent, i) =>
      connectedComponent.foldlM (fun patchPartition j => Cells.setAt patchPartition j (i + 1))
        patchPartition)
    (List.replicate pointCount 0)

/-- The neighbours of a point, up to one in a component of the plane of the group. -/
def neighborComponent (patchPartition partition : List ℕ) (orientation : ℕ) :
    List ℕ → Option ℕ
  | [] => some 0
  | n :: neighbors => do
    let component ← patchPartition[n]?
    let label ← partition[n]?
    if component ≠ 0 ∧ samePlane label orientation = true then some component
    else neighborComponent patchPartition partition orientation neighbors

def joinedComponent (patchPartition partition : List ℕ) (orientation : ℕ) : List ℕ → Option ℕ
  | [] => some 0
  | j :: points => do
    let neighbors ← g.adj[j]?
    let component ← neighborComponent patchPartition partition orientation neighbors
    if component ≠ 0 then some component
    else joinedComponent patchPartition partition orientation points

/-- Where a group goes. -/
def assignGroup (patchPartition partition : List ℕ) (points : List ℕ) :
    Option HighGradientGroup := do
  let first ← points[0]?
  let orgPartition ← partition[first]?
  let orientation := bestOrientation g.orientationCount g.zero (g.sumScore points)
    (skipsOrientation orgPartition) 0
  let component ← g.joinedComponent patchPartition partition orientation points
  some { points, ccPartition := component, orientation }

end Definitions

/-- A group is put behind its component, with the label of it, or becomes a component. -/
def joinGroup (s : List (List ℕ) × List ℕ) (group : HighGradientGroup) :
    Option (List (List ℕ) × List ℕ) :=
  let (connectedComponents, partition) := s
  if group.ccPartition ≠ 0 then do
    let newCCIdx := group.ccPartition - 1
    let connectedComponent ← connectedComponents[newCCIdx]?
    let joined := connectedComponent ++ group.points
    let first ← joined[0]?
    let newPartition ← partition[first]?
    let partition ← group.points.foldlM
      (fun partition j => Cells.setAt partition j newPartition) partition
    some (connectedComponents.set newCCIdx joined, partition)
  else do
    let partition ← group.points.foldlM
      (fun partition j => Cells.setAt partition j group.orientation) partition
    some (connectedComponents ++ [group.points], partition)

/-- The components and the labels of the points afterwards. -/
def separateHighGradientPoints (g : GradientSeparation α) (fuel : ℕ) (partition : List ℕ)
    (connectedComponents : List (List ℕ)) : Option (List (List ℕ) × List ℕ) := do
  let (components, groups) ← g.removePoints fuel partition connectedComponents.zipIdx
  let patchPartition ← patchPartition partition.length components
  let groups ← groups.mapM (g.assignGroup patchPartition partition)
  groups.foldlM joinGroup (components, partition)

/-- The points of each component have one label. -/
def OneLabel (partition : List ℕ) (components : List (List ℕ)) : Prop :=
  ∀ component ∈ components, ∀ a ∈ component, ∀ b ∈ component, partition[a]? = partition[b]?

/-- The components and the labels that the separation is given. -/
structure Fits (g : GradientSeparation α) (partition : List ℕ)
    (connectedComponents : List (List ℕ)) : Prop where
  adj_length : g.adj.length = partition.length
  neighbor_lt : ∀ neighbors ∈ g.adj, ∀ n ∈ neighbors, n < partition.length
  point_lt : ∀ i ∈ connectedComponents.flatten, i < partition.length
  disjoint : connectedComponents.flatten.Nodup
  nonempty : ∀ component ∈ connectedComponents, component ≠ []
  label : OneLabel partition connectedComponents

/-- The separation ends. The components have the same points as before, none twice, and none is
empty; the points of each have one label. -/
def PreservesPoints (g : GradientSeparation α) (partition : List ℕ)
    (connectedComponents : List (List ℕ)) : Prop :=
  ∃ components partition', (∀ fuel, partition.length < fuel →
      g.separateHighGradientPoints fuel partition connectedComponents =
        some (components, partition')) ∧
    components.flatten.Perm connectedComponents.flatten ∧ components.flatten.Nodup ∧
    (∀ component ∈ components, component ≠ []) ∧ OneLabel partition' components

/-! ### Which points stay -/

/-- What a point reaches through points of a set whose normals are close to an orientation. -/
def Reached (g : GradientSeparation α) (clusterIndex : ℕ) (free : Set ℕ) (i : ℕ) : Set ℕ :=
  {n | Relation.ReflTransGen (fun a b => (∃ neighbors, g.adj[a]? = some neighbors ∧
    b ∈ neighbors) ∧ b ∈ free ∧ g.normalThreshold < g.score b clusterIndex) i n}

open Classical in
/-- The points of a set that are left when the points of a list, in its order, have taken what they
reach, if that is enough. -/
noncomputable def left (g : GradientSeparation α) (orgPartitionIdx : ℕ) :
    List ℕ → Set ℕ → Set ℕ
  | [], free => free
  | i :: points, free =>
    if i ∈ free ∧ g.clusterIndex orgPartitionIdx i ≠ orgPartitionIdx ∧
        g.minNumHighGradientPoints <
          (g.Reached (g.clusterIndex orgPartitionIdx i) free i).ncard then
      left g orgPartitionIdx points
        (free \ g.Reached (g.clusterIndex orgPartitionIdx i) free i)
    else left g orgPartitionIdx points free

def candidates (g : GradientSeparation α) (component orgPartitionIdx : ℕ)
    (connectedComponent : List ℕ) : Set ℕ :=
  {n | n ∈ connectedComponent ∧ g.isCandidate component orgPartitionIdx n = true}

/-- A component has a point that is no candidate, or that is in no group. -/
def KeepsPoint (g : GradientSeparation α) (partition : List ℕ) (entry : List ℕ × ℕ) : Prop :=
  ∃ first orgPartitionIdx, entry.1[0]? = some first ∧ partition[first]? = some orgPartitionIdx ∧
    ∃ i ∈ entry.1, g.isCandidate entry.2 orgPartitionIdx i = false ∨
      i ∈ g.left orgPartitionIdx entry.1 (g.candidates entry.2 orgPartitionIdx entry.1)

/-! ### The groups -/

variable {g : GradientSeparation α} {partition : List ℕ}

omit [LE α] [DecidableLE α] in
theorem admits_iff {clusterIndex n : ℕ} :
    g.admits clusterIndex n = some true ↔ g.normalThreshold < g.score n clusterIndex := by
  unfold admits
  rw [Option.some_inj, decide_eq_true_iff]

omit [LE α] [DecidableLE α] in
/-- The search leaves out its own point, which it has reached already. -/
theorem reached_iff {clusterIndex i : ℕ} {free : Set ℕ} {flags : List Bool}
    (hflags : ∀ n, flags[n]? = some true ↔ n ∈ free) (hflag : flags[i]? = some true) (n : ℕ) :
    Relation.ReflTransGen (FloodFill.Edge g.adj (g.admits clusterIndex) (flags.set i false)) i n ↔
      n ∈ g.Reached clusterIndex free i := by
  constructor
  · intro hreach
    apply Relation.ReflTransGen.mono ?_ i n hreach
    intro a b hedge
    obtain ⟨hneighbor, hadmits, hset⟩ := hedge
    exact ⟨hneighbor, (hflags b).mp ((ComponentSearch.getElem?_set_seed hflag b).mp hset).1,
      admits_iff.mp hadmits⟩
  · intro hreach
    induction hreach with
    | refl => exact .refl
    | @tail a b _ hedge ih =>
      obtain ⟨hneighbor, hfree, hscore⟩ := hedge
      by_cases hb : b = i
      · rw [hb]
      · exact ih.tail ⟨hneighbor, admits_iff.mpr hscore,
          (ComponentSearch.getElem?_set_seed hflag b).mpr ⟨(hflags b).mpr hfree, hb⟩⟩

/-- What the search from a flagged point finds. -/
structure Found (g : GradientSeparation α) (pointCount clusterIndex i : ℕ) (free : Set ℕ)
    (found : FloodFill.Fill) : Prop where
  length : found.flags.length = pointCount
  flags : ∀ n, found.flags[n]? = some true ↔ n ∈ free \ g.Reached clusterIndex free i
  nodup : found.component.Nodup
  head : found.component.head? = some i
  mem_iff : ∀ n, n ∈ found.component ↔ n ∈ g.Reached clusterIndex free i

variable {pointCount clusterIndex orgPartitionIdx i : ℕ} {free : Set ℕ} {flags : List Bool}

omit [LE α] [DecidableLT α] [DecidableLE α] in
theorem reached_subset (hi : i ∈ free) : g.Reached clusterIndex free i ⊆ free := by
  intro n hn
  rcases Relation.ReflTransGen.cases_tail hn with heq | ⟨a, -, hlast⟩
  · rw [heq]
    exact hi
  · exact hlast.2.1

omit [LE α] [DecidableLE α] in
theorem exists_found (hadj : g.adj.length = pointCount)
    (hneighbor : ∀ neighbors ∈ g.adj, ∀ n ∈ neighbors, n < pointCount)
    (hlength : flags.length = pointCount) (hflags : ∀ n, flags[n]? = some true ↔ n ∈ free)
    (hi : i ∈ free) (clusterIndex : ℕ) :
    ∃ found, Found g pointCount clusterIndex i free found ∧ ∀ fuel, pointCount < fuel →
      FloodFill.fill g.adj (g.admits clusterIndex) fuel
        { flags := flags.set i false, fifo := [i], component := [i] } = some found := by
  have hflag := (hflags i).mpr hi
  have hlt := (List.getElem?_eq_some_iff.mp hflag).1
  have hset : (flags.set i false).length = pointCount := by rw [List.length_set, hlength]
  have hdefined : FloodFill.Defined g.adj (g.admits clusterIndex) (flags.set i false).length := by
    rw [hset]
    exact ⟨hadj, hneighbor, fun n _ => ⟨_, rfl⟩⟩
  have hstart : FloodFill.Filling g.adj (g.admits clusterIndex) (flags.set i false) i
      (fun _ _ => False) ⟨flags.set i false, [i], [i]⟩ :=
    .start (by rw [hset, ← hlength]; exact hlt) (List.getElem?_set_self hlt)
  obtain ⟨found, hfilling, hnil, hfill⟩ := hstart.exists_fill hdefined
  have hmem (n : ℕ) : n ∈ found.component ↔ n ∈ g.Reached clusterIndex free i :=
    (hfilling.mem_iff hnil n).trans (reached_iff hflags hflag n)
  refine ⟨found, ⟨?_, ?_, hfilling.nodup, hfilling.head, hmem⟩, ?_⟩
  · rw [hfilling.length, hset]
  · intro n
    rw [hfilling.flags, ComponentSearch.getElem?_set_seed hflag, hflags, hmem, Set.mem_sdiff]
    constructor
    · intro hn
      exact ⟨hn.1.1, hn.2⟩
    · intro hn
      refine ⟨⟨hn.1, ?_⟩, hn.2⟩
      rintro rfl
      exact hn.2 Relation.ReflTransGen.refl
  · intro fuel hfuel
    apply hfill
    have hcount := FloodFill.count_set_false hflag
    have hle := List.count_le_length (a := true) (l := flags)
    unfold FloodFill.Fill.work
    dsimp only
    rw [List.length_singleton]
    omega

omit [LE α] [DecidableLT α] [DecidableLE α] in
theorem Found.length_eq {found : FloodFill.Fill}
    (h : Found g pointCount clusterIndex i free found) :
    found.component.length = (g.Reached clusterIndex free i).ncard := by
  have hset : (found.component.toFinset : Set ℕ) = g.Reached clusterIndex free i := by
    ext n
    rw [Finset.mem_coe, List.mem_toFinset, h.mem_iff]
  rw [← hset, Set.ncard_coe_finset, List.toFinset_card_of_nodup h.nodup]

/-- What the grouping of the points of a list gives. -/
structure Grouped (g : GradientSeparation α) (pointCount orgPartitionIdx : ℕ) (points : List ℕ)
    (free : Set ℕ) (groups : List (List ℕ)) (flags : List Bool) : Prop where
  length : flags.length = pointCount
  flags : ∀ n, flags[n]? = some true ↔ n ∈ g.left orgPartitionIdx points free
  nodup : groups.flatten.Nodup
  nonempty : ∀ group ∈ groups, group ≠ []
  mem_iff : ∀ n, n ∈ groups.flatten ↔ n ∈ free \ g.left orgPartitionIdx points free

omit [LE α] [DecidableLE α] in
theorem left_subset (points : List ℕ) (free : Set ℕ) :
    g.left orgPartitionIdx points free ⊆ free := by
  induction points generalizing free with
  | nil => exact subset_rfl
  | cons i points ih =>
    unfold left
    split_ifs with htaken
    · exact (ih _).trans Set.sdiff_subset
    · exact ih free

omit [LE α] [DecidableLE α] in
/-- A group that is large enough is taken. -/
theorem Grouped.taken {points : List ℕ} {groups : List (List ℕ)} {found : FloodFill.Fill}
    (hi : i ∈ free) (hother : g.clusterIndex orgPartitionIdx i ≠ orgPartitionIdx)
    (hmany : g.minNumHighGradientPoints < found.component.length)
    (hfound : Found g pointCount (g.clusterIndex orgPartitionIdx i) i free found)
    (h : Grouped g pointCount orgPartitionIdx points
      (free \ g.Reached (g.clusterIndex orgPartitionIdx i) free i) groups flags) :
    Grouped g pointCount orgPartitionIdx (i :: points) free (found.component :: groups) flags := by
  have hreached := @reached_subset α _ g (g.clusterIndex orgPartitionIdx i) i free hi
  have hleft : g.left orgPartitionIdx (i :: points) free = g.left orgPartitionIdx points
      (free \ g.Reached (g.clusterIndex orgPartitionIdx i) free i) := by
    conv_lhs => unfold left
    rw [if_pos ⟨hi, hother, hfound.length_eq ▸ hmany⟩]
  refine ⟨h.length, hleft ▸ h.flags, ?_, ?_, ?_⟩
  · rw [List.flatten_cons]
    apply hfound.nodup.append h.nodup
    intro n hcomponent hlater
    exact ((h.mem_iff n).mp hlater).1.2 ((hfound.mem_iff n).mp hcomponent)
  · rw [List.forall_mem_cons]
    refine ⟨?_, h.nonempty⟩
    intro hnil
    have hhead := hfound.head
    rw [hnil] at hhead
    cases hhead
  · intro n
    have hsub := @left_subset α _ _ g orgPartitionIdx points
      (free \ g.Reached (g.clusterIndex orgPartitionIdx i) free i) n
    have hin := @hreached n
    rw [List.flatten_cons, List.mem_append, hfound.mem_iff, h.mem_iff, hleft]
    simp only [Set.mem_sdiff] at hsub ⊢
    tauto

omit [LE α] [DecidableLE α] in
/-- A point that takes no group leaves the points as they are. -/
theorem Grouped.skipped {points : List ℕ} {groups : List (List ℕ)}
    (hskip : ¬(i ∈ free ∧ g.clusterIndex orgPartitionIdx i ≠ orgPartitionIdx ∧
      g.minNumHighGradientPoints <
        (g.Reached (g.clusterIndex orgPartitionIdx i) free i).ncard))
    (h : Grouped g pointCount orgPartitionIdx points free groups flags) :
    Grouped g pointCount orgPartitionIdx (i :: points) free groups flags := by
  have hleft : g.left orgPartitionIdx (i :: points) free =
      g.left orgPartitionIdx points free := by
    conv_lhs => unfold left
    rw [if_neg hskip]
  exact { h with flags := hleft ▸ h.flags, mem_iff := hleft ▸ h.mem_iff }

omit [LE α] [DecidableLT α] [DecidableLE α] in
/-- The points of a group that is too small are flagged again. -/
theorem exists_restored {found : FloodFill.Fill}
    (h : Found g pointCount clusterIndex i free found) (hlength : flags.length = pointCount)
    (hflags : ∀ n, flags[n]? = some true ↔ n ∈ free) (hi : i ∈ free) :
    ∃ restored, found.component.foldlM (fun flags j => Cells.setAt flags j true) found.flags =
        some restored ∧ restored.length = pointCount ∧
      ∀ n, restored[n]? = some true ↔ n ∈ free := by
  have hreached := @reached_subset α _ g clusterIndex i free hi
  have hcomponent : ∀ j ∈ found.component, j < found.flags.length := by
    intro j hj
    have hset := (hflags j).mpr (hreached ((h.mem_iff j).mp hj))
    rw [h.length, ← hlength]
    exact (List.getElem?_eq_some_iff.mp hset).1
  obtain ⟨restored, hrestore, hrestoredLength, hrestored⟩ :=
    ComponentSearch.exists_flags found.component found.flags hcomponent
  refine ⟨restored, hrestore, hrestoredLength.trans h.length, ?_⟩
  intro n
  have hin := @hreached n
  rw [hrestored, h.mem_iff, h.flags, Set.mem_sdiff]
  tauto

omit [LE α] [DecidableLE α] in
/-- The loop over the points of a component. -/
theorem exists_connectPoints (hadj : g.adj.length = pointCount)
    (hneighbor : ∀ neighbors ∈ g.adj, ∀ n ∈ neighbors, n < pointCount) {points : List ℕ}
    (hpoints : ∀ i ∈ points, i < pointCount) (hlength : flags.length = pointCount)
    (hflags : ∀ n, flags[n]? = some true ↔ n ∈ free) :
    ∃ groups flags', Grouped g pointCount orgPartitionIdx points free groups flags' ∧
      ∀ fuel, pointCount < fuel →
        g.connectPoints fuel orgPartitionIdx points flags = some (groups, flags') := by
  induction points generalizing free flags with
  | nil =>
    refine ⟨[], flags, ⟨hlength, hflags, List.nodup_nil, nofun, fun n => ?_⟩, fun _ _ => rfl⟩
    unfold left
    simp
  | cons i points ih =>
    rw [List.forall_mem_cons] at hpoints
    have hflag := List.getElem?_eq_getElem (hlength ▸ hpoints.1)
    generalize flags[i] = flag at hflag
    have hfree : i ∈ free ↔ flag = true := by
      rw [← hflags, hflag, Option.some_inj]
    by_cases hseed : flag = true ∧ g.clusterIndex orgPartitionIdx i ≠ orgPartitionIdx
    · obtain ⟨found, hfound, hfill⟩ := exists_found hadj hneighbor hlength hflags
        (hfree.mpr hseed.1) (g.clusterIndex orgPartitionIdx i)
      by_cases hmany : g.minNumHighGradientPoints < found.component.length
      · obtain ⟨groups, flags', hgrouped, hrun⟩ := ih hpoints.2 hfound.length hfound.flags
        refine ⟨found.component :: groups, flags',
          hgrouped.taken (hfree.mpr hseed.1) hseed.2 hmany hfound, ?_⟩
        intro fuel hfuel
        unfold connectPoints
        rw [hflag, Option.bind_eq_bind, Option.bind_some]
        dsimp only
        rw [if_pos (by simpa using hseed), hfill fuel hfuel, Option.bind_eq_bind,
          Option.bind_some, if_pos hmany, hrun fuel hfuel]
        rfl
      · obtain ⟨restored, hrestore, hrestoredLength, hrestored⟩ :=
          exists_restored hfound hlength hflags (hfree.mpr hseed.1)
        obtain ⟨groups, flags', hgrouped, hrun⟩ := ih hpoints.2 hrestoredLength hrestored
        refine ⟨groups, flags',
          hgrouped.skipped fun htaken => hmany (hfound.length_eq ▸ htaken.2.2), ?_⟩
        intro fuel hfuel
        unfold connectPoints
        rw [hflag, Option.bind_eq_bind, Option.bind_some]
        dsimp only
        rw [if_pos (by simpa using hseed), hfill fuel hfuel, Option.bind_eq_bind,
          Option.bind_some, if_neg hmany, hrestore]
        exact hrun fuel hfuel
    · obtain ⟨groups, flags', hgrouped, hrun⟩ := ih hpoints.2 hlength hflags
      refine ⟨groups, flags',
        hgrouped.skipped fun htaken => hseed ⟨hfree.mp htaken.1, htaken.2.1⟩, ?_⟩
      intro fuel hfuel
      unfold connectPoints
      rw [hflag, Option.bind_eq_bind, Option.bind_some]
      dsimp only
      rw [if_neg (by simpa using hseed)]
      exact hrun fuel hfuel

/-! ### The points that are removed -/

/-- What is left of a component, and its groups. -/
structure Divided (g : GradientSeparation α) (partition : List ℕ) (entry : List ℕ × ℕ)
    (kept : List ℕ) (groups : List (List ℕ)) : Prop where
  perm : (kept ++ groups.flatten).Perm entry.1
  nonempty : ∀ group ∈ groups, group ≠ []
  kept_iff : kept ≠ [] ↔ g.KeepsPoint partition entry

omit [LT α] [DecidableLT α] in
/-- The flags of the candidates of a component. -/
theorem exists_candidateFlags (component orgPartitionIdx : ℕ) (points : List ℕ)
    (flags : List Bool) (hpoints : ∀ i ∈ points, i < flags.length) :
    ∃ flags', points.foldlM (fun flags idx =>
        if g.isCandidate component orgPartitionIdx idx then Cells.setAt flags idx true
        else some flags) flags = some flags' ∧ flags'.length = flags.length ∧
      ∀ n, flags'[n]? = some true ↔
        n ∈ g.candidates component orgPartitionIdx points ∨ flags[n]? = some true := by
  induction points generalizing flags with
  | nil =>
    refine ⟨flags, rfl, rfl, fun n => ?_⟩
    unfold candidates
    simp
  | cons i points ih =>
    rw [List.forall_mem_cons] at hpoints
    have hcons (n : ℕ) : n ∈ g.candidates component orgPartitionIdx (i :: points) ↔
        (n = i ∧ g.isCandidate component orgPartitionIdx n = true) ∨
          n ∈ g.candidates component orgPartitionIdx points := by
      unfold candidates
      simp only [Set.mem_ofPred_eq, List.mem_cons]
      tauto
    rw [List.foldlM_cons]
    by_cases hcandidate : g.isCandidate component orgPartitionIdx i = true
    · have hset : Cells.setAt flags i true = some (flags.set i true) := if_pos hpoints.1
      obtain ⟨flags', hfold, hlength, hflags⟩ := ih (flags.set i true) (by
        rw [List.length_set]
        exact hpoints.2)
      refine ⟨flags', ?_, by rw [hlength, List.length_set], fun n => ?_⟩
      · rw [if_pos hcandidate, hset]
        exact hfold
      · rw [hflags, hcons]
        by_cases hn : n = i
        · subst hn
          rw [List.getElem?_set_self hpoints.1]
          tauto
        · rw [List.getElem?_set_ne (Ne.symm hn)]
          tauto
    · obtain ⟨flags', hfold, hlength, hflags⟩ := ih flags hpoints.2
      refine ⟨flags', ?_, hlength, fun n => ?_⟩
      · rw [if_neg hcandidate]
        exact hfold
      · rw [hflags, hcons]
        by_cases hn : n = i
        · subst hn
          tauto
        · tauto

/-- The loop over one component. -/
theorem exists_divided (hadj : g.adj.length = partition.length)
    (hneighbor : ∀ neighbors ∈ g.adj, ∀ n ∈ neighbors, n < partition.length) {entry : List ℕ × ℕ}
    {first orgPartitionIdx : ℕ} (hfirst : entry.1[0]? = some first)
    (horg : partition[first]? = some orgPartitionIdx) (hnodup : entry.1.Nodup)
    (hpoints : ∀ i ∈ entry.1, i < partition.length) :
    ∃ groups isRemoved, (∀ fuel, partition.length < fuel →
        g.calculateGradient fuel partition.length entry.2 orgPartitionIdx entry.1 =
          some (groups, isRemoved)) ∧
      Divided g partition entry
        (((entry.1.zip isRemoved).filter fun removed => !removed.2).map Prod.fst) groups := by
  obtain ⟨flags, hfold, hlength, hflags⟩ := @exists_candidateFlags α _ _ g entry.2
    orgPartitionIdx entry.1 (List.replicate partition.length false) (by
      rw [List.length_replicate]
      exact hpoints)
  rw [List.length_replicate] at hlength
  have hcandidates (n : ℕ) : flags[n]? = some true ↔
      n ∈ g.candidates entry.2 orgPartitionIdx entry.1 := by
    rw [hflags, or_iff_left]
    intro hset
    rw [List.getElem?_replicate] at hset
    split_ifs at hset
    cases hset
  obtain ⟨groups, flags', hgrouped, hrun⟩ := @exists_connectPoints α _ _ g partition.length
    orgPartitionIdx _ flags hadj hneighbor entry.1 hpoints hlength hcandidates
  have hread (i : ℕ) (hi : i ∈ entry.1) : ∃ flag, flags'[i]? = some flag := by
    have hlt : i < flags'.length := by
      rw [hgrouped.length]
      exact hpoints i hi
    exact ⟨_, List.getElem?_eq_getElem hlt⟩
  let p (i : ℕ) : Bool := decide (i ∈ groups.flatten)
  have hgroups (i : ℕ) (hi : i ∈ entry.1) : i ∈ groups.flatten ↔
      g.isCandidate entry.2 orgPartitionIdx i = true ∧ flags'[i]? ≠ some true := by
    rw [hgrouped.mem_iff, Set.mem_sdiff, ← hgrouped.flags]
    unfold candidates
    rw [Set.mem_ofPred_eq, and_iff_right hi]
  have hremoved (i : ℕ) (hi : i ∈ entry.1) : (do
      if ← flags'[i]? then some false
      else some (g.isCandidate entry.2 orgPartitionIdx i) : Option Bool) = some (p i) := by
    have hin := hgroups i hi
    obtain ⟨flag, hflag⟩ := hread i hi
    rw [hflag] at hin ⊢
    cases flag with
    | true =>
      rw [Option.bind_eq_bind, Option.bind_some, if_pos rfl, Option.some_inj]
      exact (decide_eq_false (fun hmem => (hin.mp hmem).2 rfl)).symm
    | false =>
      rw [Option.bind_eq_bind, Option.bind_some, if_neg Bool.false_ne_true, Option.some_inj,
        Bool.eq_iff_iff, decide_eq_true_iff, hin]
      simp
  have hkept : ((entry.1.zip (entry.1.map p)).filter fun removed => !removed.2).map Prod.fst =
      entry.1.filter fun i => !p i := by
    rw [← List.map_prod_left_eq_zip, List.filter_map, List.map_map]
    exact List.map_id _
  refine ⟨groups, entry.1.map p, ?_, ?_⟩
  · intro fuel hfuel
    unfold calculateGradient
    rw [hfold, Option.bind_eq_bind, Option.bind_some, hrun fuel hfuel, Option.bind_eq_bind,
      Option.bind_some]
    dsimp only
    rw [Codec.mapM_eq_some_map hremoved]
    rfl
  · rw [hkept]
    have hsub (i : ℕ) (hi : i ∈ groups.flatten) : i ∈ entry.1 :=
      ((hgrouped.mem_iff i).mp hi).1.1
    refine ⟨?_, hgrouped.nonempty, ?_⟩
    · have hdisjoint : ((entry.1.filter fun i => !p i) ++ groups.flatten).Nodup := by
        apply (hnodup.filter _).append hgrouped.nodup
        intro i hi hgroup
        have hout := (List.mem_filter.mp hi).2
        rw [Bool.not_eq_true', decide_eq_false_iff_not] at hout
        exact hout hgroup
      rw [List.perm_ext_iff_of_nodup hdisjoint hnodup]
      intro i
      have hin := hsub i
      simp only [List.mem_append, List.mem_filter, p, Bool.not_eq_true', decide_eq_false_iff_not]
      tauto
    · have hstays (i : ℕ) (hi : i ∈ entry.1) : i ∉ groups.flatten ↔
          g.isCandidate entry.2 orgPartitionIdx i = false ∨
            i ∈ g.left orgPartitionIdx entry.1 (g.candidates entry.2 orgPartitionIdx entry.1) := by
        rw [hgroups i hi, ← hgrouped.flags, not_and_or, Bool.not_eq_true, not_not]
      rw [ne_eq, List.filter_eq_nil_iff]
      unfold KeepsPoint
      push Not
      constructor
      · intro h
        obtain ⟨i, hi, hout⟩ := h
        exact ⟨first, orgPartitionIdx, hfirst, horg, i, hi,
          (hstays i hi).mp (by simpa [p] using hout)⟩
      · intro h
        obtain ⟨first', org', hfirst', horg', i, hi, hstay⟩ := h
        obtain rfl := Option.some.inj (hfirst.symm.trans hfirst')
        obtain rfl := Option.some.inj (horg.symm.trans horg')
        exact ⟨i, hi, by simpa [p] using (hstays i hi).mpr hstay⟩

/-- What the loop over the components leaves, and the groups of all of them. -/
structure Removed (g : GradientSeparation α) (partition : List ℕ) (entries : List (List ℕ × ℕ))
    (components groups : List (List ℕ)) : Prop where
  perm : (components.flatten ++ groups.flatten).Perm (entries.map Prod.fst).flatten
  nonempty : ∀ group ∈ groups, group ≠ []
  subset : ∀ component ∈ components, ∃ entry ∈ entries, component ⊆ entry.1
  kept_iff : (∀ component ∈ components, component ≠ []) ↔
    ∀ entry ∈ entries, g.KeepsPoint partition entry

theorem exists_removed (hadj : g.adj.length = partition.length)
    (hneighbor : ∀ neighbors ∈ g.adj, ∀ n ∈ neighbors, n < partition.length)
    {entries : List (List ℕ × ℕ)} (hnodup : (entries.map Prod.fst).flatten.Nodup)
    (hpoints : ∀ i ∈ (entries.map Prod.fst).flatten, i < partition.length)
    (hnonempty : ∀ entry ∈ entries, entry.1 ≠ []) :
    ∃ components groups, (∀ fuel, partition.length < fuel →
        g.removePoints fuel partition entries = some (components, groups)) ∧
      Removed g partition entries components groups := by
  induction entries with
  | nil => exact ⟨[], [], fun _ _ => rfl, .refl _, nofun, nofun, by simp⟩
  | cons entry entries ih =>
    rw [List.map_cons, List.flatten_cons] at hnodup hpoints
    rw [List.forall_mem_cons] at hnonempty
    obtain ⟨hfirstNodup, hrestNodup, -⟩ := List.nodup_append'.mp hnodup
    obtain ⟨first, hfirst⟩ : ∃ first, entry.1[0]? = some first :=
      ⟨_, List.getElem?_eq_getElem (List.length_pos_of_ne_nil hnonempty.1)⟩
    have hfirstLt := hpoints first (List.mem_append_left _ (List.mem_of_getElem? hfirst))
    have horg := List.getElem?_eq_getElem hfirstLt
    obtain ⟨groups, isRemoved, hrun, hdivided⟩ := exists_divided hadj hneighbor hfirst horg
      hfirstNodup fun i hi => hpoints i (List.mem_append_left _ hi)
    obtain ⟨components, later, hrest, hremoved⟩ := ih hrestNodup
      (fun i hi => hpoints i (List.mem_append_right _ hi)) hnonempty.2
    generalize hkept : ((entry.1.zip isRemoved).filter fun removed => !removed.2).map Prod.fst =
      kept at hdivided
    refine ⟨kept :: components, groups ++ later, ?_, ?_, ?_, ?_, ?_⟩
    · intro fuel hfuel
      unfold removePoints
      rw [hfirst, Option.bind_eq_bind, Option.bind_some, horg, Option.bind_eq_bind,
        Option.bind_some, hrun fuel hfuel, Option.bind_eq_bind, Option.bind_some]
      dsimp only
      rw [hrest fuel hfuel, hkept]
      rfl
    · rw [List.map_cons, List.flatten_cons, List.flatten_cons, List.flatten_append]
      refine List.Perm.trans ?_ (hdivided.perm.append hremoved.perm)
      rw [List.append_assoc, List.append_assoc]
      apply List.Perm.append_left
      rw [← List.append_assoc, ← List.append_assoc]
      exact List.perm_append_comm.append_right _
    · intro group hgroup
      rcases List.mem_append.mp hgroup with hgroup | hgroup
      · exact hdivided.nonempty group hgroup
      · exact hremoved.nonempty group hgroup
    · intro component hcomponent
      rcases List.mem_cons.mp hcomponent with rfl | hcomponent
      · exact ⟨entry, List.mem_cons_self, fun i hi =>
          hdivided.perm.subset (List.mem_append_left _ hi)⟩
      · obtain ⟨later, hlater, hsub⟩ := hremoved.subset component hcomponent
        exact ⟨later, List.mem_cons_of_mem entry hlater, hsub⟩
    · rw [List.forall_mem_cons, List.forall_mem_cons, hdivided.kept_iff, hremoved.kept_iff]

end GradientSeparation

end V3C

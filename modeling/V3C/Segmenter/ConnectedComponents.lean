import Mathlib.Tactic.Choose
import V3C.Graph.FloodFill
import V3C.Store.Cells

/-! The connected components of the raw points, for the whole cloud and for its chunks. -/
namespace V3C

/-- What a search reads: the neighbours, the labels and the distances of the points. -/
structure ComponentSearch (δ : Type) where
  adj : List (List ℕ)
  label : ℕ → Option ℕ
  rawPointsDistance : List δ
  maxAllowedDist2RawPointsDetection : δ

variable {δ : Type} [LT δ] [DecidableLT δ]

/-- The component of a point, and the flags that it leaves. -/
def searchComponent (search : ComponentSearch δ) (fuel i : ℕ) (flags : List Bool) :
    Option FloodFill.Fill := do
  let clusterIndex ← search.label i
  FloodFill.fill search.adj (fun n => (search.label n).map fun label => clusterIndex == label) fuel
    { flags := flags.set i false, fifo := [i], component := [i] }

/-- The loop over the raw points. -/
def searchComponents (search : ComponentSearch δ) (fuel : ℕ) :
    List ℕ → List Bool → Option (List (List ℕ))
  | [], _ => some []
  | i :: rawPoints, flags => do
    let flag ← flags[i]?
    let distance ← search.rawPointsDistance[i]?
    if flag && distance > search.maxAllowedDist2RawPointsDetection then do
      let found ← searchComponent search fuel i flags
      let components ← searchComponents search fuel rawPoints found.flags
      some (found.component :: components)
    else searchComponents search fuel rawPoints flags

/-- The components of `segmentPatches`. A component with too few points is dropped again. -/
def connectedComponents (search : ComponentSearch δ) (fuel pointCount minPointCountPerCC : ℕ)
    (rawPoints : List ℕ) : Option (List (List ℕ)) := do
  let flags ← rawPoints.foldlM (fun flags i => Cells.setAt flags i true)
    (List.replicate pointCount false)
  let components ← searchComponents search fuel rawPoints flags
  some (components.filter fun component => ¬component.length < minPointCountPerCC)

/-- A chunk of the cloud: its points have indices of their own. -/
structure Chunk (δ : Type) where
  adj : List (List ℕ)
  pointsIndex : List ℕ
  rawPoints : List ℕ
  rawPointsDistance : List δ

/-- What the search reads in a chunk: the labels are those of the whole cloud. -/
def Chunk.search (chunk : Chunk δ) (partition : List ℕ) (threshold : δ) : ComponentSearch δ where
  adj := chunk.adj
  label n := (chunk.pointsIndex[n]?).bind fun i => partition[i]?
  rawPointsDistance := chunk.rawPointsDistance
  maxAllowedDist2RawPointsDetection := threshold

/-- The components of a chunk, with the indices of the whole cloud. -/
def Chunk.components (partition : List ℕ) (threshold : δ) (fuel minPointCountPerCC : ℕ)
    (chunk : Chunk δ) : Option (List (List ℕ)) := do
  let components ← connectedComponents (chunk.search partition threshold) fuel
    chunk.pointsIndex.length minPointCountPerCC chunk.rawPoints
  components.mapM fun component => component.mapM fun n => chunk.pointsIndex[n]?

def mergedComponents (partition : List ℕ) (threshold : δ) (fuel minPointCountPerCC : ℕ)
    (chunks : List (Chunk δ)) : Option (List (List ℕ)) := do
  let components ← chunks.mapM (Chunk.components partition threshold fuel minPointCountPerCC)
  some components.flatten

namespace ComponentSearch

/-- A neighbour that is a raw point with a label. -/
def Connected (search : ComponentSearch δ) (rawPoints : List ℕ) (label : Option ℕ) (a b : ℕ) :
    Prop :=
  (∃ neighbors, search.adj[a]? = some neighbors ∧ b ∈ neighbors) ∧ b ∈ rawPoints ∧
    search.label b = label

/-- A component that follows others: the raw points that its seed reaches through raw points of
its label, other than those that have been visited. -/
structure IsComponent (search : ComponentSearch δ) (rawPoints : List ℕ)
    (earlier : List (List ℕ)) (seed : ℕ) (component : List ℕ) : Prop where
  head : component.head? = some seed
  mem_raw : seed ∈ rawPoints
  far : ∃ distance, search.rawPointsDistance[seed]? = some distance ∧
    search.maxAllowedDist2RawPointsDetection < distance
  not_mem : seed ∉ earlier.flatten
  mem_iff : ∀ n, n ∈ component ↔ n ∉ earlier.flatten ∧
    Relation.ReflTransGen (search.Connected rawPoints (search.label seed)) seed n

/-- The components, those that are dropped included. -/
structure ComponentsOf (search : ComponentSearch δ) (rawPoints : List ℕ)
    (components : List (List ℕ)) : Prop where
  nodup : components.flatten.Nodup
  component : ∀ earlier component later, components = earlier ++ component :: later →
    ∃ seed, search.IsComponent rawPoints earlier seed component
  covers : ∀ i ∈ rawPoints, ∀ distance, search.rawPointsDistance[i]? = some distance →
    search.maxAllowedDist2RawPointsDetection < distance →
    ∃! j : ℕ, ∃ component, components[j]? = some component ∧ i ∈ component

/-- The points have neighbours, labels and distances. -/
structure Fits (search : ComponentSearch δ) (pointCount : ℕ) (rawPoints : List ℕ) : Prop where
  adj_length : search.adj.length = pointCount
  neighbor_lt : ∀ neighbors ∈ search.adj, ∀ n ∈ neighbors, n < pointCount
  label : ∀ n < pointCount, ∃ label, search.label n = some label
  distance_length : search.rawPointsDistance.length = pointCount
  raw_lt : ∀ i ∈ rawPoints, i < pointCount

/-- The search ends, and keeps the components with enough points. -/
def Exact (search : ComponentSearch δ) (pointCount minPointCountPerCC : ℕ) (rawPoints : List ℕ) :
    Prop :=
  ∃ components, search.ComponentsOf rawPoints components ∧ ∀ fuel, pointCount < fuel →
    connectedComponents search fuel pointCount minPointCountPerCC rawPoints =
      some (components.filter fun component => minPointCountPerCC ≤ component.length)

end ComponentSearch

/-- The search ends in every chunk, and the components of the chunks are given with the indices of
the whole cloud. -/
def MergedExact (partition : List ℕ) (threshold : δ) (minPointCountPerCC : ℕ)
    (chunks : List (Chunk δ)) : Prop :=
  ∃ found : Chunk δ → List (List ℕ),
    (∀ chunk ∈ chunks,
      (chunk.search partition threshold).ComponentsOf chunk.rawPoints (found chunk) ∧
      ∀ component ∈ found chunk, ∀ n ∈ component, n < chunk.pointsIndex.length) ∧
    ∀ fuel, (∀ chunk ∈ chunks, chunk.pointsIndex.length < fuel) →
      mergedComponents partition threshold fuel minPointCountPerCC chunks =
        some (chunks.flatMap fun chunk =>
          ((found chunk).filter fun component => minPointCountPerCC ≤ component.length).map
            fun component => component.map fun n => chunk.pointsIndex.getD n 0)

namespace ComponentSearch

variable {search : ComponentSearch δ} {pointCount fuel : ℕ} {rawPoints : List ℕ}

/-- What the flags say after the components that have been found: the raw points that are in none
of them are free, and no label leads out of them. -/
structure Searched (search : ComponentSearch δ) (pointCount : ℕ) (rawPoints : List ℕ)
    (earlier : List (List ℕ)) (flags : List Bool) : Prop where
  length : flags.length = pointCount
  flags : ∀ n, flags[n]? = some true ↔ n ∈ rawPoints ∧ n ∉ earlier.flatten
  nodup : earlier.flatten.Nodup
  closed : ∀ a ∈ earlier.flatten, ∀ b, search.Connected rawPoints (search.label a) a b →
    b ∈ earlier.flatten

/-- The nodes that a search for a label may take. -/
def admits (search : ComponentSearch δ) (clusterIndex n : ℕ) : Option Bool :=
  (search.label n).map fun label => clusterIndex == label

omit [LT δ] [DecidableLT δ] in
theorem admits_eq_true {clusterIndex n : ℕ} :
    search.admits clusterIndex n = some true ↔ search.label n = some clusterIndex := by
  unfold admits
  rw [Option.map_eq_some_iff]
  constructor
  · intro h
    obtain ⟨label, hlabel, heq⟩ := h
    rw [hlabel, beq_iff_eq.mp heq]
  · intro h
    exact ⟨clusterIndex, h, beq_self_eq_true clusterIndex⟩

omit [LT δ] [DecidableLT δ] in
theorem Fits.defined (h : search.Fits pointCount rawPoints) (clusterIndex : ℕ) :
    FloodFill.Defined search.adj (search.admits clusterIndex) pointCount where
  length := h.adj_length
  neighbor_lt := h.neighbor_lt
  admits n hn := by
    obtain ⟨label, hlabel⟩ := h.label n hn
    unfold admits
    rw [hlabel]
    exact ⟨_, rfl⟩

section Component

variable {earlier : List (List ℕ)} {flags : List Bool} {i clusterIndex : ℕ}

/-- The flags while the component of a point is searched. -/
theorem getElem?_set_seed (hflag : flags[i]? = some true) (n : ℕ) :
    (flags.set i false)[n]? = some true ↔ flags[n]? = some true ∧ n ≠ i := by
  by_cases hn : n = i
  · subst hn
    rw [List.getElem?_set_self (List.getElem?_eq_some_iff.mp hflag).1]
    exact ⟨nofun, fun h => absurd rfl h.2⟩
  · rw [List.getElem?_set_ne (Ne.symm hn)]
    exact ⟨fun h => ⟨h, hn⟩, And.left⟩

omit [LT δ] [DecidableLT δ] in
/-- A path of the search is one of connected raw points that have not been visited. -/
theorem Searched.reach_iff (h : search.Searched pointCount rawPoints earlier flags)
    (hflag : flags[i]? = some true) (hlabel : search.label i = some clusterIndex) (n : ℕ) :
    Relation.ReflTransGen
        (FloodFill.Edge search.adj (search.admits clusterIndex) (flags.set i false)) i n ↔
      n ∉ earlier.flatten ∧
      Relation.ReflTransGen (search.Connected rawPoints (search.label i)) i n := by
  have hseed := ((h.flags i).mp hflag).2
  have hfree : ∀ n, (flags.set i false)[n]? = some true ↔
      (n ∈ rawPoints ∧ n ∉ earlier.flatten) ∧ n ≠ i := by
    intro n
    rw [getElem?_set_seed hflag, h.flags]
  constructor
  · intro hreach
    induction hreach with
    | refl => exact ⟨hseed, .refl⟩
    | tail _ hedge ih =>
      obtain ⟨hneighbor, hadmits, hset⟩ := hedge
      have hraw := ((hfree _).mp hset).1
      refine ⟨hraw.2, ih.2.tail ⟨hneighbor, hraw.1, ?_⟩⟩
      rw [admits_eq_true.mp hadmits, hlabel]
  · intro hreach
    obtain ⟨hnot, hreach⟩ := hreach
    induction hreach with
    | refl => exact .refl
    | tail hpath hstep ih =>
      rename_i m n
      by_cases hn : n = i
      · rw [hn]
      · have hm : m ∉ earlier.flatten := by
          intro hin
          have hsame : search.label m = search.label i := by
            rcases Relation.ReflTransGen.cases_tail hpath with heq | ⟨c, -, hlast⟩
            · rw [heq]
            · exact hlast.2.2
          rw [← hsame] at hstep
          exact hnot (h.closed m hin n hstep)
        obtain ⟨hneighbor, hraw, hlast⟩ := hstep
        refine (ih hm).tail ⟨hneighbor, ?_, ?_⟩
        · rw [admits_eq_true, hlast, hlabel]
        · exact (hfree n).mpr ⟨⟨hraw, hnot⟩, hn⟩

omit [DecidableLT δ] in
/-- The search from a free point gives its component. -/
theorem Searched.exists_component (h : search.Searched pointCount rawPoints earlier flags)
    (hfits : search.Fits pointCount rawPoints) (hflag : flags[i]? = some true)
    {distance : δ} (hdistance : search.rawPointsDistance[i]? = some distance)
    (hfar : search.maxAllowedDist2RawPointsDetection < distance) :
    ∃ found : FloodFill.Fill, (∀ fuel, pointCount < fuel →
        searchComponent search fuel i flags = some found) ∧
      search.IsComponent rawPoints earlier i found.component ∧
      search.Searched pointCount rawPoints (earlier ++ [found.component]) found.flags := by
  obtain ⟨hraw, hseed⟩ := (h.flags i).mp hflag
  have hlt : i < pointCount := hfits.raw_lt i hraw
  obtain ⟨clusterIndex, hlabel⟩ := hfits.label i hlt
  have hlength : (flags.set i false).length = pointCount := by rw [List.length_set, h.length]
  have hcount : (flags.set i false).count true + 1 ≤ pointCount := by
    rw [FloodFill.count_set_false hflag, ← h.length]
    exact List.count_le_length
  have hdefined : FloodFill.Defined search.adj (search.admits clusterIndex)
      (flags.set i false).length := by
    rw [hlength]
    exact hfits.defined clusterIndex
  have hstart : FloodFill.Filling search.adj (search.admits clusterIndex) (flags.set i false) i
      (fun _ _ => False) ⟨flags.set i false, [i], [i]⟩ :=
    .start (by rwa [hlength]) (List.getElem?_set_self (List.getElem?_eq_some_iff.mp hflag).1)
  obtain ⟨found, hfilling, hnil, hfill⟩ := hstart.exists_fill hdefined
  have hmem : ∀ n, n ∈ found.component ↔ n ∉ earlier.flatten ∧
      Relation.ReflTransGen (search.Connected rawPoints (search.label i)) i n :=
    fun n => (hfilling.mem_iff hnil n).trans (h.reach_iff hflag hlabel n)
  have hin : i ∈ found.component := (hmem i).mpr ⟨hseed, .refl⟩
  have hflatten : (earlier ++ [found.component]).flatten = earlier.flatten ++ found.component := by
    rw [List.flatten_append, List.flatten_singleton]
  refine ⟨found, ?_, ?_, ?_⟩
  · intro fuel hfuel
    unfold searchComponent
    rw [hlabel]
    apply hfill
    unfold FloodFill.Fill.work
    dsimp only
    rw [List.length_singleton]
    omega
  · exact ⟨hfilling.head, hraw, ⟨distance, hdistance, hfar⟩, hseed, hmem⟩
  · constructor
    · rw [hfilling.length, hlength]
    · intro n
      rw [hfilling.flags, getElem?_set_seed hflag, h.flags, hflatten, List.mem_append, not_or]
      constructor
      · intro hn
        exact ⟨hn.1.1.1, hn.1.1.2, hn.2⟩
      · intro hn
        refine ⟨⟨⟨hn.1, hn.2.1⟩, ?_⟩, hn.2.2⟩
        intro heq
        rw [heq] at hn
        exact hn.2.2 hin
    · rw [hflatten]
      apply h.nodup.append hfilling.nodup
      intro n hearlier hcomponent
      exact ((hmem n).mp hcomponent).1 hearlier
    · intro a ha b hstep
      rw [hflatten] at ha ⊢
      by_cases hb : b ∈ earlier.flatten
      · exact List.mem_append_left _ hb
      · rcases List.mem_append.mp ha with hearlier | hcomponent
        · exact absurd (h.closed a hearlier b hstep) hb
        · have hpath := ((hmem a).mp hcomponent).2
          have hsame : search.label a = search.label i := by
            rcases Relation.ReflTransGen.cases_tail hpath with heq | ⟨c, -, hlast⟩
            · rw [heq]
            · exact hlast.2.2
          rw [hsame] at hstep
          exact List.mem_append_right _ ((hmem b).mpr ⟨hb, hpath.tail hstep⟩)

end Component

/-- The loop over the raw points that are left finds components after the earlier ones. -/
theorem Searched.exists_components {earlier : List (List ℕ)} {flags : List Bool} {rest : List ℕ}
    (h : search.Searched pointCount rawPoints earlier flags)
    (hfits : search.Fits pointCount rawPoints) (hrest : ∀ i ∈ rest, i ∈ rawPoints) :
    ∃ found, (∀ fuel, pointCount < fuel → searchComponents search fuel rest flags = some found) ∧
      (earlier ++ found).flatten.Nodup ∧
      (∀ before component after, found = before ++ component :: after →
        ∃ seed, search.IsComponent rawPoints (earlier ++ before) seed component) ∧
      ∀ i ∈ rest, ∀ distance, search.rawPointsDistance[i]? = some distance →
        search.maxAllowedDist2RawPointsDetection < distance → i ∈ (earlier ++ found).flatten := by
  induction rest generalizing earlier flags with
  | nil =>
    refine ⟨[], fun _ _ => rfl, ?_, ?_, nofun⟩
    · rw [List.append_nil]
      exact h.nodup
    · intro before component after hsplit
      exact absurd hsplit.symm (by simp)
  | cons i rest ih =>
    have hraw := hrest i List.mem_cons_self
    have hrest' : ∀ j ∈ rest, j ∈ rawPoints := fun j hj => hrest j (List.mem_cons_of_mem i hj)
    have hlt := hfits.raw_lt i hraw
    have hbound : i < flags.length := by rwa [h.length]
    have hflag := List.getElem?_eq_getElem hbound
    generalize flags[i] = flag at hflag
    have hdistanceBound : i < search.rawPointsDistance.length := by rwa [hfits.distance_length]
    have hdistance := List.getElem?_eq_getElem hdistanceBound
    generalize search.rawPointsDistance[i] = distance at hdistance
    by_cases hseed : flag = true ∧ search.maxAllowedDist2RawPointsDetection < distance
    · obtain ⟨rfl, hfar⟩ := hseed
      obtain ⟨first, hfirst, hcomponent, hsearched⟩ :=
        h.exists_component hfits hflag hdistance hfar
      obtain ⟨found, hrun, hnodup, hcomponents, hcovers⟩ := ih hsearched hrest'
      rw [List.append_assoc, List.singleton_append] at hnodup hcovers
      refine ⟨first.component :: found, ?_, hnodup, ?_, ?_⟩
      · intro fuel hfuel
        unfold searchComponents
        rw [hflag, Option.bind_eq_bind, Option.bind_some, hdistance, Option.bind_eq_bind,
          Option.bind_some, if_pos (by simpa using hfar), hfirst fuel hfuel, Option.bind_eq_bind,
          Option.bind_some, hrun fuel hfuel]
        rfl
      · intro before component after hsplit
        cases before with
        | nil =>
          obtain ⟨rfl, -⟩ := List.cons.inj hsplit
          rw [List.append_nil]
          exact ⟨i, hcomponent⟩
        | cons c before =>
          obtain ⟨rfl, hsplit'⟩ := List.cons.inj hsplit
          have hlater := hcomponents before component after hsplit'
          rwa [List.append_assoc, List.singleton_append] at hlater
      · intro j hj d hd hjfar
        rcases List.mem_cons.mp hj with rfl | hj
        · have hin : j ∈ first.component := List.mem_of_head? hcomponent.head
          rw [List.flatten_append, List.flatten_cons]
          exact List.mem_append_right _ (List.mem_append_left _ hin)
        · exact hcovers j hj d hd hjfar
    · obtain ⟨found, hrun, hnodup, hcomponents, hcovers⟩ := ih h hrest'
      refine ⟨found, ?_, hnodup, hcomponents, ?_⟩
      · intro fuel hfuel
        unfold searchComponents
        rw [hflag, Option.bind_eq_bind, Option.bind_some, hdistance, Option.bind_eq_bind,
          Option.bind_some, if_neg (by simpa using hseed)]
        exact hrun fuel hfuel
      · intro j hj d hd hjfar
        rcases List.mem_cons.mp hj with rfl | hj
        · obtain rfl := Option.some.inj (hdistance.symm.trans hd)
          have hvisited : j ∈ earlier.flatten := by
            by_contra hnot
            have hfree := (h.flags j).mpr ⟨hraw, hnot⟩
            exact hseed ⟨Option.some.inj (hflag.symm.trans hfree), hjfar⟩
          rw [List.flatten_append]
          exact List.mem_append_left _ hvisited
        · exact hcovers j hj d hd hjfar

/-- The loop that marks the raw points. -/
theorem exists_flags (rawPoints : List ℕ) (flags : List Bool)
    (hraw : ∀ i ∈ rawPoints, i < flags.length) :
    ∃ flags', rawPoints.foldlM (fun flags i => Cells.setAt flags i true) flags = some flags' ∧
      flags'.length = flags.length ∧
      ∀ n, flags'[n]? = some true ↔ n ∈ rawPoints ∨ flags[n]? = some true := by
  induction rawPoints generalizing flags with
  | nil => exact ⟨flags, rfl, rfl, fun n => by simp⟩
  | cons i rawPoints ih =>
    have hi := hraw i List.mem_cons_self
    obtain ⟨flags', hfold, hlength, hflags⟩ := ih (flags.set i true) fun j hj => by
      rw [List.length_set]
      exact hraw j (List.mem_cons_of_mem i hj)
    refine ⟨flags', ?_, by rw [hlength, List.length_set], ?_⟩
    · have hset : Cells.setAt flags i true = some (flags.set i true) := if_pos hi
      rw [List.foldlM_cons, hset]
      exact hfold
    · intro n
      rw [hflags, List.mem_cons, or_comm (a := n = i), or_assoc]
      apply or_congr_right
      by_cases hn : n = i
      · subst hn
        rw [List.getElem?_set_self hi]
        exact ⟨fun _ => Or.inl rfl, fun _ => rfl⟩
      · rw [List.getElem?_set_ne (Ne.symm hn)]
        exact ⟨Or.inr, fun h => h.resolve_left hn⟩

/-- Members of lists that are disjoint are in one of them. -/
theorem existsUnique_of_mem_flatten {lists : List (List ℕ)} (hnodup : lists.flatten.Nodup) {i : ℕ}
    (hi : i ∈ lists.flatten) : ∃! j : ℕ, ∃ l, lists[j]? = some l ∧ i ∈ l := by
  apply Codec.existsUnique_getElem?
  · apply (List.nodup_flatten.mp hnodup).2.imp
    intro l l' hdisjoint hboth
    exact hdisjoint hboth.1 hboth.2
  · exact List.mem_flatten.mp hi

omit [DecidableLT δ] in
theorem IsComponent.subset {earlier : List (List ℕ)} {seed : ℕ} {component : List ℕ}
    (h : search.IsComponent rawPoints earlier seed component) : ∀ n ∈ component, n ∈ rawPoints := by
  intro n hn
  rcases Relation.ReflTransGen.cases_tail ((h.mem_iff n).mp hn).2 with heq | ⟨c, -, hlast⟩
  · rw [heq]
    exact h.mem_raw
  · exact hlast.2.1

omit [DecidableLT δ] in
theorem ComponentsOf.subset {components : List (List ℕ)}
    (h : search.ComponentsOf rawPoints components) :
    ∀ component ∈ components, ∀ n ∈ component, n ∈ rawPoints := by
  intro component hmem
  obtain ⟨earlier, later, hsplit⟩ := List.append_of_mem hmem
  obtain ⟨seed, hcomponent⟩ := h.component earlier component later hsplit
  exact hcomponent.subset

theorem Fits.exact (h : search.Fits pointCount rawPoints) (minPointCountPerCC : ℕ) :
    search.Exact pointCount minPointCountPerCC rawPoints := by
  obtain ⟨flags, hfold, hlength, hflags⟩ := exists_flags rawPoints (List.replicate pointCount false) (by
      rw [List.length_replicate]
      exact h.raw_lt)
  rw [List.length_replicate] at hlength
  have hnone : ∀ n : ℕ, (List.replicate pointCount false)[n]? ≠ some true := by
    intro n hn
    rw [List.getElem?_replicate] at hn
    split_ifs at hn
    cases hn
  have hstart : search.Searched pointCount rawPoints [] flags := by
    constructor
    · exact hlength
    · intro n
      rw [hflags, or_iff_left (hnone n)]
      exact ⟨fun hn => ⟨hn, List.not_mem_nil⟩, And.left⟩
    · exact List.nodup_nil
    · exact nofun
  obtain ⟨found, hrun, hnodup, hcomponents, hcovers⟩ := hstart.exists_components h fun i hi => hi
  rw [List.nil_append] at hnodup hcovers
  refine ⟨found, ⟨hnodup, hcomponents, ?_⟩, ?_⟩
  · intro i hi distance hdistance hfar
    exact existsUnique_of_mem_flatten hnodup (hcovers i hi distance hdistance hfar)
  · intro fuel hfuel
    unfold connectedComponents
    rw [hfold, Option.bind_eq_bind, Option.bind_some, hrun fuel hfuel]
    simp only [Nat.not_lt]
    rfl

end ComponentSearch

/-- The points of a chunk are points of the cloud, with labels. -/
structure Chunk.Fits (chunk : Chunk δ) (partition : List ℕ) : Prop where
  adj_length : chunk.adj.length = chunk.pointsIndex.length
  neighbor_lt : ∀ neighbors ∈ chunk.adj, ∀ n ∈ neighbors, n < chunk.pointsIndex.length
  index_lt : ∀ i ∈ chunk.pointsIndex, i < partition.length
  distance_length : chunk.rawPointsDistance.length = chunk.pointsIndex.length
  raw_lt : ∀ i ∈ chunk.rawPoints, i < chunk.pointsIndex.length

section Chunks

variable {partition : List ℕ} {chunk : Chunk δ}

omit [LT δ] [DecidableLT δ] in
theorem Chunk.Fits.search (h : chunk.Fits partition) (threshold : δ) :
    (chunk.search partition threshold).Fits chunk.pointsIndex.length chunk.rawPoints where
  adj_length := h.adj_length
  neighbor_lt := h.neighbor_lt
  label n hn := by
    have hindex := List.getElem?_eq_getElem hn
    have hlabel := List.getElem?_eq_getElem (h.index_lt _ (List.getElem_mem hn))
    unfold Chunk.search
    dsimp only
    rw [hindex, Option.bind_some, hlabel]
    exact ⟨_, rfl⟩
  distance_length := h.distance_length
  raw_lt := h.raw_lt

theorem Chunk.Fits.exists_components (h : chunk.Fits partition) (threshold : δ)
    (minPointCountPerCC : ℕ) :
    ∃ found, ((chunk.search partition threshold).ComponentsOf chunk.rawPoints found ∧
        ∀ component ∈ found, ∀ n ∈ component, n < chunk.pointsIndex.length) ∧
      ∀ fuel, chunk.pointsIndex.length < fuel →
        Chunk.components partition threshold fuel minPointCountPerCC chunk =
          some ((found.filter fun component => minPointCountPerCC ≤ component.length).map
            fun component => component.map fun n => chunk.pointsIndex.getD n 0) := by
  obtain ⟨found, hfound, hrun⟩ := (h.search threshold).exact minPointCountPerCC
  have hbounds : ∀ component ∈ found, ∀ n ∈ component, n < chunk.pointsIndex.length :=
    fun component hmem n hn => h.raw_lt n (hfound.subset component hmem n hn)
  refine ⟨found, ⟨hfound, hbounds⟩, ?_⟩
  intro fuel hfuel
  unfold Chunk.components
  rw [hrun fuel hfuel]
  apply Codec.mapM_eq_some_map
  intro component hmem
  apply Codec.mapM_eq_some_map
  intro n hn
  have hlt := hbounds component (List.mem_of_mem_filter hmem) n hn
  rw [List.getD_eq_getElem?_getD, List.getElem?_eq_getElem hlt, Option.getD_some]

theorem mergedExact {chunks : List (Chunk δ)} (h : ∀ chunk ∈ chunks, chunk.Fits partition)
    (threshold : δ) (minPointCountPerCC : ℕ) :
    MergedExact partition threshold minPointCountPerCC chunks := by
  choose! found hfound using fun chunk (hmem : chunk ∈ chunks) =>
    (h chunk hmem).exists_components threshold minPointCountPerCC
  refine ⟨found, fun chunk hmem => (hfound chunk hmem).1, ?_⟩
  intro fuel hfuel
  unfold mergedComponents
  rw [Codec.mapM_eq_some_map fun chunk hmem => (hfound chunk hmem).2 fuel (hfuel chunk hmem)]
  rw [List.flatMap_def]
  rfl

/-- The searches for connected components end with the components, for a cloud and for chunks. -/
theorem connectedComponents_exact {search : ComponentSearch δ} {pointCount : ℕ}
    {rawPoints : List ℕ} {chunks : List (Chunk δ)} (h : search.Fits pointCount rawPoints)
    (hchunks : ∀ chunk ∈ chunks, chunk.Fits partition) (threshold : δ)
    (minPointCountPerCC : ℕ) :
    search.Exact pointCount minPointCountPerCC rawPoints ∧
      MergedExact partition threshold minPointCountPerCC chunks :=
  ⟨h.exact minPointCountPerCC, mergedExact hchunks threshold minPointCountPerCC⟩

end Chunks

/-- Three points of which the last is a neighbour of none, and has another label. -/
def threePoints : Chunk ℕ where
  adj := [[1], [0, 1], [0, 1]]
  pointsIndex := [3, 1, 2]
  rawPoints := [2, 0, 1]
  rawPointsDistance := [8, 8, 9]

theorem connectedComponents_exact_threePoints :
    (threePoints.search [5, 6, 7, 6] 4).Exact 3 2 [2, 0, 1] ∧
      MergedExact [5, 6, 7, 6] 4 2 [threePoints] := by
  have hfits : threePoints.Fits [5, 6, 7, 6] :=
    { adj_length := by decide
      neighbor_lt := by decide
      index_lt := by decide
      distance_length := by decide
      raw_lt := by decide }
  have hchunks : ∀ chunk ∈ [threePoints], chunk.Fits [5, 6, 7, 6] := by
    intro chunk hchunk
    rw [List.mem_singleton.mp hchunk]
    exact hfits
  exact connectedComponents_exact (hfits.search 4) hchunks 4 2

example : connectedComponents (threePoints.search [5, 6, 7, 6] 4) 4 3 2 [2, 0, 1] =
    some [[0, 1]] := by decide

end V3C

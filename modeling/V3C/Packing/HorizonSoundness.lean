import V3C.Codec.Traverse
import V3C.Packing.PackTetris
import V3C.Packing.PackingSoundness

/-! The horizon lies at or below every block that was placed, for all nine orientations. -/
namespace V3C
open Cells

namespace PackingPatch

theorem climb_spec {occupied : ℕ → Option Bool} {left start horizon : ℕ}
    (h : climb occupied left start = some horizon) :
    ∀ j, start ≤ j → j ≤ start + left → occupied j = some true → horizon ≤ j := by
  induction left generalizing start with
  | zero =>
    intro j hstart hj _
    obtain ⟨value, -, rfl⟩ := Option.map_eq_some_iff.mp h
    exact hstart
  | succ left ih =>
    intro j hstart hj hoccupied
    obtain ⟨value, hvalue, h⟩ := Option.bind_eq_some_iff.mp h
    cases value with
    | true =>
      obtain rfl : start = horizon := by simpa using h
      exact hstart
    | false =>
      have hnext : climb occupied left (start + 1) = some horizon := by simpa using h
      have hne : start ≠ j := by
        rintro rfl
        rw [hvalue] at hoccupied
        cases hoccupied
      exact ih hnext j (by omega) (by omega) hoccupied

/-- A block of the patch that is occupied. -/
def OccupiedAt (patch : PackingPatch) (u v : ℕ) : Prop :=
  patch.occupancy[v * patch.sizeU0 + u]? = some true

/-- Each distance is at most that of an occupied block of its row or column. -/
structure SidesOf (patch : PackingPatch) (h : PatchHorizons) : Prop where
  top : ∀ u < patch.sizeU0, ∃ d, h.topHorizon[u]? = some d ∧
    ∀ v < patch.sizeV0, patch.OccupiedAt u v → d ≤ patch.sizeV0 - 1 - v
  bottom : ∀ u < patch.sizeU0, ∃ d, h.bottomHorizon[u]? = some d ∧
    ∀ v < patch.sizeV0, patch.OccupiedAt u v → d ≤ v
  right : ∀ v < patch.sizeV0, ∃ d, h.rightHorizon[v]? = some d ∧
    ∀ u < patch.sizeU0, patch.OccupiedAt u v → d ≤ patch.sizeU0 - 1 - u
  left : ∀ v < patch.sizeV0, ∃ d, h.leftHorizon[v]? = some d ∧
    ∀ u < patch.sizeU0, patch.OccupiedAt u v → d ≤ u

/-- What a loop over a range stored at an index. -/
theorem getElem?_of_mapM_range {f : ℕ → Option ℕ} {n i : ℕ} {values : List ℕ}
    (h : (List.range n).mapM f = some values) (hi : i < n) :
    ∃ d, values[i]? = some d ∧ f i = some d := by
  have hkey : (List.range n)[i]? = some i := List.getElem?_range hi
  have hread : readAll (fun (_ : Unit) k => f k) (List.range n) () = some values := h
  have hlength := length_of_readAll hread
  rw [List.length_range] at hlength
  have hvalue := get_of_readAll hread hkey
  rw [List.getElem?_eq_getElem (by omega)] at hvalue ⊢
  exact ⟨values[i], rfl, hvalue⟩

theorem sidesOf_getPatchHorizons {patch : PackingPatch} {h : PatchHorizons}
    (hsides : patch.getPatchHorizons = some h) : patch.SidesOf h := by
  unfold getPatchHorizons at hsides
  split_ifs at hsides
  obtain ⟨top, htop, hsides⟩ := Option.bind_eq_some_iff.mp hsides
  obtain ⟨bottom, hbottom, hsides⟩ := Option.bind_eq_some_iff.mp hsides
  obtain ⟨right, hright, hsides⟩ := Option.bind_eq_some_iff.mp hsides
  obtain ⟨left, hleft, hsides⟩ := Option.bind_eq_some_iff.mp hsides
  obtain rfl := Option.some.inj hsides
  constructor
  · intro u hu
    obtain ⟨d, hd, hclimb⟩ := getElem?_of_mapM_range htop hu
    refine ⟨d, hd, fun v hv hoccupied => ?_⟩
    apply climb_spec hclimb (patch.sizeV0 - 1 - v) (Nat.zero_le _) (by omega)
    rwa [show patch.sizeV0 - 1 - (patch.sizeV0 - 1 - v) = v by omega]
  · intro u hu
    obtain ⟨d, hd, hclimb⟩ := getElem?_of_mapM_range hbottom hu
    exact ⟨d, hd, fun v hv hoccupied =>
      climb_spec hclimb v (Nat.zero_le _) (by omega) hoccupied⟩
  · intro v hv
    obtain ⟨d, hd, hclimb⟩ := getElem?_of_mapM_range hright hv
    refine ⟨d, hd, fun u hu hoccupied => ?_⟩
    apply climb_spec hclimb (patch.sizeU0 - 1 - u) (Nat.zero_le _) (by omega)
    rwa [show patch.sizeU0 - 1 - (patch.sizeU0 - 1 - u) = u by omega]
  · intro v hv
    obtain ⟨d, hd, hclimb⟩ := getElem?_of_mapM_range hleft hv
    exact ⟨d, hd, fun u hu hoccupied =>
      climb_spec hclimb u (Nat.zero_le _) (by omega) hoccupied⟩

variable {patch : PackingPatch} {h : PatchHorizons}

/-- The profiles do not depend on the place of the patch. -/
theorem SidesOf.turn (hsides : patch.SidesOf h) (u0 v0 : ℕ) (orientation : PatchOrientation) :
    { patch with u0 := u0, v0 := v0, patchOrientation := orientation }.SidesOf h :=
  ⟨hsides.top, hsides.bottom, hsides.right, hsides.left⟩

/-- The turned profiles of the column of a block, which enclose it where it is occupied. -/
theorem rows_of_block (hsides : patch.SidesOf h) (horiented : patch.Oriented) {u v : ℕ}
    (hu : u < patch.sizeU0) (hv : v < patch.sizeV0) :
    (patch.patchOrientation.place patch.sizeU0 patch.sizeV0 u v).1 < patch.columns ∧
    (∃ row, patch.firstRow h (patch.patchOrientation.place patch.sizeU0 patch.sizeV0 u v).1 =
        some row ∧ (patch.OccupiedAt u v →
          row ≤ (patch.patchOrientation.place patch.sizeU0 patch.sizeV0 u v).2)) ∧
    ∃ row, patch.lastRow h (patch.patchOrientation.place patch.sizeU0 patch.sizeV0 u v).1 =
        some row ∧ (patch.OccupiedAt u v →
          (patch.patchOrientation.place patch.sizeU0 patch.sizeV0 u v).2 ≤ row) := by
  obtain ⟨top, htop, htop_le⟩ := hsides.top u hu
  obtain ⟨bottom, hbottom, hbottom_le⟩ := hsides.bottom u hu
  obtain ⟨right, hright, hright_le⟩ := hsides.right v hv
  obtain ⟨left, hleft, hleft_le⟩ := hsides.left v hv
  have htop' := htop_le v hv
  have hbottom' := hbottom_le v hv
  have hright' := hright_le u hu
  have hleft' := hleft_le u hu
  have hbackU : patch.sizeU0 - 1 - (patch.sizeU0 - 1 - u) = u := by omega
  have hbackV : patch.sizeV0 - 1 - (patch.sizeV0 - 1 - v) = v := by omega
  unfold columns firstRow lastRow
  cases horientation : patch.patchOrientation with
  | other value => exact absurd horientation (horiented value)
  | _ =>
    simp only [PatchOrientation.place, hbackU, hbackV, htop, hbottom, hright, hleft,
      Option.map_some, Option.some.injEq, exists_eq_left']
    refine ⟨by omega, fun hoccupied => ?_, fun hoccupied => ?_⟩ <;>
    · have := htop' hoccupied
      have := hbottom' hoccupied
      have := hright' hoccupied
      have := hleft' hoccupied
      omega

theorem columns_eq_sides (horiented : patch.Oriented) :
    patch.columns = (patch.patchOrientation.sides patch.sizeU0 patch.sizeV0).1 := by
  unfold columns
  cases horientation : patch.patchOrientation with
  | other value => exact absurd horientation (horiented value)
  | _ => rfl

/-- Every column of the turned patch has its profiles. -/
theorem exists_rows (hsides : patch.SidesOf h) (horiented : patch.Oriented)
    (hsizes : 0 < patch.sizeU0 ∧ 0 < patch.sizeV0) {idx : ℕ} (hidx : idx < patch.columns) :
    (∃ row, patch.firstRow h idx = some row) ∧ ∃ row, patch.lastRow h idx = some row := by
  rw [columns_eq_sides horiented] at hidx
  have hrow : 0 < (patch.patchOrientation.sides patch.sizeU0 patch.sizeV0).2 := by
    cases patch.patchOrientation
    all_goals first | exact hsizes.1 | exact hsizes.2
  obtain ⟨u, hu, v, hv, hplace⟩ := patch.patchOrientation.exists_place hidx hrow
  obtain ⟨-, ⟨first, hfirst, -⟩, last, hlast, -⟩ := rows_of_block hsides horiented hu hv
  rw [hplace] at hfirst hlast
  exact ⟨⟨first, hfirst⟩, last, hlast⟩

end PackingPatch

/-- The columns of a horizon stay and no entry gets smaller. -/
structure HorizonRises (horizon horizon' : List ℕ) : Prop where
  length : horizon'.length = horizon.length
  entry : ∀ x last : ℕ, horizon[x]? = some last → ∃ last' : ℕ,
    horizon'[x]? = some last' ∧ last ≤ last'

theorem HorizonRises.refl (horizon : List ℕ) : HorizonRises horizon horizon :=
  ⟨rfl, fun _ last h => ⟨last, h, Nat.le_refl last⟩⟩

theorem HorizonRises.trans {a b c : List ℕ} (hab : HorizonRises a b) (hbc : HorizonRises b c) :
    HorizonRises a c where
  length := hbc.length.trans hab.length
  entry x last h := by
    obtain ⟨last', h', hle⟩ := hab.entry x last h
    obtain ⟨last'', h'', hle'⟩ := hbc.entry x last' h'
    exact ⟨last'', h'', hle.trans hle'⟩

theorem horizonRises_set {horizon : List ℕ} {x last newVal : ℕ} (h : horizon[x]? = some last)
    (hle : last ≤ newVal) : HorizonRises horizon (horizon.set x newVal) where
  length := List.length_set
  entry x' last' h' := by
    by_cases hx : x = x'
    · subst hx
      rw [h, Option.some.injEq] at h'
      rw [List.getElem?_set_self (List.getElem?_eq_some_iff.mp h).1]
      exact ⟨newVal, rfl, h' ▸ hle⟩
    · rw [List.getElem?_set_ne hx]
      exact ⟨last', h', Nat.le_refl last'⟩

namespace PackingPatch

variable {patch : PackingPatch} {h : PatchHorizons} {horizon horizon' : List ℕ}

/-- The entry of a column is at least the last row of the patch there. -/
def RaisedAt (patch : PackingPatch) (h : PatchHorizons) (horizon : List ℕ) (idx : ℕ) : Prop :=
  ∃ row last, patch.lastRow h idx = some row ∧ horizon[patch.u0 + idx]? = some last ∧
    patch.v0 + row ≤ last

theorem RaisedAt.rises {idx : ℕ} (hraised : patch.RaisedAt h horizon idx)
    (hrises : HorizonRises horizon horizon') : patch.RaisedAt h horizon' idx := by
  obtain ⟨row, last, hrow, hlast, hle⟩ := hraised
  obtain ⟨last', hlast', hle'⟩ := hrises.entry _ last hlast
  exact ⟨row, last', hrow, hlast', hle.trans hle'⟩

theorem raiseColumn_spec {idx : ℕ} (hraise : patch.raiseColumn h horizon idx = some horizon') :
    HorizonRises horizon horizon' ∧ patch.RaisedAt h horizon' idx := by
  obtain ⟨row, hrow, hraise⟩ := Option.bind_eq_some_iff.mp hraise
  obtain ⟨last, hlast, hraise⟩ := Option.bind_eq_some_iff.mp hraise
  dsimp only at hraise
  have hlt := (List.getElem?_eq_some_iff.mp hlast).1
  by_cases hnew : patch.v0 + row > last
  · rw [if_pos hnew, setAt, if_pos hlt] at hraise
    obtain rfl := Option.some.inj hraise
    refine ⟨horizonRises_set hlast (Nat.le_of_lt hnew), row, patch.v0 + row, hrow, ?_, Nat.le_refl _⟩
    exact List.getElem?_set_self hlt
  · rw [if_neg hnew] at hraise
    obtain rfl := Option.some.inj hraise
    exact ⟨.refl horizon, row, last, hrow, hlast, Nat.le_of_not_gt hnew⟩

theorem updateHorizon_spec (hupdate : patch.updateHorizon horizon h = some horizon') :
    HorizonRises horizon horizon' ∧ ∀ idx < patch.columns, patch.RaisedAt h horizon' idx := by
  have hinv := Codec.inv_of_foldlM (P := fun visited horizon' =>
      HorizonRises horizon horizon' ∧ ∀ idx ∈ visited, patch.RaisedAt h horizon' idx)
    hupdate ⟨.refl horizon, by simp⟩ (by
      rintro visited idx next next' - ⟨hrises, hraised⟩ hstep
      obtain ⟨hrises', hraised'⟩ := raiseColumn_spec hstep
      refine ⟨hrises.trans hrises', fun i hi => ?_⟩
      rcases List.mem_append.mp hi with hi | hi
      · exact (hraised i hi).rises hrises'
      · rw [List.mem_singleton.mp hi]
        exact hraised')
  exact ⟨hinv.1, fun idx hidx => hinv.2 idx (List.mem_range.mpr hidx)⟩

/-- A column of a patch that lies within the horizon. -/
theorem exists_raiseColumn {idx row : ℕ} (hrow : patch.lastRow h idx = some row)
    (hin : patch.u0 + idx < horizon.length) :
    ∃ horizon', patch.raiseColumn h horizon idx = some horizon' := by
  unfold raiseColumn setAt
  rw [hrow, List.getElem?_eq_getElem hin]
  dsimp only [Option.bind_eq_bind, Option.bind_some]
  rw [if_pos hin]
  split_ifs
  · exact ⟨_, rfl⟩
  · exact ⟨_, rfl⟩

/-- Nothing is read or written past the horizon once a patch lies on the canvas. -/
theorem exists_updateHorizon (hsides : patch.SidesOf h) (horiented : patch.Oriented)
    (hsizes : 0 < patch.sizeU0 ∧ 0 < patch.sizeV0)
    (hin : patch.u0 + patch.columns ≤ horizon.length) :
    ∃ horizon', patch.updateHorizon horizon h = some horizon' := by
  obtain ⟨horizon', hupdate, -⟩ := Codec.exists_foldlM
    (P := fun _ (next : List ℕ) => next.length = horizon.length) (l := List.range patch.columns)
    (by
      intro visited idx next hvisited hlength
      have hidx : idx < patch.columns :=
        List.mem_range.mp (Codec.mem_and_notMem_of_prefix hvisited List.nodup_range).1
      obtain ⟨row, hrow⟩ := (exists_rows hsides horiented hsizes hidx).2
      obtain ⟨next', hnext⟩ := exists_raiseColumn hrow (show patch.u0 + idx < next.length by omega)
      exact ⟨next', hnext, (raiseColumn_spec hnext).1.length.trans hlength⟩)
    (rfl : horizon.length = horizon.length)
  exact ⟨horizon', hupdate⟩

end PackingPatch

end V3C

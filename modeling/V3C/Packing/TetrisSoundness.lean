import V3C.Packing.GuardedRectangle
import V3C.Packing.HorizonSoundness
import V3C.Packing.WideCanvas

/-! Patches that are placed above the horizon lie above all that were placed before; the horizon is
read past its end while their places are tried. -/
namespace V3C

namespace PackingPatch

variable {patch : PackingPatch} {h : PatchHorizons}

/-- An occupied block lies between the turned profiles of its column. -/
theorem Occupies.profile (hsides : patch.SidesOf h) (horiented : patch.Oriented)
    (hx : patch.u0 + (patch.patchOrientation.sides patch.sizeU0 patch.sizeV0).1 ≤ 2 ^ 64)
    (hy : patch.v0 + (patch.patchOrientation.sides patch.sizeU0 patch.sizeV0).2 ≤ 2 ^ 64)
    {x y : ℕ} (hoccupies : patch.Occupies x y) :
    ∃ idx < patch.columns, x = patch.u0 + idx ∧
      (∃ row, patch.firstRow h idx = some row ∧ patch.v0 + row ≤ y) ∧
      ∃ row, patch.lastRow h idx = some row ∧ y ≤ patch.v0 + row := by
  obtain ⟨u, hu, v, hv, hpos, hoccupied⟩ := hoccupies
  rw [PatchPlacement.blockPosition_eq_place horiented hu hv hx hy] at hpos
  obtain ⟨rfl, rfl⟩ := Prod.mk.inj (Option.some.inj hpos)
  obtain ⟨hcolumn, ⟨first, hfirst, hle⟩, last, hlast, hle'⟩ :=
    rows_of_block hsides horiented hu hv
  exact ⟨_, hcolumn, rfl, ⟨first, hfirst, Nat.add_le_add_left (hle hoccupied) _⟩,
    last, hlast, Nat.add_le_add_left (hle' hoccupied) _⟩

end PackingPatch

namespace PCCEncoder

/-- A place that the loop takes for a patch: above the horizon and free on the canvas. The members
of the patch are of type `size_t`. -/
structure Accepted (past : ℕ → Option ℕ) (params : PackingParams) (safeguard : ℕ)
    (patch : PackingPatch) (h : PatchHorizons) (canvas : BlockCanvas) (s : TetrisState) : Prop where
  oriented : patch.Oriented
  sizes : 0 < patch.sizeU0 ∧ 0 < patch.sizeV0
  corner : patch.u0 < 2 ^ 64 ∧ patch.v0 < 2 ^ 64
  horizons : patch.getPatchHorizons = some h
  grown : s.occupancyMap.Extends canvas
  above : patch.isPatchLocationAboveHorizon past s.horizon h = some true
  fits : patch.checkFitPatchCanvas canvas params.lowDelayEncoding safeguard = some true

/-- Patches placed one after the other, each turned in any way. -/
inductive TetrisRun (past : ℕ → Option ℕ) (params : PackingParams) (safeguard : ℕ)
    (start : TetrisState) : List PackingPatch → TetrisState → Prop
  | start : TetrisRun past params safeguard start [] start
  | place {placed : List PackingPatch} {patch : PackingPatch} {h : PatchHorizons}
      {canvas : BlockCanvas} {s s' : TetrisState} :
      TetrisRun past params safeguard start placed s →
      Accepted past params safeguard patch h canvas s →
      settlePatch params patch h canvas s = some (patch, s') →
      TetrisRun past params safeguard start (placed ++ [patch]) s'

/-- The horizon is at or below every occupied block. -/
def Covered (placed : List PackingPatch) (horizon : List ℕ) : Prop :=
  ∀ patch ∈ placed, ∀ x y, patch.Occupies x y → ∃ last, horizon[x]? = some last ∧ y ≤ last

section

variable {past : ℕ → Option ℕ} {params : PackingParams} {safeguard : ℕ} {patch : PackingPatch}
  {h : PatchHorizons} {canvas : BlockCanvas} {s s' start : TetrisState}
  {placed : List PackingPatch}

theorem Accepted.profile (haccepted : Accepted past params safeguard patch h canvas s) {x y : ℕ}
    (hoccupies : patch.Occupies x y) :
    ∃ idx < patch.columns, x = patch.u0 + idx ∧
      (∃ row, patch.firstRow h idx = some row ∧ patch.v0 + row ≤ y) ∧
      ∃ row, patch.lastRow h idx = some row ∧ y ≤ patch.v0 + row := by
  have hrange := PackingPatch.range_of_fits haccepted.oriented haccepted.corner.1
    haccepted.corner.2 haccepted.sizes.1 haccepted.sizes.2 haccepted.fits
  apply PackingPatch.Occupies.profile (PackingPatch.sidesOf_getPatchHorizons haccepted.horizons)
    haccepted.oriented _ _ hoccupies
  · omega
  · omega

theorem settlePatch_horizon {placedPatch : PackingPatch}
    (hsettle : settlePatch params patch h canvas s = some (placedPatch, s')) :
    placedPatch = patch ∧ patch.updateHorizon s.horizon h = some s'.horizon := by
  obtain ⟨horizon, hupdate, hsettle⟩ := Option.bind_eq_some_iff.mp hsettle
  obtain ⟨packed, -, hsettle⟩ := Option.bind_eq_some_iff.mp hsettle
  obtain ⟨rfl, rfl⟩ := Prod.mk.inj (Option.some.inj hsettle)
  exact ⟨rfl, hupdate⟩

theorem Covered.settle (hcovered : Covered placed s.horizon)
    (haccepted : Accepted past params safeguard patch h canvas s)
    (hsettle : settlePatch params patch h canvas s = some (patch, s')) :
    Covered (placed ++ [patch]) s'.horizon := by
  obtain ⟨hrises, hraised⟩ :=
    PackingPatch.updateHorizon_spec (settlePatch_horizon hsettle).2
  intro q hq x y hoccupies
  rcases List.mem_append.mp hq with hq | hq
  · obtain ⟨last, hlast, hle⟩ := hcovered q hq x y hoccupies
    obtain ⟨last', hlast', hle'⟩ := hrises.entry x last hlast
    exact ⟨last', hlast', hle.trans hle'⟩
  · rw [List.mem_singleton] at hq
    subst hq
    obtain ⟨idx, hidx, rfl, -, row, hrow, hle⟩ := haccepted.profile hoccupies
    obtain ⟨row', last, hrow', hlast, hle'⟩ := hraised idx hidx
    obtain rfl : row = row' := Option.some.inj (hrow.symm.trans hrow')
    exact ⟨last, hlast, hle.trans hle'⟩

/-- After each step of a run the horizon covers all that was placed. -/
theorem covered_of_run (hrun : TetrisRun past params safeguard start placed s) :
    Covered placed s.horizon := by
  induction hrun with
  | start => exact fun _ hpatch => by cases hpatch
  | place _ haccepted hsettle ih => exact ih.settle haccepted hsettle

/-- A place above a horizon that covers the placed patches. -/
theorem Accepted.not_below (haccepted : Accepted past params safeguard patch h canvas s)
    (hcovered : Covered placed s.horizon) {x y y' : ℕ} (hoccupies : patch.Occupies x y)
    {q : PackingPatch} (hq : q ∈ placed) (hplaced : q.Occupies x y') : y' ≤ y := by
  obtain ⟨idx, hidx, rfl, ⟨row, hrow, hle⟩, -⟩ := haccepted.profile hoccupies
  obtain ⟨last, hlast, hle'⟩ := hcovered q hq _ y' hplaced
  have habove := Codec.allM_eq_some_true.mp haccepted.above idx (List.mem_range.mpr hidx)
  have hread : PackingPatch.readHorizon past s.horizon (patch.u0 + idx) = some last := by
    unfold PackingPatch.readHorizon
    rw [if_pos (List.getElem?_eq_some_iff.mp hlast).1, hlast]
  simp only [hrow, hread, Option.bind_eq_bind, Option.bind_some, Option.some.injEq,
    decide_eq_true_eq] at habove
  exact hle'.trans (habove.trans hle)

/-- The places that the loop tries keep the sizes of the patch. -/
theorem mem_tetrisPlaces {u v : ℕ} {place : PatchPlacement} :
    place ∈ tetrisPlaces params patch u v ↔
      ∃ u0 < u, ∃ v0 < v, ∃ orientation ∈
        g_orientationVertical.take (if params.useEightOrientations then 8 else 2),
        place = { patch.toPatchPlacement with
          u0 := u0, v0 := v0, patchOrientation := orientation } := by
  unfold tetrisPlaces
  constructor
  · intro hplace
    obtain ⟨u0, hu0, hplace⟩ := List.mem_flatMap.mp hplace
    obtain ⟨v0, hv0, hplace⟩ := List.mem_flatMap.mp hplace
    obtain ⟨orientation, horientation, rfl⟩ := List.mem_map.mp hplace
    exact ⟨u0, List.mem_range.mp hu0, v0, List.mem_range.mp hv0, orientation, horientation, rfl⟩
  · rintro ⟨u0, hu0, v0, hv0, orientation, horientation, rfl⟩
    apply List.mem_flatMap.mpr
    refine ⟨u0, List.mem_range.mpr hu0, List.mem_flatMap.mpr ⟨v0, List.mem_range.mpr hv0, ?_⟩⟩
    exact List.mem_map.mpr ⟨orientation, horientation, rfl⟩

theorem oriented_of_mem_tetrisPlaces {u v : ℕ} {place : PatchPlacement}
    (hplace : place ∈ tetrisPlaces params patch u v) : place.Oriented := by
  obtain ⟨u0, -, v0, -, orientation, horientation, rfl⟩ := mem_tetrisPlaces.mp hplace
  have hmem := List.mem_of_mem_take horientation
  rintro value rfl
  simp [g_orientationVertical] at hmem

/-- The best place of a pass is one that was tried and taken. -/
theorem tryPlace_spec {horizon : List ℕ} {best : Option (ℤ × PatchPlacement)}
    {places : List PatchPlacement}
    (hpass : places.foldlM (tryPlace past params safeguard patch h horizon canvas) none =
      some best) {wasted : ℤ} {place : PatchPlacement} (hbest : best = some (wasted, place)) :
    place ∈ places ∧
      { patch with toPatchPlacement := place }.isPatchLocationAboveHorizon past horizon h =
        some true ∧
      { patch with toPatchPlacement := place }.checkFitPatchCanvas canvas params.lowDelayEncoding
        safeguard = some true := by
  have hinv := Codec.inv_of_foldlM (P := fun _ best => ∀ wasted place,
      best = some (wasted, place) → place ∈ places ∧
        { patch with toPatchPlacement := place }.isPatchLocationAboveHorizon past horizon h =
          some true ∧
        { patch with toPatchPlacement := place }.checkFitPatchCanvas canvas
          params.lowDelayEncoding safeguard = some true)
    hpass (fun wasted place hnone => by cases hnone) (by
      intro visited tried best best' htried hkept hstep wasted place hplace
      obtain ⟨above, habove, hstep⟩ := Option.bind_eq_some_iff.mp hstep
      cases above with
      | false =>
        obtain rfl : best = best' := by simpa using hstep
        exact hkept wasted place hplace
      | true =>
        obtain ⟨fits, hfits, hstep⟩ := Option.bind_eq_some_iff.mp hstep
        cases fits with
        | false =>
          obtain rfl : best = best' := by simpa using hstep
          exact hkept wasted place hplace
        | true =>
          obtain ⟨space, -, hstep⟩ := Option.bind_eq_some_iff.mp hstep
          rw [Option.some.injEq] at hstep
          split_ifs at hstep
          · rw [← hstep, Option.some.injEq, Prod.mk.injEq] at hplace
            rw [← hplace.2]
            exact ⟨htried, habove, hfits⟩
          · subst hstep
            exact hkept wasted place hplace)
  exact hinv wasted place hbest

theorem findTetrisLocation_spec {horizon : List ℕ} {fuel : ℕ} {canvas' : BlockCanvas}
    {place : PatchPlacement}
    (hfound : findTetrisLocation past params safeguard patch h horizon fuel canvas =
      some (place, canvas')) :
    canvas.Extends canvas' ∧ place ∈ tetrisPlaces params patch canvas'.stride canvas'.height ∧
      { patch with toPatchPlacement := place }.isPatchLocationAboveHorizon past horizon h =
        some true ∧
      { patch with toPatchPlacement := place }.checkFitPatchCanvas canvas' params.lowDelayEncoding
        safeguard = some true := by
  induction fuel generalizing canvas with
  | zero => cases hfound
  | succ fuel ih =>
    obtain ⟨best, hpass, hfound⟩ := Option.bind_eq_some_iff.mp hfound
    cases best with
    | some taken =>
      obtain ⟨wasted, taken⟩ := taken
      obtain ⟨rfl, rfl⟩ := Prod.mk.inj (Option.some.inj hfound)
      exact ⟨.refl canvas, tryPlace_spec hpass rfl⟩
    | none =>
      obtain ⟨hext, htaken⟩ := ih hfound
      exact ⟨(BlockCanvas.extends_doubled canvas).trans hext, htaken⟩

/-- What the loop over the patches does with one is a step of a run. -/
theorem accepted_of_packTetrisPatch {fuel : ℕ} {placedPatch : PackingPatch}
    (hsizes : 0 < patch.sizeU0 ∧ 0 < patch.sizeV0)
    (hpack : packTetrisPatch past params safeguard fuel patch s = some (placedPatch, s'))
    (hcorner : placedPatch.u0 < 2 ^ 64 ∧ placedPatch.v0 < 2 ^ 64) :
    ∃ h canvas, Accepted past params safeguard placedPatch h canvas s ∧
      settlePatch params placedPatch h canvas s = some (placedPatch, s') := by
  obtain ⟨h, hsides, hpack⟩ := Option.bind_eq_some_iff.mp hpack
  obtain ⟨⟨place, canvas⟩, hfound, hsettle⟩ := Option.bind_eq_some_iff.mp hpack
  obtain ⟨hext, hplace, habove, hfits⟩ := findTetrisLocation_spec hfound
  have horiented := oriented_of_mem_tetrisPlaces hplace
  dsimp only at hsettle
  obtain ⟨rfl, -⟩ := settlePatch_horizon hsettle
  obtain ⟨u0, -, v0, -, orientation, -, rfl⟩ := mem_tetrisPlaces.mp hplace
  exact ⟨h, canvas, ⟨horiented, hsizes, hcorner, hsides, hext, habove, hfits⟩, hsettle⟩

theorem tetrisRun_of_packTetrisPatches {fuel : ℕ} {patches placed' : List PackingPatch}
    (hsizes : ∀ patch ∈ patches, 0 < patch.sizeU0 ∧ 0 < patch.sizeV0)
    (hrun : TetrisRun past params safeguard start placed s)
    (hpack : packTetrisPatches past params safeguard fuel patches s = some (placed', s'))
    (hcorner : ∀ patch ∈ placed', patch.u0 < 2 ^ 64 ∧ patch.v0 < 2 ^ 64) :
    TetrisRun past params safeguard start (placed ++ placed') s' := by
  induction patches generalizing placed placed' s with
  | nil =>
    obtain ⟨rfl, rfl⟩ := Prod.mk.inj (Option.some.inj hpack)
    rwa [List.append_nil]
  | cons patch patches ih =>
    obtain ⟨⟨first, s₁⟩, hfirst, hpack⟩ := Option.bind_eq_some_iff.mp hpack
    obtain ⟨⟨rest, s₂⟩, hrest, hpack⟩ := Option.bind_eq_some_iff.mp hpack
    obtain ⟨rfl, rfl⟩ := Prod.mk.inj (Option.some.inj hpack)
    rw [List.forall_mem_cons] at hsizes hcorner
    obtain ⟨h, canvas, haccepted, hsettle⟩ :=
      accepted_of_packTetrisPatch hsizes.1 hfirst hcorner.1
    have hnext := ih hsizes.2 (hrun.place haccepted hsettle) hrest hcorner.2
    rwa [List.append_assoc] at hnext

theorem stride_of_markBlocks {lowDelay : Bool} {canvas' : BlockCanvas}
    (hmark : patch.markBlocks lowDelay canvas = some canvas') : canvas'.stride = canvas.stride := by
  refine Codec.inv_of_foldlM (P := fun _ next => next.stride = canvas.stride) hmark rfl ?_
  intro visited block next next' _ hstride hstep
  obtain ⟨coord, -, hstep⟩ := Option.bind_eq_some_iff.mp hstep
  split_ifs at hstep
  · rw [← Option.some.inj hstep, BlockCanvas.stride_set, hstride]
  · obtain ⟨occupied, -, hstep⟩ := Option.bind_eq_some_iff.mp hstep
    obtain ⟨occupancy, -, hstep⟩ := Option.bind_eq_some_iff.mp hstep
    rw [← Option.some.inj hstep, BlockCanvas.stride_set, hstride]

theorem packTetrisPatch_stride {fuel : ℕ} {placedPatch : PackingPatch}
    (hpack : packTetrisPatch past params safeguard fuel patch s = some (placedPatch, s'))
    (hlength : s.horizon.length = s.occupancyMap.stride) :
    s'.horizon.length = s'.occupancyMap.stride := by
  obtain ⟨h, -, hpack⟩ := Option.bind_eq_some_iff.mp hpack
  obtain ⟨⟨place, canvas⟩, hfound, hsettle⟩ := Option.bind_eq_some_iff.mp hpack
  obtain ⟨hext, -⟩ := findTetrisLocation_spec hfound
  obtain ⟨horizon, hupdate, hsettle⟩ := Option.bind_eq_some_iff.mp hsettle
  obtain ⟨packed, hplaced, hsettle⟩ := Option.bind_eq_some_iff.mp hsettle
  obtain ⟨marked, hmark, hplaced⟩ := Option.bind_eq_some_iff.mp hplaced
  rw [Option.some.injEq] at hplaced
  obtain ⟨-, rfl⟩ := Prod.mk.inj (Option.some.inj hsettle)
  subst hplaced
  dsimp only at hmark ⊢
  rw [(PackingPatch.updateHorizon_spec hupdate).1.length, stride_of_markBlocks hmark, hext.stride,
    hlength]

/-- The horizon keeps one entry for each column of the canvas. -/
theorem packTetrisPatches_stride {fuel : ℕ} {patches placed : List PackingPatch}
    (hpack : packTetrisPatches past params safeguard fuel patches s = some (placed, s'))
    (hlength : s.horizon.length = s.occupancyMap.stride) :
    s'.horizon.length = s'.occupancyMap.stride := by
  induction patches generalizing placed s with
  | nil =>
    obtain ⟨-, rfl⟩ := Prod.mk.inj (Option.some.inj hpack)
    exact hlength
  | cons patch patches ih =>
    obtain ⟨⟨first, s₁⟩, hfirst, hpack⟩ := Option.bind_eq_some_iff.mp hpack
    obtain ⟨⟨rest, s₂⟩, hrest, hpack⟩ := Option.bind_eq_some_iff.mp hpack
    obtain ⟨-, rfl⟩ := Prod.mk.inj (Option.some.inj hpack)
    exact ih hrest (packTetrisPatch_stride hfirst hlength)

end

/-- The canvases that the passes over the places of a patch see. -/
inductive TriedOn (past : ℕ → Option ℕ) (params : PackingParams) (safeguard : ℕ)
    (patch : PackingPatch) (h : PatchHorizons) (horizon : List ℕ) (canvas : BlockCanvas) :
    BlockCanvas → Prop
  | first : TriedOn past params safeguard patch h horizon canvas canvas
  | again {tried : BlockCanvas} :
      TriedOn past params safeguard patch h horizon canvas tried →
      (tetrisPlaces params patch tried.stride tried.height).foldlM
        (tryPlace past params safeguard patch h horizon tried) none = some none →
      TriedOn past params safeguard patch h horizon canvas tried.doubled

/-- The horizon covers what was placed, no accepted place lies below it, and it is not read past
its end. -/
structure HorizonSound (params : PackingParams) (safeguard : ℕ) (presetWidth : ℕ)
    (first : PackingPatch) (rest : List PackingPatch) : Prop where
  covered : ∀ past placed s,
    TetrisRun past params safeguard (tetrisStart params presetWidth first (first :: rest)) placed s →
    Covered placed s.horizon
  above : ∀ past placed s,
    TetrisRun past params safeguard (tetrisStart params presetWidth first (first :: rest)) placed s →
    ∀ patch h canvas, Accepted past params safeguard patch h canvas s →
    ∀ x y y', patch.Occupies x y → ∀ q ∈ placed, q.Occupies x y' → y' ≤ y
  inBounds : ∀ past fuel before patch after placed s, first :: rest = before ++ patch :: after →
    packTetrisPatches past params safeguard fuel before
      (tetrisStart params presetWidth first (first :: rest)) = some (placed, s) →
    ∀ h, patch.getPatchHorizons = some h →
    ∀ canvas, TriedOn past params safeguard patch h s.horizon s.occupancyMap canvas →
    ∀ place ∈ tetrisPlaces params patch canvas.stride canvas.height,
      { patch with toPatchPlacement := place }.isPatchLocationAboveHorizon (fun _ => none)
        s.horizon h ≠ none

/-- A patch with blocks, each of which has its occupancy. -/
@[mk_iff] structure Shaped (patch : PackingPatch) : Prop where
  sizes : 0 < patch.sizeU0 ∧ 0 < patch.sizeV0
  occupancy : patch.occupancy.length = patch.sizeU0 * patch.sizeV0

section

variable {past : ℕ → Option ℕ} {params : PackingParams} {safeguard : ℕ} {patch : PackingPatch}
  {h : PatchHorizons}

theorem TriedOn.stride {horizon : List ℕ} {canvas tried : BlockCanvas}
    (htried : TriedOn past params safeguard patch h horizon canvas tried) :
    tried.stride = canvas.stride := by
  induction htried with
  | first => rfl
  | again _ _ ih => exact ih

end

end PCCEncoder

namespace PackingPatch

variable {patch : PackingPatch} {h : PatchHorizons} {horizon : List ℕ}

theorem exists_climb {occupied : ℕ → Option Bool} (left start : ℕ)
    (hocc : ∀ j ≤ start + left, ∃ b, occupied j = some b) :
    ∃ d, climb occupied left start = some d := by
  induction left generalizing start with
  | zero =>
    obtain ⟨b, hb⟩ := hocc start (by omega)
    exact ⟨start, by rw [climb, hb, Option.map_some]⟩
  | succ left ih =>
    obtain ⟨b, hb⟩ := hocc start (by omega)
    obtain ⟨d, hd⟩ := ih (start + 1) fun j hj => hocc j (by omega)
    cases b with
    | true => exact ⟨start, by rw [climb, hb]; rfl⟩
    | false => exact ⟨d, by rw [climb, hb]; exact hd⟩

theorem exists_mapM {f : ℕ → Option ℕ} {n : ℕ} (hf : ∀ i < n, ∃ d, f i = some d) :
    ∃ values, (List.range n).mapM f = some values :=
  ⟨_, Codec.mapM_eq_some_map (g := fun i => (f i).getD 0) fun i hi => by
    obtain ⟨d, hd⟩ := hf i (List.mem_range.mp hi)
    rw [hd, Option.getD_some]⟩

theorem exists_getPatchHorizons (hshaped : PCCEncoder.Shaped patch) :
    ∃ h, patch.getPatchHorizons = some h := by
  obtain ⟨⟨hsizeU, hsizeV⟩, hlength⟩ := hshaped
  have hread (u v : ℕ) (hu : u < patch.sizeU0) (hv : v < patch.sizeV0) :
      ∃ b, patch.occupancy[v * patch.sizeU0 + u]? = some b := by
    have hlt : v * patch.sizeU0 + u < patch.occupancy.length := by
      rw [hlength]
      exact pixel_lt hu hv
    exact ⟨patch.occupancy[v * patch.sizeU0 + u], List.getElem?_eq_getElem hlt⟩
  obtain ⟨top, htop⟩ := exists_mapM (n := patch.sizeU0) fun i hi => exists_climb
    (patch.sizeV0 - 1) 0 fun j hj =>
      hread i (patch.sizeV0 - 1 - j) hi (by omega)
  obtain ⟨bottom, hbottom⟩ := exists_mapM (n := patch.sizeU0) fun i hi => exists_climb
    (patch.sizeV0 - 1) 0 fun j hj => hread i j hi (by omega)
  obtain ⟨right, hright⟩ := exists_mapM (n := patch.sizeV0) fun i hi => exists_climb
    (patch.sizeU0 - 1) 0 fun j hj =>
      hread (patch.sizeU0 - 1 - j) i (by omega) hi
  obtain ⟨left, hleft⟩ := exists_mapM (n := patch.sizeV0) fun i hi => exists_climb
    (patch.sizeU0 - 1) 0 fun j hj => hread j i (by omega) hi
  refine ⟨⟨top, bottom, right, left⟩, ?_⟩
  unfold getPatchHorizons
  rw [if_pos (by omega), htop, hbottom, hright, hleft]
  rfl

/-- On the canvas the horizon is read within its length. -/
theorem exists_isPatchLocationAboveHorizon (hsides : patch.SidesOf h)
    (horiented : patch.Oriented) (hsizes : 0 < patch.sizeU0 ∧ 0 < patch.sizeV0)
    (hin : patch.u0 + patch.columns ≤ horizon.length)
    (past : ℕ → Option ℕ) : ∃ b, patch.isPatchLocationAboveHorizon past horizon h = some b := by
  apply Codec.exists_allM
  intro idx hidx
  rw [List.mem_range] at hidx
  obtain ⟨row, hrow⟩ := (exists_rows hsides horiented hsizes hidx).1
  have hlt : patch.u0 + idx < horizon.length := by omega
  refine ⟨decide (horizon[patch.u0 + idx] ≤ patch.v0 + row), ?_⟩
  rw [hrow, readHorizon, if_pos hlt, List.getElem?_eq_getElem hlt]
  rfl

/-- In the last column, a patch of more than one column reads past a horizon without entries above
zero. -/
theorem isPatchLocationAboveHorizon_eq_none (hsides : patch.SidesOf h)
    (horiented : patch.Oriented) (hsizes : 0 < patch.sizeU0 ∧ 0 < patch.sizeV0)
    (hcolumns : 1 < patch.columns) {n : ℕ} (hlast : patch.u0 + 1 = n) :
    patch.isPatchLocationAboveHorizon (fun _ => none) (List.replicate n 0) h = none := by
  have hfirst : 0 < patch.columns := by omega
  obtain ⟨row, hrow⟩ := (exists_rows hsides horiented hsizes hfirst).1
  obtain ⟨row', hrow'⟩ := (exists_rows hsides horiented hsizes hcolumns).1
  obtain ⟨more, hmore⟩ : ∃ more, patch.columns = more + 2 := ⟨patch.columns - 2, by omega⟩
  unfold isPatchLocationAboveHorizon
  rw [hmore, List.range_eq_range', List.range'_succ, List.range'_succ, List.allM_cons,
    List.allM_cons]
  subst hlast
  simp [hrow, hrow', readHorizon]

end PackingPatch

namespace PCCEncoder

/-- The horizon is also raised within its length. -/
theorem Accepted.exists_updateHorizon {past : ℕ → Option ℕ} {params : PackingParams}
    {safeguard : ℕ} {patch : PackingPatch} {h : PatchHorizons} {canvas : BlockCanvas}
    {s : TetrisState} (haccepted : Accepted past params safeguard patch h canvas s)
    (hlength : s.horizon.length = s.occupancyMap.stride) :
    ∃ horizon, patch.updateHorizon s.horizon h = some horizon := by
  have hrange := PackingPatch.range_of_fits haccepted.oriented haccepted.corner.1
    haccepted.corner.2 haccepted.sizes.1 haccepted.sizes.2 haccepted.fits
  apply PackingPatch.exists_updateHorizon
    (PackingPatch.sidesOf_getPatchHorizons haccepted.horizons) haccepted.oriented haccepted.sizes
  rw [PackingPatch.columns_eq_sides haccepted.oriented, hlength, ← haccepted.grown.stride]
  omega

/-- The first patch has the greatest side. -/
theorem side_le_of_sort (gt : StdSort PackingPatch.gt) {patches rest : List PackingPatch}
    {first : PackingPatch} (hsorted : gt.sort patches = first :: rest) {patch : PackingPatch}
    (hpatch : patch ∈ patches) :
    max patch.sizeU0 patch.sizeV0 ≤ max first.sizeU0 first.sizeV0 := by
  have hmem : patch ∈ first :: rest := hsorted ▸ (gt.perm patches).mem_iff.mpr hpatch
  have hordered := gt.ordered patches
  rw [hsorted, List.pairwise_cons] at hordered
  rcases List.mem_cons.mp hmem with rfl | hrest
  · exact Nat.le_refl _
  · by_contra hlt
    apply hordered.1 patch hrest
    unfold PackingPatch.gt
    dsimp only
    split_ifs <;> omega

/-- The horizon is read past its end as soon as one patch has a side of two blocks. -/
theorem horizonSound_iff (params : PackingParams) (safeguard presetWidth : ℕ)
    (gt : StdSort PackingPatch.gt) (tile : PackingTile) {first : PackingPatch}
    {rest : List PackingPatch} (hsorted : gt.sort tile.patches = first :: rest)
    (hshaped : ∀ patch ∈ tile.patches, Shaped patch) :
    HorizonSound params safeguard presetWidth first rest ↔
      ∀ patch ∈ tile.patches, patch.sizeU0 = 1 ∧ patch.sizeV0 = 1 := by
  have hmem (patch : PackingPatch) : patch ∈ first :: rest ↔ patch ∈ tile.patches :=
    hsorted ▸ (gt.perm tile.patches).mem_iff
  constructor
  · intro hsound patch hpatch
    have hfirst := hshaped first ((hmem first).mp List.mem_cons_self)
    have hsizes := (hshaped patch hpatch).sizes
    have hside := side_le_of_sort gt hsorted hpatch
    obtain ⟨h, hhorizons⟩ := PackingPatch.exists_getPatchHorizons hfirst
    -- The last column of the first row, where the wider way to turn the first patch sticks out.
    have hplace (orientation : PatchOrientation)
        (horientation : orientation ∈ [PatchOrientation.default, .swap])
        (hcolumns : 1 < { first with
          u0 := canvasWidth params presetWidth (first :: rest) - 1, v0 := 0
          patchOrientation := orientation }.columns) : False := by
      have hwide := (canvasWidth_le_iff.mp (Nat.le_refl
        (canvasWidth params presetWidth (first :: rest)))).2 first List.mem_cons_self
      have horiented : orientation ∈
          g_orientationVertical.take (if params.useEightOrientations then 8 else 2) := by
        cases params.useEightOrientations with
        | false => exact horientation
        | true => exact List.mem_append_left _ horientation
      have htried : ({ first.toPatchPlacement with
            u0 := canvasWidth params presetWidth (first :: rest) - 1, v0 := 0
            patchOrientation := orientation } : PatchPlacement) ∈
          tetrisPlaces params first (canvasWidth params presetWidth (first :: rest))
            (max first.sizeV0 first.sizeU0) :=
        mem_tetrisPlaces.mpr ⟨_, by omega, 0, by have := hfirst.sizes; omega, orientation,
          horiented, rfl⟩
      apply hsound.inBounds (fun _ => none) 0 [] first rest [] _ rfl rfl h hhorizons _ .first _
        htried
      apply PackingPatch.isPatchLocationAboveHorizon_eq_none
        ((PackingPatch.sidesOf_getPatchHorizons hhorizons).turn _ 0 orientation)
        (oriented_of_mem_tetrisPlaces htried) hfirst.sizes hcolumns
      dsimp only
      omega
    have hwidth : first.sizeU0 ≤ 1 :=
      not_lt.mp fun hlt => hplace .default List.mem_cons_self hlt
    have hheight : first.sizeV0 ≤ 1 :=
      not_lt.mp fun hlt => hplace .swap (List.mem_cons_of_mem _ List.mem_cons_self) hlt
    omega
  · intro hsmall
    constructor
    · intro past placed s hrun
      exact covered_of_run hrun
    · intro past placed s hrun patch h canvas haccepted x y y' hoccupies q hq hplaced
      exact haccepted.not_below (covered_of_run hrun) hoccupies hq hplaced
    · intro past fuel before patch after placed s hsplit hpack h hhorizons canvas htried place hplace
      have hpatch : patch ∈ tile.patches := (hmem patch).mp (hsplit ▸ by simp)
      obtain ⟨hsizeU, hsizeV⟩ := hsmall patch hpatch
      have hlength := packTetrisPatches_stride hpack (List.length_replicate)
      have horiented := oriented_of_mem_tetrisPlaces hplace
      obtain ⟨u0, hu0, v0, -, orientation, -, rfl⟩ := mem_tetrisPlaces.mp hplace
      rw [htried.stride, ← hlength] at hu0
      have hone : (orientation.sides patch.sizeU0 patch.sizeV0).1 = 1 := by
        rw [hsizeU, hsizeV]
        cases orientation <;> rfl
      have hin : u0 + { patch with
          u0 := u0, v0 := v0, patchOrientation := orientation }.columns ≤ s.horizon.length := by
        rw [PackingPatch.columns_eq_sides horiented]
        dsimp only
        omega
      obtain ⟨b, hb⟩ := PackingPatch.exists_isPatchLocationAboveHorizon
        ((PackingPatch.sidesOf_getPatchHorizons hhorizons).turn u0 v0 orientation) horiented
        (hshaped patch hpatch).sizes hin fun _ => none
      rw [hb]
      exact Option.some_ne_none b

/-- A row of occupied blocks. -/
def rowPatch (sizeU0 : ℕ) : PackingPatch where
  sizeU0 := sizeU0
  sizeV0 := 1
  occupancy := List.replicate sizeU0 true

/-- Three patches of a block each, a block apart. -/
theorem horizonSound_blocks :
    HorizonSound (rowParams 16) 1 3 (rowPatch 1) [rowPatch 1, rowPatch 1] := by
  let tile : PackingTile :=
    { width := 0, height := 0, patches := [rowPatch 1, rowPatch 1, rowPatch 1] }
  have hsorted : mergeSortGt.sort tile.patches = [rowPatch 1, rowPatch 1, rowPatch 1] :=
    List.mergeSort_of_pairwise (by decide)
  have hpatch : ∀ patch ∈ tile.patches, patch = rowPatch 1 := by
    intro patch hpatch
    simpa [tile] using hpatch
  refine (horizonSound_iff (rowParams 16) 1 3 mergeSortGt tile hsorted ?_).mpr ?_
  · intro patch hmem
    rw [hpatch patch hmem]
    exact ⟨by decide, rfl⟩
  · intro patch hmem
    rw [hpatch patch hmem]
    exact ⟨rfl, rfl⟩

/-- A patch of two blocks is tried in the last of its three columns. -/
theorem not_horizonSound_row : ¬HorizonSound (rowParams 16) 0 0 (rowPatch 2) [] := by
  intro hsound
  have hplace : ({ u0 := 2, v0 := 0, sizeU0 := 2, sizeV0 := 1 } : PatchPlacement) ∈
      tetrisPlaces (rowParams 16) (rowPatch 2) 3 2 := by decide
  exact hsound.inBounds (fun _ => none) 0 [] (rowPatch 2) [] [] _ rfl rfl
    ⟨[0, 0], [0, 0], [0], [0]⟩ rfl _ .first _ hplace rfl

end PCCEncoder

end V3C

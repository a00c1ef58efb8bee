import V3C.Syntax.HighLevelSyntax
import Mathlib.Data.List.Chain

/-! Atlas frame order counts: their low bits in the tile headers, and the counts that are
derived from the low bits of successive tiles. -/
namespace V3C

/-- `calculateAFOCLsb( frameOrder )` for a width of `log2MaxAtlasFrameOrderCntLsb` bits. -/
def calculateAFOCLsb (log2MaxAtlasFrameOrderCntLsb frameOrder : ℕ) : ℕ :=
  frameOrder % 2 ^ log2MaxAtlasFrameOrderCntLsb

/-- A tile layer with the part of its count above the low bits. -/
structure OrderedTileLayer extends AtlasTileLayerRbsp where
  atlasFrmOrderCntMsb : ℕ := 0

/-- `getHeader().setFrameIndex( value )`: a header keeps the low eight bits. -/
def OrderedTileLayer.setFrameIndex (atl : OrderedTileLayer) (value : ℕ) : OrderedTileLayer :=
  { atl with header := { atl.header with frameIndex := value % 2 ^ 8 } }

/-- The low bits went round upwards. -/
def WrapsUp (maxLsb prevLsb afocLsb : ℕ) : Prop :=
  afocLsb < prevLsb ∧ maxLsb / 2 ≤ prevLsb - afocLsb

/-- The low bits went round downwards. -/
def WrapsDown (maxLsb prevLsb afocLsb : ℕ) : Prop :=
  prevLsb < afocLsb ∧ maxLsb / 2 < afocLsb - prevLsb

instance (maxLsb prevLsb afocLsb : ℕ) : Decidable (WrapsUp maxLsb prevLsb afocLsb) :=
  inferInstanceAs (Decidable (_ ∧ _))

instance (maxLsb prevLsb afocLsb : ℕ) : Decidable (WrapsDown maxLsb prevLsb afocLsb) :=
  inferInstanceAs (Decidable (_ ∧ _))

/-- The three branches, in `size_t`. -/
def atlasFrmOrderCntMsb (maxLsb prevMsb prevLsb afocLsb : ℕ) : ℕ :=
  if WrapsUp maxLsb prevLsb afocLsb then (prevMsb + maxLsb) % 2 ^ 64
  else if WrapsDown maxLsb prevLsb afocLsb then (prevMsb + (2 ^ 64 - maxLsb)) % 2 ^ 64
  else prevMsb

/-- `log2MaxAtlasFrameOrderCntLsb` of the parameter sets a tile header refers to. -/
def lsbWidth (context : PCCAtlasHighLevelSyntax) (atgh : AtlasTileHeader) : Option ℕ := do
  let afps ← context.getAtlasFrameParameterSet atgh.atlasFrameParameterSetId
  let asps ← context.getAtlasSequenceParameterSet afps.atlasSequenceParameterSetId
  pure (asps.log2MaxAtlasFrameOrderCntLsbMinus4 + 4)

/-- `calculateAFOCval( atglList, atglIndex )`: the count, and the list with the entry's count
stored. `size_t( 1 )` is not shifted by 64 or more. -/
def calculateAFOCval (context : PCCAtlasHighLevelSyntax) (atglList : List OrderedTileLayer)
    (atglIndex : ℕ) : Option (ℕ × List OrderedTileLayer) := do
  let atgl ← atglList[atglIndex]?
  let afocLsb := atgl.header.atlasFrmOrderCntLsb
  if atglIndex = 0 then
    pure (afocLsb, atglList.set atglIndex
      { atgl with atlasFrmOrderCntMsb := 0, atlasFrmOrderCntVal := afocLsb })
  else
    let prev ← atglList[atglIndex - 1]?
    let width ← lsbWidth context atgl.header
    if width < 64 then
      let msb := atlasFrmOrderCntMsb (2 ^ width) prev.atlasFrmOrderCntMsb
        prev.header.atlasFrmOrderCntLsb afocLsb
      let val := (msb + afocLsb) % 2 ^ 64
      pure (val, atglList.set atglIndex
        { atgl with atlasFrmOrderCntMsb := msb, atlasFrmOrderCntVal := val })
    else none

/-- The loop of `createPatchFrameDataStructure` from tile `i` on, `n` tiles left: the counts in
order. -/
def deriveAFOCs (context : PCCAtlasHighLevelSyntax) :
    ℕ → ℕ → List OrderedTileLayer → Option (List ℕ × List OrderedTileLayer)
  | 0, _, atlList => some ([], atlList)
  | n + 1, i, atlList => do
    let (afocVal, atlList) ← calculateAFOCval context atlList i
    let atl ← atlList[i]?
    let (afocVals, atlList) ← deriveAFOCs context n (i + 1)
      (atlList.set i (atl.setFrameIndex afocVal))
    pure (afocVal :: afocVals, atlList)

/-- Counts less than half a period apart lie in the same period or in adjacent ones. -/
theorem div_le_succ {m a b : ℕ} (hm : 0 < m) (h : b < a + m) : b / m ≤ a / m + 1 := by
  rw [← Nat.add_div_right a hm]
  exact Nat.div_le_div_right h.le

theorem period_cases {m a b : ℕ} (hm : 0 < m) (hab : b < a + m) (hba : a < b + m) :
    m * (b / m) = m * (a / m) + m ∨ m * (b / m) + m = m * (a / m) ∨
      m * (b / m) = m * (a / m) := by
  have hup := div_le_succ hm hab
  have hdown := div_le_succ hm hba
  rcases Nat.lt_trichotomy (b / m) (a / m) with hlt | heq | hgt
  · right
    left
    rw [← Nat.mul_succ, show (b / m).succ = a / m by omega]
  · right
    right
    rw [heq]
  · left
    rw [← Nat.mul_succ, show (a / m).succ = b / m by omega]

/-- The count of the next tile is recovered from its low bits, and where the low bits went
round downwards there is a period to go back to. -/
theorem atlasFrmOrderCntMsb_eq {width prev cur : ℕ} (hwidth : 0 < width) (hlt : width < 64)
    (hcur : cur < 2 ^ 64) (hup : cur < prev + 2 ^ width / 2) (hdown : prev < cur + 2 ^ width / 2) :
    atlasFrmOrderCntMsb (2 ^ width) (2 ^ width * (prev / 2 ^ width))
        (calculateAFOCLsb width prev) (calculateAFOCLsb width cur) =
      2 ^ width * (cur / 2 ^ width) ∧
    (WrapsDown (2 ^ width) (calculateAFOCLsb width prev) (calculateAFOCLsb width cur) →
      2 ^ width ≤ 2 ^ width * (prev / 2 ^ width)) := by
  have hpos : 0 < 2 ^ width := Nat.two_pow_pos width
  have hpow : 2 ^ width ≤ 2 ^ 63 := Nat.pow_le_pow_right (by decide) (by omega)
  have heven : 2 ^ width = 2 * (2 ^ width / 2) := by
    have hsucc : 2 ^ width = 2 * 2 ^ (width - 1) := by
      rw [← pow_succ', Nat.sub_add_cancel hwidth]
    omega
  have hcases := period_cases hpos (show cur < prev + 2 ^ width by omega)
    (show prev < cur + 2 ^ width by omega)
  have hprev := Nat.div_add_mod prev (2 ^ width)
  have hnext := Nat.div_add_mod cur (2 ^ width)
  have hprevlt := Nat.mod_lt prev hpos
  have hnextlt := Nat.mod_lt cur hpos
  unfold atlasFrmOrderCntMsb calculateAFOCLsb
  generalize 2 ^ width * (prev / 2 ^ width) = high at *
  generalize 2 ^ width * (cur / 2 ^ width) = high' at *
  generalize prev % 2 ^ width = low at *
  generalize cur % 2 ^ width = low' at *
  generalize 2 ^ width = m at *
  constructor
  · by_cases hwrap : WrapsUp m low low'
    · rw [if_pos hwrap]
      unfold WrapsUp at hwrap
      omega
    · rw [if_neg hwrap]
      unfold WrapsUp at hwrap
      by_cases hback : WrapsDown m low low'
      · rw [if_pos hback]
        unfold WrapsDown at hback
        omega
      · rw [if_neg hback]
        unfold WrapsDown at hback
        omega
  · unfold WrapsDown
    intro hback
    omega

/-- What the loop has derived for a tile: its count, split at the width of the low bits. -/
structure Derived (width count : ℕ) (atl : OrderedTileLayer) : Prop where
  lsb_eq : atl.header.atlasFrmOrderCntLsb = calculateAFOCLsb width count
  msb_eq : atl.atlasFrmOrderCntMsb = 2 ^ width * (count / 2 ^ width)
  val_eq : atl.atlasFrmOrderCntVal = count

def NoUnderflow (width : ℕ) (prev atl : OrderedTileLayer) : Prop :=
  WrapsDown (2 ^ width) prev.header.atlasFrmOrderCntLsb atl.header.atlasFrmOrderCntLsb →
    2 ^ width ≤ prev.atlasFrmOrderCntMsb

def Close (width prev count : ℕ) : Prop :=
  count < prev + 2 ^ width / 2 ∧ prev < count + 2 ^ width / 2

theorem calculateAFOCval_first (context : PCCAtlasHighLevelSyntax) {width count : ℕ}
    {atl : OrderedTileLayer} (todo : List OrderedTileLayer) (hcount : count < 2 ^ width)
    (hlsb : atl.header.atlasFrmOrderCntLsb = calculateAFOCLsb width count) :
    ∃ atl', calculateAFOCval context (atl :: todo) 0 = some (count, atl' :: todo) ∧
      atl'.header = atl.header ∧ Derived width count atl' := by
  have hmod : calculateAFOCLsb width count = count := Nat.mod_eq_of_lt hcount
  have hdiv : count / 2 ^ width = 0 := Nat.div_eq_of_lt hcount
  rw [hmod] at hlsb
  refine ⟨{ atl with atlasFrmOrderCntMsb := 0, atlasFrmOrderCntVal := count }, ?_, rfl, ?_⟩
  · simp [calculateAFOCval, hlsb]
  · constructor
    · rw [hmod]
      exact hlsb
    · rw [hdiv, Nat.mul_zero]
    · rfl

theorem calculateAFOCval_next {context : PCCAtlasHighLevelSyntax} {width last count : ℕ}
    {prev atl : OrderedTileLayer} (done todo : List OrderedTileLayer) (hwidth : 0 < width)
    (hshift : width < 64) (hcount : count < 2 ^ 64) (hclose : Close width last count)
    (hprev : Derived width last prev)
    (hlsb : atl.header.atlasFrmOrderCntLsb = calculateAFOCLsb width count)
    (hparams : lsbWidth context atl.header = some width) :
    ∃ atl', calculateAFOCval context (done ++ [prev] ++ atl :: todo) (done.length + 1) =
        some (count, done ++ [prev] ++ atl' :: todo) ∧
      atl'.header = atl.header ∧ Derived width count atl' ∧ NoUnderflow width prev atl' := by
  obtain ⟨hmsb, hback⟩ := atlasFrmOrderCntMsb_eq hwidth hshift hcount hclose.1 hclose.2
  have hval : (2 ^ width * (count / 2 ^ width) + calculateAFOCLsb width count) % 2 ^ 64 =
      count := by
    rw [calculateAFOCLsb, Nat.div_add_mod, Nat.mod_eq_of_lt hcount]
  have hat : (done ++ [prev] ++ atl :: todo)[done.length + 1]? = some atl := by
    rw [List.getElem?_append_right (by simp)]
    simp
  have hbefore : (done ++ [prev] ++ atl :: todo)[done.length]? = some prev := by
    rw [List.append_assoc, List.getElem?_append_right le_rfl]
    simp
  refine ⟨{ atl with
    atlasFrmOrderCntMsb := 2 ^ width * (count / 2 ^ width)
    atlasFrmOrderCntVal := count }, ?_, rfl, ⟨hlsb, rfl, rfl⟩, ?_⟩
  · simp only [calculateAFOCval, hat, Nat.add_sub_cancel, hbefore, hparams, hprev.lsb_eq,
      hprev.msb_eq, hlsb, hmsb, hval, Option.bind_eq_bind, Option.bind_some, if_pos hshift,
      Nat.succ_ne_zero, if_false]
    rw [List.set_append_right _ _ (by simp)]
    simp
  · unfold NoUnderflow
    rw [hprev.lsb_eq, hprev.msb_eq]
    change WrapsDown _ _ atl.header.atlasFrmOrderCntLsb → _
    rw [hlsb]
    exact hback

/-- The tile header carries the low bits of the count, in the width of its parameter sets. -/
structure Carries (context : PCCAtlasHighLevelSyntax) (width count : ℕ)
    (atl : OrderedTileLayer) : Prop where
  count_lt : count < 2 ^ 64
  lsb_eq : atl.header.atlasFrmOrderCntLsb = calculateAFOCLsb width count
  width_eq : lsbWidth context atl.header = some width

theorem Carries.width_pos {context : PCCAtlasHighLevelSyntax} {width count : ℕ}
    {atl : OrderedTileLayer} (h : Carries context width count atl) : 0 < width := by
  have hwidth := h.width_eq
  unfold lsbWidth at hwidth
  obtain ⟨afps, -, hwidth⟩ := Option.bind_eq_some_iff.mp hwidth
  obtain ⟨asps, -, hwidth⟩ := Option.bind_eq_some_iff.mp hwidth
  have := Option.some.inj hwidth
  omega

/-- The header's frame index is not read by the derivation. -/
theorem Derived.setFrameIndex {width count : ℕ} {atl : OrderedTileLayer} (frameIndex : ℕ)
    (h : Derived width count atl) :
    Derived width count (atl.setFrameIndex frameIndex) :=
  ⟨h.lsb_eq, h.msb_eq, h.val_eq⟩

/-- From behind a tile whose count is known, the loop derives all the others. -/
theorem deriveAFOCs_next {context : PCCAtlasHighLevelSyntax} {width last : ℕ}
    (hshift : width < 64) {counts : List ℕ} {prev : OrderedTileLayer}
    (done : List OrderedTileLayer) {todo : List OrderedTileLayer}
    (hcarries : List.Forall₂ (Carries context width) counts todo)
    (hclose : (last :: counts).IsChain (Close width)) (hprev : Derived width last prev) :
    ∃ todo', deriveAFOCs context todo.length (done.length + 1) (done ++ [prev] ++ todo) =
        some (counts, done ++ [prev] ++ todo') ∧
      List.Forall₂ (Derived width) counts todo' ∧ (prev :: todo').IsChain (NoUnderflow width) := by
  induction hcarries generalizing last prev done with
  | nil => exact ⟨[], rfl, List.Forall₂.nil, List.IsChain.singleton prev⟩
  | @cons count atl counts todo hatl _ ih =>
    obtain ⟨hstep, hrest⟩ := List.isChain_cons_cons.mp hclose
    obtain ⟨atl₁, hval, hheader, hderived, hunder⟩ := calculateAFOCval_next done todo
      hatl.width_pos hshift hatl.count_lt hstep hprev hatl.lsb_eq hatl.width_eq
    obtain ⟨todo', hrun, hall, hchain⟩ :=
      ih (done ++ [prev]) hrest (hderived.setFrameIndex count)
    refine ⟨atl₁.setFrameIndex count :: todo', ?_, List.Forall₂.cons (hderived.setFrameIndex _) hall,
      List.IsChain.cons_cons hunder hchain⟩
    have hat : (done ++ [prev] ++ atl₁ :: todo)[done.length + 1]? = some atl₁ := by
      rw [List.getElem?_append_right (by simp)]
      simp
    have hset : (done ++ [prev] ++ atl₁ :: todo).set (done.length + 1)
        (atl₁.setFrameIndex count) = done ++ [prev] ++ [atl₁.setFrameIndex count] ++ todo := by
      rw [List.set_append_right _ _ (by simp)]
      simp
    rw [List.length_append, List.length_singleton] at hrun
    simp only [List.length_cons, deriveAFOCs, hval, hat, hset, hrun, Option.bind_eq_bind,
      Option.bind_some, Option.pure_def]
    simp

/-- All counts are recovered from their low bits, without going back below zero. -/
theorem deriveAFOCs_eq {context : PCCAtlasHighLevelSyntax} {width : ℕ} (hshift : width < 64)
    {counts : List ℕ} {atlList : List OrderedTileLayer}
    (hcarries : List.Forall₂ (Carries context width) counts atlList)
    (hfirst : ∀ count ∈ counts.head?, count < 2 ^ width)
    (hclose : counts.IsChain (Close width)) :
    ∃ atlList', deriveAFOCs context atlList.length 0 atlList = some (counts, atlList') ∧
      List.Forall₂ (Derived width) counts atlList' ∧ atlList'.IsChain (NoUnderflow width) := by
  cases hcarries with
  | nil => exact ⟨[], rfl, List.Forall₂.nil, List.IsChain.nil⟩
  | @cons count atl counts todo hatl hrest =>
    obtain ⟨atl₁, hval, hheader, hderived⟩ :=
      calculateAFOCval_first context todo (hfirst count rfl) hatl.lsb_eq
    obtain ⟨todo', hrun, hall, hchain⟩ :=
      deriveAFOCs_next hshift [] hrest hclose (hderived.setFrameIndex count)
    refine ⟨atl₁.setFrameIndex count :: todo', ?_, List.Forall₂.cons (hderived.setFrameIndex _) hall, hchain⟩
    simp only [List.length_nil, List.nil_append, List.singleton_append, Nat.zero_add] at hrun
    simp only [List.length_cons, deriveAFOCs, hval, List.getElem?_cons_zero, List.set_cons_zero,
      hrun, Option.bind_eq_bind, Option.bind_some, Option.pure_def, Nat.zero_add]

def narrowContext : PCCAtlasHighLevelSyntax where
  atlasSequenceParameterSet := [{ log2MaxAtlasFrameOrderCntLsbMinus4 := 0 }]
  atlasFrameParameterSet := [{}]

def narrowTile (count : ℕ) : OrderedTileLayer where
  header := { atlasFrmOrderCntLsb := calculateAFOCLsb 4 count }

/-- The low bits go round upwards, downwards and upwards again. -/
theorem deriveAFOCs_narrow :
    ∃ atlList', deriveAFOCs narrowContext 5 0
        [narrowTile 14, narrowTile 17, narrowTile 15, narrowTile 20, narrowTile 27] =
        some ([14, 17, 15, 20, 27], atlList') ∧
      List.Forall₂ (Derived 4) [14, 17, 15, 20, 27] atlList' ∧
      atlList'.IsChain (NoUnderflow 4) := by
  have hcarries (count : ℕ) (hcount : count < 2 ^ 64) :
      Carries narrowContext 4 count (narrowTile count) := ⟨hcount, rfl, rfl⟩
  have hall : List.Forall₂ (Carries narrowContext 4) [14, 17, 15, 20, 27]
      [narrowTile 14, narrowTile 17, narrowTile 15, narrowTile 20, narrowTile 27] :=
    .cons (hcarries 14 (by decide)) <| .cons (hcarries 17 (by decide)) <|
      .cons (hcarries 15 (by decide)) <| .cons (hcarries 20 (by decide)) <|
      .cons (hcarries 27 (by decide)) .nil
  apply deriveAFOCs_eq (by decide) hall
  · intro count hcount
    cases hcount
    decide
  · simp [Close]

end V3C

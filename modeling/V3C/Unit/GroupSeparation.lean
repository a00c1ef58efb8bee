import V3C.Unit.GroupOfFrames

/-! When the context of a group depends on the units of the group alone. -/
namespace V3C
open Codec

variable {A : Type} (codec : AtlasCodec A)

/-- A unit of a parameter set, and units that are none, which can be decoded. -/
structure IsGroup (group : List V3CUnit) : Prop where
  starts : ∃ first rest, group = first :: rest ∧
    (PCCBitstreamReader.unitHeader first).map Prod.fst = some V3C_VPS ∧
    ∀ unit ∈ rest, (PCCBitstreamReader.unitHeader unit).map Prod.fst ≠ some V3C_VPS
  decodes : ∃ context, PCCBitstreamReader.decode codec {} group = some (context, [])

/-- What must not depend on another group: the syntax of the atlases, the index of the active
one, and the outcome of the profile check. -/
def PCCHighLevelSyntax.observed (aspsList : A → List AtlasSequenceParameterSetRbsp)
    (context : PCCHighLevelSyntax A) : List (AtlasSyntax A) × ℕ × Option ℕ :=
  (context.atlasHLS, context.atlasIndex, context.checkProfile aspsList)

/-- The calls come to an end, every call takes one group, in order, and its context is as if
the group were alone. -/
def GroupsSeparate (aspsList : A → List AtlasSequenceParameterSetRbsp)
    (groups : List (List V3CUnit)) : Prop :=
  ∃ (n : ℕ) (calls : List (PCCHighLevelSyntax A × List V3CUnit))
    (contexts : List (PCCHighLevelSyntax A)),
    PCCBitstreamReader.decodeAll codec n groups.flatten = some calls ∧
    calls.map Prod.snd = groups ∧
    groups.mapM (fun group => PCCBitstreamReader.decode codec {} group) =
      some (contexts.map (·, [])) ∧
    calls.map (fun call => call.1.observed aspsList) =
      contexts.map fun context => context.observed aspsList

section Unit

variable {codec} {syntax' syntax'' : PCCHighLevelSyntax A} {unit : V3CUnit} {t : ℕ}

/-- What a unit that is no parameter set leaves of a syntax. -/
structure LeavesAtlases (syntax' syntax'' : PCCHighLevelSyntax A) : Prop where
  parameterSets : syntax''.vpccParameterSets = syntax'.vpccParameterSets
  activeVPS : syntax''.activeVPS = syntax'.activeVPS
  atlasIndex : syntax''.atlasIndex = syntax'.atlasIndex
  length : syntax''.atlasHLS.length = syntax'.atlasHLS.length

theorem LeavesAtlases.refl (syntax' : PCCHighLevelSyntax A) : LeavesAtlases syntax' syntax' where
  parameterSets := rfl
  activeVPS := rfl
  atlasIndex := rfl
  length := rfl

theorem LeavesAtlases.setAtlas (syntax' : PCCHighLevelSyntax A) (hls : AtlasSyntax A) :
    LeavesAtlases syntax' (PCCBitstreamReader.setAtlas syntax' hls) where
  parameterSets := rfl
  activeVPS := rfl
  atlasIndex := rfl
  length := List.length_set

theorem videoSubStream_leavesAtlases {vuh : V3CUnitHeader} {payload : List UInt8}
    (h : PCCBitstreamReader.videoSubStream syntax' t vuh payload = some syntax'') :
    LeavesAtlases syntax' syntax'' := by
  obtain ⟨type, -, h⟩ := Option.bind_eq_some_iff.mp h
  cases type with
  | none =>
    obtain rfl := Option.some.inj h
    exact LeavesAtlases.refl syntax'
  | some type =>
    obtain ⟨hls, -, h⟩ := Option.bind_eq_some_iff.mp h
    obtain rfl := Option.some.inj h
    exact LeavesAtlases.setAtlas syntax' _

theorem v3cUnitPayload_leavesAtlases {vuh : V3CUnitHeader} {size : ℕ} {c : Cursor}
    (ht : t ≠ V3C_VPS)
    (h : PCCBitstreamReader.v3cUnitPayload codec syntax' t vuh size c = some syntax'') :
    LeavesAtlases syntax' syntax'' := by
  unfold PCCBitstreamReader.v3cUnitPayload at h
  rw [if_neg ht] at h
  split_ifs at h with had hvideo
  · obtain ⟨hls, -, h⟩ := Option.bind_eq_some_iff.mp h
    obtain ⟨atlas, -, h⟩ := Option.bind_eq_some_iff.mp h
    obtain rfl := Option.some.inj h
    exact LeavesAtlases.setAtlas syntax' _
  · obtain ⟨⟨bits, _⟩, -, h⟩ := Option.bind_eq_some_iff.mp h
    exact videoSubStream_leavesAtlases h
  · obtain rfl := Option.some.inj h
    exact LeavesAtlases.refl syntax'

/-- A unit is read behind its header. -/
theorem v3cUnit_eq_some :
    PCCBitstreamReader.v3cUnit codec syntax' unit = some (t, syntax'') ↔
      ∃ vuh c, PCCBitstreamReader.v3cUnitHeader ⟨0, bitsOfBytes unit.data⟩ =
          some ((t, vuh), c) ∧
        PCCBitstreamReader.v3cUnitPayload codec
          (PCCBitstreamReader.selectAtlas syntax' t vuh) t vuh unit.size c = some syntax'' := by
  unfold PCCBitstreamReader.v3cUnit
  constructor
  · intro h
    obtain ⟨⟨⟨t', vuh⟩, c⟩, hheader, h⟩ := Option.bind_eq_some_iff.mp h
    obtain ⟨after, hpayload, h⟩ := Option.bind_eq_some_iff.mp h
    obtain ⟨rfl, rfl⟩ := Prod.mk.inj (Option.some.inj h)
    exact ⟨vuh, c, hheader, hpayload⟩
  · rintro ⟨vuh, c, hheader, hpayload⟩
    simp [hheader, hpayload]

theorem unitHeader_eq_some {vuh : V3CUnitHeader} {c : Cursor}
    (h : PCCBitstreamReader.v3cUnitHeader ⟨0, bitsOfBytes unit.data⟩ = some ((t, vuh), c)) :
    PCCBitstreamReader.unitHeader unit = some (t, vuh) := by
  unfold PCCBitstreamReader.unitHeader
  rw [h]
  rfl

/-- A unit of a parameter set does the same to every syntax. -/
theorem v3cUnit_vps (hvps : (PCCBitstreamReader.unitHeader unit).map Prod.fst = some V3C_VPS) :
    PCCBitstreamReader.v3cUnit codec syntax' unit =
      (PCCBitstreamReader.unitVps unit).map fun vps =>
        (V3C_VPS, PCCBitstreamReader.addV3CParameterSet codec syntax' vps) := by
  unfold PCCBitstreamReader.v3cUnit PCCBitstreamReader.unitVps
  unfold PCCBitstreamReader.unitHeader at hvps
  cases hheader : PCCBitstreamReader.v3cUnitHeader ⟨0, bitsOfBytes unit.data⟩ with
  | none => rfl
  | some header =>
    obtain ⟨⟨t, vuh⟩, c⟩ := header
    rw [hheader] at hvps
    obtain rfl : t = V3C_VPS := Option.some.inj hvps
    simp only [Option.bind_eq_bind, Option.bind_some, PCCBitstreamReader.v3cUnitPayload,
      PCCBitstreamReader.selectAtlas, if_pos, if_neg (show ¬SelectsAtlas V3C_VPS by decide)]
    cases PCCBitstreamReader.v3cParameterSet c <;> rfl

end Unit

section Group

variable {codec} {syntax' syntax'' context : PCCHighLevelSyntax A} {units group : List V3CUnit}

/-- What the header of a unit selects. -/
def selectedBy (selection : Option V3CUnitHeader) (unit : V3CUnit) : Option V3CUnitHeader :=
  match PCCBitstreamReader.unitHeader unit with
  | some (t, h) => if SelectsAtlas t then some h else selection
  | none => selection

/-- The last header in a group that selects an atlas and a parameter set. -/
def selection (group : List V3CUnit) : Option V3CUnitHeader := group.foldl selectedBy none

/-- The active parameter set and atlas are those of a selection. -/
def PCCHighLevelSyntax.Selects (syntax' : PCCHighLevelSyntax A) (s : Option V3CUnitHeader) :
    Prop :=
  syntax'.activeVPS = s.map V3CUnitHeader.v3cParameterSetId ∧
    syntax'.atlasIndex = (s.map V3CUnitHeader.atlasId).getD 0

theorem v3cUnit_step {unit : V3CUnit} {t : ℕ} {s : Option V3CUnitHeader}
    (hunit : (PCCBitstreamReader.unitHeader unit).map Prod.fst ≠ some V3C_VPS)
    (hselects : syntax'.Selects s)
    (h : PCCBitstreamReader.v3cUnit codec syntax' unit = some (t, syntax'')) :
    t ≠ V3C_VPS ∧ syntax''.Selects (selectedBy s unit) ∧
      syntax''.vpccParameterSets = syntax'.vpccParameterSets ∧
      syntax''.atlasHLS.length = syntax'.atlasHLS.length := by
  obtain ⟨vuh, c, hread, hpayload⟩ := v3cUnit_eq_some.mp h
  have hheader := unitHeader_eq_some hread
  have ht : t ≠ V3C_VPS := by
    rintro rfl
    rw [hheader] at hunit
    exact hunit rfl
  have hleaves := v3cUnitPayload_leavesAtlases ht hpayload
  have hselected : selectedBy s unit = if SelectsAtlas t then some vuh else s := by
    unfold selectedBy
    rw [hheader]
  refine ⟨ht, ?_, ?_, ?_⟩
  · unfold PCCHighLevelSyntax.Selects
    rw [hleaves.activeVPS, hleaves.atlasIndex, hselected]
    unfold PCCBitstreamReader.selectAtlas
    split_ifs
    · exact ⟨rfl, rfl⟩
    · exact hselects
  · rw [hleaves.parameterSets]
    unfold PCCBitstreamReader.selectAtlas
    split_ifs <;> rfl
  · rw [hleaves.length]
    unfold PCCBitstreamReader.selectAtlas
    split_ifs <;> rfl

/-- The units of a group behind its parameter set, whatever follows them. -/
theorem decodeLoop_append {numVPS : ℕ} {s : Option V3CUnitHeader}
    (hunits : ∀ unit ∈ units, (PCCBitstreamReader.unitHeader unit).map Prod.fst ≠ some V3C_VPS)
    (hselects : syntax'.Selects s)
    (h : PCCBitstreamReader.decodeLoop codec numVPS syntax' units = some (syntax'', [])) :
    (∀ rest, PCCBitstreamReader.decodeLoop codec numVPS syntax' (units ++ rest) =
      PCCBitstreamReader.decodeLoop codec numVPS syntax'' rest) ∧
      syntax''.Selects (units.foldl selectedBy s) ∧
      syntax''.vpccParameterSets = syntax'.vpccParameterSets ∧
      syntax''.atlasHLS.length = syntax'.atlasHLS.length := by
  induction units generalizing syntax' s with
  | nil =>
    obtain ⟨rfl, -⟩ := Prod.mk.inj (Option.some.inj h)
    exact ⟨fun rest => rfl, hselects, rfl, rfl⟩
  | cons unit units ih =>
    obtain ⟨⟨t, next⟩, hunit, h⟩ := Option.bind_eq_some_iff.mp h
    obtain ⟨ht, hnext, hparameterSets, hlength⟩ :=
      v3cUnit_step (hunits unit List.mem_cons_self) hselects hunit
    simp only [if_neg ht] at h
    obtain ⟨hloop, hlast, hparameterSets', hlength'⟩ :=
      ih (fun u hu => hunits u (List.mem_cons_of_mem unit hu)) hnext h
    refine ⟨fun rest => ?_, hlast, hparameterSets'.trans hparameterSets, hlength'.trans hlength⟩
    rw [List.cons_append, PCCBitstreamReader.decodeLoop, hunit]
    simp only [Option.bind_eq_bind, Option.bind_some, if_neg ht]
    exact hloop rest

structure IsGroup.Alone (group : List V3CUnit) (context : PCCHighLevelSyntax A)
    (vps : V3CParameterSet) : Prop where
  parameterSet : group.head?.bind PCCBitstreamReader.unitVps = some vps
  parameterSets : context.vpccParameterSets = [vps]
  length : context.atlasHLS.length = vps.atlases.length
  selects : context.Selects (selection group)

theorem length_allocateAtlasHLS (initial : A) (syntax' : PCCHighLevelSyntax A) (size : ℕ) :
    (syntax'.allocateAtlasHLS initial size).atlasHLS.length = size := by
  unfold PCCHighLevelSyntax.allocateAtlasHLS
  rw [List.length_append, List.length_take, List.length_replicate]
  omega

/-- A group, alone and before units that may follow it. -/
theorem IsGroup.decode (h : IsGroup codec group)
    (hcontext : PCCBitstreamReader.decode codec {} group = some (context, [])) :
    ∃ vps, IsGroup.Alone group context vps ∧
      ∀ rest, PCCBitstreamReader.decode codec {} (group ++ rest) =
        PCCBitstreamReader.decodeLoop codec 1 context rest := by
  obtain ⟨first, units, rfl, hfirst, hunits⟩ := h.starts
  unfold PCCBitstreamReader.decode at hcontext ⊢
  rw [PCCBitstreamReader.decodeLoop, v3cUnit_vps hfirst] at hcontext
  obtain ⟨⟨t, next⟩, hunit, hcontext⟩ := Option.bind_eq_some_iff.mp hcontext
  obtain ⟨vps, hvps, hnext⟩ := Option.map_eq_some_iff.mp hunit
  obtain ⟨rfl, rfl⟩ := Prod.mk.inj hnext
  simp only [if_true, if_neg (show ¬1 < 0 + 1 by decide)] at hcontext
  have hstart : (PCCBitstreamReader.addV3CParameterSet codec {} vps).Selects none := ⟨rfl, rfl⟩
  obtain ⟨hloop, hselects, hparameterSets, hlength⟩ :=
    decodeLoop_append hunits hstart hcontext
  have hskip : selectedBy none first = none := by
    unfold selectedBy
    cases hheader : PCCBitstreamReader.unitHeader first with
    | none => rfl
    | some header =>
      obtain ⟨t, vuh⟩ := header
      rw [hheader] at hfirst
      obtain rfl : t = V3C_VPS := Option.some.inj hfirst
      rfl
  refine ⟨vps, ⟨hvps, hparameterSets, ?_, ?_⟩, fun rest => ?_⟩
  · rw [hlength]
    exact length_allocateAtlasHLS _ _ _
  · unfold selection
    rw [List.foldl_cons, hskip]
    exact hselects
  · rw [List.cons_append, PCCBitstreamReader.decodeLoop, v3cUnit_vps hfirst, hvps]
    simp only [Option.map_some, Option.bind_eq_bind, Option.bind_some, if_true,
      if_neg (show ¬1 < 0 + 1 by decide)]
    exact hloop rest

end Group

/-- The parameter set `next` of the following group allocates as many atlases as there are,
resets an index that is zero, and does not stand in for a parameter set that is missing. -/
structure Harmless (group : List V3CUnit) (vps next : V3CParameterSet) : Prop where
  atlases : next.atlases.length = vps.atlases.length
  atlasIndex : ∀ h, selection group = some h → h.atlasId = 0
  activeVPS : vps.atlases.length = 1 → ∀ h, selection group = some h →
    h.v3cParameterSetId = next.v3cParameterSetId →
    vps.v3cParameterSetId = next.v3cParameterSetId

section Harmless

variable {codec} {context : PCCHighLevelSyntax A} {group : List V3CUnit}
  {vps next : V3CParameterSet} {aspsList : A → List AtlasSequenceParameterSetRbsp}

theorem atlasHLS_addV3CParameterSet (codec : AtlasCodec A)
    (h : next.atlases.length = context.atlasHLS.length) :
    (PCCBitstreamReader.addV3CParameterSet codec context next).atlasHLS = context.atlasHLS := by
  unfold PCCBitstreamReader.addV3CParameterSet PCCHighLevelSyntax.allocateAtlasHLS
  simp [h]

theorem getVps_of_some {s : PCCHighLevelSyntax A} {id : ℕ} (hactive : s.activeVPS = some id) :
    s.getVps = s.vpccParameterSets.find? fun vps => vps.v3cParameterSetId = id := by
  unfold PCCHighLevelSyntax.getVps
  rw [hactive]
  rfl

theorem getVps_of_none {s : PCCHighLevelSyntax A} (hactive : s.activeVPS = none) :
    s.getVps = none := by
  unfold PCCHighLevelSyntax.getVps
  rw [hactive]
  rfl

theorem getVps_alone (h : IsGroup.Alone group context vps) {id : ℕ}
    (hactive : context.activeVPS = some id) :
    context.getVps = if vps.v3cParameterSetId = id then some vps else none := by
  rw [getVps_of_some hactive, h.parameterSets]
  split_ifs with hvps
  · simp [hvps]
  · simp [hvps]

theorem activeVPS_addV3CParameterSet :
    (PCCBitstreamReader.addV3CParameterSet codec context next).activeVPS = context.activeVPS := rfl

theorem getVps_addV3CParameterSet (h : IsGroup.Alone group context vps) {id : ℕ}
    (hactive : context.activeVPS = some id) :
    (PCCBitstreamReader.addV3CParameterSet codec context next).getVps =
      if vps.v3cParameterSetId = id then some vps
      else if next.v3cParameterSetId = id then some next else none := by
  have hsets : (PCCBitstreamReader.addV3CParameterSet codec context next).vpccParameterSets =
      context.vpccParameterSets ++ [next] := rfl
  rw [getVps_of_some (activeVPS_addV3CParameterSet.trans hactive), hsets, h.parameterSets]
  split_ifs with hvps hnext
  · simp [hvps]
  · simp [hvps, hnext]
  · simp [hvps, hnext]

theorem checkProfile_of_getVps {s s' : PCCHighLevelSyntax A} (hatlases : s.atlasHLS = s'.atlasHLS)
    (hvps : s.getVps = s'.getVps) : s.checkProfile aspsList = s'.checkProfile aspsList := by
  unfold PCCHighLevelSyntax.checkProfile
  rw [hatlases, hvps]

theorem checkProfile_isSome (aspsList : A → List AtlasSequenceParameterSetRbsp)
    {s : PCCHighLevelSyntax A} (hvps : s.getVps = some vps)
    (hatlases : vps.atlases ≠ []) : (s.checkProfile aspsList).isSome := by
  unfold PCCHighLevelSyntax.checkProfile
  obtain ⟨atlas, rest, hcons⟩ := List.exists_cons_of_ne_nil hatlases
  split
  · rw [hvps]
    simp only [Option.bind_eq_bind, Option.bind_some, hcons, List.getElem?_cons_zero]
    split_ifs <;> rfl
  · rfl

theorem observed_addV3CParameterSet (h : IsGroup.Alone group context vps) :
    (PCCBitstreamReader.addV3CParameterSet codec context next).observed aspsList =
      context.observed aspsList ↔ Harmless group vps next := by
  obtain ⟨hactive, hindex⟩ := h.selects
  unfold PCCHighLevelSyntax.observed
  rw [Prod.mk.injEq, Prod.mk.injEq]
  constructor
  · rintro ⟨hatlases, hzero, hprofile⟩
    have hlength : next.atlases.length = vps.atlases.length := by
      rw [← h.length, ← hatlases]
      exact (length_allocateAtlasHLS _ _ _).symm
    refine ⟨hlength, fun header hselection => ?_, fun hone header hselection hid => ?_⟩
    · rw [hselection] at hindex
      exact hindex.symm.trans hzero.symm
    · by_contra hne
      rw [hselection] at hactive
      have halone : context.getVps = none := by
        rw [getVps_alone h hactive, if_neg]
        rw [hid]
        exact hne
      have hadded : (PCCBitstreamReader.addV3CParameterSet codec context next).getVps =
          some next := by
        rw [getVps_addV3CParameterSet h hactive, if_neg, if_pos hid.symm]
        rw [hid]
        exact hne
      have hsome := checkProfile_isSome aspsList hadded (by
        intro hnil
        rw [hnil] at hlength
        rw [← hlength] at hone
        cases hone)
      obtain ⟨hls, hhls⟩ := List.length_eq_one_iff.mp (h.length.trans hone)
      have hnone : context.checkProfile aspsList = none := by
        unfold PCCHighLevelSyntax.checkProfile
        rw [hhls, halone]
        rfl
      rw [hprofile, hnone] at hsome
      cases hsome
  · intro hharmless
    have hatlases := atlasHLS_addV3CParameterSet codec
      (hharmless.atlases.trans h.length.symm)
    have hzero : context.atlasIndex = 0 := by
      rw [hindex]
      cases hselection : selection group with
      | none => rfl
      | some header => exact hharmless.atlasIndex header hselection
    refine ⟨hatlases, hzero.symm, ?_⟩
    by_cases hone : vps.atlases.length = 1
    · apply checkProfile_of_getVps hatlases
      cases hselection : selection group with
      | none =>
        rw [hselection] at hactive
        rw [getVps_of_none (activeVPS_addV3CParameterSet.trans hactive), getVps_of_none hactive]
      | some header =>
        rw [hselection] at hactive
        rw [getVps_addV3CParameterSet h hactive, getVps_alone h hactive]
        split_ifs with hvps hnext
        · rfl
        · have := hharmless.activeVPS hone header hselection hnext.symm
          exact absurd (this.trans hnext) hvps
        · rfl
    · unfold PCCHighLevelSyntax.checkProfile
      rw [hatlases]
      have hlength := h.length
      split
      · rename_i hls hhls
        rw [hhls] at hlength
        exact absurd hlength.symm hone
      · rfl

end Harmless

/-- The parameter set of the following group does no harm to the group. -/
def NextHarmless (group next : List V3CUnit) : Prop :=
  ∀ vps vps', group.head?.bind PCCBitstreamReader.unitVps = some vps →
    next.head?.bind PCCBitstreamReader.unitVps = some vps' → Harmless group vps vps'

section Calls

variable {codec} {aspsList : A → List AtlasSequenceParameterSetRbsp} {group : List V3CUnit}
  {groups : List (List V3CUnit)}

/-- The call for a group takes the group off the stream. Its context is that of the group alone
if there is no other group, and has the parameter set of the next one otherwise. -/
theorem IsGroup.decode_flatten (aspsList : A → List AtlasSequenceParameterSetRbsp)
    (h : IsGroup codec group) {context : PCCHighLevelSyntax A}
    (hcontext : PCCBitstreamReader.decode codec {} group = some (context, []))
    (hgroups : ∀ next ∈ groups.head?, IsGroup codec next) :
    ∃ context', PCCBitstreamReader.decode codec {} (group ++ groups.flatten) =
        some (context', groups.flatten) ∧
      (context'.observed aspsList = context.observed aspsList ↔
        ∀ next ∈ groups.head?, NextHarmless group next) := by
  obtain ⟨vps, halone, hdecode⟩ := h.decode hcontext
  cases groups with
  | nil =>
    refine ⟨context, ?_, ?_⟩
    · rw [hdecode]
      rfl
    · exact iff_of_true rfl nofun
  | cons next groups =>
    have hnext := hgroups next rfl
    obtain ⟨context₂, hcontext₂⟩ := hnext.decodes
    obtain ⟨vps', halone', -⟩ := hnext.decode hcontext₂
    obtain ⟨first, rest, rfl, hfirst, -⟩ := hnext.starts
    have hvps' : PCCBitstreamReader.unitVps first = some vps' := halone'.parameterSet
    refine ⟨PCCBitstreamReader.addV3CParameterSet codec context vps', ?_, ?_⟩
    · rw [hdecode, List.flatten_cons, List.cons_append, PCCBitstreamReader.decodeLoop,
        v3cUnit_vps hfirst, hvps']
      rfl
    · rw [observed_addV3CParameterSet halone]
      constructor
      · rintro hharmless _ ⟨⟩ vps₁ vps₁' hvps₁ hvps₁'
        obtain rfl := Option.some.inj (hvps₁.symm.trans halone.parameterSet)
        obtain rfl := Option.some.inj (hvps₁'.symm.trans halone'.parameterSet)
        exact hharmless
      · intro hharmless
        exact hharmless _ rfl vps vps' halone.parameterSet halone'.parameterSet

/-- The first group, and the others. -/
theorem groupsSeparate_cons (h : IsGroup codec group)
    (hgroups : ∀ next ∈ groups.head?, IsGroup codec next) :
    GroupsSeparate codec aspsList (group :: groups) ↔
      (∀ next ∈ groups.head?, NextHarmless group next) ∧
        GroupsSeparate codec aspsList groups := by
  obtain ⟨context, hcontext⟩ := h.decodes
  obtain ⟨context', hdecode, hobserved⟩ :=
    h.decode_flatten aspsList hcontext hgroups
  have htaken : (group ++ groups.flatten).take
      ((group ++ groups.flatten).length - groups.flatten.length) = group := by
    rw [List.length_append, Nat.add_sub_cancel, List.take_left]
  have hcalls : ∀ n, PCCBitstreamReader.decodeAll codec (n + 1) (group :: groups).flatten =
      (PCCBitstreamReader.decodeAll codec n groups.flatten).map ((context', group) :: ·) := by
    intro n
    obtain ⟨first, rest, hcons, -⟩ := h.starts
    rw [List.flatten_cons]
    rw [hcons, List.cons_append, PCCBitstreamReader.decodeAll, ← List.cons_append, ← hcons,
      hdecode]
    swap
    · exact List.cons_ne_nil _ _
    simp only [Option.bind_eq_bind, Option.bind_some, htaken]
    cases PCCBitstreamReader.decodeAll codec n groups.flatten <;> rfl
  rw [← hobserved]
  constructor
  · rintro ⟨n, calls, contexts, hall, htakes, halone, hsame⟩
    cases n with
    | zero =>
      obtain ⟨first, rest, rfl, -⟩ := h.starts
      cases hall
    | succ n =>
      rw [hcalls] at hall
      obtain ⟨more, hmore, rfl⟩ := Option.map_eq_some_iff.mp hall
      rw [List.mapM_cons, hcontext] at halone
      obtain ⟨_, ⟨⟩, halone⟩ := Option.bind_eq_some_iff.mp halone
      obtain ⟨ends, hends, halone⟩ := Option.bind_eq_some_iff.mp halone
      cases contexts with
      | nil => cases halone
      | cons first contexts =>
        obtain ⟨hfirst, hrest⟩ := List.cons.inj (Option.some.inj halone)
        obtain ⟨rfl, -⟩ := Prod.mk.inj hfirst
        obtain ⟨hobs, hsame⟩ := List.cons.inj hsame
        refine ⟨hobs, n, more, contexts, hmore, (List.cons.inj htakes).2, ?_, hsame⟩
        rw [hends, hrest]
  · rintro ⟨hobs, n, calls, contexts, hall, htakes, halone, hsame⟩
    refine ⟨n + 1, (context', group) :: calls, context :: contexts, ?_, ?_, ?_, ?_⟩
    · rw [hcalls, hall]
      rfl
    · rw [List.map_cons, htakes]
    · rw [List.mapM_cons, hcontext, halone]
      rfl
    · rw [List.map_cons, List.map_cons, hobs, hsame]

/-- Every group has a context of its own exactly if the parameter set of no group does harm to
the group before it. -/
theorem groupsSeparate_iff (codec : AtlasCodec A)
    (aspsList : A → List AtlasSequenceParameterSetRbsp) {groups : List (List V3CUnit)}
    (hgroups : ∀ group ∈ groups, IsGroup codec group) :
    GroupsSeparate codec aspsList groups ↔ groups.IsChain NextHarmless := by
  induction groups with
  | nil =>
    apply iff_of_true
    · exact ⟨0, [], [], rfl, rfl, rfl, rfl⟩
    · exact List.IsChain.nil
  | cons group groups ih =>
    have hgroup := hgroups group List.mem_cons_self
    have hrest : ∀ next ∈ groups, IsGroup codec next :=
      fun next hnext => hgroups next (List.mem_cons_of_mem group hnext)
    have hhead : ∀ next ∈ groups.head?, IsGroup codec next :=
      fun next hnext => hrest next (List.mem_of_mem_head? hnext)
    rw [groupsSeparate_cons hgroup hhead, ih hrest]
    cases groups with
    | nil => simp
    | cons next groups => simp

end Calls

def oneAtlasUnit : V3CUnit where
  type := V3C_VPS
  size := 18
  data := [0, 0, 0, 0, 0, 0, 0, 0, 0, 255, 255, 0, 0, 0, 0, 0, 80, 4]

def twoAtlasesUnit : V3CUnit where
  type := V3C_VPS
  size := 20
  data := [0, 0, 0, 0, 0, 0, 0, 0, 0, 255, 255, 0, 0, 0, 0, 64, 80, 0, 20, 1]

def atlasUnit : V3CUnit where
  type := V3C_AD
  size := 5
  data := [8, 0, 0, 0, 7]

private theorem decodes_of_count {group : List V3CUnit}
    (h : (PCCBitstreamReader.decode verbatim {} group).map (fun run => run.2.length) = some 0) :
    ∃ context, PCCBitstreamReader.decode verbatim {} group = some (context, []) := by
  obtain ⟨⟨context, rest⟩, hrun, hrest⟩ := Option.map_eq_some_iff.mp h
  obtain rfl := List.length_eq_zero_iff.mp hrest
  exact ⟨context, hrun⟩

private theorem isGroup_oneAtlas : IsGroup verbatim [oneAtlasUnit, atlasUnit] where
  starts := ⟨oneAtlasUnit, [atlasUnit], rfl, by decide +kernel, by decide +kernel⟩
  decodes := decodes_of_count (by decide +kernel)

private theorem isGroup_twoAtlases : IsGroup verbatim [twoAtlasesUnit] where
  starts := ⟨twoAtlasesUnit, [], rfl, by decide +kernel, nofun⟩
  decodes := decodes_of_count (by decide +kernel)

private theorem selection_oneAtlas : selection [oneAtlasUnit, atlasUnit] = some {} := by
  decide +kernel

/-- Two groups of one atlas, with the same parameter set. -/
theorem groupsSeparate_oneAtlas :
    GroupsSeparate verbatim (fun _ => [])
      [[oneAtlasUnit, atlasUnit], [oneAtlasUnit, atlasUnit]] := by
  apply (groupsSeparate_iff verbatim (fun _ => []) ?_).mpr
  · apply List.isChain_cons_cons.mpr
    refine ⟨fun vps vps' hvps hvps' => ?_, List.IsChain.singleton _⟩
    obtain rfl := Option.some.inj (hvps.symm.trans hvps')
    refine ⟨rfl, fun h hselection => ?_, fun _ _ _ _ => rfl⟩
    rw [selection_oneAtlas] at hselection
    obtain rfl := Option.some.inj hselection
    rfl
  · intro group hgroup
    rcases List.mem_pair.mp hgroup with rfl | rfl <;> exact isGroup_oneAtlas

private theorem atlasCounts :
    ([oneAtlasUnit, atlasUnit].head?.bind PCCBitstreamReader.unitVps).map
        (fun vps => vps.atlases.length) = some 1 ∧
      ([twoAtlasesUnit].head?.bind PCCBitstreamReader.unitVps).map
        (fun vps => vps.atlases.length) = some 2 := by
  decide +kernel

/-- The context of a group of one atlas has two atlases when those of the next group are two,
so the group is rejected. -/
theorem not_groupsSeparate_twoAtlases :
    (∀ group ∈ [[oneAtlasUnit, atlasUnit], [twoAtlasesUnit]], IsGroup verbatim group) ∧
      ¬GroupsSeparate verbatim (fun _ => []) [[oneAtlasUnit, atlasUnit], [twoAtlasesUnit]] := by
  constructor
  · intro group hgroup
    rcases List.mem_pair.mp hgroup with rfl | rfl
    · exact isGroup_oneAtlas
    · exact isGroup_twoAtlases
  · intro h
    have hhead : ∀ next ∈ [[twoAtlasesUnit]].head?, IsGroup verbatim next := by
      rintro _ ⟨⟩
      exact isGroup_twoAtlases
    have hharmless := ((groupsSeparate_cons isGroup_oneAtlas hhead).mp h).1 _ rfl
    obtain ⟨hone, htwo⟩ := atlasCounts
    obtain ⟨vps, hvps, hlength⟩ := Option.map_eq_some_iff.mp hone
    obtain ⟨vps', hvps', hlength'⟩ := Option.map_eq_some_iff.mp htwo
    have heq := (hharmless vps vps' hvps hvps').atlases
    rw [hlength, hlength'] at heq
    exact absurd heq (by decide)

end V3C

import V3C.Syntax.TileHeaderReader
import V3C.Store.Keyed

/-! Sequences of parameter set NAL units. The reader appends every set and looks it up by
position; the sets that ids stand for are the latest ones. The two lookups agree exactly
when every id that arrives is in place. -/
namespace V3C
open Codec

/-- A parameter set that has arrived. A frame set comes with the sequence set it was parsed
with. -/
inductive ReceivedSet
  | asps (set : AtlasSequenceParameterSetRbsp)
  | afps (set : AtlasFrameParameterSetRbsp) (active : AtlasSequenceParameterSetRbsp)

namespace ReceivedSet

def asps? : ReceivedSet → Option AtlasSequenceParameterSetRbsp
  | asps set => some set
  | afps _ _ => none

def afps? : ReceivedSet → Option AtlasFrameParameterSetRbsp
  | asps _ => none
  | afps set _ => some set

/-- The ids in a set stand for the sets it was parsed with. -/
def Resolves (sets : ActiveSets) : ReceivedSet → Prop
  | asps _ => True
  | afps set active => sets.asps set.atlasSequenceParameterSetId = some active

end ReceivedSet

namespace PCCAtlasHighLevelSyntax

def byPosition (syntax' : PCCAtlasHighLevelSyntax) : ActiveSets where
  asps := syntax'.getAtlasSequenceParameterSet
  afps := syntax'.getAtlasFrameParameterSet

/-- `addAtlasSequenceParameterSet()` and `addAtlasFrameParameterSet()`, after the parsing. -/
def add (syntax' : PCCAtlasHighLevelSyntax) : ReceivedSet → PCCAtlasHighLevelSyntax
  | .asps set =>
    { syntax' with atlasSequenceParameterSet := syntax'.atlasSequenceParameterSet ++ [set] }
  | .afps set _ =>
    { syntax' with atlasFrameParameterSet := syntax'.atlasFrameParameterSet ++ [set] }

end PCCAtlasHighLevelSyntax

structure NalUnit where
  type : ℕ
  layerId : ℕ
  temporalyIdPlus1 : ℕ
  size : ℕ

namespace PCCBitstreamReader

/-- `nalu.allocate()` has no room for a size below that of the header. -/
def nalUnitHeader (size : ℕ) : Reader NalUnit :=
  if size < 2 then Reader.fail
  else do
    let _ ← read 1
    let type ← read 6
    let layerId ← read 6
    let temporalyIdPlus1 ← read 3
    pure { type, layerId, temporalyIdPlus1, size }

/-- `sampleStreamNalUnit` on the NAL units of parameter sets. -/
def parameterSetNalUnit (sets : ActiveSets) (sizePrecisionBytesMinus1 : ℕ) :
    Reader ReceivedSet := do
  let size ← read (8 * (sizePrecisionBytesMinus1 + 1) % 2 ^ 8)
  let nalu ← nalUnitHeader size
  if nalu.type = NAL_ASPS then do
    let asps ← atlasSequenceParameterSetRbsp
    pure (.asps asps)
  else if nalu.type = NAL_AFPS then do
    let (afps, asps) ← atlasFrameParameterSetRbsp sets
    pure (.afps afps asps)
  else Reader.fail

/-- `n` parameter set NAL units of a sample stream. -/
def sampleStreamParameterSets (sizePrecisionBytesMinus1 : ℕ) :
    ℕ → PCCAtlasHighLevelSyntax → Reader (PCCAtlasHighLevelSyntax × List ReceivedSet)
  | 0, syntax' => pure (syntax', [])
  | n + 1, syntax' => do
    let set ← parameterSetNalUnit syntax'.byPosition sizePrecisionBytesMinus1
    let (syntax', sets) ← sampleStreamParameterSets sizePrecisionBytesMinus1 n (syntax'.add set)
    pure (syntax', set :: sets)

end PCCBitstreamReader

/-! ### The sets that ids stand for -/

def aspsOf (history : List ReceivedSet) : List AtlasSequenceParameterSetRbsp :=
  history.filterMap ReceivedSet.asps?

def afpsOf (history : List ReceivedSet) : List AtlasFrameParameterSetRbsp :=
  history.filterMap ReceivedSet.afps?

/-- An id stands for the latest set that carries it. -/
def ActiveSets.latest (history : List ReceivedSet) : ActiveSets where
  asps := Keyed.latest (·.atlasSequenceParameterSetId) (aspsOf history)
  afps := Keyed.latest (·.atlasFrameParameterSetId) (afpsOf history)

/-- Positions in the order of arrival. -/
def ActiveSets.position (history : List ReceivedSet) : ActiveSets where
  asps id := (aspsOf history)[id]?
  afps id := (afpsOf history)[id]?

/-- `n` parameter set NAL units, where the sets received so far decide what an id means. -/
def readParameterSets (meaning : List ReceivedSet → ActiveSets) (sizePrecisionBytesMinus1 : ℕ) :
    ℕ → List ReceivedSet → Reader (List ReceivedSet)
  | 0, _ => pure []
  | n + 1, history => do
    let set ← PCCBitstreamReader.parameterSetNalUnit (meaning history) sizePrecisionBytesMinus1
    let sets ← readParameterSets meaning sizePrecisionBytesMinus1 n (history ++ [set])
    pure (set :: sets)

/-- What a high level syntax holds after a sequence of parameter sets is, under every id,
the latest set, and all that refers to an id was and will be parsed with that set. -/
structure Activated (syntax' : PCCAtlasHighLevelSyntax) (received : List ReceivedSet) : Prop where
  asps : ∀ id set, (ActiveSets.latest received).asps id = some set →
    syntax'.getAtlasSequenceParameterSet id = some set
  afps : ∀ id set, (ActiveSets.latest received).afps id = some set →
    syntax'.getAtlasFrameParameterSet id = some set
  resolved : ∀ before set after, received = before ++ set :: after →
    set.Resolves (ActiveSets.latest before)
  tileHeader : ∀ nalUnitType c header,
    PCCBitstreamReader.atlasTileHeader (ActiveSets.latest received) nalUnitType c =
      some header →
    PCCBitstreamReader.atlasTileHeader syntax'.byPosition nalUnitType c = some header

/-- The reader parses `n` units from `c` on and activates the latest sets. -/
def ParameterSetsActivated (sizePrecisionBytesMinus1 n : ℕ) (c : Cursor) : Prop :=
  ∃ syntax' received c',
    PCCBitstreamReader.sampleStreamParameterSets sizePrecisionBytesMinus1 n {} c =
      some ((syntax', received), c') ∧ Activated syntax' received

/-- Every id that arrives is the position of its set among the sets of its kind, also at
the moment a frame set refers to it. -/
structure IdsInPlace (received : List ReceivedSet) : Prop where
  asps : ∀ set ∈ aspsOf received, Keyed.InPlace (·.atlasSequenceParameterSetId)
    (aspsOf received) set.atlasSequenceParameterSetId
  afps : ∀ set ∈ afpsOf received, Keyed.InPlace (·.atlasFrameParameterSetId)
    (afpsOf received) set.atlasFrameParameterSetId
  referenced : ∀ before set active after, received = before ++ .afps set active :: after →
    Keyed.InPlace (·.atlasSequenceParameterSetId) (aspsOf before)
      set.atlasSequenceParameterSetId

namespace PCCBitstreamReader

/-- The body of a frame parameter set keeps the id it refers to. -/
theorem aspsId_of_body {id aspsId : ℕ} {asps : AtlasSequenceParameterSetRbsp}
    {afps : AtlasFrameParameterSetRbsp} {c c' : Cursor}
    (h : atlasFrameParameterSetBody id aspsId asps c = some (afps, c')) :
    afps.atlasSequenceParameterSetId = aspsId := by
  unfold atlasFrameParameterSetBody at h
  iterate 9 obtain ⟨_, _, -, h⟩ := Reader.bind_run_eq_some.mp h
  obtain ⟨rfl, -⟩ := Prod.mk.inj (Option.some.inj h)
  rfl

/-- A frame parameter set is parsed with the set its id stands for, and with nothing else
of the sets. -/
theorem atlasFrameParameterSetRbsp_eq_some {sets : ActiveSets} {c c' : Cursor}
    {afps : AtlasFrameParameterSetRbsp} {asps : AtlasSequenceParameterSetRbsp}
    (h : atlasFrameParameterSetRbsp sets c = some ((afps, asps), c')) :
    sets.asps afps.atlasSequenceParameterSetId = some asps ∧
      ∀ sets' : ActiveSets, sets'.asps afps.atlasSequenceParameterSetId = some asps →
        atlasFrameParameterSetRbsp sets' c = some ((afps, asps), c') := by
  obtain ⟨id, c₁, hid, h⟩ := Reader.bind_run_eq_some.mp h
  obtain ⟨aspsId, c₂, haspsId, h⟩ := Reader.bind_run_eq_some.mp h
  obtain ⟨active, c₃, hactive, h⟩ := Reader.bind_run_eq_some.mp h
  obtain ⟨set, c₄, hbody, h⟩ := Reader.bind_run_eq_some.mp h
  cases h
  have hsame := aspsId_of_body hbody
  obtain ⟨hlookup, rfl⟩ := Reader.ofOption_run_eq_some.mp hactive
  constructor
  · rwa [hsame]
  · intro sets' hsets'
    rw [hsame] at hsets'
    have hactive' : Reader.ofOption (sets'.asps aspsId) c₃ = some (asps, c₃) :=
      Reader.ofOption_run_eq_some.mpr ⟨hsets', rfl⟩
    unfold atlasFrameParameterSetRbsp
    simp only [Reader.bind_run, hid, haspsId, hactive', hbody, Option.bind_some]
    rfl

/-- The same for a tile header, which refers to a frame set and through it to a sequence
set. -/
theorem atlasTileHeader_of_agree {sets sets' : ActiveSets}
    (hasps : ∀ id set, sets.asps id = some set → sets'.asps id = some set)
    (hafps : ∀ id set, sets.afps id = some set → sets'.afps id = some set)
    {nalUnitType : ℕ} {c : Cursor}
    {header : (AtlasTileHeader × AtlasFrameParameterSetRbsp × AtlasSequenceParameterSetRbsp) ×
      Cursor}
    (h : atlasTileHeader sets nalUnitType c = some header) :
    atlasTileHeader sets' nalUnitType c = some header := by
  unfold atlasTileHeader at h ⊢
  obtain ⟨flag, c₁, hflag, h⟩ := Reader.bind_run_eq_some.mp h
  obtain ⟨afpsId, c₂, hafpsId, h⟩ := Reader.bind_run_eq_some.mp h
  obtain ⟨aapsId, c₃, haapsId, h⟩ := Reader.bind_run_eq_some.mp h
  obtain ⟨afps, c₄, hafpsSet, hrest⟩ := Reader.bind_run_eq_some.mp h
  obtain ⟨asps, c₅, haspsSet, hbody⟩ := Reader.bind_run_eq_some.mp hrest
  obtain ⟨hlookup, rfl⟩ := Reader.ofOption_run_eq_some.mp hafpsSet
  obtain ⟨hlookup', rfl⟩ := Reader.ofOption_run_eq_some.mp haspsSet
  have hafps' := Reader.ofOption_run_eq_some (c := c₅).mpr ⟨hafps _ _ hlookup, rfl⟩
  have hasps' := Reader.ofOption_run_eq_some (c := c₅).mpr ⟨hasps _ _ hlookup', rfl⟩
  simp only [Reader.bind_run, hflag, hafpsId, haapsId, hafps', hasps', Option.bind_some]
  exact hbody

theorem parameterSetNalUnit_eq_some {sets : ActiveSets} {sizePrecisionBytesMinus1 : ℕ}
    {set : ReceivedSet} {c c' : Cursor}
    (h : parameterSetNalUnit sets sizePrecisionBytesMinus1 c = some (set, c')) :
    set.Resolves sets ∧ ∀ sets' : ActiveSets, set.Resolves sets' →
      parameterSetNalUnit sets' sizePrecisionBytesMinus1 c = some (set, c') := by
  unfold parameterSetNalUnit at h ⊢
  obtain ⟨size, c₁, hsize, h⟩ := Reader.bind_run_eq_some.mp h
  obtain ⟨nalu, c₂, hnalu, h⟩ := Reader.bind_run_eq_some.mp h
  simp only [Reader.bind_run, hsize, hnalu, Option.bind_some]
  by_cases hasps : nalu.type = NAL_ASPS
  · rw [if_pos hasps] at h
    simp only [if_pos hasps]
    obtain ⟨asps, c₃, hset, heq⟩ := Reader.bind_run_eq_some.mp h
    cases heq
    exact ⟨trivial, fun _ _ => h⟩
  · rw [if_neg hasps] at h
    simp only [if_neg hasps]
    by_cases hafps : nalu.type = NAL_AFPS
    · rw [if_pos hafps] at h
      simp only [if_pos hafps]
      obtain ⟨⟨afps, asps⟩, c₃, hset, heq⟩ := Reader.bind_run_eq_some.mp h
      cases heq
      obtain ⟨hresolves, hother⟩ := atlasFrameParameterSetRbsp_eq_some hset
      refine ⟨hresolves, fun sets' hsets' => ?_⟩
      rw [Reader.bind_run, hother sets' hsets']
      rfl
    · rw [if_neg hafps] at h
      simp [Reader.fail] at h

end PCCBitstreamReader

/-! ### Runs -/

section Runs
variable {meaning : List ReceivedSet → ActiveSets} {sizePrecisionBytesMinus1 n : ℕ}
  {history received : List ReceivedSet} {c c' : Cursor}

/-- In a run every set was parsed with what the ids meant when it arrived. -/
theorem resolves_of_readParameterSets
    (h : readParameterSets meaning sizePrecisionBytesMinus1 n history c = some (received, c'))
    {before after : List ReceivedSet} {set : ReceivedSet}
    (hsplit : received = before ++ set :: after) : set.Resolves (meaning (history ++ before)) := by
  induction n generalizing history received before c with
  | zero =>
    cases h
    simp at hsplit
  | succ n ih =>
    obtain ⟨first, c₁, hfirst, h⟩ := Reader.bind_run_eq_some.mp h
    obtain ⟨sets, c₂, hsets, h⟩ := Reader.bind_run_eq_some.mp h
    cases h
    cases before with
    | nil =>
      obtain ⟨rfl, -⟩ := List.cons.inj hsplit
      rw [List.append_nil]
      exact (PCCBitstreamReader.parameterSetNalUnit_eq_some hfirst).1
    | cons b before =>
      obtain ⟨rfl, htail⟩ := List.cons.inj hsplit
      have := ih hsets htail
      rwa [List.append_assoc] at this

/-- A run is also a run under every other meaning of the ids that its sets resolve to. -/
theorem readParameterSets_of_resolves (meaning' : List ReceivedSet → ActiveSets)
    (h : readParameterSets meaning sizePrecisionBytesMinus1 n history c = some (received, c'))
    (hresolves : ∀ before set after, received = before ++ set :: after →
      set.Resolves (meaning' (history ++ before))) :
    readParameterSets meaning' sizePrecisionBytesMinus1 n history c = some (received, c') := by
  induction n generalizing history received c with
  | zero => exact h
  | succ n ih =>
    obtain ⟨first, c₁, hfirst, h⟩ := Reader.bind_run_eq_some.mp h
    obtain ⟨sets, c₂, hsets, h⟩ := Reader.bind_run_eq_some.mp h
    cases h
    have hhead : first.Resolves (meaning' history) := by
      simpa using hresolves [] first sets rfl
    have hfirst' := (PCCBitstreamReader.parameterSetNalUnit_eq_some hfirst).2 _ hhead
    have htail := ih hsets fun before set after hsplit => by
      have := hresolves (first :: before) set after (by rw [hsplit, List.cons_append])
      rwa [List.append_assoc]
    unfold readParameterSets
    simp only [Reader.bind_run, hfirst', htail, Option.bind_some]
    rfl

end Runs

namespace PCCAtlasHighLevelSyntax

/-- The parameter sets of a high level syntax are those received, in their order. -/
structure Holds (syntax' : PCCAtlasHighLevelSyntax) (history : List ReceivedSet) : Prop where
  asps : syntax'.atlasSequenceParameterSet = aspsOf history
  afps : syntax'.atlasFrameParameterSet = afpsOf history

theorem Holds.byPosition {syntax' : PCCAtlasHighLevelSyntax} {history : List ReceivedSet}
    (h : syntax'.Holds history) : syntax'.byPosition = ActiveSets.position history := by
  unfold PCCAtlasHighLevelSyntax.byPosition ActiveSets.position getAtlasSequenceParameterSet
    getAtlasFrameParameterSet
  rw [h.asps, h.afps]

theorem Holds.add {syntax' : PCCAtlasHighLevelSyntax} {history : List ReceivedSet}
    (h : syntax'.Holds history) (set : ReceivedSet) :
    (syntax'.add set).Holds (history ++ [set]) := by
  cases set with
  | asps set =>
    constructor
    · simp [PCCAtlasHighLevelSyntax.add, h.asps, aspsOf, ReceivedSet.asps?]
    · simp [PCCAtlasHighLevelSyntax.add, h.afps, afpsOf, ReceivedSet.afps?]
  | afps set active =>
    constructor
    · simp [PCCAtlasHighLevelSyntax.add, h.asps, aspsOf, ReceivedSet.asps?]
    · simp [PCCAtlasHighLevelSyntax.add, h.afps, afpsOf, ReceivedSet.afps?]

section
variable {syntax' syntax'' : PCCAtlasHighLevelSyntax} {history received : List ReceivedSet}
  {sizePrecisionBytesMinus1 n : ℕ} {c c' : Cursor}

/-- The reader is a run in which an id means a position, and it keeps what it receives. -/
theorem Holds.of_run (hsyn : syntax'.Holds history)
    (h : PCCBitstreamReader.sampleStreamParameterSets sizePrecisionBytesMinus1 n syntax' c =
      some ((syntax'', received), c')) :
    syntax''.Holds (history ++ received) ∧
      readParameterSets ActiveSets.position sizePrecisionBytesMinus1 n history c =
        some (received, c') := by
  induction n generalizing syntax' history received c with
  | zero =>
    cases h
    rw [List.append_nil]
    exact ⟨hsyn, rfl⟩
  | succ n ih =>
    obtain ⟨first, c₁, hfirst, h⟩ := Reader.bind_run_eq_some.mp h
    obtain ⟨⟨last, sets⟩, c₂, hsets, h⟩ := Reader.bind_run_eq_some.mp h
    cases h
    obtain ⟨hlast, htail⟩ := ih (hsyn.add first) hsets
    rw [List.append_assoc] at hlast
    rw [hsyn.byPosition] at hfirst
    constructor
    · exact hlast
    · unfold readParameterSets
      simp only [Reader.bind_run, hfirst, htail, Option.bind_some]
      rfl

/-- Every run in which an id means a position is one of the reader. -/
theorem Holds.run (hsyn : syntax'.Holds history)
    (h : readParameterSets ActiveSets.position sizePrecisionBytesMinus1 n history c =
      some (received, c')) :
    ∃ syntax'', PCCBitstreamReader.sampleStreamParameterSets sizePrecisionBytesMinus1 n
      syntax' c = some ((syntax'', received), c') := by
  induction n generalizing syntax' history received c with
  | zero =>
    cases h
    exact ⟨syntax', rfl⟩
  | succ n ih =>
    obtain ⟨first, c₁, hfirst, h⟩ := Reader.bind_run_eq_some.mp h
    obtain ⟨sets, c₂, hsets, h⟩ := Reader.bind_run_eq_some.mp h
    cases h
    obtain ⟨last, hlast⟩ := ih (hsyn.add first) hsets
    rw [← hsyn.byPosition] at hfirst
    refine ⟨last, ?_⟩
    unfold PCCBitstreamReader.sampleStreamParameterSets
    simp only [Reader.bind_run, hfirst, hlast, Option.bind_some]
    rfl

end

end PCCAtlasHighLevelSyntax

theorem holds_empty : PCCAtlasHighLevelSyntax.Holds {} [] := ⟨rfl, rfl⟩

section Activation
variable {received : List ReceivedSet}

/-- The sets of an in-place sequence are found by position. -/
theorem IdsInPlace.position (h : IdsInPlace received) :
    (∀ id set, (ActiveSets.latest received).asps id = some set →
      (ActiveSets.position received).asps id = some set) ∧
    (∀ id set, (ActiveSets.latest received).afps id = some set →
      (ActiveSets.position received).afps id = some set) := by
  constructor
  · intro id set hset
    have hplace := h.asps set (Keyed.mem_of_latest hset)
    rw [Keyed.key_of_latest hset] at hplace
    exact (Keyed.getElem?_eq_latest_iff hset).mpr hplace
  · intro id set hset
    have hplace := h.afps set (Keyed.mem_of_latest hset)
    rw [Keyed.key_of_latest hset] at hplace
    exact (Keyed.getElem?_eq_latest_iff hset).mpr hplace

theorem IdsInPlace.resolves (h : IdsInPlace received) {before after : List ReceivedSet}
    {set : ReceivedSet} (hsplit : received = before ++ set :: after)
    (hset : set.Resolves (ActiveSets.latest before)) :
    set.Resolves (ActiveSets.position before) := by
  cases set with
  | asps set => trivial
  | afps set active =>
    exact (Keyed.getElem?_eq_latest_iff hset).mpr (h.referenced before set active after hsplit)

end Activation

/-- The reader activates, for every id, the latest set that carries it exactly when every
id is in place among the sets as they arrive. -/
theorem parameterSetsActivated_iff_inPlace {sizePrecisionBytesMinus1 n : ℕ} {c c' : Cursor}
    {received : List ReceivedSet}
    (h : readParameterSets ActiveSets.latest sizePrecisionBytesMinus1 n [] c =
      some (received, c')) :
    ParameterSetsActivated sizePrecisionBytesMinus1 n c ↔ IdsInPlace received := by
  constructor
  · rintro ⟨syntax', arrived, c'', hrun, hactivated⟩
    obtain ⟨hholds, hposition⟩ := holds_empty.of_run hrun
    -- the sets resolve to the latest ones, so the reader's run is the given one
    have hlatest := readParameterSets_of_resolves ActiveSets.latest hposition
      hactivated.resolved
    obtain ⟨rfl, rfl⟩ := Prod.mk.inj (Option.some.inj (h.symm.trans hlatest))
    have hget : ∀ id, syntax'.getAtlasSequenceParameterSet id = (aspsOf received)[id]? := by
      intro id
      rw [PCCAtlasHighLevelSyntax.getAtlasSequenceParameterSet, hholds.asps, List.nil_append]
    have hget' : ∀ id, syntax'.getAtlasFrameParameterSet id = (afpsOf received)[id]? := by
      intro id
      rw [PCCAtlasHighLevelSyntax.getAtlasFrameParameterSet, hholds.afps, List.nil_append]
    constructor
    · intro set hset
      obtain ⟨last, hlast⟩ := Keyed.exists_latest (·.atlasSequenceParameterSetId) hset
      have hfound := hactivated.asps _ last hlast
      rw [hget] at hfound
      exact (Keyed.getElem?_eq_latest_iff hlast).mp hfound
    · intro set hset
      obtain ⟨last, hlast⟩ := Keyed.exists_latest (·.atlasFrameParameterSetId) hset
      have hfound := hactivated.afps _ last hlast
      rw [hget'] at hfound
      exact (Keyed.getElem?_eq_latest_iff hlast).mp hfound
    · intro before set active after hsplit
      have hlast := hactivated.resolved before _ after hsplit
      have hfound := resolves_of_readParameterSets hposition hsplit
      exact (Keyed.getElem?_eq_latest_iff hlast).mp hfound
  · intro hplace
    have hposition : readParameterSets ActiveSets.position sizePrecisionBytesMinus1 n [] c =
        some (received, c') := by
      apply readParameterSets_of_resolves ActiveSets.position h
      intro before set after hsplit
      exact hplace.resolves hsplit (resolves_of_readParameterSets h hsplit)
    obtain ⟨syntax', hrun⟩ := holds_empty.run hposition
    obtain ⟨hholds, -⟩ := holds_empty.of_run hrun
    rw [List.nil_append] at hholds
    obtain ⟨hasps, hafps⟩ := hplace.position
    refine ⟨syntax', received, c', hrun, ?_⟩
    constructor
    · intro id set hset
      have := hasps id set hset
      rwa [← hholds.byPosition] at this
    · intro id set hset
      have := hafps id set hset
      rwa [← hholds.byPosition] at this
    · intro before set after hsplit
      exact resolves_of_readParameterSets h hsplit
    · intro nalUnitType d header hheader
      rw [hholds.byPosition]
      exact PCCBitstreamReader.atlasTileHeader_of_agree hasps hafps hheader

/-! ### Two sequences -/

def ReceivedSet.ids : ReceivedSet → ℕ ⊕ ℕ × ℕ
  | asps set => .inl set.atlasSequenceParameterSetId
  | afps set _ => .inr (set.atlasFrameParameterSetId, set.atlasSequenceParameterSetId)

/-- A sequence set and a frame set, both with id 0. -/
def inOrderSets : Cursor :=
  ⟨0, bitsOfBytes [7, 72, 1, 168, 1, 160, 0, 2, 4, 74, 1, 230, 32]⟩

/-- Two sequence sets with id 0, of frame width 1 and 2. -/
def resentSets : Cursor :=
  ⟨0, bitsOfBytes [7, 72, 1, 168, 1, 160, 0, 2, 7, 72, 1, 184, 1, 160, 0, 2]⟩

private theorem ids_inOrderSets :
    (readParameterSets ActiveSets.latest 0 2 [] inOrderSets).map
      (fun run => run.1.map ReceivedSet.ids) = some [.inl 0, .inr (0, 0)] := by
  decide +kernel

private theorem frameWidths_resentSets :
    (readParameterSets ActiveSets.latest 0 2 [] resentSets).map
        (fun run => run.1.map ReceivedSet.ids) = some [.inl 0, .inl 0] ∧
      (PCCBitstreamReader.sampleStreamParameterSets 0 2 {} resentSets).map
        (fun run => (aspsOf run.1.2).map fun asps =>
          (asps.atlasSequenceParameterSetId, asps.frameWidth)) = some [(0, 1), (0, 2)] := by
  decide +kernel

private theorem idsInPlace_of_zero {asps active : AtlasSequenceParameterSetRbsp}
    {afps : AtlasFrameParameterSetRbsp} (hasps : asps.atlasSequenceParameterSetId = 0)
    (hafps : afps.atlasFrameParameterSetId = 0) (href : afps.atlasSequenceParameterSetId = 0) :
    IdsInPlace [.asps asps, .afps afps active] := by
  have hplace : Keyed.InPlace (·.atlasSequenceParameterSetId) [asps] 0 :=
    Keyed.inPlace_singleton hasps
  constructor
  · intro set hset
    obtain rfl := List.mem_singleton.mp hset
    rw [hasps]
    exact hplace
  · intro set hset
    obtain rfl := List.mem_singleton.mp hset
    rw [hafps]
    exact Keyed.inPlace_singleton hafps
  · intro before set active' after hsplit
    rcases before with _ | ⟨b, before⟩
    · simp at hsplit
    · obtain ⟨rfl, htail⟩ := List.cons.inj hsplit
      rcases before with _ | ⟨b, before⟩
      · obtain ⟨hset, -⟩ := List.cons.inj htail
        obtain ⟨rfl, -⟩ := ReceivedSet.afps.inj hset
        rw [href]
        exact hplace
      · simp at htail

theorem parameterSetsActivated_in_order : ParameterSetsActivated 0 2 inOrderSets := by
  obtain ⟨⟨received, c'⟩, hrun, hids⟩ := Option.map_eq_some_iff.mp ids_inOrderSets
  apply (parameterSetsActivated_iff_inPlace hrun).mpr
  obtain ⟨first, rest, rfl, hfirst, hrest⟩ := List.map_eq_cons_iff.mp hids
  obtain ⟨second, rest, rfl, hsecond, hrest⟩ := List.map_eq_cons_iff.mp hrest
  obtain rfl := List.map_eq_nil_iff.mp hrest
  cases first with
  | afps set active => simp [ReceivedSet.ids] at hfirst
  | asps asps =>
    cases second with
    | asps set => simp [ReceivedSet.ids] at hsecond
    | afps afps active =>
      simp only [ReceivedSet.ids, Sum.inl.injEq, Sum.inr.injEq, Prod.mk.injEq] at hfirst hsecond
      exact idsInPlace_of_zero hfirst hsecond.1 hsecond.2

/-- The second set replaces the first one, and the reader goes on with the first one. -/
theorem not_parameterSetsActivated_resent :
    (∃ received c', readParameterSets ActiveSets.latest 0 2 [] resentSets =
      some (received, c')) ∧ ¬ ParameterSetsActivated 0 2 resentSets := by
  obtain ⟨hspec, hcode⟩ := frameWidths_resentSets
  constructor
  · obtain ⟨⟨received, c'⟩, hrun, -⟩ := Option.map_eq_some_iff.mp hspec
    exact ⟨received, c', hrun⟩
  · rintro ⟨syntax', received, c', hrun, hactivated⟩
    obtain ⟨hholds, -⟩ := holds_empty.of_run hrun
    rw [hrun, Option.map_some, Option.some.injEq] at hcode
    obtain ⟨first, rest, hsets, hfirst, hrest⟩ := List.map_eq_cons_iff.mp hcode
    obtain ⟨second, rest, rfl, hsecond, hrest⟩ := List.map_eq_cons_iff.mp hrest
    obtain rfl := List.map_eq_nil_iff.mp hrest
    obtain ⟨hid, hwidth⟩ := Prod.mk.inj hsecond
    have hlatest : (ActiveSets.latest received).asps 0 = some second := by
      change Keyed.latest _ (aspsOf received) 0 = _
      rw [show aspsOf received = [first] ++ [second] from hsets, Keyed.latest_concat, if_pos hid]
    have hfound := hactivated.asps 0 second hlatest
    rw [PCCAtlasHighLevelSyntax.getAtlasSequenceParameterSet, hholds.asps, List.nil_append,
      show aspsOf received = [first, second] from hsets] at hfound
    obtain rfl : first = second := Option.some.inj hfound
    simp [hwidth] at hfirst

end V3C

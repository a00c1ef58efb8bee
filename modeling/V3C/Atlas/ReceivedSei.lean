import V3C.Atlas.AtlasSubStream
import V3C.Codec.SearchDown
import V3C.Common.Integer

/-! SEI messages that persist: what a tile layer finds in the layers that were received up to it. -/
namespace V3C
open Codec

inductive SeiPayloadType
  | bufferingPeriod | atlasFrameTiming | fillerPayload | userDataRegisteredItuTT35
  | userDataUnregistered | recoveryPoint | noReconstruction | timeCode | seiManifest
  | seiPrefixIndication | activeSubBitstreams | componentCodecMapping | sceneObjectInformation
  | objectLabelInformation | patchInformation | volumetricRectangleInformation
  | atlasObjectInformation | viewportCameraParameters | viewportPosition
  | decodedAtlasInformationHash | attributeTransformationParams | occupancySynthesis
  | geometrySmoothing | attributeSmoothing | reservedSeiMessage
deriving DecidableEq

variable {M : Type} (getPayloadType : M → SeiPayloadType)

namespace PCCSEI

/-- The list that `getSei` takes. -/
def seis (sei : PCCSEI M) (nalUnitType : ℕ) : List M :=
  if IsPrefixSei nalUnitType then sei.seiPrefix else sei.seiSuffix

def seiIsPresent (sei : PCCSEI M) (nalUnitType : ℕ) (payloadType : SeiPayloadType) : Bool :=
  if ¬IsPrefixSei nalUnitType ∧ ¬IsSuffixSei nalUnitType then false
  else (sei.seis nalUnitType).any fun message => getPayloadType message = payloadType

/-- The first message of a type. Where there is none, the assertion fails. -/
def getSei (sei : PCCSEI M) (nalUnitType : ℕ) (payloadType : SeiPayloadType) : Option M :=
  (sei.seis nalUnitType).find? fun message => getPayloadType message = payloadType

variable {getPayloadType}

theorem exists_getSei {sei : PCCSEI M} {nalUnitType : ℕ} {payloadType : SeiPayloadType}
    (h : sei.seiIsPresent getPayloadType nalUnitType payloadType = true) :
    ∃ message, sei.getSei getPayloadType nalUnitType payloadType = some message := by
  unfold seiIsPresent at h
  split at h
  · cases h
  · obtain ⟨message, hmem, htype⟩ := List.any_eq_true.mp h
    refine Option.isSome_iff_exists.mp (List.find?_isSome.mpr ?_)
    exact ⟨message, hmem, htype⟩

end PCCSEI

/-- The NAL unit type and the payload type of a search, and the tile layers it is made in. -/
structure SeiSearch (M : Type) where
  atlasTileLayer : List (AtlasTileLayer M)
  nalUnitType : ℕ
  payloadType : SeiPayloadType

namespace SeiSearch

/-- Whether `getAtlasTileLayer( index ).getSEI()` has the message. -/
def seiIsPresentAt (search : SeiSearch M) (index : ℕ) : Option Bool := do
  let layer ← search.atlasTileLayer[index]?
  pure (layer.sei.seiIsPresent getPayloadType search.nalUnitType search.payloadType)

/-- `getAtlasTileLayer( index ).getSEI().getSei()`, with the layer whose message it points to. -/
def getSeiAt (search : SeiSearch M) (index : ℕ) : Option (ℕ × M) := do
  let layer ← search.atlasTileLayer[index]?
  let message ← layer.sei.getSei getPayloadType search.nalUnitType search.payloadType
  pure (index, message)

/-- The layers before `atglIndex` that the loops visit: `index > 0` stops before the first. -/
def firstIndex (atglIndex : ℕ) : Option ℕ := do
  let index ← subInt (toInt32 atglIndex) 1
  pure index.toNat

/-- The body of the loop of `seiIsPresentInReceivedData`. -/
def visitPresent (search : SeiSearch M) (index : ℕ) : Option (Option Bool) := do
  if ← search.seiIsPresentAt getPayloadType index then pure (some true) else pure none

def seiIsPresentInReceivedData (search : SeiSearch M) (atglIndex : ℕ) : Option Bool := do
  if ← search.seiIsPresentAt getPayloadType atglIndex then pure true
  else do
    let index ← firstIndex atglIndex
    let found ← searchDown (search.visitPresent getPayloadType) index
    pure (found.getD false)

/-- The body of the loop of `getSeiInReceivedData`. -/
def visitSei (search : SeiSearch M) (index : ℕ) : Option (Option (ℕ × M)) := do
  if ← search.seiIsPresentAt getPayloadType index then
    let sei ← search.getSeiAt getPayloadType index
    pure (some sei)
  else pure none

/-- The null pointer is `some none`. -/
def getSeiInReceivedData (search : SeiSearch M) (atglIndex : ℕ) : Option (Option (ℕ × M)) := do
  if ← search.seiIsPresentAt getPayloadType atglIndex then
    let sei ← search.getSeiAt getPayloadType atglIndex
    pure (some sei)
  else do
    let index ← firstIndex atglIndex
    searchDown (search.visitSei getPayloadType) index

/-- A layer carries a message of the type in the list of the NAL unit type. -/
def Carries (search : SeiSearch M) (index : ℕ) : Prop :=
  (IsPrefixSei search.nalUnitType ∨ IsSuffixSei search.nalUnitType) ∧
    ∃ layer, search.atlasTileLayer[index]? = some layer ∧
      ∃ message ∈ layer.sei.seis search.nalUnitType, getPayloadType message = search.payloadType

/-- The last layer up to a layer that carries the message. -/
structure IsLastCarrier (search : SeiSearch M) (atglIndex index : ℕ) : Prop where
  le : index ≤ atglIndex
  carries : search.Carries getPayloadType index
  not_carries : ∀ later, index < later → later ≤ atglIndex → ¬search.Carries getPayloadType later

/-- What a tile layer finds is what the layers up to it carry: the message of the last one. -/
structure FindsReceived (search : SeiSearch M) (atglIndex : ℕ) : Prop where
  present : ∃ found, search.seiIsPresentInReceivedData getPayloadType atglIndex = some found ∧
    (found = true ↔ ∃ index ≤ atglIndex, search.Carries getPayloadType index)
  received : ∃ sei, search.getSeiInReceivedData getPayloadType atglIndex = some sei ∧
    (sei.isSome = true ↔ ∃ index ≤ atglIndex, search.Carries getPayloadType index) ∧
    ∀ index, search.IsLastCarrier getPayloadType atglIndex index →
      sei = search.getSeiAt getPayloadType index

/-- The layers that a search from a layer looks at: the layer itself, and those between it and
the first one. -/
def Visits (atglIndex index : ℕ) : Prop :=
  index = atglIndex ∨ 0 < index ∧ (index : ℤ) < toInt32 atglIndex

/-- The last carrier, if there is one, is among the layers that are looked at. Where there is
none, the loops have to start: `(int32_t)atglIndex - 1` must not overflow. -/
structure Reachable (search : SeiSearch M) (atglIndex : ℕ) : Prop where
  visits : ∀ index, search.IsLastCarrier getPayloadType atglIndex index → Visits atglIndex index
  starts : (∀ index ≤ atglIndex, ¬search.Carries getPayloadType index) →
    -2 ^ 31 < toInt32 atglIndex

variable {getPayloadType} {search : SeiSearch M} {atglIndex : ℕ}

theorem seiIsPresentAt_eq {index : ℕ} (h : index < search.atlasTileLayer.length) :
    ∃ present, search.seiIsPresentAt getPayloadType index = some present ∧
      (present = true ↔ search.Carries getPayloadType index) := by
  have hlayer := List.getElem?_eq_getElem h
  refine ⟨_, by rw [seiIsPresentAt, hlayer]; rfl, ?_⟩
  unfold PCCSEI.seiIsPresent Carries
  rw [hlayer]
  split
  · next hkind => simp [hkind.1, hkind.2]
  · next hkind =>
    have hkind : IsPrefixSei search.nalUnitType ∨ IsSuffixSei search.nalUnitType := by
      by_contra hnone
      exact hkind (not_or.mp hnone)
    simp [hkind]

theorem seiIsPresentAt_of_carries {index : ℕ} (h : search.Carries getPayloadType index) :
    search.seiIsPresentAt getPayloadType index = some true := by
  obtain ⟨layer, hlayer, -⟩ := h.2
  obtain ⟨present, hpresent, hiff⟩ :=
    seiIsPresentAt_eq (List.getElem?_eq_some_iff.mp hlayer).1
  rw [hpresent, hiff.mpr h]

theorem seiIsPresentAt_of_not_carries {index : ℕ} (hindex : index < search.atlasTileLayer.length)
    (h : ¬search.Carries getPayloadType index) :
    search.seiIsPresentAt getPayloadType index = some false := by
  obtain ⟨present, hpresent, hiff⟩ := seiIsPresentAt_eq hindex
  rw [hpresent]
  cases present with
  | false => rfl
  | true => exact absurd (hiff.mp rfl) h

theorem exists_getSeiAt {index : ℕ} (h : search.Carries getPayloadType index) :
    ∃ message, search.getSeiAt getPayloadType index = some (index, message) := by
  have hpresent := seiIsPresentAt_of_carries h
  obtain ⟨layer, hlayer, -⟩ := h.2
  have hsei : layer.sei.seiIsPresent getPayloadType search.nalUnitType search.payloadType
      = true := by
    simpa [seiIsPresentAt, hlayer] using hpresent
  obtain ⟨message, hmessage⟩ := PCCSEI.exists_getSei hsei
  exact ⟨message, by simp [getSeiAt, hlayer, hmessage]⟩

theorem exists_isLastCarrier {index : ℕ} (hle : index ≤ atglIndex)
    (h : search.Carries getPayloadType index) :
    ∃ last, search.IsLastCarrier getPayloadType atglIndex last := by
  classical
  have hlast := Nat.findGreatest_spec (P := search.Carries getPayloadType) hle h
  refine ⟨_, Nat.findGreatest_le atglIndex, hlast, fun later hlater hle => ?_⟩
  exact Nat.findGreatest_is_greatest hlater hle

theorem isLastCarrier_self (h : search.Carries getPayloadType atglIndex) {index : ℕ}
    (hlast : search.IsLastCarrier getPayloadType atglIndex index) : index = atglIndex := by
  by_contra hne
  exact hlast.not_carries atglIndex (lt_of_le_of_ne hlast.le hne) (Nat.le_refl _) h

theorem IsLastCarrier.unique {index last : ℕ}
    (h : search.IsLastCarrier getPayloadType atglIndex index)
    (hlast : search.IsLastCarrier getPayloadType atglIndex last) : index = last := by
  refine le_antisymm (not_lt.mp fun hlt => ?_) (not_lt.mp fun hlt => ?_)
  · exact hlast.not_carries index hlt h.le h.carries
  · exact h.not_carries last hlt hlast.le hlast.carries

theorem toInt32_le (n : ℕ) : toInt32 n ≤ n := by
  have hdiv := Int.bmod_def n (2 ^ 32)
  have hnonneg : 0 ≤ (n : ℤ) := Int.natCast_nonneg n
  unfold toInt32
  omega

/-- The loops start at the last layer before the one that searches. -/
theorem exists_firstIndex (h : -2 ^ 31 < toInt32 atglIndex) :
    ∃ first, firstIndex atglIndex = some first ∧ first ≤ atglIndex ∧
      ∀ index : ℕ, 0 < index → (index ≤ first ↔ (index : ℤ) < toInt32 atglIndex) := by
  have hmem := toInt32_mem atglIndex
  have hle := toInt32_le atglIndex
  refine ⟨(toInt32 atglIndex - 1).toNat, ?_, by omega, fun index hpos => by omega⟩
  rw [firstIndex, subInt_eq_some (by omega) (by omega)]
  rfl

theorem lt_of_firstIndex {index : ℕ} (h : firstIndex atglIndex = some index) :
    -2 ^ 31 < toInt32 atglIndex := by
  by_contra hlow
  rw [firstIndex, subInt_eq_none (by omega)] at h
  cases h

theorem bind_of_false {β : Type} {present : Option Bool} {found rest : Option β}
    (h : present = some false) : (do if ← present then found else rest) = rest := by
  rw [h]
  rfl

theorem seiIsPresentInReceivedData_eq
    (h : search.seiIsPresentAt getPayloadType atglIndex = some false) :
    search.seiIsPresentInReceivedData getPayloadType atglIndex = (do
      let index ← firstIndex atglIndex
      let found ← searchDown (search.visitPresent getPayloadType) index
      pure (found.getD false)) :=
  bind_of_false h

theorem getSeiInReceivedData_eq
    (h : search.seiIsPresentAt getPayloadType atglIndex = some false) :
    search.getSeiInReceivedData getPayloadType atglIndex = (do
      let index ← firstIndex atglIndex
      searchDown (search.visitSei getPayloadType) index) :=
  bind_of_false h

/-- A layer that carries the message answers for itself. -/
theorem findsReceived_of_carries (h : search.Carries getPayloadType atglIndex) :
    search.FindsReceived getPayloadType atglIndex := by
  have hpresent := seiIsPresentAt_of_carries h
  obtain ⟨message, hmessage⟩ := exists_getSeiAt h
  have hcarrier : ∃ index ≤ atglIndex, search.Carries getPayloadType index :=
    ⟨atglIndex, Nat.le_refl _, h⟩
  constructor
  · refine ⟨true, by simp [seiIsPresentInReceivedData, hpresent], ?_⟩
    exact iff_of_true rfl hcarrier
  · refine ⟨some (atglIndex, message), by simp [getSeiInReceivedData, hpresent, hmessage], ?_, ?_⟩
    · exact iff_of_true rfl hcarrier
    · intro index hlast
      rw [isLastCarrier_self h hlast, hmessage]

/-- Where no layer carries the message, both loops run to their end. -/
theorem findsReceived_of_none (hindex : atglIndex < search.atlasTileLayer.length)
    (hnone : ∀ index ≤ atglIndex, ¬search.Carries getPayloadType index)
    (hstarts : -2 ^ 31 < toInt32 atglIndex) : search.FindsReceived getPayloadType atglIndex := by
  have hat {index : ℕ} (hle : index ≤ atglIndex) :
      search.seiIsPresentAt getPayloadType index = some false :=
    seiIsPresentAt_of_not_carries (by omega) (hnone index hle)
  have hcarrier : ¬∃ index ≤ atglIndex, search.Carries getPayloadType index := by
    intro h
    obtain ⟨index, hle, hcarries⟩ := h
    exact hnone index hle hcarries
  obtain ⟨first, hfirst, hle, -⟩ := exists_firstIndex hstarts
  constructor
  · have hloop : searchDown (search.visitPresent getPayloadType) first = some none :=
      searchDown_eq_none fun index _ hi => by simp [visitPresent, hat (hi.trans hle)]
    refine ⟨false, ?_, iff_of_false Bool.false_ne_true hcarrier⟩
    simp [seiIsPresentInReceivedData_eq (hat (Nat.le_refl _)), hfirst, hloop]
  · have hloop : searchDown (search.visitSei getPayloadType) first = some none :=
      searchDown_eq_none fun index _ hi => by simp [visitSei, hat (hi.trans hle)]
    refine ⟨none, ?_, iff_of_false (by simp) hcarrier, fun index hlast => ?_⟩
    · simp [getSeiInReceivedData_eq (hat (Nat.le_refl _)), hfirst, hloop]
    · exact absurd hlast.carries (hnone index hlast.le)

/-- A last carrier between the first layer and the layer that searches is what both loops find. -/
theorem findsReceived_of_visits (hindex : atglIndex < search.atlasTileLayer.length)
    (hself : ¬search.Carries getPayloadType atglIndex) {last : ℕ}
    (hlast : search.IsLastCarrier getPayloadType atglIndex last) (hpos : 0 < last)
    (hbefore : (last : ℤ) < toInt32 atglIndex) :
    search.FindsReceived getPayloadType atglIndex := by
  have hat {index : ℕ} (hafter : last < index) (hle : index ≤ atglIndex) :
      search.seiIsPresentAt getPayloadType index = some false :=
    seiIsPresentAt_of_not_carries (by omega) (hlast.not_carries index hafter hle)
  have hatSelf := seiIsPresentAt_of_not_carries hindex hself
  have hatLast := seiIsPresentAt_of_carries hlast.carries
  obtain ⟨message, hmessage⟩ := exists_getSeiAt hlast.carries
  have hcarrier : ∃ index ≤ atglIndex, search.Carries getPayloadType index :=
    ⟨last, hlast.le, hlast.carries⟩
  have hstarts : -2 ^ 31 < toInt32 atglIndex := by omega
  obtain ⟨first, hfirst, hle, hvisited⟩ := exists_firstIndex hstarts
  have hlastFirst : last ≤ first := (hvisited last hpos).mpr hbefore
  constructor
  · have hloop : searchDown (search.visitPresent getPayloadType) first = some (some true) := by
      refine searchDown_eq_some hpos hlastFirst (by simp [visitPresent, hatLast]) ?_
      intro index hafter hi
      simp [visitPresent, hat hafter (hi.trans hle)]
    refine ⟨true, ?_, iff_of_true rfl hcarrier⟩
    simp [seiIsPresentInReceivedData_eq hatSelf, hfirst, hloop]
  · have hloop : searchDown (search.visitSei getPayloadType) first
        = some (some (last, message)) := by
      refine searchDown_eq_some hpos hlastFirst (by simp [visitSei, hatLast, hmessage]) ?_
      intro index hafter hi
      simp [visitSei, hat hafter (hi.trans hle)]
    refine ⟨some (last, message), ?_, iff_of_true rfl hcarrier, fun index hother => ?_⟩
    · simp [getSeiInReceivedData_eq hatSelf, hfirst, hloop]
    · rw [hother.unique hlast, hmessage]

/-- A message that the loop of `getSeiInReceivedData` has found is of a layer that it visits. -/
theorem visits_of_getSei (hself : ¬search.Carries getPayloadType atglIndex)
    (hindex : atglIndex < search.atlasTileLayer.length) {last : ℕ} {message : M}
    (h : search.getSeiInReceivedData getPayloadType atglIndex = some (some (last, message))) :
    Visits atglIndex last := by
  have hatSelf := seiIsPresentAt_of_not_carries hindex hself
  rw [getSeiInReceivedData_eq hatSelf] at h
  obtain ⟨first, hfirst, hloop⟩ := Option.bind_eq_some_iff.mp h
  obtain ⟨index, hpos, hi, hvisit⟩ := exists_of_searchDown_eq_some hloop
  obtain ⟨start, hstart, -, hvisited⟩ := exists_firstIndex (lt_of_firstIndex hfirst)
  have hstart : start = first := Option.some.inj (hstart.symm.trans hfirst)
  have hlast : index = last := by
    obtain ⟨present, -, hvisit⟩ := Option.bind_eq_some_iff.mp hvisit
    cases present with
    | false => cases hvisit
    | true =>
      obtain ⟨sei, hsei, hvisit⟩ := Option.bind_eq_some_iff.mp hvisit
      obtain ⟨layer, -, hsei⟩ := Option.bind_eq_some_iff.mp hsei
      obtain ⟨found, -, hsei⟩ := Option.bind_eq_some_iff.mp hsei
      cases hsei
      cases hvisit
      rfl
  have hbefore := (hvisited index hpos).mp (hstart ▸ hi)
  rw [hlast] at hpos hbefore
  exact .inr ⟨hpos, hbefore⟩

/-- The search finds what the layers up to it carry exactly where the last of them that carries
the message is looked at. The first layer is looked at only from itself. -/
theorem findsReceived_iff (search : SeiSearch M) {atglIndex : ℕ}
    (hindex : atglIndex < search.atlasTileLayer.length) :
    search.FindsReceived getPayloadType atglIndex ↔
      search.Reachable getPayloadType atglIndex := by
  constructor
  · intro h
    constructor
    · intro last hlast
      by_cases hself : search.Carries getPayloadType atglIndex
      · exact .inl (isLastCarrier_self hself hlast)
      · obtain ⟨sei, hsei, -, hlastSei⟩ := h.received
        obtain ⟨message, hmessage⟩ := exists_getSeiAt hlast.carries
        rw [hlastSei last hlast, hmessage] at hsei
        exact visits_of_getSei hself hindex hsei
    · intro hnone
      obtain ⟨found, hfound, -⟩ := h.present
      have hatSelf := seiIsPresentAt_of_not_carries hindex (hnone atglIndex (Nat.le_refl _))
      rw [seiIsPresentInReceivedData_eq hatSelf] at hfound
      obtain ⟨first, hfirst, -⟩ := Option.bind_eq_some_iff.mp hfound
      exact lt_of_firstIndex hfirst
  · intro h
    by_cases hself : search.Carries getPayloadType atglIndex
    · exact findsReceived_of_carries hself
    · by_cases hcarrier : ∃ index ≤ atglIndex, search.Carries getPayloadType index
      · obtain ⟨index, hle, hcarries⟩ := hcarrier
        obtain ⟨last, hlast⟩ := exists_isLastCarrier hle hcarries
        cases h.visits last hlast with
        | inl hlastSelf => exact absurd (hlastSelf ▸ hlast.carries) hself
        | inr hvisited =>
          exact findsReceived_of_visits hindex hself hlast hvisited.1 hvisited.2
      · have hnone : ∀ index ≤ atglIndex, ¬search.Carries getPayloadType index := by
          intro index hle hcarries
          exact hcarrier ⟨index, hle, hcarries⟩
        exact findsReceived_of_none hindex hnone (h.starts hnone)

/-- Tile layers of which the given ones have a smoothing message. -/
def smoothing (carriers : List Bool) : SeiSearch SeiPayloadType where
  atlasTileLayer := carriers.map fun carrier =>
    { rbsp := {}, sei := { seiPrefix := if carrier then [.geometrySmoothing] else [] } }
  nalUnitType := NAL_PREFIX_ESEI
  payloadType := .geometrySmoothing

/-- Behind the second layer its message is found. -/
theorem findsReceived_second : (smoothing [true, true, false]).FindsReceived id 2 := by
  have hsecond : (smoothing [true, true, false]).Carries id 1 :=
    ⟨by decide, _, rfl, .geometrySmoothing, List.mem_singleton.mpr rfl, rfl⟩
  refine (findsReceived_iff _ (by decide)).mpr ⟨fun index hlast => ?_, fun hnone => ?_⟩
  · by_cases hindex : index < 1
    · exact absurd hsecond (hlast.not_carries 1 hindex (by decide))
    · have hle := hlast.le
      have htwo : toInt32 2 = 2 := by decide
      rw [Visits, htwo]
      omega
  · exact absurd hsecond (hnone 1 (by decide))

/-- The message of the first layer is lost for the second one. -/
theorem not_findsReceived_first : ¬(smoothing [true, false]).FindsReceived id 1 := by
  intro h
  obtain ⟨found, hfound, hiff⟩ := h.present
  have hlost : (smoothing [true, false]).seiIsPresentInReceivedData id 1 = some false := by
    decide +kernel
  have hfirst : (smoothing [true, false]).Carries id 0 :=
    ⟨by decide, _, rfl, .geometrySmoothing, List.mem_singleton.mpr rfl, rfl⟩
  have htrue := hiff.mpr ⟨0, by decide, hfirst⟩
  rw [hlost, htrue] at hfound
  cases hfound

end SeiSearch

end V3C

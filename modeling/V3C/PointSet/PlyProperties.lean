import Mathlib.Algebra.Order.BigOperators.Group.List
import Mathlib.Algebra.Order.Ring.Nat
import V3C.Codec.Traverse
import V3C.PointSet.PlyFile

/-! The properties of a binary file in any order: what is read of a record. -/
namespace V3C

/-! ### The fields of a point -/

/-- What a property of a file can be. -/
inductive PlyField
  | x | y | z | r | g | b | nx | ny | nz | reflectance
  deriving DecidableEq

namespace PlyField

def isCoordinate : PlyField → Bool
  | x | y | z => true
  | _ => false

def isColor : PlyField → Bool
  | r | g | b => true
  | _ => false

def isNormal : PlyField → Bool
  | nx | ny | nz => true
  | _ => false

end PlyField

def Indices.get (indices : Indices) : PlyField → Option ℕ
  | .x => indices.x
  | .y => indices.y
  | .z => indices.z
  | .r => indices.r
  | .g => indices.g
  | .b => indices.b
  | .nx => indices.nx
  | .ny => indices.ny
  | .nz => indices.nz
  | .reflectance => indices.reflectance

def Indices.put (indices : Indices) (a : ℕ) : PlyField → Indices
  | .x => { indices with x := some a }
  | .y => { indices with y := some a }
  | .z => { indices with z := some a }
  | .r => { indices with r := some a }
  | .g => { indices with g := some a }
  | .b => { indices with b := some a }
  | .nx => { indices with nx := some a }
  | .ny => { indices with ny := some a }
  | .nz => { indices with nz := some a }
  | .reflectance => { indices with reflectance := some a }

/-- The field that a property is taken for. -/
def AttributeInfo.field (readNormals : Bool) (info : AttributeInfo) : Option PlyField :=
  if info.isCoordinate "x" then some .x
  else if info.isCoordinate "y" then some .y
  else if info.isCoordinate "z" then some .z
  else if info.isColor "red" then some .r
  else if info.isColor "green" then some .g
  else if info.isColor "blue" then some .b
  else if info.isNormal "nx" ∧ readNormals then some .nx
  else if info.isNormal "ny" ∧ readNormals then some .ny
  else if info.isNormal "nz" ∧ readNormals then some .nz
  else if info.isReflectance then some .reflectance
  else none

section Locate

variable {readNormals : Bool} {indices : Indices} {info : AttributeInfo} {a : ℕ}

theorem Indices.get_put (field other : PlyField) :
    (indices.put a field).get other = if field = other then some a else indices.get other := by
  cases field <;> cases other <;> rfl

theorem Indices.locate_eq : indices.locate readNormals info a =
    (info.field readNormals).elim indices (indices.put a) := by
  unfold Indices.locate AttributeInfo.field
  simp only [apply_ite (fun field : Option PlyField => field.elim indices (indices.put a))]
  rfl

theorem Indices.get_locate (field : PlyField) :
    (indices.locate readNormals info a).get field =
      if info.field readNormals = some field then some a else indices.get field := by
  rw [Indices.locate_eq]
  cases info.field readNormals with
  | none => rfl
  | some other =>
    rw [Option.elim_some, Indices.get_put]
    simp only [Option.some.injEq]

/-- Each field is at the place of a property that is taken for it. -/
theorem get_locateAll {attributesInfo : List AttributeInfo} {field : PlyField}
    (h : (locateAll readNormals attributesInfo).get field = some a) :
    ∃ info, attributesInfo[a]? = some info ∧ info.field readNormals = some field := by
  have hfold : ∀ (entries : List (AttributeInfo × ℕ)) (indices : Indices),
      (∀ a, indices.get field = some a →
        ∃ info, attributesInfo[a]? = some info ∧ info.field readNormals = some field) →
      (∀ entry ∈ entries, attributesInfo[entry.2]? = some entry.1) →
      (entries.foldl (fun indices entry => indices.locate readNormals entry.1 entry.2)
        indices).get field = some a →
      ∃ info, attributesInfo[a]? = some info ∧ info.field readNormals = some field := by
    intro entries
    induction entries with
    | nil => exact fun indices hindices _ ha => hindices a ha
    | cons entry entries ih =>
      intro indices hindices hentries ha
      refine ih (indices.locate readNormals entry.1 entry.2) ?_
        (fun other hother => hentries other (List.mem_cons_of_mem _ hother)) ha
      intro b hb
      rw [Indices.get_locate] at hb
      split_ifs at hb with hfield
      · obtain rfl : entry.2 = b := Option.some.inj hb
        exact ⟨entry.1, hentries entry List.mem_cons_self, hfield⟩
      · exact hindices b hb
  refine hfold attributesInfo.zipIdx {} ?_ ?_ h
  · intro b hb
    cases field <;> cases hb
  · intro entry hentry
    exact List.mem_zipIdx_iff_getElem?.mp hentry

end Locate

/-! ### The bytes of a property -/

/-- The stream after some bytes. -/
def skip (count : ℕ) (stream : List UInt8) : Option (List UInt8) :=
  (takeBytes count stream).map Prod.snd

theorem skip_eq (count : ℕ) (stream : List UInt8) :
    skip count stream = if count ≤ stream.length then some (stream.drop count) else none := by
  unfold skip takeBytes
  split_ifs <;> rfl

theorem skip_add (m n : ℕ) (stream : List UInt8) :
    (skip m stream).bind (skip n) = skip (m + n) stream := by
  rw [skip_eq, skip_eq]
  by_cases hm : m ≤ stream.length
  · rw [if_pos hm, Option.bind_some, skip_eq, List.length_drop, List.drop_drop]
    by_cases hn : m + n ≤ stream.length
    · rw [if_pos hn, if_pos (by omega)]
    · rw [if_neg hn, if_neg (by omega)]
  · rw [if_neg hm, if_neg (by omega)]
    rfl

/-- The bytes that are read of a property; there are none when its value has no place. -/
def PlyField.consumed (indices : Indices) (a byteCount : ℕ) (field : PlyField) : Option ℕ :=
  if field.isColor then if indices.withColors then some byteCount else none
  else if field.isNormal then if indices.withNormals then some byteCount else none
  else if field = .reflectance then if a = 1 then some 1 else none
  else some byteCount

def AttributeInfo.consumed (indices : Indices) (info : AttributeInfo) (a : ℕ) : Option ℕ :=
  ((info.field true).filter fun field => indices.get field = some a).elim (some info.byteCount)
    (PlyField.consumed indices a info.byteCount)

section ByteCount

variable {readNormals : Bool} {info : AttributeInfo}

theorem eq_or_of_ite_eq_some {α : Type} {c : Prop} [Decidable c] {a b : α} {rest : Option α}
    (h : (if c then some a else rest) = some b) : (c ∧ a = b) ∨ rest = some b := by
  split_ifs at h with hc
  · exact .inl ⟨hc, Option.some.inj h⟩
  · exact .inr h

/-- The widths of the properties that a field can have. -/
def PlyField.HasByteCount (byteCount : ℕ) (field : PlyField) : Prop :=
  (field.isCoordinate = true → byteCount = 8 ∨ byteCount = 4 ∨ byteCount = 2) ∧
  (field.isColor = true → byteCount = 1) ∧ (field.isNormal = true → byteCount = 4) ∧
  (field = .reflectance → byteCount ≤ 2)

theorem hasByteCount_of_field {field : PlyField} (h : info.field readNormals = some field) :
    field.HasByteCount info.byteCount := by
  have hcoordinate {name : String} (h : info.isCoordinate name = true) :
      info.byteCount = 8 ∨ info.byteCount = 4 ∨ info.byteCount = 2 := (of_decide_eq_true h).2
  have hcolor {name : String} (h : info.isColor name = true) : info.byteCount = 1 :=
    (of_decide_eq_true h).2
  have hnormal {name : String} (h : info.isNormal name = true) : info.byteCount = 4 :=
    (of_decide_eq_true h).2
  have hreflectance (h : info.isReflectance = true) : info.byteCount ≤ 2 := (of_decide_eq_true h).2
  unfold AttributeInfo.field at h
  rcases eq_or_of_ite_eq_some h with ⟨hinfo, rfl⟩ | h
  · exact ⟨fun _ => hcoordinate hinfo, nofun, nofun, nofun⟩
  rcases eq_or_of_ite_eq_some h with ⟨hinfo, rfl⟩ | h
  · exact ⟨fun _ => hcoordinate hinfo, nofun, nofun, nofun⟩
  rcases eq_or_of_ite_eq_some h with ⟨hinfo, rfl⟩ | h
  · exact ⟨fun _ => hcoordinate hinfo, nofun, nofun, nofun⟩
  rcases eq_or_of_ite_eq_some h with ⟨hinfo, rfl⟩ | h
  · exact ⟨nofun, fun _ => hcolor hinfo, nofun, nofun⟩
  rcases eq_or_of_ite_eq_some h with ⟨hinfo, rfl⟩ | h
  · exact ⟨nofun, fun _ => hcolor hinfo, nofun, nofun⟩
  rcases eq_or_of_ite_eq_some h with ⟨hinfo, rfl⟩ | h
  · exact ⟨nofun, fun _ => hcolor hinfo, nofun, nofun⟩
  rcases eq_or_of_ite_eq_some h with ⟨hinfo, rfl⟩ | h
  · exact ⟨nofun, nofun, fun _ => hnormal hinfo.1, nofun⟩
  rcases eq_or_of_ite_eq_some h with ⟨hinfo, rfl⟩ | h
  · exact ⟨nofun, nofun, fun _ => hnormal hinfo.1, nofun⟩
  rcases eq_or_of_ite_eq_some h with ⟨hinfo, rfl⟩ | h
  · exact ⟨nofun, nofun, fun _ => hnormal hinfo.1, nofun⟩
  rcases eq_or_of_ite_eq_some h with ⟨hinfo, rfl⟩ | h
  · exact ⟨nofun, nofun, nofun, fun _ => hreflectance hinfo⟩
  · cases h

end ByteCount

section Reading

variable {endianness : PCCEndianness} {indices : Indices} {stream : List UInt8} {byteCount : ℕ}

theorem map_readCoordinate (h : byteCount = 8 ∨ byteCount = 4 ∨ byteCount = 2) :
    (readCoordinate endianness byteCount stream).map Prod.snd = skip byteCount stream := by
  unfold readCoordinate skip
  rcases h with rfl | rfl | rfl
  · rw [if_neg (by decide), if_neg (by decide), Option.map_map]
    rfl
  · rw [if_neg (by decide), if_pos rfl, Option.map_map]
    rfl
  · rw [if_pos rfl, Option.map_map]
    rfl

theorem map_readChannel :
    (readChannel indices stream).map Prod.snd =
      if indices.withColors then skip 1 stream else none := by
  unfold readChannel
  split_ifs
  · rw [skip_eq]
    cases stream with
    | nil => rfl
    | cons byte stream => rfl
  · rfl

theorem map_readNormalOf : (readNormalOf endianness indices 4 stream).map Prod.snd =
    if indices.withNormals then skip 4 stream else none := by
  unfold readNormalOf
  split_ifs
  · unfold readNormal skip
    rw [if_pos rfl, Option.map_map]
    rfl
  · rfl

theorem map_readReflectance : (readReflectance indices stream).map Prod.snd =
    if indices.reflectance = some 1 then skip 1 stream else none := by
  unfold readReflectance
  split_ifs
  · rw [skip_eq]
    cases stream with
    | nil => rfl
    | cons byte stream => rfl
  · rfl

theorem map_snd_map {α β γ : Type} {x : Option (α × γ)} {f : α × γ → β × γ}
    (h : ∀ state, (f state).2 = state.2) : (x.map f).map Prod.snd = x.map Prod.snd := by
  rw [Option.map_map]
  exact congrArg (fun f => x.map f) (funext h)

variable {info : AttributeInfo} {a : ℕ} {record : PlyRecord}

/-- A property without a field is skipped. -/
theorem map_readAttribute_of_none (h : ∀ field, indices.get field ≠ some a) :
    (readAttribute endianness indices a info record stream).map Prod.snd =
      skip info.byteCount stream := by
  have hx : ¬indices.x = some a := h .x
  have hy : ¬indices.y = some a := h .y
  have hz : ¬indices.z = some a := h .z
  have hr : ¬indices.r = some a := h .r
  have hg : ¬indices.g = some a := h .g
  have hb : ¬indices.b = some a := h .b
  have hnx : ¬indices.nx = some a := h .nx
  have hny : ¬indices.ny = some a := h .ny
  have hnz : ¬indices.nz = some a := h .nz
  have hreflectance : ¬indices.reflectance = some a := h .reflectance
  unfold readAttribute
  rw [if_neg hx, if_neg hy, if_neg hz, if_neg fun h => hr h.1, if_neg fun h => hg h.1,
    if_neg fun h => hb h.1, if_neg hnx, if_neg hny, if_neg hnz, if_neg fun h => hreflectance h.1]
  exact map_snd_map fun _ => rfl

/-- The branch of `readAttribute` for a field. -/
def readField (endianness : PCCEndianness) (indices : Indices) (byteCount : ℕ)
    (record : PlyRecord) (stream : List UInt8) : PlyField → Option (PlyRecord × List UInt8)
  | .x => (readCoordinate endianness byteCount stream).map fun (x, stream) =>
      ({ record with x }, stream)
  | .y => (readCoordinate endianness byteCount stream).map fun (y, stream) =>
      ({ record with y }, stream)
  | .z => (readCoordinate endianness byteCount stream).map fun (z, stream) =>
      ({ record with z }, stream)
  | .r => (readChannel indices stream).map fun (r, stream) => ({ record with r }, stream)
  | .g => (readChannel indices stream).map fun (g, stream) => ({ record with g }, stream)
  | .b => (readChannel indices stream).map fun (b, stream) => ({ record with b }, stream)
  | .nx => (readNormalOf endianness indices byteCount stream).map fun (nx, stream) =>
      ({ record with nx }, stream)
  | .ny => (readNormalOf endianness indices byteCount stream).map fun (ny, stream) =>
      ({ record with ny }, stream)
  | .nz => (readNormalOf endianness indices byteCount stream).map fun (nz, stream) =>
      ({ record with nz }, stream)
  | .reflectance => (readReflectance indices stream).map fun (reflectance, stream) =>
      ({ record with reflectance }, stream)

section Place

variable {field : PlyField} (hget : indices.get field = some a)
  (hcount : field.HasByteCount info.byteCount)

include hget hcount

/-- The branches before that of a field are those of other fields. -/
theorem readAttribute_of_get (hother : ∀ other, other ≠ field → indices.get other ≠ some a) :
    readAttribute endianness indices a info record stream =
      readField endianness indices info.byteCount record stream field := by
  obtain ⟨-, hcolor, -, hreflectance⟩ := hcount
  have hx (h : .x ≠ field) : ¬indices.x = some a := hother .x h
  have hy (h : .y ≠ field) : ¬indices.y = some a := hother .y h
  have hz (h : .z ≠ field) : ¬indices.z = some a := hother .z h
  have hr (h : .r ≠ field) : ¬(indices.r = some a ∧ info.byteCount = 1) :=
    fun hand => hother .r h hand.1
  have hg (h : .g ≠ field) : ¬(indices.g = some a ∧ info.byteCount = 1) :=
    fun hand => hother .g h hand.1
  have hb (h : .b ≠ field) : ¬(indices.b = some a ∧ info.byteCount = 1) :=
    fun hand => hother .b h hand.1
  have hnx (h : .nx ≠ field) : ¬indices.nx = some a := hother .nx h
  have hny (h : .ny ≠ field) : ¬indices.ny = some a := hother .ny h
  have hnz (h : .nz ≠ field) : ¬indices.nz = some a := hother .nz h
  unfold readAttribute
  cases field with
  | x => exact if_pos hget
  | y => rw [if_neg (hx (by decide))]; exact if_pos hget
  | z => rw [if_neg (hx (by decide)), if_neg (hy (by decide))]; exact if_pos hget
  | r =>
    rw [if_neg (hx (by decide)), if_neg (hy (by decide)), if_neg (hz (by decide))]
    exact if_pos ⟨hget, hcolor rfl⟩
  | g =>
    rw [if_neg (hx (by decide)), if_neg (hy (by decide)), if_neg (hz (by decide)),
      if_neg (hr (by decide))]
    exact if_pos ⟨hget, hcolor rfl⟩
  | b =>
    rw [if_neg (hx (by decide)), if_neg (hy (by decide)), if_neg (hz (by decide)),
      if_neg (hr (by decide)), if_neg (hg (by decide))]
    exact if_pos ⟨hget, hcolor rfl⟩
  | nx =>
    rw [if_neg (hx (by decide)), if_neg (hy (by decide)), if_neg (hz (by decide)),
      if_neg (hr (by decide)), if_neg (hg (by decide)), if_neg (hb (by decide))]
    exact if_pos hget
  | ny =>
    rw [if_neg (hx (by decide)), if_neg (hy (by decide)), if_neg (hz (by decide)),
      if_neg (hr (by decide)), if_neg (hg (by decide)), if_neg (hb (by decide)),
      if_neg (hnx (by decide))]
    exact if_pos hget
  | nz =>
    rw [if_neg (hx (by decide)), if_neg (hy (by decide)), if_neg (hz (by decide)),
      if_neg (hr (by decide)), if_neg (hg (by decide)), if_neg (hb (by decide)),
      if_neg (hnx (by decide)), if_neg (hny (by decide))]
    exact if_pos hget
  | reflectance =>
    rw [if_neg (hx (by decide)), if_neg (hy (by decide)), if_neg (hz (by decide)),
      if_neg (hr (by decide)), if_neg (hg (by decide)), if_neg (hb (by decide)),
      if_neg (hnx (by decide)), if_neg (hny (by decide)), if_neg (hnz (by decide))]
    exact if_pos ⟨hget, hreflectance rfl⟩

theorem map_readField :
    (readField endianness indices info.byteCount record stream field).map Prod.snd =
      (field.consumed indices a info.byteCount).bind fun count => skip count stream := by
  obtain ⟨hcoordinate, hcolor, hnormal, -⟩ := hcount
  cases field with
  | x | y | z =>
    exact Eq.trans (b := (readCoordinate endianness info.byteCount stream).map Prod.snd)
      (map_snd_map fun _ => rfl) (map_readCoordinate (hcoordinate rfl))
  | r | g | b =>
    refine Eq.trans (b := (readChannel indices stream).map Prod.snd) (map_snd_map fun _ => rfl)
      (map_readChannel.trans ?_)
    rw [hcolor rfl]
    show _ = (if indices.withColors then some 1 else none).bind fun count => skip count stream
    split_ifs <;> rfl
  | nx | ny | nz =>
    rw [hnormal rfl]
    refine Eq.trans (b := (readNormalOf endianness indices 4 stream).map Prod.snd)
      (map_snd_map fun _ => rfl) (map_readNormalOf.trans ?_)
    show _ = (if indices.withNormals then some 4 else none).bind fun count => skip count stream
    split_ifs <;> rfl
  | reflectance =>
    have hplace : indices.reflectance = some a := hget
    refine Eq.trans (b := (readReflectance indices stream).map Prod.snd) (map_snd_map fun _ => rfl)
      (map_readReflectance.trans ?_)
    rw [hplace]
    show _ = (if a = 1 then some 1 else none).bind fun count => skip count stream
    simp only [Option.some.injEq]
    split_ifs <;> rfl

end Place

theorem map_readAttribute (hplaces : ∀ field, indices.get field = some a →
    info.field true = some field) :
    (readAttribute endianness indices a info record stream).map Prod.snd =
      (info.consumed indices a).bind fun count => skip count stream := by
  unfold AttributeInfo.consumed
  cases hfield : info.field true with
  | none =>
    refine map_readAttribute_of_none fun field hget => ?_
    have hplace := hplaces field hget
    rw [hfield] at hplace
    cases hplace
  | some field =>
    have honly : ∀ other, other ≠ field → indices.get other ≠ some a := by
      intro other hne hget
      have hplace := hplaces other hget
      rw [hfield] at hplace
      exact hne (Option.some.inj hplace).symm
    by_cases hget : indices.get field = some a
    · rw [Option.filter_some, if_pos (decide_eq_true hget), Option.elim_some]
      have hcount := hasByteCount_of_field hfield
      rw [readAttribute_of_get hget hcount honly]
      exact map_readField hget hcount
    · rw [Option.filter_some, if_neg (by rwa [decide_eq_true_iff]), Option.elim_none,
        Option.bind_some]
      refine map_readAttribute_of_none fun other => ?_
      by_cases hother : other = field
      · rwa [hother]
      · exact honly other hother

end Reading

/-! ### The bytes of a record -/

section Records

variable {endianness : PCCEndianness} {indices : Indices}

/-- What is read of some properties, one after the other. -/
theorem map_foldlM_readAttribute {entries : List (AttributeInfo × ℕ)}
    (hplaces : ∀ entry ∈ entries, ∀ field, indices.get field = some entry.2 →
      entry.1.field true = some field) (record : PlyRecord) (stream : List UInt8) :
    (entries.foldlM (fun (state : PlyRecord × List UInt8) entry =>
      readAttribute endianness indices entry.2 entry.1 state.1 state.2)
        (record, stream)).map Prod.snd =
      (entries.mapM fun entry : AttributeInfo × ℕ => entry.1.consumed indices entry.2).bind
        fun counts => skip counts.sum stream := by
  induction entries generalizing record stream with
  | nil =>
    show some stream = skip 0 stream
    rw [skip_eq, if_pos (Nat.zero_le _), List.drop_zero]
  | cons entry entries ih =>
    have hread := @map_readAttribute endianness indices stream entry.1 entry.2 record
      (hplaces entry List.mem_cons_self)
    have hrest := fun record stream => ih
      (fun other hother => hplaces other (List.mem_cons_of_mem _ hother)) record stream
    rw [List.foldlM_cons, List.mapM_cons]
    dsimp only
    cases hstate : readAttribute endianness indices entry.2 entry.1 record stream with
    | none =>
      rw [hstate] at hread
      cases hcount : entry.1.consumed indices entry.2 with
      | none => rfl
      | some count =>
        rw [hcount, Option.bind_some] at hread
        cases entries.mapM fun entry : AttributeInfo × ℕ => entry.1.consumed indices entry.2 with
        | none => rfl
        | some counts =>
          show none = skip (count :: counts).sum stream
          rw [List.sum_cons, ← skip_add, ← hread]
          rfl
    | some state =>
      rw [hstate] at hread
      cases hcount : entry.1.consumed indices entry.2 with
      | none =>
        rw [hcount] at hread
        cases hread
      | some count =>
        rw [hcount, Option.bind_some] at hread
        refine (hrest state.1 state.2).trans ?_
        cases entries.mapM fun entry : AttributeInfo × ℕ => entry.1.consumed indices entry.2 with
        | none => rfl
        | some counts =>
          show skip counts.sum state.2 = skip (count :: counts).sum stream
          rw [List.sum_cons, ← skip_add, ← hread]
          rfl

/-- A place leads to the property that is taken for the field. -/
theorem field_of_mem_zipIdx {attributesInfo : List AttributeInfo} {entry : AttributeInfo × ℕ} (hentry : entry ∈ attributesInfo.zipIdx)
    (field : PlyField) (hget : (locateAll true attributesInfo).get field = some entry.2) :
    entry.1.field true = some field := by
  obtain ⟨info, hinfo, hfield⟩ := get_locateAll hget
  have hat := List.mem_zipIdx_iff_getElem?.mp hentry
  obtain rfl : entry.1 = info := Option.some.inj (hat.symm.trans hinfo)
  exact hfield

theorem map_readRecord (attributesInfo : List AttributeInfo) (stream : List UInt8) :
    (readRecord endianness (locateAll true attributesInfo) attributesInfo stream).map Prod.snd =
      (attributesInfo.zipIdx.mapM fun entry : AttributeInfo × ℕ =>
        entry.1.consumed (locateAll true attributesInfo) entry.2).bind fun counts =>
          skip counts.sum stream := by
  exact map_foldlM_readAttribute (fun entry => field_of_mem_zipIdx) _ stream

def declaredBytes (attributesInfo : List AttributeInfo) : ℕ :=
  (attributesInfo.map AttributeInfo.byteCount).sum

/-- The reader takes as many bytes as are declared from a stream that has them. -/
def ConsumesRecords (endianness : PCCEndianness) (attributesInfo : List AttributeInfo) : Prop :=
  ∀ stream : List UInt8, declaredBytes attributesInfo ≤ stream.length →
    ∃ record, readRecord endianness (locateAll true attributesInfo) attributesInfo stream =
      some (record, stream.drop (declaredBytes attributesInfo))

theorem consumesRecords_iff_counts (attributesInfo : List AttributeInfo) :
    ConsumesRecords endianness attributesInfo ↔
      ∃ counts, (attributesInfo.zipIdx.mapM fun entry : AttributeInfo × ℕ =>
        entry.1.consumed (locateAll true attributesInfo) entry.2) = some counts ∧
        counts.sum = declaredBytes attributesInfo := by
  generalize hindices : locateAll true attributesInfo = indices
  constructor
  · intro h
    unfold ConsumesRecords at h
    rw [hindices] at h
    cases hcounts : attributesInfo.zipIdx.mapM fun entry : AttributeInfo × ℕ =>
        entry.1.consumed indices entry.2 with
    | none =>
      obtain ⟨record, hrecord⟩ :=
        h (List.replicate (declaredBytes attributesInfo) 0) (List.length_replicate).ge
      have hread := @map_readRecord endianness attributesInfo
        (List.replicate (declaredBytes attributesInfo) 0)
      rw [hindices, hrecord, hcounts] at hread
      cases hread
    | some counts =>
      have hlength := @List.length_replicate _ (declaredBytes attributesInfo + counts.sum) (0 : UInt8)
      generalize List.replicate (declaredBytes attributesInfo + counts.sum) (0 : UInt8) = stream
        at hlength
      obtain ⟨record, hrecord⟩ := h stream (by omega)
      have hread := @map_readRecord endianness attributesInfo stream
      rw [hindices, hrecord, hcounts, Option.bind_some, skip_eq, if_pos (by omega)] at hread
      have hdrop := congrArg List.length (Option.some.inj hread)
      dsimp only at hdrop
      rw [List.length_drop, List.length_drop] at hdrop
      exact ⟨counts, rfl, by omega⟩
  · rintro ⟨counts, hcounts, hsum⟩ stream hlength
    have hread := @map_readRecord endianness attributesInfo stream
    rw [hindices, hcounts, Option.bind_some, hsum, skip_eq, if_pos hlength] at hread
    obtain ⟨⟨record, rest⟩, hrecord, hrest⟩ := Option.map_eq_some_iff.mp hread
    obtain rfl : rest = stream.drop (declaredBytes attributesInfo) := hrest
    rw [hindices]
    exact ⟨record, hrecord⟩

/-- Every value of a record has a place: a colour and a normal are read when they are complete, and
a reflectance of one byte is read at index 1. -/
def ArePlaced (attributesInfo : List AttributeInfo) : Prop :=
  (∀ field : PlyField, field.isColor = true →
    ((locateAll true attributesInfo).get field).isSome = true →
      (locateAll true attributesInfo).withColors = true) ∧
  (∀ field : PlyField, field.isNormal = true →
    ((locateAll true attributesInfo).get field).isSome = true →
      (locateAll true attributesInfo).withNormals = true) ∧
  ∀ a, (locateAll true attributesInfo).reflectance = some a →
    a = 1 ∧ (attributesInfo[a]?).map AttributeInfo.byteCount = some 1

section Places

variable {info : AttributeInfo} {a : ℕ}

/-- A value that has a place is read. -/
theorem consumed_eq (hplaces : ∀ field, indices.get field = some a → info.field true = some field)
    (hcolors : ∀ field : PlyField, field.isColor = true → indices.get field = some a →
      indices.withColors = true)
    (hnormals : ∀ field : PlyField, field.isNormal = true → indices.get field = some a →
      indices.withNormals = true)
    (hreflectance : indices.reflectance = some a → a = 1) :
    info.consumed indices a =
      some (if indices.reflectance = some a then 1 else info.byteCount) := by
  have hnot {field : PlyField} (hfield : info.field true = some field)
      (hne : field ≠ .reflectance) : ¬indices.reflectance = some a := by
    intro hget
    have hplace := hplaces .reflectance hget
    rw [hfield] at hplace
    exact hne (Option.some.inj hplace)
  unfold AttributeInfo.consumed
  cases hfield : info.field true with
  | none =>
    have hne : ¬indices.reflectance = some a := by
      intro hget
      have hplace := hplaces .reflectance hget
      rw [hfield] at hplace
      cases hplace
    rw [if_neg hne]
    rfl
  | some field =>
    by_cases hget : indices.get field = some a
    · rw [Option.filter_some, if_pos (decide_eq_true hget), Option.elim_some]
      unfold PlyField.consumed
      by_cases hcolor : field.isColor = true
      · have hne : field ≠ .reflectance := by
          rintro rfl
          cases hcolor
        rw [if_pos hcolor, if_pos (hcolors field hcolor hget), if_neg (hnot hfield hne)]
      · by_cases hnormal : field.isNormal = true
        · have hne : field ≠ .reflectance := by
            rintro rfl
            cases hnormal
          rw [if_neg hcolor, if_pos hnormal, if_pos (hnormals field hnormal hget),
            if_neg (hnot hfield hne)]
        · rw [if_neg hcolor, if_neg hnormal]
          by_cases heq : field = .reflectance
          · have hplace : indices.reflectance = some a := by rwa [heq] at hget
            rw [if_pos heq, if_pos (hreflectance hplace), if_pos hplace]
          · rw [if_neg heq, if_neg (hnot hfield heq)]
    · rw [Option.filter_some, if_neg (by rwa [decide_eq_true_iff]), Option.elim_none, if_neg]
      intro hplace
      have hreflectanceField := hplaces .reflectance hplace
      rw [hfield] at hreflectanceField
      rw [Option.some.inj hreflectanceField] at hget
      exact hget hplace

/-- A value that is read has a place. -/
theorem isPlaced_of_consumed {field : PlyField} {count : ℕ} (hfield : info.field true = some field)
    (hget : indices.get field = some a) (h : info.consumed indices a = some count) :
    (field.isColor = true → indices.withColors = true) ∧
    (field.isNormal = true → indices.withNormals = true) ∧ (field = .reflectance → a = 1) := by
  unfold AttributeInfo.consumed at h
  rw [hfield, Option.filter_some, if_pos (decide_eq_true hget), Option.elim_some] at h
  unfold PlyField.consumed at h
  have hkinds : (field.isColor = true → ¬field.isNormal = true) ∧
      (field.isColor = true → field ≠ .reflectance) ∧
      (field.isNormal = true → field ≠ .reflectance) := by
    revert field
    intro field _ _ _
    cases field <;> decide
  split_ifs at h with hcolor hcolors hnormal hnormals heq ha
  · exact ⟨fun _ => hcolors, fun hnormal => absurd hnormal (hkinds.1 hcolor),
      fun heq => absurd heq (hkinds.2.1 hcolor)⟩
  · exact ⟨fun h => absurd h hcolor, fun _ => hnormals,
      fun heq => absurd heq (hkinds.2.2 hnormal)⟩
  · exact ⟨fun h => absurd h hcolor, fun h => absurd h hnormal, fun _ => ha⟩
  · exact ⟨fun h => absurd h hcolor, fun h => absurd h hnormal, fun h => absurd h heq⟩

end Places

section Sums

variable {attributesInfo : List AttributeInfo}

theorem declaredBytes_eq (attributesInfo : List AttributeInfo) :
    declaredBytes attributesInfo =
      (attributesInfo.zipIdx.map fun entry : AttributeInfo × ℕ => entry.1.byteCount).sum := by
  have hfst : attributesInfo.zipIdx.map Prod.fst = attributesInfo := List.zipIdx_map_fst 0 _
  unfold declaredBytes
  conv_lhs => rw [← hfst, List.map_map]
  rfl

/-- The bytes of a record when all its values are read. -/
theorem mapM_consumed (hcolors : ∀ field : PlyField, field.isColor = true →
      ((locateAll true attributesInfo).get field).isSome = true →
        (locateAll true attributesInfo).withColors = true)
    (hnormals : ∀ field : PlyField, field.isNormal = true →
      ((locateAll true attributesInfo).get field).isSome = true →
        (locateAll true attributesInfo).withNormals = true)
    (hreflectance : ∀ a, (locateAll true attributesInfo).reflectance = some a → a = 1) :
    (attributesInfo.zipIdx.mapM fun entry : AttributeInfo × ℕ =>
      entry.1.consumed (locateAll true attributesInfo) entry.2) =
      some (attributesInfo.zipIdx.map fun entry : AttributeInfo × ℕ =>
        if (locateAll true attributesInfo).reflectance = some entry.2 then 1
        else entry.1.byteCount) := by
  apply Codec.mapM_eq_some_map
  intro entry hentry
  apply consumed_eq (field_of_mem_zipIdx hentry)
  · intro field hfield hget
    exact hcolors field hfield (by rw [hget]; rfl)
  · intro field hfield hget
    exact hnormals field hfield (by rw [hget]; rfl)
  · exact hreflectance entry.2

theorem consumesRecords_iff (endianness : PCCEndianness) (attributesInfo : List AttributeInfo) :
    ConsumesRecords endianness attributesInfo ↔ ArePlaced attributesInfo := by
  rw [consumesRecords_iff_counts, declaredBytes_eq]
  unfold ArePlaced
  constructor
  · rintro ⟨counts, hcounts, hsum⟩
    have hread {field : PlyField} {a : ℕ}
        (hget : (locateAll true attributesInfo).get field = some a) :
        (field.isColor = true → (locateAll true attributesInfo).withColors = true) ∧
        (field.isNormal = true → (locateAll true attributesInfo).withNormals = true) ∧
        (field = .reflectance → a = 1) := by
      obtain ⟨info, hinfo, hfield⟩ := get_locateAll hget
      have hentry : (info, a) ∈ attributesInfo.zipIdx := List.mem_zipIdx_iff_getElem?.mpr hinfo
      obtain ⟨count, hcount⟩ := Codec.exists_of_mapM_eq_some hcounts hentry
      exact isPlaced_of_consumed hfield hget hcount
    have hcolors : ∀ field : PlyField, field.isColor = true →
        ((locateAll true attributesInfo).get field).isSome = true →
          (locateAll true attributesInfo).withColors = true := by
      intro field hfield hsome
      obtain ⟨a, hget⟩ := Option.isSome_iff_exists.mp hsome
      exact (hread hget).1 hfield
    have hnormals : ∀ field : PlyField, field.isNormal = true →
        ((locateAll true attributesInfo).get field).isSome = true →
          (locateAll true attributesInfo).withNormals = true := by
      intro field hfield hsome
      obtain ⟨a, hget⟩ := Option.isSome_iff_exists.mp hsome
      exact (hread hget).2.1 hfield
    have hone : ∀ a, (locateAll true attributesInfo).reflectance = some a → a = 1 :=
      fun a hget => (@hread .reflectance a hget).2.2 rfl
    refine ⟨hcolors, hnormals, fun a hget => ⟨hone a hget, ?_⟩⟩
    rw [mapM_consumed hcolors hnormals hone] at hcounts
    rw [← Option.some.inj hcounts] at hsum
    have hplace : (locateAll true attributesInfo).get .reflectance = some a := hget
    obtain ⟨info, hinfo, hfield⟩ := get_locateAll hplace
    have hentry : (info, a) ∈ attributesInfo.zipIdx := List.mem_zipIdx_iff_getElem?.mpr hinfo
    have honly : ∀ entry ∈ attributesInfo.zipIdx,
        (locateAll true attributesInfo).reflectance = some entry.2 → entry = (info, a) := by
      intro entry hmem hat
      have hindex : a = entry.2 := Option.some.inj (hget.symm.trans hat)
      have hinfo' := List.mem_zipIdx_iff_getElem?.mp hmem
      rw [← hindex, hinfo] at hinfo'
      exact Prod.ext (Option.some.inj hinfo').symm hindex.symm
    rw [hinfo, Option.map_some]
    by_contra hwidth
    have hle : info.byteCount ≤ 2 := (hasByteCount_of_field hfield).2.2.2 rfl
    -- A width of 0 makes the reader take more than is declared, a width of 2 less.
    rcases Nat.lt_or_gt_of_ne (fun h => hwidth (congrArg some h) : info.byteCount ≠ 1) with
      hlow | hhigh
    · refine absurd hsum (List.sum_lt_sum _ _ ?_ ⟨(info, a), hentry, ?_⟩).ne'
      · intro entry hmem
        by_cases hat : (locateAll true attributesInfo).reflectance = some entry.2
        · rw [if_pos hat, honly entry hmem hat]
          exact hlow.le
        · rw [if_neg hat]
      · rw [if_pos hget]
        exact hlow
    · refine absurd hsum (List.sum_lt_sum _ _ ?_ ⟨(info, a), hentry, ?_⟩).ne
      · intro entry hmem
        by_cases hat : (locateAll true attributesInfo).reflectance = some entry.2
        · rw [if_pos hat, honly entry hmem hat]
          exact hhigh.le
        · rw [if_neg hat]
      · rw [if_pos hget]
        exact hhigh
  · rintro ⟨hcolors, hnormals, hreflectance⟩
    refine ⟨_, mapM_consumed hcolors hnormals fun a hget => (hreflectance a hget).1, ?_⟩
    congr 1
    apply List.map_congr_left
    intro entry hentry
    by_cases hget : (locateAll true attributesInfo).reflectance = some entry.2
    · have hwidth := (hreflectance entry.2 hget).2
      rw [List.mem_zipIdx_iff_getElem?.mp hentry, Option.map_some] at hwidth
      rw [if_pos hget, Option.some.inj hwidth]
    · rw [if_neg hget]

end Sums

end Records

end V3C

import V3C.Codec.Traverse
import V3C.PointSet.PlyHeader

/-! The records of a file: what is read of a point that is written. -/
namespace V3C
open Text

/-- A point set that a file can hold: the coordinates have 16 bits, the attributes are complete and
single precision holds the normals. -/
structure PlyPointSet extends PCCPointSet3 where
  coordinates : ∀ P ∈ positions, (-2 ^ 15 ≤ P.x ∧ P.x < 2 ^ 15) ∧ (-2 ^ 15 ≤ P.y ∧ P.y < 2 ^ 15) ∧
    -2 ^ 15 ≤ P.z ∧ P.z < 2 ^ 15
  lengthColors : colors.length = if withColors then positions.length else 0
  lengthReflectances : reflectances.length = if withReflectances then positions.length else 0
  lengthNormals : normals.length = if withNormals then positions.length else 0
  single : ∀ normal ∈ normals, FloatWord.IsSingle normal.1 ∧ FloatWord.IsSingle normal.2.1 ∧
    FloatWord.IsSingle normal.2.2

/-! ### Words -/

theorem length_littleEndian (count word : ℕ) : (littleEndian count word).length = count := by
  induction count generalizing word with
  | zero => rfl
  | succ count ih => rw [littleEndian, List.length_cons, ih]

theorem ofLittleEndian_littleEndian {count word : ℕ} (h : word < 256 ^ count) :
    ofLittleEndian (littleEndian count word) = word := by
  induction count generalizing word with
  | zero =>
    rw [pow_zero, Nat.lt_one_iff] at h
    rw [h]
    rfl
  | succ count ih =>
    have hdiv : word / 256 < 256 ^ count := by
      rw [pow_succ] at h
      exact Nat.div_lt_of_lt_mul (by rwa [mul_comm] at h)
    rw [littleEndian, ofLittleEndian, ih hdiv, UInt8.toNat_ofNat']
    omega

theorem length_wordBytes (endianness : PCCEndianness) (count word : ℕ) :
    (wordBytes endianness count word).length = count := by
  cases endianness with
  | PCC_LITTLE_ENDIAN => exact length_littleEndian count word
  | PCC_BIG_ENDIAN => exact (List.length_reverse).trans (length_littleEndian count word)

theorem bytesWord_wordBytes (endianness : PCCEndianness) {count word : ℕ} (h : word < 256 ^ count) :
    bytesWord endianness (wordBytes endianness count word) = word := by
  cases endianness with
  | PCC_LITTLE_ENDIAN => exact ofLittleEndian_littleEndian h
  | PCC_BIG_ENDIAN =>
    unfold bytesWord wordBytes
    dsimp only
    rw [List.reverse_reverse, ofLittleEndian_littleEndian h]

theorem encodeSingle_lt {n : ℤ} (h : FloatWord.IsSingle n) : FloatWord.encodeSingle n < 256 ^ 4 := by
  unfold FloatWord.encodeSingle
  by_cases hn : n = 0
  · subst hn
    decide
  · have ha : n.natAbs ≠ 0 := Int.natAbs_ne_zero.mpr hn
    have hlog : Nat.log 2 n.natAbs < 128 := Nat.log_lt_of_lt_pow ha h.1
    have hsignificand := (FloatWord.significand_spec ha h.2).2.1
    rw [if_neg hn]
    split_ifs <;> omega

/-- The number of an integer that is written. -/
def number (n : ℤ) : Option (Scaled 2) := FloatWord.decode 8 23 (FloatWord.encodeSingle n)

theorem number_toInt? {n : ℤ} (h : FloatWord.IsSingle n) : (number n).bind Scaled.toInt? = some n := by
  obtain ⟨x, hx, hint⟩ := FloatWord.decode_encodeSingle h
  unfold number
  rw [hx, Option.bind_some, hint]

theorem isSingle_of_int16 {n : ℤ} (h : -2 ^ 15 ≤ n ∧ n < 2 ^ 15) : FloatWord.IsSingle n :=
  FloatWord.isSingle_of_natAbs_lt (by omega)

theorem toCoordinate_number {n : ℤ} (h : -2 ^ 15 ≤ n ∧ n < 2 ^ 15) :
    ((number n).bind fun x => toCoordinate x.trunc) = some n := by
  obtain ⟨x, hx, hint⟩ := FloatWord.decode_encodeSingle (isSingle_of_int16 h)
  unfold number toCoordinate
  rw [hx, Option.bind_some, Scaled.trunc_of_toInt? hint, if_pos h]

/-- The bytes of an integer in single precision. -/
def floatBytes (endianness : PCCEndianness) (n : ℤ) : List UInt8 :=
  wordBytes endianness 4 (FloatWord.encodeSingle n)

section Reading

variable {endianness : PCCEndianness} {n : ℤ} {rest : List UInt8}

theorem takeBytes_append {count : ℕ} {bytes : List UInt8} (h : bytes.length = count) :
    takeBytes count (bytes ++ rest) = some (bytes, rest) := by
  unfold takeBytes
  rw [if_pos (by rw [List.length_append]; omega), List.take_left' h, List.drop_left' h]

theorem readCoordinate_floatBytes (h : FloatWord.IsSingle n) :
    readCoordinate endianness 4 (floatBytes endianness n ++ rest) = some (number n, rest) := by
  unfold readCoordinate floatBytes
  rw [if_neg (by decide), if_pos rfl, takeBytes_append (length_wordBytes _ _ _), Option.map_some]
  dsimp only
  rw [bytesWord_wordBytes _ (encodeSingle_lt h)]
  rfl

theorem readNormal_floatBytes (h : FloatWord.IsSingle n) :
    readNormal endianness 4 (floatBytes endianness n ++ rest) = some (number n, rest) := by
  unfold readNormal floatBytes
  rw [if_pos rfl, takeBytes_append (length_wordBytes _ _ _), Option.map_some]
  dsimp only
  rw [bytesWord_wordBytes _ (encodeSingle_lt h)]
  rfl

end Reading

/-! ### Lists that are filled -/

section Fill

variable {α : Type} [Inhabited α] {xs : List α} {i : ℕ}

/-- The first values of a list; the others are not yet read. -/
def fill (i : ℕ) (xs : List α) : List α := xs.take i ++ List.replicate (xs.length - i) default

theorem fill_zero (xs : List α) : fill 0 xs = List.replicate xs.length default := rfl

theorem fill_nil (i : ℕ) : fill i ([] : List α) = [] := by
  unfold fill
  rw [List.take_nil, List.length_nil, Nat.zero_sub, List.replicate_zero, List.append_nil]

theorem fill_of_length_le (h : xs.length ≤ i) : fill i xs = xs := by
  unfold fill
  rw [List.take_of_length_le h, Nat.sub_eq_zero_of_le h, List.replicate_zero, List.append_nil]

theorem set_fill {a : α} (h : xs[i]? = some a) : (fill i xs).set i a = fill (i + 1) xs := by
  obtain ⟨hi, rfl⟩ := List.getElem?_eq_some_iff.mp h
  have hlength : (xs.take i).length = i := by rw [List.length_take]; omega
  have hcount : xs.length - i = xs.length - (i + 1) + 1 := by omega
  unfold fill
  rw [List.set_append_right _ _ hlength.le, hlength, Nat.sub_self, hcount, List.replicate_succ,
    List.set_cons_zero, List.take_succ_eq_append_getElem hi, List.append_assoc]
  rfl

/-- A list that is there is filled by one more value. -/
theorem setIf_fill {present : Bool} {n : ℕ} {a : α}
    (hlength : xs.length = if present then n else 0) (ha : present = true → xs[i]? = some a) :
    (if present then (fill i xs).set i a else fill i xs) = fill (i + 1) xs := by
  cases present with
  | true => exact set_fill (ha rfl)
  | false =>
    rw [List.eq_nil_of_length_eq_zero hlength, if_neg Bool.false_ne_true, fill_nil, fill_nil]

end Fill

namespace PCCPointSet3

/-- The points that are read so far. -/
def filled (points : PCCPointSet3) (i : ℕ) : PCCPointSet3 :=
  { points with
    positions := fill i points.positions
    colors := fill i points.colors
    reflectances := fill i points.reflectances
    normals := fill i points.normals }

/-- The points that an ASCII file gives back. -/
def withoutNormals (points : PCCPointSet3) : PCCPointSet3 :=
  { points with normals := points.normals.map fun _ => default }

theorem setColorAt_eq (points : PCCPointSet3) (i : ℕ) (color : PCCColor3B) :
    points.setColorAt i color = { points with
      colors := if points.withColors then points.colors.set i color else points.colors } := by
  unfold setColorAt
  split_ifs <;> rfl

theorem setReflectance_eq (points : PCCPointSet3) (i : ℕ) (reflectance : UInt16) :
    points.setReflectance i reflectance = { points with
      reflectances := if points.withReflectances then points.reflectances.set i reflectance
        else points.reflectances } := by
  unfold setReflectance
  split_ifs <;> rfl

theorem setNormal_eq (points : PCCPointSet3) (i : ℕ) (normal : ℤ × ℤ × ℤ) :
    points.setNormal i normal = { points with
      normals := if points.withNormals then points.normals.set i normal else points.normals } := by
  unfold setNormal
  split_ifs <;> rfl

end PCCPointSet3

namespace PlyPointSet

variable (set : PlyPointSet) {i : ℕ}

/-- A point is stored after the points before it. -/
theorem store_filled {P : PCCPoint3D} {color : PCCColor3B} {normal : ℤ × ℤ × ℤ}
    {reflectance : UInt16} (hP : set.positions[i]? = some P)
    (hcolor : set.withColors = true → set.colors[i]? = some color)
    (hnormal : set.withNormals = true → set.normals[i]? = some normal)
    (hreflectance : set.withReflectances = true → set.reflectances[i]? = some reflectance) :
    ((((set.filled i).setPosition i P).setColorAt i color).setNormal i normal).setReflectance i
      reflectance = set.filled (i + 1) := by
  rw [PCCPointSet3.setReflectance_eq, PCCPointSet3.setNormal_eq, PCCPointSet3.setColorAt_eq]
  unfold PCCPointSet3.setPosition PCCPointSet3.filled
  dsimp only
  rw [set_fill hP, setIf_fill set.lengthColors hcolor, setIf_fill set.lengthNormals hnormal,
    setIf_fill set.lengthReflectances hreflectance]

end PlyPointSet

/-! ### A record of a binary file -/

section Groups

variable {endianness : PCCEndianness} {withNormals withColors withReflectances : Bool}
  {record : PlyRecord} {rest : List UInt8}

/-- The loop over some attributes. -/
def readAttributes (endianness : PCCEndianness) (indices : Indices)
    (attributes : List (AttributeInfo × ℕ)) (record : PlyRecord) (stream : List UInt8) :
    Option (PlyRecord × List UInt8) :=
  attributes.foldlM (fun (state : PlyRecord × List UInt8) entry =>
    readAttribute endianness indices entry.2 entry.1 state.1 state.2) (record, stream)

theorem readAttributes_cons {indices : Indices} {info : AttributeInfo} {a : ℕ}
    {attributes : List (AttributeInfo × ℕ)} {stream : List UInt8} {record' : PlyRecord}
    {stream' : List UInt8}
    (h : readAttribute endianness indices a info record stream = some (record', stream')) :
    readAttributes endianness indices ((info, a) :: attributes) record stream =
      readAttributes endianness indices attributes record' stream' := by
  unfold readAttributes
  rw [List.foldlM_cons]
  dsimp only
  rw [h]
  rfl

theorem readAttributes_append {indices : Indices} {attributes attributes' : List (AttributeInfo × ℕ)}
    {stream : List UInt8} {record' : PlyRecord} {stream' : List UInt8}
    (h : readAttributes endianness indices attributes record stream = some (record', stream')) :
    readAttributes endianness indices (attributes ++ attributes') record stream =
      readAttributes endianness indices attributes' record' stream' := by
  unfold readAttributes at h ⊢
  rw [List.foldlM_append, h]
  rfl

theorem readAttributes_coordinates {P : PCCPoint3D}
    (hx : FloatWord.IsSingle P.x) (hy : FloatWord.IsSingle P.y) (hz : FloatWord.IsSingle P.z) :
    readAttributes endianness (indicesOf withNormals withColors withReflectances)
      [(⟨textBytes "x", 4⟩, 0), (⟨textBytes "y", 4⟩, 1), (⟨textBytes "z", 4⟩, 2)] record
      (floatBytes endianness P.x ++ (floatBytes endianness P.y ++
        (floatBytes endianness P.z ++ rest))) =
      some ({ record with x := number P.x, y := number P.y, z := number P.z }, rest) := by
  have hplaceX : (indicesOf withNormals withColors withReflectances).x = some 0 := rfl
  have hplaceY : (indicesOf withNormals withColors withReflectances).y = some 1 := rfl
  have hplaceZ : (indicesOf withNormals withColors withReflectances).z = some 2 := rfl
  rw [readAttributes_cons (by
      rw [readAttribute, if_pos hplaceX, readCoordinate_floatBytes hx]; rfl),
    readAttributes_cons (by
      rw [readAttribute, hplaceX, if_neg (by decide), if_pos hplaceY,
        readCoordinate_floatBytes hy]; rfl),
    readAttributes_cons (by
      rw [readAttribute, hplaceX, hplaceY, if_neg (by decide), if_neg (by decide), if_pos hplaceZ,
        readCoordinate_floatBytes hz]; rfl)]
  rfl

theorem readAttributes_normals {normal : ℤ × ℤ × ℤ} (hx : FloatWord.IsSingle normal.1)
    (hy : FloatWord.IsSingle normal.2.1) (hz : FloatWord.IsSingle normal.2.2) :
    readAttributes endianness (indicesOf true withColors withReflectances)
      [(⟨textBytes "nx", 4⟩, 3), (⟨textBytes "ny", 4⟩, 4), (⟨textBytes "nz", 4⟩, 5)] record
      (floatBytes endianness normal.1 ++ (floatBytes endianness normal.2.1 ++
        (floatBytes endianness normal.2.2 ++ rest))) =
      some ({ record with
        nx := number normal.1, ny := number normal.2.1, nz := number normal.2.2 }, rest) := by
  have hwith : (indicesOf true withColors withReflectances).withNormals = true := rfl
  have hread : ∀ {n : ℤ} {rest : List UInt8}, FloatWord.IsSingle n →
      readNormalOf endianness (indicesOf true withColors withReflectances) 4
        (floatBytes endianness n ++ rest) = some (number n, rest) := by
    intro n rest h
    rw [readNormalOf, if_pos hwith, readNormal_floatBytes h]
  have hother : ∀ a : ℕ, 3 ≤ a → a < 6 →
      ¬(indicesOf true withColors withReflectances).x = some a ∧
      ¬(indicesOf true withColors withReflectances).y = some a ∧
      ¬(indicesOf true withColors withReflectances).z = some a := by
    intro a hlow hhigh
    refine ⟨?_, ?_, ?_⟩
    · exact fun h => absurd (Option.some.inj h) (by omega)
    · exact fun h => absurd (Option.some.inj h) (by omega)
    · exact fun h => absurd (Option.some.inj h) (by omega)
  obtain ⟨hx3, hy3, hz3⟩ := hother 3 (by omega) (by omega)
  obtain ⟨hx4, hy4, hz4⟩ := hother 4 (by omega) (by omega)
  obtain ⟨hx5, hy5, hz5⟩ := hother 5 (by omega) (by omega)
  have hbytes : ¬(4 = 1) := by decide
  have hplaceX : (indicesOf true withColors withReflectances).nx = some 3 := rfl
  have hplaceY : (indicesOf true withColors withReflectances).ny = some 4 := rfl
  have hplaceZ : (indicesOf true withColors withReflectances).nz = some 5 := rfl
  rw [readAttributes_cons (by
      rw [readAttribute, if_neg hx3, if_neg hy3, if_neg hz3, if_neg fun h => hbytes h.2,
        if_neg fun h => hbytes h.2, if_neg fun h => hbytes h.2, if_pos hplaceX, hread hx]; rfl),
    readAttributes_cons (by
      rw [readAttribute, if_neg hx4, if_neg hy4, if_neg hz4, if_neg fun h => hbytes h.2,
        if_neg fun h => hbytes h.2, if_neg fun h => hbytes h.2, hplaceX, if_neg (by decide),
        if_pos hplaceY, hread hy]; rfl),
    readAttributes_cons (by
      rw [readAttribute, if_neg hx5, if_neg hy5, if_neg hz5, if_neg fun h => hbytes h.2,
        if_neg fun h => hbytes h.2, if_neg fun h => hbytes h.2, hplaceX, hplaceY,
        if_neg (by decide), if_neg (by decide), if_pos hplaceZ, hread hz]; rfl)]
  rfl

theorem readAttributes_colors {k : ℕ} (hk : k = if withNormals then 6 else 3) (color : PCCColor3B) :
    readAttributes endianness (indicesOf withNormals true withReflectances)
      [(⟨textBytes "red", 1⟩, k), (⟨textBytes "green", 1⟩, k + 1), (⟨textBytes "blue", 1⟩, k + 2)]
      record (color.r :: color.g :: color.b :: rest) =
      some ({ record with r := color.r, g := color.g, b := color.b }, rest) := by
  subst hk
  cases withNormals with
  | false => rfl
  | true => rfl

theorem readAttribute_reflectance {k : ℕ}
    (hk : k = 3 + (if withNormals then 3 else 0) + if withColors then 3 else 0)
    (record : PlyRecord) (stream : List UInt8) :
    readAttribute endianness (indicesOf withNormals withColors true) k ⟨textBytes "refc", 2⟩ record
      stream = none := by
  subst hk
  cases withNormals with
  | false =>
    cases withColors with
    | false => rfl
    | true => rfl
  | true =>
    cases withColors with
    | false => rfl
    | true => rfl

end Groups

def normalAttributes (withNormals : Bool) : List (AttributeInfo × ℕ) :=
  if withNormals then
    [(⟨textBytes "nx", 4⟩, 3), (⟨textBytes "ny", 4⟩, 4), (⟨textBytes "nz", 4⟩, 5)] else []

def colorAttributes (withNormals withColors : Bool) : List (AttributeInfo × ℕ) :=
  let k := if withNormals then 6 else 3
  if withColors then [(⟨textBytes "red", 1⟩, k), (⟨textBytes "green", 1⟩, k + 1),
    (⟨textBytes "blue", 1⟩, k + 2)] else []

def reflectanceAttributes (withNormals withColors withReflectances : Bool) :
    List (AttributeInfo × ℕ) :=
  if withReflectances then [(⟨textBytes "refc", 2⟩,
    3 + (if withNormals then 3 else 0) + if withColors then 3 else 0)] else []

theorem zipIdx_attributesOf (withNormals withColors withReflectances : Bool) :
    (attributesOf withNormals withColors withReflectances).zipIdx =
      [(⟨textBytes "x", 4⟩, 0), (⟨textBytes "y", 4⟩, 1), (⟨textBytes "z", 4⟩, 2)] ++
        (normalAttributes withNormals ++ (colorAttributes withNormals withColors ++
          reflectanceAttributes withNormals withColors withReflectances)) := by
  cases withNormals <;> cases withColors <;> cases withReflectances <;> rfl

namespace PlyPointSet

variable (set : PlyPointSet) (endianness : PCCEndianness) {i : ℕ}

theorem exists_normal (hi : i < set.positions.length) (withReflectances : Bool) :
    ∃ bytes nx ny nz, ∃ normal : ℤ × ℤ × ℤ,
      attributeAt set.withNormals set.normals i (fun normal : ℤ × ℤ × ℤ =>
        floatBytes endianness normal.1 ++ floatBytes endianness normal.2.1 ++
          floatBytes endianness normal.2.2) = some bytes ∧
      (∀ x y z rest, readAttributes endianness
        (indicesOf set.withNormals set.withColors withReflectances)
        (normalAttributes set.withNormals) { x := x, y := y, z := z } (bytes ++ rest) =
          some ({ x := x, y := y, z := z, nx := nx, ny := ny, nz := nz }, rest)) ∧
      (nx.bind Scaled.toInt? = some normal.1 ∧ ny.bind Scaled.toInt? = some normal.2.1 ∧
        nz.bind Scaled.toInt? = some normal.2.2) ∧
      (set.withNormals = true → set.normals[i]? = some normal) := by
  have hlength := set.lengthNormals
  cases hnormals : set.withNormals with
  | false =>
    refine ⟨[], some ⟨0, 0⟩, some ⟨0, 0⟩, some ⟨0, 0⟩, (0, 0, 0), rfl, ?_, ?_, nofun⟩
    · intro x y z rest
      rfl
    · exact ⟨rfl, rfl, rfl⟩
  | true =>
    rw [hnormals, if_pos rfl] at hlength
    have hlt : i < set.normals.length := by rwa [hlength]
    obtain ⟨hx, hy, hz⟩ := set.single _ (List.getElem_mem hlt)
    refine ⟨floatBytes endianness set.normals[i].1 ++ (floatBytes endianness set.normals[i].2.1 ++
        floatBytes endianness set.normals[i].2.2), number set.normals[i].1,
      number set.normals[i].2.1, number set.normals[i].2.2, set.normals[i], ?_, ?_, ?_, ?_⟩
    · rw [attributeAt, if_pos rfl, List.getElem?_eq_getElem hlt, Option.map_some,
        List.append_assoc]
    · intro x y z rest
      rw [List.append_assoc, List.append_assoc]
      exact readAttributes_normals hx hy hz
    · exact ⟨number_toInt? hx, number_toInt? hy, number_toInt? hz⟩
    · exact fun _ => List.getElem?_eq_getElem hlt

theorem exists_color (hi : i < set.positions.length) (withReflectances : Bool) :
    ∃ bytes, ∃ color : PCCColor3B,
      attributeAt set.withColors set.colors i (fun color => [color.r, color.g, color.b]) =
        some bytes ∧
      (∀ x y z nx ny nz rest, readAttributes endianness
        (indicesOf set.withNormals set.withColors withReflectances)
        (colorAttributes set.withNormals set.withColors)
        { x := x, y := y, z := z, nx := nx, ny := ny, nz := nz } (bytes ++ rest) =
          some ({ x := x, y := y, z := z, nx := nx, ny := ny, nz := nz,
                  r := color.r, g := color.g, b := color.b }, rest)) ∧
      (set.withColors = true → set.colors[i]? = some color) := by
  have hlength := set.lengthColors
  cases hcolors : set.withColors with
  | false =>
    refine ⟨[], ⟨0, 0, 0⟩, rfl, ?_, nofun⟩
    intro x y z nx ny nz rest
    rfl
  | true =>
    rw [hcolors, if_pos rfl] at hlength
    have hlt : i < set.colors.length := by rwa [hlength]
    refine ⟨[set.colors[i].r, set.colors[i].g, set.colors[i].b], set.colors[i], ?_, ?_,
      fun _ => List.getElem?_eq_getElem hlt⟩
    · rw [attributeAt, if_pos rfl, List.getElem?_eq_getElem hlt]
      rfl
    · intro x y z nx ny nz rest
      exact readAttributes_colors rfl set.colors[i]

/-- A record without a reflectance is read, and its point is stored. -/
theorem exists_record (hwith : set.withReflectances = false) (hi : i < set.positions.length) :
    ∃ bytes record, set.binaryRecord endianness i = some bytes ∧
      (∀ rest, readRecord endianness (indicesOf set.withNormals set.withColors false)
        (attributesOf set.withNormals set.withColors false) (bytes ++ rest) =
          some (record, rest)) ∧
      (set.filled i).storeRecord i record = some (set.filled (i + 1)) := by
  obtain ⟨hx, hy, hz⟩ := set.coordinates _ (List.getElem_mem hi)
  obtain ⟨normalBytes, nx, ny, nz, normal, hnormalWrite, hnormalRead, hnormal, hnormalAt⟩ :=
    set.exists_normal endianness hi false
  obtain ⟨colorBytes, color, hcolorWrite, hcolorRead, hcolorAt⟩ :=
    set.exists_color endianness hi false
  have hreflectance : attributeAt set.withReflectances set.reflectances i
      (fun reflectance => wordBytes endianness 2 reflectance.toNat) = some [] := by
    rw [hwith]
    rfl
  refine ⟨floatBytes endianness set.positions[i].x ++ floatBytes endianness set.positions[i].y ++
      floatBytes endianness set.positions[i].z ++ normalBytes ++ colorBytes ++ [],
    { x := number set.positions[i].x, y := number set.positions[i].y,
      z := number set.positions[i].z, nx := nx, ny := ny, nz := nz,
      r := color.r, g := color.g, b := color.b }, ?_, ?_, ?_⟩
  · unfold PCCPointSet3.binaryRecord
    rw [List.getElem?_eq_getElem hi]
    show (attributeAt set.withNormals set.normals i (fun normal : ℤ × ℤ × ℤ =>
      floatBytes endianness normal.1 ++ floatBytes endianness normal.2.1 ++
        floatBytes endianness normal.2.2)).bind _ = _
    rw [hnormalWrite, Option.bind_some, hcolorWrite, Option.bind_eq_bind, Option.bind_some,
      hreflectance, Option.bind_some]
    rfl
  · intro rest
    have hcoordinates := @readAttributes_coordinates endianness set.withNormals set.withColors false
      {} (normalBytes ++ (colorBytes ++ rest)) set.positions[i] (isSingle_of_int16 hx)
      (isSingle_of_int16 hy) (isSingle_of_int16 hz)
    show readAttributes endianness _ (attributesOf set.withNormals set.withColors false).zipIdx {} _ = _
    rw [zipIdx_attributesOf, List.append_nil, List.append_assoc, List.append_assoc,
      List.append_assoc, List.append_assoc, readAttributes_append hcoordinates,
      readAttributes_append (hnormalRead _ _ _ _), readAttributes_append (hcolorRead _ _ _ _ _ _ _)]
    rfl
  · unfold PCCPointSet3.storeRecord
    dsimp only
    simp only [Option.bind_eq_bind, toCoordinate_number hx, toCoordinate_number hy,
      toCoordinate_number hz, hnormal.1, hnormal.2.1, hnormal.2.2, Option.bind_some]
    exact congrArg some (set.store_filled (List.getElem?_eq_getElem hi) hcolorAt hnormalAt
      fun h => absurd (hwith.symm.trans h) Bool.false_ne_true)

end PlyPointSet

end V3C

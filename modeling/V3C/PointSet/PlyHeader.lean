import Mathlib.Data.List.TakeWhile
import V3C.PointSet.PlyFile

/-! The header that is written is the header that is read. -/
namespace V3C
open Text

/-- A word of printable bytes. -/
def IsWord (word : List UInt8) : Prop := word ≠ [] ∧ ∀ c ∈ word, 32 < c.toNat

theorem isWord_of_all {word : List UInt8} (hne : word ≠ [])
    (hall : (word.all fun c => 32 < c.toNat) = true) : IsWord word :=
  ⟨hne, fun c hc => of_decide_eq_true (List.all_eq_true.mp hall c hc)⟩

theorem isWord_decimal (n : ℕ) : IsWord (decimal n) := by
  refine ⟨decimal_ne_nil n, ?_⟩
  intro c hc
  have hrange := isDigit_iff.mp (isDigit_of_mem_decimal hc)
  omega

theorem isWord_decimalInt (n : ℤ) : IsWord (decimalInt n) := by
  refine ⟨decimalInt_ne_nil n, ?_⟩
  intro c hc
  have hle := le_of_mem_decimalInt hc
  omega

section Tokens

variable {word : List UInt8} {words : List (List UInt8)}

theorem IsWord.not_separates (h : IsWord word) :
    ∀ c ∈ word, decide (c = 32 ∨ c = 9 ∨ c = 13) = false := by
  intro c hc
  have hprintable := h.2 c hc
  rw [decide_eq_false_iff_not]
  rintro (rfl | rfl | rfl)
  · exact absurd hprintable (by decide)
  · exact absurd hprintable (by decide)
  · exact absurd hprintable (by decide)

theorem mem_spaced {c : UInt8} (h : c ∈ PCCPointSet3.spaced words) :
    c = 32 ∨ ∃ word ∈ words, c ∈ word := by
  cases words with
  | nil => exact absurd h List.not_mem_nil
  | cons word words =>
    rcases List.mem_append.mp h with hc | hc
    · exact .inr ⟨word, List.mem_cons_self, hc⟩
    · obtain ⟨other, hother, hc⟩ := List.mem_flatMap.mp hc
      rcases List.mem_cons.mp hc with rfl | hc
      · exact .inl rfl
      · exact .inr ⟨other, List.mem_cons_of_mem _ hother, hc⟩

/-- A line of words has no byte below the space. -/
theorem le_of_mem_spaced (hwords : ∀ word ∈ words, IsWord word) {c : UInt8}
    (h : c ∈ PCCPointSet3.spaced words) : 32 ≤ c.toNat := by
  rcases mem_spaced h with rfl | ⟨word, hword, hc⟩
  · decide
  · exact ((hwords word hword).2 c hc).le

/-- The words of a line are its tokens. -/
theorem getTokens_spaced (hwords : ∀ word ∈ words, IsWord word) :
    getTokens (PCCPointSet3.spaced words) = words := by
  have hzero : (PCCPointSet3.spaced words).takeWhile (· ≠ 0) = PCCPointSet3.spaced words := by
    rw [List.takeWhile_eq_self_iff]
    intro c hc
    have hle := le_of_mem_spaced hwords hc
    rw [decide_eq_true_iff]
    rintro rfl
    exact absurd hle (by decide)
  unfold getTokens
  rw [hzero]
  cases words with
  | nil => rfl
  | cons word words =>
    have hword := hwords word List.mem_cons_self
    apply words_flatMap hword.1 hword.not_separates
    · intro other hother
      have hother := hwords other (List.mem_cons_of_mem _ hother)
      exact ⟨hother.1, hother.not_separates⟩
    · decide

end Tokens

section Header

variable {header : PlyHeader} {line : List UInt8} {lines : List (List UInt8)}

theorem readHeader_cons {header' : PlyHeader} (hlength : line.length < MAX_BUFFER_SIZE)
    (hstep : readHeaderLine header line = some (.next header')) :
    readHeader (line :: lines) header = readHeader lines header' := by
  rw [readHeader, if_pos hlength, hstep]

/-- A line that declares a property. -/
def IsProperty (line : List UInt8) : Prop :=
  line.length < MAX_BUFFER_SIZE ∧ (getTokens line).length = 3 ∧
    (getTokens line)[0]? = some (textBytes "property")

instance : DecidablePred IsProperty := fun _ => inferInstanceAs (Decidable (_ ∧ _ ∧ _))

/-- The attribute that a line declares. -/
def propertyInfo (line : List UInt8) : AttributeInfo :=
  ⟨(getTokens line).getD 2 [], byteCountOf ((getTokens line).getD 1 [])⟩

theorem readHeaderLine_property (hproperty : IsProperty line)
    (hvertex : header.isVertexProperty = true) :
    readHeaderLine header line = some (.next { header with
      attributesInfo := header.attributesInfo ++ [propertyInfo line] }) := by
  obtain ⟨-, hcount, hfirst⟩ := hproperty
  have hcomment : textBytes "property" ≠ textBytes "comment" := by decide
  have hformat : textBytes "property" ≠ textBytes "format" := by decide
  have helement : textBytes "property" ≠ textBytes "element" := by decide
  obtain ⟨first, second, third, htokens⟩ := List.length_eq_three.mp hcount
  unfold readHeaderLine propertyInfo
  rw [htokens] at hfirst ⊢
  obtain rfl : first = textBytes "property" := Option.some.inj hfirst
  dsimp only
  rw [if_neg hcomment, if_neg hformat, if_neg helement, if_pos ⟨rfl, hvertex⟩]
  rfl

/-- The attributes of the properties are collected in their order. -/
theorem readHeader_properties {properties : List (List UInt8)}
    (hproperties : ∀ line ∈ properties, IsProperty line)
    (hvertex : header.isVertexProperty = true) :
    readHeader (properties ++ lines) header = readHeader lines { header with
      attributesInfo := header.attributesInfo ++ properties.map propertyInfo } := by
  induction properties generalizing header with
  | nil => rw [List.nil_append, List.map_nil, List.append_nil]
  | cons line properties ih =>
    have hline := hproperties line List.mem_cons_self
    rw [List.cons_append, readHeader_cons hline.1 (readHeaderLine_property hline hvertex)]
    have hrest := @ih { header with
      attributesInfo := header.attributesInfo ++ [propertyInfo line] }
      (fun line hline => hproperties line (List.mem_cons_of_mem _ hline)) hvertex
    rw [hrest, List.map_cons, List.append_assoc]
    rfl

end Header

/-! ### The header of a point set -/

def attributesOf (withNormals withColors withReflectances : Bool) : List AttributeInfo :=
  [⟨textBytes "x", 4⟩, ⟨textBytes "y", 4⟩, ⟨textBytes "z", 4⟩] ++
  (if withNormals then [⟨textBytes "nx", 4⟩, ⟨textBytes "ny", 4⟩, ⟨textBytes "nz", 4⟩] else []) ++
  (if withColors then [⟨textBytes "red", 1⟩, ⟨textBytes "green", 1⟩, ⟨textBytes "blue", 1⟩]
    else []) ++
  if withReflectances then [⟨textBytes "refc", 2⟩] else []

/-- The places of the attributes. -/
def indicesOf (withNormals withColors withReflectances : Bool) : Indices :=
  let color := if withNormals then 6 else 3
  { x := some 0, y := some 1, z := some 2
    nx := if withNormals then some 3 else none
    ny := if withNormals then some 4 else none
    nz := if withNormals then some 5 else none
    r := if withColors then some color else none
    g := if withColors then some (color + 1) else none
    b := if withColors then some (color + 2) else none
    reflectance :=
      if withReflectances then some (if withColors then color + 3 else color) else none }

theorem locateAll_attributesOf (withNormals withColors withReflectances : Bool) :
    locateAll true (attributesOf withNormals withColors withReflectances) =
      indicesOf withNormals withColors withReflectances := by
  revert withNormals withColors withReflectances
  decide

namespace PCCPointSet3

/-- What holds of the lines of all properties holds of those that are written. -/
theorem forall_propertyLines (points : PCCPointSet3) {p : List UInt8 → Prop}
    (h : ∀ line ∈ (([textBytes "property float x", textBytes "property float y",
        textBytes "property float z"] ++
      [textBytes "property float nx", textBytes "property float ny",
        textBytes "property float nz"]) ++
      [textBytes "property uchar red", textBytes "property uchar green",
        textBytes "property uchar blue"]) ++ [textBytes "property uint16 refc"], p line) :
    ∀ line ∈ points.propertyLines, p line := by
  rw [List.forall_mem_append, List.forall_mem_append, List.forall_mem_append] at h
  obtain ⟨⟨⟨hcoordinates, hnormals⟩, hcolors⟩, hreflectance⟩ := h
  unfold propertyLines
  rw [List.forall_mem_append, List.forall_mem_append, List.forall_mem_append]
  refine ⟨⟨⟨hcoordinates, ?_⟩, ?_⟩, ?_⟩
  · split_ifs
    · exact hnormals
    · exact fun line hline => absurd hline List.not_mem_nil
  · split_ifs
    · exact hcolors
    · exact fun line hline => absurd hline List.not_mem_nil
  · split_ifs
    · exact hreflectance
    · exact fun line hline => absurd hline List.not_mem_nil

theorem isProperty_propertyLines (points : PCCPointSet3) :
    ∀ line ∈ points.propertyLines, IsProperty line :=
  points.forall_propertyLines (by decide)

theorem map_propertyInfo (points : PCCPointSet3) : points.propertyLines.map propertyInfo =
    attributesOf points.withNormals points.withColors points.withReflectances := by
  have hcoordinates : [textBytes "property float x", textBytes "property float y",
      textBytes "property float z"].map propertyInfo =
        [⟨textBytes "x", 4⟩, ⟨textBytes "y", 4⟩, ⟨textBytes "z", 4⟩] := by decide
  have hnormals : [textBytes "property float nx", textBytes "property float ny",
      textBytes "property float nz"].map propertyInfo =
        [⟨textBytes "nx", 4⟩, ⟨textBytes "ny", 4⟩, ⟨textBytes "nz", 4⟩] := by decide
  have hcolors : [textBytes "property uchar red", textBytes "property uchar green",
      textBytes "property uchar blue"].map propertyInfo =
        [⟨textBytes "red", 1⟩, ⟨textBytes "green", 1⟩, ⟨textBytes "blue", 1⟩] := by decide
  have hreflectance : [textBytes "property uint16 refc"].map propertyInfo =
      [⟨textBytes "refc", 2⟩] := by decide
  unfold propertyLines attributesOf
  rw [List.map_append, List.map_append, List.map_append, hcoordinates, apply_ite (List.map _),
    hnormals, apply_ite (List.map _), hcolors, apply_ite (List.map _), hreflectance]
  rfl

/-- The line with the number of points. -/
def countLine (n : ℕ) : List UInt8 := textBytes "element vertex " ++ decimal n

theorem countLine_eq (n : ℕ) :
    countLine n = spaced [textBytes "element", textBytes "vertex", decimal n] := by
  have hstart : textBytes "element vertex " =
      textBytes "element" ++ (32 :: textBytes "vertex") ++ [32] := by decide
  unfold countLine
  show _ = textBytes "element" ++ [textBytes "vertex", decimal n].flatMap (32 :: ·)
  rw [hstart, List.flatMap_cons, List.flatMap_cons, List.flatMap_nil, List.append_nil,
    List.append_assoc, List.append_assoc]
  rfl

theorem isWord_countLine (n : ℕ) :
    ∀ word ∈ [textBytes "element", textBytes "vertex", decimal n], IsWord word := by
  rw [List.forall_mem_cons, List.forall_mem_cons, List.forall_mem_singleton]
  refine ⟨?_, ?_, isWord_decimal n⟩
  · exact isWord_of_all (by decide) (by decide)
  · exact isWord_of_all (by decide) (by decide)

theorem getTokens_countLine (n : ℕ) :
    getTokens (countLine n) = [textBytes "element", textBytes "vertex", decimal n] := by
  rw [countLine_eq, getTokens_spaced (isWord_countLine n)]

theorem decimalInt_natCast (n : ℕ) : decimalInt n = decimal n := by
  unfold decimalInt
  rw [if_neg (by omega), Int.natAbs_natCast]

theorem atoi_decimalInt {n : ℤ} (hlow : -2 ^ 31 ≤ n) (hhigh : n < 2 ^ 31) :
    atoi (decimalInt n) = some n := by
  unfold atoi
  rw [parseInt_decimalInt, if_pos ⟨hlow, hhigh⟩]

theorem atoi_decimal {n : ℕ} (hn : n < 2 ^ 31) : atoi (decimal n) = some (n : ℤ) := by
  rw [← decimalInt_natCast, atoi_decimalInt (by omega) (by omega)]

theorem atoi_decimal_of_le {n : ℕ} (hn : 2 ^ 31 ≤ n) : atoi (decimal n) = none := by
  unfold atoi
  rw [← decimalInt_natCast, parseInt_decimalInt, if_neg (by omega)]

theorem readHeaderLine_countLine (header : PlyHeader) (n : ℕ) :
    readHeaderLine header (countLine n) =
      readElement header [textBytes "vertex", decimal n] := by
  have hcomment : textBytes "element" ≠ textBytes "comment" := by decide
  have hformat : textBytes "element" ≠ textBytes "format" := by decide
  unfold readHeaderLine
  rw [getTokens_countLine]
  dsimp only
  rw [if_neg hcomment, if_neg hformat, if_pos rfl]

def header (points : PCCPointSet3) (asAscii : Bool) : PlyHeader where
  isAscii := asAscii
  version := parseNumber (textBytes "1.0")
  pointCount := points.positions.length
  isVertexProperty := false
  attributesInfo := attributesOf points.withNormals points.withColors points.withReflectances

theorem readHeaderLine_formatLine (header : PlyHeader) (endianness : PCCEndianness)
    (asAscii : Bool) : readHeaderLine header (formatLine endianness asAscii) =
      some (.next { header with isAscii := asAscii, version := parseNumber (textBytes "1.0") }) := by
  have hcomment : textBytes "format" ≠ textBytes "comment" := by decide
  have hbig : textBytes "binary_big_endian" ≠ textBytes "ascii" := by decide
  have hlittle : textBytes "binary_little_endian" ≠ textBytes "ascii" := by decide
  have htokens : ∃ format, getTokens (formatLine endianness asAscii) =
      [textBytes "format", format, textBytes "1.0"] ∧
        decide (format = textBytes "ascii") = asAscii := by
    cases asAscii with
    | true => exact ⟨textBytes "ascii", by cases endianness <;> decide, decide_eq_true rfl⟩
    | false =>
      cases endianness with
      | PCC_BIG_ENDIAN => exact ⟨textBytes "binary_big_endian", by decide, decide_eq_false hbig⟩
      | PCC_LITTLE_ENDIAN =>
        exact ⟨textBytes "binary_little_endian", by decide, decide_eq_false hlittle⟩
  obtain ⟨format, htokens, hascii⟩ := htokens
  unfold readHeaderLine
  rw [htokens]
  dsimp only
  rw [if_neg hcomment, if_pos rfl, readFormat, hascii]

/-- The lines after the properties. -/
theorem readHeader_faces (header : PlyHeader) (lines : List (List UInt8)) :
    readHeader ([textBytes "element face 0", textBytes "property list uint8 int32 vertex_index",
      textBytes "end_header"] ++ lines) header =
      some (some ({ header with isVertexProperty := false }, lines)) := by
  have hface : readHeaderLine header (textBytes "element face 0") =
      some (.next { header with isVertexProperty := false }) := by
    have htokens : getTokens (textBytes "element face 0") =
        [textBytes "element", textBytes "face", textBytes "0"] := by decide
    unfold readHeaderLine
    rw [htokens]
    rfl
  have hlist : readHeaderLine { header with isVertexProperty := false }
      (textBytes "property list uint8 int32 vertex_index") =
      some (.next { header with isVertexProperty := false }) := by
    have htokens : getTokens (textBytes "property list uint8 int32 vertex_index") =
        [textBytes "property", textBytes "list", textBytes "uint8", textBytes "int32",
          textBytes "vertex_index"] := by decide
    unfold readHeaderLine
    rw [htokens]
    rfl
  have hend : readHeaderLine { header with isVertexProperty := false } (textBytes "end_header") =
      some .endHeader := by
    have htokens : getTokens (textBytes "end_header") = [textBytes "end_header"] := by decide
    unfold readHeaderLine
    rw [htokens]
    rfl
  have hlength : (textBytes "end_header").length < MAX_BUFFER_SIZE := by decide
  rw [List.cons_append, readHeader_cons (by decide) hface, List.cons_append,
    readHeader_cons (by decide) hlist, List.cons_append, readHeader, if_pos hlength, hend]
  rfl

theorem tail_headerLines (points : PCCPointSet3) (endianness : PCCEndianness) (asAscii : Bool)
    (lines : List (List UInt8)) : (points.headerLines endianness asAscii).tail ++ lines =
      formatLine endianness asAscii :: countLine points.positions.length ::
        (points.propertyLines ++ ([textBytes "element face 0",
          textBytes "property list uint8 int32 vertex_index", textBytes "end_header"] ++ lines)) := by
  rw [← List.append_assoc points.propertyLines]
  rfl

theorem length_formatLine (endianness : PCCEndianness) (asAscii : Bool) :
    (formatLine endianness asAscii).length < MAX_BUFFER_SIZE := by
  cases asAscii <;> cases endianness <;> decide

theorem readHeader_headerLines (points : PCCPointSet3) (endianness : PCCEndianness)
    (asAscii : Bool) (hn : points.positions.length < 2 ^ 31) (lines : List (List UInt8)) :
    readHeader ((points.headerLines endianness asAscii).tail ++ lines) {} =
      some (some (points.header asAscii, lines)) := by
  have hcount : (countLine points.positions.length).length < MAX_BUFFER_SIZE := by
    have hdigits : (decimal points.positions.length).length ≤ 10 :=
      length_decimal_le (by decide) (hn.trans (by decide))
    have hstart : (textBytes "element vertex ").length = 15 := by decide
    unfold countLine MAX_BUFFER_SIZE
    rw [List.length_append]
    omega
  have hstep : readHeaderLine { ({} : PlyHeader) with
      isAscii := asAscii, version := parseNumber (textBytes "1.0") }
        (countLine points.positions.length) = some (.next { ({} : PlyHeader) with
      isAscii := asAscii
      version := parseNumber (textBytes "1.0")
      pointCount := points.positions.length }) := by
    rw [readHeaderLine_countLine, readElement, if_pos rfl, atoi_decimal hn]
    rfl
  rw [tail_headerLines, readHeader_cons (length_formatLine _ _) (readHeaderLine_formatLine _ _ _),
    readHeader_cons hcount hstep, readHeader_properties points.isProperty_propertyLines rfl,
    readHeader_faces, map_propertyInfo]
  rfl

/-- The header with too many points is not read. -/
theorem readHeader_of_le (points : PCCPointSet3) (endianness : PCCEndianness) (asAscii : Bool)
    (hn : 2 ^ 31 ≤ points.positions.length) (lines : List (List UInt8)) :
    readHeader ((points.headerLines endianness asAscii).tail ++ lines) {} = none := by
  rw [tail_headerLines, readHeader_cons (length_formatLine _ _) (readHeaderLine_formatLine _ _ _),
    readHeader, readHeaderLine_countLine, readElement, if_pos rfl, atoi_decimal_of_le hn]
  split_ifs <;> rfl

/-! ### The place of the points -/

def linesBeforeEnd (points : PCCPointSet3) (endianness : PCCEndianness) (asAscii : Bool) :
    List (List UInt8) :=
  [textBytes "ply", formatLine endianness asAscii, countLine points.positions.length] ++
    points.propertyLines ++
  [textBytes "element face 0", textBytes "property list uint8 int32 vertex_index"]

theorem headerLines_eq (points : PCCPointSet3) (endianness : PCCEndianness) (asAscii : Bool) :
    points.headerLines endianness asAscii =
      points.linesBeforeEnd endianness asAscii ++ [textBytes "end_header"] := by
  unfold linesBeforeEnd
  rw [List.append_assoc]
  rfl

theorem forall_linesBeforeEnd {points : PCCPointSet3} {p : List UInt8 → Prop}
    (hconcrete : ∀ line ∈ [textBytes "ply", textBytes "element face 0",
      textBytes "property list uint8 int32 vertex_index"], p line)
    (hformat : ∀ endianness asAscii, p (formatLine endianness asAscii))
    (hcount : p (countLine points.positions.length))
    (hproperties : ∀ line ∈ points.propertyLines, p line) (endianness : PCCEndianness)
    (asAscii : Bool) : ∀ line ∈ points.linesBeforeEnd endianness asAscii, p line := by
  unfold linesBeforeEnd
  rw [List.forall_mem_append, List.forall_mem_append]
  refine ⟨⟨?_, hproperties⟩, fun line hline => hconcrete line (List.mem_cons_of_mem _ hline)⟩
  rw [List.forall_mem_cons, List.forall_mem_cons, List.forall_mem_singleton]
  exact ⟨hconcrete _ List.mem_cons_self, hformat _ _, hcount⟩

/-- The bytes of a line of a header are printable or spaces, and the line is short. -/
structure IsHeaderLine (line : List UInt8) : Prop where
  printable : ∀ c ∈ line, 32 ≤ c.toNat
  length : line.length ≤ 40

theorem isHeaderLine_of_all {line : List UInt8}
    (h : (line.all fun c => 32 ≤ c.toNat) = true ∧ line.length ≤ 40) : IsHeaderLine line :=
  ⟨fun c hc => of_decide_eq_true (List.all_eq_true.mp h.1 c hc), h.2⟩

theorem isHeaderLine_countLine {n : ℕ} (hn : n < 2 ^ 31) : IsHeaderLine (countLine n) where
  printable := by
    intro c hc
    rw [countLine_eq] at hc
    exact le_of_mem_spaced (isWord_countLine n) hc
  length := by
    have hdigits : (decimal n).length ≤ 10 := length_decimal_le (by decide) (hn.trans (by decide))
    have hstart : (textBytes "element vertex ").length = 15 := by decide
    unfold countLine
    rw [List.length_append]
    omega

theorem isHeaderLine_linesBeforeEnd {points : PCCPointSet3}
    (hn : points.positions.length < 2 ^ 31) (endianness : PCCEndianness) (asAscii : Bool) :
    ∀ line ∈ points.linesBeforeEnd endianness asAscii, IsHeaderLine line := by
  apply forall_linesBeforeEnd
  · intro line hline
    apply isHeaderLine_of_all
    revert line
    decide
  · intro endianness asAscii
    apply isHeaderLine_of_all
    cases asAscii <;> cases endianness <;> decide
  · exact isHeaderLine_countLine hn
  · refine points.forall_propertyLines (p := IsHeaderLine) ?_
    intro line hline
    apply isHeaderLine_of_all
    revert line
    decide

/-- A line without an underscore, or without an `h`, does not have the end of the header. -/
theorem not_infix_of_not_mem {line : List UInt8} (h : 95 ∉ line ∨ 104 ∉ line) :
    ¬textBytes "end_header" <:+: line := by
  intro hwithin
  rcases h with hunderscore | hh
  · exact hunderscore (hwithin.subset (by decide))
  · exact hh (hwithin.subset (by decide))

theorem not_infix_linesBeforeEnd (points : PCCPointSet3) (endianness : PCCEndianness)
    (asAscii : Bool) : ∀ line ∈ points.linesBeforeEnd endianness asAscii,
      ¬textBytes "end_header" <:+: line := by
  apply forall_linesBeforeEnd
  · intro line hline
    apply not_infix_of_not_mem
    revert line
    decide
  · intro endianness asAscii
    apply not_infix_of_not_mem
    cases asAscii <;> cases endianness <;> decide
  · apply not_infix_of_not_mem
    refine .inl fun hmem => ?_
    rcases List.mem_append.mp hmem with hmem | hmem
    · exact absurd hmem (by decide)
    · exact absurd (isDigit_of_mem_decimal hmem) (by decide)
  · refine points.forall_propertyLines (p := fun line => ¬textBytes "end_header" <:+: line) ?_
    intro line hline
    apply not_infix_of_not_mem
    revert line
    decide

def headerText (points : PCCPointSet3) (endianness : PCCEndianness) (asAscii : Bool) : List UInt8 :=
  unlines 10 (points.headerLines endianness asAscii)

theorem headerText_eq (points : PCCPointSet3) (endianness : PCCEndianness) (asAscii : Bool) :
    points.headerText endianness asAscii =
      unlines 10 (points.linesBeforeEnd endianness asAscii) ++ (textBytes "end_header" ++ [10]) := by
  unfold headerText unlines
  rw [headerLines_eq, List.flatMap_append, List.flatMap_singleton]

theorem length_propertyLines_le (points : PCCPointSet3) : points.propertyLines.length ≤ 10 := by
  unfold propertyLines
  generalize points.withNormals = withNormals
  generalize points.withColors = withColors
  generalize points.withReflectances = withReflectances
  revert withNormals withColors withReflectances
  decide

theorem length_headerText_le {points : PCCPointSet3} (hn : points.positions.length < 2 ^ 31)
    (endianness : PCCEndianness) (asAscii : Bool) :
    (points.headerText endianness asAscii).length ≤ MAX_BUFFER_SIZE := by
  have hlines := isHeaderLine_linesBeforeEnd hn endianness asAscii
  have hcount : (points.linesBeforeEnd endianness asAscii).length ≤ 15 := by
    have hproperties := points.length_propertyLines_le
    unfold linesBeforeEnd
    rw [List.length_append, List.length_append]
    simp only [List.length_cons, List.length_nil]
    omega
  have hlength := length_unlines_le 10 fun line hline => (hlines line hline).length
  have hend : (textBytes "end_header" ++ [(10 : UInt8)]).length = 11 := by decide
  rw [headerText_eq, List.length_append, hend]
  unfold MAX_BUFFER_SIZE
  have hproduct : 41 * (points.linesBeforeEnd endianness asAscii).length ≤ 41 * 15 :=
    Nat.mul_le_mul_left 41 hcount
  omega

theorem ne_zero_of_mem_headerText {points : PCCPointSet3}
    (hn : points.positions.length < 2 ^ 31) {endianness : PCCEndianness} {asAscii : Bool}
    {c : UInt8} (hc : c ∈ points.headerText endianness asAscii) : c ≠ 0 := by
  rintro rfl
  rw [headerText_eq] at hc
  rcases List.mem_append.mp hc with hc | hc
  · obtain ⟨line, hline, hc⟩ := List.mem_flatMap.mp hc
    rcases List.mem_append.mp hc with hc | hc
    · have hprintable := (isHeaderLine_linesBeforeEnd hn _ _ line hline).printable 0 hc
      exact absurd hprintable (by decide)
    · exact absurd hc (by decide)
  · exact absurd hc (by decide)

/-- The points of a binary file come right after the header. -/
theorem headerCount_eq {points : PCCPointSet3} (hn : points.positions.length < 2 ^ 31)
    (endianness : PCCEndianness) (asAscii : Bool) (body : List UInt8) :
    headerCount (points.headerText endianness asAscii ++ body) =
      some (points.headerText endianness asAscii).length := by
  have hlength := length_headerText_le hn endianness asAscii
  have htake : ((points.headerText endianness asAscii ++ body).take MAX_BUFFER_SIZE).takeWhile
      (fun c => decide (c ≠ 0)) = points.headerText endianness asAscii ++
        (body.take (MAX_BUFFER_SIZE - (points.headerText endianness asAscii).length)).takeWhile
          (fun c => decide (c ≠ 0)) := by
    rw [List.take_append, List.take_of_length_le hlength, List.takeWhile_append_of_pos]
    intro c hc
    exact decide_eq_true (ne_zero_of_mem_headerText hn hc)
  have hnewline : (10 : UInt8) ∉ textBytes "end_header" := by decide
  unfold headerCount
  rw [htake]
  generalize (body.take _).takeWhile _ = rest
  have htext : points.headerText endianness asAscii ++ rest =
      unlines 10 (points.linesBeforeEnd endianness asAscii) ++
        (textBytes "end_header" ++ 10 :: rest) := by
    rw [headerText_eq, List.append_assoc, List.append_assoc, List.singleton_append]
  have hsearch : search (textBytes "end_header") (points.headerText endianness asAscii ++ rest) =
      some (textBytes "end_header" ++ 10 :: rest) := by
    rw [htext, search_unlines hnewline (points.not_infix_linesBeforeEnd endianness asAscii)]
    exact search_of_prefix (List.prefix_append _ _)
  dsimp only
  rw [hsearch, Option.bind_eq_bind, Option.bind_some, search_newline hnewline,
    Option.bind_some, List.length_append, List.length_cons]
  congr 1
  have hpos : 0 < (points.headerText endianness asAscii).length := by
    rw [headerText_eq, List.length_append, List.length_append]
    exact Nat.lt_add_left _ (by decide)
  omega

end PCCPointSet3

end V3C

import V3C.PointSet.PlyProperties
import V3C.PointSet.PlyWords

/-! Which point sets come back from a file. -/
namespace V3C
open Text

/-! ### The file -/

namespace PCCPointSet3

theorem newline_not_mem_of_printable {line : List UInt8} (h : ∀ c ∈ line, 32 ≤ c.toNat) :
    (10 : UInt8) ∉ line := fun hmem => absurd (h 10 hmem) (by decide)

theorem newline_not_mem_headerLines (points : PCCPointSet3) (endianness : PCCEndianness)
    (asAscii : Bool) : ∀ line ∈ points.headerLines endianness asAscii, (10 : UInt8) ∉ line := by
  rw [headerLines_eq, List.forall_mem_append]
  constructor
  · apply forall_linesBeforeEnd
    · decide
    · intro endianness asAscii
      cases asAscii <;> cases endianness <;> decide
    · intro hmem
      rcases List.mem_append.mp hmem with hmem | hmem
      · exact absurd hmem (by decide)
      · exact absurd (isDigit_of_mem_decimal hmem) (by decide)
    · exact points.forall_propertyLines (p := fun line => (10 : UInt8) ∉ line) (by decide)
  · decide

/-- The first line of a file that is written is accepted. -/
theorem read_headerText_append (points : PCCPointSet3) (endianness : PCCEndianness)
    (asAscii : Bool) (body : List UInt8) :
    read endianness (points.headerText endianness asAscii ++ body) true =
      match readHeader ((points.headerLines endianness asAscii).tail ++ lines 10 body) {} with
      | none => none
      | some none => some (false, empty)
      | some (some (header, lines)) => readPoints endianness true
          (points.headerText endianness asAscii ++ body) header lines := by
  have hlines : lines 10 (points.headerText endianness asAscii ++ body) =
      textBytes "ply" :: ((points.headerLines endianness asAscii).tail ++ lines 10 body) :=
    lines_unlines (points.newline_not_mem_headerLines endianness asAscii)
  have hply : (getTokens ((textBytes "ply").take (MAX_BUFFER_SIZE - 1))).head? =
      some (textBytes "ply") := by decide
  have hlength : (textBytes "ply").length < MAX_BUFFER_SIZE := by decide
  unfold read
  rw [hlines]
  dsimp only
  rw [if_neg (not_not.mpr hply)]
  exact if_pos hlength

theorem read_headerText (points : PCCPointSet3) (endianness : PCCEndianness) (asAscii : Bool)
    (hn : points.positions.length < 2 ^ 31) (body : List UInt8) :
    read endianness (points.headerText endianness asAscii ++ body) true =
      readPoints endianness true (points.headerText endianness asAscii ++ body)
        (points.header asAscii) (lines 10 body) := by
  rw [read_headerText_append, points.readHeader_headerLines endianness asAscii hn]

/-- A file with too many points is not read. -/
theorem read_headerText_of_le (points : PCCPointSet3) (endianness : PCCEndianness)
    (asAscii : Bool) (hn : 2 ^ 31 ≤ points.positions.length) (body : List UInt8) :
    read endianness (points.headerText endianness asAscii ++ body) true = none := by
  rw [read_headerText_append, points.readHeader_of_le endianness asAscii hn]

theorem indicesOf_flags (withNormals withColors withReflectances : Bool) :
    (indicesOf withNormals withColors withReflectances).hasCoordinates = true ∧
    (indicesOf withNormals withColors withReflectances).withNormals = withNormals ∧
    (indicesOf withNormals withColors withReflectances).withColors = withColors ∧
    (indicesOf withNormals withColors withReflectances).withReflectances = withReflectances := by
  revert withNormals withColors withReflectances
  decide

end PCCPointSet3

namespace PlyPointSet

variable (set : PlyPointSet) (endianness : PCCEndianness)

theorem resizeTo_nil {α : Type} [Inhabited α] (n : ℕ) :
    resizeTo ([] : List α) n = List.replicate n default := by
  unfold resizeTo
  rw [List.take_nil, List.length_nil, Nat.sub_zero, List.nil_append]

theorem resizeIf_nil {α : Type} [Inhabited α] {present : Bool} {n : ℕ} {xs : List α}
    (h : xs.length = if present then n else 0) :
    (if present then resizeTo ([] : List α) n else []) = fill 0 xs := by
  rw [fill_zero, h, resizeTo_nil]
  cases present with
  | false => rfl
  | true => rfl

/-- The point set before the points are read. -/
theorem resize_eq_filled :
    ({ PCCPointSet3.empty with
      withColors := set.withColors
      withReflectances := set.withReflectances
      withNormals := set.withNormals } : PCCPointSet3).resize set.positions.length =
      set.filled 0 := by
  unfold PCCPointSet3.resize PCCPointSet3.filled PCCPointSet3.empty
  dsimp only
  rw [resizeIf_nil set.lengthColors, resizeIf_nil set.lengthReflectances,
    resizeIf_nil set.lengthNormals, resizeTo_nil, fill_zero set.positions]

/-- All points are read. -/
theorem filled_length : set.filled set.positions.length = set.toPCCPointSet3 := by
  have hle : ∀ {present : Bool} {n : ℕ}, (if present then n else 0) ≤ n := by
    intro present n
    split_ifs
    · exact le_refl n
    · exact Nat.zero_le n
  unfold PCCPointSet3.filled
  rw [fill_of_length_le (le_refl _), fill_of_length_le (set.lengthColors.trans_le hle),
    fill_of_length_le (set.lengthReflectances.trans_le hle),
    fill_of_length_le (set.lengthNormals.trans_le hle)]

theorem readPoints_header (asAscii : Bool) (file : List UInt8) (ls : List (List UInt8)) :
    PCCPointSet3.readPoints endianness true file (set.header asAscii) ls =
      if asAscii then
        PCCPointSet3.readAscii (indicesOf set.withNormals set.withColors set.withReflectances)
          (attributesOf set.withNormals set.withColors set.withReflectances).length
          set.positions.length ls 0 (set.filled 0)
      else (PCCPointSet3.headerCount file).bind fun count =>
        ((set.filled 0).readBinary endianness
          (indicesOf set.withNormals set.withColors set.withReflectances)
          (attributesOf set.withNormals set.withColors set.withReflectances)
          set.positions.length (file.drop count)).bind fun points => some (true, points) := by
  obtain ⟨hcoordinates, hnormals, hcolors, hreflectances⟩ :=
    PCCPointSet3.indicesOf_flags set.withNormals set.withColors set.withReflectances
  have hversion : (parseNumber (textBytes "1.0")).toInt? = some 1 := by decide
  unfold PCCPointSet3.readPoints PCCPointSet3.header
  dsimp only
  rw [locateAll_attributesOf, if_neg (not_not.mpr hversion), hcoordinates, hnormals, hcolors,
    hreflectances, Int.toNat_natCast, resize_eq_filled, if_neg (by decide), if_neg (by omega)]
  rfl

/-! ### Binary files -/

/-- The records are read one after the other. -/
theorem exists_records (hwith : set.withReflectances = false ∨ set.positions = []) (k m : ℕ)
    (h : k + m ≤ set.positions.length) :
    ∃ records, (List.range' k m).mapM (set.binaryRecord endianness) = some records ∧
      ∀ rest, (List.range' k m).foldlM (fun (state : PCCPointSet3 × List UInt8) i => (do
        let (record, stream) ← readRecord endianness
          (indicesOf set.withNormals set.withColors set.withReflectances)
          (attributesOf set.withNormals set.withColors set.withReflectances) state.2
        let points ← state.1.storeRecord i record
        some (points, stream))) (set.filled k, records.flatten ++ rest) =
        some (set.filled (k + m), rest) := by
  induction m generalizing k with
  | zero => exact ⟨[], rfl, fun rest => rfl⟩
  | succ m ih =>
    have hk : k < set.positions.length := by omega
    have hwithout : set.withReflectances = false :=
      hwith.resolve_right (List.ne_nil_of_length_pos (Nat.zero_lt_of_lt hk))
    obtain ⟨bytes, record, hwrite, hread, hstore⟩ := set.exists_record endianness hwithout hk
    obtain ⟨records, hrecords, hrest⟩ := ih (k + 1) (by omega)
    refine ⟨bytes :: records, ?_, ?_⟩
    · rw [List.range'_succ, List.mapM_cons, hwrite, Option.bind_eq_bind, Option.bind_some, hrecords]
      rfl
    · intro rest
      rw [List.range'_succ, List.foldlM_cons, List.flatten_cons, List.append_assoc]
      simp only [hwithout, hread, hstore, Option.bind_eq_bind, Option.bind_some]
      rw [← Nat.add_assoc, Nat.add_right_comm k m 1]
      rw [hwithout] at hrest
      exact hrest rest

/-- A binary file without reflectances gives the point set back. -/
theorem read_binary (hwith : set.withReflectances = false ∨ set.positions = [])
    (hn : set.positions.length < 2 ^ 31) :
    ∃ file, set.write endianness false = some file ∧
      PCCPointSet3.read endianness file true = some (true, set.toPCCPointSet3) := by
  obtain ⟨records, hrecords, hread⟩ :=
    set.exists_records endianness hwith 0 set.positions.length (by omega)
  refine ⟨set.headerText endianness false ++ records.flatten, ?_, ?_⟩
  · unfold PCCPointSet3.write
    simp only [Bool.false_eq_true, if_false]
    rw [List.range_eq_range', hrecords]
    rfl
  · have hloop := hread []
    rw [List.append_nil, Nat.zero_add, set.filled_length] at hloop
    rw [PCCPointSet3.read_headerText _ _ _ hn, set.readPoints_header]
    simp only [Bool.false_eq_true, if_false]
    rw [PCCPointSet3.headerCount_eq hn, Option.bind_some, List.drop_left]
    unfold PCCPointSet3.readBinary
    rw [List.range_eq_range', hloop]
    rfl

/-- The reflectance of the first point is not read. -/
theorem exists_firstRecord (hwith : set.withReflectances = true) (hpos : 0 < set.positions.length)
    {bytes : List UInt8} (hwrite : set.binaryRecord endianness 0 = some bytes) :
    ∀ rest, readRecord endianness
      (indicesOf set.withNormals set.withColors set.withReflectances)
      (attributesOf set.withNormals set.withColors set.withReflectances) (bytes ++ rest) =
        none := by
  obtain ⟨hx, hy, hz⟩ := set.coordinates _ (List.getElem_mem hpos)
  obtain ⟨normalBytes, nx, ny, nz, normal, hnormalWrite, hnormalRead, -, -⟩ :=
    set.exists_normal endianness hpos set.withReflectances
  obtain ⟨colorBytes, color, hcolorWrite, hcolorRead, -⟩ :=
    set.exists_color endianness hpos set.withReflectances
  have hbytes : ∃ reflectanceBytes, floatBytes endianness set.positions[0].x ++
      floatBytes endianness set.positions[0].y ++ floatBytes endianness set.positions[0].z ++
      normalBytes ++ colorBytes ++ reflectanceBytes = bytes := by
    unfold PCCPointSet3.binaryRecord at hwrite
    obtain ⟨position, hposition, hwrite⟩ := Option.bind_eq_some_iff.mp hwrite
    rw [List.getElem?_eq_getElem hpos] at hposition
    obtain rfl : set.positions[0] = position := Option.some.inj hposition
    obtain ⟨normal', hnormal', hwrite⟩ := Option.bind_eq_some_iff.mp hwrite
    obtain rfl : normalBytes = normal' := Option.some.inj (hnormalWrite.symm.trans hnormal')
    obtain ⟨color', hcolor', hwrite⟩ := Option.bind_eq_some_iff.mp hwrite
    obtain rfl : colorBytes = color' := Option.some.inj (hcolorWrite.symm.trans hcolor')
    obtain ⟨reflectanceBytes, -, hwrite⟩ := Option.bind_eq_some_iff.mp hwrite
    exact ⟨reflectanceBytes, Option.some.inj hwrite⟩
  obtain ⟨reflectanceBytes, rfl⟩ := hbytes
  intro rest
  have hcoordinates := @readAttributes_coordinates endianness set.withNormals set.withColors
    set.withReflectances {} (normalBytes ++ (colorBytes ++ (reflectanceBytes ++ rest)))
    set.positions[0] (isSingle_of_int16 hx) (isSingle_of_int16 hy) (isSingle_of_int16 hz)
  show readAttributes endianness _
    (attributesOf set.withNormals set.withColors set.withReflectances).zipIdx {} _ = _
  rw [zipIdx_attributesOf, List.append_assoc, List.append_assoc, List.append_assoc,
    List.append_assoc, List.append_assoc, readAttributes_append hcoordinates,
    readAttributes_append (hnormalRead _ _ _ _), readAttributes_append (hcolorRead _ _ _ _ _ _ _),
    hwith]
  unfold readAttributes reflectanceAttributes
  rw [if_pos rfl, List.foldlM_cons, readAttribute_reflectance rfl]
  rfl

/-- What is written starts with the header. -/
theorem exists_body {asAscii : Bool} {file : List UInt8}
    (hwrite : set.write endianness asAscii = some file) :
    ∃ body, file = set.headerText endianness asAscii ++ body := by
  obtain ⟨body, -, hfile⟩ := Option.bind_eq_some_iff.mp hwrite
  exact ⟨body.flatten, (Option.some.inj hfile).symm⟩

theorem read_reflectances (hwith : set.withReflectances = true) (hpos : 0 < set.positions.length)
    (hn : set.positions.length < 2 ^ 31) {file : List UInt8}
    (hwrite : set.write endianness false = some file) :
    PCCPointSet3.read endianness file true = none := by
  obtain ⟨records, hrecords, hfile⟩ := Option.bind_eq_some_iff.mp hwrite
  obtain ⟨n, hlength⟩ := Nat.exists_eq_succ_of_ne_zero hpos.ne'
  obtain rfl : set.headerText endianness false ++ records.flatten = file := Option.some.inj hfile
  simp only [Bool.false_eq_true, if_false] at hrecords
  rw [List.range_eq_range', hlength, List.range'_succ, List.mapM_cons] at hrecords
  obtain ⟨bytes, hbytes, hrecords⟩ := Option.bind_eq_some_iff.mp hrecords
  obtain ⟨others, -, hrecords⟩ := Option.bind_eq_some_iff.mp hrecords
  obtain rfl : bytes :: others = records := Option.some.inj hrecords
  have hread := set.exists_firstRecord endianness hwith hpos hbytes others.flatten
  rw [PCCPointSet3.read_headerText _ _ _ hn, set.readPoints_header]
  simp only [Bool.false_eq_true, if_false]
  rw [PCCPointSet3.headerCount_eq hn, Option.bind_some, List.drop_left]
  unfold PCCPointSet3.readBinary
  rw [List.range_eq_range', hlength, List.range'_succ, List.foldlM_cons, List.flatten_cons]
  dsimp only
  rw [hread]
  rfl

/-! ### ASCII files -/

/-- The lines are read one after the other. -/
theorem exists_lines (k m : ℕ) (h : k + m ≤ set.positions.length) :
    ∃ ls : List (List UInt8), (List.range' k m).mapM (fun i =>
        (set.asciiWords i).map fun words => PCCPointSet3.spaced words ++ [10]) =
          some (ls.map (· ++ [10])) ∧
      (∀ line ∈ ls, (10 : UInt8) ∉ line) ∧
      ∀ rest, PCCPointSet3.readAscii
        (indicesOf set.withNormals set.withColors set.withReflectances)
        (attributesOf set.withNormals set.withColors set.withReflectances).length
        set.positions.length (ls ++ rest) k (set.withoutNormals.filled k) =
          PCCPointSet3.readAscii (indicesOf set.withNormals set.withColors set.withReflectances)
            (attributesOf set.withNormals set.withColors set.withReflectances).length
            set.positions.length rest (k + m) (set.withoutNormals.filled (k + m)) := by
  induction m generalizing k with
  | zero =>
    exact ⟨[], rfl, fun line hline => absurd hline List.not_mem_nil, fun rest => rfl⟩
  | succ m ih =>
    obtain ⟨words, hwords, hshort, hne, hcount, hstore⟩ :=
      set.exists_asciiWords (by omega : k < set.positions.length)
    obtain ⟨ls, hls, hnewline, hrest⟩ := ih (k + 1) (by omega)
    have hword : ∀ word ∈ words, IsWord word := fun word hword => (hshort word hword).1
    have hten : words.length ≤ 10 := by
      rw [hcount]
      generalize set.withNormals = withNormals
      generalize set.withColors = withColors
      generalize set.withReflectances = withReflectances
      revert withNormals withColors withReflectances
      decide
    refine ⟨PCCPointSet3.spaced words :: ls, ?_, ?_, ?_⟩
    · rw [List.range'_succ, List.mapM_cons, hwords, hls]
      rfl
    · rw [List.forall_mem_cons]
      exact ⟨PCCPointSet3.newline_not_mem_of_printable fun c => le_of_mem_spaced hword, hnewline⟩
    · intro rest
      rw [List.cons_append, PCCPointSet3.readAscii, if_pos (by omega),
        if_pos (length_spaced_lt hshort hten)]
      dsimp only
      rw [getTokens_spaced hword, if_neg hne, if_neg (by rw [hcount]; exact Nat.lt_irrefl _),
        hstore]
      dsimp only
      rw [hrest rest, ← Nat.add_assoc, Nat.add_right_comm k m 1]

/-- An ASCII file gives the point set back without its normals. -/
theorem read_ascii (hn : set.positions.length < 2 ^ 31) :
    ∃ file, set.write endianness true = some file ∧
      PCCPointSet3.read endianness file true =
        some (true, set.toPCCPointSet3.withoutNormals) := by
  obtain ⟨ls, hls, hnewline, hread⟩ := set.exists_lines 0 set.positions.length (by omega)
  have hflatten : (ls.map (· ++ [(10 : UInt8)])).flatten = unlines 10 ls :=
    List.flatMap_def.symm
  have hlines : lines 10 (unlines 10 ls) = ls ++ [[]] := by
    have h := @lines_unlines _ _ _ [] _ hnewline
    rwa [List.append_nil] at h
  have hzero : set.filled 0 = set.withoutNormals.filled 0 := by
    unfold PCCPointSet3.filled withoutNormals PCCPointSet3.withoutNormals
    dsimp only
    rw [fill_zero set.normals, fill_map_default, List.map_const']
  refine ⟨set.headerText endianness true ++ unlines 10 ls, ?_, ?_⟩
  · unfold PCCPointSet3.write
    simp only [if_true]
    rw [List.range_eq_range', hls, Option.bind_eq_bind, Option.bind_some, hflatten]
    rfl
  · have hlength := set.withoutNormals.filled_length
    rw [PCCPointSet3.read_headerText _ _ _ hn, set.readPoints_header, if_pos rfl, hlines, hzero,
      hread, Nat.zero_add, PCCPointSet3.readAscii, if_neg (Nat.lt_irrefl _)]
    exact congrArg (fun points => some (true, points)) hlength

/-! ### The round trip -/

/-- What is written is read back: as many points, and their attributes in order. -/
def RoundTrips (asAscii : Bool) : Prop :=
  ∃ file, set.write endianness asAscii = some file ∧
    PCCPointSet3.read endianness file true = some (true, set.toPCCPointSet3)

theorem withoutNormals_eq_iff :
    set.toPCCPointSet3.withoutNormals = set.toPCCPointSet3 ↔
      ∀ normal ∈ set.normals, normal = (0, 0, 0) := by
  have hmap : set.toPCCPointSet3.withoutNormals = set.toPCCPointSet3 ↔
      set.normals.map (fun _ => (default : ℤ × ℤ × ℤ)) = set.normals := by
    constructor
    · exact fun h => congrArg PCCPointSet3.normals h
    · intro h
      unfold PCCPointSet3.withoutNormals
      rw [h]
  rw [hmap]
  constructor
  · intro h normal hnormal
    rw [← h] at hnormal
    obtain ⟨_, -, rfl⟩ := List.mem_map.mp hnormal
    rfl
  · intro h
    exact (List.map_congr_left fun normal hnormal => (h normal hnormal).symm).trans (List.map_id _)

theorem roundTrips_ascii (hn : set.positions.length < 2 ^ 31) :
    set.RoundTrips endianness true ↔ ∀ normal ∈ set.normals, normal = (0, 0, 0) := by
  obtain ⟨file, hwrite, hread⟩ := set.read_ascii endianness hn
  rw [← set.withoutNormals_eq_iff]
  constructor
  · rintro ⟨file', hwrite', hread'⟩
    obtain rfl : file = file' := Option.some.inj (hwrite.symm.trans hwrite')
    exact congrArg Prod.snd (Option.some.inj (hread.symm.trans hread'))
  · intro h
    exact ⟨file, hwrite, by rw [hread, h]⟩

theorem roundTrips_binary (hn : set.positions.length < 2 ^ 31) :
    set.RoundTrips endianness false ↔ set.withReflectances = false ∨ set.positions = [] := by
  constructor
  · rintro ⟨file, hwrite, hread⟩
    by_contra hnot
    rw [not_or, Bool.not_eq_false] at hnot
    have hnone := set.read_reflectances endianness hnot.1 (List.length_pos_iff.mpr hnot.2) hn hwrite
    rw [hnone] at hread
    cases hread
  · exact fun h => set.read_binary endianness h hn

/-- A set with too many points does not come back. -/
theorem not_roundTrips_of_le {asAscii : Bool} (hn : 2 ^ 31 ≤ set.positions.length) :
    ¬set.RoundTrips endianness asAscii := by
  rintro ⟨file, hwrite, hread⟩
  obtain ⟨body, rfl⟩ := set.exists_body endianness hwrite
  rw [PCCPointSet3.read_headerText_of_le _ _ _ hn] at hread
  cases hread

/-- What can be told from a file: an ASCII file has the normals, but they are not read, and a binary
file has the reflectances, but their address is made of their value. -/
theorem roundTrips_iff (asAscii : Bool) :
    set.RoundTrips endianness asAscii ↔ set.positions.length < 2 ^ 31 ∧
      if asAscii then ∀ normal ∈ set.normals, normal = (0, 0, 0)
      else set.withReflectances = false ∨ set.positions = [] := by
  by_cases hn : set.positions.length < 2 ^ 31
  · cases asAscii with
    | true => rw [set.roundTrips_ascii endianness hn, if_pos rfl, and_iff_right hn]
    | false =>
      rw [set.roundTrips_binary endianness hn, if_neg Bool.false_ne_true, and_iff_right hn]
  · have hnot : ¬set.RoundTrips endianness asAscii :=
      set.not_roundTrips_of_le endianness (not_lt.mp hn)
    exact ⟨fun h => absurd h hnot, fun h => absurd h.1 hn⟩

end PlyPointSet

/-- A point with a normal and a reflectance. -/
def reflectingNormal : PlyPointSet where
  positions := [⟨1, 2, 3⟩]
  colors := []
  reflectances := [7]
  normals := [(0, 0, 1)]
  withNormals := true
  withColors := false
  withReflectances := true
  coordinates := by decide
  lengthColors := rfl
  lengthReflectances := rfl
  lengthNormals := rfl
  single := by
    intro normal hnormal
    rw [List.mem_singleton.mp hnormal]
    exact ⟨FloatWord.isSingle_of_natAbs_lt (by decide), FloatWord.isSingle_of_natAbs_lt (by decide),
      FloatWord.isSingle_of_natAbs_lt (by decide)⟩

theorem not_roundTrips_reflectingNormal (endianness : PCCEndianness) (asAscii : Bool) :
    ¬reflectingNormal.RoundTrips endianness asAscii := by
  have hone : reflectingNormal.positions.length < 2 ^ 31 := by decide
  cases asAscii with
  | true =>
    rw [reflectingNormal.roundTrips_ascii endianness hone]
    decide
  | false =>
    rw [reflectingNormal.roundTrips_binary endianness hone]
    decide

/-- Which point sets come back from a file, and which properties of a binary file are read as they
are declared. -/
theorem plyFiles_iff (set : PlyPointSet) (endianness : PCCEndianness) (asAscii : Bool)
    (attributesInfo : List AttributeInfo) :
    (set.RoundTrips endianness asAscii ↔ set.positions.length < 2 ^ 31 ∧
      if asAscii then ∀ normal ∈ set.normals, normal = (0, 0, 0)
      else set.withReflectances = false ∨ set.positions = []) ∧
    (ConsumesRecords endianness attributesInfo ↔ ArePlaced attributesInfo) :=
  ⟨set.roundTrips_iff endianness asAscii, consumesRecords_iff endianness attributesInfo⟩

theorem not_plyFiles : ¬((∀ (set : PlyPointSet) (endianness : PCCEndianness) (asAscii : Bool),
    set.RoundTrips endianness asAscii) ∧
    ∀ (endianness : PCCEndianness) (attributesInfo : List AttributeInfo),
      ConsumesRecords endianness attributesInfo) :=
  fun h => not_roundTrips_reflectingNormal .PCC_LITTLE_ENDIAN true (h.1 _ _ _)

end V3C

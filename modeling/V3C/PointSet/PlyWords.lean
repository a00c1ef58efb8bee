import V3C.PointSet.PlyRecords

/-! The words of an ASCII file: a point that is written is read without its normal. -/
namespace V3C
open Text

/-! ### Normals are words -/

/-- A word that a line has room for. -/
def IsShortWord (word : List UInt8) : Prop := IsWord word ∧ word.length ≤ 100

section Words

theorem mem_mantissaText {mantissa : ℕ} {c : UInt8} (hc : c ∈ mantissaText mantissa) :
    46 ≤ c.toNat := by
  have hdigits : ∀ c ∈ (((Nat.digits 10 mantissa).dropWhile (· = 0)).reverse).map digit,
      46 ≤ c.toNat := by
    intro c hc
    obtain ⟨d, hd, rfl⟩ := List.mem_map.mp hc
    have hmem := (List.dropWhile_suffix _).subset (List.mem_reverse.mp hd)
    rw [toNat_digit (Nat.digits_lt_base (by decide) hmem)]
    omega
  unfold mantissaText at hc
  generalize (((Nat.digits 10 mantissa).dropWhile (· = 0)).reverse).map digit = ds at hc hdigits
  match ds with
  | [] => exact absurd hc List.not_mem_nil
  | [first] => exact hdigits c hc
  | first :: second :: rest =>
    rcases List.mem_cons.mp hc with rfl | hc
    · exact hdigits _ List.mem_cons_self
    · rcases List.mem_cons.mp hc with rfl | hc
      · decide
      · exact hdigits c (List.mem_cons_of_mem _ hc)

theorem length_mantissaText_le {mantissa k : ℕ} (h : mantissa < 10 ^ k) :
    (mantissaText mantissa).length ≤ k + 1 := by
  have hdigits : ((((Nat.digits 10 mantissa).dropWhile (· = 0)).reverse).map digit).length ≤ k := by
    rw [List.length_map, List.length_reverse]
    exact (List.dropWhile_suffix _).length_le.trans
      ((Nat.digits_length_le_iff (by decide) mantissa).mpr h)
  unfold mantissaText
  generalize (((Nat.digits 10 mantissa).dropWhile (· = 0)).reverse).map digit = ds at hdigits
  match ds with
  | [] => exact Nat.zero_le _
  | [first] => exact Nat.le_succ_of_le hdigits
  | first :: second :: rest => exact Nat.succ_le_succ hdigits

theorem roundQuotient_le (n d : ℕ) : roundQuotient n d ≤ n + 1 := by
  have hdiv := Nat.div_le_self n d
  unfold roundQuotient
  split_ifs <;> omega

theorem isShortWord_decimalInt {n : ℤ} (hn : n.natAbs < 10 ^ 40) : IsShortWord (decimalInt n) := by
  have hlength := length_decimalInt_le (by decide : 0 < 40) hn
  exact ⟨isWord_decimalInt n, by omega⟩

theorem isShortWord_decimal {n : ℕ} (hn : n < 10 ^ 40) : IsShortWord (decimal n) := by
  have hlength := length_decimal_le (by decide : 0 < 40) hn
  exact ⟨isWord_decimal n, by omega⟩

/-- An integer in single precision has at most 39 digits. -/
theorem isShortWord_floatText {n : ℤ} (h : FloatWord.IsSingle n) : IsShortWord (floatText n) := by
  have hn : n.natAbs < 10 ^ 39 := h.1.trans (by decide)
  have hlarge : n.natAbs < 10 ^ 40 := hn.trans (by decide)
  unfold floatText
  by_cases hsmall : n.natAbs < 10 ^ 17
  · rw [if_pos hsmall]
    exact isShortWord_decimalInt hlarge
  · rw [if_neg hsmall]
    generalize hexponent : (Nat.digits 10 n.natAbs).length - 1 = exponent
    have hdigits := (Nat.digits_length_le_iff (by decide) n.natAbs).mpr hn
    have hmantissa : roundQuotient n.natAbs (10 ^ (exponent - 16)) < 10 ^ 40 := by
      have hle := roundQuotient_le n.natAbs (10 ^ (exponent - 16))
      omega
    dsimp only
    generalize roundQuotient n.natAbs (10 ^ (exponent - 16)) = mantissa at hmantissa
    have hpower : (if mantissa = 10 ^ 17 then exponent + 1 else exponent) < 10 ^ 40 := by
      split_ifs <;> omega
    have hlast := isShortWord_decimal hpower
    have hlength := length_mantissaText_le hmantissa
    have hsign : (if n < 0 then [(45 : UInt8)] else []).length ≤ 1 := by
      split_ifs
      · exact le_refl 1
      · exact Nat.zero_le 1
    refine ⟨⟨?_, ?_⟩, ?_⟩
    · exact List.append_ne_nil_of_right_ne_nil _ hlast.1.1
    · intro c hc
      rcases List.mem_append.mp hc with hc | hc
      · rcases List.mem_append.mp hc with hc | hc
        · rcases List.mem_append.mp hc with hc | hc
          · split_ifs at hc
            · rw [List.mem_singleton.mp hc]
              decide
            · exact absurd hc List.not_mem_nil
          · exact lt_of_lt_of_le (by decide) (mem_mantissaText hc)
        · rcases List.mem_cons.mp hc with rfl | hc
          · decide
          · rw [List.mem_singleton.mp hc]
            decide
      · exact hlast.1.2 c hc
    · have hdecimal := length_decimal_le (by decide : 0 < 40) hpower
      simp only [List.length_append, List.length_cons, List.length_nil]
      omega

/-- A line of ten words fits into the buffer. -/
theorem length_spaced_lt {words : List (List UInt8)} (hwords : ∀ word ∈ words, IsShortWord word)
    (hcount : words.length ≤ 10) : (PCCPointSet3.spaced words).length < MAX_BUFFER_SIZE := by
  have hrest : ∀ words : List (List UInt8), (∀ word ∈ words, IsShortWord word) →
      (words.flatMap (32 :: ·)).length ≤ 101 * words.length := by
    intro words hwords
    induction words with
    | nil => exact Nat.zero_le _
    | cons word words ih =>
      have hword := (hwords word List.mem_cons_self).2
      have hlength := ih fun other hother => hwords other (List.mem_cons_of_mem _ hother)
      rw [List.flatMap_cons, List.length_append, List.length_cons, List.length_cons]
      omega
  unfold MAX_BUFFER_SIZE
  cases words with
  | nil => exact Nat.zero_lt_succ _
  | cons word words =>
    have hword := (hwords word List.mem_cons_self).2
    have hlength := hrest words fun other hother => hwords other (List.mem_cons_of_mem _ hother)
    unfold PCCPointSet3.spaced
    rw [List.length_append]
    rw [List.length_cons] at hcount
    omega

end Words

/-! ### The tokens of a point -/

section Places

variable {indices : Indices} {front rest : List (List UInt8)}

theorem tokenAt_append {word : List UInt8} {k : ℕ} (hk : front.length = k) :
    PCCPointSet3.tokenAt (front ++ word :: rest) (some k) = some word := by
  unfold PCCPointSet3.tokenAt
  rw [Option.bind_some, List.getElem?_append_right hk.le, hk, Nat.sub_self]
  rfl

theorem readColorToken_append {value : UInt8} {k : ℕ} (hk : front.length = k) :
    PCCPointSet3.readColorToken (front ++ decimal value.toNat :: rest) (some k) = some value := by
  have hvalue := value.toNat_lt
  unfold PCCPointSet3.readColorToken
  rw [tokenAt_append hk, Option.bind_eq_bind, Option.bind_some,
    PCCPointSet3.atoi_decimal (hvalue.trans (by decide)), Option.bind_eq_bind, Option.bind_some]
  congr 1
  rw [Int.emod_eq_of_lt (by omega) (by omega), Int.toNat_natCast, UInt8.ofNat_toNat]

theorem readColorTokens_append {color : PCCColor3B} {k : ℕ} (hk : front.length = k)
    (hr : indices.r = some k) (hg : indices.g = some (k + 1)) (hb : indices.b = some (k + 2)) :
    PCCPointSet3.readColorTokens indices (front ++ ([decimal color.r.toNat, decimal color.g.toNat,
      decimal color.b.toNat] ++ rest)) = some color := by
  have hgreen : (front ++ [decimal color.r.toNat]).length = k + 1 := by
    rw [List.length_append, hk]
    rfl
  have hblue : (front ++ [decimal color.r.toNat, decimal color.g.toNat]).length = k + 2 := by
    rw [List.length_append, hk]
    rfl
  have hreadGreen :=
    @readColorToken_append _ (decimal color.b.toNat :: rest) color.g (k + 1) hgreen
  have hreadBlue := @readColorToken_append _ rest color.b (k + 2) hblue
  rw [List.append_assoc] at hreadGreen hreadBlue
  unfold PCCPointSet3.readColorTokens
  rw [hr, hg, hb]
  simp only [List.cons_append, List.nil_append] at hreadGreen hreadBlue ⊢
  rw [readColorToken_append hk, hreadGreen, hreadBlue]
  rfl

theorem readReflectanceToken_append {reflectance : UInt16} {k : ℕ} (hk : front.length = k)
    (hreflectance : indices.reflectance = some k) :
    PCCPointSet3.readReflectanceToken indices (front ++ decimal reflectance.toNat :: rest) =
      some reflectance := by
  have hvalue := reflectance.toNat_lt
  unfold PCCPointSet3.readReflectanceToken
  rw [hreflectance, tokenAt_append hk, Option.bind_eq_bind, Option.bind_some,
    PCCPointSet3.atoi_decimal (hvalue.trans (by decide)), Option.bind_eq_bind, Option.bind_some]
  congr 1
  rw [Int.emod_eq_of_lt (by omega) (by omega), Int.toNat_natCast, UInt16.ofNat_toNat]

theorem toCoordinate_parseNumber {n : ℤ} (h : -2 ^ 15 ≤ n ∧ n < 2 ^ 15) :
    toCoordinate (parseNumber (decimalInt n)).trunc = some n := by
  unfold toCoordinate
  rw [Scaled.trunc_of_toInt? (toInt?_parseNumber n), if_pos h]

theorem readPositionTokens_cons {P : PCCPoint3D} (hx : indices.x = some 0)
    (hy : indices.y = some 1) (hz : indices.z = some 2) (hPx : -2 ^ 15 ≤ P.x ∧ P.x < 2 ^ 15)
    (hPy : -2 ^ 15 ≤ P.y ∧ P.y < 2 ^ 15) (hPz : -2 ^ 15 ≤ P.z ∧ P.z < 2 ^ 15) :
    PCCPointSet3.readPositionTokens indices
      (decimalInt P.x :: decimalInt P.y :: decimalInt P.z :: rest) = some P := by
  unfold PCCPointSet3.readPositionTokens
  rw [hx, hy, hz]
  show (toCoordinate (parseNumber (decimalInt P.x)).trunc).bind _ = _
  rw [toCoordinate_parseNumber hPx, Option.bind_some, toCoordinate_parseNumber hPy,
    toCoordinate_parseNumber hPz]
  rfl

/-- A point is stored when its tokens are read. -/
theorem storeTokens_eq {points : PCCPointSet3} {i : ℕ} {tokens : List (List UInt8)}
    {position : PCCPoint3D} {color : PCCColor3B} {reflectance : UInt16}
    (hposition : PCCPointSet3.readPositionTokens indices tokens = some position)
    (hcolor : (if points.withColors then PCCPointSet3.readColorTokens indices tokens
      else some default) = some color)
    (hreflectance : (if points.withReflectances then
      PCCPointSet3.readReflectanceToken indices tokens else some 0) = some reflectance) :
    points.storeTokens indices i tokens =
      some (((points.setPosition i position).setColorAt i color).setReflectance i reflectance) := by
  unfold PCCPointSet3.storeTokens
  rw [hposition]
  split_ifs at hcolor hreflectance with hcolors hreflectances hreflectances
  · simp only [if_pos hcolors, if_pos hreflectances, hcolor, hreflectance, Option.bind_eq_bind,
      Option.bind_some]
  · simp only [if_pos hcolors, if_neg hreflectances, hcolor, hreflectance, Option.bind_eq_bind,
      Option.bind_some]
  · simp only [if_neg hcolors, if_pos hreflectances, hcolor, hreflectance, Option.bind_eq_bind,
      Option.bind_some]
  · simp only [if_neg hcolors, if_neg hreflectances, hcolor, hreflectance, Option.bind_eq_bind,
      Option.bind_some]

end Places

/-! ### The points of an ASCII file -/

theorem fill_map_default {α : Type} [Inhabited α] (xs : List α) (i : ℕ) :
    fill i (xs.map fun _ => (default : α)) = xs.map fun _ => default := by
  rw [List.map_const']
  unfold fill
  rw [List.take_replicate, List.length_replicate, List.replicate_append_replicate]
  congr 1
  omega

namespace PlyPointSet

variable (set : PlyPointSet) {i : ℕ}

/-- The point set that an ASCII file gives back. -/
def withoutNormals : PlyPointSet where
  toPCCPointSet3 := set.toPCCPointSet3.withoutNormals
  coordinates := set.coordinates
  lengthColors := set.lengthColors
  lengthReflectances := set.lengthReflectances
  lengthNormals := (List.length_map _).trans set.lengthNormals
  single := by
    intro normal hnormal
    obtain ⟨_, -, rfl⟩ := List.mem_map.mp hnormal
    have hzero : FloatWord.IsSingle 0 := FloatWord.isSingle_of_natAbs_lt (by decide)
    exact ⟨hzero, hzero, hzero⟩

theorem store_withoutNormals {P : PCCPoint3D} {color : PCCColor3B} {reflectance : UInt16}
    (hP : set.positions[i]? = some P)
    (hcolor : set.withColors = true → set.colors[i]? = some color)
    (hreflectance : set.withReflectances = true → set.reflectances[i]? = some reflectance) :
    (((set.withoutNormals.filled i).setPosition i P).setColorAt i color).setReflectance i
      reflectance = set.withoutNormals.filled (i + 1) := by
  have hnormals (i : ℕ) : fill i set.withoutNormals.normals = set.withoutNormals.normals :=
    fill_map_default set.normals i
  have hposition : set.withoutNormals.positions[i]? = some P := hP
  rw [PCCPointSet3.setReflectance_eq, PCCPointSet3.setColorAt_eq]
  unfold PCCPointSet3.setPosition PCCPointSet3.filled
  dsimp only
  rw [hnormals i, hnormals (i + 1), set_fill hposition,
    setIf_fill set.withoutNormals.lengthColors hcolor,
    setIf_fill set.withoutNormals.lengthReflectances hreflectance]

theorem exists_normalWords (hi : i < set.positions.length) :
    ∃ words, attributeAt set.withNormals set.normals i (fun normal : ℤ × ℤ × ℤ =>
        [floatText normal.1, floatText normal.2.1, floatText normal.2.2]) = some words ∧
      (∀ word ∈ words, IsShortWord word) ∧ words.length = if set.withNormals then 3 else 0 := by
  have hlength := set.lengthNormals
  cases hnormals : set.withNormals with
  | false => exact ⟨[], rfl, fun word hword => absurd hword List.not_mem_nil, rfl⟩
  | true =>
    rw [hnormals, if_pos rfl] at hlength
    have hlt : i < set.normals.length := by rwa [hlength]
    obtain ⟨hx, hy, hz⟩ := set.single _ (List.getElem_mem hlt)
    refine ⟨[floatText set.normals[i].1, floatText set.normals[i].2.1,
      floatText set.normals[i].2.2], ?_, ?_, rfl⟩
    · rw [attributeAt, if_pos rfl, List.getElem?_eq_getElem hlt]
      rfl
    · rw [List.forall_mem_cons, List.forall_mem_cons, List.forall_mem_singleton]
      exact ⟨isShortWord_floatText hx, isShortWord_floatText hy, isShortWord_floatText hz⟩

theorem exists_colorWords (hi : i < set.positions.length) :
    ∃ words, ∃ color : PCCColor3B,
      attributeAt set.withColors set.colors i (fun color : PCCColor3B =>
        [decimal color.r.toNat, decimal color.g.toNat, decimal color.b.toNat]) = some words ∧
      (∀ word ∈ words, IsShortWord word) ∧ words.length = (if set.withColors then 3 else 0) ∧
      (set.withColors = true → set.colors[i]? = some color) ∧
      ∀ front rest : List (List UInt8), front.length = (if set.withNormals then 6 else 3) →
        (if set.withColors then
          PCCPointSet3.readColorTokens
            (indicesOf set.withNormals set.withColors set.withReflectances)
            (front ++ (words ++ rest)) else some default) = some color := by
  have hlength := set.lengthColors
  cases hcolors : set.withColors with
  | false =>
    exact ⟨[], default, rfl, fun word hword => absurd hword List.not_mem_nil, rfl, nofun,
      fun _ _ _ => rfl⟩
  | true =>
    rw [hcolors, if_pos rfl] at hlength
    have hlt : i < set.colors.length := by rwa [hlength]
    have hword (value : UInt8) : IsShortWord (decimal value.toNat) :=
      isShortWord_decimal (value.toNat_lt.trans (by decide))
    refine ⟨[decimal set.colors[i].r.toNat, decimal set.colors[i].g.toNat,
      decimal set.colors[i].b.toNat], set.colors[i], ?_, ?_, rfl, ?_, ?_⟩
    · rw [attributeAt, if_pos rfl, List.getElem?_eq_getElem hlt]
      rfl
    · rw [List.forall_mem_cons, List.forall_mem_cons, List.forall_mem_singleton]
      exact ⟨hword _, hword _, hword _⟩
    · exact fun _ => List.getElem?_eq_getElem hlt
    · intro front rest hfront
      rw [if_pos rfl]
      exact readColorTokens_append hfront rfl rfl rfl

theorem exists_reflectanceWords (hi : i < set.positions.length) :
    ∃ words, ∃ reflectance : UInt16,
      attributeAt set.withReflectances set.reflectances i (fun reflectance : UInt16 =>
        [decimal reflectance.toNat]) = some words ∧
      (∀ word ∈ words, IsShortWord word) ∧
      words.length = (if set.withReflectances then 1 else 0) ∧
      (set.withReflectances = true → set.reflectances[i]? = some reflectance) ∧
      ∀ front : List (List UInt8),
        front.length = (if set.withNormals then 6 else 3) + (if set.withColors then 3 else 0) →
        (if set.withReflectances then
          PCCPointSet3.readReflectanceToken
            (indicesOf set.withNormals set.withColors set.withReflectances) (front ++ words)
          else some 0) = some reflectance := by
  have hlength := set.lengthReflectances
  cases hreflectances : set.withReflectances with
  | false =>
    exact ⟨[], 0, rfl, fun word hword => absurd hword List.not_mem_nil, rfl, nofun,
      fun _ _ => rfl⟩
  | true =>
    rw [hreflectances, if_pos rfl] at hlength
    have hlt : i < set.reflectances.length := by rwa [hlength]
    refine ⟨[decimal set.reflectances[i].toNat], set.reflectances[i], ?_, ?_, rfl, ?_, ?_⟩
    · rw [attributeAt, if_pos rfl, List.getElem?_eq_getElem hlt]
      rfl
    · rw [List.forall_mem_singleton]
      exact isShortWord_decimal ((UInt16.toNat_lt _).trans (by decide))
    · exact fun _ => List.getElem?_eq_getElem hlt
    · intro front hfront
      rw [if_pos rfl]
      apply readReflectanceToken_append hfront
      cases set.withColors with
      | false => rfl
      | true => rfl

/-- The words of a point are its tokens, and its point is stored without the normal. -/
theorem exists_asciiWords (hi : i < set.positions.length) :
    ∃ words, set.asciiWords i = some words ∧ (∀ word ∈ words, IsShortWord word) ∧
      words ≠ [] ∧
      words.length = (attributesOf set.withNormals set.withColors set.withReflectances).length ∧
      (set.withoutNormals.filled i).storeTokens
        (indicesOf set.withNormals set.withColors set.withReflectances) i words =
          some (set.withoutNormals.filled (i + 1)) := by
  obtain ⟨hx, hy, hz⟩ := set.coordinates _ (List.getElem_mem hi)
  obtain ⟨normal, hnormal, hnormalWords, hnormalLength⟩ := set.exists_normalWords hi
  obtain ⟨colorWords, color, hcolor, hcolorWords, hcolorLength, hcolorAt, hcolorRead⟩ :=
    set.exists_colorWords hi
  obtain ⟨reflectanceWords, reflectance, hreflectance, hreflectanceWords, hreflectanceLength,
    hreflectanceAt, hreflectanceRead⟩ := set.exists_reflectanceWords hi
  generalize hP : set.positions[i] = P at hx hy hz
  have hcoordinate {n : ℤ} (h : -2 ^ 15 ≤ n ∧ n < 2 ^ 15) : IsShortWord (decimalInt n) := by
    apply isShortWord_decimalInt
    have hn : n.natAbs < 2 ^ 16 := by omega
    exact hn.trans (by decide)
  have hfront : ([decimalInt P.x, decimalInt P.y, decimalInt P.z] ++ normal).length =
      if set.withNormals then 6 else 3 := by
    rw [List.length_append, hnormalLength]
    cases set.withNormals with
    | false => rfl
    | true => rfl
  have hcolorEnd : ([decimalInt P.x, decimalInt P.y, decimalInt P.z] ++ normal ++
      colorWords).length = (if set.withNormals then 6 else 3) +
        if set.withColors then 3 else 0 := by
    rw [List.length_append, hfront, hcolorLength]
  refine ⟨[decimalInt P.x, decimalInt P.y, decimalInt P.z] ++ normal ++ colorWords ++
    reflectanceWords, ?_, ?_, ?_, ?_, ?_⟩
  · unfold PCCPointSet3.asciiWords
    rw [List.getElem?_eq_getElem hi, hP, hnormal, hcolor, hreflectance]
    rfl
  · rw [List.forall_mem_append, List.forall_mem_append, List.forall_mem_append]
    refine ⟨⟨⟨?_, hnormalWords⟩, hcolorWords⟩, hreflectanceWords⟩
    rw [List.forall_mem_cons, List.forall_mem_cons, List.forall_mem_singleton]
    exact ⟨hcoordinate hx, hcoordinate hy, hcoordinate hz⟩
  · exact List.cons_ne_nil _ _
  · rw [List.length_append, hcolorEnd, hreflectanceLength]
    generalize set.withNormals = withNormals
    generalize set.withColors = withColors
    generalize set.withReflectances = withReflectances
    revert withNormals withColors withReflectances
    decide
  · have hposition : PCCPointSet3.readPositionTokens
        (indicesOf set.withNormals set.withColors set.withReflectances)
        ([decimalInt P.x, decimalInt P.y, decimalInt P.z] ++ normal ++ colorWords ++
          reflectanceWords) = some P := readPositionTokens_cons rfl rfl rfl hx hy hz
    have hcolorTokens := hcolorRead _ reflectanceWords hfront
    rw [← List.append_assoc] at hcolorTokens
    have hreflectanceToken := hreflectanceRead _ hcolorEnd
    have hP : set.positions[i]? = some P := (List.getElem?_eq_getElem hi).trans (congrArg some hP)
    rw [← set.store_withoutNormals hP hcolorAt hreflectanceAt]
    exact storeTokens_eq hposition hcolorTokens hreflectanceToken

end PlyPointSet

end V3C

import Mathlib.Data.Nat.Digits.Lemmas
import V3C.Number.Scaled

/-! Decimal numbers in texts of bytes. -/
namespace Text

def isDigit (c : UInt8) : Bool := 48 ≤ c && c ≤ 57

def isSpace (c : UInt8) : Bool := c == 32 || (9 ≤ c && c ≤ 13)

def digit (d : ℕ) : UInt8 := UInt8.ofNat (48 + d)

def decimal (n : ℕ) : List UInt8 :=
  if n = 0 then [digit 0] else (Nat.digits 10 n).reverse.map digit

def decimalInt (n : ℤ) : List UInt8 :=
  if n < 0 then 45 :: decimal n.natAbs else decimal n.natAbs

/-- The number that leading digits spell, and the text after them. -/
def spanDigits : ℕ → List UInt8 → ℕ × List UInt8
  | value, [] => (value, [])
  | value, c :: text =>
    if isDigit c then spanDigits (value * 10 + (c.toNat - 48)) text else (value, c :: text)

def spanSign : List UInt8 → Bool × List UInt8
  | [] => (false, [])
  | c :: text => if c = 45 then (true, text) else if c = 43 then (false, text) else (false, c :: text)

def applySign (negative : Bool) (n : ℕ) : ℤ := if negative then -n else n

/-- The integer that a text starts with. -/
def parseInt (text : List UInt8) : ℤ :=
  let (negative, text) := spanSign (text.dropWhile isSpace)
  applySign negative (spanDigits 0 text).1

/-- The digits after a point: the number so far is continued, and the power of ten is lowered. -/
def parseFraction (whole : ℕ) : List UInt8 → ℕ × ℤ × List UInt8
  | 46 :: text =>
    let (value, rest) := spanDigits whole text
    (value, (rest.length : ℤ) - text.length, rest)
  | text => (whole, 0, text)

/-- The power of ten after an `e`. -/
def parseExponent : List UInt8 → ℤ
  | c :: text => if c = 101 ∨ c = 69 then parseInt text else 0
  | [] => 0

/-- The number that a text starts with: digits, a fraction and an exponent. -/
def parseNumber (text : List UInt8) : Scaled 10 :=
  let (negative, text) := spanSign (text.dropWhile isSpace)
  let (whole, text) := spanDigits 0 text
  let (value, scale, text) := parseFraction whole text
  ⟨applySign negative value, scale + parseExponent text⟩

section Digits

variable {d n : ℕ}

theorem toNat_digit (hd : d < 10) : (digit d).toNat = 48 + d := by
  unfold digit
  rw [UInt8.toNat_ofNat']
  omega

theorem isDigit_digit (hd : d < 10) : isDigit (digit d) = true := by
  have hvalue := toNat_digit hd
  unfold isDigit
  rw [Bool.and_eq_true, decide_eq_true_iff, decide_eq_true_iff, UInt8.le_iff_toNat_le,
    UInt8.le_iff_toNat_le, hvalue]
  exact ⟨Nat.le_add_right 48 d, by show 48 + d ≤ 57; omega⟩

theorem spanDigits_map {ds : List ℕ} (hds : ∀ d ∈ ds, d < 10) (value : ℕ) :
    spanDigits value (ds.map digit) = (ds.foldl (fun value d => value * 10 + d) value, []) := by
  induction ds generalizing value with
  | nil => rfl
  | cons d ds ih =>
    have hd := hds d List.mem_cons_self
    rw [List.map_cons, spanDigits, if_pos (isDigit_digit hd), toNat_digit hd, Nat.add_sub_cancel_left,
      ih fun d hd => hds d (List.mem_cons_of_mem _ hd)]
    rfl

theorem foldl_digits (n : ℕ) :
    (Nat.digits 10 n).reverse.foldl (fun value d => value * 10 + d) 0 = n := by
  rw [List.foldl_reverse]
  conv_rhs => rw [← Nat.ofDigits_digits 10 n]
  rw [Nat.ofDigits_eq_foldr]
  congr 1
  funext d value
  show value * 10 + d = d + 10 * value
  ring

/-- The digits of a number spell it. -/
theorem spanDigits_decimal (n : ℕ) : spanDigits 0 (decimal n) = (n, []) := by
  unfold decimal
  split_ifs with hn
  · subst hn
    rfl
  · have hds : ∀ d ∈ (Nat.digits 10 n).reverse, d < 10 := by
      intro d hd
      exact Nat.digits_lt_base (by decide) (List.mem_reverse.mp hd)
    rw [spanDigits_map hds, foldl_digits]

theorem isDigit_of_mem_decimal {c : UInt8} (hc : c ∈ decimal n) : isDigit c = true := by
  unfold decimal at hc
  split_ifs at hc
  · rw [List.mem_singleton.mp hc]
    exact isDigit_digit (by decide)
  · obtain ⟨d, hd, rfl⟩ := List.mem_map.mp hc
    exact isDigit_digit (Nat.digits_lt_base (by decide) (List.mem_reverse.mp hd))

theorem decimal_ne_nil (n : ℕ) : decimal n ≠ [] := by
  unfold decimal
  split_ifs with hn
  · exact List.cons_ne_nil _ _
  · intro h
    have hdigits := List.reverse_eq_nil_iff.mp (List.map_eq_nil_iff.mp h)
    exact hn (Nat.digits_eq_nil_iff_eq_zero.mp hdigits)

theorem length_decimal_le {k : ℕ} (hk : 0 < k) (hn : n < 10 ^ k) : (decimal n).length ≤ k := by
  unfold decimal
  split_ifs
  · exact hk
  · rw [List.length_map, List.length_reverse]
    exact (Nat.digits_length_le_iff (by decide) n).mpr hn

end Digits

section Integers

theorem isDigit_iff {c : UInt8} : isDigit c = true ↔ 48 ≤ c.toNat ∧ c.toNat ≤ 57 := by
  unfold isDigit
  rw [Bool.and_eq_true, decide_eq_true_iff, decide_eq_true_iff, UInt8.le_iff_toNat_le,
    UInt8.le_iff_toNat_le]
  exact Iff.rfl

theorem not_isSpace_of_toNat {c : UInt8} (h : 32 < c.toNat) : isSpace c = false := by
  unfold isSpace
  rw [Bool.or_eq_false_iff, Bool.and_eq_false_imp, beq_eq_false_iff_ne]
  constructor
  · rintro rfl
    exact absurd h (by decide)
  · intro _
    rw [decide_eq_false_iff_not, UInt8.le_iff_toNat_le]
    show ¬c.toNat ≤ 13
    omega

/-- Digits are neither space nor a sign. -/
theorem spanSign_digits {text : List UInt8} (hne : text ≠ [])
    (hdigits : ∀ c ∈ text, isDigit c = true) :
    text.dropWhile isSpace = text ∧ spanSign text = (false, text) := by
  cases text with
  | nil => exact absurd rfl hne
  | cons c text =>
    have hc := isDigit_iff.mp (hdigits c List.mem_cons_self)
    have hspace : isSpace c = false := not_isSpace_of_toNat (by omega)
    have hminus : c ≠ 45 := by
      rintro rfl
      exact absurd hc (by decide)
    have hplus : c ≠ 43 := by
      rintro rfl
      exact absurd hc (by decide)
    constructor
    · rw [List.dropWhile_cons_of_neg (by rw [hspace]; exact Bool.false_ne_true)]
    · rw [spanSign, if_neg hminus, if_neg hplus]

/-- The sign and the digits of an integer are found. -/
theorem spanSign_decimalInt (n : ℤ) :
    spanSign ((decimalInt n).dropWhile isSpace) = (decide (n < 0), decimal n.natAbs) := by
  obtain ⟨hdrop, hsign⟩ := spanSign_digits (decimal_ne_nil n.natAbs) fun c => isDigit_of_mem_decimal
  unfold decimalInt
  split_ifs with hn
  · have hspace : isSpace 45 = false := by decide
    rw [List.dropWhile_cons_of_neg (by rw [hspace]; exact Bool.false_ne_true), spanSign, if_pos rfl,
      decide_eq_true hn]
  · rw [hdrop, hsign, decide_eq_false hn]

theorem applySign_natAbs (n : ℤ) : applySign (decide (n < 0)) n.natAbs = n := by
  unfold applySign
  by_cases hn : n < 0
  · rw [if_pos (decide_eq_true hn)]
    omega
  · rw [if_neg (by rw [decide_eq_true_iff]; exact hn)]
    omega

theorem parseInt_decimalInt (n : ℤ) : parseInt (decimalInt n) = n := by
  unfold parseInt
  rw [spanSign_decimalInt]
  dsimp only
  rw [spanDigits_decimal, applySign_natAbs]

theorem toInt?_parseNumber (n : ℤ) : (parseNumber (decimalInt n)).toInt? = some n := by
  unfold parseNumber
  rw [spanSign_decimalInt]
  dsimp only
  rw [spanDigits_decimal]
  simp only [parseFraction, parseExponent, applySign_natAbs, add_zero]
  unfold Scaled.toInt?
  dsimp only
  rw [if_pos (le_refl _)]
  exact congrArg some (mul_one n)

theorem decimalInt_ne_nil (n : ℤ) : decimalInt n ≠ [] := by
  unfold decimalInt
  split_ifs
  · exact List.cons_ne_nil _ _
  · exact decimal_ne_nil _

/-- An integer has no bytes below the minus sign. -/
theorem le_of_mem_decimalInt {n : ℤ} {c : UInt8} (hc : c ∈ decimalInt n) : 45 ≤ c.toNat := by
  unfold decimalInt at hc
  have hdigit : ∀ c ∈ decimal n.natAbs, 45 ≤ c.toNat := by
    intro c hc
    have hrange := isDigit_iff.mp (isDigit_of_mem_decimal hc)
    omega
  split_ifs at hc
  · rcases List.mem_cons.mp hc with rfl | hc
    · decide
    · exact hdigit c hc
  · exact hdigit c hc

theorem length_decimalInt_le {n : ℤ} {k : ℕ} (hk : 0 < k) (hn : n.natAbs < 10 ^ k) :
    (decimalInt n).length ≤ k + 1 := by
  have hlength := length_decimal_le hk hn
  unfold decimalInt
  split_ifs
  · rw [List.length_cons]
    omega
  · omega

end Integers

end Text

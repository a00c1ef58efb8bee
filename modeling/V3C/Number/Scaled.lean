import Mathlib.Algebra.Order.Ring.Nat
import Mathlib.Algebra.Order.Ring.Int
import Mathlib.Data.Nat.Log
import Mathlib.Tactic.Ring

/-! Numbers with an integer significand and a power of a base, and the floating point words that
hold such numbers. -/

/-- The number `significand * base ^ exponent`. -/
structure Scaled (base : ℕ) where
  significand : ℤ
  exponent : ℤ
  deriving DecidableEq

namespace Scaled

variable {base : ℕ}

/-- The number when it is an integer. -/
def toInt? (x : Scaled base) : Option ℤ :=
  if 0 ≤ x.exponent then some (x.significand * base ^ x.exponent.toNat)
  else if x.significand % base ^ (-x.exponent).toNat = 0 then
    some (x.significand / base ^ (-x.exponent).toNat)
  else none

/-- The number without its fraction. -/
def trunc (x : Scaled base) : ℤ :=
  if 0 ≤ x.exponent then x.significand * base ^ x.exponent.toNat
  else x.significand.tdiv (base ^ (-x.exponent).toNat)

theorem trunc_of_toInt? {x : Scaled base} {n : ℤ} (h : x.toInt? = some n) : x.trunc = n := by
  unfold toInt? at h
  unfold trunc
  split_ifs at h ⊢ with hexponent hzero
  · exact Option.some.inj h
  · rw [← Option.some.inj h]
    exact Int.tdiv_eq_ediv_of_dvd (Int.dvd_of_emod_eq_zero hzero)

end Scaled

/-! ### Floating point words -/
namespace FloatWord

/-- The number in a word, unless it is infinite or no number. -/
def decode (exponentBits fractionBits word : ℕ) : Option (Scaled 2) :=
  let fraction := word % 2 ^ fractionBits
  let exponent := word / 2 ^ fractionBits % 2 ^ exponentBits
  let sign : ℤ := if word / 2 ^ (exponentBits + fractionBits) % 2 = 1 then -1 else 1
  let bias : ℤ := 2 ^ (exponentBits - 1) - 1
  if exponent = 2 ^ exponentBits - 1 then none
  else if exponent = 0 then some ⟨sign * fraction, 1 - bias - fractionBits⟩
  else some ⟨sign * (2 ^ fractionBits + fraction : ℕ), exponent - bias - fractionBits⟩

/-- The significand of a number in single precision, between `2 ^ 23` and `2 ^ 24`. -/
def significand (a : ℕ) : ℕ :=
  if Nat.log 2 a ≤ 23 then a * 2 ^ (23 - Nat.log 2 a) else a / 2 ^ (Nat.log 2 a - 23)

/-- The word in single precision of an integer that it can hold. -/
def encodeSingle (n : ℤ) : ℕ :=
  (if n < 0 then 2 ^ 31 else 0) +
    if n = 0 then 0 else (Nat.log 2 n.natAbs + 127) * 2 ^ 23 + (significand n.natAbs - 2 ^ 23)

/-- The integers that single precision holds. -/
def IsSingle (n : ℤ) : Prop := n.natAbs < 2 ^ 128 ∧ ∃ m k : ℕ, n.natAbs = m * 2 ^ k ∧ m < 2 ^ 24

theorem isSingle_of_natAbs_lt {n : ℤ} (h : n.natAbs < 2 ^ 24) : IsSingle n :=
  ⟨h.trans (Nat.pow_lt_pow_right (by decide) (by decide)), n.natAbs, 0, by rw [pow_zero, mul_one], h⟩

/-- A long significand ends in zeros. -/
theorem pow_dvd_of_isSingle {a m k : ℕ} (ha : a ≠ 0) (heq : a = m * 2 ^ k) (hm : m < 2 ^ 24) :
    2 ^ (Nat.log 2 a - 23) ∣ a := by
  have hlog : 2 ^ Nat.log 2 a ≤ a := Nat.pow_log_le_self 2 ha
  have hlt : a < 2 ^ (k + 24) := by
    rw [heq, pow_add, mul_comm]
    exact Nat.mul_lt_mul_of_pos_left hm (Nat.two_pow_pos _)
  have hexponent : Nat.log 2 a < k + 24 := (Nat.pow_lt_pow_iff_right (by decide)).mp (hlog.trans_lt hlt)
  have hdvd : 2 ^ (Nat.log 2 a - 23) ∣ 2 ^ k := pow_dvd_pow 2 (by omega)
  rw [heq] at hdvd ⊢
  exact hdvd.trans (Dvd.intro_left m rfl)

/-- The significand and the number have the same digits. -/
theorem significand_spec {a : ℕ} (ha : a ≠ 0) (hsingle : ∃ m k : ℕ, a = m * 2 ^ k ∧ m < 2 ^ 24) :
    2 ^ 23 ≤ significand a ∧ significand a < 2 ^ 24 ∧
      significand a * 2 ^ (Nat.log 2 a - 23) = a * 2 ^ (23 - Nat.log 2 a) := by
  obtain ⟨m, k, heq, hm⟩ := hsingle
  have hle : 2 ^ Nat.log 2 a ≤ a := Nat.pow_log_le_self 2 ha
  have hlt : a < 2 ^ (Nat.log 2 a + 1) := Nat.lt_pow_succ_log_self (by decide) a
  unfold significand
  split_ifs with hshort
  · have hlow : 2 ^ Nat.log 2 a * 2 ^ (23 - Nat.log 2 a) = 2 ^ 23 := by
      rw [← pow_add, Nat.add_sub_cancel' hshort]
    have hhigh : 2 ^ (Nat.log 2 a + 1) * 2 ^ (23 - Nat.log 2 a) = 2 ^ 24 := by
      rw [← pow_add]
      congr 1
      omega
    refine ⟨?_, ?_, ?_⟩
    · rw [← hlow]
      exact Nat.mul_le_mul_right _ hle
    · rw [← hhigh]
      exact Nat.mul_lt_mul_of_pos_right hlt (Nat.two_pow_pos _)
    · rw [Nat.sub_eq_zero_of_le hshort, pow_zero, mul_one]
  · have hdvd := pow_dvd_of_isSingle ha heq hm
    have hlow : 2 ^ 23 * 2 ^ (Nat.log 2 a - 23) = 2 ^ Nat.log 2 a := by
      rw [← pow_add]
      congr 1
      omega
    have hhigh : 2 ^ 24 * 2 ^ (Nat.log 2 a - 23) = 2 ^ (Nat.log 2 a + 1) := by
      rw [← pow_add]
      congr 1
      omega
    refine ⟨?_, ?_, ?_⟩
    · rw [Nat.le_div_iff_mul_le (Nat.two_pow_pos _), hlow]
      exact hle
    · rw [Nat.div_lt_iff_lt_mul (Nat.two_pow_pos _), hhigh]
      exact hlt
    · rw [Nat.div_mul_cancel hdvd, Nat.sub_eq_zero_of_le (by omega : 23 ≤ Nat.log 2 a), pow_zero,
        mul_one]

theorem natAbs_eq_sign_mul (n : ℤ) : (if n < 0 then -1 else 1) * (n.natAbs : ℤ) = n := by
  split_ifs <;> omega

theorem decode_fields (negative : Bool) {exponent fraction : ℕ} (hexponent : 0 < exponent)
    (hfinite : exponent < 255) (hfraction : fraction < 2 ^ 23) :
    decode 8 23 ((if negative then 2 ^ 31 else 0) + (exponent * 2 ^ 23 + fraction)) =
      some ⟨(if negative then -1 else 1) * ((2 ^ 23 + fraction : ℕ) : ℤ), exponent - 150⟩ := by
  have hword : ((if negative then 2 ^ 31 else 0) + (exponent * 2 ^ 23 + fraction)) % 2 ^ 23 =
      fraction := by
    split_ifs <;> omega
  have hfield : ((if negative then 2 ^ 31 else 0) + (exponent * 2 ^ 23 + fraction)) / 2 ^ 23 %
      2 ^ 8 = exponent := by
    split_ifs <;> omega
  have hsign : ((if negative then 2 ^ 31 else 0) + (exponent * 2 ^ 23 + fraction)) / 2 ^ (8 + 23) %
      2 = if negative then 1 else 0 := by
    split_ifs <;> omega
  unfold decode
  simp only [hword, hfield, hsign]
  rw [if_neg (by omega), if_neg (by omega)]
  cases negative with
  | false =>
    congr 2
    omega
  | true =>
    congr 2
    omega

/-- A word gives back the integer it was made of. -/
theorem decode_encodeSingle {n : ℤ} (h : IsSingle n) :
    ∃ x, decode 8 23 (encodeSingle n) = some x ∧ x.toInt? = some n := by
  obtain ⟨hbound, hsingle⟩ := h
  by_cases hn : n = 0
  · subst hn
    exact ⟨⟨0, -149⟩, by decide, by decide⟩
  have ha : n.natAbs ≠ 0 := Int.natAbs_ne_zero.mpr hn
  obtain ⟨hlow, hhigh, hdigits⟩ := significand_spec ha hsingle
  have hlog : Nat.log 2 n.natAbs < 128 := Nat.log_lt_of_lt_pow ha hbound
  have hvalue := natAbs_eq_sign_mul n
  have hfraction : significand n.natAbs - 2 ^ 23 < 2 ^ 23 := by omega
  have hfields := decode_fields (decide (n < 0)) (by omega : 0 < Nat.log 2 n.natAbs + 127)
    (by omega) hfraction
  simp only [decide_eq_true_eq] at hfields
  have hsum : 2 ^ 23 + (significand n.natAbs - 2 ^ 23) = significand n.natAbs := by omega
  rw [hsum] at hfields
  refine ⟨_, by unfold encodeSingle; rw [if_neg hn]; exact hfields, ?_⟩
  unfold Scaled.toInt?
  dsimp only
  by_cases hlong : 23 ≤ Nat.log 2 n.natAbs
  · have hexponent : ((Nat.log 2 n.natAbs + 127 : ℕ) - 150 : ℤ).toNat = Nat.log 2 n.natAbs - 23 := by
      omega
    rw [Nat.sub_eq_zero_of_le hlong, pow_zero, mul_one] at hdigits
    have hproduct : (if n < 0 then -1 else 1) * (significand n.natAbs : ℤ) *
        2 ^ (Nat.log 2 n.natAbs - 23) = n := by
      calc (if n < 0 then -1 else 1) * (significand n.natAbs : ℤ) * 2 ^ (Nat.log 2 n.natAbs - 23)
          = (if n < 0 then -1 else 1) *
              ((significand n.natAbs * 2 ^ (Nat.log 2 n.natAbs - 23) : ℕ) : ℤ) := by
            rw [Nat.cast_mul, Nat.cast_pow, mul_assoc]
            rfl
        _ = n := by rw [hdigits, hvalue]
    rw [if_pos (by omega), hexponent]
    exact congrArg some hproduct
  · have hexponent : (-((Nat.log 2 n.natAbs + 127 : ℕ) - 150 : ℤ)).toNat =
        23 - Nat.log 2 n.natAbs := by
      omega
    rw [Nat.sub_eq_zero_of_le (by omega : Nat.log 2 n.natAbs ≤ 23), pow_zero, mul_one] at hdigits
    have hpow : (0 : ℤ) < 2 ^ (23 - Nat.log 2 n.natAbs) := Int.pow_pos (by decide)
    have hproduct : (if n < 0 then -1 else 1) * (significand n.natAbs : ℤ) =
        n * 2 ^ (23 - Nat.log 2 n.natAbs) := by
      calc (if n < 0 then -1 else 1) * (significand n.natAbs : ℤ)
          = (if n < 0 then -1 else 1) * ((n.natAbs * 2 ^ (23 - Nat.log 2 n.natAbs) : ℕ) : ℤ) := by
            rw [← hdigits]
        _ = (if n < 0 then -1 else 1) * (n.natAbs : ℤ) * 2 ^ (23 - Nat.log 2 n.natAbs) := by
            rw [Nat.cast_mul, Nat.cast_pow, mul_assoc]
            rfl
        _ = n * 2 ^ (23 - Nat.log 2 n.natAbs) := by rw [hvalue]
    rw [if_neg (by omega), hexponent, hproduct, Nat.cast_ofNat, Int.mul_emod_left, if_pos rfl,
      Int.mul_ediv_cancel _ hpow.ne']

end FloatWord

import V3C.Common.Integer
import Mathlib.Data.Int.ModEq

/-! Arithmetic of `size_t` and `int64_t`, and the conversions between them. -/
namespace V3C

/-- The conversion of a `size_t` to `int64_t`. -/
def toInt64 (x : UInt64) : ℤ := x.toInt64.toInt

/-- The value of an expression of type `int64_t`, which may not overflow. -/
def checkInt64 (n : ℤ) : Option ℤ := if -2 ^ 63 ≤ n ∧ n < 2 ^ 63 then some n else none

/-- `1 << n` as an `int`, and `size_t( 1 ) << n`. -/
def shiftInt (n : ℕ) : Option ℤ := if n < 31 then some (2 ^ n) else none

def shiftSizeT (n : ℕ) : Option UInt64 := if n < 64 then some (.ofNat (2 ^ n)) else none

/-- `pow( 2., n )` as an `int64_t`. -/
def powInt64 (n : ℕ) : Option UInt64 := if n < 63 then some (.ofNat (2 ^ n)) else none

/-- `static_cast<double>` of an integer, rounded to 53 bits with ties to even. -/
def toDouble (n : ℕ) : ℕ :=
  if n < 2 ^ 53 then n
  else
    let unit := 2 ^ (Nat.log2 n - 52)
    let q := n / unit
    if unit < 2 * (n % unit) ∨ 2 * (n % unit) = unit ∧ q % 2 = 1 then (q + 1) * unit
    else q * unit

theorem toInt64_eq_bmod (x : UInt64) : toInt64 x = (x.toNat : ℤ).bmod (2 ^ 64) := by
  change x.toBitVec.toInt = _
  exact BitVec.toInt_eq_toNat_bmod _

theorem toNat_ofInt (n : ℤ) : (UInt64.ofInt n).toNat = (n % 2 ^ 64).toNat := by
  have hlt : (n % 2 ^ 64).toNat < 2 ^ 64 := by omega
  rw [UInt64.ofInt, UInt64.toNat_ofNat', Nat.mod_eq_of_lt hlt]

@[simp] theorem ofInt_toInt64 (x : UInt64) : UInt64.ofInt (toInt64 x) = x := by
  have hmod : (x.toNat : ℤ).bmod (2 ^ 64) % 2 ^ 64 = x.toNat := by
    have hx := x.toNat_lt
    have := Int.bmod_emod (x := (x.toNat : ℤ)) (m := 2 ^ 64)
    omega
  apply UInt64.toNat_inj.mp
  rw [toNat_ofInt, toInt64_eq_bmod, hmod, Int.toNat_natCast]

theorem toInt64_of_lt {x : UInt64} (h : x.toNat < 2 ^ 63) : toInt64 x = x.toNat := by
  rw [toInt64_eq_bmod]
  apply Int.bmod_eq_of_le <;> omega

theorem ofInt_natCast (n : ℕ) : UInt64.ofInt n = UInt64.ofNat n := by
  apply UInt64.toNat_inj.mp
  rw [toNat_ofInt, UInt64.toNat_ofNat']
  omega

theorem toInt64_mem (x : UInt64) : -2 ^ 63 ≤ toInt64 x ∧ toInt64 x < 2 ^ 63 := by
  have hlow := Int.le_bmod (x := x.toNat) (m := 2 ^ 64) (by decide)
  have hhigh := Int.bmod_lt (x := x.toNat) (m := 2 ^ 64) (by decide)
  rw [toInt64_eq_bmod]
  omega

theorem toInt32_toNat_sub {a b : UInt64} (h : |(a.toNat : ℤ) - b.toNat| < 2 ^ 31) :
    toInt32 (a - b).toNat = a.toNat - b.toNat := by
  have ha := a.toNat_lt
  have hb := b.toNat_lt
  have habs := abs_lt.mp h
  rcases le_or_gt b.toNat a.toNat with hle | hgt
  · have hsub : (a - b).toNat = a.toNat - b.toNat := by
      rw [UInt64.toNat_sub]
      omega
    rw [hsub, toInt32_of_lt (by omega), Nat.cast_sub hle]
  · have hsub : (a - b).toNat = 2 ^ 64 - (b.toNat - a.toNat) := by
      rw [UInt64.toNat_sub]
      omega
    rw [hsub, toInt32_two_pow_sub (by omega), Nat.cast_sub hgt.le]
    omega

theorem checkInt64_eq_some {n : ℤ} (hlow : -2 ^ 63 ≤ n) (hhigh : n < 2 ^ 63) :
    checkInt64 n = some n := if_pos ⟨hlow, hhigh⟩

theorem shiftInt_eq_some {n : ℕ} (h : n < 31) : shiftInt n = some (2 ^ n) := if_pos h

theorem shiftSizeT_eq_some {n : ℕ} (h : n < 64) : shiftSizeT n = some (.ofNat (2 ^ n)) :=
  if_pos h

theorem toNat_ofNat_two_pow {n : ℕ} (h : n < 64) : (UInt64.ofNat (2 ^ n)).toNat = 2 ^ n := by
  rw [UInt64.toNat_ofNat', Nat.mod_eq_of_lt (Nat.pow_lt_pow_right (by decide) h)]

/-- Division rounds down to a multiple of the divisor. -/
theorem div_mul_eq_sub_mod (x m : UInt64) : x / m * m = x - x % m := by
  have hdiv : (x / m * m).toNat = x.toNat / m.toNat * m.toNat := by
    have hx := x.toNat_lt
    have hle := Nat.div_mul_le_self x.toNat m.toNat
    rw [UInt64.toNat_mul, UInt64.toNat_div, Nat.mod_eq_of_lt (by omega)]
  have hmod : (x - x % m).toNat = x.toNat - x.toNat % m.toNat := by
    rw [UInt64.toNat_sub_of_le, UInt64.toNat_mod]
    rw [UInt64.le_iff_toNat_le, UInt64.toNat_mod]
    exact Nat.mod_le _ _
  apply UInt64.toNat_inj.mp
  rw [hdiv, hmod]
  have := Nat.div_add_mod' x.toNat m.toNat
  omega

theorem div_mul_of_dvd {x m : UInt64} (h : m.toNat ∣ x.toNat) : x / m * m = x := by
  have hmod : x % m = 0 := by
    apply UInt64.toNat_inj.mp
    rw [UInt64.toNat_mod]
    exact Nat.mod_eq_zero_of_dvd h
  rw [div_mul_eq_sub_mod, hmod, UInt64.sub_zero]

theorem toNat_sub_modEq {m : UInt64} (hm : m.toNat ∣ 2 ^ 64) (a b : UInt64) :
    ((a - b).toNat : ℤ) ≡ a.toNat - b.toNat [ZMOD m.toNat] := by
  have hb := b.toNat_lt
  have hwrap : ((a - b).toNat : ℤ) ≡ a.toNat - b.toNat [ZMOD (2 ^ 64 : ℕ)] := by
    rw [UInt64.toNat_sub]
    unfold Int.ModEq
    omega
  exact hwrap.of_dvd (by exact_mod_cast hm)

/-- Two values as far from `a` as a multiple of `m` leave one residue below any `d`. -/
theorem sub_mod_eq_of_dvd {m a b c : UInt64} (d : UInt64) (hm : m.toNat ∣ 2 ^ 64)
    (hb : m.toNat ∣ (a - b).toNat) (hc : m.toNat ∣ (a - c).toNat) :
    (d - b) % m = (d - c) % m := by
  have hb' : (a.toNat : ℤ) - b.toNat ≡ 0 [ZMOD m.toNat] :=
    (toNat_sub_modEq hm a b).symm.trans (Int.modEq_zero_iff_dvd.mpr (by exact_mod_cast hb))
  have hc' : (a.toNat : ℤ) - c.toNat ≡ 0 [ZMOD m.toNat] :=
    (toNat_sub_modEq hm a c).symm.trans (Int.modEq_zero_iff_dvd.mpr (by exact_mod_cast hc))
  have heq : (d.toNat : ℤ) - b.toNat ≡ d.toNat - c.toNat [ZMOD m.toNat] := by
    have hsum := (hb'.trans hc'.symm).add_left (d.toNat - a.toNat : ℤ)
    rwa [sub_add_sub_cancel, sub_add_sub_cancel] at hsum
  have hmod := ((toNat_sub_modEq hm d b).trans heq).trans (toNat_sub_modEq hm d c).symm
  apply UInt64.toNat_inj.mp
  rw [UInt64.toNat_mod, UInt64.toNat_mod]
  exact_mod_cast hmod

end V3C

import Mathlib.Data.Nat.Log
import Mathlib.Tactic.Linarith

/-! Conversions and arithmetic of the machine integers. -/
namespace V3C

instance neZero_three : NeZero 3 := ⟨Nat.succ_ne_zero 2⟩

/-- The conversion of a `size_t` to `int`. -/
def toInt32 (n : ℕ) : ℤ := Int.bmod n (2 ^ 32)

/-- The difference of two `int` values, which may not overflow. -/
def subInt (a b : ℤ) : Option ℤ :=
  if -2 ^ 31 ≤ a - b ∧ a - b < 2 ^ 31 then some (a - b) else none

/-- Arithmetic in `size_t`. -/
def toSizeT (n : ℤ) : ℕ := (n % 2 ^ 64).toNat

/-- `floorLog2` of a 32-bit value; `ceilLog2` expects -1 at zero. -/
def floorLog2 (x : ℕ) : ℤ := if x = 0 then -1 else Nat.log2 x

def ceilLog2 (x : ℕ) : ℤ := if x = 0 then -1 else floorLog2 (x - 1) + 1

def toInt16 (n : ℤ) : ℤ := Int.bmod n 65536

def toUInt16 (n : ℤ) : ℕ := (n % 65536).toNat

/-- The conversion of a signed value to `uint8_t`. -/
def toUInt8 (x : ℤ) : ℕ := (x % 256).toNat

theorem toInt16_of_lt {n : ℤ} (hlow : -32768 ≤ n) (hhigh : n < 32768) : toInt16 n = n := by
  unfold toInt16
  rw [Int.bmod_eq_of_le (by omega) (by omega)]

theorem toUInt16_of_lt {n : ℕ} (h : n < 65536) : toUInt16 n = n := by
  unfold toUInt16
  omega

theorem toUInt8_of_lt {n : ℕ} (h : n < 256) : toUInt8 n = n := by
  unfold toUInt8
  omega

theorem toInt32_of_lt {n : ℕ} (h : n < 2 ^ 31) : toInt32 n = n := by
  unfold toInt32
  rw [Int.bmod_eq_of_le (by omega) (by omega)]

/-- A small negative difference, taken in `size_t`. -/
theorem toInt32_two_pow_sub {d : ℕ} (h : d ≤ 2 ^ 31) : toInt32 (2 ^ 64 - d) = -d := by
  have hcast : ((2 ^ 64 - d : ℕ) : ℤ) = -d + ((2 ^ 32 : ℕ) : ℤ) * 2 ^ 32 := by
    push_cast [show d ≤ 2 ^ 64 by omega]
    omega
  unfold toInt32
  rw [hcast, Int.add_mul_bmod_self_left, Int.bmod_eq_of_le (by omega) (by omega)]

theorem toInt32_mem (n : ℕ) : -2 ^ 31 ≤ toInt32 n ∧ toInt32 n < 2 ^ 31 := by
  have hlow := Int.le_bmod (x := n) (m := 2 ^ 32) (by decide)
  have hhigh := Int.bmod_lt (x := n) (m := 2 ^ 32) (by decide)
  unfold toInt32
  omega

theorem subInt_eq_some {a b : ℤ} (hlow : -2 ^ 31 ≤ a - b) (hhigh : a - b < 2 ^ 31) :
    subInt a b = some (a - b) := if_pos ⟨hlow, hhigh⟩

theorem subInt_eq_none {a b : ℤ} (h : a - b < -2 ^ 31) : subInt a b = none :=
  if_neg fun hin => absurd hin.1 (not_le.mpr h)

theorem toSizeT_of_lt {n : ℤ} (hlow : 0 ≤ n) (hhigh : n < 2 ^ 64) : toSizeT n = n.toNat := by
  rw [toSizeT, Int.emod_eq_of_lt hlow hhigh]

/-- A non-empty range `0, …, x - 1` is indexed by `ceilLog2 x` bits and by no fewer. -/
theorem ceilLog2_le_iff {x : ℕ} (hx : 0 < x) (n : ℕ) : ceilLog2 x ≤ n ↔ x ≤ 2 ^ n := by
  unfold ceilLog2 floorLog2
  rw [if_neg (by omega)]
  split_ifs with h1
  · have := Nat.one_le_two_pow (n := n)
    constructor <;> intro <;> omega
  · have hlog := Nat.log2_lt (k := n) h1
    constructor
    · intro h
      have := hlog.mp (by omega)
      omega
    · intro h
      have := hlog.mpr (by omega)
      omega

theorem ceilLog2_nonneg {x : ℕ} (hx : 0 < x) : 0 ≤ ceilLog2 x := by
  unfold ceilLog2 floorLog2
  split_ifs <;> omega

/-- The index of a pixel of a picture. -/
theorem pixel_lt {x y width height : ℕ} (hx : x < width) (hy : y < height) :
    y * width + x < width * height := by
  calc y * width + x < y * width + width := by omega
    _ = (y + 1) * width := (Nat.succ_mul y width).symm
    _ ≤ height * width := Nat.mul_le_mul_right _ hy
    _ = width * height := Nat.mul_comm _ _

theorem pixel_inj {x x' y y' width : ℕ} (hx : x < width) (hx' : x' < width)
    (h : y * width + x = y' * width + x') : (x, y) = (x', y') := by
  have hmod := congrArg (· % width) h
  simp only [Nat.mul_comm _ width, Nat.mul_add_mod, Nat.mod_eq_of_lt hx,
    Nat.mod_eq_of_lt hx'] at hmod
  rw [hmod] at h
  have hrow : y * width = y' * width := Nat.add_right_cancel h
  rw [hmod, Nat.eq_of_mul_eq_mul_right (by omega) hrow]

end V3C

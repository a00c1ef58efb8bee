import V3C.Codec.Bits
import Mathlib.Data.Nat.Bitwise

/-! Cyclic redundancy checks: a shift register that divides a bit string by a polynomial. -/
namespace Codec

/-- One bit enters at the low end. A one that leaves at the high end subtracts the polynomial,
whose leading term is left out of `poly`. -/
def crcShift (width poly register : ℕ) (b : Bool) : ℕ :=
  let shifted := (2 * register + b.toNat) % 2 ^ width
  if register.testBit (width - 1) then shifted ^^^ poly else shifted

/-- The register after the bits have entered. -/
def crcRegister (width poly : ℕ) (register : ℕ) (bits : List Bool) : ℕ :=
  bits.foldl (crcShift width poly) register

/-- The check value of a message, augmented by one zero for each place of the register. -/
def crc (width poly initial : ℕ) (message : List Bool) : ℕ :=
  crcRegister width poly initial (message ++ List.replicate width false)

section Register

variable {width poly : ℕ}

@[simp] theorem crcRegister_nil (register : ℕ) :
    crcRegister width poly register [] = register := rfl

@[simp] theorem crcRegister_cons (register : ℕ) (b : Bool) (bits : List Bool) :
    crcRegister width poly register (b :: bits) =
      crcRegister width poly (crcShift width poly register b) bits := rfl

theorem crcShift_lt (hpoly : poly < 2 ^ width) (register : ℕ) (b : Bool) :
    crcShift width poly register b < 2 ^ width := by
  have hshifted : (2 * register + b.toNat) % 2 ^ width < 2 ^ width :=
    Nat.mod_lt _ (Nat.two_pow_pos width)
  unfold crcShift
  dsimp only
  split_ifs
  · exact Nat.xor_lt_two_pow hshifted hpoly
  · exact hshifted

/-- The register keeps its width. -/
theorem crcRegister_lt (hpoly : poly < 2 ^ width) {register : ℕ} (hreg : register < 2 ^ width)
    (bits : List Bool) : crcRegister width poly register bits < 2 ^ width := by
  induction bits generalizing register with
  | nil => exact hreg
  | cons b bits ih => exact ih (crcShift_lt hpoly register b)

end Register

end Codec

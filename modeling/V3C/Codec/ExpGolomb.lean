import V3C.Codec.RoundTrip

/-! Exponential Golomb codes of order zero: `v + 1` in binary, after one zero for each bit
below its leading one. -/
namespace Codec

namespace Reader

/-- The number of zeros before the next one, which is consumed too. -/
def zerosIn : List Bool → Option (ℕ × List Bool)
  | [] => none
  | true :: bs => some (0, bs)
  | false :: bs => (zerosIn bs).map fun (n, rest) => (n + 1, rest)

def zeros : Reader ℕ := fun c =>
  (zerosIn c.rest).map fun (n, rest) => (n, ⟨advance c.phase (n + 1), rest⟩)

theorem zerosIn_replicate (n : ℕ) (rest : List Bool) :
    zerosIn (List.replicate n false ++ true :: rest) = some (n, rest) := by
  induction n with
  | zero => rfl
  | succ n ih => simp [List.replicate_succ, zerosIn, ih]

theorem zerosIn_eq_some {bs rest : List Bool} {n : ℕ} (h : zerosIn bs = some (n, rest)) :
    bs = List.replicate n false ++ true :: rest := by
  induction bs generalizing n with
  | nil => simp [zerosIn] at h
  | cons b bs ih =>
    cases b with
    | true =>
      obtain ⟨rfl, rfl⟩ : 0 = n ∧ bs = rest := by simpa [zerosIn] using h
      rfl
    | false =>
      obtain ⟨m, hm, rfl⟩ : ∃ m, zerosIn bs = some (m, rest) ∧ m + 1 = n := by
        simpa [zerosIn] using h
      rw [ih hm, List.replicate_succ, List.cons_append]

/-- The offset bits follow the zeros and the one, which is the leading bit of `v + 1`. -/
def expGolomb : Reader ℕ := do
  let n ← zeros
  let bs ← take n
  pure (2 ^ n + natOfBits bs - 1)

end Reader

namespace Writer

def expGolomb (v : ℕ) : Writer Unit :=
  put (List.replicate (Nat.log2 (v + 1)) false ++ bitsOfNat (Nat.log2 (v + 1) + 1) (v + 1))

end Writer

/-- The leading bit of a positive number, and the offset above its power of two. -/
theorem bitsOfNat_log2 (v : ℕ) :
    bitsOfNat (Nat.log2 (v + 1) + 1) (v + 1) =
      true :: bitsOfNat (Nat.log2 (v + 1)) (v + 1 - 2 ^ Nat.log2 (v + 1)) := by
  have hlow : 2 ^ Nat.log2 (v + 1) ≤ v + 1 := Nat.log2_self_le (by omega)
  have hhigh : v + 1 < 2 ^ (Nat.log2 (v + 1) + 1) := Nat.lt_log2_self
  refine natOfBits_injective (by simp) ?_
  rw [natOfBits_bitsOfNat_of_lt hhigh]
  rw [pow_succ] at hhigh
  simp only [natOfBits, length_bitsOfNat, Bool.toNat_true, one_mul]
  rw [natOfBits_bitsOfNat_of_lt (by omega)]
  omega

/-- Number of bits of the code of `v`. -/
def expGolombLength (v : ℕ) : ℕ := 2 * Nat.log2 (v + 1) + 1

theorem RoundTrip.expGolomb (v : ℕ) : RoundTrip (Writer.expGolomb v) Reader.expGolomb v := by
  intro p
  refine ⟨_, rfl, fun rest => ?_⟩
  have hlow : 2 ^ Nat.log2 (v + 1) ≤ v + 1 := Nat.log2_self_le (by omega)
  have hhigh : v + 1 < 2 ^ (Nat.log2 (v + 1) + 1) := Nat.lt_log2_self
  rw [pow_succ] at hhigh
  rw [bitsOfNat_log2]
  generalize hn : Nat.log2 (v + 1) = n at *
  have hoff : natOfBits (bitsOfNat n (v + 1 - 2 ^ n)) = v + 1 - 2 ^ n :=
    natOfBits_bitsOfNat_of_lt (by omega)
  refine Reader.bind_run_eq_some.mpr
    ⟨n, ⟨advance p (n + 1), bitsOfNat n (v + 1 - 2 ^ n) ++ rest⟩, ?_, ?_⟩
  · simp [Reader.zeros, Reader.zerosIn_replicate]
  refine Reader.bind_run_eq_some.mpr
    ⟨bitsOfNat n (v + 1 - 2 ^ n), ⟨advance p (n + 1 + n), rest⟩, ?_, ?_⟩
  · simp [Reader.take]
  · simp only [Reader.pure_run, hoff, List.length_append, List.length_replicate,
      List.length_cons, length_bitsOfNat, Option.some.injEq, Prod.mk.injEq, Cursor.mk.injEq]
    exact ⟨by omega, by congr 1; omega, trivial⟩

/-- The signed numbers in the order 0, 1, -1, 2, -2, … -/
def zigzag (z : ℤ) : ℕ := if z ≤ 0 then 2 * (-z).toNat else 2 * z.toNat - 1

def unzigzag (n : ℕ) : ℤ := if n % 2 = 1 then (n / 2 : ℕ) + 1 else -(n / 2 : ℕ)

@[simp] theorem unzigzag_zigzag (z : ℤ) : unzigzag (zigzag z) = z := by
  unfold unzigzag zigzag
  split_ifs <;> omega

end Codec

import Mathlib.Data.Nat.Bitwise
import Mathlib.Data.List.Basic
import Mathlib.Tactic.Ring
import Mathlib.Tactic.Linarith

/-! Fixed-width big-endian bit strings and the numbers they denote. -/
namespace Codec

/-- The low `n` bits of `v`, most significant first. -/
def bitsOfNat : ℕ → ℕ → List Bool
  | 0, _ => []
  | n + 1, v => v.testBit n :: bitsOfNat n v

/-- The number a bit string denotes, most significant bit first. -/
def natOfBits : List Bool → ℕ
  | [] => 0
  | b :: bs => b.toNat * 2 ^ bs.length + natOfBits bs

@[simp] theorem length_bitsOfNat (n v : ℕ) : (bitsOfNat n v).length = n := by
  induction n with
  | zero => rfl
  | succ n ih => simp [bitsOfNat, ih]

theorem natOfBits_lt (bs : List Bool) : natOfBits bs < 2 ^ bs.length := by
  induction bs with
  | nil => simp [natOfBits]
  | cons b bs ih =>
    have hb : b.toNat ≤ 1 := b.toNat_le
    have hmul : b.toNat * 2 ^ bs.length ≤ 1 * 2 ^ bs.length := Nat.mul_le_mul_right _ hb
    simp only [natOfBits, List.length_cons, pow_succ]
    omega

theorem natOfBits_append (bs cs : List Bool) :
    natOfBits (bs ++ cs) = natOfBits bs * 2 ^ cs.length + natOfBits cs := by
  induction bs with
  | nil => simp [natOfBits]
  | cons b bs ih =>
    simp only [List.cons_append, natOfBits, ih, List.length_append, pow_add]
    ring

@[simp] theorem natOfBits_bitsOfNat (n v : ℕ) : natOfBits (bitsOfNat n v) = v % 2 ^ n := by
  induction n with
  | zero => simp [bitsOfNat, natOfBits, Nat.mod_one]
  | succ n ih =>
    have hbit : (v.testBit n).toNat = v / 2 ^ n % 2 := by
      rw [Nat.testBit_eq_decide_div_mod_eq]
      rcases Nat.mod_two_eq_zero_or_one (v / 2 ^ n) with h | h <;> simp [h]
    simp only [bitsOfNat, natOfBits, length_bitsOfNat, ih, hbit, pow_succ]
    rw [Nat.mod_mul]
    ring

theorem natOfBits_bitsOfNat_of_lt {n v : ℕ} (h : v < 2 ^ n) : natOfBits (bitsOfNat n v) = v := by
  rw [natOfBits_bitsOfNat, Nat.mod_eq_of_lt h]

theorem natOfBits_injective {bs cs : List Bool} (hlen : bs.length = cs.length)
    (h : natOfBits bs = natOfBits cs) : bs = cs := by
  induction bs generalizing cs with
  | nil => exact (List.length_eq_zero_iff.mp hlen.symm).symm
  | cons b bs ih =>
    obtain _ | ⟨c, cs⟩ := cs
    · simp at hlen
    have hl : bs.length = cs.length := by simpa using hlen
    have hb := natOfBits_lt bs
    have hc := natOfBits_lt cs
    simp only [natOfBits, hl] at h hb
    have hbc : b = c := by
      cases b <;> cases c <;> simp at h ⊢ <;> omega
    subst hbc
    rw [ih hl (by omega)]

@[simp] theorem bitsOfNat_natOfBits (bs : List Bool) : bitsOfNat bs.length (natOfBits bs) = bs := by
  refine natOfBits_injective (by simp) ?_
  rw [natOfBits_bitsOfNat, Nat.mod_eq_of_lt (natOfBits_lt bs)]

theorem bitsOfNat_mod {n m : ℕ} (h : n ≤ m) (v : ℕ) : bitsOfNat n (v % 2 ^ m) = bitsOfNat n v := by
  refine natOfBits_injective (by simp) ?_
  rw [natOfBits_bitsOfNat, natOfBits_bitsOfNat, Nat.mod_mod_of_dvd _ (pow_dvd_pow 2 h)]

theorem bitsOfNat_zero (n : ℕ) : bitsOfNat n 0 = List.replicate n false := by
  induction n with
  | zero => rfl
  | succ n ih => simp [bitsOfNat, ih, List.replicate_succ]

theorem drop_bitsOfNat (n j v : ℕ) : (bitsOfNat n v).drop j = bitsOfNat (n - j) v := by
  induction n generalizing j with
  | zero => simp [bitsOfNat]
  | succ n ih =>
    cases j with
    | zero => rfl
    | succ j => rw [bitsOfNat, List.drop_succ_cons, ih, Nat.add_sub_add_right]

/-- The bits of a byte string. -/
def bitsOfBytes (bytes : List UInt8) : List Bool :=
  bytes.flatMap fun b => bitsOfNat 8 b.toNat

@[simp] theorem bitsOfBytes_nil : bitsOfBytes [] = [] := rfl

@[simp] theorem bitsOfBytes_cons (b : UInt8) (bytes : List UInt8) :
    bitsOfBytes (b :: bytes) = bitsOfNat 8 b.toNat ++ bitsOfBytes bytes := rfl

@[simp] theorem bitsOfBytes_append (xs ys : List UInt8) :
    bitsOfBytes (xs ++ ys) = bitsOfBytes xs ++ bitsOfBytes ys := by
  simp [bitsOfBytes]

@[simp] theorem length_bitsOfBytes (bytes : List UInt8) :
    (bitsOfBytes bytes).length = 8 * bytes.length := by
  induction bytes with
  | nil => rfl
  | cons b bytes ih =>
    simp only [bitsOfBytes_cons, List.length_append, length_bitsOfNat, ih, List.length_cons]
    ring

theorem drop_bitsOfBytes (bytes : List UInt8) (i : ℕ) :
    (bitsOfBytes bytes).drop (8 * i) = bitsOfBytes (bytes.drop i) := by
  induction i generalizing bytes with
  | zero => rfl
  | succ i ih =>
    cases bytes with
    | nil => simp
    | cons b bytes =>
      rw [bitsOfBytes_cons, List.drop_append, List.drop_eq_nil_of_le (by simp),
        List.nil_append, length_bitsOfNat, Nat.mul_succ, Nat.add_sub_cancel, ih,
        List.drop_succ_cons]

theorem take_bitsOfBytes (bytes : List UInt8) (i : ℕ) :
    (bitsOfBytes bytes).take (8 * i) = bitsOfBytes (bytes.take i) := by
  have h := congrArg bitsOfBytes (List.take_append_drop i bytes)
  rw [bitsOfBytes_append, ← drop_bitsOfBytes] at h
  exact List.append_cancel_right ((List.take_append_drop _ _).trans h.symm)

theorem bitsOfBytes_replicate_zero (k : ℕ) :
    bitsOfBytes (List.replicate k 0) = List.replicate (8 * k) false := by
  induction k with
  | zero => rfl
  | succ k ih =>
    rw [List.replicate_succ, bitsOfBytes_cons, ih, UInt8.toNat_zero, bitsOfNat_zero,
      List.replicate_append_replicate]
    congr 1
    ring

/-- Cuts a bit string into bytes; a last incomplete byte is dropped. -/
def bytesOfBits : List Bool → List UInt8
  | b₇ :: b₆ :: b₅ :: b₄ :: b₃ :: b₂ :: b₁ :: b₀ :: bs =>
    UInt8.ofNat (natOfBits [b₇, b₆, b₅, b₄, b₃, b₂, b₁, b₀]) :: bytesOfBits bs
  | _ => []

theorem bytesOfBits_bitsOfNat_append (b : UInt8) (bs : List Bool) :
    bytesOfBits (bitsOfNat 8 b.toNat ++ bs) = b :: bytesOfBits bs := by
  change UInt8.ofNat (natOfBits (bitsOfNat 8 b.toNat)) :: bytesOfBits bs = b :: bytesOfBits bs
  rw [natOfBits_bitsOfNat_of_lt b.toNat_lt, UInt8.ofNat_toNat]

@[simp] theorem bytesOfBits_bitsOfBytes (bytes : List UInt8) :
    bytesOfBits (bitsOfBytes bytes) = bytes := by
  induction bytes with
  | nil => rfl
  | cons b bytes ih => rw [bitsOfBytes_cons, bytesOfBits_bitsOfNat_append, ih]

/-- Whole bytes are cut without loss. -/
theorem bitsOfBytes_bytesOfBits {bs : List Bool} (h : 8 ∣ bs.length) :
    bitsOfBytes (bytesOfBits bs) = bs := by
  fun_induction bytesOfBits bs with
  | case1 b₇ b₆ b₅ b₄ b₃ b₂ b₁ b₀ bs ih =>
    have hbits : bitsOfNat 8 (natOfBits [b₇, b₆, b₅, b₄, b₃, b₂, b₁, b₀]) =
        [b₇, b₆, b₅, b₄, b₃, b₂, b₁, b₀] := bitsOfNat_natOfBits [b₇, b₆, b₅, b₄, b₃, b₂, b₁, b₀]
    have hrest : 8 ∣ bs.length := by
      simp only [List.length_cons] at h
      omega
    rw [bitsOfBytes_cons, UInt8.toNat_ofNat', bitsOfNat_mod le_rfl, hbits, ih hrest]
    rfl
  | case2 bs hshort =>
    match bs, hshort, h with
    | [], _, _ => rfl
    | [_], _, h => simp at h
    | [_, _], _, h => simp at h
    | [_, _, _], _, h => simp at h
    | [_, _, _, _], _, h => simp at h
    | [_, _, _, _, _], _, h => simp at h
    | [_, _, _, _, _, _], _, h => simp at h
    | [_, _, _, _, _, _, _], _, h => simp at h
    | b₇ :: b₆ :: b₅ :: b₄ :: b₃ :: b₂ :: b₁ :: b₀ :: bs, hshort, _ =>
      exact absurd rfl (hshort b₇ b₆ b₅ b₄ b₃ b₂ b₁ b₀ bs)

@[simp] theorem length_bytesOfBits (bs : List Bool) :
    (bytesOfBits bs).length = bs.length / 8 := by
  fun_induction bytesOfBits bs with
  | case1 b₇ b₆ b₅ b₄ b₃ b₂ b₁ b₀ bs ih =>
    simp only [List.length_cons, ih]
    omega
  | case2 bs hshort =>
    have hlt : bs.length < 8 := by
      by_contra hge
      match bs, hshort with
      | b₇ :: b₆ :: b₅ :: b₄ :: b₃ :: b₂ :: b₁ :: b₀ :: bs, hshort =>
        exact hshort b₇ b₆ b₅ b₄ b₃ b₂ b₁ b₀ bs rfl
      | [], _ | [_], _ | [_, _], _ | [_, _, _], _ | [_, _, _, _], _ | [_, _, _, _, _], _
      | [_, _, _, _, _, _], _ | [_, _, _, _, _, _, _], _ => exact hge (by simp)
    rw [Nat.div_eq_of_lt hlt]
    rfl

/-- Whole bytes in front are cut on their own. -/
theorem bytesOfBits_append {bs cs : List Bool} (h : 8 ∣ bs.length) :
    bytesOfBits (bs ++ cs) = bytesOfBits bs ++ bytesOfBits cs := by
  have hbytes := bitsOfBytes_bytesOfBits h
  generalize bytesOfBits bs = bytes at hbytes
  subst hbytes
  induction bytes with
  | nil => rfl
  | cons b bytes ih =>
    have hrest := ih (by rw [length_bitsOfBytes]; exact Nat.dvd_mul_right 8 _)
    rw [bitsOfBytes_cons, List.append_assoc, bytesOfBits_bitsOfNat_append, hrest,
      List.cons_append]

theorem bitsOfBytes_injective {xs ys : List UInt8} (h : bitsOfBytes xs = bitsOfBytes ys) :
    xs = ys := by
  rw [← bytesOfBits_bitsOfBytes xs, h, bytesOfBits_bitsOfBytes]

end Codec

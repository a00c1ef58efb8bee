import V3C.Bitstream.PCCBitstream
import V3C.Codec.ExpGolomb

/-! The syntax element descriptors u(v), ue(v) and se(v), on bit strings. -/
namespace V3C
open Codec

/-- `write( value, n )`: the low `n` bits of a 32-bit value. -/
def write (value n : ℕ) : Writer Unit :=
  if n ≤ 32 then Writer.put (bitsOfNat n value) else Writer.fail

def read (n : ℕ) : Reader ℕ :=
  if n ≤ 32 then do
    let bs ← Reader.take n
    pure (natOfBits bs)
  else Reader.fail

def writeFlag (value : Bool) : Writer Unit := write value.toNat 1

def readFlag : Reader Bool := do
  let code ← read 1
  pure (code != 0)

/-- The loop of `writeUvlc` that halves `temp` until it is one. Zero is never left. -/
def uvlcLength : ℕ → ℕ → ℕ → Option ℕ
  | 0, _, _ => none
  | fuel + 1, temp, length =>
    if temp = 1 then some length else uvlcLength fuel (temp >>> 1) (length + 2)

/-- `writeUvlc( value )` for a 32-bit value; `++code` wraps to zero at the largest one. -/
def writeUvlc (value : ℕ) : Writer Unit :=
  let code := (value % 2 ^ 32 + 1) % 2 ^ 32
  match uvlcLength 32 code 1 with
  | none => Writer.fail
  | some length => do
    write 0 (length >>> 1)
    write code ((length + 1) >>> 1)

/-- A prefix of 32 zeros or more would shift a 32-bit value by 32. -/
def readUvlc : Reader ℕ := do
  let length ← Reader.zeros
  if length < 32 then do
    let value ← read length
    pure ((value + 2 ^ length - 1) % 2 ^ 32)
  else Reader.fail

/-- `( uint32_t )( code <= 0 ? -code << 1 : ( code << 1 ) - 1 )` for the value as an `int`. -/
def writeSvlc (value : ℤ) : Writer Unit :=
  let code := Int.bmod value (2 ^ 32)
  writeUvlc ((if code ≤ 0 then -code * 2 else code * 2 - 1) % 2 ^ 32).toNat

def readSvlc : Reader ℤ := do
  let bits ← readUvlc
  pure (if bits &&& 1 ≠ 0 then (bits >>> 1 : ℕ) + 1 else -(bits >>> 1 : ℕ))

theorem uvlcLength_eq {temp : ℕ} (htemp : 0 < temp) (fuel length : ℕ) (h : temp < 2 ^ fuel) :
    uvlcLength fuel temp length = some (length + 2 * Nat.log2 temp) := by
  induction fuel generalizing temp length with
  | zero => simp at h; omega
  | succ fuel ih =>
    unfold uvlcLength
    split_ifs with h1
    · subst h1
      rfl
    · have hhalf : temp >>> 1 = temp / 2 := by simp [Nat.shiftRight_eq_div_pow]
      rw [hhalf, ih (by omega) (length + 2) (by rw [pow_succ] at h; omega)]
      conv_rhs => rw [Nat.log2_def, if_pos (by omega)]
      congr 1
      omega

theorem writeUvlc_eq {value : ℕ} (h : value + 1 < 2 ^ 32) :
    writeUvlc value = Writer.expGolomb value := by
  have hcode : (value % 2 ^ 32 + 1) % 2 ^ 32 = value + 1 := by omega
  have hlog : Nat.log2 (value + 1) < 32 := (Nat.log2_lt (by omega)).mpr h
  unfold writeUvlc
  simp only [hcode, uvlcLength_eq (Nat.succ_pos value) 32 1 h]
  funext p
  have h₁ : (1 + 2 * Nat.log2 (value + 1)) >>> 1 = Nat.log2 (value + 1) := by
    rw [Nat.shiftRight_eq_div_pow]
    omega
  have h₂ : (1 + 2 * Nat.log2 (value + 1) + 1) >>> 1 = Nat.log2 (value + 1) + 1 := by
    rw [Nat.shiftRight_eq_div_pow]
    omega
  rw [h₁, h₂, write, write, if_pos hlog.le, if_pos (Nat.succ_le_of_lt hlog), bitsOfNat_zero]
  rfl

theorem readUvlc_eq_of_expGolomb {c c' : Cursor} {v : ℕ} (hv : v + 1 < 2 ^ 32)
    (h : Reader.expGolomb c = some (v, c')) : readUvlc c = some (v, c') := by
  obtain ⟨n, c₁, hz, h⟩ := Reader.bind_run_eq_some.mp h
  obtain ⟨bs, c₂, ht, h⟩ := Reader.bind_run_eq_some.mp h
  obtain ⟨rfl, rfl⟩ := Prod.mk.inj (Option.some.inj h)
  have hn : n < 32 := by
    by_contra hge
    have : 2 ^ 32 ≤ 2 ^ n := Nat.pow_le_pow_right (by omega) (not_lt.mp hge)
    omega
  refine Reader.bind_run_eq_some.mpr ⟨n, c₁, hz, ?_⟩
  rw [if_pos hn, V3C.read, if_pos hn.le]
  refine Reader.bind_run_eq_some.mpr ⟨natOfBits bs, c₂, ?_, ?_⟩
  · exact Reader.bind_run_eq_some.mpr ⟨bs, c₂, ht, rfl⟩
  · have := Nat.two_pow_pos n
    rw [show natOfBits bs + 2 ^ n - 1 = 2 ^ n + natOfBits bs - 1 by omega,
      Nat.mod_eq_of_lt (by omega), Reader.pure_run]

end V3C

namespace Codec.RoundTrip
open V3C

theorem write {value n : ℕ} (h : value < 2 ^ n) (hn : n ≤ 32) :
    RoundTrip (V3C.write value n) (read n) value := by
  rw [V3C.write, if_pos hn, V3C.read, if_pos hn]
  have hput := put_take (bitsOfNat n value)
  rw [length_bitsOfNat] at hput
  exact hput.last (natOfBits_bitsOfNat_of_lt h)

/-- A value that is too large loses its high bits. -/
theorem write_mod {value n : ℕ} (hn : n ≤ 32) :
    RoundTrip (V3C.write value n) (read n) (value % 2 ^ n) := by
  rw [V3C.write, if_pos hn, V3C.read, if_pos hn]
  have hput := put_take (bitsOfNat n value)
  rw [length_bitsOfNat] at hput
  exact hput.last (natOfBits_bitsOfNat n value)

theorem flag (b : Bool) : RoundTrip (writeFlag b) readFlag b :=
  (write (by cases b <;> decide) (by decide)).last (by cases b <;> rfl)

theorem uvlc {value : ℕ} (h : value + 1 < 2 ^ 32) :
    RoundTrip (writeUvlc value) readUvlc value := by
  intro p
  obtain ⟨bs, hw, hr⟩ := RoundTrip.expGolomb value p
  exact ⟨bs, by rw [writeUvlc_eq h, hw], fun rest => readUvlc_eq_of_expGolomb h (hr rest)⟩

theorem svlc {z : ℤ} (hlow : -2 ^ 31 < z) (hhigh : z < 2 ^ 31) :
    RoundTrip (writeSvlc z) readSvlc z := by
  have hint : Int.bmod z (2 ^ 32) = z := Int.bmod_eq_of_le (by omega) (by omega)
  have hcode : ((if z ≤ 0 then -z * 2 else z * 2 - 1) % 2 ^ 32).toNat = zigzag z := by
    unfold zigzag
    split_ifs <;> omega
  have hlt : zigzag z + 1 < 2 ^ 32 := by
    unfold zigzag
    split_ifs <;> omega
  unfold V3C.writeSvlc
  simp only [hint, hcode]
  refine (uvlc hlt).last ?_
  rw [Nat.and_one_is_mod, Nat.shiftRight_eq_div_pow, pow_one]
  conv_rhs => rw [← unzigzag_zigzag z, unzigzag]
  rcases Nat.mod_two_eq_zero_or_one (zigzag z) with h | h <;> simp [h]

end Codec.RoundTrip

namespace Codec.Writer.Sized
open V3C

theorem write (value n : ℕ) : Writer.Sized (V3C.write value n) n := by
  unfold V3C.write
  split_ifs
  · have hput := Sized.put (bitsOfNat n value)
    rwa [length_bitsOfNat] at hput
  · intro p bs h
    cases h

theorem flag (value : Bool) : Writer.Sized (writeFlag value) 1 := write value.toNat 1

end Codec.Writer.Sized

namespace V3C
open Codec

namespace PCCBitstream

/-- `f` appends to a bitstream the bits `w` describes. -/
def Implements (f : PCCBitstream → Option PCCBitstream) (w : Writer Unit) : Prop :=
  ∀ s bs cs, Holds s bs → w (advance 0 bs.length) = some ((), cs) →
    ∃ s', f s = some s' ∧ Holds s' (bs ++ cs)

theorem implements_write (value n : ℕ) :
    Implements (PCCBitstream.write value n) (V3C.write value n) := by
  intro s bs cs h hw
  unfold V3C.write at hw
  split_ifs at hw with hn
  · obtain ⟨-, rfl⟩ := Prod.mk.inj (Option.some.inj hw)
    exact write_holds value hn h
  · simp [Writer.fail] at hw

theorem Implements.bind {f g : PCCBitstream → Option PCCBitstream} {w w' : Writer Unit}
    (hf : Implements f w) (hg : Implements g w') :
    Implements (fun s => (f s).bind g) (w >>= fun _ => w') := by
  intro s bs ds h hw
  obtain ⟨⟨⟩, cs, cs', hw₁, hw', rfl⟩ := Writer.bind_run_eq_some.mp hw
  obtain ⟨s₁, hs₁, h₁⟩ := hf s bs cs h hw₁
  rw [advance_advance, ← List.length_append] at hw'
  obtain ⟨s₂, hs₂, h₂⟩ := hg s₁ (bs ++ cs) cs' h₁ hw'
  exact ⟨s₂, by simp [hs₁, hs₂], by rwa [← List.append_assoc]⟩

/-- `f` takes from a bitstream what `r` takes from its remaining bits. -/
def Parses {α : Type} (f : PCCBitstream → Option (α × PCCBitstream)) (r : Reader α) : Prop :=
  ∀ s a c, s.bits < 8 → r s.cursor = some (a, c) →
    ∃ s', f s = some (a, s') ∧ s'.cursor = c ∧ s'.bits < 8

theorem parses_read (n : ℕ) : Parses (PCCBitstream.read n) (V3C.read n) := by
  intro s a c hs h
  unfold V3C.read at h
  split_ifs at h with hn
  · obtain ⟨bs, c', ht, h⟩ := Reader.bind_run_eq_some.mp h
    obtain ⟨rfl, rfl⟩ := Prod.mk.inj (Option.some.inj h)
    exact read_cursor hn hs ht
  · simp [Reader.fail] at h

end PCCBitstream

end V3C

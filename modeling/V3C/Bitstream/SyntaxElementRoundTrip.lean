import V3C.Bitstream.SyntaxElementRefinement

/-! A sequence of syntax elements is read back exactly when each of its values has a code. -/
namespace V3C
open Codec

/-- A number of `k + 1` bits whose top bit is set, extended with ones to 32 bits. -/
private theorem or_high_ones {k r : ℕ} (hk : k < 32) (hr : r < 2 ^ k) :
    (2 ^ k + r) ||| (2 ^ 32 - 2 ^ k) = 2 ^ 32 - 2 ^ k + r := by
  have hsplit : (2 : ℕ) ^ 32 = 2 ^ (32 - k) * 2 ^ k := by
    rw [← pow_add]
    congr 1
    omega
  have hhigh : 2 ^ 32 - 2 ^ k = (2 ^ (32 - k) - 1) <<< k := by
    rw [Nat.shiftLeft_eq, Nat.sub_mul, one_mul, ← hsplit]
  have hlow : 2 ^ k + r = 1 <<< k ||| r := by
    rw [← Nat.shiftLeft_add_eq_or_of_lt hr, Nat.shiftLeft_eq, one_mul]
  have hodd : 1 ||| (2 ^ (32 - k) - 1) = 2 ^ (32 - k) - 1 := by
    apply Nat.eq_of_testBit_eq
    intro i
    rw [Nat.testBit_or, Nat.testBit_two_pow_sub_one]
    by_cases hi : i = 0
    · subst hi
      have hpos : 0 < 32 - k := by omega
      rw [decide_eq_true hpos, Bool.or_true]
    · have hone : Nat.testBit 1 i = false :=
        Nat.testBit_lt_two_pow (Nat.one_lt_two_pow hi)
      rw [hone, Bool.false_or]
  rw [hhigh, hlow, Nat.or_right_comm, ← Nat.shiftLeft_or_distrib, hodd,
    Nat.shiftLeft_add_eq_or_of_lt hr]

private theorem bmod_high {p r : ℕ} (hp : p ≤ 2 ^ 31) (hr : r < p) :
    Int.bmod ((2 ^ 32 - p + r : ℕ) : ℤ) (2 ^ 32) = (r : ℤ) - p := by
  have hrest : ((2 ^ 32 - p + r : ℕ) : ℤ) = ((r : ℤ) - p) + 1 * ((2 ^ 32 : ℕ) : ℤ) := by
    omega
  rw [hrest, one_mul, Int.add_bmod_right]
  exact Int.bmod_eq_of_le (by omega) (by omega)

/-- A code is read as a number in two's complement. -/
theorem signedValue_eq {code bits : ℕ} (hbits : 1 ≤ bits) (hle : bits ≤ 32)
    (hcode : code < 2 ^ bits) :
    signedValue code bits = if code < 2 ^ (bits - 1) then (code : ℤ) else code - 2 ^ bits := by
  obtain ⟨k, rfl⟩ : ∃ k, bits = k + 1 := ⟨bits - 1, by omega⟩
  unfold signedValue
  simp only [Nat.add_sub_cancel]
  split_ifs with hlow
  · rfl
  · have hpow : 2 ^ k ≤ 2 ^ 31 := Nat.pow_le_pow_right (by omega) (by omega)
    rw [pow_succ] at hcode
    obtain ⟨r, rfl⟩ : ∃ r, code = 2 ^ k + r := ⟨code - 2 ^ k, by omega⟩
    rw [or_high_ones (by omega) (by omega), bmod_high hpow (by omega), pow_succ]
    push_cast
    ring

theorem signedValue_mem {code bits : ℕ} (hbits : 1 ≤ bits) (hle : bits ≤ 32)
    (hcode : code < 2 ^ bits) :
    -2 ^ (bits - 1) ≤ signedValue code bits ∧ signedValue code bits < 2 ^ (bits - 1) := by
  rw [signedValue_eq hbits hle hcode]
  obtain ⟨k, rfl⟩ : ∃ k, bits = k + 1 := ⟨bits - 1, by omega⟩
  simp only [Nat.add_sub_cancel, pow_succ] at *
  have hcast : ((2 ^ k : ℕ) : ℤ) = 2 ^ k := by push_cast; rfl
  rw [← hcast]
  split_ifs <;> constructor <;> omega

theorem signedValue_signedCode {value : ℤ} {bits : ℕ} (hbits : 1 ≤ bits) (hle : bits ≤ 32)
    (hlow : -2 ^ (bits - 1) ≤ value) (hhigh : value < 2 ^ (bits - 1)) :
    signedCode value bits < 2 ^ bits ∧ signedValue (signedCode value bits) bits = value := by
  obtain ⟨k, rfl⟩ : ∃ k, bits = k + 1 := ⟨bits - 1, by omega⟩
  simp only [Nat.add_sub_cancel] at *
  have hcast : ((2 ^ k : ℕ) : ℤ) = 2 ^ k := by push_cast; rfl
  have hdouble : (2 : ℕ) ^ (k + 1) = 2 * 2 ^ k := pow_succ' 2 k
  by_cases hsign : 0 ≤ value
  · have hcode : signedCode value (k + 1) = value.toNat := if_pos hsign
    have hlt : value.toNat < 2 ^ k := by omega
    refine ⟨by omega, ?_⟩
    rw [hcode, signedValue_eq hbits hle (by omega), Nat.add_sub_cancel, if_pos hlt]
    omega
  · have hres : value % 2 ^ k = value + 2 ^ k := by
      rw [← Int.add_emod_right, Int.emod_eq_of_lt (by omega) (by omega)]
    have hcode : signedCode value (k + 1) = 2 ^ k + (value + 2 ^ k).toNat := by
      have hlt : (value + 2 ^ k).toNat < 2 ^ k := by omega
      rw [signedCode, if_neg hsign, Nat.add_sub_cancel, hres, Nat.or_comm]
      conv_rhs => rw [← one_mul (2 ^ k), ← Nat.shiftLeft_eq, Nat.shiftLeft_add_eq_or_of_lt hlt]
      rw [Nat.shiftLeft_eq, one_mul]
    refine ⟨by omega, ?_⟩
    rw [hcode, signedValue_eq hbits hle (by omega), Nat.add_sub_cancel, if_neg (by omega),
      pow_succ]
    omega

end V3C

namespace Codec.RoundTrip
open V3C

theorem signed {value : ℤ} {bits : ℕ} (hbits : 1 ≤ bits) (hle : bits ≤ 32)
    (hlow : -2 ^ (bits - 1) ≤ value) (hhigh : value < 2 ^ (bits - 1)) :
    RoundTrip (writeS value bits) (readS bits) value := by
  obtain ⟨hcode, hvalue⟩ := signedValue_signedCode hbits hle hlow hhigh
  rw [writeS, if_pos (by omega), readS, if_pos (by omega)]
  exact (write hcode hle).last hvalue

/-- What is read of any number of a descriptor's width. -/
theorem signed_mod (value : ℤ) {bits : ℕ} (hbits : 1 ≤ bits) (hle : bits ≤ 32) :
    RoundTrip (writeS value bits) (readS bits)
      (signedValue (signedCode value bits % 2 ^ bits) bits) := by
  rw [writeS, if_pos (by omega), readS, if_pos (by omega)]
  exact (write_mod hle).last rfl

/-- The smallest number is negated to itself and its double wraps to zero. -/
theorem svlc_min : RoundTrip (writeSvlc (-2 ^ 31)) readSvlc 0 := by
  have hcode : writeSvlc (-2 ^ 31) = writeUvlc 0 := rfl
  rw [hcode]
  exact (uvlc (by decide)).last rfl

theorem padding : RoundTrip writePadding readPadding () := by
  intro p
  refine ⟨List.replicate ((8 - p.val) % 8) false, rfl, fun rest => ?_⟩
  have htake := put_take (List.replicate ((8 - p.val) % 8) false)
  rw [List.length_replicate] at htake
  have hread := htake.read_of_write (p := p) rfl rest
  exact Reader.bind_run_eq_some.mpr ⟨p, _, rfl, Reader.bind_run_eq_some.mpr ⟨_, _, hread, rfl⟩⟩

end Codec.RoundTrip

namespace V3C
open Codec

theorem read_eight_run (b : UInt8) (p : Phase) (rest : List Bool) :
    read 8 ⟨p, bitsOfNat 8 b.toNat ++ rest⟩ = some (b.toNat, ⟨p, rest⟩) := by
  have hwrite : write b.toNat 8 p = some ((), bitsOfNat 8 b.toNat) := rfl
  have hread := (RoundTrip.write b.toNat_lt (by decide)).read_of_write hwrite rest
  rwa [length_bitsOfNat, show (8 : ℕ) = 8 * 1 from rfl, advance_eight_mul] at hread

/-- The characters before the first zero are read, and the zero is taken. -/
theorem readChars_run {str : List UInt8} (hstr : 0 ∉ str) (p : Phase) (fuel : ℕ)
    (hfuel : str.length < fuel) (rest : List Bool) :
    readChars fuel ⟨p, bitsOfBytes str ++ (bitsOfNat 8 (0 : UInt8).toNat ++ rest)⟩ =
      some (str, ⟨p, rest⟩) := by
  induction str generalizing fuel with
  | nil =>
    obtain ⟨fuel, rfl⟩ : ∃ k, fuel = k + 1 := ⟨fuel - 1, by simp at hfuel; omega⟩
    exact Reader.bind_run_eq_some.mpr ⟨0, _, read_eight_run 0 p rest, rfl⟩
  | cons b str ih =>
    obtain ⟨fuel, rfl⟩ : ∃ k, fuel = k + 1 := ⟨fuel - 1, by simp at hfuel; omega⟩
    have hb : b.toNat ≠ 0 := by
      intro hzero
      have : b = 0 := UInt8.toNat_inj.mp hzero
      exact hstr (this ▸ List.mem_cons_self)
    have hrest := ih (fun h => hstr (List.mem_cons_of_mem b h)) fuel (by simpa using hfuel)
    rw [bitsOfBytes_cons, List.append_assoc]
    refine Reader.bind_run_eq_some.mpr ⟨b.toNat, _, read_eight_run b p _, ?_⟩
    rw [if_neg hb]
    refine Reader.bind_run_eq_some.mpr ⟨str, _, hrest, ?_⟩
    rw [UInt8.ofNat_toNat]
    rfl

theorem forEach_chars_run (str : List UInt8) (p : Phase) :
    Writer.forEach str (fun element => write element.toNat 8) p = some ((), bitsOfBytes str) := by
  induction str generalizing p with
  | nil => rfl
  | cons b str ih =>
    rw [Writer.forEach_cons, bitsOfBytes_cons]
    exact Writer.bind_run_eq_some.mpr ⟨(), _, _, rfl, ih _, rfl⟩

/-- The bits of a string: a filled byte, the characters and a zero. -/
theorem writeString_run (str : List UInt8) (p : Phase) :
    writeString str p = some ((), List.replicate ((8 - p.val) % 8) false ++
      (bitsOfBytes str ++ bitsOfNat 8 (0 : UInt8).toNat)) :=
  Writer.bind_run_eq_some.mpr ⟨(), _, _, rfl,
    Writer.bind_run_eq_some.mpr ⟨(), _, _, forEach_chars_run str _, rfl, rfl⟩, rfl⟩

theorem advance_padding (p : Phase) : advance p ((8 - p.val) % 8) = 0 := by
  apply Fin.ext
  have := p.isLt
  simp only [advance, Fin.val_zero]
  omega

/-- Reading a string back stops at its first zero. -/
theorem readString_run {str : List UInt8} (hstr : 0 ∉ str) (p : Phase) (rest : List Bool) :
    readString ⟨p, List.replicate ((8 - p.val) % 8) false ++
      (bitsOfBytes str ++ (bitsOfNat 8 (0 : UInt8).toNat ++ rest))⟩ = some (str, ⟨0, rest⟩) := by
  have hpadding := RoundTrip.padding.read_of_write (p := p) rfl
    (bitsOfBytes str ++ (bitsOfNat 8 (0 : UInt8).toNat ++ rest))
  rw [List.length_replicate, advance_padding] at hpadding
  refine Reader.bind_run_eq_some.mpr ⟨(), _, hpadding, ?_⟩
  refine Reader.bind_run_eq_some.mpr ⟨_, _, rfl, readChars_run hstr 0 _ ?_ rest⟩
  simp only [List.length_append, length_bitsOfBytes, length_bitsOfNat]
  omega

end V3C

namespace Codec.RoundTrip
open V3C

theorem string {str : List UInt8} (hstr : 0 ∉ str) :
    RoundTrip (writeString str) readString str := by
  intro p
  refine ⟨_, writeString_run str p, fun rest => ?_⟩
  rw [List.append_assoc, List.append_assoc, readString_run hstr]
  simp only [List.length_append, List.length_replicate, length_bitsOfBytes, length_bitsOfNat]
  rw [← advance_advance, advance_padding, show 8 * str.length + 8 = 8 * (str.length + 1) by ring,
    advance_eight_mul]

end Codec.RoundTrip

namespace Codec

variable {α β : Type}

/-- `r` reads `x` from the bits of `w`, wherever it stops. -/
def Yields (w : Writer Unit) (r : Reader α) (x : α) : Prop :=
  ∀ p bs, w p = some ((), bs) → ∀ rest, ∃ c, r ⟨p, bs ++ rest⟩ = some (x, c)

theorem RoundTrip.yields {w : Writer Unit} {r : Reader α} {x : α} (h : RoundTrip w r x) :
    Yields w r x :=
  fun _ _ hw rest => ⟨_, h.read_of_write hw rest⟩

theorem Yields.map {w : Writer Unit} {r : Reader α} {x : α} (f : α → β) (h : Yields w r x) :
    Yields w (r >>= fun a => pure (f a)) (f x) := by
  intro p bs hw rest
  obtain ⟨c, hr⟩ := h p bs hw rest
  exact ⟨c, Reader.bind_run_eq_some.mpr ⟨x, c, hr, rfl⟩⟩

end Codec

namespace V3C
open Codec

/-- The halving loop of `writeUvlc` never leaves the code that wrapped to zero. -/
theorem uvlcLength_zero (fuel length : ℕ) : uvlcLength fuel 0 length = none := by
  induction fuel generalizing length with
  | zero => rfl
  | succ fuel ih =>
    unfold uvlcLength
    rw [if_neg (by decide), Nat.zero_shiftRight, ih]

namespace SyntaxElement

/-- The values that a descriptor can carry. -/
def HasCode : SyntaxElement → Prop
  | u _ _ => True
  | ue value => value.toNat ≠ 2 ^ 32 - 1
  | se value => value.toInt ≠ -2 ^ 31
  | s bits value => -2 ^ (bits - 1) ≤ value.toInt ∧ value.toInt < 2 ^ (bits - 1)
  | st str => 0 ∉ str

theorem roundTrip {e : SyntaxElement} (hadm : e.Admissible) (hcode : e.HasCode) :
    RoundTrip e.write e.descriptor.read e := by
  cases e with
  | u n value =>
    apply (RoundTrip.write hadm.2.2 hadm.2.1).last
    rw [UInt32.ofNat_toNat]
  | ue value =>
    have hlt := value.toNat_lt
    have hne : value.toNat ≠ 2 ^ 32 - 1 := hcode
    apply (RoundTrip.uvlc (by omega)).last
    rw [UInt32.ofNat_toNat]
  | se value =>
    have hlow := value.le_toInt
    have hhigh := value.toInt_lt
    have hne : value.toInt ≠ -2 ^ 31 := hcode
    apply (RoundTrip.svlc (by omega) hhigh).last
    rw [Int32.ofInt_toInt]
  | s bits value =>
    apply (RoundTrip.signed hadm.1 hadm.2 hcode.1 hcode.2).last
    rw [Int32.ofInt_toInt]
  | st str => exact (RoundTrip.string hcode).map SyntaxElement.st

theorem writeUvlc_max {value : UInt32} (h : ¬ value.toNat ≠ 2 ^ 32 - 1) (p : Phase) :
    writeUvlc value.toNat p = none := by
  rw [not_not.mp h]
  exact congrFun (show writeUvlc (2 ^ 32 - 1) = Writer.fail from rfl) p

/-- Another value is read for one that has no code, unless writing it never ends. -/
theorem yields_other {e : SyntaxElement} (hadm : e.Admissible) (hcode : ¬ e.HasCode) :
    ∃ x ≠ e, Yields e.write e.descriptor.read x := by
  cases e with
  | u n value => exact absurd trivial hcode
  | ue value =>
    refine ⟨.st [], by simp, ?_⟩
    intro p bs hw
    rw [SyntaxElement.write, writeUvlc_max hcode p] at hw
    cases hw
  | se value =>
    have hmin : value.toInt = -2 ^ 31 := not_not.mp hcode
    refine ⟨.se (Int32.ofInt 0), ?_, ?_⟩
    · intro heq
      cases heq
      exact absurd hmin (by decide)
    · rw [SyntaxElement.write, hmin]
      exact RoundTrip.svlc_min.yields.map fun value => SyntaxElement.se (Int32.ofInt value)
  | s bits value =>
    have hread := RoundTrip.signed_mod value.toInt hadm.1 hadm.2
    have hmem := signedValue_mem hadm.1 hadm.2
      (Nat.mod_lt (signedCode value.toInt bits) (Nat.two_pow_pos bits))
    refine ⟨_, ?_, hread.yields.map fun value => SyntaxElement.s bits (Int32.ofInt value)⟩
    intro heq
    obtain ⟨-, hvalue⟩ := SyntaxElement.s.inj heq
    have hpow : (2 : ℤ) ^ (bits - 1) ≤ 2 ^ 31 :=
      pow_le_pow_right₀ (by decide) (by have := hadm.2; omega)
    rw [← hvalue] at hcode
    apply hcode
    have hint := @Int32.toInt_ofInt_of_le
      (signedValue (signedCode value.toInt bits % 2 ^ bits) bits) (by omega) (by omega)
    simp only [HasCode, hint]
    exact hmem
  | st str =>
    obtain ⟨pre, post, rfl, hpre⟩ := List.eq_append_cons_of_mem (not_not.mp hcode)
    refine ⟨.st pre, ?_, ?_⟩
    · intro heq
      have hlen := congrArg List.length (SyntaxElement.st.inj heq)
      simp at hlen
    · intro p bs hw rest
      rw [SyntaxElement.write, writeString_run] at hw
      obtain ⟨-, rfl⟩ := Prod.mk.inj (Option.some.inj hw)
      have hread := readString_run hpre p
        (bitsOfBytes post ++ (bitsOfNat 8 (0 : UInt8).toNat ++ rest))
      simp only [bitsOfBytes_append, bitsOfBytes_cons, List.append_assoc] at hread ⊢
      exact ⟨_, Reader.bind_run_eq_some.mpr ⟨pre, _, hread, rfl⟩⟩

end SyntaxElement

namespace PCCBitstream

/-- What a parser sees that is set back to where `bs` ended. -/
theorem Holds.cursor_setPosition {s s' : PCCBitstream} {bs rest : List Bool} (h : Holds s bs)
    (hdata : bitsOfBytes s'.data = bs ++ rest) :
    (s'.setPosition s.bytes s.bits).Within ∧
      (s'.setPosition s.bytes s.bits).cursor = ⟨advance 0 bs.length, rest⟩ := by
  have hlen := h.length_eq
  have hle := congrArg List.length hdata
  rw [length_bitsOfBytes, List.length_append] at hle
  constructor
  · constructor
    · exact h.bits_lt
    · change 8 * s.bytes + s.bits ≤ 8 * s'.data.length
      omega
  · have hphase : advance 0 bs.length = advance 0 s.bits := by
      rw [hlen, ← advance_advance, advance_eight_mul]
    have hdrop : (bitsOfBytes s'.data).drop (8 * s.bytes + s.bits) = rest := by
      rw [hdata, ← hlen, List.drop_left]
    rw [hphase]
    exact congrArg (Cursor.mk (advance 0 s.bits)) hdrop

theorem eq_of_cursor {s t : PCCBitstream} (hs : s.Within) (ht : t.Within)
    (hdata : s.data = t.data) (hcur : s.cursor = t.cursor) : s = t := by
  have hlen : s.cursor.rest.length = t.cursor.rest.length := by rw [hcur]
  simp only [cursor, List.length_drop, length_bitsOfBytes, hdata] at hlen
  have hs₁ := hs.bits_lt
  have hs₂ := hs.le_length
  have ht₁ := ht.bits_lt
  have ht₂ := ht.le_length
  rw [hdata] at hs₂
  have hbytes : s.bytes = t.bytes := by omega
  have hbits : s.bits = t.bits := by omega
  cases s
  cases t
  simp only [PCCBitstream.mk.injEq]
  exact ⟨hdata, hbytes, hbits⟩

/-- Reading from where something was written ends where the writing ended. -/
theorem read_written {α : Type} {f : PCCBitstream → Option (α × PCCBitstream)} {w : Writer Unit}
    {r : Reader α} {x : α} (hf : Follows f r) (hround : RoundTrip w r x) {s s₁ s' : PCCBitstream}
    {bs cs ds : List Bool} (h : Holds s bs) (hw : w (advance 0 bs.length) = some ((), cs))
    (h₁ : Holds s₁ (bs ++ cs)) (h' : Holds s' (bs ++ cs ++ ds)) :
    f (s'.setPosition s.bytes s.bits) = some (x, s'.setPosition s₁.bytes s₁.bits) := by
  obtain ⟨m, hm⟩ := h'.data_eq
  have hdata : bitsOfBytes s'.data = bs ++ (cs ++ (ds ++ List.replicate m false)) := by
    simpa only [List.append_assoc] using hm
  have hdata₁ : bitsOfBytes s'.data = bs ++ cs ++ (ds ++ List.replicate m false) := by
    simpa only [List.append_assoc] using hm
  obtain ⟨hwithin, hcur⟩ := h.cursor_setPosition hdata
  obtain ⟨hwithin₁, hcur₁⟩ := h₁.cursor_setPosition hdata₁
  have hread := hround.read_of_write hw (ds ++ List.replicate m false)
  rw [← hcur] at hread
  obtain ⟨t, ht, htcur, htwithin, htdata⟩ := hf _ _ _ hwithin hread
  have heq : t = s'.setPosition s₁.bytes s₁.bits := by
    apply eq_of_cursor htwithin hwithin₁ htdata
    rw [htcur, hcur₁, advance_advance, List.length_append]
  rw [ht, heq]

/-- What is read instead of a value without a code. -/
theorem read_other {α : Type} {f : PCCBitstream → Option (α × PCCBitstream)} {w : Writer Unit}
    {r : Reader α} {x : α} (hf : Follows f r) (hyields : Yields w r x) {s s' : PCCBitstream}
    {bs cs ds : List Bool} (h : Holds s bs) (hw : w (advance 0 bs.length) = some ((), cs))
    (h' : Holds s' (bs ++ cs ++ ds)) :
    ∃ t, f (s'.setPosition s.bytes s.bits) = some (x, t) := by
  obtain ⟨m, hm⟩ := h'.data_eq
  have hdata : bitsOfBytes s'.data = bs ++ (cs ++ (ds ++ List.replicate m false)) := by
    simpa only [List.append_assoc] using hm
  obtain ⟨hwithin, hcur⟩ := h.cursor_setPosition hdata
  obtain ⟨c, hread⟩ := hyields _ cs hw (ds ++ List.replicate m false)
  rw [← hcur] at hread
  obtain ⟨t, ht, -⟩ := hf _ _ _ hwithin hread
  exact ⟨t, ht⟩

/-- An element is written as its bits, or its writing never ends. -/
theorem writeElement_total {e : SyntaxElement} (hadm : e.Admissible) :
    (∀ p, ∃ cs, e.write p = some ((), cs)) ∨ ∀ s, writeElement e s = none := by
  by_cases hcode : e.HasCode
  · left
    intro p
    obtain ⟨cs, hw, -⟩ := SyntaxElement.roundTrip hadm hcode p
    exact ⟨cs, hw⟩
  · cases e with
    | u n value => exact absurd trivial hcode
    | ue value =>
      right
      intro s
      have hmax : (value.toNat % 2 ^ 32 + 1) % 2 ^ 32 = 0 := by
        rw [not_not.mp hcode]
        rfl
      simp only [writeElement, writeUvlc, hmax, uvlcLength_zero]
      rfl
    | se value =>
      left
      intro p
      obtain ⟨cs, hw, -⟩ := RoundTrip.svlc_min p
      refine ⟨cs, ?_⟩
      rw [SyntaxElement.write, not_not.mp hcode]
      exact hw
    | s bits value =>
      left
      intro p
      obtain ⟨cs, hw, -⟩ := RoundTrip.signed_mod value.toInt hadm.1 hadm.2 p
      exact ⟨cs, hw⟩
    | st str =>
      left
      intro p
      exact ⟨_, writeString_run str p⟩

theorem writeElement_holds {e : SyntaxElement} (hadm : e.Admissible) {s s' : PCCBitstream}
    {bs : List Bool} (h : Holds s bs) (hw : writeElement e s = some s') :
    ∃ cs, e.write (advance 0 bs.length) = some ((), cs) ∧ Holds s' (bs ++ cs) := by
  rcases writeElement_total hadm with htotal | hnone
  · obtain ⟨cs, hcs⟩ := htotal (advance 0 bs.length)
    obtain ⟨s₁, hw₁, h₁⟩ := implements_writeElement e s bs cs h hcs
    rw [hw] at hw₁
    obtain rfl := Option.some.inj hw₁
    exact ⟨cs, hcs, h₁⟩
  · rw [hnone s] at hw
    cases hw

theorem writeElements_holds {es : List SyntaxElement} (hadm : ∀ e ∈ es, e.Admissible)
    {s s' : PCCBitstream} {bs : List Bool} (h : Holds s bs)
    (hw : writeElements es s = some s') : ∃ cs, Holds s' (bs ++ cs) := by
  induction es generalizing s bs with
  | nil =>
    cases hw
    exact ⟨[], by simpa using h⟩
  | cons e es ih =>
    obtain ⟨s₁, hw₁, hw⟩ := Option.bind_eq_some_iff.mp hw
    obtain ⟨cs, -, h₁⟩ := writeElement_holds (hadm e List.mem_cons_self) h hw₁
    obtain ⟨ds, h₂⟩ := ih (fun e he => hadm e (List.mem_cons_of_mem _ he)) h₁ hw
    exact ⟨cs ++ ds, by rwa [← List.append_assoc]⟩

/-- Every write terminates, and reading from where `s` stands returns the elements and stops
where the last write stopped. -/
def Restores (s : PCCBitstream) (es : List SyntaxElement) : Prop :=
  ∃ s', writeElements es s = some s' ∧
    readElements (es.map SyntaxElement.descriptor) (s'.setPosition s.bytes s.bits) = some (es, s')

/-- The elements behind one with a code are restored from where it was written. -/
theorem restores_cons {s : PCCBitstream} {bs : List Bool} (h : Holds s bs) {e : SyntaxElement}
    {es : List SyntaxElement} (hadm : ∀ x ∈ e :: es, x.Admissible) (hcode : e.HasCode) :
    ∃ s₁ cs, Holds s₁ (bs ++ cs) ∧ (s.Restores (e :: es) ↔ s₁.Restores es) := by
  have hround := SyntaxElement.roundTrip (hadm e List.mem_cons_self) hcode
  obtain ⟨cs, hw, -⟩ := hround (advance 0 bs.length)
  obtain ⟨s₁, hw₁, h₁⟩ := implements_writeElement e s bs cs h hw
  refine ⟨s₁, cs, h₁, ?_⟩
  have hread {s' : PCCBitstream} (hw' : writeElements es s₁ = some s') :
      readElement e.descriptor (s'.setPosition s.bytes s.bits) =
        some (e, s'.setPosition s₁.bytes s₁.bits) := by
    obtain ⟨ds, h'⟩ := writeElements_holds (fun e he => hadm e (List.mem_cons_of_mem _ he)) h₁ hw'
    exact read_written (follows_readElement e.descriptor) hround h hw h₁ h'
  constructor
  · rintro ⟨s', hw', hread'⟩
    simp only [writeElements, hw₁, Option.bind_some] at hw'
    refine ⟨s', hw', ?_⟩
    simp only [List.map_cons, readElements, hread hw', Option.bind_some,
      Option.map_eq_some_iff] at hread'
    obtain ⟨⟨es', t⟩, hrest, heq⟩ := hread'
    obtain ⟨hes, rfl⟩ := Prod.mk.inj heq
    have htail : es' = es := (List.cons.inj hes).2
    rw [hrest, htail]
  · rintro ⟨s', hw', hread'⟩
    refine ⟨s', ?_, ?_⟩
    · simp only [writeElements, hw₁, Option.bind_some, hw']
    · simp only [List.map_cons, readElements, hread hw', Option.bind_some, hread',
        Option.map_some]

theorem not_restores_cons {s : PCCBitstream} {bs : List Bool} (h : Holds s bs)
    {e : SyntaxElement} {es : List SyntaxElement} (hadm : ∀ x ∈ e :: es, x.Admissible)
    (hcode : ¬ e.HasCode) : ¬ s.Restores (e :: es) := by
  rintro ⟨s', hw', hread⟩
  obtain ⟨s₁, hw₁, hw'⟩ := Option.bind_eq_some_iff.mp hw'
  obtain ⟨cs, hw, h₁⟩ := writeElement_holds (hadm e List.mem_cons_self) h hw₁
  obtain ⟨ds, h'⟩ := writeElements_holds (fun e he => hadm e (List.mem_cons_of_mem _ he)) h₁ hw'
  obtain ⟨x, hne, hyields⟩ := SyntaxElement.yields_other (hadm e List.mem_cons_self) hcode
  obtain ⟨t, ht⟩ := read_other (follows_readElement e.descriptor) hyields h hw h'
  simp only [List.map_cons, readElements, ht, Option.bind_some, Option.map_eq_some_iff] at hread
  obtain ⟨⟨es', t'⟩, -, heq⟩ := hread
  exact hne (List.cons.inj (Prod.mk.inj heq).1).1

/-- A sequence of writes is restored exactly when every value has a code. -/
theorem restores_iff {s : PCCBitstream} {bs : List Bool} (h : Holds s bs)
    {es : List SyntaxElement} (hadm : ∀ e ∈ es, e.Admissible) :
    s.Restores es ↔ ∀ e ∈ es, e.HasCode := by
  induction es generalizing s bs with
  | nil =>
    constructor
    · intro _ e he
      cases he
    · intro _
      exact ⟨s, rfl, rfl⟩
  | cons e es ih =>
    by_cases hcode : e.HasCode
    · obtain ⟨s₁, cs, h₁, hiff⟩ := restores_cons h hadm hcode
      rw [hiff, ih h₁ fun e he => hadm e (List.mem_cons_of_mem _ he), List.forall_mem_cons]
      exact (and_iff_right hcode).symm
    · constructor
      · intro hrest
        exact absurd hrest (not_restores_cons h hadm hcode)
      · intro hall
        exact absurd (hall e List.mem_cons_self) hcode

theorem restores_mixed : empty.Restores
    [.u 3 5, .ue 4294967294, .se (-2147483647), .s 32 (-7), .st [86, 51, 67]] := by
  refine (restores_iff holds_empty ?_).mpr ?_
  · simp [SyntaxElement.Admissible]
  · simp [SyntaxElement.HasCode]

/-- Writing the largest ue(v) never ends, and the smallest se(v) is read back as zero. -/
theorem not_restores_extremes :
    ¬ empty.Restores [.ue 4294967295] ∧ ¬ empty.Restores [.se Int32.minValue] := by
  constructor
  · apply not_restores_cons holds_empty
    · simp [SyntaxElement.Admissible]
    · simp [SyntaxElement.HasCode]
  · apply not_restores_cons holds_empty
    · simp [SyntaxElement.Admissible]
    · simp [SyntaxElement.HasCode]

end PCCBitstream

end V3C

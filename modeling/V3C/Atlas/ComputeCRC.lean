import V3C.Codec.CyclicRedundancy

/-! The CRC of the decoded atlas hash message. -/
namespace V3C

open Codec

/-- `x >> n` of an `int`: a shift by the width or more is undefined. -/
def shiftRightInt (x n : ℕ) : Option ℕ := if n < 32 then some (x >>> n) else none

/-- The arithmetic shift of a processor that takes the low five bits of the count. -/
def shiftRightLow5 (x n : ℕ) : Option ℕ := some (x >>> (n % 32))

/-- A store of a byte into the memory from `byteString` on. -/
def storeByte (byteString : List UInt8) (i : ℕ) (value : UInt8) : Option (List UInt8) :=
  if i < byteString.length then some (byteString.set i value) else none

/-- One pass of the loop of `PCCContext::computeCRC`. The count `7 - bitIdx` is unsigned. -/
def computeCRCStep (shiftRight : ℕ → ℕ → Option ℕ) (byteString : List UInt8)
    (bitIdx crc : ℕ) : Option ℕ := do
  let dataByte ← byteString[bitIdx >>> 3]?
  let crcMsb := (crc >>> 15) &&& 1
  let shifted ← shiftRight dataByte.toNat ((7 + 2 ^ 32 - bitIdx) % 2 ^ 32)
  let bitVal := shifted &&& 1
  some ((((crc <<< 1) + bitVal) &&& 0xFFFF) ^^^ (crcMsb * 0x1021))

/-- `bitIdx` is an `unsigned int`, the bound is not. -/
def computeCRCLoop (shiftRight : ℕ → ℕ → Option ℕ) (byteString : List UInt8) (len : ℕ) :
    ℕ → ℕ → ℕ → Option ℕ
  | 0, _, _ => none
  | fuel + 1, bitIdx, crc =>
    if bitIdx < (len + 2) * 8 then do
      let crc ← computeCRCStep shiftRight byteString bitIdx crc
      computeCRCLoop shiftRight byteString len fuel ((bitIdx + 1) % 2 ^ 32) crc
    else some crc

/-- `PCCContext::computeCRC` on the memory from `byteString` on. -/
def computeCRC (shiftRight : ℕ → ℕ → Option ℕ) (byteString : List UInt8) (len fuel : ℕ) :
    Option ℕ := do
  let byteString ← storeByte byteString len 0
  let byteString ← storeByte byteString (len + 1) 0
  let crc ← computeCRCLoop shiftRight byteString len fuel 0 0xFFFF
  some (crc % 2 ^ 16)

/-- The CRC-16 of a message with polynomial 0x1021 and initial value 0xFFFF. -/
def crc16 (message : List UInt8) : ℕ := crc 16 0x1021 0xFFFF (bitsOfBytes message)

/-- Where memory follows the message, the CRC of the message is returned. -/
def DigestIsCRC (message : List UInt8) : Prop :=
  ∃ spare : List UInt8, ∃ fuel,
    computeCRC shiftRightInt (message ++ spare) message.length fuel = some (crc16 message)

/-- Whatever a wide shift gives, the message alone is memory enough. -/
def StaysInMessage (message : List UInt8) : Prop :=
  ∃ shiftRight : ℕ → ℕ → Option ℕ, ∃ fuel,
    (computeCRC shiftRight message message.length fuel).isSome

/-! The message alone. -/

theorem not_staysInMessage (message : List UInt8) : ¬ StaysInMessage message := by
  rintro ⟨shiftRight, fuel, hsome⟩
  have hstore : storeByte message message.length 0 = none := if_neg (lt_irrefl _)
  simp [computeCRC, hstore] at hsome

/-! The ninth bit. -/

theorem computeCRCStep_eight (byteString : List UInt8) (crc : ℕ) :
    computeCRCStep shiftRightInt byteString 8 crc = none := by
  have hshift (x : ℕ) : shiftRightInt x ((7 + 2 ^ 32 - 8) % 2 ^ 32) = none :=
    if_neg (by decide)
  unfold computeCRCStep
  cases byteString[8 >>> 3]? with
  | none => rfl
  | some dataByte => simp only [hshift, bind, Option.bind_some, Option.bind_none]

/-- No run gets past the ninth bit, which every message has. -/
theorem computeCRCLoop_eq_none (byteString : List UInt8) (len fuel : ℕ) {bitIdx : ℕ}
    (hbit : bitIdx ≤ 8) (crc : ℕ) :
    computeCRCLoop shiftRightInt byteString len fuel bitIdx crc = none := by
  induction fuel generalizing bitIdx crc with
  | zero => rfl
  | succ fuel ih =>
    rw [computeCRCLoop, if_pos (by omega)]
    by_cases hlast : bitIdx = 8
    · rw [hlast, computeCRCStep_eight]
      rfl
    · cases hstep : computeCRCStep shiftRightInt byteString bitIdx crc with
      | none => rfl
      | some next => exact ih (by omega) next

theorem computeCRC_eq_none (byteString : List UInt8) (len fuel : ℕ) :
    computeCRC shiftRightInt byteString len fuel = none := by
  simp only [computeCRC, computeCRCLoop_eq_none _ _ _ (Nat.zero_le 8)]
  cases storeByte byteString len 0 with
  | none => rfl
  | some first =>
    simp only [bind, Option.bind_some]
    cases storeByte first (len + 1) 0 <;> rfl

/-! What a processor with five count bits returns. -/

/-- The bytes that such a processor takes into account. -/
def everyFourth (message : List UInt8) : List UInt8 :=
  message.mapIdx fun i b => if 4 ∣ i then b else 0

@[simp] theorem length_everyFourth (message : List UInt8) :
    (everyFourth message).length = message.length := List.length_mapIdx

theorem crcShift_eq (register : ℕ) (b : Bool) :
    ((((register <<< 1) + b.toNat) &&& 0xFFFF) ^^^ (((register >>> 15) &&& 1) * 0x1021)) =
      crcShift 16 0x1021 register b := by
  have hshifted : ((register <<< 1) + b.toNat) &&& 0xFFFF = (2 * register + b.toNat) % 2 ^ 16 := by
    rw [show 0xFFFF = 2 ^ 16 - 1 by rfl, Nat.and_two_pow_sub_one_eq_mod, Nat.shiftLeft_eq,
      pow_one, mul_comm]
  have hmsb : (register >>> 15) &&& 1 = (register.testBit 15).toNat := by
    rw [Nat.and_one_is_mod, Nat.shiftRight_eq_div_pow, Nat.toNat_testBit]
  unfold crcShift
  rw [hshifted, hmsb]
  cases register.testBit 15 <;> simp

theorem getElem?_bitsOfNat {n i : ℕ} (hi : i < n) (v : ℕ) :
    (bitsOfNat n v)[i]? = some (v.testBit (n - 1 - i)) := by
  induction n generalizing i with
  | zero => exact absurd hi (Nat.not_lt_zero i)
  | succ n ih =>
    cases i with
    | zero => rfl
    | succ i =>
      rw [bitsOfNat, List.getElem?_cons_succ, ih (by omega)]
      congr 2
      omega

theorem getElem?_bitsOfBytes (bytes : List UInt8) (i : ℕ) :
    (bitsOfBytes bytes)[i]? = bytes[i / 8]?.map fun b => b.toNat.testBit (7 - i % 8) := by
  induction bytes generalizing i with
  | nil => simp
  | cons b bytes ih =>
    rw [bitsOfBytes_cons]
    by_cases hi : i < 8
    · rw [List.getElem?_append_left (by simpa using hi), getElem?_bitsOfNat hi,
        Nat.div_eq_of_lt hi, Nat.mod_eq_of_lt hi]
      rfl
    · have hdiv : i / 8 = (i - 8) / 8 + 1 := by omega
      have hmod : i % 8 = (i - 8) % 8 := by omega
      rw [List.getElem?_append_right (by simpa using hi), length_bitsOfNat, ih, hdiv, hmod,
        List.getElem?_cons_succ]

/-- The count keeps the place within a byte only in every fourth byte. -/
theorem bit_of_shift (dataByte : UInt8) {bitIdx : ℕ} (hbit : bitIdx < 2 ^ 32) :
    (dataByte.toNat >>> ((7 + 2 ^ 32 - bitIdx) % 2 ^ 32 % 32)) &&& 1 =
      ((if 4 ∣ bitIdx / 8 then dataByte else 0).toNat.testBit (7 - bitIdx % 8)).toNat := by
  rw [Nat.and_one_is_mod, Nat.shiftRight_eq_div_pow]
  by_cases hfourth : 4 ∣ bitIdx / 8
  · have hcount : (7 + 2 ^ 32 - bitIdx) % 2 ^ 32 % 32 = 7 - bitIdx % 8 := by omega
    rw [if_pos hfourth, hcount, Nat.toNat_testBit]
  · have hcount : 8 ≤ (7 + 2 ^ 32 - bitIdx) % 2 ^ 32 % 32 := by omega
    have hsmall : dataByte.toNat < 2 ^ ((7 + 2 ^ 32 - bitIdx) % 2 ^ 32 % 32) :=
      lt_of_lt_of_le dataByte.toNat_lt (Nat.pow_le_pow_right (by decide) hcount)
    rw [if_neg hfourth, Nat.div_eq_of_lt hsmall]
    simp

theorem computeCRCStep_low5 (byteString : List UInt8) (crc : ℕ) {bitIdx : ℕ}
    (hbit : bitIdx < 2 ^ 32) {b : Bool}
    (hb : (bitsOfBytes (everyFourth byteString))[bitIdx]? = some b) :
    computeCRCStep shiftRightLow5 byteString bitIdx crc = some (crcShift 16 0x1021 crc b) := by
  rw [getElem?_bitsOfBytes, everyFourth, List.getElem?_mapIdx, Option.map_map] at hb
  unfold computeCRCStep
  rw [Nat.shiftRight_eq_div_pow]
  cases hbyte : byteString[bitIdx / 2 ^ 3]? with
  | none =>
    rw [show (2 ^ 3 : ℕ) = 8 by rfl] at hbyte
    rw [hbyte] at hb
    exact absurd hb nofun
  | some dataByte =>
    rw [show (2 ^ 3 : ℕ) = 8 by rfl] at hbyte
    have hbool : (if 4 ∣ bitIdx / 8 then dataByte else 0).toNat.testBit (7 - bitIdx % 8) = b := by
      rw [hbyte] at hb
      exact Option.some.inj hb
    simp only [shiftRightLow5, bind, Option.bind_some, bit_of_shift dataByte hbit, hbool,
      crcShift_eq]

/-- The register runs over the bits that are left. -/
theorem computeCRCLoop_low5 (byteString : List UInt8) {len : ℕ} (hlen : (len + 2) * 8 < 2 ^ 32)
    (hbyte : len + 2 ≤ byteString.length) (fuel crc : ℕ) {bitIdx : ℕ}
    (hbit : bitIdx ≤ (len + 2) * 8) (hfuel : (len + 2) * 8 < bitIdx + fuel) :
    computeCRCLoop shiftRightLow5 byteString len fuel bitIdx crc =
      some (crcRegister 16 0x1021 crc
        (((bitsOfBytes (everyFourth byteString)).take ((len + 2) * 8)).drop bitIdx)) := by
  induction fuel generalizing bitIdx crc with
  | zero => exact absurd hfuel (by omega)
  | succ fuel ih =>
    rw [computeCRCLoop]
    by_cases hend : bitIdx < (len + 2) * 8
    · have hmore : bitIdx < (bitsOfBytes (everyFourth byteString)).length := by
        rw [length_bitsOfBytes, length_everyFourth]
        omega
      have hstep := computeCRCStep_low5 byteString crc (by omega)
        (List.getElem?_eq_getElem hmore)
      have htake : bitIdx < ((bitsOfBytes (everyFourth byteString)).take ((len + 2) * 8)).length := by
        rw [List.length_take]
        omega
      rw [if_pos hend, hstep, List.drop_eq_getElem_cons htake, List.getElem_take,
        Nat.mod_eq_of_lt (show bitIdx + 1 < 2 ^ 32 by omega), crcRegister_cons]
      exact ih _ hend (by omega)
    · have hall : bitIdx = (len + 2) * 8 := by omega
      rw [if_neg hend, List.drop_eq_nil_of_le (by rw [List.length_take]; omega), crcRegister_nil]

/-- With two spare bytes of memory the CRC of every fourth byte is returned. -/
theorem computeCRC_low5 (message spare : List UInt8) (x y : UInt8)
    (hlen : (message.length + 2) * 8 < 2 ^ 32) :
    computeCRC shiftRightLow5 (message ++ x :: y :: spare) message.length
      ((message.length + 2) * 8 + 1) = some (crc16 (everyFourth message)) := by
  have hfirst : storeByte (message ++ x :: y :: spare) message.length 0 =
      some (message ++ 0 :: y :: spare) := by
    unfold storeByte
    rw [if_pos (by simp), List.set_append_right _ _ le_rfl, Nat.sub_self, List.set_cons_zero]
  have hsecond : storeByte (message ++ 0 :: y :: spare) (message.length + 1) 0 =
      some (message ++ 0 :: 0 :: spare) := by
    unfold storeByte
    rw [if_pos (by simp), List.set_append_right _ _ (Nat.le_succ _), Nat.succ_sub le_rfl,
      Nat.sub_self, List.set_cons_succ, List.set_cons_zero]
  have hzeros : (bitsOfBytes (everyFourth (message ++ 0 :: 0 :: spare))).take
      ((message.length + 2) * 8) = bitsOfBytes (everyFourth message) ++ List.replicate 16 false := by
    rw [mul_comm, take_bitsOfBytes]
    have hbytes : (everyFourth (message ++ 0 :: 0 :: spare)).take (message.length + 2) =
        everyFourth message ++ [0, 0] := by
      unfold everyFourth
      rw [List.mapIdx_append, List.take_append, List.take_of_length_le (by simp)]
      simp
    rw [hbytes, bitsOfBytes_append]
    rfl
  have hloop := computeCRCLoop_low5 (message ++ 0 :: 0 :: spare) hlen (by simp)
    ((message.length + 2) * 8 + 1) 0xFFFF (Nat.zero_le _) (by omega)
  rw [hzeros, List.drop_zero] at hloop
  have hlt : crc16 (everyFourth message) < 2 ^ 16 :=
    crcRegister_lt (by decide) (by decide) _
  simp only [computeCRC, hfirst, hsecond, hloop, bind, Option.bind_some]
  exact congrArg some (Nat.mod_eq_of_lt hlt)

/-- Both halves of the rule fail for every message: the sixteen zero bits are stored behind it,
and its second byte is shifted by a count that has wrapped. -/
theorem computeCRC_never (message : List UInt8) :
    ¬ DigestIsCRC message ∧ ¬ StaysInMessage message := by
  constructor
  · rintro ⟨spare, fuel, hcrc⟩
    rw [computeCRC_eq_none] at hcrc
    exact absurd hcrc nofun
  · exact not_staysInMessage message

/-- Two bytes of memory after a message do not help. -/
theorem computeCRC_check_message :
    ¬ DigestIsCRC [0x31, 0x32, 0x33, 0x34, 0x35, 0x36, 0x37, 0x38, 0x39] := by
  rintro ⟨spare, fuel, hcrc⟩
  rw [computeCRC_eq_none] at hcrc
  exact absurd hcrc nofun

end V3C

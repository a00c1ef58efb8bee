import V3C.Codec.Bits

/-! Big-endian byte fields, and byte strings framed by a length field of fixed size. -/
namespace Codec

/-- The low `n` bytes of `v`, most significant first. -/
def bytesOfNat : ℕ → ℕ → List UInt8
  | 0, _ => []
  | n + 1, v => UInt8.ofNat (v / 256 ^ n) :: bytesOfNat n v

def natOfBytes : List UInt8 → ℕ
  | [] => 0
  | b :: bytes => b.toNat * 256 ^ bytes.length + natOfBytes bytes

@[simp] theorem length_bytesOfNat (n v : ℕ) : (bytesOfNat n v).length = n := by
  induction n with
  | zero => rfl
  | succ n ih => rw [bytesOfNat, List.length_cons, ih]

theorem natOfBytes_bytesOfNat (n v : ℕ) : natOfBytes (bytesOfNat n v) = v % 256 ^ n := by
  induction n with
  | zero => simp [bytesOfNat, natOfBytes, Nat.mod_one]
  | succ n ih =>
    have h256 : (2 : ℕ) ^ 8 = 256 := rfl
    rw [bytesOfNat, natOfBytes, ih, length_bytesOfNat, UInt8.toNat_ofNat', h256, pow_succ,
      Nat.mod_mul, mul_comm, Nat.add_comm]

theorem natOfBytes_bytesOfNat_of_lt {n v : ℕ} (h : v < 256 ^ n) :
    natOfBytes (bytesOfNat n v) = v := by
  rw [natOfBytes_bytesOfNat, Nat.mod_eq_of_lt h]

theorem natOfBytes_append_singleton (bytes : List UInt8) (b : UInt8) :
    natOfBytes (bytes ++ [b]) = natOfBytes bytes * 256 + b.toNat := by
  induction bytes with
  | nil => simp [natOfBytes]
  | cons c bytes ih =>
    simp only [List.cons_append, natOfBytes, ih, List.length_append, List.length_singleton]
    ring

theorem natOfBits_bitsOfBytes (bytes : List UInt8) :
    natOfBits (bitsOfBytes bytes) = natOfBytes bytes := by
  induction bytes with
  | nil => rfl
  | cons b bytes ih =>
    rw [bitsOfBytes_cons, natOfBits_append, natOfBits_bitsOfNat_of_lt b.toNat_lt, ih,
      length_bitsOfBytes, natOfBytes, pow_mul]
    rfl

theorem bitsOfBytes_bytesOfNat (n v : ℕ) : bitsOfBytes (bytesOfNat n v) = bitsOfNat (8 * n) v := by
  refine natOfBits_injective (by simp) ?_
  rw [natOfBits_bitsOfBytes, natOfBytes_bytesOfNat, natOfBits_bitsOfNat, pow_mul]
  rfl

/-- A payload behind its length in `n` bytes. -/
def frame (n : ℕ) (payload : List UInt8) : List UInt8 := bytesOfNat n payload.length ++ payload

def frames (n : ℕ) (payloads : List (List UInt8)) : List UInt8 := payloads.flatMap (frame n)

@[simp] theorem frames_nil (n : ℕ) : frames n [] = [] := rfl

@[simp] theorem frames_cons (n : ℕ) (payload : List UInt8) (payloads : List (List UInt8)) :
    frames n (payload :: payloads) = frame n payload ++ frames n payloads := rfl

theorem frames_append (n : ℕ) (xs ys : List (List UInt8)) :
    frames n (xs ++ ys) = frames n xs ++ frames n ys := List.flatMap_append

@[simp] theorem length_frame (n : ℕ) (payload : List UInt8) :
    (frame n payload).length = n + payload.length := by
  rw [frame, List.length_append, length_bytesOfNat]

/-- Takes one payload off, by its length field. -/
def unframe (n : ℕ) (bytes : List UInt8) : Option (List UInt8 × List UInt8) :=
  let size := natOfBytes (bytes.take n)
  if n + size ≤ bytes.length then some ((bytes.drop n).take size, bytes.drop (n + size))
  else none

/-- Takes payloads off to the end, for as many of them as there is fuel. -/
def unframes (n : ℕ) : ℕ → List UInt8 → Option (List (List UInt8))
  | fuel, bytes =>
    if bytes = [] then some []
    else match fuel with
      | 0 => none
      | fuel + 1 => do
        let (payload, rest) ← unframe n bytes
        let payloads ← unframes n fuel rest
        pure (payload :: payloads)

/-- What is taken off is the part of the bytes behind the length field. -/
theorem unframe_eq_some {n : ℕ} {bytes payload rest : List UInt8}
    (h : unframe n bytes = some (payload, rest)) :
    n + payload.length ≤ bytes.length ∧ payload.length = natOfBytes (bytes.take n) ∧
      payload = (bytes.drop n).take payload.length ∧ rest = bytes.drop (n + payload.length) := by
  unfold unframe at h
  simp only at h
  split_ifs at h with hfit
  have hlen : ((bytes.drop n).take (natOfBytes (bytes.take n))).length =
      natOfBytes (bytes.take n) := by
    rw [List.length_take_of_le]
    rw [List.length_drop]
    omega
  cases h
  rw [hlen]
  exact ⟨hfit, rfl, rfl, rfl⟩

theorem take_frame_append (n : ℕ) (payload rest : List UInt8) :
    natOfBytes ((frame n payload ++ rest).take n) = payload.length % 256 ^ n := by
  rw [frame, List.append_assoc, List.take_left' (length_bytesOfNat n _), natOfBytes_bytesOfNat]

theorem unframe_frame_append {n : ℕ} {payload : List UInt8} (h : payload.length < 256 ^ n)
    (rest : List UInt8) : unframe n (frame n payload ++ rest) = some (payload, rest) := by
  have hsize := take_frame_append n payload rest
  rw [Nat.mod_eq_of_lt h] at hsize
  unfold unframe
  rw [hsize, if_pos (by rw [List.length_append, length_frame]; omega)]
  have hpayload : (frame n payload ++ rest).drop n = payload ++ rest := by
    rw [frame, List.append_assoc, List.drop_left' (length_bytesOfNat n _)]
  rw [← List.drop_drop, hpayload, List.take_left, List.drop_left]

/-- What is taken off has the length that its field has room for. -/
theorem unframe_frame_append_length {n : ℕ} {payload rest payload' rest' : List UInt8}
    (h : unframe n (frame n payload ++ rest) = some (payload', rest')) :
    payload'.length = payload.length % 256 ^ n := by
  rw [(unframe_eq_some h).2.1, take_frame_append]

/-- Payloads come back from their frames exactly when every length fits its field. -/
theorem unframes_frames_iff {n : ℕ} (hn : 0 < n) (payloads : List (List UInt8)) :
    (∃ fuel, unframes n fuel (frames n payloads) = some payloads) ↔
      ∀ payload ∈ payloads, payload.length < 256 ^ n := by
  have hne (payload : List UInt8) (rest : List UInt8) : frame n payload ++ rest ≠ [] := by
    intro hnil
    have := congrArg List.length hnil
    rw [List.length_append, length_frame, List.length_nil] at this
    omega
  induction payloads with
  | nil => exact ⟨fun _ => by simp, fun _ => ⟨0, rfl⟩⟩
  | cons payload payloads ih =>
    rw [List.forall_mem_cons, frames_cons]
    constructor
    · rintro ⟨fuel, h⟩
      unfold unframes at h
      rw [if_neg (hne _ _)] at h
      cases fuel with
      | zero => cases h
      | succ fuel =>
        obtain ⟨⟨first, rest⟩, hfirst, h⟩ := Option.bind_eq_some_iff.mp h
        obtain ⟨others, hothers, h⟩ := Option.bind_eq_some_iff.mp h
        cases h
        have hlt : payload.length < 256 ^ n := by
          have hlen := unframe_frame_append_length hfirst
          rw [hlen]
          exact Nat.mod_lt _ (by positivity)
        rw [unframe_frame_append hlt] at hfirst
        cases hfirst
        exact ⟨hlt, ih.mp ⟨fuel, hothers⟩⟩
    · rintro ⟨hlt, hrest⟩
      obtain ⟨fuel, hrest⟩ := ih.mpr hrest
      refine ⟨fuel + 1, ?_⟩
      unfold unframes
      rw [if_neg (hne _ _), unframe_frame_append hlt]
      simp [hrest]

end Codec

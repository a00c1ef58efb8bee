import V3C.Codec.Reader
import V3C.Codec.Frames

/-! The byte vector with a bit position behind all syntax functions, and its refinement
of the bit-string serializers and parsers. An access outside the vector has no result. -/
namespace V3C
open Codec

/-- `data_` and `position_`. -/
structure PCCBitstream where
  data : List UInt8
  bytes : ℕ
  bits : ℕ
  deriving DecidableEq, Repr

namespace PCCBitstream

def empty : PCCBitstream := ⟨[], 0, 0⟩

def beginning (s : PCCBitstream) : PCCBitstream := { s with bytes := 0, bits := 0 }

def byteAligned (s : PCCBitstream) : Bool := s.bits == 0

def moreData (s : PCCBitstream) : Bool := s.bytes < s.data.length

def realloc (s : PCCBitstream) (size : ℕ) : PCCBitstream :=
  { s with data := s.data ++ List.replicate ((size / 4096 + 1) * 4096) 0 }

/-- The position update that ends the loop bodies of `read` and `write`. -/
def next (s : PCCBitstream) : PCCBitstream :=
  if s.bits = 7 then { s with bytes := s.bytes + 1, bits := 0 } else { s with bits := s.bits + 1 }

/-- `data_[bytes] |= bit << ( 7 - bits )`. -/
def writeBit (bit : ℕ) (s : PCCBitstream) : Option PCCBitstream :=
  if h : s.bytes < s.data.length then
    some (next { s with
      data := s.data.set s.bytes
        (UInt8.ofNat (s.data[s.bytes].toNat ||| bit <<< (7 - s.bits))) })
  else none

/-- The loop of `write`, with `k` iterations left. -/
def writeLoop (value : ℕ) : ℕ → PCCBitstream → Option PCCBitstream
  | 0, s => some s
  | k + 1, s => do writeLoop value k (← writeBit ((value >>> k) &&& 1) s)

/-- A shift of a 32-bit value by 32 or more is undefined. -/
def write (value : ℕ) (n : ℕ) (s : PCCBitstream) : Option PCCBitstream :=
  if n ≤ 32 then
    writeLoop value n (if s.data.length ≤ s.bytes + n + 16 then s.realloc 4096 else s)
  else none

/-- `data_[bytes] >> ( 7 - bits ) & 1`. -/
def readBit (s : PCCBitstream) : Option (ℕ × PCCBitstream) :=
  if h : s.bytes < s.data.length then
    some ((s.data[s.bytes].toNat >>> (7 - s.bits)) &&& 1, s.next)
  else none

/-- The loop of `read`, with `k` iterations left. -/
def readLoop (value : ℕ) : ℕ → PCCBitstream → Option (ℕ × PCCBitstream)
  | 0, s => some (value, s)
  | k + 1, s => do
    let (bit, s) ← readBit s
    readLoop (value ||| bit <<< k) k s

def read (n : ℕ) (s : PCCBitstream) : Option (ℕ × PCCBitstream) :=
  if n ≤ 32 then readLoop 0 n s else none

/-- `memcpy` to offset `start` of a vector resized to hold it. -/
def overwrite (data : List UInt8) (start : ℕ) (bytes : List UInt8) : List UInt8 :=
  (data ++ List.replicate (start + bytes.length - data.length) 0).take start ++ bytes ++
    data.drop (start + bytes.length)

/-- Copies `size` bytes of `source` from `startByte` on, and moves both positions. -/
def copyFrom (s source : PCCBitstream) (startByte size : ℕ) :
    Option (PCCBitstream × PCCBitstream) :=
  if startByte + size ≤ source.data.length then
    some ({ s with
      data := overwrite s.data s.bytes ((source.data.drop startByte).take size)
      bytes := s.bytes + size }, { source with bytes := source.bytes + size })
  else none

/-- `bs` has been written: it ends at the position, and only zeros follow it. -/
structure Holds (s : PCCBitstream) (bs : List Bool) : Prop where
  bits_lt : s.bits < 8
  length_eq : bs.length = 8 * s.bytes + s.bits
  data_eq : ∃ m, bitsOfBytes s.data = bs ++ List.replicate m false

theorem holds_empty : Holds empty [] := ⟨by decide, rfl, 0, rfl⟩

/-- Setting a bit of a byte whose bits from that one on are zero. -/
private theorem bitsOfNat_or_shiftLeft {n j : ℕ} (hj : j < n) {d : ℕ} (b : Bool)
    {xs : List Bool} (hxs : xs.length = j)
    (hd : bitsOfNat n d = xs ++ List.replicate (n - j) false) :
    bitsOfNat n (d ||| b.toNat <<< (n - 1 - j)) =
      xs ++ b :: List.replicate (n - 1 - j) false := by
  have hzero (k : ℕ) : natOfBits (List.replicate k false) = 0 := by
    rw [← bitsOfNat_zero, natOfBits_bitsOfNat, Nat.zero_mod]
  have hmod : d % 2 ^ n = natOfBits xs <<< (n - j) := by
    rw [← natOfBits_bitsOfNat, hd, natOfBits_append, hzero, List.length_replicate,
      Nat.shiftLeft_eq, add_zero]
  have hpow : 2 ^ (n - j) = 2 * 2 ^ (n - 1 - j) := by
    rw [← pow_succ']
    congr 1
    omega
  have hlt : b.toNat <<< (n - 1 - j) < 2 ^ (n - j) := by
    have := Nat.two_pow_pos (n - 1 - j)
    rw [Nat.shiftLeft_eq, hpow]
    cases b <;> simp
  have hle : 2 ^ (n - j) ≤ 2 ^ n := Nat.pow_le_pow_right (by omega) (by omega)
  refine natOfBits_injective ?_ ?_
  · simp only [length_bitsOfNat, List.length_append, List.length_cons, List.length_replicate]
    omega
  rw [natOfBits_bitsOfNat, Nat.or_mod_two_pow, hmod, Nat.mod_eq_of_lt (by omega),
    ← Nat.shiftLeft_add_eq_or_of_lt hlt, natOfBits_append]
  simp only [natOfBits, hzero, List.length_cons, List.length_replicate, Nat.shiftLeft_eq,
    add_zero]
  congr 2
  rw [show n - j = n - 1 - j + 1 by omega]

theorem Holds.next {s : PCCBitstream} {bs : List Bool} (data : List UInt8) (b : Bool) (m : ℕ)
    (h : Holds s bs) (hdata : bitsOfBytes data = bs ++ b :: List.replicate m false) :
    Holds (PCCBitstream.next { s with data := data }) (bs ++ [b]) := by
  have hlen := h.length_eq
  have hbits := h.bits_lt
  unfold PCCBitstream.next
  split_ifs with h7
  · change s.bits = 7 at h7
    exact ⟨by simp, by simp; omega, m, by simp [hdata]⟩
  · change ¬ s.bits = 7 at h7
    exact ⟨by simp; omega, by simp; omega, m, by simp [hdata]⟩

private theorem data_next (s : PCCBitstream) : s.next.data = s.data := by
  unfold PCCBitstream.next
  split_ifs <;> rfl

theorem writeBit_holds {s : PCCBitstream} {bs : List Bool} (b : Bool) (h : Holds s bs)
    (hs : s.bytes < s.data.length) :
    ∃ s', writeBit b.toNat s = some s' ∧ Holds s' (bs ++ [b]) ∧
      s'.data.length = s.data.length := by
  obtain ⟨m, hm⟩ := h.data_eq
  have hbits := h.bits_lt
  have hlen := h.length_eq
  set byte := s.data[s.bytes] with hbyte
  have hsplit : s.data = s.data.take s.bytes ++ byte :: s.data.drop (s.bytes + 1) := by
    rw [hbyte, ← List.drop_eq_getElem_cons hs, List.take_append_drop]
  set pre := s.data.take s.bytes
  set post := s.data.drop (s.bytes + 1)
  have hpre : pre.length = s.bytes := by simp [pre]; omega
  have hbody : bitsOfBytes pre ++ (bitsOfNat 8 byte.toNat ++ bitsOfBytes post) =
      bs ++ List.replicate m false := by
    rw [← hm, hsplit, bitsOfBytes_append, bitsOfBytes_cons]
  -- the written bits end inside `byte`
  obtain ⟨xs, hbs, hrest⟩ : ∃ xs, bs = bitsOfBytes pre ++ xs ∧
      bitsOfNat 8 byte.toNat ++ bitsOfBytes post = xs ++ List.replicate m false := by
    rcases List.append_eq_append_iff.mp hbody with ⟨xs, h₁, h₂⟩ | ⟨xs, h₁, h₂⟩
    · exact ⟨xs, h₁, h₂⟩
    · have : xs.length = 0 := by
        have := congrArg List.length h₁
        simp [hpre] at this
        omega
      obtain rfl := List.length_eq_zero_iff.mp this
      exact ⟨[], by simpa using h₁.symm, by simpa using h₂.symm⟩
  have hxs : xs.length = s.bits := by
    have := congrArg List.length hbs
    simp [hpre] at this
    omega
  obtain ⟨ys, hy, hz⟩ : ∃ ys, bitsOfNat 8 byte.toNat = xs ++ ys ∧
      ys ++ bitsOfBytes post = List.replicate m false := by
    rcases List.append_eq_append_iff.mp hrest with ⟨ys, h₁, h₂⟩ | ⟨ys, h₁, h₂⟩
    · have := congrArg List.length h₁
      simp at this
      omega
    · exact ⟨ys, h₁, h₂.symm⟩
  obtain ⟨_, hys, hpost⟩ := List.append_eq_replicate_iff.mp hz
  have hylen : ys.length = 8 - s.bits := by
    have := congrArg List.length hy
    simp at this
    omega
  rw [hys, hylen] at hy
  have hset : s.data.set s.bytes (UInt8.ofNat (byte.toNat ||| b.toNat <<< (7 - s.bits))) =
      pre ++ UInt8.ofNat (byte.toNat ||| b.toNat <<< (7 - s.bits)) :: post := by
    conv_lhs => rw [hsplit]
    rw [List.set_append_right _ _ (by omega), hpre, Nat.sub_self, List.set_cons_zero]
  refine ⟨_, by rw [writeBit, dif_pos hs], ?_, ?_⟩
  · refine h.next _ b (7 - s.bits + (bitsOfBytes post).length) ?_
    rw [← hbyte, hset, bitsOfBytes_append, bitsOfBytes_cons, UInt8.toNat_ofNat',
      bitsOfNat_mod le_rfl, bitsOfNat_or_shiftLeft hbits b hxs hy, hbs, hpost]
    simp [← List.replicate_append_replicate]
  · rw [data_next, List.length_set]

theorem writeLoop_holds {s : PCCBitstream} {bs : List Bool} (value n : ℕ) (h : Holds s bs)
    (hs : s.bytes + n < s.data.length) :
    ∃ s', writeLoop value n s = some s' ∧ Holds s' (bs ++ bitsOfNat n value) := by
  induction n generalizing s bs with
  | zero => exact ⟨s, rfl, by simpa [bitsOfNat] using h⟩
  | succ k ih =>
    have hbit : (value >>> k) &&& 1 = (value.testBit k).toNat := by
      rw [Nat.and_one_is_mod, Nat.shiftRight_eq_div_pow, Nat.testBit_eq_decide_div_mod_eq]
      rcases Nat.mod_two_eq_zero_or_one (value / 2 ^ k) with h | h <;> simp [h]
    obtain ⟨s₁, hw, h₁, hlen⟩ := writeBit_holds (value.testBit k) h (by omega)
    have hbytes : s₁.bytes ≤ s.bytes + 1 := by
      have := h₁.length_eq
      have := h.length_eq
      have := h.bits_lt
      simp at *
      omega
    obtain ⟨s₂, hw₂, h₂⟩ := ih h₁ (by omega)
    refine ⟨s₂, ?_, by simpa [bitsOfNat] using h₂⟩
    rw [writeLoop, hbit, hw]
    exact hw₂

theorem length_realloc (s : PCCBitstream) (size : ℕ) :
    (s.realloc size).data.length = s.data.length + (size / 4096 + 1) * 4096 := by
  rw [realloc, List.length_append, List.length_replicate]

theorem Holds.realloc {s : PCCBitstream} {bs : List Bool} (h : Holds s bs) (size : ℕ) :
    Holds (s.realloc size) bs := by
  obtain ⟨m, hm⟩ := h.data_eq
  refine ⟨h.bits_lt, h.length_eq, m + 8 * ((size / 4096 + 1) * 4096), ?_⟩
  rw [PCCBitstream.realloc, bitsOfBytes_append, hm, bitsOfBytes_replicate_zero,
    List.append_assoc, List.replicate_append_replicate]

/-- `write` appends the low `n` bits of its value, growing the vector when needed. -/
theorem write_holds {s : PCCBitstream} {bs : List Bool} (value : ℕ) {n : ℕ} (hn : n ≤ 32)
    (h : Holds s bs) :
    ∃ s', write value n s = some s' ∧ Holds s' (bs ++ bitsOfNat n value) := by
  have hbytes : s.bytes ≤ s.data.length := by
    obtain ⟨m, hm⟩ := h.data_eq
    have := congrArg List.length hm
    have := h.length_eq
    simp at *
    omega
  rw [write, if_pos hn]
  split_ifs with hfull
  · refine writeLoop_holds value n ?_ ?_
    · exact h.realloc 4096
    · rw [length_realloc]
      change s.bytes + n < _
      omega
  · exact writeLoop_holds value n h (by omega)

/-- The parser's view of a bitstream. -/
def cursor (s : PCCBitstream) : Cursor :=
  ⟨advance 0 s.bits, (bitsOfBytes s.data).drop (8 * s.bytes + s.bits)⟩

theorem cursor_rest (s : PCCBitstream) :
    s.cursor.rest = (bitsOfBytes (s.data.drop s.bytes)).drop s.bits := by
  rw [cursor, ← List.drop_drop, drop_bitsOfBytes]

theorem cursor_next (s : PCCBitstream) (hs : s.bits < 8) :
    s.next.cursor = ⟨advance s.cursor.phase 1, s.cursor.rest.drop 1⟩ ∧ s.next.bits < 8 := by
  unfold next
  split_ifs with h7
  · refine ⟨?_, by simp⟩
    simp only [cursor, h7, List.drop_drop, Cursor.mk.injEq]
    exact ⟨by decide, by congr 1⟩
  · refine ⟨?_, by simp; omega⟩
    simp only [cursor, advance_advance, List.drop_drop, Cursor.mk.injEq]
    exact ⟨trivial, by congr 1⟩

private theorem readBit_cons {s : PCCBitstream} {b : Bool} {rest : List Bool} (hs : s.bits < 8)
    (h : s.cursor.rest = b :: rest) :
    readBit s = some (b.toNat, s.next) := by
  have hlt : s.bytes < s.data.length := by
    by_contra hge
    rw [cursor_rest, List.drop_eq_nil_of_le (not_lt.mp hge)] at h
    simp at h
  rw [cursor_rest, List.drop_eq_getElem_cons hlt, bitsOfBytes_cons,
    List.drop_append_of_le_length (by rw [length_bitsOfNat]; omega), drop_bitsOfNat,
    show 8 - s.bits = 7 - s.bits + 1 by omega, bitsOfNat, List.cons_append] at h
  obtain ⟨hb, -⟩ := List.cons.inj h
  rw [readBit, dif_pos hlt, ← hb, Nat.and_one_is_mod, Nat.shiftRight_eq_div_pow,
    Nat.testBit_eq_decide_div_mod_eq]
  rcases Nat.mod_two_eq_zero_or_one (s.data[s.bytes].toNat / 2 ^ (7 - s.bits)) with h | h <;>
    simp [h]

private theorem readLoop_cursor {s : PCCBitstream} (value n : ℕ) (hs : s.bits < 8)
    (hn : n ≤ s.cursor.rest.length) :
    ∃ s', readLoop value n s = some (value ||| natOfBits (s.cursor.rest.take n), s') ∧
      s'.cursor = ⟨advance s.cursor.phase n, s.cursor.rest.drop n⟩ ∧ s'.bits < 8 := by
  induction n generalizing s value with
  | zero => exact ⟨s, by simp [readLoop, natOfBits], by simp, hs⟩
  | succ k ih =>
    obtain ⟨b, rest, hrest⟩ := List.exists_cons_of_length_pos (by omega : 0 < s.cursor.rest.length)
    obtain ⟨hcur, hbits⟩ := cursor_next s hs
    have hk : k ≤ s.next.cursor.rest.length := by
      rw [hcur, List.length_drop]
      omega
    obtain ⟨s', hread, hcur', hbits'⟩ := ih (value ||| b.toNat <<< k) hbits hk
    have hnext : s.next.cursor.rest = rest := by rw [hcur, hrest, List.drop_one, List.tail_cons]
    refine ⟨s', ?_, ?_, hbits'⟩
    · rw [readLoop, readBit_cons hs hrest]
      change readLoop _ k s.next = _
      have hlt : natOfBits (rest.take k) < 2 ^ k := by
        have := natOfBits_lt (rest.take k)
        rwa [List.length_take_of_le (by simpa [hnext] using hk)] at this
      rw [hread, hnext, hrest, List.take_succ_cons, natOfBits,
        List.length_take_of_le (by simpa [hnext] using hk), ← Nat.shiftLeft_eq,
        Nat.shiftLeft_add_eq_or_of_lt hlt, Nat.or_assoc]
    · rw [hcur', hcur, advance_advance, List.drop_drop, Nat.add_comm 1 k]

/-- `read` takes the next `n` bits, most significant first. -/
theorem read_cursor {s : PCCBitstream} {n : ℕ} {bs : List Bool} {c : Cursor} (hn : n ≤ 32)
    (hs : s.bits < 8) (h : Reader.take n s.cursor = some (bs, c)) :
    ∃ s', read n s = some (natOfBits bs, s') ∧ s'.cursor = c ∧ s'.bits < 8 := by
  unfold Reader.take at h
  split_ifs at h with hlen
  obtain ⟨rfl, rfl⟩ := Prod.mk.inj (Option.some.inj h)
  obtain ⟨s', hread, hcur, hbits⟩ := readLoop_cursor 0 n hs hlen
  exact ⟨s', by rw [read, if_pos hn, hread, Nat.zero_or], hcur, hbits⟩

private theorem bitsOfBytes_overwrite {data bytes : List UInt8} {bs : List Bool} {start m : ℕ}
    (hdata : bitsOfBytes data = bs ++ List.replicate m false) (hbs : bs.length = 8 * start) :
    ∃ m', bitsOfBytes (overwrite data start bytes) =
      bs ++ bitsOfBytes bytes ++ List.replicate m' false := by
  have hstart : start ≤ data.length := by
    have := congrArg List.length hdata
    simp at this
    omega
  have htake : bitsOfBytes (data.take start) = bs := by
    have hcut := congrArg (List.take (8 * start)) hdata
    have hfull : (bitsOfBytes (data.take start)).length = 8 * start := by
      rw [length_bitsOfBytes, List.length_take_of_le hstart]
    rw [List.take_left' hbs] at hcut
    conv_lhs at hcut => rw [← List.take_append_drop start data, bitsOfBytes_append]
    rwa [List.take_left' hfull] at hcut
  have hdrop : bitsOfBytes (data.drop (start + bytes.length)) =
      List.replicate (m - 8 * bytes.length) false := by
    rw [← drop_bitsOfBytes, hdata, List.drop_append, List.drop_eq_nil_of_le (by omega),
      List.nil_append, List.drop_replicate]
    congr 1
    omega
  refine ⟨m - 8 * bytes.length, ?_⟩
  rw [overwrite, List.take_append_of_le_length hstart, bitsOfBytes_append, bitsOfBytes_append,
    htake, hdrop]

/-- Whole bytes copied to an aligned position are appended. -/
theorem Holds.copyFrom {s source : PCCBitstream} {bs : List Bool} (h : Holds s bs)
    (halign : s.bits = 0) {startByte size : ℕ}
    (hsource : startByte + size ≤ source.data.length) :
    ∃ s', PCCBitstream.copyFrom s source startByte size =
        some (s', { source with bytes := source.bytes + size }) ∧ s'.bits = 0 ∧
      Holds s' (bs ++ bitsOfBytes ((source.data.drop startByte).take size)) := by
  obtain ⟨m, hm⟩ := h.data_eq
  have hlen := h.length_eq
  have hsize : ((source.data.drop startByte).take size).length = size := by
    rw [List.length_take_of_le]
    rw [List.length_drop]
    omega
  refine ⟨{ s with
    data := overwrite s.data s.bytes ((source.data.drop startByte).take size)
    bytes := s.bytes + size }, by rw [PCCBitstream.copyFrom, if_pos hsource], halign,
    h.bits_lt, ?_, bitsOfBytes_overwrite hm (by omega)⟩
  rw [List.length_append, length_bitsOfBytes, hsize]
  change _ = 8 * (s.bytes + size) + s.bits
  omega

private theorem readLoop_eq_none {s : PCCBitstream} (value n : ℕ) (hs : s.bits < 8)
    (hn : s.cursor.rest.length < n) : readLoop value n s = none := by
  induction n generalizing s value with
  | zero => omega
  | succ k ih =>
    by_cases hlt : s.bytes < s.data.length
    · obtain ⟨hcur, hbits⟩ := cursor_next s hs
      have hk : s.next.cursor.rest.length < k := by
        rw [cursor_rest, List.length_drop, length_bitsOfBytes, List.length_drop] at hn
        rw [hcur, cursor_rest, List.length_drop, List.length_drop, length_bitsOfBytes,
          List.length_drop]
        omega
      rw [readLoop, readBit, dif_pos hlt]
      exact ih _ hbits hk
    · rw [readLoop, readBit, dif_neg hlt]
      rfl

theorem read_eq_none {s : PCCBitstream} {n : ℕ} (hs : s.bits < 8)
    (hn : s.cursor.rest.length < n) : read n s = none := by
  unfold read
  split_ifs
  · exact readLoop_eq_none 0 n hs hn
  · rfl

theorem readBit_position {s s' : PCCBitstream} {bit : ℕ} (h : readBit s = some (bit, s')) :
    s'.data = s.data ∧ 8 * s'.bytes + s'.bits = 8 * s.bytes + s.bits + 1 := by
  unfold readBit at h
  split_ifs at h
  cases h
  refine ⟨data_next s, ?_⟩
  unfold next
  split_ifs with h7
  · simp only
    omega
  · simp only
    omega

theorem readLoop_position {s s' : PCCBitstream} {value v n : ℕ}
    (h : readLoop value n s = some (v, s')) :
    s'.data = s.data ∧ 8 * s'.bytes + s'.bits = 8 * s.bytes + s.bits + n := by
  induction n generalizing s value with
  | zero =>
    cases h
    exact ⟨rfl, rfl⟩
  | succ k ih =>
    obtain ⟨⟨bit, s₁⟩, hbit, h⟩ := Option.bind_eq_some_iff.mp h
    obtain ⟨hdata, hpos⟩ := readBit_position hbit
    obtain ⟨hdata', hpos'⟩ := ih h
    exact ⟨hdata'.trans hdata, by omega⟩

/-- Reading moves the position and nothing else. -/
theorem read_position {s s' : PCCBitstream} {v n : ℕ} (h : read n s = some (v, s')) :
    s'.data = s.data ∧ 8 * s'.bytes + s'.bits = 8 * s.bytes + s.bits + n := by
  unfold read at h
  split_ifs at h
  exact readLoop_position h

/-- Whole bytes are read as a big-endian number. -/
theorem read_aligned {s : PCCBitstream} {n : ℕ} (hs : s.bits = 0) (hn : n ≤ 4)
    (hlen : s.bytes + n ≤ s.data.length) :
    read (8 * n) s =
      some (natOfBytes ((s.data.drop s.bytes).take n), { s with bytes := s.bytes + n }) := by
  have hrest : s.cursor.rest = bitsOfBytes (s.data.drop s.bytes) := by
    rw [cursor_rest, hs, List.drop_zero]
  have htake : Reader.take (8 * n) s.cursor =
      some (s.cursor.rest.take (8 * n),
        ⟨advance s.cursor.phase (8 * n), s.cursor.rest.drop (8 * n)⟩) := by
    refine if_pos ?_
    rw [hrest, length_bitsOfBytes, List.length_drop]
    omega
  obtain ⟨s', hread, -, hbits⟩ := read_cursor (by omega) (by omega) htake
  obtain ⟨hdata, hpos⟩ := read_position hread
  rw [hread, hrest, take_bitsOfBytes, natOfBits_bitsOfBytes]
  have hbytes : s'.bytes = s.bytes + n ∧ s'.bits = s.bits := by omega
  cases s' with
  | mk data bytes bits =>
    obtain ⟨rfl, rfl⟩ := hbytes
    cases hdata
    rfl

/-- The bytes of a stream that was written up to a whole byte. -/
theorem Holds.take_bytes {s : PCCBitstream} {bytes : List UInt8}
    (h : Holds s (bitsOfBytes bytes)) : s.data.take s.bytes = bytes ∧ s.bits = 0 := by
  obtain ⟨m, hm⟩ := h.data_eq
  have hlen := h.length_eq
  have hbits := h.bits_lt
  rw [length_bitsOfBytes] at hlen
  have hcount : s.bytes = bytes.length := by omega
  refine ⟨bitsOfBytes_injective ?_, by omega⟩
  rw [← take_bitsOfBytes, hm, hcount, List.take_left' (length_bitsOfBytes bytes)]

end PCCBitstream

end V3C

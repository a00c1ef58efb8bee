import V3C.Bitstream.SyntaxElementRoundTrip

/-! The position of a bitstream that is written stays in the vector, and only zeros follow it. -/
namespace V3C
open Codec

namespace PCCBitstream

/-- `initialize( capacity )` of a new bitstream. -/
def initialized (capacity : ℕ) : PCCBitstream := ⟨List.replicate capacity 0, 0, 0⟩

/-- Copies a video to the position. -/
def writeVideoStream (video : List UInt8) (s : PCCBitstream) : Option PCCBitstream :=
  let s := s.realloc video.length
  if s.bytes + video.length ≤ s.data.length then
    some { s with data := overwrite s.data s.bytes video, bytes := s.bytes + video.length }
  else none

/-- `byteAlignment` of the writer. -/
def byteAlignment (s : PCCBitstream) : Option PCCBitstream :=
  (write 1 1 s).bind (writePadding 8)

/-- A call that writes: a field has at most 32 bits, and a copy stays in its source. -/
inductive Operation
  | write (value : UInt32) (bits : Fin 33)
  | writeUvlc (value : UInt32)
  | writeSvlc (value : Int32)
  | writeVideoStream (video : List UInt8)
  | copyFrom (source : PCCBitstream) (startByte size : ℕ)
    (inside : startByte + size ≤ source.data.length)
  | byteAlignment

namespace Operation

def run : Operation → PCCBitstream → Option PCCBitstream
  | write value bits, s => PCCBitstream.write value.toNat bits s
  | writeUvlc value, s => PCCBitstream.writeUvlc value.toNat s
  | writeSvlc value, s => PCCBitstream.writeSvlc value.toInt s
  | writeVideoStream video, s => PCCBitstream.writeVideoStream video s
  | copyFrom source startByte size _, s =>
    (PCCBitstream.copyFrom s source startByte size).map Prod.fst
  | byteAlignment, s => PCCBitstream.byteAlignment s

/-- A value with a code is written, and a copy into a begun byte does not end with the vector. -/
def Fits (s : PCCBitstream) : Operation → Prop
  | writeUvlc value => value.toNat ≠ 2 ^ 32 - 1
  | copyFrom _ _ size _ => s.bits = 0 ∨ s.bytes + size < s.data.length
  | _ => True

end Operation

/-- The position is in the vector, and only zeros follow it. -/
structure Clean (s : PCCBitstream) : Prop extends Within s where
  zeros : ∀ b ∈ (bitsOfBytes s.data).drop (8 * s.bytes + s.bits), b = false

theorem clean_initialized (capacity : ℕ) : (initialized capacity).Clean where
  bits_lt := Nat.zero_lt_succ 7
  le_length := Nat.zero_le _
  zeros := by
    intro b hb
    have hmem := List.mem_of_mem_drop hb
    rw [initialized, bitsOfBytes_replicate_zero] at hmem
    exact List.eq_of_mem_replicate hmem

theorem Holds.clean {s : PCCBitstream} {bs : List Bool} (h : Holds s bs) : s.Clean where
  bits_lt := h.bits_lt
  le_length := by
    obtain ⟨m, hm⟩ := h.data_eq
    have hlength := congrArg List.length hm
    rw [length_bitsOfBytes, List.length_append, h.length_eq] at hlength
    omega
  zeros := by
    obtain ⟨m, hm⟩ := h.data_eq
    intro b hb
    rw [hm, List.drop_left' h.length_eq] at hb
    exact List.eq_of_mem_replicate hb

theorem Clean.holds {s : PCCBitstream} (h : s.Clean) :
    Holds s ((bitsOfBytes s.data).take (8 * s.bytes + s.bits)) where
  bits_lt := h.bits_lt
  length_eq := by
    rw [List.length_take, length_bitsOfBytes]
    exact Nat.min_eq_left h.le_length
  data_eq := by
    refine ⟨((bitsOfBytes s.data).drop (8 * s.bytes + s.bits)).length, ?_⟩
    rw [← List.eq_replicate_of_mem h.zeros, List.take_append_drop]

/-- The bytes before the position of a bitstream are there in another one. -/
def Retains (s s' : PCCBitstream) : Prop := s'.data.take s.bytes = s.data.take s.bytes

theorem take_data_of_bits {xs ys : List UInt8} {k : ℕ}
    (h : (bitsOfBytes xs).take (8 * k) = (bitsOfBytes ys).take (8 * k)) :
    xs.take k = ys.take k := by
  rw [take_bitsOfBytes, take_bitsOfBytes] at h
  exact bitsOfBytes_injective h

/-- Appending bits keeps the bytes before the position. -/
theorem Holds.retains {s s' : PCCBitstream} {bs cs : List Bool} (h : Holds s bs)
    (h' : Holds s' (bs ++ cs)) : s.Retains s' := by
  obtain ⟨m, hm⟩ := h.data_eq
  obtain ⟨m', hm'⟩ := h'.data_eq
  have hle : 8 * s.bytes ≤ bs.length := by
    rw [h.length_eq]
    exact Nat.le_add_right _ _
  apply take_data_of_bits
  rw [hm, hm', List.append_assoc, List.take_append_of_le_length hle,
    List.take_append_of_le_length hle]

/-- A call that appends what a descriptor describes. -/
theorem Implements.clean {f : PCCBitstream → Option PCCBitstream} {w : Writer Unit}
    (hf : Implements f w) {s : PCCBitstream} (h : s.Clean)
    (hw : ∀ p, ∃ cs, w p = some ((), cs)) :
    ∃ s', f s = some s' ∧ s'.Clean ∧ s.Retains s' := by
  obtain ⟨cs, hcs⟩ := hw (advance 0 ((bitsOfBytes s.data).take (8 * s.bytes + s.bits)).length)
  obtain ⟨s', hrun, h'⟩ := hf s _ cs h.holds hcs
  exact ⟨s', hrun, h'.clean, h.holds.retains h'⟩

section Overwrite

variable {data bytes : List UInt8} {start : ℕ}

theorem length_overwrite (h : start ≤ data.length) :
    (overwrite data start bytes).length = max data.length (start + bytes.length) := by
  unfold overwrite
  rw [List.take_append_of_le_length h, List.length_append, List.length_append, List.length_take,
    List.length_drop]
  omega

theorem take_overwrite (h : start ≤ data.length) :
    (overwrite data start bytes).take start = data.take start := by
  have hlength : (data.take start).length = start := by
    rw [List.length_take]
    omega
  unfold overwrite
  rw [List.take_append_of_le_length h, List.append_assoc, List.take_left' hlength]

theorem drop_overwrite (h : start ≤ data.length) :
    (overwrite data start bytes).drop (start + bytes.length) =
      data.drop (start + bytes.length) := by
  have hlength : (data.take start ++ bytes).length = start + bytes.length := by
    rw [List.length_append, List.length_take]
    omega
  unfold overwrite
  rw [List.take_append_of_le_length h, List.drop_left' hlength]

/-- The bits after bytes that were copied are those that were there. -/
theorem zeros_overwrite {s : PCCBitstream} (h : s.Clean) (bytes : List UInt8) :
    ∀ b ∈ (bitsOfBytes (overwrite s.data s.bytes bytes)).drop
      (8 * (s.bytes + bytes.length) + s.bits), b = false := by
  have hstart : s.bytes ≤ s.data.length := by
    have hinside := h.le_length
    omega
  intro b hb
  apply h.zeros
  rw [← List.drop_drop, drop_bitsOfBytes, drop_overwrite hstart, ← drop_bitsOfBytes,
    List.drop_drop] at hb
  have hsplit : 8 * (s.bytes + bytes.length) + s.bits =
      8 * s.bytes + s.bits + 8 * bytes.length := by
    omega
  rw [hsplit, ← List.drop_drop] at hb
  exact List.mem_of_mem_drop hb

end Overwrite

theorem Clean.realloc {s : PCCBitstream} (h : s.Clean) (size : ℕ) : (s.realloc size).Clean :=
  (h.holds.realloc size).clean

theorem Clean.writeVideoStream {s : PCCBitstream} (h : s.Clean) (video : List UInt8) :
    ∃ s', PCCBitstream.writeVideoStream video s = some s' ∧ s'.Clean ∧ s.Retains s' := by
  have hclean := h.realloc video.length
  have hinside := h.le_length
  have hbits := h.bits_lt
  have hlength := length_realloc s video.length
  have hstart : (s.realloc video.length).bytes ≤ (s.realloc video.length).data.length := by
    show s.bytes ≤ _
    omega
  have hroom : s.bytes + video.length < (s.realloc video.length).data.length := by omega
  refine ⟨_, by rw [PCCBitstream.writeVideoStream]; exact if_pos hroom.le, ?_, ?_⟩
  · refine ⟨⟨hbits, ?_⟩, zeros_overwrite hclean video⟩
    show 8 * (s.bytes + video.length) + s.bits ≤ 8 * (overwrite _ _ video).length
    rw [length_overwrite hstart]
    show 8 * (s.bytes + video.length) + s.bits ≤
      8 * max (s.realloc video.length).data.length (s.bytes + video.length)
    have hmax := le_max_left (s.realloc video.length).data.length (s.bytes + video.length)
    omega
  · have hle : s.bytes ≤ s.data.length := by omega
    exact (take_overwrite hstart).trans (List.take_append_of_le_length hle)

/-- After a copy the position is in the vector unless it is in a byte after the end. -/
theorem Clean.copyFrom {s : PCCBitstream} (h : s.Clean) (source : PCCBitstream)
    {startByte size : ℕ} (hsource : startByte + size ≤ source.data.length) :
    ∃ s', (PCCBitstream.copyFrom s source startByte size).map Prod.fst = some s' ∧
      s.Retains s' ∧ (s'.Clean ↔ s.bits = 0 ∨ s.bytes + size < s.data.length) := by
  have hinside := h.le_length
  have hbits := h.bits_lt
  have hstart : s.bytes ≤ s.data.length := by omega
  have hsize : ((source.data.drop startByte).take size).length = size := by
    rw [List.length_take, List.length_drop]
    omega
  refine ⟨_, by rw [PCCBitstream.copyFrom, if_pos hsource, Option.map_some], ?_, ?_⟩
  · exact take_overwrite hstart
  · have hlength := @length_overwrite _ ((source.data.drop startByte).take size) _ hstart
    rw [hsize] at hlength
    constructor
    · intro hclean
      have hinside' := hclean.le_length
      dsimp only at hinside'
      rw [hlength] at hinside'
      omega
    · intro hroom
      have hzeros := zeros_overwrite h ((source.data.drop startByte).take size)
      rw [hsize] at hzeros
      refine ⟨⟨hbits, ?_⟩, hzeros⟩
      dsimp only
      rw [hlength]
      omega

/-! ### Runs -/

theorem exists_writeUvlc {value : ℕ} (h : value + 1 < 2 ^ 32) (p : Phase) :
    ∃ cs, V3C.writeUvlc value p = some ((), cs) := by
  obtain ⟨cs, hw, -⟩ := RoundTrip.uvlc h p
  exact ⟨cs, hw⟩

/-- The code of a signed value is not the one without an end. -/
theorem svlcCode_lt (value : ℤ) :
    ((if Int.bmod value (2 ^ 32) ≤ 0 then -Int.bmod value (2 ^ 32) * 2
      else Int.bmod value (2 ^ 32) * 2 - 1) % 2 ^ 32).toNat + 1 < 2 ^ 32 := by
  have hlt : Int.bmod value (2 ^ 32) < 2 ^ 31 := by
    have hbound := Int.bmod_lt (x := value) (by decide : 0 < 2 ^ 32)
    exact hbound
  split_ifs <;> omega

def Keeps (s : PCCBitstream) (op : Operation) : Prop :=
  ∃ s', op.run s = some s' ∧ s'.Clean ∧ s.Retains s'

/-- An operation that fits keeps the zeros after the position, and only such a one does. -/
theorem Clean.keeps_iff {s : PCCBitstream} (h : s.Clean) (op : Operation) :
    s.Keeps op ↔ op.Fits s := by
  cases op with
  | write value bits =>
    have hput : ∀ p, ∃ cs, V3C.write value.toNat bits p = some ((), cs) := by
      intro p
      unfold V3C.write
      rw [if_pos (Nat.le_of_lt_succ bits.isLt)]
      exact ⟨_, rfl⟩
    exact iff_of_true ((implements_write _ _).clean h hput) trivial
  | writeUvlc value =>
    constructor
    · intro hkeeps hmax
      obtain ⟨s', hrun, -⟩ := hkeeps
      have hzero : (value.toNat % 2 ^ 32 + 1) % 2 ^ 32 = 0 := by
        rw [hmax]
        rfl
      simp only [Operation.run, PCCBitstream.writeUvlc, hzero, uvlcLength_zero] at hrun
      cases hrun
    · intro hfits
      have hlt := value.toNat_lt
      have hcode : value.toNat + 1 < 2 ^ 32 := by
        have hne : value.toNat ≠ 2 ^ 32 - 1 := hfits
        omega
      exact (implements_writeUvlc _).clean h (exists_writeUvlc hcode)
  | writeSvlc value =>
    exact iff_of_true ((implements_writeUvlc _).clean h (exists_writeUvlc (svlcCode_lt _))) trivial
  | writeVideoStream video => exact iff_of_true (h.writeVideoStream video) trivial
  | copyFrom source startByte size inside =>
    obtain ⟨s', hrun, hretains, hclean⟩ := h.copyFrom source inside
    constructor
    · intro hkeeps
      obtain ⟨s'', hrun', hclean', -⟩ := hkeeps
      obtain rfl := Option.some.inj (hrun.symm.trans hrun')
      exact hclean.mp hclean'
    · intro hfits
      exact ⟨s', hrun, hclean.mpr hfits, hretains⟩
  | byteAlignment =>
    have hput : ∀ p, ∃ cs, (V3C.write 1 1 >>= fun _ => V3C.writePadding) p = some ((), cs) :=
      fun p => ⟨_, rfl⟩
    exact iff_of_true (((implements_write 1 1).bind implements_writePadding).clean h hput) trivial

/-- In a run, all states have their position in the vector and zeros after it, and no operation
changes a byte before its start. -/
def Sound : PCCBitstream → List Operation → Prop
  | s, [] => s.Clean
  | s, op :: ops => s.Clean ∧ ∃ s', op.run s = some s' ∧ s.Retains s' ∧ Sound s' ops

/-- In a run, every operation fits. -/
def AllFit : PCCBitstream → List Operation → Prop
  | _, [] => True
  | s, op :: ops => op.Fits s ∧ ∀ s', op.run s = some s' → AllFit s' ops

theorem Sound.clean {s : PCCBitstream} {ops : List Operation} (h : s.Sound ops) : s.Clean := by
  cases ops with
  | nil => exact h
  | cons op ops => exact h.1

theorem Clean.sound_iff {s : PCCBitstream} (h : s.Clean) (ops : List Operation) :
    s.Sound ops ↔ s.AllFit ops := by
  induction ops generalizing s with
  | nil => exact iff_of_true h trivial
  | cons op ops ih =>
    constructor
    · intro hsound
      obtain ⟨-, s', hrun, hretains, hsound⟩ := hsound
      refine ⟨(h.keeps_iff op).mp ⟨s', hrun, hsound.clean, hretains⟩, ?_⟩
      intro s'' hrun'
      obtain rfl := Option.some.inj (hrun.symm.trans hrun')
      exact (ih hsound.clean).mp hsound
    · intro hfit
      obtain ⟨s', hrun, hclean, hretains⟩ := (h.keeps_iff op).mpr hfit.1
      exact ⟨h, s', hrun, hretains, (ih hclean).mpr (hfit.2 s' hrun)⟩

/-- The buffer of a new bitstream stays sound in the runs whose operations fit. -/
theorem sound_initialized_iff (capacity : ℕ) (ops : List Operation) :
    (initialized capacity).Sound ops ↔ (initialized capacity).AllFit ops :=
  (clean_initialized capacity).sound_iff ops

/-- A copy into a begun byte up to the end of the vector. -/
theorem not_sound_copyFrom : ¬(initialized 18).Sound
    [.write 1 1, .copyFrom (initialized 18) 0 18 (by decide)] := by
  intro h
  obtain ⟨-, s₁, hwrite, -, -, s₂, hcopy, -, hclean⟩ := h
  have hfirst : (Operation.write 1 1).run (initialized 18) =
      some ⟨128 :: List.replicate 17 0, 0, 1⟩ := by decide
  rw [hfirst] at hwrite
  obtain rfl := Option.some.inj hwrite
  have hsecond : (Operation.copyFrom (initialized 18) 0 18 (by decide)).run
      ⟨128 :: List.replicate 17 0, 0, 1⟩ = some ⟨List.replicate 18 0, 18, 1⟩ := by decide
  rw [hsecond] at hcopy
  obtain rfl := Option.some.inj hcopy
  exact absurd hclean.le_length (by decide)

end PCCBitstream

end V3C

import V3C.Bitstream.SyntaxElements

/-! The loops over the byte vector write and read what the descriptors do on bit strings. -/
namespace V3C
open Codec

namespace PCCBitstream

theorem implements_writeUvlc (value : ℕ) :
    Implements (writeUvlc value) (V3C.writeUvlc value) := by
  intro s bs cs h hw
  simp only [V3C.writeUvlc] at hw
  simp only [writeUvlc]
  cases hlen : uvlcLength 32 ((value % 2 ^ 32 + 1) % 2 ^ 32) 1 with
  | none =>
    rw [hlen] at hw
    cases hw
  | some length =>
    rw [hlen] at hw
    exact (implements_write _ _).bind (implements_write _ _) s bs cs h hw

theorem implements_writeS (value : ℤ) (bits : ℕ) :
    Implements (writeS value bits) (V3C.writeS value bits) := by
  intro s bs cs h hw
  unfold V3C.writeS at hw
  unfold writeS
  split_ifs at hw ⊢
  · exact implements_write _ bits s bs cs h hw
  · simp [Writer.fail] at hw

theorem Holds.phase_eq {s : PCCBitstream} {bs : List Bool} (h : Holds s bs) :
    (advance 0 bs.length).val = s.bits := by
  have := h.bits_lt
  have := h.length_eq
  simp only [advance, Fin.val_zero]
  omega

/-- The loop writes one zero after the other until `k`, the distance to a whole byte, is zero. -/
theorem writePadding_holds {s : PCCBitstream} {bs : List Bool} (h : Holds s bs) {k fuel : ℕ}
    (hk : k = (8 - s.bits) % 8) (hfuel : k ≤ fuel) :
    ∃ s', writePadding fuel s = some s' ∧ Holds s' (bs ++ List.replicate k false) := by
  have hbits := h.bits_lt
  induction k generalizing s bs fuel with
  | zero =>
    have haligned : s.byteAligned = true := by
      simp only [byteAligned, beq_iff_eq]
      omega
    refine ⟨s, ?_, by simpa using h⟩
    unfold writePadding
    rw [if_pos haligned]
  | succ k ih =>
    have haligned : ¬ s.byteAligned = true := by
      simp only [byteAligned, beq_iff_eq]
      omega
    obtain ⟨fuel, rfl⟩ : ∃ n, fuel = n + 1 := ⟨fuel - 1, by omega⟩
    obtain ⟨s₁, hw, h₁⟩ := write_holds 0 (show 1 ≤ 32 by decide) h
    have hlen := h₁.length_eq
    rw [List.length_append, length_bitsOfNat, h.length_eq] at hlen
    have hbits₁ := h₁.bits_lt
    obtain ⟨s₂, hw₂, h₂⟩ := ih h₁ (by omega) (show k ≤ fuel by omega) hbits₁
    refine ⟨s₂, ?_, by simpa [bitsOfNat, List.replicate_succ] using h₂⟩
    unfold writePadding
    rw [if_neg haligned]
    simp only [hw, Option.bind_some, hw₂]

theorem implements_writePadding : Implements (writePadding 8) V3C.writePadding := by
  intro s bs cs h hw
  obtain ⟨-, rfl⟩ := Prod.mk.inj (Option.some.inj hw)
  change ∃ s', writePadding 8 s = some s' ∧
    Holds s' (bs ++ List.replicate ((8 - (advance 0 bs.length).val) % 8) false)
  rw [h.phase_eq]
  exact writePadding_holds h rfl (by omega)

theorem implements_writeChars (str : List UInt8) :
    Implements (writeChars str) (Writer.forEach str fun element => V3C.write element.toNat 8) := by
  induction str with
  | nil =>
    intro s bs cs h hw
    obtain ⟨-, rfl⟩ := Prod.mk.inj (Option.some.inj hw)
    exact ⟨s, rfl, by simpa using h⟩
  | cons b str ih => exact (implements_write b.toNat 8).bind ih

theorem implements_writeString (str : List UInt8) :
    Implements (writeString str) (V3C.writeString str) :=
  implements_writePadding.bind ((implements_writeChars str).bind (implements_write 0 8))

theorem implements_writeElement (e : SyntaxElement) : Implements (writeElement e) e.write := by
  cases e with
  | u n value => exact implements_write value.toNat n
  | ue value => exact implements_writeUvlc value.toNat
  | se value => exact implements_writeUvlc _
  | s bits value => exact implements_writeS value.toInt bits
  | st str => exact implements_writeString str

/-- The position is a bit position inside the vector or its end. -/
structure Within (s : PCCBitstream) : Prop where
  bits_lt : s.bits < 8
  le_length : 8 * s.bytes + s.bits ≤ 8 * s.data.length

/-- `f` takes from a bitstream what `r` takes from its remaining bits, and moves nothing but
the position. -/
def Follows {α : Type} (f : PCCBitstream → Option (α × PCCBitstream)) (r : Reader α) : Prop :=
  ∀ s a c, s.Within → r s.cursor = some (a, c) →
    ∃ s', f s = some (a, s') ∧ s'.cursor = c ∧ s'.Within ∧ s'.data = s.data

variable {α β : Type}

theorem follows_read (n : ℕ) : Follows (read n) (V3C.read n) := by
  intro s a c hs h
  obtain ⟨s', hread, hcur, hbits⟩ := parses_read n s a c hs.bits_lt h
  obtain ⟨hdata, hpos⟩ := read_position hread
  have hn : n ≤ s.cursor.rest.length := by
    by_contra hlt
    rw [read_eq_none hs.bits_lt (not_le.mp hlt)] at hread
    cases hread
  have hlen : s.cursor.rest.length = 8 * s.data.length - (8 * s.bytes + s.bits) := by
    simp only [cursor, List.length_drop, length_bitsOfBytes]
  have hle := hs.le_length
  refine ⟨s', hread, hcur, ⟨hbits, ?_⟩, hdata⟩
  rw [hdata]
  omega

theorem Follows.bind {f : PCCBitstream → Option (α × PCCBitstream)}
    {g : α → PCCBitstream → Option (β × PCCBitstream)} {r : Reader α} {k : α → Reader β}
    (hf : Follows f r) (hg : ∀ a, Follows (g a) (k a)) :
    Follows (fun s => (f s).bind fun (a, s') => g a s') (r >>= k) := by
  intro s b c hs h
  obtain ⟨a, c₁, hr, hk⟩ := Reader.bind_run_eq_some.mp h
  obtain ⟨s₁, hs₁, rfl, hwithin, hdata⟩ := hf s a c₁ hs hr
  obtain ⟨s₂, hs₂, hcur, hwithin₂, hdata₂⟩ := hg a s₁ b c hwithin hk
  exact ⟨s₂, by simp [hs₁, hs₂], hcur, hwithin₂, hdata₂.trans hdata⟩

theorem Follows.map {f : PCCBitstream → Option (α × PCCBitstream)} {r : Reader α} (g : α → β)
    (hf : Follows f r) :
    Follows (fun s => (f s).map fun (a, s') => (g a, s')) (r >>= fun a => pure (g a)) := by
  intro s b c hs h
  obtain ⟨a, c₁, hr, hk⟩ := Reader.bind_run_eq_some.mp h
  obtain ⟨rfl, rfl⟩ := Prod.mk.inj (Option.some.inj hk)
  obtain ⟨s₁, hs₁, hcur, hwithin, hdata⟩ := hf s a c₁ hs hr
  exact ⟨s₁, by simp [hs₁], hcur, hwithin, hdata⟩

theorem follows_readS (bits : ℕ) : Follows (readS bits) (V3C.readS bits) := by
  intro s a c hs h
  unfold V3C.readS at h
  unfold readS
  split_ifs at h ⊢
  · exact (follows_read bits).map (signedValue · bits) s a c hs h
  · simp [Reader.fail] at h

theorem read_one {s : PCCBitstream} (hs : s.Within) {b : Bool} {rest : List Bool}
    (h : s.cursor.rest = b :: rest) :
    ∃ s', read 1 s = some (b.toNat, s') ∧ s'.cursor = ⟨advance s.cursor.phase 1, rest⟩ ∧
      s'.Within ∧ s'.data = s.data := by
  apply follows_read 1 s b.toNat _ hs
  have htake : Reader.take 1 s.cursor = some ([b], ⟨advance s.cursor.phase 1, rest⟩) := by
    unfold Reader.take
    rw [if_pos (by simp [h]), h]
    rfl
  refine Reader.bind_run_eq_some.mpr ⟨[b], _, htake, ?_⟩
  simp [natOfBits, Reader.pure_run]

theorem length_cursor_rest_le (s : PCCBitstream) : s.cursor.rest.length ≤ 8 * s.data.length := by
  simp only [cursor, List.length_drop, length_bitsOfBytes]
  omega

theorem uvlcPrefix_run {s : PCCBitstream} (hs : s.Within) {n fuel : ℕ} (length : ℕ)
    (hfuel : n < fuel) {rest : List Bool}
    (h : s.cursor.rest = List.replicate n false ++ true :: rest) :
    ∃ s', uvlcPrefix fuel 0 length s = some (length + n + 1, s') ∧
      s'.cursor = ⟨advance s.cursor.phase (n + 1), rest⟩ ∧ s'.Within ∧ s'.data = s.data := by
  induction n generalizing s fuel length with
  | zero =>
    obtain ⟨fuel, rfl⟩ : ∃ k, fuel = k + 1 := ⟨fuel - 1, by omega⟩
    obtain ⟨s₁, hread, hcur, hwithin, hdata⟩ := read_one hs h
    refine ⟨s₁, ?_, hcur, hwithin, hdata⟩
    unfold uvlcPrefix
    simp only [Nat.zero_and, if_true, hread, Option.bind_some]
    unfold uvlcPrefix
    rfl
  | succ n ih =>
    obtain ⟨fuel, rfl⟩ : ∃ k, fuel = k + 1 := ⟨fuel - 1, by omega⟩
    obtain ⟨s₁, hread, hcur, hwithin, hdata⟩ := read_one hs h
    have hrest : s₁.cursor.rest = List.replicate n false ++ true :: rest :=
      congrArg Cursor.rest hcur
    obtain ⟨s₂, hrun, hcur₂, hwithin₂, hdata₂⟩ :=
      ih hwithin (length + 1) (show n < fuel by omega) hrest
    refine ⟨s₂, ?_, ?_, hwithin₂, hdata₂.trans hdata⟩
    · unfold uvlcPrefix
      simp only [Nat.zero_and, if_true, hread, Option.bind_some]
      rw [Bool.toNat_false, hrun]
      congr 2
      omega
    · rw [hcur₂, hcur, advance_advance]
      congr 2
      omega

theorem follows_readUvlc : Follows readUvlc V3C.readUvlc := by
  intro s a c hs h
  obtain ⟨n, c₁, hrun, h⟩ := Reader.bind_run_eq_some.mp h
  obtain ⟨⟨m, rest⟩, hzeros, hpair⟩ := Option.map_eq_some_iff.mp hrun
  obtain ⟨rfl, rfl⟩ := Prod.mk.inj hpair
  have hrest := Reader.zerosIn_eq_some hzeros
  by_cases hm : m < 32
  · rw [if_pos hm] at h
    obtain ⟨value, c₂, hread, hpure⟩ := Reader.bind_run_eq_some.mp h
    obtain ⟨rfl, rfl⟩ := Prod.mk.inj (Option.some.inj hpure)
    cases m with
    | zero =>
      obtain ⟨s₁, hread₁, hcur, hwithin, hdata⟩ := read_one hs hrest
      obtain ⟨rfl, rfl⟩ := Prod.mk.inj (Option.some.inj hread)
      refine ⟨s₁, ?_, ?_, hwithin, hdata⟩
      · simp only [readUvlc, hread₁, Option.bind_some]
        rfl
      · rw [hcur, advance_zero, List.drop_zero]
    | succ m =>
      obtain ⟨s₁, hread₁, hcur, hwithin, hdata⟩ := read_one hs hrest
      have hrest₁ : s₁.cursor.rest = List.replicate m false ++ true :: rest :=
        congrArg Cursor.rest hcur
      have hfuel : m < 8 * s₁.data.length + 1 := by
        have hle := length_cursor_rest_le s₁
        rw [hrest₁, List.length_append, List.length_replicate, List.length_cons] at hle
        omega
      obtain ⟨s₂, hvisited, hcur₂, hwithin₂, hdata₂⟩ := uvlcPrefix_run hwithin 0 hfuel hrest₁
      have hcursor : s₂.cursor = ⟨advance s.cursor.phase (m + 1 + 1), rest⟩ := by
        rw [hcur₂, hcur, advance_advance]
        congr 2
        omega
      rw [← hcursor] at hread
      obtain ⟨s₃, hread₃, hcur₃, hwithin₃, hdata₃⟩ :=
        follows_read (m + 1) s₂ value c₂ hwithin₂ hread
      refine ⟨s₃, ?_, hcur₃, hwithin₃, hdata₃.trans (hdata₂.trans hdata)⟩
      have hpos := Nat.two_pow_pos (m + 1)
      simp only [readUvlc, hread₁, Option.bind_some, Bool.toNat_false, if_true, hvisited,
        Nat.zero_add, if_pos hm, hread₃, Option.map_some]
      rw [Nat.add_sub_assoc hpos]
  · rw [if_neg hm] at h
    cases h

theorem follows_readSvlc : Follows readSvlc V3C.readSvlc :=
  follows_readUvlc.map fun bits =>
    if bits &&& 1 ≠ 0 then ((bits >>> 1 : ℕ) : ℤ) + 1 else -((bits >>> 1 : ℕ) : ℤ)

theorem readPadding_run {s : PCCBitstream} (hs : s.Within) {k fuel : ℕ}
    (hk : k = (8 - s.bits) % 8) (hfuel : k ≤ fuel) (hrest : k ≤ s.cursor.rest.length) :
    ∃ s', readPadding fuel s = some s' ∧
      s'.cursor = ⟨advance s.cursor.phase k, s.cursor.rest.drop k⟩ ∧ s'.Within ∧
      s'.data = s.data := by
  have hbits := hs.bits_lt
  induction k generalizing s fuel with
  | zero =>
    have haligned : s.byteAligned = true := by
      simp only [byteAligned, beq_iff_eq]
      omega
    refine ⟨s, ?_, by simp, hs, rfl⟩
    unfold readPadding
    rw [if_pos haligned]
  | succ k ih =>
    have haligned : ¬ s.byteAligned = true := by
      simp only [byteAligned, beq_iff_eq]
      omega
    obtain ⟨fuel, rfl⟩ : ∃ n, fuel = n + 1 := ⟨fuel - 1, by omega⟩
    obtain ⟨b, rest, hb⟩ := List.exists_cons_of_length_pos (by omega : 0 < s.cursor.rest.length)
    obtain ⟨s₁, hread, hcur, hwithin, hdata⟩ := read_one hs hb
    have hpos := (read_position hread).2
    have hrest₁ : s₁.cursor.rest = rest := congrArg Cursor.rest hcur
    have hlen : k ≤ s₁.cursor.rest.length := by
      rw [hb, List.length_cons] at hrest
      rw [hrest₁]
      omega
    have hbits₁ := hwithin.bits_lt
    obtain ⟨s₂, hrun, hcur₂, hwithin₂, hdata₂⟩ :=
      ih hwithin (by omega) (show k ≤ fuel by omega) hlen hbits₁
    refine ⟨s₂, ?_, ?_, hwithin₂, hdata₂.trans hdata⟩
    · unfold readPadding
      rw [if_neg haligned]
      simp only [hread, Option.bind_some, hrun]
    · rw [hcur₂, hcur, hb, advance_advance, List.drop_succ_cons, Nat.add_comm 1 k]

/-- More fuel than the bits that are left does no harm. -/
theorem readChars_run {fuel fuel' : ℕ} (hfuel : fuel ≤ fuel') :
    Follows (readChars fuel') (V3C.readChars fuel) := by
  induction fuel generalizing fuel' with
  | zero =>
    intro s a c hs h
    cases h
  | succ fuel ih =>
    obtain ⟨fuel', rfl⟩ : ∃ n, fuel' = n + 1 := ⟨fuel' - 1, by omega⟩
    have hloop (element : ℕ) : Follows
        (fun s => if element = 0 then some ([], s)
          else (readChars fuel' s).map fun state => (UInt8.ofNat element :: state.1, state.2))
        (if element = 0 then pure []
          else do
            let str ← V3C.readChars fuel
            pure (UInt8.ofNat element :: str)) := by
      split_ifs with hzero
      · intro s a c hs h
        obtain ⟨rfl, rfl⟩ := Prod.mk.inj (Option.some.inj h)
        exact ⟨s, rfl, rfl, hs, rfl⟩
      · exact (ih (show fuel ≤ fuel' by omega)).map (UInt8.ofNat element :: ·)
    exact (follows_read 8).bind hloop

theorem follows_readString : Follows readString V3C.readString := by
  intro s a c hs h
  obtain ⟨⟨⟩, c₁, hpadding, h⟩ := Reader.bind_run_eq_some.mp h
  obtain ⟨p, c₂, hphase, hpadding⟩ := Reader.bind_run_eq_some.mp hpadding
  obtain ⟨rfl, rfl⟩ := Prod.mk.inj (Option.some.inj hphase)
  obtain ⟨bs, c₃, htake, hpure⟩ := Reader.bind_run_eq_some.mp hpadding
  obtain ⟨-, rfl⟩ := Prod.mk.inj (Option.some.inj hpure)
  have hphase : s.cursor.phase.val = s.bits := by
    have := hs.bits_lt
    simp only [cursor, advance, Fin.val_zero]
    omega
  unfold Reader.take at htake
  split_ifs at htake with hlen
  obtain ⟨-, rfl⟩ := Prod.mk.inj (Option.some.inj htake)
  rw [hphase] at hlen h
  obtain ⟨s₁, hrun, hcur, hwithin, hdata⟩ :=
    readPadding_run hs rfl (show (8 - s.bits) % 8 ≤ 8 by omega) hlen
  rw [← hcur] at h
  obtain ⟨remaining, c₄, hremaining, h⟩ := Reader.bind_run_eq_some.mp h
  obtain ⟨rfl, rfl⟩ := Prod.mk.inj (Option.some.inj hremaining)
  obtain ⟨s₂, hchars, hcur₂, hwithin₂, hdata₂⟩ :=
    readChars_run (length_cursor_rest_le s₁) s₁ a c hwithin h
  exact ⟨s₂, by simp only [readString, hrun, Option.bind_some, hchars], hcur₂, hwithin₂,
    hdata₂.trans hdata⟩

theorem follows_readElement (d : Descriptor) : Follows (readElement d) d.read := by
  cases d with
  | u n => exact (follows_read n).map fun value => SyntaxElement.u n (UInt32.ofNat value)
  | ue => exact follows_readUvlc.map fun value => SyntaxElement.ue (UInt32.ofNat value)
  | se => exact follows_readSvlc.map fun value => SyntaxElement.se (Int32.ofInt value)
  | s bits => exact (follows_readS bits).map fun value => SyntaxElement.s bits (Int32.ofInt value)
  | st => exact follows_readString.map SyntaxElement.st

end PCCBitstream

end V3C

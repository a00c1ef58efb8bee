import V3C.Container.SampleStream

/-! The sample stream of V3C units is a header byte and length-prefixed frames, and is read
back exactly when the sizes fit the precision. -/
namespace V3C
open Codec

/-- The unit's size counts bytes it has. -/
structure V3CUnit.Valid (unit : V3CUnit) : Prop where
  size_pos : 0 < unit.size
  size_le : unit.size ≤ unit.data.length

theorem V3CUnit.Valid.length_bytes {unit : V3CUnit} (h : unit.Valid) :
    unit.bytes.length = unit.size := List.length_take_of_le h.size_le

/-- What the header byte of a sample stream says about its precision. -/
def headerByte (precisionMinus1 : ℕ) : UInt8 := UInt8.ofNat (precisionMinus1 % 8 * 32)

theorem bitsOfNat_headerByte (precisionMinus1 : ℕ) :
    bitsOfNat 8 (headerByte precisionMinus1).toNat =
      bitsOfNat 3 precisionMinus1 ++ bitsOfNat 5 0 := by
  have hlt : precisionMinus1 % 8 * 32 < 256 := by omega
  refine natOfBits_injective (by simp) ?_
  rw [natOfBits_append]
  simp only [natOfBits_bitsOfNat, length_bitsOfNat, headerByte, UInt8.toNat_ofNat']
  omega

namespace PCCBitstreamWriter

theorem sampleStreamV3CHeader_holds (ssvu : SampleStreamV3CUnit) :
    ∃ s, sampleStreamV3CHeader PCCBitstream.empty ssvu = some s ∧
      s.Holds (bitsOfBytes [headerByte ssvu.ssvhUnitSizePrecisionBytesMinus1]) := by
  obtain ⟨s₁, hwrite₁, hs₁⟩ := PCCBitstream.write_holds ssvu.ssvhUnitSizePrecisionBytesMinus1
    (show 3 ≤ 32 by omega) PCCBitstream.holds_empty
  obtain ⟨s₂, hwrite₂, hs₂⟩ := PCCBitstream.write_holds 0 (show 5 ≤ 32 by omega) hs₁
  refine ⟨s₂, ?_, ?_⟩
  · simp only [sampleStreamV3CHeader, hwrite₁, Option.bind_eq_bind, Option.bind_some, hwrite₂]
  · rw [bitsOfBytes_cons, bitsOfBytes_nil, List.append_nil, bitsOfNat_headerByte]
    simpa using hs₂

/-- A unit is written as a frame. -/
theorem sampleStreamV3CUnit_holds {ssvu : SampleStreamV3CUnit} {q : ℕ} (hq : q ≤ 4)
    (hbits : ssvu.sizeBits = 8 * q) {unit : V3CUnit} (hunit : unit.Valid) {s : PCCBitstream}
    {bytes : List UInt8} (hs : s.Holds (bitsOfBytes bytes)) :
    ∃ s', sampleStreamV3CUnit ssvu s unit = some s' ∧
      s'.Holds (bitsOfBytes (bytes ++ frame q unit.bytes)) := by
  obtain ⟨s₁, hwrite, hs₁⟩ := PCCBitstream.write_holds unit.size (show 8 * q ≤ 32 by omega) hs
  rw [← bitsOfBytes_bytesOfNat, ← bitsOfBytes_append] at hs₁
  have hsource : 0 + unit.size ≤ unit.getBitstream.data.length := by
    simpa [V3CUnit.getBitstream] using hunit.size_le
  obtain ⟨s₂, hcopy, -, hs₂⟩ := hs₁.copyFrom hs₁.take_bytes.2 hsource
  refine ⟨s₂, ?_, ?_⟩
  · simp only [sampleStreamV3CUnit, hbits, hwrite, Option.bind_eq_bind, Option.bind_some, hcopy]
    rfl
  · rw [frame, hunit.length_bytes, ← List.append_assoc, bitsOfBytes_append]
    exact hs₂

theorem units_holds {ssvu : SampleStreamV3CUnit} {q : ℕ} (hq : q ≤ 4)
    (hbits : ssvu.sizeBits = 8 * q) {units : List V3CUnit} (hunits : ∀ u ∈ units, u.Valid)
    {s : PCCBitstream} {bytes : List UInt8} (hs : s.Holds (bitsOfBytes bytes)) :
    ∃ s', units.foldlM (sampleStreamV3CUnit ssvu) s = some s' ∧
      s'.Holds (bitsOfBytes (bytes ++ frames q (units.map V3CUnit.bytes))) := by
  induction units generalizing s bytes with
  | nil => exact ⟨s, rfl, by simpa using hs⟩
  | cons unit units ih =>
    obtain ⟨hunit, hunits⟩ := List.forall_mem_cons.mp hunits
    obtain ⟨s₁, hfirst, hs₁⟩ := sampleStreamV3CUnit_holds hq hbits hunit hs
    obtain ⟨s₂, hrest, hs₂⟩ := ih hunits hs₁
    refine ⟨s₂, ?_, by simpa using hs₂⟩
    rw [List.foldlM_cons, hfirst]
    exact hrest

theorem precision_pos (units : List V3CUnit) (forced : ℕ) : 0 < precision units forced :=
  lt_of_lt_of_le (sizePrecision_pos _) (le_max_left _ _)

/-- A size field of `q` bytes, as far as `uint8_t` tells. -/
theorem sizeBits_precision (units : List V3CUnit) (forced : ℕ) :
    SampleStreamV3CUnit.sizeBits ⟨units, precision units forced - 1⟩ =
      8 * (precision units forced % 32) := by
  have := precision_pos units forced
  unfold SampleStreamV3CUnit.sizeBits
  simp only
  omega

/-- The bytes of the stream. -/
theorem write_holds {units : List V3CUnit} (hunits : ∀ u ∈ units, u.Valid) {forced : ℕ}
    (hq : precision units forced % 32 ≤ 4) :
    ∃ ssvu s headerSize, PCCBitstreamWriter.write ⟨units, 0⟩ PCCBitstream.empty forced = some (ssvu, s, headerSize) ∧
      s.data.take s.bytes = headerByte (precision units forced - 1) ::
        frames (precision units forced % 32) (units.map V3CUnit.bytes) := by
  obtain ⟨s₁, hheader, hs₁⟩ :=
    sampleStreamV3CHeader_holds ⟨units, precision units forced - 1⟩
  obtain ⟨s₂, hrest, hs₂⟩ := units_holds hq (sizeBits_precision units forced) hunits hs₁
  have hwrite : PCCBitstreamWriter.write ⟨units, 0⟩ PCCBitstream.empty forced =
      some (⟨units, precision units forced - 1⟩, s₂,
        1 + units.length * (precision units forced - 1 + 1)) := by
    simp only [PCCBitstreamWriter.write, hheader, Option.bind_eq_bind, Option.bind_some, hrest]
    rfl
  exact ⟨_, s₂, _, hwrite, hs₂.take_bytes.1⟩

/-- Size fields of more than 32 bits are shifted out of the value. -/
theorem write_eq_none {units : List V3CUnit} (hne : units ≠ []) {forced : ℕ}
    (hq : 4 < precision units forced % 32) :
    PCCBitstreamWriter.write ⟨units, 0⟩ PCCBitstream.empty forced = none := by
  obtain ⟨unit, units', rfl⟩ := List.exists_cons_of_ne_nil hne
  obtain ⟨s₁, hheader, hs₁⟩ :=
    sampleStreamV3CHeader_holds ⟨unit :: units', precision (unit :: units') forced - 1⟩
  have hbits := sizeBits_precision (unit :: units') forced
  have hfail : PCCBitstream.write unit.size
      (SampleStreamV3CUnit.sizeBits ⟨unit :: units', precision (unit :: units') forced - 1⟩) s₁ =
        none := by
    rw [PCCBitstream.write, if_neg (by omega)]
  simp only [PCCBitstreamWriter.write, hheader, Option.bind_eq_bind, Option.bind_some, List.foldlM_cons,
    sampleStreamV3CUnit, hfail, Option.bind_none]

end PCCBitstreamWriter

/-- The unit that is made of the bytes of a frame. -/
def V3CUnit.ofBytes (payload : List UInt8) : Option V3CUnit :=
  payload.head?.map fun b => { type := b.toNat >>> 3, size := payload.length, data := payload }

theorem V3CUnit.ofBytes_bytes {payload : List UInt8} {unit : V3CUnit}
    (h : V3CUnit.ofBytes payload = some unit) :
    (unit.size, unit.bytes) = (payload.length, payload) := by
  obtain ⟨b, -, rfl⟩ := Option.map_eq_some_iff.mp h
  simp [V3CUnit.bytes]

namespace PCCBitstreamReader

/-- A unit is read as a frame. -/
theorem sampleStreamV3CUnit_eq {ssvu : SampleStreamV3CUnit} {q : ℕ} (hq : q ≤ 4)
    (hbits : ssvu.sizeBits = 8 * q) {s : PCCBitstream} (hs : s.bits = 0)
    (hin : s.bytes ≤ s.data.length) : sampleStreamV3CUnit ssvu s = (unframe q (s.data.drop s.bytes)).bind fun p =>
      (V3CUnit.ofBytes p.1).map fun unit =>
        (unit, { s with bytes := s.bytes + (q + p.1.length) }) := by
  have hrest : s.cursor.rest.length = 8 * (s.data.length - s.bytes) := by
    rw [PCCBitstream.cursor_rest, hs, List.drop_zero, length_bitsOfBytes, List.length_drop]
  unfold sampleStreamV3CUnit unframe
  rw [hbits]
  by_cases hlen : s.bytes + q ≤ s.data.length
  · rw [PCCBitstream.read_aligned hs hq hlen]
    simp only [Option.bind_eq_bind, Option.bind_some]
    generalize natOfBytes ((s.data.drop s.bytes).take q) = size
    unfold PCCBitstream.copyFrom
    rw [List.length_drop]
    by_cases hfit : s.bytes + q + size ≤ s.data.length
    · rw [if_pos hfit, if_pos (by omega)]
      simp only [Option.bind_some, PCCBitstream.empty, PCCBitstream.overwrite, List.drop_drop]
      have hsize : ((s.data.drop (s.bytes + q)).take size).length = size := by
        rw [List.length_take_of_le]
        rw [List.length_drop]
        omega
      generalize (s.data.drop (s.bytes + q)).take size = payload at hsize
      subst hsize
      cases payload with
      | nil => rfl
      | cons b payload => simp [V3CUnit.ofBytes, Nat.add_assoc]
    · rw [if_neg hfit, if_neg (by omega)]
      rfl
  · rw [PCCBitstream.read_eq_none (by omega) (by omega), List.length_drop, if_neg (by omega)]
    rfl

/-- The loop of `read` takes off the frames, and turns every one into a unit. -/
theorem readUnits_eq {ssvu : SampleStreamV3CUnit} {q : ℕ} (hq : q ≤ 4)
    (hbits : ssvu.sizeBits = 8 * q) (fuel headerSize : ℕ) {s : PCCBitstream} (hs : s.bits = 0)
    (hin : s.bytes ≤ s.data.length) :
    (readUnits fuel ssvu s headerSize).map (fun r => r.1.v3cUnits) =
      (unframes q fuel (s.data.drop s.bytes)).bind fun payloads =>
        (payloads.mapM V3CUnit.ofBytes).map fun units => ssvu.v3cUnits ++ units := by
  induction fuel generalizing ssvu s headerSize with
  | zero =>
    unfold readUnits unframes
    by_cases hmore : s.bytes < s.data.length
    · simp [PCCBitstream.moreData, hmore, not_le.mpr hmore]
    · simp [PCCBitstream.moreData, hmore, Nat.le_of_not_lt hmore]
  | succ fuel ih =>
    unfold readUnits unframes
    by_cases hmore : s.bytes < s.data.length
    · simp only [PCCBitstream.moreData, hmore, decide_true, if_true, List.drop_eq_nil_iff,
        not_le.mpr hmore, if_false, sampleStreamV3CUnit_eq hq hbits hs hin, Option.bind_eq_bind]
      cases hunframe : unframe q (s.data.drop s.bytes) with
      | none => rfl
      | some p =>
        obtain ⟨payload, rest⟩ := p
        obtain ⟨hfit, -, -, hrest⟩ := unframe_eq_some hunframe
        rw [List.length_drop] at hfit
        rw [List.drop_drop] at hrest
        simp only [Option.bind_some]
        cases hunit : V3CUnit.ofBytes payload with
        | none =>
          cases unframes q fuel rest with
          | none => rfl
          | some payloads => simp [hunit]
        | some unit =>
          simp only [Option.map_some, Option.bind_some]
          rw [ih (by exact hbits) _ (by exact hs) (by simp only; omega), ← hrest]
          cases unframes q fuel rest with
          | none => rfl
          | some payloads =>
            cases hunits : payloads.mapM V3CUnit.ofBytes with
            | none => simp [hunit, hunits]
            | some units => simp [hunit, hunits]
    · simp [PCCBitstream.moreData, hmore, Nat.le_of_not_lt hmore]

theorem sampleStreamV3CHeader_eq (precisionMinus1 : ℕ) (rest : List UInt8) :
    sampleStreamV3CHeader ⟨headerByte precisionMinus1 :: rest, 0, 0⟩ ⟨[], 0⟩ =
      some (⟨[], precisionMinus1 % 8⟩, ⟨headerByte precisionMinus1 :: rest, 1, 0⟩) := by
  have hrest : PCCBitstream.cursor ⟨headerByte precisionMinus1 :: rest, 0, 0⟩ =
      ⟨0, bitsOfNat 3 precisionMinus1 ++ (bitsOfNat 5 0 ++ bitsOfBytes rest)⟩ := by
    simp [PCCBitstream.cursor, bitsOfNat_headerByte]
  have htake₁ : Reader.take 3 (PCCBitstream.cursor ⟨headerByte precisionMinus1 :: rest, 0, 0⟩) =
      some (bitsOfNat 3 precisionMinus1, ⟨advance 0 3, bitsOfNat 5 0 ++ bitsOfBytes rest⟩) := by
    rw [hrest]
    simp [Reader.take, bitsOfNat]
  obtain ⟨s₁, hread₁, hcur₁, hbits₁⟩ :=
    PCCBitstream.read_cursor (by omega) (by simp) htake₁
  have htake₂ : Reader.take 5 s₁.cursor =
      some (bitsOfNat 5 0, ⟨advance (advance 0 3) 5, bitsOfBytes rest⟩) := by
    rw [hcur₁]
    simp [Reader.take, bitsOfNat]
  obtain ⟨s₂, hread₂, -, hbits₂⟩ := PCCBitstream.read_cursor (by omega) hbits₁ htake₂
  obtain ⟨hdata₁, hpos₁⟩ := PCCBitstream.read_position hread₁
  obtain ⟨hdata₂, hpos₂⟩ := PCCBitstream.read_position hread₂
  simp only [sampleStreamV3CHeader, hread₁, Option.bind_eq_bind, Option.bind_some, hread₂,
    natOfBits_bitsOfNat]
  simp only [mul_zero, zero_add] at hpos₁
  have hpos : s₂.bytes = 1 ∧ s₂.bits = 0 := by omega
  cases s₂ with
  | mk data bytes bits =>
    obtain ⟨rfl, rfl⟩ := hpos
    cases hdata₂.trans hdata₁
    rfl

end PCCBitstreamReader

/-- Units written to a sample stream come back with their sizes and bytes, in order. -/
def SampleStreamRoundTrips (units : List V3CUnit) (forced : ℕ) : Prop :=
  ∃ ssvu s headerSize fuel ssvu' s' headerSize',
    PCCBitstreamWriter.write ⟨units, 0⟩ PCCBitstream.empty forced = some (ssvu, s, headerSize) ∧
    PCCBitstreamReader.read fuel ⟨s.data.take s.bytes, 0, 0⟩ ⟨[], 0⟩ =
      some (ssvu', s', headerSize') ∧
    ssvu'.v3cUnits.map (fun u => (u.size, u.bytes)) = units.map fun u => (u.size, u.bytes)

section
open PCCBitstreamWriter PCCBitstreamReader

/-- What the reader makes of the bytes of a written stream. -/
theorem read_frames {precisionMinus1 q : ℕ} (hq : q ≤ 4) (hpos : 0 < q)
    (hprecision : precisionMinus1 % 8 + 1 = q) (fuel : ℕ) (payloads : List (List UInt8)) :
    (PCCBitstreamReader.read fuel ⟨headerByte precisionMinus1 :: frames q payloads, 0, 0⟩ ⟨[], 0⟩).map
        (fun r => r.1.v3cUnits) =
      (unframes q fuel (frames q payloads)).bind (List.mapM V3CUnit.ofBytes) := by
  have hbits : SampleStreamV3CUnit.sizeBits ⟨[], precisionMinus1 % 8⟩ = 8 * q := by
    unfold SampleStreamV3CUnit.sizeBits
    simp only
    omega
  unfold PCCBitstreamReader.read
  rw [sampleStreamV3CHeader_eq]
  simp only [Option.bind_eq_bind, Option.bind_some]
  rw [readUnits_eq hq hbits fuel 1 rfl (by simp)]
  simp

theorem mapM_ofBytes_eq_some {payloads : List (List UInt8)} {units : List V3CUnit}
    (h : payloads.mapM V3CUnit.ofBytes = some units) :
    units.map (fun u => (u.size, u.bytes)) = payloads.map fun p => (p.length, p) := by
  induction payloads generalizing units with
  | nil =>
    cases h
    rfl
  | cons payload payloads ih =>
    rw [List.mapM_cons] at h
    obtain ⟨unit, hunit, h⟩ := Option.bind_eq_some_iff.mp h
    obtain ⟨units', hunits', h⟩ := Option.bind_eq_some_iff.mp h
    cases h
    rw [List.map_cons, List.map_cons, ih hunits', V3CUnit.ofBytes_bytes hunit]

theorem exists_mapM_ofBytes {payloads : List (List UInt8)} (h : ∀ p ∈ payloads, p ≠ []) :
    ∃ units, payloads.mapM V3CUnit.ofBytes = some units := by
  induction payloads with
  | nil => exact ⟨[], rfl⟩
  | cons payload payloads ih =>
    obtain ⟨hne, h⟩ := List.forall_mem_cons.mp h
    obtain ⟨units, hunits⟩ := ih h
    obtain ⟨b, rest, rfl⟩ := List.exists_cons_of_ne_nil hne
    rw [List.mapM_cons, hunits]
    exact ⟨_, rfl⟩

/-- A precision that is a multiple of 32 leaves the size fields out and has the header say
eight bytes. -/
theorem read_eq_none {precisionMinus1 : ℕ} (hprecision : precisionMinus1 % 8 = 7) (fuel : ℕ)
    {bytes : List UInt8} (hne : bytes ≠ []) :
    PCCBitstreamReader.read fuel ⟨headerByte precisionMinus1 :: bytes, 0, 0⟩ ⟨[], 0⟩ = none := by
  have hmore : PCCBitstream.moreData ⟨headerByte precisionMinus1 :: bytes, 1, 0⟩ = true := by
    have := List.length_pos_iff.mpr hne
    simp only [PCCBitstream.moreData, List.length_cons, decide_eq_true_eq]
    omega
  unfold PCCBitstreamReader.read
  rw [sampleStreamV3CHeader_eq, hprecision]
  simp only [Option.bind_eq_bind, Option.bind_some]
  unfold readUnits
  rw [if_pos hmore]
  cases fuel with
  | zero => rfl
  | succ fuel => rfl

/-- The units come back exactly when the size fields are one to four bytes, as far as the
writer's `uint8_t` tells, and every size fits them. -/
theorem sampleStreamRoundTrips_iff_precision {units : List V3CUnit} (hne : units ≠ [])
    (hunits : ∀ u ∈ units, u.Valid) (forced : ℕ) :
    SampleStreamRoundTrips units forced ↔
      0 < precision units forced % 32 ∧ precision units forced % 32 ≤ 4 ∧
        ∀ u ∈ units, u.size < 256 ^ (precision units forced % 32) := by
  have hpos := precision_pos units forced
  constructor
  · rintro ⟨ssvu, s, headerSize, fuel, ssvu', s', headerSize', hwrite, hread, hsame⟩
    by_cases hq : precision units forced % 32 ≤ 4
    · obtain ⟨_, _, _, hwrite', hdata⟩ := write_holds hunits hq
      cases hwrite.symm.trans hwrite'
      rw [hdata] at hread
      by_cases hq0 : 0 < precision units forced % 32
      · have hframes := read_frames hq hq0
          (show (precision units forced - 1) % 8 + 1 = _ by omega) fuel (units.map V3CUnit.bytes)
        rw [hread, Option.map_some] at hframes
        obtain ⟨payloads, hpayloads, hmap⟩ := Option.bind_eq_some_iff.mp hframes.symm
        have hbytes := congrArg (List.map Prod.snd) (hsame.symm.trans (mapM_ofBytes_eq_some hmap))
        simp only [List.map_map, Function.comp_def, List.map_id'] at hbytes
        have hfit := (unframes_frames_iff hq0 (units.map V3CUnit.bytes)).mp
          ⟨fuel, hpayloads.trans (congrArg some hbytes.symm)⟩
        refine ⟨hq0, hq, fun u hu => ?_⟩
        rw [← (hunits u hu).length_bytes]
        exact hfit _ (List.mem_map_of_mem hu)
      · have hzero : precision units forced % 32 = 0 := by omega
        obtain ⟨unit, units', rfl⟩ := List.exists_cons_of_ne_nil hne
        have hunit := (hunits unit List.mem_cons_self).length_bytes
        have hsize := (hunits unit List.mem_cons_self).size_pos
        rw [read_eq_none (by omega)] at hread
        · cases hread
        · intro hnil
          have := congrArg List.length hnil
          rw [List.map_cons, frames_cons, List.length_append, length_frame,
            List.length_nil] at this
          omega
    · rw [write_eq_none hne (by omega)] at hwrite
      cases hwrite
  · rintro ⟨hq0, hq, hsize⟩
    obtain ⟨ssvu, s, headerSize, hwrite, hdata⟩ := write_holds hunits hq
    have hfit : ∀ p ∈ units.map V3CUnit.bytes,
        p.length < 256 ^ (precision units forced % 32) := by
      intro p hp
      obtain ⟨u, hu, rfl⟩ := List.mem_map.mp hp
      rw [(hunits u hu).length_bytes]
      exact hsize u hu
    have hnonempty : ∀ p ∈ units.map V3CUnit.bytes, p ≠ [] := by
      intro p hp hnil
      obtain ⟨u, hu, rfl⟩ := List.mem_map.mp hp
      have hlen := (hunits u hu).length_bytes
      have := (hunits u hu).size_pos
      rw [hnil, List.length_nil] at hlen
      omega
    obtain ⟨fuel, hfuel⟩ := (unframes_frames_iff hq0 _).mpr hfit
    obtain ⟨units', hunits'⟩ := exists_mapM_ofBytes hnonempty
    have hframes := read_frames hq hq0
      (show (precision units forced - 1) % 8 + 1 = _ by omega) fuel (units.map V3CUnit.bytes)
    rw [hfuel, Option.bind_some, hunits'] at hframes
    obtain ⟨⟨ssvu', s', headerSize'⟩, hread, hresult⟩ := Option.map_eq_some_iff.mp hframes
    refine ⟨ssvu, s, headerSize, fuel, ssvu', s', headerSize', hwrite, by rw [hdata, hread], ?_⟩
    rw [hresult, mapM_ofBytes_eq_some hunits', List.map_map]
    refine List.map_congr_left fun u hu => ?_
    simp only [Function.comp_apply, (hunits u hu).length_bytes]

def largestSize (units : List V3CUnit) : ℕ := (units.map V3CUnit.size).foldr max 0

theorem largestSize_lt_iff {units : List V3CUnit} {n : ℕ} (hn : 0 < n) :
    largestSize units < n ↔ ∀ u ∈ units, u.size < n := by
  induction units with
  | nil => simp [largestSize, hn]
  | cons unit units ih =>
    rw [List.forall_mem_cons, ← ih]
    simp [largestSize]

theorem maxUnitSize_eq {units : List V3CUnit} (h : ∀ u ∈ units, u.size < 2 ^ 32) :
    maxUnitSize units = largestSize units := by
  have hloop (m : ℕ) : units.foldl
      (fun maxSize unit => if maxSize < unit.size then unit.size % 2 ^ 32 else maxSize) m =
        max m (largestSize units) := by
    induction units generalizing m with
    | nil => simp [largestSize]
    | cons unit units ih =>
      obtain ⟨hunit, h⟩ := List.forall_mem_cons.mp h
      rw [List.foldl_cons, ih h, Nat.mod_eq_of_lt hunit]
      simp only [largestSize, List.map_cons, List.foldr_cons]
      split_ifs <;> omega
  rw [maxUnitSize, hloop, Nat.zero_max]

/-- With a forced precision of at most four bytes no size needs 32 bits, and the largest is
not a power of 256 that the precision stops at; a larger one counts modulo 32. -/
def SizesFit (largest forced : ℕ) : Prop :=
  if forced ≤ 4 then
    largest < 2 ^ 32 ∧ ∀ k, 0 < k → k < 4 → largest = 256 ^ k → k < forced
  else 0 < forced % 32 ∧ forced % 32 ≤ 4 ∧ largest < 256 ^ (forced % 32)

theorem pow_256_le {q : ℕ} (hq : q ≤ 4) : 256 ^ q ≤ 2 ^ 32 :=
  calc 256 ^ q ≤ 256 ^ 4 := Nat.pow_le_pow_right (by omega) hq
    _ = 2 ^ 32 := by norm_num

theorem SizesFit.lt {largest forced : ℕ} (h : SizesFit largest forced) : largest < 2 ^ 32 := by
  unfold SizesFit at h
  split_ifs at h
  · exact h.1
  · exact lt_of_lt_of_le h.2.2 (pow_256_le h.2.1)

/-- The precision chosen for the largest size has room for it, up to the powers of 256. -/
theorem sizesFit_iff {largest : ℕ} (hlargest : largest < 2 ^ 32) (forced : ℕ) :
    (0 < max (sizePrecision largest) forced % 32 ∧ max (sizePrecision largest) forced % 32 ≤ 4 ∧
        largest < 256 ^ (max (sizePrecision largest) forced % 32)) ↔
      SizesFit largest forced := by
  have hle := fun {k : ℕ} (hk : 0 < k) => sizePrecision_le_iff hk hlargest
  have hpos := sizePrecision_pos largest
  have hfour : sizePrecision largest ≤ 4 := (hle (by omega)).mpr (by omega)
  have hroom : largest ≤ 256 ^ sizePrecision largest := (hle hpos).mp le_rfl
  unfold SizesFit
  split_ifs with hforced
  · rw [Nat.mod_eq_of_lt (show max (sizePrecision largest) forced < 32 by omega)]
    constructor
    · rintro ⟨-, -, hlt⟩
      refine ⟨hlargest, fun k hk _ heq => ?_⟩
      have hk' : sizePrecision largest ≤ k := (hle hk).mpr heq.le
      have hlt' : 256 ^ k < 256 ^ max (sizePrecision largest) forced := heq ▸ hlt
      have := (Nat.pow_lt_pow_iff_right (show 1 < 256 by omega)).mp hlt'
      omega
    · rintro ⟨-, hpow⟩
      refine ⟨by omega, by omega, ?_⟩
      have hstep : 256 ^ sizePrecision largest ≤ 256 ^ max (sizePrecision largest) forced :=
        Nat.pow_le_pow_right (by omega) (le_max_left _ _)
      rcases lt_or_eq_of_le (hroom.trans hstep) with hlt | heq
      · exact hlt
      · -- only the precision itself can be reached, by a power of 256 below the fourth
        have hprecision : sizePrecision largest = max (sizePrecision largest) forced :=
          Nat.pow_right_injective (show 2 ≤ 256 by omega)
            (le_antisymm hstep (heq.symm.le.trans hroom))
        rw [← hprecision] at heq
        have hlt : sizePrecision largest < 4 := by
          refine (Nat.pow_lt_pow_iff_right (show 1 < 256 by omega)).mp ?_
          rw [← heq]
          omega
        have := hpow _ hpos hlt heq
        omega
  · rw [max_eq_right (show sizePrecision largest ≤ forced by omega)]

/-- Exactly which sizes come back. -/
theorem sampleStreamRoundTrips_iff {units : List V3CUnit} (hne : units ≠ [])
    (hunits : ∀ u ∈ units, u.Valid) (forced : ℕ) :
    SampleStreamRoundTrips units forced ↔ SizesFit (largestSize units) forced := by
  rw [sampleStreamRoundTrips_iff_precision hne hunits]
  constructor
  · rintro ⟨hpos, hfour, hsize⟩
    have hlt := (largestSize_lt_iff (by positivity)).mpr hsize
    have h32 := lt_of_lt_of_le hlt (pow_256_le hfour)
    have hmax := maxUnitSize_eq ((largestSize_lt_iff (by positivity)).mp h32)
    rw [precision, hmax] at hpos hfour hlt
    exact (sizesFit_iff h32 forced).mp ⟨hpos, hfour, hlt⟩
  · intro hfit
    have hmax := maxUnitSize_eq ((largestSize_lt_iff (by positivity)).mp hfit.lt)
    rw [precision, hmax, ← largestSize_lt_iff (by positivity)]
    exact (sizesFit_iff hfit.lt forced).mpr hfit

theorem sampleStreamRoundTrips_two_units :
    SampleStreamRoundTrips [⟨0, 1, [0]⟩, ⟨1, 2, [8, 0]⟩] 0 := by
  have hfit : SizesFit 2 0 := by
    unfold SizesFit
    rw [if_pos (Nat.zero_le 4)]
    refine ⟨by decide, fun k hk _ hpow => ?_⟩
    have hle : 256 ^ 1 ≤ 256 ^ k := Nat.pow_le_pow_right (by decide) hk
    omega
  refine (sampleStreamRoundTrips_iff (by simp) ?_ 0).mpr hfit
  simp only [List.forall_mem_cons]
  exact ⟨⟨by decide, by decide⟩, ⟨by decide, by decide⟩, by simp⟩

/-- A unit of 256 bytes gets a size field of one byte. -/
theorem not_sampleStreamRoundTrips_256 :
    ¬ SampleStreamRoundTrips [⟨0, 256, List.replicate 256 0⟩] 0 := by
  intro h
  have hvalid : ∀ u ∈ [V3CUnit.mk 0 256 (List.replicate 256 0)], u.Valid := by
    intro u hu
    obtain rfl := List.mem_singleton.mp hu
    exact ⟨show 0 < 256 by omega, List.length_replicate.ge⟩
  have hprecision : precision [⟨0, 256, List.replicate 256 0⟩] 0 = 1 := by
    decide
  obtain ⟨-, -, hsize⟩ :=
    (sampleStreamRoundTrips_iff_precision (List.cons_ne_nil _ _) hvalid 0).mp h
  have := hsize _ List.mem_cons_self
  rw [hprecision] at this
  simp at this

end

end V3C

import V3C.Video.PCCVideoBitstream
import Mathlib.Data.List.Induction

/-! From sample stream to byte stream and back. -/
namespace V3C
open Codec

/-- A start code of three bytes from index `i` on. -/
def ShortStartCodeAt (bytes : List UInt8) (i : ℕ) : Prop :=
  bytes[i]? = some 0 ∧ bytes[i + 1]? = some 0 ∧ bytes[i + 2]? = some 1

/-- The bytes of a NAL unit: at least its header, no start code inside, and no zero at the
end that a start code could begin with. -/
structure IsNalu (bytes : List UInt8) : Prop where
  two_le : 2 ≤ bytes.length
  no_start_code : ∀ i, ¬ ShortStartCodeAt bytes i
  last_ne_zero : bytes[bytes.length - 1]? ≠ some 0

theorem IsNalu.getElem?_ne_zero {bytes : List UInt8} (h : IsNalu bytes) {i : ℕ}
    (hi : i + 1 = bytes.length) : bytes[i]? ≠ some 0 := by
  have hlast := h.last_ne_zero
  rwa [show bytes.length - 1 = i by omega] at hlast

/-- No start code begins inside a NAL unit, whatever follows it. -/
theorem IsNalu.not_startCodeAt {nalu : List UInt8} (h : IsNalu nalu) (pre post : List UInt8)
    {i : ℕ} (hi : i < nalu.length) : ¬ StartCodeAt (pre ++ (nalu ++ post)) (pre.length + i) := by
  have hin (j : ℕ) (hj : j < nalu.length) :
      (pre ++ (nalu ++ post))[pre.length + j]? = nalu[j]? := by
    rw [List.getElem?_append_right (by omega), Nat.add_sub_cancel_left,
      List.getElem?_append_left hj]
  rintro ⟨h0, h1, h2⟩
  rw [hin i hi] at h0
  by_cases hi1 : i + 1 < nalu.length
  · rw [Nat.add_assoc, hin _ hi1] at h1
    by_cases hi2 : i + 2 < nalu.length
    · rw [Nat.add_assoc, hin _ hi2] at h2
      obtain h2 | ⟨h2, h3⟩ := h2
      · exact h.no_start_code i ⟨h0, h1, h2⟩
      · by_cases hi3 : i + 3 < nalu.length
        · rw [Nat.add_assoc, hin _ hi3] at h3
          exact h.no_start_code (i + 1) ⟨h1, h2, h3⟩
        · exact h.getElem?_ne_zero (show i + 2 + 1 = nalu.length by omega) h2
    · exact h.getElem?_ne_zero (show i + 1 + 1 = nalu.length by omega) h1
  · exact h.getElem?_ne_zero (show i + 1 = nalu.length by omega) h0

theorem startCodeAt_append {sizeStartCode : ℕ} (hsize : sizeStartCode = 3 ∨ sizeStartCode = 4)
    (pre post : List UInt8) : StartCodeAt (pre ++ (startCode sizeStartCode ++ post)) pre.length := by
  have hin (j : ℕ) : (pre ++ (startCode sizeStartCode ++ post))[pre.length + j]? =
      (startCode sizeStartCode ++ post)[j]? := by
    rw [List.getElem?_append_right (by omega), Nat.add_sub_cancel_left]
  have h0 : (pre ++ (startCode sizeStartCode ++ post))[pre.length]? =
      (startCode sizeStartCode ++ post)[0]? := hin 0
  unfold StartCodeAt
  rw [h0, hin 1, hin 2, hin 3]
  obtain rfl | rfl := hsize
  · exact ⟨rfl, rfl, .inl rfl⟩
  · exact ⟨rfl, rfl, .inr ⟨rfl, rfl⟩⟩

theorem searchStartCode_eq {data : List UInt8} {k i j : ℕ} (hij : i ≤ j) (hjk : j < i + k)
    (hbefore : ∀ m, i ≤ m → m < j → ¬ StartCodeAt data m) (hat : StartCodeAt data j) :
    searchStartCode data k i = j := by
  induction k generalizing i with
  | zero => omega
  | succ k ih =>
    rw [searchStartCode]
    rcases lt_or_eq_of_le hij with hlt | rfl
    · rw [if_neg (hbefore i le_rfl hlt)]
      exact ih (by omega) (by omega) fun m hm => hbefore m (by omega)
    · rw [if_pos hat]

theorem searchStartCode_eq_length {data : List UInt8} {k i : ℕ}
    (hnone : ∀ m, i ≤ m → m < i + k → ¬ StartCodeAt data m) :
    searchStartCode data k i = data.length := by
  induction k generalizing i with
  | zero => rfl
  | succ k ih =>
    rw [searchStartCode, if_neg (hnone i le_rfl (by omega))]
    exact ih fun m hm hmk => hnone m (by omega) (by omega)

/-- What may follow a NAL unit in a byte stream: nothing, or a start code and two bytes more. -/
def FollowsNalu (post : List UInt8) : Prop :=
  post = [] ∨ ∃ sizeStartCode rest, (sizeStartCode = 3 ∨ sizeStartCode = 4) ∧
    post = startCode sizeStartCode ++ rest ∧ 2 ≤ rest.length

/-- The end of a NAL unit is found where it is. -/
theorem getEndOfNaluPosition_eq {nalu post : List UInt8} (h : IsNalu nalu)
    (hpost : FollowsNalu post) (pre : List UInt8) :
    getEndOfNaluPosition (pre ++ (nalu ++ post)) pre.length = pre.length + nalu.length := by
  unfold getEndOfNaluPosition
  have htwo := h.two_le
  have hbefore (m : ℕ) (hm : pre.length ≤ m) (hlt : m < pre.length + nalu.length) :
      ¬ StartCodeAt (pre ++ (nalu ++ post)) m := by
    rw [show m = pre.length + (m - pre.length) by omega]
    exact h.not_startCodeAt pre post (by omega)
  obtain rfl | ⟨sizeStartCode, rest, hsize, rfl, hrest⟩ := hpost
  · simp only [List.append_nil, List.length_append] at hbefore ⊢
    split_ifs
    · rfl
    · rw [searchStartCode_eq_length, List.length_append]
      intro m hm hlt
      exact hbefore m hm (by omega)
  · have hat : StartCodeAt (pre ++ (nalu ++ (startCode sizeStartCode ++ rest)))
        (pre.length + nalu.length) := by
      have := startCodeAt_append hsize (pre ++ nalu) rest
      rwa [List.append_assoc, List.length_append] at this
    have hlen : (startCode sizeStartCode).length = sizeStartCode := by
      obtain rfl | rfl := hsize <;> rfl
    simp only [List.length_append, hlen]
    rw [if_neg (by omega)]
    exact searchStartCode_eq (by omega) (by omega) hbefore hat

theorem toInt32_of_ge {n : ℕ} (hlow : 2 ^ 31 ≤ n) (hhigh : n < 2 ^ 32) :
    toInt32 n = (n : ℤ) - 2 ^ 32 := by
  unfold toInt32
  rw [Int.bmod_def, Int.emod_eq_of_lt (by omega) (by omega), if_neg (by omega)]
  omega

/-- The last byte does not carry. -/
theorem toInt32_add_byte {m b : ℕ} (hm : m % 256 = 0) (hlt : m < 2 ^ 32) (hb : b < 256) :
    toInt32 m + b = toInt32 (m + b) := by
  rcases lt_or_ge m (2 ^ 31) with hlow | hhigh
  · have hsum : m + b < 2 ^ 31 := by omega
    simp only [toInt32_of_lt hlow, toInt32_of_lt hsum, Nat.cast_add]
  · have hsum : m + b < 2 ^ 32 := by omega
    have hge : 2 ^ 31 ≤ m + b := by omega
    simp only [toInt32_of_ge hhigh hlt, toInt32_of_ge hge hsum, Nat.cast_add]
    omega

private theorem shift_fits {n b : ℕ} (hb : b < 256) : n * 256 + b < 2 ^ 32 ↔ n < 2 ^ 24 := by
  omega

/-- One more byte of a size, where the bytes before it fitted. -/
theorem shiftInByte_eq (n : ℕ) (hn : n < 2 ^ 32) (b : UInt8) :
    shiftInByte (toInt32 n) b =
      if n * 256 + b.toNat < 2 ^ 32 then some (toInt32 (n * 256 + b.toNat)) else none := by
  simp only [shift_fits b.toNat_lt]
  unfold shiftInByte
  by_cases hfit : n < 2 ^ 24
  · have hsmall : n < 2 ^ 31 := by omega
    have hcond : (0 : ℤ) ≤ n ∧ (n : ℤ) * 256 < 2 ^ 32 := by omega
    have hsum := toInt32_add_byte (show n * 256 % 256 = 0 by omega)
      (show n * 256 < 2 ^ 32 by omega) b.toNat_lt
    simp only [toInt32_of_lt hsmall, Int.toNat_natCast, if_pos hcond, if_pos hfit, hsum]
  · have hcond : ¬ (0 ≤ toInt32 n ∧ toInt32 n * 256 < 2 ^ 32) := by
      rcases lt_or_ge n (2 ^ 31) with hlow | hhigh
      · rw [toInt32_of_lt hlow]
        omega
      · rw [toInt32_of_ge hhigh hn]
        omega
    simp only [if_neg hcond, if_neg hfit]

private theorem readNaluSize_nil : readNaluSize [] =
    if natOfBytes [] < 2 ^ 32 then some (toInt32 (natOfBytes [])) else none := by
  have h : natOfBytes [] = 0 := by rw [natOfBytes]
  rw [h, toInt32_of_lt (Nat.two_pow_pos _), if_pos (Nat.two_pow_pos _)]
  rfl

private theorem readNaluSize_append (bytes : List UInt8) (b : UInt8) :
    readNaluSize (bytes ++ [b]) = (readNaluSize bytes).bind fun n => shiftInByte n b := by
  rw [readNaluSize, List.foldlM_append, ← readNaluSize]
  cases readNaluSize bytes with
  | none => rfl
  | some n => simp

private theorem byte_overflow {n b : ℕ} (h : ¬ n < 2 ^ 32) : ¬ n * 256 + b < 2 ^ 32 := by
  omega

/-- The size read from a field: sizes from `2 ^ 31` on are negative. -/
theorem readNaluSize_eq (bytes : List UInt8) :
    readNaluSize bytes =
      if natOfBytes bytes < 2 ^ 32 then some (toInt32 (natOfBytes bytes)) else none := by
  induction bytes using List.reverseRec with
  | nil => exact readNaluSize_nil
  | append_singleton bytes b ih =>
    rw [readNaluSize_append, ih, natOfBytes_append_singleton]
    by_cases hfit : natOfBytes bytes < 2 ^ 32
    · rw [if_pos hfit, Option.bind_some, shiftInByte_eq _ hfit]
    · rw [if_neg hfit, if_neg (byte_overflow hfit), Option.bind_none]

/-- The bytes of a NAL unit in the byte stream. -/
def emulated (emulationPreventionBytes : Bool) (nalu : List UInt8) : List UInt8 :=
  if emulationPreventionBytes then insertEmulation 0 nalu else nalu

/-- Whether a start code begins before the end of `bytes`, with `zeroCount` zeros before
them. -/
def NoStartCodeAfter : ℕ → List UInt8 → Prop
  | _, [] => True
  | zeroCount, b :: rest =>
    ¬ (2 ≤ zeroCount ∧ b = 1) ∧ NoStartCodeAfter (if b = 0 then zeroCount + 1 else 0) rest

theorem NoStartCodeAfter.mono {m n : ℕ} (hmn : m ≤ n) {bytes : List UInt8}
    (h : NoStartCodeAfter n bytes) : NoStartCodeAfter m bytes := by
  induction bytes generalizing m n with
  | nil => trivial
  | cons b rest ih =>
    obtain ⟨hb, hrest⟩ := h
    refine ⟨fun hm => hb ⟨by omega, hm.2⟩, ih ?_ hrest⟩
    split_ifs <;> omega

/-- What the index form says, read off byte by byte. -/
theorem noStartCodeAfter_of_forall {zeroCount : ℕ} {bytes : List UInt8}
    (h : ∀ i, ¬ ShortStartCodeAt (List.replicate zeroCount 0 ++ bytes) i) :
    NoStartCodeAfter zeroCount bytes := by
  induction bytes generalizing zeroCount with
  | nil => trivial
  | cons b rest ih =>
    have hzero (j : ℕ) (hj : j < zeroCount) :
        (List.replicate zeroCount 0 ++ b :: rest)[j]? = some 0 := by
      rw [List.getElem?_append_left (by rw [List.length_replicate]; exact hj),
        List.getElem?_replicate, if_pos hj]
    have hrest (j : ℕ) :
        (List.replicate zeroCount 0 ++ b :: rest)[zeroCount + j]? = (b :: rest)[j]? := by
      rw [List.getElem?_append_right (by rw [List.length_replicate]; omega),
        List.length_replicate, Nat.add_sub_cancel_left]
    constructor
    · rintro ⟨htwo, rfl⟩
      refine h (zeroCount - 2) ⟨hzero _ (by omega), hzero _ (by omega), ?_⟩
      rw [show zeroCount - 2 + 2 = zeroCount + 0 by omega, hrest]
      rfl
    · split_ifs with hb
      · subst hb
        refine ih fun i => ?_
        rw [List.replicate_succ', List.append_assoc, List.singleton_append]
        exact h i
      · refine ih fun i hi => h (zeroCount + (i + 1)) ?_
        exact ⟨(hrest (i + 1)).trans hi.1, (hrest (i + 1 + 1)).trans hi.2.1,
          (hrest (i + 1 + 2)).trans hi.2.2⟩

theorem NoStartCodeAfter.forall {bytes : List UInt8} {zeroCount : ℕ}
    (h : NoStartCodeAfter zeroCount bytes) (i : ℕ) : ¬ ShortStartCodeAt bytes i := by
  induction bytes generalizing zeroCount i with
  | nil => simp [ShortStartCodeAt]
  | cons b rest ih =>
    obtain ⟨-, hrest⟩ := h
    cases i with
    | succ i => exact ih hrest i
    | zero =>
      rintro ⟨h0, h1, h2⟩
      match rest, h1, h2 with
      | c :: d :: rest, h1, h2 =>
        cases h0
        cases h1
        cases h2
        exact hrest.2.1 ⟨by simp, rfl⟩

theorem NoStartCodeAfter.insertEmulation {zeroCount : ℕ} {bytes : List UInt8}
    (h : NoStartCodeAfter zeroCount bytes) :
    NoStartCodeAfter zeroCount (insertEmulation zeroCount bytes) := by
  induction bytes generalizing zeroCount with
  | nil => trivial
  | cons b rest ih =>
    obtain ⟨hb, hrest⟩ := h
    unfold V3C.insertEmulation
    by_cases hmark : zeroCount = 3 ∧ b ≤ 3
    · rw [if_pos hmark]
      refine ⟨by simp, fun h => absurd h.1 (by simp), ?_⟩
      have hless : (if b = 0 then 1 else 0) ≤ if b = 0 then zeroCount + 1 else 0 := by
        split_ifs <;> omega
      exact ih (hrest.mono hless)
    · rw [if_neg hmark]
      exact ⟨hb, ih hrest⟩

theorem length_insertEmulation (zeroCount : ℕ) (bytes : List UInt8) :
    bytes.length ≤ (insertEmulation zeroCount bytes).length := by
  induction bytes generalizing zeroCount with
  | nil => exact le_rfl
  | cons b rest ih =>
    unfold V3C.insertEmulation
    by_cases hmark : zeroCount = 3 ∧ b ≤ 3
    · rw [if_pos hmark]
      exact Nat.succ_le_succ ((ih _).trans (Nat.le_succ _))
    · rw [if_neg hmark]
      exact Nat.succ_le_succ (ih _)

theorem getLast?_insertEmulation (zeroCount : ℕ) (bytes : List UInt8) :
    (insertEmulation zeroCount bytes).getLast? = bytes.getLast? := by
  induction bytes generalizing zeroCount with
  | nil => rfl
  | cons b rest ih =>
    unfold V3C.insertEmulation
    by_cases hmark : zeroCount = 3 ∧ b ≤ 3
    · rw [if_pos hmark, List.getLast?_cons, List.getLast?_cons, List.getLast?_cons, ih,
        Option.getD_some]
    · rw [if_neg hmark, List.getLast?_cons, List.getLast?_cons, ih]

/-- The marks keep a NAL unit a NAL unit. -/
theorem IsNalu.emulated {nalu : List UInt8} (h : IsNalu nalu) (e : Bool) :
    IsNalu (emulated e nalu) := by
  unfold V3C.emulated
  split_ifs
  · refine ⟨h.two_le.trans (length_insertEmulation 0 nalu), fun i => ?_, ?_⟩
    · exact (noStartCodeAfter_of_forall (by simpa using h.no_start_code)).insertEmulation.forall i
    · have hlast := h.last_ne_zero
      rw [← List.getLast?_eq_getElem?] at hlast ⊢
      rwa [getLast?_insertEmulation]
  · exact h

theorem length_startCode {sizeStartCode : ℕ} (hsize : sizeStartCode = 3 ∨ sizeStartCode = 4) :
    (startCode sizeStartCode).length = sizeStartCode := by
  obtain rfl | rfl := hsize <;> rfl

/-- The third byte tells the two start codes apart. -/
theorem startCode_third {sizeStartCode : ℕ} (hsize : sizeStartCode = 3 ∨ sizeStartCode = 4)
    (pre post : List UInt8) :
    ∃ third, (pre ++ (startCode sizeStartCode ++ post))[pre.length + 2]? = some third ∧
      (if third = 0 then 4 else 3) = sizeStartCode := by
  rw [List.getElem?_append_right (by omega), Nat.add_sub_cancel_left]
  obtain rfl | rfl := hsize
  · exact ⟨1, rfl, rfl⟩
  · exact ⟨0, rfl, rfl⟩

theorem bytesBetween_append (pre bytes post : List UInt8) :
    bytesBetween (pre ++ (bytes ++ post)) pre.length (pre.length + bytes.length) = some bytes := by
  unfold bytesBetween
  by_cases hempty : bytes = []
  · simp [hempty]
  · have := List.length_pos_iff.mpr hempty
    rw [if_neg (by omega), if_pos (by simp only [List.length_append]; omega),
      ← List.append_assoc, ← List.length_append, List.take_left, List.drop_left]

/-- The output of `byteStreamToSampleStream` only grows. -/
theorem prefix_of_byteStreamLoop {precision : ℕ} {e : Bool} {data : List UInt8} {fuel startIndex : ℕ}
    {out result : List UInt8} (h : byteStreamLoop precision e data fuel startIndex out = some result) :
    out <+: result := by
  induction fuel generalizing startIndex out with
  | zero => cases h
  | succ fuel ih =>
    obtain ⟨third, -, h⟩ := Option.bind_eq_some_iff.mp h
    obtain ⟨bytes, -, h⟩ := Option.bind_eq_some_iff.mp h
    obtain ⟨size, -, h⟩ := Option.bind_eq_some_iff.mp h
    generalize (if e = true then removeEmulation 0 bytes else bytes) = nalu at h
    have hout : out <+: out ++ (size ++ nalu) := List.prefix_append _ _
    by_cases hmore : getEndOfNaluPosition data (startIndex + if third = 0 then 4 else 3) < data.length
    · rw [if_pos hmore] at h
      exact hout.trans (ih h)
    · rw [if_neg hmore] at h
      cases h
      exact hout

theorem byteStreamLoop_nalu {precision : ℕ} (hprecision : precision ≤ 8) (e : Bool)
    {nalu post : List UInt8} (hnalu : IsNalu (emulated e nalu)) (hpost : FollowsNalu post)
    {sizeStartCode : ℕ} (hsize : sizeStartCode = 3 ∨ sizeStartCode = 4) (fuel : ℕ) (pre out : List UInt8) :
    byteStreamLoop precision e (pre ++ (startCode sizeStartCode ++ (emulated e nalu ++ post)))
        (fuel + 1) pre.length out =
      if post = [] then some (out ++ frame precision nalu)
      else byteStreamLoop precision e
        (pre ++ (startCode sizeStartCode ++ (emulated e nalu ++ post))) fuel
        (pre ++ startCode sizeStartCode ++ emulated e nalu).length
        (out ++ frame precision nalu) := by
  obtain ⟨third, hthird, hcode⟩ := startCode_third hsize pre (emulated e nalu ++ post)
  have hend := getEndOfNaluPosition_eq hnalu hpost (pre ++ startCode sizeStartCode)
  have hbytes := bytesBetween_append (pre ++ startCode sizeStartCode) (emulated e nalu) post
  rw [List.append_assoc] at hend hbytes
  have hlen : (pre ++ startCode sizeStartCode).length = pre.length + sizeStartCode := by
    rw [List.length_append, length_startCode hsize]
  have hnaluBytes : (if e = true then removeEmulation 0 (emulated e nalu) else emulated e nalu) =
      nalu := by
    cases e with
    | false => rfl
    | true => exact removeEmulation_insertEmulation 0 nalu
  rw [byteStreamLoop, hthird]
  simp only [Option.bind_eq_bind, Option.bind_some, hcode, ← hlen, hend, hbytes, hnaluBytes,
    writeNaluSize, if_pos hprecision, frame]
  by_cases hempty : post = []
  · rw [if_neg, if_pos hempty]
    simp [hempty]
    omega
  · have hstop : (pre ++ startCode sizeStartCode ++ emulated e nalu).length =
        (pre ++ startCode sizeStartCode).length + (emulated e nalu).length := List.length_append
    have := List.length_pos_iff.mpr hempty
    rw [if_pos, if_neg hempty, hstop]
    simp only [List.length_append]
    omega

def headerStartCodeSize (isAvc isVvc : Bool) : List UInt8 → ℕ
  | first :: second :: _ => if isLongStartCode isAvc isVvc (first, second) then 4 else 3
  | _ => 4

theorem headerStartCodeSize_eq (isAvc isVvc : Bool) (nalu : List UInt8) :
    headerStartCodeSize isAvc isVvc nalu = 3 ∨ headerStartCodeSize isAvc isVvc nalu = 4 := by
  unfold headerStartCodeSize
  split
  · split_ifs <;> simp
  · simp

/-- Only VVC looks at the second byte of the header. -/
theorem nextStartCodeSize_eq (isAvc isVvc : Bool) (precision : ℕ) {nalu : List UInt8}
    (htwo : 2 ≤ nalu.length) (pre post : List UInt8) (sizeStartCode : ℕ) :
    nextStartCodeSize isAvc isVvc precision (pre ++ (frame precision nalu ++ post)) pre.length
      sizeStartCode = some (headerStartCodeSize isAvc isVvc nalu) := by
  obtain ⟨first, second, rest, rfl⟩ : ∃ first second rest, nalu = first :: second :: rest := by
    match nalu, htwo with
    | first :: second :: rest, _ => exact ⟨first, second, rest, rfl⟩
  have hget (j : ℕ) : (pre ++ (frame precision (first :: second :: rest) ++ post))[
      pre.length + precision + j]? = (first :: second :: rest ++ post)[j]? := by
    rw [List.getElem?_append_right (by omega), frame, List.append_assoc,
      List.getElem?_append_right (by rw [length_bytesOfNat]; omega), length_bytesOfNat]
    congr 1
    omega
  have h0 := hget 0
  have h1 := hget 1
  rw [Nat.add_zero] at h0
  have hmore : pre.length + precision < (pre ++ (frame precision (first :: second :: rest) ++
      post)).length := by
    simp only [List.length_append, length_frame, List.length_cons]
    omega
  unfold nextStartCodeSize secondHeaderByte
  rw [if_pos hmore, h0, h1]
  cases isAvc <;> cases isVvc <;> rfl

theorem bytesBetween_field (precision : ℕ) (nalu pre post : List UInt8) :
    bytesBetween (pre ++ (frame precision nalu ++ post)) pre.length (pre.length + precision) =
      some (bytesOfNat precision nalu.length) := by
  have h := bytesBetween_append pre (bytesOfNat precision nalu.length) (nalu ++ post)
  rw [length_bytesOfNat] at h
  rw [frame, List.append_assoc, h]

/-- What the loop of `sampleStreamToByteStream` does after the last NAL unit, and before
another one. -/
theorem sampleStreamLoop_nalu (isAvc isVvc : Bool) {precision : ℕ} (e : Bool)
    {nalu : List UInt8} (hfit : nalu.length < 256 ^ precision) (hlt : nalu.length < 2 ^ 31)
    {pre post : List UInt8}
    (hdata : (pre ++ (frame precision nalu ++ post)).length < 2 ^ 63) (fuel sizeStartCode : ℕ)
    (out : List UInt8) :
    sampleStreamLoop isAvc isVvc precision e (pre ++ (frame precision nalu ++ post)) (fuel + 1)
        pre.length sizeStartCode out =
      (nextStartCodeSize isAvc isVvc precision (pre ++ (frame precision nalu ++ post))
          (pre ++ frame precision nalu).length sizeStartCode).bind fun next =>
        if post = [] then some (out ++ (startCode sizeStartCode ++ emulated e nalu))
        else sampleStreamLoop isAvc isVvc precision e (pre ++ (frame precision nalu ++ post)) fuel
          (pre ++ frame precision nalu).length next
          (out ++ (startCode sizeStartCode ++ emulated e nalu)) := by
  have hsize : readNaluSize (bytesOfNat precision nalu.length) = some (nalu.length : ℤ) := by
    rw [readNaluSize_eq, natOfBytes_bytesOfNat_of_lt hfit, if_pos (by omega), toInt32_of_lt hlt]
  have hstop : (pre ++ frame precision nalu).length = pre.length + precision + nalu.length := by
    rw [List.length_append, length_frame, Nat.add_assoc]
  have hend : toSizeT ((pre.length + precision : ℕ) + (nalu.length : ℤ)) =
      (pre ++ frame precision nalu).length := by
    rw [hstop, toSizeT_of_lt (by omega) (by simp only [List.length_append, length_frame] at hdata; omega)]
    omega
  have hbytes : bytesBetween (pre ++ (frame precision nalu ++ post)) (pre.length + precision)
      (pre ++ frame precision nalu).length = some nalu := by
    have h := bytesBetween_append (pre ++ bytesOfNat precision nalu.length) nalu post
    rw [List.length_append, length_bytesOfNat] at h
    rw [hstop, frame, List.append_assoc, ← List.append_assoc pre, h]
  rw [sampleStreamLoop, bytesBetween_field]
  simp only [Option.bind_eq_bind, Option.bind_some, hsize, hend, hbytes]
  congr 1
  funext next
  by_cases hempty : post = []
  · rw [if_neg, if_pos hempty]
    · rfl
    · simp [hempty]
  · have := List.length_pos_iff.mpr hempty
    rw [if_pos, if_neg hempty]
    · rfl
    · simp only [List.length_append]
      omega

/-- The byte stream of NAL units, the first of them behind a start code of the given size. -/
def byteStreamOf (isAvc isVvc e : Bool) : ℕ → List (List UInt8) → List UInt8
  | _, [] => []
  | sizeStartCode, nalu :: nalus =>
    startCode sizeStartCode ++ (emulated e nalu ++
      byteStreamOf isAvc isVvc e (headerStartCodeSize isAvc isVvc (nalus.headD [])) nalus)

theorem frame_ne_nil {precision : ℕ} {nalu : List UInt8} (h : 2 ≤ nalu.length)
    (post : List UInt8) :
    frame precision nalu ++ post ≠ [] := by
  intro hnil
  have hlen := congrArg List.length hnil
  rw [List.length_append, length_frame, List.length_nil] at hlen
  omega

/-- The units of a sample stream become the units of the byte stream. -/
theorem sampleStreamLoop_nalus (isAvc isVvc : Bool) {precision : ℕ} (e : Bool)
    {nalu : List UInt8} {nalus : List (List UInt8)}
    (h : ∀ x ∈ nalu :: nalus, 2 ≤ x.length ∧ x.length < 256 ^ precision ∧ x.length < 2 ^ 31)
    {pre : List UInt8} (hdata : (pre ++ frames precision (nalu :: nalus)).length < 2 ^ 63)
    (sizeStartCode : ℕ) (out : List UInt8) :
    sampleStreamLoop isAvc isVvc precision e (pre ++ frames precision (nalu :: nalus))
        (nalus.length + 1) pre.length sizeStartCode out =
      some (out ++ byteStreamOf isAvc isVvc e sizeStartCode (nalu :: nalus)) := by
  induction nalus generalizing nalu pre sizeStartCode out with
  | nil =>
    obtain ⟨-, hfit, hlt⟩ := h nalu List.mem_cons_self
    rw [frames_cons] at hdata ⊢
    rw [List.length_nil, sampleStreamLoop_nalu isAvc isVvc e hfit hlt hdata, nextStartCodeSize,
      if_neg (by simp)]
    simp [byteStreamOf]
  | cons next nalus ih =>
    obtain ⟨⟨-, hfit, hlt⟩, htail⟩ := List.forall_mem_cons.mp h
    have hnext := (htail next List.mem_cons_self).1
    have hassoc : pre ++ (frame precision nalu ++ (frame precision next ++ frames precision nalus)) =
        pre ++ frame precision nalu ++ (frame precision next ++ frames precision nalus) :=
      (List.append_assoc _ _ _).symm
    rw [frames_cons, frames_cons] at hdata ⊢
    rw [List.length_cons, sampleStreamLoop_nalu isAvc isVvc e hfit hlt hdata, hassoc,
      nextStartCodeSize_eq isAvc isVvc precision hnext, Option.bind_some,
      if_neg (frame_ne_nil hnext _), ← frames_cons, ih htail]
    · simp [byteStreamOf]
    · rw [frames_cons, ← hassoc]
      exact hdata

theorem followsNalu_byteStreamOf (isAvc isVvc e : Bool) {sizeStartCode : ℕ}
    (hsize : sizeStartCode = 3 ∨ sizeStartCode = 4) {nalus : List (List UInt8)}
    (h : ∀ x ∈ nalus, IsNalu (emulated e x)) (post : List UInt8) (hpost : nalus = [] → FollowsNalu post) :
    FollowsNalu (byteStreamOf isAvc isVvc e sizeStartCode nalus ++ post) := by
  cases nalus with
  | nil => exact hpost rfl
  | cons nalu nalus =>
    have htwo := (h nalu List.mem_cons_self).two_le
    refine .inr ⟨sizeStartCode, _, hsize, List.append_assoc _ _ _, ?_⟩
    rw [List.length_append, List.length_append]
    omega

/-- The units of a byte stream become frames, up to whatever follows them. -/
theorem byteStreamLoop_nalus (isAvc isVvc : Bool) {precision : ℕ} (hprecision : precision ≤ 8)
    (e : Bool) {nalus : List (List UInt8)} (h : ∀ x ∈ nalus, IsNalu (emulated e x))
    {post : List UInt8} (hpost : FollowsNalu post) (hne : post ≠ []) {sizeStartCode : ℕ}
    (hsize : sizeStartCode = 3 ∨ sizeStartCode = 4) {fuel : ℕ} {pre out result : List UInt8}
    (hrun : byteStreamLoop precision e
      (pre ++ (byteStreamOf isAvc isVvc e sizeStartCode nalus ++ post)) fuel pre.length out =
        some result) :
    ∃ fuel' pre', byteStreamLoop precision e (pre' ++ post) fuel' pre'.length
      (out ++ frames precision nalus) = some result := by
  induction nalus generalizing fuel sizeStartCode pre out with
  | nil => exact ⟨fuel, pre, by simpa [byteStreamOf] using hrun⟩
  | cons nalu nalus ih =>
    obtain ⟨hnalu, htail⟩ := List.forall_mem_cons.mp h
    have hnext := headerStartCodeSize_eq isAvc isVvc (nalus.headD [])
    have hfollow := followsNalu_byteStreamOf isAvc isVvc e hnext htail post fun _ => hpost
    cases fuel with
    | zero => cases hrun
    | succ fuel =>
      simp only [byteStreamOf, List.append_assoc] at hrun
      rw [byteStreamLoop_nalu hprecision e hnalu hfollow hsize, if_neg (by simp [hne])] at hrun
      have hrun' : byteStreamLoop precision e (pre ++ startCode sizeStartCode ++ emulated e nalu ++
          (byteStreamOf isAvc isVvc e (headerStartCodeSize isAvc isVvc (nalus.headD [])) nalus ++
            post)) fuel (pre ++ startCode sizeStartCode ++ emulated e nalu).length
          (out ++ frame precision nalu) = some result := by
        simpa using hrun
      obtain ⟨fuel', pre', h'⟩ := ih htail hnext hrun'
      exact ⟨fuel', pre', by simpa using h'⟩

theorem byteStreamLoop_byteStreamOf (isAvc isVvc : Bool) {precision : ℕ} (hprecision : precision ≤ 8)
    (e : Bool) {nalu : List UInt8} {nalus : List (List UInt8)}
    (h : ∀ x ∈ nalu :: nalus, IsNalu (emulated e x)) {sizeStartCode : ℕ}
    (hsize : sizeStartCode = 3 ∨ sizeStartCode = 4) (pre out : List UInt8) :
    byteStreamLoop precision e (pre ++ byteStreamOf isAvc isVvc e sizeStartCode (nalu :: nalus))
        (nalus.length + 1) pre.length out = some (out ++ frames precision (nalu :: nalus)) := by
  induction nalus generalizing nalu sizeStartCode pre out with
  | nil =>
    have hnalu := h nalu List.mem_cons_self
    simp only [byteStreamOf, List.length_nil]
    rw [byteStreamLoop_nalu hprecision e hnalu (.inl rfl) hsize, if_pos rfl, frames_cons,
      frames_nil, List.append_nil]
  | cons next nalus ih =>
    obtain ⟨hnalu, htail⟩ := List.forall_mem_cons.mp h
    have hnext := headerStartCodeSize_eq isAvc isVvc ((next :: nalus).headD [])
    have hfollow := followsNalu_byteStreamOf isAvc isVvc e hnext htail [] (by simp)
    rw [List.append_nil] at hfollow
    have hne : byteStreamOf isAvc isVvc e (headerStartCodeSize isAvc isVvc ((next :: nalus).headD []))
        (next :: nalus) ≠ [] := by
      simp [byteStreamOf, startCode]
    rw [byteStreamOf, List.length_cons, byteStreamLoop_nalu hprecision e hnalu hfollow hsize,
      if_neg hne, ← List.append_assoc (startCode sizeStartCode), ← List.append_assoc,
      ← List.append_assoc, ih htail hnext, List.append_assoc, ← frames_cons]

theorem nextStartCodeSize_mem {isAvc isVvc : Bool} {precision startIndex sizeStartCode next : ℕ}
    {data : List UInt8} (hsize : sizeStartCode = 3 ∨ sizeStartCode = 4)
    (h : nextStartCodeSize isAvc isVvc precision data startIndex sizeStartCode = some next) :
    next = 3 ∨ next = 4 := by
  unfold nextStartCodeSize at h
  by_cases hmore : startIndex + precision < data.length
  · rw [if_pos hmore] at h
    obtain ⟨first, -, h⟩ := Option.bind_eq_some_iff.mp h
    obtain ⟨second, -, h⟩ := Option.bind_eq_some_iff.mp h
    cases h
    split_ifs
    · exact .inr rfl
    · exact .inl rfl
  · rw [if_neg hmore] at h
    cases h
    exact hsize

/-- The output of `sampleStreamToByteStream` goes on with a start code. -/
theorem prefix_of_sampleStreamLoop {isAvc isVvc e : Bool} {precision : ℕ} {data : List UInt8}
    {fuel startIndex sizeStartCode : ℕ} {out result : List UInt8}
    (h : sampleStreamLoop isAvc isVvc precision e data fuel startIndex sizeStartCode out =
      some result) : out ++ startCode sizeStartCode <+: result := by
  induction fuel generalizing startIndex sizeStartCode out with
  | zero => cases h
  | succ fuel ih =>
    obtain ⟨field, -, h⟩ := Option.bind_eq_some_iff.mp h
    obtain ⟨naluSize, -, h⟩ := Option.bind_eq_some_iff.mp h
    obtain ⟨bytes, -, h⟩ := Option.bind_eq_some_iff.mp h
    obtain ⟨next, -, h⟩ := Option.bind_eq_some_iff.mp h
    generalize (if e = true then insertEmulation 0 bytes else bytes) = nalu at h
    have hout : out ++ startCode sizeStartCode <+: out ++ (startCode sizeStartCode ++ nalu) := by
      rw [← List.append_assoc]
      exact List.prefix_append _ _
    by_cases hmore : toSizeT ((startIndex + precision : ℕ) + naluSize) < data.length
    · rw [if_pos hmore] at h
      exact (hout.trans (List.prefix_append _ _)).trans (ih h)
    · rw [if_neg hmore] at h
      cases h
      exact hout

private theorem toSizeT_neg {n : ℤ} (hneg : n < 0) (hlow : -2 ^ 32 ≤ n) :
    2 ^ 63 ≤ toSizeT n := by
  unfold toSizeT
  omega

/-- A size of `2 ^ 31` or more takes the loop back, and leaves a start code without a unit. -/
theorem sampleStreamLoop_large {isAvc isVvc e : Bool} {precision : ℕ} {nalu : List UInt8}
    (hfit : nalu.length < 256 ^ precision) (hlarge : 2 ^ 31 ≤ nalu.length) {pre post : List UInt8}
    (hdata : (pre ++ (frame precision nalu ++ post)).length < 2 ^ 63) {fuel sizeStartCode : ℕ}
    (hsize : sizeStartCode = 3 ∨ sizeStartCode = 4) {out result : List UInt8}
    (h : sampleStreamLoop isAvc isVvc precision e (pre ++ (frame precision nalu ++ post)) fuel
      pre.length sizeStartCode out = some result) :
    ∃ next tail, (next = 3 ∨ next = 4) ∧
      result = out ++ (startCode sizeStartCode ++ (startCode next ++ tail)) := by
  cases fuel with
  | zero => cases h
  | succ fuel =>
    have hlen : pre.length + precision + nalu.length ≤
        (pre ++ (frame precision nalu ++ post)).length := by
      simp only [List.length_append, length_frame]
      omega
    rw [sampleStreamLoop, bytesBetween_field] at h
    obtain ⟨field, hfield, h⟩ := Option.bind_eq_some_iff.mp h
    cases hfield
    obtain ⟨naluSize, hnaluSize, h⟩ := Option.bind_eq_some_iff.mp h
    obtain ⟨bytes, hbytes, h⟩ := Option.bind_eq_some_iff.mp h
    obtain ⟨next, hnext, h⟩ := Option.bind_eq_some_iff.mp h
    simp only [readNaluSize_eq, natOfBytes_bytesOfNat_of_lt hfit] at hnaluSize
    have hrange : nalu.length < 2 ^ 32 := by
      by_contra hover
      rw [if_neg hover] at hnaluSize
      cases hnaluSize
    rw [if_pos hrange, toInt32_of_ge hlarge hrange] at hnaluSize
    obtain rfl := Option.some.inj hnaluSize
    generalize pre ++ (frame precision nalu ++ post) = data at *
    generalize hendIndex : toSizeT ((pre.length + precision : ℕ) + ((nalu.length : ℤ) - 2 ^ 32)) =
      endIndex at *
    rcases lt_or_ge (((pre.length + precision : ℕ) : ℤ) + ((nalu.length : ℤ) - 2 ^ 32)) 0
      with hneg | hpos
    · have hfar := toSizeT_neg hneg (by omega)
      rw [bytesBetween, if_neg (by omega), if_neg (by omega)] at hbytes
      cases hbytes
    · rw [toSizeT_of_lt hpos (by omega)] at hendIndex
      rw [bytesBetween, if_pos (by omega)] at hbytes
      cases hbytes
      rw [if_pos (by omega)] at h
      obtain ⟨tail, htail⟩ := prefix_of_sampleStreamLoop h
      refine ⟨next, tail, nextStartCodeSize_mem hsize hnext, ?_⟩
      rw [← htail]
      cases e <;> simp [insertEmulation]

/-- Where a unit is too large, the byte stream has the units before it, and then a start code
without a unit. -/
theorem exists_of_sampleStreamLoop_large {isAvc isVvc e : Bool} {precision : ℕ}
    {nalus : List (List UInt8)} (h : ∀ x ∈ nalus, 2 ≤ x.length ∧ x.length < 256 ^ precision)
    (hlarge : ∃ x ∈ nalus, 2 ^ 31 ≤ x.length) {pre : List UInt8}
    (hdata : (pre ++ frames precision nalus).length < 2 ^ 63) {fuel sizeStartCode : ℕ}
    (hsize : sizeStartCode = 3 ∨ sizeStartCode = 4) {out result : List UInt8}
    (hrun : sampleStreamLoop isAvc isVvc precision e (pre ++ frames precision nalus) fuel
      pre.length sizeStartCode out = some result) :
    ∃ good bad rest code next tail, nalus = good ++ bad :: rest ∧ 2 ^ 31 ≤ bad.length ∧
      (code = 3 ∨ code = 4) ∧ (next = 3 ∨ next = 4) ∧
      result = out ++ (byteStreamOf isAvc isVvc e sizeStartCode good ++
        (startCode code ++ (startCode next ++ tail))) := by
  induction nalus generalizing pre fuel sizeStartCode out with
  | nil => simp at hlarge
  | cons nalu nalus ih =>
    obtain ⟨⟨-, hfit⟩, htail⟩ := List.forall_mem_cons.mp h
    rw [frames_cons] at hdata hrun
    by_cases hthis : 2 ^ 31 ≤ nalu.length
    · obtain ⟨next, tail, hnext, rfl⟩ := sampleStreamLoop_large hfit hthis hdata hsize hrun
      exact ⟨[], nalu, nalus, sizeStartCode, next, tail, rfl, hthis, hsize, hnext, rfl⟩
    · have hrest : ∃ x ∈ nalus, 2 ^ 31 ≤ x.length := by
        obtain ⟨x, hx, hxlarge⟩ := hlarge
        rcases List.mem_cons.mp hx with rfl | hx
        · exact absurd hxlarge hthis
        · exact ⟨x, hx, hxlarge⟩
      obtain ⟨second, nalus', rfl⟩ := List.exists_cons_of_ne_nil
        (show nalus ≠ [] by rintro rfl; simp at hrest)
      have hsecond := (htail second List.mem_cons_self).1
      have hassoc : pre ++ (frame precision nalu ++ frames precision (second :: nalus')) =
          pre ++ frame precision nalu ++ (frame precision second ++ frames precision nalus') :=
        (List.append_assoc _ _ _).symm
      cases fuel with
      | zero => cases hrun
      | succ fuel =>
        rw [sampleStreamLoop_nalu isAvc isVvc e hfit (not_le.mp hthis) hdata, hassoc,
          nextStartCodeSize_eq isAvc isVvc precision hsecond, Option.bind_some,
          frames_cons, if_neg (frame_ne_nil hsecond _)] at hrun
        obtain ⟨good, bad, rest, code, next, tail, hnalus, hbad, hcode, hnext, hresult⟩ :=
          ih htail hrest (by rw [hassoc] at hdata; exact hdata)
            (headerStartCodeSize_eq isAvc isVvc second) hrun
        refine ⟨nalu :: good, bad, rest, code, next, tail, by rw [hnalus]; rfl, hbad, hcode,
          hnext, ?_⟩
        rw [hresult]
        cases good with
        | nil => simp [byteStreamOf]
        | cons first good =>
          obtain ⟨rfl, -⟩ := List.cons.inj hnalus
          simp [byteStreamOf]

theorem length_removeEmulation (zeroCount : ℕ) (bytes : List UInt8) :
    (removeEmulation zeroCount bytes).length ≤ bytes.length := by
  induction bytes generalizing zeroCount with
  | nil => exact le_rfl
  | cons b rest ih =>
    unfold removeEmulation
    by_cases hmark : zeroCount = 3 ∧ b ≤ 3
    · rw [if_pos hmark]
      exact (ih _).trans (Nat.le_succ _)
    · rw [if_neg hmark]
      exact Nat.succ_le_succ (ih _)

/-- The unit between two start codes that follow each other is empty, or the second start code
itself at the end of the data. -/
theorem getEndOfNaluPosition_le {next : ℕ} (hnext : next = 3 ∨ next = 4) (pre tail : List UInt8) :
    getEndOfNaluPosition (pre ++ (startCode next ++ tail)) pre.length ≤ pre.length + 4 := by
  unfold getEndOfNaluPosition
  split_ifs with hshort
  · omega
  · cases hk : (pre ++ (startCode next ++ tail)).length - 4 - pre.length with
    | zero =>
      rw [searchStartCode]
      omega
    | succ k =>
      rw [searchStartCode, if_pos (startCodeAt_append hnext pre tail)]
      omega

theorem length_le_of_bytesBetween {data bytes : List UInt8} {start stop n : ℕ}
    (h : bytesBetween data start stop = some bytes) (hn : stop ≤ start + n) : bytes.length ≤ n := by
  unfold bytesBetween at h
  split_ifs at h
  · cases h
    exact Nat.zero_le n
  · cases h
    rw [List.length_drop, List.length_take]
    omega

theorem byteStreamLoop_two_startCodes {precision : ℕ} {e : Bool} {code next : ℕ}
    (hcode : code = 3 ∨ code = 4) (hnext : next = 3 ∨ next = 4) {fuel : ℕ}
    {pre tail out result : List UInt8}
    (h : byteStreamLoop precision e (pre ++ (startCode code ++ (startCode next ++ tail))) fuel
      pre.length out = some result) :
    ∃ naluSize rest, naluSize ≤ 4 ∧ result = out ++ (bytesOfNat precision naluSize ++ rest) := by
  obtain ⟨third, hthird, hsize⟩ := startCode_third hcode pre (startCode next ++ tail)
  have hend := getEndOfNaluPosition_le hnext (pre ++ startCode code) tail
  rw [List.append_assoc, List.length_append, length_startCode hcode] at hend
  cases fuel with
  | zero => cases h
  | succ fuel =>
    rw [byteStreamLoop, hthird] at h
    obtain ⟨third', hthird', h⟩ := Option.bind_eq_some_iff.mp h
    cases hthird'
    obtain ⟨bytes, hbytes, h⟩ := Option.bind_eq_some_iff.mp h
    obtain ⟨size, hwrite, h⟩ := Option.bind_eq_some_iff.mp h
    rw [hsize] at hbytes h
    have hbytesLen : bytes.length ≤ 4 := length_le_of_bytesBetween hbytes (by omega)
    have hnaluLen : (if e = true then removeEmulation 0 bytes else bytes).length ≤ 4 := by
      split_ifs
      · exact (length_removeEmulation 0 bytes).trans hbytesLen
      · exact hbytesLen
    generalize (if e = true then removeEmulation 0 bytes else bytes) = nalu at h hwrite hnaluLen
    unfold writeNaluSize at hwrite
    split_ifs at hwrite
    cases hwrite
    have hvisited : out ++ (bytesOfNat precision nalu.length ++ nalu) <+: result := by
      split_ifs at h
      · exact prefix_of_byteStreamLoop h
      · cases h
        exact List.prefix_rfl
    obtain ⟨rest, rfl⟩ := hvisited
    exact ⟨nalu.length, nalu ++ rest, hnaluLen, by simp⟩

/-- The conversion to a byte stream and back gives the sample stream again. -/
def FormatRoundTrips (isAvc isVvc : Bool) (precision : ℕ) (emulationPreventionBytes : Bool)
    (nalus : List (List UInt8)) : Prop :=
  ∃ fuel fuel' byteStream,
    sampleStreamToByteStream fuel isAvc isVvc precision emulationPreventionBytes
      (frames precision nalus) = some byteStream ∧
    byteStreamToSampleStream fuel' precision emulationPreventionBytes byteStream =
      some (frames precision nalus)

theorem precision_le_of_byteStreamLoop {precision : ℕ} {e : Bool} {data : List UInt8}
    {fuel startIndex : ℕ} {out result : List UInt8}
    (h : byteStreamLoop precision e data fuel startIndex out = some result) : precision ≤ 8 := by
  cases fuel with
  | zero => cases h
  | succ fuel =>
    obtain ⟨third, -, h⟩ := Option.bind_eq_some_iff.mp h
    obtain ⟨bytes, -, h⟩ := Option.bind_eq_some_iff.mp h
    obtain ⟨size, hsize, -⟩ := Option.bind_eq_some_iff.mp h
    by_contra hlarge
    rw [writeNaluSize, if_neg hlarge] at hsize
    cases hsize

/-- What the conversion makes of a unit that is too large does not come back: the two size
fields behind the good units disagree. -/
theorem byteStreamLoop_ne_of_large {isAvc isVvc e : Bool} {precision : ℕ}
    {good rest : List (List UInt8)} {bad tail : List UInt8} {code next : ℕ}
    (hgood : ∀ x ∈ good, IsNalu (emulated e x)) (hbad : 2 ^ 31 ≤ bad.length)
    (hfit : bad.length < 256 ^ precision) (hcode : code = 3 ∨ code = 4)
    (hnext : next = 3 ∨ next = 4) (fuel : ℕ) :
    byteStreamToSampleStream fuel precision e (byteStreamOf isAvc isVvc e 4 good ++
      (startCode code ++ (startCode next ++ tail))) ≠
        some (frames precision (good ++ bad :: rest)) := by
  intro hback
  have hprecision := precision_le_of_byteStreamLoop hback
  have hfollows : FollowsNalu (startCode code ++ (startCode next ++ tail)) := by
    refine .inr ⟨code, _, hcode, rfl, ?_⟩
    have := length_startCode hnext
    rw [List.length_append]
    omega
  have hne : startCode code ++ (startCode next ++ tail) ≠ [] := by
    simp [startCode]
  have hback' : byteStreamLoop precision e ([] ++ (byteStreamOf isAvc isVvc e 4 good ++
      (startCode code ++ (startCode next ++ tail)))) fuel ([] : List UInt8).length [] =
    some (frames precision (good ++ bad :: rest)) := hback
  obtain ⟨fuel'', pre', hback''⟩ :=
    byteStreamLoop_nalus isAvc isVvc hprecision e hgood hfollows hne (.inr rfl) hback'
  obtain ⟨naluSize, rest', hsmall, hresult⟩ := byteStreamLoop_two_startCodes hcode hnext hback''
  rw [frames_append, List.nil_append, List.append_cancel_left_eq, frames_cons, frame,
    List.append_assoc] at hresult
  obtain ⟨hfield, -⟩ := List.append_inj hresult (by rw [length_bytesOfNat, length_bytesOfNat])
  have hsize := congrArg natOfBytes hfield
  rw [natOfBytes_bytesOfNat_of_lt hfit, natOfBytes_bytesOfNat_of_lt (by omega)] at hsize
  omega

/-- What becomes of a sample stream with a unit of `2 ^ 31` bytes or more. -/
theorem exists_of_sampleStreamToByteStream_large {isAvc isVvc e : Bool} {precision fuel : ℕ}
    {nalus : List (List UInt8)} {byteStream : List UInt8}
    (h : ∀ x ∈ nalus, 2 ≤ x.length ∧ x.length < 256 ^ precision)
    (hdata : (frames precision nalus).length < 2 ^ 63) (hlarge : ∃ x ∈ nalus, 2 ^ 31 ≤ x.length)
    (hforth : sampleStreamToByteStream fuel isAvc isVvc precision e (frames precision nalus) =
      some byteStream) :
    ∃ good bad rest code next tail, nalus = good ++ bad :: rest ∧ 2 ^ 31 ≤ bad.length ∧
      (code = 3 ∨ code = 4) ∧ (next = 3 ∨ next = 4) ∧
      byteStream = byteStreamOf isAvc isVvc e 4 good ++
        (startCode code ++ (startCode next ++ tail)) := by
  have hdata' : ([] ++ frames precision nalus).length < 2 ^ 63 := hdata
  have hforth' : sampleStreamLoop isAvc isVvc precision e ([] ++ frames precision nalus) fuel
    ([] : List UInt8).length 4 [] = some byteStream := hforth
  exact exists_of_sampleStreamLoop_large h hlarge hdata' (.inr rfl) hforth'

/-- A sample stream with a unit of `2 ^ 31` bytes or more does not come back. -/
theorem not_formatRoundTrips_of_large {isAvc isVvc : Bool} {precision : ℕ} {e : Bool}
    {nalus : List (List UInt8)} (h : ∀ x ∈ nalus, IsNalu x ∧ x.length < 256 ^ precision)
    (hdata : (frames precision nalus).length < 2 ^ 63) (hlarge : ∃ x ∈ nalus, 2 ^ 31 ≤ x.length) :
    ¬ FormatRoundTrips isAvc isVvc precision e nalus := by
  rintro ⟨fuel, fuel', byteStream, hforth, hback⟩
  obtain ⟨good, bad, rest, code, next, tail, rfl, hbad, hcode, hnext, rfl⟩ :=
    exists_of_sampleStreamToByteStream_large (fun x hx => ⟨(h x hx).1.two_le, (h x hx).2⟩) hdata
      hlarge hforth
  have hgood : ∀ x ∈ good, IsNalu (emulated e x) := fun x hx =>
    (h x (List.mem_append_left _ hx)).1.emulated e
  have hfit := (h bad (by simp)).2
  exact byteStreamLoop_ne_of_large hgood hbad hfit hcode hnext fuel' hback

/-- Every sample stream of NAL units comes back when the `size_t` shifts are defined and every
size is an `int32_t`, and only then. -/
theorem formatRoundTrips_iff (isAvc isVvc : Bool) {precision : ℕ} (e : Bool)
    {nalus : List (List UInt8)} (hne : nalus ≠ [])
    (h : ∀ x ∈ nalus, IsNalu x ∧ x.length < 256 ^ precision)
    (hdata : (frames precision nalus).length < 2 ^ 63) :
    FormatRoundTrips isAvc isVvc precision e nalus ↔
      precision ≤ 8 ∧ ∀ x ∈ nalus, x.length < 2 ^ 31 := by
  constructor
  · intro hround
    obtain ⟨fuel, fuel', byteStream, hforth, hback⟩ := id hround
    refine ⟨precision_le_of_byteStreamLoop hback, fun x hx => ?_⟩
    by_contra hlarge
    exact not_formatRoundTrips_of_large h hdata ⟨x, hx, not_lt.mp hlarge⟩ hround
  · rintro ⟨hprecision, hlt⟩
    obtain ⟨nalu, nalus, rfl⟩ := List.exists_cons_of_ne_nil hne
    have hdata' : ([] ++ frames precision (nalu :: nalus)).length < 2 ^ 63 := hdata
    have hforth := sampleStreamLoop_nalus isAvc isVvc e
      (fun x hx => ⟨(h x hx).1.two_le, (h x hx).2, hlt x hx⟩) hdata' 4 []
    have hback := byteStreamLoop_byteStreamOf isAvc isVvc hprecision e
      (fun x hx => (h x hx).1.emulated e)
      (.inr rfl) [] []
    exact ⟨_, _, _, hforth, hback⟩

theorem isNalu_replicate_one {n : ℕ} (hn : 2 ≤ n) : IsNalu (List.replicate n 1) := by
  have hget (i : ℕ) : (List.replicate n (1 : UInt8))[i]? ≠ some 0 := by
    rw [List.getElem?_replicate]
    split_ifs <;> simp
  exact ⟨by rw [List.length_replicate]; exact hn, fun i h => hget i h.1, hget _⟩

theorem formatRoundTrips_two_units :
    FormatRoundTrips false false 4 false [List.replicate 2 1, List.replicate 3 1] := by
  refine (formatRoundTrips_iff false false false (by simp) (fun x hx => ?_) (by decide)).mpr
    ⟨by decide, by decide⟩
  simp only [List.mem_cons, List.not_mem_nil, or_false] at hx
  obtain rfl | rfl := hx
  · exact ⟨isNalu_replicate_one le_rfl, by decide⟩
  · exact ⟨isNalu_replicate_one (by omega), by decide⟩

private theorem not_formatRoundTrips_ones {n : ℕ} (hlarge : 2 ^ 31 ≤ n) (hfit : n < 256 ^ 4) :
    ¬ FormatRoundTrips false false 4 false [List.replicate n 1] := by
  refine not_formatRoundTrips_of_large (fun x hx => ?_) ?_ ?_
  · obtain rfl := List.mem_singleton.mp hx
    exact ⟨isNalu_replicate_one (by omega), by rw [List.length_replicate]; exact hfit⟩
  · rw [frames_cons, frames_nil, List.append_nil, length_frame, List.length_replicate]
    omega
  · exact ⟨_, List.mem_singleton_self _, by rw [List.length_replicate]; exact hlarge⟩

/-- A unit of `2 ^ 31` bytes, which its size field of four bytes has room for. -/
theorem not_formatRoundTrips_two_pow_31 :
    ¬ FormatRoundTrips false false 4 false [List.replicate (2 ^ 31) 1] :=
  not_formatRoundTrips_ones le_rfl (by norm_num)

end V3C

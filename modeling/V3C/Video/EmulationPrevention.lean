import V3C.Video.FormatRoundTrip

/-! Marks in the payload of NAL units, and the start codes that they leave. -/
namespace V3C
open Codec

/-- Where the payloads of a byte stream begin that itself begins at `start`. -/
def payloadStarts (isAvc isVvc e : Bool) : ℕ → ℕ → List (List UInt8) → List ℕ
  | _, _, [] => []
  | sizeStartCode, start, nalu :: nalus =>
    (start + sizeStartCode) ::
      payloadStarts isAvc isVvc e (headerStartCodeSize isAvc isVvc (nalus.headD []))
        (start + sizeStartCode + (emulated e nalu).length) nalus

/-- The byte stream has start codes in front of its payloads only, and comes back. -/
def EmulationPrevented (isAvc isVvc : Bool) (precision : ℕ) (nalus : List (List UInt8)) : Prop :=
  ∃ fuel fuel' byteStream,
    sampleStreamToByteStream fuel isAvc isVvc precision true (frames precision nalus) =
      some byteStream ∧
    (∀ i, ShortStartCodeAt byteStream i → i + 3 ∈ payloadStarts isAvc isVvc true 4 0 nalus) ∧
    byteStreamToSampleStream fuel' precision true byteStream = some (frames precision nalus)

/-- The payload of a NAL unit: any bytes, but no zero at the end. -/
structure IsPayload (bytes : List UInt8) : Prop where
  two_le : 2 ≤ bytes.length
  last_ne_zero : bytes.getLast? ≠ some 0

def trailingZeros (bytes : List UInt8) : ℕ := (bytes.reverse.takeWhile (· = 0)).length

/-- A mark is behind every third zero. In front of a 1, two zeros are left without one where
the zeros are two more than a multiple of three. -/
def MarksSuffice (nalu : List UInt8) : Prop :=
  ∀ before after, nalu = before ++ 1 :: after → trailingZeros before % 3 ≠ 2

theorem marksSuffice_iff_forall_lt (nalu : List UInt8) :
    (∀ i < nalu.length, nalu[i]? = some 1 → trailingZeros (nalu.take i) % 3 ≠ 2) ↔
      MarksSuffice nalu := by
  constructor
  · intro h before after hnalu
    subst hnalu
    have hone := h before.length (by simp) (by simp)
    rwa [List.take_left] at hone
  · intro h i hi hone
    refine h (nalu.take i) (nalu.drop (i + 1)) ?_
    have hget := (List.getElem?_eq_some_iff.mp hone).2
    rw [← hget, ← List.drop_eq_getElem_cons hi, List.take_append_drop]

instance (nalu : List UInt8) : Decidable (MarksSuffice nalu) :=
  decidable_of_iff _ (marksSuffice_iff_forall_lt nalu)

theorem trailingZeros_append (bytes : List UInt8) (b : UInt8) :
    trailingZeros (bytes ++ [b]) = if b = 0 then trailingZeros bytes + 1 else 0 := by
  unfold trailingZeros
  rw [List.reverse_append, List.reverse_singleton, List.singleton_append, List.takeWhile_cons]
  by_cases hb : b = 0
  · simp [hb]
  · simp [hb]

/-- The count of `insertEmulation` behind a number of zeros. -/
def markedCount (zeros : ℕ) : ℕ := if zeros = 0 then 0 else (zeros - 1) % 3 + 1

theorem markedCount_succ (zeros : ℕ) :
    markedCount (zeros + 1) = if markedCount zeros = 3 then 1 else markedCount zeros + 1 := by
  unfold markedCount
  split_ifs <;> omega

theorem two_le_markedCount {zeros : ℕ} (h : markedCount zeros ≠ 3) :
    2 ≤ markedCount zeros ↔ zeros % 3 = 2 := by
  unfold markedCount at h ⊢
  split_ifs at h ⊢ <;> omega

/-- What is behind some bytes stays free of start codes where the marks suffice there. -/
theorem noStartCodeAfter_insertEmulation (before bytes : List UInt8) :
    NoStartCodeAfter (markedCount (trailingZeros before))
        (insertEmulation (markedCount (trailingZeros before)) bytes) ↔
      ∀ middle after, bytes = middle ++ 1 :: after → trailingZeros (before ++ middle) % 3 ≠ 2 := by
  induction bytes generalizing before with
  | nil => simp [insertEmulation, NoStartCodeAfter]
  | cons b rest ih =>
    have htail : NoStartCodeAfter (markedCount (trailingZeros (before ++ [b])))
          (insertEmulation (markedCount (trailingZeros (before ++ [b]))) rest) ↔
        ∀ middle after, rest = middle ++ 1 :: after →
          trailingZeros (before ++ b :: middle) % 3 ≠ 2 := by
      simpa using ih (before ++ [b])
    have hsplit : (∀ middle after, b :: rest = middle ++ 1 :: after →
          trailingZeros (before ++ middle) % 3 ≠ 2) ↔
        (b = 1 → trailingZeros before % 3 ≠ 2) ∧ ∀ middle after, rest = middle ++ 1 :: after →
          trailingZeros (before ++ b :: middle) % 3 ≠ 2 := by
      constructor
      · intro h
        refine ⟨fun hb => ?_, fun middle after hrest => h (b :: middle) after (by rw [hrest]; rfl)⟩
        simpa using h [] rest (by rw [hb]; rfl)
      · intro h middle after hrest
        cases middle with
        | nil =>
          have hone := (List.cons.inj hrest).1
          simpa using h.1 hone
        | cons c middle =>
          obtain ⟨hc, hmiddle⟩ := List.cons.inj hrest
          rw [← hc]
          exact h.2 middle after hmiddle
    rw [hsplit, ← htail, trailingZeros_append]
    generalize trailingZeros before = zeros
    have hcount : markedCount (if b = 0 then zeros + 1 else 0) =
        if b = 0 then (if markedCount zeros = 3 then 1 else markedCount zeros + 1) else 0 := by
      by_cases hb : b = 0
      · rw [if_pos hb, if_pos hb, markedCount_succ]
      · rw [if_neg hb, if_neg hb]
        rfl
    rw [hcount, insertEmulation]
    by_cases hmark : markedCount zeros = 3 ∧ b ≤ 3
    · have hzeros : zeros % 3 ≠ 2 := by
        have hthree := hmark.1
        unfold markedCount at hthree
        split_ifs at hthree
        omega
      simp [hmark, NoStartCodeAfter, hzeros]
    · rw [if_neg hmark, NoStartCodeAfter]
      by_cases hthree : markedCount zeros = 3
      · have hlarge : ¬b ≤ 3 := fun hb => hmark ⟨hthree, hb⟩
        have hzero : b ≠ 0 := by
          rintro rfl
          exact hlarge (by decide)
        have hone : b ≠ 1 := by
          rintro rfl
          exact hlarge (by decide)
        simp [hzero, hone]
      · rw [two_le_markedCount hthree, if_neg hthree]
        tauto

/-- The marked payload has no start code inside exactly where the marks suffice. -/
theorem marksSuffice_iff (nalu : List UInt8) :
    MarksSuffice nalu ↔ ∀ i, ¬ShortStartCodeAt (insertEmulation 0 nalu) i := by
  have h := noStartCodeAfter_insertEmulation [] nalu
  have hcount : markedCount (trailingZeros []) = 0 := rfl
  rw [hcount] at h
  constructor
  · intro hmarks i
    exact (h.mpr hmarks).forall i
  · intro hnone
    exact h.mp (noStartCodeAfter_of_forall (by simpa using hnone))

theorem IsPayload.isNalu_emulated_iff {nalu : List UInt8} (h : IsPayload nalu) :
    IsNalu (emulated true nalu) ↔ MarksSuffice nalu := by
  rw [marksSuffice_iff]
  constructor
  · intro hnalu
    exact hnalu.no_start_code
  · intro hnone
    refine ⟨h.two_le.trans (length_insertEmulation 0 nalu), hnone, ?_⟩
    rw [← List.getLast?_eq_getElem?]
    have hlast := getLast?_insertEmulation 0 nalu
    rw [show emulated true nalu = insertEmulation 0 nalu from rfl, hlast]
    exact h.last_ne_zero

variable {isAvc isVvc e : Bool}

theorem byteStreamOf_append (isAvc isVvc e : Bool) (sizeStartCode : ℕ)
    (before nalus : List (List UInt8)) :
    byteStreamOf isAvc isVvc e sizeStartCode before <+:
      byteStreamOf isAvc isVvc e sizeStartCode (before ++ nalus) := by
  induction before generalizing sizeStartCode with
  | nil => exact List.nil_prefix
  | cons nalu before ih =>
    cases before with
    | nil => simp [byteStreamOf]
    | cons next before =>
      have hrest := ih (headerStartCodeSize isAvc isVvc next)
      rw [byteStreamOf, List.cons_append, byteStreamOf]
      exact (List.prefix_append_right_inj _).mpr ((List.prefix_append_right_inj _).mpr hrest)

theorem lt_of_mem_payloadStarts {sizeStartCode start offset : ℕ}
    (hsize : sizeStartCode = 3 ∨ sizeStartCode = 4) {nalus : List (List UInt8)}
    (h : offset ∈ payloadStarts isAvc isVvc e sizeStartCode start nalus) : start + 3 ≤ offset := by
  induction nalus generalizing sizeStartCode start with
  | nil => cases h
  | cons nalu nalus ih =>
    rcases List.mem_cons.mp h with rfl | htail
    · omega
    · have hrest := ih (headerStartCodeSize_eq isAvc isVvc _) htail
      omega

theorem shortStartCodeAt_startCode {sizeStartCode : ℕ}
    (hsize : sizeStartCode = 3 ∨ sizeStartCode = 4) {post : List UInt8} {i : ℕ}
    (hi : i < sizeStartCode) (h : ShortStartCodeAt (startCode sizeStartCode ++ post) i) :
    i + 3 = sizeStartCode := by
  obtain ⟨h0, h1, h2⟩ := h
  have hlen := length_startCode hsize
  by_contra hne
  by_cases hinside : i + 2 < sizeStartCode
  · have hzero : (startCode sizeStartCode ++ post)[i + 2]? = some 0 := by
      rw [List.getElem?_append_left (by omega)]
      unfold startCode
      rw [List.getElem?_append_left (by rw [List.length_replicate]; omega),
        List.getElem?_replicate, if_pos (by omega)]
    rw [hzero] at h2
    cases h2
  · have hone : (startCode sizeStartCode ++ post)[sizeStartCode - 1]? = some 1 := by
      rw [List.getElem?_append_left (by omega)]
      unfold startCode
      rw [List.getElem?_append_right (by rw [List.length_replicate])]
      simp
    have hcases : i = sizeStartCode - 1 ∨ i + 1 = sizeStartCode - 1 := by omega
    cases hcases with
    | inl hi =>
      rw [hi, hone] at h0
      cases h0
    | inr hi =>
      rw [hi, hone] at h1
      cases h1

theorem shortStartCodeAt_append {pre post : List UInt8} {i : ℕ} (hi : pre.length ≤ i) :
    ShortStartCodeAt (pre ++ post) i ↔ ShortStartCodeAt post (i - pre.length) := by
  unfold ShortStartCodeAt
  rw [List.getElem?_append_right hi, List.getElem?_append_right (by omega),
    List.getElem?_append_right (by omega), show i + 1 - pre.length = i - pre.length + 1 by omega,
    show i + 2 - pre.length = i - pre.length + 2 by omega]

/-- Units without a start code inside have start codes in front of them only. -/
theorem mem_payloadStarts {sizeStartCode : ℕ} (hsize : sizeStartCode = 3 ∨ sizeStartCode = 4)
    {nalus : List (List UInt8)} (h : ∀ x ∈ nalus, IsNalu (emulated e x)) (start : ℕ) {i : ℕ}
    (hi : ShortStartCodeAt (byteStreamOf isAvc isVvc e sizeStartCode nalus) i) :
    start + i + 3 ∈ payloadStarts isAvc isVvc e sizeStartCode start nalus := by
  induction nalus generalizing sizeStartCode start i with
  | nil => simp [byteStreamOf, ShortStartCodeAt] at hi
  | cons nalu nalus ih =>
    obtain ⟨hnalu, htail⟩ := List.forall_mem_cons.mp h
    have hlen := length_startCode hsize
    have hnext := headerStartCodeSize_eq isAvc isVvc (nalus.headD [])
    rw [byteStreamOf] at hi
    rw [payloadStarts, List.mem_cons]
    by_cases hcode : i < sizeStartCode
    · left
      have hend := shortStartCodeAt_startCode hsize hcode hi
      omega
    · right
      rw [shortStartCodeAt_append (by omega)] at hi
      by_cases hinside : i - sizeStartCode < (emulated e nalu).length
      · have hat := hnalu.not_startCodeAt [] (byteStreamOf isAvc isVvc e
          (headerStartCodeSize isAvc isVvc (nalus.headD [])) nalus) hinside
        rw [hlen] at hi
        rw [List.nil_append, List.length_nil, Nat.zero_add] at hat
        exact absurd ⟨hi.1, hi.2.1, .inl hi.2.2⟩ hat
      · rw [shortStartCodeAt_append (by omega), hlen] at hi
        have hrest := ih hnext htail (start + sizeStartCode + (emulated e nalu).length) hi
        rwa [show start + sizeStartCode + (emulated e nalu).length +
          (i - sizeStartCode - (emulated e nalu).length) + 3 = start + i + 3 by omega] at hrest

/-- A start code inside a unit is not in front of one. -/
theorem exists_not_mem_payloadStarts {sizeStartCode : ℕ}
    (hsize : sizeStartCode = 3 ∨ sizeStartCode = 4) (before after : List (List UInt8))
    {nalu : List UInt8} {j : ℕ} (hj : ShortStartCodeAt (emulated e nalu) j) (start : ℕ) :
    ∃ i, ShortStartCodeAt (byteStreamOf isAvc isVvc e sizeStartCode (before ++ [nalu])) i ∧
      start + i + 3 ∉ payloadStarts isAvc isVvc e sizeStartCode start
        (before ++ nalu :: after) := by
  have hlen := length_startCode hsize
  induction before generalizing sizeStartCode start with
  | nil =>
    refine ⟨sizeStartCode + j, ?_, ?_⟩
    · rw [List.nil_append, byteStreamOf, shortStartCodeAt_append (by omega), hlen,
        Nat.add_sub_cancel_left, byteStreamOf, List.append_nil]
      exact hj
    · have hinside : j + 2 < (emulated e nalu).length :=
        (List.getElem?_eq_some_iff.mp hj.2.2).1
      rw [List.nil_append, payloadStarts, List.mem_cons]
      intro hmem
      cases hmem with
      | inl hfirst => omega
      | inr htail =>
        have hlater := lt_of_mem_payloadStarts (headerStartCodeSize_eq isAvc isVvc _) htail
        omega
  | cons first before ih =>
    have hnext := headerStartCodeSize_eq isAvc isVvc ((before ++ [nalu]).headD [])
    obtain ⟨i, hi, hnot⟩ := ih hnext (start + sizeStartCode + (emulated e first).length)
      (length_startCode hnext)
    have hhead : (before ++ [nalu]).headD [] = (before ++ nalu :: after).headD [] := by
      cases before <;> rfl
    refine ⟨sizeStartCode + (emulated e first).length + i, ?_, ?_⟩
    · rw [List.cons_append, byteStreamOf, shortStartCodeAt_append (by omega), hlen,
        shortStartCodeAt_append (by omega)]
      rwa [show sizeStartCode + (emulated e first).length + i - sizeStartCode -
        (emulated e first).length = i by omega]
    · rw [List.cons_append, payloadStarts, List.mem_cons]
      intro hmem
      cases hmem with
      | inl hfirst => omega
      | inr htail =>
        rw [← hhead] at htail
        refine hnot ?_
        rwa [show start + (sizeStartCode + (emulated e first).length + i) + 3 =
          start + sizeStartCode + (emulated e first).length + i + 3 by omega] at htail

theorem ShortStartCodeAt.of_prefix {bytes data : List UInt8} (h : bytes <+: data) {i : ℕ}
    (hi : ShortStartCodeAt bytes i) : ShortStartCodeAt data i := by
  obtain ⟨post, rfl⟩ := h
  have hlen := (List.getElem?_eq_some_iff.mp hi.2.2).1
  unfold ShortStartCodeAt at hi ⊢
  rwa [List.getElem?_append_left (by omega), List.getElem?_append_left (by omega),
    List.getElem?_append_left (by omega)]

/-- Where the start codes of a byte stream are in front of payloads only, the marks suffice in
each unit that the byte stream begins with. -/
theorem marksSuffice_of_mem_payloadStarts {before after : List (List UInt8)} {nalu data : List UInt8}
    (hdata : byteStreamOf isAvc isVvc true 4 (before ++ [nalu]) <+: data)
    (h : ∀ i, ShortStartCodeAt data i →
      i + 3 ∈ payloadStarts isAvc isVvc true 4 0 (before ++ nalu :: after)) :
    MarksSuffice nalu := by
  refine (marksSuffice_iff nalu).mpr fun j hj => ?_
  have hj : ShortStartCodeAt (emulated true nalu) j := hj
  have hinside : ∃ i, ShortStartCodeAt (byteStreamOf isAvc isVvc true 4 (before ++ [nalu])) i ∧
      0 + i + 3 ∉ payloadStarts isAvc isVvc true 4 0 (before ++ nalu :: after) :=
    exists_not_mem_payloadStarts (.inr rfl) before after hj 0
  obtain ⟨i, hi, hnot⟩ := hinside
  have hmem := h i (hi.of_prefix hdata)
  exact hnot (by rwa [Nat.zero_add])

/-- More fuel does not change a result. -/
theorem sampleStreamLoop_mono {precision : ℕ} {data out result : List UInt8}
    {fuel fuel' startIndex sizeStartCode : ℕ} (hle : fuel ≤ fuel')
    (h : sampleStreamLoop isAvc isVvc precision e data fuel startIndex sizeStartCode out =
      some result) :
    sampleStreamLoop isAvc isVvc precision e data fuel' startIndex sizeStartCode out =
      some result := by
  induction fuel generalizing fuel' startIndex sizeStartCode out with
  | zero => cases h
  | succ fuel ih =>
    obtain ⟨fuel', rfl⟩ : ∃ n, fuel' = n + 1 := ⟨fuel' - 1, by omega⟩
    obtain ⟨field, hfield, h⟩ := Option.bind_eq_some_iff.mp h
    obtain ⟨naluSize, hsize, h⟩ := Option.bind_eq_some_iff.mp h
    obtain ⟨bytes, hbytes, h⟩ := Option.bind_eq_some_iff.mp h
    obtain ⟨next, hnext, h⟩ := Option.bind_eq_some_iff.mp h
    rw [sampleStreamLoop]
    simp only [Option.bind_eq_bind, hfield, hsize, hbytes, hnext, Option.bind_some]
    by_cases hmore : toSizeT ((startIndex + precision : ℕ) + naluSize) < data.length
    · rw [if_pos hmore] at h ⊢
      exact ih (by omega) h
    · rw [if_neg hmore] at h ⊢
      exact h

/-- The byte stream of units that are all small enough. -/
theorem eq_byteStreamOf {precision fuel : ℕ} {nalus : List (List UInt8)} {byteStream : List UInt8}
    (hne : nalus ≠ [])
    (h : ∀ x ∈ nalus, 2 ≤ x.length ∧ x.length < 256 ^ precision ∧ x.length < 2 ^ 31)
    (hdata : (frames precision nalus).length < 2 ^ 63)
    (hrun : sampleStreamToByteStream fuel isAvc isVvc precision e (frames precision nalus) =
      some byteStream) : byteStream = byteStreamOf isAvc isVvc e 4 nalus := by
  obtain ⟨nalu, nalus, rfl⟩ := List.exists_cons_of_ne_nil hne
  have hdata' : ([] ++ frames precision (nalu :: nalus)).length < 2 ^ 63 := hdata
  have hloop := sampleStreamLoop_nalus isAvc isVvc e h hdata' 4 []
  have hmore := sampleStreamLoop_mono (Nat.le_max_left fuel (nalus.length + 1)) hrun
  have hloopMore := sampleStreamLoop_mono (Nat.le_max_right fuel (nalus.length + 1)) hloop
  exact Option.some.inj (hmore.symm.trans hloopMore)

/-- Where the start codes are in front of payloads only, the marks suffice in each unit of a
byte stream's beginning. -/
theorem forall_marksSuffice {good rest : List (List UInt8)} {data : List UInt8}
    (hdata : byteStreamOf isAvc isVvc true 4 good <+: data)
    (h : ∀ i, ShortStartCodeAt data i →
      i + 3 ∈ payloadStarts isAvc isVvc true 4 0 (good ++ rest)) :
    ∀ x ∈ good, MarksSuffice x := by
  intro x hx
  obtain ⟨before, after, rfl⟩ := List.append_of_mem hx
  have hbegin : byteStreamOf isAvc isVvc true 4 (before ++ [x]) <+: data := by
    have happend := byteStreamOf_append isAvc isVvc true 4 (before ++ [x]) after
    rw [List.append_assoc, List.singleton_append] at happend
    exact happend.trans hdata
  rw [List.append_assoc, List.cons_append] at h
  exact marksSuffice_of_mem_payloadStarts hbegin h

/-- Start codes are prevented, and the sample stream comes back, exactly where a mark is behind
every second zero that needs one, the sizes are `int32_t`, and the shifts of the sizes are
defined. -/
theorem emulationPrevented_iff (isAvc isVvc : Bool) {precision : ℕ} {nalus : List (List UInt8)}
    (hne : nalus ≠ []) (h : ∀ x ∈ nalus, IsPayload x ∧ x.length < 256 ^ precision)
    (hdata : (frames precision nalus).length < 2 ^ 63) :
    EmulationPrevented isAvc isVvc precision nalus ↔
      precision ≤ 8 ∧ ∀ x ∈ nalus, x.length < 2 ^ 31 ∧ MarksSuffice x := by
  have hfit : ∀ x ∈ nalus, 2 ≤ x.length ∧ x.length < 256 ^ precision :=
    fun x hx => ⟨(h x hx).1.two_le, (h x hx).2⟩
  constructor
  · intro hprevented
    obtain ⟨fuel, fuel', byteStream, hforth, hstarts, hback⟩ := hprevented
    have hsmall : ∀ x ∈ nalus, x.length < 2 ^ 31 := by
      by_contra hlarge
      push Not at hlarge
      obtain ⟨good, bad, rest, code, next, tail, rfl, hbad, hcode, hnext, rfl⟩ :=
        exists_of_sampleStreamToByteStream_large hfit hdata hlarge hforth
      have hmarks := forall_marksSuffice (List.prefix_append _ _) hstarts
      have hgood : ∀ x ∈ good, IsNalu (emulated true x) := fun x hx =>
        (h x (List.mem_append_left _ hx)).1.isNalu_emulated_iff.mpr (hmarks x hx)
      have hfitBad := (hfit bad (by simp)).2
      exact byteStreamLoop_ne_of_large hgood hbad hfitBad hcode hnext fuel' hback
    have hall : ∀ x ∈ nalus, 2 ≤ x.length ∧ x.length < 256 ^ precision ∧ x.length < 2 ^ 31 :=
      fun x hx => ⟨(hfit x hx).1, (hfit x hx).2, hsmall x hx⟩
    have hstream := eq_byteStreamOf hne hall hdata hforth
    rw [← List.append_nil nalus] at hstarts
    have hmarks : ∀ x ∈ nalus, MarksSuffice x :=
      forall_marksSuffice (hstream ▸ List.prefix_refl _) hstarts
    exact ⟨precision_le_of_byteStreamLoop hback, fun x hx => ⟨hsmall x hx, hmarks x hx⟩⟩
  · intro hcondition
    obtain ⟨hprecision, hunits⟩ := hcondition
    have hnalu : ∀ x ∈ nalus, IsNalu (emulated true x) := fun x hx =>
      (h x hx).1.isNalu_emulated_iff.mpr (hunits x hx).2
    obtain ⟨nalu, nalus, rfl⟩ := List.exists_cons_of_ne_nil hne
    have hall : ∀ x ∈ nalu :: nalus,
        2 ≤ x.length ∧ x.length < 256 ^ precision ∧ x.length < 2 ^ 31 :=
      fun x hx => ⟨(hfit x hx).1, (hfit x hx).2, (hunits x hx).1⟩
    have hdata' : ([] ++ frames precision (nalu :: nalus)).length < 2 ^ 63 := hdata
    have hforth := sampleStreamLoop_nalus isAvc isVvc true hall hdata' 4 []
    have hback := byteStreamLoop_byteStreamOf isAvc isVvc hprecision true hnalu (.inr rfl) [] []
    refine ⟨_, _, _, hforth, fun i hi => ?_, hback⟩
    have hmem := mem_payloadStarts (.inr rfl) hnalu 0 hi
    rwa [Nat.zero_add] at hmem

/-- Three zeros before a 1 are marked, one zero needs no mark. -/
theorem emulationPrevented_three_zeros :
    EmulationPrevented false false 4 [[64, 1, 0, 0, 0, 1, 5], [2, 1, 0, 1]] := by
  refine (emulationPrevented_iff false false (by simp) (fun x hx => ?_) (by decide)).mpr
    ⟨by decide, by decide +kernel⟩
  simp only [List.mem_cons, List.not_mem_nil, or_false] at hx
  rcases hx with rfl | rfl
  · exact ⟨⟨by decide, by decide⟩, by decide⟩
  · exact ⟨⟨by decide, by decide⟩, by decide⟩

/-- Two zeros before a 1 get no mark: the payload has a start code inside. -/
theorem not_emulationPrevented_two_zeros :
    ¬EmulationPrevented false false 4 [[64, 1, 0, 0, 1, 5]] := by
  intro hprevented
  obtain ⟨fuel, fuel', byteStream, hforth, hstarts, -⟩ := hprevented
  have hstream := eq_byteStreamOf (by simp) (by decide +kernel) (by decide) hforth
  rw [← List.append_nil [[64, 1, 0, 0, 1, 5]]] at hstarts
  have hmarks := forall_marksSuffice (hstream ▸ List.prefix_refl _) hstarts
  have htwo : ¬MarksSuffice [64, 1, 0, 0, 1, 5] := by decide
  exact htwo (hmarks _ (List.mem_singleton_self _))

end V3C

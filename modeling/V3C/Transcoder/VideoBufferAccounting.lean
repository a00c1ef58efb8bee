import V3C.Transcoder.VideoBuffer

/-! What a run of the muxer's callback leaves in its buffer, and when that is what the
transcoder stores. -/
namespace V3C
open Memory

namespace VideoBuffer

/-- The accounting of the callback: the pointer is as far into the buffer as the room says,
and the buffer is all of its block. -/
structure Accounted (s : VideoBuffer) : Prop where
  buf_offset : s.bd.buf.offset = 0
  ptr_block : s.bd.ptr.block = s.bd.buf.block
  ptr_offset : (s.bd.ptr.offset : ℤ) = s.bd.buf.offset + ((s.bd.size : ℤ) - s.bd.room)
  room_le : s.bd.room ≤ s.bd.size
  size : ∃ bytes, s.heap.block s.bd.buf.block = some bytes ∧ bytes.length = s.bd.size
  size_lt : s.bd.size < 2 ^ 64

/-- The buffer starts with the bytes written so far. -/
structure Holds (s : VideoBuffer) (written : List UInt8) : Prop extends Accounted s where
  content : ∀ bytes, s.heap.block s.bd.buf.block = some bytes →
    bytes.take (s.bd.size - s.bd.room) = written

theorem Accounted.offset_eq {s : VideoBuffer} (hs : s.Accounted) :
    s.bd.ptr.offset = s.bd.size - s.bd.room := by
  have h := hs.ptr_offset
  have hroom := hs.room_le
  rw [hs.buf_offset] at h
  omega

theorem Holds.length_eq {s : VideoBuffer} {written : List UInt8} (hs : s.Holds written) :
    written.length = s.bd.size - s.bd.room := by
  obtain ⟨bytes, hbytes, hlen⟩ := hs.size
  rw [← hs.content bytes hbytes, List.length_take, hlen]
  omega

theorem holds_ofVector {data : List UInt8} (hdata : data.length < 2 ^ 64) :
    (ofVector data).Holds [] where
  buf_offset := rfl
  ptr_block := rfl
  ptr_offset := by simp [ofVector]
  room_le := le_rfl
  size := ⟨data, rfl, rfl⟩
  size_lt := hdata
  content := by simp [ofVector]

theorem toSizeT_room {room n : ℕ} (h : n ≤ room) (hroom : room < 2 ^ 64) :
    toSizeT (room - n) = room - n := by
  rw [toSizeT_of_lt (by omega) (by omega)]
  omega

/-- Everything one growth of the buffer does. -/
theorem grow_spec {A : Allocator} {s s' : VideoBuffer} {written : List UInt8}
    (hs : s.Holds written) (h : s.grow A = .ok s') :
    s'.Holds written ∧ s'.bd.size = 2 * s.bd.size ∧ 2 * s.bd.size < 2 ^ 64 ∧
      ∃ n, s.heap.realloc A s.bd.buf.block n = .ok (s'.bd.buf.block, s'.heap) := by
  unfold grow at h
  rw [if_neg (not_not.mpr hs.ptr_block), hs.buf_offset] at h
  obtain ⟨⟨block, heap⟩, hdouble, h⟩ := bind_eq_ok.mp h
  obtain ⟨ptr, hptr, h⟩ := bind_eq_ok.mp h
  cases h
  unfold reallocDouble at hdouble
  rw [if_neg (not_not.mpr hs.buf_offset)] at hdouble
  split_ifs at hdouble with hbig
  obtain ⟨bytes, hbytes, hnew, -, -⟩ := Heap.realloc_eq_ok hdouble
  obtain ⟨_, hbytes', hlen⟩ := hs.size
  cases hbytes.symm.trans hbytes'
  have hoff := hs.offset_eq
  have hroom := hs.room_le
  have hmove := Heap.move_eq_ok (p := ⟨block, 0⟩) (n := s.bd.ptr.offset) hnew (by simp)
    (by rw [Heap.resized_length]; simp; omega)
  simp only [Nat.cast_zero, sub_zero] at hptr
  rw [hmove] at hptr
  cases hptr
  have hsize : toSizeT ((s.bd.size : ℤ) * 2) = 2 * s.bd.size := by
    rw [toSizeT_of_lt (by omega) (by omega)]
    omega
  have hfree : toSizeT ((2 * s.bd.size : ℕ) - ((s.bd.ptr.offset : ℤ) - (0 : ℕ))) =
      2 * s.bd.size - s.bd.ptr.offset := by
    rw [toSizeT_of_lt (by omega) (by omega)]
    omega
  refine ⟨⟨⟨rfl, rfl, ?_, ?_, ?_, by simp only [hsize]; omega⟩, ?_⟩, hsize, by omega, _, hdouble⟩
  · simp only [hsize, hfree]
    omega
  · simp only [hsize, hfree]
    omega
  · exact ⟨_, hnew, by rw [Heap.resized_length, hsize]⟩
  · intro new hnew'
    cases hnew.symm.trans hnew'
    simp only [hsize, hfree]
    rw [show 2 * s.bd.size - (2 * s.bd.size - s.bd.ptr.offset) = s.bd.size - s.bd.room by omega,
      Heap.take_resized A (by omega) (by omega)]
    exact hs.content bytes hbytes

theorem makeRoom_preserves {A : Allocator} {P : VideoBuffer → Prop} {bufSize : ℕ}
    (hgrow : ∀ s s', P s → s.grow A = .ok s' → P s') {fuel : ℕ} {s s' : VideoBuffer}
    (hs : P s) (h : makeRoom A bufSize fuel s = .ok s') : P s' ∧ bufSize ≤ s'.bd.room := by
  induction fuel generalizing s with
  | zero =>
    unfold makeRoom at h
    split_ifs at h with hroom
    cases h
    exact ⟨hs, hroom⟩
  | succ fuel ih =>
    unfold makeRoom at h
    split_ifs at h with hroom
    · cases h
      exact ⟨hs, hroom⟩
    · obtain ⟨grown, hgrown, h⟩ := bind_eq_ok.mp h
      exact ih (hgrow s grown hs hgrown) h

theorem makeRoom_of_le (A : Allocator) {bufSize : ℕ} (fuel : ℕ) {s : VideoBuffer}
    (h : bufSize ≤ s.bd.room) : makeRoom A bufSize fuel s = .ok s := by
  unfold makeRoom
  rw [if_pos h]

/-- A packet that fits behind the bytes written is appended to them, in the same buffer. -/
theorem store_spec {s : VideoBuffer} {written packet : List UInt8} (hs : s.Holds written)
    (hfit : packet.length ≤ s.bd.room) :
    ∃ heap ptr, s.heap.store s.bd.ptr packet = .ok heap ∧
      heap.move s.bd.ptr packet.length = .ok ptr ∧
      (∀ c, c ≠ s.bd.buf.block → heap.block c = s.heap.block c) ∧
      Holds { heap := heap
              bd := { s.bd with ptr := ptr, room := toSizeT (s.bd.room - packet.length) } }
        (written ++ packet) := by
  obtain ⟨bytes, hbytes, hlen⟩ := hs.size
  have hoff := hs.offset_eq
  have hroom := hs.room_le
  have hlt := hs.size_lt
  have hblock := hs.ptr_block
  have hbytes' : s.heap.block s.bd.ptr.block = some bytes := by rw [hblock, hbytes]
  obtain ⟨heap, hstore, hnew, hother⟩ := Heap.store_eq_ok hbytes'
    (show s.bd.ptr.offset + packet.length ≤ bytes.length by omega)
  have hmove := Heap.move_eq_ok (n := packet.length) hnew (by omega)
    (by simp only [List.length_append, List.length_take, List.length_drop]; omega)
  have hfree : toSizeT (s.bd.room - packet.length) = s.bd.room - packet.length :=
    toSizeT_room hfit (by omega)
  refine ⟨heap, _, hstore, hmove, fun c hc => hother c (hblock ▸ hc), ?_⟩
  refine ⟨⟨hs.buf_offset, hblock, ?_, ?_, ?_, hlt⟩, ?_⟩
  · simp only [hfree, hs.buf_offset]
    omega
  · simp only [hfree]
    omega
  · refine ⟨_, hblock ▸ hnew, ?_⟩
    simp only [List.length_append, List.length_take, List.length_drop]
    omega
  · intro new hnew'
    simp only [← hblock] at hnew'
    cases hnew.symm.trans hnew'
    have hwritten : bytes.take s.bd.ptr.offset = written := by
      rw [hoff]
      exact hs.content bytes hbytes
    have hlength : written.length = s.bd.ptr.offset := by rw [hs.length_eq, hoff]
    simp only [hfree]
    rw [hwritten, show s.bd.size - (s.bd.room - packet.length) =
        (written ++ packet).length by simp only [List.length_append]; omega,
      List.take_left']
    rfl

theorem writePacket_spec {A : Allocator} {s s' : VideoBuffer} {written packet : List UInt8}
    (hs : s.Holds written) (h : writePacket A s packet = .ok s') :
    s'.Holds (written ++ packet) := by
  obtain ⟨grown, hgrown, h⟩ := bind_eq_ok.mp h
  obtain ⟨hheld, hfit⟩ := makeRoom_preserves (P := fun s => s.Holds written)
    (fun s s' hs h => (grow_spec hs h).1) hs hgrown
  obtain ⟨heap, ptr, hstore, hmove, -, hholds⟩ := store_spec hheld hfit
  simp only [hstore, hmove, Bind.bind, Except.bind, pure, Except.pure] at h
  cases h
  exact hholds

/-- The buffer of the callback holds all packets in order after any run, whatever the
allocator did. -/
theorem writePackets_spec {A : Allocator} {s s' : VideoBuffer} {written : List UInt8}
    {packets : List (List UInt8)} (hs : s.Holds written)
    (h : writePackets A s packets = .ok s') : s'.Holds (written ++ packets.flatten) := by
  induction packets generalizing s written with
  | nil =>
    cases h
    simpa using hs
  | cons packet packets ih =>
    obtain ⟨next, hnext, h⟩ := bind_eq_ok.mp (by simpa only [writePackets, List.foldlM] using h)
    have := ih (writePacket_spec hs hnext) h
    simpa using this

/-- A packet that fits is written without a new buffer. -/
theorem writePacket_of_le (A : Allocator) {s : VideoBuffer} {written packet : List UInt8}
    (hs : s.Holds written) (hfit : packet.length ≤ s.bd.room) :
    ∃ s', writePacket A s packet = .ok s' ∧ s'.Holds (written ++ packet) ∧
      s'.bd.buf = s.bd.buf ∧ s'.bd.size = s.bd.size := by
  obtain ⟨heap, ptr, hstore, hmove, -, hholds⟩ := store_spec hs hfit
  refine ⟨_, ?_, hholds, rfl, rfl⟩
  simp only [writePacket, makeRoom_of_le A 64 hfit, hstore, hmove, Bind.bind, Except.bind, pure,
    Except.pure]

theorem writePackets_of_le (A : Allocator) {s : VideoBuffer} {written : List UInt8}
    {packets : List (List UInt8)} (hs : s.Holds written)
    (hfit : packets.flatten.length ≤ s.bd.room) :
    ∃ s', writePackets A s packets = .ok s' ∧ s'.Holds (written ++ packets.flatten) ∧
      s'.bd.buf = s.bd.buf ∧ s'.bd.size = s.bd.size := by
  induction packets generalizing s written with
  | nil => exact ⟨s, rfl, by simpa using hs, rfl, rfl⟩
  | cons packet packets ih =>
    simp only [List.flatten_cons, List.length_append] at hfit
    have hfirst : packet.length ≤ s.bd.room := by omega
    obtain ⟨next, hnext, hheld, hbuf, hsize⟩ := writePacket_of_le A hs hfirst
    have hwritten := hs.length_eq
    have hwritten' := hheld.length_eq
    have hroom := hs.room_le
    have hroom' := hheld.room_le
    rw [List.length_append] at hwritten'
    have hleft : packets.flatten.length ≤ next.bd.room := by omega
    obtain ⟨last, hlast, hholds, hbuf', hsize'⟩ := ih hheld hleft
    refine ⟨last, ?_, by simpa using hholds, hbuf'.trans hbuf, hsize'.trans hsize⟩
    rw [writePackets, List.foldlM_cons, hnext]
    exact hlast

/-- Where the vector of `outSize` bytes is, for an allocator that always moves a block: it
is the buffer, or it has been freed. -/
def VectorOrFreed (outSize : ℕ) (s : VideoBuffer) : Prop :=
  s.bd.buf.block = 0 ∧ s.bd.size = outSize ∨ s.heap.block 0 = none

theorem grow_frees {A : Allocator} (hA : ∀ heap n, A.place heap n = .moved) {outSize : ℕ}
    {s s' : VideoBuffer} {written : List UInt8} (hs : s.Holds written)
    (hvector : s.VectorOrFreed outSize) (h : s.grow A = .ok s') : s'.VectorOrFreed outSize := by
  obtain ⟨-, -, -, n, hrealloc⟩ := grow_spec hs h
  obtain ⟨bytes, hbytes, hnew, hplace, hother⟩ := Heap.realloc_eq_ok hrealloc
  rw [hA] at hplace
  obtain ⟨hin, -⟩ | ⟨-, hlast, hfreed⟩ := hplace
  · cases hin
  · right
    have hin := Heap.lt_length_of_block hbytes
    obtain ⟨hbuf, -⟩ | hgone := hvector
    · rw [hbuf] at hfreed
      exact hfreed
    · rw [hother 0 (fun h => ?_) (by omega), hgone]
      rw [← h, hgone] at hbytes
      cases hbytes

theorem writePacket_frees {A : Allocator} (hA : ∀ heap n, A.place heap n = .moved) {outSize : ℕ}
    {s s' : VideoBuffer} {written packet : List UInt8} (hs : s.Holds written)
    (hvector : s.VectorOrFreed outSize) (h : writePacket A s packet = .ok s') :
    s'.VectorOrFreed outSize := by
  obtain ⟨grown, hgrown, h⟩ := bind_eq_ok.mp h
  obtain ⟨⟨hheld, hvector⟩, hfit⟩ := makeRoom_preserves
    (P := fun s => s.Holds written ∧ s.VectorOrFreed outSize)
    (fun s s' hs h => ⟨(grow_spec hs.1 h).1, grow_frees hA hs.1 hs.2 h⟩) ⟨hs, hvector⟩ hgrown
  obtain ⟨heap, ptr, hstore, hmove, hother, -⟩ := store_spec hheld hfit
  simp only [hstore, hmove, Bind.bind, Except.bind, pure, Except.pure] at h
  cases h
  obtain hbuf | hgone := hvector
  · exact .inl hbuf
  · right
    obtain ⟨bytes, hbytes, -⟩ := hheld.size
    have hne : 0 ≠ grown.bd.buf.block := by
      intro h0
      rw [← h0, hgone] at hbytes
      cases hbytes
    simp only [hother 0 hne, hgone]

theorem writePackets_frees {A : Allocator} (hA : ∀ heap n, A.place heap n = .moved) {outSize : ℕ}
    {s s' : VideoBuffer} {written : List UInt8} {packets : List (List UInt8)}
    (hs : s.Holds written) (hvector : s.VectorOrFreed outSize)
    (h : writePackets A s packets = .ok s') : s'.VectorOrFreed outSize := by
  induction packets generalizing s written with
  | nil =>
    cases h
    exact hvector
  | cons packet packets ih =>
    obtain ⟨next, hnext, h⟩ := bind_eq_ok.mp (by simpa only [writePackets, List.foldlM] using h)
    exact ih (writePacket_spec hs hnext) (writePacket_frees hA hs hvector hnext) h

theorem resizeVector_length {h : Heap} {block size n : ℕ} {bytes : List UInt8}
    (hr : resizeVector h block size n = .ok bytes) : bytes.length = n := by
  unfold resizeVector at hr
  split_ifs at hr with hn
  · exact Heap.load_length hr
  · obtain ⟨all, hall, hr⟩ := bind_eq_ok.mp hr
    cases hr
    rw [List.length_append, Heap.load_length hall, List.length_replicate]
    omega

theorem resizeVector_freed {h : Heap} {block size n : ℕ} (hfreed : h.block block = none) :
    resizeVector h block size n = .error .undefined := by
  unfold resizeVector
  rw [Heap.load_freed hfreed, Heap.load_freed hfreed]
  split_ifs <;> rfl

theorem storedVector_eq {s : VideoBuffer} {written : List UInt8} (hs : s.Holds written)
    (outVec outSize : ℕ) :
    storedVector outVec outSize s = if toInt32 written.length < 0 then .error .lengthError
      else resizeVector s.heap outVec outSize (toInt32 written.length).toNat := by
  have hwritten := hs.length_eq
  have hroom := hs.room_le
  have hsize := hs.size_lt
  have hcount : toSizeT ((s.bd.size : ℤ) - s.bd.room) = written.length := by
    rw [toSizeT_of_lt (by omega) (by omega)]
    omega
  rw [storedVector, hcount]

/-- The vector is read back, cut to what was written, while it is still the buffer. -/
theorem storedVector_of_buffer {s : VideoBuffer} {written : List UInt8} (hs : s.Holds written)
    (hbuf : s.bd.buf.block = 0) (hlt : written.length < 2 ^ 31) :
    storedVector 0 s.bd.size s = .ok written := by
  obtain ⟨bytes, hbytes, hlen⟩ := hs.size
  have hwritten := hs.length_eq
  have hroom := hs.room_le
  rw [storedVector_eq hs, toInt32_of_lt hlt, if_neg (by omega), Int.toNat_natCast,
    resizeVector, if_pos (by omega)]
  have hblock : s.heap.block 0 = some bytes := by rw [← hbytes, hbuf]
  rw [Heap.load_eq_ok (p := ⟨0, 0⟩) hblock (by simp only; omega), List.drop_zero, hwritten,
    hs.content bytes hbytes]

/-- Where the stored vector is what was written, its length is an `int`. -/
theorem storedVector_length_lt {s : VideoBuffer} {written : List UInt8} (hs : s.Holds written)
    {outVec outSize : ℕ} (hstored : storedVector outVec outSize s = .ok written) :
    written.length < 2 ^ 31 := by
  have hmem := toInt32_mem written.length
  rw [storedVector_eq hs] at hstored
  split_ifs at hstored with hneg
  have hlen := resizeVector_length hstored
  omega

theorem storedVector_freed {s : VideoBuffer} {written bytes : List UInt8} (hs : s.Holds written)
    {outVec outSize : ℕ} (hfreed : s.heap.block outVec = none) :
    storedVector outVec outSize s ≠ .ok bytes := by
  rw [storedVector_eq hs, resizeVector_freed hfreed]
  split_ifs <;> simp

/-- The accounting holds after every packet, and the vector stored at the end is the
concatenation of the packets. -/
structure KeepsPackets (A : Allocator) (outSize : ℕ) (packets : List (List UInt8)) : Prop where
  accounted : ∀ seen rest, packets = seen ++ rest →
    ∃ s, writePackets A (ofVector (List.replicate outSize 0)) seen = .ok s ∧ s.Accounted
  stored : transcodedVector A outSize packets = .ok packets.flatten

theorem keepsPackets_of_le (A : Allocator) {outSize : ℕ} {packets : List (List UInt8)}
    (hsize : outSize < 2 ^ 64) (hfit : packets.flatten.length ≤ outSize)
    (hlt : packets.flatten.length < 2 ^ 31) : KeepsPackets A outSize packets where
  accounted := by
    intro seen rest happ
    have hstart : (ofVector (List.replicate outSize 0)).Holds [] :=
      holds_ofVector (by simpa using hsize)
    have hseen : seen.flatten.length ≤ (ofVector (List.replicate outSize 0)).bd.room := by
      rw [happ, List.flatten_append, List.length_append] at hfit
      simp only [ofVector, List.length_replicate]
      omega
    obtain ⟨s, hs, hholds, -, -⟩ := writePackets_of_le A hstart hseen
    exact ⟨s, hs, hholds.toAccounted⟩
  stored := by
    have hstart : (ofVector (List.replicate outSize 0)).Holds [] :=
      holds_ofVector (by simpa using hsize)
    have hroom : packets.flatten.length ≤ (ofVector (List.replicate outSize 0)).bd.room := by
      simpa [ofVector] using hfit
    obtain ⟨s, hs, hholds, hbuf, hsize'⟩ := writePackets_of_le A hstart hroom
    rw [List.nil_append] at hholds
    have hout : s.bd.size = outSize := by simpa [ofVector] using hsize'
    have hblock : s.bd.buf.block = 0 := by rw [hbuf, ofVector]
    rw [transcodedVector, hs, ok_bind, ← hout, storedVector_of_buffer hholds hblock hlt]

def movingAllocator : Allocator where
  place := fun _ _ => .moved
  fresh := 0

/-- The transcoded video is the packets in order under every allocator exactly when the
buffer never had to grow and their length is an `int`. -/
theorem keepsPackets_iff {outSize : ℕ} (hsize : outSize < 2 ^ 64)
    (packets : List (List UInt8)) :
    (∀ A, KeepsPackets A outSize packets) ↔
      packets.flatten.length ≤ outSize ∧ packets.flatten.length < 2 ^ 31 := by
  constructor
  · intro h
    obtain ⟨-, hstored⟩ := h movingAllocator
    obtain ⟨s, hs, hstored⟩ := bind_eq_ok.mp hstored
    have hstart : (ofVector (List.replicate outSize 0)).Holds [] :=
      holds_ofVector (by simpa using hsize)
    have hholds := writePackets_spec hstart hs
    rw [List.nil_append] at hholds
    have hvector : s.VectorOrFreed outSize := by
      refine writePackets_frees (fun _ _ => rfl) hstart ?_ hs
      exact .inl ⟨rfl, by simp [ofVector]⟩
    refine ⟨?_, storedVector_length_lt hholds hstored⟩
    obtain ⟨-, hout⟩ | hfreed := hvector
    · rw [hholds.length_eq, hout]
      omega
    · exact absurd hstored (storedVector_freed hholds hfreed)
  · rintro ⟨hfit, hlt⟩ A
    exact keepsPackets_of_le A hsize hfit hlt

theorem keepsPackets_iff_exact : KeepsPackets movingAllocator 4 [[0, 0], [0, 1]] :=
  (keepsPackets_iff (show 4 < 2 ^ 64 by omega) [[0, 0], [0, 1]]).mpr ⟨by simp, by simp⟩
    movingAllocator

/-- A video of one byte that becomes three. -/
theorem not_keepsPackets_grown : ¬ ∀ A, KeepsPackets A 2 [[0, 0], [1]] := by
  intro h
  have hstored := (h movingAllocator).stored
  have hlost : transcodedVector movingAllocator 2 [[0, 0], [1]] = .error .undefined := by
    decide +kernel
  rw [hlost] at hstored
  cases hstored

/-- A seek moves the pointer and nothing else. -/
theorem seek_spec {s s' : VideoBuffer} {offset : ℤ} {whence : Whence} {result : SeekResult}
    (h : s.seek offset whence = .ok (s', result)) :
    s' = { s with bd := { s.bd with ptr := s'.bd.ptr } } := by
  cases whence with
  | seekSet | seekCur | seekEnd =>
    obtain ⟨ptr, -, h⟩ := bind_eq_ok.mp h
    cases h
    rfl
  | avseekSize | other =>
    cases h
    rfl

/-- The room is not updated by a seek, so only a seek to where the pointer was keeps the
accounting. -/
theorem seek_accounted_iff {s s' : VideoBuffer} {offset : ℤ} {whence : Whence}
    {result : SeekResult} (hs : s.Accounted) (h : s.seek offset whence = .ok (s', result)) :
    s'.Accounted ↔ s'.bd.ptr = s.bd.ptr := by
  have hspec := seek_spec h
  constructor
  · intro hs'
    have hblock : s'.bd.ptr.block = s.bd.ptr.block := by
      rw [hs'.ptr_block, hs.ptr_block, hspec]
    have hoffset : s'.bd.ptr.offset = s.bd.ptr.offset := by
      rw [hs'.offset_eq, hs.offset_eq, hspec]
    exact Pointer.ext hblock hoffset
  · intro hptr
    rw [hspec, hptr]
    exact hs

/-- The demuxer is given the input from its start, a piece at a time. -/
theorem readPacket_spec {s : VideoBuffer} {seen rest : List UInt8} (bufSize : ℕ)
    (hs : s.Holds seen) (hall : s.heap.block s.bd.buf.block = some (seen ++ rest)) :
    ∃ s', s.readPacket bufSize = .ok (s', rest.take bufSize) ∧
      s'.Holds (seen ++ rest.take bufSize) ∧ s'.heap = s.heap ∧ s'.bd.buf = s.bd.buf := by
  obtain ⟨bytes, hbytes, hlen⟩ := hs.size
  cases hall.symm.trans hbytes
  have hoff := hs.offset_eq
  have hroom := hs.room_le
  have hlt := hs.size_lt
  have hseen := hs.length_eq
  have hptr : s.heap.block s.bd.ptr.block = some (seen ++ rest) := by rw [hs.ptr_block, hall]
  rw [List.length_append] at hlen
  unfold readPacket
  obtain ⟨n, hn⟩ : ∃ n, n = min bufSize s.bd.room := ⟨_, rfl⟩
  rw [← hn]
  have htake : rest.take n = rest.take bufSize := by
    rw [List.take_eq_take_min, show min n rest.length = min bufSize rest.length by omega,
      ← List.take_eq_take_min]
  have hread : ((seen ++ rest).drop s.bd.ptr.offset).take n = rest.take bufSize := by
    rw [hoff, ← hseen, List.drop_left, htake]
  have hload := Heap.load_eq_ok (n := n) hptr (by rw [List.length_append]; omega)
  have hmove := Heap.move_eq_ok (n := n) hptr (by omega) (by rw [List.length_append]; omega)
  have hleft : toSizeT (s.bd.room - n) = s.bd.room - n := toSizeT_room (by omega) (by omega)
  simp only [hload, hmove, ok_bind, hread, hleft]
  refine ⟨_, rfl, ⟨⟨hs.buf_offset, hs.ptr_block, ?_, ?_, ?_, hlt⟩, ?_⟩, rfl, rfl⟩
  · simp only [hs.buf_offset]
    omega
  · simp only
    omega
  · exact ⟨_, hall, by rw [List.length_append, hlen]⟩
  · intro all hall'
    cases hall.symm.trans hall'
    simp only
    rw [show s.bd.size - (s.bd.room - n) = seen.length + n by omega,
      List.take_length_add_append, htake]

end VideoBuffer

end V3C

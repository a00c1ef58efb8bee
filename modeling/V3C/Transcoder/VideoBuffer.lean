import V3C.Memory.Heap
import V3C.Common.Integer

/-! The buffers between the transcoder and the demuxer and muxer of a video, and the
vector that becomes the transcoded video. -/
namespace V3C
open Memory

/-- `buffer_data` -/
structure BufferData where
  buf : Pointer
  size : ℕ
  ptr : Pointer
  room : ℕ

/-- A `buffer_data` and the memory it points to. -/
structure VideoBuffer where
  heap : Heap
  bd : BufferData

inductive Whence
  | seekSet
  | seekCur
  | seekEnd
  | avseekSize
  | other

/-- What `seek` returns: an address, or a number. -/
inductive SeekResult
  | address (ptr : Pointer)
  | number (n : ℤ)

namespace VideoBuffer

/-- A new buffer over a vector of `size` bytes, the only block of the memory. -/
def ofVector (data : List UInt8) : VideoBuffer where
  heap := { blocks := [some data] }
  bd := { buf := ⟨0, 0⟩, size := data.length, ptr := ⟨0, 0⟩, room := data.length }

def readPacket (s : VideoBuffer) (bufSize : ℕ) : Except Fault (VideoBuffer × List UInt8) := do
  let n := min bufSize s.bd.room
  let bytes ← s.heap.load s.bd.ptr n
  let ptr ← s.heap.move s.bd.ptr n
  pure ({ s with bd := { s.bd with ptr := ptr, room := toSizeT (s.bd.room - n) } }, bytes)

/-- `av_realloc_f` of two elements of the buffer's size. -/
def reallocDouble (A : Allocator) (s : VideoBuffer) : Except Fault (ℕ × Heap) :=
  if 2 ^ 64 ≤ 2 * s.bd.size then .error .outOfMemory
  else if s.bd.buf.offset ≠ 0 then .error .undefined
  else s.heap.realloc A s.bd.buf.block (2 * s.bd.size)

/-- One iteration of the loop in `write_packet`. -/
def grow (A : Allocator) (s : VideoBuffer) : Except Fault VideoBuffer :=
  if s.bd.ptr.block ≠ s.bd.buf.block then .error .undefined
  else do
    let offset : ℤ := s.bd.ptr.offset - s.bd.buf.offset
    let (block, heap) ← s.reallocDouble A
    let size := toSizeT (s.bd.size * 2)
    let ptr ← heap.move ⟨block, 0⟩ offset
    pure { heap := heap
           bd := { buf := ⟨block, 0⟩, size := size, ptr := ptr, room := toSizeT (size - offset) } }

/-- The loop in `write_packet`, for as many iterations as there is fuel. -/
def makeRoom (A : Allocator) (bufSize : ℕ) : ℕ → VideoBuffer → Except Fault VideoBuffer
  | fuel, s =>
    if bufSize ≤ s.bd.room then .ok s
    else match fuel with
      | 0 => .error .running
      | fuel + 1 => do makeRoom A bufSize fuel (← s.grow A)

/-- Sixty-four doublings take every size but zero out of the range of `size_t`. -/
def writePacket (A : Allocator) (s : VideoBuffer) (packet : List UInt8) :
    Except Fault VideoBuffer := do
  let s ← makeRoom A packet.length 64 s
  let heap ← s.heap.store s.bd.ptr packet
  let ptr ← heap.move s.bd.ptr packet.length
  pure { heap := heap
         bd := { s.bd with ptr := ptr, room := toSizeT (s.bd.room - packet.length) } }

def seek (s : VideoBuffer) (offset : ℤ) : Whence → Except Fault (VideoBuffer × SeekResult)
  | .seekSet => do
    let ptr ← s.heap.move s.bd.buf offset
    pure ({ s with bd := { s.bd with ptr := ptr } }, .address ptr)
  | .seekCur => do
    let ptr ← s.heap.move s.bd.ptr offset
    pure ({ s with bd := { s.bd with ptr := ptr } }, .number 1)
  | .seekEnd => do
    let ptr ← s.heap.move s.bd.buf (s.bd.size + offset)
    pure ({ s with bd := { s.bd with ptr := ptr } }, .address ptr)
  | .avseekSize => pure (s, .number s.bd.size)
  | .other => pure (s, .number (-1))

/-- `resize` of a vector of `size` bytes that is kept in a block. -/
def resizeVector (h : Heap) (block size n : ℕ) : Except Fault (List UInt8) :=
  if n ≤ size then h.load ⟨block, 0⟩ n
  else do
    let bytes ← h.load ⟨block, 0⟩ size
    pure (bytes ++ List.replicate (n - size) 0)

/-- The bytes stored in the video bitstream when the muxer is done: those of the vector the
buffer started on, cut to an `int` of the bytes written. -/
def storedVector (outVec outSize : ℕ) (s : VideoBuffer) : Except Fault (List UInt8) :=
  let outStreamSize := toInt32 (toSizeT (s.bd.size - s.bd.room))
  if outStreamSize < 0 then .error .lengthError
  else resizeVector s.heap outVec outSize outStreamSize.toNat

def writePackets (A : Allocator) (s : VideoBuffer) (packets : List (List UInt8)) :
    Except Fault VideoBuffer :=
  packets.foldlM (writePacket A) s

/-- The output of `transcodeVideo` before its conversion to sample stream. -/
def transcodedVector (A : Allocator) (outSize : ℕ) (packets : List (List UInt8)) :
    Except Fault (List UInt8) := do
  let s ← writePackets A (ofVector (List.replicate outSize 0)) packets
  storedVector 0 outSize s

end VideoBuffer

end V3C

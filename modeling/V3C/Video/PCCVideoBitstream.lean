import V3C.Codec.Frames
import V3C.Common.Integer

/-! The two forms of a video bitstream: NAL units behind their sizes (sample stream) and NAL
units behind start codes (byte stream). An access outside the data has no result. -/
namespace V3C
open Codec

/-- Bytes up to 3 are marked by a 3 when three zeros precede them. -/
def insertEmulation : ℕ → List UInt8 → List UInt8
  | _, [] => []
  | zeroCount, b :: rest =>
    if zeroCount = 3 ∧ b ≤ 3 then 3 :: b :: insertEmulation (if b = 0 then 1 else 0) rest
    else b :: insertEmulation (if b = 0 then zeroCount + 1 else 0) rest

def removeEmulation : ℕ → List UInt8 → List UInt8
  | _, [] => []
  | zeroCount, b :: rest =>
    if zeroCount = 3 ∧ b ≤ 3 then removeEmulation 0 rest
    else b :: removeEmulation (if b = 0 then zeroCount + 1 else 0) rest

/-- The bytes from `start` to before `stop`, as a loop from one to the other visits them. -/
def bytesBetween (data : List UInt8) (start stop : ℕ) : Option (List UInt8) :=
  if stop ≤ start then some []
  else if stop ≤ data.length then some ((data.take stop).drop start)
  else none

/-- A start code of three or of four bytes at index `i`. -/
def StartCodeAt (data : List UInt8) (i : ℕ) : Prop :=
  data[i]? = some 0 ∧ data[i + 1]? = some 0 ∧
    (data[i + 2]? = some 1 ∨ data[i + 2]? = some 0 ∧ data[i + 3]? = some 1)

instance (data : List UInt8) (i : ℕ) : Decidable (StartCodeAt data i) :=
  inferInstanceAs (Decidable (_ ∧ _ ∧ (_ ∨ _ ∧ _)))

/-- The search for a start code from index `i`, over `k` positions. -/
def searchStartCode (data : List UInt8) : ℕ → ℕ → ℕ
  | 0, _ => data.length
  | k + 1, i => if StartCodeAt data i then i else searchStartCode data k (i + 1)

def getEndOfNaluPosition (data : List UInt8) (startIndex : ℕ) : ℕ :=
  if data.length < startIndex + 4 then data.length
  else searchStartCode data (data.length - 4 - startIndex) startIndex

/-- A size in `precision` bytes. A shift of a `size_t` by 64 or more is undefined. -/
def writeNaluSize (precision naluSize : ℕ) : Option (List UInt8) :=
  if precision ≤ 8 then some (bytesOfNat precision naluSize) else none

/-- The loop of `byteStreamToSampleStream`, for as many NAL units as there is fuel. -/
def byteStreamLoop (precision : ℕ) (emulationPreventionBytes : Bool) (data : List UInt8) :
    ℕ → ℕ → List UInt8 → Option (List UInt8)
  | 0, _, _ => none
  | fuel + 1, startIndex, out => do
    let third ← data[startIndex + 2]?
    let sizeStartCode := if third = 0 then 4 else 3
    let endIndex := getEndOfNaluPosition data (startIndex + sizeStartCode)
    let bytes ← bytesBetween data (startIndex + sizeStartCode) endIndex
    let nalu := if emulationPreventionBytes then removeEmulation 0 bytes else bytes
    let size ← writeNaluSize precision nalu.length
    let out := out ++ (size ++ nalu)
    if endIndex < data.length then
      byteStreamLoop precision emulationPreventionBytes data fuel endIndex out
    else some out

def byteStreamToSampleStream (fuel precision : ℕ) (emulationPreventionBytes : Bool)
    (data : List UInt8) : Option (List UInt8) :=
  byteStreamLoop precision emulationPreventionBytes data fuel 0 []

/-- `( naluSize << 8 ) + b` in `int32_t`. The shifted value has to fit in `uint32_t`, and its
conversion wraps. -/
def shiftInByte (naluSize : ℤ) (b : UInt8) : Option ℤ :=
  if 0 ≤ naluSize ∧ naluSize * 256 < 2 ^ 32 then
    some (toInt32 (naluSize.toNat * 256) + b.toNat)
  else none

def readNaluSize (bytes : List UInt8) : Option ℤ := bytes.foldlM shiftInByte 0

def isLongStartCode (isAvc isVvc : Bool) (header : UInt8 × UInt8) : Bool :=
  if isAvc then true
  else if isVvc then
    let naluType := (header.2.toNat &&& 248) >>> 3
    12 ≤ naluType ∧ naluType < 20
  else
    let naluType := (header.1.toNat &&& 126) >>> 1
    32 ≤ naluType ∧ naluType < 41

/-- The second byte of a NAL unit header, which only the VVC rule looks at. -/
def secondHeaderByte (isAvc isVvc : Bool) (data : List UInt8) (i : ℕ) : Option UInt8 :=
  if isVvc && !isAvc then data[i]? else some 0

/-- The size of the start code before the NAL unit whose size field is at `startIndex`, where
there is one. `newFrame` is cleared before every use. -/
def nextStartCodeSize (isAvc isVvc : Bool) (precision : ℕ) (data : List UInt8)
    (startIndex sizeStartCode : ℕ) : Option ℕ :=
  if startIndex + precision < data.length then do
    let first ← data[startIndex + precision]?
    let second ← secondHeaderByte isAvc isVvc data (startIndex + precision + 1)
    pure (if isLongStartCode isAvc isVvc (first, second) then 4 else 3)
  else some sizeStartCode

def startCode (sizeStartCode : ℕ) : List UInt8 := List.replicate (sizeStartCode - 1) 0 ++ [1]

/-- The loop of `sampleStreamToByteStream`, for as many NAL units as there is fuel. -/
def sampleStreamLoop (isAvc isVvc : Bool) (precision : ℕ) (emulationPreventionBytes : Bool)
    (data : List UInt8) : ℕ → ℕ → ℕ → List UInt8 → Option (List UInt8)
  | 0, _, _, _ => none
  | fuel + 1, startIndex, sizeStartCode, out => do
    let field ← bytesBetween data startIndex (startIndex + precision)
    let naluSize ← readNaluSize field
    let endIndex := toSizeT ((startIndex + precision : ℕ) + naluSize)
    let bytes ← bytesBetween data (startIndex + precision) endIndex
    let nalu := if emulationPreventionBytes then insertEmulation 0 bytes else bytes
    let out := out ++ (startCode sizeStartCode ++ nalu)
    let sizeStartCode ← nextStartCodeSize isAvc isVvc precision data endIndex sizeStartCode
    if endIndex < data.length then
      sampleStreamLoop isAvc isVvc precision emulationPreventionBytes data fuel endIndex
        sizeStartCode out
    else some out

def sampleStreamToByteStream (fuel : ℕ) (isAvc isVvc : Bool) (precision : ℕ)
    (emulationPreventionBytes : Bool) (data : List UInt8) : Option (List UInt8) :=
  sampleStreamLoop isAvc isVvc precision emulationPreventionBytes data fuel 0 4 []

/-- Removing the marks gives back the bytes they were inserted in. -/
theorem removeEmulation_insertEmulation (zeroCount : ℕ) (bytes : List UInt8) :
    removeEmulation zeroCount (insertEmulation zeroCount bytes) = bytes := by
  induction bytes generalizing zeroCount with
  | nil => rfl
  | cons b rest ih =>
    by_cases hmark : zeroCount = 3 ∧ b ≤ 3
    · have hthree : ¬ (0 = 3 ∧ b ≤ 3) := fun h => absurd h.1 (by omega)
      rw [insertEmulation, if_pos hmark, removeEmulation, if_pos ⟨hmark.1, by decide⟩,
        removeEmulation, if_neg hthree, ih]
    · rw [insertEmulation, if_neg hmark, removeEmulation, if_neg hmark, ih]

end V3C

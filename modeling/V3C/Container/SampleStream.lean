import V3C.Bitstream.PCCBitstream
import V3C.Codec.Frames
import V3C.Common.Integer

/-! The sample stream of V3C units: every unit behind its size, in as many bytes as the
header says. -/
namespace V3C
open Codec

/-- A V3C unit. The position of its bitstream is reset by every access to it. -/
structure V3CUnit where
  type : ℕ
  size : ℕ
  data : List UInt8
  deriving DecidableEq, Repr

structure SampleStreamV3CUnit where
  v3cUnits : List V3CUnit := []
  ssvhUnitSizePrecisionBytesMinus1 : ℕ := 0
  deriving DecidableEq, Repr

namespace V3CUnit

def getBitstream (unit : V3CUnit) : PCCBitstream := ⟨unit.data, 0, 0⟩

def bytes (unit : V3CUnit) : List UInt8 := unit.data.take unit.size

end V3CUnit

/-- `ceil( ceilLog2( maxSize ) / 8.0 )`, from one to eight. -/
def sizePrecision (maxSize : ℕ) : ℕ := (min (max ((ceilLog2 maxSize + 7) / 8) 1) 8).toNat

namespace SampleStreamV3CUnit

/-- The bits of a size field, an argument of type `uint8_t`. -/
def sizeBits (ssvu : SampleStreamV3CUnit) : ℕ := 8 * (ssvu.ssvhUnitSizePrecisionBytesMinus1 + 1) % 256

end SampleStreamV3CUnit

namespace PCCBitstreamWriter

/-- The largest size, in a `uint32_t`. -/
def maxUnitSize (units : List V3CUnit) : ℕ :=
  units.foldl (fun maxSize unit => if maxSize < unit.size then unit.size % 2 ^ 32 else maxSize) 0

def sampleStreamV3CHeader (s : PCCBitstream) (ssvu : SampleStreamV3CUnit) :
    Option PCCBitstream := do
  let s ← s.write ssvu.ssvhUnitSizePrecisionBytesMinus1 3
  s.write 0 5

def sampleStreamV3CUnit (ssvu : SampleStreamV3CUnit) (s : PCCBitstream) (unit : V3CUnit) :
    Option PCCBitstream := do
  let s ← s.write unit.size ssvu.sizeBits
  let (s, _) ← s.copyFrom unit.getBitstream 0 unit.size
  pure s

def precision (units : List V3CUnit) (forced : ℕ) : ℕ :=
  max (sizePrecision (maxUnitSize units)) forced

/-- The stream, the precision that went into it and the bytes that are not units. -/
protected def write (ssvu : SampleStreamV3CUnit) (s : PCCBitstream)
    (forcedSsvhUnitSizePrecisionBytes : ℕ) : Option (SampleStreamV3CUnit × PCCBitstream × ℕ) := do
  let ssvu := { ssvu with
    ssvhUnitSizePrecisionBytesMinus1 :=
      precision ssvu.v3cUnits forcedSsvhUnitSizePrecisionBytes - 1 }
  let s ← sampleStreamV3CHeader s ssvu
  let s ← ssvu.v3cUnits.foldlM (sampleStreamV3CUnit ssvu) s
  pure (ssvu, s, 1 + ssvu.v3cUnits.length * (ssvu.ssvhUnitSizePrecisionBytesMinus1 + 1))

end PCCBitstreamWriter

namespace PCCBitstreamReader

def sampleStreamV3CHeader (s : PCCBitstream) (ssvu : SampleStreamV3CUnit) :
    Option (SampleStreamV3CUnit × PCCBitstream) := do
  let (code, s) ← s.read 3
  let (_, s) ← s.read 5
  pure ({ ssvu with ssvhUnitSizePrecisionBytesMinus1 := code }, s)

/-- A unit of no bytes has no first byte to take its type from. -/
def sampleStreamV3CUnit (ssvu : SampleStreamV3CUnit) (s : PCCBitstream) :
    Option (V3CUnit × PCCBitstream) := do
  let (size, s) ← s.read ssvu.sizeBits
  let (unit, s) ← PCCBitstream.empty.copyFrom s s.bytes size
  let v3cUnitType8 ← unit.data[0]?
  pure ({ type := v3cUnitType8.toNat >>> 3, size := size, data := unit.data }, s)

/-- The loop of `read`, for as many units as there is fuel. -/
def readUnits : ℕ → SampleStreamV3CUnit → PCCBitstream → ℕ →
    Option (SampleStreamV3CUnit × PCCBitstream × ℕ)
  | fuel, ssvu, s, headerSize =>
    if s.moreData then
      match fuel with
      | 0 => none
      | fuel + 1 => do
        let (unit, s) ← sampleStreamV3CUnit ssvu s
        readUnits fuel { ssvu with v3cUnits := ssvu.v3cUnits ++ [unit] } s
          (headerSize + (ssvu.ssvhUnitSizePrecisionBytesMinus1 + 1))
    else some (ssvu, s, headerSize)

protected def read (fuel : ℕ) (s : PCCBitstream) (ssvu : SampleStreamV3CUnit) :
    Option (SampleStreamV3CUnit × PCCBitstream × ℕ) := do
  let (ssvu, s) ← sampleStreamV3CHeader s ssvu
  readUnits fuel ssvu s 1

end PCCBitstreamReader

/-- A precision of `k` bytes or less is chosen for sizes up to `256 ^ k`. -/
theorem sizePrecision_le_iff {maxSize k : ℕ} (hk : 0 < k) (hsize : maxSize < 2 ^ 32) :
    sizePrecision maxSize ≤ k ↔ maxSize ≤ 256 ^ k := by
  have hpow : (256 : ℕ) ^ k = 2 ^ (8 * k) := by rw [pow_mul]; rfl
  have hbits : ceilLog2 maxSize ≤ 32 := by
    by_cases h0 : maxSize = 0
    · simp [h0, ceilLog2]
    · exact (ceilLog2_le_iff (by omega) 32).mpr (by omega)
  have hprecision : sizePrecision maxSize ≤ k ↔ ceilLog2 maxSize ≤ (8 * k : ℕ) := by
    unfold sizePrecision
    omega
  rw [hprecision, hpow]
  by_cases h0 : maxSize = 0
  · simp [h0, ceilLog2]
    omega
  · exact ceilLog2_le_iff (by omega) _

theorem sizePrecision_pos (maxSize : ℕ) : 0 < sizePrecision maxSize := by
  unfold sizePrecision
  omega

end V3C

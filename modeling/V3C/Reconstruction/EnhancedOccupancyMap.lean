import Mathlib.Data.Set.Basic
import Mathlib.Tactic.IntervalCases
import V3C.Common.Integer

/-! The enhanced occupancy map: the sample of an occupied pixel carries the code of the depths
between the two maps. -/
namespace V3C

def infiniteDepth : ℤ := 32767

structure EomParameters where
  mapCountMinus1 : ℕ
  EOMFixBitCount : ℕ
  absoluteD1 : Bool
  removeDuplicatePoints : Bool

structure EomPatch where
  projectionMode : ℕ
  d1 : ℕ

/-- The normal coordinates of the points of one pixel, before the rotation of the additional
planes. -/
structure PixelPoints where
  reconstruct : List ℤ
  eomPointsPerPatch : List ℤ

namespace EomPatch

def generateNormalCoordinate (patch : EomPatch) (depth : ℕ) : ℤ :=
  if patch.projectionMode = 0 then depth + patch.d1
  else if 0 < (patch.d1 : ℤ) - depth then patch.d1 - depth
  else 0

/-- The coordinate of a point that lies `deltaDCur` behind another one. -/
def behind (patch : EomPatch) (point0 : ℤ) (deltaDCur : ℕ) : ℤ :=
  if patch.projectionMode = 0 then point0 + deltaDCur else point0 - deltaDCur

theorem behind_zero (patch : EomPatch) (point0 : ℤ) : patch.behind point0 0 = point0 := by
  simp [behind]

theorem behind_inj (patch : EomPatch) (point0 : ℤ) {j k : ℕ} :
    patch.behind point0 j = patch.behind point0 k ↔ j = k := by
  unfold behind
  split_ifs <;> omega

end EomPatch

namespace PCCEncoder

/-- One pixel of a patch. The far depth is read with two maps only. -/
def modifyOccupancyMapEOM (params : EomParameters) (occupancy : ℕ) (d depth1 eomCode : ℤ) :
    Option ℕ :=
  if params.mapCountMinus1 = 0 then
    if d < infiniteDepth ∧ occupancy = 1 then
      if params.EOMFixBitCount < 31 then
        let symbol := toInt16 (toInt16 (2 ^ params.EOMFixBitCount - 1) - eomCode)
        some (occupancy + (if symbol < 0 then 0 else symbol).toNat)
      else none
    else some occupancy
  else if d < infiniteDepth ∧ occupancy = 1 ∧ 1 < toSizeT (depth1 - d) then
    let bits := toUInt16 (depth1 - d - 1)
    if bits < 31 then
      let eomExtract := toUInt16 (eomCode % 2 ^ bits)
      let symbol := toUInt16 (2 ^ bits - 1 - eomExtract)
      some (occupancy + symbol)
    else none
  else some occupancy

/-- The sample of a pixel in the picture of the enhanced occupancy map, which has eight bits. -/
def occupancyMapVideoSample (symbol : ℕ) : ℕ :=
  toUInt8 (if symbol > 1023 then 1023 else symbol : ℕ)

end PCCEncoder

namespace PCCCodec

/-- The code of an occupied pixel and the position that `d1pos` starts with. -/
def eomCodeOfPixel (params : EomParameters) (occupancy frame0 frame1 : ℕ) : Option (ℕ × ℕ) :=
  if params.mapCountMinus1 > 0 then
    let diff := if params.absoluteD1 then toInt16 (toInt16 frame1 - toInt16 frame0)
      else toInt16 frame1
    if diff < 0 then none
    else if diff = 0 then some (0, 0)
    else if diff = 1 then some (1, 1)
    else
      let bits := toUInt16 (diff - 1)
      if bits < 31 then
        let symbol := toUInt16 (2 ^ bits - occupancy)
        some (toUInt16 (symbol ||| 2 ^ bits : ℕ), bits)
      else none
  else if params.EOMFixBitCount < 31 then
    some (toUInt16 (2 ^ params.EOMFixBitCount - occupancy), 0)
  else none

/-- A point of the code goes to the regular points as the far point, or to those of the EOM
patch. -/
def addEomPoint (params : EomParameters) (patch : EomPatch) (point0 : ℤ) (eomCode d1pos : ℕ)
    (points : PixelPoints) (i : ℕ) : PixelPoints :=
  if eomCode.testBit i then
    let point1 := patch.behind point0 (i + 1)
    if (eomCode = 1 ∨ i = d1pos) ∧ params.mapCountMinus1 > 0 then
      { points with reconstruct := points.reconstruct ++ [point1] }
    else { points with eomPointsPerPatch := points.eomPointsPerPatch ++ [point1] }
  else points

/-- One pixel of a block of the patch. -/
def generatePointCloudPixel (params : EomParameters) (patch : EomPatch)
    (occupancy frame0 frame1 : ℕ) : Option PixelPoints :=
  if occupancy = 0 then some { reconstruct := [], eomPointsPerPatch := [] }
  else do
    let point0 := patch.generateNormalCoordinate frame0
    let (eomCode, d1pos) ← eomCodeOfPixel params occupancy frame0 frame1
    if eomCode = 0 then
      pure {
        reconstruct := if params.removeDuplicatePoints then [point0] else [point0, point0]
        eomPointsPerPatch := [] }
    else
      let d1pos := (List.range 10).foldl (fun d1pos i => if eomCode.testBit i then i else d1pos) d1pos
      pure ((List.range 10).foldl (addEomPoint params patch point0 eomCode d1pos)
        { reconstruct := [point0], eomPointsPerPatch := [] })

end PCCCodec

/-- The depths that the segmentation recorded at a pixel. -/
structure EomPixel where
  d0 : ℕ
  d1 : ℕ
  eomCode : ℕ

namespace EomPixel

/-- The distances behind the near point at which the pixel has a point. -/
def distances (pixel : EomPixel) (params : EomParameters) : Set ℕ :=
  if params.mapCountMinus1 = 0 then
    {k | k = 0 ∨ ∃ i < params.EOMFixBitCount, pixel.eomCode.testBit i ∧ k = i + 1}
  else
    {k | k = 0 ∨ k = pixel.d1 - pixel.d0 ∨
      ∃ i < pixel.d1 - pixel.d0 - 1, pixel.eomCode.testBit i ∧ k = i + 1}

/-- What the segmentation records: with one map a code of `EOMFixBitCount` bits, which the
parameter set counts with four bits, and with two maps a far depth at most ten behind the near
one. The depths and the code are stored as `int16_t`. -/
def Recorded (pixel : EomPixel) (params : EomParameters) : Prop :=
  (pixel.d0 : ℤ) < infiniteDepth ∧
  if params.mapCountMinus1 = 0 then
    1 ≤ params.EOMFixBitCount ∧ params.EOMFixBitCount ≤ 16 ∧
      pixel.eomCode < 2 ^ params.EOMFixBitCount
  else pixel.d0 ≤ pixel.d1 ∧ pixel.d1 ≤ pixel.d0 + 10 ∧ pixel.d1 ≤ 32767

instance (pixel : EomPixel) (params : EomParameters) : Decidable (pixel.Recorded params) :=
  inferInstanceAs (Decidable ((pixel.d0 : ℤ) < infiniteDepth ∧ ite _ _ _))

end EomPixel

/-- The points stand at the distances behind the near point, each once. -/
def PixelPoints.StandAt (points : PixelPoints) (patch : EomPatch) (near : ℤ)
    (distances : Set ℕ) : Prop :=
  (points.reconstruct ++ points.eomPointsPerPatch).Nodup ∧
  ∀ z, z ∈ points.reconstruct ++ points.eomPointsPerPatch ↔
    ∃ k ∈ distances, z = patch.behind near k

/-- An occupied pixel is coded without loss: it stays occupied and the decoder has the points
that the segmentation recorded. -/
def EomLossless (params : EomParameters) (patch : EomPatch) (pixel : EomPixel) : Prop :=
  ∃ occupancy,
    PCCEncoder.modifyOccupancyMapEOM params 1 pixel.d0 pixel.d1 (toInt16 pixel.eomCode) =
      some occupancy ∧
    PCCEncoder.occupancyMapVideoSample occupancy ≠ 0 ∧
    ∃ points,
      PCCCodec.generatePointCloudPixel params patch
        (PCCEncoder.occupancyMapVideoSample occupancy) pixel.d0
        (if params.absoluteD1 then pixel.d1 else pixel.d1 - pixel.d0) = some points ∧
      points.StandAt patch (patch.generateNormalCoordinate pixel.d0) (pixel.distances params)

end V3C

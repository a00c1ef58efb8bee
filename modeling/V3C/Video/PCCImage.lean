import Mathlib.Tactic.Choose
import Mathlib.Tactic.Ring
import V3C.Common.Integer
import V3C.Packing.FitPatch
import V3C.Store.Rows

/-! Pictures of three planes, and how they are exchanged with the picture buffers of a video
codec. -/
namespace V3C

inductive PCCCOLORFORMAT
  | UNKNOWN
  | RGB444
  | YUV444
  | YUV420
  deriving DecidableEq

/-- A picture of three planes, each of them a list of its rows. -/
structure PCCImage where
  width : ℕ
  height : ℕ
  format : PCCCOLORFORMAT
  channels : Fin 3 → List ℕ

/-- The number that the width and the height of a chroma plane are divided by. -/
def PCCCOLORFORMAT.subsample (format : PCCCOLORFORMAT) : ℕ := if format = YUV420 then 2 else 1

/-- `std::vector::resize` with zero. -/
def resizeVector (n : ℕ) (l : List ℕ) : List ℕ := l.take n ++ List.replicate (n - l.length) 0

/-- A loop over the three channels. -/
def forChannels {α : Type} (f : Fin 3 → Option α) : Option (Fin 3 → α) := do
  let first ← f 0
  let second ← f 1
  let third ← f 2
  some fun
    | 0 => first
    | 1 => second
    | 2 => third

/-- A value of the luma channel and one of the chroma channels. -/
def component {α : Type} (luma chroma : α) (c : Fin 3) : α := if c = 0 then luma else chroma

/-- The planes of a picture buffer: their sizes, and the distances of their rows. -/
structure PictureLayout where
  widthY : ℕ
  heightY : ℕ
  strideY : ℕ
  widthC : ℕ
  heightC : ℕ
  strideC : ℕ

namespace PictureLayout

variable (layout : PictureLayout)

def width : Fin 3 → ℕ := component layout.widthY layout.widthC

def height : Fin 3 → ℕ := component layout.heightY layout.heightC

def stride : Fin 3 → ℕ := component layout.strideY layout.strideC

end PictureLayout

/-- The plane of a picture buffer that a channel is exchanged with. -/
def planeOf (rgb2bgr : Bool) (c : Fin 3) : Fin 3 :=
  if rgb2bgr then
    match c with
    | 0 => 2
    | 1 => 0
    | 2 => 1
  else c

/-- The channel that a plane is exchanged with. -/
def channelOf (rgb2bgr : Bool) (plane : Fin 3) : Fin 3 :=
  if rgb2bgr then
    match plane with
    | 0 => 1
    | 1 => 2
    | 2 => 0
  else plane

/-- The sample of an image for a source sample: the shifted value is converted to the type of the
samples, of `bits` bits, before it is clamped. -/
def importSample (bits shiftbits : ℕ) (src : ℤ) : ℕ :=
  if 0 < shiftbits then
    min (((src + 2 ^ (shiftbits - 1)) / 2 ^ shiftbits) % 2 ^ bits).toNat
      ((2 ^ (10 - shiftbits) - 1) % 2 ^ bits)
  else (src % 2 ^ bits).toNat

/-- The sample of a picture buffer, a `short`, for a sample of an image. -/
def exportSample (shiftbits : ℕ) (src : ℕ) : ℤ :=
  if 0 < shiftbits then toInt16 (toInt16 src * 2 ^ shiftbits) else toInt16 src

namespace PCCImage

/-- The number of samples of a channel, for the number of pixels. -/
def channelSize (size : ℕ) (format : PCCCOLORFORMAT) : Fin 3 → ℕ :=
  component size (if format = .YUV420 then size / 4 else size)

def resize (image : PCCImage) (sizeU0 sizeV0 : ℕ) (format : PCCCOLORFORMAT) : Option PCCImage :=
  if format = .UNKNOWN then none
  else some
    { width := sizeU0
      height := sizeV0
      format
      channels := fun c => resizeVector (channelSize (sizeU0 * sizeV0) format c) (image.channels c) }

def set (bits : ℕ) (image : PCCImage) (layout : PictureLayout) (planes : Fin 3 → List ℤ)
    (shiftbits : ℕ) (format : PCCCOLORFORMAT) (rgb2bgr : Bool) : Option PCCImage := do
  let image ← image.resize layout.widthY layout.heightY format
  let channels ← forChannels fun c =>
    Rows.store (fun pixel => pixel.2 * layout.width c + pixel.1)
      (fun pixel => ((planes (planeOf rgb2bgr c))[pixel.2 * layout.stride c + pixel.1]?).map
        (importSample bits shiftbits))
      (grid (layout.width c) (layout.height c)) (image.channels c)
  some { image with channels }

/-- The rows of the picture buffer below the image are cleared. -/
def get (image : PCCImage) (layout : PictureLayout) (shiftbits : ℕ) (rgb2bgr : Bool)
    (planes : Fin 3 → List ℤ) : Option (Fin 3 → List ℤ) :=
  let chromaSubsample := layout.widthY / layout.widthC
  if layout.widthC = 0 ∨ chromaSubsample = 0 ∨
      (chromaSubsample = 1 ∧ image.format = .YUV420) ∨
      (chromaSubsample = 2 ∧ image.format ≠ .YUV420) then none
  else do
    let widthChroma := image.width / chromaSubsample
    let heightChroma := image.height / chromaSubsample
    let width := component image.width widthChroma
    let heightSrc := component image.height heightChroma
    let written ← forChannels fun c => do
      let rows ← Rows.store (fun pixel => pixel.2 * layout.stride c + pixel.1)
        (fun pixel => ((image.channels c)[pixel.2 * width c + pixel.1]?).map
          (exportSample shiftbits))
        (grid (width c) (heightSrc c)) (planes (planeOf rgb2bgr c))
      Rows.store (fun pixel => (heightSrc c + pixel.2) * layout.stride c + pixel.1)
        (fun _ => some 0) (grid (width c) (layout.height c - heightSrc c)) rows
    some fun plane => written (channelOf rgb2bgr plane)

end PCCImage

theorem forChannels_eq_some {α : Type} {f : Fin 3 → Option α} {g : Fin 3 → α} :
    forChannels f = some g ↔ ∀ c, f c = some (g c) := by
  unfold forChannels
  constructor
  · intro h
    obtain ⟨first, hfirst, h⟩ := Option.bind_eq_some_iff.mp h
    obtain ⟨second, hsecond, h⟩ := Option.bind_eq_some_iff.mp h
    obtain ⟨third, hthird, h⟩ := Option.bind_eq_some_iff.mp h
    obtain rfl := Option.some.inj h
    intro c
    match c with
    | 0 => exact hfirst
    | 1 => exact hsecond
    | 2 => exact hthird
  · intro h
    rw [h 0, h 1, h 2]
    refine congrArg some (funext fun c => ?_)
    match c with
    | 0 => rfl
    | 1 => rfl
    | 2 => rfl

theorem exists_forChannels {α : Type} {f : Fin 3 → Option α} (h : ∀ c, ∃ a, f c = some a) :
    ∃ g, forChannels f = some g := by
  choose g hg using h
  exact ⟨g, forChannels_eq_some.mpr hg⟩

/-- The size of an image and of its planes. -/
structure PCCImage.Sized (image : PCCImage) (width height : ℕ) (format : PCCCOLORFORMAT) :
    Prop where
  width_eq : image.width = width
  height_eq : image.height = height
  format_eq : image.format = format
  length_eq : ∀ c, (image.channels c).length =
    component width (width / format.subsample) c * component height (height / format.subsample) c

theorem length_resizeVector (n : ℕ) (l : List ℕ) : (resizeVector n l).length = n := by
  unfold resizeVector
  rw [List.length_append, List.length_take, List.length_replicate]
  omega

/-- The places of the pixels of a plane are different. -/
theorem place_inj {width height stride : ℕ} (hstride : width ≤ stride) :
    ∀ pixel ∈ grid width height, ∀ pixel' ∈ grid width height,
      pixel.2 * stride + pixel.1 = pixel'.2 * stride + pixel'.1 → pixel = pixel' := by
  intro pixel hpixel pixel' hpixel' h
  have hx := (mem_grid.mp hpixel).1
  have hx' := (mem_grid.mp hpixel').1
  exact pixel_inj (by omega) (by omega) h

theorem subsample_pos (format : PCCCOLORFORMAT) : 0 < format.subsample := by
  unfold PCCCOLORFORMAT.subsample
  split_ifs <;> decide

/-- The layout of an image has the sizes of its channels. -/
theorem channelSize_eq {widthC heightC : ℕ} (format : PCCCOLORFORMAT) (c : Fin 3) :
    PCCImage.channelSize ((format.subsample * widthC) * (format.subsample * heightC)) format c =
      component (format.subsample * widthC) widthC c *
        component (format.subsample * heightC) heightC c := by
  unfold PCCImage.channelSize component PCCCOLORFORMAT.subsample
  split_ifs
  · rfl
  · rfl
  · rw [show 2 * widthC * (2 * heightC) = widthC * heightC * 4 by ring]
    exact Nat.mul_div_cancel _ (by decide)
  · rw [one_mul, one_mul]

end V3C

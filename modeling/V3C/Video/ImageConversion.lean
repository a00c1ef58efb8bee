import V3C.Video.PCCImage

/-! The conversions of an image: of its bit depth, of its chroma format and of its size. -/
namespace V3C

/-- The sample of type `bits` for a sample, when the bit depth changes. -/
def convertSample (bits bitdepthInput bitdepthOutput : ℕ) (msbAlignFlag : Bool) (x : ℕ) : ℕ :=
  if bitdepthOutput ≤ bitdepthInput then
    if msbAlignFlag then x / 2 ^ (bitdepthInput - bitdepthOutput)
    else min x ((2 ^ bitdepthOutput - 1) % 2 ^ bits)
  else if msbAlignFlag then x * 2 ^ (bitdepthOutput - bitdepthInput) % 2 ^ bits
  else x

/-- Every value of a plane is doubled along both axes: `n` values of `m` rows go to rows of
`width` samples. The second row of a pair is a copy of the first. -/
def doublePlane (src : List ℕ) (n m width : ℕ) (dst : List ℕ) : Option (List ℕ) :=
  (List.range m).foldlM (fun dst y2 => do
    let buffer := 2 * y2 * width
    let dst ← Rows.store (fun place : ℕ × ℕ => buffer + 2 * place.2 + place.1)
      (fun place => src[y2 * n + place.2]?) (grid 2 n) dst
    Rows.store (fun x => buffer + width + x) (fun x => dst[buffer + x]?) (List.range width) dst) dst

/-- `std::copy` of all samples. -/
def copyPlane (src dst : List ℕ) : Option (List ℕ) :=
  if src.length ≤ dst.length then some (src ++ dst.drop src.length) else none

def meanOfFour (bits : ℕ) (src : List ℕ) (width x y : ℕ) : Option ℕ := do
  let first ← src[y * width + x]?
  let second ← src[y * width + x + 1]?
  let third ← src[y * width + width + x]?
  let fourth ← src[y * width + width + x + 1]?
  some ((first + second + third + fourth + 2) / 4 % 2 ^ bits)

namespace PCCImage

def empty : PCCImage := { width := 0, height := 0, format := .UNKNOWN, channels := fun _ => [] }

@[simp] theorem channels_empty (c : Fin 3) : empty.channels c = [] := rfl

/-- The place of a pixel in a channel. -/
def valueIndex (image : PCCImage) (channelIndex : Fin 3) (pixel : ℕ × ℕ) : ℕ :=
  if image.format = .YUV420 ∧ channelIndex ≠ 0 then
    pixel.2 / 2 * (image.width / 2) + pixel.1 / 2
  else pixel.2 * image.width + pixel.1

/-- The loops of `convertBitdepth`, over the pixels of the image for each channel. -/
def convertValues (image : PCCImage) (f : ℕ → ℕ) : Option PCCImage := do
  let channels ← forChannels fun cc =>
    Rows.modify (image.valueIndex cc) f (grid image.width image.height) (image.channels cc)
  some { image with channels }

def convertBitdepth (bits : ℕ) (image : PCCImage) (bitdepthInput bitdepthOutput : ℕ)
    (msbAlignFlag : Bool) : Option PCCImage :=
  if bits < bitdepthInput ∨ bits < bitdepthOutput then none
  else if bitdepthOutput ≤ bitdepthInput ∨ msbAlignFlag then
    image.convertValues (convertSample bits bitdepthInput bitdepthOutput msbAlignFlag)
  else some image

def convertYUV444ToYUV420 (bits : ℕ) (src : PCCImage) : Option PCCImage :=
  if src.format ≠ .YUV444 then none
  else do
    let image ← empty.resize src.width src.height .YUV420
    let channels ← forChannels fun c =>
      if c = 0 then copyPlane (src.channels 0) (image.channels 0)
      else
        Rows.store (fun pixel => pixel.2 * (src.width / 2) + pixel.1)
          (fun pixel => meanOfFour bits (src.channels c) src.width (2 * pixel.1) (2 * pixel.2))
          (grid ((src.width + 1) / 2) ((src.height + 1) / 2)) (image.channels c)
    some { image with channels }

def convertYUV420ToYUV444 (src : PCCImage) : Option PCCImage :=
  if src.format ≠ .YUV420 then none
  else do
    let image ← empty.resize src.width src.height .YUV444
    let channels ← forChannels fun c =>
      if c = 0 then copyPlane (src.channels 0) (image.channels 0)
      else doublePlane (src.channels c) (src.width / 2) ((src.height + 1) / 2) src.width
        (image.channels c)
    some { image with channels }

/-- One pass of the loop of `upsample`. -/
def upsampleOnce (image : PCCImage) : Option PCCImage := do
  let up ← empty.resize (image.width * 2) (image.height * 2) image.format
  let channels ← forChannels fun c =>
    let width :=
      if image.format ≠ .YUV420 ∨ c = 0 then image.width * 2 else image.width * 2 / 2
    let height :=
      if image.format ≠ .YUV420 ∨ c = 0 then image.height * 2 else image.height * 2 / 2
    doublePlane (image.channels c) ((width + 1) / 2) ((height + 1) / 2) width (up.channels c)
  some { up with channels }

def upsampleLoop : ℕ → ℕ → PCCImage → Option PCCImage
  | 0, _, _ => none
  | fuel + 1, i, image =>
    if 1 < i then do
      let up ← image.upsampleOnce
      upsampleLoop fuel (i / 2) up
    else some image

/-- The rate is a `size_t`. -/
def upsample (image : PCCImage) (rate : ℕ) : Option PCCImage := upsampleLoop 65 rate image

end PCCImage

end V3C

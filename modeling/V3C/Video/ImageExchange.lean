import V3C.Video.PCCImage

/-! When an image survives its way through a picture buffer. -/
namespace V3C

section Samples

variable {bits shiftbits : ℕ}

/-- The shifted value before it is converted. -/
theorem importSample_of_pos (hlow : 0 < shiftbits) (x : ℕ) :
    importSample bits shiftbits x = min ((x + 2 ^ (shiftbits - 1)) / 2 ^ shiftbits % 2 ^ bits)
      ((2 ^ (10 - shiftbits) - 1) % 2 ^ bits) := by
  have hcast : ((x : ℤ) + 2 ^ (shiftbits - 1)) / 2 ^ shiftbits % 2 ^ bits =
      (((x + 2 ^ (shiftbits - 1)) / 2 ^ shiftbits % 2 ^ bits : ℕ) : ℤ) := by
    push_cast
    rfl
  unfold importSample
  rw [if_pos hlow, hcast, Int.toNat_natCast]

theorem pow_shift (hlow : 0 < shiftbits) : 2 ^ shiftbits = 2 * 2 ^ (shiftbits - 1) := by
  rw [← Nat.pow_succ', Nat.succ_eq_add_one, Nat.sub_add_cancel hlow]

theorem pow_mul_pow (hhigh : shiftbits ≤ 8) : 2 ^ shiftbits * 2 ^ (10 - shiftbits) = 1024 := by
  rw [← Nat.pow_add, show shiftbits + (10 - shiftbits) = 10 by omega]

/-- A sample that the internal bit depth holds is restored. -/
theorem importSample_exportSample (hshift : 1 ≤ shiftbits ∧ shiftbits ≤ 8)
    (hholds : 10 - shiftbits ≤ bits) {x : ℕ} (hx : x < 2 ^ (10 - shiftbits)) :
    importSample bits shiftbits (exportSample shiftbits x) = x := by
  have hproduct := pow_mul_pow hshift.2
  have hbits : 2 ^ (10 - shiftbits) ≤ 2 ^ bits := Nat.pow_le_pow_right (by decide) hholds
  have hpos : 0 < 2 ^ (shiftbits - 1) := by positivity
  have hdouble := pow_shift hshift.1
  have hle : x * 2 ^ shiftbits ≤ 1024 := by
    rw [← hproduct, Nat.mul_comm]
    exact Nat.mul_le_mul_left _ hx.le
  have hsmall : x ≤ x * 2 ^ shiftbits := Nat.le_mul_of_pos_right x (by omega)
  have hexport : exportSample shiftbits x = ((x * 2 ^ shiftbits : ℕ) : ℤ) := by
    unfold exportSample
    rw [if_pos (show 0 < shiftbits by omega), toInt16_of_lt (n := x) (by omega) (by omega)]
    have hcast : (x : ℤ) * 2 ^ shiftbits = ((x * 2 ^ shiftbits : ℕ) : ℤ) := by
      push_cast
      rfl
    rw [hcast, toInt16_of_lt (by omega) (by omega)]
  rw [hexport, importSample_of_pos hshift.1, Nat.mul_comm x, Nat.add_comm,
    Nat.add_mul_div_left _ _ (by omega), Nat.div_eq_of_lt (by omega), zero_add,
    Nat.mod_eq_of_lt (by omega), Nat.mod_eq_of_lt (by omega)]
  exact min_eq_left (by omega)

/-- A 10-bit source sample saturates, unless it rounds up to more than a byte holds. -/
theorem importSample_eq (hbits : bits = 8 ∨ bits = 16)
    (hshift : 1 ≤ shiftbits ∧ shiftbits ≤ 8) (hholds : 10 - shiftbits ≤ bits)
    (hwraps : ¬(bits = 8 ∧ shiftbits = 2)) {x : ℕ} (hx : x < 1024) :
    importSample bits shiftbits x =
      min ((x + 2 ^ (shiftbits - 1)) / 2 ^ shiftbits) (2 ^ (10 - shiftbits) - 1) := by
  have hproduct := pow_mul_pow hshift.2
  have hdouble := pow_shift hshift.1
  have hbelow : 2 ^ (10 - shiftbits) < 2 ^ bits := Nat.pow_lt_pow_right (by decide) (by omega)
  have hquotient : (x + 2 ^ (shiftbits - 1)) / 2 ^ shiftbits < 2 ^ (10 - shiftbits) + 1 := by
    apply Nat.div_lt_of_lt_mul
    rw [Nat.mul_add, hproduct]
    omega
  have hpos : 0 < 2 ^ (10 - shiftbits) := by positivity
  rw [importSample_of_pos hshift.1, Nat.mod_eq_of_lt (by omega), Nat.mod_eq_of_lt (by omega)]

end Samples

theorem channelOf_planeOf (rgb2bgr : Bool) (c : Fin 3) :
    channelOf rgb2bgr (planeOf rgb2bgr c) = c := by
  revert c
  cases rgb2bgr <;> decide

/-- An image and a picture buffer that is as least as large, both of one chroma format. The rows of
each plane of the buffer are in its memory. -/
structure ImageExchange where
  bits : ℕ
  bits_mem : bits = 8 ∨ bits = 16
  shiftbits : ℕ
  shiftbits_mem : 1 ≤ shiftbits ∧ shiftbits ≤ 8
  holds : 10 - shiftbits ≤ bits
  format : PCCCOLORFORMAT
  format_ne : format ≠ .UNKNOWN
  width : ℕ
  height : ℕ
  width_pos : 0 < width
  height_pos : 0 < height
  width_dvd : format.subsample ∣ width
  height_dvd : format.subsample ∣ height
  layout : PictureLayout
  width_le : width ≤ layout.widthY
  height_le : height ≤ layout.heightY
  widthY_eq : layout.widthY = format.subsample * layout.widthC
  heightY_eq : layout.heightY = format.subsample * layout.heightC
  strideY_le : layout.widthY ≤ layout.strideY
  strideC_le : layout.widthC ≤ layout.strideC
  rgb2bgr : Bool
  memory : Fin 3 → ℕ
  rows_lt : ∀ plane, ∀ pixel ∈ grid (layout.width plane) (layout.height plane),
    pixel.2 * layout.stride plane + pixel.1 < memory plane

namespace ImageExchange

variable (e : ImageExchange)

def imageLayout : PictureLayout :=
  { e.layout with
    widthY := e.width
    heightY := e.height
    widthC := e.width / e.format.subsample
    heightC := e.height / e.format.subsample }

/-- A sample of a plane that is in one of its rows. -/
def InRows (plane : Fin 3) (i : ℕ) : Prop :=
  ∃ pixel ∈ grid (e.layout.width plane) (e.layout.height plane),
    pixel.2 * e.layout.stride plane + pixel.1 = i

/-- A picture buffer of the memory. -/
def Fits (planes : Fin 3 → List ℤ) : Prop := ∀ plane, (planes plane).length = e.memory plane

/-- Images are restored, source samples saturate, and the rows of the planes only are written and
read. -/
structure Sound : Prop where
  restores : ∀ image : PCCImage, image.Sized e.width e.height e.format →
    (∀ c, ∀ x ∈ image.channels c, x < 2 ^ (10 - e.shiftbits)) → ∀ planes, e.Fits planes →
    ∃ planes', image.get e.layout e.shiftbits e.rgb2bgr planes = some planes' ∧
      ∀ target : PCCImage,
        target.set e.bits e.imageLayout planes' e.shiftbits e.format e.rgb2bgr = some image
  saturates : ∀ planes, e.Fits planes →
    (∀ plane i, e.InRows plane i → ∃ x : ℕ, (planes plane)[i]? = some (x : ℤ) ∧ x < 1024) →
    ∀ target : PCCImage, ∃ image,
      target.set e.bits e.layout planes e.shiftbits e.format e.rgb2bgr = some image ∧
      image.Sized e.layout.widthY e.layout.heightY e.format ∧
      ∀ c, ∀ pixel ∈ grid (e.layout.width c) (e.layout.height c), ∃ x : ℕ,
        (planes (planeOf e.rgb2bgr c))[pixel.2 * e.layout.stride (planeOf e.rgb2bgr c) +
          pixel.1]? = some (x : ℤ) ∧
        (image.channels c)[pixel.2 * e.layout.width c + pixel.1]? =
          some (min ((x + 2 ^ (e.shiftbits - 1)) / 2 ^ e.shiftbits) (2 ^ (10 - e.shiftbits) - 1))
  writes : ∀ image : PCCImage, image.Sized e.width e.height e.format → ∀ planes, e.Fits planes →
    ∃ planes', image.get e.layout e.shiftbits e.rgb2bgr planes = some planes' ∧
      e.Fits planes' ∧ ∀ plane i, ¬e.InRows plane i → (planes' plane)[i]? = (planes plane)[i]?
  reads : ∀ planes planes', e.Fits planes → e.Fits planes' →
    (∀ plane i, e.InRows plane i → (planes plane)[i]? = (planes' plane)[i]?) →
    ∀ target : PCCImage, target.set e.bits e.layout planes e.shiftbits e.format e.rgb2bgr =
      target.set e.bits e.layout planes' e.shiftbits e.format e.rgb2bgr

/-- The channels are exchanged with planes of their own sizes and strides. -/
def Aligned : Prop := ∀ c, ∀ pixel ∈ grid (e.layout.width c) (e.layout.height c),
  pixel ∈ grid (e.layout.width (planeOf e.rgb2bgr c)) (e.layout.height (planeOf e.rgb2bgr c)) ∧
    pixel.2 * e.layout.stride c = pixel.2 * e.layout.stride (planeOf e.rgb2bgr c)

end ImageExchange

section Set

variable {bits shiftbits : ℕ} {image image' : PCCImage} {layout : PictureLayout}
  {planes : Fin 3 → List ℤ} {format : PCCCOLORFORMAT} {rgb2bgr : Bool}

theorem stored_of_set
    (h : image.set bits layout planes shiftbits format rgb2bgr = some image') :
    image'.width = layout.widthY ∧ image'.height = layout.heightY ∧ image'.format = format ∧
      ∀ c, Rows.Stored (fun pixel => pixel.2 * layout.width c + pixel.1)
        (fun pixel => ((planes (planeOf rgb2bgr c))[pixel.2 * layout.stride c + pixel.1]?).map
          (importSample bits shiftbits))
        (grid (layout.width c) (layout.height c))
        (resizeVector (PCCImage.channelSize (layout.widthY * layout.heightY) format c)
          (image.channels c)) (image'.channels c) := by
  unfold PCCImage.set at h
  obtain ⟨resized, hresized, h⟩ := Option.bind_eq_some_iff.mp h
  obtain ⟨channels, hchannels, h⟩ := Option.bind_eq_some_iff.mp h
  obtain rfl := Option.some.inj h
  unfold PCCImage.resize at hresized
  split_ifs at hresized
  obtain rfl := Option.some.inj hresized
  rw [forChannels_eq_some] at hchannels
  refine ⟨rfl, rfl, rfl, ?_⟩
  intro c
  apply Rows.stored_of_store (hchannels c)
  intro pixel hpixel pixel' hpixel' heq
  rw [place_inj (le_refl _) pixel hpixel pixel' hpixel' heq]

theorem exists_set (hformat : format ≠ .UNKNOWN)
    (hwidth : layout.widthY = format.subsample * layout.widthC)
    (hheight : layout.heightY = format.subsample * layout.heightC)
    (hplanes : ∀ c, ∀ pixel ∈ grid (layout.width c) (layout.height c),
      pixel.2 * layout.stride c + pixel.1 < (planes (planeOf rgb2bgr c)).length) :
    ∃ image', image.set bits layout planes shiftbits format rgb2bgr = some image' ∧
      image'.Sized layout.widthY layout.heightY format := by
  have hsize : ∀ c, PCCImage.channelSize (layout.widthY * layout.heightY) format c =
      layout.width c * layout.height c := by
    intro c
    unfold PictureLayout.width PictureLayout.height
    rw [hwidth, hheight]
    exact channelSize_eq format c
  obtain ⟨channels, hchannels⟩ : ∃ channels, forChannels (fun c =>
      Rows.store (fun pixel => pixel.2 * layout.width c + pixel.1)
        (fun pixel => ((planes (planeOf rgb2bgr c))[pixel.2 * layout.stride c + pixel.1]?).map
          (importSample bits shiftbits))
        (grid (layout.width c) (layout.height c))
        (resizeVector (PCCImage.channelSize (layout.widthY * layout.heightY) format c)
          (image.channels c))) = some channels := by
    apply exists_forChannels
    intro c
    apply Rows.exists_store
    · intro pixel hpixel
      rw [List.getElem?_eq_getElem (hplanes c pixel hpixel)]
      exact ⟨_, rfl⟩
    · intro pixel hpixel
      have hmem := mem_grid.mp hpixel
      rw [length_resizeVector, hsize]
      exact pixel_lt hmem.1 hmem.2
  have hset : image.set bits layout planes shiftbits format rgb2bgr =
      some ⟨layout.widthY, layout.heightY, format, channels⟩ := by
    unfold PCCImage.set PCCImage.resize
    rw [if_neg hformat, Option.bind_eq_bind, Option.bind_some]
    dsimp only
    rw [hchannels]
    rfl
  obtain ⟨hw, hh, hf, hstored⟩ := stored_of_set hset
  refine ⟨_, hset, rfl, rfl, rfl, ?_⟩
  intro c
  have hpos : 0 < format.subsample := by
    unfold PCCCOLORFORMAT.subsample
    split_ifs <;> decide
  rw [(hstored c).length_eq, length_resizeVector, hsize, hwidth, hheight,
    Nat.mul_div_cancel_left _ hpos, Nat.mul_div_cancel_left _ hpos, ← hwidth, ← hheight]
  rfl

end Set

namespace ImageExchange

variable {e : ImageExchange}

theorem layout_width_le_stride (e : ImageExchange) (c : Fin 3) :
    e.layout.width c ≤ e.layout.stride c := by
  unfold PictureLayout.width PictureLayout.stride component
  split_ifs
  · exact e.strideY_le
  · exact e.strideC_le

theorem Aligned.inRows (h : e.Aligned) {c : Fin 3} {pixel : ℕ × ℕ}
    (hpixel : pixel ∈ grid (e.layout.width c) (e.layout.height c)) :
    e.InRows (planeOf e.rgb2bgr c) (pixel.2 * e.layout.stride c + pixel.1) := by
  obtain ⟨hmem, hstride⟩ := h c pixel hpixel
  exact ⟨pixel, hmem, by rw [hstride]⟩

theorem InRows.lt {plane : Fin 3} {i : ℕ} (h : e.InRows plane i) : i < e.memory plane := by
  obtain ⟨pixel, hpixel, rfl⟩ := h
  exact e.rows_lt plane pixel hpixel

theorem Aligned.saturates (h : e.Aligned) (hwraps : ¬(e.bits = 8 ∧ e.shiftbits = 2))
    {planes : Fin 3 → List ℤ} (hfits : e.Fits planes)
    (hsamples : ∀ plane i, e.InRows plane i →
      ∃ x : ℕ, (planes plane)[i]? = some (x : ℤ) ∧ x < 1024) (target : PCCImage) :
    ∃ image, target.set e.bits e.layout planes e.shiftbits e.format e.rgb2bgr = some image ∧
      image.Sized e.layout.widthY e.layout.heightY e.format ∧
      ∀ c, ∀ pixel ∈ grid (e.layout.width c) (e.layout.height c), ∃ x : ℕ,
        (planes (planeOf e.rgb2bgr c))[pixel.2 * e.layout.stride (planeOf e.rgb2bgr c) +
          pixel.1]? = some (x : ℤ) ∧
        (image.channels c)[pixel.2 * e.layout.width c + pixel.1]? =
          some (min ((x + 2 ^ (e.shiftbits - 1)) / 2 ^ e.shiftbits)
            (2 ^ (10 - e.shiftbits) - 1)) := by
  obtain ⟨image, hset, hsized⟩ := @exists_set e.bits e.shiftbits target e.layout planes e.format
    e.rgb2bgr e.format_ne e.widthY_eq e.heightY_eq
    (fun c pixel hpixel => (h.inRows hpixel).lt.trans_eq (hfits _).symm)
  refine ⟨image, hset, hsized, ?_⟩
  intro c pixel hpixel
  obtain ⟨-, -, -, hstored⟩ := stored_of_set hset
  obtain ⟨x, hx, hlt⟩ := hsamples _ _ (h.inRows hpixel)
  refine ⟨x, ?_, ?_⟩
  · rw [← (h c pixel hpixel).2]
    exact hx
  · rw [(hstored c).at_place pixel hpixel, hx, Option.map_some,
      importSample_eq e.bits_mem e.shiftbits_mem e.holds hwraps hlt]

/-- The rows of the planes decide what is imported. -/
theorem Aligned.reads (h : e.Aligned) {planes planes' : Fin 3 → List ℤ}
    (hagree : ∀ plane i, e.InRows plane i → (planes plane)[i]? = (planes' plane)[i]?)
    (target : PCCImage) :
    target.set e.bits e.layout planes e.shiftbits e.format e.rgb2bgr =
      target.set e.bits e.layout planes' e.shiftbits e.format e.rgb2bgr := by
  unfold PCCImage.set
  apply Option.bind_congr
  intro resized _
  congr 1
  refine congrArg forChannels (funext fun c => ?_)
  apply Rows.store_congr
  intro pixel hpixel
  rw [hagree _ _ (h.inRows hpixel)]

/-- The size of a channel of the image. -/
def imageWidth (e : ImageExchange) : Fin 3 → ℕ :=
  component e.width (e.width / e.format.subsample)

def imageHeight (e : ImageExchange) : Fin 3 → ℕ :=
  component e.height (e.height / e.format.subsample)

theorem imageWidth_le (e : ImageExchange) (c : Fin 3) : e.imageWidth c ≤ e.layout.width c := by
  have hwidth := e.width_le
  unfold imageWidth PictureLayout.width component
  split_ifs
  · exact hwidth
  · rw [e.widthY_eq] at hwidth
    exact Nat.div_le_of_le_mul hwidth

theorem imageHeight_le (e : ImageExchange) (c : Fin 3) : e.imageHeight c ≤ e.layout.height c := by
  have hheight := e.height_le
  unfold imageHeight PictureLayout.height component
  split_ifs
  · exact hheight
  · rw [e.heightY_eq] at hheight
    exact Nat.div_le_of_le_mul hheight

theorem widthC_pos (e : ImageExchange) : 0 < e.layout.widthC := by
  have hwidth := e.width_le
  have hpos := e.width_pos
  rw [e.widthY_eq] at hwidth
  exact Nat.pos_of_mul_pos_left (by omega : 0 < e.format.subsample * e.layout.widthC)

def exportChannel (e : ImageExchange) (image : PCCImage) (planes : Fin 3 → List ℤ) (c : Fin 3) :
    Option (List ℤ) := do
  let rows ← Rows.store (fun pixel => pixel.2 * e.layout.stride c + pixel.1)
    (fun pixel => ((image.channels c)[pixel.2 * e.imageWidth c + pixel.1]?).map
      (exportSample e.shiftbits))
    (grid (e.imageWidth c) (e.imageHeight c)) (planes (planeOf e.rgb2bgr c))
  Rows.store (fun pixel => (e.imageHeight c + pixel.2) * e.layout.stride c + pixel.1)
    (fun _ => some 0) (grid (e.imageWidth c) (e.layout.height c - e.imageHeight c)) rows

theorem get_eq {image : PCCImage} (hsized : image.Sized e.width e.height e.format)
    (planes : Fin 3 → List ℤ) :
    image.get e.layout e.shiftbits e.rgb2bgr planes =
      (forChannels (e.exportChannel image planes)).map fun written plane =>
        written (channelOf e.rgb2bgr plane) := by
  have hsubsample : e.layout.widthY / e.layout.widthC = e.format.subsample := by
    rw [e.widthY_eq]
    exact Nat.mul_div_cancel _ e.widthC_pos
  have hcheck : ¬(e.layout.widthC = 0 ∨ e.format.subsample = 0 ∨
      (e.format.subsample = 1 ∧ e.format = .YUV420) ∨
      (e.format.subsample = 2 ∧ e.format ≠ .YUV420)) := by
    have hpos := e.widthC_pos
    unfold PCCCOLORFORMAT.subsample
    split_ifs with hformat
    · simp [hformat]
      omega
    · simp [hformat]
      omega
  unfold PCCImage.get
  rw [hsubsample, hsized.format_eq, if_neg hcheck, hsized.width_eq, hsized.height_eq]
  dsimp only
  unfold exportChannel imageWidth imageHeight
  rw [Option.bind_eq_bind]
  cases forChannels _ <;> rfl

/-- What the export of a channel leaves in its plane. -/
structure Exported (e : ImageExchange) (image : PCCImage) (planes : Fin 3 → List ℤ) (c : Fin 3)
    (out : List ℤ) : Prop where
  length_eq : out.length = (planes (planeOf e.rgb2bgr c)).length
  sample : ∀ pixel ∈ grid (e.imageWidth c) (e.imageHeight c),
    out[pixel.2 * e.layout.stride c + pixel.1]? =
      ((image.channels c)[pixel.2 * e.imageWidth c + pixel.1]?).map (exportSample e.shiftbits)
  cleared : ∀ pixel ∈ grid (e.imageWidth c) (e.layout.height c), e.imageHeight c ≤ pixel.2 →
    out[pixel.2 * e.layout.stride c + pixel.1]? = some 0
  elsewhere : ∀ i, (∀ pixel ∈ grid (e.imageWidth c) (e.layout.height c),
    pixel.2 * e.layout.stride c + pixel.1 ≠ i) → out[i]? = (planes (planeOf e.rgb2bgr c))[i]?

theorem exported_of_eq_some {image : PCCImage} {planes : Fin 3 → List ℤ} {c : Fin 3}
    {out : List ℤ} (h : e.exportChannel image planes c = some out) :
    e.Exported image planes c out := by
  have hstride : e.imageWidth c ≤ e.layout.stride c :=
    (e.imageWidth_le c).trans (e.layout_width_le_stride c)
  unfold exportChannel at h
  obtain ⟨rows, hrows, hclear⟩ := Option.bind_eq_some_iff.mp h
  have hstored := Rows.stored_of_store hrows fun pixel hpixel pixel' hpixel' heq => by
    rw [place_inj hstride pixel hpixel pixel' hpixel' heq]
  have hcleared := Rows.stored_of_store hclear fun _ _ _ _ _ => rfl
  have hbelow : ∀ pixel ∈ grid (e.imageWidth c) (e.layout.height c),
      e.imageHeight c ≤ pixel.2 →
      (pixel.1, pixel.2 - e.imageHeight c) ∈
        grid (e.imageWidth c) (e.layout.height c - e.imageHeight c) ∧
      e.imageHeight c + (pixel.2 - e.imageHeight c) = pixel.2 := by
    intro pixel hpixel hle
    have hmem := mem_grid.mp hpixel
    exact ⟨mem_grid.mpr ⟨hmem.1, by omega⟩, by omega⟩
  refine ⟨hcleared.length_eq.trans hstored.length_eq, ?_, ?_, ?_⟩
  · intro pixel hpixel
    have hmem := mem_grid.mp hpixel
    rw [hcleared.elsewhere, hstored.at_place pixel hpixel]
    intro pixel' hpixel' heq
    have hmem' := mem_grid.mp hpixel'
    have hsame := pixel_inj (by omega) (by omega) heq
    have hrow := congrArg Prod.snd hsame
    dsimp only at hrow
    omega
  · intro pixel hpixel hle
    obtain ⟨hmem, hrow⟩ := hbelow pixel hpixel hle
    have hat := hcleared.at_place _ hmem
    dsimp only at hat
    rw [hrow] at hat
    exact hat
  · intro i hi
    rw [hcleared.elsewhere, hstored.elsewhere]
    · intro pixel hpixel
      have hmem := mem_grid.mp hpixel
      have hheight := e.imageHeight_le c
      exact hi pixel (mem_grid.mpr ⟨hmem.1, by omega⟩)
    · intro pixel hpixel
      have hmem := mem_grid.mp hpixel
      exact hi (pixel.1, e.imageHeight c + pixel.2) (mem_grid.mpr ⟨hmem.1, by omega⟩)

theorem exists_exportChannel {image : PCCImage} (hsized : image.Sized e.width e.height e.format)
    {planes : Fin 3 → List ℤ} {c : Fin 3}
    (hplaces : ∀ pixel ∈ grid (e.imageWidth c) (e.layout.height c),
      pixel.2 * e.layout.stride c + pixel.1 < (planes (planeOf e.rgb2bgr c)).length) :
    ∃ out, e.exportChannel image planes c = some out := by
  have hheight := e.imageHeight_le c
  have hstride : e.imageWidth c ≤ e.layout.stride c :=
    (e.imageWidth_le c).trans (e.layout_width_le_stride c)
  obtain ⟨rows, hrows⟩ := @Rows.exists_store _ _
    (fun pixel => pixel.2 * e.layout.stride c + pixel.1)
    (fun pixel => ((image.channels c)[pixel.2 * e.imageWidth c + pixel.1]?).map
      (exportSample e.shiftbits)) (grid (e.imageWidth c) (e.imageHeight c))
    (planes (planeOf e.rgb2bgr c))
    (by
      intro pixel hpixel
      have hmem := mem_grid.mp hpixel
      have hlt : pixel.2 * e.imageWidth c + pixel.1 < (image.channels c).length := by
        rw [hsized.length_eq c]
        exact pixel_lt hmem.1 hmem.2
      rw [List.getElem?_eq_getElem hlt]
      exact ⟨_, rfl⟩)
    (by
      intro pixel hpixel
      have hmem := mem_grid.mp hpixel
      exact hplaces pixel (mem_grid.mpr ⟨hmem.1, by omega⟩))
  have hlength := (Rows.stored_of_store hrows fun pixel hpixel pixel' hpixel' heq => by
    rw [place_inj hstride pixel hpixel pixel' hpixel' heq]).length_eq
  unfold exportChannel
  rw [hrows, Option.bind_eq_bind, Option.bind_some]
  apply Rows.exists_store
  · exact fun _ _ => ⟨0, rfl⟩
  · intro pixel hpixel
    have hmem := mem_grid.mp hpixel
    rw [hlength]
    exact hplaces (pixel.1, e.imageHeight c + pixel.2) (mem_grid.mpr ⟨hmem.1, by omega⟩)

/-- The export returns, and writes the planes as its channels do. -/
theorem exists_get {image : PCCImage} (hsized : image.Sized e.width e.height e.format)
    {planes : Fin 3 → List ℤ}
    (hplaces : ∀ c, ∀ pixel ∈ grid (e.imageWidth c) (e.layout.height c),
      pixel.2 * e.layout.stride c + pixel.1 < (planes (planeOf e.rgb2bgr c)).length) :
    ∃ planes', image.get e.layout e.shiftbits e.rgb2bgr planes = some planes' := by
  obtain ⟨written, hwritten⟩ := exists_forChannels fun c =>
    exists_exportChannel hsized (hplaces c)
  rw [get_eq hsized, hwritten]
  exact ⟨_, rfl⟩

theorem exported_of_get {image : PCCImage} (hsized : image.Sized e.width e.height e.format)
    {planes planes' : Fin 3 → List ℤ}
    (h : image.get e.layout e.shiftbits e.rgb2bgr planes = some planes') (c : Fin 3) :
    e.Exported image planes c (planes' (planeOf e.rgb2bgr c)) := by
  rw [get_eq hsized] at h
  obtain ⟨written, hwritten, rfl⟩ := Option.map_eq_some_iff.mp h
  dsimp only
  rw [channelOf_planeOf]
  exact exported_of_eq_some (forChannels_eq_some.mp hwritten c)

/-- A pixel of the image is one of the buffer. -/
theorem mem_grid_layout {c : Fin 3} {pixel : ℕ × ℕ}
    (h : pixel ∈ grid (e.imageWidth c) (e.layout.height c)) :
    pixel ∈ grid (e.layout.width c) (e.layout.height c) := by
  have hmem := mem_grid.mp h
  have hwidth := e.imageWidth_le c
  exact mem_grid.mpr ⟨by omega, hmem.2⟩

theorem planeOf_channelOf (rgb2bgr : Bool) (plane : Fin 3) :
    planeOf rgb2bgr (channelOf rgb2bgr plane) = plane := by
  revert plane
  cases rgb2bgr <;> decide

theorem Aligned.writes (h : e.Aligned) {image : PCCImage}
    (hsized : image.Sized e.width e.height e.format) {planes : Fin 3 → List ℤ}
    (hfits : e.Fits planes) :
    ∃ planes', image.get e.layout e.shiftbits e.rgb2bgr planes = some planes' ∧
      e.Fits planes' ∧
      ∀ plane i, ¬e.InRows plane i → (planes' plane)[i]? = (planes plane)[i]? := by
  obtain ⟨planes', hget⟩ := @exists_get e image hsized planes fun c pixel hpixel =>
    (h.inRows (mem_grid_layout hpixel)).lt.trans_eq (hfits _).symm
  refine ⟨planes', hget, ?_, ?_⟩
  · intro plane
    have hexported := exported_of_get hsized hget (channelOf e.rgb2bgr plane)
    rw [planeOf_channelOf] at hexported
    rw [hexported.length_eq, planeOf_channelOf]
    exact hfits plane
  · intro plane i hi
    have hexported := exported_of_get hsized hget (channelOf e.rgb2bgr plane)
    have helsewhere := hexported.elsewhere i
    rw [planeOf_channelOf] at helsewhere
    apply helsewhere
    rintro pixel hpixel rfl
    apply hi
    have hin := h.inRows (mem_grid_layout hpixel)
    rw [planeOf_channelOf] at hin
    exact hin

theorem imageLayout_stride (e : ImageExchange) : e.imageLayout.stride = e.layout.stride := rfl

theorem Aligned.restores (h : e.Aligned) {image : PCCImage}
    (hsized : image.Sized e.width e.height e.format)
    (hsamples : ∀ c, ∀ x ∈ image.channels c, x < 2 ^ (10 - e.shiftbits))
    {planes : Fin 3 → List ℤ} (hfits : e.Fits planes) :
    ∃ planes', image.get e.layout e.shiftbits e.rgb2bgr planes = some planes' ∧
      ∀ target : PCCImage,
        target.set e.bits e.imageLayout planes' e.shiftbits e.format e.rgb2bgr = some image := by
  obtain ⟨planes', hget, hfits', -⟩ := h.writes hsized hfits
  refine ⟨planes', hget, ?_⟩
  intro target
  have hinImage : ∀ c, ∀ pixel ∈ grid (e.imageLayout.width c) (e.imageLayout.height c),
      pixel ∈ grid (e.imageWidth c) (e.layout.height c) := by
    intro c pixel hpixel
    have hmem := mem_grid.mp hpixel
    have hheight := e.imageHeight_le c
    exact mem_grid.mpr ⟨hmem.1, hmem.2.trans_le hheight⟩
  obtain ⟨image', hset, hsized'⟩ := @exists_set e.bits e.shiftbits target e.imageLayout planes'
    e.format e.rgb2bgr e.format_ne (Nat.mul_div_cancel' e.width_dvd).symm (Nat.mul_div_cancel' e.height_dvd).symm
    (fun c pixel hpixel =>
      (h.inRows (mem_grid_layout (hinImage c pixel hpixel))).lt.trans_eq (hfits' _).symm)
  obtain ⟨hwidth, hheight, hformat, hstored⟩ := stored_of_set hset
  have hchannels : image'.channels = image.channels := by
    funext c
    apply List.ext_getElem?
    intro i
    by_cases hi : i < e.imageWidth c * e.imageHeight c
    · have hpos : 0 < e.imageWidth c := by
        apply Nat.pos_of_ne_zero
        intro hzero
        rw [hzero, Nat.zero_mul] at hi
        exact Nat.not_lt_zero i hi
      have hpixel : (i % e.imageWidth c, i / e.imageWidth c) ∈
          grid (e.imageWidth c) (e.imageHeight c) :=
        mem_grid.mpr ⟨Nat.mod_lt i hpos, Nat.div_lt_of_lt_mul hi⟩
      have hplace : i / e.imageWidth c * e.imageWidth c + i % e.imageWidth c = i :=
        Nat.div_add_mod' i _
      have hat := (hstored c).at_place _ hpixel
      have hsample := (exported_of_get hsized hget c).sample _ hpixel
      have hlt : i < (image.channels c).length := by
        rw [hsized.length_eq c]
        exact hi
      dsimp only at hat hsample
      rw [hplace, List.getElem?_eq_getElem hlt] at hsample
      rw [imageLayout_stride, hsample, Option.map_some, Option.map_some,
        importSample_exportSample e.shiftbits_mem e.holds
          (hsamples c _ (List.getElem_mem hlt))] at hat
      rw [List.getElem?_eq_getElem hlt, ← hat]
      exact congrArg (fun n => (image'.channels c)[n]?) hplace.symm
    · have hlength := hsized.length_eq c
      have hlength' := hsized'.length_eq c
      rw [List.getElem?_eq_none, List.getElem?_eq_none]
      · rw [hlength]
        exact not_lt.mp hi
      · rw [hlength']
        exact not_lt.mp hi
  have heq : image' = image := by
    obtain ⟨hw, hh, hf, -⟩ := hsized
    cases image
    cases image'
    congr 1
    · exact hwidth.trans hw.symm
    · exact hheight.trans hh.symm
    · exact hformat.trans hf.symm
  rw [hset, heq]

/-- The channel order swaps no planes, or planes of one size with rows at the same distance. -/
def KeepsPlanes (e : ImageExchange) : Prop :=
  e.rgb2bgr = false ∨
    e.format ≠ .YUV420 ∧ (e.layout.strideY = e.layout.strideC ∨ e.layout.heightY = 1)

theorem subsample_of_ne {format : PCCCOLORFORMAT} (h : format ≠ .YUV420) :
    format.subsample = 1 := if_neg h

theorem KeepsPlanes.aligned (h : e.KeepsPlanes) : e.Aligned := by
  intro c pixel hpixel
  rcases h with hkeep | ⟨hformat, hstride⟩
  · unfold planeOf
    rw [hkeep]
    exact ⟨hpixel, rfl⟩
  · have hwidth : ∀ c, e.layout.width c = e.layout.widthC := by
      intro c
      unfold PictureLayout.width component
      rw [e.widthY_eq, subsample_of_ne hformat, one_mul, ite_self]
    have hheight : ∀ c, e.layout.height c = e.layout.heightC := by
      intro c
      unfold PictureLayout.height component
      rw [e.heightY_eq, subsample_of_ne hformat, one_mul, ite_self]
    rw [hwidth, hheight] at hpixel ⊢
    refine ⟨hpixel, ?_⟩
    rcases hstride with heq | hone
    · have hstride : ∀ c, e.layout.stride c = e.layout.strideC := by
        intro c
        unfold PictureLayout.stride component
        rw [heq, ite_self]
      rw [hstride, hstride]
    · have hmem := mem_grid.mp hpixel
      rw [e.heightY_eq, subsample_of_ne hformat, one_mul] at hone
      rw [show pixel.2 = 0 by omega, Nat.zero_mul, Nat.zero_mul]

/-- An image of zeros. -/
def blank (e : ImageExchange) : PCCImage where
  width := e.width
  height := e.height
  format := e.format
  channels := fun c => List.replicate (e.imageWidth c * e.imageHeight c) 0

theorem blank_sized (e : ImageExchange) : e.blank.Sized e.width e.height e.format :=
  ⟨rfl, rfl, rfl, fun _ => List.length_replicate⟩

/-- Where only the rows of the planes are written, each channel is in the rows of its plane: an
image of zeros overwrites a buffer of ones. -/
theorem inRows_of_writes (h : e.Sound) {c : Fin 3} {pixel : ℕ × ℕ}
    (hpixel : pixel ∈ grid (e.imageWidth c) (e.layout.height c)) :
    e.InRows (planeOf e.rgb2bgr c) (pixel.2 * e.layout.stride c + pixel.1) := by
  have hfits : e.Fits fun plane => List.replicate (e.memory plane) 1 :=
    fun _ => List.length_replicate
  obtain ⟨planes', hget, -, hkeep⟩ := h.writes e.blank e.blank_sized _ hfits
  have hexported := exported_of_get e.blank_sized hget c
  have hzero : (planes' (planeOf e.rgb2bgr c))[pixel.2 * e.layout.stride c + pixel.1]? =
      some 0 := by
    by_cases hrow : e.imageHeight c ≤ pixel.2
    · exact hexported.cleared pixel hpixel hrow
    · have hmem := mem_grid.mp hpixel
      have hsample : (e.blank.channels c)[pixel.2 * e.imageWidth c + pixel.1]? = some 0 := by
        have hlt := pixel_lt hmem.1 (not_le.mp hrow)
        show (List.replicate _ 0)[_]? = _
        rw [List.getElem?_replicate, if_pos hlt]
      have hexport : exportSample e.shiftbits 0 = 0 := by
        have hconvert : toInt16 0 = 0 := toInt16_of_lt (by decide) (by decide)
        unfold exportSample
        rw [Nat.cast_zero, hconvert, zero_mul, hconvert, ite_self]
      rw [hexported.sample pixel (mem_grid.mpr ⟨hmem.1, not_le.mp hrow⟩), hsample,
        Option.map_some, hexport]
  by_contra hout
  rw [hkeep _ _ hout, List.getElem?_replicate] at hzero
  split_ifs at hzero
  cases hzero

/-- The second row of a channel is in the rows of its plane only when the rows of the plane are
not further apart. -/
theorem stride_le_of_inRows {plane : Fin 3} {stride : ℕ} (hwidth : e.layout.width plane ≤ stride)
    (h : e.InRows plane stride) : e.layout.stride plane ≤ stride := by
  obtain ⟨pixel, hpixel, heq⟩ := h
  have hmem := mem_grid.mp hpixel
  have hrow : pixel.2 ≠ 0 := by
    intro hzero
    rw [hzero, Nat.zero_mul] at heq
    omega
  have hle := Nat.le_mul_of_pos_left (e.layout.stride plane) (Nat.pos_of_ne_zero hrow)
  omega

theorem keepsPlanes_of_sound (h : e.Sound) : e.KeepsPlanes := by
  by_contra hnot
  unfold KeepsPlanes at hnot
  push Not at hnot
  obtain ⟨hswap, hcases⟩ := hnot
  have hrgb : e.rgb2bgr = true := by simpa using hswap
  have hwidthPos : 0 < e.imageWidth 0 := e.width_pos
  have hchroma : 0 < e.imageWidth 1 :=
    Nat.div_pos (Nat.le_of_dvd e.width_pos e.width_dvd) (subsample_pos e.format)
  have hheightPos : 0 < e.layout.heightY := e.height_pos.trans_le e.height_le
  have hwidths : e.layout.widthC ≤ e.layout.widthY := by
    rw [e.widthY_eq]
    exact Nat.le_mul_of_pos_left _ (subsample_pos e.format)
  -- the luma channel is written to the last plane, with the distance of the luma rows
  have hluma : ∀ v, v < e.layout.heightY → e.InRows 2 (v * e.layout.strideY) := by
    intro v hv
    have hin := @inRows_of_writes e h 0 (0, v) (mem_grid.mpr ⟨hwidthPos, hv⟩)
    rw [hrgb] at hin
    exact hin
  by_cases hformat : e.format = .YUV420
  · have hsub : e.format.subsample = 2 := if_pos hformat
    have hdouble := e.heightY_eq
    rw [hsub] at hdouble
    have hle : e.layout.strideC ≤ e.layout.strideY := by
      have hin := hluma 1 (by omega)
      rw [one_mul] at hin
      exact stride_le_of_inRows (hwidths.trans e.strideY_le) hin
    obtain ⟨pixel, hpixel, heq⟩ := hluma (e.layout.heightY - 1) (by omega)
    have hmem := mem_grid.mp hpixel
    have hrow : (pixel.2 + 1) * e.layout.strideC ≤ (e.layout.heightY - 1) * e.layout.strideY := by
      have hbelow : pixel.2 < e.layout.heightC := hmem.2
      exact Nat.mul_le_mul (by omega) hle
    have hcolumn : pixel.1 < e.layout.strideC := hmem.1.trans_le e.strideC_le
    have hstride : e.layout.stride 2 = e.layout.strideC := rfl
    rw [hstride] at heq
    rw [Nat.succ_mul] at hrow
    omega
  · obtain ⟨hne, hone⟩ := hcases hformat
    have hsub := subsample_of_ne hformat
    have hwidthEq : e.layout.widthY = e.layout.widthC := by rw [e.widthY_eq, hsub, one_mul]
    have hheightEq : e.layout.heightY = e.layout.heightC := by rw [e.heightY_eq, hsub, one_mul]
    have hle : e.layout.strideC ≤ e.layout.strideY := by
      have hin := hluma 1 (by omega)
      rw [one_mul] at hin
      exact stride_le_of_inRows (hwidths.trans e.strideY_le) hin
    have hge : e.layout.strideY ≤ e.layout.strideC := by
      have hrow : 1 < e.layout.height 1 := by
        show 1 < e.layout.heightC
        omega
      have hin := @inRows_of_writes e h 1 (0, 1) (mem_grid.mpr ⟨hchroma, hrow⟩)
      rw [hrgb, one_mul, add_zero] at hin
      exact @stride_le_of_inRows e 0 _ (hwidthEq.trans_le e.strideC_le) hin
    exact hne (le_antisymm hge hle)

/-- A byte that wraps: the largest source sample becomes zero. -/
theorem not_wraps_of_sound (h : e.Sound) : ¬(e.bits = 8 ∧ e.shiftbits = 2) := by
  intro hcase
  obtain ⟨hbits, hshift⟩ := hcase
  have hfits : e.Fits fun plane => List.replicate (e.memory plane) 1023 :=
    fun _ => List.length_replicate
  obtain ⟨image, hset, -, hsamples⟩ := h.saturates _ hfits
    (by
      intro plane i hi
      refine ⟨1023, ?_, by decide⟩
      rw [List.getElem?_replicate, if_pos hi.lt]
      rfl) e.blank
  have hpixel : ((0, 0) : ℕ × ℕ) ∈ grid (e.layout.width 0) (e.layout.height 0) :=
    mem_grid.mpr ⟨e.width_pos.trans_le e.width_le, e.height_pos.trans_le e.height_le⟩
  obtain ⟨x, hx, hsample⟩ := hsamples 0 _ hpixel
  obtain ⟨-, -, -, hstored⟩ := stored_of_set hset
  have hat := (hstored 0).at_place _ hpixel
  dsimp only at hx hsample hat
  rw [zero_mul] at hx hsample hat
  rw [zero_mul] at hat
  rw [hat, hx, Option.map_some, hbits, hshift] at hsample
  rw [List.getElem?_replicate] at hx
  split_ifs at hx
  obtain rfl : x = 1023 := by
    have hcast : (1023 : ℤ) = x := Option.some.inj hx
    omega
  exact absurd hsample (by decide)

end ImageExchange

/-- An exchange is sound when the samples of a byte are not shifted by two bits, and the channel
order swaps planes of one size with rows at the same distance only. -/
theorem imageExchange_sound_iff (e : ImageExchange) :
    e.Sound ↔ ¬(e.bits = 8 ∧ e.shiftbits = 2) ∧
      (e.rgb2bgr = false ∨
        e.format ≠ .YUV420 ∧ (e.layout.strideY = e.layout.strideC ∨ e.layout.heightY = 1)) := by
  constructor
  · intro h
    exact ⟨ImageExchange.not_wraps_of_sound h, ImageExchange.keepsPlanes_of_sound h⟩
  · intro h
    obtain ⟨hwraps, hkeeps⟩ := h
    have haligned := ImageExchange.KeepsPlanes.aligned hkeeps
    exact
      { restores := fun image hsized hsamples planes hfits =>
          haligned.restores hsized hsamples hfits
        saturates := fun planes hfits hsamples target =>
          haligned.saturates hwraps hfits hsamples target
        writes := fun image hsized planes hfits => haligned.writes hsized hfits
        reads := fun planes planes' _ _ hagree target => haligned.reads hagree target }

/-- A picture of one sample, of a byte and shifted by two bits. -/
def byteExchange : ImageExchange where
  bits := 8
  bits_mem := by decide
  shiftbits := 2
  shiftbits_mem := by decide
  holds := by decide
  format := .YUV444
  format_ne := by decide
  width := 1
  height := 1
  width_pos := by decide
  height_pos := by decide
  width_dvd := by decide
  height_dvd := by decide
  layout := ⟨1, 1, 1, 1, 1, 1⟩
  width_le := by decide
  height_le := by decide
  widthY_eq := by decide
  heightY_eq := by decide
  strideY_le := by decide
  strideC_le := by decide
  rgb2bgr := false
  memory := fun _ => 1
  rows_lt := by decide

theorem not_sound_byteExchange : ¬byteExchange.Sound :=
  fun h => ImageExchange.not_wraps_of_sound h ⟨rfl, rfl⟩

end V3C

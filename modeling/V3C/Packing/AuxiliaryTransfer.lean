import V3C.Packing.AuxiliaryVideo

/-! The loops of writer and reader pass over the pixels of the patches one after the other. -/
namespace V3C
open Cells

namespace PCCImageAttribute

/-- The components of a colour, plane by plane. -/
def component (color : PCCColor3B) : Fin 3 → UInt16
  | 0 => color.r.toUInt16
  | 1 => color.g.toUInt16
  | 2 => color.b.toUInt16

def Inside (image : PCCImageAttribute) (pixel : ℕ × ℕ) : Prop :=
  pixel.1 < image.width ∧ pixel.2 < image.height

instance (image : PCCImageAttribute) (pixel : ℕ × ℕ) : Decidable (image.Inside pixel) :=
  inferInstanceAs (Decidable (_ ∧ _))

theorem setColor_eq (image : PCCImageAttribute) (pixel : ℕ × ℕ) (color : PCCColor3B) :
    image.setColor pixel color =
      if image.Inside pixel then
        some { image with
          channels := fun c => Function.update (image.channels c) pixel (component color c) }
      else none := by
  by_cases h : image.Inside pixel
  · have hset : ∀ (channels : Fin 3 → ℕ × ℕ → UInt16) (c : Fin 3) (value : UInt16),
        setValue { image with channels := channels } c pixel value =
          some { image with
            channels := Function.update channels c (Function.update (channels c) pixel value) } :=
      fun _ _ _ => if_pos h
    rw [if_pos h]
    unfold setColor
    rw [show image = { image with channels := image.channels } from rfl]
    simp only [hset, Option.bind_eq_bind, Option.bind_some]
    congr 2
    funext c
    match c with
    | 0 => simp [component]
    | 1 => simp [component]
    | 2 => simp [component]
  · have hset : image.setValue 0 pixel color.r.toUInt16 = none := if_neg h
    rw [if_neg h]
    unfold setColor
    rw [hset]
    rfl

theorem getColor_eq (image : PCCImageAttribute) (pixel : ℕ × ℕ) :
    image.getColor pixel =
      if image.Inside pixel then
        some ⟨(image.channels 0 pixel).toUInt8, (image.channels 1 pixel).toUInt8,
          (image.channels 2 pixel).toUInt8⟩
      else none := by
  have hget : ∀ c : Fin 3, image.getValue c pixel =
      if image.Inside pixel then some (image.channels c pixel) else none := fun _ => rfl
  unfold getColor
  simp only [hget]
  split_ifs <;> rfl

theorem getColor_isSome (image : PCCImageAttribute) (pixel : ℕ × ℕ) :
    (image.getColor pixel).isSome ↔ image.Inside pixel := by
  rw [getColor_eq]
  split_ifs with h <;> simp [h]

/-- A picture is a store of colours. -/
theorem lawful : Lawful getColor setColor where
  put_isSome image pixel color := by
    rw [setColor_eq, getColor_eq]
    split_ifs <;> rfl
  get_put_self {image image' pixel color} h := by
    rw [setColor_eq] at h
    split_ifs at h with hin
    rw [← Option.some.inj h, getColor_eq]
    refine (if_pos hin).trans ?_
    simp [component]
  get_put_ne {image image' pixel pixel' color} h hne := by
    rw [setColor_eq] at h
    split_ifs at h with hin
    rw [← Option.some.inj h, getColor_eq, getColor_eq]
    simp only [Function.update_of_ne hne]
    rfl

theorem getColor_resize {width height : ℕ} {pixel : ℕ × ℕ} {color : PCCColor3B}
    (h : (resize width height).getColor pixel = some color) : color = ⟨0, 0, 0⟩ := by
  rw [getColor_eq] at h
  split_ifs at h
  exact (Option.some.inj h).symm

end PCCImageAttribute

open PCCImageAttribute

theorem zip_append_drop {α β : Type} (xs ys : List α) (zs : List β) :
    (xs ++ ys).zip zs = xs.zip zs ++ ys.zip (zs.drop xs.length) := by
  induction xs generalizing zs with
  | nil => rfl
  | cons x xs ih =>
    cases zs with
    | nil => simp
    | cons z zs => simp [ih]

namespace PCCEncoder

theorem writePixels_eq {attributes : List PCCColor3B} {offset : ℕ} {pixels : List (ℕ × ℕ)}
    (h : offset + pixels.length ≤ attributes.length) (image : PCCImageAttribute) :
    writePixels attributes offset pixels image =
      writeAll setColor (pixels.zip (attributes.drop offset)) image := by
  have hrun : ∀ (pixels : List (ℕ × ℕ)) (n : ℕ) (image : PCCImageAttribute),
      n + offset + pixels.length ≤ attributes.length →
      (pixels.zipIdx n).foldlM (fun image entry => do
        let color ← attributes[entry.2 + offset]?
        image.setColor entry.1 color) image =
        writeAll setColor (pixels.zip (attributes.drop (n + offset))) image := by
    intro pixels
    induction pixels with
    | nil =>
      intro n image _
      rfl
    | cons pixel pixels ih =>
      intro n image hlength
      rw [List.length_cons] at hlength
      have hlt : n + offset < attributes.length := by omega
      rw [List.zipIdx_cons, List.foldlM_cons, List.drop_eq_getElem_cons hlt, List.zip_cons_cons,
        writeAll_cons]
      simp only [List.getElem?_eq_getElem hlt, Option.bind_eq_bind, Option.bind_some]
      congr 1
      funext image
      have hnext := ih (n + 1) image (by omega)
      rw [show n + 1 + offset = n + offset + 1 by omega] at hnext
      exact hnext
  have := hrun pixels 0 image (by omega)
  rwa [Nat.zero_add] at this

end PCCEncoder

/-- A list with other values from an offset on. -/
def splice {α : Type} (xs : List α) (offset : ℕ) (ys : List α) : List α :=
  xs.take offset ++ ys ++ xs.drop (offset + ys.length)

theorem length_splice {α : Type} {xs ys : List α} {offset : ℕ}
    (h : offset + ys.length ≤ xs.length) : (splice xs offset ys).length = xs.length := by
  unfold splice
  rw [List.length_append, List.length_append, List.length_take, List.length_drop]
  omega

@[simp] theorem splice_nil {α : Type} (xs : List α) (offset : ℕ) : splice xs offset [] = xs := by
  simp [splice]

theorem splice_splice {α : Type} {xs ys zs : List α} {offset : ℕ}
    (h : offset + ys.length + zs.length ≤ xs.length) :
    splice (splice xs offset ys) (offset + ys.length) zs = splice xs offset (ys ++ zs) := by
  have hlength : (xs.take offset ++ ys).length = offset + ys.length := by
    rw [List.length_append, List.length_take]
    omega
  unfold splice
  rw [List.take_left' hlength, List.drop_append, hlength, List.drop_eq_nil_of_le (by omega),
    List.drop_drop, List.nil_append, List.length_append, Nat.add_sub_cancel_left, Nat.add_assoc]
  simp only [List.append_assoc]

theorem splice_set {α : Type} {xs ys : List α} {offset : ℕ} {x : α} (h : offset < xs.length) :
    splice (xs.set offset x) (offset + 1) ys = splice xs offset (x :: ys) := by
  have htake : (xs.set offset x).take (offset + 1) = xs.take offset ++ [x] := by
    rw [List.take_succ_eq_append_getElem (by rw [List.length_set]; exact h),
      List.take_set_of_le (Nat.le_refl _), List.getElem_set_self]
  unfold splice
  rw [htake, List.drop_set_of_lt (by omega), List.length_cons, List.append_assoc,
    List.append_assoc, List.append_assoc, Nat.add_right_comm, Nat.add_assoc]
  rfl

theorem splice_zero {α : Type} {xs ys : List α} (h : xs.length = ys.length) :
    splice xs 0 ys = ys := by
  simp [splice, ← h]

namespace PCCCodec

/-- Reading pixels replaces as many attributes from the offset on. -/
theorem readPixels_eq {image : PCCImageAttribute} {offset : ℕ} {pixels : List (ℕ × ℕ)}
    {attributes : List PCCColor3B} (h : offset + pixels.length ≤ attributes.length) :
    readPixels image offset pixels attributes =
      (readAll getColor pixels image).map (splice attributes offset) := by
  have hrun : ∀ (pixels : List (ℕ × ℕ)) (n : ℕ) (attributes : List PCCColor3B),
      n + offset + pixels.length ≤ attributes.length →
      (pixels.zipIdx n).foldlM (fun (attributes : List PCCColor3B) entry => do
        let color ← image.getColor entry.1
        if entry.2 + offset < attributes.length then some (attributes.set (entry.2 + offset) color)
        else none) attributes =
        (readAll getColor pixels image).map (splice attributes (n + offset)) := by
    intro pixels
    induction pixels with
    | nil =>
      intro n attributes _
      simp
    | cons pixel pixels ih =>
      intro n attributes hlength
      rw [List.length_cons] at hlength
      have hlt : n + offset < attributes.length := by omega
      rw [List.zipIdx_cons, List.foldlM_cons, readAll_cons]
      cases hcolor : image.getColor pixel with
      | none => rfl
      | some color =>
        have hnext := ih (n + 1) (attributes.set (n + offset) color) (by
          rw [List.length_set]
          omega)
        simp only [Option.bind_eq_bind, Option.bind_some, if_pos hlt]
        refine hnext.trans ?_
        rw [Option.map_map]
        congr 1
        funext colors
        rw [Nat.add_right_comm n 1 offset, splice_set hlt]
        rfl
  have := hrun pixels 0 attributes (by omega)
  rwa [Nat.zero_add] at this

end PCCCodec

/-- The number of points of the raw patches of a tile. -/
def rawCount (raws : List PCCRawPointsPatch) : ℕ :=
  (raws.map fun raw => raw.numberOfRawPoints).sum

def eomCount (eomPatches : List PCCEomPatch) : ℕ :=
  (eomPatches.map fun eomPatch => eomPatch.eomCount).sum

@[simp] theorem rawCount_cons (raw : PCCRawPointsPatch) (raws : List PCCRawPointsPatch) :
    rawCount (raw :: raws) = raw.numberOfRawPoints + rawCount raws := by
  simp [rawCount]

@[simp] theorem eomCount_cons (eomPatch : PCCEomPatch) (eomPatches : List PCCEomPatch) :
    eomCount (eomPatch :: eomPatches) = eomPatch.eomCount + eomCount eomPatches := by
  simp [eomCount]

/-- The pixels of the raw patches, patch by patch. -/
def rawPixels (leftTopY : ℕ) (raws : List PCCRawPointsPatch) : List (ℕ × ℕ) :=
  raws.flatMap fun raw => raw.pixels leftTopY

@[simp] theorem length_grid (width height : ℕ) : (grid width height).length = height * width := by
  simp [grid, List.length_flatMap]

/-- The area of a raw patch has a pixel for each of its points. -/
def PCCRawPointsPatch.Roomy (raw : PCCRawPointsPatch) : Prop :=
  raw.numberOfRawPoints ≤ raw.sizeV * raw.sizeU

theorem PCCRawPointsPatch.Roomy.length_pixels {raw : PCCRawPointsPatch} (h : raw.Roomy)
    (leftTopY : ℕ) : (raw.pixels leftTopY).length = raw.numberOfRawPoints := by
  unfold PCCRawPointsPatch.pixels
  rw [List.length_map, List.length_take, length_grid]
  exact Nat.min_eq_left h

theorem length_rawPixels {raws : List PCCRawPointsPatch} (h : ∀ raw ∈ raws, raw.Roomy)
    (leftTopY : ℕ) : (rawPixels leftTopY raws).length = rawCount raws := by
  induction raws with
  | nil => rfl
  | cons raw raws ih =>
    have hraw := (h raw List.mem_cons_self).length_pixels leftTopY
    have hraws := ih fun raw' hraw' => h raw' (List.mem_cons_of_mem raw hraw')
    unfold rawPixels at hraws ⊢
    rw [List.flatMap_cons, List.length_append, hraw, hraws, rawCount_cons]

namespace PCCEomPatch

/-- The pixels of an EOM patch, when `n` points of the tile come before it. -/
def pixelList (eomPatch : PCCEomPatch) (resolution widthInBlock leftTopY n : ℕ) :
    List (ℕ × ℕ) :=
  (List.range eomPatch.eomCount).map fun k =>
    eomPatch.pixel (eomPatch.u0 * resolution) (eomPatch.v0 * resolution) widthInBlock leftTopY k
      ((n + k) % (eomPatch.occupancyResolution * eomPatch.occupancyResolution))

@[simp] theorem length_pixelList (eomPatch : PCCEomPatch)
    (resolution widthInBlock leftTopY n : ℕ) :
    (eomPatch.pixelList resolution widthInBlock leftTopY n).length = eomPatch.eomCount := by
  simp [pixelList]

/-- The running count is the number of points so far, up to full blocks. -/
theorem pixelsFrom_eq {eomPatch : PCCEomPatch} {size : ℕ}
    (hsize : eomPatch.occupancyResolution * eomPatch.occupancyResolution = size)
    (hpos : 0 < size) (startX startY widthInBlock leftTopY left k n : ℕ) :
    eomPatch.pixelsFrom startX startY widthInBlock leftTopY left k (n % size) =
      ((List.range left).map fun i =>
        eomPatch.pixel startX startY widthInBlock leftTopY (k + i) ((n + i) % size),
        (n + left) % size) := by
  induction left generalizing k n with
  | zero => rfl
  | succ left ih =>
    have hnext : (if n % size + 1 ≥ size then 0 else n % size + 1) = (n + 1) % size := by
      have hlt := Nat.mod_lt n hpos
      rw [Nat.add_mod_eq_ite]
      by_cases hone : size = 1
      · subst hone
        simp [Nat.mod_one]
      · rw [Nat.mod_eq_of_lt (show 1 < size by omega)]
        split_ifs <;> omega
    simp only [pixelsFrom, hsize]
    rw [hnext, ih]
    rw [List.range_succ_eq_map, List.map_cons, List.map_map]
    have htail : ∀ i, k + 1 + i = k + (i + 1) ∧ n + 1 + i = n + (i + 1) := by omega
    simp only [Function.comp_def, (htail _).1, (htail _).2, Nat.succ_eq_add_one, Nat.add_zero]

theorem pixels_eq {eomPatch : PCCEomPatch} {own : ℕ} (hown : eomPatch.occupancyResolution = own)
    (hpos : own ≠ 0) (resolution : ℕ) {width : ℕ} (leftTopY n : ℕ)
    (hwidth : eomPatch.eomCount ≠ 0 → width / own ≠ 0) :
    eomPatch.pixels resolution width leftTopY (n % (own * own)) =
      some (eomPatch.pixelList resolution (width / own) leftTopY n,
        (n + eomPatch.eomCount) % (own * own)) := by
  subst hown
  have hsize : 0 < eomPatch.occupancyResolution * eomPatch.occupancyResolution :=
    Nat.mul_pos (Nat.pos_of_ne_zero hpos) (Nat.pos_of_ne_zero hpos)
  have hdiv : ¬(width / eomPatch.occupancyResolution = 0 ∧ eomPatch.eomCount ≠ 0) :=
    fun h => hwidth h.2 h.1
  unfold pixels
  rw [if_neg hpos]
  simp only [if_neg hdiv, pixelsFrom_eq rfl hsize, Nat.zero_add]
  rfl

end PCCEomPatch

/-- The pixels of the EOM patches, patch by patch. -/
def eomPixels (resolution widthInBlock leftTopY : ℕ) : List PCCEomPatch → ℕ → List (ℕ × ℕ)
  | [], _ => []
  | eomPatch :: eomPatches, n =>
    eomPatch.pixelList resolution widthInBlock leftTopY n ++
      eomPixels resolution widthInBlock leftTopY eomPatches (n + eomPatch.eomCount)

theorem eomPixels_cons (resolution widthInBlock leftTopY : ℕ) (eomPatch : PCCEomPatch)
    (eomPatches : List PCCEomPatch) (n : ℕ) :
    eomPixels resolution widthInBlock leftTopY (eomPatch :: eomPatches) n =
      eomPatch.pixelList resolution widthInBlock leftTopY n ++
        eomPixels resolution widthInBlock leftTopY eomPatches (n + eomPatch.eomCount) := rfl

@[simp] theorem length_eomPixels (resolution widthInBlock leftTopY : ℕ)
    (eomPatches : List PCCEomPatch) (n : ℕ) :
    (eomPixels resolution widthInBlock leftTopY eomPatches n).length = eomCount eomPatches := by
  induction eomPatches generalizing n with
  | nil => rfl
  | cons eomPatch eomPatches ih => simp [eomPixels_cons, ih]

namespace PCCEncoder

theorem writeRawPatches_eq {attributes : List PCCColor3B} {leftTopY : ℕ}
    {raws : List PCCRawPointsPatch} (hroomy : ∀ raw ∈ raws, raw.Roomy) {offset : ℕ}
    (hlength : offset + rawCount raws ≤ attributes.length) (image : PCCImageAttribute) :
    writeRawPatches attributes leftTopY raws offset image =
      (writeAll setColor ((rawPixels leftTopY raws).zip (attributes.drop offset)) image).map
        fun image => (image, offset + rawCount raws) := by
  induction raws generalizing offset image with
  | nil => rfl
  | cons raw raws ih =>
    rw [rawCount_cons] at hlength
    have hraw := (hroomy raw List.mem_cons_self).length_pixels leftTopY
    have hzip : (rawPixels leftTopY (raw :: raws)).zip (attributes.drop offset) =
        (raw.pixels leftTopY).zip (attributes.drop offset) ++
          (rawPixels leftTopY raws).zip (attributes.drop (offset + raw.numberOfRawPoints)) := by
      unfold rawPixels
      rw [List.flatMap_cons, zip_append_drop, hraw, List.drop_drop]
    unfold writeRawPatches
    rw [writePixels_eq (by omega), hzip, writeAll_append, Option.map_bind]
    simp only [Option.bind_eq_bind]
    congr 1
    funext image
    rw [rawCount_cons, ← Nat.add_assoc]
    exact ih (fun raw' hraw' => hroomy raw' (List.mem_cons_of_mem raw hraw')) (by omega) image

theorem writeEomPatches_eq {params : PackingParams} {attributes : List PCCColor3B}
    {width leftTopY : ℕ} {eomPatches : List PCCEomPatch} (hres : params.occupancyResolution ≠ 0)
    (heom : ∀ eomPatch ∈ eomPatches,
      eomPatch.occupancyResolution = params.occupancyResolution ∧
        (eomPatch.eomCount ≠ 0 → width / params.occupancyResolution ≠ 0)) {offset n : ℕ}
    (hlength : offset + eomCount eomPatches ≤ attributes.length) (image : PCCImageAttribute) :
    writeEomPatches params attributes width leftTopY eomPatches offset
        (n % (params.occupancyResolution * params.occupancyResolution)) image =
      writeAll setColor
        ((eomPixels params.occupancyResolution (width / params.occupancyResolution) leftTopY
          eomPatches n).zip (attributes.drop offset)) image := by
  induction eomPatches generalizing offset n image with
  | nil => rfl
  | cons eomPatch eomPatches ih =>
    rw [eomCount_cons] at hlength
    have hfirst := heom eomPatch List.mem_cons_self
    have hpixels := PCCEomPatch.pixels_eq hfirst.1 hres params.occupancyResolution leftTopY n
      hfirst.2
    have hzip : (eomPixels params.occupancyResolution (width / params.occupancyResolution) leftTopY
        (eomPatch :: eomPatches) n).zip (attributes.drop offset) =
        (eomPatch.pixelList params.occupancyResolution (width / params.occupancyResolution) leftTopY
          n).zip (attributes.drop offset) ++
        (eomPixels params.occupancyResolution (width / params.occupancyResolution) leftTopY
          eomPatches (n + eomPatch.eomCount)).zip
            (attributes.drop (offset + eomPatch.eomCount)) := by
      rw [eomPixels_cons, zip_append_drop, PCCEomPatch.length_pixelList, List.drop_drop]
    unfold writeEomPatches
    simp only [hpixels, Option.bind_eq_bind, Option.bind_some]
    rw [writePixels_eq (by rw [PCCEomPatch.length_pixelList]; omega), hzip, writeAll_append]
    congr 1
    funext image
    exact ih (fun eomPatch' h => heom eomPatch' (List.mem_cons_of_mem eomPatch h)) (by omega) image

end PCCEncoder

namespace PCCCodec

/-- The loop over the patches, where the reader finds the sizes that the writer had. -/
theorem readRawPatches_eq {image : PCCImageAttribute} {leftTopY : ℕ}
    {raws : List PCCRawPointsPatch}
    (hraws : ∀ raw ∈ raws, rawPatchSizes raw = raw ∧ raw.Roomy)
    {offset : ℕ} {attributes : List PCCColor3B}
    (hlength : offset + rawCount raws ≤ attributes.length) :
    readRawPatches image leftTopY raws offset attributes =
      (readAll getColor (rawPixels leftTopY raws) image).map fun colors =>
        (splice attributes offset colors, offset + rawCount raws) := by
  induction raws generalizing offset attributes with
  | nil => simp [readRawPatches, rawPixels, rawCount]
  | cons raw raws ih =>
    rw [rawCount_cons] at hlength
    have hfirst := hraws raw List.mem_cons_self
    have hraw := hfirst.2.length_pixels leftTopY
    have hpixels : rawPixels leftTopY (raw :: raws) =
        raw.pixels leftTopY ++ rawPixels leftTopY raws := List.flatMap_cons
    unfold readRawPatches
    rw [hfirst.1, readPixels_eq (by omega), hpixels, readAll_append]
    cases hcolors : readAll getColor (raw.pixels leftTopY) image with
    | none => rfl
    | some colors =>
      have hcount : colors.length = raw.numberOfRawPoints :=
        (length_of_readAll hcolors).trans hraw
      simp only [Option.map_some, Option.bind_eq_bind, Option.bind_some]
      rw [ih (fun raw' hraw' => hraws raw' (List.mem_cons_of_mem raw hraw'))
        (by rw [length_splice (by omega)]; omega), Option.map_map]
      cases hmore : readAll getColor (rawPixels leftTopY raws) image with
      | none => rfl
      | some more =>
        have hmoreLength := (length_of_readAll hmore).trans
          (length_rawPixels (fun raw' hraw' => (hraws raw' (List.mem_cons_of_mem raw hraw')).2)
            leftTopY)
        simp only [Option.map_some, Function.comp_apply]
        rw [← hcount, splice_splice (by omega), hcount, rawCount_cons, Nat.add_assoc]

theorem readEomPatches_eq {image : PCCImageAttribute} {resolution leftTopY : ℕ}
    {eomPatches : List PCCEomPatch} (hres : resolution ≠ 0)
    (heom : ∀ eomPatch ∈ eomPatches, eomPatch.occupancyResolution = resolution ∧
      (eomPatch.eomCount ≠ 0 → image.width / resolution ≠ 0)) {offset n : ℕ}
    {attributes : List PCCColor3B} (hlength : offset + eomCount eomPatches ≤ attributes.length) :
    readEomPatches image leftTopY eomPatches offset (n % (resolution * resolution)) attributes =
      (readAll getColor (eomPixels resolution (image.width / resolution) leftTopY eomPatches n)
        image).map (splice attributes offset) := by
  induction eomPatches generalizing offset n attributes with
  | nil => simp [readEomPatches, eomPixels]
  | cons eomPatch eomPatches ih =>
    rw [eomCount_cons] at hlength
    have hfirst := heom eomPatch List.mem_cons_self
    have hpixels := PCCEomPatch.pixels_eq hfirst.1 hres eomPatch.occupancyResolution leftTopY n
      hfirst.2
    unfold readEomPatches
    rw [hpixels, hfirst.1, eomPixels_cons, readAll_append]
    simp only [Option.bind_eq_bind, Option.bind_some]
    rw [readPixels_eq (by rw [PCCEomPatch.length_pixelList]; omega)]
    cases hcolors : readAll getColor
        (eomPatch.pixelList resolution (image.width / resolution) leftTopY n) image with
    | none => rfl
    | some colors =>
      have hcount : colors.length = eomPatch.eomCount := by
        rw [length_of_readAll hcolors, PCCEomPatch.length_pixelList]
      simp only [Option.map_some, Option.bind_some]
      rw [ih (fun eomPatch' h => heom eomPatch' (List.mem_cons_of_mem eomPatch h))
        (by rw [length_splice (by omega)]; omega), Option.map_map]
      cases hmore : readAll getColor (eomPixels resolution (image.width / resolution) leftTopY
          eomPatches (n + eomPatch.eomCount)) image with
      | none => rfl
      | some more =>
        have hmoreLength := length_of_readAll hmore
        rw [length_eomPixels] at hmoreLength
        simp only [Option.map_some, Function.comp_apply]
        rw [← hcount, splice_splice (by omega)]

end PCCCodec

end V3C
